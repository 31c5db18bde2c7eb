import Bms.Process.Pool
import Mathlib.Algebra.BigOperators.Group.List.Basic
import Mathlib.Algebra.GroupWithZero.Nat
import Mathlib.Algebra.Order.BigOperators.Group.List
import Mathlib.Algebra.Order.Group.Nat

/-! # Tallies

A tally says for which item a task counts once it has returned. A step counts at most the task that returns with
it, and the counts of the items add up to the number of all tasks that count.
-/

namespace Process

variable {P : PFunctor.{0, 0}} {σ κ ι : Type} {S : Platform P σ κ}

/-- What a task that has returned counts for, if anything. -/
structure Tally (S : Platform P σ κ) (ι : Type) where
  counts : Task P κ → Option ι
  returned : ∀ {task item}, counts task = some item → ¬ task.InFlight
  fresh : ∀ kind, counts ⟨kind, [], S.body kind⟩ = none

namespace Tally

variable [DecidableEq ι] (tally : Tally S ι)

/-- The tasks that count for an item. -/
def of (pool : Pool P σ κ) (item : ι) : ℕ := pool.tasks.countP fun task => tally.counts task = some item

/-- The tasks that count. -/
def total (pool : Pool P σ κ) : ℕ := pool.tasks.countP fun task => (tally.counts task).isSome

/-- A step leaves the count of an item alone, or its call is the last of a task that counts for the item. -/
theorem step {source target : Pool P σ κ} {event : Event P κ} (step : Step S source event target) (item : ι) :
    tally.of target item = tally.of source item ∨
      ∃ position task op next reply, source.tasks[position]? = some task ∧ task.rest = .call op next ∧
        event = .call position ⟨op, reply⟩ ∧
        target.tasks[position]? = some ⟨task.kind, task.log ++ [⟨op, reply⟩], next reply⟩ ∧
        tally.counts ⟨task.kind, task.log ++ [⟨op, reply⟩], next reply⟩ = some item ∧
        tally.of target item = tally.of source item + 1 := by
  cases step with
  | @spawn kind admitted =>
    left
    simp [of, tally.fresh kind]
  | drift drifts => exact .inl rfl
  | @call position task op next reply present awaits allowed =>
    obtain ⟨bound, same⟩ := List.getElem?_eq_some_iff.mp present
    have uncounted : ¬ tally.counts task = some item := fun counts => tally.returned counts ⟨op, next, awaits⟩
    have counted := List.countP_set (p := fun task => decide (tally.counts task = some item)) bound
      (a := ⟨task.kind, task.log ++ [⟨op, reply⟩], next reply⟩)
    rw [same, if_neg (by simpa using uncounted), Nat.sub_zero] at counted
    by_cases counts : tally.counts ⟨task.kind, task.log ++ [⟨op, reply⟩], next reply⟩ = some item
    · rw [if_pos (by simpa using counts)] at counted
      exact .inr ⟨position, task, op, next, reply, present, awaits, rfl, List.getElem?_set_self bound, counts, counted⟩
    · rw [if_neg (by simpa using counts)] at counted
      exact .inl counted

/-- Where all items that tasks count for are listed, their counts add up to the total. -/
theorem total_le {pool : Pool P σ κ} {items : List ι}
    (listed : ∀ task ∈ pool.tasks, ∀ item, tally.counts task = some item → item ∈ items) :
    tally.total pool ≤ (items.map (tally.of pool)).sum := by
  unfold total of
  generalize pool.tasks = tasks at listed
  induction tasks with
  | nil => simp
  | cons task tasks ih =>
    have later := ih fun other member => listed other (List.mem_cons_of_mem _ member)
    simp only [List.countP_cons, List.sum_map_add]
    refine Nat.add_le_add later ?_
    cases counts : tally.counts task with
    | none => simp
    | some item =>
      have member := listed task (List.mem_cons_self ..) item counts
      have one : (if decide (some item = some item) = true then 1 else 0) ≤
          (items.map fun other => if decide (some item = some other) = true then 1 else 0).sum :=
        List.single_le_sum (by simp) _ (List.mem_map.mpr ⟨item, member, rfl⟩)
      simpa using one

end Tally

end Process
