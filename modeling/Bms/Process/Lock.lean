import Bms.Process.Pool

/-! # Locks

A part of the shared state is a lock, and the phases of a monitor say when a task holds it. Where a task takes it
only when it is free and nobody but its holder gives it back, at most one task holds it in every run, and it is
locked exactly as long as one does (`Lock.Guards.step`).
-/

namespace Process

variable {P : PFunctor.{0, 0}} {σ κ φ : Type}

structure Lock (σ φ : Type) where
  locked : σ → Prop
  /-- the phases of a task that holds the lock -/
  holds : φ → Prop

namespace Lock

variable (lock : Lock σ φ) {S : Platform P σ κ} {M : Monitor P κ φ} {source target : Pool P σ κ} {event : Event P κ}

/-- The task at a position holds the lock. -/
def Holder (M : Monitor P κ φ) (pool : Pool P σ κ) (position : ℕ) : Prop :=
  ∃ task, pool.tasks[position]? = some task ∧ lock.holds (M.phase task)

/-- The lock is locked exactly as long as a task holds it, and never by two. -/
structure Exclusive (M : Monitor P κ φ) (pool : Pool P σ κ) : Prop where
  unique : ∀ position other, lock.Holder M pool position → lock.Holder M pool other → position = other
  locked : lock.locked pool.world ↔ ∃ position, lock.Holder M pool position

/-- The calls that a monitor permits take the lock when it is free, and give it back. -/
structure Guards (M : Monitor P κ φ) (S : Platform P σ κ) : Prop where
  starts : ∀ kind, ¬ lock.holds (M.start kind)
  takes : ∀ {world kind phase made}, S.allows world made → M.legal kind phase made.op → ¬ lock.holds phase →
    lock.holds (M.note phase made) → ¬ lock.locked world ∧ lock.locked (S.after world made)
  releases : ∀ {world kind phase made}, M.legal kind phase made.op → lock.holds phase →
    ¬ lock.holds (M.note phase made) → ¬ lock.locked (S.after world made)
  keeps : ∀ {world kind phase made}, M.legal kind phase made.op → (lock.holds phase ↔ lock.holds (M.note phase made)) →
    (lock.locked (S.after world made) ↔ lock.locked world)
  enters : ∀ world kind, lock.locked (S.enter world kind) ↔ lock.locked world
  drifts : ∀ {world later}, S.drifts world later → (lock.locked later ↔ lock.locked world)

variable {lock}

/-- A free lock that nobody holds is exclusive. -/
theorem exclusive_of_none {pool : Pool P σ κ} (free : ¬ lock.locked pool.world)
    (none : ∀ position, ¬ lock.Holder M pool position) : lock.Exclusive M pool where
  unique position _ holder := absurd holder (none position)
  locked := iff_of_false free fun ⟨position, holder⟩ => none position holder

/-- Where the holders of the lock stay the same, and so does the lock, it stays exclusive. -/
theorem Exclusive.of_same (exclusive : lock.Exclusive M source)
    (same : ∀ position, lock.Holder M target position ↔ lock.Holder M source position)
    (locked : lock.locked target.world ↔ lock.locked source.world) : lock.Exclusive M target where
  unique position other holder holder' :=
    exclusive.unique position other ((same position).mp holder) ((same other).mp holder')
  locked := by simp only [locked, exclusive.locked, same]

/-- Whoever makes no call goes on holding the lock, or not holding it. -/
theorem holder_elsewhere {caller position : ℕ} {made : Call P} (step : Step S source (.call caller made) target)
    (other : caller ≠ position) : lock.Holder M target position ↔ lock.Holder M source position := by
  cases step with
  | call => simp only [Holder, List.getElem?_set_ne other]

/-- The caller holds the lock before and after its call as its phases say. -/
theorem holder_caller (tracks : M.TracksAll source) {caller : ℕ} {made : Call P}
    (step : Step S source (.call caller made) target) :
    ∃ kind phase, M.legal kind phase made.op ∧ S.allows source.world made ∧ target.world = S.after source.world made ∧
      (lock.Holder M source caller ↔ lock.holds phase) ∧ (lock.Holder M target caller ↔ lock.holds (M.note phase made)) := by
  cases step with
  | @call _ task op next reply present awaits allowed =>
    have bound := (List.getElem?_eq_some_iff.mp present).1
    have noted := M.phase_concat task.kind task.log ⟨op, reply⟩ task.rest (next reply)
    refine ⟨task.kind, M.phase task, (tracks caller task present).legal awaits, allowed, rfl, ?_, ?_⟩
    · simp only [Holder, present, Option.some.injEq, exists_eq_left']
    · simp only [Holder, List.getElem?_set_self bound, Option.some.injEq, exists_eq_left', noted]

theorem Guards.step (guards : lock.Guards M S) (tracks : M.TracksAll source) (exclusive : lock.Exclusive M source)
    (step : Step S source event target) : lock.Exclusive M target := by
  cases event with
  | spawn kind =>
    cases step with
    | spawn admitted =>
      refine exclusive.of_same (fun position => ?_) (guards.enters ..)
      constructor
      · rintro ⟨task, present, holds⟩
        rcases Nat.lt_or_ge position source.tasks.length with old | new
        · exact ⟨task, by simpa only [List.getElem?_append_left old] using present, holds⟩
        · rw [List.getElem?_append_right new] at present
          obtain rfl := List.mem_singleton.mp (List.mem_of_getElem? present)
          exact absurd holds (guards.starts _)
      · rintro ⟨task, present, holds⟩
        have old := (List.getElem?_eq_some_iff.mp present).1
        exact ⟨task, by simpa only [List.getElem?_append_left old] using present, holds⟩
  | drift =>
    cases step with
    | drift drifts => exact exclusive.of_same (fun _ => Iff.rfl) (guards.drifts drifts)
  | call caller made =>
    obtain ⟨kind, phase, legal, allowed, reached, here, there⟩ := holder_caller tracks step
    have same (kept : lock.holds phase ↔ lock.holds (M.note phase made)) : lock.Exclusive M target := by
      apply exclusive.of_same
      · intro position
        by_cases own : caller = position
        · subst own
          rw [here, there, kept]
        · exact holder_elsewhere step own
      · rw [reached]
        exact guards.keeps legal kept
    by_cases held : lock.holds phase <;> by_cases holds : lock.holds (M.note phase made)
    · exact same (iff_of_true held holds)
    · -- the lock is given back, and no other task has held it
      have none (position : ℕ) : ¬ lock.Holder M target position := by
        intro holder
        by_cases own : caller = position
        · subst own
          exact holds (there.mp holder)
        · exact own (exclusive.unique _ _ (here.mpr held) ((holder_elsewhere step own).mp holder))
      refine ⟨fun position _ holder => absurd holder (none position), iff_of_false ?_ fun ⟨i, holder⟩ => none i holder⟩
      rw [reached]
      exact guards.releases legal held holds
    · -- the lock is taken, and no task has held it
      obtain ⟨free, locked⟩ := guards.takes allowed legal held holds
      have only {position : ℕ} (holder : lock.Holder M target position) : caller = position := by
        by_contra own
        exact free (exclusive.locked.mpr ⟨position, (holder_elsewhere step own).mp holder⟩)
      refine ⟨fun _ _ holder holder' => (only holder).symm.trans (only holder'), iff_of_true ?_ ⟨caller, there.mpr holds⟩⟩
      rw [reached]
      exact locked
    · exact same (iff_of_false held holds)

end Lock

end Process
