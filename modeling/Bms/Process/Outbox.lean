import Bms.Process.Pool
import Mathlib.Data.List.Flatten
import Mathlib.Data.List.Nodup
import Mathlib.Data.List.Perm.Basic

/-! # Outboxes and tickets

An outbox is a list in the shared state to which some calls add, and which nothing else changes: it holds
exactly what the tasks of the pool have added, in some order. A ticket is drawn by a call and never drawn
again. If every task puts on what it adds a ticket of its own, then nothing in the outbox is there twice.
-/

namespace Process

variable {P : PFunctor.{0, 0}} {σ κ μ τ : Type} {S : Platform P σ κ} {source target : Pool P σ κ} {event : Event P κ}

/-- What can be read off the calls that the tasks have made. -/
def Pool.made (pool : Pool P σ κ) (reads : Call P → Option μ) : List μ :=
  pool.tasks.flatMap fun task => task.log.filterMap reads

/-- What can be read off the call of an event. -/
def Event.read (event : Event P κ) (reads : Call P → Option μ) : List μ :=
  match event with
  | .call _ made => (reads made).toList
  | _ => []

/-- Replacing an item adds what is now read off it. -/
theorem flatMap_set_perm {α β : Type} {f : α → List β} {items : List α} {position : ℕ} {item other : α} {added : List β}
    (present : items[position]? = some item) (adds : (f other).Perm (added ++ f item)) :
    ((items.set position other).flatMap f).Perm (added ++ items.flatMap f) := by
  induction items generalizing position with
  | nil => cases present
  | cons first rest ih =>
    cases position with
    | zero =>
      obtain rfl := Option.some.inj present
      rw [List.set_cons_zero, List.flatMap_cons, List.flatMap_cons, ← List.append_assoc]
      exact adds.append_right _
    | succ position =>
      rw [List.set_cons_succ, List.flatMap_cons, List.flatMap_cons]
      have later := (ih present).append_left (f first)
      have turned : (f first ++ added).Perm (added ++ f first) := List.perm_append_comm
      rw [← List.append_assoc] at later ⊢
      exact later.trans (turned.append_right _)

theorem filterMap_concat {α β : Type} (f : α → Option β) (items : List α) (last : α) :
    (items ++ [last]).filterMap f = items.filterMap f ++ (f last).toList := by
  rw [List.filterMap_append, List.filterMap_cons]
  cases f last <;> rfl

/-- A step adds what can be read off its call. -/
theorem Step.made (step : Step S source event target) (reads : Call P → Option μ) :
    (target.made reads).Perm (event.read reads ++ source.made reads) := by
  cases step with
  | spawn =>
    simp only [Pool.made, Event.read, List.flatMap_append, List.flatMap_cons, List.flatMap_nil, List.filterMap_nil,
      List.append_nil, List.nil_append]
    exact .refl _
  | @call position task op next reply present =>
    refine flatMap_set_perm present ?_
    rw [filterMap_concat]
    exact List.perm_append_comm
  | drift => exact .refl _

/-! ## Outboxes -/

/-- A list in the shared state to which some calls add, and which nothing else changes. -/
structure Outbox (S : Platform P σ κ) (μ : Type) where
  contents : σ → List μ
  adds : Call P → Option μ
  after : ∀ {world made}, S.allows world made → contents (S.after world made) = (adds made).toList ++ contents world
  enter : ∀ world kind, contents (S.enter world kind) = contents world
  drifts : ∀ {world other}, S.drifts world other → contents other = contents world

namespace Outbox

variable (box : Outbox S μ)

theorem step (step : Step S source event target) :
    box.contents target.world = event.read box.adds ++ box.contents source.world := by
  cases step with
  | spawn => exact box.enter ..
  | call _ _ allowed => exact box.after allowed
  | drift drifts => exact box.drifts drifts

/-- An outbox holds what the tasks have added, if it has done so at first. -/
theorem perm_made {ok : Pool P σ κ → Event P κ → Prop} {events : List (Event P κ)}
    (run : Run S ok source events target) (start : (box.contents source.world).Perm (source.made box.adds)) :
    (box.contents target.world).Perm (target.made box.adds) := by
  refine run.invariant (I := fun pool => (box.contents pool.world).Perm (pool.made box.adds)) ?_ start
  intro pool event next same _ step
  rw [box.step step]
  exact (same.append_left _).trans (step.made box.adds).symm

end Outbox

/-! ## Tickets -/

/-- Values that calls draw, and that are never drawn again. -/
structure Tickets (S : Platform P σ κ) (τ : Type) where
  taken : σ → Set τ
  draws : Call P → Option τ
  fresh : ∀ {world made ticket}, S.allows world made → draws made = some ticket →
    ticket ∉ taken world ∧ ticket ∈ taken (S.after world made)
  grows : ∀ {source target event}, Step S source event target → taken source.world ⊆ taken target.world

namespace Tickets

variable (tickets : Tickets S τ)

/-- No ticket is drawn twice. -/
theorem nodup_made {ok : Pool P σ κ → Event P κ → Prop} {events : List (Event P κ)}
    (run : Run S ok source events target) (empty : source.tasks = []) : (target.made tickets.draws).Nodup := by
  suffices both : (∀ ticket ∈ target.made tickets.draws, ticket ∈ tickets.taken target.world) ∧
      (target.made tickets.draws).Nodup from both.2
  refine run.invariant (I := fun pool => (∀ ticket ∈ pool.made tickets.draws, ticket ∈ tickets.taken pool.world) ∧
    (pool.made tickets.draws).Nodup) ?_ ?_
  · rintro pool event next ⟨taken, distinct⟩ _ step
    have added := step.made tickets.draws
    have grows := tickets.grows step
    have drawn : ∀ ticket ∈ event.read tickets.draws,
        ticket ∉ tickets.taken pool.world ∧ ticket ∈ tickets.taken next.world := by
      intro ticket member
      cases step with
      | call _ _ allowed => exact tickets.fresh allowed (Option.mem_toList.mp member)
      | _ => cases member
    have single : (event.read tickets.draws).Nodup := by
      cases event with
      | call position made => exact Option.toList_nodup _
      | _ => exact List.nodup_nil
    refine ⟨fun ticket member => ?_, added.nodup_iff.mpr (single.append distinct ?_)⟩
    · obtain new | old := List.mem_append.mp (added.mem_iff.mp member)
      · exact (drawn ticket new).2
      · exact grows (taken ticket old)
    · exact fun ticket new old => (drawn ticket new).1 (taken ticket old)
  · simp [Pool.made, empty]

end Tickets

/-- A ticket has been drawn by one task only. -/
theorem Pool.position_unique {pool : Pool P σ κ} {draws : Call P → Option τ} (distinct : (pool.made draws).Nodup)
    {position other : ℕ} {task task' : Task P κ} (present : pool.tasks[position]? = some task)
    (present' : pool.tasks[other]? = some task') {ticket : τ} (drawn : ticket ∈ task.log.filterMap draws)
    (drawn' : ticket ∈ task'.log.filterMap draws) : position = other := by
  obtain ⟨bound, rfl⟩ := List.getElem?_eq_some_iff.mp present
  obtain ⟨bound', rfl⟩ := List.getElem?_eq_some_iff.mp present'
  have apart := List.pairwise_iff_getElem.mp (List.nodup_flatMap.mp distinct).2
  obtain before | same | after := Nat.lt_trichotomy position other
  · exact absurd drawn' (apart position other bound bound' before drawn)
  · exact same
  · exact absurd drawn (apart other position bound' bound after drawn')

/-- If a task adds at most one thing of a kind, and only certain tasks add any, these are at least as many. -/
theorem Pool.length_made_le {pool : Pool P σ κ} {adds : Call P → Option μ} {wanted : μ → Bool} {able : Task P κ → Bool}
    (few : ∀ task ∈ pool.tasks, ((task.log.filterMap adds).filter wanted).length ≤ if able task then 1 else 0) :
    ((pool.made adds).filter wanted).length ≤ pool.tasks.countP able := by
  rw [Pool.made, List.filter_flatMap]
  generalize pool.tasks = tasks at few
  induction tasks with
  | nil => exact Nat.zero_le _
  | cons task tasks ih =>
    have first := few task List.mem_cons_self
    have rest := ih fun other member => few other (List.mem_cons_of_mem _ member)
    rw [List.flatMap_cons, List.length_append, List.countP_cons]
    omega

/-- A call that a task has logged was legal when it was made. -/
theorem Monitor.Permits.legal_of_mem {φ : Type} {M : Monitor P κ φ} {kind : κ} {log : List (Call P)}
    (permits : M.Permits kind log) {made : Call P} (member : made ∈ log) : ∃ phase, M.legal kind phase made.op := by
  induction permits with
  | nil => cases member
  | concat earlier legal ih =>
    obtain before | now := List.mem_append.mp member
    · exact ih before
    · obtain rfl := List.mem_singleton.mp now
      exact ⟨_, legal⟩

end Process
