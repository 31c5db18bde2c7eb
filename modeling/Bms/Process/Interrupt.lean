import Bms.Process.Pool

/-! # Tasks that may be stopped

A pool whose tasks may be stopped between two of their calls. A task that has been stopped makes no
further call, and counts as returned where it matters what is in flight. The pool in which such a
task merely stands still shadows the real one: every step is one of the shadow too (`Step.shadow`),
except that more tasks may be started than the shadow would admit.
-/

namespace Process

variable {P : PFunctor.{0, 0}} {σ κ φ : Type}

/-- The task without what it still had to do. -/
def Task.stopped (task : Task P κ) : Task P κ := ⟨task.kind, task.log, .ret ()⟩

theorem Task.not_inFlight_stopped (task : Task P κ) : ¬ task.stopped.InFlight := Prog.not_awaits_ret ()

/-- A step of the pool, or a task is stopped. -/
inductive Happening (P : PFunctor.{0, 0}) (κ : Type)
  | event (event : Event P κ)
  | stop (position : ℕ)

inductive StopStep (S : Platform P σ κ) (mayStop : κ → Prop) : Pool P σ κ → Happening P κ → Pool P σ κ → Prop
  | event {source target : Pool P σ κ} {event : Event P κ} (step : Step S source event target) :
      StopStep S mayStop source (.event event) target
  | stop {pool : Pool P σ κ} {position : ℕ} {task : Task P κ} (present : pool.tasks[position]? = some task)
      (may : mayStop task.kind) :
      StopStep S mayStop pool (.stop position) ⟨pool.world, pool.tasks.set position task.stopped⟩

/-- A finite run with stops whose steps all meet `ok`. -/
inductive StopRun (S : Platform P σ κ) (mayStop : κ → Prop) (ok : Pool P σ κ → Happening P κ → Prop) :
    Pool P σ κ → List (Happening P κ) → Pool P σ κ → Prop
  | nil (pool : Pool P σ κ) : StopRun S mayStop ok pool [] pool
  | cons {source middle target : Pool P σ κ} {happening : Happening P κ} {happenings : List (Happening P κ)} :
      ok source happening → StopStep S mayStop source happening middle → StopRun S mayStop ok middle happenings target →
      StopRun S mayStop ok source (happening :: happenings) target

variable {S : Platform P σ κ} {mayStop : κ → Prop} {ok : Pool P σ κ → Happening P κ → Prop}
  {ghost pool source target : Pool P σ κ} {event : Event P κ}

/-- What every step and every stop preserves, a run preserves. -/
theorem StopRun.invariant {I : Pool P σ κ → Prop} {happenings : List (Happening P κ)}
    (run : StopRun S mayStop ok source happenings target)
    (step : ∀ {pool happening next}, I pool → ok pool happening → StopStep S mayStop pool happening next → I next)
    (initial : I source) : I target := by
  induction run with
  | nil => exact initial
  | cons meets taken _ ih => exact ih (step initial meets taken)

/-- A run without stops. -/
theorem Run.stopRun (mayStop : κ → Prop) (ok : Pool P σ κ → Happening P κ → Prop) {events : List (Event P κ)}
    (run : Run S (fun pool event => ok pool (.event event)) source events target) :
    StopRun S mayStop ok source (events.map .event) target := by
  induction run with
  | nil => exact .nil _
  | cons meets step _ ih => exact .cons meets (.event step) ih

/-- The platform on which any task may start. -/
def Platform.unguarded (S : Platform P σ κ) : Platform P σ κ := { S with admits := fun _ _ => True }

/-- Only starts are guarded. -/
theorem Step.guarded (step : Step S.unguarded source event target) (starts : ∀ kind, event ≠ .spawn kind) :
    Step S source event target := by
  cases step with
  | spawn _ => exact absurd rfl (starts _)
  | call present awaits allowed => exact .call present awaits allowed
  | drift drifts => exact .drift drifts

/-- A monitor covers the same programs, whenever they start. -/
theorem Monitor.Covers.unguarded {M : Monitor P κ φ} (covers : M.Covers S) : M.Covers S.unguarded := covers

/-- The pool is like its shadow, but for tasks that have been stopped. -/
structure Shadows (ghost pool : Pool P σ κ) : Prop where
  world : pool.world = ghost.world
  length : pool.tasks.length = ghost.tasks.length
  tasks : ∀ (position : ℕ) (task : Task P κ), ghost.tasks[position]? = some task →
    pool.tasks[position]? = some task ∨ pool.tasks[position]? = some task.stopped

theorem Shadows.refl (pool : Pool P σ κ) : Shadows pool pool := ⟨rfl, rfl, fun _ _ present => .inl present⟩

/-- Where there is a task there is its shadow. -/
theorem Shadows.found (shadows : Shadows ghost pool) {position : ℕ} {task : Task P κ}
    (present : pool.tasks[position]? = some task) :
    ∃ shadow, ghost.tasks[position]? = some shadow ∧ (task = shadow ∨ task = shadow.stopped) := by
  have bound : position < ghost.tasks.length := shadows.length ▸ (List.getElem?_eq_some_iff.mp present).1
  refine ⟨ghost.tasks[position], List.getElem?_eq_getElem bound, ?_⟩
  rcases shadows.tasks position _ (List.getElem?_eq_getElem bound) with same | stopped
  · exact .inl (Option.some.inj (present.symm.trans same))
  · exact .inr (Option.some.inj (present.symm.trans stopped))

/-- A task in flight has not been stopped. -/
theorem Shadows.flying (shadows : Shadows ghost pool) {position : ℕ} {task : Task P κ}
    (present : pool.tasks[position]? = some task) (flying : task.InFlight) : ghost.tasks[position]? = some task := by
  obtain ⟨shadow, here, rfl | rfl⟩ := shadows.found present
  · exact here
  · exact absurd flying shadow.not_inFlight_stopped

theorem Shadows.at {M : Monitor P κ φ} (shadows : Shadows ghost pool) {position : ℕ} {kind : κ} {phase : φ}
    (here : M.At pool position kind phase) : M.At ghost position kind phase := by
  obtain ⟨task, present, flying, same, reached⟩ := here
  exact ⟨task, shadows.flying present flying, flying, same, reached⟩

/-- A step of the pool is a step of its shadow, where the task that calls is not a stopped one. -/
theorem Step.shadow (step : Step S source event target) (shadows : Shadows ghost source) :
    ∃ later, Shadows later target ∧ Step S.unguarded ghost event later ∧
      ∀ position made, event = .call position made → target.tasks[position]? = later.tasks[position]? := by
  cases step with
  | @spawn kind admitted =>
    refine ⟨⟨S.enter ghost.world kind, ghost.tasks ++ [⟨kind, [], S.body kind⟩]⟩,
      ⟨?_, ?_, fun position task present => ?_⟩,
      .spawn trivial, fun position made same => nomatch same⟩
    · rw [shadows.world]
    · rw [List.length_append, List.length_append, shadows.length]
    · rcases Nat.lt_or_ge position ghost.tasks.length with old | new
      · rw [List.getElem?_append_left old] at present
        rw [List.getElem?_append_left (shadows.length ▸ old)]
        exact shadows.tasks position task present
      · rw [List.getElem?_append_right new] at present
        rw [List.getElem?_append_right (shadows.length ▸ new), shadows.length]
        exact .inl present
  | @call caller task op next reply present awaits allowed =>
    have here := shadows.flying present ⟨op, next, awaits⟩
    have bound := (List.getElem?_eq_some_iff.mp here).1
    rw [shadows.world] at allowed
    refine ⟨_, ⟨?_, ?_, fun position shadow found => ?_⟩, .call here awaits allowed, fun position made same => ?_⟩
    · rw [shadows.world]
      rfl
    · rw [List.length_set, List.length_set, shadows.length]
    · by_cases own : caller = position
      · subst own
        rw [List.getElem?_set_self bound] at found
        rw [List.getElem?_set_self (shadows.length ▸ bound)]
        exact .inl found
      · rw [List.getElem?_set_ne own] at found ⊢
        exact shadows.tasks position shadow found
    · cases same
      rw [List.getElem?_set_self bound, List.getElem?_set_self (shadows.length ▸ bound)]
  | drift drifts =>
    rw [shadows.world] at drifts
    exact ⟨⟨_, ghost.tasks⟩, ⟨rfl, shadows.length, shadows.tasks⟩, .drift drifts,
      fun position made same => nomatch same⟩

/-- A stop leaves the shadow as it is. -/
theorem Shadows.stop (shadows : Shadows ghost pool) {position : ℕ} {task : Task P κ}
    (present : pool.tasks[position]? = some task) :
    Shadows ghost ⟨pool.world, pool.tasks.set position task.stopped⟩ := by
  have bound := (List.getElem?_eq_some_iff.mp present).1
  refine ⟨shadows.world, (List.length_set ..).trans shadows.length, fun other shadow found => ?_⟩
  by_cases own : position = other
  · subst own
    rw [List.getElem?_set_self bound]
    obtain ⟨shadow', found', rfl | rfl⟩ := shadows.found present
    · rw [found] at found'
      cases found'
      exact .inr rfl
    · rw [found] at found'
      cases found'
      exact .inr rfl
  · rw [List.getElem?_set_ne own]
    exact shadows.tasks other shadow found

end Process
