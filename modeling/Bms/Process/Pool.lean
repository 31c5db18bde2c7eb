import Bms.Process.Prog
import Mathlib.Data.List.Basic

/-! # Pools of programs on shared state

A platform says which replies the shared state `σ` may give to a call and what the call does to it.
A pool holds every task started so far, each with the calls it has made and the program it still has
to run; a step lets one task make one call, starts a task, or lets the state drift on its own. Any
interleaving of the tasks is a run. Tasks are never removed, so a position names a task for good.

`Run ok` is a run whose steps all meet `ok`. An invariant of a run is an invariant of its steps
(`Run.invariant`), and a monitor that covers every kind of task describes every call that any
interleaving can make (`Monitor.TracksAll.legal`).
-/

namespace Process

variable {P : PFunctor.{0, 0}} {σ κ φ : Type}

/-- A task: what it is, the calls it has made with their replies, and what it still has to do. -/
structure Task (P : PFunctor.{0, 0}) (κ : Type) where
  kind : κ
  log : List (Call P)
  rest : Prog P Unit

/-- A task is in flight until its program has returned. -/
def Task.InFlight (task : Task P κ) : Prop := task.rest.Awaits

structure Pool (P : PFunctor.{0, 0}) (σ κ : Type) where
  world : σ
  tasks : List (Task P κ)

/-- The shared state as seen by the tasks, and the tasks that may be started on it. -/
structure Platform (P : PFunctor.{0, 0}) (σ κ : Type) where
  /-- the replies the state may give -/
  allows : σ → Call P → Prop
  /-- what a call does, given its reply -/
  after : σ → Call P → σ
  /-- the program of each kind of task -/
  body : κ → Prog P Unit
  /-- when a task may be started -/
  admits : Pool P σ κ → κ → Prop
  /-- what starting a task does to the state -/
  enter : σ → κ → σ
  /-- changes of the state that no task makes -/
  drifts : σ → σ → Prop

/-- One step of a pool. -/
inductive Event (P : PFunctor.{0, 0}) (κ : Type)
  | spawn (kind : κ)
  | call (position : ℕ) (made : Call P)
  | drift

variable {S : Platform P σ κ}

inductive Step (S : Platform P σ κ) : Pool P σ κ → Event P κ → Pool P σ κ → Prop
  | spawn {pool : Pool P σ κ} {kind : κ} (admitted : S.admits pool kind) :
      Step S pool (.spawn kind) ⟨S.enter pool.world kind, pool.tasks ++ [⟨kind, [], S.body kind⟩]⟩
  | call {pool : Pool P σ κ} {position : ℕ} {task : Task P κ} {op : P.A} {next : P.B op → Prog P Unit}
      {reply : P.B op} (present : pool.tasks[position]? = some task) (awaits : task.rest = .call op next)
      (allowed : S.allows pool.world ⟨op, reply⟩) :
      Step S pool (.call position ⟨op, reply⟩) ⟨S.after pool.world ⟨op, reply⟩,
        pool.tasks.set position ⟨task.kind, task.log ++ [⟨op, reply⟩], next reply⟩⟩
  | drift {pool : Pool P σ κ} {world : σ} (drifts : S.drifts pool.world world) :
      Step S pool .drift ⟨world, pool.tasks⟩

/-- A finite run whose steps all meet `ok`. -/
inductive Run (S : Platform P σ κ) (ok : Pool P σ κ → Event P κ → Prop) :
    Pool P σ κ → List (Event P κ) → Pool P σ κ → Prop
  | nil (pool : Pool P σ κ) : Run S ok pool [] pool
  | cons {source middle target : Pool P σ κ} {event : Event P κ} {events : List (Event P κ)} :
      ok source event → Step S source event middle → Run S ok middle events target →
      Run S ok source (event :: events) target

namespace Run

variable {ok : Pool P σ κ → Event P κ → Prop} {source middle target : Pool P σ κ}
  {first : List (Event P κ)}

theorem mono {weaker : Pool P σ κ → Event P κ → Prop} (run : Run S ok source first target)
    (weaken : ∀ pool event, ok pool event → weaker pool event) : Run S weaker source first target := by
  induction run with
  | nil => exact .nil _
  | cons meets step _ ih => exact .cons (weaken _ _ meets) step ih

/-- What every step preserves, a run preserves. -/
theorem invariant {I : Pool P σ κ → Prop} (run : Run S ok source first target)
    (step : ∀ {pool event next}, I pool → ok pool event → Step S pool event next → I next)
    (initial : I source) : I target := by
  induction run with
  | nil => exact initial
  | cons meets taken _ ih => exact ih (step initial meets taken)

/-- A run goes on by one step. -/
theorem concat {event : Event P κ} (run : Run S ok source first middle) (meets : ok middle event)
    (step : Step S middle event target) : Run S ok source (first ++ [event]) target := by
  induction run with
  | nil => exact .cons meets step (.nil _)
  | cons before taken _ ih => exact .cons before taken (ih meets step)

/-- Two runs, one after the other. -/
theorem append {second : List (Event P κ)} (run : Run S ok source first middle) (rest : Run S ok middle second target) :
    Run S ok source (first ++ second) target := by
  induction run with
  | nil => exact rest
  | cons meets taken _ ih => exact .cons meets taken (ih rest)

/-- What every step from a state that the run can reach preserves, the run preserves. -/
theorem invariant_reached {I : Pool P σ κ → Prop} (run : Run S ok source first target)
    (step : ∀ {before pool event next}, Run S ok source before pool → I pool → ok pool event →
      Step S pool event next → I next) (initial : I source) : I target := by
  suffices goes : ∀ {before pool}, Run S ok source before pool → I pool → Run S ok pool first target → I target from
    goes (.nil source) initial run
  clear run
  intro before pool reached holds rest
  induction rest generalizing before with
  | nil => exact holds
  | cons meets taken _ ih => exact ih (reached.concat meets taken) (step reached holds meets taken)

/-- What an event establishes and every step preserves holds once the event has happened. -/
theorem since {J I : Pool P σ κ → Prop} {event : Event P κ} (run : Run S ok source first target)
    (always : ∀ {pool taken next}, J pool → Step S pool taken next → J next)
    (establishes : ∀ {pool next}, J pool → Step S pool event next → I next)
    (keeps : ∀ {pool taken next}, J pool → I pool → Step S pool taken next → I next)
    (initial : J source) (happened : event ∈ first) : I target := by
  induction run with
  | nil => cases happened
  | cons _ step rest ih =>
    have later := always initial step
    rcases List.mem_cons.mp happened with rfl | happened
    · have both := rest.invariant (I := fun pool => J pool ∧ I pool)
        (fun both _ step => ⟨always both.1 step, keeps both.1 both.2 step⟩) ⟨later, establishes initial step⟩
      exact both.2
    · exact ih later happened

end Run

/-! ## The tasks of a pool after a step -/

/-- The tasks after a step: all the old ones, but for the one that called, and perhaps a new one. -/
theorem Step.task_cases {source target : Pool P σ κ} {event : Event P κ} (step : Step S source event target)
    {position : ℕ} {task : Task P κ} (present : target.tasks[position]? = some task) :
    source.tasks[position]? = some task ∨
      (∃ kind, event = .spawn kind ∧ position = source.tasks.length ∧ task = ⟨kind, [], S.body kind⟩) ∨
      ∃ before op next reply, source.tasks[position]? = some before ∧ before.rest = .call op next ∧
        event = .call position ⟨op, reply⟩ ∧ S.allows source.world ⟨op, reply⟩ ∧
        task = ⟨before.kind, before.log ++ [⟨op, reply⟩], next reply⟩ := by
  cases step with
  | @spawn kind admitted =>
    rcases Nat.lt_or_ge position source.tasks.length with old | new
    · left
      simpa only [List.getElem?_append_left old] using present
    · right; left
      rw [List.getElem?_append_right new] at present
      have last : position - source.tasks.length = 0 := by
        have := (List.getElem?_eq_some_iff.mp present).1
        simp only [List.length_singleton] at this
        omega
      simp only [last, List.getElem?_cons_zero, Option.some.injEq] at present
      exact ⟨kind, rfl, by omega, present.symm⟩
  | @call caller before op next reply here awaits allowed =>
    by_cases same : caller = position
    · subst same
      right; right
      have bound := (List.getElem?_eq_some_iff.mp here).1
      simp only [List.getElem?_set_self bound, Option.some.injEq] at present
      exact ⟨before, op, next, reply, here, awaits, rfl, allowed, present.symm⟩
    · left
      simpa only [List.getElem?_set_ne same] using present
  | drift _ => exact .inl present

/-- A task that does not make the call of a step is untouched by the step. -/
theorem Step.task_kept {source target : Pool P σ κ} {event : Event P κ} (step : Step S source event target)
    {position : ℕ} {task : Task P κ} (present : source.tasks[position]? = some task)
    (other : ∀ made, event ≠ .call position made) : target.tasks[position]? = some task := by
  have bound := (List.getElem?_eq_some_iff.mp present).1
  cases step with
  | spawn _ => simpa only [List.getElem?_append_left bound] using present
  | @call caller _ _ _ _ _ _ _ =>
    have distinct : caller ≠ position := fun same => other _ (congrArg (Event.call · _) same)
    simpa only [List.getElem?_set_ne distinct] using present
  | drift _ => exact present

/-- A task stays at its position; it goes on by its own calls only. -/
theorem Step.task_after {source target : Pool P σ κ} {event : Event P κ} (step : Step S source event target)
    {position : ℕ} {task : Task P κ} (present : source.tasks[position]? = some task) :
    target.tasks[position]? = some task ∨ ∃ op next reply, task.rest = .call op next ∧
      event = .call position ⟨op, reply⟩ ∧ S.allows source.world ⟨op, reply⟩ ∧
      target.tasks[position]? = some ⟨task.kind, task.log ++ [⟨op, reply⟩], next reply⟩ := by
  by_cases calls : ∃ made, event = .call position made
  · obtain ⟨made, rfl⟩ := calls
    cases step with
    | @call _ caller op next reply found awaits allowed =>
      obtain rfl : caller = task := Option.some.inj (found.symm.trans present)
      have bound := (List.getElem?_eq_some_iff.mp found).1
      exact .inr ⟨op, next, reply, awaits, rfl, allowed, List.getElem?_set_self bound⟩
  · exact .inl (step.task_kept present fun made same => calls ⟨made, same⟩)

/-- A task keeps its kind and what it has logged. -/
theorem Step.log_kept {source target : Pool P σ κ} {event : Event P κ} (step : Step S source event target)
    {task : Task P κ} (member : task ∈ source.tasks) :
    ∃ later ∈ target.tasks, later.kind = task.kind ∧ task.log ⊆ later.log := by
  obtain ⟨position, present⟩ := List.mem_iff_getElem?.mp member
  obtain same | ⟨op, next, reply, -, -, -, later⟩ := step.task_after present
  · exact ⟨task, List.mem_of_getElem? same, rfl, List.Subset.refl _⟩
  · exact ⟨_, List.mem_of_getElem? later, rfl, List.subset_append_left ..⟩

/-- What a task has logged leads its program to what it still has to do. -/
theorem Run.reaches {ok : Pool P σ κ → Event P κ → Prop} {source target : Pool P σ κ} {events : List (Event P κ)}
    (run : Run S ok source events target) (empty : source.tasks = []) :
    ∀ task ∈ target.tasks, (S.body task.kind).Reaches task.log task.rest := by
  refine run.invariant (I := fun pool => ∀ task ∈ pool.tasks, (S.body task.kind).Reaches task.log task.rest) ?_ ?_
  · intro pool event next reaches _ step task member
    obtain ⟨position, present⟩ := List.mem_iff_getElem?.mp member
    obtain old | ⟨kind, -, -, rfl⟩ | ⟨before, op, rest, reply, old, awaits, -, -, rfl⟩ := step.task_cases present
    · exact reaches task (List.mem_of_getElem? old)
    · exact .nil _
    · have earlier := reaches before (List.mem_of_getElem? old)
      rw [awaits] at earlier
      exact earlier.concat reply
  · rw [empty]
    exact fun task member => absurd member List.not_mem_nil

/-- What is true of every reply that may be given is true of every call that has been logged. -/
theorem Step.logged {holds : Call P → Prop} (given : ∀ world made, S.allows world made → holds made)
    {source target : Pool P σ κ} {event : Event P κ} (step : Step S source event target)
    (logged : ∀ task ∈ source.tasks, ∀ made ∈ task.log, holds made) :
    ∀ task ∈ target.tasks, ∀ made ∈ task.log, holds made := by
  intro task member made present
  obtain ⟨position, here⟩ := List.mem_iff_getElem?.mp member
  obtain old | ⟨kind, -, -, rfl⟩ | ⟨before, op, next, reply, old, -, -, allowed, rfl⟩ := step.task_cases here
  · exact logged task (List.mem_of_getElem? old) made present
  · cases present
  · obtain earlier | now := List.mem_append.mp present
    · exact logged before (List.mem_of_getElem? old) made earlier
    · rw [List.mem_singleton.mp now]
      exact given _ _ allowed

/-- A task awaits the reply of a call. -/
def Pool.Awaits (pool : Pool P σ κ) (op : P.A) : Prop := ∃ task ∈ pool.tasks, ∃ next, task.rest = .call op next

instance [DecidableEq P.A] (pool : Pool P σ κ) (op : P.A) : Decidable (pool.Awaits op) :=
  inferInstanceAs (Decidable (∃ task ∈ pool.tasks, ∃ next, task.rest = .call op next))

/-- A task of a kind is in flight at a position. -/
def Pool.Flies (pool : Pool P σ κ) (position : ℕ) (kind : κ) : Prop :=
  ∃ task, pool.tasks[position]? = some task ∧ task.kind = kind ∧ task.InFlight

theorem Pool.Flies.unique {pool : Pool P σ κ} {position : ℕ} {kind kind' : κ} (flies : pool.Flies position kind)
    (flies' : pool.Flies position kind') : kind = kind' := by
  obtain ⟨task, present, rfl, -⟩ := flies
  obtain ⟨task', present', rfl, -⟩ := flies'
  rw [Option.some.inj (present.symm.trans present')]

/-- A task in flight after a step was in flight before, or has just been started. -/
theorem Step.flies {source target : Pool P σ κ} {event : Event P κ} (step : Step S source event target)
    {position : ℕ} {kind : κ} (flies : target.Flies position kind) :
    source.Flies position kind ∨ (event = .spawn kind ∧ position = source.tasks.length ∧ S.admits source kind) := by
  obtain ⟨task, present, rfl, flying⟩ := flies
  obtain old | ⟨kind, rfl, last, rfl⟩ | ⟨before, op, next, reply, old, awaits, -, -, rfl⟩ := step.task_cases present
  · exact .inl ⟨task, old, rfl, flying⟩
  · cases step with | spawn admitted => exact .inr ⟨rfl, last, admitted⟩
  · exact .inl ⟨before, old, rfl, op, next, awaits⟩

/-- A task of a kind that is in flight is the last one of its kind. -/
def Pool.Latest (pool : Pool P σ κ) (kind : κ) : Prop :=
  ∀ (position other : ℕ) (task : Task P κ), pool.Flies position kind → pool.tasks[other]? = some task →
    task.kind = kind → other ≤ position

/-- So no other task of the kind is in flight. -/
theorem Pool.Latest.alone {pool : Pool P σ κ} {kind : κ} (latest : pool.Latest kind) {position other : ℕ}
    (flies : pool.Flies position kind) (flies' : pool.Flies other kind) : position = other := by
  obtain ⟨task, present, same, -⟩ := id flies
  obtain ⟨task', present', same', -⟩ := id flies'
  exact le_antisymm (latest other position task flies' present same) (latest position other task' flies present' same')

/-- It stays so if a task of the kind starts only when no other is in flight. -/
theorem Step.latest {source target : Pool P σ κ} {event : Event P κ} (step : Step S source event target) {kind : κ}
    (solitary : S.admits source kind → ∀ position, ¬ source.Flies position kind) (latest : source.Latest kind) :
    target.Latest kind := by
  intro position other task flies present same
  rcases step.flies flies with old | ⟨rfl, last, admitted⟩
  · obtain before | ⟨kind', rfl, -, rfl⟩ | ⟨before, _, _, _, before', -, -, -, rfl⟩ := step.task_cases present
    · exact latest position other task old before same
    · obtain rfl : kind' = kind := same
      cases step with | spawn admitted => exact absurd old (solitary admitted position)
    · exact latest position other before old before' same
  · have bound := (List.getElem?_eq_some_iff.mp present).1
    cases step with
    | spawn _ =>
      rw [List.length_append, List.length_singleton] at bound
      omega

/-! ## Computed runs -/

/-- Let the tasks at these positions make their next calls, with the replies that `answer` gives. -/
def Platform.play (S : Platform P σ κ) (answer : σ → (op : P.A) → Option (P.B op)) (pool : Pool P σ κ) :
    List ℕ → Option (Pool P σ κ)
  | [] => some pool
  | position :: positions => do
    let task ← pool.tasks[position]?
    match task.rest with
    | .ret _ => none
    | .call op next =>
      let reply ← answer pool.world op
      S.play answer ⟨S.after pool.world ⟨op, reply⟩,
        pool.tasks.set position ⟨task.kind, task.log ++ [⟨op, reply⟩], next reply⟩⟩ positions

/-- What holds after tasks have been let go so holds at the end of some run. -/
theorem exists_run_of_play (S : Platform P σ κ) (answer : σ → (op : P.A) → Option (P.B op))
    (sound : ∀ {s op reply}, answer s op = some reply → S.allows s ⟨op, reply⟩) (pool : Pool P σ κ) (positions : List ℕ)
    (test : Pool P σ κ → Prop) [DecidablePred test] (found : (S.play answer pool positions).any (test ·) = true) :
    ∃ events target, Run S (fun _ _ => True) pool events target ∧ test target := by
  induction positions generalizing pool with
  | nil => exact ⟨[], pool, .nil pool, of_decide_eq_true found⟩
  | cons position positions ih =>
    obtain ⟨target, played, holds⟩ := (Option.any_eq_true ..).mp found
    obtain ⟨task, present, played⟩ := Option.bind_eq_some_iff.mp played
    cases awaits : task.rest with
    | ret value =>
      rw [awaits] at played
      cases played
    | call op next =>
      rw [awaits] at played
      obtain ⟨reply, answered, played⟩ := Option.bind_eq_some_iff.mp played
      obtain ⟨events, target, run, holds⟩ := ih _ ((Option.any_eq_true ..).mpr ⟨target, played, holds⟩)
      exact ⟨_, target, .cons trivial (.call present awaits (sound answered)) run, holds⟩

/-! ## Monitors -/

/-- A monitor notes the calls of a task in a phase and says which calls are legal there. -/
structure Monitor (P : PFunctor.{0, 0}) (κ φ : Type) where
  start : κ → φ
  note : φ → Call P → φ
  legal : κ → φ → P.A → Prop
  /-- the phases in which a task may have returned -/
  ended : κ → φ → Prop

namespace Monitor

variable (M : Monitor P κ φ)

/-- The phase of a task, read off the calls it has made. -/
def phase (task : Task P κ) : φ := task.log.foldl M.note (M.start task.kind)

@[simp] theorem phase_fresh (kind : κ) (rest : Prog P Unit) : M.phase ⟨kind, [], rest⟩ = M.start kind := rfl

@[simp] theorem phase_concat (kind : κ) (log : List (Call P)) (made : Call P) (rest later : Prog P Unit) :
    M.phase ⟨kind, log ++ [made], later⟩ = M.note (M.phase ⟨kind, log, rest⟩) made := by
  simp only [phase, List.foldl_append, List.foldl_cons, List.foldl_nil]

/-- The logs that the monitor permits: each call was legal when it was made. -/
inductive Permits (kind : κ) : List (Call P) → Prop
  | nil : Permits kind []
  | concat {log : List (Call P)} {op : P.A} {reply : P.B op} (earlier : Permits kind log)
      (legal : M.legal kind (log.foldl M.note (M.start kind)) op) : Permits kind (log ++ [⟨op, reply⟩])

/-- A task has obeyed the monitor, and what it still has to do obeys it from the task's phase on. -/
structure Tracks (task : Task P κ) : Prop where
  permits : M.Permits task.kind task.log
  obeys : task.rest.Obeys M.note (M.legal task.kind) (M.phase task) fun _ => M.ended task.kind

/-- Every kind of task obeys the monitor. -/
def Covers (S : Platform P σ κ) : Prop :=
  ∀ kind, (S.body kind).Obeys M.note (M.legal kind) (M.start kind) fun _ => M.ended kind

variable {M}

/-- The next call of a task is legal. -/
theorem Tracks.legal {task : Task P κ} (tracks : M.Tracks task) {op : P.A} {next : P.B op → Prog P Unit}
    (awaits : task.rest = .call op next) : M.legal task.kind (M.phase task) op := by
  obtain ⟨kind, log, rest⟩ := task
  obtain rfl : rest = .call op next := awaits
  exact tracks.obeys.1

theorem Tracks.call {task : Task P κ} (tracks : M.Tracks task) {op : P.A} {next : P.B op → Prog P Unit}
    (awaits : task.rest = .call op next) (reply : P.B op) :
    M.Tracks ⟨task.kind, task.log ++ [⟨op, reply⟩], next reply⟩ := by
  have legal := tracks.legal awaits
  obtain ⟨kind, log, rest⟩ := task
  obtain rfl : rest = .call op next := awaits
  refine ⟨.concat tracks.permits legal, ?_⟩
  rw [M.phase_concat kind log _ (.call op next)]
  exact tracks.obeys.2 reply

/-- A task that has returned has done so in a phase where it may. -/
theorem Tracks.ended {task : Task P κ} (tracks : M.Tracks task) (returned : ¬ task.InFlight) :
    M.ended task.kind (M.phase task) := by
  obtain ⟨kind, log, rest⟩ := task
  cases rest with
  | ret value => exact tracks.obeys
  | call op next => exact absurd (Prog.awaits_call op next) returned

/-- Every task of a pool follows the monitor. -/
def TracksAll (M : Monitor P κ φ) (pool : Pool P σ κ) : Prop :=
  ∀ (position : ℕ) (task : Task P κ), pool.tasks[position]? = some task → M.Tracks task

theorem tracksAll_of_empty {pool : Pool P σ κ} (empty : pool.tasks = []) : M.TracksAll pool := by
  intro position task present
  simp [empty] at present

theorem TracksAll.step (covers : M.Covers S) {source target : Pool P σ κ} {event : Event P κ}
    (tracks : M.TracksAll source) (step : Step S source event target) : M.TracksAll target := by
  intro position task present
  obtain old | ⟨kind, -, -, rfl⟩ | ⟨before, op, next, reply, old, awaits, -, -, rfl⟩ := step.task_cases present
  · exact tracks position task old
  · exact ⟨.nil, covers kind⟩
  · exact (tracks position before old).call awaits reply

/-! ### Tasks in flight and their phases -/

/-- A task in flight at a position, of a kind and in a phase. -/
def At (M : Monitor P κ φ) (pool : Pool P σ κ) (position : ℕ) (kind : κ) (phase : φ) : Prop :=
  ∃ task, pool.tasks[position]? = some task ∧ task.InFlight ∧ task.kind = kind ∧ M.phase task = phase

theorem At.unique {pool : Pool P σ κ} {position : ℕ} {kind kind' : κ} {phase phase' : φ}
    (here : M.At pool position kind phase) (there : M.At pool position kind' phase') :
    kind = kind' ∧ phase = phase' := by
  obtain ⟨task, present, -, rfl, rfl⟩ := here
  obtain ⟨other, present', -, rfl, rfl⟩ := there
  obtain rfl : task = other := Option.some.inj (present.symm.trans present')
  exact ⟨rfl, rfl⟩

theorem At.flies {pool : Pool P σ κ} {position : ℕ} {kind : κ} {phase : φ} (here : M.At pool position kind phase) :
    pool.Flies position kind := by
  obtain ⟨task, present, flying, same, -⟩ := here
  exact ⟨task, present, same, flying⟩

variable {source target : Pool P σ κ} {event : Event P κ} {position : ℕ} {kind : κ} {phase : φ}

/-- Every call of a step is legal in the phase of the task that makes it. -/
theorem TracksAll.legal {made : Call P} (tracks : M.TracksAll source)
    (step : Step S source (.call position made) target) :
    ∃ kind phase, M.At source position kind phase ∧ M.legal kind phase made.op ∧
      S.allows source.world made ∧ target.world = S.after source.world made := by
  cases step with
  | @call _ task op next reply present awaits allowed =>
    exact ⟨task.kind, M.phase task, ⟨task, present, ⟨op, next, awaits⟩, rfl, rfl⟩,
      (tracks _ task present).legal awaits, allowed, rfl⟩

/-- A task in flight awaits the reply of a call that is legal in its phase. -/
theorem At.awaits {pool : Pool P σ κ} (tracks : M.TracksAll pool) (here : M.At pool position kind phase) :
    ∃ op, pool.Awaits op ∧ M.legal kind phase op := by
  obtain ⟨task, present, ⟨op, next, awaits⟩, rfl, rfl⟩ := here
  exact ⟨op, ⟨task, List.mem_of_getElem? present, next, awaits⟩, (tracks position task present).legal awaits⟩

/-- What is awaited is legal in the phase of a task in flight. -/
theorem TracksAll.awaits {pool : Pool P σ κ} (tracks : M.TracksAll pool) {op : P.A} (awaits : pool.Awaits op) :
    ∃ position kind phase, M.At pool position kind phase ∧ M.legal kind phase op := by
  obtain ⟨task, member, next, awaits⟩ := awaits
  obtain ⟨position, present⟩ := List.mem_iff_getElem?.mp member
  exact ⟨position, task.kind, M.phase task, ⟨task, present, ⟨op, next, awaits⟩, rfl, rfl⟩,
    (tracks position task present).legal awaits⟩

/-- A task in flight after a step was so before, has just started or has just made a call. -/
theorem At.before (tracks : M.TracksAll source) (step : Step S source event target)
    (here : M.At target position kind phase) :
    (M.At source position kind phase ∧ ∀ made, event ≠ .call position made) ∨
      (event = .spawn kind ∧ phase = M.start kind) ∨
      ∃ before op reply, M.At source position kind before ∧ M.legal kind before op ∧
        event = .call position ⟨op, reply⟩ ∧ phase = M.note before ⟨op, reply⟩ ∧
        S.allows source.world ⟨op, reply⟩ ∧ target.world = S.after source.world ⟨op, reply⟩ := by
  obtain ⟨task, present, flying, rfl, rfl⟩ := here
  by_cases calls : ∃ made, event = .call position made
  · obtain ⟨⟨op, reply⟩, rfl⟩ := calls
    obtain ⟨kind, phase, here, legal, allowed, reached⟩ := tracks.legal step
    obtain ⟨before, present', -, rfl, rfl⟩ := here
    right; right
    cases step with
    | @call _ caller _ next _ found awaits _ =>
      obtain rfl : before = caller := Option.some.inj (present'.symm.trans found)
      have bound := (List.getElem?_eq_some_iff.mp found).1
      simp only [List.getElem?_set_self bound, Option.some.injEq] at present
      subst present
      exact ⟨_, op, reply, ⟨before, found, ⟨op, next, awaits⟩, rfl, rfl⟩, legal, rfl, M.phase_concat .., allowed, rfl⟩
  · obtain old | ⟨kind, rfl, -, rfl⟩ | ⟨before, op, next, reply, -, -, rfl, -, -⟩ := step.task_cases present
    · exact .inl ⟨⟨task, old, flying, rfl, rfl⟩, fun made same => calls ⟨made, same⟩⟩
    · exact .inr (.inl ⟨rfl, rfl⟩)
    · exact absurd ⟨_, rfl⟩ calls

/-- A task that makes no call stays where it is. -/
theorem At.kept (step : Step S source event target) (here : M.At source position kind phase)
    (silent : ∀ made, event ≠ .call position made) : M.At target position kind phase := by
  obtain ⟨task, present, flying, same, reached⟩ := here
  exact ⟨task, step.task_kept present silent, flying, same, reached⟩

/-- A task that makes a call goes on in the phase after it, or has returned there. -/
theorem At.after (covers : M.Covers S) (tracks : M.TracksAll source) {op : P.A} {reply : P.B op}
    (step : Step S source (.call position ⟨op, reply⟩) target) (here : M.At source position kind phase) :
    M.At target position kind (M.note phase ⟨op, reply⟩) ∨ M.ended kind (M.note phase ⟨op, reply⟩) := by
  have later := tracks.step covers step
  obtain ⟨task, present, -, rfl, rfl⟩ := here
  cases step with
  | @call _ caller _ next _ found awaits _ =>
    obtain rfl : task = caller := Option.some.inj (present.symm.trans found)
    have bound := (List.getElem?_eq_some_iff.mp found).1
    have stands := List.getElem?_set_self (a := ⟨task.kind, task.log ++ [⟨op, reply⟩], next reply⟩) bound
    have noted := M.phase_concat task.kind task.log ⟨op, reply⟩ task.rest (next reply)
    by_cases flying : Task.InFlight ⟨task.kind, task.log ++ [⟨op, reply⟩], next reply⟩
    · exact .inl ⟨_, stands, flying, rfl, noted⟩
    · have ended := (later position _ stands).ended flying
      rw [noted] at ended
      exact .inr ended

end Monitor

end Process
