import Bms.Model.Connection

/-! # The tasks of the startup

A monitor for the task that keeps the manager connected and for the one that waits for it. Every call is made in
one phase, and in the phases other than `quiet` only one call is made: a connection that has been opened is stored,
and once it has been stored its waiters are notified.
-/

namespace Bms

open Process

inductive StartupPhase
  | quiet
  /-- a connection has been opened and is to be stored -/
  | opened (connection : Connection)
  /-- a connection has been stored and its waiters are to be notified -/
  | due
  | unregistered
  | registered (future : Notified)
  | woken

namespace StartupPhase

def start : StartupTask → StartupPhase
  | .run _ => quiet
  | .waitForConnection => unregistered

def note : StartupPhase → ConnectionAct → StartupPhase
  | _, ⟨.openConnection _, .ok connection⟩ => opened connection
  | _, ⟨.storeConnection _, _⟩ => due
  | _, ⟨.notifyWaiters, _⟩ => quiet
  | _, ⟨.notified, future⟩ => registered future
  | _, ⟨.wait _, _⟩ => woken
  | phase, _ => phase

/-- The phases in which a task may have returned. -/
def Ended : StartupPhase → Prop
  | quiet | woken => True
  | _ => False

/-- The only call that is made in a phase. -/
def op? : StartupPhase → Option ConnectionOp
  | opened connection => some (.storeConnection connection)
  | due => some .notifyWaiters
  | unregistered => some .notified
  | registered future => some (.wait future)
  | quiet | woken => none

end StartupPhase

/-- The phase in which a call is made. -/
def ConnectionOp.phase : ConnectionOp → StartupPhase
  | storeConnection connection => .opened connection
  | notifyWaiters => .due
  | notified => .unregistered
  | wait future => .registered future
  | _ => .quiet

def startupMonitor : Monitor ConnectionCalls StartupTask StartupPhase where
  start := StartupPhase.start
  note := StartupPhase.note
  legal _ phase op := phase = op.phase
  ended _ := StartupPhase.Ended

theorem ConnectionOp.op?_phase {op : ConnectionOp} (busy : op.phase ≠ .quiet) : op.phase.op? = some op := by
  cases op <;> first | rfl | exact absurd rfl busy

theorem ConnectionOp.phase_inj {op other : ConnectionOp} (same : op.phase = other.phase) (busy : op.phase ≠ .quiet) :
    op = other := by
  apply Option.some_injective
  rw [← op?_phase busy, same, op?_phase (same ▸ busy)]

/-! ## What a call notes -/

section Notes

variable {made : ConnectionAct} {connection : Connection} {future : Notified}

theorem opened_of_note (noted : made.op.phase.note made = .opened connection) :
    ∃ args, made = ⟨.openConnection args, .ok connection⟩ := by
  obtain ⟨op, reply⟩ := made
  cases op with
  | openConnection args =>
    cases reply with
    | ok opened =>
      cases noted
      exact ⟨args, rfl⟩
    | error => cases noted
  | _ => cases noted

theorem notified_of_note (noted : made.op.phase.note made = .registered future) : made = ⟨.notified, future⟩ := by
  obtain ⟨op, reply⟩ := made
  cases op with
  | notified =>
    cases noted
    rfl
  | openConnection => cases reply <;> cases noted
  | _ => cases noted

end Notes

/-! ## The programs follow the monitor -/

/-- A program that begins and ends in the quiet phase. -/
def Quiet {α : Type} (program : Prog ConnectionCalls α) : Prop :=
  program.Obeys StartupPhase.note (fun phase op => phase = op.phase) .quiet fun _ phase => phase = .quiet

namespace Quiet

variable {α β : Type}

theorem pure (value : α) : Quiet (Pure.pure value) := rfl

theorem bind {program : Prog ConnectionCalls α} {rest : α → Prog ConnectionCalls β} (quiet : Quiet program)
    (next : ∀ value, Quiet (rest value)) : Quiet (program >>= rest) := by
  apply (Prog.obeys_bind ..).mpr
  apply Prog.Obeys.mono quiet
  rintro value _ rfl
  exact next value

/-- A call that is made in the quiet phase and opens no connection. -/
theorem await {op : ConnectionOp} (made : op.phase = .quiet)
    (same : ∀ reply, StartupPhase.quiet.note ⟨op, reply⟩ = .quiet) : Quiet op.await :=
  ⟨made.symm, same⟩

theorem expect (message : String) (value : Option α) : Quiet (ConnectionOp.expect message value) := by
  cases value with
  | some value => rfl
  | none => exact ⟨rfl, nofun⟩

end Quiet

open ConnectionManager

theorem quiet_isSomeOpen (stored : Option Connection) : Quiet (isSomeOpen stored) := by
  cases stored with
  | some connection => exact Quiet.await rfl fun _ => rfl
  | none => exact Quiet.pure _

theorem quiet_tlsAdaptor (addr : String) (isSsl : Bool) : Quiet (tlsAdaptor addr isSsl) := by
  cases isSsl with
  | true =>
    apply (Quiet.await rfl fun _ => rfl).bind
    intro reply
    apply (Quiet.expect ..).bind
    intro adaptor
    exact Quiet.pure _
  | false => exact Quiet.pure _

theorem quiet_reconnect (args : OpenConnectionArguments) : Quiet (reconnect args) := by
  refine ⟨rfl, fun reply => ?_⟩
  cases reply with
  | ok connection => exact ⟨rfl, fun _ => ⟨rfl, fun _ => rfl⟩⟩
  | error => exact Quiet.pure _

theorem quiet_connect (addr : String) (port : UInt16) (username password : String) (isSsl : Bool) :
    Quiet (connect addr port username password isSsl) := by
  apply (Quiet.await rfl fun _ => rfl).bind
  intro stored
  apply (quiet_isSomeOpen stored).bind
  intro isOpen
  cases isOpen with
  | true => exact Quiet.pure _
  | false => exact (quiet_tlsAdaptor addr isSsl).bind fun _ => quiet_reconnect _

theorem quiet_isSsl (scheme : String) : Quiet (isSsl scheme) := by
  unfold isSsl
  split
  any_goals exact Quiet.pure _
  exact ⟨rfl, nofun⟩

theorem quiet_loop {connect : Prog ConnectionCalls (Except String Unit)} (quiet : Quiet connect) (passes : ℕ) :
    Quiet (loop connect passes) := by
  induction passes with
  | zero => exact Quiet.pure _
  | succ passes ih =>
    apply (Quiet.await rfl fun _ => rfl).bind
    intro running
    cases running with
    | true => exact quiet.bind fun _ => (Quiet.await rfl fun _ => rfl).bind fun _ => ih
    | false => exact Quiet.pure _

theorem quiet_run (passes : ℕ) : Quiet (run passes) := by
  have var (key message : String) {β : Type} {rest : String → Prog ConnectionCalls β}
      (next : ∀ value, Quiet (rest value)) :
      Quiet ((ConnectionOp.var key).await >>= fun reply => ConnectionOp.expect message reply >>= rest) :=
    (Quiet.await rfl fun _ => rfl).bind fun _ => (Quiet.expect ..).bind next
  apply var
  intro endpoint
  apply (Quiet.await rfl fun _ => rfl).bind
  intro parsed
  apply (Quiet.expect ..).bind
  intro parsedUrl
  apply (Quiet.expect ..).bind
  intro addr
  apply (quiet_isSsl _).bind
  intro isSsl
  apply var
  intro username
  apply var
  intro password
  exact quiet_loop (quiet_connect ..) passes

theorem startupMonitor_covers : startupMonitor.Covers startup := by
  intro kind
  cases kind with
  | run passes =>
    apply Prog.Obeys.mono (quiet_run passes)
    rintro _ _ rfl
    trivial
  | waitForConnection => exact ⟨rfl, fun _ => ⟨rfl, fun _ => trivial⟩⟩

/-! ## What a step does -/

/-- A task of the startup is in flight at a position, of a kind and in a phase. -/
abbrev StartupAt (pool : Startup) (position : ℕ) (kind : StartupTask) (phase : StartupPhase) : Prop :=
  startupMonitor.At pool position kind phase

section Steps

variable {pool next : Startup} {event : StartupEvent} {made : ConnectionAct} {position : ℕ} {kind : StartupTask}
  {phase : StartupPhase}

/-- A step closes connections, or makes one call in the phase of that call. -/
theorem startup_cases (tracks : startupMonitor.TracksAll pool) (step : Step startup pool event next) :
    (∃ alive, alive ⊆ pool.world.alive ∧ event = .drift ∧ next.world = { pool.world with alive }) ∨
      ∃ position kind made, event = .call position made ∧ StartupAt pool position kind made.op.phase ∧
        ConnectionAct.Allowed pool.world made ∧ next.world = ConnectionAct.after pool.world made := by
  cases event with
  | spawn kind =>
    cases step with
    | spawn admitted => exact admitted.elim
  | drift =>
    cases step with
    | drift drifts =>
      obtain ⟨alive, closes, rfl⟩ := drifts
      exact .inl ⟨alive, closes, rfl, rfl⟩
  | call position made =>
    obtain ⟨kind, phase, here, rfl, allowed, reached⟩ := tracks.legal step
    exact .inr ⟨position, kind, made, rfl, here, allowed, reached⟩

/-- A task is in its phase already, or has just made the call that leads to it. -/
theorem startup_before (tracks : startupMonitor.TracksAll pool) (step : Step startup pool event next)
    (here : StartupAt next position kind phase) :
    (StartupAt pool position kind phase ∧ ∀ made, event ≠ .call position made) ∨
      ∃ made, event = .call position made ∧ made.op.phase.note made = phase ∧
        StartupAt pool position kind made.op.phase ∧ next.world = ConnectionAct.after pool.world made := by
  obtain old | ⟨rfl, -⟩ | ⟨before, op, reply, earlier, rfl, rfl, rfl, -, reached⟩ := here.before tracks step
  · exact .inl old
  · cases step with
    | spawn admitted => exact admitted.elim
  · exact .inr ⟨_, rfl, rfl, earlier, reached⟩

/-- A task that has made a call goes on in the phase that it leads to, unless that is a last one. -/
theorem startup_after (tracks : startupMonitor.TracksAll pool) (step : Step startup pool (.call position made) next)
    (here : StartupAt pool position kind made.op.phase) (busy : ¬ (made.op.phase.note made).Ended) :
    StartupAt next position kind (made.op.phase.note made) :=
  (here.after startupMonitor_covers tracks step).resolve_right busy

/-- Outside the quiet phase, a call is awaited exactly in its phase. -/
theorem awaits_iff (tracks : startupMonitor.TracksAll pool) (op : ConnectionOp) (busy : op.phase ≠ .quiet) :
    pool.Awaits op ↔ ∃ position kind, StartupAt pool position kind op.phase := by
  constructor
  · intro awaits
    obtain ⟨position, kind, _, here, rfl⟩ := tracks.awaits awaits
    exact ⟨position, kind, here⟩
  · rintro ⟨position, kind, here⟩
    obtain ⟨other, awaits, same⟩ := here.awaits tracks
    obtain rfl := ConnectionOp.phase_inj same busy
    exact awaits

end Steps

/-! ## Connections and futures -/

/-- What the tasks hold is known to the client and to the manager. -/
structure Known (pool : Startup) : Prop where
  tracks : startupMonitor.TracksAll pool
  opened : ∀ position kind connection, StartupAt pool position kind (.opened connection) →
    connection ∈ pool.world.opened
  stored : ∀ connection ∈ pool.world.connection, connection ∈ pool.world.opened
  created : ∀ position kind future, StartupAt pool position kind (.registered future) → future ∈ pool.world.futures
  woken : pool.world.woken ⊆ pool.world.futures

namespace ConnectionAct

variable (w : ConnectionWorld) (made : ConnectionAct)

theorem opened_subset : w.opened ⊆ (made.after w).opened := by
  obtain ⟨op, reply⟩ := made
  cases op with
  | openConnection =>
    cases reply with
    | ok connection => exact List.subset_cons_self ..
    | error => exact List.Subset.refl _
  | _ => exact List.Subset.refl _

theorem futures_subset : w.futures ⊆ (made.after w).futures := by
  obtain ⟨op, reply⟩ := made
  cases op with
  | notified => exact List.subset_cons_self ..
  | openConnection => cases reply <;> exact List.Subset.refl _
  | _ => exact List.Subset.refl _

/-- The connection of the manager changes only where one is stored. -/
theorem connection_after : (made.after w).connection = w.connection ∨
    ∃ connection, made = ⟨.storeConnection connection, ()⟩ := by
  obtain ⟨op, reply⟩ := made
  cases op with
  | storeConnection connection => exact .inr ⟨connection, rfl⟩
  | openConnection => cases reply <;> exact .inl rfl
  | _ => exact .inl rfl

/-- Futures are woken only by a notification. -/
theorem woken_after : (made.after w).woken = w.woken ∨ made = ⟨.notifyWaiters, ()⟩ := by
  obtain ⟨op, reply⟩ := made
  cases op with
  | notifyWaiters => exact .inr rfl
  | openConnection => cases reply <;> exact .inl rfl
  | _ => exact .inl rfl

end ConnectionAct

section Invariant

variable {passes : ℕ} {pool next : Startup} {event : StartupEvent} {events : List StartupEvent}
  {ok : Startup → StartupEvent → Prop}

theorem known_start (passes : ℕ) : Known (startConnectionManager passes) := by
  have fresh {position : ℕ} {task : Task ConnectionCalls StartupTask}
      (present : (startConnectionManager passes).tasks[position]? = some task) :
      task = ⟨task.kind, [], startup.body task.kind⟩ := by
    obtain ⟨kind, -, rfl⟩ := List.mem_map.mp (List.mem_of_getElem? present)
    rfl
  have starts {position : ℕ} {kind : StartupTask} {phase : StartupPhase}
      (here : StartupAt (startConnectionManager passes) position kind phase) : phase = .start kind := by
    obtain ⟨task, present, -, rfl, rfl⟩ := here
    rw [fresh present]
    rfl
  constructor
  · intro position task present
    rw [fresh present]
    exact ⟨.nil, startupMonitor_covers _⟩
  · intro position kind connection here
    cases kind <;> cases starts here
  · rintro connection ⟨⟩
  · intro position kind future here
    cases kind <;> cases starts here
  · exact List.nil_subset _

theorem Known.step (known : Known pool) (step : Step startup pool event next) : Known next := by
  have tracks := known.tracks.step startupMonitor_covers step
  obtain ⟨alive, -, rfl, reached⟩ | ⟨caller, task, made, rfl, legal, -, reached⟩ := startup_cases known.tracks step
  · have kept {position : ℕ} {kind : StartupTask} {phase : StartupPhase} (here : StartupAt next position kind phase) :
        StartupAt pool position kind phase := by
      obtain ⟨old, -⟩ | ⟨made, same, -⟩ := startup_before known.tracks step here
      · exact old
      · cases same
    constructor
    · exact tracks
    · intro position kind connection here
      rw [reached]
      exact known.opened position kind connection (kept here)
    · rw [reached]
      exact known.stored
    · intro position kind future here
      rw [reached]
      exact known.created position kind future (kept here)
    · rw [reached]
      exact known.woken
  · constructor
    · exact tracks
    · intro position kind connection here
      rw [reached]
      obtain ⟨old, -⟩ | ⟨other, same, noted, -⟩ := startup_before known.tracks step here
      · exact ConnectionAct.opened_subset _ made (known.opened position kind connection old)
      · cases same
        obtain ⟨args, rfl⟩ := opened_of_note noted
        exact List.mem_cons_self
    · rw [reached]
      intro connection stored
      apply ConnectionAct.opened_subset
      obtain same | ⟨written, rfl⟩ := ConnectionAct.connection_after pool.world made
      · rw [same] at stored
        exact known.stored connection stored
      · cases stored
        exact known.opened caller task connection legal
    · intro position kind future here
      rw [reached]
      obtain ⟨old, -⟩ | ⟨other, same, noted, -⟩ := startup_before known.tracks step here
      · exact ConnectionAct.futures_subset _ made (known.created position kind future old)
      · cases same
        obtain rfl := notified_of_note noted
        exact List.mem_cons_self
    · rw [reached]
      obtain same | rfl := ConnectionAct.woken_after pool.world made
      · rw [same]
        exact List.Subset.trans known.woken (ConnectionAct.futures_subset _ made)
      · exact List.Subset.refl _

/-- A future that has been woken stays so. -/
theorem Known.woken_kept (known : Known pool) (step : Step startup pool event next) :
    pool.world.woken ⊆ next.world.woken := by
  obtain ⟨alive, -, -, reached⟩ | ⟨_, _, made, -, -, -, reached⟩ := startup_cases known.tracks step
  · rw [reached]
    exact List.Subset.refl _
  · rw [reached]
    obtain same | rfl := ConnectionAct.woken_after pool.world made
    · rw [same]
      exact List.Subset.refl _
    · exact known.woken

theorem known_of_run (run : Run startup ok (startConnectionManager passes) events pool) : Known pool :=
  run.invariant (I := Known) (fun known _ step => known.step step) (known_start passes)

end Invariant

end Bms
