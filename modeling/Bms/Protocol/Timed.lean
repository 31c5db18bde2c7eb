import Bms.Model.Replay
import Bms.Protocol.Marks

/-! # Runs on the clock

The loops of `main` sleep before each pass. A timed run keeps beside the system when the last tick and
the last pass of the descaler were under way, and when a tick last went through. Its clock only goes
forward, and not past the moment at which the descaler wakes up.
-/

namespace Bms

open Process

/-- A task of the kind is in flight. -/
def Busy (pool : System) (kind : Kind) : Prop := ∃ task ∈ pool.tasks, task.kind = kind ∧ task.InFlight

instance (pool : System) (kind : Kind) : Decidable (Busy pool kind) := inferInstanceAs (Decidable (∃ task ∈ _, _))

/-- A tick that has found no sub-job, or of which no call has failed and whose services have addresses. -/
def unhindered (registry : ServiceScalerRegistry) : List Act → Bool
  | [⟨.sql .getFirstUnfinishedSubJob, .error .rowNotFound⟩] => true
  | log => log.all fun made => !made.fails && made.addresses registry

/-- A tick that has gone through. -/
def SystemTask.Through (registry : ServiceScalerRegistry) (task : SystemTask) : Prop :=
  task.kind = .subJobTick ∧ ¬ task.InFlight ∧ unhindered registry task.log = true

/-- A tick goes through with the last of its calls. -/
def GoesThrough (registry : ServiceScalerRegistry) (target : System) : SystemEvent → Prop
  | .call position _ => ∃ task ∈ target.tasks[position]?, SystemTask.Through registry task
  | _ => False

instance (registry : ServiceScalerRegistry) (target : System) (event : SystemEvent) :
    Decidable (GoesThrough registry target event) :=
  match event with
  | .call _ _ => inferInstanceAs (Decidable (∃ task ∈ _, _ ∧ _ ∧ _))
  | .spawn _ | .drift => .isFalse id

/-- When a tick was last under way, when one last went through, and when a pass of the descaler was under way. -/
structure Timers where
  tick : DateTime
  through : DateTime
  pass : DateTime

namespace Timers

/-- The loops begin to sleep when `main` starts them. -/
def start (pool : System) : Timers := ⟨pool.world.now, pool.world.now, pool.world.now⟩

/-- How long a loop sleeps before a pass. -/
def tickDelay : Duration := Duration.seconds 5

def passDelay : Duration := Duration.seconds 60

/-- The steps that the timers permit: ticks are at least 5 s apart, and the descaler passes every 60 s. -/
def Permits (timers : Timers) (source : System) : SystemEvent → System → Prop
  | .spawn .subJobTick, _ => timers.tick + tickDelay ≤ source.world.now
  | .spawn .descalerPass, _ => timers.pass + passDelay ≤ source.world.now
  | .drift, target => source.world.now ≤ target.world.now ∧
      (Busy source .descalerPass ∨ target.world.now ≤ timers.pass + passDelay)
  | _, _ => True

instance (timers : Timers) (source target : System) (event : SystemEvent) :
    Decidable (timers.Permits source event target) := by
  unfold Permits
  split <;> infer_instance

def after (registry : ServiceScalerRegistry) (timers : Timers) (event : SystemEvent) (target : System) : Timers where
  tick := if Busy target .subJobTick then target.world.now else timers.tick
  through := if GoesThrough registry target event then target.world.now else timers.through
  pass := if Busy target .descalerPass then target.world.now else timers.pass

end Timers

/-- No call moves the clock. -/
theorem now_after (made : Act) (w : World) : (made.after w).now = w.now := by
  unfold Act.after
  split
  · next stmt reply => cases stmt <;> rfl
  all_goals rfl

section Step

variable {registry : ServiceScalerRegistry} {timers : Timers} {source target : System} {event : SystemEvent}

theorem now_of_step (step : Step (platform registry) source event target) (still : event ≠ .drift) :
    target.world.now = source.world.now := by
  cases step with
  | @spawn kind admitted => cases kind <;> rfl
  | call present awaits allowed => exact now_after ..
  | drift drifts => exact absurd rfl still

theorem Timers.Permits.now_le (permitted : timers.Permits source event target)
    (step : Step (platform registry) source event target) : source.world.now ≤ target.world.now := by
  cases event with
  | spawn kind => exact (now_of_step step nofun).ge
  | call position made => exact (now_of_step step nofun).ge
  | drift => exact permitted.1

end Step

/-- A run whose steps all meet `ok` and are permitted by the timers. -/
inductive TimedRun (registry : ServiceScalerRegistry) (ok : Timers → System → SystemEvent → Prop) :
    Timers → System → List SystemEvent → Timers → System → Prop
  | nil (timers : Timers) (pool : System) : TimedRun registry ok timers pool [] timers pool
  | cons {timers timers' : Timers} {source middle target : System} {event : SystemEvent} {events : List SystemEvent} :
      ok timers source event → timers.Permits source event middle → Step (platform registry) source event middle →
      TimedRun registry ok (timers.after registry event middle) middle events timers' target →
      TimedRun registry ok timers source (event :: events) timers' target

namespace TimedRun

variable {registry : ServiceScalerRegistry} {ok : Timers → System → SystemEvent → Prop} {timers timers' : Timers}
  {source target : System} {events : List SystemEvent}

theorem mono {weaker : Timers → System → SystemEvent → Prop}
    (timed : TimedRun registry ok timers source events timers' target)
    (weaken : ∀ timers pool event, ok timers pool event → weaker timers pool event) :
    TimedRun registry weaker timers source events timers' target := by
  induction timed with
  | nil => exact .nil _ _
  | cons meets permitted step _ ih => exact .cons (weaken _ _ _ meets) permitted step ih

/-- What every step of a timed run preserves, a timed run preserves; the steps taken so far are a run. -/
theorem invariant {plain : System → SystemEvent → Prop} {I : Timers → System → Prop}
    (timed : TimedRun registry ok timers source events timers' target)
    (weaken : ∀ timers pool event, ok timers pool event → plain pool event)
    (step : ∀ {before timers pool event next}, Run (platform registry) plain source before pool → I timers pool →
      ok timers pool event → timers.Permits pool event next → Step (platform registry) pool event next →
      I (timers.after registry event next) next)
    (initial : I timers source) : I timers' target := by
  suffices goes : ∀ {before timers pool}, Run (platform registry) plain source before pool → I timers pool →
      TimedRun registry ok timers pool events timers' target → I timers' target from goes (.nil source) initial timed
  clear timed initial
  intro before timers pool reached holds rest
  induction rest generalizing before with
  | nil => exact holds
  | cons meets permitted taken _ ih =>
    exact ih (reached.concat (weaken _ _ _ meets) taken) (step reached holds meets permitted taken)

end TimedRun

/-! ## Replays on the clock -/

def replayTimed (registry : ServiceScalerRegistry) (check : Timers → System → SystemEvent → Bool) (timers : Timers)
    (pool : System) : List Move → Option (Timers × System)
  | [] => some (timers, pool)
  | first :: moves => do
    let (event, next) ← move registry pool first
    guard (check timers pool event && decide (timers.Permits pool event next))
    replayTimed registry check (timers.after registry event next) next moves

theorem timedRun_of_replay {registry : ServiceScalerRegistry} {check : Timers → System → SystemEvent → Bool}
    {timers timers' : Timers} {pool target : System} {moves : List Move}
    (replayed : replayTimed registry check timers pool moves = some (timers', target)) :
    ∃ events, TimedRun registry (fun timers source event => check timers source event = true) timers pool events
      timers' target := by
  induction moves generalizing timers pool with
  | nil =>
    cases replayed
    exact ⟨[], .nil _ _⟩
  | cons first moves ih =>
    obtain ⟨⟨event, next⟩, moved, replayed⟩ := Option.bind_eq_some_iff.mp replayed
    obtain ⟨checked, rest⟩ := of_guard replayed
    obtain ⟨passed, permitted⟩ := (Bool.and_eq_true ..).mp checked
    obtain ⟨events, timed⟩ := ih rest
    exact ⟨event :: events, .cons passed (of_decide_eq_true permitted) (step_of_move moved) timed⟩

/-- What holds at the end of a timed replay holds at the end of some timed run. -/
theorem exists_timedRun_of_replay {registry : ServiceScalerRegistry} {check : Timers → System → SystemEvent → Bool}
    {timers : Timers} {pool : System} {moves : List Move} {test : Timers × System → Bool}
    (found : (replayTimed registry check timers pool moves).any test = true) :
    ∃ events timers' target,
      TimedRun registry (fun timers source event => check timers source event = true) timers pool events timers' target ∧
        test (timers', target) = true := by
  obtain ⟨⟨timers', target⟩, replayed, holds⟩ := (Option.any_eq_true ..).mp found
  obtain ⟨events, timed⟩ := timedRun_of_replay replayed
  exact ⟨events, timers', target, timed, holds⟩

end Bms
