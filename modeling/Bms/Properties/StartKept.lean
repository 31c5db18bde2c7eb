import Bms.Model.Replay
import Bms.Protocol.Traffic

/-! # Start signals

A tick publishes the job message before it makes the sub-job pending, so a worker may announce its
start in between. The pending status then overwrites the start for good. A start that is processed
while no tick is dispatching the sub-job is kept.
-/

namespace Bms

open Process

/-- A start message of the sub-job has been processed. -/
def Started (pool : System) (id : Uuid) : Prop :=
  ∃ task ∈ pool.tasks, (∃ content, task.kind = .statusDelivery content) ∧
    ⟨.sql (.updateSubJobStatus id .processing), .ok ()⟩ ∈ task.log

/-- Once a start has been processed and no tick is dispatching the sub-job, it is not pending, in
runs whose steps all meet `ok`. -/
def StartKept (registry : ServiceScalerRegistry) (ok : System → SystemEvent → Prop) : Prop :=
  ∀ ⦃source target : System⦄ ⦃events : List SystemEvent⦄ ⦃id : Uuid⦄ ⦃row : SubJobRow⦄, Initial source →
    Run (platform registry) ok source events target → Started target id → ¬ Dispatching target id →
    target.world.subJobs.find? id = some row → row.status ≠ .pending

/-- No start message is processed while a tick is dispatching its sub-job. -/
def AfterDispatch (pool : System) (event : SystemEvent) : Prop :=
  ∀ position id done, event = .call position ⟨.sql (.updateSubJobStatus id .processing), .ok done⟩ →
    ¬ Dispatching pool id

/-- A started sub-job has left the statuses from which it is dispatched. -/
def Underway (pool : System) : Prop :=
  ∀ id, Started pool id → ¬ Dispatching pool id ∧
    ∃ row, pool.world.subJobs.find? id = some row ∧ row.status ≠ .created ∧ row.status ≠ .pending

variable {registry : ServiceScalerRegistry} {source target : System} {event : SystemEvent}

/-- A sub-job has been started before, or is by this step, which delivers its start message. -/
theorem started_step (tracks : jobMonitor.TracksAll source) (step : Step (platform registry) source event target)
    {id : Uuid} (started : Started target id) :
    Started source id ∨ ∃ position workerName details timestamp, details.subJobId = id ∧
      At source position (.statusDelivery (.workerStatus ⟨workerName, .job (some details), timestamp⟩)) .aside ∧
      event = .call position ⟨.sql (.updateSubJobStatus id .processing), .ok ()⟩ := by
  obtain ⟨task, member, ⟨content, same⟩, logged⟩ := started
  obtain ⟨before, member', kind, earlier⟩ | ⟨position, phase, here, legal, rfl⟩ := logged_before tracks step member logged
  · exact .inl ⟨before, member', ⟨content, kind.trans same⟩, earlier⟩
  · rw [same] at here legal
    cases legal with
    | quiet quiet => exact quiet.elim
    | begin => exact .inr ⟨position, _, _, _, rfl, here, rfl⟩

theorem Underway.step (sound : Sound source) (traffic : Traffic source) (underway : Underway source)
    (after : AfterDispatch source event) (step : Step (platform registry) source event target) : Underway target := by
  intro id started
  obtain before | ⟨position, workerName, details, timestamp, rfl, here, rfl⟩ := started_step sound.tracks step started
  · obtain ⟨idle, row, found, notCreated, notPending⟩ := underway id before
    constructor
    · intro dispatching
      obtain busy | ⟨-, -, picked, found', -, created⟩ := sound.dispatching_before step dispatching
      · exact idle busy
      · obtain rfl : row = picked := Option.some.inj (found.symm.trans found')
        exact notCreated created
    · obtain ⟨later, found', rfl | ⟨test, change, write, tested, rfl⟩⟩ := subJob_step sound.tracks step found
      · exact ⟨later, found', notCreated, notPending⟩
      · refine ⟨_, found', ?_⟩
        cases write with
        | recorded => exact ⟨notCreated, notPending⟩
        | pended here measuring created =>
          have own : row.id = _ := of_decide_eq_true tested
          exact absurd (here.dispatching rfl created) (by rwa [← own, subJob_id found])
        | scaled | unneeded | reached | completed | failed | begun | canceled => exact ⟨nofun, nofun⟩
  · have idle := after _ _ _ rfl
    constructor
    · intro dispatching
      obtain busy | ⟨-, ⟨_, _, picks⟩, -⟩ := sound.dispatching_before step dispatching
      · exact idle busy
      · cases picks
    · obtain ⟨row, found⟩ := Option.isSome_iff_exists.mp
        (traffic.announced _ _ _ (traffic.delivered position _ _ here))
      refine ⟨{ row with status := .processing }, ?_, nofun, nofun⟩
      cases step with
      | call present awaits allowed =>
        refine (find?_updateSubJob source.world (fun row => row.id = details.subJobId)
          (fun row => { row with status := .processing }) (fun _ => rfl) _).trans ?_
        rw [found, Option.map_some, if_pos (decide_eq_true (subJob_id found))]

theorem startKept_of_afterDispatch (registry : ServiceScalerRegistry) : StartKept registry AfterDispatch := by
  intro source target events id row initial run started idle found
  have start : Traffic source ∧ Underway source :=
    ⟨Traffic.of_initial initial, fun _ ⟨task, member, _⟩ => by simp [initial.tasks] at member⟩
  obtain ⟨-, -, underway⟩ := sound_invariant (I := fun pool => Traffic pool ∧ Underway pool) run
    (fun sound ⟨traffic, underway⟩ after step => ⟨traffic.step sound step, underway.step sound traffic after step⟩)
    (Sound.of_initial initial) start
  obtain ⟨-, later, found', -, notPending⟩ := underway id started
  obtain rfl : row = later := Option.some.inj (found.symm.trans found')
  exact notPending

theorem not_dispatching_of_idle {pool : System} (still : idle Kind.isTick pool = true) (id : Uuid) :
    ¬ Dispatching pool id := by
  rintro ⟨subJob, ⟨task, member, tick, flying, -⟩, -⟩
  exact not_inFlight_of_idle still member (by rw [tick]; rfl) flying

/-- Starts are processed between the ticks. -/
def startsBetweenTicks (pool : System) : SystemEvent → Bool
  | .call _ ⟨.sql (.updateSubJobStatus _ .processing), _⟩ => idle Kind.isTick pool
  | _ => true

theorem afterDispatch_of_startsBetweenTicks {pool : System} {event : SystemEvent}
    (check : startsBetweenTicks pool event = true) : AfterDispatch pool event := by
  rintro position id done rfl
  exact not_dispatching_of_idle check id

/-- Computes `Started`. -/
def hasStarted (pool : System) (id : Uuid) : Bool := pool.tasks.any fun task =>
  match task.kind with
  | .statusDelivery _ => task.log.any fun
    | ⟨.sql (.updateSubJobStatus other .processing), .ok _⟩ => other = id
    | _ => false
  | _ => false

theorem started_of_hasStarted {pool : System} {id : Uuid} (has : hasStarted pool id = true) : Started pool id := by
  obtain ⟨task, member, has⟩ := List.any_eq_true.mp has
  split at has
  · next content delivery =>
    obtain ⟨made, logged, starts⟩ := List.any_eq_true.mp has
    refine ⟨task, member, ⟨content, delivery⟩, ?_⟩
    split at starts
    · obtain rfl := of_decide_eq_true starts
      exact logged
    · cases starts
  · cases has

/-- The worker's start is processed after the tick has made sub-job 3 pending. -/
theorem startKept_startInTime : ∃ events target row,
    Run (platform ⟨false⟩) AfterDispatch (sampleSystem .online) events target ∧ Started target 3 ∧
      ¬ Dispatching target 3 ∧ target.world.subJobs.find? 3 = some row ∧ row.status ≠ .pending := by
  have replayed : ((replay ⟨false⟩ startsBetweenTicks (sampleSystem .online) (announcedStart ++ startProcessed 4)).any
      fun target => hasStarted target 3 && idle Kind.isTick target && (target.world.subJobs.find? 3).isSome) = true := by
    decide +kernel
  obtain ⟨events, target, run, found⟩ := exists_run_of_replay replayed
  simp only [Bool.and_eq_true, Option.isSome_iff_exists] at found
  obtain ⟨⟨has, still⟩, row, present⟩ := found
  have meets := run.mono fun _ _ => afterDispatch_of_startsBetweenTicks
  have started := started_of_hasStarted has
  have free := not_dispatching_of_idle still 3
  exact ⟨events, target, row, meets, started, free, present,
    startKept_of_afterDispatch ⟨false⟩ (initial_sampleSystem .online) meets started free present⟩

/-- The tick at position 2 has published the message of sub-job 3, and the worker announces the start
before the tick makes the sub-job pending. -/
def startBeforePending : List Move :=
  sampleCreation ++ sampleTick 1 7 ++ sampleTick 2 6 ++ received sampleWorker 3 4 ++ startProcessed 4 ++ [.go 2]

theorem not_startKept : ¬ StartKept ⟨false⟩ fun pool event => spawnsOnly Kind.ofJobs pool event = true := by
  intro kept
  have replayed : ((replay ⟨false⟩ (spawnsOnly Kind.ofJobs) (sampleSystem .online) startBeforePending).any
      fun target => hasStarted target 3 && idle Kind.isTick target &&
        decide (target.world.subJobStatus? 3 = some .pending)) = true := by
    decide +kernel
  obtain ⟨events, target, run, found⟩ := exists_run_of_replay replayed
  simp only [Bool.and_eq_true, decide_eq_true_eq] at found
  obtain ⟨⟨has, still⟩, pending⟩ := found
  obtain ⟨row, present, status⟩ := Option.map_eq_some_iff.mp pending
  exact kept (initial_sampleSystem .online) run (started_of_hasStarted has) (not_dispatching_of_idle still 3) present
    status

end Bms
