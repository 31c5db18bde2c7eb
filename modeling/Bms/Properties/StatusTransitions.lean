import Bms.Properties.CompletedJobs
import Bms.Properties.SubJobStates

/-! # The transitions of sub-jobs and jobs

No statement checks the status that it overwrites, so which status may follow which is decided by what the
tasks in flight have read. A tick writes over the status that it has picked, over a cancellation, or over the
start of a measuring sub-job. Every transition that this leaves open is taken in some run.
-/

namespace Bms

open Process

/-- The statuses that one step may write over a status of a sub-job. -/
def SubJobType.successors : SubJobType → SubJobStatus → List SubJobStatus
  | .scaling, .created => [.processing, .failed, .canceled]
  | .scaling, .pending => []
  | .scaling, .processing => [.completed, .failed, .canceled]
  | .scaling, .completed => [.canceled]
  | .scaling, .failed => [.canceled]
  | .scaling, .canceled => [.processing, .completed, .failed]
  | .combinedDHP, .created => [.pending, .processing, .failed, .canceled]
  | .combinedDHP, .pending => [.processing, .failed, .canceled]
  | .combinedDHP, .processing => [.pending, .completed, .failed, .canceled]
  | .combinedDHP, .completed => [.processing, .canceled]
  | .combinedDHP, .failed => [.processing, .canceled]
  | .combinedDHP, .canceled => [.pending, .processing, .completed, .failed]

/-- The statuses that one step may write over a status of a job. -/
def JobStatus.successors : JobStatus → List JobStatus
  | .pending => [.completed, .canceled]
  | .completed => [.canceled]
  | .canceled => [.completed]
  | .created | .processing | .failed => []

/-- A step of some run takes the system from one state to the other. -/
def Taken (source target : System) : Prop :=
  ∃ registry first events event, Initial first ∧ Run (platform registry) (fun _ _ => True) first events source ∧
    Step (platform registry) source event target

/-- Some step of some run replaces a status of a sub-job of a type by another one. -/
def SubJobTransition (type : SubJobType) (status later : SubJobStatus) : Prop :=
  ∃ source target row row', Taken source target ∧ source.world.subJobs.find? row.id = some row ∧
    target.world.subJobs.find? row.id = some row' ∧ row.type = type ∧ row.status = status ∧ row'.status = later ∧
    status ≠ later

/-- Some step of some run replaces a status of a job by another one. -/
def JobTransition (status later : JobStatus) : Prop :=
  ∃ source target row row', Taken source target ∧ source.world.jobs.find? row.id = some row ∧
    target.world.jobs.find? row.id = some row' ∧ row.status = status ∧ row'.status = later ∧ status ≠ later

variable {registry : ServiceScalerRegistry} {source target : System} {event : SystemEvent}

/-! ## What a tick writes over -/

/-- The sub-job of a tick that has not written its status. -/
def JobPhase.undecided : JobPhase → Option SubJobWithJob
  | held subJob | surveyed subJob _ | recorded subJob _ | dispatched subJob _ | refused subJob
  | answered subJob _ => some subJob
  | _ => none

theorem JobPhase.snapshot_of_undecided {phase : JobPhase} {subJob : SubJobWithJob}
    (undecided : phase.undecided = some subJob) : phase.snapshot = some subJob := by
  cases phase <;> first | exact undecided | cases undecided

theorem JobPhase.undecided_note {phase : JobPhase} {made : Act} {subJob : SubJobWithJob}
    (undecided : (phase.note made).undecided = some subJob) :
    phase.undecided = some subJob ∨ (phase = .searching ∧ made = ⟨.sql .getFirstUnfinishedSubJob, .ok subJob⟩) := by
  have noted := phase.notes made
  generalize phase.note made = later at undecided noted
  cases noted with
  | stays | surveys | records | publishes | refuses | answers => exact .inl undecided
  | picks =>
    cases undecided
    exact .inr ⟨rfl, rfl⟩
  | _ => cases undecided

/-- A status that the row of a sub-job may show to the tick that is about to write it. -/
def SubJobWithJob.MayShow (subJob : SubJobWithJob) (status : SubJobStatus) : Prop :=
  status = subJob.status ∨ status = .canceled ∨ (subJob.type = .combinedDHP ∧ status = .processing)

/-- The rows of the sub-jobs that ticks are about to write. -/
def Followed (pool : System) : Prop :=
  ∀ position kind phase subJob, At pool position kind phase → phase.undecided = some subJob →
    ∃ row, pool.world.subJobs.find? subJob.id = some row ∧ subJob.MayShow row.status

/-- A status is written by the tick in flight, which notes that it has done so, by the cancellation of the job,
or by the start of a measuring sub-job. -/
theorem SubJobWrite.status {test : SubJobRow → Bool} {change : SubJobRow → SubJobRow}
    (write : SubJobWrite source event test change) (traffic : Traffic source) (measuring : MeasuringTraffic source)
    {row : SubJobRow} (member : row ∈ source.world.subJobs.rows) (tested : test row = true) :
    (change row).status = row.status ∨ (change row).status = .canceled ∨
      (row.type = .combinedDHP ∧ (change row).status = .processing) ∨
      ∃ position phase op reply, At source position .subJobTick phase ∧ event = .call position ⟨op, reply⟩ ∧
        (phase.note ⟨op, reply⟩).undecided = none := by
  cases write with
  | recorded => exact .inl rfl
  | unneeded | canceled => exact .inr (.inl rfl)
  | begun here =>
    obtain ⟨other, found, type⟩ := measuring.starts traffic here
    rw [← of_decide_eq_true tested, mem_iff_find?.mp member] at found
    cases found
    exact .inr (.inr (.inl ⟨type, rfl⟩))
  | pended here | scaled here | reached here | completed here => exact .inr (.inr (.inr ⟨_, _, _, _, here, rfl, rfl⟩))
  | failed here failable => exact .inr (.inr (.inr ⟨_, _, _, _, here, rfl, congrArg _ (failable.note ..)⟩))

theorem Followed.step (sound : Sound source) (traffic : Traffic source) (measuring : MeasuringTraffic source)
    (followed : Followed source) (step : Step (platform registry) source event target) : Followed target := by
  intro position kind phase subJob here undecided
  have kept {before : JobPhase} (there : At source position kind before) (undecided : before.undecided = some subJob)
      (spared : ∀ op reply, event = .call position ⟨op, reply⟩ → (before.note ⟨op, reply⟩).undecided = some subJob) :
      ∃ row, target.world.subJobs.find? subJob.id = some row ∧ subJob.MayShow row.status := by
    obtain ⟨row, found, shows⟩ := followed position kind before subJob there undecided
    obtain ⟨rfl, other, found', -, type⟩ :=
      sound.known position kind before subJob there (JobPhase.snapshot_of_undecided undecided)
    obtain rfl : row = other := Option.some.inj (found.symm.trans found')
    obtain ⟨later, reached, rfl | ⟨test, change, write, tested, rfl⟩⟩ := subJob_step sound.tracks step found
    · exact ⟨later, reached, shows⟩
    · refine ⟨_, reached, ?_⟩
      obtain same | canceled | ⟨measures, processing⟩ | ⟨other, phase', op, reply, there', rfl, decided⟩ :=
        write.status traffic measuring (Table.mem_of_find? found) tested
      · rwa [same]
      · exact .inr (.inl canceled)
      · exact .inr (.inr ⟨type.symm.trans measures, processing⟩)
      · obtain ⟨rfl, rfl⟩ := sound.tick_unique there there'
        rw [spared op reply rfl] at decided
        cases decided
  obtain ⟨old, silent⟩ | ⟨-, rfl⟩ | ⟨before, op, reply, old, legal, rfl, rfl, allowed, reached⟩ :=
    here.before sound.tracks step
  · exact kept old undecided fun op reply same => absurd same (silent _)
  · cases kind <;> cases undecided
  · obtain before | ⟨rfl, picks⟩ := JobPhase.undecided_note undecided
    · apply kept old before
      intro op' reply' same
      cases same
      exact undecided
    · cases picks
      obtain ⟨row, found, -, same⟩ := picked_row allowed
      rw [reached]
      exact ⟨row, found, .inl (congrArg SubJob.status same).symm⟩

theorem Followed.of_initial {pool : System} (initial : Initial pool) : Followed pool :=
  fun _ _ _ _ here => absurd here (not_at_of_initial initial)

/-! ## The transitions of a step -/

/-- The type and the status that a row shows to the tick that is about to write it. -/
theorem Followed.shown (sound : Sound source) (followed : Followed source) {row : SubJobRow}
    (member : row ∈ source.world.subJobs.rows) {position : ℕ} {phase : JobPhase} {subJob : SubJobWithJob}
    (here : At source position .subJobTick phase) (undecided : phase.undecided = some subJob)
    (own : row.id = subJob.id) : row.type = subJob.type ∧ subJob.MayShow row.status := by
  obtain ⟨known, found, shows⟩ := followed position _ phase subJob here undecided
  obtain ⟨-, other, found', -, type⟩ := sound.known _ _ _ subJob here (JobPhase.snapshot_of_undecided undecided)
  rw [← own, mem_iff_find?.mp member] at found found'
  cases found
  cases found'
  exact ⟨type, shows⟩

/-- No tick holds a pending scaling sub-job. -/
theorem Staged.not_pending (staged : Staged source) {position : ℕ} {phase : JobPhase} {subJob : SubJobWithJob}
    (here : At source position .subJobTick phase) (held : phase.snapshot = some subJob)
    (scaling : subJob.type = .scaling) : subJob.status ≠ .pending := by
  obtain ⟨task, member, -, -, picked⟩ := here.holds held
  exact staged.picked task member subJob (mem_of_pickedIn picked) scaling

/-- A tick fails a sub-job that it has read as unfinished. -/
theorem failed_successor {type : SubJobType} {subJob : SubJobWithJob} {status : SubJobStatus} (own : type = subJob.type)
    (unfinished : subJob.status.Unfinished) (unpended : subJob.type = .scaling → subJob.status ≠ .pending)
    (shows : subJob.MayShow status) : .failed ∈ type.successors status := by
  subst own
  rcases shows with rfl | rfl | ⟨measuring, rfl⟩
  · cases type : subJob.type <;> cases read : subJob.status <;>
      simp_all [SubJobStatus.Unfinished, SubJobType.successors]
  · cases subJob.type <;> simp [SubJobType.successors]
  · simp [measuring, SubJobType.successors]

theorem successor_of_change (sound : Sound source) (traffic : Traffic source) (measuring : MeasuringTraffic source)
    (staged : Staged source) (followed : Followed source) {row later : SubJobRow}
    (member : row ∈ source.world.subJobs.rows) (change : SubJobChange source row event later)
    (differs : row.status ≠ later.status) : later.status ∈ row.type.successors row.status := by
  obtain ⟨test, change, write, tested, rfl⟩ := change
  have shown {position : ℕ} {phase : JobPhase} {subJob : SubJobWithJob} (here : At source position .subJobTick phase)
      (undecided : phase.undecided = some subJob) (own : row.id = subJob.id) :=
    followed.shown sound member here undecided own
  cases write with
  | recorded => exact absurd rfl differs
  | pended here measures created =>
    obtain ⟨type, shows⟩ := shown here rfl (of_decide_eq_true tested)
    rw [type, measures]
    rcases shows with same | same | ⟨-, same⟩ <;> simp [same, created, SubJobType.successors]
  | scaled here scaling created =>
    obtain ⟨type, shows⟩ := shown here rfl (of_decide_eq_true tested)
    rw [type, scaling]
    rcases shows with same | same | ⟨other, -⟩
    · simp [same, created, SubJobType.successors]
    · simp [same, SubJobType.successors]
    · cases other.symm.trans scaling
  | unneeded here scaling created =>
    obtain ⟨type, shows⟩ := shown here rfl (of_decide_eq_true tested)
    rw [type, scaling]
    rcases shows with same | same | ⟨other, -⟩
    · simp [same, created, SubJobType.successors]
    · exact absurd same differs
    · cases other.symm.trans scaling
  | reached here scaling processing =>
    obtain ⟨type, shows⟩ := shown here rfl (of_decide_eq_true tested)
    rw [type, scaling]
    rcases shows with same | same | ⟨-, same⟩ <;> simp [same, processing, SubJobType.successors]
  | completed here measures processing =>
    obtain ⟨type, shows⟩ := shown here rfl (of_decide_eq_true tested)
    rw [type, measures]
    rcases shows with same | same | ⟨-, same⟩ <;> simp [same, processing, SubJobType.successors]
  | @failed position phase subJob message done here failable =>
    have undecided : phase.undecided = some subJob := by
      obtain rfl | ⟨workers, rfl⟩ | rfl := failable <;> rfl
    have held := failable.snapshot
    obtain ⟨type, shows⟩ := shown here undecided (of_decide_eq_true tested)
    exact failed_successor type (staged.reads.status _ _ phase subJob here held) (staged.not_pending here held) shows
  | begun here =>
    obtain ⟨other, found, type⟩ := measuring.starts traffic here
    rw [← of_decide_eq_true tested, mem_iff_find?.mp member] at found
    cases found
    have differs : row.status ≠ .processing := differs
    rw [type]
    cases status : row.status <;> simp_all [SubJobType.successors]
  | canceled here =>
    have unpended := staged.unpended row member
    have differs : row.status ≠ .canceled := differs
    cases type : row.type <;> cases status : row.status <;> simp_all [SubJobType.successors]

theorem successor_of_transition {type : SubJobType} {status later : SubJobStatus}
    (transition : SubJobTransition type status later) : later ∈ type.successors status := by
  obtain ⟨source, target, row, row', ⟨registry, first, events, event, initial, run, step⟩, found, found', rfl, rfl, rfl,
    differs⟩ := transition
  obtain ⟨sound, ⟨traffic, measuring, staged⟩, followed⟩ :=
    sound_invariant (I := fun pool => (Traffic pool ∧ MeasuringTraffic pool ∧ Staged pool) ∧ Followed pool) run
      (fun sound known _ step => ⟨⟨known.1.1.step sound step, known.1.2.1.step sound known.1.1 step,
        known.1.2.2.step sound known.1.1 known.1.2.1 step⟩, known.2.step sound known.1.1 known.1.2.1 step⟩)
      (.of_initial initial) ⟨⟨.of_initial initial, .of_initial initial, .of_initial initial⟩, .of_initial initial⟩
  obtain ⟨same, reached, rfl | change⟩ := subJob_step sound.tracks step found
  all_goals obtain rfl := Option.some.inj (found'.symm.trans reached)
  · exact absurd rfl differs
  · exact successor_of_change sound traffic measuring staged followed (Table.mem_of_find? found) change differs

/-- The statuses that jobs have. -/
def JobStatus.Used (status : JobStatus) : Prop := status = .pending ∨ status = .completed ∨ status = .canceled

theorem used_step (sound : Sound source) (used : ∀ id row, source.world.jobs.find? id = some row → row.status.Used)
    (step : Step (platform registry) source event target) {id : Uuid} {row : JobRow}
    (found : target.world.jobs.find? id = some row) : row.status.Used := by
  obtain ⟨old, earlier, rfl | change⟩ | ⟨-, insert⟩ := job_before sound.tracks step found
  · exact used id row earlier
  · have status := used id old earlier
    cases change with
    | canceled => exact .inr (.inr rfl)
    | completed => exact .inr (.inl rfl)
    | expected => exact status
  · cases insert
    exact .inl rfl

theorem successor_of_jobTransition {status later : JobStatus} (transition : JobTransition status later) :
    later ∈ status.successors := by
  obtain ⟨source, target, row, row', ⟨registry, first, events, event, initial, run, step⟩, found, found', rfl, rfl,
    differs⟩ := transition
  obtain ⟨sound, used⟩ :=
    sound_invariant (I := fun pool => ∀ id row, pool.world.jobs.find? id = some row → row.status.Used) run
      (fun sound used _ step _ _ found => used_step sound used step found) (.of_initial initial)
      fun id row found => by
        have member := Table.mem_of_find? found
        rw [initial.jobs] at member
        cases member
  obtain ⟨same, reached, rfl | change⟩ := job_step sound.tracks step found
  all_goals obtain rfl := Option.some.inj (found'.symm.trans reached)
  · exact absurd rfl differs
  · have status := used row.id row found
    cases change with
    | canceled => rcases status with status | status | status <;> simp_all [JobStatus.successors]
    | completed => rcases status with status | status | status <;> simp_all [JobStatus.successors]
    | expected => exact absurd rfl differs

/-! ## Every transition is taken -/

/-- The states before and after each move of a replay. -/
def stages (registry : ServiceScalerRegistry) (pool : System) : List Move → List (System × System)
  | [] => []
  | first :: moves =>
    match move registry pool first with
    | none => []
    | some (_, next) => (pool, next) :: stages registry next moves

theorem run_of_stages {moves : List Move} {pool : System} (member : (source, target) ∈ stages registry pool moves) :
    ∃ events event, Run (platform registry) (fun _ _ => True) pool events source ∧
      Step (platform registry) source event target := by
  induction moves generalizing pool with
  | nil => cases member
  | cons first moves ih =>
    simp only [stages] at member
    split at member
    · cases member
    · next event next moved =>
      have step := step_of_move moved
      obtain same | later := List.mem_cons.mp member
      · cases same
        exact ⟨[], event, .nil _, step⟩
      · obtain ⟨events, last, run, taken⟩ := ih later
        exact ⟨event :: events, last, .cons trivial step run, taken⟩

/-- The changes of the status of sub-jobs between two worlds. -/
def World.subJobChanges (w later : World) : List (SubJobType × SubJobStatus × SubJobStatus) :=
  w.subJobs.rows.filterMap fun row => (later.subJobs.find? row.id).bind fun row' =>
    if row.status = row'.status then none else some (row.type, row.status, row'.status)

/-- The changes of the status of jobs between two worlds. -/
def World.jobChanges (w later : World) : List (JobStatus × JobStatus) :=
  w.jobs.rows.filterMap fun row => (later.jobs.find? row.id).bind fun row' =>
    if row.status = row'.status then none else some (row.status, row'.status)

theorem subJobTransition_of_changes (taken : Taken source target) {type : SubJobType} {status later : SubJobStatus}
    (changes : (type, status, later) ∈ source.world.subJobChanges target.world) : SubJobTransition type status later := by
  obtain ⟨row, member, changed⟩ := List.mem_filterMap.mp changes
  obtain ⟨row', found, changed⟩ := Option.bind_eq_some_iff.mp changed
  split at changed
  · cases changed
  · next differs =>
    cases changed
    exact ⟨source, target, row, row', taken, mem_iff_find?.mp member, found, rfl, rfl, rfl, differs⟩

theorem jobTransition_of_changes (taken : Taken source target) {status later : JobStatus}
    (changes : (status, later) ∈ source.world.jobChanges target.world) : JobTransition status later := by
  obtain ⟨row, member, changed⟩ := List.mem_filterMap.mp changes
  obtain ⟨row', found, changed⟩ := Option.bind_eq_some_iff.mp changed
  split at changed
  · cases changed
  · next differs =>
    cases changed
    exact ⟨source, target, row, row', taken, Table.find?_of_mem member, found, rfl, rfl, differs⟩

/-- Job 1 is cancelled by the task at a position. -/
def cancelledBy (position : ℕ) : List Move := .start (.cancelJob 1) :: goTimes position 3

/-- The worker announces that it is online, and the message is processed. -/
def cameOnline (position : ℕ) : List Move :=
  .start (.lifecycle sampleWorker .online) :: goTimes position 2 ++
    .start (.statusDelivery (.workerStatus ⟨"w1", .lifecycle ⟨["eu"], .online⟩, Duration.seconds 4⟩)) ::
    goTimes (position + 1) 3

/-- Sub-job 3 is started before it is pending, and once more; it is completed, restarted by a message that is
delivered again, and completed once more although its job has been cancelled in between. -/
def restarted : List Move :=
  sampleCreation ++ sampleTick 1 7 ++ sampleTick 2 6 ++ received sampleWorker 3 4 ++ startProcessed 4 ++ .go 2 ::
    startProcessed 5 ++ .clock (Duration.seconds 10) :: received sampleWorker 6 3 ++ saved (lateAnswer 7 "w1") 7 ++
    sampleTick 8 5 ++ startProcessed 9 ++ cancelledBy 10 ++ startProcessed 11 ++ sampleTick 12 3 ++ cancelledBy 13 ++
    goTimes 12 3 ++ cancelledBy 14

/-- The job is cancelled before sub-job 3 is made pending; it is started and fails, twice. -/
def cancelledEarly : List Move :=
  sampleCreation ++ sampleTick 1 7 ++ sampleTick 2 6 ++ cancelledBy 3 ++ .go 2 :: received sampleWorker 4 4 ++
    startProcessed 5 ++ .clock (Duration.seconds 1000) :: sampleTick 6 3 ++ startProcessed 7 ++ sampleTick 8 2 ++
    cancelledBy 9 ++ .go 8 :: cancelledBy 10

/-- Sub-job 3 fails while it is pending, and the job is cancelled while sub-job 4 is. -/
def failedPending : List Move :=
  sampleCreation ++ sampleTick 1 7 ++ dispatchedAndFailed 2 1000 ++ sampleTick 4 7 ++ cancelledBy 5

/-- The three measuring sub-jobs are completed, and the job with them. -/
def allMeasured : List Move :=
  sampleCreation ++ sampleTick 1 7 ++ measured 2 3 6 (Duration.seconds 4) 5 ++ measured 8 4 8 (Duration.seconds 10) 5 ++
    measured 14 5 10 (Duration.seconds 16) 6

/-- The job is cancelled while its services are scaled, and again when its workers are online. -/
def cancelledScaling : List Move :=
  sampleCreation ++ sampleTick 1 9 ++ cancelledBy 2 ++ .go 1 :: cameOnline 3 ++ sampleTick 5 4 ++ cancelledBy 6 ++
    .go 5 :: cancelledBy 7

/-- The workers come online in time. -/
def scaledInTime : List Move := sampleCreation ++ sampleTick 1 10 ++ cameOnline 2 ++ sampleTick 4 5

/-- No worker comes online, neither for the scaling sub-job nor for the first measuring one. -/
def neverOnline : List Move :=
  sampleCreation ++ sampleTick 1 10 ++ .clock (Duration.seconds 2000) :: sampleTick 2 3 ++ sampleTick 3 5 ++ cancelledBy 4

/-- The job is cancelled when a tick has seen that the deadline of the scaling sub-job has passed. -/
def cancelledLate : List Move :=
  sampleCreation ++ sampleTick 1 10 ++ .clock (Duration.seconds 2000) :: sampleTick 2 2 ++ cancelledBy 3 ++ [.go 2]

/-- The services cannot be read. -/
def unreadable : List Move := sampleCreation ++ sampleTick 1 1 ++ .fail 1 :: [.go 1]

def sampleStages : List (System × System) :=
  [restarted, cancelledEarly, failedPending, allMeasured].flatMap (stages ⟨false⟩ (sampleSystem .online)) ++
    [cancelledScaling, scaledInTime, neverOnline, cancelledLate, unreadable].flatMap
      (stages ⟨false⟩ (sampleSystem .offline))

theorem taken_of_sample (member : (source, target) ∈ sampleStages) : Taken source target := by
  have taken {status : WorkerStatus} {moves : List Move}
      (member : (source, target) ∈ stages ⟨false⟩ (sampleSystem status) moves) : Taken source target := by
    obtain ⟨events, event, run, step⟩ := run_of_stages member
    exact ⟨⟨false⟩, _, events, event, initial_sampleSystem status, run, step⟩
  obtain online | offline := List.mem_append.mp member
  · obtain ⟨moves, -, member⟩ := List.mem_flatMap.mp online
    exact taken member
  · obtain ⟨moves, -, member⟩ := List.mem_flatMap.mp offline
    exact taken member

/-- The table of `successors`, as a list. -/
def subJobTable : List (SubJobType × SubJobStatus × SubJobStatus) :=
  [SubJobType.combinedDHP, .scaling].flatMap fun type =>
    [SubJobStatus.created, .pending, .processing, .completed, .failed, .canceled].flatMap fun status =>
      (type.successors status).map fun later => (type, status, later)

theorem mem_subJobTable {type : SubJobType} {status later : SubJobStatus} (succeeds : later ∈ type.successors status) :
    (type, status, later) ∈ subJobTable := by
  refine List.mem_flatMap.mpr ⟨type, by cases type <;> simp, ?_⟩
  refine List.mem_flatMap.mpr ⟨status, by cases status <;> simp, ?_⟩
  exact List.mem_map_of_mem succeeds

theorem subJobTable_sampled : ∀ change ∈ subJobTable,
    change ∈ sampleStages.flatMap fun (source, target) => source.world.subJobChanges target.world := by
  decide +kernel

theorem jobTable_sampled : ∀ change ∈ [(JobStatus.pending, JobStatus.completed), (.pending, .canceled),
      (.completed, .canceled), (.canceled, .completed)],
    change ∈ sampleStages.flatMap fun (source, target) => source.world.jobChanges target.world := by
  decide +kernel

/-- In all runs together, the steps replace the status of a sub-job by exactly the successors of the table, and so
they do for jobs. -/
theorem status_transitions :
    (∀ type status later, SubJobTransition type status later ↔ later ∈ type.successors status) ∧
      ∀ status later, JobTransition status later ↔ later ∈ status.successors := by
  refine ⟨fun type status later => ⟨successor_of_transition, fun succeeds => ?_⟩,
    fun status later => ⟨successor_of_jobTransition, fun succeeds => ?_⟩⟩
  · have sampled := subJobTable_sampled _ (mem_subJobTable succeeds)
    obtain ⟨⟨source, target⟩, member, changes⟩ := List.mem_flatMap.mp sampled
    exact subJobTransition_of_changes (taken_of_sample member) changes
  · have sampled := jobTable_sampled (status, later) (by cases status <;> simp_all [JobStatus.successors])
    obtain ⟨⟨source, target⟩, member, changes⟩ := List.mem_flatMap.mp sampled
    exact jobTransition_of_changes (taken_of_sample member) changes

end Bms
