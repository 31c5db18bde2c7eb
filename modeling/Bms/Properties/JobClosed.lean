import Bms.Model.Replay
import Bms.Protocol.JobIds

/-! # Open jobs

A job is closed by the tick that completes its last measuring sub-job, and by a cancellation. A tick
that fails that sub-job writes nothing to the job, which then stays pending for good. As long as a
failed sub-job leaves another unfinished one behind, a job is closed when all of its work has ended.
-/

namespace Bms

open Process

/-- A task in the middle of its calls; one that has panicked is not. -/
def Running (task : SystemTask) : Prop := ∃ op next, task.rest = .call op next ∧ op ≠ .panic

/-- No request for a job and no tick is in the middle of its statements. -/
def Quiescent (pool : System) : Prop :=
  ∀ task ∈ pool.tasks, (task.kind.isCreation || task.kind.isCancellation || task.kind.isTick) = true → ¬ Running task

/-- A job whose sub-jobs have all ended is closed, in runs without repository failures whose steps all
meet `ok`. -/
def ClosedWhenDone (registry : ServiceScalerRegistry) (ok : System → SystemEvent → Prop) : Prop :=
  ∀ ⦃source target : System⦄ ⦃events : List SystemEvent⦄ ⦃jobId : Uuid⦄ ⦃row : JobRow⦄, Initial source →
    Run (platform registry) (fun pool event => NoFailure event ∧ ok pool event) source events target →
    Quiescent target → target.world.jobs.find? jobId = some row → target.world.subJobsOf jobId ≠ [] →
    (∀ subJob ∈ target.world.subJobsOf jobId, subJob.status.Ended) → row.status.Closed

/-- An unfinished measuring sub-job of a job. -/
def Awaiting (w : World) (jobId : Uuid) (id : Uuid) : Prop :=
  ∃ row, w.subJobs.find? id = some row ∧ row.jobId = jobId ∧ row.type = .combinedDHP ∧ row.status.Unfinished

/-- The creation of a job is inserting its sub-jobs. -/
def InCreation (pool : System) (jobId : Uuid) : Prop :=
  ∃ position payload subJobs, At pool position (.createJob payload) (.creating jobId subJobs)

/-- A measuring sub-job fails while its job is closed or in creation, or waits for another one. -/
def FailsAmongOthers (pool : System) (event : SystemEvent) : Prop :=
  ∀ position id message done row,
    event = .call position ⟨.sql (.updateSubJobStatusWithError id .failed message), .ok done⟩ →
    pool.world.subJobs.find? id = some row → row.type = .combinedDHP →
    (∀ job, pool.world.jobs.find? row.jobId = some job → job.status.Closed) ∨
      (∃ other, other ≠ id ∧ Awaiting pool.world row.jobId other) ∨ InCreation pool row.jobId

/-- A tick is about to close a job, or to find out that it must not. -/
def Closing (pool : System) (jobId : Uuid) : Prop :=
  ∃ position subJob, subJob.jobId = jobId ∧
    (At pool position .subJobTick (.completed subJob) ∨ At pool position .subJobTick (.emptied subJob))

/-- An open job has work left that will close it. -/
structure OpenJobs (pool : System) : Prop where
  halfway : ∀ position jobId, At pool position (.cancelJob jobId) .jobCanceled →
    ∀ row, pool.world.jobs.find? jobId = some row → row.status.Closed
  awaited : ∀ jobId row, pool.world.jobs.find? jobId = some row → ¬ row.status.Closed →
    InCreation pool jobId ∨ (∃ id, Awaiting pool.world jobId id) ∨ Closing pool jobId

variable {registry : ServiceScalerRegistry} {source target : System} {event : SystemEvent}

/-- A closed job stays closed. -/
theorem closed_of_change {pool : System} {row later : JobRow} (change : JobChange pool row event later)
    (closed : row.status.Closed) : later.status.Closed := by
  cases change with
  | canceled | completed => simp [JobStatus.Closed]
  | expected => exact closed

theorem closed_step (tracks : jobMonitor.TracksAll source) (step : Step (platform registry) source event target)
    {jobId : Uuid} (closed : ∀ row, source.world.jobs.find? jobId = some row → row.status.Closed)
    (known : (source.world.jobs.find? jobId).isSome ∨ ∀ position kind, ¬ At source position kind (.drawn jobId)) :
    ∀ row, target.world.jobs.find? jobId = some row → row.status.Closed := by
  intro later found'
  obtain ⟨row, found, rfl | change⟩ := job_before_of_known tracks step found' known
  · exact closed later found
  · exact closed_of_change change (closed row found)

theorem OpenJobs.halfway_step (sound : Sound source) (ids : JobIds source) (openJobs : OpenJobs source)
    (step : Step (platform registry) source event target) {position : ℕ} {jobId : Uuid}
    (here : At target position (.cancelJob jobId) .jobCanceled) :
    ∀ row, target.world.jobs.find? jobId = some row → row.status.Closed := by
  obtain there | canceled := here.jobCanceled_before sound.tracks step
  · exact closed_step sound.tracks step (openJobs.halfway position jobId there) (there.named ids).2
  · intro later found'
    simp [canceled later found', JobStatus.Closed]

/-- A creation goes on until it has inserted a measuring sub-job as its last one. -/
theorem inCreation_step (sound : Sound source) (noFailure : NoFailure event)
    (step : Step (platform registry) source event target) {jobId : Uuid} (creation : InCreation source jobId) :
    InCreation target jobId ∨ ∃ id, Awaiting target.world jobId id := by
  obtain ⟨position, payload, subJobs, here⟩ := creation
  by_cases calls : ∃ made, event = .call position made
  · obtain ⟨⟨op, reply⟩, rfl⟩ := calls
    obtain ⟨kind, phase, there, legal, allowed, reached⟩ := legal_of_call sound.tracks step
    obtain ⟨rfl, rfl⟩ := here.unique there
    have after := here.after sound.tracks step
    cases legal with
    | quiet quiet going => exact going.elim
    | drawSubJob few => exact .inl ⟨position, payload, subJobs, after.resolve_right (ne_of_lt few)⟩
    | @insertSubJob _ _ subJobId _ details few =>
      obtain ⟨done, rfl⟩ := noFailure.ok allowed fun missing => missing
      refine after.imp (fun going => ⟨position, payload, _, going⟩) fun (last : subJobs + 1 = 4) => ?_
      obtain rfl : subJobs = 3 := by omega
      obtain ⟨fresh, -, -⟩ := allowed
      refine ⟨subJobId, ⟨Stmt.insertedSubJob subJobId jobId .created .combinedDHP details, source.world.now⟩, ?_, rfl,
        rfl, (by decide : SubJobStatus.created.Unfinished)⟩
      rw [reached]
      exact (Table.find?_insert_fresh fresh subJobId).trans (if_pos rfl)
  · exact .inl ⟨position, payload, subJobs, here.kept step fun made same => calls ⟨made, same⟩⟩

/-- An unfinished measuring sub-job stays one, or it has ended in a way that leaves its job with
something to wait for. -/
theorem awaiting_step (sound : Sound source) (openJobs : OpenJobs source) (among : FailsAmongOthers source event)
    (step : Step (platform registry) source event target) {jobId id : Uuid} {job : JobRow}
    (known : source.world.jobs.find? jobId = some job) (stillOpen : ¬ job.status.Closed)
    (awaiting : Awaiting source.world jobId id) :
    InCreation target jobId ∨ (∃ id, Awaiting target.world jobId id) ∨ Closing target jobId := by
  obtain ⟨row, found, own, type, unfinished⟩ := awaiting
  cases subJobs_step sound.tracks step with
  | kept same => exact .inr (.inl ⟨id, row, by rwa [same], own, type, unfinished⟩)
  | inserted insert rows =>
    refine .inr (.inl ⟨id, row, ?_, own, type, unfinished⟩)
    rw [rows, if_neg, found]
    rintro rfl
    simp [insert.fresh] at found
  | @written test change write rows =>
    have still (status : test row = true → (change row).status.Unfinished) :
        InCreation target jobId ∨ (∃ id, Awaiting target.world jobId id) ∨ Closing target jobId := by
      refine .inr (.inl ⟨id, _, by rw [rows, found, Option.map_some], ?_⟩)
      split
      · next tested => exact ⟨(write.fixed row).2.1.trans own, (write.fixed row).2.2.1.trans type, status tested⟩
      · exact ⟨own, type, unfinished⟩
    by_cases tested : test row = true
    · have snapshot {position : ℕ} {phase : JobPhase} {subJob : SubJobWithJob}
          (here : At source position .subJobTick phase) (holds : phase.snapshot = some subJob)
          (same : row.id = subJob.id) : subJob.type = .combinedDHP ∧ subJob.jobId = jobId := by
        obtain ⟨-, row', known, job', type'⟩ := sound.known position _ phase subJob here holds
        rw [← same, subJob_id found, found, Option.some.injEq] at known
        exact ⟨by rw [← type', ← known, type], by rw [← job', ← known, own]⟩
      cases write with
      | recorded => exact still fun _ => unfinished
      | pended | scaled | begun => exact still fun _ => by simp [SubJobStatus.Unfinished]
      | unneeded here isScaling => simp [(snapshot here rfl (of_decide_eq_true tested)).1] at isScaling
      | reached here isScaling => simp [(snapshot here rfl (of_decide_eq_true tested)).1] at isScaling
      | @completed position subJob data workersCount done here =>
        have after : At target position .subJobTick (.completed subJob) :=
          (here.after sound.tracks step).resolve_right fun final => final
        exact .inr (.inr ⟨position, subJob, (snapshot here rfl (of_decide_eq_true tested)).2, .inl after⟩)
      | failed here failable =>
        have same := (subJob_id found).symm.trans (of_decide_eq_true tested)
        obtain closed | ⟨other, different, row', found', own', type', unfinished'⟩ | creating :=
          among _ _ _ _ row rfl (same ▸ found) type
        · exact absurd (closed job (own ▸ known)) stillOpen
        · refine .inr (.inl ⟨other, row', ?_, own'.trans own, type', unfinished'⟩)
          rw [rows, found', Option.map_some, if_neg]
          simpa [subJob_id found'] using different
        · obtain ⟨position, payload, subJobs, there⟩ := creating
          refine .inl ⟨position, payload, subJobs, own ▸ there.kept step ?_⟩
          rintro made same
          cases same
          cases (here.unique there).1
      | canceled here =>
        obtain rfl := (of_decide_eq_true tested).symm.trans own
        exact absurd (openJobs.halfway _ _ here job known) stillOpen
    · exact still fun tested' => absurd tested' tested

/-- A tick that has completed a sub-job goes on until it has completed the job, unless the job waits for another
sub-job. -/
theorem tail_step (tracks : jobMonitor.TracksAll source) (step : Step (platform registry) source event target)
    {position : ℕ} {subJob : SubJobWithJob}
    (here : At source position .subJobTick (.completed subJob) ∨ At source position .subJobTick (.emptied subJob))
    (succeeds : ∀ made, event = .call position made → NoFailure event) :
    (∀ row, target.world.jobs.find? subJob.jobId = some row → row.status = .completed) ∨
      (∃ id, Awaiting target.world subJob.jobId id) ∨
      At target position .subJobTick (.completed subJob) ∨ At target position .subJobTick (.emptied subJob) := by
  by_cases calls : ∃ made, event = .call position made
  · obtain ⟨⟨op, reply⟩, rfl⟩ := calls
    have noFailure := succeeds _ rfl
    obtain ⟨kind, phase, there, legal, allowed, reached⟩ := legal_of_call tracks step
    rcases here with here | here
    · obtain ⟨rfl, rfl⟩ := here.unique there
      cases legal with
      | quiet quiet going => exact going.elim
      | fail failable => obtain failable | ⟨_, failable⟩ | failable := failable <;> cases failable
      | count measuring =>
        obtain ⟨count, rfl⟩ := noFailure.ok allowed fun missing => missing
        by_cases none : count = 0
        · subst none
          exact .inr (.inr (.inr ((here.after tracks step).resolve_right fun final => final)))
        · obtain rfl : count = _ := allowed
          obtain ⟨row, counted⟩ := List.exists_mem_of_length_pos (Nat.pos_of_ne_zero none)
          obtain ⟨ofJob, pending⟩ := List.mem_filter.mp counted
          obtain ⟨member, own⟩ := List.mem_filter.mp ofJob
          obtain ⟨type, unfinished⟩ := of_decide_eq_true pending
          refine .inr (.inl ⟨row.id, row, ?_, of_decide_eq_true own, type, unfinished⟩)
          rw [reached]
          exact Table.find?_of_mem member
    · obtain ⟨rfl, rfl⟩ := here.unique there
      cases legal with
      | quiet quiet going => exact going.elim
      | fail failable => obtain failable | ⟨_, failable⟩ | failable := failable <;> cases failable
      | close measuring =>
        obtain ⟨done, rfl⟩ := noFailure.ok allowed fun missing => missing
        refine .inl fun row found => ?_
        rw [reached] at found
        exact status_of_updateJobStatus found
  · have silent (made : Act) : event ≠ .call position made := fun same => calls ⟨made, same⟩
    exact .inr (.inr (here.imp (·.kept step silent) (·.kept step silent)))

/-- A tick that has completed a sub-job closes the job, unless it waits for another one. -/
theorem closing_step (sound : Sound source) (noFailure : NoFailure event)
    (step : Step (platform registry) source event target) {jobId : Uuid} (closing : Closing source jobId) :
    (∀ row, target.world.jobs.find? jobId = some row → row.status.Closed) ∨
      (∃ id, Awaiting target.world jobId id) ∨ Closing target jobId := by
  obtain ⟨position, subJob, rfl, here⟩ := closing
  refine (tail_step sound.tracks step here fun _ _ => noFailure).imp (fun completed row found => ?_)
    (Or.imp_right fun here => ⟨position, subJob, rfl, here⟩)
  simp [completed row found, JobStatus.Closed]

theorem OpenJobs.step (sound : Sound source) (ids : JobIds source) (openJobs : OpenJobs source)
    (meets : NoFailure event ∧ FailsAmongOthers source event) (step : Step (platform registry) source event target) :
    OpenJobs target where
  halfway _ _ here := openJobs.halfway_step sound ids step here
  awaited jobId later found' stillOpen := by
    obtain ⟨row, found, changed⟩ | ⟨-, ⟨here⟩⟩ := job_before sound.tracks step found'
    · have wasOpen : ¬ row.status.Closed := fun closed => by
        obtain rfl | change := changed
        · exact stillOpen closed
        · exact stillOpen (closed_of_change change closed)
      obtain creation | ⟨id, awaiting⟩ | closing := openJobs.awaited jobId row found wasOpen
      · exact (inCreation_step sound meets.1 step creation).imp_right .inl
      · exact awaiting_step sound openJobs meets.2 step found wasOpen awaiting
      · exact .inr ((closing_step sound meets.1 step closing).resolve_left fun closed =>
          stillOpen (closed later found'))
    · obtain rfl := job_id found'
      exact .inl ⟨_, _, 0, (here.after sound.tracks step).resolve_right nofun⟩

/-- What an open job waits for is a task that is running or a sub-job that is unfinished. -/
theorem OpenJobs.closed {pool : System} (sound : Sound pool) (openJobs : OpenJobs pool) (still : Quiescent pool)
    {jobId : Uuid} {row : JobRow} (found : pool.world.jobs.find? jobId = some row)
    (ended : ∀ subJob ∈ pool.world.subJobsOf jobId, subJob.status.Ended) : row.status.Closed := by
  have busy {position : ℕ} {kind : Kind} {phase : JobPhase} (here : At pool position kind phase)
      (watched : (kind.isCreation || kind.isCancellation || kind.isTick) = true)
      (calls : ∀ op, JobLegal kind phase op → op ≠ .panic) : False := by
    obtain ⟨task, present, ⟨op, next, awaits⟩, rfl, rfl⟩ := here
    exact still task (List.mem_of_getElem? present) watched
      ⟨op, next, awaits, calls op ((sound.tracks position task present).legal awaits)⟩
  by_contra stillOpen
  obtain ⟨position, payload, subJobs, here⟩ | ⟨id, subJob, known, own, -, unfinished⟩ | ⟨position, subJob, -, here⟩ :=
    openJobs.awaited jobId row found stillOpen
  · apply busy here rfl
    intro op legal
    cases legal with
    | quiet quiet going => exact going.elim
    | drawSubJob | insertSubJob => nofun
  · have member : subJob ∈ pool.world.subJobsOf jobId :=
      List.mem_filter.mpr ⟨Table.mem_of_find? known, decide_eq_true own⟩
    exact SubJobStatus.not_unfinished_iff.mpr (ended subJob member) unfinished
  · obtain here | here := here <;> refine busy here rfl fun op legal => ?_
    · cases legal with
      | quiet quiet going => exact going.elim
      | count | fail => nofun
    · cases legal with
      | quiet quiet going => exact going.elim
      | close | fail => nofun

theorem closedWhenDone_of_failsAmongOthers (registry : ServiceScalerRegistry) :
    ClosedWhenDone registry FailsAmongOthers := by
  intro source target events jobId row initial run still found _ ended
  have start : JobIds source ∧ OpenJobs source := by
    refine ⟨JobIds.of_initial initial, fun _ _ here => absurd here (not_at_of_initial initial), fun jobId row found => ?_⟩
    have member := Table.mem_of_find? found
    simp [initial.jobs] at member
  obtain ⟨sound, -, openJobs⟩ := sound_invariant (I := fun pool => JobIds pool ∧ OpenJobs pool) run
    (fun sound ⟨ids, openJobs⟩ meets step => ⟨ids.step sound.tracks step, openJobs.step sound ids meets step⟩)
    (Sound.of_initial initial) start
  exact openJobs.closed sound still found ended

/-- Every sub-job that fails leaves a measuring one of its job unfinished. -/
def failsAmongOthers (pool : System) : SystemEvent → Bool
  | .call _ ⟨.sql (.updateSubJobStatusWithError id .failed _), _⟩ => (pool.world.subJobs.find? id).all fun row =>
    pool.world.subJobs.rows.any fun other =>
      decide (other.id ≠ id ∧ other.jobId = row.jobId ∧ other.type = .combinedDHP ∧ other.status.Unfinished)
  | _ => true

theorem failsAmongOthers_of_check {pool : System} {event : SystemEvent} (check : failsAmongOthers pool event = true) :
    FailsAmongOthers pool event := by
  rintro position id message done row rfl found -
  simp only [failsAmongOthers, found, Option.all_some] at check
  obtain ⟨other, member, others⟩ := List.any_eq_true.mp check
  obtain ⟨different, own, type, unfinished⟩ := of_decide_eq_true others
  exact .inr (.inl ⟨other.id, different, other, Table.find?_of_mem member, own, type, unfinished⟩)

theorem quiescent_of_idle {pool : System}
    (still : idle (fun kind => kind.isCreation || kind.isCancellation || kind.isTick) pool = true) : Quiescent pool :=
  fun _ member watched ⟨op, next, awaits, _⟩ => not_inFlight_of_idle still member watched ⟨op, next, awaits⟩

/-- The tick at a position dispatches a sub-job and the next one finds that its deadline has passed. -/
def dispatchedAndFailed (position : ℕ) (time : ℤ) : List Move :=
  sampleTick position 7 ++ .clock (Duration.seconds time) :: sampleTick (position + 1) 3

/-- Sub-job 3 fails while 4 and 5 wait, and the job is cancelled. -/
theorem closedWhenDone_cancelled : ∃ events target row,
    Run (platform ⟨false⟩) (fun pool event => NoFailure event ∧ FailsAmongOthers pool event) (sampleSystem .online)
      events target ∧ Quiescent target ∧ target.world.jobs.find? 1 = some row ∧ row.status.Closed := by
  have replayed : ((replay ⟨false⟩ (fun pool event => succeeds pool event && failsAmongOthers pool event)
      (sampleSystem .online)
      (sampleCreation ++ sampleTick 1 7 ++ dispatchedAndFailed 2 1000 ++ .start (.cancelJob 1) :: goTimes 4 3)).any
        fun target => idle (fun kind => kind.isCreation || kind.isCancellation || kind.isTick) target &&
          (target.world.jobs.find? 1).isSome && !(target.world.subJobsOf 1).isEmpty &&
          (target.world.subJobsOf 1).all fun subJob => subJob.status.Ended) = true := by
    decide +kernel
  obtain ⟨events, target, run, found⟩ := exists_run_of_replay replayed
  simp only [Bool.and_eq_true, Option.isSome_iff_exists, Bool.not_eq_true', List.isEmpty_eq_false_iff] at found
  obtain ⟨⟨⟨still, row, present⟩, some⟩, ended⟩ := found
  have meets := run.mono fun _ _ check =>
    have both := (Bool.and_eq_true ..).mp check
    And.intro (noFailure_of_succeeds both.1) (failsAmongOthers_of_check both.2)
  have quiescent := quiescent_of_idle still
  exact ⟨events, target, row, meets, quiescent, present, closedWhenDone_of_failsAmongOthers ⟨false⟩
    (initial_sampleSystem .online) meets quiescent present some fun subJob member =>
      of_decide_eq_true (List.all_eq_true.mp ended subJob member)⟩

theorem not_closedWhenDone : ¬ ClosedWhenDone ⟨false⟩ fun pool event => spawnsOnly Kind.ofJobs pool event = true := by
  intro closes
  have replayed : ((replay ⟨false⟩ (fun pool event => succeeds pool event && spawnsOnly Kind.ofJobs pool event)
      (sampleSystem .online) (sampleCreation ++ sampleTick 1 7 ++ dispatchedAndFailed 2 1000 ++
        dispatchedAndFailed 4 2000 ++ dispatchedAndFailed 6 3000)).any
        fun target => idle (fun kind => kind.isCreation || kind.isCancellation || kind.isTick) target &&
          decide (target.world.jobStatus? 1 = some .pending) && !(target.world.subJobsOf 1).isEmpty &&
          (target.world.subJobsOf 1).all fun subJob => subJob.status.Ended) = true := by
    decide +kernel
  obtain ⟨events, target, run, found⟩ := exists_run_of_replay replayed
  simp only [Bool.and_eq_true, decide_eq_true_eq, Bool.not_eq_true', List.isEmpty_eq_false_iff] at found
  obtain ⟨⟨⟨still, pending⟩, some⟩, ended⟩ := found
  obtain ⟨row, present, status⟩ := Option.map_eq_some_iff.mp pending
  have closed := closes (initial_sampleSystem .online) (run.mono fun _ _ check =>
    have both := (Bool.and_eq_true ..).mp check
    And.intro (noFailure_of_succeeds both.1) both.2) (quiescent_of_idle still) present some fun subJob member =>
      of_decide_eq_true (List.all_eq_true.mp ended subJob member)
  simp [status, JobStatus.Closed] at closed

end Bms
