import Bms.Properties.JobClosed
import Bms.Protocol.Creations

/-! # Completed jobs

A job is closed on a count of its measuring sub-jobs in three statuses. A sub-job that has failed, that
was cancelled or that is still to be inserted is not counted, so it looks like a completed one; and
a late start or cancellation changes sub-jobs of a job that has been closed.
-/

namespace Bms

open Process

/-- The three measuring sub-jobs of a job exist and are completed. -/
def Whole (w : World) (jobId : Uuid) : Prop :=
  measuringCount w jobId = 3 ∧
    ∀ row ∈ w.subJobs.rows, row.jobId = jobId → row.type = .combinedDHP → row.status = .completed

/-- Completed jobs are whole, in runs whose steps all meet `ok`. -/
def CompletedWhole (registry : ServiceScalerRegistry) (ok : System → SystemEvent → Prop) : Prop :=
  ∀ ⦃source target : System⦄ ⦃events : List SystemEvent⦄ ⦃jobId : Uuid⦄ ⦃row : JobRow⦄, Initial source →
    Run (platform registry) ok source events target → target.world.jobs.find? jobId = some row →
    row.status = .completed → Whole target.world jobId

/-- A job that is completed, or that the tick in flight is about to complete. -/
def Concluded (pool : System) (jobId : Uuid) : Prop :=
  (∃ row, pool.world.jobs.find? jobId = some row ∧ row.status = .completed) ∨
    ∃ position subJob, At pool position .subJobTick (.emptied subJob) ∧ subJob.jobId = jobId

/-- A count that finds nothing unfinished is of a job whose sub-jobs are inserted and neither failed nor
cancelled, and nobody touches the sub-jobs of a concluded job. -/
structure CountsAll (pool : System) (event : SystemEvent) : Prop where
  counts : ∀ position jobId, event = .call position ⟨.sql (.countPendingSubJobs .combinedDHP jobId), .ok 0⟩ →
    measuringCount pool.world jobId = 3 ∧ ∀ row ∈ pool.world.subJobs.rows, row.jobId = jobId →
      row.type = .combinedDHP → row.status ≠ .failed ∧ row.status ≠ .canceled
  starts : ∀ position id done row, event = .call position ⟨.sql (.updateSubJobStatus id .processing), .ok done⟩ →
    pool.world.subJobs.find? id = some row → ¬ Concluded pool row.jobId
  cancels : ∀ position jobId done,
    event = .call position ⟨.sql (.updateSubJobsStatusByJobId jobId .canceled), .ok done⟩ → ¬ Concluded pool jobId

structure Conclusions (pool : System) : Prop where
  whole : ∀ jobId, Concluded pool jobId → Whole pool.world jobId
  /-- no tick in flight measures for a completed job -/
  ticks : ∀ subJob, Holds pool subJob → subJob.type = .combinedDHP → ∀ row,
    pool.world.jobs.find? subJob.jobId = some row → row.status ≠ .completed

variable {registry : ServiceScalerRegistry} {source target : System} {event : SystemEvent}

theorem JobPhase.emptied_note {phase : JobPhase} {made : Act} {subJob : SubJobWithJob}
    (emptied : phase.note made = .emptied subJob) : phase = .emptied subJob ∨
      ∃ type jobId, phase = .completed subJob ∧ made = ⟨.sql (.countPendingSubJobs type jobId), .ok 0⟩ := by
  have noted := phase.notes made
  rw [emptied] at noted
  cases noted with
  | stays => exact .inl rfl
  | empties _ type jobId => exact .inr ⟨type, jobId, rfl, rfl⟩

/-- A tick is about to complete a job: it was so before, or it has just counted no unfinished sub-job. -/
theorem At.emptied_before (tracks : jobMonitor.TracksAll source) (step : Step (platform registry) source event target)
    {position : ℕ} {subJob : SubJobWithJob} (here : At target position .subJobTick (.emptied subJob)) :
    At source position .subJobTick (.emptied subJob) ∨
      (event = .call position ⟨.sql (.countPendingSubJobs .combinedDHP subJob.jobId), .ok 0⟩ ∧
        Act.Allowed source.world ⟨.sql (.countPendingSubJobs .combinedDHP subJob.jobId), .ok 0⟩ ∧
        target.world = source.world) := by
  obtain ⟨old, -⟩ | ⟨-, starts⟩ | ⟨before, op, reply, old, legal, rfl, noted, allowed, reached⟩ :=
    here.before tracks step
  · exact .inl old
  · cases starts
  · obtain rfl | ⟨type, jobId, rfl, made⟩ := JobPhase.emptied_note noted.symm
    · exact .inl old
    · cases made
      cases legal with
      | quiet quiet => exact quiet.elim
      | count measuring => exact .inr ⟨rfl, allowed, reached⟩

/-- A job that is concluded by a step was so before, or all its measuring sub-jobs are counted as ended. -/
theorem concluded_before (tracks : jobMonitor.TracksAll source) (step : Step (platform registry) source event target)
    {jobId : Uuid} (concluded : Concluded target jobId) : Concluded source jobId ∨
      ((∃ position, event = .call position ⟨.sql (.countPendingSubJobs .combinedDHP jobId), .ok 0⟩) ∧
        Act.Allowed source.world ⟨.sql (.countPendingSubJobs .combinedDHP jobId), .ok 0⟩ ∧
        target.world = source.world) := by
  obtain ⟨row, found, completed⟩ | ⟨position, subJob, here, rfl⟩ := concluded
  · left
    obtain ⟨old, earlier, rfl | change⟩ | ⟨-, ⟨-⟩⟩ := job_before tracks step found
    · exact .inl ⟨row, earlier, completed⟩
    · cases change with
      | canceled => cases completed
      | completed here own => exact .inr ⟨_, _, here, own.trans (job_id earlier)⟩
      | expected => exact .inl ⟨old, earlier, completed⟩
    · cases completed
  · obtain old | ⟨rfl, allowed, reached⟩ := here.emptied_before tracks step
    · exact .inl (.inr ⟨position, subJob, old, rfl⟩)
    · exact .inr ⟨⟨position, rfl⟩, allowed, reached⟩

/-- Nothing is inserted into a whole job. -/
theorem Whole.not_inserted (tracks : jobMonitor.TracksAll source) (creations : Creations source)
    (step : Step (platform registry) source event target) {jobId : Uuid} (whole : Whole source.world jobId)
    (type : SubJobType) : insertedIn event ≠ some (jobId, type) := by
  intro inserts
  obtain ⟨⟨position, kind, before, made, here, few, -⟩, -⟩ := inserting tracks step inserts
  have counted := creations.counted _ _ _ _ here
  rw [whole.1] at counted
  omega

/-- The sub-jobs of a concluded job stay as they are. -/
theorem Conclusions.kept (sound : Sound source) (creations : Creations source) (conclusions : Conclusions source)
    (meets : CountsAll source event) (step : Step (platform registry) source event target) {jobId : Uuid}
    (concluded : Concluded source jobId) : Whole target.world jobId := by
  have whole := conclusions.whole jobId concluded
  have none := whole.not_inserted sound.tracks creations step
  refine ⟨by rw [measuringCount_step step, if_neg (none _), whole.1], fun row member own measuring => ?_⟩
  obtain ⟨old, there, -, job, type, -, changed⟩ | insert := row_before sound.tracks step member
  · have before := whole.2 old there (job.trans own) (type.trans measuring)
    have found := mem_iff_find?.mp there
    obtain rfl | ⟨test, change, write, tested, rfl⟩ := changed
    · exact before
    · obtain ⟨position, phase, subJob, here, held, going, same⟩ | ⟨_, _, _, _, -, rfl, same⟩ | ⟨⟨_, rfl⟩, -⟩ :=
        write.writer tested
      · obtain ⟨-, known, found', job', type'⟩ := sound.known _ _ _ subJob here held
        obtain rfl : old = known := Option.some.inj ((same ▸ found).symm.trans found')
        obtain ⟨jobRow, found, completed⟩ | ⟨other, emptied, there, -⟩ := concluded
        · refine absurd completed (conclusions.ticks subJob (here.holds held) ?_ jobRow ?_)
          · exact type'.symm.trans (type.trans measuring)
          · rwa [← job', job, own]
        · exact absurd (sound.tick_unique here there).2 (going emptied)
      · apply absurd concluded
        rw [← own, ← job]
        exact meets.starts _ _ _ old rfl (same ▸ found)
      · apply absurd concluded
        rw [← own, ← job]
        exact meets.cancels _ _ _ rfl
  · obtain ⟨_, _, _, _, _, _, _, inserts, -⟩ := insert.inserted
    rw [own] at inserts
    exact absurd inserts (none _)

/-- A count of nothing unfinished, where nothing has failed or was cancelled, is of completed sub-jobs. -/
theorem whole_of_counted (meets : CountsAll source event) {position : ℕ} {jobId : Uuid}
    (counts : event = .call position ⟨.sql (.countPendingSubJobs .combinedDHP jobId), .ok 0⟩)
    (allowed : Act.Allowed source.world ⟨.sql (.countPendingSubJobs .combinedDHP jobId), .ok 0⟩) :
    Whole source.world jobId := by
  obtain ⟨three, others⟩ := meets.counts position jobId counts
  refine ⟨three, fun row member own measuring => ?_⟩
  have none := List.eq_nil_of_length_eq_zero (Eq.symm allowed)
  have ended : ¬ row.status.Unfinished := fun unfinished => by
    have counted : row ∈ (source.world.subJobsOf jobId).filter fun row =>
        decide (row.type = .combinedDHP ∧ row.status.Unfinished) := by
      simp [World.subJobsOf, member, own, measuring, unfinished]
    rw [none] at counted
    cases counted
  obtain ⟨notFailed, notCanceled⟩ := others row member own measuring
  simpa [SubJobStatus.Ended, notFailed, notCanceled] using SubJobStatus.not_unfinished_iff.mp ended

theorem Conclusions.step (sound : Sound source) (creations : Creations source) (conclusions : Conclusions source)
    (meets : CountsAll source event) (step : Step (platform registry) source event target) : Conclusions target where
  whole jobId concluded := by
    obtain before | ⟨⟨position, counts⟩, allowed, reached⟩ := concluded_before sound.tracks step concluded
    · exact conclusions.kept sound creations meets step before
    · rw [reached]
      exact whole_of_counted meets counts allowed
  ticks subJob holds measuring row found completed := by
    obtain ⟨position, phase, here, held⟩ := (sound.step step).at_of_holds holds
    obtain ⟨before, there, held, goes⟩ | ⟨-, -, -, -, reached, picked, found', first, same⟩ :=
      here.held sound.tracks step held
    · have still := conclusions.ticks subJob (there.holds held) measuring
      obtain ⟨old, earlier, rfl | change⟩ | ⟨-, ⟨-⟩⟩ := job_before sound.tracks step found
      · exact still row earlier completed
      · cases change with
        | canceled => cases completed
        | completed here' own =>
          obtain ⟨rfl, rfl⟩ := sound.tick_unique there here'
          cases goes _ _ rfl
        | expected => exact still old earlier completed
      · cases completed
    · rw [reached] at found
      have whole := conclusions.whole _ (.inl ⟨row, found, completed⟩)
      have ended := whole.2 picked first.1 (congrArg SubJob.jobId same).symm
        ((congrArg SubJob.type same).symm.trans measuring)
      have unfinished := first.2.1
      rw [ended] at unfinished
      exact absurd unfinished (by decide)

theorem completedWhole_of_countsAll (registry : ServiceScalerRegistry) : CompletedWhole registry CountsAll := by
  intro source target events jobId row initial run found completed
  have start : Creations source ∧ Conclusions source := by
    refine ⟨.of_initial initial, fun jobId concluded => ?_, fun subJob holds => ?_⟩
    · obtain ⟨row, found, -⟩ | ⟨_, _, here, -⟩ := concluded
      · have member := Table.mem_of_find? found
        simp [initial.jobs] at member
      · exact absurd here (not_at_of_initial initial)
    · obtain ⟨task, member, -⟩ := holds
      simp [initial.tasks] at member
  obtain ⟨-, -, conclusions⟩ := sound_invariant (I := fun pool => Creations pool ∧ Conclusions pool) run
    (fun sound ⟨creations, conclusions⟩ meets step =>
      ⟨creations.step sound.tracks step, conclusions.step sound creations meets step⟩)
    (Sound.of_initial initial) start
  exact conclusions.whole jobId (.inl ⟨row, found, completed⟩)

/-- Counts that find nothing are of whole jobs, starts are processed while no tick runs, and nothing is cancelled. -/
def countsAll (pool : System) : SystemEvent → Bool
  | .call _ ⟨.sql (.countPendingSubJobs .combinedDHP jobId), .ok count⟩ => count ≠ 0 ||
    decide (measuringCount pool.world jobId = 3 ∧ ∀ row ∈ pool.world.subJobs.rows, row.jobId = jobId →
      row.type = .combinedDHP → row.status ≠ .failed ∧ row.status ≠ .canceled)
  | .call _ ⟨.sql (.updateSubJobStatus _ .processing), _⟩ =>
    idle Kind.isTick pool && pool.world.jobs.rows.all fun row => row.status ≠ .completed
  | .call _ ⟨.sql (.updateSubJobsStatusByJobId ..), _⟩ => false
  | _ => true

theorem countsAll_of_check {pool : System} {event : SystemEvent} (check : countsAll pool event = true) :
    CountsAll pool event where
  counts := by
    rintro position jobId rfl
    simpa [countsAll] using check
  starts := by
    rintro position id done row rfl - concluded
    obtain ⟨still, noneCompleted⟩ := (Bool.and_eq_true ..).mp check
    obtain ⟨row, found, completed⟩ | ⟨position, subJob, ⟨task, present, flying, kind, -⟩, -⟩ := concluded
    · simpa [completed] using List.all_eq_true.mp noneCompleted row (Table.mem_of_find? found)
    · exact not_inFlight_of_idle still (List.mem_of_getElem? present) (by rw [kind]; rfl) flying
  cancels := by
    rintro position jobId done rfl
    cases check

/-- From the tick at a position on, a sub-job of job 1 is dispatched, started, answered late and completed by
a tick that makes so many calls. -/
def measured (position : ℕ) (subJobId runId : Uuid) (now : DateTime) (count : ℕ) : List Move :=
  sampleTick position 7 ++ .start (.jobDelivery sampleWorker (sampleMessage subJobId now)) :: goTimes (position + 1) 4 ++
    .start (.statusDelivery (sampleStart subJobId runId now)) :: goTimes (position + 2) 2 ++
    .clock (now + Duration.seconds 6) :: .start (.jobDelivery sampleWorker (sampleMessage subJobId now)) ::
    goTimes (position + 3) 3 ++
    saved (.workerResult 1 (.aborted (runId + 1) 1 subJobId "w1" "Start time is in the past")) (position + 4) ++
    sampleTick (position + 5) count

/-- All three sub-jobs are completed, and then the job. -/
theorem completedWhole_measured : ∃ events target row,
    Run (platform ⟨false⟩) CountsAll (sampleSystem .online) events target ∧
      target.world.jobs.find? 1 = some row ∧ row.status = .completed ∧ Whole target.world 1 := by
  have replayed : ((replay ⟨false⟩ countsAll (sampleSystem .online) (sampleCreation ++ sampleTick 1 7 ++
      measured 2 3 6 (Duration.seconds 4) 5 ++ measured 8 4 8 (Duration.seconds 10) 5 ++
      measured 14 5 10 (Duration.seconds 16) 6)).any
        fun target => target.world.jobStatus? 1 = some .completed) = true := by
    decide +kernel
  obtain ⟨events, target, run, found⟩ := exists_run_of_replay replayed
  obtain ⟨row, present, completed⟩ := Option.map_eq_some_iff.mp (of_decide_eq_true found)
  have meets := run.mono fun _ _ => countsAll_of_check
  exact ⟨events, target, row, meets, present, completed,
    completedWhole_of_countsAll ⟨false⟩ (initial_sampleSystem .online) meets present completed⟩

/-- The sub-jobs 3 and 4 fail, sub-job 5 is completed, and the job with it. -/
theorem not_completedWhole :
    ¬ CompletedWhole ⟨false⟩ fun pool event => NoFailure event ∧ spawnsOnly Kind.ofJobs pool event = true := by
  intro whole
  have replayed : ((replay ⟨false⟩ (fun pool event => succeeds pool event && spawnsOnly Kind.ofJobs pool event)
      (sampleSystem .online) (sampleCreation ++ sampleTick 1 7 ++ dispatchedAndFailed 2 1000 ++
        dispatchedAndFailed 4 2000 ++ measured 6 5 6 (Duration.seconds 2000) 6)).any
        fun target => decide (target.world.jobStatus? 1 = some .completed) &&
          (target.world.subJobs.find? 3).any fun row =>
            decide (row.jobId = 1 ∧ row.type = .combinedDHP ∧ row.status = .failed)) = true := by
    decide +kernel
  obtain ⟨events, target, run, found⟩ := exists_run_of_replay replayed
  obtain ⟨completed, failed⟩ := (Bool.and_eq_true ..).mp found
  obtain ⟨row, present, completed⟩ := Option.map_eq_some_iff.mp (of_decide_eq_true completed)
  obtain ⟨third, found, failed⟩ := (Option.any_eq_true ..).mp failed
  obtain ⟨own, type, failed⟩ := of_decide_eq_true failed
  obtain ⟨-, ended⟩ := whole (initial_sampleSystem .online) (run.mono fun _ _ check =>
    have both := (Bool.and_eq_true ..).mp check
    And.intro (noFailure_of_succeeds both.1) both.2) present completed
  have completed := ended third (Table.mem_of_find? found) own type
  rw [failed] at completed
  cases completed

end Bms
