import Bms.Properties.NoOverlap
import Bms.Protocol.Creations

/-! # Measuring after scaling

Only the pick links the stages of a job: the handler takes the oldest unfinished sub-job, and a failed
scaling sub-job is finished like a completed one. So a measurement follows a failed scaling as soon
as the job has a measuring sub-job left.
-/

namespace Bms

open Process

/-- The job has a scaling sub-job, and its scaling has been completed or was not needed. -/
def ScalingPassed (w : World) (jobId : Uuid) : Prop :=
  (∃ row ∈ w.subJobs.rows, row.jobId = jobId ∧ row.type = .scaling) ∧
    ∀ row ∈ w.subJobs.rows, row.jobId = jobId → row.type = .scaling → row.status = .completed ∨ row.status = .canceled

/-- A job message is published only for a measuring sub-job of a job that has passed its scaling, in
runs whose steps all meet `ok`. -/
def ScaledFirst (registry : ServiceScalerRegistry) (ok : System → SystemEvent → Prop) : Prop :=
  ∀ ⦃source pool target : System⦄ ⦃events : List SystemEvent⦄ ⦃position : ℕ⦄ ⦃jobId : Uuid⦄ ⦃message : JobMessage⦄
    ⦃routingKey : String⦄ ⦃reply : Except String Unit⦄, Initial source → Run (platform registry) ok source events pool →
    Step (platform registry) pool (.call position ⟨.publishJob (.workerJob jobId message) routingKey, reply⟩) target →
    ∃ subJob, pool.world.subJobs.find? message.subJobId = some subJob ∧ subJob.type = .combinedDHP ∧
      ScalingPassed pool.world subJob.jobId

/-- No measuring sub-job of the job waits to be dispatched, and none is still to be created. -/
def NoneLeft (pool : System) (jobId : Uuid) : Prop :=
  (∀ row ∈ pool.world.subJobs.rows, row.jobId = jobId → row.type = .combinedDHP → row.status ≠ .created) ∧
    ∀ position kind subJobs, ¬ At pool position kind (.creating jobId subJobs)

/-- Scaling fails only when nothing is left to measure, and the clock separates scaling from measuring. -/
structure FailsLast (pool : System) (event : SystemEvent) : Prop where
  fails : ∀ position id message done row,
    event = .call position ⟨.sql (.updateSubJobStatusWithError id .failed message), .ok done⟩ →
    pool.world.subJobs.find? id = some row → row.type = .scaling → NoneLeft pool row.jobId
  inserts : ∀ position subJobId jobId status details done,
    event = .call position ⟨.sql (.createSubJob subJobId jobId status .combinedDHP details), .ok done⟩ →
    ∀ row ∈ pool.world.subJobs.rows, row.jobId = jobId → row.type = .scaling → row.createdAt < pool.world.now

structure Gated (pool : System) : Prop where
  older : ∀ row ∈ pool.world.subJobs.rows, row.type = .scaling → ∀ other ∈ pool.world.subJobs.rows,
    other.type = .combinedDHP → other.jobId = row.jobId → row.createdAt < other.createdAt
  failed : ∀ row ∈ pool.world.subJobs.rows, row.type = .scaling → row.status = .failed → NoneLeft pool row.jobId
  /-- while a measuring sub-job is being dispatched, its job has passed its scaling -/
  held : ∀ subJob, Holds pool subJob → subJob.type = .combinedDHP → subJob.status = .created →
    ∀ row ∈ pool.world.subJobs.rows, row.jobId = subJob.jobId → row.type = .scaling →
    row.status = .completed ∨ row.status = .canceled

variable {registry : ServiceScalerRegistry} {source target : System} {event : SystemEvent}

/-- What is left of a job only gets less. -/
theorem NoneLeft.step (sound : Sound source) (step : Step (platform registry) source event target) {jobId : Uuid}
    (known : (source.world.jobs.find? jobId).isSome) (none : NoneLeft source jobId) : NoneLeft target jobId := by
  constructor
  · intro row member own type created
    obtain ⟨old, there, id, job, type', -⟩ | insert := row_before sound.tracks step member
    · have before := none.1 old there (job.trans own) (type'.trans type)
      obtain ⟨later, found, other⟩ := notCreated_step sound step ⟨old, mem_iff_find?.mp there, before⟩
      obtain rfl : later = row := Option.some.inj (found.symm.trans (id ▸ mem_iff_find?.mp member))
      exact other created
    · obtain ⟨position, kind, before, here, -⟩ := insert.inserted
      exact none.2 _ _ _ (own ▸ here)
  · intro position kind subJobs here
    obtain ⟨before, old⟩ | ⟨-, fresh, -⟩ := here.creating_before sound.tracks step
    · exact none.2 _ _ _ old
    · simp [fresh] at known

theorem Gated.older_step (tracks : jobMonitor.TracksAll source) (creations : Creations source) (gated : Gated source)
    (meets : FailsLast source event) (step : Step (platform registry) source event target) {row other : SubJobRow}
    (member : row ∈ target.world.subJobs.rows) (scaling : row.type = .scaling)
    (member' : other ∈ target.world.subJobs.rows) (measuring : other.type = .combinedDHP)
    (own : other.jobId = row.jobId) : row.createdAt < other.createdAt := by
  obtain ⟨old, there, -, job, type, time, -⟩ | insert := row_before tracks step member <;>
    obtain ⟨old', there', -, job', type', time', -⟩ | insert' := row_before tracks step member'
  · rw [← time, ← time']
    exact gated.older old there (type.trans scaling) old' there' (type'.trans measuring)
      (job'.trans (own.trans job.symm))
  · obtain ⟨position, payload, jobId, before, details, done, -, -, -, same, new⟩ := insert'.creates
    have type' : other.type = if before = 0 then .scaling else .combinedDHP := by rw [new]; rfl
    rw [← type', measuring] at same
    have earlier := meets.inserts _ _ _ _ _ _ same old there (by rw [job, ← own, new]; rfl) (type.trans scaling)
    rwa [← time, new]
  · obtain ⟨position, kind, before, here, -, -, type, -⟩ := insert.inserted
    cases before with
    | zero => exact absurd (job'.trans own) (creations.empty _ _ _ here old' there')
    | succ before => simp [scaling] at type
  · obtain ⟨_, _, _, _, _, _, _, inserts, -⟩ := insert.inserted
    obtain ⟨_, _, _, _, _, _, _, inserts', -⟩ := insert'.inserted
    rw [inserts] at inserts'
    simp [scaling, measuring] at inserts'

theorem Gated.failed_step (sound : Sound source) (creations : Creations source) (gated : Gated source)
    (meets : FailsLast source event) (step : Step (platform registry) source event target) {row : SubJobRow}
    (member : row ∈ target.world.subJobs.rows) (scaling : row.type = .scaling) (failed : row.status = .failed) :
    NoneLeft target row.jobId := by
  obtain ⟨old, there, -, job, type, -, changed⟩ | insert := row_before sound.tracks step member
  · rw [← job]
    apply NoneLeft.step sound step (creations.parent old there)
    obtain rfl | ⟨test, change, write, tested, rfl⟩ := changed
    · exact gated.failed row there scaling failed
    · cases write with
      | recorded => exact gated.failed old there scaling failed
      | failed here failable =>
        refine meets.fails _ _ _ _ old rfl ?_ scaling
        rw [← of_decide_eq_true tested]
        exact mem_iff_find?.mp there
      | pended | scaled | unneeded | reached | completed | begun | canceled => cases failed
  · obtain ⟨_, _, _, _, _, _, _, _, created, -⟩ := insert.inserted
    rw [failed] at created
    cases created

/-- The scaling sub-job of a job that is being measured is written by cancellations only. -/
theorem Gated.held_step (sound : Sound source) (traffic : Traffic source) (named : MeasuringTraffic source)
    (creations : Creations source) (gated : Gated source) (step : Step (platform registry) source event target)
    {subJob : SubJobWithJob} (holds : Holds target subJob) (measuring : subJob.type = .combinedDHP)
    (created : subJob.status = .created) {row : SubJobRow} (member : row ∈ target.world.subJobs.rows)
    (own : row.jobId = subJob.jobId) (scaling : row.type = .scaling) :
    row.status = .completed ∨ row.status = .canceled := by
  obtain ⟨position, phase, here, held⟩ := (sound.step step).at_of_holds holds
  obtain ⟨before, here, held, -⟩ | ⟨-, -, -, -, reached, picked, found, first, same⟩ := here.held sound.tracks step held
  · have holds := here.holds held
    obtain ⟨-, dispatched, found, job, type⟩ := sound.known _ _ _ subJob here held
    have apart {id : Uuid} (measures : source.world.Measures id) {old : SubJobRow}
        (there : old ∈ source.world.subJobs.rows) (type : old.type = .scaling) : old.id ≠ id := by
      rintro rfl
      obtain ⟨_, found, type'⟩ := measures
      cases (mem_iff_find?.mp there).symm.trans found
      rw [type'] at type
      cases type
    obtain ⟨old, there, -, job', type', -, changed⟩ | insert := row_before sound.tracks step member
    · obtain rfl | ⟨test, change, write, tested, rfl⟩ := changed
      · exact gated.held subJob holds measuring created row there own scaling
      · obtain ⟨_, _, other, there', held', -, same⟩ | ⟨_, _, _, _, here', -, same⟩ | ⟨-, canceled⟩ :=
          write.writer tested
        · obtain rfl := sound.holds_unique holds (there'.holds held')
          exact absurd same (apart ⟨dispatched, found, type.trans measuring⟩ there (type'.trans scaling))
        · exact absurd same (apart (named.starts traffic here') there (type'.trans scaling))
        · exact .inr canceled
    · obtain ⟨caller, kind, inserted, there, -, -, type, -⟩ := insert.inserted
      cases inserted with
      | zero => exact absurd (job.trans own.symm) (creations.empty _ _ _ there dispatched (Table.mem_of_find? found))
      | succ inserted => simp [scaling] at type
  · rw [reached] at member
    have job : picked.jobId = subJob.jobId := (congrArg SubJob.jobId same).symm
    have type : picked.type = .combinedDHP := (congrArg SubJob.type same).symm.trans measuring
    have status : picked.status = .created := (congrArg SubJob.status same).symm.trans created
    have older := gated.older row member scaling picked first.1 type (job.trans own.symm)
    have ended : row.status.Ended := by
      by_contra unfinished
      exact absurd older (not_lt.mpr (first.2.2 row member (SubJobStatus.not_ended_iff.mp unfinished)))
    have passed : row.status ≠ .failed := fun failed =>
      (gated.failed row member scaling failed).1 picked first.1 (job.trans own.symm) type status
    simpa [SubJobStatus.Ended, passed] using ended

theorem Gated.step (sound : Sound source) (traffic : Traffic source) (named : MeasuringTraffic source)
    (creations : Creations source) (gated : Gated source) (meets : FailsLast source event)
    (step : Step (platform registry) source event target) : Gated target where
  older _ member scaling _ member' measuring own :=
    gated.older_step sound.tracks creations meets step member scaling member' measuring own
  failed _ member scaling failed := gated.failed_step sound creations meets step member scaling failed
  held _ holds measuring created _ member own scaling :=
    gated.held_step sound traffic named creations step holds measuring created member own scaling

theorem scaledFirst_of_failsLast (registry : ServiceScalerRegistry) : ScaledFirst registry FailsLast := by
  intro source pool target events position jobId message routingKey reply initial run step
  have start : (Traffic source ∧ MeasuringTraffic source) ∧ Creations source ∧ Gated source := by
    refine ⟨⟨.of_initial initial, .of_initial initial⟩, .of_initial initial, ?_, ?_, fun subJob holds => ?_⟩
    · simp [initial.subJobs]
    · simp [initial.subJobs]
    · obtain ⟨task, member, -⟩ := holds
      simp [initial.tasks] at member
  obtain ⟨sound, -, creations, gated⟩ := sound_invariant
    (I := fun pool => (Traffic pool ∧ MeasuringTraffic pool) ∧ Creations pool ∧ Gated pool) run
    (fun sound ⟨⟨traffic, named⟩, creations, gated⟩ meets step => ⟨⟨traffic.step sound step, named.step sound traffic step⟩,
      creations.step sound.tracks step, gated.step sound traffic named creations meets step⟩)
    (Sound.of_initial initial) start
  obtain ⟨kind, phase, here, legal, -, -⟩ := legal_of_call sound.tracks step
  cases legal with
  | quiet quiet => exact quiet.elim
  | publish measuring created =>
    obtain ⟨-, row, found, job, type⟩ := sound.known _ _ _ _ here rfl
    have member := Table.mem_of_find? found
    refine ⟨row, found, type.trans measuring, creations.scaling row member (type.trans measuring), ?_⟩
    rw [job]
    exact gated.held _ (here.holds rfl) measuring created

/-- The next call of the task at a position publishes a job message. -/
def publishesNext (position : ℕ) (pool : System) : Bool :=
  match move ⟨false⟩ pool (.go position) with
  | some (.call _ ⟨.publishJob (.workerJob ..) _, _⟩, _) => true
  | _ => false

theorem exists_publication {position : ℕ} {pool : System} (publishes : publishesNext position pool = true) :
    ∃ target caller jobId message routingKey reply, Step (platform ⟨false⟩) pool
      (.call caller ⟨.publishJob (.workerJob jobId message) routingKey, reply⟩) target := by
  unfold publishesNext at publishes
  split at publishes
  · next moved => exact ⟨_, _, _, _, _, _, step_of_move moved⟩
  · cases publishes

/-- No sub-job fails, and the clock separates the sub-jobs. -/
def failsNone (pool : System) : SystemEvent → Bool
  | .call _ ⟨.sql (.updateSubJobStatusWithError ..), _⟩ => false
  | .call _ ⟨.sql (.createSubJob ..), _⟩ => pool.world.subJobs.rows.all fun row => row.createdAt < pool.world.now
  | _ => true

theorem failsLast_of_failsNone {pool : System} {event : SystemEvent} (check : failsNone pool event = true) :
    FailsLast pool event where
  fails := by
    rintro position id message done row rfl
    cases check
  inserts := by
    rintro position subJobId jobId status details done rfl row member - -
    exact of_decide_eq_true (List.all_eq_true.mp check row member)

/-- A worker is online, so no service is scaled, and sub-job 3 is published. -/
theorem scaledFirst_notNeeded : ∃ events pool target position jobId message routingKey reply subJob,
    Run (platform ⟨false⟩) FailsLast (sampleSystem .online) events pool ∧
      Step (platform ⟨false⟩) pool (.call position ⟨.publishJob (.workerJob jobId message) routingKey, reply⟩) target ∧
      pool.world.subJobs.find? message.subJobId = some subJob ∧ ScalingPassed pool.world subJob.jobId := by
  have replayed : ((replay ⟨false⟩ failsNone (sampleSystem .online)
      (sampleCreation ++ sampleTick 1 7 ++ sampleTick 2 5)).any (publishesNext 2)) = true := by
    decide +kernel
  obtain ⟨events, pool, run, found⟩ := exists_run_of_replay replayed
  have meets := run.mono fun _ _ => failsLast_of_failsNone
  obtain ⟨target, position, jobId, message, routingKey, reply, step⟩ := exists_publication found
  obtain ⟨subJob, known, -, passed⟩ := scaledFirst_of_failsLast ⟨false⟩ (initial_sampleSystem .online) meets step
  exact ⟨events, pool, target, position, jobId, message, routingKey, reply, subJob, meets, step, known, passed⟩

/-- The service is disabled before scaling, so scaling fails, and sub-job 3 is published. -/
theorem not_scaledFirst : ¬ ScaledFirst ⟨false⟩ fun pool event => NoFailure event ∧ Ordered pool event := by
  intro first
  have replayed : ((replay ⟨false⟩ (fun pool event => succeeds pool event && insertsNewest pool event)
      (sampleSystem .online) (sampleCreation ++ .start (.updateService 100 false) :: goTimes 1 1 ++
        sampleTick 2 3 ++ sampleTick 3 5)).any fun pool => publishesNext 3 pool &&
          decide (∀ row ∈ pool.world.subJobs.rows, row.jobId = 1 ∧ (row.id = 2 → row.type = .scaling)) &&
          decide (pool.world.subJobStatus? 2 = some .failed)) = true := by
    decide +kernel
  obtain ⟨events, pool, run, found⟩ := exists_run_of_replay replayed
  simp only [Bool.and_eq_true, decide_eq_true_eq] at found
  obtain ⟨⟨publishes, rows⟩, failed⟩ := found
  obtain ⟨row, present, status⟩ := Option.map_eq_some_iff.mp failed
  have member := Table.mem_of_find? present
  obtain ⟨target, position, jobId, message, routingKey, reply, step⟩ := exists_publication publishes
  obtain ⟨subJob, known, -, -, passed⟩ := first (initial_sampleSystem .online) (run.mono fun _ _ check =>
    have both := (Bool.and_eq_true ..).mp check
    And.intro (noFailure_of_succeeds both.1) (ordered_of_insertsNewest both.2)) step
  have same : row.jobId = subJob.jobId :=
    (rows row member).1.trans (rows subJob (Table.mem_of_find? known)).1.symm
  have ended := passed row member same ((rows row member).2 (subJob_id present))
  simp [status] at ended

end Bms
