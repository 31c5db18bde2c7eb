import Bms.Model.Replay
import Bms.Protocol.JobIds

/-! # Cancelled jobs

A cancellation updates the rows that exist, and nobody looks at the job's status afterwards: sub-jobs
that are inserted later are dispatched, and a tick that still holds one of the sub-jobs may complete
the job. Where no creation and no tick on the job overlaps the cancellation and no start message
arrives afterwards, a cancelled job is left alone for good.
-/

namespace Bms

open Process

/-- A request has executed both updates of its cancellation, the second of which is this one. -/
def Cancelled (pool : System) (jobId : Uuid) : Prop :=
  ∃ task ∈ pool.tasks, task.kind = .cancelJob jobId ∧
    ⟨.sql (.updateSubJobsStatusByJobId jobId .canceled), .ok ()⟩ ∈ task.log

/-- A call that publishes a job message or belongs to a scale-up. -/
def Act.Dispatches : Act → Prop
  | ⟨.publishJob .., _⟩ | ⟨.describeServices .., _⟩ | ⟨.updateService .., _⟩ | ⟨.dockerPs _, _⟩
  | ⟨.dockerComposeUp .., _⟩ => True
  | _ => False

/-- A cancelled job stays canceled, and a tick that starts later dispatches nothing for it, in runs
whose steps all meet `ok`. -/
def CancelFinal (registry : ServiceScalerRegistry) (ok : System → SystemEvent → Prop) : Prop :=
  ∀ ⦃source middle target : System⦄ ⦃first second : List SystemEvent⦄ ⦃jobId : Uuid⦄, Initial source →
    Run (platform registry) ok source first middle → Run (platform registry) ok middle second target →
    Cancelled middle jobId →
    (∀ row, target.world.jobs.find? jobId = some row → row.status = .canceled) ∧
      ∀ position task subJob, middle.tasks.length ≤ position → target.tasks[position]? = some task →
        task.kind = .subJobTick → pickedIn task.log = some subJob → subJob.jobId = jobId →
        ∀ made ∈ task.log, ¬ Act.Dispatches made

/-- What must not overlap a cancellation. -/
structure Undisturbed (pool : System) (event : SystemEvent) : Prop where
  /-- the sub-jobs are updated when no tick holds one of them and no creation is inserting them -/
  updates : ∀ position jobId done,
    event = .call position ⟨.sql (.updateSubJobsStatusByJobId jobId .canceled), .ok done⟩ →
    (∀ subJob, Holds pool subJob → subJob.jobId ≠ jobId) ∧
      ∀ position payload subJobs, ¬ At pool position (.createJob payload) (.creating jobId subJobs)
  /-- no tick completes a job between the two updates -/
  completes : ∀ position jobId done, event = .call position ⟨.sql (.updateJobStatus jobId .completed), .ok done⟩ →
    ∀ position, ¬ At pool position (.cancelJob jobId) .jobCanceled
  /-- no sub-job of a cancelled job is started -/
  starts : ∀ position id done row, event = .call position ⟨.sql (.updateSubJobStatus id .processing), .ok done⟩ →
    pool.world.subJobs.find? id = some row → ¬ Cancelled pool row.jobId

/-- Nothing is left of a cancelled job that could bring it back. -/
structure Settled (pool : System) (jobId : Uuid) : Prop where
  job : ∀ row, pool.world.jobs.find? jobId = some row → row.status = .canceled
  subJobs : ∀ id row, pool.world.subJobs.find? id = some row → row.jobId = jobId → row.status.Ended
  ticks : ∀ subJob, Holds pool subJob → subJob.jobId ≠ jobId
  creations : ∀ position payload subJobs, ¬ At pool position (.createJob payload) (.creating jobId subJobs)

structure CancelsSettle (pool : System) : Prop where
  halfway : ∀ position jobId, At pool position (.cancelJob jobId) .jobCanceled →
    ∀ row, pool.world.jobs.find? jobId = some row → row.status = .canceled
  cancelled : ∀ jobId, Cancelled pool jobId → Settled pool jobId

variable {registry : ServiceScalerRegistry} {source target : System} {event : SystemEvent}

/-- What has been logged stays logged. -/
theorem Cancelled.step {jobId : Uuid} (cancelled : Cancelled source jobId)
    (step : Step (platform registry) source event target) : Cancelled target jobId := by
  obtain ⟨task, member, kind, logged⟩ := cancelled
  obtain ⟨later, member', same, kept⟩ := step.log_kept member
  exact ⟨later, member', same.trans kind, kept logged⟩

/-- The row of a canceled job stays so, unless a tick completes it. -/
theorem canceled_step (tracks : jobMonitor.TracksAll source) (step : Step (platform registry) source event target)
    {jobId : Uuid} (canceled : ∀ row, source.world.jobs.find? jobId = some row → row.status = .canceled)
    (known : (source.world.jobs.find? jobId).isSome ∨ ∀ position kind, ¬ At source position kind (.drawn jobId))
    (incomplete : ∀ position subJob done, At source position .subJobTick (.emptied subJob) → subJob.jobId = jobId →
      event ≠ .call position ⟨.sql (.updateJobStatus jobId .completed), .ok done⟩) :
    ∀ row, target.world.jobs.find? jobId = some row → row.status = .canceled := by
  intro later found'
  obtain ⟨row, found, rfl | change⟩ := job_before_of_known tracks step found' known
  · exact canceled later found
  · have key := job_id found
    cases change with
    | canceled => rfl
    | completed here own => exact absurd (by rw [own, key]) (incomplete _ _ _ here (own.trans key))
    | expected => exact canceled row found

theorem CancelsSettle.halfway_step (sound : Sound source) (ids : JobIds source) (settles : CancelsSettle source)
    (undisturbed : Undisturbed source event) (step : Step (platform registry) source event target)
    {position : ℕ} {jobId : Uuid} (here : At target position (.cancelJob jobId) .jobCanceled) :
    ∀ row, target.world.jobs.find? jobId = some row → row.status = .canceled := by
  obtain there | canceled := here.jobCanceled_before sound.tracks step
  · apply canceled_step sound.tracks step (settles.halfway position jobId there) (there.named ids).2
    rintro _ subJob done - - rfl
    exact undisturbed.completes _ _ _ rfl position there
  · exact canceled

theorem Settled.step (sound : Sound source) (ids : JobIds source) (undisturbed : Undisturbed source event)
    (step : Step (platform registry) source event target) {jobId : Uuid} (cancelled : Cancelled source jobId)
    (settled : Settled source jobId) : Settled target jobId where
  job := by
    obtain ⟨task, member, kind, -⟩ := cancelled
    apply canceled_step sound.tracks step settled.job (ids.named task member jobId kind).2
    rintro position subJob done here own -
    exact settled.ticks subJob (here.holds rfl) own
  subJobs id later found' own := by
    cases found : source.world.subJobs.find? id with
    | none =>
      obtain ⟨_, payload, jobId', subJobs, _, _, here, -, -, -, same⟩ :=
        (subJob_inserted sound.tracks step found found').creates
      obtain rfl : jobId' = jobId := (congrArg (·.jobId) same).symm.trans own
      exact absurd here (settled.creations _ payload subJobs)
    | some row =>
      obtain ⟨same, found'', rfl | ⟨test, change, write, tested, rfl⟩⟩ := subJob_step sound.tracks step found
      · obtain rfl : later = same := Option.some.inj (found'.symm.trans found'')
        exact settled.subJobs id later found own
      · obtain rfl := Option.some.inj (found'.symm.trans found'')
        have job := (write.fixed row).2.1.symm.trans own
        have held {position : ℕ} {phase : JobPhase} {subJob : SubJobWithJob}
            (here : At source position .subJobTick phase) (holds : phase.snapshot = some subJob)
            (same : row.id = subJob.id) : False := by
          obtain ⟨-, row', known, job', -⟩ := sound.known position _ phase subJob here holds
          rw [← same, subJob_id found, found, Option.some.injEq] at known
          subst known
          exact settled.ticks subJob (here.holds holds) (job'.symm.trans job)
        cases write with
        | recorded => exact settled.subJobs id row found job
        | pended here => exact (held here rfl (of_decide_eq_true tested)).elim
        | scaled here => exact (held here rfl (of_decide_eq_true tested)).elim
        | begun here =>
          have same := of_decide_eq_true tested
          apply absurd cancelled
          rw [← job]
          exact undisturbed.starts _ _ _ row rfl (by rw [← same, subJob_id found, found])
        | unneeded | reached | completed | failed | canceled => simp [SubJobStatus.Ended]
  ticks subJob holds own := by
    obtain ⟨position, phase, here, held⟩ := (sound.step step).at_of_holds holds
    obtain ⟨before, there, held, -⟩ | ⟨-, -, -, -, -, row, found, first, same⟩ := here.held sound.tracks step held
    · exact settled.ticks subJob (there.holds held) own
    · have ended := settled.subJobs _ row found ((congrArg SubJob.jobId same).symm.trans own)
      exact SubJobStatus.not_unfinished_iff.mpr ended first.2.1
  creations position payload subJobs here := by
    obtain ⟨task, member, kind, -⟩ := cancelled
    obtain ⟨before, old⟩ | ⟨drawn, fresh, -⟩ := here.creating_before sound.tracks step
    · exact settled.creations position payload before old
    · obtain known | none := (ids.named task member jobId kind).2
      · simp [fresh] at known
      · exact none _ _ drawn

/-- The second update leaves nothing of the job. -/
theorem settled_of_update (sound : Sound source) (settles : CancelsSettle source) (undisturbed : Undisturbed source event)
    (step : Step (platform registry) source event target) {position : ℕ} {jobId : Uuid}
    (here : At source position (.cancelJob jobId) .jobCanceled)
    (same : event = .call position ⟨.sql (.updateSubJobsStatusByJobId jobId .canceled), .ok ()⟩) :
    Settled target jobId := by
  subst same
  obtain ⟨kind, phase, -, -, -, reached⟩ := legal_of_call sound.tracks step
  obtain ⟨noTick, noCreation⟩ := undisturbed.updates _ _ _ rfl
  refine ⟨fun row found => ?_, fun id later found' own => ?_, fun subJob holds own => ?_,
    fun other payload subJobs there => ?_⟩
  · rw [reached] at found
    exact settles.halfway position jobId here row found
  · rw [reached, Act.after, Stmt.run, find?_updateSubJob] at found'
    obtain ⟨row, found, rfl⟩ := Option.map_eq_some_iff.mp found'
    split
    · simp [SubJobStatus.Ended]
    · next other =>
      rw [if_neg other] at own
      exact absurd (decide_eq_true own) other
  · obtain ⟨other, phase, there, held⟩ := (sound.step step).at_of_holds holds
    obtain ⟨before, there, held, -⟩ | ⟨-, -, -, picks, -⟩ := there.held sound.tracks step held
    · exact noTick subJob (there.holds held) own
    · cases picks
  · obtain ⟨before, there⟩ | ⟨there, fresh, known⟩ := there.creating_before sound.tracks step
    · exact noCreation other payload before there
    · rw [reached] at known
      simp [Act.after, Stmt.run, Stmt.updateSubJob, fresh] at known

theorem CancelsSettle.step (sound : Sound source) (ids : JobIds source) (settles : CancelsSettle source)
    (undisturbed : Undisturbed source event) (step : Step (platform registry) source event target) :
    CancelsSettle target where
  halfway _ _ here := settles.halfway_step sound ids undisturbed step here
  cancelled jobId cancelled := by
    obtain ⟨task, member, kind, logged⟩ := cancelled
    obtain ⟨before, member', kind', earlier⟩ | ⟨position, phase, here, legal, same⟩ :=
      logged_before sound.tracks step member logged
    · have cancelled : Cancelled source jobId := ⟨before, member', kind'.trans kind, earlier⟩
      exact (settles.cancelled jobId cancelled).step sound ids undisturbed step cancelled
    · rw [kind] at here legal
      cases legal with
      | quiet quiet => exact quiet.elim
      | cancelSubJobs => exact settled_of_update sound settles undisturbed step here same

theorem cancelsSettle_run {events : List SystemEvent} (initial : Initial source)
    (run : Run (platform registry) Undisturbed source events target) :
    Sound target ∧ JobIds target ∧ CancelsSettle target := by
  refine sound_invariant (I := fun pool => JobIds pool ∧ CancelsSettle pool) run ?_ (Sound.of_initial initial)
    ⟨JobIds.of_initial initial, ?_, ?_⟩
  · exact fun sound ⟨ids, settles⟩ undisturbed step =>
      ⟨ids.step sound.tracks step, settles.step sound ids undisturbed step⟩
  · exact fun _ _ here => absurd here (not_at_of_initial initial)
  · rintro jobId ⟨task, member, -⟩
    simp [initial.tasks] at member

/-- No tick from a position on has picked a sub-job of the job. -/
def LeftAlone (jobId : Uuid) (bound : ℕ) (pool : System) : Prop :=
  bound ≤ pool.tasks.length ∧ ∀ position task subJob, bound ≤ position → pool.tasks[position]? = some task →
    task.kind = .subJobTick → pickedIn task.log = some subJob → subJob.jobId ≠ jobId

theorem LeftAlone.step {jobId : Uuid} {bound : ℕ} (settled : Settled source jobId) (alone : LeftAlone jobId bound source)
    (step : Step (platform registry) source event target) : LeftAlone jobId bound target := by
  obtain ⟨below, alone⟩ := alone
  constructor
  · cases step <;> simp <;> omega
  · intro position task subJob above present tick picked own
    obtain old | ⟨kind, -, -, rfl⟩ | ⟨before, op, next, reply, old, -, -, allowed, rfl⟩ := step.task_cases present
    · exact alone position task subJob above old tick picked own
    · cases picked
    · rw [pickedIn_concat] at picked
      obtain earlier | ⟨-, now⟩ := Option.or_eq_some_iff.mp picked
      · exact alone position before subJob above old tick earlier own
      · rw [eq_of_pickedIn now] at allowed
        obtain ⟨row, known, first, same⟩ := picked_row allowed
        have ended := settled.subJobs _ row known ((congrArg SubJob.jobId same).symm.trans own)
        exact SubJobStatus.not_unfinished_iff.mpr ended first.2.1

theorem cancelFinal_of_undisturbed (registry : ServiceScalerRegistry) : CancelFinal registry Undisturbed := by
  intro source middle target first second jobId initial before after cancelled
  obtain ⟨sound, ids, settles⟩ := cancelsSettle_run initial before
  have start : LeftAlone jobId middle.tasks.length middle :=
    ⟨le_refl _, fun position task _ above present =>
      absurd (List.getElem?_eq_some_iff.mp present).1 (not_lt.mpr above)⟩
  obtain ⟨-, -, settled, alone⟩ := sound_invariant
    (I := fun pool => JobIds pool ∧ (Cancelled pool jobId ∧ Settled pool jobId) ∧
      LeftAlone jobId middle.tasks.length pool) after
    (fun sound ⟨ids, ⟨cancelled, settled⟩, alone⟩ undisturbed step => ⟨ids.step sound.tracks step,
      ⟨cancelled.step step, settled.step sound ids undisturbed step cancelled⟩, alone.step settled step⟩)
    sound ⟨ids, ⟨cancelled, settles.cancelled jobId cancelled⟩, start⟩
  refine ⟨settled.2.job, fun position task subJob above present tick picked own => ?_⟩
  exact absurd own (alone.2 position task subJob above present tick picked)

/-- No job is completed, sub-jobs start before any cancellation and are cancelled between the ticks. -/
def cancelsApart (pool : System) : SystemEvent → Bool
  | .call _ ⟨.sql (.updateSubJobsStatusByJobId ..), _⟩ => idle (fun kind => kind.isTick || kind.isCreation) pool
  | .call _ ⟨.sql (.updateJobStatus _ .completed), _⟩ => false
  | .call _ ⟨.sql (.updateSubJobStatus _ .processing), _⟩ => pool.tasks.all fun task => !task.kind.isCancellation
  | _ => true

theorem undisturbed_of_cancelsApart {pool : System} {event : SystemEvent} (check : cancelsApart pool event = true) :
    Undisturbed pool event where
  updates := by
    rintro position jobId done rfl
    have still : idle (fun kind => kind.isTick || kind.isCreation) pool = true := check
    refine ⟨fun subJob ⟨task, member, tick, flying, _⟩ => ?_, fun other payload subJobs here => ?_⟩
    · exact absurd flying (not_inFlight_of_idle still member (by rw [tick]; rfl))
    · obtain ⟨task, present, flying, kind, -⟩ := here
      exact not_inFlight_of_idle still (List.mem_of_getElem? present) (by rw [kind]; rfl) flying
  completes := by
    rintro position jobId done rfl
    cases check
  starts := by
    rintro position id done row rfl - ⟨task, member, cancels, -⟩
    have other := List.all_eq_true.mp check task member
    rw [cancels] at other
    cases other

/-- Computes `Cancelled`. -/
def isCancelled (pool : System) (jobId : Uuid) : Bool := pool.tasks.any fun task =>
  decide (task.kind = .cancelJob jobId) && task.log.any fun
    | ⟨.sql (.updateSubJobsStatusByJobId other .canceled), .ok _⟩ => other = jobId
    | _ => false

theorem cancelled_of_isCancelled {pool : System} {jobId : Uuid} (is : isCancelled pool jobId = true) :
    Cancelled pool jobId := by
  obtain ⟨task, member, is⟩ := List.any_eq_true.mp is
  obtain ⟨kind, is⟩ := (Bool.and_eq_true ..).mp is
  obtain ⟨made, logged, is⟩ := List.any_eq_true.mp is
  refine ⟨task, member, of_decide_eq_true kind, ?_⟩
  split at is
  · obtain rfl := of_decide_eq_true is
    exact logged
  · cases is

/-- Job 1 is cancelled while sub-job 3 is being measured; the next tick finds nothing to do. -/
theorem cancelFinal_measured : ∃ first middle second target row,
    Run (platform ⟨false⟩) Undisturbed (sampleSystem .online) first middle ∧
      Run (platform ⟨false⟩) Undisturbed middle second target ∧ Cancelled middle 1 ∧
      target.world.jobs.find? 1 = some row ∧ row.status = .canceled := by
  have replayed : ((replay ⟨false⟩ cancelsApart (sampleSystem .online)
      (announcedStart ++ startProcessed 4 ++ .start (.cancelJob 1) :: goTimes 5 2)).any fun middle =>
        isCancelled middle 1 && (replay ⟨false⟩ cancelsApart middle (.go 5 :: sampleTick 6 1)).any fun target =>
          (target.world.jobs.find? 1).isSome) = true := by
    decide +kernel
  obtain ⟨first, middle, before, found⟩ := exists_run_of_replay replayed
  obtain ⟨is, found⟩ := (Bool.and_eq_true ..).mp found
  obtain ⟨second, target, after, present⟩ := exists_run_of_replay found
  obtain ⟨row, present⟩ := Option.isSome_iff_exists.mp present
  have before' := before.mono fun _ _ => undisturbed_of_cancelsApart
  have after' := after.mono fun _ _ => undisturbed_of_cancelsApart
  have cancelled := cancelled_of_isCancelled is
  exact ⟨first, middle, second, target, row, before', after', cancelled, present,
    (cancelFinal_of_undisturbed ⟨false⟩ (initial_sampleSystem .online) before' after' cancelled).1 row present⟩

/-- The creation of job 1 has inserted the sub-jobs 2 and 3 when the job is cancelled. -/
def cancelledWhileCreated : List Move :=
  .start (.createJob sampleInput) :: goTimes 0 7 ++ [.clock (Duration.seconds 1)] ++ goTimes 0 2 ++
    .start (.cancelJob 1) :: goTimes 1 3

/-- The creation goes on, and a tick dispatches the sub-job 4. -/
def lateSubJobDispatched : List Move := .clock (Duration.seconds 2) :: goTimes 0 4 ++ sampleTick 2 6

/-- Computes that a task has dispatched a sub-job of a job. -/
def hasDispatched (jobId : Uuid) (task : SystemTask) : Bool :=
  decide (task.kind = .subJobTick) && (pickedIn task.log).any (·.jobId = jobId) && task.log.any fun
    | ⟨.publishJob .., _⟩ => true
    | _ => false

theorem not_cancelFinal : ¬ CancelFinal ⟨false⟩ fun pool event => spawnsOnly Kind.ofJobs pool event = true := by
  intro final
  have replayed : ((replay ⟨false⟩ (spawnsOnly Kind.ofJobs) (sampleSystem .online) cancelledWhileCreated).any
      fun middle => isCancelled middle 1 && decide (middle.tasks.length = 2) &&
        (replay ⟨false⟩ (spawnsOnly Kind.ofJobs) middle lateSubJobDispatched).any fun target =>
          target.tasks[2]?.any (hasDispatched 1)) = true := by
    decide +kernel
  obtain ⟨first, middle, before, found⟩ := exists_run_of_replay replayed
  simp only [Bool.and_eq_true, decide_eq_true_eq] at found
  obtain ⟨⟨is, length⟩, found⟩ := found
  obtain ⟨second, target, after, found⟩ := exists_run_of_replay found
  obtain ⟨task, present, has⟩ := (Option.any_eq_true ..).mp found
  simp only [hasDispatched, Bool.and_eq_true, decide_eq_true_eq] at has
  obtain ⟨⟨tick, picked⟩, publishes⟩ := has
  obtain ⟨subJob, picked, own⟩ := (Option.any_eq_true ..).mp picked
  obtain ⟨made, logged, publishes⟩ := List.any_eq_true.mp publishes
  refine (final (initial_sampleSystem .online) before after (cancelled_of_isCancelled is)).2 2 task subJob
    (by rw [length]) present tick picked (of_decide_eq_true own) made logged ?_
  split at publishes
  · trivial
  · cases publishes

end Bms
