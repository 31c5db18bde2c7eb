import Bms.Model.Replay
import Bms.Protocol.Ticks

/-! # Ended sub-jobs

Nothing guards the status of a sub-job that has ended: a late start message and the tick that a
cancellation has overtaken both write an active status over it. Where start messages come in time
and no cancellation overtakes a tick, a sub-job that has ended stays so.
-/

namespace Bms

open Process

/-- A sub-job that has ended stays so, in every run whose steps all meet `ok`. -/
def EndedForGood (registry : ServiceScalerRegistry) (ok : System → SystemEvent → Prop) : Prop :=
  ∀ ⦃source middle target : System⦄ ⦃first second : List SystemEvent⦄ ⦃id : Uuid⦄ ⦃row : SubJobRow⦄, Initial source →
    Run (platform registry) ok source first middle → Run (platform registry) ok middle second target →
    middle.world.subJobs.find? id = some row → row.status.Ended →
    ∃ later, target.world.subJobs.find? id = some later ∧ later.status.Ended

/-- Only a sub-job that has not ended is started, and no cancellation overtakes a tick that holds a
created sub-job of the job. -/
def Timely (pool : System) (event : SystemEvent) : Prop :=
  (∀ position id done row, event = .call position ⟨.sql (.updateSubJobStatus id .processing), .ok done⟩ →
    pool.world.subJobs.find? id = some row → row.status.Unfinished) ∧
  ∀ position jobId done subJob, event = .call position ⟨.sql (.updateSubJobsStatusByJobId jobId .canceled), .ok done⟩ →
    Holds pool subJob → subJob.jobId = jobId → subJob.status ≠ .created

/-- The created snapshot of a tick in flight is still that of an unfinished sub-job of the same job. -/
def Current (pool : System) : Prop :=
  ∀ position phase subJob, At pool position .subJobTick phase → phase.snapshot = some subJob →
    subJob.status = .created →
    ∃ row, pool.world.subJobs.find? subJob.id = some row ∧ row.jobId = subJob.jobId ∧ row.status.Unfinished

variable {registry : ServiceScalerRegistry} {source target : System} {event : SystemEvent}

theorem unfinished_of_change {row later : SubJobRow} (change : SubJobChange source row event later)
    (unfinished : row.status.Unfinished) :
    later.status.Unfinished ∨
      (∃ position phase subJob, At source position .subJobTick phase ∧ phase.snapshot = some subJob ∧
        ∃ op reply, event = .call position ⟨op, reply⟩ ∧
          (subJob.status = .created → (phase.note ⟨op, reply⟩).snapshot = none)) ∨
      ∃ position done, At source position (.cancelJob row.jobId) .jobCanceled ∧
        event = .call position ⟨.sql (.updateSubJobsStatusByJobId row.jobId .canceled), .ok done⟩ := by
  obtain ⟨test, changed, write, tested, rfl⟩ := change
  cases write with
  | recorded => exact .inl unfinished
  | pended | scaled | begun => exact .inl (by simp [SubJobStatus.Unfinished])
  | unneeded here scaling created => exact .inr (.inl ⟨_, _, _, here, rfl, _, _, rfl, fun _ => rfl⟩)
  | reached here scaling processing => exact .inr (.inl ⟨_, _, _, here, rfl, _, _, rfl, fun _ => rfl⟩)
  | completed here measuring processing =>
    exact .inr (.inl ⟨_, _, _, here, rfl, _, _, rfl, fun created => by simp [processing] at created⟩)
  | failed here failable =>
    exact .inr (.inl ⟨_, _, _, here, failable.snapshot, _, _, rfl, fun _ => congrArg _ (failable.note ..)⟩)
  | canceled here =>
    obtain rfl := of_decide_eq_true tested
    exact .inr (.inr ⟨_, _, here, rfl⟩)

theorem Current.step (sound : Sound source) (current : Current source) (timely : Timely source event)
    (step : Step (platform registry) source event target) : Current target := by
  intro position phase subJob here held created
  obtain ⟨before, there, snapshot, stays⟩ | ⟨-, -, -, -, reached, row, found, first, same⟩ :=
    here.held sound.tracks step held
  · obtain ⟨row, found, job, unfinished⟩ := current position before subJob there snapshot created
    obtain ⟨later, found', rfl | change⟩ := subJob_step sound.tracks step found
    · exact ⟨later, found', job, unfinished⟩
    · refine ⟨later, found', change.fixed.2.1.trans job, ?_⟩
      obtain still | ⟨_, phase', subJob', there', snapshot', op, reply, rfl, gone⟩ | ⟨_, _, -, rfl⟩ :=
        unfinished_of_change change unfinished
      · exact still
      · obtain ⟨rfl, rfl⟩ := sound.tick_unique there there'
        obtain rfl : subJob = subJob' := Option.some.inj (snapshot.symm.trans snapshot')
        have none := gone created
        rw [stays op reply rfl] at none
        cases none
      · exact absurd created (timely.2 _ _ _ subJob rfl (there.holds snapshot) job.symm)
  · exact ⟨row, by rwa [reached], (congrArg SubJob.jobId same).symm, first.2.1⟩

/-- One step keeps a sub-job ended. -/
theorem ended_step (sound : Sound source) (current : Current source) (timely : Timely source event)
    (step : Step (platform registry) source event target) {id : Uuid} {row : SubJobRow}
    (found : source.world.subJobs.find? id = some row) (ended : row.status.Ended) :
    ∃ later, target.world.subJobs.find? id = some later ∧ later.status.Ended := by
  have key := subJob_id found
  have held {position : ℕ} {phase : JobPhase} {subJob : SubJobWithJob} (here : At source position .subJobTick phase)
      (snapshot : phase.snapshot = some subJob) (created : subJob.status = .created) (own : row.id = subJob.id) :
      False := by
    obtain ⟨row', found', -, unfinished⟩ := current position phase subJob here snapshot created
    rw [← own, key, found, Option.some.injEq] at found'
    subst found'
    exact SubJobStatus.not_unfinished_iff.mpr ended unfinished
  obtain ⟨later, found', rfl | change⟩ := subJob_step sound.tracks step found
  · exact ⟨later, found', ended⟩
  · obtain ⟨test, changed, write, tested, rfl⟩ := change
    refine ⟨_, found', ?_⟩
    cases write with
    | recorded => exact ended
    | pended here measuring created => exact (held here rfl created (of_decide_eq_true tested)).elim
    | scaled here scaling created => exact (held here rfl created (of_decide_eq_true tested)).elim
    | begun here =>
      have own := of_decide_eq_true tested
      exact absurd (timely.1 _ _ _ row rfl (by rwa [← own, key])) (SubJobStatus.not_unfinished_iff.mpr ended)
    | unneeded | reached | completed | failed | canceled => simp [SubJobStatus.Ended]

theorem endedForGood_of_timely (registry : ServiceScalerRegistry) : EndedForGood registry Timely := by
  intro source middle target first second id row initial before after found ended
  obtain ⟨sound, current⟩ := sound_invariant (I := Current) before
    (fun sound current timely step => Current.step sound current timely step)
    (Sound.of_initial initial) fun _ _ _ here => absurd here (not_at_of_initial initial)
  have kept := sound_invariant (I := fun pool => Current pool ∧
      ∃ later, pool.world.subJobs.find? id = some later ∧ later.status.Ended) after
    (fun sound ⟨current, row, found, ended⟩ timely step =>
      ⟨current.step sound timely step, ended_step sound current timely step found ended⟩)
    sound ⟨current, row, found, ended⟩
  exact kept.2.2

/-- A check for runs that start only what has not ended, and cancel nothing. -/
def startsUnfinished (pool : System) : SystemEvent → Bool
  | .call _ ⟨.sql (.updateSubJobStatus id .processing), _⟩ =>
    (pool.world.subJobs.find? id).all fun row => decide row.status.Unfinished
  | .call _ ⟨.sql (.updateSubJobsStatusByJobId ..), _⟩ => false
  | _ => true

theorem timely_of_startsUnfinished {pool : System} {event : SystemEvent} (check : startsUnfinished pool event = true) :
    Timely pool event := by
  constructor
  · rintro position id done row rfl found
    exact of_decide_eq_true ((Option.all_eq_true ..).mp check row found)
  · rintro position jobId done subJob rfl
    cases check

/-- The scaling sub-job, canceled because a worker is online, is still canceled when the next sub-job has been
dispatched and the worker's start has been processed in time. -/
theorem endedForGood_started :
    ∃ first middle second target row later, Run (platform ⟨false⟩) Timely (sampleSystem .online) first middle ∧
      Run (platform ⟨false⟩) Timely middle second target ∧ middle.world.subJobs.find? 2 = some row ∧
      row.status = .canceled ∧ target.world.subJobStatus? 3 = some .processing ∧
      target.world.subJobs.find? 2 = some later ∧ later.status.Ended := by
  have replayed : ((replay ⟨false⟩ startsUnfinished (sampleSystem .online) (sampleCreation ++ sampleTick 1 7)).any
      fun middle => decide (middle.world.subJobStatus? 2 = some .canceled) &&
        (replay ⟨false⟩ startsUnfinished middle (sampleTick 2 7 ++ received sampleWorker 3 4 ++ startProcessed 4)).any
          fun target => decide (target.world.subJobStatus? 3 = some .processing)) = true := by
    decide +kernel
  obtain ⟨first, middle, before, found⟩ := exists_run_of_replay replayed
  obtain ⟨canceled, found⟩ := (Bool.and_eq_true ..).mp found
  obtain ⟨second, target, after, started⟩ := exists_run_of_replay found
  obtain ⟨row, present, status⟩ := Option.map_eq_some_iff.mp (of_decide_eq_true canceled)
  have before' := before.mono fun _ _ => timely_of_startsUnfinished
  have after' := after.mono fun _ _ => timely_of_startsUnfinished
  obtain ⟨later, present', ended⟩ := endedForGood_of_timely ⟨false⟩ (initial_sampleSystem .online) before' after' present
    (by simp [status, SubJobStatus.Ended])
  exact ⟨first, middle, second, target, row, later, before', after', present, status, of_decide_eq_true started, present',
    ended⟩

/-- The job is cancelled after the worker has announced the start of sub-job 3. -/
def cancelledInFlight : List Move := announcedStart ++ .start (.cancelJob 1) :: goTimes 4 3

theorem startProcessed_revives :
    ((replay ⟨false⟩ (spawnsOnly Kind.ofJobs) (sampleSystem .online) cancelledInFlight).any fun middle =>
      decide (middle.world.subJobStatus? 3 = some .canceled) &&
        (replay ⟨false⟩ (spawnsOnly Kind.ofJobs) middle (startProcessed 5)).any fun target =>
          decide (target.world.subJobStatus? 3 = some .processing)) = true := by
  decide +kernel

theorem not_endedForGood :
    ¬ EndedForGood ⟨false⟩ fun source event => spawnsOnly Kind.ofJobs source event = true := by
  intro stays
  obtain ⟨first, middle, before, found⟩ := exists_run_of_replay startProcessed_revives
  obtain ⟨canceled, found⟩ := (Bool.and_eq_true ..).mp found
  obtain ⟨second, target, after, revived⟩ := exists_run_of_replay found
  obtain ⟨row, present, status⟩ := Option.map_eq_some_iff.mp (of_decide_eq_true canceled)
  obtain ⟨later, present', ended⟩ := stays (initial_sampleSystem .online) before after present
    (by simp [status, SubJobStatus.Ended])
  obtain ⟨row', present'', status'⟩ := Option.map_eq_some_iff.mp (of_decide_eq_true revived)
  obtain rfl : later = row' := Option.some.inj (present'.symm.trans present'')
  simp [status', SubJobStatus.Ended] at ended

end Bms
