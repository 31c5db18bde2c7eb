import Bms.Process.Interrupt
import Bms.Properties.CompletedJobs

/-! # Recovering a completion

A tick marks the last measuring sub-job of a job as completed, counts the pending ones and completes
the job, in three statements. Ticks may be stopped between two of their statements here, and any
repository call may fail. A completed sub-job is never picked again, so a tick that does not get to the
end of the three leaves the job pending for good; as long as the tick that completes the last sub-job
gets there, a job whose measuring sub-jobs are all completed is completed or canceled between ticks.
-/

namespace Bms

open Process

/-- A job has measuring sub-jobs, and all of them are completed. -/
structure AllCompleted (w : World) (jobId : Uuid) : Prop where
  some : ∃ row ∈ w.subJobs.rows, row.jobId = jobId ∧ row.type = .combinedDHP
  all : ∀ row ∈ w.subJobs.rows, row.jobId = jobId → row.type = .combinedDHP → row.status = .completed

instance (w : World) (jobId : Uuid) : Decidable (AllCompleted w jobId) :=
  decidable_of_iff ((∃ row ∈ w.subJobs.rows, row.jobId = jobId ∧ row.type = .combinedDHP) ∧
    ∀ row ∈ w.subJobs.rows, row.jobId = jobId → row.type = .combinedDHP → row.status = .completed)
    ⟨fun both => ⟨both.1, both.2⟩, fun done => ⟨done.some, done.all⟩⟩

/-- No tick is in the middle of its statements. -/
def BetweenTicks (pool : System) : Prop := ∀ task ∈ pool.tasks, task.kind = .subJobTick → ¬ Running task

/-- The last tick has got to its end, and none of its repository calls has failed. -/
def AfterCleanTick (registry : ServiceScalerRegistry) (pool : System) : Prop :=
  ∃ (position : ℕ) (task : SystemTask), pool.tasks[position]? = some task ∧ task.kind = .subJobTick ∧
    (∀ later other, position < later → pool.tasks[later]? = some other → other.kind ≠ .subJobTick) ∧
    (subJobHandler registry).Reaches task.log (.ret ()) ∧ ∀ made ∈ task.log, ¬ Act.RepositoryFailure made

/-- Ticks may be stopped after any of their statements. -/
def MayStop (kind : Kind) : Prop := kind = .subJobTick

/-- After a clean tick, a job whose measuring sub-jobs are all completed is completed or canceled, in runs with
stops whose steps all meet `ok`. -/
def CompletionRecovered (registry : ServiceScalerRegistry) (ok : System → Happening Calls Kind → Prop) : Prop :=
  ∀ ⦃source target : System⦄ ⦃happenings : List (Happening Calls Kind)⦄ ⦃jobId : Uuid⦄ ⦃row : JobRow⦄, Initial source →
    StopRun (platform registry) MayStop ok source happenings target → BetweenTicks target →
    AfterCleanTick registry target → target.world.jobs.find? jobId = some row → AllCompleted target.world jobId →
    row.status = .completed ∨ row.status = .canceled

/-- A tick has completed this sub-job and has not come to its end. -/
def InTail (pool : System) (position : ℕ) (subJob : SubJobWithJob) : Prop :=
  At pool position .subJobTick (.completed subJob) ∨ At pool position .subJobTick (.emptied subJob)

/-- A tick has completed the last measuring sub-job of a job and has not come to its end. -/
def Concludes (pool : System) (position : ℕ) : Prop :=
  ∃ subJob, InTail pool position subJob ∧ AllCompleted pool.world subJob.jobId

/-- Such a tick is not stopped, and none of its repository calls fails. -/
def TailRuns (pool : System) : Happening Calls Kind → Prop
  | .event (.call position made) => Act.RepositoryFailure made → ¬ Concludes pool position
  | .stop position => ¬ Concludes pool position
  | _ => True

variable {registry : ServiceScalerRegistry} {source target : System} {event : SystemEvent}

/-! ## How the last sub-job becomes completed -/

/-- A sub-job becomes completed by a tick, which then is in its tail. -/
theorem completed_by (tracks : jobMonitor.TracksAll source) (known : SnapshotsKnown source)
    (step : Step (platform registry) source event target) {row later : SubJobRow}
    (found : source.world.subJobs.find? row.id = some row) (change : SubJobChange source row event later)
    (measuring : row.type = .combinedDHP) (before : row.status ≠ .completed) (completed : later.status = .completed) :
    ∃ position made subJob, event = .call position made ∧ subJob.jobId = row.jobId ∧
      At target position .subJobTick (.completed subJob) := by
  obtain ⟨test, change, write, tested, rfl⟩ := change
  cases write with
  | recorded => exact absurd completed before
  | pended | scaled | unneeded | failed | begun | canceled => cases completed
  | reached here scaling =>
    have same : row.id = _ := of_decide_eq_true tested
    obtain ⟨-, row', found', -, type⟩ := known _ _ _ _ here rfl
    rw [← same, found, Option.some.injEq] at found'
    rw [← found', measuring, scaling] at type
    cases type
  | @completed position subJob _ _ _ here =>
    have same : row.id = subJob.id := of_decide_eq_true tested
    obtain ⟨-, row', found', job, -⟩ := known _ _ _ subJob here rfl
    rw [← same, found, Option.some.injEq] at found'
    exact ⟨position, _, subJob, rfl, by rw [found', job], (here.after tracks step).resolve_right fun final => final⟩

/-- All measuring sub-jobs of a job were completed before the step, or the step has completed the last one. -/
theorem allCompleted_before (tracks : jobMonitor.TracksAll source) (known : SnapshotsKnown source)
    (step : Step (platform registry) source event target) {jobId : Uuid} (done : AllCompleted target.world jobId) :
    AllCompleted source.world jobId ∨ ∃ position made subJob, event = .call position made ∧ subJob.jobId = jobId ∧
      At target position .subJobTick (.completed subJob) := by
  by_cases all : ∀ row ∈ source.world.subJobs.rows, row.jobId = jobId → row.type = .combinedDHP →
    row.status = .completed
  · left
    refine ⟨?_, all⟩
    obtain ⟨row, member, own, measuring⟩ := done.some
    rcases row_before tracks step member with ⟨old, there, -, job, type, -⟩ | insert
    · exact ⟨old, there, job.trans own, type.trans measuring⟩
    · have completed := done.all row member own measuring
      obtain ⟨_, _, _, _, _, _, -, -, -, -, same⟩ := insert.creates
      rw [same] at completed
      cases completed
  · right
    push Not at all
    obtain ⟨row, member, rfl, measuring, before⟩ := all
    have found := mem_iff_find?.mp member
    obtain ⟨later, found', changed⟩ := subJob_step tracks step found
    rcases changed with rfl | change
    · exact absurd (done.all later (Table.mem_of_find? found') rfl measuring) before
    · obtain ⟨-, job, type, -⟩ := change.fixed
      have completed := done.all later (Table.mem_of_find? found') job (type.trans measuring)
      exact completed_by tracks known step found change measuring before completed

/-- A job that is completed or canceled stays so. -/
theorem settled_step (tracks : jobMonitor.TracksAll source) (step : Step (platform registry) source event target)
    {jobId : Uuid} {row later : JobRow} (found : source.world.jobs.find? jobId = some row)
    (found' : target.world.jobs.find? jobId = some later) (settled : row.status = .completed ∨ row.status = .canceled) :
    later.status = .completed ∨ later.status = .canceled := by
  obtain ⟨same, found'', changed⟩ := job_step tracks step found
  obtain rfl : later = same := Option.some.inj (found'.symm.trans found'')
  rcases changed with rfl | change
  · exact settled
  · cases change with
    | canceled => exact .inr rfl
    | completed => exact .inl rfl
    | expected => exact settled

/-! ## Pools and their shadows -/

/-- What holds of a pool and its shadow in every run that meets the condition. -/
structure Tidy (ghost pool : System) : Prop where
  shadows : Shadows ghost pool
  tracks : jobMonitor.TracksAll ghost
  known : SnapshotsKnown ghost
  parents : ∀ row ∈ ghost.world.subJobs.rows, (ghost.world.jobs.find? row.jobId).isSome
  /-- a job whose measuring sub-jobs are all completed is settled, or a tick is about to complete it -/
  tails : ∀ jobId row, ghost.world.jobs.find? jobId = some row → AllCompleted ghost.world jobId →
    (row.status = .completed ∨ row.status = .canceled) ∨
      ∃ position subJob, subJob.jobId = jobId ∧ InTail pool position subJob

variable {ghost later : System}

theorem InTail.shadow {pool : System} {position : ℕ} {subJob : SubJobWithJob} (tail : InTail pool position subJob)
    (shadows : Shadows ghost pool) : InTail ghost position subJob := tail.imp shadows.at shadows.at

theorem InTail.kept {position : ℕ} {subJob : SubJobWithJob} (tail : InTail source position subJob)
    (same : target.tasks[position]? = source.tasks[position]?) : InTail target position subJob := by
  refine tail.imp ?_ ?_
  · rintro ⟨task, present, rest⟩
    exact ⟨task, same.trans present, rest⟩
  · rintro ⟨task, present, rest⟩
    exact ⟨task, same.trans present, rest⟩

theorem Tidy.of_initial {pool : System} (initial : Initial pool) : Tidy pool pool where
  shadows := Shadows.refl pool
  tracks := (Sound.of_initial initial).tracks
  known := (Sound.of_initial initial).known
  parents row member := by simp [initial.subJobs] at member
  tails jobId row found := by
    have member := Table.mem_of_find? found
    simp [initial.jobs] at member

/-- A stop does no harm to a tick that has not completed the last sub-job of a job. -/
theorem Tidy.stop {pool : System} {position : ℕ} {task : SystemTask} (tidy : Tidy ghost pool)
    (present : pool.tasks[position]? = some task) (meets : ¬ Concludes pool position) :
    Tidy ghost ⟨pool.world, pool.tasks.set position task.stopped⟩ where
  shadows := tidy.shadows.stop present
  tracks := tidy.tracks
  known := tidy.known
  parents := tidy.parents
  tails jobId row found done := by
    rcases tidy.tails jobId row found done with settled | ⟨other, subJob, rfl, tail⟩
    · exact .inl settled
    · have distinct : position ≠ other := by
        rintro rfl
        exact meets ⟨subJob, tail, tidy.shadows.world ▸ done⟩
      exact .inr ⟨other, subJob, rfl, tail.kept (List.getElem?_set_ne distinct)⟩

/-- A task that starts has no snapshot yet. -/
theorem SnapshotsKnown.spawn {kind : Kind} (tracks : jobMonitor.TracksAll source) (known : SnapshotsKnown source)
    (step : Step (platform registry).unguarded source (.spawn kind) target) : SnapshotsKnown target := by
  have same : target.world.subJobs = source.world.subJobs := by
    cases step with
    | spawn _ => exact (sameJobs_enter source.world kind).subJobs
  intro position kind' phase subJob here held
  obtain ⟨old, -⟩ | ⟨-, rfl⟩ | ⟨_, _, _, _, _, called, _⟩ := Monitor.At.before tracks step here
  · obtain ⟨tick, row, found, fixed⟩ := known position kind' phase subJob old held
    exact ⟨tick, row, by rwa [same], fixed⟩
  · cases kind' <;> cases held
  · cases called

theorem Tidy.spawn {kind : Kind} (tidy : Tidy ghost source)
    (step : Step (platform registry) source (.spawn kind) target) :
    ∃ later, Tidy later target := by
  obtain ⟨later, shadows, taken, -⟩ := step.shadow tidy.shadows
  have same : ghost.world.SameJobs later.world := by
    cases taken with
    | spawn _ => exact sameJobs_enter ghost.world kind
  refine ⟨later, shadows, tidy.tracks.step (jobMonitor_covers registry).unguarded taken,
    tidy.known.spawn tidy.tracks taken, ?_, ?_⟩
  · rw [same.jobs, same.subJobs]
    exact tidy.parents
  · intro jobId row found done
    rw [same.jobs] at found
    have done : AllCompleted ghost.world jobId := ⟨same.subJobs ▸ done.some, same.subJobs ▸ done.all⟩
    rcases tidy.tails jobId row found done with settled | ⟨position, subJob, rfl, tail⟩
    · exact .inl settled
    · refine .inr ⟨position, subJob, rfl, tail.imp (·.kept step ?_) (·.kept step ?_)⟩ <;>
      · intro made same
        cases same

/-- A call or a drift. -/
theorem Tidy.step (tidy : Tidy ghost source) (meets : TailRuns source (.event event))
    (step : Step (platform registry) source event target) (starts : ∀ kind, event ≠ .spawn kind) :
    ∃ later, Tidy later target := by
  obtain ⟨later, shadows, taken, called⟩ := step.shadow tidy.shadows
  have taken := taken.guarded starts
  refine ⟨later, shadows, tidy.tracks.step (jobMonitor_covers registry) taken,
    tidy.known.step tidy.tracks taken, ?_, ?_⟩
  · intro row member
    have parent : ∃ job, ghost.world.jobs.find? row.jobId = some job := by
      rcases row_before tidy.tracks taken member with ⟨old, there, -, own, -⟩ | insert
      · exact Option.isSome_iff_exists.mp (own ▸ tidy.parents old there)
      · obtain ⟨_, _, jobId, _, _, _, -, -, exists_, -, same⟩ := insert.creates
        rw [same]
        exact Option.isSome_iff_exists.mp exists_
    obtain ⟨job, found⟩ := parent
    obtain ⟨job', found', -⟩ := job_step tidy.tracks taken found
    exact Option.isSome_iff_exists.mpr ⟨job', found'⟩
  · intro jobId row found done
    rcases allCompleted_before tidy.tracks tidy.known taken done with before | ⟨position, made, subJob, same, own, here⟩
    · obtain ⟨subJob, member, own, -⟩ := before.some
      obtain ⟨old, found'⟩ := Option.isSome_iff_exists.mp (own ▸ tidy.parents subJob member)
      rcases tidy.tails jobId old found' before with settled | ⟨position, subJob, rfl, tail⟩
      · exact .inl (settled_step tidy.tracks taken found' found settled)
      · have succeeds (made : Act) (same : event = .call position made) : NoFailure event := by
          subst same
          intro position' made' same failure
          cases same
          exact meets failure ⟨subJob, tail, tidy.shadows.world ▸ before⟩
        rcases tail_step tidy.tracks taken (tail.shadow tidy.shadows) succeeds with completed | ⟨id, waits⟩ | goes
        · exact .inl (.inl (completed row found))
        · obtain ⟨row', known, own, measuring, unfinished⟩ := waits
          have completed := done.all row' (Table.mem_of_find? known) own measuring
          rw [completed] at unfinished
          exact absurd unfinished (by decide)
        · refine .inr ⟨position, subJob, rfl, ?_⟩
          by_cases calls : ∃ made, event = .call position made
          · obtain ⟨made, same⟩ := calls
            exact InTail.kept goes (called position made same)
          · have silent (made : Act) : event ≠ .call position made := fun same => calls ⟨made, same⟩
            exact tail.imp (·.kept step silent) (·.kept step silent)
    · have tail : InTail later position subJob := .inl here
      exact .inr ⟨position, subJob, own, tail.kept (called position made same)⟩

theorem tidy_of_run {happenings : List (Happening Calls Kind)} (initial : Initial source)
    (run : StopRun (platform registry) MayStop TailRuns source happenings target) : ∃ ghost, Tidy ghost target := by
  refine run.invariant (I := fun pool => ∃ ghost, Tidy ghost pool) ?_ ⟨source, Tidy.of_initial initial⟩
  rintro pool happening next ⟨ghost, tidy⟩ meets step
  cases step with
  | stop present _ => exact ⟨ghost, tidy.stop present meets⟩
  | @event _ event step =>
    by_cases starts : ∃ kind, event = .spawn kind
    · obtain ⟨kind, rfl⟩ := starts
      exact tidy.spawn step
    · exact tidy.step meets step fun kind same => starts ⟨kind, same⟩

/-- A tick in its tail is in the middle of its statements. -/
theorem InTail.running {pool : System} {position : ℕ} {subJob : SubJobWithJob} (tracks : jobMonitor.TracksAll ghost)
    (shadows : Shadows ghost pool) (tail : InTail pool position subJob) : ¬ BetweenTicks pool := by
  intro between
  have busy {phase : JobPhase} (here : At pool position .subJobTick phase)
      (calls : ∀ op, JobLegal .subJobTick phase op → op ≠ .panic) : False := by
    obtain ⟨task, present, ⟨op, next, awaits⟩, tick, rfl⟩ := here
    have shadow := shadows.flying present ⟨op, next, awaits⟩
    have legal := (tracks position task shadow).legal awaits
    rw [tick] at legal
    exact between task (List.mem_of_getElem? present) tick ⟨op, next, awaits, calls op legal⟩
  rcases tail with here | here
  · apply busy here
    intro op legal
    cases legal with
    | quiet quiet going => exact going.elim
    | count | fail => nofun
  · apply busy here
    intro op legal
    cases legal with
    | quiet quiet going => exact going.elim
    | close | fail => nofun

/-- Between ticks a job whose measuring sub-jobs are all completed is completed or canceled, as long as a tick that
completes the last of them gets to its end. -/
theorem settled_of_tailRuns {happenings : List (Happening Calls Kind)} {jobId : Uuid} {row : JobRow}
    (initial : Initial source) (run : StopRun (platform registry) MayStop TailRuns source happenings target)
    (between : BetweenTicks target) (found : target.world.jobs.find? jobId = some row)
    (done : AllCompleted target.world jobId) : row.status = .completed ∨ row.status = .canceled := by
  obtain ⟨ghost, tidy⟩ := tidy_of_run initial run
  rw [tidy.shadows.world] at found done
  apply (tidy.tails jobId row found done).resolve_right
  rintro ⟨position, subJob, -, tail⟩
  exact tail.running tidy.tracks tidy.shadows between

theorem completionRecovered_of_tailRuns (registry : ServiceScalerRegistry) : CompletionRecovered registry TailRuns :=
  fun _ _ _ _ _ initial run between _ found done => settled_of_tailRuns initial run between found done

/-- No repository call fails while all measuring sub-jobs of a job are completed. -/
def failsInTime (pool : System) (event : SystemEvent) : Bool :=
  succeeds pool event || pool.world.subJobs.rows.all fun row => !decide (AllCompleted pool.world row.jobId)

theorem tailRuns_of_failsInTime {pool : System} {event : SystemEvent} (check : failsInTime pool event = true) :
    TailRuns pool (.event event) := by
  rcases (Bool.or_eq_true ..).mp check with succeeded | waits
  · cases event with
    | call position made => exact fun failure => absurd failure (noFailure_of_succeeds succeeded position made rfl)
    | _ => trivial
  · cases event with
    | call position made =>
      rintro - ⟨subJob, -, done⟩
      obtain ⟨row, member, own, -⟩ := done.some
      have missing := List.all_eq_true.mp waits row member
      simp [own, done] at missing
    | _ => trivial

/-- The task at a position is the last tick, and it has ended without a failure. -/
def cleanTick (position : ℕ) (pool : System) : Bool :=
  (pool.tasks[position]?).any (fun task => decide (task.kind = .subJobTick ∧ ¬ task.InFlight) &&
      task.log.all fun made => succeeds pool (.call position made)) &&
    (pool.tasks.drop (position + 1)).all fun task => decide (task.kind ≠ .subJobTick)

theorem afterCleanTick_of_check {ok : System → SystemEvent → Prop} {events : List SystemEvent} {position : ℕ}
    (run : Run (platform registry) ok source events target) (empty : source.tasks = [])
    (check : cleanTick position target = true) : AfterCleanTick registry target := by
  obtain ⟨clean, last⟩ := (Bool.and_eq_true ..).mp check
  obtain ⟨task, present, clean⟩ := (Option.any_eq_true ..).mp clean
  obtain ⟨ended, clean⟩ := (Bool.and_eq_true ..).mp clean
  obtain ⟨tick, returned⟩ := of_decide_eq_true ended
  refine ⟨position, task, present, tick, fun later other after found => ?_, ?_, fun made member => ?_⟩
  · have dropped : other ∈ target.tasks.drop (position + 1) := by
      apply List.mem_of_getElem? (i := later - (position + 1))
      rwa [List.getElem?_drop, Nat.add_sub_cancel' after]
    exact of_decide_eq_true (List.all_eq_true.mp last other dropped)
  · have reaches := run.reaches empty task (List.mem_of_getElem? present)
    rw [tick] at reaches
    cases rest : task.rest with
    | ret value => exact rest ▸ reaches
    | call op next => exact absurd ⟨op, next, rest⟩ returned
  · exact noFailure_of_succeeds (List.all_eq_true.mp clean made member) position made rfl

theorem betweenTicks_of_idle {pool : System} (still : idle Kind.isTick pool = true) : BetweenTicks pool := by
  rintro task member tick ⟨op, next, awaits, -⟩
  exact not_inFlight_of_idle still member (by rw [tick]; rfl) ⟨op, next, awaits⟩

/-- The count after the first measuring sub-job fails, and the last one completes the job. -/
theorem completionRecovered_laterTick : ∃ happenings target row,
    StopRun (platform ⟨false⟩) MayStop TailRuns (sampleSystem .online) happenings target ∧
      AfterCleanTick ⟨false⟩ target ∧
      target.world.jobs.find? 1 = some row ∧ AllCompleted target.world 1 ∧
      (row.status = .completed ∨ row.status = .canceled) := by
  have replayed : ((replay ⟨false⟩ failsInTime (sampleSystem .online) (sampleCreation ++ sampleTick 1 7 ++
      measured 2 3 6 (Duration.seconds 4) 4 ++ .fail 7 :: measured 8 4 8 (Duration.seconds 10) 5 ++
      measured 14 5 10 (Duration.seconds 16) 6)).any
        fun target => idle Kind.isTick target && cleanTick 19 target && (target.world.jobs.find? 1).isSome &&
          decide (AllCompleted target.world 1)) = true := by
    decide +kernel
  obtain ⟨events, target, run, found⟩ := exists_run_of_replay replayed
  simp only [Bool.and_eq_true, Option.isSome_iff_exists, decide_eq_true_eq] at found
  obtain ⟨⟨⟨still, clean⟩, row, present⟩, done⟩ := found
  have clean := afterCleanTick_of_check run rfl clean
  have meets := (run.mono fun _ _ => tailRuns_of_failsInTime).stopRun MayStop TailRuns
  exact ⟨_, target, row, meets, clean, present, done, completionRecovered_of_tailRuns ⟨false⟩
    (initial_sampleSystem .online) meets (betweenTicks_of_idle still) clean present done⟩

/-- The count after the last measuring sub-job fails, and a later tick finds nothing to do. -/
theorem not_completionRecovered : ¬ CompletionRecovered ⟨false⟩ fun _ _ => True := by
  intro recovered
  have replayed : ((replay ⟨false⟩ (fun _ _ => true) (sampleSystem .online) (sampleCreation ++ sampleTick 1 7 ++
      measured 2 3 6 (Duration.seconds 4) 5 ++ measured 8 4 8 (Duration.seconds 10) 5 ++
      measured 14 5 10 (Duration.seconds 16) 4 ++ .fail 19 :: sampleTick 20 1)).any
        fun target => idle Kind.isTick target && cleanTick 20 target &&
          decide (target.world.jobStatus? 1 = some .pending) && decide (AllCompleted target.world 1)) = true := by
    decide +kernel
  obtain ⟨events, target, run, found⟩ := exists_run_of_replay replayed
  simp only [Bool.and_eq_true, decide_eq_true_eq] at found
  obtain ⟨⟨⟨still, clean⟩, pending⟩, done⟩ := found
  obtain ⟨row, present, pending⟩ := Option.map_eq_some_iff.mp pending
  have clean := afterCleanTick_of_check run rfl clean
  have meets := (run.mono fun _ _ _ => trivial).stopRun MayStop fun _ _ => True
  have settled := recovered (initial_sampleSystem .online) meets (betweenTicks_of_idle still) clean present done
  rw [pending] at settled
  rcases settled with settled | settled <;> cases settled

end Bms
