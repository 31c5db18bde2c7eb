import Bms.Model.Replay
import Bms.Protocol.Checks
import Bms.Protocol.Results

/-! # Answered sub-jobs

A worker that answers without announcing its start leaves the sub-job pending, and a tick that picks a
pending sub-job looks at its deadline only. So a sub-job may be answered in full and fail all the
same. It is completed where the ticks find it started and read the clock in time.
-/

namespace Bms

open Process

/-- A measuring sub-job has so many results, the number it expects, no later than its deadline. -/
def AnsweredWith (w : World) (id : Uuid) (deadline : DateTime) (workersCount : ℕ) : Prop :=
  ∃ row, w.subJobs.find? id = some row ∧ row.type = .combinedDHP ∧ row.deadlineAt = some deadline ∧
    (row.details.get? "workers_count").bind Json.asU64? = some workersCount ∧
    workersCount ≤ ((w.dataOf id).filter fun result => result.createdAt ≤ deadline).length

def Answered (w : World) (id : Uuid) : Prop := ∃ deadline workersCount, AnsweredWith w id deadline workersCount

/-- An answered sub-job that is pending or processing. -/
def FullyAnswered (w : World) (id : Uuid) : Prop :=
  Answered w id ∧ ∃ row, w.subJobs.find? id = some row ∧ row.status.Active

/-- A tick picks a sub-job. -/
def Picks (id : Uuid) (event : SystemEvent) : Prop :=
  ∃ position subJob, subJob.id = id ∧ event = .call position ⟨.sql .getFirstUnfinishedSubJob, .ok subJob⟩

/-- A step without repository failure that meets `ok`. -/
def Faultless (ok : System → SystemEvent → Prop) (pool : System) (event : SystemEvent) : Prop :=
  NoFailure event ∧ ok pool event

/-- The next tick that picks a fully answered sub-job completes it, and no tick ever fails it for its
deadline, in runs without repository failures whose steps all meet `ok`. -/
def AnsweredCompletes (registry : ServiceScalerRegistry) (ok : System → SystemEvent → Prop) : Prop :=
  ∀ ⦃source middle before : System⦄ ⦃opening first : List SystemEvent⦄ ⦃id : Uuid⦄, Initial source →
    Run (platform registry) (Faultless ok) source opening middle → FullyAnswered middle.world id →
    Run (platform registry) (Faultless ok) middle first before →
    (∀ position subJob after target second task, subJob.id = id → (∀ event ∈ first, ¬ Picks id event) →
      Run (platform registry) (Faultless ok) before [.call position ⟨.sql .getFirstUnfinishedSubJob, .ok subJob⟩] after →
      Run (platform registry) (Faultless ok) after second target →
      target.tasks[position]? = some task → ¬ task.InFlight →
      ⟨.sql (.updateSubJobStatus id .completed), .ok ()⟩ ∈ task.log) ∧
    ∀ position done target, ¬ Step (platform registry) before
      (.call position ⟨.sql (.updateSubJobStatusWithError id .failed "Deadline passed"), .ok done⟩) target

/-- Answered sub-jobs are picked as started ones, and checked in time. -/
structure InTime (pool : System) (event : SystemEvent) : Prop where
  /-- a tick that picks an answered sub-job does not find it pending -/
  picks : ∀ position subJob, event = .call position ⟨.sql .getFirstUnfinishedSubJob, .ok subJob⟩ →
    Answered pool.world subJob.id → subJob.status ≠ .pending
  /-- a tick that has picked an answered sub-job reads a clock that is not past the deadline -/
  reads : ∀ position task subJob deadline reading, event = .call position ⟨.now, reading⟩ →
    pool.tasks[position]? = some task → pickedIn task.log = some subJob → subJob.deadlineAt = some deadline →
    Answered pool.world subJob.id → reading ≤ deadline
  /-- no result is saved in time after the tick in flight has read a clock past the deadline -/
  saves : ∀ position result done task subJob deadline reading,
    event = .call position ⟨.sql (.saveData result), .ok done⟩ → task ∈ pool.tasks → task.kind = .subJobTick →
    task.InFlight → pickedIn task.log = some subJob → subJob.id = result.subJobId →
    subJob.deadlineAt = some deadline → ⟨.now, reading⟩ ∈ task.log → deadline < reading → deadline < pool.world.now

variable {registry : ServiceScalerRegistry} {source target : System} {event : SystemEvent}

/-! ## Answered sub-jobs stay answered -/

/-- The number of workers and the deadline stay, once there is a deadline. -/
theorem dated_step (sound : Sound source) (dated : Dated source) (step : Step (platform registry) source event target)
    {id : Uuid} {row : SubJobRow} (found : source.world.subJobs.find? id = some row) (measuring : row.type = .combinedDHP)
    (deadline : row.deadlineAt.isSome) :
    ∃ later, target.world.subJobs.find? id = some later ∧ later.type = row.type ∧ later.deadlineAt = row.deadlineAt ∧
      later.details.get? "workers_count" = row.details.get? "workers_count" := by
  have dispatched {position : ℕ} {phase : JobPhase} {subJob : SubJobWithJob}
      (here : At source position .subJobTick phase) (held : phase.snapshot = some subJob)
      (created : subJob.status = .created) (own : row.id = subJob.id) : False := by
    apply (dated id row found deadline).2
    rw [← subJob_id found, own]
    exact here.dispatching held created
  obtain ⟨later, found', rfl | ⟨test, change, write, tested, rfl⟩⟩ := subJob_step sound.tracks step found
  · exact ⟨later, found', rfl, rfl, rfl⟩
  · refine ⟨_, found', (write.fixed row).2.2.1, ?_⟩
    cases write with
    | recorded here _ created => exact (dispatched here rfl created (of_decide_eq_true tested)).elim
    | pended here _ created => exact (dispatched here rfl created (of_decide_eq_true tested)).elim
    | scaled here _ created => exact (dispatched here rfl created (of_decide_eq_true tested)).elim
    | failed => exact ⟨rfl, Json.get?_set_ne _ _ (by decide)⟩
    | unneeded | reached | completed | begun | canceled => exact ⟨rfl, rfl⟩

theorem AnsweredWith.step (sound : Sound source) (dated : Dated source) {id : Uuid} {deadline : DateTime}
    {workersCount : ℕ} (answered : AnsweredWith source.world id deadline workersCount)
    (step : Step (platform registry) source event target) : AnsweredWith target.world id deadline workersCount := by
  obtain ⟨row, found, measuring, due, expected, enough⟩ := answered
  obtain ⟨later, found', type, deadlineAt, counted⟩ := dated_step sound dated step found measuring (by rw [due]; rfl)
  refine ⟨later, found', type.trans measuring, deadlineAt.trans due, by rw [counted, expected], ?_⟩
  have grows := ((dataOf_grows sound.tracks step id).filter fun result => decide (result.createdAt ≤ deadline)).length_le
  exact enough.trans grows

/-- A sub-job whose row does not change is answered by a result that is saved in time. -/
theorem answered_before (sound : Sound source) (step : Step (platform registry) source event target) {id : Uuid}
    {row later : SubJobRow} (found : source.world.subJobs.find? id = some row)
    (found' : target.world.subJobs.find? id = some later) (details : later.details = row.details)
    (deadlineAt : later.deadlineAt = row.deadlineAt) {deadline : DateTime} {workersCount : ℕ}
    (answered : AnsweredWith target.world id deadline workersCount) :
    AnsweredWith source.world id deadline workersCount ∨ ∃ position result done,
      event = .call position ⟨.sql (.saveData result), .ok done⟩ ∧ result.subJobId = id ∧
        source.world.now ≤ deadline := by
  obtain ⟨same, found'', measuring, due, expected, enough⟩ := answered
  obtain rfl : later = same := Option.some.inj (found'.symm.trans found'')
  have type : later.type = row.type := by
    obtain ⟨same, found'', -, kept⟩ := subJob_kept sound.tracks step found
    rw [Option.some.inj (found'.symm.trans found'')]
    exact kept
  have before (few : (target.world.dataOf id).filter (fun result => decide (result.createdAt ≤ deadline)) =
      (source.world.dataOf id).filter fun result => decide (result.createdAt ≤ deadline)) :
      AnsweredWith source.world id deadline workersCount :=
    ⟨row, found, type.symm.trans measuring, deadlineAt.symm.trans due, details ▸ expected, few ▸ enough⟩
  obtain same | ⟨position, result, done, saves, added⟩ := dataOf_step sound.tracks step
  · exact .inl (before (by rw [same id]))
  · by_cases saved : result.subJobId = id ∧ source.world.now ≤ deadline
    · exact .inr ⟨position, result, done, saves, saved⟩
    · left
      apply before
      rw [added id, List.filter_append]
      by_cases own : result.subJobId = id
      · have late : ¬ source.world.now ≤ deadline := fun inTime => saved ⟨own, inTime⟩
        simp [own, Stmt.savedRow, late]
      · simp [own]

/-! ## Late ticks -/

theorem CheckPhase.late_note {phase : CheckPhase} {made : Act} {subJob : SubJobWithJob}
    (late : phase.note made = .late subJob) :
    phase = .late subJob ∨ ∃ deadline reading, phase = .picked subJob ∧ made = ⟨.now, reading⟩ ∧
      subJob.deadlineAt = some deadline ∧ deadline < reading := by
  unfold CheckPhase.note at late
  split at late <;> grind [Option.any_eq_true]

/-- A late tick has logged a reading of the clock past its deadline. -/
theorem reading_of_late {log : List Act} {subJob : SubJobWithJob}
    (late : log.foldl CheckPhase.note .searching = .late subJob) :
    ∃ deadline reading, subJob.deadlineAt = some deadline ∧ ⟨.now, reading⟩ ∈ log ∧ deadline < reading := by
  induction log using List.reverseRecOn with
  | nil => cases late
  | append_singleton log made ih =>
    rw [List.foldl_append] at late
    rcases CheckPhase.late_note late with before | ⟨deadline, reading, -, rfl, due, passed⟩
    · obtain ⟨deadline, reading, due, logged, passed⟩ := ih before
      exact ⟨deadline, reading, due, List.mem_append_left _ logged, passed⟩
    · exact ⟨deadline, reading, due, List.mem_append_right _ (List.mem_singleton.mpr rfl), passed⟩

/-- A tick in a phase of the check with a snapshot has picked it. -/
theorem picked_of_check {pool : System} {position : ℕ} {phase : CheckPhase} {subJob : SubJobWithJob}
    (here : checkMonitor.At pool position .subJobTick phase) (held : phase.snapshot = some subJob) :
    ∃ task, pool.tasks[position]? = some task ∧ task.kind = .subJobTick ∧ task.InFlight ∧
      pickedIn task.log = some subJob ∧ task.log.foldl CheckPhase.note .searching = phase := by
  obtain ⟨⟨kind, log, rest⟩, present, flying, tick, rfl⟩ := here
  obtain rfl : kind = .subJobTick := tick
  obtain starts | ⟨-, picked⟩ := CheckPhase.picking.picked_of_snapshot held
  · cases starts
  · exact ⟨_, present, rfl, flying, picked, rfl⟩

/-- A tick that has read a clock past the deadline holds a sub-job that is not answered. -/
def LateUnanswered (pool : System) : Prop :=
  ∀ position subJob, checkMonitor.At pool position .subJobTick (.late subJob) → ¬ Answered pool.world subJob.id

theorem LateUnanswered.step (sound : Sound source) (checks : checkMonitor.TracksAll source) (reads : Reads source)
    (late : LateUnanswered source) (inTime : InTime source event) (step : Step (platform registry) source event target) :
    LateUnanswered target := by
  rintro position subJob here ⟨deadline, workersCount, answered⟩
  obtain ⟨old, silent⟩ | ⟨-, starts⟩ | ⟨before, op, reply, old, legal, rfl, noted, allowed, reached⟩ :=
    Monitor.At.before checks step here
  · obtain ⟨job, held, rfl⟩ := at_of_check checks old
    obtain ⟨job', held', rfl⟩ := at_of_check (checks.step (checkMonitor_covers registry) step) here
    obtain ⟨row, found, details, due⟩ := reads.row position _ _ subJob held rfl
    obtain ⟨later, found', details', due'⟩ := (reads.step sound step).row position _ _ subJob held' rfl
    have same : later.details = row.details := details'.trans details.symm
    obtain before | ⟨saver, result, done, saves, own, now⟩ :=
      answered_before sound step found found' same (due'.trans due.symm) answered
    · exact late position subJob old ⟨deadline, workersCount, before⟩
    · obtain ⟨other, found'', -, due'', -⟩ := answered
      obtain rfl : later = other := Option.some.inj (found'.symm.trans found'')
      obtain ⟨task, present, tick, flying, picked, phase⟩ := picked_of_check old rfl
      obtain ⟨deadline', reading, dueBy, logged, passed⟩ := reading_of_late phase
      obtain rfl : deadline = deadline' := Option.some.inj (due''.symm.trans (due'.trans dueBy))
      have past := inTime.saves saver result done task subJob deadline reading saves (List.mem_of_getElem? present) tick
        flying picked own.symm dueBy logged passed
      exact absurd now (not_le.mpr past)
  · cases starts
  · rcases CheckPhase.late_note noted.symm with rfl | ⟨deadline', reading, rfl, made, due, passed⟩
    · cases legal
      cases noted
    · cases made
      obtain ⟨task, present, -, -, picked, -⟩ := picked_of_check old rfl
      rw [reached] at answered
      have onTime := inTime.reads position task subJob deadline' reading rfl present picked due
        ⟨deadline, workersCount, answered⟩
      exact absurd onTime (not_le.mpr passed)

/-- What holds in every run with timely checks. -/
structure Punctual (pool : System) : Prop where
  checks : checkMonitor.TracksAll pool
  reads : Reads pool
  dated : Dated pool
  late : LateUnanswered pool

theorem Punctual.step (sound : Sound source) (punctual : Punctual source) (inTime : InTime source event)
    (step : Step (platform registry) source event target) : Punctual target where
  checks := punctual.checks.step (checkMonitor_covers registry) step
  reads := punctual.reads.step sound step
  dated := punctual.dated.step sound step
  late := punctual.late.step sound punctual.checks punctual.reads inTime step

theorem Punctual.of_initial {pool : System} (initial : Initial pool) : Punctual pool where
  checks := Monitor.tracksAll_of_empty initial.tasks
  reads := Reads.of_initial initial
  dated := Dated.of_initial initial
  late := by
    rintro position subJob ⟨task, present, -⟩
    simp [initial.tasks] at present

theorem workersCountOf_error_ne {subJob : SubJobWithJob} :
    workersCountOf subJob ≠ .error (.failedJob "Deadline passed") := by
  unfold workersCountOf
  split
  · simp
  · split <;> simp

/-- A tick that fails an answered sub-job for its deadline has found it late. -/
theorem late_of_fails {pool : System} (sound : Sound pool) (punctual : Punctual pool) {position : ℕ} {id : Uuid}
    {message : String} {done : Unit} (answered : Answered pool.world id) (expired : message = "Deadline passed")
    (fails : Step (platform registry) pool
      (.call position ⟨.sql (.updateSubJobStatusWithError id .failed message), .ok done⟩) target) :
    ∃ subJob, subJob.id = id ∧ checkMonitor.At pool position .subJobTick (.late subJob) := by
  obtain ⟨kind, phase, here, legal, -, -⟩ := punctual.checks.legal fails
  obtain ⟨kind', job, here', legal', -, -⟩ := legal_of_call sound.tracks fails
  cases legal' with
  | quiet quiet => exact quiet.elim
  | @fail _ subJob _ failable =>
    have held := failable.snapshot
    obtain rfl : kind = .subJobTick := here.flies.unique here'.flies
    obtain ⟨job', here'', agrees⟩ := at_of_check punctual.checks here
    obtain ⟨-, rfl⟩ := here'.unique here''
    have legal : CheckLegal phase (.sql (.updateSubJobStatusWithError subJob.id .failed message)) := legal
    generalize fails : Op.sql (.updateSubJobStatusWithError subJob.id .failed message) = op at legal
    cases legal with
    | aside => exact agrees.elim
    | pick | check | collect | complete => cases fails
    | @other other _ elsewhere =>
      refine absurd ?_ elsewhere
      obtain ⟨deadline, workersCount, row, found, measuring, due, -⟩ := answered
      obtain same | ends := agrees
      · obtain rfl : subJob = other := Option.some.inj (held.symm.trans same)
        obtain ⟨-, row', found', -, type⟩ := sound.known position _ job subJob here' held
        obtain rfl : row = row' := Option.some.inj (found.symm.trans found')
        refine ⟨type.symm.trans measuring, ?_⟩
        have idle := (punctual.dated subJob.id row found (by rw [due]; rfl)).2
        have unfinished := punctual.reads.status position _ job subJob here' held
        have notCreated : subJob.status ≠ .created := fun created => idle (here'.dispatching held created)
        revert unfinished notCreated
        cases subJob.status <;> decide
      · rw [ends] at held
        cases held
    | undated =>
      simp only [Op.sql.injEq, Stmt.updateSubJobStatusWithError.injEq] at fails
      simp [expired] at fails
    | @late other =>
      simp only [Op.sql.injEq, Stmt.updateSubJobStatusWithError.injEq] at fails
      exact ⟨other, fails.1.symm, here⟩
    | @uncounted other message' uncounted =>
      simp only [Op.sql.injEq, Stmt.updateSubJobStatusWithError.injEq] at fails
      obtain ⟨-, -, rfl⟩ := fails
      rw [expired] at uncounted
      exact absurd uncounted workersCountOf_error_ne
    | close =>
      rcases agrees with rfl | rfl | rfl <;> obtain failable | ⟨workers, failable⟩ | failable := failable <;>
        cases failable

/-! ## Ticks on course -/

/-- The phases in which a tick is about to complete a sub-job that expects so many workers. -/
def OnCourse (subJob : SubJobWithJob) (workersCount : ℕ) : CheckPhase → Prop
  | .picked other | .onTime other => other = subJob
  | .collected other data => other = subJob ∧ workersCount ≤ data.length
  | _ => False

theorem OnCourse.snapshot {subJob : SubJobWithJob} {workersCount : ℕ} {phase : CheckPhase}
    (course : OnCourse subJob workersCount phase) : phase.snapshot = some subJob := by
  cases phase with
  | picked other | onTime other => exact congrArg some course
  | collected other data => exact congrArg some course.1
  | _ => exact course.elim

/-- The task at a position is a tick on course, or has completed the sub-job. -/
def Completing (pool : System) (position : ℕ) (subJob : SubJobWithJob) (workersCount : ℕ) : Prop :=
  ∃ task, pool.tasks[position]? = some task ∧ task.kind = .subJobTick ∧
    (OnCourse subJob workersCount (checkMonitor.phase task) ∨
      ⟨.sql (.updateSubJobStatus subJob.id .completed), .ok ()⟩ ∈ task.log)

/-- A started sub-job with a deadline and a number of workers. -/
structure Expecting (subJob : SubJobWithJob) (deadline : DateTime) (workersCount : ℕ) : Prop where
  started : subJob.status = .processing
  due : subJob.deadlineAt = some deadline
  expected : workersCountOf subJob = .ok workersCount

theorem Completing.step (checks : checkMonitor.TracksAll source) (noFailure : NoFailure event)
    (inTime : InTime source event) (step : Step (platform registry) source event target) {position : ℕ}
    {subJob : SubJobWithJob} {deadline : DateTime} {workersCount : ℕ} (expecting : Expecting subJob deadline workersCount)
    (answered : AnsweredWith source.world subJob.id deadline workersCount)
    (completing : Completing source position subJob workersCount) : Completing target position subJob workersCount := by
  obtain ⟨task, present, tick, course⟩ := completing
  obtain same | ⟨op, next, reply, awaits, rfl, allowed, later⟩ := step.task_after present
  · exact ⟨task, same, tick, course⟩
  · refine ⟨_, later, tick, ?_⟩
    rcases course with course | logged
    · have legal : CheckLegal (checkMonitor.phase task) op := (checks position task present).legal awaits
      have here : checkMonitor.At source position .subJobTick (checkMonitor.phase task) :=
        ⟨task, present, ⟨op, next, awaits⟩, tick, rfl⟩
      obtain ⟨other, present', -, -, picked, -⟩ := picked_of_check here course.snapshot
      obtain rfl : task = other := Option.some.inj (present.symm.trans present')
      rw [checkMonitor.phase_concat task.kind task.log ⟨op, reply⟩ task.rest (next reply)]
      generalize checkMonitor.phase task = phase at course legal
      cases legal with
      | aside | pick | other | late | close => exact course.elim
      | check dated =>
        obtain rfl := course
        have onTime := inTime.reads position task _ deadline reply rfl present picked expecting.due
          ⟨deadline, workersCount, answered⟩
        left
        simp [checkMonitor, CheckPhase.note, expecting.due, not_lt.mpr onTime, OnCourse]
      | undated undated =>
        obtain rfl := course
        have due := expecting.due
        rw [undated] at due
        cases due
      | uncounted uncounted =>
        obtain rfl := course
        have expected := expecting.expected
        rw [uncounted] at expected
        cases expected
      | collect =>
        obtain rfl := course
        obtain ⟨data, rfl⟩ := noFailure.ok allowed id
        have read : data.Perm (source.world.dataOf _) := allowed
        obtain ⟨row, -, -, -, -, enough⟩ := answered
        refine .inl ⟨rfl, ?_⟩
        rw [read.length_eq]
        exact enough.trans (List.length_filter_le ..)
      | complete =>
        obtain ⟨rfl, -⟩ := course
        obtain ⟨done, rfl⟩ := noFailure.ok allowed id
        exact .inr (List.mem_append_right _ (List.mem_singleton.mpr rfl))
    · exact .inr (List.mem_append_left _ logged)

/-- A tick on course that has returned has completed the sub-job. -/
theorem Completing.completed {pool : System} (checks : checkMonitor.TracksAll pool) {position : ℕ}
    {subJob : SubJobWithJob} {deadline : DateTime} {workersCount : ℕ} (expecting : Expecting subJob deadline workersCount)
    (completing : Completing pool position subJob workersCount) {task : SystemTask}
    (present : pool.tasks[position]? = some task) (returned : ¬ task.InFlight) :
    ⟨.sql (.updateSubJobStatus subJob.id .completed), .ok ()⟩ ∈ task.log := by
  obtain ⟨other, present', -, course | logged⟩ := completing
  · obtain rfl : task = other := Option.some.inj (present.symm.trans present')
    have ended : (checkMonitor.phase task).Final := (checks position task present).ended returned
    generalize checkMonitor.phase task = phase at course ended
    cases phase with
    | picked => exact ended.elim
    | onTime =>
      obtain rfl := course
      have pending : _ = SubJobStatus.pending := ended
      rw [expecting.started] at pending
      cases pending
    | collected =>
      obtain ⟨rfl, enough⟩ := course
      have few := ended workersCount expecting.expected
      omega
    | _ => exact course.elim
  · obtain rfl : task = other := Option.some.inj (present.symm.trans present')
    exact logged

/-- A tick that picks an answered sub-job finds it started and is on course. -/
theorem completing_of_pick (sound : Sound source) (punctual : Punctual source) {position : ℕ} {subJob : SubJobWithJob}
    (inTime : InTime source (.call position ⟨.sql .getFirstUnfinishedSubJob, .ok subJob⟩))
    (step : Step (platform registry) source (.call position ⟨.sql .getFirstUnfinishedSubJob, .ok subJob⟩) target)
    {deadline : DateTime} {workersCount : ℕ} (answered : AnsweredWith source.world subJob.id deadline workersCount) :
    Expecting subJob deadline workersCount ∧ Completing target position subJob workersCount := by
  have pending := inTime.picks position subJob rfl ⟨deadline, workersCount, answered⟩
  obtain ⟨row, found, measuring, due, expected, -⟩ := answered
  obtain ⟨kind, phase, here, legal, -, -⟩ := punctual.checks.legal step
  obtain ⟨kind', job, here', legal', allowed, -⟩ := legal_of_call sound.tracks step
  obtain ⟨row', found', first, same⟩ := picked_row allowed
  obtain rfl : row = row' := Option.some.inj (found.symm.trans found')
  have status : subJob.status = row.status := congrArg SubJob.status same
  have processing : subJob.status = .processing := by
    have notCreated := (punctual.dated subJob.id row found (by rw [due]; rfl)).1
    have unfinished := first.2.1
    rw [← status] at notCreated unfinished
    revert unfinished notCreated pending
    cases subJob.status <;> decide
  have expecting : Expecting subJob deadline workersCount :=
    ⟨processing, (congrArg SubJob.deadlineAt same).trans due,
      workersCountOf_eq_ok_iff.mpr (by rw [congrArg SubJob.details same, expected])⟩
  refine ⟨expecting, ?_⟩
  obtain ⟨rfl, rfl⟩ : kind' = .subJobTick ∧ job = .searching := by
    cases legal' with
    | quiet quiet => exact quiet.elim
    | pick => exact ⟨rfl, rfl⟩
  obtain rfl : kind = .subJobTick := here.flies.unique here'.flies
  obtain ⟨job', here'', agrees⟩ := at_of_check punctual.checks here
  obtain ⟨-, rfl⟩ := here'.unique here''
  have searching : phase = .searching := by
    have legal : CheckLegal phase (.sql .getFirstUnfinishedSubJob) := legal
    cases legal with
    | aside => exact agrees.elim
    | pick => rfl
    | other => obtain held | ends := agrees <;> contradiction
    | close => obtain ends | ends | ends := agrees <;> cases ends
  subst searching
  have measuring : subJob.Measuring :=
    ⟨(congrArg SubJob.type same).trans measuring, by rw [processing]; decide⟩
  have noted : CheckPhase.note .searching ⟨.sql .getFirstUnfinishedSubJob, .ok subJob⟩ = .picked subJob :=
    if_pos measuring
  obtain ⟨task, present, -, tick, reached⟩ | ended := here.after (checkMonitor_covers registry) punctual.checks step
  · refine ⟨task, present, tick, .inl ?_⟩
    rw [reached.trans noted]
    rfl
  · have ended : (CheckPhase.note .searching ⟨.sql .getFirstUnfinishedSubJob, .ok subJob⟩).Final := ended
    rw [noted] at ended
    exact ended.elim

theorem answeredCompletes_of_inTime (registry : ServiceScalerRegistry) : AnsweredCompletes registry InTime := by
  intro source middle before opening first id initial opens full run
  obtain ⟨⟨deadline, workersCount, answered⟩, -⟩ := full
  obtain ⟨sound, punctual⟩ := sound_invariant (I := Punctual) opens
    (fun sound punctual ok step => punctual.step sound ok.2 step) (Sound.of_initial initial) (Punctual.of_initial initial)
  have kept {id : Uuid} {pool next : System} {event : SystemEvent} (sound : Sound pool)
      (both : Punctual pool ∧ AnsweredWith pool.world id deadline workersCount) (ok : Faultless InTime pool event)
      (step : Step (platform registry) pool event next) :
      Punctual next ∧ AnsweredWith next.world id deadline workersCount :=
    ⟨both.1.step sound ok.2 step, both.2.step sound both.1.dated step⟩
  obtain ⟨sound, punctual, answered⟩ := sound_invariant
    (I := fun pool => Punctual pool ∧ AnsweredWith pool.world id deadline workersCount) run
    (fun sound both ok step => kept sound both ok step) sound ⟨punctual, answered⟩
  constructor
  · rintro position subJob after target second task rfl - picks rest present returned
    cases picks with
    | cons ok step none =>
      cases none
      obtain ⟨expecting, completing⟩ := completing_of_pick sound punctual ok.2 step answered
      obtain ⟨-, both, completing⟩ := sound_invariant
        (I := fun pool => (Punctual pool ∧ AnsweredWith pool.world subJob.id deadline workersCount) ∧
          Completing pool position subJob workersCount) rest
        (fun sound ⟨both, completing⟩ ok step =>
          ⟨kept sound both ok step, completing.step both.1.checks ok.1 ok.2 step expecting both.2⟩)
        (sound.step step) ⟨kept sound ⟨punctual, answered⟩ ok step, completing⟩
      exact completing.completed both.1.checks expecting present returned
  · intro position done target fails
    obtain ⟨subJob, rfl, late⟩ := late_of_fails sound punctual ⟨deadline, workersCount, answered⟩ rfl fails
    exact punctual.late position subJob late ⟨deadline, workersCount, answered⟩

/-! ## Runs -/

instance (w : World) (id : Uuid) (deadline : DateTime) (workersCount : ℕ) :
    Decidable (AnsweredWith w id deadline workersCount) :=
  match found : w.subJobs.find? id with
  | none => .isFalse fun ⟨row, found', _⟩ => by
    rw [found] at found'
    cases found'
  | some row => decidable_of_iff (row.type = .combinedDHP ∧ row.deadlineAt = some deadline ∧
      (row.details.get? "workers_count").bind Json.asU64? = some workersCount ∧
      workersCount ≤ ((w.dataOf id).filter fun result => result.createdAt ≤ deadline).length) (by
    constructor
    · exact fun answered => ⟨row, found, answered⟩
    · rintro ⟨row', found', answered⟩
      obtain rfl : row = row' := Option.some.inj (found.symm.trans found')
      exact answered)

/-- Sub-job 3 has been started or is pending, and its one worker has answered in time. -/
def isFullyAnswered (w : World) : Bool :=
  decide (AnsweredWith w 3 (Duration.seconds 135) 1) && (w.subJobs.find? 3).any fun row => decide row.status.Active

theorem fullyAnswered_of_is {w : World} (is : isFullyAnswered w = true) : FullyAnswered w 3 := by
  obtain ⟨answered, known⟩ := (Bool.and_eq_true ..).mp is
  obtain ⟨row, found, active⟩ := (Option.any_eq_true ..).mp known
  exact ⟨⟨_, _, of_decide_eq_true answered⟩, row, found, of_decide_eq_true active⟩

/-- No repository call fails, no pending sub-job is picked, no tick reads a clock past its deadline and
results are saved between the ticks. -/
def checksInTime (pool : System) (event : SystemEvent) : Bool :=
  succeeds pool event && match event with
    | .call _ ⟨.sql .getFirstUnfinishedSubJob, .ok subJob⟩ => decide (subJob.status ≠ .pending)
    | .call position ⟨.now, reading⟩ => (pool.tasks[position]?.bind fun task => pickedIn task.log).all fun subJob =>
        subJob.deadlineAt.all fun deadline => decide (reading ≤ deadline)
    | .call _ ⟨.sql (.saveData _), _⟩ => idle Kind.isTick pool
    | _ => true

theorem faultless_of_checksInTime {pool : System} {event : SystemEvent} (check : checksInTime pool event = true) :
    Faultless InTime pool event := by
  obtain ⟨succeeds, check⟩ := (Bool.and_eq_true ..).mp check
  refine ⟨noFailure_of_succeeds succeeds, ?_, ?_, ?_⟩
  · rintro position subJob rfl -
    exact of_decide_eq_true check
  · rintro position task subJob deadline reading rfl present picked due -
    have all : ((pool.tasks[position]?.bind fun task => pickedIn task.log).all fun subJob =>
      subJob.deadlineAt.all fun deadline => decide (reading ≤ deadline)) = true := check
    rw [present, Option.bind_some, picked, Option.all_some, due, Option.all_some] at all
    exact of_decide_eq_true all
  · rintro position result done task subJob deadline reading rfl member tick flying
    have still : idle Kind.isTick pool = true := check
    exact absurd flying (not_inFlight_of_idle still member (by rw [tick]; rfl))

/-- A step in which the task at a position picks sub-job 3. -/
def picksThird (position : ℕ) : SystemEvent → Bool
  | .call other ⟨.sql .getFirstUnfinishedSubJob, .ok subJob⟩ => decide (other = position ∧ subJob.id = 3)
  | _ => false

theorem of_picksThird {position : ℕ} {event : SystemEvent} (picks : picksThird position event = true) :
    ∃ subJob, subJob.id = 3 ∧ event = .call position ⟨.sql .getFirstUnfinishedSubJob, .ok subJob⟩ := by
  unfold picksThird at picks
  split at picks
  · obtain ⟨rfl, own⟩ := of_decide_eq_true picks
    exact ⟨_, own, rfl⟩
  · cases picks

/-- Sub-job 3 has been started and its worker has answered; the tick at position 7 has not picked it. -/
def startedAndAnswered : List Move :=
  announcedStart ++ startProcessed 4 ++ [.clock (Duration.seconds 10)] ++ received sampleWorker 5 3 ++
    saved (lateAnswer 7 "w1") 6 ++ [.start .subJobTick]

/-- The tick picks the started sub-job and completes it. -/
theorem answeredCompletes_started : ∃ opening middle after second target position subJob task,
    Run (platform ⟨false⟩) (Faultless InTime) (sampleSystem .online) opening middle ∧
      FullyAnswered middle.world 3 ∧ subJob.id = 3 ∧
      Run (platform ⟨false⟩) (Faultless InTime) middle
        [.call position ⟨.sql .getFirstUnfinishedSubJob, .ok subJob⟩] after ∧
      Run (platform ⟨false⟩) (Faultless InTime) after second target ∧ target.tasks[position]? = some task ∧
      ¬ task.InFlight ∧ ⟨.sql (.updateSubJobStatus 3 .completed), .ok ()⟩ ∈ task.log := by
  have replayed : ((replay ⟨false⟩ checksInTime (sampleSystem .online) startedAndAnswered).any fun middle =>
      isFullyAnswered middle.world && (move ⟨false⟩ middle (.go 7)).any fun picked =>
        picksThird 7 picked.1 && checksInTime middle picked.1 &&
          (replay ⟨false⟩ checksInTime picked.2 (goTimes 7 4)).any fun target =>
            target.tasks[7]?.any fun task => !decide task.InFlight) = true := by
    decide +kernel
  obtain ⟨opening, middle, opens, found⟩ := exists_run_of_replay replayed
  obtain ⟨full, found⟩ := (Bool.and_eq_true ..).mp found
  obtain ⟨⟨event, after⟩, moved, found⟩ := (Option.any_eq_true ..).mp found
  simp only [Bool.and_eq_true] at found
  obtain ⟨⟨picks, check⟩, found⟩ := found
  obtain ⟨subJob, own, rfl⟩ := of_picksThird picks
  obtain ⟨second, target, rest, found⟩ := exists_run_of_replay found
  obtain ⟨task, present, returned⟩ := (Option.any_eq_true ..).mp found
  have opens' := opens.mono fun _ _ => faultless_of_checksInTime
  have rest' := rest.mono fun _ _ => faultless_of_checksInTime
  have full' := fullyAnswered_of_is full
  have picked : Run (platform ⟨false⟩) (Faultless InTime) middle
      [.call 7 ⟨.sql .getFirstUnfinishedSubJob, .ok subJob⟩] after :=
    .cons (faultless_of_checksInTime check) (step_of_move moved) (.nil _)
  have returned' : ¬ task.InFlight := by simpa using returned
  exact ⟨opening, middle, after, second, target, 7, subJob, task, opens', full', own, picked, rest', present, returned',
    (answeredCompletes_of_inTime ⟨false⟩ (initial_sampleSystem .online) opens' full' (.nil _)).1 7 subJob after target
      second task own (fun _ member => absurd member List.not_mem_nil) picked rest' present returned'⟩

/-- The worker receives the message of sub-job 3 after the start time, and its answer is saved. -/
def pendingAndAnswered : List Move :=
  sampleCreation ++ sampleTick 1 7 ++ sampleTick 2 7 ++ [.clock (Duration.seconds 10)] ++ received sampleWorker 3 3 ++
    saved (lateAnswer 6 "w1") 4

/-- The next call of a task fails sub-job 3 for its deadline. -/
def failsNext (pool : System) (position : ℕ) : Bool :=
  match pool.tasks[position]? with
  | some ⟨_, _, .call (.sql (.updateSubJobStatusWithError id .failed message)) _⟩ =>
    decide (id = 3 ∧ message = "Deadline passed")
  | _ => false

theorem step_of_failsNext {pool : System} {position : ℕ} (fails : failsNext pool position = true) :
    ∃ target, Step (platform registry) pool
      (.call position ⟨.sql (.updateSubJobStatusWithError 3 .failed "Deadline passed"), .ok ()⟩) target := by
  unfold failsNext at fails
  split at fails
  · next present =>
    obtain ⟨rfl, rfl⟩ := of_decide_eq_true fails
    exact ⟨_, .call present rfl trivial⟩
  · cases fails

theorem not_answeredCompletes :
    ¬ AnsweredCompletes ⟨false⟩ fun pool event => spawnsOnly Kind.ofJobs pool event = true := by
  intro completes
  have replayed : ((replay ⟨false⟩ (fun pool event => succeeds pool event && spawnsOnly Kind.ofJobs pool event)
      (sampleSystem .online) pendingAndAnswered).any fun middle => isFullyAnswered middle.world &&
        (replay ⟨false⟩ (fun pool event => succeeds pool event && spawnsOnly Kind.ofJobs pool event) middle
          (.clock (Duration.seconds 200) :: sampleTick 5 2)).any fun before => failsNext before 5) = true := by
    decide +kernel
  obtain ⟨opening, middle, opens, found⟩ := exists_run_of_replay replayed
  obtain ⟨full, found⟩ := (Bool.and_eq_true ..).mp found
  obtain ⟨first, before, run, fails⟩ := exists_run_of_replay found
  have faultless (pool : System) (event : SystemEvent)
      (check : (succeeds pool event && spawnsOnly Kind.ofJobs pool event) = true) :
      Faultless (fun pool event => spawnsOnly Kind.ofJobs pool event = true) pool event := by
    obtain ⟨succeeds, check⟩ := (Bool.and_eq_true ..).mp check
    exact ⟨noFailure_of_succeeds succeeds, check⟩
  obtain ⟨target, step⟩ := step_of_failsNext fails
  exact (completes (initial_sampleSystem .online) (opens.mono faultless) (fullyAnswered_of_is full)
    (run.mono faultless)).2 5 () target step

end Bms
