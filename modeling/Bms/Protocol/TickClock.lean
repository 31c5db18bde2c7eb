import Bms.Protocol.Scaling

/-! # The clock of a tick

A sixth protocol: where the deadlines come from that a tick sets. Each one is counted from what the tick
has last read off the clock, and the deadlines of the services are set before that of the sub-job.
-/

namespace Bms

open Process Fallible

/-- How long after its dispatch a measuring sub-job fails. -/
def measureTime : Duration :=
  Duration.seconds syncDelaySecs + Duration.seconds downloadDelaySecs + Duration.seconds (maxDownloadDurationSecs * 2)

/-- A call that sets no deadline. -/
def Op.Dateless : Op → Prop
  | .sql (.setDescaleDeadlines ..) | .sql (.updateSubJobStatusAndDeadline ..) => False
  | _ => True

/-- A call that neither reads the clock nor sets a deadline. -/
def Op.Timeless : Op → Prop
  | .now | .sql (.setDescaleDeadlines ..) | .sql (.updateSubJobStatusAndDeadline ..) => False
  | _ => True

theorem Op.Timeless.dateless {op : Op} (timeless : op.Timeless) : op.Dateless := by
  unfold Timeless at timeless
  split at timeless <;> first | exact timeless.elim | skip
  unfold Dateless
  split <;> simp_all

/-- Where a task stands with respect to the clock. -/
inductive ClockPhase
  /-- no tick -/
  | aside
  | searching
  /-- a tick that has picked a sub-job, and what it has last read -/
  | picked (subJob : SubJobWithJob) (reading : Option DateTime)
  /-- the deadlines of the services are set, half an hour after this moment -/
  | extended (subJob : SubJobWithJob) (moment : DateTime)

namespace ClockPhase

def start : Kind → ClockPhase
  | .subJobTick => searching
  | _ => aside

/-- The phase after a call. -/
def note : ClockPhase → Act → ClockPhase
  | searching, ⟨.sql .getFirstUnfinishedSubJob, .ok subJob⟩ => picked subJob none
  | picked subJob _, ⟨.now, reading⟩ => picked subJob (some reading)
  | picked subJob _, ⟨.sql (.setDescaleDeadlines _ descaleAt), .ok _⟩ =>
    extended subJob (descaleAt - Duration.seconds serviceDescaleAtDeadlineSec)
  | phase, _ => phase

/-- The sub-job that a tick has picked. -/
def snapshot : ClockPhase → Option SubJobWithJob
  | picked subJob _ | extended subJob _ => some subJob
  | _ => none

/-- What the next deadlines are counted from. -/
def reading : ClockPhase → Option DateTime
  | picked _ reading => reading
  | extended _ moment => some moment
  | _ => none

theorem picking : Picking note snapshot searching where
  held {phase made subJob} held := by
    unfold note at held
    split at held <;> grind [snapshot]
  searches {phase made} searches := by
    unfold note at searches
    split at searches <;> grind

/-- A tick is never aside. -/
theorem foldl_ne_aside (log : List Act) : log.foldl note searching ≠ aside := by
  induction log using List.reverseRecOn with
  | nil => nofun
  | append_singleton log made ih =>
    rw [List.foldl_append, List.foldl_cons, List.foldl_nil]
    generalize log.foldl note searching = phase at ih
    unfold note
    split <;> first | exact ih | nofun

theorem note_eq_extended_iff {phase : ClockPhase} {made : Act} {subJob : SubJobWithJob} {moment : DateTime} :
    phase.note made = extended subJob moment ↔ phase = extended subJob moment ∨
      ∃ reading ids done, phase = picked subJob reading ∧
        made = ⟨.sql (.setDescaleDeadlines ids (moment + Duration.seconds serviceDescaleAtDeadlineSec)), .ok done⟩ := by
  constructor
  · intro noted
    unfold note at noted
    split at noted
    · cases noted
    · cases noted
    · cases noted
      exact .inr ⟨_, _, _, rfl, by rw [sub_add_cancel]⟩
    · exact .inl noted
  · rintro (rfl | ⟨reading, ids, done, rfl, rfl⟩)
    · rfl
    · exact congrArg (extended subJob) (add_sub_cancel_right ..)

/-- What the deadlines are counted from has been read before, or is read now. -/
theorem reading_note {phase : ClockPhase} {made : Act} {reading : DateTime}
    (counts : (phase.note made).reading = some reading) : phase.reading = some reading ∨
      ∃ subJob earlier, phase = picked subJob earlier ∧ (made = ⟨.now, reading⟩ ∨
        ∃ ids descaleAt done, made = ⟨.sql (.setDescaleDeadlines ids descaleAt), .ok done⟩ ∧
          reading = descaleAt - Duration.seconds serviceDescaleAtDeadlineSec) := by
  unfold note at counts
  split at counts
  · cases counts
  · cases counts
    exact .inr ⟨_, _, rfl, .inl rfl⟩
  · cases counts
    exact .inr ⟨_, _, rfl, .inr ⟨_, _, _, rfl, rfl⟩⟩
  · exact .inl counts

end ClockPhase

/-- The calls that a task may make in a phase of the clock. -/
inductive ClockLegal : ClockPhase → Op → Prop
  | aside {op : Op} : ClockLegal .aside op
  | free {phase : ClockPhase} {op : Op} (free : op.Dateless) : ClockLegal phase op
  | extend {subJob : SubJobWithJob} {reading descaleAt : DateTime} {ids : List Uuid} (created : subJob.status = .created)
      (later : descaleAt = reading + Duration.seconds serviceDescaleAtDeadlineSec) :
      ClockLegal (.picked subJob (some reading)) (.sql (.setDescaleDeadlines ids descaleAt))
  | scaled {subJob : SubJobWithJob} {moment deadline : DateTime} {id : Uuid} (own : id = subJob.id) :
      ClockLegal (.extended subJob moment) (.sql (.updateSubJobStatusAndDeadline id .processing deadline))
  | pend {subJob : SubJobWithJob} {reading deadline : DateTime} {id : Uuid} (later : deadline = reading + measureTime) :
      ClockLegal (.picked subJob (some reading)) (.sql (.updateSubJobStatusAndDeadline id .pending deadline))

def clockMonitor : Monitor Calls Kind ClockPhase where
  start := ClockPhase.start
  note := ClockPhase.note
  legal _ := ClockLegal
  ended _ _ := True

/-! ## The programs obey it -/

section Tick

variable {registry : ServiceScalerRegistry} {subJob : SubJobWithJob} {phase : ClockPhase} {ε α β : Type}

/-- A part of a tick, from a phase on. -/
abbrev Clocked (program : Fallible Calls ε α) (phase : ClockPhase) : Prop :=
  program.Obeys ClockPhase.note ClockLegal phase (fun _ _ => True) fun _ _ => True

/-- A program that sets no deadline may run in any phase. -/
theorem clocked_of_only {program : Fallible Calls ε α} (only : program.Only Op.Dateless) :
    Clocked program phase :=
  Prog.Obeys.mono (Prog.Only.keeps (fun _ => True) only (fun _ _ _ free => ⟨.free free, fun _ => trivial⟩) trivial)
    fun outcome _ _ => by cases outcome <;> trivial

/-- A first part without deadlines and without the clock leaves the phase alone. -/
theorem Clocked.timelessly {program : Fallible Calls ε α} {rest : α → Fallible Calls ε β} (only : program.Only Op.Timeless)
    (picks : phase ≠ .searching) (next : ∀ value, Clocked (rest value) phase) : Clocked (program >>= rest) phase := by
  have kept (op : Op) (timeless : op.Timeless) : ClockLegal phase op ∧ ∀ reply, phase.note ⟨op, reply⟩ = phase := by
    refine ⟨.free timeless.dateless, fun reply => ?_⟩
    cases phase with
    | aside | extended => rfl
    | searching => exact absurd rfl picks
    | picked picked reading =>
      cases op with
      | now => exact timeless.elim
      | sql stmt => cases stmt <;> first | rfl | exact timeless.elim
      | _ => rfl
  refine (obeys_bind ..).mpr (Prog.Obeys.mono (Prog.Only.obeys only kept) fun outcome reached same => ?_)
  subst same
  cases outcome with
  | ok value => exact next value
  | error e => trivial

theorem settle_clocked {step : SubJobStep Unit} (clocked : Clocked step phase) :
    (step.run >>= settle subJob).Obeys ClockPhase.note ClockLegal phase fun _ _ => True := by
  refine Obeys.handle (Obeys.mono clocked (fun _ _ _ => trivial) fun e reached _ => ?_)
  cases e with
  | skip message => trivial
  | failedJob message => exact ⟨.free trivial, fun _ => trivial⟩

theorem timeless_getTopic (subJob : SubJobWithJob) : (getTopic subJob).Only Op.Timeless := by
  unfold getTopic
  split
  · trivial
  · cases Json.asStr? _ with
    | none => exact ⟨trivial, fun reply : Empty => reply.elim⟩
    | some topic => trivial

theorem timeless_getWorkersOnline (topic : String) : (getWorkersOnline topic).Only Op.Timeless :=
  (only_attempt ..).mpr trivial

theorem timeless_getServicesAndWorkers : (getServicesAndWorkers subJob).Only Op.Timeless := by
  refine .bind (timeless_getTopic subJob) fun topic => ?_
  refine .bind (.bind ((only_attempt ..).mpr trivial) fun services => .ite (only_throw _) (only_pure _)) fun services => ?_
  refine .bind (timeless_getWorkersOnline topic) fun workersOnline => ?_
  split <;> trivial

theorem timeless_scaleUpServices (registry : ServiceScalerRegistry) (scaleEachBy : ℕ) (services : List Service) :
    (scaleUpServices registry scaleEachBy services).Only Op.Timeless := by
  induction services with
  | nil => trivial
  | cons service services ih =>
    unfold scaleUpServices
    split
    · trivial
    · refine .bind (.mapError (Prog.Only.mono (provider_scaleUp ..) fun op provider => ?_) _) fun _ => ih
      cases op <;> first | exact provider.elim | trivial

theorem processScalingCreated_clocked (created : subJob.status = .created) :
    Clocked (processScalingCreated registry subJob) (.picked subJob none) := by
  refine Clocked.timelessly timeless_getServicesAndWorkers nofun fun ⟨services, workersOnline, workersCount, scaleEachBy⟩ => ?_
  refine Clocked.timelessly ((only_attempt ..).mpr trivial) nofun fun _ => ?_
  refine (obeys_bind ..).mpr (obeys_utcNow.mpr ⟨.free trivial, fun now => ?_⟩)
  refine (obeys_bind ..).mpr ((obeys_attempt ..).mpr ⟨.extend created rfl, fun reply => ?_⟩)
  cases reply with
  | error e => trivial
  | ok done =>
    refine .ite (fun _ => clocked_of_only ((only_attempt ..).mpr trivial)) fun _ => ?_
    refine Clocked.timelessly (timeless_scaleUpServices ..) nofun fun _ => ?_
    refine (obeys_bind ..).mpr (obeys_utcNow.mpr ⟨.free trivial, fun later => ?_⟩)
    refine (obeys_attempt ..).mpr ⟨.scaled rfl, fun reply => ?_⟩
    cases reply <;> trivial

theorem processStatusCreated_clocked : Clocked (processStatusCreated subJob) (.picked subJob none) := by
  refine (obeys_bind ..).mpr (obeys_utcNow.mpr ⟨.free trivial, fun now => ?_⟩)
  refine Clocked.timelessly (.bind (.bind ((only_attempt ..).mpr trivial) fun _ => timeless_getTopic _) fun topic =>
    timeless_getWorkersOnline topic) nofun fun workersOnline => ?_
  refine .ite (fun _ => trivial) fun _ => ?_
  refine Clocked.timelessly ((only_attempt ..).mpr trivial) nofun fun _ => ?_
  refine Clocked.timelessly ((only_attempt ..).mpr trivial) nofun fun _ => ?_
  refine (obeys_attempt ..).mpr ⟨.pend ?_, fun reply => ?_⟩
  · simp only [measureTime, add_assoc]
  · cases reply <;> trivial

theorem dateless_checkDeadline : (checkDeadline subJob).Only Op.Dateless := by
  unfold checkDeadline
  split
  · trivial
  · exact .bind ((only_attempt ..).mpr trivial) fun _ => .ite (only_throw _) (only_pure _)

theorem dateless_of_timeless {program : Fallible Calls ε α} (only : program.Only Op.Timeless) :
    program.Only Op.Dateless := Prog.Only.mono only fun _ => Op.Timeless.dateless

theorem processStatusProcessing_clocked : Clocked (processStatusProcessing subJob) phase := by
  apply clocked_of_only
  refine .bind dateless_checkDeadline fun _ => .bind (only_outcome _) fun workersCount => ?_
  refine .bind ((only_attempt ..).mpr trivial) fun data => .ite (.bind ((only_attempt ..).mpr trivial) fun _ => ?_) (only_pure _)
  exact .bind ((only_attempt ..).mpr trivial) fun count => .ite ((only_attempt ..).mpr trivial) (only_pure _)

theorem processScalingProcessing_clocked : Clocked (processScalingProcessing subJob) phase := by
  apply clocked_of_only
  refine .bind dateless_checkDeadline fun _ => .bind (dateless_of_timeless timeless_getServicesAndWorkers) fun plan => ?_
  exact .ite ((only_attempt ..).mpr trivial) (only_pure _)

theorem subJobHandler_clocked (registry : ServiceScalerRegistry) :
    (subJobHandler registry).Obeys ClockPhase.note ClockLegal .searching fun _ _ => True := by
  refine (Prog.obeys_bind ..).mpr ((obeys_execute ..).mpr ⟨.free trivial, fun reply => ?_⟩)
  cases reply with
  | error e => trivial
  | ok subJob =>
    dsimp only
    cases subJob.type with
    | combinedDHP =>
      apply settle_clocked
      cases subJob.status with
      | created => exact processStatusCreated_clocked
      | pending => exact clocked_of_only dateless_checkDeadline
      | processing => exact processStatusProcessing_clocked
      | completed | failed | canceled => trivial
    | scaling =>
      apply settle_clocked
      cases status : subJob.status with
      | created => exact processScalingCreated_clocked status
      | processing => exact processScalingProcessing_clocked
      | pending | completed | failed | canceled => trivial

end Tick

theorem clockMonitor_covers (registry : ServiceScalerRegistry) : clockMonitor.Covers (platform registry) := by
  intro kind
  cases kind with
  | subJobTick => exact subJobHandler_clocked registry
  | _ => exact (Prog.obeys_indifferent (fun _ => .aside) (fun _ => rfl) _).mono fun _ _ _ => trivial

/-! ## Extensions -/

/-- A tick has set the deadlines of these services, half an hour after this moment, for the sub-job that it
had picked. -/
def Extends (task : SystemTask) (subJob : SubJobWithJob) (ids : List Uuid) (moment : DateTime) : Prop :=
  task.kind = .subJobTick ∧ ∃ before done, before ++ [(⟨.sql (.setDescaleDeadlines ids
    (moment + Duration.seconds serviceDescaleAtDeadlineSec)), .ok done⟩ : Act)] <+: task.log ∧
      pickedIn before = some subJob

/-- A tick of the system has done so. -/
def Extension (pool : System) (subJob : SubJobWithJob) (ids : List Uuid) (moment : DateTime) : Prop :=
  ∃ task ∈ pool.tasks, Extends task subJob ids moment

/-- The monitor sees an extension. -/
theorem extends_of_phase {task : SystemTask} {subJob : SubJobWithJob} {moment : DateTime}
    (phase : clockMonitor.phase task = .extended subJob moment) : ∃ ids, Extends task subJob ids moment := by
  obtain ⟨kind, log, rest⟩ := task
  cases kind with
  | subJobTick =>
    change log.foldl ClockPhase.note .searching = _ at phase
    suffices logged : ∃ ids before done, before ++ [(⟨.sql (.setDescaleDeadlines ids
        (moment + Duration.seconds serviceDescaleAtDeadlineSec)), .ok done⟩ : Act)] <+: log ∧
          pickedIn before = some subJob by
      obtain ⟨ids, before, done, logged⟩ := logged
      exact ⟨ids, rfl, before, done, logged⟩
    induction log using List.reverseRecOn with
    | nil => cases phase
    | append_singleton log made ih =>
      rw [List.foldl_append] at phase
      obtain earlier | ⟨reading, ids, done, picked, rfl⟩ := ClockPhase.note_eq_extended_iff.mp phase
      · obtain ⟨ids, before, done, logged, picked⟩ := ih earlier
        exact ⟨ids, before, done, logged.trans (List.prefix_append ..), picked⟩
      · have held : (log.foldl ClockPhase.note .searching).snapshot = some subJob := by rw [picked]; rfl
        obtain starts | ⟨-, found⟩ := ClockPhase.picking.picked_of_snapshot held
        · cases starts
        · exact ⟨ids, log, done, List.prefix_refl _, found⟩
  | _ => exact absurd (phase.symm.trans (List.foldl_fixed' (fun _ => rfl) log)) nofun

/-- What a tick has logged, where it obeys the monitor, decides the phase of an extension. -/
theorem phase_of_extends {task : SystemTask} (tracks : clockMonitor.Tracks task) {subJob : SubJobWithJob}
    {ids : List Uuid} {moment : DateTime} (extension : Extends task subJob ids moment) :
    clockMonitor.phase task = .extended subJob moment := by
  obtain ⟨kind, log, rest⟩ := task
  obtain ⟨rfl, before, done, logged, picked⟩ := extension
  have permits : clockMonitor.Permits .subJobTick log := tracks.permits
  change log.foldl ClockPhase.note .searching = _
  clear tracks
  change _ <+: log at logged
  induction permits with
  | nil => simp at logged
  | @concat log op reply earlier legal ih =>
    rw [List.foldl_append]
    apply ClockPhase.note_eq_extended_iff.mpr
    obtain now | past := List.prefix_concat_iff.mp logged
    · obtain ⟨rfl, same⟩ := List.append_inj' now rfl
      cases List.singleton_inj.mp same
      right
      change ClockLegal (before.foldl ClockPhase.note .searching) _ at legal
      cases phase : before.foldl ClockPhase.note .searching with
      | picked other reading =>
        have held : (before.foldl ClockPhase.note .searching).snapshot = some other := by rw [phase]; rfl
        obtain starts | ⟨-, found⟩ := ClockPhase.picking.picked_of_snapshot held
        · cases starts
        · obtain rfl := Option.some.inj (picked.symm.trans found)
          exact ⟨reading, ids, done, rfl, rfl⟩
      | aside => exact absurd phase (ClockPhase.foldl_ne_aside before)
      | searching | extended =>
        rw [phase] at legal
        cases legal with
        | free free => exact free.elim
    · exact .inl (ih past)

section Step

variable {registry : ServiceScalerRegistry} {source target : System} {event : SystemEvent} {subJob : SubJobWithJob}
  {ids : List Uuid} {moment : DateTime}

theorem Extension.after (step : Step (platform registry) source event target)
    (extension : Extension source subJob ids moment) : Extension target subJob ids moment := by
  obtain ⟨task, member, tick, before, done, logged, picked⟩ := extension
  obtain ⟨position, present⟩ := List.mem_iff_getElem?.mp member
  obtain same | ⟨op, next, reply, -, -, -, later⟩ := step.task_after present
  · exact ⟨task, List.mem_of_getElem? same, tick, before, done, logged, picked⟩
  · exact ⟨_, List.mem_of_getElem? later, tick, before, done, logged.trans (List.prefix_append ..), picked⟩

/-- An extension was there before the step, or the tick that holds the sub-job makes it. -/
theorem Extension.before (step : Step (platform registry) source event target)
    (extension : Extension target subJob ids moment) : Extension source subJob ids moment ∨
      ∃ position task done, source.tasks[position]? = some task ∧ task.kind = .subJobTick ∧ task.InFlight ∧
        pickedIn task.log = some subJob ∧ event = .call position ⟨.sql (.setDescaleDeadlines ids
          (moment + Duration.seconds serviceDescaleAtDeadlineSec)), .ok done⟩ := by
  obtain ⟨task, member, tick, before, done, logged, picked⟩ := extension
  obtain ⟨position, present⟩ := List.mem_iff_getElem?.mp member
  obtain old | ⟨kind, -, -, rfl⟩ | ⟨earlier, op, next, reply, old, awaits, calls, -, rfl⟩ := step.task_cases present
  · exact .inl ⟨task, List.mem_of_getElem? old, tick, before, done, logged, picked⟩
  · simp at logged
  · obtain now | past := List.prefix_concat_iff.mp logged
    · obtain ⟨rfl, same⟩ := List.append_inj' now rfl
      exact .inr ⟨position, earlier, done, old, tick, ⟨op, next, awaits⟩, picked, by rw [calls, List.singleton_inj.mp same]⟩
    · exact .inl ⟨earlier, List.mem_of_getElem? old, tick, before, done, past, picked⟩

end Step

/-! ## The first reading -/

/-- The check of a deadline begins with a reading of the clock. -/
theorem reads_of_check {subJob : SubJobWithJob} {goes : Except SubJobHandlerError Unit → Prog Calls Unit}
    {deadline : DateTime} {log : List Act} (dated : subJob.deadlineAt = some deadline)
    (run : ((checkDeadline subJob).run >>= goes).Reaches log (.ret ())) :
    ∃ reading rest, log = (⟨.now, reading⟩ : Act) :: rest := by
  unfold checkDeadline at run
  rw [dated] at run
  generalize returned : Prog.ret () = left at run
  cases run with
  | nil => cases returned
  | cons tail => exact ⟨_, _, rfl⟩

/-- A tick whose sub-job has a deadline first reads the clock. -/
theorem reads_first {registry : ServiceScalerRegistry} {subJob : SubJobWithJob} {deadline : DateTime} {log : List Act}
    (dated : subJob.deadlineAt = some deadline) (active : subJob.status.Active)
    (unpended : subJob.type = .scaling → subJob.status ≠ .pending)
    (run : (subJobHandler registry).Reaches (⟨.sql .getFirstUnfinishedSubJob, .ok subJob⟩ :: log) (.ret ())) :
    ∃ reading rest, log = (⟨.now, reading⟩ : Act) :: rest := by
  cases run with
  | cons tail =>
    dsimp only [bind, Prog.bind] at tail
    cases type : subJob.type with
    | combinedDHP =>
      simp only [type, processCombinedDhpType] at tail
      rcases List.mem_pair.mp active with pending | processing
      · simp only [pending] at tail
        exact reads_of_check dated tail
      · simp only [processing, processStatusProcessing] at tail
        rw [ExceptT.run_bind, Prog.bind_bind] at tail
        exact reads_of_check dated tail
    | scaling =>
      have processing := (List.mem_pair.mp active).resolve_left (unpended type)
      simp only [type, processScaling, processing, processScalingProcessing] at tail
      rw [ExceptT.run_bind, Prog.bind_bind] at tail
      exact reads_of_check dated tail

end Bms
