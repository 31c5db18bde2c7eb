import Bms.Process.Outbox
import Bms.Protocol.JobIds
import Bms.Protocol.WorkerMessages

/-! # The ids of worker runs

A worker that handles a job message draws a run id, and puts it on the start that it announces and on the one
result that it publishes. Uuids are tickets, and the queues of results and of status messages are outboxes; so
a run id stands for one delivery of a job message to one worker.
-/

namespace Bms

open Process Fallible

/-- Where a worker stands that handles a job message. -/
inductive RunPhase
  | fresh
  /-- it has drawn its run id -/
  | drawn (runId : Uuid)
  /-- it has tried to announce its start -/
  | started (runId : Uuid)
  /-- it has tried to publish its result -/
  | answered

def RunPhase.note : RunPhase → Act → RunPhase
  | fresh, ⟨.newUuid, runId⟩ => drawn runId
  | drawn runId, ⟨.publishStatus (.workerStatus ⟨_, .job (some _), _⟩), _⟩ => started runId
  | drawn _, ⟨.publishResult _, _⟩ | started _, ⟨.publishResult _, _⟩ => answered
  | phase, _ => phase

/-- A call that neither draws an id nor publishes one. -/
def Op.Unnumbered : Op → Prop
  | .newUuid | .publishResult _ | .publishStatus (.workerStatus ⟨_, .job (some _), _⟩) => False
  | _ => True

/-- The calls that a task may make in a phase. -/
inductive RunLegal : Kind → RunPhase → Op → Prop
  | elsewhere {kind : Kind} {phase : RunPhase} {op : Op} (other : ∀ config content, kind ≠ .jobDelivery config content) :
      RunLegal kind phase op
  | plain {kind : Kind} {phase : RunPhase} {op : Op} (plain : op.Unnumbered) : RunLegal kind phase op
  | draw {config : WorkerConfig} {content : Message} : RunLegal (.jobDelivery config content) .fresh .newUuid
  | announce {config : WorkerConfig} {content : Message} {workerName : String} {details : WorkerStatusJobDetails}
      {timestamp : DateTime} {runId : Uuid} (own : details.runId = runId) :
      RunLegal (.jobDelivery config content) (.drawn runId)
        (.publishStatus (.workerStatus ⟨workerName, .job (some details), timestamp⟩))
  | answer {config : WorkerConfig} {content : Message} {phase : RunPhase} {jobId : Uuid} {result : ResultMessage}
      (own : phase = .drawn result.runId ∨ phase = .started result.runId) :
      RunLegal (.jobDelivery config content) phase (.publishResult (.workerResult jobId result))

def runMonitor : Monitor Calls Kind RunPhase where
  start _ := .fresh
  note := RunPhase.note
  legal := RunLegal
  ended _ _ := True

section Numbers

variable {kind : Kind} {phase : RunPhase} {ε α β : Type}

/-- A program that a task of this kind may run from a phase on, with what it returns and where. -/
abbrev Numbers (kind : Kind) (program : Fallible Calls ε α) (phase : RunPhase) (good : α → RunPhase → Prop) : Prop :=
  Fallible.Obeys RunPhase.note (RunLegal kind) program phase good fun _ _ => True

theorem RunPhase.note_unnumbered {op : Op} (plain : op.Unnumbered) (phase : RunPhase) (reply : op.Reply) :
    phase.note ⟨op, reply⟩ = phase := by
  unfold note
  split
  case h_5 => rfl
  all_goals
    rename_i same
    cases same
    exact False.elim plain

theorem Op.Local.unnumbered {op : Op} (apart : op.Local) : op.Unnumbered := by
  cases op <;> first | exact apart.elim | trivial

/-- A first part without ids. -/
theorem Numbers.plainly {program : Fallible Calls ε α} {rest : α → Fallible Calls ε β} {good : β → RunPhase → Prop}
    (only : program.Only Op.Unnumbered) (next : ∀ value, Numbers kind (rest value) phase good) :
    Numbers kind (program >>= rest) phase good := by
  have obeys : program.run.Obeys RunPhase.note (RunLegal kind) phase fun _ reached => reached = phase :=
    Prog.Only.obeys only fun op plain => ⟨.plain plain, RunPhase.note_unnumbered plain phase⟩
  refine (obeys_bind ..).mpr (Prog.Obeys.mono obeys fun reached _ same => ?_)
  cases reached with
  | ok value => exact same ▸ next value
  | error e => trivial

/-- Whether a status has been published is not asked. -/
theorem Numbers.optionally {δ : Type} {program : Fallible Calls δ α} {rest : Option α → Fallible Calls ε β}
    {good : β → RunPhase → Prop} {later : RunPhase}
    (obeys : program.Obeys RunPhase.note (RunLegal kind) phase (fun _ reached => reached = later)
      fun _ reached => reached = later)
    (next : ∀ value, Numbers kind (rest value) later good) : Numbers kind (program.optional >>= rest) phase good :=
  (obeys_bind ..).mpr ((obeys_optional ..).mpr (Obeys.mono obeys (fun value _ same => same ▸ next (some value))
    fun _ _ same => same ▸ next none))

variable {config : WorkerConfig} {content : Message}

/-- A status is sent in one call that publishes it. -/
theorem sendStatus_numbers {status : WorkerStatusDetails} {later : RunPhase}
    (legal : ∀ timestamp, RunLegal kind phase (.publishStatus (.workerStatus ⟨config.workerName, status, timestamp⟩)))
    (noted : ∀ timestamp reply,
      phase.note ⟨.publishStatus (.workerStatus ⟨config.workerName, status, timestamp⟩), reply⟩ = later) :
    (StatusSender.sendStatus config status).Obeys RunPhase.note (RunLegal kind) phase
      (fun _ reached => reached = later) fun _ reached => reached = later := by
  refine (obeys_bind ..).mpr ((obeys_attempt ..).mpr ⟨.plain trivial, fun timestamp => ?_⟩)
  have unmoved : phase.note ⟨.now, timestamp⟩ = phase :=
    RunPhase.note_unnumbered (show Op.Unnumbered .now from trivial) phase timestamp
  rw [unmoved]
  refine (obeys_attempt ..).mpr ⟨legal timestamp, fun reply => ?_⟩
  rw [noted]
  cases reply <;> exact rfl

theorem processMessage_numbers (jobId : Uuid) (message : JobMessage) :
    Numbers (.jobDelivery config content) (JobConsumer.processMessage config jobId message) .fresh
      fun result reached => reached = .drawn result.runId ∨ reached = .started result.runId := by
  refine (obeys_bind ..).mpr ((obeys_attempt ..).mpr ⟨.draw, fun runId => ?_⟩)
  refine Numbers.plainly ((only_attempt ..).mpr trivial) fun now => .ite (fun _ => .inl rfl) fun _ => ?_
  refine Numbers.optionally (sendStatus_numbers (fun _ => .announce rfl) fun _ _ => rfl) fun _ => ?_
  refine Numbers.plainly ((only_attempt ..).mpr trivial) fun now => .ite (fun _ => trivial) fun _ => ?_
  refine Numbers.plainly ((only_attempt ..).mpr trivial) fun _ => ?_
  refine Numbers.plainly (Prog.Only.mono (local_measure message) fun _ => Op.Local.unnumbered) fun results => ?_
  exact Numbers.optionally (sendStatus_numbers (fun _ => .plain trivial) fun _ _ => rfl) fun _ => .inr rfl

theorem jobConsumer_numbers (config : WorkerConfig) (content : Message) :
    Numbers (.jobDelivery config content) (JobConsumer.run config content.sent) .fresh fun _ _ => True := by
  obtain ⟨jobId, message, rfl, -, run⟩ | ⟨value, run⟩ := JobConsumer.run_cases config content <;> rw [run]
  · refine (obeys_bind ..).mpr (Obeys.mono (processMessage_numbers jobId message) (fun result reached own => ?_)
      fun _ _ => id)
    exact (obeys_attempt ..).mpr ⟨.answer own, fun _ => trivial⟩
  · cases value <;> trivial

theorem runMonitor_covers (registry : ServiceScalerRegistry) : runMonitor.Covers (platform registry) := by
  intro kind
  by_cases delivers : ∃ config content, kind = .jobDelivery config content
  · obtain ⟨config, content, rfl⟩ := delivers
    have settled (phase : RunPhase) : Handled RunPhase.note (RunLegal (.jobDelivery config content)) (fun _ _ => True)
        phase :=
      ⟨⟨.plain trivial, .plain trivial, RunPhase.note_unnumbered (show Op.Unnumbered .basicAck from trivial) phase⟩, trivial⟩
    exact JobConsumer.obeys_consume (Obeys.mono (jobConsumer_numbers config content) (fun _ phase _ => settled phase)
      fun _ phase _ => settled phase)
  · have legal (phase : RunPhase) (op : Op) : RunLegal kind phase op :=
      .elsewhere fun config content same => delivers ⟨config, content, same⟩
    have only : (kind.body registry).Only fun _ => True := Prog.only_of_forall (fun _ => trivial) _
    exact only.keeps (fun _ => True) (fun phase op _ _ => ⟨legal phase op, fun _ => trivial⟩) trivial

end Numbers

/-! ## What a task has said -/

/-- The uuid that a call draws. -/
def drawnId? : Act → Option Uuid
  | ⟨.newUuid, id⟩ => some id
  | _ => none

/-- A result, with the job that its message names. -/
def Message.result? : Message → Option (Uuid × ResultMessage)
  | .workerResult jobId result => some (jobId, result)
  | _ => none

/-- An announced start, with the worker that announces it. -/
def Message.start? : Message → Option (String × WorkerStatusJobDetails)
  | .workerStatus ⟨workerName, .job (some details), _⟩ => some (workerName, details)
  | _ => none

/-- The result that a call publishes. -/
def sentResult? : Act → Option (Uuid × ResultMessage)
  | ⟨.publishResult message, .ok _⟩ => message.result?
  | _ => none

/-- The start that a call announces. -/
def sentStart? : Act → Option (String × WorkerStatusJobDetails)
  | ⟨.publishStatus message, .ok _⟩ => message.start?
  | _ => none

/-- What a worker in a phase has drawn, and the run ids that it has put on starts and on results. -/
def RunPhase.Shows : RunPhase → (ids starts results : List Uuid) → Prop
  | fresh, ids, starts, results => ids = [] ∧ starts = [] ∧ results = []
  | drawn runId, ids, starts, results => ids = [runId] ∧ starts = [] ∧ results = []
  | started runId, ids, starts, results => ids = [runId] ∧ starts.Sublist [runId] ∧ results = []
  | answered, ids, starts, results => ∃ runId, ids = [runId] ∧ starts.Sublist [runId] ∧ results.Sublist [runId]

/-- Every start and every result is under the one run id that has been drawn. -/
theorem RunPhase.Shows.sublists {phase : RunPhase} {ids starts results : List Uuid}
    (shows : phase.Shows ids starts results) : ids.length ≤ 1 ∧ starts.Sublist ids ∧ results.Sublist ids := by
  cases phase with
  | fresh | drawn =>
    obtain ⟨rfl, rfl, rfl⟩ := shows
    exact ⟨by simp, List.nil_sublist _, List.nil_sublist _⟩
  | started =>
    obtain ⟨rfl, starts, rfl⟩ := shows
    exact ⟨le_rfl, starts, List.nil_sublist _⟩
  | answered =>
    obtain ⟨runId, rfl, starts, results⟩ := shows
    exact ⟨le_rfl, starts, results⟩

theorem unread_of_unnumbered {op : Op} (plain : op.Unnumbered) (reply : op.Reply) :
    drawnId? ⟨op, reply⟩ = none ∧ sentStart? ⟨op, reply⟩ = none ∧ sentResult? ⟨op, reply⟩ = none := by
  cases op with
  | publishStatus message =>
    refine ⟨rfl, ?_, rfl⟩
    cases reply with
    | error e => rfl
    | ok done =>
      match message with
      | .workerStatus ⟨_, .job (some _), _⟩ => exact plain.elim
      | .workerStatus ⟨_, .job none, _⟩ | .workerStatus ⟨_, .lifecycle _, _⟩ | .workerStatus ⟨_, .heartbeat, _⟩
      | .workerJob .. | .workerResult .. => rfl
  | newUuid | publishResult => exact False.elim plain
  | _ => exact ⟨rfl, rfl, rfl⟩

/-- The phase of a worker shows what it has drawn and said. -/
theorem shows_of_permits {config : WorkerConfig} {content : Message} {log : List Act}
    (permits : runMonitor.Permits (.jobDelivery config content) log) :
    (log.foldl RunPhase.note .fresh).Shows (log.filterMap drawnId?) ((log.filterMap sentStart?).map (·.2.runId))
      ((log.filterMap sentResult?).map (·.2.runId)) := by
  induction permits with
  | nil => exact ⟨rfl, rfl, rfl⟩
  | @concat log op reply earlier legal ih =>
    rw [List.foldl_append, List.foldl_cons, List.foldl_nil, filterMap_concat, filterMap_concat, filterMap_concat]
    change RunLegal _ (log.foldl RunPhase.note .fresh) op at legal
    generalize log.foldl RunPhase.note .fresh = phase at legal ih
    cases legal with
    | elsewhere other => exact absurd rfl (other config content)
    | plain plain =>
      obtain ⟨drawn, start, result⟩ := unread_of_unnumbered plain reply
      rw [RunPhase.note_unnumbered plain, drawn, start, result]
      simpa only [Option.toList_none, List.append_nil] using ih
    | draw =>
      obtain ⟨ids, starts, results⟩ := ih
      rw [ids, List.map_append, starts, List.map_append, results]
      exact ⟨rfl, rfl, rfl⟩
    | announce own =>
      obtain ⟨ids, starts, results⟩ := ih
      rw [ids, List.map_append, starts, List.map_append, results]
      cases reply with
      | error e => exact ⟨rfl, List.nil_sublist _, rfl⟩
      | ok done => exact ⟨rfl, own ▸ List.Sublist.refl _, rfl⟩
    | @answer _ _ _ jobId result own =>
      have known : log.filterMap drawnId? = [result.runId] ∧
          ((log.filterMap sentStart?).map (·.2.runId)).Sublist [result.runId] ∧
          (log.filterMap sentResult?).map (·.2.runId) = [] := by
        obtain rfl | rfl := own
        · exact ⟨ih.1, ih.2.1 ▸ List.nil_sublist _, ih.2.2⟩
        · exact ih
      have noted : phase.note ⟨.publishResult (.workerResult jobId result), reply⟩ = .answered := by
        obtain rfl | rfl := own <;> rfl
      have unread : sentStart? ⟨.publishResult (.workerResult jobId result), reply⟩ = none := rfl
      obtain ⟨ids, starts, results⟩ := known
      rw [noted, unread, Option.toList_none, List.append_nil, List.map_append, results]
      refine ⟨result.runId, by rw [ids]; rfl, starts, ?_⟩
      cases reply with
      | error e => exact List.nil_sublist _
      | ok done => exact .refl _

theorem eq_of_sentResult? {made : Act} {jobId : Uuid} {result : ResultMessage}
    (sent : sentResult? made = some (jobId, result)) : made = ⟨.publishResult (.workerResult jobId result), .ok ()⟩ := by
  unfold sentResult? at sent
  split at sent
  · next message done =>
    unfold Message.result? at sent
    split at sent <;> cases sent
    rfl
  · cases sent

theorem eq_of_sentStart? {made : Act} {workerName : String} {details : WorkerStatusJobDetails}
    (sent : sentStart? made = some (workerName, details)) :
    ∃ timestamp, made = ⟨.publishStatus (.workerStatus ⟨workerName, .job (some details), timestamp⟩), .ok ()⟩ := by
  unfold sentStart? at sent
  split at sent
  · next message done =>
    unfold Message.start? at sent
    split at sent <;> cases sent
    exact ⟨_, rfl⟩
  · cases sent

/-- What the three protocols of a worker say of a task. -/
structure SpeaksOwn (task : SystemTask) : Prop where
  jobs : jobMonitor.Permits task.kind task.log
  speaks : speakMonitor.Permits task.kind task.log
  runs : runMonitor.Permits task.kind task.log

variable {task : SystemTask}

/-- A result is sent by the delivery that it answers. -/
theorem SpeaksOwn.result (speaking : SpeaksOwn task) {jobId : Uuid} {result : ResultMessage}
    (sent : (jobId, result) ∈ task.log.filterMap sentResult?) :
    ∃ config message, task.kind = .jobDelivery config (.workerJob jobId message) ∧
      result.Answers config jobId message := by
  obtain ⟨made, member, found⟩ := List.mem_filterMap.mp sent
  obtain rfl := eq_of_sentResult? found
  obtain ⟨phase, legal⟩ := speaking.jobs.legal_of_mem member
  obtain ⟨_, legal'⟩ := speaking.speaks.legal_of_mem member
  obtain ⟨kind, log, rest⟩ := task
  cases legal with
  | quiet quiet => exact quiet.elim
  | answer =>
    cases legal' with
    | elsewhere other => exact absurd rfl (other _ _)
    | silent silent => exact silent.elim
    | result _ job subJob worker success => exact ⟨_, _, rfl, job, subJob, worker, success⟩

/-- A start is announced by the delivery that it is about. -/
theorem SpeaksOwn.start (speaking : SpeaksOwn task) {workerName : String} {details : WorkerStatusJobDetails}
    (sent : (workerName, details) ∈ task.log.filterMap sentStart?) :
    ∃ config jobId message, task.kind = .jobDelivery config (.workerJob jobId message) ∧
      config.workerName = workerName ∧ details = ⟨details.runId, jobId, message.subJobId, workerName⟩ := by
  obtain ⟨made, member, found⟩ := List.mem_filterMap.mp sent
  obtain ⟨timestamp, rfl⟩ := eq_of_sentStart? found
  obtain ⟨phase, legal⟩ := speaking.jobs.legal_of_mem member
  obtain ⟨_, legal'⟩ := speaking.speaks.legal_of_mem member
  obtain ⟨kind, log, rest⟩ := task
  cases legal with
  | quiet quiet => exact quiet.elim
  | report other => exact absurd rfl (other _)
  | announce =>
    cases legal' with
    | elsewhere other => exact absurd rfl (other _ _)
    | silent silent => exact silent.elim
    | start => exact ⟨_, _, _, rfl, rfl, rfl⟩

/-- A task puts an id of its own on what it says, and sends at most one result. -/
theorem SpeaksOwn.stamps (speaking : SpeaksOwn task) :
    (task.log.filterMap sentResult?).length ≤ 1 ∧
      ((task.log.filterMap sentStart?).map (·.2.runId)).Sublist (task.log.filterMap drawnId?) ∧
      ((task.log.filterMap sentResult?).map (·.2.runId)).Sublist (task.log.filterMap drawnId?) := by
  by_cases delivers : ∃ config content, task.kind = .jobDelivery config content
  · obtain ⟨config, content, same⟩ := delivers
    obtain ⟨single, starts, results⟩ := (shows_of_permits (same ▸ speaking.runs)).sublists
    have few := results.length_le.trans single
    rw [List.length_map] at few
    exact ⟨few, starts, results⟩
  · have silent : task.log.filterMap sentStart? = [] := by
      refine List.eq_nil_iff_forall_not_mem.mpr fun ⟨workerName, details⟩ sent => ?_
      obtain ⟨config, jobId, message, same, -⟩ := speaking.start sent
      exact delivers ⟨config, _, same⟩
    have unsent : task.log.filterMap sentResult? = [] := by
      refine List.eq_nil_iff_forall_not_mem.mpr fun ⟨jobId, result⟩ sent => ?_
      obtain ⟨config, message, same, -⟩ := speaking.result sent
      exact delivers ⟨config, _, same⟩
    rw [silent, unsent]
    exact ⟨Nat.zero_le _, List.nil_sublist _, List.nil_sublist _⟩

/-! ## The queues and the uuids -/

variable {registry : ServiceScalerRegistry}

theorem queue_after {w : World} {made : Act} :
    (Act.after w made).resultQueue.filterMap Message.result? =
        (sentResult? made).toList ++ w.resultQueue.filterMap Message.result? ∧
      (Act.after w made).statusQueue.filterMap Message.start? =
        (sentStart? made).toList ++ w.statusQueue.filterMap Message.start? := by
  have grown {μ : Type} (reads : Message → Option μ) (message : Message) (queue : List Message) :
      (message :: queue).filterMap reads = (reads message).toList ++ queue.filterMap reads := by
    rw [List.filterMap_cons]
    cases reads message <;> rfl
  obtain ⟨op, reply⟩ := made
  cases op with
  | sql stmt =>
    cases reply with
    | error e => exact ⟨rfl, rfl⟩
    | ok row => cases stmt <;> exact ⟨rfl, rfl⟩
  | publishResult message =>
    cases reply with
    | error e => exact ⟨rfl, rfl⟩
    | ok done => exact ⟨grown Message.result? message _, rfl⟩
  | publishStatus message =>
    cases reply with
    | error e => exact ⟨rfl, rfl⟩
    | ok done => exact ⟨rfl, grown Message.start? message _⟩
  | publishJob | dockerComposeUp => cases reply <;> exact ⟨rfl, rfl⟩
  | updateService => rcases reply with _ | (_ | _) <;> exact ⟨rfl, rfl⟩
  | _ => exact ⟨rfl, rfl⟩

/-- The results that have been published. -/
def resultBox (registry : ServiceScalerRegistry) : Outbox (platform registry) (Uuid × ResultMessage) where
  contents w := w.resultQueue.filterMap Message.result?
  adds := sentResult?
  after _ := queue_after.1
  enter w kind := congrArg (List.filterMap Message.result?) (sameJobs_enter w kind).resultQueue
  drifts := by
    rintro w _ ⟨now, rfl⟩
    rfl

/-- The starts that have been announced. -/
def startBox (registry : ServiceScalerRegistry) : Outbox (platform registry) (String × WorkerStatusJobDetails) where
  contents w := w.statusQueue.filterMap Message.start?
  adds := sentStart?
  after _ := queue_after.2
  enter w kind := congrArg (List.filterMap Message.start?) (sameJobs_enter w kind).statusQueue
  drifts := by
    rintro w _ ⟨now, rfl⟩
    rfl

/-- The uuids that are drawn. -/
def uuidTickets (registry : ServiceScalerRegistry) : Tickets (platform registry) Uuid where
  taken w := {id | id ∈ w.uuids}
  draws := drawnId?
  fresh := by
    rintro w ⟨op, reply⟩ id allowed drawn
    cases op with
    | newUuid =>
      cases drawn
      exact ⟨allowed, List.mem_cons_self⟩
    | _ => cases drawn
  grows step := uuids_grow step

end Bms
