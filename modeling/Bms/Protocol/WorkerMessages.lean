import Bms.Protocol.Traffic

/-! # What workers say

A seventh protocol, which has no phases: a worker that handles a job message publishes a start, its end
and a result, all about the job and the sub-job of the message and under its own name, and it does so
only if the message does not leave it out.
-/

namespace Bms

open Process Fallible

/-- A call that publishes neither a status nor a result. -/
def Op.Silent : Op → Prop
  | .publishStatus _ | .publishResult _ => False
  | _ => True

/-- The calls that a task may make. -/
inductive SpeakLegal : Kind → Op → Prop
  | elsewhere {kind : Kind} {op : Op} (other : ∀ config content, kind ≠ .jobDelivery config content) : SpeakLegal kind op
  | silent {kind : Kind} {op : Op} (silent : op.Silent) : SpeakLegal kind op
  | start {config : WorkerConfig} {jobId runId : Uuid} {message : JobMessage} {timestamp : DateTime}
      (takesPart : config.workerName ∉ message.excludedWorkers) :
      SpeakLegal (.jobDelivery config (.workerJob jobId message)) (.publishStatus (.workerStatus
        ⟨config.workerName, .job (some ⟨runId, jobId, message.subJobId, config.workerName⟩), timestamp⟩))
  | over {config : WorkerConfig} {jobId : Uuid} {message : JobMessage} {timestamp : DateTime}
      (takesPart : config.workerName ∉ message.excludedWorkers) :
      SpeakLegal (.jobDelivery config (.workerJob jobId message))
        (.publishStatus (.workerStatus ⟨config.workerName, .job none, timestamp⟩))
  | result {config : WorkerConfig} {jobId : Uuid} {message : JobMessage} {result : ResultMessage}
      (takesPart : config.workerName ∉ message.excludedWorkers) (job : result.jobId = jobId)
      (subJob : result.subJobId = message.subJobId) (worker : result.workerName = config.workerName)
      (success : result.isSuccess = result.downloadResult.toBool) :
      SpeakLegal (.jobDelivery config (.workerJob jobId message)) (.publishResult (.workerResult jobId result))

def speakMonitor : Monitor Calls Kind Unit where
  start _ := ()
  note _ _ := ()
  legal kind _ := SpeakLegal kind
  ended _ _ := True

section Speaks

variable {kind : Kind} {ε α β : Type}

/-- A program that a task of this kind may run, with what it returns. -/
abbrev Speaks (kind : Kind) (program : Fallible Calls ε α) (good : α → Prop) : Prop :=
  Fallible.Obeys speakMonitor.note (speakMonitor.legal kind) program () (fun value _ => good value) fun _ _ => True

theorem Op.Local.silent {op : Op} (apart : op.Local) : op.Silent := by
  cases op <;> first | exact apart.elim | trivial

/-- A first part that is silent. -/
theorem Speaks.silently {program : Fallible Calls ε α} {rest : α → Fallible Calls ε β} {good : β → Prop}
    (only : program.Only Op.Silent) (next : ∀ value, Speaks kind (rest value) good) :
    Speaks kind (program >>= rest) good := by
  have obeys : program.run.Obeys speakMonitor.note (speakMonitor.legal kind) () fun _ reached => reached = () :=
    Prog.Only.obeys only fun op silent => ⟨.silent silent, fun _ => rfl⟩
  refine (obeys_bind ..).mpr (Prog.Obeys.mono obeys fun reached _ _ => ?_)
  cases reached with
  | ok value => exact next value
  | error e => trivial

variable {config : WorkerConfig} {jobId : Uuid} {message : JobMessage}

/-- Whether a status has been published is not asked. -/
theorem Speaks.optionally {δ : Type} {program : Fallible Calls δ α} {rest : Option α → Fallible Calls ε β}
    {good : β → Prop} (speaks : Speaks kind program fun _ => True) (next : ∀ value, Speaks kind (rest value) good) :
    Speaks kind (program.optional >>= rest) good :=
  (obeys_bind ..).mpr ((obeys_optional ..).mpr (Obeys.mono speaks (fun value _ _ => next (some value))
    fun _ _ _ => next none))

theorem sendStatus_speaks {status : WorkerStatusDetails}
    (legal : ∀ timestamp, SpeakLegal kind (.publishStatus (.workerStatus ⟨config.workerName, status, timestamp⟩))) :
    Speaks kind (StatusSender.sendStatus config status) fun _ => True := by
  refine .silently ((only_attempt ..).mpr trivial) fun timestamp => ?_
  refine (obeys_attempt ..).mpr ⟨legal timestamp, fun reply => ?_⟩
  cases reply <;> trivial

/-- A result of the job, the sub-job and the worker, which is a success if the download is. -/
def ResultMessage.Answers (result : ResultMessage) (config : WorkerConfig) (jobId : Uuid) (message : JobMessage) : Prop :=
  result.jobId = jobId ∧ result.subJobId = message.subJobId ∧ result.workerName = config.workerName ∧
    result.isSuccess = result.downloadResult.toBool

theorem processMessage_speaks (takesPart : config.workerName ∉ message.excludedWorkers) :
    Speaks (.jobDelivery config (.workerJob jobId message)) (JobConsumer.processMessage config jobId message)
      fun result => result.Answers config jobId message := by
  refine .silently ((only_attempt ..).mpr trivial) fun runId => .silently ((only_attempt ..).mpr trivial) fun now => ?_
  refine .ite (fun _ => ⟨rfl, rfl, rfl, rfl⟩) fun _ => ?_
  refine Speaks.optionally (sendStatus_speaks fun _ => .start takesPart) fun _ => ?_
  refine .silently ((only_attempt ..).mpr trivial) fun now => .ite (fun _ => trivial) fun _ => ?_
  refine Speaks.silently ((only_attempt ..).mpr trivial) fun _ => ?_
  refine Speaks.silently (Prog.Only.mono (local_measure message) fun _ => Op.Local.silent) fun results => ?_
  exact Speaks.optionally (sendStatus_speaks fun _ => .over takesPart) fun _ => ⟨rfl, rfl, rfl, rfl⟩

theorem jobConsumer_speaks (config : WorkerConfig) (content : Message) :
    Speaks (.jobDelivery config content) (JobConsumer.run config content.sent) fun _ => True := by
  obtain ⟨jobId, message, rfl, takesPart, run⟩ | ⟨value, run⟩ := JobConsumer.run_cases config content <;> rw [run]
  · refine (obeys_bind ..).mpr (Obeys.mono (processMessage_speaks takesPart) (fun result _ answers => ?_) fun _ _ => id)
    obtain ⟨job, subJob, worker, success⟩ := answers
    exact (obeys_attempt ..).mpr ⟨.result takesPart job subJob worker success, fun _ => trivial⟩
  · cases value <;> trivial

theorem speakMonitor_covers (registry : ServiceScalerRegistry) : speakMonitor.Covers (platform registry) := by
  intro kind
  by_cases delivers : ∃ config content, kind = .jobDelivery config content
  · obtain ⟨config, content, rfl⟩ := delivers
    have settled (phase : Unit) : Handled speakMonitor.note (speakMonitor.legal (.jobDelivery config content))
        (fun _ _ => True) phase := ⟨⟨.silent trivial, .silent trivial, fun _ => rfl⟩, trivial⟩
    exact JobConsumer.obeys_consume (Obeys.mono (jobConsumer_speaks config content) (fun _ phase _ => settled phase)
      fun _ phase _ => settled phase)
  · have elsewhere (op : Op) : SpeakLegal kind op :=
      .elsewhere fun config content same => delivers ⟨config, content, same⟩
    have obeys : (kind.body registry).Obeys speakMonitor.note (speakMonitor.legal kind) () fun _ reached => reached = () :=
      Prog.obeys_indifferent elsewhere (fun _ => rfl) _
    exact obeys.mono fun _ _ _ => trivial

end Speaks

/-! ## Results and starts that are published -/

variable {registry : ServiceScalerRegistry} {source target : System} {event : SystemEvent}

/-- Results stay deliverable. -/
theorem resultQueue_grows (step : Step (platform registry) source event target) :
    source.world.resultQueue ⊆ target.world.resultQueue := by
  cases step with
  | @spawn kind admitted =>
    exact (sameJobs_enter source.world kind).resultQueue ▸ List.Subset.refl _
  | @call position task op next reply present awaits allowed =>
    change _ ⊆ (Act.after source.world ⟨op, reply⟩).resultQueue
    cases op with
    | sql stmt =>
      cases reply with
      | error e => exact List.Subset.refl _
      | ok row => cases stmt <;> exact List.Subset.refl _
    | publishResult =>
      cases reply with
      | error e => exact List.Subset.refl _
      | ok done => exact List.subset_cons_self ..
    | publishJob | publishStatus | dockerComposeUp => cases reply <;> exact List.Subset.refl _
    | updateService => rcases reply with _ | (_ | _) <;> exact List.Subset.refl _
    | _ => exact List.Subset.refl _
  | drift drifts =>
    obtain ⟨now, rfl⟩ := drifts
    exact List.Subset.refl _

/-- A worker handles a job message that does not leave it out. -/
def TakesPartIn (pool : System) (config : WorkerConfig) (jobId : Uuid) (message : JobMessage) : Prop :=
  config.workerName ∉ message.excludedWorkers ∧
    ∃ position, At pool position (.jobDelivery config (.workerJob jobId message)) .aside

/-- A new result is the answer of a worker that takes part. -/
theorem resultQueue_step (tracks : jobMonitor.TracksAll source) (speaks : speakMonitor.TracksAll source)
    (step : Step (platform registry) source event target) {jobId : Uuid} {result : ResultMessage}
    (sent : .workerResult jobId result ∈ target.world.resultQueue) :
    .workerResult jobId result ∈ source.world.resultQueue ∨
      ∃ config message, TakesPartIn source config jobId message ∧ result.Answers config jobId message := by
  cases event with
  | spawn kind => exact .inl ((sameJobs_of_step step fun _ _ same => by cases same).resultQueue ▸ sent)
  | drift => exact .inl ((sameJobs_of_step step fun _ _ same => by cases same).resultQueue ▸ sent)
  | call position made =>
    obtain ⟨op, reply⟩ := made
    obtain ⟨kind, phase, here, legal, allowed, reached⟩ := legal_of_call tracks step
    rw [reached] at sent
    cases legal with
    | quiet quiet => exact .inl ((sameJobs_of_quiet _ reply quiet).resultQueue ▸ sent)
    | answer =>
      cases reply with
      | error e => exact .inl sent
      | ok done =>
        obtain same | old := List.mem_cons.mp sent
        · cases same
          obtain ⟨kind', _, there, legal', -, -⟩ := speaks.legal step
          obtain rfl := here.flies.unique there.flies
          cases legal' with
          | elsewhere other => exact absurd rfl (other _ _)
          | silent silent => exact silent.elim
          | result takesPart job subJob worker success =>
            exact .inr ⟨_, _, ⟨takesPart, position, here⟩, job, subJob, worker, success⟩
        · exact .inl old
    | drawJob | drawSubJob | drawRun => exact .inl sent
    | _ => cases reply <;> exact .inl sent

end Bms
