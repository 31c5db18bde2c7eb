import Bms.Protocol.Deliveries
import Bms.Protocol.JobMonitor

/-! # The programs obey the protocol of jobs

One lemma for each function of the code that touches jobs or sub-jobs, assembled into
`jobMonitor_covers`. Whatever is quiet is bounded as a whole by `Only Op.Quiet`.
-/

namespace Bms

open Process Fallible

theorem JobPhase.note_quiet (phase : JobPhase) {op : Op} (quiet : op.Quiet) (reply : op.Reply) :
    phase.note ⟨op, reply⟩ = phase := by
  cases op with
  | sql stmt => cases stmt <;> first | exact absurd quiet id | (cases phase <;> rfl)
  | publishJob | publishResult | publishStatus | newUuid => exact absurd quiet id
  | _ => cases phase <;> rfl

/-! ## Quiet programs -/

section Quiet

variable {ε α : Type}

theorem Op.Local.quiet {op : Op} (apart : op.Local) : op.Quiet := by
  cases op <;> first | exact apart.elim | trivial

theorem quiet_of_local {program : Fallible Calls ε α} (only : program.Only Op.Local) : program.Only Op.Quiet :=
  Prog.Only.mono only fun _ => Op.Local.quiet

theorem local_unwrap (value : Option α) : (unwrap value : Fallible Calls ε α).Only Op.Local := by
  cases value with
  | none => exact ⟨trivial, fun reply : Empty => reply.elim⟩
  | some value => trivial

theorem local_utcNow : (utcNow : Fallible Calls ε DateTime).Only Op.Local := (only_attempt ..).mpr trivial

/-! A scaler calls its provider only. -/

theorem Op.Provider.quiet {op : Op} (provider : op.Provider) : op.Quiet := by
  cases op <;> first | exact provider.elim | trivial

theorem quiet_of_provider {program : Fallible Calls ε α} (only : program.Only Op.Provider) : program.Only Op.Quiet :=
  Prog.Only.mono only fun _ => Op.Provider.quiet

theorem provider_unwrap (value : Option α) : (unwrap value : Fallible Calls ε α).Only Op.Provider := by
  cases value with
  | none => exact ⟨trivial, fun reply : Empty => reply.elim⟩
  | some value => trivial

theorem provider_getInstanceCount (service : Service) : (DockerScaler.getInstanceCount service).Only Op.Provider :=
  (only_attempt ..).mpr trivial

theorem provider_scaleService (service : Service) (count : ℕ) :
    (DockerScaler.scaleService service count).Only Op.Provider :=
  (only_attempt ..).mpr trivial

theorem provider_getServiceInfo (service : Service) : (FargateScaler.getServiceInfo service).Only Op.Provider :=
  .bind (only_outcome _) fun _ => .bind ((only_attempt ..).mpr trivial) fun _ => only_pure _

theorem provider_updateService (service : Service) (desiredCount : ℤ) :
    (FargateScaler.updateService service desiredCount).Only Op.Provider :=
  .bind (only_outcome _) fun _ => (only_attempt ..).mpr trivial

theorem provider_scaleUp (scaler : ServiceScaler) (service : Service) (amount : ℤ) :
    (scaler.scaleUp service amount).Only Op.Provider := by
  cases scaler with
  | docker =>
    exact .bind (provider_getInstanceCount service) fun _ => .ite (only_pure _) (provider_scaleService ..)
  | fargate =>
    exact .bind (provider_getServiceInfo service) fun _ => .bind (provider_unwrap _) fun _ =>
      .ite (only_pure _) (provider_updateService ..)

theorem provider_scaleDown (scaler : ServiceScaler) (service : Service) (amount : ℤ) :
    (scaler.scaleDown service amount).Only Op.Provider := by
  cases scaler with
  | docker =>
    exact .bind (provider_getInstanceCount service) fun _ => .ite (only_pure _) (provider_scaleService ..)
  | fargate =>
    exact .bind (provider_getServiceInfo service) fun _ => .bind (provider_unwrap _) fun _ =>
      .ite (only_pure _) (provider_updateService ..)

theorem provider_getInfo (scaler : ServiceScaler) (service : Service) :
    (scaler.getInfo service).Only Op.Provider := by
  cases scaler with
  | docker => exact .bind (provider_getInstanceCount service) fun _ => only_pure _
  | fargate => exact provider_getServiceInfo service

theorem quiet_scaleUp (scaler : ServiceScaler) (service : Service) (amount : ℤ) :
    (scaler.scaleUp service amount).Only Op.Quiet := quiet_of_provider (provider_scaleUp ..)

theorem quiet_scaleDown (scaler : ServiceScaler) (service : Service) (amount : ℤ) :
    (scaler.scaleDown service amount).Only Op.Quiet := quiet_of_provider (provider_scaleDown ..)

theorem quiet_getInfo (scaler : ServiceScaler) (service : Service) : (scaler.getInfo service).Only Op.Quiet :=
  quiet_of_provider (provider_getInfo ..)

theorem quiet_findScaler (registry : ServiceScalerRegistry) (service : Service) :
    (findScaler registry service).Only Op.Quiet := by
  unfold findScaler
  split <;> trivial

theorem quiet_getService (serviceId : Uuid) : (getService serviceId).Only Op.Quiet := (only_attempt ..).mpr trivial

theorem quiet_clearDescaleDeadline (serviceId : Uuid) (error : ApiError) :
    (orRespond (.clearDescaleDeadline serviceId) error).Only Op.Quiet := (only_attempt ..).mpr trivial

theorem quiet_scalerInfo (scaler : ServiceScaler) (service : Service) : (scalerInfo scaler service).Only Op.Quiet :=
  (quiet_getInfo scaler service).mapError _

theorem quiet_handleCreateService (payload : CreateServiceInput) : (handleCreateService payload).Only Op.Quiet :=
  .ite (only_throw _) <| .bind (only_outcome _) fun _ => .bind ((only_attempt ..).mpr trivial) fun _ =>
    .bind ((only_attempt ..).mpr trivial) fun _ => .bind ((only_attempt ..).mpr trivial) fun _ => only_pure _

theorem quiet_handleUpdateService (serviceId : Uuid) (isEnabled : Bool) :
    (handleUpdateService serviceId isEnabled).Only Op.Quiet := (only_attempt ..).mpr trivial

theorem quiet_handleDeleteService (registry : ServiceScalerRegistry) (serviceId : Uuid) :
    (handleDeleteService registry serviceId).Only Op.Quiet := by
  refine .bind (quiet_getService serviceId) fun service => ?_
  have deletes : (orRespond (.deleteServiceById serviceId) (.internalServerError "Failed to delete service")).Only
      Op.Quiet := (only_attempt ..).mpr trivial
  split
  · exact .bind deletes fun _ => only_pure _
  · exact .bind (quiet_scaleDown ..).optional fun _ => .bind deletes fun _ => only_pure _

theorem quiet_handleServicesInfo (registry : ServiceScalerRegistry) (serviceId : Uuid) :
    (handleServicesInfo registry serviceId).Only Op.Quiet :=
  .bind (quiet_getService serviceId) fun _ => .bind (quiet_findScaler ..) fun _ => quiet_scalerInfo ..

theorem quiet_handleServicesScaleUp (registry : ServiceScalerRegistry) (serviceId : Uuid) (amount : ℕ) :
    (handleServicesScaleUp registry serviceId amount).Only Op.Quiet :=
  .bind (quiet_getService serviceId) fun _ => .bind (quiet_findScaler ..) fun _ =>
    .bind ((quiet_scaleUp ..).mapError _) fun _ => quiet_scalerInfo ..

theorem quiet_handleServicesScaleDown (registry : ServiceScalerRegistry) (serviceId : Uuid) (amount : ℕ) :
    (handleServicesScaleDown registry serviceId amount).Only Op.Quiet :=
  .bind (quiet_getService serviceId) fun _ => .bind (quiet_findScaler ..) fun _ =>
    .bind ((quiet_scaleDown ..).mapError _) fun _ => .bind (quiet_scalerInfo ..) fun _ =>
      .ite (.bind (quiet_clearDescaleDeadline ..) fun _ => only_pure _) (only_pure _)

theorem quiet_scaleDownWithInfo (registry : ServiceScalerRegistry) (service : Service) :
    (scaleDownWithInfo registry service).Only Op.Quiet := by
  unfold scaleDownWithInfo
  split
  · trivial
  · exact .bind (quiet_scaleDown ..).optional fun _ => .bind (quiet_getInfo ..).optional fun _ =>
      .ite (.bind (quiet_clearDescaleDeadline ..).optional fun _ => only_pure _) (only_pure _)

theorem quiet_scaleDownServices (registry : ServiceScalerRegistry) (services : List Service) :
    (scaleDownServices registry services).Only Op.Quiet := by
  induction services with
  | nil => trivial
  | cons service services ih => exact .bind (quiet_scaleDownWithInfo ..) fun _ => .bind ih fun _ => only_pure _

theorem quiet_handleServicesScaleDownAll (registry : ServiceScalerRegistry) :
    (handleServicesScaleDownAll registry).Only Op.Quiet :=
  .bind ((only_attempt ..).mpr trivial) fun _ => quiet_scaleDownServices ..

theorem quiet_descaleServices (registry : ServiceScalerRegistry) (services : List Service) :
    (descaleServices registry services).Only Op.Quiet := by
  induction services with
  | nil => trivial
  | cons service services ih =>
    refine .bind ?_ fun _ => ih
    unfold descaleService
    split
    · trivial
    · refine .bind (quiet_scaleDown ..) fun reached => ?_
      cases reached with
      | error e => trivial
      | ok value => exact ⟨trivial, fun _ => trivial⟩

theorem quiet_serviceDescalerHandler (registry : ServiceScalerRegistry) :
    (serviceDescalerHandler registry).Only Op.Quiet := by
  refine ⟨trivial, fun reply => ?_⟩
  cases reply with
  | error e => trivial
  | ok services => exact quiet_descaleServices ..

theorem quiet_setWorkersOffline (workerNames : List String) : (setWorkersOffline workerNames).Only Op.Quiet := by
  induction workerNames with
  | nil => trivial
  | cons workerName workerNames ih => exact ⟨trivial, fun _ => ih⟩

theorem quiet_processWorkerOnlineCheck : processWorkerOnlineCheck.Only Op.Quiet := by
  refine ⟨trivial, fun reply => ?_⟩
  cases reply with
  | error e => trivial
  | ok workerNames => exact quiet_setWorkersOffline workerNames

/-! The measurements of a worker ask for the range that the job message names. -/

theorem Op.Measures.apart {message : JobMessage} {op : Op} (measures : op.Measures message) : op.Local := by
  cases op <;> first | exact measures | trivial

theorem measures_unwrap (message : JobMessage) (value : Option α) :
    (unwrap value : Fallible Calls ε α).Only (Op.Measures message) := by
  cases value with
  | none => exact ⟨trivial, fun reply : Empty => reply.elim⟩
  | some value => trivial

theorem measures_utcNow (message : JobMessage) : (utcNow : Fallible Calls ε DateTime).Only (Op.Measures message) :=
  (only_attempt ..).mpr trivial

theorem measures_downloadChunks (payload : JobMessage) (downloadStartTime : DateTime) (replies : List ChunkReply)
    (progress : Download.Progress) :
    (Download.downloadChunks payload downloadStartTime replies progress).Only (Op.Measures payload) := by
  induction replies generalizing progress with
  | nil => trivial
  | cons reply replies ih =>
    refine .bind ((only_attempt ..).mpr trivial) fun _ => ?_
    cases reply with
    | done | timedOut | failed => trivial
    | chunk chunkSize =>
      exact .bind (measures_utcNow _) fun _ => .ite (only_pure _) <|
        .ite (.bind (measures_unwrap ..) fun _ => ih _) (ih _)

theorem measures_download (payload : JobMessage) : (Download.process payload).Only (Op.Measures payload) := by
  have waits : (Download.waitForStartTime payload).Only (Op.Measures payload) :=
    .bind (measures_utcNow _) fun _ => .ite (only_throw _) ((only_attempt ..).mpr trivial)
  exact .bind (measures_utcNow _) fun _ => .bind (waits.mapError _) fun _ =>
    .bind ((only_attempt ..).mpr ⟨rfl, rfl, rfl⟩) fun _ => .ite (only_throw _) <| .bind (measures_utcNow _) fun _ =>
      .bind (measures_utcNow _) fun _ => .bind (measures_unwrap ..) fun _ => .bind (measures_downloadChunks ..) fun _ =>
        .ite (only_throw _) <| .bind (measures_utcNow _) fun _ => only_pure _

theorem measures_pingLoop (message : JobMessage) (deadline : DateTime) (left seq : ℕ) (latencies : List ℚ) :
    (Ping.pingLoop deadline left seq latencies).Only (Op.Measures message) := by
  induction left generalizing seq latencies with
  | zero => trivial
  | succ left ih =>
    exact .bind (measures_utcNow _) fun _ => .ite (only_pure _) <| .bind ((only_attempt ..).mpr trivial) fun _ => ih ..

theorem measures_ping (payload : JobMessage) : (Ping.process payload).Only (Op.Measures payload) :=
  .bind (measures_unwrap ..) fun _ => .bind ((only_attempt ..).mpr trivial) fun _ => .bind (only_outcome _) fun _ =>
    .bind ((only_attempt ..).mpr trivial) fun _ => .bind (only_outcome _) fun _ =>
      .bind ((only_attempt ..).mpr trivial) fun _ => .bind (measures_pingLoop ..) fun _ =>
        .ite (only_throw _) (only_pure _)

theorem measures_headLoop (message : JobMessage) (url : String) (deadline : DateTime) (left : ℕ) (latencies : List ℚ) :
    (Head.headLoop url deadline left latencies).Only (Op.Measures message) := by
  induction left generalizing latencies with
  | zero => trivial
  | succ left ih =>
    exact .bind (measures_utcNow _) fun _ => .ite (only_pure _) <| .bind ((only_attempt ..).mpr trivial) fun _ => ih _

theorem measures_head (payload : JobMessage) : (Head.process payload).Only (Op.Measures payload) :=
  .bind (measures_unwrap ..) fun _ => .bind (measures_headLoop ..) fun _ => .ite (only_throw _) (only_pure _)

theorem measures_measure (message : JobMessage) : (JobConsumer.measure message).Only (Op.Measures message) :=
  Prog.Only.bind
    (.join trivial (measures_download message) (.join trivial (measures_ping message) (measures_head message)))
    fun _ => trivial

theorem local_measure (message : JobMessage) : (JobConsumer.measure message).Only Op.Local :=
  Prog.Only.mono (measures_measure message) fun _ => Op.Measures.apart

/-! What a delivery calls before it is acknowledged. -/

theorem records_attempt {stmt : Stmt} (records : Op.RecordsStatus (.sql stmt)) : (orFail stmt).Only Op.RecordsStatus :=
  (only_attempt ..).mpr records

theorem StatusConsumer.only_run (content : Message) : (StatusConsumer.run content.sent).Only Op.RecordsStatus := by
  obtain ⟨message, rfl, run⟩ | ⟨e, run⟩ := StatusConsumer.run_cases content <;> rw [run]
  · unfold StatusConsumer.processMessage
    split
    · refine .bind (records_attempt trivial) fun _ => ?_
      split
      · exact .bind (records_attempt trivial) fun _ => records_attempt trivial
      · exact records_attempt trivial
    · refine .bind (records_attempt trivial) fun _ => ?_
      split
      · exact records_attempt trivial
      · trivial
    · exact records_attempt trivial
  · trivial

theorem DataConsumer.only_run (content : Message) :
    (DataConsumer.run content.sent).Only fun op : Op => ∃ result, op = .sql (.saveData result) := by
  obtain ⟨jobId, result, rfl, run⟩ | ⟨e, run⟩ := DataConsumer.run_cases content <;> rw [run]
  · exact (only_attempt ..).mpr ⟨result, rfl⟩
  · trivial

theorem Op.Measures.handles {message : JobMessage} {op : Op} (measures : op.Measures message) : op.Handles message := by
  cases op <;> first | exact measures | trivial

theorem handles_utcNow (message : JobMessage) : (utcNow : Fallible Calls ε DateTime).Only (Op.Handles message) :=
  (only_attempt ..).mpr trivial

theorem handles_sendStatus (message : JobMessage) (config : WorkerConfig) (status : WorkerStatusDetails) :
    (StatusSender.sendStatus config status).Only (Op.Handles message) :=
  .bind (handles_utcNow message) fun _ => (only_attempt ..).mpr trivial

theorem handles_processMessage (config : WorkerConfig) (jobId : Uuid) (message : JobMessage) :
    (JobConsumer.processMessage config jobId message).Only (Op.Handles message) := by
  have measures : (JobConsumer.measure message).Only (Op.Handles message) :=
    Prog.Only.mono (measures_measure message) fun _ => Op.Measures.handles
  refine .bind ((only_attempt ..).mpr trivial) fun runId => .bind (handles_utcNow _) fun now => .ite (only_pure _) ?_
  refine .bind (handles_sendStatus ..).optional fun _ => .bind (handles_utcNow _) fun now => .ite (only_throw _) ?_
  exact .bind ((only_attempt ..).mpr trivial) fun _ => .bind measures fun _ =>
    .bind (handles_sendStatus ..).optional fun _ => only_pure _

/-- A worker calls what it needs to handle the message that it has been sent. -/
theorem JobConsumer.only_run {C : Op → Prop} (config : WorkerConfig) (content : Message)
    (handles : ∀ jobId message, content = .workerJob jobId message → ∀ op : Op, op.Handles message → C op) :
    (JobConsumer.run config content.sent).Only C := by
  obtain ⟨jobId, message, rfl, -, run⟩ | ⟨value, run⟩ := JobConsumer.run_cases config content <;> rw [run]
  · have answers (result : ResultMessage) : (attempt (.publishResult (.workerResult jobId result)) fun _ => .ok () :
        Fallible Calls JobConsumer.Error Unit).Only (Op.Handles message) := (only_attempt ..).mpr trivial
    exact Prog.Only.mono (Fallible.Only.bind (handles_processMessage config jobId message) answers)
      (handles jobId message rfl)
  · exact only_outcome value

end Quiet

/-! ## Following the protocol -/

section Follows

variable {ε α β : Type} {kind : Kind} {phase : JobPhase} {good : α → JobPhase → Prop} {bad : ε → JobPhase → Prop}

/-- A program that a task of this kind may run from a phase on. -/
abbrev Follows (kind : Kind) (program : Fallible Calls ε α) (phase : JobPhase) (good : α → JobPhase → Prop)
    (bad : ε → JobPhase → Prop) : Prop :=
  Fallible.Obeys JobPhase.note (JobLegal kind) program phase good bad

theorem follows_of_quiet {program : Prog Calls α} (only : program.Only Op.Quiet) (going : phase.Open) :
    program.Obeys JobPhase.note (JobLegal kind) phase fun _ reached => reached = phase :=
  only.obeys fun _ quiet => ⟨.quiet quiet going, phase.note_quiet quiet⟩

/-- A quiet first part changes nothing. -/
theorem Follows.quietly {program : Fallible Calls ε α} {rest : α → Fallible Calls ε β} {good : β → JobPhase → Prop}
    (only : program.Only Op.Quiet) (going : phase.Open) (stop : ∀ e, bad e phase)
    (next : ∀ value, Follows kind (rest value) phase good bad) : Follows kind (program >>= rest) phase good bad := by
  refine (obeys_bind ..).mpr (Prog.Obeys.mono (follows_of_quiet only going) fun reached middle same => ?_)
  subst same
  cases reached with
  | ok value => exact next value
  | error e => exact stop e

/-- A statement is legal, and both of its outcomes are followed up. -/
theorem Follows.sql {stmt : Stmt} {report : SqlxError → ε} {rest : stmt.Row → Fallible Calls ε β}
    {good : β → JobPhase → Prop} (legal : JobLegal kind phase (.sql stmt))
    (stop : ∀ e, bad (report e) (phase.note ⟨.sql stmt, .error e⟩))
    (next : ∀ row, Follows kind (rest row) (phase.note ⟨.sql stmt, .ok row⟩) good bad) :
    Follows kind (attempt (.sql stmt) (Except.mapError report) >>= rest) phase good bad := by
  refine (obeys_bind ..).mpr ((obeys_attempt ..).mpr ⟨legal, fun reply => ?_⟩)
  cases reply with
  | ok row => exact next row
  | error e => exact stop e

theorem Follows.lastSql {stmt : Stmt} {report : SqlxError → ε} {good : stmt.Row → JobPhase → Prop}
    (legal : JobLegal kind phase (.sql stmt)) (stop : ∀ e, bad (report e) (phase.note ⟨.sql stmt, .error e⟩))
    (done : ∀ row, good row (phase.note ⟨.sql stmt, .ok row⟩)) :
    Follows kind (attempt (.sql stmt) (Except.mapError report)) phase good bad := by
  refine (obeys_attempt ..).mpr ⟨legal, fun reply => ?_⟩
  cases reply with
  | ok row => exact done row
  | error e => exact stop e

/-- A first part whose failure is ignored, and that ends in the phase where it began. -/
theorem Follows.optionally {δ : Type} {program : Fallible Calls δ α} {rest : Option α → Fallible Calls ε β}
    {good : β → JobPhase → Prop}
    (follows : Follows kind program phase (fun _ reached => reached = phase) fun _ reached => reached = phase)
    (next : ∀ value, Follows kind (rest value) phase good bad) :
    Follows kind (program.optional >>= rest) phase good bad := by
  refine (obeys_bind ..).mpr ((obeys_optional _).mpr (Obeys.mono follows ?_ ?_))
  · rintro value reached rfl
    exact next (some value)
  · rintro e reached rfl
    exact next none

theorem Follows.fails {e : ε} (stop : bad e phase) : Follows kind (throw e : Fallible Calls ε α) phase good bad := stop

theorem Follows.returns {value : α} (done : good value phase) :
    Follows kind (pure value : Fallible Calls ε α) phase good bad := done

theorem follows_ignore {program : Fallible Calls ε α}
    (follows : Follows kind program phase (fun _ => JobPhase.Final) fun _ => JobPhase.Final) :
    (ignore program).Obeys JobPhase.note (JobLegal kind) phase fun _ => JobPhase.Final :=
  Obeys.handle follows

theorem loop_of_quiet {program : Prog Calls Unit} (only : program.Only Op.Quiet) :
    program.Obeys JobPhase.note (JobLegal kind) .aside fun _ => JobPhase.Final := by
  have kept : program.Obeys JobPhase.note (JobLegal kind) .aside fun _ reached => reached = .aside :=
    follows_of_quiet only trivial
  apply kept.mono
  intro _ reached same
  subst same
  trivial

theorem ignore_of_quiet {program : Fallible Calls ε α} (only : program.Only Op.Quiet) :
    (ignore program).Obeys JobPhase.note (JobLegal kind) .aside fun _ => JobPhase.Final :=
  loop_of_quiet (Prog.Only.bind only fun _ => Prog.only_ret ())

end Follows

/-! ## A tick -/

section Tick

variable {subJob : SubJobWithJob}

/-- Where a tick may stop with an error: the sub-job is failed only from some phases. -/
def Failing (subJob : SubJobWithJob) : SubJobHandlerError → JobPhase → Prop
  | .skip _, phase => phase.Final
  | .failedJob _, phase => phase.Failable subJob

theorem Failing.held (e : SubJobHandlerError) : Failing subJob e (.held subJob) := by
  cases e with
  | skip => trivial
  | failedJob => exact .inl rfl

theorem Failing.surveyed (e : SubJobHandlerError) (workers : List String) : Failing subJob e (.surveyed subJob workers) := by
  cases e with
  | skip => trivial
  | failedJob => exact .inr (.inl ⟨workers, rfl⟩)

theorem settle_follows {step : SubJobStep Unit} {phase : JobPhase}
    (follows : Follows .subJobTick step phase (fun _ => JobPhase.Final) (Failing subJob)) :
    (step.run >>= settle subJob).Obeys JobPhase.note (JobLegal .subJobTick) phase fun _ => JobPhase.Final := by
  refine Obeys.handle (Obeys.mono follows (fun _ _ final => final) fun e reached failing => ?_)
  cases e with
  | skip message => exact failing
  | failedJob message =>
    refine ⟨.fail failing, fun _ => ?_⟩
    rw [failing.note]
    trivial

theorem local_getTopic (subJob : SubJobWithJob) : (getTopic subJob).Only Op.Local := by
  unfold getTopic
  split
  · trivial
  · exact local_unwrap _

theorem quiet_getServices (topic : String) : (getServices topic).Only Op.Quiet :=
  .bind ((only_attempt ..).mpr trivial) fun _ => .ite (only_throw _) (only_pure _)

theorem local_checkDeadline (subJob : SubJobWithJob) : (checkDeadline subJob).Only Op.Local := by
  unfold checkDeadline
  split
  · trivial
  · exact .bind local_utcNow fun _ => .ite (only_throw _) (only_pure _)

theorem quiet_scaleUpServices (registry : ServiceScalerRegistry) (scaleEachBy : ℕ) (services : List Service) :
    (scaleUpServices registry scaleEachBy services).Only Op.Quiet := by
  induction services with
  | nil => trivial
  | cons service services ih =>
    unfold scaleUpServices
    split
    · trivial
    · exact .bind ((quiet_scaleUp ..).mapError _) fun _ => ih

theorem getWorkersOnline_follows (topic : String) :
    Follows .subJobTick (getWorkersOnline topic) (.held subJob)
      (fun workers reached => reached = .surveyed subJob workers) (Failing subJob) :=
  .lastSql .survey (fun _ => trivial) fun _ => rfl

theorem getServicesAndWorkers_follows :
    Follows .subJobTick (getServicesAndWorkers subJob) (.held subJob)
      (fun plan reached => reached = .surveyed subJob plan.2.1) (Failing subJob) := by
  refine .quietly (quiet_of_local (local_getTopic subJob)) trivial Failing.held fun topic => ?_
  refine .quietly (quiet_getServices topic) trivial Failing.held fun services => ?_
  refine (obeys_bind ..).mpr (Obeys.mono (getWorkersOnline_follows topic) (fun workers reached same => ?_) fun _ _ => id)
  subst same
  split
  · exact Follows.fails (Failing.surveyed _ workers)
  · exact Follows.returns rfl

theorem processScalingCreated_follows (registry : ServiceScalerRegistry) (scaling : subJob.type = .scaling)
    (created : subJob.status = .created) :
    Follows .subJobTick (processScalingCreated registry subJob) (.held subJob) (fun _ => JobPhase.Final) (Failing subJob) := by
  refine (obeys_bind ..).mpr (Obeys.mono getServicesAndWorkers_follows ?_ fun _ _ => id)
  rintro ⟨services, workers, workersCount, scaleEachBy⟩ reached rfl
  refine Follows.sql (.expect scaling created) (fun _ => trivial) fun _ => ?_
  refine Follows.quietly (quiet_of_local local_utcNow) trivial (Failing.surveyed · workers) fun now => ?_
  refine Follows.sql (.extend scaling created) (fun _ => trivial) fun _ => ?_
  split
  · exact Follows.lastSql (.unneeded scaling created) (fun _ => trivial) fun _ => trivial
  · refine Follows.quietly (quiet_scaleUpServices ..) trivial (Failing.surveyed · workers) fun _ => ?_
    refine Follows.quietly (quiet_of_local local_utcNow) trivial (Failing.surveyed · workers) fun now => ?_
    exact Follows.lastSql (.scaled scaling created) (fun _ => trivial) fun _ => trivial

theorem processScalingProcessing_follows (scaling : subJob.type = .scaling) (processing : subJob.status = .processing) :
    Follows .subJobTick (processScalingProcessing subJob) (.held subJob) (fun _ => JobPhase.Final) (Failing subJob) := by
  refine .quietly (quiet_of_local (local_checkDeadline subJob)) trivial Failing.held fun _ => ?_
  refine (obeys_bind ..).mpr (Obeys.mono getServicesAndWorkers_follows ?_ fun _ _ => id)
  rintro ⟨services, workers, workersCount, scaleEachBy⟩ reached rfl
  dsimp only
  split
  · exact Follows.lastSql (.reached scaling processing) (fun _ => trivial) fun _ => trivial
  · exact Follows.returns trivial

theorem processScaling_follows (registry : ServiceScalerRegistry) (scaling : subJob.type = .scaling) :
    (processScaling registry subJob).Obeys JobPhase.note (JobLegal .subJobTick) (.held subJob) fun _ => JobPhase.Final := by
  apply settle_follows
  cases status : subJob.status with
  | created => exact processScalingCreated_follows registry scaling status
  | processing => exact processScalingProcessing_follows scaling status
  | pending | completed | failed | canceled => exact Follows.fails (Failing.held _)

theorem getWorkersOnlineBySubJobTopic_follows :
    Follows .subJobTick (getWorkersOnlineBySubJobTopic subJob) (.held subJob)
      (fun workers reached => reached = .surveyed subJob workers) (Failing subJob) := by
  refine .quietly (.bind ((only_attempt ..).mpr trivial) fun _ =>
    quiet_of_local (local_getTopic _)) trivial Failing.held fun topic => ?_
  exact getWorkersOnline_follows topic

theorem processStatusCreated_follows (measuring : subJob.type = .combinedDHP) (created : subJob.status = .created) :
    Follows .subJobTick (processStatusCreated subJob) (.held subJob) (fun _ => JobPhase.Final) (Failing subJob) := by
  refine .quietly (quiet_of_local local_utcNow) trivial Failing.held fun now => ?_
  refine (obeys_bind ..).mpr (Obeys.mono getWorkersOnlineBySubJobTopic_follows ?_ fun _ _ => id)
  rintro workers reached rfl
  split
  · exact Follows.fails (Failing.surveyed _ workers)
  · next online =>
    have some : workers ≠ [] := fun none => online (by rw [none]; rfl)
    refine Follows.sql (.record measuring created some) (fun _ => trivial) fun _ => ?_
    refine (obeys_bind ..).mpr ((obeys_attempt ..).mpr ⟨.publish measuring created, fun reply => ?_⟩)
    cases reply with
    | error e => trivial
    | ok sent => exact Follows.lastSql (.pend measuring created) (fun _ => .inr (.inr rfl)) fun _ => trivial

theorem processStatusProcessing_follows (measuring : subJob.type = .combinedDHP)
    (processing : subJob.status = .processing) :
    Follows .subJobTick (processStatusProcessing subJob) (.held subJob) (fun _ => JobPhase.Final) (Failing subJob) := by
  refine .quietly (quiet_of_local (local_checkDeadline subJob)) trivial Failing.held fun _ => ?_
  refine (obeys_bind ..).mpr ((obeys_outcome _).mpr ?_)
  split
  · next workersCount counted =>
    refine Follows.sql (.collect measuring processing) (fun _ => trivial) fun data => ?_
    split
    · next enough =>
      refine Follows.sql (.complete measuring processing counted enough) (fun _ => trivial) fun _ => ?_
      refine Follows.sql (.count measuring) (fun _ => trivial) fun count => ?_
      split
      · next none =>
        subst none
        exact Follows.lastSql (.close measuring) (fun _ => trivial) fun _ => trivial
      · next some =>
        apply Follows.returns
        change (if count = 0 then JobPhase.emptied subJob else .finished).Final
        rw [if_neg some]
        trivial
    · exact Follows.returns trivial
  · exact Failing.held _

theorem processCombinedDhpType_follows (measuring : subJob.type = .combinedDHP) :
    (processCombinedDhpType subJob).Obeys JobPhase.note (JobLegal .subJobTick) (.held subJob) fun _ => JobPhase.Final := by
  apply settle_follows
  cases status : subJob.status with
  | created => exact processStatusCreated_follows measuring status
  | pending =>
    have kept : (checkDeadline subJob).run.Obeys JobPhase.note (JobLegal .subJobTick) (.held subJob)
        fun _ reached => reached = .held subJob := follows_of_quiet (quiet_of_local (local_checkDeadline subJob)) trivial
    apply Prog.Obeys.mono kept
    intro checked reached same
    subst same
    cases checked with
    | ok value => trivial
    | error e => exact Failing.held e
  | processing => exact processStatusProcessing_follows measuring status
  | completed | failed | canceled => exact Follows.returns trivial

theorem subJobHandler_follows (registry : ServiceScalerRegistry) :
    (subJobHandler registry).Obeys JobPhase.note (JobLegal .subJobTick) .searching fun _ => JobPhase.Final := by
  refine (Prog.obeys_bind ..).mpr ((obeys_execute ..).mpr ⟨.pick, fun reply => ?_⟩)
  cases reply with
  | error e => trivial
  | ok subJob =>
    cases type : subJob.type with
    | combinedDHP =>
      simp only [type]
      exact processCombinedDhpType_follows type
    | scaling =>
      simp only [type]
      exact processScaling_follows registry type

end Tick

/-! ## Requests, deliveries and workers -/

section Requests

variable {payload : CreateJobInput}

theorem local_ofInput (input : CreateJobInput) : (CreateJobParams.ofInput input).Only Op.Local :=
  .bind ((only_attempt ..).mpr trivial) fun _ => .ite (only_throw _) <| .ite (only_throw _) (only_pure _)

theorem local_getFileRangeForFile (url : String) (sizeMb : ℤ) : (getFileRangeForFile url sizeMb).Only Op.Local :=
  .bind ((only_attempt ..).mpr trivial) fun _ => .bind (only_outcome _) fun _ => .ite (only_throw _) <|
    .ite ⟨trivial, fun reply : Empty => reply.elim⟩ <| .bind ((only_attempt ..).mpr trivial) fun _ => only_pure _

theorem createSubJob_follows {job : Job} {details : SubJobDetails} {subJobs : ℕ} (started : 0 < subJobs)
    (few : subJobs < 4) :
    Follows (.createJob payload) (createSubJob job details) (.creating job.id subJobs)
      (fun _ reached => reached = .creating job.id (subJobs + 1)) fun _ => JobPhase.Final := by
  refine (obeys_bind ..).mpr ((obeys_attempt ..).mpr ⟨.drawSubJob few, fun subJobId => ?_⟩)
  have legal : JobLegal (.createJob payload) (.creating job.id subJobs)
      (.sql (.createSubJob subJobId job.id .created .combinedDHP details)) := by
    simpa only [Nat.pos_iff_ne_zero.mp started, ↓reduceIte] using
      (.insertSubJob few : JobLegal (.createJob payload) _ (.sql (.createSubJob subJobId job.id .created _ details)))
  exact Follows.lastSql legal (fun _ => trivial) fun _ => rfl

theorem handleCreateJob_follows :
    Follows (.createJob payload) (handleCreateJob payload) .validating (fun _ => JobPhase.Final) fun _ => JobPhase.Final := by
  refine .quietly (quiet_of_local (local_ofInput payload)) trivial (fun _ => trivial) fun params => ?_
  refine .quietly (quiet_of_local (local_getFileRangeForFile ..)) trivial (fun _ => trivial) fun range => ?_
  refine (obeys_bind ..).mpr ((obeys_attempt ..).mpr ⟨.drawJob, fun jobId => ?_⟩)
  refine Follows.sql .insertJob (fun _ => trivial) fun job => ?_
  refine (obeys_bind ..).mpr ((obeys_attempt ..).mpr ⟨.drawSubJob (by decide), fun scalingId => ?_⟩)
  refine Follows.sql (.insertSubJob (by decide)) (fun _ => trivial) fun scalingSubJob => ?_
  refine (obeys_bind ..).mpr (Obeys.mono (createSubJob_follows (by decide) (by decide)) ?_ fun _ _ => id)
  rintro first reached rfl
  refine (obeys_bind ..).mpr (Obeys.mono (createSubJob_follows (by decide) (by decide)) ?_ fun _ _ => id)
  rintro second reached rfl
  refine (obeys_bind ..).mpr (Obeys.mono (createSubJob_follows (by decide) (by decide)) ?_ fun _ _ => id)
  rintro third reached rfl
  exact Follows.returns rfl

theorem handleCancelJob_follows (jobId : Uuid) :
    Follows (.cancelJob jobId) (handleCancelJob jobId) .cancelling (fun _ => JobPhase.Final) fun _ => JobPhase.Final := by
  refine .sql .cancelJob (fun _ => trivial) fun _ => ?_
  refine Follows.sql .cancelSubJobs (fun _ => trivial) fun _ => ?_
  exact Follows.lastSql (.quiet trivial trivial) (fun _ => trivial) fun _ => trivial

/-- A delivery may be acknowledged wherever it leaves the jobs aside. -/
abbrev Acknowledged (kind : Kind) (phase : JobPhase) : Prop :=
  Handled JobPhase.note (JobLegal kind) (fun _ => JobPhase.Final) phase

theorem acknowledged_aside {kind : Kind} : Acknowledged kind .aside :=
  ⟨⟨.quiet trivial trivial, .quiet trivial trivial, fun _ => rfl⟩, trivial⟩

theorem statusConsumer_follows (content : Message) :
    Follows (.statusDelivery content) (StatusConsumer.run content.sent) .aside
      (fun _ => Acknowledged (.statusDelivery content)) fun _ => Acknowledged (.statusDelivery content) := by
  obtain ⟨message, rfl, run⟩ | ⟨e, run⟩ := StatusConsumer.run_cases content <;> rw [run]
  · obtain ⟨workerName, status, timestamp⟩ := message
    cases status with
    | lifecycle details =>
      refine Follows.sql (.quiet trivial trivial) (fun _ => acknowledged_aside) fun _ => ?_
      split
      · refine Follows.sql (.quiet trivial trivial) (fun _ => acknowledged_aside) fun _ => ?_
        exact Follows.lastSql (.quiet trivial trivial) (fun _ => acknowledged_aside) fun _ => acknowledged_aside
      · exact Follows.lastSql (.quiet trivial trivial) (fun _ => acknowledged_aside) fun _ => acknowledged_aside
    | job details =>
      refine Follows.sql (.quiet trivial trivial) (fun _ => acknowledged_aside) fun _ => ?_
      cases details with
      | some details => exact Follows.lastSql .begin (fun _ => acknowledged_aside) fun _ => acknowledged_aside
      | none => exact Follows.returns acknowledged_aside
    | heartbeat =>
      exact Follows.lastSql (.quiet trivial trivial) (fun _ => acknowledged_aside) fun _ => acknowledged_aside
  · exact Follows.fails acknowledged_aside

theorem dataConsumer_follows (content : Message) :
    Follows (.dataDelivery content) (DataConsumer.run content.sent) .aside
      (fun _ => Acknowledged (.dataDelivery content)) fun _ => Acknowledged (.dataDelivery content) := by
  obtain ⟨jobId, result, rfl, run⟩ | ⟨e, run⟩ := DataConsumer.run_cases content <;> rw [run]
  · exact Follows.lastSql .save (fun _ => acknowledged_aside) fun _ => acknowledged_aside
  · exact Follows.fails acknowledged_aside

theorem sendJobStatus_follows {config : WorkerConfig} {jobId : Uuid} {message : JobMessage}
    {details : Option WorkerStatusJobDetails} (own : ∀ d ∈ details, d.subJobId = message.subJobId) :
    Follows (.jobDelivery config (.workerJob jobId message)) (StatusSender.sendJobStatus config details) .aside
      (fun _ reached => reached = .aside) fun _ reached => reached = .aside := by
  refine .quietly (quiet_of_local local_utcNow) trivial (fun _ => rfl) fun timestamp => ?_
  refine (obeys_attempt ..).mpr ⟨.announce own, fun reply => ?_⟩
  cases reply <;> rfl

theorem processMessage_follows (config : WorkerConfig) (jobId : Uuid) (message : JobMessage) :
    Follows (.jobDelivery config (.workerJob jobId message)) (JobConsumer.processMessage config jobId message) .aside
      (fun result reached => reached = .aside ∧ result.workerName = config.workerName ∧
        result.subJobId = message.subJobId) fun _ reached => reached = .aside := by
  refine (obeys_bind ..).mpr ((obeys_attempt ..).mpr ⟨.drawRun, fun runId => ?_⟩)
  refine Follows.quietly (quiet_of_local local_utcNow) trivial (fun _ => rfl) fun now => ?_
  split
  · exact Follows.returns ⟨rfl, rfl, rfl⟩
  · refine Follows.optionally (sendJobStatus_follows (by simp)) fun _ => ?_
    refine Follows.quietly (quiet_of_local local_utcNow) trivial (fun _ => rfl) fun now => ?_
    dsimp only
    split
    · exact Follows.fails rfl
    · refine Follows.quietly ((only_attempt ..).mpr trivial) trivial (fun _ => rfl) fun _ => ?_
      refine Follows.quietly (quiet_of_local (local_measure message)) trivial (fun _ => rfl) fun results => ?_
      exact Follows.optionally (sendJobStatus_follows (by simp)) fun _ => Follows.returns ⟨rfl, rfl, rfl⟩

theorem jobConsumer_follows (config : WorkerConfig) (content : Message) :
    Follows (.jobDelivery config content) (JobConsumer.run config content.sent) .aside
      (fun _ => Acknowledged (.jobDelivery config content)) fun _ => Acknowledged (.jobDelivery config content) := by
  obtain ⟨jobId, message, rfl, -, run⟩ | ⟨value, run⟩ := JobConsumer.run_cases config content <;> rw [run]
  · refine (obeys_bind ..).mpr (Obeys.mono (processMessage_follows config jobId message) ?_ ?_)
    · rintro result reached ⟨rfl, worker, own⟩
      exact (obeys_attempt ..).mpr ⟨.answer worker own, fun _ => acknowledged_aside⟩
    · rintro e reached rfl
      exact acknowledged_aside
  · cases value <;> exact acknowledged_aside

theorem sendStatus_follows {kind : Kind} (config : WorkerConfig) {status : WorkerStatusDetails}
    (other : ∀ details, status ≠ .job details) :
    Follows kind (StatusSender.sendStatus config status) .aside (fun _ => JobPhase.Final) fun _ => JobPhase.Final := by
  refine .quietly (quiet_of_local local_utcNow) trivial (fun _ => trivial) fun timestamp => ?_
  refine (obeys_attempt ..).mpr ⟨.report other, fun reply => ?_⟩
  cases reply <;> trivial

end Requests

theorem jobMonitor_covers (registry : ServiceScalerRegistry) : jobMonitor.Covers (platform registry) := by
  intro kind
  cases kind with
  | createJob payload => exact follows_ignore handleCreateJob_follows
  | cancelJob jobId => exact follows_ignore (handleCancelJob_follows jobId)
  | createService payload => exact ignore_of_quiet (quiet_handleCreateService payload)
  | updateService serviceId isEnabled => exact ignore_of_quiet (quiet_handleUpdateService serviceId isEnabled)
  | deleteService serviceId => exact ignore_of_quiet (quiet_handleDeleteService registry serviceId)
  | servicesInfo serviceId => exact ignore_of_quiet (quiet_handleServicesInfo registry serviceId)
  | scaleUp serviceId amount => exact ignore_of_quiet (quiet_handleServicesScaleUp registry serviceId amount)
  | scaleDown serviceId amount => exact ignore_of_quiet (quiet_handleServicesScaleDown registry serviceId amount)
  | scaleDownAll => exact ignore_of_quiet (quiet_handleServicesScaleDownAll registry)
  | subJobTick => exact subJobHandler_follows registry
  | descalerPass => exact loop_of_quiet (quiet_serviceDescalerHandler registry)
  | onlineCheckPass => exact loop_of_quiet quiet_processWorkerOnlineCheck
  | statusDelivery content => exact StatusConsumer.obeys_consume (statusConsumer_follows content)
  | dataDelivery content => exact DataConsumer.obeys_consume (dataConsumer_follows content)
  | jobDelivery config content => exact JobConsumer.obeys_consume (jobConsumer_follows config content)
  | lifecycle config status => exact follows_ignore (sendStatus_follows config nofun)
  | heartbeat config => exact follows_ignore (sendStatus_follows config nofun)

end Bms
