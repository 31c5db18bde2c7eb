import Bms.Process.Rely
import Bms.Properties.DownloadLimit
import Bms.Properties.FileRange
import Bms.Protocol.Creating

/-! # What the tasks rely on

The code panics on a topic that is not a string, on a service without a desired count, on a random number of
an empty interval and where an addition leaves the calendar. What keeps it from these lies elsewhere: in the
rows that another task has written, in the message that another task has sent, or in the clock; and a delivery
panics if it cannot be acknowledged. Each task is safe as long as its replies are what it relies on.
-/

namespace Bms

open Process Fallible

/-- The calendar does not end within the next hour. -/
def DateTime.Ordinary (time : DateTime) : Prop :=
  DateTime.minUtc ≤ time ∧ time + Duration.seconds 3600 ≤ DateTime.maxUtc

instance (time : DateTime) : Decidable time.Ordinary := inferInstanceAs (Decidable (_ ∧ _))

/-- The topic of a scaling sub-job is a string, and the interval of the log is one that a creation admits. -/
structure SubJobWithJob.Regular (subJob : SubJobWithJob) : Prop where
  topic : subJob.type = .scaling → ∃ topic, subJob.details.get? "topic" = some (.str topic)
  interval : 100 ≤ subJob.job.details.logIntervalMs ∧ subJob.job.details.logIntervalMs ≤ 1000

/-- The download starts soon after an ordinary time. -/
structure JobMessage.Regular (message : JobMessage) : Prop where
  interval : 100 ≤ message.logIntervalMs ∧ message.logIntervalMs ≤ 1000
  start : ∃ reading : DateTime, reading.Ordinary ∧ message.downloadStartTime = reading + Duration.seconds 11

def Message.Regular : Message → Prop
  | .workerJob _ message => message.Regular
  | _ => True

/-- The file is exactly as long as the sample that a request asks for. -/
def CreateJobInput.Fits (payload : CreateJobInput) : Act → Prop
  | ⟨.headContentLength _, .ok (some (.ok text))⟩ => parseI64 text = .ok (sampleBytes payload.sampleMb)
  | _ => False

/-- The tasks that acknowledge a message. -/
def Kind.Delivers : Kind → Prop
  | .statusDelivery _ | .dataDelivery _ | .jobDelivery .. => True
  | _ => False

/-- What a task relies on. -/
def Kind.Trusts (kind : Kind) : Act → Prop
  | ⟨.now, reading⟩ => DateTime.Ordinary reading
  | ⟨.basicAck, .error _⟩ => ¬ kind.Delivers
  | ⟨.sql .getFirstUnfinishedSubJob, .ok subJob⟩ => subJob.Regular
  | ⟨.sql (.getSubJobByIdAndType _ type), .ok subJob⟩ => subJob.type = type ∧ subJob.Regular
  | made => ∀ payload, kind = .createJob payload → ¬ payload.Fits made

/-- What it guarantees: it does not panic, and what it sends is no trap for others. -/
def Op.Safe : Op → Prop
  | .panic => False
  | .publishJob message _ => message.Regular
  | _ => True

/-- A program is safe while its replies can be trusted. -/
abbrev Safe (kind : Kind) {ε α : Type} (program : Fallible Calls ε α) (good : α → Prop) : Prop :=
  program.Relies kind.Trusts Op.Safe good

section Safe

variable {ε α : Type} {kind : Kind} {registry : ServiceScalerRegistry}

theorem safe_utcNow {good : DateTime → Prop} (goes : ∀ reading : DateTime, reading.Ordinary → good reading) :
    Safe kind (utcNow : Fallible Calls ε DateTime) good := by
  refine (relies_attempt ..).mpr ⟨trivial, fun reading result trusted same => ?_⟩
  cases same
  exact goes reading trusted

theorem safe_unwrap {value : Option α} {good : α → Prop} (present : ∃ content, value = some content ∧ good content) :
    Safe kind (unwrap value : Fallible Calls ε α) good := by
  obtain ⟨content, rfl, holds⟩ := present
  exact holds

/-- A call other than a publication is safe. -/
theorem safe_attempt {op : Op} {decode : op.Reply → Except ε α} (safe : op.Safe) :
    Safe kind (attempt op decode) fun _ => True :=
  Only.relies ((only_attempt ..).mpr safe)

theorem relies_execute (stmt : Stmt) (post : Except SqlxError stmt.Row → Prop) :
    (execute stmt).Relies kind.Trusts Op.Safe post ↔
      Op.Safe (.sql stmt) ∧ ∀ reply, kind.Trusts ⟨.sql stmt, reply⟩ → post reply := Iff.rfl

theorem safe_sql {stmt : Stmt} {decode : Except SqlxError stmt.Row → Except ε α} :
    Safe kind (attempt (.sql stmt) decode : Fallible Calls ε α) fun _ => True := safe_attempt trivial

/-- A safe program may go before one that does not care what it returns. -/
theorem safe_bind {β : Type} {program : Fallible Calls ε α} {rest : α → Fallible Calls ε β} {good : β → Prop}
    (first : Safe kind program fun _ => True) (goes : ∀ value, Safe kind (rest value) good) :
    Safe kind (program >>= rest) good := (relies_bind ..).mpr (first.mono fun value _ => goes value)

/-! ## Scalers and services -/

theorem safe_getServiceInfo (service : Service) :
    Safe kind (FargateScaler.getServiceInfo service) fun info => ∃ count, info.desiredCount = some count :=
  (relies_bind ..).mpr ((relies_outcome ..).mpr fun _ _ => (relies_bind ..).mpr ((relies_attempt ..).mpr
    ⟨trivial, fun _ awsService _ _ => ⟨awsService.desiredCount, rfl⟩⟩))

theorem safe_updateService (service : Service) (desiredCount : ℤ) :
    Safe kind (FargateScaler.updateService service desiredCount) fun _ => True :=
  safe_bind ((relies_outcome ..).mpr fun _ _ => trivial) fun _ => safe_attempt trivial

theorem safe_scaleUp (scaler : ServiceScaler) (service : Service) (amount : ℤ) :
    Safe kind (scaler.scaleUp service amount) fun _ => True := by
  cases scaler with
  | docker => exact safe_bind (safe_attempt trivial) fun _ => .ite (fun _ => trivial) fun _ => safe_attempt trivial
  | fargate =>
    refine (relies_bind ..).mpr ((safe_getServiceInfo service).mono ?_)
    rintro info ⟨count, counted⟩
    refine (relies_bind ..).mpr (safe_unwrap ⟨count, counted, ?_⟩)
    exact .ite (fun _ => trivial) fun _ => safe_updateService ..

theorem safe_scaleDown (scaler : ServiceScaler) (service : Service) (amount : ℤ) :
    Safe kind (scaler.scaleDown service amount) fun _ => True := by
  cases scaler with
  | docker => exact safe_bind (safe_attempt trivial) fun _ => .ite (fun _ => trivial) fun _ => safe_attempt trivial
  | fargate =>
    refine (relies_bind ..).mpr ((safe_getServiceInfo service).mono ?_)
    rintro info ⟨count, counted⟩
    refine (relies_bind ..).mpr (safe_unwrap ⟨count, counted, ?_⟩)
    exact .ite (fun _ => trivial) fun _ => safe_updateService ..

theorem safe_getInfo (scaler : ServiceScaler) (service : Service) :
    Safe kind (scaler.getInfo service) fun _ => True := by
  cases scaler with
  | docker => exact safe_bind (safe_attempt trivial) fun _ => trivial
  | fargate => exact (safe_getServiceInfo service).mono fun _ _ => trivial

theorem safe_findScaler (service : Service) : Safe kind (findScaler registry service) fun _ => True := by
  unfold findScaler
  split <;> trivial

theorem safe_scalerInfo (scaler : ServiceScaler) (service : Service) :
    Safe kind (scalerInfo scaler service) fun _ => True := (relies_mapError ..).mpr (safe_getInfo scaler service)

theorem safe_handleCreateService (payload : CreateServiceInput) :
    Safe kind (handleCreateService payload) fun _ => True :=
  .ite (fun _ => trivial) fun _ => safe_bind ((relies_outcome ..).mpr fun _ _ => trivial) fun _ =>
    safe_bind safe_sql fun _ => safe_bind safe_sql fun _ => safe_bind safe_sql fun _ => trivial

theorem safe_handleDeleteService (serviceId : Uuid) :
    Safe kind (handleDeleteService registry serviceId) fun _ => True := by
  refine safe_bind safe_sql fun service => ?_
  have deletes : Safe kind (orRespond (.deleteServiceById serviceId)
      (.internalServerError "Failed to delete service") >>= fun _ => pure service : Api Service) fun _ => True :=
    safe_bind safe_sql fun _ => trivial
  split
  · exact deletes
  · exact safe_bind (safe_scaleDown _ service i32Max).optional fun _ => deletes

theorem safe_handleServicesInfo (serviceId : Uuid) : Safe kind (handleServicesInfo registry serviceId) fun _ => True :=
  safe_bind safe_sql fun service => safe_bind (safe_findScaler service) fun scaler => safe_scalerInfo scaler service

theorem safe_handleServicesScaleUp (serviceId : Uuid) (amount : ℕ) :
    Safe kind (handleServicesScaleUp registry serviceId amount) fun _ => True :=
  safe_bind safe_sql fun service => safe_bind (safe_findScaler service) fun scaler =>
    safe_bind ((relies_mapError ..).mpr (safe_scaleUp scaler service _)) fun _ => safe_scalerInfo scaler service

theorem safe_handleServicesScaleDown (serviceId : Uuid) (amount : ℕ) :
    Safe kind (handleServicesScaleDown registry serviceId amount) fun _ => True :=
  safe_bind safe_sql fun service => safe_bind (safe_findScaler service) fun scaler =>
    safe_bind ((relies_mapError ..).mpr (safe_scaleDown scaler service _)) fun _ =>
      safe_bind (safe_scalerInfo scaler service) fun _ =>
        .ite (fun _ => safe_bind safe_sql fun _ => trivial) fun _ => trivial

theorem safe_scaleDownWithInfo (service : Service) : Safe kind (scaleDownWithInfo registry service) fun _ => True := by
  unfold scaleDownWithInfo
  split
  · trivial
  · refine safe_bind (safe_scaleDown _ service i32Max).optional fun _ => safe_bind (safe_getInfo _ service).optional
      fun _ => .ite (fun _ => ?_) fun _ => trivial
    have clears : Safe kind (orRespond (.clearDescaleDeadline service.id) (.internalServerError "")) fun _ => True :=
      safe_sql
    exact safe_bind clears.optional fun _ => trivial

theorem safe_scaleDownServices (services : List Service) :
    Safe kind (scaleDownServices registry services) fun _ => True := by
  induction services with
  | nil => trivial
  | cons service services ih => exact safe_bind (safe_scaleDownWithInfo service) fun _ => safe_bind ih fun _ => trivial

theorem safe_handleServicesScaleDownAll : Safe kind (handleServicesScaleDownAll registry) fun _ => True :=
  safe_bind safe_sql safe_scaleDownServices

/-! ## Ticks -/

variable {subJob : SubJobWithJob}

theorem safe_checkDeadline : Safe kind (checkDeadline subJob) fun _ => True := by
  unfold checkDeadline
  split
  · trivial
  · exact (relies_bind ..).mpr (safe_utcNow fun _ _ => .ite (fun _ => trivial) fun _ => trivial)

theorem safe_getTopic (regular : subJob.Regular) (scaling : subJob.type = .scaling) :
    Safe kind (getTopic subJob) fun _ => True := by
  obtain ⟨topic, named⟩ := regular.topic scaling
  simp only [getTopic, named]
  exact safe_unwrap ⟨topic, rfl, trivial⟩

theorem safe_getServicesAndWorkers (regular : subJob.Regular) (scaling : subJob.type = .scaling) :
    Safe kind (getServicesAndWorkers subJob) fun _ => True := by
  refine safe_bind (safe_getTopic regular scaling) fun topic => safe_bind ?_ fun services => safe_bind safe_sql
    fun workersOnline => ?_
  · exact safe_bind safe_sql fun _ => .ite (fun _ => trivial) fun _ => trivial
  · split <;> trivial

theorem safe_scaleUpServices (scaleEachBy : ℕ) (services : List Service) :
    Safe kind (scaleUpServices registry scaleEachBy services) fun _ => True := by
  induction services with
  | nil => trivial
  | cons service services ih =>
    unfold scaleUpServices
    split
    · trivial
    · exact safe_bind ((relies_mapError ..).mpr (safe_scaleUp _ service _)) fun _ => ih

theorem safe_processScalingCreated (regular : subJob.Regular) (scaling : subJob.type = .scaling) :
    Safe kind (processScalingCreated registry subJob) fun _ => True := by
  refine safe_bind (safe_getServicesAndWorkers regular scaling) fun plan => safe_bind safe_sql fun _ =>
    safe_bind (safe_utcNow fun _ _ => trivial) fun _ => safe_bind safe_sql fun _ => .ite (fun _ => safe_sql) fun _ => ?_
  exact safe_bind (safe_scaleUpServices ..) fun _ => safe_bind (safe_utcNow fun _ _ => trivial) fun _ => safe_sql

theorem safe_processScalingProcessing (regular : subJob.Regular) (scaling : subJob.type = .scaling) :
    Safe kind (processScalingProcessing subJob) fun _ => True :=
  safe_bind safe_checkDeadline fun _ => safe_bind (safe_getServicesAndWorkers regular scaling) fun _ =>
    .ite (fun _ => safe_sql) fun _ => trivial

theorem safe_getWorkersOnlineBySubJobTopic : Safe kind (getWorkersOnlineBySubJobTopic subJob) fun _ => True := by
  refine safe_bind ((relies_bind ..).mpr ((relies_attempt ..).mpr ⟨trivial, ?_⟩)) fun _ => safe_sql
  rintro (e | scalingSubJob) result trusted same
  · cases same
  · cases same
    exact safe_getTopic trusted.2 trusted.1

/-- What a tick sends starts soon after the time it has read. -/
theorem safe_processStatusCreated (regular : subJob.Regular) :
    Safe kind (processStatusCreated subJob) fun _ => True := by
  refine (relies_bind ..).mpr (safe_utcNow fun reading ordinary => ?_)
  refine safe_bind safe_getWorkersOnlineBySubJobTopic fun workersOnline => .ite (fun _ => trivial) fun _ => ?_
  refine safe_bind safe_sql fun _ => safe_bind (safe_attempt ⟨regular.interval, reading, ordinary, ?_⟩) fun _ => safe_sql
  change reading + Duration.seconds 1 + Duration.seconds 10 = reading + Duration.seconds 11
  unfold Duration.seconds
  linarith

theorem safe_processStatusProcessing : Safe kind (processStatusProcessing subJob) fun _ => True :=
  safe_bind safe_checkDeadline fun _ => safe_bind ((relies_outcome ..).mpr fun _ _ => trivial) fun _ =>
    safe_bind safe_sql fun _ => .ite (fun _ => safe_bind safe_sql fun _ => safe_bind safe_sql fun _ =>
      .ite (fun _ => safe_sql) fun _ => trivial) fun _ => trivial

/-- A tick whose step is safe is safe. -/
theorem safe_settle {step : SubJobStep Unit} (safe : Safe kind step fun _ => True) :
    (step.run >>= settle subJob).Relies kind.Trusts Op.Safe fun _ => True := by
  refine safe.handle fun outcome => ?_
  rcases outcome with (e | e) | _
  · trivial
  · exact ⟨trivial, fun _ _ => trivial⟩
  · trivial

theorem safe_subJobHandler : (subJobHandler registry).Relies kind.Trusts Op.Safe fun _ => True := by
  refine (Prog.relies_bind ..).mpr ((relies_execute ..).mpr ⟨trivial, fun reply trusted => ?_⟩)
  cases reply with
  | error e => trivial
  | ok subJob =>
    have regular : subJob.Regular := trusted
    cases type : subJob.type with
    | combinedDHP =>
      simp only [type]
      refine safe_settle ?_
      split
      · exact safe_processStatusCreated regular
      · exact safe_checkDeadline
      · exact safe_processStatusProcessing
      · trivial
    | scaling =>
      simp only [type]
      refine safe_settle ?_
      split
      · exact safe_processScalingCreated regular type
      · trivial
      · exact safe_processScalingProcessing regular type
      · trivial

theorem safe_descaleService (service : Service) :
    (descaleService registry service).Relies kind.Trusts Op.Safe fun _ => True := by
  unfold descaleService
  split
  · trivial
  · next scaler found =>
    refine (safe_scaleDown scaler service i32Max).handle fun outcome => ?_
    cases outcome with
    | error e => trivial
    | ok done => exact ⟨trivial, fun _ _ => trivial⟩

theorem safe_descaleServices (services : List Service) :
    (descaleServices registry services).Relies kind.Trusts Op.Safe fun _ => True := by
  induction services with
  | nil => trivial
  | cons service services ih =>
    exact (Prog.relies_bind ..).mpr ((safe_descaleService service).mono fun _ _ => ih)

theorem safe_serviceDescalerHandler : (serviceDescalerHandler registry).Relies kind.Trusts Op.Safe fun _ => True := by
  refine ⟨trivial, fun reply _ => ?_⟩
  cases reply with
  | error e => trivial
  | ok services => exact safe_descaleServices services

theorem safe_setWorkersOffline (workerNames : List String) :
    (setWorkersOffline workerNames).Relies kind.Trusts Op.Safe fun _ => True := by
  induction workerNames with
  | nil => trivial
  | cons workerName workerNames ih => exact ⟨trivial, fun _ _ => ih⟩

theorem safe_processWorkerOnlineCheck : processWorkerOnlineCheck.Relies kind.Trusts Op.Safe fun _ => True := by
  refine ⟨trivial, fun reply _ => ?_⟩
  cases reply with
  | error e => trivial
  | ok workerNames => exact safe_setWorkersOffline workerNames

/-! ## Requests -/

/-- A creation draws a number of a non-empty interval, since the file is longer than the sample. -/
theorem safe_getFileRangeForFile (payload : CreateJobInput) (url : String) :
    Safe (.createJob payload) (getFileRangeForFile url payload.sampleMb) fun _ => True := by
  refine (relies_bind ..).mpr ((relies_attempt ..).mpr ⟨trivial, fun reply header trusted read => ?_⟩)
  refine (relies_bind ..).mpr ((relies_outcome ..).mpr fun contentLength known => ?_)
  have other : contentLength ≠ sampleBytes payload.sampleMb := by
    rintro rfl
    rcases reply with e | _ | e | text
    · cases read
    · cases read
      cases known
    · cases read
      cases known
    · cases read
      refine trusted payload rfl ?_
      change parseI64 text = _
      cases parsed : parseI64 text with
      | error e => simp [parsed, Except.mapError] at known
      | ok value => simpa [parsed, Except.mapError] using known
  refine .ite (fun _ => trivial) fun long => .ite (fun empty => ?_) fun _ => safe_bind (safe_attempt trivial) fun _ => trivial
  have size : payload.sampleMb * 1024 * 1024 = sampleBytes payload.sampleMb := rfl
  rw [size] at long empty
  omega

theorem safe_ofInput (payload : CreateJobInput) :
    Safe kind (CreateJobParams.ofInput payload) fun params => params.sizeMb = payload.sampleMb :=
  (relies_bind ..).mpr (Relies.mono (safe_attempt trivial) fun _ _ =>
    .ite (fun _ => trivial) fun _ => .ite (fun _ => trivial) fun _ => rfl)

theorem safe_createSubJob (job : Job) (details : SubJobDetails) : Safe kind (createSubJob job details) fun _ => True :=
  safe_bind (safe_attempt trivial) fun _ => safe_sql

theorem safe_handleCreateJob (payload : CreateJobInput) :
    Safe (.createJob payload) (handleCreateJob payload) fun _ => True := by
  refine (relies_bind ..).mpr ((safe_ofInput payload).mono ?_)
  rintro params sized
  rw [sized]
  refine safe_bind (safe_getFileRangeForFile payload params.url.asStr) fun range => safe_bind (safe_attempt trivial)
    fun jobId => safe_bind safe_sql fun job => safe_bind (safe_attempt trivial) fun scalingId => ?_
  exact safe_bind safe_sql fun _ => safe_bind (safe_createSubJob ..) fun _ => safe_bind (safe_createSubJob ..) fun _ =>
    safe_bind (safe_createSubJob ..) fun _ => trivial

theorem safe_handleCancelJob (jobId : Uuid) : Safe kind (handleCancelJob jobId) fun _ => True :=
  safe_bind safe_sql fun _ => safe_bind safe_sql fun _ => safe_sql

/-! ## Deliveries and workers -/

/-- A delivery relies on the acknowledgement. -/
theorem relies_acknowledge (delivers : kind.Delivers) :
    acknowledge.Relies kind.Trusts Op.Safe fun _ => True := by
  refine ⟨trivial, fun reply trusted => ?_⟩
  cases reply with
  | ok => trivial
  | error e => exact absurd delivers trusted

theorem safe_statusConsumer (content : Message) (delivers : kind.Delivers) :
    (StatusConsumer.consume content.sent).Relies kind.Trusts Op.Safe fun _ => True := by
  have only : (StatusConsumer.run content.sent).Only Op.Safe :=
    Prog.Only.mono (StatusConsumer.only_run content) fun op records => by cases op <;> first | exact records.elim | trivial
  refine Only.relies only |>.handle fun outcome => ?_
  cases outcome with
  | ok => exact relies_acknowledge delivers
  | error e => trivial

theorem safe_dataConsumer (content : Message) (delivers : kind.Delivers) :
    (DataConsumer.consume content.sent).Relies kind.Trusts Op.Safe fun _ => True := by
  have only : (DataConsumer.run content.sent).Only Op.Safe :=
    Prog.Only.mono (DataConsumer.only_run content) fun op saves => by
      obtain ⟨result, rfl⟩ := saves
      trivial
  refine Only.relies only |>.handle fun outcome => ?_
  cases outcome with
  | ok => exact relies_acknowledge delivers
  | error e => trivial

theorem safe_sendStatus (config : WorkerConfig) (status : WorkerStatusDetails) :
    Safe kind (StatusSender.sendStatus config status) fun _ => True :=
  safe_bind (safe_utcNow fun _ _ => trivial) fun _ => safe_attempt trivial

section Measurements

variable {message : JobMessage}

theorem DateTime.Ordinary.nextInterval {reading : DateTime} (ordinary : reading.Ordinary) {interval : ℤ}
    (bounds : 100 ≤ interval ∧ interval ≤ 1000) :
    ∃ next, Download.calculateNextInterval reading interval = some next := by
  obtain ⟨early, late⟩ := ordinary
  refine calculateNextInterval_isSome bounds early (le_trans ?_ late)
  unfold Duration.seconds
  linarith

theorem safe_downloadChunks (regular : message.Regular) (downloadStartTime : DateTime) (replies : List ChunkReply)
    (progress : Download.Progress) :
    Safe kind (Download.downloadChunks message downloadStartTime replies progress) fun _ => True := by
  induction replies generalizing progress with
  | nil => trivial
  | cons reply replies ih =>
    refine safe_bind (safe_attempt trivial) fun _ => ?_
    cases reply with
    | done | timedOut | failed => trivial
    | chunk chunkSize =>
      refine (relies_bind ..).mpr (safe_utcNow fun reading ordinary => ?_)
      refine .ite (fun _ => trivial) fun _ => .ite (fun _ => ?_) fun _ => ih _
      obtain ⟨next, calculated⟩ := ordinary.nextInterval regular.interval
      exact (relies_bind ..).mpr (safe_unwrap ⟨next, calculated, ih _⟩)

theorem safe_download (regular : message.Regular) : Safe kind (Download.process message) fun _ => True := by
  refine safe_bind (safe_utcNow fun _ _ => trivial) fun _ => safe_bind ((relies_mapError ..).mpr ?_) fun _ =>
    safe_bind (safe_attempt trivial) fun response => .ite (fun _ => trivial) fun _ => ?_
  · exact safe_bind (safe_utcNow fun _ _ => trivial) fun _ => .ite (fun _ => trivial) fun _ => safe_attempt trivial
  · refine safe_bind (safe_utcNow fun _ _ => trivial) fun _ => (relies_bind ..).mpr (safe_utcNow fun reading ordinary => ?_)
    obtain ⟨next, calculated⟩ := ordinary.nextInterval regular.interval
    refine (relies_bind ..).mpr (safe_unwrap ⟨next, calculated, ?_⟩)
    exact safe_bind (safe_downloadChunks regular ..) fun _ => .ite (fun _ => trivial) fun _ =>
      safe_bind (safe_utcNow fun _ _ => trivial) fun _ => trivial

/-- Two seconds before the download the calendar has begun. -/
theorem safe_loopDeadline (regular : message.Regular) :
    Safe kind (loopDeadline message : Fallible Calls ε DateTime) fun _ => True := by
  obtain ⟨reading, ⟨early, late⟩, starts⟩ := regular.start
  refine safe_unwrap ⟨message.downloadStartTime + -Duration.seconds 2, if_pos ?_, trivial⟩
  rw [starts]
  unfold Duration.seconds at *
  constructor <;> linarith

theorem safe_pingLoop (deadline : DateTime) (left seq : ℕ) (latencies : List ℚ) :
    Safe kind (Ping.pingLoop deadline left seq latencies) fun _ => True := by
  induction left generalizing seq latencies with
  | zero => trivial
  | succ left ih =>
    exact safe_bind (safe_utcNow fun _ _ => trivial) fun _ => .ite (fun _ => trivial) fun _ =>
      safe_bind (safe_attempt trivial) fun _ => ih ..

theorem safe_ping (regular : message.Regular) : Safe kind (Ping.process message) fun _ => True :=
  safe_bind (safe_loopDeadline regular) fun _ => safe_bind (safe_attempt trivial) fun _ =>
    safe_bind ((relies_outcome ..).mpr fun _ _ => trivial) fun _ => safe_bind (safe_attempt trivial) fun _ =>
      safe_bind ((relies_outcome ..).mpr fun _ _ => trivial) fun _ => safe_bind (safe_attempt trivial) fun _ =>
        safe_bind (safe_pingLoop ..) fun _ => .ite (fun _ => trivial) fun _ => trivial

theorem safe_headLoop (url : String) (deadline : DateTime) (left : ℕ) (latencies : List ℚ) :
    Safe kind (Head.headLoop url deadline left latencies) fun _ => True := by
  induction left generalizing latencies with
  | zero => trivial
  | succ left ih =>
    exact safe_bind (safe_utcNow fun _ _ => trivial) fun _ => .ite (fun _ => trivial) fun _ =>
      safe_bind (safe_attempt trivial) fun _ => ih ..

theorem safe_head (regular : message.Regular) : Safe kind (Head.process message) fun _ => True :=
  safe_bind (safe_loopDeadline regular) fun _ => safe_bind (safe_headLoop ..) fun _ =>
    .ite (fun _ => trivial) fun _ => trivial

/-- The measurements are safe side by side, since each of them is. -/
theorem safe_measure (regular : message.Regular) : Safe kind (JobConsumer.measure message) fun _ => True := by
  have ping : Safe kind (Ping.process message) fun _ => True := safe_ping regular
  have head : Safe kind (Head.process message) fun _ => True := safe_head regular
  have download : Safe kind (Download.process message) fun _ => True := safe_download regular
  refine (Prog.relies_bind ..).mpr (Prog.Relies.mono (.join ?_ download (.join ?_ ping head)) fun _ _ => ?_)
  all_goals trivial

theorem safe_processMessage (config : WorkerConfig) (jobId : Uuid) (regular : message.Regular) :
    Safe kind (JobConsumer.processMessage config jobId message) fun _ => True := by
  refine safe_bind (safe_attempt trivial) fun runId => safe_bind (safe_utcNow fun _ _ => trivial) fun _ =>
    .ite (fun _ => trivial) fun _ => safe_bind (safe_sendStatus ..).optional fun _ =>
      safe_bind (safe_utcNow fun _ _ => trivial) fun _ => .ite (fun _ => trivial) fun _ => ?_
  exact safe_bind (safe_attempt trivial) fun _ => safe_bind (safe_measure regular) fun _ =>
    safe_bind (safe_sendStatus ..).optional fun _ => trivial

end Measurements

theorem safe_jobConsumer (config : WorkerConfig) {content : Message} (regular : content.Regular)
    (delivers : kind.Delivers) :
    (JobConsumer.consume config content.sent).Relies kind.Trusts Op.Safe fun _ => True := by
  have safe : Safe kind (JobConsumer.run config content.sent) fun _ => True := by
    obtain ⟨jobId, message, rfl, -, run⟩ | ⟨value, run⟩ := JobConsumer.run_cases config content <;> rw [run]
    · exact safe_bind (safe_processMessage config jobId regular) fun _ => safe_attempt trivial
    · exact (relies_outcome ..).mpr fun _ _ => trivial
  exact safe.handle fun _ => relies_acknowledge delivers

end Safe

/-- A fallible program is safe as a task. -/
theorem safe_ignore {ε α : Type} {kind : Kind} {program : Fallible Calls ε α} (safe : Safe kind program fun _ => True) :
    (ignore program).Relies kind.Trusts Op.Safe fun _ => True := safe.handle fun _ => trivial

/-- Every task is safe, a worker's as long as it is given a regular message. -/
theorem safe_body (registry : ServiceScalerRegistry) (kind : Kind)
    (regular : ∀ config content, kind = .jobDelivery config content → content.Regular) :
    (kind.body registry).Relies kind.Trusts Op.Safe fun _ => True := by
  cases kind with
  | createJob payload => exact safe_ignore (safe_handleCreateJob payload)
  | cancelJob jobId => exact safe_ignore (safe_handleCancelJob jobId)
  | createService payload => exact safe_ignore (safe_handleCreateService payload)
  | updateService serviceId isEnabled => exact safe_ignore safe_sql
  | deleteService serviceId => exact safe_ignore (safe_handleDeleteService serviceId)
  | servicesInfo serviceId => exact safe_ignore (safe_handleServicesInfo serviceId)
  | scaleUp serviceId amount => exact safe_ignore (safe_handleServicesScaleUp serviceId amount)
  | scaleDown serviceId amount => exact safe_ignore (safe_handleServicesScaleDown serviceId amount)
  | scaleDownAll => exact safe_ignore safe_handleServicesScaleDownAll
  | subJobTick => exact safe_subJobHandler
  | descalerPass => exact safe_serviceDescalerHandler
  | onlineCheckPass => exact safe_processWorkerOnlineCheck
  | statusDelivery content => exact safe_statusConsumer content trivial
  | dataDelivery content => exact safe_dataConsumer content trivial
  | jobDelivery config content => exact safe_jobConsumer config (regular config content rfl) trivial
  | lifecycle config status => exact safe_ignore (safe_sendStatus config _)
  | heartbeat config => exact safe_ignore (safe_sendStatus config _)

/-! ## A file of the sample's length -/

section Creation

variable {payload : CreateJobInput}

/-- A HEAD request for the length of the file. -/
def Op.AsksLength : Op → Prop
  | .headContentLength _ => True
  | _ => False

theorem asksLength_of_fits {made : Act} (fits : payload.Fits made) : made.op.AsksLength := by
  unfold CreateJobInput.Fits at fits
  split at fits
  · trivial
  · exact fits.elim

/-- Once it is known that the file is exactly as long as the sample, the creation may only panic. -/
abbrev Halts (payload : CreateJobInput) {ε α : Type} (program : Fallible Calls ε α) : Prop :=
  program.Obeys (fun fits made => fits ∨ payload.Fits made) (fun fits op => fits → op = .panic) False
    (fun _ fits => ¬ fits) fun _ fits => ¬ fits

theorem halts_of_only {ε α : Type} {program : Fallible Calls ε α} (only : program.Only fun op : Op => ¬ op.AsksLength) :
    Halts payload program := by
  refine Prog.Obeys.mono (Prog.Only.keeps (fun fits => ¬ fits) only (fun fits op unfit other => ?_) id) ?_
  · exact ⟨fun holds => absurd holds unfit, fun reply => not_or.mpr ⟨unfit, fun fits => other (asksLength_of_fits fits)⟩⟩
  · intro outcome fits unfit
    cases outcome <;> exact unfit

theorem Halts.andThen {ε α β : Type} {program : Fallible Calls ε α} {rest : α → Fallible Calls ε β}
    (first : Halts payload program) (next : ∀ value, Halts payload (rest value)) : Halts payload (program >>= rest) := by
  refine (obeys_bind ..).mpr (Obeys.mono first (fun value fits unfit => ?_) fun _ _ => id)
  rw [eq_false unfit]
  exact next value

theorem getFileRangeForFile_halts (url : String) : Halts payload (getFileRangeForFile url payload.sampleMb) := by
  refine (obeys_bind ..).mpr ((obeys_attempt ..).mpr ⟨fun none => none.elim, fun reply => ?_⟩)
  rcases reply with e | _ | e | text
  · exact not_or.mpr ⟨id, id⟩
  · exact (obeys_bind ..).mpr (not_or.mpr ⟨id, id⟩)
  · exact (obeys_bind ..).mpr (not_or.mpr ⟨id, id⟩)
  · refine (obeys_bind ..).mpr ((obeys_outcome ..).mpr ?_)
    have known : (False ∨ payload.Fits ⟨.headContentLength url, .ok (some (.ok text))⟩) =
        (parseI64 text = .ok (sampleBytes payload.sampleMb)) := false_or _
    cases parsed : parseI64 text with
    | error e =>
      simp only [known, parsed, Except.mapError]
      exact fun same => by cases same
    | ok contentLength =>
      simp only [known, parsed, Except.mapError]
      have size : payload.sampleMb * 1024 * 1024 = sampleBytes payload.sampleMb := rfl
      rw [size]
      refine .ite (fun short => ?_) fun long => .ite (fun _ => (obeys_panic).mpr fun _ => rfl) fun room => ?_
      · intro same
        cases same
        exact lt_irrefl _ short
      · have unfit : ¬ (Except.ok contentLength : Except String ℤ) = .ok (sampleBytes payload.sampleMb) := by
          intro same
          cases same
          exact room (sub_self _).le
        rw [eq_false unfit]
        exact halts_of_only (.bind ((only_attempt ..).mpr id) fun _ => only_pure _)

theorem ofInput_halts : ((CreateJobParams.ofInput payload).Obeys (fun fits made => fits ∨ payload.Fits made)
    (fun fits op => fits → op = .panic) False (fun params fits => ¬ fits ∧ params.sizeMb = payload.sampleMb)
    fun _ fits => ¬ fits) := by
  refine (obeys_bind ..).mpr ((obeys_attempt ..).mpr ⟨fun none => none.elim, fun reply => ?_⟩)
  have unfit : ¬ (False ∨ payload.Fits ⟨.parseUrl payload.url, reply⟩) := not_or.mpr ⟨id, id⟩
  cases reply with
  | error e => exact unfit
  | ok url => exact .ite (fun _ => unfit) fun _ => .ite (fun _ => unfit) fun _ => ⟨unfit, rfl⟩

theorem handleCreateJob_halts : Halts payload (handleCreateJob payload) := by
  refine (obeys_bind ..).mpr (Obeys.mono ofInput_halts (fun params fits => ?_) fun _ _ => id)
  rintro ⟨unfit, sized⟩
  rw [eq_false unfit, sized]
  have draws : (newV4).Only fun op : Op => ¬ op.AsksLength := (only_attempt ..).mpr id
  have inserts (stmt : Stmt) (error : ApiError) : (orRespond stmt error).Only fun op : Op => ¬ op.AsksLength :=
    (only_attempt ..).mpr id
  have creates (job : Job) (details : SubJobDetails) : (createSubJob job details).Only fun op : Op => ¬ op.AsksLength :=
    draws.bind fun _ => inserts ..
  refine (getFileRangeForFile_halts _).andThen fun range => halts_of_only ?_
  exact draws.bind fun jobId => (inserts ..).bind fun job => draws.bind fun scalingId => (inserts ..).bind fun _ =>
    (creates ..).bind fun _ => (creates ..).bind fun _ => (creates ..).bind fun _ => only_pure _

theorem foldl_fits (log : List Act) (before : Prop) :
    log.foldl (fun fits made => fits ∨ payload.Fits made) before ↔ before ∨ ∃ made ∈ log, payload.Fits made := by
  induction log generalizing before with
  | nil => simp
  | cons made log ih => rw [List.foldl_cons, ih]; simp [or_assoc]

/-- A creation that has learnt so has panicked. -/
theorem panics_of_fits {log : List Act} {rest : Prog Calls Unit} (run : (ignore (handleCreateJob payload)).Reaches log rest)
    (fits : ∃ made ∈ log, payload.Fits made) : ∃ next, rest = .call .panic next := by
  have obeys : (ignore (handleCreateJob payload)).Obeys (fun fits made => fits ∨ payload.Fits made)
      (fun fits op => fits → op = .panic) False fun _ fits => ¬ fits :=
    Obeys.handle handleCreateJob_halts
  have later := obeys.feed run
  have known := (foldl_fits log False).mpr (.inr fits)
  cases rest with
  | ret value => exact absurd known later
  | call op next =>
    obtain rfl := later.1 known
    exact ⟨next, rfl⟩

end Creation

/-! ## A message that cannot be acknowledged -/

section Acknowledgement

/-- What has called no acknowledgement panics if one fails afterwards. -/
theorem panics_of_bind_acknowledge {α : Type} {program : Prog Calls α} {ends : α → Prog Calls Unit} {log : List Act}
    {rest : Prog Calls Unit} {e : String} (only : program.Only (· ≠ Op.basicAck))
    (acknowledges : ∀ value, ends value = acknowledge ∨ ends value = .ret ())
    (run : (program >>= ends).Reaches log rest) (refused : ⟨.basicAck, .error e⟩ ∈ log) :
    ∃ next, rest = .call .panic next := by
  obtain ⟨middle, left, -⟩ | ⟨first, second, value, rfl, left, right⟩ := run.bind_inv
  · exact absurd rfl (only.reaches left _ refused)
  obtain early | late := List.mem_append.mp refused
  · exact absurd rfl (only.reaches left _ early)
  obtain acks | done := acknowledges value
  · rw [acks] at right
    cases right with
    | nil => cases late
    | @cons _ _ reply tail _ right =>
      cases reply with
      | ok =>
        obtain ⟨rfl, -⟩ := Prog.Reaches.ret_inv right
        cases List.mem_singleton.mp late
      | error e' =>
        cases right with
        | nil => exact ⟨_, rfl⟩
        | @cons _ _ reply => exact Empty.elim reply
  · rw [done] at right
    obtain ⟨rfl, -⟩ := Prog.Reaches.ret_inv right
    cases late

/-- A delivery whose acknowledgement has failed has panicked. -/
theorem panics_of_refused {registry : ServiceScalerRegistry} {kind : Kind} {log : List Act} {rest : Prog Calls Unit}
    {e : String} (delivers : kind.Delivers) (run : (kind.body registry).Reaches log rest)
    (refused : ⟨.basicAck, .error e⟩ ∈ log) : ∃ next, rest = .call .panic next := by
  cases kind with
  | statusDelivery content =>
    refine panics_of_bind_acknowledge (Prog.Only.mono (StatusConsumer.only_run content) ?_) ?_ run refused
    · rintro _ records rfl
      exact records
    · rintro (e | _)
      · exact .inr rfl
      · exact .inl rfl
  | dataDelivery content =>
    refine panics_of_bind_acknowledge (Prog.Only.mono (DataConsumer.only_run content) ?_) ?_ run refused
    · rintro _ ⟨result, rfl⟩ same
      cases same
    · rintro (e | _)
      · exact .inr rfl
      · exact .inl rfl
  | jobDelivery config content =>
    refine panics_of_bind_acknowledge (JobConsumer.only_run config content ?_) (fun _ => .inl rfl) run refused
    rintro _ _ - _ handles rfl
    exact handles
  | _ => exact delivers.elim

end Acknowledgement

end Bms
