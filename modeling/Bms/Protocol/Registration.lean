import Bms.Protocol.JobCoverage

/-! # Registering services

A service is registered in three statements, each of which commits on its own: its row, the names of its topics,
and the relation between the two. Only the request that has stored a service relates it to topics.
-/

namespace Bms

open Process Fallible

/-- How far a request to create a service has got. -/
inductive RegisterPhase
  /-- no such request -/
  | aside
  | asked (payload : CreateServiceInput)
  /-- the row of the service is there -/
  | stored (payload : CreateServiceInput) (service : Service)
  /-- and its topics have names -/
  | named (payload : CreateServiceInput) (service : Service)
  /-- and they belong to it -/
  | related (payload : CreateServiceInput) (service : Service)

namespace RegisterPhase

def start : Kind → RegisterPhase
  | .createService payload => asked payload
  | _ => aside

/-- The phase after a call. -/
def note : RegisterPhase → Act → RegisterPhase
  | asked payload, ⟨.sql (.createService ..), .ok service⟩ => stored payload service
  | stored payload service, ⟨.sql (.insertTopics _), .ok _⟩ => named payload service
  | named payload service, ⟨.sql (.insertServiceTopics ..), .ok _⟩ => related payload service
  | phase, _ => phase

/-- The service that has been stored, with what has been asked for. -/
def registration : RegisterPhase → Option (CreateServiceInput × Service)
  | stored payload service | named payload service | related payload service => some (payload, service)
  | _ => none

/-- The last statement has succeeded, and the request is answered with the service. -/
def Answered : RegisterPhase → Prop
  | related .. => True
  | _ => False

instance (phase : RegisterPhase) : Decidable phase.Answered := by
  cases phase <;> unfold Answered <;> infer_instance

end RegisterPhase

/-- A statement that stores a service or relates one to topics. -/
def Op.Registers : Op → Prop
  | .sql (.createService ..) | .sql (.insertServiceTopics ..) => True
  | _ => False

/-- The calls that a task may make in a phase of the registration. -/
inductive RegisterLegal : Kind → RegisterPhase → Op → Prop
  | other {kind : Kind} {op : Op} (plain : ¬ op.Registers) : RegisterLegal kind .aside op
  | store {payload : CreateServiceInput} {details : Json} (some : payload.topics ≠ [])
      (described : serviceDetails payload = .ok details) :
      RegisterLegal (.createService payload) (.asked payload)
        (.sql (.createService payload.serviceName payload.providerType details))
  | name {payload : CreateServiceInput} {service : Service} :
      RegisterLegal (.createService payload) (.stored payload service) (.sql (.insertTopics payload.topics))
  | relate {payload : CreateServiceInput} {service : Service} :
      RegisterLegal (.createService payload) (.named payload service)
        (.sql (.insertServiceTopics service.id payload.topics))

def registerMonitor : Monitor Calls Kind RegisterPhase where
  start := RegisterPhase.start
  note := RegisterPhase.note
  legal := RegisterLegal
  ended _ _ := True

/-! ## The request obeys it -/

theorem handleCreateService_registers (payload : CreateServiceInput) :
    (handleCreateService payload).Obeys RegisterPhase.note (RegisterLegal (.createService payload)) (.asked payload)
      (fun _ => RegisterPhase.Answered) fun _ _ => True := by
  unfold handleCreateService
  refine .ite (fun _ => trivial) fun some => (obeys_bind ..).mpr ((obeys_outcome ..).mpr ?_)
  cases described : serviceDetails payload with
  | error e => trivial
  | ok details =>
    have some : payload.topics ≠ [] := fun none => some (List.isEmpty_iff.mpr none)
    refine (obeys_bind ..).mpr ((obeys_attempt ..).mpr ⟨.store some described, fun reply => ?_⟩)
    cases reply with
    | error e => trivial
    | ok service =>
      refine (obeys_bind ..).mpr ((obeys_attempt ..).mpr ⟨.name, fun reply => ?_⟩)
      cases reply with
      | error e => trivial
      | ok done =>
        refine (obeys_bind ..).mpr ((obeys_attempt ..).mpr ⟨.relate, fun reply => ?_⟩)
        cases reply <;> trivial

/-! ## Nobody else does -/

section Bystanders

variable {ε α : Type} {registry : ServiceScalerRegistry} {subJob : SubJobWithJob}

/-- A program that neither stores a service nor relates one to topics. -/
abbrev Bystander (program : Fallible Calls ε α) : Prop := program.Only fun op : Op => ¬ op.Registers

theorem bystander_of_local {program : Fallible Calls ε α} (only : program.Only Op.Local) : Bystander program :=
  Prog.Only.mono only fun op apart registers => by cases op <;> first | exact apart | exact registers

theorem bystander_of_provider {program : Fallible Calls ε α} (only : program.Only Op.Provider) : Bystander program :=
  Prog.Only.mono only fun op provider registers => by cases op <;> first | exact provider | exact registers

theorem bystander_attempt {op : Op} {decode : op.Reply → Except ε α} (plain : ¬ op.Registers) :
    Bystander (attempt op decode) := (only_attempt ..).mpr plain

theorem bystander_findScaler (service : Service) : Bystander (findScaler registry service) := by
  unfold findScaler
  split <;> trivial

theorem bystander_scalerInfo (scaler : ServiceScaler) (service : Service) : Bystander (scalerInfo scaler service) :=
  bystander_of_provider ((provider_getInfo scaler service).mapError _)

theorem bystander_handleDeleteService (serviceId : Uuid) : Bystander (handleDeleteService registry serviceId) := by
  refine .bind (bystander_attempt id) fun service => ?_
  split
  · exact .bind (bystander_attempt id) fun _ => only_pure _
  · exact .bind (bystander_of_provider (provider_scaleDown ..)).optional fun _ =>
      .bind (bystander_attempt id) fun _ => only_pure _

theorem bystander_handleServicesInfo (serviceId : Uuid) : Bystander (handleServicesInfo registry serviceId) :=
  .bind (bystander_attempt id) fun _ => .bind (bystander_findScaler _) fun _ => bystander_scalerInfo ..

theorem bystander_handleServicesScaleUp (serviceId : Uuid) (amount : ℕ) :
    Bystander (handleServicesScaleUp registry serviceId amount) :=
  .bind (bystander_attempt id) fun _ => .bind (bystander_findScaler _) fun _ =>
    .bind ((bystander_of_provider (provider_scaleUp ..)).mapError _) fun _ => bystander_scalerInfo ..

theorem bystander_handleServicesScaleDown (serviceId : Uuid) (amount : ℕ) :
    Bystander (handleServicesScaleDown registry serviceId amount) :=
  .bind (bystander_attempt id) fun _ => .bind (bystander_findScaler _) fun _ =>
    .bind ((bystander_of_provider (provider_scaleDown ..)).mapError _) fun _ => .bind (bystander_scalerInfo ..) fun _ =>
      .ite (.bind (bystander_attempt id) fun _ => only_pure _) (only_pure _)

theorem bystander_scaleDownServices (services : List Service) : Bystander (scaleDownServices registry services) := by
  induction services with
  | nil => trivial
  | cons service services ih =>
    refine .bind ?_ fun _ => .bind ih fun _ => only_pure _
    unfold scaleDownWithInfo
    split
    · trivial
    · have clears : Bystander (orRespond (.clearDescaleDeadline service.id) (.internalServerError "")) := bystander_attempt id
      exact .bind (bystander_of_provider (provider_scaleDown ..)).optional fun _ =>
        .bind (bystander_of_provider (provider_getInfo ..)).optional fun _ =>
          .ite (.bind clears.optional fun _ => only_pure _) (only_pure _)

theorem bystander_descaleServices (services : List Service) :
    (descaleServices registry services).Only fun op : Op => ¬ op.Registers := by
  induction services with
  | nil => trivial
  | cons service services ih =>
    refine .bind ?_ fun _ => ih
    unfold descaleService
    split
    · trivial
    · refine Prog.Only.bind (bystander_of_provider (provider_scaleDown ..)) fun reached => ?_
      cases reached with
      | error e => trivial
      | ok value => exact ⟨id, fun _ => trivial⟩

theorem bystander_setWorkersOffline (workerNames : List String) :
    (setWorkersOffline workerNames).Only fun op : Op => ¬ op.Registers := by
  induction workerNames with
  | nil => trivial
  | cons workerName workerNames ih => exact ⟨id, fun _ => ih⟩

theorem bystander_getServicesAndWorkers : Bystander (getServicesAndWorkers subJob) := by
  refine .bind (bystander_of_local (local_getTopic subJob)) fun topic => ?_
  refine .bind (.bind (bystander_attempt id) fun _ => .ite (only_throw _) (only_pure _)) fun services => ?_
  refine .bind (bystander_attempt id) fun workersOnline => ?_
  split <;> trivial

theorem bystander_scaleUpServices (scaleEachBy : ℕ) (services : List Service) :
    Bystander (scaleUpServices registry scaleEachBy services) := by
  induction services with
  | nil => trivial
  | cons service services ih =>
    unfold scaleUpServices
    split
    · trivial
    · exact .bind ((bystander_of_provider (provider_scaleUp ..)).mapError _) fun _ => ih

theorem bystander_settle {step : SubJobStep Unit} (plain : Bystander step) :
    (step.run >>= settle subJob).Only fun op : Op => ¬ op.Registers := by
  refine Prog.Only.bind plain fun reached => ?_
  rcases reached with (_ | _) | _
  · trivial
  · exact ⟨id, fun _ => trivial⟩
  · trivial

theorem bystander_processScaling : (processScaling registry subJob).Only fun op : Op => ¬ op.Registers := by
  apply bystander_settle
  cases subJob.status with
  | created =>
    have clock : Bystander (utcNow : SubJobStep DateTime) := bystander_of_local local_utcNow
    refine .bind bystander_getServicesAndWorkers fun plan => .bind (bystander_attempt id) fun _ => .bind clock fun _ =>
      .bind (bystander_attempt id) fun _ => .ite (bystander_attempt id) ?_
    exact .bind (bystander_scaleUpServices ..) fun _ => .bind clock fun _ => bystander_attempt id
  | processing =>
    exact .bind (bystander_of_local (local_checkDeadline subJob)) fun _ =>
      .bind bystander_getServicesAndWorkers fun _ => .ite (bystander_attempt id) (only_pure _)
  | pending | completed | failed | canceled => exact only_throw _

theorem bystander_processCombinedDhpType : (processCombinedDhpType subJob).Only fun op : Op => ¬ op.Registers := by
  apply bystander_settle
  cases subJob.status with
  | created =>
    refine .bind (bystander_of_local local_utcNow) fun now => ?_
    refine .bind (.bind (.bind (bystander_attempt id) fun _ => bystander_of_local (local_getTopic _)) fun _ =>
      bystander_attempt id) fun workersOnline => .ite (only_throw _) ?_
    exact .bind (bystander_attempt id) fun _ => .bind (bystander_attempt id) fun _ => bystander_attempt id
  | pending => exact bystander_of_local (local_checkDeadline subJob)
  | processing =>
    refine .bind (bystander_of_local (local_checkDeadline subJob)) fun _ => .bind (only_outcome _) fun _ => ?_
    refine .bind (bystander_attempt id) fun data => .ite (.bind (bystander_attempt id) fun _ => ?_) (only_pure _)
    exact .bind (bystander_attempt id) fun count => .ite (bystander_attempt id) (only_pure _)
  | completed | failed | canceled => exact only_pure _

theorem bystander_subJobHandler : (subJobHandler registry).Only fun op : Op => ¬ op.Registers := by
  refine Prog.Only.bind ⟨id, fun _ => trivial⟩ fun reply => ?_
  cases reply with
  | error e => trivial
  | ok subJob =>
    cases type : subJob.type with
    | combinedDHP =>
      simp only [type]
      exact bystander_processCombinedDhpType
    | scaling =>
      simp only [type]
      exact bystander_processScaling

theorem bystander_handleCreateJob (payload : CreateJobInput) : Bystander (handleCreateJob payload) := by
  have creates (job : Job) (details : SubJobDetails) : Bystander (createSubJob job details) :=
    .bind (bystander_attempt id) fun _ => bystander_attempt id
  refine .bind (bystander_of_local (local_ofInput payload)) fun _ =>
    .bind (bystander_of_local (local_getFileRangeForFile ..)) fun _ => .bind (bystander_attempt id) fun _ => ?_
  exact .bind (bystander_attempt id) fun job => .bind (bystander_attempt id) fun _ => .bind (bystander_attempt id) fun _ =>
    .bind (creates ..) fun _ => .bind (creates ..) fun _ => .bind (creates ..) fun _ => only_pure _

theorem bystander_statusConsumer (content : Message) : Bystander (StatusConsumer.run content.sent) := by
  refine Prog.Only.mono (StatusConsumer.only_run content) fun op records => ?_
  cases op with
  | sql stmt => cases stmt <;> first | exact records.elim | exact id
  | _ => exact records.elim

theorem bystander_dataConsumer (content : Message) : Bystander (DataConsumer.run content.sent) := by
  refine Prog.Only.mono (DataConsumer.only_run content) ?_
  rintro _ ⟨result, rfl⟩
  exact id

theorem bystander_sendStatus (config : WorkerConfig) (status : WorkerStatusDetails) :
    Bystander (StatusSender.sendStatus config status) :=
  .bind (bystander_of_local local_utcNow) fun _ => bystander_attempt id

theorem bystander_jobConsumer (config : WorkerConfig) (content : Message) :
    Bystander (JobConsumer.run config content.sent) :=
  JobConsumer.only_run config content fun _ _ _ op handles => by
    cases op <;> first | exact handles.elim | exact id

theorem bystander_ignore {program : Fallible Calls ε α} (plain : Bystander program) :
    (ignore program).Only fun op : Op => ¬ op.Registers := Prog.Only.bind plain fun _ => trivial

/-- Only the request that creates a service registers one. -/
theorem bystander_body {kind : Kind} (other : ∀ payload, kind ≠ .createService payload) :
    (kind.body registry).Only fun op : Op => ¬ op.Registers := by
  cases kind with
  | createService payload => exact absurd rfl (other payload)
  | createJob payload => exact bystander_ignore (bystander_handleCreateJob payload)
  | cancelJob jobId =>
    exact bystander_ignore (.bind (bystander_attempt id) fun _ => .bind (bystander_attempt id) fun _ => bystander_attempt id)
  | updateService serviceId isEnabled => exact bystander_ignore (bystander_attempt id)
  | deleteService serviceId => exact bystander_ignore (bystander_handleDeleteService serviceId)
  | servicesInfo serviceId => exact bystander_ignore (bystander_handleServicesInfo serviceId)
  | scaleUp serviceId amount => exact bystander_ignore (bystander_handleServicesScaleUp serviceId amount)
  | scaleDown serviceId amount => exact bystander_ignore (bystander_handleServicesScaleDown serviceId amount)
  | scaleDownAll => exact bystander_ignore (.bind (bystander_attempt id) bystander_scaleDownServices)
  | subJobTick => exact bystander_subJobHandler
  | descalerPass =>
    refine Prog.Only.bind ⟨id, fun _ => trivial⟩ fun reply => ?_
    cases reply with
    | error e => trivial
    | ok services => exact bystander_descaleServices services
  | onlineCheckPass =>
    refine Prog.Only.bind ⟨id, fun _ => trivial⟩ fun reply => ?_
    cases reply with
    | error e => trivial
    | ok workerNames => exact bystander_setWorkersOffline workerNames
  | statusDelivery content => exact StatusConsumer.only_consume (bystander_statusConsumer content) id id
  | dataDelivery content => exact DataConsumer.only_consume (bystander_dataConsumer content) id id
  | jobDelivery config content => exact JobConsumer.only_consume (bystander_jobConsumer config content) id id
  | lifecycle config status => exact bystander_ignore (bystander_sendStatus config _)
  | heartbeat config => exact bystander_ignore (bystander_sendStatus config _)

end Bystanders

theorem registerMonitor_covers (registry : ServiceScalerRegistry) : registerMonitor.Covers (platform registry) := by
  intro kind
  by_cases creation : ∃ payload, kind = .createService payload
  · obtain ⟨payload, rfl⟩ := creation
    exact Obeys.handle ((handleCreateService_registers payload).mono (fun _ _ _ => trivial) fun _ _ _ => trivial)
  · have plain : (kind.body registry).Only fun op : Op => ¬ op.Registers :=
      bystander_body fun payload same => creation ⟨payload, same⟩
    have starts : RegisterPhase.start kind = .aside := by
      cases kind with
      | createService payload => exact absurd ⟨payload, rfl⟩ creation
      | _ => rfl
    change Prog.Obeys _ _ _ (RegisterPhase.start kind) _
    rw [starts]
    exact (plain.obeys fun op plain => ⟨.other plain, fun reply => rfl⟩).mono fun _ _ _ => trivial

/-! ## What the log of a request says -/

namespace RegisterPhase

variable {phase : RegisterPhase} {payload : CreateServiceInput} {service : Service}

/-- A service that has been stored stays the one that has. -/
theorem registration_note (made : Act) (stored : phase.registration = some (payload, service)) :
    (phase.note made).registration = some (payload, service) := by
  unfold note
  split
  · cases stored
  · exact stored
  · exact stored
  · exact stored

theorem answered_note (made : Act) (answered : phase.Answered) : (phase.note made).Answered := by
  cases phase <;> first | exact answered.elim | exact answered

end RegisterPhase

variable {kind : Kind} {log : List Act} {service : Service}

/-- The log of a request that has stored a service shows it, and the request. -/
theorem registration_of_logged {name : String} {providerType : ProviderType} {details : Json}
    (permits : registerMonitor.Permits kind log)
    (logged : ⟨.sql (.createService name providerType details), .ok service⟩ ∈ log) : ∃ payload,
      kind = .createService payload ∧
        (log.foldl RegisterPhase.note (RegisterPhase.start kind)).registration = some (payload, service) := by
  induction permits with
  | nil => cases logged
  | @concat log op reply earlier legal ih =>
    rw [List.foldl_append, List.foldl_cons, List.foldl_nil]
    obtain old | new := List.mem_append.mp logged
    · obtain ⟨payload, same, stored⟩ := ih old
      exact ⟨payload, same, RegisterPhase.registration_note _ stored⟩
    · cases List.mem_singleton.mp new
      change RegisterLegal kind (log.foldl RegisterPhase.note (RegisterPhase.start kind)) _ at legal
      generalize log.foldl RegisterPhase.note (RegisterPhase.start kind) = phase at legal
      cases legal with
      | other plain => exact absurd trivial plain
      | store => exact ⟨_, rfl, rfl⟩

/-- A request has been answered if its log shows the last statement. -/
theorem answered_iff_logged (permits : registerMonitor.Permits kind log) :
    (log.foldl RegisterPhase.note (RegisterPhase.start kind)).Answered ↔
      ∃ serviceId topics done, ⟨.sql (.insertServiceTopics serviceId topics), .ok done⟩ ∈ log := by
  induction permits with
  | nil =>
    refine iff_of_false (fun answered => ?_) (by rintro ⟨_, _, _, ⟨⟩⟩)
    cases kind <;> exact answered
  | @concat log op reply earlier legal ih =>
    rw [List.foldl_append, List.foldl_cons, List.foldl_nil]
    change RegisterLegal kind (log.foldl RegisterPhase.note (RegisterPhase.start kind)) op at legal
    generalize log.foldl RegisterPhase.note (RegisterPhase.start kind) = phase at legal ih
    constructor
    · intro answered
      by_cases before : phase.Answered
      · obtain ⟨serviceId, topics, done, old⟩ := ih.mp before
        exact ⟨serviceId, topics, done, List.mem_append_left _ old⟩
      · cases legal with
        | other plain => exact answered.elim
        | store => cases reply <;> exact answered.elim
        | name => cases reply <;> exact answered.elim
        | relate =>
          cases reply with
          | error e => exact answered.elim
          | ok done => exact ⟨_, _, done, List.mem_append_right _ (List.mem_singleton_self _)⟩
    · rintro ⟨serviceId, topics, done, logged⟩
      obtain old | new := List.mem_append.mp logged
      · exact RegisterPhase.answered_note _ (ih.mpr ⟨serviceId, topics, done, old⟩)
      · cases List.mem_singleton.mp new
        cases legal with
        | other plain => exact absurd trivial plain
        | relate => trivial

end Bms
