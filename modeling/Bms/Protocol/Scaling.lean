import Bms.Protocol.Ticks

/-! # Scaling

A third protocol: what a task does to the desired counts of the providers. A tick that has picked a
created scaling sub-job lists the services, sets their deadlines and scales them up one after the
other, reading each count before it requests a new one. Every other task only lowers what it has
read last, but for the request that scales up by hand.
-/

namespace Bms

open Process Fallible

/-- What a service's scaler addresses, if the service has a scaler and the scaler can address it. -/
def ServiceScalerRegistry.targetOf (registry : ServiceScalerRegistry) (service : Service) : Option Target :=
  match registry.getScaler service.providerType with
  | none => none
  | some .docker => some (.docker service.name)
  | some .fargate =>
    match FargateScaler.regionAndCluster service with
    | .error _ => none
    | .ok (region, cluster) => some (.fargate region cluster service.name)

/-! ## The calls of a provider -/

/-- A call that reads a count: for which service, and where. -/
def Op.count? : Op → Option (Service × Target)
  | .describeServices service region cluster => some (service, .fargate region cluster service.name)
  | .dockerPs service => some (service, .docker service.name)
  | _ => none

/-- A call that requests a count: for which service, where, and which count. -/
def Op.scale? : Op → Option (Service × Target × ℤ)
  | .updateService service region cluster count => some (service, .fargate region cluster service.name, count)
  | .dockerComposeUp service count => some (service, .docker service.name, count)
  | _ => none

/-- The count that a provider has answered. -/
def Act.counted? : Act → Option (Service × Target × ℤ)
  | ⟨.describeServices service region cluster, .ok (some info)⟩ =>
    some (service, .fargate region cluster service.name, info.desiredCount)
  | ⟨.dockerPs service, .ok count⟩ => some (service, .docker service.name, count)
  | _ => none

/-- The count that a provider has taken over. -/
def Act.scaled? : Act → Option (Service × Target × ℤ)
  | ⟨.updateService service region cluster count, .ok true⟩ =>
    some (service, .fargate region cluster service.name, count)
  | ⟨.dockerComposeUp service count, .ok ()⟩ => some (service, .docker service.name, count)
  | _ => none

theorem Act.scale_of_scaled {made : Act} {asked : Service × Target × ℤ} (scaled : made.scaled? = some asked) :
    made.op.scale? = some asked := by
  unfold scaled? at scaled
  split at scaled <;> first | exact scaled | cases scaled

/-- The count that has been read and the one that `scale_up` requests next. -/
def Act.aim? (amount : ℤ) : Act → Option (ℤ × ℤ)
  | ⟨.describeServices .., .ok (some info)⟩ => some (info.desiredCount, wrapI32 (info.desiredCount + amount))
  | ⟨.dockerPs _, .ok count⟩ => some (count, wrapU64 (count + if 0 ≤ amount then amount.toNat else 0))
  | _ => none

/-- By how much a sub-job scales each of its services. -/
def SubJobWithJob.scaleStep (subJob : SubJobWithJob) (services : List Service) : ℕ :=
  (scalePlan (subJob.job.details.targetWorkerCount.getD 0) services.length).1

/-- The step as the scalers receive it. -/
def scaleAmount (scaleEachBy : ℕ) : ℤ := (tryIntoI32 scaleEachBy).getD 0

theorem scaleAmount_nonneg (scaleEachBy : ℕ) : 0 ≤ scaleAmount scaleEachBy := by
  unfold scaleAmount tryIntoI32
  split
  · exact Int.natCast_nonneg scaleEachBy
  · exact le_refl _

theorem scaleAmount_le (scaleEachBy : ℕ) : scaleAmount scaleEachBy ≤ scaleEachBy := by
  unfold scaleAmount tryIntoI32
  split
  · exact le_refl _
  · exact Int.natCast_nonneg scaleEachBy

/-- A scaling sub-job that is to be scaled for. -/
def SubJobWithJob.ToScale (subJob : SubJobWithJob) : Prop := subJob.type = .scaling ∧ subJob.status = .created

instance (subJob : SubJobWithJob) : Decidable subJob.ToScale := inferInstanceAs (Decidable (_ ∧ _))

/-- The request that scales up by hand. -/
def Kind.Raises : Kind → Prop
  | .scaleUp .. => True
  | _ => False

/-! ## The monitor -/

/-- Where a task stands with respect to scaling. -/
inductive ScalePhase
  /-- no tick; what its last call has read, if that was a count -/
  | apart (read : Option (Target × ℤ))
  | searching
  /-- a tick that has picked a sub-job for which nothing is to be scaled -/
  | other (subJob : SubJobWithJob)
  | picked (subJob : SubJobWithJob)
  | listed (subJob : SubJobWithJob) (services : List Service)
  /-- the deadlines are set, and `remaining` is still to be scaled -/
  | scaling (subJob : SubJobWithJob) (services remaining : List Service)
  /-- a count has been read, and another one is to be requested -/
  | raising (subJob : SubJobWithJob) (services : List Service) (service : Service) (remaining : List Service)
      (count newCount : ℤ)
  /-- no call follows -/
  | finished (subJob : SubJobWithJob) (services : List Service)

namespace ScalePhase

def start : Kind → ScalePhase
  | .subJobTick => searching
  | _ => apart none

/-- The phase after a call. -/
def note : ScalePhase → Act → ScalePhase
  | apart _, made => apart (made.counted?.map (·.2))
  | searching, ⟨.sql .getFirstUnfinishedSubJob, .ok subJob⟩ => if subJob.ToScale then picked subJob else other subJob
  | picked subJob, ⟨.sql (.getServicesEnabledByTopic _), .ok services⟩ => listed subJob services
  | listed subJob services, ⟨.sql (.setDescaleDeadlines ..), .ok _⟩ => scaling subJob services services
  | scaling subJob services (service :: remaining), made =>
    match made.aim? (scaleAmount (subJob.scaleStep services)) with
    | none => finished subJob services
    | some (count, newCount) =>
      if count = newCount then scaling subJob services remaining
      else raising subJob services service remaining count newCount
  | scaling subJob services [], ⟨.now, _⟩ => scaling subJob services []
  | scaling subJob services [], _ => finished subJob services
  | raising subJob services _ remaining _ _, made =>
    if made.scaled?.isSome then scaling subJob services remaining else finished subJob services
  | phase, _ => phase

/-- The phases in which a task may return. A service that its scaler cannot address stops the loop. -/
def Final (registry : ServiceScalerRegistry) : ScalePhase → Prop
  | scaling _ _ remaining => ∃ service rest, remaining = service :: rest ∧
    (registry.getScaler service.providerType).isSome ∧ registry.targetOf service = none
  | raising .. => False
  | _ => True

end ScalePhase

/-- A call that neither concerns a provider nor sets deadlines of services. -/
def Op.Plain : Op → Prop
  | .sql (.setDescaleDeadlines ..) | .describeServices .. | .updateService .. | .dockerPs _ | .dockerComposeUp .. => False
  | _ => True

/-- The calls that a task may make in a phase of the scaling. -/
inductive ScaleLegal (registry : ServiceScalerRegistry) : Kind → ScalePhase → Op → Prop
  | apart {kind : Kind} {read : Option (Target × ℤ)} {op : Op}
      (lowers : ∀ service target count, op.scale? = some (service, target, count) →
        kind.Raises ∨ ∃ found, read = some (target, found) ∧ count ≤ max found 0) :
      ScaleLegal registry kind (.apart read) op
  | pick : ScaleLegal registry .subJobTick .searching (.sql .getFirstUnfinishedSubJob)
  | other {subJob : SubJobWithJob} {op : Op} (plain : op.Plain) : ScaleLegal registry .subJobTick (.other subJob) op
  | prepare {subJob : SubJobWithJob} {op : Op} (plain : op.Plain) : ScaleLegal registry .subJobTick (.picked subJob) op
  | plan {subJob : SubJobWithJob} {services : List Service} {op : Op} (plain : op.Plain) :
      ScaleLegal registry .subJobTick (.listed subJob services) op
  | schedule {subJob : SubJobWithJob} {services : List Service} {descaleAt : DateTime} :
      ScaleLegal registry .subJobTick (.listed subJob services)
        (.sql (.setDescaleDeadlines (services.map (·.id)) descaleAt))
  | count {subJob : SubJobWithJob} {services remaining : List Service} {service : Service} {target : Target} {op : Op}
      (counts : op.count? = some (service, target)) (addressed : registry.targetOf service = some target) :
      ScaleLegal registry .subJobTick (.scaling subJob services (service :: remaining)) op
  | raise {subJob : SubJobWithJob} {services remaining : List Service} {service : Service} {target : Target}
      {count newCount : ℤ} {op : Op} (asks : op.scale? = some (service, target, newCount))
      (addressed : registry.targetOf service = some target) :
      ScaleLegal registry .subJobTick (.raising subJob services service remaining count newCount) op
  | stamp {subJob : SubJobWithJob} {services : List Service} :
      ScaleLegal registry .subJobTick (.scaling subJob services []) .now
  | done {subJob : SubJobWithJob} {services : List Service} {deadline : DateTime} :
      ScaleLegal registry .subJobTick (.scaling subJob services [])
        (.sql (.updateSubJobStatusAndDeadline subJob.id .processing deadline))
  | unneeded {subJob : SubJobWithJob} {services : List Service} :
      ScaleLegal registry .subJobTick (.scaling subJob services services) (.sql (.updateSubJobStatus subJob.id .canceled))
  | unscaled {subJob : SubJobWithJob} {services remaining : List Service} {service : Service} {message : String}
      (unknown : registry.getScaler service.providerType = none) :
      ScaleLegal registry .subJobTick (.scaling subJob services (service :: remaining))
        (.sql (.updateSubJobStatusWithError subJob.id .failed message))

def scaleMonitor (registry : ServiceScalerRegistry) : Monitor Calls Kind ScalePhase where
  start := ScalePhase.start
  note := ScalePhase.note
  legal := ScaleLegal registry
  ended _ := ScalePhase.Final registry

/-! ## The programs obey it -/

variable {registry : ServiceScalerRegistry} {ε α β : Type}

theorem Op.Local.plain {op : Op} (apart : op.Local) : op.Plain := by
  cases op <;> first | exact apart.elim | trivial

theorem plain_of_local {program : Fallible Calls ε α} (only : program.Only Op.Local) : program.Only Op.Plain :=
  Prog.Only.mono only fun _ => Op.Local.plain

theorem plain_attempt {op : Op} {decode : op.Reply → Except ε α} (plain : op.Plain) :
    (attempt op decode : Fallible Calls ε α).Only Op.Plain := (only_attempt ..).mpr plain

theorem Op.Plain.scale {op : Op} (plain : op.Plain) : op.scale? = none := by
  cases op <;> first | exact plain.elim | rfl

/-! ### Tasks that are no tick -/

def ScalePhase.Apart (phase : ScalePhase) : Prop := ∃ read, phase = .apart read

/-- A program that only lowers what it has read, whatever its task has read before. -/
def Lowers (registry : ServiceScalerRegistry) (kind : Kind) (program : Prog Calls α) : Prop :=
  ∀ read, program.Obeys ScalePhase.note (ScaleLegal registry kind) (.apart read) fun _ => ScalePhase.Apart

section Lowers

variable {kind : Kind}

theorem Lowers.bind {program : Prog Calls α} {rest : α → Prog Calls β} (lowers : Lowers registry kind program)
    (next : ∀ value, Lowers registry kind (rest value)) : Lowers registry kind (program >>= rest) := by
  intro read
  refine (Prog.obeys_bind ..).mpr ((lowers read).mono ?_)
  rintro value reached ⟨read, rfl⟩
  exact next value read

theorem lowers_ret (value : α) : Lowers registry kind (.ret value) := fun read => ⟨read, rfl⟩

/-- A call that requests no count is free. -/
theorem lowers_call {op : Op} {next : op.Reply → Prog Calls α} (asks : op.scale? = none)
    (later : ∀ reply, Lowers registry kind (next reply)) : Lowers registry kind (.call op next) :=
  fun read => ⟨.apart fun _ _ _ asked => by simp [asks] at asked, fun reply => later reply _⟩

theorem lowers_of_only {program : Prog Calls α} (only : program.Only fun op : Op => op.scale? = none) :
    Lowers registry kind program := by
  induction program with
  | ret value => exact lowers_ret value
  | call op next ih => exact lowers_call only.1 fun reply => ih reply (only.2 reply)

theorem lowers_of_plain {program : Prog Calls α} (only : program.Only Op.Plain) : Lowers registry kind program :=
  lowers_of_only (only.mono fun _ => Op.Plain.scale)

/-- The request that scales up by hand may do what it likes. -/
theorem lowers_of_raises (raises : kind.Raises) (program : Prog Calls α) : Lowers registry kind program := by
  induction program with
  | ret value => exact lowers_ret value
  | call op next ih => exact fun read => ⟨.apart fun _ _ _ _ => .inl raises, fun reply => ih reply _⟩

theorem Lowers.andThen {program : Fallible Calls ε α} {rest : α → Fallible Calls ε β}
    (lowers : Lowers registry kind program.run) (next : ∀ value, Lowers registry kind (rest value).run) :
    Lowers registry kind (program >>= rest).run := by
  rw [ExceptT.run_bind]
  refine lowers.bind fun reached => ?_
  cases reached with
  | ok value => exact next value
  | error e => exact lowers_ret _

theorem Lowers.mapError {δ : Type} {program : Fallible Calls δ α} (lowers : Lowers registry kind program.run)
    (change : δ → ε) : Lowers registry kind (program.mapError change).run := lowers.bind fun _ => lowers_ret _

theorem Lowers.optional {δ : Type} {program : Fallible Calls δ α} (lowers : Lowers registry kind program.run) :
    Lowers registry kind (program.optional : Fallible Calls ε (Option α)).run := lowers.bind fun _ => lowers_ret _

theorem Lowers.attempt {op : Op} {decode : op.Reply → Except ε α} (asks : op.scale? = none) :
    Lowers registry kind (Fallible.attempt op decode).run := lowers_call asks fun _ => lowers_ret _

theorem Lowers.outcome (value : Except ε α) : Lowers registry kind (Fallible.outcome value : Fallible Calls ε α).run :=
  lowers_ret _

/-- A program that keeps apart however it ends. -/
theorem lowers_of_obeys {program : Fallible Calls ε α}
    (obeys : ∀ read, program.Obeys ScalePhase.note (ScaleLegal registry kind) (.apart read)
      (fun _ => ScalePhase.Apart) fun _ => ScalePhase.Apart) : Lowers registry kind program.run := by
  refine fun read => Prog.Obeys.mono (obeys read) fun reached phase post => ?_
  cases reached <;> exact post

/-- Requesting no more than what has been read. -/
theorem apart_of_request {op : Op} {decode : op.Reply → Except ε α} {service : Service} {target : Target}
    {count found : ℤ} (asks : op.scale? = some (service, target, count)) (lower : count ≤ max found 0) :
    (attempt op decode).Obeys ScalePhase.note (ScaleLegal registry kind) (.apart (some (target, found)))
      (fun _ => ScalePhase.Apart) fun _ => ScalePhase.Apart := by
  refine (obeys_attempt ..).mpr ⟨.apart fun _ _ _ asked => .inr ?_, fun reply => ?_⟩
  · rw [asks] at asked
    cases asked
    exact ⟨found, rfl, lower⟩
  · cases decode reply <;> exact ⟨_, rfl⟩

theorem saturatingSubI32_le {a b : ℤ} (positive : 0 ≤ b) : saturatingSubI32 a b ≤ max a 0 := by
  unfold saturatingSubI32 i32Max
  omega

/-- Reading a count and requesting a smaller one. -/
theorem lowers_scaleDown (scaler : ServiceScaler) (service : Service) {amount : ℤ} (positive : 0 ≤ amount) :
    Lowers registry kind (scaler.scaleDown service amount).run := by
  apply lowers_of_obeys
  intro read
  cases scaler with
  | docker =>
    refine (obeys_bind ..).mpr ((obeys_attempt ..).mpr ⟨.apart fun _ _ _ asked => (by cases asked), fun reply => ?_⟩)
    cases reply with
    | error e => exact ⟨_, rfl⟩
    | ok currentCount =>
      refine .ite (fun _ => ⟨_, rfl⟩) fun _ => apart_of_request rfl ?_
      exact le_max_of_le_left (Int.ofNat_le.mpr (Nat.sub_le ..))
  | fargate =>
    change Fallible.Obeys _ _ (FargateScaler.scaleDown service amount) _ _ _
    cases addressed : FargateScaler.regionAndCluster service with
    | error e =>
      simp only [FargateScaler.scaleDown, FargateScaler.getServiceInfo, addressed]
      exact ⟨_, rfl⟩
    | ok place =>
      obtain ⟨region, cluster⟩ := place
      simp only [FargateScaler.scaleDown, FargateScaler.getServiceInfo, FargateScaler.updateService, addressed,
        obeys_bind, obeys_outcome, obeys_attempt]
      refine ⟨.apart fun _ _ _ asked => (by cases asked), fun reply => ?_⟩
      rcases reply with e | (_ | info)
      · exact ⟨_, rfl⟩
      · exact ⟨_, rfl⟩
      · refine .ite (fun _ => ⟨_, rfl⟩) fun _ => (obeys_bind ..).mpr (apart_of_request rfl ?_)
        exact max_le (saturatingSubI32_le positive) (le_max_right _ _)

theorem lowers_sql {stmt : Stmt} {decode : Except SqlxError stmt.Row → Except ε α} :
    Lowers registry kind (Fallible.attempt (Op.sql stmt) decode : Fallible Calls ε α).run := .attempt rfl

theorem lowers_getInfo (scaler : ServiceScaler) (service : Service) :
    Lowers registry kind (scaler.getInfo service).run := by
  cases scaler with
  | docker => exact .andThen (.attempt rfl) fun _ => lowers_ret _
  | fargate => exact .andThen (.outcome _) fun _ => .andThen (.attempt rfl) fun _ => lowers_ret _

theorem lowers_findScaler (service : Service) : Lowers registry kind (findScaler registry service).run := by
  unfold findScaler
  split <;> exact lowers_ret _

theorem lowers_handleDeleteService (serviceId : Uuid) :
    Lowers registry kind (handleDeleteService registry serviceId).run := by
  refine .andThen lowers_sql fun service => ?_
  have deletes : Lowers registry kind (orRespond (.deleteServiceById serviceId)
      (.internalServerError "Failed to delete service") >>= fun _ => pure service : Api Service).run :=
    .andThen lowers_sql fun _ => lowers_ret _
  split
  · exact deletes
  · exact .andThen (lowers_scaleDown _ service (by decide)).optional fun _ => deletes

theorem lowers_handleServicesInfo (serviceId : Uuid) : Lowers registry kind (handleServicesInfo registry serviceId).run :=
  .andThen lowers_sql fun service => .andThen (lowers_findScaler service) fun scaler =>
    (lowers_getInfo scaler service).mapError _

theorem lowers_handleServicesScaleDown (serviceId : Uuid) (amount : ℕ) :
    Lowers registry kind (handleServicesScaleDown registry serviceId amount).run := by
  refine .andThen lowers_sql fun service => .andThen (lowers_findScaler service) fun scaler => ?_
  refine .andThen ((lowers_scaleDown scaler service (scaleAmount_nonneg amount)).mapError _) fun _ => ?_
  refine .andThen ((lowers_getInfo scaler service).mapError _) fun info => ?_
  split
  · exact .andThen lowers_sql fun _ => lowers_ret _
  · exact lowers_ret _

theorem lowers_scaleDownWithInfo (service : Service) : Lowers registry kind (scaleDownWithInfo registry service).run := by
  unfold scaleDownWithInfo
  split
  · exact lowers_ret _
  · refine .andThen (lowers_scaleDown _ service (by decide)).optional fun _ => ?_
    refine .andThen (lowers_getInfo _ service).optional fun info => ?_
    split
    · exact .andThen (Lowers.optional lowers_sql) fun _ => lowers_ret _
    · exact lowers_ret _

theorem lowers_scaleDownServices (services : List Service) :
    Lowers registry kind (scaleDownServices registry services).run := by
  induction services with
  | nil => exact lowers_ret _
  | cons service services ih =>
    exact .andThen (lowers_scaleDownWithInfo service) fun _ => .andThen ih fun _ => lowers_ret _

theorem lowers_descaleServices (services : List Service) : Lowers registry kind (descaleServices registry services) := by
  induction services with
  | nil => exact lowers_ret _
  | cons service services ih =>
    refine .bind ?_ fun _ => ih
    unfold descaleService
    split
    · exact lowers_ret _
    · refine (lowers_scaleDown _ service (by decide)).bind fun reached => ?_
      cases reached with
      | error e => exact lowers_ret _
      | ok done => exact lowers_call rfl fun _ => lowers_ret _

theorem lowers_serviceDescalerHandler : Lowers registry kind (serviceDescalerHandler registry) := by
  apply lowers_call rfl
  intro reply
  cases reply with
  | error e => exact lowers_ret _
  | ok services => exact lowers_descaleServices services

theorem lowers_handleCreateJob (payload : CreateJobInput) : Lowers registry kind (handleCreateJob payload).run := by
  have inserts (job : Job) (details : SubJobDetails) : Lowers registry kind (createSubJob job details).run :=
    .andThen (.attempt rfl) fun _ => lowers_sql
  refine .andThen (lowers_of_plain (plain_of_local (local_ofInput payload))) fun params => ?_
  refine .andThen (lowers_of_plain (plain_of_local (local_getFileRangeForFile ..))) fun range => ?_
  refine .andThen (.attempt rfl) fun _ => .andThen lowers_sql fun job => .andThen (.attempt rfl) fun _ => ?_
  refine .andThen lowers_sql fun _ => .andThen (inserts _ _) fun _ => ?_
  exact .andThen (inserts _ _) fun _ => .andThen (inserts _ _) fun _ => lowers_ret _

theorem plain_statusConsumer (content : Message) : (StatusConsumer.run content.sent).Only Op.Plain := by
  refine Prog.Only.mono (StatusConsumer.only_run content) fun op records => ?_
  cases op with
  | sql stmt => cases stmt <;> first | exact records.elim | trivial
  | _ => exact records.elim

theorem plain_dataConsumer (content : Message) : (DataConsumer.run content.sent).Only Op.Plain := by
  refine Prog.Only.mono (DataConsumer.only_run content) ?_
  rintro _ ⟨result, rfl⟩
  trivial

theorem plain_sendStatus (config : WorkerConfig) (status : WorkerStatusDetails) :
    (StatusSender.sendStatus config status).Only Op.Plain :=
  .bind (plain_of_local local_utcNow) fun _ => plain_attempt trivial

theorem plain_jobConsumer (config : WorkerConfig) (content : Message) :
    (JobConsumer.run config content.sent).Only Op.Plain :=
  JobConsumer.only_run config content fun _ _ _ op handles => by
    cases op <;> first | exact handles.elim | trivial

theorem plain_processWorkerOnlineCheck : processWorkerOnlineCheck.Only Op.Plain := by
  refine ⟨trivial, fun reply => ?_⟩
  cases reply with
  | error e => trivial
  | ok workerNames =>
    change (setWorkersOffline workerNames).Only Op.Plain
    induction workerNames with
    | nil => trivial
    | cons workerName workerNames ih => exact ⟨trivial, fun _ => ih⟩

/-- Every task but a tick lowers what it has read, or is the request that scales up by hand. -/
theorem lowers_body (other : kind ≠ .subJobTick) : Lowers registry kind (kind.body registry) := by
  have ignored {ε α : Type} {program : Fallible Calls ε α} (lowers : Lowers registry kind program.run) :
      Lowers registry kind (ignore program) := lowers.bind fun _ => lowers_ret _
  have quietly {ε α : Type} {program : Fallible Calls ε α} (only : Prog.Only Op.Plain program.run) :
      Lowers registry kind (ignore program) := ignored (lowers_of_plain only)
  cases kind with
  | subJobTick => exact absurd rfl other
  | createJob payload => exact ignored (lowers_handleCreateJob payload)
  | cancelJob jobId => exact ignored (.andThen lowers_sql fun _ => .andThen lowers_sql fun _ => lowers_sql)
  | createService payload =>
    apply ignored
    unfold handleCreateService
    split
    · exact lowers_ret _
    · exact .andThen (.outcome _) fun _ => .andThen lowers_sql fun _ => .andThen lowers_sql fun _ =>
        .andThen lowers_sql fun _ => lowers_ret _
  | updateService serviceId isEnabled => exact ignored lowers_sql
  | deleteService serviceId => exact ignored (lowers_handleDeleteService serviceId)
  | servicesInfo serviceId => exact ignored (lowers_handleServicesInfo serviceId)
  | scaleUp serviceId amount => exact lowers_of_raises (show Kind.Raises (.scaleUp serviceId amount) from trivial) _
  | scaleDown serviceId amount => exact ignored (lowers_handleServicesScaleDown serviceId amount)
  | scaleDownAll => exact ignored (.andThen lowers_sql fun services => lowers_scaleDownServices services)
  | descalerPass => exact lowers_serviceDescalerHandler
  | onlineCheckPass => exact lowers_of_plain plain_processWorkerOnlineCheck
  | statusDelivery content => exact lowers_of_plain (StatusConsumer.only_consume (plain_statusConsumer content) trivial trivial)
  | dataDelivery content => exact lowers_of_plain (DataConsumer.only_consume (plain_dataConsumer content) trivial trivial)
  | jobDelivery config content =>
    exact lowers_of_plain (JobConsumer.only_consume (plain_jobConsumer config content) trivial trivial)
  | lifecycle config status => exact quietly (plain_sendStatus ..)
  | heartbeat config => exact quietly (plain_sendStatus ..)

end Lowers

/-! ### Ticks -/

section Tick

variable {subJob : SubJobWithJob} {services : List Service}

/-- How a tick goes on when a step of it has stopped with an error. -/
def ScaleSettles (registry : ServiceScalerRegistry) (subJob : SubJobWithJob) (e : SubJobHandlerError)
    (reached : ScalePhase) : Prop :=
  (settle subJob (.error e)).Obeys ScalePhase.note (ScaleLegal registry .subJobTick) reached fun _ =>
    ScalePhase.Final registry

/-- A part of a tick, from a phase on. -/
abbrev Scales (registry : ServiceScalerRegistry) (subJob : SubJobWithJob) (program : SubJobStep α) (phase : ScalePhase)
    (good : α → ScalePhase → Prop) : Prop :=
  program.Obeys ScalePhase.note (ScaleLegal registry .subJobTick) phase good (ScaleSettles registry subJob)

theorem scaleSettles_picked (e : SubJobHandlerError) : ScaleSettles registry subJob e (.picked subJob) := by
  cases e with
  | skip message => trivial
  | failedJob message => exact ⟨.prepare trivial, fun _ => trivial⟩

theorem scaleSettles_listed (e : SubJobHandlerError) : ScaleSettles registry subJob e (.listed subJob services) := by
  cases e with
  | skip message => trivial
  | failedJob message => exact ⟨.plan trivial, fun _ => trivial⟩

/-- A plain first part of a tick whose services are listed. -/
theorem Scales.plainly {program : SubJobStep α} {rest : α → SubJobStep β} {good : β → ScalePhase → Prop}
    (only : program.Only Op.Plain)
    (next : ∀ value, Scales registry subJob (rest value) (.listed subJob services) good) :
    Scales registry subJob (program >>= rest) (.listed subJob services) good := by
  have kept (op : Op) (plain : op.Plain) : ScaleLegal registry .subJobTick (.listed subJob services) op ∧
      ∀ reply, ScalePhase.note (.listed subJob services) ⟨op, reply⟩ = .listed subJob services := by
    refine ⟨.plan plain, fun reply => ?_⟩
    cases op with
    | sql stmt => cases stmt <;> first | exact plain.elim | rfl
    | _ => rfl
  refine (obeys_bind ..).mpr (Prog.Obeys.mono (Prog.Only.obeys only kept) fun outcome reached same => ?_)
  subst same
  cases outcome with
  | ok value => exact next value
  | error e => exact scaleSettles_listed e

/-- A first part without calls to the scheduler's tables or to a provider changes nothing. -/
theorem Scales.locally {program : SubJobStep α} {rest : α → SubJobStep β} {good : β → ScalePhase → Prop}
    (only : program.Only Op.Local) (next : ∀ value, Scales registry subJob (rest value) (.picked subJob) good) :
    Scales registry subJob (program >>= rest) (.picked subJob) good := by
  have kept (op : Op) (apart : op.Local) : ScaleLegal registry .subJobTick (.picked subJob) op ∧
      ∀ reply, ScalePhase.note (.picked subJob) ⟨op, reply⟩ = .picked subJob := by
    refine ⟨.prepare apart.plain, fun reply => ?_⟩
    cases op <;> first | exact apart.elim | rfl
  refine (obeys_bind ..).mpr (Prog.Obeys.mono (Prog.Only.obeys only kept) fun outcome reached same => ?_)
  subst same
  cases outcome with
  | ok value => exact next value
  | error e => exact scaleSettles_picked e

/-- Asking a provider for the new count. -/
theorem request_scales {op : Op} {decode : op.Reply → Except ServiceScalerError Unit} {service : Service}
    {remaining : List Service} {target : Target} {count newCount : ℤ}
    (asks : op.scale? = some (service, target, newCount)) (addressed : registry.targetOf service = some target)
    (decodes : ∀ reply, (decode reply).isOk = (Act.scaled? ⟨op, reply⟩).isSome) :
    (attempt op decode).Obeys ScalePhase.note (ScaleLegal registry .subJobTick)
      (.raising subJob services service remaining count newCount)
      (fun _ reached => reached = .scaling subJob services remaining) fun _ reached => reached.Final registry := by
  refine (obeys_attempt ..).mpr ⟨.raise asks addressed, fun reply => ?_⟩
  have agree := decodes reply
  cases decoded : decode reply with
  | ok done =>
    rw [decoded] at agree
    exact if_pos agree.symm
  | error e =>
    rw [decoded] at agree
    simp only [ScalePhase.note, ← agree, Except.isOk, Except.toBool, Bool.false_eq_true, ↓reduceIte]
    trivial

/-- Scaling up one service. -/
theorem scaleUp_scales {scaler : ServiceScaler} {service : Service} {remaining : List Service}
    (known : registry.getScaler service.providerType = some scaler) :
    (scaler.scaleUp service (scaleAmount (subJob.scaleStep services))).Obeys ScalePhase.note
      (ScaleLegal registry .subJobTick) (.scaling subJob services (service :: remaining))
      (fun _ reached => reached = .scaling subJob services remaining) fun _ reached => reached.Final registry := by
  cases scaler with
  | docker =>
    have addressed : registry.targetOf service = some (.docker service.name) := by
      simp only [ServiceScalerRegistry.targetOf, known]
    refine (obeys_bind ..).mpr ((obeys_attempt ..).mpr ⟨.count rfl addressed, fun reply => ?_⟩)
    cases reply with
    | error e => trivial
    | ok currentCount =>
      refine .ite (fun same => ?_) fun other => ?_
      · exact if_pos (congrArg Nat.cast same)
      · have noted : ScalePhase.note (.scaling subJob services (service :: remaining))
            ⟨.dockerPs service, .ok currentCount⟩ = .raising subJob services service remaining currentCount _ :=
          if_neg fun same => other (Int.ofNat.inj same)
        rw [noted]
        apply request_scales rfl addressed
        intro reply
        cases reply <;> rfl
  | fargate =>
    change Fallible.Obeys _ _ (FargateScaler.scaleUp service _) _ _ _
    cases located : FargateScaler.regionAndCluster service with
    | error e =>
      have unaddressed : registry.targetOf service = none := by
        simp only [ServiceScalerRegistry.targetOf, known, located]
      simp only [FargateScaler.scaleUp, FargateScaler.getServiceInfo, located]
      exact ⟨service, remaining, rfl, by rw [known]; rfl, unaddressed⟩
    | ok place =>
      obtain ⟨region, cluster⟩ := place
      have addressed : registry.targetOf service = some (.fargate region cluster service.name) := by
        simp only [ServiceScalerRegistry.targetOf, known, located]
      simp only [FargateScaler.scaleUp, FargateScaler.getServiceInfo, FargateScaler.updateService, located,
        obeys_bind, obeys_outcome, obeys_attempt]
      refine ⟨.count rfl addressed, fun reply => ?_⟩
      rcases reply with e | (_ | info)
      · trivial
      · trivial
      · refine .ite (fun same => ?_) fun other => (obeys_bind ..).mpr ?_
        · exact if_pos same
        · have noted : ScalePhase.note (.scaling subJob services (service :: remaining))
              ⟨.describeServices service region cluster, .ok (some info)⟩ =
              .raising subJob services service remaining info.desiredCount _ := if_neg other
          refine noted.symm ▸ request_scales rfl addressed fun reply => ?_
          rcases reply with _ | (_ | _) <;> rfl

/-- Scaling up what remains, service by service. -/
theorem scaleUpServices_scales (remaining : List Service) :
    Scales registry subJob (scaleUpServices registry (subJob.scaleStep services) remaining)
      (.scaling subJob services remaining) fun _ reached => reached = .scaling subJob services [] := by
  induction remaining with
  | nil => rfl
  | cons service remaining ih =>
    unfold scaleUpServices
    cases known : registry.getScaler service.providerType with
    | none => exact ⟨.unscaled known, fun _ => trivial⟩
    | some scaler =>
      refine (obeys_bind ..).mpr ((obeys_mapError ..).mpr (Obeys.mono (scaleUp_scales known) ?_ ?_))
      · rintro done reached rfl
        exact ih
      · exact fun e reached final => final

theorem plain_getWorkersOnline (topic : String) : (getWorkersOnline topic).Only Op.Plain := plain_attempt trivial

/-- The services that are listed, with the step of each. -/
theorem getServicesAndWorkers_scales :
    Scales registry subJob (getServicesAndWorkers subJob) (.picked subJob) fun plan reached =>
      reached = .listed subJob plan.1 ∧ plan.2.2.2 = subJob.scaleStep plan.1 := by
  refine .locally (local_getTopic subJob) fun topic => ?_
  refine (obeys_bind ..).mpr ((obeys_bind ..).mpr ((obeys_attempt ..).mpr ⟨.prepare trivial, fun reply => ?_⟩))
  cases reply with
  | error e => exact ⟨.prepare trivial, fun _ => trivial⟩
  | ok services =>
    refine .ite (fun _ => ⟨.plan trivial, fun _ => trivial⟩) fun _ => ?_
    refine Scales.plainly (plain_getWorkersOnline topic) fun workersOnline => ?_
    cases target : subJob.job.details.targetWorkerCount with
    | none => exact scaleSettles_listed _
    | some count => exact ⟨rfl, by simp only [SubJobWithJob.scaleStep, scalePlan, target, Option.getD_some]⟩

theorem processScalingCreated_scales :
    Scales registry subJob (processScalingCreated registry subJob) (.picked subJob) fun _ => ScalePhase.Final registry := by
  refine (obeys_bind ..).mpr (Obeys.mono getServicesAndWorkers_scales ?_ fun _ _ => id)
  rintro ⟨services, workersOnline, workersCount, scaleEachBy⟩ reached ⟨rfl, step⟩
  obtain rfl : scaleEachBy = subJob.scaleStep services := step
  refine Scales.plainly (plain_attempt trivial) fun _ => ?_
  refine Scales.plainly (plain_of_local local_utcNow) fun now => ?_
  refine (obeys_bind ..).mpr ((obeys_attempt ..).mpr ⟨.schedule, fun reply => ?_⟩)
  cases reply with
  | error e => trivial
  | ok done =>
    refine .ite (fun _ => ?_) fun _ => ?_
    · refine (obeys_attempt ..).mpr ⟨.unneeded, fun reply => ?_⟩
      cases services <;> cases reply <;> trivial
    · refine (obeys_bind ..).mpr (Obeys.mono (scaleUpServices_scales services) ?_ fun _ _ => id)
      rintro done reached rfl
      refine (obeys_bind ..).mpr (obeys_utcNow.mpr ⟨.stamp, fun now => ?_⟩)
      refine (obeys_attempt ..).mpr ⟨.done, fun reply => ?_⟩
      cases reply <;> trivial

theorem plain_getServicesAndWorkers : (getServicesAndWorkers subJob).Only Op.Plain := by
  refine .bind (plain_of_local (local_getTopic subJob)) fun topic => ?_
  refine .bind (.bind (plain_attempt trivial) fun services => .ite (only_throw _) (only_pure _)) fun services => ?_
  refine .bind (plain_getWorkersOnline topic) fun workersOnline => ?_
  split <;> trivial

theorem plain_settle (step : SubJobStep Unit) (plain : step.Only Op.Plain) :
    (step.run >>= settle subJob).Only Op.Plain := by
  refine Prog.Only.bind plain fun reached => ?_
  rcases reached with (_ | _) | _
  · trivial
  · exact ⟨trivial, fun _ => trivial⟩
  · trivial

theorem plain_processScaling (settled : subJob.status ≠ .created) : (processScaling registry subJob).Only Op.Plain := by
  apply plain_settle _
  cases status : subJob.status with
  | created => exact absurd status settled
  | processing =>
    refine .bind (plain_of_local (local_checkDeadline subJob)) fun _ => ?_
    refine .bind plain_getServicesAndWorkers fun plan => .ite (plain_attempt trivial) (only_pure _)
  | pending | completed | failed | canceled => exact only_throw _

theorem plain_processCombinedDhpType : (processCombinedDhpType subJob).Only Op.Plain := by
  apply plain_settle _
  cases subJob.status with
  | created =>
    refine .bind (plain_of_local local_utcNow) fun now => ?_
    refine .bind (.bind (.bind (plain_attempt trivial) fun _ => plain_of_local (local_getTopic _)) fun topic =>
      plain_getWorkersOnline topic) fun workersOnline => .ite (only_throw _) ?_
    refine .bind (plain_attempt trivial) fun _ => .bind (plain_attempt trivial) fun _ => plain_attempt trivial
  | pending => exact plain_of_local (local_checkDeadline subJob)
  | processing =>
    refine .bind (plain_of_local (local_checkDeadline subJob)) fun _ => .bind (only_outcome _) fun workersCount => ?_
    refine .bind (plain_attempt trivial) fun data => .ite (.bind (plain_attempt trivial) fun _ => ?_) (only_pure _)
    exact .bind (plain_attempt trivial) fun count => .ite (plain_attempt trivial) (only_pure _)
  | completed | failed | canceled => exact only_pure _

theorem subJobHandler_scales :
    (subJobHandler registry).Obeys ScalePhase.note (ScaleLegal registry .subJobTick) .searching
      fun _ => ScalePhase.Final registry := by
  refine (Prog.obeys_bind ..).mpr ((obeys_execute ..).mpr ⟨.pick, fun reply => ?_⟩)
  cases reply with
  | error e => trivial
  | ok subJob =>
    have plainly {program : Prog Calls Unit} (other : ¬ subJob.ToScale) (only : program.Only Op.Plain) :
        program.Obeys ScalePhase.note (ScaleLegal registry .subJobTick)
          (ScalePhase.searching.note ⟨.sql .getFirstUnfinishedSubJob, .ok subJob⟩) fun _ => ScalePhase.Final registry := by
      rw [show ScalePhase.searching.note ⟨.sql .getFirstUnfinishedSubJob, .ok subJob⟩ = .other subJob from if_neg other]
      apply Prog.Obeys.mono (only.obeys fun op plain => ⟨.other plain, fun _ => rfl⟩)
      rintro done reached rfl
      trivial
    cases type : subJob.type with
    | combinedDHP =>
      simp only [type]
      exact plainly (fun both => by simp [both.1] at type) plain_processCombinedDhpType
    | scaling =>
      simp only [type]
      by_cases created : subJob.status = .created
      · rw [show ScalePhase.searching.note ⟨.sql .getFirstUnfinishedSubJob, .ok subJob⟩ = .picked subJob from
          if_pos ⟨type, created⟩]
        simp only [processScaling, created]
        exact Obeys.handle (Obeys.mono processScalingCreated_scales (fun _ _ final => final) fun _ _ settles => settles)
      · exact plainly (fun both => created both.2) (plain_processScaling created)

end Tick

theorem scaleMonitor_covers (registry : ServiceScalerRegistry) : (scaleMonitor registry).Covers (platform registry) := by
  intro kind
  by_cases tick : kind = .subJobTick
  · subst tick
    exact subJobHandler_scales
  · have starts : ScalePhase.start kind = .apart none := by
      cases kind <;> first | exact absurd rfl tick | rfl
    change (kind.body registry).Obeys ScalePhase.note (ScaleLegal registry kind) (ScalePhase.start kind) _
    rw [starts]
    apply (lowers_body tick none).mono
    rintro done reached ⟨read, rfl⟩
    trivial

/-- A tick is never apart. -/
theorem ScalePhase.Apart.before {phase : ScalePhase} {made : Act} (apart : (phase.note made).Apart) : phase.Apart := by
  obtain ⟨read, apart⟩ := apart
  unfold note at apart
  split at apart <;> grind [ScalePhase.Apart]

theorem not_apart_of_tick {task : SystemTask} (tick : task.kind = .subJobTick) :
    ¬ ((scaleMonitor registry).phase task).Apart := by
  obtain ⟨kind, log, rest⟩ := task
  obtain rfl : kind = .subJobTick := tick
  change ¬ (log.foldl ScalePhase.note .searching).Apart
  induction log using List.reverseRecOn with
  | nil => exact fun ⟨read, same⟩ => by cases same
  | append_singleton log made ih =>
    rw [List.foldl_append]
    exact fun apart => ih apart.before

end Bms
