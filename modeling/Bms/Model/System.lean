import Bms.Model.Consumers
import Bms.Model.ServicesApi
import Bms.Model.SubJobCombinedDhp
import Bms.Model.Worker
import Bms.Process.Alone
import Bms.Process.Pool

/-! # The system

The scheduler and its workers as one pool of tasks on the shared world: requests, passes of the
background loops, deliveries of messages and what the workers do on their own. A message that has
been published may be delivered at any later time, to any worker, any number of times. The loops of
`main` run one pass at a time. The clock may show anything at any time.
-/

namespace Bms

open Process Fallible

inductive Kind
  | createJob (payload : CreateJobInput)
  | cancelJob (jobId : Uuid)
  | createService (payload : CreateServiceInput)
  | updateService (serviceId : Uuid) (isEnabled : Bool)
  | deleteService (serviceId : Uuid)
  | servicesInfo (serviceId : Uuid)
  | scaleUp (serviceId : Uuid) (amount : ℕ)
  | scaleDown (serviceId : Uuid) (amount : ℕ)
  | scaleDownAll
  | subJobTick
  | descalerPass
  | onlineCheckPass
  | statusDelivery (content : Message)
  | dataDelivery (content : Message)
  | jobDelivery (config : WorkerConfig) (content : Message)
  | lifecycle (config : WorkerConfig) (status : WorkerStatus)
  | heartbeat (config : WorkerConfig)
deriving DecidableEq

/-- The response of a request, or the outcome of sending a status, is read by nobody. -/
def ignore {ε α : Type} (program : Fallible Calls ε α) : Prog Calls Unit := program.run >>= fun _ => .ret ()

namespace Kind

def body (registry : ServiceScalerRegistry) : Kind → Prog Calls Unit
  | createJob payload => ignore (handleCreateJob payload)
  | cancelJob jobId => ignore (handleCancelJob jobId)
  | createService payload => ignore (handleCreateService payload)
  | updateService serviceId isEnabled => ignore (handleUpdateService serviceId isEnabled)
  | deleteService serviceId => ignore (handleDeleteService registry serviceId)
  | servicesInfo serviceId => ignore (handleServicesInfo registry serviceId)
  | scaleUp serviceId amount => ignore (handleServicesScaleUp registry serviceId amount)
  | scaleDown serviceId amount => ignore (handleServicesScaleDown registry serviceId amount)
  | scaleDownAll => ignore (handleServicesScaleDownAll registry)
  | subJobTick => subJobHandler registry
  | descalerPass => serviceDescalerHandler registry
  | onlineCheckPass => processWorkerOnlineCheck
  | statusDelivery content => StatusConsumer.consume content.sent
  | dataDelivery content => DataConsumer.consume content.sent
  | jobDelivery config content => JobConsumer.consume config content.sent
  | lifecycle config status => ignore (StatusSender.sendLifecycleStatus config status)
  | heartbeat config => ignore (StatusSender.sendHeartbeatStatus config)

/-- The loops of `main` start a pass when the last one has ended. -/
def Solitary (kind : Kind) : Prop := kind ∈ [subJobTick, descalerPass, onlineCheckPass]

instance (kind : Kind) : Decidable kind.Solitary := inferInstanceAs (Decidable (_ ∈ _))

end Kind

abbrev System : Type := Pool Calls World Kind

abbrev SystemTask : Type := Task Calls Kind

abbrev SystemEvent : Type := Event Calls Kind

instance (task : SystemTask) : Decidable task.InFlight :=
  match h : task.rest with
  | .ret value => .isFalse fun flying => Prog.not_awaits_ret value (by rwa [Task.InFlight, h] at flying)
  | .call op next => .isTrue ⟨op, next, h⟩

/-- When a task may start. A cancel names a job that exists, or an id that no uuid ever takes. -/
def Admits (pool : System) : Kind → Prop
  | .cancelJob jobId => (pool.world.jobs.find? jobId).isSome ∨ jobId ∉ pool.world.uuids
  | .statusDelivery content => content ∈ pool.world.statusQueue
  | .dataDelivery content => content ∈ pool.world.resultQueue
  | .jobDelivery _ content => content ∈ pool.world.jobQueue.map (·.1)
  | kind => kind.Solitary → ∀ task ∈ pool.tasks, task.kind = kind → ¬ task.InFlight

instance (pool : System) (kind : Kind) : Decidable (Admits pool kind) := by
  cases kind <;> unfold Admits <;> infer_instance

/-- The ids named by requests are set apart from those drawn later. -/
def enter (w : World) : Kind → World
  | .cancelJob jobId => { w with uuids := jobId :: w.uuids }
  | _ => w

def platform (registry : ServiceScalerRegistry) : Platform Calls World Kind where
  allows := Act.Allowed
  after := Act.after
  body := Kind.body registry
  admits := Admits
  enter
  drifts w other := ∃ now, other = { w with now }

/-- The world as it answers one task while no other runs. -/
def alone : Environment Calls World where
  allows := Act.Allowed
  after := Act.after
  drifts w other := ∃ now, other = { w with now }

/-- A statement of a task that runs alone fails without effect, or has its effect. -/
theorem sql_ensures {ε : Type} {w : World} {stmt : Stmt} {report : SqlxError → ε} {good : stmt.Row → World → Prop}
    {bad : ε → World → Prop} (fails : ∀ now e, bad (report e) { w with now })
    (returns : ∀ now row, stmt.answers { w with now } row → good row (stmt.run { w with now } row)) :
    (attempt (.sql stmt) (Except.mapError report) : Fallible Calls ε stmt.Row).Ensures alone w good bad := by
  apply (ensures_attempt ..).mpr
  rintro drifted reply ⟨now, rfl⟩ allowed
  cases reply with
  | error e => exact fails now e
  | ok row => exact returns now row allowed

/-- A system that nobody has used: services and workers may be registered, but no job, result or
message exists and no task has started. -/
structure Initial (pool : System) : Prop where
  tasks : pool.tasks = []
  jobs : pool.world.jobs.rows = []
  subJobs : pool.world.subJobs.rows = []
  workerData : pool.world.workerData.rows = []
  jobQueue : pool.world.jobQueue = []
  statusQueue : pool.world.statusQueue = []
  resultQueue : pool.world.resultQueue = []

/-- No repository call fails. -/
def NoFailure (event : SystemEvent) : Prop :=
  ∀ position made, event = .call position made → ¬ Act.RepositoryFailure made

/-- A statement that cannot miss its row returns. -/
theorem NoFailure.ok {position : ℕ} {stmt : Stmt} {reply : Except SqlxError stmt.Row} {w : World}
    (noFailure : NoFailure (.call position ⟨.sql stmt, reply⟩)) (allowed : Act.Allowed w ⟨.sql stmt, reply⟩)
    (present : ¬ stmt.missing w) : ∃ row, reply = .ok row := by
  cases reply with
  | ok row => exact ⟨row, rfl⟩
  | error e =>
    cases e with
    | rowNotFound => exact absurd allowed present
    | other message => exact absurd trivial (noFailure _ _ rfl)

end Bms
