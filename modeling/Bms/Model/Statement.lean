import Bms.Model.Rows

/-! # The database and its statements

`World` is everything the scheduler and the workers share: the tables, the messages published so
far, the provider's instance counts and the clock. Every repository method is one or two SQL
statements; a statement is atomic and autocommitted. `Stmt.answers` says which rows it may return
and `Stmt.run` what it does to the tables. Rows selected without ORDER BY come in any order.
A timestamp that a statement is given is stored in whole microseconds. Lengths of text columns are
left out.
-/

namespace Bms

/-- What a scaler addresses: a compose service, or a service of a cluster. -/
inductive Target
  | docker (name : String)
  | fargate (region cluster name : String)
deriving DecidableEq

inductive SqlxError
  | rowNotFound
  | other (message : String)
deriving DecidableEq

def SqlxError.toString : SqlxError → String
  | .rowNotFound => "no rows returned by a query that expected to return at least one row"
  | .other message => message

abbrev SubJobRow.key (row : SubJobRow) : Uuid := row.id

structure World where
  now : DateTime
  /-- every uuid drawn, or named by a request, so far -/
  uuids : List Uuid
  jobs : Table JobRow.id
  subJobs : Table SubJobRow.key
  workerData : Table WorkerDataRow.id
  workers : Table WorkerRow.workerName
  topics : Table (id : String → String)
  workerTopics : Table (id : String × String → String × String)
  services : Table Service.id
  serviceTopics : Table (id : Uuid × String → Uuid × String)
  /-- everything published so far, job messages with their routing key; a message stays deliverable -/
  jobQueue : List (Message × String)
  statusQueue : List Message
  resultQueue : List Message
  /-- the provider's desired counts -/
  desired : Target → ℤ

namespace World

def withJob? (w : World) (row : SubJobRow) : Option SubJobWithJob := do
  let jobRow ← w.jobs.find? row.jobId
  let job ← jobRow.toJob?
  return { row.toSubJob with job }

/-- The row that `get_first_unfinished_sub_job` selects: unfinished, and none is older. -/
def IsFirstUnfinished (w : World) (row : SubJobRow) : Prop :=
  row ∈ w.subJobs.rows ∧ row.status.Unfinished ∧
    ∀ other ∈ w.subJobs.rows, other.status.Unfinished → row.createdAt ≤ other.createdAt

instance (w : World) (row : SubJobRow) : Decidable (w.IsFirstUnfinished row) :=
  inferInstanceAs (Decidable (_ ∧ _ ∧ _))

def onlineWithTopic (w : World) (topic : String) : List String :=
  (w.workers.rows.filter fun row =>
    decide (row.status = .online ∧ (row.workerName, topic) ∈ w.workerTopics.rows)).map (·.workerName)

def enabledByTopic (w : World) (topic : String) : List Service :=
  w.services.rows.filter fun row => row.isEnabled && decide ((row.id, topic) ∈ w.serviceTopics.rows)

def topicsOfService (w : World) (serviceId : Uuid) : List String :=
  (w.serviceTopics.rows.filter fun pair => pair.1 = serviceId).map (·.2)

def dataOf (w : World) (subJobId : Uuid) : List WorkerDataRow :=
  w.workerData.rows.filter fun row => row.subJobId = subJobId

def subJobsOf (w : World) (jobId : Uuid) : List SubJobRow :=
  w.subJobs.rows.filter fun row => row.jobId = jobId

end World

/-- One SQL statement, named after the repository method that executes it. -/
inductive Stmt
  | createJob (jobId : Uuid) (url routingKey : String) (status : JobStatus) (details : JobDetails)
  | updateJobStatus (jobId : Uuid) (status : JobStatus)
  | updateJobWorkersCount (jobId : Uuid) (expectedWorkers : ℕ)
  | getJobByIdWithSubjobs (jobId : Uuid)
  | createSubJob (subJobId jobId : Uuid) (status : SubJobStatus) (type : SubJobType) (details : SubJobDetails)
  | updateSubJobStatus (subJobId : Uuid) (status : SubJobStatus)
  | updateSubJobsStatusByJobId (jobId : Uuid) (status : SubJobStatus)
  | updateSubJobStatusWithError (subJobId : Uuid) (status : SubJobStatus) (errorMessage : String)
  | updateSubJobStatusAndDeadline (subJobId : Uuid) (status : SubJobStatus) (deadline : DateTime)
  | countPendingSubJobs (type : SubJobType) (jobId : Uuid)
  | getFirstUnfinishedSubJob
  | getSubJobByIdAndType (jobId : Uuid) (type : SubJobType)
  | updateSubJobWorkersCount (subJobId : Uuid) (workersCount : ℤ)
  | saveData (result : ResultMessage)
  | getDataBySubJobId (subJobId : Uuid)
  | updateWorkerStatus (workerName : String) (status : WorkerStatus) (timestamp : DateTime)
  | updateWorkerJob (workerName : String) (jobId : Option Uuid) (timestamp : DateTime)
  | updateWorkerHeartbeat (workerName : String) (timestamp : DateTime)
  | getWorkersOnlineWithTopic (topic : String)
  | getInactiveOnlineWorkers
  | setWorkerOffline (workerName : String)
  /-- the first statement of `upsert_worker_topics` and of `upsert_service_topics` -/
  | insertTopics (topics : List String)
  /-- the second statement of `upsert_worker_topics` -/
  | insertWorkerTopics (workerName : String) (topics : List String)
  | removeWorkerTopics (workerName : String)
  /-- the second statement of `upsert_service_topics` -/
  | insertServiceTopics (serviceId : Uuid) (topics : List String)
  | getServices
  | getServicesWithTopics
  | createService (name : String) (providerType : ProviderType) (details : Json)
  | getServiceById (serviceId : Uuid)
  | deleteServiceById (serviceId : Uuid)
  | getServicesEnabledByTopic (topic : String)
  | setDescaleDeadlines (serviceIds : List Uuid) (deadline : DateTime)
  | getServicesWithDescaleDeadlineReached
  | clearDescaleDeadline (serviceId : Uuid)
  | updateServiceSetEnabled (serviceId : Uuid) (isEnabled : Bool)

namespace Stmt

/-- What a statement returns. -/
abbrev Row : Stmt → Type
  | createJob .. => Job
  | getJobByIdWithSubjobs _ => JobWithSubJobs
  | createSubJob .. => SubJob
  | countPendingSubJobs .. => ℕ
  | getFirstUnfinishedSubJob | getSubJobByIdAndType .. => SubJobWithJob
  | getDataBySubJobId _ => List WorkerDataRow
  | getWorkersOnlineWithTopic _ | getInactiveOnlineWorkers => List String
  | getServices | getServicesEnabledByTopic _ | getServicesWithDescaleDeadlineReached => List Service
  | getServicesWithTopics => List ServiceWithTopics
  | createService .. | getServiceById _ | deleteServiceById _ | clearDescaleDeadline _
  | updateServiceSetEnabled .. => Service
  | _ => Unit

def insertedSubJob (subJobId jobId : Uuid) (status : SubJobStatus) (type : SubJobType)
    (details : SubJobDetails) : SubJob :=
  ⟨subJobId, jobId, status, type, details.toJson, none⟩

/-- The rows a statement may return. An insert returns only if the keys permit it. -/
def answers (w : World) : (stmt : Stmt) → stmt.Row → Prop
  | createJob jobId url routingKey status details, job =>
    w.jobs.find? jobId = none ∧ job = ⟨jobId, url, routingKey, status, details⟩
  | getJobByIdWithSubjobs jobId, found =>
    (w.jobs.find? jobId).bind JobRow.toJob? = some found.job ∧
      found.subJobs.Perm ((w.subJobsOf jobId).map (·.toSubJob))
  | createSubJob subJobId jobId status type details, subJob =>
    w.subJobs.find? subJobId = none ∧ (w.jobs.find? jobId).isSome ∧
      subJob = insertedSubJob subJobId jobId status type details
  | countPendingSubJobs type jobId, count =>
    count = ((w.subJobsOf jobId).filter fun row => decide (row.type = type ∧ row.status.Unfinished)).length
  | getFirstUnfinishedSubJob, found => ∃ row, w.IsFirstUnfinished row ∧ w.withJob? row = some found
  | getSubJobByIdAndType jobId type, found =>
    ∃ row ∈ w.subJobsOf jobId, row.type = type ∧ w.withJob? row = some found
  | saveData result, _ =>
    w.workerData.find? result.runId = none ∧ (w.jobs.find? result.jobId).isSome ∧
      (w.subJobs.find? result.subJobId).isSome ∧ (w.workers.find? result.workerName).isSome
  | getDataBySubJobId subJobId, found => found.Perm (w.dataOf subJobId)
  | getWorkersOnlineWithTopic topic, found => found.Perm (w.onlineWithTopic topic)
  | getInactiveOnlineWorkers, found => found.Perm ((w.workers.rows.filter fun row =>
      decide (row.status = .online ∧ row.lastSeen < w.now - Duration.seconds 60)).map (·.workerName))
  | insertWorkerTopics workerName topics, _ =>
    (w.workers.find? workerName).isSome ∨ ∀ topic ∈ topics, topic ∉ w.topics.rows
  | insertServiceTopics serviceId topics, _ =>
    (w.services.find? serviceId).isSome ∨ ∀ topic ∈ topics, topic ∉ w.topics.rows
  | getServices, found => found.Perm w.services.rows
  | getServicesWithTopics, found => (found.map (·.toService)).Perm w.services.rows ∧
      ∀ entry ∈ found, entry.topics.Perm (w.topicsOfService entry.id)
  | createService name providerType details, service =>
    w.services.find? service.id = none ∧ service.id ∉ w.uuids ∧
      service = ⟨service.id, name, providerType, details, true, none⟩
  | getServiceById serviceId, service | deleteServiceById serviceId, service =>
    w.services.find? serviceId = some service
  | getServicesEnabledByTopic topic, found => found.Perm (w.enabledByTopic topic)
  | getServicesWithDescaleDeadlineReached, found =>
    found.Perm (w.services.rows.filter fun row => row.descaleAt.any (· ≤ w.now))
  | clearDescaleDeadline serviceId, service =>
    (w.services.find? serviceId).map (fun row => { row with descaleAt := none }) = some service
  | updateServiceSetEnabled serviceId isEnabled, service =>
    (w.services.find? serviceId).map (fun row => { row with isEnabled }) = some service
  | _, _ => True

/-- The statements that fetch exactly one row fail when there is none. -/
def missing (w : World) : Stmt → Prop
  | getJobByIdWithSubjobs jobId => w.jobs.find? jobId = none
  | getFirstUnfinishedSubJob => ∀ row ∈ w.subJobs.rows, row.status.Ended
  | getSubJobByIdAndType jobId type => ∀ row ∈ w.subJobsOf jobId, row.type ≠ type
  | getServiceById serviceId | deleteServiceById serviceId | clearDescaleDeadline serviceId
  | updateServiceSetEnabled serviceId _ => w.services.find? serviceId = none
  | _ => False

/-- A double-write of the workers row: inserted without start and shutdown times, else replaced if newer. -/
def upsertWorker (workers : Table WorkerRow.workerName) (workerName : String) (status : WorkerStatus)
    (timestamp : DateTime) : Table WorkerRow.workerName :=
  match workers.find? workerName with
  | none => workers.insert ⟨workerName, status, timestamp.stored, none, none, none⟩
  | some _ => workers.updateWhere (fun row => decide (row.workerName = workerName ∧ row.lastSeen < timestamp.stored))
      (fun row => { row with
        status, lastSeen := timestamp.stored, jobId := none
        startedAt := if status = .online then some timestamp.stored else row.startedAt
        shutdownAt := if status = .offline then some timestamp.stored else row.shutdownAt })
      fun _ => rfl

def savedRow (w : World) (result : ResultMessage) : WorkerDataRow where
  id := result.runId
  jobId := result.jobId
  subJobId := result.subJobId
  workerName := result.workerName
  isSuccess := result.isSuccess
  download := match result.downloadResult with | .ok value => value.toJson | .error e => e.toJson
  ping := match result.pingResult with | .ok value => value.toJson | .error e => e.toJson
  head := match result.headResult with | .ok value => value.toJson | .error e => e.toJson
  createdAt := w.now

def updateSubJob (w : World) (test : SubJobRow → Bool) (change : SubJobRow → SubJobRow)
    (same : ∀ row, (change row).key = row.key) : World :=
  { w with subJobs := w.subJobs.updateWhere test change same }

def updateJob (w : World) (jobId : Uuid) (change : JobRow → JobRow) (same : ∀ row, (change row).id = row.id) : World :=
  { w with jobs := w.jobs.updateWhere (fun row => row.id = jobId) change same }

def updateWorkers (w : World) (test : WorkerRow → Bool) (change : WorkerRow → WorkerRow)
    (same : ∀ row, (change row).workerName = row.workerName) : World :=
  { w with workers := w.workers.updateWhere test change same }

def updateServices (w : World) (test : Service → Bool) (change : Service → Service)
    (same : ∀ row, (change row).id = row.id) : World :=
  { w with services := w.services.updateWhere test change same }

/-- What a successful statement does to the tables. -/
def run (w : World) : (stmt : Stmt) → stmt.Row → World
  | createJob jobId url routingKey status details, _ =>
    { w with jobs := w.jobs.insert ⟨jobId, url, routingKey, status, details.toJson, w.now⟩ }
  | updateJobStatus jobId status, _ => updateJob w jobId (fun row => { row with status }) fun _ => rfl
  | updateJobWorkersCount jobId expectedWorkers, _ =>
    updateJob w jobId (fun row =>
      { row with details := row.details.merge (.obj [("workers_count", .int (castI64 expectedWorkers))]) }) fun _ => rfl
  | createSubJob subJobId jobId status type details, _ =>
    { w with subJobs := w.subJobs.insert ⟨insertedSubJob subJobId jobId status type details, w.now⟩ }
  | updateSubJobStatus subJobId status, _ =>
    updateSubJob w (fun row => row.id = subJobId) (fun row => { row with status }) fun _ => rfl
  | updateSubJobsStatusByJobId jobId status, _ =>
    updateSubJob w (fun row => row.jobId = jobId) (fun row => { row with status }) fun _ => rfl
  | updateSubJobStatusWithError subJobId status errorMessage, _ =>
    updateSubJob w (fun row => row.id = subJobId)
      (fun row => { row with status, details := row.details.set "error" (.str errorMessage) }) fun _ => rfl
  | updateSubJobStatusAndDeadline subJobId status deadline, _ =>
    updateSubJob w (fun row => row.id = subJobId)
      (fun row => { row with status, deadlineAt := some deadline.stored }) fun _ => rfl
  | updateSubJobWorkersCount subJobId workersCount, _ =>
    updateSubJob w (fun row => row.id = subJobId) (fun row =>
      { row with details := row.details.merge (.obj [("workers_count", .int workersCount)]) }) fun _ => rfl
  | saveData result, _ => { w with workerData := w.workerData.insert (savedRow w result) }
  | updateWorkerStatus workerName status timestamp, _ =>
    { w with workers := upsertWorker w.workers workerName status timestamp }
  | updateWorkerJob workerName jobId timestamp, _ =>
    updateWorkers w (fun row => decide (row.workerName = workerName ∧ row.lastSeen < timestamp.stored))
      (fun row => { row with lastSeen := timestamp.stored, jobId }) fun _ => rfl
  | updateWorkerHeartbeat workerName timestamp, _ =>
    updateWorkers w (fun row => decide (row.workerName = workerName ∧ row.lastSeen < timestamp.stored))
      (fun row => { row with lastSeen := timestamp.stored, status := .online }) fun _ => rfl
  | setWorkerOffline workerName, _ =>
    updateWorkers w (fun row => row.workerName = workerName) (fun row => { row with status := .offline }) fun _ => rfl
  | insertTopics topics, _ => { w with topics := topics.foldl Table.insert w.topics }
  | insertWorkerTopics workerName topics, _ =>
    let known := w.topics.rows.filter (· ∈ topics)
    { w with workerTopics := known.foldl (fun table topic => table.insert (workerName, topic)) w.workerTopics }
  | removeWorkerTopics workerName, _ =>
    { w with workerTopics := w.workerTopics.deleteWhere fun row => row.1 = workerName }
  | insertServiceTopics serviceId topics, _ =>
    let known := w.topics.rows.filter (· ∈ topics)
    { w with serviceTopics := known.foldl (fun table topic => table.insert (serviceId, topic)) w.serviceTopics }
  | createService _ _ _, service =>
    { w with services := w.services.insert service, uuids := service.id :: w.uuids }
  | deleteServiceById serviceId, _ =>
    { w with
      services := w.services.deleteWhere fun row => row.id = serviceId
      serviceTopics := w.serviceTopics.deleteWhere fun row => row.1 = serviceId }
  | setDescaleDeadlines serviceIds deadline, _ =>
    updateServices w (fun row => row.id ∈ serviceIds) (fun row => { row with descaleAt := some deadline.stored }) fun _ => rfl
  | clearDescaleDeadline serviceId, _ =>
    updateServices w (fun row => row.id = serviceId) (fun row => { row with descaleAt := none }) fun _ => rfl
  | updateServiceSetEnabled serviceId isEnabled, _ =>
    updateServices w (fun row => row.id = serviceId) (fun row => { row with isEnabled }) fun _ => rfl
  | _, _ => w

end Stmt

end Bms
