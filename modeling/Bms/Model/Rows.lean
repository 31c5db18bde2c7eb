import Bms.Data.Json
import Bms.Data.Table
import Bms.Model.Messages

/-! # Rows of the scheduler's tables

The tables of `scheduler/src/migrations` as the repositories use them, and the structures that the
repositories return. The `details` columns hold JSON; they are decoded where the code decodes them.
-/

namespace Bms

inductive JobStatus
  | created
  | pending
  | processing
  | completed
  | failed
  | canceled
deriving DecidableEq, Inhabited

inductive SubJobStatus
  | created
  | pending
  | processing
  | completed
  | failed
  | canceled
deriving DecidableEq, Inhabited

inductive SubJobType
  | combinedDHP
  | scaling
deriving DecidableEq, Inhabited

inductive ProviderType
  | dockerLocal
  | awsFargate
deriving DecidableEq, Inhabited

structure JobDetails where
  startRange : ℤ
  endRange : ℤ
  targetWorkerCount : Option ℤ
  workersCount : Option ℤ
  entity : Option String
  note : Option String
  logIntervalMs : ℤ
  sizeMb : ℤ
deriving DecidableEq, Inhabited

namespace JobDetails

def new (startRange endRange targetWorkerCount : ℤ) (entity note : Option String)
    (logIntervalMs sizeMb : ℤ) : JobDetails where
  startRange
  endRange
  targetWorkerCount := some targetWorkerCount
  workersCount := none
  entity
  note
  logIntervalMs
  sizeMb

/-- Counts are written as null when absent, the texts are skipped. -/
def toJson (details : JobDetails) : Json :=
  let count (value : Option ℤ) : Json := (value.map Json.int).getD .null
  let text (key : String) (value : Option String) : List (String × Json) :=
    (value.map fun value => (key, Json.str value)).toList
  .obj ([("start_range", .int details.startRange), ("end_range", .int details.endRange),
    ("target_worker_count", count details.targetWorkerCount), ("workers_count", count details.workersCount)] ++
    text "entity" details.entity ++ text "note" details.note ++
    [("log_interval_ms", .int details.logIntervalMs), ("size_mb", .int details.sizeMb)])

/-- An optional field may be absent or null; anything else must decode. -/
def optional {α : Type} (decode : Json → Option α) : Option Json → Option (Option α)
  | none | some .null => some none
  | some value => (decode value).map some

/-- Decode the eight fields; a required one must be there. -/
def ofFields (startRange endRange targetWorkerCount workersCount entity note logIntervalMs sizeMb : Option Json) :
    Option JobDetails := do
  return {
    startRange := ← (← startRange).asI64?
    endRange := ← (← endRange).asI64?
    targetWorkerCount := ← optional Json.asI64? targetWorkerCount
    workersCount := ← optional Json.asI64? workersCount
    entity := ← optional Json.asStr? entity
    note := ← optional Json.asStr? note
    logIntervalMs := ← (← logIntervalMs).asI64?
    sizeMb := ← (← sizeMb).asI64? }

/-- A structure is decoded from an object by its keys, or from an array of all its fields in order. -/
def ofJson? (value : Json) : Option JobDetails :=
  match value with
  | .obj _ => ofFields (value.get? "start_range") (value.get? "end_range") (value.get? "target_worker_count")
      (value.get? "workers_count") (value.get? "entity") (value.get? "note") (value.get? "log_interval_ms")
      (value.get? "size_mb")
  | .arr [startRange, endRange, targetWorkerCount, workersCount, entity, note, logIntervalMs, sizeMb] =>
    ofFields (some startRange) (some endRange) (some targetWorkerCount) (some workersCount) (some entity) (some note)
      (some logIntervalMs) (some sizeMb)
  | _ => none

end JobDetails

structure Job where
  id : Uuid
  url : String
  routingKey : String
  status : JobStatus
  details : JobDetails
deriving DecidableEq, Inhabited

structure JobRow where
  id : Uuid
  url : String
  routingKey : String
  status : JobStatus
  details : Json
  createdAt : DateTime
deriving DecidableEq

/-- A row whose details do not decode cannot be read as a job. -/
def JobRow.toJob? (row : JobRow) : Option Job :=
  (JobDetails.ofJson? row.details).map fun details => ⟨row.id, row.url, row.routingKey, row.status, details⟩

structure SubJobDetails where
  partialPct : Option ℤ := none
  workersCount : Option ℤ := none
  topic : Option String := none
deriving DecidableEq, Inhabited

def SubJobDetails.toJson (details : SubJobDetails) : Json :=
  .obj ((details.partialPct.map fun value => ("partial", Json.int value)).toList ++
    (details.workersCount.map fun value => ("workers_count", Json.int value)).toList ++
    (details.topic.map fun value => ("topic", Json.str value)).toList)

structure SubJob where
  id : Uuid
  jobId : Uuid
  status : SubJobStatus
  type : SubJobType
  details : Json
  deadlineAt : Option DateTime
deriving DecidableEq, Inhabited

structure SubJobRow extends SubJob where
  createdAt : DateTime
deriving DecidableEq

structure SubJobWithJob extends SubJob where
  job : Job
deriving DecidableEq, Inhabited

structure JobWithSubJobs where
  job : Job
  subJobs : List SubJob
deriving DecidableEq

structure WorkerRow where
  workerName : String
  status : WorkerStatus
  lastSeen : DateTime
  jobId : Option Uuid
  startedAt : Option DateTime
  shutdownAt : Option DateTime
deriving DecidableEq

structure WorkerDataRow where
  id : Uuid
  jobId : Uuid
  subJobId : Uuid
  workerName : String
  isSuccess : Bool
  download : Json
  ping : Json
  head : Json
  createdAt : DateTime
deriving DecidableEq

structure Service where
  id : Uuid
  name : String
  providerType : ProviderType
  details : Json
  isEnabled : Bool
  descaleAt : Option DateTime
deriving DecidableEq, Inhabited

structure ServiceWithTopics extends Service where
  topics : List String
deriving DecidableEq

namespace SubJobStatus

/-- The statuses that `get_first_unfinished_sub_job` and `count_pending_sub_jobs` select. -/
def Unfinished (status : SubJobStatus) : Prop := status ∈ [created, pending, processing]

instance (status : SubJobStatus) : Decidable status.Unfinished := inferInstanceAs (Decidable (_ ∈ _))

/-- A sub-job in one of the remaining statuses has ended. -/
def Ended (status : SubJobStatus) : Prop := status ∈ [completed, failed, canceled]

instance (status : SubJobStatus) : Decidable status.Ended := inferInstanceAs (Decidable (_ ∈ _))

/-- A sub-job is in flight between its dispatch and its end. -/
def Active (status : SubJobStatus) : Prop := status ∈ [pending, processing]

instance (status : SubJobStatus) : Decidable status.Active := inferInstanceAs (Decidable (_ ∈ _))

theorem not_unfinished_iff {status : SubJobStatus} : ¬ status.Unfinished ↔ status.Ended := by
  cases status <;> decide

theorem not_ended_iff {status : SubJobStatus} : ¬ status.Ended ↔ status.Unfinished := by
  cases status <;> decide

theorem Active.unfinished {status : SubJobStatus} (active : status.Active) : status.Unfinished := by
  revert active
  cases status <;> decide

end SubJobStatus

/-- A job in one of these statuses is closed. -/
def JobStatus.Closed (status : JobStatus) : Prop := status ∈ [completed, failed, canceled]

instance (status : JobStatus) : Decidable status.Closed := inferInstanceAs (Decidable (_ ∈ _))

end Bms
