import Bms.Model.JobsApi
import Bms.Process.Alone

/-! # Reading jobs

`scheduler/src/api/jobs/get_job.rs` and `get_jobs.rs` with the two queries of `job_repository.rs` that
they read. Nothing is changed by them, so they have calls of their own: a query, or the panic of a
conversion that fails. Speeds and latencies are exact.
-/

namespace Bms

open Process Fallible

structure WorkerData where
  id : Uuid
  workerName : String
  isSuccess : Option Bool
  download : Json
  ping : Json
  head : Json
deriving DecidableEq

structure SubJobWithData extends SubJob where
  workerData : List WorkerData
deriving DecidableEq

structure JobWithSubJobsWithData where
  job : Job
  subJobs : List SubJobWithData
deriving DecidableEq

/-! ## The queries -/

/-- A query, named after the repository method that executes it. -/
inductive Query
  | getJobsWithSubjobs (page limit : ℤ)
  | getJobByIdWithSubjobsAndData (jobId : Uuid) (extendedLogs : Bool)

/-- The rows of a selection in the order of a column; rows with the same value come in any order. -/
def InOrder {ρ : Type} (before : ρ → ρ → Prop) (selected found : List ρ) : Prop :=
  found.Perm selected ∧ found.Pairwise before

def WorkerDataRow.toWorkerData? (extendedLogs : Bool) (row : WorkerDataRow) : Option WorkerData := do
  let download ← if extendedLogs then some row.download else row.download.without? "second_by_second_logs"
  return ⟨row.id, row.workerName, some row.isSuccess, download, row.ping, row.head⟩

namespace World

/-- What a query aggregates for a sub-job. -/
def IsWorkerData (w : World) (extendedLogs : Bool) (subJobId : Uuid) (data : List WorkerData) : Prop :=
  ∃ rows, InOrder (fun row other : WorkerDataRow => row.createdAt ≤ other.createdAt) (w.dataOf subJobId) rows ∧
    rows.map (·.toWorkerData? extendedLogs) = data.map some

/-- What a query aggregates for a job, given what it aggregates for each of its sub-jobs. -/
def IsSubJobs {α : Type} (w : World) (aggregates : SubJobRow → α → Prop) (jobId : Uuid) (found : List α) : Prop :=
  ∃ rows, InOrder (fun row other : SubJobRow => row.createdAt ≤ other.createdAt) (w.subJobsOf jobId) rows ∧
    List.Forall₂ aggregates rows found

end World

namespace Query

abbrev Row : Query → Type
  | getJobsWithSubjobs .. => List (JobRow × List SubJob)
  | getJobByIdWithSubjobsAndData .. => JobRow × List SubJobWithData

/-- The rows to skip; the product of two 64-bit integers wraps. -/
def offset (page limit : ℤ) : ℤ := castI64 (page * limit)

/-- The rows that a query may return. A negative limit or offset is refused. -/
def answers (w : World) : (query : Query) → query.Row → Prop
  | getJobsWithSubjobs page limit, found =>
    0 ≤ limit ∧ 0 ≤ offset page limit ∧
      ∃ rows, InOrder (fun row other : JobRow => other.createdAt ≤ row.createdAt) w.jobs.rows rows ∧
        List.Forall₂
          (fun row entry => entry.1 = row ∧ w.IsSubJobs (fun subJob read => read = subJob.toSubJob) row.id entry.2)
          ((rows.drop (offset page limit).toNat).take limit.toNat) found
  | getJobByIdWithSubjobsAndData jobId extendedLogs, found =>
    w.jobs.find? jobId = some found.1 ∧
      w.IsSubJobs (fun subJob read => read.toSubJob = subJob.toSubJob ∧
        w.IsWorkerData extendedLogs subJob.id read.workerData) jobId found.2

/-- The query that fetches exactly one row fails when there is none. -/
def missing (w : World) : Query → Prop
  | getJobsWithSubjobs .. => False
  | getJobByIdWithSubjobsAndData jobId _ => w.jobs.find? jobId = none

end Query

inductive Reading
  | query (asked : Query)
  | panic

namespace Reading

abbrev Reply : Reading → Type
  | query asked => Except SqlxError asked.Row
  | panic => Empty

end Reading

/-- The signature of the reading requests. -/
abbrev Readings : PFunctor.{0, 0} := ⟨Reading, Reading.Reply⟩

/-- The tables as they answer a query when nothing is broken: it fails only where it cannot be answered. -/
def tables : Environment Readings World where
  allows
    | w, ⟨.query asked, .ok row⟩ => asked.answers w row
    | w, ⟨.query asked, .error .rowNotFound⟩ => asked.missing w
    | w, ⟨.query asked, .error (.other _)⟩ => ¬ asked.missing w ∧ ∀ row, ¬ asked.answers w row
  after w _ := w
  drifts w other := other = w

/-! ## The repository -/

abbrev ReadApi (ε α : Type) : Type := Fallible Readings ε α

/-- Details that cannot be converted panic. -/
def JobDetails.fromValue {ε : Type} (value : Json) : ReadApi ε JobDetails :=
  match JobDetails.ofJson? value with
  | some details => pure details
  | none => ExceptT.mk (.call .panic Empty.elim)

def JobRow.read {ε : Type} (row : JobRow) : ReadApi ε Job := do
  let details ← JobDetails.fromValue row.details
  pure ⟨row.id, row.url, row.routingKey, row.status, details⟩

def readJobs : List (JobRow × List SubJob) → ReadApi SqlxError (List JobWithSubJobs)
  | [] => pure []
  | (row, subJobs) :: rest => do
    let job ← row.read
    let jobs ← readJobs rest
    pure (⟨job, subJobs⟩ :: jobs)

def getJobsWithSubjobs (page limit : ℤ) : ReadApi SqlxError (List JobWithSubJobs) := do
  let rows ← attempt (.query (.getJobsWithSubjobs page limit)) id
  readJobs rows

def getJobByIdWithSubjobsAndData (jobId : Uuid) (extendedLogs : Bool) : ReadApi SqlxError JobWithSubJobsWithData := do
  let (row, subJobs) ← attempt (.query (.getJobByIdWithSubjobsAndData jobId extendedLogs)) id
  let job ← row.read
  pure ⟨job, subJobs⟩

/-! ## The handlers -/

/-- One page of the jobs with their sub-jobs. -/
def handleGetJobs (page limit : Option ℤ) : ReadApi ApiError (List JobWithSubJobs) :=
  (getJobsWithSubjobs (page.getD 0) (max (limit.getD 100) 100)).mapError fun
    | .rowNotFound => .notFound "Job not found"
    | .other _ => .badRequest "Failed to get job from the database"

structure DownloadSpeed where
  subJobId : Uuid
  downloadSpeed : ℚ
  averageTimeToFirstByteMs : ℚ
deriving DecidableEq

structure JobSummary where
  maxDownloadSpeed : Option ℚ
  downloadSpeeds : Option (List DownloadSpeed)
  averageEndLatency : Option ℚ
  averageGatewayLatency : Option ℚ
deriving DecidableEq

structure GetJobResponse where
  summary : JobSummary
  job : JobWithSubJobsWithData
deriving DecidableEq

/-- A number under a key; zero if there is none. -/
def numberAt (value : Json) (key : String) : ℚ := (((value.get? key).getD (.float 0)).asF64?).getD 0

def SubJobWithData.downloadSpeed (subJob : SubJobWithData) : DownloadSpeed :=
  let speeds := subJob.workerData.map fun data => numberAt data.download "download_speed"
  let ttfbSum := (subJob.workerData.map fun data => numberAt data.download "time_to_first_byte_ms").sum
  let workerCount : ℚ := subJob.workerData.length
  let averageTtfb := if 0 < workerCount then ttfbSum / workerCount else 0
  ⟨subJob.id, speeds.sum, averageTtfb⟩

/-- The summary of a job. -/
def JobWithSubJobsWithData.summary (job : JobWithSubJobsWithData) : JobSummary :=
  let downloadSpeeds := (job.subJobs.filter fun subJob => subJob.type = .combinedDHP).map (·.downloadSpeed)
  { maxDownloadSpeed := some ((downloadSpeeds.map (·.downloadSpeed)).max?.getD 0)
    downloadSpeeds := some downloadSpeeds
    averageEndLatency := none
    averageGatewayLatency := none }

def handleGetJob (jobId : Uuid) (extended : Option Bool) : ReadApi ApiError GetJobResponse := do
  let job ← (getJobByIdWithSubjobsAndData jobId (extended.getD false)).mapError fun
    | .rowNotFound => .notFound "Job data not found"
    | .other _ => .badRequest "Failed to get data from the database"
  pure ⟨job.summary, job⟩

end Bms
