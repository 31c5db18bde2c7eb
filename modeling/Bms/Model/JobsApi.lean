import Bms.Model.SubJobScaling

/-! # Creating and cancelling jobs

`scheduler/src/api/jobs/create_job.rs` and `cancel_job.rs`. A job and its four sub-jobs are inserted
one statement at a time; a cancellation updates the job and then its sub-jobs.
-/

namespace Bms

open Process Fallible

inductive ApiError
  | badRequest (error : String)
  | notFound (error : String)
  | internalServerError (error : String)
deriving DecidableEq

abbrev Api (α : Type) : Type := Fallible Calls ApiError α

/-- A statement whose failure is answered with a fixed error. -/
def orRespond (stmt : Stmt) (error : ApiError) : Api stmt.Row :=
  attempt (.sql stmt) (Except.mapError fun _ => error)

structure CreateJobInput where
  url : String
  routingKey : String
  workerCount : Option ℤ
  entity : Option String
  note : Option String
  sizeMb : Option ℤ
  logIntervalMs : Option ℤ
deriving DecidableEq, Inhabited

structure CreateJobParams where
  url : Url
  routingKey : String
  workerCount : ℤ
  entity : Option String
  note : Option String
  sizeMb : ℤ
  logIntervalMs : ℤ

def clamp (value low high : ℤ) : ℤ := max low (min high value)

namespace CreateJobParams

def ofInput (input : CreateJobInput) : Api CreateJobParams := do
  let url ← attempt (.parseUrl input.url) (Except.mapError fun _ => .badRequest "Invalid URL provided")
  if url.scheme ≠ "http" ∧ url.scheme ≠ "https" then throw (.badRequest "URL scheme must be http or https")
  else if input.routingKey.isEmpty then throw (.badRequest "Routing key cannot be empty")
  else pure {
    url
    routingKey := input.routingKey
    workerCount := clamp (input.workerCount.getD 10) 1 40
    entity := input.entity
    note := input.note
    sizeMb := clamp (input.sizeMb.getD 100) 10 1024
    logIntervalMs := clamp (input.logIntervalMs.getD 1000) 100 1000 }

end CreateJobParams

/-- A 64-bit signed decimal number, with an optional sign. -/
def parseI64 (text : String) : Except String ℤ :=
  let (negative, digits) := match text.toList with
    | '-' :: digits => (true, digits)
    | '+' :: digits => (false, digits)
    | digits => (false, digits)
  if digits.isEmpty then .error (if text.isEmpty then "cannot parse integer from empty string" else "invalid digit found in string")
  else if digits.all Char.isDigit then
    let magnitude : ℤ := digits.foldl (fun value digit => value * 10 + (digit.toNat - '0'.toNat : ℕ)) (0 : ℕ)
    let value := if negative then -magnitude else magnitude
    if value < -2 ^ 63 then .error "number too small to fit in target type"
    else if 2 ^ 63 ≤ value then .error "number too large to fit in target type"
    else .ok value
  else .error "invalid digit found in string"

/-- A random range of the file; the generator panics on an empty interval. -/
def getFileRangeForFile (url : String) (sizeMb : ℤ) : Api (ℤ × ℤ) := do
  let header ← attempt (.headContentLength url)
    (Except.mapError fun e => ApiError.badRequest s!"Failed to execute HEAD request {e}")
  let contentLength ← outcome <| match header with
    | none => .error (.badRequest "Content-Length header is missing in the response")
    | some (.error e) => .error (.badRequest s!"Failed to parse Content-Length header: {e}")
    | some (.ok text) =>
      (parseI64 text).mapError fun e => .badRequest s!"Failed to parse Content-Length header: {e}"
  let size := sizeMb * 1024 * 1024
  if contentLength < size then throw (.badRequest s!"File size is less than {sizeMb} MB")
  else if contentLength - size ≤ 0 then panic
  else do
    let startRange ← attempt (.genRange (contentLength - size)) .ok
    pure (startRange, startRange + size)

/-- A new identifier. -/
def newV4 : Api Uuid := attempt .newUuid .ok

def createSubJob (job : Job) (details : SubJobDetails) : Api SubJob := do
  let subJobId ← newV4
  orRespond (.createSubJob subJobId job.id .created .combinedDHP details)
    (.internalServerError "Failed to create sub job")

structure CreateJobResponse where
  job : Job
  subJobs : List SubJob

def handleCreateJob (payload : CreateJobInput) : Api CreateJobResponse := do
  let params ← CreateJobParams.ofInput payload
  let (startRange, endRange) ← getFileRangeForFile params.url.asStr params.sizeMb
  let jobId ← newV4
  let details := JobDetails.new startRange endRange params.workerCount params.entity params.note
    params.logIntervalMs params.sizeMb
  let job ← orRespond (.createJob jobId params.url.asStr params.routingKey .pending details)
    (.internalServerError "Failed to create job")
  let scalingId ← newV4
  let scalingSubJob ← orRespond
    (.createSubJob scalingId job.id .created .scaling { topic := some job.routingKey })
    (.internalServerError "Failed to create scaling sub job")
  let first ← createSubJob job { partialPct := some 1 }
  let second ← createSubJob job { partialPct := some 80 }
  let third ← createSubJob job {}
  pure ⟨job, [scalingSubJob, first, second, third]⟩

def handleCancelJob (jobId : Uuid) : Api JobWithSubJobs := do
  orRespond (.updateJobStatus jobId .canceled) (.badRequest "Failed to cancel job")
  orRespond (.updateSubJobsStatusByJobId jobId .canceled) (.badRequest "Failed to cancel sub jobs")
  orRespond (.getJobByIdWithSubjobs jobId) (.badRequest "Failed to get job")

end Bms
