import Bms.Model.ServiceScaler

/-! # Scaling sub-jobs

`scheduler/src/background/sub_job_scaling.rs`, with the error type of the handler and what both kinds
of sub-jobs do with it: `Skip` leaves the sub-job for the next tick, `FailedJob` ends it.
-/

namespace Bms

open Process Fallible

inductive SubJobHandlerError
  | skip (message : String)
  | failedJob (message : String)
deriving DecidableEq

abbrev SubJobStep (α : Type) : Type := Fallible Calls SubJobHandlerError α

/-- A statement whose failure skips the tick. -/
def orSkip (stmt : Stmt) : SubJobStep stmt.Row :=
  attempt (.sql stmt) (Except.mapError fun e => .skip e.toString)

/-- A statement whose failure ends the sub-job. -/
def orFailedJob (stmt : Stmt) : SubJobStep stmt.Row :=
  attempt (.sql stmt) (Except.mapError fun e => .failedJob e.toString)

/-- What becomes of the sub-job after its step; the result of the statement is ignored. -/
def settle (subJob : SubJobWithJob) : Except SubJobHandlerError Unit → Prog Calls Unit
  | .ok () | .error (.skip _) => pure ()
  | .error (.failedJob e) => do
    let _ ← execute (.updateSubJobStatusWithError subJob.id .failed e)
    pure ()

/-- Both kinds of sub-jobs have a copy of this check. -/
def checkDeadline (subJob : SubJobWithJob) : SubJobStep Unit :=
  match subJob.deadlineAt with
  | none => throw (.failedJob "No deadline")
  | some deadline => do
    let now ← utcNow
    if deadline < now then throw (.failedJob "Deadline passed") else pure ()

def serviceDescaleAtDeadlineSec : ℤ := 1800

def scalingSubJobDeadlineSec : ℤ := serviceDescaleAtDeadlineSec - 300

/-- A topic that is not a string panics. -/
def getTopic (subJob : SubJobWithJob) : SubJobStep String :=
  match subJob.details.get? "topic" with
  | none => throw (.failedJob "missing service topic")
  | some topic => unwrap topic.asStr?

def getServices (topic : String) : SubJobStep (List Service) := do
  let services ← orFailedJob (.getServicesEnabledByTopic topic)
  if services.isEmpty then throw (.failedJob "No services found") else pure services

def getWorkersOnline (topic : String) : SubJobStep (List String) := orSkip (.getWorkersOnlineWithTopic topic)

/-- By how much each service is scaled, and how many workers that makes. -/
def scalePlan (targetWorkerCount : ℤ) (serviceCount : ℕ) : ℕ × ℕ :=
  let scaleEachBy := (castU64 targetWorkerCount + serviceCount - 1) / serviceCount
  (scaleEachBy, wrapU64 (scaleEachBy * serviceCount))

/-- The services, the workers online, the workers to expect and the step of each service. -/
def getServicesAndWorkers (subJob : SubJobWithJob) : SubJobStep (List Service × List String × ℕ × ℕ) := do
  let topic ← getTopic subJob
  let services ← getServices topic
  let workersOnline ← getWorkersOnline topic
  match subJob.job.details.targetWorkerCount with
  | none => throw (.failedJob "missing target worker count")
  | some targetWorkerCount =>
    let (scaleEachBy, workersCount) := scalePlan targetWorkerCount services.length
    pure (services, workersOnline, workersCount, scaleEachBy)

/-- The loop over the services stops at the first that cannot be scaled. -/
def scaleUpServices (registry : ServiceScalerRegistry) (scaleEachBy : ℕ) : List Service → SubJobStep Unit
  | [] => pure ()
  | service :: services => do
    match registry.getScaler service.providerType with
    | none => throw (.failedJob "No scaler found")
    | some scaler =>
      (scaler.scaleUp service ((tryIntoI32 scaleEachBy).getD 0)).mapError fun e => .skip e.toStr
      scaleUpServices registry scaleEachBy services

def processScalingCreated (registry : ServiceScalerRegistry) (subJob : SubJobWithJob) : SubJobStep Unit := do
  let (services, workersOnline, workersCount, scaleEachBy) ← getServicesAndWorkers subJob
  orSkip (.updateJobWorkersCount subJob.jobId workersCount)
  let descaleAt := (← utcNow) + Duration.seconds serviceDescaleAtDeadlineSec
  orSkip (.setDescaleDeadlines (services.map (·.id)) descaleAt)
  if workersCount ≤ workersOnline.length then
    orSkip (.updateSubJobStatus subJob.id .canceled)
  else do
    scaleUpServices registry scaleEachBy services
    let deadlineAt := (← utcNow) + Duration.seconds scalingSubJobDeadlineSec
    orSkip (.updateSubJobStatusAndDeadline subJob.id .processing deadlineAt)

def processScalingPending : SubJobStep Unit := throw (.failedJob "Invalid pending state")

def processScalingProcessing (subJob : SubJobWithJob) : SubJobStep Unit := do
  checkDeadline subJob
  let (_, workersOnline, workersCount, _) ← getServicesAndWorkers subJob
  if workersCount ≤ workersOnline.length then
    orSkip (.updateSubJobStatus subJob.id .completed)
  else pure ()

def processScaling (registry : ServiceScalerRegistry) (subJob : SubJobWithJob) : Prog Calls Unit := do
  let step : SubJobStep Unit := match subJob.status with
    | .created => processScalingCreated registry subJob
    | .pending => processScalingPending
    | .processing => processScalingProcessing subJob
    | _ => throw (.failedJob "Invalid and unexpected status")
  settle subJob (← step.run)

/-- The topic that workers are counted by is that of the job's scaling sub-job. -/
def getTopicFromScalingSubJob (subJob : SubJobWithJob) : SubJobStep String := do
  let scalingSubJob ← orSkip (.getSubJobByIdAndType subJob.jobId .scaling)
  getTopic scalingSubJob

def getWorkersOnlineBySubJobTopic (subJob : SubJobWithJob) : SubJobStep (List String) := do
  let topic ← getTopicFromScalingSubJob subJob
  getWorkersOnline topic

end Bms
