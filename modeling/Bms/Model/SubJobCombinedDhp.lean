import Bms.Model.SubJobScaling

/-! # Measuring sub-jobs and the handler's tick

`scheduler/src/background/sub_job_combineddhp.rs` and `sub_job_handler.rs`. One tick picks the first
unfinished sub-job and acts on that snapshot; no statement looks at the row's status again.
-/

namespace Bms

open Process Fallible

def maxDownloadDurationSecs : ℤ := 60

def downloadDelaySecs : ℤ := 10

def syncDelaySecs : ℤ := 1

/-- The workers left out, a prefix of those online, and the number of those that remain. -/
def getExcludedWorkers (subJob : SubJobWithJob) (workersOnline : List String) : Option (List String × ℤ) := do
  let partialPct ← (subJob.details.index "partial").asU64?
  guard (0 < partialPct ∧ partialPct < 100)
  let partialCount := saturatingMulU64 workersOnline.length (100 - partialPct) / 100
  guard (partialCount < workersOnline.length)
  let partialWorkers := workersOnline.take partialCount
  return (partialWorkers, (workersOnline.length - partialWorkers.length : ℕ))

/-- Without a valid percentage no worker is left out. -/
def excludedAndCount (subJob : SubJobWithJob) (workersOnline : List String) : List String × ℤ :=
  (getExcludedWorkers subJob workersOnline).getD ([], workersOnline.length)

def jobMessageOf (subJob : SubJobWithJob) (startTime downloadStartTime : DateTime)
    (excludedWorkers : List String) : JobMessage where
  jobId := subJob.job.id
  subJobId := subJob.id
  url := subJob.job.url
  startTime
  downloadStartTime
  startRange := subJob.job.details.startRange
  endRange := subJob.job.details.endRange
  excludedWorkers
  logIntervalMs := subJob.job.details.logIntervalMs

/-- The job message is published before the sub-job becomes pending. -/
def processStatusCreated (subJob : SubJobWithJob) : SubJobStep Unit := do
  let startTime := (← utcNow) + Duration.seconds syncDelaySecs
  let downloadStartTime := startTime + Duration.seconds downloadDelaySecs
  let workersOnline ← getWorkersOnlineBySubJobTopic subJob
  if workersOnline.isEmpty then throw (.failedJob "No workers online")
  else do
    let (excludedWorkers, workersCount) := excludedAndCount subJob workersOnline
    orSkip (.updateSubJobWorkersCount subJob.id workersCount)
    let jobMessage := jobMessageOf subJob startTime downloadStartTime excludedWorkers
    attempt (.publishJob (.workerJob subJob.job.id jobMessage) subJob.job.routingKey)
      (Except.mapError fun _ => .skip "Failed to publish job message")
    let deadlineAt := downloadStartTime + Duration.seconds (maxDownloadDurationSecs * 2)
    orFailedJob (.updateSubJobStatusAndDeadline subJob.id .pending deadlineAt)

def processStatusPending (subJob : SubJobWithJob) : SubJobStep Unit := checkDeadline subJob

/-- The number of workers counted when the sub-job was published. -/
def workersCountOf (subJob : SubJobWithJob) : Except SubJobHandlerError ℕ :=
  match subJob.details.get? "workers_count" with
  | none => .error (.failedJob "missing workers count")
  | some value =>
    match value.asU64? with
    | none => .error (.failedJob "invalid workers count")
    | some workersCount => .ok workersCount

theorem workersCountOf_eq_ok_iff {subJob : SubJobWithJob} {workersCount : ℕ} :
    workersCountOf subJob = .ok workersCount ↔
      (subJob.details.get? "workers_count").bind Json.asU64? = some workersCount := by
  unfold workersCountOf
  cases subJob.details.get? "workers_count" with
  | none => simp
  | some value => cases decoded : value.asU64? <;> simp [decoded]

def processStatusProcessing (subJob : SubJobWithJob) : SubJobStep Unit := do
  checkDeadline subJob
  let workersCount ← outcome (workersCountOf subJob)
  let data ← attempt (.sql (.getDataBySubJobId subJob.id))
    (Except.mapError fun e => .skip s!"Failed to get data: {e.toString}")
  if workersCount ≤ data.length then do
    orSkip (.updateSubJobStatus subJob.id .completed)
    let pendingSubJobs ← attempt (.sql (.countPendingSubJobs .combinedDHP subJob.jobId))
      (Except.mapError fun e => .skip s!"Failed to count pending sub jobs: {e.toString}")
    if pendingSubJobs = 0 then
      attempt (.sql (.updateJobStatus subJob.jobId .completed))
        (Except.mapError fun e => .skip s!"Failed to update job status: {e.toString}")
    else pure ()
  else pure ()

def processCombinedDhpType (subJob : SubJobWithJob) : Prog Calls Unit := do
  let step : SubJobStep Unit := match subJob.status with
    | .created => processStatusCreated subJob
    | .pending => processStatusPending subJob
    | .processing => processStatusProcessing subJob
    | _ => pure ()
  settle subJob (← step.run)

/-- One pass of the loop, after its sleep. -/
def subJobHandler (registry : ServiceScalerRegistry) : Prog Calls Unit := do
  match ← execute .getFirstUnfinishedSubJob with
  | .error _ => pure ()
  | .ok subJob =>
    match subJob.type with
    | .combinedDHP => processCombinedDhpType subJob
    | .scaling => processScaling registry subJob

end Bms
