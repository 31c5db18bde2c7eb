import Bms.Model.System

/-! # The protocol of jobs and sub-jobs

What each task may do to the jobs, the sub-jobs, the results and the messages, in which order and
knowing what. A tick goes through the phases of `JobPhase` with the snapshot it has picked; a
creation and a cancellation have phases of their own; all other tasks stay aside. `JobLegal` lists
the calls that each phase permits, and `jobMonitor_covers` is the one place where the programs are
read: everything else about jobs follows from it.
-/

namespace Bms

open Process

/-- Where a task stands with respect to jobs and sub-jobs. -/
inductive JobPhase
  | aside
  /-- a tick that has not picked a sub-job -/
  | searching
  | held (subJob : SubJobWithJob)
  /-- the online workers are known -/
  | surveyed (subJob : SubJobWithJob) (workers : List String)
  /-- the number of workers is recorded in the sub-job's details -/
  | recorded (subJob : SubJobWithJob) (workers : List String)
  /-- the job message is published -/
  | dispatched (subJob : SubJobWithJob) (workers : List String)
  /-- the job message is published, but the sub-job could not be made pending -/
  | refused (subJob : SubJobWithJob)
  /-- the results are read -/
  | answered (subJob : SubJobWithJob) (data : List WorkerDataRow)
  | completed (subJob : SubJobWithJob)
  /-- the job has no unfinished measuring sub-job left -/
  | emptied (subJob : SubJobWithJob)
  /-- a creation that has not drawn the job's id -/
  | validating
  | drawn (jobId : Uuid)
  /-- the job and its first `subJobs` sub-jobs are inserted -/
  | creating (jobId : Uuid) (subJobs : ℕ)
  /-- a cancellation that has updated nothing -/
  | cancelling
  | jobCanceled
  | subJobsCanceled
  /-- no call follows -/
  | finished

namespace JobPhase

def start : Kind → JobPhase
  | .subJobTick => searching
  | .createJob _ => validating
  | .cancelJob _ => cancelling
  | _ => aside

/-- The phase after a call. -/
def note : JobPhase → Act → JobPhase
  | searching, ⟨.sql .getFirstUnfinishedSubJob, .ok subJob⟩ => held subJob
  | searching, ⟨.sql .getFirstUnfinishedSubJob, .error _⟩ => finished
  | held subJob, ⟨.sql (.getWorkersOnlineWithTopic _), .ok workers⟩ => surveyed subJob workers
  | surveyed subJob workers, ⟨.sql (.updateSubJobWorkersCount ..), .ok _⟩ => recorded subJob workers
  | recorded subJob workers, ⟨.publishJob .., .ok _⟩ => dispatched subJob workers
  | recorded _ _, ⟨.publishJob .., .error _⟩ => finished
  | dispatched _ _, ⟨.sql (.updateSubJobStatusAndDeadline ..), .ok _⟩ => finished
  | dispatched subJob _, ⟨.sql (.updateSubJobStatusAndDeadline ..), .error _⟩ => refused subJob
  | surveyed _ _, ⟨.sql (.updateSubJobStatusAndDeadline ..), _⟩ => finished
  | surveyed _ _, ⟨.sql (.updateSubJobStatus ..), _⟩ => finished
  | held subJob, ⟨.sql (.getDataBySubJobId _), .ok data⟩ => answered subJob data
  | answered subJob _, ⟨.sql (.updateSubJobStatus ..), .ok _⟩ => completed subJob
  | answered _ _, ⟨.sql (.updateSubJobStatus ..), .error _⟩ => finished
  | completed subJob, ⟨.sql (.countPendingSubJobs ..), .ok count⟩ => if count = 0 then emptied subJob else finished
  | completed _, ⟨.sql (.countPendingSubJobs ..), .error _⟩ => finished
  | emptied _, ⟨.sql (.updateJobStatus ..), _⟩ => finished
  | held _, ⟨.sql (.updateSubJobStatusWithError ..), _⟩ => finished
  | surveyed _ _, ⟨.sql (.updateSubJobStatusWithError ..), _⟩ => finished
  | refused _, ⟨.sql (.updateSubJobStatusWithError ..), _⟩ => finished
  | validating, ⟨.newUuid, jobId⟩ => drawn jobId
  | drawn _, ⟨.sql (.createJob ..), .ok job⟩ => creating job.id 0
  | drawn _, ⟨.sql (.createJob ..), .error _⟩ => finished
  | creating jobId subJobs, ⟨.sql (.createSubJob ..), .ok _⟩ => creating jobId (subJobs + 1)
  | creating _ _, ⟨.sql (.createSubJob ..), .error _⟩ => finished
  | cancelling, ⟨.sql (.updateJobStatus ..), .ok _⟩ => jobCanceled
  | cancelling, ⟨.sql (.updateJobStatus ..), .error _⟩ => finished
  | jobCanceled, ⟨.sql (.updateSubJobsStatusByJobId ..), .ok _⟩ => subJobsCanceled
  | jobCanceled, ⟨.sql (.updateSubJobsStatusByJobId ..), .error _⟩ => finished
  | phase, _ => phase

/-- The sub-job that a tick has picked. -/
def snapshot : JobPhase → Option SubJobWithJob
  | held subJob | surveyed subJob _ | recorded subJob _ | dispatched subJob _ | refused subJob
  | answered subJob _ | completed subJob | emptied subJob => some subJob
  | _ => none

/-- The phases in which a task may do what touches neither jobs nor sub-jobs. -/
def Open : JobPhase → Prop
  | aside | held _ | surveyed .. | validating | subJobsCanceled => True
  | _ => False

/-- The phases in which a task may return. -/
def Final : JobPhase → Prop
  | recorded .. | dispatched .. | refused _ | completed _ | emptied _ | drawn _ | cancelling | jobCanceled => False
  | creating _ subJobs => subJobs = 4
  | _ => True

/-- The phases from which a tick may fail its sub-job. -/
def Failable (phase : JobPhase) (subJob : SubJobWithJob) : Prop :=
  phase = held subJob ∨ (∃ workers, phase = surveyed subJob workers) ∨ phase = refused subJob

/-- What a call does to a phase: nothing, or it leads on to the next one or to the end. -/
inductive Notes : JobPhase → Act → JobPhase → Prop
  | stays {phase : JobPhase} {made : Act} (same : phase.note made = phase) : Notes phase made phase
  | finishes (phase : JobPhase) (made : Act) : Notes phase made finished
  | picks (subJob : SubJobWithJob) : Notes searching ⟨.sql .getFirstUnfinishedSubJob, .ok subJob⟩ (held subJob)
  | surveys (subJob : SubJobWithJob) (topic : String) (workers : List String) :
      Notes (held subJob) ⟨.sql (.getWorkersOnlineWithTopic topic), .ok workers⟩ (surveyed subJob workers)
  | records (subJob : SubJobWithJob) (workers : List String) (id : Uuid) (count : ℤ) (done : Unit) :
      Notes (surveyed subJob workers) ⟨.sql (.updateSubJobWorkersCount id count), .ok done⟩ (recorded subJob workers)
  | publishes (subJob : SubJobWithJob) (workers : List String) (message : Message) (routingKey : String) (done : Unit) :
      Notes (recorded subJob workers) ⟨.publishJob message routingKey, .ok done⟩ (dispatched subJob workers)
  | refuses (subJob : SubJobWithJob) (workers : List String) (id : Uuid) (status : SubJobStatus) (deadline : DateTime)
      (e : SqlxError) :
      Notes (dispatched subJob workers) ⟨.sql (.updateSubJobStatusAndDeadline id status deadline), .error e⟩ (refused subJob)
  | answers (subJob : SubJobWithJob) (id : Uuid) (data : List WorkerDataRow) :
      Notes (held subJob) ⟨.sql (.getDataBySubJobId id), .ok data⟩ (answered subJob data)
  | completes (subJob : SubJobWithJob) (data : List WorkerDataRow) (id : Uuid) (status : SubJobStatus) (done : Unit) :
      Notes (answered subJob data) ⟨.sql (.updateSubJobStatus id status), .ok done⟩ (completed subJob)
  | empties (subJob : SubJobWithJob) (type : SubJobType) (jobId : Uuid) :
      Notes (completed subJob) ⟨.sql (.countPendingSubJobs type jobId), .ok 0⟩ (emptied subJob)
  | draws (jobId : Uuid) : Notes validating ⟨.newUuid, jobId⟩ (drawn jobId)
  | creates (jobId inserted : Uuid) (url routingKey : String) (status : JobStatus) (details : JobDetails) (job : Job) :
      Notes (drawn jobId) ⟨.sql (.createJob inserted url routingKey status details), .ok job⟩ (creating job.id 0)
  | inserts (jobId parent subJobId : Uuid) (subJobs : ℕ) (status : SubJobStatus) (type : SubJobType)
      (details : SubJobDetails) (subJob : SubJob) :
      Notes (creating jobId subJobs) ⟨.sql (.createSubJob subJobId parent status type details), .ok subJob⟩
        (creating jobId (subJobs + 1))
  | cancelsJob (jobId : Uuid) (status : JobStatus) (done : Unit) :
      Notes cancelling ⟨.sql (.updateJobStatus jobId status), .ok done⟩ jobCanceled
  | cancelsSubJobs (jobId : Uuid) (status : SubJobStatus) (done : Unit) :
      Notes jobCanceled ⟨.sql (.updateSubJobsStatusByJobId jobId status), .ok done⟩ subJobsCanceled

theorem notes (phase : JobPhase) (made : Act) : Notes phase made (phase.note made) := by
  generalize same : phase.note made = later
  have noted := same
  unfold note at noted
  split at noted <;> subst noted <;> first | exact .stays same | exact .finishes .. | constructor | skip
  -- a job is emptied where no sub-job is left
  next count =>
    by_cases none : count = 0
    · subst none
      exact .empties ..
    · rw [if_neg none]
      exact .finishes ..

theorem Failable.snapshot {phase : JobPhase} {subJob : SubJobWithJob} (failable : phase.Failable subJob) :
    phase.snapshot = some subJob := by
  obtain rfl | ⟨workers, rfl⟩ | rfl := failable <;> rfl

theorem Failable.note {phase : JobPhase} {subJob : SubJobWithJob} (failable : phase.Failable subJob) (id : Uuid)
    (status : SubJobStatus) (message : String) (reply : Except SqlxError Unit) :
    phase.note ⟨.sql (.updateSubJobStatusWithError id status message), reply⟩ = finished := by
  obtain rfl | ⟨workers, rfl⟩ | rfl := failable <;> rfl

end JobPhase

/-- A call that touches neither jobs nor sub-jobs, results, messages or the deadlines of services, and that no
phase notes. -/
def Op.Quiet : Op → Prop
  | .sql (.createJob ..) | .sql (.updateJobStatus ..) | .sql (.updateJobWorkersCount ..) | .sql (.createSubJob ..)
  | .sql (.updateSubJobStatus ..) | .sql (.updateSubJobsStatusByJobId ..) | .sql (.updateSubJobStatusWithError ..)
  | .sql (.updateSubJobStatusAndDeadline ..) | .sql (.updateSubJobWorkersCount ..) | .sql (.saveData _)
  | .sql (.setDescaleDeadlines ..) | .sql .getFirstUnfinishedSubJob | .sql (.getWorkersOnlineWithTopic _)
  | .sql (.getDataBySubJobId _) | .sql (.countPendingSubJobs ..) | .publishJob .. | .publishResult _
  | .publishStatus _ | .newUuid => False
  | _ => True

/-- A call that touches no table, no message and no provider. -/
def Op.Local : Op → Prop
  | .sql _ | .newUuid | .publishJob .. | .publishResult _ | .publishStatus _ | .basicAck | .describeServices ..
  | .updateService .. | .dockerPs _ | .dockerComposeUp .. => False
  | _ => True

/-- A local call that requests no other range than that of a job message. -/
def Op.Measures (message : JobMessage) : Op → Prop
  | .getRange url rangeStart rangeEnd =>
    url = message.url ∧ rangeStart = message.startRange ∧ rangeEnd = message.endRange
  | op => op.Local

/-- A call of a worker that handles a job message. -/
def Op.Handles (message : JobMessage) : Op → Prop
  | .newUuid | .publishStatus _ | .publishResult _ => True
  | op => op.Measures message

/-- A statement of the consumer of status messages. -/
def Op.RecordsStatus : Op → Prop
  | .sql (.updateWorkerStatus ..) | .sql (.insertTopics _) | .sql (.insertWorkerTopics ..) | .sql (.removeWorkerTopics _)
  | .sql (.updateWorkerJob ..) | .sql (.updateSubJobStatus ..) | .sql (.updateWorkerHeartbeat ..) => True
  | _ => False

/-- A call that a scaler makes, or its panic. -/
def Op.Provider : Op → Prop
  | .describeServices .. | .updateService .. | .dockerPs _ | .dockerComposeUp .. | .panic => True
  | _ => False

/-- The calls that a task may make in a phase. -/
inductive JobLegal : Kind → JobPhase → Op → Prop
  | quiet {kind : Kind} {phase : JobPhase} {op : Op} (quiet : op.Quiet) (going : phase.Open) :
      JobLegal kind phase op
  | pick : JobLegal .subJobTick .searching (.sql .getFirstUnfinishedSubJob)
  | survey {subJob : SubJobWithJob} {topic : String} :
      JobLegal .subJobTick (.held subJob) (.sql (.getWorkersOnlineWithTopic topic))
  | record {subJob : SubJobWithJob} {workers : List String} (measuring : subJob.type = .combinedDHP)
      (created : subJob.status = .created) (online : workers ≠ []) :
      JobLegal .subJobTick (.surveyed subJob workers)
        (.sql (.updateSubJobWorkersCount subJob.id (excludedAndCount subJob workers).2))
  | publish {subJob : SubJobWithJob} {workers : List String} {startTime downloadStartTime : DateTime}
      (measuring : subJob.type = .combinedDHP) (created : subJob.status = .created) :
      JobLegal .subJobTick (.recorded subJob workers)
        (.publishJob (.workerJob subJob.job.id (jobMessageOf subJob startTime downloadStartTime
          (excludedAndCount subJob workers).1)) subJob.job.routingKey)
  | pend {subJob : SubJobWithJob} {workers : List String} {deadline : DateTime}
      (measuring : subJob.type = .combinedDHP) (created : subJob.status = .created) :
      JobLegal .subJobTick (.dispatched subJob workers)
        (.sql (.updateSubJobStatusAndDeadline subJob.id .pending deadline))
  | expect {subJob : SubJobWithJob} {workers : List String} {count : ℕ} (scaling : subJob.type = .scaling)
      (created : subJob.status = .created) :
      JobLegal .subJobTick (.surveyed subJob workers) (.sql (.updateJobWorkersCount subJob.jobId count))
  | extend {subJob : SubJobWithJob} {workers : List String} {ids : List Uuid} {descaleAt : DateTime}
      (scaling : subJob.type = .scaling) (created : subJob.status = .created) :
      JobLegal .subJobTick (.surveyed subJob workers) (.sql (.setDescaleDeadlines ids descaleAt))
  | scaled {subJob : SubJobWithJob} {workers : List String} {deadline : DateTime} (scaling : subJob.type = .scaling)
      (created : subJob.status = .created) :
      JobLegal .subJobTick (.surveyed subJob workers)
        (.sql (.updateSubJobStatusAndDeadline subJob.id .processing deadline))
  | unneeded {subJob : SubJobWithJob} {workers : List String} (scaling : subJob.type = .scaling)
      (created : subJob.status = .created) :
      JobLegal .subJobTick (.surveyed subJob workers) (.sql (.updateSubJobStatus subJob.id .canceled))
  | reached {subJob : SubJobWithJob} {workers : List String} (scaling : subJob.type = .scaling)
      (processing : subJob.status = .processing) :
      JobLegal .subJobTick (.surveyed subJob workers) (.sql (.updateSubJobStatus subJob.id .completed))
  | collect {subJob : SubJobWithJob} (measuring : subJob.type = .combinedDHP)
      (processing : subJob.status = .processing) :
      JobLegal .subJobTick (.held subJob) (.sql (.getDataBySubJobId subJob.id))
  | complete {subJob : SubJobWithJob} {data : List WorkerDataRow} {workersCount : ℕ}
      (measuring : subJob.type = .combinedDHP) (processing : subJob.status = .processing)
      (counted : workersCountOf subJob = .ok workersCount) (enough : workersCount ≤ data.length) :
      JobLegal .subJobTick (.answered subJob data) (.sql (.updateSubJobStatus subJob.id .completed))
  | count {subJob : SubJobWithJob} (measuring : subJob.type = .combinedDHP) :
      JobLegal .subJobTick (.completed subJob) (.sql (.countPendingSubJobs .combinedDHP subJob.jobId))
  | close {subJob : SubJobWithJob} (measuring : subJob.type = .combinedDHP) :
      JobLegal .subJobTick (.emptied subJob) (.sql (.updateJobStatus subJob.jobId .completed))
  | fail {phase : JobPhase} {subJob : SubJobWithJob} {message : String}
      (failable : phase.Failable subJob) :
      JobLegal .subJobTick phase (.sql (.updateSubJobStatusWithError subJob.id .failed message))
  | drawJob {payload : CreateJobInput} : JobLegal (.createJob payload) .validating .newUuid
  | insertJob {payload : CreateJobInput} {jobId : Uuid} {url routingKey : String} {details : JobDetails} :
      JobLegal (.createJob payload) (.drawn jobId) (.sql (.createJob jobId url routingKey .pending details))
  | drawSubJob {payload : CreateJobInput} {jobId : Uuid} {subJobs : ℕ} (few : subJobs < 4) :
      JobLegal (.createJob payload) (.creating jobId subJobs) .newUuid
  | insertSubJob {payload : CreateJobInput} {jobId subJobId : Uuid} {subJobs : ℕ} {details : SubJobDetails}
      (few : subJobs < 4) :
      JobLegal (.createJob payload) (.creating jobId subJobs) (.sql (.createSubJob subJobId jobId .created
        (if subJobs = 0 then .scaling else .combinedDHP) details))
  | cancelJob {jobId : Uuid} : JobLegal (.cancelJob jobId) .cancelling (.sql (.updateJobStatus jobId .canceled))
  | cancelSubJobs {jobId : Uuid} :
      JobLegal (.cancelJob jobId) .jobCanceled (.sql (.updateSubJobsStatusByJobId jobId .canceled))
  | begin {workerName : String} {details : WorkerStatusJobDetails} {timestamp : DateTime} :
      JobLegal (.statusDelivery (.workerStatus ⟨workerName, .job (some details), timestamp⟩)) .aside
        (.sql (.updateSubJobStatus details.subJobId .processing))
  | save {jobId : Uuid} {result : ResultMessage} :
      JobLegal (.dataDelivery (.workerResult jobId result)) .aside (.sql (.saveData result))
  | drawRun {config : WorkerConfig} {content : Message} : JobLegal (.jobDelivery config content) .aside .newUuid
  | announce {config : WorkerConfig} {jobId : Uuid} {message : JobMessage} {details : Option WorkerStatusJobDetails}
      {timestamp : DateTime} (own : ∀ d ∈ details, d.subJobId = message.subJobId) :
      JobLegal (.jobDelivery config (.workerJob jobId message)) .aside
        (.publishStatus (.workerStatus ⟨config.workerName, .job details, timestamp⟩))
  | answer {config : WorkerConfig} {jobId : Uuid} {message : JobMessage} {result : ResultMessage}
      (worker : result.workerName = config.workerName) (own : result.subJobId = message.subJobId) :
      JobLegal (.jobDelivery config (.workerJob jobId message)) .aside (.publishResult (.workerResult jobId result))
  | report {kind : Kind} {workerName : String} {status : WorkerStatusDetails} {timestamp : DateTime}
      (other : ∀ details, status ≠ .job details) :
      JobLegal kind .aside (.publishStatus (.workerStatus ⟨workerName, status, timestamp⟩))

def jobMonitor : Monitor Calls Kind JobPhase where
  start := JobPhase.start
  note := JobPhase.note
  legal := JobLegal
  ended _ := JobPhase.Final

end Bms
