import Bms.Model.Op
import Bms.Model.Wire

/-! # Consumers of the scheduler

`scheduler/src/queue` and `scheduler/src/background/worker_online_check.rs`. The content of a delivery
is the JSON value that has been sent. A consumer stops at the first statement that fails; the message
is then not acknowledged and is delivered again.
-/

namespace Bms

open Process Fallible

inductive ConsumerError
  | unexpectedMessage
  /-- the content is no message -/
  | unreadable
  | sqlx (error : SqlxError)
deriving DecidableEq

abbrev Consumer (α : Type) : Type := Fallible Calls ConsumerError α

def orFail (stmt : Stmt) : Consumer stmt.Row := attempt (.sql stmt) (Except.mapError .sqlx)

namespace StatusConsumer

def parseMessage (content : Json) : Consumer StatusMessage :=
  match Message.ofJson? .hyphenated content with
  | some (.workerStatus status) => pure status
  | some _ => throw .unexpectedMessage
  | none => throw .unreadable

def processMessage (message : StatusMessage) : Consumer Unit :=
  match message.status with
  | .lifecycle details => do
    orFail (.updateWorkerStatus message.workerName details.workerStatus message.timestamp)
    match details.workerStatus with
    | .online => do
      orFail (.insertTopics details.workerTopics)
      orFail (.insertWorkerTopics message.workerName details.workerTopics)
    | .offline => orFail (.removeWorkerTopics message.workerName)
  | .job details => do
    orFail (.updateWorkerJob message.workerName (details.map (·.jobId)) message.timestamp)
    match details with
    | some details => orFail (.updateSubJobStatus details.subJobId .processing)
    | none => pure ()
  | .heartbeat => orFail (.updateWorkerHeartbeat message.workerName message.timestamp)

def run (content : Json) : Consumer Unit := do
  let message ← parseMessage content
  processMessage message

/-- Only a message that has been processed is acknowledged. -/
def consume (content : Json) : Prog Calls Unit := do
  match ← (run content).run with
  | .ok () => acknowledge
  | .error _ => pure ()

end StatusConsumer

namespace DataConsumer

def parseMessage (content : Json) : Consumer (Uuid × ResultMessage) :=
  match Message.ofJson? .hyphenated content with
  | some (.workerResult jobId result) => pure (jobId, result)
  | some _ => throw .unexpectedMessage
  | none => throw .unreadable

def processMessage (_jobId : Uuid) (result : ResultMessage) : Consumer Unit := orFail (.saveData result)

def run (content : Json) : Consumer Unit := do
  let (jobId, result) ← parseMessage content
  processMessage jobId result

def consume (content : Json) : Prog Calls Unit := do
  match ← (run content).run with
  | .ok () => acknowledge
  | .error _ => pure ()

end DataConsumer

def setWorkersOffline : List String → Prog Calls Unit
  | [] => pure ()
  | workerName :: workerNames => do
    let _ ← execute (.setWorkerOffline workerName)
    setWorkersOffline workerNames

/-- One pass of the loop, after its sleep. -/
def processWorkerOnlineCheck : Prog Calls Unit := do
  match ← execute .getInactiveOnlineWorkers with
  | .error _ => pure ()
  | .ok workerNames => setWorkersOffline workerNames

end Bms
