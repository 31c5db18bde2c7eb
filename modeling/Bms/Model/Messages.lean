import Bms.Data.Json
import Bms.Data.Number

/-! # Messages between the scheduler and the workers

The payloads of `rabbitmq/src/messages.rs`. Times are nanoseconds since the epoch.
-/

namespace Bms

abbrev Uuid := ℕ

/-- Nanoseconds since the epoch. -/
abbrev DateTime := ℤ

/-- A signed number of nanoseconds. -/
abbrev Duration := ℤ

namespace Duration

def seconds (n : ℤ) : Duration := n * 1000000000

def milliseconds (n : ℤ) : Duration := n * 1000000

/-- Whole milliseconds, rounded towards zero. -/
def numMilliseconds (d : Duration) : ℤ := d.tdiv 1000000

end Duration

namespace DateTime

/-- The origin of the timestamps of the database, the beginning of the year 2000. -/
def databaseEpoch : DateTime := 946684800 * 1000000000

/-- A timestamp as a column keeps it: whole microseconds from the origin, the rest is cut off. -/
def stored (time : DateTime) : DateTime := databaseEpoch + (time - databaseEpoch).tdiv 1000 * 1000

end DateTime

/-- A double that is not finite is written as null. -/
def f64ToJson : F64 → Json
  | .finite value => .float value
  | _ => .null

structure JobMessage where
  jobId : Uuid
  subJobId : Uuid
  url : String
  startTime : DateTime
  downloadStartTime : DateTime
  startRange : ℤ
  endRange : ℤ
  excludedWorkers : List String
  logIntervalMs : ℤ
deriving DecidableEq, Inhabited

structure DownloadResult where
  totalBytes : ℕ
  elapsedSecs : F64
  downloadSpeed : F64
  jobStartTime : DateTime
  downloadStartTime : DateTime
  endTime : DateTime
  timeToFirstByteMs : F64
  /-- time, bytes of the interval, bytes so far -/
  secondBySecondLogs : List (DateTime × ℕ × ℕ)
deriving DecidableEq

def DownloadResult.toJson (result : DownloadResult) : Json :=
  .obj [("total_bytes", .int result.totalBytes), ("elapsed_secs", f64ToJson result.elapsedSecs),
    ("download_speed", f64ToJson result.downloadSpeed), ("job_start_time", .timestamp result.jobStartTime),
    ("download_start_time", .timestamp result.downloadStartTime), ("end_time", .timestamp result.endTime),
    ("time_to_first_byte_ms", f64ToJson result.timeToFirstByteMs),
    ("second_by_second_logs", .arr (result.secondBySecondLogs.map fun (time, interval, accumulating) =>
      .arr [.timestamp time, .int interval, .int accumulating]))]

structure DownloadError where
  error : String
deriving DecidableEq

def DownloadError.toJson (e : DownloadError) : Json := .obj [("error", .str e.error)]

structure PingResult where
  min : F64
  max : F64
  avg : F64
  ipAddress : String
deriving DecidableEq

def PingResult.toJson (result : PingResult) : Json :=
  .obj [("min", f64ToJson result.min), ("max", f64ToJson result.max), ("avg", f64ToJson result.avg),
    ("ip_address", .str result.ipAddress)]

structure PingError where
  error : String
deriving DecidableEq

def PingError.toJson (e : PingError) : Json := .obj [("error", .str e.error)]

structure HeadResult where
  min : F64
  max : F64
  avg : F64
deriving DecidableEq

def HeadResult.toJson (result : HeadResult) : Json :=
  .obj [("min", f64ToJson result.min), ("max", f64ToJson result.max), ("avg", f64ToJson result.avg)]

structure HeadError where
  error : String
deriving DecidableEq

def HeadError.toJson (e : HeadError) : Json := .obj [("error", .str e.error)]

structure ResultMessage where
  runId : Uuid
  jobId : Uuid
  subJobId : Uuid
  workerName : String
  isSuccess : Bool
  downloadResult : Except DownloadError DownloadResult
  pingResult : Except PingError PingResult
  headResult : Except HeadError HeadResult
deriving DecidableEq

def ResultMessage.aborted (runId jobId subJobId : Uuid) (workerName error : String) : ResultMessage where
  runId
  jobId
  subJobId
  workerName
  isSuccess := false
  downloadResult := .error { error }
  pingResult := .error { error }
  headResult := .error { error }

structure WorkerStatusJobDetails where
  runId : Uuid
  jobId : Uuid
  subJobId : Uuid
  workerName : String
deriving DecidableEq

inductive WorkerStatus
  | online
  | offline
deriving DecidableEq, Inhabited

structure WorkerDetails where
  workerTopics : List String
  workerStatus : WorkerStatus
deriving DecidableEq

inductive WorkerStatusDetails
  | lifecycle (details : WorkerDetails)
  | job (details : Option WorkerStatusJobDetails)
  | heartbeat
deriving DecidableEq

structure StatusMessage where
  workerName : String
  status : WorkerStatusDetails
  timestamp : DateTime
deriving DecidableEq

inductive Message
  | workerJob (jobId : Uuid) (payload : JobMessage)
  | workerResult (jobId : Uuid) (result : ResultMessage)
  | workerStatus (status : StatusMessage)
deriving DecidableEq

end Bms
