import Bms.Model.Messages
import Mathlib.Data.Nat.Digits.Lemmas

/-! # Messages on the wire

How serde writes and reads the messages of `rabbitmq/src/messages.rs`: a structure is an object with
one key for each field, a variant an object with its name as the only key, a unit variant its bare
name. The text of a uuid is left to the `uuid` crate: all that is used of it is that what has been
written can be read.
-/

namespace Bms

/-- How uuids are written and read. -/
structure UuidText where
  write : Uuid → String
  read? : String → Option Uuid
  read_write : ∀ id, read? (write id) = some id

namespace UuidText

/-- The hexadecimal digits of a number, at least 32 of them, the last first. -/
def hexDigits (id : Uuid) : List ℕ :=
  let digits := Nat.digits 16 id
  digits ++ List.replicate (32 - digits.length) 0

def hexValue (digit : Char) : ℕ := if digit.isDigit then digit.toNat - '0'.toNat else digit.toNat - 'a'.toNat + 10

/-- Hyphens after 8, 12, 16 and 20 digits. -/
def hyphenate (digits : List Char) : List Char :=
  let (first, rest) := digits.splitAt 8
  let (second, rest) := rest.splitAt 4
  let (third, rest) := rest.splitAt 4
  let (fourth, rest) := rest.splitAt 4
  first ++ '-' :: second ++ '-' :: third ++ '-' :: fourth ++ '-' :: rest

theorem hexValue_digitChar : ∀ digit < 16, hexValue (Nat.digitChar digit) = digit ∧ Nat.digitChar digit ≠ '-' := by
  decide

theorem filter_hyphenate {digits : List Char} (plain : ∀ digit ∈ digits, digit ≠ '-') :
    (hyphenate digits).filter (· ≠ '-') = digits := by
  have kept : digits.filter (· ≠ '-') = digits := List.filter_eq_self.mpr fun digit member => by simpa using plain digit member
  conv_rhs => rw [← kept, ← List.take_append_drop 8 digits, ← List.take_append_drop 4 (digits.drop 8),
    ← List.take_append_drop 4 ((digits.drop 8).drop 4), ← List.take_append_drop 4 (((digits.drop 8).drop 4).drop 4)]
  simp only [hyphenate, List.splitAt_eq, List.filter_append, List.filter_cons]
  simp

theorem hexDigits_lt {id digit : ℕ} (member : digit ∈ hexDigits id) : digit < 16 := by
  obtain own | padding := List.mem_append.mp member
  · exact Nat.digits_lt_base (by decide) own
  · rw [List.eq_of_mem_replicate padding]
    decide

/-- The hyphenated form, the digits in lower case. -/
def hyphenated : UuidText where
  write id := String.ofList (hyphenate ((hexDigits id).map Nat.digitChar).reverse)
  read? text := some (Nat.ofDigits 16 ((text.toList.filter (· ≠ '-')).reverse.map hexValue))
  read_write id := by
    have plain : ∀ digit ∈ ((hexDigits id).map Nat.digitChar).reverse, digit ≠ '-' := by
      intro digit member
      obtain ⟨value, known, rfl⟩ := List.mem_map.mp (List.mem_reverse.mp member)
      exact (hexValue_digitChar value (hexDigits_lt known)).2
    have values : ((hexDigits id).map Nat.digitChar).map hexValue = hexDigits id := by
      rw [List.map_map]
      exact (List.map_congr_left fun value member => (hexValue_digitChar value (hexDigits_lt member)).1).trans (List.map_id _)
    rw [String.toList_ofList, filter_hyphenate plain, List.reverse_reverse, values, hexDigits,
      Nat.ofDigits_append_replicate_zero, Nat.ofDigits_digits]

end UuidText

/-- A field of an object, read in its own way. -/
def field? {α : Type} (value : Json) (key : String) (read? : Json → Option α) : Option α := (value.get? key).bind read?

/-- A unit variant. -/
def unitVariant? (value : Json) (name : String) : Option Unit := if value = .str name then some () else none

/-- A variant with a content. -/
def variant (name : String) (content : Json) : Json := .obj [(name, content)]

/-- The content of a variant, if the value is this variant. -/
def variant? (value : Json) (name : String) : Option Json :=
  match value with
  | .obj [(other, content)] => if other = name then some content else none
  | _ => none

section Containers

variable {α ε : Type}

def resultToJson (ok : α → Json) (err : ε → Json) : Except ε α → Json
  | .ok value => variant "Ok" (ok value)
  | .error e => variant "Err" (err e)

def resultOfJson? (ok? : Json → Option α) (err? : Json → Option ε) (value : Json) : Option (Except ε α) :=
  match variant? value "Ok", variant? value "Err" with
  | some content, _ => (ok? content).map .ok
  | none, some content => (err? content).map .error
  | none, none => none

def listOfJson? (read? : Json → Option α) : Json → Option (List α)
  | .arr items => items.mapM read?
  | _ => none

/-- An absent value is written as null. -/
def optionOfJson? (read? : Json → Option α) : Json → Option (Option α)
  | .null => some none
  | value => (read? value).map some

end Containers

/-! ## Results -/

def timestampOfJson? : Json → Option DateTime
  | .timestamp time => some time
  | _ => none

def f64OfJson? : Json → Option F64
  | .float value => some (.finite value)
  | .int value => some (.finite value)
  | _ => none

def logOfJson? : Json → Option (DateTime × ℕ × ℕ)
  | .arr [time, interval, accumulating] => do
    return (← timestampOfJson? time, ← interval.asU64?, ← accumulating.asU64?)
  | _ => none

def DownloadResult.ofJson? (value : Json) : Option DownloadResult := do
  return {
    totalBytes := ← field? value "total_bytes" Json.asU64?
    elapsedSecs := ← field? value "elapsed_secs" f64OfJson?
    downloadSpeed := ← field? value "download_speed" f64OfJson?
    jobStartTime := ← field? value "job_start_time" timestampOfJson?
    downloadStartTime := ← field? value "download_start_time" timestampOfJson?
    endTime := ← field? value "end_time" timestampOfJson?
    timeToFirstByteMs := ← field? value "time_to_first_byte_ms" f64OfJson?
    secondBySecondLogs := ← field? value "second_by_second_logs" (listOfJson? logOfJson?) }

def DownloadError.ofJson? (value : Json) : Option DownloadError := do
  return { error := ← field? value "error" Json.asStr? }

def PingResult.ofJson? (value : Json) : Option PingResult := do
  return {
    min := ← field? value "min" f64OfJson?
    max := ← field? value "max" f64OfJson?
    avg := ← field? value "avg" f64OfJson?
    ipAddress := ← field? value "ip_address" Json.asStr? }

def PingError.ofJson? (value : Json) : Option PingError := do
  return { error := ← field? value "error" Json.asStr? }

def HeadResult.ofJson? (value : Json) : Option HeadResult := do
  return {
    min := ← field? value "min" f64OfJson?
    max := ← field? value "max" f64OfJson?
    avg := ← field? value "avg" f64OfJson? }

def HeadError.ofJson? (value : Json) : Option HeadError := do
  return { error := ← field? value "error" Json.asStr? }

/-! ## Messages -/

section Messages

variable (text : UuidText)

def uuidToJson (id : Uuid) : Json := .str (text.write id)

def uuidOfJson? (value : Json) : Option Uuid := value.asStr?.bind text.read?

def ResultMessage.toJson (result : ResultMessage) : Json :=
  .obj [("run_id", uuidToJson text result.runId), ("job_id", uuidToJson text result.jobId),
    ("sub_job_id", uuidToJson text result.subJobId), ("worker_name", .str result.workerName),
    ("is_success", .bool result.isSuccess),
    ("download_result", resultToJson DownloadResult.toJson DownloadError.toJson result.downloadResult),
    ("ping_result", resultToJson PingResult.toJson PingError.toJson result.pingResult),
    ("head_result", resultToJson HeadResult.toJson HeadError.toJson result.headResult)]

def boolOfJson? : Json → Option Bool
  | .bool value => some value
  | _ => none

def ResultMessage.ofJson? (value : Json) : Option ResultMessage := do
  return {
    runId := ← field? value "run_id" (uuidOfJson? text)
    jobId := ← field? value "job_id" (uuidOfJson? text)
    subJobId := ← field? value "sub_job_id" (uuidOfJson? text)
    workerName := ← field? value "worker_name" Json.asStr?
    isSuccess := ← field? value "is_success" boolOfJson?
    downloadResult := ← field? value "download_result" (resultOfJson? DownloadResult.ofJson? DownloadError.ofJson?)
    pingResult := ← field? value "ping_result" (resultOfJson? PingResult.ofJson? PingError.ofJson?)
    headResult := ← field? value "head_result" (resultOfJson? HeadResult.ofJson? HeadError.ofJson?) }

def JobMessage.toJson (message : JobMessage) : Json :=
  .obj [("job_id", uuidToJson text message.jobId), ("sub_job_id", uuidToJson text message.subJobId),
    ("url", .str message.url), ("start_time", .timestamp message.startTime),
    ("download_start_time", .timestamp message.downloadStartTime), ("start_range", .int message.startRange),
    ("end_range", .int message.endRange), ("excluded_workers", .arr (message.excludedWorkers.map .str)),
    ("log_interval_ms", .int message.logIntervalMs)]

def JobMessage.ofJson? (value : Json) : Option JobMessage := do
  return {
    jobId := ← field? value "job_id" (uuidOfJson? text)
    subJobId := ← field? value "sub_job_id" (uuidOfJson? text)
    url := ← field? value "url" Json.asStr?
    startTime := ← field? value "start_time" timestampOfJson?
    downloadStartTime := ← field? value "download_start_time" timestampOfJson?
    startRange := ← field? value "start_range" Json.asI64?
    endRange := ← field? value "end_range" Json.asI64?
    excludedWorkers := ← field? value "excluded_workers" (listOfJson? Json.asStr?)
    logIntervalMs := ← field? value "log_interval_ms" Json.asI64? }

def WorkerStatusJobDetails.toJson (details : WorkerStatusJobDetails) : Json :=
  .obj [("run_id", uuidToJson text details.runId), ("job_id", uuidToJson text details.jobId),
    ("sub_job_id", uuidToJson text details.subJobId), ("worker_name", .str details.workerName)]

def WorkerStatusJobDetails.ofJson? (value : Json) : Option WorkerStatusJobDetails := do
  return {
    runId := ← field? value "run_id" (uuidOfJson? text)
    jobId := ← field? value "job_id" (uuidOfJson? text)
    subJobId := ← field? value "sub_job_id" (uuidOfJson? text)
    workerName := ← field? value "worker_name" Json.asStr? }

def WorkerStatus.toJson : WorkerStatus → Json
  | online => .str "Online"
  | offline => .str "Offline"

def WorkerStatus.ofJson? (value : Json) : Option WorkerStatus :=
  ((unitVariant? value "Online").map fun _ => online) <|> ((unitVariant? value "Offline").map fun _ => offline)

def WorkerDetails.toJson (details : WorkerDetails) : Json :=
  .obj [("worker_topics", .arr (details.workerTopics.map .str)), ("worker_status", details.workerStatus.toJson)]

def WorkerDetails.ofJson? (value : Json) : Option WorkerDetails := do
  return {
    workerTopics := ← field? value "worker_topics" (listOfJson? Json.asStr?)
    workerStatus := ← field? value "worker_status" WorkerStatus.ofJson? }

def WorkerStatusDetails.toJson : WorkerStatusDetails → Json
  | lifecycle details => variant "Lifecycle" details.toJson
  | job details => variant "Job" ((details.map (WorkerStatusJobDetails.toJson text)).getD .null)
  | heartbeat => .str "Heartbeat"

def WorkerStatusDetails.ofJson? (value : Json) : Option WorkerStatusDetails :=
  (do return lifecycle (← WorkerDetails.ofJson? (← variant? value "Lifecycle"))) <|>
    (do return job (← optionOfJson? (WorkerStatusJobDetails.ofJson? text) (← variant? value "Job"))) <|>
      (unitVariant? value "Heartbeat").map fun _ => heartbeat

def StatusMessage.toJson (message : StatusMessage) : Json :=
  .obj [("worker_name", .str message.workerName), ("status", message.status.toJson text),
    ("timestamp", .timestamp message.timestamp)]

def StatusMessage.ofJson? (value : Json) : Option StatusMessage := do
  return {
    workerName := ← field? value "worker_name" Json.asStr?
    status := ← field? value "status" (WorkerStatusDetails.ofJson? text)
    timestamp := ← field? value "timestamp" timestampOfJson? }

def Message.toJson : Message → Json
  | workerJob jobId payload =>
    variant "WorkerJob" (.obj [("job_id", uuidToJson text jobId), ("payload", payload.toJson text)])
  | workerResult jobId result =>
    variant "WorkerResult" (.obj [("job_id", uuidToJson text jobId), ("result", result.toJson text)])
  | workerStatus status => variant "WorkerStatus" (.obj [("status", status.toJson text)])

def Message.ofJson? (value : Json) : Option Message :=
  (do
    let content ← variant? value "WorkerJob"
    return workerJob (← field? content "job_id" (uuidOfJson? text)) (← field? content "payload" (JobMessage.ofJson? text))) <|>
  (do
    let content ← variant? value "WorkerResult"
    return workerResult (← field? content "job_id" (uuidOfJson? text))
      (← field? content "result" (ResultMessage.ofJson? text))) <|>
  (do
    let content ← variant? value "WorkerStatus"
    return workerStatus (← field? content "status" (StatusMessage.ofJson? text)))

end Messages

/-- The JSON value that is sent for a message. -/
def Message.sent (message : Message) : Json := message.toJson .hyphenated

end Bms
