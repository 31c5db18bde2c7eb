import Bms.Model.Wire

/-! # What survives the wire

A message is read back as it was written exactly when its numbers are in range and its doubles are
finite; a double that is not finite is written as null and cannot be read. One law for each type.
-/

namespace Bms

section Laws

variable {α ε : Type}

@[simp] theorem f64OfJson?_f64ToJson (value : F64) : f64OfJson? (f64ToJson value) = some value ↔ value.IsFinite := by
  cases value <;> simp [f64ToJson, f64OfJson?, F64.IsFinite]

@[simp] theorem asU64?_int (value : ℕ) : (Json.int value).asU64? = some value ↔ value < 2 ^ 64 := by
  simp only [Json.asU64?, Int.natCast_nonneg, true_and, Int.toNat_natCast, ite_eq_left_iff]
  constructor
  · intro read
    by_contra large
    simp at read
    omega
  · intro small large
    exact absurd (by exact_mod_cast small) large

@[simp] theorem asI64?_int (value : ℤ) : (Json.int value).asI64? = some value ↔ IsI64 value := by
  simp [Json.asI64?, IsI64]

variable {write : α → Json} {read? : Json → Option α}

/-- A list is read back if each of its items is. -/
@[simp] theorem listOfJson?_arr (items : List α) :
    listOfJson? read? (.arr (items.map write)) = some items ↔ ∀ item ∈ items, read? (write item) = some item := by
  simp only [listOfJson?]
  induction items with
  | nil => simp
  | cons item items ih =>
    simp only [List.map_cons, List.mapM_cons, bind, Option.bind_eq_some_iff, pure, Option.some.injEq, List.cons.injEq,
      List.forall_mem_cons, ← ih]
    constructor
    · rintro ⟨first, read, rest, reads, rfl, rfl⟩
      exact ⟨read, reads⟩
    · rintro ⟨read, reads⟩
      exact ⟨item, read, items, reads, rfl, rfl⟩

/-- A result is read back if what it holds is. -/
theorem resultOfJson?_iff {ok : α → Json} {err : ε → Json} {ok? : Json → Option α} {err? : Json → Option ε}
    (result : Except ε α) : resultOfJson? ok? err? (resultToJson ok err result) = some result ↔
      (∀ value, result = .ok value → ok? (ok value) = some value) ∧ ∀ e, result = .error e → err? (err e) = some e := by
  cases result with
  | ok value =>
    have isOk : variant? (variant "Ok" (ok value)) "Ok" = some (ok value) := rfl
    simp [resultOfJson?, resultToJson, isOk]
  | error e =>
    have isErr : variant? (variant "Err" (err e)) "Ok" = none ∧ variant? (variant "Err" (err e)) "Err" = some (err e) :=
      ⟨rfl, rfl⟩
    simp [resultOfJson?, resultToJson, isErr]

/-- Texts are always read back. -/
theorem listOfJson?_str (items : List String) : listOfJson? Json.asStr? (.arr (items.map .str)) = some items :=
  (listOfJson?_arr items).mpr fun _ _ => rfl

@[simp] theorem uuidOfJson?_uuidToJson (text : UuidText) (id : Uuid) : uuidOfJson? text (uuidToJson text id) = some id :=
  text.read_write id

variable {fields : List (String × Json)} {key other : String} {content : Json}

@[simp] theorem field?_cons_self : field? (.obj ((key, content) :: fields)) key read? = read? content := by
  simp [field?, Json.get?]

@[simp] theorem field?_cons_ne (different : other ≠ key) :
    field? (.obj ((other, content) :: fields)) key read? = field? (.obj fields) key read? := by
  simp [field?, Json.get?, different]

@[simp] theorem variant?_variant : variant? (variant key content) key = some content := if_pos rfl

@[simp] theorem variant?_variant_ne (different : other ≠ key) : variant? (variant other content) key = none :=
  if_neg different

end Laws

/-! ## Results -/

/-- Sizes are 64-bit unsigned integers and the other numbers are finite. -/
structure DownloadResult.Sendable (result : DownloadResult) : Prop where
  totalBytes : result.totalBytes < 2 ^ 64
  elapsedSecs : result.elapsedSecs.IsFinite
  downloadSpeed : result.downloadSpeed.IsFinite
  timeToFirstByteMs : result.timeToFirstByteMs.IsFinite
  logs : ∀ log ∈ result.secondBySecondLogs, log.2.1 < 2 ^ 64 ∧ log.2.2 < 2 ^ 64

theorem logOfJson?_iff (log : DateTime × ℕ × ℕ) :
    logOfJson? (.arr [.timestamp log.1, .int log.2.1, .int log.2.2]) = some log ↔ log.2.1 < 2 ^ 64 ∧ log.2.2 < 2 ^ 64 := by
  obtain ⟨time, interval, accumulating⟩ := log
  simp only [logOfJson?, timestampOfJson?, bind, Option.bind_eq_some_iff, pure, Option.some.injEq, Prod.mk.injEq]
  simp

theorem DownloadResult.ofJson?_toJson (result : DownloadResult) :
    DownloadResult.ofJson? result.toJson = some result ↔ result.Sendable := by
  obtain ⟨totalBytes, elapsedSecs, downloadSpeed, jobStartTime, downloadStartTime, endTime, timeToFirstByteMs, logs⟩ := result
  simp [DownloadResult.ofJson?, DownloadResult.toJson, Option.bind_eq_some_iff, timestampOfJson?, listOfJson?_arr,
    logOfJson?_iff]
  constructor
  · rintro ⟨total, elapsed, speed, first, entries⟩
    exact ⟨total, elapsed, speed, first, fun log member => entries _ _ _ member⟩
  · intro sendable
    exact ⟨sendable.totalBytes, sendable.elapsedSecs, sendable.downloadSpeed, sendable.timeToFirstByteMs,
      fun _ _ _ member => sendable.logs _ member⟩

structure PingResult.Sendable (result : PingResult) : Prop where
  min : result.min.IsFinite
  max : result.max.IsFinite
  avg : result.avg.IsFinite

theorem PingResult.ofJson?_toJson (result : PingResult) :
    PingResult.ofJson? result.toJson = some result ↔ result.Sendable := by
  obtain ⟨min, max, avg, ipAddress⟩ := result
  simp only [PingResult.ofJson?, PingResult.toJson]
  simp [Option.bind_eq_some_iff, Json.asStr?]
  exact ⟨fun ⟨low, high, mean⟩ => ⟨low, high, mean⟩, fun sendable => ⟨sendable.min, sendable.max, sendable.avg⟩⟩

structure HeadResult.Sendable (result : HeadResult) : Prop where
  min : result.min.IsFinite
  max : result.max.IsFinite
  avg : result.avg.IsFinite

theorem HeadResult.ofJson?_toJson (result : HeadResult) :
    HeadResult.ofJson? result.toJson = some result ↔ result.Sendable := by
  obtain ⟨min, max, avg⟩ := result
  simp [HeadResult.ofJson?, HeadResult.toJson, Option.bind_eq_some_iff]
  exact ⟨fun ⟨low, high, mean⟩ => ⟨low, high, mean⟩, fun sendable => ⟨sendable.min, sendable.max, sendable.avg⟩⟩

theorem DownloadError.ofJson?_toJson (e : DownloadError) : DownloadError.ofJson? e.toJson = some e := by
  simp [DownloadError.ofJson?, DownloadError.toJson, Json.asStr?]

theorem PingError.ofJson?_toJson (e : PingError) : PingError.ofJson? e.toJson = some e := by
  simp [PingError.ofJson?, PingError.toJson, Json.asStr?]

theorem HeadError.ofJson?_toJson (e : HeadError) : HeadError.ofJson? e.toJson = some e := by
  simp [HeadError.ofJson?, HeadError.toJson, Json.asStr?]

/-- What the measurements have returned can be sent; their errors always can. -/
structure ResultMessage.Sendable (result : ResultMessage) : Prop where
  download : ∀ value, result.downloadResult = .ok value → value.Sendable
  ping : ∀ value, result.pingResult = .ok value → value.Sendable
  head : ∀ value, result.headResult = .ok value → value.Sendable

section Messages

variable (text : UuidText)

theorem ResultMessage.ofJson?_toJson (result : ResultMessage) :
    ResultMessage.ofJson? text (result.toJson text) = some result ↔ result.Sendable := by
  obtain ⟨runId, jobId, subJobId, workerName, isSuccess, downloadResult, pingResult, headResult⟩ := result
  simp only [ResultMessage.ofJson?, ResultMessage.toJson]
  simp [Option.bind_eq_some_iff, Json.asStr?, boolOfJson?, resultOfJson?_iff, DownloadResult.ofJson?_toJson,
    PingResult.ofJson?_toJson, HeadResult.ofJson?_toJson, DownloadError.ofJson?_toJson, PingError.ofJson?_toJson,
    HeadError.ofJson?_toJson]
  exact ⟨fun ⟨download, ping, head⟩ => ⟨download, ping, head⟩, fun sendable =>
    ⟨sendable.download, sendable.ping, sendable.head⟩⟩

structure JobMessage.Sendable (message : JobMessage) : Prop where
  startRange : IsI64 message.startRange
  endRange : IsI64 message.endRange
  logIntervalMs : IsI64 message.logIntervalMs

theorem JobMessage.ofJson?_toJson (message : JobMessage) :
    JobMessage.ofJson? text (message.toJson text) = some message ↔ message.Sendable := by
  obtain ⟨jobId, subJobId, url, startTime, downloadStartTime, startRange, endRange, excludedWorkers, logIntervalMs⟩ := message
  simp only [JobMessage.ofJson?, JobMessage.toJson]
  simp [Option.bind_eq_some_iff, Json.asStr?, timestampOfJson?, listOfJson?_str]
  exact ⟨fun ⟨first, last, interval⟩ => ⟨first, last, interval⟩,
    fun sendable => ⟨sendable.startRange, sendable.endRange, sendable.logIntervalMs⟩⟩

theorem WorkerStatusJobDetails.ofJson?_toJson (details : WorkerStatusJobDetails) :
    WorkerStatusJobDetails.ofJson? text (details.toJson text) = some details := by
  simp [WorkerStatusJobDetails.ofJson?, WorkerStatusJobDetails.toJson, Json.asStr?]

theorem WorkerDetails.ofJson?_toJson (details : WorkerDetails) : WorkerDetails.ofJson? details.toJson = some details := by
  obtain ⟨workerTopics, workerStatus⟩ := details
  have status : WorkerStatus.ofJson? workerStatus.toJson = some workerStatus := by cases workerStatus <;> rfl
  simp [WorkerDetails.ofJson?, WorkerDetails.toJson, listOfJson?_str, status]

theorem WorkerStatusDetails.ofJson?_toJson (status : WorkerStatusDetails) :
    WorkerStatusDetails.ofJson? text (status.toJson text) = some status := by
  cases status with
  | lifecycle details => simp [WorkerStatusDetails.ofJson?, WorkerStatusDetails.toJson, WorkerDetails.ofJson?_toJson]
  | job details =>
    cases details with
    | none => rfl
    | some details =>
      have read : optionOfJson? (WorkerStatusJobDetails.ofJson? text) (details.toJson text) = some (some details) := by
        change (WorkerStatusJobDetails.ofJson? text (details.toJson text)).map some = _
        rw [WorkerStatusJobDetails.ofJson?_toJson, Option.map_some]
      simp [WorkerStatusDetails.ofJson?, WorkerStatusDetails.toJson, read]
  | heartbeat => rfl

/-- Status messages always survive. -/
theorem StatusMessage.ofJson?_toJson (message : StatusMessage) :
    StatusMessage.ofJson? text (message.toJson text) = some message := by
  simp [StatusMessage.ofJson?, StatusMessage.toJson, Json.asStr?, timestampOfJson?, WorkerStatusDetails.ofJson?_toJson]

def Message.Sendable : Message → Prop
  | workerJob _ payload => payload.Sendable
  | workerResult _ result => result.Sendable
  | workerStatus _ => True

/-- A message is read back as it was written exactly when it is sendable. -/
theorem Message.ofJson?_toJson (message : Message) :
    Message.ofJson? text (message.toJson text) = some message ↔ message.Sendable := by
  cases message with
  | workerJob jobId payload =>
    simp [Message.ofJson?, Message.toJson, Option.bind_eq_some_iff, JobMessage.ofJson?_toJson, Message.Sendable]
  | workerResult jobId result =>
    simp [Message.ofJson?, Message.toJson, Option.bind_eq_some_iff, ResultMessage.ofJson?_toJson, Message.Sendable]
  | workerStatus status =>
    simp [Message.ofJson?, Message.toJson, StatusMessage.ofJson?_toJson, Message.Sendable]

end Messages

/-! ## Nothing else is read -/

/-- What has been written is read as it was, or not at all. -/
def ReadsBack {α : Type} (write : α → Json) (read? : Json → Option α) : Prop :=
  ∀ value other, read? (write value) = some other → other = value

section ReadsBack

variable {α ε : Type}

theorem readsBack_f64 : ReadsBack f64ToJson f64OfJson? := by
  intro value other read
  cases value with
  | finite value =>
    cases read
    rfl
  | _ => cases read

theorem readsBack_asU64? : ReadsBack (fun value : ℕ => .int value) Json.asU64? := by
  intro value other read
  simp only [Json.asU64?, Int.toNat_natCast] at read
  split at read
  · exact (Option.some.inj read).symm
  · cases read

theorem readsBack_asI64? : ReadsBack .int Json.asI64? := by
  intro value other read
  simp only [Json.asI64?] at read
  split at read
  · exact (Option.some.inj read).symm
  · cases read

theorem readsBack_list {write : α → Json} {read? : Json → Option α} (readsBack : ReadsBack write read?) :
    ReadsBack (fun items => .arr (items.map write)) (listOfJson? read?) := by
  intro items others read
  simp only [listOfJson?] at read
  induction items generalizing others with
  | nil =>
    cases read
    rfl
  | cons item items ih =>
    simp only [List.map_cons, List.mapM_cons, bind, Option.bind_eq_some_iff, pure, Option.some.injEq] at read
    obtain ⟨first, readFirst, rest, readRest, rfl⟩ := read
    rw [readsBack item first readFirst, ih rest readRest]

theorem readsBack_result {ok : α → Json} {err : ε → Json} {ok? : Json → Option α} {err? : Json → Option ε}
    (oks : ReadsBack ok ok?) (errs : ReadsBack err err?) :
    ReadsBack (resultToJson ok err) (resultOfJson? ok? err?) := by
  intro result other read
  cases result with
  | ok value =>
    have isOk : variant? (variant "Ok" (ok value)) "Ok" = some (ok value) := rfl
    simp only [resultOfJson?, resultToJson, isOk, Option.map_eq_some_iff] at read
    obtain ⟨back, read, rfl⟩ := read
    rw [oks value back read]
  | error e =>
    have isErr : variant? (variant "Err" (err e)) "Ok" = none ∧ variant? (variant "Err" (err e)) "Err" = some (err e) :=
      ⟨rfl, rfl⟩
    simp only [resultOfJson?, resultToJson, isErr, Option.map_eq_some_iff] at read
    obtain ⟨back, read, rfl⟩ := read
    rw [errs e back read]

/-- What is always read is read back. -/
theorem readsBack_of_reads {write : α → Json} {read? : Json → Option α} (reads : ∀ value, read? (write value) = some value) :
    ReadsBack write read? := fun value _ read => Option.some.inj (read.symm.trans (reads value))

theorem readsBack_log : ReadsBack (fun log : DateTime × ℕ × ℕ => .arr [.timestamp log.1, .int log.2.1, .int log.2.2])
    logOfJson? := by
  rintro ⟨time, interval, accumulating⟩ other read
  simp only [logOfJson?, timestampOfJson?, bind, Option.bind_eq_some_iff, pure, Option.some.injEq] at read
  obtain ⟨-, rfl, back, readInterval, sum, readSum, rfl⟩ := read
  rw [readsBack_asU64? interval back readInterval, readsBack_asU64? accumulating sum readSum]

theorem DownloadResult.readsBack : ReadsBack DownloadResult.toJson DownloadResult.ofJson? := by
  rintro ⟨totalBytes, elapsedSecs, downloadSpeed, jobStartTime, downloadStartTime, endTime, timeToFirstByteMs, logs⟩ other read
  simp [DownloadResult.ofJson?, DownloadResult.toJson, Option.bind_eq_some_iff, timestampOfJson?] at read
  obtain ⟨total, readTotal, elapsed, readElapsed, speed, readSpeed, first, readFirst, entries, readEntries, rfl⟩ := read
  rw [readsBack_asU64? _ _ readTotal, readsBack_f64 _ _ readElapsed, readsBack_f64 _ _ readSpeed,
    readsBack_f64 _ _ readFirst, readsBack_list readsBack_log _ _ readEntries]

theorem PingResult.readsBack : ReadsBack PingResult.toJson PingResult.ofJson? := by
  rintro ⟨min, max, avg, ipAddress⟩ other read
  simp [PingResult.ofJson?, PingResult.toJson, Option.bind_eq_some_iff, Json.asStr?] at read
  obtain ⟨low, readLow, high, readHigh, mean, readMean, rfl⟩ := read
  rw [readsBack_f64 _ _ readLow, readsBack_f64 _ _ readHigh, readsBack_f64 _ _ readMean]

theorem HeadResult.readsBack : ReadsBack HeadResult.toJson HeadResult.ofJson? := by
  rintro ⟨min, max, avg⟩ other read
  simp [HeadResult.ofJson?, HeadResult.toJson, Option.bind_eq_some_iff] at read
  obtain ⟨low, readLow, high, readHigh, mean, readMean, rfl⟩ := read
  rw [readsBack_f64 _ _ readLow, readsBack_f64 _ _ readHigh, readsBack_f64 _ _ readMean]

variable (text : UuidText)

theorem ResultMessage.readsBack : ReadsBack (ResultMessage.toJson text) (ResultMessage.ofJson? text) := by
  rintro ⟨runId, jobId, subJobId, workerName, isSuccess, downloadResult, pingResult, headResult⟩ other read
  simp [ResultMessage.ofJson?, ResultMessage.toJson, Option.bind_eq_some_iff, Json.asStr?, boolOfJson?] at read
  obtain ⟨download, readDownload, ping, readPing, head, readHead, rfl⟩ := read
  rw [readsBack_result DownloadResult.readsBack (readsBack_of_reads DownloadError.ofJson?_toJson) _ _ readDownload,
    readsBack_result PingResult.readsBack (readsBack_of_reads PingError.ofJson?_toJson) _ _ readPing,
    readsBack_result HeadResult.readsBack (readsBack_of_reads HeadError.ofJson?_toJson) _ _ readHead]

theorem JobMessage.readsBack : ReadsBack (JobMessage.toJson text) (JobMessage.ofJson? text) := by
  rintro ⟨jobId, subJobId, url, startTime, downloadStartTime, startRange, endRange, excludedWorkers, logIntervalMs⟩ other read
  simp [JobMessage.ofJson?, JobMessage.toJson, Option.bind_eq_some_iff, Json.asStr?, timestampOfJson?,
    listOfJson?_str] at read
  obtain ⟨first, readFirst, last, readLast, interval, readInterval, rfl⟩ := read
  rw [readsBack_asI64? _ _ readFirst, readsBack_asI64? _ _ readLast, readsBack_asI64? _ _ readInterval]

theorem Message.readsBack : ReadsBack (Message.toJson text) (Message.ofJson? text) := by
  intro message other read
  cases message with
  | workerJob jobId payload =>
    simp [Message.ofJson?, Message.toJson, Option.bind_eq_some_iff] at read
    obtain ⟨back, read, rfl⟩ := read
    rw [JobMessage.readsBack text _ _ read]
  | workerResult jobId result =>
    simp [Message.ofJson?, Message.toJson, Option.bind_eq_some_iff] at read
    obtain ⟨back, read, rfl⟩ := read
    rw [ResultMessage.readsBack text _ _ read]
  | workerStatus status =>
    simp [Message.ofJson?, Message.toJson, StatusMessage.ofJson?_toJson] at read
    exact read.symm

end ReadsBack

end Bms
