import Bms.Model.Worker
import Bms.Process.Alone
import Mathlib.Algebra.GroupWithZero.Nat
import Mathlib.Algebra.BigOperators.Group.List.Basic
import Mathlib.Tactic.Linarith

/-! # The bytes of a download

A download counts the bytes of its chunks in total and since its last log entry. The record of a
download keeps which body was answered, how many of its parts have been awaited and when the clock
was read; the counts and the log entries of the result are compared with it.
-/

namespace Bms

open Process Fallible

/-- The bytes that a reply brings. -/
def ChunkReply.bytes : ChunkReply → ℕ
  | .chunk length => length
  | _ => 0

def bytesOf (replies : List ChunkReply) : ℕ := (replies.map ChunkReply.bytes).sum

/-- What can be observed of a download. -/
structure DownloadRecord where
  /-- the body that was answered -/
  body : List ChunkReply
  /-- how many of its parts have been awaited -/
  awaited : ℕ
  /-- the readings of the clock, each with the number of parts awaited before it -/
  readings : List (DateTime × ℕ)

namespace DownloadRecord

def empty : DownloadRecord := ⟨[], 0, []⟩

/-- The bytes of the parts awaited between two moments. -/
def bytesBetween (record : DownloadRecord) (first last : ℕ) : ℕ := bytesOf ((record.body.take last).drop first)

end DownloadRecord

/-- Any body of less than 2^64 bytes, and any readings of the clock after 1970. -/
def observed : Environment Calls DownloadRecord where
  allows _
    | ⟨.now, reading⟩ => 0 ≤ reading
    | ⟨.getRange .., .ok response⟩ => bytesOf response.body < 2 ^ 64
    | _ => True
  after record
    | ⟨.now, reading⟩ => { record with readings := record.readings ++ [(reading, record.awaited)] }
    | ⟨.getRange .., .ok response⟩ => { record with body := response.body }
    | ⟨.nextChunk, _⟩ => { record with awaited := record.awaited + 1 }
    | _ => record
  drifts := Eq

/-- The parts awaited before the last of some moments. -/
def awaitedAt (moments : List (DateTime × ℕ)) : ℕ := (moments.getLast?.map (·.2)).getD 0

/-- The bytes counted up to the last entry. -/
def accumulatedIn (logs : List (DateTime × ℕ × ℕ)) : ℕ := (logs.getLast?.map (·.2.2)).getD 0

/-- Each entry is written at one of the moments and shows the bytes of the parts awaited before it. -/
def LoggedAt (record : DownloadRecord) : List (DateTime × ℕ × ℕ) → List (DateTime × ℕ) → Prop :=
  List.Forall₂ fun entry moment => entry.1 = moment.1 ∧ entry.2.2 = record.bytesBetween 0 moment.2

/-- The bytes accumulated in an entry are those of the intervals up to it. -/
def Summed (logs : List (DateTime × ℕ × ℕ)) : Prop :=
  ∀ before entry after, logs = before ++ entry :: after → entry.2.2 = (before.map (·.2.1)).sum + entry.2.1

/-- The log intervals in which entries are written. -/
def intervalsOf (intervalMs : ℤ) (logs : List (DateTime × ℕ × ℕ)) : List ℤ :=
  logs.map fun entry => DateTime.timestampMillis entry.1 / intervalMs

/-- The counts and the log entries of a result agree with the record. -/
structure Accounting (record : DownloadRecord) (intervalMs : ℤ) (result : DownloadResult) : Prop where
  total : result.totalBytes = record.bytesBetween 0 record.awaited
  summed : Summed result.secondBySecondLogs
  logged : ∃ moments, moments.Sublist record.readings ∧ LoggedAt record result.secondBySecondLogs moments ∧
    result.totalBytes - accumulatedIn result.secondBySecondLogs = record.bytesBetween (awaitedAt moments) record.awaited
  intervals : (intervalsOf intervalMs result.secondBySecondLogs).Pairwise (· < ·)

/-! ## Sums -/

theorem bytesOf_append (first second : List ChunkReply) :
    bytesOf (first ++ second) = bytesOf first + bytesOf second := by
  rw [bytesOf, List.map_append, List.sum_append]
  rfl

/-- One more entry is summed up. -/
theorem Summed.concat {logs : List (DateTime × ℕ × ℕ)} {last : DateTime × ℕ × ℕ} (summed : Summed logs)
    (sum : last.2.2 = (logs.map (·.2.1)).sum + last.2.1) : Summed (logs ++ [last]) := by
  intro before entry after same
  rcases List.eq_nil_or_concat after with rfl | ⟨others, final, rfl⟩
  · obtain ⟨rfl, ends⟩ := List.append_inj' same rfl
    obtain rfl := List.cons.inj ends |>.1
    exact sum
  · rw [List.concat_eq_append, ← List.cons_append, ← List.append_assoc] at same
    obtain ⟨split, -⟩ := List.append_inj' same rfl
    exact summed before entry others split

namespace DownloadRecord

variable {record : DownloadRecord}

theorem bytesBetween_self (record : DownloadRecord) (moment : ℕ) : record.bytesBetween moment moment = 0 := by
  rw [bytesBetween, List.drop_eq_nil_of_le (by rw [List.length_take]; exact Nat.min_le_left ..)]
  rfl

/-- The bytes up to a moment and those after it. -/
theorem bytesBetween_add (record : DownloadRecord) {first last : ℕ} (le : first ≤ last) :
    record.bytesBetween 0 first + record.bytesBetween first last = record.bytesBetween 0 last := by
  have parts : (record.body.take last).take first = record.body.take first := by
    rw [List.take_take, Nat.min_eq_left le]
  rw [bytesBetween, bytesBetween, bytesBetween, List.drop_zero, List.drop_zero, ← parts, ← bytesOf_append,
    List.take_append_drop]

theorem bytesBetween_le (record : DownloadRecord) (last : ℕ) : record.bytesBetween 0 last ≤ bytesOf record.body := by
  have whole := bytesOf_append (record.body.take last) (record.body.drop last)
  rw [List.take_append_drop] at whole
  rw [bytesBetween, List.drop_zero]
  omega

/-- One more part. -/
theorem bytesBetween_succ {reply : ChunkReply} {rest : List ChunkReply} {first : ℕ}
    (ahead : record.body.drop record.awaited = reply :: rest) (le : first ≤ record.awaited) :
    record.bytesBetween first (record.awaited + 1) = record.bytesBetween first record.awaited + reply.bytes := by
  have present : record.body[record.awaited]? = some reply := by
    rw [← List.head?_drop, ahead, List.head?_cons]
  have bound : record.awaited < record.body.length := (List.getElem?_eq_some_iff.mp present).1
  have within : first ≤ (record.body.take record.awaited).length := by
    rw [List.length_take]
    omega
  rw [bytesBetween, List.take_add_one, present, Option.toList_some, List.drop_append_of_le_length within,
    bytesOf_append]
  simp [bytesBetween, bytesOf]

end DownloadRecord

/-! ## Intervals -/

/-- The log interval of a moment. -/
def intervalOf (intervalMs : ℤ) (time : DateTime) : ℤ := DateTime.timestampMillis time / intervalMs

/-- The next log time lies in the next interval, whatever the part below a millisecond is. -/
theorem intervalOf_calculateNextInterval {current next : DateTime} {intervalMs : ℤ} (since1970 : 0 ≤ current)
    (positive : 0 < intervalMs) (fits : IsI64 intervalMs)
    (calculated : Download.calculateNextInterval current intervalMs = some next) :
    intervalOf intervalMs next = intervalOf intervalMs current + 1 := by
  have millis : 0 ≤ DateTime.timestampMillis current := Int.ediv_nonneg since1970 (by decide)
  have remainder := Int.emod_lt_of_pos (DateTime.timestampMillis current) positive
  have nonneg := Int.emod_nonneg (DateTime.timestampMillis current) positive.ne'
  have cast : castI64 (intervalMs - DateTime.timestampMillis current % intervalMs) =
      intervalMs - DateTime.timestampMillis current % intervalMs := by
    have bound := fits.2
    exact Int.bmod_eq_of_le_mul_two (by omega) (by omega)
  have reached : next = current + (intervalMs - DateTime.timestampMillis current % intervalMs) * 1000000 := by
    rw [Download.calculateNextInterval, Int.tmod_eq_emod_of_nonneg millis] at calculated
    simp only [cast, Option.bind_eq_bind, Option.bind_eq_some_iff, DateTime.add?, Duration.milliseconds?,
      Duration.milliseconds] at calculated
    obtain ⟨-, -, remaining, duration, added⟩ := calculated
    split at duration
    · cases duration
    · cases duration
      split at added
      · exact (Option.some.inj added).symm
      · cases added
  have split := Int.mul_ediv_add_emod (DateTime.timestampMillis current) intervalMs
  have whole : DateTime.timestampMillis next = intervalMs * (intervalOf intervalMs current + 1) := by
    unfold intervalOf
    rw [reached, DateTime.timestampMillis, Int.add_mul_ediv_right _ _ (by decide), Int.mul_add, Int.mul_one]
    change DateTime.timestampMillis current + _ = _
    omega
  rw [intervalOf, whole, Int.mul_ediv_cancel_left _ positive.ne']

theorem intervalOf_mono {intervalMs : ℤ} {time later : DateTime} (positive : 0 < intervalMs) (le : time ≤ later) :
    intervalOf intervalMs time ≤ intervalOf intervalMs later :=
  Int.ediv_le_ediv positive (Int.ediv_le_ediv (by decide) le)

/-! ## The loop -/

/-- What the loop keeps: the counts are those of the record, since the last entry and in total. -/
structure Counting (record : DownloadRecord) (intervalMs : ℤ) (progress : Download.Progress)
    (moments : List (DateTime × ℕ)) : Prop where
  total : progress.totalBytes = record.bytesBetween 0 record.awaited
  current : progress.bytes = record.bytesBetween (awaitedAt moments) record.awaited
  past : awaitedAt moments ≤ record.awaited
  added : (progress.secondBySecondLogs.map (·.2.1)).sum = record.bytesBetween 0 (awaitedAt moments)
  last : accumulatedIn progress.secondBySecondLogs = record.bytesBetween 0 (awaitedAt moments)
  summed : Summed progress.secondBySecondLogs
  read : moments.Sublist record.readings
  logged : LoggedAt record progress.secondBySecondLogs moments
  intervals : (intervalsOf intervalMs progress.secondBySecondLogs).Pairwise (· < ·)
  later : ∀ interval ∈ intervalsOf intervalMs progress.secondBySecondLogs,
    interval < intervalOf intervalMs progress.nextLogTime

namespace Counting

variable {record : DownloadRecord} {intervalMs : ℤ} {progress : Download.Progress} {moments : List (DateTime × ℕ)}

theorem result (counting : Counting record intervalMs progress moments) {result : DownloadResult}
    (total : result.totalBytes = progress.totalBytes)
    (logs : result.secondBySecondLogs = progress.secondBySecondLogs) : Accounting record intervalMs result where
  total := total.trans counting.total
  summed := logs ▸ counting.summed
  logged := by
    refine ⟨moments, counting.read, logs ▸ counting.logged, ?_⟩
    have split := record.bytesBetween_add counting.past
    rw [total, logs, counting.total, counting.last]
    omega
  intervals := logs ▸ counting.intervals

/-- A chunk is counted. -/
theorem chunk (counting : Counting record intervalMs progress moments) {length : ℕ} {rest : List ChunkReply}
    (ahead : record.body.drop record.awaited = .chunk length :: rest) (fits : bytesOf record.body < 2 ^ 64) :
    Counting { record with awaited := record.awaited + 1 } intervalMs
      { progress with
        bytes := wrapU64 (progress.bytes + length)
        totalBytes := wrapU64 (progress.totalBytes + length) } moments := by
  have total : record.bytesBetween 0 (record.awaited + 1) = progress.totalBytes + length := by
    rw [record.bytesBetween_succ ahead (Nat.zero_le _), counting.total]
    rfl
  have current : record.bytesBetween (awaitedAt moments) (record.awaited + 1) = progress.bytes + length := by
    rw [record.bytesBetween_succ ahead counting.past, counting.current]
    rfl
  have bound := record.bytesBetween_le (record.awaited + 1)
  have split := record.bytesBetween_add
    (show awaitedAt moments ≤ record.awaited + 1 from Nat.le_succ_of_le counting.past)
  have exactTotal : wrapU64 (progress.totalBytes + length) = progress.totalBytes + length := Nat.mod_eq_of_lt (by omega)
  have exactCurrent : wrapU64 (progress.bytes + length) = progress.bytes + length := Nat.mod_eq_of_lt (by omega)
  rw [exactTotal, exactCurrent]
  exact { counting with
    total := total.symm
    current := current.symm
    past := Nat.le_succ_of_le counting.past }

/-- A part without bytes ends the body. -/
theorem stopped (counting : Counting record intervalMs progress moments) {reply : ChunkReply} {rest : List ChunkReply}
    (ahead : record.body.drop record.awaited = reply :: rest) (empty : reply.bytes = 0) :
    Counting { record with awaited := record.awaited + 1 } intervalMs progress moments := by
  have total := record.bytesBetween_succ ahead (Nat.zero_le _)
  have current := record.bytesBetween_succ ahead counting.past
  rw [empty, Nat.add_zero] at total current
  exact { counting with
    total := counting.total.trans total.symm
    current := counting.current.trans current.symm
    past := Nat.le_succ_of_le counting.past }

/-- A reading of the clock. -/
theorem reading (counting : Counting record intervalMs progress moments) (time : DateTime) :
    Counting { record with readings := record.readings ++ [(time, record.awaited)] } intervalMs progress moments :=
  { counting with read := counting.read.trans (List.sublist_append_left ..) }

/-- An entry is written, and the count of the interval starts again. -/
theorem entry (counting : Counting record intervalMs progress moments) {time next : DateTime} (since1970 : 0 ≤ time)
    (positive : 0 < intervalMs) (fits : IsI64 intervalMs) (due : progress.nextLogTime ≤ time)
    (calculated : Download.calculateNextInterval time intervalMs = some next) :
    Counting { record with readings := record.readings ++ [(time, record.awaited)] } intervalMs
      ⟨0, progress.totalBytes, next, progress.secondBySecondLogs ++ [(time, progress.bytes, progress.totalBytes)]⟩
      (moments ++ [(time, record.awaited)]) := by
  have awaited : awaitedAt (moments ++ [(time, record.awaited)]) = record.awaited := by simp [awaitedAt]
  have split := record.bytesBetween_add counting.past
  have sum : progress.totalBytes = (progress.secondBySecondLogs.map (·.2.1)).sum + progress.bytes := by
    rw [counting.total, counting.added, counting.current]
    exact split.symm
  have ahead := intervalOf_calculateNextInterval since1970 positive fits calculated
  have later : ∀ interval ∈ intervalsOf intervalMs progress.secondBySecondLogs, interval < intervalOf intervalMs time :=
    fun interval member => (counting.later interval member).trans_le (intervalOf_mono positive due)
  refine ⟨counting.total, ?_, ?_, ?_, ?_, ?_, ?_, ?_, ?_, ?_⟩
  · rw [awaited]
    exact (record.bytesBetween_self record.awaited).symm
  · exact awaited.le
  · rw [awaited, List.map_append, List.sum_append]
    exact sum.symm.trans counting.total
  · have last : accumulatedIn (progress.secondBySecondLogs ++ [(time, progress.bytes, progress.totalBytes)]) =
        progress.totalBytes := by simp [accumulatedIn]
    rw [awaited]
    exact last.trans counting.total
  · exact counting.summed.concat sum
  · exact counting.read.append (List.Sublist.refl _)
  · exact List.rel_append counting.logged (.cons ⟨rfl, counting.total⟩ .nil)
  · rw [intervalsOf, List.map_append]
    exact List.pairwise_append.mpr ⟨counting.intervals, List.pairwise_singleton ..,
      fun interval member last isLast => by
      rw [List.mem_singleton.mp isLast]
      exact later interval member⟩
  · intro interval member
    rw [intervalsOf, List.map_append] at member
    obtain old | new := List.mem_append.mp member
    · exact (later interval old).trans (by rw [ahead]; exact lt_add_one _)
    · rw [List.mem_singleton.mp new, ahead]
      exact lt_add_one _

end Counting

section Executions

variable {record : DownloadRecord} {payload : JobMessage} {start : DateTime} {ε α : Type}

theorem utcNow_observed {good : DateTime → DownloadRecord → Prop} {bad : ε → DownloadRecord → Prop}
    (reads : ∀ reading : DateTime, 0 ≤ reading →
      good reading { record with readings := record.readings ++ [(reading, record.awaited)] }) :
    (utcNow : Fallible Calls ε DateTime).Ensures observed record good bad := by
  apply (ensures_attempt ..).mpr
  rintro drifted reading rfl since1970
  exact reads reading since1970

theorem unwrap_observed {value : Option α} {good : α → DownloadRecord → Prop} {bad : ε → DownloadRecord → Prop}
    (known : ∀ content, value = some content → good content record) :
    (unwrap value : Fallible Calls ε α).Ensures observed record good bad := by
  cases value with
  | some content => exact known content rfl
  | none =>
    intro drifted reply
    exact Empty.elim reply

/-- However the loop ends without an error, its counts are those of the record. -/
theorem downloadChunks_counts (positive : 0 < payload.logIntervalMs) (fits : IsI64 payload.logIntervalMs)
    (replies : List ChunkReply) (progress : Download.Progress) (moments : List (DateTime × ℕ))
    (ahead : record.body.drop record.awaited = replies) (bound : bytesOf record.body < 2 ^ 64)
    (counting : Counting record payload.logIntervalMs progress moments) :
    (Download.downloadChunks payload start replies progress).Ensures observed record
      (fun reached later => ∃ moments, Counting later payload.logIntervalMs reached moments) fun _ _ => True := by
  induction replies generalizing record progress moments with
  | nil => exact ⟨moments, counting⟩
  | cons reply rest ih =>
    refine (ensures_bind ..).mpr ((ensures_attempt ..).mpr ?_)
    rintro drifted _ rfl -
    cases reply with
    | failed e => trivial
    | done | timedOut => exact ⟨moments, counting.stopped ahead rfl⟩
    | chunk length =>
      have counted := counting.chunk ahead bound
      have behind : record.body.drop (record.awaited + 1) = rest := by
        rw [← List.drop_drop, ahead]
        rfl
      refine (ensures_bind ..).mpr (utcNow_observed fun time since1970 => ?_)
      refine .ite (fun _ => ⟨moments, counted.reading time⟩) fun _ => ?_
      refine .ite (fun due => ?_) fun _ => ih _ moments behind bound (counted.reading time)
      refine (ensures_bind ..).mpr (unwrap_observed fun next calculated => ?_)
      exact ih _ _ behind bound (counted.entry since1970 positive fits due calculated)

/-- Nothing has been counted before the first part. -/
theorem counting_start (record : DownloadRecord) (fresh : record.awaited = 0) (intervalMs : ℤ)
    (nextLogTime : DateTime) :
    Counting record intervalMs ⟨0, 0, nextLogTime, []⟩ [] := by
  have none : record.bytesBetween 0 record.awaited = 0 := by
    rw [fresh]
    exact record.bytesBetween_self 0
  refine ⟨none.symm, none.symm, Nat.zero_le _, (record.bytesBetween_self 0).symm, (record.bytesBetween_self 0).symm, ?_,
    List.nil_sublist _, .nil, .nil, ?_⟩
  · intro before entry after same
    simp at same
  · intro interval member
    cases member

theorem waitForStartTime_observed {good : Unit → DownloadRecord → Prop}
    (waits : ∀ reading : DateTime, 0 ≤ reading →
      good () { record with readings := record.readings ++ [(reading, record.awaited)] }) :
    (Download.waitForStartTime payload).Ensures observed record good fun _ _ => True := by
  refine (ensures_bind ..).mpr (utcNow_observed fun now since1970 => .ite (fun _ => trivial) fun _ => ?_)
  apply (ensures_attempt ..).mpr
  rintro drifted _ rfl -
  exact waits now since1970

theorem download_accounts (positive : 0 < payload.logIntervalMs) (fits : IsI64 payload.logIntervalMs) :
    (Download.process payload).Ensures observed .empty
      (fun result later => Accounting later payload.logIntervalMs result) fun _ _ => True := by
  refine (ensures_bind ..).mpr (utcNow_observed fun jobStartTime _ => ?_)
  refine (ensures_bind ..).mpr ((ensures_mapError ..).mpr (waitForStartTime_observed fun now _ => ?_))
  refine (ensures_bind ..).mpr ((ensures_attempt ..).mpr ?_)
  rintro drifted reply rfl bound
  cases reply with
  | error e => trivial
  | ok response =>
    refine .ite (fun _ => trivial) fun _ => ?_
    refine (ensures_bind ..).mpr (utcNow_observed fun headTime _ => ?_)
    refine (ensures_bind ..).mpr (utcNow_observed fun downloadStartTime _ => ?_)
    refine (ensures_bind ..).mpr (unwrap_observed fun nextLogTime _ => ?_)
    refine (ensures_bind ..).mpr (Ensures.mono (downloadChunks_counts positive fits response.body
      ⟨0, 0, nextLogTime, []⟩ []
      rfl bound (counting_start _ rfl payload.logIntervalMs nextLogTime)) ?_ fun _ _ _ => trivial)
    rintro progress later ⟨moments, counting⟩
    refine .ite (fun _ => trivial) fun _ => (ensures_bind ..).mpr (utcNow_observed fun endTime _ => ?_)
    exact (counting.reading endTime).result rfl rfl

end Executions

/-- A download that returns a result has accounted for every byte. -/
theorem download_accounting {payload : JobMessage} {record : DownloadRecord} {result : DownloadResult}
    (interval : 100 ≤ payload.logIntervalMs) (fits : IsI64 payload.logIntervalMs)
    (downloaded : Alone observed .empty (Download.process payload).run record (.ret (.ok result))) :
    Accounting record payload.logIntervalMs result :=
  (download_accounts (by omega) fits).alone downloaded

/-! ## A download of three chunks -/

def quickPayload : JobMessage := { (default : JobMessage) with logIntervalMs := 100 }

/-- Three chunks; the clock goes back once. -/
def quickReply (record : DownloadRecord) : (op : Op) → Option op.Reply
  | .now => some ([0, 0, 0, 0, 150000000, 120000000, 260000000, 270000000].getD record.readings.length 0)
  | .sleep _ | .nextChunk => some ()
  | .getRange .. => some (.ok ⟨true, "206", [.chunk 10, .chunk 20, .chunk 5, .done]⟩)
  | _ => none

theorem allows_quickReply (record : DownloadRecord) (op : Op) (reply : op.Reply)
    (answered : quickReply record op = some reply) :
    observed.allows record ⟨op, reply⟩ := by
  unfold quickReply at answered
  split at answered
  · obtain rfl := Option.some.inj answered
    have since1970 : ∀ time ∈ [(0 : DateTime), 0, 0, 0, 150000000, 120000000, 260000000, 270000000],
      0 ≤ time := by decide
    have read (position : ℕ) :
        0 ≤ [(0 : DateTime), 0, 0, 0, 150000000, 120000000, 260000000, 270000000].getD position 0 := by
      rw [List.getD_eq_getElem?_getD]
      cases found : [(0 : DateTime), 0, 0, 0, 150000000, 120000000, 260000000, 270000000][position]? with
      | none => exact le_refl _
      | some time => exact since1970 time (List.mem_of_getElem? found)
    exact read _
  · trivial
  · trivial
  · obtain rfl := Option.some.inj answered
    change bytesOf [.chunk 10, .chunk 20, .chunk 5, .done] < 2 ^ 64
    decide
  · cases answered

/-- The result has two entries and 35 bytes. -/
theorem download_accounting_quick : ∃ record result, Accounting record 100 result ∧ result.totalBytes = 35 ∧
    result.secondBySecondLogs = [(150000000, 10, 10), (260000000, 25, 35)] := by
  have computed : ((Download.process quickPayload).run.eval quickReply observed.after .empty).any (fun reached =>
      reached.1.toOption.any fun result => decide (result.totalBytes = 35 ∧
        result.secondBySecondLogs = [(150000000, 10, 10), (260000000, 25, 35)])) = true := by
    decide +kernel
  obtain ⟨⟨outcome, record⟩, found, holds⟩ := (Option.any_eq_true ..).mp computed
  cases outcome with
  | error e => cases holds
  | ok result =>
    have run := Prog.alone_of_eval (E := observed) (fun _ => rfl) allows_quickReply found
    exact ⟨record, result, download_accounting (by decide) ⟨by decide, by decide⟩ run, of_decide_eq_true holds⟩

end Bms
