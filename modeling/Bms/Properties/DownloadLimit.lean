import Bms.Model.SubJobCombinedDhp
import Bms.Model.Worker
import Bms.Process.Alone
import Mathlib.Tactic.Linarith

/-! # The time limit of a download

A download that runs on a schedule: the response head comes after some delay or never, the chunks
after theirs. Waiting for a chunk is limited and the elapsed time is checked after each chunk; the wait
for the head is not limited and not counted.
-/

namespace Bms

open Process Fallible

/-- What comes after the response head. -/
inductive Arrival
  | chunk (length : ℕ)
  | done
  | failed (error : String)

/-- When the response head and the parts of the body come, in nanoseconds after what comes before them. -/
structure Schedule where
  /-- `none` if the head never comes -/
  head : Option ℕ
  /-- whether the request succeeds, its success and its status -/
  response : Except String (Bool × String)
  arrivals : List (ℕ × Arrival)

namespace Schedule

/-- The limit of a download in nanoseconds. -/
def limit : ℕ := 60 * 1000000000

/-- Waiting for a part of the body gives up after the limit. -/
def wait (delay : ℕ) : ℕ := min delay limit

def chunkReply : ℕ × Arrival → ChunkReply
  | (delay, arrival) =>
    if limit < delay then .timedOut
    else match arrival with
      | .chunk length => .chunk length
      | .done => .done
      | .failed e => .failed e

def reply (schedule : Schedule) : Except String HttpResponse :=
  schedule.response.map fun (isSuccess, status) => ⟨isSuccess, status, schedule.arrivals.map chunkReply⟩

/-- The time spent waiting for chunks, once so much time has elapsed since the head: up to the first part
that is no chunk, or that comes when the limit has elapsed. -/
def bodyTime (elapsed : ℕ) : List (ℕ × Arrival) → ℕ
  | [] => 0
  | (delay, arrival) :: rest =>
    match chunkReply (delay, arrival) with
    | .chunk _ =>
      if limit ≤ elapsed + wait delay then wait delay else wait delay + bodyTime (elapsed + wait delay) rest
    | _ => wait delay

/-- The time from the response head to the end of the download. -/
def afterHead (schedule : Schedule) : ℕ :=
  match schedule.response with
  | .ok (true, _) => bodyTime 0 schedule.arrivals
  | _ => 0

/-- The head comes, and early enough for the rest of the download. -/
def InTime (schedule : Schedule) : Prop := ∃ head, schedule.head = some head ∧ head + schedule.afterHead ≤ 2 * limit

end Schedule

/-- The worker's clock, and the waits for chunks that are still to come. -/
structure DownloadClock where
  now : DateTime
  waits : List ℕ

/-- A schedule answers the calls of a download; time passes only while the download waits. -/
def Schedule.timing (schedule : Schedule) : Environment Calls DownloadClock where
  allows clock
    | ⟨.now, reading⟩ => reading = clock.now
    | ⟨.sleep _, _⟩ | ⟨.nextChunk, _⟩ => True
    | ⟨.getRange .., reply⟩ => schedule.head.isSome ∧ reply = schedule.reply
    | _ => False
  after clock
    | ⟨.sleep duration, _⟩ => { clock with now := clock.now + duration }
    | ⟨.getRange .., _⟩ => { clock with now := clock.now + schedule.head.getD 0 }
    | ⟨.nextChunk, _⟩ => ⟨clock.now + clock.waits.headD 0, clock.waits.tail⟩
    | _ => clock
  drifts := Eq

/-- Started at a time, the download returns by another. -/
def ReturnsBy (schedule : Schedule) (payload : JobMessage) (start limit : DateTime) : Prop :=
  ∃ outcome clock, Alone schedule.timing ⟨start, schedule.arrivals.map fun part => Schedule.wait part.1⟩
    (Download.process payload).run clock (.ret outcome) ∧ clock.now ≤ limit

/-- The deadline that the scheduler gives the sub-job. -/
def JobMessage.deadlineAt (payload : JobMessage) : DateTime :=
  payload.downloadStartTime + Duration.seconds (maxDownloadDurationSecs * 2)

/-- A payload as the scheduler builds it: the interval is clamped when the job is created, and the time is not at
the end of the calendar. -/
structure JobMessage.Usual (payload : JobMessage) : Prop where
  interval : 100 ≤ payload.logIntervalMs ∧ payload.logIntervalMs ≤ 1000
  early : DateTime.minUtc ≤ payload.downloadStartTime
  late : payload.downloadStartTime + Duration.seconds 300 ≤ DateTime.maxUtc

/-- Every download returns before the deadline of its sub-job. -/
def FitsDeadline : Prop :=
  ∀ (schedule : Schedule) (payload : JobMessage) (start : DateTime), payload.Usual → start ≤ payload.downloadStartTime →
    ReturnsBy schedule payload start payload.deadlineAt

/-! ## When a download returns -/

section Executions

variable {schedule : Schedule} {ε α : Type} {clock : DownloadClock} {payload : JobMessage}

theorem utcNow_ensures {good : DateTime → DownloadClock → Prop} {bad : ε → DownloadClock → Prop}
    (reads : good clock.now clock) : (utcNow : Fallible Calls ε DateTime).Ensures schedule.timing clock good bad := by
  apply (ensures_attempt ..).mpr
  rintro drifted reading rfl rfl
  exact reads

theorem unwrap_ensures {value : Option α} {good : α → DownloadClock → Prop} {bad : ε → DownloadClock → Prop}
    (known : ∀ content, value = some content → good content clock) :
    (unwrap value : Fallible Calls ε α).Ensures schedule.timing clock good bad := by
  cases value with
  | some content => exact known content rfl
  | none =>
    intro drifted reply
    exact Empty.elim reply

theorem elapsed_iff {start now : DateTime} {elapsed : ℕ} (reached : now = start + elapsed) :
    Download.maxDownloadDuration ≤ now - start ↔ Schedule.limit ≤ elapsed := by
  rw [reached, add_sub_cancel_left]
  exact Int.ofNat_le

/-- The clock when the next part of the body has come. -/
theorem waited {start : DateTime} {elapsed delay : ℕ} {arrival : Arrival} {rest : List (ℕ × Arrival)}
    (now : clock.now = start + elapsed) (waits : clock.waits = ((delay, arrival) :: rest).map fun part =>
      Schedule.wait part.1) :
    clock.now + (clock.waits.headD 0 : ℕ) = start + (elapsed + Schedule.wait delay : ℕ) ∧
      clock.waits.tail = rest.map fun part => Schedule.wait part.1 := by
  rw [now, waits, List.map_cons, List.headD_cons, Nat.cast_add, ← add_assoc]
  exact ⟨rfl, rfl⟩

theorem downloadChunks_ensures (schedule : Schedule) (payload : JobMessage) (clock : DownloadClock) (start : DateTime)
    (elapsed : ℕ) (arrivals : List (ℕ × Arrival)) (progress : Download.Progress) (now : clock.now = start + elapsed)
    (waits : clock.waits = arrivals.map fun part => Schedule.wait part.1) :
    (Download.downloadChunks payload start (arrivals.map Schedule.chunkReply) progress).Ensures schedule.timing clock
      (fun _ later => later.now = start + (elapsed + Schedule.bodyTime elapsed arrivals : ℕ))
      fun _ later => later.now = start + (elapsed + Schedule.bodyTime elapsed arrivals : ℕ) := by
  induction arrivals generalizing clock elapsed progress with
  | nil => exact now
  | cons part rest ih =>
    obtain ⟨delay, arrival⟩ := part
    refine (ensures_bind ..).mpr ((ensures_attempt ..).mpr ?_)
    rintro drifted reply rfl -
    obtain ⟨now', waits'⟩ := waited now waits
    rw [Schedule.bodyTime]
    cases Schedule.chunkReply (delay, arrival) with
    | done | timedOut | failed => exact now'
    | chunk length =>
      refine (ensures_bind ..).mpr (utcNow_ensures ?_)
      refine .ite (fun late => ?_) fun early => ?_
      · rw [if_pos ((elapsed_iff now').mp late)]
        exact now'
      rw [if_neg fun late => early ((elapsed_iff now').mpr late), ← add_assoc]
      refine .ite (fun _ => (ensures_bind ..).mpr (unwrap_ensures fun nextLogTime _ => ?_)) fun _ => ?_
      · exact ih _ _ _ now' waits'
      · exact ih _ _ _ now' waits'

/-- The download wakes up at its start time. -/
theorem waitForStartTime_ensures {good : Unit → DownloadClock → Prop} {bad : String → DownloadClock → Prop}
    (early : clock.now ≤ payload.downloadStartTime) (wakes : good () { clock with now := payload.downloadStartTime }) :
    (Download.waitForStartTime payload).Ensures schedule.timing clock good bad := by
  refine (ensures_bind ..).mpr (utcNow_ensures (.ite (fun late => absurd early (not_le.mpr late)) fun _ => ?_))
  apply (ensures_attempt ..).mpr
  rintro drifted reply rfl -
  have wake : clock.now + (payload.downloadStartTime - clock.now) = payload.downloadStartTime := add_sub_cancel ..
  simpa only [Schedule.timing, wake] using wakes

/-- The clock when the download has returned. -/
def Schedule.Returned (schedule : Schedule) (payload : JobMessage) (later : DownloadClock) : Prop :=
  ∃ head, schedule.head = some head ∧ later.now = payload.downloadStartTime + (head + schedule.afterHead : ℕ)

/-- A download returns after the head and what is read of the body; a result has the time up to the head. -/
theorem download_ensures (early : clock.now ≤ payload.downloadStartTime)
    (waits : clock.waits = schedule.arrivals.map fun part => Schedule.wait part.1) :
    (Download.process payload).Ensures schedule.timing clock
      (fun result later => schedule.Returned payload later ∧ ∀ head, schedule.head = some head →
        result.timeToFirstByteMs = .ofInt (Duration.numMilliseconds (payload.downloadStartTime + (head : ℕ) - clock.now)))
      fun _ => schedule.Returned payload := by
  refine (ensures_bind ..).mpr (utcNow_ensures ((ensures_bind ..).mpr ((ensures_mapError ..).mpr
    (waitForStartTime_ensures early ((ensures_bind ..).mpr ((ensures_attempt ..).mpr ?_))))))
  rintro drifted reply rfl ⟨arrives, replied⟩
  obtain ⟨head, arrives⟩ := Option.isSome_iff_exists.mp arrives
  have returned {later : DownloadClock} {rest : ℕ} (same : schedule.afterHead = rest)
      (now : later.now = payload.downloadStartTime + (head : ℕ) + (rest : ℕ)) : schedule.Returned payload later :=
    ⟨head, arrives, by rw [now, same, Nat.cast_add, add_assoc]⟩
  have reached : schedule.timing.after { clock with now := payload.downloadStartTime }
      ⟨.getRange payload.url payload.startRange payload.endRange, reply⟩ =
        ⟨payload.downloadStartTime + (head : ℕ), clock.waits⟩ := by
    simp [Schedule.timing, arrives]
  rw [reached]
  subst replied
  rw [Schedule.reply]
  cases answered : schedule.response with
  | error e => exact returned (by rw [Schedule.afterHead, answered]) (add_zero _).symm
  | ok response =>
    obtain ⟨_ | _, status⟩ := response
    · exact returned (by rw [Schedule.afterHead, answered]) (add_zero _).symm
    · have whole : schedule.afterHead = 0 + Schedule.bodyTime 0 schedule.arrivals := by
        rw [Schedule.afterHead, answered, Nat.zero_add]
      refine (ensures_bind ..).mpr (utcNow_ensures ((ensures_bind ..).mpr (utcNow_ensures ((ensures_bind ..).mpr
        (unwrap_ensures fun nextLogTime _ => ?_)))))
      have body := downloadChunks_ensures schedule payload ⟨payload.downloadStartTime + (head : ℕ), clock.waits⟩ _ 0
        schedule.arrivals ⟨0, 0, nextLogTime, []⟩ (add_zero _).symm waits
      refine (ensures_bind ..).mpr (Ensures.mono body (fun progress later now => ?_) fun _ later now => ?_)
      · refine .ite (fun _ => returned whole now) fun _ => (ensures_bind ..).mpr (utcNow_ensures ?_)
        refine ⟨returned whole now, fun head' arrives' => ?_⟩
        cases arrives.symm.trans arrives'
        rfl
      · exact returned whole now

/-- No interval leaves the calendar. -/
theorem calculateNextInterval_isSome {current : DateTime} {interval : ℤ} (bounds : 100 ≤ interval ∧ interval ≤ 1000)
    (early : DateTime.minUtc ≤ current) (late : current + Duration.seconds 10 ≤ DateTime.maxUtc) :
    ∃ next, Download.calculateNextInterval current interval = some next := by
  have below := Int.tmod_lt_of_pos (DateTime.timestampMillis current) (show 0 < interval by omega)
  have above := Int.lt_tmod_of_pos (DateTime.timestampMillis current) (show 0 < interval by omega)
  unfold Download.calculateNextInterval
  generalize (DateTime.timestampMillis current).tmod interval = millis at below above ⊢
  have cast : castI64 (interval - millis) = interval - millis := Int.bmod_eq_of_le_mul_two (by omega) (by omega)
  have remaining : Duration.milliseconds? (castI64 (interval - millis)) = some (Duration.milliseconds (interval - millis)) := by
    rw [cast, Duration.milliseconds?, if_neg (by omega)]
  have inside : DateTime.minUtc ≤ current + Duration.milliseconds (interval - millis) ∧
      current + Duration.milliseconds (interval - millis) ≤ DateTime.maxUtc := by
    unfold Duration.milliseconds Duration.seconds at *
    constructor <;> linarith
  have nonzero : interval ≠ 0 := by omega
  simp [remaining, DateTime.add?, inside, nonzero]

theorem utcNow_may {good : DateTime → DownloadClock → Prop} {bad : ε → DownloadClock → Prop} (reads : good clock.now clock) :
    (utcNow : Fallible Calls ε DateTime).MayReturn schedule.timing clock good bad :=
  (mayReturn_attempt ..).mpr ⟨clock, clock.now, rfl, rfl, reads⟩

theorem unwrap_may {value : Option α} {content : α} {good : α → DownloadClock → Prop} {bad : ε → DownloadClock → Prop}
    (known : value = some content) (holds : good content clock) :
    (unwrap value : Fallible Calls ε α).MayReturn schedule.timing clock good bad := by
  subst known
  exact holds

/-- Up to the limit of the body no interval leaves the calendar. -/
theorem downloadChunks_may (schedule : Schedule) (clock : DownloadClock) (start : DateTime)
    (elapsed : ℕ) (arrivals : List (ℕ × Arrival)) (progress : Download.Progress)
    (interval : 100 ≤ payload.logIntervalMs ∧ payload.logIntervalMs ≤ 1000) (early : DateTime.minUtc ≤ start)
    (late : start + Duration.seconds 70 ≤ DateTime.maxUtc) (now : clock.now = start + elapsed)
    (waits : clock.waits = arrivals.map fun part => Schedule.wait part.1) :
    (Download.downloadChunks payload start (arrivals.map Schedule.chunkReply) progress).MayReturn schedule.timing clock
      (fun _ _ => True) fun _ _ => True := by
  induction arrivals generalizing clock elapsed progress with
  | nil => trivial
  | cons part rest ih =>
    obtain ⟨delay, arrival⟩ := part
    refine (mayReturn_bind ..).mpr ((mayReturn_attempt ..).mpr ⟨clock, (), rfl, trivial, ?_⟩)
    obtain ⟨now', waits'⟩ := waited now waits
    cases Schedule.chunkReply (delay, arrival) with
    | done | timedOut | failed => trivial
    | chunk length =>
      refine (mayReturn_bind ..).mpr (utcNow_may (.ite (fun _ => trivial) fun inside => ?_))
      have below : elapsed + Schedule.wait delay < Schedule.limit := not_le.mp fun late => inside ((elapsed_iff now').mpr late)
      refine .ite (fun _ => ?_) fun _ => ih _ _ _ now' waits'
      have current : DateTime.minUtc ≤ clock.now + (clock.waits.headD 0 : ℕ) ∧
          clock.now + (clock.waits.headD 0 : ℕ) + Duration.seconds 10 ≤ DateTime.maxUtc := by
        unfold Schedule.limit at below
        unfold Duration.seconds at late ⊢
        zify at below
        rw [now']
        push_cast
        constructor <;> linarith
      obtain ⟨next, known⟩ := calculateNextInterval_isSome interval current.1 current.2
      exact (mayReturn_bind ..).mpr (unwrap_may known (ih _ _ _ now' waits'))

theorem waitForStartTime_may {good : Unit → DownloadClock → Prop} {bad : String → DownloadClock → Prop}
    (early : clock.now ≤ payload.downloadStartTime) (wakes : good () { clock with now := payload.downloadStartTime }) :
    (Download.waitForStartTime payload).MayReturn schedule.timing clock good bad := by
  refine (mayReturn_bind ..).mpr (utcNow_may (.ite (fun late => absurd early (not_le.mpr late)) fun _ => ?_))
  refine (mayReturn_attempt ..).mpr ⟨clock, (), rfl, trivial, ?_⟩
  have wake : clock.now + (payload.downloadStartTime - clock.now) = payload.downloadStartTime := add_sub_cancel ..
  simpa only [Schedule.timing, wake] using wakes

/-- A usual download whose head comes within the deadline returns. -/
theorem download_may (clock : DownloadClock) (usual : payload.Usual) (early : clock.now ≤ payload.downloadStartTime)
    (waits : clock.waits = schedule.arrivals.map fun part => Schedule.wait part.1) {head : ℕ}
    (arrives : schedule.head = some head) (soon : head ≤ 2 * Schedule.limit) :
    (Download.process payload).MayReturn schedule.timing clock (fun _ _ => True) fun _ _ => True := by
  refine (mayReturn_bind ..).mpr (utcNow_may ((mayReturn_bind ..).mpr ((mayReturn_mapError ..).mpr
    (waitForStartTime_may early ((mayReturn_bind ..).mpr ((mayReturn_attempt ..).mpr
      ⟨{ clock with now := payload.downloadStartTime }, schedule.reply, rfl, ⟨by rw [arrives]; rfl, rfl⟩, ?_⟩))))))
  have reached : schedule.timing.after { clock with now := payload.downloadStartTime }
      ⟨.getRange payload.url payload.startRange payload.endRange, schedule.reply⟩ =
        ⟨payload.downloadStartTime + (head : ℕ), clock.waits⟩ := by
    simp [Schedule.timing, arrives]
  rw [reached, Schedule.reply]
  cases answered : schedule.response with
  | error e => trivial
  | ok response =>
    obtain ⟨_ | _, status⟩ := response
    · trivial
    · have afterStart : DateTime.minUtc ≤ payload.downloadStartTime + (head : ℕ) := by
        have := usual.early
        linarith
      have beforeEnd : payload.downloadStartTime + (head : ℕ) + Duration.seconds 70 ≤ DateTime.maxUtc := by
        have := usual.late
        unfold Schedule.limit at soon
        unfold Duration.seconds at *
        zify at soon
        linarith
      obtain ⟨next, known⟩ := calculateNextInterval_isSome usual.interval afterStart
        (le_trans (by unfold Duration.seconds; linarith) beforeEnd)
      refine (mayReturn_bind ..).mpr (utcNow_may ((mayReturn_bind ..).mpr (utcNow_may ((mayReturn_bind ..).mpr
        (unwrap_may known ?_)))))
      have body := downloadChunks_may schedule ⟨payload.downloadStartTime + (head : ℕ), clock.waits⟩ _ 0
        schedule.arrivals ⟨0, 0, next, []⟩ usual.interval afterStart beforeEnd (add_zero _).symm waits
      refine (mayReturn_bind ..).mpr (MayReturn.mono body (fun progress later _ => ?_) fun _ _ _ => trivial)
      exact .ite (fun _ => trivial) fun _ => (mayReturn_bind ..).mpr (utcNow_may trivial)

end Executions

theorem le_deadlineAt_iff (payload : JobMessage) (time : ℕ) :
    payload.downloadStartTime + (time : ℕ) ≤ payload.deadlineAt ↔ time ≤ 2 * Schedule.limit := by
  rw [JobMessage.deadlineAt, add_le_add_iff_left]
  exact Int.ofNat_le

/-- A download returns before the deadline exactly when its response head comes early enough. -/
theorem returnsBy_iff (schedule : Schedule) (payload : JobMessage) (start : DateTime) (usual : payload.Usual)
    (early : start ≤ payload.downloadStartTime) :
    ReturnsBy schedule payload start payload.deadlineAt ↔ schedule.InTime := by
  have returned {outcome : Except DownloadError DownloadResult} {clock : DownloadClock}
      (run : Alone schedule.timing ⟨start, schedule.arrivals.map fun part => Schedule.wait part.1⟩
        (Download.process payload).run clock (.ret outcome)) : schedule.Returned payload clock := by
    have post := (download_ensures early rfl).alone run
    cases outcome with
    | ok result => exact post.1
    | error e => exact post
  constructor
  · rintro ⟨outcome, clock, run, soon⟩
    obtain ⟨head, arrives, now⟩ := returned run
    rw [now, le_deadlineAt_iff] at soon
    exact ⟨head, arrives, soon⟩
  · rintro ⟨head, arrives, soon⟩
    have may := download_may ⟨start, _⟩ usual early rfl arrives ((Nat.le_add_right ..).trans soon)
    obtain ⟨outcome, clock, run, -⟩ := may.alone
    obtain ⟨head', arrives', now⟩ := returned run
    cases arrives.symm.trans arrives'
    exact ⟨outcome, clock, run, by rw [now, le_deadlineAt_iff]; exact soon⟩

/-! ## Two schedules -/

/-- A download of the sample file that starts eleven seconds after the epoch. -/
def samplePayload : JobMessage where
  jobId := 1
  subJobId := 3
  url := "http://host/file"
  startTime := Duration.seconds 1
  downloadStartTime := Duration.seconds 11
  startRange := 0
  endRange := 104857600
  excludedWorkers := []
  logIntervalMs := 1000

theorem usual_samplePayload : samplePayload.Usual := ⟨by decide, by decide, by decide⟩

/-- The head comes after a second, a chunk after another, and the connection stalls. -/
theorem returnsBy_stalledBody : ReturnsBy ⟨some 1000000000, .ok (true, "206"), [(1000000000, .chunk 1), (10 ^ 12, .done)]⟩
    samplePayload 0 samplePayload.deadlineAt :=
  (returnsBy_iff _ samplePayload 0 usual_samplePayload (by decide)).mpr ⟨1000000000, rfl, by decide⟩

/-- The connection stalls before the head. -/
theorem not_fitsDeadline : ¬ FitsDeadline := by
  intro fits
  have returns := fits ⟨none, .ok (true, "206"), []⟩ samplePayload 0 usual_samplePayload (by decide)
  obtain ⟨head, arrives, -⟩ := (returnsBy_iff _ samplePayload 0 usual_samplePayload (by decide)).mp returns
  cases arrives

end Bms
