import Bms.Properties.DownloadLimit

/-! # The time to the first byte

The time to the first byte is taken from the start of the processing to the response head. The
processing starts with the wait for the common start time, so the wait is part of what is measured.
-/

namespace Bms

open Process Fallible

/-- Begun at a time, the download can return this result. -/
def Downloads (schedule : Schedule) (payload : JobMessage) (start : DateTime) (result : DownloadResult) : Prop :=
  ∃ clock, Alone schedule.timing ⟨start, schedule.arrivals.map fun part => Schedule.wait part.1⟩
    (Download.process payload).run clock (.ret (.ok result))

/-- Two downloads of one schedule that begin at different times before the start time measure the same. -/
def FirstByteIndependent : Prop :=
  ∀ (schedule : Schedule) (payload : JobMessage) (start start' : DateTime) (result result' : DownloadResult),
    start < payload.downloadStartTime → start' < payload.downloadStartTime →
      Downloads schedule payload start result → Downloads schedule payload start' result' →
        result.timeToFirstByteMs = result'.timeToFirstByteMs

/-- The whole milliseconds from the start of the processing to the response head. -/
def Schedule.millisToHead (schedule : Schedule) (payload : JobMessage) (start : DateTime) : ℤ :=
  (payload.downloadStartTime - start + schedule.head.getD 0) / 1000000

theorem Downloads.firstByte {schedule : Schedule} {payload : JobMessage} {start : DateTime} {result : DownloadResult}
    (downloads : Downloads schedule payload start result) (early : start ≤ payload.downloadStartTime) :
    result.timeToFirstByteMs = .ofInt (schedule.millisToHead payload start) := by
  obtain ⟨clock, run⟩ := downloads
  obtain ⟨⟨head, arrives, -⟩, measured⟩ := (download_ensures early rfl).alone run
  have nonneg : 0 ≤ payload.downloadStartTime - start + (head : ℕ) :=
    add_nonneg (sub_nonneg.mpr early) (Int.natCast_nonneg head)
  rw [measured head arrives, Schedule.millisToHead, arrives, Option.getD_some, add_sub_right_comm,
    Duration.numMilliseconds, Int.tdiv_eq_ediv_of_nonneg nonneg]

/-- Two downloads measure the same exactly when they have begun equally many whole milliseconds before the head. -/
theorem firstByte_eq_iff {schedule : Schedule} {payload : JobMessage} {start start' : DateTime}
    {result result' : DownloadResult} (early : start < payload.downloadStartTime)
    (early' : start' < payload.downloadStartTime) (downloads : Downloads schedule payload start result)
    (downloads' : Downloads schedule payload start' result') :
    result.timeToFirstByteMs = result'.timeToFirstByteMs ↔
      schedule.millisToHead payload start = schedule.millisToHead payload start' := by
  rw [downloads.firstByte early.le, downloads'.firstByte early'.le, F64.ofInt, F64.ofInt, F64.finite.injEq]
  exact Int.cast_inj

/-! ## Two workers that wake up together -/

/-- The head comes after 100 ms and one chunk a second later. -/
def sampleSchedule : Schedule := ⟨some 100000000, .ok (true, "206"), [(1000000000, .chunk 1), (0, .done)]⟩

/-- A schedule gives one reply to every call. -/
def Schedule.answer (schedule : Schedule) (clock : DownloadClock) : (op : Op) → Option op.Reply
  | .now => some clock.now
  | .sleep _ | .nextChunk => some ()
  | .getRange .. => if schedule.head.isSome then some schedule.reply else none
  | _ => none

/-- The result of a download, computed. -/
def Schedule.download (schedule : Schedule) (payload : JobMessage) (start : DateTime) : Option DownloadResult := do
  let (.ok result, _) ← (Download.process payload).run.eval schedule.answer schedule.timing.after
    ⟨start, schedule.arrivals.map fun part => Schedule.wait part.1⟩ | none
  return result

theorem Schedule.downloads_of_download {schedule : Schedule} {payload : JobMessage} {start : DateTime}
    {result : DownloadResult} (computed : schedule.download payload start = some result) :
    Downloads schedule payload start result := by
  have sound : ∀ clock op reply, schedule.answer clock op = some reply → schedule.timing.allows clock ⟨op, reply⟩ := by
    intro clock op reply answered
    unfold Schedule.answer at answered
    split at answered
    · exact (Option.some.inj answered).symm
    · trivial
    · trivial
    · split at answered
      · next arrives => exact ⟨arrives, (Option.some.inj answered).symm⟩
      · cases answered
    · cases answered
  unfold Schedule.download at computed
  cases evaluated : (Download.process payload).run.eval schedule.answer schedule.timing.after
      ⟨start, schedule.arrivals.map fun part => Schedule.wait part.1⟩ with
  | none => simp [evaluated] at computed
  | some reached =>
    obtain ⟨outcome, clock⟩ := reached
    cases outcome with
    | error e => simp [evaluated] at computed
    | ok found =>
      simp only [evaluated, Option.bind_eq_bind, Option.bind_some, Option.pure_def, Option.some.injEq] at computed
      subst computed
      exact ⟨clock, Prog.alone_of_eval (fun _ => rfl) sound evaluated⟩

theorem exists_downloads {start : DateTime} (computes : (sampleSchedule.download samplePayload start).isSome = true) :
    ∃ result, Downloads sampleSchedule samplePayload start result := by
  obtain ⟨result, computed⟩ := Option.isSome_iff_exists.mp computes
  exact ⟨result, Schedule.downloads_of_download computed⟩

/-- Begun 10.3 ms and 10.1 ms before the start time. -/
theorem firstByte_sameMillisecond : ∃ result result' : DownloadResult,
    Downloads sampleSchedule samplePayload 10989700000 result ∧
      Downloads sampleSchedule samplePayload 10989900000 result' ∧
      result.timeToFirstByteMs = result'.timeToFirstByteMs := by
  obtain ⟨result, downloads⟩ := @exists_downloads 10989700000 (by decide +kernel)
  obtain ⟨result', downloads'⟩ := @exists_downloads 10989900000 (by decide +kernel)
  exact ⟨result, result', downloads, downloads',
    (firstByte_eq_iff (by decide) (by decide) downloads downloads').mpr (by decide)⟩

/-- Begun eleven seconds and one second before the start time. -/
theorem not_firstByteIndependent : ¬ FirstByteIndependent := by
  intro independent
  obtain ⟨result, downloads⟩ := @exists_downloads 0 (by decide +kernel)
  obtain ⟨result', downloads'⟩ := @exists_downloads 10000000000 (by decide +kernel)
  have same := independent sampleSchedule samplePayload 0 10000000000 result result' (by decide)
    (by decide) downloads downloads'
  rw [downloads.firstByte (by decide), downloads'.firstByte (by decide)] at same
  revert same
  decide

end Bms
