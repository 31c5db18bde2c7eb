import Bms.Model.Replay
import Bms.Protocol.Summaries
import Mathlib.Algebra.Order.Field.Basic
import Mathlib.Tactic.Linarith
import Mathlib.Tactic.Ring

/-! # Average latencies

The handler divides by the number of all results, and a result without a download adds nothing to the sum.
So the average lies between the latencies of the downloads exactly if the failed results are few enough to be
made up for by the spread of the latencies.
-/

namespace Bms

open Process Fallible

/-- An average is not below all latencies and not above all of them. -/
def Between (latencies : List ℚ) (average : ℚ) : Prop :=
  (∃ low ∈ latencies, low ≤ average) ∧ ∃ high ∈ latencies, average ≤ high

/-- A summary has an average of downloads for a sub-job. -/
def AverageOf (results : List ResultMessage) (subJobId : Uuid) (summary : JobSummary) : Prop :=
  ∀ entries ∈ summary.downloadSpeeds, ∀ entry ∈ entries, entry.subJobId = subJobId →
    Between (latenciesOf results subJobId) entry.averageTimeToFirstByteMs

/-- The average that the handler reports for a sub-job is one of its downloads. -/
def AverageReal (w : World) (results : List ResultMessage) (jobId subJobId : Uuid) : Prop :=
  ∀ extended, (handleGetJob jobId extended).Completes tables w
    (fun response _ => AverageOf results subJobId response.summary) fun _ _ => False

/-- All averages are averages of real measurements. -/
def AllAveragesReal : Prop :=
  ∀ (w : World) (results : List ResultMessage) (jobId : Uuid) (row : JobRow) (subJob : SubJobRow),
    w.jobs.find? jobId = some row → w.Saved results jobId → subJob ∈ w.subJobsOf jobId →
      latenciesOf results subJob.id ≠ [] → AverageReal w results jobId subJob.id

/-- The number of results without a download. -/
def failuresOf (results : List ResultMessage) (subJobId : Uuid) : ℕ :=
  (resultsOf results subJobId).countP fun result => ¬ result.downloadResult.toOption.isSome

/-- The failed results, taken at a latency, are made up for by how far the others are from it. -/
structure FewFailures (results : List ResultMessage) (subJobId : Uuid) : Prop where
  low : ∃ low ∈ latenciesOf results subJobId,
    failuresOf results subJobId * low ≤ ((latenciesOf results subJobId).map fun latency => latency - low).sum
  high : ∃ high ∈ latenciesOf results subJobId,
    -(failuresOf results subJobId * high) ≤ ((latenciesOf results subJobId).map fun latency => high - latency).sum

variable {w : World} {results : List ResultMessage} {jobId subJobId : Uuid} {row : JobRow} {subJob : SubJobRow}

theorem length_resultsOf (results : List ResultMessage) (subJobId : Uuid) :
    (resultsOf results subJobId).length = (latenciesOf results subJobId).length + failuresOf results subJobId := by
  rw [latenciesOf, downloadsOf, failuresOf, List.length_map, List.length_filterMap_eq_countP]
  exact List.length_eq_countP_add_countP _

theorem sum_sub_left (value : ℚ) (latencies : List ℚ) :
    (latencies.map fun latency => latency - value).sum = latencies.sum - latencies.length * value := by
  induction latencies with
  | nil => simp
  | cons latency latencies ih =>
    rw [List.map_cons, List.sum_cons, List.sum_cons, ih, List.length_cons, Nat.cast_succ]
    ring

theorem sum_sub_right (value : ℚ) (latencies : List ℚ) :
    (latencies.map fun latency => value - latency).sum = latencies.length * value - latencies.sum := by
  induction latencies with
  | nil => simp
  | cons latency latencies ih =>
    rw [List.map_cons, List.sum_cons, List.sum_cons, ih, List.length_cons, Nat.cast_succ]
    ring

/-- The sum divided by the number of all results lies between the latencies if the failures are few. -/
theorem between_iff (measured : latenciesOf results subJobId ≠ []) :
    Between (latenciesOf results subJobId) (reportOf results subJobId).averageTimeToFirstByteMs ↔
      FewFailures results subJobId := by
  have positive : (0 : ℚ) < (resultsOf results subJobId).length := by
    have some := List.length_pos_of_ne_nil measured
    have count := length_resultsOf results subJobId
    exact_mod_cast (by omega : 0 < (resultsOf results subJobId).length)
  have count : ((resultsOf results subJobId).length : ℚ) =
      (latenciesOf results subJobId).length + failuresOf results subJobId := by
    exact_mod_cast length_resultsOf results subJobId
  have below (low : ℚ) : low ≤ (reportOf results subJobId).averageTimeToFirstByteMs ↔
      failuresOf results subJobId * low ≤ ((latenciesOf results subJobId).map fun latency => latency - low).sum := by
    rw [reportOf, le_div_iff₀ positive, count, sum_sub_left]
    constructor <;> intro le <;> linarith
  have above (high : ℚ) : (reportOf results subJobId).averageTimeToFirstByteMs ≤ high ↔
      -(failuresOf results subJobId * high) ≤
        ((latenciesOf results subJobId).map fun latency => high - latency).sum := by
    rw [reportOf, div_le_iff₀ positive, count, sum_sub_right]
    constructor <;> intro le <;> linarith
  constructor
  · rintro ⟨⟨low, inside, le⟩, high, inside', le'⟩
    exact ⟨⟨low, inside, (below low).mp le⟩, high, inside', (above high).mp le'⟩
  · rintro ⟨⟨low, inside, le⟩, high, inside', le'⟩
    exact ⟨⟨low, inside, (below low).mpr le⟩, high, inside', (above high).mpr le'⟩

/-! ## What is reported -/

/-- A measuring sub-job has an entry. -/
theorem World.Measuring.mem_iff {rows : List SubJobRow} (measuring : w.Measuring jobId rows) {other : SubJobRow} :
    other ∈ rows ↔ other ∈ w.subJobsOf jobId ∧ other.type = .combinedDHP := by
  rw [measuring.1.mem_iff, List.mem_filter, decide_eq_true_iff]

/-- A sub-job of a job is determined by its id. -/
theorem eq_of_id {other : SubJobRow} (member : subJob ∈ w.subJobsOf jobId) (member' : other ∈ w.subJobsOf jobId)
    (same : other.id = subJob.id) : other = subJob :=
  List.inj_on_of_nodup_map w.subJobs.nodup (List.mem_of_mem_filter member') (List.mem_of_mem_filter member) same

theorem AverageReal.few (found : w.jobs.find? jobId = some row) (saved : w.Saved results jobId)
    (member : subJob ∈ w.subJobsOf jobId) (measured : latenciesOf results subJob.id ≠ [])
    (real : AverageReal w results jobId subJob.id) :
    row.toJob?.isSome ∧ (subJob.type = .combinedDHP → FewFailures results subJob.id) := by
  obtain ⟨readable, rows, measuring, holds⟩ := reads_of_completes found saved (real none)
  refine ⟨readable, fun type => ?_⟩
  have entry := List.mem_map_of_mem (f := fun row : SubJobRow => reportOf results row.id)
    (measuring.mem_iff.mpr ⟨member, type⟩)
  exact (between_iff measured).mp (holds _ rfl _ entry rfl)

/-- The average is one of real measurements exactly if the job can be read and the failures are few. -/
theorem averageReal_iff (found : w.jobs.find? jobId = some row) (saved : w.Saved results jobId)
    (member : subJob ∈ w.subJobsOf jobId) (measured : latenciesOf results subJob.id ≠ []) :
    AverageReal w results jobId subJob.id ↔
      row.toJob?.isSome ∧ (subJob.type = .combinedDHP → FewFailures results subJob.id) := by
  constructor
  · exact AverageReal.few found saved member measured
  · rintro ⟨readable, few⟩ extended
    refine Fallible.Completes.mono (completes_of_reads found saved readable) ?_ fun _ _ => id
    rintro response later ⟨rows, measuring, same⟩ entries reported entry inside own
    rw [same] at reported
    cases reported
    obtain ⟨other, ordered, rfl⟩ := List.mem_map.mp inside
    obtain ⟨member', type⟩ := measuring.mem_iff.mp ordered
    obtain rfl := eq_of_id member member' own
    exact (between_iff measured).mpr (few type)

theorem subJobsOf_measuredWith {details : Json} (member : subJob ∈ (measuredWith details results).subJobsOf 1) :
    subJob = ⟨⟨3, 1, .processing, .combinedDHP, .obj [], none⟩, 0⟩ := List.mem_singleton.mp member

/-- The worker comes too late. -/
def lateResult (runId : Uuid) : ResultMessage := .aborted runId 1 3 "w1" "Start time is in the past"

/-- Two downloads, of 100 and 300 ms, and a failure: the average of 133 ms lies between them. -/
theorem averageReal_mixed : AverageReal
    (measuredWith sampleDetails [downloadedResult 6 1 100, downloadedResult 7 1 300, lateResult 8])
    [downloadedResult 6 1 100, downloadedResult 7 1 300, lateResult 8] 1 3 := by
  let results := [downloadedResult 6 1 100, downloadedResult 7 1 300, lateResult 8]
  have saved : (measuredWith sampleDetails results).Saved results 1 := by
    intro subJob member
    obtain rfl := subJobsOf_measuredWith member
    exact .cons ⟨0, rfl⟩ (.cons ⟨0, rfl⟩ (.cons ⟨0, rfl⟩ .nil))
  have latencies : latenciesOf results 3 = [100, 300] := rfl
  have failures : failuresOf results 3 = 1 := rfl
  have few : FewFailures results 3 := by
    refine ⟨⟨100, ?_, ?_⟩, 300, ?_, ?_⟩ <;> rw [latencies]
    · exact List.mem_cons_self ..
    · rw [failures]
      norm_num
    · exact List.mem_cons_of_mem _ (List.mem_singleton_self _)
    · rw [failures]
      norm_num
  have measured : latenciesOf results 3 ≠ [] := latencies ▸ List.cons_ne_nil _ _
  exact (averageReal_iff rfl saved (List.mem_singleton.mpr rfl) measured).mpr ⟨by decide, fun _ => few⟩

/-- A download and a failure: the average is half of the latency. -/
theorem not_allAveragesReal : ¬ AllAveragesReal := by
  intro allReal
  let results := [downloadedResult 6 1 100, lateResult 7]
  have saved : (measuredWith sampleDetails results).Saved results 1 := by
    intro subJob member
    obtain rfl := subJobsOf_measuredWith member
    exact .cons ⟨0, rfl⟩ (.cons ⟨0, rfl⟩ .nil)
  have measured : latenciesOf results 3 ≠ [] := by decide
  have real := allReal (measuredWith sampleDetails results) results 1 _ _ rfl saved (List.mem_singleton.mpr rfl) measured
  obtain ⟨-, few⟩ := AverageReal.few rfl saved (List.mem_singleton.mpr rfl) measured real
  obtain ⟨low, inside, less⟩ := (few rfl).low
  obtain rfl : low = 100 := List.mem_singleton.mp inside
  have latencies : latenciesOf results 3 = [100] := rfl
  have failures : failuresOf results 3 = 1 := rfl
  rw [latencies, failures] at less
  norm_num at less

end Bms
