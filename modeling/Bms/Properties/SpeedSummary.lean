import Bms.Model.Migrations
import Bms.Properties.ResultRedelivery
import Bms.Protocol.Summaries

/-! # Speeds in the summary

For a job that can be read, the summary has one entry for each measuring sub-job, in the order in which they
have been created, with the sum of the speeds of its downloads, and the greatest of them. The extended logs
make no difference.
-/

namespace Bms

open Process Fallible

/-- The greatest of the speeds, or zero if there are none. -/
def Greatest (speeds : List ℚ) (greatest : ℚ) : Prop :=
  (speeds = [] ∧ greatest = 0) ∨ greatest ∈ speeds ∧ ∀ speed ∈ speeds, speed ≤ greatest

/-- The entries are those of the measuring sub-jobs in their order, each with the speeds of its downloads. -/
structure SumsUp (w : World) (results : List ResultMessage) (jobId : Uuid) (summary : JobSummary) : Prop where
  entries : ∃ rows, w.Measuring jobId rows ∧
    summary.downloadSpeeds.map (List.map fun entry => (entry.subJobId, entry.downloadSpeed)) =
      some (rows.map fun row => (row.id, speedOf results row.id))
  greatest : ∃ speeds greatest, summary.downloadSpeeds.map (List.map (·.downloadSpeed)) = some speeds ∧
    summary.maxDownloadSpeed = some greatest ∧ Greatest speeds greatest

/-- A response of the handler. -/
def Responds (w : World) (jobId : Uuid) (extended : Option Bool) (response : GetJobResponse) : Prop :=
  Alone tables w (handleGetJob jobId extended).run w (.ret (.ok response))

/-- The handler returns the summary of the results, the same with the extended logs and without; where sub-jobs
have been created at the same time their entries may change places. -/
structure Summarized (w : World) (results : List ResultMessage) (jobId : Uuid) : Prop where
  sums : ∀ extended, (handleGetJob jobId extended).Completes tables w
    (fun response _ => SumsUp w results jobId response.summary) fun _ _ => False
  greatest : ∀ extended extended' response response', Responds w jobId extended response →
    Responds w jobId extended' response' → response.summary.maxDownloadSpeed = response'.summary.maxDownloadSpeed
  entries : ∀ extended extended' response response', Responds w jobId extended response →
    Responds w jobId extended' response' → ∃ entries entries', response.summary.downloadSpeeds = some entries ∧
      response'.summary.downloadSpeeds = some entries' ∧ entries.Perm entries' ∧
        (((w.subJobsOf jobId).map (·.createdAt)).Nodup → entries = entries')

/-- Every job is summarized. -/
def AllSummarized : Prop :=
  ∀ (w : World) (results : List ResultMessage) (jobId : Uuid), (w.jobs.find? jobId).isSome → w.Saved results jobId →
    Summarized w results jobId

variable {w : World} {results : List ResultMessage} {jobId : Uuid} {row : JobRow} {rows rows' : List SubJobRow}

theorem greatest_max? (speeds : List ℚ) : Greatest speeds (speeds.max?.getD 0) := by
  cases found : speeds.max? with
  | none => exact .inl ⟨List.max?_eq_none_iff.mp found, rfl⟩
  | some greatest => exact .inr (List.max?_eq_some_iff.mp found)

theorem sumsUp_summaryOf (measuring : w.Measuring jobId rows) : SumsUp w results jobId (summaryOf results rows) := by
  constructor
  · refine ⟨rows, measuring, ?_⟩
    rw [summaryOf, Option.map_some, List.map_map]
    rfl
  · refine ⟨_, _, ?_, rfl, greatest_max? _⟩
    rw [summaryOf, Option.map_some, List.map_map]
    rfl

/-- The greatest speed does not depend on the order of the entries. -/
theorem Greatest.unique {speeds speeds' : List ℚ} {greatest greatest' : ℚ} (same : speeds.Perm speeds')
    (first : Greatest speeds greatest) (second : Greatest speeds' greatest') : greatest = greatest' := by
  obtain ⟨rfl, rfl⟩ | ⟨inside, above⟩ := first
  · obtain ⟨-, rfl⟩ | ⟨inside', -⟩ := second
    · rfl
    · exact absurd (same.mem_iff.mpr inside') List.not_mem_nil
  · obtain ⟨rfl, -⟩ | ⟨inside', above'⟩ := second
    · exact absurd (same.mem_iff.mp inside) List.not_mem_nil
    · exact le_antisymm (above' greatest (same.mem_iff.mp inside)) (above greatest' (same.mem_iff.mpr inside'))

theorem summary_of_responds (found : w.jobs.find? jobId = some row) (saved : w.Saved results jobId)
    (readable : row.toJob?.isSome) {extended : Option Bool} {response : GetJobResponse}
    (responds : Responds w jobId extended response) :
    ∃ rows, w.Measuring jobId rows ∧ response.summary = summaryOf results rows :=
  Prog.Ensures.alone (Prog.Completes.ensures (completes_of_reads found saved readable)) responds

theorem World.Measuring.perm (first : w.Measuring jobId rows) (second : w.Measuring jobId rows') : rows.Perm rows' :=
  first.1.trans second.1.symm

/-- There is one order if no two sub-jobs have been created at the same time. -/
theorem World.Measuring.unique (distinct : ((w.subJobsOf jobId).map (·.createdAt)).Nodup)
    (first : w.Measuring jobId rows) (second : w.Measuring jobId rows') : rows = rows' := by
  apply InOrder.unique (fun row member other member' le ge => ?_) first second
  exact List.inj_on_of_nodup_map distinct (List.mem_of_mem_filter member) (List.mem_of_mem_filter member')
    (le_antisymm le ge)

/-- A job is summarized exactly if its details decode. -/
theorem summarized_iff (found : w.jobs.find? jobId = some row) (saved : w.Saved results jobId) :
    Summarized w results jobId ↔ row.toJob?.isSome := by
  constructor
  · intro summarized
    exact (reads_of_completes found saved (summarized.sums none)).1
  · intro readable
    have summaries {extended : Option Bool} {response : GetJobResponse} (responds : Responds w jobId extended response) :
        ∃ rows, w.Measuring jobId rows ∧ response.summary = summaryOf results rows :=
      summary_of_responds found saved readable responds
    constructor
    · intro extended
      refine (completes_of_reads found saved readable).mono ?_ fun _ _ => id
      rintro response later ⟨rows, measuring, same⟩
      rw [same]
      exact sumsUp_summaryOf measuring
    · intro extended extended' response response' responds responds'
      obtain ⟨rows, measuring, same⟩ := summaries responds
      obtain ⟨rows', measuring', same'⟩ := summaries responds'
      rw [same, same']
      exact congrArg some (Greatest.unique ((measuring.perm measuring').map _) (greatest_max? _) (greatest_max? _))
    · intro extended extended' response response' responds responds'
      obtain ⟨rows, measuring, same⟩ := summaries responds
      obtain ⟨rows', measuring', same'⟩ := summaries responds'
      rw [same, same']
      refine ⟨_, _, rfl, rfl, (measuring.perm measuring').map _, fun distinct => ?_⟩
      rw [measuring.unique distinct measuring']

/-- Results that are delivered once are saved in the rows of their sub-jobs. -/
theorem DeliversAll.saved {later : World} {deliveries : List Delivery} (all : DeliversAll w deliveries later)
    (empty : w.workerData.rows = []) (once : DeliveredOnce w deliveries) (jobId : Uuid) :
    later.Saved (deliveries.map (·.2)) jobId := by
  intro subJob _
  have saved : List.Forall₂ later.SavedAs (deliveries.map (·.2)) later.workerData.rows := by
    rw [List.forall₂_map_left_iff]
    exact (all.rows_of_empty empty once).imp fun _ _ own => own
  refine List.rel_filter (fun result row own => ?_) saved
  obtain ⟨now, rfl⟩ := own
  rfl

/-- Two downloads and a failure. -/
theorem summarized_three : Summarized
    (measuredWith sampleDetails [downloadedResult 6 1 100, downloadedResult 7 2 80, .aborted 8 1 3 "w1" "Failed"])
    [downloadedResult 6 1 100, downloadedResult 7 2 80, .aborted 8 1 3 "w1" "Failed"] 1 := by
  have saved : (measuredWith sampleDetails
      [downloadedResult 6 1 100, downloadedResult 7 2 80, .aborted 8 1 3 "w1" "Failed"]).Saved
      [downloadedResult 6 1 100, downloadedResult 7 2 80, .aborted 8 1 3 "w1" "Failed"] 1 := by
    intro subJob member
    obtain rfl := List.mem_singleton.mp member
    exact .cons ⟨0, rfl⟩ (.cons ⟨0, rfl⟩ (.cons ⟨0, rfl⟩ .nil))
  exact (summarized_iff rfl saved).mpr (by decide)

/-- An old job without details, as the migration leaves it, cannot be read. -/
theorem not_allSummarized : ¬ AllSummarized := by
  intro summarized
  let old : OldJobRow := ⟨1, none, none, none, 0⟩
  let w := (sampleWorld .online).migrated (Table.empty.insert old)
  have found : w.jobs.find? 1 = some old.migrate := rfl
  have saved : w.Saved [] 1 := fun subJob member => absurd member List.not_mem_nil
  have sums := (summarized w [] 1 rfl saved).sums none
  obtain ⟨readable, -⟩ := reads_of_completes found saved sums
  cases readable

end Bms
