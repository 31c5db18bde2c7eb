import Bms.Protocol.JobQueries

/-! # What a summary is made of

The results of a sub-job are stored with their downloads or their errors, and the summary reads them back by
key. Whatever order they come in and whether or not the logs have been removed, an entry has the speeds of
the downloads, and the sum of their latencies divided by the number of all results.
-/

namespace Bms

open Process Fallible

/-! ## Results of a sub-job -/

def resultsOf (results : List ResultMessage) (subJobId : Uuid) : List ResultMessage :=
  results.filter fun result => result.subJobId = subJobId

/-- The downloads that have succeeded. -/
def downloadsOf (results : List ResultMessage) (subJobId : Uuid) : List DownloadResult :=
  (resultsOf results subJobId).filterMap (·.downloadResult.toOption)

def latenciesOf (results : List ResultMessage) (subJobId : Uuid) : List ℚ :=
  (downloadsOf results subJobId).map (·.timeToFirstByteMs.value)

def speedOf (results : List ResultMessage) (subJobId : Uuid) : ℚ :=
  ((downloadsOf results subJobId).map (·.downloadSpeed.value)).sum

/-- The row of a result, saved at any time. -/
def World.SavedAs (w : World) (result : ResultMessage) (row : WorkerDataRow) : Prop :=
  ∃ now, row = Stmt.savedRow { w with now } result

/-- The rows of the sub-jobs of a job are those of the results. -/
def World.Saved (w : World) (results : List ResultMessage) (jobId : Uuid) : Prop :=
  ∀ subJob ∈ w.subJobsOf jobId, List.Forall₂ w.SavedAs (resultsOf results subJob.id) (w.dataOf subJob.id)

/-- The entry of a sub-job. -/
def reportOf (results : List ResultMessage) (subJobId : Uuid) : DownloadSpeed :=
  ⟨subJobId, speedOf results subJobId, (latenciesOf results subJobId).sum / (resultsOf results subJobId).length⟩

/-! ## Numbers of a stored download -/

variable {w : World} {results : List ResultMessage}

theorem numberAt_float (value : F64) : ((some (f64ToJson value)).getD (.float 0)).asF64?.getD 0 = value.value := by
  cases value <;> rfl

/-- A number is read from a download, and zero from an error. -/
theorem numberAt_savedRow {key : String} {field : DownloadResult → F64}
    (stored : ∀ download, download.toJson.get? key = some (f64ToJson (field download)))
    (missing : ∀ e : DownloadError, e.toJson.get? key = none) (result : ResultMessage) :
    numberAt (Stmt.savedRow w result).download key =
      (result.downloadResult.toOption.map fun download => (field download).value).getD 0 := by
  unfold Stmt.savedRow numberAt
  cases result.downloadResult with
  | ok download =>
    simp only [stored, numberAt_float]
    rfl
  | error e =>
    simp only [missing]
    rfl

/-- What is aggregated of a row reads as the row, but for the logs. -/
theorem numberAt_toWorkerData {extendedLogs : Bool} {row : WorkerDataRow} {data : WorkerData}
    (read : row.toWorkerData? extendedLogs = some data) {key : String} (distinct : key ≠ "second_by_second_logs") :
    numberAt data.download key = numberAt row.download key := by
  cases extendedLogs with
  | true =>
    cases read
    rfl
  | false =>
    obtain ⟨download, removed, read⟩ := Option.bind_eq_some_iff.mp read
    cases read
    unfold numberAt
    rw [Json.get?_of_without? removed distinct]

theorem sum_filterMap {α β : Type} (choose : α → Option β) (value : β → ℚ) (items : List α) :
    (items.map fun item => ((choose item).map value).getD 0).sum = ((items.filterMap choose).map value).sum := by
  induction items with
  | nil => rfl
  | cons item items ih =>
    rw [List.map_cons, List.sum_cons, ih]
    cases chosen : choose item with
    | none => rw [List.filterMap_cons_none chosen, Option.map_none, Option.getD_none, zero_add]
    | some found => rw [List.filterMap_cons_some chosen, List.map_cons, List.sum_cons, Option.map_some, Option.getD_some]

/-- The numbers under a key add up to those of the downloads. -/
theorem sum_numberAt {extendedLogs : Bool} {subJobId : Uuid} {data : List WorkerData} {saved : List ResultMessage}
    (rows : List.Forall₂ w.SavedAs saved (w.dataOf subJobId))
    (aggregated : w.IsWorkerData extendedLogs subJobId data) (key : String) (field : DownloadResult → F64)
    (distinct : key ≠ "second_by_second_logs")
    (stored : ∀ download, download.toJson.get? key = some (f64ToJson (field download)))
    (missing : ∀ e : DownloadError, e.toJson.get? key = none) :
    (data.map fun entry => numberAt entry.download key).sum =
      ((saved.filterMap (·.downloadResult.toOption)).map fun download => (field download).value).sum := by
  obtain ⟨ordered, inOrder, read⟩ := aggregated
  have entries : data.map (fun entry => numberAt entry.download key) =
      ordered.map fun row => numberAt row.download key :=
    (map_eq_map_iff_forall₂.mpr ((map_eq_map_iff_forall₂.mp read).imp fun row entry read =>
      (numberAt_toWorkerData read distinct).symm)).symm
  have downloads : (w.dataOf subJobId).map (fun row => numberAt row.download key) =
      saved.map fun result => (result.downloadResult.toOption.map fun download => (field download).value).getD 0 := by
    refine (map_eq_map_iff_forall₂.mpr (rows.imp fun result row saved => ?_)).symm
    obtain ⟨now, rfl⟩ := saved
    exact (numberAt_savedRow stored missing result).symm
  rw [entries, (inOrder.1.map _).sum_eq, downloads, sum_filterMap]

/-- There is one entry for each result. -/
theorem length_isWorkerData {extendedLogs : Bool} {subJobId : Uuid} {data : List WorkerData} {saved : List ResultMessage}
    (rows : List.Forall₂ w.SavedAs saved (w.dataOf subJobId))
    (aggregated : w.IsWorkerData extendedLogs subJobId data) : data.length = saved.length := by
  obtain ⟨ordered, inOrder, read⟩ := aggregated
  have lengths := congrArg List.length read
  rw [List.length_map, List.length_map] at lengths
  rw [← lengths, inOrder.1.length_eq, rows.length_eq]

/-- The speed and the latency that the handler computes for a sub-job. -/
theorem downloadSpeed_eq {extendedLogs : Bool} {subJob : SubJobWithData}
    (rows : List.Forall₂ w.SavedAs (resultsOf results subJob.id) (w.dataOf subJob.id))
    (aggregated : w.IsWorkerData extendedLogs subJob.id subJob.workerData) :
    subJob.downloadSpeed = reportOf results subJob.id := by
  have speeds := sum_numberAt rows aggregated "download_speed" (·.downloadSpeed) (by decide) (fun _ => rfl) fun _ => rfl
  have latencies := sum_numberAt rows aggregated "time_to_first_byte_ms" (·.timeToFirstByteMs) (by decide)
    (fun _ => rfl) fun _ => rfl
  have count := length_isWorkerData rows aggregated
  rw [SubJobWithData.downloadSpeed, reportOf, speedOf, latenciesOf, downloadsOf, speeds, latencies, count]
  rcases Nat.eq_zero_or_pos (resultsOf results subJob.id).length with none | some
  · rw [none, Nat.cast_zero, if_neg (lt_irrefl _), div_zero]
  · rw [if_pos (by exact_mod_cast some)]

/-! ## The summary -/

/-- The measuring sub-jobs of a job, in the order in which they have been created. -/
def World.Measuring (w : World) (jobId : Uuid) (rows : List SubJobRow) : Prop :=
  InOrder (fun row other : SubJobRow => row.createdAt ≤ other.createdAt)
    ((w.subJobsOf jobId).filter fun row => row.type = .combinedDHP) rows

/-- The summary that has the entries of these sub-jobs. -/
def summaryOf (results : List ResultMessage) (rows : List SubJobRow) : JobSummary where
  maxDownloadSpeed := some ((rows.map fun row => speedOf results row.id).max?.getD 0)
  downloadSpeeds := some (rows.map fun row => reportOf results row.id)
  averageEndLatency := none
  averageGatewayLatency := none

theorem InOrder.filter {ρ : Type} {before : ρ → ρ → Prop} {selected found : List ρ} (ordered : InOrder before selected found)
    (test : ρ → Bool) : InOrder before (selected.filter test) (found.filter test) :=
  ⟨ordered.1.filter test, ordered.2.filter test⟩

/-- Entries whose items agree with the rows are filtered alike. -/
theorem filter_map_eq_of_forall₂ {α β γ : Type} {R : α → β → Prop} {items : List α} {others : List β} {p : α → Bool}
    {q : β → Bool} {f : α → γ} {g : β → γ} (each : List.Forall₂ R items others)
    (same : ∀ item ∈ items, ∀ other, R item other → p item = q other ∧ f item = g other) :
    (others.filter q).map g = (items.filter p).map f := by
  induction each with
  | nil => rfl
  | @cons item other items others first _ ih =>
    obtain ⟨own, rest⟩ := List.forall_mem_cons.mp same
    obtain ⟨tests, values⟩ := own other first
    rw [List.filter_cons, List.filter_cons, tests]
    split
    · rw [List.map_cons, List.map_cons, values, ih rest]
    · exact ih rest

/-- Whatever the query finds has the summary of the results, for an order of the sub-jobs. -/
theorem summary_of_answers {jobId : Uuid} {extendedLogs : Bool} {row : JobRow} {subJobs : List SubJobWithData} {job : Job}
    (saved : w.Saved results jobId)
    (answers : (Query.getJobByIdWithSubjobsAndData jobId extendedLogs).answers w (row, subJobs)) :
    ∃ rows, w.Measuring jobId rows ∧ (JobWithSubJobsWithData.summary ⟨job, subJobs⟩) = summaryOf results rows := by
  obtain ⟨-, ordered, inOrder, each⟩ := answers
  refine ⟨_, inOrder.filter _, ?_⟩
  have entries : (subJobs.filter fun subJob => subJob.type = .combinedDHP).map (·.downloadSpeed) =
      (ordered.filter fun row => row.type = .combinedDHP).map fun row => reportOf results row.id := by
    apply filter_map_eq_of_forall₂ each
    intro row member subJob aggregated
    obtain ⟨same, data⟩ := aggregated
    have id : subJob.id = row.id := congrArg SubJob.id same
    have type : subJob.type = row.type := congrArg SubJob.type same
    refine ⟨by rw [type], ?_⟩
    rw [← id] at data ⊢
    exact (downloadSpeed_eq (id ▸ saved row (inOrder.1.mem_iff.mp member)) data).symm
  rw [JobWithSubJobsWithData.summary, summaryOf, entries, List.map_map]
  rfl

/-- A row of a result can be aggregated, as its download is an object. -/
theorem exists_toWorkerData {result : ResultMessage} {row : WorkerDataRow} (saved : w.SavedAs result row)
    (extendedLogs : Bool) : ∃ data, row.toWorkerData? extendedLogs = some data := by
  obtain ⟨now, rfl⟩ := saved
  unfold WorkerDataRow.toWorkerData? Stmt.savedRow
  cases extendedLogs with
  | true => exact ⟨_, rfl⟩
  | false => cases result.downloadResult <;> exact ⟨_, rfl⟩

theorem exists_isWorkerData {saved : List ResultMessage} {subJobId : Uuid}
    (rows : List.Forall₂ w.SavedAs saved (w.dataOf subJobId)) (extendedLogs : Bool) :
    ∃ data, w.IsWorkerData extendedLogs subJobId data := by
  have ordered := inOrder_mergeSort (fun row other : WorkerDataRow => row.createdAt ≤ other.createdAt)
    (fun _ _ _ => le_trans) (fun _ _ => le_total ..) (w.dataOf subJobId)
  have readable : ∀ row ∈ w.dataOf subJobId, ∃ data, row.toWorkerData? extendedLogs = some data := by
    intro row member
    obtain ⟨result, -, own⟩ := exists_item_of_mem rows member
    exact exists_toWorkerData own extendedLogs
  obtain ⟨data, each⟩ := exists_forall₂ fun row member => readable row (ordered.1.mem_iff.mp member)
  exact ⟨data, _, ordered, map_eq_map_iff_forall₂.mpr each⟩

/-- The query for a job that exists finds something. -/
theorem exists_job {jobId : Uuid} {row : JobRow} (found : w.jobs.find? jobId = some row) (saved : w.Saved results jobId)
    (extendedLogs : Bool) :
    ∃ subJobs, (Query.getJobByIdWithSubjobsAndData jobId extendedLogs).answers w (row, subJobs) := by
  have each (subJob : SubJobRow) (member : subJob ∈ w.subJobsOf jobId) : ∃ read : SubJobWithData,
      read.toSubJob = subJob.toSubJob ∧ w.IsWorkerData extendedLogs subJob.id read.workerData := by
    obtain ⟨data, aggregated⟩ := exists_isWorkerData (saved subJob member) extendedLogs
    exact ⟨⟨subJob.toSubJob, data⟩, rfl, aggregated⟩
  obtain ⟨subJobs, aggregated⟩ := exists_isSubJobs each
  exact ⟨subJobs, found, aggregated⟩

variable {jobId : Uuid} {row : JobRow} {extended : Option Bool}

/-- A job that exists is read if its details decode, with whatever the query finds for it. -/
theorem completes_handleGetJob (found : w.jobs.find? jobId = some row) (saved : w.Saved results jobId)
    {good : GetJobResponse → World → Prop} {bad : ApiError → World → Prop} :
    (handleGetJob jobId extended).Completes tables w good bad ↔ ∀ subJobs,
      (Query.getJobByIdWithSubjobsAndData jobId (extended.getD false)).answers w (row, subJobs) →
        ∃ job, row.toJob? = some job ∧
          good ⟨JobWithSubJobsWithData.summary ⟨job, subJobs⟩, ⟨job, subJobs⟩⟩ w := by
  rw [handleGetJob, completes_bind, completes_mapError, getJobByIdWithSubjobsAndData, completes_bind, completes_query]
  constructor
  · rintro ⟨reads, -, -⟩ subJobs answers
    exact JobRow.completes_read.mp ((completes_bind ..).mp (reads _ answers))
  · intro reads
    obtain ⟨subJobs, answers⟩ := exists_job found saved (extended.getD false)
    refine ⟨?_, fun missing => ?_, fun _ refused => absurd answers (refused _)⟩
    · rintro ⟨other, subJobs⟩ answers
      obtain rfl : row = other := Option.some_injective _ (found.symm.trans answers.1)
      exact (completes_bind ..).mpr (JobRow.completes_read.mpr (reads subJobs answers))
    · cases found.symm.trans missing

/-- A handler that completes has read the job, and a summary of the results has been good. -/
theorem reads_of_completes (found : w.jobs.find? jobId = some row) (saved : w.Saved results jobId)
    {good : JobSummary → Prop}
    (completes : (handleGetJob jobId extended).Completes tables w (fun response _ => good response.summary) fun _ _ => False) :
    row.toJob?.isSome ∧ ∃ rows, w.Measuring jobId rows ∧ good (summaryOf results rows) := by
  obtain ⟨subJobs, answers⟩ := exists_job found saved (extended.getD false)
  obtain ⟨job, read, holds⟩ := (completes_handleGetJob found saved).mp completes subJobs answers
  obtain ⟨rows, measuring, same⟩ := summary_of_answers saved answers
  rw [same] at holds
  exact ⟨read ▸ rfl, rows, measuring, holds⟩

/-- A job that can be read is returned with a summary of the results. -/
theorem completes_of_reads (found : w.jobs.find? jobId = some row) (saved : w.Saved results jobId)
    (readable : row.toJob?.isSome) :
    (handleGetJob jobId extended).Completes tables w
      (fun response _ => ∃ rows, w.Measuring jobId rows ∧ response.summary = summaryOf results rows) fun _ _ => False := by
  obtain ⟨job, read⟩ := Option.isSome_iff_exists.mp readable
  exact (completes_handleGetJob found saved).mpr fun subJobs answers => ⟨job, read, summary_of_answers saved answers⟩

end Bms
