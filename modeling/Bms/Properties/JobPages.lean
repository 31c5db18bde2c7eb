import Bms.Data.Slice
import Bms.Model.Replay
import Bms.Protocol.JobQueries

/-! # Pages of jobs

The handler raises every limit to at least 100 and the repository multiplies the page by the raised
limit, without a check. So a page of a smaller limit starts at another position and is longer than the
request asks for, and a product beyond 64 bits wraps. From a limit of 100 on, the pages put together have
every job once.
-/

namespace Bms

open Process Fallible

/-- The jobs, newest first. -/
def World.newestFirst (w : World) : List JobRow :=
  w.jobs.rows.mergeSort fun row other => decide (other.createdAt ≤ row.createdAt)

/-- The handler returns the jobs at the positions of the page, or an error if the position of the first
one is not representable. -/
def Paged (w : World) (page limit : ℤ) : Prop :=
  (handleGetJobs (some page) (some limit)).Completes tables w
    (fun found _ => found.map (fun entry => some entry.job) =
      (w.newestFirst.slice (page * limit).toNat limit.toNat).map JobRow.toJob?)
    fun _ _ => ¬ IsI64 (page * limit)

/-- No two jobs have been created at the same time. -/
def World.Distinct (w : World) : Prop := (w.jobs.rows.map (·.createdAt)).Nodup

/-- Every page of every limit is right. -/
def AllPaged : Prop :=
  ∀ (w : World) (page limit : ℤ), w.Distinct → 0 ≤ page → IsI64 page → 1 ≤ limit → IsI64 limit → Paged w page limit

/-- The product of the page and the raised limit wraps to a negative number only where the position is not
representable either. Else all jobs that are read have details that decode, and the product is the position
and the page is not cut short, or there is nothing to return. -/
def PageFits (w : World) (page limit : ℤ) : Prop :=
  if 2 ^ 63 ≤ page * max limit 100 % 2 ^ 64 then ¬ IsI64 (page * limit)
  else
    (∀ row ∈ w.newestFirst.slice (page * max limit 100 % 2 ^ 64).toNat (max limit 100).toNat, row.toJob?.isSome) ∧
      ((w.jobs.rows.length ≤ page * limit ∧ w.jobs.rows.length ≤ page * max limit 100 % 2 ^ 64) ∨
        (page * max limit 100 % 2 ^ 64 = page * limit ∧ (100 ≤ limit ∨ w.jobs.rows.length ≤ page * limit + limit)))

/-! ## What the handler returns -/

variable {w : World} {page limit : ℤ}

theorem newestFirst_inOrder (w : World) :
    InOrder (fun row other : JobRow => other.createdAt ≤ row.createdAt) w.jobs.rows w.newestFirst :=
  inOrder_mergeSort (fun row other : JobRow => other.createdAt ≤ row.createdAt)
    (fun _ _ _ first second => second.trans first) (fun _ _ => le_total ..) w.jobs.rows

theorem length_newestFirst (w : World) : w.newestFirst.length = w.jobs.rows.length :=
  (newestFirst_inOrder w).1.length_eq

theorem nodup_newestFirst (w : World) : (w.newestFirst.map (·.id)).Nodup :=
  ((newestFirst_inOrder w).1.map _).nodup_iff.mpr w.jobs.nodup

/-- Without ties there is one order only, and what is found are the rows of a slice. -/
theorem World.Distinct.found (distinct : w.Distinct) {found : List (JobRow × List SubJob)}
    (answers : (Query.getJobsWithSubjobs page limit).answers w found) :
    found.map (·.1) = w.newestFirst.slice (Query.offset page limit).toNat limit.toNat := by
  obtain ⟨-, -, rows, ordered, each⟩ := answers
  have same : rows = w.newestFirst := ordered.unique (fun row member other member' le ge =>
    List.inj_on_of_nodup_map distinct member member' (le_antisymm ge le)) (newestFirst_inOrder w)
  have rows := map_eq_map_iff_forall₂ (f := id).mpr (each.imp fun _ _ aggregated => aggregated.1.symm)
  rw [← same, ← rows, List.map_id, List.slice]

/-- Rows that are read give jobs with their ids. -/
theorem map_id_toJob? {rows : List JobRow} (readable : ∀ row ∈ rows, row.toJob?.isSome) :
    (rows.map JobRow.toJob?).map (Option.map Job.id) = (rows.map (·.id)).map some := by
  rw [List.map_map, List.map_map]
  apply List.map_congr_left
  intro row member
  obtain ⟨job, read⟩ := Option.isSome_iff_exists.mp (readable row member)
  obtain ⟨details, -, rfl⟩ := Option.map_eq_some_iff.mp read
  exact congrArg (Option.map Job.id) read

/-- Slices of rows that are read are equal if the jobs are. -/
theorem slice_eq_of_jobs_eq {start start' count count' : ℕ} (some : 0 < count) (some' : 0 < count')
    (readable : ∀ row ∈ w.newestFirst.slice start count, row.toJob?.isSome)
    (same : (w.newestFirst.slice start count).map JobRow.toJob? =
      (w.newestFirst.slice start' count').map JobRow.toJob?) :
    w.newestFirst.slice start count = w.newestFirst.slice start' count' := by
  have readable' : ∀ row ∈ w.newestFirst.slice start' count', row.toJob?.isSome := by
    intro row member
    obtain ⟨other, member', read⟩ := List.mem_map.mp (same ▸ List.mem_map_of_mem member)
    exact read ▸ readable other member'
  have ids := congrArg (List.map (Option.map Job.id)) same
  rw [map_id_toJob? readable, map_id_toJob? readable'] at ids
  have keys := List.map_injective_iff.mpr (Option.some_injective _) ids
  exact List.slice_eq_of_map_eq (nodup_newestFirst w) some some' keys

/-- The jobs that are read are those of the rows. -/
theorem map_job_of_read {found : List (JobRow × List SubJob)} {entries : List JobWithSubJobs}
    (each : List.Forall₂ (fun entry job => entry.1.toJob? = some job.job ∧ entry.2 = job.subJobs) found entries) :
    entries.map (fun entry => some entry.job) = (found.map (·.1)).map JobRow.toJob? := by
  rw [List.map_map]
  exact (map_eq_map_iff_forall₂.mpr (each.imp fun _ _ read => read.1)).symm

/-- The jobs that are found are returned if their details decode. -/
theorem World.Distinct.completes_found (distinct : w.Distinct) {found : List (JobRow × List SubJob)}
    {jobs : List (Option Job)} {bad : SqlxError → World → Prop}
    (answers : (Query.getJobsWithSubjobs page limit).answers w found) :
    (readJobs found).Completes tables w (fun entries _ => entries.map (fun entry => some entry.job) = jobs) bad ↔
      (∀ row ∈ w.newestFirst.slice (Query.offset page limit).toNat limit.toNat, row.toJob?.isSome) ∧
        (w.newestFirst.slice (Query.offset page limit).toNat limit.toNat).map JobRow.toJob? = jobs := by
  rw [completes_readJobs, ← distinct.found answers]
  constructor
  · rintro ⟨entries, each, same⟩
    refine ⟨fun row member => ?_, (map_job_of_read each).symm.trans same⟩
    have inside : row.toJob? ∈ (found.map (·.1)).map JobRow.toJob? := List.mem_map_of_mem member
    rw [← map_job_of_read each] at inside
    obtain ⟨entry, -, read⟩ := List.mem_map.mp inside
    rw [← read]
    rfl
  · rintro ⟨readable, rfl⟩
    have reads (entry : JobRow × List SubJob) (member : entry ∈ found) :
        ∃ job : JobWithSubJobs, entry.1.toJob? = some job.job ∧ entry.2 = job.subJobs := by
      obtain ⟨job, read⟩ := Option.isSome_iff_exists.mp (readable entry.1 (List.mem_map_of_mem member))
      exact ⟨⟨job, entry.2⟩, read, rfl⟩
    obtain ⟨entries, each⟩ := exists_forall₂ reads
    exact ⟨entries, each, map_job_of_read each⟩

/-- The handler returns a slice of the rows if their details decode, or an error if the database refuses the
offset. -/
theorem paged_iff_slice (distinct : w.Distinct) (some : 1 ≤ limit) : Paged w page limit ↔
    if 0 ≤ Query.offset page (max limit 100) then
      (∀ row ∈ w.newestFirst.slice (Query.offset page (max limit 100)).toNat (max limit 100).toNat, row.toJob?.isSome) ∧
        w.newestFirst.slice (Query.offset page (max limit 100)).toNat (max limit 100).toNat =
          w.newestFirst.slice (page * limit).toNat limit.toNat
    else ¬ IsI64 (page * limit) := by
  have positive : 0 ≤ max limit 100 := by omega
  rw [Paged, handleGetJobs, completes_mapError, getJobsWithSubjobs, completes_bind]
  simp only [Option.getD_some]
  rw [completes_query]
  split
  · next skips =>
    obtain ⟨found, answers⟩ := exists_jobs positive skips
    constructor
    · rintro ⟨returned, -, -⟩
      obtain ⟨readable, same⟩ := (distinct.completes_found answers).mp (returned found answers)
      exact ⟨readable, slice_eq_of_jobs_eq (by omega) (by omega) readable same⟩
    · rintro ⟨readable, same⟩
      refine ⟨fun found answers => ?_, False.elim, fun _ refused => absurd answers (refused found)⟩
      exact (distinct.completes_found answers).mpr ⟨readable, congrArg _ same⟩
  · next refused =>
    have unanswered (found : List (JobRow × List SubJob)) :
        ¬ (Query.getJobsWithSubjobs page (max limit 100)).answers w found := fun answers => refused answers.2.1
    constructor
    · rintro ⟨-, -, failed⟩
      exact failed not_false unanswered ""
    · intro wide
      exact ⟨fun found answers => absurd answers (unanswered found), False.elim, fun _ _ _ => wide⟩

theorem offset_eq (page limit : ℤ) : Query.offset page limit =
    if 2 ^ 63 ≤ page * limit % 2 ^ 64 then page * limit % 2 ^ 64 - 2 ^ 64 else page * limit % 2 ^ 64 := by
  rw [Query.offset, castI64, Int.bmod]
  split <;> split <;> omega

/-- A page is right exactly if it fits. -/
theorem paged_iff (distinct : w.Distinct) (start : 0 ≤ page) (some : 1 ≤ limit) :
    Paged w page limit ↔ PageFits w page limit := by
  have position : 0 ≤ page * limit := Int.mul_nonneg start (by omega)
  have rest : 0 ≤ page * max limit 100 % 2 ^ 64 := Int.emod_nonneg _ (by decide)
  have below : page * max limit 100 % 2 ^ 64 < 2 ^ 64 := Int.emod_lt_of_pos _ (by decide)
  rw [paged_iff_slice distinct some, offset_eq, PageFits]
  generalize page * max limit 100 % 2 ^ 64 = skipped at rest below ⊢
  generalize page * limit = first at position ⊢
  split
  · next wraps =>
    rw [if_neg (by omega)]
  · next fits =>
    rw [List.slice_eq_iff ((nodup_newestFirst w).of_map _) (by omega) (by omega), length_newestFirst]
    refine and_congr_right fun _ => ?_
    omega

/-- Two jobs, of which the second is newer. -/
def twoJobsWorld : World := { sampleWorld .online with
  jobs := (Table.empty.insert
    ⟨1, "http://host/file", "eu", .pending, (JobDetails.new 0 10 1 none none 1000 100).toJson, 0⟩).insert
    ⟨2, "http://host/file", "eu", .pending, (JobDetails.new 0 10 1 none none 1000 100).toJson, 1⟩ }

theorem distinct_twoJobs : twoJobsWorld.Distinct := by
  unfold World.Distinct
  decide

/-- The first page of the default limit. -/
theorem paged_twoJobs : Paged twoJobsWorld 0 100 := by
  refine (paged_iff distinct_twoJobs (by decide) (by decide)).mpr ⟨fun row member => ?_, .inr ⟨rfl, .inl (by decide)⟩⟩
  have readable : ∀ row ∈ twoJobsWorld.jobs.rows, row.toJob?.isSome := by decide
  exact readable row ((newestFirst_inOrder _).1.mem_iff.mp (List.mem_of_mem_drop (List.mem_of_mem_take member)))

/-- A page of one job has both jobs. -/
theorem not_allPaged : ¬ AllPaged := by
  intro paged
  have page := paged twoJobsWorld 0 1 distinct_twoJobs le_rfl ⟨by decide, by decide⟩ le_rfl ⟨by decide, by decide⟩
  obtain ⟨-, slices⟩ : _ ∧ _ := if_pos (show 0 ≤ Query.offset 0 (max 1 100) by decide) ▸
    (paged_iff_slice distinct_twoJobs le_rfl).mp page
  rw [List.slice_eq_iff ((nodup_newestFirst _).of_map _) (by decide) (by decide), length_newestFirst] at slices
  revert slices
  decide

end Bms
