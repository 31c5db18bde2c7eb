import Bms.Model.JobQueries
import Mathlib.Data.List.Forall2

/-! # What the reading requests find

The queries select rows in the order of a column. Where they can be answered they are answered by such
rows, and a row whose details decode is read without a panic.
-/

namespace Bms

open Process Fallible

section Order

variable {ρ : Type} {selected found other : List ρ}

/-- A selection can be brought into any order. -/
theorem inOrder_mergeSort (before : ρ → ρ → Prop) [DecidableRel before]
    (trans : ∀ a b c, before a b → before b c → before a c) (total : ∀ a b, before a b ∨ before b a)
    (selected : List ρ) :
    InOrder before selected (selected.mergeSort fun row other => decide (before row other)) := by
  refine ⟨List.mergeSort_perm .., ?_⟩
  have sorted : (selected.mergeSort fun row other => decide (before row other)).Pairwise
      fun row other => decide (before row other) = true :=
    List.pairwise_mergeSort (fun a b c => by simpa using trans a b c) (fun a b => by simpa using total a b) selected
  simpa using sorted

/-- An order without ties brings a selection into one order only. -/
theorem InOrder.unique {before : ρ → ρ → Prop} (anti : ∀ a ∈ selected, ∀ b ∈ selected, before a b → before b a → a = b)
    (ordered : InOrder before selected found) (ordered' : InOrder before selected other) : found = other := by
  apply (ordered.1.trans ordered'.1.symm).eq_of_pairwise (fun a b left right => ?_) ordered.2 ordered'.2
  exact anti a (ordered.1.mem_iff.mp left) b (ordered'.1.mem_iff.mp right)

end Order

variable {w : World}

/-- A query is answered by rows if there are any, and it fails otherwise. -/
theorem completes_query {asked : Query} {good : asked.Row → World → Prop} {bad : SqlxError → World → Prop} :
    (attempt (.query asked) id : ReadApi SqlxError asked.Row).Completes tables w good bad ↔
      (∀ row, asked.answers w row → good row w) ∧ (asked.missing w → bad .rowNotFound w) ∧
        (¬ asked.missing w → (∀ row, ¬ asked.answers w row) → ∀ message, bad (.other message) w) := by
  rw [completes_attempt]
  constructor
  · rintro ⟨-, each⟩
    exact ⟨fun row answers => each w (.ok row) rfl answers, fun missing => each w (.error .rowNotFound) rfl missing,
      fun present refused message => each w (.error (.other message)) rfl ⟨present, refused⟩⟩
  · rintro ⟨found, missing, refused⟩
    constructor
    · by_cases absent : asked.missing w
      · exact ⟨w, .error .rowNotFound, rfl, absent⟩
      · by_cases answered : ∃ row, asked.answers w row
        · obtain ⟨row, answers⟩ := answered
          exact ⟨w, .ok row, rfl, answers⟩
        · exact ⟨w, .error (.other ""), rfl, absent, not_exists.mp answered⟩
    · rintro drifted ((_ | message) | row) rfl allowed
      · exact missing allowed
      · exact refused allowed.1 allowed.2 message
      · exact found row allowed

/-- A list of results, one for each item. -/
theorem exists_forall₂ {α β : Type} {R : α → β → Prop} {items : List α} (each : ∀ item ∈ items, ∃ found, R item found) :
    ∃ results, List.Forall₂ R items results := by
  induction items with
  | nil => exact ⟨[], .nil⟩
  | cons item items ih =>
    obtain ⟨first, others⟩ := List.forall_mem_cons.mp each
    obtain ⟨found, holds⟩ := first
    obtain ⟨results, rest⟩ := ih others
    exact ⟨found :: results, .cons holds rest⟩

/-- Each of the others belongs to an item. -/
theorem exists_item_of_mem {α β : Type} {R : α → β → Prop} {items : List α} {others : List β}
    (each : List.Forall₂ R items others) {other : β} (member : other ∈ others) : ∃ item ∈ items, R item other := by
  induction each with
  | nil => cases member
  | cons first _ ih =>
    rcases List.mem_cons.mp member with rfl | member
    · exact ⟨_, List.mem_cons_self, first⟩
    · obtain ⟨item, inside, own⟩ := ih member
      exact ⟨item, List.mem_cons_of_mem _ inside, own⟩

/-- Two lists are mapped to the same if their items are, one by one. -/
theorem map_eq_map_iff_forall₂ {α β γ : Type} {f : α → γ} {g : β → γ} {items : List α} {others : List β} :
    items.map f = others.map g ↔ List.Forall₂ (fun item other => f item = g other) items others := by
  rw [← List.forall₂_map_right_iff (f := g), ← List.forall₂_map_left_iff (f := f), List.forall₂_eq_eq_eq]

theorem exists_isSubJobs {α : Type} {aggregates : SubJobRow → α → Prop} {jobId : Uuid}
    (each : ∀ subJob ∈ w.subJobsOf jobId, ∃ found, aggregates subJob found) :
    ∃ found, w.IsSubJobs aggregates jobId found := by
  have ordered := inOrder_mergeSort (fun row other : SubJobRow => row.createdAt ≤ other.createdAt)
    (fun _ _ _ => le_trans) (fun _ _ => le_total ..) (w.subJobsOf jobId)
  obtain ⟨found, aggregated⟩ := exists_forall₂ fun subJob member => each subJob (ordered.1.mem_iff.mp member)
  exact ⟨found, _, ordered, aggregated⟩

/-- A page whose offset is not negative can be answered. -/
theorem exists_jobs {page limit : ℤ} (positive : 0 ≤ limit) (skips : 0 ≤ Query.offset page limit) :
    ∃ found, (Query.getJobsWithSubjobs page limit).answers w found := by
  have ordered := inOrder_mergeSort (fun row other : JobRow => other.createdAt ≤ row.createdAt)
    (fun _ _ _ first second => second.trans first) (fun _ _ => le_total ..) w.jobs.rows
  have aggregates (row : JobRow) : ∃ entry : JobRow × List SubJob,
      entry.1 = row ∧ w.IsSubJobs (fun subJob read => read = subJob.toSubJob) row.id entry.2 := by
    have own : ∃ subJobs : List SubJob, w.IsSubJobs (fun subJob read => read = subJob.toSubJob) row.id subJobs :=
      exists_isSubJobs fun subJob _ => ⟨subJob.toSubJob, rfl⟩
    obtain ⟨subJobs, own⟩ := own
    exact ⟨(row, subJobs), rfl, own⟩
  obtain ⟨found, each⟩ := exists_forall₂ fun row _ => aggregates row
  exact ⟨found, positive, skips, _, ordered, each⟩

/-! ## Conversions -/

section Conversions

variable {ε : Type} {bad : ε → World → Prop}

/-- A row is read if its details decode; otherwise the conversion panics. -/
theorem JobRow.completes_read {row : JobRow} {good : Job → World → Prop} :
    (row.read : ReadApi ε Job).Completes tables w good bad ↔ ∃ job, row.toJob? = some job ∧ good job w := by
  rw [JobRow.read, completes_bind, JobDetails.fromValue, JobRow.toJob?]
  cases JobDetails.ofJson? row.details with
  | none =>
    constructor
    · rintro ⟨⟨_, reply, -⟩, -⟩
      exact reply.elim
    · rintro ⟨job, none, -⟩
      cases none
  | some details =>
    constructor
    · intro holds
      exact ⟨_, rfl, holds⟩
    · rintro ⟨job, read, holds⟩
      cases read
      exact holds

/-- Jobs are read if the details of all of them decode. -/
theorem completes_readJobs {found : List (JobRow × List SubJob)} {good : List JobWithSubJobs → World → Prop}
    {bad : SqlxError → World → Prop} : (readJobs found).Completes tables w good bad ↔
      ∃ jobs, List.Forall₂ (fun entry job => entry.1.toJob? = some job.job ∧ entry.2 = job.subJobs) found jobs ∧
        good jobs w := by
  induction found generalizing good with
  | nil =>
    constructor
    · intro holds
      exact ⟨[], .nil, holds⟩
    · rintro ⟨jobs, ⟨⟩, holds⟩
      exact holds
  | cons entry found ih =>
    obtain ⟨row, subJobs⟩ := entry
    rw [readJobs, completes_bind, JobRow.completes_read]
    constructor
    · rintro ⟨job, read, rest⟩
      obtain ⟨jobs, each, holds⟩ := ih.mp ((completes_bind ..).mp rest)
      exact ⟨⟨job, subJobs⟩ :: jobs, .cons ⟨read, rfl⟩ each, holds⟩
    · rintro ⟨jobs, each, holds⟩
      cases each with
      | cons first rest =>
        obtain ⟨read, rfl⟩ := first
        exact ⟨_, read, (completes_bind ..).mpr (ih.mpr ⟨_, rest, holds⟩)⟩

end Conversions

end Bms
