import Bms.Model.Migrations
import Bms.Model.Replay
import Bms.Protocol.Details
import Bms.Protocol.JobQueries

/-! # Rows that can be read back

Details that the scheduler writes decode, and setting the number of workers keeps them so. The migration
gives old rows empty details and leaves what they had, so a row can be read exactly if its own details decode,
or decode with a number of workers once that has been set.
-/

namespace Bms

open Process Fallible

/-- The conversion of details does not panic. -/
def Converts (details : Json) : Prop :=
  (JobDetails.fromValue details : ReadApi SqlxError JobDetails).run.Only fun op => op ≠ Reading.panic

/-- The statements that write to the table of jobs; every number in the details fits its type. -/
def Stmt.WritesJobs : Stmt → Prop
  | .createJob _ _ _ _ details => details.InRange
  | .updateJobStatus .. | .updateJobWorkersCount .. => True
  | _ => False

/-- These statements succeed, one after the other. -/
inductive History : World → List Stmt → World → Prop
  | nil (w : World) : History w [] w
  | cons {w later : World} {now : DateTime} {stmt : Stmt} {row : stmt.Row} {stmts : List Stmt} : stmt.WritesJobs →
      stmt.answers { w with now } row → History (Stmt.run { w with now } stmt row) stmts later →
      History w (stmt :: stmts) later

/-- Every row can be read, whatever has been in the table before the migration. -/
def AllReadable : Prop :=
  ∀ (w : World) (olds : Table OldJobRow.id) (stmts : List Stmt) (later : World),
    History (w.migrated olds) stmts later → ∀ row ∈ later.jobs.rows, Converts row.details

/-- The numbers of workers that are set for a job. -/
def countsOf (jobId : Uuid) (stmts : List Stmt) : List ℕ :=
  stmts.filterMap fun
    | .updateJobWorkersCount other count => if other = jobId then some count else none
    | _ => none

/-- An object that decodes with a number of workers. -/
def TakesCount (details : Json) : Prop :=
  ∃ fields, details = .obj fields ∧ JobDetails.ofFields (details.get? "start_range") (details.get? "end_range")
    (details.get? "target_worker_count") none (details.get? "entity") (details.get? "note")
    (details.get? "log_interval_ms") (details.get? "size_mb") ≠ none

/-- The details decode, with the number of workers that they have or, if one is set, with any. -/
def Readable (details : Json) (counts : List ℕ) : Prop :=
  (counts = [] → JobDetails.ofJson? details ≠ none) ∧ (counts ≠ [] → TakesCount details)

theorem converts_iff {details : Json} : Converts details ↔ JobDetails.ofJson? details ≠ none := by
  unfold Converts JobDetails.fromValue
  cases JobDetails.ofJson? details with
  | none => exact ⟨fun only => absurd rfl only.1, fun absurd => (absurd rfl).elim⟩
  | some decoded => exact ⟨fun _ => Option.some_ne_none _, fun _ => trivial⟩

/-! ## Setting the number of workers -/

/-- Set the number of workers of details. -/
def setCount (details : Json) (count : ℕ) : Json := details.merge (.obj [("workers_count", .int (castI64 count))])

/-- Whether details decode does not depend on the number of workers. -/
theorem ofFields_count {startRange endRange target entity note log size : Option Json} {count : ℤ} (range : IsI64 count) :
    JobDetails.ofFields startRange endRange target (some (.int count)) entity note log size ≠ none ↔
      JobDetails.ofFields startRange endRange target none entity note log size ≠ none := by
  have present : JobDetails.optional Json.asI64? (some (.int count)) = some (some count) :=
    congrArg (Option.map some) (JobDetails.asI64?_int range)
  simp only [Option.ne_none_iff_exists', JobDetails.ofFields_eq_some_iff]
  constructor
  · rintro ⟨details, start, stop, target, -, rest⟩
    exact ⟨{ details with workersCount := none }, start, stop, target, rfl, rest⟩
  · rintro ⟨details, start, stop, target, -, rest⟩
    exact ⟨{ details with workersCount := some count }, start, stop, target, present, rest⟩

/-- An array that ends with an object does not decode. -/
theorem ofJson?_append_obj (items : List Json) (fields : List (String × Json)) :
    JobDetails.ofJson? (.arr (items ++ [.obj fields])) = none := by
  unfold JobDetails.ofJson?
  split
  · next same => cases same
  · next same =>
    have last := congrArg List.getLast? (Json.arr.inj same)
    rw [List.getLast?_concat] at last
    cases last
    rw [← Option.not_isSome_iff_eq_none, Option.isSome_iff_exists]
    rintro ⟨details, decodes⟩
    obtain ⟨-, -, -, -, -, -, -, size⟩ := JobDetails.ofFields_eq_some_iff.mp decodes
    cases size
  · rfl

theorem get?_setCount (fields : List (String × Json)) (count : ℕ) {key : String} (other : key ≠ "workers_count") :
    (setCount (.obj fields) count).get? key = (Json.obj fields).get? key :=
  Json.get?_set_ne (.obj fields) (.int (castI64 count)) other

theorem takesCount_obj {fields : List (String × Json)} : TakesCount (.obj fields) ↔
    JobDetails.ofFields ((Json.obj fields).get? "start_range") ((Json.obj fields).get? "end_range")
      ((Json.obj fields).get? "target_worker_count") none ((Json.obj fields).get? "entity")
      ((Json.obj fields).get? "note") ((Json.obj fields).get? "log_interval_ms")
      ((Json.obj fields).get? "size_mb") ≠ none := by
  constructor
  · rintro ⟨_, -, decodes⟩
    exact decodes
  · intro decodes
    exact ⟨fields, rfl, decodes⟩

/-- Only an object takes a number of workers; anything else becomes an array. -/
theorem setCount_cases (details : Json) (count : ℕ) : (∃ fields, details = .obj fields) ∨
    (¬ TakesCount details ∧ ∃ items fields, setCount details count = .arr (items ++ [.obj fields])) := by
  cases details with
  | obj fields => exact .inl ⟨fields, rfl⟩
  | arr items =>
    refine .inr ⟨?_, items, _, rfl⟩
    rintro ⟨_, same, -⟩
    cases same
  | _ =>
    refine .inr ⟨?_, [_], _, rfl⟩
    rintro ⟨_, same, -⟩
    cases same

theorem takesCount_setCount {details : Json} {count : ℕ} : TakesCount (setCount details count) ↔ TakesCount details := by
  obtain ⟨fields, rfl⟩ | ⟨fails, items, fields, array⟩ := setCount_cases details count
  · have object : ∃ other, setCount (.obj fields) count = .obj other := ⟨_, rfl⟩
    obtain ⟨other, object⟩ := object
    rw [object, takesCount_obj, takesCount_obj, ← object]
    simp only [get?_setCount, ne_eq, String.reduceEq, not_false_eq_true]
  · refine ⟨?_, fun takes => absurd takes fails⟩
    rw [array]
    rintro ⟨_, same, -⟩
    cases same

/-- With a number of workers an object decodes or not, and nothing else does. -/
theorem decodes_setCount {details : Json} {count : ℕ} :
    JobDetails.ofJson? (setCount details count) ≠ none ↔ TakesCount details := by
  obtain ⟨fields, rfl⟩ | ⟨fails, items, fields, array⟩ := setCount_cases details count
  · have object : ∃ other, setCount (.obj fields) count = .obj other := ⟨_, rfl⟩
    have set : (setCount (.obj fields) count).get? "workers_count" = some (.int (castI64 count)) :=
      Json.get?_set_self ..
    have kept : TakesCount (setCount (.obj fields) count) ↔ TakesCount (.obj fields) := takesCount_setCount
    obtain ⟨other, object⟩ := object
    rw [object] at set kept ⊢
    have decoded : JobDetails.ofJson? (.obj other) = JobDetails.ofFields
        ((Json.obj other).get? "start_range") ((Json.obj other).get? "end_range")
        ((Json.obj other).get? "target_worker_count") ((Json.obj other).get? "workers_count")
        ((Json.obj other).get? "entity") ((Json.obj other).get? "note")
        ((Json.obj other).get? "log_interval_ms") ((Json.obj other).get? "size_mb") := rfl
    rw [← kept, takesCount_obj, decoded, set, ofFields_count (JobDetails.isI64_castI64 _)]
  · rw [array, ofJson?_append_obj]
    exact ⟨fun absurd => (absurd rfl).elim, fun takes => absurd takes fails⟩

theorem takesCount_setCounts {details : Json} (counts : List ℕ) :
    TakesCount (counts.foldl setCount details) ↔ TakesCount details := by
  induction counts generalizing details with
  | nil => rfl
  | cons count counts ih => rw [List.foldl_cons, ih, takesCount_setCount]

/-- Details decode after numbers have been set exactly if they are readable. -/
theorem decodes_setCounts {details : Json} (counts : List ℕ) :
    JobDetails.ofJson? (counts.foldl setCount details) ≠ none ↔ Readable details counts := by
  induction counts using List.reverseRecOn with
  | nil => exact ⟨fun decodes => ⟨fun _ => decodes, fun absurd => (absurd rfl).elim⟩, fun readable => readable.1 rfl⟩
  | append_singleton counts count _ =>
    rw [List.foldl_append, List.foldl_cons, List.foldl_nil, decodes_setCount, takesCount_setCounts]
    have some : counts ++ [count] ≠ [] := List.append_ne_nil_of_right_ne_nil _ (List.cons_ne_nil _ _)
    exact ⟨fun takes => ⟨fun none => absurd none some, fun _ => takes⟩, fun readable => readable.2 some⟩

/-- Details that have been written decode, whatever numbers have been set since. -/
theorem decodes_written {details : JobDetails} (range : details.InRange) (counts : List ℕ) :
    JobDetails.ofJson? (counts.foldl setCount details.toJson) ≠ none := by
  have reads : ∃ current : JobDetails, current.InRange ∧ JobDetails.Reads (counts.foldl setCount details.toJson) current := by
    induction counts using List.reverseRecOn with
    | nil => exact ⟨details, range, JobDetails.reads_toJson details⟩
    | append_singleton counts count ih =>
      obtain ⟨current, range, reads⟩ := ih
      rw [List.foldl_append]
      refine ⟨{ current with workersCount := some (castI64 count) }, { range with workersCount := ?_ }, reads.expect _⟩
      intro set same
      obtain rfl : castI64 count = set := Option.some_injective _ same
      exact JobDetails.isI64_castI64 _
  obtain ⟨current, range, reads⟩ := reads
  rw [reads.ofJson? range]
  exact Option.some_ne_none _

/-! ## Histories -/

variable {w later : World} {olds : Table OldJobRow.id} {stmt : Stmt} {stmts : List Stmt}

theorem countsOf_cons (jobId : Uuid) (stmt : Stmt) (stmts : List Stmt) :
    countsOf jobId (stmt :: stmts) = countsOf jobId [stmt] ++ countsOf jobId stmts := by
  rw [countsOf, ← List.singleton_append, List.filterMap_append]
  rfl

/-- What a statement does to a row of the table. -/
def Stmt.onJob : Stmt → JobRow → JobRow
  | .updateJobStatus jobId status, row => if row.id = jobId then { row with status } else row
  | .updateJobWorkersCount jobId count, row =>
    if row.id = jobId then { row with details := setCount row.details count } else row
  | _, row => row

theorem Stmt.onJob_id (stmt : Stmt) (row : JobRow) : (stmt.onJob row).id = row.id := by
  cases stmt with
  | updateJobStatus | updateJobWorkersCount => simp only [onJob, apply_ite JobRow.id, ite_self]
  | _ => rfl

theorem Stmt.onJob_details (stmt : Stmt) (row : JobRow) :
    (stmt.onJob row).details = (countsOf row.id [stmt]).foldl setCount row.details := by
  cases stmt with
  | updateJobStatus => simp only [onJob, apply_ite JobRow.details, ite_self]; rfl
  | updateJobWorkersCount jobId count =>
    by_cases own : row.id = jobId
    · simp [onJob, countsOf, own]
    · simp [onJob, countsOf, own, Ne.symm own]
  | _ => rfl

/-- A statement changes the rows one by one, and may create one. -/
theorem rows_run {reply : stmt.Row} (writes : stmt.WritesJobs) (w : World) :
    (Stmt.run w stmt reply).jobs.rows = w.jobs.rows.map stmt.onJob ∨
      ∃ (details : JobDetails) (row : JobRow), details.InRange ∧ row.details = details.toJson ∧
        (Stmt.run w stmt reply).jobs.rows = w.jobs.rows.map stmt.onJob ++ [row] := by
  cases stmt with
  | createJob jobId url routingKey status details =>
    have same : w.jobs.rows.map (Stmt.createJob jobId url routingKey status details).onJob = w.jobs.rows :=
      List.map_id _
    rw [same]
    simp only [Stmt.run, Table.insert]
    split
    · exact .inl rfl
    · exact .inr ⟨details, _, writes, rfl, rfl⟩
  | updateJobStatus | updateJobWorkersCount =>
    left
    apply List.map_congr_left
    intro row _
    simp only [Stmt.onJob, decide_eq_true_eq, setCount]
  | _ => exact writes.elim

/-- A statement keeps every row, with the number of workers that it sets. -/
theorem row_of_run {reply : stmt.Row} (writes : stmt.WritesJobs) {row : JobRow} (member : row ∈ w.jobs.rows) :
    ∃ next ∈ (Stmt.run w stmt reply).jobs.rows, next.id = row.id ∧
      next.details = (countsOf row.id [stmt]).foldl setCount row.details := by
  refine ⟨stmt.onJob row, ?_, stmt.onJob_id row, stmt.onJob_details row⟩
  have changed : stmt.onJob row ∈ w.jobs.rows.map stmt.onJob := List.mem_map_of_mem member
  obtain rows | ⟨_, _, _, _, rows⟩ := rows_run writes w
  · rwa [rows]
  · rw [rows]
    exact List.mem_append_left _ changed

/-- A row has been there, with the number of workers that the statement sets, or it is created. -/
theorem origin_of_run {reply : stmt.Row} (writes : stmt.WritesJobs) {next : JobRow}
    (member : next ∈ (Stmt.run w stmt reply).jobs.rows) :
    (∃ row ∈ w.jobs.rows, next.id = row.id ∧ next.details = (countsOf row.id [stmt]).foldl setCount row.details) ∨
      ∃ details : JobDetails, details.InRange ∧ next.details = details.toJson := by
  have changed (kept : next ∈ w.jobs.rows.map stmt.onJob) :
      ∃ row ∈ w.jobs.rows, next.id = row.id ∧ next.details = (countsOf row.id [stmt]).foldl setCount row.details := by
    obtain ⟨row, earlier, rfl⟩ := List.mem_map.mp kept
    exact ⟨row, earlier, stmt.onJob_id row, stmt.onJob_details row⟩
  obtain rows | ⟨details, row, range, written, rows⟩ := rows_run writes w
  · exact .inl (changed (rows ▸ member))
  · rw [rows, List.mem_append] at member
    rcases member with kept | created
    · exact .inl (changed kept)
    · exact .inr ⟨details, range, List.mem_singleton.mp created ▸ written⟩

theorem History.row (history : History w stmts later) {row : JobRow} (member : row ∈ w.jobs.rows) :
    ∃ last ∈ later.jobs.rows, last.details = (countsOf row.id stmts).foldl setCount row.details := by
  induction history generalizing row with
  | nil => exact ⟨row, member, rfl⟩
  | @cons w later now stmt reply stmts writes _ _ ih =>
    obtain ⟨next, inside, same, details⟩ := row_of_run (w := { w with now }) writes member
    obtain ⟨last, stays, details'⟩ := ih inside
    refine ⟨last, stays, ?_⟩
    rw [details', same, details, countsOf_cons row.id stmt stmts, List.foldl_append]

theorem History.origin (history : History w stmts later) {last : JobRow} (member : last ∈ later.jobs.rows) :
    (∃ row ∈ w.jobs.rows, last.details = (countsOf row.id stmts).foldl setCount row.details) ∨
      ∃ (details : JobDetails) (counts : List ℕ), details.InRange ∧ last.details = counts.foldl setCount details.toJson := by
  induction history with
  | nil => exact .inl ⟨last, member, rfl⟩
  | @cons w later now stmt reply stmts writes _ _ ih =>
    obtain ⟨next, inside, details⟩ | created := ih member
    · obtain ⟨row, earlier, same, details'⟩ | ⟨written, range, details'⟩ := origin_of_run (w := { w with now }) writes inside
      · refine .inl ⟨row, earlier, ?_⟩
        rw [details, same, details', countsOf_cons row.id stmt stmts, List.foldl_append]
      · exact .inr ⟨written, _, range, details' ▸ details⟩
    · exact .inr created

/-- Every row can be read exactly if the details of the old rows are readable. -/
theorem readable_iff (history : History (w.migrated olds) stmts later) : (∀ row ∈ later.jobs.rows, Converts row.details) ↔
    ∀ old ∈ olds.rows, Readable (old.details.getD (.obj [])) (countsOf old.id stmts) := by
  constructor
  · intro converts old member
    obtain ⟨last, inside, details⟩ := history.row (List.mem_map_of_mem (f := OldJobRow.migrate) member)
    have decodes := converts_iff.mp (converts last inside)
    rw [details] at decodes
    exact (decodes_setCounts _).mp decodes
  · intro readable last member
    rw [converts_iff]
    obtain ⟨row, inside, details⟩ | ⟨written, counts, range, details⟩ := history.origin member
    · obtain ⟨old, earlier, rfl⟩ := List.mem_map.mp inside
      rw [details]
      exact (decodes_setCounts _).mpr (readable old earlier)
    · rw [details]
      exact decodes_written range counts

/-- A job from before the migration. -/
def oldJob (details : Option Json) : Table OldJobRow.id := Table.empty.insert ⟨1, none, none, details, 0⟩

/-- An old job with details of today, whose number of workers is set. -/
theorem readable_oldJob : ∃ later,
    History ((sampleWorld .online).migrated (oldJob (some sampleDetails))) [.updateJobWorkersCount 1 5] later ∧
      ∀ row ∈ later.jobs.rows, Converts row.details := by
  let start := (sampleWorld .online).migrated (oldJob (some sampleDetails))
  have history : History start [.updateJobWorkersCount 1 5] (Stmt.run start (.updateJobWorkersCount 1 5) ()) :=
    .cons trivial trivial (.nil _)
  refine ⟨_, history, (readable_iff history).mpr fun old member => ?_⟩
  obtain rfl := List.mem_singleton.mp member
  exact ⟨fun none => absurd none (by decide), fun _ => ⟨_, rfl, by decide⟩⟩

/-- An old job without details. -/
theorem not_allReadable : ¬ AllReadable := by
  intro readable
  have converts := readable (sampleWorld .online) (oldJob none) [] _ (.nil _) _ List.mem_cons_self
  exact converts_iff.mp converts (by decide)

end Bms
