import Bms.Model.Statement

/-! # What the details columns keep

The details of a job are decoded whenever its row is read, those of a sub-job are read key by key.
Updates replace or add one key, so every other key reads as it was written.
-/

namespace Bms

/-! ## The details of a job -/

namespace JobDetails

/-- Every number fits its type. -/
structure InRange (details : JobDetails) : Prop where
  startRange : IsI64 details.startRange
  endRange : IsI64 details.endRange
  targetWorkerCount : ∀ count ∈ details.targetWorkerCount, IsI64 count
  workersCount : ∀ count ∈ details.workersCount, IsI64 count
  logIntervalMs : IsI64 details.logIntervalMs
  sizeMb : IsI64 details.sizeMb

/-- What each key of written details reads. -/
structure Reads (value : Json) (details : JobDetails) : Prop where
  object : ∃ fields, value = .obj fields
  startRange : value.get? "start_range" = some (.int details.startRange)
  endRange : value.get? "end_range" = some (.int details.endRange)
  targetWorkerCount : value.get? "target_worker_count" = some ((details.targetWorkerCount.map Json.int).getD .null)
  workersCount : value.get? "workers_count" = some ((details.workersCount.map Json.int).getD .null)
  entity : value.get? "entity" = details.entity.map Json.str
  note : value.get? "note" = details.note.map Json.str
  logIntervalMs : value.get? "log_interval_ms" = some (.int details.logIntervalMs)
  sizeMb : value.get? "size_mb" = some (.int details.sizeMb)

theorem reads_toJson (details : JobDetails) : Reads details.toJson details := by
  obtain ⟨startRange, endRange, target, workers, entity, note, log, size⟩ := details
  constructor
  case object => exact ⟨_, rfl⟩
  all_goals cases entity <;> cases note <;> simp [toJson, Json.get?]

/-- The number of workers is replaced, and nothing else. -/
theorem Reads.expect {value : Json} {details : JobDetails} (reads : Reads value details) (count : ℤ) :
    Reads (value.merge (.obj [("workers_count", .int count)])) { details with workersCount := some count } := by
  obtain ⟨⟨fields, rfl⟩, startRange, endRange, target, workers, entity, note, log, size⟩ := reads
  have kept {key : String} (other : key ≠ "workers_count") :
      ((Json.obj fields).merge (.obj [("workers_count", .int count)])).get? key = (Json.obj fields).get? key :=
    Json.get?_set_ne (.obj fields) (.int count) other
  exact {
    object := ⟨_, rfl⟩
    startRange := (kept (by decide)).trans startRange
    endRange := (kept (by decide)).trans endRange
    targetWorkerCount := (kept (by decide)).trans target
    workersCount := Json.get?_set_self ..
    entity := (kept (by decide)).trans entity
    note := (kept (by decide)).trans note
    logIntervalMs := (kept (by decide)).trans log
    sizeMb := (kept (by decide)).trans size }

theorem asI64?_int {value : ℤ} (range : IsI64 value) : (Json.int value).asI64? = some value := if_pos range

theorem optional_count {count : Option ℤ} (range : ∀ value ∈ count, IsI64 value) :
    optional Json.asI64? (some ((count.map Json.int).getD .null)) = some count := by
  cases count with
  | none => rfl
  | some value => exact congrArg (Option.map some) (asI64?_int (range value rfl))

theorem optional_text (text : Option String) : optional Json.asStr? (text.map Json.str) = some text := by
  cases text <;> rfl

/-- The details that the eight fields decode to. -/
theorem ofFields_eq_some_iff {startRange endRange target workers entity note log size : Option Json}
    {details : JobDetails} : ofFields startRange endRange target workers entity note log size = some details ↔
    startRange.bind Json.asI64? = some details.startRange ∧ endRange.bind Json.asI64? = some details.endRange ∧
      optional Json.asI64? target = some details.targetWorkerCount ∧
      optional Json.asI64? workers = some details.workersCount ∧ optional Json.asStr? entity = some details.entity ∧
      optional Json.asStr? note = some details.note ∧ log.bind Json.asI64? = some details.logIntervalMs ∧
      size.bind Json.asI64? = some details.sizeMb := by
  have decoded : ofFields startRange endRange target workers entity note log size =
      (startRange.bind Json.asI64?).bind fun startRange => (endRange.bind Json.asI64?).bind fun endRange =>
        (optional Json.asI64? target).bind fun targetWorkerCount => (optional Json.asI64? workers).bind fun workersCount =>
        (optional Json.asStr? entity).bind fun entity => (optional Json.asStr? note).bind fun note =>
        (log.bind Json.asI64?).bind fun logIntervalMs => (size.bind Json.asI64?).bind fun sizeMb =>
        some ⟨startRange, endRange, targetWorkerCount, workersCount, entity, note, logIntervalMs, sizeMb⟩ := by
    cases startRange <;> cases endRange <;> cases log <;> cases size <;> rfl
  rw [decoded]
  constructor
  · intro decodes
    obtain ⟨a, start, decodes⟩ := Option.bind_eq_some_iff.mp decodes
    obtain ⟨b, stop, decodes⟩ := Option.bind_eq_some_iff.mp decodes
    obtain ⟨c, target, decodes⟩ := Option.bind_eq_some_iff.mp decodes
    obtain ⟨d, workers, decodes⟩ := Option.bind_eq_some_iff.mp decodes
    obtain ⟨e, entity, decodes⟩ := Option.bind_eq_some_iff.mp decodes
    obtain ⟨f, note, decodes⟩ := Option.bind_eq_some_iff.mp decodes
    obtain ⟨g, log, decodes⟩ := Option.bind_eq_some_iff.mp decodes
    obtain ⟨h, size, ⟨⟩⟩ := Option.bind_eq_some_iff.mp decodes
    exact ⟨start, stop, target, workers, entity, note, log, size⟩
  · rintro ⟨start, stop, target, workers, entity, note, log, size⟩
    rw [start, stop, target, workers, entity, note, log, size]
    rfl

/-- Details are decoded from what their keys read. -/
theorem Reads.ofJson? {value : Json} {details : JobDetails} (reads : Reads value details) (range : details.InRange) :
    ofJson? value = some details := by
  obtain ⟨⟨fields, rfl⟩, startRange, endRange, target, workers, entity, note, log, size⟩ := reads
  apply ofFields_eq_some_iff.mpr
  rw [startRange, endRange, target, workers, entity, note, log, size]
  exact ⟨asI64?_int range.startRange, asI64?_int range.endRange, optional_count range.targetWorkerCount,
    optional_count range.workersCount, optional_text _, optional_text _, asI64?_int range.logIntervalMs,
    asI64?_int range.sizeMb⟩

theorem isI64_castI64 (value : ℤ) : IsI64 (castI64 value) := by
  have low := Int.le_bmod (x := value) (m := 2 ^ 64) (by decide)
  have high := Int.bmod_lt (x := value) (m := 2 ^ 64) (by decide)
  simp only [castI64, IsI64]
  omega

end JobDetails

/-! ## The details of a sub-job -/

namespace SubJobDetails

theorem get?_partial (details : SubJobDetails) : details.toJson.get? "partial" = details.partialPct.map Json.int := by
  obtain ⟨partialPct, workers, topic⟩ := details
  cases partialPct <;> cases workers <;> cases topic <;> simp [toJson, Json.get?]

theorem get?_topic (details : SubJobDetails) : details.toJson.get? "topic" = details.topic.map Json.str := by
  obtain ⟨partialPct, workers, topic⟩ := details
  cases partialPct <;> cases workers <;> cases topic <;> simp [toJson, Json.get?]

end SubJobDetails

end Bms
