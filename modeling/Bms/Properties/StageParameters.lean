import Bms.Model.Replay
import Bms.Protocol.Creating

/-! # What later stages read

The stages of a job hand values to each other through the details columns. Whatever the system does,
a sub-job keeps its topic and its percentage, a job keeps the details it was created with, up to the
number of workers, and a pending sub-job has a number of workers and a deadline.
-/

namespace Bms

open Process

/-- A positive number of workers is recorded. -/
def SubJobRow.Counted (row : SubJobRow) : Prop :=
  ∃ count : ℤ, 1 ≤ count ∧ row.details.get? "workers_count" = some (.int count)

/-- The event inserts a sub-job. -/
def InsertsSubJob (event : SystemEvent) (subJobId : Uuid) (type : SubJobType) (details : SubJobDetails) : Prop :=
  ∃ position jobId status done, event = .call position ⟨.sql (.createSubJob subJobId jobId status type details),
    .ok done⟩

/-- The event inserts a job. -/
def InsertsJob (event : SystemEvent) (jobId : Uuid) (details : JobDetails) : Prop :=
  ∃ position url routingKey status done,
    event = .call position ⟨.sql (.createJob jobId url routingKey status details), .ok done⟩

/-- The stored details keep what later stages read, for everything that a run has created. -/
structure StageParameters (events : List SystemEvent) (w : World) : Prop where
  topic : ∀ row ∈ w.subJobs.rows, row.type = .scaling → ∃ job, w.jobs.find? row.jobId = some job ∧
    row.details.get? "topic" = some (.str job.routingKey)
  partialPct : ∀ event ∈ events, ∀ subJobId details, InsertsSubJob event subJobId .combinedDHP details →
    ∃ row, w.subJobs.find? subJobId = some row ∧ row.details.get? "partial" = details.partialPct.map Json.int
  details : ∀ event ∈ events, ∀ jobId details, InsertsJob event jobId details →
    ∃ row decoded, w.jobs.find? jobId = some row ∧ JobDetails.ofJson? row.details = some decoded ∧
      { decoded with workersCount := details.workersCount } = details
  pending : ∀ row ∈ w.subJobs.rows, row.type = .combinedDHP → row.status = .pending →
    row.Counted ∧ row.deadlineAt ≠ none

variable {registry : ServiceScalerRegistry} {source target : System} {event : SystemEvent}

/-! ## The number of workers -/

/-- At least one of the workers online remains. -/
theorem one_le_excludedAndCount (subJob : SubJobWithJob) {workers : List String} (online : workers ≠ []) :
    1 ≤ (excludedAndCount subJob workers).2 := by
  have length : 0 < workers.length := List.length_pos_iff.mpr online
  unfold excludedAndCount
  cases excluded : getExcludedWorkers subJob workers with
  | none =>
    change (1 : ℤ) ≤ workers.length
    omega
  | some pair =>
    simp only [getExcludedWorkers, Option.bind_eq_bind, Option.bind_eq_some_iff, Option.pure_def,
      Option.some.injEq] at excluded
    obtain ⟨percentage, -, _, -, _, fewer, rfl⟩ := excluded
    have fewer : saturatingMulU64 workers.length (100 - percentage) / 100 < workers.length := by
      by_contra many
      simp [guard, many] at fewer
    change (1 : ℤ) ≤ (workers.length - (workers.take _).length : ℕ)
    rw [List.length_take]
    omega

/-! ## Rows of sub-jobs -/

/-- What a change of a sub-job's row leaves. -/
structure RowKept (row later : SubJobRow) : Prop where
  object : ∃ fields, later.details = .obj fields
  keys : ∀ key, key ≠ "workers_count" → key ≠ "error" → later.details.get? key = row.details.get? key
  counted : row.Counted → later.Counted

theorem counts_workers (tracks : jobMonitor.TracksAll source) {position : ℕ} {subJobId : Uuid} {count : ℤ} {done : Unit}
    (step : Step (platform registry) source
      (.call position ⟨.sql (.updateSubJobWorkersCount subJobId count), .ok done⟩) target) : 1 ≤ count := by
  obtain ⟨kind, phase, -, legal, -, -⟩ := legal_of_call tracks step
  cases legal with
  | quiet quiet => exact quiet.elim
  | record measuring created online => exact one_le_excludedAndCount _ online

theorem rowKept_of_count {row later : SubJobRow} {fields : List (String × Json)} {count : ℤ}
    (object : row.details = .obj fields) (positive : 1 ≤ count)
    (details : later.details = row.details.merge (.obj [("workers_count", .int count)])) : RowKept row later := by
  have details : later.details = (Json.obj fields).set "workers_count" (.int count) := by rw [details, object]; rfl
  constructor
  · exact ⟨_, details⟩
  · intro key other _
    rw [details, object, Json.get?_set_ne _ _ other]
  · intro _
    exact ⟨count, positive, by rw [details, Json.get?_set_self]⟩

theorem counted_run {w : World} {row : SubJobRow} {id : Uuid} {fields : List (String × Json)} {count : ℤ}
    (found : w.subJobs.find? id = some row) (object : row.details = .obj fields) (positive : 1 ≤ count) (done : Unit) :
    ∃ later, (Stmt.run w (.updateSubJobWorkersCount id count) done).subJobs.find? id = some later ∧ later.Counted := by
  have reached := find?_updateSubJob w (fun row => row.id = id) (fun row => { row with
    details := row.details.merge (.obj [("workers_count", .int count)]) }) (fun _ => rfl) id
  rw [found, Option.map_some, if_pos (decide_eq_true (subJob_id found))] at reached
  exact ⟨_, reached, count, positive, by rw [object]; exact Json.get?_set_self ..⟩

theorem rowKept_of_error {row later : SubJobRow} {fields : List (String × Json)} {message : Json}
    (object : row.details = .obj fields) (details : later.details = row.details.set "error" message) :
    RowKept row later := by
  constructor
  · exact ⟨_, by rw [details, object]; rfl⟩
  · intro key _ other
    rw [details, Json.get?_set_ne _ _ other]
  · rintro ⟨count, positive, recorded⟩
    exact ⟨count, positive, by rw [details, Json.get?_set_ne _ _ (by decide), recorded]⟩

theorem rowKept_of_same {row later : SubJobRow} {fields : List (String × Json)} (object : row.details = .obj fields)
    (details : later.details = row.details) : RowKept row later where
  object := ⟨fields, details.trans object⟩
  keys _ _ _ := by rw [details]
  counted counted := by rwa [SubJobRow.Counted, details]

theorem SubJobChange.rowKept (tracks : jobMonitor.TracksAll source)
    (step : Step (platform registry) source event target)
    {row later : SubJobRow} (changed : SubJobChange source row event later)
    (object : ∃ fields, row.details = .obj fields) : RowKept row later := by
  obtain ⟨fields, object⟩ := object
  obtain ⟨test, change, write, -, rfl⟩ := changed
  cases write with
  | recorded => exact rowKept_of_count object (counts_workers tracks step) rfl
  | failed => exact rowKept_of_error object rfl
  | _ => exact rowKept_of_same object rfl

/-! ## The invariant -/

/-- A tick has recorded its workers, or does so now. -/
theorem JobPhase.counted_note {phase : JobPhase} {made : Act} {subJob : SubJobWithJob} {workers : List String}
    (noted : phase.note made = .recorded subJob workers ∨ phase.note made = .dispatched subJob workers) :
    phase = .recorded subJob workers ∨ phase = .dispatched subJob workers ∨ (phase = .surveyed subJob workers ∧
      ∃ id count done, made = ⟨.sql (.updateSubJobWorkersCount id count), .ok done⟩) := by
  have moved := phase.notes made
  rcases noted with noted | noted <;> rw [noted] at moved
  · cases moved with
    | stays => exact .inl rfl
    | records => exact .inr (.inr ⟨rfl, _, _, _, rfl⟩)
  · cases moved with
    | stays => exact .inr (.inl rfl)
    | publishes => exact .inl rfl

/-- What is known of the stored details in every state. -/
structure Parameters (pool : System) : Prop where
  creating : Creating pool
  objects : ∀ id row, pool.world.subJobs.find? id = some row → ∃ fields, row.details = .obj fields
  topics : ∀ id row, pool.world.subJobs.find? id = some row → row.type = .scaling →
    ∃ job, pool.world.jobs.find? row.jobId = some job ∧ row.details.get? "topic" = some (.str job.routingKey)
  counted : ∀ position subJob workers, At pool position .subJobTick (.recorded subJob workers) ∨
      At pool position .subJobTick (.dispatched subJob workers) →
    ∃ row, pool.world.subJobs.find? subJob.id = some row ∧ row.Counted
  pending : ∀ id row, pool.world.subJobs.find? id = some row → row.type = .combinedDHP → row.status = .pending →
    row.Counted ∧ row.deadlineAt ≠ none

/-- A row of a sub-job stays, and keeps what later stages read. -/
theorem Parameters.row_step (parameters : Parameters source) (tracks : jobMonitor.TracksAll source)
    (step : Step (platform registry) source event target) {id : Uuid} {row : SubJobRow}
    (found : source.world.subJobs.find? id = some row) :
    ∃ later, target.world.subJobs.find? id = some later ∧ RowKept row later ∧
      (later = row ∨ SubJobChange source row event later) := by
  obtain ⟨fields, object⟩ := parameters.objects id row found
  obtain ⟨later, found', rfl | change⟩ := subJob_step tracks step found
  · exact ⟨later, found', rowKept_of_same object rfl, .inl rfl⟩
  · exact ⟨later, found', change.rowKept tracks step ⟨fields, object⟩, .inr change⟩

/-- A row of a sub-job is an old one, or it is inserted with its details. -/
theorem Parameters.row_before (parameters : Parameters source) (tracks : jobMonitor.TracksAll source)
    (step : Step (platform registry) source event target) {id : Uuid} {later : SubJobRow}
    (found' : target.world.subJobs.find? id = some later) :
    (∃ row, source.world.subJobs.find? id = some row ∧ RowKept row later ∧
      (later = row ∨ SubJobChange source row event later)) ∨ SubJobInsert source event later := by
  cases found : source.world.subJobs.find? id with
  | none => exact .inr (subJob_inserted tracks step found found')
  | some row =>
    obtain ⟨same, found'', kept, changed⟩ := parameters.row_step tracks step found
    obtain rfl : same = later := Option.some.inj (found''.symm.trans found')
    exact .inl ⟨row, rfl, kept, changed⟩

theorem routingKey_kept (tracks : jobMonitor.TracksAll source) (step : Step (platform registry) source event target)
    {id : Uuid} {row : JobRow} (found : source.world.jobs.find? id = some row) :
    ∃ later, target.world.jobs.find? id = some later ∧ later.routingKey = row.routingKey :=
  routingKey_after tracks step ⟨row, found, rfl⟩

theorem Parameters.step (sound : Sound source) (parameters : Parameters source)
    (step : Step (platform registry) source event target) : Parameters target where
  creating := parameters.creating.step sound.tracks step
  objects id later found' := by
    obtain ⟨row, -, kept, -⟩ | insert := parameters.row_before sound.tracks step found'
    · exact kept.object
    · obtain ⟨position, payload, jobId, subJobs, details, done, -, -, -, -, same⟩ := insert.creates
      rw [same]
      exact ⟨_, rfl⟩
  topics id later found' scaling := by
    obtain ⟨row, found, kept, -⟩ | insert := parameters.row_before sound.tracks step found'
    · obtain ⟨same, found'', fixed⟩ := subJob_kept sound.tracks step found
      obtain rfl : later = same := Option.some.inj (found'.symm.trans found'')
      obtain ⟨job, known, topic⟩ := parameters.topics id row found (fixed.2.symm.trans scaling)
      obtain ⟨job', known', key⟩ := routingKey_kept sound.tracks step known
      refine ⟨job', by rw [fixed.1, known'], ?_⟩
      rw [kept.keys "topic" (by decide) (by decide), topic, key]
    · obtain ⟨position, payload, jobId, subJobs, details, done, -, -, -, inserts, same⟩ := insert.creates
      have type : (if subJobs = 0 then SubJobType.scaling else .combinedDHP) = .scaling :=
        (congrArg (·.type) same).symm.trans scaling
      rw [type] at inserts
      subst inserts
      obtain ⟨job, known, topic⟩ := parameters.creating.scaling sound.tracks step
      obtain ⟨job', known', key⟩ := routingKey_kept sound.tracks step known
      have parent : later.jobId = jobId := congrArg (·.jobId) same
      have written : later.details = details.toJson := congrArg (·.details) same
      exact ⟨job', parent ▸ known', by rw [written, details.get?_topic, topic, key]; rfl⟩
  counted position subJob workers here := by
    have kept (counted : ∃ row, source.world.subJobs.find? subJob.id = some row ∧ row.Counted) :
        ∃ row, target.world.subJobs.find? subJob.id = some row ∧ row.Counted := by
      obtain ⟨row, found, counted⟩ := counted
      obtain ⟨later, found', kept, -⟩ := parameters.row_step sound.tracks step found
      exact ⟨later, found', kept.counted counted⟩
    obtain ⟨phase, there, counts⟩ : ∃ phase, At target position .subJobTick phase ∧
        (phase = .recorded subJob workers ∨ phase = .dispatched subJob workers) := by
      rcases here with here | here
      · exact ⟨_, here, .inl rfl⟩
      · exact ⟨_, here, .inr rfl⟩
    obtain ⟨old, -⟩ | ⟨-, rfl⟩ | ⟨before, op, reply, old, legal, rfl, rfl, -, reached⟩ := there.before sound.tracks step
    · rcases counts with rfl | rfl
      · exact kept (parameters.counted _ _ _ (.inl old))
      · exact kept (parameters.counted _ _ _ (.inr old))
    · rcases counts with same | same <;> cases same
    · obtain rfl | rfl | ⟨rfl, id, count, done, made⟩ := JobPhase.counted_note counts
      · exact kept (parameters.counted _ _ _ (.inl old))
      · exact kept (parameters.counted _ _ _ (.inr old))
      · cases made
        cases legal with
        | quiet quiet => exact quiet.elim
        | record measuring created online =>
          obtain ⟨-, row, found, -⟩ := sound.known _ _ _ _ old rfl
          obtain ⟨fields, object⟩ := parameters.objects _ row found
          rw [reached]
          exact counted_run found object (one_le_excludedAndCount subJob online) done
  pending id later found' measuring waits := by
    obtain ⟨row, found, kept, rfl | ⟨test, change, write, tested, rfl⟩⟩ | insert :=
      parameters.row_before sound.tracks step found'
    · exact parameters.pending id later found measuring waits
    · cases write with
      | recorded =>
        obtain ⟨counted, deadline⟩ := parameters.pending id row found measuring waits
        exact ⟨kept.counted counted, deadline⟩
      | pended here =>
        obtain ⟨same, found'', counted⟩ := parameters.counted _ _ _ (.inr here)
        rw [← of_decide_eq_true tested, subJob_id found, found] at found''
        cases found''
        exact ⟨kept.counted counted, nofun⟩
      | _ => cases waits
    · obtain ⟨position, payload, jobId, subJobs, details, done, -, -, -, -, same⟩ := insert.creates
      cases (congrArg (·.status) same).symm.trans waits

theorem Parameters.of_initial {pool : System} (initial : Initial pool) : Parameters pool := by
  have empty {id : Uuid} {row : SubJobRow} : pool.world.subJobs.find? id ≠ some row := by
    intro found
    have member := Table.mem_of_find? found
    rw [initial.subJobs] at member
    cases member
  have none {position : ℕ} {kind : Kind} {phase : JobPhase} : ¬ At pool position kind phase := not_at_of_initial initial
  exact {
    creating := .of_initial initial
    objects := fun _ _ found => absurd found empty
    topics := fun _ _ found => absurd found empty
    counted := fun _ _ _ here => (here.elim none none).elim
    pending := fun _ _ found => absurd found empty }

/-! ## What has been created stays -/

/-- The details of a job are as created, up to the number of workers. -/
def KeepsDetails (w : World) (jobId : Uuid) (details : JobDetails) : Prop :=
  ∃ count, Describes w jobId { details with workersCount := count }

/-- The percentage of a sub-job is as created. -/
def KeepsPartial (w : World) (subJobId : Uuid) (details : SubJobDetails) : Prop :=
  ∃ row, w.subJobs.find? subJobId = some row ∧ row.details.get? "partial" = details.partialPct.map Json.int

theorem KeepsDetails.step (tracks : jobMonitor.TracksAll source) (step : Step (platform registry) source event target)
    {jobId : Uuid} {details : JobDetails} (keeps : KeepsDetails source.world jobId details) :
    KeepsDetails target.world jobId details := by
  obtain ⟨count, describes⟩ := keeps
  exact describes.step tracks step

theorem KeepsPartial.step (parameters : Parameters source) (tracks : jobMonitor.TracksAll source)
    (step : Step (platform registry) source event target) {subJobId : Uuid} {details : SubJobDetails}
    (keeps : KeepsPartial source.world subJobId details) : KeepsPartial target.world subJobId details := by
  obtain ⟨row, found, written⟩ := keeps
  obtain ⟨later, found', kept, -⟩ := parameters.row_step tracks step found
  exact ⟨later, found', (kept.keys "partial" (by decide) (by decide)).trans written⟩

theorem Parameters.inserts_job (parameters : Parameters source) (tracks : jobMonitor.TracksAll source)
    (step : Step (platform registry) source event target) {jobId : Uuid} {details : JobDetails}
    (inserts : InsertsJob event jobId details) : KeepsDetails target.world jobId details := by
  obtain ⟨position, url, routingKey, status, done, rfl⟩ := inserts
  exact ⟨details.workersCount, parameters.creating.describes tracks step⟩

theorem inserts_subJob (tracks : jobMonitor.TracksAll source) (step : Step (platform registry) source event target)
    {subJobId : Uuid} {type : SubJobType} {details : SubJobDetails}
    (inserts : InsertsSubJob event subJobId type details) :
    KeepsPartial target.world subJobId details := by
  obtain ⟨position, jobId, status, done, rfl⟩ := inserts
  obtain ⟨_, _, -, -, ⟨fresh, -⟩, reached⟩ := legal_of_call tracks step
  refine ⟨⟨Stmt.insertedSubJob subJobId jobId status type details, source.world.now⟩, ?_, details.get?_partial⟩
  rw [reached]
  exact (Table.find?_insert_fresh fresh subJobId).trans (if_pos rfl)

/-- Stage parameters survive every run. -/
theorem stageParameters (registry : ServiceScalerRegistry) {ok : System → SystemEvent → Prop} {source target : System}
    {events : List SystemEvent} (initial : Initial source) (run : Run (platform registry) ok source events target) :
    StageParameters events target.world := by
  have both : Sound target ∧ Parameters target :=
    sound_invariant run (fun sound parameters _ step => parameters.step sound step) (.of_initial initial)
      (.of_initial initial)
  have always {pool next : System} {event : SystemEvent} (known : Sound pool ∧ Parameters pool)
      (step : Step (platform registry) pool event next) : Sound next ∧ Parameters next :=
    ⟨known.1.step step, known.2.step known.1 step⟩
  have starts : Sound source ∧ Parameters source := ⟨.of_initial initial, .of_initial initial⟩
  constructor
  · intro row member
    exact both.2.topics row.id row (mem_iff_find?.mp member)
  · intro event happened subJobId details inserts
    exact run.since (I := fun pool => KeepsPartial pool.world subJobId details) always
      (fun known step => inserts_subJob known.1.tracks step inserts)
      (fun known keeps step => keeps.step known.2 known.1.tracks step) starts happened
  · intro event happened jobId details inserts
    have keeps : KeepsDetails target.world jobId details :=
      run.since (I := fun pool => KeepsDetails pool.world jobId details) always
        (fun known step => known.2.inserts_job known.1.tracks step inserts)
        (fun known keeps step => keeps.step known.1.tracks step) starts happened
    obtain ⟨count, describes⟩ := keeps
    obtain ⟨row, found, decoded⟩ := describes.ofJson?
    exact ⟨row, _, found, decoded, rfl⟩
  · intro row member
    exact both.2.pending row.id row (mem_iff_find?.mp member)

/-- Job 1 is created, its scaling sub-job needs no workers, and sub-job 3 is dispatched. -/
theorem stageParameters_dispatched : ∃ (events : List SystemEvent) (target : System),
    StageParameters events target.world ∧ target.world.subJobStatus? 3 = some .pending := by
  have replayed : ((replay ⟨false⟩ (fun _ _ => true) (sampleSystem .online)
      (sampleCreation ++ sampleTick 1 7 ++ sampleTick 2 7)).any
      fun target => target.world.subJobStatus? 3 = some .pending) = true := by
    decide +kernel
  obtain ⟨events, target, run, pending⟩ := exists_run_of_replay replayed
  exact ⟨events, target, stageParameters ⟨false⟩ (initial_sampleSystem .online) run, of_decide_eq_true pending⟩

end Bms
