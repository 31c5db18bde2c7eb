import Bms.Protocol.Creations
import Bms.Protocol.Details

/-! # What a creation inserts

A sixth protocol: a creation draws where the sample begins, inserts the job with the details that
follow from the request and that number, and then sub-jobs of this job; the scaling sub-job names the
job's routing key as its topic.
-/

namespace Bms

open Process Fallible

namespace CreateJobInput

/-- The size of the sample that a request asks for. -/
def sampleMb (payload : CreateJobInput) : ℤ := clamp (payload.sizeMb.getD 100) 10 1024

/-- The details of a job whose sample begins at a number. -/
def detailsAt (payload : CreateJobInput) (startRange : ℤ) : JobDetails :=
  .new startRange (startRange + payload.sampleMb * 1024 * 1024) (clamp (payload.workerCount.getD 10) 1 40)
    payload.entity payload.note (clamp (payload.logIntervalMs.getD 1000) 100 1000) payload.sampleMb

/-- The sample begins in a file whose length is a 64-bit number. -/
def Begins (payload : CreateJobInput) (startRange : ℤ) : Prop :=
  0 ≤ startRange ∧ startRange + payload.sampleMb * 1024 * 1024 < 2 ^ 63

theorem isI64_clamp {value low high : ℤ} (least : -2 ^ 63 ≤ low) (order : low ≤ high) (most : high < 2 ^ 63) :
    IsI64 (clamp value low high) := by
  unfold IsI64 clamp
  omega

theorem sampleMb_bounds (payload : CreateJobInput) : 10 ≤ payload.sampleMb ∧ payload.sampleMb ≤ 1024 := by
  unfold sampleMb clamp
  omega

theorem Begins.inRange {payload : CreateJobInput} {startRange : ℤ} (begins : payload.Begins startRange) :
    (payload.detailsAt startRange).InRange := by
  obtain ⟨low, high⟩ := begins
  have size := payload.sampleMb_bounds
  constructor
  · change IsI64 startRange
    unfold IsI64
    omega
  · change IsI64 (startRange + payload.sampleMb * 1024 * 1024)
    unfold IsI64
    omega
  · rintro count ⟨⟩
    exact isI64_clamp (by decide) (by decide) (by decide)
  · exact nofun
  · exact isI64_clamp (by decide) (by decide) (by decide)
  · exact isI64_clamp (by decide) (by decide) (by decide)

end CreateJobInput

/-- Where a task stands with respect to the insertion of a job. -/
inductive CreatePhase
  /-- no creation -/
  | aside
  | asked (payload : CreateJobInput)
  /-- it is known where the sample begins -/
  | ranged (payload : CreateJobInput) (startRange : ℤ)
  | inserted (job : Job)

namespace CreatePhase

def start : Kind → CreatePhase
  | .createJob payload => asked payload
  | _ => aside

/-- The phase after a call. -/
def note : CreatePhase → Act → CreatePhase
  | asked payload, ⟨.genRange _, startRange⟩ => ranged payload startRange
  | ranged _ _, ⟨.sql (.createJob ..), .ok job⟩ => inserted job
  | phase, _ => phase

end CreatePhase

/-- A call that draws or inserts. -/
def Op.Creates : Op → Prop
  | .genRange _ | .sql (.createJob ..) | .sql (.createSubJob ..) => True
  | _ => False

/-- The calls that a task may make in a phase of the creation. -/
inductive CreateLegal : Kind → CreatePhase → Op → Prop
  | elsewhere {kind : Kind} {phase : CreatePhase} {op : Op} (other : ∀ payload, kind ≠ .createJob payload) :
      CreateLegal kind phase op
  | plain {kind : Kind} {phase : CreatePhase} {op : Op} (plain : ¬ op.Creates) : CreateLegal kind phase op
  | draw {kind : Kind} {payload : CreateJobInput} {high : ℤ} (fits : high + payload.sampleMb * 1024 * 1024 < 2 ^ 63) :
      CreateLegal kind (.asked payload) (.genRange high)
  | job {kind : Kind} {payload : CreateJobInput} {startRange : ℤ} {jobId : Uuid} {url : String} :
      CreateLegal kind (.ranged payload startRange)
        (.sql (.createJob jobId url payload.routingKey .pending (payload.detailsAt startRange)))
  | scaling {kind : Kind} {job : Job} {subJobId : Uuid} :
      CreateLegal kind (.inserted job)
        (.sql (.createSubJob subJobId job.id .created .scaling { topic := some job.routingKey }))
  | measuring {kind : Kind} {job : Job} {subJobId : Uuid} {details : SubJobDetails} :
      CreateLegal kind (.inserted job) (.sql (.createSubJob subJobId job.id .created .combinedDHP details))

def createMonitor : Monitor Calls Kind CreatePhase where
  start := CreatePhase.start
  note := CreatePhase.note
  legal := CreateLegal
  ended _ _ := True

/-! ## The creation obeys it -/

/-- A number that parses fits 64 bits. -/
theorem lt_of_parseI64 {text : String} {value : ℤ} (parsed : parseI64 text = .ok value) : value < 2 ^ 63 := by
  unfold parseI64 at parsed
  split at parsed
  dsimp only at parsed
  split_ifs at parsed
  all_goals
    rw [← Except.ok.inj parsed]
    exact not_le.mp (by assumption)

namespace CreatePhase

variable {kind : Kind} {ε α β : Type} {phase : CreatePhase}

theorem note_plain {op : Op} (plain : ¬ op.Creates) (reply : op.Reply) : phase.note ⟨op, reply⟩ = phase := by
  cases op with
  | genRange => exact absurd trivial plain
  | sql stmt => cases stmt <;> first | exact absurd trivial plain | (cases phase <;> rfl)
  | _ => cases phase <;> rfl

/-- A part of the creation that neither draws nor inserts. -/
theorem plainly {program : Fallible Calls ε α} {rest : α → Fallible Calls ε β} {good : β → CreatePhase → Prop}
    {bad : ε → CreatePhase → Prop} (only : program.Only fun op : Op => ¬ op.Creates) (stop : ∀ e, bad e phase)
    (next : ∀ value, (rest value).Obeys note (CreateLegal kind) phase good bad) :
    (program >>= rest).Obeys note (CreateLegal kind) phase good bad := by
  have quiet (op : Op) (plain : ¬ op.Creates) :
      CreateLegal kind phase op ∧ ∀ reply : op.Reply, phase.note ⟨op, reply⟩ = phase := ⟨.plain plain, note_plain plain⟩
  refine (obeys_bind ..).mpr (Prog.Obeys.mono (Prog.Only.obeys only quiet) ?_)
  rintro outcome reached rfl
  cases outcome with
  | ok value => exact next value
  | error e => exact stop e

/-- Anything may follow an error. -/
abbrev Creates (kind : Kind) (program : Api α) (phase : CreatePhase) (good : α → CreatePhase → Prop) : Prop :=
  program.Obeys note (CreateLegal kind) phase good fun _ _ => True

theorem getFileRangeForFile_creates (payload : CreateJobInput) (url : String) :
    Creates kind (getFileRangeForFile url payload.sampleMb) (.asked payload) fun range reached =>
      ∃ startRange, reached = .ranged payload startRange ∧
        range = (startRange, startRange + payload.sampleMb * 1024 * 1024) := by
  apply plainly ((only_attempt ..).mpr id) (fun _ => trivial)
  intro header
  rcases header with _ | (e | text)
  · trivial
  · trivial
  · refine (obeys_bind ..).mpr ((obeys_outcome _).mpr ?_)
    dsimp only
    cases parsed : parseI64 text with
    | error e => trivial
    | ok contentLength =>
      have fits := lt_of_parseI64 parsed
      refine .ite (fun _ => trivial) fun _ => .ite (fun _ => ?_) fun _ => ?_
      · exact (obeys_panic).mpr (.plain id)
      · have within : contentLength - payload.sampleMb * 1024 * 1024 + payload.sampleMb * 1024 * 1024 < 2 ^ 63 := by
          omega
        exact (obeys_bind ..).mpr ((obeys_attempt ..).mpr ⟨.draw within, fun startRange => ⟨startRange, rfl, rfl⟩⟩)

theorem createSubJob_creates (job : Job) (details : SubJobDetails) :
    Creates kind (createSubJob job details) (.inserted job) fun _ reached => reached = .inserted job := by
  apply plainly ((only_attempt ..).mpr id) (fun _ => trivial)
  intro subJobId
  refine (obeys_attempt ..).mpr ⟨.measuring, fun reply => ?_⟩
  cases reply with
  | error e => trivial
  | ok subJob => rfl

/-- The parameters of the job are those of the request. -/
theorem ofInput_creates (payload : CreateJobInput) :
    Creates kind (CreateJobParams.ofInput payload) (.asked payload) fun params reached => reached = .asked payload ∧
      params.routingKey = payload.routingKey ∧ params.sizeMb = payload.sampleMb ∧
      ∀ startRange, JobDetails.new startRange (startRange + payload.sampleMb * 1024 * 1024) params.workerCount
        params.entity params.note params.logIntervalMs params.sizeMb = payload.detailsAt startRange := by
  apply plainly ((only_attempt ..).mpr id) (fun _ => trivial)
  intro url
  exact .ite (fun _ => trivial) fun _ => .ite (fun _ => trivial) fun _ => ⟨rfl, rfl, rfl, fun _ => rfl⟩

theorem handleCreateJob_creates (payload : CreateJobInput) :
    Creates kind (handleCreateJob payload) (.asked payload) fun _ _ => True := by
  refine (obeys_bind ..).mpr (Obeys.mono (ofInput_creates payload) ?_ fun _ _ => id)
  rintro ⟨url, routingKey, workerCount, entity, note, sizeMb, logIntervalMs⟩ reached ⟨rfl, rfl, rfl, details⟩
  refine (obeys_bind ..).mpr (Obeys.mono (getFileRangeForFile_creates payload url.asStr) ?_ fun _ _ => id)
  rintro range reached ⟨startRange, rfl, rfl⟩
  apply plainly ((only_attempt ..).mpr id) (fun _ => trivial)
  intro jobId
  refine (obeys_bind ..).mpr ((obeys_attempt ..).mpr ⟨details startRange ▸ .job, fun reply => ?_⟩)
  cases reply with
  | error e => trivial
  | ok job =>
    apply plainly ((only_attempt ..).mpr id) (fun _ => trivial)
    intro scalingId
    refine (obeys_bind ..).mpr ((obeys_attempt ..).mpr ⟨.scaling, fun reply => ?_⟩)
    cases reply with
    | error e => trivial
    | ok scalingSubJob =>
      refine (obeys_bind ..).mpr (Obeys.mono (createSubJob_creates job _) ?_ fun _ _ => id)
      rintro first reached rfl
      refine (obeys_bind ..).mpr (Obeys.mono (createSubJob_creates job _) ?_ fun _ _ => id)
      rintro second reached rfl
      refine (obeys_bind ..).mpr (Obeys.mono (createSubJob_creates job _) ?_ fun _ _ => id)
      exact fun _ _ _ => trivial

end CreatePhase

theorem createMonitor_covers (registry : ServiceScalerRegistry) : createMonitor.Covers (platform registry) := by
  have elsewhere {kind : Kind} (other : ∀ payload, kind ≠ .createJob payload) (program : Prog Calls Unit) :
      program.Obeys CreatePhase.note (CreateLegal kind) .aside fun _ _ => True :=
    (Prog.obeys_indifferent (fun _ => .elsewhere other) (fun _ => rfl) program).mono fun _ _ _ => trivial
  intro kind
  cases kind with
  | createJob payload => exact Obeys.handle (CreatePhase.handleCreateJob_creates payload)
  | _ => exact elsewhere (fun payload same => by cases same) _

/-! ## What is inserted -/

namespace CreatePhase

theorem ranged_note {phase : CreatePhase} {made : Act} {payload : CreateJobInput} {startRange : ℤ}
    (ranged : phase.note made = .ranged payload startRange) : phase = .ranged payload startRange ∨
      (phase = .asked payload ∧ ∃ high, made = ⟨.genRange high, startRange⟩) := by
  unfold note at ranged
  split at ranged
  · cases ranged
    exact .inr ⟨rfl, _, rfl⟩
  · cases ranged
  · exact .inl ranged

theorem inserted_note {phase : CreatePhase} {made : Act} {job : Job} (inserted : phase.note made = .inserted job) :
    phase = .inserted job ∨ ∃ jobId url routingKey status details,
      made = ⟨.sql (.createJob jobId url routingKey status details), .ok job⟩ := by
  unfold note at inserted
  split at inserted
  · cases inserted
  · cases inserted
    exact .inr ⟨_, _, _, _, _, rfl⟩
  · exact .inl inserted

end CreatePhase

/-- Only a creation is ever not aside. -/
theorem creation_of_at {pool : System} {position : ℕ} {kind : Kind} {phase : CreatePhase}
    (here : createMonitor.At pool position kind phase) (busy : phase ≠ .aside) :
    ∃ payload, kind = .createJob payload := by
  obtain ⟨⟨kind, log, rest⟩, -, -, rfl, rfl⟩ := here
  by_contra other
  apply busy
  have starts : createMonitor.start kind = .aside := by
    cases kind with
    | createJob payload => exact absurd ⟨payload, rfl⟩ other
    | _ => rfl
  change log.foldl CreatePhase.note (createMonitor.start kind) = .aside
  rw [starts]
  clear starts busy other
  induction log with
  | nil => rfl
  | cons made log ih => exact ih

variable {registry : ServiceScalerRegistry} {source target : System} {event : SystemEvent}

/-- What is known of creations in every run. -/
structure Creating (pool : System) : Prop where
  tracks : createMonitor.TracksAll pool
  begins : ∀ position kind payload startRange, createMonitor.At pool position kind (.ranged payload startRange) →
    payload.Begins startRange
  inserted : ∀ position kind job, createMonitor.At pool position kind (.inserted job) →
    ∃ row, pool.world.jobs.find? job.id = some row ∧ row.routingKey = job.routingKey

/-- The row of a job keeps its routing key. -/
theorem routingKey_after (tracks : jobMonitor.TracksAll source) (step : Step (platform registry) source event target)
    {id : Uuid} {routingKey : String}
    (known : ∃ row, source.world.jobs.find? id = some row ∧ row.routingKey = routingKey) :
    ∃ row, target.world.jobs.find? id = some row ∧ row.routingKey = routingKey := by
  obtain ⟨row, found, same⟩ := known
  obtain ⟨later, found', rfl | change⟩ := job_step tracks step found
  · exact ⟨later, found', same⟩
  · cases change <;> exact ⟨_, found', same⟩

theorem Creating.step (tracks : jobMonitor.TracksAll source) (creating : Creating source)
    (step : Step (platform registry) source event target) : Creating target where
  tracks := creating.tracks.step (createMonitor_covers registry) step
  begins position kind payload startRange here := by
    obtain ⟨old, -⟩ | ⟨-, starts⟩ | ⟨before, op, reply, old, legal, rfl, noted, allowed, -⟩ :=
      here.before creating.tracks step
    · exact creating.begins _ _ _ _ old
    · cases kind <;> cases starts
    · obtain rfl | ⟨rfl, high, made⟩ := CreatePhase.ranged_note noted.symm
      · exact creating.begins _ _ _ _ old
      · cases made
        obtain ⟨low, below⟩ := allowed
        cases legal with
        | elsewhere other =>
          obtain ⟨payload, rfl⟩ := creation_of_at old (by simp)
          exact absurd rfl (other payload)
        | plain plain => exact absurd trivial plain
        | draw fits => exact ⟨low, (add_lt_add_left below _).trans fits⟩
  inserted position kind job here := by
    obtain ⟨old, -⟩ | ⟨-, starts⟩ | ⟨before, op, reply, old, legal, rfl, noted, allowed, reached⟩ :=
      here.before creating.tracks step
    · exact routingKey_after tracks step (creating.inserted _ _ _ old)
    · cases kind <;> cases starts
    · obtain rfl | ⟨jobId, url, routingKey, status, details, made⟩ := CreatePhase.inserted_note noted.symm
      · exact routingKey_after tracks step (creating.inserted _ _ _ old)
      · cases made
        obtain ⟨fresh, rfl⟩ := allowed
        rw [reached]
        exact ⟨_, (find?_createJob _ _ _ _ _ _ default _).trans (by rw [fresh, if_pos rfl]; rfl), rfl⟩

theorem Creating.of_initial {pool : System} (initial : Initial pool) : Creating pool := by
  have empty {position : ℕ} {kind : Kind} {phase : CreatePhase} : ¬ createMonitor.At pool position kind phase := by
    rintro ⟨task, present, -⟩
    simp [initial.tasks] at present
  exact ⟨Monitor.tracksAll_of_empty initial.tasks, fun _ _ _ _ here => absurd here empty,
    fun _ _ _ here => absurd here empty⟩

/-- A call that only a creation makes is legal for a creation. -/
theorem Creating.legal (creating : Creating source) (tracks : jobMonitor.TracksAll source) {position : ℕ} {op : Op}
    {reply : op.Reply} (own : ∀ kind phase, JobLegal kind phase op → ∃ payload, kind = .createJob payload)
    (step : Step (platform registry) source (.call position ⟨op, reply⟩) target) :
    ∃ payload phase, createMonitor.At source position (.createJob payload) phase ∧
      CreateLegal (.createJob payload) phase op := by
  obtain ⟨kind, phase, here, legal, -, -⟩ := creating.tracks.legal step
  obtain ⟨kind', phase', there, legal', -, -⟩ := legal_of_call tracks step
  obtain ⟨payload, rfl⟩ := own kind' phase' legal'
  obtain rfl : kind = .createJob payload := here.flies.unique there.flies
  exact ⟨payload, phase, here, legal⟩

/-- The job of a request is inserted with its details. -/
theorem Creating.job (creating : Creating source) (tracks : jobMonitor.TracksAll source) {position : ℕ} {jobId : Uuid}
    {url routingKey : String} {status : JobStatus} {details : JobDetails} {done : Job}
    (step : Step (platform registry) source
      (.call position ⟨.sql (.createJob jobId url routingKey status details), .ok done⟩) target) :
    ∃ (payload : CreateJobInput) (startRange : ℤ), payload.Begins startRange ∧ details = payload.detailsAt startRange ∧
      routingKey = payload.routingKey := by
  have own (kind : Kind) (phase : JobPhase) (legal : JobLegal kind phase
    (.sql (.createJob jobId url routingKey status details))) :
      ∃ payload, kind = .createJob payload := by
    cases legal with
    | quiet quiet => exact quiet.elim
    | insertJob => exact ⟨_, rfl⟩
  obtain ⟨payload, phase, here, legal⟩ := creating.legal tracks own step
  cases legal with
  | elsewhere other => exact absurd rfl (other payload)
  | plain plain => exact absurd trivial plain
  | job => exact ⟨_, _, creating.begins _ _ _ _ here, rfl, rfl⟩

/-- The scaling sub-job of a job names the job's routing key. -/
theorem Creating.scaling (creating : Creating source) (tracks : jobMonitor.TracksAll source) {position : ℕ}
    {subJobId jobId : Uuid} {status : SubJobStatus} {details : SubJobDetails} {done : SubJob}
    (step : Step (platform registry) source
      (.call position ⟨.sql (.createSubJob subJobId jobId status .scaling details), .ok done⟩) target) :
    ∃ row, source.world.jobs.find? jobId = some row ∧ details.topic = some row.routingKey := by
  have own (kind : Kind) (phase : JobPhase)
      (legal : JobLegal kind phase (.sql (.createSubJob subJobId jobId status .scaling details))) :
      ∃ payload, kind = .createJob payload := by
    generalize type : SubJobType.scaling = other at legal
    cases legal with
    | quiet quiet => exact quiet.elim
    | insertSubJob => exact ⟨_, rfl⟩
  obtain ⟨payload, phase, here, legal⟩ := creating.legal tracks own step
  cases legal with
  | elsewhere other => exact absurd rfl (other payload)
  | plain plain => exact absurd trivial plain
  | scaling =>
    obtain ⟨row, found, same⟩ := creating.inserted _ _ _ here
    exact ⟨row, found, congrArg some same.symm⟩

/-! ## What the row of a job reads -/

/-- The row of a job reads these details. -/
def Describes (w : World) (jobId : Uuid) (details : JobDetails) : Prop :=
  ∃ row, w.jobs.find? jobId = some row ∧ JobDetails.Reads row.details details ∧ details.InRange

theorem Describes.ofJson? {w : World} {jobId : Uuid} {details : JobDetails} (describes : Describes w jobId details) :
    ∃ row, w.jobs.find? jobId = some row ∧ JobDetails.ofJson? row.details = some details := by
  obtain ⟨row, found, reads, range⟩ := describes
  exact ⟨row, found, reads.ofJson? range⟩

/-- The row of a job reads the same for good, up to the number of workers. -/
theorem Describes.step (tracks : jobMonitor.TracksAll source) (step : Step (platform registry) source event target)
    {jobId : Uuid} {details : JobDetails} (describes : Describes source.world jobId details) :
    ∃ count, Describes target.world jobId { details with workersCount := count } := by
  obtain ⟨row, found, reads, range⟩ := describes
  obtain ⟨later, found', rfl | change⟩ := job_step tracks step found
  · exact ⟨details.workersCount, later, found', reads, range⟩
  · cases change with
    | canceled | completed => exact ⟨details.workersCount, _, found', reads, range⟩
    | @expected _ _ _ count =>
      have counted : ∀ value ∈ some (castI64 count), IsI64 value := by
        intro value member
        rw [← Option.some.inj (Option.mem_def.mp member)]
        exact JobDetails.isI64_castI64 count
      exact ⟨some (castI64 count), _, found', reads.expect _, { range with workersCount := counted }⟩

/-- A job that has just been inserted reads as the request asks. -/
theorem Creating.describes (creating : Creating source) (tracks : jobMonitor.TracksAll source) {position : ℕ}
    {jobId : Uuid} {url routingKey : String} {status : JobStatus} {details : JobDetails} {done : Job}
    (step : Step (platform registry) source
      (.call position ⟨.sql (.createJob jobId url routingKey status details), .ok done⟩) target) :
    Describes target.world jobId details := by
  obtain ⟨payload, startRange, begins, rfl, -⟩ := creating.job tracks step
  obtain ⟨_, _, -, -, ⟨fresh, -⟩, reached⟩ := legal_of_call tracks step
  have found := find?_createJob source.world jobId url routingKey status (payload.detailsAt startRange) done jobId
  rw [fresh, if_pos rfl, Option.none_or] at found
  refine ⟨⟨jobId, url, routingKey, status, (payload.detailsAt startRange).toJson, source.world.now⟩, ?_,
    JobDetails.reads_toJson _, begins.inRange⟩
  rw [reached]
  exact found

end Bms
