import Bms.Model.Replay
import Bms.Protocol.Creating
import Bms.Protocol.Traffic
import Mathlib.Order.Interval.Finset.Nat

/-! # The bytes that a worker requests

A job's range ends where the sample does, one past its last byte. The Range header names the last byte
itself, so every request is for one byte more than the sample.
-/

namespace Bms

open Process Fallible

/-! ## Reading a Range header -/

/-- The positions of the first and the last byte that a header asks for. -/
def byteRange? (header : String) : Option (ℕ × ℕ) :=
  match header.toList with
  | 'b' :: 'y' :: 't' :: 'e' :: 's' :: '=' :: range =>
    match range.dropWhile Char.isDigit with
    | '-' :: last =>
      if range.takeWhile Char.isDigit ≠ [] ∧ last ≠ [] ∧ last.all Char.isDigit then
        some (Nat.ofDigitChars 10 (range.takeWhile Char.isDigit) 0, Nat.ofDigitChars 10 last 0)
      else none
    | _ => none
  | _ => none

/-- Both ends of a byte range are requested. -/
def selectedBytes (range : ℕ × ℕ) : Finset ℕ := Finset.Icc range.1 range.2

theorem toList_header (first last : ℕ) : (s!"bytes={first}-{last}").toList =
    ['b', 'y', 't', 'e', 's', '='] ++ (Nat.toDigits 10 first ++ '-' :: Nat.toDigits 10 last) := by
  simp only [String.toList_append, Nat.toString_eq_repr, Nat.toList_repr, List.append_assoc]
  rfl

theorem isDigit_toDigits (n : ℕ) : (Nat.toDigits 10 n).all Char.isDigit = true :=
  List.all_eq_true.mpr fun _ member => Nat.isDigit_of_mem_toDigits (by decide) (by decide) member

/-- A header names the two numbers that it is written with. -/
theorem byteRange?_header (first last : ℕ) : byteRange? s!"bytes={first}-{last}" = some (first, last) := by
  have stops : Char.isDigit '-' = false := by decide
  have taken : (Nat.toDigits 10 first ++ '-' :: Nat.toDigits 10 last).takeWhile Char.isDigit =
      Nat.toDigits 10 first := by
    rw [List.takeWhile_append_of_pos fun _ => List.all_eq_true.mp (isDigit_toDigits first) _]
    simp [stops]
  have dropped : (Nat.toDigits 10 first ++ '-' :: Nat.toDigits 10 last).dropWhile Char.isDigit =
      '-' :: Nat.toDigits 10 last := by
    rw [List.dropWhile_append_of_pos fun _ => List.all_eq_true.mp (isDigit_toDigits first) _]
    simp [stops]
  unfold byteRange?
  rw [toList_header]
  simp only [List.cons_append, List.nil_append, taken, dropped]
  rw [if_pos ⟨Nat.toDigits_ne_nil, Nat.toDigits_ne_nil, isDigit_toDigits last⟩]
  simp

/-- How many bytes the request for a range asks for. -/
def Download.requestedBytes (url : String) (rangeStart rangeEnd : ℤ) : Option ℕ :=
  (byteRange? (prepareRequest url rangeStart rangeEnd).range).map fun range => (selectedBytes range).card

theorem requestedBytes_eq {url : String} {rangeStart rangeEnd : ℤ} (low : 0 ≤ rangeStart)
    (order : rangeStart ≤ rangeEnd) :
    Download.requestedBytes url rangeStart rangeEnd = some (rangeEnd - rangeStart + 1).toNat := by
  obtain ⟨first, rfl⟩ := Int.eq_ofNat_of_zero_le low
  obtain ⟨last, rfl⟩ := Int.eq_ofNat_of_zero_le (low.trans order)
  have header : (Download.prepareRequest url first last).range = s!"bytes={first}-{last}" := rfl
  rw [Download.requestedBytes, header, byteRange?_header, Option.map_some, selectedBytes, Nat.card_Icc]
  congr 1
  omega

/-- The request asks for exactly the bytes of a sample. -/
def RequestsSample (url : String) (rangeStart rangeEnd sizeMb : ℤ) : Prop :=
  ∃ count : ℕ, Download.requestedBytes url rangeStart rangeEnd = some count ∧ (count : ℤ) = sizeMb * 1024 * 1024

/-- One byte more is asked for. -/
def RequestsOneMore (url : String) (rangeStart rangeEnd sizeMb : ℤ) : Prop :=
  ∃ count : ℕ, Download.requestedBytes url rangeStart rangeEnd = some count ∧ (count : ℤ) = sizeMb * 1024 * 1024 + 1

/-- Of every job that is created the request asks for exactly the sample. -/
def RequestsExact (registry : ServiceScalerRegistry) : Prop :=
  ∀ ⦃source middle target : System⦄ ⦃events : List SystemEvent⦄ ⦃position : ℕ⦄ ⦃jobId : Uuid⦄ ⦃url routingKey : String⦄
    ⦃status : JobStatus⦄ ⦃details : JobDetails⦄ ⦃job : Job⦄, Initial source →
    Run (platform registry) (fun _ _ => True) source events middle →
    Step (platform registry) middle (.call position ⟨.sql (.createJob jobId url routingKey status details),
      .ok job⟩) target →
    RequestsSample url details.startRange details.endRange details.sizeMb

/-! ## The range of a job on its way to the workers -/

/-- A range of as many bytes as the sample has. -/
def JobDetails.SpansSample (details : JobDetails) : Prop :=
  0 ≤ details.startRange ∧ 10 ≤ details.sizeMb ∧ details.endRange = details.startRange + details.sizeMb * 1024 * 1024

/-- The row of a job describes a sample with this range. -/
def Samples (w : World) (jobId : Uuid) (rangeStart rangeEnd : ℤ) : Prop :=
  ∃ details, Describes w jobId details ∧ details.SpansSample ∧ details.startRange = rangeStart ∧
    details.endRange = rangeEnd

variable {registry : ServiceScalerRegistry} {source target : System} {event : SystemEvent}

theorem Samples.step (tracks : jobMonitor.TracksAll source) (step : Step (platform registry) source event target)
    {jobId : Uuid} {rangeStart rangeEnd : ℤ} (samples : Samples source.world jobId rangeStart rangeEnd) :
    Samples target.world jobId rangeStart rangeEnd := by
  obtain ⟨details, describes, spans, rfl, rfl⟩ := samples
  obtain ⟨count, later⟩ := describes.step tracks step
  exact ⟨_, later, spans, rfl, rfl⟩

theorem spansSample_detailsAt {payload : CreateJobInput} {startRange : ℤ} (begins : payload.Begins startRange) :
    (payload.detailsAt startRange).SpansSample :=
  ⟨begins.1, payload.sampleMb_bounds.1, rfl⟩

/-- The range of a job, of a snapshot of it and of its messages is the same. -/
structure Ranged (pool : System) : Prop where
  creating : Creating pool
  jobs : ∀ id row, pool.world.jobs.find? id = some row → ∃ details, Describes pool.world id details ∧
    details.SpansSample
  snapshots : ∀ position kind phase subJob, At pool position kind phase → phase.snapshot = some subJob →
    Samples pool.world subJob.job.id subJob.job.details.startRange subJob.job.details.endRange
  published : ∀ jobId message routingKey, (.workerJob jobId message, routingKey) ∈ pool.world.jobQueue →
    Samples pool.world jobId message.startRange message.endRange

/-- A job that is read from its row has the range of the row. -/
theorem Ranged.job (ranged : Ranged source) {row : SubJobRow} {subJob : SubJobWithJob}
    (read : source.world.withJob? row = some subJob) :
    Samples source.world subJob.job.id subJob.job.details.startRange subJob.job.details.endRange := by
  simp only [World.withJob?, JobRow.toJob?, bind, Option.bind_eq_some_iff, Option.map_eq_some_iff] at read
  obtain ⟨jobRow, found, _, ⟨decoded, reads, rfl⟩, same⟩ := read
  cases same
  obtain ⟨details, describes, spans⟩ := ranged.jobs _ jobRow found
  obtain ⟨row', found', decodes⟩ := describes.ofJson?
  obtain rfl : jobRow = row' := Option.some.inj (found.symm.trans found')
  obtain rfl : decoded = details := Option.some.inj (reads.symm.trans decodes)
  rw [← job_id found] at describes
  exact ⟨decoded, describes, spans, rfl, rfl⟩

/-- A job message has the range of the snapshot that it is published for. -/
theorem shown_of_publish {kind : Kind} {phase : JobPhase} {jobId : Uuid} {message : JobMessage} {routingKey : String}
    (legal : JobLegal kind phase (.publishJob (.workerJob jobId message) routingKey)) :
    ∃ subJob, phase.snapshot = some subJob ∧ jobId = subJob.job.id ∧
      message.startRange = subJob.job.details.startRange ∧ message.endRange = subJob.job.details.endRange := by
  cases legal with
  | quiet quiet => exact quiet.elim
  | publish => exact ⟨_, rfl, rfl, rfl, rfl⟩

theorem Ranged.step (sound : Sound source) (ranged : Ranged source)
    (step : Step (platform registry) source event target) : Ranged target where
  creating := ranged.creating.step sound.tracks step
  jobs id later found' := by
    obtain ⟨row, found, -⟩ | ⟨-, ⟨-⟩⟩ := job_before sound.tracks step found'
    · obtain ⟨details, describes, spans⟩ := ranged.jobs id row found
      obtain ⟨count, later⟩ := describes.step sound.tracks step
      exact ⟨_, later, spans⟩
    · obtain ⟨payload, startRange, begins, rfl, -⟩ := ranged.creating.job sound.tracks step
      obtain rfl := job_id found'
      exact ⟨_, ranged.creating.describes sound.tracks step, spansSample_detailsAt begins⟩
  snapshots position kind phase subJob here held := by
    obtain ⟨before, old, held, -⟩ | ⟨-, -, -, rfl, same, -⟩ := here.held sound.tracks step held
    · exact (ranged.snapshots _ _ _ _ old held).step sound.tracks step
    · obtain ⟨_, _, -, -, ⟨row, -, read⟩, -⟩ := legal_of_call sound.tracks step
      rw [same]
      exact ranged.job read
  published jobId message routingKey sent := by
    obtain same | ⟨position, subJob, workers, message', done, here, -, -, -, rfl, same⟩ :=
      jobQueue_step sound.tracks step <;> rw [same] at sent
    · exact (ranged.published _ _ _ sent).step sound.tracks step
    · rcases List.mem_cons.mp sent with new | old
      · cases new
        obtain ⟨_, _, there, legal, -, -⟩ := legal_of_call sound.tracks step
        obtain ⟨shown, held, job, start, stop⟩ := shown_of_publish legal
        rw [job, start, stop]
        exact (ranged.snapshots _ _ _ shown there held).step sound.tracks step
      · exact (ranged.published _ _ _ old).step sound.tracks step

theorem Ranged.of_initial {pool : System} (initial : Initial pool) : Ranged pool where
  creating := .of_initial initial
  jobs id row found := by
    have member := Table.mem_of_find? found
    rw [initial.jobs] at member
    cases member
  snapshots _ _ _ _ here := absurd here (not_at_of_initial initial)
  published _ _ _ sent := by
    rw [initial.jobQueue] at sent
    cases sent

/-! ## The requests of the workers -/

/-- A call that requests no other range than that of a job message. -/
def Op.Requests (message : JobMessage) : Op → Prop
  | .getRange url rangeStart rangeEnd =>
    url = message.url ∧ rangeStart = message.startRange ∧ rangeEnd = message.endRange
  | _ => True

theorem Op.Handles.requests {message : JobMessage} {op : Op} (handles : op.Handles message) : op.Requests message := by
  cases op <;> first | exact handles | trivial

/-- A worker requests only the range that its job message names. -/
theorem requests_consume (config : WorkerConfig) (jobId : Uuid) (message : JobMessage) :
    (JobConsumer.consume config (Message.workerJob jobId message).sent).Only (Op.Requests message) := by
  refine JobConsumer.only_consume (JobConsumer.only_run config _ fun _ _ same op handles => ?_) trivial trivial
  cases same
  exact handles.requests

/-- The worker requests the range that its job message names. -/
def requestMonitor : Monitor Calls Kind Unit where
  start _ := ()
  note _ _ := ()
  legal kind _ op := ∀ config jobId message, kind = .jobDelivery config (.workerJob jobId message) → op.Requests message
  ended _ _ := True

theorem requestMonitor_covers (registry : ServiceScalerRegistry) : requestMonitor.Covers (platform registry) := by
  intro kind
  by_cases receives : ∃ config jobId message, kind = .jobDelivery config (.workerJob jobId message)
  · obtain ⟨config, jobId, message, rfl⟩ := receives
    refine Prog.Obeys.mono ((requests_consume config jobId message).obeys fun op requests => ⟨?_, fun _ => rfl⟩)
      fun _ _ _ => trivial
    rintro _ _ _ ⟨⟩
    exact requests
  · refine (Prog.obeys_indifferent (fun op config jobId message same => ?_) (fun _ => rfl) _).mono fun _ _ _ => trivial
    exact absurd ⟨config, jobId, message, same⟩ receives

theorem RequestsOneMore.not_sample {url : String} {rangeStart rangeEnd sizeMb : ℤ}
    (more : RequestsOneMore url rangeStart rangeEnd sizeMb) : ¬ RequestsSample url rangeStart rangeEnd sizeMb := by
  rintro ⟨count, asked, exact⟩
  obtain ⟨count', asked', more⟩ := more
  obtain rfl : count = count' := Option.some.inj (asked.symm.trans asked')
  omega

theorem JobDetails.SpansSample.oneMore {details : JobDetails} (spans : details.SpansSample) (url : String) :
    RequestsOneMore url details.startRange details.endRange details.sizeMb := by
  obtain ⟨low, size, stop⟩ := spans
  refine ⟨_, requestedBytes_eq low (by omega), ?_⟩
  rw [Int.toNat_of_nonneg (by omega)]
  omega

/-- What is known of ranges and requests in every run. -/
theorem ranged_of_run {ok : System → SystemEvent → Prop} {events : List SystemEvent} (initial : Initial source)
    (run : Run (platform registry) ok source events target) :
    Sound target ∧ Traffic target ∧ Ranged target ∧ requestMonitor.TracksAll target := by
  refine sound_invariant (I := fun pool => Traffic pool ∧ Ranged pool ∧ requestMonitor.TracksAll pool) run ?_
    (.of_initial initial) ⟨.of_initial initial, .of_initial initial, Monitor.tracksAll_of_empty initial.tasks⟩
  rintro pool event next sound ⟨traffic, ranged, tracks⟩ - step
  exact ⟨traffic.step sound step, ranged.step sound step, tracks.step (requestMonitor_covers registry) step⟩

/-- The details of a job that is inserted span its sample. -/
theorem spansSample_of_step (ranged : Ranged source) (sound : Sound source) {position : ℕ} {jobId : Uuid}
    {url routingKey : String} {status : JobStatus} {details : JobDetails} {job : Job}
    (step : Step (platform registry) source
      (.call position ⟨.sql (.createJob jobId url routingKey status details), .ok job⟩) target) :
    details.SpansSample := by
  obtain ⟨payload, startRange, begins, rfl, -⟩ := ranged.creating.job sound.tracks step
  exact spansSample_detailsAt begins

/-- A worker requests the range of the job whose message it has received. -/
theorem samples_of_request (sound : Sound source) (traffic : Traffic source) (ranged : Ranged source)
    (tracks : requestMonitor.TracksAll source) {position : ℕ} {task : SystemTask} {config : WorkerConfig} {jobId : Uuid}
    {message : JobMessage} (present : source.tasks[position]? = some task)
    (receives : task.kind = .jobDelivery config (.workerJob jobId message)) {url : String} {rangeStart rangeEnd : ℤ}
    {reply : (Op.getRange url rangeStart rangeEnd).Reply}
    (step : Step (platform registry) source (.call position ⟨.getRange url rangeStart rangeEnd, reply⟩) target) :
    Samples source.world jobId rangeStart rangeEnd := by
  obtain ⟨kind, _, ⟨task', present', -, same, -⟩, legal, -⟩ := tracks.legal step
  obtain rfl : task = task' := Option.some.inj (present.symm.trans present')
  obtain ⟨-, rfl, rfl⟩ := legal config jobId message (same.symm.trans receives)
  obtain ⟨_, phase, ⟨task', present', flying, same', phased⟩, -⟩ := legal_of_call sound.tracks step
  obtain rfl : task = task' := Option.some.inj (present.symm.trans present')
  have here : At source position (.jobDelivery config (.workerJob jobId message)) phase :=
    ⟨task, present, flying, receives, phased⟩
  obtain ⟨⟨content, routingKey⟩, queued, rfl⟩ := List.mem_map.mp (traffic.received position _ _ _ here)
  exact ranged.published _ _ _ queued

/-- In a state of a run the next request, and that of the next job, is for one byte more than the sample. -/
structure RequestsTooMuch (registry : ServiceScalerRegistry) (pool : System) : Prop where
  created : ∀ (position : ℕ) (jobId : Uuid) (url routingKey : String) (status : JobStatus) (details : JobDetails)
    (job : Job) (later : System),
    Step (platform registry) pool (.call position ⟨.sql (.createJob jobId url routingKey status details),
      .ok job⟩) later →
    RequestsOneMore url details.startRange details.endRange details.sizeMb ∧
      ¬ RequestsSample url details.startRange details.endRange details.sizeMb
  requested : ∀ (position : ℕ) (task : SystemTask) (config : WorkerConfig) (jobId : Uuid) (message : JobMessage)
    (url : String) (rangeStart rangeEnd : ℤ) (reply : (Op.getRange url rangeStart rangeEnd).Reply) (later : System),
    pool.tasks[position]? = some task → task.kind = .jobDelivery config (.workerJob jobId message) →
    Step (platform registry) pool (.call position ⟨.getRange url rangeStart rangeEnd, reply⟩) later →
    ∃ row details, pool.world.jobs.find? jobId = some row ∧ JobDetails.ofJson? row.details = some details ∧
      details.startRange = rangeStart ∧ details.endRange = rangeEnd ∧
      RequestsOneMore url rangeStart rangeEnd details.sizeMb ∧ ¬ RequestsSample url rangeStart rangeEnd details.sizeMb

/-- No request is ever for exactly the sample. -/
theorem requestsTooMuch (registry : ServiceScalerRegistry) {ok : System → SystemEvent → Prop} {source target : System}
    {events : List SystemEvent} (initial : Initial source) (run : Run (platform registry) ok source events target) :
    RequestsTooMuch registry target := by
  obtain ⟨sound, traffic, ranged, tracks⟩ := ranged_of_run initial run
  constructor
  · intro position jobId url routingKey status details job later step
    have more := (spansSample_of_step ranged sound step).oneMore url
    exact ⟨more, more.not_sample⟩
  · intro position task config jobId message url rangeStart rangeEnd reply later present receives step
    obtain ⟨details, describes, spans, rfl, rfl⟩ := samples_of_request sound traffic ranged tracks present receives step
    obtain ⟨row, found, decoded⟩ := describes.ofJson?
    have more := spans.oneMore url
    exact ⟨row, details, found, decoded, rfl, rfl, more, more.not_sample⟩

/-! ## Samples -/

/-- The next call of a task inserts a job. -/
def createsNext (pool : System) (position : ℕ) : Bool :=
  match pool.tasks[position]? with
  | some ⟨_, _, .call (.sql (.createJob jobId ..)) _⟩ => decide (pool.world.jobs.find? jobId = none)
  | _ => false

theorem step_of_createsNext {pool : System} {position : ℕ} (creates : createsNext pool position = true) :
    ∃ jobId url routingKey status details job target, Step (platform registry) pool
      (.call position ⟨.sql (.createJob jobId url routingKey status details), .ok job⟩) target := by
  unfold createsNext at creates
  split at creates
  · next kind log jobId url routingKey status details next present =>
    have allowed : Act.Allowed pool.world ⟨.sql (.createJob jobId url routingKey status details),
        .ok ⟨jobId, url, routingKey, status, details⟩⟩ := ⟨of_decide_eq_true creates, rfl⟩
    exact ⟨jobId, url, routingKey, status, details, _, _, .call present rfl allowed⟩
  · cases creates

/-- The next call of a worker requests a range. -/
def requestsNext (pool : System) (position : ℕ) (jobId : Uuid) : Bool :=
  match pool.tasks[position]? with
  | some ⟨.jobDelivery _ (.workerJob other _), _, .call (.getRange ..) _⟩ => decide (other = jobId)
  | _ => false

theorem step_of_requestsNext {pool : System} {position : ℕ} {jobId : Uuid}
    (requests : requestsNext pool position jobId = true) :
    ∃ (task : SystemTask) (config : WorkerConfig) (message : JobMessage) (url : String) (rangeStart rangeEnd : ℤ)
      (reply : (Op.getRange url rangeStart rangeEnd).Reply) (target : System),
      pool.tasks[position]? = some task ∧ task.kind = .jobDelivery config (.workerJob jobId message) ∧
      Step (platform registry) pool (.call position ⟨.getRange url rangeStart rangeEnd, reply⟩) target := by
  unfold requestsNext at requests
  split at requests
  · next config other message log url rangeStart rangeEnd next present =>
    obtain rfl := of_decide_eq_true requests
    exact ⟨_, config, message, url, rangeStart, rangeEnd, .error "refused", _, present, rfl, .call present rfl trivial⟩
  · cases requests

/-- Sub-job 3 of the sample job is dispatched, and the worker requests its range. -/
theorem requestsTooMuch_worker : ∃ (events : List SystemEvent) (target : System) (url : String)
    (details : JobDetails) (row : JobRow),
    Run (platform ⟨false⟩) (fun _ _ => True) (sampleSystem .online) events target ∧
      target.world.jobs.find? 1 = some row ∧ JobDetails.ofJson? row.details = some details ∧
      ¬ RequestsSample url details.startRange details.endRange details.sizeMb := by
  have replayed : ((replay ⟨false⟩ (fun _ _ => true) (sampleSystem .online)
      (sampleCreation ++ sampleTick 1 7 ++ sampleTick 2 7 ++ received sampleWorker 3 13)).any
      fun target => requestsNext target 3 1) = true := by
    decide +kernel
  obtain ⟨events, target, run, requests⟩ := exists_run_of_replay replayed
  obtain ⟨task, config, message, url, rangeStart, rangeEnd, reply, later, present, receives, step⟩ :=
    step_of_requestsNext requests
  obtain ⟨row, details, found, decoded, rfl, rfl, -, exact⟩ :=
    (requestsTooMuch ⟨false⟩ (initial_sampleSystem .online) run).requested 3 task config 1 message url
      rangeStart rangeEnd
      reply later present receives step
  exact ⟨events, target, url, details, row, run.mono fun _ _ _ => trivial, found, decoded, exact⟩

/-- The job of the sample request. -/
theorem not_requestsExact : ¬ RequestsExact ⟨false⟩ := by
  intro requestsExact
  have replayed : ((replay ⟨false⟩ (fun _ _ => true) (sampleSystem .online)
      (.start (.createJob sampleInput) :: goTimes 0 4)).any fun middle => createsNext middle 0) = true := by
    decide +kernel
  obtain ⟨events, middle, run, creates⟩ := exists_run_of_replay replayed
  obtain ⟨jobId, url, routingKey, status, details, job, target, step⟩ := step_of_createsNext creates
  have initial := initial_sampleSystem .online
  obtain ⟨sound, -, ranged, -⟩ := ranged_of_run initial run
  exact ((spansSample_of_step ranged sound step).oneMore url).not_sample
    (requestsExact initial (run.mono fun _ _ _ => trivial) step)

end Bms
