import Bms.Model.Replay
import Bms.Protocol.Details
import Bms.Protocol.Ticks
import Bms.Protocol.Wire

/-! # Messages survive the wire

Everything that is published can be read back as it was built, but for one result: a download whose
clock shows less than a millisecond between its start and its end has an infinite speed, which is
written as null.
-/

namespace Bms

open Process Fallible

/-- The message that a call publishes. -/
def Op.message? : Op → Option Message
  | .publishJob message _ | .publishResult message | .publishStatus message => some message
  | _ => none

/-- A task has built a message and tried to publish it. -/
def Built (pool : System) (message : Message) : Prop :=
  ∃ task ∈ pool.tasks, ∃ made ∈ task.log, made.op.message? = some message

/-- The message is read back as it was written. -/
def SurvivesWire (text : UuidText) (message : Message) : Prop := Message.ofJson? text (message.toJson text) = some message

/-- Whatever is built in a run survives the wire. -/
def WireSafe (text : UuidText) (registry : ServiceScalerRegistry) : Prop :=
  ∀ {source target : System} {events : List SystemEvent} {message : Message}, Initial source →
    Run (platform registry) (fun _ _ => True) source events target → Built target message → SurvivesWire text message

/-- A download that ends in the millisecond in which it has started. -/
def DownloadResult.Instant (result : DownloadResult) : Prop :=
  Duration.numMilliseconds (result.endTime - result.downloadStartTime) = 0

instance (result : DownloadResult) : Decidable result.Instant := inferInstanceAs (Decidable (_ = _))

def Message.Instant : Message → Prop
  | .workerResult _ result => ∃ download, result.downloadResult = .ok download ∧ download.Instant
  | _ => False

/-! ## What the measurements return -/

section Measurements

/-- Every call is free and nothing is noted; only the values returned matter. -/
abbrev Yields {ε α : Type} (program : Fallible Calls ε α) (good : α → Prop) : Prop :=
  Fallible.Obeys (fun (_ : Unit) _ => ()) (fun _ _ => True) program () (fun value _ => good value) fun _ _ => True

theorem yields_any {ε α : Type} (program : Fallible Calls ε α) : Yields program fun _ => True := by
  change Prog.Obeys _ _ program.run () _
  induction program.run with
  | ret reached => cases reached <;> trivial
  | call op next ih => exact ⟨trivial, ih⟩

/-- Whatever the first part returns, the second part yields what it has to. -/
theorem Yields.andThen {ε α β : Type} {program : Fallible Calls ε α} {rest : α → Fallible Calls ε β} {good : β → Prop}
    (next : ∀ value, Yields (rest value) good) : Yields (program >>= rest) good :=
  (obeys_bind ..).mpr (Obeys.mono (yields_any program) (fun value _ _ => next value) fun _ _ _ => trivial)

/-- Byte counts are those of a 64-bit machine. -/
structure Download.Progress.InRange (progress : Download.Progress) : Prop where
  bytes : progress.bytes < 2 ^ 64
  totalBytes : progress.totalBytes < 2 ^ 64
  logs : ∀ log ∈ progress.secondBySecondLogs, log.2.1 < 2 ^ 64 ∧ log.2.2 < 2 ^ 64

theorem wrapU64_lt (value : ℕ) : wrapU64 value < 2 ^ 64 := Nat.mod_lt _ (by decide)

theorem downloadChunks_yields (payload : JobMessage) (downloadStartTime : DateTime) (replies : List ChunkReply)
    {progress : Download.Progress} (inRange : progress.InRange) :
    Yields (Download.downloadChunks payload downloadStartTime replies progress) Download.Progress.InRange := by
  induction replies generalizing progress with
  | nil => exact inRange
  | cons reply replies ih =>
    refine .andThen fun _ => ?_
    cases reply with
    | done | timedOut => exact inRange
    | failed e => trivial
    | chunk chunkSize =>
      refine .andThen fun currentTime => ?_
      refine .ite (fun _ => ⟨wrapU64_lt _, wrapU64_lt _, inRange.logs⟩) fun _ => .ite (fun _ => ?_) fun _ => ?_
      · refine Yields.andThen fun nextLogTime => ih ⟨Nat.two_pow_pos 64, wrapU64_lt _, fun log member => ?_⟩
        obtain old | new := List.mem_append.mp member
        · exact inRange.logs log old
        · rw [List.mem_singleton.mp new]
          exact ⟨wrapU64_lt _, wrapU64_lt _⟩
      · exact ih ⟨wrapU64_lt _, wrapU64_lt _, inRange.logs⟩

theorem elapsedSecs_eq (milliseconds : ℤ) :
    (F64.ofInt milliseconds).div (.ofInt 1000) = .finite (milliseconds / 1000) := by
  simp [F64.ofInt, F64.div]

/-- The speed is finite unless no time has passed. -/
theorem downloadSpeed_isFinite (totalBytes : ℕ) (milliseconds : ℤ) :
    (((F64.ofInt totalBytes).mul (.ofInt 8)).div
      ((((F64.ofInt milliseconds).div (.ofInt 1000)).mul (.ofInt 1024)).mul (.ofInt 1024))).IsFinite ↔ milliseconds ≠ 0 := by
  rw [elapsedSecs_eq]
  simp only [F64.ofInt, F64.mul, F64.div]
  by_cases none : milliseconds = 0
  · subst none
    simp only [Int.cast_zero, zero_div, zero_mul, ↓reduceIte, ne_eq, not_true_eq_false, iff_false]
    split <;> exact id
  · have divisor : (milliseconds : ℚ) / 1000 * (1024 : ℤ) * (1024 : ℤ) ≠ 0 := by simp [none]
    rw [if_neg divisor]
    exact iff_of_true trivial none

theorem download_yields (payload : JobMessage) :
    Yields (Download.process payload) fun result => result.Sendable ↔ ¬ result.Instant := by
  refine .andThen fun jobStartTime => .andThen fun _ => .andThen fun response => ?_
  refine .ite (fun _ => trivial) fun _ => Yields.andThen fun firstByte => .andThen fun downloadStartTime => ?_
  refine Yields.andThen fun nextLogTime => ?_
  have start : Download.Progress.InRange ⟨0, 0, nextLogTime, []⟩ :=
    ⟨Nat.two_pow_pos 64, Nat.two_pow_pos 64, fun _ member => absurd member List.not_mem_nil⟩
  refine (obeys_bind ..).mpr (Obeys.mono (downloadChunks_yields payload downloadStartTime response.body start)
    (fun progress _ inRange => ?_) fun _ _ _ => trivial)
  refine .ite (fun _ => trivial) fun _ => Yields.andThen fun endTime => ?_
  have elapsed := elapsedSecs_eq (Duration.numMilliseconds (endTime - downloadStartTime))
  have speed := downloadSpeed_isFinite progress.totalBytes (Duration.numMilliseconds (endTime - downloadStartTime))
  exact ⟨fun sendable => speed.mp sendable.downloadSpeed, fun lasting =>
    ⟨inRange.totalBytes, by rw [elapsed]; trivial, speed.mpr lasting, trivial, inRange.logs⟩⟩

theorem ping_yields (payload : JobMessage) : Yields (Ping.process payload) PingResult.Sendable :=
  .andThen fun _ => .andThen fun _ => .andThen fun _ => .andThen fun _ => .andThen fun _ => .andThen fun _ =>
    .andThen fun _ => .ite (fun _ => trivial) fun _ => ⟨trivial, trivial, trivial⟩

theorem head_yields (payload : JobMessage) : Yields (Head.process payload) HeadResult.Sendable :=
  .andThen fun _ => .andThen fun _ => .ite (fun _ => trivial) fun _ => ⟨trivial, trivial, trivial⟩

end Measurements

/-! ## What a worker publishes -/

/-- A result that can be sent, unless its download was instant. -/
def ResultMessage.Valid (result : ResultMessage) : Prop :=
  result.Sendable ↔ ¬ ∃ download, result.downloadResult = .ok download ∧ download.Instant

theorem ResultMessage.valid_aborted (runId jobId subJobId : Uuid) (workerName error : String) :
    (ResultMessage.aborted runId jobId subJobId workerName error).Valid := by
  have sendable : (ResultMessage.aborted runId jobId subJobId workerName error).Sendable := by
    constructor <;> intro value failed <;> cases failed
  refine iff_of_true sendable ?_
  rintro ⟨download, failed, -⟩
  cases failed

/-- A worker publishes valid results only. -/
def workMonitor : Monitor Calls Kind Unit where
  start _ := ()
  note _ _ := ()
  legal kind _ op := ∀ config content jobId result, kind = .jobDelivery config content →
    op = .publishResult (.workerResult jobId result) → result.Valid
  ended _ _ := True

/-- The results of the three measurements: a download can be sent unless it was instant, the others always can. -/
def ValidResults
    (results : Except DownloadError DownloadResult × Except PingError PingResult × Except HeadError HeadResult) : Prop :=
  (∀ download, results.1 = .ok download → (download.Sendable ↔ ¬ download.Instant)) ∧
    (∀ ping, results.2.1 = .ok ping → ping.Sendable) ∧ ∀ head, results.2.2 = .ok head → head.Sendable

theorem measure_validResults (message : JobMessage) : (JobConsumer.measure message).run.Returns fun reached =>
    ∀ results, reached = .ok results → ValidResults results := by
  have alone {ε α : Type} {program : Fallible Calls ε α} {good : α → Prop} (yields : Yields program good) :
      program.run.Returns fun reached => ∀ value, reached = .ok value → good value := by
    refine Prog.returns_of_obeys (Prog.Obeys.mono yields fun reached _ holds value same => ?_)
    subst same
    exact holds
  have joined : (Prog.join Op.poll id (Download.process message).run
      (Prog.join Op.poll id (Ping.process message).run (Head.process message).run)).Returns ValidResults :=
    .join (alone (download_yields message)) (.join (alone (ping_yields message)) (alone (head_yields message)))
  refine joined.bind fun results valid results' same => ?_
  cases same
  exact valid

section Works

variable {kind : Kind} {ε α β : Type}

/-- A program that a task of this kind may run, with what it returns. -/
abbrev Works (kind : Kind) (program : Fallible Calls ε α) (good : α → Prop) : Prop :=
  Fallible.Obeys workMonitor.note (workMonitor.legal kind) program () (fun value _ => good value) fun _ _ => True

/-- A call that publishes no result. -/
def Op.Unresulting : Op → Prop
  | .publishResult _ => False
  | _ => True

theorem works_of_only {program : Prog Calls α} {post : α → Prop} (only : program.Only Op.Unresulting)
    (returns : program.Returns post) :
    program.Obeys workMonitor.note (workMonitor.legal kind) () fun value _ => post value :=
  (only.obeys_returns returns fun _ other => ⟨fun _ _ _ _ _ same => by subst same; exact other.elim, fun _ => rfl⟩).mono
    fun _ _ both => both.2

/-- A first part that publishes no result. -/
theorem Works.andThen {program : Fallible Calls ε α} {rest : α → Fallible Calls ε β} {good : β → Prop}
    (only : program.Only Op.Unresulting) (next : ∀ value, Works kind (rest value) good) :
    Works kind (program >>= rest) good := by
  refine (obeys_bind ..).mpr (Prog.Obeys.mono (works_of_only only (Prog.returns_any _)) fun reached _ _ => ?_)
  cases reached with
  | ok value => exact next value
  | error e => trivial

theorem Op.Local.unresulting {op : Op} (apart : op.Local) : op.Unresulting := by
  cases op <;> first | exact apart.elim | trivial

theorem unresulting_sendJobStatus (config : WorkerConfig) (details : Option WorkerStatusJobDetails) :
    ((StatusSender.sendJobStatus config details).optional : Fallible Calls ε (Option Unit)).Only Op.Unresulting :=
  .optional (.bind ((only_attempt ..).mpr trivial) fun _ => (only_attempt ..).mpr trivial)

theorem processMessage_works (config : WorkerConfig) (jobId : Uuid) (message : JobMessage) :
    Works kind (JobConsumer.processMessage config jobId message) ResultMessage.Valid := by
  refine .andThen ((only_attempt ..).mpr trivial) fun runId => .andThen ((only_attempt ..).mpr trivial) fun now => ?_
  refine .ite (fun _ => ResultMessage.valid_aborted ..) fun _ => ?_
  refine Works.andThen (unresulting_sendJobStatus ..) fun _ => .andThen ((only_attempt ..).mpr trivial) fun now => ?_
  refine .ite (fun _ => trivial) fun _ => ?_
  refine Works.andThen ((only_attempt ..).mpr trivial) fun _ => ?_
  have quiet := Prog.Only.mono (local_measure message) fun _ => Op.Local.unresulting
  refine (obeys_bind ..).mpr (Prog.Obeys.mono (works_of_only quiet (measure_validResults message)) fun reached _ valid => ?_)
  cases reached with
  | error e => trivial
  | ok results =>
    obtain ⟨download, ping, head⟩ := valid results rfl
    refine Works.andThen (unresulting_sendJobStatus ..) fun _ => ?_
    refine ⟨fun sendable ⟨value, same, instant⟩ => ?_, fun lasting => ⟨fun value same => ?_, ping, head⟩⟩
    · exact (download value same).mp (sendable.download value same) instant
    · exact (download value same).mpr fun instant => lasting ⟨value, same, instant⟩

theorem jobConsumer_works (config : WorkerConfig) (content : Message) :
    Works (.jobDelivery config content) (JobConsumer.run config content.sent) fun _ => True := by
  obtain ⟨jobId, message, -, -, run⟩ | ⟨value, run⟩ := JobConsumer.run_cases config content <;> rw [run]
  · refine (obeys_bind ..).mpr (Obeys.mono (processMessage_works config jobId message) (fun result _ valid => ?_)
      fun _ _ => id)
    refine (obeys_attempt ..).mpr ⟨fun _ _ _ _ _ same => ?_, fun _ => trivial⟩
    cases same
    exact valid
  · cases value <;> trivial

/-- Nothing is asked of the other tasks. -/
theorem works_of_other (other : ∀ config content, kind ≠ .jobDelivery config content) (program : Prog Calls α) :
    program.Obeys workMonitor.note (workMonitor.legal kind) () fun _ _ => True := by
  induction program with
  | ret value => trivial
  | call op next ih => exact ⟨fun _ _ _ _ same => absurd same (other _ _), ih⟩

theorem workMonitor_covers (registry : ServiceScalerRegistry) : workMonitor.Covers (platform registry) := by
  intro kind
  by_cases delivers : ∃ config content, kind = .jobDelivery config content
  · obtain ⟨config, content, rfl⟩ := delivers
    have settles : Handled workMonitor.note (workMonitor.legal (.jobDelivery config content)) (fun _ _ => True) () :=
      ⟨⟨fun _ _ _ _ _ => nofun, fun _ _ _ _ _ => nofun, fun _ => rfl⟩, trivial⟩
    exact JobConsumer.obeys_consume ((jobConsumer_works config content).mono (fun _ _ _ => settles) fun _ _ _ => settles)
  · exact works_of_other (fun config content same => delivers ⟨config, content, same⟩) (kind.body registry)

end Works

/-! ## What a run publishes -/

/-- The numbers of a job are those of its row. -/
def Act.ReadsI64 : Act → Prop
  | ⟨.sql .getFirstUnfinishedSubJob, .ok subJob⟩ => IsI64 subJob.job.details.startRange ∧
    IsI64 subJob.job.details.endRange ∧ IsI64 subJob.job.details.logIntervalMs
  | _ => True

theorem isI64_of_asI64? {value : Json} {number : ℤ} (read : value.asI64? = some number) : IsI64 number := by
  unfold Json.asI64? at read
  split at read
  · split at read
    · next range =>
      cases read
      exact range
    · cases read
  · cases read

theorem isI64_of_ofFields {a b c d e f g h : Option Json} {details : JobDetails}
    (read : JobDetails.ofFields a b c d e f g h = some details) :
    IsI64 details.startRange ∧ IsI64 details.endRange ∧ IsI64 details.logIntervalMs := by
  obtain ⟨start, stop, -, -, -, -, log, -⟩ := JobDetails.ofFields_eq_some_iff.mp read
  obtain ⟨_, -, start⟩ := Option.bind_eq_some_iff.mp start
  obtain ⟨_, -, stop⟩ := Option.bind_eq_some_iff.mp stop
  obtain ⟨_, -, log⟩ := Option.bind_eq_some_iff.mp log
  exact ⟨isI64_of_asI64? start, isI64_of_asI64? stop, isI64_of_asI64? log⟩

theorem isI64_of_ofJson? {value : Json} {details : JobDetails} (read : JobDetails.ofJson? value = some details) :
    IsI64 details.startRange ∧ IsI64 details.endRange ∧ IsI64 details.logIntervalMs := by
  unfold JobDetails.ofJson? at read
  split at read
  · exact isI64_of_ofFields read
  · exact isI64_of_ofFields read
  · cases read

theorem readsI64_of_allowed (w : World) (made : Act) (allowed : Act.Allowed w made) : made.ReadsI64 := by
  unfold Act.ReadsI64
  split
  · obtain ⟨row, -, read⟩ := allowed
    simp only [World.withJob?, bind, Option.bind_eq_some_iff, pure, Option.some.injEq] at read
    obtain ⟨jobRow, -, job, decoded, rfl⟩ := read
    simp only [JobRow.toJob?, Option.map_eq_some_iff] at decoded
    obtain ⟨details, decoded, rfl⟩ := decoded
    exact isI64_of_ofJson? decoded
  · trivial

/-- What is known of the messages that have been built. -/
structure Wired (pool : System) : Prop where
  works : workMonitor.TracksAll pool
  reads : ∀ task ∈ pool.tasks, ∀ made ∈ task.log, Act.ReadsI64 made
  built : ∀ message, Built pool message → (message.Sendable ↔ ¬ message.Instant)

variable {registry : ServiceScalerRegistry} {source target : System} {event : SystemEvent}

/-- A job message has the numbers of the job that its tick has picked. -/
theorem Wired.dispatched (wired : Wired source) {position : ℕ} {subJob : SubJobWithJob} {workers : List String}
    (here : At source position .subJobTick (.recorded subJob workers)) (startTime downloadStartTime : DateTime)
    (excluded : List String) : (jobMessageOf subJob startTime downloadStartTime excluded).Sendable := by
  have holds : Holds source subJob := here.holds rfl
  obtain ⟨task, member, -, -, picked⟩ := holds
  obtain ⟨first, last, interval⟩ := wired.reads task member _ (mem_of_pickedIn picked)
  exact ⟨first, last, interval⟩

theorem Wired.step (sound : Sound source) (wired : Wired source) (step : Step (platform registry) source event target) :
    Wired target where
  works := wired.works.step (workMonitor_covers registry) step
  reads := step.logged readsI64_of_allowed wired.reads
  built message := by
    rintro ⟨task, member, ⟨op, reply⟩, logged, builds⟩
    obtain ⟨before, old, -, earlier⟩ | ⟨position, phase, here, legal, rfl⟩ := logged_before sound.tracks step member logged
    · exact wired.built message ⟨before, old, _, earlier, builds⟩
    · generalize task.kind = kind at here legal
      cases legal with
      | publish =>
        cases builds
        exact iff_of_true (wired.dispatched here ..) id
      | announce | report =>
        cases builds
        exact iff_of_true trivial id
      | answer worker own =>
        cases builds
        obtain ⟨task', present, -, same, -⟩ := here
        obtain ⟨kind, phase', ⟨caller, present', -, rfl, -⟩, legal, -⟩ := wired.works.legal step
        obtain rfl : task' = caller := Option.some.inj (present.symm.trans present')
        exact legal _ _ _ _ same rfl
      | quiet quiet => cases op <;> first | exact quiet.elim | cases builds
      | _ => cases builds

theorem Wired.of_initial {pool : System} (initial : Initial pool) : Wired pool where
  works := Monitor.tracksAll_of_empty initial.tasks
  reads task member := by simp [initial.tasks] at member
  built message := by
    rintro ⟨task, member, -⟩
    simp [initial.tasks] at member

/-- A message that has been built survives the wire exactly when it is no result of an instant download. -/
theorem survivesWire_iff (text : UuidText) (registry : ServiceScalerRegistry) {source target : System}
    {events : List SystemEvent} {message : Message} (initial : Initial source)
    (run : Run (platform registry) (fun _ _ => True) source events target) (built : Built target message) :
    SurvivesWire text message ↔ ¬ message.Instant := by
  have wired := (sound_invariant run (fun sound wired _ step => wired.step sound step)
    (Sound.of_initial initial) (Wired.of_initial initial)).2
  exact (Message.ofJson?_toJson text message).trans (wired.built message built)

/-! ## Two runs of a worker -/

/-- The result of a successful download that meets a test has been published. -/
def publishesDownload (test : DownloadResult → Bool) (pool : System) : Bool :=
  pool.tasks.any fun task => task.log.any fun made =>
    match made.op with
    | .publishResult (.workerResult _ result) => result.downloadResult.toOption.any test
    | _ => false

theorem built_of_publishesDownload {test : DownloadResult → Bool} {pool : System}
    (publishes : publishesDownload test pool = true) : ∃ jobId result download,
      Built pool (.workerResult jobId result) ∧ result.downloadResult = .ok download ∧ test download = true := by
  obtain ⟨task, member, publishes⟩ := List.any_eq_true.mp publishes
  obtain ⟨made, logged, publishes⟩ := List.any_eq_true.mp publishes
  split at publishes
  · next jobId result published =>
    obtain ⟨download, found, meets⟩ := (Option.any_eq_true ..).mp publishes
    refine ⟨jobId, result, download, ⟨task, member, made, logged, by rw [published]; rfl⟩, ?_, meets⟩
    cases downloaded : result.downloadResult with
    | error e =>
      rw [downloaded] at found
      cases found
    | ok other =>
      rw [downloaded] at found
      cases found
      rfl
  · cases publishes

/-- The worker gets the message of sub-job 3 in time and downloads it; the clock shows `pause` more at the end. -/
def downloaded (pause : Duration) : List Move :=
  sampleCreation ++ sampleTick 1 7 ++ sampleTick 2 7 ++ received sampleWorker 3 6 ++ [.clock (Duration.seconds 5)] ++
    goTimes 3 6 ++ [.clock (Duration.seconds 15)] ++ goTimes 3 8 ++ [.clock (Duration.seconds 15 + pause)] ++ goTimes 3 16

/-- A result of a download that has taken a second. -/
theorem survivesWire_lasting : ∃ events target jobId result download,
    Run (platform ⟨false⟩) (fun _ _ => True) (sampleSystem .online) events target ∧
      Built target (.workerResult jobId result) ∧ result.downloadResult = .ok download ∧
      SurvivesWire .hyphenated (.workerResult jobId result) := by
  have replayed : ((replay ⟨false⟩ (fun _ _ => true) (sampleSystem .online) (downloaded (Duration.seconds 1))).any
      (publishesDownload fun download => decide ¬ download.Instant)) = true := by
    decide +kernel
  obtain ⟨events, target, run, found⟩ := exists_run_of_replay replayed
  have run := run.mono fun _ _ _ => trivial
  obtain ⟨jobId, result, download, built, same, lasting⟩ := built_of_publishesDownload found
  refine ⟨events, target, jobId, result, download, run, built, same, ?_⟩
  apply (survivesWire_iff .hyphenated ⟨false⟩ (initial_sampleSystem .online) run built).mpr
  rintro ⟨other, same', instant⟩
  cases same.symm.trans same'
  exact of_decide_eq_true lasting instant

/-- The whole download takes half a millisecond, and the result cannot be read. -/
theorem not_wireSafe : ¬ WireSafe .hyphenated ⟨false⟩ := by
  intro safe
  have replayed : ((replay ⟨false⟩ (fun _ _ => true) (sampleSystem .online) (downloaded 500000)).any
      (publishesDownload fun download => decide download.Instant)) = true := by
    decide +kernel
  obtain ⟨events, target, run, found⟩ := exists_run_of_replay replayed
  have run := run.mono fun _ _ _ => trivial
  obtain ⟨jobId, result, download, built, same, instant⟩ := built_of_publishesDownload found
  exact (survivesWire_iff .hyphenated ⟨false⟩ (initial_sampleSystem .online) run built).mp
    (safe (initial_sampleSystem .online) run built) ⟨download, same, of_decide_eq_true instant⟩

end Bms
