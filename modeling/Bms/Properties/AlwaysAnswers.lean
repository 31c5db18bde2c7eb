import Bms.Process.Oracle
import Bms.Protocol.JobCoverage

/-! # Workers that answer

A worker reads the clock, announces the start and reads the clock again before it sleeps. If the start
time has passed in between, it stops without a result and without announcing the end. Otherwise it
measures, and answers exactly once, unless the network never answers one of the measurements or a
measurement panics.
-/

namespace Bms

open Process Fallible

/-- The readings of the clock, in order. -/
def readings (log : List Act) : List DateTime := log.filterMap fun
  | ⟨.now, reading⟩ => some reading
  | _ => none

/-- The results that are published. -/
def resultsIn (log : List Act) : List (Uuid × ResultMessage) := log.filterMap fun
  | ⟨.publishResult (.workerResult jobId result), _⟩ => some (jobId, result)
  | _ => none

/-- The sending of a status of the worker's job is attempted: a start, or an end. -/
def Attempted (log : List Act) (starts : Bool) : Prop :=
  ∃ workerName details timestamp reply, Option.isSome details = starts ∧
    ⟨.publishStatus (.workerStatus ⟨workerName, .job details, timestamp⟩), reply⟩ ∈ log

/-- The calls of a measurement that wait for the network without a limit. -/
def Op.Remote : Op → Prop
  | .getRange .. | .headLatency _ | .toSocketAddrs _ | .pingClient _ | .ping _ => True
  | _ => False

/-- Every call is answered at some time, those that wait for the network and a panic apart. -/
def Responsive (oracle : Oracle Calls) : Prop :=
  ∀ (log : List Act) (op : Op), ¬ op.Remote → op ≠ .panic → (oracle log op).isSome

/-- What a worker does with a message that it receives: its calls, and what is left when it has returned, has
panicked or waits for ever. -/
def handled (oracle : Oracle Calls) (config : WorkerConfig) (jobId : Uuid) (message : JobMessage) :
    List Act × Prog Calls (Except JobConsumer.Error Unit) :=
  Prog.consult oracle [] (JobConsumer.run config (Message.workerJob jobId message).sent).run

/-- Exactly one result of the worker for the sub-job is published, and a start is followed by an end. -/
def Answers (config : WorkerConfig) (jobId : Uuid) (message : JobMessage) (log : List Act) : Prop :=
  (∃ result, resultsIn log = [(jobId, result)] ∧ result.subJobId = message.subJobId ∧
    result.workerName = config.workerName) ∧
    (Attempted log true → Attempted log false)

/-- A worker answers every message that it can read and that does not exclude it, whatever the clock shows and
however the status messages fare. -/
def AlwaysAnswers : Prop :=
  ∀ (config : WorkerConfig) (jobId : Uuid) (message : JobMessage) (oracle : Oracle Calls), message.Sendable →
    config.workerName ∉ message.excludedWorkers → Responsive oracle →
    (readings (handled oracle config jobId message).1).Pairwise (· ≤ ·) →
    Answers config jobId message (handled oracle config jobId message).1

/-! ## What makes a measurement panic -/

/-- A chunk comes at a time that is to be logged and that no next interval follows. The body of the response
comes with the readings of the clock after its chunks. -/
def NoNextLog (payload : JobMessage) (downloadStartTime : DateTime) :
    (nextLogTime : DateTime) → List ChunkReply → List DateTime → Prop
  | nextLogTime, .chunk _ :: body, currentTime :: later =>
    currentTime - downloadStartTime < Download.maxDownloadDuration ∧
      if nextLogTime ≤ currentTime then
        match Download.calculateNextInterval currentTime payload.logIntervalMs with
        | none => True
        | some next => NoNextLog payload downloadStartTime next body later
      else NoNextLog payload downloadStartTime nextLogTime body later
  | _, _, _ => False

/-- The responses to a download's request. -/
def responsesIn (log : List Act) : List HttpResponse := log.filterMap fun
  | ⟨.getRange .., .ok response⟩ => some response
  | _ => none

/-- No interval follows the start of a response's body, the first reading, or a chunk that is logged. -/
def Untimed (payload : JobMessage) (response : HttpResponse) : List DateTime → Prop
  | [] => False
  | downloadStartTime :: later =>
    match Download.calculateNextInterval downloadStartTime payload.logIntervalMs with
    | none => True
    | some next => NoNextLog payload downloadStartTime next response.body later

/-- The replies to a download: the request succeeds, and its body, which starts with the fourth reading of the
clock, cannot be timed. -/
def NoNextInterval (payload : JobMessage) (own : List Act) : Prop :=
  ∃ response, (responsesIn own).head? = some response ∧ response.isSuccess = true ∧
    Untimed payload response ((readings own).drop 3)

/-- The times make a measurement panic: the calendar starts less than two seconds before the download, or the
download, by its own calls among those of all three measurements, comes to an interval that has no end. -/
def MeasurementsPanic (message : JobMessage) (calls : List Act) : Prop :=
  DateTime.add? message.downloadStartTime (-Duration.seconds 2) = none ∨
    ∃ measurements own others, measurements <+: calls ∧
      Prog.Joined Op.poll id (Download.process message).run
        (Prog.join Op.poll id (Ping.process message).run (Head.process message).run) measurements own others ∧
      NoNextInterval message own

/-- The network never answers a call of a measurement. -/
def Unanswered {α : Type} (rest : Prog Calls α) : Prop := ∃ op next, rest = .call op next ∧ op.Remote

/-- The message comes after its start time, or the start time has not passed when the start has been announced,
the network answers every call of the measurements, which begin with the seventh call, and these do not panic. -/
def Answerable {α : Type} (message : JobMessage) (course : List Act × Prog Calls α) : Prop :=
  (∃ first, (readings course.1)[0]? = some first ∧ message.startTime < first) ∨
    (∃ second, (readings course.1)[2]? = some second ∧ second ≤ message.startTime) ∧
      ¬ Unanswered course.2 ∧ ¬ MeasurementsPanic message (course.1.drop 6)

variable {config : WorkerConfig} {jobId : Uuid} {message : JobMessage}

/-- A program that has returned, that has panicked or that waits for the network. -/
def Stopped {α : Type} (rest : Prog Calls α) : Prop :=
  (∃ value, rest = .ret value) ∨ ∃ op next, rest = .call op next ∧ (op.Remote ∨ op = .panic)

/-- A program that has stopped has got past every call but a panic and those to the network. -/
theorem stopped_call {α : Type} {op : Op} {next : op.Reply → Prog Calls α} {log : List Act} {rest : Prog Calls α}
    (run : Prog.Reaches (.call op next) log rest) (stopped : Stopped rest) (here : ¬ op.Remote) (going : op ≠ .panic) :
    ∃ (reply : op.Reply) (tail : List Act), log = ⟨op, reply⟩ :: tail ∧ Prog.Reaches (next reply) tail rest := by
  cases run with
  | nil =>
    obtain ⟨value, same⟩ | ⟨op', next', same, waits⟩ := stopped
    · cases same
    · cases same
      exact absurd waits (not_or.mpr ⟨here, going⟩)
  | cons tail => exact ⟨_, _, rfl, tail⟩

/-- A sequence that has stopped has stopped in its first part, or got past it. -/
theorem stopped_bind {α β : Type} {program : Prog Calls α} {next : α → Prog Calls β} {log : List Act}
    {rest : Prog Calls β} (run : Prog.Reaches (program >>= next) log rest) (stopped : Stopped rest) :
    (∃ op going going', Prog.Reaches program log (.call op going) ∧ rest = .call op going' ∧
      (op.Remote ∨ op = .panic)) ∨
      ∃ first second value, log = first ++ second ∧ Prog.Reaches program first (.ret value) ∧
        Prog.Reaches (next value) second rest := by
  obtain ⟨middle, left, rfl⟩ | past := run.bind_inv
  · cases middle with
    | ret value => exact .inr ⟨log, [], value, (List.append_nil log).symm, left, .nil _⟩
    | call op going =>
      obtain ⟨value, same⟩ | ⟨_, _, same, waits⟩ := stopped
      · cases same
      · cases same
        exact .inl ⟨op, going, _, left, rfl, waits⟩
  · exact .inr past

/-! ## When a download panics -/

section Panics

/-- No call is a panic. -/
abbrev Calm {α : Type} (program : Prog Calls α) : Prop := program.Only (· ≠ Op.panic)

theorem calm_pingLoop (deadline : DateTime) (left seq : ℕ) (latencies : List ℚ) :
    Calm (Ping.pingLoop deadline left seq latencies).run := by
  induction left generalizing seq latencies with
  | zero => trivial
  | succ left ih =>
    exact Fallible.Only.bind ((only_attempt ..).mpr nofun) fun _ => .ite (only_pure _) <|
      .bind ((only_attempt ..).mpr nofun) fun _ => ih ..

theorem calm_headLoop (url : String) (deadline : DateTime) (left : ℕ) (latencies : List ℚ) :
    Calm (Head.headLoop url deadline left latencies).run := by
  induction left generalizing latencies with
  | zero => trivial
  | succ left ih =>
    exact Fallible.Only.bind ((only_attempt ..).mpr nofun) fun _ => .ite (only_pure _) <|
      .bind ((only_attempt ..).mpr nofun) fun _ => ih _

variable {deadline : DateTime} (known : DateTime.add? message.downloadStartTime (-Duration.seconds 2) = some deadline)

include known

theorem calm_loopDeadline {ε : Type} : Calm (loopDeadline message : Fallible Calls ε DateTime).run := by
  rw [loopDeadline, known]
  trivial

theorem calm_ping : Calm (Ping.process message).run :=
  Fallible.Only.bind (calm_loopDeadline known) fun _ => .bind ((only_attempt ..).mpr nofun) fun _ =>
    .bind (only_outcome _) fun _ => .bind ((only_attempt ..).mpr nofun) fun _ => .bind (only_outcome _) fun _ =>
      .bind ((only_attempt ..).mpr nofun) fun _ => .bind (calm_pingLoop ..) fun _ => .ite (only_throw _) (only_pure _)

theorem calm_head : Calm (Head.process message).run :=
  Fallible.Only.bind (calm_loopDeadline known) fun _ => .bind (calm_headLoop ..) fun _ =>
    .ite (only_throw _) (only_pure _)

end Panics

/-- A program that awaits a panic. -/
def Panicked {α : Type} (rest : Prog Calls α) : Prop := ∃ next, rest = .call .panic next

theorem Calm.not_panicked {α : Type} {program rest : Prog Calls α} {log : List Act} (calm : Calm program)
    (run : Prog.Reaches program log rest) : ¬ Panicked rest := by
  rintro ⟨next, rfl⟩
  exact (calm.feed run).1 rfl

theorem not_panicked_call {α : Type} {op : Op} {next : op.Reply → Prog Calls α} (going : op ≠ .panic) :
    ¬ Panicked (.call op next) := by
  rintro ⟨next', same⟩
  cases same
  exact going rfl

/-- From a part of the body on, a download panics at a chunk that no next interval follows. -/
theorem downloadChunks_panicked {payload : JobMessage} {downloadStartTime : DateTime} {body : List ChunkReply}
    {progress : Download.Progress} {rest : Download.Progress → Fallible Calls DownloadError DownloadResult}
    {own : List Act} {left : Prog Calls (Except DownloadError DownloadResult)}
    (calm : ∀ progress, Calm (rest progress).run)
    (run : Prog.Reaches (Download.downloadChunks payload downloadStartTime body progress >>= rest).run own left) :
    Panicked left ↔ NoNextLog payload downloadStartTime progress.nextLogTime body (readings own) := by
  induction body generalizing progress own with
  | nil => exact iff_of_false (Calm.not_panicked (calm progress) run) id
  | cons part body ih =>
    cases run with
    | nil => exact iff_of_false (not_panicked_call nofun) (by cases part <;> exact id)
    | @cons _ _ waited own _ run =>
      cases part with
      | done | timedOut => exact iff_of_false (Calm.not_panicked (calm progress) run) id
      | failed e =>
        obtain ⟨rfl, rfl⟩ := Prog.Reaches.ret_inv run
        exact iff_of_false (by rintro ⟨_, same⟩; cases same) id
      | chunk chunkSize =>
        cases run with
        | nil => exact iff_of_false (not_panicked_call nofun) id
        | @cons _ _ currentTime own _ run =>
          have run : Prog.Reaches ((if Download.maxDownloadDuration ≤ currentTime - downloadStartTime then
              pure { progress with
                bytes := wrapU64 (progress.bytes + chunkSize), totalBytes := wrapU64 (progress.totalBytes + chunkSize) }
            else if progress.nextLogTime ≤ currentTime then
              unwrap (Download.calculateNextInterval currentTime payload.logIntervalMs) >>= fun nextLogTime =>
                Download.downloadChunks payload downloadStartTime body _
            else Download.downloadChunks payload downloadStartTime body _) >>= rest).run own left := run
          have read : readings (⟨.nextChunk, waited⟩ :: ⟨.now, currentTime⟩ :: own) = currentTime :: readings own := rfl
          rw [read, NoNextLog]
          by_cases late : Download.maxDownloadDuration ≤ currentTime - downloadStartTime
          · rw [if_pos late] at run
            exact iff_of_false (Calm.not_panicked (calm _) run) fun fails => not_lt.mpr late fails.1
          rw [if_neg late] at run
          rw [and_iff_right (not_le.mp late)]
          by_cases logs : progress.nextLogTime ≤ currentTime
          · rw [if_pos logs] at run ⊢
            cases next : Download.calculateNextInterval currentTime payload.logIntervalMs with
            | some nextLogTime =>
              rw [next] at run
              exact ih run
            | none =>
              rw [next] at run
              refine iff_of_true ?_ trivial
              cases run with
              | nil => exact ⟨_, rfl⟩
              | @cons _ _ reply => exact Empty.elim reply
          · rw [if_neg logs] at run ⊢
            have goes := ih run
            exact goes

/-- A download's part after the response head. -/
def receiving (payload : JobMessage) (jobStartTime : DateTime) (response : HttpResponse) :
    Fallible Calls DownloadError DownloadResult :=
  if !response.isSuccess then throw ⟨s!"RequestFailed: {response.status}"⟩
  else do
    let timeToFirstByteMs := F64.ofInt (Duration.numMilliseconds ((← utcNow) - jobStartTime))
    let downloadStartTime ← utcNow
    let nextLogTime ← unwrap (Download.calculateNextInterval downloadStartTime payload.logIntervalMs)
    let progress ← Download.downloadChunks payload downloadStartTime response.body ⟨0, 0, nextLogTime, []⟩
    if progress.totalBytes = 0 then throw ⟨"Downloaded 0 bytes"⟩
    else do
      let endTime ← utcNow
      let elapsedSecs := (F64.ofInt (Duration.numMilliseconds (endTime - downloadStartTime))).div (.ofInt 1000)
      let downloadSpeed :=
        ((F64.ofInt progress.totalBytes).mul (.ofInt 8)).div ((elapsedSecs.mul (.ofInt 1024)).mul (.ofInt 1024))
      pure {
        totalBytes := progress.totalBytes
        elapsedSecs, downloadSpeed, jobStartTime, downloadStartTime, endTime, timeToFirstByteMs
        secondBySecondLogs := progress.secondBySecondLogs }

theorem download_eq (payload : JobMessage) : Download.process payload = (do
    let jobStartTime ← utcNow
    (Download.waitForStartTime payload).mapError fun e => ⟨s!"TimeSyncError: {e}"⟩
    let response ← attempt (.getRange payload.url payload.startRange payload.endRange)
      (Except.mapError fun e => ⟨s!"RequestError: {e}"⟩)
    receiving payload jobStartTime response) := rfl

theorem not_panicked_ret {α : Type} (value : α) : ¬ Panicked (.ret value) := by
  rintro ⟨_, same⟩
  cases same

/-- The body of a successful response starts with the second reading of the clock after the head. -/
theorem receiving_panicked {payload : JobMessage} {jobStartTime : DateTime} {response : HttpResponse} {own : List Act}
    {left : Prog Calls (Except DownloadError DownloadResult)}
    (run : Prog.Reaches (receiving payload jobStartTime response).run own left) :
    Panicked left ↔ response.isSuccess = true ∧ Untimed payload response ((readings own).drop 1) := by
  rw [receiving] at run
  cases successful : response.isSuccess with
  | false =>
    rw [successful] at run
    obtain ⟨rfl, rfl⟩ := Prog.Reaches.ret_inv run
    exact iff_of_false (not_panicked_ret _) fun fails => fails.2
  | true =>
    rw [successful] at run
    rw [and_iff_right rfl]
    cases run with
    | nil => exact iff_of_false (not_panicked_call nofun) id
    | @cons _ _ head own _ run =>
      cases run with
      | nil => exact iff_of_false (not_panicked_call nofun) id
      | @cons _ _ downloadStartTime own _ run =>
        have run : Prog.Reaches (unwrap (Download.calculateNextInterval downloadStartTime payload.logIntervalMs) >>=
          fun nextLogTime => Download.downloadChunks payload downloadStartTime response.body ⟨0, 0, nextLogTime, []⟩ >>=
            fun progress => _).run own left := run
        have read : (readings (⟨.now, head⟩ :: ⟨.now, downloadStartTime⟩ :: own)).drop 1 =
          downloadStartTime :: readings own := rfl
        rw [read, Untimed]
        cases next : Download.calculateNextInterval downloadStartTime payload.logIntervalMs with
        | some nextLogTime =>
          rw [next] at run
          have run : Prog.Reaches (Download.downloadChunks payload downloadStartTime response.body ⟨0, 0, nextLogTime, []⟩ >>=
            fun progress => _).run own left := run
          refine downloadChunks_panicked (fun progress => ?_) run
          exact Fallible.Only.ite (only_throw _) (.bind ((only_attempt ..).mpr (by nofun)) fun _ => only_pure _)
        | none =>
          rw [next] at run
          refine iff_of_true ?_ trivial
          cases run with
          | nil => exact ⟨_, rfl⟩
          | @cons _ _ reply => exact Empty.elim reply

/-- A download panics where no interval follows the start of the body or a chunk that is logged. -/
theorem download_panicked {payload : JobMessage} {own : List Act}
    {left : Prog Calls (Except DownloadError DownloadResult)}
    (run : Prog.Reaches (Download.process payload).run own left) : Panicked left ↔ NoNextInterval payload own := by
  have unread {own : List Act} (none : responsesIn own = []) : ¬ NoNextInterval payload own := by
    rintro ⟨response, first, -⟩
    rw [none] at first
    cases first
  rw [download_eq] at run
  cases run with
  | nil => exact iff_of_false (not_panicked_call nofun) (unread rfl)
  | @cons _ _ jobStartTime own _ run =>
    cases run with
    | nil => exact iff_of_false (not_panicked_call nofun) (unread rfl)
    | @cons _ _ now own _ run =>
      have run : Prog.Reaches ((if payload.downloadStartTime < now then
          throw s!"Start time is in the past, now: {now}, download_start_time: {payload.downloadStartTime}"
        else attempt (.sleep (payload.downloadStartTime - now)) .ok : Fallible Calls String Unit).mapError
          (fun e => (⟨s!"TimeSyncError: {e}"⟩ : DownloadError)) >>= fun _ => _).run own left := run
      by_cases late : payload.downloadStartTime < now
      · rw [if_pos late] at run
        obtain ⟨rfl, rfl⟩ := Prog.Reaches.ret_inv run
        exact iff_of_false (not_panicked_ret _) (unread rfl)
      rw [if_neg late] at run
      cases run with
      | nil => exact iff_of_false (not_panicked_call nofun) (unread rfl)
      | @cons _ _ slept own _ run =>
        cases run with
        | nil => exact iff_of_false (not_panicked_call nofun) (unread rfl)
        | @cons _ _ reply own _ run =>
          cases reply with
          | error e =>
            obtain ⟨rfl, rfl⟩ := Prog.Reaches.ret_inv run
            exact iff_of_false (not_panicked_ret _) (unread rfl)
          | ok response =>
            rw [receiving_panicked run]
            constructor
            · exact fun fails => ⟨response, rfl, fails⟩
            · rintro ⟨_, first, fails⟩
              cases first
              exact fails

/-! ## When the measurements panic -/

theorem returns_of_panicked {α : Type} {rest : Prog Calls α} (panicked : Panicked rest) : rest.Returns fun _ => False := by
  obtain ⟨next, rfl⟩ := panicked
  exact fun reply : Empty => reply.elim

/-- The measurements return when all three of them have returned. -/
theorem measure_ret {calls : List Act} {value : Except JobConsumer.Error _}
    (run : Prog.Reaches (JobConsumer.measure message).run calls (.ret value)) :
    ∃ results, value = .ok results ∧ Prog.Reaches (Prog.join Op.poll id (Download.process message).run
      (Prog.join Op.poll id (Ping.process message).run (Head.process message).run)) calls (.ret results) := by
  obtain ⟨middle, joined, same⟩ | ⟨first, second, results, rfl, joined, ended⟩ := Prog.Reaches.bind_inv run
  · cases middle with
    | ret results =>
      cases same
      exact ⟨results, rfl, joined⟩
    | call => cases same
  · obtain ⟨rfl, same⟩ := Prog.Reaches.ret_inv ended
    cases same
    rw [List.append_nil]
    exact ⟨results, rfl, joined⟩

theorem measurementsPanic_of_call {calls : List Act} {going : Empty → Prog Calls _}
    (run : Prog.Reaches (JobConsumer.measure message).run calls (.call .panic going)) :
    MeasurementsPanic message calls := by
  cases known : DateTime.add? message.downloadStartTime (-Duration.seconds 2) with
  | none => exact .inl known
  | some deadline =>
    obtain ⟨middle, both, same⟩ | ⟨_, _, _, -, -, ended⟩ := Prog.Reaches.bind_inv run
    · obtain ⟨own, others, joined⟩ := Prog.exists_joined both
      obtain ⟨download, latencies, rest, onLeft, onRight, both', abreast⟩ := joined.reaches
      obtain rfl := both.unique both'
      have awaits : ∃ next, middle = .call .panic next := by
        cases middle with
        | ret => cases same
        | call => cases same; exact ⟨_, rfl⟩
      obtain ⟨next, awaits⟩ := awaits
      obtain same | panicked | panicked := abreast.calls _ _ awaits
      · cases same
      · exact .inr ⟨calls, own, others, List.prefix_rfl, joined, (download_panicked onLeft).mp panicked⟩
      · have calm : Calm (Prog.join Op.poll id (Ping.process message).run (Head.process message).run) :=
          .join nofun (calm_ping known) (calm_head known)
        exact absurd panicked (Calm.not_panicked calm onRight)
    · cases (Prog.Reaches.ret_inv ended).2

theorem not_measurementsPanic_of_ret {calls later : List Act} {value : Except JobConsumer.Error _}
    (run : Prog.Reaches (JobConsumer.measure message).run calls (.ret value)) :
    ¬ MeasurementsPanic message (calls ++ later) := by
  obtain ⟨results, -, returned⟩ := measure_ret run
  rintro (outside | ⟨measurements, own, others, begins, joined, fails⟩)
  · have panics : (Ping.process message).run.Returns fun _ => False := by
      rw [Ping.process, loopDeadline, outside]
      exact fun reply : Empty => reply.elim
    exact ((Prog.returns_any _).join (panics.join (Prog.returns_any _))).of_reaches returned |>.2.1
  · obtain ⟨download, latencies, rest, onLeft, -, both, abreast⟩ := joined.reaches
    have never := abreast.returns _ _ (returns_of_panicked ((download_panicked onLeft).mpr fails)) (Prog.returns_any _)
    obtain ⟨more, rfl⟩ | ⟨more, rfl⟩ := List.prefix_or_prefix_of_prefix begins (List.prefix_append calls later)
    · obtain ⟨middle, first, second⟩ := returned.append_inv
      obtain rfl := first.unique both
      exact (never.of_reaches second).1
    · obtain ⟨middle, first, second⟩ := both.append_inv
      obtain rfl := first.unique returned
      obtain ⟨-, rfl⟩ := Prog.Reaches.ret_inv second
      exact never.1

/-! ## The course of a message -/

/-- The worker's part after the sleep. -/
def measuring (config : WorkerConfig) (jobId : Uuid) (message : JobMessage) (runId : Uuid) :
    Fallible Calls JobConsumer.Error ResultMessage := do
  let (downloadResult, pingResult, headResult) ← JobConsumer.measure message
  let _ ← (StatusSender.sendJobStatus config none).optional
  pure {
    runId, jobId, subJobId := message.subJobId
    workerName := config.workerName
    isSuccess := downloadResult.toBool
    downloadResult, pingResult, headResult }

/-- The worker's part after a first reading of the clock that is not past the start time. -/
def announcing (config : WorkerConfig) (jobId : Uuid) (message : JobMessage) (runId : Uuid) :
    Fallible Calls JobConsumer.Error ResultMessage := do
  let _ ← (StatusSender.sendJobStatus config (some ⟨runId, jobId, message.subJobId, config.workerName⟩)).optional
  let sleepDuration := message.startTime - (← utcNow)
  if sleepDuration < 0 then throw .outOfRange
  else do
    attempt (.sleep sleepDuration) .ok
    measuring config jobId message runId

theorem processMessage_eq : JobConsumer.processMessage config jobId message = (do
    let runId ← attempt .newUuid .ok
    let now ← utcNow
    if message.startTime < now then
      pure (.aborted runId jobId message.subJobId config.workerName "Start time is in the past")
    else announcing config jobId message runId) := rfl

/-- The publication of a result. -/
def publishing (jobId : Uuid) (result : ResultMessage) : Fallible Calls JobConsumer.Error Unit :=
  attempt (.publishResult (.workerResult jobId result)) fun _ => .ok ()

theorem run_eq (sendable : message.Sendable) (included : config.workerName ∉ message.excludedWorkers) :
    JobConsumer.run config (Message.workerJob jobId message).sent =
      JobConsumer.processMessage config jobId message >>= publishing jobId :=
  (JobConsumer.run_sent sendable).trans (JobConsumer.handleMessage_included included)

/-- The calls up to the second look at the clock. -/
def announcement (config : WorkerConfig) (jobId : Uuid) (message : JobMessage) (runId : Uuid)
    (first stamp second : DateTime) (sent : Except String Unit) : List Act :=
  [⟨.newUuid, runId⟩, ⟨.now, first⟩, ⟨.now, stamp⟩,
    ⟨.publishStatus (.workerStatus ⟨config.workerName,
      .job (some ⟨runId, jobId, message.subJobId, config.workerName⟩), stamp⟩), sent⟩, ⟨.now, second⟩]

/-- What becomes of a message: the calls that a worker has made when it has stopped, and what is left. -/
inductive Course (config : WorkerConfig) (jobId : Uuid) (message : JobMessage) :
    List Act → Prog Calls (Except JobConsumer.Error Unit) → Prop
  | aborted {runId : Uuid} {first : DateTime} {result : ResultMessage} {done : Except String Unit}
      (passed : message.startTime < first) (own : result.subJobId = message.subJobId)
      (worker : result.workerName = config.workerName) :
      Course config jobId message
        [⟨.newUuid, runId⟩, ⟨.now, first⟩, ⟨.publishResult (.workerResult jobId result), done⟩] (.ret (.ok ()))
  /-- the start time has passed between the readings -/
  | gaveUp {runId : Uuid} {first stamp second : DateTime} {sent : Except String Unit}
      (early : ¬ message.startTime < first) (late : message.startTime < second) :
      Course config jobId message (announcement config jobId message runId first stamp second sent)
        (.ret (.error .outOfRange))
  /-- a measurement panics, or the network does not answer it -/
  | stuck {runId : Uuid} {first stamp second : DateTime} {sent : Except String Unit} {duration : Duration}
      {measurements : List Act} {op : Op} {going : op.Reply → Prog Calls _} {going' : op.Reply → Prog Calls _}
      (early : ¬ message.startTime < first) (inTime : second ≤ message.startTime)
      (reached : Prog.Reaches (JobConsumer.measure message).run measurements (.call op going))
      (waits : op.Remote ∨ op = .panic) :
      Course config jobId message
        (announcement config jobId message runId first stamp second sent ++ ⟨.sleep duration, ()⟩ :: measurements)
        (.call op going')
  | measured {runId : Uuid} {first stamp second stamp' : DateTime} {sent sent' done : Except String Unit}
      {duration : Duration} {measurements : List Act} {result : ResultMessage} {value : Except JobConsumer.Error _}
      (early : ¬ message.startTime < first) (inTime : second ≤ message.startTime)
      (returned : Prog.Reaches (JobConsumer.measure message).run measurements (.ret value))
      (own : result.subJobId = message.subJobId) (worker : result.workerName = config.workerName) :
      Course config jobId message
        (announcement config jobId message runId first stamp second sent ++ ⟨.sleep duration, ()⟩ ::
          (measurements ++
            [⟨.now, stamp'⟩, ⟨.publishStatus (.workerStatus ⟨config.workerName, .job none, stamp'⟩), sent'⟩] ++
            [⟨.publishResult (.workerResult jobId result), done⟩])) (.ret (.ok ()))

/-- The measurements do not return, or the end is announced and a result is there. -/
theorem course_of_measuring {runId : Uuid} {log : List Act} {rest : Prog Calls _}
    (run : Prog.Reaches (measuring config jobId message runId).run log rest) (stopped : Stopped rest) :
    (∃ op going going', Prog.Reaches (JobConsumer.measure message).run log (.call op going) ∧ rest = .call op going' ∧
      (op.Remote ∨ op = .panic)) ∨
      ∃ measurements value stamp sent result,
        log = measurements ++ [⟨.now, stamp⟩,
          ⟨.publishStatus (.workerStatus ⟨config.workerName, .job none, stamp⟩), sent⟩] ∧
        Prog.Reaches (JobConsumer.measure message).run measurements (.ret value) ∧ rest = .ret (.ok result) ∧
        result.subJobId = message.subJobId ∧ result.workerName = config.workerName := by
  obtain ⟨op, going, going', reached, same, waits⟩ | ⟨measurements, tail, value, rfl, returned, reported⟩ :=
    stopped_bind run stopped
  · exact .inl ⟨op, going, going', reached, same, waits⟩
  · obtain ⟨results, rfl, -⟩ := measure_ret returned
    obtain ⟨stamp, afterStamp, rfl, stamped⟩ := stopped_call reported stopped id nofun
    obtain ⟨sent, afterEnd, rfl, ended⟩ := stopped_call stamped stopped id nofun
    obtain ⟨rfl, rfl⟩ := Prog.Reaches.ret_inv ended
    exact .inr ⟨measurements, _, stamp, sent, _, rfl, returned, rfl, rfl, rfl⟩

theorem course_of_reaches {log : List Act} {rest : Prog Calls _} (sendable : message.Sendable)
    (included : config.workerName ∉ message.excludedWorkers)
    (run : Prog.Reaches (JobConsumer.run config (Message.workerJob jobId message).sent).run log rest)
    (stopped : Stopped rest) : Course config jobId message log rest := by
  rw [run_eq sendable included, processMessage_eq] at run
  obtain ⟨runId, afterDraw, rfl, drawn⟩ := stopped_call run stopped id nofun
  obtain ⟨first, afterFirst, rfl, checked⟩ := stopped_call drawn stopped id nofun
  have checked : Prog.Reaches ((if message.startTime < first then
      pure (.aborted runId jobId message.subJobId config.workerName "Start time is in the past")
      else announcing config jobId message runId) >>= publishing jobId).run afterFirst rest := checked
  by_cases passed : message.startTime < first
  · rw [if_pos passed] at checked
    obtain ⟨done, afterResult, rfl, ended⟩ := stopped_call checked stopped id nofun
    obtain ⟨rfl, rfl⟩ := Prog.Reaches.ret_inv ended
    exact .aborted passed rfl rfl
  · rw [if_neg passed] at checked
    obtain ⟨stamp, afterStamp, rfl, stamped⟩ := stopped_call checked stopped id nofun
    obtain ⟨sent, afterStart, rfl, started⟩ := stopped_call stamped stopped id nofun
    obtain ⟨second, afterSecond, rfl, again⟩ := stopped_call started stopped id nofun
    have again : Prog.Reaches ((if message.startTime - second < 0 then throw .outOfRange
      else attempt (Op.sleep (message.startTime - second)) .ok >>= fun _ =>
        measuring config jobId message runId) >>= publishing jobId).run afterSecond rest := again
    by_cases late : message.startTime - second < 0
    · rw [if_pos late] at again
      obtain ⟨rfl, rfl⟩ := Prog.Reaches.ret_inv again
      exact .gaveUp passed (sub_neg.mp late)
    · rw [if_neg late] at again
      have inTime : second ≤ message.startTime := sub_nonneg.mp (not_lt.mp late)
      obtain ⟨slept, afterSleep, rfl, awake⟩ := stopped_call again stopped id nofun
      obtain ⟨op, going, going', reached, rfl, waits⟩ | ⟨log, tail, value, rfl, returned, published⟩ :=
        stopped_bind awake stopped
      · obtain ⟨op', inside, _, reached, same, -⟩ | ⟨_, _, _, _, _, -, -, same, -⟩ :=
          course_of_measuring reached (.inr ⟨op, going, rfl, waits⟩)
        · cases same
          exact .stuck passed inTime reached waits
        · cases same
      · obtain ⟨_, _, _, -, same, -⟩ | ⟨measurements, value', stamp', sent', result, rfl, measured, same, own, worker⟩ :=
          course_of_measuring returned (.inl ⟨value, rfl⟩)
        · cases same
        · cases same
          obtain ⟨done, afterResult, rfl, ended⟩ := stopped_call published stopped id nofun
          obtain ⟨rfl, rfl⟩ := Prog.Reaches.ret_inv ended
          exact .measured passed inTime measured own worker

/-! ## Who answers -/

theorem resultsIn_append (first second : List Act) : resultsIn (first ++ second) = resultsIn first ++ resultsIn second :=
  List.filterMap_append

theorem resultsIn_of_quiet {log : List Act} (quiet : ∀ made ∈ log, made.op.Quiet) : resultsIn log = [] := by
  rw [resultsIn, List.filterMap_eq_nil_iff]
  intro made member
  split
  · exact (quiet _ member).elim
  · rfl

theorem resultsIn_of_measure {log : List Act} {rest : Prog Calls _}
    (run : Prog.Reaches (JobConsumer.measure message).run log rest) : resultsIn log = [] :=
  resultsIn_of_quiet (Prog.Only.reaches (quiet_of_local (local_measure message)) run)

theorem not_answers {log : List Act} (none : resultsIn log = []) : ¬ Answers config jobId message log := by
  rintro ⟨⟨result, some, -⟩, -⟩
  rw [none] at some
  cases some

theorem Course.answers_iff {log : List Act} {rest : Prog Calls _} (course : Course config jobId message log rest) :
    Answers config jobId message log ↔ Answerable message (log, rest) := by
  cases course with
  | @aborted runId first result done passed own worker =>
    refine iff_of_true ⟨⟨result, rfl, own, worker⟩, ?_⟩ (.inl ⟨first, rfl, passed⟩)
    rintro ⟨_, _, _, _, -, member⟩
    simp at member
  | @gaveUp runId first stamp second sent early late =>
    apply iff_of_false (not_answers rfl)
    rintro (⟨_, read, passed⟩ | ⟨⟨_, read, inTime⟩, -⟩)
    · cases read
      exact early passed
    · cases read
      exact not_lt.mpr inTime late
  | @stuck runId first stamp second sent duration measurements op going going' early inTime reached waits =>
    refine iff_of_false (not_answers ?_) ?_
    · have none : resultsIn measurements = [] := resultsIn_of_measure reached
      exact none
    · rintro (⟨_, read, passed⟩ | ⟨-, answered, calm⟩)
      · cases read
        exact early passed
      · obtain remote | rfl := waits
        · exact answered ⟨op, going', rfl, remote⟩
        · exact calm (measurementsPanic_of_call reached)
  | @measured runId first stamp second stamp' sent sent' done duration measurements result value early inTime returned
      own worker =>
    refine iff_of_true ⟨⟨result, ?_, own, worker⟩, fun _ => ?_⟩ (.inr ⟨⟨second, rfl, inTime⟩, ?_, ?_⟩)
    · have answered : resultsIn (measurements ++
          [⟨.now, stamp'⟩, ⟨.publishStatus (.workerStatus ⟨config.workerName, .job none, stamp'⟩), sent'⟩] ++
          [⟨.publishResult (.workerResult jobId result), done⟩]) = [(jobId, result)] := by
        rw [resultsIn_append, resultsIn_append, resultsIn_of_measure returned]
        rfl
      exact answered
    · exact ⟨config.workerName, none, stamp', sent', rfl, by simp⟩
    · rintro ⟨_, _, same, -⟩
      cases same
    · have calm (later : List Act) : ¬ MeasurementsPanic message (measurements ++ later) :=
        not_measurementsPanic_of_ret returned
      have atEnd := calm ([⟨.now, stamp'⟩, ⟨.publishStatus (.workerStatus ⟨config.workerName, .job none, stamp'⟩), sent'⟩] ++
        [⟨.publishResult (.workerResult jobId result), done⟩])
      rw [← List.append_assoc] at atEnd
      exact atEnd

/-- Where every call but those to the network is answered, a worker answers a message exactly when it finds it too
late at once, or finds it in time twice and measures to the end. -/
theorem answers_iff_answerable (config : WorkerConfig) (jobId : Uuid) (message : JobMessage) (oracle : Oracle Calls)
    (sendable : message.Sendable) (included : config.workerName ∉ message.excludedWorkers) (responsive : Responsive oracle) :
    Answers config jobId message (handled oracle config jobId message).1 ↔
      Answerable message (handled oracle config jobId message) := by
  obtain ⟨made, grown, run, stops⟩ := Prog.consult_reaches oracle []
    (JobConsumer.run config (Message.workerJob jobId message).sent).run
  have stopped : Stopped (handled oracle config jobId message).2 := by
    refine stops.imp_right fun ⟨before, op, next, waits, never⟩ => ⟨op, next, waits, ?_⟩
    by_contra neither
    obtain ⟨here, going⟩ := not_or.mp neither
    have answered := responsive before op here going
    rw [never] at answered
    cases answered
  rw [List.nil_append] at grown
  rw [← grown] at run
  exact (course_of_reaches sendable included run stopped).answers_iff

/-! ## Two clocks -/

/-- A message that leaves no worker out, with a start time of one second. -/
def punctualMessage : JobMessage where
  jobId := 1
  subJobId := 3
  url := "http://host/file"
  startTime := Duration.seconds 1
  downloadStartTime := Duration.seconds 11
  startRange := 0
  endRange := 104857600
  excludedWorkers := []
  logIntervalMs := 1000

theorem sendable_punctualMessage : punctualMessage.Sendable := by
  exact ⟨by unfold IsI64; decide, by unfold IsI64; decide, by unfold IsI64; decide⟩

/-- Every call but a panic is answered; the clock shows what it does after so many calls. -/
def answering (clock : ℕ → DateTime) : Oracle Calls
  | log, .now => some (clock log.length)
  | _, .newUuid => some (6 : Uuid)
  | _, .sql _ => some (.error .rowNotFound)
  | _, .sleep _ | _, .nextChunk => some ()
  | _, .publishJob .. | _, .publishResult _ | _, .publishStatus _ | _, .basicAck => some (.ok ())
  | _, .describeServices .. => some (.ok none)
  | _, .updateService .. => some (.ok true)
  | _, .dockerPs _ => some (.ok (0 : ℕ))
  | _, .dockerComposeUp .. => some (.ok ())
  | _, .parseUrl url => some (.ok ⟨"http", some "host", url⟩)
  | _, .headContentLength _ => some (.ok none)
  | _, .genRange _ => some (0 : ℤ)
  | _, .headLatency _ => some (.ok (1 / 4 : ℚ))
  | _, .getRange .. => some (.ok ⟨true, "206", [.chunk 1048576, .done]⟩)
  | _, .toSocketAddrs _ => some (.ok ["10.0.0.1"])
  | _, .pingClient _ => some (.ok ())
  | _, .ping _ => some (.ok (1 / 8 : ℚ))
  | _, .poll => some true
  | _, .panic => none

theorem responsive_answering (clock : ℕ → DateTime) : Responsive (answering clock) := by
  intro log op _ going
  cases op with
  | panic => exact absurd rfl going
  | _ => rfl

set_option maxRecDepth 4000 in
/-- A second passes with every ten calls: all three measurements succeed. -/
theorem answers_iff_answerable_measured : Answerable punctualMessage
    (handled (answering fun calls => Duration.seconds (calls / 10)) ⟨"w1", ["eu"]⟩ 1 punctualMessage) := by
  have answers : Answers ⟨"w1", ["eu"]⟩ 1 punctualMessage
      (handled (answering fun calls => Duration.seconds (calls / 10)) ⟨"w1", ["eu"]⟩ 1 punctualMessage).1 := by
    refine ⟨⟨_, rfl, rfl, rfl⟩, fun _ => ⟨"w1", none, Duration.seconds 9, .ok (), rfl, ?_⟩⟩
    exact List.mem_of_getElem? (i := 92) rfl
  exact (answers_iff_answerable ⟨"w1", ["eu"]⟩ 1 punctualMessage _ sendable_punctualMessage (by decide)
    (responsive_answering _)).mp answers

/-- The start time passes while the start is announced. -/
theorem not_alwaysAnswers : ¬ AlwaysAnswers := by
  intro always
  have answers := always ⟨"w1", ["eu"]⟩ 1 punctualMessage (answering fun calls => if calls < 4 then 0 else Duration.seconds 2)
    sendable_punctualMessage (by decide) (responsive_answering _) (by decide)
  exact not_answers rfl answers

end Bms
