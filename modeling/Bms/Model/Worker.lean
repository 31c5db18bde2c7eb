import Bms.Model.Op
import Bms.Model.Wire
import Bms.Process.Join

/-! # Workers

`worker/src`. A worker that receives a job message announces the start, waits for the start time and
measures; the three measurements run in one task. Times in error texts are written in nanoseconds.
-/

namespace Bms

open Process Fallible

structure WorkerConfig where
  workerName : String
  workerTopics : List String
deriving DecidableEq, Inhabited

namespace DateTime

/-- The first and the last moment that can be represented. -/
def minUtc : DateTime := -8334601228800 * 1000000000

def maxUtc : DateTime := 8210266876799 * 1000000000 + 999999999

/-- Adding panics outside of the range. -/
def add? (time : DateTime) (duration : Duration) : Option DateTime :=
  if minUtc ≤ time + duration ∧ time + duration ≤ maxUtc then some (time + duration) else none

/-- Whole milliseconds since the epoch, rounded down. -/
def timestampMillis (time : DateTime) : ℤ := time / 1000000

end DateTime

/-- A number of milliseconds must not be the smallest 64-bit one. -/
def Duration.milliseconds? (n : ℤ) : Option Duration := if n = -2 ^ 63 then none else some (Duration.milliseconds n)

/-- A request, and the headers it is sent with. -/
structure HttpRequest where
  url : String
  range : String
  userAgent : String
  accept : String
deriving DecidableEq

namespace Download

/-- The request that is sent by the call `getRange`. -/
def prepareRequest (url : String) (rangeStart rangeEnd : ℤ) : HttpRequest where
  url
  range := s!"bytes={rangeStart}-{rangeEnd}"
  userAgent := "curl/7.68.0"
  accept := "*/*"

def maxDownloadDuration : Duration := Duration.seconds 60

/-- The next multiple of the interval; an interval of zero panics, as does leaving the range. -/
def calculateNextInterval (current : DateTime) (intervalMilis : ℤ) : Option DateTime := do
  guard (intervalMilis ≠ 0)
  let millis := (DateTime.timestampMillis current).tmod intervalMilis
  let remainingMillis ← Duration.milliseconds? (castI64 (intervalMilis - millis))
  DateTime.add? current remainingMillis

def waitForStartTime (payload : JobMessage) : Fallible Calls String Unit := do
  let now ← utcNow
  if payload.downloadStartTime < now then
    throw s!"Start time is in the past, now: {now}, download_start_time: {payload.downloadStartTime}"
  else attempt (.sleep (payload.downloadStartTime - now)) .ok

structure Progress where
  bytes : ℕ
  totalBytes : ℕ
  nextLogTime : DateTime
  secondBySecondLogs : List (DateTime × ℕ × ℕ)

/-- The loop over the chunks of the body; a chunk that times out ends it. -/
def downloadChunks (payload : JobMessage) (downloadStartTime : DateTime) :
    List ChunkReply → Progress → Fallible Calls DownloadError Progress
  | [], progress => pure progress
  | reply :: replies, progress => do
    attempt .nextChunk .ok
    match reply with
    | .done | .timedOut => pure progress
    | .failed e => throw ⟨s!"ChunkError: {e}"⟩
    | .chunk chunkSize => do
      let bytes := wrapU64 (progress.bytes + chunkSize)
      let totalBytes := wrapU64 (progress.totalBytes + chunkSize)
      let currentTime ← utcNow
      if maxDownloadDuration ≤ currentTime - downloadStartTime then
        pure { progress with bytes, totalBytes }
      else if progress.nextLogTime ≤ currentTime then do
        let nextLogTime ← unwrap (calculateNextInterval currentTime payload.logIntervalMs)
        downloadChunks payload downloadStartTime replies {
          bytes := 0, totalBytes, nextLogTime
          secondBySecondLogs := progress.secondBySecondLogs ++ [(currentTime, bytes, totalBytes)] }
      else downloadChunks payload downloadStartTime replies { progress with bytes, totalBytes }

def process (payload : JobMessage) : Fallible Calls DownloadError DownloadResult := do
  let jobStartTime ← utcNow
  (waitForStartTime payload).mapError fun e => ⟨s!"TimeSyncError: {e}"⟩
  let response ← attempt (.getRange payload.url payload.startRange payload.endRange)
    (Except.mapError fun e => ⟨s!"RequestError: {e}"⟩)
  if !response.isSuccess then throw ⟨s!"RequestFailed: {response.status}"⟩
  else do
    let timeToFirstByteMs := F64.ofInt (Duration.numMilliseconds ((← utcNow) - jobStartTime))
    let downloadStartTime ← utcNow
    let nextLogTime ← unwrap (calculateNextInterval downloadStartTime payload.logIntervalMs)
    let progress ← downloadChunks payload downloadStartTime response.body ⟨0, 0, nextLogTime, []⟩
    if progress.totalBytes = 0 then throw ⟨"Downloaded 0 bytes"⟩
    else do
      let endTime ← utcNow
      let elapsedSecs := (F64.ofInt (Duration.numMilliseconds (endTime - downloadStartTime))).div (.ofInt 1000)
      let downloadSpeed :=
        ((F64.ofInt progress.totalBytes).mul (.ofInt 8)).div ((elapsedSecs.mul (.ofInt 1024)).mul (.ofInt 1024))
      pure {
        totalBytes := progress.totalBytes
        elapsedSecs, downloadSpeed, jobStartTime, downloadStartTime, endTime, timeToFirstByteMs
        secondBySecondLogs := progress.secondBySecondLogs }

end Download

/-- The smallest, the largest and the average of a non-empty list. -/
def latencyStatistics (latencies : List ℚ) : F64 × F64 × F64 :=
  (.finite (latencies.min?.getD 0), .finite (latencies.max?.getD 0), .finite (latencies.sum / latencies.length))

/-- Both latency measurements stop two seconds before the download. -/
def loopDeadline {ε : Type} (payload : JobMessage) : Fallible Calls ε DateTime :=
  unwrap (DateTime.add? payload.downloadStartTime (-Duration.seconds 2))

namespace Ping

def seqMax : ℕ := 10

def packetsThreshold : ℕ := seqMax / 2

/-- The pings that are left, from `seq` on; a lost packet is skipped. -/
def pingLoop (deadline : DateTime) : (left seq : ℕ) → List ℚ → Fallible Calls PingError (List ℚ)
  | 0, _, latencies => pure latencies
  | left + 1, seq, latencies => do
    let now ← utcNow
    if deadline ≤ now then pure latencies
    else do
      let duration ← attempt (.ping seq) fun reply => .ok reply.toOption
      pingLoop deadline left (seq + 1) (latencies ++ duration.toList)

def process (payload : JobMessage) : Fallible Calls PingError PingResult := do
  let deadline ← loopDeadline payload
  let url ← attempt (.parseUrl payload.url) (Except.mapError fun e => ⟨s!"UrlParseError: {e}"⟩)
  let host ← outcome (url.hostStr.elim (.error ⟨"Failed to extract host from URL"⟩) .ok)
  let addresses ← attempt (.toSocketAddrs host)
    (Except.mapError fun _ => ⟨"Failed to extract IP address from socket addr"⟩)
  let ipAddress ← outcome
    (addresses.head?.elim (.error ⟨"Failed to extract IP address from socket addr"⟩) .ok)
  attempt (.pingClient ipAddress) (Except.mapError fun e => ⟨s!"SurgePingClientError: {e}"⟩)
  let latencies ← pingLoop deadline seqMax 0 []
  if latencies.length < packetsThreshold then throw ⟨"Too many packets lost"⟩
  else
    let (min, max, avg) := latencyStatistics latencies
    pure { min, max, avg, ipAddress }

end Ping

namespace Head

def numRequests : ℕ := 10

def headLoop (url : String) (deadline : DateTime) : (left : ℕ) → List ℚ → Fallible Calls HeadError (List ℚ)
  | 0, latencies => pure latencies
  | left + 1, latencies => do
    let now ← utcNow
    if deadline ≤ now then pure latencies
    else do
      let elapsed ← attempt (.headLatency url) (Except.mapError fun e => ⟨s!"RequestError: {e}"⟩)
      headLoop url deadline left (latencies ++ [elapsed * 1000])

def process (payload : JobMessage) : Fallible Calls HeadError HeadResult := do
  let deadline ← loopDeadline payload
  let latencies ← headLoop payload.url deadline numRequests []
  if latencies.isEmpty then throw ⟨"No successful requests"⟩
  else
    let (min, max, avg) := latencyStatistics latencies
    pure { min, max, avg }

end Head

namespace StatusSender

/-- The message is stamped with the time of sending. -/
def sendStatus (config : WorkerConfig) (status : WorkerStatusDetails) : Fallible Calls String Unit := do
  let timestamp ← utcNow
  attempt (.publishStatus (.workerStatus { workerName := config.workerName, status, timestamp })) id

def sendLifecycleStatus (config : WorkerConfig) (status : WorkerStatus) : Fallible Calls String Unit :=
  sendStatus config (.lifecycle { workerTopics := config.workerTopics, workerStatus := status })

def sendJobStatus (config : WorkerConfig) (details : Option WorkerStatusJobDetails) : Fallible Calls String Unit :=
  sendStatus config (.job details)

def sendHeartbeatStatus (config : WorkerConfig) : Fallible Calls String Unit := sendStatus config .heartbeat

end StatusSender

namespace JobConsumer

inductive Error
  | unexpectedMessage
  | unreadable
  | outOfRange
deriving DecidableEq

def parseMessage (content : Json) : Fallible Calls Error (Uuid × JobMessage) :=
  match Message.ofJson? .hyphenated content with
  | some (.workerJob jobId payload) => pure (jobId, payload)
  | some _ => throw .unexpectedMessage
  | none => throw .unreadable

/-- The three measurements, run side by side. -/
def measure (message : JobMessage) :
    Fallible Calls Error (Except DownloadError DownloadResult × Except PingError PingResult × Except HeadError HeadResult) :=
  ExceptT.mk (.ok <$> Prog.join Op.poll id (Download.process message).run
    (Prog.join Op.poll id (Ping.process message).run (Head.process message).run))

/-- The clock is read a second time after the start has been announced. -/
def processMessage (config : WorkerConfig) (jobId : Uuid) (message : JobMessage) : Fallible Calls Error ResultMessage := do
  let runId ← attempt .newUuid .ok
  let subJobId := message.subJobId
  let now ← utcNow
  if message.startTime < now then
    pure (.aborted runId jobId subJobId config.workerName "Start time is in the past")
  else do
    let _ ← (StatusSender.sendJobStatus config (some ⟨runId, jobId, subJobId, config.workerName⟩)).optional
    let sleepDuration := message.startTime - (← utcNow)
    if sleepDuration < 0 then throw .outOfRange
    else do
      attempt (.sleep sleepDuration) .ok
      let (downloadResult, pingResult, headResult) ← measure message
      let _ ← (StatusSender.sendJobStatus config none).optional
      pure {
        runId, jobId, subJobId
        workerName := config.workerName
        isSuccess := downloadResult.toBool
        downloadResult, pingResult, headResult }

/-- What `run` does with a message that it has read. The failure to publish the result is ignored. -/
def handleMessage (config : WorkerConfig) (jobId : Uuid) (message : JobMessage) : Fallible Calls Error Unit :=
  if config.workerName ∈ message.excludedWorkers then pure ()
  else do
    let result ← processMessage config jobId message
    attempt (.publishResult (.workerResult jobId result)) fun _ => .ok ()

def run (config : WorkerConfig) (content : Json) : Fallible Calls Error Unit := do
  let (jobId, message) ← parseMessage content
  handleMessage config jobId message

/-- The message is acknowledged in any case. -/
def consume (config : WorkerConfig) (content : Json) : Prog Calls Unit := do
  let _ ← (run config content).run
  acknowledge

end JobConsumer

end Bms
