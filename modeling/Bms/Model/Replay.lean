import Bms.Model.System

/-! # Replaying runs

A computable scheduler for concrete runs: a move starts a task, lets a task make its next call with
the reply that the tables give in row order, lets that call fail, or sets the clock. Every replay is
a run of the system (`exists_run_of_replay`).
-/

namespace Bms

open Process

namespace Stmt

/-- The row that a statement returns when rows come in table order. -/
def answer (w : World) : (stmt : Stmt) → Option stmt.Row
  | createJob jobId url routingKey status details =>
    if w.jobs.find? jobId = none then some ⟨jobId, url, routingKey, status, details⟩ else none
  | getJobByIdWithSubjobs jobId =>
    ((w.jobs.find? jobId).bind JobRow.toJob?).map fun job => ⟨job, (w.subJobsOf jobId).map (·.toSubJob)⟩
  | createSubJob subJobId jobId status type details =>
    if w.subJobs.find? subJobId = none ∧ (w.jobs.find? jobId).isSome then
      some (insertedSubJob subJobId jobId status type details)
    else none
  | countPendingSubJobs type jobId =>
    some ((w.subJobsOf jobId).filter fun row => decide (row.type = type ∧ row.status.Unfinished)).length
  | getFirstUnfinishedSubJob => (w.subJobs.rows.find? fun row => w.IsFirstUnfinished row).bind w.withJob?
  | getSubJobByIdAndType jobId type => ((w.subJobsOf jobId).find? fun row => row.type = type).bind w.withJob?
  | saveData result =>
    if w.workerData.find? result.runId = none ∧ (w.jobs.find? result.jobId).isSome ∧
        (w.subJobs.find? result.subJobId).isSome ∧ (w.workers.find? result.workerName).isSome then some ()
    else none
  | getDataBySubJobId subJobId => some (w.dataOf subJobId)
  | getWorkersOnlineWithTopic topic => some (w.onlineWithTopic topic)
  | getInactiveOnlineWorkers => some ((w.workers.rows.filter fun row =>
      decide (row.status = .online ∧ row.lastSeen < w.now - Duration.seconds 60)).map (·.workerName))
  | insertWorkerTopics workerName topics =>
    if (w.workers.find? workerName).isSome ∨ ∀ topic ∈ topics, topic ∉ w.topics.rows then some () else none
  | insertServiceTopics serviceId topics =>
    if (w.services.find? serviceId).isSome ∨ ∀ topic ∈ topics, topic ∉ w.topics.rows then some () else none
  | getServices => some w.services.rows
  | getServicesWithTopics => some (w.services.rows.map fun row => ⟨row, w.topicsOfService row.id⟩)
  | createService .. => none
  | getServiceById serviceId | deleteServiceById serviceId => w.services.find? serviceId
  | getServicesEnabledByTopic topic => some (w.enabledByTopic topic)
  | getServicesWithDescaleDeadlineReached =>
    some (w.services.rows.filter fun row => row.descaleAt.any (· ≤ w.now))
  | clearDescaleDeadline serviceId => (w.services.find? serviceId).map fun row => { row with descaleAt := none }
  | updateServiceSetEnabled serviceId isEnabled => (w.services.find? serviceId).map fun row => { row with isEnabled }
  | updateJobStatus .. | updateJobWorkersCount .. | updateSubJobStatus .. | updateSubJobsStatusByJobId ..
  | updateSubJobStatusWithError .. | updateSubJobStatusAndDeadline .. | updateSubJobWorkersCount ..
  | updateWorkerStatus .. | updateWorkerJob .. | updateWorkerHeartbeat .. | setWorkerOffline _ | insertTopics _
  | removeWorkerTopics _ | setDescaleDeadlines .. => some ()

theorem answers_of_answer {w : World} {stmt : Stmt} {row : stmt.Row} (answered : stmt.answer w = some row) :
    stmt.answers w row := by
  cases stmt <;> simp only [answer, answers] at answered ⊢
  case createJob => grind
  case getJobByIdWithSubjobs =>
    obtain ⟨job, found, rfl⟩ := Option.map_eq_some_iff.mp answered
    exact ⟨found, .refl _⟩
  case createSubJob => grind
  case countPendingSubJobs => grind
  case getFirstUnfinishedSubJob =>
    obtain ⟨first, found, read⟩ := Option.bind_eq_some_iff.mp answered
    exact ⟨first, by simpa using List.find?_some found, read⟩
  case getSubJobByIdAndType =>
    obtain ⟨first, found, read⟩ := Option.bind_eq_some_iff.mp answered
    exact ⟨first, List.mem_of_find?_eq_some found, by simpa using List.find?_some found, read⟩
  case saveData => grind
  case insertWorkerTopics => grind
  case insertServiceTopics => grind
  case getServicesWithTopics =>
    cases answered
    refine ⟨?_, ?_⟩
    · rw [List.map_map]
      exact .of_eq (List.map_id' _)
    · intro entry member
      obtain ⟨row, -, rfl⟩ := List.mem_map.mp member
      exact .refl _
  case createService => cases answered
  all_goals first | exact answered | (cases answered; exact .refl _)

end Stmt

/-- The uuids drawn so far are all smaller. -/
def nextUuid (w : World) : Uuid := w.uuids.foldr max 0 + 1

theorem le_foldr_max {drawn : Uuid} {uuids : List Uuid} (taken : drawn ∈ uuids) : drawn ≤ uuids.foldr max 0 := by
  induction uuids with
  | nil => cases taken
  | cons first rest ih =>
    rcases List.mem_cons.mp taken with rfl | later
    · exact Nat.le_max_left ..
    · exact (ih later).trans (Nat.le_max_right ..)

theorem nextUuid_fresh (w : World) : nextUuid w ∉ w.uuids :=
  fun taken => Nat.not_succ_le_self _ (le_foldr_max taken)

/-- The reply when nothing goes wrong. -/
def answer (w : World) : (op : Op) → Option op.Reply
  | .sql stmt =>
    match stmt.answer w with
    | some row => some (.ok row)
    | none =>
      match stmt with
      | .getFirstUnfinishedSubJob => if ∀ row ∈ w.subJobs.rows, row.status.Ended then some (.error .rowNotFound) else none
      | _ => none
  | .now => some w.now
  | .newUuid => some (nextUuid w)
  | .sleep _ => some ()
  | .publishJob .. | .publishResult _ | .publishStatus _ | .basicAck => some (.ok ())
  | .describeServices service region cluster =>
    let count := w.desired (.fargate region cluster service.name)
    if IsI32 count then some (.ok (some ⟨count, count, 0⟩)) else none
  | .updateService .. => some (.ok true)
  | .dockerPs service =>
    let count := w.desired (.docker service.name)
    if 0 ≤ count then some (.ok count.toNat) else none
  | .dockerComposeUp .. => some (.ok ())
  | .parseUrl url => some (.ok ⟨"http", some "host", url⟩)
  | .headContentLength _ => some (.ok (some (.ok "2000000000")))
  | .genRange high => if 0 < high then some (0 : ℤ) else none
  | .headLatency _ => some (.ok 1)
  | .getRange .. => some (.ok ⟨true, "206", [.chunk 1]⟩)
  | .nextChunk => some ()
  | .toSocketAddrs host => some (.ok [host])
  | .pingClient _ => some (.ok ())
  | .ping _ => some (.ok 1)
  | .poll => some true
  | .panic => none

theorem allowed_of_answer {w : World} {op : Op} {reply : op.Reply} (answered : answer w op = some reply) :
    Act.Allowed w ⟨op, reply⟩ := by
  cases op with
  | sql stmt =>
    simp only [answer] at answered
    split at answered
    · next row found =>
      cases answered
      exact Stmt.answers_of_answer found
    · split at answered
      · split at answered
        · next ended =>
          cases answered
          exact ended
        · cases answered
      · cases answered
  | now => cases answered; rfl
  | newUuid => cases answered; exact nextUuid_fresh w
  | describeServices service region cluster =>
    simp only [answer] at answered
    split at answered
    · next range =>
      cases answered
      exact ⟨rfl, range⟩
    · cases answered
  | dockerPs service =>
    simp only [answer] at answered
    split at answered
    · next positive =>
      cases answered
      exact Int.toNat_of_nonneg positive
    · cases answered
  | genRange high =>
    simp only [answer] at answered
    split at answered
    · next positive =>
      cases answered
      exact ⟨le_refl _, positive⟩
    · cases answered
  | panic => cases answered
  | _ => cases answered; trivial

/-- The reply when the call fails, for the calls that can. -/
def refusal : (op : Op) → Option op.Reply
  | .sql _ => some (.error (.other "connection lost"))
  | .publishJob .. | .publishResult _ | .publishStatus _ | .basicAck => some (.error "no connection")
  | .describeServices .. => some (.error "throttled")
  | .updateService .. => some (.error "throttled")
  | .dockerPs _ => some (.error "no daemon")
  | .dockerComposeUp .. => some (.error "no daemon")
  | _ => none

theorem allowed_of_refusal {w : World} {op : Op} {reply : op.Reply} (refused : refusal op = some reply) :
    Act.Allowed w ⟨op, reply⟩ := by
  cases op <;> simp only [refusal, Option.some.injEq, reduceCtorEq] at refused <;> subst refused <;> trivial

/-- The reply when the chosen calls fail. -/
def answerUnless (fails : World → Op → Bool) (w : World) (op : Op) : Option op.Reply :=
  if fails w op then refusal op else answer w op

theorem allowed_of_answerUnless {fails : World → Op → Bool} {w : World} {op : Op} {reply : op.Reply}
    (answered : answerUnless fails w op = some reply) : Act.Allowed w ⟨op, reply⟩ := by
  unfold answerUnless at answered
  split at answered
  · exact allowed_of_refusal answered
  · exact allowed_of_answer answered

/-- A computed execution of a program is one that it may have when it runs alone. -/
theorem alone_of_eval {α : Type} {fails : World → Op → Bool} {program : Prog Calls α} {w later : World} {value : α}
    (found : program.eval (answerUnless fails) Act.after w = some (value, later)) :
    Alone alone w program later (.ret value) :=
  Prog.alone_of_eval (E := alone) (fun w => ⟨w.now, rfl⟩) (fun _ _ _ => allowed_of_answerUnless) found

inductive Move
  | start (kind : Kind)
  | go (position : ℕ)
  | fail (position : ℕ)
  | clock (now : DateTime)

/-- Let a task make its next call with the reply that `choose` gives. -/
def goWith (registry : ServiceScalerRegistry) (choose : (op : Op) → Option op.Reply) (pool : System) (position : ℕ) :
    Option (SystemEvent × System) := do
  let task ← pool.tasks[position]?
  match task.rest with
  | .ret _ => none
  | .call op next => do
    let reply ← choose op
    return (.call position ⟨op, reply⟩, ⟨(platform registry).after pool.world ⟨op, reply⟩,
      pool.tasks.set position ⟨task.kind, task.log ++ [⟨op, reply⟩], next reply⟩⟩)

def move (registry : ServiceScalerRegistry) (pool : System) : Move → Option (SystemEvent × System)
  | .start kind =>
    if Admits pool kind then
      some (.spawn kind, ⟨enter pool.world kind, pool.tasks ++ [⟨kind, [], kind.body registry⟩]⟩)
    else none
  | .go position => goWith registry (answer pool.world) pool position
  | .fail position => goWith registry refusal pool position
  | .clock now => some (.drift, ⟨{ pool.world with now }, pool.tasks⟩)

def replay (registry : ServiceScalerRegistry) (check : System → SystemEvent → Bool) (pool : System) :
    List Move → Option System
  | [] => some pool
  | first :: moves => do
    let (event, next) ← move registry pool first
    guard (check pool event)
    replay registry check next moves

theorem step_of_goWith {registry : ServiceScalerRegistry} {choose : (op : Op) → Option op.Reply} {pool target : System}
    {position : ℕ} {event : SystemEvent}
    (sound : ∀ op reply, choose op = some reply → Act.Allowed pool.world ⟨op, reply⟩)
    (moved : goWith registry choose pool position = some (event, target)) :
    Step (platform registry) pool event target := by
  simp only [goWith, bind, Option.bind_eq_some_iff] at moved
  obtain ⟨⟨kind, log, rest⟩, present, moved⟩ := moved
  cases rest with
  | ret value => cases moved
  | call op next =>
    obtain ⟨reply, chosen, moved⟩ := Option.bind_eq_some_iff.mp moved
    cases moved
    exact .call present rfl (sound op reply chosen)

theorem step_of_move {registry : ServiceScalerRegistry} {pool target : System} {first : Move} {event : SystemEvent}
    (moved : move registry pool first = some (event, target)) : Step (platform registry) pool event target := by
  cases first with
  | start kind =>
    simp only [move] at moved
    split at moved
    · next admitted =>
      cases moved
      exact .spawn admitted
    · cases moved
  | go position => exact step_of_goWith (fun _ _ => allowed_of_answer) moved
  | fail position => exact step_of_goWith (fun _ _ => allowed_of_refusal) moved
  | clock now =>
    cases moved
    exact .drift ⟨now, rfl⟩

theorem of_guard {α : Type} {condition : Prop} [Decidable condition] {rest : Unit → Option α} {target : α}
    (replayed : (guard condition >>= rest) = some target) : condition ∧ rest () = some target := by
  obtain ⟨_, meets, found⟩ := Option.bind_eq_some_iff.mp replayed
  simp only [guard] at meets
  split at meets
  · next holds => exact ⟨holds, found⟩
  · cases meets

/-- A replay is a run, and every step of it has passed the check. -/
theorem run_of_replay {registry : ServiceScalerRegistry} {check : System → SystemEvent → Bool} {pool target : System}
    {moves : List Move} (replayed : replay registry check pool moves = some target) :
    ∃ events, Run (platform registry) (fun source event => check source event = true) pool events target := by
  induction moves generalizing pool with
  | nil =>
    cases replayed
    exact ⟨[], .nil _⟩
  | cons first moves ih =>
    obtain ⟨⟨event, next⟩, moved, replayed⟩ := Option.bind_eq_some_iff.mp replayed
    obtain ⟨passed, rest⟩ := of_guard replayed
    obtain ⟨events, run⟩ := ih rest
    exact ⟨event :: events, .cons passed (step_of_move moved) run⟩

/-- What holds at the end of a replay holds at the end of some run. -/
theorem exists_run_of_replay {registry : ServiceScalerRegistry} {check : System → SystemEvent → Bool} {pool : System}
    {moves : List Move} {test : System → Bool} (found : (replay registry check pool moves).any test = true) :
    ∃ events target, Run (platform registry) (fun source event => check source event = true) pool events target ∧
      test target = true := by
  obtain ⟨target, replayed, holds⟩ := (Option.any_eq_true ..).mp found
  obtain ⟨events, run⟩ := run_of_replay replayed
  exact ⟨events, target, run, holds⟩

/-! ## A small system -/

/-- The statuses of a sub-job and of a job, if the row exists. -/
def World.subJobStatus? (w : World) (id : Uuid) : Option SubJobStatus := (w.subJobs.find? id).map (·.status)

def World.jobStatus? (w : World) (id : Uuid) : Option JobStatus := (w.jobs.find? id).map (·.status)

def sampleService : Service where
  id := 100
  name := "eu-workers"
  providerType := .awsFargate
  details := .obj [("cluster", .str "bms"), ("region", .str "eu-west-1")]
  isEnabled := true
  descaleAt := none

/-- One service and one registered worker of the topic "eu". -/
def sampleWorld (status : WorkerStatus) : World where
  now := 0
  uuids := []
  jobs := .empty
  subJobs := .empty
  workerData := .empty
  workers := Table.empty.insert ⟨"w1", status, 0, none, none, none⟩
  topics := Table.empty.insert "eu"
  workerTopics := Table.empty.insert ("w1", "eu")
  services := Table.empty.insert sampleService
  serviceTopics := Table.empty.insert (100, "eu")
  jobQueue := []
  statusQueue := []
  resultQueue := []
  desired _ := 0

def sampleSystem (status : WorkerStatus) : System := ⟨sampleWorld status, []⟩

theorem initial_sampleSystem (status : WorkerStatus) : Initial (sampleSystem status) := by
  constructor <;> rfl

/-- Job 1 with its measuring sub-job 3, whose results have been saved. -/
def measuredWith (details : Json) (results : List ResultMessage) : World := { sampleWorld .online with
  jobs := Table.empty.insert ⟨1, "http://host/file", "eu", .processing, details, 0⟩
  subJobs := Table.empty.insert ⟨⟨3, 1, .processing, .combinedDHP, .obj [], none⟩, 0⟩
  workerData := results.foldl (fun rows result => rows.insert (Stmt.savedRow (sampleWorld .online) result)) .empty }

def sampleDetails : Json := (JobDetails.new 0 10 1 none none 1000 100).toJson

/-- A result of sub-job 3 with a download. -/
def downloadedResult (runId : Uuid) (downloadSpeed timeToFirstByteMs : ℚ) : ResultMessage where
  runId
  jobId := 1
  subJobId := 3
  workerName := "w1"
  isSuccess := true
  downloadResult := .ok {
    totalBytes := 10
    elapsedSecs := .finite 1
    downloadSpeed := .finite downloadSpeed
    jobStartTime := 0
    downloadStartTime := 0
    endTime := 0
    timeToFirstByteMs := .finite timeToFirstByteMs
    secondBySecondLogs := [] }
  pingResult := .error ⟨""⟩
  headResult := .error ⟨""⟩

def sampleInput : CreateJobInput where
  url := "http://host/file"
  routingKey := "eu"
  workerCount := some 1
  entity := none
  note := none
  sizeMb := none
  logIntervalMs := none

def sampleWorker : WorkerConfig := ⟨"w1", ["eu"]⟩

def goTimes (position count : ℕ) : List Move := List.replicate count (.go position)

/-- A creation at a position, which inserts its four sub-jobs a second apart. -/
def creationFrom (position : ℕ) (start : ℤ) : List Move :=
  .start (.createJob sampleInput) :: goTimes position 7 ++ [.clock (Duration.seconds (start + 1))] ++
    goTimes position 2 ++ [.clock (Duration.seconds (start + 2))] ++ goTimes position 2 ++
    [.clock (Duration.seconds (start + 3))] ++ goTimes position 2 ++ [.clock (Duration.seconds (start + 4))]

/-- The task at position 0 creates job 1 with the sub-jobs 2 (scaling), 3, 4 and 5. -/
def sampleCreation : List Move := creationFrom 0 0

def sampleJob : Job := ⟨1, "http://host/file", "eu", .pending, .new 0 104857600 1 none none 1000 100⟩

/-- A sub-job of job 1 as a tick picks it before its dispatch. -/
def sampleSubJob (id : Uuid) (type : SubJobType) (details : SubJobDetails) : SubJobWithJob where
  id
  jobId := 1
  status := .created
  type
  details := details.toJson
  deadlineAt := none
  job := sampleJob

example : ((replay ⟨false⟩ (fun _ _ => true) (sampleSystem .online) sampleCreation).map fun pool =>
    pool.world.subJobs.rows.map pool.world.withJob?) = some [some (sampleSubJob 2 .scaling { topic := some "eu" }),
      some (sampleSubJob 3 .combinedDHP { partialPct := some 1 }),
      some (sampleSubJob 4 .combinedDHP { partialPct := some 80 }), some (sampleSubJob 5 .combinedDHP {})] := by
  decide +kernel

/-- A pass of the handler at a position, making so many calls. -/
def sampleTick (position count : ℕ) : List Move := .start .subJobTick :: goTimes position count

/-- The message that a tick publishes for a sub-job of job 1 that leaves no worker out. -/
def sampleMessage (subJobId : Uuid) (now : DateTime) : Message := .workerJob 1 {
  jobId := 1
  subJobId
  url := "http://host/file"
  startTime := now + Duration.seconds 1
  downloadStartTime := now + Duration.seconds 11
  startRange := 0
  endRange := 104857600
  excludedWorkers := []
  logIntervalMs := 1000 }

/-- The message with which the worker announces the start of a sub-job of job 1. -/
def sampleStart (subJobId runId : Uuid) (now : DateTime) : Message :=
  .workerStatus ⟨"w1", .job (some ⟨runId, 1, subJobId, "w1"⟩), now⟩

/-- A worker receives the message of sub-job 3, published at 4 s, and does so many calls. -/
def received (worker : WorkerConfig) (position count : ℕ) : List Move :=
  .start (.jobDelivery worker (sampleMessage 3 (Duration.seconds 4))) :: goTimes position count

/-- Job 1 is created, its scaling sub-job needs no workers, sub-job 3 is dispatched and the worker
announces the start. -/
def announcedStart : List Move := sampleCreation ++ sampleTick 1 7 ++ sampleTick 2 7 ++ received sampleWorker 3 4

/-- The announced start of sub-job 3 is processed by the task at a position. -/
def startProcessed (position : ℕ) : List Move :=
  .start (.statusDelivery (sampleStart 3 6 (Duration.seconds 4))) :: goTimes position 2

/-- What a worker answers that has received the message after the start time. -/
def lateAnswer (runId : Uuid) (workerName : String) : Message :=
  .workerResult 1 (.aborted runId 1 3 workerName "Start time is in the past")

/-- A result is saved by the task at a position. -/
def saved (result : Message) (position : ℕ) : List Move := [.start (.dataDelivery result), .go position]

/-- A check that admits only tasks of some kinds. -/
def spawnsOnly (kinds : Kind → Bool) (_ : System) : SystemEvent → Bool
  | .spawn kind => kinds kind
  | _ => true

/-- A check that admits no repository failure. -/
def succeeds (_ : System) : SystemEvent → Bool
  | .call _ ⟨.sql _, .error (.other _)⟩ => false
  | _ => true

theorem noFailure_of_succeeds {pool : System} {event : SystemEvent} (check : succeeds pool event = true) :
    NoFailure event := by
  rintro position ⟨op, reply⟩ rfl failure
  cases op with
  | sql stmt => rcases reply with (_ | _) | _ <;> first | exact failure | cases check
  | _ => exact failure

/-- No task of these kinds is in flight. -/
def idle (kinds : Kind → Bool) (pool : System) : Bool :=
  pool.tasks.all fun task => !kinds task.kind || !decide task.InFlight

theorem not_inFlight_of_idle {kinds : Kind → Bool} {pool : System} (still : idle kinds pool = true) {task : SystemTask}
    (member : task ∈ pool.tasks) (kind : kinds task.kind = true) : ¬ task.InFlight := by
  simpa [kind] using List.all_eq_true.mp still task member

/-- Jobs are created and cancelled, ticks run, and workers answer with status messages and results. -/
def Kind.ofJobs : Kind → Bool
  | .createJob _ | .cancelJob _ | .subJobTick | .jobDelivery .. | .statusDelivery _ | .dataDelivery _ => true
  | _ => false

def Kind.isTick : Kind → Bool
  | .subJobTick => true
  | _ => false

def Kind.isCreation : Kind → Bool
  | .createJob _ => true
  | _ => false

def Kind.isCancellation : Kind → Bool
  | .cancelJob _ => true
  | _ => false

end Bms
