import Bms.Model.Replay
import Bms.Protocol.Deliveries

/-! # What a status message does

`StatusConsumer` processes the messages of a worker one after the other. A message changes the row of
its worker only if it is newer than everything the row has seen, in whole microseconds; the topics change
in any case.
-/

namespace Bms

open Process Fallible

/-- The message has been processed to its end, by a consumer that runs alone. -/
def Processes (w : World) (message : StatusMessage) (later : World) : Prop :=
  Alone alone w (StatusConsumer.run (Message.workerStatus message).sent).run later (.ret (.ok ()))

/-- The messages have been processed one after the other. -/
inductive ProcessesAll : World → List StatusMessage → World → Prop
  | nil (w : World) : ProcessesAll w [] w
  | cons {w middle later : World} {message : StatusMessage} {messages : List StatusMessage} :
      Processes w message middle → ProcessesAll middle messages later → ProcessesAll w (message :: messages) later

namespace StatusMessage

/-- The time of a message as a row keeps it. -/
def stamp (message : StatusMessage) : DateTime := message.timestamp.stored

/-- What a message writes into the row of its worker, if it is newer. -/
def write (message : StatusMessage) (row : WorkerRow) : WorkerRow :=
  match message.status with
  | .lifecycle details => { row with
      status := details.workerStatus, lastSeen := message.stamp, jobId := none
      startedAt := if details.workerStatus = .online then some message.stamp else row.startedAt
      shutdownAt := if details.workerStatus = .offline then some message.stamp else row.shutdownAt }
  | .job details => { row with lastSeen := message.stamp, jobId := details.map (·.jobId) }
  | .heartbeat => { row with lastSeen := message.stamp, status := .online }

/-- A newer message changes the row. -/
def update (message : StatusMessage) (row : WorkerRow) : WorkerRow :=
  if row.lastSeen < message.stamp then message.write row else row

/-- A worker that is not known yet is inserted by a lifecycle message. -/
def applyTo (message : StatusMessage) : Option WorkerRow → Option WorkerRow
  | some row => some (message.update row)
  | none =>
    match message.status with
    | .lifecycle details => some ⟨message.workerName, details.workerStatus, message.stamp, none, none, none⟩
    | _ => none

/-- The topics that a worker has after a message, from those it had before. -/
def Topics (message : StatusMessage) (before : String → Prop) (topic : String) : Prop :=
  match message.status with
  | .lifecycle ⟨topics, .online⟩ => before topic ∨ topic ∈ topics
  | .lifecycle ⟨_, .offline⟩ => False
  | _ => before topic

end StatusMessage

/-- What has become of the message's worker. -/
structure Processed (w : World) (message : StatusMessage) (later : World) : Prop where
  worker : later.workers.find? message.workerName = message.applyTo (w.workers.find? message.workerName)
  topics : ∀ topic, (message.workerName, topic) ∈ later.workerTopics.rows ↔
    message.Topics (fun topic => (message.workerName, topic) ∈ w.workerTopics.rows) topic

theorem find?_upsertWorker (workers : Table WorkerRow.workerName) (workerName : String) (details : WorkerDetails)
    (timestamp : DateTime) : (Stmt.upsertWorker workers workerName details.workerStatus timestamp).find? workerName =
      (⟨workerName, .lifecycle details, timestamp⟩ : StatusMessage).applyTo (workers.find? workerName) := by
  unfold Stmt.upsertWorker
  cases found : workers.find? workerName with
  | none => rw [Table.find?_insert_fresh found, if_pos rfl]; rfl
  | some row =>
    rw [Table.find?_updateWhere, found]
    simp [StatusMessage.applyTo, StatusMessage.update, StatusMessage.write, StatusMessage.stamp, Table.key_of_find? found]

theorem find?_guardedUpdate (w : World) (workerName : String) (stamp : DateTime) (change : WorkerRow → WorkerRow)
    (same : ∀ row, (change row).workerName = row.workerName) :
    (Stmt.updateWorkers w (fun row => decide (row.workerName = workerName ∧ row.lastSeen < stamp)) change
      same).workers.find? workerName =
        (w.workers.find? workerName).map fun row => if row.lastSeen < stamp then change row else row := by
  rw [Stmt.updateWorkers, Table.find?_updateWhere]
  cases found : w.workers.find? workerName with
  | none => rfl
  | some row => simp [Table.key_of_find? found]

/-- The topics of the workers after the second statement of an upsert. -/
theorem mem_run_insertWorkerTopics {w : World} {workerName name topic : String} {topics : List String} (done : Unit) :
    (name, topic) ∈ (Stmt.run w (.insertWorkerTopics workerName topics) done).workerTopics.rows ↔
      (name, topic) ∈ w.workerTopics.rows ∨ (workerName = name ∧ topic ∈ w.topics.rows ∧ topic ∈ topics) := by
  have fold (rows : List String) (table : Table (id : String × String → String × String)) :
      rows.foldl (fun table topic => table.insert (workerName, topic)) table =
        (rows.map (workerName, ·)).foldl Table.insert table := (List.foldl_map ..).symm
  rw [Stmt.run, fold, Table.mem_rows_foldl_insert]
  apply or_congr_right
  simp only [List.mem_map, List.mem_filter, decide_eq_true_eq, Prod.mk.injEq]
  constructor
  · rintro ⟨topic, member, same, rfl⟩
    exact ⟨same, member⟩
  · rintro ⟨same, member⟩
    exact ⟨topic, member, same, rfl⟩

/-- The topics of the worker itself; all of them are known by then. -/
theorem mem_insertWorkerTopics {w : World} {workerName topic : String} {topics : List String}
    (known : ∀ topic ∈ topics, topic ∈ w.topics.rows) (done : Unit) :
    (workerName, topic) ∈ (Stmt.run w (.insertWorkerTopics workerName topics) done).workerTopics.rows ↔
      (workerName, topic) ∈ w.workerTopics.rows ∨ topic ∈ topics := by
  refine (mem_run_insertWorkerTopics done).trans (or_congr_right ?_)
  exact ⟨fun inserted => inserted.2.2, fun member => ⟨rfl, known topic member, member⟩⟩

theorem processMessage_ensures (message : StatusMessage) (w : World) :
    (StatusConsumer.run (Message.workerStatus message).sent).Ensures alone w (fun _ later => Processed w message later)
      fun _ _ => True := by
  rw [StatusConsumer.run_sent]
  obtain ⟨workerName, status, timestamp⟩ := message
  have orFail {stmt : Stmt} {w : World} {good : stmt.Row → World → Prop}
      (returns : ∀ now row, stmt.answers { w with now } row → good row (stmt.run { w with now } row)) :
      (orFail stmt).Ensures alone w good fun _ _ => True := sql_ensures (fun _ _ => trivial) returns
  cases status with
  | lifecycle details =>
    obtain ⟨topics, status⟩ := details
    refine (ensures_bind ..).mpr (orFail fun now _ _ => ?_)
    have worker := find?_upsertWorker w.workers workerName ⟨topics, status⟩ timestamp
    cases status with
    | online =>
      refine (ensures_bind ..).mpr (orFail fun now' _ _ => orFail fun now'' done _ => ⟨worker, fun topic => ?_⟩)
      exact mem_insertWorkerTopics (fun topic member => Table.mem_rows_foldl_insert.mpr (.inr member)) done
    | offline =>
      refine orFail fun now' _ _ => ⟨worker, fun topic => iff_of_false (fun member => ?_) id⟩
      simp [Stmt.run, Table.deleteWhere] at member
  | job details =>
    refine (ensures_bind ..).mpr (orFail fun now _ _ => ?_)
    have worker := find?_guardedUpdate w workerName timestamp.stored
      (fun row => { row with lastSeen := timestamp.stored, jobId := details.map (·.jobId) }) fun _ => rfl
    have processed : Processed w ⟨workerName, .job details, timestamp⟩
        (Stmt.run { w with now } (.updateWorkerJob workerName (details.map (·.jobId)) timestamp) ()) := by
      refine ⟨worker.trans ?_, fun topic => Iff.rfl⟩
      cases w.workers.find? workerName <;> rfl
    cases details with
    | none => exact processed
    | some details => exact orFail fun now' _ _ => ⟨processed.worker, processed.topics⟩
  | heartbeat =>
    have worker := find?_guardedUpdate w workerName timestamp.stored
      (fun row => { row with lastSeen := timestamp.stored, status := .online }) fun _ => rfl
    refine orFail fun now _ _ => ⟨worker.trans ?_, fun topic => Iff.rfl⟩
    cases w.workers.find? workerName <;> rfl

theorem Processes.processed {w later : World} {message : StatusMessage} (processes : Processes w message later) :
    Processed w message later := (processMessage_ensures message w).alone processes

/-- A worker that is known stays known. -/
theorem foldl_applyTo (row : WorkerRow) (messages : List StatusMessage) :
    messages.foldl (fun row message => message.applyTo row) (some row) =
      some (messages.foldl (fun row message => message.update row) row) := by
  induction messages generalizing row with
  | nil => rfl
  | cons first rest ih => exact ih (first.update row)

/-- The row of a worker after some of its messages. -/
theorem ProcessesAll.worker {w later : World} {messages : List StatusMessage} {workerName : String}
    (processes : ProcessesAll w messages later) (own : ∀ message ∈ messages, message.workerName = workerName) :
    later.workers.find? workerName =
      messages.foldl (fun row message => message.applyTo row) (w.workers.find? workerName) := by
  induction processes with
  | nil => rfl
  | @cons w middle later message messages first _ ih =>
    obtain ⟨rfl, own⟩ := List.forall_mem_cons.mp own
    rw [ih own, List.foldl_cons, first.processed.worker]

/-- The topics of a worker after some of its messages. -/
theorem ProcessesAll.topics {w later : World} {messages : List StatusMessage} {workerName : String}
    (processes : ProcessesAll w messages later) (own : ∀ message ∈ messages, message.workerName = workerName) :
    (fun topic => (workerName, topic) ∈ later.workerTopics.rows) =
      messages.foldl (fun before message => message.Topics before) fun topic => (workerName, topic) ∈ w.workerTopics.rows := by
  induction processes with
  | nil => rfl
  | @cons w middle later message messages first _ ih =>
    obtain ⟨rfl, own⟩ := List.forall_mem_cons.mp own
    have topics : (fun topic => (message.workerName, topic) ∈ middle.workerTopics.rows) =
        message.Topics fun topic => (message.workerName, topic) ∈ w.workerTopics.rows :=
      funext fun topic => propext (first.processed.topics topic)
    rw [ih own, List.foldl_cons, topics]

/-! ## Computed executions -/

/-- Let a consumer process the messages one after the other. -/
def processAll (w : World) : List StatusMessage → Option World
  | [] => some w
  | message :: messages =>
    match (StatusConsumer.run (Message.workerStatus message).sent).run.eval (answerUnless fun _ _ => false) Act.after w with
    | some (.ok (), later) => processAll later messages
    | _ => none

theorem processesAll_of_processAll {w later : World} {messages : List StatusMessage}
    (computed : processAll w messages = some later) : ProcessesAll w messages later := by
  induction messages generalizing w with
  | nil =>
    cases computed
    exact .nil _
  | cons first rest ih =>
    rw [processAll] at computed
    split at computed
    · next found => exact .cons (alone_of_eval found) (ih computed)
    · cases computed

theorem exists_processesAll (w : World) (messages : List StatusMessage) (computes : (processAll w messages).isSome = true) :
    ∃ later, ProcessesAll w messages later := by
  obtain ⟨later, computed⟩ := Option.isSome_iff_exists.mp computes
  exact ⟨later, processesAll_of_processAll computed⟩

/-- Messages of the sample worker at the given seconds. -/
def sampleOffline (second : ℤ) : StatusMessage := ⟨"w1", .lifecycle ⟨["eu"], .offline⟩, Duration.seconds second⟩

def sampleIdle (second : ℤ) : StatusMessage := ⟨"w1", .job none, Duration.seconds second⟩

def sampleBeat (second : ℤ) : StatusMessage := ⟨"w1", .heartbeat, Duration.seconds second⟩

end Bms
