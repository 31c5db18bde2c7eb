import Bms.Protocol.StatusMessages

/-! # A status message that is delivered again

A consumer that fails at a statement does not acknowledge the message, and the message is delivered
again. Whatever else the system has done meanwhile, the second delivery leaves the tables as if the
message had been processed once.
-/

namespace Bms

open Process Fallible

/-- A consumer that runs alone has stopped at a statement that has failed. -/
def Interrupted (w : World) (message : StatusMessage) (later : World) : Prop :=
  ∃ e, Alone alone w (StatusConsumer.run (Message.workerStatus message).sent).run later (.ret (.error e))

/-- The statements by which the messages of a worker change its row and its topics. -/
def Stmt.Reports (workerName : String) : Stmt → Prop
  | updateWorkerStatus name .. | updateWorkerJob name .. | updateWorkerHeartbeat name _ | insertWorkerTopics name _
  | removeWorkerTopics name => name = workerName
  | _ => False

/-- The call belongs to no message of the worker and does not write the sub-job that the message names. -/
structure Elsewhere (message : StatusMessage) (w : World) (made : Act) : Prop where
  other : ∀ stmt, made.op = .sql stmt → ¬ stmt.Reports message.workerName
  subJob : ∀ details, message.status = .job (some details) →
    (made.after w).subJobs.find? details.subJobId = w.subJobs.find? details.subJobId

/-- Any calls that belong elsewhere, at any times. -/
inductive Meanwhile (message : StatusMessage) : World → World → Prop
  | nothing (w : World) : Meanwhile message w w
  | call {w middle : World} {now : DateTime} {made : Act} : Meanwhile message w middle →
      Elsewhere message { middle with now } made → Meanwhile message w (made.after { middle with now })

/-- The four tables have the same rows. -/
structure World.SameStatus (w other : World) : Prop where
  workers : ∀ name, other.workers.find? name = w.workers.find? name
  topics : ∀ topic, topic ∈ other.topics.rows ↔ topic ∈ w.topics.rows
  workerTopics : ∀ pair, pair ∈ other.workerTopics.rows ↔ pair ∈ w.workerTopics.rows
  subJobs : ∀ id, other.subJobs.find? id = w.subJobs.find? id

/-- Mark a worker that has not been seen for long. -/
def WorkerRow.markOffline (row : WorkerRow) : WorkerRow := { row with status := .offline }

namespace StatusMessage

/-- The topics that a message makes known. -/
def announced (message : StatusMessage) : List String :=
  match message.status with
  | .lifecycle ⟨topics, .online⟩ => topics
  | _ => []

/-- The sub-job that a message starts. -/
def startedId (message : StatusMessage) : Option Uuid :=
  match message.status with
  | .job (some details) => some details.subJobId
  | _ => none

end StatusMessage

/-- What a message that is processed to its end does to the four tables. -/
structure Done (w : World) (message : StatusMessage) (later : World) : Prop where
  workers : ∀ name, later.workers.find? name =
    if name = message.workerName then message.applyTo (w.workers.find? name) else w.workers.find? name
  topics : ∀ topic, topic ∈ later.topics.rows ↔ topic ∈ w.topics.rows ∨ topic ∈ message.announced
  workerTopics : ∀ name topic, (name, topic) ∈ later.workerTopics.rows ↔
    if name = message.workerName then message.Topics (fun topic => (name, topic) ∈ w.workerTopics.rows) topic
    else (name, topic) ∈ w.workerTopics.rows
  subJobs : ∀ id, later.subJobs.find? id = if message.startedId = some id
    then (w.subJobs.find? id).map fun row => { row with status := .processing } else w.subJobs.find? id

/-- What a message that has stopped short may have done: its last statement is not among it. -/
structure Begun (w : World) (message : StatusMessage) (later : World) : Prop where
  worker : later.workers.find? message.workerName = w.workers.find? message.workerName ∨
    later.workers.find? message.workerName = message.applyTo (w.workers.find? message.workerName)
  workers : ∀ name, name ≠ message.workerName → later.workers.find? name = w.workers.find? name
  topics : ∀ topic, topic ∈ w.topics.rows → topic ∈ later.topics.rows
  announced : ∀ topic, topic ∈ later.topics.rows → topic ∈ w.topics.rows ∨ topic ∈ message.announced
  workerTopics : later.workerTopics = w.workerTopics
  subJobs : later.subJobs = w.subJobs

/-! ## One delivery -/

section Delivery

variable {w : World} {message : StatusMessage}

/-- The statement that a message begins with changes the row of its worker and no other. -/
structure Applied (w : World) (message : StatusMessage) (later : World) : Prop where
  workers : ∀ name, later.workers.find? name =
    if name = message.workerName then message.applyTo (w.workers.find? name) else w.workers.find? name
  topics : later.topics = w.topics
  workerTopics : later.workerTopics = w.workerTopics
  subJobs : later.subJobs = w.subJobs

theorem Applied.begun {later : World} (applied : Applied w message later) : Begun w message later where
  worker := .inr (by rw [applied.workers, if_pos rfl])
  workers name other := by rw [applied.workers, if_neg other]
  topics topic member := applied.topics ▸ member
  announced topic member := .inl (applied.topics ▸ member)
  workerTopics := applied.workerTopics
  subJobs := applied.subJobs

theorem begun_nothing (w : World) (message : StatusMessage) (now : DateTime) : Begun w message { w with now } :=
  ⟨.inl rfl, fun _ _ => rfl, fun _ => id, fun _ => .inl, rfl, rfl⟩

theorem Begun.drift {later : World} (begun : Begun w message later) (now : DateTime) :
    Begun w message { later with now } :=
  ⟨begun.worker, begun.workers, begun.topics, begun.announced, begun.workerTopics, begun.subJobs⟩

/-- The topics of the other workers stay. -/
theorem mem_insertWorkerTopics_ne {workerName name topic : String} {topics : List String} (other : name ≠ workerName)
    (done : Unit) : (name, topic) ∈ (Stmt.run w (.insertWorkerTopics workerName topics) done).workerTopics.rows ↔
      (name, topic) ∈ w.workerTopics.rows :=
  (mem_run_insertWorkerTopics done).trans (or_iff_left fun inserted => other inserted.1.symm)

theorem find?_updateSubJobStatus (w : World) (subJobId id : Uuid) (status : SubJobStatus) (done : Unit) :
    (Stmt.run w (.updateSubJobStatus subJobId status) done).subJobs.find? id =
      if subJobId = id then (w.subJobs.find? id).map fun row => { row with status } else w.subJobs.find? id := by
  rw [Stmt.run, Stmt.updateSubJob, Table.find?_updateWhere]
  cases found : w.subJobs.find? id with
  | none => simp
  | some row =>
    have same : SubJobRow.key row = id := Table.key_of_find? found
    change row.id = id at same
    by_cases own : subJobId = id
    · simp [own, same]
    · simp [own, same, Ne.symm own]

theorem find?_upsertWorker_ne (workers : Table WorkerRow.workerName) {workerName name : String} (status : WorkerStatus)
    (timestamp : DateTime) (other : name ≠ workerName) :
    (Stmt.upsertWorker workers workerName status timestamp).find? name = workers.find? name := by
  unfold Stmt.upsertWorker
  cases found : workers.find? workerName with
  | none => exact (Table.find?_insert_fresh found name).trans (if_neg other.symm)
  | some row =>
    rw [Table.find?_updateWhere]
    cases present : workers.find? name with
    | none => rfl
    | some row => simp [Table.key_of_find? present, other]

theorem find?_updateWorkers_ne (w : World) {workerName name : String} (stamp : DateTime)
    (change : WorkerRow → WorkerRow) (same : ∀ row, (change row).workerName = row.workerName)
    (other : name ≠ workerName) :
    (Stmt.updateWorkers w (fun row => decide (row.workerName = workerName ∧ row.lastSeen < stamp)) change
      same).workers.find? name = w.workers.find? name := by
  rw [Stmt.updateWorkers, Table.find?_updateWhere]
  cases present : w.workers.find? name with
  | none => rfl
  | some row => simp [Table.key_of_find? present, other]

theorem applied_lifecycle (w : World) (workerName : String) (details : WorkerDetails) (timestamp now : DateTime) :
    Applied w ⟨workerName, .lifecycle details, timestamp⟩
      (Stmt.run { w with now } (.updateWorkerStatus workerName details.workerStatus timestamp) ()) where
  workers name := by
    by_cases own : name = workerName
    · subst own
      rw [if_pos rfl]
      exact find?_upsertWorker w.workers name details timestamp
    · rw [if_neg own]
      exact find?_upsertWorker_ne w.workers details.workerStatus timestamp own
  topics := rfl
  workerTopics := rfl
  subJobs := rfl

/-- A message that inserts no row changes that of its worker if it is newer. -/
theorem applied_guarded (w : World) (message : StatusMessage) (now : DateTime)
    (same : ∀ row, (message.write row).workerName = row.workerName) (known : message.applyTo none = none) :
    Applied w message (Stmt.updateWorkers { w with now }
      (fun row => decide (row.workerName = message.workerName ∧ row.lastSeen < message.stamp))
      message.write same) where
  workers name := by
    by_cases own : name = message.workerName
    · subst own
      rw [if_pos rfl, find?_guardedUpdate]
      cases w.workers.find? message.workerName with
      | none => exact known.symm
      | some row => rfl
    · rw [if_neg own, find?_updateWorkers_ne _ _ _ _ own]
  topics := rfl
  workerTopics := rfl
  subJobs := rfl

/-- A first statement that is also the last. -/
theorem Applied.done {later : World} (applied : Applied w message later) (quiet : message.announced = [])
    (same : ∀ before, message.Topics before = before) (idle : message.startedId = none) : Done w message later where
  workers := applied.workers
  topics topic := by rw [applied.topics, quiet]; simp
  workerTopics name topic := by rw [applied.workerTopics, same, ite_self]
  subJobs id := by rw [applied.subJobs, idle]; simp

theorem delivery_ensures (message : StatusMessage) (w : World) :
    (StatusConsumer.run (Message.workerStatus message).sent).Ensures alone w (fun _ later => Done w message later)
      fun _ later => Begun w message later := by
  rw [StatusConsumer.run_sent]
  obtain ⟨workerName, status, timestamp⟩ := message
  cases status with
  | lifecycle details =>
    refine (ensures_bind ..).mpr (sql_ensures (fun now _ => begun_nothing w _ now) fun now _ _ => ?_)
    have applied := applied_lifecycle w workerName details timestamp now
    obtain ⟨topics, status⟩ := details
    cases status with
    | online =>
      refine (ensures_bind ..).mpr (sql_ensures (fun now' _ => applied.begun.drift now') fun now' _ _ => ?_)
      have known : Begun w ⟨workerName, .lifecycle ⟨topics, .online⟩, timestamp⟩
          (Stmt.run { Stmt.run { w with now } (.updateWorkerStatus workerName .online timestamp) () with now := now' }
            (.insertTopics topics) ()) :=
        { applied.begun with
          topics := fun topic member => Table.mem_rows_foldl_insert.mpr (.inl member)
          announced := fun topic => Table.mem_rows_foldl_insert.mp }
      refine sql_ensures (fun now'' _ => known.drift now'') fun now'' done _ => ?_
      refine ⟨applied.workers, fun topic => Table.mem_rows_foldl_insert, fun name topic => ?_, fun id => rfl⟩
      by_cases own : name = workerName
      · subst own
        rw [if_pos rfl]
        exact mem_insertWorkerTopics (fun topic member => Table.mem_rows_foldl_insert.mpr (.inr member)) done
      · rw [if_neg own]
        exact mem_insertWorkerTopics_ne own done
    | offline =>
      refine sql_ensures (fun now' _ => applied.begun.drift now') fun now' done _ => ?_
      refine ⟨applied.workers, fun topic => by simp [StatusMessage.announced, Stmt.run],
        fun name topic => ?_, fun id => rfl⟩
      by_cases own : name = workerName <;> simp [Stmt.run, Table.deleteWhere, StatusMessage.Topics, own]
  | job details =>
    refine (ensures_bind ..).mpr (sql_ensures (fun now _ => begun_nothing w _ now) fun now _ _ => ?_)
    have applied := applied_guarded w ⟨workerName, .job details, timestamp⟩ now (fun _ => rfl) rfl
    cases details with
    | none => exact applied.done rfl (fun _ => rfl) rfl
    | some details =>
      refine sql_ensures (fun now' _ => applied.begun.drift now') fun now' done _ => ?_
      refine ⟨applied.workers, fun topic => by
        simp [StatusMessage.announced, Stmt.run, Stmt.updateWorkers, Stmt.updateSubJob],
        fun name topic => ?_, fun id => ?_⟩
      · exact (ite_self _).to_iff.symm
      · rw [find?_updateSubJobStatus]
        simp only [StatusMessage.startedId, Option.some.injEq]
        rfl
  | heartbeat =>
    refine sql_ensures (fun now _ => begun_nothing w _ now) fun now _ _ => ?_
    exact (applied_guarded w ⟨workerName, .heartbeat, timestamp⟩ now (fun _ => rfl) rfl).done rfl (fun _ => rfl) rfl

end Delivery

/-! ## What happens meanwhile -/

/-- What the calls of others leave alone. -/
structure Spared (message : StatusMessage) (w later : World) : Prop where
  worker : later.workers.find? message.workerName = w.workers.find? message.workerName ∨
    later.workers.find? message.workerName = (w.workers.find? message.workerName).map WorkerRow.markOffline
  topics : ∀ topic, topic ∈ w.topics.rows → topic ∈ later.topics.rows
  workerTopics : ∀ topic, (message.workerName, topic) ∈ later.workerTopics.rows ↔
    (message.workerName, topic) ∈ w.workerTopics.rows
  subJob : ∀ id, message.startedId = some id → later.subJobs.find? id = w.subJobs.find? id

section Meanwhile

variable {message : StatusMessage} {w middle later : World}

theorem Spared.drift (message : StatusMessage) (w : World) (now : DateTime) : Spared message w { w with now } :=
  ⟨.inl rfl, fun _ => id, fun _ => Iff.rfl, fun _ _ => rfl⟩

theorem Spared.trans (first : Spared message w middle) (second : Spared message middle later) :
    Spared message w later where
  worker := by
    have twice (row : Option WorkerRow) : (row.map WorkerRow.markOffline).map WorkerRow.markOffline =
        row.map WorkerRow.markOffline := by cases row <;> rfl
    rcases first.worker with same | marked <;> rcases second.worker with same' | marked'
    · exact .inl (same'.trans same)
    · exact .inr (by rw [marked', same])
    · exact .inr (by rw [same', marked])
    · exact .inr (by rw [marked', marked, twice])
  topics topic member := second.topics topic (first.topics topic member)
  workerTopics topic := (second.workerTopics topic).trans (first.workerTopics topic)
  subJob id started := (second.subJob id started).trans (first.subJob id started)

/-- A statement of others can mark the worker offline. -/
theorem worker_run {workerName : String} {stmt : Stmt} (other : ¬ stmt.Reports workerName) (row : stmt.Row) :
    (stmt.run w row).workers.find? workerName = w.workers.find? workerName ∨
      (stmt.run w row).workers.find? workerName = (w.workers.find? workerName).map WorkerRow.markOffline := by
  cases stmt with
  | updateWorkerStatus name status timestamp =>
    exact .inl (find?_upsertWorker_ne w.workers status timestamp (Ne.symm other))
  | updateWorkerJob name jobId timestamp =>
    left
    rw [Stmt.run]
    exact find?_updateWorkers_ne w timestamp.stored _ _ (Ne.symm other)
  | updateWorkerHeartbeat name timestamp =>
    left
    rw [Stmt.run]
    exact find?_updateWorkers_ne w timestamp.stored _ _ (Ne.symm other)
  | setWorkerOffline name =>
    rw [Stmt.run, Stmt.updateWorkers, Table.find?_updateWhere]
    cases found : w.workers.find? workerName with
    | none => exact .inl rfl
    | some worker =>
      have same : worker.workerName = workerName := Table.key_of_find? found
      by_cases own : workerName = name
      · right
        simp [same, own, WorkerRow.markOffline]
      · left
        simp [same, own]
  | _ => exact .inl rfl

/-- Topics are never forgotten. -/
theorem topics_run {stmt : Stmt} (row : stmt.Row) {topic : String} (member : topic ∈ w.topics.rows) :
    topic ∈ (stmt.run w row).topics.rows := by
  cases stmt with
  | insertTopics topics => exact Table.mem_rows_foldl_insert.mpr (.inl member)
  | _ => exact member

theorem workerTopics_run {workerName topic : String} {stmt : Stmt} (other : ¬ stmt.Reports workerName)
    (row : stmt.Row) :
    (workerName, topic) ∈ (stmt.run w row).workerTopics.rows ↔ (workerName, topic) ∈ w.workerTopics.rows := by
  cases stmt with
  | insertWorkerTopics name topics => exact mem_insertWorkerTopics_ne (Ne.symm other) row
  | removeWorkerTopics name =>
    have apart : workerName ≠ name := Ne.symm other
    simp [Stmt.run, Table.deleteWhere, apart]
  | _ => exact Iff.rfl

/-- A call that belongs elsewhere can mark the worker offline, and make topics known. -/
theorem Elsewhere.spared {made : Act} (elsewhere : Elsewhere message w made) : Spared message w (made.after w) := by
  have subJob : ∀ id, message.startedId = some id → (made.after w).subJobs.find? id = w.subJobs.find? id := by
    intro id started
    unfold StatusMessage.startedId at started
    split at started
    · next details job =>
      obtain rfl : details.subJobId = id := Option.some.inj started
      exact elsewhere.subJob details job
    · cases started
  have other := elsewhere.other
  refine ⟨?_, ?_, ?_, subJob⟩
  · unfold Act.after
    split
    · exact worker_run (other _ rfl) _
    all_goals exact .inl rfl
  · unfold Act.after
    split
    · exact fun topic => topics_run _
    all_goals exact fun topic => id
  · unfold Act.after
    split
    · exact fun topic => workerTopics_run (other _ rfl) _
    all_goals exact fun topic => Iff.rfl

theorem Meanwhile.spared (meanwhile : Meanwhile message w later) : Spared message w later := by
  induction meanwhile with
  | nothing => exact .drift message w w.now
  | @call middle now _ _ elsewhere ih => exact (ih.trans (.drift message middle now)).trans elsewhere.spared

end Meanwhile

/-! ## The second delivery -/

/-- The second delivery has left the tables as one delivery does, and what others have done meanwhile stays. -/
structure Redelivered (message : StatusMessage) (attempt middle once again : World) : Prop where
  /-- unless the worker has been marked offline meanwhile, its row is the same -/
  worker : again.workers.find? message.workerName = once.workers.find? message.workerName ∨
    (middle.workers.find? message.workerName ≠ attempt.workers.find? message.workerName ∧
      again.workers.find? message.workerName = (once.workers.find? message.workerName).map WorkerRow.markOffline)
  workers : ∀ name, name ≠ message.workerName → again.workers.find? name = middle.workers.find? name
  topics : ∀ topic, topic ∈ again.topics.rows ↔ topic ∈ middle.topics.rows ∨ topic ∈ once.topics.rows
  topicsOf : ∀ topic, (message.workerName, topic) ∈ again.workerTopics.rows ↔
    (message.workerName, topic) ∈ once.workerTopics.rows
  workerTopics : ∀ name topic, name ≠ message.workerName →
    ((name, topic) ∈ again.workerTopics.rows ↔ (name, topic) ∈ middle.workerTopics.rows)
  subJob : ∀ id, message.startedId = some id → again.subJobs.find? id = once.subJobs.find? id
  subJobs : ∀ id, message.startedId ≠ some id → again.subJobs.find? id = middle.subJobs.find? id

/-- The row of a worker has seen a message that has been applied to it. -/
theorem StatusMessage.seen_of_applyTo {message : StatusMessage} {before : Option WorkerRow} {row : WorkerRow}
    (applied : message.applyTo before = some row) : message.stamp ≤ row.lastSeen := by
  obtain ⟨workerName, status, timestamp⟩ := message
  cases before with
  | none =>
    cases status with
    | lifecycle details =>
      cases applied
      exact le_refl _
    | job details => cases applied
    | heartbeat => cases applied
  | some old =>
    obtain rfl := Option.some.inj applied
    unfold StatusMessage.update
    split
    · cases status <;> exact le_refl _
    · next newer => exact not_lt.mp newer

/-- A message changes nothing when it comes again, even if the row has been marked since. -/
theorem StatusMessage.applyTo_again (message : StatusMessage) (before : Option WorkerRow) {mark : WorkerRow → WorkerRow}
    (seen : ∀ row, (mark row).lastSeen = row.lastSeen) :
    message.applyTo ((message.applyTo before).map mark) = (message.applyTo before).map mark := by
  cases applied : message.applyTo before with
  | none =>
    cases before with
    | none => exact applied
    | some old => cases applied
  | some row =>
    have older : ¬ (mark row).lastSeen < message.stamp := by
      rw [seen]
      exact not_lt.mpr (StatusMessage.seen_of_applyTo applied)
    exact congrArg some (if_neg older)

/-- A worker that is marked offline before a message is as it is without the mark, or marked. -/
theorem StatusMessage.applyTo_markOffline (message : StatusMessage) (row : Option WorkerRow) :
    message.applyTo (row.map WorkerRow.markOffline) = message.applyTo row ∨
      message.applyTo (row.map WorkerRow.markOffline) = (message.applyTo row).map WorkerRow.markOffline := by
  cases row with
  | none => exact .inl rfl
  | some row =>
    by_cases newer : row.lastSeen < message.stamp
    · have newer' : row.markOffline.lastSeen < message.stamp := newer
      simp only [Option.map_some, StatusMessage.applyTo, StatusMessage.update, if_pos newer, if_pos newer']
      obtain ⟨workerName, status, timestamp⟩ := message
      cases status with
      | lifecycle details => exact .inl rfl
      | job details => exact .inr rfl
      | heartbeat => exact .inl rfl
    · have older : ¬ row.markOffline.lastSeen < message.stamp := newer
      right
      simp only [Option.map_some, StatusMessage.applyTo, StatusMessage.update, if_neg newer, if_neg older]

/-- The row of the worker after the second delivery. -/
theorem worker_redelivered (message : StatusMessage) {before attempt middle : Option WorkerRow}
    (begun : attempt = before ∨ attempt = message.applyTo before)
    (spared : middle = attempt ∨ middle = attempt.map WorkerRow.markOffline) :
    message.applyTo middle = message.applyTo before ∨
      (middle ≠ attempt ∧ message.applyTo middle = (message.applyTo before).map WorkerRow.markOffline) := by
  by_cases unmarked : middle = attempt
  · left
    subst unmarked
    rcases begun with rfl | rfl
    · rfl
    · have again := @StatusMessage.applyTo_again message before id fun _ => rfl
      rwa [Option.map_id_fun] at again
  · obtain rfl := spared.resolve_left unmarked
    rcases begun with rfl | rfl
    · exact (message.applyTo_markOffline attempt).imp_right fun marked => ⟨unmarked, marked⟩
    · exact .inr ⟨unmarked, message.applyTo_again before fun _ => rfl⟩

theorem redelivered {message : StatusMessage} {w attempt middle once again : World}
    (fails : Interrupted w message attempt)
    (meanwhile : Meanwhile message attempt middle) (redelivery : Processes middle message again)
    (delivery : Processes w message once) : Redelivered message attempt middle once again := by
  obtain ⟨e, fails⟩ := fails
  have begun : Begun w message attempt := (delivery_ensures message w).alone fails
  have done : Done w message once := (delivery_ensures message w).alone delivery
  have doneAgain : Done middle message again := (delivery_ensures message middle).alone redelivery
  have spared := meanwhile.spared
  refine ⟨?_, ?_, ?_, ?_, ?_, ?_, ?_⟩
  · rw [doneAgain.workers, done.workers, if_pos rfl, if_pos rfl]
    exact worker_redelivered message begun.worker spared.worker
  · intro name other
    rw [doneAgain.workers, if_neg other]
  · intro topic
    rw [doneAgain.topics, done.topics]
    have kept : topic ∈ w.topics.rows → topic ∈ middle.topics.rows := fun member =>
      spared.topics topic (begun.topics topic member)
    tauto
  · intro topic
    rw [doneAgain.workerTopics, done.workerTopics, if_pos rfl, if_pos rfl]
    have same : (fun topic => (message.workerName, topic) ∈ middle.workerTopics.rows) =
        fun topic => (message.workerName, topic) ∈ w.workerTopics.rows :=
      funext fun topic => propext ((spared.workerTopics topic).trans (by rw [begun.workerTopics]))
    rw [same]
  · intro name topic other
    rw [doneAgain.workerTopics, if_neg other]
  · intro id started
    rw [doneAgain.subJobs, done.subJobs, spared.subJob id started, begun.subJobs]
  · intro id other
    rw [doneAgain.subJobs, if_neg other]

/-- If nothing has happened meanwhile, the tables are those of one delivery. -/
theorem sameStatus_of_nothing {message : StatusMessage} {w attempt once again : World} (begun : Begun w message attempt)
    (done : Done w message once)
    (redelivered : Redelivered message attempt attempt once again) : once.SameStatus again where
  workers name := by
    by_cases own : name = message.workerName
    · subst own
      exact redelivered.worker.resolve_right fun marked => marked.1 rfl
    · rw [redelivered.workers name own, begun.workers name own, done.workers, if_neg own]
  topics topic := by
    rw [redelivered.topics, done.topics]
    have known := begun.announced topic
    tauto
  workerTopics := by
    rintro ⟨name, topic⟩
    by_cases own : name = message.workerName
    · subst own
      exact redelivered.topicsOf topic
    · rw [redelivered.workerTopics name topic own, begun.workerTopics, done.workerTopics, if_neg own]
  subJobs id := by
    by_cases started : message.startedId = some id
    · exact redelivered.subJob id started
    · rw [redelivered.subJobs id started, begun.subJobs, done.subJobs, if_neg started]

/-- A message whose processing has failed may be delivered again. -/
theorem redelivery_same {message : StatusMessage} {w attempt middle once again : World}
    (fails : Interrupted w message attempt)
    (meanwhile : Meanwhile message attempt middle) (redelivery : Processes middle message again)
    (delivery : Processes w message once) :
    Redelivered message attempt middle once again ∧ (middle = attempt → once.SameStatus again) := by
  have whole := redelivered fails meanwhile redelivery delivery
  refine ⟨whole, ?_⟩
  rintro rfl
  obtain ⟨e, fails⟩ := fails
  exact sameStatus_of_nothing ((delivery_ensures message w).alone fails)
    ((delivery_ensures message w).alone delivery) whole

/-- Whatever others do meanwhile, a second delivery leaves the worker, its topics and its sub-job as one delivery does. -/
def RedeliverySafe : Prop :=
  ∀ {message : StatusMessage} {w attempt middle once again : World}, Interrupted w message attempt →
    Meanwhile message attempt middle → Processes middle message again → Processes w message once →
    again.workers.find? message.workerName = once.workers.find? message.workerName ∧
      (∀ topic, (message.workerName, topic) ∈ again.workerTopics.rows ↔
        (message.workerName, topic) ∈ once.workerTopics.rows) ∧
      ∀ id, message.startedId = some id → again.subJobs.find? id = once.subJobs.find? id

/-! ## A worker that announces itself twice -/

/-- The sample worker announces two topics, five seconds after the epoch. -/
def sampleArrival : StatusMessage := ⟨"w1", .lifecycle ⟨["eu", "us"], .online⟩, Duration.seconds 5⟩

/-- The topics cannot be inserted. -/
def topicsFail (_ : World) : Op → Bool
  | .sql (.insertTopics _) => true
  | _ => false

/-- The online check marks the worker, a minute later. -/
def markedLater (w : World) : World := Stmt.run { w with now := Duration.seconds 66 } (.setWorkerOffline "w1") ()

/-- The status that the sample worker has once the message has been processed in this world. -/
def statusAfter (w : World) : Option WorkerStatus := do
  let later ← processAll w [sampleArrival]
  let row ← later.workers.find? "w1"
  return row.status

/-- The first delivery can be followed by a second one, also when the worker has been marked. -/
theorem exists_interrupted : ∃ attempt, Interrupted (sampleWorld .offline) sampleArrival attempt ∧
    (processAll attempt [sampleArrival]).isSome = true ∧ statusAfter (markedLater attempt) = some .offline := by
  have computed : (((StatusConsumer.run (Message.workerStatus sampleArrival).sent).run.eval (answerUnless topicsFail)
      Act.after (sampleWorld .offline)).any fun reached =>
        !reached.1.toBool && ((processAll reached.2 [sampleArrival]).isSome &&
          decide (statusAfter (markedLater reached.2) = some .offline))) = true := by decide +kernel
  obtain ⟨⟨outcome, attempt⟩, found, holds⟩ := (Option.any_eq_true ..).mp computed
  rw [Bool.and_eq_true, Bool.and_eq_true, decide_eq_true_eq] at holds
  cases outcome with
  | ok done => cases holds.1
  | error e => exact ⟨attempt, ⟨e, alone_of_eval found⟩, holds.2⟩

theorem exists_processes_of_statusAfter {w : World} {status : WorkerStatus} (computed : statusAfter w = some status) :
    ∃ later row, Processes w sampleArrival later ∧ later.workers.find? "w1" = some row ∧ row.status = status := by
  obtain ⟨later, processed, rest⟩ := Option.bind_eq_some_iff.mp computed
  obtain ⟨row, found, same⟩ := Option.bind_eq_some_iff.mp rest
  cases processesAll_of_processAll processed with
  | @cons _ middle _ _ _ first others =>
    cases others
    exact ⟨later, row, first, found, Option.some.inj same⟩

theorem exists_processes {w : World} {message : StatusMessage} (computes : (processAll w [message]).isSome = true) :
    ∃ later, Processes w message later := by
  obtain ⟨later, all⟩ := exists_processesAll w [message] computes
  cases all with
  | @cons _ middle _ _ _ first _ => exact ⟨middle, first⟩

/-- The first delivery stops at the topics, the second one comes at once. -/
theorem redelivery_same_arrival : ∃ attempt once again, Interrupted (sampleWorld .offline) sampleArrival attempt ∧
    Redelivered sampleArrival attempt attempt once again ∧ once.SameStatus again := by
  obtain ⟨attempt, fails, computes, -⟩ := exists_interrupted
  obtain ⟨again, redelivery⟩ := exists_processes computes
  obtain ⟨once, delivery⟩ := @exists_processes (sampleWorld .offline) sampleArrival (by decide +kernel)
  obtain ⟨same, unchanged⟩ := redelivery_same fails (.nothing attempt) redelivery delivery
  exact ⟨attempt, once, again, fails, same, unchanged rfl⟩

/-- The online check marks the worker before the message comes again; the row has seen the message, and keeps the mark. -/
theorem not_redeliverySafe : ¬ RedeliverySafe := by
  intro safe
  obtain ⟨attempt, fails, -, leaves⟩ := exists_interrupted
  obtain ⟨again, marked, redelivery, found, offline⟩ := exists_processes_of_statusAfter leaves
  obtain ⟨once, row, delivery, found', online⟩ :=
    @exists_processes_of_statusAfter (sampleWorld .offline) .online (by decide +kernel)
  have elsewhere : Elsewhere sampleArrival { attempt with now := Duration.seconds 66 }
      ⟨.sql (.setWorkerOffline "w1"), .ok ()⟩ := by
    constructor
    · rintro stmt same
      cases same
      exact id
    · intro details job
      cases job
  have same := (safe fails (.call (.nothing attempt) elsewhere) redelivery delivery).1
  cases found.symm.trans (same.trans found')
  cases offline.symm.trans online

end Bms
