import Bms.Properties.StatusRedelivery
import Bms.Protocol.Timed

/-! # Marking silent workers

A pass reads the workers that have been silent for a minute and then marks them one by one, whatever has been
heard of them meanwhile. A worker that is marked has been silent if no recent message of it is written
between the read and its mark.
-/

namespace Bms

open Process

/-- The system on a clock that is not set back. -/
def forward (registry : ServiceScalerRegistry) : Platform Calls World Kind :=
  { platform registry with drifts := fun w other => ∃ now, w.now ≤ now ∧ other = { w with now } }

/-- For how long a worker must have been silent. -/
def silence : Duration := Duration.seconds 60

/-- If the worker is online, its last message is more than a minute old. -/
def Silent (w : World) (workerName : String) : Prop :=
  ∀ row, w.workers.find? workerName = some row → row.status = .online → row.lastSeen < w.now - silence

/-- A pass that makes an online worker offline finds it silent. -/
def MarksSilent (pool : System) (event : SystemEvent) : Prop :=
  ∀ position task workerName, pool.tasks[position]? = some task → task.kind = .onlineCheckPass →
    event = .call position ⟨.sql (.setWorkerOffline workerName), .ok ()⟩ → Silent pool.world workerName

/-- In every run only silent workers are made offline. -/
def OnlySilentMarked : Prop :=
  ∀ {registry : ServiceScalerRegistry} {source pool next : System} {events : List SystemEvent} {event : SystemEvent},
    source.tasks = [] → Run (forward registry) (fun _ _ => True) source events pool →
    Step (forward registry) pool event next → MarksSilent pool event

/-- The names that a pass has read. -/
def Act.silentNames? : Act → Option (List String)
  | ⟨.sql .getInactiveOnlineWorkers, .ok workerNames⟩ => some workerNames
  | _ => none

/-- The names that a task has read first and not yet marked. -/
def toMark (task : SystemTask) : List String :=
  ((task.log.head?.bind Act.silentNames?).getD []).drop (task.log.length - 1)

def marking (pool : System) : List String := pool.tasks.flatMap toMark

/-- The worker of which a statement writes a message, and the time of the message as it is stored. A worker that
goes offline is not counted. -/
def Stmt.heardOf? : Stmt → Option (String × DateTime)
  | updateWorkerStatus workerName .online timestamp | updateWorkerJob workerName _ timestamp
  | updateWorkerHeartbeat workerName timestamp => some (workerName, timestamp.stored)
  | _ => none

/-- No message that is less than a minute old is written for a worker that is about to be marked. -/
def Unheard (pool : System) : SystemEvent → Prop
  | .call _ ⟨.sql stmt, _⟩ =>
    ∀ report ∈ stmt.heardOf?, report.1 ∈ marking pool → report.2 < pool.world.now - silence
  | _ => True

/-! ## What is written of a worker -/

section Written

variable {w : World} {workerName : String} {row : WorkerRow}

/-- A row stays as it is, or is what a message makes of it. -/
theorem of_guarded {old : Option WorkerRow} {change : WorkerRow → WorkerRow} {timestamp : DateTime}
    (found : old.map (fun row => if row.lastSeen < timestamp then change row else row) = some row) :
    old = some row ∨ ∃ before, change before = row := by
  obtain ⟨before, rfl, rfl⟩ := Option.map_eq_some_iff.mp found
  split
  · exact .inr ⟨before, rfl⟩
  · exact .inl rfl

/-- The row of a worker that is online is the old one, or shows the time of the message that is written. -/
theorem heard_run {stmt : Stmt} (reply : stmt.Row) (online : row.status = .online)
    (found : (stmt.run w reply).workers.find? workerName = some row) :
    w.workers.find? workerName = some row ∨ stmt.heardOf? = some (workerName, row.lastSeen) := by
  by_cases reports : stmt.Reports workerName
  · cases stmt with
    | updateWorkerStatus name status timestamp =>
      obtain rfl : name = workerName := reports
      let message : StatusMessage := ⟨name, .lifecycle ⟨[], status⟩, timestamp⟩
      have applied : message.applyTo (w.workers.find? name) = some row :=
        (find?_upsertWorker w.workers name ⟨[], status⟩ timestamp).symm.trans found
      cases present : w.workers.find? name with
      | none =>
        rw [present] at applied
        cases applied
        obtain rfl : status = .online := online
        exact .inr rfl
      | some old =>
        rw [present] at applied
        have guarded : (some old).map
            (fun row => if row.lastSeen < timestamp.stored then message.write row else row) = some row := applied
        obtain kept | ⟨before, rfl⟩ := of_guarded guarded
        · exact .inl kept
        · obtain rfl : status = .online := online
          exact .inr rfl
    | updateWorkerJob name jobId timestamp =>
      obtain rfl : name = workerName := reports
      obtain kept | ⟨before, rfl⟩ := of_guarded ((find?_guardedUpdate w name timestamp.stored _ _).symm.trans found)
      · exact .inl kept
      · exact .inr rfl
    | updateWorkerHeartbeat name timestamp =>
      obtain rfl : name = workerName := reports
      obtain kept | ⟨before, rfl⟩ := of_guarded ((find?_guardedUpdate w name timestamp.stored _ _).symm.trans found)
      · exact .inl kept
      · exact .inr rfl
    | insertWorkerTopics | removeWorkerTopics => exact .inl found
    | _ => exact reports.elim
  · left
    obtain same | marked := worker_run reports reply
    · exact same ▸ found
    · obtain ⟨old, -, rfl⟩ := Option.map_eq_some_iff.mp (marked.symm.trans found)
      cases online

theorem heard_after {made : Act} (online : row.status = .online)
    (found : (made.after w).workers.find? workerName = some row) : w.workers.find? workerName = some row ∨
      ∃ stmt, made.op = .sql stmt ∧ stmt.heardOf? = some (workerName, row.lastSeen) := by
  unfold Act.after at found
  split at found
  · next stmt reply => exact (heard_run reply online found).imp_right fun writes => ⟨stmt, rfl, writes⟩
  all_goals exact .inl found

end Written

/-! ## What a pass still has to do -/

theorem setWorkersOffline_reaches {workerNames : List String} {made : List Act} {rest : Prog Calls Unit}
    (run : (setWorkersOffline workerNames).Reaches made rest) : rest = setWorkersOffline (workerNames.drop made.length) := by
  induction made generalizing workerNames with
  | nil => exact run.nil_inv
  | cons first made ih =>
    cases workerNames with
    | nil => cases run
    | cons workerName workerNames =>
      cases run with
      | cons run => exact ih run

/-- A pass that is about to mark a worker has read its name. -/
theorem mem_toMark {task : SystemTask} {workerName : String}
    {next : Except SqlxError Unit → Prog Calls Unit} (run : processWorkerOnlineCheck.Reaches task.log task.rest)
    (awaits : task.rest = .call (.sql (.setWorkerOffline workerName)) next) : workerName ∈ toMark task := by
  obtain ⟨kind, log, rest⟩ := task
  obtain rfl : rest = .call (.sql (.setWorkerOffline workerName)) next := awaits
  cases run with
  | @cons _ _ reply made _ run =>
    cases reply with
    | error e => cases run
    | ok workerNames =>
      have left := setWorkersOffline_reaches run
      change workerName ∈ workerNames.drop made.length
      cases remaining : workerNames.drop made.length with
      | nil =>
        rw [remaining] at left
        cases left
      | cons first others =>
        rw [remaining] at left
        cases left
        exact List.mem_cons_self

/-- A call of a task leaves it with the names that it had, or reads them. -/
theorem toMark_concat {kind : Kind} {log : List Act} {made : Act} {rest later : Prog Calls Unit} {workerName : String}
    (marks : workerName ∈ toMark ⟨kind, log ++ [made], later⟩) :
    workerName ∈ toMark ⟨kind, log, rest⟩ ∨ ∃ workerNames, made.silentNames? = some workerNames ∧ workerName ∈ workerNames := by
  cases log with
  | nil =>
    right
    change workerName ∈ made.silentNames?.getD [] at marks
    cases reads : made.silentNames? with
    | none =>
      rw [reads] at marks
      cases marks
    | some workerNames =>
      rw [reads] at marks
      exact ⟨workerNames, rfl, marks⟩
  | cons read log =>
    left
    change workerName ∈ (read.silentNames?.getD []).drop (log ++ [made]).length at marks
    change workerName ∈ (read.silentNames?.getD []).drop log.length
    rw [List.length_append] at marks
    exact List.drop_subset_drop_left _ (Nat.le_add_right ..) marks

/-! ## Runs -/

variable {registry : ServiceScalerRegistry} {source pool next : System} {events : List SystemEvent} {event : SystemEvent}

/-- A worker that is about to be marked stays silent. -/
theorem Silent.step {workerName : String} (silent : Silent pool.world workerName) (marked : workerName ∈ marking pool)
    (unheard : Unheard pool event) (step : Step (forward registry) pool event next) : Silent next.world workerName := by
  cases step with
  | @spawn kind admitted => cases kind <;> exact silent
  | @call position task op rest reply present awaits allowed =>
    intro row found online
    have now : (Act.after pool.world ⟨op, reply⟩).now = pool.world.now := now_after ..
    change row.lastSeen < (Act.after pool.world ⟨op, reply⟩).now - silence
    rw [now]
    obtain old | ⟨stmt, rfl, heard⟩ := heard_after online found
    · exact silent row old online
    · exact unheard _ heard marked
  | drift drifts =>
    obtain ⟨now, later, rfl⟩ := drifts
    intro row found online
    exact (silent row found online).trans_le (sub_le_sub_right later _)

/-- A worker that is read is silent. -/
theorem silent_of_read {w : World} {made : Act} {workerNames : List String} {workerName : String}
    (allowed : Act.Allowed w made) (read : made.silentNames? = some workerNames) (member : workerName ∈ workerNames) :
    Silent (made.after w) workerName := by
  unfold Act.silentNames? at read
  split at read
  · next names =>
    cases read
    rintro row found -
    obtain ⟨other, inside, rfl⟩ := List.mem_map.mp ((List.Perm.mem_iff allowed).mp member)
    obtain ⟨present, silent⟩ := List.mem_filter.mp inside
    obtain rfl : other = row := Option.some_injective _ ((Table.find?_of_mem present).symm.trans found)
    exact (of_decide_eq_true silent).2
  · cases read

theorem silent_step (silent : ∀ workerName ∈ marking pool, Silent pool.world workerName) (unheard : Unheard pool event)
    (step : Step (forward registry) pool event next) : ∀ workerName ∈ marking next, Silent next.world workerName := by
  intro workerName marked
  have kept (earlier : workerName ∈ marking pool) : Silent next.world workerName :=
    (silent workerName earlier).step earlier unheard step
  obtain ⟨task, member, marks⟩ := List.mem_flatMap.mp marked
  obtain ⟨position, present⟩ := List.mem_iff_getElem?.mp member
  obtain old | ⟨kind, -, -, rfl⟩ | ⟨before, op, rest, reply, old, -, rfl, allowed, rfl⟩ := step.task_cases present
  · exact kept (List.mem_flatMap.mpr ⟨task, List.mem_of_getElem? old, marks⟩)
  · cases marks
  · obtain earlier | ⟨workerNames, read, inside⟩ := toMark_concat marks
    · exact kept (List.mem_flatMap.mpr ⟨before, List.mem_of_getElem? old, earlier⟩)
    · have world : next.world = Act.after pool.world ⟨op, reply⟩ := by
        cases step
        rfl
      rw [world]
      exact silent_of_read allowed read inside

/-- Where nothing recent is written of the workers that are about to be marked, only silent workers are. -/
theorem marksSilent_of_unheard (empty : source.tasks = []) (run : Run (forward registry) Unheard source events pool)
    (step : Step (forward registry) pool event next) : MarksSilent pool event := by
  rintro position task workerName present pass rfl
  have silent : ∀ workerName ∈ marking pool, Silent pool.world workerName := by
    refine run.invariant (I := fun pool => ∀ workerName ∈ marking pool, Silent pool.world workerName)
      (fun silent unheard step => silent_step silent unheard step) ?_
    intro workerName marked
    rw [marking, empty] at marked
    cases marked
  have reached := run.reaches empty task (List.mem_of_getElem? present)
  rw [pass] at reached
  cases step with
  | @call _ caller _ next _ present' awaits _ =>
    obtain rfl : task = caller := Option.some.inj (present.symm.trans present')
    have marks : workerName ∈ toMark task := mem_toMark reached awaits
    exact silent workerName (List.mem_flatMap.mpr ⟨task, List.mem_of_getElem? present, marks⟩)

/-! ## A heartbeat between the read and the mark -/

/-- On the moves of the tasks the two clocks agree. -/
theorem step_forward (step : Step (platform registry) pool event next) (moves : event ≠ .drift) :
    Step (forward registry) pool event next := by
  cases step with
  | spawn admitted => exact .spawn admitted
  | call present awaits allowed => exact .call present awaits allowed
  | drift => contradiction

theorem run_forward {ok : System → SystemEvent → Prop} (run : Run (platform registry) ok source events pool)
    (moves : ∀ pool event, ok pool event → event ≠ .drift) : Run (forward registry) ok source events pool := by
  induction run with
  | nil => exact .nil _
  | cons meets step _ ih => exact .cons meets (step_forward step (moves _ _ meets)) ih

def isMove : SystemEvent → Bool
  | .drift => false
  | _ => true

theorem ne_drift_of_isMove (check : isMove event = true) : event ≠ .drift := by
  rintro rfl
  cases check

/-- A check for moves of the tasks that write nothing recent. -/
def isUnheard (pool : System) : SystemEvent → Bool
  | .call _ ⟨.sql stmt, _⟩ => stmt.heardOf?.all fun report =>
      decide (report.1 ∈ marking pool → report.2 < pool.world.now - silence)
  | event => isMove event

theorem isMove_of_isUnheard (check : isUnheard pool event = true) : isMove event = true := by
  unfold isUnheard at check
  split at check
  · rfl
  · exact check

theorem unheard_of_is (check : isUnheard pool event = true) : Unheard pool event := by
  unfold Unheard
  split
  · intro report written
    exact of_decide_eq_true ((Option.all_eq_true ..).mp check report written)
  · trivial

/-- The first task is a pass that marks the online worker next. -/
def marksNext (pool : System) : Bool :=
  match pool.tasks[(0 : ℕ)]? with
  | some ⟨.onlineCheckPass, _, .call (.sql (.setWorkerOffline workerName)) _⟩ =>
    decide (workerName = "w1") && (pool.world.workers.find? "w1").any fun row => decide (row.status = .online)
  | _ => false

theorem of_marksNext (marks : marksNext pool = true) : ∃ task row next,
    pool.tasks[0]? = some task ∧ task.kind = .onlineCheckPass ∧ pool.world.workers.find? "w1" = some row ∧
      row.status = .online ∧ Step (forward registry) pool (.call 0 ⟨.sql (.setWorkerOffline "w1"), .ok ()⟩) next := by
  unfold marksNext at marks
  split at marks
  · next present =>
    obtain ⟨own, online⟩ := (Bool.and_eq_true ..).mp marks
    obtain rfl := of_decide_eq_true own
    obtain ⟨row, found, online⟩ := (Option.any_eq_true ..).mp online
    exact ⟨_, row, _, present, rfl, found, of_decide_eq_true online, .call present rfl trivial⟩
  · cases marks

/-- The worker was last heard of a minute and a second ago, and a heartbeat of it is on its way. -/
def silentSystem (heartbeat : StatusMessage) : System :=
  ⟨{ sampleWorld .online with now := Duration.seconds 61, statusQueue := [.workerStatus heartbeat] }, []⟩

/-- The pass reads the worker, and the heartbeat is written. -/
def heardBetween (heartbeat : StatusMessage) : List Move :=
  [.start .onlineCheckPass, .go 0, .start (.statusDelivery (.workerStatus heartbeat)), .go 1]

/-- A heartbeat that has been delayed for a minute. -/
theorem marksSilent_delayed : ∃ pool events row next,
    Run (forward ⟨false⟩) Unheard (silentSystem ⟨"w1", .heartbeat, 1⟩) events pool ∧
      Step (forward ⟨false⟩) pool (.call 0 ⟨.sql (.setWorkerOffline "w1"), .ok ()⟩) next ∧
      pool.world.workers.find? "w1" = some row ∧ row.lastSeen < pool.world.now - silence := by
  have replayed : (replay ⟨false⟩ isUnheard (silentSystem ⟨"w1", .heartbeat, 1⟩)
      (heardBetween ⟨"w1", .heartbeat, 1⟩)).any marksNext = true := by
    decide +kernel
  obtain ⟨events, pool, run, marks⟩ := exists_run_of_replay replayed
  obtain ⟨task, row, next, present, pass, found, online, step⟩ := of_marksNext marks
  have unheard := (run_forward run fun _ _ check => ne_drift_of_isMove (isMove_of_isUnheard check)).mono fun _ _ => unheard_of_is
  exact ⟨pool, events, row, next, unheard, step, found,
    marksSilent_of_unheard rfl unheard step 0 task "w1" present pass rfl row found online⟩

/-- A worker that is heard of between the read and the mark is marked although it is not silent. -/
theorem not_onlySilentMarked : ¬ OnlySilentMarked := by
  intro silent
  have replayed : (replay ⟨false⟩ (fun _ => isMove) (silentSystem (sampleBeat 61))
      (heardBetween (sampleBeat 61))).any (fun pool => marksNext pool &&
        (pool.world.workers.find? "w1").all fun row => !decide (row.lastSeen < pool.world.now - silence)) = true := by
    decide +kernel
  obtain ⟨events, pool, run, found⟩ := exists_run_of_replay replayed
  obtain ⟨marks, recent⟩ := (Bool.and_eq_true ..).mp found
  obtain ⟨task, row, next, present, pass, found, online, step⟩ := of_marksNext marks
  have unrestricted : Run (forward ⟨false⟩) (fun _ _ => True) (silentSystem (sampleBeat 61)) events pool :=
    (run_forward run fun _ _ => ne_drift_of_isMove).mono fun _ _ _ => trivial
  have old := silent rfl unrestricted step 0 task "w1" present pass rfl row found online
  have recent := (Option.all_eq_true ..).mp recent row found
  simp [old] at recent

end Bms
