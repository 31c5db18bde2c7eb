import Bms.Model.Replay
import Bms.Properties.MessageTrail
import Bms.Protocol.RunIds

/-! # One result for one delivery

Job messages and results are delivered any number of times. Each delivery of a job message to a worker sends
at most one result, under a run id of its own, and however often that result is delivered it is saved once.
So every saved row stands for one delivery, and no worker has more rows for a sub-job than it has received
messages for it.
-/

namespace Bms

open Process

/-- The task is the delivery of a job message for a sub-job to a worker of this name. -/
def isDeliveryOf (subJobId : Uuid) (workerName : String) (task : SystemTask) : Bool :=
  match task.kind with
  | .jobDelivery config (.workerJob _ message) => config.workerName = workerName ∧ message.subJobId = subJobId
  | _ => false

/-- The task at a position is a delivery of a job message, and it has sent the result that is saved in the row. -/
def Produces (pool : System) (position : ℕ) (row : WorkerDataRow) : Prop :=
  ∃ task config message result w, pool.tasks[position]? = some task ∧
    task.kind = .jobDelivery config (.workerJob row.jobId message) ∧
    (row.jobId, result) ∈ task.log.filterMap sentResult? ∧ result.Answers config row.jobId message ∧
    row = Stmt.savedRow w result

/-- What the tasks have said, and what has become of it. -/
structure Accounted (pool : System) : Prop where
  trail : Trail pool
  speaking : ∀ task ∈ pool.tasks, SpeaksOwn task
  drawn : (pool.made drawnId?).Nodup
  results : (pool.world.resultQueue.filterMap Message.result?).Perm (pool.made sentResult?)
  starts : (pool.world.statusQueue.filterMap Message.start?).Perm (pool.made sentStart?)

variable {registry : ServiceScalerRegistry} {source target pool : System}

theorem accounted_of_run {ok : System → SystemEvent → Prop} {events : List SystemEvent} (initial : Initial source)
    (run : Run (platform registry) ok source events target) : Accounted target where
  trail := trail_of_run initial run
  speaking := by
    have tracks : (jobMonitor.TracksAll target ∧ speakMonitor.TracksAll target) ∧ runMonitor.TracksAll target :=
      run.invariant (I := fun pool => (jobMonitor.TracksAll pool ∧ speakMonitor.TracksAll pool) ∧ runMonitor.TracksAll pool)
        (fun both _ step => ⟨⟨both.1.1.step (jobMonitor_covers registry) step,
          both.1.2.step (speakMonitor_covers registry) step⟩, both.2.step (runMonitor_covers registry) step⟩)
        ⟨⟨Monitor.tracksAll_of_empty initial.tasks, Monitor.tracksAll_of_empty initial.tasks⟩,
          Monitor.tracksAll_of_empty initial.tasks⟩
    intro task member
    obtain ⟨position, present⟩ := List.mem_iff_getElem?.mp member
    exact ⟨(tracks.1.1 position task present).permits, (tracks.1.2 position task present).permits,
      (tracks.2 position task present).permits⟩
  drawn := (uuidTickets registry).nodup_made run initial.tasks
  results := (resultBox registry).perm_made run (by simp [resultBox, initial.resultQueue, Pool.made, initial.tasks])
  starts := (startBox registry).perm_made run (by simp [startBox, initial.statusQueue, Pool.made, initial.tasks])

/-- A run id on a result, or on a start, has been drawn by the task that has sent it. -/
theorem SpeaksOwn.drawn {task : SystemTask} (speaking : SpeaksOwn task) :
    (∀ jobId result, (jobId, result) ∈ task.log.filterMap sentResult? → result.runId ∈ task.log.filterMap drawnId?) ∧
      ∀ workerName details, (workerName, details) ∈ task.log.filterMap sentStart? →
        details.runId ∈ task.log.filterMap drawnId? := by
  obtain ⟨-, starts, results⟩ := speaking.stamps
  exact ⟨fun jobId result sent => results.subset (List.mem_map_of_mem (f := fun pair => pair.2.runId) sent),
    fun workerName details sent => starts.subset (List.mem_map_of_mem (f := fun pair => pair.2.runId) sent)⟩

theorem exists_position_of_made {μ : Type} {reads : Act → Option μ} {item : μ} (made : item ∈ pool.made reads) :
    ∃ (position : ℕ) (task : SystemTask), pool.tasks[position]? = some task ∧ task ∈ pool.tasks ∧
      item ∈ task.log.filterMap reads := by
  obtain ⟨task, member, made⟩ := List.mem_flatMap.mp made
  obtain ⟨position, present⟩ := List.mem_iff_getElem?.mp member
  exact ⟨position, task, present, member, made⟩

/-- Every saved row is the result of a delivery. -/
theorem Accounted.produced (accounted : Accounted pool) {row : WorkerDataRow} (member : row ∈ pool.world.workerData.rows) :
    ∃ position, Produces pool position row := by
  obtain ⟨w, result, sent, shown⟩ := accounted.trail.saved row member
  have queued : (row.jobId, result) ∈ pool.world.resultQueue.filterMap Message.result? :=
    List.mem_filterMap.mpr ⟨_, sent, rfl⟩
  obtain ⟨position, task, present, within, made⟩ := exists_position_of_made (accounted.results.mem_iff.mp queued)
  obtain ⟨config, message, kind, answers⟩ := (accounted.speaking task within).result made
  exact ⟨position, task, config, message, result, w, present, kind, made, answers, shown⟩

/-- A row is produced at one position only. -/
theorem Accounted.position_unique (accounted : Accounted pool) {position other : ℕ} {row : WorkerDataRow}
    (here : Produces pool position row) (there : Produces pool other row) : position = other := by
  obtain ⟨task, _, _, result, w, present, -, made, -, shown⟩ := here
  obtain ⟨task', _, _, result', w', present', -, made', -, shown'⟩ := there
  have runId : result.runId = result'.runId := congrArg WorkerDataRow.id (shown.symm.trans shown')
  have drawn := (accounted.speaking task (List.mem_of_getElem? present)).drawn.1 _ _ made
  have drawn' := (accounted.speaking task' (List.mem_of_getElem? present')).drawn.1 _ _ made'
  exact Pool.position_unique accounted.drawn present present' drawn (runId ▸ drawn')

theorem eq_of_length_le_one {α : Type} {items : List α} (few : items.length ≤ 1) {one other : α} (member : one ∈ items)
    (member' : other ∈ items) : one = other := by
  match items with
  | [only] => rw [List.mem_singleton.mp member, List.mem_singleton.mp member']

/-- A delivery produces one row only. -/
theorem Accounted.row_unique (accounted : Accounted pool) {position : ℕ} {row row' : WorkerDataRow}
    (member : row ∈ pool.world.workerData.rows) (member' : row' ∈ pool.world.workerData.rows)
    (here : Produces pool position row) (here' : Produces pool position row') : row = row' := by
  obtain ⟨task, _, _, result, w, present, -, made, -, shown⟩ := here
  obtain ⟨task', _, _, result', w', present', -, made', -, shown'⟩ := here'
  obtain rfl : task = task' := Option.some.inj (present.symm.trans present')
  obtain ⟨few, -⟩ := (accounted.speaking task (List.mem_of_getElem? present)).stamps
  have same : result = result' := congrArg Prod.snd (eq_of_length_le_one few made made')
  have key : row.id = row'.id := by rw [shown, shown', same]; rfl
  exact List.inj_on_of_nodup_map pool.world.workerData.nodup member member' key

/-- A worker has no more rows for a sub-job than it has received messages for it. -/
theorem Accounted.length_le (accounted : Accounted pool) (subJobId : Uuid) (workerName : String) :
    ((pool.world.dataOf subJobId).filter fun row => row.workerName = workerName).length ≤
      pool.tasks.countP (isDeliveryOf subJobId workerName) := by
  let wanted (sent : Uuid × ResultMessage) : Bool := sent.2.subJobId = subJobId ∧ sent.2.workerName = workerName
  have few (task : SystemTask) (member : task ∈ pool.tasks) : ((task.log.filterMap sentResult?).filter wanted).length ≤
      if isDeliveryOf subJobId workerName task then 1 else 0 := by
    obtain ⟨single, -⟩ := (accounted.speaking task member).stamps
    by_cases able : isDeliveryOf subJobId workerName task
    · rw [if_pos able]
      exact (List.length_filter_le ..).trans single
    · rw [if_neg able, Nat.le_zero, List.length_eq_zero_iff, List.filter_eq_nil_iff]
      rintro ⟨jobId, result⟩ made kept
      obtain ⟨config, message, kind, -, own, worker, -⟩ := (accounted.speaking task member).result made
      obtain ⟨here, named⟩ := of_decide_eq_true kept
      have delivers : config.workerName = workerName ∧ message.subJobId = subJobId :=
        ⟨worker.symm.trans named, own.symm.trans here⟩
      exact able (by simp [isDeliveryOf, kind, delivers])
  have runs : ((pool.world.dataOf subJobId).filter fun row => row.workerName = workerName).map (·.id) ⊆
      ((pool.made sentResult?).filter wanted).map (·.2.runId) := by
    intro id member
    obtain ⟨row, kept, rfl⟩ := List.mem_map.mp member
    obtain ⟨found, named⟩ := List.mem_filter.mp kept
    obtain ⟨stored, own⟩ := List.mem_filter.mp found
    obtain ⟨w, result, sent, shown⟩ := accounted.trail.saved row stored
    have queued : (row.jobId, result) ∈ pool.world.resultQueue.filterMap Message.result? :=
      List.mem_filterMap.mpr ⟨_, sent, rfl⟩
    have made := accounted.results.mem_iff.mp queued
    have fits : wanted (row.jobId, result) = true := by
      have own : row.subJobId = subJobId := of_decide_eq_true own
      have named : row.workerName = workerName := of_decide_eq_true named
      rw [shown] at own named
      exact decide_eq_true ⟨own, named⟩
    exact List.mem_map.mpr ⟨(row.jobId, result), List.mem_filter.mpr ⟨made, fits⟩, by rw [shown]; rfl⟩
  have distinct : (((pool.world.dataOf subJobId).filter fun row => row.workerName = workerName).map (·.id)).Nodup := by
    have sublist := (List.filter_sublist (p := fun row : WorkerDataRow => decide (row.workerName = workerName))).trans
      (List.filter_sublist (l := pool.world.workerData.rows) (p := fun row => decide (row.subJobId = subJobId)))
    exact pool.world.workerData.nodup.sublist (sublist.map _)
  have counted := (List.subperm_of_subset distinct runs).length_le
  rw [List.length_map, List.length_map] at counted
  exact counted.trans (Pool.length_made_le few)

/-- A start and a result with one run id come from the same delivery. -/
theorem Accounted.start_result (accounted : Accounted pool) {workerName : String} {details : WorkerStatusJobDetails}
    {timestamp : DateTime} {jobId : Uuid} {result : ResultMessage}
    (start : .workerStatus ⟨workerName, .job (some details), timestamp⟩ ∈ pool.world.statusQueue)
    (answer : .workerResult jobId result ∈ pool.world.resultQueue) (same : details.runId = result.runId) :
    details = ⟨result.runId, jobId, result.subJobId, result.workerName⟩ ∧ workerName = result.workerName := by
  have started : (workerName, details) ∈ pool.world.statusQueue.filterMap Message.start? :=
    List.mem_filterMap.mpr ⟨_, start, rfl⟩
  have answered : (jobId, result) ∈ pool.world.resultQueue.filterMap Message.result? :=
    List.mem_filterMap.mpr ⟨_, answer, rfl⟩
  obtain ⟨position, task, present, member, made⟩ := exists_position_of_made (accounted.starts.mem_iff.mp started)
  obtain ⟨other, task', present', member', made'⟩ := exists_position_of_made (accounted.results.mem_iff.mp answered)
  have drawn := (accounted.speaking task member).drawn.2 _ _ made
  have drawn' := (accounted.speaking task' member').drawn.1 _ _ made'
  obtain rfl := Pool.position_unique accounted.drawn present present' drawn (same ▸ drawn')
  obtain rfl : task = task' := Option.some.inj (present.symm.trans present')
  obtain ⟨config, jobId', message, kind, named, shown⟩ := (accounted.speaking task member).start made
  obtain ⟨config', message', kind', job, own, worker, -⟩ := (accounted.speaking task member).result made'
  rw [kind'] at kind
  cases kind
  rw [shown, same, own, worker, named]
  exact ⟨rfl, rfl⟩

/-- In every state of a run: each saved row has been produced by exactly one delivery of a job message, and each
delivery has produced at most one row; no worker has more rows for a sub-job than it has received messages for
it; and a start and a result with the same run id name the same job, sub-job and worker. -/
theorem results_once (registry : ServiceScalerRegistry) {ok : System → SystemEvent → Prop} {source target : System}
    {events : List SystemEvent} (initial : Initial source) (run : Run (platform registry) ok source events target) :
    (∀ row ∈ target.world.workerData.rows, ∃! position, Produces target position row) ∧
      (∀ row ∈ target.world.workerData.rows, ∀ row' ∈ target.world.workerData.rows, ∀ position,
        Produces target position row → Produces target position row' → row = row') ∧
      (∀ subJobId workerName, ((target.world.dataOf subJobId).filter fun row => row.workerName = workerName).length ≤
        target.tasks.countP (isDeliveryOf subJobId workerName)) ∧
      ∀ workerName details timestamp jobId result,
        .workerStatus ⟨workerName, .job (some details), timestamp⟩ ∈ target.world.statusQueue →
        .workerResult jobId result ∈ target.world.resultQueue → details.runId = result.runId →
        details = ⟨result.runId, jobId, result.subJobId, result.workerName⟩ ∧ workerName = result.workerName := by
  have accounted := accounted_of_run initial run
  refine ⟨fun row member => ?_, fun row member row' member' position => accounted.row_unique member member',
    accounted.length_le, fun _ _ _ _ _ => accounted.start_result⟩
  obtain ⟨position, produces⟩ := accounted.produced member
  exact ⟨position, produces, fun other there => accounted.position_unique there produces⟩

/-- The worker answers too late, and its result is delivered twice; it cannot be saved again. -/
theorem results_once_redelivered : ∃ events target row,
    Run (platform ⟨false⟩) (fun _ _ => True) (sampleSystem .online) events target ∧
      row ∈ target.world.workerData.rows ∧ (∃! position, Produces target position row) ∧
      ((target.world.dataOf 3).filter fun row => row.workerName = "w1").length ≤
        target.tasks.countP (isDeliveryOf 3 "w1") := by
  have replayed : ((replay ⟨false⟩ (fun _ _ => true) (sampleSystem .online)
      (sampleCreation ++ sampleTick 1 7 ++ sampleTick 2 7 ++ [.clock (Duration.seconds 20)] ++
        received sampleWorker 3 3 ++ saved (lateAnswer 6 "w1") 4 ++
        [.start (.dataDelivery (lateAnswer 6 "w1")), .fail 5])).any fun target =>
          !target.world.workerData.rows.isEmpty) = true := by
    decide +kernel
  obtain ⟨events, target, run, found⟩ := exists_run_of_replay replayed
  have run := run.mono fun _ _ _ => trivial
  obtain ⟨row, saved⟩ := List.exists_mem_of_ne_nil target.world.workerData.rows (by simpa using found)
  obtain ⟨produced, -, counted, -⟩ := results_once ⟨false⟩ (initial_sampleSystem .online) run
  exact ⟨events, target, row, run, saved, produced row saved, counted 3 "w1"⟩

end Bms
