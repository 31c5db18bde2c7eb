import Bms.Data.Stamped
import Bms.Protocol.StatusMessages

/-! # Updates of a worker in any order

All messages of a worker share one guard, the time at which it was last seen, but each kind writes
other columns. A newer message that leaves a column alone suppresses an older one that would have
written it, so the order in which the messages are processed shows. The guard compares whole
microseconds: of the messages of one microsecond only the first to be processed can pass it.
-/

namespace Bms

open Process Stamped

namespace StatusMessage

/-- What a message writes into the status of its worker. -/
def status? (message : StatusMessage) : Option WorkerStatus :=
  match message.status with
  | .lifecycle details => some details.workerStatus
  | .job _ => none
  | .heartbeat => some .online

/-- What a message writes into the job of its worker. -/
def jobId? (message : StatusMessage) : Option (Option Uuid) :=
  match message.status with
  | .lifecycle _ => some none
  | .job details => some (details.map (·.jobId))
  | .heartbeat => none

theorem lastSeen_write (message : StatusMessage) (row : WorkerRow) : (message.write row).lastSeen = message.stamp := by
  obtain ⟨workerName, status, timestamp⟩ := message
  cases status <;> rfl

theorem status_write (message : StatusMessage) (row : WorkerRow) :
    (message.write row).status = message.status?.getD row.status := by
  obtain ⟨workerName, status, timestamp⟩ := message
  cases status <;> rfl

theorem jobId_write (message : StatusMessage) (row : WorkerRow) :
    (message.write row).jobId = message.jobId?.getD row.jobId := by
  obtain ⟨workerName, status, timestamp⟩ := message
  cases status <;> rfl

end StatusMessage

/-- A worker that is known stays known, and takes the messages that are newer than all before them. -/
theorem ProcessesAll.known {w later : World} {messages : List StatusMessage} {row : WorkerRow}
    (processes : ProcessesAll w messages later) (known : w.workers.find? row.workerName = some row)
    (own : ∀ message ∈ messages, message.workerName = row.workerName) :
    later.workers.find? row.workerName = some ((heard StatusMessage.stamp row.lastSeen messages).foldl
      (fun row message => message.write row) row) := by
  rw [processes.worker own, known, foldl_applyTo]
  exact congrArg some (foldl_guarded WorkerRow.lastSeen StatusMessage.lastSeen_write row messages)

/-- The worker's row has the same status, time and job in both worlds. -/
def SameWorker (workerName : String) (w other : World) : Prop :=
  ∃ row row', w.workers.find? workerName = some row ∧ other.workers.find? workerName = some row' ∧
    row.status = row'.status ∧ row.lastSeen = row'.lastSeen ∧ row.jobId = row'.jobId

/-- Two orders in which newer messages of a known worker are processed, the second one that of their times. -/
structure Reordered (w : World) (row : WorkerRow) (messages sorted : List StatusMessage) (later other : World) : Prop where
  known : w.workers.find? row.workerName = some row
  own : ∀ message ∈ messages, message.workerName = row.workerName
  newer : ∀ message ∈ messages, row.lastSeen < message.timestamp
  reordered : sorted.Perm messages
  inOrder : sorted.Pairwise fun a b => a.timestamp < b.timestamp
  processes : ProcessesAll w messages later
  ordered : ProcessesAll w sorted other

/-- The order does not show. -/
def OrderIndependent : Prop :=
  ∀ {w later other : World} {row : WorkerRow} {messages sorted : List StatusMessage},
    Reordered w row messages sorted later other → SameWorker row.workerName later other

/-- The order does not show exactly when the newest of the messages that write the status in the order of their times
is the last to write it here, or when it writes what the status is anyway; and likewise for the job. -/
theorem sameWorker_iff {w later other : World} {row : WorkerRow} {messages sorted : List StatusMessage}
    (runs : Reordered w row messages sorted later other) : SameWorker row.workerName later other ↔
      Shown StatusMessage.stamp StatusMessage.timestamp StatusMessage.status? row.status row.lastSeen messages ∧
        Shown StatusMessage.stamp StatusMessage.timestamp StatusMessage.jobId? row.jobId row.lastSeen messages := by
  have found := runs.processes.known runs.known runs.own
  have found' := runs.ordered.known runs.known fun message member => runs.own message (runs.reordered.mem_iff.mp member)
  have status (messages : List StatusMessage) := foldl_column StatusMessage.status_write row messages
  have jobId (messages : List StatusMessage) := foldl_column StatusMessage.jobId_write row messages
  have lastSeen (messages : List StatusMessage) : (messages.foldl (fun row message => message.write row) row).lastSeen =
      lastWritten (fun message => some message.stamp) row.lastSeen messages :=
    foldl_column StatusMessage.lastSeen_write row messages
  rw [← lastWritten_heard_eq_iff runs.reordered runs.inOrder, ← lastWritten_heard_eq_iff runs.reordered runs.inOrder,
    ← status, ← status, ← jobId, ← jobId]
  constructor
  · rintro ⟨a, b, foundA, foundB, sameStatus, -, sameJob⟩
    cases found.symm.trans foundA
    cases found'.symm.trans foundB
    exact ⟨sameStatus, sameJob⟩
  · rintro ⟨sameStatus, sameJob⟩
    refine ⟨_, _, found, found', sameStatus, ?_, sameJob⟩
    rw [lastSeen, lastSeen]
    exact lastWritten_stamp_perm row.lastSeen runs.reordered

/-! ## Two orders of a worker's messages -/

def sampleRow : WorkerRow := ⟨"w1", .online, 0, none, none, none⟩

/-- An offline message and a heartbeat of the same microsecond. -/
def leavingAt : StatusMessage := ⟨"w1", .lifecycle ⟨["eu"], .offline⟩, Duration.seconds 3 - 400⟩

def beatAt : StatusMessage := ⟨"w1", .heartbeat, Duration.seconds 3 - 200⟩

/-- The offline message, processed in the middle, writes both columns; the heartbeat behind it is dropped. -/
theorem sameWorker_offlineLast : ∃ later other,
    Reordered (sampleWorld .online) sampleRow [sampleIdle 1, leavingAt, sampleBeat 2, beatAt]
      [sampleIdle 1, sampleBeat 2, leavingAt, beatAt] later other ∧ SameWorker "w1" later other := by
  obtain ⟨later, processes⟩ := exists_processesAll (sampleWorld .online) [sampleIdle 1, leavingAt, sampleBeat 2, beatAt]
    (by decide +kernel)
  obtain ⟨other, ordered⟩ := exists_processesAll (sampleWorld .online) [sampleIdle 1, sampleBeat 2, leavingAt, beatAt]
    (by decide +kernel)
  have runs : Reordered (sampleWorld .online) sampleRow [sampleIdle 1, leavingAt, sampleBeat 2, beatAt]
      [sampleIdle 1, sampleBeat 2, leavingAt, beatAt] later other :=
    ⟨rfl, by decide, by decide, by decide, by decide, processes, ordered⟩
  exact ⟨later, other, runs, (sameWorker_iff runs).mpr
    ⟨(lastWritten_heard_eq_iff runs.reordered runs.inOrder).mp (by decide),
      (lastWritten_heard_eq_iff runs.reordered runs.inOrder).mp (by decide)⟩⟩

/-- An offline message that is processed behind a newer job message does not make the worker offline. -/
theorem not_orderIndependent : ¬ OrderIndependent := by
  intro independent
  obtain ⟨later, processes⟩ := exists_processesAll (sampleWorld .online) [sampleIdle 2, sampleOffline 1] (by decide +kernel)
  obtain ⟨other, ordered⟩ := exists_processesAll (sampleWorld .online) [sampleOffline 1, sampleIdle 2] (by decide +kernel)
  have runs : Reordered (sampleWorld .online) sampleRow [sampleIdle 2, sampleOffline 1] [sampleOffline 1, sampleIdle 2]
      later other := ⟨rfl, by decide, by decide, by decide, by decide, processes, ordered⟩
  have same := (lastWritten_heard_eq_iff runs.reordered runs.inOrder).mpr ((sameWorker_iff runs).mp (independent runs)).1
  revert same
  decide

end Bms
