import Bms.Properties.WorkerOrder

/-! # Start and shutdown of a worker

The row of a worker is inserted without the time of its start or shutdown; only the update of a row that
exists writes them. So the columns follow the accepted lifecycle messages exactly if the first one is renewed
by a later one with its status. All times are those that the row keeps, in whole microseconds.
-/

namespace Bms

open Process Stamped

namespace StatusMessage

/-- The status that a lifecycle message announces. -/
def lifecycleStatus? (message : StatusMessage) : Option WorkerStatus :=
  match message.status with
  | .lifecycle details => some details.workerStatus
  | _ => none

/-- What a message writes into the column of a status. -/
def moment? (status : WorkerStatus) (message : StatusMessage) : Option (Option DateTime) :=
  if message.lifecycleStatus? = some status then some (some message.stamp) else none

end StatusMessage

/-- The lifecycle messages that insert the row, or that pass its guard. -/
def accepted : Option DateTime → List StatusMessage → List StatusMessage
  | _, [] => []
  | none, message :: rest =>
    if message.lifecycleStatus?.isSome then message :: accepted (some message.stamp) rest else accepted none rest
  | some seen, message :: rest =>
    if seen < message.stamp then
      if message.lifecycleStatus?.isSome then message :: accepted (some message.stamp) rest
      else accepted (some message.stamp) rest
    else accepted (some seen) rest

/-- The time of the last message with a status. -/
def lastOf (status : WorkerStatus) (messages : List StatusMessage) : Option DateTime :=
  (messages.filter fun message => message.lifecycleStatus? = some status).getLast?.map (·.stamp)

/-- The columns show the last accepted messages. -/
def FollowsLifecycle (workerName : String) (messages : List StatusMessage) (later : World) : Prop :=
  ∀ row, later.workers.find? workerName = some row →
    row.startedAt = lastOf .online (accepted none messages) ∧ row.shutdownAt = lastOf .offline (accepted none messages)

/-- The messages of a worker that has no row are processed. -/
structure Appears (w : World) (workerName : String) (messages : List StatusMessage) (later : World) : Prop where
  unknown : w.workers.find? workerName = none
  own : ∀ message ∈ messages, message.workerName = workerName
  processes : ProcessesAll w messages later

/-- Whatever the messages of a worker are, the columns follow them. -/
def LifecycleFollowed : Prop :=
  ∀ {w later : World} {workerName : String} {messages : List StatusMessage},
    Appears w workerName messages later → FollowsLifecycle workerName messages later

/-- There is no lifecycle message, or the first one is followed by one of its status that is newer than every
message from the first one on. -/
def Renewed (messages : List StatusMessage) : Prop :=
  (∀ message ∈ messages, message.lifecycleStatus? = none) ∨
    ∃ before first middle renewing after, messages = before ++ first :: (middle ++ renewing :: after) ∧
      (∀ message ∈ before, message.lifecycleStatus? = none) ∧ first.lifecycleStatus? ≠ none ∧
      renewing.lifecycleStatus? = first.lifecycleStatus? ∧ first.stamp < renewing.stamp ∧
      ∀ message ∈ middle, message.stamp < renewing.stamp

/-! ## Accepted messages -/

variable {w later : World} {workerName : String} {messages before rest : List StatusMessage} {first : StatusMessage}

theorem accepted_some (seen : DateTime) (messages : List StatusMessage) : accepted (some seen) messages =
    (heard StatusMessage.stamp seen messages).filter fun message => message.lifecycleStatus?.isSome := by
  induction messages generalizing seen with
  | nil => rfl
  | cons message rest ih =>
    rw [accepted, heard]
    split
    · rw [List.filter_cons, ih]
    · exact ih seen

theorem accepted_none (silent : ∀ message ∈ before, message.lifecycleStatus? = none)
    (lifecycle : first.lifecycleStatus? ≠ none) :
    accepted none (before ++ first :: rest) =
      (first :: heard StatusMessage.stamp first.stamp rest).filter fun message => message.lifecycleStatus?.isSome := by
  induction before with
  | nil =>
    have announces : first.lifecycleStatus?.isSome := Option.isSome_iff_ne_none.mpr lifecycle
    rw [List.nil_append, accepted, if_pos announces, accepted_some, List.filter_cons, if_pos announces]
  | cons message before ih =>
    obtain ⟨own, silent⟩ := List.forall_mem_cons.mp silent
    rw [List.cons_append, accepted, own, if_neg (by decide), ih silent]

/-- The last message of a status is the last one that writes its column. -/
theorem lastWritten_moment? (status : WorkerStatus) (value : Option DateTime) (messages : List StatusMessage) :
    lastWritten (StatusMessage.moment? status) value messages = (lastOf status messages).or value := by
  induction messages using List.reverseRecOn with
  | nil => rfl
  | append_singleton messages message ih =>
    rw [lastWritten, List.foldl_append, List.foldl_cons, List.foldl_nil, lastOf, List.filter_append]
    by_cases same : message.lifecycleStatus? = some status
    · have writes : message.moment? status = some (some message.stamp) := if_pos same
      rw [writes, List.filter_singleton, decide_eq_true same, cond_true, List.getLast?_concat]
      rfl
    · have silent : message.moment? status = none := if_neg same
      rw [silent, List.filter_singleton, decide_eq_false same, cond_false, List.append_nil]
      exact ih

/-- The messages of other kinds do not count. -/
theorem lastOf_filter (status : WorkerStatus) (messages : List StatusMessage) :
    lastOf status (messages.filter fun message => message.lifecycleStatus?.isSome) = lastOf status messages := by
  rw [lastOf, lastOf, List.filter_filter]
  congr 2
  apply List.filter_congr
  intro message _
  cases message.lifecycleStatus? <;> simp

/-! ## The row -/

theorem foldl_applyTo_none (silent : ∀ message ∈ before, message.lifecycleStatus? = none) :
    before.foldl (fun row message => message.applyTo row) none = none := by
  induction before with
  | nil => rfl
  | cons message before ih =>
    obtain ⟨own, others⟩ := List.forall_mem_cons.mp silent
    obtain ⟨workerName, status, timestamp⟩ := message
    cases status with
    | lifecycle details => cases own
    | job | heartbeat => exact ih others

/-- The row that a lifecycle message inserts. -/
def inserted (message : StatusMessage) (status : WorkerStatus) : WorkerRow :=
  ⟨message.workerName, status, message.stamp, none, none, none⟩

theorem applyTo_none {status : WorkerStatus} (announces : first.lifecycleStatus? = some status) :
    first.applyTo none = some (inserted first status) := by
  obtain ⟨workerName, kind, timestamp⟩ := first
  cases kind with
  | lifecycle details =>
    cases announces
    rfl
  | job | heartbeat => cases announces

theorem startedAt_write (message : StatusMessage) (row : WorkerRow) :
    (message.write row).startedAt = (message.moment? .online).getD row.startedAt := by
  obtain ⟨workerName, status, timestamp⟩ := message
  cases status with
  | lifecycle details =>
    obtain ⟨topics, status⟩ := details
    cases status <;> rfl
  | job | heartbeat => rfl

theorem shutdownAt_write (message : StatusMessage) (row : WorkerRow) :
    (message.write row).shutdownAt = (message.moment? .offline).getD row.shutdownAt := by
  obtain ⟨workerName, status, timestamp⟩ := message
  cases status with
  | lifecycle details =>
    obtain ⟨topics, status⟩ := details
    cases status <;> rfl
  | job | heartbeat => rfl

/-- The row of a worker whose first lifecycle message has been processed. -/
theorem Appears.row (appears : Appears w workerName (before ++ first :: rest) later)
    (silent : ∀ message ∈ before, message.lifecycleStatus? = none) {status : WorkerStatus}
    (announces : first.lifecycleStatus? = some status) :
    later.workers.find? workerName = some ((heard StatusMessage.stamp first.stamp rest).foldl
      (fun row message => message.write row) (inserted first status)) := by
  rw [appears.processes.worker appears.own, appears.unknown, List.foldl_append, foldl_applyTo_none silent, List.foldl_cons,
    applyTo_none announces, foldl_applyTo]
  exact congrArg some (foldl_guarded WorkerRow.lastSeen StatusMessage.lastSeen_write (inserted first status) rest)

/-- A column that starts empty follows the accepted messages if the first of them does not write it, or if a
later one does. -/
theorem column_iff (status : WorkerStatus) (silent : ∀ message ∈ before, message.lifecycleStatus? = none)
    (lifecycle : first.lifecycleStatus? ≠ none) :
    lastWritten (StatusMessage.moment? status) none (heard StatusMessage.stamp first.stamp rest) =
        lastOf status (accepted none (before ++ first :: rest)) ↔
      (first.lifecycleStatus? = some status →
        ∃ message ∈ heard StatusMessage.stamp first.stamp rest, message.lifecycleStatus? = some status) := by
  rw [accepted_none silent lifecycle, lastOf_filter, ← Option.or_none (o := lastOf status _), ← lastWritten_moment?]
  generalize heard StatusMessage.stamp first.stamp rest = behind
  rw [lastWritten_cons]
  by_cases own : first.lifecycleStatus? = some status
  · have writes : first.moment? status = some (some first.stamp) := if_pos own
    rw [writes, Option.getD_some]
    constructor
    · intro same _
      by_contra never
      have untouched : ∀ message ∈ behind, message.moment? status = none :=
        fun message member => if_neg fun again => never ⟨message, member, again⟩
      rw [lastWritten_of_untouched untouched, lastWritten_of_untouched untouched] at same
      cases same
    · intro renewed
      obtain ⟨message, member, again⟩ := renewed own
      have touched : message.moment? status = some (some message.stamp) := if_pos again
      exact lastWritten_of_touched member (touched ▸ Option.some_ne_none _) _ _
  · have silent : first.moment? status = none := if_neg own
    rw [silent, Option.getD_none]
    exact iff_of_true rfl fun absurd => (own absurd).elim

/-- The columns follow the messages exactly if a later accepted one renews the first. -/
theorem Appears.followsLifecycle_iff_heard (appears : Appears w workerName (before ++ first :: rest) later)
    (silent : ∀ message ∈ before, message.lifecycleStatus? = none) (lifecycle : first.lifecycleStatus? ≠ none) :
    FollowsLifecycle workerName (before ++ first :: rest) later ↔
      ∃ message ∈ heard StatusMessage.stamp first.stamp rest, message.lifecycleStatus? = first.lifecycleStatus? := by
  obtain ⟨status, announces⟩ := Option.ne_none_iff_exists'.mp lifecycle
  have found := appears.row silent announces
  have started := foldl_column startedAt_write (inserted first status)
    (heard StatusMessage.stamp first.stamp rest)
  have shutdown := foldl_column shutdownAt_write (inserted first status)
    (heard StatusMessage.stamp first.stamp rest)
  have follows : FollowsLifecycle workerName (before ++ first :: rest) later ↔ ∀ status,
      lastWritten (StatusMessage.moment? status) none (heard StatusMessage.stamp first.stamp rest) =
        lastOf status (accepted none (before ++ first :: rest)) := by
    constructor
    · intro follows status
      obtain ⟨online, offline⟩ := follows _ found
      cases status with
      | online => exact started.symm.trans online
      | offline => exact shutdown.symm.trans offline
    · intro columns row present
      obtain rfl : _ = row := Option.some_injective _ (found.symm.trans present)
      exact ⟨started.trans (columns .online), shutdown.trans (columns .offline)⟩
  rw [follows, forall_congr' fun status => column_iff status silent lifecycle, announces]
  constructor
  · intro renewed
    exact renewed status rfl
  · rintro renewed other same
    obtain rfl : status = other := Option.some_injective _ same
    exact renewed

/-! ## All messages -/

/-- The first lifecycle message, if there is one. -/
theorem exists_first (messages : List StatusMessage) : (∀ message ∈ messages, message.lifecycleStatus? = none) ∨
    ∃ before first rest, messages = before ++ first :: rest ∧ (∀ message ∈ before, message.lifecycleStatus? = none) ∧
      first.lifecycleStatus? ≠ none := by
  cases found : messages.find? fun message => message.lifecycleStatus?.isSome with
  | none =>
    left
    intro message member
    simpa using List.find?_eq_none.mp found message member
  | some first =>
    right
    obtain ⟨lifecycle, before, rest, split, silent⟩ := List.find?_eq_some_iff_append.mp found
    exact ⟨before, first, rest, split, fun message member => by simpa using silent message member,
      Option.isSome_iff_ne_none.mp lifecycle⟩

/-- The columns follow the messages exactly if the first lifecycle message is renewed. -/
theorem followsLifecycle_iff (appears : Appears w workerName messages later) :
    FollowsLifecycle workerName messages later ↔ Renewed messages := by
  constructor
  · intro follows
    obtain silent | ⟨before, first, rest, rfl, silent, lifecycle⟩ := exists_first messages
    · exact .inl silent
    · obtain ⟨renewing, isHeard, again⟩ := (appears.followsLifecycle_iff_heard silent lifecycle).mp follows
      obtain ⟨middle, after, rfl, newer, others⟩ := mem_heard_iff.mp isHeard
      exact .inr ⟨before, first, middle, renewing, after, rfl, silent, lifecycle, again, newer, others⟩
  · rintro (silent | ⟨before, first, middle, renewing, after, rfl, silent, lifecycle, again, newer, others⟩)
    · intro row present
      rw [appears.processes.worker appears.own, appears.unknown, foldl_applyTo_none silent] at present
      cases present
    · exact (appears.followsLifecycle_iff_heard silent lifecycle).mpr
        ⟨renewing, mem_heard_iff.mpr ⟨middle, after, rfl, newer, others⟩, again⟩

/-- The sample system before its worker has appeared. -/
def emptyWorld : World := { sampleWorld .online with workers := .empty }

theorem exists_appears (messages : List StatusMessage) (own : ∀ message ∈ messages, message.workerName = "w1")
    (computes : (processAll emptyWorld messages).isSome = true) : ∃ later, Appears emptyWorld "w1" messages later := by
  obtain ⟨later, processes⟩ := exists_processesAll emptyWorld messages computes
  exact ⟨later, rfl, own, processes⟩

/-- A worker that goes offline twice. -/
theorem followsLifecycle_offlineTwice : ∃ later,
    Appears emptyWorld "w1" [sampleOffline 1, sampleBeat 2, sampleOffline 3] later ∧
    FollowsLifecycle "w1" [sampleOffline 1, sampleBeat 2, sampleOffline 3] later := by
  obtain ⟨later, appears⟩ := exists_appears [sampleOffline 1, sampleBeat 2, sampleOffline 3] (by decide) (by decide +kernel)
  refine ⟨later, appears, (followsLifecycle_iff appears).mpr (.inr ?_)⟩
  exact ⟨[], sampleOffline 1, [sampleBeat 2], sampleOffline 3, [], rfl, by decide, by decide, rfl, by decide, by decide⟩

/-- A worker that appears with one message. -/
theorem not_lifecycleFollowed : ¬ LifecycleFollowed := by
  intro follows
  obtain ⟨later, appears⟩ := exists_appears [sampleOffline 1] (by decide) (by decide +kernel)
  have first : Appears emptyWorld "w1" ([] ++ sampleOffline 1 :: []) later := appears
  have lifecycle : (sampleOffline 1).lifecycleStatus? ≠ none := by decide
  obtain ⟨message, renewed, -⟩ := (first.followsLifecycle_iff_heard (by decide) lifecycle).mp (follows appears)
  exact List.not_mem_nil renewed

end Bms
