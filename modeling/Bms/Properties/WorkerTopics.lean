import Bms.Data.Stamped
import Bms.Properties.WorkerOrder
import Mathlib.Data.List.TakeWhile

/-! # Topics of a worker

The row of a worker is guarded by the times of its messages, its topics are not: an Online message
adds its topics and an Offline message removes all topics, whenever they are processed. A heartbeat
makes a worker online that has left, unless it is of the same microsecond.
-/

namespace Bms

open Process Stamped

namespace StatusMessage

/-- What a lifecycle message says. -/
def lifecycle? (message : StatusMessage) : Option WorkerDetails :=
  match message.status with
  | .lifecycle details => some details
  | _ => none

def IsHeartbeat (message : StatusMessage) : Prop := message.status = .heartbeat

instance (message : StatusMessage) : Decidable message.IsHeartbeat := inferInstanceAs (Decidable (_ = _))

def IsOffline (message : StatusMessage) : Prop := ∃ topics, message.lifecycle? = some ⟨topics, .offline⟩

end StatusMessage

/-- An Online message names the topic, and no Offline message has been processed after it. -/
def Named (messages : List StatusMessage) (topic : String) : Prop :=
  ∃ before online after topics, messages = before ++ online :: after ∧
    online.lifecycle? = some ⟨topics, .online⟩ ∧ topic ∈ topics ∧ ∀ message ∈ after, ¬ message.IsOffline

/-- Messages of one worker that nothing is known of, processed in this order, and the newest of its lifecycle messages. -/
structure Lifecycle (w : World) (workerName : String) (messages : List StatusMessage) (later : World)
    (newest : StatusMessage) (details : WorkerDetails) : Prop where
  unknown : w.workers.find? workerName = none
  topicless : ∀ topic, (workerName, topic) ∉ w.workerTopics.rows
  own : ∀ message ∈ messages, message.workerName = workerName
  kinds : ∀ message ∈ messages, message.lifecycle?.isSome ∨ message.IsHeartbeat
  distinct : ∀ message ∈ messages, ∀ other ∈ messages, message.timestamp = other.timestamp → message = other
  processes : ProcessesAll w messages later
  member : newest ∈ messages
  lifecycle : newest.lifecycle? = some details
  last : ∀ message ∈ messages, message.lifecycle?.isSome → message.timestamp ≤ newest.timestamp

/-- The worker's topics, and its status when it has left, are those of a lifecycle message. -/
def Agrees (workerName : String) (details : WorkerDetails) (w : World) : Prop :=
  match details.workerStatus with
  | .online => ∀ topic, (workerName, topic) ∈ w.workerTopics.rows ↔ topic ∈ details.workerTopics
  | .offline => (∀ topic, (workerName, topic) ∉ w.workerTopics.rows) ∧
      (w.workers.find? workerName).map (·.status) = some .offline

/-- Status and topics agree with the newest lifecycle message. -/
def TopicsAgree : Prop :=
  ∀ {w later : World} {workerName : String} {messages : List StatusMessage} {newest : StatusMessage} {details : WorkerDetails},
    Lifecycle w workerName messages later newest details → Agrees workerName details later

/-- The messages from the first lifecycle message on, which makes the worker known. -/
def sinceKnown (messages : List StatusMessage) : List StatusMessage :=
  messages.dropWhile fun message => message.lifecycle?.isNone

/-- The messages have been processed in an order that makes up for the missing guard. Once the worker is known, the
first message of the latest microsecond decides on its status. -/
def ProcessedInTime (messages : List StatusMessage) (details : WorkerDetails) : Prop :=
  match details.workerStatus with
  | .online => ∀ topic, Named messages topic ↔ topic ∈ details.workerTopics
  | .offline => (∀ topic, ¬ Named messages topic) ∧
      ∃ latest, Latest StatusMessage.stamp (sinceKnown messages) latest ∧ latest.IsOffline

/-! ## The topics -/

theorem named_concat_iff (messages : List StatusMessage) (last : StatusMessage) (topic : String) :
    Named (messages ++ [last]) topic ↔ (∃ topics, last.lifecycle? = some ⟨topics, .online⟩ ∧ topic ∈ topics) ∨
      (Named messages topic ∧ ¬ last.IsOffline) := by
  constructor
  · rintro ⟨before, online, after, topics, same, lifecycle, member, silent⟩
    obtain rfl | ⟨others, final, rfl⟩ := List.eq_nil_or_concat after
    · obtain ⟨-, same⟩ := List.append_inj' same rfl
      cases same
      exact .inl ⟨topics, lifecycle, member⟩
    · rw [List.concat_eq_append] at same silent
      have whole : messages ++ [last] = (before ++ online :: others) ++ [final] := by simpa using same
      obtain ⟨rfl, ends⟩ := List.append_inj' whole rfl
      cases ends
      exact .inr ⟨⟨before, online, others, topics, rfl, lifecycle, member,
        fun message behind => silent message (List.mem_append_left _ behind)⟩, silent last (by simp)⟩
  · rintro (⟨topics, lifecycle, member⟩ | ⟨⟨before, online, after, topics, rfl, lifecycle, member, silent⟩, notOffline⟩)
    · exact ⟨messages, last, [], topics, rfl, lifecycle, member, nofun⟩
    · refine ⟨before, online, after ++ [last], topics, by simp, lifecycle, member, ?_⟩
      intro message behind
      obtain old | new := List.mem_append.mp behind
      · exact silent message old
      · rwa [List.mem_singleton.mp new]

theorem named_concat (messages : List StatusMessage) (last : StatusMessage) (topic : String) :
    Named (messages ++ [last]) topic ↔ last.Topics (Named messages) topic := by
  rw [named_concat_iff]
  obtain ⟨workerName, status, timestamp⟩ := last
  cases status with
  | lifecycle details =>
    obtain ⟨topics, _ | _⟩ := details
    · simp [StatusMessage.Topics, StatusMessage.IsOffline, StatusMessage.lifecycle?, or_comm]
    · simp [StatusMessage.Topics, StatusMessage.IsOffline, StatusMessage.lifecycle?]
  | job | heartbeat => simp [StatusMessage.Topics, StatusMessage.IsOffline, StatusMessage.lifecycle?]

theorem foldl_topics (messages : List StatusMessage) (topic : String) :
    messages.foldl (fun before message => message.Topics before) (fun _ => False) topic ↔ Named messages topic := by
  induction messages using List.reverseRecOn generalizing topic with
  | nil =>
    apply iff_of_false id
    rintro ⟨before, online, after, topics, same, -⟩
    simp at same
  | append_singleton messages last ih =>
    rw [List.foldl_append, List.foldl_cons, List.foldl_nil, named_concat,
      show messages.foldl (fun before message => message.Topics before) (fun _ => False) = Named messages from
        funext fun topic => propext (ih topic)]

theorem Lifecycle.topics {w later : World} {workerName : String} {messages : List StatusMessage} {newest : StatusMessage}
    {details : WorkerDetails} (runs : Lifecycle w workerName messages later newest details) (topic : String) :
    (workerName, topic) ∈ later.workerTopics.rows ↔ Named messages topic := by
  have fold := congrFun (runs.processes.topics runs.own) topic
  have none : (fun topic => (workerName, topic) ∈ w.workerTopics.rows) = fun _ => False :=
    funext fun topic => propext (iff_of_false (runs.topicless topic) id)
  rw [none] at fold
  exact (iff_of_eq fold).trans (foldl_topics messages topic)

/-! ## The status -/

section Status

variable {messages : List StatusMessage} {newest first : StatusMessage} {details : WorkerDetails}

/-- A worker becomes known with the first lifecycle message. -/
theorem foldl_unknown (messages : List StatusMessage) :
    messages.foldl (fun row message => message.applyTo row) none =
      match sinceKnown messages with
      | [] => none
      | first :: rest => rest.foldl (fun row message => message.applyTo row) (first.applyTo none) := by
  unfold sinceKnown
  induction messages with
  | nil => rfl
  | cons message rest ih =>
    obtain ⟨workerName, status, timestamp⟩ := message
    cases status with
    | lifecycle details => rfl
    | job | heartbeat => exact ih

theorem sinceKnown_ne_nil (member : newest ∈ messages) (lifecycle : newest.lifecycle?.isSome) : sinceKnown messages ≠ [] := by
  intro unknown
  have silent := List.dropWhile_eq_nil_iff.mp unknown newest member
  simp [Option.isNone_iff_eq_none.mp silent] at lifecycle

/-- Every message that may come writes the status. -/
theorem status?_eq (message : StatusMessage) (kind : message.lifecycle?.isSome ∨ message.IsHeartbeat) :
    message.status? = some ((message.lifecycle?.map (·.workerStatus)).getD .online) := by
  obtain ⟨workerName, status, timestamp⟩ := message
  cases status with
  | lifecycle details => rfl
  | job => obtain kind | kind := kind <;> cases kind
  | heartbeat => rfl

theorem isOffline_iff (message : StatusMessage) :
    message.IsOffline ↔ (message.lifecycle?.map (·.workerStatus)).getD .online = .offline := by
  obtain ⟨workerName, status, timestamp⟩ := message
  cases status with
  | lifecycle details =>
    obtain ⟨topics, _ | _⟩ := details <;> simp [StatusMessage.IsOffline, StatusMessage.lifecycle?]
  | job | heartbeat => simp [StatusMessage.IsOffline, StatusMessage.lifecycle?]

/-- The first message of the latest microsecond is the last that the row of a worker takes. -/
theorem Lifecycle.status {w later : World} {workerName : String}
    (runs : Lifecycle w workerName messages later newest details) :
    ∃ latest, Latest StatusMessage.stamp (sinceKnown messages) latest ∧
      (later.workers.find? workerName).map (·.status) = latest.status? := by
  have row := runs.processes.worker runs.own
  rw [runs.unknown, foldl_unknown] at row
  have lifecycle : newest.lifecycle?.isSome := Option.isSome_iff_exists.mpr ⟨_, runs.lifecycle⟩
  have part : sinceKnown messages ⊆ messages := (List.dropWhile_sublist _).subset
  have head := List.head?_dropWhile_not (fun message : StatusMessage => message.lifecycle?.isNone) messages
  cases known : sinceKnown messages with
  | nil => exact absurd known (sinceKnown_ne_nil runs.member lifecycle)
  | cons first rest =>
    rw [known] at row part
    rw [show messages.dropWhile (fun message => message.lifecycle?.isNone) = first :: rest from known] at head
    obtain ⟨started, opens⟩ : ∃ started, first.lifecycle? = some started :=
      Option.isSome_iff_exists.mp (by simpa using head)
    have beginning : first.applyTo none = some ⟨first.workerName, started.workerStatus, first.stamp, none, none, none⟩ := by
      obtain ⟨workerName, status, timestamp⟩ := first
      cases status <;> cases opens
      rfl
    have touched : first :: heard StatusMessage.stamp first.stamp rest ≠ [] := List.cons_ne_nil _ _
    have last := List.getLast?_eq_some_getLast touched
    generalize (first :: heard StatusMessage.stamp first.stamp rest).getLast touched = latest at last
    refine ⟨latest, getLast?_cons_heard_iff.mp last, ?_⟩
    have member : latest ∈ first :: rest := by
      obtain rfl | behind := List.mem_cons.mp (List.mem_of_getLast? last)
      · exact List.mem_cons_self
      · exact List.mem_cons_of_mem _ ((heard_sublist ..).subset behind)
    have writing := status?_eq latest (runs.kinds latest (part member))
    simp only [beginning, foldl_applyTo] at row
    rw [row, Option.map_some, writing, Option.some.injEq]
    have opened : first.status? = some started.workerStatus := by
      rw [status?_eq first (.inl (Option.isSome_iff_exists.mpr ⟨_, opens⟩)), opens]
      rfl
    have taken := foldl_guarded WorkerRow.lastSeen StatusMessage.lastSeen_write
      ⟨first.workerName, started.workerStatus, first.stamp, none, none, none⟩ rest
    calc
      _ = lastWritten StatusMessage.status? started.workerStatus (heard StatusMessage.stamp first.stamp rest) :=
        (congrArg WorkerRow.status taken).trans (foldl_column StatusMessage.status_write _ _)
      _ = lastWritten StatusMessage.status? started.workerStatus
            (first :: heard StatusMessage.stamp first.stamp rest) := by rw [lastWritten_cons, opened, Option.getD_some]
      _ = _ := lastWritten_of_getLast? last writing

/-- A worker that has left stays offline exactly if an offline message decides. -/
theorem Lifecycle.offline_iff {w later : World} {workerName : String}
    (runs : Lifecycle w workerName messages later newest details) :
    (later.workers.find? workerName).map (·.status) = some .offline ↔
      ∃ latest, Latest StatusMessage.stamp (sinceKnown messages) latest ∧ latest.IsOffline := by
  obtain ⟨latest, decides, status⟩ := runs.status
  have offline (message : StatusMessage) (member : message ∈ messages) :
      message.status? = some .offline ↔ message.IsOffline := by
    rw [status?_eq message (runs.kinds message member), Option.some.injEq, isOffline_iff]
  have known (message : StatusMessage) (decides : Latest StatusMessage.stamp (sinceKnown messages) message) :
      message ∈ messages := by
    obtain ⟨before, after, split, -⟩ := decides
    refine (List.dropWhile_sublist _).subset (?_ : message ∈ sinceKnown messages)
    rw [split]
    exact List.mem_append_right _ List.mem_cons_self
  rw [status]
  constructor
  · intro leaves
    exact ⟨latest, decides, (offline latest (known latest decides)).mp leaves⟩
  · rintro ⟨other, decides', leaves⟩
    rw [decides.unique decides']
    exact (offline other (known other decides')).mpr leaves

end Status

/-- The worker agrees with the newest lifecycle message exactly when its messages have been processed in time. -/
theorem agrees_iff {w later : World} {workerName : String} {messages : List StatusMessage} {newest : StatusMessage}
    {details : WorkerDetails} (runs : Lifecycle w workerName messages later newest details) :
    Agrees workerName details later ↔ ProcessedInTime messages details := by
  obtain ⟨topics, _ | _⟩ := details
  · exact forall_congr' fun topic => iff_congr (runs.topics topic) Iff.rfl
  · exact and_congr (forall_congr' fun topic => not_congr (runs.topics topic)) runs.offline_iff

/-! ## A worker that leaves, and one that comes back -/

/-- A lifecycle message of a worker that the sample world does not know. -/
def sampleSignal (topics : List String) (status : WorkerStatus) (second : ℤ) : StatusMessage :=
  ⟨"w3", .lifecycle ⟨topics, status⟩, Duration.seconds second⟩

theorem topicless_sample (topic : String) : ("w3", topic) ∉ (sampleWorld .online).workerTopics.rows := by
  change ("w3", topic) ∉ [("w1", "eu")]
  simp

/-- The worker leaves, and its last heartbeat is of the same microsecond. -/
def leaving : StatusMessage := ⟨"w3", .lifecycle ⟨["eu"], .offline⟩, Duration.seconds 2 - 400⟩

def leavingBeat : StatusMessage := ⟨"w3", .heartbeat, Duration.seconds 2 - 200⟩

/-- The heartbeat is newer, but the database does not tell its time from that of the offline message. -/
theorem agrees_leaving : ∃ later, Lifecycle (sampleWorld .online) "w3"
      [sampleSignal ["eu"] .online 1, leaving, leavingBeat] later leaving ⟨["eu"], .offline⟩ ∧
    Agrees "w3" ⟨["eu"], .offline⟩ later := by
  obtain ⟨later, processes⟩ := exists_processesAll (sampleWorld .online)
    [sampleSignal ["eu"] .online 1, leaving, leavingBeat] (by decide +kernel)
  have runs : Lifecycle (sampleWorld .online) "w3" [sampleSignal ["eu"] .online 1, leaving, leavingBeat] later leaving
      ⟨["eu"], .offline⟩ :=
    ⟨rfl, topicless_sample, by decide, by decide, by decide, processes, by decide, rfl, by decide⟩
  refine ⟨later, runs, (agrees_iff runs).mpr ⟨fun topic => ?_, leaving, ?_, ["eu"], rfl⟩⟩
  · rw [← foldl_topics]
    simp [StatusMessage.Topics, sampleSignal, leaving, leavingBeat]
  · exact ⟨[sampleSignal ["eu"] .online 1], [leavingBeat], rfl, by decide, by decide⟩

/-- Without the offline message it keeps its old topic. -/
theorem not_topicsAgree : ¬ TopicsAgree := by
  intro agree
  obtain ⟨later, processes⟩ := exists_processesAll (sampleWorld .online)
    [sampleSignal ["eu"] .online 1, sampleSignal ["us"] .online 3] (by decide +kernel)
  have runs : Lifecycle (sampleWorld .online) "w3" [sampleSignal ["eu"] .online 1, sampleSignal ["us"] .online 3] later
      (sampleSignal ["us"] .online 3) ⟨["us"], .online⟩ :=
    ⟨rfl, topicless_sample, by decide, by decide, by decide, processes, by decide, rfl, by decide⟩
  have named := (agrees_iff runs).mp (agree runs) "eu"
  rw [← foldl_topics] at named
  simp [StatusMessage.Topics, sampleSignal] at named

end Bms
