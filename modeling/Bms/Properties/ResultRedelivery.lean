import Bms.Model.Replay
import Bms.Protocol.Deliveries
import Mathlib.Data.List.Dedup

/-! # A result that is delivered again

Results are inserted under the id of their run, without a word on conflicts. A result whose row exists
is refused, so the consumer fails, the message is not acknowledged and it comes back for ever; so does a
message that cannot be read. The deliveries are absorbed exactly if all can be read and no run is
delivered twice.
-/

namespace Bms

open Process Fallible

/-- The world as it answers one consumer when nothing is broken: a statement fails only where the keys of
the tables refuse it. -/
def unbroken : Environment Calls World where
  allows w made := Act.Allowed w made ∧
    (Act.RepositoryFailure made → ∀ stmt, made.op = .sql stmt → ∀ row, ¬ stmt.answers w row)
  after := Act.after
  drifts w other := ∃ now, other = { w with now }

/-- What a message has been sent for: the id of a job, and a result. -/
abbrev Delivery : Type := Uuid × ResultMessage

/-- One delivery is read and processed to its end; it is acknowledged if the outcome is no error. -/
def Delivers (w : World) (delivery : Delivery) (outcome : Except ConsumerError Unit) (later : World) : Prop :=
  Alone unbroken w (DataConsumer.run (Message.workerResult delivery.1 delivery.2).sent).run later (.ret outcome)

/-- The deliveries are processed one after the other. -/
inductive DeliversAll : World → List Delivery → World → Prop
  | nil (w : World) : DeliversAll w [] w
  | cons {w middle later : World} {delivery : Delivery} {deliveries : List Delivery}
      {outcome : Except ConsumerError Unit} : Delivers w delivery outcome middle →
      DeliversAll middle deliveries later → DeliversAll w (delivery :: deliveries) later

/-- The runs of the deliveries. -/
def runIds (deliveries : List Delivery) : List Uuid := deliveries.map (·.2.runId)

/-- There is one row for each run, with the content of its first delivery. -/
structure OneRowEach (deliveries : List Delivery) (later : World) : Prop where
  ids : (later.workerData.rows.map (·.id)).Perm (runIds deliveries).dedup
  first : ∀ before delivery after, deliveries = before ++ delivery :: after → delivery.2.runId ∉ runIds before →
    ∃ now, later.workerData.find? delivery.2.runId = some (Stmt.savedRow { later with now } delivery.2)

/-- The deliveries leave one row for each run, and one whose row exists succeeds. -/
def Absorbs (w : World) (deliveries : List Delivery) : Prop :=
  (∀ later, DeliversAll w deliveries later → OneRowEach deliveries later) ∧
    ∀ before delivery after middle outcome later, deliveries = before ++ delivery :: after →
      DeliversAll w before middle → Delivers middle delivery outcome later →
      (middle.workerData.find? delivery.2.runId).isSome → outcome = .ok ()

/-- The job, the sub-job and the worker of a result have rows. -/
def World.Knows (w : World) (result : ResultMessage) : Prop :=
  (w.jobs.find? result.jobId).isSome ∧ (w.subJobs.find? result.subJobId).isSome ∧
    (w.workers.find? result.workerName).isSome

/-- The result can be read from its message, and it belongs somewhere. -/
structure World.Takes (w : World) (result : ResultMessage) : Prop where
  sendable : result.Sendable
  knows : w.Knows result

/-- Whatever is delivered of existing jobs is absorbed. -/
def ResultsAbsorbed : Prop :=
  ∀ (w : World) (deliveries : List Delivery), w.workerData.rows = [] → (∀ delivery ∈ deliveries, w.Knows delivery.2) →
    Absorbs w deliveries

/-- No run is delivered twice, and every result can be read and belongs to a job, a sub-job and a worker. -/
def DeliveredOnce (w : World) (deliveries : List Delivery) : Prop :=
  (runIds deliveries).Nodup ∧ ∀ delivery ∈ deliveries, w.Takes delivery.2

/-! ## One delivery -/

/-- A delivery is stored if its run is new and it can be read and belongs somewhere, and rejected otherwise. -/
theorem Delivers.inv {w later : World} {delivery : Delivery} {outcome : Except ConsumerError Unit}
    (delivers : Delivers w delivery outcome later) : ∃ now,
      (outcome = .ok () ∧ (w.workerData.find? delivery.2.runId = none ∧ w.Takes delivery.2) ∧
        later = Stmt.run { w with now } (.saveData delivery.2) ()) ∨
      ((∃ e, outcome = .error e) ∧
        ¬ (w.workerData.find? delivery.2.runId = none ∧ w.Takes delivery.2) ∧ later = { w with now }) := by
  unfold Delivers at delivers
  by_cases sendable : delivery.2.Sendable
  · rw [DataConsumer.run_sent _ sendable] at delivers
    cases delivers with
    | @call _ drifted _ op next reply rest drifts allowed run =>
      obtain ⟨now, rfl⟩ := drifts
      obtain ⟨allowed, broken⟩ := allowed
      refine ⟨now, ?_⟩
      rcases reply with (_ | message) | done
      · exact allowed.elim
      · cases run
        exact .inr ⟨⟨_, rfl⟩, fun stored => broken trivial _ rfl () ⟨stored.1, stored.2.knows⟩, rfl⟩
      · cases run
        exact .inl ⟨rfl, ⟨allowed.1, sendable, allowed.2⟩, rfl⟩
  · rw [DataConsumer.run_lost _ sendable] at delivers
    cases delivers
    exact ⟨w.now, .inr ⟨⟨_, rfl⟩, fun stored => sendable stored.2.sendable, rfl⟩⟩

/-- Every delivery has an outcome. -/
theorem exists_delivers (w : World) (delivery : Delivery) : ∃ outcome later, Delivers w delivery outcome later := by
  unfold Delivers
  by_cases sendable : delivery.2.Sendable
  · rw [DataConsumer.run_sent _ sendable]
    by_cases stored : w.workerData.find? delivery.2.runId = none ∧ w.Knows delivery.2
    · have allowed : unbroken.allows w ⟨.sql (.saveData delivery.2), .ok ()⟩ := ⟨stored, False.elim⟩
      exact ⟨_, _, .call ⟨w.now, rfl⟩ allowed (.here ..)⟩
    · have allowed : unbroken.allows w ⟨.sql (.saveData delivery.2), .error (.other "duplicate key")⟩ := by
        refine ⟨trivial, ?_⟩
        rintro - stmt same row
        cases same
        exact stored
      exact ⟨_, _, .call ⟨w.now, rfl⟩ allowed (.here ..)⟩
  · rw [DataConsumer.run_lost _ sendable]
    exact ⟨_, _, .here ..⟩

theorem exists_deliversAll (w : World) (deliveries : List Delivery) : ∃ later, DeliversAll w deliveries later := by
  induction deliveries generalizing w with
  | nil => exact ⟨w, .nil w⟩
  | cons delivery deliveries ih =>
    obtain ⟨outcome, middle, delivers⟩ := exists_delivers w delivery
    obtain ⟨later, rest⟩ := ih middle
    exact ⟨later, .cons delivers rest⟩

/-- What a delivery leaves of the world: its row is new, or there is nothing new. -/
structure Delivered (w : World) (delivery : Delivery) (later : World) : Prop where
  takes : ∀ result, later.Takes result ↔ w.Takes result
  rows : (w.workerData.find? delivery.2.runId = none ∧ w.Takes delivery.2 ∧
      ∃ now, later.workerData.rows = w.workerData.rows ++ [Stmt.savedRow { w with now } delivery.2]) ∨
    (¬ (w.workerData.find? delivery.2.runId = none ∧ w.Takes delivery.2) ∧ later.workerData = w.workerData)

theorem Delivers.delivered {w later : World} {delivery : Delivery} {outcome : Except ConsumerError Unit}
    (delivers : Delivers w delivery outcome later) : Delivered w delivery later := by
  have same (now : DateTime) (result : ResultMessage) : World.Takes { w with now } result ↔ w.Takes result :=
    ⟨fun takes => ⟨takes.sendable, takes.knows⟩, fun takes => ⟨takes.sendable, takes.knows⟩⟩
  obtain ⟨now, ⟨-, ⟨fresh, takes⟩, rfl⟩ | ⟨-, refused, rfl⟩⟩ := delivers.inv
  · refine ⟨fun result => ?_, .inl ⟨fresh, takes, now, Table.rows_insert_fresh fresh⟩⟩
    exact ⟨fun takes => ⟨takes.sendable, takes.knows⟩, fun takes => ⟨takes.sendable, takes.knows⟩⟩
  · exact ⟨same now, .inr ⟨refused, rfl⟩⟩

/-! ## All deliveries -/

variable {w later : World} {deliveries : List Delivery}

/-- Rows stay. -/
theorem Delivered.kept {delivery : Delivery} (delivered : Delivered w delivery later) {row : WorkerDataRow}
    (member : row ∈ w.workerData.rows) : row ∈ later.workerData.rows := by
  obtain ⟨-, -, now, rows⟩ | ⟨-, same⟩ := delivered.rows
  · rw [rows]
    exact List.mem_append_left _ member
  · rwa [same]

theorem DeliversAll.kept (all : DeliversAll w deliveries later) {row : WorkerDataRow}
    (member : row ∈ w.workerData.rows) : row ∈ later.workerData.rows := by
  induction all with
  | nil => exact member
  | cons delivers _ ih => exact ih (delivers.delivered.kept member)

/-- A result that belongs somewhere has a row after its delivery. -/
theorem DeliversAll.stored (all : DeliversAll w deliveries later) {delivery : Delivery} (member : delivery ∈ deliveries)
    (takes : w.Takes delivery.2) : ∃ row ∈ later.workerData.rows, row.id = delivery.2.runId := by
  induction all with
  | nil => cases member
  | @cons w middle later first deliveries outcome delivers all ih =>
    rcases List.mem_cons.mp member with rfl | member
    · obtain ⟨-, -, now, rows⟩ | ⟨refused, same⟩ := delivers.delivered.rows
      · refine ⟨Stmt.savedRow { w with now } delivery.2, all.kept ?_, rfl⟩
        rw [rows]
        exact List.mem_append_right _ (List.mem_singleton_self _)
      · cases found : w.workerData.find? delivery.2.runId with
        | none => exact absurd ⟨found, takes⟩ refused
        | some row =>
          obtain ⟨present, own⟩ := Table.find?_eq_some_iff.mp found
          exact ⟨row, all.kept (same ▸ present), own⟩
    · exact ih member ((delivers.delivered.takes _).mpr takes)

/-- Every row has been there before or is that of a delivery. -/
theorem DeliversAll.origin (all : DeliversAll w deliveries later) {row : WorkerDataRow}
    (member : row ∈ later.workerData.rows) : row ∈ w.workerData.rows ∨
      ∃ delivery ∈ deliveries, w.Takes delivery.2 ∧ ∃ now, row = Stmt.savedRow { w with now } delivery.2 := by
  induction all with
  | nil => exact .inl member
  | @cons w middle later first deliveries outcome delivers all ih =>
    obtain earlier | ⟨delivery, inside, takes, now, rfl⟩ := ih member
    · obtain ⟨-, takes, now, rows⟩ | ⟨-, same⟩ := delivers.delivered.rows
      · rw [rows] at earlier
        rcases List.mem_append.mp earlier with old | new
        · exact .inl old
        · exact .inr ⟨first, List.mem_cons_self, takes, now, List.mem_singleton.mp new⟩
      · exact .inl (same ▸ earlier)
    · exact .inr ⟨delivery, List.mem_cons_of_mem _ inside, (delivers.delivered.takes _).mp takes, now, rfl⟩

/-- Where every run is new, every delivery adds its row. -/
theorem DeliversAll.adds (all : DeliversAll w deliveries later) (once : DeliveredOnce w deliveries)
    (fresh : ∀ delivery ∈ deliveries, w.workerData.find? delivery.2.runId = none) :
    ∃ rows, later.workerData.rows = w.workerData.rows ++ rows ∧
      List.Forall₂ (fun delivery row => ∃ now, row = Stmt.savedRow { w with now } delivery.2) deliveries rows := by
  induction all with
  | nil => exact ⟨[], (List.append_nil _).symm, .nil⟩
  | @cons w middle later first deliveries outcome delivers all ih =>
    obtain ⟨apart, taken⟩ := once
    obtain ⟨new, apart⟩ := List.nodup_cons.mp apart
    obtain ⟨firstNew, othersNew⟩ := List.forall_mem_cons.mp fresh
    obtain ⟨firstTaken, othersTaken⟩ := List.forall_mem_cons.mp taken
    obtain ⟨-, -, now, rows⟩ | ⟨refused, -⟩ := delivers.delivered.rows
    · have newInMiddle (delivery : Delivery) (member : delivery ∈ deliveries) :
          middle.workerData.find? delivery.2.runId = none := by
        rw [Table.find?_eq_none_iff, rows, List.map_append, List.mem_append, not_or]
        refine ⟨Table.find?_eq_none_iff.mp (othersNew delivery member), fun same => new ?_⟩
        have inside : delivery.2.runId ∈ runIds deliveries := List.mem_map_of_mem member
        rwa [show delivery.2.runId = first.2.runId from List.mem_singleton.mp same] at inside
      have takenInMiddle (delivery : Delivery) (member : delivery ∈ deliveries) : middle.Takes delivery.2 :=
        (delivers.delivered.takes _).mpr (othersTaken delivery member)
      obtain ⟨rest, added, each⟩ := ih ⟨apart, takenInMiddle⟩ newInMiddle
      refine ⟨Stmt.savedRow { w with now } first.2 :: rest, ?_, .cons ⟨now, rfl⟩ each⟩
      rw [added, rows, List.append_assoc]
      rfl
    · exact absurd ⟨firstNew, firstTaken⟩ refused

/-- Deliveries whose runs are new when they come have different runs. -/
theorem nodup_runIds (apart : ∀ before delivery after, deliveries = before ++ delivery :: after →
    delivery.2.runId ∉ runIds before) : (runIds deliveries).Nodup := by
  induction deliveries using List.reverseRecOn with
  | nil => exact List.nodup_nil
  | append_singleton earlier last ih =>
    have nodup : (runIds earlier).Nodup := ih fun before delivery after split =>
      apart before delivery (after ++ [last]) (by rw [split, List.append_assoc]; rfl)
    rw [runIds, List.map_append, List.nodup_append]
    refine ⟨nodup, List.nodup_singleton _, fun id member other single same => ?_⟩
    have own : id = last.2.runId := same.trans (List.mem_singleton.mp single)
    exact apart earlier last [] rfl (own ▸ member)

/-- What has the same row as a result that can be read can be read itself. -/
theorem sendable_of_row {result other : ResultMessage} {s t : World} (sendable : result.Sendable)
    (same : Stmt.savedRow s other = Stmt.savedRow t result) : other.Sendable := by
  obtain ⟨runId, jobId, subJobId, workerName, isSuccess, download, ping, head⟩ := result
  obtain ⟨runId', jobId', subJobId', workerName', isSuccess', download', ping', head'⟩ := other
  constructor
  · rintro value rfl
    have json := congrArg WorkerDataRow.download same
    cases download with
    | error e => simp [Stmt.savedRow, DownloadResult.toJson, DownloadError.toJson] at json
    | ok mine =>
      have read := (DownloadResult.ofJson?_toJson mine).mpr (sendable.download mine rfl)
      obtain rfl := DownloadResult.readsBack value mine ((congrArg DownloadResult.ofJson? json).trans read)
      exact sendable.download mine rfl
  · rintro value rfl
    have json := congrArg WorkerDataRow.ping same
    cases ping with
    | error e => simp [Stmt.savedRow, PingResult.toJson, PingError.toJson] at json
    | ok mine =>
      have read := (PingResult.ofJson?_toJson mine).mpr (sendable.ping mine rfl)
      obtain rfl := PingResult.readsBack value mine ((congrArg PingResult.ofJson? json).trans read)
      exact sendable.ping mine rfl
  · rintro value rfl
    have json := congrArg WorkerDataRow.head same
    cases head with
    | error e => simp [Stmt.savedRow, HeadResult.toJson, HeadError.toJson] at json
    | ok mine =>
      have read := (HeadResult.ofJson?_toJson mine).mpr (sendable.head mine rfl)
      obtain rfl := HeadResult.readsBack value mine ((congrArg HeadResult.ofJson? json).trans read)
      exact sendable.head mine rfl

/-- Results with equal rows belong to the same job, sub-job and worker. -/
theorem World.Takes.of_row {result other : ResultMessage} {s t : World} (takes : w.Takes result)
    (same : Stmt.savedRow s other = Stmt.savedRow t result) : w.Takes other := by
  refine ⟨sendable_of_row takes.sendable same, ?_⟩
  have job : other.jobId = result.jobId := congrArg WorkerDataRow.jobId same
  have subJob : other.subJobId = result.subJobId := congrArg WorkerDataRow.subJobId same
  have worker : other.workerName = result.workerName := congrArg WorkerDataRow.workerName same
  rw [World.Knows, job, subJob, worker]
  exact takes.knows

/-- Where the deliveries are absorbed, the first of each run can be read and belongs somewhere. -/
theorem Absorbs.takes (absorbs : Absorbs w deliveries) (empty : w.workerData.rows = []) {before after : List Delivery}
    {delivery : Delivery} (split : deliveries = before ++ delivery :: after)
    (first : delivery.2.runId ∉ runIds before) : w.Takes delivery.2 := by
  obtain ⟨later, all⟩ := exists_deliversAll w deliveries
  obtain ⟨now, found⟩ := (absorbs.1 later all).first before delivery after split first
  obtain old | ⟨other, -, takes, now', same⟩ := all.origin (Table.mem_of_find? found)
  · rw [empty] at old
    cases old
  · exact takes.of_row same

/-- Where the deliveries are absorbed, no run is delivered twice. -/
theorem Absorbs.apart (absorbs : Absorbs w deliveries) (empty : w.workerData.rows = []) {before after : List Delivery}
    {delivery : Delivery} (split : deliveries = before ++ delivery :: after) : delivery.2.runId ∉ runIds before := by
  intro again
  obtain ⟨ids, others, cut, first⟩ := List.eq_append_cons_of_mem again
  obtain ⟨before', rest, rfl, rfl, tail⟩ := List.map_eq_append_iff.mp cut
  obtain ⟨original, after', rfl, same, rfl⟩ := List.map_eq_cons_iff.mp tail
  have takes := absorbs.takes empty (split.trans (List.append_assoc ..)) (same ▸ first)
  obtain ⟨middle, all⟩ := exists_deliversAll w (before' ++ original :: after')
  obtain ⟨outcome, later, delivers⟩ := exists_delivers middle delivery
  obtain ⟨row, present, own⟩ := all.stored (List.mem_append_right _ List.mem_cons_self) takes
  have stored : middle.workerData.find? delivery.2.runId = some row :=
    Table.find?_eq_some_iff.mpr ⟨present, own.trans same⟩
  have done := absorbs.2 _ _ _ _ _ _ split all delivers (by rw [stored]; rfl)
  obtain ⟨now, ⟨-, ⟨fresh, -⟩, -⟩ | ⟨⟨e, failed⟩, -⟩⟩ := delivers.inv
  · rw [stored] at fresh
    cases fresh
  · cases failed.symm.trans done

/-- Rows that have been added one for each delivery. -/
theorem oneRowEach_of_each {rows : List WorkerDataRow}
    (each : List.Forall₂ (fun delivery row => ∃ now, row = Stmt.savedRow { w with now } delivery.2) deliveries rows) :
    rows.map (·.id) = runIds deliveries ∧
      ∀ delivery ∈ deliveries, ∃ now, Stmt.savedRow { w with now } delivery.2 ∈ rows := by
  induction each with
  | nil => exact ⟨rfl, fun _ member => absurd member List.not_mem_nil⟩
  | @cons delivery row deliveries rows own _ ih =>
    obtain ⟨now, rfl⟩ := own
    constructor
    · exact congrArg (delivery.2.runId :: ·) ih.1
    · intro other member
      rcases List.mem_cons.mp member with rfl | member
      · exact ⟨now, List.mem_cons_self⟩
      · obtain ⟨now', inside⟩ := ih.2 other member
        exact ⟨now', List.mem_cons_of_mem _ inside⟩

/-- In an empty table the rows are those of the deliveries. -/
theorem DeliversAll.rows_of_empty (all : DeliversAll w deliveries later) (empty : w.workerData.rows = [])
    (once : DeliveredOnce w deliveries) :
    List.Forall₂ (fun delivery row => ∃ now, row = Stmt.savedRow { w with now } delivery.2) deliveries
      later.workerData.rows := by
  have fresh (delivery : Delivery) : w.workerData.find? delivery.2.runId = none := by
    rw [Table.find?_eq_none_iff, empty]
    exact List.not_mem_nil
  obtain ⟨rows, added, each⟩ := all.adds once fun delivery _ => fresh delivery
  rw [added, empty]
  exact each

/-- Deliveries of different runs leave one row each. -/
theorem DeliversAll.oneRowEach (all : DeliversAll w deliveries later) (empty : w.workerData.rows = [])
    (once : DeliveredOnce w deliveries) : OneRowEach deliveries later := by
  obtain ⟨ids, saved⟩ := oneRowEach_of_each (all.rows_of_empty empty once)
  constructor
  · rw [ids, once.1.dedup]
  · rintro before delivery after rfl -
    obtain ⟨now, inside⟩ := saved delivery (List.mem_append_right _ List.mem_cons_self)
    exact ⟨now, Table.find?_eq_some_iff.mpr ⟨inside, rfl⟩⟩

/-- The deliveries are absorbed exactly if all can be read and no run is delivered twice. -/
theorem absorbs_iff (empty : w.workerData.rows = []) : Absorbs w deliveries ↔ DeliveredOnce w deliveries := by
  constructor
  · intro absorbs
    refine ⟨nodup_runIds fun before delivery after split => absorbs.apart empty split, fun delivery member => ?_⟩
    obtain ⟨before, after, split⟩ := List.append_of_mem member
    exact absorbs.takes empty split (absorbs.apart empty split)
  · intro once
    refine ⟨fun later all => all.oneRowEach empty once, ?_⟩
    rintro before delivery after middle outcome later rfl all - stored
    obtain ⟨row, found⟩ := Option.isSome_iff_exists.mp stored
    obtain ⟨present, own⟩ := Table.find?_eq_some_iff.mp found
    obtain old | ⟨other, earlier, -, now, rfl⟩ := all.origin present
    · rw [empty] at old
      cases old
    · have again : delivery.2.runId ∈ runIds before :=
        (own : other.2.runId = delivery.2.runId) ▸ List.mem_map_of_mem earlier
      have apart := once.1
      rw [runIds, List.map_append, List.nodup_append] at apart
      exact absurd rfl (apart.2.2 _ again _ List.mem_cons_self)

/-- Job 1 with its measuring sub-job 3, and the worker. -/
def measuredWorld : World := { sampleWorld .online with
  jobs := Table.empty.insert ⟨1, "http://host/file", "eu", .pending, .obj [], 0⟩
  subJobs := Table.empty.insert ⟨⟨3, 1, .processing, .combinedDHP, .obj [], none⟩, 0⟩ }

/-- What the worker answers in a run of sub-job 3. -/
def answerOf (runId : Uuid) : Delivery := ⟨1, .aborted runId 1 3 "w1" "Start time is in the past"⟩

theorem takes_answerOf (runId : Uuid) : measuredWorld.Takes (answerOf runId).2 := by
  refine ⟨?_, rfl, rfl, rfl⟩
  constructor <;> intro value failed <;> cases failed

/-- Two runs, one delivery each. -/
theorem absorbs_two : Absorbs measuredWorld [answerOf 6, answerOf 7] ∧
    DeliveredOnce measuredWorld [answerOf 6, answerOf 7] := by
  have once : DeliveredOnce measuredWorld [answerOf 6, answerOf 7] := by
    refine ⟨by decide, fun delivery member => ?_⟩
    rcases List.mem_pair.mp member with rfl | rfl
    · exact takes_answerOf 6
    · exact takes_answerOf 7
  exact ⟨(absorbs_iff rfl).mpr once, once⟩

/-- A result that is delivered twice. -/
theorem not_resultsAbsorbed : ¬ ResultsAbsorbed := by
  intro absorbed
  have absorbs := absorbed measuredWorld [answerOf 6, answerOf 6] rfl fun delivery member => by
    rcases List.mem_pair.mp member with rfl | rfl <;> exact (takes_answerOf 6).knows
  have apart : (answerOf 6).2.runId ∉ runIds [answerOf 6] := absorbs.apart rfl rfl
  exact apart List.mem_cons_self

end Bms
