import Bms.Model.System
import Bms.Protocol.Wire

/-! # Deliveries

A message reaches its consumer as it has been sent. The consumer reads it back, or rejects it: a message of
another queue, or one that the wire has lost. What has been processed is acknowledged, and an
acknowledgement that fails panics.
-/

namespace Bms

open Process Fallible

/-- What is sent is read as it was, or not at all. -/
theorem Message.ofJson?_sent (content : Message) :
    content.Sendable ∧ Message.ofJson? .hyphenated content.sent = some content ∨
      ¬ content.Sendable ∧ Message.ofJson? .hyphenated content.sent = none := by
  by_cases sendable : content.Sendable
  · exact .inl ⟨sendable, (Message.ofJson?_toJson .hyphenated content).mpr sendable⟩
  · refine .inr ⟨sendable, Option.eq_none_iff_forall_ne_some.mpr fun other read => sendable ?_⟩
    obtain rfl := Message.readsBack .hyphenated content other read
    exact (Message.ofJson?_toJson .hyphenated other).mp read

/-! ## What the consumers make of them -/

theorem StatusConsumer.run_sent (message : StatusMessage) :
    StatusConsumer.run (Message.workerStatus message).sent = StatusConsumer.processMessage message := by
  have read := (Message.ofJson?_toJson .hyphenated (.workerStatus message)).mpr trivial
  simp only [StatusConsumer.run, StatusConsumer.parseMessage, Message.sent, read]
  rfl

/-- A status message is always read. -/
theorem StatusConsumer.run_cases (content : Message) :
    (∃ message, content = .workerStatus message ∧
      StatusConsumer.run content.sent = StatusConsumer.processMessage message) ∨
      ∃ e, StatusConsumer.run content.sent = throw e := by
  obtain ⟨-, read⟩ | ⟨-, read⟩ := content.ofJson?_sent
  · cases content with
    | workerStatus message => exact .inl ⟨message, rfl, StatusConsumer.run_sent message⟩
    | workerJob | workerResult =>
      refine .inr ⟨.unexpectedMessage, ?_⟩
      simp only [StatusConsumer.run, StatusConsumer.parseMessage, read]
      rfl
  · refine .inr ⟨.unreadable, ?_⟩
    simp only [StatusConsumer.run, StatusConsumer.parseMessage, read]
    rfl

theorem DataConsumer.run_sent (jobId : Uuid) {result : ResultMessage} (sendable : result.Sendable) :
    DataConsumer.run (Message.workerResult jobId result).sent = DataConsumer.processMessage jobId result := by
  have read := (Message.ofJson?_toJson .hyphenated (.workerResult jobId result)).mpr sendable
  simp only [DataConsumer.run, DataConsumer.parseMessage, Message.sent, read]
  rfl

/-- A result that the wire has lost is rejected. -/
theorem DataConsumer.run_lost (jobId : Uuid) {result : ResultMessage} (lost : ¬ result.Sendable) :
    DataConsumer.run (Message.workerResult jobId result).sent = throw .unreadable := by
  obtain ⟨sendable, -⟩ | ⟨-, read⟩ := (Message.workerResult jobId result).ofJson?_sent
  · exact absurd sendable lost
  · simp only [DataConsumer.run, DataConsumer.parseMessage, read]
    rfl

theorem DataConsumer.run_cases (content : Message) :
    (∃ jobId result, content = .workerResult jobId result ∧
      DataConsumer.run content.sent = DataConsumer.processMessage jobId result) ∨
      ∃ e, DataConsumer.run content.sent = throw e := by
  obtain ⟨sendable, read⟩ | ⟨-, read⟩ := content.ofJson?_sent
  · cases content with
    | workerResult jobId result => exact .inl ⟨jobId, result, rfl, DataConsumer.run_sent jobId sendable⟩
    | workerJob | workerStatus =>
      refine .inr ⟨.unexpectedMessage, ?_⟩
      simp only [DataConsumer.run, DataConsumer.parseMessage, read]
      rfl
  · refine .inr ⟨.unreadable, ?_⟩
    simp only [DataConsumer.run, DataConsumer.parseMessage, read]
    rfl

variable {config : WorkerConfig}

theorem JobConsumer.run_sent {jobId : Uuid} {message : JobMessage} (sendable : message.Sendable) :
    JobConsumer.run config (Message.workerJob jobId message).sent = JobConsumer.handleMessage config jobId message := by
  have read := (Message.ofJson?_toJson .hyphenated (.workerJob jobId message)).mpr sendable
  simp only [JobConsumer.run, JobConsumer.parseMessage, Message.sent, read]
  rfl

/-- A worker that is not excluded measures and sends its result. -/
theorem JobConsumer.handleMessage_included {jobId : Uuid} {message : JobMessage}
    (included : config.workerName ∉ message.excludedWorkers) :
    JobConsumer.handleMessage config jobId message =
      JobConsumer.processMessage config jobId message >>= fun result =>
        attempt (.publishResult (.workerResult jobId result)) fun _ => .ok () := if_neg included

theorem JobConsumer.run_cases (config : WorkerConfig) (content : Message) :
    (∃ jobId message, content = .workerJob jobId message ∧ config.workerName ∉ message.excludedWorkers ∧
      JobConsumer.run config content.sent = JobConsumer.processMessage config jobId message >>= fun result =>
        attempt (.publishResult (.workerResult jobId result)) fun _ => .ok ()) ∨
      ∃ value, JobConsumer.run config content.sent = outcome value := by
  obtain ⟨sendable, read⟩ | ⟨-, read⟩ := content.ofJson?_sent
  · cases content with
    | workerJob jobId message =>
      rw [JobConsumer.run_sent sendable]
      by_cases excluded : config.workerName ∈ message.excludedWorkers
      · exact .inr ⟨.ok (), if_pos excluded⟩
      · exact .inl ⟨jobId, message, rfl, excluded, JobConsumer.handleMessage_included excluded⟩
    | workerResult | workerStatus =>
      refine .inr ⟨.error .unexpectedMessage, ?_⟩
      simp only [JobConsumer.run, JobConsumer.parseMessage, read]
      rfl
  · refine .inr ⟨.error .unreadable, ?_⟩
    simp only [JobConsumer.run, JobConsumer.parseMessage, read]
    rfl

/-! ## Acknowledgements -/

section Acknowledge

variable {φ ε : Type} {note : φ → Act → φ} {legal : φ → Op → Prop} {phase : φ} {post : Unit → φ → Prop} {C : Op → Prop}

theorem only_acknowledge (acks : C .basicAck) (panics : C .panic) : acknowledge.Only C := by
  refine ⟨acks, fun reply => ?_⟩
  cases reply with
  | ok => trivial
  | error e => exact ⟨panics, fun never => never.elim⟩

/-- A phase in which a delivery may be acknowledged, without being noted. -/
structure Acknowledges (note : φ → Act → φ) (legal : φ → Op → Prop) (phase : φ) : Prop where
  acks : legal phase .basicAck
  panics : legal phase .panic
  kept : ∀ reply, note phase ⟨.basicAck, reply⟩ = phase

theorem Acknowledges.obeys (acknowledges : Acknowledges note legal phase) (holds : post () phase) :
    acknowledge.Obeys note legal phase post := by
  refine ⟨acknowledges.acks, fun reply => ?_⟩
  rw [acknowledges.kept]
  cases reply with
  | ok => exact holds
  | error e => exact ⟨acknowledges.panics, fun never => never.elim⟩

/-- The phase that a consumer ends in, if the message is acknowledged there or rejected. -/
def Handled (note : φ → Act → φ) (legal : φ → Op → Prop) (post : Unit → φ → Prop) (reached : φ) : Prop :=
  Acknowledges note legal reached ∧ post () reached

theorem StatusConsumer.obeys_consume {content : Json}
    (obeys : (StatusConsumer.run content).Obeys note legal phase (fun _ => Handled note legal post)
      fun _ => Handled note legal post) : (StatusConsumer.consume content).Obeys note legal phase post :=
  Obeys.handle (obeys.mono (fun _ _ settled => settled.1.obeys settled.2) fun _ _ settled => settled.2)

theorem DataConsumer.obeys_consume {content : Json}
    (obeys : (DataConsumer.run content).Obeys note legal phase (fun _ => Handled note legal post)
      fun _ => Handled note legal post) : (DataConsumer.consume content).Obeys note legal phase post :=
  Obeys.handle (obeys.mono (fun _ _ settled => settled.1.obeys settled.2) fun _ _ settled => settled.2)

theorem JobConsumer.obeys_consume {content : Json}
    (obeys : (JobConsumer.run config content).Obeys note legal phase (fun _ => Handled note legal post)
      fun _ => Handled note legal post) : (JobConsumer.consume config content).Obeys note legal phase post :=
  Obeys.handle (obeys.mono (fun _ _ settled => settled.1.obeys settled.2) fun _ _ settled => settled.1.obeys settled.2)

theorem StatusConsumer.only_consume {content : Json} (only : (StatusConsumer.run content).Only C) (acks : C .basicAck)
    (panics : C .panic) : (StatusConsumer.consume content).Only C := by
  refine Prog.Only.bind only fun outcome => ?_
  cases outcome with
  | ok => exact only_acknowledge acks panics
  | error e => trivial

theorem DataConsumer.only_consume {content : Json} (only : (DataConsumer.run content).Only C) (acks : C .basicAck)
    (panics : C .panic) : (DataConsumer.consume content).Only C := by
  refine Prog.Only.bind only fun outcome => ?_
  cases outcome with
  | ok => exact only_acknowledge acks panics
  | error e => trivial

theorem JobConsumer.only_consume {content : Json} (only : (JobConsumer.run config content).Only C) (acks : C .basicAck)
    (panics : C .panic) : (JobConsumer.consume config content).Only C :=
  Prog.Only.bind only fun _ => only_acknowledge acks panics

end Acknowledge

end Bms
