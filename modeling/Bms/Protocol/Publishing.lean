import Bms.Model.Publisher
import Bms.Process.Lock

/-! # The tasks of a publisher

A monitor for the methods of a publisher: under the lock a task finds the stored channel usable, or opens a new one,
declares the exchange on it and stores it. Only then it may publish, once, without the lock. Closing takes the stored
channel away first.
-/

namespace Bms

open Process Fallible

inductive PublishingPhase
  /-- without the lock -/
  | idle
  /-- under the lock, with a stored channel -/
  | stored (channel : Channel)
  /-- under the lock; the stored channel was open -/
  | opened (channel : Channel)
  /-- under the lock; there is no stored channel, or it is not usable -/
  | lacking
  /-- under the lock; a new channel is open -/
  | fresh (channel : Channel)
  /-- under the lock; the exchange is declared on a new channel -/
  | declared (channel : Channel)
  /-- under the lock, which is all that is left to give back -/
  | settled (result : Option Channel)
  /-- without the lock, with a channel to publish on -/
  | ready (channel : Channel)
  /-- the message has been published -/
  | published
  /-- without the lock; the channel is to be closed -/
  | closing
  /-- under the lock; the channel is to be taken -/
  | shutting
  /-- under the lock; the channel has been taken -/
  | taken (channel : Channel)

namespace PublishingPhase

def start : PublisherTask → PublishingPhase
  | .closeChannel => closing
  | _ => idle

def note : PublishingPhase → PublisherAct → PublishingPhase
  | closing, ⟨.lockChannel, _⟩ => shutting
  | _, ⟨.lockChannel, some channel⟩ => stored channel
  | _, ⟨.lockChannel, none⟩ => lacking
  | stored channel, ⟨.isOpen _, true⟩ => opened channel
  | stored _, ⟨.isOpen _, false⟩ => lacking
  | opened channel, ⟨.isConnectionOpen _, true⟩ => settled (some channel)
  | opened _, ⟨.isConnectionOpen _, false⟩ => lacking
  | lacking, ⟨.getConnection, none⟩ => settled none
  | lacking, ⟨.openChannel _, .ok channel⟩ => fresh channel
  | lacking, ⟨.openChannel _, .error _⟩ => settled none
  | fresh channel, ⟨.exchangeDeclare .., .ok _⟩ => declared channel
  | fresh _, ⟨.exchangeDeclare .., .error _⟩ => settled none
  | declared channel, ⟨.storeChannel _, _⟩ => settled (some channel)
  | settled (some channel), ⟨.unlockChannel, _⟩ => ready channel
  | settled none, ⟨.unlockChannel, _⟩ => idle
  | ready _, ⟨.basicPublish .., .ok _⟩ => published
  | ready _, ⟨.basicPublish .., .error _⟩ => idle
  | shutting, ⟨.takeChannel, some channel⟩ => taken channel
  | shutting, ⟨.takeChannel, none⟩ => settled none
  | taken _, ⟨.close _, _⟩ => settled none
  | phase, _ => phase

/-- The task holds the lock. -/
def Locks : PublishingPhase → Prop
  | idle | ready _ | published | closing => False
  | _ => True

/-- The phases between two calls of `ensure_channel`. -/
def Free : PublishingPhase → Prop
  | idle | ready _ => True
  | _ => False

/-- The channel that a task has for itself: a declared one that is not stored yet, or one that is to be closed. -/
def own? : PublishingPhase → Option Channel
  | declared channel | taken channel => some channel
  | _ => none

theorem Free.not_locks {phase : PublishingPhase} (free : phase.Free) : ¬ phase.Locks := by
  cases phase <;> first | exact id | exact free.elim

end PublishingPhase

open PublishingPhase

variable {config : PublisherConfig}

/-- The calls that a method may make in a phase. -/
inductive PublishingLegal (config : PublisherConfig) : PublisherTask → PublishingPhase → PublisherOp → Prop
  | load {passes : ℕ} {phase : PublishingPhase} (free : phase.Free) :
      PublishingLegal config (.run passes) phase .loadRunning
  | sleep {passes : ℕ} {phase : PublishingPhase} {duration : Duration}
      (free : phase.Free) :
      PublishingLegal config (.run passes) phase (.sleep duration)
  | again {passes : ℕ} {channel : Channel} : PublishingLegal config (.run passes) (.ready channel) .lockChannel
  | lock {kind : PublisherTask} : PublishingLegal config kind .idle .lockChannel
  | isOpen {kind : PublisherTask} {channel : Channel} : PublishingLegal config kind (.stored channel) (.isOpen channel)
  | isConnectionOpen {kind : PublisherTask} {channel : Channel} :
      PublishingLegal config kind (.opened channel) (.isConnectionOpen channel)
  | getConnection {kind : PublisherTask} : PublishingLegal config kind .lacking .getConnection
  | openChannel {kind : PublisherTask} {connection : Connection} :
      PublishingLegal config kind .lacking (.openChannel connection)
  | declare {kind : PublisherTask} {channel : Channel} :
      PublishingLegal config kind (.fresh channel) (.exchangeDeclare channel (Publisher.declareArguments config))
  | store {kind : PublisherTask} {channel : Channel} : PublishingLegal config kind (.declared channel) (.storeChannel channel)
  | unlock {kind : PublisherTask} {result : Option Channel} : PublishingLegal config kind (.settled result) .unlockChannel
  | publish {message : Message} {routingKey : String} {channel : Channel} :
      PublishingLegal config (.publish message routingKey) (.ready channel)
        (.basicPublish channel message ⟨config.exchangeConfig.exchangeName, routingKey⟩)
  | lockToClose : PublishingLegal config .closeChannel .closing .lockChannel
  | stop : PublishingLegal config .closeChannel .shutting (.storeRunning false)
  | take : PublishingLegal config .closeChannel .shutting .takeChannel
  | close {channel : Channel} : PublishingLegal config .closeChannel (.taken channel) (.close channel)

def publishingMonitor (config : PublisherConfig) : Monitor PublisherCalls PublisherTask PublishingPhase where
  start := PublishingPhase.start
  note := PublishingPhase.note
  legal := PublishingLegal config
  ended _ phase := ¬ phase.Locks

/-! ## The methods follow the monitor -/

section Follows

variable {kind : PublisherTask}

theorem openChannel_follows : (Publisher.openChannel config).run.Obeys note (PublishingLegal config kind) .lacking
    fun result phase => phase = .settled result.toOption := by
  refine ⟨.getConnection, fun connection => ?_⟩
  cases connection with
  | none => rfl
  | some connection =>
    refine ⟨.openChannel, fun channel => ?_⟩
    cases channel with
    | error e => rfl
    | ok channel =>
      refine ⟨.declare, fun reply => ?_⟩
      cases reply with
      | error e => rfl
      | ok _ => exact ⟨.store, fun _ => rfl⟩

/-- A stored channel is used, or another one is opened. -/
theorem stored_follows (channel : Channel) :
    (Publisher.isUsable channel >>= fun usable => if usable then pure (.ok channel)
      else (Publisher.openChannel config).run).Obeys note (PublishingLegal config kind) (.stored channel)
    fun result phase => phase = .settled result.toOption := by
  refine ⟨.isOpen, fun isOpen => ?_⟩
  cases isOpen with
  | false => exact openChannel_follows
  | true =>
    refine ⟨.isConnectionOpen, fun isConnectionOpen => ?_⟩
    cases isConnectionOpen with
    | false => exact openChannel_follows
    | true => rfl

/-- The phase without the lock to which `ensure_channel` leads. -/
def PublishingPhase.unlocked : Except String Channel → PublishingPhase
  | .ok channel => .ready channel
  | .error _ => .idle

theorem ensureChannel_follows {phase : PublishingPhase} (legal : PublishingLegal config kind phase .lockChannel)
    (opens : phase ≠ .closing) : (Publisher.ensureChannel config).run.Obeys note (PublishingLegal config kind) phase
      fun result reached => reached = .unlocked result := by
  have unlocks {body : Prog PublisherCalls (Except String Channel)} {middle : PublishingPhase}
      (follows : body.Obeys note (PublishingLegal config kind) middle fun result reached =>
        reached = .settled result.toOption) :
      (body >>= fun result => Prog.call PublisherOp.unlockChannel fun _ => .ret result).Obeys note
        (PublishingLegal config kind) middle fun result reached => reached = .unlocked result := by
    refine (Prog.obeys_bind ..).mpr (follows.mono ?_)
    rintro result _ rfl
    refine ⟨.unlock, fun _ => ?_⟩
    cases result <;> rfl
  refine ⟨legal, fun stored => ?_⟩
  cases stored with
  | none =>
    have noted : note phase ⟨.lockChannel, none⟩ = .lacking := by cases phase <;> first | rfl | exact absurd rfl opens
    rw [noted]
    exact unlocks openChannel_follows
  | some channel =>
    have noted : note phase ⟨.lockChannel, some channel⟩ = .stored channel := by
      cases phase <;> first | rfl | exact absurd rfl opens
    rw [noted]
    exact unlocks (stored_follows channel)

/-- The loop of `run` begins and ends without the lock. -/
theorem run_follows {passes : ℕ} (rest : ℕ) {phase : PublishingPhase}
    (free : phase.Free) :
    (Publisher.run config rest).Obeys note (PublishingLegal config (.run passes)) phase fun _ reached =>
      ¬ reached.Locks := by
  induction rest generalizing phase with
  | zero => exact free.not_locks
  | succ rest ih =>
    refine ⟨.load free, fun running => ?_⟩
    have noted : note phase ⟨.loadRunning, running⟩ = phase := by
      cases phase <;> rfl
    rw [noted]
    cases running with
    | false => exact free.not_locks
    | true =>
      have legal : PublishingLegal config (.run passes) phase .lockChannel := by
        cases phase with
        | idle => exact .lock
        | ready => exact .again
        | _ => exact free.elim
      have opens : phase ≠ .closing := by
        rintro rfl
        exact free
      suffices goes : ((Publisher.ensureChannel config).run >>= fun _ => (PublisherOp.sleep (Duration.seconds 2)).await >>=
          fun _ => Publisher.run config rest).Obeys note (PublishingLegal config (.run passes)) phase fun _ reached =>
            ¬ reached.Locks from goes
      refine (Prog.obeys_bind ..).mpr ((ensureChannel_follows legal opens).mono ?_)
      rintro result _ rfl
      have later : (unlocked result).Free := by
        cases result <;> trivial
      refine ⟨.sleep later, fun _ => ?_⟩
      have slept : note (unlocked result) ⟨.sleep (Duration.seconds 2), ()⟩ = unlocked result := by cases result <;> rfl
      rw [slept]
      exact ih later

/-- A message is published at most once, and `publish` returns without an error exactly if it has been. -/
theorem publish_follows (message : Message) (routingKey : String) :
    (Publisher.publish config message routingKey).run.Obeys note
      (PublishingLegal config (.publish message routingKey)) .idle fun result reached =>
        reached = match result with
          | .ok _ => .published
          | .error _ => .idle := by
  refine (Prog.obeys_bind ..).mpr ((ensureChannel_follows .lock nofun).mono ?_)
  rintro result _ rfl
  cases result with
  | error e => rfl
  | ok channel =>
    refine ⟨.publish, fun reply => ?_⟩
    cases reply <;> rfl

theorem closeChannel_follows : Publisher.closeChannel.Obeys note (PublishingLegal config .closeChannel) .closing
    fun _ reached => ¬ reached.Locks := by
  refine ⟨.lockToClose, fun _ => ⟨.stop, fun _ => ⟨.take, fun taken => ?_⟩⟩⟩
  cases taken with
  | none => exact ⟨.unlock, fun _ => id⟩
  | some channel => exact ⟨.close, fun _ => ⟨.unlock, fun _ => id⟩⟩

theorem publishingMonitor_covers (config : PublisherConfig) : (publishingMonitor config).Covers (publisher config) := by
  intro kind
  cases kind with
  | run passes => exact run_follows passes trivial
  | closeChannel => exact closeChannel_follows
  | publish message routingKey =>
    refine (Prog.obeys_bind ..).mpr ((publish_follows message routingKey).mono ?_)
    rintro result _ rfl
    cases result <;> exact id

end Follows

end Bms
