import Bms.Process.Alone

/-! # The subscriber

`rabbitmq/src/subscriber.rs` over the calls of its AMQP client. A method keeps the lock of the channel until it
returns, so the methods of a subscriber run one after another. Any call of the client may fail, whether the
channel stays open or not, and a channel may be closed at any time; on a closed one no call succeeds.
-/

namespace Bms

open Process Fallible

/-- The handles that the client gives out. -/
abbrev Connection := ℕ

abbrev Channel := ℕ

structure ExchangeConfig where
  exchangeName : String
  exchangeType : String
  durable : Bool

structure SubscriberConfig where
  exchangeConfig : ExchangeConfig
  queueName : Option String
  routingKeys : Option (List String)
  durable : Bool

structure ExchangeDeclareArguments where
  exchange : String
  exchangeType : String
  passive : Bool
  durable : Bool
  autoDelete : Bool

inductive QueueDeclareArguments
  | durableClientNamed (queue : String)
  | transientAutodelete (queue : String)

structure QueueBindArguments where
  queue : String
  exchange : String
  routingKey : String

structure BasicConsumeArguments where
  queue : String
  consumerTag : String

inductive AmqpOp
  | getConnection
  /-- lock the channel of the subscriber and read it -/
  | lockChannel
  | isOpen (channel : Channel)
  | openChannel (connection : Connection)
  | exchangeDeclare (channel : Channel) (args : ExchangeDeclareArguments)
  | queueDeclare (channel : Channel) (args : QueueDeclareArguments)
  | queueBind (channel : Channel) (args : QueueBindArguments)
  /-- write the channel of the subscriber -/
  | storeChannel (channel : Channel)
  | basicConsume (channel : Channel) (args : BasicConsumeArguments)
  /-- lock the channel of the subscriber and take it -/
  | takeChannel
  | close (channel : Channel)
  | panic

abbrev AmqpOp.Reply : AmqpOp → Type
  | getConnection => Option Connection
  | lockChannel | takeChannel => Option Channel
  | isOpen _ => Bool
  | openChannel _ => Except String Channel
  | exchangeDeclare .. | queueDeclare .. | queueBind .. | basicConsume .. | close _ => Except String Unit
  | storeChannel _ => Unit
  | panic => Empty

abbrev AmqpCalls : PFunctor.{0, 0} := ⟨AmqpOp, AmqpOp.Reply⟩

abbrev AmqpAct : Type := Call AmqpCalls

/-- The value, or the task panics. -/
def AmqpOp.expect {α : Type} : Option α → Fallible AmqpCalls String α
  | some value => pure value
  | none => ExceptT.mk (.call .panic Empty.elim)

namespace Subscriber

def bindQueue (channel : Channel) (queueName exchangeName : String) : List String → Fallible AmqpCalls String Unit
  | [] => pure ()
  | routingKey :: routingKeys => do
    attempt (.queueBind channel ⟨queueName, exchangeName, routingKey⟩) id
    bindQueue channel queueName exchangeName routingKeys

/-- Declare the exchange and the queue, and bind them by every key. -/
def declareQueue (config : SubscriberConfig) (channel : Channel) : Fallible AmqpCalls String String := do
  attempt (.exchangeDeclare channel {
    exchange := config.exchangeConfig.exchangeName
    exchangeType := config.exchangeConfig.exchangeType
    passive := false
    durable := config.exchangeConfig.durable
    autoDelete := !config.exchangeConfig.durable }) id
  let queueName ← AmqpOp.expect config.queueName
  let routingKeys ← AmqpOp.expect config.routingKeys
  let queueArgs : QueueDeclareArguments :=
    if config.durable then .durableClientNamed queueName else .transientAutodelete queueName
  attempt (.queueDeclare channel queueArgs) id
  bindQueue channel queueName config.exchangeConfig.exchangeName routingKeys
  pure queueName

/-- Consume on a new channel, which is stored first. -/
def openConsumer (config : SubscriberConfig) (connection : Connection) : Fallible AmqpCalls String Unit := do
  let channel ← attempt (.openChannel connection) id
  let queueName ← declareQueue config channel
  attempt (.storeChannel channel) .ok
  attempt (.basicConsume channel ⟨queueName, ""⟩) id

/-- Whether there is a stored channel and it is open. -/
def isSomeOpen : Option Channel → Fallible AmqpCalls String Bool
  | some channel => attempt (.isOpen channel) .ok
  | none => pure false

def setup (config : SubscriberConfig) : Fallible AmqpCalls String Unit := do
  let connection ← attempt .getConnection fun
    | some connection => .ok connection
    | none => .error "no connection"
  let stored ← attempt .lockChannel .ok
  if ← isSomeOpen stored then pure () else openConsumer config connection

/-- The outcome of closing is only logged. -/
def closeChannel : Prog AmqpCalls Unit :=
  .call .takeChannel fun
    | some channel => .call (.close channel) fun _ => .ret ()
    | none => .ret ()

end Subscriber

/-- The channel of a subscriber, and what has become of the channels that it has opened. -/
structure AmqpWorld where
  channel : Option Channel
  opened : List Channel
  /-- the channels that are open now -/
  alive : List Channel
  /-- the channels on which `basic_consume` has registered a consumer -/
  consumers : List Channel
  /-- the channels on which `basic_consume` has failed -/
  refused : List Channel

/-- A new subscriber. -/
def AmqpWorld.new : AmqpWorld := ⟨none, [], [], [], []⟩

namespace AmqpAct

/-- The replies of the client, which finds a stored channel open only where `finds` holds. -/
def Allowed (finds : AmqpWorld → Channel → Prop) (w : AmqpWorld) : AmqpAct → Prop
  | ⟨.lockChannel, stored⟩ | ⟨.takeChannel, stored⟩ => stored = w.channel
  | ⟨.isOpen channel, answer⟩ => answer = decide (channel ∈ w.alive) ∧ (answer = true → finds w channel)
  | ⟨.openChannel _, .ok channel⟩ => channel ∉ w.opened
  | ⟨.exchangeDeclare channel _, .ok _⟩ | ⟨.queueDeclare channel _, .ok _⟩ | ⟨.queueBind channel _, .ok _⟩
  | ⟨.basicConsume channel _, .ok _⟩ => channel ∈ w.alive
  | _ => True

def after (w : AmqpWorld) : AmqpAct → AmqpWorld
  | ⟨.openChannel _, .ok channel⟩ => { w with opened := channel :: w.opened, alive := channel :: w.alive }
  | ⟨.storeChannel channel, _⟩ => { w with channel := some channel }
  | ⟨.basicConsume channel _, .ok _⟩ => { w with consumers := channel :: w.consumers }
  | ⟨.basicConsume channel _, .error _⟩ => { w with refused := channel :: w.refused }
  | ⟨.takeChannel, _⟩ => { w with channel := none }
  | ⟨.close channel, .ok _⟩ => { w with alive := w.alive.filter (· ≠ channel) }
  | _ => w

end AmqpAct

/-- Channels are closed at any time. -/
def amqp (finds : AmqpWorld → Channel → Prop) : Environment AmqpCalls AmqpWorld where
  allows := AmqpAct.Allowed finds
  after := AmqpAct.after
  drifts w other := ∃ alive, alive ⊆ w.alive ∧ other = { w with alive }

/-- The methods of a new subscriber are called one after another; `run` calls `setup` again whatever it has
returned. The results of `setup` are kept, with the states in which they are returned. -/
inductive Setups (E : Environment AmqpCalls AmqpWorld) (config : SubscriberConfig) :
    List (Except String Unit × AmqpWorld) → AmqpWorld → Prop
  | new : Setups E config [] .new
  | setup {outcomes : List (Except String Unit × AmqpWorld)} {before after : AmqpWorld} {result : Except String Unit}
      (setups : Setups E config outcomes before)
      (returned : Alone E before (Subscriber.setup config).run after (.ret result)) :
      Setups E config (outcomes ++ [(result, after)]) after
  | closeChannel {outcomes : List (Except String Unit × AmqpWorld)} {before after : AmqpWorld}
      (setups : Setups E config outcomes before) (returned : Alone E before Subscriber.closeChannel after (.ret ())) :
      Setups E config outcomes after
  | drift {outcomes : List (Except String Unit × AmqpWorld)} {before after : AmqpWorld}
      (setups : Setups E config outcomes before) (drifts : E.drifts before after) : Setups E config outcomes after

end Bms
