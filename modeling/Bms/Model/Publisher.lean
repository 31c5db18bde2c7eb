import Bms.Model.Messages
import Bms.Model.Subscriber
import Bms.Process.Pool

/-! # The publisher

`rabbitmq/src/publisher.rs` over the calls of its AMQP client. Publishers are shared: the task of `run`, any number
of calls of `publish` and `close_channel` interleave. The lock of the channel is kept until `ensure_channel` or
`close_channel` returns, so a message is published without it. Connections come and go at any time; a channel or its
connection may be closed at any time, and then no call succeeds on it. The message itself is passed on to the client,
since serialising it cannot fail.
-/

namespace Bms

open Process Fallible

structure PublisherConfig where
  exchangeConfig : ExchangeConfig
  routingKey : Option String

inductive PublisherType
  | jobPublisher
  | resultPublisher
  | statusPublisher

inductive ExchangeType
  | jobExchange
  | resultExchange
  | statusExchange

def getExchangeConfig : ExchangeType → ExchangeConfig
  | .jobExchange => { exchangeName := "job_exchange", exchangeType := "topic", durable := true }
  | .resultExchange => { exchangeName := "result_exchange", exchangeType := "direct", durable := true }
  | .statusExchange => { exchangeName := "status_exchange", exchangeType := "direct", durable := true }

def getPublisherConfig : PublisherType → PublisherConfig
  | .jobPublisher => { exchangeConfig := getExchangeConfig .jobExchange, routingKey := none }
  | .resultPublisher => { exchangeConfig := getExchangeConfig .resultExchange, routingKey := some "worker_result" }
  | .statusPublisher => { exchangeConfig := getExchangeConfig .statusExchange, routingKey := some "worker_status" }

structure BasicPublishArguments where
  exchange : String
  routingKey : String
deriving DecidableEq

inductive PublisherOp
  | loadRunning
  | storeRunning (running : Bool)
  /-- lock the channel of the publisher and read it -/
  | lockChannel
  /-- drop the guard of the lock -/
  | unlockChannel
  | isOpen (channel : Channel)
  | isConnectionOpen (channel : Channel)
  | getConnection
  | openChannel (connection : Connection)
  | exchangeDeclare (channel : Channel) (args : ExchangeDeclareArguments)
  /-- write the channel of the publisher, under the lock -/
  | storeChannel (channel : Channel)
  /-- take the channel of the publisher, under the lock -/
  | takeChannel
  | basicPublish (channel : Channel) (message : Message) (args : BasicPublishArguments)
  | close (channel : Channel)
  | sleep (duration : Duration)

abbrev PublisherOp.Reply : PublisherOp → Type
  | loadRunning | isOpen _ | isConnectionOpen _ => Bool
  | lockChannel | takeChannel => Option Channel
  | getConnection => Option Connection
  | openChannel _ => Except String Channel
  | exchangeDeclare .. | basicPublish .. | close _ => Except String Unit
  | storeRunning _ | unlockChannel | storeChannel _ | sleep _ => Unit

abbrev PublisherCalls : PFunctor.{0, 0} := ⟨PublisherOp, PublisherOp.Reply⟩

abbrev PublisherAct : Type := Call PublisherCalls

abbrev PublisherOp.await (op : PublisherOp) : Prog PublisherCalls op.Reply := .call op .ret

namespace Publisher

open PublisherOp

/-- The guard is dropped when the body has returned, whatever it has returned. -/
def withChannel {α : Type} (body : Option Channel → Prog PublisherCalls α) : Prog PublisherCalls α := do
  let stored ← await .lockChannel
  let result ← body stored
  await .unlockChannel
  pure result

def declareArguments (config : PublisherConfig) : ExchangeDeclareArguments where
  exchange := config.exchangeConfig.exchangeName
  exchangeType := config.exchangeConfig.exchangeType
  passive := false
  durable := config.exchangeConfig.durable
  autoDelete := false

/-- A new channel, on which the exchange is declared before it is stored. -/
def openChannel (config : PublisherConfig) : Fallible PublisherCalls String Channel := do
  let connection ← attempt .getConnection fun
    | some connection => .ok connection
    | none => .error "No connection"
  let channel ← attempt (.openChannel connection) id
  attempt (.exchangeDeclare channel (declareArguments config)) id
  attempt (.storeChannel channel) .ok
  pure channel

/-- Whether a channel and its connection are open; the connection is looked at only if the channel is. -/
def isUsable (channel : Channel) : Prog PublisherCalls Bool := do
  if ← await (.isOpen channel) then await (.isConnectionOpen channel) else pure false

def ensureChannel (config : PublisherConfig) : Fallible PublisherCalls String Channel :=
  ExceptT.mk <| withChannel fun
    | some channel => do
      if ← isUsable channel then pure (.ok channel) else (openChannel config).run
    | none => (openChannel config).run

/-- So many passes of the loop of `run`. An error of a pass is only logged. -/
def run (config : PublisherConfig) : ℕ → Prog PublisherCalls Unit
  | 0 => pure ()
  | passes + 1 => do
    if ← await .loadRunning then
      let _ ← (ensureChannel config).run
      await (.sleep (Duration.seconds 2))
      run config passes
    else
      pure ()

def publish (config : PublisherConfig) (message : Message) (routingKey : String) :
    Fallible PublisherCalls String Unit := do
  let channel ← ensureChannel config
  attempt (.basicPublish channel message ⟨config.exchangeConfig.exchangeName, routingKey⟩) id

/-- The outcome of closing is only logged. -/
def closeTaken : Option Channel → Prog PublisherCalls Unit
  | some channel => do
    let _ ← await (.close channel)
    pure ()
  | none => pure ()

def closeChannel : Prog PublisherCalls Unit :=
  withChannel fun _ => do
    await (.storeRunning false)
    closeTaken (← await .takeChannel)

end Publisher

/-- A publisher, the connection of its manager, and what has become of the channels that it has opened. -/
structure PublisherWorld where
  channel : Option Channel
  locked : Bool
  running : Bool
  /-- the connection that the manager has stored -/
  connection : Option Connection
  opened : List Channel
  /-- the channels that are open now -/
  alive : List Channel
  /-- the channels whose connections are open now -/
  connected : List Channel
  /-- what has been declared on which channel -/
  declared : List (Channel × ExchangeDeclareArguments)
  published : List (Channel × Message × BasicPublishArguments)
  /-- the channels that could not be closed -/
  unclosed : List Channel

/-- A new publisher. -/
def PublisherWorld.new : PublisherWorld := ⟨none, false, true, none, [], [], [], [], [], []⟩

/-- The channel and its connection are open. -/
def PublisherWorld.Live (w : PublisherWorld) (channel : Channel) : Prop := channel ∈ w.alive ∧ channel ∈ w.connected

namespace PublisherAct

def Allowed (w : PublisherWorld) : PublisherAct → Prop
  | ⟨.loadRunning, running⟩ => running = w.running
  | ⟨.lockChannel, stored⟩ => w.locked = false ∧ stored = w.channel
  | ⟨.takeChannel, stored⟩ => stored = w.channel
  | ⟨.isOpen channel, answer⟩ => answer = decide (channel ∈ w.alive)
  | ⟨.isConnectionOpen channel, answer⟩ => answer = decide (channel ∈ w.connected)
  | ⟨.getConnection, connection⟩ => connection = w.connection
  | ⟨.openChannel _, .ok channel⟩ => channel ∉ w.opened
  | ⟨.exchangeDeclare channel _, .ok _⟩ | ⟨.basicPublish channel _ _, .ok _⟩ => w.Live channel
  | _ => True

def after (w : PublisherWorld) : PublisherAct → PublisherWorld
  | ⟨.storeRunning running, _⟩ => { w with running }
  | ⟨.lockChannel, _⟩ => { w with locked := true }
  | ⟨.unlockChannel, _⟩ => { w with locked := false }
  | ⟨.openChannel _, .ok channel⟩ => { w with
      opened := channel :: w.opened
      alive := channel :: w.alive
      connected := channel :: w.connected }
  | ⟨.exchangeDeclare channel args, .ok _⟩ => { w with declared := (channel, args) :: w.declared }
  | ⟨.storeChannel channel, _⟩ => { w with channel := some channel }
  | ⟨.takeChannel, _⟩ => { w with channel := none }
  | ⟨.basicPublish channel message args, .ok _⟩ => { w with published := (channel, message, args) :: w.published }
  | ⟨.close channel, .ok _⟩ => { w with alive := w.alive.filter (· ≠ channel) }
  | ⟨.close channel, .error _⟩ => { w with unclosed := channel :: w.unclosed }
  | _ => w

end PublisherAct

/-- The methods of a publisher that are called. -/
inductive PublisherTask
  | run (passes : ℕ)
  | publish (message : Message) (routingKey : String)
  | closeChannel
deriving DecidableEq

def PublisherTask.body (config : PublisherConfig) : PublisherTask → Prog PublisherCalls Unit
  | run passes => Publisher.run config passes
  | publish message routingKey => do
    let _ ← (Publisher.publish config message routingKey).run
    pure ()
  | closeChannel => Publisher.closeChannel

/-- `run` is spawned once, by `start_publisher`; the other methods are called at any time. Connections come and go,
and channels and their connections are closed. -/
def publisher (config : PublisherConfig) : Platform PublisherCalls PublisherWorld PublisherTask where
  allows := PublisherAct.Allowed
  after := PublisherAct.after
  body := PublisherTask.body config
  admits _ kind := ∀ passes, kind ≠ .run passes
  enter w _ := w
  drifts w other := ∃ connection alive connected, alive ⊆ w.alive ∧ connected ⊆ w.connected ∧
    other = { w with connection, alive, connected }

abbrev Publishing : Type := Pool PublisherCalls PublisherWorld PublisherTask

abbrev PublishingEvent : Type := Event PublisherCalls PublisherTask

/-- `start_publisher`. The loop of `run` has no bound: any part of it is a part of so many passes. -/
def startPublisher (config : PublisherConfig) (passes : ℕ) : Publishing :=
  ⟨.new, [⟨.run passes, [], (publisher config).body (.run passes)⟩]⟩

end Bms
