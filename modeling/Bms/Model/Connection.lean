import Bms.Model.Messages
import Bms.Model.Subscriber
import Bms.Process.Pool

/-! # The connection manager

`rabbitmq/src/connection.rs` over the calls of tokio and of the AMQP client. When `start_connection_manager` has
spawned the task of `run`, it waits for the first connection, and nobody else has the manager yet; the two tasks
interleave. Opening a connection may fail, and an open one may be closed at any time. `notify_waiters` wakes the
futures that `notified` has created before and keeps nothing for later ones.
-/

namespace Bms

open Process

abbrev TlsAdaptor := ℕ

abbrev Notified := ℕ

/-- A parsed URL: its host, its scheme and its port. -/
structure ParsedUrl where
  hostStr : Option String
  scheme : String
  port : Option UInt16

structure OpenConnectionArguments where
  addr : String
  port : UInt16
  username : String
  password : String
  tlsAdaptor : Option TlsAdaptor
deriving DecidableEq

inductive ConnectionOp
  | var (key : String)
  | parseUrl (input : String)
  | loadRunning
  /-- lock the connection of the manager and read it -/
  | lockConnection
  | isOpen (connection : Connection)
  | withoutClientAuth (domain : String)
  | openConnection (args : OpenConnectionArguments)
  /-- lock the connection of the manager and write it -/
  | storeConnection (connection : Connection)
  | notifyWaiters
  | sleep (duration : Duration)
  | notified
  /-- wait for a future to be woken -/
  | wait (future : Notified)
  | panic (message : String)
deriving DecidableEq

abbrev ConnectionOp.Reply : ConnectionOp → Type
  | var _ => Option String
  | parseUrl _ => Option ParsedUrl
  | loadRunning | isOpen _ => Bool
  | lockConnection => Option Connection
  | withoutClientAuth _ => Option TlsAdaptor
  | openConnection _ => Except String Connection
  | storeConnection _ | notifyWaiters | sleep _ | wait _ => Unit
  | notified => Notified
  | panic _ => Empty

abbrev ConnectionCalls : PFunctor.{0, 0} := ⟨ConnectionOp, ConnectionOp.Reply⟩

abbrev ConnectionAct : Type := Call ConnectionCalls

/-- Await one call and return its reply. -/
abbrev ConnectionOp.await (op : ConnectionOp) : Prog ConnectionCalls op.Reply := .call op .ret

/-- The value, or the task panics. -/
def ConnectionOp.expect {α : Type} (message : String) : Option α → Prog ConnectionCalls α
  | some value => .ret value
  | none => .call (.panic message) Empty.elim

namespace ConnectionManager

open ConnectionOp

def waitForConnection : Prog ConnectionCalls Unit := do
  let future ← await .notified
  await (.wait future)

/-- Whether there is a stored connection and it is open. -/
def isSomeOpen : Option Connection → Prog ConnectionCalls Bool
  | some connection => await (.isOpen connection)
  | none => pure false

/-- The adaptor for a connection, if it is to be encrypted. -/
def tlsAdaptor (addr : String) : Bool → Prog ConnectionCalls (Option TlsAdaptor)
  | true => do
    let adaptor ← expect "Failed to create TLS adaptor" (← await (.withoutClientAuth addr))
    pure (some adaptor)
  | false => pure none

/-- Open a connection, store it and notify whoever waits for it. A failure is only logged. -/
def reconnect (args : OpenConnectionArguments) : Prog ConnectionCalls (Except String Unit) := do
  match ← await (.openConnection args) with
  | .ok connection =>
    await (.storeConnection connection)
    await .notifyWaiters
    pure (.ok ())
  | .error _ => pure (.ok ())

def connect (addr : String) (port : UInt16) (username password : String) (isSsl : Bool) :
    Prog ConnectionCalls (Except String Unit) := do
  let stored ← await .lockConnection
  if ← isSomeOpen stored then
    pure (.ok ())
  else
    let tlsAdaptor ← tlsAdaptor addr isSsl
    reconnect { addr, port, username, password, tlsAdaptor }

def isSsl : String → Prog ConnectionCalls Bool
  | "amqp" | "http" => pure false
  | "amqps" | "amqps+ssl" | "amqps+tls" | "https" => pure true
  | _ => .call (.panic "Invalid scheme for RABBITMQ_ENDPOINT") Empty.elim

/-- So many passes of the loop of `run`. An error of a pass is only logged. -/
def loop (connect : Prog ConnectionCalls (Except String Unit)) : ℕ → Prog ConnectionCalls Unit
  | 0 => pure ()
  | passes + 1 => do
    if ← await .loadRunning then
      let _ ← connect
      await (.sleep (Duration.seconds 5))
      loop connect passes
    else
      pure ()

/-- The loop of `run` has no bound: any part of it is a part of so many passes. -/
def run (passes : ℕ) : Prog ConnectionCalls Unit := do
  let endpoint ← expect "RABBITMQ_ENDPOINT must be set" (← await (.var "RABBITMQ_ENDPOINT"))
  let parsedUrl ← expect "Invalid URL format for RABBITMQ_ENDPOINT" (← await (.parseUrl endpoint))
  let addr ← expect "RABBITMQ_ENDPOINT must contain a host" parsedUrl.hostStr
  let isSsl ← isSsl parsedUrl.scheme
  let port := parsedUrl.port.getD 5672
  let username ← expect "RABBITMQ_USERNAME must be set" (← await (.var "RABBITMQ_USERNAME"))
  let password ← expect "RABBITMQ_PASSWORD must be set" (← await (.var "RABBITMQ_PASSWORD"))
  loop (connect addr port username password isSsl) passes

end ConnectionManager

/-- The manager, what has become of the connections that it has opened, and the futures that wait for one. -/
structure ConnectionWorld where
  connection : Option Connection
  running : Bool
  opened : List Connection
  /-- the connections that are open now -/
  alive : List Connection
  /-- the futures that `notified` has created -/
  futures : List Notified
  /-- the futures that `notify_waiters` has woken -/
  woken : List Notified

/-- A new manager. -/
def ConnectionWorld.new : ConnectionWorld := ⟨none, true, [], [], [], []⟩

namespace ConnectionAct

def Allowed (w : ConnectionWorld) : ConnectionAct → Prop
  | ⟨.loadRunning, running⟩ => running = w.running
  | ⟨.lockConnection, stored⟩ => stored = w.connection
  | ⟨.isOpen connection, answer⟩ => answer = decide (connection ∈ w.alive)
  | ⟨.openConnection _, .ok connection⟩ => connection ∉ w.opened
  | ⟨.notified, future⟩ => future ∉ w.futures
  | ⟨.wait future, _⟩ => future ∈ w.woken
  | _ => True

def after (w : ConnectionWorld) : ConnectionAct → ConnectionWorld
  | ⟨.openConnection _, .ok connection⟩ => { w with opened := connection :: w.opened, alive := connection :: w.alive }
  | ⟨.storeConnection connection, _⟩ => { w with connection := some connection }
  | ⟨.notifyWaiters, _⟩ => { w with woken := w.futures }
  | ⟨.notified, future⟩ => { w with futures := future :: w.futures }
  | _ => w

end ConnectionAct

/-- The tasks that have the manager during startup. -/
inductive StartupTask
  | run (passes : ℕ)
  | waitForConnection

def StartupTask.body : StartupTask → Prog ConnectionCalls Unit
  | run passes => ConnectionManager.run passes
  | waitForConnection => ConnectionManager.waitForConnection

abbrev Startup : Type := Pool ConnectionCalls ConnectionWorld StartupTask

abbrev StartupEvent : Type := Event ConnectionCalls StartupTask

/-- Connections are closed at any time, and no other task is started. -/
def startup : Platform ConnectionCalls ConnectionWorld StartupTask where
  allows := ConnectionAct.Allowed
  after := ConnectionAct.after
  body := StartupTask.body
  admits _ _ := False
  enter w _ := w
  drifts w other := ∃ alive, alive ⊆ w.alive ∧ other = { w with alive }

/-- `start_connection_manager` once it has spawned the task of `run`. -/
def startConnectionManager (passes : ℕ) : Startup :=
  ⟨.new, [.run passes, .waitForConnection].map fun kind => ⟨kind, [], startup.body kind⟩⟩

end Bms
