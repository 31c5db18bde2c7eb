import Bms.Model.Statement
import Bms.Process.Fallible

/-! # The calls of the scheduler and of the workers

Every await point of the code is one call: a statement of a repository, a reading of the clock, a
publication, a call of a scaler's provider or of the network. `Call.Allowed` says which replies the
shared world may give and `Call.after` what the call does to it. Errors change nothing: a failed
statement is not applied, a failed publication sends nothing and a provider applies an update
exactly when it reports success. The network answers what it likes.
-/

namespace Bms

open Process

structure AwsService where
  desiredCount : ℤ
  runningCount : ℤ
  pendingCount : ℤ
deriving DecidableEq, Inhabited

/-- A parsed URL: its scheme, its host and its text. -/
structure Url where
  scheme : String
  hostStr : Option String
  asStr : String
deriving DecidableEq, Inhabited

/-- The outcome of waiting for the next chunk of a response body. -/
inductive ChunkReply
  | chunk (length : ℕ)
  | done
  | failed (error : String)
  | timedOut
deriving DecidableEq

/-- A response, with what waiting for each chunk of its body will give. -/
structure HttpResponse where
  isSuccess : Bool
  status : String
  body : List ChunkReply
deriving DecidableEq, Inhabited

/-- Scaler calls carry the row they are made for. -/
inductive Op
  | sql (stmt : Stmt)
  | now
  | newUuid
  | sleep (duration : Duration)
  | publishJob (message : Message) (routingKey : String)
  | publishResult (message : Message)
  | publishStatus (message : Message)
  /-- a delivered message is acknowledged -/
  | basicAck
  | describeServices (service : Service) (region cluster : String)
  | updateService (service : Service) (region cluster : String) (desiredCount : ℤ)
  | dockerPs (service : Service)
  | dockerComposeUp (service : Service) (count : ℕ)
  | parseUrl (url : String)
  /-- a HEAD request; the reply is the Content-Length header, if there is one, if it is text -/
  | headContentLength (url : String)
  | genRange (high : ℤ)
  /-- a HEAD request of a worker; the reply is its latency in seconds -/
  | headLatency (url : String)
  | getRange (url : String) (rangeStart rangeEnd : ℤ)
  | nextChunk
  | toSocketAddrs (host : String)
  | pingClient (ipAddress : String)
  | ping (seq : ℕ)
  /-- which of two joined tasks is polled next -/
  | poll
  | panic

namespace Op

abbrev Reply : Op → Type
  | sql stmt => Except SqlxError stmt.Row
  | now => DateTime
  | newUuid => Uuid
  | sleep _ => Unit
  | publishJob .. | publishResult _ | publishStatus _ | basicAck => Except String Unit
  | describeServices .. => Except String (Option AwsService)
  | updateService .. => Except String Bool
  | dockerPs _ => Except String ℕ
  | dockerComposeUp .. => Except String Unit
  | parseUrl _ => Except String Url
  | headContentLength _ => Except String (Option (Except String String))
  | genRange _ => ℤ
  | headLatency _ => Except String ℚ
  | getRange .. => Except String HttpResponse
  | nextChunk => Unit
  | toSocketAddrs _ => Except String (List String)
  | pingClient _ => Except String Unit
  | ping _ => Except String ℚ
  | poll => Bool
  | panic => Empty

end Op

/-- The signature of all calls. -/
abbrev Calls : PFunctor.{0, 0} := ⟨Op, Op.Reply⟩

abbrev Act : Type := Call Calls

/-- A task that panics makes no further call. -/
def panic {ε α : Type} : Fallible Calls ε α := ExceptT.mk (.call .panic Empty.elim)

def unwrap {ε α : Type} : Option α → Fallible Calls ε α
  | some value => pure value
  | none => panic

/-- A delivery is acknowledged, or its consumer panics. -/
def acknowledge : Prog Calls Unit := .call .basicAck fun
  | .ok () => .ret ()
  | .error _ => .call .panic Empty.elim

/-- A reading of the clock. -/
def utcNow {ε : Type} : Fallible Calls ε DateTime := Fallible.attempt .now .ok

/-- Execute one statement of a repository. -/
def execute (stmt : Stmt) : Prog Calls (Except SqlxError stmt.Row) := .call (.sql stmt) .ret

section Obeys

variable {φ ε α : Type} {note : φ → Act → φ} {legal : φ → Op → Prop} {phase : φ} {good : α → φ → Prop}
  {bad : ε → φ → Prop}

@[simp] theorem obeys_panic : (panic : Fallible Calls ε α).Obeys note legal phase good bad ↔ legal phase .panic :=
  and_iff_left fun reply : Empty => reply.elim

@[simp] theorem obeys_utcNow {good : DateTime → φ → Prop} :
    (utcNow : Fallible Calls ε DateTime).Obeys note legal phase good bad ↔
      legal phase .now ∧ ∀ reading, good reading (note phase ⟨.now, reading⟩) := Iff.rfl

@[simp] theorem obeys_execute (stmt : Stmt) (post : Except SqlxError stmt.Row → φ → Prop) :
    (execute stmt).Obeys note legal phase post ↔
      legal phase (.sql stmt) ∧ ∀ reply, post reply (note phase ⟨.sql stmt, reply⟩) := Iff.rfl

@[simp] theorem obeys_unwrap (value : Option α) :
    (unwrap value : Fallible Calls ε α).Obeys note legal phase good bad ↔ match value with
      | some value => good value phase
      | none => legal phase .panic := by
  cases value <;> simp [unwrap]

end Obeys

namespace Act

/-- The replies that the shared world may give. -/
def Allowed (w : World) : Act → Prop
  | ⟨.sql stmt, .ok row⟩ => stmt.answers w row
  | ⟨.sql stmt, .error .rowNotFound⟩ => stmt.missing w
  | ⟨.now, reading⟩ => reading = w.now
  | ⟨.newUuid, drawn⟩ => drawn ∉ w.uuids
  | ⟨.describeServices service region cluster, .ok (some info)⟩ =>
    info.desiredCount = w.desired (.fargate region cluster service.name) ∧ IsI32 info.desiredCount
  | ⟨.dockerPs service, .ok count⟩ => (count : ℤ) = w.desired (.docker service.name)
  | ⟨.genRange high, drawn⟩ => 0 ≤ drawn ∧ drawn < high
  | _ => True

def scaleTo (w : World) (target : Target) (count : ℤ) : World :=
  { w with desired := fun other => if other = target then count else w.desired other }

/-- What a call does to the shared world. -/
def after (w : World) : Act → World
  | ⟨.sql stmt, .ok row⟩ => stmt.run w row
  | ⟨.newUuid, drawn⟩ => { w with uuids := drawn :: w.uuids }
  | ⟨.publishJob message routingKey, .ok ()⟩ => { w with jobQueue := (message, routingKey) :: w.jobQueue }
  | ⟨.publishResult message, .ok ()⟩ => { w with resultQueue := message :: w.resultQueue }
  | ⟨.publishStatus message, .ok ()⟩ => { w with statusQueue := message :: w.statusQueue }
  | ⟨.updateService service region cluster desiredCount, .ok true⟩ =>
    scaleTo w (.fargate region cluster service.name) desiredCount
  | ⟨.dockerComposeUp service count, .ok ()⟩ => scaleTo w (.docker service.name) count
  | _ => w

/-- A statement that fails for another reason than a missing row. -/
def RepositoryFailure : Act → Prop
  | ⟨.sql _, .error (.other _)⟩ => True
  | _ => False

/-- Computes `Failed`. -/
def fails : Act → Bool
  | ⟨.sql _, .error _⟩ | ⟨.describeServices .., .error _⟩ | ⟨.describeServices .., .ok none⟩
  | ⟨.updateService .., .error _⟩ | ⟨.updateService .., .ok false⟩ | ⟨.dockerPs _, .error _⟩
  | ⟨.dockerComposeUp .., .error _⟩ | ⟨.publishJob .., .error _⟩ | ⟨.publishResult _, .error _⟩
  | ⟨.publishStatus _, .error _⟩ | ⟨.basicAck, .error _⟩ => true
  | _ => false

/-- A call whose reply is an error. -/
def Failed (made : Act) : Prop := made.fails = true

instance (made : Act) : Decidable (Failed made) := inferInstanceAs (Decidable (_ = true))

end Act

end Bms
