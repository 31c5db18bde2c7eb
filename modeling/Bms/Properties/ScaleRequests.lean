import Bms.Model.Replay
import Bms.Process.Serial
import Bms.Protocol.Scaling

/-! # Scale requests

Any number of calls of `scale_up` and `scale_down` for one service, with their reads and updates in
any order. A call reads the desired count and then requests a count that it has computed from what
it has read, so an update that another call makes in between is lost. As long as every update finds
the count as its call has read it, the calls that succeed have the effect that they have one after
another in the order of their updates.
-/

namespace Bms

open Process Fallible

/-! ## Calls of one service's scaler -/

/-- A call that a tick, the descaler or a request makes. -/
inductive ScaleCall
  | up (amount : ℤ)
  | down (amount : ℤ)
deriving DecidableEq

namespace ScaleCall

def program (scaler : ServiceScaler) (service : Service) : ScaleCall → Fallible Calls ServiceScalerError Unit
  | up amount => scaler.scaleUp service amount
  | down amount => scaler.scaleDown service amount

/-- The count that the call is for, once it has read the count. -/
def aim : ServiceScaler → ScaleCall → ℤ → ℤ
  | .docker, up amount, count => wrapU64 (count.toNat + if 0 ≤ amount then amount.toNat else 0)
  | .docker, down amount, count => (count.toNat - if 0 ≤ amount then amount.toNat else 2 ^ 64 - 1 : ℕ)
  | .fargate, up amount, count => wrapI32 (count + amount)
  | .fargate, down amount, count => max (saturatingSubI32 count amount) 0

end ScaleCall

/-- What a scaler addresses for a service, if it can address it. -/
def ServiceScaler.targetOf : ServiceScaler → Service → Option Target
  | docker, service => some (.docker service.name)
  | fargate, service =>
    match FargateScaler.regionAndCluster service with
    | .error _ => none
    | .ok (region, cluster) => some (.fargate region cluster service.name)

/-- The desired count of a service, as its provider has it. -/
def desiredCount (scaler : ServiceScaler) (service : Service) (w : World) : Option ℤ :=
  (scaler.targetOf service).map w.desired

/-- The calls for one service. Between them anything may happen to the world but for this count. -/
def scaleCalls (scaler : ServiceScaler) (service : Service) : Platform Calls World ScaleCall where
  allows := Act.Allowed
  after := Act.after
  body call := ignore (call.program scaler service)
  admits _ _ := True
  enter w _ := w
  drifts w other := desiredCount scaler service other = desiredCount scaler service w

/-- The calls that have succeeded have the effect that they have one after another in some order. -/
def RequestsKept (scaler : ServiceScaler) (service : Service) (w : World) (pool : Pool Calls World ScaleCall) : Prop :=
  Linearises alone (ScaleCall.program scaler service) (desiredCount scaler service) w pool

/-- An update that a provider carries out finds the count as its call has read it. -/
def UpToDate (pool : Pool Calls World ScaleCall) (event : Event Calls ScaleCall) : Prop :=
  ∀ (position : ℕ) (made : Act) (task : Task Calls ScaleCall) (service : Service) (target : Target) (newCount : ℤ),
    event = .call position made → pool.tasks[position]? = some task → made.scaled? = some (service, target, newCount) →
    ∀ read ∈ task.log, ∀ (found : Service) (count : ℤ), Act.counted? read = some (found, target, count) →
      pool.world.desired target = count

/-! ## What a call does -/

/-- Where a call of a scaler stands. -/
inductive RequestPhase
  | fresh
  /-- a count has been read, and another one is to be requested -/
  | asking (count : ℤ)
  | succeeded
  | failed

namespace RequestPhase

def note (aim : ℤ → ℤ) : RequestPhase → Act → RequestPhase
  | fresh, made =>
    match made.counted? with
    | none => failed
    | some (_, _, count) => if aim count = count then succeeded else asking count
  | asking _, made => if made.scaled?.isSome then succeeded else failed
  | phase, _ => phase

variable {aim : ℤ → ℤ} {made : Act} {service : Service} {target : Target} {count : ℤ}

theorem note_kept (counted : made.counted? = some (service, target, count)) (same : aim count = count) :
    fresh.note aim made = succeeded := by
  simp only [note, counted, if_pos same]

theorem note_asking (counted : made.counted? = some (service, target, count)) (other : aim count ≠ count) :
    fresh.note aim made = asking count := by
  simp only [note, counted, if_neg other]

theorem note_uncounted (uncounted : made.counted? = none) : fresh.note aim made = failed := by
  simp only [note, uncounted]

end RequestPhase

/-- A call reads the count of its target and may then request the count that it is for. -/
inductive RequestLegal (service : Service) (target : Target) (aim : ℤ → ℤ) : RequestPhase → Op → Prop
  | count {op : Op} (counts : op.count? = some (service, target)) : RequestLegal service target aim .fresh op
  | request {count : ℤ} {op : Op} (asks : op.scale? = some (service, target, aim count)) :
      RequestLegal service target aim (.asking count) op

variable {scaler : ServiceScaler} {service : Service} {target : Target}

/-- The request at the end of a call that has read another count than it is for. -/
theorem request_obeys {ε : Type} {op : Op} {decode : op.Reply → Except ε Unit} {aim : ℤ → ℤ} {made : Act}
    {found : Service}
    {count : ℤ} (counted : made.counted? = some (found, target, count)) (other : aim count ≠ count)
    (asks : op.scale? = some (service, target, aim count))
    (accepts : ∀ reply, (decode reply).isOk = (Act.scaled? ⟨op, reply⟩).isSome) :
    (attempt op decode).Obeys (RequestPhase.note aim) (RequestLegal service target aim)
      (RequestPhase.fresh.note aim made)
      (fun _ phase => phase = .succeeded) fun _ phase => phase ≠ .succeeded := by
  rw [RequestPhase.note_asking counted other]
  refine (obeys_attempt ..).mpr ⟨.request asks, fun reply => ?_⟩
  have accepted := accepts reply
  cases decoded : decode reply with
  | ok done =>
    rw [decoded] at accepted
    exact if_pos accepted.symm
  | error e =>
    rw [decoded] at accepted
    have refused : ¬ (Act.scaled? ⟨op, reply⟩).isSome = true := fun accepts => nomatch accepted.trans accepts
    simp only [RequestPhase.note, if_neg refused, ne_eq, reduceCtorEq, not_false_eq_true]

/-- A scaler that can address its service reads the count and requests what the call is for. -/
theorem ScaleCall.obeys (addressed : scaler.targetOf service = some target) (call : ScaleCall) :
    (call.program scaler service).Obeys (RequestPhase.note (call.aim scaler))
      (RequestLegal service target (call.aim scaler)) .fresh (fun _ phase => phase = .succeeded)
      fun _ phase => phase ≠ .succeeded := by
  cases scaler with
  | docker =>
    obtain rfl : Target.docker service.name = target := Option.some.inj addressed
    cases call <;>
    · refine (obeys_bind ..).mpr ((obeys_attempt ..).mpr ⟨.count rfl, fun reply => ?_⟩)
      cases reply with
      | error e => exact RequestPhase.noConfusion
      | ok currentCount =>
        refine .ite (fun same => ?_) fun other => ?_
        · exact RequestPhase.note_kept rfl (congrArg Int.ofNat same.symm)
        · apply request_obeys rfl (fun same => other (Int.ofNat.inj same).symm) rfl
          intro reply
          cases reply <;> rfl
  | fargate =>
    cases located : FargateScaler.regionAndCluster service with
    | error e => simp only [ServiceScaler.targetOf, located, reduceCtorEq] at addressed
    | ok place =>
      obtain ⟨region, cluster⟩ := place
      simp only [ServiceScaler.targetOf, located, Option.some.injEq] at addressed
      subst addressed
      cases call <;>
      · simp only [ScaleCall.program, ServiceScaler.scaleUp, ServiceScaler.scaleDown, FargateScaler.scaleUp,
          FargateScaler.scaleDown, FargateScaler.getServiceInfo, FargateScaler.updateService, located, obeys_bind,
          obeys_outcome, obeys_attempt]
        refine ⟨.count rfl, fun reply => ?_⟩
        rcases reply with e | (_ | info)
        · exact RequestPhase.noConfusion
        · exact RequestPhase.noConfusion
        · refine .ite (fun same => ?_) fun other => (obeys_bind ..).mpr ?_
          · exact RequestPhase.note_kept rfl same.symm
          · apply request_obeys rfl (fun same => other same.symm) rfl
            intro reply
            rcases reply with _ | (_ | _) <;> rfl

/-- A scaler that cannot address its service makes no call. -/
theorem ScaleCall.unaddressed (lost : scaler.targetOf service = none) (call : ScaleCall) :
    ∃ e, (call.program scaler service).run = .ret (.error e) := by
  cases scaler with
  | docker => cases lost
  | fargate =>
    cases located : FargateScaler.regionAndCluster service with
    | ok place => simp only [ServiceScaler.targetOf, located, reduceCtorEq] at lost
    | error e =>
      refine ⟨e, ?_⟩
      cases call <;>
      · simp only [ScaleCall.program, ServiceScaler.scaleUp, ServiceScaler.scaleDown, FargateScaler.scaleUp,
          FargateScaler.scaleDown, FargateScaler.getServiceInfo, located]
        rfl

/-! ## A call that runs alone -/

/-- What a call has made of the count. -/
def RequestPhase.Relates (target : Target) (aim : ℤ → ℤ) (start : ℤ) (phase : RequestPhase) (w : World) : Prop :=
  match phase with
  | fresh => w.desired target = start
  | asking count => w.desired target = start ∧ count = start
  | succeeded => w.desired target = aim start
  | failed => True

theorem Act.after_count {w : World} {made : Act} (counts : made.op.count? = some (service, target)) :
    made.after w = w := by
  obtain ⟨op, reply⟩ := made
  cases op <;> first | rfl | cases counts

/-- The count that is read is the one that the provider has. -/
theorem Act.Allowed.counted {w : World} {made : Act} {count : ℤ} (allowed : Act.Allowed w made)
    (counted : made.counted? = some (service, target, count)) : count = w.desired target := by
  unfold counted? at counted
  split at counted
  · cases counted
    exact allowed.1
  · cases counted
    exact allowed
  · cases counted

/-- So it may be read wherever the provider has it. -/
theorem Act.Allowed.counted_elsewhere {w other : World} {made : Act} {count : ℤ} (allowed : Act.Allowed w made)
    (counted : made.counted? = some (service, target, count)) (same : other.desired target = count) :
    Act.Allowed other made := by
  unfold counted? at counted
  split at counted
  · cases counted
    exact ⟨same.symm, allowed.2⟩
  · cases counted
    exact same.symm
  · cases counted

theorem Act.after_scaled {w : World} {made : Act} {newCount : ℤ}
    (scaled : made.scaled? = some (service, target, newCount)) : (made.after w).desired target = newCount := by
  unfold scaled? at scaled
  split at scaled
  · cases scaled
    exact if_pos rfl
  · cases scaled
    exact if_pos rfl
  · cases scaled

/-- A provider may take over any count. -/
theorem Act.allowed_scaled {w : World} {made : Act} {asked : Service × Target × ℤ}
    (scaled : made.scaled? = some asked) :
    Act.Allowed w made := by
  unfold scaled? at scaled
  split at scaled
  · trivial
  · trivial
  · cases scaled

/-- A request that is refused changes nothing. -/
theorem Act.after_unscaled {w : World} {made : Act} {asked : Service × Target × ℤ} (asks : made.op.scale? = some asked)
    (refused : made.scaled? = none) : made.after w = w := by
  obtain ⟨op, reply⟩ := made
  cases op with
  | updateService _ _ _ _ => rcases reply with _ | (_ | _) <;> first | rfl | cases refused
  | dockerComposeUp _ _ => cases reply <;> first | rfl | cases refused
  | _ => cases asks

theorem Act.count_of_counted {made : Act} {count : ℤ} (counted : made.counted? = some (service, target, count)) :
    made.op.count? = some (service, target) := by
  unfold counted? at counted
  split at counted <;> cases counted <;> rfl

theorem RequestPhase.Relates.note {aim : ℤ → ℤ} {start : ℤ} {phase : RequestPhase} {w : World} {op : Op}
    (reply : op.Reply) (legal : RequestLegal service target aim phase op) (relates : phase.Relates target aim start w)
    (allowed : Act.Allowed w ⟨op, reply⟩) :
    (phase.note aim ⟨op, reply⟩).Relates target aim start (Act.after w ⟨op, reply⟩) := by
  cases legal with
  | count counts =>
    have same : w.desired target = start := relates
    rw [Act.after_count counts]
    cases counted : Act.counted? ⟨op, reply⟩ with
    | none => simp only [note_uncounted counted, Relates]
    | some found =>
      obtain ⟨found, target', count⟩ := found
      have addressed := Act.count_of_counted counted
      rw [counts] at addressed
      cases addressed
      have read : count = start := (allowed.counted counted).trans same
      by_cases kept : aim count = count
      · rw [note_kept counted kept]
        exact same.trans (read ▸ kept.symm)
      · rw [note_asking counted kept]
        exact ⟨same, read⟩
  | @request count _ asks =>
    obtain ⟨-, rfl⟩ := relates
    cases scaled : Act.scaled? ⟨op, reply⟩ with
    | none => simp only [RequestPhase.note, scaled, Option.isSome_none, Bool.false_eq_true, if_false, Relates]
    | some asked =>
      have same := Act.scale_of_scaled scaled
      rw [asks] at same
      cases same
      simp only [RequestPhase.note, scaled, Option.isSome_some, if_true]
      exact Act.after_scaled scaled

theorem desiredCount_eq_some (addressed : scaler.targetOf service = some target) {w : World} {count : ℤ} :
    desiredCount scaler service w = some count ↔ w.desired target = count := by
  rw [desiredCount, addressed, Option.map_some, Option.some.injEq]

/-- A call that succeeds alone leaves the count that it is for. -/
theorem ScaleCall.leaves (addressed : scaler.targetOf service = some target) (call : ScaleCall) {w later : World}
    (run : Alone alone w (call.program scaler service).run later (.ret (.ok ()))) :
    later.desired target = call.aim scaler (w.desired target) := by
  have ensures := Prog.Obeys.ensures (E := alone)
    (R := RequestPhase.Relates target (call.aim scaler) (w.desired target))
    (fun reply legal relates drifts allowed => ?_) (call.obeys addressed) (s := w) rfl
  · obtain ⟨phase, relates, rfl⟩ := ensures.alone run
    exact relates
  · obtain ⟨now, rfl⟩ := drifts
    exact RequestPhase.Relates.note reply legal (by cases ‹RequestPhase› <;> exact relates) allowed

/-- A call acts on the count if its log fits every world with the same count. -/
theorem ScaleCall.acts (addressed : scaler.targetOf service = some target) (call : ScaleCall) {log : List Act}
    (start : ℤ)
    (run : (call.program scaler service).run.Reaches log (.ret (.ok ())))
    (fits : ∀ w : World, w.desired target = start → ∃ later, Fits alone w log later) :
    Acts alone (desiredCount scaler service) (call.program scaler service) (some start)
      (some (call.aim scaler start)) := by
  intro w same
  rw [desiredCount_eq_some addressed] at same
  constructor
  · obtain ⟨later, fits⟩ := fits w same
    exact ⟨later, fits.alone run⟩
  · intro later alone
    rw [desiredCount_eq_some addressed, call.leaves addressed alone, same]

/-! ## Calls that run together -/

/-- A call has made no call yet, or has read a count that it is not for. -/
theorem RequestPhase.fold_cases (aim : ℤ → ℤ) (log : List Act) : match log.foldl (RequestPhase.note aim) .fresh with
    | fresh => log = []
    | asking count => ∃ read found target, log = [read] ∧ Act.counted? read = some (found, target, count)
    | _ => True := by
  induction log using List.reverseRecOn with
  | nil => rfl
  | append_singleton log made ih =>
    rw [List.foldl_concat]
    cases phase : log.foldl (RequestPhase.note aim) .fresh with
    | fresh =>
      rw [phase] at ih
      obtain rfl : log = [] := ih
      cases counted : made.counted? with
      | none => rw [note_uncounted counted]; trivial
      | some found =>
        obtain ⟨found, target, count⟩ := found
        by_cases kept : aim count = count
        · rw [note_kept counted kept]; trivial
        · rw [note_asking counted kept]
          exact ⟨made, found, target, rfl, counted⟩
    | asking count =>
      by_cases scaled : made.scaled?.isSome
      · simp only [note, if_pos scaled]
      · simp only [note, if_neg scaled]
    | succeeded => trivial
    | failed => trivial

/-- A call has succeeded when it has returned in the phase for that. -/
theorem returned_iff {aim : ℤ → ℤ} {phase : RequestPhase} (program : Fallible Calls ServiceScalerError Unit)
    (obeys : program.Obeys (RequestPhase.note aim) (RequestLegal service target aim) phase
      (fun _ phase => phase = .succeeded) fun _ phase => phase ≠ .succeeded) :
    program.run = .ret (.ok ()) ↔ phase = .succeeded := by
  rw [Fallible.Obeys] at obeys
  cases same : program.run with
  | ret reached =>
    rw [same] at obeys
    cases reached with
    | ok done => exact ⟨fun _ => obeys, fun _ => rfl⟩
    | error e =>
      constructor
      · intro ok
        cases ok
      · exact fun succeeded => absurd succeeded obeys
  | call op next =>
    rw [same] at obeys
    constructor
    · intro ok
      cases ok
    · rintro rfl
      cases obeys.1

section Effective

variable {call : ScaleCall} {log : List Act} {op : Op} {left : op.Reply → Prog Calls (Except ServiceScalerError Unit)}
  {reply : op.Reply} {w : World} (addressed : scaler.targetOf service = some target)
  (run : (call.program scaler service).run.Reaches log (.call op left))

include addressed run

/-- A call that succeeds with its reading acts on nothing. -/
theorem acts_of_read (allowed : Act.Allowed w ⟨op, reply⟩) (unread : log = [])
    (counts : op.count? = some (service, target))
    (returned : left reply = .ret (.ok ()))
    (succeeded : RequestPhase.fresh.note (call.aim scaler) ⟨op, reply⟩ = .succeeded) :
    Acts alone (desiredCount scaler service) (call.program scaler service) (some (w.desired target))
      (some (w.desired target)) := by
  cases counted : Act.counted? ⟨op, reply⟩ with
  | none =>
    rw [RequestPhase.note_uncounted counted] at succeeded
    cases succeeded
  | some found =>
    obtain ⟨found, target', count⟩ := found
    have same := Act.count_of_counted counted
    rw [counts] at same
    cases same
    have read := allowed.counted counted
    by_cases kept : call.aim scaler count = count
    · have acts := call.acts addressed (w.desired target) (returned ▸ run.concat reply) fun w' same => ?_
      · rwa [← read, kept, read] at acts
      · rw [unread]
        exact ⟨_, .cons ⟨w'.now, rfl⟩ (allowed.counted_elsewhere counted (same.trans read.symm)) (.nil _)⟩
    · rw [RequestPhase.note_asking counted kept] at succeeded
      cases succeeded

/-- A call that succeeds with its request acts on the count that it has read, if that is still the count. -/
theorem acts_of_request {read : Act} {found : Service} {target' : Target} {count : ℤ}
    (answered : ∃ w, Act.Allowed w read)
    (once : log = [read]) (counted : read.counted? = some (found, target', count))
    (upToDate : target' = target → w.desired target = count)
    (scaled : Act.scaled? ⟨op, reply⟩ = some (service, target, call.aim scaler count))
    (returned : left reply = .ret (.ok ())) :
    Acts alone (desiredCount scaler service) (call.program scaler service) (some (w.desired target))
      (some ((Act.after w ⟨op, reply⟩).desired target)) := by
  subst once
  have counts : read.op.count? = some (service, target) := by
    have legal : RequestLegal service target (call.aim scaler) .fresh read.op :=
      (call.obeys addressed).legal_call (show Prog.Reaches _ ([] ++ [read]) _ from run)
    cases legal with
    | count counts => exact counts
  have same := Act.count_of_counted counted
  rw [counts] at same
  cases same
  obtain ⟨w', answered⟩ := answered
  rw [Act.after_scaled scaled, upToDate rfl]
  apply call.acts addressed count (returned ▸ run.concat reply)
  intro w'' same
  exact ⟨_, .cons ⟨w''.now, rfl⟩ (answered.counted_elsewhere counted same)
    (.cons ⟨_, rfl⟩ (Act.allowed_scaled scaled) (.nil _))⟩

end Effective

/-- A call changes the count only where it succeeds, and then as it would alone. -/
theorem scaleCalls_effective (scaler : ServiceScaler) (service : Service) :
    Effective (scaleCalls scaler service) alone (ScaleCall.program scaler service)
      (desiredCount scaler service) UpToDate := by
  intro pool position task op left reply present answered run allowed upToDate
  cases addressed : scaler.targetOf service with
  | none =>
    obtain ⟨e, same⟩ := ScaleCall.unaddressed addressed task.kind
    rw [same] at run
    cases run.ret_inv.2
  | some target =>
    obtain ⟨legal, goes⟩ := (task.kind.obeys addressed).feed run
    have ended := returned_iff (ExceptT.mk (left reply)) (goes reply)
    have log := RequestPhase.fold_cases (task.kind.aim scaler) task.log
    have seen (w : World) : desiredCount scaler service w = some (w.desired target) :=
      (desiredCount_eq_some addressed).mpr rfl
    rw [run_mk] at ended
    rw [seen, seen]
    generalize task.log.foldl (RequestPhase.note (task.kind.aim scaler)) .fresh = phase at legal log ended
    cases legal with
    | count counts =>
      have unchanged : (scaleCalls scaler service).after pool.world ⟨op, reply⟩ = pool.world := Act.after_count counts
      rw [unchanged]
      exact ⟨fun returned => acts_of_read addressed run allowed log counts returned (ended.mp returned), fun _ => rfl⟩
    | @request count _ asks =>
      obtain ⟨read, found, target', once, counted⟩ := log
      have member : read ∈ task.log := once ▸ List.mem_singleton_self read
      cases scaled : Act.scaled? ⟨op, reply⟩ with
      | none =>
        have unchanged : (scaleCalls scaler service).after pool.world ⟨op, reply⟩ = pool.world :=
          Act.after_unscaled asks scaled
        rw [unchanged]
        refine ⟨fun returned => ?_, fun _ => rfl⟩
        have succeeded := ended.mp returned
        simp only [RequestPhase.note, scaled, Option.isSome_none, Bool.false_eq_true, if_false,
          reduceCtorEq] at succeeded
      | some asked =>
        have same := Act.scale_of_scaled scaled
        rw [asks] at same
        cases same
        have succeeded : RequestPhase.note (task.kind.aim scaler) (.asking count) ⟨op, reply⟩ = .succeeded := by
          simp only [RequestPhase.note, scaled, Option.isSome_some, if_true]
        have returned := ended.mpr succeeded
        refine ⟨fun _ => ?_, fun going => absurd returned going⟩
        refine acts_of_request addressed run (answered read member) once counted (fun same => ?_) scaled returned
        subst same
        exact upToDate _ _ task _ _ _ rfl present scaled read member found count counted

/-- As long as every update finds the count as its call has read it, no request is lost. -/
theorem requestsKept {scaler : ServiceScaler} {service : Service} {source target : Pool Calls World ScaleCall}
    {events : List (Event Calls ScaleCall)} (run : Run (scaleCalls scaler service) UpToDate source events target)
    (empty : source.tasks = []) : RequestsKept scaler service source.world target :=
  run.linearises (fun _ _ => rfl) (fun _ _ drifts => drifts) (scaleCalls_effective scaler service) (fun _ => rfl) empty

/-! ## Two requests for one more -/

/-- The provider answers with a count. -/
def readsCount (count : ℤ) : Act := ⟨.describeServices sampleService "eu-west-1" "bms", .ok (some ⟨count, 0, 0⟩)⟩

/-- The provider takes over a count. -/
def takesCount (count : ℤ) : Act := ⟨.updateService sampleService "eu-west-1" "bms" count, .ok true⟩

theorem upToDate_of_unscaled {pool : Pool Calls World ScaleCall} {event : Event Calls ScaleCall}
    (unscaled : ∀ position made, event = .call position made → Act.scaled? made = none) : UpToDate pool event := by
  intro position made task service target newCount same present scaled
  rw [unscaled position made same] at scaled
  cases scaled

theorem upToDate_of_read {pool : Pool Calls World ScaleCall} {position : ℕ} {made read : Act}
    {task : Task Calls ScaleCall}
    {found : Service} {count : ℤ} (present : pool.tasks[position]? = some task) (once : task.log = [read])
    (counted : read.counted? = some (found, target, count)) (same : pool.world.desired target = count) :
    UpToDate pool (.call position made) := by
  intro position' made' task' service target' newCount event present' scaled read' member found' count' counted'
  cases event
  obtain rfl : task = task' := Option.some.inj (present.symm.trans present')
  rw [once, List.mem_singleton] at member
  rw [member, counted] at counted'
  cases counted'
  exact same

/-- The second call runs when the first has returned. -/
theorem requestsKept_inTurn : ∃ events target,
    Run (scaleCalls .fargate sampleService) UpToDate ⟨sampleWorld .online, []⟩ events target ∧
      RequestsKept .fargate sampleService (sampleWorld .online) target ∧
      desiredCount .fargate sampleService target.world = some 2 := by
  have spawns (pool : Pool Calls World ScaleCall) (call : ScaleCall) : UpToDate pool (.spawn call) :=
    upToDate_of_unscaled fun position made same => nomatch same
  have reads (pool : Pool Calls World ScaleCall) (position : ℕ) (count : ℤ) :
      UpToDate pool (.call position (readsCount count)) :=
    upToDate_of_unscaled fun position made same => by cases same; rfl
  have run : ∃ target, Run (scaleCalls .fargate sampleService) UpToDate ⟨sampleWorld .online, []⟩
      [.spawn (.up 1), .spawn (.up 1), .call 0 (readsCount 0), .call 0 (takesCount 1), .call 1 (readsCount 1),
        .call 1 (takesCount 2)] target ∧ desiredCount .fargate sampleService target.world = some 2 :=
    ⟨_, .cons (spawns _ _) (.spawn trivial) (.cons (spawns _ _) (.spawn trivial)
      (.cons (reads _ _ _) (.call rfl rfl ⟨rfl, by decide⟩)
      (.cons (upToDate_of_read rfl rfl rfl rfl) (.call rfl rfl trivial)
      (.cons (reads _ _ _) (.call rfl rfl ⟨rfl, by decide⟩)
      (.cons (upToDate_of_read rfl rfl rfl rfl) (.call rfl rfl trivial) (.nil _)))))), rfl⟩
  obtain ⟨target, run, count⟩ := run
  exact ⟨_, target, run, requestsKept run rfl, count⟩

/-- A call for one more that has read zero. -/
def raised : Task Calls ScaleCall := ⟨.up 1, [readsCount 0, takesCount 1], .ret ()⟩

/-- Two calls for one more that both read zero leave a single one. -/
theorem not_requestsKept : ¬ ∀ (scaler : ServiceScaler) (service : Service) (source target : Pool Calls World ScaleCall)
    (events : List (Event Calls ScaleCall)), Run (scaleCalls scaler service) (fun _ _ => True) source events target →
      source.tasks = [] → (∀ task ∈ target.tasks, ¬ task.InFlight) →
        RequestsKept scaler service source.world target := by
  intro kept
  have run : ∃ target, Run (scaleCalls .fargate sampleService) (fun _ _ => True) ⟨sampleWorld .online, []⟩
      [.spawn (.up 1), .spawn (.up 1), .call 0 (readsCount 0), .call 1 (readsCount 0), .call 0 (takesCount 1),
        .call 1 (takesCount 1)] target ∧ target.tasks = [raised, raised] ∧
      desiredCount .fargate sampleService target.world = some 1 :=
    ⟨_, .cons trivial (.spawn trivial) (.cons trivial (.spawn trivial)
      (.cons trivial (.call rfl rfl ⟨rfl, by decide⟩) (.cons trivial (.call rfl rfl ⟨rfl, by decide⟩)
      (.cons trivial (.call rfl rfl trivial) (.cons trivial (.call rfl rfl trivial) (.nil _)))))), rfl, rfl⟩
  obtain ⟨target, run, tasks, count⟩ := run
  have returned (task : Task Calls ScaleCall) (member : task ∈ target.tasks) : ¬ task.InFlight := by
    rw [tasks] at member
    obtain rfl : task = raised := by simpa using member
    exact Prog.not_awaits_ret ()
  obtain ⟨order, once, done, ⟨later, serial⟩, same⟩ := kept _ _ _ _ _ run rfl returned
  have goes : ((ScaleCall.up 1).program .fargate sampleService).run.Reaches raised.log (.ret (.ok ())) :=
    .cons (.cons (.nil _))
  have both (pair : ℕ × ScaleCall) : pair ∈ order ↔ pair ∈ [(0, ScaleCall.up 1), (1, .up 1)] := by
    rw [done]
    obtain ⟨position, call⟩ := pair
    constructor
    · rintro ⟨task, present, rfl, -⟩
      rw [tasks] at present
      rcases position with _ | _ | position
      · cases present
        decide
      · cases present
        decide
      · cases present
    · intro member
      rcases List.mem_pair.mp member with same | same
      · cases same
        exact ⟨raised, by rw [tasks]; rfl, rfl, goes⟩
      · cases same
        exact ⟨raised, by rw [tasks]; rfl, rfl, goes⟩
  have listed := (List.perm_ext_iff_of_nodup once (by decide)).mpr both
  have calls : (order.map (·.2)).Perm (List.replicate 2 (.up 1)) := listed.map (·.2)
  rw [List.perm_replicate.mp calls] at serial same
  have inTurn := same later serial
  rw [count, desiredCount_eq_some rfl] at inTurn
  cases serial with
  | cons first serial =>
    cases serial with
    | cons second serial =>
      cases serial
      rw [ScaleCall.leaves rfl _ second, ScaleCall.leaves rfl _ first] at inTurn
      exact absurd inTurn (by decide)

end Bms
