import Bms.Model.Replay
import Bms.Model.Subscriber

/-! # Subscribers that consume

A subscriber stores its new channel before it consumes on it, and a stored channel that is open is taken
as proof that nothing is left to do. If `basic_consume` fails and the channel stays open, every later call
reports success, and nothing is consumed.
-/

namespace Bms

open Process Fallible Subscriber

/-- The stored channel is open, and a consumer has been registered on it. -/
def Consuming (w : AmqpWorld) : Prop := ∃ channel, w.channel = some channel ∧ channel ∈ w.alive ∧ channel ∈ w.consumers

/-- Whenever `setup` has returned a success, the subscriber consumes. -/
def AllConsuming (outcomes : List (Except String Unit × AmqpWorld)) : Prop :=
  ∀ outcome ∈ outcomes, outcome.1 = .ok () → Consuming outcome.2

/-- Any answers of the client. -/
def anyClient : Environment AmqpCalls AmqpWorld := amqp fun _ _ => True

/-- No channel on which `basic_consume` has failed is found open. -/
def discarding : Environment AmqpCalls AmqpWorld := amqp fun w channel => channel ∉ w.refused

def SuccessConsumes : Prop :=
  ∀ {config : SubscriberConfig} {outcomes : List (Except String Unit × AmqpWorld)} {w : AmqpWorld},
    Setups anyClient config outcomes w → AllConsuming outcomes

variable {config : SubscriberConfig} {finds : AmqpWorld → Channel → Prop} {w s later : AmqpWorld} {channel : Channel}

/-! ## What a call of `setup` does -/

/-- Nothing has changed but which channels are open. -/
def AmqpWorld.Closes (w later : AmqpWorld) : Prop := ∃ alive, later = { w with alive }

theorem AmqpWorld.Closes.same (w : AmqpWorld) : w.Closes w := ⟨w.alive, rfl⟩

theorem AmqpWorld.Closes.trans {w middle later : AmqpWorld} (first : w.Closes middle) (second : middle.Closes later) :
    w.Closes later := by
  obtain ⟨_, rfl⟩ := first
  obtain ⟨alive, rfl⟩ := second
  exact ⟨alive, rfl⟩

theorem closes_of_drifts (drifts : (amqp finds).drifts w later) : w.Closes later := by
  obtain ⟨alive, -, rfl⟩ := drifts
  exact ⟨alive, rfl⟩

/-- The results and the states in which `setup` may return. -/
inductive SetUp (finds : AmqpWorld → Channel → Prop) (w : AmqpWorld) : Except String Unit → AmqpWorld → Prop
  | kept {channel : Channel} {alive : List Channel} (stored : w.channel = some channel) (live : channel ∈ alive)
      (found : finds { w with alive } channel) : SetUp finds w (.ok ()) { w with alive }
  | failed {e : String} {opened alive : List Channel} (grows : w.opened ⊆ opened) :
      SetUp finds w (.error e) { w with opened, alive }
  | consumed {channel : Channel} {alive : List Channel} (fresh : channel ∉ w.opened) (live : channel ∈ alive) :
      SetUp finds w (.ok ()) ⟨some channel, channel :: w.opened, alive, channel :: w.consumers, w.refused⟩
  | refused {e : String} {channel : Channel} {alive : List Channel} (fresh : channel ∉ w.opened) :
      SetUp finds w (.error e) ⟨some channel, channel :: w.opened, alive, w.consumers, channel :: w.refused⟩

theorem SetUp.of_closes {result : Except String Unit} (closes : w.Closes s) (sets : SetUp finds s result later) :
    SetUp finds w result later := by
  obtain ⟨_, rfl⟩ := closes
  cases sets with
  | kept stored live found => exact .kept stored live found
  | failed grows => exact .failed grows
  | consumed fresh live => exact .consumed fresh live
  | refused fresh => exact .refused fresh

/-- The calls that declare and bind the queue. -/
def AmqpOp.Declares : AmqpOp → Prop
  | exchangeDeclare .. | queueDeclare .. | queueBind .. | panic => True
  | _ => False

theorem closes_of_declares {drifted : AmqpWorld} {op : AmqpOp} (reply : op.Reply) (declares : op.Declares)
    (drifts : (amqp finds).drifts w drifted) : w.Closes ((amqp finds).after drifted ⟨op, reply⟩) := by
  have same : (amqp finds).after drifted ⟨op, reply⟩ = drifted := by
    cases op <;> first | exact declares.elim | rfl
  rw [same]
  exact closes_of_drifts drifts

theorem declares_expect {α : Type} (value : Option α) : (AmqpOp.expect value).Only AmqpOp.Declares := by
  cases value with
  | none => exact ⟨trivial, fun reply => reply.elim⟩
  | some value => trivial

theorem declares_bindQueue (channel : Channel) (queueName exchangeName : String) (routingKeys : List String) :
    (bindQueue channel queueName exchangeName routingKeys).Only AmqpOp.Declares := by
  induction routingKeys with
  | nil => trivial
  | cons routingKey routingKeys ih => exact Only.bind ((only_attempt ..).mpr trivial) fun _ => ih

theorem declares_declareQueue (config : SubscriberConfig) (channel : Channel) :
    (declareQueue config channel).Only AmqpOp.Declares := by
  apply Only.bind ((only_attempt ..).mpr trivial)
  intro
  apply Only.bind (declares_expect _)
  intro queueName
  apply Only.bind (declares_expect _)
  intro routingKeys
  apply Only.bind ((only_attempt ..).mpr trivial)
  intro
  exact (declares_bindQueue ..).bind fun _ => trivial

theorem declareQueue_ensures : (declareQueue config channel).Ensures (amqp finds) w (fun _ later => w.Closes later)
    fun _ later => w.Closes later := by
  apply Prog.Ensures.mono (Prog.Only.ensures AmqpWorld.Closes.same AmqpWorld.Closes.trans closes_of_declares
    (declares_declareQueue config channel) w)
  intro result later closes
  cases result <;> exact closes

theorem openConsumer_ensures (connection : Connection) : (openConsumer config connection).Ensures (amqp finds) w
    (fun _ => SetUp finds w (.ok ())) fun e => SetUp finds w (.error e) := by
  rw [openConsumer, ensures_bind, ensures_attempt]
  rintro drifted (e | channel) drifts fresh
  · obtain ⟨alive, -, rfl⟩ := drifts
    exact .failed (List.Subset.refl _)
  · obtain ⟨alive, -, rfl⟩ := drifts
    change (declareQueue config channel >>= _).Ensures (amqp finds) _ _ _
    rw [ensures_bind]
    apply declareQueue_ensures.mono
    · rintro queueName _ ⟨alive, rfl⟩
      rw [ensures_bind, ensures_attempt]
      rintro _ ⟨⟩ ⟨alive, -, rfl⟩ -
      change (attempt (P := AmqpCalls) (.basicConsume channel _) id).Ensures (amqp finds) _ _ _
      rw [ensures_attempt]
      rintro _ (e | _) ⟨alive, -, rfl⟩ live
      · exact .refused fresh
      · exact .consumed fresh live
    · rintro e _ ⟨alive, rfl⟩
      exact .failed (List.subset_cons_self ..)

theorem setup_ensures : (setup config).Ensures (amqp finds) w (fun _ => SetUp finds w (.ok ()))
    fun e => SetUp finds w (.error e) := by
  rw [setup, ensures_bind, ensures_attempt]
  rintro _ (_ | connection) ⟨alive, -, rfl⟩ -
  · exact .failed (List.Subset.refl _)
  change (attempt (P := AmqpCalls) .lockChannel .ok >>= _).Ensures (amqp finds) _ _ _
  rw [ensures_bind, ensures_attempt]
  rintro _ stored ⟨alive, -, rfl⟩ locked
  have opens (s : AmqpWorld) (closes : w.Closes s) : (openConsumer config connection).Ensures (amqp finds) s
      (fun _ => SetUp finds w (.ok ())) fun e => SetUp finds w (.error e) :=
    (openConsumer_ensures connection).mono (fun _ _ => .of_closes closes) fun _ _ => .of_closes closes
  cases stored with
  | none => exact opens _ ⟨alive, rfl⟩
  | some channel =>
    change (isSomeOpen (some channel) >>= _).Ensures (amqp finds) _ _ _
    rw [isSomeOpen, ensures_bind, ensures_attempt]
    rintro _ answer ⟨alive, -, rfl⟩ ⟨live, found⟩
    cases answer with
    | false => exact opens _ ⟨alive, rfl⟩
    | true => exact .kept locked.symm (of_decide_eq_true live.symm) (found rfl)

/-- A call of `setup` returns in one of these ways. -/
theorem setUp_of_returned {result : Except String Unit}
    (returned : Alone (amqp finds) w (setup config).run later (.ret result)) : SetUp finds w result later := by
  have reached := setup_ensures.alone returned
  cases result <;> exact reached

theorem closeChannel_ensures : closeChannel.Ensures (amqp finds) w fun _ later =>
    later.channel = none ∧ later.opened = w.opened ∧ later.consumers = w.consumers ∧ later.refused = w.refused := by
  rintro _ (_ | channel) ⟨alive, -, rfl⟩ -
  · exact ⟨rfl, rfl, rfl, rfl⟩
  · rintro _ (_ | _) ⟨alive, -, rfl⟩ - <;> exact ⟨rfl, rfl, rfl, rfl⟩

/-! ## Calls one after another -/

/-- On the stored channel `basic_consume` has been called, with one outcome. -/
structure Tried (w : AmqpWorld) : Prop where
  stored : ∀ channel, w.channel = some channel → channel ∈ w.consumers ∨ channel ∈ w.refused
  apart : ∀ channel ∈ w.refused, channel ∉ w.consumers
  known : ∀ channel, channel ∈ w.consumers ∨ channel ∈ w.refused → channel ∈ w.opened

/-- A new channel has not been tried. -/
theorem Tried.untried (tried : Tried w) (fresh : channel ∉ w.opened) : channel ∉ w.consumers ∧ channel ∉ w.refused := by
  constructor
  · intro consumes
    exact fresh (tried.known channel (.inl consumes))
  · intro refused
    exact fresh (tried.known channel (.inr refused))

theorem Tried.setUp {result : Except String Unit} (tried : Tried w) (sets : SetUp finds w result later) : Tried later := by
  cases sets with
  | kept => exact ⟨tried.stored, tried.apart, tried.known⟩
  | failed grows => exact ⟨tried.stored, tried.apart, fun channel member => grows (tried.known channel member)⟩
  | @consumed channel _ fresh _ =>
    constructor
    · rintro _ ⟨⟩
      exact .inl List.mem_cons_self
    · intro other refused consumes
      obtain rfl | earlier := List.mem_cons.mp consumes
      · exact (tried.untried fresh).2 refused
      · exact tried.apart other refused earlier
    · rintro other (consumes | refused)
      · exact List.mem_cons.mpr ((List.mem_cons.mp consumes).imp_right fun earlier => tried.known other (.inl earlier))
      · exact List.mem_cons_of_mem _ (tried.known other (.inr refused))
  | @refused _ channel _ fresh =>
    constructor
    · rintro _ ⟨⟩
      exact .inr List.mem_cons_self
    · intro other refused consumes
      obtain rfl | earlier := List.mem_cons.mp refused
      · exact (tried.untried fresh).1 consumes
      · exact tried.apart other earlier consumes
    · rintro other (consumes | refused)
      · exact List.mem_cons_of_mem _ (tried.known other (.inl consumes))
      · exact List.mem_cons.mpr ((List.mem_cons.mp refused).imp_right fun earlier => tried.known other (.inr earlier))

variable {outcomes : List (Except String Unit × AmqpWorld)}

theorem Setups.tried (setups : Setups (amqp finds) config outcomes w) : Tried w := by
  induction setups with
  | new =>
    constructor
    · rintro channel ⟨⟩
    · rintro channel ⟨⟩
    · rintro channel (⟨⟨⟩⟩ | ⟨⟨⟩⟩)
  | setup _ returned ih => exact ih.setUp (setUp_of_returned returned)
  | closeChannel _ returned ih =>
    obtain ⟨taken, opened, consumers, refused⟩ := closeChannel_ensures.alone returned
    constructor
    · intro channel stored
      rw [taken] at stored
      cases stored
    · rw [refused, consumers]
      exact ih.apart
    · rw [refused, consumers, opened]
      exact ih.known
  | drift _ drifts ih =>
    obtain ⟨alive, -, rfl⟩ := drifts
    exact ⟨ih.stored, ih.apart, ih.known⟩

/-- A client that discards refused channels leaves a subscriber that has succeeded consuming. -/
theorem Tried.consuming (tried : Tried w) (sets : SetUp (fun w channel => channel ∉ w.refused) w (.ok ()) later) :
    Consuming later := by
  cases sets with
  | @kept channel _ stored live unrefused =>
    exact ⟨channel, stored, live, (tried.stored channel stored).resolve_right unrefused⟩
  | @consumed channel _ fresh live => exact ⟨channel, rfl, live, List.mem_cons_self⟩

/-- The calls of `setup`, with the check in one place. -/
theorem setup_run (config : SubscriberConfig) : (setup config).run = .call .getConnection fun
    | none => .ret (.error "no connection")
    | some connection => .call .lockChannel fun
      | none => (openConsumer config connection).run
      | some channel => .call (.isOpen channel) fun
        | true => .ret (.ok ())
        | false => (openConsumer config connection).run := by
  apply congrArg (Prog.call (P := AmqpCalls) AmqpOp.getConnection)
  funext reply
  cases reply with
  | none => rfl
  | some connection =>
    apply congrArg (Prog.call (P := AmqpCalls) AmqpOp.lockChannel)
    funext stored
    cases stored with
    | none => rfl
    | some channel =>
      apply congrArg (Prog.call (P := AmqpCalls) (AmqpOp.isOpen channel))
      funext answer
      cases answer <;> rfl

/-- The calls that do not ask whether a channel is open. -/
def AmqpOp.Blind : AmqpOp → Prop
  | isOpen _ => False
  | _ => True

theorem allowed_of_blind {finds' : AmqpWorld → Channel → Prop} {op : AmqpOp} (reply : op.Reply) (blind : op.Blind)
    (allowed : (amqp finds).allows w ⟨op, reply⟩) : (amqp finds').allows w ⟨op, reply⟩ := by
  cases op with
  | isOpen => exact blind.elim
  | openChannel | exchangeDeclare | queueDeclare | queueBind | basicConsume => cases reply <;> exact allowed
  | _ => exact allowed

theorem blind_openConsumer (connection : Connection) : (openConsumer config connection).Only AmqpOp.Blind := by
  have blind {α : Type} {program : Fallible AmqpCalls String α} (declares : program.Only AmqpOp.Declares) :
      program.Only AmqpOp.Blind :=
    Prog.Only.mono declares fun op declares => by cases op <;> trivial
  apply Only.bind ((only_attempt ..).mpr trivial)
  intro channel
  apply Only.bind (blind (declares_declareQueue config channel))
  intro queueName
  apply Only.bind ((only_attempt ..).mpr trivial)
  intro
  exact (only_attempt ..).mpr trivial

theorem blind_closeChannel : closeChannel.Only AmqpOp.Blind := by
  refine ⟨trivial, fun taken => ?_⟩
  cases taken with
  | none => trivial
  | some channel => exact ⟨trivial, fun _ => trivial⟩

/-- If the subscriber consumes wherever `setup` succeeds, the call has found no refused channel open. -/
theorem discards_of_consuming {result : Except String Unit} (tried : Tried w)
    (returned : Alone anyClient w (setup config).run later (.ret result)) (consumes : result = .ok () → Consuming later) :
    Alone discarding w (setup config).run later (.ret result) := by
  have opens {s : AmqpWorld} {connection : Connection}
      (returned : Alone anyClient s (openConsumer config connection).run later (.ret result)) :
      Alone discarding s (openConsumer config connection).run later (.ret result) :=
    Prog.Only.alone (blind_openConsumer connection) returned id allowed_of_blind fun _ _ => rfl
  rw [setup_run] at returned ⊢
  obtain ⟨joined, connection, drifts, allowed, returned⟩ := alone_call.mp returned
  refine alone_call.mpr ⟨joined, connection, drifts, trivial, ?_⟩
  cases connection with
  | none =>
    cases returned
    exact .here ..
  | some connection =>
    obtain ⟨locked, stored, drifts', same, returned⟩ := alone_call.mp returned
    refine alone_call.mpr ⟨locked, stored, drifts', same, ?_⟩
    cases stored with
    | none => exact opens returned
    | some channel =>
      obtain ⟨checked, answer, drifts'', found, returned⟩ := alone_call.mp returned
      cases answer with
      | false => exact alone_call.mpr ⟨checked, false, drifts'', ⟨found.1, nofun⟩, opens returned⟩
      | true =>
        cases returned
        obtain ⟨_, rfl⟩ : w.Closes locked := (closes_of_drifts drifts).trans (closes_of_drifts drifts')
        obtain ⟨_, rfl⟩ := closes_of_drifts drifts''
        obtain ⟨other, stored, live, consumes⟩ := consumes rfl
        obtain rfl : channel = other := Option.some_injective _ (same.trans stored)
        have unrefused : channel ∉ w.refused := fun refused => tried.apart channel refused consumes
        exact alone_call.mpr ⟨_, true, drifts'', ⟨found.1, fun _ => unrefused⟩, .here ..⟩

/-- Every success in a run leaves the subscriber consuming exactly if no check in it finds a channel open on
which `basic_consume` has failed. -/
theorem allConsuming_iff (setups : Setups anyClient config outcomes w) :
    AllConsuming outcomes ↔ Setups discarding config outcomes w := by
  constructor
  · intro consumes
    induction setups with
    | new => exact .new
    | @setup outcomes before after result setups returned ih =>
      apply (ih fun outcome member => consumes outcome (List.mem_append_left _ member)).setup
      apply discards_of_consuming setups.tried returned
      exact consumes _ (List.mem_append_right _ (List.mem_singleton.mpr rfl))
    | closeChannel _ returned ih =>
      apply (ih consumes).closeChannel
      exact Prog.Only.alone blind_closeChannel returned id allowed_of_blind fun _ _ => rfl
    | drift _ drifts ih => exact (ih consumes).drift drifts
  · intro discards
    clear setups
    induction discards with
    | new => exact fun _ member => absurd member List.not_mem_nil
    | setup setups returned ih =>
      intro outcome member succeeds
      obtain earlier | last := List.mem_append.mp member
      · exact ih outcome earlier succeeds
      · obtain rfl := List.mem_singleton.mp last
        obtain rfl : _ = Except.ok () := succeeds
        exact setups.tried.consuming (setUp_of_returned returned)
    | closeChannel _ _ ih => exact ih
    | drift _ _ ih => exact ih

/-! ## A refused channel that stays open -/

/-- The client grants what it can, and consuming if `grants` says so. It does not say that a channel is open on
which consuming has been refused if it is `wary`. -/
def AmqpOp.answer (wary grants : Bool) (w : AmqpWorld) : (op : AmqpOp) → Option op.Reply
  | getConnection => some (some 0)
  | lockChannel | takeChannel => some w.channel
  | isOpen channel => if channel ∈ w.alive then if wary ∧ channel ∈ w.refused then none else some true else some false
  | openChannel _ => some (.ok (w.opened.foldr max 0 + 1))
  | exchangeDeclare channel _ | queueDeclare channel _ | queueBind channel _ =>
    some (if channel ∈ w.alive then .ok () else .error "closed")
  | basicConsume channel _ => some (if grants ∧ channel ∈ w.alive then .ok () else .error "refused")
  | storeChannel _ => some ()
  | close _ => some (.ok ())
  | panic => none

theorem allowed_of_amqpAnswer {wary grants : Bool} {op : AmqpOp} {reply : op.Reply}
    (trusts : ∀ w channel, (wary = true → channel ∉ w.refused) → finds w channel)
    (answered : op.answer wary grants w = some reply) : (amqp finds).allows w ⟨op, reply⟩ := by
  cases op with
  | isOpen channel =>
    simp only [AmqpOp.answer] at answered
    split at answered
    · next live =>
      split at answered
      · cases answered
      · next unwary =>
        cases answered
        exact ⟨(decide_eq_true live).symm, fun _ => trusts w channel fun wary refused => unwary ⟨wary, refused⟩⟩
    · next closed =>
      cases answered
      exact ⟨(decide_eq_false closed).symm, nofun⟩
  | openChannel connection =>
    cases answered
    exact fun taken => Nat.not_succ_le_self _ (le_foldr_max taken)
  | exchangeDeclare channel | queueDeclare channel | queueBind channel =>
    obtain rfl := Option.some_injective _ answered
    split
    · next live => exact live
    · trivial
  | basicConsume channel =>
    obtain rfl := Option.some_injective _ answered
    split
    · next granted => exact granted.2
    · trivial
  | panic => cases answered
  | lockChannel | takeChannel =>
    obtain rfl := Option.some_injective _ answered
    rfl
  | _ => trivial

/-- A computed call of `setup` is one that the client may answer so. -/
theorem alone_of_setup (wary grants : Bool) {result : Except String Unit}
    (trusts : ∀ w channel, (wary = true → channel ∉ w.refused) → finds w channel)
    (found : (setup config).run.eval (AmqpOp.answer wary grants) AmqpAct.after w = some (result, later)) :
    Alone (amqp finds) w (setup config).run later (.ret result) :=
  Prog.alone_of_eval (E := amqp finds) (fun w => ⟨w.alive, List.Subset.refl _, rfl⟩)
    (fun _ _ _ => allowed_of_amqpAnswer trusts) found

/-- The subscriber of the results. -/
def resultSubscriber : SubscriberConfig where
  exchangeConfig := ⟨"result_exchange", "direct", true⟩
  queueName := some "result_queue"
  routingKeys := some ["worker_result"]
  durable := true

/-- Consuming is refused on the first channel, which is closed or stays open. -/
def afterRefusal (alive : List Channel) : AmqpWorld := ⟨some 1, [1], alive, [], [1]⟩

theorem setups_afterRefusal (trusts : ∀ w channel, channel ∉ w.refused → finds w channel) {alive : List Channel}
    (closes : alive ⊆ [1]) :
    Setups (amqp finds) resultSubscriber [(.error "refused", afterRefusal [1])] (afterRefusal alive) := by
  have refused : Alone (amqp finds) .new (setup resultSubscriber).run (afterRefusal [1]) (.ret (.error "refused")) :=
    alone_of_setup true false (fun w channel unrefused => trusts w channel (unrefused rfl)) rfl
  exact (Setups.new.setup refused).drift ⟨alive, closes, rfl⟩

/-- The first channel has been closed, and the subscriber consumes on a second one. -/
def secondChannel : AmqpWorld := ⟨some 2, [2, 1], [2], [2], [1]⟩

theorem setups_secondChannel (trusts : ∀ w channel, channel ∉ w.refused → finds w channel) :
    Setups (amqp finds) resultSubscriber
      [(.error "refused", afterRefusal [1]), (.ok (), secondChannel), (.ok (), secondChannel)] secondChannel := by
  have trusts' (w : AmqpWorld) (channel : Channel) (unrefused : true = true → channel ∉ w.refused) : finds w channel :=
    trusts w channel (unrefused rfl)
  have opens : Alone (amqp finds) (afterRefusal []) (setup resultSubscriber).run secondChannel (.ret (.ok ())) :=
    alone_of_setup true true trusts' rfl
  have keeps : Alone (amqp finds) secondChannel (setup resultSubscriber).run secondChannel (.ret (.ok ())) :=
    alone_of_setup true true trusts' rfl
  exact ((setups_afterRefusal trusts (List.nil_subset _)).setup opens).setup keeps

/-- A channel on which consuming is refused, and one on which it is not. -/
theorem allConsuming_secondChannel : Setups anyClient resultSubscriber
      [(.error "refused", afterRefusal [1]), (.ok (), secondChannel), (.ok (), secondChannel)] secondChannel ∧
    AllConsuming [(.error "refused", afterRefusal [1]), (.ok (), secondChannel), (.ok (), secondChannel)] :=
  ⟨setups_secondChannel fun _ _ _ => trivial,
    (allConsuming_iff (setups_secondChannel fun _ _ _ => trivial)).mpr
      (setups_secondChannel fun _ _ unrefused => unrefused)⟩

/-- After a refused consumer, a setup that finds the first channel still open succeeds without
consuming. -/
theorem not_successConsumes : ¬ SuccessConsumes := by
  intro consumes
  have keeps : Alone anyClient (afterRefusal [1]) (setup resultSubscriber).run (afterRefusal [1]) (.ret (.ok ())) :=
    alone_of_setup false true (fun _ _ _ => trivial) rfl
  have setups := (setups_afterRefusal (fun _ _ _ => trivial) (List.Subset.refl [1])).setup keeps
  obtain ⟨channel, -, -, consumed⟩ := consumes setups _ (List.mem_append_right _ (List.mem_singleton.mpr rfl)) rfl
  exact List.not_mem_nil consumed

end Bms
