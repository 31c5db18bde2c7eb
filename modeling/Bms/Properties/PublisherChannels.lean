import Bms.Model.Replay
import Bms.Process.Outbox
import Bms.Protocol.Publishing

/-! # The channels of a publisher

However the methods of a publisher interleave and whatever happens to its channels and connections: at most one
declared channel is live, but for those that could not be closed; a message is published only on a channel on which
the exchange has been declared; and each call of `publish` publishes its message at most once.
-/

namespace Bms

open Process PublishingPhase

variable {config : PublisherConfig} {passes : ℕ} {source target : Publishing} {event : PublishingEvent}

/-- A method of a publisher is in flight at a position, of a kind and in a phase. -/
abbrev PublishingAt (config : PublisherConfig) (pool : Publishing) (position : ℕ) (kind : PublisherTask)
    (phase : PublishingPhase) : Prop :=
  (publishingMonitor config).At pool position kind phase

/-- The lock of the channel. -/
def channelLock : Lock PublisherWorld PublishingPhase where
  locked w := w.locked = true
  holds := Locks

/-- The lock is taken and given back by the calls that say so. -/
theorem locks_note {kind : PublisherTask} {phase : PublishingPhase} {op : PublisherOp}
    (legal : PublishingLegal config kind phase op) (reply : op.Reply) :
    (op = .lockChannel ∧ ¬ phase.Locks ∧ (phase.note ⟨op, reply⟩).Locks) ∨
      (op = .unlockChannel ∧ phase.Locks ∧ ¬ (phase.note ⟨op, reply⟩).Locks) ∨
      (op ≠ .lockChannel ∧ op ≠ .unlockChannel ∧ (phase.Locks ↔ (phase.note ⟨op, reply⟩).Locks)) := by
  cases legal with
  | lock | again | lockToClose =>
    left
    cases reply <;> exact ⟨rfl, id, trivial⟩
  | @unlock _ result =>
    right; left
    cases result <;> exact ⟨rfl, trivial, id⟩
  | load free | sleep free =>
    right; right
    cases phase <;> exact ⟨nofun, nofun, Iff.rfl⟩
  | isOpen | isConnectionOpen | getConnection | openChannel | declare | publish | take =>
    right; right
    cases reply <;> exact ⟨nofun, nofun, Iff.rfl⟩
  | store | stop | close => exact .inr (.inr ⟨nofun, nofun, Iff.rfl⟩)

theorem locked_after (w : PublisherWorld) {op : PublisherOp} (reply : op.Reply) (taken : op ≠ .lockChannel)
    (given : op ≠ .unlockChannel) : (PublisherAct.after w ⟨op, reply⟩).locked = w.locked := by
  cases op with
  | lockChannel => exact absurd rfl taken
  | unlockChannel => exact absurd rfl given
  | openChannel | exchangeDeclare | basicPublish | close => cases reply <;> rfl
  | _ => rfl

theorem channelLock_guards (config : PublisherConfig) :
    channelLock.Guards (publishingMonitor config) (publisher config) where
  starts kind := by cases kind <;> exact id
  takes {world kind phase made} allowed legal free locks := by
    obtain ⟨op, reply⟩ := made
    obtain ⟨rfl, -⟩ | ⟨-, locked, -⟩ | ⟨-, -, same⟩ := locks_note legal reply
    · obtain ⟨unlocked, -⟩ := allowed
      exact ⟨fun locked => Bool.false_ne_true (unlocked.symm.trans locked), rfl⟩
    · exact absurd locked free
    · exact absurd (same.mpr locks) free
  releases {world kind phase made} legal locks free := by
    obtain ⟨op, reply⟩ := made
    obtain ⟨-, unlocked, -⟩ | ⟨rfl, -⟩ | ⟨-, -, same⟩ := locks_note legal reply
    · exact absurd locks unlocked
    · exact Bool.false_ne_true
    · exact absurd (same.mp locks) free
  keeps {world kind phase made} legal same := by
    obtain ⟨op, reply⟩ := made
    obtain ⟨-, unlocked, locks⟩ | ⟨-, locks, unlocked⟩ | ⟨taken, given, -⟩ := locks_note legal reply
    · exact absurd (same.mpr locks) unlocked
    · exact absurd (same.mp locks) unlocked
    · exact iff_of_eq (congrArg (· = true) (locked_after world reply taken given))
  enters _ _ := Iff.rfl
  drifts := by
    rintro world _ ⟨connection, alive, connected, -, -, rfl⟩
    exact Iff.rfl

/-! ## What a step does to the channels -/

/-- The exchange of the publisher has been declared on the channel. -/
def PublisherWorld.Declares (config : PublisherConfig) (w : PublisherWorld) (channel : Channel) : Prop :=
  (channel, Publisher.declareArguments config) ∈ w.declared

/-- The channels only come, and so do the declarations on them. -/
structure PublisherWorld.Grows (w later : PublisherWorld) : Prop where
  opened : w.opened ⊆ later.opened
  declared : w.declared ⊆ later.declared
  unclosed : w.unclosed ⊆ later.unclosed
  live : ∀ channel ∈ w.opened, later.Live channel → w.Live channel

theorem PublisherWorld.Grows.refl (w : PublisherWorld) : w.Grows w :=
  ⟨List.Subset.refl _, List.Subset.refl _, List.Subset.refl _, fun _ _ => id⟩

theorem grows_after {w : PublisherWorld} {made : PublisherAct} (allowed : made.Allowed w) : w.Grows (made.after w) := by
  obtain ⟨op, reply⟩ := made
  cases op with
  | openChannel connection =>
    cases reply with
    | error e => exact .refl w
    | ok channel =>
      refine ⟨List.subset_cons_self .., List.Subset.refl _, List.Subset.refl _, ?_⟩
      rintro other known ⟨alive, connected⟩
      have distinct : other ≠ channel := fun same => allowed (same ▸ known)
      exact ⟨(List.mem_cons.mp alive).resolve_left distinct, (List.mem_cons.mp connected).resolve_left distinct⟩
  | exchangeDeclare =>
    cases reply with
    | error e => exact .refl w
    | ok _ => exact ⟨List.Subset.refl _, List.subset_cons_self .., List.Subset.refl _, fun _ _ => id⟩
  | basicPublish => cases reply <;> exact ⟨List.Subset.refl _, List.Subset.refl _, List.Subset.refl _, fun _ _ => id⟩
  | close channel =>
    cases reply with
    | error e => exact ⟨List.Subset.refl _, List.Subset.refl _, List.subset_cons_self .., fun _ _ => id⟩
    | ok _ =>
      refine ⟨List.Subset.refl _, List.Subset.refl _, List.Subset.refl _, ?_⟩
      rintro other - ⟨alive, connected⟩
      exact ⟨(List.mem_filter.mp alive).1, connected⟩
  | _ => exact ⟨List.Subset.refl _, List.Subset.refl _, List.Subset.refl _, fun _ _ => id⟩

theorem grows_step (step : Step (publisher config) source event target) : source.world.Grows target.world := by
  cases step with
  | spawn => exact .refl _
  | call present awaits allowed => exact grows_after allowed
  | drift drifts =>
    obtain ⟨connection, alive, connected, fewer, fewer', rfl⟩ := drifts
    exact ⟨List.Subset.refl _, List.Subset.refl _, List.Subset.refl _, fun _ _ live => ⟨fewer live.1, fewer' live.2⟩⟩

/-- The stored channel is replaced by a task that has declared the exchange on a new one, or taken to be closed. -/
theorem channel_step (tracks : (publishingMonitor config).TracksAll source)
    (step : Step (publisher config) source event target) :
    target.world.channel = source.world.channel ∨
      (∃ position kind channel, PublishingAt config source position kind (.declared channel) ∧
        event = .call position ⟨.storeChannel channel, ()⟩ ∧ target.world.channel = some channel) ∨
      ∃ position kind, PublishingAt config source position kind .shutting ∧
        event = .call position ⟨.takeChannel, source.world.channel⟩ ∧ target.world.channel = none := by
  cases event with
  | spawn kind => cases step with | spawn => exact .inl rfl
  | drift =>
    cases step with
    | drift drifts =>
      obtain ⟨connection, alive, connected, -, -, rfl⟩ := drifts
      exact .inl rfl
  | call position made =>
    obtain ⟨op, reply⟩ := made
    obtain ⟨kind, phase, here, legal, allowed, reached⟩ := tracks.legal step
    rw [reached]
    cases legal with
    | store => exact .inr (.inl ⟨position, kind, _, here, rfl, rfl⟩)
    | take =>
      obtain rfl : reply = source.world.channel := allowed
      exact .inr (.inr ⟨position, _, here, rfl, rfl⟩)
    | openChannel | declare | publish | close => cases reply <;> exact .inl rfl
    | _ => exact .inl rfl

/-- A new declaration is made by the task that has opened the channel, for the exchange of the publisher. -/
theorem declared_step (tracks : (publishingMonitor config).TracksAll source)
    (step : Step (publisher config) source event target) {channel : Channel} {args : ExchangeDeclareArguments}
    (declared : (channel, args) ∈ target.world.declared) :
    (channel, args) ∈ source.world.declared ∨ (args = Publisher.declareArguments config ∧
      ∃ position kind, PublishingAt config source position kind (.fresh channel) ∧
        event = .call position ⟨.exchangeDeclare channel args, .ok ()⟩) := by
  cases event with
  | spawn kind => cases step with | spawn => exact .inl declared
  | drift =>
    cases step with
    | drift drifts =>
      obtain ⟨connection, alive, connected, -, -, rfl⟩ := drifts
      exact .inl declared
  | call position made =>
    obtain ⟨op, reply⟩ := made
    obtain ⟨kind, phase, here, legal, allowed, reached⟩ := tracks.legal step
    rw [reached] at declared
    cases legal with
    | declare =>
      cases reply with
      | error e => exact .inl declared
      | ok _ =>
        obtain same | old := List.mem_cons.mp declared
        · cases same
          exact .inr ⟨rfl, position, kind, here, rfl⟩
        · exact .inl old
    | openChannel | publish | close => cases reply <;> exact .inl declared
    | _ => exact .inl declared

theorem holder_of_at {position : ℕ} {kind : PublisherTask} {phase : PublishingPhase}
    (here : PublishingAt config source position kind phase) (locks : phase.Locks) :
    channelLock.Holder (publishingMonitor config) source position := by
  obtain ⟨task, present, -, -, rfl⟩ := here
  exact ⟨task, present, locks⟩

/-- While a task holds the lock, nobody else changes the stored channel. -/
theorem channel_kept (tracks : (publishingMonitor config).TracksAll source)
    (exclusive : channelLock.Exclusive (publishingMonitor config) source)
    (step : Step (publisher config) source event target) {position : ℕ} {kind : PublisherTask} {phase : PublishingPhase}
    (here : PublishingAt config source position kind phase) (locks : phase.Locks)
    (silent : ∀ made, event ≠ .call position made) : target.world.channel = source.world.channel := by
  have holder := holder_of_at here locks
  obtain same | ⟨other, _, channel, there, rfl, -⟩ | ⟨other, _, there, rfl, -⟩ := channel_step tracks step
  · exact same
  · obtain rfl := exclusive.unique _ _ holder (holder_of_at there trivial)
    exact absurd rfl (silent _)
  · obtain rfl := exclusive.unique _ _ holder (holder_of_at there trivial)
    exact absurd rfl (silent _)

/-! ## The invariant -/

/-- The stored channel, if there is one, is not live. -/
def PublisherWorld.Unusable (w : PublisherWorld) : Prop := ∀ channel ∈ w.channel, ¬ w.Live channel

/-- What a task knows of the channels in a phase. -/
def PublishingPhase.Knows (config : PublisherConfig) (w : PublisherWorld) : PublishingPhase → Prop
  | stored channel | opened channel => w.channel = some channel ∧ w.Declares config channel
  | lacking => w.Unusable
  | fresh channel => channel ∈ w.opened ∧ w.Unusable
  | declared channel => w.Declares config channel ∧ w.Unusable
  | settled (some channel) | ready channel => w.Declares config channel
  | taken channel => w.channel = none ∧ w.Declares config channel
  | _ => True

/-- What is known of the channels of a publisher in every state. -/
structure Channels (config : PublisherConfig) (pool : Publishing) : Prop where
  tracks : (publishingMonitor config).TracksAll pool
  exclusive : channelLock.Exclusive (publishingMonitor config) pool
  opened : ∀ channel args, (channel, args) ∈ pool.world.declared → channel ∈ pool.world.opened
  stored : ∀ channel ∈ pool.world.channel, pool.world.Declares config channel
  knows : ∀ position kind phase, PublishingAt config pool position kind phase → phase.Knows config pool.world
  /-- a live channel is stored, or a task under the lock has it for itself -/
  current : ∀ channel args, (channel, args) ∈ pool.world.declared → pool.world.Live channel →
    channel ∉ pool.world.unclosed →
    pool.world.channel = some channel ∨ ∃ position kind phase, PublishingAt config pool position kind phase ∧
      phase.own? = some channel

theorem PublishingPhase.Knows.kept {w later : PublisherWorld} {phase : PublishingPhase} (knows : phase.Knows config w)
    (grows : w.Grows later) (same : phase.Locks → later.channel = w.channel)
    (known : ∀ channel ∈ w.channel, channel ∈ w.opened) : phase.Knows config later := by
  have unusable (kept : later.channel = w.channel) (unusable : w.Unusable) : later.Unusable := by
    intro channel present live
    rw [kept] at present
    exact unusable channel present (grows.live channel (known channel present) live)
  cases phase with
  | stored channel | opened channel | taken channel =>
    obtain ⟨present, declares⟩ := knows
    exact ⟨(same trivial).trans present, grows.declared declares⟩
  | lacking => exact unusable (same trivial) knows
  | fresh channel =>
    obtain ⟨there, lacks⟩ := knows
    exact ⟨grows.opened there, unusable (same trivial) lacks⟩
  | declared channel =>
    obtain ⟨declares, lacks⟩ := knows
    exact ⟨grows.declared declares, unusable (same trivial) lacks⟩
  | settled result =>
    cases result with
    | none => trivial
    | some channel => exact grows.declared knows
  | ready channel => exact grows.declared knows
  | idle | published | closing | shutting => trivial

/-- A task goes on knowing what it has learnt from its calls. -/
theorem PublishingPhase.Knows.after {w : PublisherWorld} {kind : PublisherTask} {phase : PublishingPhase}
    {op : PublisherOp} {reply : op.Reply} (legal : PublishingLegal config kind phase op)
    (allowed : PublisherAct.Allowed w ⟨op, reply⟩) (known : ∀ channel ∈ w.channel, w.Declares config channel)
    (opened : ∀ channel ∈ w.channel, channel ∈ w.opened) (knows : phase.Knows config w) :
    (phase.note ⟨op, reply⟩).Knows config (PublisherAct.after w ⟨op, reply⟩) := by
  have grows := grows_after allowed
  cases legal with
  | load | sleep => cases phase <;> exact knows
  | lock | again =>
    obtain ⟨-, rfl⟩ := allowed
    cases present : w.channel with
    | none =>
      intro channel there
      cases present.symm.trans there
    | some channel => exact ⟨present, known channel present⟩
  | isOpen =>
    obtain ⟨present, declares⟩ := knows
    cases reply with
    | true => exact ⟨present, declares⟩
    | false =>
      rintro other there ⟨alive, -⟩
      obtain rfl := Option.some.inj (present.symm.trans there)
      exact of_decide_eq_false (Eq.symm allowed) alive
  | isConnectionOpen =>
    obtain ⟨present, declares⟩ := knows
    cases reply with
    | true => exact declares
    | false =>
      rintro other there ⟨-, connected⟩
      obtain rfl := Option.some.inj (present.symm.trans there)
      exact of_decide_eq_false (Eq.symm allowed) connected
  | getConnection => cases reply <;> first | exact knows | trivial
  | openChannel =>
    cases reply with
    | error e => trivial
    | ok channel =>
      refine ⟨List.mem_cons_self, fun other present live => ?_⟩
      exact knows other present (grows.live other (opened other present) live)
  | declare =>
    cases reply with
    | error e => trivial
    | ok _ => exact ⟨List.mem_cons_self, knows.2⟩
  | store => exact knows.1
  | @unlock _ result => cases result <;> exact knows
  | publish => cases reply <;> trivial
  | lockToClose | stop => trivial
  | take =>
    cases reply with
    | none => trivial
    | some channel => exact ⟨rfl, known channel (Eq.symm allowed)⟩
  | close => trivial

theorem Channels.step (channels : Channels config source) (step : Step (publisher config) source event target) :
    Channels config target := by
  have tracks := channels.tracks.step (publishingMonitor_covers config) step
  have grows := grows_step step
  have opened (channel : Channel) (args : ExchangeDeclareArguments)
      (declared : (channel, args) ∈ target.world.declared) : channel ∈ target.world.opened := by
    obtain old | ⟨-, position, kind, here, -⟩ := declared_step channels.tracks step declared
    · exact grows.opened (channels.opened channel args old)
    · exact grows.opened (channels.knows position kind _ here).1
  have known (channel : Channel) (present : channel ∈ source.world.channel) : channel ∈ source.world.opened :=
    channels.opened channel _ (channels.stored channel present)
  constructor
  case tracks => exact tracks
  case exclusive => exact (channelLock_guards config).step channels.tracks channels.exclusive step
  case opened => exact opened
  case stored =>
    intro channel present
    obtain same | ⟨position, kind, stored, here, -, same⟩ | ⟨_, _, -, -, same⟩ := channel_step channels.tracks step
    · exact grows.declared (channels.stored channel (same ▸ present))
    · obtain rfl := Option.some.inj (same.symm.trans present)
      exact grows.declared (channels.knows position kind _ here).1
    · cases same.symm.trans present
  case knows =>
    intro position kind phase here
    obtain ⟨old, silent⟩ | ⟨-, rfl⟩ | ⟨before, op, reply, old, legal, rfl, rfl, allowed, reached⟩ :=
      here.before channels.tracks step
    · exact (channels.knows position kind phase old).kept grows
        (fun locks => channel_kept channels.tracks channels.exclusive step old locks silent) known
    · cases kind <;> trivial
    · rw [reached]
      exact .after legal allowed channels.stored known (channels.knows position kind before old)
  case current =>
    intro channel args declared live closable
    obtain old | ⟨rfl, position, kind, here, rfl⟩ := declared_step channels.tracks step declared
    · have lived := grows.live channel (channels.opened channel args old) live
      obtain present | ⟨position, kind, phase, here, own⟩ :=
        channels.current channel args old lived fun gone => closable (grows.unclosed gone)
      · obtain same | ⟨position, kind, stored, here, -, -⟩ | ⟨position, kind, here, rfl, -⟩ :=
          channel_step channels.tracks step
        · exact .inl (same.trans present)
        · exact absurd lived ((channels.knows position kind _ here).2 channel present)
        · rw [present] at step
          obtain there | ended := here.after (publishingMonitor_covers config) channels.tracks step
          · exact .inr ⟨position, kind, _, there, rfl⟩
          · exact absurd trivial ended
      · by_cases calls : ∃ made, event = .call position made
        · obtain ⟨⟨op, reply⟩, rfl⟩ := calls
          obtain ⟨kind', phase', there, legal, allowed, reached⟩ := channels.tracks.legal step
          obtain ⟨rfl, rfl⟩ := there.unique here
          rw [reached] at live closable ⊢
          cases legal with
          | store =>
            cases own
            exact .inl rfl
          | close =>
            cases own
            cases reply with
            | error e => exact absurd List.mem_cons_self closable
            | ok _ =>
              have alive : channel ∈ source.world.alive.filter (· ≠ channel) := live.1
              exact absurd rfl (of_decide_eq_true (List.mem_filter.mp alive).2)
          | load free | sleep free =>
            cases phase' with
            | idle | ready => cases own
            | _ => exact free.elim
          | _ => cases own
        · exact .inr ⟨position, kind, phase, here.kept step fun made same => calls ⟨made, same⟩, own⟩
    · obtain there | ended := here.after (publishingMonitor_covers config) channels.tracks step
      · exact .inr ⟨position, kind, _, there, rfl⟩
      · exact absurd trivial ended

theorem Channels.start (config : PublisherConfig) (passes : ℕ) : Channels config (startPublisher config passes) := by
  have only {position : ℕ} {task : Task PublisherCalls PublisherTask}
      (present : (startPublisher config passes).tasks[position]? = some task) :
      task = ⟨.run passes, [], (publisher config).body (.run passes)⟩ :=
    List.mem_singleton.mp (List.mem_of_getElem? present)
  constructor
  case tracks =>
    intro position task present
    obtain rfl := only present
    exact ⟨.nil, publishingMonitor_covers config _⟩
  case exclusive =>
    refine Lock.exclusive_of_none Bool.false_ne_true ?_
    rintro position ⟨task, present, holds⟩
    obtain rfl := only present
    exact holds
  case opened => exact fun _ _ declared => (List.not_mem_nil declared).elim
  case stored => exact fun _ present => (Option.not_mem_none _ present).elim
  case knows =>
    rintro position kind phase ⟨task, present, -, -, rfl⟩
    obtain rfl := only present
    trivial
  case current => exact fun _ _ declared => (List.not_mem_nil declared).elim

theorem channels_of_run {ok : Publishing → PublishingEvent → Prop} {events : List PublishingEvent} {pool : Publishing}
    (run : Run (publisher config) ok (startPublisher config passes) events pool) : Channels config pool :=
  run.invariant (fun channels _ step => channels.step step) (Channels.start config passes)

/-- A channel that a task has for itself is the only current one. -/
theorem Channels.own_unique {pool : Publishing} (channels : Channels config pool) {channel other : Channel}
    {position : ℕ} {kind : PublisherTask} {phase : PublishingPhase} (here : PublishingAt config pool position kind phase)
    (own : phase.own? = some channel) (live : pool.world.Live other)
    (current : pool.world.channel = some other ∨ ∃ position kind phase, PublishingAt config pool position kind phase ∧
      phase.own? = some other) : channel = other := by
  have locks {phase : PublishingPhase} {channel : Channel} (own : phase.own? = some channel) : phase.Locks := by
    cases phase <;> trivial
  obtain present | ⟨position', kind', phase', there, own'⟩ := current
  · have knows := channels.knows position kind phase here
    cases phase with
    | declared => exact absurd live (knows.2 other present)
    | taken => cases knows.1.symm.trans present
    | _ => cases own
  · obtain rfl := channels.exclusive.unique _ _ (holder_of_at here (locks own)) (holder_of_at there (locks own'))
    obtain ⟨-, rfl⟩ := here.unique there
    exact Option.some.inj (own.symm.trans own')

/-- The live channels on which an exchange has been declared, not counting those that could not be closed. -/
def PublisherWorld.Serving (w : PublisherWorld) : Set Channel :=
  {channel | (∃ args, (channel, args) ∈ w.declared) ∧ w.Live channel ∧ channel ∉ w.unclosed}

/-- However its methods interleave, a publisher has at most one live channel with a declared exchange, not counting
those that could not be closed. -/
theorem publisher_oneChannel (config : PublisherConfig) (passes : ℕ) {ok : Publishing → PublishingEvent → Prop}
    {events : List PublishingEvent} {pool : Publishing}
    (run : Run (publisher config) ok (startPublisher config passes) events pool) : pool.world.Serving.Subsingleton := by
  have channels := channels_of_run run
  rintro channel ⟨⟨args, declared⟩, live, closable⟩ other ⟨⟨args', declared'⟩, live', closable'⟩
  have current := channels.current channel args declared live closable
  obtain present' | ⟨position, kind, phase, here, own⟩ := channels.current other args' declared' live' closable'
  · obtain present | ⟨position, kind, phase, here, own⟩ := current
    · exact Option.some.inj (present.symm.trans present')
    · exact channels.own_unique here own live' (.inl present')
  · exact (channels.own_unique here own live current).symm

/-! ## What is published -/

/-- The message that a task has published, with its arguments. -/
def sentIn (log : List PublisherAct) : Option (Message × BasicPublishArguments) :=
  log.findSome? fun
    | ⟨.basicPublish _ message args, .ok _⟩ => some (message, args)
    | _ => none

theorem sentIn_concat (log : List PublisherAct) (made : PublisherAct) :
    sentIn (log ++ [made]) = (sentIn log).or (sentIn [made]) := List.findSome?_append

/-- A task that has published a message is a call of `publish` with this message, and has made its last call. -/
theorem published_of_sentIn {kind : PublisherTask} {log : List PublisherAct}
    (permits : (publishingMonitor config).Permits kind log) {message : Message} {args : BasicPublishArguments}
    (sent : sentIn log = some (message, args)) :
    ∃ routingKey, kind = .publish message routingKey ∧ args = ⟨config.exchangeConfig.exchangeName, routingKey⟩ ∧
      log.foldl note (start kind) = .published := by
  induction permits with
  | nil => cases sent
  | @concat log op reply earlier legal ih =>
    rw [List.foldl_append, List.foldl_cons, List.foldl_nil]
    rw [sentIn_concat, Option.or_eq_some_iff] at sent
    rcases sent with before | ⟨-, now⟩
    · obtain ⟨routingKey, -, -, reached⟩ := ih before
      change PublishingLegal config kind (log.foldl note (start kind)) op at legal
      rw [reached] at legal
      cases legal with
      | load free | sleep free => exact free.elim
    · change PublishingLegal config kind (log.foldl note (start kind)) op at legal
      generalize log.foldl note (start kind) = phase at legal
      cases legal with
      | publish =>
        cases reply with
        | error e => cases now
        | ok _ =>
          cases now
          exact ⟨_, rfl, rfl, rfl⟩
      | openChannel | declare | close => cases reply <;> cases now
      | _ => cases now

/-- What has been published, and what the tasks have sent. -/
structure Outgoing (config : PublisherConfig) (pool : Publishing) : Prop where
  /-- on a channel on which the exchange had been declared before -/
  declared : ∀ channel message args, (channel, message, args) ∈ pool.world.published →
    pool.world.Declares config channel ∧ args.exchange = (Publisher.declareArguments config).exchange
  once : (pool.world.published.map (·.2)).Perm (pool.tasks.filterMap fun task => sentIn task.log)

theorem published_after (w : PublisherWorld) (made : PublisherAct) :
    (made.after w).published.map (·.2) = (sentIn [made]).toList ++ w.published.map (·.2) := by
  obtain ⟨op, reply⟩ := made
  cases op with
  | openChannel | exchangeDeclare | basicPublish | close => cases reply <;> rfl
  | _ => rfl

theorem Channels.declared_step (channels : Channels config source)
    (known : ∀ channel message args, (channel, message, args) ∈ source.world.published →
      source.world.Declares config channel ∧ args.exchange = (Publisher.declareArguments config).exchange)
    (step : Step (publisher config) source event target) {channel : Channel} {message : Message}
    {args : BasicPublishArguments} (published : (channel, message, args) ∈ target.world.published) :
    target.world.Declares config channel ∧ args.exchange = (Publisher.declareArguments config).exchange := by
  have grows := grows_step step
  have old (published : (channel, message, args) ∈ source.world.published) :
      target.world.Declares config channel ∧ args.exchange = (Publisher.declareArguments config).exchange := by
    obtain ⟨declares, same⟩ := known channel message args published
    exact ⟨grows.declared declares, same⟩
  cases event with
  | spawn kind => cases step with | spawn => exact old published
  | drift =>
    cases step with
    | drift drifts =>
      obtain ⟨connection, alive, connected, -, -, rfl⟩ := drifts
      exact old published
  | call position made =>
    obtain ⟨op, reply⟩ := made
    obtain ⟨kind, phase, here, legal, allowed, reached⟩ := channels.tracks.legal step
    rw [reached] at published
    cases legal with
    | publish =>
      cases reply with
      | error e => exact old published
      | ok _ =>
        obtain same | earlier := List.mem_cons.mp published
        · cases same
          exact ⟨grows.declared (channels.knows position _ _ here), rfl⟩
        · exact old earlier
    | openChannel | declare | close => cases reply <;> exact old published
    | _ => exact old published

/-- What has been published, as an outbox. -/
def publishedBox (config : PublisherConfig) : Outbox (publisher config) (Message × BasicPublishArguments) where
  contents w := w.published.map (·.2)
  adds made := sentIn [made]
  after _ := published_after ..
  enter _ _ := rfl
  drifts drifts := by
    obtain ⟨connection, alive, connected, -, -, rfl⟩ := drifts
    rfl

/-- A task sends at most one message, since it makes no call after that. -/
theorem sent_once {kind : PublisherTask} {log : List PublisherAct}
    (permits : (publishingMonitor config).Permits kind log) :
    log.filterMap (fun made => sentIn [made]) = (sentIn log).toList := by
  induction permits with
  | nil => rfl
  | @concat log op reply earlier legal ih =>
    rw [filterMap_concat, ih, sentIn_concat]
    cases sent : sentIn log with
    | none => rw [Option.none_or, Option.toList_none, List.nil_append]
    | some already =>
      obtain ⟨routingKey, -, -, reached⟩ := published_of_sentIn earlier sent
      change PublishingLegal config kind (log.foldl note (start kind)) op at legal
      rw [reached] at legal
      cases legal with
      | load free | sleep free => exact free.elim

theorem outgoing_of_run {ok : Publishing → PublishingEvent → Prop} {events : List PublishingEvent} {pool : Publishing}
    (run : Run (publisher config) ok (startPublisher config passes) events pool) : Outgoing config pool := by
  constructor
  case declared =>
    have both := run.invariant (I := fun pool => Channels config pool ∧
        ∀ channel message args, (channel, message, args) ∈ pool.world.published →
          pool.world.Declares config channel ∧ args.exchange = (Publisher.declareArguments config).exchange)
      (fun both _ step => ⟨both.1.step step, fun _ _ _ => both.1.declared_step both.2 step⟩)
      ⟨.start config passes, fun _ _ _ published => (List.not_mem_nil published).elim⟩
    exact both.2
  case once =>
    have tracks := (channels_of_run run).tracks
    have sent : pool.made (fun made => sentIn [made]) = pool.tasks.filterMap fun task => sentIn task.log := by
      rw [Pool.made, List.filterMap_eq_flatMap_toList]
      refine List.flatMap_congr fun task member => ?_
      obtain ⟨position, present⟩ := List.mem_iff_getElem?.mp member
      exact sent_once (tracks position task present).permits
    rw [← sent]
    exact (publishedBox config).perm_made run (.refl _)

/-- A message is published only on a channel on which the publisher's exchange has been declared, and to this
exchange. What has been published is, message by message, what the calls of `publish` have sent, each its own message
by its own key and at most once. -/
theorem publisher_publishes (config : PublisherConfig) (passes : ℕ) {ok : Publishing → PublishingEvent → Prop}
    {events : List PublishingEvent} {pool : Publishing}
    (run : Run (publisher config) ok (startPublisher config passes) events pool) :
    (∀ channel message args, (channel, message, args) ∈ pool.world.published →
      pool.world.Declares config channel ∧ args.exchange = (Publisher.declareArguments config).exchange) ∧
    (pool.world.published.map (·.2)).Perm (pool.tasks.filterMap fun task => sentIn task.log) ∧
    ∀ task ∈ pool.tasks, ∀ message args, sentIn task.log = some (message, args) →
      task.kind = .publish message args.routingKey := by
  have outgoing := outgoing_of_run run
  refine ⟨outgoing.declared, outgoing.once, fun task member message args sent => ?_⟩
  obtain ⟨position, present⟩ := List.mem_iff_getElem?.mp member
  obtain ⟨routingKey, same, rfl, -⟩ :=
    published_of_sentIn ((channels_of_run run).tracks position task present).permits sent
  exact same

/-! ## After a publisher has been closed -/

/-- Where the task of `run` is in a pass of its loop. -/
inductive PassPhase
  /-- another task -/
  | aside
  | outside
  /-- a pass that has opened no channel yet -/
  | inside
  /-- no channel is opened any more in this pass, or at all -/
  | past

namespace PassPhase

def start : PublisherTask → PassPhase
  | .run _ => outside
  | _ => aside

def note : PassPhase → PublisherAct → PassPhase
  | aside, _ => aside
  | outside, ⟨.loadRunning, running⟩ => if running then inside else past
  | inside, ⟨.openChannel _, .ok _⟩ => past
  | _, ⟨.sleep _, _⟩ => outside
  | phase, _ => phase

def Legal : PassPhase → PublisherOp → Prop
  | aside, _ => True
  | phase, .loadRunning => phase = outside
  | phase, .openChannel _ => phase = inside
  | _, _ => True

/-- In a pass of the loop. -/
def Within : PassPhase → Prop
  | inside | past => True
  | _ => False

/-- How many channels may still be opened before `running` is read again. -/
def allowance : PassPhase → ℕ
  | inside => 1
  | _ => 0

end PassPhase

def passMonitor : Monitor PublisherCalls PublisherTask PassPhase where
  start := PassPhase.start
  note := PassPhase.note
  legal _ := PassPhase.Legal
  ended _ _ := True

theorem ensureChannel_passes : (Publisher.ensureChannel config).run.Obeys PassPhase.note PassPhase.Legal .inside
    fun _ phase => phase.Within := by
  have opens : (Publisher.openChannel config).run.Obeys PassPhase.note PassPhase.Legal .inside
      fun _ phase => phase.Within := by
    refine ⟨trivial, fun connection => ?_⟩
    cases connection with
    | none => trivial
    | some connection =>
      refine ⟨rfl, fun channel => ?_⟩
      cases channel with
      | error e => trivial
      | ok channel =>
        refine ⟨trivial, fun reply => ?_⟩
        cases reply with
        | error e => trivial
        | ok _ => exact ⟨trivial, fun _ => trivial⟩
  have unlocks {body : Prog PublisherCalls (Except String Channel)}
      (passes : body.Obeys PassPhase.note PassPhase.Legal .inside fun _ phase => phase.Within) :
      (body >>= fun result => Prog.call PublisherOp.unlockChannel fun _ => .ret result).Obeys PassPhase.note
        PassPhase.Legal .inside fun _ phase => phase.Within := by
    refine (Prog.obeys_bind ..).mpr (passes.mono fun result phase within => ?_)
    cases phase <;> first | exact ⟨trivial, fun _ => trivial⟩ | exact within.elim
  refine ⟨trivial, fun stored => ?_⟩
  cases stored with
  | none => exact unlocks opens
  | some channel =>
    refine unlocks ⟨trivial, fun isOpen => ?_⟩
    cases isOpen with
    | false => exact opens
    | true =>
      refine ⟨trivial, fun isConnectionOpen => ?_⟩
      cases isConnectionOpen with
      | false => exact opens
      | true => trivial

theorem run_passes (passes : ℕ) : (Publisher.run config passes).Obeys PassPhase.note PassPhase.Legal .outside
    fun _ _ => True := by
  induction passes with
  | zero => trivial
  | succ passes ih =>
    refine ⟨rfl, fun running => ?_⟩
    cases running with
    | false => trivial
    | true =>
      suffices goes : ((Publisher.ensureChannel config).run >>= fun _ => (PublisherOp.sleep (Duration.seconds 2)).await >>=
          fun _ => Publisher.run config passes).Obeys PassPhase.note PassPhase.Legal .inside fun _ _ => True from goes
      refine (Prog.obeys_bind ..).mpr (ensureChannel_passes.mono fun _ phase within => ?_)
      cases phase <;> first | exact ⟨trivial, fun _ => ih⟩ | exact within.elim

theorem passMonitor_covers (config : PublisherConfig) : passMonitor.Covers (publisher config) := by
  intro kind
  have aside (program : Prog PublisherCalls Unit) : program.Obeys PassPhase.note PassPhase.Legal .aside fun _ _ => True :=
    (Prog.obeys_indifferent (fun _ => trivial) (fun _ => rfl) program).mono fun _ _ _ => trivial
  cases kind with
  | run passes => exact run_passes passes
  | publish | closeChannel => exact aside _

/-- How many channels a task has opened. -/
def opensIn (log : List PublisherAct) : ℕ := log.countP fun
  | ⟨.openChannel _, .ok _⟩ => true
  | _ => false

theorem opensIn_concat (log : List PublisherAct) (made : PublisherAct) :
    opensIn (log ++ [made]) = opensIn log + opensIn [made] := List.countP_append

theorem PassPhase.foldl_ne_aside {phase : PassPhase} (going : phase ≠ .aside) (log : List PublisherAct) :
    log.foldl note phase ≠ .aside := by
  induction log generalizing phase with
  | nil => exact going
  | cons made log ih =>
    apply ih
    unfold note
    split <;> first | exact absurd rfl going | exact going | (split <;> nofun) | nofun

/-- The publisher has been closed, and its loop may still open so many channels. -/
structure Stopping (pool : Publishing) (count : ℕ) : Prop where
  stopped : pool.world.running = false
  tracks : passMonitor.TracksAll pool
  opens : ∃ task passes, pool.tasks[0]? = some task ∧ task.kind = .run passes ∧
    opensIn task.log + (passMonitor.phase task).allowance ≤ count

/-- A publisher is never started again. -/
theorem stopped_step (tracks : (publishingMonitor config).TracksAll source)
    (step : Step (publisher config) source event target) (stopped : source.world.running = false) :
    target.world.running = false := by
  cases event with
  | spawn kind => cases step with | spawn => exact stopped
  | drift =>
    cases step with
    | drift drifts =>
      obtain ⟨connection, alive, connected, -, -, rfl⟩ := drifts
      exact stopped
  | call position made =>
    obtain ⟨op, reply⟩ := made
    obtain ⟨kind, phase, here, legal, allowed, reached⟩ := tracks.legal step
    rw [reached]
    cases legal with
    | stop => rfl
    | openChannel | declare | publish | close => cases reply <;> exact stopped
    | _ => exact stopped

theorem Stopping.step {count : ℕ} (known : (publishingMonitor config).TracksAll source) (stopping : Stopping source count)
    (step : Step (publisher config) source event target) : Stopping target count where
  stopped := stopped_step known step stopping.stopped
  tracks := stopping.tracks.step (passMonitor_covers config) step
  opens := by
    obtain ⟨task, passes, present, kind, few⟩ := stopping.opens
    obtain kept | ⟨op, next, reply, awaits, -, allowed, later⟩ := step.task_after present
    · exact ⟨task, passes, kept, kind, few⟩
    · refine ⟨_, passes, later, kind, ?_⟩
      have legal : (passMonitor.phase task).Legal op := (stopping.tracks 0 task present).legal awaits
      rw [opensIn_concat, passMonitor.phase_concat task.kind task.log ⟨op, reply⟩ task.rest]
      change opensIn task.log + opensIn [⟨op, reply⟩] + ((passMonitor.phase task).note ⟨op, reply⟩).allowance ≤ count
      have going : passMonitor.phase task ≠ .aside := by
        rw [Monitor.phase, kind]
        have starts : PassPhase.outside ≠ .aside := by rintro ⟨⟩
        exact PassPhase.foldl_ne_aside starts task.log
      generalize passMonitor.phase task = phase at few legal going
      cases op with
      | loadRunning =>
        have running : reply = false := Eq.trans allowed stopping.stopped
        subst running
        cases phase <;> exact few
      | openChannel connection =>
        cases reply with
        | error e => cases phase <;> exact few
        | ok channel => cases phase <;> first | exact absurd rfl going | exact few | cases legal
      | sleep => cases phase <;> first | exact few | exact Nat.le_of_succ_le few
      | _ => cases phase <;> exact few

/-- The task of `run` stays the first one. -/
structure Looping (config : PublisherConfig) (pool : Publishing) : Prop where
  known : (publishingMonitor config).TracksAll pool
  tracks : passMonitor.TracksAll pool
  first : ∃ task passes, pool.tasks[0]? = some task ∧ task.kind = .run passes

theorem Looping.step (looping : Looping config source) (step : Step (publisher config) source event target) :
    Looping config target where
  known := looping.known.step (publishingMonitor_covers config) step
  tracks := looping.tracks.step (passMonitor_covers config) step
  first := by
    obtain ⟨task, passes, present, kind⟩ := looping.first
    obtain kept | ⟨op, next, reply, -, -, -, later⟩ := step.task_after present
    · exact ⟨task, passes, kept, kind⟩
    · exact ⟨_, passes, later, kind⟩

theorem Looping.start (config : PublisherConfig) (passes : ℕ) : Looping config (startPublisher config passes) where
  known := (Channels.start config passes).tracks
  tracks position task present := by
    obtain rfl := List.mem_singleton.mp (List.mem_of_getElem? present)
    exact ⟨.nil, passMonitor_covers config _⟩
  first := ⟨_, passes, rfl, rfl⟩

/-- Once a publisher has been closed, its loop opens at most one more channel, whatever else happens. -/
theorem publisher_stops (config : PublisherConfig) (passes : ℕ) {ok : Publishing → PublishingEvent → Prop}
    {events later : List PublishingEvent} {pool target : Publishing}
    (reached : Run (publisher config) ok (startPublisher config passes) events pool)
    (stopped : pool.world.running = false) (run : Run (publisher config) ok pool later target) :
    ∃ before after, pool.tasks[0]? = some before ∧ target.tasks[0]? = some after ∧
      opensIn after.log ≤ opensIn before.log + 1 := by
  have looping := reached.invariant (fun looping _ step => looping.step step) (Looping.start config passes)
  obtain ⟨before, rounds, present, kind⟩ := looping.first
  have few : (passMonitor.phase before).allowance ≤ 1 := by cases passMonitor.phase before <;> decide
  have stopping : Stopping pool (opensIn before.log + 1) :=
    ⟨stopped, looping.tracks, before, rounds, present, kind, Nat.add_le_add_left few _⟩
  have both : (publishingMonitor config).TracksAll target ∧ Stopping target (opensIn before.log + 1) :=
    run.invariant (I := fun pool => (publishingMonitor config).TracksAll pool ∧ Stopping pool (opensIn before.log + 1))
      (fun both _ step => ⟨both.1.step (publishingMonitor_covers config) step, both.2.step both.1 step⟩)
      ⟨looping.known, stopping⟩
  obtain ⟨after, -, present', -, opens⟩ := both.2.opens
  exact ⟨before, after, present, present', Nat.le_of_add_right_le opens⟩

/-! ## A publisher whose client never fails -/

def PublisherOp.answer (w : PublisherWorld) : (op : PublisherOp) → Option op.Reply
  | loadRunning => some w.running
  | lockChannel => if w.locked then none else some w.channel
  | takeChannel => some w.channel
  | isOpen channel => some (decide (channel ∈ w.alive))
  | isConnectionOpen channel => some (decide (channel ∈ w.connected))
  | getConnection => some w.connection
  | openChannel _ => some (.ok (w.opened.foldr max 0 + 1))
  | exchangeDeclare channel _ | basicPublish channel _ _ =>
    some (if channel ∈ w.alive ∧ channel ∈ w.connected then .ok () else .error "closed")
  | close _ => some (.ok ())
  | storeRunning _ | unlockChannel | storeChannel _ | sleep _ => some ()

theorem allowed_of_publisherAnswer {w : PublisherWorld} {op : PublisherOp} {reply : op.Reply}
    (answered : op.answer w = some reply) : PublisherAct.Allowed w ⟨op, reply⟩ := by
  cases op with
  | lockChannel =>
    simp only [PublisherOp.answer] at answered
    split at answered
    · cases answered
    · next free =>
      cases answered
      exact ⟨Bool.eq_false_iff.mpr free, rfl⟩
  | openChannel =>
    cases answered
    exact fun taken => Nat.not_succ_le_self _ (le_foldr_max taken)
  | exchangeDeclare | basicPublish =>
    simp only [PublisherOp.answer, Option.some.injEq] at answered
    subst answered
    split
    · next live => exact live
    · trivial
  | loadRunning | takeChannel | isOpen | isConnectionOpen | getConnection =>
    cases answered
    rfl
  | _ => trivial

/-- The publisher of the scheduler, of which one more method is called. -/
def calling (kind : PublisherTask) (pool : Publishing) : Publishing :=
  ⟨pool.world, pool.tasks ++ [⟨kind, [], (publisher (getPublisherConfig .jobPublisher)).body kind⟩]⟩

/-- The manager has a connection. -/
def connecting (pool : Publishing) : Publishing := ⟨{ pool.world with connection := some 0 }, pool.tasks⟩

abbrev samplePublisher : Publishing := startPublisher (getPublisherConfig .jobPublisher) 1

abbrev PublisherRun : Publishing → List PublishingEvent → Publishing → Prop :=
  Run (publisher (getPublisherConfig .jobPublisher)) fun _ _ => True

theorem run_calling {kind : PublisherTask} {pool target : Publishing} {events : List PublishingEvent}
    (called : ∀ passes, kind ≠ .run passes) (run : PublisherRun (calling kind pool) events target) :
    PublisherRun pool (.spawn kind :: events) target := .cons trivial (.spawn called) run

theorem run_connecting {pool target : Publishing} {events : List PublishingEvent}
    (run : PublisherRun (connecting pool) events target) : PublisherRun pool (.drift :: events) target :=
  .cons trivial (.drift ⟨some 0, pool.world.alive, pool.world.connected, List.Subset.refl _, List.Subset.refl _, rfl⟩) run

/-- A message is published on a new channel. -/
theorem exists_run_published : ∃ events pool, PublisherRun samplePublisher events pool ∧
    (1, sampleMessage 3 0, ⟨"job_exchange", "eu"⟩) ∈ pool.world.published ∧
    (1 ∈ pool.world.alive ∧ 1 ∈ pool.world.connected) ∧ 1 ∉ pool.world.unclosed := by
  obtain ⟨events, pool, run, published⟩ := exists_run_of_play (publisher (getPublisherConfig .jobPublisher))
    (fun w op => op.answer w) allowed_of_publisherAnswer
    (connecting (calling (.publish (sampleMessage 3 0) "eu") samplePublisher)) (List.replicate 7 1)
    (fun pool => (1, sampleMessage 3 0, ⟨"job_exchange", "eu"⟩) ∈ pool.world.published ∧
      (1 ∈ pool.world.alive ∧ 1 ∈ pool.world.connected) ∧ 1 ∉ pool.world.unclosed) (by decide +kernel)
  exact ⟨_, pool, run_calling (fun _ same => by cases same) (run_connecting run), published⟩

theorem publisher_oneChannel_first : ∃ events pool, PublisherRun samplePublisher events pool ∧
    1 ∈ pool.world.Serving ∧ pool.world.Serving.Subsingleton := by
  obtain ⟨events, pool, run, published, live, closable⟩ := exists_run_published
  have declared := ((outgoing_of_run run).declared 1 _ _ published).1
  exact ⟨events, pool, run, ⟨⟨_, declared⟩, live, closable⟩, publisher_oneChannel _ _ run⟩

theorem publisher_publishes_first : ∃ events pool, PublisherRun samplePublisher events pool ∧
    (1, sampleMessage 3 0, ⟨"job_exchange", "eu"⟩) ∈ pool.world.published ∧
    pool.world.Declares (getPublisherConfig .jobPublisher) 1 ∧
    (pool.world.published.map (·.2)).Perm (pool.tasks.filterMap fun task => sentIn task.log) := by
  obtain ⟨events, pool, run, published, -⟩ := exists_run_published
  obtain ⟨declared, once, -⟩ := publisher_publishes _ _ run
  exact ⟨events, pool, run, published, (declared 1 _ _ published).1, once⟩

/-- The loop has begun a pass when the publisher is closed, and goes on to open a channel. -/
theorem publisher_stops_late : ∃ events later pool target before after, PublisherRun samplePublisher events pool ∧
    pool.world.running = false ∧ PublisherRun pool later target ∧ target.world.opened = [1] ∧
    pool.tasks[0]? = some before ∧ target.tasks[0]? = some after ∧ opensIn after.log ≤ opensIn before.log + 1 := by
  obtain ⟨first, begun, begins, closes⟩ := exists_run_of_play (publisher (getPublisherConfig .jobPublisher))
    (fun w op => op.answer w) allowed_of_publisherAnswer samplePublisher [0]
    (fun begun => ((publisher (getPublisherConfig .jobPublisher)).play (fun w op => op.answer w)
      (calling .closeChannel begun) (List.replicate 4 1)).any fun pool => pool.world.running = false ∧
        ((publisher (getPublisherConfig .jobPublisher)).play (fun w op => op.answer w) (connecting pool)
          (List.replicate 6 0)).any fun target => target.world.opened = [1]) (by decide +kernel)
  obtain ⟨second, pool, run, stopped, opens⟩ := exists_run_of_play (publisher (getPublisherConfig .jobPublisher))
    (fun w op => op.answer w) allowed_of_publisherAnswer (calling .closeChannel begun) (List.replicate 4 1) _ closes
  obtain ⟨third, target, after, opened⟩ := exists_run_of_play (publisher (getPublisherConfig .jobPublisher))
    (fun w op => op.answer w) allowed_of_publisherAnswer (connecting pool) (List.replicate 6 0) _ opens
  have reached := begins.append (run_calling (fun _ same => by cases same) run)
  have later := run_connecting after
  obtain ⟨before, last, present, present', few⟩ := publisher_stops _ _ reached stopped later
  exact ⟨_, _, pool, target, before, last, reached, stopped, later, opened, present, present', few⟩

end Bms
