import Bms.Model.Replay
import Bms.Properties.NoOrphans
import Bms.Protocol.JobIds
import Bms.Protocol.Registration

/-! # Services and their topics

Three statements store a service, name its topics and relate the two, and in between anybody may delete it. A
service is nevertheless listed with none of its topics until the last statement has succeeded, and with exactly
those that have been asked for from then on; once it is deleted no relation is left.
-/

namespace Bms

open Process

/-- Only services that are there are related to topics, as the foreign key has it. -/
def World.Related (w : World) : Prop := ∀ pair ∈ w.serviceTopics.rows, (w.services.find? pair.1).isSome

instance (w : World) : Decidable w.Related := inferInstanceAs (Decidable (∀ pair ∈ w.serviceTopics.rows, _))

/-- How a service is served that has been asked for: as described if it is there, with its topics once the request
has been answered, and without a trace if it is gone. -/
structure ServedAs (w : World) (payload : CreateServiceInput) (service : Service) (answered : Prop) : Prop where
  columns : ∀ row, w.services.find? service.id = some row → row.name = payload.serviceName ∧
    row.providerType = payload.providerType ∧ serviceDetails payload = .ok row.details
  topics : ∀ topic, (service.id, topic) ∈ w.serviceTopics.rows ↔
    (w.services.find? service.id).isSome ∧ answered ∧ topic ∈ payload.topics

/-! ## What a step does to one service -/

section World

variable {registry : ServiceScalerRegistry} {source target : System} {event : SystemEvent}

/-- What a step does to the service of an id and to its topics. -/
inductive ServiceChange (source target : World) (event : SystemEvent) (id : Uuid) : Prop
  | kept (present : ∀ row, source.services.find? id = some row → ∃ later, target.services.find? id = some later ∧
        later.name = row.name ∧ later.providerType = row.providerType ∧ later.details = row.details)
      (absent : source.services.find? id = none → target.services.find? id = none)
      (topics : ∀ topic, (id, topic) ∈ target.serviceTopics.rows ↔ (id, topic) ∈ source.serviceTopics.rows)
  | stored {position : ℕ} {name : String} {providerType : ProviderType} {details : Json} {service : Service}
      (stores : event = .call position ⟨.sql (.createService name providerType details), .ok service⟩)
      (same : service.id = id) (none : source.services.find? id = none) (fresh : id ∉ source.uuids)
      (found : target.services.find? id = some service)
      (topics : ∀ topic, (id, topic) ∈ target.serviceTopics.rows ↔ (id, topic) ∈ source.serviceTopics.rows)
  | related {position : ℕ} {named : List String} {done : Unit}
      (relates : event = .call position ⟨.sql (.insertServiceTopics id named), .ok done⟩)
      (same : target.services = source.services)
      (topics : ∀ topic, (id, topic) ∈ target.serviceTopics.rows ↔
        (id, topic) ∈ source.serviceTopics.rows ∨ topic ∈ named ∧ topic ∈ source.topics.rows)
  | deleted {position : ℕ} {service : Service}
      (deletes : event = .call position ⟨.sql (.deleteServiceById id), .ok service⟩)
      (gone : target.services.find? id = none) (topics : ∀ topic, (id, topic) ∉ target.serviceTopics.rows)

/-- The relations after the statement that relates a service to topics. -/
theorem mem_insertServiceTopics {w : World} {serviceId id : Uuid} {named : List String} (done : Unit) {topic : String} :
    (id, topic) ∈ (Stmt.run w (.insertServiceTopics serviceId named) done).serviceTopics.rows ↔
      (id, topic) ∈ w.serviceTopics.rows ∨ serviceId = id ∧ topic ∈ named ∧ topic ∈ w.topics.rows := by
  change (id, topic) ∈ (((w.topics.rows.filter (· ∈ named)).foldl (fun table topic => table.insert (serviceId, topic))
    w.serviceTopics)).rows ↔ _
  rw [← List.foldl_map (f := fun topic => (serviceId, topic)) (g := Table.insert), Table.mem_rows_foldl_insert]
  refine or_congr_right ?_
  simp only [List.mem_map, List.mem_filter, decide_eq_true_eq, Prod.mk.injEq]
  constructor
  · rintro ⟨_, ⟨known, asked⟩, rfl, rfl⟩
    exact ⟨rfl, asked, known⟩
  · rintro ⟨rfl, asked, known⟩
    exact ⟨topic, ⟨known, asked⟩, rfl, rfl⟩

theorem serviceChange_call {w : World} {op : Op} {reply : op.Reply} (allowed : Act.Allowed w ⟨op, reply⟩) (position : ℕ)
    (id : Uuid) : ServiceChange w (Act.after w ⟨op, reply⟩) (.call position ⟨op, reply⟩) id := by
  have still {w' : World} (services : w'.services = w.services) (topics : w'.serviceTopics = w.serviceTopics) :
      ServiceChange w w' (.call position ⟨op, reply⟩) id := by
    refine .kept (fun row found => ⟨row, ?_, rfl, rfl, rfl⟩) (fun none => ?_) fun topic => by rw [topics]
    · rw [services, found]
    · rw [services, none]
  have updated (test : Service → Bool) (change : Service → Service) (same : ∀ row, (change row).id = row.id)
      (columns : ∀ row, (change row).name = row.name ∧ (change row).providerType = row.providerType ∧
        (change row).details = row.details) :
      ServiceChange w (Stmt.updateServices w test change same) (.call position ⟨op, reply⟩) id := by
    have later := find?_updateServices w test change same id
    refine .kept (fun row found => ?_) (fun none => ?_) fun topic => Iff.rfl
    · rw [found, Option.map_some] at later
      refine ⟨_, later, ?_⟩
      split
      · exact columns row
      · exact ⟨rfl, rfl, rfl⟩
    · rw [later, none, Option.map_none]
  cases op with
  | sql stmt =>
    cases reply with
    | error e => exact still rfl rfl
    | ok result =>
      cases stmt with
      | createService name providerType details =>
        have fresh : w.services.find? result.id = none := allowed.1
        have inserted := Table.find?_insert_fresh fresh id
        by_cases same : result.id = id
        · subst same
          rw [if_pos rfl] at inserted
          exact .stored rfl rfl fresh allowed.2.1 inserted fun _ => Iff.rfl
        · rw [if_neg same] at inserted
          exact .kept (fun row found => ⟨row, inserted.trans found, rfl, rfl, rfl⟩) (fun none => inserted.trans none)
            fun _ => Iff.rfl
      | insertServiceTopics serviceId named =>
        by_cases same : serviceId = id
        · subst same
          refine .related rfl rfl fun topic => ?_
          exact (mem_insertServiceTopics result).trans (or_congr_right (and_iff_right rfl))
        · refine .kept (fun row found => ⟨row, found, rfl, rfl, rfl⟩) (fun none => none) fun topic => ?_
          exact (mem_insertServiceTopics result).trans (or_iff_left fun other => same other.1)
      | deleteServiceById serviceId =>
        have later := Table.find?_deleteWhere w.services (fun row => row.id = serviceId) id
        by_cases same : serviceId = id
        · subst same
          refine .deleted rfl (later.trans ?_) fun topic member => ?_
          · cases found : w.services.find? serviceId with
            | none => rfl
            | some row => simp [service_id found]
          · have other := (List.mem_filter.mp member).2
            simp at other
        · refine .kept (fun row found => ⟨row, later.trans ?_, rfl, rfl, rfl⟩) (fun none => later.trans ?_) fun topic => ?_
          · have other : row.id ≠ serviceId := fun own => same (own.symm.trans (service_id found))
            rw [found]
            simp [other]
          · rw [none]
            rfl
          · refine List.mem_filter.trans (and_iff_left ?_)
            simpa using fun own => same own.symm
      | setDescaleDeadlines serviceIds deadline =>
        exact updated (fun row => row.id ∈ serviceIds) (fun row => { row with descaleAt := some deadline.stored }) (fun _ => rfl)
          fun _ => ⟨rfl, rfl, rfl⟩
      | clearDescaleDeadline serviceId =>
        exact updated (fun row => row.id = serviceId) (fun row => { row with descaleAt := none }) (fun _ => rfl)
          fun _ => ⟨rfl, rfl, rfl⟩
      | updateServiceSetEnabled serviceId isEnabled =>
        exact updated (fun row => row.id = serviceId) (fun row => { row with isEnabled }) (fun _ => rfl)
          fun _ => ⟨rfl, rfl, rfl⟩
      | _ => exact still rfl rfl
  | updateService => rcases reply with _ | (_ | _) <;> exact still rfl rfl
  | dockerComposeUp | publishJob | publishResult | publishStatus => cases reply <;> exact still rfl rfl
  | _ => exact still rfl rfl

theorem serviceChange_step (step : Step (platform registry) source event target) (id : Uuid) :
    ServiceChange source.world target.world event id := by
  cases step with
  | @spawn kind admitted =>
    have services : (enter source.world kind).services = source.world.services := by cases kind <;> rfl
    have topics : (enter source.world kind).serviceTopics = source.world.serviceTopics := by cases kind <;> rfl
    refine .kept (fun row found => ⟨row, ?_, rfl, rfl, rfl⟩) (fun none => ?_) fun topic => ?_
    · exact (congrArg (Table.find? · id) services).trans found
    · exact (congrArg (Table.find? · id) services).trans none
    · exact iff_of_eq (congrArg (fun table => (id, topic) ∈ Table.rows table) topics)
  | call present awaits allowed => exact serviceChange_call allowed _ id
  | drift drifts =>
    obtain ⟨now, rfl⟩ := drifts
    exact .kept (fun row found => ⟨row, found, rfl, rfl, rfl⟩) (fun none => none) fun _ => Iff.rfl

/-- The foreign key goes on to hold. -/
theorem related_step (step : Step (platform registry) source event target) (related : source.world.Related) :
    target.world.Related := by
  rintro ⟨id, topic⟩ member
  cases serviceChange_step step id with
  | kept present absent topics =>
    obtain ⟨row, found⟩ := Option.isSome_iff_exists.mp (related _ ((topics topic).mp member))
    obtain ⟨later, found', -⟩ := present row found
    exact found' ▸ rfl
  | stored stores same none fresh found topics => exact found ▸ rfl
  | @related position named done relates same topics =>
    rw [same]
    obtain old | ⟨asked, known⟩ := (topics topic).mp member
    · exact related _ old
    · subst relates
      cases step with
      | call present awaits allowed =>
        obtain there | unknown : (source.world.services.find? id).isSome ∨
          ∀ topic ∈ named, topic ∉ source.world.topics.rows := allowed
        · exact there
        · exact absurd known (unknown topic asked)
  | deleted deletes gone topics => exact absurd member (topics topic)

end World

/-! ## Requests and the services they have stored -/

/-- How far the task at a position has got with a registration. -/
def Got (pool : System) (position : ℕ) (phase : RegisterPhase) : Prop :=
  ∃ task, pool.tasks[position]? = some task ∧ registerMonitor.phase task = phase

section Requests

variable {registry : ServiceScalerRegistry} {source target : System} {event : SystemEvent} {position : ℕ}
  {phase : RegisterPhase} {payload : CreateServiceInput} {service : Service}

theorem Got.unique {pool : System} {other : RegisterPhase} (got : Got pool position phase) (got' : Got pool position other) :
    phase = other := by
  obtain ⟨task, present, rfl⟩ := got
  obtain ⟨task', present', rfl⟩ := got'
  rw [Option.some.inj (present.symm.trans present')]

/-- A task has got where it was before, unless the step is its own. -/
theorem Got.before (tracks : registerMonitor.TracksAll source) (step : Step (platform registry) source event target)
    (got : Got target position phase) (busy : phase.registration = some (payload, service)) :
    (Got source position phase ∧ ∀ made, event ≠ .call position made) ∨
      ∃ kind before op reply, Got source position before ∧ RegisterLegal kind before op ∧
        event = .call position ⟨op, reply⟩ ∧ phase = before.note ⟨op, reply⟩ := by
  obtain ⟨task, present, rfl⟩ := got
  by_cases calls : ∃ made, event = .call position made
  · obtain ⟨made, rfl⟩ := calls
    obtain old | ⟨kind, same, -⟩ | ⟨before, op, next, reply, old, awaits, same, -, rfl⟩ := step.task_cases present
    · cases step with
      | @call _ caller op next reply found awaits allowed =>
        obtain rfl : task = caller := Option.some.inj (old.symm.trans found)
        have bound := (List.getElem?_eq_some_iff.mp found).1
        simp only [List.getElem?_set_self bound, Option.some.injEq] at present
        have longer := congrArg (fun task => task.log.length) present
        simp at longer
    · cases same
    · cases same
      exact .inr ⟨_, _, op, reply, ⟨before, old, rfl⟩, (tracks position before old).legal awaits, rfl,
        registerMonitor.phase_concat ..⟩
  · have silent : ∀ made, event ≠ .call position made := fun made same => calls ⟨made, same⟩
    obtain old | ⟨kind, -, -, rfl⟩ | ⟨_, op, _, reply, -, -, same, -⟩ := step.task_cases present
    · exact .inl ⟨⟨task, old, rfl⟩, silent⟩
    · cases kind <;> cases busy
    · exact absurd same (silent _)

/-- A topic that has a name keeps it. -/
theorem topics_grow (step : Step (platform registry) source event target) :
    source.world.topics.rows ⊆ target.world.topics.rows := by
  have still {w : World} (same : w.topics = source.world.topics) : source.world.topics.rows ⊆ w.topics.rows :=
    same ▸ List.Subset.refl _
  cases step with
  | @spawn kind admitted => cases kind <;> exact still rfl
  | drift drifts =>
    obtain ⟨now, rfl⟩ := drifts
    exact still rfl
  | @call position task op next reply present awaits allowed =>
    cases op with
    | sql stmt =>
      cases reply with
      | error e => exact still rfl
      | ok row =>
        cases stmt with
        | insertTopics topics => exact fun topic known => Table.mem_rows_foldl_insert.mpr (.inl known)
        | _ => exact still rfl
    | updateService => rcases reply with _ | (_ | _) <;> exact still rfl
    | dockerComposeUp | publishJob | publishResult | publishStatus => cases reply <;> exact still rfl
    | _ => exact still rfl

/-- What is known of every service that a request has stored. -/
structure Registered (pool : System) : Prop where
  tracks : registerMonitor.TracksAll pool
  related : pool.world.Related
  drawn : ∀ position phase payload service, Got pool position phase → phase.registration = some (payload, service) →
    service.id ∈ pool.world.uuids ∧ payload.topics ≠ []
  /-- two requests have stored different services -/
  own : ∀ position other phase phase' payload payload' service service', Got pool position phase →
    Got pool other phase' → phase.registration = some (payload, service) →
    phase'.registration = some (payload', service') → service.id = service'.id → position = other
  known : ∀ position payload service, Got pool position (.named payload service) →
    payload.topics ⊆ pool.world.topics.rows
  served : ∀ position phase payload service, Got pool position phase → phase.registration = some (payload, service) →
    ServedAs pool.world payload service phase.Answered

/-- A service that is stored after a step was stored before, or its request has just stored or related it. -/
theorem Registered.cases_of_got (registered : Registered source) (step : Step (platform registry) source event target)
    (got : Got target position phase) (busy : phase.registration = some (payload, service)) :
    (∃ before, Got source position before ∧ before.registration = some (payload, service) ∧
        (phase.Answered ↔ before.Answered) ∧
        ∀ caller named done, event ≠ .call caller ⟨.sql (.insertServiceTopics service.id named), .ok done⟩) ∨
      (Got source position (.named payload service) ∧ phase = .related payload service ∧
        ∃ done, event = .call position ⟨.sql (.insertServiceTopics service.id payload.topics), .ok done⟩) ∨
      ((∀ other, Got source position other → other.registration = none) ∧ phase = .stored payload service ∧
        payload.topics ≠ [] ∧ ∃ details, serviceDetails payload = .ok details ∧ event = .call position
          ⟨.sql (.createService payload.serviceName payload.providerType details), .ok service⟩) := by
  have relating {caller : ℕ} {named : List String} {done : Unit}
      (relates : event = .call caller ⟨.sql (.insertServiceTopics service.id named), .ok done⟩) {before : RegisterPhase}
      (there : Got source position before) (stored : before.registration = some (payload, service)) :
      caller = position := by
    subst relates
    obtain ⟨kind, phase', here, legal, -, -⟩ := registered.tracks.legal step
    obtain ⟨task, present, -, -, rfl⟩ := here
    generalize held : registerMonitor.phase task = phase' at legal
    generalize own : service.id = id at legal
    cases legal with
    | other plain => exact absurd trivial plain
    | relate => exact registered.own _ _ _ _ _ _ _ _ ⟨task, present, held⟩ there rfl stored own.symm
  obtain ⟨there, silent⟩ | ⟨kind, before, op, reply, there, legal, rfl, rfl⟩ := got.before registered.tracks step busy
  · refine .inl ⟨phase, there, busy, Iff.rfl, fun caller named done relates => ?_⟩
    obtain rfl := relating relates there busy
    exact silent _ relates
  · cases legal with
    | other plain => cases busy
    | store some described =>
      cases reply with
      | error e => cases busy
      | ok row =>
        cases busy
        exact .inr (.inr ⟨fun other here => by rw [here.unique there]; rfl, rfl, some, _, described, rfl⟩)
    | name =>
      cases reply with
      | error e => exact .inl ⟨_, there, busy, Iff.rfl, fun _ _ _ same => by cases same⟩
      | ok done =>
        cases busy
        exact .inl ⟨_, there, rfl, Iff.rfl, fun _ _ _ same => by cases same⟩
    | relate =>
      cases reply with
      | error e =>
        refine .inl ⟨_, there, busy, Iff.rfl, fun caller named done same => ?_⟩
        obtain ⟨-, same⟩ := Event.call.inj same
        have fails := congrArg Act.fails same
        cases fails
      | ok done =>
        cases busy
        exact .inr (.inl ⟨there, rfl, done, rfl⟩)

/-- What is left alone goes on to be served so. -/
theorem ServedAs.kept {w w' : World} {answered : Prop} (served : ServedAs w payload service answered)
    (present : ∀ row, w.services.find? service.id = some row → ∃ later, w'.services.find? service.id = some later ∧
      later.name = row.name ∧ later.providerType = row.providerType ∧ later.details = row.details)
    (absent : w.services.find? service.id = none → w'.services.find? service.id = none)
    (topics : ∀ topic, (service.id, topic) ∈ w'.serviceTopics.rows ↔ (service.id, topic) ∈ w.serviceTopics.rows) :
    ServedAs w' payload service answered := by
  cases found : w.services.find? service.id with
  | none =>
    have gone := absent found
    refine ⟨fun row there => ?_, fun topic => (topics topic).trans ((served.topics topic).trans ?_)⟩
    · rw [gone] at there
      cases there
    · rw [found, gone]
  | some row =>
    obtain ⟨later, found', name, providerType, details⟩ := present row found
    refine ⟨fun other there => ?_, fun topic => (topics topic).trans ((served.topics topic).trans ?_)⟩
    · obtain rfl := Option.some.inj (found'.symm.trans there)
      rw [name, providerType, details]
      exact served.columns row found
    · rw [found, found']
      exact Iff.rfl

theorem Registered.served_step (registered : Registered source) (step : Step (platform registry) source event target)
    (got : Got target position phase) (busy : phase.registration = some (payload, service)) :
    ServedAs target.world payload service phase.Answered := by
  obtain ⟨before, there, stored, same, silent⟩ | ⟨there, rfl, done, rfl⟩ | ⟨-, rfl, -, details, described, rfl⟩ :=
    registered.cases_of_got step got busy
  · have served := registered.served _ _ _ _ there stored
    rw [same]
    cases serviceChange_step step service.id with
    | kept present absent topics => exact served.kept present absent topics
    | stored stores own none fresh => exact absurd (registered.drawn _ _ _ _ there stored).1 fresh
    | related relates => exact absurd relates (silent _ _ _)
    | deleted deletes gone topics =>
      refine ⟨fun row found => ?_, fun topic => iff_of_false (topics topic) fun asked => ?_⟩
      · rw [gone] at found
        cases found
      · rw [gone] at asked
        cases asked.1
  · have served := registered.served _ _ _ _ there rfl
    have named := registered.known _ _ _ there
    obtain ⟨-, some⟩ := registered.drawn _ _ _ _ there rfl
    cases step with
    | call present awaits allowed =>
      obtain ⟨topic, first⟩ := List.exists_mem_of_ne_nil _ some
      obtain isThere | unknown : (source.world.services.find? service.id).isSome ∨
        ∀ topic ∈ payload.topics, topic ∉ source.world.topics.rows := allowed
      · refine ⟨served.columns, fun topic => (mem_insertServiceTopics done).trans ?_⟩
        rw [served.topics topic]
        constructor
        · rintro (⟨-, ⟨⟩, -⟩ | ⟨-, asked, -⟩)
          exact ⟨isThere, trivial, asked⟩
        · exact fun asked => .inr ⟨rfl, asked.2.2, named asked.2.2⟩
      · exact absurd (named first) (unknown topic first)
  · cases step with
    | call present awaits allowed =>
      obtain ⟨none, -, columns⟩ := allowed
      have inserted := Table.find?_insert_fresh none service.id
      rw [if_pos rfl] at inserted
      refine ⟨fun row found => ?_, fun topic => iff_of_false (fun member => ?_) fun asked => asked.2.1⟩
      · obtain rfl : service = row := Option.some.inj (inserted.symm.trans found)
        rw [columns]
        exact ⟨rfl, rfl, described⟩
      · have there := registered.related _ member
        rw [none] at there
        cases there

theorem Registered.step (registered : Registered source) (step : Step (platform registry) source event target) :
    Registered target where
  tracks := registered.tracks.step (registerMonitor_covers registry) step
  related := related_step step registered.related
  drawn position phase payload service got busy := by
    obtain ⟨before, there, stored, -⟩ | ⟨there, -⟩ | ⟨-, -, some, details, -, rfl⟩ := registered.cases_of_got step got busy
    · have drawn := registered.drawn _ _ _ _ there stored
      exact ⟨uuids_grow step drawn.1, drawn.2⟩
    · have drawn := registered.drawn _ _ _ _ there rfl
      exact ⟨uuids_grow step drawn.1, drawn.2⟩
    · cases step with
      | call present awaits allowed => exact ⟨List.mem_cons_self .., some⟩
  own position other phase phase' payload payload' service service' got got' busy busy' same := by
    -- a service that is stored by this step has an id that nobody has drawn
    have old {position : ℕ} {phase : RegisterPhase} {payload : CreateServiceInput} {service : Service}
        (got : Got target position phase) (busy : phase.registration = some (payload, service)) :
        (∃ before, Got source position before ∧ before.registration = some (payload, service)) ∨
          (service.id ∉ source.world.uuids ∧ ∃ made, event = .call position made) := by
      obtain ⟨before, there, stored, -⟩ | ⟨there, -⟩ | ⟨-, -, -, details, -, rfl⟩ := registered.cases_of_got step got busy
      · exact .inl ⟨before, there, stored⟩
      · exact .inl ⟨_, there, rfl⟩
      · cases step with
        | call present awaits allowed => exact .inr ⟨allowed.2.1, _, rfl⟩
    obtain ⟨before, there, stored⟩ | ⟨fresh, made, calls⟩ := old got busy <;>
      obtain ⟨before', there', stored'⟩ | ⟨fresh', made', calls'⟩ := old got' busy'
    · exact registered.own _ _ _ _ _ _ _ _ there there' stored stored' same
    · exact absurd (same ▸ (registered.drawn _ _ _ _ there stored).1) fresh'
    · exact absurd (same ▸ (registered.drawn _ _ _ _ there' stored').1) fresh
    · rw [calls] at calls'
      exact (Event.call.inj calls').1
  known position payload service got := by
    obtain ⟨there, -⟩ | ⟨kind, before, op, reply, there, legal, rfl, same⟩ := got.before registered.tracks step rfl
    · exact fun topic asked => topics_grow step (registered.known _ _ _ there asked)
    · cases legal with
      | other plain => cases same
      | store => cases reply <;> cases same
      | name =>
        cases reply with
        | error e => cases same
        | ok done =>
          cases same
          cases step with
          | call present awaits allowed => exact fun topic asked => Table.mem_rows_foldl_insert.mpr (.inr asked)
      | relate =>
        cases reply with
        | error e =>
          cases same
          exact fun topic asked => topics_grow step (registered.known _ _ _ there asked)
        | ok done => cases same
  served _ _ _ _ got busy := registered.served_step step got busy

theorem Registered.of_initial {pool : System} (initial : Initial pool) (related : pool.world.Related) :
    Registered pool := by
  have empty {position : ℕ} {phase : RegisterPhase} : ¬ Got pool position phase := by
    rintro ⟨task, present, -⟩
    simp [initial.tasks] at present
  exact ⟨Monitor.tracksAll_of_empty initial.tasks, related, fun _ _ _ _ got => absurd got empty,
    fun _ _ _ _ _ _ _ _ got => absurd got empty, fun _ _ _ got => absurd got empty,
    fun _ _ _ _ got => absurd got empty⟩

end Requests

/-! ## What is listed -/

/-- The last statement of a request to create a service has succeeded. -/
def RelatesTopics (log : List Act) : Prop :=
  ∃ serviceId topics done, ⟨.sql (.insertServiceTopics serviceId topics), .ok done⟩ ∈ log

theorem mem_topicsOfService_iff {w : World} {id : Uuid} {topic : String} :
    topic ∈ w.topicsOfService id ↔ (id, topic) ∈ w.serviceTopics.rows := by
  constructor
  · intro listed
    obtain ⟨⟨id', topic⟩, related, rfl⟩ := List.mem_map.mp listed
    obtain ⟨there, own⟩ := List.mem_filter.mp related
    obtain rfl : id' = id := of_decide_eq_true own
    exact there
  · exact fun related => List.mem_map.mpr ⟨_, List.mem_filter.mpr ⟨related, decide_eq_true rfl⟩, rfl⟩

theorem mem_enabledByTopic_iff {w : World} {topic : String} {row : Service} :
    row ∈ w.enabledByTopic topic ↔
      w.services.find? row.id = some row ∧ row.isEnabled = true ∧ (row.id, topic) ∈ w.serviceTopics.rows := by
  rw [World.enabledByTopic, List.mem_filter, Bool.and_eq_true, decide_eq_true_eq, Table.find?_eq_some_iff]
  exact and_congr_left fun _ => (and_iff_left rfl).symm

/-- The request to list the services answers with every row that it has read, in order. -/
theorem withInfo_returns (registry : ServiceScalerRegistry) (services : List ServiceWithTopics) :
    (withInfo registry services).run.Returns fun reached => ∃ listed, reached = .ok listed ∧ listed.map (·.1) = services := by
  induction services with
  | nil => exact ⟨[], rfl, rfl⟩
  | cons service services ih =>
    have goes (serviceInfo : Option ServiceScalerInfo) :
        (withInfo registry services >>= fun others => pure ((service, serviceInfo) :: others)).run.Returns
          fun reached => ∃ listed, reached = .ok listed ∧ listed.map (·.1) = service :: services := by
      rw [ExceptT.run_bind]
      refine ih.bind ?_
      rintro _ ⟨listed, rfl, same⟩
      exact ⟨_, rfl, congrArg (service :: ·) same⟩
    unfold withInfo
    split
    · exact goes none
    · rw [ExceptT.run_bind, Fallible.optional, Fallible.run_mk, Prog.bind_bind]
      exact (Prog.returns_any _).bind fun reached _ => goes reached.toOption

/-- What a request to list the services answers that has selected them in a world. -/
def Lists (registry : ServiceScalerRegistry) (w : World) (listed : List (ServiceWithTopics × Option ServiceScalerInfo)) :
    Prop :=
  ∃ found log, Stmt.getServicesWithTopics.answers w found ∧
    (handleGetServices registry).run.Reaches (⟨.sql .getServicesWithTopics, .ok found⟩ :: log) (.ret (.ok listed))

/-- The rows that have been selected are listed. -/
theorem entries_of_lists {registry : ServiceScalerRegistry} {w : World}
    {listed : List (ServiceWithTopics × Option ServiceScalerInfo)} (lists : Lists registry w listed) :
    Stmt.getServicesWithTopics.answers w (listed.map (·.1)) := by
  obtain ⟨found, log, selected, run⟩ := lists
  cases run with
  | cons run =>
    obtain ⟨other, same, entries⟩ := (withInfo_returns registry found).of_reaches run
    cases same
    exact entries ▸ selected

/-- In every state of every run a service that a request has stored is listed, and found by ticks, as it has been asked
for, with its topics as soon as the request has been answered and without any before; every service is listed once, and
only services that are there are related to topics. -/
theorem services_served (registry : ServiceScalerRegistry) {ok : System → SystemEvent → Prop} {source target : System}
    {events : List SystemEvent} (initial : Initial source) (related : source.world.Related)
    (run : Run (platform registry) ok source events target) :
    (∀ listed, Lists registry target.world listed → (listed.map (·.1.toService)).Perm target.world.services.rows) ∧
      target.world.Related ∧ ∀ task ∈ target.tasks, ∀ name providerType details service,
        ⟨.sql (.createService name providerType details), .ok service⟩ ∈ task.log → ∃ payload,
          task.kind = .createService payload ∧
          (∀ listed, Lists registry target.world listed → ∀ entry ∈ listed, entry.1.id = service.id →
            entry.1.name = payload.serviceName ∧ entry.1.providerType = payload.providerType ∧
              serviceDetails payload = .ok entry.1.details ∧
              ∀ topic, topic ∈ entry.1.topics ↔ RelatesTopics task.log ∧ topic ∈ payload.topics) ∧
          (∀ topic row, row.id = service.id → (row ∈ target.world.enabledByTopic topic ↔
            target.world.services.find? service.id = some row ∧ row.isEnabled = true ∧ RelatesTopics task.log ∧
              topic ∈ payload.topics)) ∧
          (target.world.services.find? service.id = none →
            ∀ topic, (service.id, topic) ∉ target.world.serviceTopics.rows) := by
  have registered : Registered target :=
    run.invariant (fun registered _ step => registered.step step) (.of_initial initial related)
  refine ⟨fun listed lists => ?_, registered.related, fun task member name providerType details service logged => ?_⟩
  · have entries := (entries_of_lists lists).1
    rw [List.map_map] at entries
    exact entries
  · obtain ⟨position, present⟩ := List.mem_iff_getElem?.mp member
    have permits := (registered.tracks position task present).permits
    obtain ⟨payload, kind, stored⟩ := registration_of_logged permits logged
    have succeeded : (registerMonitor.phase task).Answered ↔ RelatesTopics task.log := answered_iff_logged permits
    have served := registered.served position _ payload service ⟨task, present, rfl⟩ stored
    refine ⟨payload, kind, fun listed lists entry shown own => ?_, fun topic row own => ?_, fun gone topic => ?_⟩
    · obtain ⟨services, topics⟩ := entries_of_lists lists
      have entryMember : entry.1 ∈ listed.map (·.1) := List.mem_map_of_mem (f := (·.1)) shown
      have there := services.mem_iff.mp (List.mem_map_of_mem (f := (·.toService)) entryMember)
      have found : target.world.services.find? service.id = some entry.1.toService := by
        rw [← own]
        exact Table.find?_of_mem there
      obtain ⟨name, providerType, details⟩ := served.columns entry.1.toService found
      refine ⟨name, providerType, details, fun topic => ?_⟩
      rw [(topics entry.1 entryMember).mem_iff, mem_topicsOfService_iff, own, served.topics topic, found, succeeded]
      exact and_iff_right rfl
    · rw [mem_enabledByTopic_iff, own, served.topics topic, succeeded]
      refine and_congr_right fun found => and_congr_right fun _ => ?_
      rw [found]
      exact and_iff_right rfl
    · rw [served.topics topic, gone]
      exact fun asked => by cases asked.1

def sampleServiceInput : CreateServiceInput where
  serviceName := "workers"
  providerType := .dockerLocal
  topics := ["eu", "us"]
  cluster := none
  region := none

/-- A service of two topics is created, one of which has a name already. -/
theorem services_served_created : ∃ events target row,
    Run (platform ⟨true⟩) (fun _ _ => True) (sampleSystem .online) events target ∧
      target.world.services.find? 7 = some row ∧
      ∀ topic, row ∈ target.world.enabledByTopic topic ↔ topic ∈ ["eu", "us"] := by
  have run : Run (platform ⟨true⟩) (fun _ _ => True) (sampleSystem .online)
      [.spawn (.createService sampleServiceInput),
        .call 0 ⟨.sql (.createService "workers" .dockerLocal (.obj [])),
          .ok ⟨7, "workers", .dockerLocal, .obj [], true, none⟩⟩,
        .call 0 ⟨.sql (.insertTopics ["eu", "us"]), .ok ()⟩,
        .call 0 ⟨.sql (.insertServiceTopics 7 ["eu", "us"]), .ok ()⟩] _ :=
    .cons trivial (.spawn fun solitary => absurd solitary (by decide)) <|
      .cons trivial (.call rfl rfl ⟨rfl, by decide, rfl⟩) <| .cons trivial (.call rfl rfl trivial) <|
        .cons trivial (.call rfl rfl (.inl rfl)) (.nil _)
  obtain ⟨-, -, each⟩ := services_served ⟨true⟩ (initial_sampleSystem .online) (by decide) run
  obtain ⟨payload, kind, -, found, -⟩ := each _ (List.mem_cons_self ..) _ _ _ _ (List.mem_cons_self ..)
  cases kind
  refine ⟨_, _, _, run, rfl, fun topic => (found topic _ rfl).trans ?_⟩
  refine ⟨fun listed => listed.2.2.2, fun asked => ⟨rfl, rfl, ⟨7, ["eu", "us"], (), ?_⟩, asked⟩⟩
  exact List.mem_cons_of_mem _ (List.mem_cons_of_mem _ (List.mem_cons_self ..))

end Bms
