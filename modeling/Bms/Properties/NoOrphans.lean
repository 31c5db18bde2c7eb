import Bms.Model.Replay
import Bms.Protocol.Scaling

/-! # No orphaned capacity

What ticks have scaled up is to be found again by the descaler, through a row of the service with a
deadline. Three requests and the descaler take rows or deadlines away without looking at the count
any more; they leave nothing behind if nobody has raised the count, or is about to, when they do.
-/

namespace Bms

open Process

/-- A row of the target with a deadline, so that the descaler will take the target down. -/
def Covered (registry : ServiceScalerRegistry) (w : World) (addressed : Target) : Prop :=
  ∃ id row, w.services.find? id = some row ∧ registry.targetOf row = some addressed ∧ row.descaleAt.isSome

/-- A tick has set the count of the target. -/
def ScaledByTick (pool : System) (addressed : Target) : Prop :=
  ∃ task ∈ pool.tasks, task.kind = .subJobTick ∧
    ∃ made ∈ task.log, ∃ service count, Act.scaled? made = some (service, addressed, count)

/-- The tasks that read or write services. -/
def Kind.HandlesServices : Kind → Prop
  | .subJobTick | .descalerPass | .scaleDown .. | .scaleDownAll | .deleteService _ | .updateService .. => True
  | _ => False

/-- In every state in which no task handles services, the targets that ticks have scaled and that are not
down are covered. Nobody scales up by hand. -/
def NoOrphans (registry : ServiceScalerRegistry) (ok : System → SystemEvent → Prop) : Prop :=
  ∀ {source target : System} {events : List SystemEvent} (addressed : Target), Initial source →
    Run (platform registry) (fun pool event => (∀ serviceId amount, event ≠ .spawn (.scaleUp serviceId amount)) ∧
      ok pool event) source events target →
    (∀ task ∈ target.tasks, task.kind.HandlesServices → ¬ task.InFlight) →
    ScaledByTick target addressed → 0 < target.world.desired addressed → Covered registry target.world addressed

/-- The services that a tick may still raise, once their deadlines are set. -/
def ScalePhase.pending : ScalePhase → List Service
  | scaling _ _ remaining => remaining
  | raising _ _ service remaining _ _ => service :: remaining
  | _ => []

/-- A target that is down if ticks have scaled it, and that nobody is about to raise. -/
structure Unneeded (registry : ServiceScalerRegistry) (pool : System) (addressed : Target) : Prop where
  down : ScaledByTick pool addressed → pool.world.desired addressed ≤ 0
  requests : ScaledByTick pool addressed → ∀ task ∈ pool.tasks, ∀ op next service count, task.rest = .call op next →
    op.scale? = some (service, addressed, count) → count ≤ 0
  ticks : ∀ position phase service, (scaleMonitor registry).At pool position .subJobTick phase →
    service ∈ phase.pending → registry.targetOf service ≠ some addressed

/-- Deadlines and rows are only taken away of targets that are unneeded; a row is not deleted while a tick
that has listed it has not set its deadline. -/
structure Releases (registry : ServiceScalerRegistry) (pool : System) (event : SystemEvent) : Prop where
  clears : ∀ position serviceId done row addressed,
    event = .call position ⟨.sql (.clearDescaleDeadline serviceId), .ok done⟩ →
    pool.world.services.find? serviceId = some row → registry.targetOf row = some addressed →
    Unneeded registry pool addressed
  deletes : ∀ position serviceId done row addressed,
    event = .call position ⟨.sql (.deleteServiceById serviceId), .ok done⟩ →
    pool.world.services.find? serviceId = some row → registry.targetOf row = some addressed →
    Unneeded registry pool addressed
  unlisted : ∀ position serviceId done other subJob services,
    event = .call position ⟨.sql (.deleteServiceById serviceId), .ok done⟩ →
    (scaleMonitor registry).At pool other .subJobTick (.listed subJob services) →
    ∀ service ∈ services, service.id ≠ serviceId

/-! ## What a step does to services and counts -/

variable {registry : ServiceScalerRegistry} {source target : System} {event : SystemEvent}

/-- A row of a service goes on to address the same, and keeps its deadline, unless it is cleared or deleted. -/
inductive ServiceStep (event : SystemEvent) (w : World) (row : Service) : Prop
  | kept {later : Service} (found : w.services.find? row.id = some later) (name : later.name = row.name)
      (providerType : later.providerType = row.providerType) (details : later.details = row.details)
      (deadline : row.descaleAt.isSome → later.descaleAt.isSome)
  | cleared {later : Service} (found : w.services.find? row.id = some later) (name : later.name = row.name)
      (providerType : later.providerType = row.providerType) (details : later.details = row.details)
      (clears : ∃ position done, event = .call position ⟨.sql (.clearDescaleDeadline row.id), .ok done⟩)
  | deleted (deletes : ∃ position done, event = .call position ⟨.sql (.deleteServiceById row.id), .ok done⟩)

theorem service_id {w : World} {id : Uuid} {row : Service} (found : w.services.find? id = some row) : row.id = id :=
  Table.key_of_find? found

theorem find?_updateServices (w : World) (test : Service → Bool) (change : Service → Service)
    (same : ∀ row, (change row).id = row.id) (id : Uuid) : (Stmt.updateServices w test change same).services.find? id =
      (w.services.find? id).map fun row => if test row then change row else row := by
  rw [Stmt.updateServices, Table.find?_updateWhere]

/-- Two rows that address the same. -/
theorem targetOf_congr {row later : Service} (name : later.name = row.name)
    (providerType : later.providerType = row.providerType) (details : later.details = row.details) :
    registry.targetOf later = registry.targetOf row := by
  simp only [ServiceScalerRegistry.targetOf, FargateScaler.regionAndCluster, name, providerType, details]

theorem service_call {w : World} {op : Op} {reply : op.Reply} {position : ℕ} {row : Service}
    (allowed : Act.Allowed w ⟨op, reply⟩) (found : w.services.find? row.id = some row) :
    ServiceStep (.call position ⟨op, reply⟩) (Act.after w ⟨op, reply⟩) row := by
  have kept {w' : World} (same : w'.services = w.services) : ServiceStep (.call position ⟨op, reply⟩) w' row :=
    .kept (by rw [same]; exact found) rfl rfl rfl id
  cases op with
  | sql stmt =>
    cases reply with
    | error e => exact kept rfl
    | ok result =>
      cases stmt with
      | createService name providerType details =>
        have fresh : w.services.find? result.id = none := allowed.1
        have other : result.id ≠ row.id := fun same => by
          rw [same, found] at fresh
          cases fresh
        refine .kept ?_ rfl rfl rfl id
        exact (Table.find?_insert_fresh fresh row.id).trans (by rw [if_neg other]; exact found)
      | deleteServiceById serviceId =>
        by_cases same : row.id = serviceId
        · subst same
          exact .deleted ⟨position, result, rfl⟩
        · refine .kept ?_ rfl rfl rfl id
          exact (Table.find?_deleteWhere ..).trans (by rw [found]; simp [same])
      | setDescaleDeadlines serviceIds deadline =>
        have later := find?_updateServices w (fun row => row.id ∈ serviceIds)
          (fun row => { row with descaleAt := some deadline.stored }) (fun _ => rfl) row.id
        rw [found, Option.map_some] at later
        by_cases listed : row.id ∈ serviceIds
        · rw [if_pos (by simpa using listed)] at later
          exact .kept later rfl rfl rfl fun _ => rfl
        · rw [if_neg (by simpa using listed)] at later
          exact .kept later rfl rfl rfl id
      | clearDescaleDeadline serviceId =>
        have later := find?_updateServices w (fun row => row.id = serviceId)
          (fun row => { row with descaleAt := none }) (fun _ => rfl) row.id
        rw [found, Option.map_some] at later
        by_cases same : row.id = serviceId
        · subst same
          rw [if_pos (by simp)] at later
          exact .cleared later rfl rfl rfl ⟨position, result, rfl⟩
        · rw [if_neg (by simpa using same)] at later
          exact .kept later rfl rfl rfl id
      | updateServiceSetEnabled serviceId isEnabled =>
        have later := find?_updateServices w (fun row => row.id = serviceId)
          (fun row => { row with isEnabled }) (fun _ => rfl) row.id
        rw [found, Option.map_some] at later
        by_cases same : row.id = serviceId
        · rw [if_pos (by simpa using same)] at later
          exact .kept later rfl rfl rfl id
        · rw [if_neg (by simpa using same)] at later
          exact .kept later rfl rfl rfl id
      | _ => exact kept rfl
  | updateService => rcases reply with _ | (_ | _) <;> exact kept rfl
  | dockerComposeUp | publishJob | publishResult | publishStatus => cases reply <;> exact kept rfl
  | _ => exact kept rfl

theorem service_step (step : Step (platform registry) source event target) {row : Service}
    (found : source.world.services.find? row.id = some row) : ServiceStep event target.world row := by
  cases step with
  | @spawn kind admitted =>
    refine .kept ?_ rfl rfl rfl id
    cases kind <;> exact found
  | call present awaits allowed => exact service_call allowed found
  | drift drifts =>
    obtain ⟨now, rfl⟩ := drifts
    exact .kept found rfl rfl rfl id

/-- A call that takes a deadline or a row of the target away. -/
def TakesAway (registry : ServiceScalerRegistry) (pool : System) (event : SystemEvent) (addressed : Target) : Prop :=
  ∃ position serviceId row done, pool.world.services.find? serviceId = some row ∧
    registry.targetOf row = some addressed ∧
    (event = .call position ⟨.sql (.clearDescaleDeadline serviceId), .ok done⟩ ∨
      event = .call position ⟨.sql (.deleteServiceById serviceId), .ok done⟩)

theorem Releases.unneeded {addressed : Target} (releases : Releases registry source event)
    (takes : TakesAway registry source event addressed) : Unneeded registry source addressed := by
  obtain ⟨position, serviceId, row, done, found, same, clears | deletes⟩ := takes
  · exact releases.clears position serviceId done row addressed clears found same
  · exact releases.deletes position serviceId done row addressed deletes found same

/-- A covered target stays so unless its deadline or its row is taken away. -/
theorem covered_step (step : Step (platform registry) source event target) {addressed : Target}
    (covered : Covered registry source.world addressed) :
    Covered registry target.world addressed ∨ TakesAway registry source event addressed := by
  obtain ⟨id, row, found, same, due⟩ := covered
  obtain rfl := service_id found
  cases service_step step found with
  | kept found' name providerType details deadline =>
    exact .inl ⟨row.id, _, found', (targetOf_congr name providerType details).trans same, deadline due⟩
  | cleared found' name providerType details clears =>
    obtain ⟨position, done, clears⟩ := clears
    exact .inr ⟨position, row.id, row, done, found, same, .inl clears⟩
  | deleted deletes =>
    obtain ⟨position, done, deletes⟩ := deletes
    exact .inr ⟨position, row.id, row, done, found, same, .inr deletes⟩

/-- The count of a target changes only by a call that sets it. -/
theorem desired_call (w : World) (made : Act) (addressed : Target) :
    (Act.after w made).desired addressed = w.desired addressed ∨
      ∃ service count, made.scaled? = some (service, addressed, count) ∧
        (Act.after w made).desired addressed = count := by
  obtain ⟨op, reply⟩ := made
  have scales {service : Service} {other : Target} {count : ℤ}
      (scaled : Act.scaled? ⟨op, reply⟩ = some (service, other, count))
      (reached : Act.after w ⟨op, reply⟩ = Act.scaleTo w other count) :
      (Act.after w ⟨op, reply⟩).desired addressed = w.desired addressed ∨
        ∃ service count, Act.scaled? ⟨op, reply⟩ = some (service, addressed, count) ∧
          (Act.after w ⟨op, reply⟩).desired addressed = count := by
    rw [reached]
    by_cases same : addressed = other
    · subst same
      exact .inr ⟨service, count, scaled, if_pos rfl⟩
    · exact .inl (if_neg same)
  cases op with
  | sql stmt =>
    cases reply with
    | error e => exact .inl rfl
    | ok result => cases stmt <;> exact .inl rfl
  | updateService => rcases reply with _ | (_ | _) <;> first | exact scales rfl rfl | exact .inl rfl
  | dockerComposeUp => cases reply <;> first | exact scales rfl rfl | exact .inl rfl
  | publishJob | publishResult | publishStatus => cases reply <;> exact .inl rfl
  | _ => exact .inl rfl

theorem desired_step (step : Step (platform registry) source event target) (addressed : Target) :
    target.world.desired addressed = source.world.desired addressed ∨
      ∃ position made service count, event = .call position made ∧
        Act.scaled? made = some (service, addressed, count) ∧ target.world.desired addressed = count := by
  cases step with
  | @spawn kind admitted => cases kind <;> exact .inl rfl
  | @call position task op next reply present awaits allowed =>
    obtain same | ⟨service, count, scaled, reached⟩ := desired_call source.world ⟨op, reply⟩ addressed
    · exact .inl same
    · exact .inr ⟨position, _, service, count, rfl, scaled, reached⟩
  | drift drifts =>
    obtain ⟨now, rfl⟩ := drifts
    exact .inl rfl

/-- A target that ticks have scaled they had scaled before the step, or the step does. -/
theorem scaledByTick_step (step : Step (platform registry) source event target) {addressed : Target}
    (scaled : ScaledByTick target addressed) :
    ScaledByTick source addressed ∨ ∃ position task made service count, event = .call position made ∧
      source.tasks[position]? = some task ∧ task.kind = .subJobTick ∧
      Act.scaled? made = some (service, addressed, count) := by
  obtain ⟨task, member, tick, made, logged, service, count, scaled⟩ := scaled
  obtain ⟨position, present⟩ := List.mem_iff_getElem?.mp member
  obtain old | ⟨kind, -, -, rfl⟩ | ⟨before, op, next, reply, old, -, rfl, -, rfl⟩ := step.task_cases present
  · exact .inl ⟨task, List.mem_of_getElem? old, tick, made, logged, service, count, scaled⟩
  · cases logged
  · obtain earlier | now := List.mem_append.mp logged
    · exact .inl ⟨before, List.mem_of_getElem? old, tick, made, earlier, service, count, scaled⟩
    · rw [List.mem_singleton.mp now] at scaled
      exact .inr ⟨position, before, _, service, count, rfl, old, tick, scaled⟩

/-! ## The invariant -/

theorem ScalePhase.pending_note {phase : ScalePhase} {made : Act} {service : Service}
    (pending : service ∈ (phase.note made).pending) : service ∈ phase.pending ∨
      ∃ subJob services ids descaleAt done, phase = .listed subJob services ∧ service ∈ services ∧
        made = ⟨.sql (.setDescaleDeadlines ids descaleAt), .ok done⟩ := by
  unfold note at pending
  split at pending <;> grind [ScalePhase.pending]

theorem ScalePhase.listed_note {phase : ScalePhase} {made : Act} {subJob : SubJobWithJob} {services : List Service}
    (listed : phase.note made = .listed subJob services) : phase = .listed subJob services ∨
      ∃ topic, phase = .picked subJob ∧ made = ⟨.sql (.getServicesEnabledByTopic topic), .ok services⟩ := by
  unfold note at listed
  split at listed <;> first | exact .inl listed | (cases listed; exact .inr ⟨_, rfl, rfl⟩) | grind

/-- What is scaled by ticks and up, or is about to be, is covered; the rows of listed services exist. -/
structure Guarded (registry : ServiceScalerRegistry) (pool : System) : Prop where
  tracks : (scaleMonitor registry).TracksAll pool
  noHand : ∀ task ∈ pool.tasks, ¬ task.kind.Raises
  covered : ∀ addressed, ScaledByTick pool addressed → 0 < pool.world.desired addressed →
    Covered registry pool.world addressed
  requested : ∀ task ∈ pool.tasks, ∀ op next service addressed count, task.kind ≠ .subJobTick → task.rest = .call op next →
    op.scale? = some (service, addressed, count) → 0 < count → ScaledByTick pool addressed →
    Covered registry pool.world addressed
  pending : ∀ position phase service addressed, (scaleMonitor registry).At pool position .subJobTick phase →
    service ∈ phase.pending → registry.targetOf service = some addressed → Covered registry pool.world addressed
  listed : ∀ position subJob services, (scaleMonitor registry).At pool position .subJobTick (.listed subJob services) →
    ∀ service ∈ services, ∃ row, pool.world.services.find? service.id = some row ∧
      registry.targetOf row = registry.targetOf service

/-- What a tick requests is for a service that is pending. -/
theorem pending_of_scale {phase : ScalePhase} {op : Op} (tick : ¬ phase.Apart)
    (legal : ScaleLegal registry .subJobTick phase op) {service : Service} {addressed : Target} {count : ℤ}
    (asks : op.scale? = some (service, addressed, count)) :
    service ∈ phase.pending ∧ registry.targetOf service = some addressed := by
  cases legal with
  | apart => exact absurd ⟨_, rfl⟩ tick
  | other plain | prepare plain | plan plain => simp [plain.scale] at asks
  | count counts => cases op <;> first | (cases counts; done) | cases asks
  | raise asks' addressed' =>
    rw [asks] at asks'
    cases asks'
    exact ⟨List.mem_cons_self, addressed'⟩
  | _ => cases asks

/-- What another task requests is no more than what it has read last. -/
theorem read_of_scale {kind : Kind} {phase : ScalePhase} {op : Op} (other : kind ≠ .subJobTick) (noHand : ¬ kind.Raises)
    (legal : ScaleLegal registry kind phase op) {service : Service} {addressed : Target} {count : ℤ}
    (asks : op.scale? = some (service, addressed, count)) :
    ∃ found, phase = .apart (some (addressed, found)) ∧ count ≤ max found 0 := by
  cases legal with
  | apart lowers =>
    obtain ⟨found, rfl, lower⟩ := (lowers service addressed count asks).resolve_left noHand
    exact ⟨found, rfl, lower⟩
  | _ => exact absurd rfl other

/-- What a provider answers is the count, and reading it changes nothing. -/
theorem desired_of_counted {w : World} {made : Act} {service : Service} {addressed : Target} {found : ℤ}
    (counted : made.counted? = some (service, addressed, found)) (allowed : Act.Allowed w made) :
    w.desired addressed = found ∧ Act.after w made = w := by
  unfold Act.counted? at counted
  split at counted <;> cases counted
  · exact ⟨allowed.1.symm, rfl⟩
  · exact ⟨allowed.symm, rfl⟩

/-- What a tick scales is covered. -/
theorem Guarded.covered_of_tick (guarded : Guarded registry source) {position : ℕ} {made : Act}
    (step : Step (platform registry) source (.call position made) target) {task : SystemTask}
    (present : source.tasks[position]? = some task) (tick : task.kind = .subJobTick) {service : Service}
    {addressed : Target} {count : ℤ} (scales : made.scaled? = some (service, addressed, count)) :
    Covered registry source.world addressed := by
  cases step with
  | @call _ caller op next reply present' awaits allowed =>
    obtain rfl : task = caller := Option.some.inj (present.symm.trans present')
    have legal := (guarded.tracks position task present).legal awaits
    rw [tick] at legal
    obtain ⟨pending, same⟩ := pending_of_scale (not_apart_of_tick tick) legal (Act.scale_of_scaled scales)
    exact guarded.pending position _ service addressed ⟨task, present, ⟨op, next, awaits⟩, tick, rfl⟩ pending same

/-- What any task scales up is covered, if ticks have scaled it. -/
theorem Guarded.covered_of_scaled (guarded : Guarded registry source) {position : ℕ} {made : Act}
    (step : Step (platform registry) source (.call position made) target) {service : Service} {addressed : Target}
    {count : ℤ} (scales : made.scaled? = some (service, addressed, count)) (positive : 0 < count)
    (scaled : ScaledByTick target addressed) : Covered registry source.world addressed := by
  obtain earlier | ⟨position', task, made', service', count', same, present, tick, scales'⟩ := scaledByTick_step step scaled
  · cases id step with
    | @call _ task op next reply present awaits allowed =>
      by_cases tick : task.kind = .subJobTick
      · exact guarded.covered_of_tick step present tick scales
      · exact guarded.requested task (List.mem_of_getElem? present) op next service addressed count tick awaits
          (Act.scale_of_scaled scales) positive earlier
  · cases same
    exact guarded.covered_of_tick step present tick scales'

theorem not_takesAway_of_scaled {position : ℕ} {made : Act} {addressed : Target} (scales : made.scaled?.isSome) :
    ¬ TakesAway registry source (.call position made) addressed := by
  rintro ⟨position, serviceId, row, done, -, -, same | same⟩ <;> cases same <;> cases scales

theorem Guarded.covered_step (guarded : Guarded registry source) (releases : Releases registry source event)
    (step : Step (platform registry) source event target) {addressed : Target} (scaled : ScaledByTick target addressed)
    (up : 0 < target.world.desired addressed) : Covered registry target.world addressed := by
  have kept {position : ℕ} {made : Act} (same : event = .call position made) (scales : made.scaled?.isSome)
      (covered : Covered registry source.world addressed) : Covered registry target.world addressed := by
    subst same
    exact (Bms.covered_step step covered).resolve_right (not_takesAway_of_scaled scales)
  obtain same | ⟨position, made, service, count, rfl, scales, reached⟩ := desired_step step addressed
  · obtain earlier | ⟨position, task, made, service, count, rfl, present, tick, scales⟩ := scaledByTick_step step scaled
    · rw [same] at up
      apply (Bms.covered_step step (guarded.covered addressed earlier up)).resolve_right
      intro takes
      exact absurd ((releases.unneeded takes).down earlier) (not_le.mpr up)
    · exact kept rfl (by rw [scales]; rfl) (guarded.covered_of_tick step present tick scales)
  · exact kept rfl (by rw [scales]; rfl) (guarded.covered_of_scaled step scales (reached ▸ up) scaled)

theorem Guarded.requested_step (guarded : Guarded registry source) (releases : Releases registry source event)
    (step : Step (platform registry) source event target) {task : SystemTask} (member : task ∈ target.tasks) {op : Op}
    {next : op.Reply → Prog Calls Unit} {service : Service} {addressed : Target} {count : ℤ}
    (noHand : ∀ task ∈ target.tasks, ¬ task.kind.Raises) (other : task.kind ≠ .subJobTick)
    (awaits : task.rest = .call op next) (asks : op.scale? = some (service, addressed, count)) (positive : 0 < count)
    (scaled : ScaledByTick target addressed) : Covered registry target.world addressed := by
  obtain earlier | ⟨position, caller, made, service', count', rfl, present, tick, scales⟩ := scaledByTick_step step scaled
  · obtain ⟨position, present⟩ := List.mem_iff_getElem?.mp member
    obtain old | ⟨kind, rfl, -, rfl⟩ | ⟨before, op', next', reply, old, awaits', rfl, allowed, rfl⟩ := step.task_cases present
    · have member' := List.mem_of_getElem? old
      have covered := guarded.requested task member' op next service addressed count other awaits asks positive earlier
      apply (Bms.covered_step step covered).resolve_right
      intro takes
      exact absurd ((releases.unneeded takes).requests earlier task member' op next service count awaits asks)
        (not_le.mpr positive)
    · have legal := (guarded.tracks.step (scaleMonitor_covers registry) step position _ present).legal awaits
      obtain ⟨found, starts, -⟩ := read_of_scale other (noHand _ member) legal asks
      rw [Monitor.phase_fresh] at starts
      cases kind <;> cases starts
    · have legal := (guarded.tracks.step (scaleMonitor_covers registry) step position _ present).legal awaits
      obtain ⟨found, noted, lower⟩ := read_of_scale other (noHand _ member) legal asks
      rw [Monitor.phase_concat _ before.kind before.log ⟨op', reply⟩ before.rest] at noted
      obtain ⟨read, apart⟩ : ((scaleMonitor registry).phase before).Apart := ScalePhase.Apart.before ⟨_, noted⟩
      rw [show Monitor.phase _ ⟨before.kind, before.log, before.rest⟩ = .apart read from apart] at noted
      obtain ⟨⟨service', addressed', found'⟩, counted, same⟩ := Option.map_eq_some_iff.mp (ScalePhase.apart.inj noted)
      cases same
      obtain ⟨desired, unchanged⟩ := desired_of_counted counted allowed
      have covered := guarded.covered addressed earlier (by omega)
      cases step with
      | call =>
        change Covered registry (Act.after source.world _) addressed
        rwa [unchanged]
  · exact (Bms.covered_step step (guarded.covered_of_tick step present tick scales)).resolve_right
      (not_takesAway_of_scaled (by rw [scales]; rfl))

theorem Guarded.pending_step (guarded : Guarded registry source) (releases : Releases registry source event)
    (step : Step (platform registry) source event target) {position : ℕ} {phase : ScalePhase} {service : Service}
    {addressed : Target} (here : (scaleMonitor registry).At target position .subJobTick phase)
    (pending : service ∈ phase.pending) (same : registry.targetOf service = some addressed) :
    Covered registry target.world addressed := by
  have stays {phase : ScalePhase} (here : (scaleMonitor registry).At source position .subJobTick phase)
      (pending : service ∈ phase.pending) : Covered registry target.world addressed := by
    apply (Bms.covered_step step (guarded.pending position phase service addressed here pending same)).resolve_right
    exact fun takes => (releases.unneeded takes).ticks position phase service here pending same
  obtain ⟨old, -⟩ | ⟨-, rfl⟩ | ⟨before, op, reply, old, legal, rfl, rfl, allowed, reached⟩ := here.before guarded.tracks step
  · exact stays old pending
  · cases pending
  · obtain earlier | ⟨subJob, services, ids, descaleAt, done, rfl, member, made⟩ := ScalePhase.pending_note pending
    · exact stays old earlier
    · cases made
      cases legal with
      | plan plain => exact plain.elim
      | schedule =>
        obtain ⟨row, found, same'⟩ := guarded.listed position subJob services old service member
        have later := find?_updateServices source.world (fun row => row.id ∈ services.map (·.id))
          (fun row => { row with descaleAt := some descaleAt.stored }) (fun _ => rfl) service.id
        have due : row.id ∈ services.map (·.id) := List.mem_map.mpr ⟨service, member, (service_id found).symm⟩
        rw [found, Option.map_some, if_pos (by simpa using due)] at later
        rw [reached]
        exact ⟨service.id, _, later, (targetOf_congr rfl rfl rfl).trans (same'.trans same), rfl⟩

theorem Guarded.listed_step (guarded : Guarded registry source) (releases : Releases registry source event)
    (step : Step (platform registry) source event target) {position : ℕ} {subJob : SubJobWithJob} {services : List Service}
    (here : (scaleMonitor registry).At target position .subJobTick (.listed subJob services)) {service : Service}
    (member : service ∈ services) : ∃ row, target.world.services.find? service.id = some row ∧
      registry.targetOf row = registry.targetOf service := by
  have stays (here : (scaleMonitor registry).At source position .subJobTick (.listed subJob services)) :
      ∃ row, target.world.services.find? service.id = some row ∧ registry.targetOf row = registry.targetOf service := by
    obtain ⟨row, found, same⟩ := guarded.listed position subJob services here service member
    have own := service_id found
    rw [← own] at found
    cases service_step step found with
    | kept found' name providerType details deadline =>
      exact ⟨_, own ▸ found', (targetOf_congr name providerType details).trans same⟩
    | cleared found' name providerType details clears =>
      exact ⟨_, own ▸ found', (targetOf_congr name providerType details).trans same⟩
    | deleted deletes =>
      obtain ⟨other, done, deletes⟩ := deletes
      exact absurd own.symm (releases.unlisted other row.id done position subJob services deletes here service member)
  obtain ⟨old, -⟩ | ⟨-, starts⟩ | ⟨before, op, reply, old, legal, rfl, noted, allowed, reached⟩ :=
    here.before guarded.tracks step
  · exact stays old
  · cases starts
  · obtain rfl | ⟨topic, rfl, made⟩ := ScalePhase.listed_note noted.symm
    · exact stays old
    · cases made
      refine ⟨service, ?_, rfl⟩
      have listed : service ∈ source.world.enabledByTopic topic := (List.Perm.mem_iff allowed).mp member
      rw [reached]
      exact Table.find?_of_mem (List.mem_filter.mp listed).1

theorem noHand_step (noHand : ∀ task ∈ source.tasks, ¬ task.kind.Raises)
    (spawns : ∀ serviceId amount, event ≠ .spawn (.scaleUp serviceId amount))
    (step : Step (platform registry) source event target) : ∀ task ∈ target.tasks, ¬ task.kind.Raises := by
  intro task member raises
  obtain ⟨position, present⟩ := List.mem_iff_getElem?.mp member
  obtain old | ⟨kind, rfl, -, rfl⟩ | ⟨before, op, next, reply, old, -, -, -, rfl⟩ := step.task_cases present
  · exact noHand task (List.mem_of_getElem? old) raises
  · cases kind <;> first | exact raises.elim | exact spawns _ _ rfl
  · exact noHand before (List.mem_of_getElem? old) raises

theorem Guarded.step (guarded : Guarded registry source) (releases : Releases registry source event)
    (spawns : ∀ serviceId amount, event ≠ .spawn (.scaleUp serviceId amount))
    (step : Step (platform registry) source event target) : Guarded registry target where
  tracks := guarded.tracks.step (scaleMonitor_covers registry) step
  noHand := noHand_step guarded.noHand spawns step
  covered _ scaled up := guarded.covered_step releases step scaled up
  requested _ member _ _ _ _ _ other awaits asks positive scaled :=
    guarded.requested_step releases step member (noHand_step guarded.noHand spawns step) other awaits asks positive scaled
  pending _ _ _ _ here pending same := guarded.pending_step releases step here pending same
  listed _ _ _ here _ member := guarded.listed_step releases step here member

theorem Guarded.of_initial {pool : System} (initial : Initial pool) : Guarded registry pool := by
  have nowhere {position : ℕ} {phase : ScalePhase} : ¬ (scaleMonitor registry).At pool position .subJobTick phase := by
    rintro ⟨task, present, -⟩
    simp [initial.tasks] at present
  refine ⟨Monitor.tracksAll_of_empty initial.tasks, by simp [initial.tasks], fun _ scaled => ?_, by simp [initial.tasks],
    fun _ _ _ _ here => absurd here nowhere, fun _ _ _ here => absurd here nowhere⟩
  obtain ⟨task, member, -⟩ := scaled
  simp [initial.tasks] at member

theorem noOrphans_of_releases (registry : ServiceScalerRegistry) : NoOrphans registry (Releases registry) := by
  intro source target events addressed initial run still scaled up
  have guarded : Guarded registry target := by
    refine run.invariant (fun guarded meets step => ?_) (Guarded.of_initial initial)
    exact guarded.step meets.2 meets.1 step
  exact guarded.covered addressed scaled up

/-! ## Runs of the sample -/

/-- Where the count of the sample service stands. -/
def sampleTarget : Target := .fargate "eu-west-1" "bms" "eu-workers"

/-- Nobody scales up by hand, and no deadline and no row is taken away. -/
def takesNothing (_ : System) : SystemEvent → Bool
  | .spawn (.scaleUp ..) => false
  | .call _ ⟨.sql (.clearDescaleDeadline _), _⟩ | .call _ ⟨.sql (.deleteServiceById _), _⟩ => false
  | _ => true

theorem releases_of_takesNothing (registry : ServiceScalerRegistry) {pool : System} {event : SystemEvent}
    (check : takesNothing pool event = true) :
    (∀ serviceId amount, event ≠ .spawn (.scaleUp serviceId amount)) ∧ Releases registry pool event := by
  refine ⟨?_, ?_, ?_, ?_⟩
  · rintro serviceId amount rfl
    cases check
  · rintro position serviceId done row addressed rfl
    cases check
  · rintro position serviceId done row addressed rfl
    cases check
  · rintro position serviceId done other subJob services rfl
    cases check

/-- Computes `Kind.HandlesServices`. -/
def Kind.handlesServices : Kind → Bool
  | .subJobTick | .descalerPass | .scaleDown .. | .scaleDownAll | .deleteService _ | .updateService .. => true
  | _ => false

theorem not_inFlight_of_still {pool : System} (still : idle Kind.handlesServices pool = true) :
    ∀ task ∈ pool.tasks, task.kind.HandlesServices → ¬ task.InFlight := by
  intro task member handles
  apply not_inFlight_of_idle still member
  cases kind : task.kind <;> rw [kind] at handles <;> first | rfl | exact handles.elim

/-- Computes `ScaledByTick`. -/
def scalesByTick (pool : System) (addressed : Target) : Bool := pool.tasks.any fun task =>
  decide (task.kind = .subJobTick) && task.log.any fun made => (Act.scaled? made).any fun asked => asked.2.1 = addressed

theorem scaledByTick_of_scalesByTick {pool : System} {addressed : Target} (scales : scalesByTick pool addressed = true) :
    ScaledByTick pool addressed := by
  obtain ⟨task, member, scales⟩ := List.any_eq_true.mp scales
  obtain ⟨tick, scales⟩ := (Bool.and_eq_true ..).mp scales
  obtain ⟨made, logged, scales⟩ := List.any_eq_true.mp scales
  obtain ⟨⟨service, other, count⟩, scaled, same⟩ := (Option.any_eq_true ..).mp scales
  obtain rfl : other = addressed := of_decide_eq_true same
  exact ⟨task, member, of_decide_eq_true tick, made, logged, service, count, scaled⟩

/-- Job 1 is created while no worker is online, and the tick at position 1 scales the service up. -/
def scaledUp : List Move := sampleCreation ++ sampleTick 1 10

/-- The tick has scaled the service up and is done. -/
theorem noOrphans_scaledUp : ∃ events target,
    Run (platform ⟨false⟩) (fun pool event => (∀ serviceId amount, event ≠ .spawn (.scaleUp serviceId amount)) ∧
      Releases ⟨false⟩ pool event) (sampleSystem .offline) events target ∧
      0 < target.world.desired sampleTarget ∧ Covered ⟨false⟩ target.world sampleTarget := by
  have replayed : ((replay ⟨false⟩ takesNothing (sampleSystem .offline) scaledUp).any fun target =>
      idle Kind.handlesServices target && scalesByTick target sampleTarget &&
        decide (0 < target.world.desired sampleTarget)) = true := by
    decide +kernel
  obtain ⟨events, target, run, found⟩ := exists_run_of_replay replayed
  obtain ⟨both, up⟩ := (Bool.and_eq_true ..).mp found
  obtain ⟨still, scales⟩ := (Bool.and_eq_true ..).mp both
  have run' := run.mono fun _ _ => releases_of_takesNothing ⟨false⟩
  exact ⟨events, target, run', of_decide_eq_true up, noOrphans_of_releases ⟨false⟩ sampleTarget
    (initial_sampleSystem .offline) run' (not_inFlight_of_still still) (scaledByTick_of_scalesByTick scales)
    (of_decide_eq_true up)⟩

/-- The service is deleted although the provider could not be asked to scale it down. -/
def deletedWhileUp : List Move := scaledUp ++ [.start (.deleteService 100), .go 2, .fail 2, .go 2]

/-- Jobs are created, ticks run and services are deleted. -/
def Kind.ofDeletions : Kind → Bool
  | .createJob _ | .subJobTick | .deleteService _ => true
  | _ => false

theorem not_noOrphans : ¬ NoOrphans ⟨false⟩ fun pool event => spawnsOnly Kind.ofDeletions pool event = true := by
  intro noOrphans
  have replayed : ((replay ⟨false⟩ (spawnsOnly Kind.ofDeletions) (sampleSystem .offline) deletedWhileUp).any fun target =>
      idle Kind.handlesServices target && scalesByTick target sampleTarget &&
        decide (0 < target.world.desired sampleTarget) && target.world.services.rows.isEmpty) = true := by
    decide +kernel
  obtain ⟨events, target, run, found⟩ := exists_run_of_replay replayed
  simp only [Bool.and_eq_true, decide_eq_true_eq, List.isEmpty_iff] at found
  obtain ⟨⟨⟨still, scales⟩, up⟩, gone⟩ := found
  have byHand : ∀ pool event, spawnsOnly Kind.ofDeletions pool event = true →
      (∀ serviceId amount, event ≠ .spawn (.scaleUp serviceId amount)) ∧ spawnsOnly Kind.ofDeletions pool event = true := by
    refine fun pool event check => ⟨?_, check⟩
    rintro serviceId amount rfl
    cases check
  obtain ⟨id, row, present, -⟩ := noOrphans sampleTarget (initial_sampleSystem .offline) (run.mono byHand)
    (not_inFlight_of_still still) (scaledByTick_of_scalesByTick scales) up
  have member := Table.mem_of_find? present
  simp [gone] at member

end Bms
