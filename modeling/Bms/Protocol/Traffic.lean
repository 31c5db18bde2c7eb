import Bms.Protocol.Ticks

/-! # Messages in flight

Who sends which message. Job messages come from dispatching ticks, start messages from workers that
have received the job message, so both name a sub-job whose row exists.
-/

namespace Bms

open Process

variable {registry : ServiceScalerRegistry} {source target : System} {event : SystemEvent}

/-- A new job message is published by the tick that has recorded its workers. -/
theorem jobQueue_step (tracks : jobMonitor.TracksAll source) (step : Step (platform registry) source event target) :
    target.world.jobQueue = source.world.jobQueue ∨
      ∃ position subJob workers message done, At source position .subJobTick (.recorded subJob workers) ∧
        subJob.type = .combinedDHP ∧ subJob.status = .created ∧ message.subJobId = subJob.id ∧
        event = .call position
          ⟨.publishJob (.workerJob subJob.job.id message) subJob.job.routingKey, .ok done⟩ ∧
        target.world.jobQueue = (.workerJob subJob.job.id message, subJob.job.routingKey) :: source.world.jobQueue := by
  cases event with
  | spawn kind => exact .inl (sameJobs_of_step step fun _ _ same => by cases same).jobQueue
  | drift => exact .inl (sameJobs_of_step step fun _ _ same => by cases same).jobQueue
  | call position made =>
    obtain ⟨op, reply⟩ := made
    obtain ⟨kind, phase, here, legal, allowed, reached⟩ := legal_of_call tracks step
    rw [reached]
    cases legal with
    | quiet quiet => exact .inl (sameJobs_of_quiet _ reply quiet).jobQueue
    | publish measuring created =>
      cases reply with
      | error e => exact .inl rfl
      | ok done => exact .inr ⟨position, _, _, _, done, here, measuring, created, rfl, rfl, rfl⟩
    | drawJob | drawSubJob | drawRun => exact .inl rfl
    | _ => cases reply <;> exact .inl rfl

/-- A new start message is sent by a worker for the job message that it has received. -/
theorem statusQueue_step (tracks : jobMonitor.TracksAll source) (step : Step (platform registry) source event target)
    {workerName : String} {details : WorkerStatusJobDetails} {timestamp : DateTime}
    (sent : .workerStatus ⟨workerName, .job (some details), timestamp⟩ ∈ target.world.statusQueue) :
    .workerStatus ⟨workerName, .job (some details), timestamp⟩ ∈ source.world.statusQueue ∨
      ∃ position config jobId message, At source position (.jobDelivery config (.workerJob jobId message)) .aside ∧
        config.workerName = workerName ∧ details.subJobId = message.subJobId := by
  cases event with
  | spawn kind => exact .inl ((sameJobs_of_step step fun _ _ same => by cases same).statusQueue ▸ sent)
  | drift => exact .inl ((sameJobs_of_step step fun _ _ same => by cases same).statusQueue ▸ sent)
  | call position made =>
    obtain ⟨op, reply⟩ := made
    obtain ⟨kind, phase, here, legal, allowed, reached⟩ := legal_of_call tracks step
    rw [reached] at sent
    cases legal with
    | quiet quiet => exact .inl ((sameJobs_of_quiet _ reply quiet).statusQueue ▸ sent)
    | @announce config jobId message details' timestamp' own =>
      cases reply with
      | error e => exact .inl sent
      | ok done =>
        obtain same | old := List.mem_cons.mp sent
        · cases same
          exact .inr ⟨position, config, jobId, message, here, rfl, own details rfl⟩
        · exact .inl old
    | report other =>
      cases reply with
      | error e => exact .inl sent
      | ok done =>
        obtain same | old := List.mem_cons.mp sent
        · cases same
          exact absurd rfl (other _)
        · exact .inl old
    | drawJob | drawSubJob | drawRun => exact .inl sent
    | _ => cases reply <;> exact .inl sent

theorem queues_after (w : World) (made : Act) :
    w.jobQueue ⊆ (Act.after w made).jobQueue ∧ w.statusQueue ⊆ (Act.after w made).statusQueue := by
  obtain ⟨op, reply⟩ := made
  cases op with
  | sql stmt =>
    cases reply with
    | error e => exact ⟨List.Subset.refl _, List.Subset.refl _⟩
    | ok row => cases stmt <;> exact ⟨List.Subset.refl _, List.Subset.refl _⟩
  | publishJob =>
    cases reply with
    | error e => exact ⟨List.Subset.refl _, List.Subset.refl _⟩
    | ok done => exact ⟨List.subset_cons_self .., List.Subset.refl _⟩
  | publishStatus =>
    cases reply with
    | error e => exact ⟨List.Subset.refl _, List.Subset.refl _⟩
    | ok done => exact ⟨List.Subset.refl _, List.subset_cons_self ..⟩
  | publishResult | dockerComposeUp => cases reply <;> exact ⟨List.Subset.refl _, List.Subset.refl _⟩
  | updateService => rcases reply with _ | (_ | _) <;> exact ⟨List.Subset.refl _, List.Subset.refl _⟩
  | _ => exact ⟨List.Subset.refl _, List.Subset.refl _⟩

/-- Messages stay deliverable. -/
theorem queues_grow (step : Step (platform registry) source event target) :
    source.world.jobQueue ⊆ target.world.jobQueue ∧ source.world.statusQueue ⊆ target.world.statusQueue := by
  cases step with
  | @spawn kind admitted =>
    have same := sameJobs_enter source.world kind
    exact ⟨same.jobQueue ▸ List.Subset.refl _, same.statusQueue ▸ List.Subset.refl _⟩
  | call present awaits allowed => exact queues_after ..
  | drift drifts =>
    obtain ⟨now, rfl⟩ := drifts
    exact ⟨List.Subset.refl _, List.Subset.refl _⟩

theorem subJob_isSome (tracks : jobMonitor.TracksAll source) (step : Step (platform registry) source event target)
    {id : Uuid} (known : (source.world.subJobs.find? id).isSome) : (target.world.subJobs.find? id).isSome := by
  obtain ⟨row, found⟩ := Option.isSome_iff_exists.mp known
  obtain ⟨later, found', -⟩ := subJob_step tracks step found
  simp [found']

/-- A task in flight after a step was so before, or is admitted by it. -/
theorem At.kind_before (tracks : jobMonitor.TracksAll source) (step : Step (platform registry) source event target)
    {position : ℕ} {kind : Kind} {phase : JobPhase} (here : At target position kind phase) :
    (∃ before, At source position kind before) ∨ Admits source kind := by
  obtain ⟨old, -⟩ | ⟨rfl, -⟩ | ⟨before, _, _, old, -⟩ := here.before tracks step
  · exact .inl ⟨phase, old⟩
  · cases step with | spawn admitted => exact .inr admitted
  · exact .inl ⟨before, old⟩

/-- Messages name sub-jobs that exist, and deliveries are of messages that have been sent. -/
structure Traffic (pool : System) : Prop where
  published : ∀ jobId message routingKey, (.workerJob jobId message, routingKey) ∈ pool.world.jobQueue →
    (pool.world.subJobs.find? message.subJobId).isSome
  announced : ∀ workerName details timestamp,
    .workerStatus ⟨workerName, .job (some details), timestamp⟩ ∈ pool.world.statusQueue →
    (pool.world.subJobs.find? details.subJobId).isSome
  received : ∀ position config content phase, At pool position (.jobDelivery config content) phase →
    content ∈ pool.world.jobQueue.map (·.1)
  delivered : ∀ position content phase, At pool position (.statusDelivery content) phase →
    content ∈ pool.world.statusQueue

section Named

variable (named later : Uuid → Prop)

/-- What holds of the sub-jobs that ticks dispatch, and goes on to hold, holds of all that are published. -/
theorem publishedName_step (tracks : jobMonitor.TracksAll source) (step : Step (platform registry) source event target)
    (kept : ∀ id, named id → later id)
    (dispatched : ∀ position subJob workers, At source position .subJobTick (.recorded subJob workers) →
      subJob.type = .combinedDHP → later subJob.id)
    (published : ∀ jobId message routingKey, (.workerJob jobId message, routingKey) ∈ source.world.jobQueue →
      named message.subJobId) (jobId : Uuid) (message : JobMessage) (routingKey : String)
    (sent : (.workerJob jobId message, routingKey) ∈ target.world.jobQueue) : later message.subJobId := by
  obtain same | ⟨position, subJob, workers, message', done, here, measuring, -, own, -, same⟩ :=
    jobQueue_step tracks step <;> rw [same] at sent
  · exact kept _ (published _ _ _ sent)
  · obtain new | old := List.mem_cons.mp sent
    · cases new
      exact own ▸ dispatched _ _ _ here measuring
    · exact kept _ (published _ _ _ old)

/-- What holds of the published sub-jobs, and goes on to hold, holds of all whose start is announced. -/
theorem announcedName_step (tracks : jobMonitor.TracksAll source) (step : Step (platform registry) source event target)
    (kept : ∀ id, named id → later id) (traffic : Traffic source)
    (published : ∀ jobId message routingKey, (.workerJob jobId message, routingKey) ∈ source.world.jobQueue →
      named message.subJobId)
    (announced : ∀ workerName details timestamp,
      .workerStatus ⟨workerName, .job (some details), timestamp⟩ ∈ source.world.statusQueue → named details.subJobId)
    (workerName : String) (details : WorkerStatusJobDetails) (timestamp : DateTime)
    (sent : .workerStatus ⟨workerName, .job (some details), timestamp⟩ ∈ target.world.statusQueue) :
    later details.subJobId := by
  obtain old | ⟨position, config, jobId, message, here, -, own⟩ := statusQueue_step tracks step sent
  · exact kept _ (announced _ _ _ old)
  · obtain ⟨⟨content, routingKey⟩, queued, rfl⟩ := List.mem_map.mp (traffic.received position _ _ _ here)
    rw [own]
    exact kept _ (published _ _ _ queued)

end Named

theorem Traffic.step (sound : Sound source) (traffic : Traffic source)
    (step : Step (platform registry) source event target) : Traffic target where
  published := by
    refine publishedName_step (fun id => (source.world.subJobs.find? id).isSome)
      (fun id => (target.world.subJobs.find? id).isSome) sound.tracks step (fun _ => subJob_isSome sound.tracks step) ?_
      traffic.published
    intro position subJob workers here _
    obtain ⟨-, row, found, -⟩ := sound.known position _ _ subJob here rfl
    exact subJob_isSome sound.tracks step (by simp [found])
  announced := announcedName_step (fun id => (source.world.subJobs.find? id).isSome)
    (fun id => (target.world.subJobs.find? id).isSome) sound.tracks step (fun _ => subJob_isSome sound.tracks step)
    traffic traffic.published traffic.announced
  received position config content phase here := by
    have grown := List.map_subset (·.1) (queues_grow step).1
    obtain ⟨before, old⟩ | admitted := here.kind_before sound.tracks step
    · exact grown (traffic.received position config content before old)
    · exact grown admitted
  delivered position content phase here := by
    obtain ⟨before, old⟩ | admitted := here.kind_before sound.tracks step
    · exact (queues_grow step).2 (traffic.delivered position content before old)
    · exact (queues_grow step).2 admitted

theorem Traffic.of_initial {pool : System} (initial : Initial pool) : Traffic pool := by
  refine ⟨by simp [initial.jobQueue], by simp [initial.statusQueue], ?_, ?_⟩
  · exact fun _ _ _ _ here => absurd here (not_at_of_initial initial)
  · exact fun _ _ _ here => absurd here (not_at_of_initial initial)

/-! ## Measuring sub-jobs in messages -/

/-- A sub-job that exists and measures. -/
def World.Measures (w : World) (id : Uuid) : Prop := ∃ row, w.subJobs.find? id = some row ∧ row.type = .combinedDHP

theorem measures_step (tracks : jobMonitor.TracksAll source) (step : Step (platform registry) source event target)
    {id : Uuid} (measures : source.world.Measures id) : target.world.Measures id := by
  obtain ⟨row, found, type⟩ := measures
  obtain ⟨later, found', -, same⟩ := subJob_kept tracks step found
  exact ⟨later, found', same.trans type⟩

/-- Messages name measuring sub-jobs. -/
structure MeasuringTraffic (pool : System) : Prop where
  published : ∀ jobId message routingKey, (.workerJob jobId message, routingKey) ∈ pool.world.jobQueue →
    pool.world.Measures message.subJobId
  announced : ∀ workerName details timestamp,
    .workerStatus ⟨workerName, .job (some details), timestamp⟩ ∈ pool.world.statusQueue →
    pool.world.Measures details.subJobId

theorem MeasuringTraffic.step (sound : Sound source) (traffic : Traffic source) (measuring : MeasuringTraffic source)
    (step : Step (platform registry) source event target) : MeasuringTraffic target where
  published := by
    refine publishedName_step source.world.Measures target.world.Measures sound.tracks step
      (fun _ => measures_step sound.tracks step) ?_ measuring.published
    intro position subJob workers here type
    obtain ⟨-, row, found, -, same⟩ := sound.known position _ _ subJob here rfl
    exact measures_step sound.tracks step ⟨row, found, same.trans type⟩
  announced := announcedName_step source.world.Measures target.world.Measures sound.tracks step
    (fun _ => measures_step sound.tracks step) traffic measuring.published measuring.announced

theorem MeasuringTraffic.of_initial {pool : System} (initial : Initial pool) : MeasuringTraffic pool := by
  refine ⟨by simp [initial.jobQueue], by simp [initial.statusQueue]⟩

/-- A start message that is being processed names a measuring sub-job. -/
theorem MeasuringTraffic.starts {pool : System} (traffic : Traffic pool) (measuring : MeasuringTraffic pool)
    {position : ℕ} {workerName : String} {details : WorkerStatusJobDetails} {timestamp : DateTime} {phase : JobPhase}
    (here : At pool position (.statusDelivery (.workerStatus ⟨workerName, .job (some details), timestamp⟩)) phase) :
    pool.world.Measures details.subJobId :=
  measuring.announced _ _ _ (traffic.delivered _ _ _ here)

end Bms
