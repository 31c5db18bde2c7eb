import Bms.Properties.MessageTrail
import Bms.Properties.StageParameters
import Bms.Properties.SubJobStates

/-! # Completed measurements

A measuring sub-job is started and completed only after its job message has been published, and its number
of workers has been recorded before that. The count in its details is still the one that the tick read, so a
completed sub-job shows a positive number of workers and has at least as many results.
-/

namespace Bms

open Process

/-- A job message for the sub-job has been published. -/
def World.PublishedFor (w : World) (jobId id : Uuid) : Prop :=
  ∃ message routingKey, (.workerJob jobId message, routingKey) ∈ w.jobQueue ∧ message.subJobId = id

/-- A status that a sub-job has only after its dispatch. -/
def SubJobStatus.Dispatched (status : SubJobStatus) : Prop := status.Active ∨ status = .completed

/-- The row shows a positive number of workers, and the sub-job has as many results. -/
def World.MeasuredBy (w : World) (row : SubJobRow) : Prop :=
  ∃ count : ℕ, 1 ≤ count ∧ row.details.get? "workers_count" = some (.int count) ∧ count ≤ (w.dataOf row.id).length

variable {registry : ServiceScalerRegistry} {source target : System} {event : SystemEvent}

theorem publishedFor_step (step : Step (platform registry) source event target) {jobId id : Uuid}
    (published : source.world.PublishedFor jobId id) : target.world.PublishedFor jobId id := by
  obtain ⟨message, routingKey, queued, own⟩ := published
  exact ⟨message, routingKey, (queues_grow step).1 queued, own⟩

/-- What is known of dispatched sub-jobs in every state. -/
structure Measured (pool : System) : Prop where
  counted : ∀ jobId id, pool.world.PublishedFor jobId id →
    ∃ row, pool.world.subJobs.find? id = some row ∧ row.jobId = jobId ∧ row.Counted
  dispatched : ∀ position subJob workers, At pool position .subJobTick (.dispatched subJob workers) →
    pool.world.PublishedFor subJob.jobId subJob.id
  announced : ∀ workerName details timestamp,
    .workerStatus ⟨workerName, .job (some details), timestamp⟩ ∈ pool.world.statusQueue →
    ∃ jobId, pool.world.PublishedFor jobId details.subJobId
  held : ∀ position kind phase subJob, At pool position kind phase → phase.snapshot = some subJob →
    subJob.Measuring → pool.world.PublishedFor subJob.jobId subJob.id
  rows : ∀ row ∈ pool.world.subJobs.rows, row.type = .combinedDHP → row.status.Dispatched →
    pool.world.PublishedFor row.jobId row.id
  completed : ∀ row ∈ pool.world.subJobs.rows, row.type = .combinedDHP → row.status = .completed →
    pool.world.MeasuredBy row

/-- What the steps of the invariant rest on. -/
structure Grounds (pool : System) : Prop where
  traffic : Traffic pool
  jobs : JobsKnown pool
  trail : Trail pool
  parameters : Parameters pool
  staged : Staged pool
  measuring : MeasuringTraffic pool

theorem Grounds.step (sound : Sound source) (known : Grounds source) (step : Step (platform registry) source event target) :
    Grounds target where
  traffic := known.traffic.step sound step
  jobs := known.jobs.step sound step
  trail := known.trail.step sound known.traffic known.jobs step
  parameters := known.parameters.step sound step
  staged := known.staged.step sound known.traffic known.measuring step
  measuring := known.measuring.step sound known.traffic step

theorem Grounds.of_initial {pool : System} (initial : Initial pool) : Grounds pool where
  traffic := .of_initial initial
  jobs := .of_initial initial
  trail := .of_initial initial
  parameters := .of_initial initial
  staged := .of_initial initial
  measuring := .of_initial initial

theorem Measured.counted_step (sound : Sound source) (known : Grounds source) (measured : Measured source)
    (step : Step (platform registry) source event target) {jobId id : Uuid} (published : target.world.PublishedFor jobId id) :
    ∃ row, target.world.subJobs.find? id = some row ∧ row.jobId = jobId ∧ row.Counted := by
  have kept {row : SubJobRow} (found : source.world.subJobs.find? id = some row) (own : row.jobId = jobId)
      (counted : row.Counted) : ∃ row, target.world.subJobs.find? id = some row ∧ row.jobId = jobId ∧ row.Counted := by
    obtain ⟨later, found', keeps, -⟩ := known.parameters.row_step sound.tracks step found
    obtain ⟨same, found'', job, -⟩ := subJob_kept sound.tracks step found
    obtain rfl : later = same := Option.some.inj (found'.symm.trans found'')
    exact ⟨later, found', job.trans own, keeps.counted counted⟩
  have old (published : source.world.PublishedFor jobId id) :
      ∃ row, target.world.subJobs.find? id = some row ∧ row.jobId = jobId ∧ row.Counted := by
    obtain ⟨row, found, own, counted⟩ := measured.counted jobId id published
    exact kept found own counted
  obtain ⟨message, routingKey, queued, named⟩ := published
  obtain same | ⟨position, subJob, workers, new, done, here, -, -, own, -, grown⟩ := jobQueue_step sound.tracks step
  · exact old ⟨message, routingKey, same ▸ queued, named⟩
  · rw [grown] at queued
    obtain same | earlier := List.mem_cons.mp queued
    · cases same
      obtain ⟨row, found, counted⟩ := known.parameters.counted _ _ _ (.inl here)
      obtain ⟨-, other, found', job, -⟩ := sound.known _ _ _ subJob here rfl
      obtain rfl : row = other := Option.some.inj (found.symm.trans found')
      obtain ⟨-, same⟩ := known.trail.held _ _ _ subJob here rfl
      exact kept (own.symm.trans named ▸ found) (job.trans same.symm) counted
    · exact old ⟨message, routingKey, earlier, named⟩

theorem JobPhase.dispatched_note {phase : JobPhase} {made : Act} {subJob : SubJobWithJob} {workers : List String}
    (noted : phase.note made = .dispatched subJob workers) :
    phase = .dispatched subJob workers ∨ (phase = .recorded subJob workers ∧
      ∃ message routingKey done, made = ⟨.publishJob message routingKey, .ok done⟩) := by
  have moved := phase.notes made
  rw [noted] at moved
  cases moved with
  | stays => exact .inl rfl
  | publishes => exact .inr ⟨rfl, _, _, _, rfl⟩

theorem Measured.dispatched_step (sound : Sound source) (known : Grounds source) (measured : Measured source)
    (step : Step (platform registry) source event target) {position : ℕ} {subJob : SubJobWithJob} {workers : List String}
    (here : At target position .subJobTick (.dispatched subJob workers)) :
    target.world.PublishedFor subJob.jobId subJob.id := by
  obtain ⟨old, -⟩ | ⟨-, starts⟩ | ⟨before, op, reply, old, legal, rfl, noted, -, reached⟩ := here.before sound.tracks step
  · exact publishedFor_step step (measured.dispatched position subJob workers old)
  · cases starts
  · obtain rfl | ⟨rfl, message, routingKey, done, made⟩ := JobPhase.dispatched_note noted.symm
    · exact publishedFor_step step (measured.dispatched position subJob workers old)
    · cases made
      obtain ⟨-, same⟩ := known.trail.held _ _ _ subJob old rfl
      cases legal with
      | quiet quiet => exact quiet.elim
      | publish =>
        rw [reached, ← same]
        exact ⟨_, _, List.mem_cons_self, rfl⟩

theorem Measured.held_step (sound : Sound source) (measured : Measured source)
    (step : Step (platform registry) source event target) {position : ℕ} {kind : Kind} {phase : JobPhase}
    {subJob : SubJobWithJob} (here : At target position kind phase) (held : phase.snapshot = some subJob)
    (measuring : subJob.Measuring) : target.world.PublishedFor subJob.jobId subJob.id := by
  obtain ⟨before, there, held, -⟩ | ⟨-, -, -, -, -, row, found, -, same⟩ := here.held sound.tracks step held
  · exact publishedFor_step step (measured.held position kind before subJob there held measuring)
  · obtain ⟨type, active⟩ := measuring
    have own : subJob.jobId = row.jobId := congrArg SubJob.jobId same
    have status : subJob.status = row.status := congrArg SubJob.status same
    have published := measured.rows row (Table.mem_of_find? found) ((congrArg SubJob.type same).symm.trans type)
      (.inl (status ▸ active))
    rw [own, ← subJob_id found]
    exact publishedFor_step step published

theorem Measured.rows_step (sound : Sound source) (known : Grounds source) (measured : Measured source)
    (step : Step (platform registry) source event target) {row : SubJobRow} (member : row ∈ target.world.subJobs.rows)
    (measures : row.type = .combinedDHP) (dispatched : row.status.Dispatched) :
    target.world.PublishedFor row.jobId row.id := by
  obtain ⟨old, there, id, job, type, -, rfl | ⟨test, change, write, tested, rfl⟩⟩ | insert :=
    row_before sound.tracks step member
  · exact publishedFor_step step (measured.rows row there measures dispatched)
  · -- the sub-job that a tick holds is the one whose row it writes
    have shown {position : ℕ} {phase : JobPhase} {subJob : SubJobWithJob} (here : At source position .subJobTick phase)
        (held : phase.snapshot = some subJob) (own : old.id = subJob.id) :
        old.jobId = subJob.jobId ∧ old.type = subJob.type := by
      obtain ⟨-, other, found, job, type⟩ := sound.known _ _ _ subJob here held
      rw [← own, mem_iff_find?.mp there] at found
      cases found
      exact ⟨job, type⟩
    rw [← id, ← job]
    apply publishedFor_step step
    cases write with
    | recorded => exact measured.rows old there measures dispatched
    | pended here =>
      have own : old.id = _ := of_decide_eq_true tested
      rw [(shown here rfl own).1, own]
      exact measured.dispatched _ _ _ here
    | scaled here scaling | reached here scaling =>
      have other := (shown here rfl (of_decide_eq_true tested)).2.trans scaling
      cases measures.symm.trans other
    | completed here measuring processing =>
      have own : old.id = _ := of_decide_eq_true tested
      rw [(shown here rfl own).1, own]
      exact measured.held _ _ _ _ here rfl ⟨measuring, by rw [processing]; decide⟩
    | begun here =>
      obtain ⟨jobId, published⟩ := measured.announced _ _ _ (known.traffic.delivered _ _ _ here)
      have own : old.id = _ := of_decide_eq_true tested
      obtain ⟨other, found, parent, -⟩ := measured.counted _ _ published
      rw [← own, mem_iff_find?.mp there] at found
      cases found
      rwa [parent, own]
    | unneeded | failed | canceled => rcases dispatched with active | completed <;> contradiction
  · obtain ⟨_, _, _, _, _, _, -, -, -, -, same⟩ := insert.creates
    rw [same] at dispatched
    rcases dispatched with active | completed <;> contradiction

theorem Json.count_of_asU64? {value : Json} {count : ℤ} {workersCount : ℕ} (recorded : value = .int count)
    (read : value.asU64? = some workersCount) : count = workersCount := by
  subst recorded
  simp only [Json.asU64?] at read
  split at read
  · cases read
    omega
  · cases read

theorem Measured.completed_step (sound : Sound source) (known : Grounds source) (measured : Measured source)
    (step : Step (platform registry) source event target) {row : SubJobRow} (member : row ∈ target.world.subJobs.rows)
    (measures : row.type = .combinedDHP) (completed : row.status = .completed) : target.world.MeasuredBy row := by
  obtain ⟨old, there, id, job, type, -, rfl | ⟨test, change, write, tested, rfl⟩⟩ | insert :=
    row_before sound.tracks step member
  · obtain ⟨count, positive, recorded, enough⟩ := measured.completed row there measures completed
    exact ⟨count, positive, recorded, enough.trans (dataOf_grows sound.tracks step row.id).length_le⟩
  · cases write with
    | @recorded _ subJob workers _ here measuring created =>
      -- a completed sub-job has a deadline, and one with a deadline is not being dispatched
      have dispatching := here.dispatching rfl created
      rw [← of_decide_eq_true tested] at dispatching
      have dated := known.staged.due old there (.inr (.inl completed))
      exact absurd dispatching (known.staged.dated old.id old (mem_iff_find?.mp there) dated).2
    | @completed _ subJob data workersCount _ here measuring processing counted enough =>
      have own : old.id = subJob.id := of_decide_eq_true tested
      have found : source.world.subJobs.find? subJob.id = some old := own ▸ mem_iff_find?.mp there
      obtain ⟨other, found', details, -⟩ := known.staged.reads.row _ _ _ subJob here rfl
      obtain rfl : old = other := Option.some.inj (found.symm.trans found')
      have published := measured.held _ _ _ subJob here rfl ⟨measuring, by rw [processing]; decide⟩
      obtain ⟨other, found', -, count, positive, recorded⟩ := measured.counted _ _ published
      obtain rfl : old = other := Option.some.inj (found.symm.trans found')
      have read := workersCountOf_eq_ok_iff.mp counted
      rw [← details, recorded, Option.bind_some] at read
      obtain rfl := Json.count_of_asU64? rfl read
      refine ⟨workersCount, by omega, recorded, ?_⟩
      calc workersCount
          ≤ data.length := enough
        _ ≤ (source.world.dataOf subJob.id).length := (known.staged.reads.data _ _ subJob data here).length_le
        _ ≤ (target.world.dataOf subJob.id).length := (dataOf_grows sound.tracks step subJob.id).length_le
        _ = (target.world.dataOf old.id).length := by rw [own]
    | reached here scaling =>
      obtain ⟨-, other, found, -, type⟩ := sound.known _ _ _ _ here rfl
      rw [← of_decide_eq_true tested, mem_iff_find?.mp there] at found
      cases found
      cases measures.symm.trans (type.trans scaling)
    | _ => contradiction
  · obtain ⟨_, _, _, _, _, _, -, -, -, -, same⟩ := insert.creates
    rw [same] at completed
    cases completed

theorem Measured.step (sound : Sound source) (known : Grounds source) (measured : Measured source)
    (step : Step (platform registry) source event target) : Measured target where
  counted _ _ published := measured.counted_step sound known step published
  dispatched _ _ _ here := measured.dispatched_step sound known step here
  announced := announcedName_step (fun id => ∃ jobId, source.world.PublishedFor jobId id)
    (fun id => ∃ jobId, target.world.PublishedFor jobId id) sound.tracks step
    (fun _ ⟨jobId, published⟩ => ⟨jobId, publishedFor_step step published⟩) known.traffic
    (fun jobId message routingKey queued => ⟨jobId, message, routingKey, queued, rfl⟩) measured.announced
  held _ _ _ _ here held measuring := measured.held_step sound step here held measuring
  rows _ member measures dispatched := measured.rows_step sound known step member measures dispatched
  completed _ member measures completed := measured.completed_step sound known step member measures completed

theorem Measured.of_initial {pool : System} (initial : Initial pool) : Measured pool where
  counted := by simp [World.PublishedFor, initial.jobQueue]
  dispatched _ _ _ here := absurd here (not_at_of_initial initial)
  announced := by simp [initial.statusQueue]
  held _ _ _ _ here := absurd here (not_at_of_initial initial)
  rows := by simp [initial.subJobs]
  completed := by simp [initial.subJobs]

/-- In every state of a run, a completed measuring sub-job has been published in a job message, shows a positive
number of workers, and has at least as many results. -/
theorem completed_measured (registry : ServiceScalerRegistry) {ok : System → SystemEvent → Prop}
    {source target : System} {events : List SystemEvent} (initial : Initial source)
    (run : Run (platform registry) ok source events target) {row : SubJobRow}
    (member : row ∈ target.world.subJobs.rows) (measures : row.type = .combinedDHP) (completed : row.status = .completed) :
    target.world.PublishedFor row.jobId row.id ∧ target.world.MeasuredBy row := by
  have all : Sound target ∧ Grounds target ∧ Measured target :=
    sound_invariant (I := fun pool => Grounds pool ∧ Measured pool) run
      (fun sound both _ step => ⟨both.1.step sound step, both.2.step sound both.1 step⟩)
      (.of_initial initial) ⟨.of_initial initial, .of_initial initial⟩
  obtain ⟨-, -, measured⟩ := all
  exact ⟨measured.rows row member measures (.inr completed), measured.completed row member measures completed⟩

/-- Sub-job 3 is dispatched and started, its worker answers, and the next tick completes it. -/
theorem completed_measured_answered : ∃ events target row,
    Run (platform ⟨false⟩) (fun _ _ => True) (sampleSystem .online) events target ∧
      row ∈ target.world.subJobs.rows ∧ row.type = .combinedDHP ∧ row.status = .completed ∧
      target.world.PublishedFor row.jobId row.id ∧ target.world.MeasuredBy row := by
  have replayed : ((replay ⟨false⟩ (fun _ _ => true) (sampleSystem .online) (announcedStart ++ startProcessed 4 ++
      [.clock (Duration.seconds 10)] ++ received sampleWorker 5 3 ++ saved (lateAnswer 7 "w1") 6 ++
        sampleTick 7 4)).any fun target =>
          target.world.subJobs.rows.any fun row => decide (row.type = .combinedDHP ∧ row.status = .completed)) = true := by
    decide +kernel
  obtain ⟨events, target, run, found⟩ := exists_run_of_replay replayed
  have run := run.mono fun _ _ _ => trivial
  obtain ⟨row, member, found⟩ := List.any_eq_true.mp found
  obtain ⟨measures, completed⟩ := of_decide_eq_true found
  obtain ⟨published, measured⟩ :=
    completed_measured ⟨false⟩ (initial_sampleSystem .online) run member measures completed
  exact ⟨events, target, row, run, member, measures, completed, published, measured⟩

end Bms
