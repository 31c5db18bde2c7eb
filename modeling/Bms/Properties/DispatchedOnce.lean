import Bms.Model.Replay
import Bms.Protocol.Traffic

/-! # A sub-job is dispatched once

The job message is published before anything is written. If the sub-job can neither be made Pending
nor Failed afterwards, it is still Created, and the next tick publishes its message again. As long as
one of the two writes leaves a mark, a published sub-job is not picked as a Created one any more.
-/

namespace Bms

open Process

/-- A message that asks the workers to measure a sub-job. -/
def Message.asksFor (id : Uuid) : Message → Bool
  | .workerJob _ payload => payload.subJobId = id
  | _ => false

/-- How many job messages of a sub-job have been published. -/
def World.dispatches (w : World) (id : Uuid) : ℕ := w.jobQueue.countP fun sent => sent.1.asksFor id

/-- In every state reached, at most one job message has been published for a sub-job. -/
def DispatchedOnce (registry : ServiceScalerRegistry) (ok : System → SystemEvent → Prop) : Prop :=
  ∀ {source target : System} {events : List SystemEvent} (id : Uuid), Initial source →
    Run (platform registry) ok source events target → target.world.dispatches id ≤ 1

/-- When the sub-job could not be made Pending after its message was published, and cannot be made
Failed either, it is no longer Created. -/
def Marked (pool : System) (event : SystemEvent) : Prop :=
  ∀ position subJob message e, At pool position .subJobTick (.refused subJob) →
    event = .call position ⟨.sql (.updateSubJobStatusWithError subJob.id .failed message), .error e⟩ →
    ∃ row, pool.world.subJobs.find? subJob.id = some row ∧ row.status ≠ .created

/-- A tick that has picked a sub-job and not yet published its message. -/
def JobPhase.Unpublished (phase : JobPhase) (subJob : SubJobWithJob) : Prop :=
  phase = held subJob ∨ ∃ workers, phase = surveyed subJob workers ∨ phase = recorded subJob workers

/-- A tick that has published the message of a sub-job and not yet written its status. -/
def JobPhase.Published (phase : JobPhase) (subJob : SubJobWithJob) : Prop :=
  (∃ workers, phase = dispatched subJob workers) ∨ phase = refused subJob

theorem JobPhase.Unpublished.snapshot {phase : JobPhase} {subJob : SubJobWithJob}
    (unpublished : phase.Unpublished subJob) : phase.snapshot = some subJob := by
  obtain rfl | ⟨workers, rfl | rfl⟩ := unpublished <;> rfl

theorem JobPhase.Published.snapshot {phase : JobPhase} {subJob : SubJobWithJob}
    (published : phase.Published subJob) : phase.snapshot = some subJob := by
  obtain ⟨workers, rfl⟩ | rfl := published <;> rfl

/-- No phase leads back to one in which the message is unpublished. -/
theorem JobPhase.Unpublished.of_note {phase : JobPhase} {made : Act} {subJob : SubJobWithJob}
    (unpublished : (phase.note made).Unpublished subJob) (held : phase.snapshot = some subJob) :
    phase.Unpublished subJob := by
  have noted := phase.notes made
  generalize phase.note made = later at unpublished noted
  cases noted with
  | stays => exact unpublished
  | surveys | answers =>
    cases held
    exact .inl rfl
  | records =>
    cases held
    exact .inr ⟨_, .inl rfl⟩
  | publishes =>
    cases held
    exact .inr ⟨_, .inr rfl⟩
  | _ => rcases unpublished with same | ⟨workers, same | same⟩ <;> cases same <;> cases held

/-- The message of a sub-job that has been published once is not going to be published again. -/
structure Dispatches (pool : System) : Prop where
  once : ∀ id, pool.world.dispatches id ≤ 1
  ahead : ∀ position phase subJob, At pool position .subJobTick phase → phase.Unpublished subJob →
    subJob.status = .created → pool.world.dispatches subJob.id = 0
  behind : ∀ id, 0 < pool.world.dispatches id →
    (∃ position phase subJob, At pool position .subJobTick phase ∧ phase.Published subJob ∧ subJob.id = id) ∨
      ∃ row, pool.world.subJobs.find? id = some row ∧ row.status ≠ .created

variable {registry : ServiceScalerRegistry} {source target : System} {event : SystemEvent}

/-- A step publishes nothing, or the message of the sub-job that the tick in flight holds. -/
theorem dispatches_step (sound : Sound source) (dispatches : Dispatches source)
    (step : Step (platform registry) source event target) :
    (∀ id, target.world.dispatches id = source.world.dispatches id) ∨
      ∃ position subJob workers routingKey message done, At source position .subJobTick (.recorded subJob workers) ∧
        event = .call position ⟨.publishJob message routingKey, .ok done⟩ ∧
        ∀ id, target.world.dispatches id = if subJob.id = id then 1 else source.world.dispatches id := by
  obtain same | ⟨position, subJob, workers, message, done, here, -, created, own, calls, queued⟩ :=
    jobQueue_step sound.tracks step
  · exact .inl fun id => by rw [World.dispatches, World.dispatches, same]
  · refine .inr ⟨position, subJob, workers, _, _, done, here, calls, fun id => ?_⟩
    have none := dispatches.ahead position _ subJob here (.inr ⟨workers, .inr rfl⟩) created
    rw [World.dispatches, queued, List.countP_cons, ← World.dispatches, Message.asksFor, own]
    split
    · next same =>
      rw [if_pos (of_decide_eq_true same), ← of_decide_eq_true same, none]
    · next other => rw [if_neg (by simpa using other), add_zero]

/-- A sub-job that is still Created while no tick acts on it has not been published. -/
theorem Dispatches.not_picked (sound : Sound source) (dispatches : Dispatches source) {position : ℕ} {id : Uuid}
    (searches : At source position .subJobTick .searching)
    (created : ∃ row, source.world.subJobs.find? id = some row ∧ row.status = .created) :
    source.world.dispatches id = 0 := by
  by_contra sent
  obtain ⟨other, phase, subJob, here, published, -⟩ | ⟨row, found, notCreated⟩ :=
    dispatches.behind id (Nat.pos_of_ne_zero sent)
  · obtain ⟨-, rfl⟩ := sound.tick_unique searches here
    cases published.snapshot
  · obtain ⟨row', found', created⟩ := created
    obtain rfl : row = row' := Option.some.inj (found.symm.trans found')
    exact notCreated created

theorem Dispatches.ahead_step (sound : Sound source) (dispatches : Dispatches source)
    (step : Step (platform registry) source event target) {position : ℕ} {phase : JobPhase} {subJob : SubJobWithJob}
    (here : At target position .subJobTick phase) (unpublished : phase.Unpublished subJob)
    (created : subJob.status = .created) : target.world.dispatches subJob.id = 0 := by
  obtain ⟨old, silent⟩ | ⟨-, rfl⟩ | ⟨before, op, reply, old, legal, rfl, rfl, allowed, reached⟩ :=
    here.before sound.tracks step
  · obtain same | ⟨other, subJob', workers, _, _, _, there, rfl, -⟩ := dispatches_step sound dispatches step
    · rw [same]
      exact dispatches.ahead position phase subJob old unpublished created
    · obtain ⟨rfl, -⟩ := sound.tick_unique old there
      exact absurd rfl (silent _)
  · cases unpublished.snapshot
  · obtain held | ⟨rfl, picks⟩ := JobPhase.snapshot_note unpublished.snapshot
    · obtain same | ⟨other, subJob', workers, _, _, _, there, calls, -⟩ := dispatches_step sound dispatches step
      · rw [same]
        exact dispatches.ahead position before subJob old (unpublished.of_note held) created
      · obtain ⟨rfl, rfl⟩ := sound.tick_unique old there
        cases calls
        obtain same | ⟨workers, same | same⟩ := unpublished <;> cases same
    · cases picks
      obtain ⟨row, found, -, same⟩ := picked_row allowed
      rw [reached]
      exact dispatches.not_picked sound old ⟨row, found, (congrArg SubJob.status same).symm.trans created⟩

/-- What the tick does that has published a message: it leaves a mark, or tries again. -/
theorem published_step (sound : Sound source) (marked : Marked source event)
    (step : Step (platform registry) source event target) {position : ℕ} {phase : JobPhase} {subJob : SubJobWithJob}
    (here : At source position .subJobTick phase) (published : phase.Published subJob) :
    (∃ later, At target position .subJobTick later ∧ later.Published subJob) ∨
      ∃ row, target.world.subJobs.find? subJob.id = some row ∧ row.status ≠ .created := by
  by_cases calls : ∃ made, event = .call position made
  · obtain ⟨⟨op, reply⟩, rfl⟩ := calls
    obtain ⟨kind, phase', there, legal, allowed, reached⟩ := legal_of_call sound.tracks step
    obtain ⟨rfl, rfl⟩ := here.unique there
    obtain ⟨-, row, found, -⟩ := sound.known position _ _ subJob here published.snapshot
    obtain ⟨workers, rfl⟩ | rfl := published
    · cases legal with
      | quiet quiet going => exact going.elim
      | fail failable => obtain same | ⟨_, same⟩ | same := failable <;> cases same
      | pend measuring created =>
        cases reply with
        | ok done => exact .inr (reached ▸ notCreated_of_write found (by simp))
        | error e => exact .inl ⟨_, (here.after sound.tracks step).resolve_right id, .inr rfl⟩
    · cases legal with
      | quiet quiet going => exact going.elim
      | fail failable =>
        obtain rfl := Option.some.inj failable.snapshot
        cases reply with
        | ok done => exact .inr (reached ▸ notCreated_of_write found (by simp))
        | error e => exact .inr (notCreated_step sound step (marked position _ _ e here rfl))
  · exact .inl ⟨phase, here.kept step fun made same => calls ⟨made, same⟩, published⟩

theorem Dispatches.step (sound : Sound source) (dispatches : Dispatches source) (marked : Marked source event)
    (step : Step (platform registry) source event target) : Dispatches target where
  once id := by
    obtain same | ⟨_, subJob, _, _, _, _, -, -, counts⟩ := dispatches_step sound dispatches step
    · rw [same]
      exact dispatches.once id
    · rw [counts]
      split
      · exact le_refl _
      · exact dispatches.once id
  ahead _ _ _ here unpublished created := dispatches.ahead_step sound step here unpublished created
  behind id sent := by
    have before (sent : 0 < source.world.dispatches id) :
        (∃ position phase subJob, At target position .subJobTick phase ∧ phase.Published subJob ∧ subJob.id = id) ∨
          ∃ row, target.world.subJobs.find? id = some row ∧ row.status ≠ .created := by
      obtain ⟨position, phase, subJob, here, published, rfl⟩ | notCreated := dispatches.behind id sent
      · exact (published_step sound marked step here published).imp_left
          fun ⟨later, there, published⟩ => ⟨position, later, subJob, there, published, rfl⟩
      · exact .inr (notCreated_step sound step notCreated)
    obtain same | ⟨position, subJob, workers, _, _, _, here, rfl, counts⟩ := dispatches_step sound dispatches step
    · rw [same] at sent
      exact before sent
    · rw [counts] at sent
      split at sent
      · next same =>
        have there : At target position .subJobTick (.dispatched subJob workers) :=
          (here.after sound.tracks step).resolve_right fun final => final
        exact .inl ⟨position, _, subJob, there, .inl ⟨workers, rfl⟩, same⟩
      · exact before sent

theorem Dispatches.of_initial {pool : System} (initial : Initial pool) : Dispatches pool where
  once id := by simp [World.dispatches, initial.jobQueue]
  ahead _ _ _ here := absurd here (not_at_of_initial initial)
  behind id sent := by simp [World.dispatches, initial.jobQueue] at sent

theorem dispatchedOnce_of_marked (registry : ServiceScalerRegistry) : DispatchedOnce registry Marked := by
  intro source target events id initial run
  exact (sound_invariant run (fun sound dispatches marked step => dispatches.step sound marked step)
    (Sound.of_initial initial) (Dispatches.of_initial initial)).2.once id

/-- A sub-job that could not be made Pending can be made Failed. -/
def failsMarked (_ : System) : SystemEvent → Bool
  | .call _ ⟨.sql (.updateSubJobStatusWithError ..), .error _⟩ => false
  | _ => true

theorem marked_of_failsMarked {pool : System} {event : SystemEvent} (check : failsMarked pool event = true) :
    Marked pool event := by
  rintro position subJob message e - rfl
  cases check

/-- Sub-job 3 is dispatched, it cannot be made Pending, and is made Failed. -/
theorem dispatchedOnce_failed : ∃ events target,
    Run (platform ⟨false⟩) Marked (sampleSystem .online) events target ∧
      target.world.subJobStatus? 3 = some .failed ∧ target.world.dispatches 3 ≤ 1 := by
  have replayed : ((replay ⟨false⟩ failsMarked (sampleSystem .online)
      (sampleCreation ++ sampleTick 1 7 ++ sampleTick 2 6 ++ [.fail 2, .go 2])).any
        fun target => target.world.subJobStatus? 3 = some .failed) = true := by
    decide +kernel
  obtain ⟨events, target, run, found⟩ := exists_run_of_replay replayed
  have meets := run.mono fun _ _ => marked_of_failsMarked
  exact ⟨events, target, meets, of_decide_eq_true found,
    dispatchedOnce_of_marked ⟨false⟩ 3 (initial_sampleSystem .online) meets⟩

/-- Neither write succeeds, and the next tick publishes the message of sub-job 3 again. -/
theorem not_dispatchedOnce :
    ¬ DispatchedOnce ⟨false⟩ fun pool event => spawnsOnly Kind.ofJobs pool event = true := by
  intro once
  have replayed : ((replay ⟨false⟩ (spawnsOnly Kind.ofJobs) (sampleSystem .online)
      (sampleCreation ++ sampleTick 1 7 ++ sampleTick 2 6 ++ [.fail 2, .fail 2] ++ sampleTick 3 6)).any
        fun target => decide (1 < target.world.dispatches 3)) = true := by
    decide +kernel
  obtain ⟨events, target, run, found⟩ := exists_run_of_replay replayed
  exact absurd (once 3 (initial_sampleSystem .online) run) (Nat.not_le.mpr (of_decide_eq_true found))

end Bms
