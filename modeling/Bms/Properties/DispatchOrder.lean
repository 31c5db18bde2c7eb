import Bms.Properties.NoOverlap
import Bms.Properties.DispatchedOnce
import Bms.Protocol.Creations

/-! # Sub-jobs are dispatched in the order of their creation

A tick picks the oldest unfinished sub-job, and no sub-job becomes Created again. So once the message of
a sub-job has been published, nothing older is waiting for its dispatch, and nothing older ever will be
as long as new rows are newer than all others.
-/

namespace Bms

open Process

/-- Each job message was published after those of all sub-jobs that are older; the newest message comes first. -/
def World.DispatchedInOrder (w : World) : Prop :=
  w.jobQueue.Pairwise fun later earlier => ∀ row ∈ w.subJobs.rows, ∀ other ∈ w.subJobs.rows,
    later.1.asksFor row.id = true → earlier.1.asksFor other.id = true → other.createdAt ≤ row.createdAt

/-- Nothing older waits for its dispatch. -/
def PassedOn (w : World) (row : SubJobRow) : Prop :=
  ∀ other ∈ w.subJobs.rows, other.createdAt < row.createdAt → other.status ≠ .created

structure Dispatched (pool : System) : Prop where
  ordered : pool.world.DispatchedInOrder
  passed : ∀ sent ∈ pool.world.jobQueue, ∀ row ∈ pool.world.subJobs.rows, sent.1.asksFor row.id = true →
    PassedOn pool.world row
  held : ∀ position phase subJob, At pool position .subJobTick phase → phase.snapshot = some subJob →
    ∀ row ∈ pool.world.subJobs.rows, row.id = subJob.id → PassedOn pool.world row
  /-- what is to be dispatched is not older than anything that has been -/
  next : ∀ position phase subJob, At pool position .subJobTick phase → phase.snapshot = some subJob →
    subJob.status = .created → ∀ row ∈ pool.world.subJobs.rows, row.id = subJob.id →
    ∀ sent ∈ pool.world.jobQueue, ∀ other ∈ pool.world.subJobs.rows, sent.1.asksFor other.id = true →
    other.createdAt ≤ row.createdAt

variable {registry : ServiceScalerRegistry} {source target : System} {event : SystemEvent}

/-- A row of a sub-job after a step was there before, or it is newer than all others. -/
theorem old_or_newest (sound : Sound source) (ordered : Ordered source event)
    (step : Step (platform registry) source event target) {row : SubJobRow} (member : row ∈ target.world.subJobs.rows) :
    (∃ old ∈ source.world.subJobs.rows, old.id = row.id ∧ old.createdAt = row.createdAt ∧
        (row.status = .created → old.status = .created)) ∨
      ((source.world.subJobs.find? row.id = none) ∧ ∀ other ∈ source.world.subJobs.rows, other.createdAt < row.createdAt) := by
  obtain ⟨old, there, id, -, -, created, changed⟩ | insert := row_before sound.tracks step member
  · refine .inl ⟨old, there, id, created, fun waits => ?_⟩
    by_contra notCreated
    obtain ⟨later, found, other⟩ := notCreated_step sound step ⟨old, mem_iff_find?.mp there, notCreated⟩
    rw [id, mem_iff_find?.mp member] at found
    cases found
    exact other waits
  · refine .inr ⟨insert.fresh, fun other there => ?_⟩
    obtain ⟨position, payload, jobId, subJobs, details, done, -, -, -, inserts, same⟩ := insert.creates
    rw [same]
    exact ordered position _ _ _ _ _ inserts other there

/-- What has been passed on stays so. -/
theorem PassedOn.step (sound : Sound source) (ordered : Ordered source event)
    (step : Step (platform registry) source event target) {row later : SubJobRow}
    (member : row ∈ source.world.subJobs.rows) (passed : PassedOn source.world row)
    (same : later.createdAt = row.createdAt) : PassedOn target.world later := by
  intro other there older waits
  obtain ⟨old, there, -, created, before⟩ | ⟨-, newest⟩ := old_or_newest sound ordered step there
  · exact passed old there (by rw [created, ← same]; exact older) (before waits)
  · exact lt_asymm (same ▸ older) (newest row member)

/-- A message names a sub-job that exists. -/
theorem Traffic.row_of_asksFor {pool : System} (traffic : Traffic pool) {sent : Message × String}
    (queued : sent ∈ pool.world.jobQueue) {id : Uuid} (asks : sent.1.asksFor id = true) :
    (pool.world.subJobs.find? id).isSome := by
  obtain ⟨message, routingKey⟩ := sent
  cases message with
  | workerJob jobId payload =>
    have named : payload.subJobId = id := of_decide_eq_true asks
    exact named ▸ traffic.published jobId payload routingKey queued
  | workerResult | workerStatus => cases asks

/-- The row of a sub-job that existed before a step is an old one. -/
theorem old_of_isSome (sound : Sound source) (ordered : Ordered source event)
    (step : Step (platform registry) source event target) {row : SubJobRow} (member : row ∈ target.world.subJobs.rows)
    (known : (source.world.subJobs.find? row.id).isSome) :
    ∃ old ∈ source.world.subJobs.rows, old.id = row.id ∧ old.createdAt = row.createdAt := by
  obtain ⟨old, there, id, created, -⟩ | ⟨fresh, -⟩ := old_or_newest sound ordered step member
  · exact ⟨old, there, id, created⟩
  · simp [fresh] at known

theorem isSome_of_held (sound : Sound source) {position : ℕ} {kind : Kind} {phase : JobPhase} {subJob : SubJobWithJob}
    (here : At source position kind phase) (held : phase.snapshot = some subJob) :
    (source.world.subJobs.find? subJob.id).isSome := by
  obtain ⟨-, row, found, -⟩ := sound.known position kind phase subJob here held
  simp [found]

/-- The row that a tick picks is the oldest that waits. -/
theorem passedOn_of_first {w : World} {row : SubJobRow} (first : w.IsFirstUnfinished row) : PassedOn w row := by
  intro other there older waits
  have unfinished : other.status.Unfinished := by simp [waits, SubJobStatus.Unfinished]
  exact absurd (first.2.2 other there unfinished) (not_le.mpr older)

/-- A job message that a step publishes is that of the sub-job that the tick in flight is to dispatch. -/
theorem published_by_step (sound : Sound source) (step : Step (platform registry) source event target) :
    target.world.jobQueue = source.world.jobQueue ∨ ∃ position subJob workers sent,
      At source position .subJobTick (.recorded subJob workers) ∧ subJob.status = .created ∧
        (∀ id, sent.1.asksFor id = true → id = subJob.id) ∧ target.world.jobQueue = sent :: source.world.jobQueue := by
  obtain same | ⟨position, subJob, workers, message, done, here, -, created, own, -, queued⟩ :=
    jobQueue_step sound.tracks step
  · exact .inl same
  · exact .inr ⟨position, subJob, workers, _, here, created, fun id asks => (of_decide_eq_true asks).symm.trans own, queued⟩

theorem Dispatched.ordered_step (sound : Sound source) (traffic : Traffic source) (dispatched : Dispatched source)
    (ordered : Ordered source event) (step : Step (platform registry) source event target) :
    target.world.DispatchedInOrder := by
  have kept : source.world.jobQueue.Pairwise fun later earlier => ∀ row ∈ target.world.subJobs.rows,
      ∀ other ∈ target.world.subJobs.rows, later.1.asksFor row.id = true → earlier.1.asksFor other.id = true →
      other.createdAt ≤ row.createdAt := by
    refine dispatched.ordered.imp_of_mem fun queued queued' before row member other member' asks asks' => ?_
    obtain ⟨old, there, id, created⟩ :=
      old_of_isSome sound ordered step member (traffic.row_of_asksFor queued asks)
    obtain ⟨old', there', id', created'⟩ :=
      old_of_isSome sound ordered step member' (traffic.row_of_asksFor queued' asks')
    rw [← created, ← created']
    exact before old there old' there' (id ▸ asks) (id' ▸ asks')
  obtain same | ⟨position, subJob, workers, sent, here, created, own, queued⟩ := published_by_step sound step
  · rw [World.DispatchedInOrder, same]
    exact kept
  · rw [World.DispatchedInOrder, queued]
    refine List.pairwise_cons.mpr ⟨fun earlier sent' row member other member' asks asks' => ?_, kept⟩
    have id := own row.id asks
    obtain ⟨old, there, same, created''⟩ :=
      old_of_isSome sound ordered step member (id ▸ isSome_of_held sound here rfl)
    obtain ⟨old', there', same', created'⟩ :=
      old_of_isSome sound ordered step member' (traffic.row_of_asksFor sent' asks')
    rw [← created'', ← created']
    exact dispatched.next position _ subJob here rfl created old there (same.trans id) earlier sent' old' there'
      (same' ▸ asks')

theorem Dispatched.passed_step (sound : Sound source) (traffic : Traffic source) (dispatched : Dispatched source)
    (ordered : Ordered source event) (step : Step (platform registry) source event target) {sent : Message × String}
    (queued : sent ∈ target.world.jobQueue) {row : SubJobRow} (member : row ∈ target.world.subJobs.rows)
    (asks : sent.1.asksFor row.id = true) : PassedOn target.world row := by
  have kept (queued : sent ∈ source.world.jobQueue) : PassedOn target.world row := by
    obtain ⟨old, there, id, created⟩ := old_of_isSome sound ordered step member (traffic.row_of_asksFor queued asks)
    exact (dispatched.passed sent queued old there (id ▸ asks)).step sound ordered step there created.symm
  obtain same | ⟨position, subJob, workers, new, here, -, own, grown⟩ := published_by_step sound step
  · exact kept (same ▸ queued)
  · rw [grown] at queued
    obtain rfl | old := List.mem_cons.mp queued
    · have id := own row.id asks
      obtain ⟨old, there, same, created⟩ :=
        old_of_isSome sound ordered step member (id ▸ isSome_of_held sound here rfl)
      have passed := dispatched.held position _ subJob here rfl old there (same.trans id)
      exact passed.step sound ordered step there created.symm
    · exact kept old

theorem Dispatched.held_step (sound : Sound source) (dispatched : Dispatched source) (ordered : Ordered source event)
    (step : Step (platform registry) source event target) {position : ℕ} {phase : JobPhase} {subJob : SubJobWithJob}
    (here : At target position .subJobTick phase) (held : phase.snapshot = some subJob) {row : SubJobRow}
    (member : row ∈ target.world.subJobs.rows) (own : row.id = subJob.id) : PassedOn target.world row := by
  obtain ⟨before, there, held, -⟩ | ⟨-, -, -, -, reached, first, found, picked, -⟩ := here.held sound.tracks step held
  · obtain ⟨old, member', id, created⟩ :=
      old_of_isSome sound ordered step member (own ▸ isSome_of_held sound there held)
    have passed := dispatched.held position before subJob there held old member' (id.trans own)
    exact passed.step sound ordered step member' created.symm
  · rw [reached] at member ⊢
    obtain rfl : row = first := Option.some.inj ((mem_iff_find?.mp member).symm.trans (own ▸ found))
    exact passedOn_of_first picked

theorem Dispatched.next_step (sound : Sound source) (traffic : Traffic source) (dispatched : Dispatched source)
    (ordered : Ordered source event) (step : Step (platform registry) source event target) {position : ℕ}
    {phase : JobPhase} {subJob : SubJobWithJob} (here : At target position .subJobTick phase)
    (held : phase.snapshot = some subJob) (created : subJob.status = .created) {row : SubJobRow}
    (member : row ∈ target.world.subJobs.rows) (own : row.id = subJob.id) {sent : Message × String}
    (queued : sent ∈ target.world.jobQueue) {other : SubJobRow} (member' : other ∈ target.world.subJobs.rows)
    (asks : sent.1.asksFor other.id = true) : other.createdAt ≤ row.createdAt := by
  obtain ⟨before, there, held', kept⟩ | ⟨-, -, -, -, reached, first, found, picked, same⟩ :=
    here.held sound.tracks step held
  · have old (queued : sent ∈ source.world.jobQueue) : other.createdAt ≤ row.createdAt := by
      obtain ⟨before', inside, id, dates⟩ :=
        old_of_isSome sound ordered step member (own ▸ isSome_of_held sound there held')
      obtain ⟨earlier, inside', id', dates'⟩ :=
        old_of_isSome sound ordered step member' (traffic.row_of_asksFor queued asks)
      rw [← dates, ← dates']
      exact dispatched.next position before subJob there held' created before' inside (id.trans own) sent queued earlier
        inside' (id' ▸ asks)
    obtain same | ⟨position', subJob', workers, new, publishes, -, names, grown⟩ := published_by_step sound step
    · exact old (same ▸ queued)
    · rw [grown] at queued
      obtain rfl | earlier := List.mem_cons.mp queued
      · -- the only tick in flight has published the message of its own sub-job
        obtain ⟨-, rfl⟩ := sound.tick_unique there publishes
        cases held'
        have named : other.id = row.id := (names other.id asks).trans own.symm
        have same : other = row :=
          Option.some.inj ((mem_iff_find?.mp member').symm.trans (named ▸ mem_iff_find?.mp member))
        exact same ▸ le_refl _
      · exact old earlier
  · rw [reached] at member member' queued
    obtain rfl : row = first := Option.some.inj ((mem_iff_find?.mp member).symm.trans (own ▸ found))
    by_contra older
    refine dispatched.passed sent queued other member' asks row member (not_le.mp older) ?_
    exact (congrArg SubJob.status same).symm.trans created

theorem Dispatched.step (sound : Sound source) (traffic : Traffic source) (dispatched : Dispatched source)
    (ordered : Ordered source event) (step : Step (platform registry) source event target) : Dispatched target where
  ordered := dispatched.ordered_step sound traffic ordered step
  passed _ queued _ member asks := dispatched.passed_step sound traffic ordered step queued member asks
  held _ _ _ here held _ member own := dispatched.held_step sound ordered step here held member own
  next _ _ _ here held created _ member own _ queued _ member' asks :=
    dispatched.next_step sound traffic ordered step here held created member own queued member' asks

theorem Dispatched.of_initial {pool : System} (initial : Initial pool) : Dispatched pool where
  ordered := by simp [World.DispatchedInOrder, initial.jobQueue]
  passed := by simp [initial.jobQueue]
  held _ _ _ here := absurd here (not_at_of_initial initial)
  next _ _ _ here := absurd here (not_at_of_initial initial)

/-- Sub-jobs are dispatched in the order of their creation, whatever else the system does; and once one has been
dispatched, nothing older waits any more. -/
theorem dispatched_inOrder (registry : ServiceScalerRegistry) {source target : System} {events : List SystemEvent}
    (initial : Initial source) (run : Run (platform registry) Ordered source events target) :
    target.world.DispatchedInOrder ∧ ∀ sent ∈ target.world.jobQueue, ∀ row ∈ target.world.subJobs.rows,
      sent.1.asksFor row.id = true → PassedOn target.world row := by
  have both : Sound target ∧ Traffic target ∧ Dispatched target :=
    sound_invariant (I := fun pool => Traffic pool ∧ Dispatched pool) run
      (fun sound known ordered step => ⟨known.1.step sound step, known.2.step sound known.1 ordered step⟩)
      (.of_initial initial) ⟨.of_initial initial, .of_initial initial⟩
  exact ⟨both.2.2.ordered, both.2.2.passed⟩

/-- Sub-job 3 is dispatched, its deadline passes, and sub-job 4 is dispatched after it. -/
theorem dispatched_inOrder_two : ∃ events target,
    Run (platform ⟨false⟩) Ordered (sampleSystem .online) events target ∧ target.world.dispatches 3 = 1 ∧
      target.world.dispatches 4 = 1 ∧ target.world.DispatchedInOrder := by
  have replayed : ((replay ⟨false⟩ insertsNewest (sampleSystem .online) (sampleCreation ++ sampleTick 1 7 ++
      sampleTick 2 7 ++ [.clock (Duration.seconds 200)] ++ sampleTick 3 3 ++ sampleTick 4 7)).any fun target =>
        decide (target.world.dispatches 3 = 1) && decide (target.world.dispatches 4 = 1)) = true := by
    decide +kernel
  obtain ⟨events, target, run, found⟩ := exists_run_of_replay replayed
  obtain ⟨first, second⟩ := (Bool.and_eq_true ..).mp found
  have ordered := run.mono fun _ _ => ordered_of_insertsNewest
  exact ⟨events, target, ordered, of_decide_eq_true first, of_decide_eq_true second,
    (dispatched_inOrder ⟨false⟩ (initial_sampleSystem .online) ordered).1⟩

end Bms
