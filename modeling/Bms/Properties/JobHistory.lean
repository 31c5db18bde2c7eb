import Bms.Model.Replay
import Bms.Protocol.Creating

/-! # The history of a job's row

A job is inserted pending, with details that decode. After that a tick may complete it or set the number
of workers in its details, and a cancellation may cancel it; nothing else of the row ever changes and the
row is never removed.
-/

namespace Bms

open Process

/-- What a later row of the same job keeps: all but the status and the number of workers. -/
structure JobRow.Keeps (row later : JobRow) : Prop where
  url : later.url = row.url
  routingKey : later.routingKey = row.routingKey
  createdAt : later.createdAt = row.createdAt
  status : later.status = row.status ∨ later.status = .completed ∨ later.status = .canceled
  details : ∀ details : JobDetails, JobDetails.Reads row.details details → details.InRange →
    ∃ count, JobDetails.Reads later.details { details with workersCount := count } ∧
      ({ details with workersCount := count } : JobDetails).InRange

theorem JobRow.Keeps.refl (row : JobRow) : row.Keeps row :=
  ⟨rfl, rfl, rfl, .inl rfl, fun details reads range => ⟨details.workersCount, reads, range⟩⟩

theorem JobRow.Keeps.trans {row middle later : JobRow} (first : row.Keeps middle) (second : middle.Keeps later) :
    row.Keeps later where
  url := second.url.trans first.url
  routingKey := second.routingKey.trans first.routingKey
  createdAt := second.createdAt.trans first.createdAt
  status := by
    rcases second.status with same | ended
    · rw [same]
      exact first.status
    · exact .inr ended
  details details reads range := by
    obtain ⟨count, reads, range⟩ := first.details details reads range
    have further := second.details _ reads range
    exact further

variable {registry : ServiceScalerRegistry} {source target : System} {event : SystemEvent}

theorem JobChange.keeps {pool : System} {row later : JobRow} (change : JobChange pool row event later) : row.Keeps later := by
  cases change with
  | canceled => exact ⟨rfl, rfl, rfl, .inr (.inr rfl), (JobRow.Keeps.refl row).details⟩
  | completed => exact ⟨rfl, rfl, rfl, .inr (.inl rfl), (JobRow.Keeps.refl row).details⟩
  | @expected _ _ _ count =>
    refine ⟨rfl, rfl, rfl, .inl rfl, fun details reads range => ⟨some (castI64 count), reads.expect _, ?_⟩⟩
    have counted : ∀ value ∈ some (castI64 count), IsI64 value := by
      intro value member
      rw [← Option.some.inj (Option.mem_def.mp member)]
      exact JobDetails.isI64_castI64 count
    exact { range with workersCount := counted }

theorem jobKeeps_step (tracks : jobMonitor.TracksAll source) (step : Step (platform registry) source event target)
    {id : Uuid} {row : JobRow} (found : source.world.jobs.find? id = some row) :
    ∃ later, target.world.jobs.find? id = some later ∧ row.Keeps later := by
  obtain ⟨later, found', rfl | change⟩ := job_step tracks step found
  · exact ⟨later, found', .refl later⟩
  · exact ⟨later, found', change.keeps⟩

/-- What is known of every job: its details decode, and it is pending, completed or canceled. -/
structure JobsKnown (pool : System) : Prop where
  creating : Creating pool
  described : ∀ id row, pool.world.jobs.find? id = some row → ∃ details, JobDetails.Reads row.details details ∧
    details.InRange
  status : ∀ id row, pool.world.jobs.find? id = some row → row.status ∈ [.pending, .completed, .canceled]

theorem JobsKnown.step (sound : Sound source) (known : JobsKnown source)
    (step : Step (platform registry) source event target) : JobsKnown target where
  creating := known.creating.step sound.tracks step
  described id later found' := by
    obtain ⟨row, found, changed⟩ | ⟨-, insert⟩ := job_before sound.tracks step found'
    · obtain ⟨details, reads, range⟩ := known.described id row found
      obtain ⟨same, found'', keeps⟩ := jobKeeps_step sound.tracks step found
      obtain rfl : same = later := Option.some.inj (found''.symm.trans found')
      obtain ⟨count, reads, range⟩ := keeps.details details reads range
      exact ⟨_, reads, range⟩
    · cases insert with
      | inserted here =>
        obtain ⟨row, found, reads, range⟩ := known.creating.describes sound.tracks step
        have id := job_id found'
        dsimp only at id
        subst id
        obtain rfl := Option.some.inj (found.symm.trans found')
        exact ⟨_, reads, range⟩
  status id later found' := by
    obtain ⟨row, found, rfl | change⟩ | ⟨-, insert⟩ := job_before sound.tracks step found'
    · exact known.status id later found
    · have before := known.status id row found
      rcases change.keeps.status with same | same | same <;> rw [same]
      · exact before
      · decide
      · decide
    · cases insert
      exact List.mem_cons_self ..

theorem JobsKnown.of_initial {pool : System} (initial : Initial pool) : JobsKnown pool := by
  have empty {id : Uuid} {row : JobRow} : pool.world.jobs.find? id ≠ some row := by
    intro found
    have member := Table.mem_of_find? found
    rw [initial.jobs] at member
    cases member
  exact ⟨.of_initial initial, fun _ _ found => absurd found empty, fun _ _ found => absurd found empty⟩

theorem jobsKnown_of_run {ok : System → SystemEvent → Prop} {events : List SystemEvent} (initial : Initial source)
    (run : Run (platform registry) ok source events target) : Sound target ∧ JobsKnown target :=
  sound_invariant run (fun sound known _ step => known.step sound step) (.of_initial initial) (.of_initial initial)

/-- From any state that a run reaches, a job's row stays in the table as it is, but for its status, which becomes
completed or canceled if it changes at all, and for the number of workers in its details, which always decode. -/
theorem job_history (registry : ServiceScalerRegistry) {ok : System → SystemEvent → Prop} {source pool target : System}
    {events later : List SystemEvent} (initial : Initial source) (reached : Run (platform registry) ok source events pool)
    (run : Run (platform registry) ok pool later target) {id : Uuid} {row : JobRow}
    (found : pool.world.jobs.find? id = some row) :
    ∃ after details count, target.world.jobs.find? id = some after ∧ after.url = row.url ∧
      after.routingKey = row.routingKey ∧ after.createdAt = row.createdAt ∧
      (after.status = row.status ∨ after.status = .completed ∨ after.status = .canceled) ∧
      row.status ∈ [.pending, .completed, .canceled] ∧ JobDetails.ofJson? row.details = some details ∧
      JobDetails.ofJson? after.details = some { details with workersCount := count } := by
  obtain ⟨sound, known⟩ := jobsKnown_of_run initial reached
  have kept : Sound target ∧ ∃ after, target.world.jobs.find? id = some after ∧ row.Keeps after := by
    refine sound_invariant (I := fun pool => ∃ after, pool.world.jobs.find? id = some after ∧ row.Keeps after) run ?_
      sound ⟨row, found, .refl row⟩
    rintro before event next sound ⟨middle, found, keeps⟩ _ step
    obtain ⟨after, found', further⟩ := jobKeeps_step sound.tracks step found
    exact ⟨after, found', keeps.trans further⟩
  obtain ⟨after, found', keeps⟩ := kept.2
  obtain ⟨details, reads, range⟩ := known.described id row found
  obtain ⟨count, reads', range'⟩ := keeps.details details reads range
  exact ⟨after, details, count, found', keeps.url, keeps.routingKey, keeps.createdAt, keeps.status, known.status id row found,
    reads.ofJson? range, reads'.ofJson? range'⟩

/-- Job 1 is created, its first tick sets the number of workers, and it is cancelled. -/
theorem job_history_cancelled : ∃ events later pool target row after details count,
    Run (platform ⟨false⟩) (fun _ _ => True) (sampleSystem .online) events pool ∧
      Run (platform ⟨false⟩) (fun _ _ => True) pool later target ∧ pool.world.jobs.find? 1 = some row ∧
      row.status = .pending ∧ target.world.jobs.find? 1 = some after ∧ after.status = .canceled ∧
      after.url = row.url ∧ after.createdAt = row.createdAt ∧ JobDetails.ofJson? row.details = some details ∧
      JobDetails.ofJson? after.details = some { details with workersCount := count } := by
  have replayed : ((replay ⟨false⟩ (fun _ _ => true) (sampleSystem .online) sampleCreation).any fun pool =>
      decide (pool.world.jobStatus? 1 = some .pending) &&
        (replay ⟨false⟩ (fun _ _ => true) pool (sampleTick 1 7 ++ .start (.cancelJob 1) :: goTimes 2 3)).any
          fun target => decide (target.world.jobStatus? 1 = some .canceled)) = true := by
    decide +kernel
  obtain ⟨events, pool, reached, found⟩ := exists_run_of_replay replayed
  obtain ⟨pending, replayed⟩ := (Bool.and_eq_true ..).mp found
  obtain ⟨later, target, run, canceled⟩ := exists_run_of_replay replayed
  have reached := reached.mono fun _ _ _ => trivial
  have run := run.mono fun _ _ _ => trivial
  obtain ⟨row, present, status⟩ := Option.map_eq_some_iff.mp (of_decide_eq_true pending)
  obtain ⟨other, present', status'⟩ := Option.map_eq_some_iff.mp (of_decide_eq_true canceled)
  obtain ⟨after, details, count, found', url, -, createdAt, -, -, decoded, decoded'⟩ :=
    job_history ⟨false⟩ (initial_sampleSystem .online) reached run present
  obtain rfl : other = after := Option.some.inj (present'.symm.trans found')
  exact ⟨events, later, pool, target, row, other, details, count, reached, run, present, status, found', status', url,
    createdAt, decoded, decoded'⟩

end Bms
