import Bms.Protocol.Ticks

/-! # Results

Results are saved one at a time under fresh ids and never change. Only the tick in flight writes the
details and the deadline of a sub-job. So what a tick has read is still there when it acts on it.
-/

namespace Bms

open Process

variable {registry : ServiceScalerRegistry} {source target : System} {event : SystemEvent}

/-- Results are saved by deliveries only. -/
theorem workerData_step (tracks : jobMonitor.TracksAll source) (step : Step (platform registry) source event target) :
    target.world.workerData = source.world.workerData ∨
      ∃ position result done, event = .call position ⟨.sql (.saveData result), .ok done⟩ ∧
        source.world.workerData.find? result.runId = none ∧
        target.world.workerData = source.world.workerData.insert (Stmt.savedRow source.world result) := by
  cases event with
  | spawn kind => exact .inl (sameJobs_of_step step fun _ _ same => by cases same).workerData
  | drift => exact .inl (sameJobs_of_step step fun _ _ same => by cases same).workerData
  | call position made =>
    obtain ⟨op, reply⟩ := made
    obtain ⟨kind, phase, here, legal, allowed, reached⟩ := legal_of_call tracks step
    rw [reached]
    cases legal with
    | quiet quiet => exact .inl (sameJobs_of_quiet _ reply quiet).workerData
    | save =>
      cases reply with
      | error e => exact .inl rfl
      | ok done => exact .inr ⟨position, _, done, rfl, allowed.1, rfl⟩
    | drawJob | drawSubJob | drawRun => exact .inl rfl
    | _ => cases reply <;> exact .inl rfl

/-- A step adds at most one result, to the sub-job that it names. -/
theorem dataOf_step (tracks : jobMonitor.TracksAll source) (step : Step (platform registry) source event target) :
    (∀ id, target.world.dataOf id = source.world.dataOf id) ∨
      ∃ position result done, event = .call position ⟨.sql (.saveData result), .ok done⟩ ∧
        ∀ id, target.world.dataOf id =
          source.world.dataOf id ++ if result.subJobId = id then [Stmt.savedRow source.world result] else [] := by
  obtain same | ⟨position, result, done, saves, fresh, inserted⟩ := workerData_step tracks step
  · left
    intro id
    rw [World.dataOf, same, World.dataOf]
  · right
    refine ⟨position, result, done, saves, fun id => ?_⟩
    have rows : target.world.workerData.rows = source.world.workerData.rows ++ [Stmt.savedRow source.world result] := by
      rw [inserted]
      exact Table.rows_insert_fresh fresh
    rw [World.dataOf, rows, List.filter_append, World.dataOf]
    by_cases own : result.subJobId = id <;> simp [own, Stmt.savedRow]

/-- Results stay. -/
theorem dataOf_grows (tracks : jobMonitor.TracksAll source) (step : Step (platform registry) source event target)
    (id : Uuid) : (source.world.dataOf id).Sublist (target.world.dataOf id) := by
  obtain same | ⟨_, _, _, -, added⟩ := dataOf_step tracks step
  · rw [same id]
  · rw [added id]
    exact List.sublist_append_left ..

/-! ## What a tick has read -/

/-- The phases in which a tick has written nothing to its sub-job. -/
def JobPhase.Unwritten (subJob : SubJobWithJob) : JobPhase → Prop
  | held other | surveyed other _ | answered other _ => other = subJob
  | _ => False

theorem JobPhase.Unwritten.snapshot {phase : JobPhase} {subJob : SubJobWithJob} (unwritten : phase.Unwritten subJob) :
    phase.snapshot = some subJob := by
  cases phase <;> first | exact congrArg some unwritten | exact unwritten.elim

theorem JobPhase.unwritten_note {phase : JobPhase} {made : Act} {subJob : SubJobWithJob}
    (unwritten : (phase.note made).Unwritten subJob) :
    phase.Unwritten subJob ∨ (phase = .searching ∧ made = ⟨.sql .getFirstUnfinishedSubJob, .ok subJob⟩) := by
  have noted := phase.notes made
  generalize phase.note made = later at unwritten noted
  cases noted with
  | stays | surveys | answers => exact .inl unwritten
  | picks =>
    obtain rfl := unwritten
    exact .inr ⟨rfl, rfl⟩
  | _ => exact unwritten.elim

theorem JobPhase.answered_note {phase : JobPhase} {made : Act} {subJob : SubJobWithJob} {data : List WorkerDataRow}
    (answered : phase.note made = .answered subJob data) :
    phase = .answered subJob data ∨
      ∃ id, phase = .held subJob ∧ made = ⟨.sql (.getDataBySubJobId id), .ok data⟩ := by
  have noted := phase.notes made
  rw [answered] at noted
  cases noted with
  | stays => exact .inl rfl
  | answers => exact .inr ⟨_, rfl, rfl⟩

/-- Details and deadlines are written by the tick in flight, which notes that it has done so. -/
theorem SubJobWrite.details {pool : System} {event : SystemEvent} {test : SubJobRow → Bool}
    {change : SubJobRow → SubJobRow} (write : SubJobWrite pool event test change) (row : SubJobRow) :
    ((change row).details = row.details ∧ (change row).deadlineAt = row.deadlineAt) ∨
      ∃ position phase op reply, At pool position .subJobTick phase ∧ event = .call position ⟨op, reply⟩ ∧
        ∀ subJob, ¬ (phase.note ⟨op, reply⟩).Unwritten subJob := by
  cases write with
  | recorded here => exact .inr ⟨_, _, _, _, here, rfl, fun _ => id⟩
  | pended here => exact .inr ⟨_, _, _, _, here, rfl, fun _ => id⟩
  | scaled here => exact .inr ⟨_, _, _, _, here, rfl, fun _ => id⟩
  | failed here failable =>
    refine .inr ⟨_, _, _, _, here, rfl, fun subJob unwritten => ?_⟩
    rw [failable.note] at unwritten
    exact unwritten
  | unneeded | reached | completed | begun | canceled => exact .inl ⟨rfl, rfl⟩

/-- What a tick in flight has read is still so. -/
structure Reads (pool : System) : Prop where
  /-- the details and the deadline, until it writes them -/
  row : ∀ position kind phase subJob, At pool position kind phase → phase.Unwritten subJob →
    ∃ row, pool.world.subJobs.find? subJob.id = some row ∧ row.details = subJob.details ∧
      row.deadlineAt = subJob.deadlineAt
  /-- it had not ended when it was picked -/
  status : ∀ position kind phase subJob, At pool position kind phase → phase.snapshot = some subJob →
    subJob.status.Unfinished
  /-- the results -/
  data : ∀ position kind subJob data, At pool position kind (.answered subJob data) →
    data.Subperm (pool.world.dataOf subJob.id)

theorem Reads.row_step (sound : Sound source) (reads : Reads source)
    (step : Step (platform registry) source event target) {position : ℕ} {kind : Kind} {phase : JobPhase}
    {subJob : SubJobWithJob} (here : At target position kind phase) (unwritten : phase.Unwritten subJob) :
    ∃ row, target.world.subJobs.find? subJob.id = some row ∧ row.details = subJob.details ∧
      row.deadlineAt = subJob.deadlineAt := by
  have kept {before : JobPhase} (there : At source position kind before) (unwritten : before.Unwritten subJob)
      (spared : ∀ op reply, event = .call position ⟨op, reply⟩ → (before.note ⟨op, reply⟩).Unwritten subJob) :
      ∃ row, target.world.subJobs.find? subJob.id = some row ∧ row.details = subJob.details ∧
        row.deadlineAt = subJob.deadlineAt := by
    obtain ⟨row, found, details, deadline⟩ := reads.row position kind before subJob there unwritten
    obtain ⟨rfl, -⟩ := sound.known position kind before subJob there unwritten.snapshot
    obtain ⟨later, found', rfl | ⟨test, change, write, -, rfl⟩⟩ := subJob_step sound.tracks step found
    · exact ⟨later, found', details, deadline⟩
    · obtain ⟨same, same'⟩ | ⟨other, phase', op, reply, there', rfl, written⟩ := write.details row
      · exact ⟨_, found', same.trans details, same'.trans deadline⟩
      · obtain ⟨rfl, rfl⟩ := sound.tick_unique there there'
        exact absurd (spared op reply rfl) (written subJob)
  obtain ⟨old, silent⟩ | ⟨-, rfl⟩ | ⟨before, op, reply, old, legal, rfl, rfl, allowed, reached⟩ :=
    here.before sound.tracks step
  · exact kept old unwritten fun op reply same => absurd same (silent _)
  · cases kind <;> exact unwritten.elim
  · obtain before | ⟨rfl, picks⟩ := JobPhase.unwritten_note unwritten
    · apply kept old before
      intro op' reply' same
      cases same
      exact unwritten
    · cases picks
      obtain ⟨row, found, -, same⟩ := picked_row allowed
      rw [reached]
      exact ⟨row, found, (congrArg SubJob.details same).symm, (congrArg SubJob.deadlineAt same).symm⟩

theorem Reads.data_step (sound : Sound source) (reads : Reads source)
    (step : Step (platform registry) source event target) {position : ℕ} {kind : Kind} {subJob : SubJobWithJob}
    {data : List WorkerDataRow} (here : At target position kind (.answered subJob data)) :
    data.Subperm (target.world.dataOf subJob.id) := by
  have kept (there : At source position kind (.answered subJob data)) : data.Subperm (target.world.dataOf subJob.id) :=
    (reads.data position kind subJob data there).trans (dataOf_grows sound.tracks step subJob.id).subperm
  obtain ⟨old, -⟩ | ⟨-, starts⟩ | ⟨before, op, reply, old, legal, rfl, noted, allowed, reached⟩ :=
    here.before sound.tracks step
  · exact kept old
  · cases kind <;> cases starts
  · obtain rfl | ⟨id, rfl, made⟩ := JobPhase.answered_note noted.symm
    · exact kept old
    · cases made
      cases legal with
      | quiet quiet => exact quiet.elim
      | collect measuring processing =>
        have read : data.Perm (source.world.dataOf subJob.id) := allowed
        rw [reached]
        exact read.subperm

theorem Reads.status_step (sound : Sound source) (reads : Reads source)
    (step : Step (platform registry) source event target) {position : ℕ} {kind : Kind} {phase : JobPhase}
    {subJob : SubJobWithJob} (here : At target position kind phase) (held : phase.snapshot = some subJob) :
    subJob.status.Unfinished := by
  obtain ⟨before, there, held, -⟩ | ⟨-, -, -, -, -, row, -, first, same⟩ := here.held sound.tracks step held
  · exact reads.status position kind before subJob there held
  · have unfinished := first.2.1
    rwa [← show subJob.status = row.status from congrArg SubJob.status same] at unfinished

theorem Reads.step (sound : Sound source) (reads : Reads source) (step : Step (platform registry) source event target) :
    Reads target where
  row _ _ _ _ here unwritten := reads.row_step sound step here unwritten
  status _ _ _ _ here held := reads.status_step sound step here held
  data _ _ _ _ here := reads.data_step sound step here

theorem Reads.of_initial {pool : System} (initial : Initial pool) : Reads pool where
  row _ _ _ _ here := absurd here (not_at_of_initial initial)
  status _ _ _ _ here := absurd here (not_at_of_initial initial)
  data _ _ _ _ here := absurd here (not_at_of_initial initial)

/-! ## Deadlines -/

/-- A tick whose call leaves it without a snapshot has been the one in flight, so none is dispatching. -/
theorem Sound.not_dispatching_after (sound : Sound source) {position : ℕ} {phase : JobPhase} {op : Op} {reply : op.Reply}
    (step : Step (platform registry) source (.call position ⟨op, reply⟩) target)
    (here : At source position .subJobTick phase) (released : (phase.note ⟨op, reply⟩).snapshot = none) (id : Uuid) :
    ¬ Dispatching target id := by
  rintro ⟨subJob, holds, -, -⟩
  obtain ⟨other, phase', there, held⟩ := (sound.step step).at_of_holds holds
  obtain ⟨before, there, -, kept⟩ | ⟨-, -, there, picks, -⟩ := there.held sound.tracks step held
  · obtain ⟨rfl, rfl⟩ := sound.tick_unique here there
    rw [kept op reply rfl] at released
    cases released
  · obtain ⟨rfl, rfl⟩ := sound.tick_unique here there
    cases picks
    cases released

/-- A sub-job with a deadline has been dispatched, by a tick that is over. -/
def Dated (pool : System) : Prop :=
  ∀ id row, pool.world.subJobs.find? id = some row → row.deadlineAt.isSome →
    row.status ≠ .created ∧ ¬ Dispatching pool id

theorem Dated.step (sound : Sound source) (dated : Dated source) (step : Step (platform registry) source event target) :
    Dated target := by
  intro id later found' deadline
  cases found : source.world.subJobs.find? id with
  | none =>
    obtain ⟨_, _, _, _, _, _, -, -, -, -, same⟩ := (subJob_inserted sound.tracks step found found').creates
    rw [same] at deadline
    cases deadline
  | some row =>
    have idle (deadline : row.deadlineAt.isSome) : row.status ≠ .created ∧ ¬ Dispatching target id := by
      obtain ⟨status, idle⟩ := dated id row found deadline
      refine ⟨status, fun dispatching => ?_⟩
      obtain busy | ⟨-, -, picked, known, -, created⟩ := sound.dispatching_before step dispatching
      · exact idle busy
      · obtain rfl : row = picked := Option.some.inj (found.symm.trans known)
        exact status created
    obtain ⟨same, found'', rfl | ⟨test, change, write, -, rfl⟩⟩ := subJob_step sound.tracks step found
    · obtain rfl : later = same := Option.some.inj (found'.symm.trans found'')
      exact idle deadline
    · obtain rfl := Option.some.inj (found'.symm.trans found'')
      cases write with
      | pended here => exact ⟨nofun, sound.not_dispatching_after step here rfl id⟩
      | scaled here => exact ⟨nofun, sound.not_dispatching_after step here rfl id⟩
      | recorded => exact idle deadline
      | unneeded | reached | completed | failed | begun | canceled => exact ⟨nofun, (idle deadline).2⟩

theorem Dated.of_initial {pool : System} (initial : Initial pool) : Dated pool := by
  intro id row found
  have member := Table.mem_of_find? found
  rw [initial.subJobs] at member
  cases member

end Bms
