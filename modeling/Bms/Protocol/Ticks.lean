import Bms.Protocol.JobChanges

/-! # Ticks and their snapshots

The handler runs one tick at a time. A tick in flight has picked a sub-job whose row still exists,
with the job and the type that the snapshot shows.
-/

namespace Bms

open Process

variable {registry : ServiceScalerRegistry} {source target : System} {event : SystemEvent}

/-- A task in flight after a step was so before, has just started or has just made a call. -/
theorem At.before (tracks : jobMonitor.TracksAll source) (step : Step (platform registry) source event target)
    {position : ℕ} {kind : Kind} {phase : JobPhase} (here : At target position kind phase) :
    (At source position kind phase ∧ ∀ made, event ≠ .call position made) ∨
      (event = .spawn kind ∧ phase = JobPhase.start kind) ∨
      ∃ before op reply, At source position kind before ∧ JobLegal kind before op ∧
        event = .call position ⟨op, reply⟩ ∧ phase = before.note ⟨op, reply⟩ ∧
        Act.Allowed source.world ⟨op, reply⟩ ∧ target.world = Act.after source.world ⟨op, reply⟩ :=
  Monitor.At.before tracks step here

/-- A task that makes a call goes on in the phase after it, or has returned there. -/
theorem At.after (tracks : jobMonitor.TracksAll source) {position : ℕ} {op : Op} {reply : op.Reply}
    (step : Step (platform registry) source (.call position ⟨op, reply⟩) target) {kind : Kind} {phase : JobPhase}
    (here : At source position kind phase) :
    At target position kind (phase.note ⟨op, reply⟩) ∨ (phase.note ⟨op, reply⟩).Final :=
  Monitor.At.after (jobMonitor_covers registry) tracks step here

/-- What a task has logged after a step it had logged before, or it is the call of the step. -/
theorem logged_before (tracks : jobMonitor.TracksAll source) (step : Step (platform registry) source event target)
    {task : SystemTask} (member : task ∈ target.tasks) {op : Op} {reply : op.Reply} (logged : ⟨op, reply⟩ ∈ task.log) :
    (∃ before ∈ source.tasks, before.kind = task.kind ∧ ⟨op, reply⟩ ∈ before.log) ∨
      ∃ position phase, At source position task.kind phase ∧ JobLegal task.kind phase op ∧
        event = .call position ⟨op, reply⟩ := by
  obtain ⟨position, present⟩ := List.mem_iff_getElem?.mp member
  obtain old | ⟨kind, -, -, rfl⟩ | ⟨before, op', next, reply', old, awaits, rfl, -, rfl⟩ := step.task_cases present
  · exact .inl ⟨task, List.mem_of_getElem? old, rfl, logged⟩
  · cases logged
  · obtain earlier | now := List.mem_append.mp logged
    · exact .inl ⟨before, List.mem_of_getElem? old, rfl, earlier⟩
    · cases List.mem_singleton.mp now
      exact .inr ⟨position, _, ⟨before, old, ⟨_, next, awaits⟩, rfl, rfl⟩, (tracks position before old).legal awaits, rfl⟩

/-- A phase has the snapshot of the phase before, or the sub-job has just been picked. -/
theorem JobPhase.snapshot_note {phase : JobPhase} {made : Act} {subJob : SubJobWithJob}
    (held : (phase.note made).snapshot = some subJob) :
    phase.snapshot = some subJob ∨ (phase = .searching ∧ made = ⟨.sql .getFirstUnfinishedSubJob, .ok subJob⟩) := by
  have noted := phase.notes made
  generalize phase.note made = later at held noted
  cases noted with
  | stays => exact .inl held
  | picks =>
    cases held
    exact .inr ⟨rfl, rfl⟩
  | surveys | records | publishes | refuses | answers | completes | empties => exact .inl held
  | finishes | draws | creates | inserts | cancelsJob | cancelsSubJobs => cases held

/-- The sub-job that a task has read as the first unfinished one. -/
def pickedIn (log : List Act) : Option SubJobWithJob :=
  log.findSome? fun
    | ⟨.sql .getFirstUnfinishedSubJob, .ok subJob⟩ => some subJob
    | _ => none

theorem pickedIn_concat (log : List Act) (made : Act) :
    pickedIn (log ++ [made]) = (pickedIn log).or (pickedIn [made]) := List.findSome?_append

/-- A task picks a sub-job in no other call. -/
theorem pickedIn_cons_of_ne {made : Act} {log : List Act}
    (other : ∀ subJob, made ≠ ⟨.sql .getFirstUnfinishedSubJob, .ok subJob⟩) : pickedIn (made :: log) = pickedIn log := by
  rw [pickedIn, List.findSome?_cons]
  split
  · next found =>
    split at found
    · exact absurd rfl (other _)
    · cases found
  · rfl

theorem mem_of_pickedIn {log : List Act} {subJob : SubJobWithJob} (picked : pickedIn log = some subJob) :
    ⟨.sql .getFirstUnfinishedSubJob, .ok subJob⟩ ∈ log := by
  obtain ⟨made, member, found⟩ := List.exists_of_findSome?_eq_some picked
  split at found
  · cases found
    exact member
  · cases found

theorem eq_of_pickedIn {made : Act} {subJob : SubJobWithJob} (picked : pickedIn [made] = some subJob) :
    made = ⟨.sql .getFirstUnfinishedSubJob, .ok subJob⟩ := by
  rw [pickedIn, List.findSome?_cons] at picked
  split at picked
  · next found =>
    cases picked
    split at found <;> cases found
    rfl
  · cases picked

/-- A tick in flight acts on this snapshot. -/
def Holds (pool : System) (subJob : SubJobWithJob) : Prop :=
  ∃ task ∈ pool.tasks, task.kind = .subJobTick ∧ task.InFlight ∧ pickedIn task.log = some subJob

theorem JobPhase.note_snapshot {phase : JobPhase} {made : Act} {subJob : SubJobWithJob}
    (held : phase.snapshot = some subJob ∨ phase = .finished) :
    (phase.note made).snapshot = some subJob ∨ phase.note made = .finished := by
  have noted := phase.notes made
  generalize phase.note made = later at noted
  cases noted with
  | stays => exact held
  | finishes => exact .inr rfl
  | surveys | records | publishes | refuses | answers | completes | empties =>
    exact .inl (held.resolve_right nofun)
  | picks | draws | creates | inserts | cancelsJob | cancelsSubJobs => rcases held with held | held <;> cases held

/-- A task that has picked a sub-job holds it until it has finished. -/
theorem JobPhase.snapshot_of_picked {log : List Act} {phase : JobPhase} {subJob : SubJobWithJob}
    (held : phase.snapshot = some subJob ∨ phase = .finished ∨ (phase = .searching ∧ pickedIn log = some subJob)) :
    (log.foldl JobPhase.note phase).snapshot = some subJob ∨ log.foldl JobPhase.note phase = .finished := by
  induction log generalizing phase with
  | nil =>
    obtain held | held | ⟨-, picked⟩ := held
    · exact .inl held
    · exact .inr held
    · cases picked
  | cons made log ih =>
    apply ih
    obtain held | held | ⟨rfl, picked⟩ := held
    · exact (JobPhase.note_snapshot (.inl held)).imp_right .inl
    · exact (JobPhase.note_snapshot (.inr held)).imp_right .inl
    · rw [pickedIn, List.findSome?_cons] at picked
      split at picked
      · next found =>
        split at found
        · cases found
          cases picked
          exact .inl rfl
        · cases found
      · next unread =>
        have noted := JobPhase.searching.notes made
        generalize JobPhase.searching.note made = later at noted
        cases noted with
        | stays => exact .inr (.inr ⟨rfl, picked⟩)
        | finishes => exact .inr (.inl rfl)
        | picks => cases unread

/-- A monitor that notes which sub-job a tick picks, by a snapshot that is kept until the tick has finished. -/
structure Picking {φ : Type} (note : φ → Act → φ) (snapshot : φ → Option SubJobWithJob) (searching : φ) : Prop where
  held : ∀ {phase made subJob}, snapshot (note phase made) = some subJob →
    snapshot phase = some subJob ∨ (phase = searching ∧ made = ⟨.sql .getFirstUnfinishedSubJob, .ok subJob⟩)
  searches : ∀ {phase made}, note phase made = searching →
    phase = searching ∧ ∀ subJob, made ≠ ⟨.sql .getFirstUnfinishedSubJob, .ok subJob⟩

/-- The snapshot is what the task has logged. -/
theorem Picking.picked_of_snapshot {φ : Type} {note : φ → Act → φ} {snapshot : φ → Option SubJobWithJob} {searching : φ}
    (picking : Picking note snapshot searching) {log : List Act} {phase : φ} {subJob : SubJobWithJob}
    (held : snapshot (log.foldl note phase) = some subJob) :
    snapshot phase = some subJob ∨ (phase = searching ∧ pickedIn log = some subJob) := by
  induction log generalizing phase with
  | nil => exact .inl held
  | cons made log ih =>
    obtain stays | ⟨searches, picked⟩ := ih held
    · obtain before | ⟨searches, rfl⟩ := picking.held stays
      · exact .inl before
      · exact .inr ⟨searches, rfl⟩
    · obtain ⟨before, other⟩ := picking.searches searches
      exact .inr ⟨before, (pickedIn_cons_of_ne other).trans picked⟩

theorem JobPhase.picking : Picking JobPhase.note JobPhase.snapshot .searching where
  held := JobPhase.snapshot_note
  searches {phase made} searches := by
    have noted := phase.notes made
    rw [searches] at noted
    cases noted with
    | stays same =>
      refine ⟨rfl, ?_⟩
      rintro subJob rfl
      cases same

theorem not_flies_of_admits {pool : System} {kind : Kind} (solitary : kind.Solitary) (admitted : Admits pool kind)
    (position : ℕ) : ¬ pool.Flies position kind := by
  rintro ⟨task, present, same, flying⟩
  have settled (all : ∀ task ∈ pool.tasks, task.kind = kind → ¬ task.InFlight) : False :=
    all task (List.mem_of_getElem? present) same flying
  cases kind with
  | subJobTick | descalerPass | onlineCheckPass => exact settled (admitted solitary)
  | _ => simp [Kind.Solitary] at solitary

/-- The snapshot of a tick in flight shows a row that exists, with its job and its type. -/
def SnapshotsKnown (pool : System) : Prop :=
  ∀ position kind phase subJob, At pool position kind phase → phase.snapshot = some subJob →
    kind = .subJobTick ∧ ∃ row, pool.world.subJobs.find? subJob.id = some row ∧ row.jobId = subJob.jobId ∧
      row.type = subJob.type

theorem toSubJob_of_withJob {w : World} {row : SubJobRow} {subJob : SubJobWithJob} (read : w.withJob? row = some subJob) :
    subJob.toSubJob = row.toSubJob := by
  simp only [World.withJob?, bind, Option.bind_eq_some_iff] at read
  obtain ⟨jobRow, -, job, -, same⟩ := read
  cases same
  rfl

/-- What a tick picks is a first unfinished row. -/
theorem picked_row {w : World} {subJob : SubJobWithJob}
    (allowed : Act.Allowed w ⟨.sql .getFirstUnfinishedSubJob, .ok subJob⟩) :
    ∃ row, w.subJobs.find? subJob.id = some row ∧ w.IsFirstUnfinished row ∧ subJob.toSubJob = row.toSubJob := by
  obtain ⟨row, first, read⟩ := allowed
  have same := toSubJob_of_withJob read
  refine ⟨row, ?_, first, same⟩
  rw [show subJob.id = row.key from congrArg SubJob.id same]
  exact Table.find?_of_mem first.1

/-- A snapshot was held before the step, whatever the step is, or has just been picked. -/
theorem At.held (tracks : jobMonitor.TracksAll source) (step : Step (platform registry) source event target)
    {position : ℕ} {kind : Kind} {phase : JobPhase} {subJob : SubJobWithJob} (here : At target position kind phase)
    (held : phase.snapshot = some subJob) :
    (∃ before, At source position kind before ∧ before.snapshot = some subJob ∧
      ∀ op reply, event = .call position ⟨op, reply⟩ → (before.note ⟨op, reply⟩).snapshot = some subJob) ∨
    (kind = .subJobTick ∧ phase = .held subJob ∧ At source position .subJobTick .searching ∧
      event = .call position ⟨.sql .getFirstUnfinishedSubJob, .ok subJob⟩ ∧ target.world = source.world ∧
      ∃ row, source.world.subJobs.find? subJob.id = some row ∧ source.world.IsFirstUnfinished row ∧
        subJob.toSubJob = row.toSubJob) := by
  obtain ⟨old, silent⟩ | ⟨-, rfl⟩ | ⟨before, op, reply, old, legal, rfl, rfl, allowed, reached⟩ := here.before tracks step
  · exact .inl ⟨phase, old, held, fun op reply same => absurd same (silent _)⟩
  · cases kind <;> cases held
  · obtain stays | ⟨rfl, same⟩ := JobPhase.snapshot_note held
    · refine .inl ⟨before, old, stays, fun op' reply' same => ?_⟩
      cases same
      exact held
    · cases same
      cases legal with
      | pick => exact .inr ⟨rfl, rfl, old, rfl, reached, picked_row allowed⟩
      | quiet quiet => exact quiet.elim

theorem SnapshotsKnown.step (tracks : jobMonitor.TracksAll source) (known : SnapshotsKnown source)
    (step : Step (platform registry) source event target) : SnapshotsKnown target := by
  intro position kind phase subJob here held
  obtain ⟨before, there, held, -⟩ | ⟨tick, -, -, -, reached, row, found, -, same⟩ := here.held tracks step held
  · obtain ⟨tick, row, found, job, type⟩ := known position kind before subJob there held
    obtain ⟨later, found', job', type'⟩ := subJob_kept tracks step found
    exact ⟨tick, later, found', job'.trans job, type'.trans type⟩
  · exact ⟨tick, row, by rwa [reached], (congrArg SubJob.jobId same).symm, (congrArg SubJob.type same).symm⟩

/-- What holds in every run, whatever the interleaving. -/
structure Sound (pool : System) : Prop where
  tracks : jobMonitor.TracksAll pool
  latest : pool.Latest .subJobTick
  known : SnapshotsKnown pool

theorem Sound.step (sound : Sound source) (step : Step (platform registry) source event target) : Sound target where
  tracks := sound.tracks.step (jobMonitor_covers registry) step
  latest := step.latest (not_flies_of_admits (by decide : Kind.subJobTick.Solitary)) sound.latest
  known := sound.known.step sound.tracks step

theorem not_at_of_initial {pool : System} (initial : Initial pool) {position : ℕ} {kind : Kind} {phase : JobPhase} :
    ¬ At pool position kind phase := by
  rintro ⟨task, present, -⟩
  simp [initial.tasks] at present

theorem Sound.of_initial {pool : System} (initial : Initial pool) : Sound pool where
  tracks := Monitor.tracksAll_of_empty initial.tasks
  latest := by
    rintro position other task - present
    simp [initial.tasks] at present
  known _ _ _ _ here := absurd here (not_at_of_initial initial)

/-- Only one tick is in flight, so two phases of a tick in flight are the same. -/
theorem Sound.tick_unique {pool : System} (sound : Sound pool) {position other : ℕ} {phase phase' : JobPhase}
    (here : At pool position .subJobTick phase) (there : At pool other .subJobTick phase') :
    position = other ∧ phase = phase' := by
  obtain rfl := sound.latest.alone here.flies there.flies
  exact ⟨rfl, (here.unique there).2⟩

/-- An invariant of the steps that also keeps `Sound` in reach. -/
theorem sound_invariant {ok : System → SystemEvent → Prop} {events : List SystemEvent} {I : System → Prop}
    (run : Run (platform registry) ok source events target)
    (step : ∀ {pool event next}, Sound pool → I pool → ok pool event → Step (platform registry) pool event next → I next)
    (sound : Sound source) (initial : I source) : Sound target ∧ I target :=
  run.invariant (I := fun pool => Sound pool ∧ I pool)
    (fun both meets taken => ⟨both.1.step taken, step both.1 both.2 meets taken⟩) ⟨sound, initial⟩

/-- A tick in a phase with a snapshot holds the snapshot. -/
theorem At.holds {pool : System} {position : ℕ} {phase : JobPhase} {subJob : SubJobWithJob}
    (here : At pool position .subJobTick phase) (held : phase.snapshot = some subJob) : Holds pool subJob := by
  obtain ⟨task, present, flying, kind, rfl⟩ := here
  refine ⟨task, List.mem_of_getElem? present, kind, flying, ?_⟩
  rw [Monitor.phase, kind] at held
  obtain started | ⟨-, picked⟩ := JobPhase.picking.picked_of_snapshot held
  · cases started
  · exact picked

theorem not_legal_finished {kind : Kind} {op : Op} : ¬ JobLegal kind .finished op := by
  intro legal
  cases legal with
  | quiet quiet going => exact going
  | fail failable => cases failable.snapshot

/-- A tick that has picked a sub-job is in a phase that shows it. -/
theorem Sound.at_of_holds {pool : System} (sound : Sound pool) {subJob : SubJobWithJob} (holds : Holds pool subJob) :
    ∃ position phase, At pool position .subJobTick phase ∧ phase.snapshot = some subJob := by
  obtain ⟨⟨kind, log, rest⟩, member, same, flying, picked⟩ := holds
  obtain rfl : kind = .subJobTick := same
  obtain ⟨position, present⟩ := List.mem_iff_getElem?.mp member
  refine ⟨position, _, ⟨_, present, flying, rfl, rfl⟩, ?_⟩
  apply (JobPhase.snapshot_of_picked (.inr (.inr ⟨rfl, picked⟩))).resolve_right
  intro finished
  obtain ⟨op, next, awaits⟩ := flying
  have legal : JobLegal .subJobTick .finished op := by
    rw [← show jobMonitor.phase ⟨.subJobTick, log, rest⟩ = .finished from finished]
    exact (sound.tracks position _ present).legal awaits
  exact not_legal_finished legal

/-- A row is written by the tick that holds its sub-job, by the start of its sub-job or by the
cancellation of its job. -/
theorem SubJobWrite.writer {pool : System} {test : SubJobRow → Bool} {change : SubJobRow → SubJobRow}
    (write : SubJobWrite pool event test change) {row : SubJobRow} (tested : test row = true) :
    (∃ position phase subJob, At pool position .subJobTick phase ∧ phase.snapshot = some subJob ∧
        (∀ other, phase ≠ .emptied other) ∧ row.id = subJob.id) ∨
      (∃ position workerName details timestamp,
        At pool position (.statusDelivery (.workerStatus ⟨workerName, .job (some details), timestamp⟩)) .aside ∧
        event = .call position ⟨.sql (.updateSubJobStatus details.subJobId .processing), .ok ()⟩ ∧
        row.id = details.subJobId) ∨
      ((∃ position, event = .call position ⟨.sql (.updateSubJobsStatusByJobId row.jobId .canceled), .ok ()⟩) ∧
        (change row).status = .canceled) := by
  cases write with
  | recorded here | pended here | scaled here | unneeded here | reached here | completed here =>
    refine .inl ⟨_, _, _, here, rfl, ?_, of_decide_eq_true tested⟩
    intro other same
    cases same
  | failed here failable =>
    refine .inl ⟨_, _, _, here, failable.snapshot, ?_, of_decide_eq_true tested⟩
    rintro other rfl
    rcases failable with failable | ⟨_, failable⟩ | failable <;> cases failable
  | begun here => exact .inr (.inl ⟨_, _, _, _, here, rfl, of_decide_eq_true tested⟩)
  | canceled here =>
    obtain rfl := of_decide_eq_true tested
    exact .inr (.inr ⟨⟨_, rfl⟩, rfl⟩)

/-! ## Dispatching ticks -/

/-- A tick in flight has picked this sub-job as a created one. -/
def Dispatching (pool : System) (id : Uuid) : Prop :=
  ∃ subJob, Holds pool subJob ∧ subJob.status = .created ∧ subJob.id = id

theorem At.dispatching {pool : System} {position : ℕ} {phase : JobPhase} {subJob : SubJobWithJob}
    (here : At pool position .subJobTick phase) (held : phase.snapshot = some subJob)
    (created : subJob.status = .created) : Dispatching pool subJob.id :=
  ⟨subJob, here.holds held, created, rfl⟩

theorem Sound.holds_unique {pool : System} (sound : Sound pool) {subJob other : SubJobWithJob}
    (holds : Holds pool subJob) (holds' : Holds pool other) : subJob = other := by
  obtain ⟨position, phase, here, held⟩ := sound.at_of_holds holds
  obtain ⟨position', phase', here', held'⟩ := sound.at_of_holds holds'
  obtain ⟨rfl, rfl⟩ := sound.tick_unique here here'
  exact Option.some.inj (held.symm.trans held')

theorem Sound.dispatching_unique {pool : System} (sound : Sound pool) {id other : Uuid}
    (dispatching : Dispatching pool id) (dispatching' : Dispatching pool other) : id = other := by
  obtain ⟨subJob, holds, -, rfl⟩ := dispatching
  obtain ⟨subJob', holds', -, rfl⟩ := dispatching'
  rw [sound.holds_unique holds holds']

/-- A dispatching tick was so before the step, or has just picked the first unfinished sub-job. -/
theorem Sound.dispatching_before (sound : Sound source) (step : Step (platform registry) source event target)
    {id : Uuid} (dispatching : Dispatching target id) :
    Dispatching source id ∨ (target.world = source.world ∧
      (∃ position subJob, event = .call position ⟨.sql .getFirstUnfinishedSubJob, .ok subJob⟩) ∧
      ∃ row, source.world.subJobs.find? id = some row ∧ source.world.IsFirstUnfinished row ∧
        row.status = .created) := by
  obtain ⟨subJob, holds, created, rfl⟩ := dispatching
  obtain ⟨position, phase, here, held⟩ := (sound.step step).at_of_holds holds
  obtain ⟨before, there, held, -⟩ | ⟨-, -, -, picks, reached, row, found, first, same⟩ := here.held sound.tracks step held
  · exact .inl (there.dispatching held created)
  · exact .inr ⟨reached, ⟨position, subJob, picks⟩, row, found, first, (congrArg SubJob.status same).symm.trans created⟩

/-- What a tick dispatches is a row. -/
theorem Sound.row_of_dispatching {pool : System} (sound : Sound pool) {id : Uuid} (dispatching : Dispatching pool id) :
    ∃ row, pool.world.subJobs.find? id = some row := by
  obtain ⟨subJob, holds, -, rfl⟩ := dispatching
  obtain ⟨position, phase, here, held⟩ := sound.at_of_holds holds
  obtain ⟨-, row, found, -⟩ := sound.known position _ phase subJob here held
  exact ⟨row, found⟩

/-! ## Sub-jobs that are not Created -/

/-- No step makes a sub-job Created again. -/
theorem notCreated_step (sound : Sound source) (step : Step (platform registry) source event target) {id : Uuid}
    (notCreated : ∃ row, source.world.subJobs.find? id = some row ∧ row.status ≠ .created) :
    ∃ row, target.world.subJobs.find? id = some row ∧ row.status ≠ .created := by
  obtain ⟨row, found, other⟩ := notCreated
  obtain ⟨later, found', rfl | ⟨test, change, write, -, rfl⟩⟩ := subJob_step sound.tracks step found
  · exact ⟨later, found', other⟩
  · refine ⟨_, found', ?_⟩
    cases write <;> first | exact other | simp

/-- A sub-job whose status a tick has written is not Created any more. -/
theorem notCreated_of_write {w : World} {row : SubJobRow} {id : Uuid} (found : w.subJobs.find? id = some row)
    {change : SubJobRow → SubJobRow} {same : ∀ row, (change row).key = row.key} (other : (change row).status ≠ .created) :
    ∃ later, (Stmt.updateSubJob w (fun row => row.id = id) change same).subJobs.find? id = some later ∧
      later.status ≠ .created := by
  refine ⟨change row, ?_, other⟩
  rw [find?_updateSubJob, found, Option.map_some, if_pos (by simpa using subJob_id found)]

end Bms
