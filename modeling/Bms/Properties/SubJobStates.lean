import Bms.Model.Replay
import Bms.Protocol.Checks
import Bms.Protocol.Creations
import Bms.Protocol.Results
import Bms.Properties.HeadBounded

/-! # The states of a sub-job

Which combinations of type, status and deadline occur. A deadline is set when a sub-job is dispatched or its
services are scaled, and is never taken away; a tick completes nothing that has no deadline; and a scaling
sub-job is never pending, so the branch of the tick for that case is never taken.
-/

namespace Bms

open Process

/-- The sub-job has a deadline. -/
def World.HasDeadline (w : World) (id : Uuid) : Prop :=
  ∃ row, w.subJobs.find? id = some row ∧ row.deadlineAt.isSome

/-- A sub-job in this state has a deadline. -/
def SubJobRow.DueBy (row : SubJobRow) : Prop :=
  row.status = .pending ∨ row.status = .completed ∨ (row.type = .scaling ∧ row.status = .processing)

variable {registry : ServiceScalerRegistry} {source target : System} {event : SystemEvent}

/-- A tick that checks a deadline has read one. -/
def CheckPhase.deadlineOf : CheckPhase → Option SubJobWithJob
  | onTime subJob | late subJob | collected subJob _ | completed subJob => some subJob
  | _ => none

theorem CheckPhase.deadlineOf_note {phase : CheckPhase} {made : Act} {subJob : SubJobWithJob}
    (checked : (phase.note made).deadlineOf = some subJob) :
    phase.deadlineOf = some subJob ∨ (phase = .picked subJob ∧ made.op = .now) := by
  unfold note at checked
  split at checked
  case h_3 picked reading =>
    right
    split at checked <;> cases checked <;> exact ⟨rfl, rfl⟩
  case h_1 | h_2 => first | (split at checked <;> cases checked) | cases checked
  all_goals first | cases checked; done | exact .inl checked

/-- What is known of the states of sub-jobs in every state of the system. -/
structure Staged (pool : System) : Prop where
  reads : Reads pool
  dated : Dated pool
  checks : checkMonitor.TracksAll pool
  /-- a tick that is past the check of a deadline acts on a sub-job that has one -/
  checked : ∀ position phase subJob, checkMonitor.At pool position .subJobTick phase → phase.deadlineOf = some subJob →
    pool.world.HasDeadline subJob.id
  /-- a tick that has picked a sub-job which is checked elsewhere -/
  elsewhere : ∀ position subJob, checkMonitor.At pool position .subJobTick (.other subJob) → ¬ subJob.Measuring
  /-- a tick that has picked a scaling sub-job in progress -/
  scaling : ∀ position phase subJob, At pool position .subJobTick phase → phase.snapshot = some subJob →
    subJob.type = .scaling → subJob.status = .processing → pool.world.HasDeadline subJob.id
  due : ∀ row ∈ pool.world.subJobs.rows, row.DueBy → row.deadlineAt.isSome
  unpended : ∀ row ∈ pool.world.subJobs.rows, row.type = .scaling → row.status ≠ .pending
  /-- what ticks have picked so far -/
  picked : ∀ task ∈ pool.tasks, ∀ subJob, ⟨.sql .getFirstUnfinishedSubJob, .ok subJob⟩ ∈ task.log →
    subJob.type = .scaling → subJob.status ≠ .pending

theorem CheckPhase.other_note {phase : CheckPhase} {made : Act} {subJob : SubJobWithJob}
    (other : phase.note made = .other subJob) :
    phase = .other subJob ∨ (phase = .searching ∧ ¬ subJob.Measuring) := by
  unfold note at other
  split at other
  case h_1 picked =>
    split at other
    · cases other
    · next elsewhere =>
      cases other
      exact .inr ⟨rfl, elsewhere⟩
  case h_3 => split at other <;> cases other
  all_goals first | cases other; done | exact .inl other

/-- What the check of a deadline has read is in the row. -/
theorem Staged.hasDeadline_of_check (staged : Staged source) {position : ℕ} {subJob : SubJobWithJob}
    {deadline : DateTime} (here : checkMonitor.At source position .subJobTick (.picked subJob))
    (dated : subJob.deadlineAt = some deadline) : source.world.HasDeadline subJob.id := by
  obtain ⟨job, there, rfl⟩ := at_of_check staged.checks here
  obtain ⟨row, found, -, same⟩ := staged.reads.row position _ _ subJob there rfl
  exact ⟨row, found, by rw [same, dated]; rfl⟩

theorem Staged.checked_step (sound : Sound source) (staged : Staged source)
    (step : Step (platform registry) source event target) {position : ℕ} {phase : CheckPhase} {subJob : SubJobWithJob}
    (here : checkMonitor.At target position .subJobTick phase) (checked : phase.deadlineOf = some subJob) :
    target.world.HasDeadline subJob.id := by
  obtain ⟨old, -⟩ | ⟨-, rfl⟩ | ⟨before, op, reply, old, legal, rfl, rfl, -, -⟩ :=
    Monitor.At.before staged.checks step here
  · exact deadline_step sound.tracks step (staged.checked position phase subJob old checked)
  · cases checked
  · obtain earlier | ⟨rfl, now⟩ := CheckPhase.deadlineOf_note checked
    · exact deadline_step sound.tracks step (staged.checked position before subJob old earlier)
    · cases legal with
      | check dated => exact deadline_step sound.tracks step (staged.hasDeadline_of_check old dated)
      | undated => cases now

theorem Staged.elsewhere_step (staged : Staged source) (step : Step (platform registry) source event target)
    {position : ℕ} {subJob : SubJobWithJob} (here : checkMonitor.At target position .subJobTick (.other subJob)) :
    ¬ subJob.Measuring := by
  obtain ⟨old, -⟩ | ⟨-, starts⟩ | ⟨before, op, reply, old, -, -, noted, -, -⟩ := Monitor.At.before staged.checks step here
  · exact staged.elsewhere position subJob old
  · cases starts
  · obtain rfl | ⟨-, elsewhere⟩ := CheckPhase.other_note noted.symm
    · exact staged.elsewhere position subJob old
    · exact elsewhere

theorem Staged.scaling_step (sound : Sound source) (staged : Staged source)
    (step : Step (platform registry) source event target) {position : ℕ} {phase : JobPhase} {subJob : SubJobWithJob}
    (here : At target position .subJobTick phase) (held : phase.snapshot = some subJob) (scaling : subJob.type = .scaling)
    (processing : subJob.status = .processing) : target.world.HasDeadline subJob.id := by
  obtain ⟨before, there, held, -⟩ | ⟨-, -, -, -, -, row, found, -, same⟩ := here.held sound.tracks step held
  · exact deadline_step sound.tracks step (staged.scaling position before subJob there held scaling processing)
  · have due : row.DueBy := by
      have type := (congrArg SubJob.type same).symm.trans scaling
      have status := (congrArg SubJob.status same).symm.trans processing
      exact .inr (.inr ⟨type, status⟩)
    exact deadline_step sound.tracks step ⟨row, found, staged.due row (Table.mem_of_find? found) due⟩

/-- A measuring sub-job that a tick completes has a deadline. -/
theorem Staged.hasDeadline_of_completed (staged : Staged source) {position : ℕ} {subJob : SubJobWithJob}
    {data : List WorkerDataRow} {op : Op} {reply : op.Reply}
    (step : Step (platform registry) source (.call position ⟨op, reply⟩) target)
    (writes : op = .sql (.updateSubJobStatus subJob.id .completed))
    (here : At source position .subJobTick (.answered subJob data)) (measuring : subJob.type = .combinedDHP)
    (processing : subJob.status = .processing) : source.world.HasDeadline subJob.id := by
  obtain ⟨kind, phase, there, legal, -, -⟩ := staged.checks.legal step
  obtain rfl := here.flies.unique there.flies
  obtain ⟨job, again, agrees⟩ := at_of_check staged.checks there
  obtain ⟨-, rfl⟩ := again.unique here
  have held : SubJobWithJob.Measuring subJob := ⟨measuring, by rw [processing]; decide⟩
  cases legal with
  | aside => exact agrees.elim
  | other elsewhere =>
    rcases agrees with same | same <;> cases same
    exact absurd held elsewhere
  | complete =>
    cases agrees
    exact staged.checked position _ subJob there rfl
  | close => rcases agrees with same | same | same <;> cases same
  | collect | check | undated | late | uncounted | pick => cases writes

theorem deadline_of_hasDeadline {w : World} {row : SubJobRow} {id : Uuid} (member : row ∈ w.subJobs.rows)
    (own : row.id = id) (dated : w.HasDeadline id) : row.deadlineAt.isSome := by
  obtain ⟨other, found, dated⟩ := dated
  rw [← own, mem_iff_find?.mp member] at found
  cases found
  exact dated

theorem Staged.due_step (sound : Sound source) (traffic : Traffic source) (measuring : MeasuringTraffic source)
    (staged : Staged source) (step : Step (platform registry) source event target) {row : SubJobRow}
    (member : row ∈ target.world.subJobs.rows) (due : row.DueBy) : row.deadlineAt.isSome := by
  obtain ⟨old, there, -, -, -, -, rfl | ⟨test, change, write, tested, rfl⟩⟩ | insert :=
    row_before sound.tracks step member
  · exact staged.due row there due
  · cases write with
    | recorded => exact staged.due old there due
    | pended | scaled => rfl
    | reached here scaling processing =>
      have dated := staged.scaling _ _ _ here rfl scaling processing
      have kept : old.deadlineAt.isSome := deadline_of_hasDeadline there (of_decide_eq_true tested) dated
      exact kept
    | completed here measuring processing =>
      have dated := staged.hasDeadline_of_completed step rfl here measuring processing
      have kept : old.deadlineAt.isSome := deadline_of_hasDeadline there (of_decide_eq_true tested) dated
      exact kept
    | begun here =>
      -- only measuring sub-jobs are started, and those in progress need no deadline
      obtain ⟨row, found, type⟩ := measuring.starts traffic here
      rw [← of_decide_eq_true tested, mem_iff_find?.mp there] at found
      cases found
      rcases due with due | due | ⟨scaling, -⟩
      · cases due
      · cases due
      · cases type.symm.trans scaling
    | unneeded | failed | canceled => rcases due with due | due | ⟨-, due⟩ <;> cases due
  · obtain ⟨_, _, _, _, _, _, -, -, -, -, same⟩ := insert.creates
    rw [same] at due
    rcases due with due | due | ⟨-, due⟩ <;> cases due

theorem Staged.unpended_step (sound : Sound source) (staged : Staged source)
    (step : Step (platform registry) source event target) {row : SubJobRow} (member : row ∈ target.world.subJobs.rows)
    (scaling : row.type = .scaling) : row.status ≠ .pending := by
  intro pending
  obtain ⟨old, there, -, -, -, -, rfl | ⟨test, change, write, tested, rfl⟩⟩ | insert :=
    row_before sound.tracks step member
  · exact staged.unpended row there scaling pending
  · cases write with
    | recorded => exact staged.unpended old there scaling pending
    | pended here measuring =>
      obtain ⟨-, known, found, -, type⟩ := sound.known _ _ _ _ here rfl
      rw [← of_decide_eq_true tested, mem_iff_find?.mp there] at found
      cases found
      cases (type.trans measuring).symm.trans scaling
    | _ => cases pending
  · obtain ⟨_, _, _, _, _, _, -, -, -, -, same⟩ := insert.creates
    rw [same] at pending
    cases pending

theorem Staged.picked_step (sound : Sound source) (staged : Staged source)
    (step : Step (platform registry) source event target) {task : SystemTask} (member : task ∈ target.tasks)
    {subJob : SubJobWithJob} (picked : ⟨.sql .getFirstUnfinishedSubJob, .ok subJob⟩ ∈ task.log)
    (scaling : subJob.type = .scaling) : subJob.status ≠ .pending := by
  obtain ⟨before, there, -, earlier⟩ | ⟨position, phase, -, -, rfl⟩ := logged_before sound.tracks step member picked
  · exact staged.picked before there subJob earlier scaling
  · obtain ⟨-, -, -, -, allowed, -⟩ := legal_of_call sound.tracks step
    obtain ⟨row, found, -, same⟩ := picked_row allowed
    have unpended := staged.unpended row (Table.mem_of_find? found)
    have type : row.type = .scaling := (congrArg SubJob.type same).symm.trans scaling
    have status : subJob.status = row.status := congrArg SubJob.status same
    rw [status]
    exact unpended type

theorem Staged.step (sound : Sound source) (traffic : Traffic source) (measuring : MeasuringTraffic source)
    (staged : Staged source) (step : Step (platform registry) source event target) : Staged target where
  reads := staged.reads.step sound step
  dated := staged.dated.step sound step
  checks := staged.checks.step (checkMonitor_covers registry) step
  checked _ _ _ here checked := staged.checked_step sound step here checked
  elsewhere _ _ here := staged.elsewhere_step step here
  scaling _ _ _ here held scaling processing := staged.scaling_step sound step here held scaling processing
  due _ member due := staged.due_step sound traffic measuring step member due
  unpended _ member scaling := staged.unpended_step sound step member scaling
  picked _ member _ picked scaling := staged.picked_step sound step member picked scaling

theorem Staged.of_initial {pool : System} (initial : Initial pool) : Staged pool := by
  have none {position : ℕ} {kind : Kind} {phase : CheckPhase} : ¬ checkMonitor.At pool position kind phase := by
    rintro ⟨task, present, -⟩
    simp [initial.tasks] at present
  exact {
    reads := .of_initial initial
    dated := .of_initial initial
    checks := Monitor.tracksAll_of_empty initial.tasks
    checked := fun _ _ _ here => absurd here none
    elsewhere := fun _ _ here => absurd here none
    scaling := fun _ _ _ here => absurd here (not_at_of_initial initial)
    due := by simp [initial.subJobs]
    unpended := by simp [initial.subJobs]
    picked := by simp [initial.tasks] }

theorem staged_of_run {ok : System → SystemEvent → Prop} {events : List SystemEvent} (initial : Initial source)
    (run : Run (platform registry) ok source events target) :
    Sound target ∧ Traffic target ∧ MeasuringTraffic target ∧ Staged target :=
  sound_invariant (I := fun pool => Traffic pool ∧ MeasuringTraffic pool ∧ Staged pool) run
    (fun sound known _ step => ⟨known.1.step sound step, known.2.1.step sound known.1 step,
      known.2.2.step sound known.1 known.2.1 step⟩)
    (.of_initial initial) ⟨.of_initial initial, .of_initial initial, .of_initial initial⟩

/-- In every state of a run: a sub-job that waits for its dispatch has no deadline, one that is pending or completed
has, and so has a scaling one in progress; a scaling sub-job is never pending, and no tick ever picks such a one. -/
theorem subJob_states (registry : ServiceScalerRegistry) {ok : System → SystemEvent → Prop} {source target : System}
    {events : List SystemEvent} (initial : Initial source) (run : Run (platform registry) ok source events target) :
    (∀ row ∈ target.world.subJobs.rows, (row.status = .created → row.deadlineAt = none) ∧
      (row.DueBy → row.deadlineAt.isSome) ∧ (row.type = .scaling → row.status ≠ .pending)) ∧
    ∀ task ∈ target.tasks, ∀ subJob, ⟨.sql .getFirstUnfinishedSubJob, .ok subJob⟩ ∈ task.log →
      subJob.type = .scaling → subJob.status ≠ .pending := by
  obtain ⟨-, -, -, staged⟩ := staged_of_run initial run
  refine ⟨fun row member => ⟨fun created => ?_, staged.due row member, staged.unpended row member⟩, staged.picked⟩
  by_contra dated
  exact (staged.dated row.id row (mem_iff_find?.mp member) (Option.isSome_iff_ne_none.mpr dated)).1 created

/-- The scaling sub-job of job 1 has been picked, and sub-job 3 has been dispatched. -/
theorem subJob_states_dispatched : ∃ events target task subJob row,
    Run (platform ⟨false⟩) (fun _ _ => True) (sampleSystem .online) events target ∧ task ∈ target.tasks ∧
      ⟨.sql .getFirstUnfinishedSubJob, .ok subJob⟩ ∈ task.log ∧ subJob.type = .scaling ∧ subJob.status ≠ .pending ∧
      row ∈ target.world.subJobs.rows ∧ row.status = .pending ∧ row.deadlineAt.isSome := by
  have replayed : ((replay ⟨false⟩ (fun _ _ => true) (sampleSystem .online)
      (sampleCreation ++ sampleTick 1 7 ++ sampleTick 2 7)).any fun target =>
        (target.tasks.any fun task => (pickedIn task.log).any fun subJob => decide (subJob.type = .scaling)) &&
          target.world.subJobs.rows.any fun row => decide (row.status = .pending)) = true := by
    decide +kernel
  obtain ⟨events, target, run, found⟩ := exists_run_of_replay replayed
  obtain ⟨picks, dispatched⟩ := (Bool.and_eq_true ..).mp found
  obtain ⟨task, member, picks⟩ := List.any_eq_true.mp picks
  obtain ⟨subJob, picked, scaling⟩ := (Option.any_eq_true ..).mp picks
  obtain ⟨row, present, pending⟩ := List.any_eq_true.mp dispatched
  obtain ⟨rows, picks⟩ := subJob_states ⟨false⟩ (initial_sampleSystem .online) run
  have logged := mem_of_pickedIn picked
  exact ⟨events, target, task, subJob, row, run.mono fun _ _ _ => trivial, member, logged, of_decide_eq_true scaling,
    picks task member subJob logged (of_decide_eq_true scaling), present, of_decide_eq_true pending,
    (rows row present).2.1 (.inl (of_decide_eq_true pending))⟩

end Bms
