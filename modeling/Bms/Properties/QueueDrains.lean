import Bms.Process.Tally
import Bms.Properties.EndedForGood
import Bms.Properties.SubJobStates

/-! # The queue drains

Every tick works on the first unfinished sub-job, so the later ones wait for it. A tick that no failure stops
waits for the deadline of its sub-job, or serves it: without a deadline the sub-job gets one or ends, past its
deadline it ends. Where ended sub-jobs stay ended, no sub-job takes more than two ticks that serve it.
-/

namespace Bms

open Process

/-- How many ticks may still serve a sub-job. -/
def SubJob.cost (subJob : SubJob) : ℕ :=
  if subJob.status.Ended then 0 else if subJob.deadlineAt.isSome then 1 else 2

/-- How many ticks may still serve the sub-jobs that there are. -/
def World.backlog (w : World) : ℕ := (w.subJobs.rows.map (·.cost)).sum

/-- The sub-job that a tick has picked, unless it waits: the sub-job has no deadline, or the clock was past it. -/
def dueIn : List Act → Option SubJobWithJob
  | ⟨.sql .getFirstUnfinishedSubJob, .ok subJob⟩ :: rest =>
    match subJob.deadlineAt, rest with
    | none, _ => some subJob
    | some deadline, ⟨.now, reading⟩ :: _ => if deadline < reading then some subJob else none
    | some _, _ => none
  | _ => none

/-- The sub-job that a tick has served, of which no call has failed. -/
def servedBy (registry : ServiceScalerRegistry) (task : SystemTask) : Option SubJobWithJob :=
  if task.kind = .subJobTick ∧ ¬ task.InFlight ∧ ∀ made ∈ task.log, ¬ Act.Failed made ∧ Act.addresses registry made = true
  then dueIn task.log else none

variable {registry : ServiceScalerRegistry} {source target : System} {event : SystemEvent}

theorem servedBy_eq_some_iff {kind : Kind} {log : List Act} {rest : Prog Calls Unit} {subJob : SubJobWithJob} :
    servedBy registry ⟨kind, log, rest⟩ = some subJob ↔ (kind = .subJobTick ∧ ¬ rest.Awaits ∧
      ∀ made ∈ log, ¬ Act.Failed made ∧ Act.addresses registry made = true) ∧ dueIn log = some subJob := by
  unfold servedBy
  split
  · next returned => exact (and_iff_right returned).symm
  · next other => exact iff_of_false (by simp) fun serves => other serves.1

/-- The ticks that have served a sub-job. -/
def servings (registry : ServiceScalerRegistry) : Tally (platform registry) Uuid where
  counts task := (servedBy registry task).map (·.id)
  returned counts := by
    obtain ⟨subJob, serves, -⟩ := Option.map_eq_some_iff.mp counts
    exact (servedBy_eq_some_iff.mp serves).1.2.1
  fresh kind := by
    unfold servedBy
    split <;> rfl

/-- What a tick that serves a sub-job has picked, and why the sub-job does not wait. -/
theorem due_cases {log : List Act} {subJob : SubJobWithJob} (due : dueIn log = some subJob) :
    ∃ rest, log = ⟨.sql .getFirstUnfinishedSubJob, .ok subJob⟩ :: rest ∧ (subJob.deadlineAt = none ∨
      ∃ deadline reading later, subJob.deadlineAt = some deadline ∧ rest = ⟨.now, reading⟩ :: later ∧
        deadline < reading) := by
  unfold dueIn at due
  split at due
  · next picked rest =>
    split at due
    · next undated =>
      cases due
      exact ⟨_, rfl, .inl undated⟩
    · next deadline reading later dated =>
      split at due
      · next passed =>
        cases due
        exact ⟨_, rfl, .inr ⟨deadline, reading, later, dated, rfl, passed⟩⟩
      · cases due
    · cases due
  · cases due

/-! ## Costs -/

theorem cost_le_two (subJob : SubJob) : subJob.cost ≤ 2 := by
  unfold SubJob.cost
  split
  · omega
  · split <;> omega

theorem cost_eq_zero_iff {subJob : SubJob} : subJob.cost = 0 ↔ subJob.status.Ended := by
  unfold SubJob.cost
  split
  · next ended => simp [ended]
  · next unended => split <;> simp [unended]

theorem cost_le_one_iff {subJob : SubJob} : subJob.cost ≤ 1 ↔ subJob.status.Ended ∨ subJob.deadlineAt.isSome := by
  unfold SubJob.cost
  split
  · next ended => simp [ended]
  · next unended => split <;> simp_all

/-- What a sub-job that may not have been created yet may still take. -/
def World.costOf (w : World) (id : Uuid) : ℕ := ((w.subJobs.find? id).map (·.cost)).getD 2

theorem costOf_of_find? {w : World} {id : Uuid} {row : SubJobRow} (found : w.subJobs.find? id = some row) :
    w.costOf id = row.cost := by
  simp [World.costOf, found]

theorem costOf_le_one {w : World} {id : Uuid} (bounded : w.Bounded id) : w.costOf id ≤ 1 := by
  obtain ⟨row, found, either⟩ := bounded
  rw [costOf_of_find? found]
  exact cost_le_one_iff.mpr either

/-- No step of a timely run makes a sub-job more costly. -/
theorem costOf_step (sound : Sound source) (current : Current source) (timely : Timely source event)
    (step : Step (platform registry) source event target) (id : Uuid) :
    target.world.costOf id ≤ source.world.costOf id := by
  cases found : source.world.subJobs.find? id with
  | none =>
    rw [show source.world.costOf id = 2 by simp [World.costOf, found]]
    cases found' : target.world.subJobs.find? id with
    | none => simp [World.costOf, found']
    | some later =>
      rw [costOf_of_find? found']
      exact cost_le_two _
  | some row =>
    rw [costOf_of_find? found]
    by_cases ended : row.status.Ended
    · obtain ⟨later, found', ended'⟩ := ended_step sound current timely step found ended
      rw [costOf_of_find? found', cost_eq_zero_iff.mpr ended']
      exact Nat.zero_le _
    · by_cases dated : row.deadlineAt.isSome
      · obtain ⟨later, found', dated'⟩ := deadline_step sound.tracks step ⟨row, found, dated⟩
        have one : row.cost = 1 := by simp [SubJob.cost, ended, dated]
        rw [one]
        exact costOf_le_one ⟨later, found', .inr dated'⟩
      · have two : row.cost = 2 := by simp [SubJob.cost, ended, dated]
        obtain ⟨later, found', -⟩ := subJob_step sound.tracks step found
        rw [two, costOf_of_find? found']
        exact cost_le_two _

/-! ## Ticks that come too late -/

/-- Past the deadline the step that checks it stops. -/
theorem stops_past_deadline {subJob : SubJobWithJob} {goes : Except SubJobHandlerError Unit → Prog Calls Unit}
    {deadline reading : DateTime} {log : List Act} {rest : Prog Calls Unit} (dated : subJob.deadlineAt = some deadline)
    (passed : deadline < reading) (run : ((checkDeadline subJob).run >>= goes).Reaches (⟨.now, reading⟩ :: log) rest) :
    (goes (.error (.failedJob "Deadline passed"))).Reaches log rest := by
  unfold checkDeadline at run
  rw [dated] at run
  cases run with
  | cons tail =>
    change ((if deadline < reading then throw (.failedJob "Deadline passed") else pure () : SubJobStep Unit).run >>=
      goes).Reaches log rest at tail
    rwa [if_pos passed] at tail

/-- So a tick whose sub-job is past its deadline makes one more call, which fails the sub-job. -/
theorem late_fails {subJob : SubJobWithJob} {deadline reading : DateTime} {log : List Act}
    (dated : subJob.deadlineAt = some deadline) (passed : deadline < reading) (active : subJob.status.Active)
    (unpended : subJob.type = .scaling → subJob.status ≠ .pending)
    (run : (subJobHandler registry).Reaches
      (⟨.sql .getFirstUnfinishedSubJob, .ok subJob⟩ :: ⟨.now, reading⟩ :: log) (.ret ())) :
    ∃ done, log = [⟨.sql (.updateSubJobStatusWithError subJob.id .failed "Deadline passed"), done⟩] := by
  suffices settles : (settle subJob (.error (.failedJob "Deadline passed"))).Reaches log (.ret ()) by
    cases settles with
    | cons last =>
      obtain ⟨rfl, -⟩ := last.ret_inv
      exact ⟨_, rfl⟩
  cases run with
  | cons tail =>
    dsimp only [bind, Prog.bind] at tail
    cases type : subJob.type with
    | combinedDHP =>
      simp only [type, processCombinedDhpType] at tail
      rcases List.mem_pair.mp active with pending | processing
      · simp only [pending] at tail
        exact stops_past_deadline dated passed tail
      · simp only [processing, processStatusProcessing] at tail
        rw [ExceptT.run_bind, Prog.bind_bind] at tail
        have stopped := stops_past_deadline dated passed tail
        exact stopped
    | scaling =>
      have processing := (List.mem_pair.mp active).resolve_left (unpended type)
      simp only [type, processScaling, processing, processScalingProcessing] at tail
      rw [ExceptT.run_bind, Prog.bind_bind] at tail
      have stopped := stops_past_deadline dated passed tail
      exact stopped

/-! ## Ticks that no failure stops -/

namespace MarkPhase

/-- The services that a tick has listed. -/
def services : MarkPhase → Option (List Service)
  | listed _ services | planned _ services _ | scaling _ services _ => some services
  | _ => none

theorem services_learn {phase : MarkPhase} {made : Act} {services : List Service}
    (lists : (phase.learn made).services = some services) :
    phase.services = some services ∨ ∃ topic, made = ⟨.sql (.getServicesEnabledByTopic topic), .ok services⟩ := by
  unfold learn at lists
  split at lists
  · cases lists
    exact .inr ⟨_, rfl⟩
  · exact .inl lists
  · exact .inl lists
  · split at lists <;> cases lists
  · exact .inl lists

theorem services_note {phase : MarkPhase} {made : Act} {services : List Service}
    (lists : (phase.note made).services = some services) :
    phase.services = some services ∨ ∃ topic, made = ⟨.sql (.getServicesEnabledByTopic topic), .ok services⟩ := by
  cases undated : phase.undated with
  | none =>
    simp only [note, undated] at lists
    exact services_learn lists
  | some subJob =>
    rw [note_undated undated] at lists
    repeat' split at lists
    all_goals first | cases lists | exact services_learn lists

/-- The services have been listed by one of the calls. -/
theorem services_foldl {log : List Act} {phase : MarkPhase} {services : List Service}
    (lists : (log.foldl note phase).services = some services) : phase.services = some services ∨
      ∃ topic, ⟨.sql (.getServicesEnabledByTopic topic), .ok services⟩ ∈ log := by
  induction log generalizing phase with
  | nil => exact .inl lists
  | cons made log ih =>
    obtain noted | ⟨topic, member⟩ := ih lists
    · obtain before | ⟨topic, rfl⟩ := services_note noted
      · exact .inl before
      · exact .inr ⟨topic, List.mem_cons_self ..⟩
    · exact .inr ⟨topic, List.mem_cons_of_mem _ member⟩

theorem skipped_note {phase : MarkPhase} {made : Act} {subJob : SubJobWithJob}
    (skipped : phase.note made = .skipped subJob) : phase = .skipped subJob ∨ made.skips = true := by
  have learnt {phase : MarkPhase} (skipped : phase.learn made = .skipped subJob) : phase = .skipped subJob := by
    unfold learn at skipped
    split at skipped <;> first | exact skipped | cases skipped | split at skipped <;> cases skipped
  cases undated : phase.undated with
  | none =>
    simp only [note, undated] at skipped
    exact .inl (learnt skipped)
  | some other =>
    rw [note_undated undated] at skipped
    split at skipped
    · cases skipped
    · split at skipped
      · next skips => exact .inr skips
      · split at skipped
        · cases skipped
        · exact .inl (learnt skipped)

end MarkPhase

theorem failed_of_skips {made : Act} (skips : made.skips = true) : Act.Failed made := by
  unfold Act.skips at skips
  split at skips <;> first | rfl | cases skips | exact skips

theorem failed_of_writeFails {made : Act} (fails : made.writeFails = true) : Act.Failed made := by
  unfold Act.writeFails at fails
  split at fails
  · rfl
  · cases fails

/-- A tick whose calls all succeed, and whose scalers can address the services it has listed, does not stop short. -/
theorem not_stopsShort (before : (markMonitor registry).TracksAll source)
    (after : (markMonitor registry).TracksAll target) {position : ℕ} {task : SystemTask} {op : Op}
    {next : op.Reply → Prog Calls Unit} {reply : op.Reply} (present : source.tasks[position]? = some task)
    (awaits : task.rest = .call op next)
    (present' : target.tasks[position]? = some ⟨task.kind, task.log ++ [⟨op, reply⟩], next reply⟩)
    (returned : ¬ (next reply).Awaits)
    (succeeded : ∀ made ∈ task.log ++ [⟨op, reply⟩], ¬ Act.Failed made ∧ Act.addresses registry made = true) :
    ¬ StopsShort registry source (.call position ⟨op, reply⟩) position := by
  rintro ⟨phase, made, ⟨task', there, flying, kind, rfl⟩, calls, stops⟩
  cases calls
  obtain rfl : task = task' := Option.some.inj (present.symm.trans there)
  obtain ⟨subJob, skipped⟩ | ⟨subJob, services, workers, scaling⟩ := stops
  · obtain earlier | skips := MarkPhase.skipped_note skipped
    · have legal := (before position task present).legal awaits
      rw [earlier] at legal
      cases legal with
      | going undated => cases undated
    · have last := succeeded ⟨op, reply⟩ (List.mem_append_right _ (List.mem_singleton_self _))
      exact last.1 (failed_of_skips skips)
  · have final := (after position _ present').ended returned
    rw [Monitor.phase_concat (markMonitor registry) task.kind task.log (⟨op, reply⟩ : Act) task.rest (next reply)] at final
    have noted : (markMonitor registry).note ((markMonitor registry).phase task) ⟨op, reply⟩ =
        .scaling subJob services workers := scaling
    rw [noted] at final
    have listed : (List.foldl MarkPhase.note .searching (task.log ++ [⟨op, reply⟩])).services = some services := by
      rw [List.foldl_append, List.foldl_cons, List.foldl_nil]
      have start : task.log.foldl MarkPhase.note .searching = (markMonitor registry).phase task := by
        rw [Monitor.phase, kind]
        rfl
      rw [start, scaling]
      rfl
    obtain starts | ⟨topic, member⟩ := MarkPhase.services_foldl listed
    · cases starts
    · have addressed := (succeeded _ member).2
      exact final.2 (of_decide_eq_true addressed)

/-! ## The account of every run -/

/-- What a tick picks costs as much as its snapshot says. -/
theorem costOf_of_picked {w : World} {subJob : SubJobWithJob}
    (allowed : Act.Allowed w ⟨.sql .getFirstUnfinishedSubJob, .ok subJob⟩) : w.costOf subJob.id = subJob.cost := by
  obtain ⟨row, found, -, same⟩ := picked_row allowed
  rw [costOf_of_find? found]
  exact congrArg SubJob.cost same.symm

/-- A sub-job held after a step was held before, or has just been picked. -/
theorem holds_before (sound : Sound source) (step : Step (platform registry) source event target)
    {subJob : SubJobWithJob} (holds : Holds target subJob) : Holds source subJob ∨
      (target.world = source.world ∧ source.world.costOf subJob.id = subJob.cost) := by
  obtain ⟨position, phase, here, held⟩ := (sound.step step).at_of_holds holds
  obtain ⟨before, there, held, -⟩ | ⟨-, -, -, -, reached, row, found, -, same⟩ := here.held sound.tracks step held
  · exact .inl (there.holds held)
  · refine .inr ⟨reached, ?_⟩
    rw [costOf_of_find? found]
    exact congrArg SubJob.cost same.symm

/-- When a tick has returned, none is in flight. -/
theorem not_holds_of_returned (sound : Sound source) {position : ℕ} {made : Act} {task later : SystemTask}
    (step : Step (platform registry) source (.call position made) target) (present : source.tasks[position]? = some task)
    (kind : task.kind = .subJobTick) (flying : task.InFlight) (present' : target.tasks[position]? = some later)
    (returned : ¬ later.InFlight) (subJob : SubJobWithJob) : ¬ Holds target subJob := by
  rintro ⟨other, member, same, flies, -⟩
  obtain ⟨place, there⟩ := List.mem_iff_getElem?.mp member
  obtain before | ⟨spawns, -⟩ := step.flies ⟨other, there, same, flies⟩
  · obtain rfl := sound.latest.alone before ⟨task, present, kind, flying⟩
    cases there.symm.trans present'
    exact returned flies
  · cases spawns

/-- What is known of the ticks and of the sub-jobs in every timely run. -/
structure Draining (registry : ServiceScalerRegistry) (pool : System) : Prop where
  served : ∀ id, (servings registry).of pool id + pool.world.costOf id ≤ 2
  /-- the tick in flight may still serve what it has picked -/
  held : ∀ subJob, Holds pool subJob → (servings registry).of pool subJob.id + subJob.cost ≤ 2
  picked : ∀ task ∈ pool.tasks, ∀ subJob, ⟨.sql .getFirstUnfinishedSubJob, .ok subJob⟩ ∈ task.log →
    (pool.world.subJobs.find? subJob.id).isSome ∧ (subJob.deadlineAt.isSome → subJob.status ≠ .created)

theorem Draining.picked_step (sound : Sound source) (dated : Dated source) (draining : Draining registry source)
    (step : Step (platform registry) source event target) {task : SystemTask} (member : task ∈ target.tasks)
    {subJob : SubJobWithJob} (picked : ⟨.sql .getFirstUnfinishedSubJob, .ok subJob⟩ ∈ task.log) :
    (target.world.subJobs.find? subJob.id).isSome ∧ (subJob.deadlineAt.isSome → subJob.status ≠ .created) := by
  obtain ⟨before, there, -, earlier⟩ | ⟨position, phase, -, -, rfl⟩ := logged_before sound.tracks step member picked
  · obtain ⟨known, uncreated⟩ := draining.picked before there subJob earlier
    exact ⟨subJob_isSome sound.tracks step known, uncreated⟩
  · obtain ⟨-, -, -, -, allowed, -⟩ := legal_of_call sound.tracks step
    obtain ⟨row, found, -, same⟩ := picked_row allowed
    refine ⟨subJob_isSome sound.tracks step (by simp [found]), fun deadline => ?_⟩
    have uncreated := (dated _ row found (congrArg SubJob.deadlineAt same ▸ deadline)).1
    exact congrArg SubJob.status same ▸ uncreated

/-- A tick that serves a sub-job has found it as costly as the account allows. -/
theorem Draining.affords (draining : Draining registry source) {position : ℕ} {task : SystemTask} {op : Op}
    {reply : op.Reply} {rest : List Act} {subJob : SubJobWithJob} (present : source.tasks[position]? = some task)
    (kind : task.kind = .subJobTick) (flying : task.InFlight) (allowed : Act.Allowed source.world ⟨op, reply⟩)
    (logged : task.log ++ [⟨op, reply⟩] = ⟨.sql .getFirstUnfinishedSubJob, .ok subJob⟩ :: rest) :
    (servings registry).of source subJob.id + subJob.cost ≤ 2 := by
  cases early : task.log with
  | nil =>
    rw [early, List.nil_append, List.cons.injEq] at logged
    rw [logged.1] at allowed
    rw [← costOf_of_picked allowed]
    exact draining.served subJob.id
  | cons first log =>
    rw [early, List.cons_append, List.cons.injEq] at logged
    refine draining.held subJob ⟨task, List.mem_of_getElem? present, kind, flying, ?_⟩
    rw [early, logged.1]
    rfl

/-- The last call of a tick that has come too late fails its sub-job. -/
theorem ended_of_late {subJob : SubJobWithJob} {deadline reading : DateTime} {log later : List Act} {made : Act}
    (dated : subJob.deadlineAt = some deadline) (passed : deadline < reading) (active : subJob.status.Active)
    (unpended : subJob.type = .scaling → subJob.status ≠ .pending)
    (logged : log ++ [made] = ⟨.sql .getFirstUnfinishedSubJob, .ok subJob⟩ :: ⟨.now, reading⟩ :: later)
    (run : (subJobHandler registry).Reaches (log ++ [made]) (.ret ())) (succeeds : ¬ Act.Failed made)
    (reached : target.world = Act.after source.world made) (known : (target.world.subJobs.find? subJob.id).isSome) :
    target.world.costOf subJob.id = 0 := by
  rw [logged] at run
  obtain ⟨done, rfl⟩ := late_fails dated passed active unpended run
  have last := congrArg List.getLast? logged
  simp only [List.getLast?_append, List.getLast?_singleton, Option.some_or, List.getLast?_cons_cons,
    Option.some.injEq] at last
  subst last
  cases done with
  | error e => exact absurd rfl succeeds
  | ok done =>
    change target.world = Stmt.updateSubJob source.world (fun row => row.id = subJob.id)
      (fun row => { row with status := .failed, details := row.details.set "error" (.str "Deadline passed") }) _ at reached
    rw [reached, find?_updateSubJob, Option.isSome_map] at known
    obtain ⟨row, found⟩ := Option.isSome_iff_exists.mp known
    have own : decide (row.id = subJob.id) = true := decide_eq_true (subJob_id found)
    have found' := find?_updateSubJob source.world (fun row => row.id = subJob.id)
      (fun row => { row with status := .failed, details := row.details.set "error" (.str "Deadline passed") })
      (fun _ => rfl) subJob.id
    rw [found, Option.map_some, if_pos own] at found'
    rw [reached, costOf_of_find? found']
    exact cost_eq_zero_iff.mpr (by decide : SubJobStatus.Ended .failed)

/-- A tick that serves a sub-job leaves it less costly than it has found it. -/
theorem costOf_lt_of_serves {pool : System} {events : List SystemEvent} {position : ℕ} {task : SystemTask} {op : Op}
    {next : op.Reply → Prog Calls Unit} {reply : op.Reply} {subJob : SubJobWithJob} (initial : Initial pool)
    (run : Run (platform registry) Timely pool events source) (draining : Draining registry source)
    (step : Step (platform registry) source (.call position ⟨op, reply⟩) target)
    (present : source.tasks[position]? = some task) (awaits : task.rest = .call op next)
    (present' : target.tasks[position]? = some ⟨task.kind, task.log ++ [⟨op, reply⟩], next reply⟩)
    (serves : servedBy registry ⟨task.kind, task.log ++ [⟨op, reply⟩], next reply⟩ = some subJob) :
    target.world.costOf subJob.id < subJob.cost := by
  obtain ⟨⟨kind, returned, succeeded⟩, due⟩ := servedBy_eq_some_iff.mp serves
  obtain ⟨rest, logged, waits⟩ := due_cases due
  have run : Run (platform registry) (fun _ _ => True) pool events source := run.mono fun _ _ _ => trivial
  obtain ⟨sound, marking⟩ := sound_invariant (I := Marking registry) run
    (fun sound marking _ step => marking.step sound step) (Sound.of_initial initial) (Marking.of_initial initial)
  obtain ⟨-, traffic, measuring, staged⟩ := staged_of_run initial run
  have marking' := marking.step sound step
  have member := List.mem_of_getElem? present'
  have picked : ⟨.sql .getFirstUnfinishedSubJob, .ok subJob⟩ ∈ task.log ++ [(⟨op, reply⟩ : Act)] :=
    logged ▸ List.mem_cons_self ..
  have unfinished := marking'.unfinished _ member _ picked subJob rfl
  have unended : ¬ subJob.status.Ended := SubJobStatus.not_ended_iff.mpr unfinished
  obtain undated | ⟨deadline, reading, later, dated, rfl, passed⟩ := waits
  · have stays := not_stopsShort marking.tracks marking'.tracks present awaits present' returned succeeded
    have returns : Returns source target position subJob := by
      refine ⟨⟨task, present, kind, op, next, awaits⟩, _, present', returned, ?_, fun made member => ?_⟩
      · rw [logged]
        rfl
      · by_contra fails
        exact (succeeded made member).1 (failed_of_writeFails (by simpa using fails))
    have bounded := (bounded_iff registry initial run step returns).mpr (.inl stays)
    have two : subJob.cost = 2 := by simp [SubJob.cost, unended, undated]
    rw [two]
    exact Nat.lt_succ_of_le (costOf_le_one bounded)
  · obtain ⟨known, uncreated⟩ := draining.picked_step sound staged.dated step member picked
    have active : subJob.status.Active := by
      have uncreated := uncreated (by rw [dated]; rfl)
      simpa [SubJobStatus.Unfinished, SubJobStatus.Active, uncreated] using unfinished
    have reaches := (run.concat trivial step).reaches initial.tasks _ member
    rw [kind] at reaches
    have returns : next reply = .ret () := by
      cases rest : next reply with
      | ret value => rfl
      | call other goes => exact absurd (rest ▸ Prog.awaits_call other goes) returned
    have reaches : (subJobHandler registry).Reaches (task.log ++ [⟨op, reply⟩]) (.ret ()) := returns ▸ reaches
    obtain ⟨-, -, -, -, -, reached⟩ := legal_of_call sound.tracks step
    have last := succeeded ⟨op, reply⟩ (List.mem_append_right _ (List.mem_singleton_self _))
    have zero := ended_of_late dated passed active (staged.picked_step sound step member picked) logged reaches last.1
      reached known
    have one : subJob.cost = 1 := by simp [SubJob.cost, unended, dated]
    rw [zero, one]
    exact Nat.one_pos

theorem Draining.step {pool : System} {events : List SystemEvent} (initial : Initial pool)
    (run : Run (platform registry) Timely pool events source) (sound : Sound source) (current : Current source)
    (draining : Draining registry source) (timely : Timely source event)
    (step : Step (platform registry) source event target) : Draining registry target := by
  obtain ⟨-, -, -, staged⟩ := staged_of_run initial run
  have cheaper := costOf_step sound current timely step
  refine ⟨fun id => ?_, fun subJob holds => ?_, fun task member subJob picked =>
    draining.picked_step sound staged.dated step member picked⟩
  · obtain same | ⟨position, task, op, next, reply, present, awaits, rfl, present', counts, more⟩ :=
      (servings registry).step step id
    · rw [same]
      exact (Nat.add_le_add_left (cheaper id) _).trans (draining.served id)
    · obtain ⟨subJob, serves, rfl⟩ := Option.map_eq_some_iff.mp counts
      obtain ⟨⟨kind, -, -⟩, due⟩ := servedBy_eq_some_iff.mp serves
      obtain ⟨rest, logged, -⟩ := due_cases due
      obtain ⟨-, -, -, -, allowed, -⟩ := legal_of_call sound.tracks step
      have affords := draining.affords present kind ⟨op, next, awaits⟩ allowed logged
      have lowers := costOf_lt_of_serves initial run draining step present awaits present' serves
      rw [more]
      omega
  · obtain same | ⟨position, task, op, next, reply, present, awaits, rfl, present', counts, more⟩ :=
      (servings registry).step step subJob.id
    · rw [same]
      obtain before | ⟨-, costs⟩ := holds_before sound step holds
      · exact draining.held subJob before
      · rw [← costs]
        exact draining.served subJob.id
    · obtain ⟨served, serves, -⟩ := Option.map_eq_some_iff.mp counts
      obtain ⟨⟨kind, returned, -⟩, -⟩ := servedBy_eq_some_iff.mp serves
      exact absurd holds (not_holds_of_returned sound step present kind ⟨op, next, awaits⟩ present' returned subJob)

theorem Draining.of_initial {pool : System} (initial : Initial pool) : Draining registry pool where
  served id := by
    rw [Tally.of, initial.tasks, List.countP_nil, Nat.zero_add]
    cases found : pool.world.subJobs.find? id with
    | none => simp [World.costOf, found]
    | some row =>
      rw [costOf_of_find? found]
      exact cost_le_two _
  held subJob holds := by
    obtain ⟨task, member, -⟩ := holds
    simp [initial.tasks] at member
  picked task member := by simp [initial.tasks] at member

/-- In every run in which ended sub-jobs stay ended: the ticks that have served a sub-job and those that may still
do so are at most two, and all ticks that have served one are at most two for each sub-job, less the backlog. -/
theorem queue_drains (registry : ServiceScalerRegistry) {source target : System} {events : List SystemEvent}
    (initial : Initial source) (run : Run (platform registry) Timely source events target) :
    (∀ row ∈ target.world.subJobs.rows, (servings registry).of target row.id + row.cost ≤ 2) ∧
      (servings registry).total target + target.world.backlog ≤ 2 * target.world.subJobs.rows.length := by
  obtain ⟨sound, current, draining⟩ := run.invariant_reached
    (I := fun pool => Sound pool ∧ Current pool ∧ Draining registry pool)
    (fun before ⟨sound, current, draining⟩ timely step => ⟨sound.step step, current.step sound timely step,
      draining.step initial before sound current timely step⟩)
    ⟨.of_initial initial, fun _ _ _ here => absurd here (not_at_of_initial initial), .of_initial initial⟩
  have each : ∀ row ∈ target.world.subJobs.rows, (servings registry).of target row.id + row.cost ≤ 2 := by
    intro row member
    rw [← costOf_of_find? (mem_iff_find?.mp member)]
    exact draining.served row.id
  have listed : ∀ task ∈ target.tasks, ∀ id, (servings registry).counts task = some id →
      id ∈ target.world.subJobs.rows.map (·.id) := by
    rintro ⟨kind, log, rest⟩ member id counts
    obtain ⟨subJob, serves, rfl⟩ := Option.map_eq_some_iff.mp counts
    obtain ⟨later, rfl, -⟩ := due_cases (servedBy_eq_some_iff.mp serves).2
    obtain ⟨row, found⟩ := Option.isSome_iff_exists.mp (draining.picked _ member subJob (List.mem_cons_self ..)).1
    exact List.mem_map.mpr ⟨row, Table.mem_of_find? found, subJob_id found⟩
  have total := (servings registry).total_le listed
  rw [List.map_map] at total
  refine ⟨each, ?_⟩
  calc (servings registry).total target + target.world.backlog
      ≤ (target.world.subJobs.rows.map ((servings registry).of target ∘ (·.id))).sum + target.world.backlog :=
        Nat.add_le_add_right total _
    _ = (target.world.subJobs.rows.map fun row => (servings registry).of target row.id + row.cost).sum :=
        (List.sum_map_add ..).symm
    _ ≤ (target.world.subJobs.rows.map fun row => (servings registry).of target row.id + row.cost).length • 2 :=
        List.sum_le_card_nsmul _ 2 fun used member => by
          obtain ⟨row, present, rfl⟩ := List.mem_map.mp member
          exact each row present
    _ = 2 * target.world.subJobs.rows.length := by
        rw [List.length_map]
        exact Nat.mul_comm ..

/-- The first tick has canceled the scaling sub-job, and the second has dispatched sub-job 3. -/
theorem queue_drains_dispatched : ∃ events target,
    Run (platform ⟨false⟩) Timely (sampleSystem .online) events target ∧ (servings ⟨false⟩).total target = 2 ∧
      target.world.backlog = 5 ∧ target.world.subJobs.rows.length = 4 ∧
      (servings ⟨false⟩).total target + target.world.backlog ≤ 2 * target.world.subJobs.rows.length := by
  have replayed : ((replay ⟨false⟩ startsUnfinished (sampleSystem .online)
      (sampleCreation ++ sampleTick 1 7 ++ sampleTick 2 7)).any fun target =>
        decide ((servings ⟨false⟩).total target = 2) && decide (target.world.backlog = 5) &&
          decide (target.world.subJobs.rows.length = 4)) = true := by
    decide +kernel
  obtain ⟨events, target, run, found⟩ := exists_run_of_replay replayed
  simp only [Bool.and_eq_true, decide_eq_true_eq] at found
  have run := run.mono fun _ _ => timely_of_startsUnfinished
  exact ⟨events, target, run, found.1.1, found.1.2, found.2,
    (queue_drains ⟨false⟩ (initial_sampleSystem .online) run).2⟩

end Bms
