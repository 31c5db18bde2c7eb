import Bms.Model.Replay
import Bms.Protocol.Marks

/-! # The head of the queue

The handler always picks the oldest unfinished sub-job, so one that stays unfinished blocks all later
ones. Deadlines bound how long that lasts, but a sub-job gets its deadline in the last write of a
tick: a tick that stops before leaves the sub-job as it was, first in the queue and without a deadline.
-/

namespace Bms

open Process

/-- A sub-job that has ended, or that will end at its deadline. -/
def World.Bounded (w : World) (id : Uuid) : Prop :=
  ∃ row, w.subJobs.find? id = some row ∧ (row.status.Ended ∨ row.deadlineAt.isSome)

/-- A tick that has picked this sub-job, and of which no write has failed, returns with the step. -/
def Returns (pool target : System) (position : ℕ) (subJob : SubJobWithJob) : Prop :=
  (∃ task, pool.tasks[position]? = some task ∧ task.kind = .subJobTick ∧ task.InFlight) ∧
    ∃ task, target.tasks[position]? = some task ∧ ¬ task.InFlight ∧ pickedIn task.log = some subJob ∧
      ∀ made ∈ task.log, Act.writeFails made = false

/-- Whenever a tick has returned, the sub-job that it has picked is bounded. -/
def HeadBounded (registry : ServiceScalerRegistry) (ok : System → SystemEvent → Prop) : Prop :=
  ∀ ⦃source pool target : System⦄ ⦃events : List SystemEvent⦄ ⦃event : SystemEvent⦄ ⦃position : ℕ⦄
    ⦃subJob : SubJobWithJob⦄, Initial source → Run (platform registry) ok source events pool → ok pool event →
    Step (platform registry) pool event target → Returns pool target position subJob →
    target.world.Bounded subJob.id

/-- The tick at a position stops without a mark: a call fails that is no write, or the tick comes to a service
that its scaler cannot address. -/
def StopsShort (registry : ServiceScalerRegistry) (pool : System) (event : SystemEvent) (position : ℕ) : Prop :=
  ∃ phase made, (markMonitor registry).At pool position .subJobTick phase ∧ event = .call position made ∧
    ((∃ subJob, phase.note made = .skipped subJob) ∨
      ∃ subJob services workers, phase.note made = .scaling subJob services workers)

variable {registry : ServiceScalerRegistry} {source target : System} {event : SystemEvent}

/-! ## What a tick has picked -/

theorem MarkPhase.snapshot_foldl {log : List Act} {phase : MarkPhase} {subJob : SubJobWithJob}
    (held : phase.snapshot = some subJob) : (log.foldl MarkPhase.note phase).snapshot = some subJob := by
  induction log generalizing phase with
  | nil => exact held
  | cons made log ih => exact ih (MarkPhase.snapshot_note made held)

/-- A tick stays in phases that show what it has picked. -/
theorem MarkPhase.snapshot_of_picked {log : List Act} {subJob : SubJobWithJob} (picked : pickedIn log = some subJob) :
    (log.foldl MarkPhase.note .searching).snapshot = some subJob := by
  induction log with
  | nil => cases picked
  | cons made log ih =>
    rw [List.foldl_cons]
    obtain ⟨stays, other⟩ | ⟨first, rfl, noted⟩ := MarkPhase.note_searching made
    · rw [stays]
      exact ih ((pickedIn_cons_of_ne other).symm.trans picked)
    · rw [pickedIn, List.findSome?_cons] at picked
      cases picked
      apply MarkPhase.snapshot_foldl
      rw [noted]
      split <;> rfl

theorem MarkPhase.learn_broken {phase : MarkPhase} {made : Act} {subJob : SubJobWithJob}
    (broken : phase.learn made = .broken subJob) : phase = .broken subJob := by
  unfold MarkPhase.learn at broken
  split at broken <;> grind

theorem MarkPhase.broken_foldl {log : List Act} {phase : MarkPhase} {subJob : SubJobWithJob}
    (broken : log.foldl MarkPhase.note phase = .broken subJob) :
    phase = .broken subJob ∨ ∃ made ∈ log, Act.writeFails made = true := by
  induction log generalizing phase with
  | nil => exact .inl broken
  | cons made log ih =>
    obtain noted | ⟨later, member, fails⟩ := ih broken
    · cases undated : phase.undated with
      | none =>
        simp only [MarkPhase.note, undated] at noted
        exact .inl (MarkPhase.learn_broken noted)
      | some first =>
        rw [MarkPhase.note_undated undated] at noted
        by_cases fails : Act.writeFails made = true
        · exact .inr ⟨made, List.mem_cons_self .., fails⟩
        · rw [if_neg fails] at noted
          split at noted
          · cases noted
          · split at noted
            · cases noted
            · exact .inl (MarkPhase.learn_broken noted)
    · exact .inr ⟨later, List.mem_cons_of_mem _ member, fails⟩

/-! ## What a call leaves behind -/

/-- A step after which every bounded sub-job is bounded still, and no other is. -/
theorem bounded_iff_of_same (same : target.world.subJobs = source.world.subJobs) (id : Uuid) :
    target.world.Bounded id ↔ source.world.Bounded id := by
  rw [World.Bounded, World.Bounded, same]

/-- A call of a tick that marks nothing. -/
theorem bounded_iff_of_unmarked (tracks : jobMonitor.TracksAll source) {position : ℕ} {made : Act}
    (step : Step (platform registry) source (.call position made) target) {phase : JobPhase}
    (here : At source position .subJobTick phase) (unmarked : made.marks = false) (id : Uuid) :
    target.world.Bounded id ↔ source.world.Bounded id := by
  generalize same : Event.call position made = event at step
  cases subJobs_step tracks step with
  | kept same => exact bounded_iff_of_same same id
  | inserted insert _ =>
    obtain ⟨caller, _, _, _, _, _, there, -, -, calls, -⟩ := insert.creates
    cases same.trans calls
    cases (here.unique there).1
  | written write rows =>
    cases write with
    | recorded =>
      simp only [World.Bounded, rows, Option.map_eq_some_iff]
      constructor
      · rintro ⟨_, ⟨row, found, rfl⟩, bounded⟩
        refine ⟨row, found, ?_⟩
        split at bounded <;> exact bounded
      · rintro ⟨row, found, bounded⟩
        refine ⟨_, ⟨row, found, rfl⟩, ?_⟩
        split <;> exact bounded
    | begun there | canceled there =>
      cases same
      cases (here.unique there).1
    | pended | scaled | unneeded | reached | completed | failed =>
      cases same
      cases unmarked

/-- A tick that marks its sub-job bounds it. -/
theorem bounded_of_marks {made : Act} (reached : target.world = Act.after source.world made) {subJob : SubJobWithJob}
    (own : Op.Marks subJob made.op) (marks : made.marks = true)
    (known : ∃ row, source.world.subJobs.find? subJob.id = some row) :
    target.world.Bounded subJob.id := by
  obtain ⟨row, found⟩ := known
  have updated {id : Uuid} {change : SubJobRow → SubJobRow} {same : ∀ row, (change row).key = row.key}
      (reached : target.world = Stmt.updateSubJob source.world (fun row => row.id = id) change same)
      (own : id = subJob.id) (bounds : (change row).status.Ended ∨ (change row).deadlineAt.isSome) :
      target.world.Bounded subJob.id := by
    refine ⟨change row, ?_, bounds⟩
    rw [reached, find?_updateSubJob, found, Option.map_some, if_pos (by simpa [own] using subJob_id found)]
  unfold Act.marks at marks
  split at marks
  · exact updated reached own.1 (.inl own.2)
  · exact updated reached own.1 (.inl own.2)
  · exact updated reached own (.inr rfl)
  · cases marks

/-- No write takes a deadline away. -/
theorem deadline_step (tracks : jobMonitor.TracksAll source) (step : Step (platform registry) source event target)
    {id : Uuid} (dated : ∃ row, source.world.subJobs.find? id = some row ∧ row.deadlineAt.isSome) :
    ∃ row, target.world.subJobs.find? id = some row ∧ row.deadlineAt.isSome := by
  obtain ⟨row, found, dated⟩ := dated
  obtain ⟨later, found', rfl | ⟨test, change, write, -, rfl⟩⟩ := subJob_step tracks step found
  · exact ⟨later, found', dated⟩
  · refine ⟨_, found', ?_⟩
    cases write <;> first | exact dated | rfl

/-! ## Ticks in every run -/

theorem MarkPhase.dated_note {phase : MarkPhase} {made : Act} {subJob : SubJobWithJob}
    (dated : phase.note made = .dated subJob) : phase = .dated subJob ∨
      (made = ⟨.sql .getFirstUnfinishedSubJob, .ok subJob⟩ ∧ subJob.deadlineAt.isSome) := by
  cases undated : phase.undated with
  | none =>
    simp only [MarkPhase.note, undated] at dated
    unfold MarkPhase.learn at dated
    split at dated <;> grind
  | some first =>
    rw [MarkPhase.note_undated undated] at dated
    repeat' split at dated
    any_goals cases dated
    unfold MarkPhase.learn at dated
    split at dated <;> grind [MarkPhase.undated]

/-- What is known of the ticks in flight. -/
structure Marking (registry : ServiceScalerRegistry) (pool : System) : Prop where
  tracks : (markMonitor registry).TracksAll pool
  /-- a deadline that has been read stays -/
  dated : ∀ position subJob, (markMonitor registry).At pool position .subJobTick (.dated subJob) →
    ∃ row, pool.world.subJobs.find? subJob.id = some row ∧ row.deadlineAt.isSome
  unfinished : ∀ task ∈ pool.tasks, ∀ made ∈ task.log, ∀ subJob : SubJobWithJob,
    made = ⟨.sql .getFirstUnfinishedSubJob, .ok subJob⟩ → subJob.status.Unfinished

theorem dated_of_picked {w : World} {subJob : SubJobWithJob}
    (allowed : Act.Allowed w ⟨.sql .getFirstUnfinishedSubJob, .ok subJob⟩) (dated : subJob.deadlineAt.isSome) :
    ∃ row, w.subJobs.find? subJob.id = some row ∧ row.deadlineAt.isSome := by
  obtain ⟨row, found, -, same⟩ := picked_row allowed
  exact ⟨row, found, congrArg SubJob.deadlineAt same ▸ dated⟩

theorem Marking.step (sound : Sound source) (marking : Marking registry source)
    (step : Step (platform registry) source event target) : Marking registry target where
  tracks := marking.tracks.step (markMonitor_covers registry) step
  dated position subJob here := by
    obtain ⟨old, -⟩ | ⟨-, starts⟩ | ⟨before, op, reply, old, -, rfl, noted, allowed, reached⟩ :=
      Monitor.At.before marking.tracks step here
    · exact deadline_step sound.tracks step (marking.dated position subJob old)
    · cases starts
    · obtain rfl | ⟨made, dated⟩ := MarkPhase.dated_note noted.symm
      · exact deadline_step sound.tracks step (marking.dated position subJob old)
      · rw [made] at allowed
        exact deadline_step sound.tracks step (dated_of_picked allowed dated)
  unfinished := by
    refine step.logged (fun world made allowed subJob picks => ?_) marking.unfinished
    subst picks
    obtain ⟨row, -, first, same⟩ := picked_row allowed
    exact congrArg SubJob.status same ▸ first.2.1

theorem Marking.of_initial {pool : System} (initial : Initial pool) : Marking registry pool where
  tracks := Monitor.tracksAll_of_empty initial.tasks
  dated position subJob here := by
    obtain ⟨task, present, -⟩ := here
    simp [initial.tasks] at present
  unfinished task member := by simp [initial.tasks] at member

/-! ## Ticks that return -/

theorem MarkPhase.undated_learn {phase : MarkPhase} {subJob : SubJobWithJob} (undated : phase.undated = some subJob)
    (made : Act) : (phase.learn made).undated = some subJob := by
  unfold MarkPhase.learn
  split <;> first | exact undated | cases undated

theorem stopsShort_iff {position : ℕ} {made : Act} {phase : MarkPhase}
    (here : (markMonitor registry).At source position .subJobTick phase) :
    StopsShort registry source (.call position made) position ↔ (∃ subJob, phase.note made = .skipped subJob) ∨
      ∃ subJob services workers, phase.note made = .scaling subJob services workers := by
  constructor
  · rintro ⟨phase', made', there, calls, stops⟩
    cases calls
    obtain ⟨-, rfl⟩ := here.unique there
    exact stops
  · exact fun stops => ⟨phase, made, here, rfl, stops⟩

/-- The last call of a tick whose sub-job has no deadline. -/
theorem undated_returns (sound : Sound source) {position : ℕ} {op : Op} {reply : op.Reply}
    (step : Step (platform registry) source (.call position ⟨op, reply⟩) target) {phase : MarkPhase}
    {subJob : SubJobWithJob} (here : (markMonitor registry).At source position .subJobTick phase)
    (holds : Holds source subJob) (undated : phase.undated = some subJob) (legal : MarkLegal phase op)
    (final : (phase.note ⟨op, reply⟩).Final registry) (unfinished : subJob.status.Unfinished)
    (unbroken : Act.writeFails ⟨op, reply⟩ = false) :
    target.world.Bounded subJob.id ↔
      ¬ StopsShort registry source (.call position ⟨op, reply⟩) position ∨ source.world.Bounded subJob.id := by
  rw [stopsShort_iff here]
  rw [MarkPhase.note_undated undated, unbroken] at final ⊢
  obtain ⟨other, jobPhase, there, held⟩ := sound.at_of_holds holds
  by_cases marks : Act.marks ⟨op, reply⟩ = true
  · simp only [if_pos marks, reduceCtorEq, exists_false, or_self, not_false_eq_true, true_or, iff_true]
    obtain ⟨-, row, found, -⟩ := sound.known _ _ _ subJob there held
    obtain ⟨-, -, -, -, -, reached⟩ := legal_of_call sound.tracks step
    have own : op.Marks subJob := by
      cases legal with
      | going undated' own =>
        cases undated.symm.trans undated'
        exact own
      | aside | pick | dated | broken => cases undated
    exact bounded_of_marks reached own marks ⟨row, found⟩
  · have kept : target.world.Bounded subJob.id ↔ source.world.Bounded subJob.id := by
      obtain ⟨task, present, flying, same, -⟩ := here
      exact bounded_iff_of_unmarked sound.tracks step ⟨task, present, flying, same, rfl⟩ (Bool.eq_false_iff.mpr marks) _
    rw [kept]
    by_cases skips : Act.skips ⟨op, reply⟩ = true
    · simp [if_neg marks, if_pos skips]
    · simp only [if_neg marks, if_neg skips, Bool.false_eq_true, ↓reduceIte] at final ⊢
      have going := MarkPhase.undated_learn undated ⟨op, reply⟩
      generalize phase.learn ⟨op, reply⟩ = after at final going ⊢
      cases after with
      | picked other =>
        cases going
        exact absurd unfinished (SubJobStatus.not_unfinished_iff.mpr final)
      | listed | planned => exact final.elim
      | scaling => simp
      | _ => cases going

theorem bounded_iff (registry : ServiceScalerRegistry) {ok : System → SystemEvent → Prop} {source pool target : System}
    {events : List SystemEvent} {event : SystemEvent} {position : ℕ} {subJob : SubJobWithJob} (initial : Initial source)
    (run : Run (platform registry) ok source events pool) (step : Step (platform registry) pool event target)
    (returns : Returns pool target position subJob) : target.world.Bounded subJob.id ↔
      ¬ StopsShort registry pool event position ∨ pool.world.Bounded subJob.id := by
  obtain ⟨sound, marking⟩ := sound_invariant (I := Marking registry) run
    (fun sound marking _ step => marking.step sound step) (Sound.of_initial initial) (Marking.of_initial initial)
  obtain ⟨⟨task, present, kind, flying⟩, later, present', returned, picked, unbroken⟩ := returns
  have after := marking.step sound step
  obtain same | ⟨op, next, reply, awaits, rfl, allowed, same⟩ := step.task_after present
  · cases same.symm.trans present'
    exact absurd flying returned
  · obtain rfl := Option.some.inj (same.symm.trans present')
    have legal := (marking.tracks position task present).legal awaits
    have final := (after.tracks position _ present').ended returned
    have here : (markMonitor registry).At pool position .subJobTick ((markMonitor registry).phase task) :=
      ⟨task, present, flying, kind, rfl⟩
    have noted : (markMonitor registry).phase ⟨task.kind, task.log ++ [⟨op, reply⟩], next reply⟩ =
        ((markMonitor registry).phase task).note ⟨op, reply⟩ :=
      Monitor.phase_concat _ task.kind task.log ⟨op, reply⟩ task.rest (next reply)
    have held : (((markMonitor registry).phase task).note ⟨op, reply⟩).snapshot = some subJob := by
      rw [← noted, Monitor.phase, kind]
      exact MarkPhase.snapshot_of_picked picked
    rw [noted] at final
    have unfinished := after.unfinished _ (List.mem_of_getElem? present') _ (mem_of_pickedIn picked) subJob rfl
    have lasts := unbroken ⟨op, reply⟩ (List.mem_append_right _ (List.mem_singleton_self _))
    generalize reached : (markMonitor registry).phase task = phase at legal here held final
    cases undated : phase.undated with
    | some other =>
      have same := MarkPhase.snapshot_note ⟨op, reply⟩ (MarkPhase.snapshot_of_undated undated)
      obtain rfl : other = subJob := Option.some.inj (same.symm.trans held)
      have holds : Holds pool other := by
        refine ⟨task, List.mem_of_getElem? present, kind, flying, ?_⟩
        rw [Monitor.phase, kind] at reached
        have held := MarkPhase.snapshot_of_undated undated
        rw [← reached] at held
        obtain started | ⟨-, picked⟩ := MarkPhase.picking.picked_of_snapshot held
        · cases started
        · exact picked
      exact undated_returns sound step here holds undated legal final unfinished lasts
    | none =>
      rw [stopsShort_iff here]
      have dates (row : ∃ row, pool.world.subJobs.find? subJob.id = some row ∧ row.deadlineAt.isSome) :
          target.world.Bounded subJob.id := by
        obtain ⟨row, found, dated⟩ := deadline_step sound.tracks step row
        exact ⟨row, found, .inr dated⟩
      cases legal with
      | aside => cases held
      | pick =>
        obtain ⟨stays, -⟩ | ⟨first, made, noted⟩ := MarkPhase.note_searching ⟨_, reply⟩
        · rw [stays] at held
          cases held
        · rw [noted] at held final ⊢
          by_cases isDated : first.deadlineAt.isSome
          · rw [if_pos isDated] at held ⊢
            cases held
            rw [made] at allowed
            exact iff_of_true (dates (dated_of_picked allowed isDated)) (.inl (by simp))
          · rw [if_neg isDated] at held final
            cases held
            exact absurd unfinished (SubJobStatus.not_unfinished_iff.mpr final)
      | dated =>
        cases held
        refine iff_of_true (dates (marking.dated position _ here)) (.inl ?_)
        change ¬ ((∃ subJob, MarkPhase.dated _ = .skipped subJob) ∨
          ∃ subJob services workers, MarkPhase.dated _ = .scaling subJob services workers)
        simp
      | broken =>
        rw [Monitor.phase] at reached
        obtain starts | ⟨made, member, fails⟩ := MarkPhase.broken_foldl reached
        · rw [kind] at starts
          cases starts
        · rw [unbroken made (List.mem_append_left _ member)] at fails
          cases fails
      | going undated' => cases undated.symm.trans undated'

/-! ## Samples -/

instance (w : World) (id : Uuid) : Decidable (w.Bounded id) :=
  decidable_of_iff ((w.subJobs.find? id).any fun row => decide (row.status.Ended ∨ row.deadlineAt.isSome)) (by
    simp [World.Bounded, Option.any_eq_true])

/-- A tick is in flight before a move and has returned after it, with this sub-job and no write failed. -/
def returnsBy (pool : System) (position : ℕ) (id : Uuid) (test : System → Bool) (last : Move) : Bool :=
  (pool.tasks[position]?.any fun task => decide (task.kind = .subJobTick ∧ task.InFlight)) &&
    (move ⟨false⟩ pool last).any fun moved => succeeds pool moved.1 && test moved.2 &&
      moved.2.tasks[position]?.any fun task => !decide task.InFlight && (pickedIn task.log).any (·.id = id) &&
        task.log.all fun made => !Act.writeFails made

theorem returns_of_check {pool : System} {position : ℕ} {id : Uuid} {test : System → Bool} {last : Move}
    (check : returnsBy pool position id test last = true) : ∃ target event subJob, NoFailure event ∧
      Step (platform ⟨false⟩) pool event target ∧ Returns pool target position subJob ∧ subJob.id = id ∧
      test target = true := by
  obtain ⟨flies, moves⟩ := (Bool.and_eq_true ..).mp check
  obtain ⟨task, present, flies⟩ := (Option.any_eq_true ..).mp flies
  obtain ⟨⟨event, target⟩, moved, found⟩ := (Option.any_eq_true ..).mp moves
  simp only [Bool.and_eq_true] at found
  obtain ⟨⟨succeeds, tested⟩, returned⟩ := found
  obtain ⟨later, present', returned⟩ := (Option.any_eq_true ..).mp returned
  simp only [Bool.and_eq_true, Bool.not_eq_true', decide_eq_false_iff_not, List.all_eq_true] at returned
  obtain ⟨⟨returned, picked⟩, unbroken⟩ := returned
  obtain ⟨subJob, picked, own⟩ := (Option.any_eq_true ..).mp picked
  exact ⟨target, event, subJob, noFailure_of_succeeds succeeds, step_of_move moved,
    ⟨⟨task, present, of_decide_eq_true flies⟩, later, present', returned, picked, unbroken⟩, of_decide_eq_true own, tested⟩

/-- The first tick cancels the scaling sub-job, which is not needed. -/
theorem bounded_iff_notNeeded : ∃ events pool event target subJob,
    Run (platform ⟨false⟩) (fun _ _ => True) (sampleSystem .online) events pool ∧
      Step (platform ⟨false⟩) pool event target ∧ Returns pool target 1 subJob ∧ target.world.Bounded subJob.id ∧
      ¬ StopsShort ⟨false⟩ pool event 1 := by
  have replayed : ((replay ⟨false⟩ (fun _ _ => true) (sampleSystem .online) (sampleCreation ++ sampleTick 1 6)).any
      fun pool => !decide (pool.world.Bounded 2) &&
        returnsBy pool 1 2 (fun target => decide (target.world.Bounded 2)) (.go 1)) = true := by
    decide +kernel
  obtain ⟨events, pool, run, found⟩ := exists_run_of_replay replayed
  obtain ⟨unbounded, check⟩ := (Bool.and_eq_true ..).mp found
  obtain ⟨target, event, subJob, -, step, returns, own, bounded⟩ := returns_of_check check
  have run := run.mono fun _ _ _ => trivial
  have bounded : target.world.Bounded subJob.id := own ▸ of_decide_eq_true bounded
  refine ⟨events, pool, event, target, subJob, run, step, returns, bounded, ?_⟩
  apply ((bounded_iff ⟨false⟩ (initial_sampleSystem .online) run step returns).mp bounded).resolve_right
  rw [own]
  simpa using unbounded

/-- No worker is online, and the provider does not answer the first tick. -/
theorem not_headBounded : ¬ HeadBounded ⟨false⟩ fun _ event => NoFailure event := by
  intro bounded
  have replayed : ((replay ⟨false⟩ succeeds (sampleSystem .offline) (sampleCreation ++ sampleTick 1 6)).any
      fun pool => returnsBy pool 1 2 (fun target => !decide (target.world.Bounded 2)) (.fail 1)) = true := by
    decide +kernel
  obtain ⟨events, pool, run, check⟩ := exists_run_of_replay replayed
  obtain ⟨target, event, subJob, noFailure, step, returns, own, unbounded⟩ := returns_of_check check
  have holds := bounded (initial_sampleSystem .offline) (run.mono fun _ _ => noFailure_of_succeeds) noFailure step returns
  rw [own] at holds
  simp [holds] at unbounded

end Bms
