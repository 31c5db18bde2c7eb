import Bms.Process.Alone
import Bms.Process.Pool

/-! # Programs one after another

The programs of a pool's tasks, run alone one after another. A pool linearises what it `view`s of the
state if the tasks that have succeeded, run one after another in some order, leave the same view.
For that it is enough that each task acts on the view in the one call that lets it succeed, as its
program would act alone from there (`Run.linearises`).
-/

namespace Process

variable {P : PFunctor.{0, 0}} {σ κ ν ε : Type}

/-! ## A log that a state can answer -/

/-- The replies of a log are those that the state may give to a program that runs alone. -/
inductive Fits (E : Environment P σ) : σ → List (Call P) → σ → Prop
  | nil (s : σ) : Fits E s [] s
  | cons {s later : σ} {made : Call P} {log : List (Call P)} (still : E.drifts s s) (allowed : E.allows s made)
      (rest : Fits E (E.after s made) log later) : Fits E s (made :: log) later

variable {E : Environment P σ}

/-- So a program that has been fed the log elsewhere can run alone in the same way. -/
theorem Fits.alone {α : Type} {program rest : Prog P α} {log : List (Call P)} {s later : σ} (fits : Fits E s log later)
    (run : program.Reaches log rest) : Alone E s program later rest := by
  induction run generalizing s with
  | nil =>
    cases fits
    exact .here ..
  | cons _ ih =>
    cases fits with
    | cons still allowed fits => exact .call still allowed (ih fits)

/-! ## Serial executions -/

/-- The programs run alone one after another, and each returns a result. -/
inductive Serial (E : Environment P σ) (program : κ → Fallible P ε Unit) : σ → List κ → σ → Prop
  | nil (s : σ) : Serial E program s [] s
  | cons {s middle later : σ} {kind : κ} {kinds : List κ} (alone : Alone E s (program kind).run middle (.ret (.ok ())))
      (rest : Serial E program middle kinds later) : Serial E program s (kind :: kinds) later

variable {program : κ → Fallible P ε Unit}

theorem serial_concat {s later : σ} {kind : κ} {kinds : List κ} :
    Serial E program s (kinds ++ [kind]) later ↔
      ∃ middle, Serial E program s kinds middle ∧ Alone E middle (program kind).run later (.ret (.ok ())) := by
  induction kinds generalizing s with
  | nil =>
    constructor
    · intro run
      cases run with
      | cons alone rest =>
        cases rest
        exact ⟨s, .nil s, alone⟩
    · rintro ⟨middle, earlier, alone⟩
      cases earlier
      exact .cons alone (.nil later)
  | cons first kinds ih =>
    constructor
    · intro run
      cases run with
      | cons alone rest =>
        obtain ⟨middle, earlier, last⟩ := ih.mp rest
        exact ⟨middle, .cons alone earlier, last⟩
    · rintro ⟨middle, earlier, last⟩
      cases earlier with
      | cons alone earlier => exact .cons alone (ih.mpr ⟨middle, earlier, last⟩)

/-- From every state with the first view, the program alone can return a result, and leaves the second. -/
def Acts (E : Environment P σ) (view : σ → ν) (program : Fallible P ε Unit) (before after : ν) : Prop :=
  ∀ s, view s = before → (∃ later, Alone E s program.run later (.ret (.ok ()))) ∧
    ∀ later, Alone E s program.run later (.ret (.ok ())) → view later = after

/-- A serial execution of the programs is possible, and each leaves the view. -/
def Leaves (E : Environment P σ) (program : κ → Fallible P ε Unit) (view : σ → ν) (s : σ) (kinds : List κ) (after : ν) :
    Prop :=
  (∃ later, Serial E program s kinds later) ∧ ∀ later, Serial E program s kinds later → view later = after

variable {view : σ → ν}

theorem leaves_nil (s : σ) : Leaves E program view s [] (view s) := by
  refine ⟨⟨s, .nil s⟩, fun later run => ?_⟩
  cases run
  rfl

theorem Leaves.concat {s : σ} {kinds : List κ} {kind : κ} {before after : ν}
    (leaves : Leaves E program view s kinds before) (acts : Acts E view (program kind) before after) :
    Leaves E program view s (kinds ++ [kind]) after := by
  obtain ⟨⟨middle, earlier⟩, same⟩ := leaves
  constructor
  · obtain ⟨later, last⟩ := (acts middle (same middle earlier)).1
    exact ⟨later, serial_concat.mpr ⟨middle, earlier, last⟩⟩
  · intro later run
    obtain ⟨middle, earlier, last⟩ := serial_concat.mp run
    exact (acts middle (same middle earlier)).2 later last

/-! ## Pools of such programs -/

/-- The task at a position has returned a result. -/
def Succeeds (program : κ → Fallible P ε Unit) (pool : Pool P σ κ) (position : ℕ) (kind : κ) : Prop :=
  ∃ task, pool.tasks[position]? = some task ∧ task.kind = kind ∧ (program kind).run.Reaches task.log (.ret (.ok ()))

/-- The tasks that have succeeded, one after another in some order, leave the view that the pool has. -/
def Linearises (E : Environment P σ) (program : κ → Fallible P ε Unit) (view : σ → ν) (s : σ) (pool : Pool P σ κ) :
    Prop :=
  ∃ order : List (ℕ × κ), order.Nodup ∧ (∀ done : ℕ × κ, done ∈ order ↔ Succeeds program pool done.1 done.2) ∧
    Leaves E program view s (order.map (·.2)) (view pool.world)

/-- Every task runs its program on replies that some state has given. -/
def Follows (S : Platform P σ κ) (program : κ → Fallible P ε Unit) (pool : Pool P σ κ) : Prop :=
  ∀ (position : ℕ) (task : Task P κ), pool.tasks[position]? = some task →
    (∀ made ∈ task.log, ∃ world, S.allows world made) ∧
      ∃ middle, (program task.kind).run.Reaches task.log middle ∧ task.rest = middle >>= fun _ => .ret ()

variable {S : Platform P σ κ} {source target : Pool P σ κ} {event : Event P κ}

/-- What is left of the program of a task that awaits a reply. -/
theorem Follows.awaits {position : ℕ} {task : Task P κ} {op : P.A} {next : P.B op → Prog P Unit}
    (follows : Follows S program source) (present : source.tasks[position]? = some task)
    (awaits : task.rest = .call op next) : ∃ left, (program task.kind).run.Reaches task.log (.call op left) ∧
      ∀ reply, next reply = left reply >>= fun _ => .ret () := by
  obtain ⟨-, middle, run, rest⟩ := follows position task present
  rw [awaits] at rest
  cases middle with
  | ret value => cases rest
  | call op' left =>
    rw [Prog.call_bind] at rest
    cases rest
    exact ⟨left, run, fun reply => rfl⟩

theorem Follows.step (bodies : ∀ kind, S.body kind = (program kind).run >>= fun _ => .ret ())
    (follows : Follows S program source) (step : Step S source event target) : Follows S program target := by
  intro position task present
  obtain old | ⟨kind, -, -, rfl⟩ | ⟨before, op, next, reply, old, awaits, -, allowed, rfl⟩ := step.task_cases present
  · exact follows position task old
  · exact ⟨fun made member => absurd member List.not_mem_nil, (program kind).run, .nil _, bodies kind⟩
  · obtain ⟨left, run, rest⟩ := follows.awaits old awaits
    refine ⟨fun made member => ?_, left reply, run.concat reply, rest reply⟩
    rcases List.mem_append.mp member with earlier | last
    · exact (follows position before old).1 made earlier
    · rw [List.mem_singleton.mp last]
      exact ⟨_, allowed⟩

/-- After a task has been added. -/
theorem succeeds_append {world : σ} {added : Task P κ} {position : ℕ} {kind : κ} :
    Succeeds program ⟨world, source.tasks ++ [added]⟩ position kind ↔ Succeeds program source position kind ∨
      (position = source.tasks.length ∧ added.kind = kind ∧ (program kind).run.Reaches added.log (.ret (.ok ()))) := by
  constructor
  · rintro ⟨task, present, same, run⟩
    rcases Nat.lt_or_ge position source.tasks.length with old | new
    · rw [List.getElem?_append_left old] at present
      exact .inl ⟨task, present, same, run⟩
    · have bound := (List.getElem?_eq_some_iff.mp present).1
      rw [List.length_append, List.length_singleton] at bound
      obtain rfl : position = source.tasks.length := by omega
      rw [List.getElem?_concat_length, Option.some.injEq] at present
      subst present
      exact .inr ⟨rfl, same, run⟩
  · rintro (⟨task, present, same, run⟩ | ⟨rfl, same, run⟩)
    · have bound := (List.getElem?_eq_some_iff.mp present).1
      exact ⟨task, by rwa [List.getElem?_append_left bound], same, run⟩
    · exact ⟨added, List.getElem?_concat_length, same, run⟩

/-- After a task has gone on. -/
theorem succeeds_set {world : σ} {task later : Task P κ} {caller position : ℕ} {kind : κ}
    (present : source.tasks[caller]? = some task) :
    Succeeds program ⟨world, source.tasks.set caller later⟩ position kind ↔
      (position ≠ caller ∧ Succeeds program source position kind) ∨
        (position = caller ∧ later.kind = kind ∧ (program kind).run.Reaches later.log (.ret (.ok ()))) := by
  have bound := (List.getElem?_eq_some_iff.mp present).1
  by_cases here : position = caller
  · subst here
    simp only [Succeeds, List.getElem?_set_self bound, Option.some.injEq, ne_eq, not_true_eq_false, false_and, true_and,
      false_or]
    exact ⟨fun ⟨_, same, rest⟩ => same ▸ rest, fun rest => ⟨later, rfl, rest⟩⟩
  · simp only [Succeeds, List.getElem?_set_ne (Ne.symm here), ne_eq, here, not_false_eq_true, true_and, false_and,
      or_false]

/-- A task that awaits a reply has not succeeded. -/
theorem Follows.not_succeeds {position : ℕ} {task : Task P κ} {op : P.A} {next : P.B op → Prog P Unit}
    (follows : Follows S program source) (present : source.tasks[position]? = some task)
    (awaits : task.rest = .call op next) (kind : κ) : ¬ Succeeds program source position kind := by
  rintro ⟨task', present', rfl, run⟩
  obtain rfl : task = task' := Option.some.inj (present.symm.trans present')
  obtain ⟨left, run', -⟩ := follows.awaits present awaits
  cases run.unique run'

/-! ## The order in which the tasks have succeeded -/

theorem Linearises.same {s : σ} (linearises : Linearises E program view s source)
    (kept : ∀ position kind, Succeeds program target position kind ↔ Succeeds program source position kind)
    (seen : view target.world = view source.world) : Linearises E program view s target := by
  obtain ⟨order, once, done, leaves⟩ := linearises
  refine ⟨order, once, fun pair => (done pair).trans (kept pair.1 pair.2).symm, ?_⟩
  rw [seen]
  exact leaves

/-- The task that has just succeeded comes last. -/
theorem Linearises.gain {s : σ} (linearises : Linearises E program view s source) (position : ℕ) (kind : κ)
    (gained : ∀ position' kind', Succeeds program target position' kind' ↔
      Succeeds program source position' kind' ∨ (position', kind') = (position, kind))
    (fresh : ¬ Succeeds program source position kind)
    (acts : Acts E view (program kind) (view source.world) (view target.world)) :
    Linearises E program view s target := by
  obtain ⟨order, once, done, leaves⟩ := linearises
  refine ⟨order ++ [(position, kind)], ?_, fun pair => ?_, ?_⟩
  · refine List.nodup_append.mpr ⟨once, List.nodup_singleton _, ?_⟩
    rintro pair member last listed rfl
    rw [List.mem_singleton.mp listed] at member
    exact fresh ((done _).mp member)
  · rw [List.mem_append, List.mem_singleton, done, gained]
  · rw [List.map_append]
    exact leaves.concat acts

/-- A program that returns at once acts on nothing. -/
theorem acts_of_immediate {kind : κ} (immediate : (program kind).run = .ret (.ok ())) (seen : ν) :
    Acts E view (program kind) seen seen := by
  intro s same
  rw [immediate]
  refine ⟨⟨s, .here ..⟩, fun later run => ?_⟩
  cases run
  exact same

/-- What the call of a task does to the view: all of its program's effect if the task has then succeeded, and
nothing otherwise. -/
def Effective (S : Platform P σ κ) (E : Environment P σ) (program : κ → Fallible P ε Unit) (view : σ → ν)
    (ok : Pool P σ κ → Event P κ → Prop) : Prop :=
  ∀ {pool : Pool P σ κ} {position : ℕ} {task : Task P κ} {op : P.A} {left : P.B op → Prog P (Except ε Unit)}
    {reply : P.B op}, pool.tasks[position]? = some task → (∀ made ∈ task.log, ∃ world, S.allows world made) →
    (program task.kind).run.Reaches task.log (.call op left) → S.allows pool.world ⟨op, reply⟩ →
    ok pool (.call position ⟨op, reply⟩) →
    (left reply = .ret (.ok ()) →
      Acts E view (program task.kind) (view pool.world) (view (S.after pool.world ⟨op, reply⟩))) ∧
    (left reply ≠ .ret (.ok ()) → view (S.after pool.world ⟨op, reply⟩) = view pool.world)

section Linearises

variable {ok : Pool P σ κ → Event P κ → Prop} (entering : ∀ world kind, view (S.enter world kind) = view world)
  (drifting : ∀ world world', S.drifts world world' → view world' = view world)
  (effective : Effective S E program view ok)

include entering drifting effective

theorem Linearises.step {s : σ} (follows : Follows S program source) (meets : ok source event)
    (step : Step S source event target) (linearises : Linearises E program view s source) :
    Linearises E program view s target := by
  cases step with
  | @spawn kind admitted =>
    by_cases immediate : (program kind).run = .ret (.ok ())
    · refine linearises.gain source.tasks.length kind (fun position' kind' => ?_) ?_ ?_
      · refine succeeds_append.trans (or_congr_right ?_)
        rw [Prod.mk.injEq]
        constructor
        · rintro ⟨rfl, rfl, -⟩
          exact ⟨rfl, rfl⟩
        · rintro ⟨rfl, rfl⟩
          exact ⟨rfl, rfl, immediate ▸ .nil _⟩
      · rintro ⟨task, present, -⟩
        exact Nat.lt_irrefl _ (List.getElem?_eq_some_iff.mp present).1
      · rw [entering]
        exact acts_of_immediate immediate _
    · refine linearises.same (fun position' kind' => ?_) (entering _ _)
      refine succeeds_append.trans (or_iff_left ?_)
      rintro ⟨-, rfl, run⟩
      exact immediate run.nil_inv.symm
  | @call position task op next reply present awaits allowed =>
    obtain ⟨left, run, -⟩ := follows.awaits present awaits
    have before := follows.not_succeeds present awaits
    obtain ⟨finishes, goesOn⟩ := effective present (follows position task present).1 run allowed meets
    by_cases returned : left reply = .ret (.ok ())
    · refine linearises.gain position task.kind (fun position' kind' => ?_) (before _) (finishes returned)
      apply (succeeds_set present).trans
      constructor
      · rintro (⟨-, old⟩ | ⟨rfl, rfl, -⟩)
        · exact .inl old
        · exact .inr rfl
      · rintro (old | same)
        · refine .inl ⟨?_, old⟩
          rintro rfl
          exact before kind' old
        · cases same
          exact .inr ⟨rfl, rfl, returned ▸ run.concat reply⟩
    · refine linearises.same (fun position' kind' => ?_) (goesOn returned)
      apply (succeeds_set present).trans
      constructor
      · rintro (⟨-, old⟩ | ⟨rfl, rfl, ended⟩)
        · exact old
        · exact absurd ((run.concat reply).unique ended) returned
      · refine fun old => .inl ⟨?_, old⟩
        rintro rfl
        exact before kind' old
  | drift drifts => exact linearises.same (fun _ _ => Iff.rfl) (drifting _ _ drifts)

/-- Every run linearises in which a task acts on the view only as its program would act alone. -/
theorem Run.linearises (bodies : ∀ kind, S.body kind = (program kind).run >>= fun _ => .ret ())
    {events : List (Event P κ)} (run : Run S ok source events target) (empty : source.tasks = []) :
    Linearises E program view source.world target := by
  have unstarted (position : ℕ) : source.tasks[position]? = none := by rw [empty, List.getElem?_nil]
  have both := run.invariant (I := fun pool => Follows S program pool ∧ Linearises E program view source.world pool)
    (fun both meets step => ⟨both.1.step bodies step,
      both.2.step entering drifting effective both.1 meets step⟩) ?_
  · exact both.2
  · constructor
    · intro position task present
      rw [unstarted] at present
      cases present
    · refine ⟨[], List.nodup_nil, fun done => ?_, leaves_nil _⟩
      simp only [List.not_mem_nil, Succeeds, unstarted, reduceCtorEq, false_and, exists_false]

end Linearises

end Process
