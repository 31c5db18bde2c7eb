import Bms.Process.Join
import Bms.Process.Pool

/-! # Relying on replies

A program relies on a condition on the replies it gets, and guarantees one on the calls it makes for as long as
all of them meet it. Programs that rely on the same condition may be put in sequence or joined: the calls that
one makes between two calls of the other change nothing. In a pool every task keeps its guarantee until a
reply lets it down, whatever the other tasks do.
-/

namespace Process

variable {P : PFunctor.{0, 0}} {α β ε : Type}

namespace Prog

/-- While the replies meet `rely`, the calls meet `guarantee`, and what is then returned meets `post`. -/
def Relies (rely : Call P → Prop) (guarantee : P.A → Prop) : Prog P α → (α → Prop) → Prop
  | .ret value, post => post value
  | .call op next, post =>
    guarantee op ∧ ∀ reply, rely ⟨op, reply⟩ → (next reply).Relies rely guarantee post

section Relies

variable {rely : Call P → Prop} {guarantee : P.A → Prop} {post : α → Prop} {post' : β → Prop}

@[simp] theorem relies_bind (program : Prog P α) (rest : α → Prog P β) :
    (program >>= rest).Relies rely guarantee post' ↔
      program.Relies rely guarantee fun value => (rest value).Relies rely guarantee post' := by
  induction program with
  | ret value => rfl
  | call op next ih => exact and_congr_right fun _ => forall_congr' fun reply => imp_congr_right fun _ => ih reply

theorem Relies.mono {weaker : α → Prop} {program : Prog P α} (relies : program.Relies rely guarantee post)
    (weaken : ∀ value, post value → weaker value) : program.Relies rely guarantee weaker := by
  induction program with
  | ret value => exact weaken value relies
  | call op next ih => exact ⟨relies.1, fun reply meets => ih reply (relies.2 reply meets)⟩

/-- Calls that meet the guarantee anyway rely on nothing. -/
theorem Only.relies {program : Prog P α} (only : program.Only guarantee) :
    program.Relies rely guarantee fun _ => True := by
  induction program with
  | ret value => trivial
  | call op next ih => exact ⟨only.1, fun reply _ => ih reply (only.2 reply)⟩

theorem Relies.joinCall {poll : P.A} {first : P.B poll → Bool} {op : P.A}
    {resume : P.B op → Prog P β → Prog P (α × β)} {finish : Prog P α} {second : Prog P β} (polls : guarantee poll)
    (calls : guarantee op)
    (resumes : ∀ reply other, rely ⟨op, reply⟩ → other.Relies rely guarantee post' →
      (resume reply other).Relies rely guarantee fun pair => post pair.1 ∧ post' pair.2)
    (finishes : finish.Relies rely guarantee post) (relies : second.Relies rely guarantee post') :
    (Prog.joinCall poll first op resume finish second).Relies rely guarantee
      fun pair => post pair.1 ∧ post' pair.2 := by
  induction second with
  | ret b => exact (relies_bind ..).mpr (finishes.mono fun a holds => ⟨holds, relies⟩)
  | call other next ih =>
    refine ⟨polls, fun polled _ => ?_⟩
    dsimp only
    split
    · exact ⟨calls, fun reply meets => resumes reply _ meets relies⟩
    · exact ⟨relies.1, fun reply meets => ih reply (relies.2 reply meets)⟩

/-- Joined programs keep their guarantees. -/
theorem Relies.join {poll : P.A} {first : P.B poll → Bool} {left : Prog P α} {right : Prog P β}
    (polls : guarantee poll) (onLeft : left.Relies rely guarantee post) (onRight : right.Relies rely guarantee post') :
    (Prog.join poll first left right).Relies rely guarantee fun pair => post pair.1 ∧ post' pair.2 := by
  induction left generalizing right with
  | ret a => exact (relies_bind ..).mpr (onRight.mono fun b holds => ⟨onLeft, holds⟩)
  | call op next ih =>
    exact .joinCall polls onLeft.1 (fun reply _ meets relies => ih reply (onLeft.2 reply meets) relies) onLeft onRight

end Relies

end Prog

namespace Fallible

variable {δ : Type} {rely : Call P → Prop} {guarantee : P.A → Prop} {good : α → Prop}

/-- A fallible program may fail at any time; what it returns otherwise meets `good`. -/
def Relies (rely : Call P → Prop) (guarantee : P.A → Prop) (program : Fallible P ε α) (good : α → Prop) : Prop :=
  program.run.Relies rely guarantee fun
    | .ok value => good value
    | .error _ => True

@[simp] theorem relies_outcome (value : Except ε α) :
    (outcome value : Fallible P ε α).Relies rely guarantee good ↔ ∀ result, value = .ok result → good result := by
  cases value with
  | ok value => exact ⟨fun holds _ same => by cases same; exact holds, fun holds => holds value rfl⟩
  | error e => exact iff_of_true trivial fun _ same => by cases same

@[simp] theorem relies_attempt (op : P.A) (decode : P.B op → Except ε α) :
    (attempt op decode).Relies rely guarantee good ↔
      guarantee op ∧ ∀ reply result, rely ⟨op, reply⟩ → decode reply = .ok result → good result := by
  refine and_congr_right fun _ => forall_congr' fun reply => ?_
  rw [forall_comm]
  exact forall_congr' fun _ => relies_outcome (decode reply)

@[simp] theorem relies_bind (program : Fallible P ε α) (rest : α → Fallible P ε β) {good : β → Prop} :
    (program >>= rest).Relies rely guarantee good ↔
      program.Relies rely guarantee fun value => (rest value).Relies rely guarantee good := by
  rw [Relies, ExceptT.run_bind, Prog.relies_bind]
  refine iff_of_eq (congrArg _ (funext fun outcome => ?_))
  cases outcome <;> rfl

@[simp] theorem relies_mapError (change : δ → ε) (program : Fallible P δ α) :
    (program.mapError change).Relies rely guarantee good ↔ program.Relies rely guarantee good := by
  rw [Relies, mapError, run_mk, Prog.relies_bind]
  refine iff_of_eq (congrArg _ (funext fun outcome => ?_))
  cases outcome <;> rfl

theorem Relies.mono {weaker : α → Prop} {program : Fallible P ε α} (relies : program.Relies rely guarantee good)
    (weaken : ∀ value, good value → weaker value) : program.Relies rely guarantee weaker := by
  apply Prog.Relies.mono relies
  intro outcome holds
  cases outcome with
  | ok value => exact weaken value holds
  | error e => trivial

theorem Relies.optional {program : Fallible P δ α} (relies : program.Relies rely guarantee good) :
    (program.optional : Fallible P ε (Option α)).Relies rely guarantee fun _ => True := by
  rw [Relies, Fallible.optional, run_mk, Prog.relies_bind]
  exact Prog.Relies.mono relies fun _ _ => trivial

theorem Relies.ite {c : Prop} [Decidable c] {yes no : Fallible P ε α} (onYes : c → yes.Relies rely guarantee good)
    (onNo : ¬ c → no.Relies rely guarantee good) : (if c then yes else no).Relies rely guarantee good := by
  split
  · next holds => exact onYes holds
  · next fails => exact onNo fails

theorem Only.relies {program : Fallible P ε α} (only : program.Only guarantee) :
    program.Relies rely guarantee fun _ => True :=
  Prog.Relies.mono (Prog.Only.relies only) fun outcome _ => by cases outcome <;> trivial

/-- Whatever a fallible program ends with, what follows keeps the guarantee. -/
theorem Relies.handle {program : Fallible P ε α} {handler : Except ε α → Prog P β} {post : β → Prop}
    (relies : program.Relies rely guarantee good)
    (handles : ∀ outcome, (handler outcome).Relies rely guarantee post) :
    (program.run >>= handler).Relies rely guarantee post :=
  (Prog.relies_bind ..).mpr (Prog.Relies.mono relies fun outcome _ => handles outcome)

end Fallible

/-! ## Pools of tasks that rely on replies -/

section Pool

variable {σ κ : Type} {S : Platform P σ κ}

/-- Every task whose replies have met its condition so far keeps its guarantee while they go on to do so. -/
def Pool.Relies (rely : κ → Call P → Prop) (guarantee : P.A → Prop) (pool : Pool P σ κ) : Prop :=
  ∀ task ∈ pool.tasks, (∀ made ∈ task.log, rely task.kind made) →
    task.rest.Relies (rely task.kind) guarantee fun _ => True

variable {rely : κ → Call P → Prop} {guarantee : P.A → Prop} {source target : Pool P σ κ} {event : Event P κ}

/-- A step keeps the guarantees if the task it starts keeps its own. -/
theorem Pool.Relies.step (relies : source.Relies rely guarantee) (step : Step S source event target)
    (starts : ∀ kind, event = .spawn kind → S.admits source kind →
      (S.body kind).Relies (rely kind) guarantee fun _ => True) : target.Relies rely guarantee := by
  intro task member reliable
  obtain ⟨position, present⟩ := List.mem_iff_getElem?.mp member
  obtain old | ⟨kind, rfl, -, rfl⟩ | ⟨before, op, next, reply, old, awaits, -, -, rfl⟩ := step.task_cases present
  · exact relies task (List.mem_of_getElem? old) reliable
  · cases step with | spawn admitted => exact starts kind rfl admitted
  · have earlier := relies before (List.mem_of_getElem? old) fun made logged =>
      reliable made (List.mem_append_left _ logged)
    rw [awaits] at earlier
    exact earlier.2 reply (reliable _ (List.mem_append_right _ (List.mem_singleton_self _)))

/-- A task that calls what it guarantees not to call has been let down by a reply. -/
theorem Pool.Relies.letDown {pool : Pool P σ κ} (relies : pool.Relies rely guarantee) {task : Task P κ}
    (member : task ∈ pool.tasks) {op : P.A} {next : P.B op → Prog P Unit} (awaits : task.rest = .call op next)
    (breaks : ¬ guarantee op) : ∃ made ∈ task.log, ¬ rely task.kind made := by
  by_contra reliable
  push Not at reliable
  have keeps := relies task member reliable
  rw [awaits] at keeps
  exact breaks keeps.1

end Pool

end Process
