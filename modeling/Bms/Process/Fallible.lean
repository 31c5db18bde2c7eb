import Bms.Process.Prog

/-! # Programs that may fail

A fallible program stops at its first error. Calls are awaited through `attempt`, which decides from
the reply whether to go on. `Fallible.Obeys` has a postcondition for each way to stop, so the error
path of a sequence is written once (`obeys_bind`).
-/

namespace Process

variable {P : PFunctor.{0, 0}} {α β ε φ : Type}

abbrev Fallible (P : PFunctor.{0, 0}) (ε α : Type) : Type := ExceptT ε (Prog P) α

namespace Fallible

/-- Await one call and decode its reply. -/
def attempt (op : P.A) (decode : P.B op → Except ε α) : Fallible P ε α :=
  ExceptT.mk (.call op fun reply => .ret (decode reply))

/-- Go on with a value, or stop with an error, without a call. -/
def outcome (value : Except ε α) : Fallible P ε α := ExceptT.mk (.ret value)

/-- Change the error that a program stops with. -/
def mapError {δ : Type} (change : δ → ε) (program : Fallible P δ α) : Fallible P ε α :=
  ExceptT.mk (program.run >>= fun reached => .ret (reached.mapError change))

/-- Go on whether or not a program has failed. -/
def optional {δ : Type} (program : Fallible P δ α) : Fallible P ε (Option α) :=
  ExceptT.mk (program.run >>= fun reached => .ret (.ok reached.toOption))

@[simp] theorem run_mk (program : Prog P (Except ε α)) : (ExceptT.mk program : Fallible P ε α).run = program := rfl

/-- A run of a sequence whose first part returns a result. -/
theorem reaches_bind {program : Fallible P ε α} {rest : α → Fallible P ε β} {first second : List (Call P)} {value : α}
    {left : Prog P (Except ε β)} (run : program.run.Reaches first (.ret (.ok value)))
    (goes : (rest value).run.Reaches second left) : (program >>= rest).run.Reaches (first ++ second) left := by
  rw [ExceptT.run_bind]
  exact run.bind goes

/-- A result is passed on unchanged. -/
theorem reaches_mapError {δ : Type} {change : δ → ε} {program : Fallible P δ α} {log : List (Call P)} {value : α}
    (run : program.run.Reaches log (.ret (.ok value))) : (program.mapError change).run.Reaches log (.ret (.ok value)) := by
  rw [← List.append_nil log]
  exact run.bind (.nil _)

/-- Every call is legal, a result is returned where `good` holds and an error where `bad` does. -/
def Obeys (note : φ → Call P → φ) (legal : φ → P.A → Prop) (program : Fallible P ε α) (phase : φ)
    (good : α → φ → Prop) (bad : ε → φ → Prop) : Prop :=
  program.run.Obeys note legal phase fun
    | .ok value => good value
    | .error e => bad e

variable {note : φ → Call P → φ} {legal : φ → P.A → Prop} {phase : φ} {good : α → φ → Prop}
  {bad : ε → φ → Prop}

@[simp] theorem obeys_pure (value : α) :
    (pure value : Fallible P ε α).Obeys note legal phase good bad ↔ good value phase := Iff.rfl

@[simp] theorem obeys_outcome (value : Except ε α) :
    (outcome value : Fallible P ε α).Obeys note legal phase good bad ↔ match value with
      | .ok value => good value phase
      | .error e => bad e phase := by
  cases value <;> rfl

@[simp] theorem obeys_attempt (op : P.A) (decode : P.B op → Except ε α) :
    (attempt op decode).Obeys note legal phase good bad ↔
      legal phase op ∧ ∀ reply, match decode reply with
        | .ok value => good value (note phase ⟨op, reply⟩)
        | .error e => bad e (note phase ⟨op, reply⟩) := by
  refine and_congr_right fun _ => forall_congr' fun reply => ?_
  rw [Prog.obeys_ret]
  cases decode reply <;> rfl

@[simp] theorem obeys_bind (program : Fallible P ε α) (rest : α → Fallible P ε β) {good : β → φ → Prop} :
    (program >>= rest).Obeys note legal phase good bad ↔
      program.Obeys note legal phase (fun value middle => (rest value).Obeys note legal middle good bad) bad := by
  rw [Obeys, ExceptT.run_bind, Prog.obeys_bind]
  refine iff_of_eq (congrArg _ (funext fun outcome => funext fun middle => ?_))
  cases outcome <;> rfl

@[simp] theorem obeys_mapError {δ : Type} (change : δ → ε) (program : Fallible P δ α) :
    (program.mapError change).Obeys note legal phase good bad ↔
      program.Obeys note legal phase good fun e => bad (change e) := by
  rw [Obeys, mapError, run_mk, Prog.obeys_bind]
  refine iff_of_eq (congrArg _ (funext fun outcome => funext fun middle => ?_))
  cases outcome <;> rfl

@[simp] theorem obeys_optional {δ : Type} (program : Fallible P δ α) {good : Option α → φ → Prop} :
    (program.optional : Fallible P ε (Option α)).Obeys note legal phase good bad ↔
      program.Obeys note legal phase (fun value => good (some value)) fun _ => good none := by
  rw [Obeys, optional, run_mk, Prog.obeys_bind]
  refine iff_of_eq (congrArg _ (funext fun outcome => funext fun middle => ?_))
  cases outcome <;> rfl

theorem Obeys.ite {c : Prop} [Decidable c] {yes no : Fallible P ε α} (onYes : c → yes.Obeys note legal phase good bad)
    (onNo : ¬ c → no.Obeys note legal phase good bad) :
    (if c then yes else no : Fallible P ε α).Obeys note legal phase good bad := by
  split
  · next holds => exact onYes holds
  · next fails => exact onNo fails

theorem Obeys.mono {program : Fallible P ε α} {good' : α → φ → Prop} {bad' : ε → φ → Prop}
    (obeys : program.Obeys note legal phase good bad) (onGood : ∀ value phase, good value phase → good' value phase)
    (onBad : ∀ e phase, bad e phase → bad' e phase) : program.Obeys note legal phase good' bad' := by
  apply Prog.Obeys.mono obeys
  intro outcome middle post
  cases outcome with
  | ok value => exact onGood value middle post
  | error e => exact onBad e middle post

/-- What a fallible program obeys when both of its ends are handled by one continuation. -/
theorem Obeys.handle {program : Fallible P ε α} {handler : Except ε α → Prog P β} {post : β → φ → Prop}
    (obeys : program.Obeys note legal phase (fun value middle => (handler (.ok value)).Obeys note legal middle post)
      fun e middle => (handler (.error e)).Obeys note legal middle post) :
    (program.run >>= handler).Obeys note legal phase post := by
  rw [Prog.obeys_bind]
  apply Prog.Obeys.mono obeys
  intro outcome middle post
  cases outcome <;> exact post

end Fallible

end Process
