import Mathlib.Data.PFunctor.Univariate.Basic

/-! # Programs that await one call at a time

A program over a signature `P` of calls either returns or awaits the reply of one call. Nothing is
said here about who answers: the same program can be fed a list of replies (`Prog.Reaches`) or
interleaved with others on shared state. What a program may do is described by a monitor that notes
every call with its reply in a phase; `Prog.Obeys` says that each call is legal in the phase reached
and that the program returns only where `post` holds. It is a weakest precondition, so sequencing
is a rewriting rule (`Prog.obeys_bind`).
-/

namespace Process

variable {P : PFunctor.{0, 0}} {α β φ : Type}

/-- A call together with the reply it got. -/
structure Call (P : PFunctor.{0, 0}) where
  op : P.A
  reply : P.B op

/-- A program: a result, or a call together with what to do with its reply. -/
inductive Prog (P : PFunctor.{0, 0}) (α : Type) : Type
  | ret (value : α) : Prog P α
  | call (op : P.A) (next : P.B op → Prog P α) : Prog P α

namespace Prog

def bind : Prog P α → (α → Prog P β) → Prog P β
  | .ret value, rest => rest value
  | .call op next, rest => .call op fun reply => (next reply).bind rest

instance : Monad (Prog P) where
  pure := .ret
  bind := .bind

@[simp] theorem call_bind (op : P.A) (next : P.B op → Prog P α) (rest : α → Prog P β) :
    .call op next >>= rest = .call op fun reply => next reply >>= rest := rfl

theorem bind_bind {γ : Type} (program : Prog P α) (next : α → Prog P β) (rest : β → Prog P γ) :
    program >>= next >>= rest = program >>= fun value => next value >>= rest := by
  induction program with
  | ret value => rfl
  | call op body ih =>
    rw [call_bind, call_bind, call_bind]
    exact congrArg (Prog.call op) (funext fun reply => ih reply)

/-- A program that still has a call to make. -/
def Awaits (program : Prog P α) : Prop := ∃ op next, program = .call op next

@[simp] theorem awaits_call (op : P.A) (next : P.B op → Prog P α) : (Prog.call op next).Awaits :=
  ⟨op, next, rfl⟩

@[simp] theorem not_awaits_ret (value : α) : ¬ (Prog.ret value : Prog P α).Awaits := by
  rintro ⟨_, _, same⟩
  cases same

/-- Whether a program awaits the reply of a call. -/
instance [DecidableEq P.A] (program : Prog P α) (op : P.A) : Decidable (∃ next, program = .call op next) :=
  match program with
  | .ret value => .isFalse nofun
  | .call other next =>
    if same : other = op then .isTrue ⟨same ▸ next, by subst same; rfl⟩
    else .isFalse fun ⟨_, awaits⟩ => same (by injection awaits)

/-! ## Feeding replies -/

/-- Feeding the replies of `log` to a program leaves the program `rest`. -/
inductive Reaches : Prog P α → List (Call P) → Prog P α → Prop
  | nil (program : Prog P α) : Reaches program [] program
  | cons {op : P.A} {next : P.B op → Prog P α} {reply : P.B op} {log : List (Call P)} {rest : Prog P α} :
      Reaches (next reply) log rest → Reaches (.call op next) (⟨op, reply⟩ :: log) rest

theorem Reaches.nil_inv {program rest : Prog P α} (run : Reaches program [] rest) : rest = program := by
  cases run
  rfl

theorem Reaches.ret_inv {value : α} {log : List (Call P)} {rest : Prog P α}
    (run : Reaches (.ret value) log rest) : log = [] ∧ rest = .ret value := by
  cases run
  exact ⟨rfl, rfl⟩

/-- A program can be fed in two parts. -/
theorem Reaches.append_inv {program rest : Prog P α} {first second : List (Call P)}
    (run : Reaches program (first ++ second) rest) :
    ∃ middle, Reaches program first middle ∧ Reaches middle second rest := by
  induction first generalizing program with
  | nil => exact ⟨program, .nil program, run⟩
  | cons made first ih =>
    cases run with
    | cons tail =>
      obtain ⟨middle, left, right⟩ := ih tail
      exact ⟨middle, .cons left, right⟩

/-- A program goes on by one call. -/
theorem Reaches.concat {program : Prog P α} {log : List (Call P)} {op : P.A} {next : P.B op → Prog P α}
    (run : Reaches program log (.call op next)) (reply : P.B op) :
    Reaches program (log ++ [⟨op, reply⟩]) (next reply) := by
  generalize awaiting : Prog.call op next = rest at run
  induction run with
  | nil =>
    subst awaiting
    exact .cons (.nil _)
  | cons _ ih => exact .cons (ih awaiting)

/-- What a program does is determined by the replies it gets. -/
theorem Reaches.unique {program rest other : Prog P α} {log : List (Call P)} (run : Reaches program log rest)
    (run' : Reaches program log other) : rest = other := by
  induction run with
  | nil => exact run'.nil_inv.symm
  | cons _ ih =>
    cases run' with
    | cons tail => exact ih tail

/-- A run of a sequence is a run of its first part, followed once that has returned by the second. -/
theorem Reaches.bind_inv {program : Prog P α} {next : α → Prog P β} {log : List (Call P)} {rest : Prog P β}
    (run : Reaches (program >>= next) log rest) :
    (∃ middle, Reaches program log middle ∧ rest = middle >>= next) ∨
      ∃ first second value, log = first ++ second ∧ Reaches program first (.ret value) ∧
        Reaches (next value) second rest := by
  induction program generalizing log with
  | ret value => exact .inr ⟨[], log, value, rfl, .nil _, run⟩
  | call op body ih =>
    rw [call_bind] at run
    cases run with
    | nil => exact .inl ⟨.call op body, .nil _, rfl⟩
    | cons tail =>
      rcases ih _ tail with ⟨middle, left, rfl⟩ | ⟨first, second, value, rfl, left, right⟩
      · exact .inl ⟨middle, .cons left, rfl⟩
      · exact .inr ⟨_ :: first, second, value, rfl, .cons left, right⟩

/-- A run of the first part, followed once that has returned by a run of the second. -/
theorem Reaches.bind {program : Prog P α} {next : α → Prog P β} {first second : List (Call P)} {value : α}
    {rest : Prog P β} (run : Reaches program first (.ret value)) (goes : Reaches (next value) second rest) :
    Reaches (program >>= next) (first ++ second) rest := by
  generalize returned : Prog.ret value = left at run
  induction run with
  | nil =>
    subst returned
    exact goes
  | cons _ ih => exact .cons (ih returned)

/-! ## What a program may do -/

/-- Every call is legal in the phase noted so far, and the program returns only where `post` holds. -/
def Obeys (note : φ → Call P → φ) (legal : φ → P.A → Prop) :
    Prog P α → φ → (α → φ → Prop) → Prop
  | .ret value, phase, post => post value phase
  | .call op next, phase, post =>
    legal phase op ∧ ∀ reply, (next reply).Obeys note legal (note phase ⟨op, reply⟩) post

section Obeys

variable {note : φ → Call P → φ} {legal : φ → P.A → Prop} {phase : φ}

@[simp] theorem obeys_ret (value : α) (post : α → φ → Prop) :
    (Prog.ret value : Prog P α).Obeys note legal phase post ↔ post value phase := Iff.rfl

@[simp] theorem obeys_call (op : P.A) (next : P.B op → Prog P α) (post : α → φ → Prop) :
    (Prog.call op next).Obeys note legal phase post ↔
      legal phase op ∧ ∀ reply, (next reply).Obeys note legal (note phase ⟨op, reply⟩) post := Iff.rfl

/-- Sequencing: the second part starts where the first has returned. -/
@[simp] theorem obeys_bind (program : Prog P α) (rest : α → Prog P β) (post : β → φ → Prop) :
    (program >>= rest).Obeys note legal phase post ↔
      program.Obeys note legal phase fun value middle => (rest value).Obeys note legal middle post := by
  induction program generalizing phase with
  | ret value => rfl
  | call op next ih =>
    simp only [call_bind, obeys_call]
    exact and_congr_right fun _ => forall_congr' fun reply => ih reply

theorem Obeys.mono {program : Prog P α} {post weaker : α → φ → Prop}
    (obeys : program.Obeys note legal phase post) (weaken : ∀ value phase, post value phase → weaker value phase) :
    program.Obeys note legal phase weaker := by
  induction program generalizing phase with
  | ret value => exact weaken _ _ obeys
  | call op next ih => exact ⟨obeys.1, fun reply => ih reply (obeys.2 reply)⟩

/-- What is left of a program once it has been fed some replies goes on in the phase reached. -/
theorem Obeys.feed {program rest : Prog P α} {post : α → φ → Prop} {log : List (Call P)}
    (obeys : program.Obeys note legal phase post) (run : Reaches program log rest) :
    rest.Obeys note legal (log.foldl note phase) post := by
  induction run generalizing phase with
  | nil => exact obeys
  | cons _ ih => exact ih (obeys.2 _)

/-- Whatever replies a program is fed, each of its calls is legal in the phase reached. -/
theorem Obeys.legal_call {program rest : Prog P α} {post : α → φ → Prop} {before after : List (Call P)} {made : Call P}
    (obeys : program.Obeys note legal phase post) (run : Reaches program (before ++ made :: after) rest) :
    legal (before.foldl note phase) made.op := by
  obtain ⟨middle, fed, run⟩ := run.append_inv
  have goes := obeys.feed fed
  cases run
  exact goes.1

/-- Where every call is legal and none is noted, any program goes. -/
theorem obeys_indifferent (indifferent : ∀ op, legal phase op) (kept : ∀ made, note phase made = phase)
    (program : Prog P α) : program.Obeys note legal phase fun _ reached => reached = phase := by
  induction program with
  | ret value => rfl
  | call op next ih =>
    refine ⟨indifferent op, fun reply => ?_⟩
    rw [kept]
    exact ih reply

end Obeys

end Prog

end Process
