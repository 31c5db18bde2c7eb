import Bms.Process.Join

/-! # Runs to the end

An oracle fixes what a program is told: the reply to each call, given the calls before it, or that it waits for
ever. A program consults it until it returns or waits. Where two programs are joined, the polls say whose each
call is: `Prog.Joined` splits a log into what the two of them have done.
-/

namespace Process

variable {P : PFunctor.{0, 0}} {α β : Type}

/-- The reply to a call after others, if there ever is one. -/
abbrev Oracle (P : PFunctor.{0, 0}) : Type := List (Call P) → (op : P.A) → Option (P.B op)

namespace Prog

/-- What a program adds to a log, and what is left of it. -/
def consult (oracle : Oracle P) (log : List (Call P)) : Prog P α → List (Call P) × Prog P α
  | .ret value => (log, .ret value)
  | .call op next => match oracle log op with
    | some reply => (next reply).consult oracle (log ++ [⟨op, reply⟩])
    | none => (log, .call op next)

/-- A program that consults an oracle returns, or waits for a reply that never comes. -/
theorem consult_reaches (oracle : Oracle P) (log : List (Call P)) (program : Prog P α) :
    ∃ made, (program.consult oracle log).1 = log ++ made ∧ Reaches program made (program.consult oracle log).2 ∧
      ((∃ value, (program.consult oracle log).2 = .ret value) ∨
        ∃ before op next, (program.consult oracle log).2 = .call op next ∧ oracle before op = none) := by
  induction program generalizing log with
  | ret value => exact ⟨[], (List.append_nil log).symm, .nil _, .inl ⟨value, rfl⟩⟩
  | call op next ih =>
    rw [consult]
    split
    · next reply told =>
      obtain ⟨made, grown, run, stops⟩ := ih reply (log ++ [⟨op, reply⟩])
      exact ⟨⟨op, reply⟩ :: made, grown.trans (List.append_assoc ..), .cons run, stops⟩
    · next waits => exact ⟨[], (List.append_nil log).symm, .nil _, .inr ⟨log, op, next, rfl, waits⟩⟩

/-- What is left of a program makes no other calls. -/
theorem Only.feed {C : P.A → Prop} {program rest : Prog P α} {log : List (Call P)} (only : program.Only C)
    (run : Reaches program log rest) : rest.Only C := by
  induction run with
  | nil => exact only
  | cons _ ih => exact ih (only.2 _)

/-! ## Whose call it is -/

theorem join_ret (poll : P.A) (first : P.B poll → Bool) (left : Prog P α) (b : β) :
    join poll first left (.ret b) = left >>= fun a => .ret (a, b) := by
  cases left <;> rfl

/-- A log of two joined programs, and what each of them has done in it. -/
inductive Joined (poll : P.A) (first : P.B poll → Bool) :
    Prog P α → Prog P β → (log own others : List (Call P)) → Prop
  | start (left : Prog P α) (right : Prog P β) : Joined poll first left right [] [] []
  | polled {op other : P.A} {next : P.B op → Prog P α} {goes : P.B other → Prog P β} (polled : P.B poll) :
      Joined poll first (.call op next) (.call other goes) [⟨poll, polled⟩] [] []
  | left {op other : P.A} {next : P.B op → Prog P α} {goes : P.B other → Prog P β} {polled : P.B poll}
      {reply : P.B op} {log own others : List (Call P)} (chosen : first polled = true)
      (joined : Joined poll first (next reply) (.call other goes) log own others) :
      Joined poll first (.call op next) (.call other goes) (⟨poll, polled⟩ :: ⟨op, reply⟩ :: log)
        (⟨op, reply⟩ :: own) others
  | right {op other : P.A} {next : P.B op → Prog P α} {goes : P.B other → Prog P β} {polled : P.B poll}
      {reply : P.B other} {log own others : List (Call P)} (chosen : first polled = false)
      (joined : Joined poll first (.call op next) (goes reply) log own others) :
      Joined poll first (.call op next) (.call other goes) (⟨poll, polled⟩ :: ⟨other, reply⟩ :: log) own
        (⟨other, reply⟩ :: others)
  /-- the other program has returned -/
  | onlyLeft {op : P.A} {next : P.B op → Prog P α} {b : β} {reply : P.B op} {log own others : List (Call P)}
      (joined : Joined poll first (next reply) (.ret b) log own others) :
      Joined poll first (.call op next) (.ret b) (⟨op, reply⟩ :: log) (⟨op, reply⟩ :: own) others
  | onlyRight {other : P.A} {a : α} {goes : P.B other → Prog P β} {reply : P.B other} {log own others : List (Call P)}
      (joined : Joined poll first (.ret a) (goes reply) log own others) :
      Joined poll first (.ret a) (.call other goes) (⟨other, reply⟩ :: log) own (⟨other, reply⟩ :: others)

section Joined

variable {poll : P.A} {first : P.B poll → Bool} {left : Prog P α} {right : Prog P β} {log own others : List (Call P)}

/-- Every log of joined programs splits. -/
theorem exists_joined {rest : Prog P (α × β)} (run : Reaches (join poll first left right) log rest) :
    ∃ own others, Joined poll first left right log own others := by
  induction left generalizing right log with
  | ret a =>
    induction right generalizing log with
    | ret b =>
      obtain ⟨rfl, -⟩ := Reaches.ret_inv run
      exact ⟨_, _, .start ..⟩
    | call other goes ih =>
      cases run with
      | nil => exact ⟨_, _, .start ..⟩
      | cons tail =>
        obtain ⟨own, others, joined⟩ := ih _ tail
        exact ⟨_, _, .onlyRight joined⟩
  | call op next ih =>
    induction right generalizing log with
    | ret b =>
      cases run with
      | nil => exact ⟨_, _, .start ..⟩
      | @cons _ _ reply _ _ tail =>
        have tail : Reaches (next reply >>= fun a => .ret (a, b)) _ rest := tail
        rw [← join_ret poll first] at tail
        obtain ⟨own, others, joined⟩ := ih _ tail
        exact ⟨_, _, .onlyLeft joined⟩
    | call other goes ih' =>
      cases run with
      | nil => exact ⟨_, _, .start ..⟩
      | @cons _ _ polled _ _ tail =>
        dsimp only at tail
        split at tail
        · next chosen =>
          cases tail with
          | nil => exact ⟨_, _, .polled polled⟩
          | cons tail =>
            obtain ⟨own, others, joined⟩ := ih _ tail
            exact ⟨_, _, .left chosen joined⟩
        · next chosen =>
          cases tail with
          | nil => exact ⟨_, _, .polled polled⟩
          | cons tail =>
            obtain ⟨own, others, joined⟩ := ih' _ tail
            exact ⟨_, _, .right (Bool.eq_false_iff.mpr chosen) joined⟩

/-- Where two joined programs stand: one of them makes the next call, and they return what they return on their
own. -/
structure Abreast (poll : P.A) (left : Prog P α) (right : Prog P β) (rest : Prog P (α × β)) : Prop where
  calls : ∀ op next, rest = .call op next →
    op = poll ∨ (∃ next, left = .call op next) ∨ ∃ next, right = .call op next
  returns : ∀ post post', left.Returns post → right.Returns post' →
    rest.Returns fun pair => post pair.1 ∧ post' pair.2

theorem abreast_join : Abreast poll left right (join poll first left right) where
  returns _ _ onLeft onRight := onLeft.join onRight
  calls op next awaits := by
    cases left with
    | ret a =>
      cases right with
      | ret b => cases awaits
      | call other goes =>
        cases awaits
        exact .inr (.inr ⟨_, rfl⟩)
    | call other goes =>
      cases right with
      | ret b =>
        cases awaits
        exact .inr (.inl ⟨_, rfl⟩)
      | call => cases awaits; exact .inl rfl

/-- Each of two joined programs has run as it does on its own. -/
theorem Joined.reaches (joined : Joined poll first left right log own others) :
    ∃ left' right' rest, Reaches left own left' ∧ Reaches right others right' ∧
      Reaches (join poll first left right) log rest ∧ Abreast poll left' right' rest := by
  induction joined with
  | start left right => exact ⟨_, _, _, .nil _, .nil _, .nil _, abreast_join⟩
  | @polled op other next goes polled =>
    refine ⟨_, _, _, .nil _, .nil _, .cons (.nil _), ?_, fun _ _ onLeft onRight => ?_⟩
    · intro op' next' awaits
      dsimp only at awaits
      split at awaits
      · cases awaits
        exact .inr (.inl ⟨_, rfl⟩)
      · cases awaits
        exact .inr (.inr ⟨_, rfl⟩)
    · exact (onLeft.join onRight : (join poll first (.call op next) (.call other goes)).Returns _) polled
  | @left op other next goes polled reply log own others chosen _ ih =>
    obtain ⟨left', right', rest, onLeft, onRight, both, abreast⟩ := ih
    refine ⟨left', right', rest, .cons onLeft, onRight, .cons ?_, abreast⟩
    dsimp only
    rw [if_pos chosen]
    exact .cons both
  | @right op other next goes polled reply log own others chosen _ ih =>
    obtain ⟨left', right', rest, onLeft, onRight, both, abreast⟩ := ih
    refine ⟨left', right', rest, onLeft, .cons onRight, .cons ?_, abreast⟩
    dsimp only
    rw [if_neg (Bool.eq_false_iff.mp chosen)]
    exact .cons both
  | @onlyLeft op next b reply log own others _ ih =>
    obtain ⟨left', right', rest, onLeft, onRight, both, abreast⟩ := ih
    rw [join_ret] at both
    exact ⟨left', right', rest, .cons onLeft, onRight, .cons both, abreast⟩
  | onlyRight _ ih =>
    obtain ⟨left', right', rest, onLeft, onRight, both, abreast⟩ := ih
    exact ⟨left', right', rest, onLeft, .cons onRight, .cons both, abreast⟩

end Joined

end Prog

end Process
