import Bms.Process.Fallible

/-! # Joining programs and bounding what they call

Two joined programs run in one task: a poll picks which of them makes the next call, until both have
returned. `Prog.Only` bounds the calls that a program may ever make; a program whose calls leave a
phase alone obeys every monitor there, joined or not. The finest monitor notes every call in a log.
-/

namespace Process

variable {P : PFunctor.{0, 0}} {α β φ : Type}

/-- A log goes on by one call. -/
def logged (log : List (Call P)) (made : Call P) : List (Call P) := log ++ [made]

theorem foldl_logged (before log : List (Call P)) : log.foldl logged before = before ++ log := by
  induction log generalizing before with
  | nil => exact (List.append_nil before).symm
  | cons made log ih =>
    rw [List.foldl_cons, ih]
    exact List.append_assoc ..

namespace Prog

/-- The second program runs until the first one, waiting with the call `op`, is polled. -/
def joinCall (poll : P.A) (first : P.B poll → Bool) (op : P.A) (resume : P.B op → Prog P β → Prog P (α × β))
    (finish : Prog P α) : Prog P β → Prog P (α × β)
  | .ret b => finish >>= fun a => .ret (a, b)
  | .call other next => .call poll fun polled =>
    if first polled then .call op fun reply => resume reply (.call other next)
    else .call other fun reply => joinCall poll first op resume finish (next reply)

/-- Run two programs side by side; `first` reads off a poll whether the first one goes on. -/
def join (poll : P.A) (first : P.B poll → Bool) : Prog P α → Prog P β → Prog P (α × β)
  | .ret a, second => second >>= fun b => .ret (a, b)
  | .call op next, second =>
    joinCall poll first op (fun reply => join poll first (next reply)) (.call op next) second

/-- Every call that the program may make meets `C`. -/
def Only (C : P.A → Prop) : Prog P α → Prop
  | .ret _ => True
  | .call op next => C op ∧ ∀ reply, (next reply).Only C

section Only

variable {C : P.A → Prop}

@[simp] theorem only_ret (value : α) : (Prog.ret value : Prog P α).Only C := trivial

theorem Only.bind {program : Prog P α} {rest : α → Prog P β} (only : program.Only C)
    (next : ∀ value, (rest value).Only C) : (program >>= rest).Only C := by
  induction program with
  | ret value => exact next value
  | call op body ih => exact ⟨only.1, fun reply => ih reply (only.2 reply)⟩

theorem Only.mono {C' : P.A → Prop} {program : Prog P α} (only : program.Only C) (weaken : ∀ op, C op → C' op) :
    program.Only C' := by
  induction program with
  | ret value => trivial
  | call op next ih => exact ⟨weaken op only.1, fun reply => ih reply (only.2 reply)⟩

theorem Only.joinCall {poll : P.A} {first : P.B poll → Bool} {op : P.A}
    {resume : P.B op → Prog P β → Prog P (α × β)} {finish : Prog P α} {second : Prog P β} (polls : C poll)
    (calls : C op) (resumes : ∀ reply other, other.Only C → (resume reply other).Only C) (finishes : finish.Only C)
    (only : second.Only C) : (Prog.joinCall poll first op resume finish second).Only C := by
  induction second with
  | ret b => exact finishes.bind fun _ => trivial
  | call other next ih =>
    refine ⟨polls, fun polled => ?_⟩
    dsimp only
    split
    · exact ⟨calls, fun reply => resumes reply _ only⟩
    · exact ⟨only.1, fun reply => ih reply (only.2 reply)⟩

theorem Only.join {poll : P.A} {first : P.B poll → Bool} {left : Prog P α} {right : Prog P β} (polls : C poll)
    (onLeft : left.Only C) (onRight : right.Only C) : (Prog.join poll first left right).Only C := by
  induction left generalizing right with
  | ret a => exact onRight.bind fun _ => trivial
  | call op next ih =>
    exact .joinCall polls onLeft.1 (fun reply _ only => ih reply (onLeft.2 reply) only) onLeft onRight

theorem Only.reaches {program rest : Prog P α} {log : List (Call P)} (only : program.Only C)
    (run : Reaches program log rest) : ∀ made ∈ log, C made.op := by
  induction run with
  | nil => exact fun _ member => absurd member List.not_mem_nil
  | cons _ ih =>
    intro made member
    rcases List.mem_cons.mp member with rfl | later
    · exact only.1
    · exact ih (only.2 _) made later

/-- What holds of the phase, where the calls are legal and keep it, holds of every phase reached. -/
theorem Only.keeps {note : φ → Call P → φ} {legal : φ → P.A → Prop} {program : Prog P α} (inv : φ → Prop) {phase : φ}
    (only : program.Only C)
    (kept : ∀ phase op, inv phase → C op → legal phase op ∧ ∀ reply, inv (note phase ⟨op, reply⟩)) (holds : inv phase) :
    program.Obeys note legal phase fun _ => inv := by
  induction program generalizing phase with
  | ret value => exact holds
  | call op next ih =>
    obtain ⟨legal, kept⟩ := kept phase op holds only.1
    exact ⟨legal, fun reply => ih reply (only.2 reply) (kept reply)⟩

/-- Calls that are legal in a phase and leave it alone never leave it. -/
theorem Only.obeys {note : φ → Call P → φ} {legal : φ → P.A → Prop} {program : Prog P α} {phase : φ}
    (only : program.Only C) (quiet : ∀ op, C op → legal phase op ∧ ∀ reply, note phase ⟨op, reply⟩ = phase) :
    program.Obeys note legal phase fun _ reached => reached = phase := by
  refine only.keeps (fun reached => reached = phase) (fun reached op same apart => ?_) rfl
  subst same
  exact quiet op apart

theorem only_of_forall (all : ∀ op, C op) (program : Prog P α) : program.Only C := by
  induction program with
  | ret value => trivial
  | call op next ih => exact ⟨all op, ih⟩

/-! ## Noting every call -/

/-- A program whose calls are legal after any log adds to the log a run of its own. -/
theorem Only.logs {legal : List (Call P) → P.A → Prop} {program : Prog P α} (only : program.Only C)
    (free : ∀ log op, C op → legal log op) (log : List (Call P)) :
    program.Obeys logged legal log fun value later =>
      ∃ made, later = log ++ made ∧ program.Reaches made (.ret value) := by
  induction program generalizing log with
  | ret value => exact ⟨[], (List.append_nil log).symm, .nil _⟩
  | call op next ih =>
    refine ⟨free log op only.1, fun reply => (ih reply (only.2 reply) _).mono ?_⟩
    rintro value later ⟨made, rfl, run⟩
    exact ⟨⟨op, reply⟩ :: made, List.append_assoc .., .cons run⟩

end Only

/-! ## What a program may return -/

/-- Whatever the replies are, the program returns only values that meet `post`. -/
def Returns (post : α → Prop) : Prog P α → Prop
  | .ret value => post value
  | .call _ next => ∀ reply, (next reply).Returns post

section Returns

variable {post : α → Prop} {post' : β → Prop}

theorem returns_any (program : Prog P α) : program.Returns fun _ => True := by
  induction program with
  | ret value => trivial
  | call op next ih => exact ih

theorem Returns.bind {program : Prog P α} {rest : α → Prog P β} (returns : program.Returns post)
    (next : ∀ value, post value → (rest value).Returns post') : (program >>= rest).Returns post' := by
  induction program with
  | ret value => exact next value returns
  | call op body ih => exact fun reply => ih reply (returns reply)

theorem Returns.joinCall {poll : P.A} {first : P.B poll → Bool} {op : P.A}
    {resume : P.B op → Prog P β → Prog P (α × β)} {finish : Prog P α} {second : Prog P β}
    (resumes : ∀ reply other, other.Returns post' → (resume reply other).Returns fun pair => post pair.1 ∧ post' pair.2)
    (finishes : finish.Returns post) (returns : second.Returns post') :
    (Prog.joinCall poll first op resume finish second).Returns fun pair => post pair.1 ∧ post' pair.2 := by
  induction second with
  | ret b => exact finishes.bind fun a holds => ⟨holds, returns⟩
  | call other next ih =>
    intro polled
    dsimp only
    split
    · exact fun reply => resumes reply _ returns
    · exact fun reply => ih reply (returns reply)

/-- Joined programs return what they return on their own. -/
theorem Returns.join {poll : P.A} {first : P.B poll → Bool} {left : Prog P α} {right : Prog P β}
    (onLeft : left.Returns post) (onRight : right.Returns post') :
    (Prog.join poll first left right).Returns fun pair => post pair.1 ∧ post' pair.2 := by
  induction left generalizing right with
  | ret a => exact onRight.bind fun b holds => ⟨onLeft, holds⟩
  | call op next ih => exact .joinCall (fun reply _ returns => ih reply (onLeft reply) returns) onLeft onRight

theorem Returns.of_reaches {program : Prog P α} {log : List (Call P)} {value : α} (returns : program.Returns post)
    (run : Reaches program log (.ret value)) : post value := by
  generalize ended : Prog.ret value = rest at run
  induction run with
  | nil =>
    subst ended
    exact returns
  | cons _ ih => exact ih (returns _) ended

/-- A monitor that forgets everything describes what a program returns. -/
theorem returns_of_obeys {program : Prog P α}
    (obeys : program.Obeys (fun (_ : Unit) _ => ()) (fun _ _ => True) () fun value _ => post value) :
    program.Returns post := by
  induction program with
  | ret value => exact obeys
  | call op next ih => exact fun reply => ih reply (obeys.2 reply)

/-- Calls that leave a phase alone, and values that meet a condition. -/
theorem Only.obeys_returns {C : P.A → Prop} {note : φ → Call P → φ} {legal : φ → P.A → Prop} {program : Prog P α}
    {phase : φ} (only : program.Only C) (returns : program.Returns post)
    (quiet : ∀ op, C op → legal phase op ∧ ∀ reply, note phase ⟨op, reply⟩ = phase) :
    program.Obeys note legal phase fun value reached => reached = phase ∧ post value := by
  induction program with
  | ret value => exact ⟨rfl, returns⟩
  | call op next ih =>
    obtain ⟨legal, kept⟩ := quiet op only.1
    refine ⟨legal, fun reply => ?_⟩
    rw [kept reply]
    exact ih reply (only.2 reply) (returns reply)

end Returns

end Prog

namespace Fallible

variable {P : PFunctor.{0, 0}} {α β ε δ : Type} {C : P.A → Prop}

/-- Every call that a fallible program may make meets `C`. -/
def Only (C : P.A → Prop) (program : Fallible P ε α) : Prop := Prog.Only C program.run

@[simp] theorem only_pure (value : α) : (pure value : Fallible P ε α).Only C := trivial

@[simp] theorem only_throw (e : ε) : (throw e : Fallible P ε α).Only C := trivial

@[simp] theorem only_outcome (value : Except ε α) : (outcome value : Fallible P ε α).Only C := trivial

@[simp] theorem only_attempt (op : P.A) (decode : P.B op → Except ε α) : (attempt op decode).Only C ↔ C op :=
  and_iff_left fun _ => trivial

theorem Only.bind {program : Fallible P ε α} {rest : α → Fallible P ε β} (only : program.Only C)
    (next : ∀ value, (rest value).Only C) : (program >>= rest).Only C := by
  rw [Only, ExceptT.run_bind]
  refine Prog.Only.bind only fun reached => ?_
  cases reached with
  | ok value => exact next value
  | error e => trivial

theorem Only.ite {c : Prop} [Decidable c] {yes no : Fallible P ε α} (onYes : yes.Only C) (onNo : no.Only C) :
    (if c then yes else no).Only C := by
  split <;> assumption

theorem Only.mapError {program : Fallible P δ α} (only : program.Only C) (change : δ → ε) :
    (program.mapError change).Only C := Prog.Only.bind only fun _ => trivial

theorem Only.optional {program : Fallible P δ α} (only : program.Only C) :
    (program.optional : Fallible P ε (Option α)).Only C := Prog.Only.bind only fun _ => trivial

end Fallible

end Process
