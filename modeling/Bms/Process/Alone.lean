import Bms.Process.Join

/-! # Programs that run alone

A program that runs alone on a state: before each call the state may drift, then the environment
answers. `Alone` leads from a state and a program to the state and what is left of the program;
`Prog.Ensures` is the weakest precondition for what holds when the program has returned, with a
rewriting rule for sequences. `Prog.eval` computes one execution.
-/

namespace Process

variable {P : PFunctor.{0, 0}} {σ α β ε : Type}

/-- Who answers the calls of a program that runs alone. -/
structure Environment (P : PFunctor.{0, 0}) (σ : Type) where
  /-- the replies the state may give -/
  allows : σ → Call P → Prop
  /-- what a call does, given its reply -/
  after : σ → Call P → σ
  /-- changes of the state between two calls -/
  drifts : σ → σ → Prop

/-- From this state and this program, a program that runs alone can get to these. -/
inductive Alone (E : Environment P σ) : σ → Prog P α → σ → Prog P α → Prop
  | here (s : σ) (program : Prog P α) : Alone E s program s program
  | call {s drifted later : σ} {op : P.A} {next : P.B op → Prog P α} {reply : P.B op} {rest : Prog P α} :
      E.drifts s drifted → E.allows drifted ⟨op, reply⟩ → Alone E (E.after drifted ⟨op, reply⟩) (next reply) later rest →
      Alone E s (.call op next) later rest

/-- A program has returned after its first call and what that has left of it. -/
theorem alone_call {E : Environment P σ} {s later : σ} {op : P.A} {next : P.B op → Prog P α} {value : α} :
    Alone E s (.call op next) later (.ret value) ↔ ∃ drifted reply, E.drifts s drifted ∧ E.allows drifted ⟨op, reply⟩ ∧
      Alone E (E.after drifted ⟨op, reply⟩) (next reply) later (.ret value) := by
  constructor
  · intro run
    cases run with
    | call drifts allowed run => exact ⟨_, _, drifts, allowed, run⟩
  · rintro ⟨drifted, reply, drifts, allowed, run⟩
    exact .call drifts allowed run

namespace Prog

variable {E : Environment P σ}

/-- However the program is answered, `post` holds when it has returned. -/
def Ensures (E : Environment P σ) : Prog P α → σ → (α → σ → Prop) → Prop
  | .ret value, s, post => post value s
  | .call op next, s, post => ∀ drifted reply, E.drifts s drifted → E.allows drifted ⟨op, reply⟩ →
      (next reply).Ensures E (E.after drifted ⟨op, reply⟩) post

theorem ensures_bind (program : Prog P α) (rest : α → Prog P β) (s : σ) (post : β → σ → Prop) :
    (program >>= rest).Ensures E s post ↔ program.Ensures E s fun value later => (rest value).Ensures E later post := by
  induction program generalizing s with
  | ret value => rfl
  | call op next ih =>
    exact forall₂_congr fun drifted reply => forall₂_congr fun _ _ => ih reply _

theorem Ensures.mono {program : Prog P α} {s : σ} {post weaker : α → σ → Prop} (ensures : program.Ensures E s post)
    (weaken : ∀ value later, post value later → weaker value later) : program.Ensures E s weaker := by
  induction program generalizing s with
  | ret value => exact weaken value s ensures
  | call op next ih => exact fun drifted reply drifts allowed => ih reply (ensures drifted reply drifts allowed)

/-- The postcondition holds wherever the program returns. -/
theorem Ensures.alone {program rest : Prog P α} {s later : σ} {post : α → σ → Prop} (ensures : program.Ensures E s post)
    (run : Alone E s program later rest) : rest.Ensures E later post := by
  induction run with
  | here => exact ensures
  | call drifts allowed _ ih => exact ih (ensures _ _ drifts allowed)

/-- What every call keeps, with the drift before it, the program keeps. -/
theorem Only.ensures {C : P.A → Prop} {R : σ → σ → Prop} (same : ∀ s, R s s)
    (trans : ∀ {s middle later}, R s middle → R middle later → R s later)
    (kept : ∀ {s drifted op} (reply : P.B op), C op → E.drifts s drifted → R s (E.after drifted ⟨op, reply⟩))
    {program : Prog P α} (only : program.Only C) (s : σ) : program.Ensures E s fun _ later => R s later := by
  induction program generalizing s with
  | ret value => exact same s
  | call op next ih =>
    intro drifted reply drifts _
    exact (ih reply (only.2 reply) _).mono fun _ _ rest => trans (kept reply only.1 drifts) rest

/-- Where the calls that a program may make are answered alike, it runs alike. -/
theorem Only.alone {C : P.A → Prop} {E' : Environment P σ} {program rest : Prog P α} {s later : σ} (only : program.Only C)
    (run : Alone E s program later rest) (drifts : ∀ {s other}, E.drifts s other → E'.drifts s other)
    (allows : ∀ {s op} (reply : P.B op), C op → E.allows s ⟨op, reply⟩ → E'.allows s ⟨op, reply⟩)
    (after : ∀ s made, E'.after s made = E.after s made) : Alone E' s program later rest := by
  induction run with
  | here => exact .here ..
  | call drift allowed _ ih =>
    apply Alone.call (drifts drift) (allows _ only.1 allowed)
    rw [after]
    exact ih (only.2 _)

/-- What a monitor relates to the state, before a drift and after each legal call, it relates to it at the end. -/
theorem Obeys.ensures {φ : Type} {note : φ → Call P → φ} {legal : φ → P.A → Prop} {R : φ → σ → Prop}
    (kept : ∀ {phase s drifted op} (reply : P.B op), legal phase op → R phase s → E.drifts s drifted →
      E.allows drifted ⟨op, reply⟩ → R (note phase ⟨op, reply⟩) (E.after drifted ⟨op, reply⟩))
    {program : Prog P α} {phase : φ} {s : σ} {post : α → φ → Prop} (obeys : program.Obeys note legal phase post)
    (related : R phase s) : program.Ensures E s fun value later => ∃ reached, R reached later ∧ post value reached := by
  induction program generalizing phase s with
  | ret value => exact ⟨phase, related, obeys⟩
  | call op next ih =>
    intro drifted reply drifts allowed
    exact ih reply (obeys.2 reply) (kept reply obeys.1 related drifts allowed)

/-- However the program is answered it is never stuck, and `post` holds when it has returned. -/
def Completes (E : Environment P σ) : Prog P α → σ → (α → σ → Prop) → Prop
  | .ret value, s, post => post value s
  | .call op next, s, post => (∃ drifted reply, E.drifts s drifted ∧ E.allows drifted ⟨op, reply⟩) ∧
      ∀ drifted reply, E.drifts s drifted → E.allows drifted ⟨op, reply⟩ →
        (next reply).Completes E (E.after drifted ⟨op, reply⟩) post

theorem Completes.ensures {program : Prog P α} {s : σ} {post : α → σ → Prop} (completes : program.Completes E s post) :
    program.Ensures E s post := by
  induction program generalizing s with
  | ret value => exact completes
  | call op next ih => exact fun drifted reply drifts allowed => ih reply (completes.2 drifted reply drifts allowed)

theorem Completes.mono {program : Prog P α} {s : σ} {post weaker : α → σ → Prop} (completes : program.Completes E s post)
    (weaken : ∀ value later, post value later → weaker value later) : program.Completes E s weaker := by
  induction program generalizing s with
  | ret value => exact weaken value s completes
  | call op next ih =>
    exact ⟨completes.1, fun drifted reply drifts allowed => ih reply (completes.2 drifted reply drifts allowed)⟩

theorem completes_bind (program : Prog P α) (rest : α → Prog P β) (s : σ) (post : β → σ → Prop) :
    (program >>= rest).Completes E s post ↔
      program.Completes E s fun value later => (rest value).Completes E later post := by
  induction program generalizing s with
  | ret value => rfl
  | call op next ih =>
    exact and_congr_right fun _ => forall₂_congr fun drifted reply => forall₂_congr fun _ _ => ih reply _

/-- The program can be answered so that `post` holds when it has returned. -/
def MayReturn (E : Environment P σ) : Prog P α → σ → (α → σ → Prop) → Prop
  | .ret value, s, post => post value s
  | .call op next, s, post => ∃ drifted reply, E.drifts s drifted ∧ E.allows drifted ⟨op, reply⟩ ∧
      (next reply).MayReturn E (E.after drifted ⟨op, reply⟩) post

theorem mayReturn_bind (program : Prog P α) (rest : α → Prog P β) (s : σ) (post : β → σ → Prop) :
    (program >>= rest).MayReturn E s post ↔
      program.MayReturn E s fun value later => (rest value).MayReturn E later post := by
  induction program generalizing s with
  | ret value => rfl
  | call op next ih =>
    exact exists₂_congr fun drifted reply => and_congr_right fun _ => and_congr_right fun _ => ih reply _

theorem MayReturn.mono {program : Prog P α} {s : σ} {post weaker : α → σ → Prop} (may : program.MayReturn E s post)
    (weaken : ∀ value later, post value later → weaker value later) : program.MayReturn E s weaker := by
  induction program generalizing s with
  | ret value => exact weaken value s may
  | call op next ih =>
    obtain ⟨drifted, reply, drifts, allowed, may⟩ := may
    exact ⟨drifted, reply, drifts, allowed, ih reply may⟩

theorem MayReturn.alone {program : Prog P α} {s : σ} {post : α → σ → Prop} (may : program.MayReturn E s post) :
    ∃ value later, Alone E s program later (.ret value) ∧ post value later := by
  induction program generalizing s with
  | ret value => exact ⟨value, s, .here .., may⟩
  | call op next ih =>
    obtain ⟨drifted, reply, drifts, allowed, may⟩ := may
    obtain ⟨value, later, run, holds⟩ := ih reply may
    exact ⟨value, later, .call drifts allowed run, holds⟩

/-- Let the environment give one reply to every call. -/
def eval (answer : σ → (op : P.A) → Option (P.B op)) (after : σ → Call P → σ) : Prog P α → σ → Option (α × σ)
  | .ret value, s => some (value, s)
  | .call op next, s =>
    match answer s op with
    | none => none
    | some reply => (next reply).eval answer after (after s ⟨op, reply⟩)

theorem alone_of_eval {answer : σ → (op : P.A) → Option (P.B op)} (still : ∀ s, E.drifts s s)
    (sound : ∀ s op reply, answer s op = some reply → E.allows s ⟨op, reply⟩) {program : Prog P α} {s later : σ}
    {value : α} (found : program.eval answer E.after s = some (value, later)) :
    Alone E s program later (.ret value) := by
  induction program generalizing s with
  | ret other =>
    cases found
    exact .here ..
  | call op next ih =>
    rw [eval] at found
    split at found
    · cases found
    · next reply answered => exact .call (still s) (sound s op reply answered) (ih reply found)

end Prog

namespace Fallible

variable {E : Environment P σ} {s : σ} {good : α → σ → Prop} {bad : ε → σ → Prop}

/-- A result is returned where `good` holds and an error where `bad` does. -/
def Ensures (E : Environment P σ) (program : Fallible P ε α) (s : σ) (good : α → σ → Prop) (bad : ε → σ → Prop) : Prop :=
  program.run.Ensures E s fun
    | .ok value => good value
    | .error e => bad e

theorem ensures_attempt (op : P.A) (decode : P.B op → Except ε α) :
    (attempt op decode).Ensures E s good bad ↔ ∀ drifted reply, E.drifts s drifted → E.allows drifted ⟨op, reply⟩ →
      match decode reply with
        | .ok value => good value (E.after drifted ⟨op, reply⟩)
        | .error e => bad e (E.after drifted ⟨op, reply⟩) := by
  refine forall₂_congr fun drifted reply => forall₂_congr fun _ _ => ?_
  rw [Prog.Ensures]
  cases decode reply <;> rfl

theorem ensures_bind (program : Fallible P ε α) (rest : α → Fallible P ε β) {good : β → σ → Prop} :
    (program >>= rest).Ensures E s good bad ↔
      program.Ensures E s (fun value later => (rest value).Ensures E later good bad) bad := by
  rw [Ensures, ExceptT.run_bind, Prog.ensures_bind]
  refine iff_of_eq (congrArg _ (funext fun outcome => funext fun later => ?_))
  cases outcome <;> rfl

theorem ensures_mapError {δ : Type} (change : δ → ε) (program : Fallible P δ α) :
    (program.mapError change).Ensures E s good bad ↔ program.Ensures E s good fun e => bad (change e) := by
  rw [Ensures, mapError, run_mk, Prog.ensures_bind]
  refine iff_of_eq (congrArg _ (funext fun outcome => funext fun later => ?_))
  cases outcome <;> rfl

theorem Ensures.ite {c : Prop} [Decidable c] {yes no : Fallible P ε α} (onYes : c → yes.Ensures E s good bad)
    (onNo : ¬ c → no.Ensures E s good bad) : (if c then yes else no : Fallible P ε α).Ensures E s good bad := by
  split
  · next holds => exact onYes holds
  · next fails => exact onNo fails

theorem Ensures.mono {program : Fallible P ε α} {good' : α → σ → Prop} {bad' : ε → σ → Prop}
    (ensures : program.Ensures E s good bad) (onGood : ∀ value later, good value later → good' value later)
    (onBad : ∀ e later, bad e later → bad' e later) : program.Ensures E s good' bad' := by
  refine Prog.Ensures.mono ensures fun outcome later post => ?_
  cases outcome with
  | ok value => exact onGood value later post
  | error e => exact onBad e later post

/-- However it is answered the program returns, a result where `good` holds or an error where `bad` does. -/
def Completes (E : Environment P σ) (program : Fallible P ε α) (s : σ) (good : α → σ → Prop) (bad : ε → σ → Prop) : Prop :=
  program.run.Completes E s fun
    | .ok value => good value
    | .error e => bad e

theorem completes_bind (program : Fallible P ε α) (rest : α → Fallible P ε β) {good : β → σ → Prop} :
    (program >>= rest).Completes E s good bad ↔
      program.Completes E s (fun value later => (rest value).Completes E later good bad) bad := by
  rw [Completes, ExceptT.run_bind, Prog.completes_bind]
  refine iff_of_eq (congrArg _ (funext fun outcome => funext fun later => ?_))
  cases outcome <;> rfl

theorem Completes.mono {program : Fallible P ε α} {good' : α → σ → Prop} {bad' : ε → σ → Prop}
    (completes : program.Completes E s good bad) (onGood : ∀ value later, good value later → good' value later)
    (onBad : ∀ e later, bad e later → bad' e later) : program.Completes E s good' bad' := by
  apply Prog.Completes.mono completes
  intro outcome later post
  cases outcome with
  | ok value => exact onGood value later post
  | error e => exact onBad e later post

theorem completes_attempt (op : P.A) (decode : P.B op → Except ε α) :
    (attempt op decode).Completes E s good bad ↔
      (∃ drifted reply, E.drifts s drifted ∧ E.allows drifted ⟨op, reply⟩) ∧
        ∀ drifted reply, E.drifts s drifted → E.allows drifted ⟨op, reply⟩ → match decode reply with
          | .ok value => good value (E.after drifted ⟨op, reply⟩)
          | .error e => bad e (E.after drifted ⟨op, reply⟩) := by
  refine and_congr_right fun _ => forall₂_congr fun drifted reply => forall₂_congr fun _ _ => ?_
  rw [Prog.Completes]
  cases decode reply <;> rfl

theorem completes_outcome (value : Except ε α) :
    (outcome value : Fallible P ε α).Completes E s good bad ↔ match value with
      | .ok value => good value s
      | .error e => bad e s := by
  cases value <;> rfl

theorem completes_mapError {δ : Type} (change : δ → ε) (program : Fallible P δ α) :
    (program.mapError change).Completes E s good bad ↔ program.Completes E s good fun e => bad (change e) := by
  rw [Completes, mapError, run_mk, Prog.completes_bind]
  refine iff_of_eq (congrArg _ (funext fun outcome => funext fun later => ?_))
  cases outcome <;> rfl

/-- The program can return a result where `good` holds, or an error where `bad` does. -/
def MayReturn (E : Environment P σ) (program : Fallible P ε α) (s : σ) (good : α → σ → Prop) (bad : ε → σ → Prop) : Prop :=
  program.run.MayReturn E s fun
    | .ok value => good value
    | .error e => bad e

theorem mayReturn_bind (program : Fallible P ε α) (rest : α → Fallible P ε β) {good : β → σ → Prop} :
    (program >>= rest).MayReturn E s good bad ↔
      program.MayReturn E s (fun value later => (rest value).MayReturn E later good bad) bad := by
  rw [MayReturn, ExceptT.run_bind, Prog.mayReturn_bind]
  refine iff_of_eq (congrArg _ (funext fun outcome => funext fun later => ?_))
  cases outcome <;> rfl

theorem mayReturn_attempt (op : P.A) (decode : P.B op → Except ε α) :
    (attempt op decode).MayReturn E s good bad ↔ ∃ drifted reply, E.drifts s drifted ∧ E.allows drifted ⟨op, reply⟩ ∧
      match decode reply with
        | .ok value => good value (E.after drifted ⟨op, reply⟩)
        | .error e => bad e (E.after drifted ⟨op, reply⟩) := by
  refine exists₂_congr fun drifted reply => and_congr_right fun _ => and_congr_right fun _ => ?_
  rw [Prog.MayReturn]
  cases decode reply <;> rfl

theorem mayReturn_mapError {δ : Type} (change : δ → ε) (program : Fallible P δ α) :
    (program.mapError change).MayReturn E s good bad ↔ program.MayReturn E s good fun e => bad (change e) := by
  rw [MayReturn, mapError, run_mk, Prog.mayReturn_bind]
  refine iff_of_eq (congrArg _ (funext fun outcome => funext fun later => ?_))
  cases outcome <;> rfl

theorem MayReturn.mono {program : Fallible P ε α} {good' : α → σ → Prop} {bad' : ε → σ → Prop}
    (may : program.MayReturn E s good bad) (onGood : ∀ value later, good value later → good' value later)
    (onBad : ∀ e later, bad e later → bad' e later) : program.MayReturn E s good' bad' := by
  apply Prog.MayReturn.mono may
  intro outcome later post
  cases outcome with
  | ok value => exact onGood value later post
  | error e => exact onBad e later post

theorem MayReturn.ite {c : Prop} [Decidable c] {yes no : Fallible P ε α} (onYes : c → yes.MayReturn E s good bad)
    (onNo : ¬ c → no.MayReturn E s good bad) : (if c then yes else no : Fallible P ε α).MayReturn E s good bad := by
  split
  · next holds => exact onYes holds
  · next fails => exact onNo fails

/-- The first part keeps a state related, and fails only where that is good enough. -/
theorem Ensures.after {R : σ → σ → Prop} {program : Fallible P ε α} {rest : α → Fallible P ε β} {good : β → σ → Prop}
    (keeps : program.run.Ensures E s fun _ later => R s later)
    (next : ∀ value later, R s later → (rest value).Ensures E later good bad) (stop : ∀ e later, R s later → bad e later) :
    (program >>= rest).Ensures E s good bad := by
  refine (ensures_bind ..).mpr (Prog.Ensures.mono keeps fun reached later related => ?_)
  cases reached with
  | ok value => exact next value later related
  | error e => exact stop e later related

end Fallible

end Process
