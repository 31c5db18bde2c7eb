import Bms.Process.Pool

/-! # Signals that are not kept

Some tasks wait for a signal that is sent each time a condition has been made true. It reaches whoever waits for
it when it is sent and is not kept for those who begin to wait later. A signal is missed if the condition holds
and nothing is to be sent any more, but somebody still waits. Where every raising of the condition is followed by
a signal, no run misses one exactly if in every run each wait begins in time (`Signal.Sent.never_missed_iff`).
-/

namespace Process

variable {P : PFunctor.{0, 0}} {σ κ ω : Type}

structure Signal (P : PFunctor.{0, 0}) (σ κ ω : Type) where
  /-- the condition that the signal is sent for -/
  holds : Pool P σ κ → Prop
  /-- the signal is still to be sent -/
  due : Pool P σ κ → Prop
  /-- somebody has begun to wait and no signal has reached him since -/
  waits : Pool P σ κ → ω → Prop

namespace Signal

variable {signal : Signal P σ κ ω} {S : Platform P σ κ} {J : Pool P σ κ → Prop} {ok : Pool P σ κ → Event P κ → Prop}
  {source target : Pool P σ κ} {event : Event P κ}

/-- The condition holds and every signal for it has been sent, but somebody still waits. -/
def Missed (signal : Signal P σ κ ω) (pool : Pool P σ κ) : Prop :=
  signal.holds pool ∧ ¬ signal.due pool ∧ ∃ waiter, signal.waits pool waiter

/-- Whoever begins to wait in a step does so before the signal has been sent. -/
def InTime (signal : Signal P σ κ ω) (source target : Pool P σ κ) : Prop :=
  ∀ waiter, ¬ signal.waits source waiter → signal.waits target waiter → signal.holds target → signal.due target

/-- The steps of a platform send the signal, from states in which `J` holds. -/
structure Sent (signal : Signal P σ κ ω) (S : Platform P σ κ) (J : Pool P σ κ → Prop) : Prop where
  /-- what makes the condition true is to send a signal -/
  raised : ∀ {source target event}, J source → Step S source event target → signal.holds target →
    signal.holds source ∨ signal.due target
  /-- a signal is to be sent until it has reached everybody who waits -/
  lasts : ∀ {source target event}, J source → Step S source event target → signal.due source →
    signal.due target ∨ ∀ waiter, ¬ signal.waits target waiter

/-- A step in which nobody begins to wait too late misses no signal. -/
theorem Sent.step (sent : signal.Sent S J) (inv : J source) (step : Step S source event target)
    (inTime : signal.InTime source target) (caught : ¬ signal.Missed source) : ¬ signal.Missed target := by
  rintro ⟨holds, silent, waiter, waits⟩
  by_cases waited : signal.waits source waiter
  · rcases sent.raised inv step holds with held | due
    · have due : signal.due source := by
        by_contra silent
        exact caught ⟨held, silent, waiter, waited⟩
      rcases sent.lasts inv step due with due | reached
      · exact silent due
      · exact reached waiter waits
    · exact silent due
  · exact silent (inTime waiter waited waits holds)

/-- A step in which somebody begins to wait too late misses the signal. -/
theorem inTime_of_not_missed (caught : ¬ signal.Missed target) : signal.InTime source target := by
  intro waiter _ waits holds
  by_contra silent
  exact caught ⟨holds, silent, waiter, waits⟩

/-- Whatever restricts the steps, no run misses a signal exactly if every wait begins in time. -/
theorem Sent.never_missed_iff (sent : signal.Sent S J) (inv : ∀ {events pool}, Run S ok source events pool → J pool)
    (initial : ¬ signal.Missed source) :
    (∀ {events pool}, Run S ok source events pool → ¬ signal.Missed pool) ↔
      ∀ {events pool event next}, Run S ok source events pool → ok pool event → Step S pool event next →
        signal.InTime pool next := by
  constructor
  · intro caught events pool event next run meets step
    exact inTime_of_not_missed (caught (run.concat meets step))
  · intro inTime events pool run
    refine run.invariant_reached (I := fun pool => ¬ signal.Missed pool) ?_ initial
    intro before pool event next reached caught meets step
    exact sent.step (inv reached) step (inTime reached meets step) caught

end Signal

end Process
