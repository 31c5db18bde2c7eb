import Bms.Model.Replay
import Bms.Process.Signal
import Bms.Protocol.Startup

/-! # Waiting for the first connection

`wait_for_connection` waits for the next notification, whether or not there is a connection already, and a
notification is sent only when a connection has just been stored. So the first connection is missed if it has been
notified before.
-/

namespace Bms

open Process

/-- A connection is stored and open. -/
def Connected (w : ConnectionWorld) : Prop := ∃ connection ∈ w.connection, connection ∈ w.alive

/-- Whoever waits for a connection is notified of one that has been stored. -/
def notification : Signal ConnectionCalls ConnectionWorld StartupTask Notified where
  holds pool := Connected pool.world
  due pool := pool.Awaits .notifyWaiters
  waits pool future := pool.Awaits (.wait future) ∧ future ∉ pool.world.woken

/-- In no run whose steps all meet `ok` a connection is stored and open and has been notified, while
`wait_for_connection` is still blocked. -/
def NeverMissed (ok : Startup → StartupEvent → Prop) : Prop :=
  ∀ {passes : ℕ} {events : List StartupEvent} {pool : Startup},
    Run startup ok (startConnectionManager passes) events pool → ¬ notification.Missed pool

/-- When `wait_for_connection` calls `notified`, no connection is open that has been notified before. -/
def WaitsInTime (pool : Startup) (event : StartupEvent) : Prop :=
  ∀ position future, event = .call position ⟨.notified, future⟩ → Connected pool.world → pool.Awaits .notifyWaiters

variable {pool next : Startup} {event : StartupEvent}

/-- A call leads to an open connection only by storing one. -/
theorem connected_after {w : ConnectionWorld} {made : ConnectionAct}
    (stored : ∀ connection ∈ w.connection, connection ∈ w.opened) (allowed : ConnectionAct.Allowed w made)
    (connected : Connected (ConnectionAct.after w made)) :
    Connected w ∨ ∃ connection, made = ⟨.storeConnection connection, ()⟩ := by
  obtain ⟨op, reply⟩ := made
  cases op with
  | storeConnection connection => exact .inr ⟨connection, rfl⟩
  | openConnection args =>
    cases reply with
    | ok opened =>
      obtain ⟨connection, present, alive⟩ := connected
      obtain rfl | alive := List.mem_cons.mp alive
      · exact absurd (stored connection present) allowed
      · exact .inl ⟨connection, present, alive⟩
    | error => exact .inl connected
  | _ => exact .inl connected

theorem due_iff (known : Known pool) : notification.due pool ↔ ∃ position kind, StartupAt pool position kind .due :=
  awaits_iff known.tracks .notifyWaiters nofun

theorem awaits_wait_iff (known : Known pool) {future : Notified} :
    pool.Awaits (.wait future) ↔ ∃ position kind, StartupAt pool position kind (.registered future) :=
  awaits_iff known.tracks (.wait future) nofun

/-- The future that `wait_for_connection` waits for has been created. -/
theorem created_of_awaits (known : Known pool) {future : Notified} (awaits : pool.Awaits (.wait future)) :
    future ∈ pool.world.futures := by
  obtain ⟨position, kind, here⟩ := (awaits_wait_iff known).mp awaits
  exact known.created position kind future here

/-- A connection that is stored is notified next, and to every future that has been created. -/
theorem sent_notification : notification.Sent startup Known where
  raised {pool next event} known step holds := by
    obtain ⟨alive, closes, -, reached⟩ | ⟨position, kind, made, rfl, here, allowed, reached⟩ :=
      startup_cases known.tracks step
    · left
      obtain ⟨connection, present, live⟩ : Connected next.world := holds
      rw [reached] at present live
      exact ⟨connection, present, closes live⟩
    · have holds : Connected next.world := holds
      rw [reached] at holds
      obtain before | ⟨connection, rfl⟩ := connected_after known.stored allowed holds
      · exact .inl before
      · have after := startup_after known.tracks step here id
        exact .inr ((due_iff (known.step step)).mpr ⟨position, kind, after⟩)
  lasts {pool next event} known step due := by
    obtain ⟨position, kind, here⟩ := (due_iff known).mp due
    by_cases calls : ∃ made, event = .call position made
    · right
      obtain ⟨made, rfl⟩ := calls
      obtain ⟨task, phase, there, legal, -, reached⟩ := known.tracks.legal step
      obtain ⟨rfl, rfl⟩ := here.unique there
      obtain ⟨op, reply⟩ := made
      have same : ConnectionOp.notifyWaiters.phase = op.phase := legal
      obtain rfl := ConnectionOp.phase_inj same nofun
      rintro future ⟨awaits, asleep⟩
      have created := created_of_awaits (known.step step) awaits
      rw [reached] at created asleep
      exact asleep created
    · left
      have stays := here.kept step fun made same => calls ⟨made, same⟩
      exact (due_iff (known.step step)).mpr ⟨position, kind, stays⟩

/-- Nobody begins to wait too late in a step exactly if `notified` is not called too late in it. -/
theorem inTime_iff (known : Known pool) (step : Step startup pool event next) :
    notification.InTime pool next ↔ WaitsInTime pool event := by
  constructor
  · rintro inTime position future rfl live
    obtain ⟨alive, -, ⟨⟩, -⟩ | ⟨_, kind, _, ⟨⟩, here, fresh, reached⟩ := startup_cases known.tracks step
    have after := startup_after known.tracks step here id
    have awaits := (awaits_wait_iff (known.step step)).mpr ⟨position, kind, after⟩
    have due : notification.due next := by
      apply inTime future
      · rintro ⟨waits, -⟩
        exact fresh (created_of_awaits known waits)
      · refine ⟨awaits, ?_⟩
        rw [reached]
        exact fun woken => fresh (known.woken woken)
      · change Connected next.world
        rw [reached]
        exact live
    obtain ⟨other, task, there⟩ := (due_iff (known.step step)).mp due
    obtain ⟨old, -⟩ | ⟨made, same, noted, -⟩ := startup_before known.tracks step there
    · exact (due_iff known).mpr ⟨other, task, old⟩
    · cases same
      cases noted
  · rintro inTime future slept ⟨awaits, asleep⟩ holds
    obtain ⟨position, kind, here⟩ := (awaits_wait_iff (known.step step)).mp awaits
    obtain ⟨old, -⟩ | ⟨made, rfl, noted, before, reached⟩ := startup_before known.tracks step here
    · have woken : future ∈ pool.world.woken := by
        by_contra asleep
        exact slept ⟨(awaits_wait_iff known).mpr ⟨position, kind, old⟩, asleep⟩
      exact absurd (known.woken_kept step woken) asleep
    · obtain rfl := notified_of_note noted
      change Connected next.world at holds
      rw [reached] at holds
      obtain ⟨other, task, there⟩ := (due_iff known).mp (inTime position future rfl holds)
      apply (due_iff (known.step step)).mpr ⟨other, task, there.kept step ?_⟩
      intro made same
      cases same
      cases (before.unique there).2

/-- Whatever restricts the steps of the startup, no run misses the connection exactly if in every run `notified` is
called in time. -/
theorem neverMissed_iff (ok : Startup → StartupEvent → Prop) :
    NeverMissed ok ↔ ∀ {passes : ℕ} {events : List StartupEvent} {pool next : Startup} {event : StartupEvent},
      Run startup ok (startConnectionManager passes) events pool → ok pool event → Step startup pool event next →
        WaitsInTime pool event := by
  have initial (passes : ℕ) : ¬ notification.Missed (startConnectionManager passes) := by
    rintro ⟨⟨_, ⟨⟩, _⟩, -⟩
  constructor
  · intro caught passes events pool next event run meets step
    apply (inTime_iff (known_of_run run) step).mp
    exact (sent_notification.never_missed_iff known_of_run (initial passes)).mp caught run meets step
  · intro inTime passes
    apply (sent_notification.never_missed_iff known_of_run (initial passes)).mpr
    intro events pool event next run meets step
    exact (inTime_iff (known_of_run run) step).mpr (inTime run meets step)

/-! ## A connection that is opened at once -/

/-- The endpoint is set, the client connects, and a future is woken before its task goes on. -/
def ConnectionOp.answer (w : ConnectionWorld) : (op : ConnectionOp) → Option op.Reply
  | var key => some (some key)
  | parseUrl _ => some (some ⟨some "localhost", "amqp", none⟩)
  | loadRunning => some w.running
  | lockConnection => some w.connection
  | isOpen connection => some (decide (connection ∈ w.alive))
  | withoutClientAuth _ => some (some 0)
  | openConnection _ => some (.ok (w.opened.foldr max 0 + 1))
  | storeConnection _ | notifyWaiters | sleep _ => some ()
  | notified => some (w.futures.foldr max 0 + 1)
  | wait future => if future ∈ w.woken then some () else none
  | panic _ => none

theorem allowed_of_connectionAnswer {w : ConnectionWorld} {op : ConnectionOp} {reply : op.Reply}
    (answered : op.answer w = some reply) : ConnectionAct.Allowed w ⟨op, reply⟩ := by
  cases op with
  | openConnection | notified =>
    cases answered
    exact fun taken => Nat.not_succ_le_self _ (le_foldr_max taken)
  | wait future =>
    simp only [ConnectionOp.answer] at answered
    split at answered
    · next woken => exact woken
    · cases answered
  | loadRunning | lockConnection | isOpen =>
    cases answered
    rfl
  | panic => cases answered
  | _ => trivial

/-- A connection is open and has been notified, and the task that waits for one has not been woken. -/
def Hangs (future : Notified) (pool : Startup) : Prop :=
  Connected pool.world ∧ ¬ pool.Awaits .notifyWaiters ∧ pool.Awaits (.wait future) ∧ future ∉ pool.world.woken

instance (future : Notified) : DecidablePred (Hangs future) := fun pool =>
  inferInstanceAs (Decidable ((∃ connection ∈ pool.world.connection, connection ∈ pool.world.alive) ∧ _))

/-- A connection notified before `wait_for_connection` calls `notified` is missed, and the task
sleeps on. -/
theorem not_neverMissed : ¬ NeverMissed fun _ _ => True := by
  intro caught
  -- the task of `run` reads its settings, connects and goes to sleep; then the other one begins to wait
  obtain ⟨events, pool, run, live, silent, awaits, asleep⟩ := exists_run_of_play startup (fun w op => op.answer w)
    allowed_of_connectionAnswer (startConnectionManager 2) (List.replicate 9 0 ++ [1]) (Hangs 1) rfl
  exact caught run ⟨live, silent, 1, awaits, asleep⟩

end Bms
