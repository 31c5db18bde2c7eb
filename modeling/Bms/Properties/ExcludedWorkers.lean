import Bms.Model.Replay
import Bms.Protocol.Deliveries
import Mathlib.Algebra.Order.Floor.Ring
import Mathlib.Data.Rat.Floor
import Mathlib.Tactic.Linarith

/-! # Who takes part in a measurement

The scheduler leaves out a prefix of the workers that it has found online and counts the others; each
worker looks for its own name in the message. Both agree, and the workers that take part at a
percentage also take part at a larger one.
-/

namespace Bms

open Process Fallible

/-- The worker acts on the message. -/
def TakesPart (message : JobMessage) (workerName : String) : Prop :=
  ∀ workerTopics jobId, JobConsumer.handleMessage ⟨workerName, workerTopics⟩ jobId message ≠ pure ()

theorem takesPart_iff {message : JobMessage} {workerName : String} :
    TakesPart message workerName ↔ workerName ∉ message.excludedWorkers := by
  constructor
  · intro takes excluded
    exact takes [] 0 (if_pos excluded)
  · intro included workerTopics jobId idle
    rw [JobConsumer.handleMessage_included included] at idle
    cases idle

instance (message : JobMessage) : DecidablePred (TakesPart message) := fun _ => decidable_of_iff _ takesPart_iff.symm

/-- The number of the listed workers that act on the message. -/
def participants (message : JobMessage) (workersOnline : List String) : ℕ := workersOnline.countP (TakesPart message)

/-- In some execution of the tick these workers are found online, the count is recorded for the sub-job and the
message is handed to the queue. -/
def DispatchesTo (subJob : SubJobWithJob) (workersOnline : List String) (message : JobMessage) (workersCount : ℤ) :
    Prop :=
  ∃ (before : List Act) (topic routingKey : String) (jobId : Uuid) (published : Except String Unit)
    (rest : Prog Calls (Except SubJobHandlerError Unit)),
    (processStatusCreated subJob).run.Reaches (before ++ [⟨.sql (.getWorkersOnlineWithTopic topic), .ok workersOnline⟩,
      ⟨.sql (.updateSubJobWorkersCount subJob.id workersCount), .ok ()⟩,
      ⟨.publishJob (.workerJob jobId message) routingKey, published⟩]) rest

/-! ## What a tick publishes -/

/-- What the tick has learned: the workers online and the count that it has recorded. -/
inductive DispatchPhase
  | start
  | found (workersOnline : List String)
  | counted (workersOnline : List String) (workersCount : ℤ)

namespace DispatchPhase

def note : DispatchPhase → Act → DispatchPhase
  | _, ⟨.sql (.getWorkersOnlineWithTopic _), .ok workersOnline⟩ => found workersOnline
  | found workersOnline, ⟨.sql (.updateSubJobWorkersCount _ workersCount), .ok _⟩ => counted workersOnline workersCount
  | phase, _ => phase

def Legal (subJob : SubJobWithJob) : DispatchPhase → Op → Prop
  | counted workersOnline workersCount, .publishJob (.workerJob _ message) _ =>
    (message.excludedWorkers, workersCount) = excludedAndCount subJob workersOnline ∧ workersOnline ≠ []
  | _, _ => True

end DispatchPhase

theorem processStatusCreated_dispatches (subJob : SubJobWithJob) :
    (processStatusCreated subJob).Obeys DispatchPhase.note (DispatchPhase.Legal subJob) .start (fun _ _ => True)
      fun _ _ => True := by
  refine (obeys_bind ..).mpr (obeys_utcNow.mpr ⟨trivial, fun now => ?_⟩)
  refine (obeys_bind ..).mpr ((obeys_bind ..).mpr ((obeys_bind ..).mpr ?_))
  refine (obeys_attempt ..).mpr ⟨trivial, fun reply => ?_⟩
  cases reply with
  | error e => trivial
  | ok scalingSubJob =>
    have topicKnown : (getTopic scalingSubJob).Obeys DispatchPhase.note (DispatchPhase.Legal subJob) .start
        (fun _ reached => reached = .start) fun _ _ => True := by
      unfold getTopic
      split
      · trivial
      · next topic _ => cases decoded : topic.asStr? <;> simp [DispatchPhase.Legal]
    refine Obeys.mono topicKnown ?_ fun _ _ => id
    rintro topic _ rfl
    refine (obeys_attempt ..).mpr ⟨trivial, fun reply => ?_⟩
    cases reply with
    | error e => trivial
    | ok workersOnline =>
      refine .ite (fun _ => trivial) fun online => ?_
      refine (obeys_bind ..).mpr ((obeys_attempt ..).mpr ⟨trivial, fun reply => ?_⟩)
      cases reply with
      | error e => trivial
      | ok recorded =>
        have some : workersOnline ≠ [] := fun none => online (by rw [none]; rfl)
        refine (obeys_bind ..).mpr ((obeys_attempt ..).mpr ⟨⟨rfl, some⟩, fun reply => ?_⟩)
        cases reply with
        | error e => trivial
        | ok sent =>
          refine (obeys_attempt ..).mpr ⟨trivial, fun reply => ?_⟩
          cases reply <;> trivial

theorem DispatchesTo.excluded {subJob : SubJobWithJob} {workersOnline : List String} {message : JobMessage}
    {workersCount : ℤ} (dispatches : DispatchesTo subJob workersOnline message workersCount) :
    (message.excludedWorkers, workersCount) = excludedAndCount subJob workersOnline := by
  obtain ⟨before, topic, routingKey, jobId, published, rest, run⟩ := dispatches
  rw [List.append_cons, List.append_cons] at run
  have legal := Prog.Obeys.legal_call (processStatusCreated_dispatches subJob) run
  simp only [List.foldl_append, List.foldl_cons, List.foldl_nil, DispatchPhase.note, DispatchPhase.Legal] at legal
  exact legal.1

/-! ## How many take part -/

/-- The number of workers that are left out at a percentage. -/
def leftOut (workers percentage : ℕ) : ℕ := workers * (100 - percentage) / 100

theorem leftOut_lt {workers : ℕ} (percentage : ℕ) (positive : 1 ≤ percentage) (some : 0 < workers) :
    leftOut workers percentage < workers := by
  unfold leftOut
  have fewer : workers * (100 - percentage) ≤ workers * 99 := Nat.mul_le_mul_left workers (by omega)
  omega

theorem leftOut_anti (workers : ℕ) {percentage larger : ℕ} (le : percentage ≤ larger) :
    leftOut workers larger ≤ leftOut workers percentage :=
  Nat.div_le_div_right (Nat.mul_le_mul_left workers (by omega))

/-- What remains is the percentage of the workers, rounded up. -/
theorem sub_leftOut (workers : ℕ) {percentage : ℕ} (below : percentage ≤ 99) :
    ((workers - leftOut workers percentage : ℕ) : ℤ) = ⌈((workers : ℚ) * percentage) / 100⌉ := by
  have product : workers * (100 - percentage) + workers * percentage = workers * 100 := by
    rw [← Nat.mul_add, Nat.sub_add_cancel (by omega)]
  have low : (workers - leftOut workers percentage) * 100 < workers * percentage + 100 := by
    unfold leftOut
    omega
  have high : workers * percentage ≤ (workers - leftOut workers percentage) * 100 := by
    unfold leftOut
    omega
  generalize workers - leftOut workers percentage = remaining at low high ⊢
  symm
  rw [Int.ceil_eq_iff]
  have low' : (remaining : ℚ) * 100 < workers * percentage + 100 := by exact_mod_cast low
  have high' : (workers : ℚ) * percentage ≤ remaining * 100 := by exact_mod_cast high
  constructor
  · push_cast
    linarith
  · push_cast
    linarith

/-- The rest of a list of distinct names, counted by membership. -/
theorem countP_notMem_take {names : List String} (distinct : names.Nodup) (count : ℕ) :
    names.countP (· ∉ names.take count) = names.length - count := by
  have apart := List.nodup_append.mp ((List.take_append_drop count names).symm ▸ distinct)
  have none : (names.take count).countP (· ∉ names.take count) = 0 :=
    List.countP_eq_zero.mpr fun name member => by simpa using member
  have all : (names.drop count).countP (· ∉ names.take count) = (names.drop count).length := by
    apply List.countP_eq_length.mpr
    intro name member
    have absent : name ∉ names.take count := fun present => apart.2.2 name present name member rfl
    simpa using absent
  calc
    names.countP (· ∉ names.take count)
      = (names.take count ++ names.drop count).countP (· ∉ names.take count) := by rw [List.take_append_drop]
    _ = names.length - count := by rw [List.countP_append, none, all, List.length_drop, Nat.zero_add]

/-- The percentage of the workers that is asked for, if it is a valid one. -/
def SubJobWithJob.Asks (subJob : SubJobWithJob) (percentage : ℤ) : Prop :=
  subJob.details.index "partial" = .int percentage ∧ 1 ≤ percentage ∧ percentage ≤ 99

theorem excludedAndCount_of_asks {subJob : SubJobWithJob} {workersOnline : List String} {percentage : ℕ}
    (asks : subJob.Asks percentage) (some : workersOnline ≠ []) (bound : 100 * workersOnline.length < 2 ^ 64) :
    excludedAndCount subJob workersOnline =
      (workersOnline.take (leftOut workersOnline.length percentage),
        ((workersOnline.length - leftOut workersOnline.length percentage : ℕ) : ℤ)) := by
  obtain ⟨value, positive, below⟩ := asks
  have length : 0 < workersOnline.length := List.length_pos_iff.mpr some
  have decoded : (Json.int percentage).asU64? = Option.some percentage := by
    simp only [Json.asU64?]
    rw [if_pos (by omega), Int.toNat_natCast]
  have exact : saturatingMulU64 workersOnline.length (100 - percentage) / 100 =
      leftOut workersOnline.length percentage := by
    have fits : workersOnline.length * (100 - percentage) ≤ workersOnline.length * 100 :=
      Nat.mul_le_mul_left _ (by omega)
    rw [saturatingMulU64, Nat.min_eq_right (by omega), leftOut]
  have shorter := leftOut_lt percentage (by omega) length
  have valid : 0 < percentage ∧ percentage < 100 := by omega
  have computed : getExcludedWorkers subJob workersOnline =
      Option.some (workersOnline.take (leftOut workersOnline.length percentage),
        ((workersOnline.length - (workersOnline.take (leftOut workersOnline.length percentage)).length : ℕ) : ℤ)) := by
    simp only [getExcludedWorkers, value, decoded, exact, valid, shorter, Option.bind_eq_bind, Option.bind_some, guard,
      and_self, if_true, Option.pure_def]
  rw [excludedAndCount, computed, Option.getD_some, List.length_take, Nat.min_eq_left shorter.le]

theorem eq_int_of_asU64? {value : Json} {number : ℕ} (decoded : value.asU64? = some number) : value = .int number := by
  unfold Json.asU64? at decoded
  split at decoded
  · next content =>
    split at decoded
    · next range =>
      obtain rfl : content.toNat = number := Option.some.inj decoded
      rw [Int.toNat_of_nonneg range.1]
    · cases decoded
  · cases decoded

theorem excludedAndCount_of_not_asks {subJob : SubJobWithJob} (workersOnline : List String)
    (invalid : ∀ percentage, ¬ subJob.Asks percentage) :
    excludedAndCount subJob workersOnline = ([], (workersOnline.length : ℤ)) := by
  have refused : getExcludedWorkers subJob workersOnline = none := by
    unfold getExcludedWorkers
    cases decoded : (subJob.details.index "partial").asU64? with
    | none => rfl
    | some percentage =>
      have outside : ¬ (0 < percentage ∧ percentage < 100) := by
        intro valid
        exact invalid percentage ⟨eq_int_of_asU64? decoded, by omega, by omega⟩
      simp [outside]
  rw [excludedAndCount, refused, Option.getD_none]

/-- What the tick computes agrees with what the workers make of it, and with the percentage that is asked for. -/
structure WorkersAgree (subJob : SubJobWithJob) (workersOnline : List String) (message : JobMessage)
    (workersCount : ℤ) :
    Prop where
  counted : (participants message workersOnline : ℤ) = workersCount
  positive : 1 ≤ workersCount
  asked : ∀ percentage, subJob.Asks percentage →
    workersCount = ⌈((workersOnline.length : ℚ) * percentage) / 100⌉
  unasked : (∀ percentage, ¬ subJob.Asks percentage) →
    workersCount = workersOnline.length ∧ message.excludedWorkers = []

theorem DispatchesTo.agrees {subJob : SubJobWithJob} {workersOnline : List String} {message : JobMessage}
    {workersCount : ℤ} (dispatches : DispatchesTo subJob workersOnline message workersCount)
    (some : workersOnline ≠ []) (distinct : workersOnline.Nodup) (bound : 100 * workersOnline.length < 2 ^ 64) :
    WorkersAgree subJob workersOnline message workersCount := by
  have length : 0 < workersOnline.length := List.length_pos_iff.mpr some
  have computed := dispatches.excluded
  have participantsEq : participants message workersOnline = workersOnline.countP (· ∉ message.excludedWorkers) :=
    List.countP_congr fun name _ => by simp [takesPart_iff]
  by_cases asks : ∃ percentage, subJob.Asks percentage
  · obtain ⟨percentage, asks⟩ := asks
    obtain ⟨percentage, rfl⟩ := Int.eq_ofNat_of_zero_le (a := percentage) (by have := asks.2.1; omega)
    have below : percentage ≤ 99 := by have := asks.2.2; omega
    have least := leftOut_lt percentage (by have := asks.2.1; omega) length
    rw [excludedAndCount_of_asks asks some bound, Prod.mk.injEq] at computed
    obtain ⟨excluded, rfl⟩ := computed
    refine ⟨?_, by omega, fun other asks' => ?_, fun invalid => absurd asks (invalid _)⟩
    · rw [participantsEq, excluded, countP_notMem_take distinct]
    · obtain rfl : other = percentage := Json.int.inj (asks'.1.symm.trans asks.1)
      exact sub_leftOut _ below
  · have invalid := not_exists.mp asks
    rw [excludedAndCount_of_not_asks workersOnline invalid, Prod.mk.injEq] at computed
    obtain ⟨excluded, rfl⟩ := computed
    refine ⟨?_, by omega, fun percentage asks' => absurd asks' (invalid percentage), fun _ => ⟨rfl, excluded⟩⟩
    rw [participantsEq, excluded]
    simp

/-- Whoever takes part at a percentage also takes part at a larger one. -/
theorem DispatchesTo.monotone {subJob other : SubJobWithJob} {workersOnline : List String}
    {message message' : JobMessage}
    {workersCount workersCount' percentage larger : ℤ}
    (dispatches : DispatchesTo subJob workersOnline message workersCount)
    (dispatches' : DispatchesTo other workersOnline message' workersCount')
    (some : workersOnline ≠ []) (bound : 100 * workersOnline.length < 2 ^ 64)
    (value : subJob.details.index "partial" = .int percentage) (value' : other.details.index "partial" = .int larger)
    (positive : 1 ≤ percentage) (le : percentage ≤ larger) {workerName : String}
    (takes : TakesPart message workerName) : TakesPart message' workerName := by
  rw [takesPart_iff] at takes ⊢
  by_cases below : larger ≤ 99
  · obtain ⟨percentage, rfl⟩ := Int.eq_ofNat_of_zero_le (a := percentage) (by omega)
    obtain ⟨larger, rfl⟩ := Int.eq_ofNat_of_zero_le (a := larger) (by omega)
    have excluded := dispatches.excluded
    have excluded' := dispatches'.excluded
    rw [excludedAndCount_of_asks ⟨value, positive, by omega⟩ some bound, Prod.mk.injEq] at excluded
    rw [excludedAndCount_of_asks ⟨value', by omega, below⟩ some bound, Prod.mk.injEq] at excluded'
    rw [excluded.1] at takes
    rw [excluded'.1]
    intro left
    exact takes (List.take_subset_take_left _ (leftOut_anti _ (by omega)) left)
  · have excluded' := dispatches'.excluded
    have invalid : ∀ asked, ¬ other.Asks asked := by
      intro asked asks
      obtain rfl : asked = larger := Json.int.inj (asks.1.symm.trans value')
      exact below asks.2.2
    rw [excludedAndCount_of_not_asks workersOnline invalid, Prod.mk.injEq] at excluded'
    rw [excluded'.1]
    exact List.not_mem_nil

/-- A tick that finds workers can dispatch the sub-job. -/
theorem exists_dispatches (subJob : SubJobWithJob) {workersOnline : List String} (some : workersOnline ≠ []) :
    ∃ message workersCount, DispatchesTo subJob workersOnline message workersCount := by
  cases workersOnline with
  | nil => exact absurd rfl some
  | cons first others =>
    let scalingSubJob : SubJobWithJob := { subJob with details := .obj [("topic", .str "")] }
    exact ⟨jobMessageOf subJob (0 + Duration.seconds syncDelaySecs)
        (0 + Duration.seconds syncDelaySecs + Duration.seconds downloadDelaySecs)
        (excludedAndCount subJob (first :: others)).1, (excludedAndCount subJob (first :: others)).2,
      [⟨.now, (0 : DateTime)⟩, ⟨.sql (.getSubJobByIdAndType subJob.jobId .scaling), .ok scalingSubJob⟩], "",
      subJob.job.routingKey, subJob.job.id, .ok (), _, .cons (.cons (.cons (.cons (.cons (.nil _)))))⟩

/-- The scheduler and the workers agree on who takes part, and a larger percentage leaves no further worker out. -/
theorem exclusion_agrees {subJob : SubJobWithJob} {workersOnline : List String} {message : JobMessage}
    {workersCount : ℤ} (dispatches : DispatchesTo subJob workersOnline message workersCount) (some : workersOnline ≠ [])
    (distinct : workersOnline.Nodup) (bound : 100 * workersOnline.length < 2 ^ 64) :
    WorkersAgree subJob workersOnline message workersCount ∧
      ∀ (other : SubJobWithJob) (message' : JobMessage) (workersCount' percentage larger : ℤ),
        DispatchesTo other workersOnline message' workersCount' → subJob.details.index "partial" = .int percentage →
          other.details.index "partial" = .int larger → 1 ≤ percentage → percentage ≤ larger →
            ∀ workerName, TakesPart message workerName → TakesPart message' workerName :=
  ⟨dispatches.agrees some distinct bound, fun _ _ _ _ _ dispatches' value value' positive le _ takes =>
    dispatches.monotone dispatches' some bound value value' positive le takes⟩

/-- Of three workers, one takes part in sub-job 3, at one percent, and it also takes part in sub-job 4, at eighty. -/
theorem exclusion_three : ∃ message message' workersCount workersCount',
    WorkersAgree (sampleSubJob 3 .combinedDHP { partialPct := some 1 }) ["w1", "w2", "w3"] message workersCount ∧
      DispatchesTo (sampleSubJob 4 .combinedDHP { partialPct := some 80 }) ["w1", "w2", "w3"] message' workersCount' ∧
      ∀ workerName, TakesPart message workerName → TakesPart message' workerName := by
  let first := sampleSubJob 3 .combinedDHP { partialPct := some 1 }
  let second := sampleSubJob 4 .combinedDHP { partialPct := some 80 }
  obtain ⟨message, workersCount, dispatches⟩ := exists_dispatches first (List.cons_ne_nil "w1" ["w2", "w3"])
  obtain ⟨message', workersCount', dispatches'⟩ := exists_dispatches second (List.cons_ne_nil "w1" ["w2", "w3"])
  obtain ⟨agrees, monotone⟩ := exclusion_agrees dispatches nofun (by decide) (by decide)
  exact ⟨message, message', workersCount, workersCount', agrees, dispatches',
    monotone _ _ _ 1 80 dispatches' rfl rfl (by decide) (by decide)⟩

end Bms
