import Bms.Model.Replay
import Bms.Properties.ScaleRequests

/-! # The amounts of scale requests

A request to scale by hand names an amount of 64 bits. The handlers bring it into 32 bits and take zero
where it does not fit, so a larger amount is ignored and reported as a success; the Fargate scaler adds
without a check, so a sum beyond 32 bits wraps. Everywhere else both scalers request the exact count.
-/

namespace Bms

open Process Fallible

/-- Whether a request scales up or down. -/
inductive ScaleWay
  | up
  | down
deriving DecidableEq

namespace ScaleWay

/-- The handler of the request. -/
def handle (registry : ServiceScalerRegistry) (serviceId : Uuid) (amount : ℕ) : ScaleWay → Api ServiceScalerInfo
  | up => handleServicesScaleUp registry serviceId amount
  | down => handleServicesScaleDown registry serviceId amount

/-- The count that the request asks for. -/
def wanted (count : ℤ) (amount : ℕ) : ScaleWay → ℤ
  | up => count + amount
  | down => max 0 (count - amount)

end ScaleWay

/-- The first count that a log has read. -/
def countIn (log : List Act) : Option ℤ := log.findSome? fun made => made.counted?.map (·.2.2)

/-- The log has requested the count, and the provider has taken it over. -/
def TakenIn (log : List Act) (count : ℤ) : Prop :=
  ∃ made ∈ log, ∃ service target, made.scaled? = some (service, target, count)

/-- Whatever is answered, no other count is requested than the wanted one, and a request that succeeds has
requested it unless the service has it already. -/
def ScaleWay.Counts (registry : ServiceScalerRegistry) (count : ℤ) (amount : ℕ) (way : ScaleWay) : Prop :=
  ∀ (serviceId : Uuid) (log : List Act) (rest : Prog Calls (Except ApiError ServiceScalerInfo)),
    (way.handle registry serviceId amount).run.Reaches log rest → countIn log = some count →
      (∀ made ∈ log, ∀ service target asked, made.op.scale? = some (service, target, asked) →
        asked = way.wanted count amount) ∧
      ∀ info, rest = .ret (.ok info) → way.wanted count amount = count ∨ TakenIn log (way.wanted count amount)

/-- Both scalers count exactly, for every count of a service and every amount. -/
def ScalersCount : Prop :=
  ∀ (registry : ServiceScalerRegistry) (way : ScaleWay) (count : ℤ) (amount : ℕ),
    0 ≤ count → count ≤ i32Max → amount < 2 ^ 64 → way.Counts registry count amount

/-- The amount fits into 32 bits, and so does the sum where the Fargate scaler adds; a service without
instances has none to lose. -/
def ScaleWay.Fits (registry : ServiceScalerRegistry) (count : ℤ) (amount : ℕ) : ScaleWay → Prop
  | up => (amount : ℤ) ≤ i32Max ∧ (registry.localMode = true ∨ count + amount ≤ i32Max)
  | down => (amount : ℤ) ≤ i32Max ∨ count = 0

/-! ## What a handler requests -/

/-- A count is requested only for the count that has been read. -/
def AimsAt (aim : ℤ → ℤ) (log : List Act) (op : Op) : Prop :=
  ∀ service target asked, op.scale? = some (service, target, asked) →
    ∃ count, countIn log = some count ∧ asked = aim count

/-- The count that has been read is the one aimed at, or that one has been requested. -/
def Met (aim : ℤ → ℤ) (log : List Act) : Prop :=
  ∃ count, countIn log = some count ∧ (aim count = count ∨ TakenIn log (aim count))

theorem countIn_concat (log : List Act) (made : Act) :
    countIn (log ++ [made]) = (countIn log).or (made.counted?.map (·.2.2)) := by
  rw [countIn, List.findSome?_append, countIn, List.findSome?_singleton]

theorem Met.concat {aim : ℤ → ℤ} {log : List Act} (met : Met aim log) (made : Act) : Met aim (log ++ [made]) := by
  obtain ⟨count, read, reached⟩ := met
  refine ⟨count, by rw [countIn_concat, read, Option.some_or], reached.imp_right ?_⟩
  rintro ⟨other, member, taken⟩
  exact ⟨other, List.mem_append_left _ member, taken⟩

/-- A request that succeeds meets the aim. -/
theorem request_meets {ε : Type} {op : Op} {decode : op.Reply → Except ε Unit} {aim : ℤ → ℤ} {log : List Act}
    {service : Service} {target : Target} {count : ℤ} (read : countIn log = some count)
    (asks : op.scale? = some (service, target, aim count))
    (accepts : ∀ reply, decode reply = .ok () → (Act.scaled? ⟨op, reply⟩).isSome) :
    (attempt op decode).Obeys logged (AimsAt aim) log (fun _ => Met aim) fun _ _ => True := by
  have legal : AimsAt aim log op := by
    intro service' target' asked asks'
    cases asks.symm.trans asks'
    exact ⟨count, read, rfl⟩
  refine (obeys_attempt ..).mpr ⟨legal, fun reply => ?_⟩
  cases decoded : decode reply with
  | error e => trivial
  | ok done =>
    obtain ⟨asked, taken⟩ := Option.isSome_iff_exists.mp (accepts reply decoded)
    have same := Act.scale_of_scaled taken
    rw [asks] at same
    cases same
    refine ⟨count, ?_, .inr ⟨_, List.mem_append_right _ (List.mem_singleton_self _), service, target, taken⟩⟩
    rw [logged, countIn_concat, read, Option.some_or]

theorem aimsAt_of_plain {aim : ℤ → ℤ} {log : List Act} {op : Op} (plain : op.scale? = none) : AimsAt aim log op := by
  intro service target asked asks
  cases plain.symm.trans asks

/-- A scaler that has read a count requests what the call is for, or the service has it already. -/
theorem ScaleCall.meets (scaler : ServiceScaler) (service : Service) (call : ScaleCall) {log : List Act}
    (fresh : countIn log = none) :
    (call.program scaler service).Obeys logged (AimsAt (call.aim scaler)) log (fun _ => Met (call.aim scaler))
      fun _ _ => True := by
  have reads (made : Act) {count : ℤ} (counted : made.counted?.map (·.2.2) = some count) :
      countIn (logged log made) = some count := by
    rw [logged, countIn_concat, fresh, Option.none_or, counted]
  cases scaler with
  | docker =>
    cases call <;>
    · refine (obeys_bind ..).mpr ((obeys_attempt ..).mpr ⟨aimsAt_of_plain rfl, fun reply => ?_⟩)
      cases reply with
      | error e => trivial
      | ok currentCount =>
        have read := reads ⟨.dockerPs service, .ok currentCount⟩ rfl
        refine .ite (fun same => ?_) fun other => ?_
        · exact ⟨_, read, .inl (congrArg Int.ofNat same.symm)⟩
        · apply request_meets read rfl
          intro reply done
          cases reply with
          | error e => cases done
          | ok done => rfl
  | fargate =>
    cases located : FargateScaler.regionAndCluster service with
    | error e =>
      cases call <;>
      · simp only [ScaleCall.program, ServiceScaler.scaleUp, ServiceScaler.scaleDown, FargateScaler.scaleUp,
          FargateScaler.scaleDown, FargateScaler.getServiceInfo, located, obeys_bind, obeys_outcome]
    | ok place =>
      obtain ⟨region, cluster⟩ := place
      cases call <;>
      · simp only [ScaleCall.program, ServiceScaler.scaleUp, ServiceScaler.scaleDown, FargateScaler.scaleUp,
          FargateScaler.scaleDown, FargateScaler.getServiceInfo, FargateScaler.updateService, located, obeys_bind,
          obeys_outcome, obeys_attempt]
        refine ⟨aimsAt_of_plain rfl, fun reply => ?_⟩
        rcases reply with e | (_ | info)
        · trivial
        · trivial
        · have read := reads ⟨.describeServices service region cluster, .ok (some info)⟩ rfl
          refine .ite (fun same => ?_) fun other => (obeys_bind ..).mpr ?_
          · exact ⟨_, read, .inl same.symm⟩
          · apply request_meets read rfl
            intro reply done
            rcases reply with _ | (_ | _)
            · cases done
            · cases done
            · rfl

/-! ## What a handler does -/

/-- The only scaler of a registry. -/
def ServiceScalerRegistry.scaler (registry : ServiceScalerRegistry) : ServiceScaler :=
  if registry.localMode then .docker else .fargate

/-- The call of the scaler that a request makes. -/
def ScaleWay.call (amount : ℤ) : ScaleWay → ScaleCall
  | up => .up amount
  | down => .down amount

theorem ServiceScalerRegistry.eq_scaler {registry : ServiceScalerRegistry} {provider : ProviderType}
    {scaler : ServiceScaler} (found : registry.getScaler provider = some scaler) : scaler = registry.scaler := by
  cases provider <;>
  · simp only [getScaler] at found
    split at found
    · next mode => simp_all [ServiceScalerRegistry.scaler]
    · next mode => simp_all [ServiceScalerRegistry.scaler]

/-- A call that requests no count. -/
def Unscaling (op : Op) : Prop := op.scale? = none

theorem scalerInfo_unscaling (scaler : ServiceScaler) (service : Service) :
    (scalerInfo scaler service).Only Unscaling := by
  apply Only.mapError
  cases scaler with
  | docker =>
    apply Only.bind
    · exact (only_attempt ..).mpr rfl
    · exact fun instances => only_pure _
  | fargate =>
    apply Only.bind
    · exact only_outcome _
    · intro place
      apply Only.bind
      · exact (only_attempt ..).mpr rfl
      · exact fun info => only_pure _

/-- Once the aim is met, calls that request no count leave it met. -/
theorem Met.kept {ε α : Type} {aim : ℤ → ℤ} {log : List Act} {program : Fallible Calls ε α} (met : Met aim log)
    (only : program.Only Unscaling) :
    program.Obeys logged (AimsAt aim) log (fun _ => Met aim) fun _ _ => True := by
  have kept : program.run.Obeys logged (AimsAt aim) log fun _ => Met aim := Prog.Only.keeps (Met aim) only
    (fun reached op met plain => ⟨aimsAt_of_plain plain, fun reply => met.concat _⟩) met
  apply Prog.Obeys.mono kept
  intro reached log met
  cases reached with
  | ok value => exact met
  | error e => trivial

/-- A handler that finds its service goes on with the only scaler. -/
theorem withScaler_obeys {α : Type} {registry : ServiceScalerRegistry} {serviceId : Uuid} {aim : ℤ → ℤ}
    {good : α → List Act → Prop} {rest : Service → ServiceScaler → Api α}
    (goes : ∀ service, (rest service registry.scaler).Obeys logged (AimsAt aim)
      [⟨.sql (.getServiceById serviceId), .ok service⟩] good fun _ _ => True) :
    (getService serviceId >>= fun service => findScaler registry service >>= rest service).Obeys logged (AimsAt aim) []
      good fun _ _ => True := by
  refine (obeys_bind ..).mpr ((obeys_attempt ..).mpr ⟨aimsAt_of_plain rfl, fun reply => ?_⟩)
  cases reply with
  | error e => trivial
  | ok service =>
    apply (obeys_bind ..).mpr
    cases found : registry.getScaler service.providerType with
    | none =>
      rw [findScaler, found]
      trivial
    | some scaler =>
      rw [findScaler, found, ServiceScalerRegistry.eq_scaler found]
      exact goes service

/-- After its scaler's call a handler requests nothing more. -/
theorem scaled_meets {α δ : Type} {change : ServiceScalerError → δ} {scaler : ServiceScaler} {service : Service}
    {call : ScaleCall} {log : List Act} {rest : Fallible Calls δ α} (fresh : countIn log = none)
    (only : rest.Only Unscaling) :
    ((call.program scaler service).mapError change >>= fun _ => rest).Obeys logged (AimsAt (call.aim scaler)) log
      (fun _ => Met (call.aim scaler)) fun _ _ => True := by
  refine (obeys_bind ..).mpr ((obeys_mapError ..).mpr ?_)
  exact (call.meets scaler service fresh).mono (fun _ _ met => met.kept only) fun _ _ _ => trivial

/-- A handler requests only what its scaler aims at, and succeeds only when that is met. -/
theorem handle_meets (registry : ServiceScalerRegistry) (way : ScaleWay) (serviceId : Uuid) (amount : ℕ) :
    (way.handle registry serviceId amount).Obeys logged
      (AimsAt ((way.call (scaleAmount amount)).aim registry.scaler)) []
      (fun _ => Met ((way.call (scaleAmount amount)).aim registry.scaler)) fun _ _ => True := by
  cases way with
  | up => exact withScaler_obeys fun service => scaled_meets rfl (scalerInfo_unscaling ..)
  | down =>
    apply withScaler_obeys
    intro service
    apply scaled_meets rfl
    apply (scalerInfo_unscaling ..).bind
    intro serviceInfo
    apply Only.ite
    · apply Only.bind
      · exact (only_attempt ..).mpr rfl
      · exact fun cleared => only_pure _
    · exact only_pure _

/-! ## Where the scalers count exactly -/

theorem wrapI32_eq_self_iff {value : ℤ} : wrapI32 value = value ↔ IsI32 value := by
  have low := Int.le_bmod (x := value) (m := 2 ^ 32) (by decide)
  have high := Int.bmod_lt (x := value) (m := 2 ^ 32) (by decide)
  simp only [wrapI32, IsI32, i32Max] at *
  constructor
  · omega
  · rintro ⟨least, greatest⟩
    exact Int.bmod_eq_of_le_mul_two (by omega) (by omega)

theorem scaleAmount_eq {amount : ℕ} (fits : (amount : ℤ) ≤ i32Max) : scaleAmount amount = amount := by
  rw [scaleAmount, tryIntoI32, if_pos ⟨by omega, fits⟩]
  rfl

/-- An amount beyond 32 bits is ignored. -/
theorem scaleAmount_eq_zero {amount : ℕ} (exceeds : i32Max < amount) : scaleAmount amount = 0 := by
  rw [scaleAmount, tryIntoI32, if_neg fun range : IsI32 _ => (not_le.mpr exceeds) range.2]
  rfl

theorem ScaleWay.aim_eq_wanted {registry : ServiceScalerRegistry} {way : ScaleWay} {count : ℤ} {amount : ℕ}
    (low : 0 ≤ count) (high : count ≤ i32Max) (fits : way.Fits registry count amount) :
    (way.call (scaleAmount amount)).aim registry.scaler count = way.wanted count amount := by
  unfold i32Max at high
  cases way with
  | up =>
    obtain ⟨small, sum⟩ := fits
    rw [scaleAmount_eq small, ServiceScalerRegistry.scaler]
    unfold i32Max at small
    split
    · simp only [call, ScaleCall.aim, wanted, if_pos (Int.natCast_nonneg amount), Int.toNat_natCast, wrapU64]
      omega
    · next mode =>
      have sum := sum.resolve_left mode
      exact wrapI32_eq_self_iff.mpr ⟨by omega, sum⟩
  | down =>
    have exact (asked : ℤ) (positive : 0 ≤ asked) :
        (ScaleCall.down asked).aim registry.scaler count = max 0 (count - asked) := by
      rw [ServiceScalerRegistry.scaler]
      split
      · simp only [ScaleCall.aim, if_pos positive]
        omega
      · simp only [ScaleCall.aim, saturatingSubI32, i32Max]
        omega
    rw [call, exact _ (scaleAmount_nonneg amount), wanted]
    rcases le_or_gt (amount : ℤ) i32Max with small | exceeds
    · rw [scaleAmount_eq small]
    · obtain rfl := fits.resolve_left (not_le.mpr exceeds)
      rw [scaleAmount_eq_zero exceeds]
      omega

/-- Where the amount fits, the handler counts exactly. -/
theorem ScaleWay.counts_of_fits {registry : ServiceScalerRegistry} {way : ScaleWay} {count : ℤ} {amount : ℕ}
    (low : 0 ≤ count) (high : count ≤ i32Max) (fits : way.Fits registry count amount) :
    way.Counts registry count amount := by
  intro serviceId log rest run read
  have meets := handle_meets registry way serviceId amount
  have aimed := way.aim_eq_wanted low high fits
  constructor
  · intro made member service target asked asks
    obtain ⟨before, after, rfl⟩ := List.append_of_mem member
    have legal := Prog.Obeys.legal_call meets run
    rw [foldl_logged, List.nil_append] at legal
    obtain ⟨found, there, rfl⟩ := legal service target asked asks
    rw [countIn, List.findSome?_append, ← countIn, there] at read
    cases read
    exact aimed
  · rintro info rfl
    have met := Prog.Obeys.feed meets run
    rw [foldl_logged, List.nil_append] at met
    obtain ⟨found, there, reached⟩ := met
    rw [there] at read
    cases read
    rwa [aimed] at reached

/-! ## Where they do not -/

/-- A service that the registry's scaler can address. -/
def ServiceScalerRegistry.sample (registry : ServiceScalerRegistry) : Service :=
  if registry.localMode then { sampleService with providerType := .dockerLocal } else sampleService

/-- A scaler reads the count of the sample service. -/
def ServiceScaler.reading (service : Service) (count : ℤ) : ServiceScaler → Act
  | docker => ⟨.dockerPs service, .ok count.toNat⟩
  | fargate => ⟨.describeServices service "eu-west-1" "bms", .ok (some ⟨count, 0, 0⟩)⟩

theorem getService_reaches (registry : ServiceScalerRegistry) {α : Type} {log : List Act}
    {left : Prog Calls (Except ApiError α)} {rest : Service → ServiceScaler → Api α}
    (goes : (rest registry.sample registry.scaler).run.Reaches log left) :
    (getService 100 >>= fun service => findScaler registry service >>= rest service).run.Reaches
      (⟨.sql (.getServiceById 100), .ok registry.sample⟩ :: log) left := by
  apply Prog.Reaches.cons
  obtain ⟨_ | _⟩ := registry <;> exact goes

/-- A count that is kept is not requested. -/
theorem kept_reaches {c : Prop} [Decidable c] {other : Fallible Calls ServiceScalerError Unit} (same : c) :
    Prog.Reaches (if c then pure () else other).run [] (.ret (.ok ())) := by
  rw [if_pos same]
  exact .nil _

/-- A call by nothing reads the count and is done. -/
theorem ScaleCall.reaches_zero (registry : ServiceScalerRegistry) (way : ScaleWay) {count : ℤ} (low : 0 ≤ count)
    (high : count ≤ i32Max) :
    ((way.call 0).program registry.scaler registry.sample).run.Reaches
      [registry.scaler.reading registry.sample count] (.ret (.ok ())) := by
  unfold i32Max at high
  obtain ⟨_ | _⟩ := registry
  · have up : count = wrapI32 (count + 0) := by
      rw [Int.add_zero]
      exact (wrapI32_eq_self_iff.mpr ⟨by omega, high⟩).symm
    have down : count = max (saturatingSubI32 count 0) 0 := by
      simp only [saturatingSubI32, i32Max]
      omega
    cases way with
    | up => exact .cons (kept_reaches up)
    | down => exact .cons (kept_reaches down)
  · have up : count.toNat = wrapU64 (count.toNat + 0) := by
      rw [wrapU64]
      omega
    cases way with
    | up => exact .cons (kept_reaches up)
    | down => exact .cons (kept_reaches (Nat.sub_zero _).symm)

/-- An amount beyond 32 bits is ignored, and the request succeeds. -/
theorem ScaleWay.ignored {registry : ServiceScalerRegistry} {way : ScaleWay} {count : ℤ} {amount : ℕ}
    (low : 0 ≤ count) (high : count ≤ i32Max) (exceeds : i32Max < amount) (some : way = .down → count ≠ 0) : ∃ info,
    (way.handle registry 100 amount).run.Reaches
      [⟨.sql (.getServiceById 100), .ok registry.sample⟩, registry.scaler.reading registry.sample count,
        registry.scaler.reading registry.sample count] (.ret (.ok info)) := by
  have scaled := ScaleCall.reaches_zero registry way low high
  rw [← scaleAmount_eq_zero exceeds] at scaled
  have informed : ∃ info, (scalerInfo registry.scaler registry.sample).run.Reaches
      [registry.scaler.reading registry.sample count] (.ret (.ok info)) ∧
        (count ≠ 0 → info.desiredCount ≠ .some 0) := by
    obtain ⟨_ | _⟩ := registry
    · exact ⟨.fargate _ _ count 0 0, .cons (.nil _), fun some same => some (Option.some.inj same)⟩
    · exact ⟨.docker _ count.toNat, .cons (.nil _), fun _ => nofun⟩
  obtain ⟨info, reads, positive⟩ := informed
  refine ⟨info, ?_⟩
  cases way with
  | up =>
    apply getService_reaches
    exact reaches_bind (reaches_mapError scaled) reads
  | down =>
    apply getService_reaches
    refine reaches_bind (reaches_mapError scaled) (reaches_bind reads ?_)
    rw [if_neg (positive (some rfl))]
    exact .nil _

/-- A sum beyond 32 bits wraps, and the wrapped count is requested. -/
theorem wrapped_reaches {count : ℤ} {amount : ℕ} (high : count ≤ i32Max) (small : (amount : ℤ) ≤ i32Max)
    (exceeds : i32Max < count + amount) : ∃ wrapped rest, wrapped ≠ count + amount ∧
    (handleServicesScaleUp ⟨false⟩ 100 amount).run.Reaches
      [⟨.sql (.getServiceById 100), .ok sampleService⟩, readsCount count, takesCount wrapped] rest := by
  have differs : wrapI32 (count + amount) ≠ count + amount := fun same =>
    (not_le.mpr exceeds) (wrapI32_eq_self_iff.mp same).2
  have positive := high.trans_lt exceeds
  have other : ¬ count = wrapI32 (count + amount) := by
    unfold i32Max at small
    simp only [wrapI32, Int.bmod]
    split <;> omega
  have scaled : (FargateScaler.scaleUp sampleService amount).run.Reaches
      [readsCount count, takesCount (wrapI32 (count + amount))] (.ret (.ok ())) := by
    apply Prog.Reaches.cons
    have requested : (if count = wrapI32 (count + amount) then pure ()
        else FargateScaler.updateService sampleService (wrapI32 (count + amount))).run.Reaches
        [takesCount (wrapI32 (count + amount))] (.ret (.ok ())) := by
      rw [if_neg other]
      exact .cons (.nil _)
    exact requested
  rw [← scaleAmount_eq small] at scaled
  refine ⟨_, (scalerInfo .fargate sampleService).run, differs, ?_⟩
  rw [← scaleAmount_eq small]
  exact getService_reaches ⟨false⟩ (reaches_bind (reaches_mapError scaled) (.nil _))

theorem reading_counted (registry : ServiceScalerRegistry) {count : ℤ} (low : 0 ≤ count) (log : List Act) :
    countIn (⟨.sql (.getServiceById 100), .ok registry.sample⟩ ::
      registry.scaler.reading registry.sample count :: log) = some count := by
  obtain ⟨_ | _⟩ := registry
  · rfl
  · exact congrArg some (Int.toNat_of_nonneg low)

/-- Readings take no count over. -/
theorem not_takenIn_reading (registry : ServiceScalerRegistry) {count wanted : ℤ} :
    ¬ TakenIn [⟨.sql (.getServiceById 100), .ok registry.sample⟩, registry.scaler.reading registry.sample count,
      registry.scaler.reading registry.sample count] wanted := by
  rintro ⟨made, member, service, target, scaled⟩
  obtain ⟨_ | _⟩ := registry <;>
  · simp only [List.mem_cons, List.not_mem_nil, or_false] at member
    rcases member with rfl | rfl | rfl <;> cases scaled

/-- Where the amount does not fit, some run requests another count or ignores the amount. -/
theorem ScaleWay.fits_of_counts {registry : ServiceScalerRegistry} {way : ScaleWay} {count : ℤ} {amount : ℕ}
    (low : 0 ≤ count) (high : count ≤ i32Max) (counts : way.Counts registry count amount) :
    way.Fits registry count amount := by
  rcases le_or_gt (amount : ℤ) i32Max with small | exceeds
  · cases way with
    | down => exact .inl small
    | up =>
      refine ⟨small, or_iff_not_imp_left.mpr fun fargate => not_lt.mp fun exceeds => ?_⟩
      obtain ⟨_ | _⟩ := registry
      · obtain ⟨wrapped, rest, differs, run⟩ := wrapped_reaches high small exceeds
        exact differs ((counts 100 _ rest run rfl).1 (takesCount wrapped) (by simp) _ _ _ rfl)
      · exact fargate rfl
  · have lost (changes : way.wanted count amount ≠ count) (some : way = .down → count ≠ 0) : False := by
      obtain ⟨info, run⟩ := way.ignored low high exceeds some
      rcases (counts 100 _ _ run (reading_counted registry low _)).2 info rfl with same | taken
      · exact changes same
      · exact not_takenIn_reading registry taken
    cases way with
    | up =>
      refine (lost ?_ nofun).elim
      simp only [wanted, i32Max] at *
      omega
    | down =>
      refine .inr (by_contra fun some => lost ?_ fun _ => some)
      simp only [wanted, i32Max] at *
      omega

/-- Both scalers count exactly where the amount fits, and only there. -/
theorem ScaleWay.counts_iff {registry : ServiceScalerRegistry} {way : ScaleWay} {count : ℤ} {amount : ℕ}
    (low : 0 ≤ count) (high : count ≤ i32Max) : way.Counts registry count amount ↔ way.Fits registry count amount :=
  ⟨fits_of_counts low high, counts_of_fits low high⟩

/-- A service without instances, and one more. -/
theorem counts_one : ScaleWay.up.Counts ⟨false⟩ 0 1 ∧ ScaleWay.up.Fits ⟨false⟩ 0 1 := by
  have fits : ScaleWay.up.Fits ⟨false⟩ 0 1 := ⟨by decide, .inr (by decide)⟩
  exact ⟨(ScaleWay.counts_iff (by decide) (by decide)).mpr fits, fits⟩

/-- An amount of 2^31 is reported as a success and changes nothing. -/
theorem not_scalersCount : ¬ ScalersCount := by
  intro count
  have fits := ScaleWay.fits_of_counts (by decide) (by decide)
    (count ⟨true⟩ .up 0 (2 ^ 31) (by decide) (by decide) (by decide))
  exact absurd fits.1 (by decide)

end Bms
