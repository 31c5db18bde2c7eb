import Bms.Protocol.Scaling

/-! # Passes of the descaler

A fifth protocol: a pass lists the services that are due and takes them one after the other. It
requests a count for a service only after it has read that service's count, so the services that it
may still scale down are the ones from the last count on.
-/

namespace Bms

open Process Fallible

/-- Where a task stands with respect to descaling. -/
inductive DescalePhase
  /-- no pass of the descaler -/
  | aside
  | looking
  /-- these services may still be scaled down, the first one at once -/
  | ahead (ids : List Uuid)

namespace DescalePhase

def start : Kind → DescalePhase
  | .descalerPass => looking
  | _ => aside

/-- The phase after a call. -/
def note : DescalePhase → Act → DescalePhase
  | looking, ⟨.sql .getServicesWithDescaleDeadlineReached, .ok services⟩ => ahead (services.map (·.id))
  | ahead ids, made =>
    match made.op.count? with
    | some (service, _) => ahead (ids.dropWhile (· ≠ service.id))
    | none => if made.op.scale?.isSome then ahead ids.tail else ahead ids
  | phase, _ => phase

/-- The services that a pass may still scale down. -/
def due : DescalePhase → List Uuid
  | ahead ids => ids
  | _ => []

/-- A pass has these services left, after some that it may have left out. -/
def Left (ids : List Uuid) (phase : DescalePhase) : Prop := ∃ more, phase = ahead more ∧ ids <:+ more

end DescalePhase

/-- The calls that a task may make in a phase of the descaling. -/
inductive DescaleLegal : DescalePhase → Op → Prop
  | aside {op : Op} : DescaleLegal .aside op
  | look : DescaleLegal .looking (.sql .getServicesWithDescaleDeadlineReached)
  | ahead {ids : List Uuid} {op : Op}
      (first : ∀ service target count, op.scale? = some (service, target, count) → ids.head? = some service.id) :
      DescaleLegal (.ahead ids) op

def descaleMonitor : Monitor Calls Kind DescalePhase where
  start := DescalePhase.start
  note := DescalePhase.note
  legal _ := DescaleLegal
  ended _ _ := True

theorem DescalePhase.start_of_ne {kind : Kind} (other : kind ≠ .descalerPass) : descaleMonitor.start kind = aside := by
  cases kind <;> first | exact absurd rfl other | rfl

/-! ## The programs obey it -/

/-- The services before the one that is counted are left behind. -/
theorem dropWhile_of_suffix {id : Uuid} {rest ids : List Uuid} (left : id :: rest <:+ ids) :
    ∃ more, ids.dropWhile (· ≠ id) = id :: more ∧ rest <:+ more := by
  induction ids with
  | nil => simp at left
  | cons first ids ih =>
    by_cases same : first = id
    · subst same
      refine ⟨ids, by simp, ?_⟩
      obtain whole | later := List.suffix_cons_iff.mp left
      · cases whole
        exact List.suffix_refl _
      · exact (List.suffix_cons ..).trans later
    · obtain whole | later := List.suffix_cons_iff.mp left
      · cases whole
        exact absurd rfl same
      · obtain ⟨more, dropped, left⟩ := ih later
        exact ⟨more, by simpa [List.dropWhile_cons, same] using dropped, left⟩

namespace DescalePhase

variable {registry : ServiceScalerRegistry} {ε : Type} {ids rest : List Uuid}

/-- A call that concerns no provider is free. -/
theorem legal_of_plain {op : Op} (plain : op.scale? = none) : DescaleLegal (.ahead ids) op :=
  .ahead fun _ _ _ asked => by simp [plain] at asked

/-- Asking for the count of the service that is counted. -/
theorem request_descales {op : Op} {decode : op.Reply → Except ε Unit} {service : Service} {target : Target} {count : ℤ}
    (asks : op.scale? = some (service, target, count)) (silent : op.count? = none) {more : List Uuid}
    (left : rest <:+ more) :
    (attempt op decode : Fallible Calls ε Unit).Obeys note DescaleLegal (.ahead (service.id :: more))
      (fun _ => Left rest) fun _ => Left rest := by
  have noted (reply : op.Reply) : note (.ahead (service.id :: more)) ⟨op, reply⟩ = .ahead more := by
    simp only [note, silent, asks, Option.isSome_some, ↓reduceIte, List.tail_cons]
  refine (obeys_attempt ..).mpr ⟨.ahead fun other target' count' asked => ?_, fun reply => ?_⟩
  · cases asks.symm.trans asked
    rfl
  · rw [noted]
    cases decode reply <;> exact ⟨more, rfl, left⟩

/-- Scaling a service down leaves the services after it. -/
theorem scaleDown_descales (scaler : ServiceScaler) (service : Service) (amount : ℤ)
    (left : service.id :: rest <:+ ids) :
    (scaler.scaleDown service amount).Obeys note DescaleLegal (.ahead ids) (fun _ => Left rest) fun _ => Left rest := by
  obtain ⟨more, dropped, later⟩ := dropWhile_of_suffix left
  have kept : Left rest (.ahead (service.id :: more)) := ⟨_, rfl, later.trans (List.suffix_cons ..)⟩
  cases scaler with
  | docker =>
    have noted (reply : Except String ℕ) : note (.ahead ids) ⟨.dockerPs service, reply⟩ = .ahead (service.id :: more) :=
      congrArg ahead dropped
    refine (obeys_bind ..).mpr ((obeys_attempt ..).mpr ⟨legal_of_plain rfl, fun reply => ?_⟩)
    rw [noted]
    cases reply with
    | error e => exact kept
    | ok count => exact .ite (fun _ => kept) fun _ => request_descales rfl rfl later
  | fargate =>
    change Fallible.Obeys _ _ (FargateScaler.scaleDown service amount) _ _ _
    cases addressed : FargateScaler.regionAndCluster service with
    | error e =>
      simp only [FargateScaler.scaleDown, FargateScaler.getServiceInfo, addressed]
      exact ⟨ids, rfl, (List.suffix_cons ..).trans left⟩
    | ok place =>
      obtain ⟨region, cluster⟩ := place
      have noted (reply : Except String (Option AwsService)) :
          note (.ahead ids) ⟨.describeServices service region cluster, reply⟩ = .ahead (service.id :: more) :=
        congrArg ahead dropped
      simp only [FargateScaler.scaleDown, FargateScaler.getServiceInfo, FargateScaler.updateService, addressed,
        obeys_bind, obeys_outcome, obeys_attempt]
      refine ⟨legal_of_plain rfl, fun reply => ?_⟩
      rw [noted]
      rcases reply with e | (_ | info)
      · exact kept
      · exact kept
      · exact .ite (fun _ => kept) fun _ => (obeys_bind ..).mpr (request_descales rfl rfl later)

/-- A service is scaled down and its deadline is cleared, or it keeps its deadline. -/
theorem descaleService_descales (service : Service) (left : service.id :: rest <:+ ids) :
    (descaleService registry service).Obeys note DescaleLegal (.ahead ids) fun _ => Left rest := by
  unfold descaleService
  split
  · exact ⟨ids, rfl, (List.suffix_cons ..).trans left⟩
  · refine Obeys.handle (Obeys.mono (scaleDown_descales _ service i32Max left) ?_ fun _ _ => id)
    rintro done reached ⟨more, rfl, later⟩
    exact ⟨legal_of_plain rfl, fun reply => ⟨more, rfl, later⟩⟩

theorem descaleServices_descales (services : List Service) (left : services.map (·.id) <:+ ids) :
    (descaleServices registry services).Obeys note DescaleLegal (.ahead ids) fun _ _ => True := by
  induction services generalizing ids with
  | nil => trivial
  | cons service services ih =>
    refine (Prog.obeys_bind ..).mpr (Prog.Obeys.mono (descaleService_descales service left) ?_)
    rintro done reached ⟨more, rfl, later⟩
    exact ih later

theorem serviceDescalerHandler_descales :
    (serviceDescalerHandler registry).Obeys note DescaleLegal .looking fun _ _ => True := by
  refine (Prog.obeys_bind ..).mpr ⟨.look, fun reply => ?_⟩
  cases reply with
  | error e => trivial
  | ok services => exact descaleServices_descales services (List.suffix_refl _)

end DescalePhase

theorem descaleMonitor_covers (registry : ServiceScalerRegistry) : descaleMonitor.Covers (platform registry) := by
  intro kind
  by_cases descales : kind = .descalerPass
  · subst descales
    exact DescalePhase.serviceDescalerHandler_descales
  · rw [DescalePhase.start_of_ne descales]
    exact (Prog.obeys_indifferent (fun _ => .aside) (fun _ => rfl) _).mono fun _ _ _ => trivial

theorem DescalePhase.aside_note {phase : DescalePhase} {made : Act} (aside : phase.note made = .aside) :
    phase = .aside := by
  unfold note at aside
  split at aside
  · cases aside
  · split at aside
    · cases aside
    · split at aside <;> cases aside
  · exact aside

/-- A pass is never aside. -/
theorem DescalePhase.not_aside_of_pass {task : SystemTask} (pass : task.kind = .descalerPass) :
    descaleMonitor.phase task ≠ .aside := by
  obtain ⟨kind, log, rest⟩ := task
  obtain rfl : kind = .descalerPass := pass
  change log.foldl note .looking ≠ .aside
  induction log using List.reverseRecOn with
  | nil => exact fun aside => by cases aside
  | append_singleton log made ih =>
    rw [List.foldl_append]
    exact fun aside => ih (aside_note aside)

end Bms
