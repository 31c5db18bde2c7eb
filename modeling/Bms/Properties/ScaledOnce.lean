import Bms.Model.Replay
import Bms.Protocol.Scaling
import Mathlib.Algebra.GroupWithZero.Nat

/-! # A scaling sub-job scales each service once

By how much the ticks on a sub-job have raised a service is read off their logs. The loop over the
services leaves the sub-job Created when a later service fails, or when the status cannot be written,
and the next tick starts the loop over: the services that were raised are raised again.
-/

namespace Bms

open Process

/-! ## What a log says -/

/-- The last count read of a service, and by how much its count has been raised. -/
structure Meter where
  read : ℤ
  raised : ℕ

def Meter.note (serviceId : Uuid) (meter : Meter) (made : Act) : Meter where
  read := match made.counted? with
    | some (service, _, count) => if service.id = serviceId then count else meter.read
    | none => meter.read
  raised := match made.scaled? with
    | some (service, _, count) =>
      if service.id = serviceId then meter.raised + (count - meter.read).toNat else meter.raised
    | none => meter.raised

def meterIn (serviceId : Uuid) (log : List Act) : Meter := log.foldl (Meter.note serviceId) ⟨0, 0⟩

/-- By how much a task has raised a service, in all. -/
def raisedIn (serviceId : Uuid) (log : List Act) : ℕ := (meterIn serviceId log).raised

/-- The services that a tick has listed. -/
def servicesIn? (log : List Act) : Option (List Service) :=
  log.findSome? fun
    | ⟨.sql (.getServicesEnabledByTopic _), .ok services⟩ => some services
    | _ => none

def servicesIn (log : List Act) : List Service := (servicesIn? log).getD []

/-- The step by which a tick scales each service. -/
def stepIn (log : List Act) : ℕ := ((pickedIn log).map fun subJob => subJob.scaleStep (servicesIn log)).getD 0

/-- A tick that has picked a sub-job. -/
def TicksOn (subJobId : Uuid) (task : SystemTask) : Prop :=
  task.kind = .subJobTick ∧ (pickedIn task.log).any (fun subJob => subJob.id = subJobId) = true

instance (subJobId : Uuid) (task : SystemTask) : Decidable (TicksOn subJobId task) := inferInstanceAs (Decidable (_ ∧ _))

/-- By how much the ticks on a sub-job have raised a service, in all. -/
def raisedFor (pool : System) (subJobId serviceId : Uuid) : ℕ :=
  (pool.tasks.map fun task => if TicksOn subJobId task then raisedIn serviceId task.log else 0).sum

/-- The largest step of a tick on a sub-job. -/
def stepFor (pool : System) (subJobId : Uuid) : ℕ :=
  (pool.tasks.map fun task => if TicksOn subJobId task then stepIn task.log else 0).foldr max 0

/-- In every state reached, no service has been raised for a sub-job by more than one step. -/
def ScaledOnce (registry : ServiceScalerRegistry) (ok : System → SystemEvent → Prop) : Prop :=
  ∀ {source target : System} {events : List SystemEvent} (subJobId serviceId : Uuid), Initial source →
    Run (platform registry) ok source events target →
    raisedFor target subJobId serviceId ≤ stepFor target subJobId

/-- Something has been scaled. -/
def HasScaled (log : List Act) : Prop := ∃ made ∈ log, made.scaled?.isSome

/-- A tick that has raised a service can go on to the end: none of its later calls fails, and every
service that it comes to can be addressed. -/
structure Uninterrupted (registry : ServiceScalerRegistry) (pool : System) (event : SystemEvent) : Prop where
  calls : ∀ position task (made : Act), event = .call position made → pool.tasks[position]? = some task →
    task.kind = .subJobTick → HasScaled task.log → ¬ made.Failed
  services : ∀ position task (made : Act), event = .call position made → pool.tasks[position]? = some task →
    task.kind = .subJobTick → made.scaled?.isSome →
    ∀ service ∈ (servicesIn task.log).takeWhile fun service => (registry.getScaler service.providerType).isSome,
      (registry.targetOf service).isSome

/-! ## What a tick has raised, phase by phase -/

section Log

variable {log : List Act} {made : Act} {subJob : SubJobWithJob} {services remaining : List Service}

theorem servicesIn?_concat (log : List Act) (made : Act) :
    servicesIn? (log ++ [made]) = (servicesIn? log).or (servicesIn? [made]) := List.findSome?_append

theorem meterIn_concat (serviceId : Uuid) (log : List Act) (made : Act) :
    meterIn serviceId (log ++ [made]) = (meterIn serviceId log).note serviceId made := by
  rw [meterIn, List.foldl_append]
  rfl

theorem raisedIn_kept (serviceId : Uuid) (unscaled : made.scaled? = none) :
    raisedIn serviceId (log ++ [made]) = raisedIn serviceId log := by
  simp only [raisedIn, meterIn_concat, Meter.note, unscaled]

theorem raisedIn_of_unscaled (serviceId : Uuid) (unscaled : ¬ HasScaled log) : raisedIn serviceId log = 0 := by
  induction log using List.reverseRecOn with
  | nil => rfl
  | append_singleton log made ih =>
    have none : made.scaled? = none := by
      by_contra some
      exact unscaled ⟨made, by simp, Option.isSome_iff_ne_none.mpr some⟩
    rw [raisedIn_kept serviceId none]
    exact ih fun ⟨earlier, member, scaled⟩ => unscaled ⟨earlier, List.mem_append_left _ member, scaled⟩

theorem hasScaled_concat : HasScaled (log ++ [made]) ↔ HasScaled log ∨ made.scaled?.isSome := by
  simp [HasScaled, or_and_right, exists_or]

theorem eq_of_servicesIn? {made : Act} {services : List Service} (listed : servicesIn? [made] = some services) :
    ∃ topic, made = ⟨.sql (.getServicesEnabledByTopic topic), .ok services⟩ := by
  rw [servicesIn?, List.findSome?_cons] at listed
  split at listed
  · next found =>
    cases listed
    split at found <;> cases found
    exact ⟨_, rfl⟩
  · cases listed

end Log

/-- What the replies of providers and of the database satisfy, whatever the state. -/
def Act.Plausible : Act → Prop
  | ⟨.sql (.getServicesEnabledByTopic _), .ok services⟩ => (services.map (·.id)).Nodup
  | ⟨.describeServices .., .ok (some info)⟩ => IsI32 info.desiredCount
  | _ => True

theorem plausible_of_allowed (w : World) (made : Act) (allowed : Act.Allowed w made) : made.Plausible := by
  unfold Act.Plausible
  split
  · next topic services =>
    have rows : ((w.enabledByTopic topic).map (·.id)).Nodup := w.services.nodup.sublist (List.filter_sublist.map _)
    exact ((List.Perm.map _ allowed).nodup_iff).mpr rows
  · exact allowed.2
  · trivial

theorem wrapI32_sub_le {count amount : ℤ} {scaleEachBy : ℕ} (range : IsI32 count) (positive : 0 ≤ amount)
    (bounded : amount ≤ scaleEachBy) : (wrapI32 (count + amount) - count).toNat ≤ scaleEachBy := by
  obtain ⟨low, high⟩ := range
  have wrapped : wrapI32 (count + amount) ≤ count + amount := by
    simp only [wrapI32, Int.bmod]
    split <;> omega
  omega

/-- Where a tick stands whose services `remaining` are still to be scaled. -/
structure Progress (registry : ServiceScalerRegistry) (log : List Act) (subJob : SubJobWithJob)
    (services remaining : List Service) : Prop where
  picked : pickedIn log = some subJob
  toScale : subJob.ToScale
  listed : servicesIn? log = some services
  nodup : (remaining.map (·.id)).Nodup
  done : ∃ before, services = before ++ remaining ∧
    ∀ service ∈ before, (registry.getScaler service.providerType).isSome
  bounded : ∀ serviceId, raisedIn serviceId log ≤ subJob.scaleStep services
  fresh : ∀ serviceId ∈ remaining.map (·.id), raisedIn serviceId log = 0

/-- What the log of a tick says in a phase. -/
def ScalePhase.Fits (registry : ServiceScalerRegistry) (log : List Act) : ScalePhase → Prop
  | apart _ => False
  | searching => pickedIn log = none ∧ servicesIn? log = none ∧ ¬ HasScaled log
  | other subJob => pickedIn log = some subJob ∧ ¬ HasScaled log
  | picked subJob => pickedIn log = some subJob ∧ subJob.ToScale ∧ servicesIn? log = none ∧ ¬ HasScaled log
  | listed subJob services => Progress registry log subJob services services ∧ ¬ HasScaled log
  | scaling subJob services remaining => Progress registry log subJob services remaining
  | raising subJob services service remaining count newCount =>
    Progress registry log subJob services (service :: remaining) ∧
      (newCount - count).toNat ≤ subJob.scaleStep services ∧ (meterIn service.id log).read = count ∧
      (registry.getScaler service.providerType).isSome
  | finished subJob services => pickedIn log = some subJob ∧ servicesIn? log = some services ∧
    ∀ serviceId, raisedIn serviceId log ≤ subJob.scaleStep services

variable {registry : ServiceScalerRegistry} {log : List Act} {subJob : SubJobWithJob} {services remaining : List Service}

/-- A call that scales nothing leaves a tick where it stands. -/
theorem Progress.kept (progress : Progress registry log subJob services remaining) {made : Act}
    (unscaled : made.scaled? = none) : Progress registry (log ++ [made]) subJob services remaining where
  picked := by rw [pickedIn_concat, progress.picked, Option.some_or]
  toScale := progress.toScale
  listed := by rw [servicesIn?_concat, progress.listed, Option.some_or]
  nodup := progress.nodup
  done := progress.done
  bounded serviceId := by rw [raisedIn_kept serviceId unscaled]; exact progress.bounded serviceId
  fresh serviceId member := by rw [raisedIn_kept serviceId unscaled]; exact progress.fresh serviceId member

theorem Progress.finished (progress : Progress registry log subJob services remaining) :
    ScalePhase.Fits registry log (.finished subJob services) := ⟨progress.picked, progress.listed, progress.bounded⟩

/-- The first service is dealt with. -/
theorem Progress.tail {service : Service} (progress : Progress registry log subJob services (service :: remaining))
    (known : (registry.getScaler service.providerType).isSome) : Progress registry log subJob services remaining where
  picked := progress.picked
  toScale := progress.toScale
  listed := progress.listed
  nodup := (List.nodup_cons.mp progress.nodup).2
  done := by
    obtain ⟨before, split, scaled⟩ := progress.done
    refine ⟨before ++ [service], by rw [split, List.append_assoc, List.singleton_append], fun other member => ?_⟩
    obtain old | new := List.mem_append.mp member
    · exact scaled other old
    · rwa [List.mem_singleton.mp new]
  bounded := progress.bounded
  fresh serviceId member := progress.fresh serviceId (List.mem_cons_of_mem _ member)

/-- The first service is raised, by a step at most. -/
theorem Progress.raised {service : Service} (progress : Progress registry log subJob services (service :: remaining))
    (known : (registry.getScaler service.providerType).isSome) {made : Act} {target : Target} {newCount : ℤ}
    (scaled : made.scaled? = some (service, target, newCount))
    (small : (newCount - (meterIn service.id log).read).toNat ≤ subJob.scaleStep services) :
    Progress registry (log ++ [made]) subJob services remaining := by
  have grows (serviceId : Uuid) : raisedIn serviceId (log ++ [made]) = if service.id = serviceId then
      raisedIn serviceId log + (newCount - (meterIn serviceId log).read).toNat else raisedIn serviceId log := by
    simp only [raisedIn, meterIn_concat, Meter.note, scaled]
  refine { progress.tail known with picked := ?_, listed := ?_, bounded := fun serviceId => ?_, fresh :=
    fun serviceId member => ?_ }
  · rw [pickedIn_concat, progress.picked, Option.some_or]
  · rw [servicesIn?_concat, progress.listed, Option.some_or]
  · rw [grows]
    split
    · next same =>
      subst same
      rw [progress.fresh _ List.mem_cons_self, zero_add]
      exact small
    · exact progress.bounded serviceId
  · have other : service.id ≠ serviceId := by
      rintro rfl
      exact (List.nodup_cons.mp progress.nodup).1 member
    rw [grows, if_neg other]
    exact progress.fresh serviceId (List.mem_cons_of_mem _ member)

theorem scaler_of_targetOf {service : Service} {target : Target} (addressed : registry.targetOf service = some target) :
    (registry.getScaler service.providerType).isSome := by
  unfold ServiceScalerRegistry.targetOf at addressed
  split at addressed
  · cases addressed
  · next found => rw [found]; rfl
  · next found => rw [found]; rfl

theorem not_hasScaled_concat {made : Act} (unscaled : ¬ HasScaled log) (none : made.scaled? = none) :
    ¬ HasScaled (log ++ [made]) := by
  rw [hasScaled_concat, none]
  exact fun scaled => scaled.elim unscaled (by simp)

theorem Op.Plain.unscaled {op : Op} (plain : op.Plain) (reply : op.Reply) : Act.scaled? ⟨op, reply⟩ = none := by
  cases op <;> first | exact plain.elim | rfl

theorem wrapU64_sub_le {count : ℕ} {amount : ℤ} {scaleEachBy : ℕ} (positive : 0 ≤ amount) (bounded : amount ≤ scaleEachBy) :
    ((wrapU64 (count + if 0 ≤ amount then amount.toNat else 0) : ℤ) - count).toNat ≤ scaleEachBy := by
  rw [if_pos positive]
  have wrapped : wrapU64 (count + amount.toNat) ≤ count + amount.toNat := Nat.mod_le ..
  omega

/-- What is known when a service's count has been read: the aim is within a step. -/
theorem aim_of_count {op : Op} {service : Service} {target : Target} {reply : op.Reply} {scaleEachBy : ℕ}
    {count newCount : ℤ} (counts : op.count? = some (service, target)) (credible : Act.Plausible ⟨op, reply⟩)
    (aimed : Act.aim? (scaleAmount scaleEachBy) ⟨op, reply⟩ = some (count, newCount)) :
    Act.counted? ⟨op, reply⟩ = some (service, target, count) ∧ (newCount - count).toNat ≤ scaleEachBy := by
  cases op <;> try cases counts
  · rcases reply with e | (_ | info) <;> cases aimed
    exact ⟨rfl, wrapI32_sub_le credible (scaleAmount_nonneg _) (scaleAmount_le _)⟩
  · rcases reply with e | count <;> cases aimed
    exact ⟨rfl, wrapU64_sub_le (scaleAmount_nonneg _) (scaleAmount_le _)⟩

theorem unscaled_of_count {op : Op} {service : Service} {target : Target} (counts : op.count? = some (service, target))
    (reply : op.Reply) : Act.scaled? ⟨op, reply⟩ = none := by
  cases op <;> first | rfl | cases counts

theorem scaled_of_asks {op : Op} {service : Service} {target : Target} {newCount : ℤ} {reply : op.Reply}
    (asks : op.scale? = some (service, target, newCount)) (scaled : (Act.scaled? ⟨op, reply⟩).isSome) :
    Act.scaled? ⟨op, reply⟩ = some (service, target, newCount) := by
  obtain ⟨asked, found⟩ := Option.isSome_iff_exists.mp scaled
  rw [found, ← asks]
  exact (Act.scale_of_scaled found).symm

theorem progress_of_listed {made : Act} (picked : pickedIn log = some subJob) (toScale : subJob.ToScale)
    (listed : servicesIn? (log ++ [made]) = some services) (nodup : (services.map (·.id)).Nodup)
    (unscaled : ¬ HasScaled (log ++ [made])) : Progress registry (log ++ [made]) subJob services services where
  picked := by rw [pickedIn_concat, picked, Option.some_or]
  toScale := toScale
  listed := listed
  nodup := nodup
  done := ⟨[], rfl, fun _ member => absurd member List.not_mem_nil⟩
  bounded serviceId := by rw [raisedIn_of_unscaled serviceId unscaled]; exact Nat.zero_le _
  fresh serviceId _ := raisedIn_of_unscaled serviceId unscaled

/-- The log of a tick fits the phase. -/
theorem ScalePhase.Fits.note {phase : ScalePhase} {op : Op} (fits : phase.Fits registry log)
    (legal : ScaleLegal registry .subJobTick phase op) (reply : op.Reply) (credible : Act.Plausible ⟨op, reply⟩) :
    (phase.note ⟨op, reply⟩).Fits registry (log ++ [⟨op, reply⟩]) := by
  cases legal with
  | apart => exact fits.elim
  | pick =>
    obtain ⟨unpicked, unlisted, unscaled⟩ := fits
    have still : ¬ HasScaled (log ++ [⟨.sql .getFirstUnfinishedSubJob, reply⟩]) := not_hasScaled_concat unscaled rfl
    have quiet : servicesIn? (log ++ [⟨.sql .getFirstUnfinishedSubJob, reply⟩]) = none := by
      rw [servicesIn?_concat, unlisted]
      rfl
    cases reply with
    | error e => exact ⟨by rw [pickedIn_concat, unpicked]; rfl, quiet, still⟩
    | ok subJob =>
      have picked : pickedIn (log ++ [⟨.sql .getFirstUnfinishedSubJob, .ok subJob⟩]) = some subJob := by
        rw [pickedIn_concat, unpicked]
        rfl
      simp only [ScalePhase.note]
      split
      · next toScale => exact ⟨picked, toScale, quiet, still⟩
      · exact ⟨picked, still⟩
  | other plain =>
    exact ⟨by rw [pickedIn_concat, fits.1, Option.some_or], not_hasScaled_concat fits.2 (plain.unscaled reply)⟩
  | @prepare subJob op plain =>
    obtain ⟨picked, toScale, unlisted, unscaled⟩ := fits
    have still := not_hasScaled_concat unscaled (plain.unscaled reply)
    cases now : servicesIn? [⟨op, reply⟩] with
    | some services =>
      obtain ⟨topic, same⟩ := eq_of_servicesIn? now
      cases same
      exact ⟨progress_of_listed picked toScale (by rw [servicesIn?_concat, unlisted]; rfl) credible still, still⟩
    | none =>
      have noted : ScalePhase.note (.picked subJob) ⟨op, reply⟩ = .picked subJob := by
        unfold ScalePhase.note
        split <;> grind [servicesIn?]
      rw [noted]
      exact ⟨by rw [pickedIn_concat, picked, Option.some_or], toScale, by rw [servicesIn?_concat, unlisted, now]; rfl, still⟩
  | @plan subJob services op plain =>
    have noted : ScalePhase.note (.listed subJob services) ⟨op, reply⟩ = .listed subJob services := by
      unfold ScalePhase.note
      split <;> grind [Op.Plain]
    rw [noted]
    exact ⟨fits.1.kept (plain.unscaled reply), not_hasScaled_concat fits.2 (plain.unscaled reply)⟩
  | schedule =>
    cases reply with
    | error e => exact ⟨fits.1.kept rfl, not_hasScaled_concat fits.2 rfl⟩
    | ok done => exact fits.1.kept rfl
  | @count subJob services remaining service target op counts addressed =>
    have known := scaler_of_targetOf addressed
    have kept := fits.kept (unscaled_of_count counts reply)
    simp only [ScalePhase.note]
    split
    · exact kept.finished
    · next count newCount aimed =>
      obtain ⟨counted, small⟩ := aim_of_count counts credible aimed
      split
      · exact kept.tail known
      · refine ⟨kept, small, ?_, known⟩
        simp only [meterIn_concat, Meter.note, counted, ↓reduceIte]
  | raise asks addressed =>
    obtain ⟨progress, small, read, known⟩ := fits
    simp only [ScalePhase.note]
    split
    · next scaled => exact progress.raised known (scaled_of_asks asks scaled) (by rwa [read])
    · next unscaled =>
      exact (progress.kept (Option.not_isSome_iff_eq_none.mp unscaled)).finished
  | stamp => exact fits.kept rfl
  | done => exact (fits.kept rfl).finished
  | @unneeded subJob services =>
    cases services <;> exact (fits.kept rfl).finished
  | unscaled unknown => exact (fits.kept rfl).finished

theorem fits_of_permits (permits : (scaleMonitor registry).Permits .subJobTick log)
    (credible : ∀ made ∈ log, Act.Plausible made) : (log.foldl ScalePhase.note .searching).Fits registry log := by
  induction permits with
  | nil => exact ⟨rfl, rfl, by simp [HasScaled]⟩
  | @concat log op reply earlier legal ih =>
    rw [List.foldl_append]
    exact (ih fun made member => credible made (List.mem_append_left _ member)).note legal reply (credible _ (by simp))

/-! ## Runs -/

/-- The services before the first one without a scaler can all be addressed. -/
def Addressable (registry : ServiceScalerRegistry) (services : List Service) : Prop :=
  ∀ service ∈ services.takeWhile fun service => (registry.getScaler service.providerType).isSome,
    (registry.targetOf service).isSome

/-- The phases of a tick that has raised a service and can go on to the end. -/
def ScalePhase.GoesOn (registry : ServiceScalerRegistry) : ScalePhase → Prop
  | scaling _ _ remaining | raising _ _ _ remaining _ _ => Addressable registry remaining
  | _ => False

/-- What holds of the logs in every run. -/
structure Metered (registry : ServiceScalerRegistry) (pool : System) : Prop where
  tracks : (scaleMonitor registry).TracksAll pool
  credible : ∀ task ∈ pool.tasks, ∀ made ∈ task.log, Act.Plausible made

variable {source target : System} {event : SystemEvent}

theorem Metered.step (metered : Metered registry source) (step : Step (platform registry) source event target) :
    Metered registry target where
  tracks := metered.tracks.step (scaleMonitor_covers registry) step
  credible := step.logged plausible_of_allowed metered.credible

theorem Metered.of_initial {pool : System} (initial : Initial pool) : Metered registry pool where
  tracks := Monitor.tracksAll_of_empty initial.tasks
  credible := by simp [initial.tasks]

/-- A tick at a position, in a phase that its log fits. -/
theorem Metered.fits {pool : System} (metered : Metered registry pool) {position : ℕ} {task : SystemTask}
    (present : pool.tasks[position]? = some task) (tick : task.kind = .subJobTick) :
    ((scaleMonitor registry).phase task).Fits registry task.log := by
  obtain ⟨kind, log, rest⟩ := task
  obtain rfl : kind = .subJobTick := tick
  exact fits_of_permits (metered.tracks position _ present).permits
    (metered.credible _ (List.mem_of_getElem? present))

/-- A tick makes only calls that are legal in its phase. -/
theorem Metered.legal {pool : System} (metered : Metered registry pool) {position : ℕ} {task : SystemTask} {op : Op}
    {next : op.Reply → Prog Calls Unit} (present : pool.tasks[position]? = some task) (tick : task.kind = .subJobTick)
    (awaits : task.rest = .call op next) :
    (scaleMonitor registry).legal .subJobTick ((scaleMonitor registry).phase task) op :=
  tick ▸ (metered.tracks position task present).legal awaits

/-- What a tick has raised is within its step, and nothing if it has scaled nothing. -/
theorem ScalePhase.Fits.bounded {phase : ScalePhase} (fits : phase.Fits registry log) (serviceId : Uuid) :
    raisedIn serviceId log ≤ stepIn log := by
  have ofProgress {services remaining : List Service} {subJob : SubJobWithJob}
      (progress : Progress registry log subJob services remaining) : raisedIn serviceId log ≤ stepIn log := by
    rw [stepIn, progress.picked, servicesIn, progress.listed]
    exact progress.bounded serviceId
  have ofUnscaled (unscaled : ¬ HasScaled log) : raisedIn serviceId log ≤ stepIn log := by
    rw [raisedIn_of_unscaled serviceId unscaled]
    exact Nat.zero_le _
  cases phase with
  | apart => exact fits.elim
  | searching => exact ofUnscaled fits.2.2
  | other => exact ofUnscaled fits.2
  | picked => exact ofUnscaled fits.2.2.2
  | listed => exact ofUnscaled fits.2
  | scaling => exact ofProgress fits
  | raising => exact ofProgress fits.1
  | finished subJob services =>
    rw [stepIn, fits.1, servicesIn, fits.2.1]
    exact fits.2.2 serviceId

/-- The tick at a position has picked the sub-job. -/
def TickOn (pool : System) (subJobId : Uuid) (position : ℕ) (task : SystemTask) : Prop :=
  pool.tasks[position]? = some task ∧ task.kind = .subJobTick ∧
    ∃ subJob, pickedIn task.log = some subJob ∧ subJob.id = subJobId

theorem tickOn_of_ticksOn {pool : System} {subJobId : Uuid} {position : ℕ} {task : SystemTask}
    (present : pool.tasks[position]? = some task) (on : TicksOn subJobId task) : TickOn pool subJobId position task := by
  obtain ⟨subJob, picked, same⟩ := (Option.any_eq_true ..).mp on.2
  exact ⟨present, on.1, subJob, picked, of_decide_eq_true same⟩

/-- The tick at a position may still raise services for a sub-job that it has picked. -/
def MayScale (pool : System) (subJobId : Uuid) (position : ℕ) : Prop :=
  ∃ task subJob, pool.tasks[position]? = some task ∧ task.kind = .subJobTick ∧ task.InFlight ∧
    pickedIn task.log = some subJob ∧ subJob.id = subJobId ∧ subJob.status = .created

/-- Only one tick scales for a sub-job: once it has scaled, it is on its way to writing the status, or the
sub-job is not Created any more. -/
structure ScaledTicks (registry : ServiceScalerRegistry) (pool : System) : Prop where
  settled : ∀ subJobId position task, TickOn pool subJobId position task → HasScaled task.log →
    (∃ phase, (scaleMonitor registry).At pool position .subJobTick phase ∧ phase.GoesOn registry) ∨
      ∃ row, pool.world.subJobs.find? subJobId = some row ∧ row.status ≠ .created
  single : ∀ subJobId position other task, TickOn pool subJobId position task → HasScaled task.log →
    ((∃ task', TickOn pool subJobId other task' ∧ HasScaled task'.log) ∨ MayScale pool subJobId other) →
    other = position

theorem ScalePhase.GoesOn.not_final {phase : ScalePhase} (goesOn : phase.GoesOn registry) : ¬ phase.Final registry := by
  cases phase with
  | scaling subJob services remaining =>
    rintro ⟨service, rest, rfl, known, unaddressed⟩
    have addressed := goesOn service (by simp [known])
    simp [unaddressed] at addressed
  | raising => exact id
  | _ => exact goesOn.elim

theorem Addressable.tail {service : Service} (known : (registry.getScaler service.providerType).isSome)
    (addressable : Addressable registry (service :: services)) : Addressable registry services := by
  intro other member
  apply addressable other
  rw [List.takeWhile_cons, if_pos known]
  exact List.mem_cons_of_mem _ member

theorem Progress.addressable {service : Service}
    (progress : Progress registry log subJob services (service :: remaining))
    (known : (registry.getScaler service.providerType).isSome) (addressable : Addressable registry services) :
    Addressable registry remaining := by
  obtain ⟨before, rfl, scaled⟩ := progress.done
  intro other member
  apply addressable other
  rw [List.takeWhile_append_of_pos scaled, List.takeWhile_cons, if_pos known]
  exact List.mem_append_right _ (List.mem_cons_of_mem _ member)

/-- What a tick that has raised a service does next, if that does not fail. -/
theorem goesOn_note {w : World} {phase : ScalePhase} {op : Op} {reply : op.Reply} (fits : phase.Fits registry log)
    (legal : ScaleLegal registry .subJobTick phase op) (goesOn : phase.GoesOn registry)
    (succeeds : ¬ Act.Failed ⟨op, reply⟩) (present : ∀ subJob, pickedIn log = some subJob → subJob.ToScale →
      ∃ row, w.subJobs.find? subJob.id = some row) :
    (phase.note ⟨op, reply⟩).GoesOn registry ∨ ∃ subJob, pickedIn log = some subJob ∧
      ∃ row, (Act.after w ⟨op, reply⟩).subJobs.find? subJob.id = some row ∧ row.status ≠ .created := by
  cases legal with
  | apart | pick | other | prepare | plan | schedule => exact goesOn.elim
  | @count subJob services remaining service target op counts addressed =>
    left
    have tail := Addressable.tail (scaler_of_targetOf addressed) goesOn
    have aims : (Act.aim? (scaleAmount (subJob.scaleStep services)) ⟨op, reply⟩).isSome := by
      cases op <;> try cases counts
      · rcases reply with e | (_ | info) <;> first | exact absurd rfl succeeds | rfl
      · rcases reply with e | count <;> first | exact absurd rfl succeeds | rfl
    obtain ⟨⟨count, newCount⟩, aimed⟩ := Option.isSome_iff_exists.mp aims
    simp only [ScalePhase.note, aimed]
    split <;> exact tail
  | @raise subJob services remaining service target count newCount op asks addressed =>
    left
    have scaled : (Act.scaled? ⟨op, reply⟩).isSome := by
      cases op <;> try cases asks
      · rcases reply with e | (_ | _) <;> first | exact absurd rfl succeeds | rfl
      · rcases reply with e | done <;> first | exact absurd rfl succeeds | rfl
    simp only [ScalePhase.note, scaled, ↓reduceIte]
    exact goesOn
  | stamp => exact .inl goesOn
  | done =>
    obtain ⟨row, found⟩ := present _ fits.picked fits.toScale
    cases reply with
    | error e => exact absurd rfl succeeds
    | ok done => exact .inr ⟨_, fits.picked, notCreated_of_write found (by simp)⟩
  | unneeded =>
    obtain ⟨row, found⟩ := present _ fits.picked fits.toScale
    cases reply with
    | error e => exact absurd rfl succeeds
    | ok done => exact .inr ⟨_, fits.picked, notCreated_of_write found (by simp)⟩
  | unscaled unknown =>
    obtain ⟨row, found⟩ := present _ fits.picked fits.toScale
    cases reply with
    | error e => exact absurd rfl succeeds
    | ok done => exact .inr ⟨_, fits.picked, notCreated_of_write found (by simp)⟩

/-- A tick that raises a service has picked a sub-job to scale, and goes on if its services can all be addressed. -/
theorem goesOn_first {phase : ScalePhase} {op : Op} {reply : op.Reply} (fits : phase.Fits registry log)
    (legal : ScaleLegal registry .subJobTick phase op) (scaled : (Act.scaled? ⟨op, reply⟩).isSome) :
    (∃ subJob, pickedIn log = some subJob ∧ subJob.ToScale) ∧
      (Addressable registry (servicesIn log) → (phase.note ⟨op, reply⟩).GoesOn registry) := by
  cases legal with
  | apart => exact fits.elim
  | other plain | prepare plain | plan plain => simp [plain.unscaled reply] at scaled
  | count counts addressed => simp [unscaled_of_count counts reply] at scaled
  | pick | schedule | stamp | done | unneeded | unscaled => cases scaled
  | raise asks addressed =>
    obtain ⟨progress, -, -, known⟩ := fits
    refine ⟨⟨_, progress.picked, progress.toScale⟩, fun addressable => ?_⟩
    rw [servicesIn, progress.listed] at addressable
    simp only [ScalePhase.note, scaled, ↓reduceIte]
    exact progress.addressable known addressable

theorem ScalePhase.Fits.picked_of_scaled {phase : ScalePhase} (fits : phase.Fits registry log) (scaled : HasScaled log) :
    ∃ subJob, pickedIn log = some subJob := by
  cases phase with
  | apart => exact fits.elim
  | searching => exact absurd scaled fits.2.2
  | other | picked | finished => exact ⟨_, fits.1⟩
  | listed => exact ⟨_, fits.1.picked⟩
  | scaling => exact ⟨_, fits.picked⟩
  | raising => exact ⟨_, fits.1.picked⟩

/-- A tick that has scaled had done so before the step, or has just raised its first service. -/
theorem Metered.scaled_before (metered : Metered registry source) (step : Step (platform registry) source event target)
    {subJobId : Uuid} {position : ℕ} {task : SystemTask} (on : TickOn target subJobId position task)
    (scaled : HasScaled task.log) :
    (∃ before, TickOn source subJobId position before ∧ HasScaled before.log) ∨ MayScale source subJobId position := by
  obtain ⟨present, tick, subJob, picked, same⟩ := on
  obtain old | ⟨kind, -, -, rfl⟩ | ⟨before, op, next, reply, old, awaits, -, -, rfl⟩ := step.task_cases present
  · exact .inl ⟨task, ⟨old, tick, subJob, picked, same⟩, scaled⟩
  · obtain ⟨made, member, -⟩ := scaled
    cases member
  · have fits := metered.fits old tick
    have legal := metered.legal old tick awaits
    rw [pickedIn_concat] at picked
    by_cases earlier : HasScaled before.log
    · obtain ⟨subJob', picked'⟩ := fits.picked_of_scaled earlier
      rw [picked', Option.some_or] at picked
      exact .inl ⟨before, ⟨old, tick, subJob, picked'.trans picked, same⟩, earlier⟩
    · have now := (hasScaled_concat.mp scaled).resolve_left earlier
      obtain ⟨⟨subJob', picked', toScale⟩, -⟩ := goesOn_first fits legal now
      rw [picked', Option.some_or, Option.some.injEq] at picked
      subst picked
      exact .inr ⟨before, subJob', old, tick, ⟨op, next, awaits⟩, picked', same, toScale.2⟩

/-- A tick that may scale could do so before the step, or has just picked a Created sub-job. -/
theorem mayScale_before (step : Step (platform registry) source event target) {subJobId : Uuid} {position : ℕ}
    (may : MayScale target subJobId position) :
    MayScale source subJobId position ∨ (source.Flies position .subJobTick ∧
      ∃ row, source.world.subJobs.find? subJobId = some row ∧ row.status = .created) := by
  obtain ⟨task, subJob, present, tick, flying, picked, rfl, created⟩ := may
  obtain old | ⟨kind, -, -, rfl⟩ | ⟨before, op, next, reply, old, awaits, -, allowed, rfl⟩ := step.task_cases present
  · exact .inl ⟨task, subJob, old, tick, flying, picked, rfl, created⟩
  · cases picked
  · rw [pickedIn_concat] at picked
    obtain earlier | ⟨-, now⟩ := Option.or_eq_some_iff.mp picked
    · exact .inl ⟨before, subJob, old, tick, ⟨op, next, awaits⟩, earlier, rfl, created⟩
    · rw [eq_of_pickedIn now] at allowed
      obtain ⟨row, known, -, same⟩ := picked_row allowed
      exact .inr ⟨⟨before, old, tick, op, next, awaits⟩, row, known, (congrArg SubJob.status same).symm.trans created⟩

theorem MayScale.flies {pool : System} {subJobId : Uuid} {position : ℕ} (may : MayScale pool subJobId position) :
    pool.Flies position .subJobTick := by
  obtain ⟨task, subJob, present, tick, flying, -⟩ := may
  exact ⟨task, present, tick, flying⟩

theorem ScaledTicks.single_step (sound : Sound source) (metered : Metered registry source)
    (ticks : ScaledTicks registry source) (step : Step (platform registry) source event target) {subJobId : Uuid}
    {position other : ℕ} {task : SystemTask} (on : TickOn target subJobId position task) (scaled : HasScaled task.log)
    (rival : (∃ task', TickOn target subJobId other task' ∧ HasScaled task'.log) ∨ MayScale target subJobId other) :
    other = position := by
  have picksCreated (flies : source.Flies other .subJobTick)
      (created : ∃ row, source.world.subJobs.find? subJobId = some row ∧ row.status = .created) : other = position := by
    obtain ⟨before, on, scaled⟩ | may := metered.scaled_before step on scaled
    · obtain ⟨phase, here, -⟩ | ⟨row, found, notCreated⟩ := ticks.settled subJobId position before on scaled
      · exact sound.latest.alone flies here.flies
      · obtain ⟨row', found', created⟩ := created
        obtain rfl : row = row' := Option.some.inj (found.symm.trans found')
        exact absurd created notCreated
    · exact sound.latest.alone flies may.flies
  have rivals (rival : (∃ task', TickOn source subJobId other task' ∧ HasScaled task'.log) ∨ MayScale source subJobId other) :
      other = position := by
    obtain ⟨before, on, scaled⟩ | may := metered.scaled_before step on scaled
    · exact ticks.single subJobId position other before on scaled rival
    · obtain ⟨task', on', scaled'⟩ | may' := rival
      · exact (ticks.single subJobId other position task' on' scaled' (.inr may)).symm
      · exact sound.latest.alone may'.flies may.flies
  obtain ⟨task', on', scaled'⟩ | may := rival
  · exact rivals (metered.scaled_before step on' scaled')
  · obtain may | ⟨flies, created⟩ := mayScale_before step may
    · exact rivals (.inr may)
    · exact picksCreated flies created

theorem ScaledTicks.settled_step (sound : Sound source) (metered : Metered registry source)
    (ticks : ScaledTicks registry source) (uninterrupted : Uninterrupted registry source event)
    (step : Step (platform registry) source event target) {subJobId : Uuid} {position : ℕ} {task : SystemTask}
    (on : TickOn target subJobId position task) (scaled : HasScaled task.log) :
    (∃ phase, (scaleMonitor registry).At target position .subJobTick phase ∧ phase.GoesOn registry) ∨
      ∃ row, target.world.subJobs.find? subJobId = some row ∧ row.status ≠ .created := by
  obtain ⟨present, tick, subJob, picked, rfl⟩ := on
  obtain old | ⟨kind, -, -, rfl⟩ | ⟨before, op, next, reply, old, awaits, rfl, -, rfl⟩ := step.task_cases present
  · obtain ⟨phase, ⟨same, present', flying, kind, reached⟩, goesOn⟩ | notCreated :=
      ticks.settled subJob.id position task ⟨old, tick, subJob, picked, rfl⟩ scaled
    · obtain rfl : same = task := Option.some.inj (present'.symm.trans old)
      exact .inl ⟨phase, ⟨same, present, flying, kind, reached⟩, goesOn⟩
    · exact .inr (notCreated_step sound step notCreated)
  · obtain ⟨made, member, -⟩ := scaled
    cases member
  · have fits := metered.fits old tick
    have legal := metered.legal old tick awaits
    have here : (scaleMonitor registry).At source position .subJobTick ((scaleMonitor registry).phase before) :=
      ⟨before, old, ⟨op, next, awaits⟩, tick, rfl⟩
    have lands (goesOn : (((scaleMonitor registry).phase before).note ⟨op, reply⟩).GoesOn registry) :
        ∃ phase, (scaleMonitor registry).At target position .subJobTick phase ∧ phase.GoesOn registry :=
      ⟨_, (here.after (scaleMonitor_covers registry) metered.tracks step).resolve_right goesOn.not_final, goesOn⟩
    obtain ⟨-, -, -, -, -, reached⟩ := metered.tracks.legal step
    by_cases earlier : HasScaled before.log
    · obtain ⟨subJob', picked'⟩ := fits.picked_of_scaled earlier
      rw [pickedIn_concat, picked', Option.some_or] at picked
      obtain rfl := Option.some.inj picked
      obtain ⟨phase, there, goesOn⟩ | notCreated := ticks.settled _ position before ⟨old, tick, _, picked', rfl⟩ earlier
      · obtain rfl := (there.unique here).2
        have succeeds := uninterrupted.calls position before _ rfl old tick earlier
        have known (subJob : SubJobWithJob) (picked : pickedIn before.log = some subJob) (toScale : subJob.ToScale) :
            ∃ row, source.world.subJobs.find? subJob.id = some row :=
          sound.row_of_dispatching ⟨subJob, ⟨before, List.mem_of_getElem? old, tick, ⟨op, next, awaits⟩, picked⟩,
            toScale.2, rfl⟩
        obtain goesOn | ⟨subJob, picked, written⟩ := goesOn_note fits legal goesOn succeeds known
        · exact .inl (lands goesOn)
        · obtain rfl := Option.some.inj (picked.symm.trans picked')
          right
          rw [reached]
          exact written
      · exact .inr (notCreated_step sound step notCreated)
    · have now := (hasScaled_concat.mp scaled).resolve_left earlier
      exact .inl (lands ((goesOn_first fits legal now).2 (uninterrupted.services position before _ rfl old tick now)))

theorem ScaledTicks.of_initial {pool : System} (initial : Initial pool) : ScaledTicks registry pool where
  settled := by
    rintro _ position task ⟨present, -⟩
    simp [initial.tasks] at present
  single := by
    rintro _ position other task ⟨present, -⟩
    simp [initial.tasks] at present

theorem scaledTicks_run {events : List SystemEvent} (initial : Initial source)
    (run : Run (platform registry) (Uninterrupted registry) source events target) :
    Metered registry target ∧ ScaledTicks registry target := by
  refine (sound_invariant (I := fun pool => Metered registry pool ∧ ScaledTicks registry pool) run ?_
    (Sound.of_initial initial) ⟨.of_initial initial, .of_initial initial⟩).2
  rintro pool event next sound ⟨metered, ticks⟩ uninterrupted step
  exact ⟨metered.step step, fun _ _ _ on scaled => ticks.settled_step sound metered uninterrupted step on scaled,
    fun _ _ _ _ on scaled rival => ticks.single_step sound metered step on scaled rival⟩

/-! ## The sum over all ticks -/

/-- If at most one summand is not zero, the sum is within any bound of the summands. -/
theorem sum_le_of_single {α : Type} {xs : List α} {amount bound : α → ℕ} (within : ∀ x ∈ xs, amount x ≤ bound x)
    (single : ∀ (i j : ℕ) (x y : α), xs[i]? = some x → xs[j]? = some y → amount x ≠ 0 → amount y ≠ 0 → i = j) :
    (xs.map amount).sum ≤ (xs.map bound).foldr max 0 := by
  induction xs with
  | nil => exact le_refl _
  | cons x xs ih =>
    have rest := ih (fun y member => within y (List.mem_cons_of_mem _ member)) fun i j y z here there left right => by
      have := single (i + 1) (j + 1) y z (List.getElem?_cons_succ.trans here) (List.getElem?_cons_succ.trans there) left right
      omega
    simp only [List.map_cons, List.sum_cons, List.foldr_cons]
    by_cases zero : amount x = 0
    · rw [zero, zero_add]
      exact rest.trans (Nat.le_max_right ..)
    · have others : (xs.map amount).sum = 0 := by
        apply List.sum_eq_zero
        intro value member
        obtain ⟨y, later, rfl⟩ := List.mem_map.mp member
        obtain ⟨j, there⟩ := List.mem_iff_getElem?.mp later
        by_contra other
        have := single 0 (j + 1) x y rfl (List.getElem?_cons_succ.trans there) zero other
        omega
      rw [others, add_zero]
      exact (within x List.mem_cons_self).trans (Nat.le_max_left ..)

theorem scaledOnce_of_uninterrupted (registry : ServiceScalerRegistry) :
    ScaledOnce registry (Uninterrupted registry) := by
  intro source target events subJobId serviceId initial run
  obtain ⟨metered, ticks⟩ := scaledTicks_run initial run
  have raises {position : ℕ} {task : SystemTask} (present : target.tasks[position]? = some task)
      (raised : (if TicksOn subJobId task then raisedIn serviceId task.log else 0) ≠ 0) :
      TickOn target subJobId position task ∧ HasScaled task.log := by
    split at raised
    · next on =>
      refine ⟨tickOn_of_ticksOn present on, ?_⟩
      by_contra unscaled
      exact raised (raisedIn_of_unscaled serviceId unscaled)
    · exact absurd rfl raised
  refine sum_le_of_single (fun task member => ?_) fun i j task other here there left right => ?_
  · split
    · next on =>
      obtain ⟨position, present⟩ := List.mem_iff_getElem?.mp member
      exact (metered.fits present on.1).bounded serviceId
    · exact le_refl _
  · obtain ⟨on, scaled⟩ := raises here left
    exact ticks.single subJobId j i other (raises there right).1 (raises there right).2 (.inl ⟨task, on, scaled⟩)

/-! ## Runs of the sample -/

/-- Two services of the topic "eu", and the worker of the sample, which is offline. -/
def twoServices : System :=
  let other : Service := { sampleService with id := 101, name := "eu-workers-2" }
  ⟨{ sampleWorld .offline with
    services := (Table.empty.insert sampleService).insert other
    serviceTopics := (Table.empty.insert (100, "eu")).insert (101, "eu") }, []⟩

theorem initial_twoServices : Initial twoServices := by
  constructor <;> rfl

/-- No call fails, and every service that a tick has listed can be addressed. -/
def runsThrough (registry : ServiceScalerRegistry) (pool : System) : SystemEvent → Bool
  | .call _ made => !Act.fails made && pool.tasks.all fun task =>
      (servicesIn task.log).all fun service => (registry.targetOf service).isSome
  | _ => true

theorem uninterrupted_of_runsThrough {pool : System} {event : SystemEvent}
    (check : runsThrough registry pool event = true) : Uninterrupted registry pool event where
  calls := by
    rintro position task made rfl - - - failed
    simp [runsThrough, show made.fails = true from failed] at check
  services := by
    rintro position task made rfl present - - service member
    have all := ((Bool.and_eq_true ..).mp check).2
    exact List.all_eq_true.mp (List.all_eq_true.mp all task (List.mem_of_getElem? present)) service
      (List.takeWhile_subset _ member)

/-- Both services are raised by one tick. -/
theorem scaledOnce_twoServices : ∃ events target,
    Run (platform ⟨false⟩) (Uninterrupted ⟨false⟩) twoServices events target ∧ 0 < raisedFor target 2 100 ∧
      raisedFor target 2 100 ≤ stepFor target 2 := by
  have replayed : ((replay ⟨false⟩ (runsThrough ⟨false⟩) twoServices (sampleCreation ++ sampleTick 1 12)).any
      fun target => decide (0 < raisedFor target 2 100)) = true := by
    decide +kernel
  obtain ⟨events, target, run, found⟩ := exists_run_of_replay replayed
  have run' := run.mono fun _ _ => uninterrupted_of_runsThrough
  exact ⟨events, target, run', of_decide_eq_true found,
    scaledOnce_of_uninterrupted ⟨false⟩ 2 100 initial_twoServices run'⟩

/-- The second service cannot be read, and the next tick raises the first one again. -/
theorem not_scaledOnce : ¬ ScaledOnce ⟨false⟩ fun pool event => spawnsOnly Kind.ofJobs pool event = true := by
  intro once
  have replayed : ((replay ⟨false⟩ (spawnsOnly Kind.ofJobs) twoServices
      (sampleCreation ++ sampleTick 1 8 ++ .fail 1 :: sampleTick 2 8)).any
      fun target => decide (stepFor target 2 < raisedFor target 2 100)) = true := by
    decide +kernel
  obtain ⟨events, target, run, found⟩ := exists_run_of_replay replayed
  exact absurd (once 2 100 initial_twoServices run) (Nat.not_le.mpr (of_decide_eq_true found))

end Bms
