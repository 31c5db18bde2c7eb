import Bms.Model.Replay
import Bms.Protocol.JobCoverage

/-! # Reaching the target

What a tick has read and called before it ends a scaling sub-job or starts to wait for workers. The
number of workers to wait for is computed anew from the services of each tick, but it is never less
than the target, and the services of the tick that scales share the target evenly.
-/

namespace Bms

open Process Fallible

/-- The largest length of a vector. -/
def isizeMax : ℕ := 2 ^ 63 - 1

/-- The list of workers online that a call has read. -/
def Act.online? : Act → Option (List String)
  | ⟨.sql (.getWorkersOnlineWithTopic _), .ok workers⟩ => some workers
  | _ => none

/-- The list of services that a call has read. -/
def Act.listed? : Act → Option (List Service)
  | ⟨.sql (.getServicesEnabledByTopic _), .ok services⟩ => some services
  | _ => none

/-- The tick has picked the sub-job. -/
def Picked (log : List Act) (subJob : SubJobWithJob) : Prop :=
  log.head? = some ⟨.sql .getFirstUnfinishedSubJob, .ok subJob⟩

/-- The services have been scaled up by the same amount, one after the other. -/
inductive ScaledUp (registry : ServiceScalerRegistry) (amount : ℤ) : List Service → List Act → Prop
  | nil : ScaledUp registry amount [] []
  | cons {service : Service} {services : List Service} {scaler : ServiceScaler} {first rest : List Act}
      (known : registry.getScaler service.providerType = some scaler)
      (run : (scaler.scaleUp service amount).run.Reaches first (.ret (.ok ())))
      (others : ScaledUp registry amount services rest) : ScaledUp registry amount (service :: services) (first ++ rest)

/-- One list of workers has been read, and it has at least as many as the target. -/
def EnoughOnline (log : List Act) (target : ℤ) : Prop :=
  ∃ workers, log.filterMap Act.online? = [workers] ∧ target ≤ workers.length

/-- One list of services has been read, and all of them have been scaled up by their share of the target,
as far as it fits into 32 bits. -/
def Shared (registry : ServiceScalerRegistry) (log : List Act) (target : ℤ) : Prop :=
  ∃ (services : List Service) (share : ℕ) (before made after : List Act),
    log.filterMap Act.listed? = [services] ∧ log = before ++ made ++ after ∧
      ScaledUp registry ((tryIntoI32 share).getD 0) services made ∧
      1 ≤ share ∧ target ≤ share * services.length ∧ share * services.length < target + services.length ∧
      (target < 2 ^ 31 → (tryIntoI32 share).getD 0 = share)

/-- What a tick has done that calls a statement for a scaling sub-job with a target. -/
def OnTarget (registry : ServiceScalerRegistry) (log : List Act) (op : Op) : Prop :=
  ∀ (subJob : SubJobWithJob) (target : ℤ), Picked log subJob → subJob.type = .scaling →
    subJob.job.details.targetWorkerCount = some target → 1 ≤ target → IsI64 target →
    (∀ services ∈ log.filterMap Act.listed?, services.length ≤ isizeMax) →
    (∀ status ∈ [SubJobStatus.completed, .canceled], op = .sql (.updateSubJobStatus subJob.id status) →
      EnoughOnline log target) ∧
    ∀ deadline, op = .sql (.updateSubJobStatusAndDeadline subJob.id .processing deadline) → Shared registry log target

/-! ## The plan -/

/-- The step is the target's share, rounded up, and the expected workers are at least the target. -/
theorem scalePlan_share {target : ℤ} {serviceCount : ℕ} (positive : 1 ≤ target) (range : IsI64 target)
    (some : 0 < serviceCount) (fits : serviceCount ≤ isizeMax) :
    ∃ share : ℕ, scalePlan target serviceCount = (share, share * serviceCount) ∧ 1 ≤ share ∧
      target ≤ share * serviceCount ∧ share * serviceCount < target + serviceCount := by
  obtain ⟨count, rfl⟩ := Int.eq_ofNat_of_zero_le (zero_le_one.trans positive)
  have cast : castU64 count = count := by
    unfold castU64
    unfold IsI64 at range
    omega
  have most := Nat.div_mul_le_self (count + serviceCount - 1) serviceCount
  have least : count ≤ (count + serviceCount - 1) / serviceCount * serviceCount := by
    have reached := Nat.lt_div_mul_add some (a := count + serviceCount - 1)
    omega
  have wraps : wrapU64 ((count + serviceCount - 1) / serviceCount * serviceCount) =
      (count + serviceCount - 1) / serviceCount * serviceCount := by
    apply Nat.mod_eq_of_lt
    unfold IsI64 at range
    unfold isizeMax at fits
    omega
  refine ⟨(count + serviceCount - 1) / serviceCount, ?_, ?_, ?_, ?_⟩
  · rw [scalePlan, cast, wraps]
  · apply Nat.one_le_iff_ne_zero.mpr
    intro zero
    rw [zero] at least
    omega
  · exact_mod_cast least
  · have less : (count + serviceCount - 1) / serviceCount * serviceCount < count + serviceCount := by omega
    exact_mod_cast less

/-- A share of a target below 2^31 survives the conversion. -/
theorem scaleAmount_share {target : ℤ} {share serviceCount : ℕ} (some : 0 < serviceCount)
    (shared : (share * serviceCount : ℤ) < target + serviceCount) (small : target < 2 ^ 31) :
    (tryIntoI32 share).getD 0 = share := by
  have bound : (share : ℤ) ≤ i32Max := by
    unfold i32Max
    by_contra exceeds
    have product : 2 ^ 31 * (serviceCount : ℤ) ≤ share * serviceCount :=
      Int.mul_le_mul_of_nonneg_right (by omega) (by omega)
    generalize (share * serviceCount : ℤ) = expected at shared product
    omega
  rw [tryIntoI32, if_pos ⟨by omega, bound⟩]
  rfl

/-! ## The calls of a tick -/

/-- A statement that neither ends a sub-job nor sets its deadline, or another call. -/
def Op.Neutral : Op → Prop
  | .sql (.updateSubJobStatus ..) | .sql (.updateSubJobStatusAndDeadline ..) => False
  | _ => True

variable {registry : ServiceScalerRegistry} {log : List Act} {subJob : SubJobWithJob}

theorem onTarget_of_neutral {op : Op} (neutral : op.Neutral) : OnTarget registry log op := by
  intro subJob target picked type aimed positive range fits
  constructor
  · rintro status ended rfl
    exact neutral.elim
  · rintro deadline rfl
    exact neutral.elim

theorem Op.Provider.neutral {op : Op} (provider : op.Provider) : op.Neutral := by
  cases op <;> first | exact provider.elim | trivial

/-- Scaling up reads no list of services. -/
theorem ScaledUp.unlisted {amount : ℤ} {services : List Service} {made : List Act}
    (scaled : ScaledUp registry amount services made) : made.filterMap Act.listed? = [] := by
  induction scaled with
  | nil => rfl
  | cons known run others ih =>
    rw [List.filterMap_append, ih, List.append_nil, List.filterMap_eq_nil_iff]
    intro call member
    have provider := Prog.Only.reaches (provider_scaleUp ..) run call member
    obtain ⟨op, reply⟩ := call
    cases op <;> first | exact provider.elim | rfl

/-- The loop over the services scales up each of them, or stops. -/
theorem scaleUpServices_logs (scaleEachBy : ℕ) (services : List Service) :
    (scaleUpServices registry scaleEachBy services).Obeys logged (OnTarget registry) log
      (fun _ later => ∃ made, later = log ++ made ∧ ScaledUp registry ((tryIntoI32 scaleEachBy).getD 0) services made)
      fun _ _ => True := by
  induction services generalizing log with
  | nil => exact ⟨[], (List.append_nil log).symm, .nil⟩
  | cons service services ih =>
    unfold scaleUpServices
    cases known : registry.getScaler service.providerType with
    | none => trivial
    | some scaler =>
      refine (obeys_bind ..).mpr ((obeys_mapError ..).mpr ?_)
      apply Prog.Obeys.mono (Prog.Only.logs (provider_scaleUp ..)
        (fun _ _ provider => onTarget_of_neutral provider.neutral) log)
      rintro (e | done) later ⟨first, rfl, run⟩
      · trivial
      · apply ih.mono
        · rintro done later ⟨rest, rfl, others⟩
          exact ⟨first ++ rest, List.append_assoc .., .cons known run others⟩
        · exact fun _ _ _ => trivial

/-- The error with which a step stops is recorded, or not. -/
theorem settle_onTarget (outcome : Except SubJobHandlerError Unit) :
    (settle subJob outcome).Obeys logged (OnTarget registry) log fun _ _ => True := by
  rcases outcome with (message | message) | done
  · trivial
  · exact ⟨onTarget_of_neutral trivial, fun reply => trivial⟩
  · trivial

/-- A topic is read from the details without a call that returns. -/
theorem getTopic_onTarget {good : String → List Act → Prop} (goes : ∀ topic, good topic log) :
    (getTopic subJob).Obeys logged (OnTarget registry) log good fun _ _ => True := by
  unfold getTopic
  cases subJob.details.get? "topic" with
  | none => trivial
  | some topic =>
    apply (obeys_unwrap ..).mpr
    cases topic.asStr? with
    | none => exact onTarget_of_neutral trivial
    | some topic => exact goes topic

/-- The services and workers are read, in this order, and the plan is made from them. -/
theorem getServicesAndWorkers_logs :
    (getServicesAndWorkers subJob).Obeys logged (OnTarget registry) log
      (fun plan later => ∃ topic target, subJob.job.details.targetWorkerCount = some target ∧ 0 < plan.1.length ∧
        (plan.2.2.2, plan.2.2.1) = scalePlan target plan.1.length ∧
        later = log ++ [⟨.sql (.getServicesEnabledByTopic topic), .ok plan.1⟩,
          ⟨.sql (.getWorkersOnlineWithTopic topic), .ok plan.2.1⟩])
      fun _ _ => True := by
  refine (obeys_bind ..).mpr (getTopic_onTarget fun topic => ?_)
  refine (obeys_bind ..).mpr ((obeys_bind ..).mpr ((obeys_attempt ..).mpr ⟨onTarget_of_neutral trivial, ?_⟩))
  intro reply
  cases reply with
  | error e => trivial
  | ok services =>
    refine .ite (fun _ => trivial) fun some => ?_
    refine (obeys_bind ..).mpr ((obeys_attempt ..).mpr ⟨onTarget_of_neutral trivial, fun reply => ?_⟩)
    cases reply with
    | error e => trivial
    | ok workersOnline =>
      cases aimed : subJob.job.details.targetWorkerCount with
      | none => trivial
      | some target =>
        refine ⟨topic, target, rfl, ?_, rfl, List.append_assoc ..⟩
        cases services with
        | nil => exact absurd rfl some
        | cons service services => exact Nat.succ_pos _

/-- Where the workers online are as many as the plan expects, they are as many as the target. -/
theorem enoughOnline_of_plan {target : ℤ} {services : List Service} {workers : List String}
    {workersCount scaleEachBy : ℕ} (listed : services ∈ log.filterMap Act.listed?) (read : log.filterMap Act.online? = [workers])
    (some : 0 < services.length)
    (plan : (scaleEachBy, workersCount) = scalePlan target services.length) (enough : workersCount ≤ workers.length)
    (positive : 1 ≤ target) (range : IsI64 target)
    (fits : ∀ services ∈ log.filterMap Act.listed?, services.length ≤ isizeMax) : EnoughOnline log target := by
  obtain ⟨share, planned, -, reached, -⟩ := scalePlan_share positive range some (fits services listed)
  rw [planned] at plan
  cases plan
  refine ⟨workers, read, reached.trans ?_⟩
  exact_mod_cast enough

/-- A tick that has found enough workers online may end its sub-job. -/
theorem onTarget_of_enough {id : Uuid} {status : SubJobStatus} {target : ℤ} {services : List Service}
    {workers : List String} {workersCount scaleEachBy : ℕ} (picked : Picked log subJob)
    (aimed : subJob.job.details.targetWorkerCount = some target) (listed : services ∈ log.filterMap Act.listed?)
    (read : log.filterMap Act.online? = [workers]) (some : 0 < services.length)
    (plan : (scaleEachBy, workersCount) = scalePlan target services.length) (enough : workersCount ≤ workers.length) :
    OnTarget registry log (.sql (.updateSubJobStatus id status)) := by
  intro other target' picked' type aimed' positive range fits
  cases picked.symm.trans picked'
  cases aimed.symm.trans aimed'
  constructor
  · intro status ended same
    exact enoughOnline_of_plan listed read some plan enough positive range fits
  · intro deadline same
    cases same

theorem processScalingCreated_onTarget :
    (processScalingCreated registry subJob).Obeys logged (OnTarget registry)
      [⟨.sql .getFirstUnfinishedSubJob, .ok subJob⟩] (fun _ _ => True) fun _ _ => True := by
  refine (obeys_bind ..).mpr (getServicesAndWorkers_logs.mono ?_ fun _ _ _ => trivial)
  rintro ⟨services, workersOnline, workersCount, scaleEachBy⟩ later ⟨topic, target, aimed, some, plan, rfl⟩
  refine (obeys_bind ..).mpr ((obeys_attempt ..).mpr ⟨onTarget_of_neutral trivial, fun reply => ?_⟩)
  cases reply with
  | error e => trivial
  | ok counted =>
    refine (obeys_bind ..).mpr (obeys_utcNow.mpr ⟨onTarget_of_neutral trivial, fun now => ?_⟩)
    refine (obeys_bind ..).mpr ((obeys_attempt ..).mpr ⟨onTarget_of_neutral trivial, fun reply => ?_⟩)
    cases reply with
    | error e => trivial
    | ok scheduled =>
      refine .ite (fun enough => ?_) fun _ => ?_
      · refine (obeys_attempt ..).mpr ⟨?_, fun reply => by cases reply <;> trivial⟩
        exact onTarget_of_enough rfl aimed (List.mem_singleton_self _) rfl some plan enough
      · refine (obeys_bind ..).mpr ((scaleUpServices_logs scaleEachBy services).mono ?_ fun _ _ _ => trivial)
        rintro done later ⟨made, rfl, scaled⟩
        refine (obeys_bind ..).mpr (obeys_utcNow.mpr ⟨onTarget_of_neutral trivial, fun now => ?_⟩)
        refine (obeys_attempt ..).mpr ⟨?_, fun reply => by cases reply <;> trivial⟩
        rintro other target' picked type aimed' positive range fits
        cases picked
        cases aimed.symm.trans aimed'
        refine ⟨fun status ended same => (by cases same), fun deadline same => ?_⟩
        have listed : Act.listed? ⟨.sql (.getServicesEnabledByTopic topic), .ok services⟩ = Option.some services := rfl
        obtain ⟨share, planned, least, reached, bounded⟩ := scalePlan_share positive range some
          (fits services (List.mem_filterMap.mpr ⟨_, by simp [logged], listed⟩))
        rw [planned] at plan
        obtain ⟨rfl, -⟩ := Prod.mk.inj plan
        refine ⟨services, _, _, made, _, ?_, rfl, scaled, least, reached, bounded, scaleAmount_share some bounded⟩
        simp only [logged, List.filterMap_append, scaled.unlisted]
        rfl

theorem processScalingProcessing_onTarget :
    (processScalingProcessing subJob).Obeys logged (OnTarget registry)
      [⟨.sql .getFirstUnfinishedSubJob, .ok subJob⟩] (fun _ _ => True) fun _ _ => True := by
  have checks : (checkDeadline subJob).Obeys logged (OnTarget registry)
      [⟨.sql .getFirstUnfinishedSubJob, .ok subJob⟩]
      (fun _ later => ∃ now, later = [⟨.sql .getFirstUnfinishedSubJob, .ok subJob⟩, ⟨.now, now⟩]) fun _ _ => True := by
    unfold checkDeadline
    cases subJob.deadlineAt with
    | none => trivial
    | some deadline =>
      refine (obeys_bind ..).mpr (obeys_utcNow.mpr ⟨onTarget_of_neutral trivial, fun now => ?_⟩)
      exact .ite (fun _ => trivial) fun _ => ⟨now, rfl⟩
  refine (obeys_bind ..).mpr (checks.mono ?_ fun _ _ _ => trivial)
  rintro done later ⟨now, rfl⟩
  refine (obeys_bind ..).mpr (getServicesAndWorkers_logs.mono ?_ fun _ _ _ => trivial)
  rintro ⟨services, workersOnline, workersCount, scaleEachBy⟩ later ⟨topic, target, aimed, some, plan, rfl⟩
  refine .ite (fun enough => ?_) fun _ => trivial
  refine (obeys_attempt ..).mpr ⟨?_, fun reply => by cases reply <;> trivial⟩
  exact onTarget_of_enough rfl aimed (List.mem_singleton_self _) rfl some plan enough

/-- A tick that has picked another sub-job than a scaling one is of no concern. -/
theorem other_onTarget {program : Prog Calls Unit} (measuring : subJob.type = .combinedDHP) :
    program.Obeys logged (OnTarget registry) [⟨.sql .getFirstUnfinishedSubJob, .ok subJob⟩] fun _ _ => True := by
  have only : program.Only fun _ => True := Prog.only_of_forall (fun _ => trivial) program
  refine Prog.Obeys.mono (only.keeps (fun log => Picked log subJob) (fun log op picked _ => ?_) ?_) fun _ _ _ => trivial
  · constructor
    · intro other target picked' type
      cases picked.symm.trans picked'
      cases measuring.symm.trans type
    · intro reply
      cases log with
      | nil => cases picked
      | cons first rest => exact picked
  · rfl

/-- Whatever a tick is answered, its calls are on target. -/
theorem subJobHandler_onTarget (registry : ServiceScalerRegistry) :
    (subJobHandler registry).Obeys logged (OnTarget registry) [] fun _ _ => True := by
  refine (Prog.obeys_bind ..).mpr ((obeys_execute ..).mpr ⟨onTarget_of_neutral trivial, fun reply => ?_⟩)
  cases reply with
  | error e => trivial
  | ok subJob =>
    cases type : subJob.type with
    | combinedDHP =>
      simp only [type]
      exact other_onTarget type
    | scaling =>
      simp only [type]
      have either {program : SubJobStep Unit}
          (obeys : program.Obeys logged (OnTarget registry) [⟨.sql .getFirstUnfinishedSubJob, .ok subJob⟩]
            (fun _ _ => True) fun _ _ => True) :
          (program.run >>= settle subJob).Obeys logged (OnTarget registry)
            [⟨.sql .getFirstUnfinishedSubJob, .ok subJob⟩] fun _ _ => True :=
        Obeys.handle (obeys.mono (fun _ _ _ => settle_onTarget _) fun _ _ _ => settle_onTarget _)
      apply either
      cases subJob.status with
      | created => exact processScalingCreated_onTarget
      | processing => exact processScalingProcessing_onTarget
      | pending | completed | failed | canceled => trivial

/-- In every run, whatever the services and workers are at each read, the ticks are on target. -/
theorem scaling_onTarget {ok : System → SystemEvent → Prop} {source pool : System} {events : List SystemEvent}
    (run : Run (platform registry) ok source events pool) (empty : source.tasks = []) {task : SystemTask}
    (member : task ∈ pool.tasks) (tick : task.kind = .subJobTick) {before after : List Act} {made : Act}
    (log : task.log = before ++ made :: after) : OnTarget registry before made.op := by
  have reached := run.reaches empty task member
  rw [tick, log] at reached
  have legal := (subJobHandler_onTarget registry).legal_call reached
  rwa [foldl_logged, List.nil_append] at legal

/-- The scaling sub-job that a call has picked. -/
def Act.picked? : Act → Option SubJobWithJob
  | ⟨.sql .getFirstUnfinishedSubJob, .ok subJob⟩ => some subJob
  | _ => none

/-- A call starts to wait for the workers of sub-job 2. -/
def Act.waits (made : Act) : Bool :=
  match made.op with
  | .sql (.updateSubJobStatusAndDeadline 2 .processing _) => true
  | _ => false

/-- The task has scaled for one worker of sub-job 2, and its tenth call starts to wait. -/
def scaledForOne (task : SystemTask) : Bool :=
  decide (task.kind = .subJobTick) && (task.log[9]?.any Act.waits) &&
    ((task.log.take 9).filterMap Act.listed?).all (fun services => decide (services.length ≤ isizeMax)) &&
    ((task.log.take 9).head?.bind Act.picked?).any fun subJob =>
      decide (subJob.id = 2 ∧ subJob.type = .scaling ∧ subJob.job.details.targetWorkerCount = some 1)

/-- No worker is online, so the service is scaled up by one. -/
theorem scaling_onTarget_one : ∃ events pool task before after made,
    Run (platform ⟨false⟩) (fun _ _ => True) (sampleSystem .offline) events pool ∧ task ∈ pool.tasks ∧
      task.log = before ++ made :: after ∧ Shared ⟨false⟩ before 1 := by
  have replayed : ((replay ⟨false⟩ (fun _ _ => true) (sampleSystem .offline)
      (sampleCreation ++ sampleTick 1 10)).any fun pool => pool.tasks[1]?.any scaledForOne) = true := by
    decide +kernel
  obtain ⟨events, pool, run, found⟩ := exists_run_of_replay replayed
  obtain ⟨task, present, scaled⟩ := (Option.any_eq_true ..).mp found
  simp only [scaledForOne, Bool.and_eq_true, decide_eq_true_eq, Option.any_eq_true, List.all_eq_true] at scaled
  obtain ⟨⟨⟨tick, made, tenth, waits⟩, fits⟩, subJob, picked, id, type, target⟩ := scaled
  obtain ⟨bound, same⟩ := List.getElem?_eq_some_iff.mp tenth
  have log : task.log = task.log.take 9 ++ made :: task.log.drop 10 := by
    conv_lhs => rw [← List.take_append_drop 9 task.log, List.drop_eq_getElem_cons bound, same]
  have meets : Run (platform ⟨false⟩) (fun _ _ => True) (sampleSystem .offline) events pool :=
    run.mono fun _ _ _ => trivial
  have member := List.mem_of_getElem? present
  obtain ⟨first, head, read⟩ := Option.bind_eq_some_iff.mp picked
  unfold Act.picked? at read
  split at read
  · cases read
    unfold Act.waits at waits
    split at waits
    · next deadline op =>
      rw [← id] at op
      have onTarget := scaling_onTarget meets rfl member tick log subJob 1 head type target le_rfl
        ⟨by decide, by decide⟩ fits
      exact ⟨events, pool, task, _, _, made, meets, member, log, onTarget.2 deadline op⟩
    · cases waits
  · cases read

end Bms
