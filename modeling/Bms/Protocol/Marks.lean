import Bms.Protocol.Scaling

/-! # Marks

A fourth protocol: what a tick leaves behind. A tick that has picked a sub-job without a deadline marks
it, by ending it or by setting a deadline, or it stops at a call that fails, or it comes to a service
that its scaler cannot address.
-/

namespace Bms

open Process Fallible

/-! ## Calls that mark and calls that stop -/

/-- The statements that change no row. -/
def Stmt.reads : Stmt → Bool
  | .getJobByIdWithSubjobs _ | .countPendingSubJobs .. | .getFirstUnfinishedSubJob | .getSubJobByIdAndType ..
  | .getDataBySubJobId _ | .getWorkersOnlineWithTopic _ | .getInactiveOnlineWorkers | .getServices | .getServiceById _
  | .getServicesEnabledByTopic _ | .getServicesWithDescaleDeadlineReached => true
  | _ => false

namespace Act

/-- A write that fails. -/
def writeFails : Act → Bool
  | ⟨.sql stmt, .error _⟩ => !stmt.reads
  | _ => false

/-- A failure other than a write's at which a tick stops without another call. -/
def skips : Act → Bool
  | ⟨.sql (.getWorkersOnlineWithTopic _), .error _⟩ | ⟨.sql (.getSubJobByIdAndType ..), .error _⟩ => true
  | ⟨.sql _, _⟩ => false
  | made => made.fails

/-- A successful write of a sub-job's status. -/
def marks : Act → Bool
  | ⟨.sql (.updateSubJobStatus ..), .ok _⟩ | ⟨.sql (.updateSubJobStatusWithError ..), .ok _⟩
  | ⟨.sql (.updateSubJobStatusAndDeadline ..), .ok _⟩ => true
  | _ => false

end Act

/-- A call that ends this sub-job or sets its deadline, if it writes the status of one. -/
def Op.Marks (subJob : SubJobWithJob) : Op → Prop
  | .sql (.updateSubJobStatus id status) | .sql (.updateSubJobStatusWithError id status _) =>
    id = subJob.id ∧ status.Ended
  | .sql (.updateSubJobStatusAndDeadline id ..) => id = subJob.id
  | _ => True

/-- The number of workers that a scaling sub-job asks of these services. -/
def SubJobWithJob.expectedWorkers (subJob : SubJobWithJob) (services : List Service) : ℕ :=
  (scalePlan (subJob.job.details.targetWorkerCount.getD 0) services.length).2

/-- The scalers can address the services, up to the first that has no scaler. -/
def Scalable (registry : ServiceScalerRegistry) : List Service → Prop
  | [] => True
  | service :: services => registry.getScaler service.providerType = none ∨
    ((registry.targetOf service).isSome ∧ Scalable registry services)

instance (registry : ServiceScalerRegistry) (services : List Service) : Decidable (Scalable registry services) :=
  match services with
  | [] => .isTrue trivial
  | _ :: services =>
    have := instDecidableScalable registry services
    inferInstanceAs (Decidable (_ ∨ _))

/-- The scalers can address the services that a call has listed. -/
def Act.addresses (registry : ServiceScalerRegistry) : Act → Bool
  | ⟨.sql (.getServicesEnabledByTopic _), .ok services⟩ => decide (Scalable registry services)
  | _ => true

/-! ## The monitor -/

/-- Where a task stands with respect to the mark on the sub-job that it has picked. -/
inductive MarkPhase
  /-- no tick -/
  | aside
  | searching
  /-- the sub-job has a deadline -/
  | dated (subJob : SubJobWithJob)
  | picked (subJob : SubJobWithJob)
  | listed (subJob : SubJobWithJob) (services : List Service)
  | planned (subJob : SubJobWithJob) (services : List Service) (workers : List String)
  /-- the deadlines of the services are set -/
  | scaling (subJob : SubJobWithJob) (services : List Service) (workers : List String)
  | marked (subJob : SubJobWithJob)
  /-- a call has failed, and no call follows -/
  | skipped (subJob : SubJobWithJob)
  /-- a write has failed -/
  | broken (subJob : SubJobWithJob)

namespace MarkPhase

def start : Kind → MarkPhase
  | .subJobTick => searching
  | _ => aside

/-- The sub-job that a tick has still to mark. -/
def undated : MarkPhase → Option SubJobWithJob
  | picked subJob | listed subJob _ | planned subJob .. | scaling subJob .. => some subJob
  | _ => none

/-- What a tick learns from a call that neither marks nor stops. -/
def learn : MarkPhase → Act → MarkPhase
  | picked subJob, ⟨.sql (.getServicesEnabledByTopic _), .ok services⟩ => listed subJob services
  | listed subJob services, ⟨.sql (.getWorkersOnlineWithTopic _), .ok workers⟩ => planned subJob services workers
  | planned subJob services workers, ⟨.sql (.setDescaleDeadlines ..), .ok _⟩ => scaling subJob services workers
  | searching, ⟨.sql .getFirstUnfinishedSubJob, .ok subJob⟩ =>
    if subJob.deadlineAt.isSome then dated subJob else picked subJob
  | phase, _ => phase

/-- The phase after a call. -/
def note (phase : MarkPhase) (made : Act) : MarkPhase :=
  match phase.undated with
  | none => phase.learn made
  | some subJob =>
    if made.marks then marked subJob
    else if made.skips then skipped subJob
    else if made.writeFails then broken subJob
    else phase.learn made

/-- The sub-job that a tick has picked. -/
def snapshot : MarkPhase → Option SubJobWithJob
  | aside | searching => none
  | dated subJob | picked subJob | listed subJob _ | planned subJob .. | scaling subJob .. | marked subJob
  | skipped subJob | broken subJob => some subJob

/-- The phases in which a task may return. -/
def Final (registry : ServiceScalerRegistry) : MarkPhase → Prop
  | picked subJob => subJob.status.Ended
  | listed .. | planned .. => False
  | scaling subJob services workers =>
    ¬ subJob.expectedWorkers services ≤ workers.length ∧ ¬ Scalable registry services
  | _ => True

theorem note_undated {phase : MarkPhase} {subJob : SubJobWithJob} (undated : phase.undated = some subJob) (made : Act) :
    phase.note made = if made.marks then marked subJob else if made.skips then skipped subJob
      else if made.writeFails then broken subJob else phase.learn made := by
  simp only [note, undated]

theorem snapshot_of_undated {phase : MarkPhase} {subJob : SubJobWithJob} (undated : phase.undated = some subJob) :
    phase.snapshot = some subJob := by
  cases phase <;> first | exact undated | cases undated

theorem snapshot_learn {phase : MarkPhase} (made : Act) {subJob : SubJobWithJob} (held : phase.snapshot = some subJob) :
    (phase.learn made).snapshot = some subJob := by
  unfold learn
  split <;> first | exact held | cases held

/-- A tick keeps what it has picked. -/
theorem snapshot_note {phase : MarkPhase} (made : Act) {subJob : SubJobWithJob} (held : phase.snapshot = some subJob) :
    (phase.note made).snapshot = some subJob := by
  cases undated : phase.undated with
  | none => simpa only [note, undated] using snapshot_learn made held
  | some other =>
    obtain rfl : other = subJob := Option.some.inj ((snapshot_of_undated undated).symm.trans held)
    rw [note_undated undated]
    repeat' split
    all_goals first | rfl | exact snapshot_learn made held

theorem note_searching (made : Act) : searching.note made = searching ∧
    (∀ subJob, made ≠ ⟨.sql .getFirstUnfinishedSubJob, .ok subJob⟩) ∨
      ∃ subJob, made = ⟨.sql .getFirstUnfinishedSubJob, .ok subJob⟩ ∧
        searching.note made = if subJob.deadlineAt.isSome then dated subJob else picked subJob := by
  by_cases picks : ∃ subJob, made = ⟨.sql .getFirstUnfinishedSubJob, .ok subJob⟩
  · obtain ⟨subJob, rfl⟩ := picks
    exact .inr ⟨subJob, rfl, rfl⟩
  · refine .inl ⟨?_, fun subJob same => picks ⟨subJob, same⟩⟩
    change searching.learn made = searching
    unfold learn
    split <;> first | rfl | grind

theorem picking : Picking note snapshot searching where
  held {phase made subJob} held := by
    cases before : phase.snapshot with
    | some other =>
      left
      rw [← held, snapshot_note made before]
    | none =>
      cases phase with
      | aside => exact absurd held nofun
      | searching =>
        obtain ⟨stays, -⟩ | ⟨picked, rfl, noted⟩ := note_searching made
        · rw [stays] at held
          cases held
        · rw [noted] at held
          right
          split at held <;> cases held <;> exact ⟨rfl, rfl⟩
      | _ => cases before
  searches {phase made} searches := by
    cases before : phase.snapshot with
    | some other =>
      have held := snapshot_note made before
      rw [searches] at held
      cases held
    | none =>
      cases phase with
      | aside => cases searches
      | searching =>
        obtain ⟨-, other⟩ | ⟨picked, rfl, noted⟩ := note_searching made
        · exact ⟨rfl, other⟩
        · rw [noted] at searches
          split at searches <;> cases searches
      | _ => cases before

end MarkPhase

/-- The calls that a task may make in a phase of the mark. -/
inductive MarkLegal : MarkPhase → Op → Prop
  | aside {op : Op} : MarkLegal .aside op
  | pick : MarkLegal .searching (.sql .getFirstUnfinishedSubJob)
  | dated {subJob : SubJobWithJob} {op : Op} : MarkLegal (.dated subJob) op
  | going {phase : MarkPhase} {subJob : SubJobWithJob} {op : Op} (undated : phase.undated = some subJob)
      (own : op.Marks subJob) : MarkLegal phase op
  | broken {subJob : SubJobWithJob} {op : Op} : MarkLegal (.broken subJob) op

def markMonitor (registry : ServiceScalerRegistry) : Monitor Calls Kind MarkPhase where
  start := MarkPhase.start
  note := MarkPhase.note
  legal _ := MarkLegal
  ended _ := MarkPhase.Final registry

/-! ## The programs obey it -/

namespace MarkPhase

variable {registry : ServiceScalerRegistry} {phase : MarkPhase} {subJob : SubJobWithJob} {α : Type}

/-- How a tick goes on when a step of it has stopped with an error. -/
def Stops (registry : ServiceScalerRegistry) (subJob : SubJobWithJob) (e : SubJobHandlerError) (reached : MarkPhase) : Prop :=
  (settle subJob (.error e)).Obeys note MarkLegal reached fun _ => Final registry

/-- A sub-job that has failed is marked so. -/
theorem stops_failed (undated : phase.undated = some subJob) (message : String) :
    Stops registry subJob (.failedJob message) phase := by
  refine ⟨.going undated ⟨rfl, by decide⟩, fun reply => ?_⟩
  rw [note_undated undated]
  cases reply <;> trivial

theorem stops_skipped (message : String) : Stops registry subJob (.skip message) (.skipped subJob) := trivial

theorem stops_broken (e : SubJobHandlerError) : Stops registry subJob e (.broken subJob) := by
  cases e with
  | skip message => trivial
  | failedJob message => exact ⟨.broken, fun _ => trivial⟩

/-- A write marks, or goes on as the phase learns; where it fails the tick is broken. -/
theorem write_marks (undated : phase.undated = some subJob) {stmt : Stmt} {report : SqlxError → SubJobHandlerError}
    {good : stmt.Row → MarkPhase → Prop} (own : (Op.sql stmt).Marks subJob) (writes : stmt.reads = false)
    (goes : ∀ row, good row (phase.note ⟨.sql stmt, .ok row⟩)) :
    (attempt (.sql stmt) (Except.mapError report) : SubJobStep stmt.Row).Obeys note MarkLegal phase good
      (Stops registry subJob) := by
  refine (obeys_attempt ..).mpr ⟨.going undated own, fun reply => ?_⟩
  cases reply with
  | ok row => exact goes row
  | error e =>
    have broken : phase.note ⟨.sql stmt, .error e⟩ = .broken subJob := by
      rw [note_undated undated]
      cases stmt <;> first | rfl | cases writes
    change Stops registry subJob (report e) (phase.note ⟨.sql stmt, .error e⟩)
    rw [broken]
    exact stops_broken _

/-- The last write of a tick. -/
theorem mark_marks (undated : phase.undated = some subJob) {stmt : Stmt} {report : SqlxError → SubJobHandlerError}
    (own : (Op.sql stmt).Marks subJob) (writes : stmt.reads = false)
    (marks : ∀ row, Act.marks ⟨.sql stmt, .ok row⟩ = true) :
    (attempt (.sql stmt) (Except.mapError report) : SubJobStep stmt.Row).Obeys note MarkLegal phase
      (fun _ => Final registry) (Stops registry subJob) := by
  apply write_marks undated own writes
  intro row
  rw [note_undated undated, if_pos (marks row)]
  trivial

/-- A reading of the clock is not noted. -/
theorem utcNow_marks (undated : phase.undated = some subJob) {good : DateTime → MarkPhase → Prop}
    {bad : SubJobHandlerError → MarkPhase → Prop} (goes : ∀ reading, good reading phase) :
    (utcNow : SubJobStep DateTime).Obeys note MarkLegal phase good bad := by
  refine obeys_utcNow.mpr ⟨.going undated trivial, fun reading => ?_⟩
  have kept : phase.note ⟨.now, reading⟩ = phase := by
    rw [note_undated undated]
    cases phase <;> rfl
  rw [kept]
  exact goes reading

/-! ### Scaling -/

theorem getTopic_marks {registry : ServiceScalerRegistry} {other : SubJobWithJob} {good : String → MarkPhase → Prop}
    (undated : phase.undated = some subJob) (goes : ∀ topic, good topic phase) :
    (getTopic other).Obeys note MarkLegal phase good (Stops registry subJob) := by
  unfold getTopic
  split
  · exact stops_failed undated _
  · apply (obeys_unwrap _).mpr
    split
    · exact goes _
    · exact .going undated trivial

theorem getServicesAndWorkers_marks {good : List Service × List String × ℕ × ℕ → MarkPhase → Prop}
    (goes : ∀ services workers, good (services, workers, subJob.expectedWorkers services, subJob.scaleStep services)
      (.planned subJob services workers)) :
    (getServicesAndWorkers subJob).Obeys note MarkLegal (.picked subJob) good (Stops registry subJob) := by
  refine (obeys_bind ..).mpr (getTopic_marks rfl fun topic => ?_)
  refine (obeys_bind ..).mpr ((obeys_bind ..).mpr ?_)
  refine (obeys_attempt ..).mpr ⟨.going rfl trivial, fun reply => ?_⟩
  cases reply with
  | error e => exact stops_failed rfl _
  | ok services =>
    refine .ite (fun _ => stops_failed rfl _) fun _ => (obeys_bind ..).mpr ?_
    refine (obeys_attempt ..).mpr ⟨.going rfl trivial, fun reply => ?_⟩
    cases reply with
    | error e => exact stops_skipped _
    | ok workers =>
      cases target : subJob.job.details.targetWorkerCount with
      | none => exact stops_failed rfl _
      | some targetWorkerCount =>
        have planned := goes services workers
        simp only [SubJobWithJob.expectedWorkers, SubJobWithJob.scaleStep, target, Option.getD_some] at planned
        exact planned

section ScaleUp

variable {services : List Service} {workers : List String}

/-- A service is scaled up, or a call of its provider fails, or it has no address. -/
theorem scaleUp_marks (scaler : ServiceScaler) (service : Service) (amount : ℤ)
    (found : registry.getScaler service.providerType = some scaler) {good : Unit → MarkPhase → Prop}
    {bad : ServiceScalerError → MarkPhase → Prop} (goes : good () (.scaling subJob services workers))
    (fails : ∀ e, bad e (.skipped subJob))
    (unknown : ∀ e, registry.targetOf service = none → bad e (.scaling subJob services workers)) :
    (scaler.scaleUp service amount).Obeys note MarkLegal (.scaling subJob services workers) good bad := by
  cases scaler with
  | docker =>
    refine (obeys_bind ..).mpr ((obeys_attempt ..).mpr ⟨.going rfl trivial, fun reply => ?_⟩)
    cases reply with
    | error e => exact fails _
    | ok count =>
      refine .ite (fun _ => goes) fun _ => (obeys_attempt ..).mpr ⟨MarkLegal.going rfl trivial, fun reply => ?_⟩
      cases reply with
      | error e => exact fails _
      | ok done => exact goes
  | fargate =>
    change Fallible.Obeys _ _ (FargateScaler.scaleUp service amount) _ _ _
    cases addressed : FargateScaler.regionAndCluster service with
    | error e =>
      simp only [FargateScaler.scaleUp, FargateScaler.getServiceInfo, addressed]
      apply unknown e
      simp only [ServiceScalerRegistry.targetOf, found, addressed]
    | ok place =>
      obtain ⟨region, cluster⟩ := place
      simp only [FargateScaler.scaleUp, FargateScaler.getServiceInfo, FargateScaler.updateService, addressed,
        obeys_bind, obeys_outcome, obeys_attempt]
      refine ⟨.going rfl trivial, fun reply => ?_⟩
      rcases reply with e | (_ | info)
      · exact fails _
      · exact fails _
      · refine .ite (fun _ => goes) fun _ => ?_
        refine (obeys_bind ..).mpr ((obeys_outcome _).mpr ((obeys_attempt ..).mpr ?_))
        refine ⟨.going rfl trivial, fun reply => ?_⟩
        rcases reply with e | (_ | _)
        · exact fails _
        · exact fails _
        · exact goes

/-- The loop stops at a service only if a call fails, if the service has no scaler or if it has no address. -/
theorem scaleUpServices_marks (few : ¬ subJob.expectedWorkers services ≤ workers.length) (scaleEachBy : ℕ)
    (remaining : List Service) (suffix : ¬ Scalable registry remaining → ¬ Scalable registry services)
    {good : Unit → MarkPhase → Prop} (goes : good () (.scaling subJob services workers)) :
    (scaleUpServices registry scaleEachBy remaining).Obeys note MarkLegal (.scaling subJob services workers) good
      (Stops registry subJob) := by
  induction remaining with
  | nil => exact goes
  | cons service remaining ih =>
    unfold scaleUpServices
    cases found : registry.getScaler service.providerType with
    | none => exact stops_failed rfl _
    | some scaler =>
      refine (obeys_bind ..).mpr ((obeys_mapError ..).mpr (scaleUp_marks scaler service _ found ?_ ?_ ?_))
      · refine ih fun fails => suffix fun either => ?_
        rcases either with none | ⟨-, rest⟩
        · rw [found] at none
          cases none
        · exact fails rest
      · exact fun e => stops_skipped _
      · intro e unknown
        refine ⟨few, suffix fun either => ?_⟩
        rcases either with none | ⟨known, -⟩
        · rw [found] at none
          cases none
        · rw [unknown] at known
          cases known

end ScaleUp

theorem processScalingCreated_marks : (processScalingCreated registry subJob).Obeys note MarkLegal (.picked subJob)
    (fun _ => Final registry) (Stops registry subJob) := by
  refine (obeys_bind ..).mpr (getServicesAndWorkers_marks fun services workers => ?_)
  refine (obeys_bind ..).mpr (write_marks rfl trivial rfl fun _ => ?_)
  refine (obeys_bind ..).mpr (utcNow_marks rfl fun now => ?_)
  refine (obeys_bind ..).mpr (write_marks rfl trivial rfl fun _ => ?_)
  refine .ite (fun enough => ?_) fun few => ?_
  · exact mark_marks rfl ⟨rfl, by decide⟩ rfl fun _ => rfl
  · refine (obeys_bind ..).mpr (scaleUpServices_marks few _ services id ?_)
    refine (obeys_bind ..).mpr (utcNow_marks rfl fun now => ?_)
    exact mark_marks rfl rfl rfl fun _ => rfl

/-! ### Measuring -/

theorem processStatusCreated_marks : (processStatusCreated subJob).Obeys note MarkLegal (.picked subJob)
    (fun _ => Final registry) (Stops registry subJob) := by
  refine (obeys_bind ..).mpr (utcNow_marks rfl fun now => ?_)
  refine (obeys_bind ..).mpr ((obeys_bind ..).mpr ((obeys_bind ..).mpr ?_))
  refine (obeys_attempt ..).mpr ⟨.going rfl trivial, fun reply => ?_⟩
  cases reply with
  | error e => exact stops_skipped _
  | ok scalingSubJob =>
    apply getTopic_marks rfl
    intro topic
    refine (obeys_attempt ..).mpr ⟨.going rfl trivial, fun reply => ?_⟩
    cases reply with
    | error e => exact stops_skipped _
    | ok workers =>
      refine .ite (fun _ => stops_failed rfl _) fun _ => ?_
      refine (obeys_bind ..).mpr (write_marks rfl trivial rfl fun _ => ?_)
      refine (obeys_bind ..).mpr ((obeys_attempt ..).mpr ⟨.going rfl trivial, fun reply => ?_⟩)
      cases reply with
      | error e => exact stops_skipped _
      | ok done => exact mark_marks rfl rfl rfl fun _ => rfl

/-- A sub-job that is in flight without a deadline fails. -/
theorem checkDeadline_marks (undated : subJob.deadlineAt = none) {good : Unit → MarkPhase → Prop} :
    (checkDeadline subJob).Obeys note MarkLegal (.picked subJob) good (Stops registry subJob) := by
  simp only [checkDeadline, undated]
  exact stops_failed rfl _

/-! ### Ticks -/

theorem processScaling_marks (undated : subJob.deadlineAt = none) :
    (processScaling registry subJob).Obeys note MarkLegal (.picked subJob) fun _ => Final registry := by
  unfold processScaling
  cases subJob.status with
  | created => exact Obeys.handle processScalingCreated_marks
  | processing => exact Obeys.handle ((obeys_bind ..).mpr (checkDeadline_marks undated))
  | pending | completed | failed | canceled => exact stops_failed rfl _

theorem processCombinedDhpType_marks (undated : subJob.deadlineAt = none) :
    (processCombinedDhpType subJob).Obeys note MarkLegal (.picked subJob) fun _ => Final registry := by
  unfold processCombinedDhpType
  cases status : subJob.status with
  | created => exact Obeys.handle processStatusCreated_marks
  | pending => exact Obeys.handle (checkDeadline_marks undated)
  | processing => exact Obeys.handle ((obeys_bind ..).mpr (checkDeadline_marks undated))
  | completed | failed | canceled =>
    change subJob.status.Ended
    rw [status]
    decide

theorem subJobHandler_marks (registry : ServiceScalerRegistry) :
    (subJobHandler registry).Obeys note MarkLegal .searching fun _ => Final registry := by
  refine (Prog.obeys_bind ..).mpr ((obeys_execute ..).mpr ⟨.pick, fun reply => ?_⟩)
  cases reply with
  | error e => trivial
  | ok subJob =>
    have noted : note .searching ⟨.sql .getFirstUnfinishedSubJob, .ok subJob⟩ =
        if subJob.deadlineAt.isSome then .dated subJob else .picked subJob := rfl
    by_cases isDated : subJob.deadlineAt.isSome
    · rw [noted, if_pos isDated]
      apply (Prog.obeys_indifferent (fun _ => .dated) (fun _ => rfl) _).mono
      rintro value reached rfl
      trivial
    · rw [noted, if_neg isDated]
      have undated := Option.not_isSome_iff_eq_none.mp isDated
      dsimp only
      split
      · exact processCombinedDhpType_marks undated
      · exact processScaling_marks undated

end MarkPhase

theorem markMonitor_covers (registry : ServiceScalerRegistry) : (markMonitor registry).Covers (platform registry) := by
  intro kind
  cases kind with
  | subJobTick => exact MarkPhase.subJobHandler_marks registry
  | _ =>
    apply (Prog.obeys_indifferent (fun _ => .aside) (fun _ => rfl) _).mono
    rintro value reached rfl
    trivial

end Bms
