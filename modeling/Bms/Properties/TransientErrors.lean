import Bms.Model.Replay
import Bms.Protocol.JobChanges

/-! # A database error during a tick

When one statement of a tick fails, the tick is skipped and the next one tries again. Two statements
are different: the sub-job is failed when the services of its topic cannot be read, and when it cannot
be made pending although its job message has been published.
-/

namespace Bms

open Process Fallible

/-- A tick of either kind on a sub-job that has been picked. -/
inductive SnapshotTick (registry : ServiceScalerRegistry) (subJob : SubJobWithJob) : Prog Calls Unit → Prop
  | scaling : SnapshotTick registry subJob (processScaling registry subJob)
  | combinedDhp : SnapshotTick registry subJob (processCombinedDhpType subJob)

/-- The statement sets the status of the sub-job to failed. -/
def Stmt.SetsFailed (subJob : SubJobWithJob) : Stmt → Prop
  | updateSubJobStatus id status | updateSubJobStatusWithError id status _
  | updateSubJobStatusAndDeadline id status _ => id = subJob.id ∧ status = .failed
  | updateSubJobsStatusByJobId jobId status => jobId = subJob.jobId ∧ status = .failed
  | _ => False

/-- The calls of a tick include a successful statement that sets the sub-job's status to failed. -/
def SetToFailed (subJob : SubJobWithJob) (log : List Act) : Prop :=
  ∃ (stmt : Stmt) (done : stmt.Row), (⟨.sql stmt, .ok done⟩ : Act) ∈ log ∧ stmt.SetsFailed subJob

/-- No statement has failed. -/
def Succeeded (log : List Act) : Prop :=
  ∀ (stmt : Stmt) (e : SqlxError), (⟨.sql stmt, .error e⟩ : Act) ∉ log

/-- A tick makes these calls and returns; the statement `failing`, and no other, has failed. -/
structure FailsOnce (registry : ServiceScalerRegistry) (subJob : SubJobWithJob) (log : List Act) (failing : Stmt) :
    Prop where
  ticks : ∃ program, SnapshotTick registry subJob program ∧ program.Reaches log (.ret ())
  once : ∃ before e after, log = before ++ ⟨.sql failing, .error e⟩ :: after ∧ Succeeded before ∧ Succeeded after

/-- The sub-job has not ended and no reading of the clock is past its deadline. -/
def Retriable (subJob : SubJobWithJob) (log : List Act) : Prop :=
  subJob.status.Unfinished ∧
    ∀ deadline ∈ subJob.deadlineAt, ∀ now : DateTime, (⟨.now, now⟩ : Act) ∈ log → now ≤ deadline

/-- One failing statement never ends the sub-job. -/
def ErrorsAreTransient : Prop :=
  ∀ (registry : ServiceScalerRegistry) (subJob : SubJobWithJob) (log : List Act) (failing : Stmt),
    FailsOnce registry subJob log failing → Retriable subJob log → ¬ SetToFailed subJob log

/-- The statements that end the sub-job when they fail. -/
def Stmt.EndsSubJob : Stmt → Prop
  | getServicesEnabledByTopic _ | updateSubJobStatusAndDeadline _ .pending _ => True
  | _ => False

instance (stmt : Stmt) : Decidable stmt.EndsSubJob := by
  unfold Stmt.EndsSubJob
  split <;> infer_instance

/-! ## What a tick does after an error -/

/-- Where a tick stands with respect to the statement that has failed. -/
inductive ErrorPhase
  /-- no statement has failed -/
  | fine
  /-- the error has skipped the tick -/
  | spared
  /-- the error ends the sub-job -/
  | doomed
  /-- the tick has made its last call -/
  | ended
deriving DecidableEq

namespace ErrorPhase

def note : ErrorPhase → Act → ErrorPhase
  | fine, ⟨.sql stmt, .error _⟩ => if stmt.EndsSubJob then doomed else spared
  | fine, ⟨.sql (.updateSubJobStatusWithError ..), .ok _⟩ => ended
  | doomed, ⟨.sql _, _⟩ => ended
  | phase, _ => phase

/-- Where a tick is when it stops with an error. -/
def After : SubJobHandlerError → ErrorPhase → Prop
  | .skip _, phase => phase = fine ∨ phase = spared
  | .failedJob _, phase => phase = fine ∨ phase = doomed

end ErrorPhase

/-- Only an unspared tick goes on, and only one statement sets the sub-job to failed. -/
inductive ErrorLegal (subJob : SubJobWithJob) : ErrorPhase → Op → Prop
  | fine {op : Op} (safe : ∀ stmt, op = .sql stmt → ¬ stmt.SetsFailed subJob) : ErrorLegal subJob .fine op
  | settle {phase : ErrorPhase} {message : String} (going : phase = .fine ∨ phase = .doomed) :
      ErrorLegal subJob phase (.sql (.updateSubJobStatusWithError subJob.id .failed message))

/-- A call that is no statement. -/
def Op.Apart : Op → Prop
  | .sql _ => False
  | _ => True

theorem Op.Local.apart {op : Op} (outside : op.Local) : op.Apart := by
  cases op <;> first | exact outside.elim | trivial

theorem Op.Provider.apart {op : Op} (provider : op.Provider) : op.Apart := by
  cases op <;> first | exact provider.elim | trivial

section Careful

variable {subJob : SubJobWithJob} {α β : Type}

/-- Until a statement fails the program goes on, and then it stops as the statement demands. -/
abbrev Careful (subJob : SubJobWithJob) (program : SubJobStep α) : Prop :=
  Fallible.Obeys ErrorPhase.note (ErrorLegal subJob) program .fine (fun _ reached => reached = .fine) ErrorPhase.After

theorem careful_pure (value : α) : Careful subJob (pure value : SubJobStep α) := rfl

theorem careful_throw (e : SubJobHandlerError) : Careful subJob (throw e : SubJobStep α) := by
  cases e <;> exact .inl rfl

theorem Careful.bind {program : SubJobStep α} {rest : α → SubJobStep β} (careful : Careful subJob program)
    (next : ∀ value, Careful subJob (rest value)) : Careful subJob (program >>= rest) := by
  refine (obeys_bind ..).mpr (Obeys.mono careful (fun value reached same => ?_) fun _ _ => id)
  subst same
  exact next value

/-- A program without statements. -/
theorem careful_of_apart {program : SubJobStep α} (only : program.Only Op.Apart) : Careful subJob program := by
  have quiet (op : Op) (apart : op.Apart) : ErrorLegal subJob .fine op ∧
      ∀ reply : op.Reply, ErrorPhase.note .fine ⟨op, reply⟩ = .fine := by
    cases op with
    | sql stmt => exact apart.elim
    | _ => exact ⟨.fine fun stmt same => (by cases same), fun _ => rfl⟩
  refine Prog.Obeys.mono (Prog.Only.obeys only quiet) fun outcome reached same => ?_
  cases outcome with
  | ok value => exact same
  | error e =>
    subst same
    cases e <;> exact .inl rfl

theorem careful_utcNow : Careful subJob utcNow := careful_of_apart ((only_attempt ..).mpr trivial)

theorem careful_unwrap (value : Option α) : Careful subJob (unwrap value) :=
  careful_of_apart (Prog.Only.mono (local_unwrap value) fun _ => Op.Local.apart)

/-- A statement that fails nothing, with an error that says whether it ends the sub-job. -/
theorem careful_sql {stmt : Stmt} {report : SqlxError → SubJobHandlerError} (safe : ¬ stmt.SetsFailed subJob)
    (goes : ∀ done, ErrorPhase.note .fine ⟨.sql stmt, .ok done⟩ = .fine)
    (reports : ∀ e, ErrorPhase.After (report e) (ErrorPhase.note .fine ⟨.sql stmt, .error e⟩)) :
    Careful subJob (attempt (.sql stmt) (Except.mapError report)) := by
  refine (obeys_attempt ..).mpr ⟨.fine fun stmt' same => ?_, fun reply => ?_⟩
  · cases same
    exact safe
  · cases reply with
    | ok done => exact goes done
    | error e => exact reports e

theorem careful_skip {stmt : Stmt} {report : SqlxError → String} (safe : ¬ stmt.SetsFailed subJob)
    (spares : ¬ stmt.EndsSubJob) (goes : ∀ done, ErrorPhase.note .fine ⟨.sql stmt, .ok done⟩ = .fine) :
    Careful subJob (attempt (.sql stmt) (Except.mapError fun e => .skip (report e))) :=
  careful_sql safe goes fun _ => .inr (if_neg spares)

theorem careful_orFailedJob {stmt : Stmt} (safe : ¬ stmt.SetsFailed subJob) (ends : stmt.EndsSubJob)
    (goes : ∀ done, ErrorPhase.note .fine ⟨.sql stmt, .ok done⟩ = .fine) : Careful subJob (orFailedJob stmt) :=
  careful_sql safe goes fun _ => .inr (if_pos ends)

end Careful

/-! ## The ticks -/

section Tick

variable {subJob : SubJobWithJob}

theorem careful_getTopic (other : SubJobWithJob) : Careful subJob (getTopic other) := by
  unfold getTopic
  split
  · exact careful_throw _
  · exact careful_unwrap _

theorem careful_checkDeadline : Careful subJob (checkDeadline subJob) := by
  unfold checkDeadline
  split
  · exact careful_throw _
  · exact careful_utcNow.bind fun now => .ite (fun _ => careful_throw _) fun _ => careful_pure _

theorem careful_getServices (topic : String) : Careful subJob (getServices topic) := by
  have reads : Careful subJob (orFailedJob (.getServicesEnabledByTopic topic)) :=
    careful_orFailedJob id trivial fun _ => rfl
  exact reads.bind fun services => .ite (fun _ => careful_throw _) fun _ => careful_pure _

theorem careful_getWorkersOnline (topic : String) : Careful subJob (getWorkersOnline topic) :=
  careful_skip id id fun _ => rfl

theorem careful_getServicesAndWorkers : Careful subJob (getServicesAndWorkers subJob) := by
  refine (careful_getTopic subJob).bind fun topic => ?_
  refine (careful_getServices topic).bind fun services => ?_
  refine (careful_getWorkersOnline topic).bind fun workersOnline => ?_
  split
  · exact careful_throw _
  · exact careful_pure _

theorem careful_scaleUpServices (registry : ServiceScalerRegistry) (scaleEachBy : ℕ) (services : List Service) :
    Careful subJob (scaleUpServices registry scaleEachBy services) := by
  induction services with
  | nil => exact careful_pure _
  | cons service services ih =>
    unfold scaleUpServices
    split
    · exact careful_throw _
    · next scaler _ =>
      have apart (amount : ℤ) : (scaler.scaleUp service amount).Only Op.Apart :=
        Prog.Only.mono (provider_scaleUp scaler service amount) fun _ => Op.Provider.apart
      exact (careful_of_apart ((apart _).mapError _)).bind fun _ => ih

theorem careful_processScalingCreated (registry : ServiceScalerRegistry) :
    Careful subJob (processScalingCreated registry subJob) := by
  refine careful_getServicesAndWorkers.bind fun plan => ?_
  obtain ⟨services, workersOnline, workersCount, scaleEachBy⟩ := plan
  refine Careful.bind (careful_skip id id fun _ => rfl) fun _ => ?_
  refine Careful.bind careful_utcNow fun now => ?_
  refine Careful.bind (careful_skip id id fun _ => rfl) fun _ => ?_
  refine .ite (fun _ => ?_) fun _ => ?_
  · exact careful_skip (fun sets => by cases sets.2) id fun _ => rfl
  · refine (careful_scaleUpServices registry scaleEachBy services).bind fun _ => ?_
    refine Careful.bind careful_utcNow fun now => ?_
    exact careful_skip (fun sets => by cases sets.2) id fun _ => rfl

theorem careful_processScalingProcessing : Careful subJob (processScalingProcessing subJob) := by
  refine careful_checkDeadline.bind fun _ => ?_
  refine careful_getServicesAndWorkers.bind fun plan => ?_
  obtain ⟨services, workersOnline, workersCount, scaleEachBy⟩ := plan
  refine .ite (fun _ => ?_) fun _ => careful_pure _
  exact careful_skip (fun sets => by cases sets.2) id fun _ => rfl

theorem careful_processStatusCreated : Careful subJob (processStatusCreated subJob) := by
  refine careful_utcNow.bind fun now => ?_
  have surveys : Careful subJob (getWorkersOnlineBySubJobTopic subJob) :=
    .bind (.bind (careful_skip id id fun _ => rfl) careful_getTopic) careful_getWorkersOnline
  refine Careful.bind surveys fun workersOnline => ?_
  refine .ite (fun _ => careful_throw _) fun _ => ?_
  refine Careful.bind (careful_skip id id fun _ => rfl) fun _ => ?_
  refine Careful.bind (careful_of_apart ((only_attempt ..).mpr trivial)) fun _ => ?_
  exact careful_orFailedJob (fun sets => by cases sets.2) trivial fun _ => rfl

theorem careful_processStatusProcessing : Careful subJob (processStatusProcessing subJob) := by
  refine careful_checkDeadline.bind fun _ => ?_
  refine Careful.bind (careful_of_apart (only_outcome _)) fun workersCount => ?_
  refine Careful.bind (careful_skip id id fun _ => rfl) fun data => ?_
  refine .ite (fun _ => ?_) fun _ => careful_pure _
  refine Careful.bind (careful_skip (fun sets => by cases sets.2) id fun _ => rfl) fun _ => ?_
  refine Careful.bind (careful_skip id id fun _ => rfl) fun pendingSubJobs => ?_
  exact .ite (fun _ => careful_skip id id fun _ => rfl) fun _ => careful_pure _

/-- After its step a tick has ended the sub-job or leaves it for the next one. -/
theorem settle_careful {step : SubJobStep Unit} (careful : Careful subJob step) :
    (step.run >>= settle subJob).Obeys ErrorPhase.note (ErrorLegal subJob) .fine
      fun _ reached => reached ≠ .doomed := by
  refine Obeys.handle (Obeys.mono careful ?_ ?_)
  · rintro value reached rfl
    exact nofun
  · intro e reached stopped
    cases e with
    | skip message => rcases stopped with rfl | rfl <;> exact nofun
    | failedJob message =>
      refine ⟨.settle stopped, fun reply => ?_⟩
      rcases stopped with rfl | rfl <;> cases reply <;> exact nofun

theorem SnapshotTick.obeys {registry : ServiceScalerRegistry} {program : Prog Calls Unit}
    (ticks : SnapshotTick registry subJob program) :
    program.Obeys ErrorPhase.note (ErrorLegal subJob) .fine fun _ reached => reached ≠ .doomed := by
  cases ticks with
  | scaling =>
    apply settle_careful
    split
    · exact careful_processScalingCreated registry
    · exact careful_throw _
    · exact careful_processScalingProcessing
    · exact careful_throw _
  | combinedDhp =>
    apply settle_careful
    split
    · exact careful_processStatusCreated
    · exact careful_checkDeadline
    · exact careful_processStatusProcessing
    · exact careful_pure _

end Tick

/-! ## One failing statement -/

namespace ErrorPhase

theorem fine_of_note {phase : ErrorPhase} {made : Act} (same : phase.note made = fine) : phase = fine := by
  unfold note at same
  split at same
  · rfl
  · cases same
  · cases same
  · exact same

theorem fine_of_foldl {log : List Act} {phase : ErrorPhase} (same : log.foldl note phase = fine) : phase = fine := by
  induction log generalizing phase with
  | nil => exact same
  | cons made log ih => exact fine_of_note (ih same)

/-- As long as no statement fails a tick is fine, or it has ended. -/
theorem foldl_of_succeeded {log : List Act} (succeeded : Succeeded log) {phase : ErrorPhase}
    (going : phase = fine ∨ phase = ended) : log.foldl note phase = fine ∨ log.foldl note phase = ended := by
  induction log generalizing phase with
  | nil => exact going
  | cons made log ih =>
    apply ih (fun stmt e member => succeeded stmt e (List.mem_cons_of_mem _ member))
    have fresh (stmt : Stmt) (e : SqlxError) : made ≠ ⟨.sql stmt, .error e⟩ := fun same =>
      succeeded stmt e (same ▸ List.mem_cons_self)
    unfold note
    split
    · exact absurd rfl (fresh _ _)
    · exact .inr rfl
    · rcases going with same | same <;> cases same
    · exact going

end ErrorPhase

section Once

variable {registry : ServiceScalerRegistry} {subJob : SubJobWithJob} {program : Prog Calls Unit}

/-- A tick that is still fine has not set its sub-job to failed. -/
theorem SnapshotTick.not_setToFailed {rest : Prog Calls Unit} {log : List Act}
    (ticks : SnapshotTick registry subJob program)
    (run : program.Reaches log rest) (same : log.foldl ErrorPhase.note .fine = .fine) : ¬ SetToFailed subJob log := by
  rintro ⟨stmt, done, member, sets⟩
  obtain ⟨before, after, rfl⟩ := List.append_of_mem member
  have legal := ticks.obeys.legal_call run
  rw [List.foldl_append, List.foldl_cons] at same
  have noted := ErrorPhase.fine_of_foldl same
  have fine := ErrorPhase.fine_of_note noted
  rw [fine] at legal noted
  cases legal with
  | fine safe => exact safe stmt rfl sets
  | settle => cases noted

/-- A tick that is skipped makes no further call. -/
theorem eq_nil_of_spared {log : List Act} {post : Unit → ErrorPhase → Prop}
    (obeys : program.Obeys ErrorPhase.note (ErrorLegal subJob) .spared post) (run : program.Reaches log (.ret ())) :
    log = [] := by
  cases run with
  | nil => rfl
  | cons run =>
    cases obeys.1 with
    | settle going => rcases going with same | same <;> cases same

/-- A tick that ends its sub-job does so with its next call. -/
theorem setToFailed_of_doomed {log : List Act}
    (obeys : program.Obeys ErrorPhase.note (ErrorLegal subJob) .doomed fun _ reached => reached ≠ .doomed)
    (run : program.Reaches log (.ret ())) (succeeded : Succeeded log) : SetToFailed subJob log := by
  cases run with
  | nil => exact absurd rfl obeys
  | @cons op next reply log _ run =>
    cases obeys.1 with
    | @settle _ message _ =>
      cases reply with
      | error e => exact absurd List.mem_cons_self (succeeded _ e)
      | ok done => exact ⟨_, done, List.mem_cons_self, rfl, rfl⟩

/-- Exactly two statements end the sub-job when they fail. -/
theorem not_setToFailed_iff {log : List Act} {failing : Stmt} (fails : FailsOnce registry subJob log failing) :
    ¬ SetToFailed subJob log ↔ ¬ failing.EndsSubJob := by
  obtain ⟨⟨program, ticks, run⟩, before, e, after, rfl, clean, clean'⟩ := fails
  have legal := ticks.obeys.legal_call run
  have fine : before.foldl ErrorPhase.note .fine = .fine := by
    rcases ErrorPhase.foldl_of_succeeded clean (.inl rfl) with same | same
    · exact same
    · rw [same] at legal
      cases legal with
      | settle going => rcases going with same | same <;> cases same
  obtain ⟨middle, fed, run⟩ := run.append_inv
  have unset := ticks.not_setToFailed fed fine
  have obeys := ticks.obeys.feed fed
  rw [fine] at obeys
  cases run with
  | cons run =>
    have later := obeys.2 (.error e)
    by_cases ends : failing.EndsSubJob
    · rw [ErrorPhase.note, if_pos ends] at later
      obtain ⟨stmt, done, member, sets⟩ := setToFailed_of_doomed later run clean'
      have set : SetToFailed subJob (before ++ ⟨.sql failing, .error e⟩ :: after) :=
        ⟨stmt, done, List.mem_append_right _ (List.mem_cons_of_mem _ member), sets⟩
      exact iff_of_false (not_not.mpr set) (not_not.mpr ends)
    · rw [ErrorPhase.note, if_neg ends] at later
      obtain rfl := eq_nil_of_spared later run
      refine iff_of_true ?_ ends
      rintro ⟨stmt, done, member, sets⟩
      rcases List.mem_append.mp member with earlier | last
      · exact unset ⟨stmt, done, earlier, sets⟩
      · cases List.mem_singleton.mp last

end Once

/-- The connection is lost while sub-job 3 looks up the scaling sub-job, and the next tick tries again. -/
theorem not_setToFailed_lookup : ∃ log,
    FailsOnce ⟨false⟩ (sampleSubJob 3 .combinedDHP { partialPct := some 1 }) log (.getSubJobByIdAndType 1 .scaling) ∧
      ¬ SetToFailed (sampleSubJob 3 .combinedDHP { partialPct := some 1 }) log := by
  let subJob := sampleSubJob 3 .combinedDHP { partialPct := some 1 }
  let log : List Act := [⟨.now, Duration.seconds 5⟩, ⟨.sql (.getSubJobByIdAndType 1 .scaling), .error (.other "lost")⟩]
  have fails : FailsOnce ⟨false⟩ subJob log (.getSubJobByIdAndType 1 .scaling) := {
    ticks := ⟨_, .combinedDhp, .cons (.cons (.nil _))⟩
    once := ⟨[⟨.now, Duration.seconds 5⟩], .other "lost", [], rfl, fun _ _ => nofun, fun _ _ => nofun⟩ }
  exact ⟨log, fails, (not_setToFailed_iff fails).mpr id⟩

/-- The connection is lost while the services of sub-job 2 are looked up, and the sub-job is failed. -/
theorem not_errorsAreTransient : ¬ ErrorsAreTransient := by
  intro transient
  let subJob := sampleSubJob 2 .scaling { topic := some "eu" }
  let settles : Stmt := .updateSubJobStatusWithError subJob.id .failed (SqlxError.other "lost").toString
  let log : List Act := [⟨.sql (.getServicesEnabledByTopic "eu"), .error (.other "lost")⟩, ⟨.sql settles, .ok ()⟩]
  have fails : FailsOnce ⟨false⟩ subJob log (.getServicesEnabledByTopic "eu") := {
    ticks := ⟨_, .scaling, .cons (.cons (.nil _))⟩
    once := ⟨[], .other "lost", [⟨.sql settles, .ok ()⟩], rfl, fun _ _ => nofun, fun _ _ => nofun⟩ }
  apply transient ⟨false⟩ subJob log _ fails ⟨by decide, nofun⟩
  exact ⟨settles, (), List.mem_cons_of_mem _ List.mem_cons_self, rfl, rfl⟩

end Bms
