import Bms.Protocol.Ticks

/-! # The deadline check

A second, smaller protocol: what a tick does to a measuring sub-job that it has picked as pending or
processing, call by call. It reads the clock once; past the deadline it fails the sub-job, before it
a pending one is left alone and the results of a processing one are counted.
-/

namespace Bms

open Process Fallible

/-- Where a task stands with respect to the check. -/
inductive CheckPhase
  /-- no tick -/
  | aside
  | searching
  /-- a tick that has picked a sub-job that is not checked -/
  | other (subJob : SubJobWithJob)
  | picked (subJob : SubJobWithJob)
  /-- the clock was not past the deadline -/
  | onTime (subJob : SubJobWithJob)
  /-- the clock was past the deadline -/
  | late (subJob : SubJobWithJob)
  | collected (subJob : SubJobWithJob) (data : List WorkerDataRow)
  | completed (subJob : SubJobWithJob)
  /-- no call follows -/
  | finished

/-- A measuring sub-job that has been picked after its dispatch. -/
def SubJobWithJob.Measuring (subJob : SubJobWithJob) : Prop := subJob.type = .combinedDHP ∧ subJob.status.Active

instance (subJob : SubJobWithJob) : Decidable subJob.Measuring := inferInstanceAs (Decidable (_ ∧ _))

namespace CheckPhase

def start : Kind → CheckPhase
  | .subJobTick => searching
  | _ => aside

/-- The phase after a call. -/
def note : CheckPhase → Act → CheckPhase
  | searching, ⟨.sql .getFirstUnfinishedSubJob, .ok subJob⟩ => if subJob.Measuring then picked subJob else other subJob
  | searching, ⟨.sql .getFirstUnfinishedSubJob, .error _⟩ => finished
  | picked subJob, ⟨.now, reading⟩ => if subJob.deadlineAt.any (· < reading) then late subJob else onTime subJob
  | picked _, ⟨.sql (.updateSubJobStatusWithError ..), _⟩ => finished
  | late _, ⟨.sql (.updateSubJobStatusWithError ..), _⟩ => finished
  | onTime _, ⟨.sql (.updateSubJobStatusWithError ..), _⟩ => finished
  | onTime subJob, ⟨.sql (.getDataBySubJobId _), .ok data⟩ => collected subJob data
  | onTime _, ⟨.sql (.getDataBySubJobId _), .error _⟩ => finished
  | collected subJob _, ⟨.sql (.updateSubJobStatus ..), .ok _⟩ => completed subJob
  | collected _ _, ⟨.sql (.updateSubJobStatus ..), .error _⟩ => finished
  | phase, _ => phase

/-- The sub-job that a tick has picked. -/
def snapshot : CheckPhase → Option SubJobWithJob
  | other subJob | picked subJob | onTime subJob | late subJob | collected subJob _ | completed subJob => some subJob
  | _ => none

/-- The phases in which a task may return. -/
def Final : CheckPhase → Prop
  | picked _ | late _ => False
  | onTime subJob => subJob.status = .pending
  | collected subJob data => ∀ workersCount, workersCountOf subJob = .ok workersCount → data.length < workersCount
  | _ => True

theorem picking : Picking note snapshot searching where
  held {phase made subJob} held := by
    unfold note at held
    split at held <;> grind [snapshot]
  searches {phase made} searches := by
    unfold note at searches
    split at searches <;> grind

end CheckPhase

/-- The calls that a task may make in a phase of the check. -/
inductive CheckLegal : CheckPhase → Op → Prop
  | aside {op : Op} : CheckLegal .aside op
  | pick : CheckLegal .searching (.sql .getFirstUnfinishedSubJob)
  | other {subJob : SubJobWithJob} {op : Op} (elsewhere : ¬ subJob.Measuring) : CheckLegal (.other subJob) op
  | check {subJob : SubJobWithJob} {deadline : DateTime} (dated : subJob.deadlineAt = some deadline) :
      CheckLegal (.picked subJob) .now
  | undated {subJob : SubJobWithJob} (undated : subJob.deadlineAt = none) :
      CheckLegal (.picked subJob) (.sql (.updateSubJobStatusWithError subJob.id .failed "No deadline"))
  | late {subJob : SubJobWithJob} :
      CheckLegal (.late subJob) (.sql (.updateSubJobStatusWithError subJob.id .failed "Deadline passed"))
  | uncounted {subJob : SubJobWithJob} {message : String} (uncounted : workersCountOf subJob = .error (.failedJob message)) :
      CheckLegal (.onTime subJob) (.sql (.updateSubJobStatusWithError subJob.id .failed message))
  | collect {subJob : SubJobWithJob} : CheckLegal (.onTime subJob) (.sql (.getDataBySubJobId subJob.id))
  | complete {subJob : SubJobWithJob} {data : List WorkerDataRow} :
      CheckLegal (.collected subJob data) (.sql (.updateSubJobStatus subJob.id .completed))
  | close {subJob : SubJobWithJob} {op : Op} : CheckLegal (.completed subJob) op

def checkMonitor : Monitor Calls Kind CheckPhase where
  start := CheckPhase.start
  note := CheckPhase.note
  legal _ := CheckLegal
  ended _ := CheckPhase.Final

theorem workersCountOf_error {subJob : SubJobWithJob} {e : SubJobHandlerError} (failed : workersCountOf subJob = .error e) :
    ∃ message, e = .failedJob message := by
  unfold workersCountOf at failed
  split at failed
  · cases failed
    exact ⟨_, rfl⟩
  · split at failed <;> cases failed
    exact ⟨_, rfl⟩

variable {subJob : SubJobWithJob}

/-- Where every call is legal and none is noted, a task may return too. -/
theorem final_of_indifferent (phase : CheckPhase) (final : phase.Final) (legal : ∀ op, CheckLegal phase op)
    (kept : ∀ made, phase.note made = phase) (program : Prog Calls Unit) :
    program.Obeys CheckPhase.note CheckLegal phase fun _ => CheckPhase.Final :=
  (Prog.obeys_indifferent legal kept program).mono fun _ _ same => same ▸ final

/-- How a tick goes on when a step of it has stopped with an error. -/
def Settles (subJob : SubJobWithJob) (e : SubJobHandlerError) (reached : CheckPhase) : Prop :=
  (settle subJob (.error e)).Obeys CheckPhase.note CheckLegal reached fun _ => CheckPhase.Final

/-- The check comes first; past the deadline the sub-job is failed. -/
theorem checkDeadline_checks {good : Unit → CheckPhase → Prop} (goes : good () (.onTime subJob)) :
    (checkDeadline subJob).Obeys CheckPhase.note CheckLegal (.picked subJob) good (Settles subJob) := by
  unfold checkDeadline
  split
  · next undated => exact ⟨.undated undated, fun _ => trivial⟩
  · next deadline dated =>
    refine (obeys_bind ..).mpr (obeys_utcNow.mpr ⟨.check dated, fun reading => ?_⟩)
    have noted : CheckPhase.note (.picked subJob) ⟨.now, reading⟩ =
        if deadline < reading then .late subJob else .onTime subJob := by
      simp [CheckPhase.note, dated]
    rw [noted]
    by_cases passed : deadline < reading
    · rw [if_pos passed, if_pos passed]
      exact ⟨.late, fun _ => trivial⟩
    · rw [if_neg passed, if_neg passed]
      exact goes

theorem processStatusPending_checks (pending : subJob.status = .pending) :
    ((processStatusPending subJob).run >>= settle subJob).Obeys CheckPhase.note CheckLegal (.picked subJob)
      fun _ => CheckPhase.Final :=
  Obeys.handle (checkDeadline_checks pending)

/-- Once the sub-job is completed, the tick only looks after the job. -/
theorem completed_checks {α : Type} (program : SubJobStep α) :
    program.Obeys CheckPhase.note CheckLegal (.completed subJob) (fun _ => CheckPhase.Final) (Settles subJob) := by
  apply Prog.Obeys.mono (Prog.obeys_indifferent (fun _ => .close) (fun _ => rfl) program.run)
  rintro outcome reached rfl
  cases outcome with
  | ok value => trivial
  | error e => exact final_of_indifferent (.completed subJob) trivial (fun _ => .close) (fun _ => rfl) _

theorem processStatusProcessing_checks :
    ((processStatusProcessing subJob).run >>= settle subJob).Obeys CheckPhase.note CheckLegal (.picked subJob)
      fun _ => CheckPhase.Final := by
  suffices follows : (processStatusProcessing subJob).Obeys CheckPhase.note CheckLegal (.picked subJob)
      (fun _ => CheckPhase.Final) (Settles subJob) from Obeys.handle follows
  refine (obeys_bind ..).mpr (checkDeadline_checks ?_)
  refine (obeys_bind ..).mpr ((obeys_outcome _).mpr ?_)
  cases counted : workersCountOf subJob with
  | error e =>
    obtain ⟨message, rfl⟩ := workersCountOf_error counted
    exact ⟨.uncounted counted, fun _ => trivial⟩
  | ok workersCount =>
    refine (obeys_bind ..).mpr ((obeys_attempt ..).mpr ⟨.collect, fun reply => ?_⟩)
    cases reply with
    | error e => trivial
    | ok data =>
      dsimp only [Except.mapError]
      split
      · refine (obeys_bind ..).mpr ((obeys_attempt ..).mpr ⟨.complete, fun reply => ?_⟩)
        cases reply with
        | error e => trivial
        | ok done => exact completed_checks _
      · next few =>
        intro workersCount' counted'
        obtain rfl : workersCount = workersCount' := Except.ok.inj (counted.symm.trans counted')
        exact Nat.lt_of_not_le few

theorem subJobHandler_checks (registry : ServiceScalerRegistry) :
    (subJobHandler registry).Obeys CheckPhase.note CheckLegal .searching fun _ => CheckPhase.Final := by
  refine (Prog.obeys_bind ..).mpr ((obeys_execute ..).mpr ⟨.pick, fun reply => ?_⟩)
  cases reply with
  | error e => trivial
  | ok subJob =>
    by_cases measuring : subJob.Measuring
    · have noted : CheckPhase.note .searching ⟨.sql .getFirstUnfinishedSubJob, .ok subJob⟩ = .picked subJob :=
        if_pos measuring
      obtain ⟨type, active⟩ := measuring
      rw [noted]
      simp only [type]
      rcases List.mem_pair.mp active with pending | processing
      · simp only [processCombinedDhpType, pending]
        exact processStatusPending_checks pending
      · simp only [processCombinedDhpType, processing]
        exact processStatusProcessing_checks
    · have noted : CheckPhase.note .searching ⟨.sql .getFirstUnfinishedSubJob, .ok subJob⟩ = .other subJob :=
        if_neg measuring
      rw [noted]
      exact final_of_indifferent (.other subJob) trivial (fun _ => .other measuring) (fun _ => rfl) _

theorem checkMonitor_covers (registry : ServiceScalerRegistry) : checkMonitor.Covers (platform registry) := by
  intro kind
  cases kind with
  | subJobTick => exact subJobHandler_checks registry
  | _ => exact final_of_indifferent .aside trivial (fun _ => .aside) (fun _ => rfl) _

/-! ## Both protocols of a tick -/

/-- The phases of a tick in the two protocols fit together. -/
def CheckPhase.Agrees : CheckPhase → JobPhase → Prop
  | aside, _ => False
  | searching, phase => phase = .searching
  | other subJob, phase => phase.snapshot = some subJob ∨ phase = .finished
  | picked subJob, phase | onTime subJob, phase | late subJob, phase => phase = .held subJob
  | collected subJob data, phase => phase = .answered subJob data
  | completed subJob, phase => phase = .completed subJob ∨ phase = .emptied subJob ∨ phase = .finished
  | finished, _ => True

theorem CheckPhase.Agrees.note {phase : CheckPhase} {job : JobPhase} {op : Op} (agrees : phase.Agrees job)
    (legal : CheckLegal phase op) (reply : op.Reply) : (phase.note ⟨op, reply⟩).Agrees (job.note ⟨op, reply⟩) := by
  cases legal with
  | aside => exact agrees.elim
  | pick =>
    obtain rfl := agrees
    cases reply with
    | error e => trivial
    | ok subJob =>
      simp only [CheckPhase.note]
      split
      · rfl
      · exact .inl rfl
  | other => exact JobPhase.note_snapshot agrees
  | @check subJob deadline dated =>
    obtain rfl := agrees
    simp only [CheckPhase.note]
    split <;> rfl
  | undated | late | uncounted => trivial
  | collect =>
    obtain rfl := agrees
    cases reply with
    | error e => trivial
    | ok data => rfl
  | complete =>
    obtain rfl := agrees
    cases reply with
    | error e => trivial
    | ok done => exact .inl rfl
  | @close subJob =>
    have kept : (CheckPhase.completed subJob).note ⟨op, reply⟩ = .completed subJob := rfl
    rw [kept]
    have noted := job.notes ⟨op, reply⟩
    generalize job.note ⟨op, reply⟩ = later at noted
    cases noted with
    | stays => exact agrees
    | finishes => exact .inr (.inr rfl)
    | empties =>
      rcases agrees with same | same | same <;> cases same
      exact .inr (.inl rfl)
    | _ => rcases agrees with same | same | same <;> cases same

theorem agrees_of_permits {log : List Act} (permits : checkMonitor.Permits .subJobTick log) :
    (log.foldl CheckPhase.note .searching).Agrees (log.foldl JobPhase.note .searching) := by
  induction permits with
  | nil => rfl
  | @concat log op reply earlier legal ih =>
    rw [List.foldl_append, List.foldl_append]
    exact ih.note legal reply

/-- A tick stands somewhere in both protocols. -/
theorem at_of_check {pool : System} (checks : checkMonitor.TracksAll pool) {position : ℕ} {phase : CheckPhase}
    (here : checkMonitor.At pool position .subJobTick phase) :
    ∃ job, At pool position .subJobTick job ∧ phase.Agrees job := by
  obtain ⟨⟨kind, log, rest⟩, present, flying, same, rfl⟩ := here
  obtain rfl : kind = .subJobTick := same
  exact ⟨_, ⟨_, present, flying, rfl, rfl⟩, agrees_of_permits (checks position _ present).permits⟩

end Bms
