import Bms.Protocol.Ticks

/-! # Identifiers of jobs

A creation draws the id of its job, so no request names the job before its row exists, and nobody
draws an id that a request has named.
-/

namespace Bms

open Process

variable {registry : ServiceScalerRegistry} {source target : System} {event : SystemEvent}

theorem uuids_after (w : World) (made : Act) : w.uuids ⊆ (Act.after w made).uuids := by
  obtain ⟨op, reply⟩ := made
  cases op with
  | sql stmt =>
    cases reply with
    | error e => exact List.Subset.refl _
    | ok row => cases stmt <;> first | exact List.Subset.refl _ | exact List.subset_cons_self ..
  | newUuid => exact List.subset_cons_self ..
  | updateService => rcases reply with _ | (_ | _) <;> exact List.Subset.refl _
  | publishJob | publishStatus | publishResult | dockerComposeUp => cases reply <;> exact List.Subset.refl _
  | _ => exact List.Subset.refl _

theorem uuids_enter (w : World) (kind : Kind) : w.uuids ⊆ (enter w kind).uuids := by
  cases kind with
  | cancelJob jobId => exact List.subset_cons_self ..
  | _ => exact List.Subset.refl _

/-- An id that is taken stays taken. -/
theorem uuids_grow (step : Step (platform registry) source event target) :
    source.world.uuids ⊆ target.world.uuids := by
  cases step with
  | spawn admitted => exact uuids_enter ..
  | call present awaits allowed => exact uuids_after ..
  | drift drifts =>
    obtain ⟨now, rfl⟩ := drifts
    exact List.Subset.refl _

theorem JobPhase.drawn_note {phase : JobPhase} {made : Act} {jobId : Uuid} (drawn : phase.note made = .drawn jobId) :
    phase = .drawn jobId ∨ (phase = .validating ∧ made = ⟨.newUuid, jobId⟩) := by
  have noted := phase.notes made
  rw [drawn] at noted
  cases noted with
  | stays => exact .inl rfl
  | draws => exact .inr ⟨rfl, rfl⟩

/-- The job and the type of the sub-job that a step inserts. -/
def insertedIn : SystemEvent → Option (Uuid × SubJobType)
  | .call _ ⟨.sql (.createSubJob _ jobId _ type _), .ok _⟩ => some (jobId, type)
  | _ => none

theorem JobPhase.creating_note {phase : JobPhase} (position : ℕ) {made : Act} {jobId : Uuid} {subJobs : ℕ}
    (creating : phase.note made = .creating jobId subJobs) :
    (phase = .creating jobId subJobs ∧ insertedIn (.call position made) = none) ∨
      (∃ before subJobId parent status type details done, phase = .creating jobId before ∧ subJobs = before + 1 ∧
        made = ⟨.sql (.createSubJob subJobId parent status type details), .ok done⟩) ∨
      (subJobs = 0 ∧ ∃ drawn inserted url routingKey status details job, phase = .drawn drawn ∧
        made = ⟨.sql (.createJob inserted url routingKey status details), .ok job⟩ ∧ job.id = jobId) := by
  have noted := phase.notes made
  rw [creating] at noted
  cases noted with
  | stays same =>
    refine .inl ⟨rfl, ?_⟩
    unfold insertedIn
    split
    · next calls =>
      -- an insertion would have been counted
      cases calls
      injection same with _ counted
      omega
    · rfl
  | creates => exact .inr (.inr ⟨rfl, _, _, _, _, _, _, _, rfl, rfl, rfl⟩)
  | inserts => exact .inr (.inl ⟨_, _, _, _, _, _, _, rfl, rfl, rfl⟩)

/-- A creation has just drawn the id of its job, or had it before the step. -/
theorem At.drawn_before (tracks : jobMonitor.TracksAll source) (step : Step (platform registry) source event target)
    {position : ℕ} {kind : Kind} {jobId : Uuid} (here : At target position kind (.drawn jobId)) :
    At source position kind (.drawn jobId) ∨
      (jobId ∉ source.world.uuids ∧ jobId ∈ target.world.uuids ∧ target.world.jobs = source.world.jobs) := by
  obtain ⟨old, -⟩ | ⟨-, starts⟩ | ⟨before, op, reply, old, legal, rfl, noted, allowed, reached⟩ := here.before tracks step
  · exact .inl old
  · cases kind <;> cases starts
  · obtain rfl | ⟨rfl, drawn⟩ := JobPhase.drawn_note noted.symm
    · exact .inl old
    · cases drawn
      rw [reached]
      exact .inr ⟨allowed, List.mem_cons_self .., rfl⟩

/-- A creation inserts its sub-jobs one after the other, in a job that it has inserted before. -/
theorem At.creation_before (tracks : jobMonitor.TracksAll source) (step : Step (platform registry) source event target)
    {position : ℕ} {kind : Kind} {jobId : Uuid} {subJobs : ℕ} (here : At target position kind (.creating jobId subJobs)) :
    (At source position kind (.creating jobId subJobs) ∧ ∀ made, event = .call position made → insertedIn event = none) ∨
      (∃ before, subJobs = before + 1 ∧ At source position kind (.creating jobId before) ∧
        insertedIn event = some (jobId, if before = 0 then .scaling else .combinedDHP)) ∨
      (subJobs = 0 ∧ At source position kind (.drawn jobId) ∧ (∃ made, event = .call position made) ∧
        insertedIn event = none ∧ source.world.jobs.find? jobId = none ∧ (target.world.jobs.find? jobId).isSome) := by
  obtain ⟨old, silent⟩ | ⟨-, starts⟩ | ⟨before, op, reply, old, legal, rfl, noted, allowed, reached⟩ :=
    here.before tracks step
  · exact .inl ⟨old, fun made calls => absurd calls (silent made)⟩
  · cases kind <;> cases starts
  · obtain ⟨rfl, none⟩ | ⟨before, subJobId, parent, status, type, details, done, rfl, rfl, made⟩ |
      ⟨rfl, drawn, inserted, url, routingKey, status, details, job, rfl, made, rfl⟩ :=
      JobPhase.creating_note position noted.symm
    · exact .inl ⟨old, fun _ _ => none⟩
    · cases made
      refine .inr (.inl ⟨before, rfl, old, ?_⟩)
      cases legal with
      | quiet quiet => exact quiet.elim
      | insertSubJob => rfl
    · cases made
      obtain ⟨fresh, rfl⟩ := allowed
      obtain rfl : drawn = inserted := by cases legal with
        | quiet quiet => exact quiet.elim
        | insertJob => rfl
      refine .inr (.inr ⟨rfl, old, ⟨_, rfl⟩, rfl, fresh, ?_⟩)
      rw [reached]
      exact Option.isSome_iff_exists.mpr ⟨_,
        (find?_createJob _ _ _ _ _ _ default _).trans (by rw [fresh, if_pos rfl]; rfl)⟩

theorem At.creating_before (tracks : jobMonitor.TracksAll source) (step : Step (platform registry) source event target)
    {position : ℕ} {kind : Kind} {jobId : Uuid} {subJobs : ℕ} (here : At target position kind (.creating jobId subJobs)) :
    (∃ before, At source position kind (.creating jobId before)) ∨
      (At source position kind (.drawn jobId) ∧ source.world.jobs.find? jobId = none ∧
        (target.world.jobs.find? jobId).isSome) := by
  obtain ⟨old, -⟩ | ⟨before, -, old, -⟩ | ⟨-, old, -, -, fresh, known⟩ := here.creation_before tracks step
  · exact .inl ⟨subJobs, old⟩
  · exact .inl ⟨before, old⟩
  · exact .inr ⟨old, fresh, known⟩

structure JobIds (pool : System) : Prop where
  /-- the id that a creation has drawn is taken -/
  drawn : ∀ position kind jobId, At pool position kind (.drawn jobId) → jobId ∈ pool.world.uuids
  /-- a cancellation names a job that exists, or one that is never created -/
  named : ∀ task ∈ pool.tasks, ∀ jobId, task.kind = .cancelJob jobId → jobId ∈ pool.world.uuids ∧
    ((pool.world.jobs.find? jobId).isSome ∨ ∀ position kind, ¬ At pool position kind (.drawn jobId))

/-- A request names its job in every phase. -/
theorem At.named {pool : System} (ids : JobIds pool) {position : ℕ} {jobId : Uuid} {phase : JobPhase}
    (here : At pool position (.cancelJob jobId) phase) : jobId ∈ pool.world.uuids ∧
      ((pool.world.jobs.find? jobId).isSome ∨ ∀ position kind, ¬ At pool position kind (.drawn jobId)) := by
  obtain ⟨task, present, -, kind, -⟩ := here
  exact ids.named task (List.mem_of_getElem? present) jobId kind

theorem status_of_updateJobStatus {w : World} {jobId : Uuid} {status : JobStatus} {row : JobRow}
    (found : (Stmt.run w (.updateJobStatus jobId status) ()).jobs.find? jobId = some row) : row.status = status := by
  rw [Stmt.run, find?_updateJob] at found
  obtain ⟨before, known, rfl⟩ := Option.map_eq_some_iff.mp found
  simp [job_id known]

theorem JobPhase.jobCanceled_note {phase : JobPhase} {made : Act} (canceled : phase.note made = .jobCanceled) :
    phase = .jobCanceled ∨ ∃ jobId status done, phase = .cancelling ∧
      made = ⟨.sql (.updateJobStatus jobId status), .ok done⟩ := by
  have noted := phase.notes made
  rw [canceled] at noted
  cases noted with
  | stays => exact .inl rfl
  | cancelsJob jobId status done => exact .inr ⟨jobId, status, done, rfl, rfl⟩

/-- A cancellation is halfway once its job is canceled. -/
theorem At.jobCanceled_before (tracks : jobMonitor.TracksAll source) (step : Step (platform registry) source event target)
    {position : ℕ} {jobId : Uuid} (here : At target position (.cancelJob jobId) .jobCanceled) :
    At source position (.cancelJob jobId) .jobCanceled ∨
      ∀ row, target.world.jobs.find? jobId = some row → row.status = .canceled := by
  obtain ⟨old, -⟩ | ⟨-, starts⟩ | ⟨before, op, reply, old, legal, rfl, noted, allowed, reached⟩ :=
    here.before tracks step
  · exact .inl old
  · cases starts
  · obtain rfl | ⟨jobId', status, done, rfl, made⟩ := JobPhase.jobCanceled_note noted.symm
    · exact .inl old
    · cases made
      cases legal with
      | quiet quiet => exact quiet.elim
      | cancelJob =>
        right
        intro row found
        rw [reached] at found
        exact status_of_updateJobStatus found

/-- The row of a job that no creation has drawn is an old one, perhaps changed. -/
theorem job_before_of_known (tracks : jobMonitor.TracksAll source) (step : Step (platform registry) source event target)
    {jobId : Uuid} {row : JobRow} (found : target.world.jobs.find? jobId = some row)
    (known : (source.world.jobs.find? jobId).isSome ∨ ∀ position kind, ¬ At source position kind (.drawn jobId)) :
    ∃ old, source.world.jobs.find? jobId = some old ∧ (row = old ∨ JobChange source old event row) := by
  obtain old | ⟨fresh, ⟨here⟩⟩ := job_before tracks step found
  · exact old
  · obtain rfl := job_id found
    obtain exists_ | none := known
    · simp [fresh] at exists_
    · exact absurd here (none _ _)

theorem job_isSome (tracks : jobMonitor.TracksAll source) (step : Step (platform registry) source event target)
    {id : Uuid} (known : (source.world.jobs.find? id).isSome) : (target.world.jobs.find? id).isSome := by
  obtain ⟨row, found⟩ := Option.isSome_iff_exists.mp known
  obtain ⟨later, found', -⟩ := job_step tracks step found
  simp [found']

theorem JobIds.step (tracks : jobMonitor.TracksAll source) (ids : JobIds source)
    (step : Step (platform registry) source event target) : JobIds target where
  drawn position kind jobId here := by
    obtain old | ⟨-, taken, -⟩ := here.drawn_before tracks step
    · exact uuids_grow step (ids.drawn position kind jobId old)
    · exact taken
  named task member jobId cancels := by
    have kept (taken : jobId ∈ source.world.uuids)
        (settled : (source.world.jobs.find? jobId).isSome ∨ ∀ position kind, ¬ At source position kind (.drawn jobId)) :
        jobId ∈ target.world.uuids ∧
          ((target.world.jobs.find? jobId).isSome ∨ ∀ position kind, ¬ At target position kind (.drawn jobId)) := by
      refine ⟨uuids_grow step taken, settled.imp (job_isSome tracks step) fun none position kind here => ?_⟩
      obtain old | ⟨fresh, -⟩ := here.drawn_before tracks step
      · exact none position kind old
      · exact fresh taken
    obtain ⟨position, present⟩ := List.mem_iff_getElem?.mp member
    obtain old | ⟨kind, rfl, -, rfl⟩ | ⟨before, op, next, reply, old, -, -, -, rfl⟩ := step.task_cases present
    · obtain ⟨taken, settled⟩ := ids.named task (List.mem_of_getElem? old) jobId cancels
      exact kept taken settled
    · obtain rfl : kind = .cancelJob jobId := cancels
      have undrawn (fresh : jobId ∉ source.world.uuids) (position : ℕ) (kind : Kind) :
          ¬ At target position kind (.drawn jobId) := by
        intro here
        obtain ⟨old, -⟩ | ⟨-, starts⟩ | ⟨_, _, _, _, _, calls, -⟩ := here.before tracks step
        · exact fresh (ids.drawn position kind jobId old)
        · cases kind <;> cases starts
        · cases calls
      cases step with
      | spawn admitted => exact ⟨List.mem_cons_self .., admitted.imp_right undrawn⟩
    · obtain ⟨taken, settled⟩ := ids.named before (List.mem_of_getElem? old) jobId cancels
      exact kept taken settled

theorem JobIds.of_initial {pool : System} (initial : Initial pool) : JobIds pool where
  drawn _ _ _ here := absurd here (not_at_of_initial initial)
  named task member := by simp [initial.tasks] at member

end Bms
