import Bms.Protocol.JobIds
import Bms.Protocol.Traffic

/-! # Creations and the sub-jobs of a job

A creation inserts a job, its scaling sub-job and then its measuring sub-jobs, one statement at a
time, and no other task inserts sub-jobs of that job. So how far it has come can be read off the
rows, and a measuring sub-job never exists without a scaling one.
-/

namespace Bms

open Process

variable {registry : ServiceScalerRegistry} {source target : System} {event : SystemEvent}

/-! ## Rows before and after a step -/

/-- A row of a sub-job is an old one, perhaps changed, or it is inserted by the step. -/
theorem row_before (tracks : jobMonitor.TracksAll source) (step : Step (platform registry) source event target)
    {row : SubJobRow} (member : row ∈ target.world.subJobs.rows) :
    (∃ old ∈ source.world.subJobs.rows, old.id = row.id ∧ old.jobId = row.jobId ∧ old.type = row.type ∧
      old.createdAt = row.createdAt ∧ (row = old ∨ SubJobChange source old event row)) ∨
      SubJobInsert source event row := by
  have found := mem_iff_find?.mp member
  cases earlier : source.world.subJobs.find? row.id with
  | none => exact .inr (subJob_inserted tracks step earlier found)
  | some old =>
    obtain ⟨later, found', changed⟩ := subJob_step tracks step earlier
    obtain rfl : later = row := Option.some.inj (found'.symm.trans found)
    refine .inl ⟨old, Table.mem_of_find? earlier, ?_⟩
    obtain rfl | change := changed
    · exact ⟨rfl, rfl, rfl, rfl, .inl rfl⟩
    · obtain ⟨id, job, type, created⟩ := change.fixed
      exact ⟨id.symm, job.symm, type.symm, created.symm, .inr change⟩

/-- A row of a sub-job stays a row of its job, of its type. -/
theorem row_after (tracks : jobMonitor.TracksAll source) (step : Step (platform registry) source event target)
    {row : SubJobRow} (member : row ∈ source.world.subJobs.rows) :
    ∃ later ∈ target.world.subJobs.rows, later.jobId = row.jobId ∧ later.type = row.type := by
  obtain ⟨later, found, same⟩ := subJob_kept tracks step (mem_iff_find?.mp member)
  exact ⟨later, Table.mem_of_find? found, same⟩

/-! ## Counting the measuring sub-jobs of a job -/

def measuringCount (w : World) (jobId : Uuid) : ℕ :=
  w.subJobs.rows.countP fun row => row.jobId = jobId ∧ row.type = .combinedDHP

theorem measuringCount_updateSubJob (w : World) (test : SubJobRow → Bool) (change : SubJobRow → SubJobRow)
    (same : ∀ row, (change row).key = row.key)
    (fixed : ∀ row, (change row).jobId = row.jobId ∧ (change row).type = row.type) (jobId : Uuid) :
    measuringCount (Stmt.updateSubJob w test change same) jobId = measuringCount w jobId := by
  simp only [measuringCount, Stmt.updateSubJob, Table.updateWhere, Table.update, List.countP_map]
  congr 1
  funext row
  simp only [Function.comp_apply]
  split
  · rw [(fixed row).1, (fixed row).2]
  · rfl

theorem measuringCount_after (w : World) (position : ℕ) (made : Act) (allowed : made.Allowed w) (jobId : Uuid) :
    measuringCount (Act.after w made) jobId =
      measuringCount w jobId + if insertedIn (.call position made) = some (jobId, .combinedDHP) then 1 else 0 := by
  have unchanged (same : measuringCount (Act.after w made) jobId = measuringCount w jobId)
      (other : insertedIn (.call position made) = none) : measuringCount (Act.after w made) jobId =
        measuringCount w jobId + if insertedIn (.call position made) = some (jobId, .combinedDHP) then 1 else 0 := by
    rw [same, if_neg (by simp [other]), Nat.add_zero]
  obtain ⟨op, reply⟩ := made
  cases op with
  | sql stmt =>
    cases reply with
    | error e => exact unchanged rfl (by cases stmt <;> rfl)
    | ok row =>
      cases stmt with
      | createSubJob subJobId parent status type details =>
        obtain ⟨fresh, -⟩ := allowed
        have rows : (Act.after w ⟨.sql (.createSubJob subJobId parent status type details), .ok row⟩).subJobs.rows =
            w.subJobs.rows ++ [⟨Stmt.insertedSubJob subJobId parent status type details, w.now⟩] :=
          Table.rows_insert_fresh fresh
        rw [measuringCount, rows, List.countP_append, List.countP_singleton, ← measuringCount]
        refine congrArg (measuringCount w jobId + ·) (if_congr ?_ rfl rfl)
        exact decide_eq_true_iff.trans (by simp [insertedIn, Stmt.insertedSubJob])
      | updateSubJobStatus | updateSubJobsStatusByJobId | updateSubJobStatusWithError | updateSubJobStatusAndDeadline
        | updateSubJobWorkersCount =>
        refine unchanged (measuringCount_updateSubJob w _ _ _ ?_ jobId) rfl
        exact fun _ => ⟨rfl, rfl⟩
      | _ => exact unchanged rfl rfl
  | updateService => rcases reply with _ | (_ | _) <;> exact unchanged rfl rfl
  | publishJob | publishStatus | publishResult | dockerComposeUp => cases reply <;> exact unchanged rfl rfl
  | _ => exact unchanged rfl rfl

/-- A job has as many measuring sub-jobs as have been inserted. -/
theorem measuringCount_step (step : Step (platform registry) source event target) (jobId : Uuid) :
    measuringCount target.world jobId = measuringCount source.world jobId +
      if insertedIn event = some (jobId, .combinedDHP) then 1 else 0 := by
  cases step with
  | @spawn kind admitted =>
    have same := (sameJobs_enter source.world kind).subJobs
    exact congrArg (fun table : Table SubJobRow.key => table.rows.countP _) same
  | call present awaits allowed => exact measuringCount_after _ _ _ allowed jobId
  | drift drifts =>
    obtain ⟨now, rfl⟩ := drifts
    rfl

/-! ## How far a creation has come -/

/-- A sub-job is inserted by the creation of its job. -/
theorem SubJobInsert.inserted {row : SubJobRow} (insert : SubJobInsert source event row) :
    ∃ position kind before, At source position kind (.creating row.jobId before) ∧ before < 4 ∧
      (∃ made, event = .call position made) ∧ row.type = (if before = 0 then .scaling else .combinedDHP) ∧
      insertedIn event = some (row.jobId, row.type) ∧ row.status = .created ∧ row.createdAt = source.world.now := by
  obtain ⟨position, payload, jobId, before, details, done, here, few, -, same, new⟩ := insert.creates
  have job : row.jobId = jobId := by rw [new]; rfl
  have type : row.type = if before = 0 then .scaling else .combinedDHP := by rw [new]; rfl
  rw [job, type]
  exact ⟨position, _, before, here, few, ⟨_, same⟩, rfl, by rw [same]; rfl, by rw [new]; rfl, by rw [new]⟩

/-- Who inserts a sub-job, and the row that it leaves. -/
theorem inserting (tracks : jobMonitor.TracksAll source) (step : Step (platform registry) source event target)
    {jobId : Uuid} {type : SubJobType} (inserts : insertedIn event = some (jobId, type)) :
    (∃ position kind before made, At source position kind (.creating jobId before) ∧ before < 4 ∧
        event = .call position made) ∧
      ∃ row ∈ target.world.subJobs.rows, row.jobId = jobId ∧ row.type = type := by
  unfold insertedIn at inserts
  split at inserts
  · cases inserts
    obtain ⟨kind, phase, here, legal, ⟨fresh, -⟩, reached⟩ := legal_of_call tracks step
    cases legal with
    | quiet quiet => exact quiet.elim
    | insertSubJob few =>
      refine ⟨⟨_, _, _, _, here, few, rfl⟩, ?_⟩
      rw [reached, Act.after, Stmt.run, Table.rows_insert_fresh fresh]
      exact ⟨_, List.mem_append_right _ (List.mem_singleton_self _), rfl, rfl⟩
  · cases inserts

structure Creations (pool : System) : Prop where
  parent : ∀ row ∈ pool.world.subJobs.rows, (pool.world.jobs.find? row.jobId).isSome
  known : ∀ position kind jobId subJobs, At pool position kind (.creating jobId subJobs) →
    (pool.world.jobs.find? jobId).isSome
  /-- a job is created once -/
  apart : ∀ position other kind kind' jobId subJobs subJobs', At pool position kind (.creating jobId subJobs) →
    At pool other kind' (.creating jobId subJobs') → position = other
  empty : ∀ position kind jobId, At pool position kind (.creating jobId 0) →
    ∀ row ∈ pool.world.subJobs.rows, row.jobId ≠ jobId
  counted : ∀ position kind jobId subJobs, At pool position kind (.creating jobId subJobs) →
    measuringCount pool.world jobId = subJobs - 1
  begun : ∀ position kind jobId subJobs, At pool position kind (.creating jobId (subJobs + 1)) →
    ∃ row ∈ pool.world.subJobs.rows, row.jobId = jobId ∧ row.type = .scaling
  /-- measuring sub-jobs follow a scaling one -/
  scaling : ∀ row ∈ pool.world.subJobs.rows, row.type = .combinedDHP →
    ∃ other ∈ pool.world.subJobs.rows, other.jobId = row.jobId ∧ other.type = .scaling

/-- The scaling sub-job of a job stays. -/
theorem scaling_after (tracks : jobMonitor.TracksAll source) (step : Step (platform registry) source event target)
    {jobId : Uuid} (scaling : ∃ row ∈ source.world.subJobs.rows, row.jobId = jobId ∧ row.type = .scaling) :
    ∃ row ∈ target.world.subJobs.rows, row.jobId = jobId ∧ row.type = .scaling := by
  obtain ⟨row, member, rfl, type⟩ := scaling
  obtain ⟨later, member', job, type'⟩ := row_after tracks step member
  exact ⟨later, member', job, type'.trans type⟩

/-- A job that does not exist has no sub-jobs. -/
theorem Creations.none_of_fresh (creations : Creations source) {jobId : Uuid}
    (fresh : source.world.jobs.find? jobId = none) : ∀ row ∈ source.world.subJobs.rows, row.jobId ≠ jobId := by
  rintro row member rfl
  have known := creations.parent row member
  rw [fresh] at known
  cases known

/-- While the creation of a job inserts nothing, nobody inserts a sub-job of it. -/
theorem Creations.not_inserted (tracks : jobMonitor.TracksAll source) (creations : Creations source)
    (step : Step (platform registry) source event target) {position : ℕ} {kind : Kind} {jobId : Uuid} {subJobs : ℕ}
    (here : At source position kind (.creating jobId subJobs))
    (silent : ∀ made, event = .call position made → insertedIn event = none) (type : SubJobType) :
    insertedIn event ≠ some (jobId, type) := by
  intro inserts
  obtain ⟨⟨caller, kind', before, made, there, -, calls⟩, -⟩ := inserting tracks step inserts
  obtain rfl := creations.apart _ _ _ _ _ _ _ here there
  rw [silent made calls] at inserts
  cases inserts

theorem Creations.step (tracks : jobMonitor.TracksAll source) (creations : Creations source)
    (step : Step (platform registry) source event target) : Creations target where
  parent row member := by
    obtain ⟨old, there, -, job, -⟩ | insert := row_before tracks step member
    · exact job ▸ job_isSome tracks step (creations.parent old there)
    · obtain ⟨position, kind, before, here, -⟩ := insert.inserted
      exact job_isSome tracks step (creations.known _ _ _ _ here)
  known position kind jobId subJobs here := by
    obtain ⟨old, -⟩ | ⟨before, -, old, -⟩ | ⟨-, -, -, -, -, known⟩ := here.creation_before tracks step
    · exact job_isSome tracks step (creations.known _ _ _ _ old)
    · exact job_isSome tracks step (creations.known _ _ _ _ old)
    · exact known
  apart position other kind kind' jobId subJobs subJobs' here there := by
    have origin {position : ℕ} {kind : Kind} {subJobs : ℕ} (here : At target position kind (.creating jobId subJobs)) :
        (∃ before, At source position kind (.creating jobId before)) ∨
          (source.world.jobs.find? jobId = none ∧ ∃ made, event = .call position made) := by
      obtain ⟨old, -⟩ | ⟨before, -, old, -⟩ | ⟨-, -, calls, -, fresh, -⟩ := here.creation_before tracks step
      · exact .inl ⟨_, old⟩
      · exact .inl ⟨_, old⟩
      · exact .inr ⟨fresh, calls⟩
    obtain ⟨before, old⟩ | ⟨fresh, made, calls⟩ := origin here <;>
      obtain ⟨before', old'⟩ | ⟨fresh', made', calls'⟩ := origin there
    · exact creations.apart _ _ _ _ _ _ _ old old'
    · have known := creations.known _ _ _ _ old
      simp [fresh'] at known
    · have known := creations.known _ _ _ _ old'
      simp [fresh] at known
    · cases calls.symm.trans calls'
      rfl
  empty position kind jobId here row member same := by
    obtain ⟨old, silent⟩ | ⟨before, next, -⟩ | ⟨-, -, -, none, fresh, -⟩ := here.creation_before tracks step
    · obtain ⟨before, there, -, job, -⟩ | insert := row_before tracks step member
      · exact creations.empty _ _ _ old before there (job.trans same)
      · obtain ⟨_, _, _, -, -, -, -, inserts, -⟩ := insert.inserted
        rw [same] at inserts
        exact creations.not_inserted tracks step old silent _ inserts
    · cases next
    · obtain ⟨before, there, -, job, -⟩ | insert := row_before tracks step member
      · exact creations.none_of_fresh fresh before there (job.trans same)
      · obtain ⟨_, _, _, _, _, _, _, inserts, -⟩ := insert.inserted
        rw [none] at inserts
        cases inserts
  counted position kind jobId subJobs here := by
    rw [measuringCount_step step jobId]
    obtain ⟨old, silent⟩ | ⟨before, rfl, old, inserts⟩ | ⟨rfl, -, -, none, fresh, -⟩ := here.creation_before tracks step
    · rw [if_neg (creations.not_inserted tracks step old silent _), creations.counted _ _ _ _ old, Nat.add_zero]
    · rw [creations.counted _ _ _ _ old, inserts]
      cases before with
      | zero => simp
      | succ before => simp
    · have none_of : measuringCount source.world jobId = 0 := by
        apply List.countP_eq_zero.mpr
        intro row member measures
        exact creations.none_of_fresh fresh row member (of_decide_eq_true measures).1
      simp [none_of, none]
  begun position kind jobId subJobs here := by
    obtain ⟨old, -⟩ | ⟨before, next, old, inserts⟩ | ⟨next, -⟩ := here.creation_before tracks step
    · exact scaling_after tracks step (creations.begun _ _ _ _ old)
    · cases before with
      | zero => exact (inserting tracks step inserts).2
      | succ before => exact scaling_after tracks step (creations.begun _ _ _ _ old)
    · cases next
  scaling row member type := by
    obtain ⟨old, there, -, job, type', -⟩ | insert := row_before tracks step member
    · rw [← job]
      exact scaling_after tracks step (creations.scaling old there (type'.trans type))
    · obtain ⟨position, kind, before, here, -, -, type', -⟩ := insert.inserted
      cases before with
      | zero => simp [type] at type'
      | succ before => exact scaling_after tracks step (creations.begun _ _ _ _ here)

theorem Creations.of_initial {pool : System} (initial : Initial pool) : Creations pool where
  parent := by simp [initial.subJobs]
  known _ _ _ _ here := absurd here (not_at_of_initial initial)
  apart _ _ _ _ _ _ _ here := absurd here (not_at_of_initial initial)
  empty _ _ _ here := absurd here (not_at_of_initial initial)
  counted _ _ _ _ here := absurd here (not_at_of_initial initial)
  begun _ _ _ _ here := absurd here (not_at_of_initial initial)
  scaling := by simp [initial.subJobs]

end Bms
