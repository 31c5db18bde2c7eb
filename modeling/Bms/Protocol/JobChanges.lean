import Bms.Protocol.JobCoverage

/-! # Who changes jobs, sub-jobs and results

Inversion lemmas for one step of the system: a sub-job's row, a job's row or the results change only
through the listed calls, made by a task of the listed kind in the listed phase. Every invariant
about jobs is derived from these.
-/

namespace Bms

open Process

/-- A task in flight at a position, of a kind and in a phase of the protocol. -/
abbrev At (pool : System) (position : ℕ) (kind : Kind) (phase : JobPhase) : Prop :=
  jobMonitor.At pool position kind phase

/-- The calls that change rows of sub-jobs: which rows, and how. -/
inductive SubJobWrite (pool : System) : SystemEvent → (SubJobRow → Bool) → (SubJobRow → SubJobRow) → Prop
  | recorded {position : ℕ} {subJob : SubJobWithJob} {workers : List String} {done : Unit}
      (here : At pool position .subJobTick (.surveyed subJob workers)) (measuring : subJob.type = .combinedDHP)
      (created : subJob.status = .created) :
      SubJobWrite pool
        (.call position ⟨.sql (.updateSubJobWorkersCount subJob.id (excludedAndCount subJob workers).2), .ok done⟩)
        (fun row => row.id = subJob.id) (fun row => { row with
          details := row.details.merge (.obj [("workers_count", .int (excludedAndCount subJob workers).2)]) })
  | pended {position : ℕ} {subJob : SubJobWithJob} {workers : List String} {deadline : DateTime} {done : Unit}
      (here : At pool position .subJobTick (.dispatched subJob workers)) (measuring : subJob.type = .combinedDHP)
      (created : subJob.status = .created) :
      SubJobWrite pool (.call position ⟨.sql (.updateSubJobStatusAndDeadline subJob.id .pending deadline), .ok done⟩)
        (fun row => row.id = subJob.id) (fun row => { row with status := .pending, deadlineAt := some deadline.stored })
  | scaled {position : ℕ} {subJob : SubJobWithJob} {workers : List String} {deadline : DateTime} {done : Unit}
      (here : At pool position .subJobTick (.surveyed subJob workers)) (scaling : subJob.type = .scaling)
      (created : subJob.status = .created) :
      SubJobWrite pool
        (.call position ⟨.sql (.updateSubJobStatusAndDeadline subJob.id .processing deadline), .ok done⟩)
        (fun row => row.id = subJob.id) (fun row => { row with status := .processing, deadlineAt := some deadline.stored })
  | unneeded {position : ℕ} {subJob : SubJobWithJob} {workers : List String} {done : Unit}
      (here : At pool position .subJobTick (.surveyed subJob workers)) (scaling : subJob.type = .scaling)
      (created : subJob.status = .created) :
      SubJobWrite pool (.call position ⟨.sql (.updateSubJobStatus subJob.id .canceled), .ok done⟩)
        (fun row => row.id = subJob.id) (fun row => { row with status := .canceled })
  | reached {position : ℕ} {subJob : SubJobWithJob} {workers : List String} {done : Unit}
      (here : At pool position .subJobTick (.surveyed subJob workers)) (scaling : subJob.type = .scaling)
      (processing : subJob.status = .processing) :
      SubJobWrite pool (.call position ⟨.sql (.updateSubJobStatus subJob.id .completed), .ok done⟩)
        (fun row => row.id = subJob.id) (fun row => { row with status := .completed })
  | completed {position : ℕ} {subJob : SubJobWithJob} {data : List WorkerDataRow} {workersCount : ℕ} {done : Unit}
      (here : At pool position .subJobTick (.answered subJob data)) (measuring : subJob.type = .combinedDHP)
      (processing : subJob.status = .processing) (counted : workersCountOf subJob = .ok workersCount)
      (enough : workersCount ≤ data.length) :
      SubJobWrite pool (.call position ⟨.sql (.updateSubJobStatus subJob.id .completed), .ok done⟩)
        (fun row => row.id = subJob.id) (fun row => { row with status := .completed })
  | failed {position : ℕ} {phase : JobPhase} {subJob : SubJobWithJob} {message : String} {done : Unit}
      (here : At pool position .subJobTick phase) (failable : phase.Failable subJob) :
      SubJobWrite pool (.call position ⟨.sql (.updateSubJobStatusWithError subJob.id .failed message), .ok done⟩)
        (fun row => row.id = subJob.id)
        (fun row => { row with status := .failed, details := row.details.set "error" (.str message) })
  | begun {position : ℕ} {workerName : String} {details : WorkerStatusJobDetails} {timestamp : DateTime} {done : Unit}
      (here : At pool position (.statusDelivery (.workerStatus ⟨workerName, .job (some details), timestamp⟩)) .aside) :
      SubJobWrite pool (.call position ⟨.sql (.updateSubJobStatus details.subJobId .processing), .ok done⟩)
        (fun row => row.id = details.subJobId) (fun row => { row with status := .processing })
  | canceled {position : ℕ} {jobId : Uuid} {done : Unit} (here : At pool position (.cancelJob jobId) .jobCanceled) :
      SubJobWrite pool (.call position ⟨.sql (.updateSubJobsStatusByJobId jobId .canceled), .ok done⟩)
        (fun row => row.jobId = jobId) (fun row => { row with status := .canceled })

/-- What never changes in the row of a sub-job. -/
theorem SubJobWrite.fixed {pool : System} {event : SystemEvent} {test : SubJobRow → Bool}
    {change : SubJobRow → SubJobRow} (write : SubJobWrite pool event test change) (row : SubJobRow) :
    (change row).id = row.id ∧ (change row).jobId = row.jobId ∧ (change row).type = row.type ∧
      (change row).createdAt = row.createdAt := by
  cases write <;> exact ⟨rfl, rfl, rfl, rfl⟩

/-- A step changes the row of a sub-job. -/
def SubJobChange (pool : System) (row : SubJobRow) (event : SystemEvent) (later : SubJobRow) : Prop :=
  ∃ test change, SubJobWrite pool event test change ∧ test row = true ∧ later = change row

theorem SubJobChange.fixed {pool : System} {row later : SubJobRow} {event : SystemEvent}
    (changed : SubJobChange pool row event later) :
    later.id = row.id ∧ later.jobId = row.jobId ∧ later.type = row.type ∧ later.createdAt = row.createdAt := by
  obtain ⟨test, change, write, -, rfl⟩ := changed
  exact write.fixed row

/-- The calls that change the row of a job. -/
inductive JobChange (pool : System) (row : JobRow) : SystemEvent → JobRow → Prop
  | canceled {position : ℕ} {done : Unit} (here : At pool position (.cancelJob row.id) .cancelling) :
      JobChange pool row (.call position ⟨.sql (.updateJobStatus row.id .canceled), .ok done⟩)
        { row with status := .canceled }
  | completed {position : ℕ} {subJob : SubJobWithJob} {done : Unit}
      (here : At pool position .subJobTick (.emptied subJob)) (own : subJob.jobId = row.id) :
      JobChange pool row (.call position ⟨.sql (.updateJobStatus subJob.jobId .completed), .ok done⟩)
        { row with status := .completed }
  | expected {position : ℕ} {subJob : SubJobWithJob} {workers : List String} {count : ℕ} {done : Unit}
      (here : At pool position .subJobTick (.surveyed subJob workers)) (own : subJob.jobId = row.id) :
      JobChange pool row (.call position ⟨.sql (.updateJobWorkersCount subJob.jobId count), .ok done⟩)
        { row with details := row.details.merge (.obj [("workers_count", .int (castI64 count))]) }

/-- The call that inserts the row of a job. -/
inductive JobInsert (pool : System) : SystemEvent → JobRow → Prop
  | inserted {position : ℕ} {payload : CreateJobInput} {id : Uuid} {url routingKey : String} {details : JobDetails}
      (here : At pool position (.createJob payload) (.drawn id)) :
      JobInsert pool
        (.call position ⟨.sql (.createJob id url routingKey .pending details), .ok ⟨id, url, routingKey, .pending, details⟩⟩)
        ⟨id, url, routingKey, .pending, details.toJson, pool.world.now⟩

/-- Two worlds with the same jobs, sub-jobs, results and messages. -/
structure World.SameJobs (w other : World) : Prop where
  jobs : other.jobs = w.jobs
  subJobs : other.subJobs = w.subJobs
  workerData : other.workerData = w.workerData
  jobQueue : other.jobQueue = w.jobQueue
  statusQueue : other.statusQueue = w.statusQueue
  resultQueue : other.resultQueue = w.resultQueue

theorem sameJobs_of_quiet (w : World) {op : Op} (reply : op.Reply) (quiet : op.Quiet) :
    w.SameJobs (Act.after w ⟨op, reply⟩) := by
  cases op with
  | sql stmt =>
    cases reply with
    | error e => exact ⟨rfl, rfl, rfl, rfl, rfl, rfl⟩
    | ok row => cases stmt <;> first | exact absurd quiet id | exact ⟨rfl, rfl, rfl, rfl, rfl, rfl⟩
  | updateService => rcases reply with _ | (_ | _) <;> exact ⟨rfl, rfl, rfl, rfl, rfl, rfl⟩
  | dockerComposeUp => cases reply <;> exact ⟨rfl, rfl, rfl, rfl, rfl, rfl⟩
  | publishJob | publishResult | publishStatus | newUuid => exact absurd quiet id
  | _ => exact ⟨rfl, rfl, rfl, rfl, rfl, rfl⟩

theorem sameJobs_enter (w : World) (kind : Kind) : w.SameJobs (enter w kind) := by
  cases kind <;> exact ⟨rfl, rfl, rfl, rfl, rfl, rfl⟩

theorem subJob_id {w : World} {id : Uuid} {row : SubJobRow} (found : w.subJobs.find? id = some row) : row.id = id :=
  (Table.key_of_find? found : row.key = id)

theorem mem_iff_find? {w : World} {row : SubJobRow} : row ∈ w.subJobs.rows ↔ w.subJobs.find? row.id = some row :=
  ⟨fun member => Table.find?_of_mem member, Table.mem_of_find?⟩

theorem job_id {w : World} {id : Uuid} {row : JobRow} (found : w.jobs.find? id = some row) : row.id = id :=
  Table.key_of_find? found

theorem find?_updateSubJob (w : World) (test : SubJobRow → Bool) (change : SubJobRow → SubJobRow)
    (same : ∀ row, (change row).key = row.key) (id : Uuid) :
    (Stmt.updateSubJob w test change same).subJobs.find? id =
      (w.subJobs.find? id).map fun row => if test row then change row else row := by
  rw [Stmt.updateSubJob, Table.find?_updateWhere]

theorem find?_updateJob (w : World) (jobId : Uuid) (change : JobRow → JobRow) (same : ∀ row, (change row).id = row.id)
    (id : Uuid) : (Stmt.updateJob w jobId change same).jobs.find? id =
      (w.jobs.find? id).map fun row => if row.id = jobId then change row else row := by
  simp only [Stmt.updateJob, Table.find?_updateWhere, decide_eq_true_eq]

theorem find?_createJob (w : World) (jobId : Uuid) (url routingKey : String) (status : JobStatus) (details : JobDetails)
    (done : Job) (id : Uuid) :
    (Stmt.run w (.createJob jobId url routingKey status details) done).jobs.find? id =
      (w.jobs.find? id).or
        (if jobId = id then some ⟨jobId, url, routingKey, status, details.toJson, w.now⟩ else none) :=
  Table.find?_insert ..

variable {registry : ServiceScalerRegistry} {source target : System} {event : SystemEvent}

/-- A call of a step is one that the protocol permits to the task that makes it. -/
theorem legal_of_call {position : ℕ} {op : Op} {reply : op.Reply} (tracks : jobMonitor.TracksAll source)
    (step : Step (platform registry) source (.call position ⟨op, reply⟩) target) :
    ∃ kind phase, At source position kind phase ∧ JobLegal kind phase op ∧
      Act.Allowed source.world ⟨op, reply⟩ ∧ target.world = Act.after source.world ⟨op, reply⟩ := tracks.legal step

/-- A step that is no call changes no job, sub-job, result or message. -/
theorem sameJobs_of_step (step : Step (platform registry) source event target)
    (silent : ∀ position made, event ≠ .call position made) : source.world.SameJobs target.world := by
  cases step with
  | spawn admitted => exact sameJobs_enter ..
  | call _ _ _ => exact absurd rfl (silent _ _)
  | drift drifts =>
    obtain ⟨now, rfl⟩ := drifts
    exact ⟨rfl, rfl, rfl, rfl, rfl, rfl⟩

/-- The creation of a job inserts a sub-job. -/
structure SubJobInsert (pool : System) (event : SystemEvent) (row : SubJobRow) : Prop where
  creates : ∃ position payload jobId subJobs details done, At pool position (.createJob payload) (.creating jobId subJobs) ∧
    subJobs < 4 ∧ (pool.world.jobs.find? jobId).isSome ∧
    event = .call position ⟨.sql (.createSubJob row.id jobId .created
      (if subJobs = 0 then .scaling else .combinedDHP) details), .ok done⟩ ∧
    row = ⟨Stmt.insertedSubJob row.id jobId .created (if subJobs = 0 then .scaling else .combinedDHP) details,
      pool.world.now⟩
  fresh : pool.world.subJobs.find? row.id = none

/-- What a step may do to the sub-jobs. -/
inductive SubJobsStep (source : System) (event : SystemEvent) (target : System) : Prop
  | kept (same : target.world.subJobs = source.world.subJobs)
  | written {test : SubJobRow → Bool} {change : SubJobRow → SubJobRow} (write : SubJobWrite source event test change)
      (rows : ∀ id, target.world.subJobs.find? id =
        (source.world.subJobs.find? id).map fun row => if test row then change row else row)
  | inserted {row : SubJobRow} (insert : SubJobInsert source event row)
      (rows : ∀ id, target.world.subJobs.find? id = if row.id = id then some row else source.world.subJobs.find? id)

theorem subJobs_step (tracks : jobMonitor.TracksAll source) (step : Step (platform registry) source event target) :
    SubJobsStep source event target := by
  cases event with
  | spawn kind => exact .kept (sameJobs_of_step step fun _ _ same => by cases same).subJobs
  | drift => exact .kept (sameJobs_of_step step fun _ _ same => by cases same).subJobs
  | call position made =>
    obtain ⟨op, reply⟩ := made
    obtain ⟨kind, phase, here, legal, allowed, reached⟩ := legal_of_call tracks step
    have unchanged (same : (Act.after source.world ⟨op, reply⟩).subJobs = source.world.subJobs) :
        SubJobsStep source (.call position ⟨op, reply⟩) target := .kept (by rw [reached, same])
    have updated {test : SubJobRow → Bool} {change : SubJobRow → SubJobRow} {same : ∀ row, (change row).key = row.key}
        (reached : target.world = Stmt.updateSubJob source.world test change same)
        (write : SubJobWrite source (.call position ⟨op, reply⟩) test change) :
        SubJobsStep source (.call position ⟨op, reply⟩) target :=
      .written write fun id => by rw [reached, find?_updateSubJob]
    cases legal with
    | quiet quiet => exact unchanged (sameJobs_of_quiet _ reply quiet).subJobs
    | record measuring created online =>
      cases reply with
      | error e => exact unchanged rfl
      | ok done => exact updated reached (.recorded here measuring created)
    | pend measuring created =>
      cases reply with
      | error e => exact unchanged rfl
      | ok done => exact updated reached (.pended here measuring created)
    | scaled scaling created =>
      cases reply with
      | error e => exact unchanged rfl
      | ok done => exact updated reached (.scaled here scaling created)
    | unneeded scaling created =>
      cases reply with
      | error e => exact unchanged rfl
      | ok done => exact updated reached (.unneeded here scaling created)
    | reached scaling processing =>
      cases reply with
      | error e => exact unchanged rfl
      | ok done => exact updated reached (.reached here scaling processing)
    | complete measuring processing counted enough =>
      cases reply with
      | error e => exact unchanged rfl
      | ok done => exact updated reached (.completed here measuring processing counted enough)
    | fail failable =>
      cases reply with
      | error e => exact unchanged rfl
      | ok done => exact updated reached (.failed here failable)
    | begin =>
      cases reply with
      | error e => exact unchanged rfl
      | ok done => exact updated reached (.begun here)
    | cancelSubJobs =>
      cases reply with
      | error e => exact unchanged rfl
      | ok done => exact updated reached (.canceled here)
    | @insertSubJob payload jobId subJobId subJobs details few =>
      cases reply with
      | error e => exact unchanged rfl
      | ok subJob =>
        obtain ⟨fresh, parent, -⟩ := allowed
        have insert : SubJobInsert source (.call position ⟨.sql (.createSubJob subJobId jobId .created
            (if subJobs = 0 then .scaling else .combinedDHP) details), .ok subJob⟩)
            ⟨Stmt.insertedSubJob subJobId jobId .created (if subJobs = 0 then .scaling else .combinedDHP) details,
              source.world.now⟩ :=
          ⟨⟨position, payload, jobId, subJobs, details, subJob, here, few, parent, rfl, rfl⟩, fresh⟩
        refine .inserted insert fun id => ?_
        rw [reached]
        exact Table.find?_insert_fresh fresh id
    | drawJob | drawSubJob | drawRun => exact unchanged rfl
    | _ => cases reply <;> exact unchanged rfl

/-- A row of a sub-job stays, and is changed only by the listed calls. -/
theorem subJob_step (tracks : jobMonitor.TracksAll source) (step : Step (platform registry) source event target)
    {id : Uuid} {row : SubJobRow} (found : source.world.subJobs.find? id = some row) :
    ∃ later, target.world.subJobs.find? id = some later ∧ (later = row ∨ SubJobChange source row event later) := by
  cases subJobs_step tracks step with
  | kept same => exact ⟨row, by rwa [same], .inl rfl⟩
  | written write rows =>
    refine ⟨_, by rw [rows, found, Option.map_some], ?_⟩
    split
    · next tested => exact .inr ⟨_, _, write, tested, rfl⟩
    · exact .inl rfl
  | inserted insert rows =>
    refine ⟨row, ?_, .inl rfl⟩
    rw [rows, if_neg, found]
    rintro rfl
    rw [insert.fresh] at found
    cases found

/-- A row of a sub-job stays one of its job, of its type. -/
theorem subJob_kept (tracks : jobMonitor.TracksAll source) (step : Step (platform registry) source event target)
    {id : Uuid} {row : SubJobRow} (found : source.world.subJobs.find? id = some row) :
    ∃ later, target.world.subJobs.find? id = some later ∧ later.jobId = row.jobId ∧ later.type = row.type := by
  obtain ⟨later, found', rfl | change⟩ := subJob_step tracks step found
  · exact ⟨later, found', rfl, rfl⟩
  · exact ⟨later, found', change.fixed.2.1, change.fixed.2.2.1⟩

/-- A new row of a sub-job is inserted by the creation of its job. -/
theorem subJob_inserted (tracks : jobMonitor.TracksAll source) (step : Step (platform registry) source event target)
    {id : Uuid} {row : SubJobRow} (fresh : source.world.subJobs.find? id = none)
    (found : target.world.subJobs.find? id = some row) : SubJobInsert source event row := by
  cases subJobs_step tracks step with
  | kept same =>
    rw [same, fresh] at found
    cases found
  | written write rows =>
    rw [rows, fresh] at found
    cases found
  | inserted insert rows =>
    rw [rows] at found
    split at found
    · cases found
      exact insert
    · rw [fresh] at found
      cases found

/-- A row of a job stays, and is changed only by the listed calls. -/
theorem job_step (tracks : jobMonitor.TracksAll source) (step : Step (platform registry) source event target)
    {id : Uuid} {row : JobRow} (found : source.world.jobs.find? id = some row) :
    ∃ later, target.world.jobs.find? id = some later ∧ (later = row ∨ JobChange source row event later) := by
  have unchanged (same : target.world.jobs = source.world.jobs) :
      ∃ later, target.world.jobs.find? id = some later ∧ (later = row ∨ JobChange source row event later) :=
    ⟨row, by rwa [same], .inl rfl⟩
  cases event with
  | spawn kind => exact unchanged (sameJobs_of_step step fun _ _ same => by cases same).jobs
  | drift => exact unchanged (sameJobs_of_step step fun _ _ same => by cases same).jobs
  | call position made =>
    obtain ⟨op, reply⟩ := made
    obtain ⟨kind, phase, here, legal, allowed, reached⟩ := legal_of_call tracks step
    rw [reached] at unchanged ⊢
    have updated {jobId : Uuid} {change : JobRow → JobRow} {same : ∀ row, (change row).id = row.id}
        (changed : row.id = jobId → JobChange source row (.call position ⟨op, reply⟩) (change row)) :
        ∃ later, (Stmt.updateJob source.world jobId change same).jobs.find? id = some later ∧
          (later = row ∨ JobChange source row (.call position ⟨op, reply⟩) later) := by
      refine ⟨_, by rw [find?_updateJob, found, Option.map_some], ?_⟩
      split
      · next own => exact .inr (changed own)
      · exact .inl rfl
    cases legal with
    | quiet quiet => exact unchanged (sameJobs_of_quiet _ reply quiet).jobs
    | expect scaling created =>
      cases reply with
      | error e => exact unchanged rfl
      | ok done => exact updated fun own => .expected here own.symm
    | close measuring =>
      cases reply with
      | error e => exact unchanged rfl
      | ok done => exact updated fun own => .completed here own.symm
    | cancelJob =>
      cases reply with
      | error e => exact unchanged rfl
      | ok done =>
        apply updated
        intro own
        subst own
        exact .canceled here
    | insertJob =>
      cases reply with
      | error e => exact unchanged rfl
      | ok done =>
        refine ⟨row, ?_, .inl rfl⟩
        exact (Table.find?_insert ..).trans (by rw [found, Option.some_or])
    | drawJob | drawSubJob | drawRun => exact unchanged rfl
    | _ => cases reply <;> exact unchanged rfl

/-- A new job is inserted, pending, by the creation that has drawn its id. -/
theorem job_inserted (tracks : jobMonitor.TracksAll source) (step : Step (platform registry) source event target)
    {id : Uuid} {row : JobRow} (fresh : source.world.jobs.find? id = none)
    (found : target.world.jobs.find? id = some row) : JobInsert source event row := by
  have kept {w : World} (same : target.world = w) (stays : w.jobs.find? id = source.world.jobs.find? id) : False := by
    rw [same, stays, fresh] at found
    cases found
  have updated {jobId : Uuid} {change : JobRow → JobRow} {same : ∀ row, (change row).id = row.id}
      (same' : target.world = Stmt.updateJob source.world jobId change same) : False :=
    kept same' (by rw [Stmt.updateJob, Table.find?_updateWhere, fresh, Option.map_none])
  cases event with
  | spawn kind => exact (kept rfl (by rw [(sameJobs_of_step step fun _ _ same => by cases same).jobs])).elim
  | drift => exact (kept rfl (by rw [(sameJobs_of_step step fun _ _ same => by cases same).jobs])).elim
  | call position made =>
    obtain ⟨op, reply⟩ := made
    obtain ⟨kind, phase, here, legal, allowed, reached⟩ := legal_of_call tracks step
    cases legal with
    | quiet quiet => exact (kept reached (by rw [(sameJobs_of_quiet _ reply quiet).jobs])).elim
    | @insertJob payload jobId url routingKey details =>
      cases reply with
      | error e => exact (kept reached rfl).elim
      | ok job =>
        obtain ⟨-, rfl⟩ := allowed
        rw [reached] at found
        have inserted := (find?_createJob _ _ _ _ _ _ default _).symm.trans found
        rw [fresh, Option.none_or] at inserted
        by_cases own : jobId = id
        · subst own
          rw [if_pos rfl] at inserted
          obtain rfl := Option.some.inj inserted
          exact .inserted here
        · rw [if_neg own] at inserted
          cases inserted
    | expect | close | cancelJob =>
      cases reply with
      | error e => exact (kept reached rfl).elim
      | ok done => exact (updated reached).elim
    | drawJob | drawSubJob | drawRun => exact (kept reached rfl).elim
    | _ => cases reply <;> exact (kept reached rfl).elim

/-- A row of a job is an old one, perhaps changed, or it is inserted by the step. -/
theorem job_before (tracks : jobMonitor.TracksAll source) (step : Step (platform registry) source event target)
    {id : Uuid} {row : JobRow} (found : target.world.jobs.find? id = some row) :
    (∃ old, source.world.jobs.find? id = some old ∧ (row = old ∨ JobChange source old event row)) ∨
      (source.world.jobs.find? id = none ∧ JobInsert source event row) := by
  cases earlier : source.world.jobs.find? id with
  | none => exact .inr ⟨rfl, job_inserted tracks step earlier found⟩
  | some old =>
    obtain ⟨later, found', changed⟩ := job_step tracks step earlier
    obtain rfl : later = row := Option.some.inj (found'.symm.trans found)
    exact .inl ⟨old, rfl, changed⟩

end Bms
