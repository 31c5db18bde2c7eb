import Bms.Properties.JobHistory
import Bms.Protocol.Results
import Bms.Protocol.WorkerMessages

/-! # The trail of a result

A job message repeats what its job's row says and goes on to agree with it, since these columns never
change. What a worker publishes names the job and the sub-job of the message it has received, and a result
is saved as it was published. So every saved result can be traced back to a job message for its sub-job that
did not leave its worker out.
-/

namespace Bms

open Process

/-- The row of a job as a tick has read it, up to the status and the number of workers. -/
def JobRow.Shows (row : JobRow) (job : Job) : Prop :=
  row.id = job.id ∧ row.url = job.url ∧ row.routingKey = job.routingKey ∧ ∃ count,
    JobDetails.Reads row.details { job.details with workersCount := count } ∧
      ({ job.details with workersCount := count } : JobDetails).InRange

theorem JobRow.Shows.keeps {row later : JobRow} {job : Job} (shows : row.Shows job) (same : later.id = row.id)
    (keeps : row.Keeps later) : later.Shows job := by
  obtain ⟨id, url, routingKey, count, reads, range⟩ := shows
  have further := keeps.details _ reads range
  exact ⟨same.trans id, keeps.url.trans url, keeps.routingKey.trans routingKey, further⟩

/-- A job message repeats a job, for one of its measuring sub-jobs. -/
structure JobMessage.Repeats (message : JobMessage) (job : Job) : Prop where
  jobId : message.jobId = job.id
  url : message.url = job.url
  startRange : message.startRange = job.details.startRange
  endRange : message.endRange = job.details.endRange
  logIntervalMs : message.logIntervalMs = job.details.logIntervalMs

/-- A measuring sub-job of a job. -/
def World.MeasuresFor (w : World) (jobId id : Uuid) : Prop :=
  ∃ row, w.subJobs.find? id = some row ∧ row.jobId = jobId ∧ row.type = .combinedDHP

/-- The job whose row is shown by a table. -/
def World.ShowsJob (w : World) (jobId : Uuid) (job : Job) : Prop := ∃ row, w.jobs.find? jobId = some row ∧ row.Shows job

/-- A job message for a sub-job has been published that does not leave a worker out. -/
def World.Asked (w : World) (jobId subJobId : Uuid) (workerName : String) : Prop :=
  ∃ message routingKey, (.workerJob jobId message, routingKey) ∈ w.jobQueue ∧ message.subJobId = subJobId ∧
    workerName ∉ message.excludedWorkers

variable {registry : ServiceScalerRegistry} {source target : System} {event : SystemEvent}

theorem showsJob_step (tracks : jobMonitor.TracksAll source) (step : Step (platform registry) source event target)
    {jobId : Uuid} {job : Job} (shows : source.world.ShowsJob jobId job) : target.world.ShowsJob jobId job := by
  obtain ⟨row, found, shows⟩ := shows
  obtain ⟨later, found', keeps⟩ := jobKeeps_step tracks step found
  exact ⟨later, found', shows.keeps ((job_id found').trans (job_id found).symm) keeps⟩

theorem measuresFor_step (tracks : jobMonitor.TracksAll source) (step : Step (platform registry) source event target)
    {jobId id : Uuid} (measures : source.world.MeasuresFor jobId id) : target.world.MeasuresFor jobId id := by
  obtain ⟨row, found, job, type⟩ := measures
  obtain ⟨later, found', job', type'⟩ := subJob_kept tracks step found
  exact ⟨later, found', job'.trans job, type'.trans type⟩

theorem asked_step (step : Step (platform registry) source event target) {jobId subJobId : Uuid} {workerName : String}
    (asked : source.world.Asked jobId subJobId workerName) : target.world.Asked jobId subJobId workerName := by
  obtain ⟨message, routingKey, queued, own, takesPart⟩ := asked
  exact ⟨message, routingKey, (queues_grow step).1 queued, own, takesPart⟩

/-- What a tick picks shows the row of its job. -/
theorem shows_of_picked {pool : System} (known : JobsKnown pool) {subJob : SubJobWithJob}
    (allowed : Act.Allowed pool.world ⟨.sql .getFirstUnfinishedSubJob, .ok subJob⟩) :
    pool.world.ShowsJob subJob.jobId subJob.job ∧ subJob.job.id = subJob.jobId := by
  obtain ⟨row, -, read⟩ := allowed
  simp only [World.withJob?, bind, Option.bind_eq_some_iff] at read
  obtain ⟨jobRow, found, job, shown, same⟩ := read
  cases same
  obtain ⟨details, decoded, rfl⟩ := Option.map_eq_some_iff.mp shown
  obtain ⟨described, reads, range⟩ := known.described _ jobRow found
  obtain rfl : described = details := Option.some.inj ((reads.ofJson? range).symm.trans decoded)
  exact ⟨⟨jobRow, found, rfl, rfl, rfl, described.workersCount, reads, range⟩, job_id found⟩

/-- A new job message repeats the job that the tick has read. -/
theorem jobMessage_step (tracks : jobMonitor.TracksAll source) (step : Step (platform registry) source event target) :
    target.world.jobQueue = source.world.jobQueue ∨ ∃ position subJob workers message,
      At source position .subJobTick (.recorded subJob workers) ∧ subJob.type = .combinedDHP ∧
        message.subJobId = subJob.id ∧ message.Repeats subJob.job ∧
        target.world.jobQueue = (.workerJob subJob.job.id message, subJob.job.routingKey) :: source.world.jobQueue := by
  cases event with
  | spawn kind => exact .inl (sameJobs_of_step step fun _ _ same => by cases same).jobQueue
  | drift => exact .inl (sameJobs_of_step step fun _ _ same => by cases same).jobQueue
  | call position made =>
    obtain ⟨op, reply⟩ := made
    obtain ⟨kind, phase, here, legal, allowed, reached⟩ := legal_of_call tracks step
    rw [reached]
    cases legal with
    | quiet quiet => exact .inl (sameJobs_of_quiet _ reply quiet).jobQueue
    | publish measuring created =>
      cases reply with
      | error e => exact .inl rfl
      | ok done => exact .inr ⟨position, _, _, _, here, measuring, rfl, ⟨rfl, rfl, rfl, rfl, rfl⟩, rfl⟩
    | drawJob | drawSubJob | drawRun => exact .inl rfl
    | _ => cases reply <;> exact .inl rfl

/-- What is known of the messages and of the saved results. -/
structure Trail (pool : System) : Prop where
  speaks : speakMonitor.TracksAll pool
  held : ∀ position kind phase subJob, At pool position kind phase → phase.snapshot = some subJob →
    pool.world.ShowsJob subJob.jobId subJob.job ∧ subJob.job.id = subJob.jobId
  asked : ∀ jobId message routingKey, (.workerJob jobId message, routingKey) ∈ pool.world.jobQueue →
    pool.world.MeasuresFor jobId message.subJobId ∧
      ∃ job, pool.world.ShowsJob jobId job ∧ job.routingKey = routingKey ∧ message.Repeats job
  answered : ∀ jobId result, .workerResult jobId result ∈ pool.world.resultQueue →
    result.jobId = jobId ∧ pool.world.Asked jobId result.subJobId result.workerName
  delivered : ∀ position content phase, At pool position (.dataDelivery content) phase → content ∈ pool.world.resultQueue
  saved : ∀ row ∈ pool.world.workerData.rows, ∃ w result, .workerResult row.jobId result ∈ pool.world.resultQueue ∧
    row = Stmt.savedRow w result

theorem Trail.held_step (sound : Sound source) (known : JobsKnown source) (trail : Trail source)
    (step : Step (platform registry) source event target) {position : ℕ} {kind : Kind} {phase : JobPhase}
    {subJob : SubJobWithJob} (here : At target position kind phase) (held : phase.snapshot = some subJob) :
    target.world.ShowsJob subJob.jobId subJob.job ∧ subJob.job.id = subJob.jobId := by
  obtain ⟨before, there, held, -⟩ | ⟨-, -, -, rfl, reached, -⟩ := here.held sound.tracks step held
  · obtain ⟨shows, own⟩ := trail.held position kind before subJob there held
    exact ⟨showsJob_step sound.tracks step shows, own⟩
  · obtain ⟨-, -, -, -, allowed, -⟩ := legal_of_call sound.tracks step
    rw [reached]
    exact shows_of_picked known allowed

theorem Trail.asked_step (sound : Sound source) (trail : Trail source)
    (step : Step (platform registry) source event target) {jobId : Uuid} {message : JobMessage} {routingKey : String}
    (queued : (.workerJob jobId message, routingKey) ∈ target.world.jobQueue) :
    target.world.MeasuresFor jobId message.subJobId ∧
      ∃ job, target.world.ShowsJob jobId job ∧ job.routingKey = routingKey ∧ message.Repeats job := by
  have old (queued : (.workerJob jobId message, routingKey) ∈ source.world.jobQueue) :
      target.world.MeasuresFor jobId message.subJobId ∧
        ∃ job, target.world.ShowsJob jobId job ∧ job.routingKey = routingKey ∧ message.Repeats job := by
    obtain ⟨measures, job, shows, key, repeats⟩ := trail.asked jobId message routingKey queued
    exact ⟨measuresFor_step sound.tracks step measures, job, showsJob_step sound.tracks step shows, key, repeats⟩
  obtain same | ⟨position, subJob, workers, new, here, measuring, own, repeats, grown⟩ := jobMessage_step sound.tracks step
  · exact old (same ▸ queued)
  · rw [grown] at queued
    obtain same | earlier := List.mem_cons.mp queued
    · cases same
      obtain ⟨-, row, found, job, type⟩ := sound.known position _ _ subJob here rfl
      obtain ⟨shows, id⟩ := trail.held position _ _ subJob here rfl
      have measures : source.world.MeasuresFor subJob.job.id message.subJobId :=
        ⟨row, own ▸ found, job.trans id.symm, type.trans measuring⟩
      exact ⟨measuresFor_step sound.tracks step measures, subJob.job, showsJob_step sound.tracks step (id ▸ shows), rfl,
        repeats⟩
    · exact old earlier

theorem Trail.answered_step (sound : Sound source) (traffic : Traffic source) (trail : Trail source)
    (step : Step (platform registry) source event target) {jobId : Uuid} {result : ResultMessage}
    (sent : .workerResult jobId result ∈ target.world.resultQueue) :
    result.jobId = jobId ∧ target.world.Asked jobId result.subJobId result.workerName := by
  obtain old | ⟨config, message, ⟨takesPart, position, here⟩, job, subJob, worker, -⟩ :=
    resultQueue_step sound.tracks trail.speaks step sent
  · obtain ⟨own, asked⟩ := trail.answered jobId result old
    exact ⟨own, Bms.asked_step step asked⟩
  · obtain ⟨⟨content, routingKey⟩, queued, rfl⟩ := List.mem_map.mp (traffic.received position _ _ _ here)
    have asked : source.world.Asked jobId result.subJobId result.workerName :=
      ⟨message, routingKey, queued, subJob.symm, worker ▸ takesPart⟩
    exact ⟨job, Bms.asked_step step asked⟩

theorem Trail.saved_step (sound : Sound source) (trail : Trail source) (step : Step (platform registry) source event target)
    {row : WorkerDataRow} (member : row ∈ target.world.workerData.rows) :
    ∃ w result, .workerResult row.jobId result ∈ target.world.resultQueue ∧ row = Stmt.savedRow w result := by
  have old (member : row ∈ source.world.workerData.rows) :
      ∃ w result, .workerResult row.jobId result ∈ target.world.resultQueue ∧ row = Stmt.savedRow w result := by
    obtain ⟨w, result, sent, same⟩ := trail.saved row member
    exact ⟨w, result, resultQueue_grows step sent, same⟩
  obtain same | ⟨position, result, done, rfl, fresh, inserted⟩ := workerData_step sound.tracks step
  · exact old (same ▸ member)
  · rw [inserted, Table.rows_insert_fresh fresh] at member
    obtain earlier | new := List.mem_append.mp member
    · exact old earlier
    · obtain rfl := List.mem_singleton.mp new
      obtain ⟨kind, phase, here, legal, -, -⟩ := legal_of_call sound.tracks step
      cases legal with
      | quiet quiet => exact quiet.elim
      | @save jobId =>
        have sent := trail.delivered position _ _ here
        obtain ⟨rfl, -⟩ := trail.answered jobId result sent
        exact ⟨_, result, resultQueue_grows step sent, rfl⟩

theorem Trail.step (sound : Sound source) (traffic : Traffic source) (known : JobsKnown source) (trail : Trail source)
    (step : Step (platform registry) source event target) : Trail target where
  speaks := trail.speaks.step (speakMonitor_covers registry) step
  held _ _ _ _ here held := trail.held_step sound known step here held
  asked _ _ _ queued := trail.asked_step sound step queued
  answered _ _ sent := trail.answered_step sound traffic step sent
  delivered position content phase here := by
    obtain ⟨before, old⟩ | admitted := here.kind_before sound.tracks step
    · exact resultQueue_grows step (trail.delivered position content before old)
    · exact resultQueue_grows step admitted
  saved _ member := trail.saved_step sound step member

theorem Trail.of_initial {pool : System} (initial : Initial pool) : Trail pool where
  speaks := Monitor.tracksAll_of_empty initial.tasks
  held _ _ _ _ here := absurd here (not_at_of_initial initial)
  asked := by simp [initial.jobQueue]
  answered := by simp [initial.resultQueue]
  delivered _ _ _ here := absurd here (not_at_of_initial initial)
  saved := by simp [initial.workerData]

theorem trail_of_run {ok : System → SystemEvent → Prop} {events : List SystemEvent} (initial : Initial source)
    (run : Run (platform registry) ok source events target) : Trail target := by
  have all : Sound target ∧ Traffic target ∧ JobsKnown target ∧ Trail target :=
    sound_invariant (I := fun pool => Traffic pool ∧ JobsKnown pool ∧ Trail pool) run
      (fun sound both _ step => ⟨both.1.step sound step, both.2.1.step sound step, both.2.2.step sound both.1 both.2.1 step⟩)
      (.of_initial initial) ⟨.of_initial initial, .of_initial initial, .of_initial initial⟩
  exact all.2.2.2

/-- Every job message agrees with the row of its job and names a measuring sub-job of it, in every state after it
has been published. -/
theorem jobMessages_faithful (registry : ServiceScalerRegistry) {ok : System → SystemEvent → Prop}
    {source target : System} {events : List SystemEvent} (initial : Initial source)
    (run : Run (platform registry) ok source events target) {jobId : Uuid} {message : JobMessage} {routingKey : String}
    (queued : (.workerJob jobId message, routingKey) ∈ target.world.jobQueue) :
    ∃ row details subJob, target.world.jobs.find? jobId = some row ∧ JobDetails.ofJson? row.details = some details ∧
      target.world.subJobs.find? message.subJobId = some subJob ∧ subJob.jobId = jobId ∧ subJob.type = .combinedDHP ∧
      message.jobId = jobId ∧ message.url = row.url ∧ routingKey = row.routingKey ∧
      message.startRange = details.startRange ∧ message.endRange = details.endRange ∧
      message.logIntervalMs = details.logIntervalMs := by
  obtain ⟨⟨subJob, found, own, type⟩, job, ⟨row, found', id, url, key, count, reads, range⟩, rfl, repeats⟩ :=
    (trail_of_run initial run).asked jobId message routingKey queued
  exact ⟨row, _, subJob, found', reads.ofJson? range, found, own, type,
    repeats.jobId.trans (id.symm.trans (job_id found')), repeats.url.trans url.symm, key.symm, repeats.startRange,
    repeats.endRange, repeats.logIntervalMs⟩

/-- Every saved result belongs to a measuring sub-job of the job it names, and a job message for that sub-job has
been published that does not leave the worker out. -/
theorem results_traced (registry : ServiceScalerRegistry) {ok : System → SystemEvent → Prop}
    {source target : System} {events : List SystemEvent} (initial : Initial source)
    (run : Run (platform registry) ok source events target) {row : WorkerDataRow}
    (saved : row ∈ target.world.workerData.rows) :
    ∃ subJob message routingKey, target.world.subJobs.find? row.subJobId = some subJob ∧ subJob.jobId = row.jobId ∧
      subJob.type = .combinedDHP ∧ (.workerJob row.jobId message, routingKey) ∈ target.world.jobQueue ∧
      message.subJobId = row.subJobId ∧ row.workerName ∉ message.excludedWorkers := by
  have trail := trail_of_run initial run
  obtain ⟨w, result, sent, rfl⟩ := trail.saved row saved
  obtain ⟨-, message, routingKey, queued, own, takesPart⟩ := trail.answered _ result sent
  obtain ⟨⟨subJob, found, job, type⟩, -⟩ := trail.asked _ message routingKey queued
  have found : target.world.subJobs.find? result.subJobId = some subJob := own ▸ found
  exact ⟨subJob, message, routingKey, found, job, type, queued, own, takesPart⟩

/-- Sub-job 3 is dispatched. -/
theorem jobMessages_faithful_dispatched : ∃ events target row message routingKey,
    Run (platform ⟨false⟩) (fun _ _ => True) (sampleSystem .online) events target ∧
      (.workerJob 1 message, routingKey) ∈ target.world.jobQueue ∧ target.world.jobs.find? 1 = some row ∧
      message.url = row.url ∧ routingKey = row.routingKey := by
  have replayed : ((replay ⟨false⟩ (fun _ _ => true) (sampleSystem .online)
      (sampleCreation ++ sampleTick 1 7 ++ sampleTick 2 7)).any fun target =>
        target.world.jobQueue.contains (sampleMessage 3 (Duration.seconds 4), "eu")) = true := by
    decide +kernel
  obtain ⟨events, target, run, found⟩ := exists_run_of_replay replayed
  have run := run.mono fun _ _ _ => trivial
  have queued := List.contains_iff_mem.mp found
  obtain ⟨row, -, -, found', -, -, -, -, -, url, key, -⟩ :=
    jobMessages_faithful ⟨false⟩ (initial_sampleSystem .online) run queued
  exact ⟨events, target, row, _, _, run, queued, found', url, key⟩

/-- Sub-job 3 is dispatched, and the worker answers too late. -/
theorem results_traced_aborted : ∃ events target row subJob,
    Run (platform ⟨false⟩) (fun _ _ => True) (sampleSystem .online) events target ∧
      row ∈ target.world.workerData.rows ∧ target.world.subJobs.find? row.subJobId = some subJob ∧
      subJob.jobId = row.jobId ∧ subJob.type = .combinedDHP := by
  have replayed : ((replay ⟨false⟩ (fun _ _ => true) (sampleSystem .online)
      (sampleCreation ++ sampleTick 1 7 ++ sampleTick 2 7 ++ [.clock (Duration.seconds 20)] ++
        received sampleWorker 3 3 ++ saved (lateAnswer 6 "w1") 4)).any fun target =>
          !target.world.workerData.rows.isEmpty) = true := by
    decide +kernel
  obtain ⟨events, target, run, found⟩ := exists_run_of_replay replayed
  have run := run.mono fun _ _ _ => trivial
  obtain ⟨row, saved⟩ := List.exists_mem_of_ne_nil target.world.workerData.rows (by simpa using found)
  obtain ⟨subJob, -, -, found', job, type, -⟩ := results_traced ⟨false⟩ (initial_sampleSystem .online) run saved
  exact ⟨events, target, row, subJob, run, saved, found', job, type⟩

end Bms
