import Bms.Model.Replay
import Bms.Properties.JobHistory
import Bms.Properties.StageParameters
import Bms.Protocol.Reliance

/-! # What panics

In every run the rows and the messages are what the tasks rely on: the interval of the log is clamped before a
job is stored, goes through the details column into the snapshot of a tick and from there into the message of a
worker; the topic is stored as a string; a download starts eleven seconds after a time that a tick has read. So
no task panics, but a creation of a job whose file is exactly as long as its sample, and a delivery that cannot be
acknowledged.
-/

namespace Bms

open Process

variable {registry : ServiceScalerRegistry} {source target : System} {event : SystemEvent}

/-- A task that has panicked, and makes no further call. -/
def Panics (task : SystemTask) : Prop := ∃ next, task.rest = .call .panic next

/-- The clock is not read in the last hour of the calendar. -/
def ReadsOrdinary (_ : System) : SystemEvent → Prop
  | .call _ ⟨.now, reading⟩ => DateTime.Ordinary reading
  | _ => True

/-- The replies that make a task panic: the file of a creation is exactly as long as the sample, or a delivery cannot
be acknowledged. -/
def Kind.Fails (kind : Kind) (made : Act) : Prop :=
  (∃ payload, kind = .createJob payload ∧ payload.Fits made) ∨ kind.Delivers ∧ ∃ e, made = ⟨.basicAck, .error e⟩

/-- What is true of rows, messages and tasks in every run: they can be relied on. -/
structure Dependable (pool : System) : Prop where
  known : JobsKnown pool
  parameters : Parameters pool
  intervals : ∀ id row details, pool.world.jobs.find? id = some row → JobDetails.Reads row.details details →
    details.InRange → 100 ≤ details.logIntervalMs ∧ details.logIntervalMs ≤ 1000
  messages : ∀ content routingKey, (content, routingKey) ∈ pool.world.jobQueue → content.Regular
  relies : pool.Relies Kind.Trusts Op.Safe
  trusted : ∀ task ∈ pool.tasks, ∀ made ∈ task.log, task.kind.Trusts made ∨ task.kind.Fails made

/-- The row of a job reads in one way. -/
theorem reads_unique {value : Json} {details other : JobDetails} (reads : JobDetails.Reads value details)
    (range : details.InRange) (reads' : JobDetails.Reads value other) (range' : other.InRange) : other = details :=
  Option.some.inj ((reads'.ofJson? range').symm.trans (reads.ofJson? range))

theorem Dependable.intervals_step (sound : Sound source) (dependable : Dependable source)
    (step : Step (platform registry) source event target) {id : Uuid} {later : JobRow} {details : JobDetails}
    (found' : target.world.jobs.find? id = some later) (reads' : JobDetails.Reads later.details details)
    (range' : details.InRange) : 100 ≤ details.logIntervalMs ∧ details.logIntervalMs ≤ 1000 := by
  obtain ⟨row, found, -⟩ | ⟨-, insert⟩ := job_before sound.tracks step found'
  · obtain ⟨before, reads, range⟩ := dependable.known.described id row found
    obtain ⟨same, found'', keeps⟩ := jobKeeps_step sound.tracks step found
    obtain rfl : same = later := Option.some.inj (found''.symm.trans found')
    obtain ⟨count, reads, range⟩ := keeps.details before reads range
    rw [reads_unique reads range reads' range']
    exact dependable.intervals id row before found ‹_› ‹_›
  · cases insert with
    | inserted here =>
      obtain ⟨row, found, reads, range⟩ := dependable.known.creating.describes sound.tracks step
      have id := job_id found'
      dsimp only at id
      subst id
      obtain rfl := Option.some.inj (found.symm.trans found')
      obtain ⟨payload, startRange, -, rfl, -⟩ := dependable.known.creating.job sound.tracks step
      rw [reads_unique reads range reads' range']
      change 100 ≤ clamp _ 100 1000 ∧ clamp _ 100 1000 ≤ 1000
      unfold clamp
      omega

/-- A sub-job is regular as it is read from the tables. -/
theorem Dependable.regular (dependable : Dependable source) {row : SubJobRow} {subJob : SubJobWithJob}
    (member : row ∈ source.world.subJobs.rows) (read : source.world.withJob? row = some subJob) :
    subJob.type = row.type ∧ subJob.Regular := by
  have same := toSubJob_of_withJob read
  have type : subJob.type = row.type := congrArg SubJob.type same
  refine ⟨type, fun scaling => ?_, ?_⟩
  · obtain ⟨job, -, named⟩ := dependable.parameters.topics row.id row (Table.find?_of_mem member) (type ▸ scaling)
    have details : subJob.details = row.details := congrArg SubJob.details same
    exact ⟨job.routingKey, details ▸ named⟩
  · simp only [World.withJob?, bind, Option.bind_eq_some_iff] at read
    obtain ⟨jobRow, found, job, shown, same⟩ := read
    cases same
    obtain ⟨details, decoded, rfl⟩ := Option.map_eq_some_iff.mp shown
    obtain ⟨described, reads, range⟩ := dependable.known.described _ jobRow found
    obtain rfl : described = details := Option.some.inj ((reads.ofJson? range).symm.trans decoded)
    exact dependable.intervals _ jobRow described found reads range

/-- Every reply can be trusted, but those that a creation and a delivery must not get. -/
theorem Dependable.trusts (dependable : Dependable source) {made : Act} (allowed : Act.Allowed source.world made)
    {position : ℕ} (reads : ReadsOrdinary source (.call position made)) (kind : Kind) :
    kind.Trusts made ∨ kind.Fails made := by
  unfold Kind.Trusts
  split
  · exact .inl reads
  · next e =>
    by_cases delivers : kind.Delivers
    · exact .inr (.inr ⟨delivers, e, rfl⟩)
    · exact .inl delivers
  · obtain ⟨row, first, read⟩ := allowed
    exact .inl (dependable.regular first.1 read).2
  · obtain ⟨row, member, type, read⟩ := allowed
    obtain ⟨same, regular⟩ := dependable.regular (List.mem_filter.mp member).1 read
    exact .inl ⟨same.trans type, regular⟩
  · by_cases fits : ∃ payload, kind = .createJob payload ∧ payload.Fits made
    · exact .inr (.inl fits)
    · exact .inl fun payload same fit => fits ⟨payload, same, fit⟩

/-- What a task calls that is neither a creation nor a delivery is safe. -/
theorem Dependable.safe (dependable : Dependable source) {task : SystemTask} (member : task ∈ source.tasks) {op : Op}
    {next : op.Reply → Prog Calls Unit} (awaits : task.rest = .call op next)
    (other : ∀ made, ¬ task.kind.Fails made) : op.Safe := by
  by_contra breaks
  obtain ⟨made, logged, distrusted⟩ := dependable.relies.letDown member awaits breaks
  exact (dependable.trusted task member made logged).elim distrusted (other made)

theorem Dependable.messages_step (sound : Sound source) (dependable : Dependable source)
    (step : Step (platform registry) source event target) {content : Message} {routingKey : String}
    (queued : (content, routingKey) ∈ target.world.jobQueue) : content.Regular := by
  obtain same | ⟨position, subJob, workers, message, done, here, -, -, -, rfl, same⟩ := jobQueue_step sound.tracks step
  · exact dependable.messages content routingKey (same ▸ queued)
  · rw [same] at queued
    obtain new | old := List.mem_cons.mp queued
    · cases new
      cases step with
      | call present awaits allowed =>
        obtain ⟨task, found, -, kind, -⟩ := here
        obtain rfl := Option.some.inj (found.symm.trans present)
        refine dependable.safe (List.mem_of_getElem? present) awaits fun made => ?_
        rw [kind]
        rintro (⟨payload, same, -⟩ | ⟨delivers, -⟩)
        · cases same
        · exact delivers
    · exact dependable.messages content routingKey old

theorem Dependable.step (sound : Sound source) (dependable : Dependable source) (reads : ReadsOrdinary source event)
    (step : Step (platform registry) source event target) : Dependable target where
  known := dependable.known.step sound step
  parameters := dependable.parameters.step sound step
  intervals _ _ _ found reads range := dependable.intervals_step sound step found reads range
  messages _ _ queued := dependable.messages_step sound step queued
  relies := by
    refine dependable.relies.step step fun kind _ admitted => safe_body registry kind ?_
    rintro config content rfl
    obtain ⟨⟨content, routingKey⟩, queued, rfl⟩ := List.mem_map.mp admitted
    exact dependable.messages content routingKey queued
  trusted task member made logged := by
    obtain ⟨position, present⟩ := List.mem_iff_getElem?.mp member
    obtain old | ⟨kind, -, -, rfl⟩ | ⟨before, op, next, reply, old, awaits, rfl, allowed, rfl⟩ := step.task_cases present
    · exact dependable.trusted task (List.mem_of_getElem? old) made logged
    · cases logged
    · obtain earlier | now := List.mem_append.mp logged
      · exact dependable.trusted before (List.mem_of_getElem? old) made earlier
      · rw [List.mem_singleton.mp now]
        exact dependable.trusts allowed reads before.kind

theorem Dependable.of_initial {pool : System} (initial : Initial pool) : Dependable pool where
  known := .of_initial initial
  parameters := .of_initial initial
  intervals _ _ _ found := by
    have member := Table.mem_of_find? found
    rw [initial.jobs] at member
    cases member
  messages _ _ queued := by
    rw [initial.jobQueue] at queued
    cases queued
  relies task member := by
    rw [initial.tasks] at member
    cases member
  trusted task member := by
    rw [initial.tasks] at member
    cases member

/-- In every run in which no reading of the clock comes in the last hour of the calendar, a task has panicked exactly
if it is the creation of a job whose file it has found to be exactly as long as the sample, or a delivery of a message
that it could not acknowledge. -/
theorem panics_iff (registry : ServiceScalerRegistry) {source target : System} {events : List SystemEvent}
    (initial : Initial source) (run : Run (platform registry) ReadsOrdinary source events target) :
    ∀ task ∈ target.tasks, Panics task ↔
      (∃ payload, task.kind = .createJob payload ∧ ∃ made ∈ task.log, payload.Fits made) ∨
        task.kind.Delivers ∧ ∃ e, ⟨.basicAck, .error e⟩ ∈ task.log := by
  obtain ⟨-, dependable⟩ := sound_invariant (I := Dependable) run
    (fun sound dependable reads step => dependable.step sound reads step) (.of_initial initial) (.of_initial initial)
  intro task member
  have reaches := run.reaches initial.tasks task member
  constructor
  · rintro ⟨next, awaits⟩
    obtain ⟨made, logged, distrusted⟩ := dependable.relies.letDown member awaits id
    obtain ⟨payload, kind, fits⟩ | ⟨delivers, e, rfl⟩ :=
      (dependable.trusted task member made logged).resolve_left distrusted
    · exact .inl ⟨payload, kind, made, logged, fits⟩
    · exact .inr ⟨delivers, e, logged⟩
  · rintro (⟨payload, kind, fits⟩ | ⟨delivers, e, refused⟩)
    · rw [kind] at reaches
      exact panics_of_fits reaches fits
    · exact panics_of_refused delivers reaches refused

/-- A file that is exactly as long as the usual sample. -/
theorem panics_iff_fitting : ∃ events target task,
    Run (platform ⟨false⟩) ReadsOrdinary (sampleSystem .online) events target ∧ task ∈ target.tasks ∧ Panics task := by
  have run : Run (platform ⟨false⟩) ReadsOrdinary (sampleSystem .online)
      [.spawn (.createJob sampleInput), .call 0 ⟨.parseUrl sampleInput.url, .ok ⟨"http", some "host", sampleInput.url⟩⟩,
        .call 0 ⟨.headContentLength sampleInput.url, .ok (some (.ok "104857600"))⟩] _ :=
    .cons trivial (.spawn fun solitary => absurd solitary (by decide)) <|
      .cons trivial (.call rfl rfl trivial) <| .cons trivial (.call rfl rfl trivial) (.nil _)
  refine ⟨_, _, _, run, List.mem_cons_self .., ?_⟩
  refine (panics_iff ⟨false⟩ (initial_sampleSystem .online) run _ (List.mem_cons_self ..)).mpr (.inl ⟨sampleInput, rfl, ?_⟩)
  exact ⟨_, List.mem_cons_of_mem _ (List.mem_cons_self ..), rfl⟩

end Bms
