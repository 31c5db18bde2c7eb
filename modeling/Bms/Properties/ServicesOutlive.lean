import Bms.Properties.TickAccounts
import Bms.Protocol.Descaling

/-! # Services and the jobs they were scaled for

A tick that scales for a job gives the services half an hour, once. Scaling may take all but 5 minutes
of it, and each of the three measurements that follow may take more than 2. Nothing else ties the
services to the job: the descaler looks at the deadline only. The services outlive the job where the time for
all sub-jobs in line, other jobs' among them, adds up to less than the half hour.
-/

namespace Bms

open Process

/-- A tick has extended the deadline of the service for the scaling sub-job of the job. -/
def Extended (pool : System) (jobId serviceId : Uuid) : Prop :=
  ∃ subJob ids moment, Extension pool subJob ids moment ∧ subJob.type = .scaling ∧ subJob.jobId = jobId ∧ serviceId ∈ ids

/-- When the descaler scales a service down, the sub-jobs of every job that has extended its deadline
have ended, in timed runs whose steps all meet `ok`. -/
def Outlive (registry : ServiceScalerRegistry) (ok : Timers → System → SystemEvent → Prop) : Prop :=
  ∀ ⦃source pool target : System⦄ ⦃timers : Timers⦄ ⦃events : List SystemEvent⦄ ⦃position : ℕ⦄ ⦃task : SystemTask⦄
    ⦃made : Act⦄ ⦃service : Service⦄ ⦃place : Target⦄ ⦃count : ℤ⦄, Initial source →
    TimedRun registry ok (.start source) source events timers pool →
    Step (platform registry) pool (.call position made) target →
    pool.tasks[position]? = some task → task.kind = .descalerPass → made.scaled? = some (service, place, count) →
    ∀ jobId, Extended pool jobId service.id → ∀ row ∈ pool.world.subJobsOf jobId, row.status.Ended

/-- A pass in flight may still scale the service down. -/
def Outstanding (pool : System) (serviceId : Uuid) : Prop :=
  ∃ position kind phase, descaleMonitor.At pool position kind phase ∧ serviceId ∈ phase.due

/-- A step on time, by a timetable that leaves the services to their jobs. -/
structure OnSchedule (table : Timetable Uuid Duration) (timers : Timers) (pool : System) (event : SystemEvent) : Prop
    extends OnTime table timers pool event where
  /-- when a pass finds a service due, the time for the line from the scaling sub-job that has extended its deadline
  to each sub-job of the job fits into half an hour -/
  fits : ∀ position services,
    event = .call position ⟨.sql .getServicesWithDescaleDeadlineReached, .ok services⟩ →
    ∀ subJob ids moment, Extension pool subJob ids moment → (∃ service ∈ services, service.id ∈ ids) →
    ∀ own, pool.world.subJobs.find? subJob.id = some own →
    ∀ last ∈ pool.world.subJobs.rows, last.jobId = subJob.jobId →
      table.allotted (pool.world.line own.createdAt last.createdAt) + microsecond ≤
        Duration.seconds serviceDescaleAtDeadlineSec
  /-- no deadline is extended while a pass may still scale the service down -/
  kept : ∀ position ids descaleAt done, event = .call position ⟨.sql (.setDescaleDeadlines ids descaleAt), .ok done⟩ →
    ∀ id ∈ ids, ¬ Outstanding pool id

variable {registry : ServiceScalerRegistry} {table : Timetable Uuid Duration} {timers : Timers}
  {source target : System} {event : SystemEvent}

/-! ## Jobs that are over -/

/-- All sub-jobs of the job have ended, and none is still to be created. -/
structure Over (pool : System) (jobId : Uuid) : Prop where
  ended : ∀ row ∈ pool.world.subJobs.rows, row.jobId = jobId → row.status.Ended
  inserted : ∀ position kind subJobs, ¬ At pool position kind (.creating jobId subJobs)

/-- Where ended sub-jobs stay ended, a job that is over stays so. -/
theorem Over.step (sound : Sound source) (current : Current source) (timely : Timely source event)
    (step : Step (platform registry) source event target) {jobId : Uuid}
    (known : (source.world.jobs.find? jobId).isSome) (past : Over source jobId) : Over target jobId where
  ended row member own := by
    obtain ⟨old, there, id, job, -⟩ | insert := row_before sound.tracks step member
    · obtain ⟨later, found, ended⟩ :=
        ended_step sound current timely step (mem_iff_find?.mp there) (past.ended old there (job.trans own))
      rw [id, mem_iff_find?.mp member] at found
      cases found
      exact ended
    · obtain ⟨position, kind, before, here, -⟩ := insert.inserted
      exact absurd (own ▸ here) (past.inserted position kind before)
  inserted position kind subJobs here := by
    obtain ⟨before, old⟩ | ⟨-, fresh, -⟩ := here.creating_before sound.tracks step
    · exact past.inserted position kind before old
    · simp [fresh] at known

/-! ## Extensions and passes -/

/-- A deadline has been extended before the step, or the step extends it. -/
theorem Extended.before (step : Step (platform registry) source event target) {jobId serviceId : Uuid}
    (extended : Extended target jobId serviceId) : Extended source jobId serviceId ∨
      ∃ position ids descaleAt done, event = .call position ⟨.sql (.setDescaleDeadlines ids descaleAt), .ok done⟩ ∧
        serviceId ∈ ids := by
  obtain ⟨subJob, ids, moment, extension, scaling, own, listed⟩ := extended
  obtain old | ⟨position, _, done, -, -, -, -, sets⟩ := extension.before step
  · exact .inl ⟨subJob, ids, moment, old, scaling, own, listed⟩
  · exact .inr ⟨position, ids, _, done, sets, listed⟩

theorem DescalePhase.due_note {phase : DescalePhase} {made : Act} {id : Uuid} (due : id ∈ (phase.note made).due) :
    id ∈ phase.due ∨ ∃ services, made = ⟨.sql .getServicesWithDescaleDeadlineReached, .ok services⟩ ∧
      id ∈ services.map (·.id) := by
  unfold note at due
  split at due
  · exact .inr ⟨_, rfl, due⟩
  · left
    split at due
    · exact (List.dropWhile_sublist _).mem due
    · split at due
      · exact List.mem_of_mem_tail due
      · exact due
  · exact .inl due

/-- A service that may still be scaled down could be so before the step, or its deadline is reached now. -/
theorem Outstanding.before (tracks : descaleMonitor.TracksAll source)
    (step : Step (platform registry) source event target) {id : Uuid} (outstanding : Outstanding target id) :
    Outstanding source id ∨ ∃ position services,
      event = .call position ⟨.sql .getServicesWithDescaleDeadlineReached, .ok services⟩ ∧
      ∃ row ∈ services, row ∈ source.world.services.rows ∧ row.id = id ∧
        ∃ descaleAt, row.descaleAt = some descaleAt ∧ descaleAt ≤ source.world.now := by
  obtain ⟨position, kind, phase, here, due⟩ := outstanding
  obtain ⟨old, -⟩ | ⟨-, rfl⟩ | ⟨before, op, reply, old, -, rfl, rfl, allowed, -⟩ := Monitor.At.before tracks step here
  · exact .inl ⟨position, kind, phase, old, due⟩
  · cases kind <;> simp [descaleMonitor, DescalePhase.start, DescalePhase.due] at due
  · obtain earlier | ⟨services, same, listed⟩ := DescalePhase.due_note due
    · exact .inl ⟨position, kind, before, old, earlier⟩
    · cases same
      obtain ⟨row, member, rfl⟩ := List.mem_map.mp listed
      have found : row ∈ source.world.services.rows.filter fun row => row.descaleAt.any (· ≤ source.world.now) :=
        allowed.mem_iff.mp member
      obtain ⟨there, late⟩ := List.mem_filter.mp found
      obtain ⟨descaleAt, due, late⟩ := (Option.any_eq_true ..).mp late
      exact .inr ⟨position, services, rfl, row, member, there, rfl, descaleAt, due, of_decide_eq_true late⟩

/-! ## The half hour -/

/-- When a pass finds a service due, the jobs that have extended its deadline are over: if one of the sub-jobs were
under way, the line up to it would not have used up its time, which is less than the half hour since the extension. -/
theorem over_of_look (scheduled : Scheduled registry table timers source) (accounts : LinesAccounted table timers source)
    (meets : OnSchedule table timers source event) {position : ℕ} {services : List Service}
    (looks : event = .call position ⟨.sql .getServicesWithDescaleDeadlineReached, .ok services⟩) {service : Service}
    (member : service ∈ services) (there : service ∈ source.world.services.rows) {descaleAt : DateTime}
    (due : service.descaleAt = some descaleAt) (late : descaleAt ≤ source.world.now) {jobId : Uuid}
    (extended : Extended source jobId service.id) : Over source jobId := by
  obtain ⟨subJob, ids, moment, extension, -, rfl, listed⟩ := extended
  obtain ⟨own, found, job, -⟩ := scheduled.order.extended subJob ids moment extension
  have half := scheduled.times.descale subJob ids moment extension service there listed descaleAt due
  have fits := meets.fits position services looks subJob ids moment extension ⟨service, member, listed⟩ own found
  constructor
  · intro row inside same
    by_contra unended
    have within := accounts.now_le scheduled meets.toOnTime extension found inside same
      (.inl ⟨row, mem_iff_find?.mp inside, unended⟩)
    have whole := fits row inside same
    linarith
  · intro place kind subJobs creates
    have within := (meets.scaled subJob ids moment extension).resolve_right fun past =>
      past.created place kind subJobs creates
    have inside : subJob.id ∈ source.world.line own.createdAt own.createdAt :=
      mem_line_iff.mpr ⟨own, Table.mem_of_find? found, ⟨le_refl _, le_refl _⟩, subJob_id found⟩
    have part := table.allotment_le_allotted inside
    have whole := fits own (Table.mem_of_find? found) job
    have gap := table.gap_nonneg
    rw [Timetable.allotment, used_zero, used_one] at part
    linarith

/-! ## Every run -/

/-- What is known of the services that a pass may still scale down. -/
structure Outliving (pool : System) : Prop where
  tracks : descaleMonitor.TracksAll pool
  creations : Creations pool
  past : ∀ serviceId, Outstanding pool serviceId → ∀ jobId, Extended pool jobId serviceId → Over pool jobId

namespace Outliving

/-- A job that has extended a deadline exists. -/
theorem known (outliving : Outliving source) (scheduled : Scheduled registry table timers source) {jobId serviceId : Uuid}
    (extended : Extended source jobId serviceId) : (source.world.jobs.find? jobId).isSome := by
  obtain ⟨subJob, ids, moment, extension, -, rfl, -⟩ := extended
  obtain ⟨own, found, job, -⟩ := scheduled.order.extended subJob ids moment extension
  exact job ▸ outliving.creations.parent own (Table.mem_of_find? found)

theorem step (scheduled : Scheduled registry table timers source) (accounts : LinesAccounted table timers source)
    (outliving : Outliving source) (meets : OnSchedule table timers source event)
    (step : Step (platform registry) source event target) : Outliving target where
  tracks := outliving.tracks.step (descaleMonitor_covers registry) step
  creations := outliving.creations.step scheduled.sound.tracks step
  past serviceId outstanding jobId extended := by
    have stays (before : Extended source jobId serviceId) (past : Over source jobId) : Over target jobId :=
      past.step scheduled.sound scheduled.current meets.timely step (outliving.known scheduled before)
    obtain early | ⟨position, services, rfl, row, member, there, rfl, descaleAt, due, late⟩ :=
      outstanding.before outliving.tracks step
    · obtain before | ⟨position, ids, descaleAt, done, sets, listed⟩ := extended.before step
      · exact stays before (outliving.past serviceId early jobId before)
      · exact absurd early (meets.kept position ids descaleAt done sets serviceId listed)
    · obtain before | ⟨_, _, _, _, sets, -⟩ := extended.before step
      · exact stays before (over_of_look scheduled accounts meets rfl member there due late before)
      · cases sets

theorem of_initial {pool : System} (initial : Initial pool) : Outliving pool where
  tracks := Monitor.tracksAll_of_empty initial.tasks
  creations := .of_initial initial
  past serviceId outstanding := by
    obtain ⟨position, kind, phase, ⟨task, present, -⟩, -⟩ := outstanding
    simp [initial.tasks] at present

end Outliving

/-- In every timed run on schedule, the services outlive the jobs they were scaled for. -/
theorem outlive_of_onSchedule (registry : ServiceScalerRegistry) (table : Timetable Uuid Duration) :
    Outlive registry (OnSchedule table) := by
  intro source pool target timers events position task made service place count initial timed step present pass scaled
    jobId extended row member
  obtain ⟨scheduled, -, outliving⟩ := timed.invariant
    (I := fun timers pool => Scheduled registry table timers pool ∧ LinesAccounted table timers pool ∧ Outliving pool)
    (fun _ pool event meets => show Timely pool event from meets.timely)
    (fun before ⟨scheduled, accounts, outliving⟩ meets permitted step =>
      ⟨scheduled.step initial before meets.toOnTime (permitted.now_le step) step,
        accounts.step initial before scheduled meets.toOnTime step, outliving.step scheduled accounts meets step⟩)
    ⟨.of_initial initial, .of_initial initial, .of_initial initial⟩
  obtain ⟨op, reply⟩ := made
  obtain ⟨kind, phase, here, legal, -, -⟩ := outliving.tracks.legal step
  have asked := Act.scale_of_scaled scaled
  cases legal with
  | aside =>
    obtain ⟨other, present', -, -, aside⟩ := here
    obtain rfl := Option.some.inj (present.symm.trans present')
    exact absurd aside (DescalePhase.not_aside_of_pass pass)
  | look => cases asked
  | @ahead ids op first =>
    have head := first service place count asked
    have outstanding : Outstanding pool service.id := ⟨position, kind, _, here, List.mem_of_head? head⟩
    obtain ⟨there, own⟩ := List.mem_filter.mp member
    exact (outliving.past service.id outstanding jobId extended).ended row there (of_decide_eq_true own)

/-! ## Samples -/

/-- Passes of the descaler a minute apart, from a minute on, each of which finds no service. -/
def passesFrom (position minute count : ℕ) : List Move :=
  (List.range count).flatMap fun later =>
    [.clock (Duration.seconds (60 * (minute + later : ℕ))), .start .descalerPass, .go (position + later)]

/-- A tick at a time, making so many calls. -/
def tickAt (position : ℕ) (seconds : ℤ) (count : ℕ) : List Move :=
  .clock (Duration.seconds seconds) :: sampleTick position count

/-- The worker comes online at a time. -/
def onlineAt (position : ℕ) (seconds : ℤ) : List Move :=
  .clock (Duration.seconds seconds) :: .start (.lifecycle sampleWorker .online) :: goTimes position 2 ++
    .start (.statusDelivery (.workerStatus ⟨"w1", .lifecycle ⟨["eu"], .online⟩, Duration.seconds seconds⟩)) ::
    goTimes (position + 1) 3

/-- A pass of the descaler each minute, from a minute on, and after it a tick, making so many calls. -/
def minutesFrom (position minute : ℕ) : List ℕ → List Move
  | [] => []
  | count :: counts => passesFrom position minute 1 ++ sampleTick (position + 1) count ++
    minutesFrom (position + 2) (minute + 1) counts

/-- The call that a log holds at an index extends the deadline of the service for the job. -/
def extendsAt (log : List Act) (index : ℕ) (jobId serviceId : Uuid) : Bool :=
  match log[index]? with
  | some ⟨.sql (.setDescaleDeadlines ids _), .ok _⟩ => decide (serviceId ∈ ids) &&
    (pickedIn (log.take index)).any fun subJob => decide (subJob.type = .scaling ∧ subJob.jobId = jobId)
  | _ => false

/-- The tick at a position has extended the deadline of the service, and the next call of the task at another
position, a pass of the descaler, scales the service down. -/
def descalesNext (tick index position : ℕ) (jobId serviceId : Uuid) (pool : System) : Bool :=
  (pool.tasks[tick]?.any fun task => decide (task.kind = .subJobTick) && extendsAt task.log index jobId serviceId) &&
    (pool.tasks[position]?.any fun task => decide (task.kind = .descalerPass)) &&
    match move ⟨false⟩ pool (.go position) with
    | some (.call caller made, _) => decide (caller = position) && (Act.scaled? made).any fun asked =>
      decide (asked.1.id = serviceId)
    | _ => false

theorem extended_of_extendsAt {pool : System} {task : SystemTask} {index : ℕ} {jobId serviceId : Uuid}
    (member : task ∈ pool.tasks) (tick : task.kind = .subJobTick)
    (check : extendsAt task.log index jobId serviceId = true) : Extended pool jobId serviceId := by
  unfold extendsAt at check
  split at check
  · next ids descaleAt done found =>
    obtain ⟨listed, picks⟩ := (Bool.and_eq_true ..).mp check
    obtain ⟨subJob, picked, own⟩ := (Option.any_eq_true ..).mp picks
    obtain ⟨scaling, own⟩ := of_decide_eq_true own
    refine ⟨subJob, ids, descaleAt - Duration.seconds serviceDescaleAtDeadlineSec,
      ⟨task, member, tick, task.log.take index, done, ?_, picked⟩, scaling, own, of_decide_eq_true listed⟩
    have taken : task.log.take index ++ [⟨.sql (.setDescaleDeadlines ids descaleAt), .ok done⟩] =
        task.log.take (index + 1) := by
      rw [List.take_add_one, found, Option.toList_some]
    rw [sub_add_cancel, taken]
    exact List.take_prefix ..
  · cases check

theorem descales_of_check {pool : System} {tick index position : ℕ} {jobId serviceId : Uuid}
    (check : descalesNext tick index position jobId serviceId pool = true) : ∃ target made task service place count,
      Step (platform ⟨false⟩) pool (.call position made) target ∧ pool.tasks[position]? = some task ∧
      task.kind = .descalerPass ∧ Act.scaled? made = some (service, place, count) ∧ service.id = serviceId ∧
      Extended pool jobId serviceId := by
  simp only [descalesNext, Bool.and_eq_true] at check
  obtain ⟨⟨extended, passing⟩, scales⟩ := check
  obtain ⟨tick, present, extended⟩ := (Option.any_eq_true ..).mp extended
  obtain ⟨task, present', pass⟩ := (Option.any_eq_true ..).mp passing
  obtain ⟨kind, extended⟩ := (Bool.and_eq_true ..).mp extended
  split at scales
  · next caller made target moved =>
    obtain ⟨calls, asks⟩ := (Bool.and_eq_true ..).mp scales
    obtain rfl := of_decide_eq_true calls
    obtain ⟨⟨service, place, count⟩, scaled, own⟩ := (Option.any_eq_true ..).mp asks
    exact ⟨target, made, task, service, place, count, step_of_move moved, present', of_decide_eq_true pass, scaled,
      of_decide_eq_true own, extended_of_extendsAt (List.mem_of_getElem? present) (of_decide_eq_true kind) extended⟩
  · cases scales

/-- Ticks go through within 100 s, and scaling takes no longer than a measurement. -/
def sampleTimetable : Timetable Uuid Duration where
  gap := Duration.seconds 100
  span _ := measureTime + microsecond
  gap_nonneg := by decide
  span_nonneg _ := by decide

/-- Computes `ScalingOver`. -/
def scalingOver (pool : System) (subJob : SubJobWithJob) : Bool :=
  ((pool.world.subJobs.find? subJob.id).all fun own => decide own.status.Ended) && pool.tasks.all fun task =>
    !decide task.InFlight || ((pickedIn task.log).all fun held => decide (held.id ≠ subJob.id)) &&
      match jobMonitor.phase task with
      | .creating .. => false
      | _ => true

theorem scalingOver_of_check {pool : System} {subJob : SubJobWithJob} (check : scalingOver pool subJob = true) :
    ScalingOver pool subJob := by
  obtain ⟨ended, tasks⟩ := (Bool.and_eq_true ..).mp check
  refine ⟨fun own found => of_decide_eq_true ((Option.all_eq_true ..).mp ended own found), ?_, ?_⟩
  · rintro held ⟨task, member, -, flying, picked⟩
    have apart := List.all_eq_true.mp tasks task member
    simp only [flying, decide_true, Bool.not_true, Bool.false_or, Bool.and_eq_true] at apart
    exact of_decide_eq_true ((Option.all_eq_true ..).mp apart.1 held picked)
  · rintro position kind subJobs ⟨task, present, flying, -, creating⟩
    have apart := List.all_eq_true.mp tasks task (List.mem_of_getElem? present)
    simp only [flying, creating, decide_true, Bool.not_true, Bool.false_or, Bool.and_false, Bool.false_eq_true] at apart

/-- A check that the time since an extension is within the span of the sub-job, or scaling is over. -/
def extendsInTime (pool : System) (subJob : SubJobWithJob) : Act → Bool
  | ⟨.sql (.setDescaleDeadlines _ descaleAt), .ok _⟩ => decide (pool.world.now ≤
      descaleAt - Duration.seconds serviceDescaleAtDeadlineSec + sampleTimetable.span subJob.id) || scalingOver pool subJob
  | _ => true

/-- A check of the steps where there are four sub-jobs at most. -/
def onSchedule (timers : Timers) (pool : System) (event : SystemEvent) : Bool :=
  startsUnfinished pool event && decide (pool.world.now ≤ timers.through + sampleTimetable.gap) &&
    (pool.tasks.all fun task => (pickedIn task.log).all fun subJob => task.log.all (extendsInTime pool subJob)) &&
    decide (pool.world.subJobs.rows.length ≤ 4) &&
    match event with
    | .call _ ⟨.sql (.setDescaleDeadlines ..), _⟩ => idle (fun kind => decide (kind = .descalerPass)) pool
    | _ => true

/-- Only a pass of the descaler in flight may scale a service down. -/
theorem Outstanding.busy {pool : System} {id : Uuid} (outstanding : Outstanding pool id) : Busy pool .descalerPass := by
  obtain ⟨position, kind, phase, ⟨task, present, flying, rfl, rfl⟩, due⟩ := outstanding
  by_cases pass : task.kind = .descalerPass
  · exact ⟨task, List.mem_of_getElem? present, pass, flying⟩
  · have aside : descaleMonitor.phase task = .aside := by
      rw [Monitor.phase, DescalePhase.start_of_ne pass]
      exact List.foldl_fixed' (fun _ => rfl) _
    rw [aside] at due
    cases due

/-- Four sub-jobs fit into half an hour. -/
theorem allotted_le {pool : System} (few : pool.world.subJobs.rows.length ≤ 4) (first last : DateTime) :
    sampleTimetable.allotted (pool.world.line first last) + microsecond ≤ Duration.seconds serviceDescaleAtDeadlineSec := by
  have card : (pool.world.line first last).card ≤ 4 := by
    refine (List.toFinset_card_le _).trans ?_
    rw [List.length_map]
    exact (List.length_filter_le ..).trans few
  have whole : sampleTimetable.allotted (pool.world.line first last) =
      (pool.world.line first last).card • sampleTimetable.allotment 0 := Finset.sum_const _
  have each : sampleTimetable.allotment 0 = 431000001000 := by decide
  have half : Duration.seconds serviceDescaleAtDeadlineSec = 1800000000000 := by decide
  rw [whole, each, half, nsmul_eq_mul, microsecond]
  have card : ((pool.world.line first last).card : ℤ) ≤ 4 := by exact_mod_cast card
  linarith

theorem onSchedule_of_check {timers : Timers} {pool : System} {event : SystemEvent}
    (check : onSchedule timers pool event = true) : OnSchedule sampleTimetable timers pool event := by
  simp only [onSchedule, Bool.and_eq_true, decide_eq_true_eq] at check
  obtain ⟨⟨⟨⟨timely, through⟩, scaled⟩, few⟩, still⟩ := check
  refine ⟨⟨timely_of_startsUnfinished timely, .inl through, ?_, fun _ _ _ _ _ _ => .inl (le_refl _)⟩, ?_, ?_⟩
  · rintro subJob ids moment ⟨task, member, -, before, done, ⟨rest, logged⟩, picked⟩
    have all := List.all_eq_true.mp scaled task member
    have again : pickedIn task.log = some subJob := by
      rw [← logged, List.append_assoc, pickedIn, List.findSome?_append, show before.findSome? _ = some subJob from picked]
      rfl
    have inTime := List.all_eq_true.mp ((Option.all_eq_true ..).mp all subJob again) _
      (logged ▸ List.mem_append_left _ (List.mem_append_right _ (List.mem_singleton_self _)))
    obtain soon | past := (Bool.or_eq_true ..).mp inTime
    · left
      rw [add_sub_cancel_right] at soon
      exact of_decide_eq_true soon
    · exact .inr (scalingOver_of_check past)
  · intro position services looks subJob ids moment extension listed own found last member job
    exact allotted_le few ..
  · rintro position ids descaleAt done rfl id listed outstanding
    obtain ⟨task, member, pass, flying⟩ := outstanding.busy
    exact not_inFlight_of_idle still member (decide_eq_true pass) flying

/-- The tick at 60 s scales for job 1, whose sub-jobs get no answer: scaling is over at 120 s, each measurement fails
after 131 s, and the job is over at 840 s. From then on ticks find no sub-job, until the pass at 1860 s. -/
def unanswered : List Move :=
  sampleCreation ++ minutesFrom 1 1 [10] ++ onlineAt 3 110 ++
    minutesFrom 5 2 ([5, 7, 2, 2, 3, 7, 2, 2, 3, 7, 2, 2, 3] ++ List.replicate 16 1) ++ passesFrom 63 31 1 ++ goTimes 63 1

/-- The pass at 1860 s scales the service down, and the sub-jobs of the job have ended. -/
theorem outlive_unanswered : ∃ events timers pool target position made service place count jobId,
    TimedRun ⟨false⟩ (OnSchedule sampleTimetable) (.start (sampleSystem .offline)) (sampleSystem .offline) events timers pool ∧
      Step (platform ⟨false⟩) pool (.call position made) target ∧ Act.scaled? made = some (service, place, count) ∧
      Extended pool jobId service.id ∧ pool.world.subJobsOf jobId ≠ [] ∧
      ∀ row ∈ pool.world.subJobsOf jobId, row.status.Ended := by
  have replayed : ((replayTimed ⟨false⟩ onSchedule (.start (sampleSystem .offline)) (sampleSystem .offline)
      unanswered).any fun reached => descalesNext 2 5 63 1 100 reached.2 && !(reached.2.world.subJobsOf 1).isEmpty) = true := by
    decide +kernel
  obtain ⟨events, timers, pool, timed, found⟩ := exists_timedRun_of_replay replayed
  obtain ⟨descales, some⟩ := (Bool.and_eq_true ..).mp found
  obtain ⟨target, made, task, service, place, count, step, present, pass, scaled, own, extended⟩ := descales_of_check descales
  have timed := timed.mono fun _ _ _ => onSchedule_of_check
  refine ⟨events, timers, pool, target, 63, made, service, place, count, 1, timed, step, scaled, own ▸ extended, ?_, ?_⟩
  · simpa using some
  · exact outlive_of_onSchedule ⟨false⟩ sampleTimetable (initial_sampleSystem .offline) timed step present pass scaled 1
      (own ▸ extended)

/-- Sub-jobs 3 and 4 are dispatched and fail for want of answers, and sub-job 5 is dispatched. -/
def measuredInVain : List Move :=
  tickAt 30 1505 7 ++ passesFrom 31 26 2 ++ tickAt 33 1640 3 ++ tickAt 34 1645 7 ++ passesFrom 35 28 2 ++
    tickAt 37 1780 3 ++ tickAt 38 1785 7

/-- Scaling takes its time, no measurement is answered, and the pass at 1860 s scales the service down
while sub-job 5 is pending. -/
theorem not_outlive : ¬ Outlive ⟨false⟩ fun _ _ event => NoFailure event := by
  intro outlive
  have replayed : ((replayTimed ⟨false⟩ (fun _ => succeeds) (.start (sampleSystem .offline)) (sampleSystem .offline)
      (sampleCreation ++ tickAt 1 5 10 ++ passesFrom 2 1 24 ++ onlineAt 26 1490 ++ passesFrom 28 25 1 ++ tickAt 29 1500 5 ++
        measuredInVain ++ passesFrom 39 30 2 ++ goTimes 40 1)).any fun reached => descalesNext 1 5 40 1 100 reached.2 &&
          (reached.2.world.subJobsOf 1).any fun row => decide (row.status = .pending)) = true := by
    decide +kernel
  obtain ⟨events, timers, pool, timed, found⟩ := exists_timedRun_of_replay replayed
  obtain ⟨descales, pending⟩ := (Bool.and_eq_true ..).mp found
  obtain ⟨row, member, pending⟩ := List.any_eq_true.mp pending
  obtain ⟨target, made, task, service, place, count, step, present, pass, scaled, own, extended⟩ := descales_of_check descales
  have ended := outlive (initial_sampleSystem .offline) (timed.mono fun _ _ _ => noFailure_of_succeeds) step present pass
    scaled 1 (own ▸ extended) row member
  simp [of_decide_eq_true pending, SubJobStatus.Ended] at ended

end Bms
