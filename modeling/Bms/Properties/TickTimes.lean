import Bms.Data.Timetable
import Bms.Properties.QueueOrder

/-! # Ticks on time

The work on a sub-job begins with the reading from which its deadline is counted, or, for a scaling sub-job,
with the one from which the deadlines of its services are. Where ticks go through within the gap of a timetable,
every such reading is at most the gap after the last tick that has gone through, and the deadline of a service
is never less than half an hour after its last extension.
-/

namespace Bms

open Process

/-! ## Stored times -/

/-- The resolution of the timestamps of the database. -/
def microsecond : Duration := 1000

/-- A stored time is less than a microsecond off. -/
theorem stored_near (time : DateTime) : time < time.stored + microsecond ∧ time.stored < time + microsecond := by
  suffices near : ∀ epoch time : ℤ, time < epoch + (time - epoch).tdiv 1000 * 1000 + 1000 ∧
      epoch + (time - epoch).tdiv 1000 * 1000 < time + 1000 from near DateTime.databaseEpoch time
  intro epoch time
  have split := Int.mul_tdiv_add_tmod (time - epoch) 1000
  have below := Int.tmod_lt_of_pos (time - epoch) (b := 1000) (by decide)
  have above := Int.lt_tmod_of_pos (time - epoch) (b := 1000) (by decide)
  omega

/-! ## The work on a sub-job -/

/-- The work on a sub-job has begun at this moment. -/
def WorkBegun (pool : System) (subJob : SubJob) (moment : DateTime) : Prop :=
  match subJob.type with
  | .combinedDHP => subJob.deadlineAt = some (moment + measureTime).stored
  | .scaling => ∃ scaled ids, Extension pool scaled ids moment ∧ scaled.id = subJob.id

/-- Scaling is over: the sub-job has ended, no tick acts on it, and its job has all of its sub-jobs. -/
structure ScalingOver (pool : System) (subJob : SubJobWithJob) : Prop where
  ended : ∀ own, pool.world.subJobs.find? subJob.id = some own → own.status.Ended
  released : ∀ held, Holds pool held → held.id ≠ subJob.id
  created : ∀ position kind subJobs, ¬ At pool position kind (.creating subJob.jobId subJobs)

/-- A step on time. -/
structure OnTime (table : Timetable Uuid Duration) (timers : Timers) (pool : System) (event : SystemEvent) : Prop where
  timely : Timely pool event
  /-- ticks go through within the gap, unless one is scaling -/
  through : pool.world.now ≤ timers.through + table.gap ∨
    ∃ task ∈ pool.tasks, task.InFlight ∧ ∃ subJob ids moment, Extends task subJob ids moment
  /-- scaling is over within its span -/
  scaled : ∀ subJob ids moment, Extension pool subJob ids moment →
    pool.world.now ≤ moment + table.span subJob.id ∨ ScalingOver pool subJob
  /-- a measurement ends within its span, where that is less than the time after which it fails -/
  measured : ∀ row ∈ pool.world.subJobs.rows, ¬ row.status.Ended → row.type = .combinedDHP →
    ∀ deadline, row.deadlineAt = some deadline → measureTime + microsecond ≤ table.span row.id ∨
      pool.world.now + measureTime + microsecond ≤ deadline + table.span row.id

variable {registry : ServiceScalerRegistry} {table : Timetable Uuid Duration} {timers : Timers}
  {source target : System} {event : SystemEvent}

theorem WorkBegun.congr {subJob later : SubJob} {moment : DateTime} (begun : WorkBegun source subJob moment)
    (id : later.id = subJob.id) (type : later.type = subJob.type) (deadline : later.deadlineAt = subJob.deadlineAt) :
    WorkBegun source later moment := by
  unfold WorkBegun at begun ⊢
  rw [type, deadline, id]
  exact begun

theorem WorkBegun.after (step : Step (platform registry) source event target) {subJob : SubJob} {moment : DateTime}
    (begun : WorkBegun source subJob moment) : WorkBegun target subJob moment := by
  unfold WorkBegun at begun ⊢
  split at begun
  · exact begun
  · obtain ⟨scaled, ids, extension, own⟩ := begun
    exact ⟨scaled, ids, extension.after step, own⟩

/-! ## The deadlines of the services -/

/-- The deadline of a service was there before a call, which does not set it, or the call sets it. -/
theorem descaleAt_after {w : World} {made : Act} (allowed : made.Allowed w) {row : Service} {deadline : DateTime}
    (member : row ∈ (made.after w).services.rows) (due : row.descaleAt = some deadline) :
    ((∃ old ∈ w.services.rows, old.id = row.id ∧ old.descaleAt = some deadline) ∧
      ∀ ids descaleAt done, made = ⟨.sql (.setDescaleDeadlines ids descaleAt), .ok done⟩ → row.id ∉ ids) ∨
    ∃ ids descaleAt done, made = ⟨.sql (.setDescaleDeadlines ids descaleAt), .ok done⟩ ∧ row.id ∈ ids ∧
      deadline = descaleAt.stored := by
  have kept {op : Op} {reply : op.Reply} (same : (Act.after w ⟨op, reply⟩).services = w.services)
      (member : row ∈ (Act.after w ⟨op, reply⟩).services.rows) :
      ∃ old ∈ w.services.rows, old.id = row.id ∧ old.descaleAt = some deadline := ⟨row, same ▸ member, rfl, due⟩
  obtain ⟨op, reply⟩ := made
  cases op with
  | sql stmt =>
    cases reply with
    | error e => exact .inl ⟨kept rfl member, nofun⟩
    | ok result =>
      cases stmt with
      | setDescaleDeadlines ids descaleAt =>
        obtain ⟨old, there, rfl⟩ := List.mem_map.mp member
        by_cases listed : old.id ∈ ids
        · simp only [listed, decide_true, ↓reduceIte, Option.some.injEq] at due ⊢
          exact .inr ⟨ids, descaleAt, result, rfl, listed, due.symm⟩
        · simp only [listed, decide_false, Bool.false_eq_true, ↓reduceIte] at due ⊢
          refine .inl ⟨⟨old, there, rfl, due⟩, fun ids' descaleAt' done same => ?_⟩
          cases same
          exact listed
      | createService name providerType details =>
        left
        refine ⟨?_, nofun⟩
        obtain old | rfl := Table.mem_rows_insert member
        · exact ⟨row, old, rfl, due⟩
        · rw [allowed.2.2] at due
          cases due
      | deleteServiceById serviceId => exact .inl ⟨⟨row, (List.mem_filter.mp member).1, rfl, due⟩, nofun⟩
      | clearDescaleDeadline serviceId =>
        obtain ⟨old, there, rfl⟩ := List.mem_map.mp member
        refine .inl ⟨?_, nofun⟩
        split at due
        · cases due
        · next other => exact ⟨old, there, by rw [if_neg other], due⟩
      | updateServiceSetEnabled serviceId isEnabled =>
        obtain ⟨old, there, rfl⟩ := List.mem_map.mp member
        refine .inl ⟨⟨old, there, ?_, ?_⟩, nofun⟩
        · split <;> rfl
        · split at due <;> exact due
      | _ => exact .inl ⟨kept rfl member, nofun⟩
  | updateService => rcases reply with _ | (_ | _) <;> exact .inl ⟨kept rfl member, nofun⟩
  | dockerComposeUp | publishJob | publishResult | publishStatus =>
    cases reply <;> exact .inl ⟨kept rfl member, nofun⟩
  | _ => exact .inl ⟨kept rfl member, nofun⟩

theorem descaleAt_before (step : Step (platform registry) source event target) {row : Service} {deadline : DateTime}
    (member : row ∈ target.world.services.rows) (due : row.descaleAt = some deadline) :
    ((∃ old ∈ source.world.services.rows, old.id = row.id ∧ old.descaleAt = some deadline) ∧
      ∀ position ids descaleAt done, event = .call position ⟨.sql (.setDescaleDeadlines ids descaleAt), .ok done⟩ →
        row.id ∉ ids) ∨
    ∃ position ids descaleAt done, event = .call position ⟨.sql (.setDescaleDeadlines ids descaleAt), .ok done⟩ ∧
      row.id ∈ ids ∧ deadline = descaleAt.stored := by
  cases step with
  | @spawn kind admitted =>
    refine .inl ⟨⟨row, ?_, rfl, due⟩, nofun⟩
    cases kind <;> exact member
  | @call position task op next reply present awaits allowed =>
    obtain ⟨old, other⟩ | ⟨ids, descaleAt, done, made, listed, same⟩ := descaleAt_after allowed member due
    · refine .inl ⟨old, fun place ids descaleAt done same => ?_⟩
      cases same
      exact other ids descaleAt done rfl
    · exact .inr ⟨position, ids, descaleAt, done, congrArg _ made, listed, same⟩
  | drift drifts =>
    obtain ⟨now, rfl⟩ := drifts
    exact .inl ⟨⟨row, member, rfl, due⟩, nofun⟩

/-! ## What ticks write -/

/-- A tick in a phase of its own is not aside. -/
theorem not_aside_of_tick {position : ℕ} (here : clockMonitor.At source position .subJobTick .aside) : False := by
  obtain ⟨⟨kind, log, rest⟩, -, -, rfl, aside⟩ := here
  exact ClockPhase.foldl_ne_aside log aside

/-- An extension was there before the step, or a tick makes it, counting from what it has last read. -/
theorem extension_before (clock : clockMonitor.TracksAll source) (step : Step (platform registry) source event target)
    {subJob : SubJobWithJob} {ids : List Uuid} {moment : DateTime} (extension : Extension target subJob ids moment) :
    Extension source subJob ids moment ∨ ∃ position done,
      clockMonitor.At source position .subJobTick (.picked subJob (some moment)) ∧ subJob.status = .created ∧
        event = .call position ⟨.sql (.setDescaleDeadlines ids
          (moment + Duration.seconds serviceDescaleAtDeadlineSec)), .ok done⟩ := by
  obtain old | ⟨position, ⟨kind, log, rest⟩, done, present, rfl, flying, picked, rfl⟩ := extension.before step
  · exact .inl old
  · right
    obtain ⟨kind, phase, here, legal, -, -⟩ := clock.legal step
    obtain ⟨task, present', flying', rfl, same⟩ := here
    obtain rfl := Option.some.inj (present.symm.trans present')
    change log.foldl ClockPhase.note .searching = phase at same
    cases legal with
    | aside => exact absurd same (ClockPhase.foldl_ne_aside log)
    | free free => exact free.elim
    | @extend other reading _ _ created later =>
      obtain rfl : moment = reading := add_right_cancel later
      have held : (log.foldl ClockPhase.note .searching).snapshot = some other := by rw [same]; rfl
      obtain starts | ⟨-, found⟩ := ClockPhase.picking.picked_of_snapshot held
      · cases starts
      · obtain rfl := Option.some.inj (picked.symm.trans found)
        exact ⟨position, done, ⟨_, present, flying, rfl, same⟩, created, rfl⟩

/-- The row of a sub-job that a tick holds has its type. -/
theorem type_of_held (sound : Sound source) {position : ℕ} {phase : JobPhase} {subJob : SubJobWithJob} {row : SubJobRow}
    (here : At source position .subJobTick phase) (held : phase.snapshot = some subJob)
    (member : row ∈ source.world.subJobs.rows) (own : row.id = subJob.id) : row.type = subJob.type := by
  obtain ⟨-, known, found, -, same⟩ := sound.known _ _ _ _ here held
  rw [← own, mem_iff_find?.mp member] at found
  cases found
  exact same

/-- A tick that makes a call stands somewhere with respect to the clock, and may make the call there. -/
theorem clocked_of_call (clock : clockMonitor.TracksAll source) {position : ℕ} {made : Act}
    (step : Step (platform registry) source (.call position made) target) {phase : JobPhase}
    (here : At source position .subJobTick phase) : ∃ clockPhase,
      clockMonitor.At source position .subJobTick clockPhase ∧ clockPhase ≠ .aside ∧ ClockLegal clockPhase made.op := by
  obtain ⟨kind, clockPhase, there, legal, -, -⟩ := clock.legal step
  obtain rfl := here.flies.unique there.flies
  exact ⟨clockPhase, there, fun aside => not_aside_of_tick (aside ▸ there), legal⟩

/-- A deadline was there before the step, or the tick that holds the sub-job sets it, counting from what it
has last read. -/
theorem dated_before (sound : Sound source) (clock : clockMonitor.TracksAll source)
    (step : Step (platform registry) source event target) {row : SubJobRow} (member : row ∈ target.world.subJobs.rows)
    (dated : row.deadlineAt.isSome) :
    (∃ old ∈ source.world.subJobs.rows, old.id = row.id ∧ old.type = row.type ∧ old.deadlineAt = row.deadlineAt) ∨
    ∃ subJob position phase reading, Holds source subJob ∧ subJob.status = .created ∧ subJob.id = row.id ∧
      clockMonitor.At source position .subJobTick phase ∧ phase.reading = some reading ∧
        WorkBegun source row.toSubJob reading := by
  obtain ⟨old, there, id, -, type, -, rfl | ⟨test, change, write, tested, rfl⟩⟩ | insert :=
    row_before sound.tracks step member
  · exact .inl ⟨row, there, rfl, rfl, rfl⟩
  · cases write with
    | @pended position subJob _ deadline _ here measuring created =>
      right
      have own : old.id = subJob.id := of_decide_eq_true tested
      have same := type_of_held sound here rfl there own
      obtain ⟨phase, there', placed, legal⟩ := clocked_of_call clock step here
      cases legal with
      | aside => exact absurd rfl placed
      | free free => exact free.elim
      | @pend _ reading _ _ later =>
        refine ⟨subJob, position, _, reading, here.holds rfl, created, own.symm, there', rfl, ?_⟩
        unfold WorkBegun
        rw [same.trans measuring, later]
    | @scaled position subJob _ deadline _ here scaling created =>
      right
      have own : old.id = subJob.id := of_decide_eq_true tested
      have same := type_of_held sound here rfl there own
      obtain ⟨phase, there', placed, legal⟩ := clocked_of_call clock step here
      cases legal with
      | aside => exact absurd rfl placed
      | free free => exact free.elim
      | @scaled picked moment _ _ same' =>
        refine ⟨subJob, position, _, moment, here.holds rfl, created, own.symm, there', rfl, ?_⟩
        obtain ⟨task, present, -, -, phase⟩ := there'
        obtain ⟨ids, extends'⟩ := extends_of_phase phase
        unfold WorkBegun
        rw [same.trans scaling]
        exact ⟨picked, ids, ⟨task, List.mem_of_getElem? present, extends'⟩, same'.symm.trans own.symm⟩
    | _ => exact .inl ⟨old, there, rfl, rfl, rfl⟩
  · obtain ⟨_, _, _, _, _, _, -, -, -, -, same⟩ := insert.creates
    rw [same] at dated
    cases dated

/-! ## When ticks go through -/

/-- A tick goes through with its last call. -/
theorem goesThrough_cases (step : Step (platform registry) source event target)
    (through : GoesThrough registry target event) : ∃ position task op next reply,
      event = .call position ⟨op, reply⟩ ∧ source.tasks[position]? = some task ∧ task.kind = .subJobTick ∧
        task.rest = .call op next ∧ target.tasks[position]? = some ⟨task.kind, task.log ++ [⟨op, reply⟩], next reply⟩ ∧
        ¬ (next reply).Awaits ∧ unhindered registry (task.log ++ [⟨op, reply⟩]) = true := by
  cases step with
  | spawn admitted => exact through.elim
  | drift drifts => exact through.elim
  | @call position task op next reply present awaits allowed =>
    have bound := (List.getElem?_eq_some_iff.mp present).1
    have present' := List.getElem?_set_self (a := (⟨task.kind, task.log ++ [⟨op, reply⟩], next reply⟩ : SystemTask)) bound
    obtain ⟨later, found, tick, returned, clear⟩ := through
    obtain rfl := Option.some.inj (present'.symm.trans found)
    exact ⟨position, task, op, next, reply, rfl, present, tick, awaits, present', returned, clear⟩

/-- When a tick goes through, none is in flight any more. -/
theorem not_busy_of_goesThrough (sound : Sound source) (step : Step (platform registry) source event target)
    (through : GoesThrough registry target event) : ¬ Busy target .subJobTick := by
  obtain ⟨position, task, op, next, reply, rfl, present, tick, awaits, present', returned, -⟩ :=
    goesThrough_cases step through
  rintro ⟨other, member, same, flying⟩
  obtain ⟨place, there⟩ := List.mem_iff_getElem?.mp member
  obtain before | ⟨spawns, -⟩ := step.flies ⟨other, there, same, flying⟩
  · obtain rfl := sound.latest.alone before ⟨task, present, tick, op, next, awaits⟩
    obtain rfl := Option.some.inj (there.symm.trans present')
    exact returned flying
  · cases spawns

/-- So while one is in flight, the last to have gone through is the same. -/
theorem through_of_busy (sound : Sound source) (step : Step (platform registry) source event target)
    (busy : Busy target .subJobTick) : (timers.after registry event target).through = timers.through :=
  if_neg fun through => not_busy_of_goesThrough sound step through busy

theorem through_mono (passed : timers.through ≤ target.world.now) :
    timers.through ≤ (timers.after registry event target).through := by
  unfold Timers.after
  dsimp only
  split
  · exact passed
  · exact le_refl _

/-! ## The invariant -/

/-- What is known of the times at which ticks read the clock. -/
structure TickTimes (table : Timetable Uuid Duration) (timers : Timers) (pool : System) : Prop where
  clock : clockMonitor.TracksAll pool
  passed : timers.through ≤ pool.world.now
  /-- the tick in flight has read the clock after the last tick has gone through -/
  read : ∀ task ∈ pool.tasks, task.kind = .subJobTick → task.InFlight → ∀ reading, (⟨.now, reading⟩ : Act) ∈ task.log →
    timers.through ≤ reading
  counted : ∀ position phase reading, clockMonitor.At pool position .subJobTick phase → phase.reading = some reading →
    timers.through ≤ reading ∧ reading ≤ timers.through + table.gap ∧ reading ≤ pool.world.now ∧
      ∀ subJob ids moment, Extension pool subJob ids moment → moment ≤ reading
  extended : ∀ subJob ids moment, Extension pool subJob ids moment → subJob.status = .created ∧ moment ≤ pool.world.now
  begun : ∀ row ∈ pool.world.subJobs.rows, row.deadlineAt.isSome →
    ∃ moment, WorkBegun pool row.toSubJob moment ∧ moment ≤ timers.through + table.gap
  /-- a tick has picked an unfinished sub-job -/
  unended : ∀ subJob, Holds pool subJob → ¬ subJob.status.Ended
  /-- which is still as the tick has picked it, or has become less costly -/
  left : ∀ subJob row, Holds pool subJob → pool.world.subJobs.find? subJob.id = some row →
    row.cost ≤ subJob.cost ∧ (subJob.deadlineAt.isSome → row.deadlineAt = subJob.deadlineAt)
  descale : ∀ subJob ids moment, Extension pool subJob ids moment → ∀ service ∈ pool.world.services.rows,
    service.id ∈ ids → ∀ descaleAt, service.descaleAt = some descaleAt →
      moment + Duration.seconds serviceDescaleAtDeadlineSec < descaleAt + microsecond

namespace TickTimes

theorem read_step (sound : Sound source) (times : TickTimes table timers source)
    (step : Step (platform registry) source event target) {task : SystemTask} (member : task ∈ target.tasks)
    (tick : task.kind = .subJobTick) (flying : task.InFlight) {reading : DateTime}
    (logged : (⟨.now, reading⟩ : Act) ∈ task.log) : (timers.after registry event target).through ≤ reading := by
  rw [through_of_busy sound step ⟨task, member, tick, flying⟩]
  obtain ⟨position, present⟩ := List.mem_iff_getElem?.mp member
  obtain old | ⟨kind, -, -, rfl⟩ | ⟨before, op, next, reply, old, awaits, -, allowed, rfl⟩ := step.task_cases present
  · exact times.read task (List.mem_of_getElem? old) tick flying reading logged
  · cases logged
  · obtain earlier | now := List.mem_append.mp logged
    · exact times.read before (List.mem_of_getElem? old) tick ⟨op, next, awaits⟩ reading earlier
    · cases List.mem_singleton.mp now
      obtain rfl : reading = source.world.now := allowed
      exact times.passed

theorem counted_step (sound : Sound source) (times : TickTimes table timers source) (meets : OnTime table timers source event)
    (forward : source.world.now ≤ target.world.now) (step : Step (platform registry) source event target) {position : ℕ}
    {phase : ClockPhase} {reading : DateTime} (here : clockMonitor.At target position .subJobTick phase)
    (counts : phase.reading = some reading) :
    (timers.after registry event target).through ≤ reading ∧
      reading ≤ (timers.after registry event target).through + table.gap ∧ reading ≤ target.world.now ∧
        ∀ subJob ids moment, Extension target subJob ids moment → moment ≤ reading := by
  have busy : Busy target .subJobTick := by
    obtain ⟨task, present, flying, tick, -⟩ := here
    exact ⟨task, List.mem_of_getElem? present, tick, flying⟩
  rw [through_of_busy sound step busy]
  have kept {before : ClockPhase} (there : clockMonitor.At source position .subJobTick before)
      (counted : before.reading = some reading) : timers.through ≤ reading ∧ reading ≤ timers.through + table.gap ∧
        reading ≤ target.world.now ∧ ∀ subJob ids moment, Extension target subJob ids moment → moment ≤ reading := by
    obtain ⟨late, early, past, last⟩ := times.counted position before reading there counted
    refine ⟨late, early, past.trans forward, fun subJob ids moment extension => ?_⟩
    obtain old | ⟨other, done, there', -, -⟩ := extension_before times.clock step extension
    · exact last subJob ids moment old
    · obtain rfl := sound.latest.alone there.flies there'.flies
      obtain ⟨-, rfl⟩ := there.unique there'
      exact (Option.some.inj counted).le
  obtain ⟨old, -⟩ | ⟨-, rfl⟩ | ⟨before, op, reply, there, legal, rfl, rfl, allowed, -⟩ :=
    Monitor.At.before times.clock step here
  · exact kept old counts
  · cases counts
  · obtain earlier | ⟨subJob, last, rfl, now | ⟨ids, descaleAt, done, sets, rfl⟩⟩ := ClockPhase.reading_note counts
    · exact kept there earlier
    · cases now
      obtain rfl : reading = source.world.now := allowed
      refine ⟨times.passed, ?_, forward, fun subJob ids moment extension => ?_⟩
      · refine meets.through.resolve_right ?_
        rintro ⟨task, member, flying, other, ids, moment, extends'⟩
        obtain ⟨place, present⟩ := List.mem_iff_getElem?.mp member
        have there' : clockMonitor.At source place .subJobTick (.extended other moment) :=
          ⟨task, present, flying, extends'.1, phase_of_extends (times.clock place task present) extends'⟩
        obtain rfl := sound.latest.alone there.flies there'.flies
        cases (there.unique there').2
      · obtain old | ⟨_, _, _, _, sets⟩ := extension_before times.clock step extension
        · exact (times.extended subJob ids moment old).2
        · cases sets
    · cases sets
      cases legal with
      | free free => exact free.elim
      | @extend _ reading _ _ _ later =>
        rw [later, add_sub_cancel_right] at kept ⊢
        exact kept there rfl

theorem extended_step (times : TickTimes table timers source) (forward : source.world.now ≤ target.world.now)
    (step : Step (platform registry) source event target) {subJob : SubJobWithJob} {ids : List Uuid} {moment : DateTime}
    (extension : Extension target subJob ids moment) : subJob.status = .created ∧ moment ≤ target.world.now := by
  obtain old | ⟨position, done, here, created, -⟩ := extension_before times.clock step extension
  · obtain ⟨created, past⟩ := times.extended subJob ids moment old
    exact ⟨created, past.trans forward⟩
  · exact ⟨created, (times.counted position _ moment here rfl).2.2.1.trans forward⟩

/-- The work on what has a deadline has begun soon after a tick that went through before the step. -/
theorem begun_early (sound : Sound source) (times : TickTimes table timers source)
    (step : Step (platform registry) source event target) {row : SubJobRow} (member : row ∈ target.world.subJobs.rows)
    (dated : row.deadlineAt.isSome) :
    ∃ moment, WorkBegun target row.toSubJob moment ∧ moment ≤ timers.through + table.gap := by
  obtain ⟨old, there, id, type, same⟩ | ⟨subJob, position, phase, reading, -, -, -, here, counts, begun⟩ :=
    dated_before sound times.clock step member dated
  · obtain ⟨moment, begun, early⟩ := times.begun old there (same ▸ dated)
    exact ⟨moment, (begun.congr id.symm type.symm same.symm).after step, early⟩
  · exact ⟨reading, begun.after step, (times.counted position phase reading here counts).2.1⟩

/-- A tick that has found a deadline does not set one. -/
theorem not_created_of_dated (draining : Draining registry source) {subJob : SubJobWithJob} (holds : Holds source subJob)
    (dated : subJob.deadlineAt.isSome) : subJob.status ≠ .created := by
  obtain ⟨task, member, -, -, picked⟩ := holds
  exact (draining.picked task member subJob (mem_of_pickedIn picked)).2 dated

theorem left_step (sound : Sound source) (current : Current source) (draining : Draining registry source)
    (times : TickTimes table timers source) (timely : Timely source event)
    (step : Step (platform registry) source event target) {subJob : SubJobWithJob} {row : SubJobRow}
    (holds : Holds target subJob) (found : target.world.subJobs.find? subJob.id = some row) :
    row.cost ≤ subJob.cost ∧ (subJob.deadlineAt.isSome → row.deadlineAt = subJob.deadlineAt) := by
  obtain ⟨position, phase, here, held⟩ := (sound.step step).at_of_holds holds
  obtain ⟨before, there, held, -⟩ | ⟨-, -, -, -, reached, own, picked, -, same⟩ := here.held sound.tracks step held
  · have holds := there.holds held
    obtain ⟨-, old, found', -⟩ := sound.known _ _ _ subJob there held
    obtain ⟨cheaper, deadline⟩ := times.left subJob old holds found'
    constructor
    · have falls := costOf_step sound current timely step subJob.id
      rw [costOf_of_find? found, costOf_of_find? found'] at falls
      exact falls.trans cheaper
    · intro dated
      have same := deadline dated
      obtain ⟨later, found'', dated'⟩ := deadline_step sound.tracks step ⟨old, found', by rw [same]; exact dated⟩
      cases found.symm.trans found''
      obtain ⟨old', there', id, -, same'⟩ | ⟨other, -, -, -, holds', created, -⟩ :=
        dated_before sound times.clock step (Table.mem_of_find? found) dated'
      · have again := mem_iff_find?.mp there'
        rw [id, subJob_id found, found'] at again
        cases again
        exact same'.symm.trans same
      · obtain rfl := sound.holds_unique holds holds'
        exact absurd created (not_created_of_dated draining holds dated)
  · rw [reached, picked] at found
    cases found
    exact ⟨(congrArg SubJob.cost same).ge, fun _ => (congrArg SubJob.deadlineAt same).symm⟩

theorem unended_step (sound : Sound source) (times : TickTimes table timers source)
    (step : Step (platform registry) source event target) {subJob : SubJobWithJob} (holds : Holds target subJob) :
    ¬ subJob.status.Ended := by
  obtain ⟨position, phase, here, held⟩ := (sound.step step).at_of_holds holds
  obtain ⟨before, there, held, -⟩ | ⟨-, -, -, -, -, own, -, first, same⟩ := here.held sound.tracks step held
  · exact times.unended subJob (there.holds held)
  · exact congrArg SubJob.status same ▸ SubJobStatus.not_ended_iff.mpr first.2.1

theorem descale_step (sound : Sound source) (times : TickTimes table timers source)
    (step : Step (platform registry) source event target) {subJob : SubJobWithJob} {ids : List Uuid} {moment : DateTime}
    (extension : Extension target subJob ids moment) {service : Service} (member : service ∈ target.world.services.rows)
    (listed : service.id ∈ ids) {descaleAt : DateTime} (due : service.descaleAt = some descaleAt) :
    moment + Duration.seconds serviceDescaleAtDeadlineSec < descaleAt + microsecond := by
  obtain ⟨⟨old, there, own, due'⟩, other⟩ | ⟨position, ids', time, done, rfl, -, rfl⟩ := descaleAt_before step member due
  · obtain extension | ⟨position, done, -, -, sets⟩ := extension_before times.clock step extension
    · exact times.descale subJob ids moment extension old there (own ▸ listed) descaleAt due'
    · exact absurd listed (other position ids _ done sets)
  · obtain ⟨kind, phase, here, legal, -, -⟩ := legal_of_call sound.tracks step
    obtain ⟨kind', phase', here', legal', -, -⟩ := times.clock.legal step
    obtain rfl := here.flies.unique here'.flies
    cases legal with
    | quiet quiet => exact quiet.elim
    | extend =>
      cases legal' with
      | aside => exact (not_aside_of_tick here').elim
      | free free => exact free.elim
      | @extend picked reading _ _ _ later =>
        have last : moment ≤ reading := by
          obtain old | ⟨place, done, there, -, -⟩ := extension_before times.clock step extension
          · exact (times.counted position _ reading here' rfl).2.2.2 subJob ids moment old
          · obtain rfl := sound.latest.alone here'.flies there.flies
            cases (here'.unique there).2
            exact le_refl _
        calc moment + Duration.seconds serviceDescaleAtDeadlineSec
            ≤ reading + Duration.seconds serviceDescaleAtDeadlineSec := add_le_add_left last _
          _ = time := later.symm
          _ < time.stored + microsecond := (stored_near time).1

theorem step (sound : Sound source) (current : Current source) (draining : Draining registry source)
    (times : TickTimes table timers source) (meets : OnTime table timers source event)
    (forward : source.world.now ≤ target.world.now) (step : Step (platform registry) source event target) :
    TickTimes table (timers.after registry event target) target where
  clock := times.clock.step (clockMonitor_covers registry) step
  passed := by
    unfold Timers.after
    dsimp only
    split
    · exact le_refl _
    · exact times.passed.trans forward
  read _ member tick flying _ logged := times.read_step sound step member tick flying logged
  counted _ _ _ here counts := times.counted_step sound meets forward step here counts
  extended _ _ _ extension := times.extended_step forward step extension
  begun row member dated := by
    obtain ⟨moment, begun, early⟩ := times.begun_early sound step member dated
    exact ⟨moment, begun, early.trans (add_le_add_left (through_mono (times.passed.trans forward)) _)⟩
  unended _ holds := times.unended_step sound step holds
  left _ _ holds found := times.left_step sound current draining meets.timely step holds found
  descale _ _ _ extension _ member listed _ due := times.descale_step sound step extension member listed due

theorem of_initial {pool : System} (initial : Initial pool) : TickTimes table (.start pool) pool := by
  have none {subJob : SubJobWithJob} {ids : List Uuid} {moment : DateTime} : ¬ Extension pool subJob ids moment := by
    rintro ⟨task, member, -⟩
    simp [initial.tasks] at member
  exact {
    clock := Monitor.tracksAll_of_empty initial.tasks
    passed := le_refl _
    read := by simp [initial.tasks]
    counted := by
      rintro position phase reading ⟨task, present, -⟩
      simp [initial.tasks] at present
    extended := fun _ _ _ extension => absurd extension none
    begun := by simp [initial.subJobs]
    unended := by
      rintro subJob ⟨task, member, -⟩
      simp [initial.tasks] at member
    left := by
      rintro subJob row ⟨task, member, -⟩
      simp [initial.tasks] at member
    descale := fun _ _ _ extension => absurd extension none }

end TickTimes

end Bms
