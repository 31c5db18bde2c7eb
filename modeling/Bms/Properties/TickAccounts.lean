import Bms.Properties.TickTimes

/-! # The account of the queue

After the deadlines of the services have been set for a scaling sub-job, the sub-jobs behind it take their turns.
Each of them has an allotment of time. As long as the last one of a line is under way, the last tick that has gone
through came no later than what the sub-jobs of the line may have used up by then.
-/

namespace Bms

open Process

/-- A sub-job has not ended, or a tick still acts on it. -/
def UnderWay (pool : System) (id : Uuid) : Prop :=
  (∃ row, pool.world.subJobs.find? id = some row ∧ ¬ row.status.Ended) ∨ ∃ subJob, Holds pool subJob ∧ subJob.id = id

/-- The sub-jobs in line, created from one moment to another. -/
def World.line (w : World) (first last : DateTime) : Finset Uuid :=
  ((w.subJobs.rows.filter fun row => first ≤ row.createdAt ∧ row.createdAt ≤ last).map (·.id)).toFinset

theorem mem_line_iff {w : World} {first last : DateTime} {id : Uuid} : id ∈ w.line first last ↔
    ∃ row ∈ w.subJobs.rows, (first ≤ row.createdAt ∧ row.createdAt ≤ last) ∧ row.id = id := by
  simp [World.line, and_assoc]

/-- What is known of every run on time. -/
structure Scheduled (registry : ServiceScalerRegistry) (table : Timetable Uuid Duration) (timers : Timers)
    (pool : System) : Prop where
  sound : Sound pool
  current : Current pool
  draining : Draining registry pool
  order : QueueOrder pool
  times : TickTimes table timers pool

/-- What the sub-jobs of a window have used up of the time since a moment. -/
structure Account (table : Timetable Uuid Duration) (timers : Timers) (pool : System) (window : Finset Uuid)
    (moment : DateTime) : Prop where
  through : timers.through ≤ moment + table.spent pool.world.costOf window
  /-- what a tick has done to the sub-job that it holds does not count before it has gone through -/
  held : ∀ subJob, Holds pool subJob → timers.through + table.used subJob.id (pool.world.costOf subJob.id) ≤
    moment + table.spent pool.world.costOf window + table.used subJob.id subJob.cost
  /-- where a sub-job waits for its end, its span and the gap count -/
  due : ∀ row ∈ pool.world.subJobs.rows, row.id ∈ window → ¬ row.status.Ended → row.deadlineAt.isSome →
    (∀ subJob, Holds pool subJob → subJob.id = row.id → subJob.deadlineAt.isSome) →
    ∃ begun, WorkBegun pool row.toSubJob begun ∧
      begun + table.span row.id + table.gap ≤ moment + table.spent pool.world.costOf window

variable {registry : ServiceScalerRegistry} {table : Timetable Uuid Duration} {timers : Timers}
  {source target : System} {event : SystemEvent} {window : Finset Uuid} {moment : DateTime}

/-! ## Costs of what is under way -/

theorem used_one (id : Uuid) : table.used id 1 = table.span id + table.gap + table.gap := rfl

theorem used_zero (id : Uuid) : table.used id 0 = table.used id 1 + table.gap := rfl

theorem cost_eq_two {subJob : SubJob} (unended : ¬ subJob.status.Ended) (undated : subJob.deadlineAt = none) :
    subJob.cost = 2 := by
  simp [SubJob.cost, unended, undated]

theorem cost_eq_one {subJob : SubJob} (unended : ¬ subJob.status.Ended) (dated : subJob.deadlineAt.isSome) :
    subJob.cost = 1 := by
  simp [SubJob.cost, unended, dated]

/-- The tick in flight holds the sub-job, or one that holds none picks it as the first in the queue. -/
def Takes (pool : System) (subJob : SubJobWithJob) : Prop :=
  Holds pool subJob ∨ (∀ other, ¬ Holds pool other) ∧ ∃ row, pool.world.subJobs.find? subJob.id = some row ∧
    pool.world.IsFirstUnfinished row ∧ subJob.toSubJob = row.toSubJob

namespace Scheduled

theorem created_undated (scheduled : Scheduled registry table timers source) {subJob : SubJobWithJob}
    (holds : Holds source subJob) (created : subJob.status = .created) : subJob.deadlineAt = none := by
  by_contra dated
  exact TickTimes.not_created_of_dated scheduled.draining holds (Option.isSome_iff_ne_none.mpr dated) created

/-- Either the last tick has gone through within the gap, or the tick in flight is scaling, and within the span. -/
theorem now_le (scheduled : Scheduled registry table timers source) (meets : OnTime table timers source event) :
    source.world.now ≤ timers.through + table.gap ∨ ∃ subJob, Holds source subJob ∧ subJob.cost = 2 ∧
      source.world.now ≤ timers.through + table.gap + table.span subJob.id := by
  obtain early | ⟨task, member, flying, subJob, ids, moment, extends'⟩ := meets.through
  · exact .inl early
  · right
    obtain ⟨position, present⟩ := List.mem_iff_getElem?.mp member
    have phase := phase_of_extends (scheduled.times.clock position task present) extends'
    have extension : Extension source subJob ids moment := ⟨task, member, extends'⟩
    have holds : Holds source subJob := by
      obtain ⟨kind, log, rest⟩ := task
      obtain ⟨rfl, -⟩ := extends'
      change log.foldl ClockPhase.note .searching = _ at phase
      have held : (log.foldl ClockPhase.note .searching).snapshot = some subJob := by rw [phase]; rfl
      obtain starts | ⟨-, picked⟩ := ClockPhase.picking.picked_of_snapshot held
      · cases starts
      · exact ⟨_, member, rfl, flying, picked⟩
    have undated := scheduled.created_undated holds (scheduled.times.extended subJob ids moment extension).1
    refine ⟨subJob, holds, cost_eq_two (scheduled.times.unended subJob holds) undated, ?_⟩
    have within := (meets.scaled subJob ids moment extension).resolve_right fun ended => ended.released subJob holds rfl
    have early := (scheduled.times.counted position _ moment ⟨task, present, flying, extends'.1, phase⟩ rfl).2.1
    exact within.trans (add_le_add_left early _)

end Scheduled

namespace Takes

variable {subJob : SubJobWithJob}

theorem unended (scheduled : Scheduled registry table timers source) (takes : Takes source subJob) :
    ¬ subJob.status.Ended := by
  obtain holds | ⟨-, row, -, first, same⟩ := takes
  · exact scheduled.times.unended subJob holds
  · exact congrArg SubJob.status same ▸ SubJobStatus.not_ended_iff.mpr first.2.1

theorem unique (sound : Sound source) (takes : Takes source subJob) {other : SubJobWithJob} (holds : Holds source other) :
    other = subJob := by
  obtain own | ⟨none, -⟩ := takes
  · exact sound.holds_unique holds own
  · exact absurd holds (none other)

theorem row (scheduled : Scheduled registry table timers source) (takes : Takes source subJob) :
    ∃ row, source.world.subJobs.find? subJob.id = some row ∧
      (subJob.deadlineAt.isSome → row.deadlineAt = subJob.deadlineAt) := by
  obtain holds | ⟨-, row, found, -, same⟩ := takes
  · obtain ⟨position, phase, here, held⟩ := scheduled.sound.at_of_holds holds
    obtain ⟨-, row, found, -⟩ := scheduled.sound.known _ _ _ subJob here held
    exact ⟨row, found, (scheduled.times.left subJob row holds found).2⟩
  · exact ⟨row, found, fun _ => (congrArg SubJob.deadlineAt same).symm⟩

theorem now_le (scheduled : Scheduled registry table timers source) (meets : OnTime table timers source event)
    (takes : Takes source subJob) : source.world.now ≤ timers.through + table.gap ∨
      subJob.cost = 2 ∧ source.world.now ≤ timers.through + table.gap + table.span subJob.id := by
  obtain early | ⟨other, holds, two, late⟩ := scheduled.now_le meets
  · exact .inl early
  · obtain rfl := takes.unique scheduled.sound holds
    exact .inr ⟨two, late⟩

end Takes

/-- What a tick with these calls has picked. -/
theorem takes_of_logged (sound : Sound source) {position : ℕ} {task : SystemTask} {op : Op} {next : op.Reply → Prog Calls Unit}
    {reply : op.Reply} {subJob : SubJobWithJob} {rest : List Act} (present : source.tasks[position]? = some task)
    (tick : task.kind = .subJobTick) (awaits : task.rest = .call op next) (allowed : Act.Allowed source.world ⟨op, reply⟩)
    (logged : task.log ++ [⟨op, reply⟩] = ⟨.sql .getFirstUnfinishedSubJob, .ok subJob⟩ :: rest) : Takes source subJob := by
  cases early : task.log with
  | nil =>
    right
    rw [early, List.nil_append, List.cons.injEq] at logged
    rw [logged.1] at allowed
    refine ⟨?_, picked_row allowed⟩
    rintro other ⟨task', member, tick', flying, picked⟩
    obtain ⟨place, present'⟩ := List.mem_iff_getElem?.mp member
    obtain rfl := sound.latest.alone ⟨task, present, tick, op, next, awaits⟩ ⟨task', present', tick', flying⟩
    obtain rfl := Option.some.inj (present.symm.trans present')
    rw [early] at picked
    cases picked
  | cons first log =>
    left
    rw [early, List.cons_append, List.cons.injEq] at logged
    refine ⟨task, List.mem_of_getElem? present, tick, ⟨op, next, awaits⟩, ?_⟩
    rw [early, logged.1]
    rfl

/-! ## The beginning of an account -/

/-- An account may begin with a slack that the sub-jobs under way have left of the whole. -/
theorem Account.of_early (scheduled : Scheduled registry table timers source) (slack : Duration)
    (early : timers.through ≤ moment + slack) (whole : slack ≤ table.spent source.world.costOf window)
    (inLine : ∀ subJob, Takes source subJob → subJob.id ∈ window)
    (paid : ∀ id ∈ window, UnderWay source id →
      slack + table.used id (source.world.costOf id) ≤ table.spent source.world.costOf window) :
    Account table timers source window moment where
  through := early.trans (add_le_add_right whole _)
  held subJob holds := by
    have left := paid subJob.id (inLine subJob (.inl holds)) (.inr ⟨subJob, holds, rfl⟩)
    have more := table.used_nonneg subJob.id subJob.cost
    linarith
  due row member inside unended dated _ := by
    obtain ⟨begun, begins, soon⟩ := scheduled.times.begun row member dated
    have found := mem_iff_find?.mp member
    have left := paid row.id inside (.inl ⟨row, found, unended⟩)
    rw [costOf_of_find? found, cost_eq_one unended dated, used_one] at left
    exact ⟨begun, begins, by linarith⟩

/-! ## One step -/

namespace Account

/-- What a sub-job uses up beyond its own account is used up of the whole. -/
theorem spent_gain (cheaper : ∀ id, target.world.costOf id ≤ source.world.costOf id) {id : Uuid} (inside : id ∈ window)
    {amount : Duration} (left : timers.through + table.used id (source.world.costOf id) ≤
      moment + table.spent source.world.costOf window + amount) :
    timers.through + table.used id (target.world.costOf id) ≤
      moment + table.spent target.world.costOf window + amount := by
  have gain := table.spent_gain (fun id => cheaper id) inside
  linarith

theorem held_step (scheduled : Scheduled registry table timers source) (timely : Timely source event)
    (account : Account table timers source window moment) (inLine : ∀ subJob, Takes source subJob → subJob.id ∈ window)
    (step : Step (platform registry) source event target) {subJob : SubJobWithJob} (holds : Holds target subJob) :
    (timers.after registry event target).through + table.used subJob.id (target.world.costOf subJob.id) ≤
      moment + table.spent target.world.costOf window + table.used subJob.id subJob.cost := by
  have busy : Busy target .subJobTick := by
    obtain ⟨task, member, tick, flying, -⟩ := holds
    exact ⟨task, member, tick, flying⟩
  rw [through_of_busy scheduled.sound step busy]
  obtain before | ⟨reached, costs⟩ := holds_before scheduled.sound step holds
  · exact spent_gain (costOf_step scheduled.sound scheduled.current timely step) (inLine subJob (.inl before))
      (account.held subJob before)
  · rw [reached, costs]
    exact add_le_add_left account.through _

theorem due_step (scheduled : Scheduled registry table timers source) (timely : Timely source event)
    (account : Account table timers source window moment) (inLine : ∀ subJob, Takes source subJob → subJob.id ∈ window)
    (step : Step (platform registry) source event target) {row : SubJobRow} (member : row ∈ target.world.subJobs.rows)
    (inside : row.id ∈ window) (unended : ¬ row.status.Ended) (dated : row.deadlineAt.isSome) :
    ∃ begun, WorkBegun target row.toSubJob begun ∧
      begun + table.span row.id + table.gap ≤ moment + table.spent target.world.costOf window := by
  have cheaper := costOf_step scheduled.sound scheduled.current timely step
  by_cases fresh : ∃ subJob, Holds source subJob ∧ subJob.id = row.id ∧ subJob.deadlineAt = none
  · -- the tick has begun the work, and the turn that it has taken counts
    obtain ⟨subJob, holds, own, undated⟩ := fresh
    have two := cost_eq_two (scheduled.times.unended subJob holds) undated
    have left := spent_gain cheaper (inLine subJob (.inl holds)) (account.held subJob holds)
    rw [own, costOf_of_find? (mem_iff_find?.mp member), cost_eq_one unended dated, two, used_one] at left
    obtain ⟨begun, begins, soon⟩ := scheduled.times.begun_early scheduled.sound step member dated
    refine ⟨begun, begins, ?_⟩
    have nothing : table.used row.id 2 = 0 := rfl
    linarith
  · obtain ⟨old, there, id, type, same⟩ | ⟨subJob, _, _, _, holds, created, own, -⟩ :=
      dated_before scheduled.sound scheduled.times.clock step member dated
    · have unended' : ¬ old.status.Ended := by
        intro ended
        obtain ⟨later, found, ended'⟩ := ended_step scheduled.sound scheduled.current timely step (mem_iff_find?.mp there) ended
        rw [id, mem_iff_find?.mp member] at found
        cases found
        exact unended ended'
      obtain ⟨begun, begins, room⟩ := account.due old there (id ▸ inside) unended' (same ▸ dated) fun subJob holds own =>
        Option.isSome_iff_ne_none.mpr fun undated => fresh ⟨subJob, holds, own.trans id, undated⟩
      refine ⟨begun, (begins.congr id.symm type.symm same.symm).after step, ?_⟩
      rw [id] at room
      exact room.trans (add_le_add_right (table.spent_mono cheaper) _)
    · exact absurd ⟨subJob, holds, own, scheduled.created_undated holds created⟩ fresh

theorem affords (account : Account table timers source window moment) {subJob : SubJobWithJob} (takes : Takes source subJob) :
    timers.through + table.used subJob.id (source.world.costOf subJob.id) ≤
      moment + table.spent source.world.costOf window + table.used subJob.id subJob.cost := by
  obtain holds | ⟨-, row, found, -, same⟩ := takes
  · exact account.held subJob holds
  · rw [costOf_of_find? found, ← congrArg SubJob.cost same]
    exact add_le_add_left account.through _

/-- A tick that serves a sub-job goes through before the turn is used up. -/
theorem now_le_of_served (scheduled : Scheduled registry table timers source) (meets : OnTime table timers source event)
    (account : Account table timers source window moment) (cheaper : ∀ id, target.world.costOf id ≤ source.world.costOf id)
    {subJob : SubJobWithJob} (takes : Takes source subJob) (inside : subJob.id ∈ window)
    (lowers : target.world.costOf subJob.id < subJob.cost) :
    source.world.now ≤ moment + table.spent target.world.costOf window := by
  have left := spent_gain cheaper inside (account.affords takes)
  have few := cost_le_two subJob.toSubJob
  have span := table.span_nonneg subJob.id
  have gap := table.gap_nonneg
  obtain one | two : subJob.cost = 1 ∨ subJob.cost = 2 := by omega
  · have none : target.world.costOf subJob.id = 0 := by omega
    have early := (takes.now_le scheduled meets).resolve_right fun late => by omega
    rw [one, none, used_zero] at left
    linarith
  · have last := table.used_anti subJob.id (show target.world.costOf subJob.id ≤ 1 by omega)
    have nothing : table.used subJob.id 2 = 0 := rfl
    rw [used_one] at last
    rw [two, nothing] at left
    obtain early | ⟨-, late⟩ := takes.now_le scheduled meets <;> linarith

/-- A tick whose sub-job waits goes through before the span and the gap are used up. -/
theorem now_le_of_waiting (scheduled : Scheduled registry table timers source) (meets : OnTime table timers source event)
    (account : Account table timers source window moment) (cheaper : ∀ id, target.world.costOf id ≤ source.world.costOf id)
    {subJob : SubJobWithJob} (takes : Takes source subJob) (inside : subJob.id ∈ window) {deadline reading : DateTime}
    (dated : subJob.deadlineAt = some deadline) (past : timers.through ≤ reading) (waits : reading ≤ deadline) :
    source.world.now ≤ moment + table.spent target.world.costOf window := by
  have more : table.spent source.world.costOf window ≤ table.spent target.world.costOf window := table.spent_mono cheaper
  have gap := table.gap_nonneg
  have isDated : subJob.deadlineAt.isSome := by rw [dated]; rfl
  have one := cost_eq_one (takes.unended scheduled) isDated
  have early := (takes.now_le scheduled meets).resolve_right fun late => by omega
  obtain ⟨row, found, same⟩ := takes.row scheduled
  have own := subJob_id found
  have member := Table.mem_of_find? found
  by_cases ended : row.status.Ended
  · have left := account.affords takes
    rw [costOf_of_find? found, cost_eq_zero_iff.mpr ended, one, used_zero] at left
    linarith
  · obtain ⟨begun, begins, room⟩ := account.due row member (own ▸ inside) ended (same isDated ▸ isDated) fun other holds _ =>
      takes.unique scheduled.sound holds ▸ isDated
    unfold WorkBegun at begins
    cases type : row.type with
    | combinedDHP =>
      rw [type] at begins
      have stored : (begun + measureTime).stored = deadline :=
        Option.some.inj (begins.symm.trans ((same isDated).trans dated))
      have near := (stored_near (begun + measureTime)).2
      rw [stored] at near
      obtain whole | soon := meets.measured row member ended type deadline ((same isDated).trans dated) <;> linarith
    | scaling =>
      rw [type] at begins
      obtain ⟨scaled, ids, extension, scales⟩ := begins
      have within := (meets.scaled scaled ids begun extension).resolve_right fun past =>
        ended (past.ended row (by rw [scales, own]; exact found))
      rw [scales] at within
      linarith

end Account

/-- A tick that has gone through has found no sub-job, or it has picked one and no call has failed. -/
theorem picks_of_unhindered {log : List Act} (reaches : (subJobHandler registry).Reaches log (.ret ()))
    (clear : unhindered registry log = true) : log = [⟨.sql .getFirstUnfinishedSubJob, .error .rowNotFound⟩] ∨
      ∃ subJob rest, log = ⟨.sql .getFirstUnfinishedSubJob, .ok subJob⟩ :: rest ∧
        ∀ made ∈ log, ¬ Act.Failed made ∧ Act.addresses registry made = true := by
  unfold unhindered at clear
  split at clear
  · exact .inl rfl
  · right
    have succeeded : ∀ made ∈ log, ¬ Act.Failed made ∧ Act.addresses registry made = true := by
      intro made member
      obtain ⟨succeeds, addressed⟩ := (Bool.and_eq_true ..).mp (List.all_eq_true.mp clear made member)
      exact ⟨by simpa [Act.Failed] using succeeds, addressed⟩
    generalize returned : Prog.ret () = left at reaches
    cases reaches with
    | nil => cases returned
    | @cons _ _ reply rest _ tail =>
      cases reply with
      | error e => exact absurd rfl (succeeded _ (List.mem_cons_self ..)).1
      | ok subJob => exact ⟨subJob, rest, rfl, succeeded⟩

/-- A tick that has not served the sub-job that it has picked has found its deadline not yet reached. -/
theorem waits_of_not_due {subJob : SubJobWithJob} {rest : List Act} (active : subJob.deadlineAt.isSome → subJob.status.Active)
    (unpended : subJob.type = .scaling → subJob.status ≠ .pending)
    (reaches : (subJobHandler registry).Reaches (⟨.sql .getFirstUnfinishedSubJob, .ok subJob⟩ :: rest) (.ret ()))
    (waits : dueIn (⟨.sql .getFirstUnfinishedSubJob, .ok subJob⟩ :: rest) ≠ some subJob) :
    ∃ deadline reading, subJob.deadlineAt = some deadline ∧ (⟨.now, reading⟩ : Act) ∈ rest ∧ reading ≤ deadline := by
  cases dated : subJob.deadlineAt with
  | none => simp [dueIn, dated] at waits
  | some deadline =>
    obtain ⟨reading, later, rfl⟩ := reads_first dated (active (by rw [dated]; rfl)) unpended reaches
    refine ⟨deadline, reading, rfl, List.mem_cons_self .., ?_⟩
    by_contra passed
    simp [dueIn, dated, not_le.mp passed] at waits

/-- Where there was no sub-job to pick and no tick is in flight, none is under way. -/
theorem not_underWay_of_none {position : ℕ} (sound : Sound source) (idle : ¬ Busy target .subJobTick)
    (step : Step (platform registry) source (.call position ⟨.sql .getFirstUnfinishedSubJob, .error .rowNotFound⟩) target)
    (id : Uuid) : ¬ UnderWay target id := by
  obtain ⟨-, -, -, -, allowed, reached⟩ := legal_of_call sound.tracks step
  have ended : ∀ row ∈ source.world.subJobs.rows, row.status.Ended := allowed
  rintro (⟨row, found, unended⟩ | ⟨subJob, ⟨task, member, tick, flying, -⟩, -⟩)
  · rw [show target.world = source.world from reached] at found
    exact unended (ended row (Table.mem_of_find? found))
  · exact idle ⟨task, member, tick, flying⟩

section GoingThrough

variable {origin : System} {events : List SystemEvent} {position : ℕ} {task : SystemTask} {op : Op}
  {next : op.Reply → Prog Calls Unit} {reply : op.Reply}

/-- A tick reads the clock after the last one has gone through. -/
theorem Scheduled.le_reading (scheduled : Scheduled registry table timers source)
    (step : Step (platform registry) source (.call position ⟨op, reply⟩) target)
    (present : source.tasks[position]? = some task) (tick : task.kind = .subJobTick) (awaits : task.rest = .call op next)
    {reading : DateTime} (read : (⟨.now, reading⟩ : Act) ∈ task.log ++ [⟨op, reply⟩]) : timers.through ≤ reading := by
  obtain early | now := List.mem_append.mp read
  · exact scheduled.times.read task (List.mem_of_getElem? present) tick ⟨op, next, awaits⟩ reading early
  · cases List.mem_singleton.mp now
    obtain ⟨-, -, -, -, allowed, -⟩ := legal_of_call scheduled.sound.tracks step
    obtain rfl : reading = source.world.now := allowed
    exact scheduled.times.passed

/-- A tick that goes through without serving what it has picked has found its deadline not yet reached. -/
theorem Scheduled.waits (scheduled : Scheduled registry table timers source) (initial : Initial origin)
    (run : Run (platform registry) Timely origin events source)
    (step : Step (platform registry) source (.call position ⟨op, reply⟩) target)
    (present : source.tasks[position]? = some task) (tick : task.kind = .subJobTick) (awaits : task.rest = .call op next)
    (member : (⟨task.kind, task.log ++ [⟨op, reply⟩], next reply⟩ : SystemTask) ∈ target.tasks)
    (reaches : (subJobHandler registry).Reaches (task.log ++ [⟨op, reply⟩]) (.ret ())) {subJob : SubJobWithJob}
    {rest : List Act} (logged : task.log ++ [⟨op, reply⟩] = ⟨.sql .getFirstUnfinishedSubJob, .ok subJob⟩ :: rest)
    (takes : Takes source subJob) (unserved : dueIn (task.log ++ [(⟨op, reply⟩ : Act)]) ≠ some subJob) :
    ∃ deadline reading, subJob.deadlineAt = some deadline ∧ timers.through ≤ reading ∧ reading ≤ deadline := by
  obtain ⟨-, -, -, staged⟩ := staged_of_run initial run
  have picked : ⟨.sql .getFirstUnfinishedSubJob, .ok subJob⟩ ∈ task.log ++ [(⟨op, reply⟩ : Act)] :=
    logged ▸ List.mem_cons_self ..
  have uncreated := (scheduled.draining.picked_step scheduled.sound staged.dated step member picked).2
  have unpended := staged.picked_step scheduled.sound step member picked
  have unfinished := SubJobStatus.not_ended_iff.mp (takes.unended scheduled)
  rw [logged] at reaches unserved
  obtain ⟨deadline, reading, dated, read, waits⟩ := waits_of_not_due
    (fun dated => by simpa [SubJobStatus.Unfinished, SubJobStatus.Active, uncreated dated] using unfinished)
    unpended reaches unserved
  exact ⟨deadline, reading, dated,
    scheduled.le_reading step present tick awaits (logged.symm ▸ List.mem_cons_of_mem _ read), waits⟩

end GoingThrough

namespace Account

/-- The tick that goes through is on time. -/
theorem through_step {origin : System} {events : List SystemEvent} (initial : Initial origin)
    (run : Run (platform registry) Timely origin events source) (scheduled : Scheduled registry table timers source)
    (meets : OnTime table timers source event) (account : Account table timers source window moment)
    (inLine : ∀ subJob, Takes source subJob → subJob.id ∈ window)
    (step : Step (platform registry) source event target) {id : Uuid} (underWay : UnderWay target id) :
    (timers.after registry event target).through ≤ moment + table.spent target.world.costOf window := by
  have cheaper := costOf_step scheduled.sound scheduled.current meets.timely step
  unfold Timers.after
  dsimp only
  split
  · next through =>
    have idle := not_busy_of_goesThrough scheduled.sound step through
    obtain ⟨position, task, op, next, reply, rfl, present, tick, awaits, present', returned, clear⟩ :=
      goesThrough_cases step through
    rw [now_of_step step nofun]
    have member := List.mem_of_getElem? present'
    have body := (run.concat meets.timely step).reaches initial.tasks _ member
    have returns : next reply = .ret () := by
      cases rest : next reply with
      | ret value => rfl
      | call other goes => exact absurd (rest ▸ Prog.awaits_call other goes) returned
    rw [tick, returns] at body
    have reaches : (subJobHandler registry).Reaches (task.log ++ [⟨op, reply⟩]) (.ret ()) := body
    obtain empty | ⟨subJob, rest, logged, succeeded⟩ := picks_of_unhindered reaches clear
    · obtain ⟨-, same⟩ := List.append_inj' (show task.log ++ [⟨op, reply⟩] = [] ++ [_] from empty) rfl
      cases List.singleton_inj.mp same
      exact absurd underWay (not_underWay_of_none scheduled.sound idle step id)
    · obtain ⟨-, -, -, -, allowed, -⟩ := legal_of_call scheduled.sound.tracks step
      have takes := takes_of_logged scheduled.sound present tick awaits allowed logged
      have inside := inLine subJob takes
      by_cases serves : dueIn (task.log ++ [(⟨op, reply⟩ : Act)]) = some subJob
      · have served := servedBy_eq_some_iff.mpr ⟨⟨tick, returned, succeeded⟩, serves⟩
        exact now_le_of_served scheduled meets account cheaper takes inside
          (costOf_lt_of_serves initial run scheduled.draining step present awaits present' served)
      · obtain ⟨deadline, reading, dated, past, waits⟩ :=
          scheduled.waits initial run step present tick awaits member reaches logged takes serves
        exact now_le_of_waiting scheduled meets account cheaper takes inside dated past waits
  · exact account.through.trans (add_le_add_right (table.spent_mono cheaper) _)

theorem step {origin : System} {events : List SystemEvent} (initial : Initial origin)
    (run : Run (platform registry) Timely origin events source) (scheduled : Scheduled registry table timers source)
    (meets : OnTime table timers source event) (account : Account table timers source window moment)
    (inLine : ∀ subJob, Takes source subJob → subJob.id ∈ window)
    (step : Step (platform registry) source event target) {id : Uuid} (underWay : UnderWay target id) :
    Account table (timers.after registry event target) target window moment where
  through := account.through_step initial run scheduled meets inLine step underWay
  held _ holds := account.held_step scheduled meets.timely inLine step holds
  due _ member inside unended dated _ := account.due_step scheduled meets.timely inLine step member inside unended dated

end Account

/-! ## Every run -/

theorem Scheduled.step {origin : System} {events : List SystemEvent} (initial : Initial origin)
    (run : Run (platform registry) Timely origin events source) (scheduled : Scheduled registry table timers source)
    (meets : OnTime table timers source event) (forward : source.world.now ≤ target.world.now)
    (step : Step (platform registry) source event target) :
    Scheduled registry table (timers.after registry event target) target where
  sound := scheduled.sound.step step
  current := scheduled.current.step scheduled.sound meets.timely step
  draining := scheduled.draining.step initial run scheduled.sound scheduled.current meets.timely step
  order := scheduled.order.step scheduled.sound scheduled.current meets.timely forward step
  times := scheduled.times.step scheduled.sound scheduled.current scheduled.draining meets forward step

theorem Scheduled.of_initial {pool : System} (initial : Initial pool) : Scheduled registry table (.start pool) pool where
  sound := .of_initial initial
  current _ _ _ here := absurd here (not_at_of_initial initial)
  draining := .of_initial initial
  order := .of_initial initial
  times := .of_initial initial

/-- What was under way after a step was so before, or the step inserts it. -/
theorem UnderWay.before (scheduled : Scheduled registry table timers source) (timely : Timely source event)
    (step : Step (platform registry) source event target) {row : SubJobRow}
    (found : source.world.subJobs.find? row.id = some row) (underWay : UnderWay target row.id) : UnderWay source row.id := by
  obtain ⟨later, found', unended⟩ | ⟨subJob, holds, own⟩ := underWay
  · refine .inl ⟨row, found, fun ended => unended ?_⟩
    obtain ⟨later', found'', ended⟩ := ended_step scheduled.sound scheduled.current timely step found ended
    cases found'.symm.trans found''
    exact ended
  · obtain ⟨position, phase, here, held⟩ := (scheduled.sound.step step).at_of_holds holds
    obtain ⟨before, there, held, -⟩ | ⟨-, -, -, -, -, picked, found', first, -⟩ :=
      here.held scheduled.sound.tracks step held
    · exact .inr ⟨subJob, there.holds held, own⟩
    · exact .inl ⟨picked, own ▸ found', SubJobStatus.not_ended_iff.mpr first.2.1⟩

/-- What a tick takes is not behind a sub-job that is under way. -/
theorem Takes.before (scheduled : Scheduled registry table timers source) {subJob : SubJobWithJob}
    (takes : Takes source subJob) {row last : SubJobRow} (found : source.world.subJobs.find? subJob.id = some row)
    (member : last ∈ source.world.subJobs.rows) (underWay : UnderWay source last.id) : row.createdAt ≤ last.createdAt := by
  obtain ⟨same, found', unended⟩ | ⟨other, holds, own⟩ := underWay
  · cases found'.symm.trans (mem_iff_find?.mp member)
    obtain holds | ⟨-, picked, found', first, -⟩ := takes
    · obtain ⟨held, found', queue⟩ := scheduled.order.held subJob holds
      cases found.symm.trans found'
      exact queue last member unended
    · cases found.symm.trans found'
      exact first.queue last member unended
  · obtain rfl := takes.unique scheduled.sound holds
    rw [own, mem_iff_find?.mp member] at found
    cases found
    exact le_refl _

/-- What a tick takes is in line behind a sub-job before which all have ended. -/
theorem Takes.inLine (scheduled : Scheduled registry table timers source) {subJob : SubJobWithJob}
    (takes : Takes source subJob) {first last : DateTime} (after : source.world.From first)
    (behind : ∀ other row, Holds source other → source.world.subJobs.find? other.id = some row → first ≤ row.createdAt)
    (before : ∀ row, source.world.subJobs.find? subJob.id = some row → row.createdAt ≤ last) :
    subJob.id ∈ source.world.line first last := by
  rw [mem_line_iff]
  obtain ⟨row, found, -⟩ := takes.row scheduled
  refine ⟨row, Table.mem_of_find? found, ⟨?_, before row found⟩, subJob_id found⟩
  obtain holds | ⟨-, picked, found', first, -⟩ := takes
  · exact behind subJob row holds found
  · cases found.symm.trans found'
    exact after row first.1 (SubJobStatus.not_ended_iff.mpr first.2.1)

/-- Who is in line stays in line. -/
theorem line_step (sound : Sound source) (step : Step (platform registry) source event target) (first last : DateTime) :
    source.world.line first last ⊆ target.world.line first last := by
  intro id inLine
  obtain ⟨row, member, between, rfl⟩ := mem_line_iff.mp inLine
  obtain ⟨later, found, -, -, created⟩ := place_kept sound step (mem_iff_find?.mp member)
  exact mem_line_iff.mpr ⟨later, Table.mem_of_find? found, created ▸ between, subJob_id found⟩

/-- Behind every scaling sub-job whose services have their deadlines, each line whose last sub-job is one of
the same job, and under way, has its account. -/
def LinesAccounted (table : Timetable Uuid Duration) (timers : Timers) (pool : System) : Prop :=
  ∀ subJob ids moment, Extension pool subJob ids moment → ∀ own, pool.world.subJobs.find? subJob.id = some own →
    ∀ last ∈ pool.world.subJobs.rows, last.jobId = subJob.jobId → UnderWay pool last.id →
      ∀ window, pool.world.line own.createdAt last.createdAt ⊆ window → Account table timers pool window moment

namespace LinesAccounted

/-- A line that grows by a sub-job has its account: the scaling sub-job is under way, or within its span. -/
theorem account_of_insert (scheduled : Scheduled registry table timers source) (accounts : LinesAccounted table timers source)
    (meets : OnTime table timers source event) {subJob : SubJobWithJob} {ids : List Uuid}
    (extension : Extension source subJob ids moment) {own : SubJobRow}
    (found : source.world.subJobs.find? subJob.id = some own) (job : own.jobId = subJob.jobId) {position : ℕ} {kind : Kind}
    {subJobs : ℕ} (creates : At source position kind (.creating subJob.jobId subJobs))
    (covers : source.world.line own.createdAt own.createdAt ⊆ window)
    (inLine : ∀ subJob, Takes source subJob → subJob.id ∈ window) : Account table timers source window moment := by
  have member := Table.mem_of_find? found
  have id := subJob_id found
  by_cases underWay : UnderWay source own.id
  · exact accounts subJob ids moment extension own found own member job underWay window covers
  · have within := (meets.scaled subJob ids moment extension).resolve_right fun past =>
      past.created position kind subJobs creates
    have inside : subJob.id ∈ window :=
      covers (mem_line_iff.mpr ⟨own, member, ⟨le_refl _, le_refl _⟩, id⟩)
    have ended : own.status.Ended := by
      by_contra unended
      exact underWay (.inl ⟨own, mem_iff_find?.mp member, unended⟩)
    have none : source.world.costOf subJob.id = 0 := by
      rw [costOf_of_find? found, cost_eq_zero_iff.mpr ended]
    have whole : table.used subJob.id (source.world.costOf subJob.id) ≤ table.spent source.world.costOf window :=
      table.used_le_spent inside
    have gap := table.gap_nonneg
    rw [none, used_zero, used_one] at whole
    refine .of_early scheduled (table.span subJob.id) (scheduled.times.passed.trans within) (by linarith) inLine ?_
    intro other inside' underWay'
    have distinct : subJob.id ≠ other := by
      rintro rfl
      exact underWay (id ▸ underWay')
    have both : table.used subJob.id (source.world.costOf subJob.id) + table.used other (source.world.costOf other) ≤
        table.spent source.world.costOf window := table.used_add_used_le_spent distinct inside inside'
    rw [none, used_zero, used_one] at both
    linarith

theorem step {origin : System} {events : List SystemEvent} (initial : Initial origin)
    (run : Run (platform registry) Timely origin events source) (scheduled : Scheduled registry table timers source)
    (accounts : LinesAccounted table timers source) (meets : OnTime table timers source event)
    (step : Step (platform registry) source event target) :
    LinesAccounted table (timers.after registry event target) target := by
  intro subJob ids moment extension own' found' last' member' job underWay window covers
  obtain ⟨own, found, parent, after, behind⟩ := scheduled.order.extended_before scheduled.sound step extension
  obtain ⟨later, found'', -, -, created⟩ := place_kept scheduled.sound step found
  cases found'.symm.trans found''
  rw [created] at covers
  have kept := (line_step scheduled.sound step own.createdAt last'.createdAt).trans covers
  suffices earlier : (∀ other, Takes source other → other.id ∈ window) ∧ Account table timers source window moment from
    earlier.2.step initial run scheduled meets earlier.1 step underWay
  obtain ⟨last, there, id, parent', -, created', -⟩ | insert := row_before scheduled.sound.tracks step member'
  · rw [← id] at underWay
    have underWay := underWay.before scheduled meets.timely step (mem_iff_find?.mp there)
    rw [← created'] at kept
    have inLine {other : SubJobWithJob} (takes : Takes source other) : other.id ∈ window :=
      kept (takes.inLine scheduled after behind fun row found => takes.before scheduled found there underWay)
    refine ⟨fun other takes => inLine takes, ?_⟩
    obtain old | ⟨position, done, here, -, -⟩ := extension_before scheduled.times.clock step extension
    · exact accounts subJob ids moment old own found last there (parent'.trans job) underWay window kept
    · have early := (scheduled.times.counted position _ moment here rfl).1
      refine .of_early scheduled 0 (by linarith) (table.spent_nonneg ..) (fun other takes => inLine takes) ?_
      intro other inside _
      rw [zero_add]
      exact table.used_le_spent inside
  · obtain ⟨position, kind, before, creates, -, -, -, inserts, -, now⟩ := insert.inserted
    rw [now] at kept
    have inLine {other : SubJobWithJob} (takes : Takes source other) : other.id ∈ window :=
      kept (takes.inLine scheduled after behind fun row found => scheduled.order.past row (Table.mem_of_find? found))
    refine ⟨fun other takes => inLine takes, ?_⟩
    obtain old | ⟨_, _, -, -, rfl⟩ := extension_before scheduled.times.clock step extension
    · refine account_of_insert scheduled accounts meets old found parent (job ▸ creates) (fun other inLine => kept ?_)
        fun other takes => inLine takes
      obtain ⟨row, member, ⟨late, early⟩, same⟩ := mem_line_iff.mp inLine
      exact mem_line_iff.mpr ⟨row, member, ⟨late, scheduled.order.past row member⟩, same⟩
    · cases inserts

theorem of_initial {pool : System} (initial : Initial pool) : LinesAccounted table (.start pool) pool := by
  rintro subJob ids moment ⟨task, member, -⟩
  simp [initial.tasks] at member

/-- What a tick holds leaves its allotment, less what it has cost so far. -/
theorem held_le (account : Account table timers source window moment) {subJob : SubJobWithJob}
    (holds : Holds source subJob) (inside : subJob.id ∈ window) : timers.through + table.allotment subJob.id ≤
      moment + table.allotted window + table.used subJob.id subJob.cost := by
  have held := account.held subJob holds
  have whole : table.spent source.world.costOf window + table.allotment subJob.id ≤
      table.allotted window + table.used subJob.id (source.world.costOf subJob.id) := table.spent_le_allotted inside
  linarith

/-- As long as one of the sub-jobs of the job is under way, the allotments of the line up to it are not used up. -/
theorem now_le (scheduled : Scheduled registry table timers source) (accounts : LinesAccounted table timers source)
    (meets : OnTime table timers source event) {subJob : SubJobWithJob} {ids : List Uuid}
    (extension : Extension source subJob ids moment) {own last : SubJobRow}
    (found : source.world.subJobs.find? subJob.id = some own) (member : last ∈ source.world.subJobs.rows)
    (job : last.jobId = subJob.jobId) (underWay : UnderWay source last.id) :
    source.world.now ≤ moment + table.allotted (source.world.line own.createdAt last.createdAt) := by
  have account := accounts subJob ids moment extension own found last member job underWay _ (Finset.Subset.refl _)
  obtain ⟨own', found', -, after, behind⟩ := scheduled.order.extended subJob ids moment extension
  cases found.symm.trans found'
  have inLine {other : SubJobWithJob} (holds : Holds source other) :
      other.id ∈ source.world.line own.createdAt last.createdAt :=
    Takes.inLine scheduled (.inl holds) after behind fun row found => Takes.before scheduled (.inl holds) found member underWay
  have gap := table.gap_nonneg
  obtain early | ⟨other, holds, two, late⟩ := scheduled.now_le meets
  · obtain ⟨row, found'', unended⟩ | ⟨other, holds, same⟩ := underWay
    · cases found''.symm.trans (mem_iff_find?.mp member)
      have inside : last.id ∈ source.world.line own.createdAt last.createdAt :=
        mem_line_iff.mpr ⟨last, member, ⟨after last member unended, le_refl _⟩, rfl⟩
      have whole : table.spent source.world.costOf _ + table.allotment last.id ≤
          table.allotted _ + table.used last.id (source.world.costOf last.id) := table.spent_le_allotted inside
      have left := table.used_anti last.id (Nat.one_le_iff_ne_zero.mpr fun none => unended (cost_eq_zero_iff.mp none))
      rw [costOf_of_find? found''] at whole
      have through := account.through
      rw [Timetable.allotment, used_zero] at whole
      linarith
    · have left := held_le account holds (inLine holds)
      have unended := scheduled.times.unended other holds
      have few := table.used_anti other.id (Nat.one_le_iff_ne_zero.mpr fun none => unended (cost_eq_zero_iff.mp none))
      rw [Timetable.allotment, used_zero] at left
      linarith
  · have left := held_le account holds (inLine holds)
    have nothing : table.used other.id 2 = 0 := rfl
    rw [two, nothing, Timetable.allotment, used_zero, used_one] at left
    linarith

end LinesAccounted

end Bms
