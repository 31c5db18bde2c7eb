import Bms.Properties.QueueDrains
import Bms.Protocol.TickClock
import Bms.Protocol.Timed

/-! # The order of the queue

Ticks take the sub-jobs in the order of their creation. Where the clock only goes forward and ended sub-jobs
stay ended, every unfinished sub-job was created after the one that a tick holds, and after every scaling
sub-job whose services have been given their deadlines.
-/

namespace Bms

open Process

/-- The unfinished sub-jobs were created at this moment or later. -/
def World.From (w : World) (moment : DateTime) : Prop :=
  ∀ row ∈ w.subJobs.rows, ¬ row.status.Ended → moment ≤ row.createdAt

variable {registry : ServiceScalerRegistry} {timers : Timers} {source target : System} {event : SystemEvent}

/-- A row stays where it is in the queue. -/
theorem place_kept (sound : Sound source) (step : Step (platform registry) source event target) {id : Uuid}
    {row : SubJobRow} (found : source.world.subJobs.find? id = some row) :
    ∃ later, target.world.subJobs.find? id = some later ∧ later.jobId = row.jobId ∧ later.type = row.type ∧
      later.createdAt = row.createdAt := by
  obtain ⟨later, found', rfl | change⟩ := subJob_step sound.tracks step found
  · exact ⟨later, found', rfl, rfl, rfl⟩
  · obtain ⟨-, job, type, created⟩ := change.fixed
    exact ⟨later, found', job, type, created⟩

theorem World.IsFirstUnfinished.queue {w : World} {row : SubJobRow} (first : w.IsFirstUnfinished row) :
    w.From row.createdAt :=
  fun other member unended => first.2.2 other member (SubJobStatus.not_ended_iff.mp unended)

/-- New sub-jobs join at the end of the queue. -/
theorem World.From.step (sound : Sound source) (current : Current source) (timely : Timely source event)
    (step : Step (platform registry) source event target) {moment : DateTime} (past : moment ≤ source.world.now)
    (after : source.world.From moment) : target.world.From moment := by
  intro row member unended
  obtain ⟨old, there, own, -, -, created, -⟩ | insert := row_before sound.tracks step member
  · rw [← created]
    apply after old there
    intro ended
    obtain ⟨later, found, ended⟩ := ended_step sound current timely step (mem_iff_find?.mp there) ended
    rw [own, mem_iff_find?.mp member] at found
    cases found
    exact unended ended
  · obtain ⟨-, -, -, -, -, -, -, -, -, created⟩ := insert.inserted
    exact created ▸ past

structure QueueOrder (pool : System) : Prop where
  past : ∀ row ∈ pool.world.subJobs.rows, row.createdAt ≤ pool.world.now
  /-- a tick works on the first sub-job -/
  held : ∀ subJob, Holds pool subJob → ∃ own, pool.world.subJobs.find? subJob.id = some own ∧
    pool.world.From own.createdAt
  /-- a sub-job for which services have been scaled is behind -/
  extended : ∀ subJob ids moment, Extension pool subJob ids moment →
    ∃ own, pool.world.subJobs.find? subJob.id = some own ∧ own.jobId = subJob.jobId ∧ pool.world.From own.createdAt ∧
      ∀ other row, Holds pool other → pool.world.subJobs.find? other.id = some row → own.createdAt ≤ row.createdAt

namespace QueueOrder

theorem held_step (sound : Sound source) (current : Current source) (timely : Timely source event)
    (order : QueueOrder source) (step : Step (platform registry) source event target) {subJob : SubJobWithJob}
    (holds : Holds target subJob) :
    ∃ own, target.world.subJobs.find? subJob.id = some own ∧ target.world.From own.createdAt := by
  obtain ⟨position, phase, here, held⟩ := (sound.step step).at_of_holds holds
  obtain ⟨before, there, held, -⟩ | ⟨-, -, -, -, reached, row, found, first, -⟩ := here.held sound.tracks step held
  · obtain ⟨own, found, after⟩ := order.held subJob (there.holds held)
    obtain ⟨later, found', -, -, created⟩ := place_kept sound step found
    exact ⟨later, found', created ▸ after.step sound current timely step (order.past own (Table.mem_of_find? found))⟩
  · rw [reached]
    exact ⟨row, found, first.queue⟩

/-- What a tick holds after a step it held before, or it has picked the first sub-job. -/
theorem behind_step (sound : Sound source) (step : Step (platform registry) source event target) {own later : SubJobRow}
    (after : source.world.From own.createdAt) (behind : ∀ other row, Holds source other →
      source.world.subJobs.find? other.id = some row → own.createdAt ≤ row.createdAt) {other : SubJobWithJob}
    (holds : Holds target other) (found : target.world.subJobs.find? other.id = some later) :
    own.createdAt ≤ later.createdAt := by
  obtain ⟨position, phase, here, held⟩ := (sound.step step).at_of_holds holds
  obtain ⟨before, there, held, -⟩ | ⟨-, -, -, -, reached, row, picked, first, -⟩ := here.held sound.tracks step held
  · obtain ⟨-, row, found', -⟩ := sound.known _ _ _ other there held
    obtain ⟨later', found'', -, -, created⟩ := place_kept sound step found'
    cases found.symm.trans found''
    exact created ▸ behind other row (there.holds held) found'
  · rw [reached, picked] at found
    cases found
    exact after _ first.1 (SubJobStatus.not_ended_iff.mpr first.2.1)

/-- The sub-job for which a tick sets the deadlines of services was in order before the step. -/
theorem extended_before (sound : Sound source) (order : QueueOrder source)
    (step : Step (platform registry) source event target) {subJob : SubJobWithJob} {ids : List Uuid} {moment : DateTime}
    (extension : Extension target subJob ids moment) :
    ∃ own, source.world.subJobs.find? subJob.id = some own ∧ own.jobId = subJob.jobId ∧
      source.world.From own.createdAt ∧ ∀ other row, Holds source other →
        source.world.subJobs.find? other.id = some row → own.createdAt ≤ row.createdAt := by
  obtain old | ⟨position, task, done, present, tick, flying, picked, -⟩ := extension.before step
  · exact order.extended subJob ids moment old
  · have holds : Holds source subJob := ⟨task, List.mem_of_getElem? present, tick, flying, picked⟩
    obtain ⟨own, found, after⟩ := order.held subJob holds
    obtain ⟨place, phase, here, held⟩ := sound.at_of_holds holds
    obtain ⟨-, row, found', job, -⟩ := sound.known _ _ _ subJob here held
    cases found.symm.trans found'
    refine ⟨own, found, job, after, fun other row holds' there => ?_⟩
    obtain rfl := sound.holds_unique holds holds'
    cases found.symm.trans there
    exact le_refl _

theorem extended_step (sound : Sound source) (current : Current source) (timely : Timely source event)
    (order : QueueOrder source) (step : Step (platform registry) source event target) {subJob : SubJobWithJob}
    {ids : List Uuid} {moment : DateTime} (extension : Extension target subJob ids moment) :
    ∃ own, target.world.subJobs.find? subJob.id = some own ∧ own.jobId = subJob.jobId ∧
      target.world.From own.createdAt ∧ ∀ other row, Holds target other →
        target.world.subJobs.find? other.id = some row → own.createdAt ≤ row.createdAt := by
  obtain ⟨own, found, job, after, behind⟩ := order.extended_before sound step extension
  obtain ⟨later, found', job', -, created⟩ := place_kept sound step found
  refine ⟨later, found', job'.trans job, ?_, fun other row holds found => ?_⟩
  · exact created ▸ after.step sound current timely step (order.past own (Table.mem_of_find? found))
  · exact created ▸ behind_step sound step after behind holds found

theorem step (sound : Sound source) (current : Current source) (timely : Timely source event) (order : QueueOrder source)
    (forward : source.world.now ≤ target.world.now) (step : Step (platform registry) source event target) :
    QueueOrder target where
  past row member := by
    refine le_trans ?_ forward
    obtain ⟨old, there, -, -, -, created, -⟩ | insert := row_before sound.tracks step member
    · exact created ▸ order.past old there
    · obtain ⟨-, -, -, -, -, -, -, -, -, created⟩ := insert.inserted
      exact created.le
  held _ holds := order.held_step sound current timely step holds
  extended _ _ _ extension := order.extended_step sound current timely step extension

theorem of_initial {pool : System} (initial : Initial pool) : QueueOrder pool where
  past := by simp [initial.subJobs]
  held subJob holds := by
    obtain ⟨task, member, -⟩ := holds
    simp [initial.tasks] at member
  extended subJob ids moment extension := by
    obtain ⟨task, member, -⟩ := extension
    simp [initial.tasks] at member

end QueueOrder

end Bms
