import Bms.Model.Replay
import Bms.Protocol.Ticks

/-! # Overlapping measurements

The handler dispatches the oldest unfinished sub-job, so measurements follow each other as long as
every start message finds its sub-job in flight. One that arrives after a cancellation puts its
sub-job back in flight next to the one that has been dispatched since.
-/

namespace Bms

open Process

/-- At most one sub-job is in flight, and everything older has ended. -/
def OneAtATime (w : World) : Prop :=
  ∀ row ∈ w.subJobs.rows, row.status.Active → ∀ other ∈ w.subJobs.rows,
    (other.status.Active → other = row) ∧ (other.createdAt < row.createdAt → other.status.Ended)

/-- Rows become visible in strictly increasing order of creation. -/
def Ordered (pool : System) (event : SystemEvent) : Prop :=
  ∀ position subJobId jobId type details done,
    event = .call position ⟨.sql (.createSubJob subJobId jobId .created type details), .ok done⟩ →
    ∀ row ∈ pool.world.subJobs.rows, row.createdAt < pool.world.now

/-- Measurements never overlap in runs whose rows are ordered and whose steps all meet `ok`. -/
def NoOverlap (registry : ServiceScalerRegistry) (ok : System → SystemEvent → Prop) : Prop :=
  ∀ ⦃source target : System⦄ ⦃events : List SystemEvent⦄, Initial source →
    Run (platform registry) (fun pool event => Ordered pool event ∧ ok pool event) source events target →
    OneAtATime target.world

/-- No other sub-job is in flight and everything older has ended. -/
def Unrivalled (w : World) (row : SubJobRow) : Prop :=
  ∀ other ∈ w.subJobs.rows, other.id ≠ row.id →
    ¬ other.status.Active ∧ (other.createdAt < row.createdAt → other.status.Ended)

/-- A start message finds its sub-job in flight or being dispatched; otherwise it is the turn of its
sub-job and no tick is dispatching another. -/
def Prompt (pool : System) (event : SystemEvent) : Prop :=
  ∀ position id done row, event = .call position ⟨.sql (.updateSubJobStatus id .processing), .ok done⟩ →
    pool.world.subJobs.find? id = some row →
    row.status.Active ∨ Dispatching pool id ∨ (Unrivalled pool.world row ∧ ∀ other, ¬ Dispatching pool other)

/-- A sub-job that has its turn: it is in flight or being dispatched. -/
def HasTurn (pool : System) (row : SubJobRow) : Prop := row.status.Active ∨ Dispatching pool row.id

structure InTurn (pool : System) : Prop where
  distinct : ∀ row ∈ pool.world.subJobs.rows, ∀ other ∈ pool.world.subJobs.rows,
    row.createdAt = other.createdAt → row.id = other.id
  turn : ∀ row ∈ pool.world.subJobs.rows, HasTurn pool row → Unrivalled pool.world row

variable {registry : ServiceScalerRegistry} {source target : System} {event : SystemEvent}

/-- Only one sub-job has its turn. -/
theorem InTurn.unique {pool : System} (sound : Sound pool) (inTurn : InTurn pool) {row other : SubJobRow}
    (member : row ∈ pool.world.subJobs.rows) (member' : other ∈ pool.world.subJobs.rows) (turn : HasTurn pool row)
    (turn' : HasTurn pool other) : row.id = other.id := by
  by_contra different
  obtain active | dispatching := turn
  · exact (inTurn.turn other member' turn' row member different).1 active
  · obtain active' | dispatching' := turn'
    · exact (inTurn.turn row member (.inr dispatching) other member' (Ne.symm different)).1 active'
    · exact different (sound.dispatching_unique dispatching dispatching')

/-- The row that a tick picks has no rival. -/
theorem InTurn.picked {pool : System} (inTurn : InTurn pool) {row : SubJobRow}
    (first : pool.world.IsFirstUnfinished row) : Unrivalled pool.world row := by
  obtain ⟨member, unfinished, oldest⟩ := first
  refine fun other member' different => ⟨fun active => ?_, fun older => ?_⟩
  · have younger := oldest other member' active.unfinished
    have strict : row.createdAt < other.createdAt :=
      lt_of_le_of_ne younger fun same => different (inTurn.distinct row member other member' same).symm
    have ended := (inTurn.turn other member' (.inl active) row member (Ne.symm different)).2 strict
    exact SubJobStatus.not_unfinished_iff.mpr ended unfinished
  · by_contra notEnded
    exact absurd older (not_lt.mpr (oldest other member' (SubJobStatus.not_ended_iff.mp notEnded)))

/-- A row that a write puts in flight had its turn, or takes it while nobody has. -/
theorem turn_of_write (prompt : Prompt source event)
    {test : SubJobRow → Bool} {change : SubJobRow → SubJobRow} (write : SubJobWrite source event test change)
    {row : SubJobRow} (member : row ∈ source.world.subJobs.rows) (tested : test row = true)
    (active : (change row).status.Active) : HasTurn source row ∨
      (Unrivalled source.world row ∧ (∀ other, ¬ Dispatching source other) ∧
        ∀ other ∈ source.world.subJobs.rows, test other = true → other.id = row.id) := by
  have found := mem_iff_find?.mp member
  cases write with
  | recorded => exact .inl (.inl active)
  | pended here measuring created =>
    have own := of_decide_eq_true tested
    exact .inl (.inr (own ▸ here.dispatching rfl created))
  | scaled here scaling created =>
    have own := of_decide_eq_true tested
    exact .inl (.inr (own ▸ here.dispatching rfl created))
  | begun here =>
    have own := of_decide_eq_true tested
    obtain active | dispatching | ⟨unrivalled, none⟩ := prompt _ _ _ row rfl (own ▸ found)
    · exact .inl (.inl active)
    · exact .inl (.inr (own ▸ dispatching))
    · exact .inr ⟨unrivalled, none, fun other _ tested' => (of_decide_eq_true tested').trans own.symm⟩
  | unneeded | reached | completed | failed | canceled => simp [SubJobStatus.Active] at active

/-- No write puts another sub-job in flight while one has its turn, nor brings an older one back. -/
theorem unrivalled_of_write (sound : Sound source) (inTurn : InTurn source) (prompt : Prompt source event)
    {test : SubJobRow → Bool} {change : SubJobRow → SubJobRow} (write : SubJobWrite source event test change)
    {row other : SubJobRow} (member : row ∈ source.world.subJobs.rows) (turn : HasTurn source row)
    (member' : other ∈ source.world.subJobs.rows) (different : other.id ≠ row.id) (tested : test other = true) :
    ¬ (change other).status.Active ∧ (other.createdAt < row.createdAt → (change other).status.Ended) := by
  have clear := inTurn.turn row member turn other member' different
  have inactive : ¬ (change other).status.Active := by
    intro active
    obtain turn' | ⟨unrivalled, none, -⟩ := turn_of_write prompt write member' tested active
    · exact different (inTurn.unique sound member' member turn' turn)
    · obtain active' | dispatching := turn
      · exact (unrivalled row member (Ne.symm different)).1 active'
      · exact none row.id dispatching
  refine ⟨inactive, fun older => ?_⟩
  cases write with
  | recorded => exact clear.2 older
  | pended | scaled | begun => exact absurd (by simp [SubJobStatus.Active]) inactive
  | unneeded | reached | completed | failed | canceled => simp [SubJobStatus.Ended]

/-- A step that changes no sub-job: a tick may have picked one. -/
theorem InTurn.of_same (sound : Sound source) (inTurn : InTurn source)
    (step : Step (platform registry) source event target)
    (same : target.world.subJobs = source.world.subJobs) : InTurn target := by
  refine ⟨by rw [same]; exact inTurn.distinct, fun row member turn => ?_⟩
  unfold Unrivalled
  rw [same] at member ⊢
  obtain active | dispatching := turn
  · exact inTurn.turn row member (.inl active)
  · obtain before | ⟨-, -, picked, found, first, -⟩ := sound.dispatching_before step dispatching
    · exact inTurn.turn row member (.inr before)
    · obtain rfl : row = picked := Option.some.inj ((mem_iff_find?.mp member).symm.trans found)
      exact inTurn.picked first

theorem InTurn.of_write (sound : Sound source) (inTurn : InTurn source) (prompt : Prompt source event)
    {test : SubJobRow → Bool} {change : SubJobRow → SubJobRow} (write : SubJobWrite source event test change)
    (rows : ∀ id, target.world.subJobs.find? id =
      (source.world.subJobs.find? id).map fun row => if test row then change row else row)
    (before : ∀ id, Dispatching target id → Dispatching source id) : InTurn target := by
  have origin {row : SubJobRow} (member : row ∈ target.world.subJobs.rows) :
      ∃ old ∈ source.world.subJobs.rows, (if test old then change old else old) = row ∧ old.id = row.id ∧
        old.createdAt = row.createdAt := by
    have found := mem_iff_find?.mp member
    rw [rows] at found
    obtain ⟨old, found, rfl⟩ := Option.map_eq_some_iff.mp found
    refine ⟨old, Table.mem_of_find? found, rfl, ?_⟩
    split
    · exact ⟨(write.fixed old).1.symm, (write.fixed old).2.2.2.symm⟩
    · exact ⟨rfl, rfl⟩
  constructor
  · intro row member other member' same
    obtain ⟨old, there, -, id, time⟩ := origin member
    obtain ⟨old', there', -, id', time'⟩ := origin member'
    rw [← id, ← id']
    exact inTurn.distinct old there old' there' (time.trans (same.trans time'.symm))
  · intro row member turn other member' different
    obtain ⟨old, there, rfl, id, time⟩ := origin member
    obtain ⟨old', there', rfl, id', time'⟩ := origin member'
    rw [← id, ← id'] at different
    rw [← time, ← time']
    have had : HasTurn source old ∨ (Unrivalled source.world old ∧ test old' = false) := by
      obtain active | dispatching := turn
      · split at active
        · next tested =>
          obtain had | ⟨unrivalled, -, only⟩ := turn_of_write prompt write there tested active
          · exact .inl had
          · exact .inr ⟨unrivalled, by
              rw [Bool.eq_false_iff]
              exact fun tested' => different (only old' there' tested')⟩
        · exact .inl (.inl active)
      · rw [← id] at dispatching
        exact .inl (.inr (before _ dispatching))
    cases tested' : test old' with
    | false =>
      simp only [Bool.false_eq_true, ↓reduceIte]
      obtain had | ⟨unrivalled, -⟩ := had
      · exact inTurn.turn old there had old' there' different
      · exact unrivalled old' there' different
    | true =>
      simp only [↓reduceIte]
      obtain had | ⟨-, untouched⟩ := had
      · exact unrivalled_of_write sound inTurn prompt write there had there' different tested'
      · simp [tested'] at untouched

theorem InTurn.of_insert (sound : Sound source) (inTurn : InTurn source) (ordered : Ordered source event)
    {row : SubJobRow} (insert : SubJobInsert source event row)
    (rows : ∀ id, target.world.subJobs.find? id = if row.id = id then some row else source.world.subJobs.find? id)
    (before : ∀ id, Dispatching target id → Dispatching source id) : InTurn target := by
  obtain ⟨position, payload, jobId, subJobs, details, done, here, few, parent, same, new⟩ := insert.creates
  have newest (other) (member : other ∈ source.world.subJobs.rows) : other.createdAt < row.createdAt := by
    rw [new]
    exact ordered _ _ _ _ _ _ same other member
  have created : row.status = .created := by rw [new]; rfl
  have origin {other : SubJobRow} (member : other ∈ target.world.subJobs.rows) :
      other = row ∨ other ∈ source.world.subJobs.rows := by
    have found := mem_iff_find?.mp member
    rw [rows] at found
    split at found
    · exact .inl (Option.some.inj found).symm
    · exact .inr (Table.mem_of_find? found)
  constructor
  · intro row member other member' equal
    obtain rfl | old := origin member <;> obtain rfl | old' := origin member'
    · rfl
    · exact absurd equal (newest _ old').ne'
    · exact absurd equal (newest _ old).ne
    · exact inTurn.distinct _ old _ old' equal
  · intro row member turn other member' different
    have old : row ∈ source.world.subJobs.rows := by
      apply (origin member).resolve_left
      intro same
      obtain active | dispatching := turn
      · simp [same, created, SubJobStatus.Active] at active
      · obtain ⟨row', found⟩ := sound.row_of_dispatching (before _ dispatching)
        rw [same, insert.fresh] at found
        cases found
    obtain rfl | old' := origin member'
    · exact ⟨by simp [created, SubJobStatus.Active], fun older => absurd (newest row old) older.asymm⟩
    · exact inTurn.turn row old (turn.imp_right (before _)) other old' different

theorem InTurn.step (sound : Sound source) (inTurn : InTurn source) (meets : Ordered source event ∧ Prompt source event)
    (step : Step (platform registry) source event target) : InTurn target := by
  by_cases same : target.world = source.world
  · exact inTurn.of_same sound step (congrArg _ same)
  have before (id : Uuid) (dispatching : Dispatching target id) : Dispatching source id :=
    (sound.dispatching_before step dispatching).resolve_right fun picked => same picked.1
  cases subJobs_step sound.tracks step with
  | kept same => exact inTurn.of_same sound step same
  | written write rows => exact inTurn.of_write sound meets.2 write rows before
  | inserted insert rows => exact inTurn.of_insert sound meets.1 insert rows before

theorem InTurn.oneAtATime {pool : System} (inTurn : InTurn pool) : OneAtATime pool.world := by
  intro row member active other member'
  constructor
  · intro active'
    by_contra different
    refine (inTurn.turn row member (.inl active) other member' fun same => different ?_).1 active'
    exact Option.some.inj ((mem_iff_find?.mp member').symm.trans (same ▸ mem_iff_find?.mp member))
  · intro older
    refine (inTurn.turn row member (.inl active) other member' fun same => ?_).2 older
    have equal : other = row := Option.some.inj ((mem_iff_find?.mp member').symm.trans (same ▸ mem_iff_find?.mp member))
    exact absurd older (by simp [equal])

theorem noOverlap_of_prompt (registry : ServiceScalerRegistry) : NoOverlap registry Prompt := by
  intro source target events initial run
  have start : InTurn source := ⟨by simp [initial.subJobs], by simp [initial.subJobs]⟩
  exact (sound_invariant (I := InTurn) run (fun sound inTurn meets step => inTurn.step sound meets step)
    (Sound.of_initial initial) start).2.oneAtATime

/-- Every new row is newer than all others. -/
def insertsNewest (pool : System) : SystemEvent → Bool
  | .call _ ⟨.sql (.createSubJob ..), _⟩ => pool.world.subJobs.rows.all fun row => row.createdAt < pool.world.now
  | _ => true

theorem ordered_of_insertsNewest {pool : System} {event : SystemEvent} (check : insertsNewest pool event = true) :
    Ordered pool event := by
  rintro position subJobId jobId type details done rfl row member
  simpa using List.all_eq_true.mp check row member

/-- Every start finds its sub-job in flight. -/
def startsActive (pool : System) : SystemEvent → Bool
  | .call _ ⟨.sql (.updateSubJobStatus id .processing), _⟩ =>
    (pool.world.subJobs.find? id).all fun row => row.status.Active
  | _ => true

theorem prompt_of_startsActive {pool : System} {event : SystemEvent} (check : startsActive pool event = true) :
    Prompt pool event := by
  rintro position id done row rfl found
  simp only [startsActive, found, Option.all_some] at check
  exact .inl (of_decide_eq_true check)

/-- Sub-job 3 is started in time while the sub-jobs 4 and 5 wait. -/
theorem noOverlap_startInTime : ∃ events target,
    Run (platform ⟨false⟩) (fun pool event => Ordered pool event ∧ Prompt pool event) (sampleSystem .online) events target ∧
      target.world.subJobStatus? 3 = some .processing ∧ OneAtATime target.world := by
  have replayed : ((replay ⟨false⟩ (fun pool event => insertsNewest pool event && startsActive pool event)
      (sampleSystem .online) (announcedStart ++ startProcessed 4)).any fun target =>
        target.world.subJobStatus? 3 = some .processing) = true := by
    decide +kernel
  obtain ⟨events, target, run, found⟩ := exists_run_of_replay replayed
  have meets := run.mono fun _ _ check =>
    have both := (Bool.and_eq_true ..).mp check
    And.intro (ordered_of_insertsNewest both.1) (prompt_of_startsActive both.2)
  exact ⟨events, target, meets, of_decide_eq_true found, noOverlap_of_prompt ⟨false⟩ (initial_sampleSystem .online) meets⟩

/-- The job is cancelled, the next one is created and its sub-job 9 is dispatched; then the start of
sub-job 3 is processed. -/
def overtakenStart : List Move :=
  announcedStart ++ .start (.cancelJob 1) :: goTimes 4 3 ++ creationFrom 5 4 ++ sampleTick 6 7 ++ sampleTick 7 7 ++
    startProcessed 8

theorem not_noOverlap : ¬ NoOverlap ⟨false⟩ fun pool event => spawnsOnly Kind.ofJobs pool event = true := by
  intro alone
  have replayed : ((replay ⟨false⟩ (fun pool event => insertsNewest pool event && spawnsOnly Kind.ofJobs pool event)
      (sampleSystem .online) overtakenStart).any fun target =>
        decide (target.world.subJobStatus? 3 = some .processing) &&
          decide (target.world.subJobStatus? 9 = some .pending)) = true := by
    decide +kernel
  obtain ⟨events, target, run, found⟩ := exists_run_of_replay replayed
  obtain ⟨started, dispatched⟩ := (Bool.and_eq_true ..).mp found
  have once := alone (initial_sampleSystem .online) (run.mono fun _ _ check =>
    have both := (Bool.and_eq_true ..).mp check
    And.intro (ordered_of_insertsNewest both.1) both.2)
  obtain ⟨row, present, status⟩ := Option.map_eq_some_iff.mp (of_decide_eq_true started)
  obtain ⟨other, present', status'⟩ := Option.map_eq_some_iff.mp (of_decide_eq_true dispatched)
  have same : other = row := (once row (Table.mem_of_find? present) (by simp [status, SubJobStatus.Active]) other
    (Table.mem_of_find? present')).1 (by simp [status', SubJobStatus.Active])
  rw [← same, status'] at status
  cases status

end Bms
