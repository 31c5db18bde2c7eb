import Bms.Model.Replay
import Bms.Protocol.Results
import Mathlib.Data.Finset.Card

/-! # Completed sub-jobs

A tick completes a sub-job when it has as many results as workers were counted, whoever sent them. A
worker that was offline at the dispatch still receives the message, and one that receives it twice
answers twice. Where every result is the first one of a counted worker, the results of a completed
sub-job come from as many counted workers as were expected.
-/

namespace Bms

open Process

/-- The workers that a tick has read as online. -/
def surveyedIn (log : List Act) : Option (List String) :=
  log.findSome? fun
    | ⟨.sql (.getWorkersOnlineWithTopic _), .ok workers⟩ => some workers
    | _ => none

/-- The workers that a dispatch counts: those online, without those that its message excludes. -/
def countedBy (log : List Act) : List String :=
  match pickedIn log, surveyedIn log with
  | some subJob, some workers => workers.filter (· ∉ (excludedAndCount subJob workers).1)
  | _, _ => []

/-- A number of workers has been recorded in the details of a sub-job. -/
def recordsCount (id : Uuid) (log : List Act) : Bool := log.any fun
  | ⟨.sql (.updateSubJobWorkersCount other _), .ok _⟩ => other = id
  | _ => false

def countedIn (id : Uuid) (log : List Act) : Option (List String) :=
  if recordsCount id log then some (countedBy log) else none

/-- The workers counted by the last tick that has recorded their number in a sub-job. -/
def lastCounted (pool : System) (id : Uuid) : List String :=
  (pool.tasks.filterMap fun task => countedIn id task.log).getLast?.getD []

/-- The counted workers of which results are saved. -/
def Answering (pool : System) (id : Uuid) : Finset String :=
  (lastCounted pool id).toFinset.filter fun name => ∃ row ∈ pool.world.dataOf id, row.workerName = name

/-- A measuring sub-job that is completed has results from as many counted workers as its details say,
in runs whose steps all meet `ok`. -/
def CompletionSound (registry : ServiceScalerRegistry) (ok : System → SystemEvent → Prop) : Prop :=
  ∀ ⦃source middle target : System⦄ ⦃events : List SystemEvent⦄ ⦃position : ℕ⦄ ⦃id : Uuid⦄ ⦃row : SubJobRow⦄,
    Initial source → Run (platform registry) ok source events middle →
    Step (platform registry) middle (.call position ⟨.sql (.updateSubJobStatus id .completed), .ok ()⟩) target →
    middle.world.subJobs.find? id = some row → row.type = .combinedDHP →
    ∃ workersCount, (row.details.get? "workers_count").bind Json.asU64? = some workersCount ∧
      workersCount ≤ (Answering middle id).card

/-- Every result is the first one of a counted worker. -/
structure FirstOfCounted (pool : System) (event : SystemEvent) : Prop where
  /-- a saved result comes from a worker counted for the sub-job that has no result of it yet -/
  saves : ∀ position result done, event = .call position ⟨.sql (.saveData result), .ok done⟩ →
    result.workerName ∈ lastCounted pool result.subJobId ∧
      ∀ row ∈ pool.world.dataOf result.subJobId, row.workerName ≠ result.workerName
  /-- a tick that counts the workers of a sub-job counts those that have answered before -/
  records : ∀ position task id count done,
    event = .call position ⟨.sql (.updateSubJobWorkersCount id count), .ok done⟩ →
    pool.tasks[position]? = some task → ∀ row ∈ pool.world.dataOf id, row.workerName ∈ countedBy task.log

/-- The results of each sub-job come from different counted workers. -/
structure Attested (pool : System) : Prop where
  distinct : ∀ id, ((pool.world.dataOf id).map (·.workerName)).Nodup
  counted : ∀ id, ∀ row ∈ pool.world.dataOf id, row.workerName ∈ lastCounted pool id

variable {registry : ServiceScalerRegistry} {source target : System} {event : SystemEvent}

/-! ## Who has been counted -/

theorem surveyedIn_concat (log : List Act) (made : Act) :
    surveyedIn (log ++ [made]) = (surveyedIn log).or (surveyedIn [made]) := List.findSome?_append

theorem recordsCount_concat (id : Uuid) (log : List Act) (made : Act) :
    recordsCount id (log ++ [made]) = (recordsCount id log || recordsCount id [made]) := List.any_append

theorem JobPhase.surveyed_note {phase : JobPhase} {made : Act} {subJob : SubJobWithJob} {workers : List String}
    (surveyed : phase.note made = .surveyed subJob workers) :
    phase = .surveyed subJob workers ∨
      ∃ topic, phase = .held subJob ∧ made = ⟨.sql (.getWorkersOnlineWithTopic topic), .ok workers⟩ := by
  have noted := phase.notes made
  rw [surveyed] at noted
  cases noted with
  | stays => exact .inl rfl
  | surveys => exact .inr ⟨_, rfl, rfl⟩

/-- A tick that has surveyed the workers has logged what it has read. -/
theorem surveyedIn_of_permits {kind : Kind} {log : List Act} (permits : jobMonitor.Permits kind log)
    {subJob : SubJobWithJob} {workers : List String}
    (surveyed : log.foldl JobPhase.note (JobPhase.start kind) = .surveyed subJob workers) :
    (surveyedIn log).isSome := by
  induction permits with
  | nil => cases kind <;> cases surveyed
  | @concat log op reply earlier legal ih =>
    rw [List.foldl_append] at surveyed
    rw [surveyedIn_concat, Option.isSome_or]
    rcases JobPhase.surveyed_note surveyed with before | ⟨topic, -, reads⟩
    · rw [ih before, Bool.true_or]
    · rw [reads, Bool.or_eq_true]
      exact .inr rfl

theorem eq_of_recordsCount {made : Act} {id : Uuid} (records : recordsCount id [made] = true) :
    ∃ count done, made = ⟨.sql (.updateSubJobWorkersCount id count), .ok done⟩ := by
  obtain ⟨same, member, now⟩ := List.any_eq_true.mp records
  obtain rfl := List.mem_singleton.mp member
  split at now
  · obtain rfl := of_decide_eq_true now
    exact ⟨_, _, rfl⟩
  · cases now

/-- A count is recorded by a tick that has picked a sub-job and read the workers. -/
theorem of_recordsCount {kind : Kind} {log : List Act} {id : Uuid} (permits : jobMonitor.Permits kind log)
    (records : recordsCount id log = true) :
    kind = .subJobTick ∧ (pickedIn log).isSome ∧ (surveyedIn log).isSome := by
  induction permits with
  | nil => cases records
  | @concat log op reply earlier legal ih =>
    rw [pickedIn_concat, surveyedIn_concat]
    rw [recordsCount_concat, Bool.or_eq_true] at records
    rcases records with before | now
    · obtain ⟨tick, picked, surveyed⟩ := ih before
      exact ⟨tick, by simp [Option.isSome_or, picked], by simp [Option.isSome_or, surveyed]⟩
    · obtain ⟨count, done, made⟩ := eq_of_recordsCount now
      cases made
      generalize reached : log.foldl jobMonitor.note (jobMonitor.start kind) = phase at legal
      cases legal with
      | quiet quiet => exact quiet.elim
      | record =>
        have surveyed := surveyedIn_of_permits earlier reached
        have held : (log.foldl JobPhase.note .searching).snapshot = some _ := congrArg JobPhase.snapshot reached
        obtain started | ⟨-, picked⟩ := JobPhase.picking.picked_of_snapshot held
        · cases started
        · exact ⟨rfl, by simp [picked], by simp [Option.isSome_or, surveyed]⟩

/-- Once a tick has recorded a count, it counts the same workers ever after. -/
theorem countedBy_concat {kind : Kind} {log : List Act} {id : Uuid} (permits : jobMonitor.Permits kind log)
    (records : recordsCount id log = true) (made : Act) : countedBy (log ++ [made]) = countedBy log := by
  obtain ⟨-, picked, surveyed⟩ := of_recordsCount permits records
  obtain ⟨subJob, picked⟩ := Option.isSome_iff_exists.mp picked
  obtain ⟨workers, surveyed⟩ := Option.isSome_iff_exists.mp surveyed
  rw [countedBy, countedBy, pickedIn_concat, surveyedIn_concat, picked, surveyed]
  rfl

theorem countedIn_concat {kind : Kind} {log : List Act} (id : Uuid) (permits : jobMonitor.Permits kind log)
    {made : Act} (other : recordsCount id [made] = false) : countedIn id (log ++ [made]) = countedIn id log := by
  rw [countedIn, countedIn, recordsCount_concat, other, Bool.or_false]
  by_cases records : recordsCount id log = true
  · rw [if_pos records, if_pos records, countedBy_concat permits records]
  · rw [if_neg records, if_neg records]

theorem filterMap_set_same {α β : Type} {f : α → Option β} {items : List α} {position : ℕ} {item other : α}
    (present : items[position]? = some item) (same : f other = f item) :
    (items.set position other).filterMap f = items.filterMap f := by
  obtain ⟨bound, rfl⟩ := List.getElem?_eq_some_iff.mp present
  have parts : items = items.take position ++ items[position] :: items.drop (position + 1) := by simp
  rw [List.set_eq_take_append_cons_drop, if_pos bound]
  conv_rhs => rw [parts]
  simp only [List.filterMap_append, List.filterMap_cons, same]

/-- No task after the tick in flight has recorded a count. -/
theorem Sound.none_counted_later {pool : System} (sound : Sound pool) {position : ℕ}
    (flies : pool.Flies position .subJobTick) (id : Uuid) :
    (pool.tasks.drop (position + 1)).filterMap (fun task => countedIn id task.log) = [] := by
  rw [List.filterMap_eq_nil_iff]
  intro task member
  obtain ⟨offset, there⟩ := List.mem_iff_getElem?.mp member
  rw [List.getElem?_drop] at there
  rw [countedIn, if_neg]
  intro records
  obtain ⟨tick, -⟩ := of_recordsCount (sound.tracks _ task there).permits records
  have last := sound.latest position _ task flies there tick
  omega

/-- The counted workers of a sub-job change only when a tick records their number. -/
theorem lastCounted_step (sound : Sound source) (step : Step (platform registry) source event target) (id : Uuid) :
    lastCounted target id = lastCounted source id ∨ ∃ position task count done,
      event = .call position ⟨.sql (.updateSubJobWorkersCount id count), .ok done⟩ ∧
      source.tasks[position]? = some task ∧ lastCounted target id = countedBy task.log := by
  cases step with
  | spawn admitted =>
    left
    have fresh : countedIn id [] = none := rfl
    simp [lastCounted, List.filterMap_append, fresh]
  | drift drifts => exact .inl rfl
  | @call position task op next reply present awaits allowed =>
    have tracks := sound.tracks position task present
    cases records : recordsCount id [⟨op, reply⟩] with
    | false =>
      left
      rw [lastCounted, filterMap_set_same present (countedIn_concat id tracks.permits records), lastCounted]
    | true =>
      obtain ⟨count, done, made⟩ := eq_of_recordsCount records
      cases made
      have recorded : recordsCount id (task.log ++ [⟨.sql (.updateSubJobWorkersCount id count), .ok done⟩]) = true := by
        rw [recordsCount_concat, records, Bool.or_true]
      have counted : countedBy (task.log ++ [⟨.sql (.updateSubJobWorkersCount id count), .ok done⟩]) =
          countedBy task.log := by
        simp only [countedBy, pickedIn_concat, surveyedIn_concat]
        simp only [pickedIn, surveyedIn, List.findSome?_cons, List.findSome?_nil, Option.or_none]
      obtain ⟨tick, -⟩ := of_recordsCount (.concat tracks.permits (tracks.legal awaits)) recorded
      have later := sound.none_counted_later ⟨task, present, tick, _, next, awaits⟩ id
      refine .inr ⟨position, task, count, done, rfl, present, ?_⟩
      rw [lastCounted, List.set_eq_take_append_cons_drop, if_pos (List.getElem?_eq_some_iff.mp present).1,
        List.filterMap_append, List.filterMap_cons, later]
      simp [countedIn, recorded, counted]

/-! ## Results of counted workers -/

theorem Attested.step (sound : Sound source) (attested : Attested source) (genuine : FirstOfCounted source event)
    (step : Step (platform registry) source event target) : Attested target := by
  obtain same | ⟨position, result, done, rfl, added⟩ := dataOf_step sound.tracks step
  · constructor
    · intro id
      rw [same id]
      exact attested.distinct id
    · intro id row member
      rw [same id] at member
      obtain kept | ⟨position, task, count, done, rfl, present, counted⟩ := lastCounted_step sound step id
      · rw [kept]
        exact attested.counted id row member
      · rw [counted]
        exact genuine.records position task id count done rfl present row member
  · obtain ⟨counted, first⟩ := genuine.saves position result done rfl
    constructor
    · intro id
      rw [added id]
      by_cases own : result.subJobId = id
      · subst own
        rw [if_pos rfl, List.map_append, List.map_singleton, List.nodup_append]
        refine ⟨attested.distinct _, List.nodup_singleton _, ?_⟩
        intro name member name' single same
        obtain ⟨row, saved, rfl⟩ := List.mem_map.mp member
        obtain rfl := List.mem_singleton.mp single
        exact first row saved same
      · rw [if_neg own, List.append_nil]
        exact attested.distinct id
    · intro id row member
      have kept : lastCounted target id = lastCounted source id := by
        obtain kept | ⟨_, _, _, _, records, -⟩ := lastCounted_step sound step id
        · exact kept
        · cases records
      rw [added id] at member
      rw [kept]
      rcases List.mem_append.mp member with old | new
      · exact attested.counted id row old
      · split at new
        · next own =>
          obtain rfl := List.mem_singleton.mp new
          rw [← own]
          exact counted
        · cases new

/-- Results of different counted workers are at most as many as the counted workers that have answered. -/
theorem Attested.length_le {pool : System} (attested : Attested pool) (id : Uuid) :
    (pool.world.dataOf id).length ≤ (Answering pool id).card := by
  have distinct := attested.distinct id
  calc (pool.world.dataOf id).length
      = ((pool.world.dataOf id).map (·.workerName)).toFinset.card := by
        rw [List.toFinset_card_of_nodup distinct, List.length_map]
    _ ≤ (Answering pool id).card := by
        apply Finset.card_le_card
        intro name member
        obtain ⟨row, saved, rfl⟩ := List.mem_map.mp (List.mem_toFinset.mp member)
        exact Finset.mem_filter.mpr ⟨List.mem_toFinset.mpr (attested.counted id row saved), row, saved, rfl⟩

theorem completionSound_of_firstOfCounted (registry : ServiceScalerRegistry) :
    CompletionSound registry FirstOfCounted := by
  intro source middle target events position id row initial run step found measuring
  have start : Reads source ∧ Attested source := by
    refine ⟨Reads.of_initial initial, fun id => ?_, fun id row member => ?_⟩
    · simp [World.dataOf, initial.workerData]
    · simp [World.dataOf, initial.workerData] at member
  obtain ⟨sound, reads, attested⟩ := sound_invariant (I := fun pool => Reads pool ∧ Attested pool) run
    (fun sound both genuine step => ⟨both.1.step sound step, both.2.step sound genuine step⟩)
    (Sound.of_initial initial) start
  obtain ⟨kind, phase, here, legal, -, -⟩ := legal_of_call sound.tracks step
  cases legal with
  | quiet quiet => exact quiet.elim
  | @reached subJob workers scaling processing =>
    obtain ⟨-, other, found', -, type⟩ := sound.known position _ _ subJob here rfl
    obtain rfl : row = other := Option.some.inj (found.symm.trans found')
    rw [measuring, scaling] at type
    cases type
  | @complete subJob data workersCount _ _ counted enough =>
    obtain ⟨other, found', details, -⟩ := reads.row position _ _ subJob here rfl
    obtain rfl : row = other := Option.some.inj (found.symm.trans found')
    refine ⟨workersCount, ?_, ?_⟩
    · rw [details]
      exact workersCountOf_eq_ok_iff.mp counted
    · calc workersCount
          ≤ data.length := enough
        _ ≤ (middle.world.dataOf subJob.id).length := (reads.data position _ subJob data here).length_le
        _ ≤ (Answering middle subJob.id).card := attested.length_le subJob.id

/-! ## Runs -/

/-- Results are saved as the condition asks, and counts are recorded before any result. -/
def savesFirstOfCounted (pool : System) : SystemEvent → Bool
  | .call _ ⟨.sql (.saveData result), _⟩ => decide (result.workerName ∈ lastCounted pool result.subJobId ∧
      ∀ row ∈ pool.world.dataOf result.subJobId, row.workerName ≠ result.workerName)
  | .call _ ⟨.sql (.updateSubJobWorkersCount id _), _⟩ => (pool.world.dataOf id).isEmpty
  | _ => true

theorem firstOfCounted_of_saves {pool : System} {event : SystemEvent}
    (check : savesFirstOfCounted pool event = true) : FirstOfCounted pool event where
  saves := by
    rintro position result done rfl
    exact of_decide_eq_true check
  records := by
    rintro position task id count done rfl - row member
    have none : pool.world.dataOf id = [] := List.isEmpty_iff.mp check
    rw [none] at member
    cases member

/-- The next call of a task completes a measuring sub-job that expects so many workers. -/
def completesNext (pool : System) (position : ℕ) (id : Uuid) (workersCount : ℕ) : Bool :=
  (match pool.tasks[position]? with
    | some ⟨_, _, .call (.sql (.updateSubJobStatus other .completed)) _⟩ => decide (other = id)
    | _ => false) &&
  (pool.world.subJobs.find? id).any fun row => decide (row.type = .combinedDHP ∧
    (row.details.get? "workers_count").bind Json.asU64? = some workersCount)

theorem step_of_completesNext {pool : System} {position : ℕ} {id : Uuid} {workersCount : ℕ}
    (completes : completesNext pool position id workersCount = true) :
    (∃ target, Step (platform registry) pool (.call position ⟨.sql (.updateSubJobStatus id .completed), .ok ()⟩) target) ∧
      ∃ row, pool.world.subJobs.find? id = some row ∧ row.type = .combinedDHP ∧
        (row.details.get? "workers_count").bind Json.asU64? = some workersCount := by
  obtain ⟨awaits, known⟩ := (Bool.and_eq_true ..).mp completes
  obtain ⟨row, found, known⟩ := (Option.any_eq_true ..).mp known
  constructor
  · split at awaits
    · next kind log other next present =>
      obtain rfl := of_decide_eq_true awaits
      exact ⟨_, .call present rfl trivial⟩
    · cases awaits
  · exact ⟨row, found, of_decide_eq_true known⟩

/-- One worker is online; another one of the topic is registered, but offline. -/
def withOfflineWorker : System where
  tasks := []
  world := { sampleWorld .online with
    workers := (sampleWorld .online).workers.insert ⟨"w2", .offline, 0, none, none, none⟩
    workerTopics := (sampleWorld .online).workerTopics.insert ("w2", "eu") }

theorem initial_withOfflineWorker : Initial withOfflineWorker := by
  constructor <;> rfl

/-- Sub-job 3 has been started and a worker answers when the start time has passed; the tick at position
7 has read the answer. -/
def answeredLate (worker : WorkerConfig) : List Move :=
  announcedStart ++ startProcessed 4 ++ [.clock (Duration.seconds 10)] ++ received worker 5 3 ++
    saved (lateAnswer 7 worker.workerName) 6 ++ sampleTick 7 3

/-- The counted worker answers, and its answer completes sub-job 3. -/
theorem completionSound_counted : ∃ events middle target row,
    Run (platform ⟨false⟩) FirstOfCounted withOfflineWorker events middle ∧
      Step (platform ⟨false⟩) middle (.call 7 ⟨.sql (.updateSubJobStatus 3 .completed), .ok ()⟩) target ∧
      middle.world.subJobs.find? 3 = some row ∧ row.type = .combinedDHP ∧
      ∃ workersCount, (row.details.get? "workers_count").bind Json.asU64? = some workersCount ∧
        workersCount ≤ (Answering middle 3).card := by
  have replayed : ((replay ⟨false⟩ savesFirstOfCounted withOfflineWorker (answeredLate sampleWorker)).any
      fun middle => completesNext middle 7 3 1) = true := by
    decide +kernel
  obtain ⟨events, middle, run, completes⟩ := exists_run_of_replay replayed
  obtain ⟨⟨target, step⟩, row, found, measuring, -⟩ := step_of_completesNext completes
  have meets := run.mono fun _ _ => firstOfCounted_of_saves
  exact ⟨events, middle, target, row, meets, step, found, measuring,
    completionSound_of_firstOfCounted ⟨false⟩ initial_withOfflineWorker meets step found measuring⟩

theorem not_completionSound : ¬ CompletionSound ⟨false⟩ fun pool event => spawnsOnly Kind.ofJobs pool event = true := by
  intro sound
  have replayed : ((replay ⟨false⟩ (spawnsOnly Kind.ofJobs) withOfflineWorker (answeredLate ⟨"w2", ["eu"]⟩)).any
      fun middle => completesNext middle 7 3 1 && decide ((Answering middle 3).card = 0)) = true := by
    decide +kernel
  obtain ⟨events, middle, run, found⟩ := exists_run_of_replay replayed
  obtain ⟨completes, none⟩ := (Bool.and_eq_true ..).mp found
  obtain ⟨⟨target, step⟩, row, present, measuring, expected⟩ := step_of_completesNext completes
  obtain ⟨workersCount, expected', enough⟩ := sound initial_withOfflineWorker run step present measuring
  obtain rfl : 1 = workersCount := Option.some.inj (expected.symm.trans expected')
  rw [of_decide_eq_true none] at enough
  omega

end Bms
