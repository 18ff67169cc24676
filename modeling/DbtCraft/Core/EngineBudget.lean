/-
# The budget of the DuckDB engine

The memory limit of one DuckDB instance is the budget divided by
`concurrent_engine_slots()`. What is to keep the number of instances at work
within that divisor are the two global semaphores, and each entry point takes
its slot itself. This machine puts the two together: the entry points that run a
dbt command, the semaphore each of them enters, and the commands in progress.

Two kinds of activity have no share in the divisor: previews and compiles, which
take no slot, and console queries when `MAX_CONCURRENT_QUERIES` is zero or less,
which the divisor counts as none and the semaphore admits one at a time.
-/

import DbtCraft.Core.DuckdbResources
import DbtCraft.Core.SemaphoreBound

namespace DbtCraft.Core.EngineBudget

open DbtCraft.Math DbtCraft.Core.GlobalSemaphore DbtCraft.Core.DuckdbResources

universe uι

/-- The entry points that put a DuckDB instance to work. -/
inductive EntryPoint
  | runCommand
  | streamDbt
  | ingestStream
  | queryWarehouse
  | previewModel
  | compileModel
  deriving DecidableEq

/-- The semaphore an entry point enters before it runs dbt. -/
def EntryPoint.semaphore : EntryPoint → Option Pool
  | .runCommand | .streamDbt | .ingestStream => some .dbtRuns
  | .queryWarehouse => some .dbtQueries
  | .previewModel | .compileModel => none

/-- The context manager through which the entry points enter a pool. -/
def poolCaller : Pool → Caller
  | .dbtRuns => .globalRunSemaphore
  | .dbtQueries => .globalQuerySemaphore

/-- The call an event of a semaphore is about. -/
def eventCall {ι : Type uι} : GlobalSemaphore.Event ι → ι
  | .tryAcquire call _ | .cancelAcquire call _ _ | .giveUp call | .enter call
  | .cancelEnter call | .renew call _ | .renewed call _ | .dropRenewal call _ | .leave call
  | .release call | .cancelRelease call _ | .crash call => call

/-- The call whose body an event of a semaphore ends. -/
def endedBody {ι : Type uι} : GlobalSemaphore.Event ι → Option ι
  | .leave call | .crash call => some call
  | _ => none

/-- The two semaphores and the activities whose dbt command is at work. -/
structure State (ι : Type uι) where
  pools : Pool → GlobalSemaphore.State ι
  working : Finset ι

/-- The atomic steps. -/
inductive Event (ι : Type uι)
  | /-- A step of one of the semaphores. -/
    semaphore (pool : Pool) (event : GlobalSemaphore.Event ι)
  | /-- The dbt command of an activity starts. -/
    begin (activity : ι)
  | /-- The dbt command of an activity ends. -/
    finish (activity : ι)
  deriving DecidableEq

variable {ι : Type uι} [DecidableEq ι]

/-- An activity runs dbt inside the body of its semaphore, if it enters one. -/
def State.Admitted (entry : ι → EntryPoint) (state : State ι) (activity : ι) : Prop :=
  ∀ pool ∈ (entry activity).semaphore, (state.pools pool).phase activity = .inside

instance (entry : ι → EntryPoint) (state : State ι) (activity : ι) :
    Decidable (state.Admitted entry activity) :=
  inferInstanceAs (Decidable (∀ pool ∈ (entry activity).semaphore,
    (state.pools pool).phase activity = .inside))

/-- One atomic step of the activities of the service. -/
def step (entry : ι → EntryPoint) (settings : Settings) (state : State ι) :
    Event ι → Option (State ι)
  | .semaphore pool event =>
    if (entry (eventCall event)).semaphore = some pool then
      (GlobalSemaphore.step (fun _ => poolCaller pool) (pool.limit settings) (state.pools pool)
        event).map fun next => { state with pools := Function.update state.pools pool next }
    else none
  | .begin activity =>
    if activity ∉ state.working ∧ state.Admitted entry activity then
      some { state with working := insert activity state.working }
    else none
  | .finish activity =>
    if activity ∈ state.working then
      some { state with working := state.working.erase activity }
    else none

/-- Nothing is in progress. -/
def machine (entry : ι → EntryPoint) (settings : Settings) : Machine (State ι) (Event ι) where
  init := ⟨fun pool =>
    (GlobalSemaphore.machine (fun _ => poolCaller pool) (pool.limit settings)).init, ∅⟩
  step := step entry settings

/-! ## The condition -/

/-- An entry point has a share in `concurrent_engine_slots()`. -/
def EntryPoint.Counted (settings : Settings) (entry : EntryPoint) : Prop :=
  entry.semaphore = some .dbtRuns ∨
    entry.semaphore = some .dbtQueries ∧ 0 < settings.maxConcurrentQueries

instance (settings : Settings) (entry : EntryPoint) : Decidable (entry.Counted settings) :=
  inferInstanceAs (Decidable (_ ∨ _))

/-- The activities at work that have no share in the divisor. -/
def State.uncounted (entry : ι → EntryPoint) (settings : Settings) (state : State ι) :
    Finset ι :=
  state.working.filter fun activity => ¬ (entry activity).Counted settings

/-- The slots no run can take: one when `MAX_CONCURRENT_DBT_RUNS` is zero or less,
and otherwise none. -/
def spareSlots (settings : Settings) : ℕ :=
  (max 1 settings.maxConcurrentDbtRuns - max 0 settings.maxConcurrentDbtRuns).toNat

/-- A safe step of a semaphore that ends no body before its command; and a
command without a share starts only in a spare slot. -/
def CountedStep (entry : ι → EntryPoint) (settings : Settings) (state : State ι)
    (event : Event ι) : Prop :=
  match event with
  | .semaphore pool event =>
    GlobalSemaphore.SafeStep (pool.limit settings) (state.pools pool) event ∧
      ∀ call ∈ endedBody event, call ∉ state.working
  | .begin activity =>
    (entry activity).Counted settings ∨
      (state.uncounted entry settings).card < spareSlots settings
  | .finish _ => True

instance (entry : ι → EntryPoint) (settings : Settings) (state : State ι) (event : Event ι) :
    Decidable (CountedStep entry settings state event) := by
  cases event <;> unfold CountedStep <;> infer_instance

/-- What the limit is computed for: no more activities than slots, and together
no more than three quarters of the memory. -/
structure Budgeted (settings : Settings) (state : State ι) : Prop where
  slots : state.working.card ≤ concurrentEngineSlots settings
  memory : ∀ memory megabytes total,
    memoryLimitPerRun settings memory = some (.computed megabytes) →
    availableMemoryBytes memory = some total →
    4 * (state.working.card * (megabytes * megabyte)) ≤ 3 * total

/-! ## The budget -/

variable {entry : ι → EntryPoint} {settings : Settings} {state next : State ι}
  {event : Event ι} {events : List (Event ι)} {activity : ι} {pool : Pool}

/-- A call stays inside its body until an event ends it. -/
theorem inside_of_semaphore_step {callers : ι → Caller} {limit : ℤ}
    {before after : GlobalSemaphore.State ι} {event : GlobalSemaphore.Event ι}
    (hstep : GlobalSemaphore.step callers limit before event = some after)
    (hinside : before.phase activity = .inside) (hbody : endedBody event ≠ some activity) :
    after.phase activity = .inside := by
  cases event with
  | tryAcquire call _ | cancelAcquire call _ _ =>
    simp only [GlobalSemaphore.step] at hstep
    split at hstep <;> cases hstep
    next hasking =>
      have hne : activity ≠ call := by
        rintro rfl
        exact not_asking_of_holding (Or.inr hinside) hasking
      simp [hne, hinside]
  | giveUp call | enter call | cancelEnter call | release call | cancelRelease call _ =>
    simp only [GlobalSemaphore.step] at hstep
    split at hstep <;> cases hstep
    next hphase =>
      have hne : activity ≠ call := by
        rintro rfl
        rw [hinside] at hphase
        cases hphase
      simp [hne, hinside]
  | renew _ _ | renewed _ _ | dropRenewal _ _ =>
    simp only [GlobalSemaphore.step] at hstep
    split at hstep <;> cases hstep
    exact hinside
  | leave call =>
    simp only [GlobalSemaphore.step] at hstep
    split at hstep <;> cases hstep
    have hne : activity ≠ call := by
      rintro rfl
      exact hbody rfl
    simp [hne, hinside]
  | crash call =>
    cases hstep
    have hne : activity ≠ call := by
      rintro rfl
      exact hbody rfl
    simp [hne, hinside]

/-- What bounds the commands at work: the holders of each semaphore, and the
spare slots for the commands that hold none. -/
structure Covered (entry : ι → EntryPoint) (settings : Settings) (state : State ι) : Prop where
  pools : ∀ pool, ∃ holders : Holders ι (pool.limit settings).toNat,
    Represents (state.pools pool) holders
  admitted : ∀ activity ∈ state.working, state.Admitted entry activity
  spare : (state.uncounted entry settings).card ≤ spareSlots settings

theorem covered_init : Covered entry settings (machine entry settings).init where
  pools pool := ⟨⟨∅, by simp⟩, tracked_init (fun _ => poolCaller pool) (pool.limit settings), rfl⟩
  admitted activity hworking := absurd hworking (Finset.notMem_empty activity)
  spare := by simp [State.uncounted, machine]

theorem covered_step (hcovered : Covered entry settings state)
    (hpermitted : CountedStep entry settings state event)
    (hstep : step entry settings state event = some next) : Covered entry settings next := by
  obtain ⟨hpools, hadmitted, hspare⟩ := hcovered
  cases event with
  | semaphore pool event =>
    simp only [step] at hstep
    split at hstep
    · obtain ⟨after, hafter, rfl⟩ := Option.map_eq_some_iff.mp hstep
      obtain ⟨hsafe, hended⟩ := hpermitted
      refine ⟨?_, ?_, hspare⟩
      · intro other
        by_cases hother : other = pool
        · subst other
          obtain ⟨holders, hholders⟩ := hpools pool
          obtain ⟨-, holders', -, hholders'⟩ := represents_step hholders hsafe hafter
          exact ⟨holders', by simpa using hholders'⟩
        · simpa [hother] using hpools other
      · intro activity hworking other hsemaphore
        by_cases hother : other = pool
        · subst other
          have hinside := hadmitted activity hworking pool hsemaphore
          have hbody : endedBody event ≠ some activity := by
            intro hends
            exact hended activity hends hworking
          simpa using inside_of_semaphore_step hafter hinside hbody
        · simpa [hother] using hadmitted activity hworking other hsemaphore
    · cases hstep
  | begin activity =>
    simp only [step] at hstep
    split at hstep <;> cases hstep
    next hbegin =>
      refine ⟨hpools, ?_, ?_⟩
      · intro other hworking
        rcases Finset.mem_insert.mp hworking with rfl | hbefore
        · exact hbegin.2
        · exact hadmitted other hbefore
      · unfold State.uncounted
        rw [Finset.filter_insert]
        split
        next huncounted =>
          have hroom : (state.uncounted entry settings).card < spareSlots settings :=
            hpermitted.resolve_left huncounted
          exact (Finset.card_insert_le _ _).trans hroom
        · exact hspare
  | finish activity =>
    simp only [step] at hstep
    split at hstep <;> cases hstep
    refine ⟨hpools, ?_, ?_⟩
    · intro other hworking
      exact hadmitted other (Finset.mem_of_mem_erase hworking)
    · refine (Finset.card_le_card ?_).trans hspare
      exact Finset.filter_subset_filter _ (Finset.erase_subset _ _)

omit [DecidableEq ι] in
/-- The commands at work in one pool are within its limit. -/
theorem card_working_le_limit (hcovered : Covered entry settings state) (pool : Pool) :
    (state.working.filter fun activity => (entry activity).semaphore = some pool).card ≤
      (pool.limit settings).toNat := by
  obtain ⟨holders, htracked, hmembers⟩ := hcovered.pools pool
  refine le_trans (Finset.card_le_card ?_) holders.bounded
  intro activity hactivity
  obtain ⟨hworking, hsemaphore⟩ := Finset.mem_filter.mp hactivity
  have hinside := hcovered.admitted activity hworking pool hsemaphore
  rw [hmembers]
  exact htracked.held activity (Or.inr hinside)

/-- The commands at work are those of the runs, those of the queries that have a
share, and those without one. -/
theorem card_working_le_slots (hcovered : Covered entry settings state) :
    state.working.card ≤ concurrentEngineSlots settings := by
  have hruns := card_working_le_limit hcovered .dbtRuns
  have hqueries : (state.working.filter fun activity =>
      (entry activity).semaphore = some .dbtQueries ∧ 0 < settings.maxConcurrentQueries).card ≤
        settings.maxConcurrentQueries.toNat := by
    by_cases hshare : 0 < settings.maxConcurrentQueries
    · refine le_trans (Finset.card_le_card ?_)
        ((card_working_le_limit hcovered .dbtQueries).trans ?_)
      · intro activity hactivity
        rw [Finset.mem_filter] at hactivity ⊢
        exact ⟨hactivity.1, hactivity.2.1⟩
      · show (max 1 settings.maxConcurrentQueries).toNat ≤ settings.maxConcurrentQueries.toNat
        omega
    · simp [hshare]
  have hspare := hcovered.spare
  have hparts : state.working ⊆
      (state.working.filter fun activity => (entry activity).semaphore = some .dbtRuns) ∪
        (state.working.filter fun activity => (entry activity).semaphore = some .dbtQueries ∧
          0 < settings.maxConcurrentQueries) ∪ state.uncounted entry settings := by
    intro activity hworking
    by_cases hcounted : (entry activity).Counted settings
    · rcases hcounted with hrun | hquery
      · simp [hworking, hrun]
      · simp [hworking, hquery]
    · simp [State.uncounted, hworking, hcounted]
  have hcard := (Finset.card_le_card hparts).trans
    ((Finset.card_union_le _ _).trans (Nat.add_le_add_right (Finset.card_union_le _ _) _))
  have hlimit : (Pool.limit settings .dbtRuns).toNat = settings.maxConcurrentDbtRuns.toNat := rfl
  have hslots := concurrentEngineSlots_eq settings
  unfold spareSlots at hspare
  omega

/-- **The engine budget.** Along every run in which the leases are live, no body
ends before its command, and no command without a share in the divisor starts
outside a spare slot, the commands at work fit the slots and the memory. -/
theorem budgeted_of_counted_steps
    (hpath : (machine entry settings).Path (CountedStep entry settings) events state) :
    Budgeted settings state := by
  have hcovered : Covered entry settings state :=
    hpath.invariant covered_init fun h hpermitted hstep => covered_step h hpermitted hstep
  have hslots := card_working_le_slots hcovered
  exact ⟨hslots, fun memory megabytes total hlimit htotal =>
    memory_within_budget hslots hlimit htotal⟩

/-- One run and one query at work under the default settings. -/
theorem budgeted_of_run_and_query :
    ∃ state, Budgeted {} state ∧ state.working = ({1, 0} : Finset ℕ) := by
  let entry : ℕ → EntryPoint := fun activity =>
    if activity = 0 then .runCommand else .queryWarehouse
  obtain ⟨state, hrun, hworking⟩ : ∃ state,
      (machine entry {}).runUnder (CountedStep entry {}) (machine entry {}).init
        [.semaphore .dbtRuns (.tryAcquire 0 0), .semaphore .dbtRuns (.enter 0), .begin 0,
          .semaphore .dbtQueries (.tryAcquire 1 1), .semaphore .dbtQueries (.enter 1),
          .begin 1] = some state ∧
      state.working = {1, 0} := ⟨_, rfl, rfl⟩
  exact ⟨state, budgeted_of_counted_steps (Machine.path_of_runUnder hrun), hworking⟩

/-- A preview starts beside as many runs and queries as there are slots. -/
theorem not_budgeted_of_preview :
    ¬ ∀ (entry : ℕ → EntryPoint) (settings : Settings) (events : List (Event ℕ))
        (state : State ℕ),
      (machine entry settings).Path Machine.anyStep events state → Budgeted settings state := by
  intro hclaim
  let entry : ℕ → EntryPoint := fun activity =>
    if activity = 0 then .runCommand else if activity = 1 then .queryWarehouse
      else .previewModel
  let settings : Settings := { maxConcurrentDbtRuns := 1, maxConcurrentQueries := 1 }
  obtain ⟨state, hrun, hcard⟩ : ∃ state,
      (machine entry settings).runFrom (machine entry settings).init
        [.semaphore .dbtRuns (.tryAcquire 0 0), .semaphore .dbtRuns (.enter 0), .begin 0,
          .semaphore .dbtQueries (.tryAcquire 1 1), .semaphore .dbtQueries (.enter 1),
          .begin 1, .begin 2] = some state ∧
      state.working.card = 3 := ⟨_, rfl, rfl⟩
  have hslots : state.working.card ≤ 2 :=
    (hclaim _ _ _ _ (Machine.path_of_runFrom hrun)).slots
  omega

end DbtCraft.Core.EngineBudget
