/-
# Whose results a run is given

The runs of one project, through `run_command` or streamed by `dbt_sse`, and the compiles,
shows and previews of the project, which do not take the run lock. All of them write
`target/run_results.json`. What is fresh by its modification time is taken for that of the
run: by `save_state_after_run`, which still holds the lock, and by `_read_run_results`, when
the lock is released.
-/

import DbtCraft.Services.SavedState
import Mathlib.Data.Fintype.Basic

namespace DbtCraft.Services.ResultsAttribution

open DbtCraft.Math DbtCraft.Python DbtCraft.Services.State
open DbtCraft.Services.SavedState (Invocation isFresh savesState)

universe uι uκ

variable {ι : Type uι} {κ : Type uκ}

/-! ## Runs and files -/

/-- A run as it is requested, and whether it is streamed. -/
structure Run where
  invocation : Invocation
  streams : Bool

/-- Whose dbt process has written. -/
inductive Writer (ι : Type uι) (κ : Type uκ)
  | run (id : ι)
  | other (id : κ)
  deriving DecidableEq

/-- `run_results.json`: its writer and its modification time. -/
structure Results (ι : Type uι) (κ : Type uκ) where
  writer : Writer ι κ
  mtime : ℕ
  deriving DecidableEq

/-- How far a run is, with the modification time it compares with. -/
inductive Phase
  | idle
  | /-- It waits for the lock. -/
    waiting (before : Option ℕ)
  | /-- It holds the lock and has sampled the results; dbt may run. -/
    running (before : Option ℕ)
  | exited (before : Option ℕ) (returncode : ℤ)
  | /-- `save_state_after_run` has returned. -/
    saved (before : Option ℕ)
  | /-- The lock is released, and the results are still to be read. -/
    released (before : Option ℕ)
  | ended
  deriving DecidableEq

/-- The saved state of a target: the run that has saved it, and who has written the results
that were copied. -/
structure Saved (ι : Type uι) (κ : Type uκ) where
  saver : ι
  writer : Writer ι κ
  deriving DecidableEq

structure State (ι : Type uι) (κ : Type uκ) where
  lock : Option ι
  phase : ι → Phase
  results : Option (Results ι κ)
  /-- `target/manifest.json` is a file. -/
  hasManifest : Bool
  /-- Who has written the results on the row of a run. -/
  stored : ι → Option (Writer ι κ)
  targets : Dict String (Saved ι κ)

inductive Event (ι : Type uι) (κ : Type uκ)
  | begin (id : ι)
  | /-- The run gets the lock, and samples the results. -/
    enter (id : ι)
  | /-- dbt, started by the run, writes its artifacts, or removes them. -/
    write (id : ι) (mtime : Option ℕ) (manifest : Bool)
  | exit (id : ι) (returncode : ℤ)
  | /-- dbt failed on a conflicting lock and is started again. -/
    again (id : ι)
  | /-- `save_state_after_run`; whether copying the files fails. -/
    save (id : ι) (fails : Bool)
  | release (id : ι)
  | /-- The key of the lock expires, or `force_release` deletes it. -/
    lose
  | /-- The row of the run is completed with what `_read_run_results` returns. -/
    read (id : ι)
  | /-- The run is cancelled or raises. -/
    abort (id : ι)
  | /-- A compile, a show or a preview writes its artifacts, or removes them. -/
    overwrite (id : κ) (mtime : Option ℕ) (manifest : Bool)

/-- `_file_mtime_ns`. -/
def State.mtime (state : State ι κ) : Option ℕ := state.results.map (·.mtime)

/-- `_read_run_results`, as far as it says whose results they are. -/
def State.readRunResults (state : State ι κ) (before : Option ℕ) : Option (Writer ι κ) :=
  (state.results.filter fun results => isFresh before (some results.mtime)).map (·.writer)

variable [DecidableEq ι]

def State.setPhase (state : State ι κ) (id : ι) (phase : Phase) : State ι κ :=
  { state with phase := Function.update state.phase id phase }

/-- The lock without its holder, if that is the run. -/
def State.unlocked (state : State ι κ) (id : ι) : Option ι :=
  if state.lock = some id then none else state.lock

/-- One step of the runs and of the other dbt processes. -/
def step (runs : ι → Run) (state : State ι κ) : Event ι κ → Option (State ι κ)
  | .begin id =>
    match state.phase id with
    | .idle => some (state.setPhase id (.waiting state.mtime))
    | _ => none
  | .enter id =>
    match state.phase id, state.lock with
    | .waiting _, none => some { state.setPhase id (.running state.mtime) with lock := some id }
    | _, _ => none
  | .write id mtime manifest =>
    match state.phase id with
    | .idle | .waiting _ => none
    -- The process may outlive its run.
    | _ => some { state with
        results := mtime.map fun mtime => ⟨.run id, mtime⟩
        hasManifest := manifest }
  | .exit id returncode =>
    match state.phase id with
    | .running before => some (state.setPhase id (.exited before returncode))
    | _ => none
  | .again id =>
    match state.phase id with
    | .exited before returncode =>
      if returncode ≠ 0 then some (state.setPhase id (.running before)) else none
    | _ => none
  | .save id fails =>
    match state.phase id with
    | .exited before returncode =>
      let invocation := (runs id).invocation
      some { state.setPhase id (.saved before) with
        targets :=
          match state.results with
          | some results =>
            if savesState invocation returncode before (some results.mtime) state.hasManifest &&
                !fails then
              state.targets.set (effectiveTarget invocation.argv) ⟨id, results.writer⟩
            else state.targets
          | none => state.targets }
    | _ => none
  | .release id =>
    match state.phase id with
    | .saved before =>
      some { state.setPhase id (.released before) with lock := state.unlocked id }
    | _ => none
  | .lose => some { state with lock := none }
  | .read id =>
    match state.phase id with
    | .released before =>
      some { state.setPhase id .ended with
        stored := Function.update state.stored id (state.readRunResults before) }
    | _ => none
  | .abort id =>
    match state.phase id with
    | .waiting before | .running before | .exited before _ | .saved before | .released before =>
      -- A streamed run completes its row as at a normal end, another one without results.
      let phase := if (runs id).streams then Phase.released before else .ended
      some { state.setPhase id phase with lock := state.unlocked id }
    | _ => none
  | .overwrite id mtime manifest =>
    some { state with
      results := mtime.map fun mtime => ⟨.other id, mtime⟩
      hasManifest := manifest }

/-- A project that dbt has not seen. -/
def machine (runs : ι → Run) : Machine (State ι κ) (Event ι κ) where
  init := {
    lock := none
    phase := fun _ => .idle
    results := none
    hasManifest := false
    stored := fun _ => none
    targets := [] }
  step := step runs

/-! ## The property -/

/-- The results of every row, and those beside every saved manifest, are of the run they
are attributed to. -/
structure Attributed (state : State ι κ) : Prop where
  stored : ∀ id writer, state.stored id = some writer → writer = .run id
  saved : ∀ target saved, state.targets.get target = some saved → saved.writer = .run saved.saver

/-- The run has sampled the results under the lock, and is still to read them. -/
def Phase.before : Phase → Option (Option ℕ)
  | .running before | .exited before _ | .saved before | .released before => some before
  | .idle | .waiting _ | .ended => none

/-- Nobody else writes results between a run's sample under the lock and its last reading of
them, and a streamed run that ends before it has the lock finds none that are newer than
when it was requested. -/
def Alone (runs : ι → Run) (state : State ι κ) : Event ι κ → Prop
  | .write id _ _ => ∀ other, other ≠ id → (state.phase other).before = none
  | .overwrite _ _ _ => ∀ id, (state.phase id).before = none
  | .abort id => ∀ before, state.phase id = .waiting before → (runs id).streams = true →
    state.readRunResults before = none
  | _ => True

instance [Fintype ι] (runs : ι → Run) (state : State ι κ) :
    (event : Event ι κ) → Decidable (Alone runs state event)
  | .write id _ _ => inferInstanceAs (Decidable (∀ other, other ≠ id → _ = none))
  | .overwrite _ _ _ => inferInstanceAs (Decidable (∀ id, (state.phase id).before = none))
  | .abort id =>
    match hphase : state.phase id with
    | .waiting before =>
      decidable_of_iff ((runs id).streams = true → state.readRunResults before = none)
        (by simp [Alone, hphase])
    | .idle | .running _ | .exited _ _ | .saved _ | .released _ | .ended =>
      isTrue (by simp [Alone, hphase])
  | .begin _ | .enter _ | .exit _ _ | .again _ | .save _ _ | .release _ | .lose | .read _ =>
    isTrue trivial

/-! ## The invariant -/

variable {runs : ι → Run} {state next : State ι κ} {event : Event ι κ}
  {events : List (Event ι κ)} {id : ι} {before : Option ℕ}

omit [DecidableEq ι] in
/-- What is fresh for a run that is still to read its results is its own. -/
structure Own (state : State ι κ) : Prop extends Attributed state where
  fresh : ∀ id before, (state.phase id).before = some before →
    ∀ writer, state.readRunResults before = some writer → writer = .run id

theorem own_init : Own (machine (κ := κ) runs).init where
  stored _ _ hstored := by cases hstored
  saved _ _ hget := by cases hget
  fresh _ _ hphase := by cases hphase

omit [DecidableEq ι] in
theorem readRunResults_mtime : state.readRunResults state.mtime = none := by
  unfold State.readRunResults State.mtime isFresh
  cases state.results with
  | none => rfl
  | some results => simp [Option.filter]

@[simp]
theorem setPhase_self (state : State ι κ) (id : ι) (phase : Phase) :
    (state.setPhase id phase).phase id = phase :=
  Function.update_self _ _ _

theorem setPhase_of_ne {other : ι} (hother : other ≠ id) (phase : Phase) :
    (state.setPhase id phase).phase other = state.phase other :=
  Function.update_of_ne hother _ _

/-- A run goes on, and the results are not changed. -/
theorem Own.fresh_setPhase {phase : Phase} (hown : Own state)
    (hphase : ∀ before, phase.before = some before →
      ∀ writer, state.readRunResults before = some writer → writer = .run id)
    (other : ι) (before : Option ℕ)
    (hbefore : ((state.setPhase id phase).phase other).before = some before)
    (writer : Writer ι κ) (hread : state.readRunResults before = some writer) :
    writer = .run other := by
  by_cases hother : other = id
  · subst hother
    rw [setPhase_self] at hbefore
    exact hphase before hbefore writer hread
  · rw [setPhase_of_ne hother] at hbefore
    exact hown.fresh other before hbefore writer hread

theorem Own.advance {phase : Phase} {lock : Option ι} (hown : Own state)
    (hphase : ∀ before, phase.before = some before →
      ∀ writer, state.readRunResults before = some writer → writer = .run id) :
    Own { state.setPhase id phase with lock := lock } where
  stored := hown.stored
  saved := hown.saved
  fresh := hown.fresh_setPhase hphase

theorem Own.keep {phase : Phase} {lock : Option ι} (hown : Own state)
    (hbefore : (state.phase id).before = phase.before) :
    Own { state.setPhase id phase with lock := lock } :=
  hown.advance fun before hphase => hown.fresh id before (hbefore.trans hphase)

omit [DecidableEq ι] in
/-- Results are written while nobody else's are still to be read. -/
theorem Own.rewrite {results : Option (Results ι κ)} {manifest : Bool} (hown : Own state)
    (hwriter : ∀ id, (state.phase id).before ≠ none →
      ∀ written, results = some written → written.writer = .run id) :
    Own { state with results := results, hasManifest := manifest } where
  stored := hown.stored
  saved := hown.saved
  fresh id before hbefore writer hread := by
    obtain ⟨written, hwritten, rfl⟩ := Option.map_eq_some_iff.mp hread
    exact hwriter id (by simp [hbefore]) written (Option.filter_eq_some_iff.mp hwritten).1

omit [DecidableEq ι] in
/-- What is saved has been fresh. -/
theorem readRunResults_of_savesState {invocation : Invocation} {returncode : ℤ}
    {results : Results ι κ} (hresults : state.results = some results)
    (hsaves : savesState invocation returncode before (some results.mtime) state.hasManifest) :
    state.readRunResults before = some results.writer := by
  have hfresh : isFresh before (some results.mtime) := by
    simp only [savesState, Bool.and_eq_true] at hsaves
    exact hsaves.1.1.2
  simp [State.readRunResults, hresults, hfresh]

theorem own_step (hown : Own state) (halone : Alone runs state event)
    (hstep : step runs state event = some next) : Own next := by
  cases event with
  | begin id =>
    simp only [step] at hstep
    split at hstep <;> cases hstep
    exact hown.advance fun _ hphase => by cases hphase
  | enter id =>
    simp only [step] at hstep
    split at hstep <;> cases hstep
    refine hown.advance fun before hphase writer hread => ?_
    -- Nothing is fresh when the results have just been sampled.
    cases hphase
    rw [readRunResults_mtime] at hread
    cases hread
  | write id mtime manifest =>
    have hwriter : ∀ other, (state.phase other).before ≠ none →
        ∀ written, (mtime.map fun mtime => (⟨.run id, mtime⟩ : Results ι κ)) = some written →
          written.writer = .run other := by
      intro other hbefore written hwritten
      obtain ⟨mtime, -, rfl⟩ := Option.map_eq_some_iff.mp hwritten
      have hother : other = id := by_contra fun hne => hbefore (halone other hne)
      rw [hother]
    simp only [step] at hstep
    split at hstep <;> cases hstep
    exact hown.rewrite hwriter
  | exit id returncode =>
    simp only [step] at hstep
    split at hstep <;> cases hstep
    next hphase => exact hown.keep (by rw [hphase]; rfl)
  | again id =>
    simp only [step] at hstep
    split at hstep
    next hphase =>
      split at hstep <;> cases hstep
      exact hown.keep (by rw [hphase]; rfl)
    · cases hstep
  | save id fails =>
    simp only [step] at hstep
    split at hstep <;> cases hstep
    next before returncode hphase =>
      have hbefore : (state.phase id).before = some before := by rw [hphase]; rfl
      have hkept := @Own.keep _ _ _ _ id (.saved before) state.lock hown hbefore
      cases hresults : state.results with
      | none => exact { hkept with }
      | some results =>
        refine { hkept with saved := fun target saved hget => ?_ }
        dsimp only at hget
        split at hget
        next hsaves =>
          rw [Dict.get_set] at hget
          split at hget
          · cases hget
            have hsaves := (Bool.and_eq_true_iff.mp hsaves).1
            exact hown.fresh id before hbefore _ (readRunResults_of_savesState hresults hsaves)
          · exact hown.saved target saved hget
        · exact hown.saved target saved hget
  | release id =>
    simp only [step] at hstep
    split at hstep <;> cases hstep
    next hphase => exact hown.keep (by rw [hphase]; rfl)
  | lose =>
    cases hstep
    exact { hown with }
  | read id =>
    simp only [step] at hstep
    split at hstep <;> cases hstep
    next before hphase =>
      have hbefore : (state.phase id).before = some before := by rw [hphase]; rfl
      have hended := @Own.advance _ _ _ _ id .ended state.lock hown fun _ hnone => by cases hnone
      refine { hended with stored := fun other writer hstored => ?_ }
      dsimp only at hstored
      by_cases hother : other = id
      · subst hother
        rw [Function.update_self] at hstored
        exact hown.fresh other before hbefore writer hstored
      · rw [Function.update_of_ne hother] at hstored
        exact hown.stored other writer hstored
  | abort id =>
    have hended : ∀ before, ((state.phase id).before = some before ∨
        state.phase id = .waiting before) →
        Own { state.setPhase id (if (runs id).streams then .released before else .ended) with
          lock := state.unlocked id } := by
      intro before hbefore
      refine hown.advance fun sampled hphase writer hread => ?_
      split at hphase
      next hstreams =>
        cases hphase
        rcases hbefore with hbefore | hwaiting
        · exact hown.fresh id before hbefore writer hread
        · rw [halone before hwaiting hstreams] at hread
          cases hread
      · cases hphase
    simp only [step] at hstep
    split at hstep <;> cases hstep
    next hphase => exact hended _ (.inr hphase)
    all_goals
      next hphase => exact hended _ (.inl (by rw [hphase]; rfl))
  | overwrite id mtime manifest =>
    cases hstep
    exact hown.rewrite fun other hbefore => absurd (halone other) hbefore

/-! ## The results -/

/-- The results of every row and of every saved state are of their run in any run of the
machine in which nobody writes over them before they are read. -/
theorem attributed_of_alone (hpath : (machine runs).Path (Alone runs) events state) :
    Attributed state := by
  have hown : Own state := hpath.invariant (P := Own) own_init
    fun hsource halone hstep => own_step hsource halone hstep
  exact hown.toAttributed

/-- A build on `prod`, through `run_command`. -/
def built : Unit → Run := fun _ => ⟨⟨["dbt", "build", "--target", "prod"], false, 1, none⟩, false⟩

/-- The build writes its results and saves its state, and its row is completed after what
happens in between. -/
def attributedRun (between : List (Event Unit Unit)) : List (Event Unit Unit) :=
  [Event.begin (), .enter (), .write () (some 1) true, .exit () 0, .save () false, .release ()] ++
    between ++ [Event.read ()]

/-- A build that is alone with its results is given them. -/
theorem attributed_of_build :
    ∃ events state, (machine (κ := Unit) built).Path (Alone built) events state ∧
      state.stored () = some (.run ()) ∧
      state.targets = [("prod", ⟨(), .run ()⟩)] ∧ Attributed state := by
  obtain ⟨state, hrun, hstored, htargets⟩ :
      ∃ state, (machine built).runUnder (Alone built) (machine built).init
        (attributedRun []) = some state ∧ state.stored () = some (.run ()) ∧
        state.targets = [("prod", ⟨(), .run ()⟩)] := ⟨_, rfl, rfl, rfl⟩
  have hpath := Machine.path_of_runUnder hrun
  exact ⟨_, state, hpath, hstored, htargets, attributed_of_alone hpath⟩

/-- A preview writes its results after a build has released the lock, and the row of the
build is completed with them. -/
theorem not_attributed_of_preview :
    ¬ ∀ events state, (machine (κ := Unit) built).Path Machine.anyStep events state →
      Attributed state := by
  intro hclaim
  obtain ⟨state, hrun, hstored⟩ :
      ∃ state, (machine built).runFrom (machine built).init
        (attributedRun [.overwrite () (some 2) true]) = some state ∧
        state.stored () = some (.other ()) := ⟨_, rfl, rfl⟩
  have hattributed := hclaim _ state (Machine.path_of_runFrom hrun)
  cases hattributed.stored () _ hstored

end DbtCraft.Services.ResultsAttribution
