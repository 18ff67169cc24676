/-
# Retrying a failed run

`retry_dbt_run` of `app/routers/dbt.py`, with what it calls and what goes on when it has
answered: the private directory of `StateService.write_retry_results`, `launch_dbt_run`, and
`_run_in_background`, whose completion hook deletes the directory. Any number of attempts are
under way, also of one failed run. Each has a run id of its own, by which its directory is
known; the ids of rows and attempts are canonical UUIDs.
-/

import DbtCraft.Math.Machine
import DbtCraft.Services.Launch
import Mathlib.Logic.Function.Basic

namespace DbtCraft.Routers.RetryRun

open DbtCraft.Math DbtCraft.Python DbtCraft.Services DbtCraft.Services.DbtArgv
open DbtCraft.Services.Launch
open DbtCraft.Services.State (DbtCommand StateService Workspace retryableCommands given
  resolveRequestState targetNameFullmatch matchesTargetName)

/-! ## The endpoint -/

/-- The results on the row of a failed run: `args.which`, `args.target` when it is a
string, and the text that is written for `dbt retry`. -/
structure StoredResults where
  which : String
  target : Option String
  text : String
  deriving DecidableEq

/-- The row that an attempt is for; results without `args` count as none. -/
structure FailedRun where
  runId : String
  projectId : String
  status : String
  results : Option StoredResults

/-- The checks of the endpoint, each with its `detail` under status 409. -/
def checkRow (row : FailedRun) : Except String StoredResults :=
  if row.status ≠ "error" then .error "Only a failed run can be retried"
  else
    match row.results with
    | none => .error "This run left no dbt run results, so there is nothing to retry"
    | some results =>
      if results.which ∈ retryableCommands then .ok results
      else .error ("dbt retry cannot replay '" ++ results.which ++ "'")

/-- `StateService.retry_dir`. -/
def retryDir (service : StateService) (projectId runId : String) : String :=
  service.baseDir ++ "/" ++ projectId ++ "/.retry/" ++ runId

/-- An attempt: the project of the failed run, and its results. -/
structure Attempt where
  projectId : String
  results : StoredResults
  deriving DecidableEq

/-- The command that the endpoint launches. -/
def retryCommand (service : StateService) (attempt : Attempt) (retryRunId : String) :
    DbtCommand where
  projectId := attempt.projectId
  command := "retry"
  target := attempt.results.target.filter targetNameFullmatch
  retryStateDir := some (retryDir service attempt.projectId retryRunId)

/-! ## Attempts -/

/-- How far an attempt is. -/
inductive Phase
  | idle
  | /-- Its directory is written. -/
    written (attempt : Attempt)
  | /-- `launch_dbt_run` is about to insert the row. -/
    inserting (attempt : Attempt)
  | /-- The background task is created. -/
    launched (attempt : Attempt)
  | /-- In `run_command`. -/
    running (attempt : Attempt)
  | /-- Before `_load_run_summary`. -/
    summarising (attempt : Attempt)
  | ended (attempt : Attempt)
  deriving DecidableEq

/-- The attempt of a phase. -/
def Phase.attempt : Phase → Option Attempt
  | .idle => none
  | .written attempt | .inserting attempt | .launched attempt | .running attempt
  | .summarising attempt | .ended attempt => some attempt

/-- The attempt has not ended. -/
def Phase.IsLive : Phase → Prop
  | .ended _ => False
  | _ => True

structure State where
  phase : String → Phase
  /-- `run_results.json` of the private directories, by project and run id. -/
  directories : String × String → Option String

inductive Event
  | /-- The endpoint is called, up to `write_retry_results`. -/
    retry (retryRunId : String) (row : FailedRun)
  | /-- `launch_dbt_run` up to the row. -/
    launch (retryRunId : String) (sync : Sync) (workspace : Workspace)
  | /-- The row is inserted, and the background task created. -/
    insert (retryRunId : String)
  | /-- The insertion raises, or the request is cancelled. -/
    abandon (retryRunId : String)
  | start (retryRunId : String)
  | /-- `run_command` returns, or raises and its error is recorded. -/
    finish (retryRunId : String)
  | /-- `run_command` raises, and recording its error raises. -/
    raise (retryRunId : String)
  | /-- The background task is cancelled. -/
    cancel (retryRunId : String)
  | /-- `_load_run_summary`, and the hook when it returns; whether `rmtree` deletes all. -/
    complete (retryRunId : String) (summary deleted : Bool)

def State.setPhase (state : State) (retryRunId : String) (phase : Phase) : State :=
  { state with phase := Function.update state.phase retryRunId phase }

/-- One step of an attempt. -/
def step (service : StateService) (state : State) : Event → Option State
  | .retry retryRunId row =>
    match state.phase retryRunId, checkRow row with
    | .idle, .ok results =>
      some { state.setPhase retryRunId (.written ⟨row.projectId, results⟩) with
        directories :=
          Function.update state.directories (row.projectId, retryRunId) (some results.text) }
    | _, _ => none
  | .launch retryRunId sync workspace =>
    match state.phase retryRunId with
    | .written attempt =>
      match (launchDbtRun service sync (retryCommand service attempt retryRunId) workspace).1 with
      | .ok _ => some (state.setPhase retryRunId (.inserting attempt))
      | .error _ => some (state.setPhase retryRunId (.ended attempt))
    | _ => none
  | .insert retryRunId =>
    match state.phase retryRunId with
    | .inserting attempt => some (state.setPhase retryRunId (.launched attempt))
    | _ => none
  | .abandon retryRunId =>
    match state.phase retryRunId with
    | .written attempt | .inserting attempt => some (state.setPhase retryRunId (.ended attempt))
    | _ => none
  | .start retryRunId =>
    match state.phase retryRunId with
    | .launched attempt => some (state.setPhase retryRunId (.running attempt))
    | _ => none
  | .finish retryRunId =>
    match state.phase retryRunId with
    | .running attempt => some (state.setPhase retryRunId (.summarising attempt))
    | _ => none
  | .raise retryRunId =>
    match state.phase retryRunId with
    | .running attempt => some (state.setPhase retryRunId (.ended attempt))
    | _ => none
  | .cancel retryRunId =>
    match state.phase retryRunId with
    | .launched attempt | .running attempt | .summarising attempt =>
      some (state.setPhase retryRunId (.ended attempt))
    | _ => none
  | .complete retryRunId summary deleted =>
    match state.phase retryRunId with
    | .summarising attempt =>
      some { state.setPhase retryRunId (.ended attempt) with
        directories :=
          if summary && deleted then
            Function.update state.directories (attempt.projectId, retryRunId) none
          else state.directories }
    | _ => none

/-- No attempt has been made. -/
def machine (service : StateService) : Machine State Event where
  init := { phase := fun _ => .idle, directories := fun _ => none }
  step := step service

/-! ## The property -/

/-- The directory of an attempt is as it was written while the attempt is under way, and
does not exist once it has ended. -/
structure Private (state : State) : Prop where
  kept : ∀ retryRunId attempt, (state.phase retryRunId).attempt = some attempt →
    (state.phase retryRunId).IsLive →
      state.directories (attempt.projectId, retryRunId) = some attempt.results.text
  gone : ∀ retryRunId attempt, state.phase retryRunId = .ended attempt →
    state.directories (attempt.projectId, retryRunId) = none

/-- The project of an attempt is there or can be restored, its row is inserted, its task is
not cancelled, the database answers it when it has run, and its directory can be deleted. -/
def Undisturbed (state : State) : Event → Prop
  | .launch retryRunId sync workspace =>
    ∀ attempt, state.phase retryRunId = .written attempt →
      (getOrSync sync attempt.projectId workspace).1 = .ok ()
  | .complete _ summary deleted => summary = true ∧ deleted = true
  | .abandon _ | .raise _ | .cancel _ => False
  | .retry _ _ | .insert _ | .start _ | .finish _ => True

instance (state : State) : (event : Event) → Decidable (Undisturbed state event)
  | .launch retryRunId sync workspace =>
    match hphase : state.phase retryRunId with
    | .written attempt =>
      match hsync : (getOrSync sync attempt.projectId workspace).1 with
      | .ok () => isTrue (by simp only [Undisturbed, hphase]; rintro _ ⟨⟩; exact hsync)
      | .error _ => isFalse fun hall => by
          have hok := hall attempt hphase
          rw [hsync] at hok
          cases hok
    | .idle | .inserting _ | .launched _ | .running _ | .summarising _ | .ended _ =>
      isTrue (by simp [Undisturbed, hphase])
  | .complete _ _ _ => inferInstanceAs (Decidable (_ ∧ _))
  | .abandon _ | .raise _ | .cancel _ => isFalse id
  | .retry _ _ | .insert _ | .start _ | .finish _ => isTrue trivial

/-! ## The launch of a retry -/

variable {service : StateService} {attempt : Attempt} {retryRunId target : String}
  {sync : Sync} {workspace : Workspace}

/-- A target name is no flag. -/
theorem validateToken_of_targetName (htarget : targetNameFullmatch target) :
    validateToken target = .ok () := by
  have hhead : target.toList.head? ≠ some '-' := by
    unfold targetNameFullmatch at htarget
    intro hdash
    match hletters : target.toList with
    | [] => simp [hletters] at hdash
    | first :: rest =>
      rw [hletters] at htarget hdash
      cases Option.some.inj hdash
      simp [matchesTargetName, isLower_eq] at htarget
  have hflag : ∀ flag : String, flag.toList.head? = some '-' → ¬ isFlag target flag := by
    intro flag hflag
    simp only [isFlag, startsWith, Bool.or_eq_true, decide_eq_true_eq, List.isPrefixOf_iff_prefix,
      String.toList_append]
    rintro (rfl | ⟨rest, hrest⟩)
    · exact hhead hflag
    · rw [← hrest, List.append_assoc, List.head?_append, hflag] at hhead
      exact hhead rfl
  have hpath : ∀ flag ∈ dbtPathFlags, flag.toList.head? = some '-' := by decide
  have hstate : ∀ flag ∈ dbtServerStateFlags, flag.toList.head? = some '-' := by decide
  unfold validateToken
  rw [List.find?_eq_none.mpr fun flag hmem => hflag flag (hpath flag hmem),
    List.find?_eq_none.mpr fun flag hmem => hflag flag (hstate flag hmem)]

/-- The argv of a retry before the state directory. -/
def retryArgv (attempt : Attempt) : List String :=
  "dbt" :: "retry" :: optionTokens "--target" (attempt.results.target.filter targetNameFullmatch)

theorem validateDbtArgv_retryArgv : validateDbtArgv (retryArgv attempt) = .ok () := by
  have hretry : "retry" ∈ allowedDbtSubcommands := by decide
  have hflag : validateToken "--target" = .ok () := by decide
  simp only [retryArgv, validateDbtArgv, if_pos hretry, ne_eq, not_true_eq_false, if_false]
  rw [forM_eq_ok]
  unfold optionTokens given
  intro token htoken
  split at htoken
  next value hvalue =>
    obtain ⟨hvalue, -⟩ := Option.filter_eq_some_iff.mp hvalue
    obtain ⟨-, hmatches⟩ := Option.filter_eq_some_iff.mp hvalue
    simp only [List.mem_cons, List.not_mem_nil, or_false] at htoken
    rcases htoken with rfl | rfl
    · exact hflag
    · exact validateToken_of_targetName hmatches
  · cases htoken

/-- The checks of the launcher let every retry through. -/
theorem prepares_retryCommand : Prepares service (retryCommand service attempt retryRunId)
    workspace ["retry"] ⟨retryArgv attempt ++
      ["--state", retryDir service attempt.projectId retryRunId], "retry",
        some (retryDir service attempt.projectId retryRunId)⟩ := by
  have hargv : "dbt" :: ["retry"] ++ optionTokens "--select" none ++
      optionTokens "--target" (attempt.results.target.filter targetNameFullmatch) ++ [] =
        retryArgv attempt := by
    rw [List.append_nil]
    rfl
  exact {
    target := fun target htarget => by
      obtain ⟨hsome, -⟩ := Option.filter_eq_some_iff.mp htarget
      exact (Option.filter_eq_some_iff.mp hsome).2
    argv := by
      show validateDbtArgv (_ ++ optionTokens "--target" _ ++ []) = _
      rw [List.append_nil]
      exact validateDbtArgv_retryArgv
    options := by
      refine ⟨retryArgv attempt, ?_, ?_⟩
      · show appendRunOptions ("dbt" :: ["retry"] ++ optionTokens "--select" none ++
          optionTokens "--target" (attempt.results.target.filter targetNameFullmatch) ++ []) _ _ = _
        rw [hargv]
        rfl
      · unfold appendServerStateFlags
        rw [validateDbtArgv_retryArgv]
        simp [retryCommand, bind, Except.bind, pure, Except.pure]
    state := rfl
    name := rfl }

/-- A retry is launched if the project is there or can be restored, and only then. -/
theorem launched_iff : (∃ prepared, (launchDbtRun service sync
      (retryCommand service attempt retryRunId) workspace).1 = .ok prepared) ↔
    (getOrSync sync attempt.projectId workspace).1 = .ok () := by
  apply Iff.intro
  · rintro ⟨prepared, hlaunch⟩
    exact (launchDbtRun_eq_ok.mp hlaunch).1
  · intro hsync
    have hwords : Python.shlexSplit "retry" = .ok ["retry"] :=
      shlexSplit_of_allowed (by decide)
    exact ⟨_, launchDbtRun_eq_ok.mpr ⟨hsync, ["retry"], hwords, prepares_retryCommand⟩⟩

/-! ## The invariant -/

variable {state next : State} {event : Event} {events : List Event}

@[simp]
theorem setPhase_self (state : State) (retryRunId : String) (phase : Phase) :
    (state.setPhase retryRunId phase).phase retryRunId = phase :=
  Function.update_self _ _ _

theorem setPhase_of_ne {other : String} (hother : other ≠ retryRunId) (phase : Phase) :
    (state.setPhase retryRunId phase).phase other = state.phase other :=
  Function.update_of_ne hother _ _

theorem private_init : Private (machine service).init where
  kept _ _ hattempt _ := by cases hattempt
  gone _ _ hphase := by cases hphase

/-- An attempt goes on, and its directory is left alone. -/
theorem Private.advance {before after : Phase} (hprivate : Private state)
    (hbefore : state.phase retryRunId = before) (hlive : before.IsLive)
    (hattempt : after.attempt = before.attempt) (hafter : after.IsLive) :
    Private (state.setPhase retryRunId after) where
  kept other attempt hother hotherLive := by
    by_cases hsame : other = retryRunId
    · subst hsame
      rw [setPhase_self, hattempt, ← hbefore] at hother
      exact hprivate.kept other attempt hother (hbefore ▸ hlive)
    · rw [setPhase_of_ne hsame] at hother hotherLive
      exact hprivate.kept other attempt hother hotherLive
  gone other attempt hother := by
    by_cases hsame : other = retryRunId
    · subst hsame
      rw [setPhase_self] at hother
      subst hother
      exact absurd hafter id
    · rw [setPhase_of_ne hsame] at hother
      exact hprivate.gone other attempt hother

/-- An attempt writes or deletes its own directory. -/
theorem Private.put {phase : Phase} {content : Option String} (hprivate : Private state)
    (hattempt : phase.attempt = some attempt)
    (hlive : phase.IsLive → content = some attempt.results.text)
    (hended : ¬ phase.IsLive → content = none) :
    Private { state.setPhase retryRunId phase with
      directories := Function.update state.directories (attempt.projectId, retryRunId) content } where
  kept other found hother hotherLive := by
    by_cases hsame : other = retryRunId
    · subst hsame
      have hphase : (state.setPhase other phase).phase other = phase := setPhase_self _ _ _
      rw [show ({ state.setPhase other phase with directories := _ } : State).phase other = phase
        from hphase] at hother hotherLive
      rw [hattempt] at hother
      cases hother
      rw [hlive hotherLive]
      exact Function.update_self _ _ _
    · have hphase := @setPhase_of_ne _ state _ hsame phase
      rw [show ({ state.setPhase retryRunId phase with directories := _ } : State).phase other =
        state.phase other from hphase] at hother hotherLive
      have hkey : (found.projectId, other) ≠ (attempt.projectId, retryRunId) :=
        fun hkey => hsame (congrArg Prod.snd hkey)
      exact (Function.update_of_ne hkey _ _).trans (hprivate.kept other found hother hotherLive)
  gone other found hother := by
    by_cases hsame : other = retryRunId
    · subst hsame
      have hphase : phase = .ended found := (setPhase_self state other phase).symm.trans hother
      subst hphase
      cases hattempt
      rw [hended id]
      exact Function.update_self _ _ _
    · have hkey : (found.projectId, other) ≠ (attempt.projectId, retryRunId) :=
        fun hkey => hsame (congrArg Prod.snd hkey)
      exact (Function.update_of_ne hkey _ _).trans (hprivate.gone other found
        ((setPhase_of_ne hsame phase).symm.trans hother))

theorem private_step (hprivate : Private state) (hundisturbed : Undisturbed state event)
    (hstep : step service state event = some next) : Private next := by
  cases event with
  | retry retryRunId row =>
    simp only [step] at hstep
    split at hstep <;> cases hstep
    next results hphase hcheck =>
      exact @Private.put ⟨row.projectId, results⟩ retryRunId state
        (.written ⟨row.projectId, results⟩) (some results.text) hprivate rfl (fun _ => rfl)
          fun hended => absurd trivial hended
  | launch retryRunId sync workspace =>
    simp only [step] at hstep
    split at hstep
    next attempt hphase =>
      obtain ⟨prepared, hlaunch⟩ :=
        (@launched_iff service attempt retryRunId sync workspace).mpr
          (hundisturbed attempt hphase)
      rw [hlaunch] at hstep
      cases hstep
      exact hprivate.advance hphase trivial rfl trivial
    · cases hstep
  | insert retryRunId | start retryRunId | finish retryRunId =>
    simp only [step] at hstep
    split at hstep <;> cases hstep
    next attempt hphase => exact hprivate.advance hphase trivial rfl trivial
  | abandon retryRunId | raise retryRunId | cancel retryRunId => cases hundisturbed
  | complete retryRunId summary deleted =>
    obtain ⟨rfl, rfl⟩ := hundisturbed
    simp only [step] at hstep
    split at hstep <;> cases hstep
    next attempt hphase =>
      exact hprivate.put rfl (fun hlive => absurd hlive id) fun _ => rfl

/-! ## The main result -/

/-- The directory of every attempt is left alone by the others and deleted when the attempt
has ended, in any run in which nothing disturbs an attempt. -/
theorem private_of_undisturbed (hpath : (machine service).Path Undisturbed events state) :
    Private state :=
  hpath.invariant private_init private_step

/-- A build of `prod` that has failed. -/
def failedBuild : FailedRun where
  runId := "9b2f"
  projectId := "0d4e"
  status := "error"
  results := some ⟨"build", some "prod", "{}"⟩

/-- A project that is on disk. -/
def onDisk : Workspace := { path := "/data/0d4e", present := true }

/-- Two attempts for one failed run, of which the first ends while the second is running. -/
def retriedTwice : List Event :=
  [.retry "a1" failedBuild, .retry "b2" failedBuild, .launch "a1" ⟨false, onDisk⟩ onDisk,
    .launch "b2" ⟨false, onDisk⟩ onDisk, .insert "a1", .insert "b2", .start "b2", .start "a1",
    .finish "a1", .complete "a1" true true]

/-- The first attempt's directory is deleted, that of the second is not. -/
theorem private_of_retriedTwice : ∃ state,
    (machine Launch.emptyService).Path Undisturbed retriedTwice state ∧
      state.directories ("0d4e", "b2") = some "{}" ∧ Private state := by
  obtain ⟨state, hrun, hkept⟩ : ∃ state, (machine Launch.emptyService).runUnder Undisturbed
      (machine Launch.emptyService).init retriedTwice = some state ∧
        state.directories ("0d4e", "b2") = some "{}" := ⟨_, rfl, rfl⟩
  have hpath := Machine.path_of_runUnder hrun
  exact ⟨state, hpath, hkept, private_of_undisturbed hpath⟩

/-- A project that is not on disk and cannot be restored. -/
def lost : Workspace := { path := "/data/0d4e", present := false }

/-- The directory of a retry that cannot be launched stays. -/
theorem not_private_of_refused_launch :
    ¬ ∀ (service : StateService) (events : List Event) (state : State),
      (machine service).Path Machine.anyStep events state → Private state := by
  intro hclaim
  obtain ⟨state, hrun, hphase, hkept⟩ : ∃ state, (machine Launch.emptyService).runFrom
      (machine Launch.emptyService).init
        [.retry "a1" failedBuild, .launch "a1" ⟨false, lost⟩ lost] = some state ∧
      state.phase "a1" = .ended ⟨"0d4e", ⟨"build", some "prod", "{}"⟩⟩ ∧
      state.directories ("0d4e", "a1") = some "{}" := ⟨_, rfl, rfl, rfl⟩
  have hgone := (hclaim _ _ state (Machine.path_of_runFrom hrun)).gone "a1" _ hphase
  rw [hkept] at hgone
  cases hgone

end DbtCraft.Routers.RetryRun
