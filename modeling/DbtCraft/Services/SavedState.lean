/-
# Saved state describes deployed work

Invocations of dbt on one project, what each leaves in `target/`, and the manifests
that `save_state_after_run` of `app/services/state.py` copies for a target. The guard
of that function reads the subcommand of the argv, which for a retry is `retry`
whatever it replays.

Invocations may overlap, and other dbt processes write to `target/` at any time. What
dbt does is as the source describes it: a retry replays the command that the results
it reads name, if `dbt retry` can replay that command.
-/

import DbtCraft.Math.Machine
import DbtCraft.Services.State

namespace DbtCraft.Services.SavedState

open DbtCraft.Math DbtCraft.Python DbtCraft.Services.DbtArgv DbtCraft.Services.State

universe uι

variable {ι : Type uι}

/-- A `run_results.json`: `args.which`, `args.target` and its modification time. -/
structure Results where
  which : String
  target : Option String
  mtime : ℕ
  deriving DecidableEq

/-- A call of `run_command` or of `dbt_sse` that was not refused. -/
structure Invocation where
  argv : List String
  persistDefaultTarget : Bool
  /-- How often dbt may be started: `max_retries`, or once. -/
  attempts : ℕ
  /-- The results in the private directory of a retry. -/
  retryResults : Option Results := none
  deriving DecidableEq

/-- How far an invocation is. -/
inductive Phase
  | idle
  | accepted (invocation : Invocation)
  | /-- Under the run lock, with the modification time of the results. -/
    sampled (invocation : Invocation) (before : Option ℕ) (attempt : ℕ)
  | /-- dbt is running, and executes this command. -/
    running (invocation : Invocation) (before : Option ℕ) (attempt : ℕ)
      (effective : Option String)
  | exited (invocation : Invocation) (before : Option ℕ) (attempt : ℕ)
      (effective : Option String) (returncode : ℤ)
  | /-- `save_state_after_run` has returned. -/
    saved (before : Option ℕ) (returncode : ℤ)
  | finished
  deriving DecidableEq

/-- A manifest that `StateService` holds, by the invocation that saved it. -/
structure Saved (ι : Type uι) where
  invocation : ι
  effective : Option String
  returncode : ℤ
  deriving DecidableEq

/-- A row of `dbt_runs` whose run has ended. -/
structure RunRow where
  isError : Bool
  results : Option Results
  deriving DecidableEq

structure State (ι : Type uι) where
  phase : ι → Phase
  row : ι → Option RunRow
  /-- `target/run_results.json`. -/
  results : Option Results
  /-- `target/manifest.json` is a file. -/
  hasManifest : Bool
  /-- The manifests of the targets. -/
  manifests : Dict String (Saved ι)

inductive Event (ι : Type uι)
  | /-- A client-built argv is accepted, and the server appends to it. -/
    submit (id : ι) (client server : List String) (persistDefaultTarget : Bool) (attempts : ℕ)
  | /-- The retry endpoint accepts a failed run. -/
    retry (id failed : ι) (server : List String)
  | /-- The invocation gets the run lock. -/
    sample (id : ι)
  | /-- dbt starts. -/
    spawn (id : ι)
  | /-- dbt ends, and may have written its results and a manifest. -/
    exit (id : ι) (returncode : ℤ) (left : Option Results) (manifest : Bool)
  | /-- dbt failed on a conflicting lock and is started again. -/
    again (id : ι)
  | /-- `save_state_after_run`; whether copying the files fails. -/
    save (id : ι) (fails : Bool)
  | /-- The row of the run is completed. -/
    complete (id : ι)
  | /-- The invocation is cancelled or raises. -/
    abort (id : ι)
  | /-- A dbt process without a run, as a compile or a preview, writes to `target/`. -/
    overwrite (results : Option Results) (manifest : Bool)
  | deleteTarget (target : String)

/-! ## What dbt executes -/

/-- `argv[1]`. -/
def commandName (argv : List String) : String := argv.getD 1 ""

/-- The name that dbt gives the subcommand of an argv in its results. -/
def which (argv : List String) : String :=
  if dbtCommandKey argv = "docs generate" then "generate" else commandName argv

/-- The command that an invocation executes: a retry replays that of its private
results, or else of those in `target/`. -/
def effectiveCommand (invocation : Invocation) (results : Option Results) : Option String :=
  if commandName invocation.argv = "retry" then
    ((invocation.retryResults <|> results).map (·.which)).filter (· ∈ retryableCommands)
  else some (which invocation.argv)

/-! ## `save_state_after_run` -/

/-- The target is one whose state this invocation may save. -/
def savesTarget (invocation : Invocation) : Bool :=
  effectiveTarget invocation.argv ≠ defaultStateTarget || invocation.persistDefaultTarget

/-- The results were written after the sample. -/
def isFresh (before current : Option ℕ) : Bool :=
  match current, before with
  | none, _ => false
  | some _, none => true
  | some current, some before => before < current

/-- The guards of `save_state_after_run` and of `StateService.save`. -/
def savesState (invocation : Invocation) (returncode : ℤ) (before current : Option ℕ)
    (hasManifest : Bool) : Bool :=
  returncode = 0 && commandName invocation.argv ∈ stateProducingCommands &&
    savesTarget invocation && isFresh before current && hasManifest &&
      targetNameFullmatch (effectiveTarget invocation.argv)

variable [DecidableEq ι]

def State.setPhase (state : State ι) (id : ι) (phase : Phase) : State ι :=
  { state with phase := Function.update state.phase id phase }

/-- One step of the invocations and of the other dbt processes. -/
def step (state : State ι) : Event ι → Option (State ι)
  | .submit id client server persistDefaultTarget attempts =>
    match state.phase id, validateDbtArgv client with
    | .idle, .ok () =>
      some (state.setPhase id (.accepted ⟨client ++ server, persistDefaultTarget, attempts, none⟩))
    | _, _ => none
  | .retry id failed server =>
    match state.phase id, state.row failed with
    | .idle, some ⟨true, some results⟩ =>
      if results.which ∈ retryableCommands then
        let target :=
          match results.target with
          | some target => if targetNameFullmatch target then ["--target", target] else []
          | none => []
        some (state.setPhase id
          (.accepted ⟨["dbt", "retry"] ++ target ++ server, false, 3, some results⟩))
      else none
    | _, _ => none
  | .sample id =>
    match state.phase id with
    | .accepted invocation =>
      some (state.setPhase id (.sampled invocation (state.results.map (·.mtime)) 0))
    | _ => none
  | .spawn id =>
    match state.phase id with
    | .sampled invocation before attempt =>
      some (state.setPhase id
        (.running invocation before attempt (effectiveCommand invocation state.results)))
    | _ => none
  | .exit id returncode left manifest =>
    match state.phase id with
    | .running invocation before attempt effective =>
      -- What dbt writes names the command, and dbt fails when it has none to replay.
      if (∀ results ∈ left, some results.which = effective) ∧
          (returncode = 0 → effective.isSome) then
        some { state.setPhase id (.exited invocation before attempt effective returncode) with
          results := left <|> state.results
          hasManifest := manifest || state.hasManifest }
      else none
    | _ => none
  | .again id =>
    match state.phase id with
    | .exited invocation before attempt _ returncode =>
      if returncode ≠ 0 ∧ attempt + 1 < invocation.attempts then
        some (state.setPhase id (.sampled invocation before (attempt + 1)))
      else none
    | _ => none
  | .save id fails =>
    match state.phase id with
    | .exited invocation before _ effective returncode =>
      some { state.setPhase id (.saved before returncode) with
        manifests :=
          if savesState invocation returncode before (state.results.map (·.mtime))
              state.hasManifest && !fails then
            state.manifests.set (effectiveTarget invocation.argv) ⟨id, effective, returncode⟩
          else state.manifests }
    | _ => none
  | .complete id =>
    match state.phase id with
    | .saved before returncode =>
      some { state.setPhase id .finished with
        row := Function.update state.row id (some ⟨decide (returncode ≠ 0),
          state.results.filter fun results => isFresh before (some results.mtime)⟩) }
    | _ => none
  | .abort id =>
    match state.phase id with
    | .idle | .finished => none
    | _ =>
      some { state.setPhase id .finished with
        row := Function.update state.row id (some ⟨true, none⟩) }
  | .overwrite results manifest => some { state with results := results, hasManifest := manifest }
  | .deleteTarget target => some { state with manifests := state.manifests.pop target }

/-- A project that dbt has not seen. -/
def machine : Machine (State ι) (Event ι) where
  init := {
    phase := fun _ => .idle
    row := fun _ => none
    results := none
    hasManifest := false
    manifests := [] }
  step := step

/-! ## The property -/

/-- The commands that deploy something. -/
def deployingCommands : List String := ["run", "build", "seed", "snapshot"]

/-- Every manifest was saved by a successful invocation that has deployed something. -/
def Deployed (state : State ι) : Prop :=
  ∀ target saved, state.manifests.get target = some saved →
    saved.returncode = 0 ∧ ∃ command ∈ deployingCommands, saved.effective = some command

/-- A retry that succeeds for a saved target, with results of its own, has replayed a
command that deploys. -/
def ReplaysDeployment (state : State ι) : Event ι → Prop
  | .save id _ =>
    match state.phase id with
    | .exited invocation before _ effective returncode =>
      commandName invocation.argv = "retry" → returncode = 0 → savesTarget invocation →
        isFresh before (state.results.map (·.mtime)) →
          ∃ command ∈ deployingCommands, effective = some command
    | _ => True
  | _ => True

section

instance (state : State ι) : (event : Event ι) → Decidable (ReplaysDeployment state event)
  | .save id _ =>
    match hphase : state.phase id with
    | .exited invocation before _ effective returncode =>
      decidable_of_iff (commandName invocation.argv = "retry" → returncode = 0 →
          savesTarget invocation → isFresh before (state.results.map (·.mtime)) →
            ∃ command ∈ deployingCommands, effective = some command)
        (by simp only [ReplaysDeployment, hphase])
    | .idle | .accepted _ | .sampled _ _ _ | .running _ _ _ _ | .saved _ _ | .finished =>
      isTrue (by simp only [ReplaysDeployment, hphase])
  | .submit _ _ _ _ _ | .retry _ _ _ | .sample _ | .spawn _ | .exit _ _ _ _ | .again _
  | .complete _ | .abort _ | .overwrite _ _ | .deleteTarget _ => isTrue trivial

end

/-! ## The invariant -/

omit [DecidableEq ι] in
/-- A deploying subcommand goes under its own name. -/
theorem which_of_deploying {argv : List String} (hname : commandName argv ∈ deployingCommands) :
    which argv = commandName argv := by
  unfold which
  split
  next hkey =>
    exfalso
    unfold commandName at hname
    match argv with
    | [] => simp [deployingCommands] at hname
    | [program] => simp [deployingCommands] at hname
    | [program, subcommand] =>
      simp only [dbtCommandKey] at hkey
      subst hkey
      simp [deployingCommands] at hname
    | program :: subcommand :: next :: rest =>
      simp only [dbtCommandKey] at hkey
      split at hkey
      next hgroup =>
        rcases hgroup.1 with hdocs | hsource
        · subst hdocs
          simp [deployingCommands] at hname
        · subst hsource
          simp [deployingCommands] at hname
      · subst hkey
        simp [deployingCommands] at hname
  · rfl

/-- A command that is not a retry executes itself. -/
def Phase.Plain : Phase → Prop
  | .running invocation _ _ effective | .exited invocation _ _ effective _ =>
    commandName invocation.argv ≠ "retry" → effective = some (which invocation.argv)
  | .idle | .accepted _ | .sampled _ _ _ | .saved _ _ | .finished => True

variable {state next : State ι} {event : Event ι} {events : List (Event ι)} {id : ι}

theorem plain_setPhase {phase : Phase} (hplain : ∀ id, (state.phase id).Plain)
    (hphase : phase.Plain) (other : ι) : ((state.setPhase id phase).phase other).Plain := by
  unfold State.setPhase
  by_cases hother : other = id
  · subst other
    simpa using hphase
  · simpa [hother] using hplain other

theorem plain_step (hplain : ∀ id, (state.phase id).Plain) (hstep : step state event = some next) :
    ∀ id, (next.phase id).Plain := by
  cases event with
  | submit id client server persist attempts =>
    simp only [step] at hstep
    split at hstep <;> cases hstep
    exact plain_setPhase hplain trivial
  | retry id failed server =>
    simp only [step] at hstep
    split at hstep
    · split at hstep <;> cases hstep
      exact plain_setPhase hplain trivial
    · cases hstep
  | sample id =>
    simp only [step] at hstep
    split at hstep <;> cases hstep
    exact plain_setPhase hplain trivial
  | spawn id =>
    simp only [step] at hstep
    split at hstep <;> cases hstep
    apply plain_setPhase hplain
    intro hname
    exact if_neg hname
  | exit id returncode left manifest =>
    simp only [step] at hstep
    split at hstep
    next hphase =>
      split at hstep <;> cases hstep
      have hrunning := hplain id
      rw [hphase] at hrunning
      exact plain_setPhase hplain hrunning
    · cases hstep
  | again id =>
    simp only [step] at hstep
    split at hstep
    · split at hstep <;> cases hstep
      exact plain_setPhase hplain trivial
    · cases hstep
  | save id fails | complete id =>
    simp only [step] at hstep
    split at hstep <;> cases hstep
    exact plain_setPhase hplain trivial
  | abort id =>
    simp only [step] at hstep
    split at hstep <;> cases hstep
    exact plain_setPhase hplain trivial
  | overwrite results manifest | deleteTarget target =>
    cases hstep
    exact hplain

/-- What the guard lets a command other than a retry save has been deployed. -/
theorem deploys_of_savesState {invocation : Invocation} {before current : Option ℕ}
    {attempt : ℕ} {effective : Option String} {returncode : ℤ} {hasManifest : Bool}
    (hplain : (Phase.exited invocation before attempt effective returncode).Plain)
    (hreplays : commandName invocation.argv = "retry" → returncode = 0 → savesTarget invocation →
      isFresh before current → ∃ command ∈ deployingCommands, effective = some command)
    (hsaves : savesState invocation returncode before current hasManifest) :
    returncode = 0 ∧ ∃ command ∈ deployingCommands, effective = some command := by
  simp only [savesState, Bool.and_eq_true, decide_eq_true_eq] at hsaves
  obtain ⟨⟨⟨⟨⟨hcode, hname⟩, htarget⟩, hfresh⟩, -⟩, -⟩ := hsaves
  refine ⟨hcode, ?_⟩
  by_cases hretry : commandName invocation.argv = "retry"
  · exact hreplays hretry hcode htarget hfresh
  · have hdeploys : commandName invocation.argv ∈ deployingCommands := by
      simp only [stateProducingCommands, List.mem_cons, List.not_mem_nil, or_false] at hname
      simp only [deployingCommands, List.mem_cons, List.not_mem_nil, or_false]
      tauto
    exact ⟨_, hdeploys, (hplain hretry).trans (congrArg some (which_of_deploying hdeploys))⟩

theorem deployed_init : Deployed (machine (ι := ι)).init := by
  intro target saved hget
  cases hget

theorem deployed_step (hplain : ∀ id, (state.phase id).Plain) (hdeployed : Deployed state)
    (hreplays : ReplaysDeployment state event) (hstep : step state event = some next) :
    Deployed next := by
  cases event with
  | save id fails =>
    simp only [step] at hstep
    split at hstep <;> cases hstep
    next invocation before attempt effective returncode hphase =>
      simp only [ReplaysDeployment, hphase] at hreplays
      have hexited := hplain id
      rw [hphase] at hexited
      intro target saved hget
      dsimp only at hget
      split at hget
      next hsaves =>
        rw [Dict.get_set] at hget
        split at hget
        · cases hget
          exact deploys_of_savesState hexited hreplays (Bool.and_eq_true_iff.mp hsaves).1
        · exact hdeployed target saved hget
      · exact hdeployed target saved hget
  | deleteTarget target =>
    cases hstep
    intro other saved hget
    rw [Dict.get_pop] at hget
    split at hget
    · cases hget
    · exact hdeployed other saved hget
  | submit _ _ _ _ _ | sample _ | spawn _ | complete _ | abort _ =>
    simp only [step] at hstep
    split at hstep <;> cases hstep
    exact hdeployed
  | retry _ _ _ | exit _ _ _ _ | again _ =>
    simp only [step] at hstep
    split at hstep
    · split at hstep <;> cases hstep
      exact hdeployed
    · cases hstep
  | overwrite _ _ =>
    cases hstep
    exact hdeployed

/-- Every saved manifest describes deployed work in any run whose successful retries
replay deployments. -/
theorem deployed_of_replayed_deployments
    (hpath : (machine (ι := ι)).Path ReplaysDeployment events state) : Deployed state := by
  have hright := hpath.invariant
    (P := fun state => (∀ id, (state.phase id).Plain) ∧ Deployed state)
    ⟨fun _ => trivial, deployed_init⟩
    fun hsource hreplays hstep => ⟨plain_step hsource.1 hstep,
      deployed_step hsource.1 hsource.2 hreplays hstep⟩
  exact hright.2

/-- A failed command on `prod`, and its retry from the retry endpoint. -/
def retried (command : String) : List (Event Bool) :=
  [.submit false ["dbt", command, "--target", "prod"] [] false 3, .sample false, .spawn false,
    .exit false 1 (some ⟨command, some "prod", 1⟩) true, .save false false, .complete false,
    .retry true false ["--state", "/data/state/p/.retry/1"], .sample true, .spawn true,
    .exit true 0 (some ⟨command, some "prod", 2⟩) true, .save true false, .complete true]

/-- A failed build is retried, and what it has deployed is saved. -/
theorem deployed_of_retried_build :
    ∃ events state, (machine (ι := Bool)).Path ReplaysDeployment events state ∧
      state.manifests = [("prod", ⟨true, some "build", 0⟩)] ∧ Deployed state := by
  obtain ⟨state, hrun, hmanifests⟩ :
      ∃ state, (machine (ι := Bool)).runUnder ReplaysDeployment machine.init
        (retried "build") = some state ∧
        state.manifests = [("prod", ⟨true, some "build", 0⟩)] := ⟨_, rfl, rfl⟩
  have hpath := Machine.path_of_runUnder hrun
  exact ⟨_, state, hpath, hmanifests, deployed_of_replayed_deployments hpath⟩

/-- A failed test is retried, and its manifest is saved as that of deployed work. -/
theorem not_deployed_of_retried_test :
    ¬ ∀ events state, (machine (ι := Bool)).Path Machine.anyStep events state →
      Deployed state := by
  intro hclaim
  obtain ⟨state, hrun, hmanifests⟩ :
      ∃ state, (machine (ι := Bool)).runFrom machine.init (retried "test") = some state ∧
        state.manifests.get "prod" = some ⟨true, some "test", 0⟩ := ⟨_, rfl, rfl⟩
  obtain ⟨-, command, hcommand, hsome⟩ :=
    hclaim _ state (Machine.path_of_runFrom hrun) "prod" _ hmanifests
  cases hsome
  simp [deployingCommands] at hcommand

end DbtCraft.Services.SavedState
