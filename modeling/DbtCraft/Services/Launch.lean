/-
# The launcher and the executor of a run

`launch_dbt_run` of `app/services/run_launcher.py` and `run_command` of
`app/services/dbt_service.py` both build the argv of a request. They agree except
where the launcher splits a command that the executor takes as one word, or that has
no word at all, and where a project that could not be restored was left on disk.
-/

import DbtCraft.Python.Shlex
import DbtCraft.Services.State

namespace DbtCraft.Services.Launch

open DbtCraft.Python DbtCraft.Services.DbtArgv DbtCraft.Services.State

/-- What both build for a request: the argv, the name of the command and the state
directory. -/
structure Prepared where
  argv : List String
  commandName : String
  statePath : Option String
  deriving DecidableEq

/-- `sync_from_storage`: whether it succeeds, and the project it leaves on disk. -/
structure Sync where
  success : Bool
  after : Workspace

/-- `ProjectService.get_or_sync`, with the project it leaves on disk. -/
def getOrSync (sync : Sync) (projectId : String) (workspace : Workspace) :
    Except Raised Unit × Workspace :=
  if workspace.present then (.ok (), workspace)
  else if sync.success && sync.after.present then (.ok (), sync.after)
  else (.error (.projectNotFound projectId), sync.after)

/-- `ProjectService.get_path_or_raise`. -/
def getPathOrRaise (projectId : String) (workspace : Workspace) : Except Raised Unit :=
  if workspace.present then .ok () else .error (.projectNotFound projectId)

/-- An option with its value, when the field is set. -/
def optionTokens (flag : String) (field : Option String) : List String :=
  match given field with
  | some value => [flag, value]
  | none => []

/-- `validate_target_name` on the target of a request, when it has one. -/
def validateTarget (request : DbtCommand) : Except Raised Unit :=
  match given request.target with
  | some target => validateTargetName target
  | none => .ok ()

/-- `dbt_command_name`. -/
def dbtCommandName (command : String) : Except Raised String := do
  let parts ← shlexSplit command
  return parts.headD "run"

/-- The part of `launch_dbt_run` before it looks at the project. -/
def launchArgv (request : DbtCommand) : Except Raised (List String × String) := do
  let words ← shlexSplit request.command
  let argv := "dbt" :: words ++ optionTokens "--select" request.selector ++
    optionTokens "--target" request.target ++ request.flags.getD []
  validateDbtArgv argv
  validateTarget request
  let commandName ← dbtCommandName request.command
  return (argv, commandName)

/-- The part of `launch_dbt_run` after it has found the project. -/
def launchState (service : StateService) (request : DbtCommand) (argv : List String)
    (commandName : String) (workspace : Workspace) : Except Raised Prepared := do
  let argv ← appendRunOptions argv request.toDbtRunOptions (some workspace.selectorsYml)
  let statePath ← resolveRequestState service request commandName workspace none
  let argv ← appendServerStateFlags argv statePath request.defer request.favorState
  return ⟨argv, commandName, statePath⟩

/-- `launch_dbt_run` up to the row it writes, with the project it leaves on disk. -/
def launchDbtRun (service : StateService) (sync : Sync) (request : DbtCommand)
    (workspace : Workspace) : Except Raised Prepared × Workspace :=
  match launchArgv request with
  | .error raised => (.error raised, workspace)
  | .ok (argv, commandName) =>
    match getOrSync sync request.projectId workspace with
    | (.error raised, after) => (.error raised, after)
    | (.ok (), after) => (launchState service request argv commandName after, after)

/-- The argv with which `run_command` begins, and the name of the command. -/
def commandParts (command : String) : Except Raised (List String × String) :=
  if ' ' ∈ command.toList then do
    match ← shlexSplit command with
    | [] => throw .indexError
    | first :: rest => return ("dbt" :: first :: rest, first)
  else return (["dbt", command], command)

/-- `run_command` up to the argv it runs, without `--profiles-dir`. -/
def runCommand (service : StateService) (request : DbtCommand) (workspace : Workspace)
    (resolvedStatePath : Option String) : Except Raised Prepared := do
  let (cmd, commandName) ← commandParts request.command
  validateTarget request
  let cmd := cmd ++ optionTokens "--select" request.selector ++
    optionTokens "--target" request.target ++ request.flags.getD []
  validateDbtArgv cmd
  getPathOrRaise request.projectId workspace
  let cmd ← appendRunOptions cmd request.toDbtRunOptions (some workspace.selectorsYml)
  let statePath ← resolveRequestState service request commandName workspace resolvedStatePath
  let cmd ← appendServerStateFlags cmd statePath request.defer request.favorState
  return ⟨cmd, commandName, statePath⟩

/-- Both refuse, or both build the same argv under the same command name. -/
def Agree : Except Raised Prepared → Except Raised Prepared → Prop
  | .ok launched, .ok executed =>
    launched.argv = executed.argv ∧ launched.commandName = executed.commandName
  | .error _, .error _ => True
  | .ok _, .error _ | .error _, .ok _ => False

/-- The launcher and the executor agree on a request, whether the executor runs by itself
or in the background with the state directory that the launcher resolved. -/
def Agrees (service : StateService) (sync : Sync) (request : DbtCommand)
    (workspace : Workspace) : Prop :=
  ∀ resolved, (resolved = none ∨ ∃ prepared,
      (launchDbtRun service sync request workspace).1 = .ok prepared ∧
        resolved = prepared.statePath) →
    Agree (launchDbtRun service sync request workspace).1
      (runCommand service request (launchDbtRun service sync request workspace).2 resolved)

/-! ## What a request must pass -/

/-- The checks that both make of the words of a command, and what they build. -/
structure Prepares (service : StateService) (request : DbtCommand) (workspace : Workspace)
    (words : List String) (prepared : Prepared) : Prop where
  target : ∀ target ∈ given request.target, targetNameFullmatch target
  argv : validateDbtArgv ("dbt" :: words ++ optionTokens "--select" request.selector ++
    optionTokens "--target" request.target ++ request.flags.getD []) = .ok ()
  options : ∃ argv, appendRunOptions ("dbt" :: words ++
      optionTokens "--select" request.selector ++ optionTokens "--target" request.target ++
        request.flags.getD []) request.toDbtRunOptions (some workspace.selectorsYml) = .ok argv ∧
    appendServerStateFlags argv prepared.statePath request.defer request.favorState =
      .ok prepared.argv
  state : resolveRequestState service request prepared.commandName workspace none =
    .ok prepared.statePath
  name : prepared.commandName = words.headD "run"

/-- The shell words of a command pass the checks. -/
def Startable (service : StateService) (request : DbtCommand) (workspace : Workspace) : Prop :=
  ∃ words prepared, shlexSplit request.command = .ok words ∧
    Prepares service request workspace words prepared

/-- The executor takes the shell words of a command as the launcher does. -/
def SplitsAlike (command : String) : Prop :=
  (' ' ∈ command.toList ∧ shlexSplit command ≠ .ok []) ∨ shlexSplit command = .ok [command]

variable {service : StateService} {sync : Sync} {request : DbtCommand} {workspace : Workspace}
  {words : List String} {prepared other : Prepared} {command : String}

/-! ## Words -/

/-- A subcommand is its own and only shell word. -/
theorem shlexSplit_of_allowed (hallowed : command ∈ allowedDbtSubcommands) :
    shlexSplit command = .ok [command] := by
  have hevery : ∀ command ∈ allowedDbtSubcommands, shlexSplit command = .ok [command] := by
    simp only [allowedDbtSubcommands, List.forall_mem_cons]
    repeat' constructor
    simp
  exact hevery command hallowed

/-- An argv that passes names a subcommand. -/
theorem allowed_of_validateDbtArgv {program subcommand : String} {tokens : List String}
    (hvalid : validateDbtArgv (program :: subcommand :: tokens) = .ok ()) :
    subcommand ∈ allowedDbtSubcommands := by
  simp only [validateDbtArgv] at hvalid
  split at hvalid
  · cases hvalid
  · split at hvalid
    · assumption
    · split at hvalid <;> cases hvalid

/-- A target that is checked is a target name. -/
theorem validateTargetName_eq_ok {target : String} :
    validateTargetName target = .ok () ↔ targetNameFullmatch target := by
  unfold validateTargetName
  split <;> simp_all

theorem validateTarget_eq_ok :
    validateTarget request = .ok () ↔ ∀ target ∈ given request.target, targetNameFullmatch target := by
  unfold validateTarget
  cases given request.target with
  | none => simp
  | some target => simp [validateTargetName_eq_ok]

/-! ## The launcher -/

theorem launchArgv_eq_ok {argv : List String} {commandName : String} :
    launchArgv request = .ok (argv, commandName) ↔
      ∃ words, shlexSplit request.command = .ok words ∧
        argv = "dbt" :: words ++ optionTokens "--select" request.selector ++
          optionTokens "--target" request.target ++ request.flags.getD [] ∧
        commandName = words.headD "run" ∧ validateDbtArgv argv = .ok () ∧
        ∀ target ∈ given request.target, targetNameFullmatch target := by
  simp only [launchArgv, dbtCommandName, bind_eq_ok]
  constructor
  · intro ⟨words, hwords, _, hvalid, _, htarget, name, ⟨_, hagain, hname⟩, hresult⟩
    cases hwords.symm.trans hagain
    cases hname
    cases hresult
    exact ⟨words, hwords, rfl, rfl, hvalid, validateTarget_eq_ok.mp htarget⟩
  · intro ⟨words, hwords, hargv, hname, hvalid, htarget⟩
    subst hargv hname
    exact ⟨words, hwords, (), hvalid, (), validateTarget_eq_ok.mpr htarget, _, ⟨words, hwords, rfl⟩, rfl⟩

theorem launchState_eq_ok {argv : List String} {commandName : String} :
    launchState service request argv commandName workspace = .ok prepared ↔
      (∃ built, appendRunOptions argv request.toDbtRunOptions (some workspace.selectorsYml) =
          .ok built ∧
        appendServerStateFlags built prepared.statePath request.defer request.favorState =
          .ok prepared.argv) ∧
      resolveRequestState service request commandName workspace none = .ok prepared.statePath ∧
      prepared.commandName = commandName := by
  simp only [launchState, bind_eq_ok]
  constructor
  · intro ⟨built, hbuilt, path, hpath, full, hfull, hresult⟩
    cases hresult
    exact ⟨⟨built, hbuilt, hfull⟩, hpath, rfl⟩
  · intro ⟨⟨built, hbuilt, hfull⟩, hpath, hname⟩
    subst hname
    exact ⟨built, hbuilt, _, hpath, _, hfull, rfl⟩

/-- The launcher starts what passes the checks, in a project it has found. -/
theorem launchDbtRun_eq_ok :
    (launchDbtRun service sync request workspace).1 = .ok prepared ↔
      (getOrSync sync request.projectId workspace).1 = .ok () ∧
        ∃ words, shlexSplit request.command = .ok words ∧
          Prepares service request (getOrSync sync request.projectId workspace).2 words
            prepared := by
  unfold launchDbtRun
  constructor
  · intro hlaunch
    split at hlaunch
    · cases hlaunch
    next argv commandName hargv =>
      obtain ⟨words, hwords, rfl, rfl, hvalid, htarget⟩ := launchArgv_eq_ok.mp hargv
      split at hlaunch
      · cases hlaunch
      next after hsync =>
        obtain ⟨hoptions, hstate, hname⟩ := launchState_eq_ok.mp hlaunch
        rw [← hname] at hstate
        rw [hsync]
        exact ⟨rfl, words, hwords, htarget, hvalid, hoptions, hstate, hname⟩
  · intro ⟨hsync, words, hwords, hprepares⟩
    have hargv := launchArgv_eq_ok.mpr
      ⟨words, hwords, rfl, rfl, hprepares.argv, hprepares.target⟩
    have hpair : getOrSync sync request.projectId workspace =
        (.ok (), (getOrSync sync request.projectId workspace).2) := Prod.ext hsync rfl
    rw [hargv]
    dsimp only
    rw [hpair]
    apply launchState_eq_ok.mpr
    rw [← hprepares.name]
    exact ⟨hprepares.options, hprepares.state, rfl⟩

/-! ## The executor -/

theorem commandParts_eq_ok {argv : List String} {commandName : String} :
    commandParts command = .ok (argv, commandName) ↔
      if ' ' ∈ command.toList then
        ∃ rest, shlexSplit command = .ok (commandName :: rest) ∧
          argv = "dbt" :: commandName :: rest
      else argv = ["dbt", command] ∧ commandName = command := by
  unfold commandParts
  split
  · rw [bind_eq_ok]
    constructor
    · intro ⟨words, hwords, hresult⟩
      cases words with
      | nil => cases hresult
      | cons first rest =>
        cases hresult
        exact ⟨rest, hwords, rfl⟩
    · intro ⟨rest, hwords, hargv⟩
      subst hargv
      exact ⟨_, hwords, rfl⟩
  · constructor
    · intro hresult
      cases hresult
      exact ⟨rfl, rfl⟩
    · intro ⟨hargv, hname⟩
      subst hargv hname
      rfl

/-- What the executor takes a command for, once its argv is valid. -/
theorem commandParts_of_valid {argv tokens : List String} {commandName : String}
    (hvalid : validateDbtArgv (argv ++ tokens) = .ok ()) :
    commandParts command = .ok (argv, commandName) ↔
      SplitsAlike command ∧ ∃ words, shlexSplit command = .ok words ∧ argv = "dbt" :: words ∧
        commandName = words.headD "run" := by
  rw [commandParts_eq_ok]
  split
  next hspace =>
    constructor
    · intro ⟨rest, hwords, hargv⟩
      refine ⟨Or.inl ⟨hspace, ?_⟩, commandName :: rest, hwords, hargv, rfl⟩
      rw [hwords]
      exact fun h => nomatch h
    · intro ⟨hsplits, words, hwords, hargv, hname⟩
      cases words with
      | nil =>
        rcases hsplits with ⟨-, hsome⟩ | hself
        · exact absurd hwords hsome
        · cases hwords.symm.trans hself
      | cons first rest =>
        subst hname
        exact ⟨rest, hwords, hargv⟩
  next hspace =>
    constructor
    · intro ⟨hargv, hname⟩
      subst hargv hname
      -- Without a space the command is one word, which must be a subcommand.
      have hself := shlexSplit_of_allowed (allowed_of_validateDbtArgv hvalid)
      exact ⟨Or.inr hself, _, hself, rfl, rfl⟩
    · intro ⟨hsplits, words, hwords, hargv, hname⟩
      rcases hsplits with ⟨hspace', -⟩ | hself
      · exact absurd hspace' hspace
      · cases hwords.symm.trans hself
        exact ⟨hargv, hname⟩

theorem getPathOrRaise_eq_ok {projectId : String} :
    getPathOrRaise projectId workspace = .ok () ↔ workspace.present := by
  unfold getPathOrRaise
  split <;> simp_all

/-- The executor runs what passes the checks, when it splits the command as the launcher
does and finds the project on disk. -/
theorem runCommand_eq_ok {resolved : Option String}
    (hresolved : ∀ words, shlexSplit request.command = .ok words →
      resolveRequestState service request (words.headD "run") workspace resolved =
        resolveRequestState service request (words.headD "run") workspace none) :
    runCommand service request workspace resolved = .ok prepared ↔
      SplitsAlike request.command ∧ workspace.present ∧
        ∃ words, shlexSplit request.command = .ok words ∧
          Prepares service request workspace words prepared := by
  simp only [runCommand, bind_eq_ok]
  constructor
  · intro ⟨⟨argv, commandName⟩, hparts, _, htarget, _, hvalid, _, hpresent, built, hbuilt, path,
      hpath, full, hfull, hresult⟩
    cases hresult
    simp only [List.append_assoc] at hvalid
    obtain ⟨hsplits, words, hwords, rfl, rfl⟩ := (commandParts_of_valid hvalid).mp hparts
    rw [hresolved words hwords] at hpath
    exact ⟨hsplits, getPathOrRaise_eq_ok.mp hpresent, words, hwords, validateTarget_eq_ok.mp htarget,
      by simpa using hvalid, ⟨built, hbuilt, hfull⟩, hpath, rfl⟩
  · intro ⟨hsplits, hpresent, words, hwords, hprepares⟩
    obtain ⟨built, hbuilt, hfull⟩ := hprepares.options
    have hvalid := hprepares.argv
    simp only [List.append_assoc] at hvalid
    have hparts := (commandParts_of_valid hvalid).mpr ⟨hsplits, words, hwords, rfl, rfl⟩
    have hstate := hprepares.state
    rw [hprepares.name, ← hresolved words hwords] at hstate
    refine ⟨_, hparts, (), validateTarget_eq_ok.mpr hprepares.target, (), hprepares.argv, (),
      getPathOrRaise_eq_ok.mpr hpresent, built, hbuilt, _, hstate, _, hfull, ?_⟩
    rw [← hprepares.name]
    rfl

/-- The executor that is handed the state directory finds what it would find itself. -/
theorem resolveRequestState_resolved {commandName : String} {path : Option String}
    (hpath : resolveRequestState service request commandName workspace none = .ok path) :
    resolveRequestState service request commandName workspace path = .ok path := by
  unfold resolveRequestState at hpath ⊢
  split_ifs at hpath ⊢
  · exact hpath
  · cases htarget : given request.stateTarget with
    | none => simpa [htarget] using hpath
    | some target =>
      simp only [htarget, bind_eq_ok] at hpath ⊢
      obtain ⟨_, hvalid, found, hfound, hresult⟩ := hpath
      cases hresult
      exact ⟨(), hvalid, rfl⟩

/-! ## Agreement -/

theorem agree_iff_of_eq_ok {launched executed : Except Raised Prepared}
    (hsame : ∀ prepared other, launched = .ok prepared → executed = .ok other → prepared = other) :
    Agree launched executed ↔ ((∃ prepared, launched = .ok prepared) ↔
      ∃ prepared, executed = .ok prepared) := by
  cases launched with
  | error raised =>
    cases executed with
    | error other => simp [Agree]
    | ok other => simp [Agree]
  | ok prepared =>
    cases executed with
    | error raised => simp [Agree]
    | ok other =>
      cases hsame prepared other rfl rfl
      simp [Agree]

/-- What is startable gets past the part of the launcher before the project. -/
theorem launchArgv_of_prepares (hwords : shlexSplit request.command = .ok words)
    (hprepares : Prepares service request workspace words prepared) :
    ∃ parts, launchArgv request = .ok parts :=
  ⟨_, launchArgv_eq_ok.mpr ⟨words, hwords, rfl, rfl, hprepares.argv, hprepares.target⟩⟩

/-- The project that the launcher leaves on disk, once it has looked at it. -/
theorem launchDbtRun_after {parts : List String × String} (hparts : launchArgv request = .ok parts) :
    (launchDbtRun service sync request workspace).2 =
      (getOrSync sync request.projectId workspace).2 := by
  unfold launchDbtRun
  rw [hparts]
  dsimp only
  split
  next hsync => rw [hsync]
  next hsync => rw [hsync]

/-- What the launcher resolved changes nothing for the executor. -/
theorem resolved_of_launched {resolved : Option String}
    (hresolved : resolved = none ∨ ∃ prepared,
      (launchDbtRun service sync request workspace).1 = .ok prepared ∧
        resolved = prepared.statePath)
    (hwords : shlexSplit request.command = .ok words) :
    resolveRequestState service request (words.headD "run")
        (launchDbtRun service sync request workspace).2 resolved =
      resolveRequestState service request (words.headD "run")
        (launchDbtRun service sync request workspace).2 none := by
  rcases hresolved with hnone | ⟨prepared, hlaunch, hpath⟩
  · rw [hnone]
  · obtain ⟨-, own, hown, hprepares⟩ := launchDbtRun_eq_ok.mp hlaunch
    cases hwords.symm.trans hown
    obtain ⟨parts, hparts⟩ := launchArgv_of_prepares hwords hprepares
    have hstate := hprepares.state
    rw [hprepares.name, ← launchDbtRun_after hparts] at hstate
    rw [hpath, hstate]
    exact resolveRequestState_resolved hstate

/-- What the executor runs after the launcher. -/
theorem runCommand_launched {resolved : Option String}
    (hresolved : resolved = none ∨ ∃ prepared,
      (launchDbtRun service sync request workspace).1 = .ok prepared ∧
        resolved = prepared.statePath) :
    runCommand service request (launchDbtRun service sync request workspace).2 resolved =
        .ok prepared ↔
      (SplitsAlike request.command ∧ (getOrSync sync request.projectId workspace).2.present) ∧
        ∃ words, shlexSplit request.command = .ok words ∧
          Prepares service request (getOrSync sync request.projectId workspace).2 words
            prepared := by
  rw [runCommand_eq_ok fun words hwords => resolved_of_launched hresolved hwords, and_assoc]
  constructor
  · intro ⟨hsplits, hpresent, words, hwords, hprepares⟩
    obtain ⟨parts, hparts⟩ := launchArgv_of_prepares hwords hprepares
    rw [launchDbtRun_after hparts] at hpresent hprepares
    exact ⟨hsplits, hpresent, words, hwords, hprepares⟩
  · intro ⟨hsplits, hpresent, words, hwords, hprepares⟩
    obtain ⟨parts, hparts⟩ := launchArgv_of_prepares hwords hprepares
    rw [launchDbtRun_after hparts]
    exact ⟨hsplits, hpresent, words, hwords, hprepares⟩

/-- The launcher and the executor agree on a request exactly when, if the request passes
the checks, the project is found just when the executor splits the command alike and has
the project on disk. -/
theorem agrees_iff :
    Agrees service sync request workspace ↔
      (Startable service request (getOrSync sync request.projectId workspace).2 →
        ((getOrSync sync request.projectId workspace).1 = .ok () ↔
          SplitsAlike request.command ∧
            (getOrSync sync request.projectId workspace).2.present)) := by
  have hagree : ∀ resolved, (resolved = none ∨ ∃ prepared,
      (launchDbtRun service sync request workspace).1 = .ok prepared ∧
        resolved = prepared.statePath) →
      (Agree (launchDbtRun service sync request workspace).1
          (runCommand service request (launchDbtRun service sync request workspace).2 resolved) ↔
        (Startable service request (getOrSync sync request.projectId workspace).2 →
          ((getOrSync sync request.projectId workspace).1 = .ok () ↔
            SplitsAlike request.command ∧
              (getOrSync sync request.projectId workspace).2.present))) := by
    intro resolved hresolved
    rw [agree_iff_of_eq_ok]
    · have hlaunched : (∃ prepared,
          (launchDbtRun service sync request workspace).1 = .ok prepared) ↔
          (getOrSync sync request.projectId workspace).1 = .ok () ∧
            Startable service request (getOrSync sync request.projectId workspace).2 := by
        simp only [launchDbtRun_eq_ok, Startable]
        grind
      have hexecuted : (∃ prepared, runCommand service request
          (launchDbtRun service sync request workspace).2 resolved = .ok prepared) ↔
          (SplitsAlike request.command ∧
              (getOrSync sync request.projectId workspace).2.present) ∧
            Startable service request (getOrSync sync request.projectId workspace).2 := by
        simp only [runCommand_launched hresolved, Startable]
        grind
      rw [hlaunched, hexecuted]
      exact and_congr_left_iff
    · intro launched executed hlaunch hexecute
      obtain ⟨hchecked, -⟩ := (runCommand_launched hresolved).mp hexecute
      obtain ⟨-, hprepares⟩ := launchDbtRun_eq_ok.mp hlaunch
      have hsame := (runCommand_launched hresolved).mpr ⟨hchecked, hprepares⟩
      exact Except.ok.inj (hsame.symm.trans hexecute)
  constructor
  · exact fun hagrees => (hagree none (Or.inl rfl)).mp (hagrees none (Or.inl rfl))
  · exact fun hcondition resolved hresolved => (hagree resolved hresolved).mpr hcondition

/-- A service without saved state. -/
def emptyService : StateService where
  baseDir := "/data/state"
  canonicalUuid := some
  hasManifest _ _ := false

/-- A tab between the words: the launcher writes a row, and the executor refuses. -/
theorem not_agrees_of_tab :
    ¬ ∀ (service : StateService) (sync : Sync) (request : DbtCommand) (workspace : Workspace),
      Agrees service sync request workspace := by
  intro hagrees
  exact hagrees emptyService ⟨false, { path := "/data/p", present := false }⟩
    { projectId := "p", command := "run\t--full-refresh" }
    { path := "/data/p", present := true } none (Or.inl rfl)

end DbtCraft.Services.Launch
