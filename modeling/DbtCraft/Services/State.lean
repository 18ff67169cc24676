/-
# Server-owned dbt state

`app/services/state.py`: the names of targets, the target that an argv leads to, and
what a request says of the saved state it wants, with the request itself
(`DbtCommand` of `app/models/dbt.py`).
-/

import DbtCraft.Services.DbtArgv

namespace DbtCraft.Services.State

open DbtCraft.Python DbtCraft.Services.DbtArgv

/-- `DEFAULT_STATE_TARGET`. -/
def defaultStateTarget : String := "dev"

/-- `STATE_PRODUCING_COMMANDS`. -/
def stateProducingCommands : List String := ["run", "build", "seed", "snapshot", "retry"]

/-- `RETRYABLE_COMMANDS`. -/
def retryableCommands : List String :=
  ["build", "compile", "clone", "generate", "seed", "snapshot", "test", "run", "run-operation"]

/-! ## Target names -/

def isTargetChar (c : Char) : Bool := c.isLower || c.isDigit || c = '_'

/-- `TARGET_NAME_RE.fullmatch`, on the characters of a name. -/
def matchesTargetName : List Char → Bool
  | [] => false
  | first :: rest => first.isLower && decide (rest.length ≤ 29) && rest.all isTargetChar

def targetNameFullmatch (name : String) : Bool := matchesTargetName name.toList

/-- `TARGET_NAME_RE.match`: its `$` also matches before a last line feed. -/
def targetNameMatch (name : String) : Bool :=
  matchesTargetName name.toList ||
    (name.toList.getLast? = some '\n' && matchesTargetName name.toList.dropLast)

/-- `validate_target_name`. -/
def validateTargetName (target : String) : Except Raised Unit :=
  if targetNameFullmatch target then .ok ()
  else
    .error (.dbtOperation "state" ("invalid target name '" ++ target ++
      "' - lowercase letters, digits and underscores only"))

/-- The last `--target` or `-t` of the tokens, or the one found before them. -/
def lastTarget (found : Option String) : List String → Option String
  | [] => found
  | token :: rest =>
    if (token = "--target" ∨ token = "-t") ∧ rest ≠ [] then lastTarget rest.head? rest
    else if startsWith token "--target=" then
      lastTarget (some (String.ofList (token.toList.drop 9))) rest
    else lastTarget found rest

/-- `effective_target`. -/
def effectiveTarget (argv : List String) : String :=
  match lastTarget none argv with
  | some target => if target = "" then defaultStateTarget else target
  | none => defaultStateTarget

example : effectiveTarget ["dbt", "run", "-t", "qa", "--target=prod", "--target"] = "prod" := by
  decide

/-! ## State options of a request -/

/-- `DbtCommand`. -/
structure DbtCommand extends DbtRunOptions where
  projectId : String
  command : String
  selector : Option String := none
  target : Option String := none
  flags : Option (List String) := none
  stateTarget : Option String := none
  defer : Bool := false
  favorState : Bool := false
  /-- Set by the retry endpoint, never by a client. -/
  retryStateDir : Option String := none

/-- A field that counts as unset when it is empty. -/
def given (field : Option String) : Option String := field.filter (· ≠ "")

/-- The files of a project in the workspace directory that a request depends on. -/
structure Workspace where
  path : String
  /-- `path.exists()`. -/
  present : Bool
  selectorsYml : SelectorsYml := .absent
  /-- `target/run_results.json` is a file. -/
  hasRunResults : Bool := false

/-- `StateService`, with the manifests it holds. -/
structure StateService where
  baseDir : String
  /-- `str(uuid.UUID(text))`. -/
  canonicalUuid : String → Option String
  /-- `manifest.json` is a file in the directory of a project and a target. -/
  hasManifest : String → String → Bool

/-- `_validate_project_id`. -/
def StateService.validateProjectId (service : StateService) (projectId : String) :
    Except Raised String :=
  match service.canonicalUuid (strip projectId) with
  | some canonical => .ok canonical
  | none => .error (.dbtOperation "state" "invalid project identifier")

/-- `StateService.require_state`. -/
def StateService.requireState (service : StateService) (projectId target : String) :
    Except Raised String := do
  let project ← service.validateProjectId projectId
  validateTargetName target
  if service.hasManifest project target then
    return service.baseDir ++ "/" ++ project ++ "/" ++ target
  else
    throw (.dbtOperation "state" ("no saved dbt state exists for target '" ++ target ++
      "'; run a build on that target successfully first"))

/-- `StateService.require_retry_results`. -/
def requireRetryResults (workspace : Workspace) : Except Raised Unit :=
  if workspace.hasRunResults then .ok ()
  else
    .error (.dbtOperation "retry"
      "no previous run to retry; target/run_results.json is missing")

/-- `resolve_request_state`. -/
def resolveRequestState (service : StateService) (request : DbtCommand) (commandName : String)
    (workspace : Workspace) (resolved : Option String) : Except Raised (Option String) :=
  if request.favorState ∧ request.defer = false then
    .error (.dbtOperation "state" "favor_state requires defer to also be enabled")
  else if request.defer ∧ given request.stateTarget = none then
    .error (.dbtOperation "state" "state_target is required when defer is enabled")
  else if commandName = "retry" then
    if given request.stateTarget ≠ none ∨ request.defer then
      .error (.dbtOperation "retry" ("dbt retry reuses the failed run's own state options; " ++
        "state_target and defer are not accepted"))
    else
      match request.retryStateDir with
      | some directory => .ok (some directory)
      | none => do
        requireRetryResults workspace
        return none
  else if commandName = "clone" ∧ given request.stateTarget = none then
    .error (.dbtOperation "clone" "state_target is required for dbt clone")
  else
    match given request.stateTarget with
    | none => .ok none
    | some target => do
      validateTargetName target
      match resolved with
      | some path => return some path
      | none =>
        let path ← service.requireState request.projectId target
        return some path

end DbtCraft.Services.State
