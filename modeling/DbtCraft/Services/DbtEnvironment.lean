/-
# Environments of dbt

`app/services/dbt_environment.py`, with the places where a run's variables are put
together (`_build_dbt_environment` of `app/services/dbt_service.py`) and where dbt gets
them: a child process (`_subprocess_environment` of `app/services/command.py`), or a job
of a warm worker (`_run_dbt` of `app/services/dbt_worker_process.py`), which puts them
into its own `os.environ` and takes them out again.

The names that the installed dbt reads as options are those of its Click parameters.
They come with dbt, as `discovered`, beside the baseline of the source.
-/

import DbtCraft.Math.Machine
import DbtCraft.Python.Environ
import DbtCraft.Services.ConnectionConfig

namespace DbtCraft.Services.DbtEnvironment

open DbtCraft.Math DbtCraft.Python DbtCraft.Services.ConnectionConfig

/-! ## Names -/

/-- `ALLOWED_ENV_VAR_NAME_CHARS`. -/
def isNameChar (c : Char) : Bool := c.isAlphanum || c = '_'

/-- `DBT_PROFILE_SECRET_PREFIX`. -/
def dbtProfileSecretPrefix : String := "DBT_ENV_SECRET_DBT_CRAFT_"

/-- `DBT_LAKE_CATALOG_PASSWORD_ENV`. -/
def dbtLakeCatalogPasswordEnv : String := "DBT_ENV_SECRET_LAKE_CATALOG_PASSWORD"

/-- `_LEGACY_DBT_CLI_ENV_VARS`, without the `DBT_` that each name starts with. -/
def legacyOptions : List String :=
  ["ARTIFACT_STATE_PATH", "CACHE_SELECTED_ONLY", "CLEAN_PROJECT_FILES_ONLY", "DEBUG", "DEFER",
    "DEFER_STATE", "DEFER_TO_STATE", "EMPTY", "EVENT_TIME_END", "EVENT_TIME_START",
    "EXCLUDE_RESOURCE_TYPES", "EXPORT_SAVED_QUERIES", "FAIL_FAST", "FAVOR_STATE",
    "FAVOR_STATE_MODE", "FULL_REFRESH", "HOST", "INCLUDE_SAVED_QUERY", "INDIRECT_SELECTION",
    "INTROSPECT", "LOG_CACHE_EVENTS", "LOG_FILE_MAX_BYTES", "LOG_FORMAT", "LOG_FORMAT_FILE",
    "LOG_LEVEL", "LOG_LEVEL_FILE", "LOG_PATH", "MACRO_DEBUGGING", "NO_PRINT",
    "PACKAGES_INSTALL_PATH", "PARTIAL_PARSE", "PARTIAL_PARSE_FILE_DIFF",
    "PARTIAL_PARSE_FILE_PATH", "POPULATE_CACHE", "PRINT", "PRINTER_WIDTH", "PROFILE",
    "PROFILES_DIR", "PROJECT_DIR", "QUIET", "RESOURCE_TYPES", "SAMPLE",
    "SEND_ANONYMOUS_USAGE_STATS", "SHOW_RESOURCE_REPORT", "SINGLE_THREADED", "STATE",
    "STATIC_PARSER", "STORE_FAILURES", "TARGET", "TARGET_PATH",
    "UPLOAD_TO_ARTIFACTS_INGEST_API", "USE_COLORS", "USE_COLORS_FILE",
    "USE_EXPERIMENTAL_PARSER", "USE_FAST_TEST_EDGES", "VERSION_CHECK", "WARN_ERROR",
    "WARN_ERROR_OPTIONS", "WRITE_JSON"]

/-- `FALLBACK_DBT_CLI_ENV_VARS`. -/
def fallbackDbtCliEnvVars : List String :=
  legacyOptions.map ("DBT_" ++ ·) ++
    ("DBT_ENGINE_SQLPARSE" :: legacyOptions.map ("DBT_ENGINE_" ++ ·))

section

variable (discovered : List String)

/-- `DBT_CLI_ENV_VARS`. -/
def dbtCliEnvVars : List String := fallbackDbtCliEnvVars ++ discovered

/-- `_is_server_owned_name`. -/
def isServerOwnedName (name : String) : Bool :=
  startsWith name dbtProfileSecretPrefix || name = dbtLakeCatalogPasswordEnv

/-- `forbidden_dbt_environment_reason`. -/
def forbiddenDbtEnvironmentReason (name : String) (allowServerOwned : Bool) : Option String :=
  let normalized := upper name
  if normalized ∈ dbtCliEnvVars discovered then some "dbt treats it as a CLI option"
  else if normalized ∈ ["PATH", "HOME", "VIRTUAL_ENV"] then
    some "it controls the dbt process environment"
  else if ["PYTHON", "LD_", "DYLD_", "UV_"].any (startsWith normalized) then
    some "it controls Python or native code loading"
  else if !allowServerOwned && isServerOwnedName normalized then
    some "it is reserved for a server-managed credential"
  else none

/-- The tests of a stripped name that `sanitize_dbt_environment` leaves out silently. A
first character that is a letter outside ASCII is found by the last test. -/
def isAdmittedName (name : String) : Bool :=
  match name.toList with
  | [] => false
  | first :: rest =>
    decide ((first :: rest).length ≤ 128) && (first.isAlpha || first = '_') &&
      (first :: rest).all isNameChar

/-- One turn of the loop of `sanitize_dbt_environment`. -/
def sanitizeItem (allowServerOwned : Bool) (sanitized : Environ) (item : String × String) :
    Except Raised Environ :=
  let name := strip item.1
  if isAdmittedName name = false then .ok sanitized
  else
    match forbiddenDbtEnvironmentReason discovered name allowServerOwned with
    | some reason =>
      .error (.dbtOperation "environment validation"
        ("environment variable '" ++ name ++ "' is not allowed because " ++ reason))
    | none => .ok (sanitized.set name item.2)

/-- `sanitize_dbt_environment`. -/
def sanitizeDbtEnvironment (rawEnv : List (String × String)) (allowServerOwned : Bool) :
    Except Raised Environ :=
  rawEnv.foldlM (sanitizeItem discovered allowServerOwned) Environ.empty

/-- `dbt_process_environment`, over the `os.environ` of its process. -/
def dbtProcessEnvironment (environ runEnv : Environ) : Except Raised Environ :=
  (sanitizeDbtEnvironment discovered runEnv.vars true).map environ.update

/-! ## The variables of a run -/

/-- A row of `dbt_environment_variables`. -/
structure PersistedVariable where
  name : String
  valueEncrypted : Option String

/-- One turn of the loop of `_load_persisted_environment`. -/
def loadPersistedVariable (decrypt : Decrypt) (env : Environ) (row : PersistedVariable) :
    Except Raised Environ := do
  let _ ← sanitizeDbtEnvironment discovered [(row.name, "")] false
  let value ← decryptSecretOrPlaintext decrypt row.valueEncrypted
  return env.set row.name value

/-- `_load_persisted_environment`; without a session or a user there are no rows. -/
def loadPersistedEnvironment (decrypt : Decrypt) (rows : List PersistedVariable) :
    Except Raised Environ :=
  rows.foldlM (loadPersistedVariable discovered decrypt) Environ.empty

/-- `_build_dbt_environment`. -/
def buildDbtEnvironment (decrypt : Decrypt) (requestEnvironment : Environ)
    (rows : List PersistedVariable) (profileEnv : Environ) : Except Raised Environ := do
  let requested ← sanitizeDbtEnvironment discovered requestEnvironment.vars false
  let persisted ← loadPersistedEnvironment discovered decrypt rows
  return (requested.update persisted).update profileEnv

/-! ## The child process -/

/-- The name of a path: its last component. -/
def pathName (path : String) : String :=
  String.ofList ((((split '/' path.toList).filter fun part => part ≠ [] ∧ part ≠ ['.']).getLast?).getD
    [])

/-- `_subprocess_environment`. -/
def subprocessEnvironment (environ : Environ) (cmd : List String) (env : Environ) :
    Except Raised Environ :=
  let executable := (cmd.head?.map fun first =>
    (pathName first).toList.map Char.toLower).getD []
  if executable = "dbt".toList ∨ executable = "dbt.exe".toList then
    dbtProcessEnvironment discovered environ env
  else .ok (environ.update env)

/-- The system takes the values of an environment: they have no null character. -/
def Storable (env : Environ) : Prop := ∀ item ∈ env.vars, '\x00' ∉ item.2.toList

instance (env : Environ) : Decidable (Storable env) :=
  inferInstanceAs (Decidable (∀ item ∈ env.vars, '\x00' ∉ item.2.toList))

/-- The environment of a child that `create_subprocess_exec` starts. -/
def startedWith (environ : Environ) (cmd : List String) (env : Environ) : Option Environ :=
  match subprocessEnvironment discovered environ cmd env with
  | .ok childEnv => if Storable childEnv then some childEnv else none
  | .error _ => none

/-! ## The warm worker -/

/-- A job of a worker, with what it meets: whether the worker has a working directory,
whether it can change to that of the job and back, and what `os.environ` is after dbt. -/
structure Job where
  env : Environ
  hasCwd : Bool
  chdirs : Bool
  during : Environ
  returns : Bool

/-- `os.environ.update(process_env)` on a cleared environment: the items before the first
that the system does not take are there when it raises. -/
def updateCleared (processEnv : Environ) : Environ :=
  ⟨processEnv.vars.takeWhile fun item => '\x00' ∉ item.2.toList,
    (((List.takeWhile_prefix _).sublist).map Prod.fst).nodup processEnv.nodup⟩

/-- The `try` block of `_run_dbt`: the `os.environ` dbt is invoked with, if it is, and the
one that is there at the end of the block. -/
def invoked (environ : Environ) (job : Job) : Option Environ × Environ :=
  if job.chdirs then
    match dbtProcessEnvironment discovered environ job.env with
    | .error _ => (none, environ)
    | .ok processEnv =>
      if Storable processEnv then (some (Environ.empty.update processEnv), job.during)
      else (none, updateCleared processEnv)
  else (none, environ)

/-- `_run_dbt`: what dbt is invoked with, and the `os.environ` of the worker afterwards. -/
def runDbt (environ : Environ) (job : Job) : Option Environ × Environ :=
  if job.hasCwd then
    let (seen, left) := invoked discovered environ job
    (seen, if job.returns then Environ.empty.update environ else left)
  else (none, environ)

/-- A worker that starts with the environment of the server, and its jobs. -/
def worker (environ : Environ) : Machine Environ Job where
  init := environ
  step current job := some (runDbt discovered current job).2

/-- The worker can change back to its working directory after a job. -/
def ReturnsHome (_ : Environ) (job : Job) : Prop := job.returns = true

end

/-! ## The variables of a profile -/

/-- The variables that carry the secrets of a profile: their names are the server's. -/
structure ProfileEnv extends Environ where
  owned : ∀ item ∈ vars, isServerOwnedName (upper item.1) = true
  admitted : ∀ item ∈ vars, isAdmittedName item.1 = true

end DbtCraft.Services.DbtEnvironment
