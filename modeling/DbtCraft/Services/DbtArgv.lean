/-
# The argv of dbt

What `app/services/command.py` checks in an argv that a client has built, and what it
appends to it from the options of a request (`DbtRunOptions` of `app/models/dbt.py`).
-/

import DbtCraft.Exceptions
import DbtCraft.Python.Datetime
import DbtCraft.Python.Dict
import DbtCraft.Python.Text
import DbtCraft.Python.Value

namespace DbtCraft.Services.DbtArgv

open DbtCraft.Python

/-- `ALLOWED_DBT_SUBCOMMANDS`. -/
def allowedDbtSubcommands : List String :=
  ["run", "test", "build", "seed", "snapshot", "compile", "show", "docs", "deps", "clean",
    "source", "parse", "ls", "list", "debug", "run-operation", "retry", "clone"]

/-- `DBT_PATH_FLAGS`. -/
def dbtPathFlags : List String :=
  ["--project-dir", "--profiles-dir", "--target-path", "--log-path", "--state",
    "--packages-install-path", "--defer-state"]

/-- `DBT_SERVER_STATE_FLAGS`. -/
def dbtServerStateFlags : List String := ["--defer", "--favor-state"]

/-- `_refuse`. -/
def refuse (message : String) : Raised := .dbtOperation "command validation" message

/-- `token == flag or token.startswith(f"{flag}=")`. -/
def isFlag (token flag : String) : Bool := token = flag || startsWith token (flag ++ "=")

/-- What `validate_dbt_argv` checks in one token after the subcommand. -/
def validateToken (token : String) : Except Raised Unit :=
  match dbtPathFlags.find? (isFlag token), dbtServerStateFlags.find? (isFlag token) with
  | some flag, _ =>
    .error (refuse ("client-provided filesystem path flag '" ++ flag ++
      "' is not allowed; dbt paths are managed by the server"))
  | none, some flag =>
    .error (refuse ("client-provided state flag '" ++ flag ++
      "' is not allowed; use the server-managed state options"))
  | none, none => .ok ()

/-- `validate_dbt_argv`. -/
def validateDbtArgv (argv : List String) : Except Raised Unit :=
  match argv with
  | program :: subcommand :: tokens =>
    if program ≠ "dbt" then
      .error (refuse "expected argv to start with a dbt subcommand")
    else if subcommand ∈ allowedDbtSubcommands then tokens.forM validateToken
    else if subcommand = "init" then
      .error (refuse ("dbt subcommand 'init' is not allowed here; " ++
        "use the project initialization endpoint"))
    else .error (refuse ("dbt subcommand '" ++ subcommand ++ "' is not allowed"))
  | _ => .error (refuse "expected argv to start with a dbt subcommand")

/-- `append_server_state_flags`. -/
def appendServerStateFlags (argv : List String) (stateDir : Option String)
    (defer favorState : Bool) : Except Raised (List String) := do
  validateDbtArgv argv
  return argv ++ (match stateDir with | some path => ["--state", path] | none => []) ++
    (if defer then ["--defer"] else []) ++ (if favorState then ["--favor-state"] else [])

/-! ## Run options -/

/-- `DbtRunOptions`. -/
structure DbtRunOptions where
  vars : Option (List (Value × Value)) := none
  empty : Bool := false
  sample : Option String := none
  eventTimeStart : Option Datetime := none
  eventTimeEnd : Option Datetime := none
  fullRefresh : Bool := false
  selectorName : Option String := none

def maxVarsBytes : ℕ := 16 * 1024

/-- `VARS_COMMANDS`. -/
def varsCommands : List String := allowedDbtSubcommands

/-- `EMPTY_COMMANDS`. -/
def emptyCommands : List String := ["run", "build", "compile", "snapshot"]

/-- `SAMPLE_COMMANDS`. -/
def sampleCommands : List String := ["run", "build"]

/-- `EVENT_TIME_COMMANDS`. -/
def eventTimeCommands : List String := ["run", "build"]

/-- `FULL_REFRESH_COMMANDS`. -/
def fullRefreshCommands : List String :=
  ["run", "build", "clone", "compile", "retry", "seed", "show"]

/-- `SELECTOR_COMMANDS`. -/
def selectorCommands : List String :=
  ["run", "build", "test", "seed", "snapshot", "compile", "show", "ls", "list", "clone",
    "docs generate", "source freshness", "source snapshot-freshness"]

/-- `dbt_command_key`. -/
def dbtCommandKey : List String → String
  | _ :: subcommand :: next :: _ =>
    if (subcommand = "docs" ∨ subcommand = "source") ∧ startsWith next "-" = false then
      subcommand ++ " " ++ next
    else subcommand
  | [_, subcommand] => subcommand
  | _ => ""

/-- `_has_flag`. -/
def hasFlag (argv : List String) (flag : String) : Bool :=
  (argv.drop 2).any fun token => isFlag token flag

/-- `conflict` of `append_run_options`. -/
def conflict (argv : List String) (flag : String) : Except Raised Unit :=
  if hasFlag argv flag then
    .error (refuse ("'" ++ flag ++ "' was given both as a field and in the command; send it once"))
  else .ok ()

/-- `supported` of `append_run_options`, for a field whose value is set or not. -/
def supported (argv : List String) (field : String) (commands : List String) (isSet : Bool) :
    Except Raised Bool :=
  if isSet = false then .ok false
  else if dbtCommandKey argv ∈ commands ∨ argv.getD 1 "" ∈ commands then .ok true
  else
    .error (refuse ("'" ++ field ++ "' is not supported by dbt " ++ dbtCommandKey argv))

/-- `serialize_json_arg` on an object. -/
def serializeJsonArg (value : List (Value × Value)) (name : String) (limit : ℕ) :
    Except Raised String :=
  match jsonDumps (.dict value) with
  | .error text => .error (refuse (name ++ " must be JSON-serialisable: " ++ text))
  | .ok encoded =>
    if limit < encoded.utf8ByteSize then
      .error (refuse (name ++ " is larger than " ++ toString (limit / 1024) ++ " KiB"))
    else .ok encoded

/-- The plural `s` of a grain, which `re.IGNORECASE` also finds in a long s. -/
def isPluralS (c : Char) : Bool := c = 's' || c = 'S' || c.toNat = 0x17F

/-- `_SAMPLE_RE.fullmatch`: the count and the grain in lower case. -/
def sampleParts (text : String) : Option (String × String) :=
  let digits := (text.toList.dropWhile isSpace).takeWhile Char.isDigit
  let afterDigits := (text.toList.dropWhile isSpace).dropWhile Char.isDigit
  let word := (afterDigits.dropWhile isSpace).takeWhile fun c => !isSpace c
  let afterWord := (afterDigits.dropWhile isSpace).dropWhile fun c => !isSpace c
  let grain :=
    String.ofList ((if word.getLast?.any isPluralS then word.dropLast else word).map Char.toLower)
  if digits ≠ [] ∧ digits.length ≤ 6 ∧ digits.head? ≠ some '0' ∧
      (afterDigits.head?.any isSpace) = true ∧ grain ∈ ["hour", "day", "month", "year"] ∧
      (afterWord.all isSpace) = true then
    some (String.ofList digits, grain)
  else none

/-- `SELECTOR_NAME_RE.fullmatch`. -/
def isSelectorName (text : String) : Bool :=
  let isStart (c : Char) : Bool := c.isAlphanum || c = '_'
  match text.toList with
  | [] => false
  | first :: rest =>
    isStart first && decide (rest.length ≤ 127) &&
      rest.all fun c => isStart c || c = '.' || c = '-'

/-- What reading `selectors.yml` of a project gives. -/
inductive SelectorsYml
  | absent
  | /-- An `OSError` or a `YAMLError`, by its text. -/
    unreadable (text : String)
  | /-- Any other exception. -/
    raises (error : Raised)
  | document (value : Value)

/-- `str(value) == text`; a list or a dict is written in brackets, which the names that
are looked up do not have. -/
def isStr (text : String) : Value → Bool
  | .none => text = "None"
  | .bool value => text = if value then "True" else "False"
  | .int value => text = toString value
  | .float repr _ | .nonFinite repr => text = repr
  | .str own => text = own
  | .list _ | .dict _ => false
  | .object _ str => text = str

/-- `project_selector_names`, before `str` is applied to the names. -/
def projectSelectorNames : SelectorsYml → Except Raised (Option (List Value))
  | .absent => .ok none
  | .unreadable text => .error (refuse ("selectors.yml cannot be read: " ++ text))
  | .raises error => .error error
  | .document value =>
    let selectors :=
      match value with
      | .dict items => Value.item items (.str "selectors")
      | _ => none
    match selectors with
    | some (.list items) =>
      .ok (some (items.filterMap fun item =>
        match item with
        | .dict fields => (Value.item fields (.str "name")).filter Value.truthy
        | _ => none))
    | some (.bool true) | some (.float _ _) | some (.nonFinite _) => .error .typeError
    | some (.int value) => if value = 0 then .ok (some []) else .error .typeError
    | some (.object typeName _) =>
      if typeName = "date" ∨ typeName = "datetime" then .error .typeError else .ok (some [])
    | _ => .ok (some [])

/-- `_event_time` of an `Optional[datetime]` field. -/
def eventTime (value : Datetime) : Except Raised ℕ := do
  let wall ← value.toNaiveUtc
  return wall.toNat

def appendVars (argv : List String) (options : DbtRunOptions) : Except Raised (List String) :=
  match options.vars with
  | none => .ok argv
  | some vars => do
    conflict argv "--vars"
    if ← supported argv "vars" varsCommands (!vars.isEmpty) then
      return argv ++ ["--vars", ← serializeJsonArg vars "vars" maxVarsBytes]
    else return argv

def appendEmpty (argv : List String) (options : DbtRunOptions) : Except Raised (List String) := do
  if ← supported argv "empty" emptyCommands options.empty then
    conflict argv "--empty"
    return argv ++ ["--empty"]
  else return argv

def appendSample (argv : List String) (options : DbtRunOptions) :
    Except Raised (List String) := do
  let sample := options.sample.getD ""
  if ← supported argv "sample" sampleCommands (sample ≠ "") then
    conflict argv "--sample"
    match sampleParts sample with
    | some (count, grain) => return argv ++ ["--sample", count ++ " " ++ grain]
    | none =>
      throw (refuse ("sample must look like '<count> <grain>', grain one of " ++
        "hour, day, month, year (e.g. '3 days')"))
  else return argv

def appendEventTime (argv : List String) (options : DbtRunOptions) :
    Except Raised (List String) := do
  let isSet := options.eventTimeStart.isSome || options.eventTimeEnd.isSome
  if ← supported argv "event_time_start/event_time_end" eventTimeCommands isSet then
    match options.eventTimeStart, options.eventTimeEnd with
    | some first, some last =>
      conflict argv "--event-time-start"
      conflict argv "--event-time-end"
      let startAt ← eventTime first
      let endAt ← eventTime last
      if endAt ≤ startAt then
        throw (refuse "event_time_start must be before event_time_end")
      return argv ++ ["--event-time-start", Datetime.strftime startAt,
        "--event-time-end", Datetime.strftime endAt]
    | _, _ => throw (refuse "event_time_start and event_time_end must be given together")
  else return argv

def appendFullRefresh (argv : List String) (options : DbtRunOptions) :
    Except Raised (List String) := do
  if ← supported argv "full_refresh" fullRefreshCommands options.fullRefresh then
    return if hasFlag argv "--full-refresh" then argv else argv ++ ["--full-refresh"]
  else return argv

def appendSelector (argv : List String) (options : DbtRunOptions)
    (selectorsYml : Option SelectorsYml) : Except Raised (List String) := do
  let selectorName := options.selectorName.getD ""
  if ← supported argv "selector_name" selectorCommands (selectorName ≠ "") then
    if hasFlag argv "--select" || hasFlag argv "-s" then
      throw (refuse "selector_name cannot be combined with selector/--select; choose one")
    conflict argv "--selector"
    if isSelectorName selectorName = false then
      throw (refuse ("invalid selector name '" ++ selectorName ++ "'"))
    match selectorsYml with
    | none => pure ()
    | some file =>
      match ← projectSelectorNames file with
      | none => throw (refuse "the project has no selectors.yml, so no selector can be named")
      | some names =>
        if names.any (isStr selectorName) = false then
          throw (refuse ("selectors.yml defines no selector named '" ++ selectorName ++ "'"))
    return argv ++ ["--selector", selectorName]
  else return argv

/-- `append_run_options`; without the project a selector name is shape-checked only. -/
def appendRunOptions (argv : List String) (options : DbtRunOptions)
    (selectorsYml : Option SelectorsYml) : Except Raised (List String) := do
  let argv ← appendVars argv options
  let argv ← appendEmpty argv options
  let argv ← appendSample argv options
  let argv ← appendEventTime argv options
  let argv ← appendFullRefresh argv options
  appendSelector argv options selectorsYml

end DbtCraft.Services.DbtArgv
