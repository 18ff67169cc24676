/-
# Run options of the editor

`features/develop/model/run-options.ts`, which checks the options of the dialog and builds
the fields of a request from them, and the command text that `handleRunDbt` sends with
these fields.
-/

import Mathlib.Algebra.GroupWithZero.Nat
import DbtCraft.Server.AiProviders
import DbtCraft.Services.State
import DbtCraft.Web.Json

namespace DbtCraft.Web.RunOptions

open DbtCraft.Python
open DbtCraft.Server.AiProviders (trim)
open DbtCraft.Server.Proxy (isWhiteSpace)
open DbtCraft.Services.DbtArgv (isFlag isSelectorName)
open DbtCraft.Services.State (targetNameFullmatch)

/-- The functions of JavaScript that read a text. -/
structure Engine where
  /-- `Number(text)`, if it is finite. -/
  finiteNumber : String → Option Number
  /-- `JSON.parse(text)`; `none` is an exception. -/
  parse : String → Option Json
  /-- `new Date(text).getTime()`; `none` is `NaN`. -/
  time : String → Option ℤ

structure VarEntry where
  key : String
  value : String

structure RunOptionsState where
  vars : Option (Dict String Json) := none
  varEntries : Option (List VarEntry) := none
  empty : Bool := false
  sample : Option String := none
  eventTimeStart : Option String := none
  eventTimeEnd : Option String := none
  fullRefresh : Bool := false
  selectorName : Option String := none
  stateTarget : Option String := none
  defer : Bool := false
  favorState : Bool := false

/-- An event time stands for the text that `toISOString` makes of its milliseconds. -/
structure DbtRunOptionsPayload where
  vars : Option (Dict String Json) := none
  empty : Bool := false
  sample : Option String := none
  eventTimeStart : Option ℤ := none
  eventTimeEnd : Option ℤ := none
  fullRefresh : Bool := false
  selectorName : Option String := none
  stateTarget : Option String := none
  defer : Bool := false
  favorState : Bool := false

/-- `MAX_VARS_BYTES`. -/
def maxVarsBytes : ℕ := 16 * 1024

/-- `EMPTY_COMMANDS`. -/
def emptyCommands : List String := ["run", "build", "compile", "snapshot"]

/-- `SAMPLE_COMMANDS`. -/
def sampleCommands : List String := ["run", "build"]

/-- `EVENT_TIME_COMMANDS`. -/
def eventTimeCommands : List String := ["run", "build"]

/-- `FULL_REFRESH_COMMANDS`. -/
def fullRefreshCommands : List String :=
  ["run", "build", "clone", "compile", "retry", "seed", "show"]

/-- `SELECTOR_COMMANDS`. -/
def selectorCommands : List String :=
  ["run", "build", "test", "seed", "snapshot", "compile", "show", "ls", "list", "clone",
    "docs generate", "docs", "source freshness", "source"]

/-! ## Variables -/

/-- `/^0\d+$/`. -/
def isPadded : List Char → Bool
  | '0' :: rest => !rest.isEmpty && rest.all Char.isDigit
  | _ => false

/-- The text stands in braces or in brackets. -/
def isBracketed (text : List Char) : Bool :=
  (text.head? = some '\x7b' && text.getLast? = some '\x7d') ||
    (text.head? = some '[' && text.getLast? = some ']')

/-- `coerceVarValue`. -/
def coerceVarValue (engine : Engine) (value : String) : Json :=
  let trimmed := trim value
  if trimmed = "" then .string ""
  else if trimmed = "true" then .bool true
  else if trimmed = "false" then .bool false
  else if trimmed = "null" then .null
  else if isPadded trimmed.toList then .string value
  else
    match if startsWith trimmed "0x" then none else engine.finiteNumber trimmed with
    | some number => .number number
    | none =>
      if isBracketed trimmed.toList then (engine.parse trimmed).getD (.string value)
      else .string value

/-- The object that variables are assigned to. `setter` tells that it still inherits the
accessor of `__proto__`. -/
structure VarsObject where
  own : Dict String Json := []
  setter : Bool := true

/-- An object with this value as its prototype, or with the one it had if the value is no
object, inherits the accessor of `__proto__`. -/
def keepsSetter : Json → Bool
  | .null => false
  | .object members => members.all fun member => member.1 ≠ "__proto__"
  | _ => true

/-- `obj[name] = value`. -/
def VarsObject.assign (object : VarsObject) (name : String) (value : Json) : VarsObject :=
  if name = "__proto__" ∧ object.setter = true then { object with setter := keepsSetter value }
  else { object with own := object.own.set name value }

/-- The loop of `validateVars` over entries. -/
def assignEntries (engine : Engine) : VarsObject → List VarEntry → Except String VarsObject
  | object, [] => .ok object
  | object, entry :: rest =>
    let key := trim entry.key
    if key = "" ∧ trim entry.value = "" then assignEntries engine object rest
    else if key = "" then .error "Variable key cannot be empty"
    else assignEntries engine (object.assign key (coerceVarValue engine entry.value)) rest

inductive VarsInput
  | absent
  | entries (entries : List VarEntry)
  | object (members : Dict String Json)

/-- The end of `validateVars`. -/
def checkVars (own : Dict String Json) : Except String (Option (Dict String Json)) :=
  let bytes := (Json.object own).stringify.utf8ByteSize
  if own.isEmpty then .ok none
  else if maxVarsBytes < bytes then
    .error ("vars size (" ++ toString bytes ++ " bytes) exceeds maximum limit of 16 KiB")
  else .ok (some own)

/-- `validateVars`. -/
def validateVars (engine : Engine) : VarsInput → Except String (Option (Dict String Json))
  | .absent => .ok none
  | .entries entries => do checkVars (← assignEntries engine {} entries).own
  | .object members => checkVars members

/-! ## The other options -/

/-- `text && text.trim()` is truthy. -/
def isGiven (text : Option String) : Bool := trim (text.getD "") ≠ ""

/-- `text.length`. -/
def utf16Length (text : String) : ℕ :=
  (text.toList.map fun c => if c.toNat < 0x10000 then 1 else 2).sum

/-- A sample window: the digits of its count, which is printed as it is written, and its
grain. -/
structure SampleWindow where
  count : String
  grain : String
  deriving DecidableEq

/-- `normalized`. -/
def SampleWindow.normalized (window : SampleWindow) : String :=
  window.count ++ " " ++ if window.count = "1" then window.grain else window.grain ++ "s"

/-- `SAMPLE_PATTERN`. -/
def matchSample (text : List Char) : Option SampleWindow :=
  let digits := (text.dropWhile isWhiteSpace).takeWhile Char.isDigit
  let afterDigits := (text.dropWhile isWhiteSpace).dropWhile Char.isDigit
  let word := (afterDigits.dropWhile isWhiteSpace).takeWhile fun c => !isWhiteSpace c
  let afterWord := (afterDigits.dropWhile isWhiteSpace).dropWhile fun c => !isWhiteSpace c
  let singular :=
    if word.getLast? = some 's' ∨ word.getLast? = some 'S' then word.dropLast else word
  let grain := String.ofList (singular.map Char.toLower)
  if digits ≠ [] ∧ digits.length ≤ 6 ∧ digits.head? ≠ some '0' ∧
      (afterDigits.head?.any isWhiteSpace) = true ∧ grain ∈ ["hour", "day", "month", "year"] ∧
      (afterWord.all isWhiteSpace) = true then
    some ⟨String.ofList digits, grain⟩
  else none

/-- `validateSample`. -/
def validateSample (sample : Option String) : Except String (Option SampleWindow) :=
  let trimmed := trim (sample.getD "")
  if isGiven sample = false then .ok none
  else if 32 < utf16Length trimmed then .error "sample must be 32 characters or fewer"
  else
    match matchSample trimmed.toList with
    | some window => .ok (some window)
    | none =>
      .error ("sample must look like '<count> <grain>', grain one of " ++
        "hour, day, month, year (e.g. '3 days')")

/-- `validateEventTime`. -/
def validateEventTime (engine : Engine) (start finish : Option String) :
    Except String (Option (ℤ × ℤ)) :=
  if isGiven start = false ∧ isGiven finish = false then .ok none
  else if isGiven start ≠ isGiven finish then
    .error "event_time_start and event_time_end must be given together"
  else
    match engine.time (trim (start.getD "")), engine.time (trim (finish.getD "")) with
    | none, _ => .error "event_time_start must be a valid ISO 8601 datetime"
    | some _, none => .error "event_time_end must be a valid ISO 8601 datetime"
    | some startDate, some endDate =>
      if endDate ≤ startDate then .error "event_time_start must be before event_time_end"
      else .ok (some (startDate, endDate))

/-- `validateSelectorName`; `SELECTOR_NAME_PATTERN` is the pattern of the runner. -/
def validateSelectorName (name : Option String) : Except String Unit :=
  let trimmed := trim (name.getD "")
  if isGiven name = false then .ok ()
  else if isSelectorName trimmed then .ok ()
  else .error ("Invalid selector name '" ++ trimmed ++ "'")

/-! ## The request -/

/-- The words of `text.trim().split(/\s+/)`; a blank text has none. -/
def words (text : String) : List String :=
  ((text.toList.splitOnP isWhiteSpace).filter (· ≠ [])).map String.ofList

/-- `extractDbtCommandName`. -/
def extractDbtCommandName (command : String) : String :=
  match words command with
  | [] => "run"
  | first :: rest => if first = "dbt" then rest.headD "run" else first

/-- `!cmdName || commands.has(cmdName)`. -/
def offers (command : String) (commands : List String) : Bool :=
  decide (command = "") || decide (extractDbtCommandName command ∈ commands)

/-- A result of a validator, where it is valid. -/
def valid {α : Type} (result : Except String (Option α)) : Option α :=
  match result with
  | .ok found => found
  | .error _ => none

/-- `text` is neither absent nor empty. -/
def isNonempty (text : Option String) : Bool := text.getD "" ≠ ""

section

variable (engine : Engine) (options : RunOptionsState) (command : String)

def payloadVars : Option (Dict String Json) :=
  match options.varEntries with
  | some (first :: rest) => valid (validateVars engine (.entries (first :: rest)))
  | _ => options.vars.filter (!·.isEmpty)

def payloadWindow : Option SampleWindow :=
  if isNonempty options.sample && offers command sampleCommands then
    valid (validateSample options.sample)
  else none

def payloadEventTimes : Option (ℤ × ℤ) :=
  if isNonempty options.eventTimeStart && isNonempty options.eventTimeEnd &&
      offers command eventTimeCommands then
    valid (validateEventTime engine options.eventTimeStart options.eventTimeEnd)
  else none

/-- `buildRunOptionsPayload`. -/
def buildRunOptionsPayload : DbtRunOptionsPayload where
  vars := payloadVars engine options
  empty := options.empty && offers command emptyCommands
  sample := (payloadWindow options command).map SampleWindow.normalized
  eventTimeStart := (payloadEventTimes engine options command).map (·.1)
  eventTimeEnd := (payloadEventTimes engine options command).map (·.2)
  fullRefresh := options.fullRefresh && offers command fullRefreshCommands
  selectorName :=
    if isNonempty options.selectorName && offers command selectorCommands then
      options.selectorName.map trim
    else none
  stateTarget := if isGiven options.stateTarget then options.stateTarget.map trim else none
  defer := isGiven options.stateTarget && options.defer
  favorState := isGiven options.stateTarget && options.defer && options.favorState

end

/-! ## The command text -/

/-- What is left behind `'[^']*'`, `"[^"]*"` or `[^\s]+`. -/
def afterValue : List Char → Option (List Char)
  | [] => none
  | first :: rest =>
    if (first = '\'' ∨ first = '"') ∧ first ∈ rest then some ((rest.dropWhile (· ≠ first)).drop 1)
    else if isWhiteSpace first then none
    else some (rest.dropWhile fun c => !isWhiteSpace c)

/-- What is left behind a match of the pattern of `stripModelSelection` at the beginning. -/
def afterSelection (text : List Char) : Option (List Char) := do
  let flag ← ["--select", "-s"].find? fun flag => flag.toList.isPrefixOf text
  match text.drop flag.length with
  | '=' :: value => afterValue value
  | first :: rest => if isWhiteSpace first then afterValue (rest.dropWhile isWhiteSpace) else none
  | [] => none

/-- A text without the matches; each step takes a character, and `count` is their number. -/
def withoutSelection : (count : ℕ) → List Char → List Char
  | 0, text => text
  | _ + 1, [] => []
  | count + 1, first :: rest =>
    match afterSelection (first :: rest) with
    | some left => withoutSelection count left
    | none => first :: withoutSelection count rest

/-- `stripModelSelection`. -/
def stripModelSelection (command : String) : String :=
  String.intercalate " "
    (words (String.ofList (withoutSelection command.toList.length command.toList)))

example : stripModelSelection "build -s 'a b'  --select=c --selector d" = "build --selector d" := by
  decide +kernel

/-- `buildDbtCommandWithArgs`, without extra arguments. -/
def buildDbtCommandWithArgs (command : String) (target : Option String) : String :=
  let wanted := trim (target.getD "")
  let named := (words command).any fun word => isFlag word "--target" || isFlag word "-t"
  if targetNameFullmatch wanted && !named then command ++ " --target " ++ wanted else command

/-- The command that `handleRunDbt` sends. -/
def sentCommand (engine : Engine) (options : RunOptionsState) (command : String)
    (target : Option String) : String :=
  let payload := buildRunOptionsPayload engine options command
  buildDbtCommandWithArgs
    (if isNonempty payload.selectorName then stripModelSelection command else command) target

end DbtCraft.Web.RunOptions
