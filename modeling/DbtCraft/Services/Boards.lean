/-
# Boards

`parse_board` of `app/services/boards.py`. A document is loaded, and its parts are checked
one after the other: what is displayed, the variables, the queries.
-/

import DbtCraft.Services.BoardLoader
import DbtCraft.Services.BoardSql

namespace DbtCraft.Services.Boards

open DbtCraft.Python.Yaml
open DbtCraft.Python (Value Dict contains jsonString)
open DbtCraft.Services.BoardSql hiding Node

/-! ## Bounds -/

def maxBytes : ℕ := 2000000

def maxQueries : ℕ := 12

def maxCharts : ℕ := 24

def maxVariables : ℕ := 20

def maxRows : ℕ := 1000

/-- `THEMES`. -/
def themes : List String := ["clarity", "paper", "vivid", "neon", "stark"]

/-- `BLOCKED_KEYS`. -/
def blockedKeys : List String :=
  ["source", "sources", "extends", "ref", "html_policy", "url", "file", "path", "sql", "connection"]

/-- `VARIABLE_INPUTS`. -/
def variableInputs : List String :=
  ["select", "multiselect", "text", "input", "number", "date", "checkbox"]

/-- `VARIABLE_FIELDS`. -/
def variableFields : List String := ["input", "label", "default", "options", "required", "notes"]

/-- What opens a Jinja template. -/
def openers : List String := ["\x7b\x7b", "\x7b%", "\x7b#"]

/-! ## Values -/

abbrev Items := List (Value × Value)

/-- `hash(value)` raises. -/
def unhashable : Value → Bool
  | .list _ | .dict _ => true
  | .object typeName _ => typeName = "set"
  | _ => false

/-- `value in texts`, where `texts` is a set of strings. -/
def inSet (texts : List String) (value : Value) : Except Raised Bool :=
  if unhashable value then .error .typeError
  else
    match value with
    | .str text => .ok (texts.contains text)
    | _ => .ok false

/-- A key is one of these strings. -/
def keyIn (texts : List String) : Value → Bool
  | .str text => texts.contains text
  | _ => false

/-- `str(key)` in a message. -/
def keyName : Value → String
  | .str text => text
  | _ => ""

/-- `dict.get(key)`. -/
def get (items : Items) (key : String) : Option Value := Value.item items (.str key)

/-! ## `_safe_tree` -/

/-- The checks of an item of a dict. -/
def checkItem (key child : Value) : Except Raised Unit :=
  if keyIn blockedKeys key then
    .error (.valueError (keyName key ++
      ": external sources, includes and raw HTML are not enabled in Explore boards"))
  else if keyIn ["theme"] key then
    match inSet themes child with
    | .error raised => .error raised
    | .ok true => .ok ()
    | .ok false =>
      .error (.valueError "Choose a built-in theme: clarity, paper, vivid, neon or stark")
  else .ok ()

/-- The checks of a value that is no dict and no list. -/
def checkLeaf : Value → Except Raised Unit
  | .str text =>
    if openers.any fun token => contains token text then
      .error (.valueError "Templates are only allowed inside SQL queries")
    else .ok ()
  | .object _ _ => .error (.valueError "Only JSON-compatible YAML values are supported")
  | .nonFinite _ => .error (.valueError "Numbers must be finite")
  | _ => .ok ()

/-- The depth that the check goes down to. -/
def checkDepth (depth : ℕ) : Except Raised Unit :=
  if depth > 25 then .error (.valueError "Board nesting exceeds 25 levels") else .ok ()

mutual

/-- `_safe_tree`. -/
def safeTree (depth : ℕ) : Value → Except Raised Unit
  | .dict items => do
    checkDepth depth
    safeItems depth items
  | .list values => do
    checkDepth depth
    safeValues depth values
  | .none => checkDepth depth
  | .bool _ => checkDepth depth
  | .int _ => checkDepth depth
  | .float _ _ => checkDepth depth
  | .nonFinite repr => do
    checkDepth depth
    checkLeaf (.nonFinite repr)
  | .str text => do
    checkDepth depth
    checkLeaf (.str text)
  | .object typeName str => do
    checkDepth depth
    checkLeaf (.object typeName str)

def safeItems (depth : ℕ) : Items → Except Raised Unit
  | [] => .ok ()
  | (key, child) :: rest => do
    checkItem key child
    safeTree (depth + 1) child
    safeItems depth rest

def safeValues (depth : ℕ) : List Value → Except Raised Unit
  | [] => .ok ()
  | child :: rest => do
    safeTree (depth + 1) child
    safeValues depth rest

end

/-! ## `check_queries` -/

/-- The checks of an item of a dict. -/
def checkQueryItem (queries : Items) (key child : Value) : Except Raised Unit :=
  if keyIn ["queries", "variables"] key then
    .error (.valueError "Define queries and variables at the board root only")
  else if keyIn ["query"] key then
    match child with
    | .str name =>
      if (get queries name).isSome then .ok ()
      else .error (.valueError "Every chart query must reference a named board query")
    | _ => .error (.valueError "Every chart query must reference a named board query")
  else .ok ()

mutual

/-- `check_queries`. -/
def checkQueries (queries : Items) : Value → Except Raised Unit
  | .dict items => checkQueryItems queries items
  | .list values => checkQueryValues queries values
  | .none | .bool _ | .int _ | .float _ _ | .nonFinite _ | .str _ | .object _ _ => .ok ()

def checkQueryItems (queries : Items) : Items → Except Raised Unit
  | [] => .ok ()
  | (key, child) :: rest => do
    checkQueryItem queries key child
    checkQueries queries child
    checkQueryItems queries rest

def checkQueryValues (queries : Items) : List Value → Except Raised Unit
  | [] => .ok ()
  | child :: rest => do
    checkQueries queries child
    checkQueryValues queries rest

end

/-! ## Variables -/

/-- `options.static`, when `options` has nothing else. -/
def optionsValid : Value → Bool
  | .dict options =>
    (options.all fun item => keyIn ["static"] item.1) &&
      match get options "static" with
      | none | some (.list _) => true
      | some _ => false
  | _ => false

/-- The checks of one variable. -/
def checkVariable (name : String) : Value → Except Raised Unit
  | .dict spec =>
    match inSet variableInputs ((get spec "input").getD (.str "text")) with
    | .error raised => .error raised
    | .ok false =>
      .error (.valueError ("Variable " ++ name ++
        ": use select, multiselect, text, number, date or checkbox"))
    | .ok true =>
      if spec.all fun item => keyIn variableFields item.1 then
        if optionsValid ((get spec "options").getD (.dict [])) then .ok ()
        else .error (.valueError ("Variable " ++ name ++ ": options must use options.static"))
      else
        .error (.valueError ("Variable " ++ name ++
          ": use explicit static options and filter() in SQL"))
  | _ =>
    .error (.valueError ("Variable " ++ name ++
      ": use select, multiselect, text, number, date or checkbox"))

/-- `defaults`. -/
def defaults (declared : Items) : Bindings :=
  declared.map fun item =>
    (keyName item.1,
      match item.2 with
      | .dict spec => (get spec "default").getD .none
      | _ => .none)

/-! ## Inline queries -/

mutual

/-- The length of `json.dumps(value)`; `none` when an integer has too many digits. -/
def jsonLength : Value → Option ℕ
  | .none => some 4
  | .bool value => some (if value then 4 else 5)
  | .int value =>
    if (toString value.natAbs).length > maxStrDigits then none else some (toString value).length
  | .float repr _ | .nonFinite repr => some repr.length
  | .str text => some (jsonString text).length
  | .list values => (jsonLengths values).map fun lengths =>
    2 + lengths.sum + 2 * (lengths.length - 1)
  | .dict items => (jsonItemLengths items).map fun lengths =>
    2 + lengths.sum + 2 * (lengths.length - 1)
  | .object _ _ => none

def jsonLengths : List Value → Option (List ℕ)
  | [] => some []
  | value :: rest => do
    let first ← jsonLength value
    let others ← jsonLengths rest
    return first :: others

def jsonItemLengths : Items → Option (List ℕ)
  | [] => some []
  | (key, value) :: rest => do
    let first ← jsonLength value
    let others ← jsonItemLengths rest
    return ((jsonString (keyName key)).length + 2 + first) :: others

end

/-- The names in a list of strings. -/
def columnNames : List Value → Option (List String)
  | [] => some []
  | .str text :: rest => (columnNames rest).map (text :: ·)
  | _ :: _ => none

/-- The shape of an inline query. -/
def inlineShape (query : Value) : Except Raised Unit :=
  match query with
  | .dict items =>
    match get items "columns", get items "values" with
    | some columns, some values =>
      if items.all fun item => keyIn ["columns", "values", "notes"] item.1 then
        match columns with
        | .list cells =>
          match columnNames cells with
          | some names =>
            if 1 ≤ names.length ∧ names.length ≤ 80 ∧ names.Nodup then
              match values with
              | .list rows =>
                if rows.length ≤ maxRows ∧ (rows.all fun row =>
                    match row with
                    | .list entries => entries.length = names.length
                    | _ => false) then .ok ()
                else .error rowsInvalid
              | _ => .error rowsInvalid
            else .error columnsInvalid
          | none => .error columnsInvalid
        | _ => .error columnsInvalid
      else .error notInline
    | _, _ => .error notInline
  | _ => .error notInline
where
  notInline : Raised := .valueError
    "Use a SQL string or inline columns/values, not paths or connection settings"
  columnsInvalid : Raised := .valueError "Inline query needs 1–80 unique column names"
  rowsInvalid : Raised := .valueError "Inline query needs up to 1,000 rows matching the column count"

/-- `len(json.dumps(query).encode()) > MAX_BYTES`. -/
def checkLength (query : Value) : Except Raised Unit :=
  match jsonLength query with
  | none => .error tooManyDigits
  | some length =>
    if length > maxBytes then .error (.valueError "Query result exceeds 2 MB") else .ok ()

/-- `_inline`. -/
def inline (query : Value) : Except Raised Unit := do
  inlineShape query
  safeTree 0 query
  checkLength query

/-! ## `parse_board` -/

/-- What the libraries do: PyYAML, Jinja and sqlglot. -/
structure Libraries where
  reader : Reader
  engine : Engine
  /-- sqlglot raises something else than its own errors on a statement. -/
  crash : String → Option Raised

variable (libraries : Libraries)

/-- The template of a query, when it is read. -/
def sqlNodes (sql : String) : Option (List BoardSql.Node) :=
  if sql.length > 100000 ∨ contains "\x7b%" sql ∨ contains "\x7b#" sql ∨ contains refMarker sql then
    none
  else (libraries.engine.parse sql).bind fun tree => (outputNodes tree).toOption

/-- The statement that sqlglot comes to read. -/
def preparedText (bindings : Bindings) (sql : String) : Option String :=
  (sqlNodes libraries sql).bind fun nodes =>
    (joinParts libraries.engine bindings [] nodes).toOption.map (·.1)

/-- `prepare_sql`, with what sqlglot may raise. -/
def prepare (bindings : Bindings) (sql : String) : Except Raised String :=
  match (preparedText libraries bindings sql).bind libraries.crash with
  | some raised => .error raised
  | none => prepareSql libraries.engine bindings sql

/-- The checks of a query, with its name in the message. -/
def checkQuery (bindings : Bindings) (name : String) (query : Value) : Except Raised Unit :=
  let checked :=
    match query with
    | .str sql => (prepare libraries bindings sql).map fun _ => ()
    | other => inline other
  match checked with
  | .error (.valueError message) => .error (.valueError ("Query " ++ name ++ ": " ++ message))
  | other => other

/-- The check of a query by itself. -/
def queryChecked (bindings : Bindings) : Value → Except Raised Unit
  | .str sql => (prepare libraries bindings sql).map fun _ => ()
  | other => inline other

/-- A message that names the query. -/
def namedError (name : String) : Raised → Raised
  | .valueError message => .valueError ("Query " ++ name ++ ": " ++ message)
  | other => other

theorem checkQuery_eq (bindings : Bindings) (name : String) (query : Value) :
    checkQuery libraries bindings name query =
      (queryChecked libraries bindings query).mapError (namedError name) := by
  unfold checkQuery
  dsimp only
  have hchecked : (queryChecked libraries bindings query) = _ := queryChecked.eq_def _ _ _
  rw [← hchecked]
  cases queryChecked libraries bindings query with
  | ok _ => rfl
  | error raised => cases raised <;> rfl

/-- What `parse_board` makes of what the loader raises. -/
def loadError : LoadError → Raised
  | .yaml line problem => .valueError ("Line " ++ toString line ++ ": " ++ problem)
  | .other .recursionError => .valueError "Board nesting is too deep"
  | .other raised => raised

/-- What is displayed. -/
def display (board : Items) : Items :=
  board.filter fun item => !keyIn ["queries", "variables"] item.1

/-- A section that is a dict. -/
def section? (board : Items) (name : String) : Option Items :=
  match get board name with
  | some (.dict items) => some items
  | some _ => none
  | none => some []

/-- The named queries. -/
def boardQueries (board : Items) : Except Raised Items :=
  match section? board "queries" with
  | some queries =>
    if 1 ≤ queries.length ∧ queries.length ≤ maxQueries then .ok queries
    else .error (.valueError "Define between 1 and 12 named queries")
  | none => .error (.valueError "Define between 1 and 12 named queries")

def checkCharts (board : Items) : Except Raised Unit :=
  match get board "charts" with
  | some (.dict charts) =>
    if 1 ≤ charts.length ∧ charts.length ≤ maxCharts then
      if charts.all fun item =>
          match item.2 with
          | .dict _ => true
          | _ => false then .ok ()
      else
        .error (.valueError
          "Define chart objects inline; cross-file chart references are not enabled")
    else .error (.valueError "Define between 1 and 24 named charts")
  | _ => .error (.valueError "Define between 1 and 24 named charts")

def boardVariables (board : Items) : Except Raised Items :=
  match section? board "variables" with
  | some declared =>
    if declared.length ≤ maxVariables then .ok declared
    else .error (.valueError "Define up to 20 variables")
  | none => .error (.valueError "Define up to 20 variables")

/-- The checks of a board that has been loaded. -/
def checkBoard (board : Items) : Except Raised Unit := do
  let queries ← boardQueries board
  checkCharts board
  safeTree 0 (.dict (display board))
  checkQueries queries (.dict (display board))
  let declared ← boardVariables board
  safeTree 0 (.dict declared)
  declared.forM fun item => checkVariable (keyName item.1) item.2
  queries.forM fun item => checkQuery libraries (defaults declared) (keyName item.1) item.2

/-- `parse_board`. -/
def parseBoard (content : String) : Except Raised Items :=
  if content.utf8ByteSize > maxBytes then .error (.valueError "Board exceeds 2 MB")
  else
    match load libraries.reader content with
    | .error error => .error (loadError error)
    | .ok (.dict board) => (checkBoard libraries board).map fun _ => board
    | .ok _ => .error (.valueError "Line 1: a board must be a YAML mapping")

/-! ## Libraries that read one text -/

/-- What is never read is no collection. -/
theorem isScalar_of_unread : ∀ {tag : AtomTag} {text : String} {value : Value},
    (fun (_ : AtomTag) (_ : String) => (.error (.yaml 1 "invalid") : Except LoadError Value))
      tag text = .ok value → isScalar value = true := by
  intro tag text value hread
  cases hread

theorem quote_unread : (fun _ : Char => (none : Option ℕ)) '\'' = none := rfl

end DbtCraft.Services.Boards
