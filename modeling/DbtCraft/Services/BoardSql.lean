/-
# SQL of boards

`_literal` and `prepare_sql` of `app/services/boards.py`: a template is read by Jinja,
its expressions become literals, filters and markers of references, the statement is
checked by sqlglot, and the markers become references again. Jinja, sqlglot and the
Unicode classes of `re` answer through `Engine`.
-/

import Mathlib.Algebra.Group.Nat.Defs
import DbtCraft.Exceptions
import DbtCraft.Python.Dict
import DbtCraft.Python.Text
import DbtCraft.Python.Value
import DbtCraft.Sql.Marks

namespace DbtCraft.Services.BoardSql

open DbtCraft.Python

/-- A node of a Jinja template. -/
inductive Node
  | data (text : String)
  | name (name : String)
  | const (value : Value)
  | getattr (node : Node) (attr : String)
  | /-- `plain` when it has no keyword, starred or double-starred arguments. -/
    call (node : Node) (args : List Node) (plain : Bool)
  | other

/-- A statement of a Jinja template. -/
inductive Statement
  | output (nodes : List Node)
  | other

structure Engine where
  /-- `Environment().parse`; `none` is an exception. -/
  parse : String → Option (List Statement)
  /-- The checks on what sqlglot has parsed; an error is the text of a `ValueError`. -/
  validate : String → Except String Unit
  /-- `\w`. -/
  isWord : Char → Bool
  /-- `\d`, with the value of the digit. -/
  digit : Char → Option ℕ
  quote_not_word : isWord '\'' = false
  quote_not_digit : digit '\'' = none

/-- What the variables are bound to. -/
abbrev Bindings := Dict String Value

/-- The integers that `math.isfinite` can turn into a float. -/
def floatBound : ℕ := 2 ^ 1024 - 2 ^ 970

def invalidValue : Raised := .valueError "Invalid filter value"

/-- A text that `_literal` accepts. -/
def literalText (text : String) : Bool :=
  decide (text.length ≤ 2000) &&
    ! ["\x7b\x7b", "\x7b%", "\x7b#", "\\", "\x00"].any fun token => contains token text

/-- `_literal`. -/
def literal : Value → Except Raised String
  | .none => .ok "NULL"
  | .bool value => .ok (if value then "TRUE" else "FALSE")
  | .int value => if value.natAbs < floatBound then .ok (toString value) else .error .overflowError
  | .float repr _ => .ok repr
  | .str text =>
    if literalText text then .ok (String.ofList (Sql.quoted text.toList)) else .error invalidValue
  | .nonFinite _ | .list _ | .dict _ | .object _ _ => .error invalidValue

/-- The function that a call names. -/
def functionName : Node → Option String
  | .name name => some name
  | .getattr (.name "adapter") "quote" => some "adapter.quote"
  | _ => none

/-- The arguments of a reference. -/
def literalNames : List Node → Option (List String)
  | [] => some []
  | .const (.str text) :: rest =>
    if text.length ≤ 200 then (literalNames rest).map (text :: ·) else none
  | _ :: _ => none

def argumentCounts (fn : String) : List ℕ :=
  if fn = "ref" then [1, 2] else if fn = "source" then [2] else [1]

/-- A reference, as it stands in the prepared statement. -/
def reference (fn : String) (args : List String) : String :=
  "\x7b\x7b " ++ fn ++ "(" ++ String.intercalate ", " (args.map jsonString) ++ ") \x7d\x7d"

/-- The marker of a reference. -/
def refMarker : String := "__board_ref_"

/-- The letters of a column identifier. -/
def isIdentifierStart (c : Char) : Bool := c.isAlpha || c = '_'

/-- A run of identifiers between dots, after its first letter. -/
def isColumnRest (engine : Engine) : List Char → Bool
  | [] => true
  | ['.'] => false
  | '.' :: c :: rest => isIdentifierStart c && isColumnRest engine rest
  | c :: rest => engine.isWord c && isColumnRest engine rest

/-- The pattern of a column in `filter()`. -/
def isColumn (engine : Engine) (column : String) : Bool :=
  match column.toList with
  | [] => false
  | c :: rest => isIdentifierStart c && isColumnRest engine rest

variable (engine : Engine) (bindings : Bindings)

/-- `filter(column, value)`. -/
def filterText (column : String) : Value → Except Raised String
  | .none | .list [] | .str "" => .ok "1 = 1"
  | .list items =>
    if items.length > 100 then .error (.valueError "Select at most 100 filter values")
    else (items.mapM literal).map fun texts =>
      column ++ " IN (" ++ String.intercalate ", " texts ++ ")"
  | value => (literal value).map fun text => column ++ " = " ++ text

/-- A call of one of the functions. -/
def callText (refs : List String) (node : Node) (args : List Node) :
    Except Raised (String × List String) :=
  match functionName node with
  | none => .error (.valueError "Unsupported SQL template function")
  | some fn =>
    if fn ∈ ["ref", "source", "adapter.quote"] then
      match literalNames args with
      | none => .error (.valueError "dbt references require literal names")
      | some names =>
        if names.length ∈ argumentCounts fn then
          .ok (refMarker ++ toString refs.length, refs ++ [reference fn names])
        else .error (.valueError "Invalid dbt reference arguments")
    else if fn = "filter" then
      match args with
      | [.const column, .name variable'] =>
        match column, bindings.get variable' with
        | .str column, some value =>
          if isColumn engine column then (filterText column value).map fun text => (text, refs)
          else
            .error (.valueError "filter() needs a column identifier and a declared variable")
        | _, _ =>
          .error (.valueError "filter() needs a column identifier and a declared variable")
      | _ => .error (.valueError "Unsupported SQL template function")
    else .error (.valueError "Unsupported SQL template function")

/-- What `expression` raises for anything else than a call. -/
def notAllowed : Raised :=
  .valueError "Only ref(), source(), adapter.quote(), variables and filter() are allowed"

/-- `expression`: the text of a node, with the references found so far. -/
def expression (refs : List String) : Node → Except Raised (String × List String)
  | .name name =>
    match bindings.get name with
    | some value => (literal value).map fun text => (text, refs)
    | none => .error notAllowed
  | .call node args plain => if plain then callText engine bindings refs node args else .error notAllowed
  | _ => .error notAllowed

/-- The part of a node of an output. -/
def part (refs : List String) : Node → Except Raised (String × List String)
  | .data text => .ok (text, refs)
  | node => expression engine bindings refs node

/-- `parts`, joined, with all references. -/
def joinParts (refs : List String) : List Node → Except Raised (String × List String)
  | [] => .ok ("", refs)
  | node :: rest => do
    let (text, found) ← part engine bindings refs node
    let (texts, all) ← joinParts found rest
    return (text ++ texts, all)

/-- The nodes of the outputs. -/
def outputNodes : List Statement → Except Raised (List Node)
  | [] => .ok []
  | .output nodes :: rest => (outputNodes rest).map (nodes ++ ·)
  | .other :: _ => .error (.valueError "Unsupported SQL template statement")

/-! ## References -/

/-- What follows a text at the start of another one. -/
def after : List Char → List Char → Option (List Char)
  | [], text => some text
  | _ :: _, [] => none
  | c :: start, d :: text => if c = d then after start text else none

/-- The digits at the start of a text. -/
def leadingDigits : List Char → List ℕ
  | [] => []
  | c :: rest =>
    match engine.digit c with
    | some value => value :: leadingDigits rest
    | none => []

/-- `__board_ref_(\d+)\b` at the start of a text: the number, and the length of the match.
Digits are words, so the run of digits ends at the boundary. -/
def matchRef (text : List Char) : Option (ℕ × ℕ) :=
  match after refMarker.toList text with
  | none => none
  | some rest =>
    let digits := leadingDigits engine rest
    if digits = [] ∨ (rest.drop digits.length).head?.any engine.isWord = true then none
    else
      some (digits.foldl (fun total digit => 10 * total + digit) 0,
        refMarker.toList.length + digits.length)

/-- The digits that `int` reads at most. -/
def maxStrDigits : ℕ := 4300

/-- What `int` raises for longer texts. -/
def tooManyDigits : Raised :=
  .valueError "Exceeds the limit (4300 digits) for integer string conversion"

/-- `re.sub` over a text of which some characters have been matched already. -/
def substituteRefs (refs : List String) : ℕ → List Char → Except Raised (List Char)
  | _, [] => .ok []
  | matched + 1, _ :: rest => substituteRefs refs matched rest
  | 0, c :: rest =>
    match matchRef engine (c :: rest) with
    | none => (substituteRefs refs 0 rest).map (c :: ·)
    | some (number, length) =>
      if maxStrDigits + refMarker.length < length then .error tooManyDigits
      else
        match refs[number]? with
        | none => .error .indexError
        | some ref => (substituteRefs refs (length - 1) rest).map (ref.toList ++ ·)

/-- The end of `prepare_sql`. -/
def finishSql (refs : List String) (prepared : String) : Except Raised String :=
  match engine.validate prepared with
  | .error text => .error (.valueError text)
  | .ok _ =>
    if refs = [] then .ok prepared
    else (substituteRefs engine refs 0 prepared.toList).map String.ofList

/-- `prepare_sql`. -/
def prepareSql (sql : String) : Except Raised String :=
  if sql.length > 100000 ∨ contains "\x7b%" sql ∨ contains "\x7b#" sql ∨ contains refMarker sql then
    .error (.valueError "SQL is too large or contains unsupported template statements")
  else
    match engine.parse sql with
    | none => .error (.valueError "Invalid SQL template")
    | some tree =>
      match outputNodes tree with
      | .error raised => .error raised
      | .ok nodes =>
        match joinParts engine bindings [] nodes with
        | .error raised => .error raised
        | .ok (prepared, refs) => finishSql engine refs prepared

end DbtCraft.Services.BoardSql
