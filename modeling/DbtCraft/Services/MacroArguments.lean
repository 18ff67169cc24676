/-
# The arguments of a macro

`_split_top_level` and `macro_signature` of `app/services/dbt_cli.py`, which read the names and
the defaults of a macro's arguments off its text, and the definition of a macro as Jinja reads it.
-/

import DbtCraft.Python.Cutting
import DbtCraft.Python.Splitting

namespace DbtCraft.Services.MacroArguments

open DbtCraft.Python

/-! ## The parser -/

/-- `depth` and `quote` of `_split_top_level`. -/
structure Track where
  depth : ℤ
  quote : Option Char
deriving DecidableEq

def Track.step (track : Track) (c : Char) : Track :=
  match track.quote with
  | some quote => if c = quote then ⟨track.depth, none⟩ else track
  | none =>
    if c ∈ ['\'', '"'] then ⟨track.depth, some c⟩
    else if c ∈ ['(', '[', '{'] then ⟨track.depth + 1, none⟩
    else if c ∈ [')', ']', '}'] then ⟨track.depth - 1, none⟩
    else track

/-- How `_split_top_level` follows a text: a quote in a string always ends it. -/
def blind : Tracker Track Char where
  start := ⟨0, none⟩
  step := Track.step
  separator := ','
  step_separator := by decide

/-- `_split_top_level`. -/
def splitTopLevel (text : List Char) : List (List Char) :=
  let (parts, current) := blind.cut blind.start [] text
  if stripped current ≠ [] then parts ++ [current] else parts

/-- An entry of a signature. -/
structure Parameter where
  name : List Char
  default : Option (List Char)
deriving DecidableEq

/-- The entry for a part: `part.partition("=")`, stripped. -/
def parameterOf (part : List Char) : Option Parameter :=
  let name := stripped (part.takeWhile (· ≠ '='))
  let default := stripped ((part.dropWhile (· ≠ '=')).drop 1)
  if name = [] then none else some ⟨name, if default = [] then none else some default⟩

/-- What stands behind a word. -/
def afterWord : (word : List Char) → List Char → Option (List Char)
  | [], text => some text
  | _ :: _, [] => none
  | d :: word, c :: text => if c = d then afterWord word text else none

/-- What stands behind a match of the pattern at the beginning of a text. A name has no white
space, so that none of it has to be given back. -/
def afterOpening (name text : List Char) : Option (List Char) := do
  let text ← afterWord ['{', '%'] text
  let text := (afterWord ['-'] text).getD text
  let text ← afterWord ['m', 'a', 'c', 'r', 'o'] (text.dropWhile isSpace)
  if (text.head?.any isSpace) = true then
    let text ← afterWord name (text.dropWhile isSpace)
    afterWord ['('] (text.dropWhile isSpace)
  else
    none

/-- `re.search`: what stands behind the first match. -/
def search (name : List Char) : List Char → Option (List Char)
  | [] => none
  | c :: rest =>
    match afterOpening name (c :: rest) with
    | some found => some found
    | none => search name rest

/-- `macro_sql[start:index]`, up to the parenthesis that closes the list. -/
def inner : (depth : ℕ) → List Char → Option (List Char)
  | _, [] => none
  | depth, c :: rest =>
    if c = '(' then (inner (depth + 1) rest).map (c :: ·)
    else if c = ')' then
      if depth = 1 then some [] else (inner (depth - 1) rest).map (c :: ·)
    else (inner depth rest).map (c :: ·)

/-- `macro_signature`. -/
def macroSignature (macroSql name : List Char) : List Parameter :=
  match search name macroSql with
  | none => []
  | some rest =>
    match inner 1 rest with
    | none => []
    | some inner => (splitTopLevel inner).filterMap parameterOf

/-! ## What Jinja reads -/

/-- Where a reader of an expression stands: the brackets that are to be closed, the string that is
open, and whether a backslash has just been read in it. -/
structure Reading where
  brackets : List Char
  quote : Option Char
  escaped : Bool
deriving DecidableEq

/-- The bracket that closes a bracket. -/
def closerOf (c : Char) : Option Char :=
  if c = '(' then some ')' else if c = '[' then some ']' else if c = '{' then some '}' else none

def Reading.step (reading : Reading) (c : Char) : Option Reading :=
  match reading.quote with
  | some quote =>
    if reading.escaped = true then some ⟨reading.brackets, some quote, false⟩
    else if c = '\\' then some ⟨reading.brackets, some quote, true⟩
    else if c = quote then some ⟨reading.brackets, none, false⟩
    else some reading
  | none =>
    if c ∈ ['\'', '"'] then some ⟨reading.brackets, some c, false⟩
    else match closerOf c with
      | some closer => some ⟨closer :: reading.brackets, none, false⟩
      | none =>
        if c ∈ [')', ']', '}'] then
          match reading.brackets with
          | closer :: outer => if c = closer then some ⟨outer, none, false⟩ else none
          | [] => none
        else some reading

/-- How Jinja follows an expression; `none` where its brackets do not match. -/
def jinja : Tracker (Option Reading) Char where
  start := some ⟨[], none, false⟩
  step reading c := reading.bind fun reading => reading.step c
  separator := ','
  step_separator := by decide

/-- White space. -/
structure Blank where
  text : List Char
  blank : ∀ c ∈ text, isSpace c = true

/-- A letter of a name: no white space and no mark. -/
def isPlain (c : Char) : Bool :=
  !isSpace c && !(['\'', '"', '(', '[', '{', ')', ']', '}', ',', '='].contains c)

/-- The name of a macro or of an argument. -/
structure Name where
  text : List Char
  ne_nil : text ≠ []
  plain : ∀ c ∈ text, isPlain c = true

/-- The source text of a default, in which strings and brackets are complete and no comma stands
outside of them. -/
structure Source where
  text : List Char
  ne_nil : text ≠ []
  trimmed : Trimmed text
  closed : jinja.Closed text

/-- A default, with the white space on its sides. -/
structure Default where
  before : Blank
  source : Source
  after : Blank

/-- An argument of a macro. -/
structure Argument where
  before : Blank
  name : Name
  after : Blank
  default : Option Default

def Default.text (default : Default) : List Char :=
  '=' :: (default.before.text ++ (default.source.text ++ default.after.text))

def Argument.text (argument : Argument) : List Char :=
  argument.before.text ++ (argument.name.text ++ argument.after.text) ++
    (argument.default.map Default.text).getD []

/-- The name of an argument and the source text of its default. -/
def Argument.parameter (argument : Argument) : Parameter :=
  ⟨argument.name.text, argument.default.map fun default => default.source.text⟩

/-- A list of arguments. -/
inductive ArgumentList
  | empty (blank : Blank)
  | filled (first : Argument) (others : List Argument)

def ArgumentList.arguments : ArgumentList → List Argument
  | .empty _ => []
  | .filled first others => first :: others

def ArgumentList.text : ArgumentList → List Char
  | .empty blank => blank.text
  | .filled first others => [','].intercalate ((first :: others).map Argument.text)

/-- The beginning of a tag. -/
inductive Opening
  | bare
  | dash
  | plus
deriving DecidableEq

def Opening.text : Opening → List Char
  | .bare => ['{', '%']
  | .dash => ['{', '%', '-']
  | .plus => ['{', '%', '+']

/-- The definition of a macro, with all that follows its arguments. -/
structure MacroDefinition where
  opening : Opening
  before : Blank
  gap : Blank
  gap_ne_nil : gap.text ≠ []
  name : Name
  after : Blank
  list : ArgumentList
  rest : List Char

/-- The text of a definition from the list of its arguments on. -/
def MacroDefinition.tail (definition : MacroDefinition) : List Char :=
  definition.list.text ++ ')' :: definition.rest

def MacroDefinition.text (definition : MacroDefinition) : List Char :=
  definition.opening.text ++ (definition.before.text ++ (['m', 'a', 'c', 'r', 'o'] ++
    (definition.gap.text ++ (definition.name.text ++ (definition.after.text ++
      '(' :: definition.tail)))))

end DbtCraft.Services.MacroArguments
