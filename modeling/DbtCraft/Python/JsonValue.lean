/-
# JSON values of Python

`json.loads` with the texts as Python has them: code points, among which a lone surrogate may
stand that is written as an escape. Two escapes that are a pair are one code point.
-/

import DbtCraft.Exceptions
import DbtCraft.Python.JsonText

namespace DbtCraft.Python.JsonText

open DbtCraft.Python.Json

/-- A `str`, by its code points. -/
abbrev Codes := List ℕ

/-- The code points of a text. -/
def codesOf (text : List Char) : Codes := text.map Char.toNat

/-- The code points of what is written in a string, two surrogates joined into one. -/
def joinSurrogates : List ℕ → Codes
  | high :: low :: rest =>
    if isPair high low then pairCode high low :: joinSurrogates rest
    else high :: joinSurrogates (low :: rest)
  | codes => codes

inductive JsonValue
  | word (word : Word)
  | number (number : Numeral)
  | str (codes : Codes)
  | list (items : List JsonValue)
  | /-- As the members are written; the last of a name counts. -/
    dict (members : List (Codes × JsonValue))

/-- A string and what stands after it. -/
def scanString : List Char → Option (Codes × List Char)
  | '"' :: text => (readCodes .plain text).map fun found => (joinSurrogates found.1, found.2)
  | _ => none

/-- What is no list and no object. -/
def scanScalar (text : List Char) : Option (JsonValue × List Char) :=
  match scanString text with
  | some (codes, rest) => some (.str codes, rest)
  | none =>
    match readNumber text with
    | some (number, rest) => some (.number number, rest)
    | none => (readWord text).map fun found => (.word found.1, found.2)

mutual

/-- A value, with lists and objects no deeper than the fuel lasts. -/
def scanValue : ℕ → List Char → Option (JsonValue × List Char)
  | 0, _ => none
  | fuel + 1, text =>
    match skipBlanks text with
    | '[' :: rest =>
      match skipBlanks rest with
      | ']' :: rest => some (.list [], rest)
      | _ => (scanItems fuel rest).map fun found => (.list found.1, found.2)
    | '{' :: rest =>
      match skipBlanks rest with
      | '}' :: rest => some (.dict [], rest)
      | _ => (scanMembers fuel rest).map fun found => (.dict found.1, found.2)
    | text => scanScalar text

def scanItems : ℕ → List Char → Option (List JsonValue × List Char)
  | 0, _ => none
  | fuel + 1, text =>
    match scanValue fuel text with
    | none => none
    | some (item, rest) =>
      match skipBlanks rest with
      | ',' :: rest => (scanItems fuel rest).map fun found => (item :: found.1, found.2)
      | ']' :: rest => some ([item], rest)
      | _ => none

def scanMembers : ℕ → List Char → Option (List (Codes × JsonValue) × List Char)
  | 0, _ => none
  | fuel + 1, text =>
    match scanString (skipBlanks text) with
    | none => none
    | some (name, rest) =>
      match skipBlanks rest with
      | ':' :: rest =>
        match scanValue fuel rest with
        | none => none
        | some (value, rest) =>
          match skipBlanks rest with
          | ',' :: rest =>
            (scanMembers fuel rest).map fun found => ((name, value) :: found.1, found.2)
          | '}' :: rest => some ([(name, value)], rest)
          | _ => none
      | _ => none

end

/-- `json.loads(text)`; `none` is a `JSONDecodeError`. -/
def scan (text : List Char) : Option JsonValue :=
  match scanValue text.length text with
  | some (value, rest) => if skipBlanks rest = [] then some value else none
  | none => none

/-- `members.get(name)`. -/
def member (name : String) (members : List (Codes × JsonValue)) : Option JsonValue :=
  (members.reverse.find? fun member => member.1 = codesOf name.toList).map (·.2)

/-- The value is a text. -/
def JsonValue.isText (text : String) : JsonValue → Bool
  | .str codes => codes = codesOf text.toList
  | _ => false

end DbtCraft.Python.JsonText
