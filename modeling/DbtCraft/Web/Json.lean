/-
# JSON values of the browser

What `JSON.parse` gives, the text `JSON.stringify` makes of it, and the Python value that
`json.loads` reads from that text.
-/

import DbtCraft.Python.Value

namespace DbtCraft.Web

open DbtCraft.Python

/-- A finite number: how `JSON.stringify` writes it, and what Python reads from that. -/
structure Number where
  text : String
  read : Value
  finite : (∃ value, read = .int value) ∨ ∃ repr trunc, read = .float repr trunc

inductive Json
  | null
  | bool (value : Bool)
  | number (value : Number)
  | /-- `JSON.parse` reads numbers that are too large as infinite. -/
    infinite
  | string (text : String)
  | array (items : List Json)
  | /-- The own properties; the place of a name among them has no meaning. -/
    object (members : List (String × Json))

namespace Json

/-- A character inside a JSON string, which only control characters change. -/
def escaped (c : Char) : List Char :=
  let code := c.toNat
  if c = '"' then ['\\', '"']
  else if c = '\\' then ['\\', '\\']
  else if c = '\n' then ['\\', 'n']
  else if c = '\r' then ['\\', 'r']
  else if c = '\t' then ['\\', 't']
  else if code = 12 then ['\\', 'f']
  else if code = 8 then ['\\', 'b']
  else if code < 32 then '\\' :: 'u' :: hexFour code
  else [c]

def quoted (text : String) : String :=
  String.ofList ('"' :: text.toList.flatMap escaped ++ ['"'])

mutual

/-- `JSON.stringify`. -/
def stringify : Json → String
  | .null | .infinite => "null"
  | .bool value => jsonBool value
  | .number value => value.text
  | .string text => quoted text
  | .array items => "[" ++ String.intercalate "," (stringifyItems items) ++ "]"
  | .object members => "\x7b" ++ String.intercalate "," (stringifyMembers members) ++ "\x7d"

def stringifyItems : List Json → List String
  | [] => []
  | item :: rest => stringify item :: stringifyItems rest

def stringifyMembers : List (String × Json) → List String
  | [] => []
  | (name, value) :: rest => (quoted name ++ ":" ++ stringify value) :: stringifyMembers rest

end

mutual

/-- `json.loads` of `JSON.stringify`. -/
def read : Json → Value
  | .null | .infinite => .none
  | .bool value => .bool value
  | .number value => value.read
  | .string text => .str text
  | .array items => .list (readItems items)
  | .object members => .dict (readMembers members)

def readItems : List Json → List Value
  | [] => []
  | item :: rest => read item :: readItems rest

def readMembers : List (String × Json) → List (Value × Value)
  | [] => []
  | (name, value) :: rest => (.str name, read value) :: readMembers rest

end

mutual

/-- Python writes whatever the browser has sent. -/
theorem exists_jsonDumps (value : Json) : ∃ text, jsonDumps value.read = .ok text := by
  cases value with
  | null | infinite => exact ⟨_, rfl⟩
  | bool value => exact ⟨_, rfl⟩
  | number value =>
    rcases value.finite with ⟨number, hread⟩ | ⟨repr, trunc, hread⟩
    · exact ⟨_, by rw [read, hread, jsonDumps]⟩
    · exact ⟨_, by rw [read, hread, jsonDumps]⟩
  | string text => exact ⟨_, rfl⟩
  | array items =>
    obtain ⟨texts, htexts⟩ := exists_jsonItems items
    exact ⟨_, by rw [read, jsonDumps, htexts]; rfl⟩
  | object members =>
    obtain ⟨texts, htexts⟩ := exists_jsonMembers members
    exact ⟨_, by rw [read, jsonDumps, htexts]; rfl⟩

theorem exists_jsonItems (items : List Json) :
    ∃ texts, jsonItems (readItems items) = .ok texts := by
  cases items with
  | nil => exact ⟨_, rfl⟩
  | cons item rest =>
    obtain ⟨text, htext⟩ := exists_jsonDumps item
    obtain ⟨texts, htexts⟩ := exists_jsonItems rest
    exact ⟨_, by rw [readItems, jsonItems, htext, htexts]; rfl⟩

theorem exists_jsonMembers (members : List (String × Json)) :
    ∃ texts, jsonMembers (readMembers members) = .ok texts := by
  cases members with
  | nil => exact ⟨_, rfl⟩
  | cons member rest =>
    obtain ⟨text, htext⟩ := exists_jsonDumps member.2
    obtain ⟨texts, htexts⟩ := exists_jsonMembers rest
    exact ⟨_, by rw [readMembers, jsonMembers, jsonKey, htext, htexts]; rfl⟩

end

end Json

end DbtCraft.Web
