/-
# Python values

The values that JSON and YAML documents are read into, and `json.dumps` with the
compact separators and `allow_nan=False`. A float is kept as its `repr` and its integer
part.
-/

import Mathlib.Data.List.Infix
import Mathlib.Data.Int.Notation
import Mathlib.Data.Nat.Notation

namespace DbtCraft.Python

inductive Value
  | none
  | bool (value : Bool)
  | int (value : ℤ)
  | /-- A finite float. -/
    float (repr : String) (trunc : ℤ)
  | /-- An infinity or a NaN. -/
    nonFinite (repr : String)
  | str (text : String)
  | list (items : List Value)
  | /-- The items in insertion order. -/
    dict (items : List (Value × Value))
  | /-- Any other object, as a date, a set or bytes. -/
    object (typeName str : String)

namespace Value

/-- `bool(value)`. -/
def truthy : Value → Bool
  | .none => false
  | .bool value => value
  | .int value => value ≠ 0
  | .float repr _ => repr ≠ "0.0" ∧ repr ≠ "-0.0"
  | .nonFinite _ => true
  | .str text => text ≠ ""
  | .list items => !items.isEmpty
  | .dict items => !items.isEmpty
  | .object _ _ => true

/-- `value or other`. -/
def orElse (value other : Value) : Value := if value.truthy then value else other

/-- Two scalars are equal as keys. -/
def sameKey : Value → Value → Bool
  | .none, .none => true
  | .bool own, .bool other => own = other
  | .int own, .int other => own = other
  | .float own _, .float other _ => own = other
  | .str own, .str other => own = other
  | .object _ own, .object _ other => own = other
  | _, _ => false

/-- The item of a dict under a key. -/
def item (items : List (Value × Value)) (key : Value) : Option Value :=
  (items.find? fun entry => entry.1.sameKey key).map (·.2)

/-- A value is another one, or lies below it in lists and dicts. -/
inductive Within (value : Value) : Value → Prop
  | self : Within value value
  | listItem {items : List Value} {child : Value} (hchild : child ∈ items)
      (hwithin : Within value child) : Within value (.list items)
  | dictItem {items : List (Value × Value)} {item : Value × Value} (hitem : item ∈ items)
      (hwithin : Within value item.2) : Within value (.dict items)

theorem Within.trans {inner middle outer : Value} (hinner : inner.Within middle)
    (hmiddle : middle.Within outer) : inner.Within outer := by
  induction hmiddle with
  | self => exact hinner
  | listItem hchild _ ih => exact .listItem hchild ih
  | dictItem hitem _ ih => exact .dictItem hitem ih

end Value

/-! ## `json.dumps` -/

/-- Four hexadecimal digits. -/
def hexFour (code : ℕ) : List Char :=
  [Nat.digitChar (code / 4096 % 16), Nat.digitChar (code / 256 % 16),
    Nat.digitChar (code / 16 % 16), Nat.digitChar (code % 16)]

/-- A character inside a JSON string, with `ensure_ascii`. -/
def jsonChar (c : Char) : List Char :=
  let code := c.toNat
  if c = '"' then ['\\', '"']
  else if c = '\\' then ['\\', '\\']
  else if c = '\n' then ['\\', 'n']
  else if c = '\r' then ['\\', 'r']
  else if c = '\t' then ['\\', 't']
  else if code = 12 then ['\\', 'f']
  else if code = 8 then ['\\', 'b']
  else if 32 ≤ code ∧ code ≤ 126 then [c]
  else if code < 0x10000 then '\\' :: 'u' :: hexFour code
  else
    -- A character outside the basic plane is written as a surrogate pair.
    let offset := code - 0x10000
    '\\' :: 'u' :: hexFour (0xD800 + offset / 0x400) ++
      '\\' :: 'u' :: hexFour (0xDC00 + offset % 0x400)

def jsonString (text : String) : String :=
  String.ofList ('"' :: text.toList.flatMap jsonChar ++ ['"'])

def jsonBool (value : Bool) : String := if value then "true" else "false"

/-- The text of a `ValueError` of `json.dumps`. -/
def jsonNotCompliant : String := "Out of range float values are not JSON compliant"

/-- A key of an object: `str`, or one that `json.dumps` turns into text. -/
def jsonKey : Value → Except String String
  | .str text => .ok (jsonString text)
  | .none => .ok (jsonString "null")
  | .bool value => .ok (jsonString (jsonBool value))
  | .int value => .ok (jsonString (toString value))
  | .float repr _ => .ok (jsonString repr)
  | .nonFinite _ => .error jsonNotCompliant
  | .list _ => .error "keys must be str, int, float, bool or None, not list"
  | .dict _ => .error "keys must be str, int, float, bool or None, not dict"
  | .object typeName _ =>
    .error ("keys must be str, int, float, bool or None, not " ++ typeName)

mutual

/-- `json.dumps(value, separators=(",", ":"), allow_nan=False)`; an error is the text of
what it raises. -/
def jsonDumps : Value → Except String String
  | .none => .ok "null"
  | .bool value => .ok (jsonBool value)
  | .int value => .ok (toString value)
  | .float repr _ => .ok repr
  | .nonFinite _ => .error jsonNotCompliant
  | .str text => .ok (jsonString text)
  | .list items => do
    let written ← jsonItems items
    return "[" ++ String.intercalate "," written ++ "]"
  | .dict items => do
    let written ← jsonMembers items
    return "\x7b" ++ String.intercalate "," written ++ "\x7d"
  | .object typeName _ => .error ("Object of type " ++ typeName ++ " is not JSON serializable")

def jsonItems : List Value → Except String (List String)
  | [] => .ok []
  | item :: rest => do
    let first ← jsonDumps item
    let others ← jsonItems rest
    return first :: others

def jsonMembers : List (Value × Value) → Except String (List String)
  | [] => .ok []
  | (key, value) :: rest => do
    let name ← jsonKey key
    let written ← jsonDumps value
    let others ← jsonMembers rest
    return (name ++ ":" ++ written) :: others

end

end DbtCraft.Python
