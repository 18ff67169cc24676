/-
# YAML documents

PyYAML in three stages: events, nodes with resolved tags, values. The scanner and the
parser answer through `Reader`, and so do the constructors of numbers, dates and bytes.
-/

import Mathlib.Tactic.Common
import DbtCraft.Exceptions
import DbtCraft.Python.Value

namespace DbtCraft.Python.Yaml

/-- The tags whose constructors of `SafeConstructor` read the text of a scalar. -/
inductive AtomTag
  | null
  | bool
  | int
  | float
  | binary
  | timestamp
  | str
  deriving DecidableEq

/-- The tags whose constructors yield an empty collection, which is filled later. -/
inductive CollectionTag
  | omap
  | pairs
  | set
  | seq
  | map
  deriving DecidableEq

inductive Tag
  | atom (tag : AtomTag)
  | collection (tag : CollectionTag)
  | /-- A tag without a constructor. -/
    other (name : String)
  deriving DecidableEq

/-- The tag of a plain `=`. -/
def Tag.value : Tag := .other "tag:yaml.org,2002:value"

def Tag.isCollection : Tag → Bool
  | .collection _ => true
  | .atom _ | .other _ => false

/-- What `yaml.load` raises. -/
inductive LoadError
  | /-- `YAMLError`, with the line of its mark. -/
    yaml (line : ℕ) (problem : String)
  | other (raised : Raised)
  deriving DecidableEq

/-- What the parser gives, nested as it comes. Lines are counted from one. -/
inductive Event
  | scalar (line : ℕ) (tag : Tag) (value : String)
  | sequence (line : ℕ) (tag : Tag) (items : List Event)
  | mapping (line : ℕ) (tag : Tag) (pairs : List (Event × Event))
  | alias
  | /-- Here the scanner, the parser or the composer raises. -/
    failure (error : LoadError)

structure Stream where
  /-- The first document, if there is one. -/
  root : Option Event
  /-- What is raised after it. -/
  ending : Option LoadError

/-- What the composer gives. -/
inductive Node
  | scalar (line : ℕ) (tag : Tag) (value : String)
  | sequence (line : ℕ) (tag : Tag) (items : List Node)
  | mapping (line : ℕ) (tag : Tag) (pairs : List (Node × Node))

namespace Node

def line : Node → ℕ
  | .scalar line _ _ | .sequence line _ _ | .mapping line _ _ => line

def tag : Node → Tag
  | .scalar _ tag _ | .sequence _ tag _ | .mapping _ tag _ => tag

/-- `node.id`. -/
def id : Node → String
  | .scalar .. => "scalar"
  | .sequence .. => "sequence"
  | .mapping .. => "mapping"

end Node

/-- A value that is no list and no dict. -/
def isScalar : Value → Bool
  | .list _ | .dict _ => false
  | _ => true

structure Reader where
  parse : String → Stream
  /-- The constructors of `!!int`, `!!float`, `!!binary` and `!!timestamp`. -/
  read : AtomTag → String → Except LoadError Value
  scalar_of_read : ∀ {tag : AtomTag} {text : String} {value : Value},
    read tag text = .ok value → isScalar value = true

/-! ## Scalars -/

mutual

/-- `construct_scalar`: a mapping stands for the value of its first key `=`. -/
def constructScalar : Node → Except LoadError String
  | .scalar _ _ value => .ok value
  | .sequence line _ _ => .error (.yaml line "expected a scalar node, but found sequence")
  | .mapping line _ pairs => constructScalarIn line pairs

def constructScalarIn (line : ℕ) : List (Node × Node) → Except LoadError String
  | [] => .error (.yaml line "expected a scalar node, but found mapping")
  | (key, value) :: rest =>
    if key.tag = .value then constructScalar value else constructScalarIn line rest

end

/-- `construct_yaml_bool`. -/
def constructBool (text : String) : Except LoadError Value :=
  let word := String.ofList (text.toList.map Char.toLower)
  if word ∈ ["yes", "true", "on"] then .ok (.bool true)
  else if word ∈ ["no", "false", "off"] then .ok (.bool false)
  else .error (.other .keyError)

/-- The constructor of a tag, with the text of the node. -/
def constructAtom (reader : Reader) (node : Node) (text : String) :
    AtomTag → Except LoadError Value
  | .null => .ok .none
  | .str => .ok (.str text)
  | .bool => constructBool text
  | .timestamp =>
    match node with
    | .scalar .. => reader.read .timestamp text
    -- The pattern is matched against the value of the node, which is a list here.
    | _ => .error (.other .typeError)
  | .int => reader.read .int text
  | .float => reader.read .float text
  | .binary => reader.read .binary text

/-- `construct_object`; `none` is a collection that is still to be filled. -/
def constructObject (reader : Reader) (node : Node) : Except LoadError (Option Value) :=
  match node.tag with
  | .collection _ => .ok none
  | .atom tag =>
    match constructScalar node with
    | .error error => .error error
    | .ok text => (constructAtom reader node text tag).map some
  | .other name =>
    .error (.yaml node.line ("could not determine a constructor for the tag '" ++ name ++ "'"))

variable {reader : Reader} {node : Node}

theorem constructObject_eq_none :
    constructObject reader node = .ok none ↔ node.tag.isCollection = true := by
  unfold constructObject Tag.isCollection
  cases node.tag with
  | collection tag => exact iff_of_true rfl rfl
  | other name => exact iff_of_false (fun hsame => by cases hsame) Bool.false_ne_true
  | atom tag =>
    apply iff_of_false _ Bool.false_ne_true
    cases constructScalar node with
    | error error =>
      intro hsame
      cases hsame
    | ok text =>
      intro hsame
      obtain ⟨value, -, hsome⟩ := map_eq_ok.mp hsame
      cases hsome

/-- What is constructed at once is no collection. -/
theorem isScalar_of_constructObject {value : Value}
    (hvalue : constructObject reader node = .ok (some value)) : isScalar value = true := by
  unfold constructObject at hvalue
  cases htag : node.tag with
  | collection tag =>
    rw [htag] at hvalue
    cases hvalue
  | other name =>
    rw [htag] at hvalue
    cases hvalue
  | atom tag =>
    rw [htag] at hvalue
    dsimp only at hvalue
    split at hvalue
    · cases hvalue
    next text _ =>
      obtain ⟨found, hatom, hsome⟩ := map_eq_ok.mp hvalue
      rw [← Option.some_inj.mp hsome]
      cases tag with
      | null =>
        cases hatom
        rfl
      | str =>
        cases hatom
        rfl
      | bool =>
        unfold constructAtom constructBool at hatom
        dsimp only at hatom
        split_ifs at hatom
        · cases hatom
          rfl
        · cases hatom
          rfl
      | timestamp =>
        cases node with
        | scalar line tag value => exact reader.scalar_of_read hatom
        | sequence line tag items => cases hatom
        | mapping line tag pairs => cases hatom
      | int => exact reader.scalar_of_read hatom
      | float => exact reader.scalar_of_read hatom
      | binary => exact reader.scalar_of_read hatom

/-! ## Depths -/

/-- An event is another one, or lies below it. -/
inductive Event.Within (event : Event) : Event → Prop
  | self : Within event event
  | item {line : ℕ} {tag : Tag} {items : List Event} {child : Event} (hchild : child ∈ items)
      (hwithin : Within event child) : Within event (.sequence line tag items)
  | key {line : ℕ} {tag : Tag} {pairs : List (Event × Event)} {pair : Event × Event}
      (hpair : pair ∈ pairs) (hwithin : Within event pair.1) : Within event (.mapping line tag pairs)
  | value {line : ℕ} {tag : Tag} {pairs : List (Event × Event)} {pair : Event × Event}
      (hpair : pair ∈ pairs) (hwithin : Within event pair.2) : Within event (.mapping line tag pairs)

/-- A node is another one, or lies below it. -/
inductive Node.Within (node : Node) : Node → Prop
  | self : Within node node
  | item {line : ℕ} {tag : Tag} {items : List Node} {child : Node} (hchild : child ∈ items)
      (hwithin : Within node child) : Within node (.sequence line tag items)
  | key {line : ℕ} {tag : Tag} {pairs : List (Node × Node)} {pair : Node × Node}
      (hpair : pair ∈ pairs) (hwithin : Within node pair.1) : Within node (.mapping line tag pairs)
  | value {line : ℕ} {tag : Tag} {pairs : List (Node × Node)} {pair : Node × Node}
      (hpair : pair ∈ pairs) (hwithin : Within node pair.2) : Within node (.mapping line tag pairs)

end DbtCraft.Python.Yaml
