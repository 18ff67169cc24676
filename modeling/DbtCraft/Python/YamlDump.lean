/-
# Dumped documents

`yaml.safe_dump` as far as its text is read again. The nodes of the text stand for the values
that were dumped, but for some strings: with `allow_unicode` a U+0085 is written as it is, and
it ends a line when it is read. Which text is written answers through `Dumper`.
-/

import DbtCraft.Python.Text
import DbtCraft.Python.Yaml

namespace DbtCraft.Python.Yaml

/-! ## Nodes as they are parsed -/

mutual

/-- What the parser gives for a node. -/
def Node.event : Node → Event
  | .scalar line tag value => .scalar line tag value
  | .sequence line tag items => .sequence line tag (itemEvents items)
  | .mapping line tag pairs => .mapping line tag (pairEvents pairs)

def itemEvents : List Node → List Event
  | [] => []
  | item :: rest => item.event :: itemEvents rest

def pairEvents : List (Node × Node) → List (Event × Event)
  | [] => []
  | (key, value) :: rest => (key.event, value.event) :: pairEvents rest

end

/-! ## Values as they are read again -/

mutual

/-- A value whose strings are read as `reread` says. -/
def rereadValue (reread : String → String) : Value → Value
  | .none => .none
  | .bool value => .bool value
  | .int value => .int value
  | .float repr trunc => .float repr trunc
  | .nonFinite repr => .nonFinite repr
  | .str text => .str (reread text)
  | .list values => .list (rereadValues reread values)
  | .dict items => .dict (rereadItems reread items)
  | .object typeName str => .object typeName str

def rereadValues (reread : String → String) : List Value → List Value
  | [] => []
  | value :: rest => rereadValue reread value :: rereadValues reread rest

def rereadItems (reread : String → String) : List (Value × Value) → List (Value × Value)
  | [] => []
  | (key, value) :: rest =>
    (rereadValue reread key, rereadValue reread value) :: rereadItems reread rest

end

mutual

/-- A node stands for a value: a scalar is constructed as the value that is read again, and a
key is a string. -/
def Shows (reader : Reader) (reread : String → String) : Node → Value → Prop
  | .sequence _ tag nodes, .list values =>
    tag = .collection .seq ∧ ShowsValues reader reread nodes values
  | .mapping _ tag pairs, .dict items =>
    tag = .collection .map ∧ ShowsItems reader reread pairs items
  | .scalar line tag text, value => isScalar value = true ∧
    constructObject reader (.scalar line tag text) = .ok (some (rereadValue reread value))
  | _, _ => False

def ShowsValues (reader : Reader) (reread : String → String) : List Node → List Value → Prop
  | [], [] => True
  | node :: nodes, value :: values =>
    Shows reader reread node value ∧ ShowsValues reader reread nodes values
  | _, _ => False

def ShowsItems (reader : Reader) (reread : String → String) :
    List (Node × Node) → List (Value × Value) → Prop
  | [], [] => True
  | (key, node) :: pairs, (name, value) :: items =>
    (∃ text, name = .str text ∧ constructObject reader key = .ok (some (.str (reread text)))) ∧
      Shows reader reread node value ∧ ShowsItems reader reread pairs items
  | _, _ => False

end

/-- The end of a line that is written as it is. -/
def nextLine : Char := '\x85'

/-- A value of JSON throughout, with strings for keys. -/
def AllJson (value : Value) : Prop :=
  ∀ part : Value, part.Within value →
    match part with
    | .dict items => ∀ item ∈ items, ∃ text, item.1 = .str text
    | .object _ _ | .nonFinite _ => False
    | _ => True

/-- `yaml.safe_dump(value, sort_keys=False, allow_unicode=True)`, on values that share no
list or dict. -/
structure Dumper (reader : Reader) where
  dump : Value → Except Raised String
  /-- What is read where a string was written. -/
  reread : String → String
  /-- A value of JSON is refused only for an integer with too many digits. -/
  refused : ∀ {value : Value} {raised : Raised}, AllJson value → dump value = .error raised →
    ∃ message, raised = .valueError message
  /-- The text is one document, which stands for the value. -/
  shown : ∀ {value : Value} {text : String}, AllJson value → dump value = .ok text →
    ∃ node, reader.parse text = ⟨some node.event, none⟩ ∧ Shows reader reread node value
  /-- Where a string is read as another one, white space stands for its U+0085. -/
  reread_eq_or : ∀ text, reread text = text ∨ nextLine ∈ text.toList ∧
    nextLine ∉ (reread text).toList ∧ ∃ c ∈ (reread text).toList, isSpace c = true

end DbtCraft.Python.Yaml
