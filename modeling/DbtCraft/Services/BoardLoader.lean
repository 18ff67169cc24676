/-
# Loading boards

`BoardLoader` of `app/services/boards.py`: `SafeLoader` without aliases, and with mappings
whose keys are different strings. The loader fills the collections of a document in the
order in which it has come to them, and stops at the first step that it cannot take.
-/

import DbtCraft.Python.Yaml

namespace DbtCraft.Services.Boards

open DbtCraft.Python.Yaml
open DbtCraft.Python (Value)

/-! ## Composition -/

mutual

/-- `compose_node`. -/
def composeNode : Event → Except LoadError Node
  | .alias => .error (.other (.valueError "YAML aliases are not supported. Define values explicitly."))
  | .failure error => .error error
  | .scalar line tag value => .ok (.scalar line tag value)
  | .sequence line tag items => (composeItems items).map (Node.sequence line tag)
  | .mapping line tag pairs => (composePairs pairs).map (Node.mapping line tag)

def composeItems : List Event → Except LoadError (List Node)
  | [] => .ok []
  | item :: rest => do
    let node ← composeNode item
    let nodes ← composeItems rest
    return node :: nodes

def composePairs : List (Event × Event) → Except LoadError (List (Node × Node))
  | [] => .ok []
  | (key, value) :: rest => do
    let keyNode ← composeNode key
    let valueNode ← composeNode value
    let nodes ← composePairs rest
    return (keyNode, valueNode) :: nodes

end

/-- `get_single_node`. -/
def composeStream (stream : Stream) : Except LoadError (Option Node) :=
  match stream.root, stream.ending with
  | none, none => .ok none
  | none, some error => .error error
  | some root, ending =>
    match composeNode root, ending with
    | .error error, _ => .error error
    | .ok _, some error => .error error
    | .ok node, none => .ok (some node)

/-! ## Construction -/

/-- One step of filling a collection. -/
inductive Step
  | construct (node : Node)
  | /-- The key of an item is constructed, and compared with those before it. -/
    key (node : Node) (earlier : List Node)
  | refuse (error : LoadError)

/-- The items of a mapping. -/
def pairSteps (earlier : List Node) : List (Node × Node) → List Step
  | [] => []
  | (key, value) :: rest =>
    .key key earlier :: .construct value :: pairSteps (earlier ++ [key]) rest

/-- `construct_mapping`: it takes the items of any node. -/
def mappingSteps : Node → List Step
  | .mapping _ _ pairs => pairSteps [] pairs
  | .sequence _ _ items => if items.isEmpty then [] else [.refuse (.other .typeError)]
  | .scalar _ _ value =>
    if value = "" then []
    else [.refuse (.other (.valueError "not enough values to unpack (expected 2, got 1)"))]

/-- An item of an ordered map. -/
def entrySteps : Node → List Step
  | .mapping _ _ [(key, value)] => [.construct key, .construct value]
  | .mapping line _ pairs =>
    [.refuse (.yaml line ("expected a single mapping item, but found " ++ toString pairs.length ++
      " items"))]
  | node => [.refuse (.yaml node.line ("expected a mapping of length 1, but found " ++ node.id))]

/-- How a collection is filled. -/
def steps (node : Node) : List Step :=
  match node.tag, node with
  | .collection .map, _ | .collection .set, _ => mappingSteps node
  | .collection .seq, .sequence _ _ items => items.map .construct
  | .collection .seq, _ =>
    [.refuse (.yaml node.line ("expected a sequence node, but found " ++ node.id))]
  | .collection .omap, .sequence _ _ items | .collection .pairs, .sequence _ _ items =>
    items.flatMap entrySteps
  | .collection .omap, _ | .collection .pairs, _ =>
    [.refuse (.yaml node.line ("expected a sequence, but found " ++ node.id))]
  | .atom _, _ | .other _, _ => []

variable (reader : Reader)

/-- The text of a key. -/
def keyText (node : Node) : Option String :=
  match constructObject reader node with
  | .ok (some (.str text)) => some text
  | _ => none

/-- The step is taken. -/
def Step.take : Step → Except LoadError Unit
  | .construct node => (constructObject reader node).map fun _ => ()
  | .refuse error => .error error
  | .key node earlier =>
    match constructObject reader node with
    | .error error => .error error
    | .ok (some (.str text)) =>
      if earlier.any fun other => keyText reader other = some text then
        .error (.other (.valueError ("Line " ++ toString node.line ++
          ": duplicate or non-string YAML key")))
      else .ok ()
    | .ok _ =>
      .error (.other (.valueError ("Line " ++ toString node.line ++
        ": duplicate or non-string YAML key")))

/-- The collection that a step leaves to be filled. -/
def Step.pending : Step → Option Node
  | .construct node => if node.tag.isCollection then some node else none
  | .key .. | .refuse _ => none

mutual

def weight : Node → ℕ
  | .scalar .. => 1
  | .sequence _ _ items => 1 + weightItems items
  | .mapping _ _ pairs => 1 + weightPairs pairs

def weightItems : List Node → ℕ
  | [] => 0
  | item :: rest => weight item + weightItems rest

def weightPairs : List (Node × Node) → ℕ
  | [] => 0
  | (key, value) :: rest => weight key + weight value + weightPairs rest

end

theorem weightItems_append (first second : List Node) :
    weightItems (first ++ second) = weightItems first + weightItems second := by
  induction first with
  | nil => rw [List.nil_append, weightItems, Nat.zero_add]
  | cons item rest ih => rw [List.cons_append, weightItems, weightItems, ih, Nat.add_assoc]

theorem weight_pos (node : Node) : 0 < weight node := by
  cases node with
  | scalar line tag value => exact Nat.one_pos
  | sequence line tag items => exact Nat.lt_add_right _ Nat.one_pos
  | mapping line tag pairs => exact Nat.lt_add_right _ Nat.one_pos

theorem weightItems_cons_construct (node : Node) (rest : List Step) :
    weightItems ((Step.construct node :: rest).filterMap Step.pending) ≤
      weight node + weightItems (rest.filterMap Step.pending) := by
  rw [List.filterMap_cons, Step.pending]
  cases node.tag.isCollection with
  | false => exact Nat.le_add_left _ _
  | true => exact Nat.le_refl _

theorem weightItems_items (items : List Node) :
    weightItems ((items.map Step.construct).filterMap Step.pending) ≤ weightItems items := by
  induction items with
  | nil => exact Nat.le_refl _
  | cons item rest ih =>
    rw [List.map_cons, weightItems]
    exact Nat.le_trans (weightItems_cons_construct item _) (Nat.add_le_add_left ih _)

theorem weightItems_pairs (earlier : List Node) (pairs : List (Node × Node)) :
    weightItems ((pairSteps earlier pairs).filterMap Step.pending) ≤ weightPairs pairs := by
  induction pairs generalizing earlier with
  | nil => exact Nat.le_refl _
  | cons pair rest ih =>
    obtain ⟨key, value⟩ := pair
    have hvalue := weightItems_cons_construct value (pairSteps (earlier ++ [key]) rest)
    have hrest := ih (earlier ++ [key])
    have hkey : (Step.key key earlier).pending = none := rfl
    rw [pairSteps, List.filterMap_cons, hkey, weightPairs]
    dsimp only
    omega

theorem weightItems_entry (node : Node) :
    weightItems ((entrySteps node).filterMap Step.pending) ≤ weight node := by
  unfold entrySteps
  split
  next line tag key value =>
    have hkey := weightItems_cons_construct key [.construct value]
    have hvalue := weightItems_cons_construct value []
    have hnone : weightItems (([] : List Step).filterMap Step.pending) = 0 := rfl
    simp only [weight, weightPairs]
    omega
  · exact Nat.zero_le _
  · exact Nat.zero_le _

theorem weightItems_entries (items : List Node) :
    weightItems ((items.flatMap entrySteps).filterMap Step.pending) ≤ weightItems items := by
  induction items with
  | nil => exact Nat.le_refl _
  | cons item rest ih =>
    rw [List.flatMap_cons, List.filterMap_append, weightItems_append, weightItems]
    exact Nat.add_le_add (weightItems_entry item) ih

theorem weightItems_mappingSteps_lt (node : Node) :
    weightItems ((mappingSteps node).filterMap Step.pending) < weight node := by
  have hpos := weight_pos node
  cases node with
  | mapping line tag pairs =>
    have hpairs := weightItems_pairs [] pairs
    rw [mappingSteps, weight]
    omega
  | sequence line tag items =>
    rw [mappingSteps]
    split_ifs
    · exact hpos
    · exact hpos
  | scalar line tag value =>
    rw [mappingSteps]
    split_ifs
    · exact hpos
    · exact hpos

/-- What a collection leaves to be filled lies below it. -/
theorem weightItems_steps_lt (node : Node) :
    weightItems ((steps node).filterMap Step.pending) < weight node := by
  have hpos := weight_pos node
  unfold steps
  split
  · exact weightItems_mappingSteps_lt _
  · exact weightItems_mappingSteps_lt _
  next line tag items _ =>
    have hitems := weightItems_items items
    rw [weight]
    omega
  · exact hpos
  next line tag items _ =>
    have hitems := weightItems_entries items
    rw [weight]
    omega
  next line tag items _ =>
    have hitems := weightItems_entries items
    rw [weight]
    omega
  · exact hpos
  · exact hpos
  · exact hpos
  · exact hpos

/-- The collections in the order in which they are filled. -/
def order : List Node → List Node
  | [] => []
  | node :: queue => node :: order (queue ++ (steps node).filterMap Step.pending)
termination_by queue => weightItems queue
decreasing_by
  have hsteps := weightItems_steps_lt node
  rw [weightItems_append, weightItems]
  omega

/-- What `construct_object` returns at once. -/
def scalarValue (node : Node) : Value :=
  match constructObject reader node with
  | .ok (some value) => value
  | _ => .none

mutual

/-- What a node stands for when every step has been taken. A set and a tuple are no more
than their types here. -/
def valueOf : Node → Value
  | .scalar line tag value =>
    match tag with
    | .collection .map => .dict []
    | .collection .set => .object "set" ""
    | .collection _ => .list []
    | _ => scalarValue reader (.scalar line tag value)
  | .sequence line tag items =>
    match tag with
    | .collection .map => .dict []
    | .collection .set => .object "set" ""
    | .collection .seq => .list (valuesOf items)
    | .collection _ => .list (items.map fun _ => .object "tuple" "")
    | _ => scalarValue reader (.sequence line tag items)
  | .mapping line tag pairs =>
    match tag with
    | .collection .map => .dict (itemsOf pairs)
    | .collection .set => .object "set" ""
    | .collection _ => .list []
    | _ => scalarValue reader (.mapping line tag pairs)

def valuesOf : List Node → List Value
  | [] => []
  | item :: rest => valueOf item :: valuesOf rest

def itemsOf : List (Node × Node) → List (Value × Value)
  | [] => []
  | (key, value) :: rest => (.str ((keyText reader key).getD ""), valueOf value) :: itemsOf rest

end

/-- `construct_document`. -/
def constructDocument (root : Node) : Except LoadError Value :=
  match constructObject reader root with
  | .error error => .error error
  | .ok (some value) => .ok value
  | .ok none =>
    (((order [root]).flatMap steps).forM (Step.take reader)).map fun _ => valueOf reader root

/-- `yaml.load(content, Loader=BoardLoader)`. -/
def load (content : String) : Except LoadError Value :=
  match composeStream (reader.parse content) with
  | .error error => .error error
  | .ok none => .ok .none
  | .ok (some root) => constructDocument reader root

end DbtCraft.Services.Boards
