/-
# Loading what was dumped

A board that `yaml.safe_dump` has written is loaded by `BoardLoader` as the values that PyYAML
reads again, or a `ValueError` says that two of its keys have become the same.
-/

import DbtCraft.Python.YamlDump
import DbtCraft.Services.BoardGuard

namespace DbtCraft.Services.Boards

open DbtCraft.Python.Yaml
open DbtCraft.Python (Value)

/-! ## Composition -/

mutual

theorem composeNode_event : ∀ node : Node, composeNode node.event = .ok node
  | .scalar line tag value => rfl
  | .sequence line tag items => by
      rw [Node.event, composeNode, composeItems_itemEvents items]
      rfl
  | .mapping line tag pairs => by
      rw [Node.event, composeNode, composePairs_pairEvents pairs]
      rfl

theorem composeItems_itemEvents : ∀ items : List Node,
    composeItems (itemEvents items) = .ok items
  | [] => rfl
  | item :: rest => by
      rw [itemEvents, composeItems, composeNode_event item, composeItems_itemEvents rest]
      rfl

theorem composePairs_pairEvents : ∀ pairs : List (Node × Node),
    composePairs (pairEvents pairs) = .ok pairs
  | [] => rfl
  | (key, value) :: rest => by
      rw [pairEvents, composePairs, composeNode_event key, composeNode_event value,
        composePairs_pairEvents rest]
      rfl

end

variable {reader : Reader} {reread : String → String} {node : Node} {value : Value}
  {values : List Value} {items : Items} {nodes : List Node} {pairs : List (Node × Node)}
  {queue : List Node}

/-! ## The nodes of a dumped document -/

/-- What a node that stands for a value is. -/
theorem shows_cases (hshows : Shows reader reread node value) :
    (isScalar value = true ∧
      constructObject reader node = .ok (some (rereadValue reread value))) ∨
    (∃ line nodes values, node = .sequence line (.collection .seq) nodes ∧ value = .list values ∧
      ShowsValues reader reread nodes values) ∨
    ∃ line pairs items, node = .mapping line (.collection .map) pairs ∧ value = .dict items ∧
      ShowsItems reader reread pairs items := by
  cases node with
  | scalar line tag text =>
    cases value <;> exact .inl hshows
  | sequence line tag nodes =>
    cases value with
    | list values =>
      obtain ⟨rfl, hnodes⟩ := hshows
      exact .inr (.inl ⟨line, nodes, values, rfl, rfl, hnodes⟩)
    | _ => exact hshows.elim
  | mapping line tag pairs =>
    cases value with
    | dict items =>
      obtain ⟨rfl, hpairs⟩ := hshows
      exact .inr (.inr ⟨line, pairs, items, rfl, rfl, hpairs⟩)
    | _ => exact hshows.elim

theorem construct_of_shows (hshows : Shows reader reread node value) :
    ∃ made, constructObject reader node = .ok made := by
  rcases shows_cases hshows with ⟨-, hmade⟩ | ⟨line, nodes, values, rfl, -, -⟩ |
    ⟨line, pairs, items, rfl, -, -⟩
  · exact ⟨_, hmade⟩
  · exact ⟨none, rfl⟩
  · exact ⟨none, rfl⟩

/-- A step that can only stop at a key that has been before. -/
def Plain (reader : Reader) (reread : String → String) : Step → Prop
  | .construct node => ∃ value, Shows reader reread node value
  | .key node _ => ∃ text, constructObject reader node = .ok (some (.str text))
  | .refuse _ => False

theorem valueError_of_plain {step : Step} {error : LoadError} (hplain : Plain reader reread step)
    (htake : step.take reader = .error error) :
    ∃ message, error = .other (.valueError message) := by
  cases step with
  | construct node =>
    obtain ⟨value, hshows⟩ := hplain
    obtain ⟨made, hmade⟩ := construct_of_shows hshows
    rw [Step.take, hmade] at htake
    cases htake
  | key node earlier =>
    obtain ⟨text, htext⟩ := hplain
    rw [Step.take, htext] at htake
    dsimp only at htake
    split at htake
    · cases htake
      exact ⟨_, rfl⟩
    · cases htake
  | refuse other => exact hplain.elim

theorem plain_values (hnodes : ShowsValues reader reread nodes values) :
    ∀ step ∈ nodes.map Step.construct, Plain reader reread step := by
  induction nodes generalizing values with
  | nil => exact fun step hstep => absurd hstep List.not_mem_nil
  | cons node nodes ih =>
    cases values with
    | nil => exact hnodes.elim
    | cons value values =>
      rw [ShowsValues] at hnodes
      exact List.forall_mem_cons.mpr ⟨⟨value, hnodes.1⟩, ih hnodes.2⟩

theorem plain_items (hpairs : ShowsItems reader reread pairs items) (earlier : List Node) :
    ∀ step ∈ pairSteps earlier pairs, Plain reader reread step := by
  induction pairs generalizing items earlier with
  | nil => exact fun step hstep => absurd hstep List.not_mem_nil
  | cons pair pairs ih =>
    obtain ⟨key, node⟩ := pair
    cases items with
    | nil => exact hpairs.elim
    | cons item items =>
      obtain ⟨name, value⟩ := item
      rw [ShowsItems] at hpairs
      obtain ⟨⟨text, -, hkey⟩, hvalue, hrest⟩ := hpairs
      exact List.forall_mem_cons.mpr ⟨⟨_, hkey⟩,
        List.forall_mem_cons.mpr ⟨⟨value, hvalue⟩, ih hrest _⟩⟩

theorem plain_steps (hshows : Shows reader reread node value) :
    ∀ step ∈ steps node, Plain reader reread step := by
  rcases shows_cases hshows with ⟨-, hmade⟩ | ⟨line, nodes, values, rfl, -, hnodes⟩ |
    ⟨line, pairs, items, rfl, -, hpairs⟩
  · have hscalar : node.tag.isCollection = false := by
      rw [← Bool.not_eq_true, ← @constructObject_eq_none reader node, hmade]
      exact fun hnone => by cases hnone
    intro step hstep
    unfold steps at hstep
    cases htag : node.tag with
    | collection tag =>
      rw [htag] at hscalar
      cases hscalar
    | atom tag =>
      rw [htag] at hstep
      exact absurd hstep List.not_mem_nil
    | other name =>
      rw [htag] at hstep
      exact absurd hstep List.not_mem_nil
  · exact plain_values hnodes
  · exact plain_items hpairs []

/-- Every node that is filled stands for a value. -/
theorem shows_of_mem_order (hqueue : ∀ node ∈ queue, ∃ value, Shows reader reread node value) :
    ∀ node ∈ order queue, ∃ value, Shows reader reread node value := by
  induction queue using order.induct with
  | case1 =>
    rw [order]
    exact fun node hnode => absurd hnode List.not_mem_nil
  | case2 first rest ih =>
    obtain ⟨hfirst, hrest⟩ := List.forall_mem_cons.mp hqueue
    obtain ⟨value, hshows⟩ := hfirst
    rw [order]
    refine List.forall_mem_cons.mpr ⟨⟨value, hshows⟩, ih fun node hnode => ?_⟩
    rcases List.mem_append.mp hnode with hnode | hnode
    · exact hrest node hnode
    · obtain ⟨step, hstep, hpending⟩ := List.mem_filterMap.mp hnode
      have hplain := plain_steps hshows step hstep
      cases step with
      | construct child =>
        rw [Step.pending] at hpending
        split at hpending
        · cases hpending
          exact hplain
        · cases hpending
      | key child earlier => cases hpending
      | refuse error => cases hpending

/-! ## The value of a dumped document -/

/-- What is constructed at once is the value. -/
theorem valueOf_of_construct (hmade : constructObject reader node = .ok (some value)) :
    valueOf reader node = value := by
  have hscalar : node.tag.isCollection = false := by
    rw [← Bool.not_eq_true, ← @constructObject_eq_none reader node, hmade]
    exact fun hnone => by cases hnone
  rw [valueOf_of_not_collection hscalar, scalarValue, hmade]

mutual

theorem valueOf_of_shows : ∀ (node : Node) (value : Value), Shows reader reread node value →
    valueOf reader node = rereadValue reread value
  | .scalar line tag text, value, hshows => by
      cases value <;> exact valueOf_of_construct hshows.2
  | .sequence line tag nodes, .list values, hshows => by
      rw [Shows] at hshows
      rw [hshows.1, valueOf, valuesOf_of_shows nodes values hshows.2, rereadValue]
  | .mapping line tag pairs, .dict items, hshows => by
      rw [Shows] at hshows
      rw [hshows.1, valueOf, itemsOf_of_shows pairs items hshows.2, rereadValue]

theorem valuesOf_of_shows : ∀ (nodes : List Node) (values : List Value),
    ShowsValues reader reread nodes values → valuesOf reader nodes = rereadValues reread values
  | [], [], _ => rfl
  | node :: nodes, value :: values, hnodes => by
      rw [ShowsValues] at hnodes
      rw [valuesOf, rereadValues, valueOf_of_shows node value hnodes.1,
        valuesOf_of_shows nodes values hnodes.2]

theorem itemsOf_of_shows : ∀ (pairs : List (Node × Node)) (items : Items),
    ShowsItems reader reread pairs items → itemsOf reader pairs = rereadItems reread items
  | [], [], _ => rfl
  | (key, node) :: pairs, (name, value) :: items, hpairs => by
      rw [ShowsItems] at hpairs
      obtain ⟨⟨text, rfl, hkey⟩, hvalue, hrest⟩ := hpairs
      have htext : keyText reader key = some (reread text) := by rw [keyText, hkey]
      rw [itemsOf, rereadItems, valueOf_of_shows node value hvalue,
        itemsOf_of_shows pairs items hrest, htext, rereadValue, Option.getD_some]

end

/-- **A dumped board is loaded as it is read again**, or two of its keys have become the same. -/
theorem load_dump (dumper : Dumper reader) {text : String} (hjson : AllJson (.dict items))
    (hdump : dumper.dump (.dict items) = .ok text) :
    load reader text = .ok (.dict (rereadItems dumper.reread items)) ∨
      ∃ message, load reader text = .error (.other (.valueError message)) := by
  obtain ⟨root, hparse, hshows⟩ := dumper.shown hjson hdump
  have hload : load reader text = constructDocument reader root := by
    rw [load, hparse, composeStream]
    simp only [composeNode_event]
  have hmade : constructObject reader root = .ok none := by
    rcases shows_cases hshows with ⟨hscalar, -⟩ | ⟨line, nodes, values, -, hlist, -⟩ |
      ⟨line, pairs, found, rfl, -, -⟩
    · cases hscalar
    · cases hlist
    · rfl
  rw [hload, constructDocument, hmade]
  cases hsteps : ((order [root]).flatMap steps).forM (Step.take reader) with
  | ok done =>
    left
    exact congrArg Except.ok (valueOf_of_shows root _ hshows)
  | error error =>
    right
    obtain ⟨step, hreached, htake⟩ := forM_eq_error.mp hsteps
    obtain ⟨before, after, hsplit, -⟩ := hreached
    have hmem : step ∈ (order [root]).flatMap steps := by
      rw [hsplit]
      exact List.mem_append_right _ List.mem_cons_self
    obtain ⟨node, hnode, hstep⟩ := List.mem_flatMap.mp hmem
    obtain ⟨value, hvalue⟩ := shows_of_mem_order (fun node hnode => by
      rw [List.mem_singleton.mp hnode]
      exact ⟨_, hshows⟩) node hnode
    obtain ⟨message, rfl⟩ := valueError_of_plain (plain_steps hvalue step hstep) htake
    exact ⟨message, rfl⟩

end DbtCraft.Services.Boards
