/-
# What an accepted board holds

Every part of a board is walked by one of the checks, and the loader looks at the keys of
every mapping that it fills. It does not fill a mapping that is read as a scalar, through a
key `=`: whatever else that mapping holds is dropped unseen.
-/

import Mathlib.Data.List.Nodup
import DbtCraft.Services.Boards

namespace DbtCraft.Services.Boards

open DbtCraft.Python.Yaml
open DbtCraft.Python (Value Dict contains jsonString)
open DbtCraft.Services.BoardSql hiding Node

/-! ## The guarantee -/

/-- The keys of a mapping are strings, and no two are the same. -/
def StringKeys (reader : Reader) (pairs : List (Node × Node)) : Prop :=
  (∀ pair ∈ pairs, (keyText reader pair.1).isSome = true) ∧
    (pairs.map fun pair => keyText reader pair.1).Nodup

/-- A value of JSON, as far as it goes. -/
def IsJson : Value → Prop
  | .dict items => ∀ item ∈ items, ∃ text, item.1 = .str text
  | .object _ _ | .nonFinite _ => False
  | _ => True

/-- What is displayed, the variables, and the inline queries. -/
def Shown (board : Items) (part : Value) : Prop :=
  part = .dict (display board) ∨ get board "variables" = some part ∨
    ∃ queries name, get board "queries" = some (.dict queries) ∧ (name, part) ∈ queries ∧
      ∀ sql, part ≠ .str sql

/-- A table whose rows have a value for each column. -/
def IsTable (query : Value) : Prop :=
  ∃ items cells rows, query = .dict items ∧ get items "columns" = some (.list cells) ∧
    get items "values" = some (.list rows) ∧
    ∀ row ∈ rows, ∃ entries, row = .list entries ∧ entries.length = cells.length

/-- What is known of an accepted board, and of the document that it is read from. -/
structure Guarded (libraries : Libraries) (content : String) (board : Items) : Prop where
  aliases : ∀ root, (libraries.reader.parse content).root = some root →
    ∀ event : Event, event.Within root → event ≠ .alias
  keys : ∀ root, composeStream (libraries.reader.parse content) = .ok (some root) →
    ∀ line tag pairs, (Node.mapping line tag pairs).Within root → StringKeys libraries.reader pairs
  blocked : ∀ part, part = .dict (display board) ∨ get board "variables" = some part →
    ∀ items, (Value.dict items).Within part → ∀ item ∈ items, keyIn blockedKeys item.1 = false
  templates : ∀ part, Shown board part → ∀ text, (Value.str text).Within part →
    ∀ token ∈ openers, contains token text = false
  json : ∀ value, value.Within (.dict board) → IsJson value
  references : ∀ items, (Value.dict items).Within (.dict (display board)) →
    ∀ child, (.str "query", child) ∈ items → ∃ queries name, get board "queries" = some (.dict queries) ∧
      child = .str name ∧ (get queries name).isSome = true
  queries : ∃ queries, get board "queries" = some (.dict queries) ∧ ∀ item ∈ queries,
    (∃ sql prepared declared, item.2 = .str sql ∧ boardVariables board = .ok declared ∧
      prepare libraries (defaults declared) sql = .ok prepared) ∨ IsTable item.2

/-- No mapping of the document is read as a scalar. -/
def PlainMappings (libraries : Libraries) (content : String) : Prop :=
  ∀ root, composeStream (libraries.reader.parse content) = .ok (some root) →
    ∀ line tag pairs, (Node.mapping line tag pairs).Within root → tag.isCollection = true

variable {reader : Reader} {libraries : Libraries} {content : String} {board items : Items}
  {value part : Value} {depth : ℕ} {node root child : Node} {queue : List Node}

/-! ## The walks -/

/-- What `_safe_tree` finds in a value. -/
def Clean : Value → Prop
  | .dict items => ∀ item ∈ items, keyIn blockedKeys item.1 = false
  | .str text => ∀ token ∈ openers, contains token text = false
  | .object _ _ | .nonFinite _ => False
  | _ => True

theorem safeItems_ok (hsafe : safeItems depth items = .ok ()) {item : Value × Value}
    (hitem : item ∈ items) :
    checkItem item.1 item.2 = .ok () ∧ safeTree (depth + 1) item.2 = .ok () := by
  induction items with
  | nil => cases hitem
  | cons first rest ih =>
    obtain ⟨key, child⟩ := first
    unfold safeItems at hsafe
    obtain ⟨⟨⟩, hkey, hchildren⟩ := bind_eq_ok.mp hsafe
    obtain ⟨⟨⟩, hchild, hrest⟩ := bind_eq_ok.mp hchildren
    rcases List.mem_cons.mp hitem with hfirst | hmem
    · rw [hfirst]
      exact ⟨hkey, hchild⟩
    · exact ih hrest hmem

theorem safeValues_ok {values : List Value} (hsafe : safeValues depth values = .ok ())
    {child : Value} (hchild : child ∈ values) : safeTree (depth + 1) child = .ok () := by
  induction values with
  | nil => cases hchild
  | cons first rest ih =>
    unfold safeValues at hsafe
    obtain ⟨⟨⟩, hfirst, hrest⟩ := bind_eq_ok.mp hsafe
    rcases List.mem_cons.mp hchild with hsame | hmem
    · rw [hsame]
      exact hfirst
    · exact ih hrest hmem

theorem not_blocked_of_checkItem {key child : Value} (hcheck : checkItem key child = .ok ()) :
    keyIn blockedKeys key = false := by
  unfold checkItem at hcheck
  split_ifs at hcheck with hblocked
  · exact (Bool.not_eq_true _).mp hblocked
  · exact (Bool.not_eq_true _).mp hblocked

theorem clean_of_safeTree (hsafe : safeTree depth value = .ok ()) : Clean value := by
  cases value with
  | dict items =>
    unfold safeTree at hsafe
    obtain ⟨⟨⟩, -, hitems⟩ := bind_eq_ok.mp hsafe
    exact fun item hitem => not_blocked_of_checkItem (safeItems_ok hitems hitem).1
  | str text =>
    unfold safeTree at hsafe
    obtain ⟨⟨⟩, -, hleaf⟩ := bind_eq_ok.mp hsafe
    rw [checkLeaf] at hleaf
    split_ifs at hleaf with hopener
    intro token htoken
    rw [List.any_eq_true] at hopener
    exact (Bool.not_eq_true _).mp fun hcontains => hopener ⟨token, htoken, hcontains⟩
  | object typeName str =>
    unfold safeTree at hsafe
    obtain ⟨⟨⟩, -, hleaf⟩ := bind_eq_ok.mp hsafe
    cases hleaf
  | nonFinite repr =>
    unfold safeTree at hsafe
    obtain ⟨⟨⟩, -, hleaf⟩ := bind_eq_ok.mp hsafe
    cases hleaf
  | none => trivial
  | bool => trivial
  | int => trivial
  | float => trivial
  | list => trivial

/-- What `_safe_tree` has passed is clean at every depth. -/
theorem clean_of_within {sub : Value} (hwithin : sub.Within value)
    (hsafe : safeTree depth value = .ok ()) : Clean sub := by
  induction hwithin generalizing depth with
  | self => exact clean_of_safeTree hsafe
  | listItem hchild _ ih =>
    unfold safeTree at hsafe
    obtain ⟨⟨⟩, -, hvalues⟩ := bind_eq_ok.mp hsafe
    exact ih (safeValues_ok hvalues hchild)
  | dictItem hitem _ ih =>
    unfold safeTree at hsafe
    obtain ⟨⟨⟩, -, hitems⟩ := bind_eq_ok.mp hsafe
    exact ih (safeItems_ok hitems hitem).2

theorem checkQueryItems_ok {queries : Items} (hcheck : checkQueryItems queries items = .ok ())
    {item : Value × Value} (hitem : item ∈ items) :
    checkQueryItem queries item.1 item.2 = .ok () ∧ checkQueries queries item.2 = .ok () := by
  induction items with
  | nil => cases hitem
  | cons first rest ih =>
    obtain ⟨key, child⟩ := first
    unfold checkQueryItems at hcheck
    obtain ⟨⟨⟩, hkey, hchildren⟩ := bind_eq_ok.mp hcheck
    obtain ⟨⟨⟩, hchild, hrest⟩ := bind_eq_ok.mp hchildren
    rcases List.mem_cons.mp hitem with hfirst | hmem
    · rw [hfirst]
      exact ⟨hkey, hchild⟩
    · exact ih hrest hmem

theorem checkQueryValues_ok {queries : Items} {values : List Value}
    (hcheck : checkQueryValues queries values = .ok ()) {child : Value} (hchild : child ∈ values) :
    checkQueries queries child = .ok () := by
  induction values with
  | nil => cases hchild
  | cons first rest ih =>
    unfold checkQueryValues at hcheck
    obtain ⟨⟨⟩, hfirst, hrest⟩ := bind_eq_ok.mp hcheck
    rcases List.mem_cons.mp hchild with hsame | hmem
    · rw [hsame]
      exact hfirst
    · exact ih hrest hmem

/-- What `check_queries` has passed names queries only. -/
theorem query_of_within {queries : Items} (hwithin : (Value.dict items).Within value)
    (hcheck : checkQueries queries value = .ok ()) (child : Value)
    (hchild : (.str "query", child) ∈ items) :
    ∃ name, child = .str name ∧ (get queries name).isSome = true := by
  induction hwithin with
  | self =>
    have hitem : checkQueryItem queries (.str "query") child = .ok () :=
      (checkQueryItems_ok hcheck hchild).1
    have hroot : ¬ keyIn ["queries", "variables"] (.str "query") = true := by decide
    have hquery : keyIn ["query"] (.str "query") = true := by decide
    unfold checkQueryItem at hitem
    rw [if_neg hroot, if_pos hquery] at hitem
    cases child with
    | str name =>
      dsimp only at hitem
      split_ifs at hitem with hname
      exact ⟨name, rfl, hname⟩
    | _ => cases hitem
  | listItem hmem _ ih => exact ih (checkQueryValues_ok hcheck hmem)
  | dictItem hmem _ ih => exact ih (checkQueryItems_ok hcheck hmem).2

/-! ## The loader -/

theorem mem_order_of_mem (hnode : node ∈ queue) : node ∈ order queue := by
  induction queue using order.induct with
  | case1 => cases hnode
  | case2 first rest ih =>
    rw [order]
    rcases List.mem_cons.mp hnode with hfirst | hrest
    · rw [hfirst]
      exact List.mem_cons_self
    · exact List.mem_cons_of_mem _ (ih (List.mem_append_left _ hrest))

/-- What is left to be filled is filled. -/
theorem mem_order_of_pending (hnode : node ∈ order queue)
    (hchild : child ∈ (steps node).filterMap Step.pending) : child ∈ order queue := by
  induction queue using order.induct with
  | case1 =>
    rw [order] at hnode
    cases hnode
  | case2 first rest ih =>
    rw [order] at hnode ⊢
    apply List.mem_cons_of_mem
    rcases List.mem_cons.mp hnode with hfirst | hrest
    · apply mem_order_of_mem
      rw [← hfirst]
      exact List.mem_append_right _ hchild
    · exact ih hrest

/-- A document that has been loaded. -/
structure Loaded (reader : Reader) (root : Node) : Prop where
  collection : root.tag.isCollection = true
  taken : ∀ node ∈ order [root], ∀ step ∈ steps node, step.take reader = .ok ()

theorem loaded_of_constructDocument
    (hvalue : constructDocument reader root = .ok (.dict board)) :
    Loaded reader root ∧ valueOf reader root = .dict board := by
  unfold constructDocument at hvalue
  split at hvalue
  · cases hvalue
  next value hmade =>
    have hscalar := isScalar_of_constructObject hmade
    rw [Except.ok.inj hvalue] at hscalar
    cases hscalar
  next hmade =>
    obtain ⟨⟨⟩, htaken, hsame⟩ := map_eq_ok.mp hvalue
    refine ⟨⟨constructObject_eq_none.mp hmade, ?_⟩, hsame⟩
    intro node hnode step hstep
    exact forM_eq_ok.mp htaken step (List.mem_flatMap.mpr ⟨node, hnode, hstep⟩)

/-- The loader has come to a node: it is constructed, and filled if it is a collection. -/
structure Visited (reader : Reader) (root node : Node) : Prop where
  constructed : ∃ made, constructObject reader node = .ok made
  filled : node.tag.isCollection = true → node ∈ order [root] ∧
    (valueOf reader node).Within (valueOf reader root)

theorem valueOf_mem_valuesOf {items : List Node} (hchild : child ∈ items) :
    valueOf reader child ∈ valuesOf reader items := by
  induction items with
  | nil => cases hchild
  | cons first rest ih =>
    rw [valuesOf]
    rcases List.mem_cons.mp hchild with hfirst | hrest
    · rw [hfirst]
      exact List.mem_cons_self
    · exact List.mem_cons_of_mem _ (ih hrest)

theorem exists_mem_itemsOf (reader : Reader) {pairs : List (Node × Node)} {pair : Node × Node}
    (hpair : pair ∈ pairs) :
    ∃ key, (key, valueOf reader pair.2) ∈ itemsOf reader pairs := by
  induction pairs with
  | nil => cases hpair
  | cons first rest ih =>
    rw [itemsOf]
    rcases List.mem_cons.mp hpair with hfirst | hrest
    · rw [hfirst]
      exact ⟨_, List.mem_cons_self⟩
    · obtain ⟨key, hkey⟩ := ih hrest
      exact ⟨key, List.mem_cons_of_mem _ hkey⟩

theorem isSome_keyText_of_take {key : Node} {earlier : List Node}
    (htake : (Step.key key earlier).take reader = .ok ()) :
    (keyText reader key).isSome = true ∧
      ∀ other ∈ earlier, keyText reader other ≠ keyText reader key := by
  unfold Step.take at htake
  dsimp only at htake
  split at htake
  · cases htake
  next text hkey =>
    have htext : keyText reader key = some text := by rw [keyText, hkey]
    split_ifs at htake with hdouble
    refine ⟨by rw [htext]; rfl, ?_⟩
    intro other hother hsame
    apply hdouble
    rw [List.any_eq_true]
    exact ⟨other, hother, by rw [hsame, htext]; exact decide_eq_true rfl⟩
  · cases htake

theorem pairSteps_taken {earlier : List Node} {pairs : List (Node × Node)}
    (htaken : ∀ step ∈ pairSteps earlier pairs, step.take reader = .ok ()) :
    StringKeys reader pairs ∧
      ∀ pair ∈ pairs, ∀ other ∈ earlier, keyText reader other ≠ keyText reader pair.1 := by
  induction pairs generalizing earlier with
  | nil => exact ⟨⟨fun _ hpair => absurd hpair List.not_mem_nil, List.nodup_nil⟩,
      fun _ hpair => absurd hpair List.not_mem_nil⟩
  | cons first rest ih =>
    obtain ⟨key, value⟩ := first
    obtain ⟨hsome, hfresh⟩ := isSome_keyText_of_take (htaken _ List.mem_cons_self)
    obtain ⟨hrest, hlater⟩ := ih fun step hstep =>
      htaken step (List.mem_cons_of_mem _ (List.mem_cons_of_mem _ hstep))
    refine ⟨⟨?_, ?_⟩, ?_⟩
    · intro pair hpair
      rcases List.mem_cons.mp hpair with hfirst | hmem
      · rw [hfirst]
        exact hsome
      · exact hrest.1 pair hmem
    · refine List.nodup_cons.mpr ⟨?_, hrest.2⟩
      intro hdouble
      obtain ⟨pair, hpair, hsame⟩ := List.mem_map.mp hdouble
      exact hlater pair hpair key (List.mem_append_right _ List.mem_cons_self) hsame.symm
    · intro pair hpair other hother
      rcases List.mem_cons.mp hpair with hfirst | hmem
      · rw [hfirst]
        exact hfresh other hother
      · exact hlater pair hmem other (List.mem_append_left _ hother)

theorem construct_mem_pairSteps {earlier : List Node} {pairs : List (Node × Node)}
    {pair : Node × Node} (hpair : pair ∈ pairs) : .construct pair.2 ∈ pairSteps earlier pairs := by
  induction pairs generalizing earlier with
  | nil => cases hpair
  | cons first rest ih =>
    obtain ⟨key, value⟩ := first
    rw [pairSteps]
    rcases List.mem_cons.mp hpair with hfirst | hmem
    · rw [hfirst]
      exact List.mem_cons_of_mem _ List.mem_cons_self
    · exact List.mem_cons_of_mem _ (List.mem_cons_of_mem _ (ih hmem))

section

variable (hloaded : Loaded reader root)
  (hjson : ∀ value, value.Within (valueOf reader root) → IsJson value)
include hloaded

/-- A node that is constructed while a collection is filled. -/
theorem visited_of_step (hnode : node ∈ order [root]) (hstep : .construct child ∈ steps node)
    (hvalue : (valueOf reader child).Within (valueOf reader root)) : Visited reader root child := by
  have htake := hloaded.taken node hnode _ hstep
  obtain ⟨made, hmade, -⟩ := map_eq_ok.mp htake
  refine ⟨⟨made, hmade⟩, fun hcollection => ⟨?_, hvalue⟩⟩
  apply mem_order_of_pending hnode
  exact List.mem_filterMap.mpr ⟨.construct child, hstep, if_pos hcollection⟩

include hjson

/-- A sequence with items that the loader has come to is a list. -/
theorem tag_of_visited_sequence {line : ℕ} {tag : Tag} {items : List Node} {item : Node}
    (hitem : item ∈ items) (hvisited : Visited reader root (.sequence line tag items)) :
    tag = .collection .seq := by
  obtain ⟨made, hmade⟩ := hvisited.constructed
  cases tag with
  | atom tag => cases hmade
  | other name => cases hmade
  | collection tag =>
    obtain ⟨hnode, hwithin⟩ := hvisited.filled rfl
    have hitems : items ≠ [] := List.ne_nil_of_mem hitem
    cases tag with
    | seq => rfl
    | set => exact (hjson _ hwithin).elim
    | map =>
      have htake := hloaded.taken _ hnode (.refuse (.other .typeError)) (by
        simp [steps, Node.tag, mappingSteps, hitems])
      cases htake
    | omap =>
      have htuple : Value.object "tuple" "" ∈ items.map fun _ => Value.object "tuple" "" :=
        List.mem_map.mpr ⟨item, hitem, rfl⟩
      exact (hjson _ ((Value.Within.listItem htuple .self).trans hwithin)).elim
    | pairs =>
      have htuple : Value.object "tuple" "" ∈ items.map fun _ => Value.object "tuple" "" :=
        List.mem_map.mpr ⟨item, hitem, rfl⟩
      exact (hjson _ ((Value.Within.listItem htuple .self).trans hwithin)).elim

/-- A mapping that is filled is a dict. -/
theorem tag_of_visited_mapping {line : ℕ} {tag : Tag} {pairs : List (Node × Node)}
    (hcollection : tag.isCollection = true)
    (hvisited : Visited reader root (.mapping line tag pairs)) : tag = .collection .map := by
  obtain ⟨hnode, hwithin⟩ := hvisited.filled hcollection
  have htaken := hloaded.taken _ hnode
  cases tag with
  | atom tag => cases hcollection
  | other name => cases hcollection
  | collection tag =>
    cases tag with
    | map => rfl
    | set => exact (hjson _ hwithin).elim
    | seq => cases htaken _ List.mem_cons_self
    | omap => cases htaken _ List.mem_cons_self
    | pairs => cases htaken _ List.mem_cons_self

/-- The keys of a mapping that is filled are looked at. -/
theorem stringKeys_of_visited {line : ℕ} {tag : Tag} {pairs : List (Node × Node)}
    (hcollection : tag.isCollection = true)
    (hvisited : Visited reader root (.mapping line tag pairs)) : StringKeys reader pairs := by
  have hmap := tag_of_visited_mapping hloaded hjson hcollection hvisited
  have htaken := hloaded.taken _ (hvisited.filled hcollection).1
  rw [hmap] at htaken
  exact (pairSteps_taken htaken).1

omit hloaded hjson in
/-- A mapping that is read as a scalar has a key that is no string. -/
theorem not_stringKeys_of_scalar {line : ℕ} {tag : Tag} {pairs : List (Node × Node)}
    (hcollection : tag.isCollection = false)
    (hvisited : Visited reader root (.mapping line tag pairs)) : ¬ StringKeys reader pairs := by
  intro hkeys
  obtain ⟨made, hmade⟩ := hvisited.constructed
  have hscalar : ∃ text, constructScalarIn line pairs = .ok text := by
    cases tag with
    | collection tag => cases hcollection
    | other name => cases hmade
    | atom tag =>
      unfold constructObject at hmade
      dsimp only [Node.tag] at hmade
      split at hmade
      · cases hmade
      next text htext =>
        rw [constructScalar] at htext
        exact ⟨text, htext⟩
  obtain ⟨text, htext⟩ := hscalar
  have hvalue : ∃ pair ∈ pairs, pair.1.tag = .value := by
    clear hkeys hvisited hmade
    induction pairs with
    | nil =>
      rw [constructScalarIn] at htext
      cases htext
    | cons first rest ih =>
      obtain ⟨key, value⟩ := first
      rw [constructScalarIn] at htext
      split_ifs at htext with hkey
      · exact ⟨(key, value), List.mem_cons_self, hkey⟩
      · obtain ⟨pair, hpair, htag⟩ := ih htext
        exact ⟨pair, List.mem_cons_of_mem _ hpair, htag⟩
  obtain ⟨pair, hpair, htag⟩ := hvalue
  have hsome := hkeys.1 pair hpair
  unfold keyText constructObject at hsome
  rw [htag] at hsome
  cases hsome

omit hloaded hjson in
theorem collection_of_plain {line : ℕ} {tag : Tag} {pairs : List (Node × Node)}
    (hvisited : Visited reader root (.mapping line tag pairs))
    (hplain : tag.isCollection = true ∨ StringKeys reader pairs) : tag.isCollection = true := by
  rcases hplain with hcollection | hkeys
  · exact hcollection
  · rw [← Bool.not_eq_false]
    exact fun hscalar => not_stringKeys_of_scalar hscalar hvisited hkeys

/-- What stands in a mapping that is filled is come to as well. -/
theorem visited_pair {line : ℕ} {tag : Tag} {pairs : List (Node × Node)} {pair : Node × Node}
    (hcollection : tag.isCollection = true)
    (hvisited : Visited reader root (.mapping line tag pairs)) (hpair : pair ∈ pairs) :
    Visited reader root pair.1 ∧ Visited reader root pair.2 := by
  have hkeys := stringKeys_of_visited hloaded hjson hcollection hvisited
  obtain ⟨hnode, hwithin⟩ := hvisited.filled hcollection
  have hmap := tag_of_visited_mapping hloaded hjson hcollection hvisited
  rw [hmap] at hnode hwithin
  apply And.intro
  · have hsome := hkeys.1 pair hpair
    unfold keyText at hsome
    split at hsome
    next text htext =>
      refine ⟨⟨_, htext⟩, ?_⟩
      intro hfilled
      rw [constructObject_eq_none.mpr hfilled] at htext
      cases htext
    · cases hsome
  · have hstep : Step.construct pair.2 ∈ steps (.mapping line (.collection .map) pairs) :=
      construct_mem_pairSteps hpair
    apply visited_of_step hloaded hnode hstep
    obtain ⟨key, hkey⟩ := exists_mem_itemsOf reader hpair
    exact (Value.Within.dictItem hkey .self).trans hwithin

theorem visited_item {line : ℕ} {tag : Tag} {items : List Node} {item : Node}
    (hvisited : Visited reader root (.sequence line tag items)) (hitem : item ∈ items) :
    Visited reader root item := by
  have hseq := tag_of_visited_sequence hloaded hjson hitem hvisited
  rw [hseq] at hvisited
  obtain ⟨hnode, hwithin⟩ := hvisited.filled rfl
  have hstep : Step.construct item ∈ steps (.sequence line (.collection .seq) items) :=
    List.mem_map.mpr ⟨item, hitem, rfl⟩
  apply visited_of_step hloaded hnode hstep
  exact (Value.Within.listItem (valueOf_mem_valuesOf hitem) .self).trans hwithin

/-- The loader comes to everything below a mapping or a sequence when no mapping is read as a
scalar, or when all keys are strings. -/
theorem visited_of_within (hnode : node.Within child) (hchild : Visited reader root child)
    (hplain : ∀ line tag pairs, (Node.mapping line tag pairs).Within child →
      tag.isCollection = true ∨ StringKeys reader pairs) : Visited reader root node := by
  induction hnode with
  | self => exact hchild
  | item hitem _ ih =>
    exact ih (visited_item hloaded hjson hchild hitem) fun line tag pairs hwithin =>
      hplain line tag pairs (.item hitem hwithin)
  | key hpair _ ih =>
    have hcollection := collection_of_plain hchild (hplain _ _ _ .self)
    exact ih (visited_pair hloaded hjson hcollection hchild hpair).1 fun line tag pairs hwithin =>
      hplain line tag pairs (.key hpair hwithin)
  | value hpair _ ih =>
    have hcollection := collection_of_plain hchild (hplain _ _ _ .self)
    exact ih (visited_pair hloaded hjson hcollection hchild hpair).2 fun line tag pairs hwithin =>
      hplain line tag pairs (.value hpair hwithin)

end

/-! ## The document -/

theorem composeItems_ok {items : List Event} {nodes : List Node} {item : Event}
    (hcompose : composeItems items = .ok nodes) (hitem : item ∈ items) :
    ∃ node, composeNode item = .ok node := by
  induction items generalizing nodes with
  | nil => cases hitem
  | cons first rest ih =>
    unfold composeItems at hcompose
    obtain ⟨node, hfirst, hothers⟩ := bind_eq_ok.mp hcompose
    obtain ⟨others, hrest, -⟩ := bind_eq_ok.mp hothers
    rcases List.mem_cons.mp hitem with hsame | hmem
    · rw [hsame]
      exact ⟨node, hfirst⟩
    · exact ih hrest hmem

theorem composePairs_ok {pairs : List (Event × Event)} {nodes : List (Node × Node)}
    {pair : Event × Event} (hcompose : composePairs pairs = .ok nodes) (hpair : pair ∈ pairs) :
    (∃ node, composeNode pair.1 = .ok node) ∧ ∃ node, composeNode pair.2 = .ok node := by
  induction pairs generalizing nodes with
  | nil => cases hpair
  | cons first rest ih =>
    obtain ⟨key, value⟩ := first
    unfold composePairs at hcompose
    obtain ⟨keyNode, hkey, hvalues⟩ := bind_eq_ok.mp hcompose
    obtain ⟨valueNode, hvalue, hothers⟩ := bind_eq_ok.mp hvalues
    obtain ⟨others, hrest, -⟩ := bind_eq_ok.mp hothers
    rcases List.mem_cons.mp hpair with hsame | hmem
    · rw [hsame]
      exact ⟨⟨keyNode, hkey⟩, valueNode, hvalue⟩
    · exact ih hrest hmem

/-- A document that is composed has no alias. -/
theorem ne_alias_of_composeNode {event sub : Event} (hwithin : sub.Within event)
    (hcompose : ∃ node, composeNode event = .ok node) : sub ≠ .alias := by
  induction hwithin with
  | self =>
    obtain ⟨node, hnode⟩ := hcompose
    intro halias
    rw [halias] at hnode
    cases hnode
  | item hchild _ ih =>
    obtain ⟨node, hnode⟩ := hcompose
    obtain ⟨nodes, hitems, -⟩ := map_eq_ok.mp hnode
    exact ih (composeItems_ok hitems hchild)
  | key hpair _ ih =>
    obtain ⟨node, hnode⟩ := hcompose
    obtain ⟨nodes, hpairs, -⟩ := map_eq_ok.mp hnode
    exact ih (composePairs_ok hpairs hpair).1
  | value hpair _ ih =>
    obtain ⟨node, hnode⟩ := hcompose
    obtain ⟨nodes, hpairs, -⟩ := map_eq_ok.mp hnode
    exact ih (composePairs_ok hpairs hpair).2

theorem composeStream_eq_ok {stream : Stream} {event : Event} {found : Option Node}
    (hcompose : composeStream stream = .ok found) (hroot : stream.root = some event) :
    ∃ node, composeNode event = .ok node := by
  unfold composeStream at hcompose
  rw [hroot] at hcompose
  cases hnode : composeNode event with
  | ok node => exact ⟨node, rfl⟩
  | error error =>
    simp only [hnode] at hcompose
    cases hcompose

/-! ## Values -/

theorem eq_of_within_scalar {sub : Value} (hscalar : isScalar value = true)
    (hwithin : sub.Within value) : sub = value := by
  cases hwithin with
  | self => rfl
  | listItem => cases hscalar
  | dictItem => cases hscalar

theorem isScalar_scalarValue (reader : Reader) (node : Node) :
    isScalar (scalarValue reader node) = true := by
  unfold scalarValue
  split
  next value hvalue => exact isScalar_of_constructObject hvalue
  · rfl

/-- All keys of a dict are strings. -/
def StrKeys (items : Items) : Prop := ∀ item ∈ items, ∃ text, item.1 = .str text

theorem strKeys_of_scalar (hscalar : isScalar value = true)
    (hwithin : (Value.dict items).Within value) : StrKeys items := by
  rw [← eq_of_within_scalar hscalar hwithin] at hscalar
  cases hscalar

theorem keys_itemsOf (reader : Reader) (pairs : List (Node × Node)) :
    (itemsOf reader pairs).map (·.1) =
      (pairs.map fun pair => keyText reader pair.1).map fun text => Value.str (text.getD "") := by
  induction pairs with
  | nil => rfl
  | cons first rest ih =>
    rw [itemsOf, List.map_cons, List.map_cons, List.map_cons, ih]

theorem strKeys_pairs (reader : Reader) (pairs : List (Node × Node)) :
    StrKeys (itemsOf reader pairs) := by
  intro item hitem
  have hkey : item.1 ∈ (itemsOf reader pairs).map (·.1) := List.mem_map_of_mem hitem
  rw [keys_itemsOf] at hkey
  obtain ⟨text, -, htext⟩ := List.mem_map.mp hkey
  exact ⟨_, htext.symm⟩

theorem valueOf_of_not_collection (hcollection : node.tag.isCollection = false) :
    valueOf reader node = scalarValue reader node := by
  cases node with
  | scalar line tag value =>
    cases tag with
    | atom tag => rfl
    | other name => rfl
    | collection tag => cases hcollection
  | sequence line tag items =>
    cases tag with
    | atom tag => rfl
    | other name => rfl
    | collection tag => cases hcollection
  | mapping line tag pairs =>
    cases tag with
    | atom tag => rfl
    | other name => rfl
    | collection tag => cases hcollection

/-- An empty list, an empty dict and an object hold no dict with keys. -/
theorem strKeys_of_hollow (hhollow : value = .list [] ∨ value = .dict [] ∨ ∃ typeName str,
    value = .object typeName str) (hwithin : (Value.dict items).Within value) : StrKeys items := by
  rcases hhollow with hlist | hdict | ⟨typeName, str, hobject⟩
  · rw [hlist] at hwithin
    cases hwithin with
    | listItem hchild => cases hchild
  · rw [hdict] at hwithin
    cases hwithin with
    | self => exact fun item hitem => absurd hitem List.not_mem_nil
    | dictItem hitem => cases hitem
  · rw [hobject] at hwithin
    cases hwithin

theorem strKeys_of_tuples {α : Type} {found : List α}
    (hwithin : (Value.dict items).Within (.list (found.map fun _ => .object "tuple" ""))) :
    StrKeys items := by
  cases hwithin with
  | listItem hchild hwithin =>
    obtain ⟨-, -, htuple⟩ := List.mem_map.mp hchild
    rw [← htuple] at hwithin
    cases hwithin

mutual

/-- The keys of all dicts in a document are strings. -/
theorem strKeys_valueOf (reader : Reader) (items : Items) : ∀ node : Node,
    (Value.dict items).Within (valueOf reader node) → StrKeys items
  | .scalar line (.collection tag) value => by
      intro hwithin
      cases tag with
      | map => exact strKeys_of_hollow (.inr (.inl rfl)) hwithin
      | set => exact strKeys_of_hollow (.inr (.inr ⟨_, _, rfl⟩)) hwithin
      | seq | omap | pairs => exact strKeys_of_hollow (.inl rfl) hwithin
  | .sequence line (.collection tag) nodes => by
      intro hwithin
      cases tag with
      | map => exact strKeys_of_hollow (.inr (.inl rfl)) hwithin
      | set => exact strKeys_of_hollow (.inr (.inr ⟨_, _, rfl⟩)) hwithin
      | seq =>
        cases hwithin with
        | listItem hchild hwithin =>
          exact strKeys_valuesOf reader items nodes _ hchild hwithin
      | omap | pairs => exact strKeys_of_tuples hwithin
  | .mapping line (.collection tag) pairs => by
      intro hwithin
      cases tag with
      | map =>
        cases hwithin with
        | self => exact strKeys_pairs reader pairs
        | dictItem hitem hwithin => exact strKeys_itemsOf reader items pairs _ hitem hwithin
      | set => exact strKeys_of_hollow (.inr (.inr ⟨_, _, rfl⟩)) hwithin
      | seq | omap | pairs => exact strKeys_of_hollow (.inl rfl) hwithin
  | .scalar line (.atom tag) value | .sequence line (.atom tag) nodes
  | .mapping line (.atom tag) pairs | .scalar line (.other tag) value
  | .sequence line (.other tag) nodes | .mapping line (.other tag) pairs => by
      intro hwithin
      rw [valueOf_of_not_collection rfl] at hwithin
      exact strKeys_of_scalar (isScalar_scalarValue reader _) hwithin

theorem strKeys_valuesOf (reader : Reader) (items : Items) : ∀ (nodes : List Node) (value : Value),
    value ∈ valuesOf reader nodes → (Value.dict items).Within value → StrKeys items
  | [], _, hvalue, _ => absurd hvalue List.not_mem_nil
  | node :: rest, value, hvalue, hwithin => by
      rw [valuesOf] at hvalue
      rcases List.mem_cons.mp hvalue with hfirst | hmem
      · rw [hfirst] at hwithin
        exact strKeys_valueOf reader items node hwithin
      · exact strKeys_valuesOf reader items rest value hmem hwithin

theorem strKeys_itemsOf (reader : Reader) (items : Items) :
    ∀ (pairs : List (Node × Node)) (item : Value × Value), item ∈ itemsOf reader pairs →
      (Value.dict items).Within item.2 → StrKeys items
  | [], _, hitem, _ => absurd hitem List.not_mem_nil
  | (key, node) :: rest, item, hitem, hwithin => by
      rw [itemsOf] at hitem
      rcases List.mem_cons.mp hitem with hfirst | hmem
      · rw [hfirst] at hwithin
        exact strKeys_valueOf reader items node hwithin
      · exact strKeys_itemsOf reader items rest item hmem hwithin

end

/-! ## The parts of a board -/

theorem get_of_mem {name : String} (hkeys : StrKeys items) (hnodup : (items.map (·.1)).Nodup)
    (hitem : (.str name, value) ∈ items) : get items name = some value := by
  induction items with
  | nil => cases hitem
  | cons first rest ih =>
    obtain ⟨hfirst, hrest⟩ := List.nodup_cons.mp hnodup
    obtain ⟨text, htext⟩ := hkeys first List.mem_cons_self
    unfold get Value.item
    rw [List.find?_cons, htext]
    rcases List.mem_cons.mp hitem with hsame | hmem
    · rw [← hsame] at htext
      have hname : name = text := Value.str.inj htext
      have hkey : (Value.str text).sameKey (.str name) = true := decide_eq_true hname.symm
      rw [hkey, ← hsame]
      rfl
    · have hname : text ≠ name := by
        intro hname
        apply hfirst
        show first.1 ∈ rest.map (·.1)
        rw [htext, hname]
        exact List.mem_map.mpr ⟨_, hmem, rfl⟩
      have hkey : (Value.str text).sameKey (.str name) = false := decide_eq_false hname
      rw [hkey]
      exact ih (fun item hitem => hkeys item (List.mem_cons_of_mem _ hitem)) hrest hmem

theorem mem_of_get {name : String} (hget : get items name = some value) :
    ∃ item ∈ items, item.2 = value ∧ item.1.sameKey (.str name) = true := by
  unfold get Value.item at hget
  obtain ⟨item, hfound, hvalue⟩ := Option.map_eq_some_iff.mp hget
  have hname := List.find?_some hfound
  exact ⟨item, List.mem_of_find?_eq_some hfound, hvalue, hname⟩

theorem nodup_itemsOf {pairs : List (Node × Node)} (hkeys : StringKeys reader pairs) :
    ((itemsOf reader pairs).map (·.1)).Nodup := by
  rw [keys_itemsOf]
  apply List.Nodup.map_on _ hkeys.2
  intro first hfirst second hsecond hsame
  obtain ⟨pair, hpair, hkey⟩ := List.mem_map.mp hfirst
  obtain ⟨pair', hpair', hkey'⟩ := List.mem_map.mp hsecond
  obtain ⟨text, htext⟩ := Option.isSome_iff_exists.mp (hkeys.1 pair hpair)
  obtain ⟨text', htext'⟩ := Option.isSome_iff_exists.mp (hkeys.1 pair' hpair')
  rw [← hkey, ← hkey', htext, htext'] at hsame ⊢
  exact congrArg some (Value.str.inj hsame)

/-- The keys of a board that has been loaded are different strings. -/
theorem nodup_board (hloaded : Loaded reader root) (hboard : valueOf reader root = .dict board) :
    (board.map (·.1)).Nodup := by
  have htaken := hloaded.taken root (mem_order_of_mem List.mem_cons_self)
  have hcollection := hloaded.collection
  cases root with
  | scalar line tag _ | sequence line tag _ =>
    cases tag with
    | atom tag => cases hcollection
    | other name => cases hcollection
    | collection tag =>
      cases tag <;> cases hboard
      exact List.nodup_nil
  | mapping line tag pairs =>
    cases tag with
    | atom tag => cases hcollection
    | other name => cases hcollection
    | collection tag =>
      cases tag <;> cases hboard
      exact nodup_itemsOf (pairSteps_taken htaken).1

theorem length_columnNames {cells : List Value} {names : List String}
    (hnames : columnNames cells = some names) : names.length = cells.length := by
  induction cells generalizing names with
  | nil =>
    cases hnames
    rfl
  | cons cell rest ih =>
    cases cell with
    | str text =>
      obtain ⟨others, hothers, hsame⟩ := Option.map_eq_some_iff.mp hnames
      rw [← hsame, List.length_cons, List.length_cons, ih hothers]
    | _ => cases hnames

theorem isTable_of_inlineShape {query : Value} (hshape : inlineShape query = .ok ()) :
    IsTable query := by
  unfold inlineShape at hshape
  split at hshape
  next items =>
    split at hshape
    next columns values hcolumns hvalues =>
      split_ifs at hshape
      split at hshape
      next cells =>
        split at hshape
        next names hnames =>
          split_ifs at hshape
          split at hshape
          next rows =>
            split_ifs at hshape with hrows
            refine ⟨items, cells, rows, rfl, hcolumns, hvalues, ?_⟩
            intro row hrow
            have hentries := List.all_eq_true.mp hrows.2 row hrow
            split at hentries
            next entries =>
              refine ⟨entries, rfl, ?_⟩
              rw [of_decide_eq_true hentries, length_columnNames hnames]
            · cases hentries
          · cases hshape
        · cases hshape
      · cases hshape
    · cases hshape
  · cases hshape

theorem inline_ok {query : Value} (hinline : inline query = .ok ()) :
    IsTable query ∧ safeTree 0 query = .ok () := by
  obtain ⟨⟨⟩, hshape, hwalk⟩ := bind_eq_ok.mp hinline
  obtain ⟨⟨⟩, hsafe, -⟩ := bind_eq_ok.mp hwalk
  exact ⟨isTable_of_inlineShape hshape, hsafe⟩

theorem checkQuery_ok {bindings : Bindings} {name : String} {query : Value}
    (hcheck : checkQuery libraries bindings name query = .ok ()) :
    (∃ sql prepared, query = .str sql ∧ prepare libraries bindings sql = .ok prepared) ∨
      (∀ sql, query ≠ .str sql) ∧ inline query = .ok () := by
  have hquery : queryChecked libraries bindings query = .ok () := by
    rw [checkQuery_eq] at hcheck
    cases hchecked : queryChecked libraries bindings query with
    | ok _ => rfl
    | error raised =>
      rw [hchecked] at hcheck
      cases hcheck
  cases query with
  | str sql =>
    obtain ⟨prepared, hprepared, -⟩ := map_eq_ok.mp hquery
    exact Or.inl ⟨sql, prepared, rfl, hprepared⟩
  | _ => exact Or.inr ⟨fun sql hsql => (by cases hsql), hquery⟩

/-- What the checks of a board have established. -/
structure Checked (libraries : Libraries) (board queries declared : Items) : Prop where
  found : get board "queries" = some (.dict queries)
  bounded : boardVariables board = .ok declared
  shown : safeTree 0 (.dict (display board)) = .ok ()
  named : checkQueries queries (.dict (display board)) = .ok ()
  walked : safeTree 0 (.dict declared) = .ok ()
  each : ∀ item ∈ queries,
    checkQuery libraries (defaults declared) (keyName item.1) item.2 = .ok ()

theorem checked_of_checkBoard (hcheck : checkBoard libraries board = .ok ()) :
    ∃ queries declared, Checked libraries board queries declared := by
  unfold checkBoard at hcheck
  obtain ⟨queries, hqueries, hcharts⟩ := bind_eq_ok.mp hcheck
  obtain ⟨⟨⟩, -, hdisplay⟩ := bind_eq_ok.mp hcharts
  obtain ⟨⟨⟩, hsafe, hreferences⟩ := bind_eq_ok.mp hdisplay
  obtain ⟨⟨⟩, hnamed, hvariables⟩ := bind_eq_ok.mp hreferences
  obtain ⟨declared, hdeclared, hwalk⟩ := bind_eq_ok.mp hvariables
  obtain ⟨⟨⟩, hwalked, hspecs⟩ := bind_eq_ok.mp hwalk
  obtain ⟨⟨⟩, -, heach⟩ := bind_eq_ok.mp hspecs
  refine ⟨queries, declared, ⟨?_, hdeclared, hsafe, hnamed, hwalked, forM_eq_ok.mp heach⟩⟩
  unfold boardQueries section? at hqueries
  cases hget : get board "queries" with
  | none =>
    rw [hget] at hqueries
    cases hqueries
  | some value =>
    rw [hget] at hqueries
    cases value with
    | dict items =>
      dsimp only at hqueries
      split_ifs at hqueries
      rw [Except.ok.inj hqueries]
    | _ => cases hqueries

theorem variables_of_get {declared : Items} (hdeclared : boardVariables board = .ok declared)
    (hget : get board "variables" = some value) : value = .dict declared := by
  unfold boardVariables section? at hdeclared
  rw [hget] at hdeclared
  cases value with
  | dict items =>
    dsimp only at hdeclared
    split_ifs at hdeclared
    rw [Except.ok.inj hdeclared]
  | _ => cases hdeclared

theorem isJson_of_clean (hclean : Clean value) (hkeys : ∀ items, value = .dict items → StrKeys items) :
    IsJson value := by
  cases value with
  | dict items => exact hkeys items rfl
  | object => exact hclean
  | nonFinite => exact hclean
  | _ => trivial

/-- An item of a board is displayed, or is one of the sections at its root. -/
theorem mem_board {queries declared : Items} (hchecked : Checked libraries board queries declared)
    (hkeys : StrKeys board) (hnodup : (board.map (·.1)).Nodup) {item : Value × Value}
    (hitem : item ∈ board) :
    item ∈ display board ∨ item.2 = .dict queries ∨ item.2 = .dict declared := by
  obtain ⟨key, child⟩ := item
  obtain ⟨text, htext⟩ := hkeys _ hitem
  dsimp only at htext
  rw [htext] at hitem ⊢
  by_cases hsection : text ∈ ["queries", "variables"]
  · right
    have hget := get_of_mem hkeys hnodup hitem
    rcases List.mem_cons.mp hsection with hqueries | hmem
    · left
      rw [hqueries, hchecked.found] at hget
      exact (Option.some_inj.mp hget).symm
    · right
      rw [List.mem_singleton.mp hmem] at hget
      exact variables_of_get hchecked.bounded hget
  · left
    apply List.mem_filter.mpr ⟨hitem, _⟩
    have hout : keyIn ["queries", "variables"] (.str text) = false :=
      (Bool.not_eq_true _).mp fun hin => hsection (List.contains_iff_mem.mp hin)
    rw [hout]
    rfl

/-- An accepted board is JSON throughout. -/
theorem isJson_of_checked {queries declared : Items}
    (hchecked : Checked libraries board queries declared)
    (hkeys : ∀ items, (Value.dict items).Within (.dict board) → StrKeys items)
    (hnodup : (board.map (·.1)).Nodup) (hwithin : value.Within (.dict board)) : IsJson value := by
  have hclean {part : Value} {depth : ℕ} (hpart : part.Within (.dict board))
      (hsafe : safeTree depth part = .ok ()) (hvalue : value.Within part) : IsJson value := by
    apply isJson_of_clean (clean_of_within hvalue hsafe)
    intro items hsame
    rw [hsame] at hvalue
    exact hkeys items (hvalue.trans hpart)
  cases hwithin with
  | self => exact hkeys board .self
  | dictItem hitem hvalue =>
    rcases mem_board hchecked (hkeys board .self) hnodup hitem with hdisplay | hqueries | hdeclared
    · have hsafe := hchecked.shown
      unfold safeTree at hsafe
      obtain ⟨⟨⟩, -, hitems⟩ := bind_eq_ok.mp hsafe
      exact hclean (.dictItem hitem .self) (safeItems_ok hitems hdisplay).2 hvalue
    · have hpart : (Value.dict queries).Within (.dict board) := by
        rw [← hqueries]
        exact .dictItem hitem .self
      rw [hqueries] at hvalue
      cases hvalue with
      | self => exact hkeys queries hpart
      | dictItem hquery hvalue =>
        have hwhole := (Value.Within.dictItem hquery .self).trans hpart
        rcases checkQuery_ok (hchecked.each _ hquery) with ⟨sql, prepared, hsql, -⟩ | ⟨-, hinline⟩
        · rw [hsql] at hvalue
          rw [eq_of_within_scalar rfl hvalue]
          trivial
        · exact hclean hwhole (inline_ok hinline).2 hvalue
    · have hpart : (Value.dict declared).Within (.dict board) := by
        rw [← hdeclared]
        exact .dictItem hitem .self
      rw [hdeclared] at hvalue
      exact hclean hpart hchecked.walked hvalue

/-! ## Accepted boards -/

theorem accepted_cases (haccepted : parseBoard libraries content = .ok board) :
    ∃ root, composeStream (libraries.reader.parse content) = .ok (some root) ∧
      constructDocument libraries.reader root = .ok (.dict board) ∧
      checkBoard libraries board = .ok () := by
  unfold parseBoard at haccepted
  split_ifs at haccepted
  split at haccepted
  · cases haccepted
  next items hload =>
    obtain ⟨⟨⟩, hcheck, hboard⟩ := map_eq_ok.mp haccepted
    rw [hboard] at hload hcheck
    unfold load at hload
    split at hload
    · cases hload
    · cases hload
    next root hroot => exact ⟨root, hroot, hload, hcheck⟩
  · cases haccepted

theorem not_blocked_of_clean {part : Value} (hsafe : safeTree depth part = .ok ())
    (hwithin : (Value.dict items).Within part) {item : Value × Value} (hitem : item ∈ items) :
    keyIn blockedKeys item.1 = false :=
  clean_of_within hwithin hsafe item hitem

/-- Each part that is shown has been walked. -/
theorem safeTree_of_shown {queries declared : Items}
    (hchecked : Checked libraries board queries declared) (hshown : Shown board part) :
    safeTree 0 part = .ok () := by
  rcases hshown with hdisplay | hvariables | ⟨queries', name, hget, hquery, hinline⟩
  · rw [hdisplay]
    exact hchecked.shown
  · rw [variables_of_get hchecked.bounded hvariables]
    exact hchecked.walked
  · rw [hchecked.found] at hget
    rw [← Value.dict.inj (Option.some_inj.mp hget)] at hquery
    rcases checkQuery_ok (hchecked.each _ hquery) with ⟨sql, prepared, hsql, -⟩ | ⟨-, hok⟩
    · exact absurd hsql (hinline sql)
    · exact (inline_ok hok).2

/-- The guarantee on an accepted board holds exactly when no mapping of its document is read as
a scalar. -/
theorem guarded_iff_plain (libraries : Libraries) (content : String) (board : Items)
    (haccepted : parseBoard libraries content = .ok board) :
    Guarded libraries content board ↔ PlainMappings libraries content := by
  obtain ⟨root, hroot, hconstruct, hcheck⟩ := accepted_cases haccepted
  obtain ⟨hloaded, hboard⟩ := loaded_of_constructDocument hconstruct
  obtain ⟨queries, declared, hchecked⟩ := checked_of_checkBoard hcheck
  have hkeys (items : Items) (hwithin : (Value.dict items).Within (.dict board)) : StrKeys items := by
    rw [← hboard] at hwithin
    exact strKeys_valueOf libraries.reader items root hwithin
  have hnodup := nodup_board hloaded hboard
  have hjson (value : Value) (hwithin : value.Within (valueOf libraries.reader root)) :
      IsJson value := by
    rw [hboard] at hwithin
    exact isJson_of_checked hchecked hkeys hnodup hwithin
  have hvisited : Visited libraries.reader root root :=
    ⟨⟨none, constructObject_eq_none.mpr hloaded.collection⟩,
      fun _ => ⟨mem_order_of_mem List.mem_cons_self, .self⟩⟩
  have hsame (other : Node)
      (hother : composeStream (libraries.reader.parse content) = .ok (some other)) :
      other = root := by
    rw [hroot] at hother
    exact (Option.some_inj.mp (Except.ok.inj hother)).symm
  apply Iff.intro
  · intro hguarded other hother line tag pairs hwithin
    rw [hsame other hother] at hwithin
    have hstrings := hguarded.keys root hroot
    have hcome := visited_of_within hloaded hjson hwithin hvisited fun line tag pairs hbelow =>
      Or.inr (hstrings line tag pairs hbelow)
    exact collection_of_plain hcome (Or.inr (hstrings line tag pairs hwithin))
  · intro hplain
    have hcollections := hplain root hroot
    refine ⟨?_, ?_, ?_, ?_, ?_, ?_, ?_⟩
    · intro event hevent sub hwithin
      exact ne_alias_of_composeNode hwithin (composeStream_eq_ok hroot hevent)
    · intro other hother line tag pairs hwithin
      rw [hsame other hother] at hwithin
      have hcome := visited_of_within hloaded hjson hwithin hvisited fun line tag pairs hbelow =>
        Or.inl (hcollections line tag pairs hbelow)
      exact stringKeys_of_visited hloaded hjson (hcollections line tag pairs hwithin) hcome
    · intro part hpart items hwithin item hitem
      have hshown : Shown board part := hpart.imp_right Or.inl
      exact not_blocked_of_clean (safeTree_of_shown hchecked hshown) hwithin hitem
    · intro part hshown text hwithin
      exact clean_of_within hwithin (safeTree_of_shown hchecked hshown)
    · intro value hwithin
      rw [← hboard] at hwithin
      exact hjson value hwithin
    · intro items hwithin child hchild
      obtain ⟨name, hname, hquery⟩ := query_of_within hwithin hchecked.named child hchild
      exact ⟨queries, name, hchecked.found, hname, hquery⟩
    · refine ⟨queries, hchecked.found, fun item hitem => ?_⟩
      rcases checkQuery_ok (hchecked.each item hitem) with ⟨sql, prepared, hsql, hprepared⟩ | ⟨-, hok⟩
      · exact Or.inl ⟨sql, prepared, declared, hsql, hchecked.bounded, hprepared⟩
      · exact Or.inr (inline_ok hok).1

/-! ## A board of orders -/

/-- A scalar of a document. -/
def word (text : String) : Event := .scalar 1 (.atom .str) text

/-- A mapping of a document. -/
def block (pairs : List (Event × Event)) : Event := .mapping 1 (.collection .map) pairs

/-- A list of a document. -/
def flow (items : List Event) : Event := .sequence 1 (.collection .seq) items

/-- A board with one chart over one inline query. -/
def ordersBoard (title : Event) : Event :=
  block [(word "title", title),
    (word "queries", block [(word "orders",
      block [(word "columns", flow [word "region"]), (word "values", flow [flow [word "north"]])])]),
    (word "charts", block [(word "regions", block [(word "query", word "orders")])])]

/-- Its text. -/
def ordersText (title : String) : String :=
  "\x7btitle: " ++ title ++ ", queries: \x7borders: \x7bcolumns: [region], values: [[north]]\x7d\x7d, " ++
    "charts: \x7bregions: \x7bquery: orders\x7d\x7d\x7d"

/-- Libraries that read one text, as this document. -/
def readsAs (content : String) (root : Event) : Libraries where
  reader :=
    { parse := fun text => ⟨if text = content then some root else none, none⟩
      read := fun _ _ => .error (.yaml 1 "invalid")
      scalar_of_read := @isScalar_of_unread }
  engine := ⟨fun _ => none, fun _ => .ok (), fun _ => false, fun _ => none, rfl, quote_unread⟩
  crash _ := none

/-- The title is plain text. -/
theorem guarded_iff_plain_of_orders :
    ∃ board, parseBoard (readsAs (ordersText "Orders") (ordersBoard (word "Orders")))
        (ordersText "Orders") = .ok board ∧
      (Guarded (readsAs (ordersText "Orders") (ordersBoard (word "Orders"))) (ordersText "Orders") board ↔
        PlainMappings (readsAs (ordersText "Orders") (ordersBoard (word "Orders")))
          (ordersText "Orders")) := by
  have haccepted : (parseBoard (readsAs (ordersText "Orders") (ordersBoard (word "Orders")))
      (ordersText "Orders")).toOption.isSome = true := by
    decide +kernel
  cases hboard : parseBoard (readsAs (ordersText "Orders") (ordersBoard (word "Orders")))
      (ordersText "Orders") with
  | error raised =>
    rw [hboard] at haccepted
    cases haccepted
  | ok board => exact ⟨board, rfl, guarded_iff_plain _ _ _ hboard⟩

/-- The title is a mapping with the key `=` twice, read as a string. -/
theorem not_guarded_of_scalar_mapping :
    ¬ ∀ (libraries : Libraries) (content : String) (board : Items),
      parseBoard libraries content = .ok board → Guarded libraries content board := by
  intro hclaim
  let equals : Event := .scalar 1 .value "="
  let title : Event := .mapping 1 (.atom .str) [(equals, word "Orders"), (equals, word "Sales")]
  let content := ordersText "!!str \x7b=: Orders, =: Sales\x7d"
  have haccepted :
      (parseBoard (readsAs content (ordersBoard title)) content).toOption.isSome = true := by
    decide +kernel
  cases hboard : parseBoard (readsAs content (ordersBoard title)) content with
  | error raised =>
    rw [hboard] at haccepted
    cases haccepted
  | ok board =>
    have hguarded := hclaim _ _ board hboard
    have hroot : (readsAs content (ordersBoard title)).reader.parse content =
        ⟨some (ordersBoard title), none⟩ := by
      simp [readsAs]
    have hkeys := hguarded.keys _ (by rw [hroot]; rfl) 1 (.atom .str) _
      (.value List.mem_cons_self .self)
    exact Bool.false_ne_true (hkeys.1 _ List.mem_cons_self)

end DbtCraft.Services.Boards
