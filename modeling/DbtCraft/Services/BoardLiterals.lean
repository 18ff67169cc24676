/-
# Bound strings

What a bound string may change in a prepared statement. A template and the bindings of
its variables give a statement with holes, one where each bound string goes. Two bindings
that bind strings to the same variables give the same statement with holes.
-/

import DbtCraft.Services.BoardReferences

namespace DbtCraft.Services.BoardSql

open DbtCraft.Python DbtCraft.Sql

variable {engine : Engine} {own other : Bindings} {refs : List String}

/-! ## Failures -/

section

universe uα uβ

variable {α : Type uα} {β : Type uβ}

/-- The call raises no exception but `ValueError`, and what it returns is as described. -/
def Answers (call : Except Raised α) (described : α → Prop) : Prop :=
  match call with
  | .ok value => described value
  | .error raised => ∃ text, raised = .valueError text

theorem Answers.map {call : Except Raised α} {f : α → β} {described : β → Prop}
    (hcall : Answers call fun value => described (f value)) : Answers (call.map f) described := by
  cases call with
  | error raised => exact hcall
  | ok value => exact hcall

end

/-! ## Templates with holes -/

/-- The string a variable is bound to. -/
def boundText (bindings : Bindings) (name : String) : List Char :=
  match bindings.get name with
  | some (.str text) => text.toList
  | _ => []

/-- The variable is bound to a string. -/
def bindsString (bindings : Bindings) (name : String) : Bool :=
  match bindings.get name with
  | some (.str _) => true
  | _ => false

/-- The variable that a node filters by, with the column. -/
def filterOf : Node → Option (String × String)
  | .call node [.const (.str column), .name name] _ =>
    if functionName node = some "filter" then some (column, name) else none
  | _ => none

/-- The variable whose value a node takes. -/
def variableOf : Node → Option String
  | .name name => some name
  | node => (filterOf node).map (·.2)

/-- The hole of a node, with the text before it. -/
def holeOf (bindings : Bindings) : Node → Option (String × String)
  | .name name => if bindsString bindings name then some ("", name) else none
  | node =>
    match filterOf node with
    | some (column, name) =>
      if boundText bindings name = [] then none else some (column ++ " = ", name)
    | none => none

/-- The part of a node, with its hole open. -/
def openPart (bindings : Bindings) (node : Node) (text : String) : List (Item String) :=
  match holeOf bindings node with
  | some (column, name) => column.toList.map Item.char ++ [Item.hole name]
  | none => text.toList.map .char

/-- `joinParts`, with the holes open. -/
def openParts (engine : Engine) (bindings : Bindings) (refs : List String) :
    List Node → Except Raised (List (Item String) × List String)
  | [] => .ok ([], refs)
  | node :: rest => do
    let (text, found) ← part engine bindings refs node
    let (items, all) ← openParts engine bindings found rest
    return (openPart bindings node text ++ items, all)

/-- The nodes of a template that can be read. -/
def templateNodes (engine : Engine) (sql : String) : List Node :=
  match engine.parse sql with
  | some tree =>
    match outputNodes tree with
    | .ok nodes => nodes
    | .error _ => []
  | none => []

/-- The end of `prepare_sql`, with the holes open. -/
def closeItems (engine : Engine) (refs : List String) (items : List (Item String)) :
    Except Raised (List (Item String)) :=
  if refs = [] then .ok items else substituteItems engine refs 0 items

/-- The prepared statement, with its holes open. -/
def openSql (engine : Engine) (bindings : Bindings) (sql : String) :
    Except Raised (List (Item String)) :=
  match openParts engine bindings [] (templateNodes engine sql) with
  | .error raised => .error raised
  | .ok (items, refs) => closeItems engine refs items

/-- The variables of the holes, in order. -/
def holesOf (bindings : Bindings) (nodes : List Node) : List String :=
  (nodes.filterMap (holeOf bindings)).map (·.2)

/-! ## One binding -/

theorem boundText_of_get {name text : String} (hname : own.get name = some (.str text)) :
    boundText own name = text.toList := by
  unfold boundText
  rw [hname]

theorem literal_str_eq_ok {text written : String} (hliteral : literal (.str text) = .ok written) :
    written.toList = quoted text.toList := by
  simp only [literal] at hliteral
  split at hliteral
  · rw [← Except.ok.inj hliteral, String.toList_ofList]
  · cases hliteral

/-- A node takes the value of one variable only. -/
theorem part_congr {node : Node}
    (hsame : ∀ name, variableOf node = some name → own.get name = other.get name) :
    part engine own refs node = part engine other refs node := by
  cases node with
  | data text => rfl
  | const value => rfl
  | getattr node attr => rfl
  | other => rfl
  | name name =>
    have hname : own.get name = other.get name := hsame name rfl
    simp only [part, expression, hname]
  | call node args plain =>
    simp only [part, expression]
    suffices hcall : callText engine own refs node args = callText engine other refs node args by
      rw [hcall]
    unfold callText
    split
    · rfl
    next fn hfn =>
      split
      · rfl
      · split
        next hfilter =>
          split
          next column name =>
            cases column with
            | str column =>
              have hname : own.get name = other.get name := by
                apply hsame name
                simp only [variableOf, filterOf, hfn, hfilter, if_true, Option.map_some]
              simp only [hname]
            | _ => rfl
          · rfl
        · rfl

theorem bindsString_congr {name : String} (hname : own.get name = other.get name) :
    bindsString own name = bindsString other name := by
  unfold bindsString
  rw [hname]

theorem bindsString_of_get {name text : String} (hname : own.get name = some (.str text)) :
    bindsString own name = true := by
  unfold bindsString
  rw [hname]

theorem holeOf_name (name : String) :
    holeOf own (.name name) = if bindsString own name then some ("", name) else none := rfl

theorem filterOf_eq_some {node : Node} {column name : String}
    (hfilter : filterOf node = some (column, name)) :
    ∃ fn plain, node = .call fn [.const (.str column), .name name] plain ∧
      functionName fn = some "filter" := by
  unfold filterOf at hfilter
  split at hfilter
  next fn column' name' plain =>
    split at hfilter
    next hfn =>
      obtain ⟨hcolumn, hname⟩ := Prod.mk.inj (Option.some_inj.mp hfilter)
      exact ⟨fn, plain, by rw [hcolumn, hname], hfn⟩
    · cases hfilter
  · cases hfilter

theorem holeOf_of_filterOf {node : Node} {column name : String}
    (hfilter : filterOf node = some (column, name)) :
    holeOf own node = if boundText own name = [] then none else some (column ++ " = ", name) := by
  obtain ⟨fn, plain, hnode, -⟩ := filterOf_eq_some hfilter
  rw [hnode] at hfilter ⊢
  simp only [holeOf, hfilter]

theorem holeOf_of_filterOf_none {node : Node} (hname : ∀ name, node ≠ .name name)
    (hfilter : filterOf node = none) : holeOf own node = none := by
  cases node with
  | name name => exact absurd rfl (hname name)
  | _ => simp only [holeOf, hfilter]

theorem variableOf_of_filterOf {node : Node} {column name : String}
    (hfilter : filterOf node = some (column, name)) : variableOf node = some name := by
  obtain ⟨fn, plain, hnode, -⟩ := filterOf_eq_some hfilter
  rw [hnode] at hfilter ⊢
  simp only [variableOf, hfilter, Option.map_some]

/-- A filter by a string. -/
theorem filterText_str (column text : String) :
    filterText column (.str text) =
      if text = "" then .ok "1 = 1"
      else (literal (.str text)).map fun written => column ++ " = " ++ written := by
  split
  next hempty =>
    rw [hempty]
    rfl
  next hempty =>
    unfold filterText
    split
    next heq => cases heq
    next heq => cases heq
    next heq => exact absurd (Value.str.inj heq) hempty
    next heq => cases heq
    · rfl

theorem part_name {name text : String} (hname : own.get name = some (.str text)) :
    part engine own refs (.name name) = (literal (.str text)).map fun written => (written, refs) := by
  simp only [part, expression, hname]

/-- A filter is refused whatever its value is, or it is the text of its value. -/
theorem part_filter (engine : Engine) (refs : List String) {node : Node}
    {column name : String} (hfilter : filterOf node = some (column, name)) :
    (∃ message, ∀ bindings : Bindings,
        part engine bindings refs node = .error (.valueError message)) ∨
      ∀ (bindings : Bindings) (value : Value), bindings.get name = some value →
        part engine bindings refs node = (filterText column value).map fun text => (text, refs) := by
  obtain ⟨fn, plain, hnode, hfn⟩ := filterOf_eq_some hfilter
  rw [hnode]
  cases plain with
  | false => exact Or.inl ⟨_, fun bindings => rfl⟩
  | true =>
    by_cases hcolumn : isColumn engine column = true
    · right
      intro bindings value hvalue
      simp [part, expression, callText, hfn, hvalue, hcolumn]
    · left
      exists "filter() needs a column identifier and a declared variable"
      intro bindings
      cases hvalue : bindings.get name with
      | none => simp [part, expression, callText, hfn, hvalue]
      | some value => simp [part, expression, callText, hfn, hvalue, hcolumn]

theorem exists_str_of_bindsString {name : String} (hbinds : bindsString own name = true) :
    ∃ text, own.get name = some (.str text) := by
  unfold bindsString at hbinds
  split at hbinds
  next text hname => exact ⟨text, hname⟩
  · cases hbinds

theorem exists_str_of_boundText {name : String} (hbound : boundText own name ≠ []) :
    ∃ text, own.get name = some (.str text) ∧ text ≠ "" := by
  unfold boundText at hbound
  split at hbound
  next text hname =>
    apply Exists.intro text
    apply And.intro hname
    intro hempty
    exact hbound (by rw [hempty]; rfl)
  · exact absurd rfl hbound

/-- What stands in the hole of a node is the literal of its variable. -/
theorem part_of_holeOf (engine : Engine) (refs : List String) {node : Node}
    {before name : String}
    (hhole : holeOf own node = some (before, name)) :
    (∃ message, part engine own refs node = .error (.valueError message)) ∨
      ∃ text, own.get name = some (.str text) ∧
        part engine own refs node =
          (literal (.str text)).map fun written => (before ++ written, refs) := by
  cases hfilter : filterOf node with
  | some found =>
    obtain ⟨column, name'⟩ := found
    rw [holeOf_of_filterOf hfilter] at hhole
    split at hhole
    · cases hhole
    next hbound =>
      obtain ⟨hbefore, hname⟩ := Prod.mk.inj (Option.some_inj.mp hhole)
      rw [hname] at hbound hfilter
      obtain ⟨text, htext, hempty⟩ := exists_str_of_boundText hbound
      rcases part_filter engine refs hfilter with ⟨message, hrefused⟩ | hpart
      · exact Or.inl ⟨message, hrefused own⟩
      · right
        apply Exists.intro text
        apply And.intro htext
        rw [hpart own _ htext, filterText_str, if_neg hempty, ← hbefore]
        cases literal (.str text) <;> rfl
  | none =>
    cases node with
    | name name' =>
      rw [holeOf_name] at hhole
      split at hhole
      next hbinds =>
        obtain ⟨hbefore, hname⟩ := Prod.mk.inj (Option.some_inj.mp hhole)
        rw [hname] at hbinds ⊢
        obtain ⟨text, htext⟩ := exists_str_of_bindsString hbinds
        right
        apply Exists.intro text
        apply And.intro htext
        rw [part_name htext, ← hbefore]
        simp
      · cases hhole
    | _ =>
      rw [holeOf_of_filterOf_none (by intro name; nofun) hfilter] at hhole
      cases hhole

/-- The part of a node is its open part, filled. -/
theorem fill_openPart {node : Node} {text : String} {found : List String}
    (hpart : part engine own refs node = .ok (text, found)) :
    fill (boundText own) (openPart own node text) = text.toList := by
  unfold openPart
  split
  next before name hhole =>
    rcases part_of_holeOf engine refs hhole with ⟨message, hraised⟩ | hliteral
    · cases hraised.symm.trans hpart
    · obtain ⟨bound, hname, hliteral⟩ := hliteral
      obtain ⟨written, hwritten, hpair⟩ := map_eq_ok.mp (hliteral.symm.trans hpart)
      have htext : before ++ written = text := (Prod.mk.inj hpair).1
      rw [fill_append, fill_chars, fill_hole, boundText_of_get hname,
        ← literal_str_eq_ok hwritten, ← htext, String.toList_append, fill_nil, List.append_nil]
  · exact fill_chars text.toList

/-- `joinParts` gives the open parts, filled. -/
theorem joinParts_eq (nodes : List Node) :
    joinParts engine own refs nodes =
      (openParts engine own refs nodes).map fun result =>
        (String.ofList (fill (boundText own) result.1), result.2) := by
  induction nodes generalizing refs with
  | nil => rfl
  | cons node rest ih =>
    simp only [joinParts, openParts]
    cases hpart : part engine own refs node with
    | error raised => rfl
    | ok result =>
      obtain ⟨text, found⟩ := result
      simp only [bind, Except.bind, ih]
      cases openParts engine own found rest with
      | error raised => rfl
      | ok result =>
        simp only [Except.map, pure, Except.pure, fill_append, fill_openPart hpart,
          String.ofList_append, String.ofList_toList]

/-! ## Two bindings -/

/-- The bindings bind strings to the same variables and agree on the others. -/
def SameStrings (own other : Bindings) : Prop :=
  ∀ name, own.get name = other.get name ∨
    ∃ text text', own.get name = some (.str text) ∧ other.get name = some (.str text')

/-- A filter of the template has an empty string in both bindings or in neither. -/
def SameFilters (nodes : List Node) (own other : Bindings) : Prop :=
  ∀ node ∈ nodes, ∀ column name, filterOf node = some (column, name) →
    (boundText own name = [] ↔ boundText other name = [])

instance (nodes : List Node) : Decidable (SameFilters nodes own other) :=
  decidable_of_iff
    (∀ found ∈ nodes.filterMap filterOf, boundText own found.2 = [] ↔ boundText other found.2 = [])
    <| by
      constructor
      · intro hsame node hnode column name hfilter
        exact hsame (column, name) (List.mem_filterMap.mpr ⟨node, hnode, hfilter⟩)
      · intro hsame found hfound
        obtain ⟨node, hnode, hfilter⟩ := List.mem_filterMap.mp hfound
        exact hsame node hnode found.1 found.2 hfilter

theorem SameFilters.tail {node : Node} {rest : List Node}
    (hfilters : SameFilters (node :: rest) own other) : SameFilters rest own other :=
  fun node' hnode' => hfilters node' (List.mem_cons_of_mem _ hnode')

/-- The nodes have the same holes. -/
theorem holeOf_eq {node : Node} {nodes : List Node} (hstrings : SameStrings own other)
    (hfilters : SameFilters nodes own other) (hnode : node ∈ nodes) :
    holeOf own node = holeOf other node := by
  cases hfilter : filterOf node with
  | some found =>
    obtain ⟨column, name⟩ := found
    rw [holeOf_of_filterOf hfilter, holeOf_of_filterOf hfilter]
    simp only [hfilters node hnode column name hfilter]
  | none =>
    cases node with
    | name name =>
      rw [holeOf_name, holeOf_name]
      rcases hstrings name with hsame | ⟨text, text', hown, hother⟩
      · rw [bindsString_congr hsame]
      · rw [bindsString_of_get hown, bindsString_of_get hother]
    | _ =>
      rw [holeOf_of_filterOf_none (by intro name; nofun) hfilter,
        holeOf_of_filterOf_none (by intro name; nofun) hfilter]

theorem eq_empty_of_boundText {name text : String} (hname : own.get name = some (.str text))
    (hbound : boundText own name = []) : text = "" := by
  rw [boundText_of_get hname] at hbound
  exact String.toList_inj.mp hbound

/-- A node without a hole has the same part. -/
theorem part_eq_of_holeOf_none {node : Node} (hstrings : SameStrings own other)
    (hown : holeOf own node = none) (hother : holeOf other node = none) :
    part engine own refs node = part engine other refs node := by
  cases hfilter : filterOf node with
  | some found =>
    obtain ⟨column, name⟩ := found
    rcases hstrings name with hsame | ⟨text, text', htext, htext'⟩
    · apply part_congr
      intro name' hname'
      rw [variableOf_of_filterOf hfilter] at hname'
      rw [← Option.some_inj.mp hname', hsame]
    · -- Neither string has a hole, so both are empty.
      rw [holeOf_of_filterOf hfilter] at hown hother
      have hbound : boundText own name = [] := by
        by_contra hbound
        rw [if_neg hbound] at hown
        cases hown
      have hbound' : boundText other name = [] := by
        by_contra hbound
        rw [if_neg hbound] at hother
        cases hother
      rcases part_filter engine refs hfilter with ⟨message, hrefused⟩ | hpart
      · rw [hrefused own, hrefused other]
      · rw [hpart own _ htext, hpart other _ htext', eq_empty_of_boundText htext hbound,
          eq_empty_of_boundText htext' hbound']
  | none =>
    apply part_congr
    intro name hname
    cases node with
    | name name' =>
      rcases hstrings name with hsame | ⟨text, text', htext, htext'⟩
      · exact hsame
      · rw [Option.some_inj.mp hname, holeOf_name, bindsString_of_get htext] at hown
        cases hown
    | _ =>
      rw [variableOf, hfilter] at hname
      · cases hname
      · intro name
        nofun

/-- What a node gives for other strings: a `ValueError`, or the same open part. -/
theorem answers_part {node : Node} {nodes : List Node} {text : String} {found : List String}
    (hstrings : SameStrings own other) (hfilters : SameFilters nodes own other)
    (hnode : node ∈ nodes) (hpart : part engine own refs node = .ok (text, found)) :
    Answers (part engine other refs node) fun result =>
      result.2 = found ∧ openPart other node result.1 = openPart own node text := by
  have hsame := holeOf_eq hstrings hfilters hnode
  cases hhole : holeOf own node with
  | none =>
    have hhole' := hsame.symm.trans hhole
    rw [← part_eq_of_holeOf_none hstrings hhole hhole', hpart]
    apply And.intro rfl
    unfold openPart
    rw [hhole, hhole']
  | some hole =>
    obtain ⟨before, name⟩ := hole
    have hhole' := hsame.symm.trans hhole
    have hfound : found = refs := by
      rcases part_of_holeOf engine refs hhole with ⟨message, hraised⟩ | ⟨_, -, hliteral⟩
      · cases hraised.symm.trans hpart
      · obtain ⟨written, -, hpair⟩ := map_eq_ok.mp (hliteral.symm.trans hpart)
        exact (Prod.mk.inj hpair).2.symm
    rcases part_of_holeOf engine refs hhole' with ⟨message, hraised⟩ | ⟨text', -, hliteral⟩
    · rw [hraised]
      exact ⟨message, rfl⟩
    · rw [hliteral]
      apply Answers.map
      simp only [literal]
      split
      · apply And.intro hfound.symm
        unfold openPart
        rw [hhole, hhole']
      · exact ⟨_, rfl⟩

/-- Other strings give a `ValueError`, or the same statement with holes. -/
theorem answers_openParts {nodes : List Node} {items : List (Item String)} {all : List String}
    (hstrings : SameStrings own other) (hfilters : SameFilters nodes own other)
    (hopen : openParts engine own refs nodes = .ok (items, all)) :
    Answers (openParts engine other refs nodes) fun result => result = (items, all) := by
  induction nodes generalizing refs items all with
  | nil => exact Except.ok.inj hopen
  | cons node rest ih =>
    simp only [openParts] at hopen ⊢
    obtain ⟨⟨text, found⟩, hpart, hrest⟩ := bind_eq_ok.mp hopen
    obtain ⟨⟨others, all'⟩, hothers, hresult⟩ := bind_eq_ok.mp hrest
    have hnode := answers_part hstrings hfilters List.mem_cons_self hpart
    have htail := ih hfilters.tail hothers
    cases hpart' : part engine other refs node with
    | error raised =>
      rw [hpart'] at hnode
      exact hnode
    | ok result' =>
      rw [hpart'] at hnode
      obtain ⟨hfound, hsame⟩ := hnode
      simp only [bind, Except.bind]
      rw [hfound]
      cases hothers' : openParts engine other found rest with
      | error raised =>
        rw [hothers'] at htail
        exact htail
      | ok result'' =>
        rw [hothers'] at htail
        have hpair : result'' = (others, all') := htail
        rw [hpair, hsame]
        exact Except.ok.inj hresult

/-! ## Prepared statements -/

theorem prepareSql_eq {sql prepared : String} (hprepared : prepareSql engine own sql = .ok prepared)
    (bindings : Bindings) :
    prepareSql engine bindings sql =
      match openParts engine bindings [] (templateNodes engine sql) with
      | .error raised => .error raised
      | .ok (items, refs) =>
        finishSql engine refs (String.ofList (fill (boundText bindings) items)) := by
  unfold prepareSql at hprepared ⊢
  split at hprepared
  · cases hprepared
  next hsize =>
    rw [if_neg hsize]
    cases htree : engine.parse sql with
    | none =>
      rw [htree] at hprepared
      cases hprepared
    | some tree =>
      simp only [htree] at hprepared ⊢
      cases hnodes : outputNodes tree with
      | error raised =>
        rw [hnodes] at hprepared
        cases hprepared
      | ok nodes =>
        have htemplate : templateNodes engine sql = nodes := by
          simp only [templateNodes, htree, hnodes]
        simp only [htemplate, joinParts_eq]
        cases openParts engine bindings [] nodes <;> rfl

theorem holeOf_openPart (node : Node) (text : String) :
    holes (openPart own node text) = ((holeOf own node).toList).map (·.2) := by
  unfold openPart
  split
  next before name hhole =>
    rw [holes_append, holes_chars, hhole]
    rfl
  next hhole =>
    rw [holes_chars, hhole]
    rfl

/-- The open statement has the holes of its nodes. -/
theorem holes_openParts {nodes : List Node} {items : List (Item String)} {all : List String}
    (hopen : openParts engine own refs nodes = .ok (items, all)) :
    holes items = holesOf own nodes := by
  induction nodes generalizing refs items all with
  | nil =>
    cases hopen
    rfl
  | cons node rest ih =>
    simp only [openParts] at hopen
    obtain ⟨⟨text, found⟩, hpart, hrest⟩ := bind_eq_ok.mp hopen
    obtain ⟨⟨others, all'⟩, hothers, hresult⟩ := bind_eq_ok.mp hrest
    have hitems : openPart own node text ++ others = items :=
      (Prod.mk.inj (Except.ok.inj hresult)).1
    rw [← hitems, holes_append, holeOf_openPart, ih hothers]
    unfold holesOf
    cases hhole : holeOf own node <;> simp [hhole]

/-- The node is a reference. -/
def isReference : Node → Bool
  | .call node _ _ =>
    match functionName node with
    | some fn => fn ∈ ["ref", "source", "adapter.quote"]
    | none => false
  | _ => false

theorem refs_of_map {outcome : Except Raised String} {f : String → String} {text : String}
    {found : List String}
    (hmap : (outcome.map fun written => (f written, refs)) = .ok (text, found)) :
    found = refs := by
  obtain ⟨written, -, hpair⟩ := map_eq_ok.mp hmap
  exact (Prod.mk.inj hpair).2.symm

/-- Only a reference adds one. -/
theorem part_refs {node : Node} {text : String} {found : List String}
    (hnode : isReference node = false) (hpart : part engine own refs node = .ok (text, found)) :
    found = refs := by
  cases node with
  | data data => exact (Prod.mk.inj (Except.ok.inj hpart)).2.symm
  | const value => cases hpart
  | getattr node attr => cases hpart
  | other => cases hpart
  | name name =>
    simp only [part, expression] at hpart
    split at hpart
    · exact refs_of_map hpart
    · cases hpart
  | call node args plain =>
    simp only [part, expression] at hpart
    split at hpart
    · unfold callText at hpart
      split at hpart
      · cases hpart
      next fn hfn =>
        simp only [isReference, hfn] at hnode
        rw [if_neg (of_decide_eq_false hnode)] at hpart
        split at hpart
        · split at hpart
          · split at hpart
            · split at hpart
              · exact refs_of_map hpart
              · cases hpart
            · cases hpart
          · cases hpart
        · cases hpart
    · cases hpart

/-- Without references there are no markers. -/
theorem openParts_refs {nodes : List Node} {items : List (Item String)} {all : List String}
    (hnodes : ∀ node ∈ nodes, isReference node = false)
    (hopen : openParts engine own refs nodes = .ok (items, all)) : all = refs := by
  induction nodes generalizing refs items all with
  | nil =>
    cases hopen
    rfl
  | cons node rest ih =>
    simp only [openParts] at hopen
    obtain ⟨⟨text, found⟩, hpart, hrest⟩ := bind_eq_ok.mp hopen
    obtain ⟨⟨others, all'⟩, hothers, hresult⟩ := bind_eq_ok.mp hrest
    have hall : all' = all := (Prod.mk.inj (Except.ok.inj hresult)).2
    have hfound : found = refs := part_refs (hnodes node List.mem_cons_self) hpart
    have htail := ih (fun node' hnode' => hnodes node' (List.mem_cons_of_mem _ hnode')) hothers
    rw [← hall, htail, hfound]

/-- No reference is put into a literal: the template has none, or no string in its holes
holds the marker of one. -/
def KeepsMarkers (engine : Engine) (bindings : Bindings) (nodes : List Node) : Prop :=
  (∀ node ∈ nodes, isReference node = false) ∨
    ∀ name ∈ holesOf bindings nodes, NoReference engine (boundText bindings name)

instance (text : List Char) : Decidable (NoReference engine text) :=
  decidable_of_iff (∀ rest ∈ text.tails, matchRef engine rest = none) <| by
    simp only [NoReference, List.mem_tails]

instance (bindings : Bindings) (nodes : List Node) : Decidable (KeepsMarkers engine bindings nodes) :=
  inferInstanceAs (Decidable (_ ∨ _))

/-- All holes of the statement stand in code, and none next to a quote or another hole. -/
def OpensInCode (engine : Engine) (bindings : Bindings) (sql : String) : Prop :=
  ∀ items, openSql engine bindings sql = .ok items → (readItems .code items).isSome = true

instance (bindings : Bindings) (sql : String) : Decidable (OpensInCode engine bindings sql) :=
  decidable_of_iff
    (∀ items ∈ (openSql engine bindings sql).toOption, (readItems .code items).isSome = true) <| by
      unfold OpensInCode
      cases openSql engine bindings sql <;> simp [Except.toOption]

/-- The statements differ in what the literals of the holes hold, and nowhere else: the
marks are the same but for these literals, and each of them reads back as the string. -/
def DifferInLiterals (own other : Bindings) (names : List String) (prepared prepared' : String) :
    Prop :=
  ∃ pieces : List (Piece String), pieces.filterMap Piece.name = names ∧
    marks prepared.toList = pieces.flatMap (Piece.marks (boundText own)) ∧
    marks prepared'.toList = pieces.flatMap (Piece.marks (boundText other))

/-- The end of `prepare_sql` fills the holes of the closed statement. -/
theorem finishSql_fill {bindings : Bindings} {nodes : List Node} {items : List (Item String)}
    {all : List String} (hkeeps : KeepsMarkers engine bindings nodes)
    (hopen : openParts engine bindings [] nodes = .ok (items, all)) :
    (∃ message, finishSql engine all (String.ofList (fill (boundText bindings) items)) =
        .error (.valueError message)) ∨
      finishSql engine all (String.ofList (fill (boundText bindings) items)) =
        (closeItems engine all items).map fun closed =>
          String.ofList (fill (boundText bindings) closed) := by
  unfold finishSql
  split
  next message _ => exact Or.inl ⟨message, rfl⟩
  · right
    unfold closeItems
    split
    · rfl
    next hall =>
      have htext : ∀ name ∈ holes items, NoReference engine (boundText bindings name) := by
        rcases hkeeps with hnodes | htext
        · exact absurd (openParts_refs hnodes hopen) hall
        · rw [holes_openParts hopen]
          exact htext
      rw [String.toList_ofList, substituteRefs_fill (Nat.zero_le _) htext]
      cases substituteItems engine all 0 items <;> rfl

theorem holes_closeItems {items closed : List (Item String)}
    (hclosed : closeItems engine refs items = .ok closed) : holes closed = holes items := by
  unfold closeItems at hclosed
  split at hclosed
  · rw [Except.ok.inj hclosed]
  · exact holes_substituteItems hclosed

/-- **Bound strings stay in their literals.** Where the holes of a statement stand in code
and no bound string holds a marker, other strings in the same variables, empty for the same
filters, give a `ValueError` or a statement that differs in what its literals hold. -/
theorem answers_differInLiterals (engine : Engine) (own other : Bindings) (sql prepared : String)
    (hstrings : SameStrings own other)
    (hfilters : SameFilters (templateNodes engine sql) own other)
    (hown : KeepsMarkers engine own (templateNodes engine sql))
    (hother : KeepsMarkers engine other (templateNodes engine sql))
    (hcode : OpensInCode engine own sql)
    (hprepared : prepareSql engine own sql = .ok prepared) :
    Answers (prepareSql engine other sql) fun prepared' =>
      DifferInLiterals own other (holesOf own (templateNodes engine sql)) prepared prepared' := by
  rw [prepareSql_eq hprepared other]
  rw [prepareSql_eq hprepared own] at hprepared
  split at hprepared
  · cases hprepared
  next items refs hopen =>
  have hopen' := answers_openParts hstrings hfilters hopen
  split
  next raised hraised =>
    rw [hraised] at hopen'
    exact hopen'
  next items' refs' hsame =>
  rw [hsame] at hopen'
  obtain ⟨hitems, hrefs⟩ := Prod.mk.inj (show (items', refs') = (items, refs) from hopen')
  rw [hitems, hrefs] at hsame ⊢
  rcases finishSql_fill hown hopen with ⟨message, hraised⟩ | hfinish
  · cases hraised.symm.trans hprepared
  obtain ⟨closed, hclosed, hfilled⟩ := map_eq_ok.mp (hfinish.symm.trans hprepared)
  rcases finishSql_fill hother hsame with ⟨message, hraised⟩ | hfinish'
  · rw [hraised]
    exact ⟨message, rfl⟩
  rw [hfinish', hclosed]
  have hsql : openSql engine own sql = .ok closed := by
    unfold openSql
    rw [hopen]
    exact hclosed
  obtain ⟨pieces, hread⟩ := Option.isSome_iff_exists.mp (hcode closed hsql)
  apply Exists.intro pieces
  refine ⟨?_, ?_, ?_⟩
  · rw [names_readItems hread, holes_closeItems hclosed, holes_openParts hopen]
  · rw [← hfilled, String.toList_ofList]
    exact marksFrom_fill hread
  · rw [String.toList_ofList]
    exact marksFrom_fill hread

/-! ## Boards of orders -/

/-- Orders of one region. -/
def regionSql : String := "select * from \x7b\x7b ref('orders') \x7d\x7d where region = \x7b\x7b region \x7d\x7d"

/-- Orders of one region, or all orders. -/
def filterSql : String := "select * from orders where \x7b\x7b filter('region', region) \x7d\x7d"

/-- Jinja and sqlglot on these two templates. -/
def orders : Engine where
  parse sql :=
    if sql = regionSql then
      some [.output [.data "select * from ", .call (.name "ref") [.const (.str "orders")] true,
        .data " where region = ", .name "region"]]
    else if sql = filterSql then
      some [.output [.data "select * from orders where ",
        .call (.name "filter") [.const (.str "region"), .name "region"] true]]
    else none
  validate prepared :=
    if prepared ∈ ["select * from __board_ref_0 where region = 'north'",
        "select * from __board_ref_0 where region = 'o''brien'",
        "select * from __board_ref_0 where region = '__board_ref_0'",
        "select * from __board_ref_0 where region = '__board_ref_7'",
        "select * from orders where 1 = 1", "select * from orders where region = 'north'"] then .ok ()
    else .error "Only a single SELECT/WITH query is allowed"
  isWord c := c.isAlphanum || c = '_'
  digit c := if c.isDigit then some (c.toNat - '0'.toNat) else none
  quote_not_word := by decide
  quote_not_digit := by decide

theorem sameStrings_region (text text' : String) :
    SameStrings [("region", .str text)] [("region", .str text')] := by
  intro name
  by_cases hname : "region" = name
  · right
    exact ⟨text, text', by simp [Dict.get, hname], by simp [Dict.get, hname]⟩
  · left
    simp [Dict.get, hname]

/-- A region with a quote in it. -/
theorem differInLiterals_of_region :
    DifferInLiterals [("region", .str "north")] [("region", .str "o'brien")] ["region"]
      "select * from \x7b\x7b ref(\"orders\") \x7d\x7d where region = 'north'"
      "select * from \x7b\x7b ref(\"orders\") \x7d\x7d where region = 'o''brien'" := by
  have hother : prepareSql orders [("region", .str "o'brien")] regionSql =
      .ok "select * from \x7b\x7b ref(\"orders\") \x7d\x7d where region = 'o''brien'" := by
    decide +kernel
  have hanswers := answers_differInLiterals orders [("region", .str "north")]
    [("region", .str "o'brien")] regionSql
    "select * from \x7b\x7b ref(\"orders\") \x7d\x7d where region = 'north'"
    (sameStrings_region "north" "o'brien") (by decide +kernel) (by decide +kernel)
    (by decide +kernel) (by decide +kernel) (by decide +kernel)
  rw [hother] at hanswers
  exact hanswers

/-- A filter by an empty string is left out. -/
theorem not_differInLiterals_of_empty_filter :
    ¬ ∀ (engine : Engine) (own other : Bindings) (sql prepared prepared' : String),
      SameStrings own other → prepareSql engine own sql = .ok prepared →
        prepareSql engine other sql = .ok prepared' →
          ∃ names, DifferInLiterals own other names prepared prepared' := by
  intro hclaim
  obtain ⟨names, pieces, -, hown, hother⟩ := hclaim orders [("region", .str "")]
    [("region", .str "north")] filterSql "select * from orders where 1 = 1"
    "select * from orders where region = 'north'" (sameStrings_region "" "north")
    (by decide +kernel) (by decide +kernel)
  have hmarks : ∀ piece ∈ pieces, piece.marks (boundText [("region", .str "")]) =
      piece.marks (boundText [("region", .str "north")]) := by
    intro piece hpiece
    cases piece with
    | plain mark => rfl
    | literal name =>
      have hopening : Mark.opening ∈ marks "select * from orders where 1 = 1".toList := by
        rw [hown]
        exact List.mem_flatMap.mpr ⟨_, hpiece, List.mem_cons_self⟩
      exact absurd hopening (by decide +kernel)
  have hsame := (hown.trans (List.flatMap_congr hmarks)).trans hother.symm
  exact absurd hsame (by decide +kernel)

end DbtCraft.Services.BoardSql
