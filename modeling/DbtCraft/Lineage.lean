/-
# Lineage

`_upstream_relations` and `build_sqlglot_schema` of `app/lineage.py`: the relations that a
model is built from, directly or not, and the columns that the tables of its compiled SQL
are given. sqlglot parses that SQL and normalises the names; it is a parameter here.
-/

import DbtCraft.Math.Traversal
import DbtCraft.Python.Environ
import DbtCraft.Python.Splitting
import Mathlib.Data.Finset.Card
import Mathlib.Data.Finset.Dedup
import Mathlib.Data.Finset.Filter
import Mathlib.Data.List.Infix

namespace DbtCraft.Lineage

open DbtCraft.Math DbtCraft.Python Relation

universe uι

/-! ## Artifacts -/

/-- What a column says of itself. -/
structure Column where
  name : Option String := none
  type : Option String := none
  dataType : Option String := none

/-- A node or a source of the manifest. -/
structure Node where
  name : Option String := none
  database : Option String := none
  schema : Option String := none
  relationAlias : Option String := none
  identifier : Option String := none
  /-- `depends_on.nodes`. -/
  parents : List String := []
  columns : Dict String Column := []

/-- The manifest; `none` stands for the entry `{}`. -/
structure Manifest where
  nodes : Dict String (Option Node) := []
  sources : Dict String (Option Node) := []

/-- The catalog, with the columns of its entries; `none` stands for the entry `{}`. -/
structure Catalog where
  nodes : Dict String (Option (Dict String Column)) := []
  sources : Dict String (Option (Dict String Column)) := []

/-- `first or other` of two strings that may be missing. -/
def orElse (first other : Option String) : Option String :=
  match first with
  | some text => if text = "" then other else some text
  | none => other

/-! ## Upstream relations -/

/-- `{**manifest["nodes"], **manifest["sources"]}`. -/
def relationsOf (manifest : Manifest) : Dict String (Option Node) :=
  (manifest.nodes ++ manifest.sources).foldl (fun dict item => dict.set item.1 item.2) []

/-- The relation under an id, unless it is missing or empty. -/
def relationAt (relations : Dict String (Option Node)) (nodeId : String) : Option Node :=
  (relations.get nodeId).join

/-- The id of the first relation with the name of the model. -/
def currentId (relations : Dict String (Option Node)) (modelName : String) : Option String :=
  (relations.find? fun item => (item.2.bind (·.name)) = some modelName).map Prod.fst

/-- The ids of the relations that are not collected yet. -/
def remaining (relations : Dict String (Option Node)) (upstream : Dict String Node) :
    Finset String :=
  (relations.map Prod.fst).toFinset.filter fun nodeId => upstream.get nodeId = none

theorem card_remaining_lt {relations : Dict String (Option Node)} {upstream : Dict String Node}
    {nodeId : String} {node : Node} (hnew : upstream.get nodeId = none)
    (hnode : relationAt relations nodeId = some node) :
    (remaining relations (upstream.set nodeId node)).card <
      (remaining relations upstream).card := by
  have hkey : nodeId ∈ relations.map Prod.fst := by
    by_contra habsent
    rw [relationAt, Dict.get_of_not_mem habsent] at hnode
    cases hnode
  apply Finset.card_lt_card
  rw [Finset.ssubset_iff_of_subset]
  · exact ⟨nodeId, by simp [remaining, hnew, hkey], by simp [remaining]⟩
  · intro other hother
    simp only [remaining, Finset.mem_filter, Dict.get_set] at hother ⊢
    split at hother
    · simp at hother
    · exact hother

/-- The loop of `_upstream_relations`; the end of `pending` comes first. -/
def collect (relations : Dict String (Option Node)) (upstream : Dict String Node) :
    List String → Dict String Node
  | [] => upstream
  | nodeId :: pending =>
    if _hnew : upstream.get nodeId = none then
      match _hnode : relationAt relations nodeId with
      | none => collect relations upstream pending
      | some node =>
        collect relations (upstream.set nodeId node) (node.parents.reverse ++ pending)
    else collect relations upstream pending
termination_by pending => ((remaining relations upstream).card, pending.length)
decreasing_by
  · exact Prod.Lex.right _ (Nat.lt_succ_self _)
  · exact Prod.Lex.left _ _ (card_remaining_lt _hnew _hnode)
  · exact Prod.Lex.right _ (Nat.lt_succ_self _)

/-- `_upstream_relations`. -/
def upstreamRelations (manifest : Manifest) (modelName : String) : Dict String Node :=
  let relations := relationsOf manifest
  match currentId relations modelName with
  | none => []
  | some current =>
    let parents := ((relationAt relations current).map (·.parents)).getD []
    collect relations [] parents.reverse

/-! ## The schema of the compiled SQL -/

/-- `get_node_name`. -/
def getNodeName (nodeId : String) : String :=
  let parts := split '.' nodeId.toList
  if 3 ≤ parts.length then String.ofList (parts.getLastD []) else nodeId

/-- A table of the compiled SQL, with identifiers as sqlglot has parsed them. -/
structure Table (ι : Type uι) where
  catalog : Option ι := none
  db : Option ι := none
  this : Option ι

/-- What sqlglot does in a dialect. -/
structure Dialect (ι : Type uι) where
  /-- The tables of a text in the order of `find_all`, unless it is no statement. -/
  parseOne : String → Option (List (Table ι))
  /-- `str(identifier)`. -/
  sql : ι → String
  /-- `_normalise_identifier` of an identifier. -/
  normaliseIdentifier : ι → String
  /-- `_normalise_identifier` of a name from an artifact. -/
  normaliseName : String → String

/-- `_relation_key`. -/
def relationKey {α : Type uι} (shown normalise : α → String) (parts : List (Option α)) :
    List String :=
  parts.reduceOption.filterMap fun part => if shown part = "" then none else some (normalise part)

/-- The normalised parts of the relation of a node. -/
def fullKey {ι : Type uι} (dialect : Dialect ι) (nodeId : String) (node : Node) : List String :=
  let identifier := (orElse node.identifier (orElse node.relationAlias
    (orElse node.name (some (getNodeName nodeId)))))
  relationKey id dialect.normaliseName [node.database, node.schema, identifier]

/-- The normalised parts of a compiled table. -/
def compiledKey {ι : Type uι} (dialect : Dialect ι) (table : Table ι) : List String :=
  relationKey dialect.sql dialect.normaliseIdentifier [table.catalog, table.db, table.this]

/-- `_artifact_columns`. -/
def artifactColumns (nodeId : String) (node : Node) (catalog : Catalog) : Dict String String :=
  let entry := (catalog.nodes.get nodeId).join.or (catalog.sources.get nodeId).join
  let columns := (entry.filter fun columns => !columns.isEmpty).getD node.columns
  columns.foldl (fun dict item =>
    dict.set ((orElse item.2.name none).getD item.1)
      ((orElse item.2.type (orElse item.2.dataType none)).getD "unknown")) []

/-- The index of the suffixes of the relations. -/
abbrev RelationIndex := Dict (List String) (List (String × Node))

/-- `relation_index.setdefault(key, []).append(entry)`. -/
def appendAt (index : RelationIndex) (key : List String) (entry : String × Node) :
    RelationIndex :=
  index.set key ((index.get key).getD [] ++ [entry])

/-- The suffixes of a key, the shortest first: `full_key[-depth:]` for each depth. -/
def suffixes (key : List String) : List (List String) :=
  (List.range key.length).map fun depth => key.drop (key.length - (depth + 1))

/-- The relations, each under every suffix of its key. -/
def relationIndex {ι : Type uι} (dialect : Dialect ι) (upstream : Dict String Node) :
    RelationIndex :=
  upstream.foldl (fun index entry =>
    (suffixes (fullKey dialect entry.1 entry.2)).foldl
      (fun index key => appendAt index key entry) index) []

/-- A table that has been added to the schema, with its columns. -/
structure Binding (ι : Type uι) where
  table : Table ι
  columns : Dict String String

/-- The columns that a compiled table is given. -/
def bindTable {ι : Type uι} (dialect : Dialect ι) (index : RelationIndex) (catalog : Catalog)
    (table : Table ι) : Option (Binding ι) :=
  match (index.get (compiledKey dialect table)).getD [] with
  | [(nodeId, node)] =>
    let columns := artifactColumns nodeId node catalog
    if columns.isEmpty then none else some ⟨table, columns⟩
  | _ => none

/-- `build_sqlglot_schema`, as the tables that it adds. -/
def buildSqlglotSchema {ι : Type uι} (dialect : Dialect ι) (compiledSql : String)
    (manifest : Manifest) (catalog : Option Catalog) (modelName : String) : List (Binding ι) :=
  match dialect.parseOne compiledSql with
  | none => []
  | some tables =>
    let index := relationIndex dialect (upstreamRelations manifest modelName)
    tables.filterMap (bindTable dialect index (catalog.getD {}))

/-! ## Upstream closure -/

section

variable {relations : Dict String (Option Node)} {upstream : Dict String Node}
  {pending : List String} {nodeId : String} {node : Node}

/-- One relation is built from another. -/
abbrev ParentEdge (relations : Dict String (Option Node)) : String → String → Prop :=
  Traversal.Edge (relationAt relations) (·.parents)

/-- The collected relations, as the traversal sees them. -/
def collectedIds (upstream : Dict String Node) : Set String :=
  {nodeId | upstream.get nodeId ≠ none}

theorem collectedIds_set :
    collectedIds (upstream.set nodeId node) = insert nodeId (collectedIds upstream) := by
  ext other
  by_cases hother : other = nodeId
  · simp [collectedIds, hother]
  · simp [collectedIds, hother]

/-- What is collected is stored in the manifest under its id, once. -/
structure Collected (relations : Dict String (Option Node)) (upstream : Dict String Node) :
    Prop where
  stored : ∀ nodeId node, upstream.get nodeId = some node → relationAt relations nodeId = some node
  nodup : (upstream.map Prod.fst).Nodup

theorem Collected.set (hcollected : Collected relations upstream)
    (hnode : relationAt relations nodeId = some node) :
    Collected relations (upstream.set nodeId node) where
  stored other found hget := by
    rw [Dict.get_set] at hget
    split at hget
    next hother => exact hother ▸ hget ▸ hnode
    · exact hcollected.stored other found hget
  nodup := Dict.nodup_set hcollected.nodup

/-- The loop collects what can be reached, and nothing else. -/
theorem collect_exact {start : List String} (hcollected : Collected relations upstream)
    (hinv : Traversal.Invariant (relationAt relations) (·.parents) start
      (collectedIds upstream) pending) :
    Collected relations (collect relations upstream pending) ∧
      ∀ nodeId, (collect relations upstream pending).get nodeId ≠ none ↔
        Traversal.Reached (relationAt relations) (·.parents) start nodeId := by
  induction upstream, pending using collect.induct relations with
  | case1 upstream =>
    rw [collect]
    exact ⟨hcollected, fun nodeId => hinv.exact⟩
  | case2 upstream nodeId pending hnew hnode ih =>
    rw [collect, dif_pos hnew]
    split
    · exact ih hcollected (hinv.skip (.inr hnode))
    next hother => simp [hnode] at hother
  | case3 upstream nodeId pending hnew node hnode ih =>
    rw [collect, dif_pos hnew]
    split
    next hother => simp [hnode] at hother
    next found hfound =>
      rw [hnode] at hfound
      cases hfound
      apply ih (hcollected.set hnode)
      rw [collectedIds_set]
      exact hinv.take hnode (by simp)
  | case4 upstream nodeId pending hold ih =>
    rw [collect, dif_neg hold]
    exact ih hcollected (hinv.skip (.inl hold))

theorem collectedIds_nil : collectedIds [] = ∅ := by
  ext other
  simp [collectedIds]

/-- What is collected for a model is stored under its id once, and consists of the
relations that the model is built from. -/
theorem upstreamRelations_spec (manifest : Manifest) (modelName : String) :
    Collected (relationsOf manifest) (upstreamRelations manifest modelName) ∧
      ∀ nodeId, (upstreamRelations manifest modelName).get nodeId ≠ none ↔
        ∃ current, currentId (relationsOf manifest) modelName = some current ∧
          TransGen (ParentEdge (relationsOf manifest)) current nodeId := by
  have hempty : Collected (relationsOf manifest) [] := {
    stored := fun _ _ hget => by cases hget
    nodup := List.nodup_nil }
  unfold upstreamRelations
  dsimp only
  cases hcurrent : currentId (relationsOf manifest) modelName with
  | none => exact ⟨hempty, fun nodeId => by simp⟩
  | some current =>
    dsimp only
    cases hnode : relationAt (relationsOf manifest) current with
    | none =>
      rw [Option.map_none, Option.getD_none, List.reverse_nil, collect]
      apply And.intro hempty
      intro nodeId
      simp only [Dict.get_nil, ne_eq, not_true_eq_false, Option.some.injEq, exists_eq_left',
        false_iff, TransGen.head'_iff, not_exists, not_and]
      rintro next ⟨node, hsome, -⟩
      rw [hnode] at hsome
      cases hsome
    | some node =>
      rw [Option.map_some, Option.getD_some]
      have hinit : Traversal.Invariant (relationAt (relationsOf manifest)) (·.parents)
          node.parents (collectedIds []) node.parents.reverse := by
        rw [collectedIds_nil]
        exact .init fun _ => List.mem_reverse
      obtain ⟨hcollected, hexact⟩ := collect_exact hempty hinit
      apply And.intro hcollected
      intro nodeId
      rw [hexact nodeId, Traversal.reached_next_iff hnode]
      simp

end

/-! ## Exact suffixes -/

section

variable {key full : List String}

theorem mem_suffixes : key ∈ suffixes full ↔ key ≠ [] ∧ key <:+ full := by
  unfold suffixes
  rw [List.mem_map]
  apply Iff.intro
  · rintro ⟨depth, hdepth, rfl⟩
    rw [List.mem_range] at hdepth
    apply And.intro _ (List.drop_suffix _ _)
    intro hnil
    have hlength := congrArg List.length hnil
    rw [List.length_drop, List.length_nil] at hlength
    omega
  · rintro ⟨hne, hsuffix⟩
    have hpos : 0 < key.length := List.length_pos_iff.mpr hne
    have hle : key.length ≤ full.length := hsuffix.length_le
    refine ⟨key.length - 1, List.mem_range.mpr (by omega), ?_⟩
    rw [Nat.sub_add_cancel hpos]
    exact (List.suffix_iff_eq_drop.mp hsuffix).symm

/-- The suffixes of a key differ in their length. -/
theorem nodup_suffixes : (suffixes full).Nodup := by
  apply List.Nodup.of_map List.length
  have hlengths : (suffixes full).map List.length =
      (List.range full.length).map fun depth => depth + 1 := by
    unfold suffixes
    rw [List.map_map]
    apply List.map_congr_left
    intro depth hdepth
    rw [List.mem_range] at hdepth
    rw [Function.comp_apply, List.length_drop]
    omega
  rw [hlengths]
  exact List.nodup_range.map fun _ _ => Nat.succ.inj

/-- An entry is appended under each of some distinct keys. -/
theorem get_foldl_appendAt {keys : List (List String)} {index : RelationIndex}
    {entry : String × Node} (hkeys : keys.Nodup) :
    (((keys.foldl (fun index key => appendAt index key entry) index).get key).getD []) =
      (index.get key).getD [] ++ if key ∈ keys then [entry] else [] := by
  induction keys generalizing index with
  | nil => simp
  | cons first rest ih =>
    obtain ⟨hfirst, hrest⟩ := List.nodup_cons.mp hkeys
    rw [List.foldl_cons, ih hrest, appendAt, Dict.get_set]
    by_cases hkey : key = first
    · subst hkey
      simp [hfirst]
    · simp [hkey]

variable {ι : Type uι} {dialect : Dialect ι} {upstream : Dict String Node}

/-- The index answers with the relations that have a suffix. -/
theorem get_relationIndex : ((relationIndex dialect upstream).get key).getD [] =
    upstream.filter fun entry => key ∈ suffixes (fullKey dialect entry.1 entry.2) := by
  have hfold : ∀ (entries : Dict String Node) (index : RelationIndex),
      ((entries.foldl (fun index entry =>
        (suffixes (fullKey dialect entry.1 entry.2)).foldl
          (fun index key => appendAt index key entry) index) index).get key).getD [] =
        (index.get key).getD [] ++
          entries.filter fun entry => key ∈ suffixes (fullKey dialect entry.1 entry.2) := by
    intro entries
    induction entries with
    | nil => simp
    | cons entry rest ih =>
      intro index
      rw [List.foldl_cons, ih, get_foldl_appendAt nodup_suffixes, List.filter_cons]
      split <;> simp_all
  rw [relationIndex, hfold]
  rfl

/-- A compiled table is given columns if it is that of exactly one relation, which has some. -/
theorem bindTable_eq_some_iff {catalog : Catalog} {table : Table ι} {binding : Binding ι} :
    bindTable dialect (relationIndex dialect upstream) catalog table = some binding ↔
      ∃ entry, (upstream.filter fun entry =>
          compiledKey dialect table ∈ suffixes (fullKey dialect entry.1 entry.2)) = [entry] ∧
        artifactColumns entry.1 entry.2 catalog ≠ [] ∧
        binding = ⟨table, artifactColumns entry.1 entry.2 catalog⟩ := by
  unfold bindTable
  rw [get_relationIndex]
  split
  next nodeId node heq =>
    rw [heq]
    simp only [List.cons.injEq, and_true, exists_eq_left', List.isEmpty_iff]
    split
    next hnone => simp [hnone]
    next hsome => simp [hsome, eq_comm]
  next hmany =>
    apply iff_of_false (by simp)
    rintro ⟨entry, hone, -⟩
    exact hmany entry.1 entry.2 hone

end

/-! ## The main result -/

/-- The relations collected for a model are those that can be reached from it over one or
more parents, each once, and the loop ends on every manifest. A compiled table is bound
to columns only as the one collected relation whose name ends in that of the table. -/
theorem upstream_closure (manifest : Manifest) (modelName : String) :
    ((upstreamRelations manifest modelName).map Prod.fst).Nodup ∧
      (∀ nodeId node, (upstreamRelations manifest modelName).get nodeId = some node ↔
        relationAt (relationsOf manifest) nodeId = some node ∧
          ∃ current, currentId (relationsOf manifest) modelName = some current ∧
            TransGen (ParentEdge (relationsOf manifest)) current nodeId) ∧
      ∀ {ι : Type uι} (dialect : Dialect ι) (compiledSql : String) (catalog : Option Catalog),
        ∀ binding ∈ buildSqlglotSchema dialect compiledSql manifest catalog modelName,
          ∃! entry, entry ∈ upstreamRelations manifest modelName ∧
            compiledKey dialect binding.table <:+ fullKey dialect entry.1 entry.2 := by
  obtain ⟨hcollected, hexact⟩ := upstreamRelations_spec manifest modelName
  refine ⟨hcollected.nodup, ?_, ?_⟩
  · intro nodeId node
    rw [← hexact nodeId]
    apply Iff.intro
    · intro hget
      exact ⟨hcollected.stored nodeId node hget, by simp [hget]⟩
    · rintro ⟨hstored, hsome⟩
      obtain ⟨found, hfound⟩ := Option.ne_none_iff_exists'.mp hsome
      have hsame := hcollected.stored nodeId found hfound
      rw [hstored] at hsame
      cases hsame
      exact hfound
  · intro ι dialect compiledSql catalog binding hbinding
    unfold buildSqlglotSchema at hbinding
    split at hbinding
    · cases hbinding
    · obtain ⟨table, -, hbound⟩ := List.mem_filterMap.mp hbinding
      obtain ⟨entry, hone, -, rfl⟩ := bindTable_eq_some_iff.mp hbound
      have hmem : ∀ other, other ∈ [entry] ↔ other ∈ upstreamRelations manifest modelName ∧
          compiledKey dialect table ∈ suffixes (fullKey dialect other.1 other.2) := by
        intro other
        rw [← hone, List.mem_filter, decide_eq_true_eq]
      have hentry := (hmem entry).mp List.mem_cons_self
      refine ⟨entry, ⟨hentry.1, (mem_suffixes.mp hentry.2).2⟩, ?_⟩
      rintro other ⟨hother, hsuffix⟩
      have hother := (hmem other).mpr ⟨hother, mem_suffixes.mpr
        ⟨(mem_suffixes.mp hentry.2).1, hsuffix⟩⟩
      exact List.mem_singleton.mp hother

end DbtCraft.Lineage
