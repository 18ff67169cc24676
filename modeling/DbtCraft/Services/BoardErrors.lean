/-
# What goes wrong with a board

The callers of `parse_board` are written for `ValueError`. Something else is raised by a few
steps only: the constructors of tags that PyYAML does not guard, a mapping made of a
sequence, a test of membership in a set, a number that no float can hold, a marker of a
reference that is not there, and what the libraries raise besides their own errors. Each
matters when the steps before it pass.
-/

import DbtCraft.Services.Boards

namespace DbtCraft.Services.Boards

open DbtCraft.Python.Yaml
open DbtCraft.Python (Value Dict contains jsonString)
open DbtCraft.Services.BoardSql hiding Node

/-- Nothing is raised but `ValueError`. -/
def OnlyValueError {α : Type} (result : Except Raised α) : Prop :=
  ∀ raised, result = .error raised → ∃ message, raised = .valueError message

/-! ## The condition on the document -/

/-- An error of the loader that `parse_board` turns into a `ValueError`, or that is one. -/
def Foreseen : LoadError → Prop
  | .yaml _ _ => True
  | .other raised => raised = .recursionError ∨ ∃ message, raised = .valueError message

mutual

/-- Where the composition of a document can end, in order. -/
def stops : Event → List LoadError
  | .alias => [.other (.valueError "YAML aliases are not supported. Define values explicitly.")]
  | .failure error => [error]
  | .scalar .. => []
  | .sequence _ _ items => stopsItems items
  | .mapping _ _ pairs => stopsPairs pairs

def stopsItems : List Event → List LoadError
  | [] => []
  | item :: rest => stops item ++ stopsItems rest

def stopsPairs : List (Event × Event) → List LoadError
  | [] => []
  | (key, value) :: rest => stops key ++ stops value ++ stopsPairs rest

end

/-- Where the composition of a stream can end. -/
def streamStops (stream : Stream) : List LoadError :=
  (stream.root.map stops).getD [] ++ stream.ending.toList

/-- A text that the constructor of its tag does not guard against: no word for a truth value, a
timestamp that is a mapping, or a text that the reader fails on. -/
def MisreadAs (reader : Reader) (node : Node) (text : String) : AtomTag → Prop
  | .null | .str => False
  | .bool =>
    String.ofList (text.toList.map Char.toLower) ∉ ["yes", "true", "on", "no", "false", "off"]
  | .timestamp =>
    node.id ≠ "scalar" ∨ ∃ error, reader.read .timestamp text = .error error ∧ ¬ Foreseen error
  | .int => ∃ error, reader.read .int text = .error error ∧ ¬ Foreseen error
  | .float => ∃ error, reader.read .float text = .error error ∧ ¬ Foreseen error
  | .binary => ∃ error, reader.read .binary text = .error error ∧ ¬ Foreseen error

/-- A node with such a text. -/
def Misread (reader : Reader) (node : Node) : Prop :=
  ∃ tag text, node.tag = .atom tag ∧ constructScalar node = .ok text ∧
    MisreadAs reader node text tag

/-- A step of the loader that ends otherwise: a scalar is misread, or a sequence with items is
taken for a mapping. -/
def Astray (reader : Reader) : Step → Prop
  | .construct node | .key node _ => Misread reader node
  | .refuse error => error = .other .typeError

/-- The loader goes through a document, or stops with an error that is foreseen. -/
structure LoadsForeseen (reader : Reader) (content : String) : Prop where
  composed : ∀ error, (streamStops (reader.parse content)).head? = some error → Foreseen error
  constructed : ∀ root, composeStream (reader.parse content) = .ok (some root) →
    ¬ Misread reader root ∧
      ∀ step, Reached (Step.take reader) ((order [root]).flatMap steps) step → ¬ Astray reader step

/-! ## The condition on the board -/

/-- What `_safe_tree` looks at. -/
inductive Visit
  | level (depth : ℕ)
  | item (key child : Value)
  | leaf (value : Value)

def Visit.check : Visit → Except Raised Unit
  | .level depth => checkDepth depth
  | .item key child => checkItem key child
  | .leaf value => checkLeaf value

mutual

/-- The looks of `_safe_tree`, in order. -/
def visits (depth : ℕ) : Value → List Visit
  | .dict items => .level depth :: visitItems depth items
  | .list values => .level depth :: visitValues depth values
  | .none => [.level depth, .leaf .none]
  | .bool value => [.level depth, .leaf (.bool value)]
  | .int value => [.level depth, .leaf (.int value)]
  | .float repr trunc => [.level depth, .leaf (.float repr trunc)]
  | .nonFinite repr => [.level depth, .leaf (.nonFinite repr)]
  | .str text => [.level depth, .leaf (.str text)]
  | .object typeName str => [.level depth, .leaf (.object typeName str)]

def visitItems (depth : ℕ) : Items → List Visit
  | [] => []
  | (key, child) :: rest => .item key child :: visits (depth + 1) child ++ visitItems depth rest

def visitValues (depth : ℕ) : List Value → List Visit
  | [] => []
  | child :: rest => visits (depth + 1) child ++ visitValues depth rest

end

/-- No theme that the walk comes to is a list, a dict or a set. -/
def ThemesHashable (value : Value) : Prop :=
  ∀ key child, Reached Visit.check (visits 0 value) (.item key child) →
    keyIn ["theme"] key = true → unhashable child = false

/-- No input of a variable is one. -/
def InputsHashable (declared : Items) : Prop :=
  ∀ item spec input, Reached (fun item => checkVariable (keyName item.1) item.2) declared item →
    item.2 = .dict spec → get spec "input" = some input → unhashable input = false

/-! ## The condition on a query -/

/-- An integer that no float can hold. -/
def Oversized (value : Value) : Prop := ∃ number : ℤ, value = .int number ∧ floatBound ≤ number.natAbs

/-- A value that a filter cannot be filled in with: such an integer, or a list where one comes
after items that are fine. -/
def FilterOverflows (value : Value) : Prop :=
  Oversized value ∨ ∃ items item, value = .list items ∧ items.length ≤ 100 ∧
    Reached (fun item => (literal item).map fun _ => ()) items item ∧ Oversized item

/-- A node that is filled in with such an integer: it names a variable, or filters by one. -/
def Overflows (engine : Engine) (bindings : Bindings) (node : BoardSql.Node) : Prop :=
  (∃ name value, node = .name name ∧ bindings.get name = some value ∧ Oversized value) ∨
    ∃ called column name value, node = .call called [.const (.str column), .name name] true ∧
      functionName called = some "filter" ∧ isColumn engine column = true ∧
      bindings.get name = some value ∧
      FilterOverflows value

/-- The matches of the pattern of a marker, with their numbers and lengths. -/
def refMatches (engine : Engine) : ℕ → List Char → List (ℕ × ℕ)
  | _, [] => []
  | matched + 1, _ :: rest => refMatches engine matched rest
  | 0, c :: rest =>
    match matchRef engine (c :: rest) with
    | none => refMatches engine 0 rest
    | some (number, length) => (number, length) :: refMatches engine (length - 1) rest

/-- The number of a marker is read, and there is a reference for it. -/
def checkMarker (refs : List String) (marker : ℕ × ℕ) : Except Raised Unit :=
  if maxStrDigits + refMarker.length < marker.2 then .error tooManyDigits
  else if marker.1 < refs.length then .ok ()
  else .error .indexError

/-- The query can be prepared, or is refused with a `ValueError`. -/
structure SqlForeseen (libraries : Libraries) (bindings : Bindings) (sql : String) : Prop where
  /-- sqlglot raises nothing but its own errors. -/
  parsed : ∀ text raised, preparedText libraries bindings sql = some text →
    libraries.crash text = some raised → ∃ message, raised = .valueError message
  /-- No number that is filled in is too large. -/
  filled : ∀ nodes, sqlNodes libraries sql = some nodes → ∀ node,
    Reached (fun node => (part libraries.engine bindings [] node).map fun _ => ()) nodes node →
      ¬ Overflows libraries.engine bindings node
  /-- No marker of the statement that is come to lacks its reference. -/
  marked : ∀ nodes text refs, sqlNodes libraries sql = some nodes →
    joinParts libraries.engine bindings [] nodes = .ok (text, refs) → libraries.crash text = none →
    libraries.engine.validate text = .ok () → refs ≠ [] → ∀ marker,
      Reached (checkMarker refs) (refMatches libraries.engine 0 text.toList) marker →
        marker.2 ≤ maxStrDigits + refMarker.length → marker.1 < refs.length

/-! ## The whole condition -/

/-- A query is as the code expects it: a statement, or a table whose notes have no such theme. -/
def QueryForeseen (libraries : Libraries) (bindings : Bindings) : Value → Prop
  | .str sql => SqlForeseen libraries bindings sql
  | query => inlineShape query = .ok () → ThemesHashable query

/-- The parts of a board, each after those before it have passed. -/
structure BoardForeseen (libraries : Libraries) (board queries : Items) : Prop where
  themes : ThemesHashable (.dict (display board))
  variables' : safeTree 0 (.dict (display board)) = .ok () →
    checkQueries queries (.dict (display board)) = .ok () →
    ∀ declared, boardVariables board = .ok declared →
      ThemesHashable (.dict declared) ∧
        (safeTree 0 (.dict declared) = .ok () →
          InputsHashable declared ∧
            ((declared.forM fun item => checkVariable (keyName item.1) item.2) = .ok () →
              ∀ item, Reached (fun item =>
                  checkQuery libraries (defaults declared) (keyName item.1) item.2) queries item →
                QueryForeseen libraries (defaults declared) item.2))

/-- Everything that the code comes to in a document is as it expects it. -/
def AllForeseen (libraries : Libraries) (content : String) : Prop :=
  content.utf8ByteSize ≤ maxBytes → LoadsForeseen libraries.reader content ∧
    ∀ board queries, load libraries.reader content = .ok (.dict board) →
      boardQueries board = .ok queries → checkCharts board = .ok () →
        BoardForeseen libraries board queries

section

variable {α β : Type} {result : Except Raised α} {next : α → Except Raised β} {items : List α}
  {check : α → Except Raised Unit}

/-! ## Sequences of steps -/

theorem onlyValueError_ok (value : α) : OnlyValueError (.ok value : Except Raised α) := by
  intro raised hraised
  cases hraised

theorem onlyValueError_valueError (message : String) :
    OnlyValueError (.error (.valueError message) : Except Raised α) := by
  intro raised hraised
  exact ⟨message, (Except.error.inj hraised).symm⟩

theorem onlyValueError_bind_iff : OnlyValueError (result >>= next) ↔
    OnlyValueError result ∧ ∀ value, result = .ok value → OnlyValueError (next value) := by
  cases result with
  | error raised =>
    apply Iff.intro
    · intro honly
      exact ⟨fun other hother => honly other (by rw [← Except.error.inj hother]; rfl),
        fun value hvalue => by cases hvalue⟩
    · intro hsteps other hother
      exact hsteps.1 other (by rw [← Except.error.inj hother])
  | ok value =>
    apply Iff.intro
    · intro honly
      refine ⟨onlyValueError_ok value, ?_⟩
      intro other hother
      rw [← Except.ok.inj hother]
      exact honly
    · intro hsteps
      exact hsteps.2 value rfl

theorem onlyValueError_map_iff {f : α → β} : OnlyValueError (result.map f) ↔ OnlyValueError result := by
  cases result with
  | error raised =>
    apply Iff.intro
    · intro honly other hother
      exact honly other (by rw [← Except.error.inj hother]; rfl)
    · intro honly other hother
      exact honly other (by rw [← Except.error.inj hother])
  | ok value => exact iff_of_true (onlyValueError_ok _) (onlyValueError_ok _)

/-- A row of checks raises nothing else when no check that is come to does. -/
theorem onlyValueError_forM_iff : OnlyValueError (items.forM check) ↔
    ∀ item, Reached check items item → OnlyValueError (check item) := by
  apply Iff.intro
  · intro honly item hreached raised hraised
    exact honly raised (forM_eq_error.mpr ⟨item, hreached, hraised⟩)
  · intro hitems raised hraised
    obtain ⟨item, hreached, hitem⟩ := forM_eq_error.mp hraised
    exact hitems item hreached raised hitem

end

variable {reader : Reader} {libraries : Libraries} {content : String} {board items : Items}
  {depth : ℕ} {value : Value}

/-! ## The walks -/

theorem forM_pair (first second : Visit) :
    [first, second].forM Visit.check = (do first.check; second.check) := by
  rw [List.forM_eq_forM, List.forM_cons, List.forM_cons, List.forM_nil]
  cases first.check with
  | error raised => rfl
  | ok done => cases second.check <;> rfl

mutual

/-- The walk is a row of looks. -/
theorem safeTree_eq_forM (depth : ℕ) : ∀ value : Value,
    safeTree depth value = (visits depth value).forM Visit.check
  | .dict items => by
      rw [safeTree, visits, List.forM_eq_forM, List.forM_cons, ← List.forM_eq_forM,
        ← safeItems_eq_forM depth items]
      rfl
  | .list values => by
      rw [safeTree, visits, List.forM_eq_forM, List.forM_cons, ← List.forM_eq_forM,
        ← safeValues_eq_forM depth values]
      rfl
  | .none | .bool _ | .int _ | .float _ _ => by
      rw [safeTree, visits, forM_pair]
      cases hdepth : checkDepth depth <;> simp only [Visit.check, hdepth] <;> rfl
  | .nonFinite _ | .str _ | .object _ _ => by
      rw [safeTree, visits, forM_pair]
      rfl

theorem safeItems_eq_forM (depth : ℕ) : ∀ items : Items,
    safeItems depth items = (visitItems depth items).forM Visit.check
  | [] => rfl
  | (key, child) :: rest => by
      rw [safeItems, visitItems, safeTree_eq_forM (depth + 1) child, safeItems_eq_forM depth rest]
      simp only [List.forM_eq_forM, List.cons_append, List.forM_cons, List.forM_append]
      rfl

theorem safeValues_eq_forM (depth : ℕ) : ∀ values : List Value,
    safeValues depth values = (visitValues depth values).forM Visit.check
  | [] => rfl
  | child :: rest => by
      rw [safeValues, visitValues, safeTree_eq_forM (depth + 1) child, safeValues_eq_forM depth rest]
      simp only [List.forM_eq_forM, List.forM_append]

end

theorem onlyValueError_checkItem_iff {key child : Value} : OnlyValueError (checkItem key child) ↔
    (keyIn ["theme"] key = true → unhashable child = false) := by
  unfold checkItem
  split_ifs with hblocked htheme
  · apply iff_of_true (onlyValueError_valueError _)
    intro htheme
    cases key with
    | str text =>
      have htext : text = "theme" := List.mem_singleton.mp (List.contains_iff_mem.mp htheme)
      rw [htext] at hblocked
      exact absurd hblocked (by decide)
    | _ => cases htheme
  · unfold inSet
    cases hchild : unhashable child with
    | true =>
      apply iff_of_false
      · intro honly
        obtain ⟨message, hmessage⟩ := honly .typeError rfl
        cases hmessage
      · intro hhashable
        cases hhashable htheme
    | false =>
      apply iff_of_true _ fun _ => rfl
      rw [if_neg Bool.false_ne_true]
      cases child with
      | str text =>
        dsimp only
        cases themes.contains text with
        | true => exact onlyValueError_ok _
        | false => exact onlyValueError_valueError _
      | _ => exact onlyValueError_valueError _
  · exact iff_of_true (onlyValueError_ok _) fun htrue => absurd htrue htheme

theorem onlyValueError_safeTree_iff : OnlyValueError (safeTree 0 value) ↔ ThemesHashable value := by
  rw [safeTree_eq_forM, onlyValueError_forM_iff]
  apply Iff.intro
  · intro hvisits key child hreached
    exact onlyValueError_checkItem_iff.mp (hvisits _ hreached)
  · intro hthemes visit hreached
    cases visit with
    | item key child => exact onlyValueError_checkItem_iff.mpr (hthemes key child hreached)
    | level depth =>
      unfold Visit.check checkDepth
      dsimp only
      split_ifs
      · exact onlyValueError_valueError _
      · exact onlyValueError_ok _
    | leaf value =>
      unfold Visit.check
      dsimp only
      unfold checkLeaf
      split
      · split_ifs
        · exact onlyValueError_valueError _
        · exact onlyValueError_ok _
      · exact onlyValueError_valueError _
      · exact onlyValueError_valueError _
      · exact onlyValueError_ok _

theorem onlyValueError_checkQueryItem {queries : Items} {key child : Value} :
    OnlyValueError (checkQueryItem queries key child) := by
  unfold checkQueryItem
  split_ifs
  · exact onlyValueError_valueError _
  · split
    · split_ifs
      · exact onlyValueError_ok _
      · exact onlyValueError_valueError _
    · exact onlyValueError_valueError _
  · exact onlyValueError_ok _

mutual

theorem onlyValueError_checkQueries (queries : Items) : ∀ value : Value,
    OnlyValueError (checkQueries queries value)
  | .dict items => by
      rw [checkQueries]
      exact onlyValueError_checkQueryItems queries items
  | .list values => by
      rw [checkQueries]
      exact onlyValueError_checkQueryValues queries values
  | .none | .bool _ | .int _ | .float _ _ | .nonFinite _ | .str _ | .object _ _ => by
      rw [checkQueries]
      exact onlyValueError_ok ()

theorem onlyValueError_checkQueryItems (queries : Items) : ∀ items : Items,
    OnlyValueError (checkQueryItems queries items)
  | [] => onlyValueError_ok ()
  | (key, child) :: rest => by
      rw [checkQueryItems]
      refine onlyValueError_bind_iff.mpr ⟨onlyValueError_checkQueryItem, fun _ _ => ?_⟩
      refine onlyValueError_bind_iff.mpr ⟨onlyValueError_checkQueries queries child, fun _ _ => ?_⟩
      exact onlyValueError_checkQueryItems queries rest

theorem onlyValueError_checkQueryValues (queries : Items) : ∀ values : List Value,
    OnlyValueError (checkQueryValues queries values)
  | [] => onlyValueError_ok ()
  | child :: rest => by
      rw [checkQueryValues]
      refine onlyValueError_bind_iff.mpr ⟨onlyValueError_checkQueries queries child, fun _ _ => ?_⟩
      exact onlyValueError_checkQueryValues queries rest

end

/-! ## Sections -/

theorem onlyValueError_boardQueries : OnlyValueError (boardQueries board) := by
  unfold boardQueries
  split
  · split_ifs
    · exact onlyValueError_ok _
    · exact onlyValueError_valueError _
  · exact onlyValueError_valueError _

theorem onlyValueError_boardVariables : OnlyValueError (boardVariables board) := by
  unfold boardVariables
  split
  · split_ifs
    · exact onlyValueError_ok _
    · exact onlyValueError_valueError _
  · exact onlyValueError_valueError _

theorem onlyValueError_checkCharts : OnlyValueError (checkCharts board) := by
  unfold checkCharts
  split
  · split_ifs
    · exact onlyValueError_ok _
    · exact onlyValueError_valueError _
    · exact onlyValueError_valueError _
  · exact onlyValueError_valueError _

theorem onlyValueError_checkVariable_iff {name : String} :
    OnlyValueError (checkVariable name value) ↔
      ∀ spec input, value = .dict spec → get spec "input" = some input → unhashable input = false := by
  cases value with
  | dict spec =>
    unfold checkVariable inSet
    dsimp only
    cases hinput : unhashable ((get spec "input").getD (.str "text")) with
    | true =>
      apply iff_of_false
      · intro honly
        obtain ⟨message, hmessage⟩ := honly .typeError rfl
        cases hmessage
      · intro hhashable
        cases hget : get spec "input" with
        | none =>
          rw [hget] at hinput
          cases hinput
        | some input =>
          rw [hget] at hinput
          cases hinput.symm.trans (hhashable spec input rfl hget)
    | false =>
      apply iff_of_true
      · rw [if_neg Bool.false_ne_true]
        split
        next raised hraised =>
          split at hraised
          · cases hraised
          · cases hraised
        · exact onlyValueError_valueError _
        · split_ifs
          · exact onlyValueError_ok _
          · exact onlyValueError_valueError _
          · exact onlyValueError_valueError _
      · intro spec' input hspec hget
        rw [← Value.dict.inj hspec] at hget
        rw [hget] at hinput
        exact hinput
  | _ =>
    apply iff_of_true (onlyValueError_valueError _)
    intro spec input hspec
    cases hspec

theorem onlyValueError_variables_iff {declared : Items} :
    OnlyValueError (declared.forM fun item => checkVariable (keyName item.1) item.2) ↔
      InputsHashable declared := by
  rw [onlyValueError_forM_iff]
  apply Iff.intro
  · intro hitems item spec input hreached
    exact onlyValueError_checkVariable_iff.mp (hitems item hreached) spec input
  · intro hinputs item hreached
    exact onlyValueError_checkVariable_iff.mpr fun spec input =>
      hinputs item spec input hreached

theorem onlyValueError_inlineShape : OnlyValueError (inlineShape value) := by
  unfold inlineShape
  split
  · split
    · split_ifs
      · split
        · split
          · split_ifs
            · split
              · split_ifs
                · exact onlyValueError_ok _
                · exact onlyValueError_valueError _
              · exact onlyValueError_valueError _
            · exact onlyValueError_valueError _
          · exact onlyValueError_valueError _
        · exact onlyValueError_valueError _
      · exact onlyValueError_valueError _
    · exact onlyValueError_valueError _
  · exact onlyValueError_valueError _

theorem onlyValueError_inline_iff :
    OnlyValueError (inline value) ↔ (inlineShape value = .ok () → ThemesHashable value) := by
  have hlength : OnlyValueError (checkLength value) := by
    unfold checkLength
    split
    · exact onlyValueError_valueError _
    · split_ifs
      · exact onlyValueError_valueError _
      · exact onlyValueError_ok _
  unfold inline
  rw [onlyValueError_bind_iff, and_iff_right onlyValueError_inlineShape]
  apply Iff.intro
  · intro hwalk hshape
    exact onlyValueError_safeTree_iff.mp (onlyValueError_bind_iff.mp (hwalk () hshape)).1
  · intro hthemes _ hshape
    exact onlyValueError_bind_iff.mpr
      ⟨onlyValueError_safeTree_iff.mpr (hthemes hshape), fun _ _ => hlength⟩

/-! ## Statements -/

section

variable {engine : Engine} {bindings : Bindings} {refs : List String} {sql : String}

/-- Two rows that raise the same. -/
theorem onlyValueError_congr {α β : Type} {first : Except Raised α} {second : Except Raised β}
    (hsame : ∀ raised, first = .error raised ↔ second = .error raised) :
    OnlyValueError first ↔ OnlyValueError second := by
  unfold OnlyValueError
  exact forall_congr' fun raised => imp_congr_left (hsame raised)

theorem error_eq_error {α β : Type} {first raised : Raised} :
    (Except.error first : Except Raised α) = .error raised ↔
      (Except.error first : Except Raised β) = .error raised :=
  ⟨fun hsame => congrArg _ (Except.error.inj hsame), fun hsame =>
    congrArg _ (Except.error.inj hsame)⟩

theorem map_eq_error {α β : Type} {result : Except Raised α} {f : α → β} {raised : Raised} :
    result.map f = .error raised ↔ result = .error raised := by
  cases result with
  | error other => exact error_eq_error
  | ok value => exact iff_of_false (fun hsame => by cases hsame) fun hsame => by cases hsame

theorem onlyValueError_literal_iff : OnlyValueError (literal value) ↔ ¬ Oversized value := by
  have hother (hvalue : ∀ number, value ≠ .int number) : ¬ Oversized value := by
    intro hoversized
    obtain ⟨number, hnumber, -⟩ := hoversized
    exact hvalue number hnumber
  cases value with
  | int number =>
    rw [literal]
    split_ifs with hbound
    · apply iff_of_true (onlyValueError_ok _)
      intro hoversized
      obtain ⟨other, hsame, hlarge⟩ := hoversized
      rw [← Value.int.inj hsame] at hlarge
      exact absurd hbound (Nat.not_lt.mpr hlarge)
    · apply iff_of_false
      · intro honly
        obtain ⟨message, hmessage⟩ := honly .overflowError rfl
        cases hmessage
      · exact fun hnot => hnot ⟨number, rfl, Nat.not_lt.mp hbound⟩
  | str text =>
    apply iff_of_true _ (hother fun number hsame => by cases hsame)
    rw [literal]
    split_ifs
    · exact onlyValueError_ok _
    · exact onlyValueError_valueError _
  | none => exact iff_of_true (onlyValueError_ok _) (hother fun number hsame => by cases hsame)
  | bool => exact iff_of_true (onlyValueError_ok _) (hother fun number hsame => by cases hsame)
  | float => exact iff_of_true (onlyValueError_ok _) (hother fun number hsame => by cases hsame)
  | nonFinite =>
    exact iff_of_true (onlyValueError_valueError _) (hother fun number hsame => by cases hsame)
  | list =>
    exact iff_of_true (onlyValueError_valueError _) (hother fun number hsame => by cases hsame)
  | dict =>
    exact iff_of_true (onlyValueError_valueError _) (hother fun number hsame => by cases hsame)
  | object =>
    exact iff_of_true (onlyValueError_valueError _) (hother fun number hsame => by cases hsame)

theorem mapM_literal_error {values : List Value} {raised : Raised} :
    values.mapM literal = .error raised ↔
      (values.forM fun item => (literal item).map fun _ => ()) = .error raised := by
  induction values with
  | nil => exact iff_of_false (fun hsame => by cases hsame) fun hsame => by cases hsame
  | cons first rest ih =>
    rw [List.mapM_cons, List.forM_eq_forM, List.forM_cons, ← List.forM_eq_forM]
    cases hfirst : literal first with
    | error other =>
      exact error_eq_error
    | ok text =>
      apply Iff.trans _ ih
      cases hrest : rest.mapM literal with
      | error other =>
        exact error_eq_error
      | ok texts => exact iff_of_false (fun hsame => by cases hsame) fun hsame => by cases hsame

theorem onlyValueError_filterText_iff {column : String} :
    OnlyValueError (filterText column value) ↔ ¬ FilterOverflows value := by
  have hscalar (hvalue : ∀ items, value ≠ .list items) :
      FilterOverflows value ↔ Oversized value :=
    or_iff_left fun ⟨items, item, hitems, _⟩ => hvalue items hitems
  unfold filterText
  split
  · rw [hscalar fun items hsame => by cases hsame]
    exact iff_of_true (onlyValueError_ok _) fun ⟨number, hnumber, _⟩ => by cases hnumber
  · apply iff_of_true (onlyValueError_ok _)
    intro hover
    rcases hover with ⟨number, hnumber, -⟩ | ⟨items, item, hitems, -, ⟨before, after, hsplit, -⟩, -⟩
    · cases hnumber
    · rw [← Value.list.inj hitems] at hsplit
      exact absurd hsplit.symm (by simp)
  · rw [hscalar fun items hsame => by cases hsame]
    exact iff_of_true (onlyValueError_ok _) fun ⟨number, hnumber, _⟩ => by cases hnumber
  next items _ =>
    split_ifs with hlength
    · apply iff_of_true (onlyValueError_valueError _)
      intro hover
      rcases hover with ⟨number, hnumber, -⟩ | ⟨others, item, hitems, hshort, -⟩
      · cases hnumber
      · rw [← Value.list.inj hitems] at hshort
        omega
    · have hrow : OnlyValueError (items.mapM literal) ↔
          OnlyValueError (items.forM fun item => (literal item).map fun _ => ()) :=
        onlyValueError_congr fun raised => mapM_literal_error
      rw [onlyValueError_map_iff, hrow, onlyValueError_forM_iff]
      apply Iff.intro
      · intro hitems hover
        rcases hover with ⟨number, hnumber, -⟩ | ⟨others, item, hsame, -, hreached, hlarge⟩
        · cases hnumber
        · rw [← Value.list.inj hsame] at hreached
          exact onlyValueError_literal_iff.mp
            (onlyValueError_map_iff.mp (hitems item hreached)) hlarge
      · intro hfine item hreached
        apply onlyValueError_map_iff.mpr
        apply onlyValueError_literal_iff.mpr
        exact fun hlarge => hfine (Or.inr ⟨items, item, rfl, by omega, hreached, hlarge⟩)
  next hnone hnil hempty hlist =>
    rw [onlyValueError_map_iff, onlyValueError_literal_iff, hscalar fun items hsame =>
      hlist items hsame]

theorem onlyValueError_callText_iff {node : BoardSql.Node} {args : List BoardSql.Node} :
    OnlyValueError (callText engine bindings refs node args) ↔
      ¬ ∃ column name value, args = [.const (.str column), .name name] ∧
        functionName node = some "filter" ∧ isColumn engine column = true ∧
        bindings.get name = some value ∧ FilterOverflows value := by
  unfold callText
  cases hname : functionName node with
  | none =>
    apply iff_of_true (onlyValueError_valueError _)
    intro hover
    obtain ⟨column, name, value, -, hfilter, -⟩ := hover
    cases hfilter
  | some fn =>
    dsimp only
    split_ifs with hreference hfilter
    · have hfn : fn ≠ "filter" := by
        intro hfn
        rw [hfn] at hreference
        exact absurd hreference (by decide)
      apply iff_of_true
      · split
        · exact onlyValueError_valueError _
        · split_ifs
          · exact onlyValueError_ok _
          · exact onlyValueError_valueError _
      · intro hover
        obtain ⟨column, name, value, -, hsame, -⟩ := hover
        exact hfn (Option.some_inj.mp hsame)
    · rw [hfilter]
      split
      next column name =>
        split
        next column value hget =>
          split_ifs with hcolumn
          · rw [onlyValueError_map_iff, onlyValueError_filterText_iff]
            apply not_congr
            apply Iff.intro
            · intro hover
              exact ⟨column, name, value, rfl, rfl, hcolumn, hget, hover⟩
            · intro hover
              obtain ⟨column', name', value', hargs, -, -, hget', hvalue⟩ := hover
              obtain ⟨-, hlast⟩ := List.cons.inj hargs
              rw [← Node.name.inj (List.cons.inj hlast).1, hget] at hget'
              rw [Option.some_inj.mp hget']
              exact hvalue
          · apply iff_of_true (onlyValueError_valueError _)
            intro hover
            obtain ⟨column', name', value', hargs, -, hcolumn', -⟩ := hover
            have hsame := Value.str.inj (Node.const.inj (List.cons.inj hargs).1)
            rw [← hsame] at hcolumn'
            exact hcolumn hcolumn'
        next hother =>
          apply iff_of_true (onlyValueError_valueError _)
          intro hover
          obtain ⟨column', name', value', hargs, -, -, hget', -⟩ := hover
          obtain ⟨hconst, hlast⟩ := List.cons.inj hargs
          have hcolumn := Node.const.inj hconst
          rw [← Node.name.inj (List.cons.inj hlast).1] at hget'
          exact hother column' value' hcolumn hget'
      next hother =>
        apply iff_of_true (onlyValueError_valueError _)
        intro hover
        obtain ⟨column', name', value', hargs, -⟩ := hover
        exact hother _ _ hargs
    · apply iff_of_true (onlyValueError_valueError _)
      intro hover
      obtain ⟨column, name, value, -, hsame, -⟩ := hover
      exact hfilter (Option.some_inj.mp hsame)

theorem onlyValueError_part_iff {node : BoardSql.Node} :
    OnlyValueError (part engine bindings refs node) ↔ ¬ Overflows engine bindings node := by
  have hcalled (hnode : ∀ name, node ≠ .name name) : Overflows engine bindings node ↔
      ∃ called column name value, node = .call called [.const (.str column), .name name] true ∧
        functionName called = some "filter" ∧ isColumn engine column = true ∧
        bindings.get name = some value ∧ FilterOverflows value :=
    or_iff_right fun ⟨name, value, hname, _⟩ => hnode name hname
  cases node with
  | name name =>
    have hnamed : Overflows engine bindings (.name name) ↔
        ∃ value, bindings.get name = some value ∧ Oversized value := by
      apply Iff.intro
      · intro hover
        rcases hover with ⟨name', value, hname, hget, hlarge⟩ | ⟨called, column, name', value, hcall, -⟩
        · rw [← BoardSql.Node.name.inj hname] at hget
          exact ⟨value, hget, hlarge⟩
        · cases hcall
      · intro hover
        obtain ⟨value, hget, hlarge⟩ := hover
        exact Or.inl ⟨name, value, rfl, hget, hlarge⟩
    rw [hnamed, part, expression]
    · cases hget : bindings.get name with
      | none =>
        apply iff_of_true (onlyValueError_valueError _)
        intro hover
        obtain ⟨value, hvalue, -⟩ := hover
        cases hvalue
      | some value =>
        dsimp only
        rw [onlyValueError_map_iff, onlyValueError_literal_iff]
        apply not_congr
        apply Iff.intro
        · exact fun hlarge => ⟨value, rfl, hlarge⟩
        · intro hover
          obtain ⟨value', hvalue, hlarge⟩ := hover
          rw [Option.some_inj.mp hvalue]
          exact hlarge
    · exact fun text hsame => by cases hsame
  | call called args plain =>
    rw [hcalled fun name hsame => (by cases hsame), part, expression]
    · cases plain with
      | false =>
        apply iff_of_true (onlyValueError_valueError _)
        intro hover
        obtain ⟨called', column, name, value, hnode, -⟩ := hover
        cases hnode
      | true =>
        rw [if_pos rfl, onlyValueError_callText_iff]
        apply not_congr
        apply Iff.intro
        · intro hover
          obtain ⟨column, name, value, hargs, hrest⟩ := hover
          rw [hargs]
          exact ⟨called, column, name, value, rfl, hrest⟩
        · intro hover
          obtain ⟨called', column, name, value, hnode, hrest⟩ := hover
          obtain ⟨hcalled', hargs, -⟩ := BoardSql.Node.call.inj hnode
          rw [hcalled']
          exact ⟨column, name, value, hargs, hrest⟩
    · exact fun text hsame => by cases hsame
  | data text =>
    rw [hcalled fun name hsame => by cases hsame]
    exact iff_of_true (onlyValueError_ok _) fun ⟨_, _, _, _, hnode, _⟩ => by cases hnode
  | const value =>
    rw [hcalled fun name hsame => by cases hsame]
    exact iff_of_true (onlyValueError_valueError _) fun ⟨_, _, _, _, hnode, _⟩ => by cases hnode
  | getattr inner attr =>
    rw [hcalled fun name hsame => by cases hsame]
    exact iff_of_true (onlyValueError_valueError _) fun ⟨_, _, _, _, hnode, _⟩ => by cases hnode
  | other =>
    rw [hcalled fun name hsame => by cases hsame]
    exact iff_of_true (onlyValueError_valueError _) fun ⟨_, _, _, _, hnode, _⟩ => by cases hnode

theorem callText_error_congr {node : BoardSql.Node} {args : List BoardSql.Node} {raised : Raised}
    (first second : List String) :
    callText engine bindings first node args = .error raised ↔
      callText engine bindings second node args = .error raised := by
  unfold callText
  split
  · exact Iff.rfl
  · split_ifs
    · split
      · exact Iff.rfl
      · split_ifs
        · exact iff_of_false (fun hsame => by cases hsame) fun hsame => by cases hsame
        · exact Iff.rfl
    · split
      · split
        · split_ifs
          · exact map_eq_error.trans map_eq_error.symm
          · exact Iff.rfl
        · exact Iff.rfl
      · exact Iff.rfl
    · exact Iff.rfl

/-- The references found before do not matter to whether a part is refused. -/
theorem part_error_congr {node : BoardSql.Node} {raised : Raised} (first second : List String) :
    part engine bindings first node = .error raised ↔
      part engine bindings second node = .error raised := by
  unfold part
  split
  · exact iff_of_false (fun hsame => by cases hsame) fun hsame => by cases hsame
  · unfold expression
    split
    · split
      · exact map_eq_error.trans map_eq_error.symm
      · exact Iff.rfl
    · split_ifs
      · exact callText_error_congr first second
      · exact Iff.rfl
    · exact Iff.rfl

theorem joinParts_error {nodes : List BoardSql.Node} {raised : Raised} :
    joinParts engine bindings refs nodes = .error raised ↔
      (nodes.forM fun node => (part engine bindings [] node).map fun _ => ()) = .error raised := by
  induction nodes generalizing refs with
  | nil => exact iff_of_false (fun hsame => by cases hsame) fun hsame => by cases hsame
  | cons node rest ih =>
    rw [joinParts, List.forM_eq_forM, List.forM_cons, ← List.forM_eq_forM]
    cases hnode : part engine bindings refs node with
    | error other =>
      rw [(part_error_congr refs []).mp hnode]
      exact error_eq_error
    | ok found =>
      obtain ⟨text, all⟩ := found
      cases hempty : part engine bindings [] node with
      | error other =>
        rw [(part_error_congr [] refs).mp hempty] at hnode
        cases hnode
      | ok found' =>
        have hall : joinParts engine bindings all rest = .error raised ↔ _ := ih
        apply Iff.trans _ hall
        show (joinParts engine bindings all rest >>= fun found => _) = _ ↔ _
        cases hrest : joinParts engine bindings all rest with
        | error other =>
          exact error_eq_error
        | ok texts =>
          exact iff_of_false (fun hsame => by cases hsame) fun hsame => by cases hsame

theorem onlyValueError_joinParts_iff {nodes : List BoardSql.Node} :
    OnlyValueError (joinParts engine bindings refs nodes) ↔
      ∀ node, Reached (fun node => (part engine bindings [] node).map fun _ => ()) nodes node →
        ¬ Overflows engine bindings node := by
  rw [onlyValueError_congr fun raised => joinParts_error, onlyValueError_forM_iff]
  apply forall_congr'
  intro node
  apply imp_congr_right
  intro _
  rw [onlyValueError_map_iff, onlyValueError_part_iff]

theorem substituteRefs_error {matched : ℕ} {text : List Char} {raised : Raised} :
    substituteRefs engine refs matched text = .error raised ↔
      (refMatches engine matched text).forM (checkMarker refs) = .error raised := by
  induction text generalizing matched with
  | nil =>
    have hempty : substituteRefs engine refs matched [] = .ok [] := by cases matched <;> rfl
    have hnone : refMatches engine matched [] = [] := by cases matched <;> rfl
    rw [hempty, hnone]
    exact iff_of_false (fun hsame => by cases hsame) fun hsame => by cases hsame
  | cons c rest ih =>
    cases matched with
    | succ matched => exact ih
    | zero =>
      rw [substituteRefs, refMatches]
      cases hmatch : matchRef engine (c :: rest) with
      | none => exact map_eq_error.trans ih
      | some found =>
        obtain ⟨number, length⟩ := found
        dsimp only
        rw [List.forM_eq_forM, List.forM_cons, ← List.forM_eq_forM, checkMarker]
        dsimp only
        split_ifs with hdigits hnumber
        · exact error_eq_error
        · rw [List.getElem?_eq_getElem hnumber]
          exact map_eq_error.trans ih
        · rw [List.getElem?_eq_none (Nat.not_lt.mp hnumber)]
          exact error_eq_error

theorem onlyValueError_checkMarker_iff {marker : ℕ × ℕ} : OnlyValueError (checkMarker refs marker) ↔
    (marker.2 ≤ maxStrDigits + refMarker.length → marker.1 < refs.length) := by
  unfold checkMarker
  split_ifs with hdigits hnumber
  · exact iff_of_true (onlyValueError_valueError _) fun hfew => absurd hdigits (Nat.not_lt.mpr hfew)
  · exact iff_of_true (onlyValueError_ok _) fun _ => hnumber
  · apply iff_of_false
    · intro honly
      obtain ⟨message, hmessage⟩ := honly .indexError rfl
      cases hmessage
    · exact fun hthere => hnumber (hthere (Nat.not_lt.mp hdigits))

theorem onlyValueError_finishSql_iff {text : String} : OnlyValueError (finishSql engine refs text) ↔
    (engine.validate text = .ok () → refs ≠ [] → ∀ marker,
      Reached (checkMarker refs) (refMatches engine 0 text.toList) marker →
        marker.2 ≤ maxStrDigits + refMarker.length → marker.1 < refs.length) := by
  unfold finishSql
  cases engine.validate text with
  | error message =>
    exact iff_of_true (onlyValueError_valueError _) fun hvalid => by cases hvalid
  | ok done =>
    dsimp only
    split_ifs with hrefs
    · exact iff_of_true (onlyValueError_ok _) fun _ hsome => absurd hrefs hsome
    · rw [onlyValueError_map_iff, onlyValueError_congr fun raised => substituteRefs_error,
        onlyValueError_forM_iff]
      apply Iff.intro
      · intro hmarkers _ _ marker hreached
        exact onlyValueError_checkMarker_iff.mp (hmarkers marker hreached)
      · intro hmarkers marker hreached
        exact onlyValueError_checkMarker_iff.mpr (hmarkers rfl hrefs marker hreached)

theorem onlyValueError_outputNodes {tree : List Statement} : OnlyValueError (outputNodes tree) := by
  induction tree with
  | nil => exact onlyValueError_ok _
  | cons first rest ih =>
    cases first with
    | output nodes =>
      rw [outputNodes]
      exact onlyValueError_map_iff.mpr ih
    | other => exact onlyValueError_valueError _

theorem onlyValueError_prepareSql_iff : OnlyValueError (prepareSql libraries.engine bindings sql) ↔
    ∀ nodes, sqlNodes libraries sql = some nodes →
      OnlyValueError (joinParts libraries.engine bindings [] nodes) ∧
        ∀ text refs, joinParts libraries.engine bindings [] nodes = .ok (text, refs) →
          OnlyValueError (finishSql libraries.engine refs text) := by
  unfold prepareSql sqlNodes
  split_ifs with hlarge
  · exact iff_of_true (onlyValueError_valueError _) fun nodes hnodes => by cases hnodes
  · cases libraries.engine.parse sql with
    | none => exact iff_of_true (onlyValueError_valueError _) fun nodes hnodes => by cases hnodes
    | some tree =>
      have htree : OnlyValueError (outputNodes tree) := onlyValueError_outputNodes
      rw [Option.bind_some]
      dsimp only
      cases hnodes : outputNodes tree with
      | error raised =>
        rw [hnodes] at htree
        apply iff_of_true
        · intro other hother
          exact htree other (by rw [← Except.error.inj hother])
        · intro nodes hsome
          cases hsome
      | ok nodes =>
        refine Iff.trans (b := OnlyValueError (joinParts libraries.engine bindings [] nodes >>=
          fun found => finishSql libraries.engine found.2 found.1)) ?_ ?_
        · dsimp only
          cases joinParts libraries.engine bindings [] nodes with
          | error raised => exact Iff.rfl
          | ok found => exact Iff.rfl
        rw [onlyValueError_bind_iff]
        apply Iff.intro
        · intro hsteps other hother
          rw [← Option.some_inj.mp hother]
          exact ⟨hsteps.1, fun text refs hjoined => hsteps.2 (text, refs) hjoined⟩
        · intro hsteps
          obtain ⟨hjoin, hfinish⟩ := hsteps nodes rfl
          exact ⟨hjoin, fun found hjoined => hfinish found.1 found.2 hjoined⟩

theorem preparedText_of_joinParts {nodes : List BoardSql.Node} {text : String}
    (hnodes : sqlNodes libraries sql = some nodes)
    (hjoined : joinParts libraries.engine bindings [] nodes = .ok (text, refs)) :
    preparedText libraries bindings sql = some text := by
  unfold preparedText
  rw [hnodes, Option.bind_some, hjoined]
  rfl

theorem onlyValueError_prepare_iff :
    OnlyValueError (prepare libraries bindings sql) ↔ SqlForeseen libraries bindings sql := by
  unfold prepare
  split
  next raised hcrash =>
    obtain ⟨text, htext, hraised⟩ := Option.bind_eq_some_iff.mp hcrash
    have hjoined (nodes : List BoardSql.Node) (hnodes : sqlNodes libraries sql = some nodes) :
        ∃ refs, joinParts libraries.engine bindings [] nodes = .ok (text, refs) := by
      unfold preparedText at htext
      rw [hnodes, Option.bind_some] at htext
      cases hparts : joinParts libraries.engine bindings [] nodes with
      | error other =>
        rw [hparts] at htext
        cases htext
      | ok found =>
        rw [hparts] at htext
        exact ⟨found.2, congrArg Except.ok (Prod.ext (Option.some_inj.mp htext) rfl)⟩
    apply Iff.intro
    · intro honly
      refine ⟨?_, ?_, ?_⟩
      · intro text' raised' htext' hraised'
        rw [htext] at htext'
        rw [← Option.some_inj.mp htext', hraised] at hraised'
        exact honly raised' (congrArg _ (Option.some_inj.mp hraised'))
      · intro nodes hnodes
        obtain ⟨refs, hok⟩ := hjoined nodes hnodes
        apply onlyValueError_joinParts_iff.mp
        rw [hok]
        exact onlyValueError_ok _
      · intro nodes text' refs hnodes hok hnone
        have hsame := preparedText_of_joinParts hnodes hok
        rw [htext] at hsame
        rw [← Option.some_inj.mp hsame, hraised] at hnone
        cases hnone
    · intro hforeseen other hother
      rw [← Except.error.inj hother]
      exact hforeseen.parsed text raised htext hraised
  next hcrash =>
    have hnone (nodes : List BoardSql.Node) (text : String) (refs : List String)
        (hnodes : sqlNodes libraries sql = some nodes)
        (hok : joinParts libraries.engine bindings [] nodes = .ok (text, refs)) :
        libraries.crash text = none := by
      rw [preparedText_of_joinParts hnodes hok] at hcrash
      exact hcrash
    rw [onlyValueError_prepareSql_iff]
    apply Iff.intro
    · intro hsteps
      refine ⟨?_, ?_, ?_⟩
      · intro text raised htext hraised
        rw [htext, Option.bind_some, hraised] at hcrash
        cases hcrash
      · intro nodes hnodes
        exact onlyValueError_joinParts_iff.mp (hsteps nodes hnodes).1
      · intro nodes text refs hnodes hok _
        exact onlyValueError_finishSql_iff.mp ((hsteps nodes hnodes).2 text refs hok)
    · intro hforeseen nodes hnodes
      refine ⟨onlyValueError_joinParts_iff.mpr (hforeseen.filled nodes hnodes), ?_⟩
      intro text refs hok
      exact onlyValueError_finishSql_iff.mpr
        (hforeseen.marked nodes text refs hnodes hok (hnone nodes text refs hnodes hok))

theorem onlyValueError_checkQuery_iff {name : String} {query : Value} :
    OnlyValueError (checkQuery libraries bindings name query) ↔
      QueryForeseen libraries bindings query := by
  have hnamed (checked : Except Raised Unit) :
      OnlyValueError (checked.mapError (namedError name)) ↔ OnlyValueError checked := by
    cases checked with
    | ok _ => exact Iff.rfl
    | error raised =>
      cases raised with
      | valueError message =>
        exact iff_of_true (onlyValueError_valueError _) (onlyValueError_valueError _)
      | _ => exact Iff.rfl
  rw [checkQuery_eq]
  apply (hnamed _).trans
  cases query with
  | str sql => exact onlyValueError_map_iff.trans onlyValueError_prepare_iff
  | none => exact onlyValueError_inline_iff
  | bool => exact onlyValueError_inline_iff
  | int => exact onlyValueError_inline_iff
  | float => exact onlyValueError_inline_iff
  | nonFinite => exact onlyValueError_inline_iff
  | list => exact onlyValueError_inline_iff
  | dict => exact onlyValueError_inline_iff
  | object => exact onlyValueError_inline_iff

end

/-! ## The whole board -/

theorem onlyValueError_checkBoard_iff : OnlyValueError (checkBoard libraries board) ↔
    ∀ queries, boardQueries board = .ok queries → checkCharts board = .ok () →
      BoardForeseen libraries board queries := by
  unfold checkBoard
  rw [onlyValueError_bind_iff, and_iff_right onlyValueError_boardQueries]
  apply forall_congr'
  intro queries
  apply imp_congr_right
  intro _
  rw [onlyValueError_bind_iff, and_iff_right onlyValueError_checkCharts]
  have hrest : OnlyValueError (do
        safeTree 0 (.dict (display board))
        checkQueries queries (.dict (display board))
        let declared ← boardVariables board
        safeTree 0 (.dict declared)
        declared.forM fun item => checkVariable (keyName item.1) item.2
        queries.forM fun item => checkQuery libraries (defaults declared) (keyName item.1) item.2) ↔
      BoardForeseen libraries board queries := by
    rw [onlyValueError_bind_iff, onlyValueError_safeTree_iff]
    apply Iff.intro
    · intro hsteps
      refine ⟨hsteps.1, ?_⟩
      intro hsafe hnamed declared hdeclared
      have hqueries := (onlyValueError_bind_iff.mp (hsteps.2 () hsafe)).2 () hnamed
      have hvariables := (onlyValueError_bind_iff.mp hqueries).2 declared hdeclared
      obtain ⟨hwalk, hlater⟩ := onlyValueError_bind_iff.mp hvariables
      refine ⟨onlyValueError_safeTree_iff.mp hwalk, ?_⟩
      intro hwalked
      obtain ⟨hspecs, hlast⟩ := onlyValueError_bind_iff.mp (hlater () hwalked)
      refine ⟨onlyValueError_variables_iff.mp hspecs, ?_⟩
      intro hchecked item hreached
      exact onlyValueError_checkQuery_iff.mp
        (onlyValueError_forM_iff.mp (hlast () hchecked) item hreached)
    · intro hforeseen
      refine ⟨hforeseen.themes, ?_⟩
      intro _ hsafe
      refine onlyValueError_bind_iff.mpr ⟨onlyValueError_checkQueries queries _, ?_⟩
      intro _ hnamed
      refine onlyValueError_bind_iff.mpr ⟨onlyValueError_boardVariables, ?_⟩
      intro declared hdeclared
      obtain ⟨hthemes, hlater⟩ := hforeseen.variables' hsafe hnamed declared hdeclared
      refine onlyValueError_bind_iff.mpr ⟨onlyValueError_safeTree_iff.mpr hthemes, ?_⟩
      intro _ hwalked
      obtain ⟨hinputs, hlast⟩ := hlater hwalked
      refine onlyValueError_bind_iff.mpr ⟨onlyValueError_variables_iff.mpr hinputs, ?_⟩
      intro _ hchecked
      apply onlyValueError_forM_iff.mpr
      intro item hreached
      exact onlyValueError_checkQuery_iff.mpr (hlast hchecked item hreached)
  apply Iff.intro
  · intro hsteps hcharts
    exact hrest.mp (hsteps () hcharts)
  · intro hforeseen _ hcharts
    exact hrest.mpr (hforeseen hcharts)

/-! ## The loader -/

/-- The loader raises only what is foreseen. -/
def OnlyForeseen {α : Type} (result : Except LoadError α) : Prop :=
  ∀ error, result = .error error → Foreseen error

theorem onlyForeseen_ok {α : Type} (value : α) : OnlyForeseen (.ok value) := by
  intro error herror
  cases herror

theorem onlyForeseen_error_iff {α : Type} {error : LoadError} :
    OnlyForeseen (.error error : Except LoadError α) ↔ Foreseen error := by
  apply Iff.intro
  · exact fun honly => honly error rfl
  · intro hforeseen other hother
    rw [← Except.error.inj hother]
    exact hforeseen

theorem foreseen_iff {error : LoadError} :
    Foreseen error ↔ ∃ message, loadError error = .valueError message := by
  cases error with
  | yaml line problem => exact iff_of_true trivial ⟨_, rfl⟩
  | other raised =>
    cases raised with
    | recursionError => exact iff_of_true (Or.inl rfl) ⟨_, rfl⟩
    | _ =>
      apply Iff.intro
      · intro hforeseen
        rcases hforeseen with hrecursion | hvalue
        · cases hrecursion
        · exact hvalue
      · exact Or.inr

/-- What a result raises. -/
def errorOf {ε α : Type} : Except ε α → Option ε
  | .error error => some error
  | .ok _ => none

mutual

/-- A document is composed up to the first place where it can end. -/
theorem head?_stops : ∀ event : Event, (stops event).head? = errorOf (composeNode event)
  | .alias | .failure _ | .scalar .. => by
      rw [stops, composeNode]
      rfl
  | .sequence line tag items => by
      rw [stops, composeNode, head?_stopsItems items]
      cases composeItems items <;> rfl
  | .mapping line tag pairs => by
      rw [stops, composeNode, head?_stopsPairs pairs]
      cases composePairs pairs <;> rfl

theorem head?_stopsItems : ∀ items : List Event,
    (stopsItems items).head? = errorOf (composeItems items)
  | [] => rfl
  | item :: rest => by
      rw [stopsItems, composeItems, List.head?_append, head?_stops item, head?_stopsItems rest]
      cases composeNode item with
      | error error => rfl
      | ok node => cases composeItems rest <;> rfl

theorem head?_stopsPairs : ∀ pairs : List (Event × Event),
    (stopsPairs pairs).head? = errorOf (composePairs pairs)
  | [] => rfl
  | (key, value) :: rest => by
      rw [stopsPairs, composePairs, List.head?_append, List.head?_append, head?_stops key,
        head?_stops value, head?_stopsPairs rest]
      cases composeNode key with
      | error error => rfl
      | ok node =>
        cases composeNode value with
        | error error => rfl
        | ok node => cases composePairs rest <;> rfl

end

theorem head?_streamStops (stream : Stream) :
    (streamStops stream).head? = errorOf (composeStream stream) := by
  obtain ⟨root, ending⟩ := stream
  unfold streamStops composeStream
  cases root with
  | none => cases ending <;> rfl
  | some root =>
    show (stops root ++ ending.toList).head? = _
    rw [List.head?_append, head?_stops]
    dsimp only
    cases composeNode root with
    | error error => cases ending <;> rfl
    | ok node => cases ending <;> rfl

mutual

theorem onlyForeseen_constructScalar : ∀ node : Python.Yaml.Node, OnlyForeseen (constructScalar node)
  | .scalar .. => by
      rw [constructScalar]
      exact onlyForeseen_ok _
  | .sequence .. => by
      rw [constructScalar]
      exact onlyForeseen_error_iff.mpr trivial
  | .mapping line tag pairs => by
      rw [constructScalar]
      exact onlyForeseen_constructScalarIn line pairs

theorem onlyForeseen_constructScalarIn (line : ℕ) : ∀ pairs : List (Python.Yaml.Node × Python.Yaml.Node),
    OnlyForeseen (constructScalarIn line pairs)
  | [] => by
      rw [constructScalarIn]
      exact onlyForeseen_error_iff.mpr trivial
  | (key, value) :: rest => by
      rw [constructScalarIn]
      split_ifs
      · exact onlyForeseen_constructScalar value
      · exact onlyForeseen_constructScalarIn line rest

end

theorem onlyForeseen_map_iff {α β : Type} {result : Except LoadError α} {f : α → β} :
    OnlyForeseen (result.map f) ↔ OnlyForeseen result := by
  cases result with
  | error error => exact onlyForeseen_error_iff.trans onlyForeseen_error_iff.symm
  | ok value => exact iff_of_true (onlyForeseen_ok _) (onlyForeseen_ok _)

theorem onlyForeseen_iff_not_exists {α : Type} {result : Except LoadError α} :
    OnlyForeseen result ↔ ¬ ∃ error, result = .error error ∧ ¬ Foreseen error := by
  apply Iff.intro
  · intro honly hfound
    obtain ⟨error, herror, hnot⟩ := hfound
    exact hnot (honly error herror)
  · intro hnone error herror
    by_contra hnot
    exact hnone ⟨error, herror, hnot⟩

theorem onlyForeseen_constructAtom_iff {node : Python.Yaml.Node} {text : String} {tag : AtomTag} :
    OnlyForeseen (constructAtom reader node text tag) ↔ ¬ MisreadAs reader node text tag := by
  cases tag with
  | null => exact iff_of_true (onlyForeseen_ok _) fun hmisread => hmisread
  | str => exact iff_of_true (onlyForeseen_ok _) fun hmisread => hmisread
  | int => exact onlyForeseen_iff_not_exists
  | float => exact onlyForeseen_iff_not_exists
  | binary => exact onlyForeseen_iff_not_exists
  | bool =>
    unfold constructAtom constructBool MisreadAs
    dsimp only
    split_ifs with htrue hfalse
    · apply iff_of_true (onlyForeseen_ok _)
      intro hmisread
      exact hmisread (List.mem_append_left ["no", "false", "off"] htrue)
    · apply iff_of_true (onlyForeseen_ok _)
      intro hmisread
      exact hmisread (List.mem_append_right ["yes", "true", "on"] hfalse)
    · apply iff_of_false
      · intro honly
        rcases honly _ rfl with hrecursion | ⟨message, hmessage⟩
        · cases hrecursion
        · cases hmessage
      · intro hnot
        apply hnot
        intro hword
        exact (List.mem_append.mp (show _ ∈ ["yes", "true", "on"] ++ ["no", "false", "off"] from
          hword)).elim htrue hfalse
  | timestamp =>
    have hmapping (hnode : node.id ≠ "scalar")
        (hatom : constructAtom reader node text .timestamp = .error (.other .typeError)) :
        OnlyForeseen (constructAtom reader node text .timestamp) ↔
          ¬ MisreadAs reader node text .timestamp := by
      apply iff_of_false
      · intro honly
        rcases honly _ hatom with hrecursion | ⟨message, hmessage⟩
        · cases hrecursion
        · cases hmessage
      · exact fun hnot => hnot (Or.inl hnode)
    cases node with
    | scalar line tag value =>
      apply onlyForeseen_iff_not_exists.trans
      apply not_congr
      exact (or_iff_right fun hnot => hnot rfl).symm
    | sequence line tag items =>
      have hid : "sequence" ≠ "scalar" := by decide
      exact hmapping hid rfl
    | mapping line tag pairs =>
      have hid : "mapping" ≠ "scalar" := by decide
      exact hmapping hid rfl

/-- What is constructed at once raises what is foreseen unless a text is misread. -/
theorem onlyForeseen_constructObject_iff {node : Python.Yaml.Node} :
    OnlyForeseen (constructObject reader node) ↔ ¬ Misread reader node := by
  have hother (hnone : ∀ tag text, node.tag = .atom tag → constructScalar node ≠ .ok text)
      (honly : OnlyForeseen (constructObject reader node)) :
      OnlyForeseen (constructObject reader node) ↔ ¬ Misread reader node := by
    apply iff_of_true honly
    intro hmisread
    obtain ⟨tag, text, htag, htext, -⟩ := hmisread
    exact hnone tag text htag htext
  cases htag : node.tag with
  | collection tag =>
    apply hother
    · intro atom text hatom
      rw [htag] at hatom
      cases hatom
    · rw [constructObject_eq_none.mpr (by rw [htag]; rfl)]
      exact onlyForeseen_ok _
  | other name =>
    apply hother
    · intro atom text hatom
      rw [htag] at hatom
      cases hatom
    · unfold constructObject
      rw [htag]
      exact onlyForeseen_error_iff.mpr trivial
  | atom tag =>
    cases htext : constructScalar node with
    | error error =>
      apply hother
      · intro atom text _ hsame
        rw [htext] at hsame
        cases hsame
      · unfold constructObject
        rw [htag]
        simp only [htext]
        exact onlyForeseen_error_iff.mpr (onlyForeseen_constructScalar node error htext)
    | ok text =>
      have hobject : constructObject reader node =
          (constructAtom reader node text tag).map some := by
        unfold constructObject
        rw [htag]
        simp only [htext]
      rw [hobject, onlyForeseen_map_iff, onlyForeseen_constructAtom_iff]
      apply not_congr
      apply Iff.intro
      · exact fun hmisread => ⟨tag, text, htag, htext, hmisread⟩
      · intro hmisread
        obtain ⟨tag', text', htag', htext', hmisread⟩ := hmisread
        rw [htag] at htag'
        rw [htext] at htext'
        rw [Tag.atom.inj htag', Except.ok.inj htext']
        exact hmisread

/-- The errors that are in the steps of the loader. -/
theorem refuse_mem_steps {node : Python.Yaml.Node} {error : LoadError} (hstep : .refuse error ∈ steps node) :
    Foreseen error ∨ error = .other .typeError := by
  have hpairs (earlier : List Python.Yaml.Node) (pairs : List (Python.Yaml.Node × Python.Yaml.Node)) :
      .refuse error ∉ pairSteps earlier pairs := by
    induction pairs generalizing earlier with
    | nil => exact List.not_mem_nil
    | cons first rest ih =>
      obtain ⟨key, value⟩ := first
      rw [pairSteps]
      intro hmem
      rcases List.mem_cons.mp hmem with hkey | hmem
      · cases hkey
      · rcases List.mem_cons.mp hmem with hvalue | hmem
        · cases hvalue
        · exact ih _ hmem
  have hmapping (hmem : .refuse error ∈ mappingSteps node) :
      Foreseen error ∨ error = .other .typeError := by
    unfold mappingSteps at hmem
    split at hmem
    · exact absurd hmem (hpairs _ _)
    · split_ifs at hmem
      · cases hmem
      · exact Or.inr (Step.refuse.inj (List.mem_singleton.mp hmem))
    · split_ifs at hmem
      · cases hmem
      · rw [Step.refuse.inj (List.mem_singleton.mp hmem)]
        exact Or.inl (Or.inr ⟨_, rfl⟩)
  have hyaml {line : ℕ} {problem : String} (hmem : .refuse error ∈ [Step.refuse (.yaml line problem)]) :
      Foreseen error ∨ error = .other .typeError := by
    rw [Step.refuse.inj (List.mem_singleton.mp hmem)]
    exact Or.inl trivial
  have hentries {items : List Python.Yaml.Node} (hmem : .refuse error ∈ items.flatMap entrySteps) :
      Foreseen error ∨ error = .other .typeError := by
    obtain ⟨item, -, hitem⟩ := List.mem_flatMap.mp hmem
    unfold entrySteps at hitem
    split at hitem
    · rcases List.mem_cons.mp hitem with hkey | hvalue
      · cases hkey
      · cases List.mem_singleton.mp hvalue
    · exact hyaml hitem
    · exact hyaml hitem
  unfold steps at hstep
  split at hstep
  · exact hmapping hstep
  · exact hmapping hstep
  · obtain ⟨item, -, hitem⟩ := List.mem_map.mp hstep
    cases hitem
  · exact hyaml hstep
  · exact hentries hstep
  · exact hentries hstep
  · exact hyaml hstep
  · exact hyaml hstep
  · cases hstep
  · cases hstep

theorem onlyForeseen_take_iff {node : Python.Yaml.Node} {step : Step} (hstep : step ∈ steps node) :
    OnlyForeseen (step.take reader) ↔ ¬ Astray reader step := by
  cases step with
  | construct child => exact onlyForeseen_map_iff.trans onlyForeseen_constructObject_iff
  | refuse error =>
    apply onlyForeseen_error_iff.trans
    rcases refuse_mem_steps hstep with hforeseen | htype
    · apply iff_of_true hforeseen
      intro htype
      rw [show error = .other .typeError from htype] at hforeseen
      rcases hforeseen with hrecursion | ⟨message, hmessage⟩
      · cases hrecursion
      · cases hmessage
    · apply iff_of_false
      · intro hforeseen
        rw [htype] at hforeseen
        rcases hforeseen with hrecursion | ⟨message, hmessage⟩
        · cases hrecursion
        · cases hmessage
      · exact fun hnot => hnot htype
  | key key earlier =>
    have hdouble : Foreseen (.other (.valueError ("Line " ++ toString key.line ++
        ": duplicate or non-string YAML key"))) := Or.inr ⟨_, rfl⟩
    show _ ↔ ¬ Misread reader key
    rw [← onlyForeseen_constructObject_iff]
    unfold Step.take
    dsimp only
    split
    next error herror =>
      rw [herror]
      exact onlyForeseen_error_iff.trans onlyForeseen_error_iff.symm
    next text htext =>
      rw [htext]
      apply iff_of_true _ (onlyForeseen_ok _)
      split_ifs
      · exact onlyForeseen_error_iff.mpr hdouble
      · exact onlyForeseen_ok _
    next made hmade =>
      rw [hmade]
      exact iff_of_true (onlyForeseen_error_iff.mpr hdouble) (onlyForeseen_ok _)

theorem onlyForeseen_forM_iff {α : Type} {items : List α} {check : α → Except LoadError Unit} :
    OnlyForeseen (items.forM check) ↔
      ∀ item, Reached check items item → OnlyForeseen (check item) := by
  apply Iff.intro
  · intro honly item hreached error herror
    exact honly error (forM_eq_error.mpr ⟨item, hreached, herror⟩)
  · intro hitems error herror
    obtain ⟨item, hreached, hitem⟩ := forM_eq_error.mp herror
    exact hitems item hreached error hitem

/-- The steps of a document. -/
theorem onlyForeseen_steps_iff {root : Python.Yaml.Node} :
    OnlyForeseen (((order [root]).flatMap steps).forM (Step.take reader)) ↔
      ∀ step, Reached (Step.take reader) ((order [root]).flatMap steps) step →
        ¬ Astray reader step := by
  rw [onlyForeseen_forM_iff]
  apply forall_congr'
  intro step
  apply imp_congr_right
  intro hreached
  obtain ⟨before, after, hsplit, -⟩ := hreached
  have hmem : step ∈ (order [root]).flatMap steps := by
    rw [hsplit]
    exact List.mem_append_right _ List.mem_cons_self
  obtain ⟨node, -, hnode⟩ := List.mem_flatMap.mp hmem
  exact onlyForeseen_take_iff hnode

theorem steps_of_not_collection {root : Python.Yaml.Node} (hroot : root.tag.isCollection = false) :
    (order [root]).flatMap steps = [] := by
  have hsteps : steps root = [] := by
    unfold steps
    cases htag : root.tag with
    | collection tag =>
      rw [htag] at hroot
      cases hroot
    | atom tag => rfl
    | other name => rfl
  rw [order, hsteps, List.filterMap_nil, List.append_nil, order, List.flatMap_cons, hsteps]
  rfl

theorem onlyForeseen_constructDocument_iff {root : Python.Yaml.Node} :
    OnlyForeseen (constructDocument reader root) ↔ ¬ Misread reader root ∧
      ∀ step, Reached (Step.take reader) ((order [root]).flatMap steps) step →
        ¬ Astray reader step := by
  rw [← onlyForeseen_constructObject_iff, ← onlyForeseen_steps_iff]
  have hnone (made : constructObject reader root ≠ .ok none) :
      (order [root]).flatMap steps = [] := by
    apply steps_of_not_collection
    exact (Bool.not_eq_true _).mp fun hcollection => made (constructObject_eq_none.mpr hcollection)
  unfold constructDocument
  cases hmade : constructObject reader root with
  | error error =>
    rw [hnone (fun hsame => by rw [hmade] at hsame; cases hsame)]
    apply Iff.intro
    · exact fun honly => ⟨onlyForeseen_error_iff.mpr (onlyForeseen_error_iff.mp honly),
        onlyForeseen_ok _⟩
    · exact fun honly => onlyForeseen_error_iff.mpr (onlyForeseen_error_iff.mp honly.1)
  | ok made =>
    cases made with
    | none =>
      rw [and_iff_right (onlyForeseen_ok _)]
      exact onlyForeseen_map_iff
    | some value =>
      rw [hnone (fun hsame => by rw [hmade] at hsame; cases hsame)]
      exact iff_of_true (onlyForeseen_ok _) ⟨onlyForeseen_ok _, onlyForeseen_ok _⟩

theorem onlyForeseen_load_iff : OnlyForeseen (load reader content) ↔ LoadsForeseen reader content := by
  have hhead := head?_streamStops (reader.parse content)
  unfold load
  cases hroot : composeStream (reader.parse content) with
  | error error =>
    rw [hroot] at hhead
    apply onlyForeseen_error_iff.trans
    apply Iff.intro
    · intro hforeseen
      refine ⟨?_, ?_⟩
      · intro other hother
        rw [hhead] at hother
        rw [← Option.some_inj.mp hother]
        exact hforeseen
      · intro root hother
        rw [hroot] at hother
        cases hother
    · exact fun hloads => hloads.composed error hhead
  | ok found =>
    rw [hroot] at hhead
    have hcomposed : ∀ error, (streamStops (reader.parse content)).head? = some error →
        Foreseen error := by
      intro error herror
      rw [hhead] at herror
      cases herror
    cases found with
    | none =>
      apply iff_of_true (onlyForeseen_ok _)
      refine ⟨hcomposed, ?_⟩
      intro root hother
      rw [hroot] at hother
      cases hother
    | some root =>
      apply onlyForeseen_constructDocument_iff.trans
      apply Iff.intro
      · intro hsteps
        refine ⟨hcomposed, ?_⟩
        intro other hother
        rw [hroot] at hother
        rw [← Option.some_inj.mp (Except.ok.inj hother)]
        exact hsteps
      · exact fun hloads => hloads.constructed root hroot

/-- A board is read or refused with a `ValueError` exactly when everything that the code comes to
in its document is foreseen. -/
theorem onlyValueError_iff_allForeseen (libraries : Libraries) (content : String) :
    OnlyValueError (parseBoard libraries content) ↔ AllForeseen libraries content := by
  unfold parseBoard AllForeseen
  split_ifs with hsize
  · exact iff_of_true (onlyValueError_valueError _) fun hsmall => absurd hsize (Nat.not_lt.mpr hsmall)
  · rw [← onlyForeseen_load_iff]
    have hsmall : content.utf8ByteSize ≤ maxBytes := Nat.not_lt.mp hsize
    cases hload : load libraries.reader content with
    | error error =>
      apply Iff.intro
      · intro honly _
        refine ⟨onlyForeseen_error_iff.mpr (foreseen_iff.mpr (honly _ rfl)), ?_⟩
        intro board queries hother
        cases hother
      · intro hforeseen raised hraised
        rw [← Except.error.inj hraised]
        exact foreseen_iff.mp (onlyForeseen_error_iff.mp (hforeseen hsmall).1)
    | ok value =>
      have hdict (hvalue : ∀ board, value ≠ .dict board) :
          content.utf8ByteSize ≤ maxBytes → OnlyForeseen (.ok value) ∧ ∀ board queries,
            (.ok value : Except LoadError Value) = .ok (.dict board) →
              boardQueries board = .ok queries → checkCharts board = .ok () →
                BoardForeseen libraries board queries :=
        fun _ => ⟨onlyForeseen_ok _, fun board _ hother =>
          absurd (Except.ok.inj hother) (hvalue board)⟩
      cases value with
      | dict board =>
        apply onlyValueError_map_iff.trans
        rw [onlyValueError_checkBoard_iff]
        apply Iff.intro
        · intro hchecked _
          refine ⟨onlyForeseen_ok _, ?_⟩
          intro other queries hother
          rw [← Value.dict.inj (Except.ok.inj hother)]
          exact hchecked queries
        · intro hforeseen queries
          exact (hforeseen hsmall).2 board queries rfl
      | _ => exact iff_of_true (onlyValueError_valueError _) (hdict fun board hsame => by cases hsame)

/-- A board with one chart over one inline query, and a theme. -/
def themedBoard (theme : Event) : Event :=
  .mapping 1 (.collection .map) [(.scalar 1 (.atom .str) "theme", theme),
    (.scalar 1 (.atom .str) "queries", .mapping 1 (.collection .map)
      [(.scalar 1 (.atom .str) "orders", .mapping 1 (.collection .map)
        [(.scalar 1 (.atom .str) "columns", .sequence 1 (.collection .seq) [.scalar 1 (.atom .str) "region"]),
          (.scalar 1 (.atom .str) "values", .sequence 1 (.collection .seq) [])])]),
    (.scalar 1 (.atom .str) "charts", .mapping 1 (.collection .map)
      [(.scalar 1 (.atom .str) "regions", .mapping 1 (.collection .map)
        [(.scalar 1 (.atom .str) "query", .scalar 1 (.atom .str) "orders")])])]

/-- Its text. -/
def themedText (theme : String) : String :=
  "\x7btheme: " ++ theme ++ ", queries: \x7borders: \x7bcolumns: [region], values: []\x7d\x7d, " ++
    "charts: \x7bregions: \x7bquery: orders\x7d\x7d\x7d"

/-- Libraries that read one text, as this document. -/
def readsOnly (content : String) (root : Event) : Libraries where
  reader :=
    { parse := fun text => ⟨if text = content then some root else none, none⟩
      read := fun _ _ => .error (.yaml 1 "invalid")
      scalar_of_read := @isScalar_of_unread }
  engine := ⟨fun _ => none, fun _ => .ok (), fun _ => false, fun _ => none, rfl, quote_unread⟩
  crash _ := none

/-- A theme that is an empty list. -/
theorem not_onlyValueError_of_theme :
    ¬ ∀ (libraries : Libraries) (content : String),
      OnlyValueError (parseBoard libraries content) := by
  intro hclaim
  let libraries := readsOnly (themedText "[]") (themedBoard (.sequence 1 (.collection .seq) []))
  have hraised : errorOf (parseBoard libraries (themedText "[]")) = some .typeError := by
    decide +kernel
  cases hresult : parseBoard libraries (themedText "[]") with
  | ok board =>
    rw [hresult] at hraised
    cases hraised
  | error raised =>
    rw [hresult] at hraised
    obtain ⟨message, hmessage⟩ := hclaim libraries (themedText "[]") raised hresult
    rw [hmessage] at hraised
    cases hraised

end DbtCraft.Services.Boards
