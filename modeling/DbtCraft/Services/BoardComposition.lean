/-
# Composing boards

`compose_board` of `app/services/boards.py`. A chart and its query are added to a board under
free names and the chart is placed in a row of its own, which is looked for under `rows` only;
the board is dumped, and the text is read once more.
-/

import DbtCraft.Python.FirstFree
import DbtCraft.Services.BoardDump
import DbtCraft.Services.BoardErrors

namespace DbtCraft.Services.Boards

open DbtCraft.Python.Yaml
open DbtCraft.Python (Value jsonString isSpace firstFree not_taken_firstFree)

/-! ## What is added -/

/-- The board that an empty content stands for. -/
def newBoard : Items :=
  [(.str "title", .str "New dashboard"), (.str "queries", .dict []), (.str "charts", .dict []),
    (.str "rows", .list [])]

def chartName (index : ℕ) : String := "chart_" ++ toString index

def queryName (index : ℕ) : String := "query_" ++ toString index

/-- A chart or a query has the name of this index. -/
def isTaken (charts queries : Items) (index : ℕ) : Bool :=
  (get charts (chartName index)).isSome || (get queries (queryName index)).isSome

/-- The `index` of the new chart and its query. -/
def freeIndex (charts queries : Items) : ℕ :=
  firstFree (isTaken charts queries) (charts.length + queries.length) 1

/-- The columns under their aliases, as `enumerate` counts them. -/
def aliases : ℕ → List String → List String
  | _, [] => []
  | index, column :: rest =>
    ("\x7b\x7b adapter.quote(" ++ jsonString column ++ ") \x7d\x7d as field_" ++ toString index) ::
      aliases (index + 1) rest

/-- `sql.strip().rstrip(";")`. -/
def innerSql (sql : String) : String :=
  String.ofList ((((sql.toList.dropWhile isSpace).reverse.dropWhile isSpace).dropWhile
    fun c => c = ';').reverse)

/-- The query of the new chart. -/
def wrappedSql (sql : String) (columns : List String) : String :=
  "select " ++ String.intercalate ", " (aliases 0 columns) ++ "\nfrom (\n" ++ innerSql sql ++
    "\n) as chart_data"

/-- `items[name] = value`. -/
def setItem : Items → String → Value → Items
  | [], name, value => [(.str name, value)]
  | (key, other) :: rest, name, value =>
    if key.sameKey (.str name) then (key, value) :: rest else (key, other) :: setItem rest name value

/-- The section of a board that is a dict. -/
def sectionOf (board : Items) (name : String) : Items := (section? board name).getD []

/-- The board with the query and the chart, and the index of their names. -/
def withChart (board chart : Items) (sql : String) (columns : List String) : Items × ℕ :=
  let queries := sectionOf board "queries"
  let charts := sectionOf board "charts"
  let index := freeIndex charts queries
  let withQuery := setItem board "queries"
    (.dict (setItem queries (queryName index) (.str (wrappedSql sql columns))))
  (setItem withQuery "charts" (.dict (setItem charts (chartName index)
    (.dict (setItem chart "query" (.str (queryName index)))))), index)

/-! ## Where it is placed -/

/-- The layouts that are moved into the first row. -/
def movedKeys : List String := ["cols", "grid", "tabs"]

/-- The layouts of a board without `rows`. -/
def layouts (board : Items) : Items :=
  movedKeys.filterMap fun key => (get board key).map fun value => (.str key, value)

/-- The board with the chart in a row of its own. -/
def placeChart (board : Items) (name : String) : Except Raised Items :=
  match get board "rows" with
  | some (.list rows) => .ok (setItem board "rows" (.list (rows ++ [Value.str name])))
  | some _ => .error .attributeError
  | none =>
    let found := layouts board
    let rows : List Value := if found.isEmpty then [] else [.dict found]
    let rest := board.filter fun item => !keyIn movedKeys item.1
    .ok (setItem rest "rows" (.list (rows ++ [Value.str name])))

/-- The board that is dumped, and the index of the new names. -/
def extended (board chart : Items) (sql : String) (columns : List String) :
    Except Raised (Items × ℕ) :=
  let (larger, index) := withChart board chart sql columns
  (placeChart larger (chartName index)).map fun placed => (placed, index)

/-! ## `compose_board` -/

variable (libraries : Libraries) (dumper : Dumper libraries.reader)

/-- The board that the content stands for. -/
def existing (content : String) : Except Raised Items :=
  if content.toList.all isSpace then .ok newBoard else parseBoard libraries content

/-- The chart of the snippet, and the columns. -/
def chosen (incoming : Items) (columns : Value) : Except Raised (Items × List String) :=
  match get incoming "charts", columns with
  | some (.dict [(_, .dict chart)]), .list cells =>
    match columnNames cells with
    | some names => if 1 ≤ names.length ∧ names.length ≤ 80 then .ok (chart, names) else .error refused
    | none => .error refused
  | _, _ => .error refused
where
  refused : Raised := .valueError "Choose one chart with 1–80 columns"

/-- `compose_board`. -/
def composeBoard (content chartYaml sql : String) (columns : Value) : Except Raised String := do
  let incoming ← parseBoard libraries chartYaml
  let (chart, names) ← chosen incoming columns
  let _ ← prepare libraries [] sql
  let board ← existing libraries content
  let (larger, _) ← extended board chart sql names
  let text ← dumper.dump (.dict larger)
  let _ ← parseBoard libraries text
  return text

/-! ## The property -/

mutual

/-- The names that stand in lists. -/
def placedIn : Value → List String
  | .list values => placedValues values
  | .dict items => placedItems items
  | _ => []

def placedValues : List Value → List String
  | [] => []
  | .str name :: rest => name :: placedValues rest
  | value :: rest => placedIn value ++ placedValues rest

def placedItems : Items → List String
  | [] => []
  | (_, value) :: rest => placedIn value ++ placedItems rest

end

/-- The names that the layouts of a board place. -/
def placed (board : Items) : List String :=
  placedItems (["rows", "cols", "grid", "tabs"].filterMap fun key =>
    (get board key).map fun value => (.str key, value))

/-- Every query, chart and variable is kept, one query and one chart are added, and the chart
is placed once beside everything that was placed. -/
structure Extends (old parsed : Items) : Prop where
  kept : ∀ name ∈ ["queries", "charts", "variables"], ∀ item value,
    get (sectionOf old name) item = some value → get (sectionOf parsed name) item = some value
  added : ∃ query chart : String,
    (get (sectionOf old "queries") query = none ∧
      (sectionOf parsed "queries").length = (sectionOf old "queries").length + 1 ∧
      (get (sectionOf parsed "queries") query).isSome = true) ∧
    (get (sectionOf old "charts") chart = none ∧
      (sectionOf parsed "charts").length = (sectionOf old "charts").length + 1 ∧
      ∃ items, get (sectionOf parsed "charts") chart = some (.dict items) ∧
        get items "query" = some (.str query)) ∧
    (∀ item ∈ placed old, item ∈ placed parsed) ∧ (placed parsed).count chart = 1

/-- The text is read as a board that extends the old one, or a `ValueError` is raised. -/
def Composes (content chartYaml sql : String) (columns : Value) : Prop :=
  match composeBoard libraries dumper content chartYaml sql columns with
  | .ok text => ∃ old parsed, existing libraries content = .ok old ∧
      parseBoard libraries text = .ok parsed ∧ Extends old parsed
  | .error raised => ∃ message, raised = .valueError message

/-! ## The condition -/

/-- The parts of a board that have to stay are read again as they are. -/
structure Kept (old : Items) : Prop where
  sections : ∀ name ∈ ["queries", "charts", "variables"],
    rereadItems dumper.reread (sectionOf old name) = sectionOf old name
  placed : ∀ item ∈ placed old, dumper.reread item = item

/-- The rows of a board, if it has any, are a list. -/
def RowsListed (board : Items) : Prop :=
  ∀ rows, get board "rows" = some rows → ∃ values, rows = .list values

/-- The extended board is read with a `ValueError` at most, and if it is accepted, the parts of
the old one stay as they are and do not place the new name. -/
structure Extensible (old chart : Items) (sql : String) (names : List String) : Prop where
  rows : RowsListed old
  read : ∀ larger index text, extended old chart sql names = .ok (larger, index) →
    dumper.dump (.dict larger) = .ok text → OnlyValueError (parseBoard libraries text) ∧
      ∀ parsed, parseBoard libraries text = .ok parsed →
        Kept libraries dumper old ∧ chartName index ∉ placed old

/-- The snippet, the statement and the content are read with a `ValueError` at most, and the
board of the content can be extended. -/
def Composable (content chartYaml sql : String) (columns : Value) : Prop :=
  OnlyValueError (parseBoard libraries chartYaml) ∧
    ∀ incoming chart names, parseBoard libraries chartYaml = .ok incoming →
      chosen incoming columns = .ok (chart, names) →
        OnlyValueError (prepare libraries [] sql) ∧
          ∀ prepared, prepare libraries [] sql = .ok prepared →
            OnlyValueError (existing libraries content) ∧
              ∀ old, existing libraries content = .ok old →
                Extensible libraries dumper old chart sql names

/-! ## Items -/

variable {items first second rest : Items} {name other : String} {value : Value}

theorem sameKey_iff {key : Value} : key.sameKey (.str name) = true ↔ key = .str name := by
  cases key with
  | str text => simp [Value.sameKey]
  | _ => exact iff_of_false Bool.false_ne_true (fun hsame => by cases hsame)

theorem get_cons (key value : Value) (rest : Items) (name : String) :
    get ((key, value) :: rest) name =
      if key.sameKey (.str name) then some value else get rest name := by
  unfold get Value.item
  rw [List.find?_cons]
  cases key.sameKey (.str name) <;> rfl

theorem get_append (first second : Items) (name : String) :
    get (first ++ second) name = (get first name).or (get second name) := by
  unfold get Value.item
  rw [List.find?_append]
  cases first.find? (fun entry => entry.1.sameKey (.str name)) <;> rfl

theorem get_setItem (items : Items) (name : String) (value : Value) (other : String) :
    get (setItem items name value) other = if other = name then some value else get items other := by
  induction items with
  | nil =>
    rw [setItem, get_cons, Value.sameKey]
    by_cases hsame : other = name
    · rw [if_pos hsame, hsame, decide_eq_true rfl, if_pos rfl]
    · rw [if_neg hsame, decide_eq_false fun h => hsame h.symm, if_neg Bool.false_ne_true]
  | cons item rest ih =>
    obtain ⟨key, found⟩ := item
    rw [setItem]
    by_cases hkey : key.sameKey (.str name) = true
    · obtain rfl := sameKey_iff.mp hkey
      rw [if_pos hkey, get_cons, get_cons, Value.sameKey]
      by_cases hsame : other = name
      · rw [if_pos hsame, hsame, decide_eq_true rfl, if_pos rfl]
      · rw [if_neg hsame, decide_eq_false fun h => hsame h.symm, if_neg Bool.false_ne_true,
          if_neg Bool.false_ne_true]
    · rw [if_neg hkey, get_cons, ih, get_cons]
      by_cases hother : key.sameKey (.str other) = true
      · have hne : other ≠ name := fun hsame => hkey (hsame ▸ hother)
        rw [if_pos hother, if_neg hne, if_pos hother]
      · rw [if_neg hother, if_neg hother]

/-- A new item stands at the end. -/
theorem setItem_of_none (hnone : get items name = none) :
    setItem items name value = items ++ [(.str name, value)] := by
  induction items with
  | nil => rfl
  | cons item rest ih =>
    obtain ⟨key, found⟩ := item
    rw [get_cons] at hnone
    split at hnone
    · cases hnone
    next hkey => rw [setItem, if_neg hkey, ih hnone, List.cons_append]

/-! ## The free index -/

theorem append_toString_injective (start : String) :
    Function.Injective fun index : ℕ => start ++ toString index := by
  intro index other hsame
  have hdigits := String.ofList_injective ((String.append_right_inj start).mp hsame)
  rw [← @Nat.ofDigitChars_ten_toDigits index, ← @Nat.ofDigitChars_ten_toDigits other]
  exact congrArg (fun digits => Nat.ofDigitChars 10 digits 0) hdigits

theorem mem_keys_of_get (hget : (get items name).isSome = true) :
    Value.str name ∈ items.map (·.1) := by
  obtain ⟨value, hvalue⟩ := Option.isSome_iff_exists.mp hget
  obtain ⟨item, hitem, -, hkey⟩ := mem_of_get hvalue
  exact List.mem_map.mpr ⟨item, hitem, sameKey_iff.mp hkey⟩

/-- Neither name of the new index is taken. -/
theorem isTaken_freeIndex (charts queries : Items) :
    isTaken charts queries (freeIndex charts queries) = false := by
  let name (index : ℕ) : String × Bool :=
    if (get charts (chartName index)).isSome then (chartName index, true)
    else (queryName index, false)
  have hname : Function.Injective name := by
    intro index other hsame
    unfold name at hsame
    split at hsame <;> split at hsame
    · exact append_toString_injective "chart_" (Prod.mk.inj hsame).1
    · cases (Prod.mk.inj hsame).2
    · cases (Prod.mk.inj hsame).2
    · exact append_toString_injective "query_" (Prod.mk.inj hsame).1
  let key (index : ℕ) : Value × Bool := (.str (name index).1, (name index).2)
  have hkey : Function.Injective key := fun index other hsame =>
    hname (Prod.ext (Value.str.inj (Prod.mk.inj hsame).1) (Prod.mk.inj hsame).2)
  refine @not_taken_firstFree _ _ key
    (charts.map (fun item => (item.1, true)) ++ queries.map fun item => (item.1, false)) _ _ hkey
    (fun index htaken => ?_) (by rw [List.length_append, List.length_map, List.length_map])
  have hmem : ∀ (items : Items) (text : String) (flag : Bool), (get items text).isSome = true →
      (Value.str text, flag) ∈ items.map fun item => (item.1, flag) := by
    intro items text flag hget
    obtain ⟨item, hitem, hsame⟩ := List.mem_map.mp (mem_keys_of_get hget)
    exact List.mem_map.mpr ⟨item, hitem, Prod.ext hsame rfl⟩
  rw [List.mem_append]
  by_cases hchart : (get charts (chartName index)).isSome = true
  · left
    have hfound : key index = (.str (chartName index), true) := by
      simp only [key, name, hchart, if_true]
    rw [hfound]
    exact hmem charts _ true hchart
  · right
    have hquery : (get queries (queryName index)).isSome = true := by
      rw [isTaken, Bool.or_eq_true] at htaken
      exact htaken.resolve_left hchart
    have hfound : key index = (.str (queryName index), false) := by
      simp only [key, name, hchart]
      rfl
    rw [hfound]
    exact hmem queries _ false hquery

/-! ## Placement -/

variable {board chart next larger : Items} {sql : String} {columns : List String} {index : ℕ}
  {values : List Value}

theorem placedValues_append (first second : List Value) :
    placedValues (first ++ second) = placedValues first ++ placedValues second := by
  induction first with
  | nil => rfl
  | cons value rest ih =>
    cases value with
    | str text => exact congrArg (text :: ·) ih
    | _ =>
      rw [List.cons_append, placedValues, placedValues, ih, List.append_assoc]
      all_goals exact fun text htext => by cases htext

/-- The names that the layout under a key places. -/
def placedUnder (board : Items) (key : String) : List String :=
  ((get board key).map placedIn).getD []

theorem placedItems_filterMap (board : Items) (keys : List String) :
    placedItems (keys.filterMap fun key => (get board key).map fun value => (.str key, value)) =
      keys.flatMap (placedUnder board) := by
  induction keys with
  | nil => rfl
  | cons key keys ih =>
    rw [List.flatMap_cons, ← ih, placedUnder, List.filterMap_cons]
    cases get board key with
    | none => rfl
    | some value => rfl

theorem placed_eq (board : Items) :
    placed board = placedUnder board "rows" ++ movedKeys.flatMap (placedUnder board) :=
  placedItems_filterMap board _

theorem get_filter (items : Items) (keys : List String) (name : String) :
    get (items.filter fun item => !keyIn keys item.1) name =
      if name ∈ keys then none else get items name := by
  induction items with
  | nil => exact (ite_self none).symm
  | cons item rest ih =>
    obtain ⟨key, value⟩ := item
    by_cases hkey : keyIn keys key = true
    · rw [List.filter_cons_of_neg (by rw [hkey]; exact Bool.false_ne_true), ih, get_cons]
      by_cases hname : name ∈ keys
      · rw [if_pos hname, if_pos hname]
      · have hne : ¬ key.sameKey (.str name) = true := by
          intro hsame
          obtain rfl := sameKey_iff.mp hsame
          exact hname (List.contains_iff_mem.mp hkey)
        rw [if_neg hname, if_neg hname, if_neg hne]
    · rw [Bool.not_eq_true] at hkey
      rw [List.filter_cons_of_pos (by rw [hkey]; rfl), get_cons, ih, get_cons]
      by_cases hsame : key.sameKey (.str name) = true
      · have hname : name ∉ keys := by
          obtain rfl := sameKey_iff.mp hsame
          intro hmem
          rw [keyIn, List.contains_iff_mem.mpr hmem] at hkey
          cases hkey
        rw [if_pos hsame, if_pos hsame, if_neg hname]
      · rw [if_neg hsame, if_neg hsame]

/-- What is not a layout stays. -/
theorem get_of_placeChart (hplace : placeChart board name = .ok next)
    (hother : other ∉ "rows" :: movedKeys) : get next other = get board other := by
  have hrows : other ≠ "rows" := fun hsame => hother (hsame ▸ List.mem_cons_self)
  have hmoved : other ∉ movedKeys := fun hmem => hother (List.mem_cons_of_mem _ hmem)
  unfold placeChart at hplace
  split at hplace
  · cases hplace
    rw [get_setItem, if_neg hrows]
  · cases hplace
  · cases hplace
    rw [get_setItem, if_neg hrows, get_filter, if_neg hmoved]

/-- **The chart is placed once more**, and everything else is where it was. -/
theorem placed_placeChart (hplace : placeChart board name = .ok next) :
    (placed next).Perm (name :: placed board) := by
  have hne : ∀ key ∈ movedKeys, key ≠ "rows" := by decide
  unfold placeChart at hplace
  rw [placed_eq, placed_eq]
  split at hplace
  next rows hrows =>
    cases hplace
    have hlast : placedUnder (setItem board "rows" (.list (rows ++ [Value.str name]))) "rows" =
        placedUnder board "rows" ++ [name] := by
      rw [placedUnder, get_setItem, if_pos rfl, placedUnder, hrows]
      exact placedValues_append rows [.str name]
    have hmoved : movedKeys.flatMap (placedUnder (setItem board "rows"
        (.list (rows ++ [Value.str name])))) = movedKeys.flatMap (placedUnder board) :=
      List.flatMap_congr fun key hkey => by
        rw [placedUnder, get_setItem, if_neg (hne key hkey), placedUnder]
    rw [hlast, hmoved, List.append_assoc]
    exact List.perm_middle
  · cases hplace
  next hrows =>
    cases hplace
    have hfirst : placedValues (if (layouts board).isEmpty then [] else [.dict (layouts board)]) =
        movedKeys.flatMap (placedUnder board) := by
      rw [← placedItems_filterMap board movedKeys, ← layouts]
      cases hfound : layouts board with
      | nil => rfl
      | cons item rest => exact List.append_nil _
    have hnone : ∀ rows, movedKeys.flatMap (placedUnder (setItem
        (board.filter fun item => !keyIn movedKeys item.1) "rows" rows)) = [] := by
      intro rows
      refine List.flatMap_eq_nil_iff.mpr fun key hkey => ?_
      rw [placedUnder, get_setItem, if_neg (hne key hkey), get_filter, if_pos hkey]
      rfl
    have hold : placedUnder board "rows" = [] := by
      rw [placedUnder, hrows]
      rfl
    rw [hnone, hold, List.append_nil, List.nil_append, placedUnder, get_setItem, if_pos rfl,
      Option.map_some, Option.getD_some, placedIn, placedValues_append, hfirst]
    exact List.perm_append_singleton name _

/-! ## The extended board -/

/-- What is known of an extended board. -/
structure Extended (board chart : Items) (sql : String) (columns : List String) (larger : Items)
    (index : ℕ) : Prop where
  freeQuery : get (sectionOf board "queries") (queryName index) = none
  freeChart : get (sectionOf board "charts") (chartName index) = none
  queries : get larger "queries" = some (.dict (sectionOf board "queries" ++
    [(.str (queryName index), .str (wrappedSql sql columns))]))
  charts : get larger "charts" = some (.dict (sectionOf board "charts" ++
    [(.str (chartName index), .dict (setItem chart "query" (.str (queryName index))))]))
  variables' : get larger "variables" = get board "variables"
  placed : (placed larger).Perm (chartName index :: Boards.placed board)

theorem extended_of_ok (hextended : extended board chart sql columns = .ok (larger, index)) :
    Extended board chart sql columns larger index := by
  unfold extended at hextended
  obtain ⟨placedBoard, hplace, hsame⟩ := map_eq_ok.mp hextended
  obtain ⟨rfl, rfl⟩ := Prod.mk.inj hsame
  have hfree := isTaken_freeIndex (sectionOf board "charts") (sectionOf board "queries")
  rw [isTaken, Bool.or_eq_false_iff, Option.isSome_eq_false_iff, Option.isSome_eq_false_iff,
    Option.isNone_iff_eq_none, Option.isNone_iff_eq_none] at hfree
  obtain ⟨hchart, hquery⟩ := hfree
  have hstays : ∀ other ∉ "rows" :: movedKeys, get placedBoard other = _ := fun other hother =>
    get_of_placeChart hplace hother
  refine ⟨hquery, hchart, ?_, ?_, ?_, ?_⟩
  · rw [hstays "queries" (by decide), get_setItem, if_neg (by decide), get_setItem, if_pos rfl,
      setItem_of_none hquery]
  · rw [hstays "charts" (by decide), get_setItem, if_pos rfl, setItem_of_none hchart]
  · rw [hstays "variables" (by decide), get_setItem, if_neg (by decide), get_setItem,
      if_neg (by decide)]
  · have hlayouts : ∀ key ∈ ["rows", "cols", "grid", "tabs"],
        key ≠ "charts" ∧ key ≠ "queries" := by decide
    refine (placed_placeChart hplace).trans ?_
    refine List.Perm.cons _ (List.Perm.of_eq ?_)
    unfold placed
    refine congrArg placedItems (List.filterMap_congr fun key hkey => ?_)
    rw [get_setItem, if_neg (hlayouts key hkey).1, get_setItem, if_neg (hlayouts key hkey).2]

theorem get_withChart (hother : other ≠ "charts" ∧ other ≠ "queries") :
    get (withChart board chart sql columns).1 other = get board other := by
  rw [withChart, get_setItem, if_neg hother.1, get_setItem, if_neg hother.2]

/-- Rows that are no list have no `append`. -/
theorem extended_eq_error {raised : Raised}
    (hextended : extended board chart sql columns = .error raised) :
    raised = .attributeError ∧ ¬ RowsListed board := by
  unfold extended at hextended
  have hplace : placeChart (withChart board chart sql columns).1
      (chartName (withChart board chart sql columns).2) = .error raised := by
    cases hplaced : placeChart (withChart board chart sql columns).1
        (chartName (withChart board chart sql columns).2) with
    | ok placedBoard =>
      dsimp only at hextended
      rw [hplaced] at hextended
      cases hextended
    | error other =>
      dsimp only at hextended
      rw [hplaced] at hextended
      cases hextended
      rfl
  unfold placeChart at hplace
  rw [get_withChart (by decide)] at hplace
  split at hplace
  · cases hplace
  next rows hlist hfound =>
    cases hplace
    refine ⟨rfl, fun hlisted => ?_⟩
    obtain ⟨values, rfl⟩ := hlisted rows hfound
    exact hlist values rfl
  · cases hplace

theorem rowsListed_of_ok (hextended : extended board chart sql columns = .ok (larger, index)) :
    RowsListed board := by
  intro rows hrows
  obtain ⟨placedBoard, hplace, -⟩ := map_eq_ok.mp hextended
  have hfound := (@get_withChart "rows" board chart sql columns (by decide)).trans hrows
  unfold placeChart at hplace
  split at hplace
  next values hvalues => exact ⟨values, Option.some_inj.mp (hfound.symm.trans hvalues)⟩
  · cases hplace
  next hnone => cases hnone.symm.trans hfound

/-! ## Values of JSON -/

theorem allJson_of_scalar (hscalar : isScalar value = true) (hjson : IsJson value) :
    AllJson value := by
  intro part hpart
  rw [eq_of_within_scalar hscalar hpart]
  cases value <;> exact hjson

theorem allJson_dict_iff : AllJson (.dict items) ↔
    ∀ item ∈ items, (∃ text, item.1 = .str text) ∧ AllJson item.2 := by
  apply Iff.intro
  · intro hjson item hitem
    exact ⟨hjson _ .self item hitem, fun part hpart => hjson part (.dictItem hitem hpart)⟩
  · intro hitems part hpart
    cases hpart with
    | self => exact fun item hitem => (hitems item hitem).1
    | dictItem hitem hpart => exact (hitems _ hitem).2 part hpart

theorem allJson_list_iff : AllJson (.list values) ↔ ∀ value ∈ values, AllJson value := by
  apply Iff.intro
  · exact fun hjson value hvalue part hpart => hjson part (.listItem hvalue hpart)
  · intro hvalues part hpart
    cases hpart with
    | self => trivial
    | listItem hvalue hpart => exact hvalues _ hvalue part hpart

theorem allJson_str (text : String) : AllJson (.str text) := allJson_of_scalar rfl trivial

theorem allJson_of_get (hjson : AllJson (.dict items)) (hget : get items name = some value) :
    AllJson value := by
  obtain ⟨item, hitem, rfl, -⟩ := mem_of_get hget
  exact (allJson_dict_iff.mp hjson item hitem).2

theorem allJson_setItem (hjson : AllJson (.dict items)) (hvalue : AllJson value) :
    AllJson (.dict (setItem items name value)) := by
  rw [allJson_dict_iff] at hjson ⊢
  induction items with
  | nil =>
    intro item hitem
    rw [List.mem_singleton.mp hitem]
    exact ⟨⟨name, rfl⟩, hvalue⟩
  | cons first rest ih =>
    obtain ⟨hfirst, hrest⟩ := List.forall_mem_cons.mp hjson
    rw [setItem]
    split
    · exact List.forall_mem_cons.mpr ⟨⟨hfirst.1, hvalue⟩, hrest⟩
    · exact List.forall_mem_cons.mpr ⟨hfirst, ih hrest⟩

theorem allJson_sectionOf (hjson : AllJson (.dict board)) (name : String) :
    AllJson (.dict (sectionOf board name)) := by
  have hempty : AllJson (.dict []) :=
    allJson_dict_iff.mpr fun item hitem => absurd hitem List.not_mem_nil
  unfold sectionOf section?
  cases hget : get board name with
  | none => exact hempty
  | some value =>
    cases value with
    | dict items => exact allJson_of_get hjson hget
    | _ => exact hempty

theorem allJson_extended (hboard : AllJson (.dict board)) (hchart : AllJson (.dict chart))
    (hextended : extended board chart sql columns = .ok (larger, index)) :
    AllJson (.dict larger) := by
  obtain ⟨placedBoard, hplace, hsame⟩ := map_eq_ok.mp hextended
  obtain ⟨rfl, -⟩ := Prod.mk.inj hsame
  have hlarger : AllJson (.dict (withChart board chart sql columns).1) :=
    allJson_setItem (allJson_setItem hboard
      (allJson_setItem (allJson_sectionOf hboard "queries") (allJson_str _)))
      (allJson_setItem (allJson_sectionOf hboard "charts")
        (allJson_setItem hchart (allJson_str _)))
  have hlist : ∀ rows : List Value, (∀ row ∈ rows, AllJson row) → ∀ name : String,
      AllJson (.list (rows ++ [Value.str name])) := by
    intro rows hrows name
    refine allJson_list_iff.mpr fun row hrow => ?_
    rcases List.mem_append.mp hrow with hrow | hrow
    · exact hrows row hrow
    · rw [List.mem_singleton.mp hrow]
      exact allJson_str name
  unfold placeChart at hplace
  split at hplace
  next rows hrows =>
    cases hplace
    exact allJson_setItem hlarger
      (hlist rows (allJson_list_iff.mp (allJson_of_get hlarger hrows)) _)
  · cases hplace
  · cases hplace
    refine allJson_setItem (allJson_dict_iff.mpr fun item hitem =>
      allJson_dict_iff.mp hlarger item (List.mem_of_mem_filter hitem)) (hlist _ ?_ _)
    intro row hrow
    split at hrow
    · cases hrow
    · rw [List.mem_singleton.mp hrow]
      refine allJson_dict_iff.mpr fun item hitem => ?_
      obtain ⟨key, -, hkey⟩ := List.mem_filterMap.mp hitem
      obtain ⟨value, hvalue, rfl⟩ := Option.map_eq_some_iff.mp hkey
      exact ⟨⟨key, rfl⟩, allJson_of_get hlarger hvalue⟩

/-! ## Accepted boards -/

section

variable {libraries : Libraries} {content : String}

/-- What the loader and the checks have established of an accepted board. -/
structure Accepted (libraries : Libraries) (board : Items) (root : Node) : Prop where
  loaded : Loaded libraries.reader root
  value : valueOf libraries.reader root = .dict board
  json : ∀ part : Value, part.Within (.dict board) → IsJson part
  checked : checkBoard libraries board = .ok ()

theorem exists_accepted (haccepted : parseBoard libraries content = .ok board) :
    ∃ root, Accepted libraries board root := by
  obtain ⟨root, hroot, hconstruct, hcheck⟩ := accepted_cases haccepted
  obtain ⟨hloaded, hboard⟩ := loaded_of_constructDocument hconstruct
  obtain ⟨queries, declared, hchecked⟩ := checked_of_checkBoard hcheck
  have hkeys (items : Items) (hwithin : (Value.dict items).Within (.dict board)) :
      StrKeys items := by
    rw [← hboard] at hwithin
    exact strKeys_valueOf libraries.reader items root hwithin
  exact ⟨root, hloaded, hboard, fun part hpart =>
    isJson_of_checked hchecked hkeys (nodup_board hloaded hboard) hpart, hcheck⟩

theorem allJson_of_accepted (haccepted : parseBoard libraries content = .ok board) :
    AllJson (.dict board) := by
  obtain ⟨root, hroot⟩ := exists_accepted haccepted
  intro part hpart
  have hjson := hroot.json part hpart
  cases part <;> exact hjson

/-- The keys of a dict that the loader has filled are different. -/
theorem nodup_of_visited {reader : Reader} {root node : Node} (hloaded : Loaded reader root)
    (hjson : ∀ value, value.Within (valueOf reader root) → IsJson value)
    (hvisited : Visited reader root node) (hvalue : valueOf reader node = .dict items) :
    (items.map (·.1)).Nodup := by
  have hcollection : node.tag.isCollection = true := by
    rw [← Bool.not_eq_false]
    intro hscalar
    have hmade := isScalar_scalarValue reader node
    rw [← valueOf_of_not_collection hscalar, hvalue] at hmade
    cases hmade
  cases node with
  | scalar line tag text =>
    cases tag with
    | collection tag =>
      cases tag <;> cases hvalue
      exact List.nodup_nil
    | _ => cases hcollection
  | sequence line tag nodes =>
    cases tag with
    | collection tag =>
      cases tag <;> cases hvalue
      exact List.nodup_nil
    | _ => cases hcollection
  | mapping line tag pairs =>
    obtain rfl := tag_of_visited_mapping hloaded hjson hcollection hvisited
    cases hvalue
    exact nodup_itemsOf (stringKeys_of_visited hloaded hjson hcollection hvisited)

/-- A value of a board is that of a node that the loader has come to. -/
theorem exists_visited {root : Node} (haccepted : Accepted libraries board root)
    {item : Value × Value} (hitem : item ∈ board) :
    ∃ node, Visited libraries.reader root node ∧ valueOf libraries.reader node = item.2 := by
  obtain ⟨hloaded, hvalue, hjson, -⟩ := haccepted
  rw [← hvalue] at hjson
  have hroot : Visited libraries.reader root root :=
    ⟨⟨none, constructObject_eq_none.mpr hloaded.collection⟩,
      fun _ => ⟨mem_order_of_mem List.mem_cons_self, .self⟩⟩
  have hcollection := hloaded.collection
  cases root with
  | scalar line tag text =>
    cases tag with
    | collection tag =>
      cases tag <;> cases hvalue
      cases hitem
    | _ => cases hcollection
  | sequence line tag nodes =>
    cases tag with
    | collection tag =>
      cases tag <;> cases hvalue
      cases hitem
    | _ => cases hcollection
  | mapping line tag pairs =>
    obtain rfl := tag_of_visited_mapping hloaded hjson hcollection hroot
    cases hvalue
    have hpairs : ∃ pair ∈ pairs, valueOf libraries.reader pair.2 = item.2 := by
      clear hloaded hjson hroot hcollection
      induction pairs with
      | nil => cases hitem
      | cons pair pairs ih =>
        rcases List.mem_cons.mp hitem with rfl | hitem
        · exact ⟨pair, List.mem_cons_self, rfl⟩
        · obtain ⟨found, hfound, hsame⟩ := ih hitem
          exact ⟨found, List.mem_cons_of_mem _ hfound, hsame⟩
    obtain ⟨pair, hpair, hsame⟩ := hpairs
    exact ⟨pair.2, (visited_pair hloaded hjson hcollection hroot hpair).2, hsame⟩

/-- The names in a section of an accepted board are different. -/
theorem nodup_sectionOf (haccepted : parseBoard libraries content = .ok board) (name : String) :
    ((sectionOf board name).map (·.1)).Nodup := by
  obtain ⟨root, hroot⟩ := exists_accepted haccepted
  have hjson := hroot.json
  rw [← hroot.value] at hjson
  unfold sectionOf section?
  cases hget : get board name with
  | none => exact List.nodup_nil
  | some value =>
    cases value with
    | dict items =>
      obtain ⟨item, hitem, hsame, -⟩ := mem_of_get hget
      obtain ⟨node, hvisited, hvalue⟩ := exists_visited hroot hitem
      exact nodup_of_visited hroot.loaded hjson hvisited (hvalue.trans hsame)
    | _ => exact List.nodup_nil

end

/-! ## What is read again -/

section

variable {reader : Reader} (dumper : Dumper reader) {text key : String} {extra : Items}

/-- No white space. -/
def Spaceless (text : String) : Prop := ∀ c ∈ text.toList, isSpace c = false

instance (text : String) : Decidable (Spaceless text) := inferInstanceAs (Decidable (∀ _ ∈ _, _))

/-- A string without a U+0085 is read as it is. -/
theorem reread_of_not_mem (htext : nextLine ∉ text.toList) : dumper.reread text = text :=
  (dumper.reread_eq_or text).resolve_right fun h => htext h.1

/-- A string with a U+0085 is read of itself only. -/
theorem eq_of_reread (htext : nextLine ∈ text.toList) (hread : dumper.reread key = text) :
    key = text := by
  rcases dumper.reread_eq_or key with hsame | ⟨-, hgone, -⟩
  · exact hsame.symm.trans hread
  · exact absurd (hread ▸ htext) hgone

theorem reread_eq_iff (hspaceless : Spaceless text) : dumper.reread key = text ↔ key = text := by
  apply Iff.intro
  · intro hread
    rcases dumper.reread_eq_or key with hsame | ⟨-, -, c, hc, hspace⟩
    · exact hsame.symm.trans hread
    · rw [hread] at hc
      rw [hspaceless c hc] at hspace
      cases hspace
  · rintro rfl
    exact reread_of_not_mem dumper fun hmem => Bool.noConfusion ((hspaceless _ hmem).symm.trans rfl)

theorem rereadItems_eq_map (items : Items) : rereadItems dumper.reread items =
    items.map fun item => (rereadValue dumper.reread item.1, rereadValue dumper.reread item.2) := by
  induction items with
  | nil => rfl
  | cons item rest ih => rw [rereadItems, ih, List.map_cons]

theorem get_rereadItems (hspaceless : Spaceless name) (items : Items) :
    get (rereadItems dumper.reread items) name =
      (get items name).map (rereadValue dumper.reread) := by
  induction items with
  | nil => rfl
  | cons item rest ih =>
    obtain ⟨key, value⟩ := item
    have hkey : (rereadValue dumper.reread key).sameKey (.str name) = key.sameKey (.str name) := by
      cases key with
      | str text => exact decide_eq_decide.mpr (reread_eq_iff dumper hspaceless)
      | _ => rfl
    rw [rereadItems, get_cons, get_cons, ih, hkey]
    split <;> rfl

theorem sectionOf_rereadItems (hspaceless : Spaceless name) (board : Items) :
    sectionOf (rereadItems dumper.reread board) name =
      rereadItems dumper.reread (sectionOf board name) := by
  unfold sectionOf section?
  rw [get_rereadItems dumper hspaceless]
  cases get board name with
  | none => rfl
  | some value => cases value <;> rfl

mutual

theorem placedIn_rereadValue : ∀ value : Value,
    placedIn (rereadValue dumper.reread value) = (placedIn value).map dumper.reread
  | .list values => by
      rw [rereadValue, placedIn, placedIn, placedValues_rereadValues values]
  | .dict items => by
      rw [rereadValue, placedIn, placedIn, placedItems_rereadItems items]
  | .none | .bool _ | .int _ | .float _ _ | .nonFinite _ | .str _ | .object _ _ => rfl

theorem placedValues_rereadValues : ∀ values : List Value,
    placedValues (rereadValues dumper.reread values) = (placedValues values).map dumper.reread
  | [] => rfl
  | .str text :: rest => by
      rw [rereadValues, rereadValue, placedValues, placedValues, List.map_cons,
        placedValues_rereadValues rest]
  | .list values :: rest => by
      have hvalue := placedIn_rereadValue (.list values)
      rw [rereadValue] at hvalue
      rw [rereadValues, rereadValue, placedValues, placedValues, List.map_append, hvalue,
        placedValues_rereadValues rest]
      all_goals exact fun text htext => by cases htext
  | .dict items :: rest => by
      have hvalue := placedIn_rereadValue (.dict items)
      rw [rereadValue] at hvalue
      rw [rereadValues, rereadValue, placedValues, placedValues, List.map_append, hvalue,
        placedValues_rereadValues rest]
      all_goals exact fun text htext => by cases htext
  | .none :: rest | .bool _ :: rest | .int _ :: rest | .float _ _ :: rest
  | .nonFinite _ :: rest | .object _ _ :: rest => placedValues_rereadValues rest

theorem placedItems_rereadItems : ∀ items : Items,
    placedItems (rereadItems dumper.reread items) = (placedItems items).map dumper.reread
  | [] => rfl
  | (_, value) :: rest => by
      rw [rereadItems, placedItems, placedItems, List.map_append, placedIn_rereadValue value,
        placedItems_rereadItems rest]

end

theorem placed_rereadItems (board : Items) :
    placed (rereadItems dumper.reread board) = (placed board).map dumper.reread := by
  have hspaceless : ∀ key ∈ ["rows", "cols", "grid", "tabs"], Spaceless key := by decide
  have hunder : ∀ key ∈ ["rows", "cols", "grid", "tabs"],
      placedUnder (rereadItems dumper.reread board) key =
        (placedUnder board key).map dumper.reread := by
    intro key hkey
    rw [placedUnder, get_rereadItems dumper (hspaceless key hkey), placedUnder]
    cases get board key with
    | none => rfl
    | some value => exact placedIn_rereadValue dumper value
  rw [placed, placedItems_filterMap, placed, placedItems_filterMap, List.map_flatMap]
  exact List.flatMap_congr hunder

/-- **A section stays** exactly when its names and values are read as they are. -/
theorem kept_iff (hkeys : StrKeys items)
    (hnodup : ((rereadItems dumper.reread (items ++ extra)).map (·.1)).Nodup) :
    (∀ item value, get items item = some value →
      get (rereadItems dumper.reread (items ++ extra)) item = some value) ↔
    rereadItems dumper.reread items = items := by
  have happend : rereadItems dumper.reread (items ++ extra) =
      rereadItems dumper.reread items ++ rereadItems dumper.reread extra := by
    rw [rereadItems_eq_map, rereadItems_eq_map, rereadItems_eq_map, List.map_append]
  apply Iff.intro
  · intro hstays
    have hinj : ∀ first ∈ items, ∀ second ∈ items ++ extra,
        rereadValue dumper.reread first.1 = rereadValue dumper.reread second.1 →
          first = second := by
      intro first hfirst second hsecond hsame
      rw [rereadItems_eq_map, List.map_map] at hnodup
      exact List.inj_on_of_nodup_map hnodup (List.mem_append_left _ hfirst) hsecond hsame
    rw [rereadItems_eq_map]
    refine (List.map_congr_left fun item hitem => ?_).trans (List.map_id items)
    obtain ⟨name, hname⟩ := hkeys item hitem
    have hown : (items.map (·.1)).Nodup := by
      refine List.Nodup.map_on (fun first hfirst second hsecond hsame =>
        hinj first hfirst second (List.mem_append_left _ hsecond) (by rw [hsame])) ?_
      rw [rereadItems_eq_map, List.map_map] at hnodup
      exact (List.nodup_append.mp (List.Nodup.of_map _ hnodup)).1
    have hget : get items name = some item.2 :=
      get_of_mem hkeys hown (by rw [← hname]; exact hitem)
    obtain ⟨found, hfound, hvalue, hkey⟩ := mem_of_get (hstays name item.2 hget)
    rw [rereadItems_eq_map] at hfound
    obtain ⟨other, hother, rfl⟩ := List.mem_map.mp hfound
    dsimp only at hvalue hkey
    have hread := sameKey_iff.mp hkey
    have hsame : item = other := by
      refine hinj item hitem other hother ?_
      rw [hread, hname, rereadValue]
      by_cases hline : nextLine ∈ name.toList
      · cases hvalue' : other.1 with
        | str key =>
          rw [hvalue', rereadValue] at hread
          have hkey := eq_of_reread dumper hline (Value.str.inj hread)
          rw [hkey] at hread
          exact hread
        | _ =>
          rw [hvalue'] at hread
          cases hread
      · rw [reread_of_not_mem dumper hline]
    rw [← hsame] at hvalue hread
    exact Prod.ext (hread.trans hname.symm) hvalue
  · intro hsame item value hget
    rw [happend, hsame, get_append, hget]
    rfl

end
/-! ## The composed board -/

section

variable {libraries : Libraries} {dumper : Dumper libraries.reader}
  {content chartYaml text : String} {old parsed : Items}

/-- A dumped board that is accepted is the board as it is read again. -/
theorem eq_of_parse_dump (hjson : AllJson (.dict larger))
    (hdump : dumper.dump (.dict larger) = .ok text)
    (hparse : parseBoard libraries text = .ok parsed) :
    parsed = rereadItems dumper.reread larger := by
  unfold parseBoard at hparse
  split_ifs at hparse
  rcases load_dump dumper hjson hdump with hload | ⟨message, hload⟩
  · rw [hload] at hparse
    obtain ⟨-, -, hsame⟩ := map_eq_ok.mp hparse
    exact hsame.symm
  · rw [hload] at hparse
    cases hparse

theorem isSpace_of_isDigit {c : Char} (hdigit : c.isDigit = true) : isSpace c = false := by
  have hcode : 48 ≤ c.toNat ∧ c.toNat ≤ 57 := by
    rw [Char.isDigit, Bool.and_eq_true, decide_eq_true_eq, decide_eq_true_eq] at hdigit
    exact ⟨UInt32.le_iff_toNat_le.mp hdigit.1, UInt32.le_iff_toNat_le.mp hdigit.2⟩
  simp only [isSpace, Bool.or_eq_false_iff, Bool.and_eq_false_iff, decide_eq_false_iff_not]
  omega

/-- The names of new charts and queries have no white space. -/
theorem spaceless_append_toString {start : String} (hstart : Spaceless start) (index : ℕ) :
    Spaceless (start ++ toString index) := by
  intro c hc
  rw [String.toList_append] at hc
  rcases List.mem_append.mp hc with hc | hc
  · exact hstart c hc
  · change c ∈ (String.ofList (Nat.toDigits 10 index)).toList at hc
    rw [String.toList_ofList] at hc
    exact isSpace_of_isDigit (Nat.isDigit_of_mem_toDigits (by decide) (by decide) hc)

theorem reread_chartName (dumper : Dumper libraries.reader) (index : ℕ) :
    dumper.reread (chartName index) = chartName index :=
  (reread_eq_iff dumper (spaceless_append_toString (by decide) index)).mpr rfl

theorem reread_queryName (dumper : Dumper libraries.reader) (index : ℕ) :
    dumper.reread (queryName index) = queryName index :=
  (reread_eq_iff dumper (spaceless_append_toString (by decide) index)).mpr rfl

theorem sectionOf_of_get {items : Items} (hget : get board name = some (.dict items)) :
    sectionOf board name = items := by
  unfold sectionOf section?
  rw [hget]
  rfl

/-- The sections of the extended board are those of the old one, with one more item. -/
theorem exists_extra (dumper : Dumper libraries.reader)
    (hextended : Extended old chart sql columns larger index) :
    ∀ name ∈ ["queries", "charts", "variables"], ∃ extra,
      sectionOf (rereadItems dumper.reread larger) name =
        rereadItems dumper.reread (sectionOf old name ++ extra) := by
  have hspaceless : ∀ name ∈ ["queries", "charts", "variables"], Spaceless name := by decide
  intro name hname
  rw [sectionOf_rereadItems dumper (hspaceless name hname)]
  simp only [List.mem_cons, List.not_mem_nil, or_false] at hname
  rcases hname with rfl | rfl | rfl
  · exact ⟨_, congrArg _ (sectionOf_of_get hextended.queries)⟩
  · exact ⟨_, congrArg _ (sectionOf_of_get hextended.charts)⟩
  · refine ⟨[], congrArg _ ?_⟩
    rw [List.append_nil]
    unfold sectionOf section?
    rw [hextended.variables']

/-- The items of a section with one more item. -/
theorem get_append_single {items : Items} (hnone : get items name = none) (value : Value) :
    get (items ++ [(.str name, value)]) name = some value := by
  rw [get_append, hnone, get_cons, if_pos (sameKey_iff.mpr rfl)]
  rfl

theorem eq_of_get_append_single {items : Items} (hnone : get items other = none)
    (hsome : (get (items ++ [(.str name, value)]) other).isSome = true) : other = name := by
  rw [get_append, hnone, Option.none_or, get_cons] at hsome
  split at hsome
  next hkey => exact (Value.str.inj (sameKey_iff.mp hkey)).symm
  · cases hsome

/-- A section that stays is read with its new item behind it. -/
theorem rereadItems_append_single {items : Items}
    (hkept : rereadItems dumper.reread items = items) (hname : dumper.reread name = name) :
    rereadItems dumper.reread (items ++ [(.str name, value)]) =
      items ++ [(.str name, rereadValue dumper.reread value)] := by
  rw [rereadItems_eq_map, List.map_append, ← rereadItems_eq_map, hkept, List.map_singleton]
  simp only [rereadValue, hname]

/-- **The composed board extends the old one** exactly when the old one is read again as it is
and does not place the new name. -/
theorem extends_iff (hjson : AllJson (.dict old))
    (hextended : Extended old chart sql columns larger index)
    (hparse : parseBoard libraries text = .ok (rereadItems dumper.reread larger)) :
    Extends old (rereadItems dumper.reread larger) ↔
      Kept libraries dumper old ∧ chartName index ∉ placed old := by
  have hsections : (∀ name ∈ ["queries", "charts", "variables"], ∀ item value,
      get (sectionOf old name) item = some value →
        get (sectionOf (rereadItems dumper.reread larger) name) item = some value) ↔
      ∀ name ∈ ["queries", "charts", "variables"],
        rereadItems dumper.reread (sectionOf old name) = sectionOf old name := by
    refine forall₂_congr fun name hname => ?_
    obtain ⟨extra, hextra⟩ := exists_extra dumper hextended name hname
    have hnodup := nodup_sectionOf hparse name
    rw [hextra] at hnodup ⊢
    exact kept_iff dumper (fun item hitem =>
      (allJson_dict_iff.mp (allJson_sectionOf hjson name) item hitem).1) hnodup
  have hplaced : (placed (rereadItems dumper.reread larger)).Perm
      (chartName index :: (placed old).map dumper.reread) := by
    have hperm := hextended.placed.map dumper.reread
    rwa [List.map_cons, reread_chartName, ← placed_rereadItems] at hperm
  have hqueries : sectionOf (rereadItems dumper.reread larger) "queries" = _ :=
    (sectionOf_rereadItems dumper (by decide) larger).trans
      (congrArg _ (sectionOf_of_get hextended.queries))
  have hcharts : sectionOf (rereadItems dumper.reread larger) "charts" = _ :=
    (sectionOf_rereadItems dumper (by decide) larger).trans
      (congrArg _ (sectionOf_of_get hextended.charts))
  apply Iff.intro
  · rintro ⟨hkept, query, newName, -, ⟨hfree, -, items, hitems, -⟩, hstays, honce⟩
    have hsame := hsections.mp hkept
    have hitemsKept : ∀ item ∈ placed old, dumper.reread item = item := by
      intro item hitem
      by_cases hline : nextLine ∈ item.toList
      · rcases List.mem_cons.mp (hplaced.mem_iff.mp (hstays item hitem)) with hname | hmem
        · rw [hname]
          exact reread_chartName dumper index
        · obtain ⟨other, -, hread⟩ := List.mem_map.mp hmem
          rwa [eq_of_reread dumper hline hread] at hread
      · exact reread_of_not_mem dumper hline
    refine ⟨⟨hsame, hitemsKept⟩, fun hmem => ?_⟩
    have hname : newName = chartName index := by
      rw [hcharts, rereadItems_append_single (hsame "charts" (by decide))
        (reread_chartName dumper index)] at hitems
      exact eq_of_get_append_single hfree (by rw [hitems]; rfl)
    rw [hname, hplaced.count_eq, List.count_cons_self,
      (List.map_congr_left hitemsKept).trans (List.map_id' _)] at honce
    have hpos := List.count_pos_iff.mpr hmem
    omega
  · rintro ⟨⟨hsame, hitems⟩, hmem⟩
    have hmap : (placed old).map dumper.reread = placed old :=
      (List.map_congr_left hitems).trans (List.map_id' _)
    rw [hmap] at hplaced
    rw [rereadItems_append_single (hsame "queries" (by decide))
      (reread_queryName dumper index)] at hqueries
    rw [rereadItems_append_single (hsame "charts" (by decide))
      (reread_chartName dumper index)] at hcharts
    refine ⟨hsections.mpr hsame, queryName index, chartName index,
      ⟨hextended.freeQuery, ?_, ?_⟩, ⟨hextended.freeChart, ?_, ?_⟩, ?_, ?_⟩
    · rw [hqueries, List.length_append, List.length_singleton]
    · rw [hqueries, get_append_single hextended.freeQuery]
      rfl
    · rw [hcharts, List.length_append, List.length_singleton]
    · rw [hcharts, get_append_single hextended.freeChart]
      refine ⟨_, rfl, ?_⟩
      rw [get_rereadItems dumper (by decide), get_setItem, if_pos rfl, Option.map_some,
        rereadValue, reread_queryName]
    · exact fun item hitem => hplaced.mem_iff.mpr (List.mem_cons_of_mem _ hitem)
    · rw [hplaced.count_eq, List.count_cons_self, List.count_eq_zero.mpr hmem]

end

/-! ## `compose_board` -/

section

variable {α β : Type} {good : β → Prop} {result : Except Raised α} {next : α → Except Raised β}

/-- A good result, or a `ValueError`. -/
def Ends (good : α → Prop) : Except Raised α → Prop
  | .ok value => good value
  | .error raised => ∃ message, raised = .valueError message

theorem ends_bind_iff : Ends good (result >>= next) ↔
    OnlyValueError result ∧ ∀ value, result = .ok value → Ends good (next value) := by
  cases result with
  | error raised =>
    apply Iff.intro
    · intro hends
      refine ⟨fun other hother => ?_, fun value hvalue => by cases hvalue⟩
      rw [← Except.error.inj hother]
      exact hends
    · exact fun hsteps => hsteps.1 raised rfl
  | ok value =>
    apply Iff.intro
    · intro hends
      refine ⟨onlyValueError_ok value, fun other hother => ?_⟩
      rw [← Except.ok.inj hother]
      exact hends
    · exact fun hsteps => hsteps.2 value rfl

end

section

variable {libraries : Libraries} {dumper : Dumper libraries.reader} {content chartYaml sql : String}
  {incoming : Items} {columns : Value}

theorem onlyValueError_chosen (incoming : Items) (columns : Value) :
    OnlyValueError (chosen incoming columns) := by
  intro raised hraised
  unfold chosen at hraised
  split at hraised
  · split at hraised
    · split at hraised
      · cases hraised
      · exact ⟨_, (Except.error.inj hraised).symm⟩
    · exact ⟨_, (Except.error.inj hraised).symm⟩
  · exact ⟨_, (Except.error.inj hraised).symm⟩

theorem allJson_chosen {names : List String} (hjson : AllJson (.dict incoming))
    (hchosen : chosen incoming columns = .ok (chart, names)) : AllJson (.dict chart) := by
  unfold chosen at hchosen
  split at hchosen
  next key found cells hget =>
    split at hchosen
    · split at hchosen
      · cases hchosen
        exact (allJson_dict_iff.mp (allJson_of_get hjson hget) _ List.mem_cons_self).2
      · cases hchosen
    · cases hchosen
  · cases hchosen

theorem allJson_existing (hexisting : existing libraries content = .ok board) :
    AllJson (.dict board) := by
  unfold existing at hexisting
  split at hexisting
  · cases hexisting
    have hempty : AllJson (.dict []) :=
      allJson_dict_iff.mpr fun item hitem => absurd hitem List.not_mem_nil
    have hlist : AllJson (.list []) :=
      allJson_list_iff.mpr fun value hvalue => absurd hvalue List.not_mem_nil
    refine allJson_dict_iff.mpr ?_
    simp only [newBoard, List.forall_mem_cons]
    exact ⟨⟨⟨_, rfl⟩, allJson_str _⟩, ⟨⟨_, rfl⟩, hempty⟩, ⟨⟨_, rfl⟩, hempty⟩, ⟨⟨_, rfl⟩, hlist⟩,
      fun item hitem => absurd hitem List.not_mem_nil⟩
  · exact allJson_of_accepted hexisting

theorem onlyValueError_extended_iff {names : List String} :
    OnlyValueError (extended board chart sql names) ↔ RowsListed board := by
  apply Iff.intro
  · intro honly
    cases hextended : extended board chart sql names with
    | ok found => exact @rowsListed_of_ok _ _ _ _ _ found.2 hextended
    | error raised =>
      obtain ⟨message, hmessage⟩ := honly raised hextended
      rw [(extended_eq_error hextended).1] at hmessage
      cases hmessage
  · intro hrows raised hraised
    exact absurd hrows (extended_eq_error hraised).2

/-- The last steps, from the board of the content on. -/
theorem ends_extended_iff {names : List String} (hold : AllJson (.dict board))
    (hchart : AllJson (.dict chart)) (hexisting : existing libraries content = .ok board) :
    Ends (fun text => ∃ old parsed, existing libraries content = .ok old ∧
        parseBoard libraries text = .ok parsed ∧ Extends old parsed)
      (do
        let (larger, _) ← extended board chart sql names
        let text ← dumper.dump (.dict larger)
        let _ ← parseBoard libraries text
        return text) ↔ Extensible libraries dumper board chart sql names := by
  rw [ends_bind_iff, onlyValueError_extended_iff]
  have hsteps : ∀ larger index, extended board chart sql names = .ok (larger, index) →
      (Ends (fun text => ∃ old parsed, existing libraries content = .ok old ∧
          parseBoard libraries text = .ok parsed ∧ Extends old parsed)
        (do
          let text ← dumper.dump (.dict larger)
          let _ ← parseBoard libraries text
          return text) ↔
      ∀ text, dumper.dump (.dict larger) = .ok text → OnlyValueError (parseBoard libraries text) ∧
        ∀ parsed, parseBoard libraries text = .ok parsed →
          Kept libraries dumper board ∧ chartName index ∉ placed board) := by
    intro larger index hextended
    have hjson := allJson_extended hold hchart hextended
    have hrefused : OnlyValueError (dumper.dump (.dict larger)) :=
      fun raised hraised => dumper.refused hjson hraised
    rw [ends_bind_iff, and_iff_right hrefused]
    refine forall₂_congr fun text hdump => ?_
    rw [ends_bind_iff]
    refine and_congr_right fun _ => forall₂_congr fun parsed hparsed => ?_
    have hread := eq_of_parse_dump hjson hdump hparsed
    rw [hread] at hparsed
    rw [← extends_iff hold (extended_of_ok hextended) hparsed]
    apply Iff.intro
    · rintro ⟨old, found, hold, hfound, hextends⟩
      rwa [Except.ok.inj (hexisting.symm.trans hold), Except.ok.inj (hparsed.symm.trans hfound)]
    · exact fun hextends => ⟨board, _, hexisting, hparsed, hextends⟩
  apply Iff.intro
  · rintro ⟨hrows, hends⟩
    exact ⟨hrows, fun larger index text hextended =>
      (hsteps larger index hextended).mp (hends _ hextended) text⟩
  · rintro ⟨hrows, hread⟩
    exact ⟨hrows, fun found hextended => (hsteps found.1 found.2 hextended).mpr fun text =>
      hread found.1 found.2 text hextended⟩

/-- **A board is composed as it should be** exactly when nothing but a `ValueError` is raised on
the way, its rows are a list, and PyYAML reads what has to stay as it is. -/
theorem composes_iff_composable (libraries : Libraries) (dumper : Dumper libraries.reader)
    (content chartYaml sql : String) (columns : Value) :
    Composes libraries dumper content chartYaml sql columns ↔
      Composable libraries dumper content chartYaml sql columns := by
  have hcomposes : Composes libraries dumper content chartYaml sql columns ↔
      Ends (fun text => ∃ old parsed, existing libraries content = .ok old ∧
        parseBoard libraries text = .ok parsed ∧ Extends old parsed)
        (composeBoard libraries dumper content chartYaml sql columns) := by
    unfold Composes Ends
    cases composeBoard libraries dumper content chartYaml sql columns <;> exact Iff.rfl
  rw [hcomposes, composeBoard, ends_bind_iff, Composable]
  refine and_congr_right fun _ => ?_
  have hsteps : ∀ incoming, parseBoard libraries chartYaml = .ok incoming →
      ∀ chart names, chosen incoming columns = .ok (chart, names) →
      (Ends (fun text => ∃ old parsed, existing libraries content = .ok old ∧
          parseBoard libraries text = .ok parsed ∧ Extends old parsed)
        (do
          let _ ← prepare libraries [] sql
          let board ← existing libraries content
          let (larger, _) ← extended board chart sql names
          let text ← dumper.dump (.dict larger)
          let _ ← parseBoard libraries text
          return text) ↔
      OnlyValueError (prepare libraries [] sql) ∧ ∀ prepared, prepare libraries [] sql = .ok prepared →
        OnlyValueError (existing libraries content) ∧ ∀ old, existing libraries content = .ok old →
          Extensible libraries dumper old chart sql names) := by
    intro incoming hincoming chart names hchosen
    have hchart := allJson_chosen (allJson_of_accepted hincoming) hchosen
    rw [ends_bind_iff]
    refine and_congr_right fun _ => forall₂_congr fun prepared _ => ?_
    rw [ends_bind_iff]
    refine and_congr_right fun _ => forall₂_congr fun old hold => ?_
    exact ends_extended_iff (allJson_existing hold) hchart hold
  apply Iff.intro
  · intro hends incoming chart names hincoming hchosen
    have hchosenEnds := (ends_bind_iff.mp (hends incoming hincoming)).2 (chart, names) hchosen
    exact (hsteps incoming hincoming chart names hchosen).mp hchosenEnds
  · intro hread incoming hincoming
    exact ends_bind_iff.mpr ⟨onlyValueError_chosen incoming columns, fun found hchosen =>
      (hsteps incoming hincoming found.1 found.2 hchosen).mpr
        (hread incoming found.1 found.2 hincoming hchosen)⟩

end

/-! ## A board whose rows are empty -/

/-- The orders with a key `rows` and nothing behind it. -/
def rowlessBoard : Event :=
  block [(word "title", word "Orders"),
    (word "queries", block [(word "orders",
      block [(word "columns", flow [word "region"]), (word "values", flow [flow [word "north"]])])]),
    (word "charts", block [(word "regions", block [(word "query", word "orders")])]),
    (word "rows", .scalar 1 (.atom .null) "")]

/-- Its text. -/
def rowlessText : String :=
  "\x7btitle: Orders, queries: \x7borders: \x7bcolumns: [region], values: [[north]]\x7d\x7d, " ++
    "charts: \x7bregions: \x7bquery: orders\x7d\x7d, rows: \x7d"

/-- Libraries that read this board, the snippet and one statement. -/
def readsRowless : Libraries where
  reader :=
    { parse := fun text => ⟨if text = rowlessText then some rowlessBoard
        else if text = ordersText "Orders" then some (ordersBoard (word "Orders")) else none, none⟩
      read := fun _ _ => .error (.yaml 1 "invalid")
      scalar_of_read := @isScalar_of_unread }
  engine := ⟨fun text => some [.output [.data text]], fun _ => .ok (), fun _ => false,
    fun _ => none, rfl, quote_unread⟩
  crash _ := none

/-- Nothing is dumped. -/
def dumpsNothing : Dumper readsRowless.reader where
  dump _ := .error (.valueError "Exceeds the limit (4300 digits) for integer string conversion")
  reread text := text
  refused _ hraised := ⟨_, (Except.error.inj hraised).symm⟩
  shown _ hdump := by cases hdump
  reread_eq_or _ := .inl rfl

/-- `None` has no `append`. -/
theorem not_composes_of_rowless : ¬ ∀ (libraries : Libraries) (dumper : Dumper libraries.reader)
    (content chartYaml sql : String) (columns : Value),
    Composes libraries dumper content chartYaml sql columns := by
  intro hclaim
  have hcomposes := hclaim readsRowless dumpsNothing rowlessText (ordersText "Orders") "select 1"
    (.list [.str "region"])
  have hraised : composeBoard readsRowless dumpsNothing rowlessText (ordersText "Orders")
      "select 1" (.list [.str "region"]) = .error .attributeError := by
    decide +kernel
  unfold Composes at hcomposes
  split at hcomposes
  next heq =>
    rw [hraised] at heq
    cases heq
  next heq =>
    rw [hraised] at heq
    cases heq
    obtain ⟨message, hmessage⟩ := hcomposes
    cases hmessage

end DbtCraft.Services.Boards
