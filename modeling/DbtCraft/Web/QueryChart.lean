/-
# Charts of a query result

`chartProblem` of `features/explore/model/board.ts`, the rows of `query-chart.ts` and the request
of `ChartBuilder.tsx`: the browser looks for what the renderer would refuse before it asks. What
it does not look at are the texts, the names and the signs; and it asks of the value column that
every cell is a number, while the request leaves out the cells that are none.
-/

import DbtCraft.Server.AiProviders
import DbtCraft.Services.Charts
import DbtCraft.Web.Json

namespace DbtCraft.Web.QueryChart

open DbtCraft.Python DbtCraft.Services.Charts
open DbtCraft.Server.AiProviders (trim)

/-! ## Numbers -/

/-- What stands behind a sign. -/
def dropSign : List Char → List Char
  | '+' :: rest | '-' :: rest => rest
  | text => text

/-- `(?:e[+-]?\d+)?$`. -/
def isExponent : List Char → Bool
  | [] => true
  | c :: rest => (c = 'e' || c = 'E') && dropSign rest ≠ [] && (dropSign rest).all Char.isDigit

/-- `/^[+-]?(?:\d+(?:\.\d*)?|\.\d+)(?:e[+-]?\d+)?$/i`. -/
def matchesNumber (text : List Char) : Bool :=
  let whole := (dropSign text).takeWhile Char.isDigit
  match (dropSign text).dropWhile Char.isDigit with
  | '.' :: rest =>
    (whole ≠ [] || rest.takeWhile Char.isDigit ≠ []) && isExponent (rest.dropWhile Char.isDigit)
  | rest => whole ≠ [] && isExponent rest

variable (numberOf : String → Option Number)

/-- `chartNumber`; `numberOf` is `Number(text)` where that is finite. -/
def chartNumber : Json → Option Number
  | .number value => some value
  | .string text => if matchesNumber (trim text).toList then numberOf text else none
  | _ => none

/-! ## Rows -/

/-- The cells of a row, by their columns. -/
abbrev Row := String → Json

/-- `value != null`. -/
def isFilled : Json → Bool
  | .null => false
  | _ => true

/-- The cells of a column that are not empty. -/
def cellsOf (data : List Row) (column : String) : List Json :=
  (data.map fun row => row column).filter isFilled

/-- `numericChartColumns`. -/
def numericChartColumns (data : List Row) (columns : List String) : List String :=
  columns.filter fun column => decide (0 < (cellsOf data column).length) &&
    (cellsOf data column).all fun cell => (chartNumber numberOf cell).isSome

/-- What a cell is sent as. -/
def chartCell (isValue : Bool) (cell : Json) : Json :=
  match cell with
  | .null => .null
  | cell =>
    if isValue then ((chartNumber numberOf cell).map Json.number).getD .null
    else
      match cell with
      | .array _ | .object _ => .string cell.stringify
      | other => other

/-- `chartRows`. -/
def chartRows (data : List Row) (columns : List String) (valueColumn : String) :
    List (List (String × Json)) :=
  data.map fun row => columns.map fun column =>
    (column, chartCell numberOf (column = valueColumn) (row column))

/-! ## Drafts -/

/-- `ChartDraft`. -/
structure ChartDraft where
  type : String
  fields : String → Option String
  series : String
  title : String
  format : String

/-- `SNAPSHOT_TYPES`. -/
def snapshotTypes : List String :=
  ["bar", "line", "area", "scatter", "pie", "donut", "kpi", "table"]

/-- `SERIES_TYPES`. -/
def seriesTypes : List String := ["bar", "line", "area", "scatter"]

/-- `acceptsSeries`. -/
def acceptsSeries (type : String) : Bool := seriesTypes.contains type

/-- The themes that are offered. -/
def offeredThemes : List String := ["clarity", "paper", "vivid", "neon", "stark"]

/-- `chartProblem`. -/
def chartProblem (draft : ChartDraft) (rows : ℕ) (columns numeric : List String) : Option String :=
  if !snapshotTypes.contains draft.type then
    some ("A " ++ draft.type ++
      " is drawn by the dashboard itself - this preview covers the other chart types.")
  else if rows > 1000 then
    some "Charts support up to 1,000 result rows. Reduce the query limit."
  else if columns.length > 80 then some "Choose up to 80 columns in your query."
  else if draft.type = "kpi" ∧ rows ≠ 1 then
    some "KPI needs one row. Aggregate your SQL to a single metric first."
  else if draft.type ≠ "table" ∧ !numeric.contains ((draft.fields "y").getD "") then
    some "Choose a numeric value column. Cast numeric text in SQL if necessary."
  else if draft.type ≠ "table" ∧ draft.type ≠ "kpi" ∧
      !columns.contains ((draft.fields "x").getD "") then
    some "Choose an X-axis or category column."
  else none

/-- The value column of a draft. -/
def valueColumn (draft : ChartDraft) : String :=
  if draft.type = "table" then "" else (draft.fields "y").getD ""

/-- The request that is posted. -/
def postedRequest (data : List Row) (columns : List String) (theme : String) (draft : ChartDraft) :
    ChartRequest where
  columns
  data := (chartRows numberOf data columns (valueColumn draft)).map fun row =>
    row.map fun entry => (entry.1, entry.2.read)
  chartType := draft.type
  title := draft.title
  x := if draft.type = "table" ∨ draft.type = "kpi" then none else draft.fields "x"
  y := if valueColumn draft = "" then none else some (valueColumn draft)
  color := if acceptsSeries draft.type ∧ draft.series ≠ "" then some draft.series else none
  theme
  numberFormat := if draft.format = "" then none else some draft.format

/-! ## The property -/

variable (dumped : ChartRequest → ℕ)

/-- The browser sees no problem if and only if the renderer accepts what is posted. -/
def Agrees (data : List Row) (columns : List String) (theme : String) (draft : ChartDraft) : Prop :=
  chartProblem draft data.length columns (numericChartColumns numberOf data columns) = none ↔
    Accepted dumped (postedRequest numberOf data columns theme draft)

/-- The numbers of rows and columns, and the columns that are chosen. -/
structure Fits (data : List Row) (columns : List String) (draft : ChartDraft) : Prop where
  height : data.length ≤ 1000
  width : columns.length ≤ 80
  single : draft.type = "kpi" → data.length = 1
  axis : draft.type ≠ "table" → draft.type ≠ "kpi" → (draft.fields "x").getD "" ∈ columns

/-- The value column has numbers, and nothing else. -/
def AllNumbers (data : List Row) (columns : List String) (draft : ChartDraft) : Prop :=
  valueColumn draft ∈ columns ∧ cellsOf data (valueColumn draft) ≠ [] ∧
    ∀ cell ∈ cellsOf data (valueColumn draft), (chartNumber numberOf cell).isSome = true

/-- The value column has a number, and something else. -/
def SomeNumbers (data : List Row) (columns : List String) (draft : ChartDraft) : Prop :=
  valueColumn draft ∈ columns ∧
    (∃ cell ∈ cellsOf data (valueColumn draft), (chartNumber numberOf cell).isSome = true) ∧
    ∃ cell ∈ cellsOf data (valueColumn draft), chartNumber numberOf cell = none

/-- The text that a cell beside the values is sent as. -/
def textOfCell : Json → Option String
  | .string text => some text
  | .array items => some (Json.array items).stringify
  | .object members => some (Json.object members).stringify
  | _ => none

/-- The numbers of the value column. -/
def numbersOf (data : List Row) (draft : ChartDraft) : List Number :=
  data.filterMap fun row => chartNumber numberOf (row (valueColumn draft))

/-- What the browser does not look at. -/
structure Postable (data : List Row) (columns : List String) (theme : String) (draft : ChartDraft) :
    Prop where
  someRow : data ≠ []
  someColumn : columns ≠ []
  unique : columns.Nodup
  names : ∀ column ∈ columns, column ≠ "" ∧ column.toList.length ≤ 200
  title : draft.title.toList.length ≤ 160
  format : draft.format ≠ "" → draft.format ∈ numberFormats
  size : dumped (postedRequest numberOf data columns theme draft) ≤ maxBytes
  titleText : isTemplate draft.title = false
  nameTexts : ∀ column ∈ columns, isTemplate column = false
  cellTexts : ∀ row ∈ data, ∀ column ∈ columns, column ≠ valueColumn draft →
    ∀ text ∈ textOfCell (row column), isTemplate text = false
  series : acceptsSeries draft.type = true → draft.series ≠ "" → draft.series ∈ columns
  shares : draft.type = "pie" ∨ draft.type = "donut" →
    (∀ number ∈ numbersOf numberOf data draft, isNegative number.read = false) ∧
      ∃ number ∈ numbersOf numberOf data draft, isPositive number.read = true

/-- What the browser looks at leaves only what the renderer accepts, and nothing of it. -/
structure Tells (data : List Row) (columns : List String) (theme : String) (draft : ChartDraft) :
    Prop where
  enough : Fits data columns draft →
    draft.type = "table" ∨ AllNumbers numberOf data columns draft →
    Postable numberOf dumped data columns theme draft
  needed : Fits data columns draft → draft.type ≠ "table" →
    SomeNumbers numberOf data columns draft →
    ¬ Postable numberOf dumped data columns theme draft

/-! ## What is posted -/

section

variable {numberOf dumped} {data : List Row} {columns : List String} {theme : String}
  {draft : ChartDraft}

/-- What Python reads of a number that is sent. -/
structure SentNumber (value : Value) : Prop where
  given : isGiven value = true
  number : isNumber value = true
  checked : checkValue value = .ok ()
  scalar : isScalar value = true

theorem read_number (number : Number) : SentNumber number.read := by
  rcases number.finite with ⟨value, hread⟩ | ⟨repr, trunc, hread⟩
  · rw [hread]
    exact ⟨rfl, rfl, rfl, rfl⟩
  · rw [hread]
    exact ⟨rfl, rfl, rfl, rfl⟩

theorem cell_map {values : String → Value} {column : String} (hcolumn : column ∈ columns) :
    cell (columns.map fun column => (column, values column)) column = values column := by
  induction columns with
  | nil => cases hcolumn
  | cons first rest ih =>
    by_cases hfirst : first = column
    · subst hfirst
      simp [cell]
    · have hrest : column ∈ rest := (List.mem_cons.mp hcolumn).resolve_left fun hsame =>
        hfirst hsame.symm
      have hskip : cell ((first :: rest).map fun column => (column, values column)) column =
          cell (rest.map fun column => (column, values column)) column := by
        simp [cell, hfirst]
      rw [hskip, ih hrest]

/-- What is read of a cell. -/
def sentCell (numberOf : String → Option Number) (draft : ChartDraft) (row : Row)
    (column : String) : Value :=
  (chartCell numberOf (column = valueColumn draft) (row column)).read

theorem data_postedRequest : (postedRequest numberOf data columns theme draft).data =
    data.map fun row => columns.map fun column => (column, sentCell numberOf draft row column) := by
  simp only [postedRequest, chartRows, List.map_map, Function.comp_def, sentCell]

theorem sentCell_value {row : Row} : sentCell numberOf draft row (valueColumn draft) =
    ((chartNumber numberOf (row (valueColumn draft))).map Number.read).getD .none := by
  unfold sentCell chartCell
  cases row (valueColumn draft) with
  | null => rfl
  | _ =>
    dsimp only
    rw [decide_eq_true rfl, if_pos rfl]
    cases chartNumber numberOf _ <;> rfl

/-- The values of the value column are its numbers. -/
theorem measured_postedRequest (hcolumn : valueColumn draft ∈ columns) :
    (postedRequest numberOf data columns theme draft).measured (valueColumn draft) =
      (numbersOf numberOf data draft).map Number.read := by
  unfold ChartRequest.measured numbersOf
  rw [data_postedRequest, List.map_map]
  induction data with
  | nil => rfl
  | cons row rest ih =>
    rw [List.map_cons, Function.comp_apply, cell_map hcolumn, sentCell_value]
    cases hnumber : chartNumber numberOf (row (valueColumn draft)) with
    | none =>
      rw [List.filterMap_cons, hnumber]
      exact ih
    | some number =>
      rw [List.filterMap_cons, hnumber, Option.map_some, Option.getD_some,
        List.filter_cons_of_pos (read_number number).given, ih]
      rfl

/-- The numbers of a column are in its cells. -/
theorem exists_number_iff : numbersOf numberOf data draft ≠ [] ↔
    ∃ cell ∈ cellsOf data (valueColumn draft), (chartNumber numberOf cell).isSome = true := by
  have hfilled : ∀ cell, (chartNumber numberOf cell).isSome = true → isFilled cell = true := by
    intro cell hsome
    cases cell with
    | null => cases hsome
    | _ => rfl
  unfold cellsOf
  apply Iff.intro
  · intro hne
    obtain ⟨number, hnumber⟩ := List.exists_mem_of_ne_nil _ hne
    obtain ⟨row, hrow, hsome⟩ := List.mem_filterMap.mp hnumber
    have hisSome : (chartNumber numberOf (row (valueColumn draft))).isSome = true := by
      rw [hsome]
      rfl
    exact ⟨_, List.mem_filter.mpr ⟨List.mem_map_of_mem hrow, hfilled _ hisSome⟩, hisSome⟩
  · intro ⟨cell, hcell, hsome⟩
    obtain ⟨row, hrow, hsame⟩ := List.mem_map.mp (List.mem_filter.mp hcell).1
    obtain ⟨number, hnumber⟩ := Option.isSome_iff_exists.mp hsome
    rw [← hsame] at hnumber
    exact List.ne_nil_of_mem (List.mem_filterMap.mpr ⟨row, hrow, hnumber⟩)

/-- A cell beside the values is checked if it is sent as a text. -/
theorem checkValue_sentCell {row : Row} {column : String} :
    checkValue (sentCell numberOf draft row column) = .ok () ↔
      (column ≠ valueColumn draft → ∀ text ∈ textOfCell (row column), isTemplate text = false) := by
  by_cases hvalue : column = valueColumn draft
  · refine iff_of_true ?_ fun h => absurd hvalue h
    rw [hvalue, sentCell_value]
    cases chartNumber numberOf (row (valueColumn draft)) with
    | none => rfl
    | some number => exact (read_number number).checked
  · have htext : ∀ text, checkValue (Json.string text).read = .ok () ↔
        ∀ other ∈ some text, isTemplate other = false := by
      intro text
      rw [Json.read, checkValue, require_eq_ok, Bool.not_eq_true']
      simp
    unfold sentCell chartCell textOfCell
    rw [decide_eq_false hvalue]
    cases row column with
    | string text => exact (htext text).trans ⟨fun h _ => h, fun h => h hvalue⟩
    | array items => exact (htext _).trans ⟨fun h _ => h, fun h => h hvalue⟩
    | object members => exact (htext _).trans ⟨fun h _ => h, fun h => h hvalue⟩
    | number number => exact iff_of_true (read_number number).checked fun _ => nofun
    | _ => exact iff_of_true rfl fun _ => nofun

theorem isScalar_sentCell {row : Row} {column : String} :
    isScalar (sentCell numberOf draft row column) = true := by
  by_cases hvalue : column = valueColumn draft
  · rw [hvalue, sentCell_value]
    cases chartNumber numberOf (row (valueColumn draft)) with
    | none => rfl
    | some number => exact (read_number number).scalar
  · unfold sentCell chartCell
    rw [decide_eq_false hvalue]
    cases row column with
    | number number => exact (read_number number).scalar
    | _ => rfl

/-- The texts of the request are those of the draft, the names and the cells. -/
theorem authored_postedRequest :
    (∀ value ∈ (postedRequest numberOf data columns theme draft).authored,
      checkValue value = .ok ()) ↔
      isTemplate draft.title = false ∧ (∀ column ∈ columns, isTemplate column = false) ∧
        ∀ row ∈ data, ∀ column ∈ columns, column ≠ valueColumn draft →
          ∀ text ∈ textOfCell (row column), isTemplate text = false := by
  have htext : ∀ text, checkValue (.str text) = .ok () ↔ isTemplate text = false := by
    intro text
    rw [checkValue, require_eq_ok, Bool.not_eq_true']
  unfold ChartRequest.authored
  rw [List.cons_append, List.forall_mem_cons, List.forall_mem_append, data_postedRequest,
    List.forall_mem_map]
  simp only [htext, List.flatMap_map, List.mem_flatMap, forall_exists_index, and_imp, List.map_map,
    List.mem_map, Function.comp_apply]
  apply and_congr_right
  intro _
  apply and_congr_right
  intro _
  apply Iff.intro
  · intro h row hrow column hcolumn
    exact checkValue_sentCell.mp (h _ row hrow column hcolumn rfl)
  · intro h value row hrow column hcolumn hvalue
    rw [← hvalue]
    exact checkValue_sentCell.mpr (h row hrow column hcolumn)

/-- The fields of the request are as they have to be. -/
theorem fieldsValid_postedRequest (htype : draft.type ∈ snapshotTypes)
    (htheme : theme ∈ offeredThemes) :
    FieldsValid (postedRequest numberOf data columns theme draft) ↔
      (columns ≠ [] ∧ columns.length ≤ 80) ∧ (data ≠ [] ∧ data.length ≤ 1000) ∧
        draft.title.toList.length ≤ 160 ∧ (draft.format ≠ "" → draft.format ∈ numberFormats) := by
  have hlength : (postedRequest numberOf data columns theme draft).data.length = data.length := by
    rw [data_postedRequest, List.length_map]
  have hformat : (∀ format ∈ (postedRequest numberOf data columns theme draft).numberFormat,
      format ∈ numberFormats) ↔ (draft.format ≠ "" → draft.format ∈ numberFormats) := by
    unfold postedRequest
    dsimp only
    split
    next hempty => exact iff_of_true nofun fun h => absurd hempty h
    next hformat =>
      refine ⟨fun h _ => h _ rfl, fun h format hsame => ?_⟩
      cases hsame
      exact h hformat
  rw [← hformat]
  apply Iff.intro
  · intro h
    have hdata := h.data
    rw [hlength] at hdata
    exact ⟨⟨List.length_pos_iff.mp h.columns.1, h.columns.2⟩,
      ⟨List.length_pos_iff.mp hdata.1, hdata.2⟩, h.title, h.numberFormat⟩
  · intro ⟨hcolumns, hdata, htitle, hformats⟩
    refine ⟨⟨List.length_pos_iff.mpr hcolumns.1, hcolumns.2⟩, ?_, ?_, htype, htitle, htheme,
      hformats⟩
    · rw [hlength]
      exact ⟨List.length_pos_iff.mpr hdata.1, hdata.2⟩
    · rw [data_postedRequest]
      intro row hrow entry hentry
      obtain ⟨own, -, hsame⟩ := List.mem_map.mp hrow
      subst hsame
      obtain ⟨column, -, hsame⟩ := List.mem_map.mp hentry
      subst hsame
      exact isScalar_sentCell

/-- The browser sees no problem. -/
theorem chartProblem_eq_none (htype : draft.type ∈ snapshotTypes) :
    chartProblem draft data.length columns (numericChartColumns numberOf data columns) = none ↔
      Fits data columns draft ∧ (draft.type ≠ "table" → AllNumbers numberOf data columns draft) := by
  have hnumeric : draft.type ≠ "table" →
      ((numericChartColumns numberOf data columns).contains ((draft.fields "y").getD "") = true ↔
        AllNumbers numberOf data columns draft) := by
    intro htable
    have hcolumn : valueColumn draft = (draft.fields "y").getD "" := if_neg htable
    unfold AllNumbers numericChartColumns
    rw [hcolumn, List.contains_iff_mem, List.mem_filter, Bool.and_eq_true, decide_eq_true_eq,
      List.length_pos_iff, List.all_eq_true]
  unfold chartProblem
  rw [if_neg (by simpa using htype)]
  split
  next hrows => exact iff_of_false nofun fun h => Nat.not_lt.mpr h.1.height hrows
  next hrows =>
    split
    next hcolumns => exact iff_of_false nofun fun h => Nat.not_lt.mpr h.1.width hcolumns
    next hcolumns =>
      split
      next hkpi => exact iff_of_false nofun fun h => hkpi.2 (h.1.single hkpi.1)
      next hkpi =>
        split
        next hvalue =>
          refine iff_of_false nofun fun h => ?_
          rw [(hnumeric hvalue.1).mpr (h.2 hvalue.1)] at hvalue
          cases hvalue.2
        next hvalue =>
          split
          next haxis =>
            refine iff_of_false nofun fun h => ?_
            rw [List.contains_iff_mem.mpr (h.1.axis haxis.1 haxis.2.1)] at haxis
            cases haxis.2.2
          next haxis =>
            have hsingle : draft.type = "kpi" → data.length = 1 := fun htype =>
              by_contra fun hrow => hkpi ⟨htype, hrow⟩
            refine iff_of_true rfl ⟨⟨Nat.not_lt.mp hrows, Nat.not_lt.mp hcolumns, hsingle,
              fun htable hown => ?_⟩, fun htable => (hnumeric htable).mp ?_⟩
            · apply List.contains_iff_mem.mp
              by_contra hnot
              exact haxis ⟨htable, hown, by simp only [hnot, Bool.not_false]⟩
            · by_contra hnot
              exact hvalue ⟨htable, by simp only [hnot, Bool.not_false]⟩

theorem y_postedRequest {column : String}
    (hy : (postedRequest numberOf data columns theme draft).y = some column) :
    column = valueColumn draft := by
  unfold postedRequest at hy
  dsimp only at hy
  split at hy
  · cases hy
  · exact (Option.some.inj hy).symm

theorem y_of_ne_empty (hne : valueColumn draft ≠ "") :
    (postedRequest numberOf data columns theme draft).y = some (valueColumn draft) := if_neg hne

/-- A posted axis is the one that is chosen. -/
theorem x_postedRequest (htable : draft.type ≠ "table") (hkpi : draft.type ≠ "kpi") :
    (postedRequest numberOf data columns theme draft).x = draft.fields "x" :=
  if_neg fun hnone => hnone.elim htable hkpi

/-- **What is accepted** of what is posted: what the browser looks at, what it does not, and of
the value column one number. -/
theorem accepted_postedRequest (htype : draft.type ∈ snapshotTypes)
    (htheme : theme ∈ offeredThemes) :
    Accepted dumped (postedRequest numberOf data columns theme draft) ↔
      Fits data columns draft ∧ Postable numberOf dumped data columns theme draft ∧
        (draft.type ≠ "table" →
          valueColumn draft ∈ columns ∧ numbersOf numberOf data draft ≠ []) := by
  rw [Accepted, fieldsValid_postedRequest htype htheme, validateChart_eq_ok]
  apply Iff.intro
  · intro ⟨⟨hcolumns, hdata, htitle, hformat⟩, hvalid⟩
    obtain ⟨htitleText, hnameTexts, hcellTexts⟩ := authored_postedRequest.mp hvalid.values
    have hvalue : draft.type ≠ "table" →
        valueColumn draft ∈ columns ∧ numbersOf numberOf data draft ≠ [] := by
      intro htable
      obtain ⟨column, hy, -, hmeasures⟩ := hvalid.measure htable
      have hsame := y_postedRequest hy
      subst hsame
      have hcolumn : valueColumn draft ∈ columns := hvalid.fields _ (.inr (.inl hy))
      have hsome := hmeasures.some
      rw [measured_postedRequest hcolumn] at hsome
      exact ⟨hcolumn, fun hnone => hsome (by rw [hnone]; rfl)⟩
    refine ⟨⟨hdata.2, hcolumns.2, fun hkpi => ?_, fun htable hkpi => ?_⟩,
      ⟨hdata.1, hcolumns.1, hvalid.unique, hvalid.names, htitle, hformat, hvalid.size, htitleText,
        hnameTexts, hcellTexts, fun haccepts hseries => ?_, fun hround => ?_⟩, hvalue⟩
    · have hsingle := hvalid.single hkpi
      rw [data_postedRequest, List.length_map] at hsingle
      exact hsingle
    · obtain ⟨column, hx, -⟩ := hvalid.axis htable hkpi
      have hmem : column ∈ columns := hvalid.fields column (.inl hx)
      rw [x_postedRequest htable hkpi] at hx
      rw [hx]
      exact hmem
    · exact hvalid.fields _ (.inr (.inr (if_pos ⟨haccepts, hseries⟩)))
    · have htable : draft.type ≠ "table" := by
        intro htable
        rw [htable] at hround
        exact absurd hround (by decide)
      have hcolumn := (hvalue htable).1
      have hne := (hvalid.names _ hcolumn).1
      have hshares := hvalid.shares _ (y_of_ne_empty hne) hne hround
      rw [measured_postedRequest hcolumn, List.forall_mem_map] at hshares
      obtain ⟨value, hmem, hpositive⟩ := hshares.2
      obtain ⟨number, hnumber, hsame⟩ := List.mem_map.mp hmem
      exact ⟨hshares.1, number, hnumber, hsame ▸ hpositive⟩
  · intro ⟨hfits, hpost, hvalue⟩
    have hnamed : ∀ column ∈ columns, column ≠ "" := fun _ hcolumn => (hpost.names _ hcolumn).1
    refine ⟨⟨⟨hpost.someColumn, hfits.width⟩, ⟨hpost.someRow, hfits.height⟩, hpost.title,
      hpost.format⟩, hpost.unique, hpost.names, hpost.size, ?_, ?_, ?_, ?_, ?_, ?_⟩
    · exact authored_postedRequest.mpr ⟨hpost.titleText, hpost.nameTexts, hpost.cellTexts⟩
    · intro column hcolumn
      rcases hcolumn with hx | hy | hcolor
      · by_cases hown : draft.type = "table" ∨ draft.type = "kpi"
        · cases (if_pos hown).symm.trans hx
        · have htable : draft.type ≠ "table" := fun h => hown (.inl h)
          have hkpi : draft.type ≠ "kpi" := fun h => hown (.inr h)
          rw [x_postedRequest htable hkpi] at hx
          have haxis := hfits.axis htable hkpi
          rw [hx] at haxis
          exact haxis
      · have hsame := y_postedRequest hy
        subst hsame
        have htable : draft.type ≠ "table" := by
          intro htable
          have hempty : valueColumn draft = "" := if_pos htable
          cases (if_pos hempty).symm.trans hy
        exact (hvalue htable).1
      · by_cases hseries : acceptsSeries draft.type = true ∧ draft.series ≠ ""
        · cases (if_pos hseries).symm.trans hcolor
          exact hpost.series hseries.1 hseries.2
        · cases (if_neg hseries).symm.trans hcolor
    · intro htable
      obtain ⟨hcolumn, hsome⟩ := hvalue htable
      have hne := hnamed _ hcolumn
      refine ⟨_, y_of_ne_empty hne, hne, ?_, ?_⟩
      · rw [measured_postedRequest hcolumn]
        exact fun hnone => hsome (List.map_eq_nil_iff.mp hnone)
      · rw [measured_postedRequest hcolumn, List.forall_mem_map]
        exact fun number _ => (read_number number).number
    · intro htable hkpi
      rw [x_postedRequest htable hkpi]
      have haxis := hfits.axis htable hkpi
      cases hx : draft.fields "x" with
      | none =>
        rw [hx] at haxis
        exact absurd rfl (hnamed _ haxis)
      | some column =>
        rw [hx] at haxis
        exact ⟨column, rfl, hnamed _ haxis⟩
    · intro hkpi
      rw [data_postedRequest, List.length_map]
      exact hfits.single hkpi
    · intro column hy _ hround
      have hsame := y_postedRequest hy
      subst hsame
      have htable : draft.type ≠ "table" := by
        intro htable
        have hempty : valueColumn draft = "" := if_pos htable
        cases (if_pos hempty).symm.trans hy
      rw [measured_postedRequest (hvalue htable).1, List.forall_mem_map]
      obtain ⟨hshares, number, hnumber, hpositive⟩ := hpost.shares hround
      exact ⟨hshares, _, List.mem_map_of_mem hnumber, hpositive⟩

/-- A value column of numbers has one. -/
theorem numbersOf_ne_nil (hall : AllNumbers numberOf data columns draft) :
    numbersOf numberOf data draft ≠ [] := by
  obtain ⟨cell, hcell⟩ := List.exists_mem_of_ne_nil _ hall.2.1
  exact exists_number_iff.mpr ⟨cell, hcell, hall.2.2 cell hcell⟩

theorem someNumbers_iff : SomeNumbers numberOf data columns draft ↔
    (valueColumn draft ∈ columns ∧ numbersOf numberOf data draft ≠ []) ∧
      ¬ AllNumbers numberOf data columns draft := by
  unfold SomeNumbers AllNumbers
  rw [exists_number_iff]
  apply Iff.intro
  · intro ⟨hcolumn, hsome, cell, hcell, hnone⟩
    refine ⟨⟨hcolumn, hsome⟩, fun hall => ?_⟩
    have hisSome := hall.2.2 cell hcell
    rw [hnone] at hisSome
    cases hisSome
  · intro ⟨⟨hcolumn, hsome⟩, hnot⟩
    obtain ⟨number, hnumber, hisSome⟩ := hsome
    refine ⟨hcolumn, ⟨number, hnumber, hisSome⟩, by_contra fun hnone => hnot ⟨hcolumn, ?_, ?_⟩⟩
    · exact List.ne_nil_of_mem hnumber
    · intro cell hcell
      by_contra hother
      exact hnone ⟨cell, hcell, Option.not_isSome_iff_eq_none.mp hother⟩

/-- **The pre-check agrees with the renderer** if and only if what it does not look at holds
wherever what it looks at does, and fails where the value column has numbers and something else. -/
theorem chartProblem_agrees_iff (numberOf : String → Option Number) (dumped : ChartRequest → ℕ)
    (data : List Row) (columns : List String) (theme : String) (draft : ChartDraft)
    (htype : draft.type ∈ snapshotTypes) (htheme : theme ∈ offeredThemes) :
    Agrees numberOf dumped data columns theme draft ↔
      Tells numberOf dumped data columns theme draft := by
  unfold Agrees
  rw [chartProblem_eq_none htype, accepted_postedRequest htype htheme]
  apply Iff.intro
  · intro hagrees
    refine ⟨fun hfits hvalue => ?_, fun hfits htable hsome hpost => ?_⟩
    · exact (hagrees.mp ⟨hfits, fun htable => hvalue.resolve_left htable⟩).2.1
    · obtain ⟨hnumbers, hnot⟩ := someNumbers_iff.mp hsome
      exact hnot ((hagrees.mpr ⟨hfits, hpost, fun _ => hnumbers⟩).2 htable)
  · intro htells
    apply Iff.intro
    · intro ⟨hfits, hvalue⟩
      refine ⟨hfits, htells.enough hfits ?_, fun htable =>
        ⟨(hvalue htable).1, numbersOf_ne_nil (hvalue htable)⟩⟩
      by_cases htable : draft.type = "table"
      · exact .inl htable
      · exact .inr (hvalue htable)
    · intro ⟨hfits, hpost, hvalue⟩
      refine ⟨hfits, fun htable => by_contra fun hnot => ?_⟩
      exact htells.needed hfits htable (someNumbers_iff.mpr ⟨hvalue htable, hnot⟩) hpost

end

/-! ## Concrete charts -/

/-- A table of one cell. -/
def tableDraft (title : String) : ChartDraft := ⟨"table", fun _ => none, "", title, ""⟩

theorem chartProblem_agrees_of_table : Agrees (fun _ => none) (fun _ => 153)
    [fun _ => .string "Berlin"] ["city"] "paper" (tableDraft "Cities") := by
  refine (chartProblem_agrees_iff _ _ _ _ _ _ (by decide) (by decide)).mpr
    ⟨fun _ _ => ?_, fun _ htable => absurd rfl htable⟩
  exact
    { someRow := by decide
      someColumn := by decide
      unique := by decide
      names := by decide
      title := by decide
      format := fun h => absurd rfl h
      size := by decide
      titleText := by decide
      nameTexts := by decide
      cellTexts := by decide
      series := by decide
      shares := by decide }

/-- A title that is read as a template. -/
theorem not_agrees_of_template : ¬ ∀ numberOf dumped data columns theme draft,
    draft.type ∈ snapshotTypes → theme ∈ offeredThemes →
    Agrees numberOf dumped data columns theme draft := by
  intro hclaim
  have hagrees := hclaim (fun _ => none) (fun _ => 151) [fun _ => .string "Berlin"] ["city"] "paper"
    (tableDraft "\x7b\x7b a") (by decide) (by decide)
  obtain ⟨-, hvalid⟩ := hagrees.mp rfl
  cases hvalid

end DbtCraft.Web.QueryChart
