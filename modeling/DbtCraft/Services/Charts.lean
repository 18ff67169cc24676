/-
# Requests for a chart

`ChartRequest` of `app/services/charts.py`: the constraints on its fields and `validate_chart`, on
a body as its JSON is read. How long the request is when it is written out is a parameter.
-/

import DbtCraft.Exceptions
import DbtCraft.Python.Text
import DbtCraft.Python.Value
import Mathlib.Data.List.Nodup
import Mathlib.Data.List.ReduceOption

namespace DbtCraft.Services.Charts

open DbtCraft.Python

/-- `ChartType`. -/
def chartTypes : List String := ["bar", "line", "area", "scatter", "pie", "donut", "kpi", "table"]

/-- `NumberFormat`. -/
def numberFormats : List String :=
  ["integer", "number", "number_full", "currency", "currency_whole", "currency_full", "percent",
    "percent_whole", "percent_delta"]

/-- The values of `theme`. -/
def themes : List String := ["clarity", "paper", "vivid", "neon", "stark"]

/-- `MAX_BYTES`. -/
def maxBytes : ℕ := 2000000

/-- The fields of a request. -/
structure ChartRequest where
  columns : List String
  data : List (List (String × Value))
  chartType : String
  title : String
  x : Option String
  y : Option String
  color : Option String
  theme : String
  numberFormat : Option String

/-! ## The constraints on the fields -/

/-- `str | int | float | bool | None`. -/
def isScalar : Value → Bool
  | .none | .bool _ | .int _ | .float _ _ | .nonFinite _ | .str _ => true
  | .list _ | .dict _ | .object _ _ => false

/-- The constraints on the fields. -/
structure FieldsValid (request : ChartRequest) : Prop where
  columns : 1 ≤ request.columns.length ∧ request.columns.length ≤ 80
  data : 1 ≤ request.data.length ∧ request.data.length ≤ 1000
  cells : ∀ row ∈ request.data, ∀ entry ∈ row, isScalar entry.2 = true
  chartType : request.chartType ∈ chartTypes
  title : request.title.toList.length ≤ 160
  theme : request.theme ∈ themes
  numberFormat : ∀ format ∈ request.numberFormat, format ∈ numberFormats

/-! ## `validate_chart` -/

/-- `if not condition: raise ValueError(message)`. -/
def require (condition : Bool) (message : String) : Except String PUnit :=
  if condition then .ok () else .error message

/-- `row.get(column)`. -/
def cell (row : List (String × Value)) (column : String) : Value :=
  ((row.find? (·.1 = column)).map (·.2)).getD .none

/-- `value is not None`. -/
def isGiven : Value → Bool
  | .none => false
  | _ => true

/-- A text is read as a template. -/
def isTemplate (text : String) : Bool :=
  contains "\x7b\x7b" text || contains "\x7b%" text || contains "\x7b#" text

/-- A text or a number of the request. -/
def checkValue : Value → Except String PUnit
  | .str text =>
    require (!isTemplate text) "Template expressions are not supported in chart snapshots"
  | .nonFinite _ => .error "Chart numbers must be finite"
  | _ => .ok ()

/-- `isinstance(value, (int, float))`, and no `bool`. -/
def isNumber : Value → Bool
  | .int _ | .float _ _ | .nonFinite _ => true
  | _ => false

/-- `value < 0`. -/
def isNegative : Value → Bool
  | .int value => value < 0
  | .float repr _ => startsWith repr "-" && repr ≠ "-0.0"
  | .nonFinite repr => repr = "-inf"
  | _ => false

/-- `value > 0`. -/
def isPositive : Value → Bool
  | .int value => 0 < value
  | .float repr _ => !startsWith repr "-" && repr ≠ "0.0"
  | .nonFinite repr => repr = "inf"
  | _ => false

namespace ChartRequest

variable (request : ChartRequest)

/-- The values of the column that is measured. -/
def measured (column : String) : List Value :=
  (request.data.map fun row => cell row column).filter isGiven

/-- The texts and values that are checked one by one. -/
def authored : List Value :=
  .str request.title :: request.columns.map .str ++ request.data.flatMap (·.map (·.2))

end ChartRequest

/-- The type has a value column, and there are numbers in it. -/
def checkMeasure (request : ChartRequest) : Except String PUnit := do
  if request.chartType ≠ "table" then
    match request.y.filter (· ≠ "") with
    | none => .error "Choose a numeric value column"
    | some column =>
      require (!(request.measured column).isEmpty && (request.measured column).all isNumber)
        "The value column must contain numbers, not text or booleans"

/-- The values of a pie are no less than nothing, and some are more. -/
def checkShares (request : ChartRequest) : Except String PUnit :=
  match request.y.filter (· ≠ "") with
  | some column =>
    require (! ["pie", "donut"].contains request.chartType ||
      !(request.measured column).any isNegative && (request.measured column).any isPositive)
      "Pie and donut values must be non-negative with a positive total"
  | none => .ok ()

/-- `validate_chart`; `dumped` is the length of `model_dump_json().encode()`. -/
def validateChart (dumped : ChartRequest → ℕ) (request : ChartRequest) : Except String PUnit := do
  require (decide request.columns.Nodup) "Column names must be unique"
  require (request.columns.all fun column => column ≠ "" && decide (column.toList.length ≤ 200))
    "Column names must contain 1–200 characters"
  require (dumped request ≤ maxBytes) "Chart data exceeds the 2 MB limit"
  request.authored.forM checkValue
  require ([request.x, request.y, request.color].reduceOption.all request.columns.contains)
    "Choose chart fields from the result columns"
  checkMeasure request
  require (["table", "kpi"].contains request.chartType || request.x.any (· ≠ ""))
    "Choose a category or X-axis column"
  require (request.chartType ≠ "kpi" || request.data.length = 1)
    "KPI requires exactly one result row; aggregate your SQL first"
  checkShares request

/-- The request is accepted. -/
def Accepted (dumped : ChartRequest → ℕ) (request : ChartRequest) : Prop :=
  FieldsValid request ∧ validateChart dumped request = .ok ()

/-! ## What is accepted -/

variable {dumped : ChartRequest → ℕ} {request : ChartRequest}

theorem require_eq_ok {condition : Bool} {message : String} :
    require condition message = .ok () ↔ condition = true := by
  unfold require
  split
  next hcondition => exact iff_of_true rfl hcondition
  next hcondition => exact iff_of_false nofun hcondition

/-- The numbers of the value column. -/
structure Measures (request : ChartRequest) (column : String) : Prop where
  some : request.measured column ≠ []
  numbers : ∀ value ∈ request.measured column, isNumber value = true

theorem checkMeasure_eq_ok : checkMeasure request = .ok () ↔
    (request.chartType ≠ "table" →
      ∃ column, request.y = some column ∧ column ≠ "" ∧ Measures request column) := by
  unfold checkMeasure
  by_cases htable : request.chartType = "table"
  · rw [if_neg (not_not.mpr htable)]
    exact iff_of_true rfl fun h => absurd htable h
  · rw [if_pos htable]
    cases hy : request.y.filter (· ≠ "") with
    | none =>
      refine iff_of_false nofun fun h => ?_
      obtain ⟨column, hcolumn, hne, -⟩ := h htable
      rw [hcolumn, Option.filter_some, if_pos (decide_eq_true hne)] at hy
      cases hy
    | some column =>
      obtain ⟨hcolumn, hne⟩ := Option.filter_eq_some_iff.mp hy
      dsimp only
      rw [require_eq_ok, Bool.and_eq_true, List.all_eq_true, Bool.not_eq_true',
        List.isEmpty_eq_false_iff]
      apply Iff.intro
      · exact fun h _ => ⟨column, hcolumn, of_decide_eq_true hne, h.1, h.2⟩
      · intro h
        obtain ⟨other, hother, -, hmeasures⟩ := h htable
        cases hcolumn.symm.trans hother
        exact ⟨hmeasures.some, hmeasures.numbers⟩

theorem checkShares_eq_ok : checkShares request = .ok () ↔
    ∀ column, request.y = some column → column ≠ "" →
      request.chartType = "pie" ∨ request.chartType = "donut" →
      (∀ value ∈ request.measured column, isNegative value = false) ∧
        ∃ value ∈ request.measured column, isPositive value = true := by
  unfold checkShares
  cases hy : request.y.filter (· ≠ "") with
  | none =>
    refine iff_of_true rfl fun column hcolumn hne => ?_
    rw [hcolumn, Option.filter_some, if_pos (decide_eq_true hne)] at hy
    cases hy
  | some column =>
    obtain ⟨hcolumn, hne⟩ := Option.filter_eq_some_iff.mp hy
    have hshares : (["pie", "donut"].contains request.chartType = true) ↔
        request.chartType = "pie" ∨ request.chartType = "donut" := by simp
    dsimp only
    rw [require_eq_ok, Bool.or_eq_true, Bool.not_eq_true', ← Bool.not_eq_true, hshares,
      Bool.and_eq_true, Bool.not_eq_true', List.any_eq_false, List.any_eq_true]
    simp only [Bool.not_eq_true]
    apply Iff.intro
    · intro h other hother _ hround
      cases hcolumn.symm.trans hother
      exact h.resolve_left (not_not.mpr hround)
    · exact fun h => or_iff_not_imp_left.mpr fun hround =>
        h column hcolumn (of_decide_eq_true hne) (not_not.mp hround)

/-- What `validate_chart` asks for. -/
structure Validated (dumped : ChartRequest → ℕ) (request : ChartRequest) : Prop where
  unique : request.columns.Nodup
  names : ∀ column ∈ request.columns, column ≠ "" ∧ column.toList.length ≤ 200
  size : dumped request ≤ maxBytes
  values : ∀ value ∈ request.authored, checkValue value = .ok ()
  fields : ∀ column, request.x = some column ∨ request.y = some column ∨
    request.color = some column → column ∈ request.columns
  measure : request.chartType ≠ "table" →
    ∃ column, request.y = some column ∧ column ≠ "" ∧ Measures request column
  axis : request.chartType ≠ "table" → request.chartType ≠ "kpi" →
    ∃ column, request.x = some column ∧ column ≠ ""
  single : request.chartType = "kpi" → request.data.length = 1
  shares : ∀ column, request.y = some column → column ≠ "" →
    request.chartType = "pie" ∨ request.chartType = "donut" →
    (∀ value ∈ request.measured column, isNegative value = false) ∧
      ∃ value ∈ request.measured column, isPositive value = true

theorem bind_unit_eq_ok {first : Except String PUnit} {next : PUnit → Except String PUnit} :
    (first >>= next) = .ok () ↔ first = .ok () ∧ next () = .ok () := by
  rw [bind_eq_ok]
  exact ⟨fun ⟨_, hfirst, hnext⟩ => ⟨hfirst, hnext⟩, fun h => ⟨(), h⟩⟩

theorem reduceOption_all {x y color : Option String} {columns : List String} :
    [x, y, color].reduceOption.all columns.contains = true ↔
      ∀ column, x = some column ∨ y = some column ∨ color = some column → column ∈ columns := by
  rw [List.all_eq_true]
  apply forall_congr'
  intro column
  rw [List.reduceOption_mem_iff, List.contains_iff_mem]
  simp only [List.mem_cons, List.not_mem_nil, or_false, eq_comm]

/-- **`validate_chart` passes** what meets each of its checks. -/
theorem validateChart_eq_ok : validateChart dumped request = .ok () ↔ Validated dumped request := by
  have hnames : (request.columns.all fun column =>
      column ≠ "" && decide (column.toList.length ≤ 200)) = true ↔
      ∀ column ∈ request.columns, column ≠ "" ∧ column.toList.length ≤ 200 := by
    simp only [List.all_eq_true, Bool.and_eq_true, decide_eq_true_eq]
  have haxis : (["table", "kpi"].contains request.chartType || request.x.any (· ≠ "")) = true ↔
      (request.chartType ≠ "table" → request.chartType ≠ "kpi" →
        ∃ column, request.x = some column ∧ column ≠ "") := by
    cases request.x with
    | none => simp [Classical.or_iff_not_imp_left]
    | some column => simp [Classical.or_iff_not_imp_left]
  have hsingle : (request.chartType ≠ "kpi" || request.data.length = 1 : Bool) = true ↔
      (request.chartType = "kpi" → request.data.length = 1) := by
    simp [Classical.or_iff_not_imp_left]
  unfold validateChart
  simp only [bind_unit_eq_ok, require_eq_ok, forM_eq_ok, reduceOption_all, checkMeasure_eq_ok,
    checkShares_eq_ok, hnames, haxis, hsingle, decide_eq_true_eq]
  exact ⟨fun ⟨h₁, h₂, h₃, h₄, h₅, h₆, h₇, h₈, h₉⟩ => ⟨h₁, h₂, h₃, h₄, h₅, h₆, h₇, h₈, h₉⟩,
    fun h => ⟨h.unique, h.names, h.size, h.values, h.fields, h.measure, h.axis, h.single, h.shares⟩⟩

end DbtCraft.Services.Charts
