/-
# The output of `dbt show`

`_parse_dbt_show_output` of `app/services/dbt_service.py`, which looks for the rows in what dbt
has printed, and how `DbtWarmWorker.run` of `app/services/dbt_worker.py` comes by that text. The
JSON that dbt prints is found from the first opening brace to the last closing one of all the
output.
-/

import DbtCraft.Exceptions
import DbtCraft.Python.JsonText
import DbtCraft.Python.Splitting
import Mathlib.Data.List.DropRight

namespace DbtCraft.Services.ShowOutput

open DbtCraft.Python DbtCraft.Python.JsonText
open DbtCraft.Python.Json (writeString)

/-- Rows, and the names of their columns. -/
structure Shown where
  data : List Document
  columns : List String

/-! ## Dicts -/

/-- The member of a dict under a name; the last of several members counts. -/
def get (name : String) (members : List (String × Document)) : Option Document :=
  (members.reverse.find? fun member => member.1 = name).map (·.2)

/-- `list(row.keys())`. -/
def keys (members : List (String × Document)) : List String := (members.map Prod.fst).eraseDups

/-- `list(data[0].keys()) if data else []`; `none` is an `AttributeError`. -/
def columnsOf : List Document → Option (List String)
  | [] => some []
  | .dict members :: _ => some (keys members)
  | _ :: _ => none

/-! ## The stages -/

/-- `"show"`, with its quotes. -/
def showKey : List Char := ['"', 's', 'h', 'o', 'w', '"']

/-- What the first pattern finds: from the first opening brace to the last closing one. -/
def showRegion (stdout : List Char) : Option (List Char) :=
  match stdout.dropWhile (· ≠ '{') with
  | [] => none
  | brace :: rest =>
    if showKey <:+: rest.rdropWhile (· ≠ '}') then some (brace :: rest.rdropWhile (· ≠ '}'))
    else none

/-- What the second pattern finds. -/
def arrayRegion (stdout : List Char) : Option (List Char) :=
  match stdout.dropWhile (· ≠ '[') with
  | [] => none
  | bracket :: rest =>
    if rest.rdropWhile (· ≠ ']') ≠ [] then some (bracket :: rest.rdropWhile (· ≠ ']')) else none

/-- What comes of a stage: an exception, nothing, or rows. -/
abbrev Stage := Option (Option Shown)

def objectStage (stdout : List Char) : Stage :=
  match showRegion stdout with
  | none => some none
  | some region =>
    match loads region with
    | none => none
    | some (.dict members) =>
      match get "show" members with
      | some (.list data) => (columnsOf data).map fun columns => some ⟨data, columns⟩
      | _ => some none
    | some _ => some none

def arrayStage (stdout : List Char) : Stage :=
  match arrayRegion stdout with
  | none => some none
  | some region =>
    match loads region with
    | none => none
    | some (.list (row :: rest)) =>
      (columnsOf (row :: rest)).map fun columns => some ⟨row :: rest, columns⟩
    | some _ => some none

/-- A line that is read as a row. -/
def addLine (shown : Shown) (line : List Char) : Shown :=
  let line := stripped line
  if line.head? = some '{' ∧ line.getLast? = some '}' then
    match loads line with
    | some (.dict members) =>
      ⟨shown.data ++ [Document.dict members], if shown.columns = [] then keys members else shown.columns⟩
    | _ => shown
  else shown

def lineStage (stdout : List Char) : Stage :=
  let shown := (split '\n' (stripped stdout)).foldl addLine ⟨[], []⟩
  some (if shown.data = [] then none else some shown)

/-! ## Tables -/

/-- `int(text)` and `float(text)`; `none` is a `ValueError`. -/
structure Numbers where
  int : List Char → Option Document
  float : List Char → Option Document

variable (numbers : Numbers)

/-- A cell of a table. -/
def cell (value : List Char) : Document :=
  match if '.' ∈ value then numbers.float value else numbers.int value with
  | some number => number
  | none =>
    if String.ofList (value.map Char.toLower) ∈ ["null", "none", ""] then .word .null
    else .string (String.ofList value)

/-- Where the reader of a table is: it has the columns once it is in the table. -/
structure Table where
  columns : Option (List String)
  data : List Document

def addTableLine (table : Table) (line : List Char) : Table :=
  let bare := stripped line
  if bare = [] ∨ ['-', '-', '-'] <+: bare ∨ bare.all (['-', '|', '+', ' '].contains ·) = true then table
  else if '|' ∈ line then
    let parts := ((split '|' line).map stripped).filter fun part => part ≠ []
    match table.columns with
    | none => ⟨some (parts.map String.ofList), table.data⟩
    | some columns =>
      if parts.length = columns.length then
        ⟨some columns, table.data ++ [Document.dict (columns.zip (parts.map (cell numbers)))]⟩
      else table
  else table

/-- `_parse_table_output`. -/
def parseTableOutput (stdout : List Char) : Shown :=
  let table := (split '\n' (stripped stdout)).foldl (addTableLine numbers) ⟨none, []⟩
  ⟨table.data, table.columns.getD []⟩

/-- `_parse_dbt_show_output`; every exception leads to the table. -/
def parseDbtShowOutput (stdout : List Char) : Shown :=
  match objectStage stdout with
  | some (some shown) => shown
  | none => parseTableOutput numbers stdout
  | some none =>
    match arrayStage stdout with
    | some (some shown) => shown
    | none => parseTableOutput numbers stdout
    | some none =>
      match lineStage stdout with
      | some (some shown) => shown
      | _ => parseTableOutput numbers stdout

/-! ## The warm worker -/

/-- The reading loop of `DbtWarmWorker.run`: the response, and the lines that have leaked before
it. -/
def awaitResponse (requestId : String) (leaked : List Char) :
    List (List Char) → Except Raised (List (String × Document) × List Char)
  | [] => .error .runtimeError
  | line :: rest =>
    match loads line with
    | none => awaitResponse requestId (leaked ++ line) rest
    | some (.dict members) =>
      match get "id" members with
      | some (.string id) =>
        if id = requestId then .ok (members, leaked)
        else awaitResponse requestId (leaked ++ line) rest
      | _ => awaitResponse requestId (leaked ++ line) rest
    | some _ => .error .attributeError

/-- `str(response.get("stdout", ""))` of a text. -/
def printed (response : List (String × Document)) : List Char :=
  match get "stdout" response with
  | some (.string text) => text.toList
  | _ => []

/-- The output that `DbtWarmWorker.run` returns. -/
def workerStdout (requestId : String) (lines : List (List Char)) : Except Raised (List Char) :=
  (awaitResponse requestId [] lines).map fun found => found.2 ++ printed found.1

/-! ## What dbt prints -/

/-- The result of a query; an inline query has no node. -/
structure ShowBlock where
  node : Option String
  rows : List (List (String × Document))

/-- The JSON block of `dbt show`. -/
def ShowBlock.text (block : ShowBlock) : List Char :=
  dumps 2 (.dict ((block.node.map fun node => ("node", Document.string node)).toList ++
    [("show", .list (block.rows.map .dict))]))

/-- The rows and the columns of a block. -/
def ShowBlock.shown (block : ShowBlock) : Shown :=
  ⟨block.rows.map .dict, (block.rows.head?.map keys).getD []⟩

/-- The parser reads the block and nothing else, and returns its rows and columns. -/
structure Faithful (before : List Char) (block : ShowBlock) (after : List Char) : Prop where
  region : showRegion (before ++ (block.text ++ after)) = some block.text
  shown : parseDbtShowOutput numbers (before ++ (block.text ++ after)) = block.shown

variable {numbers} {before after text own other : List Char} {block : ShowBlock} {c : Char}

/-! ## The region -/

theorem exists_text (block : ShowBlock) :
    ∃ lead trail, block.text = '{' :: (lead ++ (showKey ++ trail) ++ ['}']) := by
  have hkey : writeString "show" = showKey := by decide
  cases hnode : block.node with
  | none =>
    refine ⟨newline 2 1, ':' :: ' ' :: (write 2 1 (.list (block.rows.map .dict)) ++ newline 2 0), ?_⟩
    simp [ShowBlock.text, hnode, dumps, write, writeMembers, enclose, hkey]
  | some node =>
    refine ⟨newline 2 1 ++ (writeString "node" ++ ':' :: ' ' :: (writeString node ++
      ',' :: newline 2 1)), ':' :: ' ' :: (write 2 1 (.list (block.rows.map .dict)) ++ newline 2 0),
      ?_⟩
    simp [ShowBlock.text, hnode, dumps, write, writeMembers, enclose, hkey]

/-- What stands before a kept letter is kept. -/
theorem prefix_rdropWhile {keep : Char → Bool} (hc : keep c = false) :
    own ++ [c] <+: (own ++ c :: other).rdropWhile keep := by
  have hsplit : own ++ c :: other = (own ++ [c]) ++ other := by
    rw [List.append_assoc, List.singleton_append]
  rw [hsplit, List.rdropWhile, List.reverse_append, List.dropWhile_append]
  split
  · rw [List.reverse_append, List.reverse_singleton, List.singleton_append,
      List.dropWhile_cons_of_neg (by simp [hc]), List.reverse_cons, List.reverse_reverse]
  · rw [List.reverse_append, List.reverse_reverse]
    exact List.prefix_append _ _

theorem rdropWhile_append {keep : Char → Bool} (hc : keep c = false)
    (hother : ∀ d ∈ other, keep d = true) :
    (own ++ c :: other).rdropWhile keep = own ++ [c] := by
  have hback : ∀ d ∈ other.reverse, keep d = true := fun d hd => hother d (List.mem_reverse.mp hd)
  have hsplit : (own ++ c :: other).reverse = other.reverse ++ c :: own.reverse := by simp
  rw [List.rdropWhile, hsplit, List.dropWhile_append_of_pos hback,
    List.dropWhile_cons_of_neg (by simp [hc]), List.reverse_cons, List.reverse_reverse]

/-- Without a brace before it and after it the block is the region. -/
theorem showRegion_block (hbefore : '{' ∉ before) (hafter : '}' ∉ after) :
    showRegion (before ++ (block.text ++ after)) = some block.text := by
  obtain ⟨lead, trail, htext⟩ := exists_text block
  have hall : ∀ c ∈ before, decide (c ≠ '{') = true := fun c hc =>
    decide_eq_true fun hsame => hbefore (hsame ▸ hc)
  have hnone : ∀ c ∈ after, decide (c ≠ '}') = true := fun c hc =>
    decide_eq_true fun hsame => hafter (hsame ▸ hc)
  have hrest : (lead ++ (showKey ++ trail) ++ ['}'] ++ after).rdropWhile (· ≠ '}') =
      lead ++ (showKey ++ trail) ++ ['}'] := by
    rw [List.append_assoc, List.singleton_append]
    exact rdropWhile_append (by decide) hnone
  have hkey : showKey <:+: lead ++ (showKey ++ trail) ++ ['}'] :=
    ⟨lead, trail ++ ['}'], by simp⟩
  rw [showRegion, List.dropWhile_append_of_pos hall, htext, List.cons_append,
    List.dropWhile_cons_of_neg (by decide)]
  simp only [hrest, hkey, if_true]

/-- With one of them the region is longer. -/
theorem showRegion_ne (hbraces : '{' ∈ before ∨ '}' ∈ after) :
    showRegion (before ++ (block.text ++ after)) ≠ some block.text := by
  obtain ⟨lead, trail, htext⟩ := exists_text block
  generalize hbody : lead ++ (showKey ++ trail) = body at htext
  intro hregion
  -- the region is a brace and what follows it up to the last closing brace
  have hlength : ∀ rest, (before ++ (block.text ++ after)).dropWhile (· ≠ '{') = '{' :: rest →
      (rest.rdropWhile (· ≠ '}')).length = body.length + 1 := by
    intro rest hrest
    rw [showRegion, hrest] at hregion
    simp only at hregion
    split at hregion
    · have hsame := Option.some.inj hregion
      rw [htext] at hsame
      have hinner := congrArg List.length (List.cons.inj hsame).2
      rwa [List.length_append, List.length_singleton] at hinner
    · cases hregion
  by_cases hopen : '{' ∈ before
  · obtain ⟨first, later, hsplit, hfirst⟩ := List.eq_append_cons_of_mem hopen
    have hall : ∀ c ∈ first, decide (c ≠ '{') = true := fun c hc =>
      decide_eq_true fun hsame => hfirst (hsame ▸ hc)
    have hdrop : (before ++ (block.text ++ after)).dropWhile (· ≠ '{') =
        '{' :: (later ++ '{' :: body ++ '}' :: after) := by
      rw [hsplit, List.append_assoc, List.dropWhile_append_of_pos hall, List.cons_append,
        List.dropWhile_cons_of_neg (by decide), htext]
      simp
    have hkept : (later ++ '{' :: body ++ ['}']) <+:
        (later ++ '{' :: body ++ '}' :: after).rdropWhile (· ≠ '}') := prefix_rdropWhile (by decide)
    have hless := hkept.length_le
    rw [hlength _ hdrop] at hless
    simp only [List.length_append, List.length_cons, List.length_nil] at hless
    omega
  · have hclose : '}' ∈ after := hbraces.resolve_left hopen
    obtain ⟨first, later, hsplit⟩ := List.append_of_mem hclose
    have hall : ∀ c ∈ before, decide (c ≠ '{') = true := fun c hc =>
      decide_eq_true fun hsame => hopen (hsame ▸ hc)
    have hdrop : (before ++ (block.text ++ after)).dropWhile (· ≠ '{') =
        '{' :: (body ++ '}' :: first ++ '}' :: later) := by
      rw [List.dropWhile_append_of_pos hall, htext, List.cons_append,
        List.dropWhile_cons_of_neg (by decide), hsplit]
      simp
    have hkept : (body ++ '}' :: first ++ ['}']) <+:
        (body ++ '}' :: first ++ '}' :: later).rdropWhile (· ≠ '}') := prefix_rdropWhile (by decide)
    have hless := hkept.length_le
    rw [hlength _ hdrop] at hless
    simp only [List.length_append, List.length_cons, List.length_nil] at hless
    omega

theorem showRegion_eq_iff : showRegion (before ++ (block.text ++ after)) = some block.text ↔
    '{' ∉ before ∧ '}' ∉ after := by
  apply Iff.intro
  · intro hregion
    apply And.intro
    · exact fun hbefore => showRegion_ne (.inl hbefore) hregion
    · exact fun hafter => showRegion_ne (.inr hafter) hregion
  · exact fun hplain => showRegion_block hplain.1 hplain.2

/-! ## The rows -/

theorem get_show (block : ShowBlock) :
    get "show" ((block.node.map fun node => ("node", Document.string node)).toList ++
      [("show", .list (block.rows.map .dict))]) = some (.list (block.rows.map .dict)) := by
  simp [get]

/-- Rows that are dicts have columns. -/
theorem columnsOf_rows (block : ShowBlock) :
    columnsOf (block.rows.map .dict) = some block.shown.columns := by
  rw [ShowBlock.shown]
  cases block.rows with
  | nil => rfl
  | cons row rest => rfl

/-- A region that is the block has its rows. -/
theorem parse_of_region {stdout : List Char} (hregion : showRegion stdout = some block.text) :
    parseDbtShowOutput numbers stdout = block.shown := by
  have hstage : objectStage stdout = some (some block.shown) := by
    rw [objectStage, hregion]
    simp only
    rw [ShowBlock.text, loads_dumps]
    simp only
    rw [get_show]
    simp only
    rw [columnsOf_rows]
    rfl
  rw [parseDbtShowOutput, hstage]

/-- **The rows of `dbt show` are read** just if no opening brace stands before them in the output
and no closing one after them. -/
theorem faithful_iff (numbers : Numbers) (before : List Char) (block : ShowBlock)
    (after : List Char) : Faithful numbers before block after ↔ '{' ∉ before ∧ '}' ∉ after := by
  rw [← showRegion_eq_iff]
  apply Iff.intro
  · exact fun hfaithful => hfaithful.region
  · exact fun hregion => ⟨hregion, parse_of_region hregion⟩

/-- What a worker has leaked stands before what it has printed. -/
theorem exists_leaked {requestId : String} {lines : List (List Char)}
    {response : List (String × Document)} {leaked found : List Char}
    (hfound : awaitResponse requestId leaked lines = .ok (response, found)) :
    ∃ earlier line later, lines = earlier ++ line :: later ∧ found = leaked ++ earlier.flatten ∧
      loads line = some (.dict response) := by
  induction lines generalizing leaked with
  | nil => cases hfound
  | cons line rest ih =>
    have hlater : awaitResponse requestId (leaked ++ line) rest = .ok (response, found) →
        ∃ earlier own later, line :: rest = earlier ++ own :: later ∧
          found = leaked ++ earlier.flatten ∧ loads own = some (.dict response) := by
      intro hrest
      obtain ⟨earlier, own, later, hlines, hleaked, hown⟩ := ih hrest
      refine ⟨line :: earlier, own, later, by rw [hlines, List.cons_append], ?_, hown⟩
      rw [hleaked, List.flatten_cons, List.append_assoc]
    rw [awaitResponse] at hfound
    split at hfound
    · exact hlater hfound
    next members hloads =>
      split at hfound
      · split at hfound
        · obtain ⟨hmembers, hleaked⟩ := Prod.mk.inj (Except.ok.inj hfound)
          exact ⟨[], line, rest, rfl, by rw [← hleaked, List.flatten_nil, List.append_nil],
            hmembers ▸ hloads⟩
        · exact hlater hfound
      · exact hlater hfound
    · cases hfound

/-! ## A brace in a log line -/

/-- One row with one column. -/
def oneRow : ShowBlock := ⟨some "orders", [[("id", .number ⟨['1'], by decide⟩)]]⟩

/-- Behind a brace the rows are looked for in a table. -/
theorem not_faithful_of_brace :
    ¬ ∀ numbers before block after, Faithful numbers before block after := by
  intro hclaim
  have hshown := (hclaim ⟨fun _ => none, fun _ => none⟩ "\x7b\x7b ref \x7d\x7d\n".toList oneRow []).shown
  have hcolumns := congrArg Shown.columns hshown
  exact absurd hcolumns (by decide +kernel)

end DbtCraft.Services.ShowOutput
