/-
# The result of a load

The line in which `ingest/runner.py` reports its result, and how `_stream_process` of
`app/routers/ingest.py` reads it among the log lines: scrubbed, cut where it is too long, and
taken as it is when it is no JSON. What `json.loads` raises besides a `JSONDecodeError`, as on
a text that nests too deep, is not caught.
-/

import DbtCraft.Exceptions
import DbtCraft.Python.JsonLine
import DbtCraft.Python.Unquote
import DbtCraft.Routers.Ingest
import DbtCraft.Routers.IngestScrub
import Mathlib.Data.List.Forall2

namespace DbtCraft.Routers.IngestResult

open DbtCraft.Python DbtCraft.Python.JsonText
open DbtCraft.Python.Json (writeString skipBlanks)
open DbtCraft.Python.Url (decodeReplacing decodeReplacing_encode)
open DbtCraft.Routers.Ingest (maxLineBytes streamLimit)
open DbtCraft.Routers.IngestScrub

/-! ## What the runner reports -/

/-- `_DATASET_RE`. -/
def isDataset : Text → Bool
  | c :: rest => c.isLower && rest.length ≤ 39 &&
      rest.all fun d => d.isLower || d.isDigit || d = '_'
  | [] => false

/-- A name that `_TABLE_RE` matches, without a line feed at its end. -/
def isName : Text → Bool
  | c :: rest => (c.isAlpha || c = '_') && rest.length ≤ 62 &&
      rest.all fun d => d.isAlphanum || d = '_' || d = '$'
  | [] => false

/-- `_TABLE_RE.match`; a line feed may stand at the end. -/
def isTable (text : Text) : Bool :=
  isName text || (text.getLast? = some '\n' && isName text.dropLast)

/-- The kinds that `_configure_destination` knows. -/
def destinations : List String := ["ducklake", "duckdb", "postgres"]

/-- `result` of `run`. -/
structure Load where
  dataset : String
  destination : String
  rowCounts : List (String × ℕ)
  /-- Any text: a data path may be on object storage. -/
  dataPath : Option String
  isDataset : isDataset dataset.toList = true
  isDestination : destination ∈ destinations
  isTable : ∀ count ∈ rowCounts, IngestResult.isTable count.1.toList = true
  nodup : (rowCounts.map (·.1)).Nodup

/-- `RESULT_PREFIX`. -/
def resultPrefix : Text := "__INGEST_RESULT__".toList

namespace Load

variable (load : Load)

/-- The counts as `json.loads` reads them. -/
def counts : List (String × Document) :=
  load.rowCounts.map fun count => (count.1, .number (numeralOf count.2))

/-- The result as `json.loads` reads it. -/
def members : List (String × Document) :=
  [("dataset", .string load.dataset), ("destination", .string load.destination),
    ("row_counts", .dict load.counts),
    ("data_path", load.dataPath.elim (.word .null) fun path => .string path)]

/-- `json.dumps(result)`. -/
def dumped : Text :=
  objectText [("dataset", writeString load.dataset),
    ("destination", writeString load.destination),
    ("row_counts", objectText (load.rowCounts.map fun count =>
      (count.1, (numeralOf count.2).text))),
    ("data_path", load.dataPath.elim Word.null.text fun path => writeString path)]

/-- The line that `_emit` prints. -/
def line : Text := resultPrefix ++ ' ' :: load.dumped

/-- The bytes of the line. -/
def raw : List UInt8 := load.line.flatMap String.utf8EncodeChar

def total : ℕ := (load.rowCounts.map (·.2)).sum

end Load

/-! ## The read loop -/

/-- An event of `_stream_process`. -/
inductive Event
  | log (message : Text)
  | /-- `{"type": "completed", **result}`. -/
    completed (result : List (String × Document))
  | error (message : Text)

structure Reader where
  result : Document := .dict []
  failure : List Text := []
  events : List Event := []

/-- `MAX_ERROR_LINES`. -/
def maxErrorLines : ℕ := 40

/-- `MAX_ERROR_CHARS`. -/
def maxErrorChars : ℕ := 1200

/-- `text.strip()`. -/
def stripped (text : Text) : Text := (text.dropWhile isSpace).rdropWhile isSpace

/-- A line as the loop goes on with it. -/
def lineOf (raw : List UInt8) : Text :=
  let bytes := raw ++ [10]
  let line := scrub ((decodeReplacing bytes.length bytes).rdropWhile fun c => c = '\r' || c = '\n')
  if maxLineBytes < bytes.length then line.take maxLineBytes ++ "...[truncated]".toList else line

/-- The line is read as a result. -/
def isResult (raw : List UInt8) : Bool := resultPrefix.isPrefixOf (lineOf raw)

/-- What is read as JSON of a line. -/
def payload (raw : List UInt8) : Text := stripped ((lineOf raw).drop resultPrefix.length)

/-- What `json.loads` raises on a text, if it is no `JSONDecodeError`. -/
abbrev Interrupts := Text → Option Raised

variable (interrupts : Interrupts)

/-- A line that is no result. -/
def Reader.observe (reader : Reader) (line : Text) : Reader :=
  let fails := (reader.failure ≠ [] ∨ "[error]".toList <+: line) ∧
    reader.failure.length < maxErrorLines
  { reader with
    failure := if fails then reader.failure ++ [line] else reader.failure
    events := reader.events ++ [Event.log line] }

/-- One pass of the loop. -/
def Reader.read (reader : Reader) (raw : List UInt8) : Except Raised Reader :=
  match readline (streamLimit maxLineBytes) raw.length with
  | .valueError => .error (.valueError "Separator is found, but chunk is longer than limit")
  | .returns =>
    if isResult raw then
      match interrupts (payload raw) with
      | some raised => .error raised
      | none =>
        match loadsValue (payload raw) with
        | some result => .ok { reader with result := result }
        | none => .ok reader
    else .ok (reader.observe (lineOf raw))

/-- The lines of the output; what is raised ends the loop. -/
def Reader.readAll : Reader → List (List UInt8) → Reader × Option Raised
  | reader, [] => (reader, none)
  | reader, raw :: rest =>
    match reader.read interrupts raw with
    | .ok next => next.readAll rest
    | .error raised => (reader, some raised)

/-- `detail or f"Ingest failed with exit code {returncode}"`. -/
def errorMessage (failure : List Text) (returncode : ℤ) : Text :=
  let detail := (stripped (joinLines failure)).take maxErrorChars
  if detail = [] then ("Ingest failed with exit code " ++ toString returncode).toList else detail

/-- `_stream_process` of a child that prints these lines and exits: its events, and what it
raises. -/
def streamProcess (lines : List (List UInt8)) (returncode : ℤ) : List Event × Option Raised :=
  match ({} : Reader).readAll interrupts lines with
  | (reader, some raised) => (reader.events, some raised)
  | (reader, none) =>
    if returncode = 0 then
      match reader.result with
      | .dict members => (reader.events ++ [Event.completed members], none)
      | _ => (reader.events, some .typeError)
    else (reader.events ++ [Event.error (errorMessage reader.failure returncode)], none)

/-- `int(value)` of a number; `truncate` does it for a float. -/
def intOfNumeral (truncate : Numeral → Except Raised ℤ) (numeral : Numeral) : Except Raised ℤ :=
  if numeral.text.all Char.isDigit then .ok (Nat.ofDigitChars 10 numeral.text 0 : ℕ)
  else
    match numeral.text with
    | '-' :: digits =>
      if digits.all Char.isDigit then .ok (-(Nat.ofDigitChars 10 digits 0 : ℕ))
      else truncate numeral
    | _ => truncate numeral

/-- A row count that is a number, and no `bool`. -/
def countOf (truncate : Numeral → Except Raised ℤ) : Document → Except Raised ℤ
  | .number numeral => intOfNumeral truncate numeral
  | .word .notANumber => .error (.valueError "cannot convert float NaN to integer")
  | .word .infinity | .word .minusInfinity => .error .overflowError
  | _ => .ok 0

/-- `_rows_loaded`. -/
def rowsLoaded (truncate : Numeral → Except Raised ℤ) (result : List (String × Document)) :
    Except Raised (Option ℤ) :=
  match result.find? fun member => member.1 = "row_counts" with
  | some (_, .dict counts) =>
    (counts.foldlM (fun total count => (countOf truncate count.2).map (total + ·)) 0).map some
  | _ => .ok none

/-! ## The property -/

/-- The stream ends with the result, and the recorder stores the sum of its row counts. -/
def Reported (truncate : Numeral → Except Raised ℤ) (before : List (List UInt8)) (load : Load) :
    Prop :=
  (∃ events, streamProcess interrupts (before ++ [load.raw]) 0 =
    (events ++ [Event.completed load.members], none)) ∧
  rowsLoaded truncate load.members = .ok (some (load.total : ℤ))

/-- The line does not end the loop: it is not too long, and `json.loads` raises nothing but a
`JSONDecodeError` on what is read as a result. -/
def Readable (raw : List UInt8) : Prop :=
  raw.length ≤ streamLimit maxLineBytes ∧ (isResult raw = true → interrupts (payload raw) = none)

/-- The result that is read of a line, if it is one. -/
def resultOf (raw : List UInt8) : Option Document :=
  if isResult raw then loadsValue (payload raw) else none

/-- The results that are read of lines. -/
def results (lines : List (List UInt8)) : List Document := lines.filterMap resultOf

/-- Every line is readable. The result line is neither cut nor scrubbed, unless nothing that
is left of it is read and the last result that is read of the lines before is the same. -/
def Survives (before : List (List UInt8)) (load : Load) : Prop :=
  (∀ raw ∈ before ++ [load.raw], Readable interrupts raw) ∧
    ((load.raw.length < maxLineBytes ∧ scrub load.line = load.line) ∨
      loadsValue (payload load.raw) = none ∧ (results before).getLast? = some (.dict load.members))

/-! ## The line as it is written -/

/-- The first members, up to the last name. -/
def Load.front (load : Load) : Text :=
  writeString "dataset" ++ ':' :: ' ' :: (writeString load.dataset ++ ',' :: ' ' ::
    (writeString "destination" ++ ':' :: ' ' :: (writeString load.destination ++ ',' :: ' ' ::
      (writeString "row_counts" ++ ':' :: ' ' :: (objectText (load.rowCounts.map fun count =>
        (count.1, (numeralOf count.2).text)) ++ [',', ' '])))))

/-- An object with these members and the text of a last value, behind which it ends. -/
def Load.objectOf (load : Load) (value : Text) : Text :=
  '{' :: (load.front ++ (writeString "data_path" ++ ':' :: ' ' :: value))

/-- The last value with the brace behind it. -/
def Load.last (load : Load) : Text :=
  load.dataPath.elim (Word.null.text ++ ['}']) fun path => writeString path ++ ['}']

variable {interrupts} {load : Load} {text value rest body : Text} {raw : List UInt8}
  {before : List (List UInt8)} {truncate : Numeral → Except Raised ℤ} {reader next : Reader}
  {path : String}

theorem dumped_eq (load : Load) : load.dumped = load.objectOf load.last := by
  cases hpath : load.dataPath with
  | none => simp [Load.dumped, Load.objectOf, Load.front, Load.last, objectText, membersText, hpath]
  | some path =>
    simp [Load.dumped, Load.objectOf, Load.front, Load.last, objectText, membersText, hpath]

/-- The text has none of the marks of the patterns. -/
def Unmarked (text : Text) : Prop := '=' ∉ text ∧ '/' ∉ text

instance (text : Text) : Decidable (Unmarked text) := inferInstanceAs (Decidable (_ ∧ _))

theorem unmarked_append : Unmarked (text ++ rest) ↔ Unmarked text ∧ Unmarked rest := by
  simp [Unmarked, not_or]
  tauto

theorem unmarked_cons {c : Char} : Unmarked (c :: text) ↔ (c ≠ '=' ∧ c ≠ '/') ∧ Unmarked text := by
  simp [Unmarked, not_or, eq_comm]
  tauto

/-- Writing a string adds no marks. -/
theorem unmarked_writeString {name : String} (hname : Unmarked name.toList) :
    Unmarked (writeString name) := by
  have hletter : ∀ c, c ≠ '=' → c ≠ '/' → Unmarked (jsonChar c) := by
    intro c hequals hslash
    have hescape : ∀ d ∈ '\\' :: '"' :: escapeChars, d ≠ '=' ∧ d ≠ '/' := by decide
    rcases jsonChar_cases c with ⟨hc, -, -⟩ | hc | ⟨more, hc, hmore⟩
    · rw [hc]
      exact ⟨by simpa using hequals.symm, by simpa using hslash.symm⟩
    · rw [hc]
      exact ⟨by decide, by decide⟩
    · have hall : ∀ d ∈ jsonChar c, d ≠ '=' ∧ d ≠ '/' := by
        intro d hd
        rw [hc] at hd
        rcases List.mem_cons.mp hd with rfl | hd
        · decide
        · exact hescape d (by simp [hmore d hd])
      exact ⟨fun hmem => (hall _ hmem).1 rfl, fun hmem => (hall _ hmem).2 rfl⟩
  have hbody : Unmarked (name.toList.flatMap jsonChar) := by
    refine ⟨fun hmem => ?_, fun hmem => ?_⟩
    all_goals
      obtain ⟨c, hc, hd⟩ := List.mem_flatMap.mp hmem
      have hplain := hletter c (fun h => hname.1 (h ▸ hc)) (fun h => hname.2 (h ▸ hc))
    · exact hplain.1 hd
    · exact hplain.2 hd
  rw [writeString, List.cons_append, unmarked_cons, unmarked_append]
  exact ⟨by decide, hbody, by decide⟩

theorem unmarked_of_forall {allowed : Char → Bool} (hequals : allowed '=' = false)
    (hslash : allowed '/' = false) (htext : ∀ c ∈ text, allowed c = true) : Unmarked text :=
  ⟨fun hmem => Bool.false_ne_true (hequals.symm.trans (htext _ hmem)),
    fun hmem => Bool.false_ne_true (hslash.symm.trans (htext _ hmem))⟩

/-- A name of allowed letters. -/
theorem unmarked_of_name {c : Char} {first others : Char → Bool} (hfirst : first c = true)
    (hothers : text.all others = true)
    (hnone : ∀ d ∈ ['=', '/'], first d = false ∧ others d = false) : Unmarked (c :: text) := by
  have hne : ∀ d ∈ ['=', '/'], c ≠ d := fun d hd hsame =>
    Bool.false_ne_true ((hnone d hd).1.symm.trans (hsame ▸ hfirst))
  rw [unmarked_cons]
  exact ⟨⟨hne '=' (by decide), hne '/' (by decide)⟩, unmarked_of_forall (hnone '=' (by decide)).2
    (hnone '/' (by decide)).2 (List.all_eq_true.mp hothers)⟩

theorem unmarked_of_isDataset (htext : isDataset text = true) : Unmarked text := by
  cases text with
  | nil => cases htext
  | cons c text =>
    simp only [isDataset, Bool.and_eq_true] at htext
    exact unmarked_of_name htext.1.1 htext.2 (by decide)

theorem unmarked_of_isName (htext : isName text = true) : Unmarked text := by
  cases text with
  | nil => cases htext
  | cons c text =>
    simp only [isName, Bool.and_eq_true] at htext
    exact @unmarked_of_name text c (fun c => c.isAlpha || c = '_') _ htext.1.1 htext.2 (by decide)

theorem unmarked_of_isTable (htext : isTable text = true) : Unmarked text := by
  rw [isTable, Bool.or_eq_true, Bool.and_eq_true, decide_eq_true_eq] at htext
  rcases htext with hname | ⟨hlast, hname⟩
  · exact unmarked_of_isName hname
  · obtain ⟨before, rfl⟩ := List.getLast?_eq_some_iff.mp hlast
    rw [List.dropLast_concat] at hname
    exact unmarked_append.mpr ⟨unmarked_of_isName hname, by decide⟩

theorem unmarked_counts {counts : List (String × ℕ)}
    (hcounts : ∀ count ∈ counts, isTable count.1.toList = true) :
    Unmarked (membersText (counts.map fun count => (count.1, (numeralOf count.2).text))) := by
  have hnumber : ∀ number, Unmarked (numeralOf number).text := fun number =>
    unmarked_of_forall (by decide) (by decide) (numeralOf number).all
  induction counts with
  | nil => exact ⟨by decide, by decide⟩
  | cons count counts ih =>
    have hname := unmarked_writeString (unmarked_of_isTable (hcounts count List.mem_cons_self))
    have hlater := ih fun other hother => hcounts other (List.mem_cons_of_mem count hother)
    cases counts with
    | nil =>
      simp only [List.map_cons, List.map_nil, membersText, unmarked_append, unmarked_cons]
      exact ⟨hname, by decide, by decide, hnumber count.2, by decide, by decide, by decide⟩
    | cons next counts =>
      simp only [List.map_cons, membersText, unmarked_append, unmarked_cons] at hlater ⊢
      exact ⟨hname, by decide, by decide, hnumber count.2, by decide, by decide, hlater⟩

theorem unmarked_front (load : Load) : Unmarked load.front := by
  have hdestination : ∀ destination ∈ destinations, Unmarked destination.toList := by decide
  have hkey : ∀ key ∈ ["dataset", "destination", "row_counts"], Unmarked key.toList := by
    decide
  have hcounts := unmarked_counts load.isTable
  simp only [Load.front, objectText, unmarked_append, unmarked_cons]
  exact ⟨unmarked_writeString (hkey _ (by decide)), by decide, by decide,
    unmarked_writeString (unmarked_of_isDataset load.isDataset), by decide, by decide,
    unmarked_writeString (hkey _ (by decide)), by decide, by decide,
    unmarked_writeString (hdestination _ load.isDestination), by decide, by decide,
    unmarked_writeString (hkey _ (by decide)), by decide, by decide, ⟨by decide, hcounts⟩,
    by decide, by decide, by decide⟩

/-! ## The line as it is scrubbed -/

/-- The letters of a data path, with what ends the object. -/
def pathText (path : String) : Text := path.toList.flatMap jsonChar ++ ending

/-- The last value as it is scrubbed. -/
def Load.scrubbedLast (load : Load) : Text :=
  load.dataPath.elim (Word.null.text ++ ['}']) fun path => '"' :: scrub (pathText path)

theorem scrub_line (load : Load) :
    scrub load.line = resultPrefix ++ ' ' :: load.objectOf load.scrubbedLast := by
  have hhead :
      Unmarked (resultPrefix ++ ' ' :: '{' :: (load.front ++ '"' :: "data_path".toList)) := by
    have hmark : Unmarked resultPrefix := by decide
    rw [unmarked_append, unmarked_cons, unmarked_cons, unmarked_append]
    exact ⟨hmark, by decide, by decide, unmarked_front load, by decide⟩
  have hline : load.line =
      (resultPrefix ++ ' ' :: '{' :: (load.front ++ '"' :: "data_path".toList)) ++
        '"' :: (':' :: ' ' :: load.last) := by
    rw [Load.line, dumped_eq, Load.objectOf]
    simp [writeString, jsonChar]
  have hlast : scrub (':' :: ' ' :: load.last) = ':' :: ' ' :: load.scrubbedLast := by
    unfold Load.last Load.scrubbedLast
    cases load.dataPath with
    | none => decide
    | some path =>
      have hquote := @scrub_append [':', ' '] (pathText path) (by decide) (by decide)
      simpa [pathText, ending, writeString] using hquote
  rw [hline, scrub_append hhead.1 hhead.2, hlast, Load.objectOf]
  simp [writeString, jsonChar]

/-! ## Reading the line -/

/-- The members before the last one. -/
def Load.firstMembers (load : Load) : List (String × Document) :=
  [("dataset", .string load.dataset), ("destination", .string load.destination),
    ("row_counts", .dict load.counts)]

theorem reads_counts (load : Load) :
    Reads (1 + load.rowCounts.length + 1)
      (objectText (load.rowCounts.map fun count => (count.1, (numeralOf count.2).text)))
      (.dict load.counts) := by
  have hread : ReadsWritten 1
      (load.rowCounts.map fun count => (count.1, (numeralOf count.2).text)) load.counts := by
    unfold Load.counts ReadsWritten
    rw [List.forall₂_map_left_iff, List.forall₂_map_right_iff]
    exact List.forall₂_same.mpr fun count _ => ⟨rfl, reads_numeral (numeralOf count.2)⟩
  have hlength : load.counts.length = load.rowCounts.length := List.length_map ..
  rw [← hlength]
  exact reads_objectText hread

/-- The members before the last one are read, whatever the last value is. -/
theorem readValue_objectOf {fuel : ℕ} (hfuel : load.rowCounts.length + 2 ≤ fuel) :
    readValue (fuel + 4) (load.objectOf value) =
      (readMembers fuel (writeString "data_path" ++ ':' :: ' ' :: value)).map
        fun found => (.dict (load.firstMembers ++ found.1), found.2) := by
  have hcomma : ∀ rest, Ends (',' :: ' ' :: rest) := fun rest => ends_of_mark (by decide)
  have hopen : ∀ text more, skipBlanks (writeString "dataset" ++ text) ≠ '}' :: more := by
    intro text more hmore
    rw [Json.skipBlanks_writeString] at hmore
    cases hmore
  rw [Load.objectOf, Load.front]
  simp only [List.append_assoc, List.cons_append, List.nil_append]
  rw [readValue_brace (hopen _),
    readMembers_cons (reads_string _ (fuel + 2) _ (by omega) (hcomma _)),
    readMembers_cons (reads_string _ (fuel + 1) _ (by omega) (hcomma _)),
    readMembers_cons (reads_counts load fuel _ (by omega) (hcomma _))]
  cases readMembers fuel (writeString "data_path" ++ ':' :: ' ' :: value) <;> rfl

/-- The text of an object is fuel enough. -/
theorem exists_fuel (load : Load) (value : Text) :
    ∃ fuel, (load.objectOf value).length = fuel + 1 + 4 ∧ load.rowCounts.length + 2 ≤ fuel := by
  have hcounts := length_le_membersText
    (load.rowCounts.map fun count => (count.1, (numeralOf count.2).text))
  rw [List.length_map] at hcounts
  refine ⟨(load.objectOf value).length - 5, ?_, ?_⟩
  all_goals
    simp only [Load.objectOf, Load.front, objectText, writeString, List.length_append,
      List.length_cons]
    omega

theorem members_eq (load : Load) : load.members = load.firstMembers ++
    [("data_path", load.dataPath.elim (.word .null) fun path => .string path)] := rfl

/-- The line is read as the result. -/
theorem loads_objectOf_last (load : Load) :
    loads (load.objectOf load.last) = some (.dict load.members) := by
  obtain ⟨fuel, hlength, hfuel⟩ := exists_fuel load load.last
  have hvalue : readValue fuel load.last =
      some (load.dataPath.elim (.word .null) fun path => .string path, ['}']) := by
    unfold Load.last
    cases load.dataPath with
    | none => exact reads_word .null fuel ['}'] (by omega) (ends_of_mark (by decide))
    | some path => exact reads_string path fuel ['}'] (by omega) (ends_of_mark (by decide))
  rw [loads, hlength, readValue_objectOf (by omega), readMembers_last hvalue, members_eq]
  rfl

/-- A text of letters that is read as a path, with no quote behind it, is that of the path. -/
theorem eq_of_readCodes {codes : List ℕ} {chars : Text} (htext : Escaped text)
    (hread : Json.readCodes .plain text = some (codes, rest))
    (hjoin : Json.joinCodes codes = some chars) (hrest : '"' ∉ rest) :
    text = chars.flatMap jsonChar ++ ending := by
  induction htext generalizing codes chars with
  | close =>
    cases hread
    cases hjoin
    rfl
  | quote hmore =>
    cases hread
    exact absurd hmore.mem_quote hrest
  | letter c hmore ih =>
    rw [Json.readCodes_jsonChar] at hread
    cases hlater : Json.readCodes .plain _ with
    | none =>
      have hnone : ∀ codes : List ℕ, codes.foldr Json.push none = none := by
        intro codes
        induction codes with
        | nil => rfl
        | cons code codes ih => rw [List.foldr_cons, ih]; rfl
      rw [hlater, hnone] at hread
      cases hread
    | some found =>
      obtain ⟨codes, behind⟩ := found
      rw [hlater, Json.foldr_push] at hread
      cases hread
      rw [Json.joinCodes_codes] at hjoin
      obtain ⟨chars, hchars, rfl⟩ := Option.map_eq_some_iff.mp hjoin
      rw [ih hlater hchars, List.flatMap_cons, List.append_assoc]

/-- What a value that begins with a quote is read as, if it is a string. -/
theorem readString_of_readValue {fuel : ℕ} {string : String}
    (hread : readValue (fuel + 1) ('"' :: text) = some (.string string, rest)) :
    Json.readString ('"' :: text) = some (string, rest) := by
  rw [readValue_scalar (starts_of_head (by decide) (by decide) (by decide))] at hread
  unfold readScalar at hread
  split at hread
  next hstring =>
    cases hread
    exact hstring
  · split at hread
    · cases hread
    · obtain ⟨found, -, hfound⟩ := Option.map_eq_some_iff.mp hread
      cases hfound

/-- No quote stands where an object ends. -/
theorem not_mem_quote (hclose : skipBlanks text = '}' :: rest) (hend : skipBlanks rest = []) :
    '"' ∉ text := by
  have hblank : ∀ text : Text, '"' ∉ text.takeWhile Json.isBlank := fun text hmem =>
    absurd (List.mem_takeWhile_imp hmem) (by decide)
  have hbehind : ∀ text : Text, '"' ∈ text → '"' ∈ skipBlanks text := by
    intro text hmem
    rw [← List.takeWhile_append_dropWhile (p := Json.isBlank) (l := text)] at hmem
    exact (List.mem_append.mp hmem).resolve_left (hblank text)
  intro hmem
  have hlater := hbehind text hmem
  rw [hclose] at hlater
  have hlast := hbehind rest ((List.mem_cons.mp hlater).resolve_left (by decide))
  rw [hend] at hlast
  cases hlast

/-- What is read as a string behind blanks begins with a quote and holds another one. -/
theorem exists_quoted {fuel : ℕ} {members : List (String × Document)}
    (hread : readMembers fuel text = some (members, rest)) :
    ∃ blanks quoted, (∀ c ∈ blanks, Json.isBlank c = true) ∧ text = blanks ++ '"' :: quoted ∧
      '"' ∈ quoted := by
  cases fuel with
  | zero => cases hread
  | succ fuel =>
    rw [readMembers] at hread
    split at hread
    · cases hread
    next hname =>
      unfold Json.readString at hname
      split at hname
      next quoted hquote =>
        split at hname
        next codes final hcodes =>
          refine ⟨text.takeWhile Json.isBlank, quoted, fun c hc =>
            List.mem_takeWhile_imp hc, ?_, (readCodes_suffix hcodes).mem List.mem_cons_self⟩
          rw [← hquote, skipBlanks, List.takeWhile_append_dropWhile]
        · cases hname
      · cases hname

/-- No comma stands before the quotes of a string. -/
theorem not_suffix {blanks quoted later : Text} (hbody : body.IsChain Joins)
    (hblanks : ∀ c ∈ blanks, Json.isBlank c = true) (hlater : later = blanks ++ '"' :: quoted)
    (hquoted : '"' ∈ quoted) : ¬ (',' :: later <:+ ('"' :: body) ++ ending) := by
  rintro ⟨before, hbefore⟩
  have hopened : ('"' :: body).IsChain Joins := hbody.cons fun first _ _ => rfl
  have hlast : ∀ c ∈ (before ++ ',' :: blanks).getLast?, isMark c = true := by
    intro c hc
    rw [List.getLast?_append_of_ne_nil _ (List.cons_ne_nil _ _)] at hc
    rcases List.mem_cons.mp (List.mem_of_getLast? hc) with rfl | hc
    · rfl
    · rw [isMark, hblanks c hc]
      rfl
  have hsplit : (before ++ ',' :: blanks) ++ '"' :: quoted = ('"' :: body) ++ ending := by
    rw [← hbefore, hlater]
    simp
  have hlong : 2 ≤ quoted.length := by
    match quoted, hquoted with
    | [c], hquoted =>
      obtain rfl := List.mem_singleton.mp hquoted
      have hend := congrArg List.getLast? hsplit
      rw [List.getLast?_append_of_ne_nil _ (by decide),
        List.getLast?_append_of_ne_nil _ (by decide)] at hend
      exact absurd hend (by decide)
    | _ :: _ :: _, _ => exact Nat.le_add_left 2 _
  have hstart : (before ++ ',' :: blanks) ++ ['"'] <+: '"' :: body := by
    have hlength := congrArg List.length hsplit
    have hquote : (before ++ ',' :: blanks) ++ ['"'] <+: ('"' :: body) ++ ending :=
      ⟨quoted, by rw [← hsplit]; simp⟩
    refine List.prefix_of_prefix_length_le hquote (List.prefix_append _ _) ?_
    simp only [List.length_append, List.length_cons, List.length_nil, ending] at hlength ⊢
    omega
  obtain ⟨more, hmore⟩ := hstart
  rw [← hmore] at hopened
  obtain ⟨-, -, hjoin⟩ := List.isChain_append.mp hopened.left_of_append
  cases hcut : (before ++ ',' :: blanks).getLast? with
  | none => simp at hcut
  | some c =>
    have hmark := hlast c hcut
    rw [hjoin c hcut '"' rfl rfl] at hmark
    cases hmark

/-- The last member of a value is the one of the document. -/
theorem eq_of_merged {value : Document} (hpath : load.dataPath = some path)
    (hmerged : merged (.dict (load.firstMembers ++ [("data_path", value)])) =
      .dict load.members) : value = .string path := by
  have hnodup : ((load.firstMembers ++ [("data_path", value)]).map (·.1)).Nodup := by
    simp [Load.firstMembers]
  have hmembers := Document.dict.inj hmerged
  rw [mergedMembers_eq_map hnodup, members_eq, hpath, List.map_append] at hmembers
  obtain ⟨-, hlast⟩ := List.append_inj' hmembers rfl
  have hvalue : merged value = .string path := (Prod.mk.inj (List.cons.inj hlast).1).2
  cases value with
  | string text => exact hvalue
  | word word => cases hvalue
  | number number => cases hvalue
  | list items => cases hvalue
  | dict members => cases hvalue

/-- Where no quote stands behind a mark, no member follows the one that the text is read as. -/
theorem exists_eq_singleton {fuel : ℕ} {name : String} {members : List (String × Document)}
    (hbody : body.IsChain Joins)
    (hread : readMembers (fuel + 1) (writeString name ++ ':' :: ' ' :: '"' :: (body ++ ending)) =
      some (members, rest)) : ∃ value, members = [(name, value)] := by
  rw [readMembers, Json.skipBlanks_writeString, Json.readString_writeString] at hread
  simp only [Json.skipBlanks_of_not (show Json.isBlank ':' = false from rfl),
    readValue_blank] at hread
  split at hread
  · cases hread
  next found behind hvalue =>
    split at hread
    next later hcomma =>
      obtain ⟨found, hlater, -⟩ := Option.map_eq_some_iff.mp hread
      obtain ⟨blanks, quoted, hblanks, hsplit, hquoted⟩ := exists_quoted hlater
      have hwhole : ',' :: later <:+ ('"' :: body) ++ ending := by
        rw [List.cons_append]
        exact (suffix_of_skipBlanks hcomma).trans ((suffixes _).value hvalue)
      exact absurd hwhole (not_suffix hbody hblanks hsplit hquoted)
    · cases hread
      exact ⟨_, rfl⟩
    · cases hread

/-- Text that is read as the result is that of the result. -/
theorem eq_of_loads (hpath : load.dataPath = some path) (hbody : body.IsChain Joins)
    (htext : Escaped (body ++ ending))
    (hread : loadsValue (load.objectOf ('"' :: (body ++ ending))) = some (.dict load.members)) :
    body ++ ending = pathText path := by
  obtain ⟨fuel, hlength, hfuel⟩ := exists_fuel load ('"' :: (body ++ ending))
  obtain ⟨document, hloads, hmerged⟩ := Option.map_eq_some_iff.mp hread
  rw [loads, hlength] at hloads
  split at hloads
  next document rest hvalue =>
    split at hloads
    next hend =>
      cases hloads
      rw [readValue_objectOf (by omega)] at hvalue
      obtain ⟨⟨found, behind⟩, hfound, hsame⟩ := Option.map_eq_some_iff.mp hvalue
      obtain ⟨rfl, rfl⟩ := Prod.mk.inj hsame
      obtain ⟨last, rfl⟩ := exists_eq_singleton hbody hfound
      obtain rfl := eq_of_merged hpath hmerged
      obtain ⟨after, hstring, hclose⟩ := exists_readValue hfound
      obtain ⟨fuel, rfl⟩ := Nat.exists_eq_add_of_le' (show 1 ≤ fuel by omega)
      have hstring := readString_of_readValue hstring
      unfold Json.readString at hstring
      split at hstring
      next heq =>
        cases heq
        split at hstring
        next codes final hcodes =>
          obtain ⟨chars, hchars, hsame⟩ := Option.map_eq_some_iff.mp hstring
          obtain ⟨rfl, rfl⟩ := Prod.mk.inj hsame
          have hnone : '"' ∉ final := not_mem_quote hclose hend
          rw [eq_of_readCodes htext hcodes hchars hnone, pathText, String.toList_ofList]
        · cases hstring
      · cases hstring
    · cases hloads
  · cases hloads

/-! ## What is left of the line -/

theorem escaped_pathText (path : String) : Escaped (pathText path) := by
  have hletters : ∀ text : Text, Escaped (text.flatMap jsonChar ++ ending) := by
    intro text
    induction text with
    | nil => exact .close
    | cons c text ih =>
      rw [List.flatMap_cons, List.append_assoc]
      exact ih.letter c
  exact hletters path.toList

/-- The last value ends with the brace of the object. -/
theorem exists_scrubbedLast (load : Load) : ∃ text, load.scrubbedLast = text ++ ['}'] := by
  unfold Load.scrubbedLast
  cases load.dataPath with
  | none => exact ⟨_, rfl⟩
  | some path =>
    obtain ⟨text, htext⟩ := (escaped_pathText path).scrub.exists_append
    exact ⟨'"' :: text, congrArg ('"' :: ·) htext⟩

theorem stripped_eq {c : Char} (hc : isSpace c = false) :
    stripped (' ' :: '{' :: (text ++ [c])) = '{' :: (text ++ [c]) := by
  have hlast : ¬ isSpace c = true := Bool.eq_false_iff.mp hc
  unfold stripped
  rw [List.dropWhile_cons_of_pos (by decide), List.dropWhile_cons_of_neg (by decide),
    ← List.cons_append, List.rdropWhile_concat_neg _ _ _ hlast]

/-- The bytes of the line are decoded into it. -/
theorem lineOf_raw (load : Load) :
    lineOf load.raw = if maxLineBytes ≤ load.raw.length then
      (scrub load.line).take maxLineBytes ++ "...[truncated]".toList else scrub load.line := by
  have hbytes : load.raw ++ [10] = (load.line ++ ['\n']).flatMap String.utf8EncodeChar := by
    rw [List.flatMap_append]
    rfl
  have hdecoded : decodeReplacing (load.raw ++ [10]).length (load.raw ++ [10]) =
      load.line ++ ['\n'] := by
    rw [hbytes]
    exact decodeReplacing_encode (Url.length_le_encode _)
  have hstripped : (load.line ++ ['\n']).rdropWhile (fun c => c = '\r' || c = '\n') =
      load.line := by
    obtain ⟨text, hlast⟩ : ∃ text, load.line = text ++ ['}'] := by
      have hend : ∃ text, load.last = text ++ ['}'] := by
        unfold Load.last
        cases load.dataPath with
        | none => exact ⟨_, rfl⟩
        | some path => exact ⟨_, rfl⟩
      obtain ⟨text, htext⟩ := hend
      rw [Load.line, dumped_eq, Load.objectOf, htext]
      exact ⟨resultPrefix ++ ' ' :: '{' :: (load.front ++ (writeString "data_path" ++
        ':' :: ' ' :: text)), by simp⟩
    rw [List.rdropWhile_concat_pos _ _ _ (by decide), hlast,
      List.rdropWhile_concat_neg _ _ _ (by decide)]
  have hlong : maxLineBytes < (load.raw ++ [10]).length ↔ maxLineBytes ≤ load.raw.length := by
    rw [List.length_append, List.length_singleton, Nat.lt_succ_iff]
  rw [lineOf, hdecoded, hstripped]
  simp only [hlong]

theorem isResult_append (hline : lineOf raw = resultPrefix ++ text) : isResult raw = true := by
  rw [isResult, hline, List.isPrefixOf_iff_prefix]
  exact List.prefix_append _ _

theorem payload_append (hline : lineOf raw = resultPrefix ++ text) :
    payload raw = stripped text := by
  rw [payload, hline, List.drop_left]

/-- A line that is short enough is read as it is scrubbed. -/
theorem payload_of_short (hshort : load.raw.length < maxLineBytes) :
    isResult load.raw = true ∧ payload load.raw = load.objectOf load.scrubbedLast := by
  have hline := lineOf_raw load
  rw [if_neg (Nat.not_le.mpr hshort), scrub_line] at hline
  refine ⟨isResult_append hline, ?_⟩
  obtain ⟨text, htext⟩ := exists_scrubbedLast load
  have hobject : load.objectOf load.scrubbedLast =
      '{' :: ((load.front ++ (writeString "data_path" ++ ':' :: ' ' :: text)) ++ ['}']) := by
    rw [Load.objectOf, htext]
    simp
  rw [payload_append hline, hobject, stripped_eq (by decide)]

/-- A line that is cut is no JSON. -/
theorem loads_of_long (hlong : maxLineBytes ≤ load.raw.length) :
    isResult load.raw = true ∧ loads (payload load.raw) = none := by
  have hline := lineOf_raw load
  rw [if_pos hlong, scrub_line, Load.objectOf] at hline
  have hcut : ∀ text : Text, (resultPrefix ++ ' ' :: '{' :: text).take maxLineBytes =
      resultPrefix ++ ' ' :: '{' :: text.take (maxLineBytes - 19) := fun text => rfl
  rw [hcut, List.append_assoc] at hline
  refine ⟨isResult_append hline, ?_⟩
  have hdots : "...[truncated]".toList = "...[truncated".toList ++ [']'] := rfl
  rw [payload_append hline, hdots, List.cons_append, List.cons_append, ← List.append_assoc,
    stripped_eq (by decide)]
  exact loads_eq_none (by decide) (by decide)

/-- The members have different names, and so have the counts. -/
theorem merged_members (load : Load) : merged (.dict load.members) = .dict load.members := by
  have hcounts : mergedMembers load.counts = load.counts := by
    have hnodup : (load.counts.map (·.1)).Nodup := by
      rw [Load.counts, List.map_map]
      exact load.nodup
    rw [mergedMembers_eq_map hnodup, Load.counts, List.map_map]
    rfl
  have hnodup : (load.members.map (·.1)).Nodup := by simp [Load.members]
  have hpath : merged (load.dataPath.elim (.word .null) fun path => .string path) =
      load.dataPath.elim (.word .null) fun path => .string path := by
    cases load.dataPath <;> rfl
  rw [merged, mergedMembers_eq_map hnodup, Load.members]
  simp only [List.map_cons, List.map_nil, hpath, merged, hcounts]

/-- **The result is read of its line** exactly when it is neither cut nor scrubbed. -/
theorem loadsValue_payload_iff (load : Load) :
    loadsValue (payload load.raw) = some (.dict load.members) ↔
      load.raw.length < maxLineBytes ∧ scrub load.line = load.line := by
  have hwhole : scrub load.line = load.line ↔ load.scrubbedLast = load.last := by
    rw [scrub_line, Load.line, dumped_eq, Load.objectOf, Load.objectOf]
    simp
  rw [hwhole]
  apply Iff.intro
  · intro hread
    have hshort : load.raw.length < maxLineBytes := by
      by_contra hlong
      rw [loadsValue_eq_none (loads_of_long (Nat.not_lt.mp hlong)).2] at hread
      cases hread
    refine ⟨hshort, ?_⟩
    rw [(payload_of_short hshort).2] at hread
    cases hpath : load.dataPath with
    | none => simp [Load.scrubbedLast, Load.last, hpath]
    | some path =>
      have hscrubbed : load.scrubbedLast = '"' :: scrub (pathText path) := by
        simp [Load.scrubbedLast, hpath]
      have hescaped := (escaped_pathText path).scrub
      rw [hscrubbed] at hread ⊢
      rw [pathText, scrub_append_ending] at hread hescaped ⊢
      rw [eq_of_loads hpath (isChain_scrub (isChain_letters _)) hescaped hread]
      simp [Load.last, hpath, pathText, ending, writeString]
  · rintro ⟨hshort, hsame⟩
    rw [(payload_of_short hshort).2, hsame, loadsValue, loads_objectOf_last, Option.map_some,
      merged_members]

/-! ## The loop -/

theorem exists_read (hraw : Readable interrupts raw) : ∃ next,
    reader.read interrupts raw = .ok next ∧ next.result = (resultOf raw).getD reader.result := by
  obtain ⟨hshort, hquiet⟩ := hraw
  unfold Reader.read resultOf
  rw [readline_eq_returns.mpr hshort]
  by_cases hresult : isResult raw = true
  · simp only [hresult, if_true, hquiet hresult]
    cases loadsValue (payload raw) with
    | none => exact ⟨_, rfl, rfl⟩
    | some result => exact ⟨_, rfl, rfl⟩
  · simp only [hresult]
    exact ⟨_, rfl, rfl⟩

theorem readable_of_read (hread : reader.read interrupts raw = .ok next) :
    Readable interrupts raw := by
  unfold Reader.read at hread
  split at hread
  · cases hread
  next hline =>
    refine ⟨readline_eq_returns.mp hline, fun hresult => ?_⟩
    rw [if_pos hresult] at hread
    split at hread
    · cases hread
    next hquiet => exact hquiet

/-- The loop ends with what the last result says. -/
theorem exists_readAll {lines : List (List UInt8)}
    (hlines : ∀ raw ∈ lines, Readable interrupts raw) : ∃ last,
      reader.readAll interrupts lines = (last, none) ∧
        last.result = (results lines).getLast?.getD reader.result := by
  induction lines generalizing reader with
  | nil => exact ⟨reader, rfl, rfl⟩
  | cons raw lines ih =>
    obtain ⟨next, hnext, hresult⟩ :=
      @exists_read _ _ reader (hlines raw List.mem_cons_self)
    obtain ⟨last, hlast, hlater⟩ :=
      @ih next fun other hother => hlines other (List.mem_cons_of_mem raw hother)
    refine ⟨last, ?_, ?_⟩
    · rw [Reader.readAll, hnext]
      exact hlast
    · rw [hlater, hresult, results, results]
      cases hvalue : resultOf raw with
      | none => rw [List.filterMap_cons_none hvalue, Option.getD_none]
      | some value =>
        rw [List.filterMap_cons_some hvalue, Option.getD_some, List.getLast?_cons,
          Option.getD_some]

theorem readable_of_readAll {lines : List (List UInt8)}
    (hlines : (reader.readAll interrupts lines).2 = none) :
    ∀ raw ∈ lines, Readable interrupts raw := by
  induction lines generalizing reader with
  | nil => exact fun raw hraw => absurd hraw List.not_mem_nil
  | cons raw lines ih =>
    rw [Reader.readAll] at hlines
    split at hlines
    next next hnext =>
      exact List.forall_mem_cons.mpr ⟨readable_of_read hnext, ih hlines⟩
    · cases hlines

/-! ## The row counts -/

theorem countOf_numeralOf (number : ℕ) :
    countOf truncate (.number (numeralOf number)) = .ok (number : ℤ) := by
  have hdigits : (numeralOf number).text.all Char.isDigit = true :=
    List.all_eq_true.mpr fun c hc => Nat.isDigit_of_mem_toDigits (by decide) (by decide) hc
  rw [countOf, intOfNumeral, if_pos hdigits]
  exact congrArg (fun read : ℕ => Except.ok (read : ℤ)) Nat.ofDigitChars_ten_toDigits

/-- The counts are added up. -/
theorem foldlM_counts (rowCounts : List (String × ℕ)) (start : ℤ) :
    (rowCounts.map fun count => (count.1, Document.number (numeralOf count.2))).foldlM
        (fun total count => (countOf truncate count.2).map (total + ·)) start =
      Except.ok (start + ((rowCounts.map (·.2)).sum : ℕ)) := by
  induction rowCounts generalizing start with
  | nil => exact congrArg Except.ok (Int.add_zero start).symm
  | cons count rowCounts ih =>
    rw [List.map_cons, List.foldlM_cons, countOf_numeralOf]
    refine (ih (start + count.2)).trans ?_
    rw [List.map_cons, List.sum_cons, Int.natCast_add, Int.add_assoc]

theorem rowsLoaded_members (truncate : Numeral → Except Raised ℤ) (load : Load) :
    rowsLoaded truncate load.members = .ok (some (load.total : ℤ)) := by
  have hfold := @foldlM_counts truncate load.rowCounts 0
  rw [Int.zero_add] at hfold
  rw [rowsLoaded]
  have hfind : load.members.find? (fun member => member.1 = "row_counts") =
      some ("row_counts", .dict load.counts) := by
    simp [Load.members]
  rw [hfind]
  simp only [Load.counts, hfold]
  rfl

/-! ## The result of the stream -/

theorem results_append (before : List (List UInt8)) (load : Load) :
    results (before ++ [load.raw]) =
      results before ++ (loadsValue (payload load.raw)).toList := by
  have hresult : isResult load.raw = true := by
    by_cases hshort : load.raw.length < maxLineBytes
    · exact (payload_of_short hshort).1
    · exact (loads_of_long (Nat.not_lt.mp hshort)).1
  have hlast : resultOf load.raw = loadsValue (payload load.raw) := if_pos hresult
  rw [results, List.filterMap_append, ← results, List.filterMap_cons, hlast]
  cases loadsValue (payload load.raw) <;> rfl

/-- The result is the last one that is read. -/
theorem getLast?_results_iff : (results (before ++ [load.raw])).getLast? =
      some (.dict load.members) ↔
    (load.raw.length < maxLineBytes ∧ scrub load.line = load.line) ∨
      loadsValue (payload load.raw) = none ∧
        (results before).getLast? = some (.dict load.members) := by
  rw [results_append, ← loadsValue_payload_iff]
  cases hread : loadsValue (payload load.raw) with
  | none => simp
  | some result => simp

/-- The stream of readable lines ends with the last result that is read. -/
theorem exists_completed {lines : List (List UInt8)}
    (hlines : ∀ raw ∈ lines, Readable interrupts raw) {members : List (String × Document)}
    (hlast : (results lines).getLast? = some (.dict members)) : ∃ events,
    streamProcess interrupts lines 0 = (events ++ [Event.completed members], none) := by
  obtain ⟨last, hread, hresult⟩ := @exists_readAll _ {} _ hlines
  rw [hlast, Option.getD_some] at hresult
  refine ⟨last.events, ?_⟩
  rw [streamProcess, hread]
  simp only [if_true, hresult]

theorem of_completed {lines : List (List UInt8)} {events : List Event}
    {members : List (String × Document)} (hmembers : members ≠ [])
    (hstream : streamProcess interrupts lines 0 = (events ++ [Event.completed members], none)) :
    (∀ raw ∈ lines, Readable interrupts raw) ∧
      (results lines).getLast? = some (.dict members) := by
  rw [streamProcess] at hstream
  split at hstream
  · cases (Prod.mk.inj hstream).2
  next reader hread =>
    have hlines := readable_of_readAll (congrArg Prod.snd hread)
    obtain ⟨last, hlast, hresult⟩ := @exists_readAll _ {} _ hlines
    obtain rfl : last = reader := (Prod.mk.inj (hlast.symm.trans hread)).1
    rw [if_pos rfl] at hstream
    split at hstream
    next found hfound =>
      obtain ⟨-, hsame⟩ := List.append_inj' (Prod.mk.inj hstream).1 rfl
      obtain rfl : found = members := by
        cases hsame
        rfl
      rw [hfound] at hresult
      refine ⟨hlines, ?_⟩
      cases hlater : (results lines).getLast? with
      | none =>
        rw [hlater] at hresult
        exact absurd (Document.dict.inj hresult) hmembers
      | some result =>
        rw [hlater] at hresult
        exact congrArg some hresult.symm
    · cases (Prod.mk.inj hstream).2

/-- **The result is reported** exactly when every line is readable and the result line is
neither cut nor scrubbed, or what is left of it is no JSON and a line before says the same. -/
theorem reported_iff_survives (interrupts : Interrupts)
    (truncate : Numeral → Except Raised ℤ) (before : List (List UInt8)) (load : Load) :
    Reported interrupts truncate before load ↔ Survives interrupts before load := by
  rw [Survives, ← getLast?_results_iff]
  apply Iff.intro
  · rintro ⟨⟨events, hstream⟩, -⟩
    exact of_completed (List.cons_ne_nil _ _) hstream
  · rintro ⟨hlines, hlast⟩
    exact ⟨exists_completed hlines hlast, rowsLoaded_members truncate load⟩

/-! ## A path with a password option -/

/-- A load into a lake on object storage whose path names a partition by password. -/
def partitioned : Load where
  dataset := "crm"
  destination := "ducklake"
  rowCounts := [("users", 3)]
  dataPath := some "s3://lake/password=none/"
  isDataset := by decide
  isDestination := by decide
  isTable := by decide
  nodup := by decide

/-- The scrubber takes the path for a secret, and the result names another one. -/
theorem not_reported_of_partitioned : ¬ ∀ interrupts truncate before load,
    Reported interrupts truncate before load := by
  intro h
  obtain ⟨⟨events, hstream⟩, -⟩ :=
    h (fun _ => none) (fun _ => .error .overflowError) [] partitioned
  obtain ⟨-, hlast⟩ := of_completed (List.cons_ne_nil _ _) hstream
  rcases getLast?_results_iff.mp hlast with ⟨-, hsame⟩ | ⟨-, hnone⟩
  · exact absurd hsame (by decide +kernel)
  · cases hnone

end DbtCraft.Routers.IngestResult
