/-
# JSON documents

`json.loads` and `json.dumps` with an indent, on documents of every kind. A number is kept as the
text it is written as, and the members of an object as they stand there.
-/

import DbtCraft.Python.Json
import DbtCraft.Python.Lines

namespace DbtCraft.Python.JsonText

open DbtCraft.Python.Json

/-! ## Documents -/

/-- A constant of the language. -/
inductive Word
  | null
  | true
  | false
  | notANumber
  | infinity
  | minusInfinity
deriving DecidableEq

def Word.text : Word → List Char
  | .null => ['n', 'u', 'l', 'l']
  | .true => ['t', 'r', 'u', 'e']
  | .false => ['f', 'a', 'l', 's', 'e']
  | .notANumber => ['N', 'a', 'N']
  | .infinity => ['I', 'n', 'f', 'i', 'n', 'i', 't', 'y']
  | .minusInfinity => ['-', 'I', 'n', 'f', 'i', 'n', 'i', 't', 'y']

def words : List Word := [.null, .true, .false, .notANumber, .infinity, .minusInfinity]

/-- A character of a number. -/
def isNumeralChar (c : Char) : Bool := c.isDigit || ['+', '-', '.', 'e', 'E'].contains c

/-- The digits at the beginning, of which there is one at least, are followed by such a text. -/
def afterDigits (follows : List Char → Bool) (text : List Char) : Bool :=
  text.head?.any Char.isDigit && follows (text.dropWhile Char.isDigit)

/-- The end of a number. -/
def isExponent : List Char → Bool
  | [] => true
  | c :: rest =>
    (c = 'e' || c = 'E') &&
      match rest with
      | '+' :: rest | '-' :: rest => afterDigits List.isEmpty rest
      | rest => afterDigits List.isEmpty rest

def isFraction : List Char → Bool
  | '.' :: rest => afterDigits isExponent rest
  | rest => isExponent rest

def isUnsigned : List Char → Bool
  | '0' :: rest => isFraction rest
  | rest => afterDigits isFraction rest

def isSigned : List Char → Bool
  | '-' :: rest => isUnsigned rest
  | rest => isUnsigned rest

/-- The text of a number: an optional sign, an integer part without leading zeros, and an optional
fraction and exponent. -/
def isNumeral (text : List Char) : Bool := text.all isNumeralChar && isSigned text

structure Numeral where
  text : List Char
  isNumeral : isNumeral text = true
deriving DecidableEq

inductive Document
  | word (word : Word)
  | number (number : Numeral)
  | string (text : String)
  | list (items : List Document)
  | dict (members : List (String × Document))

/-! ## Writing -/

/-- A new line at a depth. -/
def newline (indent depth : ℕ) : List Char := '\n' :: List.replicate (indent * depth) ' '

/-- Each text on a line of its own, between two brackets. -/
def enclose (indent depth : ℕ) (opening closing : Char) : List (List Char) → List Char
  | [] => [opening, closing]
  | first :: rest =>
    opening :: (newline indent (depth + 1) ++ (first ++
      (rest.flatMap (fun text => ',' :: (newline indent (depth + 1) ++ text)) ++
        (newline indent depth ++ [closing]))))

mutual

/-- `json.dumps(document, indent=indent)`, at a depth. -/
def write (indent : ℕ) : ℕ → Document → List Char
  | _, .word word => word.text
  | _, .number number => number.text
  | _, .string text => writeString text
  | depth, .list items => enclose indent depth '[' ']' (writeItems indent (depth + 1) items)
  | depth, .dict members => enclose indent depth '{' '}' (writeMembers indent (depth + 1) members)

def writeItems (indent : ℕ) : ℕ → List Document → List (List Char)
  | _, [] => []
  | depth, item :: rest => write indent depth item :: writeItems indent depth rest

def writeMembers (indent : ℕ) : ℕ → List (String × Document) → List (List Char)
  | _, [] => []
  | depth, (name, value) :: rest =>
    (writeString name ++ ':' :: ' ' :: write indent depth value) :: writeMembers indent depth rest

end

/-- `json.dumps(document, indent=indent)`. -/
def dumps (indent : ℕ) (document : Document) : List Char := write indent 0 document

/-! ## Reading -/

def readWord (text : List Char) : Option (Word × List Char) :=
  words.findSome? fun word =>
    if word.text.isPrefixOf text then some (word, text.drop word.text.length) else none

/-- A number goes as far as its characters do; none of them can follow it. -/
def readNumber (text : List Char) : Option (Numeral × List Char) :=
  if h : isNumeral (text.takeWhile isNumeralChar) = true then
    some (⟨text.takeWhile isNumeralChar, h⟩, text.dropWhile isNumeralChar)
  else none

/-- What is no list and no object. -/
def readScalar (text : List Char) : Option (Document × List Char) :=
  match readString text with
  | some (string, rest) => some (.string string, rest)
  | none =>
    match readNumber text with
    | some (number, rest) => some (.number number, rest)
    | none => (readWord text).map fun found => (.word found.1, found.2)

mutual

/-- A value, with lists and objects no deeper than the fuel lasts. -/
def readValue : ℕ → List Char → Option (Document × List Char)
  | 0, _ => none
  | fuel + 1, text =>
    match skipBlanks text with
    | '[' :: rest =>
      match skipBlanks rest with
      | ']' :: rest => some (.list [], rest)
      | _ => (readItems fuel rest).map fun found => (.list found.1, found.2)
    | '{' :: rest =>
      match skipBlanks rest with
      | '}' :: rest => some (.dict [], rest)
      | _ => (readMembers fuel rest).map fun found => (.dict found.1, found.2)
    | text => readScalar text

def readItems : ℕ → List Char → Option (List Document × List Char)
  | 0, _ => none
  | fuel + 1, text =>
    match readValue fuel text with
    | none => none
    | some (item, rest) =>
      match skipBlanks rest with
      | ',' :: rest => (readItems fuel rest).map fun found => (item :: found.1, found.2)
      | ']' :: rest => some ([item], rest)
      | _ => none

def readMembers : ℕ → List Char → Option (List (String × Document) × List Char)
  | 0, _ => none
  | fuel + 1, text =>
    match readString (skipBlanks text) with
    | none => none
    | some (name, rest) =>
      match skipBlanks rest with
      | ':' :: rest =>
        match readValue fuel rest with
        | none => none
        | some (value, rest) =>
          match skipBlanks rest with
          | ',' :: rest =>
            (readMembers fuel rest).map fun found => ((name, value) :: found.1, found.2)
          | '}' :: rest => some ([(name, value)], rest)
          | _ => none
      | _ => none

end

/-- `json.loads(text)`; `none` is a `JSONDecodeError`. -/
def loads (text : List Char) : Option Document :=
  match readValue text.length text with
  | some (document, rest) => if skipBlanks rest = [] then some document else none
  | none => none

/-! ## Scalars -/

/-- No number goes on in a text. -/
def Ends (text : List Char) : Prop := ∀ c ∈ text.head?, isNumeralChar c = false

variable {indent depth fuel : ℕ} {text rest : List Char}

theorem readWord_text (word : Word) : readWord (word.text ++ rest) = some (word, rest) := by
  cases word <;> rfl

theorem readNumber_word (word : Word) : readNumber (word.text ++ rest) = none := by
  cases word <;> rfl

theorem readString_of_head (htext : text.head? ≠ some '"') : readString text = none := by
  cases text with
  | nil => rfl
  | cons c more =>
    rw [readString]
    intro rest hrest
    rw [hrest] at htext
    exact htext rfl

theorem Numeral.ne_nil (numeral : Numeral) : numeral.text ≠ [] := by
  intro hnil
  have hnumeral := numeral.isNumeral
  rw [hnil] at hnumeral
  exact absurd hnumeral (by decide)

theorem Numeral.all (numeral : Numeral) : ∀ c ∈ numeral.text, isNumeralChar c = true := by
  have hnumeral := numeral.isNumeral
  rw [JsonText.isNumeral, Bool.and_eq_true] at hnumeral
  exact List.all_eq_true.mp hnumeral.1

theorem readNumber_text (numeral : Numeral) (hends : Ends rest) :
    readNumber (numeral.text ++ rest) = some (numeral, rest) := by
  have hrest : rest.takeWhile isNumeralChar = [] ∧ rest.dropWhile isNumeralChar = rest := by
    cases rest with
    | nil => exact ⟨rfl, rfl⟩
    | cons c more =>
      have hc := hends c rfl
      rw [List.takeWhile_cons_of_neg (by simp [hc]), List.dropWhile_cons_of_neg (by simp [hc])]
      exact ⟨rfl, rfl⟩
  have htake : (numeral.text ++ rest).takeWhile isNumeralChar = numeral.text := by
    rw [List.takeWhile_append_of_pos numeral.all, hrest.1, List.append_nil]
  have hdrop : (numeral.text ++ rest).dropWhile isNumeralChar = rest := by
    rw [List.dropWhile_append_of_pos numeral.all, hrest.2]
  rw [readNumber]
  simp only [htake, hdrop, numeral.isNumeral, dif_pos]

/-- The beginning of a written scalar. -/
structure Starts (text : List Char) : Prop where
  blank : skipBlanks text = text
  list : ∀ rest, text ≠ '[' :: rest
  dict : ∀ rest, text ≠ '{' :: rest

theorem readValue_scalar (htext : Starts text) : readValue (fuel + 1) text = readScalar text := by
  rw [readValue, htext.blank]
  split
  · exact absurd rfl (htext.list _)
  · exact absurd rfl (htext.dict _)
  · rfl

theorem starts_of_head {c : Char} (hblank : isBlank c = false) (hlist : c ≠ '[') (hdict : c ≠ '{') :
    Starts (c :: text) where
  blank := skipBlanks_of_not hblank text
  list _ hmore := hlist (List.cons.inj hmore).1
  dict _ hmore := hdict (List.cons.inj hmore).1

theorem readValue_word (word : Word) :
    readValue (fuel + 1) (word.text ++ rest) = some (.word word, rest) := by
  have hstarts : Starts (word.text ++ rest) := by
    cases word <;> exact starts_of_head (by decide) (by decide) (by decide)
  have hstring : readString (word.text ++ rest) = none := by
    cases word <;> rfl
  rw [readValue_scalar hstarts, readScalar, hstring, readNumber_word, readWord_text]
  rfl

/-- The first character of a number. -/
theorem Numeral.exists_head (numeral : Numeral) : ∃ c more, numeral.text = c :: more ∧
    isBlank c = false ∧ ∀ d, isNumeralChar d = false → c ≠ d := by
  cases htext : numeral.text with
  | nil => exact absurd htext numeral.ne_nil
  | cons c more =>
    have hc : isNumeralChar c = true := numeral.all c (htext ▸ List.mem_cons_self)
    have hother : ∀ d, isNumeralChar d = false → c ≠ d := fun d hd hsame => by
      rw [hsame, hd] at hc
      cases hc
    refine ⟨c, more, rfl, ?_, hother⟩
    simp [isBlank, hother ' ' (by decide), hother '\t' (by decide), hother '\n' (by decide),
      hother '\r' (by decide)]

theorem readValue_numeral (numeral : Numeral) (hends : Ends rest) :
    readValue (fuel + 1) (numeral.text ++ rest) = some (.number numeral, rest) := by
  obtain ⟨c, more, htext, hblank, hother⟩ := numeral.exists_head
  have hstarts : Starts (c :: (more ++ rest)) :=
    starts_of_head hblank (hother _ (by decide)) (hother _ (by decide))
  have hstring : readString (c :: (more ++ rest)) = none :=
    readString_of_head fun hhead => hother '"' (by decide) (Option.some.inj hhead)
  have hnumber := readNumber_text numeral hends
  rw [htext, List.cons_append] at hnumber ⊢
  rw [readValue_scalar hstarts, readScalar, hstring, hnumber]

theorem readValue_string (string : String) :
    readValue (fuel + 1) (writeString string ++ rest) = some (.string string, rest) := by
  have hstarts : Starts (writeString string ++ rest) :=
    starts_of_head (by decide) (by decide) (by decide)
  rw [readValue_scalar hstarts, readScalar, readString_writeString]

/-! ## Lists and objects -/

theorem skipBlanks_newline : skipBlanks (newline indent depth ++ text) = skipBlanks text := by
  have hblank : ∀ c ∈ newline indent depth, isBlank c = true := by
    intro c hc
    rcases List.mem_cons.mp hc with hline | hspace
    · exact hline ▸ rfl
    · rw [List.eq_of_mem_replicate hspace]
      rfl
  rw [skipBlanks, List.dropWhile_append_of_pos hblank, skipBlanks]

theorem readValue_newline :
    readValue fuel (newline indent depth ++ text) = readValue fuel text := by
  cases fuel with
  | zero => rfl
  | succ fuel => rw [readValue, readValue, skipBlanks_newline]

theorem readItems_newline : readItems fuel (newline indent depth ++ text) = readItems fuel text := by
  cases fuel with
  | zero => rfl
  | succ fuel => rw [readItems, readItems, readValue_newline]

theorem readMembers_newline :
    readMembers fuel (newline indent depth ++ text) = readMembers fuel text := by
  cases fuel with
  | zero => rfl
  | succ fuel => rw [readMembers, readMembers, skipBlanks_newline]

mutual

/-- The fuel that a document needs. -/
def need : Document → ℕ
  | .list items => needItems items + 1
  | .dict members => needMembers members + 1
  | _ => 1

def needItems : List Document → ℕ
  | [] => 0
  | item :: rest => need item + needItems rest + 1

def needMembers : List (String × Document) → ℕ
  | [] => 0
  | (_, value) :: rest => need value + needMembers rest + 1

end

/-- The texts after the first one, each on its line. -/
def others (indent depth : ℕ) (texts : List (List Char)) : List Char :=
  texts.flatMap fun text => ',' :: (newline indent depth ++ text)

theorem ends_newline : Ends (newline indent depth ++ text) := by
  intro c hc
  have hline : c = '\n' := (Option.some.inj hc).symm
  rw [hline]
  decide

theorem ends_others {texts : List (List Char)} (hrest : Ends rest) :
    Ends (others indent depth texts ++ rest) := by
  cases texts with
  | nil => exact hrest
  | cons first more =>
    intro c hc
    have hcomma : c = ',' := (Option.some.inj hc).symm
    rw [hcomma]
    decide

/-- The beginning of a written document. -/
theorem write_head (indent depth : ℕ) (document : Document) :
    ∃ c more, write indent depth document = c :: more ∧ isBlank c = false ∧ c ≠ ']' := by
  cases document with
  | word word => cases word <;> exact ⟨_, _, rfl, by decide, by decide⟩
  | number numeral =>
    obtain ⟨c, more, htext, hblank, hother⟩ := numeral.exists_head
    exact ⟨c, more, htext, hblank, hother _ (by decide)⟩
  | string string => exact ⟨_, _, rfl, by decide, by decide⟩
  | list items =>
    rw [write]
    cases writeItems indent (depth + 1) items with
    | nil => exact ⟨_, _, rfl, by decide, by decide⟩
    | cons first more => exact ⟨_, _, rfl, by decide, by decide⟩
  | dict members =>
    rw [write]
    cases writeMembers indent (depth + 1) members with
    | nil => exact ⟨_, _, rfl, by decide, by decide⟩
    | cons first more => exact ⟨_, _, rfl, by decide, by decide⟩

theorem readValue_bracket (htext : ∀ more, skipBlanks text ≠ ']' :: more) :
    readValue (fuel + 1) ('[' :: text) =
      (readItems fuel text).map fun found => (.list found.1, found.2) := by
  rw [readValue, skipBlanks_of_not (by decide)]
  simp only

theorem readValue_brace (htext : ∀ more, skipBlanks text ≠ '}' :: more) :
    readValue (fuel + 1) ('{' :: text) =
      (readMembers fuel text).map fun found => (.dict found.1, found.2) := by
  rw [readValue, skipBlanks_of_not (by decide)]
  simp only

theorem skipBlanks_write (document : Document) :
    skipBlanks (write indent depth document ++ text) = write indent depth document ++ text := by
  obtain ⟨c, more, hwrite, hblank, -⟩ := write_head indent depth document
  rw [hwrite, List.cons_append, skipBlanks_of_not hblank]

/-- Documents are read back, with so much fuel. -/
def ReadsValues (indent fuel : ℕ) : Prop :=
  ∀ (document : Document) (depth : ℕ) (rest : List Char), need document ≤ fuel → Ends rest →
    readValue fuel (write indent depth document ++ rest) = some (document, rest)

def ReadsItems (indent fuel : ℕ) : Prop :=
  ∀ (item : Document) (more : List Document) (depth : ℕ) (rest text : List Char),
    needItems (item :: more) ≤ fuel → Ends rest → skipBlanks rest = ']' :: text →
      readItems fuel (write indent depth item ++
        (others indent depth (writeItems indent depth more) ++ rest)) = some (item :: more, text)

def ReadsMembers (indent fuel : ℕ) : Prop :=
  ∀ (name : String) (value : Document) (more : List (String × Document)) (depth : ℕ)
    (rest text : List Char),
    needMembers ((name, value) :: more) ≤ fuel → Ends rest → skipBlanks rest = '}' :: text →
      readMembers fuel (writeString name ++ ':' :: ' ' :: (write indent depth value ++
        (others indent depth (writeMembers indent depth more) ++ rest))) =
          some ((name, value) :: more, text)

theorem readsValues_succ (hreadItems : ReadsItems indent fuel)
    (hreadMembers : ReadsMembers indent fuel) : ReadsValues indent (fuel + 1) := by
  intro document depth rest hfuel hends
  cases document with
  | word word => exact readValue_word word
  | number number => exact readValue_numeral number hends
  | string string => exact readValue_string string
  | list items =>
    cases items with
    | nil => rfl
    | cons item more =>
      have htext : write indent depth (.list (item :: more)) ++ rest =
          '[' :: (newline indent (depth + 1) ++ (write indent (depth + 1) item ++
            (others indent (depth + 1) (writeItems indent (depth + 1) more) ++
              (newline indent depth ++ ']' :: rest)))) := by
        simp [write, writeItems, enclose, others]
      have hopen : ∀ later, skipBlanks (newline indent (depth + 1) ++
          (write indent (depth + 1) item ++
            (others indent (depth + 1) (writeItems indent (depth + 1) more) ++
              (newline indent depth ++ ']' :: rest)))) ≠ ']' :: later := by
        intro later hlater
        obtain ⟨c, head, hwrite, _, hc⟩ := write_head indent (depth + 1) item
        rw [skipBlanks_newline, skipBlanks_write, hwrite, List.cons_append] at hlater
        exact hc (List.cons.inj hlater).1
      have hitems := hreadItems item more (depth + 1) (newline indent depth ++ ']' :: rest) rest
        (Nat.le_of_succ_le_succ hfuel) ends_newline
        (skipBlanks_newline.trans (skipBlanks_of_not (by decide) rest))
      rw [htext, readValue_bracket hopen, readItems_newline, hitems]
      rfl
  | dict members =>
    cases members with
    | nil => rfl
    | cons member more =>
      obtain ⟨name, value⟩ := member
      have htext : write indent depth (.dict ((name, value) :: more)) ++ rest =
          '{' :: (newline indent (depth + 1) ++ (writeString name ++ ':' :: ' ' ::
            (write indent (depth + 1) value ++
              (others indent (depth + 1) (writeMembers indent (depth + 1) more) ++
                (newline indent depth ++ '}' :: rest))))) := by
        simp [write, writeMembers, enclose, others]
      have hopen : ∀ later, skipBlanks (newline indent (depth + 1) ++
          (writeString name ++ ':' :: ' ' :: (write indent (depth + 1) value ++
            (others indent (depth + 1) (writeMembers indent (depth + 1) more) ++
              (newline indent depth ++ '}' :: rest))))) ≠ '}' :: later := by
        intro later hlater
        rw [skipBlanks_newline, skipBlanks_writeString] at hlater
        exact absurd (List.cons.inj hlater).1 (by decide)
      have hmembers := hreadMembers name value more (depth + 1)
        (newline indent depth ++ '}' :: rest) rest (Nat.le_of_succ_le_succ hfuel) ends_newline
        (skipBlanks_newline.trans (skipBlanks_of_not (by decide) rest))
      rw [htext, readValue_brace hopen, readMembers_newline, hmembers]
      rfl

theorem readsItems_succ (hreadValues : ReadsValues indent fuel)
    (hreadItems : ReadsItems indent fuel) : ReadsItems indent (fuel + 1) := by
  intro item more depth rest text hfuel hends hclose
  rw [needItems] at hfuel
  rw [readItems, hreadValues item depth _ (by omega) (ends_others hends)]
  cases more with
  | nil => simp only [writeItems, others, List.flatMap_nil, List.nil_append, hclose]
  | cons next later =>
    have htext : others indent depth (writeItems indent depth (next :: later)) ++ rest =
        ',' :: (newline indent depth ++ (write indent depth next ++
          (others indent depth (writeItems indent depth later) ++ rest))) := by
      simp [writeItems, others]
    have hlater := hreadItems next later depth rest text (by omega) hends hclose
    rw [htext]
    simp only [skipBlanks_of_not (show isBlank ',' = false from rfl), readItems_newline, hlater,
      Option.map_some]

theorem readsMembers_succ (hreadValues : ReadsValues indent fuel)
    (hreadMembers : ReadsMembers indent fuel) : ReadsMembers indent (fuel + 1) := by
  intro name value more depth rest text hfuel hends hclose
  have hspace : ∀ later : List Char, readValue fuel (' ' :: later) = readValue fuel later := by
    intro later
    cases fuel with
    | zero => rfl
    | succ fuel => rw [readValue, readValue, skipBlanks_blank]
  rw [needMembers] at hfuel
  rw [readMembers, skipBlanks_writeString, readString_writeString]
  simp only [skipBlanks_of_not (show isBlank ':' = false from rfl), hspace]
  rw [hreadValues value depth _ (by omega) (ends_others hends)]
  cases more with
  | nil => simp only [writeMembers, others, List.flatMap_nil, List.nil_append, hclose]
  | cons next later =>
    obtain ⟨following, document⟩ := next
    have htext : others indent depth (writeMembers indent depth ((following, document) :: later)) ++
        rest = ',' :: (newline indent depth ++ (writeString following ++ ':' :: ' ' ::
          (write indent depth document ++
            (others indent depth (writeMembers indent depth later) ++ rest)))) := by
      simp [writeMembers, others]
    have hlater := hreadMembers following document later depth rest text (by omega) hends hclose
    rw [htext]
    simp only [skipBlanks_of_not (show isBlank ',' = false from rfl), readMembers_newline,
      hlater, Option.map_some]

theorem reads (indent fuel : ℕ) :
    ReadsValues indent fuel ∧ ReadsItems indent fuel ∧ ReadsMembers indent fuel := by
  induction fuel with
  | zero =>
    refine ⟨?_, ?_, ?_⟩
    · intro document depth rest hfuel
      cases document <;> simp [need] at hfuel
    · intro item more depth rest text hfuel
      simp [needItems] at hfuel
    · intro name value more depth rest text hfuel
      simp [needMembers] at hfuel
  | succ fuel ih =>
    obtain ⟨hvalues, hitems, hmembers⟩ := ih
    exact ⟨readsValues_succ hitems hmembers, readsItems_succ hvalues hitems,
      readsMembers_succ hvalues hmembers⟩

/-- What stands between the brackets is no longer than what is written. -/
theorem lineChars_lt_enclose (opening closing : Char) (texts : List (List Char)) :
    lineChars texts < (enclose indent depth opening closing texts).length := by
  have hline : ∀ depth, 1 ≤ (newline indent depth).length := fun depth => Nat.succ_pos _
  have hothers : ∀ texts, lineChars texts ≤ (others indent (depth + 1) texts).length := by
    intro texts
    induction texts with
    | nil => exact Nat.zero_le _
    | cons first rest ih =>
      have hfirst := hline (depth + 1)
      simp only [others, List.flatMap_cons, List.length_append, List.length_cons, lineChars,
        List.map_cons, List.sum_cons] at ih ⊢
      omega
  cases texts with
  | nil => exact Nat.zero_lt_succ 1
  | cons first rest =>
    have hrest := hothers rest
    have hfirst := hline (depth + 1)
    simp only [others, lineChars, List.map_cons, List.sum_cons, enclose, List.length_append,
      List.length_cons] at hrest ⊢
    omega

mutual

/-- The text of a document is fuel enough for it. -/
theorem need_le (indent depth : ℕ) (document : Document) :
    need document ≤ (write indent depth document).length := by
  cases document with
  | word word => cases word <;> exact Nat.succ_le_succ (Nat.zero_le _)
  | number numeral => exact List.length_pos_iff.mpr numeral.ne_nil
  | string string => exact Nat.succ_le_succ (Nat.zero_le _)
  | list items =>
    exact Nat.lt_of_le_of_lt (needItems_le indent (depth + 1) items)
      (lineChars_lt_enclose '[' ']' (writeItems indent (depth + 1) items))
  | dict members =>
    exact Nat.lt_of_le_of_lt (needMembers_le indent (depth + 1) members)
      (lineChars_lt_enclose '{' '}' (writeMembers indent (depth + 1) members))

theorem needItems_le (indent depth : ℕ) (items : List Document) :
    needItems items ≤ lineChars (writeItems indent depth items) := by
  cases items with
  | nil => exact Nat.zero_le _
  | cons item rest =>
    have hitem := need_le indent depth item
    have hrest := needItems_le indent depth rest
    rw [lineChars] at hrest
    rw [needItems, writeItems, lineChars, List.map_cons, List.sum_cons]
    omega

theorem needMembers_le (indent depth : ℕ) (members : List (String × Document)) :
    needMembers members ≤ lineChars (writeMembers indent depth members) := by
  cases members with
  | nil => exact Nat.zero_le _
  | cons member rest =>
    have hvalue := need_le indent depth member.2
    have hrest := needMembers_le indent depth rest
    rw [lineChars] at hrest
    rw [needMembers, writeMembers, lineChars, List.map_cons, List.sum_cons, List.length_append]
    simp only [List.length_cons]
    omega

end

/-- **A written document is read back.** -/
theorem loads_dumps (indent : ℕ) (document : Document) :
    loads (dumps indent document) = some document := by
  have hread := (reads indent (dumps indent document).length).1 document 0 []
    (need_le indent 0 document) (fun c hc => by cases hc)
  rw [List.append_nil, ← dumps] at hread
  rw [loads, hread]
  rfl

end DbtCraft.Python.JsonText
