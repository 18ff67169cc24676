/-
# JSON objects on one line

`json.dumps` without an indent, on documents and on objects whose values are given by their
texts, and how `json.loads` reads such an object member by member. What is read from an
object stands before its closing brace.
-/

import DbtCraft.Python.JsonText
import Mathlib.Data.List.Forall2
import Mathlib.Data.List.TakeWhile

namespace DbtCraft.Python.JsonText

open DbtCraft.Python.Json

/-! ## Writing -/

/-- The members of an object behind its opening brace. -/
def membersText : List (String × List Char) → List Char
  | [] => ['}']
  | [(name, value)] => writeString name ++ ':' :: ' ' :: (value ++ ['}'])
  | (name, value) :: member :: rest =>
    writeString name ++ ':' :: ' ' :: (value ++ ',' :: ' ' :: membersText (member :: rest))

/-- `json.dumps` of an object, from the texts of its values. -/
def objectText (members : List (String × List Char)) : List Char := '{' :: membersText members

theorem length_le_membersText (members : List (String × List Char)) :
    members.length ≤ (membersText members).length := by
  induction members with
  | nil => exact Nat.zero_le _
  | cons member rest ih =>
    cases rest with
    | nil =>
      rw [membersText, List.length_append, List.length_cons, List.length_cons]
      exact Nat.le_add_left _ _
    | cons next rest =>
      simp only [membersText, List.length_append, List.length_cons] at ih ⊢
      omega

/-- No digits but those of zero begin with one. -/
theorem head?_toDigits {number : ℕ} (hnumber : number ≠ 0) :
    (Nat.toDigits 10 number).head? ≠ some '0' := by
  induction number using Nat.strong_induction_on with
  | _ number ih =>
    by_cases hsmall : number < 10
    · have hdigit : ∀ digit < 10, digit ≠ 0 → Nat.digitChar digit ≠ '0' := by decide
      rw [Nat.toDigits_of_lt_base hsmall]
      exact fun hhead => hdigit number hsmall hnumber (Option.some.inj hhead)
    · have hshorter := ih (number / 10) (by omega) (by omega)
      rw [Nat.toDigits_of_base_le (by decide) (by omega)]
      cases hdigits : Nat.toDigits 10 (number / 10) with
      | nil => exact absurd hdigits Nat.toDigits_ne_nil
      | cons c rest => rwa [hdigits] at hshorter

theorem isNumeral_toDigits (number : ℕ) : isNumeral (Nat.toDigits 10 number) = true := by
  have hdigit : ∀ c ∈ Nat.toDigits 10 number, c.isDigit = true := fun c hc =>
    Nat.isDigit_of_mem_toDigits (by decide) (by decide) hc
  have hall : (Nat.toDigits 10 number).all isNumeralChar = true :=
    List.all_eq_true.mpr fun c hc => by simp [isNumeralChar, hdigit c hc]
  rw [isNumeral, hall, Bool.true_and]
  by_cases hzero : number = 0
  · rw [hzero]
    rfl
  · cases htext : Nat.toDigits 10 number with
    | nil => exact absurd htext Nat.toDigits_ne_nil
    | cons c rest =>
      rw [htext] at hdigit
      have hc := hdigit c List.mem_cons_self
      have hlead : c ≠ '0' := fun hzero' =>
        head?_toDigits hzero (by rw [htext, hzero', List.head?_cons])
      have hrest : rest.dropWhile Char.isDigit = [] :=
        List.dropWhile_eq_nil_iff.mpr fun d hd => hdigit d (List.mem_cons_of_mem c hd)
      have hsign : c ≠ '-' := by
        rintro rfl
        cases hc
      simp [isSigned, isUnsigned, afterDigits, hsign, hlead, hc, hrest, isFraction, isExponent]

/-- The text of a natural number. -/
def numeralOf (number : ℕ) : Numeral := ⟨Nat.toDigits 10 number, isNumeral_toDigits number⟩

/-! ## Reading member by member -/

variable {fuel : ℕ} {name : String} {value : Document} {text rest : List Char}
  {members : List (String × Document)} {items : List Document}

theorem readValue_blank : readValue fuel (' ' :: text) = readValue fuel text := by
  cases fuel with
  | zero => rfl
  | succ fuel => rw [readValue, readValue, skipBlanks_blank]

theorem readMembers_blank : readMembers fuel (' ' :: text) = readMembers fuel text := by
  cases fuel with
  | zero => rfl
  | succ fuel => rw [readMembers, readMembers, skipBlanks_blank]

/-- A member with others behind it. -/
theorem readMembers_cons (hvalue : readValue fuel text = some (value, ',' :: ' ' :: rest)) :
    readMembers (fuel + 1) (writeString name ++ ':' :: ' ' :: text) =
      (readMembers fuel rest).map fun found => ((name, value) :: found.1, found.2) := by
  rw [readMembers, skipBlanks_writeString, readString_writeString]
  simp only [skipBlanks_of_not (show isBlank ':' = false from rfl), readValue_blank, hvalue,
    skipBlanks_of_not (show isBlank ',' = false from rfl), readMembers_blank]

theorem readMembers_last (hvalue : readValue fuel text = some (value, '}' :: rest)) :
    readMembers (fuel + 1) (writeString name ++ ':' :: ' ' :: text) =
      some ([(name, value)], rest) := by
  rw [readMembers, skipBlanks_writeString, readString_writeString]
  simp only [skipBlanks_of_not (show isBlank ':' = false from rfl), readValue_blank, hvalue,
    skipBlanks_of_not (show isBlank '}' = false from rfl)]

theorem readMembers_ne_nil (hread : readMembers fuel text = some (members, rest)) :
    members ≠ [] := by
  cases fuel with
  | zero => cases hread
  | succ fuel =>
    rw [readMembers] at hread
    split at hread
    · cases hread
    · split at hread
      · split at hread
        · cases hread
        · split at hread
          · obtain ⟨found, -, hfound⟩ := Option.map_eq_some_iff.mp hread
            cases hfound
            exact List.cons_ne_nil _ _
          · cases hread
            exact List.cons_ne_nil _ _
          · cases hread
      · cases hread

/-- Behind the only member that is read of a text, the object ends. -/
theorem exists_readValue (hread : readMembers (fuel + 1) (writeString name ++ ':' :: ' ' :: text) =
      some ([(name, value)], rest)) :
    ∃ behind, readValue fuel text = some (value, behind) ∧ skipBlanks behind = '}' :: rest := by
  rw [readMembers, skipBlanks_writeString, readString_writeString] at hread
  simp only [skipBlanks_of_not (show isBlank ':' = false from rfl), readValue_blank] at hread
  split at hread
  · cases hread
  next found behind hvalue =>
    split at hread
    · obtain ⟨later, hlater, hfound⟩ := Option.map_eq_some_iff.mp hread
      exact absurd (List.cons.inj (Prod.mk.inj hfound).1).2 (readMembers_ne_nil hlater)
    next hclose =>
      cases hread
      exact ⟨behind, hvalue, hclose⟩
    · cases hread

/-- The text is read as the value, with so much fuel and whatever follows it. -/
def Reads (need : ℕ) (text : List Char) (value : Document) : Prop :=
  ∀ fuel rest, need ≤ fuel → Ends rest → readValue fuel (text ++ rest) = some (value, rest)

theorem reads_string (string : String) : Reads 1 (writeString string) (.string string) := by
  intro fuel rest hfuel hends
  obtain ⟨fuel, rfl⟩ := Nat.exists_eq_add_of_le' hfuel
  exact readValue_string string

theorem reads_word (word : Word) : Reads 1 word.text (.word word) := by
  intro fuel rest hfuel hends
  obtain ⟨fuel, rfl⟩ := Nat.exists_eq_add_of_le' hfuel
  exact readValue_word word

theorem reads_numeral (numeral : Numeral) : Reads 1 numeral.text (.number numeral) := by
  intro fuel rest hfuel hends
  obtain ⟨fuel, rfl⟩ := Nat.exists_eq_add_of_le' hfuel
  exact readValue_numeral numeral hends

/-- A text of members and the members it is read as. -/
def ReadsWritten (need : ℕ) : List (String × List Char) → List (String × Document) → Prop :=
  List.Forall₂ fun written member => written.1 = member.1 ∧ Reads need written.2 member.2

variable {need : ℕ} {written : List (String × List Char)}

theorem ends_of_mark {c : Char} (hc : isNumeralChar c = false) : Ends (c :: rest) := by
  intro d hd
  rwa [← Option.some.inj hd]

theorem readMembers_membersText (hread : ReadsWritten need written members)
    (hne : members ≠ []) (hfuel : need + members.length ≤ fuel) :
    readMembers fuel (membersText written ++ rest) = some (members, rest) := by
  induction hread generalizing fuel with
  | nil => exact absurd rfl hne
  | @cons written member writtens members hmember hrest ih =>
    obtain ⟨name, text⟩ := written
    obtain ⟨sameName, value⟩ := member
    obtain ⟨rfl, hvalue⟩ := hmember
    rw [List.length_cons] at hfuel
    obtain ⟨fuel, rfl⟩ := Nat.exists_eq_add_of_le' (show 1 ≤ fuel by omega)
    cases hrest with
    | nil =>
      have hlast := hvalue fuel ('}' :: rest) (by omega) (ends_of_mark (by decide))
      have hsplit : membersText [(name, text)] ++ rest =
          writeString name ++ ':' :: ' ' :: (text ++ '}' :: rest) := by
        simp [membersText]
      rw [hsplit, readMembers_last hlast]
    | @cons next nextMember writtens members hnext hlater =>
      have hlater := ih (List.cons_ne_nil _ _) (by omega : _ ≤ fuel)
      have hfirst := hvalue fuel (',' :: ' ' :: (membersText (next :: writtens) ++ rest))
        (by omega) (ends_of_mark (by decide))
      have hsplit : membersText ((name, text) :: next :: writtens) ++ rest =
          writeString name ++ ':' :: ' ' ::
            (text ++ ',' :: ' ' :: (membersText (next :: writtens) ++ rest)) := by
        simp [membersText]
      rw [hsplit, readMembers_cons hfirst, hlater]
      rfl

theorem reads_objectText (hread : ReadsWritten need written members) :
    Reads (need + members.length + 1) (objectText written) (.dict members) := by
  intro fuel rest hfuel hends
  obtain ⟨fuel, rfl⟩ := Nat.exists_eq_add_of_le' (show 1 ≤ fuel by omega)
  cases hread with
  | nil => rfl
  | @cons first member writtens members hmember hrest =>
    have hmembers : readMembers fuel (membersText (first :: writtens) ++ rest) =
        some (member :: members, rest) :=
      readMembers_membersText (.cons hmember hrest) (List.cons_ne_nil _ _) (by omega)
    have hopen : ∀ more, skipBlanks (membersText (first :: writtens) ++ rest) ≠ '}' :: more := by
      intro more hmore
      cases writtens with
      | nil =>
        simp only [membersText, List.append_assoc, skipBlanks_writeString] at hmore
        cases hmore
      | cons next writtens =>
        simp only [membersText, List.append_assoc, skipBlanks_writeString] at hmore
        cases hmore
    rw [objectText, List.cons_append, readValue_brace hopen, hmembers]
    rfl

/-! ## Documents -/

/-- The items of a list behind its opening bracket. -/
def itemsText : List (List Char) → List Char
  | [] => [']']
  | [text] => text ++ [']']
  | text :: next :: rest => text ++ ',' :: ' ' :: itemsText (next :: rest)

mutual

/-- `json.dumps(document)`. -/
def lineText : Document → List Char
  | .word word => word.text
  | .number number => number.text
  | .string text => writeString text
  | .list items => '[' :: itemsText (lineTexts items)
  | .dict members => objectText (lineMembers members)

def lineTexts : List Document → List (List Char)
  | [] => []
  | item :: rest => lineText item :: lineTexts rest

def lineMembers : List (String × Document) → List (String × List Char)
  | [] => []
  | (name, value) :: rest => (name, lineText value) :: lineMembers rest

end

theorem Reads.mono {more : ℕ} (hreads : Reads need text value) (hmore : need ≤ more) :
    Reads more text value := fun fuel rest hfuel => hreads fuel rest (hmore.trans hfuel)

theorem readItems_blank : readItems fuel (' ' :: text) = readItems fuel text := by
  cases fuel with
  | zero => rfl
  | succ fuel => rw [readItems, readItems, readValue_blank]

/-- Nothing is read where a list ends. -/
theorem readValue_closed (htext : skipBlanks text = ']' :: rest) : readValue fuel text = none := by
  cases fuel with
  | zero => rfl
  | succ fuel =>
    rw [readValue, htext]
    rfl

/-- No item is longer than the text behind its opening bracket, less a character for each. -/
theorem itemsText_bound (texts : List (List Char)) : texts.length ≤ (itemsText texts).length ∧
    ∀ text ∈ texts, text.length ≤ (itemsText texts).length - texts.length := by
  induction texts with
  | nil => exact ⟨Nat.zero_le _, nofun⟩
  | cons text texts ih =>
    cases texts with
    | nil => simp [itemsText]
    | cons next texts =>
      simp only [itemsText, List.length_append, List.length_cons] at ih ⊢
      exact ⟨by omega, List.forall_mem_cons.mpr ⟨by omega, fun other hother =>
        (ih.2 other hother).trans (by omega)⟩⟩

theorem membersText_bound (written : List (String × List Char)) :
    ∀ member ∈ written, member.2.length ≤ (membersText written).length - written.length := by
  induction written with
  | nil => nofun
  | cons member written ih =>
    have hlength := length_le_membersText written
    cases written with
    | nil =>
      simp only [membersText, List.length_append, List.length_cons, List.forall_mem_singleton]
      omega
    | cons next written =>
      simp only [membersText, List.length_append, List.length_cons] at ih hlength ⊢
      exact List.forall_mem_cons.mpr ⟨by omega, fun other hother =>
        (ih other hother).trans (by omega)⟩

theorem readItems_itemsText {texts : List (List Char)}
    (hread : List.Forall₂ (Reads need) texts items) (hne : items ≠ [])
    (hfuel : need + items.length ≤ fuel) :
    readItems fuel (itemsText texts ++ rest) = some (items, rest) := by
  induction hread generalizing fuel with
  | nil => exact absurd rfl hne
  | @cons text item texts items hitem hrest ih =>
    rw [List.length_cons] at hfuel
    obtain ⟨fuel, rfl⟩ := Nat.exists_eq_add_of_le' (show 1 ≤ fuel by omega)
    cases hrest with
    | nil =>
      have hlast := hitem fuel (']' :: rest) (by omega) (ends_of_mark (by decide))
      rw [itemsText, List.append_assoc, List.singleton_append, readItems, hlast]
      rfl
    | @cons next nextItem texts items hnext hlater =>
      have hothers := ih (List.cons_ne_nil _ _) (by omega : _ ≤ fuel)
      have hfirst := hitem fuel (',' :: ' ' :: (itemsText (next :: texts) ++ rest))
        (by omega) (ends_of_mark (by decide))
      rw [itemsText, List.append_assoc, List.cons_append, List.cons_append, readItems, hfirst]
      simp only [skipBlanks_of_not (show isBlank ',' = false from rfl), readItems_blank, hothers,
        Option.map_some]

theorem reads_listText {texts : List (List Char)} (hread : List.Forall₂ (Reads need) texts items) :
    Reads (need + items.length + 1) ('[' :: itemsText texts) (.list items) := by
  intro fuel rest hfuel hends
  obtain ⟨fuel, rfl⟩ := Nat.exists_eq_add_of_le' (show 1 ≤ fuel by omega)
  cases hread with
  | nil => rfl
  | @cons text item texts items hitem hrest =>
    have hitems : readItems fuel (itemsText (text :: texts) ++ rest) = some (item :: items, rest) :=
      readItems_itemsText (.cons hitem hrest) (List.cons_ne_nil _ _) (by omega)
    have hopen : ∀ more, skipBlanks (itemsText (text :: texts) ++ rest) ≠ ']' :: more := by
      intro more hmore
      obtain ⟨fuel, rfl⟩ := Nat.exists_eq_add_of_le' (show 1 ≤ fuel by simp at hfuel; omega)
      rw [readItems, readValue_closed hmore] at hitems
      cases hitems
    rw [List.cons_append, readValue_bracket hopen, hitems]
    rfl

mutual

/-- **A document on one line is read back.** Its text is fuel enough. -/
theorem reads_lineText (document : Document) :
    Reads (lineText document).length (lineText document) document := by
  cases document with
  | word word => exact (reads_word word).mono (by cases word <;> decide)
  | number numeral => exact (reads_numeral numeral).mono (List.length_pos_iff.mpr numeral.ne_nil)
  | string string => exact (reads_string string).mono (Nat.succ_le_succ (Nat.zero_le _))
  | list items =>
    have hbound := itemsText_bound (lineTexts items)
    have hitems := reads_lineTexts items _ hbound.2
    rw [hitems.length_eq] at hbound hitems
    refine (reads_listText hitems).mono ?_
    rw [lineText, List.length_cons]
    omega
  | dict members =>
    have hlength := length_le_membersText (lineMembers members)
    have hmembers := reads_lineMembers members _ (membersText_bound (lineMembers members))
    rw [List.Forall₂.length_eq hmembers] at hlength hmembers
    refine (reads_objectText hmembers).mono ?_
    rw [lineText, objectText, List.length_cons]
    omega

theorem reads_lineTexts (items : List Document) (bound : ℕ)
    (hbound : ∀ text ∈ lineTexts items, text.length ≤ bound) :
    List.Forall₂ (Reads bound) (lineTexts items) items := by
  cases items with
  | nil => exact .nil
  | cons item rest =>
    rw [lineTexts] at hbound ⊢
    obtain ⟨hfirst, hrest⟩ := List.forall_mem_cons.mp hbound
    exact .cons ((reads_lineText item).mono hfirst) (reads_lineTexts rest bound hrest)

theorem reads_lineMembers (members : List (String × Document)) (bound : ℕ)
    (hbound : ∀ member ∈ lineMembers members, member.2.length ≤ bound) :
    ReadsWritten bound (lineMembers members) members := by
  cases members with
  | nil => exact .nil
  | cons member rest =>
    rw [lineMembers] at hbound ⊢
    obtain ⟨hfirst, hrest⟩ := List.forall_mem_cons.mp hbound
    exact .cons ⟨rfl, (reads_lineText member.2).mono hfirst⟩ (reads_lineMembers rest bound hrest)

end

theorem loads_lineText (document : Document) : loads (lineText document) = some document := by
  have hread := reads_lineText document (lineText document).length [] le_rfl nofun
  rw [List.append_nil] at hread
  rw [loads, hread]
  rfl

/-! ## Printable characters -/

/-- A printable character of ASCII. -/
def Printable (c : Char) : Prop := 32 ≤ c.toNat ∧ c.toNat ≤ 126

instance (c : Char) : Decidable (Printable c) := inferInstanceAs (Decidable (_ ∧ _))

theorem printable_jsonChar (c : Char) : ∀ d ∈ jsonChar c, Printable d := by
  have hhex (code : ℕ) : ∀ d ∈ hexFour code, Printable d := by
    have hdigit : ∀ digit < 16, Printable (Nat.digitChar digit) := by decide
    simp [hexFour, hdigit, Nat.mod_lt]
  have hwritten := written_jsonChar c
  generalize jsonChar c = text at hwritten ⊢
  cases hwritten with
  | escape hletter _ _ =>
    have hletters : ∀ letter ∈ escapeLetters, Printable letter := by decide
    exact List.forall_mem_cons.mpr ⟨by decide, List.forall_mem_singleton.mpr (hletters _ hletter)⟩
  | plain _ _ hprintable => exact List.forall_mem_singleton.mpr hprintable
  | hex _ =>
    simp only [List.forall_mem_cons]
    exact ⟨by decide, by decide, hhex _⟩
  | pair _ =>
    simp only [List.cons_append, List.forall_mem_cons, List.forall_mem_append]
    exact ⟨by decide, by decide, hhex _, by decide, by decide, hhex _⟩

theorem printable_writeString (text : String) : ∀ c ∈ writeString text, Printable c := by
  refine List.forall_mem_cons.mpr ⟨by decide, List.forall_mem_append.mpr ⟨?_, by decide⟩⟩
  intro c hc
  obtain ⟨own, -, hown⟩ := List.mem_flatMap.mp hc
  exact printable_jsonChar own c hown

theorem printable_numeral (numeral : Numeral) : ∀ c ∈ numeral.text, Printable c := by
  intro c hc
  have hnumeral := numeral.all c hc
  simp only [isNumeralChar, Bool.or_eq_true, List.contains_iff_mem] at hnumeral
  rcases hnumeral with hdigit | hmark
  · simp only [Char.isDigit, Bool.and_eq_true, decide_eq_true_eq, UInt32.le_iff_toNat_le] at hdigit
    exact ⟨(by decide : 32 ≤ 48).trans hdigit.1, hdigit.2.trans (by decide)⟩
  · exact (by decide : ∀ c ∈ ['+', '-', '.', 'e', 'E'], Printable c) c hmark

theorem printable_itemsText {texts : List (List Char)}
    (htexts : ∀ text ∈ texts, ∀ c ∈ text, Printable c) : ∀ c ∈ itemsText texts, Printable c := by
  induction texts with
  | nil => decide
  | cons text texts ih =>
    obtain ⟨htext, hrest⟩ := List.forall_mem_cons.mp htexts
    cases texts with
    | nil => exact List.forall_mem_append.mpr ⟨htext, by decide⟩
    | cons next texts =>
      simp only [itemsText, List.forall_mem_append, List.forall_mem_cons]
      exact ⟨htext, by decide, by decide, ih hrest⟩

theorem printable_membersText {written : List (String × List Char)}
    (hwritten : ∀ member ∈ written, ∀ c ∈ member.2, Printable c) :
    ∀ c ∈ membersText written, Printable c := by
  induction written with
  | nil => decide
  | cons member written ih =>
    obtain ⟨hmember, hrest⟩ := List.forall_mem_cons.mp hwritten
    have hname := printable_writeString member.1
    cases written with
    | nil =>
      simp only [membersText, List.forall_mem_append, List.forall_mem_cons]
      exact ⟨hname, by decide, by decide, hmember, by decide, nofun⟩
    | cons next written =>
      simp only [membersText, List.forall_mem_append, List.forall_mem_cons]
      exact ⟨hname, by decide, by decide, hmember, by decide, by decide, ih hrest⟩

mutual

/-- What is written on one line is printable. -/
theorem printable_lineText (document : Document) : ∀ c ∈ lineText document, Printable c := by
  cases document with
  | word word => cases word <;> decide
  | number numeral => exact printable_numeral numeral
  | string text => exact printable_writeString text
  | list items =>
    exact List.forall_mem_cons.mpr ⟨by decide, printable_itemsText (printable_lineTexts items)⟩
  | dict members =>
    exact List.forall_mem_cons.mpr ⟨by decide, printable_membersText (printable_lineMembers members)⟩

theorem printable_lineTexts (items : List Document) :
    ∀ text ∈ lineTexts items, ∀ c ∈ text, Printable c := by
  cases items with
  | nil => nofun
  | cons item rest =>
    exact List.forall_mem_cons.mpr ⟨printable_lineText item, printable_lineTexts rest⟩

theorem printable_lineMembers (members : List (String × Document)) :
    ∀ member ∈ lineMembers members, ∀ c ∈ member.2, Printable c := by
  cases members with
  | nil => nofun
  | cons member rest =>
    exact List.forall_mem_cons.mpr ⟨printable_lineText member.2, printable_lineMembers rest⟩

end

/-! ## What is read ends in the text -/

theorem skipBlanks_suffix (text : List Char) : skipBlanks text <:+ text :=
  List.dropWhile_suffix isBlank

theorem readCodes_suffix {reading : Reading} {codes : List ℕ}
    (hread : readCodes reading text = some (codes, rest)) : '"' :: rest <:+ text := by
  induction text generalizing reading codes with
  | nil => cases reading <;> cases hread
  | cons c text ih =>
    have hlater : ∀ {reading codes}, readCodes reading text = some (codes, rest) →
        '"' :: rest <:+ c :: text := fun hlater => (ih hlater).trans (List.suffix_cons c text)
    have hpushed : ∀ {code reading}, push code (readCodes reading text) = some (codes, rest) →
        '"' :: rest <:+ c :: text := by
      intro code reading hpushed
      obtain ⟨⟨codes, later⟩, hfound, hsame⟩ := Option.map_eq_some_iff.mp hpushed
      cases hsame
      exact (ih hfound).trans (List.suffix_cons c text)
    cases reading with
    | plain =>
      rw [readCodes] at hread
      split at hread
      next hquote =>
        cases hread
        exact hquote ▸ List.suffix_refl _
      · split at hread
        · exact hlater hread
        · split at hread
          · cases hread
          · exact hpushed hread
    | escape =>
      rw [readCodes] at hread
      split at hread
      · exact hlater hread
      · split at hread
        · exact hpushed hread
        · cases hread
    | hex count value =>
      rw [readCodes] at hread
      split at hread
      · split at hread
        · exact hpushed hread
        · exact hlater hread
      · cases hread

theorem readString_suffix {string : String} (hread : readString text = some (string, rest)) :
    rest <:+ text := by
  unfold readString at hread
  split at hread
  next behind =>
    split at hread
    next hcodes =>
      obtain ⟨found, -, hsame⟩ := Option.map_eq_some_iff.mp hread
      rw [← (Prod.mk.inj hsame).2]
      exact ((List.suffix_cons _ _).trans (readCodes_suffix hcodes)).trans
        (List.suffix_cons _ behind)
    · cases hread
  · cases hread

theorem readScalar_suffix (hread : readScalar text = some (value, rest)) : rest <:+ text := by
  unfold readScalar at hread
  split at hread
  next hstring =>
    cases hread
    exact readString_suffix hstring
  · split at hread
    next hnumber =>
      cases hread
      unfold readNumber at hnumber
      split at hnumber
      · cases hnumber
        exact List.dropWhile_suffix isNumeralChar
      · cases hnumber
    · obtain ⟨found, hfound, hsame⟩ := Option.map_eq_some_iff.mp hread
      obtain ⟨word, -, hword⟩ := List.exists_of_findSome?_eq_some hfound
      split at hword
      · cases hword
        rw [← (Prod.mk.inj hsame).2]
        exact List.drop_suffix _ text
      · cases hword

/-- What follows a value, a list or an object stands behind it, and the bracket before it. -/
structure Suffixes (fuel : ℕ) : Prop where
  value : ∀ {text value rest}, readValue fuel text = some (value, rest) → rest <:+ text
  items : ∀ {text items rest}, readItems fuel text = some (items, rest) → ']' :: rest <:+ text
  members : ∀ {text members rest}, readMembers fuel text = some (members, rest) →
    '}' :: rest <:+ text

/-- What stands behind a skipped text. -/
theorem suffix_of_skipBlanks {c : Char} (hskip : skipBlanks text = c :: rest) :
    c :: rest <:+ text := hskip ▸ skipBlanks_suffix text

theorem suffixes (fuel : ℕ) : Suffixes fuel := by
  induction fuel with
  | zero =>
    refine ⟨fun hread => ?_, fun hread => ?_, fun hread => ?_⟩
    all_goals cases hread
  | succ fuel ih =>
    refine ⟨fun {text value rest} hread => ?_, fun {text items rest} hread => ?_,
      fun {text members rest} hread => ?_⟩
    · rw [readValue] at hread
      split at hread
      next behind hopen =>
        have hbehind := (List.suffix_cons '[' behind).trans (suffix_of_skipBlanks hopen)
        split at hread
        next hclose =>
          cases hread
          exact ((List.suffix_cons _ _).trans (suffix_of_skipBlanks hclose)).trans hbehind
        · obtain ⟨found, hfound, hsame⟩ := Option.map_eq_some_iff.mp hread
          rw [← (Prod.mk.inj hsame).2]
          exact ((List.suffix_cons _ _).trans (ih.items hfound)).trans hbehind
      next behind hopen =>
        have hbehind := (List.suffix_cons '{' behind).trans (suffix_of_skipBlanks hopen)
        split at hread
        next hclose =>
          cases hread
          exact ((List.suffix_cons _ _).trans (suffix_of_skipBlanks hclose)).trans hbehind
        · obtain ⟨found, hfound, hsame⟩ := Option.map_eq_some_iff.mp hread
          rw [← (Prod.mk.inj hsame).2]
          exact ((List.suffix_cons _ _).trans (ih.members hfound)).trans hbehind
      · exact (readScalar_suffix hread).trans (skipBlanks_suffix text)
    · rw [readItems] at hread
      split at hread
      · cases hread
      next item behind hitem =>
        have hbehind := ih.value hitem
        split at hread
        next later hcomma =>
          obtain ⟨found, hfound, hsame⟩ := Option.map_eq_some_iff.mp hread
          rw [← (Prod.mk.inj hsame).2]
          exact (((ih.items hfound).trans (List.suffix_cons ',' later)).trans
            (suffix_of_skipBlanks hcomma)).trans hbehind
        next hclose =>
          cases hread
          exact (suffix_of_skipBlanks hclose).trans hbehind
        · cases hread
    · rw [readMembers] at hread
      split at hread
      · cases hread
      next name behind hname =>
        have hfirst := (readString_suffix hname).trans (skipBlanks_suffix text)
        split at hread
        next after hcolon =>
          have hafter := ((List.suffix_cons ':' after).trans
            (suffix_of_skipBlanks hcolon)).trans hfirst
          split at hread
          · cases hread
          next value last hvalue =>
            have hlast := (ih.value hvalue).trans hafter
            split at hread
            next later hcomma =>
              obtain ⟨found, hfound, hsame⟩ := Option.map_eq_some_iff.mp hread
              rw [← (Prod.mk.inj hsame).2]
              exact (((ih.members hfound).trans (List.suffix_cons ',' later)).trans
                (suffix_of_skipBlanks hcomma)).trans hlast
            next hclose =>
              cases hread
              exact (suffix_of_skipBlanks hclose).trans hlast
            · cases hread
        · cases hread

/-- **An object ends with its brace**: what begins with a brace and ends with something else
is none. -/
theorem loads_eq_none {c : Char} (hblank : isBlank c = false) (hc : c ≠ '}') :
    loads ('{' :: (text ++ [c])) = none := by
  cases hread : readValue ('{' :: (text ++ [c])).length ('{' :: (text ++ [c])) with
  | none => rw [loads, hread]
  | some read =>
    obtain ⟨value, rest⟩ := read
    rw [loads, hread]
    refine if_neg fun hend => ?_
    -- A brace is followed by blanks to the end of the text.
    have hall : ∀ d ∈ rest, isBlank d = true := List.dropWhile_eq_nil_iff.mp hend
    have hsuffix : '}' :: rest <:+ text ++ [c] := by
      rw [List.length_cons, readValue, skipBlanks_of_not rfl] at hread
      simp only at hread
      split at hread
      next hclose =>
        cases hread
        exact suffix_of_skipBlanks hclose
      · obtain ⟨found, hfound, hsame⟩ := Option.map_eq_some_iff.mp hread
        rw [← (Prod.mk.inj hsame).2]
        exact (suffixes _).members hfound
    have hlast : ('}' :: rest).getLast? = some c := by
      obtain ⟨before, hbefore⟩ := hsuffix
      have hwhole := congrArg List.getLast? hbefore
      rw [List.getLast?_append_of_ne_nil _ (List.cons_ne_nil _ _), List.getLast?_concat] at hwhole
      exact hwhole
    have hmem : c ∈ '}' :: rest := List.mem_of_getLast? hlast
    rcases List.mem_cons.mp hmem with hbrace | hrest
    · exact hc hbrace
    · rw [hall c hrest] at hblank
      cases hblank

/-! ## Values -/

mutual

/-- The value of a document: of several members with one name the last counts, in the place of
the first. -/
def merged : Document → Document
  | .word word => .word word
  | .number number => .number number
  | .string text => .string text
  | .list items => .list (mergedItems items)
  | .dict members => .dict (mergedMembers members)

def mergedItems : List Document → List Document
  | [] => []
  | item :: rest => merged item :: mergedItems rest

def mergedMembers : List (String × Document) → List (String × Document)
  | [] => []
  | (name, value) :: rest =>
    let later := mergedMembers rest
    (name, (later.lookup name).getD (merged value)) :: later.filter fun member => member.1 ≠ name

end

/-- `json.loads`. -/
def loadsValue (text : List Char) : Option Document := (loads text).map merged

theorem loadsValue_eq_none (hloads : loads text = none) : loadsValue text = none := by
  rw [loadsValue, hloads]
  rfl

/-- Members with different names are all kept. -/
theorem mergedMembers_eq_map (hnodup : (members.map (·.1)).Nodup) :
    mergedMembers members = members.map fun member => (member.1, merged member.2) := by
  induction members with
  | nil => rfl
  | cons member rest ih =>
    obtain ⟨name, value⟩ := member
    rw [List.map_cons, List.nodup_cons] at hnodup
    obtain ⟨hname, hnodup⟩ := hnodup
    have hother : ∀ other ∈ rest, other.1 ≠ name := fun other hother hsame =>
      hname (List.mem_map.mpr ⟨other, hother, hsame⟩)
    have hlookup : (rest.map fun member => (member.1, merged member.2)).lookup name = none := by
      rw [List.lookup_eq_none_iff]
      intro entry hentry
      obtain ⟨other, hmem, rfl⟩ := List.mem_map.mp hentry
      exact bne_iff_ne.mpr (hother other hmem).symm
    have hfilter : (rest.map fun member => (member.1, merged member.2)).filter
        (fun member => member.1 ≠ name) = rest.map fun member => (member.1, merged member.2) := by
      refine List.filter_eq_self.mpr fun entry hentry => ?_
      obtain ⟨other, hmem, rfl⟩ := List.mem_map.mp hentry
      exact decide_eq_true (hother other hmem)
    rw [mergedMembers, ih hnodup]
    simp only [hlookup, hfilter, Option.getD_none, List.map_cons]

end DbtCraft.Python.JsonText
