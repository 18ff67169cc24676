/-
# JSON objects of strings

`json.dumps` and `json.loads` on objects whose members are strings. A string is written
in ASCII, a character outside the basic plane as two escapes; what is read are the code
units that stand there, which are then joined into characters.
-/

import Mathlib.Data.List.Basic
import Mathlib.Tactic.Common
import DbtCraft.Python.Dict
import DbtCraft.Python.Value

namespace DbtCraft.Python.Json

/-! ## Strings -/

/-- Where a reader is in a string. -/
inductive Reading
  | plain
  | escape
  | /-- After `\u` and so many digits. -/
    hex (count value : ℕ)

/-- The value of a hexadecimal digit. -/
def hexValue (c : Char) : Option ℕ :=
  if '0' ≤ c ∧ c ≤ '9' then some (c.toNat - '0'.toNat)
  else if 'a' ≤ c ∧ c ≤ 'f' then some (c.toNat - 'a'.toNat + 10)
  else if 'A' ≤ c ∧ c ≤ 'F' then some (c.toNat - 'A'.toNat + 10)
  else none

/-- The code of an escape of one letter. -/
def escapeCode : Char → Option ℕ
  | '"' => some 34
  | '\\' => some 92
  | '/' => some 47
  | 'b' => some 8
  | 'f' => some 12
  | 'n' => some 10
  | 'r' => some 13
  | 't' => some 9
  | _ => none

/-- A code before the ones that follow it. -/
def push (code : ℕ) (read : Option (List ℕ × List Char)) : Option (List ℕ × List Char) :=
  read.map fun found => (code :: found.1, found.2)

/-- The codes of a string up to its closing quote, and what stands after it. -/
def readCodes : Reading → List Char → Option (List ℕ × List Char)
  | _, [] => none
  | .plain, c :: rest =>
    if c = '"' then some ([], rest)
    else if c = '\\' then readCodes .escape rest
    else if c.toNat < 32 then none
    else push c.toNat (readCodes .plain rest)
  | .escape, c :: rest =>
    if c = 'u' then readCodes (.hex 0 0) rest
    else
      match escapeCode c with
      | some code => push code (readCodes .plain rest)
      | none => none
  | .hex count value, c :: rest =>
    match hexValue c with
    | some digit =>
      if count = 3 then push (16 * value + digit) (readCodes .plain rest)
      else readCodes (.hex (count + 1) (16 * value + digit)) rest
    | none => none

/-- The character of a code; a lone surrogate has none. -/
def ofCode (code : ℕ) : Option Char :=
  if code.isValidChar then some (Char.ofNat code) else none

/-- The codes are a high and a low surrogate. -/
@[irreducible]
def isPair (high low : ℕ) : Bool :=
  decide (0xD800 ≤ high ∧ high < 0xDC00 ∧ 0xDC00 ≤ low ∧ low < 0xE000)

/-- The code that two surrogates stand for. -/
@[irreducible]
def pairCode (high low : ℕ) : ℕ := 0x10000 + 0x400 * (high - 0xD800) + (low - 0xDC00)

/-- The characters of codes, two surrogates joined into one. -/
def joinCodes : List ℕ → Option (List Char)
  | [] => some []
  | [code] => (ofCode code).map fun c => [c]
  | code :: next :: rest =>
    if isPair code next then
      match ofCode (pairCode code next), joinCodes rest with
      | some c, some text => some (c :: text)
      | _, _ => none
    else
      match ofCode code, joinCodes (next :: rest) with
      | some c, some text => some (c :: text)
      | _, _ => none

/-- The codes that a character is written as. -/
def codes (c : Char) : List ℕ :=
  if c.toNat < 0x10000 then [c.toNat]
  else [0xD800 + (c.toNat - 0x10000) / 0x400, 0xDC00 + (c.toNat - 0x10000) % 0x400]

theorem hexValue_digitChar : ∀ digit < 16, hexValue (Nat.digitChar digit) = some digit := by
  decide

theorem readCodes_hex {count value digit : ℕ} (hdigit : digit < 16) (rest : List Char) :
    readCodes (.hex count value) (Nat.digitChar digit :: rest) =
      if count = 3 then push (16 * value + digit) (readCodes .plain rest)
      else readCodes (.hex (count + 1) (16 * value + digit)) rest := by
  simp only [readCodes, hexValue_digitChar digit hdigit]

/-- Four digits are read as the code they were written for. -/
theorem readCodes_hexFour {code : ℕ} (hcode : code < 0x10000) (rest : List Char) :
    readCodes .plain ('\\' :: 'u' :: hexFour code ++ rest) = push code (readCodes .plain rest) := by
  have hopen : readCodes .plain ('\\' :: 'u' :: hexFour code ++ rest) =
      readCodes (.hex 0 0) (hexFour code ++ rest) := rfl
  have hvalue : 16 * (16 * (16 * (16 * 0 + code / 4096 % 16) + code / 256 % 16) + code / 16 % 16) +
      code % 16 = code := by
    omega
  rw [hopen]
  unfold hexFour
  show readCodes (.hex 0 0) (_ :: _ :: _ :: _ :: rest) = _
  rw [readCodes_hex (Nat.mod_lt _ (by decide)), if_neg (by decide),
    readCodes_hex (Nat.mod_lt _ (by decide)), if_neg (by decide),
    readCodes_hex (Nat.mod_lt _ (by decide)), if_neg (by decide),
    readCodes_hex (Nat.mod_lt _ (by decide)), if_pos rfl, hvalue]

theorem readCodes_plain {c : Char} (hquote : c ≠ '"') (hslash : c ≠ '\\') (hcode : 32 ≤ c.toNat)
    (rest : List Char) :
    readCodes .plain (c :: rest) = push c.toNat (readCodes .plain rest) := by
  simp only [readCodes, if_neg hquote, if_neg hslash, if_neg (Nat.not_lt.mpr hcode)]

theorem readCodes_escape {c : Char} {code : ℕ} (hletter : c ≠ 'u')
    (hcode : escapeCode c = some code) (rest : List Char) :
    readCodes .plain ('\\' :: c :: rest) = push code (readCodes .plain rest) := by
  show readCodes .escape (c :: rest) = _
  simp only [readCodes, if_neg hletter, hcode]

theorem codes_of_lt {c : Char} (hcode : c.toNat < 0x10000) : codes c = [c.toNat] := if_pos hcode

/-- The code of a character, which is no surrogate. -/
theorem toNat_valid (c : Char) :
    c.toNat < 0xD800 ∨ 0xDFFF < c.toNat ∧ c.toNat < 0x110000 := c.valid

theorem toNat_lt (c : Char) : c.toNat < 0x110000 := by
  have hvalid := toNat_valid c
  omega

/-- The letters of the escapes but `u`. -/
def escapeLetters : List Char := ['"', '\\', 'n', 'r', 't', 'f', 'b']

/-- The ways in which a character is written. -/
inductive Written (c : Char) : List Char → Prop
  | escape {letter : Char} (hletter : letter ∈ escapeLetters)
      (hcode : escapeCode letter = some c.toNat) (hlow : c.toNat < 128) : Written c ['\\', letter]
  | plain (hquote : c ≠ '"') (hslash : c ≠ '\\') (hprintable : 32 ≤ c.toNat ∧ c.toNat ≤ 126) :
      Written c [c]
  | hex (hcode : c.toNat < 0x10000) : Written c ('\\' :: 'u' :: hexFour c.toNat)
  | pair (hcode : ¬ c.toNat < 0x10000) :
      Written c ('\\' :: 'u' :: hexFour (0xD800 + (c.toNat - 0x10000) / 0x400) ++
        '\\' :: 'u' :: hexFour (0xDC00 + (c.toNat - 0x10000) % 0x400))

theorem written_jsonChar (c : Char) : Written c (jsonChar c) := by
  unfold jsonChar
  dsimp only
  refine iteInduction (fun hc => .escape (by decide) (by rw [hc]; rfl) (by rw [hc]; decide))
    fun hquote => ?_
  refine iteInduction (fun hc => .escape (by decide) (by rw [hc]; rfl) (by rw [hc]; decide))
    fun hslash => ?_
  iterate 5
    refine iteInduction (fun hc => .escape (by decide) (by rw [hc]; rfl) (by rw [hc]; decide))
      fun _ => ?_
  exact iteInduction (.plain hquote hslash) fun _ => iteInduction .hex .pair

theorem readCodes_jsonChar (c : Char) (rest : List Char) :
    readCodes .plain (jsonChar c ++ rest) = (codes c).foldr push (readCodes .plain rest) := by
  have hwritten := written_jsonChar c
  generalize jsonChar c = text at hwritten ⊢
  cases hwritten with
  | escape hletter hcode hlow =>
    rw [codes_of_lt (by omega)]
    exact readCodes_escape (by rintro rfl; exact absurd hletter (by decide)) hcode rest
  | plain hquote hslash hprintable =>
    rw [codes_of_lt (by omega)]
    exact readCodes_plain hquote hslash hprintable.1 rest
  | hex hcode =>
    rw [codes_of_lt hcode]
    exact readCodes_hexFour hcode rest
  | pair hcode =>
    have hbound := toNat_lt c
    rw [codes, if_neg hcode, List.append_assoc, readCodes_hexFour (by omega),
      readCodes_hexFour (by omega)]
    rfl

theorem foldr_push (found codes : List ℕ) (rest : List Char) :
    codes.foldr push (some (found, rest)) = some (codes ++ found, rest) := by
  induction codes with
  | nil => rfl
  | cons code codes ih =>
    rw [List.foldr_cons, ih]
    rfl

theorem readCodes_text (text rest : List Char) :
    readCodes .plain (text.flatMap jsonChar ++ '"' :: rest) = some (text.flatMap codes, rest) := by
  induction text with
  | nil => rfl
  | cons c text ih =>
    rw [List.flatMap_cons, List.append_assoc, readCodes_jsonChar, ih, foldr_push,
      List.flatMap_cons]

theorem ofCode_toNat (c : Char) : ofCode c.toNat = some c := by
  have hvalid : c.toNat.isValidChar := c.valid
  unfold ofCode
  rw [if_pos hvalid, Char.ofNat_toNat]

theorem isPair_toNat (c : Char) (next : ℕ) : isPair c.toNat next = false := by
  have hvalid := toNat_valid c
  unfold isPair
  rw [decide_eq_false_iff_not]
  omega

theorem joinCodes_cons (code next : ℕ) (rest : List ℕ) :
    joinCodes (code :: next :: rest) =
      if isPair code next then
        match ofCode (pairCode code next), joinCodes rest with
        | some c, some text => some (c :: text)
        | _, _ => none
      else
        match ofCode code, joinCodes (next :: rest) with
        | some c, some text => some (c :: text)
        | _, _ => none := joinCodes.eq_def _

theorem joinCodes_toNat (c : Char) (rest : List ℕ) :
    joinCodes (c.toNat :: rest) = (joinCodes rest).map (c :: ·) := by
  cases rest with
  | nil =>
    show (ofCode c.toNat).map _ = _
    rw [ofCode_toNat]
    rfl
  | cons next rest =>
    rw [joinCodes_cons, isPair_toNat, if_neg Bool.false_ne_true, ofCode_toNat]
    cases joinCodes (next :: rest) <;> rfl

theorem joinCodes_codes (c : Char) (rest : List ℕ) :
    joinCodes (codes c ++ rest) = (joinCodes rest).map (c :: ·) := by
  by_cases hcode : c.toNat < 0x10000
  · rw [codes_of_lt hcode]
    exact joinCodes_toNat c rest
  · have hbound := toNat_lt c
    have hpair : pairCode (0xD800 + (c.toNat - 0x10000) / 0x400)
        (0xDC00 + (c.toNat - 0x10000) % 0x400) = c.toNat := by
      unfold pairCode
      omega
    have hsurrogates : isPair (0xD800 + (c.toNat - 0x10000) / 0x400)
        (0xDC00 + (c.toNat - 0x10000) % 0x400) = true := by
      unfold isPair
      rw [decide_eq_true_iff]
      omega
    rw [codes, if_neg hcode]
    show joinCodes (_ :: _ :: rest) = _
    rw [joinCodes_cons, if_pos hsurrogates, hpair, ofCode_toNat]
    cases joinCodes rest <;> rfl

theorem joinCodes_flatMap (text : List Char) : joinCodes (text.flatMap codes) = some text := by
  induction text with
  | nil => rfl
  | cons c text ih =>
    rw [List.flatMap_cons, joinCodes_codes, ih]
    rfl

/-- A string and what stands after it. -/
def readString : List Char → Option (String × List Char)
  | '"' :: rest =>
    match readCodes .plain rest with
    | some (found, after) => (joinCodes found).map fun text => (String.ofList text, after)
    | none => none
  | _ => none

/-- `json.dumps(text)`. -/
def writeString (text : String) : List Char := '"' :: text.toList.flatMap jsonChar ++ ['"']

/-- A written string is read back. -/
theorem readString_writeString (text : String) (rest : List Char) :
    readString (writeString text ++ rest) = some (text, rest) := by
  have happend : writeString text ++ rest =
      '"' :: (text.toList.flatMap jsonChar ++ '"' :: rest) := by
    simp [writeString]
  rw [happend, readString, readCodes_text]
  simp only [joinCodes_flatMap, Option.map_some, String.ofList_toList]

/-! ## Objects -/

/-- The members after the first one. -/
def writeMembers : Dict String String → List Char
  | [] => ['\x7d']
  | (key, value) :: rest =>
    ',' :: ' ' :: writeString key ++ ':' :: ' ' :: writeString value ++ writeMembers rest

/-- `json.dumps(dict)`. -/
def dumps : Dict String String → List Char
  | [] => ['\x7b', '\x7d']
  | (key, value) :: rest =>
    '\x7b' :: writeString key ++ ':' :: ' ' :: writeString value ++ writeMembers rest

def isBlank (c : Char) : Bool := c = ' ' || c = '\t' || c = '\n' || c = '\r'

def skipBlanks (text : List Char) : List Char := text.dropWhile isBlank

/-- A member, with the colon in it, and what stands after it. -/
def readMember (text : List Char) : Option ((String × String) × List Char) :=
  match readString (skipBlanks text) with
  | none => none
  | some (key, rest) =>
    match skipBlanks rest with
    | ':' :: rest =>
      (readString (skipBlanks rest)).map fun found => ((key, found.1), found.2)
    | _ => none

/-- So many members at most. -/
def readMembers : ℕ → List Char → Option (Dict String String × List Char)
  | 0, _ => none
  | count + 1, text =>
    match readMember text with
    | none => none
    | some (member, rest) =>
      match skipBlanks rest with
      | ',' :: rest => (readMembers count rest).map fun found => (member :: found.1, found.2)
      | '\x7d' :: rest => some ([member], rest)
      | _ => none

/-- `json.loads(text)`: the last of two members of one name is the one that counts. -/
def loads (text : List Char) : Option (Dict String String) :=
  match skipBlanks text with
  | '\x7b' :: rest =>
    match skipBlanks rest with
    | '\x7d' :: rest => if skipBlanks rest = [] then some [] else none
    | _ =>
      match readMembers rest.length rest with
      | some (members, rest) =>
        if skipBlanks rest = [] then
          some (members.foldl (fun dict member => Dict.set dict member.1 member.2) [])
        else none
      | none => none
  | _ => none

theorem skipBlanks_of_not {c : Char} (hc : isBlank c = false) (rest : List Char) :
    skipBlanks (c :: rest) = c :: rest := by
  unfold skipBlanks
  rw [List.dropWhile_cons_of_neg (by simp [hc])]

theorem skipBlanks_blank (rest : List Char) : skipBlanks (' ' :: rest) = skipBlanks rest := rfl

theorem skipBlanks_writeString (text : String) (rest : List Char) :
    skipBlanks (writeString text ++ rest) = writeString text ++ rest :=
  skipBlanks_of_not rfl _

theorem readMember_write (key value : String) (rest : List Char) :
    readMember (writeString key ++ ':' :: ' ' :: (writeString value ++ rest)) =
      some ((key, value), rest) := by
  unfold readMember
  rw [skipBlanks_writeString, readString_writeString]
  simp only [skipBlanks_of_not (show isBlank ':' = false from rfl), skipBlanks_blank,
    skipBlanks_writeString, readString_writeString, Option.map_some]

theorem readMembers_blank (count : ℕ) (text : List Char) :
    readMembers count (' ' :: text) = readMembers count text := by
  cases count <;> rfl

theorem readMembers_write {count : ℕ} (key value : String) (rest : Dict String String)
    (hcount : rest.length < count) :
    readMembers count (writeString key ++ ':' :: ' ' :: (writeString value ++ writeMembers rest)) =
      some ((key, value) :: rest, []) := by
  induction rest generalizing count key value with
  | nil =>
    obtain ⟨count, rfl⟩ := Nat.exists_eq_succ_of_ne_zero (Nat.ne_of_gt hcount)
    rw [readMembers, readMember_write]
    rfl
  | cons member rest ih =>
    obtain ⟨count, rfl⟩ := Nat.exists_eq_succ_of_ne_zero (Nat.ne_of_gt (Nat.zero_lt_of_lt hcount))
    have hrest := ih member.1 member.2 (Nat.lt_of_succ_lt_succ hcount)
    rw [readMembers, readMember_write]
    simp only [writeMembers, List.cons_append, List.append_assoc,
      skipBlanks_of_not (show isBlank ',' = false from rfl), readMembers_blank, hrest,
      Option.map_some]

theorem length_writeMembers (members : Dict String String) :
    members.length < (writeMembers members).length := by
  induction members with
  | nil => exact Nat.zero_lt_one
  | cons member rest ih =>
    simp only [writeMembers, List.length_cons, List.length_append]
    omega

/-- A written object is read back, member by member. -/
theorem loads_dumps (dict : Dict String String) :
    loads (dumps dict) = some (dict.foldl (fun read member => Dict.set read member.1 member.2) []) := by
  cases dict with
  | nil => rfl
  | cons member rest =>
    obtain ⟨key, value⟩ := member
    have hdumps : dumps ((key, value) :: rest) =
        '\x7b' :: (writeString key ++ ':' :: ' ' :: (writeString value ++ writeMembers rest)) := by
      simp [dumps]
    have hlength : rest.length <
        (writeString key ++ ':' :: ' ' :: (writeString value ++ writeMembers rest)).length := by
      have hrest := length_writeMembers rest
      simp only [List.length_append, List.length_cons]
      omega
    have hmembers := readMembers_write key value rest hlength
    rw [hdumps, loads, skipBlanks_of_not rfl]
    simp only [skipBlanks_writeString, hmembers]
    rfl

/-- An encoder and a decoder of objects: what is decoded answers as what was encoded. -/
structure Codec where
  encode : Dict String String → List Char
  decode : List Char → Option (Dict String String)
  get_decode : ∀ dict, (dict.map Prod.fst).Nodup →
    ∃ read, decode (encode dict) = some read ∧ ∀ key, read.get key = dict.get key

/-- The `json` module. -/
def python : Codec where
  encode := dumps
  decode := loads
  get_decode dict hdict := by
    apply Exists.intro _
    apply And.intro (loads_dumps dict)
    intro key
    rw [Dict.get_foldl_set_of_nodup hdict, Dict.get_nil, Option.or_none]

end DbtCraft.Python.Json
