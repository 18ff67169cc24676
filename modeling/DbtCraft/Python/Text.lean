/-
# Python strings

The string methods of the standard library that the service uses, where Lean's
own differ: `str.strip` removes every character for which `str.isspace` holds,
which is more than ASCII white space.
-/

import Mathlib.Data.List.Infix

namespace DbtCraft.Python

/-- Found before the instance for all characters, which does not evaluate. -/
instance (priority := 2000) decidableForallMem {p : Char → Prop} [DecidablePred p]
    {text : List Char} : Decidable (∀ c ∈ text, p c) := List.decidableBAll p text

instance lawfulBEqText : LawfulBEq (List Char) := inferInstance

/-- The characters with `str.isspace()`. -/
def isSpace (c : Char) : Bool :=
  let code := c.toNat
  (9 ≤ code && code ≤ 13) || (28 ≤ code && code ≤ 32) || code = 0x85 || code = 0xA0 ||
    code = 0x1680 || (0x2000 ≤ code && code ≤ 0x200A) || code = 0x2028 || code = 0x2029 ||
    code = 0x202F || code = 0x205F || code = 0x3000

/-- `str.strip()`. -/
def strip (text : String) : String :=
  String.ofList (((text.toList.dropWhile isSpace).reverse.dropWhile isSpace).reverse)

/-- `text.startswith(start)`. -/
def startsWith (text start : String) : Bool :=
  start.toList.isPrefixOf text.toList

/-- `text.upper()` on ASCII text. -/
def upper (text : String) : String := String.ofList (text.toList.map Char.toUpper)

/-- `needle in text`. -/
def contains (needle text : String) : Bool :=
  decide (needle.toList <:+: text.toList)

/-- `text.split(separator)`. -/
def split (separator : Char) (text : List Char) : List (List Char) :=
  text.foldr (fun c found =>
    if c = separator then [] :: found
    else match found with
      | first :: rest => (c :: first) :: rest
      | [] => [[c]]) [[]]

/-! ## Classes of characters -/

theorem isUpper_eq (c : Char) : c.isUpper = decide (c.val ≥ 'A'.val ∧ c.val ≤ 'Z'.val) := rfl

theorem isLower_eq (c : Char) : c.isLower = (decide (c.val ≥ 'a'.val) && decide (c.val ≤ 'z'.val)) :=
  rfl

theorem isAlpha_eq (c : Char) : c.isAlpha = (c.isUpper || c.isLower) := rfl

/-! ## White space -/

/-- Letters and digits are no white space. -/
theorem isSpace_of_isAlphanum {c : Char} (hc : c.isAlphanum = true) : isSpace c = false := by
  have hcode : c.toNat = c.val.toNat := rfl
  have hbound : (48 ≤ c.toNat ∧ c.toNat ≤ 57) ∨ (65 ≤ c.toNat ∧ c.toNat ≤ 90) ∨
      (97 ≤ c.toNat ∧ c.toNat ≤ 122) := by
    simp only [Char.isAlphanum, isAlpha_eq, isUpper_eq, isLower_eq, Char.isDigit,
      Bool.or_eq_true, Bool.and_eq_true, decide_eq_true_eq, UInt32.le_iff_toNat_le, ge_iff_le] at hc
    rcases hc with (hupper | hlower) | hdigit
    · exact .inr (.inl hupper)
    · exact .inr (.inr hlower)
    · exact .inl hdigit
  simp only [isSpace, Bool.or_eq_false_iff, Bool.and_eq_false_iff, decide_eq_false_iff_not]
  omega

theorem dropWhile_isSpace {text : List Char} (htext : ∀ c ∈ text, isSpace c = false) :
    text.dropWhile isSpace = text := by
  cases text with
  | nil => rfl
  | cons first rest =>
    rw [List.dropWhile_cons_of_neg (by simp [htext first List.mem_cons_self])]

/-- Nothing is stripped of a text without white space. -/
theorem strip_eq_self {text : String} (htext : ∀ c ∈ text.toList, isSpace c = false) :
    strip text = text := by
  unfold strip
  rw [dropWhile_isSpace htext, dropWhile_isSpace fun c hc => htext c (List.mem_reverse.mp hc),
    List.reverse_reverse, String.ofList_toList]

/-! ## Letters -/

/-- An upper-case letter becomes a lower-case one. -/
theorem isLower_toLower {c : Char} (hc : c.isUpper = true) : c.toLower.isLower = true := by
  have hbound : 65 ≤ c.toNat ∧ c.toNat ≤ 90 := by
    simpa [isUpper_eq, UInt32.le_iff_toNat_le] using hc
  have hcode : c.toLower.toNat = c.toNat + 32 := by
    have hval : c.val ≥ 'A'.val ∧ c.val ≤ 'Z'.val := by simpa [isUpper_eq] using hc
    have hnat : c.val.toNat = c.toNat := rfl
    unfold Char.toLower
    rw [dif_pos hval]
    show (c.val + ('a'.val - 'A'.val)).toNat = c.val.toNat + 32
    rw [UInt32.toNat_add]
    show (c.val.toNat + 32) % 2 ^ 32 = _
    omega
  simp only [isLower_eq, ge_iff_le, Bool.and_eq_true, decide_eq_true_eq, UInt32.le_iff_toNat_le]
  show 97 ≤ c.toLower.toNat ∧ c.toLower.toNat ≤ 122
  omega

/-- Only an upper-case letter changes. -/
theorem toLower_of_not_isUpper {c : Char} (hc : c.isUpper = false) : c.toLower = c := by
  have hval : ¬ (c.val ≥ 'A'.val ∧ c.val ≤ 'Z'.val) := by
    intro hval
    have hupper : c.isUpper = true := by simpa [isUpper_eq] using hval
    rw [hc] at hupper
    cases hupper
  unfold Char.toLower
  rw [dif_neg hval]

/-- No letter becomes a character that is none. -/
theorem toLower_eq_iff {c d : Char} (hd : d.isAlpha = false) : c.toLower = d ↔ c = d := by
  cases hc : c.isUpper with
  | false => rw [toLower_of_not_isUpper hc]
  | true =>
    have hlower := isLower_toLower hc
    constructor
    · intro hsame
      simp [isAlpha_eq, ← hsame, hlower] at hd
    · intro hsame
      simp [isAlpha_eq, ← hsame, hc] at hd

theorem toLower_toLower (c : Char) : c.toLower.toLower = c.toLower := by
  cases hc : c.isUpper with
  | false => rw [toLower_of_not_isUpper hc, toLower_of_not_isUpper hc]
  | true =>
    apply toLower_of_not_isUpper
    have hlower := isLower_toLower hc
    simp only [isLower_eq, isUpper_eq, ge_iff_le, Bool.and_eq_true, decide_eq_true_eq,
      decide_eq_false_iff_not, UInt32.le_iff_toNat_le] at hlower ⊢
    have hz : 'Z'.val.toNat = 90 := rfl
    have ha : 'a'.val.toNat = 97 := rfl
    omega

end DbtCraft.Python
