/-
# Typed values

`parseMacroArgValue` and `buildMacroArgsPayload` of `features/develop/model/macros.ts` beside
`coerceVarValue` and `validateVars`: which texts are taken as the JSON values they are, or stay
as they are typed, and which named values are in the object that is sent. Numbers are compared
as `JSON.stringify` writes them.
-/

import DbtCraft.Python.JsonText
import DbtCraft.Web.RunOptionsRequest
import Mathlib.Algebra.Field.Rat

namespace DbtCraft.Web.RunOptions

open DbtCraft.Python
open DbtCraft.Python.JsonText (isExponent isFraction isNumeral isNumeralChar)
open DbtCraft.Server.AiProviders (trim)
open DbtCraft.Web.RunOptionsRequest (assignAll assignEntries_eq_ok checkVars_eq_ok entryVariables)

/-! ## Arguments of macros -/

/-- `/^-?\d+(\.\d+)?$/`. -/
def isPlainDecimal (text : List Char) : Bool :=
  let unsigned := if text.head? = some '-' then text.tail else text
  !(unsigned.takeWhile Char.isDigit).isEmpty &&
    match unsigned.dropWhile Char.isDigit with
    | [] => true
    | point :: fraction => point = '.' && !fraction.isEmpty && fraction.all Char.isDigit

/-- `parseMacroArgValue`; `none` is `undefined`. -/
def parseMacroArgValue (engine : Engine) (raw : String) : Option Json :=
  let trimmed := trim raw
  if trimmed = "" then none
  else if trimmed = "true" then some (.bool true)
  else if trimmed = "false" then some (.bool false)
  else if trimmed = "null" then some .null
  else if isPlainDecimal trimmed.toList then
    match engine.finiteNumber trimmed with
    | some number => some (.number number)
    | none => some .infinite
  else if isBracketed trimmed.toList then some ((engine.parse trimmed).getD (.string raw))
  else some (.string raw)

/-- What every object inherits. -/
def inheritedNames : List String :=
  ["__defineGetter__", "__defineSetter__", "__lookupGetter__", "__lookupSetter__", "__proto__",
    "constructor", "hasOwnProperty", "isPrototypeOf", "propertyIsEnumerable", "toLocaleString",
    "toString", "valueOf"]

/-- The fields that the loops of `buildMacroArgsPayload` go through: all, and once more those
that the signature names. Without such a field what every object inherits has no `trim`. -/
def argFields (form : Dict String String) (signature : List String) :
    Option (List (String × String)) :=
  if ∃ name ∈ signature, form.get name = none ∧ name ∈ inheritedNames then none
  else some (form ++ signature.filterMap fun name => (form.get name).map fun raw => (name, raw))

/-- `buildMacroArgsPayload`, for a signature with these names; `none` is a `TypeError`. -/
def buildMacroArgsPayload (engine : Engine) (form : Dict String String)
    (signature : List String) : Option VarsObject :=
  (argFields form signature).map fun fields =>
    fields.foldl (fun object field =>
      match parseMacroArgValue engine field.2 with
      | some value => object.assign field.1 value
      | none => object) {}

/-! ## Numbers -/

/-- A digit in any base. -/
def digitOf (c : Char) : ℕ := if c.isDigit then c.toNat - 48 else c.toLower.toNat - 87

def digitsValue (base : ℕ) (digits : List Char) : ℕ :=
  digits.foldl (fun value c => value * base + digitOf c) 0

def signed : List Char → ℤ × List Char
  | '-' :: rest => (-1, rest)
  | '+' :: rest => (1, rest)
  | rest => (1, rest)

def exponentOf : List Char → Option ℤ
  | [] => some 0
  | mark :: rest =>
    let (sign, digits) := signed rest
    if (mark = 'e' ∨ mark = 'E') ∧ digits ≠ [] ∧ digits.all Char.isDigit = true then
      some (sign * digitsValue 10 digits)
    else none

/-- The number that a decimal literal stands for. -/
def decimalOf (text : List Char) : Option ℚ :=
  let (sign, unsigned) := signed text
  let whole := unsigned.takeWhile Char.isDigit
  let rest := unsigned.dropWhile Char.isDigit
  let fraction := if rest.head? = some '.' then rest.tail.takeWhile Char.isDigit else []
  let rest := if rest.head? = some '.' then rest.tail.dropWhile Char.isDigit else rest
  if whole = [] ∧ fraction = [] then none
  else (exponentOf rest).map fun exponent =>
    sign * digitsValue 10 (whole ++ fraction) * (10 : ℚ) ^ (exponent - fraction.length : ℤ)

def baseOf (c : Char) : Option ℕ :=
  if c = 'x' ∨ c = 'X' then some 16 else if c = 'o' ∨ c = 'O' then some 8
  else if c = 'b' ∨ c = 'B' then some 2 else none

/-- The finite number that a `StringNumericLiteral` without blanks stands for. -/
def numericLiteral (text : List Char) : Option ℚ :=
  match if text.head? = some '0' then text.tail.head?.bind baseOf else none with
  | some base =>
    let digits := text.drop 2
    if digits ≠ [] ∧ (digits.all fun c => c.isAlphanum && decide (digitOf c < base)) = true then
      some (digitsValue base digits)
    else none
  | none => decimalOf text

/-- An object or an array. -/
def isContainer : Json → Bool
  | .array _ | .object _ => true
  | _ => false

/-- `Number` takes the double next to the number that a literal stands for, unless that is too
large, and `JSON.stringify` writes a double as a number that it is next to. What `JSON.parse`
reads of a text without blanks around it is an object or an array when it stands in braces or
in brackets. -/
structure Engine.Numeric (engine : Engine) (nearest : ℚ → Option Number) : Prop where
  finiteNumber : ∀ typed, trim typed ≠ "" →
    engine.finiteNumber (trim typed) = (numericLiteral (trim typed).toList).bind nearest
  written : ∀ value number, nearest value = some number →
    ∃ own, decimalOf number.text.toList = some own ∧ nearest own = some number
  parse : ∀ typed value, engine.parse (trim typed) = some value →
    isContainer value = isBracketed (trim typed).toList

/-! ## What is wanted -/

/-- The value of a text that is typed: the JSON value it is, or the text itself. -/
def Expected (engine : Engine) (typed : String) (result : Json) : Prop :=
  let text := trim typed
  if text = "true" then result = .bool true
  else if text = "false" then result = .bool false
  else if text = "null" then result = .null
  else if isNumeral text.toList = true then
    ∃ number, result = .number number ∧ decimalOf number.text.toList = decimalOf text.toList
  else result = ((engine.parse text).filter isContainer).getD (.string typed)

/-- A JSON number that some double is written as. -/
def Held (nearest : ℚ → Option Number) (text : List Char) : Prop :=
  ∃ any number value, nearest any = some number ∧ decimalOf number.text.toList = some value ∧
    decimalOf text = some value

/-- A variable is no blank text, its numbers are held, and it is no other literal of a number
than one with leading zeros or in lower-case hexadecimal, unless that is too large. -/
def VarFits (nearest : ℚ → Option Number) (typed : String) : Prop :=
  let text := (trim typed).toList
  (trim typed = "" → typed = "") ∧ (isNumeral text = true → Held nearest text) ∧
    (isNumeral text = false → isPadded text = false → startsWith (trim typed) "0x" = false →
      (numericLiteral text).bind nearest = none)

/-- An argument is a JSON number just when it is a plain decimal, and is held then. -/
def ArgFits (nearest : ℚ → Option Number) (typed : String) : Prop :=
  let text := (trim typed).toList
  isNumeral text = isPlainDecimal text ∧ (isNumeral text = true → Held nearest text)

/-- A value that leaves no accessor of `__proto__` to an object with this prototype. -/
def DropsAccessor (engine : Engine) (typed : String) : Prop :=
  trim typed = "null" ∨ isBracketed (trim typed).toList = true ∧
    ∃ value, engine.parse (trim typed) = some value ∧ keepsSetter value = false

/-- The entries with a name. -/
def typedEntries (entries : List VarEntry) : List (String × String) :=
  entries.filterMap fun entry =>
    if trim entry.key = "" then none else some (trim entry.key, entry.value)

/-- The last text that is typed for a name has its value in the object. -/
def Reach (engine : Engine) (fields : List (String × String)) (object : Dict String Json) : Prop :=
  ∀ before name typed after, fields = before ++ (name, typed) :: after →
    name ∉ after.map Prod.fst →
      ∃ value, object.get name = some value ∧ Expected engine typed value

/-- The last text for each name is fit, and `__proto__` names a member only behind a value
of its own that drops the accessor. -/
def AllFit (engine : Engine) (fits : String → Prop) (fields : List (String × String)) : Prop :=
  ∀ before name typed after, fields = before ++ (name, typed) :: after →
    name ∉ after.map Prod.fst → fits typed ∧ (name = "__proto__" →
      ∃ earlier ∈ before, earlier.1 = "__proto__" ∧ DropsAccessor engine earlier.2)

variable {engine : Engine} {nearest : ℚ → Option Number} {typed : String} {text : List Char}

/-! ## The number of a text -/

theorem head_of_isBracketed (hbracketed : isBracketed text = true) :
    ∃ c rest, text = c :: rest ∧ (c = '\x7b' ∨ c = '[') := by
  rcases text with _ | ⟨c, rest⟩
  · cases hbracketed
  · refine ⟨c, rest, rfl, ?_⟩
    simp [isBracketed] at hbracketed
    exact hbracketed.imp And.left And.left

theorem literals_of_isBracketed (hbracketed : isBracketed text = true) :
    isNumeral text = false ∧ isPadded text = false ∧ isPlainDecimal text = false ∧
      numericLiteral text = none := by
  obtain ⟨c, rest, rfl, rfl | rfl⟩ := head_of_isBracketed hbracketed <;> exact ⟨rfl, rfl, rfl, rfl⟩

theorem ne_of_isBracketed {text word : String} (hbracketed : isBracketed text.toList = true)
    (hword : isBracketed word.toList = false) : text ≠ word := by
  rintro rfl
  rw [hword] at hbracketed
  cases hbracketed

theorem not_isBracketed_of_isNumeral (hnumeral : isNumeral text = true) :
    isBracketed text = false := by
  rw [← Bool.not_eq_true]
  intro hbracketed
  rw [(literals_of_isBracketed hbracketed).1] at hnumeral
  cases hnumeral

theorem not_isPadded_of_isNumeral (hnumeral : isNumeral text = true) : isPadded text = false := by
  rw [isNumeral, Bool.and_eq_true] at hnumeral
  unfold isPadded
  split
  next rest =>
    rcases rest with _ | ⟨c, rest⟩
    · rfl
    have hfraction : isFraction (c :: rest) = true := hnumeral.2
    have hc : c = '.' ∨ c = 'e' ∨ c = 'E' := by
      unfold isFraction at hfraction
      split at hfraction
      next heq => exact .inl (List.cons.inj heq).1
      · simp only [isExponent, Bool.and_eq_true, Bool.or_eq_true, decide_eq_true_eq] at hfraction
        exact .inr hfraction.1
    rcases hc with rfl | rfl | rfl <;> rfl
  · rfl

theorem not_hexadecimal_of_isNumeral {text : String} (hnumeral : isNumeral text.toList = true) :
    startsWith text "0x" = false := by
  rw [← Bool.not_eq_true, startsWith, List.isPrefixOf_iff_prefix]
  intro hstarts
  rw [isNumeral, Bool.and_eq_true, List.all_eq_true] at hnumeral
  exact absurd (hnumeral.1 'x' (hstarts.subset (by decide))) (by decide)

theorem baseOf_of_isNumeralChar {c : Char} (hc : isNumeralChar c = true) : baseOf c = none := by
  have hother : ∀ d, isNumeralChar d = false → c ≠ d := by
    rintro d hd rfl
    rw [hd] at hc
    cases hc
  simp [baseOf, hother, isNumeralChar]

theorem numericLiteral_of_isNumeral (hnumeral : isNumeral text = true) :
    numericLiteral text = decimalOf text := by
  rw [isNumeral, Bool.and_eq_true, List.all_eq_true] at hnumeral
  have hnone : text.tail.head?.bind baseOf = none := Option.bind_eq_none_iff.mpr fun c hc =>
    baseOf_of_isNumeralChar (hnumeral.1 c (List.mem_of_mem_tail (List.mem_of_mem_head? hc)))
  rw [numericLiteral, hnone, ite_self]

/-! ## One value -/

section

variable (laws : engine.Numeric nearest)
include laws

/-- The number that is taken for a JSON number is that number just when it is held. -/
theorem held_iff (hnumeral : isNumeral (trim typed).toList = true) :
    (∃ number, engine.finiteNumber (trim typed) = some number ∧
      decimalOf number.text.toList = decimalOf (trim typed).toList) ↔
        Held nearest (trim typed).toList := by
  have hsome : trim typed ≠ "" := by
    intro hblank
    rw [hblank] at hnumeral
    cases hnumeral
  rw [laws.finiteNumber typed hsome, numericLiteral_of_isNumeral hnumeral]
  apply Iff.intro
  · rintro ⟨number, hnumber, hsame⟩
    obtain ⟨value, hvalue, hnearest⟩ := Option.bind_eq_some_iff.mp hnumber
    exact ⟨value, number, value, hnearest, hsame.trans hvalue, hvalue⟩
  · rintro ⟨any, number, value, hany, hwritten, hvalue⟩
    obtain ⟨own, hown, hnearest⟩ := laws.written any number hany
    rw [Option.some_inj.mp (hown.symm.trans hwritten)] at hnearest
    have hnumber := Option.bind_eq_some_iff.mpr ⟨value, hvalue, hnearest⟩
    exact ⟨number, hnumber, hwritten.trans hvalue.symm⟩

theorem filter_parse : (engine.parse (trim typed)).filter isContainer =
    if isBracketed (trim typed).toList = true then engine.parse (trim typed) else none := by
  cases hparse : engine.parse (trim typed) with
  | none => rw [ite_self]; rfl
  | some value => rw [Option.filter_some, laws.parse typed value hparse]

/-- The value is a JSON value or the text as it is typed, for a text that is no number. -/
theorem expected_iff (hwords : trim typed ∉ ["true", "false", "null"]) {result : Json} :
    Expected engine typed result ↔ if isNumeral (trim typed).toList = true then
      ∃ number, result = .number number ∧
        decimalOf number.text.toList = decimalOf (trim typed).toList
    else result = if isBracketed (trim typed).toList = true then
      (engine.parse (trim typed)).getD (.string typed) else .string typed := by
  simp only [List.mem_cons, List.not_mem_nil, or_false, not_or] at hwords
  rw [Expected, if_neg hwords.1, if_neg hwords.2.1, if_neg hwords.2.2, filter_parse laws, apply_ite
    fun parsed : Option Json => parsed.getD (.string typed), Option.getD_none]

theorem coerceVarValue_iff :
    Expected engine typed (coerceVarValue engine typed) ↔ VarFits nearest typed := by
  by_cases hwords : trim typed ∈ ["true", "false", "null"]
  · unfold Expected coerceVarValue VarFits
    generalize trim typed = text at hwords
    simp only [List.mem_cons, List.not_mem_nil, or_false] at hwords
    rcases hwords with rfl | rfl | rfl <;>
      exact iff_of_true rfl ⟨fun h => absurd h (by decide), fun h => absurd h (by decide),
        fun _ _ _ => rfl⟩
  rw [expected_iff laws hwords, coerceVarValue, VarFits]
  simp only [List.mem_cons, List.not_mem_nil, or_false, not_or] at hwords
  have hheld := @held_iff _ _ typed laws
  by_cases hblank : trim typed = ""
  · rw [hblank]
    show Json.string "" = .string typed ↔ _
    exact ⟨fun hsame => ⟨fun _ => (Json.string.inj hsame).symm, nofun, fun _ _ _ => rfl⟩,
      fun hfits => congrArg Json.string (hfits.1 rfl).symm⟩
  rw [if_neg hblank, if_neg hwords.1, if_neg hwords.2.1, if_neg hwords.2.2]
  cases hnumeral : isNumeral (trim typed).toList with
  | true =>
    rw [← hheld hnumeral, not_isPadded_of_isNumeral hnumeral, not_hexadecimal_of_isNumeral hnumeral,
      not_isBracketed_of_isNumeral hnumeral]
    cases engine.finiteNumber (trim typed) <;> simp [hblank]
  | false =>
    rw [← laws.finiteNumber typed hblank]
    cases hbracketed : isBracketed (trim typed).toList with
    | true =>
      obtain ⟨-, hpadded, -, hliteral⟩ := literals_of_isBracketed hbracketed
      rw [laws.finiteNumber typed hblank, hliteral, hpadded]
      simp [hblank]
    | false =>
      cases isPadded (trim typed).toList <;> cases startsWith (trim typed) "0x" <;>
        cases engine.finiteNumber (trim typed) <;> simp [hblank]

/-- The value of an argument that is not blank. -/
def macroArgValue (engine : Engine) (raw : String) : Json :=
  (parseMacroArgValue engine raw).getD (.string raw)

theorem macroArgValue_iff (hblank : trim typed ≠ "") :
    Expected engine typed (macroArgValue engine typed) ↔ ArgFits nearest typed := by
  by_cases hwords : trim typed ∈ ["true", "false", "null"]
  · unfold Expected macroArgValue parseMacroArgValue ArgFits
    generalize trim typed = text at hwords
    simp only [List.mem_cons, List.not_mem_nil, or_false] at hwords
    rcases hwords with rfl | rfl | rfl <;>
      exact iff_of_true rfl ⟨rfl, fun h => absurd h (by decide)⟩
  rw [expected_iff laws hwords, macroArgValue, parseMacroArgValue, ArgFits]
  simp only [List.mem_cons, List.not_mem_nil, or_false, not_or] at hwords
  have hheld := @held_iff _ _ typed laws
  rw [if_neg hblank, if_neg hwords.1, if_neg hwords.2.1, if_neg hwords.2.2]
  cases hnumeral : isNumeral (trim typed).toList with
  | true =>
    rw [← hheld hnumeral, not_isBracketed_of_isNumeral hnumeral]
    cases isPlainDecimal (trim typed).toList <;> cases engine.finiteNumber (trim typed) <;> simp
  | false =>
    cases hbracketed : isBracketed (trim typed).toList with
    | true =>
      rw [(literals_of_isBracketed hbracketed).2.2.1]
      simp
    | false =>
      cases isPlainDecimal (trim typed).toList <;> cases engine.finiteNumber (trim typed) <;> simp

theorem coerceVarValue_of_isBracketed (hbracketed : isBracketed (trim typed).toList = true) :
    coerceVarValue engine typed = (engine.parse (trim typed)).getD (.string typed) := by
  have hblank := ne_of_isBracketed hbracketed (rfl : isBracketed "".toList = false)
  obtain ⟨-, hpadded, -, hliteral⟩ := literals_of_isBracketed hbracketed
  rw [coerceVarValue, if_neg hblank, if_neg (ne_of_isBracketed hbracketed rfl),
    if_neg (ne_of_isBracketed hbracketed rfl), if_neg (ne_of_isBracketed hbracketed rfl), hpadded,
    laws.finiteNumber typed hblank, hliteral, hbracketed]
  cases startsWith (trim typed) "0x" <;> rfl

end

theorem macroArgValue_of_isBracketed (hbracketed : isBracketed (trim typed).toList = true) :
    macroArgValue engine typed = (engine.parse (trim typed)).getD (.string typed) := by
  rw [macroArgValue, parseMacroArgValue, if_neg (ne_of_isBracketed hbracketed rfl),
    if_neg (ne_of_isBracketed hbracketed rfl), if_neg (ne_of_isBracketed hbracketed rfl),
    if_neg (ne_of_isBracketed hbracketed rfl), (literals_of_isBracketed hbracketed).2.2.1,
    hbracketed]
  rfl

/-- Only `null` and what `JSON.parse` reads drop the accessor. -/
theorem keepsSetter_iff {result : Json} (hnull : trim typed = "null" → result = .null)
    (hbracketed : isBracketed (trim typed).toList = true →
      result = (engine.parse (trim typed)).getD (.string typed))
    (hother : trim typed ≠ "null" → isBracketed (trim typed).toList = false →
      keepsSetter result = true) :
    keepsSetter result = false ↔ DropsAccessor engine typed := by
  by_cases htext : trim typed = "null"
  · exact iff_of_true (by rw [hnull htext]; rfl) (.inl htext)
  unfold DropsAccessor
  cases hopen : isBracketed (trim typed).toList with
  | true =>
    rw [hbracketed hopen]
    cases engine.parse (trim typed) <;> simp [htext, keepsSetter]
  | false => simp [hother htext hopen, htext]

theorem keepsSetter_coerceVarValue (laws : engine.Numeric nearest) :
    keepsSetter (coerceVarValue engine typed) = false ↔ DropsAccessor engine typed := by
  apply keepsSetter_iff _ (coerceVarValue_of_isBracketed laws)
  · intro hnull hopen
    rw [coerceVarValue, if_neg hnull, hopen]
    grind [keepsSetter]
  · intro hnull
    rw [coerceVarValue, hnull]
    rfl

theorem keepsSetter_macroArgValue :
    keepsSetter (macroArgValue engine typed) = false ↔ DropsAccessor engine typed := by
  apply keepsSetter_iff _ macroArgValue_of_isBracketed
  · intro hnull hopen
    rw [macroArgValue, parseMacroArgValue, if_neg hnull, hopen]
    grind [keepsSetter]
  · intro hnull
    rw [macroArgValue, parseMacroArgValue, hnull]
    rfl

/-! ## All values -/

section

variable {object : VarsObject} {items before after : List (String × Json)} {name : String}
  {value : Json}

theorem get_assign_of_ne {key : String} (hname : name ≠ key) :
    (object.assign key value).own.get name = object.own.get name := by
  unfold VarsObject.assign
  split
  · rfl
  · exact Dict.get_set.trans (if_neg hname)

theorem get_assignAll_of_not_mem (hname : name ∉ items.map Prod.fst) :
    (assignAll object items).own.get name = object.own.get name := by
  induction items generalizing object with
  | nil => rfl
  | cons item rest ih =>
    rw [List.map_cons, List.mem_cons, not_or] at hname
    exact (ih hname.2).trans (get_assign_of_ne hname.1)

theorem setter_assign : (object.assign name value).setter =
    (object.setter && (name ≠ "__proto__" || keepsSetter value)) := by
  unfold VarsObject.assign
  cases hsetter : object.setter <;> by_cases hname : name = "__proto__" <;> simp [*]

theorem setter_assignAll : (assignAll object items).setter =
    (object.setter && items.all fun item => item.1 ≠ "__proto__" || keepsSetter item.2) := by
  induction items generalizing object with
  | nil => exact (Bool.and_true _).symm
  | cons item rest ih => exact ih.trans (by rw [setter_assign, List.all_cons, Bool.and_assoc])

/-- As long as the accessor is inherited, `__proto__` is no member. -/
theorem get_proto_assignAll (hown : object.setter = true → object.own.get "__proto__" = none)
    (hsetter : (assignAll object items).setter = true) :
    (assignAll object items).own.get "__proto__" = none := by
  induction items generalizing object with
  | nil => exact hown hsetter
  | cons item rest ih =>
    refine ih (fun hassigned => ?_) hsetter
    rw [setter_assign, Bool.and_eq_true] at hassigned
    by_cases hname : item.1 = "__proto__"
    · show (object.assign item.1 item.2).own.get "__proto__" = none
      rw [VarsObject.assign, if_pos ⟨hname, hassigned.1⟩]
      exact hown hassigned.1
    · rw [get_assign_of_ne (Ne.symm hname)]
      exact hown hassigned.1

/-- What the last value of a name comes to. -/
theorem exists_get_assignAll_iff {wanted : Json → Prop} (hlast : name ∉ after.map Prod.fst) :
    (∃ found, (assignAll {} (before ++ (name, value) :: after)).own.get name = some found ∧
      wanted found) ↔ wanted value ∧ (name = "__proto__" →
        ∃ earlier ∈ before, earlier.1 = "__proto__" ∧ keepsSetter earlier.2 = false) := by
  have hall : (assignAll {} (before ++ (name, value) :: after)).own.get name =
      ((assignAll {} before).assign name value).own.get name := by
    rw [assignAll, List.foldl_append, List.foldl_cons, ← assignAll, ← assignAll,
      get_assignAll_of_not_mem hlast]
  have hkept : (assignAll {} before).setter = true ↔
      ¬ ∃ earlier ∈ before, earlier.1 = "__proto__" ∧ keepsSetter earlier.2 = false := by
    rw [setter_assignAll]
    grind
  rw [hall, VarsObject.assign]
  split
  next hproto =>
    rw [hproto.1, get_proto_assignAll (fun _ => rfl) hproto.2]
    exact iff_of_false (by rintro ⟨_, ⟨⟩, _⟩) fun h => hkept.mp hproto.2 (h.2 rfl)
  next hother =>
    rw [Dict.get_set, if_pos rfl]
    refine ⟨?_, fun h => ⟨value, rfl, h.1⟩⟩
    rintro ⟨_, ⟨⟩, hwanted⟩
    exact ⟨hwanted, fun hname => not_not.mp fun hnone => hother ⟨hname, hkept.mpr hnone⟩⟩

end

/-- All named values are what is wanted exactly if their texts are fit. -/
theorem reach_iff {fields : List (String × String)} {convert : String → Json} {fits : String → Prop}
    (hconvert : ∀ field ∈ fields, (Expected engine field.2 (convert field.2) ↔ fits field.2) ∧
      (keepsSetter (convert field.2) = false ↔ DropsAccessor engine field.2)) :
    Reach engine fields (assignAll {} (fields.map fun field => (field.1, convert field.2))).own ↔
      AllFit engine fits fields := by
  refine forall₄_congr fun before name typed after => forall_congr' fun hfields =>
    forall_congr' fun hlast => ?_
  subst hfields
  have hafter : name ∉ (after.map fun field => (field.1, convert field.2)).map Prod.fst := by
    rwa [List.map_map]
  rw [List.map_append, List.map_cons, exists_get_assignAll_iff hafter]
  refine and_congr (hconvert (name, typed) (by simp)).1 (imp_congr_right fun _ => ?_)
  simp only [List.mem_map, exists_exists_and_eq_and]
  refine exists_congr fun earlier => and_congr_right fun hearlier => and_congr_right fun _ => ?_
  exact (hconvert earlier (List.mem_append_left _ hearlier)).2

/-! ## What is sent -/

theorem entryVariables_eq (entries : List VarEntry) : entryVariables engine entries =
    (typedEntries entries).map fun field => (field.1, coerceVarValue engine field.2) := by
  rw [entryVariables, typedEntries, List.map_filterMap]
  apply List.filterMap_congr
  intro entry _
  split <;> rfl

/-- Without a member there is no object. -/
theorem getD_validateVars {entries : List VarEntry} {found : Option (Dict String Json)}
    (hfound : validateVars engine (.entries entries) = .ok found) :
    found.getD [] = (assignAll {} (entryVariables engine entries)).own := by
  obtain ⟨object, hobject, hcheck⟩ := bind_eq_ok.mp hfound
  rw [checkVars_eq_ok hcheck, ← assignEntries_eq_ok hobject]
  cases object.own <;> rfl

theorem parseMacroArgValue_eq (hblank : trim typed ≠ "") :
    parseMacroArgValue engine typed = some (macroArgValue engine typed) := by
  unfold macroArgValue parseMacroArgValue
  grind

/-- The fields that are not blank. -/
def typedFields (fields : List (String × String)) : List (String × String) :=
  fields.filter fun field => trim field.2 ≠ ""

theorem buildMacroArgsPayload_eq {form : Dict String String} {signature : List String}
    {fields : List (String × String)} (hfields : argFields form signature = some fields) :
    buildMacroArgsPayload engine form signature = some (assignAll {}
      ((typedFields fields).map fun field => (field.1, macroArgValue engine field.2))) := by
  rw [buildMacroArgsPayload, hfields, Option.map_some, assignAll]
  apply congrArg some
  generalize ({} : VarsObject) = object
  clear hfields
  induction fields generalizing object with
  | nil => rfl
  | cons field rest ih =>
    rw [List.foldl_cons, ih, typedFields, typedFields, List.filter_cons]
    by_cases hblank : trim field.2 = ""
    · rw [parseMacroArgValue, if_pos hblank, if_neg (by simpa using hblank)]
    · rw [parseMacroArgValue_eq hblank, if_pos (by simpa using hblank), List.map_cons,
        List.foldl_cons]

/-- **Typed values.** A value is the JSON value that is typed, or the text as it is typed,
exactly if the text is fit, and the values that are sent for names are so exactly if the last
text of each name is fit and `__proto__` names a member. -/
theorem coercion_iff (laws : engine.Numeric nearest) :
    (∀ typed, Expected engine typed (coerceVarValue engine typed) ↔ VarFits nearest typed) ∧
    (∀ raw, trim raw ≠ "" → ((∃ value, parseMacroArgValue engine raw = some value ∧
      Expected engine raw value) ↔ ArgFits nearest raw)) ∧
    (∀ entries found, validateVars engine (.entries entries) = .ok found →
      (Reach engine (typedEntries entries) (found.getD []) ↔
        AllFit engine (VarFits nearest) (typedEntries entries))) ∧
    ∀ form signature fields, argFields form signature = some fields →
      ∃ object, buildMacroArgsPayload engine form signature = some object ∧
        (Reach engine (typedFields fields) object.own ↔
          AllFit engine (ArgFits nearest) (typedFields fields)) := by
  refine ⟨fun _ => coerceVarValue_iff laws, fun raw hblank => ?_, fun entries found hfound => ?_,
    fun form signature fields hfields => ⟨_, buildMacroArgsPayload_eq hfields, ?_⟩⟩
  · rw [parseMacroArgValue_eq hblank, ← macroArgValue_iff laws hblank]
    simp
  · rw [getD_validateVars hfound, entryVariables_eq]
    exact reach_iff fun field _ => ⟨coerceVarValue_iff laws, keepsSetter_coerceVarValue laws⟩
  · apply reach_iff
    intro field hfield
    have hblank := of_decide_eq_true (List.mem_filter.mp hfield).2
    exact ⟨macroArgValue_iff laws hblank, keepsSetter_macroArgValue⟩

/-! ## A sample -/

/-- The number 5. -/
def five : Number := ⟨"5", .int 5, .inl ⟨5, rfl⟩⟩

/-- The double next to 5. -/
def nearestFive (value : ℚ) : Option Number := if value = 5 then some five else none

/-- An engine that knows the number 5. -/
def sampleEngine : Engine where
  finiteNumber typed := (numericLiteral typed.toList).bind nearestFive
  parse := fun _ => none
  time := fun _ => none

theorem finiteNumber_sampleEngine : sampleEngine.finiteNumber typed =
    (numericLiteral typed.toList).bind nearestFive := by
  simp only [sampleEngine]

theorem decimalOf_five : decimalOf "5".toList = some 5 := by
  decide +kernel

theorem sampleEngine_numeric : sampleEngine.Numeric nearestFive where
  finiteNumber _ _ := finiteNumber_sampleEngine
  written value number hnumber := by
    unfold nearestFive at hnumber
    split at hnumber
    · cases hnumber
      exact ⟨5, decimalOf_five, if_pos rfl⟩
    · cases hnumber
  parse _ _ hvalue := nomatch hvalue

/-- Blanks around a number do not count. -/
theorem expected_of_five : Expected sampleEngine " 5" (coerceVarValue sampleEngine " 5") := by
  apply ((coercion_iff sampleEngine_numeric).1 " 5").mpr
  have htrim : trim " 5" = "5" := by decide
  rw [VarFits, htrim]
  exact ⟨fun h => absurd h (by decide), fun _ => ⟨5, five, 5, if_pos rfl, decimalOf_five,
    decimalOf_five⟩, fun h => absurd h (by decide)⟩

/-- A plus sign is in no JSON number. -/
theorem not_expected_of_plus :
    ¬ ∀ typed, Expected sampleEngine typed (coerceVarValue sampleEngine typed) := by
  intro hall
  have hplus := hall "+5"
  have htrim : trim "+5" = "+5" := by decide
  have hliteral : numericLiteral "+5".toList = some 5 := by decide +kernel
  have hread : sampleEngine.finiteNumber "+5" = some five := by
    rw [finiteNumber_sampleEngine, hliteral]
    rfl
  have hnumber : coerceVarValue sampleEngine "+5" = .number five := by
    rw [coerceVarValue, htrim, hread]
    rfl
  rw [hnumber] at hplus
  cases (show Json.number five = .string "+5" from hplus)

end DbtCraft.Web.RunOptions
