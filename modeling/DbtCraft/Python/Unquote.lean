/-
# Unquoting

`urllib.parse.unquote`: what is written as `%xx` are bytes, and what is no UTF-8 among them is
read as replacement characters. A quoted text is read back whole.
-/

import DbtCraft.Python.UrlParse

namespace DbtCraft.Python.Url

/-! ## `unquote` -/

/-- A hexadecimal digit of either case. -/
def hexValue (c : Char) : Option ℕ :=
  if c.isDigit then some (c.toNat - '0'.toNat)
  else if 'a' ≤ c ∧ c ≤ 'f' then some (c.toNat - 'a'.toNat + 10)
  else if 'A' ≤ c ∧ c ≤ 'F' then some (c.toNat - 'A'.toNat + 10)
  else none

/-- `unquote_to_bytes`; a percent sign without two digits stands for itself. -/
def unquoteToBytes : List Char → List UInt8
  | [] => []
  | '%' :: high :: low :: rest =>
    match hexValue high, hexValue low with
    | some high, some low => UInt8.ofNat (16 * high + low) :: unquoteToBytes rest
    | _, _ => String.utf8EncodeChar '%' ++ unquoteToBytes (high :: low :: rest)
  | c :: rest => String.utf8EncodeChar c ++ unquoteToBytes rest

/-- The bounds of the bytes that may follow a first byte. -/
def followers (lead : ℕ) : List (ℕ × ℕ) :=
  let tail := (0x80, 0xBF)
  if lead < 0xC2 then []
  else if lead < 0xE0 then [tail]
  else if lead = 0xE0 then [(0xA0, 0xBF), tail]
  else if lead = 0xED then [(0x80, 0x9F), tail]
  else if lead < 0xF0 then [tail, tail]
  else if lead = 0xF0 then [(0x90, 0xBF), tail, tail]
  else if lead < 0xF4 then [tail, tail, tail]
  else if lead = 0xF4 then [(0x80, 0x8F), tail, tail]
  else []

/-- How many bytes go on with a character that is not finished. -/
def unfinished : List (ℕ × ℕ) → List UInt8 → ℕ
  | (least, most) :: bounds, byte :: rest =>
    if least ≤ byte.toNat ∧ byte.toNat ≤ most then unfinished bounds rest + 1 else 0
  | _, _ => 0

/-- `bytes.decode("utf-8", "replace")`, of at most so many characters. -/
def decodeReplacing : ℕ → List UInt8 → List Char
  | 0, _ => []
  | _, [] => []
  | fuel + 1, lead :: rest =>
    match (lead :: rest).toByteArray.utf8DecodeChar? 0 with
    | some c => c :: decodeReplacing fuel ((lead :: rest).drop c.utf8Size)
    | none => '\uFFFD' :: decodeReplacing fuel (rest.drop (unfinished (followers lead.toNat) rest))

/-- `unquote(text)`. -/
def unquote (text : List Char) : List Char :=
  let bytes := unquoteToBytes text
  decodeReplacing bytes.length bytes

/-! ## What is quoted is read back -/

theorem decodeReplacing_encode {text : List Char} {fuel : ℕ} (hfuel : text.length ≤ fuel) :
    decodeReplacing fuel (text.flatMap String.utf8EncodeChar) = text := by
  induction text generalizing fuel with
  | nil => cases fuel <;> rfl
  | cons c text ih =>
    cases fuel with
    | zero => simp at hfuel
    | succ fuel =>
      have hread : ((String.utf8EncodeChar c ++
          text.flatMap String.utf8EncodeChar).toByteArray).utf8DecodeChar? 0 = some c := by
        rw [List.toByteArray_append]
        exact ByteArray.utf8DecodeChar?_utf8EncodeChar_append
      have hdrop : (String.utf8EncodeChar c ++ text.flatMap String.utf8EncodeChar).drop
          c.utf8Size = text.flatMap String.utf8EncodeChar := by
        rw [← String.length_utf8EncodeChar, List.drop_left]
      rw [List.flatMap_cons]
      -- The first byte of a character is there.
      cases hbytes : String.utf8EncodeChar c ++ text.flatMap String.utf8EncodeChar with
      | nil =>
        have hlength := congrArg List.length (List.append_eq_nil_iff.mp hbytes).1
        rw [String.length_utf8EncodeChar] at hlength
        exact absurd hlength (Nat.ne_of_gt c.utf8Size_pos)
      | cons lead rest =>
        rw [hbytes] at hread hdrop
        rw [decodeReplacing, hread]
        dsimp only
        rw [hdrop, ih (Nat.le_of_succ_le_succ hfuel)]

theorem hexValue_hexDigit : ∀ digit < 16, hexValue (hexDigit digit) = some digit := by decide

theorem unquoteToBytes_quoteByte (byte : UInt8) (rest : List Char) :
    unquoteToBytes (quoteByte byte ++ rest) = byte :: unquoteToBytes rest := by
  have hbyte : byte.toNat < 256 := byte.toNat_lt
  have hwhole : 16 * (byte.toNat / 16) + byte.toNat % 16 = byte.toNat := by omega
  have hnat : UInt8.ofNat byte.toNat = byte := UInt8.ofNat_toNat
  show unquoteToBytes ('%' :: hexDigit (byte.toNat / 16) :: hexDigit (byte.toNat % 16) :: rest) = _
  rw [unquoteToBytes, hexValue_hexDigit _ (by omega), hexValue_hexDigit _ (by omega)]
  dsimp only
  rw [hwhole, hnat]

theorem unquoteToBytes_quoteBytes (bytes : List UInt8) (rest : List Char) :
    unquoteToBytes (bytes.flatMap quoteByte ++ rest) = bytes ++ unquoteToBytes rest := by
  induction bytes with
  | nil => rfl
  | cons byte bytes ih =>
    rw [List.flatMap_cons, List.append_assoc, unquoteToBytes_quoteByte, ih, List.cons_append]

theorem unquoteToBytes_cons {c : Char} (hc : c ≠ '%') (rest : List Char) :
    unquoteToBytes (c :: rest) = String.utf8EncodeChar c ++ unquoteToBytes rest := by
  rw [unquoteToBytes]
  rintro high low rest rfl
  exact absurd rfl hc

/-- The bytes of a quoted text are those of the text. -/
theorem unquoteToBytes_quote (text : List Char) :
    unquoteToBytes (quote text) = text.flatMap String.utf8EncodeChar := by
  induction text with
  | nil => rfl
  | cons c text ih =>
    rw [quote, List.flatMap_cons, ← quote]
    split
    next hc =>
      have hpercent : c ≠ '%' := by
        rintro rfl
        cases hc
      rw [List.singleton_append, unquoteToBytes_cons hpercent, ih, List.flatMap_cons]
    · rw [unquoteToBytes_quoteBytes, ih, List.flatMap_cons]

theorem length_le_encode (text : List Char) :
    text.length ≤ (text.flatMap String.utf8EncodeChar).length := by
  induction text with
  | nil => exact Nat.le_refl 0
  | cons c text ih =>
    have hpos := c.utf8Size_pos
    rw [List.flatMap_cons, List.length_append, String.length_utf8EncodeChar, List.length_cons]
    omega

/-- **A quoted text is read back.** -/
@[simp]
theorem unquote_quote (text : List Char) : unquote (quote text) = text := by
  unfold unquote
  rw [unquoteToBytes_quote]
  exact decodeReplacing_encode (length_le_encode text)

end DbtCraft.Python.Url
