/-
# References in statements with holes

The markers of references are found after the values have been filled in. A marker has
no quote in it, so a literal neither completes nor cuts one, and where no value holds a
marker of its own the substitution passes over all literals.
-/

import DbtCraft.Services.BoardSql
import DbtCraft.Sql.Templates

namespace DbtCraft.Services.BoardSql

open DbtCraft.Python DbtCraft.Sql

variable {engine : Engine} {refs : List String} {bindings : Bindings}

/-! ## Matches -/

theorem after_eq_some {start text rest : List Char} (hafter : after start text = some rest) :
    text = start ++ rest := by
  induction start generalizing text with
  | nil => exact Option.some_inj.mp hafter
  | cons c start ih =>
    cases text with
    | nil => cases hafter
    | cons d text =>
      unfold after at hafter
      split at hafter
      next hsame => rw [hsame, ih hafter, List.cons_append]
      · cases hafter

/-- A start without a quote is found before the first quote or not at all. -/
theorem after_append_quote {start : List Char} (hstart : '\'' ∉ start) (text rest : List Char) :
    after start (text ++ '\'' :: rest) = (after start text).map (· ++ '\'' :: rest) := by
  induction start generalizing text with
  | nil => rfl
  | cons c start ih =>
    have hc : '\'' ≠ c := List.ne_of_not_mem_cons hstart
    have htail : '\'' ∉ start := List.not_mem_of_not_mem_cons hstart
    cases text with
    | nil => exact if_neg (Ne.symm hc)
    | cons d text =>
      rw [List.cons_append]
      unfold after
      split
      · exact ih htail text
      · rfl

theorem leadingDigits_append_quote (text rest : List Char) :
    leadingDigits engine (text ++ '\'' :: rest) = leadingDigits engine text := by
  induction text with
  | nil => simp [leadingDigits, engine.quote_not_digit]
  | cons c text ih =>
    rw [List.cons_append]
    unfold leadingDigits
    rw [ih]

theorem length_leadingDigits_le (text : List Char) :
    (leadingDigits engine text).length ≤ text.length := by
  induction text with
  | nil => exact Nat.le_refl 0
  | cons c text ih =>
    unfold leadingDigits
    split
    · exact Nat.succ_le_succ ih
    · exact Nat.zero_le _

theorem quote_not_mem_refMarker : '\'' ∉ refMarker.toList := by decide

/-- What stands after a quote does not matter to a match. -/
theorem matchRef_append_quote (text rest : List Char) :
    matchRef engine (text ++ '\'' :: rest) = matchRef engine text := by
  unfold matchRef
  rw [after_append_quote quote_not_mem_refMarker]
  cases hafter : after refMarker.toList text with
  | none => rfl
  | some left =>
    have hhead : ((left ++ '\'' :: rest).drop (leadingDigits engine left).length).head?.any
        engine.isWord = (left.drop (leadingDigits engine left).length).head?.any
        engine.isWord := by
      rw [List.drop_append_of_le_length (length_leadingDigits_le left)]
      cases left.drop (leadingDigits engine left).length with
      | nil => exact engine.quote_not_word
      | cons c others => rfl
    simp only [Option.map_some, leadingDigits_append_quote, hhead]

/-- A match is decided by what stands before the first quote. -/
theorem matchRef_takeWhile (text : List Char) :
    matchRef engine (text.takeWhile (· ≠ '\'')) = matchRef engine text := by
  conv_rhs => rw [← List.takeWhile_append_dropWhile (p := (· ≠ '\'')) (l := text)]
  cases hdrop : text.dropWhile (· ≠ '\'') with
  | nil => rw [List.append_nil]
  | cons c rest =>
    have hquote : c = '\'' := by
      have hhead := List.head?_dropWhile_not (fun d : Char => decide (d ≠ '\'')) text
      rw [hdrop] at hhead
      simpa using hhead
    rw [hquote, matchRef_append_quote]

/-- A match lies within the text. -/
theorem length_le_of_matchRef {text : List Char} {number length : ℕ}
    (hmatch : matchRef engine text = some (number, length)) : length ≤ text.length := by
  unfold matchRef at hmatch
  split at hmatch
  · cases hmatch
  next rest hafter =>
    simp only at hmatch
    split at hmatch
    · cases hmatch
    · obtain ⟨-, hlength⟩ := Prod.mk.inj (Option.some_inj.mp hmatch)
      have htext := congrArg List.length (after_eq_some hafter)
      have hdigits : (leadingDigits engine rest).length ≤ rest.length :=
        length_leadingDigits_le rest
      rw [List.length_append] at htext
      omega

/-- A marker does not begin with a quote. -/
theorem matchRef_quote (rest : List Char) : matchRef engine ('\'' :: rest) = none :=
  matchRef_append_quote [] rest

/-! ## Literals -/

/-- No marker of a reference stands in a text. -/
def NoReference (engine : Engine) (text : List Char) : Prop :=
  ∀ rest, rest <:+ text → matchRef engine rest = none

theorem substituteRefs_none {c : Char} {rest : List Char}
    (hmatch : matchRef engine (c :: rest) = none) :
    substituteRefs engine refs 0 (c :: rest) =
      (substituteRefs engine refs 0 rest).map (c :: ·) := by
  simp only [substituteRefs, hmatch]

/-- The part of a text before its first quote is the same when its quotes are doubled. -/
theorem takeWhile_doubled (text rest : List Char) :
    (doubled text ++ '\'' :: rest).takeWhile (· ≠ '\'') = text.takeWhile (· ≠ '\'') := by
  induction text with
  | nil => rfl
  | cons c text ih =>
    by_cases hquote : c = '\''
    · rw [hquote]
      rfl
    · rw [doubled_cons hquote, List.cons_append, List.takeWhile_cons, List.takeWhile_cons, ih]

theorem matchRef_doubled (text rest : List Char) :
    matchRef engine (doubled text ++ '\'' :: rest) = matchRef engine text := by
  rw [← matchRef_takeWhile, takeWhile_doubled, matchRef_takeWhile]

theorem substituteRefs_doubled {text : List Char} (htext : NoReference engine text)
    (rest : List Char) :
    substituteRefs engine refs 0 (doubled text ++ '\'' :: rest) =
      (substituteRefs engine refs 0 ('\'' :: rest)).map (doubled text ++ ·) := by
  induction text with
  | nil =>
    show substituteRefs engine refs 0 ('\'' :: rest) = _
    cases substituteRefs engine refs 0 ('\'' :: rest) <;> rfl
  | cons c text ih =>
    have hrest := ih fun others hothers => htext others (hothers.trans (List.suffix_cons c text))
    by_cases hquote : c = '\''
    · rw [hquote, doubled_quote, List.cons_append, List.cons_append,
        substituteRefs_none (matchRef_quote _), substituteRefs_none (matchRef_quote _), hrest]
      cases substituteRefs engine refs 0 ('\'' :: rest) <;> rfl
    · have hmatch : matchRef engine (c :: (doubled text ++ '\'' :: rest)) = none := by
        rw [← List.cons_append, ← doubled_cons hquote, matchRef_doubled]
        exact htext _ (List.suffix_refl _)
      rw [doubled_cons hquote, List.cons_append, substituteRefs_none hmatch, hrest]
      cases substituteRefs engine refs 0 ('\'' :: rest) <;> rfl

/-- The substitution passes over a literal without a marker. -/
theorem substituteRefs_quoted {text : List Char} (htext : NoReference engine text)
    (rest : List Char) :
    substituteRefs engine refs 0 (quoted text ++ rest) =
      (substituteRefs engine refs 0 rest).map (quoted text ++ ·) := by
  have happend : quoted text ++ rest = '\'' :: (doubled text ++ '\'' :: rest) := by
    simp [quoted]
  rw [happend, substituteRefs_none (matchRef_quote _), substituteRefs_doubled htext,
    substituteRefs_none (matchRef_quote _)]
  cases substituteRefs engine refs 0 rest with
  | error raised => rfl
  | ok result => simp [Except.map, quoted]

/-! ## Holes -/

/-- The substitution in a statement with holes: a match ends before the next hole. -/
def substituteItems (engine : Engine) (refs : List String) :
    ℕ → List (Item String) → Except Raised (List (Item String))
  | _, [] => .ok []
  | _, .hole name :: rest => (substituteItems engine refs 0 rest).map (.hole name :: ·)
  | matched + 1, .char _ :: rest => substituteItems engine refs matched rest
  | 0, .char c :: rest =>
    match matchRef engine (c :: leading rest) with
    | none => (substituteItems engine refs 0 rest).map (.char c :: ·)
    | some (number, length) =>
      if maxStrDigits + refMarker.length < length then .error tooManyDigits
      else
        match refs[number]? with
        | none => .error .indexError
        | some ref =>
          (substituteItems engine refs (length - 1) rest).map (ref.toList.map .char ++ ·)

/-- The characters of a filled statement, as a match sees them. -/
theorem matchRef_fill {text : String → List Char} (c : Char) (rest : List (Item String)) :
    matchRef engine (c :: fill text rest) = matchRef engine (c :: leading rest) := by
  rw [← matchRef_takeWhile, ← matchRef_takeWhile (c :: leading rest), List.takeWhile_cons,
    List.takeWhile_cons, takeWhile_fill]

/-- The substitution in a statement with holes gives what it gives when they are filled. -/
theorem substituteRefs_fill {text : String → List Char} {matched : ℕ} {items : List (Item String)}
    (hmatched : matched ≤ (leading items).length)
    (htext : ∀ name ∈ holes items, NoReference engine (text name)) :
    substituteRefs engine refs matched (fill text items) =
      (substituteItems engine refs matched items).map (fill text) := by
  induction items generalizing matched with
  | nil => cases matched <;> rfl
  | cons item rest ih =>
    cases item with
    | hole name =>
      have hzero : matched = 0 := Nat.le_zero.mp hmatched
      have hrest := ih (Nat.zero_le _) fun other hother =>
        htext other (List.mem_cons_of_mem _ hother)
      rw [hzero, fill_hole, substituteRefs_quoted (htext name List.mem_cons_self), hrest]
      simp only [substituteItems]
      cases substituteItems engine refs 0 rest <;> rfl
    | char c =>
      have hrest : ∀ left ≤ (leading rest).length,
          substituteRefs engine refs left (fill text rest) =
            (substituteItems engine refs left rest).map (fill text) :=
        fun left hleft => ih hleft htext
      cases matched with
      | succ matched => exact hrest matched (Nat.le_of_succ_le_succ hmatched)
      | zero =>
        simp only [fill_char, substituteRefs, substituteItems, matchRef_fill]
        cases hmatch : matchRef engine (c :: leading rest) with
        | none =>
          simp only [hrest 0 (Nat.zero_le _)]
          cases substituteItems engine refs 0 rest <;> rfl
        | some found =>
          obtain ⟨number, length⟩ := found
          have hlength := length_le_of_matchRef hmatch
          rw [List.length_cons] at hlength
          dsimp only
          split_ifs with hdigits
          · rfl
          cases hnumber : refs[number]? with
          | none =>
            simp only
            rfl
          | some ref =>
            simp only [hrest (length - 1) (by omega)]
            cases substituteItems engine refs (length - 1) rest with
            | error raised => rfl
            | ok result =>
              simp only [Except.map, fill_append, fill_chars]

/-- The substitution leaves the holes as they are. -/
theorem holes_substituteItems {matched : ℕ} {items result : List (Item String)}
    (hresult : substituteItems engine refs matched items = .ok result) :
    holes result = holes items := by
  induction items generalizing matched result with
  | nil =>
    cases matched <;> cases hresult <;> rfl
  | cons item rest ih =>
    cases item with
    | hole name =>
      simp only [substituteItems] at hresult
      obtain ⟨others, hothers, hadded⟩ := map_eq_ok.mp hresult
      rw [← hadded]
      exact congrArg (name :: ·) (ih hothers)
    | char c =>
      cases matched with
      | succ matched => exact ih hresult
      | zero =>
        simp only [substituteItems] at hresult
        split at hresult
        · obtain ⟨others, hothers, hadded⟩ := map_eq_ok.mp hresult
          rw [← hadded]
          show holes others = holes rest
          exact ih hothers
        · split_ifs at hresult
          split at hresult
          · cases hresult
          · obtain ⟨others, hothers, hadded⟩ := map_eq_ok.mp hresult
            rw [← hadded, holes_append, holes_chars]
            exact ih hothers

end DbtCraft.Services.BoardSql
