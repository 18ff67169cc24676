/-
# Shell words

`shlex.split` of the standard library in POSIX mode, without comments: the states
of `shlex.read_token`, character by character. Blanks end the last word, and the words behind
them are the same as if nothing stood before.
-/

import DbtCraft.Exceptions
import Mathlib.Tactic.Common

namespace DbtCraft.Python

/-- `shlex.state`. -/
inductive ShlexState
  | /-- `' '`, between two words. -/
    space
  | /-- `'a'`, in a word. -/
    word
  | /-- Inside quotes. -/
    quotes (quote : Char)
  | /-- After a backslash; the quote it stands in, if any. -/
    escape (quote : Option Char)
  deriving DecidableEq

/-- `shlex.whitespace`. -/
def isShlexSpace (c : Char) : Bool := c = ' ' || c = '\t' || c = '\r' || c = '\n'

/-- `shlex.quotes`. -/
def isShlexQuote (c : Char) : Bool := c = '\'' || c = '"'

/-- The words of the rest of a text. `token` is the current word, last character
first, and `quoted` tells that a part of it was quoted. -/
def shlexWords : ShlexState → (token : List Char) → (quoted : Bool) → List Char →
    Except Raised (List String)
  | .space, _, _, [] => .ok []
  | .space, token, quoted, c :: rest =>
    if isShlexSpace c then shlexWords .space token quoted rest
    else if c = '\\' then shlexWords (.escape none) token quoted rest
    else if isShlexQuote c then shlexWords (.quotes c) token quoted rest
    else shlexWords .word (c :: token) quoted rest
  | .word, token, quoted, [] =>
    .ok (if token = [] ∧ quoted = false then [] else [String.ofList token.reverse])
  | .word, token, quoted, c :: rest =>
    if isShlexSpace c then do
      let words ← shlexWords .space [] false rest
      return if token = [] ∧ quoted = false then words else String.ofList token.reverse :: words
    else if isShlexQuote c then shlexWords (.quotes c) token quoted rest
    else if c = '\\' then shlexWords (.escape none) token quoted rest
    else shlexWords .word (c :: token) quoted rest
  | .quotes _, _, _, [] => .error (.valueError "No closing quotation")
  | .quotes quote, token, _, c :: rest =>
    if c = quote then shlexWords .word token true rest
    else if c = '\\' ∧ quote = '"' then shlexWords (.escape (some quote)) token true rest
    else shlexWords (.quotes quote) (c :: token) true rest
  | .escape _, _, _, [] => .error (.valueError "No escaped character")
  | .escape none, token, quoted, c :: rest => shlexWords .word (c :: token) quoted rest
  | .escape (some quote), token, quoted, c :: rest =>
    -- Within quotes a backslash stays, unless it escapes the quote or a backslash.
    if c = '\\' ∨ c = quote then shlexWords (.quotes quote) (c :: token) quoted rest
    else shlexWords (.quotes quote) (c :: '\\' :: token) quoted rest

/-- `shlex.split`. -/
def shlexSplit (text : String) : Except Raised (List String) :=
  shlexWords .space [] false text.toList

example : shlexSplit "run --vars '\x7b\"a\": 1\x7d'  \"b\\\"\\c\" ''" =
    .ok ["run", "--vars", "\x7b\"a\": 1\x7d", "b\"\\c", ""] := rfl

/-! ## Words behind words -/

variable {state : ShlexState} {token text rest : List Char} {quoted : Bool} {words : List String}
  {blank : Char}

/-- `shlex.split` of characters. -/
def shlexOf (text : List Char) : Except Raised (List String) := shlexWords .space [] false text

/-- A word that has begun, in front of those behind it. -/
def endWord (token : List Char) (quoted : Bool) (words : List String) : List String :=
  if token = [] ∧ quoted = false then words else String.ofList token.reverse :: words

theorem shlexWords_word_blank (hblank : isShlexSpace blank = true) :
    shlexWords .word token quoted (blank :: rest) =
      (shlexWords .space [] false rest).map (endWord token quoted) := by
  rw [shlexWords, if_pos hblank]
  cases shlexWords .space [] false rest <;> rfl

theorem map_endWord (result : Except Raised (List String)) :
    result.map (endWord token quoted) = result.map (endWord token quoted [] ++ ·) := by
  cases result with
  | error raised => rfl
  | ok words =>
    apply congrArg Except.ok
    unfold endWord
    split <;> rfl

theorem endWord_append (first second : List String) :
    endWord token quoted (first ++ second) = endWord token quoted first ++ second := by
  unfold endWord
  split <;> rfl

/-- **Behind a blank** the words are those of the rest. -/
theorem shlexWords_append (hblank : isShlexSpace blank = true)
    (hstate : state = .space → token = [] ∧ quoted = false)
    (hwords : shlexWords state token quoted text = .ok words) :
    shlexWords state token quoted (text ++ blank :: rest) = (shlexOf rest).map (words ++ ·) := by
  induction text generalizing state token quoted words with
  | nil =>
    cases state with
    | space =>
      obtain ⟨rfl, rfl⟩ := hstate rfl
      cases hwords
      rw [List.nil_append, shlexWords, if_pos hblank, shlexOf]
      cases shlexWords .space [] false rest <;> rfl
    | word =>
      cases hwords
      rw [List.nil_append, shlexWords_word_blank hblank, map_endWord, shlexOf]
      rfl
    | quotes quote => cases hwords
    | escape quote => cases hwords
  | cons c text ih =>
    rw [List.cons_append]
    cases state with
    | space =>
      obtain ⟨rfl, rfl⟩ := hstate rfl
      rw [shlexWords] at hwords ⊢
      split at hwords
      next h =>
        rw [if_pos h]
        exact ih (fun _ => ⟨rfl, rfl⟩) hwords
      next h =>
        rw [if_neg h]
        split at hwords
        next h' =>
          rw [if_pos h']
          exact ih nofun hwords
        next h' =>
          rw [if_neg h']
          split at hwords
          next h'' =>
            rw [if_pos h'']
            exact ih nofun hwords
          next h'' =>
            rw [if_neg h'']
            exact ih nofun hwords
    | word =>
      by_cases hc : isShlexSpace c = true
      · rw [shlexWords_word_blank hc] at hwords ⊢
        obtain ⟨later, hlater, rfl⟩ := map_eq_ok.mp hwords
        rw [ih (fun _ => ⟨rfl, rfl⟩) hlater]
        cases shlexOf rest with
        | error raised => rfl
        | ok others => exact congrArg Except.ok (endWord_append later others)
      · rw [shlexWords, if_neg hc] at hwords ⊢
        split at hwords
        next h =>
          rw [if_pos h]
          exact ih nofun hwords
        next h =>
          rw [if_neg h]
          split at hwords
          next h' =>
            rw [if_pos h']
            exact ih nofun hwords
          next h' =>
            rw [if_neg h']
            exact ih nofun hwords
    | quotes quote =>
      rw [shlexWords] at hwords ⊢
      split at hwords
      next h =>
        rw [if_pos h]
        exact ih nofun hwords
      next h =>
        rw [if_neg h]
        split at hwords
        next h' =>
          rw [if_pos h']
          exact ih nofun hwords
        next h' =>
          rw [if_neg h']
          exact ih nofun hwords
    | escape quote =>
      cases quote with
      | none =>
        rw [shlexWords] at hwords ⊢
        exact ih nofun hwords
      | some quote =>
        rw [shlexWords] at hwords ⊢
        split at hwords
        next h =>
          rw [if_pos h]
          exact ih nofun hwords
        next h =>
          rw [if_neg h]
          exact ih nofun hwords

/-- A character that stands for itself and does not end a word. -/
def isPlain (c : Char) : Bool := !isShlexSpace c && !isShlexQuote c && c ≠ '\\'

theorem shlexWords_plain (hplain : ∀ c ∈ text, isPlain c = true) :
    shlexWords .word token quoted text = .ok (endWord (text.reverse ++ token) quoted []) := by
  induction text generalizing token with
  | nil => rfl
  | cons c text ih =>
    obtain ⟨hc, hrest⟩ := List.forall_mem_cons.mp hplain
    simp only [isPlain, Bool.and_eq_true, Bool.not_eq_true', decide_eq_true_eq] at hc
    rw [shlexWords, if_neg (by rw [hc.1.1]; exact Bool.false_ne_true),
      if_neg (by rw [hc.1.2]; exact Bool.false_ne_true), if_neg hc.2, ih hrest,
      List.reverse_cons, List.append_assoc, List.singleton_append]

/-- A plain word is one word. -/
theorem shlexOf_plain (hne : text ≠ []) (hplain : ∀ c ∈ text, isPlain c = true) :
    shlexOf text = .ok [String.ofList text] := by
  cases text with
  | nil => exact absurd rfl hne
  | cons c text =>
    obtain ⟨hc, hrest⟩ := List.forall_mem_cons.mp hplain
    simp only [isPlain, Bool.and_eq_true, Bool.not_eq_true', decide_eq_true_eq] at hc
    rw [shlexOf, shlexWords, if_neg (by rw [hc.1.1]; exact Bool.false_ne_true), if_neg hc.2,
      if_neg (by rw [hc.1.2]; exact Bool.false_ne_true), shlexWords_plain hrest, endWord,
      if_neg (by simp), List.reverse_append, List.reverse_reverse]
    rfl

end DbtCraft.Python
