/-
# Statements of SQL

A text of SQL as its tokens, with comments and what stands in quotes out of the way, and the
statements between its semicolons. What a dialect does to a text is left open but for the
words a text begins with; the rules of the standard with dollar quotes are one dialect.
-/

import Mathlib.Data.List.TakeWhile
import DbtCraft.Python.Text

namespace DbtCraft.Sql

open DbtCraft.Python

inductive Token
  | /-- A keyword or a name without quotes. -/
    word (letters : List Char)
  | semicolon
  | /-- A text in quotes, a number or another character. -/
    other
  deriving DecidableEq

/-- A word in lower case. -/
def keyword (letters : List Char) : List Char := letters.map Char.toLower

/-! ## Statements -/

/-- What stands between the semicolons. -/
def statements (tokens : List Token) : List (List Token) :=
  (tokens.splitOn .semicolon).filter (· ≠ [])

/-- After the first semicolon there are only semicolons. -/
def Single (tokens : List Token) : Prop :=
  ∀ token ∈ tokens.dropWhile (· ≠ .semicolon), token = .semicolon

variable {token : Token} {tokens others statement : List Token}

theorem statements_cons_semicolon : statements (.semicolon :: tokens) = statements tokens := by
  unfold statements
  rw [List.splitOn_cons_eq_if_modifyHead, if_pos (by simp), List.filter_cons_of_neg (by simp)]

theorem statements_of_not_mem (htoken : token ≠ .semicolon) (htokens : .semicolon ∉ tokens) :
    statements (token :: tokens) = [token :: tokens] := by
  have hnone : Token.semicolon ∉ token :: tokens :=
    fun hmem => (List.mem_cons.mp hmem).elim (fun hsame => htoken hsame.symm) htokens
  unfold statements
  rw [List.splitOn_eq_singleton hnone, List.filter_cons_of_pos (by simp), List.filter_nil]

/-- The first statement, and those after its semicolon. -/
theorem statements_append_cons (htoken : token ≠ .semicolon) (htokens : .semicolon ∉ tokens) :
    statements (token :: tokens ++ Token.semicolon :: others) = (token :: tokens) :: statements others := by
  have hnone : Token.semicolon ∉ token :: tokens :=
    fun hmem => (List.mem_cons.mp hmem).elim (fun hsame => htoken hsame.symm) htokens
  unfold statements
  rw [List.splitOn_append_cons_of_beq _ _ (beq_self_eq_true _), List.splitOn_eq_singleton hnone,
    List.singleton_append, List.filter_cons_of_pos (by simp)]

/-- The tokens up to the first semicolon, and what follows it. -/
theorem eq_or_exists_semicolon (tokens : List Token) :
    .semicolon ∉ tokens ∨
      ∃ first rest, .semicolon ∉ first ∧ tokens = first ++ Token.semicolon :: rest := by
  by_cases hmem : Token.semicolon ∈ tokens
  · obtain ⟨first, rest, htokens, hfirst⟩ := List.eq_append_cons_of_mem hmem
    exact Or.inr ⟨first, rest, hfirst, htokens⟩
  · exact Or.inl hmem

theorem statements_eq_nil_iff : statements tokens = [] ↔ ∀ token ∈ tokens, token = .semicolon := by
  induction tokens with
  | nil => exact iff_of_true (by decide) (fun _ htoken => nomatch htoken)
  | cons token rest ih =>
    by_cases htoken : token = .semicolon
    · rw [htoken, statements_cons_semicolon, ih, List.forall_mem_cons, and_iff_right rfl]
    · apply iff_of_false _ fun hall => htoken (hall token List.mem_cons_self)
      rcases eq_or_exists_semicolon rest with hrest | ⟨first, others, hfirst, rfl⟩
      · rw [statements_of_not_mem htoken hrest]
        exact List.cons_ne_nil _ _
      · rw [← List.cons_append, statements_append_cons htoken hfirst]
        exact List.cons_ne_nil _ _

/-- A text that begins with a token is one statement when nothing follows its first
semicolon. -/
theorem statements_eq_singleton_iff (htoken : token ≠ .semicolon) :
    statements (token :: others) = [statement] ↔
      Single (token :: others) ∧ statement = (token :: others).takeWhile (· ≠ .semicolon) := by
  have hkept (tokens : List Token) (htokens : .semicolon ∉ tokens) :
      ∀ next ∈ token :: tokens, (decide (next ≠ .semicolon)) = true := by
    intro next hnext
    rw [decide_eq_true_iff]
    rintro rfl
    rcases List.mem_cons.mp hnext with hsame | hmem
    · exact htoken hsame.symm
    · exact htokens hmem
  unfold Single
  rcases eq_or_exists_semicolon others with hothers | ⟨first, rest, hfirst, rfl⟩
  · rw [statements_of_not_mem htoken hothers, List.dropWhile_eq_nil_iff.mpr (hkept _ hothers),
      List.takeWhile_eq_self_iff.mpr (hkept _ hothers)]
    simp [eq_comm]
  · rw [← List.cons_append, statements_append_cons htoken hfirst,
      List.dropWhile_append_of_pos (hkept _ hfirst), List.takeWhile_append_of_pos (hkept _ hfirst),
      List.dropWhile_cons_of_neg (by simp), List.takeWhile_cons_of_neg (by simp), List.append_nil,
      List.cons.injEq, statements_eq_nil_iff, List.forall_mem_cons]
    simp [eq_comm, and_comm]

/-! ## Reading statements -/

/-- The words that begin a statement which reads. -/
def readingWords : List (List Char) :=
  ["select", "with", "show", "describe", "explain"].map String.toList

/-- The words of a statement that writes, or locks what it reads. -/
def writingWords : List (List Char) :=
  ["insert", "update", "delete", "merge", "into"].map String.toList

/-- The statement reads, and no part of it writes. -/
def reads (statement : List Token) : Bool :=
  match statement with
  | .word letters :: _ =>
    decide (keyword letters ∈ readingWords) && statement.all fun token =>
      match token with
      | .word letters => decide (keyword letters ∉ writingWords)
      | _ => true
  | _ => false

/-! ## Dialects -/

/-- How a database reads a text. -/
structure Dialect where
  tokens : List Char → List Token
  isBlank : Char → Bool
  isWordPart : Char → Bool
  isWordPart_of_isAlpha : ∀ c, c.isAlpha = true → isWordPart c = true
  /-- Blanks before a text are passed over. -/
  tokens_blank : ∀ c rest, isBlank c = true → tokens (c :: rest) = tokens rest
  /-- White space that is no blank belongs to a word or another token. -/
  tokens_space : ∀ c rest, isSpace c = true → isBlank c = false →
    ∃ token others, tokens (c :: rest) = token :: others ∧ token ≠ .semicolon ∧
      ∀ letters, token = .word letters → c ∈ letters
  /-- A word goes up to the first character that it cannot hold; one of four letters or more
  is no mark of a literal. -/
  tokens_word : ∀ c rest, c.isAlpha = true → 3 ≤ (rest.takeWhile isWordPart).length →
    tokens (c :: rest) = .word (c :: rest.takeWhile isWordPart) :: tokens (rest.dropWhile isWordPart)

/-- The text is one statement, and it reads. -/
def Dialect.ReadsOnce (dialect : Dialect) (sql : List Char) : Prop :=
  ∃ statement, statements (dialect.tokens sql) = [statement] ∧ reads statement = true

/-! ## The standard -/

/-- Where a scanner is in a text. -/
inductive Scan
  | code
  | word (letters : List Char)
  | dash
  | slash
  | line
  | block (depth : ℕ)
  | blockStar (depth : ℕ)
  | blockSlash (depth : ℕ)
  | name
  | literal
  | /-- After a dollar sign and the letters of a tag. -/
    tag (letters : List Char)
  | /-- In a text between dollar quotes, with what stands behind its last dollar sign. -/
    dollars (tag : List Char) (seen : Option (List Char))

def isBlankChar (c : Char) : Bool := c ∈ [' ', '\t', '\n', '\r', '\x0b', '\x0c']

/-- A letter, an underscore, or any character beyond ASCII. -/
def isWordStart (c : Char) : Bool := c.isAlpha || c = '_' || decide (128 ≤ c.toNat)

def isPart (c : Char) : Bool := isWordStart c || c.isDigit || c = '$'

/-- A character of code. -/
def scanCode (c : Char) : List Token × Scan :=
  if isBlankChar c then ([], .code)
  else if isWordStart c then ([], .word [c])
  else if c = ';' then ([.semicolon], .code)
  else if c = '-' then ([], .dash)
  else if c = '/' then ([], .slash)
  else if c = '$' then ([], .tag [])
  else if c = '\'' then ([.other], .literal)
  else if c = '"' then ([.other], .name)
  else ([.other], .code)

/-- A token before those of the next character. -/
def before (tokens : List Token) (next : List Token × Scan) : List Token × Scan :=
  (tokens ++ next.1, next.2)

/-- A character of a comment between `/*` and `*/`. -/
def scanBlock (depth : ℕ) (c : Char) : List Token × Scan :=
  ([], if c = '*' then .blockStar depth else if c = '/' then .blockSlash depth else .block depth)

/-- A dollar sign that opens no text. -/
def strayTag (letters : List Char) : List Token :=
  .other :: if letters = [] then [] else [.word letters]

def scan : Scan → Char → List Token × Scan
  | .code, c => scanCode c
  | .word letters, c =>
    if isPart c then ([], .word (letters ++ [c])) else before [.word letters] (scanCode c)
  | .dash, c => if c = '-' then ([], .line) else before [.other] (scanCode c)
  | .slash, c => if c = '*' then ([], .block 0) else before [.other] (scanCode c)
  | .line, c => ([], if c = '\n' ∨ c = '\r' then .code else .line)
  | .block depth, c => scanBlock depth c
  | .blockStar depth, c =>
    if c = '/' then ([], if depth = 0 then .code else .block (depth - 1)) else scanBlock depth c
  | .blockSlash depth, c => if c = '*' then ([], .block (depth + 1)) else scanBlock depth c
  | .name, c => ([], if c = '"' then .code else .name)
  | .literal, c => ([], if c = '\'' then .code else .literal)
  | .tag letters, c =>
    if c = '$' then ([.other], .dollars letters none)
    else if isWordStart c ∨ letters ≠ [] ∧ c.isDigit then ([], .tag (letters ++ [c]))
    else before (strayTag letters) (scanCode c)
  | .dollars tag seen, c =>
    if c = '$' then ([], if seen = some tag then .code else .dollars tag (some []))
    else ([], .dollars tag (seen.map (· ++ [c])))

/-- The tokens of what a text ends with. -/
def finishScan : Scan → List Token
  | .word letters => [.word letters]
  | .dash | .slash => [.other]
  | .tag letters => strayTag letters
  | _ => []

def scanFrom : Scan → List Char → List Token
  | state, [] => finishScan state
  | state, c :: rest => (scan state c).1 ++ scanFrom (scan state c).2 rest

theorem scanFrom_word (letters text : List Char) :
    scanFrom (.word letters) text =
      .word (letters ++ text.takeWhile isPart) :: scanFrom .code (text.dropWhile isPart) := by
  induction text generalizing letters with
  | nil =>
    rw [List.takeWhile_nil, List.append_nil]
    rfl
  | cons c rest ih =>
    by_cases hpart : isPart c = true
    · rw [scanFrom, scan, if_pos hpart, ih, List.takeWhile_cons_of_pos hpart,
        List.dropWhile_cons_of_pos hpart, List.append_assoc]
      rfl
    · rw [scanFrom, scan, if_neg hpart, List.takeWhile_cons_of_neg hpart,
        List.dropWhile_cons_of_neg hpart, List.append_nil]
      rfl

theorem isBlankChar_of_isAlpha {c : Char} (hc : c.isAlpha = true) : isBlankChar c = false := by
  have hspace := isSpace_of_isAlphanum (c := c) (by simp [Char.isAlphanum, hc])
  unfold isBlankChar
  rw [decide_eq_false_iff_not]
  intro hmem
  simp only [List.mem_cons, List.not_mem_nil, or_false] at hmem
  rcases hmem with rfl | rfl | rfl | rfl | rfl | rfl
  all_goals exact absurd hspace (by decide)

theorem scanFrom_code_of_isWordStart {c : Char} (hc : isWordStart c = true)
    (hblank : isBlankChar c = false) (rest : List Char) :
    scanFrom .code (c :: rest) =
      .word (c :: rest.takeWhile isPart) :: scanFrom .code (rest.dropWhile isPart) := by
  rw [scanFrom, scan, scanCode, if_neg (by simp [hblank]), if_pos hc]
  exact scanFrom_word [c] rest

/-- White space of ASCII that is no blank is a character of its own. -/
theorem scanCode_of_isSpace {c : Char} (hspace : isSpace c = true) (hblank : isBlankChar c = false)
    (hstart : isWordStart c = false) : scanCode c = ([.other], .code) := by
  have hcode : 28 ≤ c.toNat ∧ c.toNat ≤ 31 := by
    have hne : ∀ d ∈ [' ', '\t', '\n', '\r', '\x0b', '\x0c'], c.toNat ≠ d.toNat := by
      intro d hd hsame
      exact of_decide_eq_false hblank (Char.toNat_inj.mp hsame ▸ hd)
    simp only [List.forall_mem_cons, List.not_mem_nil, false_imp_iff, implies_true, and_true] at hne
    have hbound : c.toNat < 128 := by
      simp only [isWordStart, Bool.or_eq_false_iff, decide_eq_false_iff_not] at hstart
      omega
    simp only [isSpace, Bool.or_eq_true, Bool.and_eq_true, decide_eq_true_eq] at hspace
    have hcodes : ' '.toNat = 32 ∧ '\t'.toNat = 9 ∧ '\n'.toNat = 10 ∧ '\r'.toNat = 13 ∧
        '\x0b'.toNat = 11 ∧ '\x0c'.toNat = 12 := by decide
    omega
  have hother (d : Char) (hd : 31 < d.toNat) : c ≠ d := by
    rintro rfl
    omega
  rw [scanCode, if_neg (by simp [hblank]), if_neg (by simp [hstart]), if_neg (hother _ (by decide)),
    if_neg (hother _ (by decide)), if_neg (hother _ (by decide)), if_neg (hother _ (by decide)),
    if_neg (hother _ (by decide)), if_neg (hother _ (by decide))]

/-- The rules of the standard, with dollar quotes. -/
def standard : Dialect where
  tokens := scanFrom .code
  isBlank := isBlankChar
  isWordPart := isPart
  isWordPart_of_isAlpha c hc := by simp [isPart, isWordStart, hc]
  tokens_blank c rest hc := by
    rw [scanFrom, scan, scanCode, if_pos hc]
    rfl
  tokens_space c rest hspace hblank := by
    by_cases hstart : isWordStart c = true
    · refine ⟨_, _, scanFrom_code_of_isWordStart hstart hblank rest, nofun, ?_⟩
      intro letters hletters
      cases hletters
      exact List.mem_cons_self
    · refine ⟨.other, scanFrom .code rest, ?_, nofun, nofun⟩
      rw [scanFrom, scan, scanCode_of_isSpace hspace hblank (Bool.eq_false_iff.mpr hstart)]
      rfl
  tokens_word c rest hc _ :=
    scanFrom_code_of_isWordStart (by simp [isWordStart, hc]) (isBlankChar_of_isAlpha hc) rest

end DbtCraft.Sql
