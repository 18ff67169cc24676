/-
# The inline query console

`_is_allowed_inline_sql` of `app/services/dbt_service.py`, which looks at how a text begins,
and what a database makes of the whole text.
-/

import DbtCraft.Python.Splitting
import DbtCraft.Sql.Statements

namespace DbtCraft.Services.InlineSql

open DbtCraft.Python Sql

/-! ## The check -/

section

-- `str.isalnum` of a character.
variable (isAlnum : Char → Bool)

/-- `\b` after a word. -/
def endsWord : List Char → Bool
  | [] => true
  | c :: _ => !(isAlnum c || c = '_')

/-- What follows a word at the beginning of a text. -/
def afterWord (word : String) (text : List Char) : Option (List Char) :=
  if word.toList.isPrefixOf text then some (text.drop word.toList.length) else none

/-- What follows `\s+`. -/
def afterSpaces (text : List Char) : Option (List Char) :=
  if text.takeWhile isSpace = [] then none else some (text.dropWhile isSpace)

/-- `(select|with)\b`. -/
def isQuery (text : List Char) : Bool :=
  ["select", "with"].any fun word => (afterWord word text).any (endsWord isAlnum)

/-- `(?:plan|json)\s+for\s+` and a query. -/
def isPlan (text : List Char) : Bool :=
  ["plan", "json"].any fun word =>
    ((((afterWord word text).bind afterSpaces).bind (afterWord "for")).bind afterSpaces).any
      (isQuery isAlnum)

/-- `\([^)]*\)\s*` and a query. -/
def isOptions : List Char → Bool
  | '(' :: rest =>
    match rest.dropWhile (· ≠ ')') with
    | ')' :: query => isQuery isAlnum (query.dropWhile isSpace)
    | _ => false
  | _ => false

/-- The pattern of an `EXPLAIN` without `ANALYZE`. -/
def isExplain (text : List Char) : Bool :=
  ((afterWord "explain" text).bind afterSpaces).any fun rest =>
    !((afterWord "analyze" rest).any (endsWord isAlnum)) &&
      (isPlan isAlnum rest || isOptions isAlnum rest || isQuery isAlnum rest)

/-- `_is_allowed_inline_sql`. No character beyond ASCII has a lower-case form in which these
words stand. -/
def isAllowedInlineSql (sql : List Char) : Bool :=
  let lowered := (stripped sql).map Char.toLower
  "select".toList.isPrefixOf lowered || "with".toList.isPrefixOf lowered ||
    isExplain isAlnum lowered

end

/-! ## Texts that do no harm -/

/-- The words that the check looks for at the beginning. -/
def allowedWords : List (List Char) := ["select", "with", "explain"].map String.toList

/-- Nothing but semicolons follows the first semicolon, what is stripped is blank to the
database, the text begins with one of the words and not with a longer one, and no word of it
writes. -/
structure Harmless (dialect : Dialect) (sql : List Char) : Prop where
  single : Single (dialect.tokens sql)
  blank : ∀ c ∈ sql.takeWhile isSpace, dialect.isBlank c = true
  whole : keyword ((sql.dropWhile isSpace).takeWhile dialect.isWordPart) ∈ allowedWords
  reading : ∀ letters, .word letters ∈ dialect.tokens sql → keyword letters ∉ writingWords

variable {isAlnum : Char → Bool} {dialect : Dialect} {sql text : List Char} {word : List Char}

theorem prefix_of_afterWord {start : String} (hafter : afterWord start text ≠ none) :
    start.toList <+: text := by
  unfold afterWord at hafter
  split at hafter
  next hstarts => exact List.isPrefixOf_iff_prefix.mp hstarts
  · exact absurd rfl hafter

/-- What passes the check begins with one of the words. -/
theorem exists_word_of_allowed (hallowed : isAllowedInlineSql isAlnum sql = true) :
    ∃ word ∈ allowedWords, word <+: (sql.dropWhile isSpace).map Char.toLower := by
  have hstripped : (stripped sql).map Char.toLower <+: (sql.dropWhile isSpace).map Char.toLower :=
    prefix_rstrip.map _
  unfold isAllowedInlineSql at hallowed
  simp only [Bool.or_eq_true, List.isPrefixOf_iff_prefix] at hallowed
  rcases hallowed with (hselect | hwith) | hexplain
  · exact ⟨_, by simp [allowedWords], hselect.trans hstripped⟩
  · exact ⟨_, by simp [allowedWords], hwith.trans hstripped⟩
  · refine ⟨"explain".toList, by simp [allowedWords], List.IsPrefix.trans ?_ hstripped⟩
    apply prefix_of_afterWord
    intro hnone
    rw [isExplain, hnone] at hexplain
    cases hexplain

theorem isAlpha_of_toLower {c : Char} (hc : c.toLower.isAlpha = true) : c.isAlpha = true := by
  cases hupper : c.isUpper with
  | true => rw [isAlpha_eq, hupper, Bool.true_or]
  | false => rwa [toLower_of_not_isUpper hupper] at hc

/-- The letters of a word are read as one with those that follow. -/
theorem exists_letters_of_starts (hword : ∀ c ∈ word, c.isAlpha = true)
    (hstarts : word <+: text.map Char.toLower) :
    ∃ letters more, text = letters ++ more ∧ keyword letters = word ∧
      (∀ c ∈ letters, c.isAlpha = true) ∧
      text.takeWhile dialect.isWordPart = letters ++ more.takeWhile dialect.isWordPart := by
  obtain ⟨tail, htail⟩ := hstarts
  obtain ⟨letters, more, rfl, hletters, _⟩ := List.map_eq_append_iff.mp htail.symm
  have halpha : ∀ c ∈ letters, c.isAlpha = true := by
    intro c hc
    apply isAlpha_of_toLower
    apply hword
    rw [← hletters]
    exact List.mem_map_of_mem hc
  refine ⟨letters, more, rfl, hletters, halpha, ?_⟩
  rw [List.takeWhile_append_of_pos fun c hc => dialect.isWordPart_of_isAlpha c (halpha c hc)]

/-- Blanks before a text are passed over. -/
theorem tokens_append_of_blank {lead : List Char} (hlead : ∀ c ∈ lead, dialect.isBlank c = true) :
    dialect.tokens (lead ++ text) = dialect.tokens text := by
  induction lead with
  | nil => rfl
  | cons c rest ih =>
    rw [List.cons_append, dialect.tokens_blank c _ (hlead c List.mem_cons_self)]
    exact ih fun d hd => hlead d (List.mem_cons_of_mem _ hd)

theorem allowedWords_alpha : ∀ word ∈ allowedWords, (∀ c ∈ word, c.isAlpha = true) ∧ 4 ≤ word.length := by
  decide

/-- What passes the check is read as a word first, which begins with one of the words. -/
theorem tokens_of_allowed (hallowed : isAllowedInlineSql isAlnum sql = true)
    (hblank : ∀ c ∈ sql.takeWhile isSpace, dialect.isBlank c = true) :
    ∃ letters others, dialect.tokens sql = .word letters :: others ∧
      letters = (sql.dropWhile isSpace).takeWhile dialect.isWordPart ∧
      ∃ word ∈ allowedWords, word <+: keyword letters := by
  obtain ⟨word, hword, hstarts⟩ := exists_word_of_allowed hallowed
  obtain ⟨halpha, hlength⟩ := allowedWords_alpha word hword
  obtain ⟨letters, more, htext, hletters, hparts, htake⟩ :=
    @exists_letters_of_starts dialect _ _ halpha hstarts
  have hsql : dialect.tokens (sql.takeWhile isSpace ++ sql.dropWhile isSpace) =
      dialect.tokens (sql.dropWhile isSpace) := tokens_append_of_blank hblank
  rw [List.takeWhile_append_dropWhile] at hsql
  have hsize : letters.length = word.length := by
    rw [← hletters, keyword, List.length_map]
  refine ⟨(sql.dropWhile isSpace).takeWhile dialect.isWordPart, ?_⟩
  have hbegins : word <+: keyword ((sql.dropWhile isSpace).takeWhile dialect.isWordPart) := by
    rw [htake, keyword, List.map_append, ← hletters]
    exact List.prefix_append _ _
  cases letters with
  | nil =>
    rw [List.length_nil] at hsize
    omega
  | cons first rest =>
    have hfirst := hparts first List.mem_cons_self
    rw [htext, List.cons_append, List.takeWhile_cons_of_pos (dialect.isWordPart_of_isAlpha _ hfirst),
      List.cons_append, List.cons.injEq, and_iff_right rfl] at htake
    have hlong : 3 ≤ ((rest ++ more).takeWhile dialect.isWordPart).length := by
      rw [htake, List.length_append]
      rw [List.length_cons] at hsize
      omega
    refine ⟨dialect.tokens ((rest ++ more).dropWhile dialect.isWordPart), ?_, rfl, word, hword,
      hbegins⟩
    rw [hsql, htext, List.cons_append, dialect.tokens_word _ _ hfirst hlong,
      List.takeWhile_cons_of_pos (dialect.isWordPart_of_isAlpha _ hfirst)]

/-- A reading word that begins with an allowed one is that one. -/
theorem mem_allowedWords {letters : List Char} (hread : keyword letters ∈ readingWords)
    (hword : word ∈ allowedWords) (hstarts : word <+: keyword letters) :
    keyword letters ∈ allowedWords := by
  have hall : ∀ reading ∈ readingWords, ∀ word ∈ allowedWords, word <+: reading →
      reading ∈ allowedWords := by decide
  exact hall _ hread word hword hstarts

theorem reads_cons_iff {letters : List Char} {others : List Token} :
    reads (.word letters :: others) = true ↔ keyword letters ∈ readingWords ∧
      ∀ other, .word other ∈ Token.word letters :: others → keyword other ∉ writingWords := by
  unfold reads
  rw [Bool.and_eq_true, decide_eq_true_iff, List.all_eq_true]
  apply and_congr_right
  intro _
  apply Iff.intro
  · intro hall other hother
    simpa using hall _ hother
  · intro hall token htoken
    cases token with
    | word other => simpa using hall other htoken
    | semicolon => rfl
    | other => rfl

/-- A text that is all one statement has its words in it. -/
theorem word_mem_takeWhile_iff {tokens : List Token} (hsingle : Single tokens) (letters : List Char) :
    .word letters ∈ tokens.takeWhile (· ≠ .semicolon) ↔ .word letters ∈ tokens := by
  apply Iff.intro
  · exact fun hmem => List.takeWhile_subset _ hmem
  · intro hmem
    rw [← List.takeWhile_append_dropWhile (p := fun token => decide (token ≠ .semicolon))
      (l := tokens), List.mem_append] at hmem
    rcases hmem with hfirst | hlater
    · exact hfirst
    · cases hsingle _ hlater

/-- No reading word holds white space. -/
theorem not_mem_of_reading {letters : List Char} {c : Char} (hspace : isSpace c = true)
    (hread : keyword letters ∈ readingWords) : c ∉ letters := by
  have hnone : ∀ word ∈ readingWords, ∀ d ∈ word, isSpace d = false := by decide
  have hlower : c.toLower = c := by
    apply toLower_of_not_isUpper
    cases hupper : c.isUpper with
    | false => rfl
    | true =>
      rw [isSpace_of_isAlphanum (by simp [Char.isAlphanum, isAlpha_eq, hupper])] at hspace
      cases hspace
  intro hmem
  have hspace' := hnone _ hread c (hlower ▸ List.mem_map_of_mem hmem)
  rw [hspace] at hspace'
  cases hspace'

/-- White space that the database does not pass over spoils the first word. -/
theorem blank_of_readsOnce (hreads : dialect.ReadsOnce sql) :
    ∀ c ∈ sql.takeWhile isSpace, dialect.isBlank c = true := by
  obtain ⟨statement, hstatement, hread⟩ := hreads
  induction sql with
  | nil => exact fun _ hc => nomatch hc
  | cons first rest ih =>
    by_cases hspace : isSpace first = true
    · rw [List.takeWhile_cons_of_pos hspace]
      cases hblank : dialect.isBlank first with
      | true =>
        rw [dialect.tokens_blank first rest hblank] at hstatement
        exact List.forall_mem_cons.mpr ⟨hblank, ih hstatement⟩
      | false =>
        obtain ⟨token, others, htokens, htoken, hletters⟩ :=
          dialect.tokens_space first rest hspace hblank
        rw [htokens, statements_eq_singleton_iff htoken] at hstatement
        obtain ⟨_, rfl⟩ := hstatement
        rw [List.takeWhile_cons_of_pos (by simpa using htoken)] at hread
        cases token with
        | word letters =>
          exact absurd (hletters letters rfl) (not_mem_of_reading hspace (reads_cons_iff.mp hread).1)
        | semicolon => cases hread
        | other => cases hread
    · rw [List.takeWhile_cons_of_neg hspace]
      exact fun _ hc => nomatch hc

end DbtCraft.Services.InlineSql
