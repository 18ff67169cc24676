/-
# Splitting and joining texts

`text.split(separator)`, also with a limit, `text.rstrip()`, and how splitting undoes joining:
a text without the separator is one piece, and a piece ends at the first separator.
-/

import DbtCraft.Python.Lines
import DbtCraft.Python.Text
import Mathlib.Data.List.TakeWhile

namespace DbtCraft.Python

variable {separator : Char} {text first rest : List Char}

theorem split_of_not_mem (htext : separator ∉ text) : split separator text = [text] := by
  induction text with
  | nil => rfl
  | cons c rest ih =>
    have hc : c ≠ separator := fun hsame => htext (hsame ▸ List.mem_cons_self)
    have hrest := ih fun hmem => htext (List.mem_cons_of_mem c hmem)
    unfold split at hrest ⊢
    rw [List.foldr_cons, hrest, if_neg hc]

theorem split_append (hfirst : separator ∉ first) :
    split separator (first ++ separator :: rest) = first :: split separator rest := by
  induction first with
  | nil =>
    unfold split
    rw [List.nil_append, List.foldr_cons, if_pos rfl]
  | cons c more ih =>
    have hc : c ≠ separator := fun hsame => hfirst (hsame ▸ List.mem_cons_self)
    have hmore := ih fun hmem => hfirst (List.mem_cons_of_mem c hmem)
    unfold split at hmore ⊢
    rw [List.cons_append, List.foldr_cons, hmore, if_neg hc]

theorem split_cons_separator : split separator (separator :: text) = [] :: split separator text := by
  unfold split
  rw [List.foldr_cons, if_pos rfl]

theorem split_ne_nil : split separator text ≠ [] := by
  induction text with
  | nil => exact List.cons_ne_nil [] []
  | cons c rest ih =>
    unfold split at ih ⊢
    rw [List.foldr_cons]
    split
    · exact List.cons_ne_nil _ _
    · split
      · exact List.cons_ne_nil _ _
      · exact List.cons_ne_nil _ _

/-- A text with the separator, taken apart at the first one. -/
theorem exists_split_of_mem (hmem : separator ∈ text) :
    ∃ first rest, text = first ++ separator :: rest ∧ separator ∉ first ∧
      split separator text = first :: split separator rest := by
  obtain ⟨first, rest, htext, hfirst⟩ := List.eq_append_cons_of_mem hmem
  exact ⟨first, rest, htext, hfirst, htext ▸ split_append hfirst⟩

/-- A text is split on both sides of a separator. -/
theorem split_append_cons (text rest : List Char) : split separator (text ++ separator :: rest) =
    split separator text ++ split separator rest := by
  induction text with
  | nil =>
    rw [List.nil_append, split_cons_separator]
    rfl
  | cons c more ih =>
    by_cases hc : c = separator
    · rw [hc, List.cons_append, split_cons_separator, split_cons_separator, ih, List.cons_append]
    · cases hmore : split separator more with
      | nil => exact absurd hmore split_ne_nil
      | cons piece pieces =>
        rw [hmore] at ih
        unfold split at ih hmore ⊢
        rw [List.cons_append, List.foldr_cons, ih, List.foldr_cons, hmore, if_neg hc, if_neg hc]
        rfl

/-- A piece stands in the text; the first one at its beginning. -/
theorem infix_of_split {pieces : List (List Char)} (hsplit : split separator text = first :: pieces) :
    first <+: text ∧ ∀ piece ∈ pieces, piece <:+: text := by
  induction text generalizing first pieces with
  | nil =>
    obtain ⟨hfirst, hpieces⟩ := List.cons.inj hsplit
    exact ⟨hfirst ▸ List.nil_prefix, fun piece hpiece => by
      rw [← hpieces] at hpiece
      cases hpiece⟩
  | cons c more ih =>
    cases hmore : split separator more with
    | nil => exact absurd hmore split_ne_nil
    | cons next others =>
      obtain ⟨hnext, hothers⟩ := ih hmore
      have hlonger : ∀ piece ∈ others, piece <:+: c :: more := fun piece hpiece =>
        List.infix_cons (hothers piece hpiece)
      by_cases hc : c = separator
      · rw [hc, split_cons_separator, hmore] at hsplit
        obtain ⟨hfirst, hpieces⟩ := List.cons.inj hsplit
        rw [← hfirst, ← hpieces]
        refine ⟨List.nil_prefix, fun piece hpiece => ?_⟩
        rcases List.mem_cons.mp hpiece with hsame | hother
        · exact hsame ▸ List.infix_cons ( List.IsPrefix.isInfix hnext)
        · exact hlonger piece hother
      · have hcons : split separator (c :: more) = (c :: next) :: others := by
          unfold split at hmore ⊢
          rw [List.foldr_cons, hmore, if_neg hc]
        rw [hcons] at hsplit
        obtain ⟨hfirst, hpieces⟩ := List.cons.inj hsplit
        exact ⟨hfirst ▸ (List.prefix_cons_inj c).mpr hnext, hpieces ▸ hlonger⟩

/-- A character is the separator or stands in a piece. -/
theorem mem_split {c : Char} (hmem : c ∈ text) (hc : c ≠ separator) :
    ∃ piece ∈ split separator text, c ∈ piece := by
  induction hpieces : split separator text generalizing text with
  | nil => exact absurd hpieces split_ne_nil
  | cons piece pieces ih =>
    by_cases hsep : separator ∈ text
    · obtain ⟨first, rest, rfl, -, hsplit⟩ := exists_split_of_mem hsep
      obtain ⟨rfl, rfl⟩ := List.cons.inj (hsplit.symm.trans hpieces)
      rcases List.mem_append.mp hmem with hfirst | hrest
      · exact ⟨first, List.mem_cons_self, hfirst⟩
      · rcases List.mem_cons.mp hrest with hsame | hrest
        · exact absurd hsame hc
        · obtain ⟨other, hother, hin⟩ := ih hrest rfl
          exact ⟨other, List.mem_cons_of_mem first hother, hin⟩
    · rw [← hpieces, split_of_not_mem hsep]
      exact ⟨text, List.mem_cons_self, hmem⟩

/-- Lines that are joined and split again. -/
theorem split_joinLines {lines : List (List Char)} (hlines : lines ≠ [])
    (hplain : ∀ line ∈ lines, '\n' ∉ line) : split '\n' (joinLines lines) = lines := by
  induction lines with
  | nil => exact absurd rfl hlines
  | cons line rest ih =>
    have hline := hplain line List.mem_cons_self
    cases rest with
    | nil => rw [joinLines_singleton, split_of_not_mem hline]
    | cons next others =>
      rw [joinLines_cons (List.cons_ne_nil next others), split_append hline,
        ih (List.cons_ne_nil _ _) fun other hother =>
          hplain other (List.mem_cons_of_mem line hother)]

/-- What is split and joined again. -/
theorem joinLines_split : joinLines (split '\n' text) = text := by
  induction text with
  | nil => rfl
  | cons c rest ih =>
    by_cases hc : c = '\n'
    · have hsplit : split '\n' (c :: rest) = [] :: split '\n' rest := by
        unfold split
        rw [List.foldr_cons, if_pos hc]
      rw [hsplit, joinLines_cons split_ne_nil, ih, hc, List.nil_append]
    · cases hmore : split '\n' rest with
      | nil => exact absurd hmore split_ne_nil
      | cons line lines =>
        have hsplit : split '\n' (c :: rest) = (c :: line) :: lines := by
          unfold split at hmore ⊢
          rw [List.foldr_cons, hmore, if_neg hc]
        rw [hmore] at ih
        rw [hsplit]
        cases lines with
        | nil =>
          rw [joinLines_singleton] at ih ⊢
          rw [ih]
        | cons next others =>
          rw [joinLines_cons (List.cons_ne_nil next others)] at ih ⊢
          rw [List.cons_append, ih]

/-! ## Splitting with a limit -/

/-- `text.split(separator, count)`. -/
def splitMax (separator : Char) : ℕ → List Char → List (List Char)
  | 0, text => [text]
  | count + 1, text =>
    match text.dropWhile (· ≠ separator) with
    | [] => [text]
    | _ :: rest => text.takeWhile (· ≠ separator) :: splitMax separator count rest

theorem splitMax_append {count : ℕ} (hfirst : separator ∉ first) :
    splitMax separator (count + 1) (first ++ separator :: rest) =
      first :: splitMax separator count rest := by
  have hall : ∀ c ∈ first, decide (c ≠ separator) = true := fun c hc =>
    decide_eq_true fun hsame => hfirst (hsame ▸ hc)
  rw [splitMax, List.dropWhile_append_of_pos hall, List.takeWhile_append_of_pos hall,
    List.dropWhile_cons_of_neg (by simp), List.takeWhile_cons_of_neg (by simp), List.append_nil]

/-- A text that is split is a piece without the separator, and what stands behind it. -/
theorem splitMax_cons {count : ℕ} {next : List Char} {more : List (List Char)}
    (hsplit : splitMax separator (count + 1) text = first :: next :: more) :
    ∃ rest, text = first ++ separator :: rest ∧ separator ∉ first ∧
      splitMax separator count rest = next :: more := by
  rw [splitMax] at hsplit
  split at hsplit
  · cases hsplit
  next c rest hrest =>
    obtain ⟨hfirst, hmore⟩ := List.cons.inj hsplit
    have hc := List.head?_dropWhile_not (fun c : Char => decide (c ≠ separator)) text
    rw [hrest] at hc
    have heq : c = separator := by simpa using hc
    refine ⟨rest, ?_, ?_, hmore⟩
    · have hwhole : text.takeWhile (· ≠ separator) ++ text.dropWhile (· ≠ separator) = text :=
        List.takeWhile_append_dropWhile
      rw [hrest, heq, hfirst] at hwhole
      exact hwhole.symm
    · rw [← hfirst]
      intro hmem
      simpa using List.mem_takeWhile_imp hmem

/-! ## Trailing white space -/

/-- `text.rstrip()`. -/
def rstrip (text : List Char) : List Char := (text.reverse.dropWhile isSpace).reverse

theorem rstrip_append {c : Char} (hc : isSpace c = false) : rstrip (text ++ [c]) = text ++ [c] := by
  rw [rstrip, List.reverse_append, List.reverse_singleton, List.singleton_append,
    List.dropWhile_cons_of_neg (by simp [hc]), List.reverse_cons, List.reverse_reverse]

theorem prefix_rstrip : rstrip text <+: text := by
  have hsuffix := (List.dropWhile_suffix isSpace (l := text.reverse)).reverse
  rwa [List.reverse_reverse] at hsuffix

theorem strip_of_head {text : String} {c : Char} {more : List Char} (htext : text.toList = c :: more)
    (hc : isSpace c = false) : strip text = String.ofList (rstrip text.toList) := by
  rw [strip, htext, List.dropWhile_cons_of_neg (by simp [hc]), rstrip]

/-! ## White space on both sides -/

/-- `text.strip()`, of a list of letters. -/
def stripped (text : List Char) : List Char := rstrip (text.dropWhile isSpace)

/-- No white space at either end. -/
structure Trimmed (text : List Char) : Prop where
  head : ∀ c ∈ text.head?, isSpace c = false
  last : ∀ c ∈ text.getLast?, isSpace c = false

variable {lead trail : List Char} {c : Char}

theorem count_dropWhile_isSpace (hc : isSpace c = false) :
    (text.dropWhile isSpace).count c = text.count c := by
  have hnone : (text.takeWhile isSpace).count c = 0 := by
    refine List.count_eq_zero.mpr fun hmem => ?_
    rw [List.mem_takeWhile_imp hmem] at hc
    cases hc
  have hwhole : text.takeWhile isSpace ++ text.dropWhile isSpace = text :=
    List.takeWhile_append_dropWhile
  rw [← hwhole, List.count_append, hnone, hwhole, Nat.zero_add]

/-- Only white space is taken away. -/
theorem count_stripped (hc : isSpace c = false) : (stripped text).count c = text.count c := by
  rw [stripped, rstrip, List.count_reverse, count_dropWhile_isSpace hc, List.count_reverse,
    count_dropWhile_isSpace hc]

theorem stripped_ne_nil (hmem : c ∈ text) (hc : isSpace c = false) : stripped text ≠ [] := by
  intro hnil
  have hcount : (stripped text).count c = text.count c := count_stripped hc
  rw [hnil, List.count_nil] at hcount
  exact List.count_eq_zero.mp hcount.symm hmem

theorem stripped_of_blank (htext : ∀ c ∈ text, isSpace c = true) : stripped text = [] := by
  rw [stripped, List.dropWhile_eq_nil_iff.mpr htext]
  rfl

/-- The white space around a text is taken away. -/
theorem stripped_append (hlead : ∀ c ∈ lead, isSpace c = true) (hne : text ≠ [])
    (htrimmed : Trimmed text) (htrail : ∀ c ∈ trail, isSpace c = true) :
    stripped (lead ++ (text ++ trail)) = text := by
  cases text with
  | nil => exact absurd rfl hne
  | cons head more =>
    have hhead := htrimmed.head head rfl
    have hback : ∀ c ∈ trail.reverse, isSpace c = true := fun c hc =>
      htrail c (List.mem_reverse.mp hc)
    have hlast : (head :: more).reverse.dropWhile isSpace = (head :: more).reverse := by
      cases hreverse : (head :: more).reverse with
      | nil => rfl
      | cons last others =>
        have hlast := htrimmed.last last (by
          rw [← List.head?_reverse, hreverse, List.head?_cons]
          rfl)
        rw [List.dropWhile_cons_of_neg (by simp [hlast])]
    rw [stripped, List.dropWhile_append_of_pos hlead, List.cons_append,
      List.dropWhile_cons_of_neg (by simp [hhead]), rstrip, ← List.cons_append,
      List.reverse_append, List.dropWhile_append_of_pos hback, hlast, List.reverse_reverse]

end DbtCraft.Python
