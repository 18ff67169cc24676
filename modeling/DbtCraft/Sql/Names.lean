/-
# Names in SQL

Names that are chosen by a `LIKE` pattern without an escape character, and names that stand
in a statement between double quotes, where a doubled quote is one of the name. A name that
is put between quotes as it is stands for itself unless it has a quote of its own.
-/

import Mathlib.Data.List.Forall2
import Mathlib.Data.List.Infix
import Mathlib.Tactic.Common

namespace DbtCraft.Sql.Names

/-! ## Patterns -/

/-- `text LIKE pattern`: `%` stands for any letters, `_` for any one letter. -/
def like : List Char → List Char → Bool
  | [], text => text.isEmpty
  | '%' :: pattern, text => text.tails.any (like pattern)
  | '_' :: pattern, _ :: text => like pattern text
  | c :: pattern, d :: text => c = d && like pattern text
  | _ :: _, [] => false

/-- A pattern that begins with `%` is matched by what ends in a match of the rest. -/
theorem like_percent {pattern text : List Char} :
    like ('%' :: pattern) text ↔ ∃ last, last <:+ text ∧ like pattern last := by
  simp [like]

/-- Every text without a `%` matches itself. -/
theorem like_self {text : List Char} (htext : '%' ∉ text) : like text text := by
  induction text with
  | nil => rfl
  | cons c rest ih =>
    rw [List.mem_cons, not_or] at htext
    have hrest := ih htext.2
    unfold like
    split
    next heq => simp_all
    next heq => exact absurd (List.cons.inj heq).1.symm htext.1
    next heq hsame =>
      cases heq
      cases hsame
      exact hrest
    next heq hsame =>
      cases heq
      cases hsame
      simp [hrest]
    next hsame => cases hsame

/-! ## Quoted names -/

/-- A name with its quotes doubled. -/
def doubled (name : List Char) : List Char :=
  name.flatMap fun c => if c = '"' then ['"', '"'] else [c]

/-- Read a name from behind its opening quote, with what stands behind the closing one. -/
def readName : List Char → Option (List Char × List Char)
  | [] => none
  | '"' :: '"' :: rest => (readName rest).map fun read => ('"' :: read.1, read.2)
  | '"' :: rest => some ([], rest)
  | c :: rest => (readName rest).map fun read => (c :: read.1, read.2)

/-- Read two quoted names with a dot between them and nothing behind them. A name is never
empty. -/
def readQualified : List Char → Option (List Char × List Char)
  | '"' :: text =>
    match readName text with
    | some (first, '.' :: '"' :: more) =>
      match readName more with
      | some (second, []) => if first = [] ∨ second = [] then none else some (first, second)
      | _ => none
    | _ => none
  | _ => none

/-- Two names, each between quotes as it is. -/
def qualified (first second : List Char) : List Char :=
  '"' :: (first ++ '"' :: '.' :: '"' :: (second ++ ['"']))

variable {name text rest other first second : List Char}

theorem readName_of_not_mem (hname : '"' ∉ name) (hrest : rest.head? ≠ some '"') :
    readName (name ++ '"' :: rest) = some (name, rest) := by
  induction name with
  | nil =>
    rw [List.nil_append]
    match rest with
    | [] => rfl
    | c :: more =>
      have hc : c ≠ '"' := fun hc => hrest (by rw [hc]; rfl)
      unfold readName
      split
      next heq => cases heq
      next heq => exact absurd (List.cons.inj (List.cons.inj heq).2).1 hc
      next heq => rw [← (List.cons.inj heq).2]
      next hquote heq => exact absurd (List.cons.inj heq).1.symm hquote
  | cons c more ih =>
    rw [List.mem_cons, not_or] at hname
    rw [List.cons_append, readName, ih hname.2]
    · rfl
    · exact fun _ hc => absurd hc.symm hname.1
    · exact fun hc => absurd hc.symm hname.1

/-- What has been read is what stood there with its quotes doubled. -/
theorem eq_of_readName (hread : readName text = some (name, rest)) :
    text = doubled name ++ '"' :: rest := by
  induction text using readName.induct generalizing name with
  | case1 => cases hread
  | case2 more ih =>
    simp only [readName, Option.map_eq_some_iff, Prod.mk.injEq] at hread
    obtain ⟨⟨tail, last⟩, htail, rfl, rfl⟩ := hread
    rw [ih htail]
    rfl
  | case3 more hnone =>
    rw [readName] at hread
    · cases hread
      rfl
    · exact hnone
  | case4 c more hnone hquote ih =>
    rw [readName] at hread
    · obtain ⟨⟨tail, last⟩, htail, hsame⟩ := Option.map_eq_some_iff.mp hread
      cases hsame
      rw [ih htail]
      simp [doubled, show c ≠ '"' from hquote]
    · exact hnone
    · exact hquote

/-- Quotes in front of a name cannot be read as part of it. -/
theorem doubled_ne (count : ℕ) (hother : other.head? ≠ some '"') :
    List.replicate (count + 1) '"' ++ (doubled name ++ '"' :: rest) ≠ name ++ '"' :: other := by
  induction name generalizing count with
  | nil =>
    intro heq
    rw [List.replicate_succ, List.nil_append, List.cons_append, List.cons_inj_right] at heq
    apply hother
    rw [← heq]
    cases count <;> rfl
  | cons c more ih =>
    intro heq
    rw [List.replicate_succ, List.cons_append, List.cons_append, List.cons.injEq] at heq
    obtain ⟨hc, heq⟩ := heq
    subst hc
    apply ih (count + 1)
    rw [← heq, show doubled ('"' :: more) = ['"', '"'] ++ doubled more from rfl,
      show count + 1 + 1 = count + 2 from rfl, List.replicate_add]
    simp

/-- A name whose quotes read as doubled has none. -/
theorem not_mem_of_doubled_eq (hother : other.head? ≠ some '"')
    (heq : doubled name ++ '"' :: rest = name ++ '"' :: other) : '"' ∉ name := by
  induction name with
  | nil => exact List.not_mem_nil
  | cons c more ih =>
    by_cases hc : c = '"'
    · subst hc
      exfalso
      have htail : List.replicate (0 + 1) '"' ++ (doubled more ++ '"' :: rest) =
          more ++ '"' :: other := by simpa [doubled] using congrArg List.tail heq
      exact doubled_ne 0 hother htail
    · rw [List.mem_cons, not_or]
      refine ⟨Ne.symm hc, ih ?_⟩
      simpa [doubled, hc] using heq

/-- What is read as two names consists of them, one behind the other. -/
theorem readName_of_readQualified (hread : readQualified ('"' :: text) = some (first, second)) :
    ∃ more, readName text = some (first, '.' :: '"' :: more) ∧
      readName more = some (second, []) := by
  simp only [readQualified] at hread
  split at hread
  next own more hown =>
    split at hread
    next last hlast =>
      split_ifs at hread
      cases hread
      exact ⟨more, hown, hlast⟩
    · cases hread
  · cases hread

/-- Two names between quotes are read back if neither has a quote of its own, and only
then. -/
theorem readQualified_qualified_iff (hfirst : first ≠ []) (hsecond : second ≠ []) :
    readQualified (qualified first second) = some (first, second) ↔
      '"' ∉ first ∧ '"' ∉ second := by
  unfold qualified
  apply Iff.intro
  · intro hread
    obtain ⟨more, hown, hlast⟩ := readName_of_readQualified hread
    have hfree := not_mem_of_doubled_eq (by simp) (eq_of_readName hown).symm
    rw [readName_of_not_mem hfree (by simp)] at hown
    cases hown
    have hlast : doubled second ++ '"' :: [] = second ++ '"' :: [] :=
      (eq_of_readName hlast).symm
    exact ⟨hfree, not_mem_of_doubled_eq (by simp) hlast⟩
  · rintro ⟨hleft, hright⟩
    have hown : readName (first ++ '"' :: '.' :: '"' :: (second ++ ['"'])) =
        some (first, '.' :: '"' :: (second ++ ['"'])) := readName_of_not_mem hleft (by simp)
    have hlast : readName (second ++ ['"']) = some (second, []) :=
      readName_of_not_mem hright (by simp)
    simp only [readQualified, hown, hlast, hfirst, hsecond, or_self, if_false]

end DbtCraft.Sql.Names
