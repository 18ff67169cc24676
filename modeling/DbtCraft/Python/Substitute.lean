/-
# Substitution

`pattern.sub(replacement, text)`, for a pattern that is given by what it finds at the beginning
of a text: how many items and what stands for them. It never finds the empty text. A relation
between neighbours survives where every replacement fits between any two items.
-/

import Mathlib.Data.List.Basic
import Mathlib.Data.List.Chain
import Mathlib.Tactic.Common

namespace DbtCraft.Python.Substitute

universe uα

variable {α : Type uα}

/-- Substitute what is found, after so many items that are already replaced. -/
def substituteFrom (find : List α → Option (ℕ × List α)) : ℕ → List α → List α
  | _, [] => []
  | skip + 1, _ :: rest => substituteFrom find skip rest
  | 0, item :: rest =>
    match find (item :: rest) with
    | some (length, replacement) => replacement ++ substituteFrom find (length - 1) rest
    | none => item :: substituteFrom find 0 rest

/-- Substitute what is found, from left to right. -/
def substitute (find : List α → Option (ℕ × List α)) (text : List α) : List α :=
  substituteFrom find 0 text

variable {find : List α → Option (ℕ × List α)} {item : α} {text rest replacement : List α}
  {length : ℕ}

@[simp] theorem substitute_nil : substitute find [] = [] := rfl

theorem substituteFrom_eq_substitute_drop (skip : ℕ) (text : List α) :
    substituteFrom find skip text = substitute find (text.drop skip) := by
  induction text generalizing skip with
  | nil => cases skip <;> rfl
  | cons item rest ih =>
    cases skip with
    | zero => rfl
    | succ skip => exact ih skip

/-- An item where nothing is found stays. -/
theorem substitute_cons (hnone : find (item :: rest) = none) :
    substitute find (item :: rest) = item :: substitute find rest := by
  rw [substitute, substituteFrom, hnone, ← substitute]

/-- What is found is replaced, and the search goes on behind it. -/
theorem substitute_found (hfound : find text = some (length + 1, replacement)) (htext : text ≠ []) :
    substitute find text = replacement ++ substitute find (text.drop (length + 1)) := by
  cases text with
  | nil => exact absurd rfl htext
  | cons item rest =>
    rw [substitute, substituteFrom, hfound]
    dsimp only
    rw [substituteFrom_eq_substitute_drop, List.drop_succ_cons, Nat.add_sub_cancel]

/-- A beginning in which nothing is found stays. -/
theorem substitute_append
    (hnone : ∀ before after, text = before ++ after → after ≠ [] → find (after ++ rest) = none) :
    substitute find (text ++ rest) = text ++ substitute find rest := by
  induction text with
  | nil => rfl
  | cons item text ih =>
    have hitem : find (item :: (text ++ rest)) = none :=
      hnone [] (item :: text) rfl (List.cons_ne_nil item text)
    have htext := ih fun before after hsplit =>
      hnone (item :: before) after (by rw [hsplit, List.cons_append])
    rw [List.cons_append, substitute_cons hitem, htext, List.cons_append]

/-- What is found is not empty and stands within the text. -/
def Bounded (find : List α → Option (ℕ × List α)) : Prop :=
  ∀ text length replacement, find text = some (length, replacement) →
    0 < length ∧ length ≤ text.length

/-- What is found in a text does not depend on what follows it. -/
theorem substitute_append_rest (hbounded : Bounded find)
    (hfind : ∀ before after, text = before ++ after → after ≠ [] →
      find (after ++ rest) = find after) :
    substitute find (text ++ rest) = substitute find text ++ substitute find rest := by
  induction hsize : text.length using Nat.strong_induction_on generalizing text with
  | _ size ih =>
    subst hsize
    cases text with
    | nil => rfl
    | cons item text =>
      have hhead := hfind [] (item :: text) rfl (List.cons_ne_nil item text)
      cases hfound : find (item :: text) with
      | none =>
        have hlater := ih text.length (Nat.lt_succ_self _) (fun before after hsplit =>
          hfind (item :: before) after (by rw [hsplit, List.cons_append])) rfl
        have hnone : find (item :: (text ++ rest)) = none := hhead.trans hfound
        rw [substitute_cons hfound, List.cons_append, substitute_cons hnone, hlater,
          List.cons_append]
      | some found =>
        obtain ⟨length, replacement⟩ := found
        obtain ⟨hpos, hle⟩ := hbounded _ _ _ hfound
        obtain ⟨length, rfl⟩ := Nat.exists_eq_succ_of_ne_zero (Nat.ne_of_gt hpos)
        have hshorter : ((item :: text).drop (length + 1)).length < (item :: text).length := by
          rw [List.length_drop, List.length_cons]
          omega
        have hlater := ih _ hshorter (fun before after hsplit =>
          hfind ((item :: text).take (length + 1) ++ before) after (by
            rw [List.append_assoc, ← hsplit, List.take_append_drop])) rfl
        rw [substitute_found hfound (List.cons_ne_nil _ _),
          substitute_found (hhead.trans hfound) (List.cons_ne_nil _ _),
          List.drop_append_of_le_length hle, hlater, List.append_assoc]

/-! ## Neighbours -/

variable {R : α → α → Prop}

/-- What replaces a part of a chain fits between any two items. -/
def Fits (R : α → α → Prop) (find : List α → Option (ℕ × List α)) : Prop :=
  ∀ text length replacement, text.IsChain R → find text = some (length, replacement) →
    replacement ≠ [] ∧ replacement.IsChain R ∧
      (∀ first ∈ replacement.head?, ∀ item, R item first) ∧
      ∀ last ∈ replacement.getLast?, ∀ item, R last item

/-- A chain begins after substitution with an item that fits where it began before. -/
theorem Fits.head (hfits : Fits R find) (hbounded : Bounded find) (htext : text.IsChain R)
    (hhead : ∀ first ∈ text.head?, R item first) :
    ∀ first ∈ (substitute find text).head?, R item first := by
  cases text with
  | nil => exact fun first hfirst => absurd hfirst (Option.not_mem_none first)
  | cons start rest =>
    cases hfound : find (start :: rest) with
    | none =>
      rw [substitute_cons hfound]
      exact hhead
    | some found =>
      obtain ⟨length, replacement⟩ := found
      obtain ⟨hpos, -⟩ := hbounded _ _ _ hfound
      obtain ⟨length, rfl⟩ := Nat.exists_eq_succ_of_ne_zero (Nat.ne_of_gt hpos)
      obtain ⟨hne, -, hfirst, -⟩ := hfits _ _ _ htext hfound
      intro first hmem
      rw [substitute_found hfound (List.cons_ne_nil _ _),
        List.head?_append_of_ne_nil _ hne] at hmem
      exact hfirst first hmem item

/-- **A chain stays one.** -/
theorem Fits.substitute (hfits : Fits R find) (hbounded : Bounded find)
    (htext : text.IsChain R) : (substitute find text).IsChain R := by
  induction hsize : text.length using Nat.strong_induction_on generalizing text with
  | _ size ih =>
    subst hsize
    cases text with
    | nil => exact htext
    | cons start rest =>
      cases hfound : find (start :: rest) with
      | none =>
        obtain ⟨hstart, hrest⟩ := List.isChain_cons.mp htext
        rw [substitute_cons hfound]
        exact (ih rest.length (Nat.lt_succ_self _) hrest rfl).cons
          (hfits.head hbounded hrest hstart)
      | some found =>
        obtain ⟨length, replacement⟩ := found
        obtain ⟨hpos, -⟩ := hbounded _ _ _ hfound
        obtain ⟨length, rfl⟩ := Nat.exists_eq_succ_of_ne_zero (Nat.ne_of_gt hpos)
        obtain ⟨-, hreplacement, -, hlast⟩ := hfits _ _ _ htext hfound
        have hshorter :
            ((start :: rest).drop (length + 1)).length < (start :: rest).length := by
          rw [List.length_drop, List.length_cons]
          omega
        have hlater := ih _ hshorter (htext.drop (length + 1)) rfl
        rw [substitute_found hfound (List.cons_ne_nil _ _)]
        exact hreplacement.append hlater fun last hmem item _ => hlast last hmem item

end DbtCraft.Python.Substitute
