/-
# Joined lines

`"\n".join(lines)` on the characters of the lines, with the length of the text and what
the text keeps of a part of the lines.
-/

import Mathlib.Algebra.GroupWithZero.Nat
import Mathlib.Data.List.Infix
import Mathlib.Tactic.Common

namespace DbtCraft.Python

/-- `"\n".join(lines)`. -/
def joinLines (lines : List (List Char)) : List Char := ['\n'].intercalate lines

variable {line : List Char} {own other lines rest : List (List Char)}

@[simp] theorem joinLines_nil : joinLines [] = [] := rfl

@[simp] theorem joinLines_singleton : joinLines [line] = line := by
  simp [joinLines]

theorem joinLines_cons (hrest : rest ≠ []) :
    joinLines (line :: rest) = line ++ '\n' :: joinLines rest := by
  cases rest with
  | nil => exact absurd rfl hrest
  | cons next others => simp [joinLines, List.intercalate_cons_cons]

/-- The characters of the lines, each with the line feed behind it. -/
def lineChars (lines : List (List Char)) : ℕ := (lines.map fun line => line.length + 1).sum

@[simp] theorem lineChars_nil : lineChars [] = 0 := rfl

@[simp] theorem lineChars_cons : lineChars (line :: rest) = line.length + 1 + lineChars rest := by
  simp [lineChars]

/-- Behind the last line there is no line feed. -/
theorem length_joinLines (hlines : lines ≠ []) :
    (joinLines lines).length + 1 = lineChars lines := by
  induction lines with
  | nil => exact absurd rfl hlines
  | cons line rest ih =>
    cases rest with
    | nil => simp
    | cons next others =>
      rw [joinLines_cons (List.cons_ne_nil _ _), lineChars_cons,
        ← ih (List.cons_ne_nil _ _), List.length_append, List.length_cons]
      omega

theorem length_joinLines_le (lines : List (List Char)) :
    (joinLines lines).length ≤ lineChars lines := by
  cases lines with
  | nil => simp
  | cons line rest =>
    have hlength := length_joinLines (List.cons_ne_nil line rest)
    omega

theorem joinLines_append (hown : own ≠ []) (hother : other ≠ []) :
    joinLines (own ++ other) = joinLines own ++ '\n' :: joinLines other := by
  induction own with
  | nil => exact absurd rfl hown
  | cons line rest ih =>
    cases rest with
    | nil => rw [List.singleton_append, joinLines_cons hother, joinLines_singleton]
    | cons next others =>
      have hrest := ih (List.cons_ne_nil _ _)
      rw [List.cons_append, joinLines_cons (by simp), hrest,
        joinLines_cons (List.cons_ne_nil next others), List.append_assoc, List.cons_append]

/-- The first lines are the beginning of the text. -/
theorem joinLines_prefix (hown : own <+: lines) : joinLines own <+: joinLines lines := by
  obtain ⟨other, rfl⟩ := hown
  cases own with
  | nil => exact List.nil_prefix
  | cons line rest =>
    cases other with
    | nil => rw [List.append_nil]
    | cons next others =>
      rw [joinLines_append (List.cons_ne_nil _ _) (List.cons_ne_nil _ _)]
      exact List.prefix_append _ _

end DbtCraft.Python
