/-
# The first free index

A `while` loop that counts up past the indices that are taken. When each of them takes a name
of its own out of a list, so many passes are enough as there are names.
-/

import Mathlib.Data.List.Nodup
import Mathlib.Data.List.Perm.Subperm
import Mathlib.Data.List.Range
import Mathlib.Tactic.Common

namespace DbtCraft.Python

/-- The first index that is not taken, from one on, after so many passes at most. -/
def firstFree (taken : ℕ → Bool) : ℕ → ℕ → ℕ
  | 0, index => index
  | fuel + 1, index => if taken index then firstFree taken fuel (index + 1) else index

universe uκ

variable {κ : Type uκ} {taken : ℕ → Bool} {key : ℕ → κ} {keys : List κ} {fuel start : ℕ}

/-- The loop goes past a taken index only. -/
theorem taken_of_firstFree (htaken : taken (firstFree taken fuel start) = true) :
    ∀ index ∈ List.range' start (fuel + 1), taken index = true := by
  induction fuel generalizing start with
  | zero =>
    intro index hindex
    rw [List.range'_one, List.mem_singleton] at hindex
    rw [hindex]
    exact htaken
  | succ fuel ih =>
    rw [firstFree] at htaken
    split at htaken
    next hstart =>
      rw [List.range'_succ]
      exact List.forall_mem_cons.mpr ⟨hstart, ih htaken⟩
    next hstart => exact absurd htaken hstart

/-- **The index that is found is free.** -/
theorem not_taken_firstFree (hkey : Function.Injective key)
    (hkeys : ∀ index, taken index = true → key index ∈ keys) (hfuel : keys.length ≤ fuel) :
    taken (firstFree taken fuel start) = false := by
  rw [← Bool.not_eq_true]
  intro htaken
  have hall := taken_of_firstFree htaken
  have hnodup : ((List.range' start (fuel + 1)).map key).Nodup :=
    (List.nodup_range' 1).map hkey
  have hsubset : (List.range' start (fuel + 1)).map key ⊆ keys := by
    intro found hfound
    obtain ⟨index, hindex, rfl⟩ := List.mem_map.mp hfound
    exact hkeys index (hall index hindex)
  have hlength := (hnodup.subperm hsubset).length_le
  rw [List.length_map, List.length_range'] at hlength
  omega

end DbtCraft.Python
