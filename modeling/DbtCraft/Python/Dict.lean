/-
# Dictionaries

The part of `dict` that registries use: look a key up, assign it, pop it, walk
the items in insertion order, take the length.
-/

import Mathlib.Data.List.Basic
import Mathlib.Tactic.Common

namespace DbtCraft.Python

universe uα uκ uν

/-- The items of a `dict` in insertion order. -/
abbrev Dict (κ : Type uκ) (ν : Type uν) := List (κ × ν)

namespace Dict

variable {κ : Type uκ} {ν : Type uν} [DecidableEq κ]

/-- `d.get(key)`. -/
def get : Dict κ ν → κ → Option ν
  | [], _ => none
  | (first, value) :: rest, key => if first = key then some value else get rest key

/-- `d[key] = value`: an existing key keeps its place. -/
def set : Dict κ ν → κ → ν → Dict κ ν
  | [], key, value => [(key, value)]
  | (first, old) :: rest, key, value =>
    if first = key then (key, value) :: rest else (first, old) :: set rest key value

/-- `d.pop(key, None)`, without its result. -/
def pop (dict : Dict κ ν) (key : κ) : Dict κ ν := dict.filter fun item => item.1 ≠ key

variable {dict : Dict κ ν} {key other : κ} {value : ν}

@[simp]
theorem get_nil : get ([] : Dict κ ν) key = none := rfl

@[simp]
theorem get_set :
    (dict.set key value).get other = if other = key then some value else dict.get other := by
  induction dict with
  | nil => simp [set, get, eq_comm]
  | cons item rest ih =>
    by_cases hkey : item.1 = key
    · by_cases hother : other = key
      · simp [set, get, hkey, hother]
      · simp [set, get, hkey, hother, Ne.symm hother]
    · by_cases hfirst : item.1 = other
      · have hother : other ≠ key := fun h => hkey (hfirst.trans h)
        simp [set, get, hfirst, hother]
      · simpa [set, get, hkey, hfirst] using ih

theorem get_filter (keep : κ → Bool) :
    get (dict.filter fun item => keep item.1) key = if keep key then dict.get key else none := by
  induction dict with
  | nil => simp
  | cons item rest ih =>
    by_cases hitem : keep item.1 = true
    · by_cases hfirst : item.1 = key
      · simp [get, ← hfirst, hitem]
      · simpa [get, hitem, hfirst] using ih
    · by_cases hfirst : item.1 = key
      · rw [List.filter_cons, if_neg hitem, ih, ← hfirst, if_neg hitem, if_neg hitem]
      · simpa [get, hitem, hfirst] using ih

@[simp]
theorem get_pop : (dict.pop key).get other = if other = key then none else dict.get other := by
  unfold pop
  rw [get_filter fun first => decide (first ≠ key)]
  by_cases hother : other = key
  · simp [hother]
  · simp [hother]

/-- What a key is mapped to is an item. -/
theorem mem_of_get (hget : dict.get key = some value) : (key, value) ∈ dict := by
  induction dict with
  | nil => cases hget
  | cons item rest ih =>
    obtain ⟨first, old⟩ := item
    by_cases hfirst : first = key
    · simp only [get, if_pos hfirst, Option.some.injEq] at hget
      simp [hfirst, hget]
    · simp only [get, if_neg hfirst] at hget
      exact List.mem_cons_of_mem _ (ih hget)

/-- An assignment adds one item at most. -/
theorem mem_set {item : κ × ν} (hitem : item ∈ dict.set key value) :
    item = (key, value) ∨ item ∈ dict := by
  induction dict with
  | nil => exact Or.inl (List.mem_singleton.mp hitem)
  | cons first rest ih =>
    simp only [set] at hitem
    split at hitem
    · exact (List.mem_cons.mp hitem).imp_right (List.mem_cons_of_mem _)
    · rcases List.mem_cons.mp hitem with hfirst | hrest
      · exact Or.inr (hfirst ▸ List.mem_cons_self)
      · exact (ih hrest).imp_right (List.mem_cons_of_mem _)

/-- After an assignment a test on the keys also sees the key that is assigned. -/
theorem any_set (test : κ → Bool) :
    (dict.set key value).any (fun item => test item.1) =
      (test key || dict.any fun item => test item.1) := by
  induction dict with
  | nil => rfl
  | cons first rest ih =>
    rw [set]
    split
    next hfirst => rw [List.any_cons, List.any_cons, ← hfirst, Bool.or_self_left]
    · rw [List.any_cons, ih, List.any_cons, Bool.or_left_comm]

section

variable {α : Type uα} {items : List α} {name : α → κ} {content : α → ν}

/-- What a key has after many assignments is one of them, or what it had before. -/
theorem eq_of_get_foldl_set
    (hget : (items.foldl (fun dict item => dict.set (name item) (content item)) dict).get key =
      some value) :
    (∃ item ∈ items, name item = key ∧ content item = value) ∨ dict.get key = some value := by
  induction items generalizing dict with
  | nil => exact Or.inr hget
  | cons first rest ih =>
    rcases ih hget with ⟨item, hitem, hsame⟩ | hbefore
    · exact Or.inl ⟨item, List.mem_cons_of_mem _ hitem, hsame⟩
    · rw [get_set] at hbefore
      split at hbefore
      next hkey =>
        exact Or.inl ⟨first, List.mem_cons_self, hkey.symm, Option.some_inj.mp hbefore⟩
      · exact Or.inr hbefore

/-- A key that has been assigned is there. -/
theorem get_foldl_set_ne_none_iff :
    (items.foldl (fun dict item => dict.set (name item) (content item)) dict).get key ≠ none ↔
      (∃ item ∈ items, name item = key) ∨ dict.get key ≠ none := by
  induction items generalizing dict with
  | nil => simp
  | cons first rest ih =>
    rw [List.foldl_cons, ih, get_set]
    split
    next hkey => simp [hkey]
    next hkey => simp [Ne.symm hkey]

end

theorem get_of_not_mem {dict : Dict κ ν} (hkey : key ∉ dict.map Prod.fst) :
    dict.get key = none := by
  induction dict with
  | nil => rfl
  | cons item rest ih =>
    have hfirst : item.1 ≠ key := fun hfirst => hkey (hfirst ▸ List.mem_cons_self)
    rw [get, if_neg hfirst]
    exact ih fun hrest => hkey (List.mem_cons_of_mem _ hrest)

/-- A dictionary that is assigned item by item answers as the one it is assigned from. -/
theorem get_foldl_set_of_nodup {items : Dict κ ν} (hitems : (items.map Prod.fst).Nodup) :
    (items.foldl (fun dict item => dict.set item.1 item.2) dict).get key =
      (items.get key).or (dict.get key) := by
  induction items generalizing dict with
  | nil => rfl
  | cons first rest ih =>
    obtain ⟨hfirst, hrest⟩ := List.nodup_cons.mp hitems
    rw [List.foldl_cons, ih hrest, get_set, get]
    by_cases hkey : key = first.1
    · rw [if_pos hkey, if_pos hkey.symm, hkey, get_of_not_mem hfirst]
      rfl
    · rw [if_neg hkey, if_neg (Ne.symm hkey)]

theorem mem_of_mem_pop {item : κ × ν} (hitem : item ∈ dict.pop key) : item ∈ dict :=
  List.mem_of_mem_filter hitem

end Dict

end DbtCraft.Python
