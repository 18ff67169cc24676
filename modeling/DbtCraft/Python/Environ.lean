/-
# Environments

`os.environ` and the dictionaries of text it is updated from: each name has one value.
What an update leaves is said by lookups, and an environment that is cleared and updated
from a snapshot is the snapshot.
-/

import DbtCraft.Python.Dict
import Mathlib.Data.List.Nodup

namespace DbtCraft.Python

namespace Dict

universe uκ uν

variable {κ : Type uκ} {ν : Type uν} [DecidableEq κ] {dict items : Dict κ ν} {key : κ} {value : ν}

theorem fst_mem_set {first : κ} (hfirst : first ∈ (dict.set key value).map Prod.fst) :
    first = key ∨ first ∈ dict.map Prod.fst := by
  obtain ⟨item, hitem, rfl⟩ := List.mem_map.mp hfirst
  rcases mem_set hitem with hsame | hold
  · exact .inl (congrArg Prod.fst hsame)
  · exact .inr (List.mem_map_of_mem hold)

theorem nodup_set (hdict : (dict.map Prod.fst).Nodup) :
    ((dict.set key value).map Prod.fst).Nodup := by
  induction dict with
  | nil => exact List.nodup_singleton key
  | cons item rest ih =>
    obtain ⟨hitem, hrest⟩ := List.nodup_cons.mp hdict
    rw [set]
    split
    next hkey => exact List.nodup_cons.mpr ⟨hkey ▸ hitem, hrest⟩
    next hkey =>
      apply List.nodup_cons.mpr
      apply And.intro
      · intro hfirst
        rcases fst_mem_set hfirst with hsame | hold
        · exact hkey hsame
        · exact hitem hold
      · exact ih hrest

theorem nodup_foldl_set (hdict : (dict.map Prod.fst).Nodup) :
    ((items.foldl (fun dict item => dict.set item.1 item.2) dict).map Prod.fst).Nodup := by
  induction items generalizing dict with
  | nil => exact hdict
  | cons item rest ih => exact ih (nodup_set hdict)

theorem set_of_not_mem (hkey : key ∉ dict.map Prod.fst) :
    dict.set key value = dict ++ [(key, value)] := by
  induction dict with
  | nil => rfl
  | cons item rest ih =>
    rw [List.map_cons, List.mem_cons, not_or] at hkey
    rw [set, if_neg (Ne.symm hkey.1), ih hkey.2, List.cons_append]

/-- Distinct new keys are put at the end, one after the other. -/
theorem foldl_set_of_nodup (hnodup : ((dict ++ items).map Prod.fst).Nodup) :
    items.foldl (fun dict item => dict.set item.1 item.2) dict = dict ++ items := by
  induction items generalizing dict with
  | nil => exact (List.append_nil dict).symm
  | cons item rest ih =>
    have hsplit : dict ++ item :: rest = (dict ++ [item]) ++ rest := by simp
    have hkey : item.1 ∉ dict.map Prod.fst := by
      rw [List.map_append] at hnodup
      exact fun hmem => (List.nodup_append.mp hnodup).2.2 _ hmem _ List.mem_cons_self rfl
    rw [List.foldl_cons, set_of_not_mem hkey, hsplit]
    exact ih (hsplit ▸ hnodup)

theorem mem_of_mem_foldl_set {item : κ × ν}
    (hitem : item ∈ items.foldl (fun dict item => dict.set item.1 item.2) dict) :
    item ∈ items ∨ item ∈ dict := by
  induction items generalizing dict with
  | nil => exact .inr hitem
  | cons first rest ih =>
    rcases ih hitem with hrest | hset
    · exact .inl (List.mem_cons_of_mem _ hrest)
    · rcases mem_set hset with hfirst | hold
      · exact .inl (hfirst ▸ List.mem_cons_self)
      · exact .inr hold

/-- Where the keys are distinct, an item is what its key is mapped to. -/
theorem get_of_mem (hdict : (dict.map Prod.fst).Nodup) (hitem : (key, value) ∈ dict) :
    dict.get key = some value := by
  induction dict with
  | nil => cases hitem
  | cons item rest ih =>
    obtain ⟨hfirst, hrest⟩ := List.nodup_cons.mp hdict
    rcases List.mem_cons.mp hitem with hsame | hmem
    · rw [← hsame, get, if_pos rfl]
    · have hkey : item.1 ≠ key := fun hkey => hfirst (hkey ▸ List.mem_map_of_mem hmem)
      rw [get, if_neg hkey, ih hrest hmem]

end Dict

/-- An environment, in the order of its names. -/
@[ext]
structure Environ where
  vars : Dict String String
  nodup : (vars.map Prod.fst).Nodup

namespace Environ

variable {env other : Environ} {name value : String}

/-- `os.environ.clear()`. -/
def empty : Environ := ⟨[], List.nodup_nil⟩

/-- `env.get(name)`. -/
def get (env : Environ) (name : String) : Option String := Dict.get env.vars name

/-- `env[name] = value`. -/
def set (env : Environ) (name value : String) : Environ :=
  ⟨env.vars.set name value, Dict.nodup_set env.nodup⟩

/-- `env.update(other)`, and `{**env, **other}`. -/
def update (env other : Environ) : Environ :=
  ⟨other.vars.foldl (fun vars item => vars.set item.1 item.2) env.vars,
    Dict.nodup_foldl_set env.nodup⟩

@[simp]
theorem get_empty : empty.get name = none := rfl

@[simp]
theorem get_set {first : String} :
    (env.set first value).get name = if name = first then some value else env.get name :=
  Dict.get_set

@[simp]
theorem get_update : (env.update other).get name = (other.get name).or (env.get name) :=
  Dict.get_foldl_set_of_nodup other.nodup

/-- A cleared environment that is updated is what it is updated from. -/
@[simp]
theorem empty_update : empty.update env = env :=
  Environ.ext (@Dict.foldl_set_of_nodup _ _ _ [] env.vars env.nodup)

theorem get_eq_some_iff : env.get name = some value ↔ (name, value) ∈ env.vars :=
  ⟨Dict.mem_of_get, Dict.get_of_mem env.nodup⟩

theorem mem_of_mem_update {item : String × String} (hitem : item ∈ (env.update other).vars) :
    item ∈ other.vars ∨ item ∈ env.vars :=
  Dict.mem_of_mem_foldl_set hitem

end Environ

end DbtCraft.Python
