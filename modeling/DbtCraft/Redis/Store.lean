/-
# Redis string keys with an expiry

The part of Redis that locks, leases and signal markers rest on: `SET key value
EX ttl`, its `NX` form, `DEL`, `EXISTS`, and the two compare scripts (renew or
delete a key only while it still carries the caller's token). Each operation is
one atomic step of the server, so each is a function on stores.

Time passes on the server one second at a time. A key whose last second passes
is gone.
-/

import Mathlib.Logic.Function.Basic
import Mathlib.Tactic.Common

namespace DbtCraft.Redis

universe uκ uν

/-- A live key: its value and the seconds it has left. -/
structure Entry (ν : Type uν) where
  value : ν
  ttl : ℕ
  deriving DecidableEq

/-- The live keys of a server. -/
abbrev Store (κ : Type uκ) (ν : Type uν) := κ → Option (Entry ν)

namespace Store

variable {κ : Type uκ} {ν : Type uν}

/-- A server without keys. -/
def empty : Store κ ν := fun _ => none

/-- `GET key`. -/
def get (store : Store κ ν) (key : κ) : Option ν := (store key).map Entry.value

@[simp]
theorem get_empty (key : κ) : (empty : Store κ ν).get key = none := rfl

variable [DecidableEq κ]

/-- `SET key value EX ttl`. -/
def setEx (store : Store κ ν) (key : κ) (value : ν) (ttl : ℕ) : Store κ ν :=
  Function.update store key (some ⟨value, ttl⟩)

/-- `SET key value NX EX ttl`; `none` when the key exists. -/
def setNxEx (store : Store κ ν) (key : κ) (value : ν) (ttl : ℕ) : Option (Store κ ν) :=
  match store key with
  | some _ => none
  | none => some (store.setEx key value ttl)

/-- `DEL key`. -/
def del (store : Store κ ν) (key : κ) : Store κ ν := Function.update store key none

/-- `EXPIRE key ttl`, which does nothing without a key. -/
def expire (store : Store κ ν) (key : κ) (ttl : ℕ) : Store κ ν :=
  match store key with
  | some entry => store.setEx key entry.value ttl
  | none => store

/-- `if GET key == token then EXPIRE key ttl`. -/
def expireIf [DecidableEq ν] (store : Store κ ν) (key : κ) (token : ν) (ttl : ℕ) :
    Store κ ν :=
  if store.get key = some token then store.setEx key token ttl else store

/-- `if GET key == token then DEL key`. -/
def delIf [DecidableEq ν] (store : Store κ ν) (key : κ) (token : ν) : Store κ ν :=
  if store.get key = some token then store.del key else store

omit [DecidableEq κ] in
/-- One second passes. -/
def elapse (store : Store κ ν) : Store κ ν := fun key =>
  match store key with
  | some entry => if 1 < entry.ttl then some { entry with ttl := entry.ttl - 1 } else none
  | none => none

variable {store next : Store κ ν} {key other : κ} {value token : ν} {ttl : ℕ}

@[simp]
theorem get_setEx :
    (store.setEx key value ttl).get other =
      if other = key then some value else store.get other := by
  by_cases hkey : other = key
  · subst other
    simp [get, setEx]
  · simp [get, setEx, hkey]

@[simp]
theorem get_del :
    (store.del key).get other = if other = key then none else store.get other := by
  by_cases hkey : other = key
  · subst other
    simp [get, del]
  · simp [get, del, hkey]

theorem setNxEx_eq_some :
    store.setNxEx key value ttl = some next ↔
      store.get key = none ∧ next = store.setEx key value ttl := by
  cases hentry : store key <;> simp [setNxEx, get, hentry, eq_comm]

/-- Renewing never changes who a key belongs to. -/
@[simp]
theorem get_expireIf [DecidableEq ν] :
    (store.expireIf key token ttl).get other = store.get other := by
  by_cases hown : store.get key = some token
  · by_cases hkey : other = key
    · subst other
      simp [expireIf, hown]
    · simp [expireIf, hown, hkey]
  · simp [expireIf, hown]

/-- A compared delete removes the caller's own key and nothing else. -/
@[simp]
theorem get_delIf [DecidableEq ν] :
    (store.delIf key token).get other =
      if other = key ∧ store.get key = some token then none else store.get other := by
  by_cases hown : store.get key = some token
  · simp [delIf, hown]
  · simp [delIf, hown]

/-- A compared delete leaves the keys of other tokens alone. -/
theorem get_delIf_of_ne [DecidableEq ν] (howner : store.get other = some value)
    (hne : value ≠ token) : (store.delIf key token).get other = some value := by
  rw [get_delIf, if_neg]
  · exact howner
  · rintro ⟨rfl, htoken⟩
    exact hne (Option.some.inj (howner.symm.trans htoken))

/-- `SET NX EX`, refused or not, leaves every existing key alone. -/
theorem get_setNxEx_of_some (howner : store.get other = some value) :
    ((store.setNxEx key token ttl).getD store).get other = some value := by
  cases hset : store.setNxEx key token ttl with
  | none => exact howner
  | some next =>
    obtain ⟨hfree, rfl⟩ := setNxEx_eq_some.mp hset
    have hne : other ≠ key := by
      rintro rfl
      rw [howner] at hfree
      cases hfree
    simpa [hne] using howner

omit [DecidableEq κ] in
/-- A second removes a key exactly when it was the key's last. -/
theorem get_elapse :
    store.elapse.get key = none ∨ store.elapse.get key = store.get key := by
  cases hentry : store key with
  | none => simp [get, elapse, hentry]
  | some entry =>
    by_cases hlast : 1 < entry.ttl
    · simp [get, elapse, hentry, hlast]
    · simp [get, elapse, hentry, hlast]

omit [DecidableEq κ] in
theorem get_elapse_of_lt {entry : Entry ν} (hentry : store key = some entry)
    (hlive : 1 < entry.ttl) : store.elapse.get key = store.get key := by
  simp [get, elapse, hentry, hlive]

omit [DecidableEq κ] in
/-- Time never creates a key or changes its value. -/
theorem get_of_get_elapse (helapse : store.elapse.get key = some value) :
    store.get key = some value := by
  have hcases : store.elapse.get key = none ∨ store.elapse.get key = store.get key :=
    get_elapse
  rcases hcases with hgone | hsame
  · rw [hgone] at helapse
    cases helapse
  · rw [← hsame]
    exact helapse

end Store

end DbtCraft.Redis
