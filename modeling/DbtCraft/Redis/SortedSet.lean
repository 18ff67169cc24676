/-
# Redis sorted sets

The sorted-set commands a counting semaphore needs. Members are looked at one by
one or counted, never by rank, so a sorted set is its finite set of members with
a score for each; the score of a non-member is junk.
-/

import Mathlib.Data.Finset.Card
import Mathlib.Data.Int.Notation

namespace DbtCraft.Redis

universe uκ

/-- A sorted set: its members and their scores. -/
structure SortedSet (κ : Type uκ) where
  members : Finset κ
  score : κ → ℤ

namespace SortedSet

variable {κ : Type uκ}

def empty : SortedSet κ := ⟨∅, fun _ => 0⟩

/-- `ZCARD`. -/
def card (set : SortedSet κ) : ℕ := set.members.card

/-- `ZREMRANGEBYSCORE key -inf max`. -/
def remRangeByScore (set : SortedSet κ) (max : ℤ) : SortedSet κ :=
  { set with members := set.members.filter fun member => max < set.score member }

@[simp]
theorem members_empty : (empty : SortedSet κ).members = ∅ := rfl

@[simp]
theorem mem_remRangeByScore {set : SortedSet κ} {max : ℤ} {member : κ} :
    member ∈ (set.remRangeByScore max).members ↔
      member ∈ set.members ∧ max < set.score member :=
  Finset.mem_filter

theorem remRangeByScore_subset (set : SortedSet κ) (max : ℤ) :
    (set.remRangeByScore max).members ⊆ set.members :=
  Finset.filter_subset _ _

variable [DecidableEq κ]

/-- `ZADD key score member`: inserts the member or replaces its score. -/
def add (set : SortedSet κ) (member : κ) (score : ℤ) : SortedSet κ where
  members := insert member set.members
  score := Function.update set.score member score

/-- `ZREM key member`. -/
def rem (set : SortedSet κ) (member : κ) : SortedSet κ :=
  { set with members := set.members.erase member }

@[simp]
theorem members_add {set : SortedSet κ} {member : κ} {score : ℤ} :
    (set.add member score).members = insert member set.members := rfl

@[simp]
theorem members_rem {set : SortedSet κ} {member : κ} :
    (set.rem member).members = set.members.erase member := rfl

end SortedSet

end DbtCraft.Redis
