/-
# Bounded holders

The purpose of a lock and of a counting semaphore, stated without either: at
most `capacity` parties hold something at one time. The bound is a field of the
state, so an overfull state cannot be built; a lock is the case of capacity one.

Concrete locks and semaphores are shown to refine this machine, and read their
bound back through `Holders.encard_le_of_subset`. Beside it, how many parties are in phases of one
kind, and what one party's change of phase does to that number.
-/

import DbtCraft.Math.Machine
import Mathlib.Data.Finset.Card
import Mathlib.Data.Set.Card
import Mathlib.Logic.Function.Basic
import Mathlib.Tactic.Common

namespace DbtCraft.Math

universe uι uφ

/-- The parties holding something that `capacity` of them may hold. -/
structure Holders (ι : Type uι) (capacity : ℕ) where
  members : Finset ι
  bounded : members.card ≤ capacity

namespace Holders

variable {ι : Type uι} [DecidableEq ι] {capacity : ℕ}

/-- What a party can do. -/
inductive Move (ι : Type uι)
  | acquire (party : ι)
  | release (party : ι)

/-- Acquiring is refused at capacity and to a party that already holds. -/
def step (state : Holders ι capacity) : Move ι → Option (Holders ι capacity)
  | .acquire party =>
    if hroom : state.members.card < capacity ∧ party ∉ state.members then
      some ⟨insert party state.members, by
        rw [Finset.card_insert_of_notMem hroom.2]
        exact hroom.1⟩
    else none
  | .release party =>
    some ⟨state.members.erase party,
      (Finset.card_le_card (Finset.erase_subset _ _)).trans state.bounded⟩

/-- Nobody holds initially. -/
def machine (ι : Type uι) [DecidableEq ι] (capacity : ℕ) :
    Machine (Holders ι capacity) (Move ι) where
  init := ⟨∅, by simp⟩
  step := step

theorem step_acquire {state : Holders ι capacity} {party : ι}
    (hroom : state.members.card < capacity) (hnew : party ∉ state.members) :
    ∃ next, state.step (.acquire party) = some next ∧
      next.members = insert party state.members := by
  have henabled : state.members.card < capacity ∧ party ∉ state.members := ⟨hroom, hnew⟩
  exact ⟨_, by rw [step, dif_pos henabled], rfl⟩

theorem step_release (state : Holders ι capacity) (party : ι) :
    ∃ next, state.step (.release party) = some next ∧
      next.members = state.members.erase party :=
  ⟨_, rfl, rfl⟩

/-- Any part of the holders can be released. -/
theorem runFrom_release {state : Holders ι capacity} {kept : Finset ι}
    (hkept : kept ⊆ state.members) :
    ∃ moves next, (machine ι capacity).runFrom state moves = some next ∧
      next.members = kept := by
  have hreleased : ∀ (leaving : List ι) (state : Holders ι capacity), ∃ next,
      (machine ι capacity).runFrom state (leaving.map .release) = some next ∧
        next.members = state.members \ leaving.toFinset := by
    intro leaving
    induction leaving with
    | nil =>
      intro state
      exact ⟨state, rfl, by simp⟩
    | cons party rest ih =>
      intro state
      obtain ⟨middle, hmiddle, hmembers⟩ := step_release state party
      obtain ⟨next, hnext, hrest⟩ := ih middle
      refine ⟨next, ?_, ?_⟩
      · rw [List.map_cons, Machine.runFrom]
        show (state.step (.release party)).bind _ = some next
        rw [hmiddle]
        exact hnext
      · rw [hrest, hmembers, List.toFinset_cons, Finset.erase_sdiff_comm,
          ← Finset.sdiff_insert]
  obtain ⟨next, hrun, hmembers⟩ := hreleased (state.members \ kept).toList state
  refine ⟨_, next, hrun, ?_⟩
  rw [hmembers, Finset.toList_toFinset, Finset.sdiff_sdiff_eq_self hkept]

/-- Any part of the holders can be released, and the room taken by a new one. -/
theorem runFrom_release_acquire {state : Holders ι capacity} {kept : Finset ι} {party : ι}
    (hkept : kept ⊆ state.members) (hroom : kept.card < capacity) (hnew : party ∉ kept) :
    ∃ moves next, (machine ι capacity).runFrom state moves = some next ∧
      next.members = insert party kept := by
  obtain ⟨moves, middle, hmoves, hmiddle⟩ := runFrom_release hkept
  rw [← hmiddle] at hroom hnew
  obtain ⟨next, hnext, hmembers⟩ := step_acquire hroom hnew
  refine ⟨moves ++ [Move.acquire party], next, ?_, by rw [hmembers, hmiddle]⟩
  rw [Machine.runFrom_append, hmoves, Option.bind_some, Machine.runFrom]
  show (middle.step (.acquire party)).bind _ = some next
  rw [hnext]
  rfl

omit [DecidableEq ι] in
/-- A set of parties within those that an abstract state holds is within the
capacity. -/
theorem encard_le_of_subset {parties : Set ι} (state : Holders ι capacity)
    (hheld : ∀ party ∈ parties, party ∈ state.members) : parties.encard ≤ capacity := by
  have hsubset : parties ⊆ (state.members : Set ι) := hheld
  refine (Set.encard_le_encard hsubset).trans ?_
  rw [Set.encard_coe_eq_coe_finsetCard]
  exact_mod_cast state.bounded

omit [DecidableEq ι] in
/-- A lock is a set of holders of capacity one. -/
theorem subsingleton_of_iff {parties : Set ι} (state : Holders ι 1)
    (hexact : ∀ party, party ∈ parties ↔ party ∈ state.members) :
    parties.Subsingleton := by
  rw [← Set.encard_le_one_iff_subsingleton]
  exact_mod_cast state.encard_le_of_subset fun party => (hexact party).mp

end Holders

/-! ## Parties in a phase -/

variable {ι : Type uι} {φ : Type uφ}

/-- The number of parties whose phase is of a kind. -/
noncomputable def tally (phase : ι → φ) (kind : φ → Prop) : ℕ∞ := {party | kind (phase party)}.encard

variable [DecidableEq ι] {phase : ι → φ} {kind : φ → Prop} {party : ι} {next : φ}

/-- A change within a kind, or outside it, does not change the number. -/
theorem tally_update_of_iff (hkind : kind next ↔ kind (phase party)) :
    tally (Function.update phase party next) kind = tally phase kind := by
  unfold tally
  congr 1
  ext other
  by_cases hother : other = party
  · subst other
    simpa using hkind
  · simp [hother]

/-- A party that enters a kind raises the number by one. -/
theorem tally_update_of_enter (hbefore : ¬ kind (phase party)) (hafter : kind next) :
    tally (Function.update phase party next) kind = tally phase kind + 1 := by
  have hinsert : {other | kind (Function.update phase party next other)} =
      insert party {other | kind (phase other)} := by
    ext other
    by_cases hother : other = party
    · subst other
      simpa using hafter
    · simp [hother]
  unfold tally
  rw [hinsert]
  exact Set.encard_insert_of_notMem hbefore

/-- A party that leaves a kind lowers the number by one. -/
theorem tally_update_of_leave (hbefore : kind (phase party)) (hafter : ¬ kind next) :
    tally (Function.update phase party next) kind + 1 = tally phase kind := by
  have hraised : tally (Function.update (Function.update phase party next) party (phase party)) kind =
      tally (Function.update phase party next) kind + 1 := by
    apply tally_update_of_enter
    · simpa using hafter
    · exact hbefore
  rw [Function.update_idem, Function.update_eq_self] at hraised
  exact hraised.symm

omit [DecidableEq ι] in
/-- Nobody is in a kind that no phase is of. -/
theorem tally_eq_zero (hnone : ∀ party, ¬ kind (phase party)) : tally phase kind = 0 := by
  unfold tally
  rw [Set.encard_eq_zero]
  exact Set.eq_empty_of_forall_notMem hnone

end DbtCraft.Math
