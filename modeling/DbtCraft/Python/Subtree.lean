/-
# Trees of a disk

The entries at and below a location of a disk, by the way that leads from it: a tree is
taken off the disk as a whole or in part, and put down elsewhere.
-/

import DbtCraft.Python.Disk

namespace DbtCraft.Python

universe uα

/-- The way from a location to one at or below it. -/
def wayTo (root location : Location) : Option Location :=
  if root.isPrefixOf location then some (location.drop root.length) else none

@[simp]
theorem wayTo_append (root way : Location) : wayTo root (root ++ way) = some way := by
  unfold wayTo
  rw [if_pos (List.isPrefixOf_iff_prefix.mpr (List.prefix_append root way)), List.drop_left]

theorem eq_append_of_wayTo {root location way : Location} (hway : wayTo root location = some way) :
    location = root ++ way := by
  unfold wayTo at hway
  split at hway
  next hprefix =>
    obtain ⟨rest, rfl⟩ := List.isPrefixOf_iff_prefix.mp hprefix
    rw [List.drop_left] at hway
    rw [Option.some_inj.mp hway]
  · cases hway

/-- Entries by their location. -/
abbrev Entries (α : Type uα) := Dict Location α

namespace Entries

variable {α : Type uα} {root other : Location} {entries added : Entries α} {keep : Location → Bool}

/-- The entries at and below a location, by the way from it. -/
def below (root : Location) (entries : Entries α) : Entries α :=
  entries.filterMap fun entry => (wayTo root entry.1).map fun way => (way, entry.2)

/-- The entries that are kept below a location, and those elsewhere. -/
def prune (root : Location) (keep : Location → Bool) (entries : Entries α) : Entries α :=
  entries.filter fun entry => ((wayTo root entry.1).map keep).getD true

/-- Entries are put below a location. -/
def place (root : Location) (added entries : Entries α) : Entries α :=
  entries ++ added.map fun entry => (root ++ entry.1, entry.2)

theorem below_prune :
    below root (prune root keep entries) = (below root entries).filter fun entry => keep entry.1 := by
  induction entries with
  | nil => rfl
  | cons entry rest ih =>
    unfold prune below at ih ⊢
    cases hway : wayTo root entry.1 with
    | none => simp [hway, ih]
    | some way => cases hkeep : keep way <;> simp [hway, hkeep, ih]

theorem below_place : below root (place root added entries) = below root entries ++ added := by
  unfold below place
  rw [List.filterMap_append, List.filterMap_map]
  congr 1
  induction added with
  | nil => rfl
  | cons entry rest ih => simp

/-- What is put elsewhere is not below the location. -/
theorem below_place_apart (hapart : ∀ way, wayTo root (other ++ way) = none) :
    below root (place other added entries) = below root entries := by
  unfold below place
  rw [List.filterMap_append, List.filterMap_map]
  have hnone : added.filterMap ((fun entry : Location × α =>
      (wayTo root entry.1).map fun way => (way, entry.2)) ∘
        fun entry => (other ++ entry.1, entry.2)) = [] := by
    rw [List.filterMap_eq_nil_iff]
    intro entry _
    rw [Function.comp_apply, hapart]
    rfl
  rw [hnone, List.append_nil]

theorem below_set {way : Location} {value : α} :
    below root (Dict.set entries (root ++ way) value) = Dict.set (below root entries) way value := by
  induction entries with
  | nil => simp [below, Dict.set]
  | cons entry rest ih =>
    unfold below at ih ⊢
    by_cases hentry : entry.1 = root ++ way
    · simp [Dict.set, hentry]
    · rw [Dict.set, if_neg hentry]
      cases hway : wayTo root entry.1 with
      | none => simpa [hway] using ih
      | some own =>
        have hown : own ≠ way := by
          rintro rfl
          exact hentry (eq_append_of_wayTo hway)
        simpa [hway, Dict.set, hown] using ih

end Entries

/-- A directory with what lies below it, by the way from it: the empty way is the directory
itself. -/
structure Tree where
  nodes : Entries Node
  links : Entries Path
  deriving DecidableEq

namespace Tree

/-- Nothing is there. -/
def empty : Tree := ⟨[], []⟩

/-- The entries that are kept. -/
def filter (tree : Tree) (keep : Location → Bool) : Tree where
  nodes := tree.nodes.filter fun entry => keep entry.1
  links := tree.links.filter fun entry => keep entry.1

/-- A file is written. -/
def setFile (tree : Tree) (way : Location) (bytes : ByteArray) : Tree :=
  { tree with nodes := tree.nodes.set way (.file bytes) }

end Tree

namespace Disk

variable {disk : Disk} {root other : Location} {tree : Tree} {keep : Location → Bool}

/-- What is at and below a location. -/
def treeAt (disk : Disk) (root : Location) : Tree where
  nodes := Entries.below root disk.nodes
  links := Entries.below root disk.links

/-- Entries at and below a location are removed. -/
def prune (disk : Disk) (root : Location) (keep : Location → Bool) : Disk :=
  { disk with
    nodes := Entries.prune root keep disk.nodes
    links := Entries.prune root keep disk.links }

/-- A tree is put down. -/
def place (disk : Disk) (root : Location) (tree : Tree) : Disk :=
  { disk with
    nodes := Entries.place root tree.nodes disk.nodes
    links := Entries.place root tree.links disk.links }

/-- A file is written. -/
def setFile (disk : Disk) (location : Location) (bytes : ByteArray) : Disk :=
  { disk with nodes := disk.nodes.set location (.file bytes) }

theorem treeAt_prune : (disk.prune root keep).treeAt root = (disk.treeAt root).filter keep :=
  congrArg₂ Tree.mk Entries.below_prune Entries.below_prune

/-- Nothing is left where everything has been removed. -/
theorem treeAt_prune_all : (disk.prune root fun _ => false).treeAt root = Tree.empty := by
  rw [treeAt_prune]
  unfold Tree.filter Tree.empty
  rw [List.filter_false, List.filter_false]

/-- A tree is there where it has been put down, if nothing was before. -/
theorem treeAt_place (hempty : disk.treeAt root = Tree.empty) :
    (disk.place root tree).treeAt root = tree := by
  have hnodes : Entries.below root disk.nodes = [] := congrArg Tree.nodes hempty
  have hlinks : Entries.below root disk.links = [] := congrArg Tree.links hempty
  unfold treeAt place
  dsimp only
  rw [Entries.below_place, Entries.below_place, hnodes, hlinks, List.nil_append, List.nil_append]

theorem treeAt_place_apart (hapart : ∀ way, wayTo root (other ++ way) = none) :
    (disk.place other tree).treeAt root = disk.treeAt root :=
  congrArg₂ Tree.mk (Entries.below_place_apart hapart) (Entries.below_place_apart hapart)

theorem treeAt_setFile {way : Location} {bytes : ByteArray} :
    (disk.setFile (root ++ way) bytes).treeAt root = (disk.treeAt root).setFile way bytes := by
  unfold treeAt setFile Tree.setFile
  dsimp only
  rw [Entries.below_set]

end Disk

end DbtCraft.Python
