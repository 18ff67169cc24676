/-
# Sound disks

A disk on which every entry has a name of its own in a directory that is there, and the walks
on it: a walk goes on from where the first part of its path has led, and one that has left
the directories does not come back to an entry.
-/

import Mathlib.Data.List.Nodup
import DbtCraft.Python.Containment

namespace DbtCraft.Python

namespace Dict

universe uκ uν

variable {κ : Type uκ} {ν : Type uν} [DecidableEq κ] {dict : Dict κ ν} {key : κ} {value : ν}

theorem get_ne_none_iff : dict.get key ≠ none ↔ key ∈ dict.map (·.1) := by
  apply Iff.intro
  · intro hget
    obtain ⟨value, hvalue⟩ := Option.ne_none_iff_exists'.mp hget
    exact List.mem_map_of_mem (mem_of_get hvalue)
  · intro hkey
    induction dict with
    | nil => cases hkey
    | cons item rest ih =>
      rw [get]
      split
      · exact Option.some_ne_none _
      next hfirst =>
        rcases List.mem_cons.mp hkey with hitem | hrest
        · exact absurd hitem.symm hfirst
        · exact ih hrest

/-- An assignment keeps the keys, and adds its own at the end when it is new. -/
theorem map_set : (dict.set key value).map (·.1) =
    if dict.get key = none then dict.map (·.1) ++ [key] else dict.map (·.1) := by
  induction dict with
  | nil => rfl
  | cons item rest ih =>
    rw [set, get]
    by_cases hfirst : item.1 = key
    · rw [if_pos hfirst, if_pos hfirst, if_neg (Option.some_ne_none _), List.map_cons,
        List.map_cons, hfirst]
    · rw [if_neg hfirst, if_neg hfirst, List.map_cons, ih]
      split
      · rfl
      · rfl

/-- An assignment leaves the items of other keys. -/
theorem filter_set {keep : κ → Bool} (hkey : keep key = false) :
    (dict.set key value).filter (fun item => keep item.1) =
      dict.filter fun item => keep item.1 := by
  induction dict with
  | nil => simp [set, hkey]
  | cons item rest ih =>
    rw [set]
    split
    next hfirst => simp [hkey, hfirst]
    · rw [List.filter_cons, List.filter_cons, ih]

end Dict

/-- The name of an entry: a component of its own. -/
def Plain (name : String) : Prop :=
  Path.ofString name = ⟨false, [name]⟩ ∧ name ≠ ".." ∧ '\x00' ∉ name.toList

instance : DecidablePred Plain := fun _ => inferInstanceAs (Decidable (_ ∧ _ ∧ _))

/-- The path goes on by these names. -/
def Path.extend (path : Path) (way : List String) : Path := ⟨path.absolute, path.parts ++ way⟩

section

variable {path : Path} {name : String} {way rest : List String}

@[simp]
theorem Path.extend_nil : path.extend [] = path := by
  simp [Path.extend]

@[simp]
theorem Path.extend_extend : (path.extend way).extend rest = path.extend (way ++ rest) := by
  simp [Path.extend]

theorem Path.child_of_plain (hname : Plain name) : path.child name = path.extend [name] := by
  unfold Path.child Path.join
  rw [hname.1]
  rfl

@[simp]
theorem Path.parent_extend : (path.extend [name]).parent = path := by
  simp [Path.extend, Path.parent]

@[simp]
theorem Path.name_extend : (path.extend [name]).name = name := by
  simp [Path.extend, Path.name]

theorem Path.name_child (hname : Plain name) : (path.child name).name = name := by
  rw [Path.child_of_plain hname, Path.name_extend]

theorem Path.namesEntry_extend (hname : Plain name) : (path.extend [name]).namesEntry = true := by
  simp [Path.extend, Path.namesEntry, hname.2.1]

end

/-! ## Paths that have been read -/

namespace Path

/-- The components are what `Path(text)` reads: names, and dots for the parent. -/
def Clean (path : Path) : Prop := ∀ part ∈ path.parts, '/' ∉ part.toList ∧ part ≠ "" ∧ part ≠ "."

variable {path other : Path} {name text : String}

theorem clean_ofString (text : String) : (ofString text).Clean := by
  intro part hpart
  obtain ⟨hmem, hkept⟩ := List.mem_filter.mp hpart
  obtain ⟨letters, hletters, rfl⟩ := List.mem_map.mp hmem
  rw [String.toList_ofList]
  exact ⟨not_mem_of_mem_components hletters, of_decide_eq_true hkept⟩

theorem Clean.join (hpath : path.Clean) (hother : other.Clean) : (path.join other).Clean := by
  unfold Path.join
  split
  · exact hother
  · exact List.forall_mem_append.mpr ⟨hpath, hother⟩

theorem Clean.child (hpath : path.Clean) (name : String) : (path.child name).Clean :=
  hpath.join (clean_ofString name)

instance (path : Path) : Decidable path.Clean := inferInstanceAs (Decidable (∀ _ ∈ _, _))

/-- No component holds a null character. -/
def NullFree (path : Path) : Prop := ∀ part ∈ path.parts, '\x00' ∉ part.toList

theorem mem_of_mem_components {letters part : List Char} {c : Char}
    (hpart : part ∈ components letters) (hc : c ∈ part) : c ∈ letters := by
  induction letters generalizing part with
  | nil =>
    rw [List.mem_singleton.mp hpart] at hc
    cases hc
  | cons first rest ih =>
    unfold components at hpart ih
    rw [List.foldr_cons] at hpart
    split at hpart
    · rcases List.mem_cons.mp hpart with rfl | hlater
      · cases hc
      · exact List.mem_cons_of_mem _ (ih hlater hc)
    next letter others _ hsplit =>
      rcases List.mem_cons.mp hpart with rfl | hlater
      · rcases List.mem_cons.mp hc with rfl | hc
        · exact List.mem_cons_self
        · exact List.mem_cons_of_mem _ (ih (hsplit ▸ List.mem_cons_self) hc)
      · exact List.mem_cons_of_mem _ (ih (hsplit ▸ List.mem_cons_of_mem _ hlater) hc)
    · rw [List.mem_singleton.mp hpart, List.mem_singleton] at hc
      rw [hc]
      exact List.mem_cons_self

theorem NullFree.child (hpath : path.NullFree) (hname : '\x00' ∉ name.toList) :
    (path.child name).NullFree := by
  have hparts : (ofString name).NullFree := by
    intro part hpart hnull
    obtain ⟨hmem, _⟩ := List.mem_filter.mp hpart
    obtain ⟨letters, hletters, rfl⟩ := List.mem_map.mp hmem
    rw [String.toList_ofList] at hnull
    exact hname (mem_of_mem_components hletters hnull)
  unfold Path.child Path.join
  split
  · exact hparts
  · exact List.forall_mem_append.mpr ⟨hpath, hparts⟩

theorem NullFree.parent (hpath : path.NullFree) : path.parent.NullFree := fun part hpart =>
  hpath part (List.mem_of_mem_dropLast hpart)

theorem NullFree.not_mem_name (hpath : path.NullFree) : '\x00' ∉ path.name.toList := by
  unfold Path.name
  cases hlast : path.parts.getLast? with
  | none => exact List.not_mem_nil
  | some last => exact hpath last (List.mem_of_getLast? hlast)

theorem Clean.parent (hpath : path.Clean) : path.parent.Clean := fun part hpart =>
  hpath part (List.mem_of_mem_dropLast hpart)

/-- The name of an entry is plain when it holds no null character. -/
theorem Clean.plain_name (hpath : path.Clean) (hentry : path.namesEntry = true)
    (hnull : path.NullFree) :
    Plain path.name ∧ path = path.parent.extend [path.name] := by
  unfold namesEntry at hentry
  cases hlast : path.parts.getLast? with
  | none => rw [hlast] at hentry; cases hentry
  | some last =>
    rw [hlast] at hentry
    have hmem := List.mem_of_getLast? hlast
    obtain ⟨hslash, hempty, hdot⟩ := hpath last hmem
    have hname : path.name = last := by rw [Path.name, hlast]; rfl
    rw [hname]
    refine ⟨⟨ofString_of_not_mem hslash hempty hdot, of_decide_eq_true hentry, hnull last hmem⟩, ?_⟩
    unfold extend Path.parent
    rw [List.dropLast_append_getLast? last hlast]

end Path

namespace Disk

variable {disk : Disk} {location place : Location} {path : Path} {name : String}
  {way parts : List String} {budget : ℕ} {fault : Option Fault}

/-! ## Walks -/

/-- How a walk up to the first link goes on over more components. -/
def goOn (disk : Disk) (way : List String) :
    Location × Option Fault × Option (Path × List String) →
      Location × Option Fault × Option (Path × List String)
  | (last, left, none) => disk.advance last left way
  | (last, left, some (target, rest)) => (last, left, some (target, rest ++ way))

theorem advance_append : disk.advance location fault (parts ++ way) =
    disk.goOn way (disk.advance location fault parts) := by
  induction parts generalizing location fault with
  | nil => rfl
  | cons part rest ih =>
    rw [List.cons_append, advance, advance]
    by_cases hup : part = ".."
    · rw [if_pos hup, if_pos hup]
      exact ih
    · rw [if_neg hup, if_neg hup]
      cases disk.links.get (location ++ [part]) with
      | some target => rfl
      | none => exact ih

theorem follow_congr {location' : Location} {fault' : Option Fault} {parts' : List String}
    (hadvance : disk.advance location fault parts = disk.advance location' fault' parts') :
    disk.follow budget location fault parts = disk.follow budget location' fault' parts' := by
  unfold follow
  rw [hadvance]

/-- A walk goes on from where the first part of its path has led, through the links that are
left of its budget. -/
theorem follow_append {last : Location} {left : Option Fault}
    (hfollow : disk.follow budget location fault parts = some (last, left)) :
    ∃ spare, ∀ way, disk.follow budget location fault (parts ++ way) =
      disk.follow spare last left way := by
  induction budget generalizing location fault parts with
  | zero =>
    rcases hstep : disk.advance location fault parts with ⟨stop, state, link⟩
    unfold follow at hfollow
    rw [hstep] at hfollow
    cases link with
    | none =>
      cases hfollow
      refine ⟨0, fun way => follow_congr ?_⟩
      rw [advance_append, hstep, goOn]
    | some link => cases hfollow
  | succ budget ih =>
    rcases hstep : disk.advance location fault parts with ⟨stop, state, link⟩
    unfold follow at hfollow
    rw [hstep] at hfollow
    cases link with
    | none =>
      cases hfollow
      refine ⟨budget + 1, fun way => follow_congr ?_⟩
      rw [advance_append, hstep, goOn]
    | some link =>
      obtain ⟨spare, hspare⟩ := ih hfollow
      refine ⟨spare, fun way => (?_ : follow disk (budget + 1) _ _ _ = _).trans (hspare way)⟩
      conv_lhs => unfold follow
      rw [advance_append, hstep, goOn]
      dsimp only
      rw [List.append_assoc]

/-- A name that is no link leads to the entry below. -/
theorem follow_cons (hname : name ≠ "..") (hlink : disk.links.get (location ++ [name]) = none) :
    disk.follow budget location fault (name :: way) =
      disk.follow budget (location ++ [name]) (disk.leave location fault) way := by
  apply follow_congr
  rw [advance, if_neg hname, hlink]

theorem advance_fault {kind : Fault} :
    (disk.advance location (some kind) parts).2.1 = some kind := by
  induction parts generalizing location with
  | nil => rfl
  | cons part rest ih =>
    unfold advance
    dsimp only
    split
    · exact ih
    · split
      · rfl
      · exact ih

/-- A walk that has left the directories ends with the fault. -/
theorem follow_fault {kind : Fault} {last : Location} {left : Option Fault}
    (hfollow : disk.follow budget location (some kind) parts = some (last, left)) :
    left = some kind := by
  induction budget generalizing location parts with
  | zero =>
    have hfault : (disk.advance location (some kind) parts).2.1 = some kind := advance_fault
    rcases hstep : disk.advance location (some kind) parts with ⟨stop, state, link⟩
    unfold follow at hfollow
    rw [hstep] at hfault hfollow
    cases link with
    | none =>
      cases hfollow
      exact hfault
    | some link => cases hfollow
  | succ budget ih =>
    have hfault : (disk.advance location (some kind) parts).2.1 = some kind := advance_fault
    rcases hstep : disk.advance location (some kind) parts with ⟨stop, state, link⟩
    unfold follow at hfollow
    rw [hstep] at hfault hfollow
    cases link with
    | none =>
      cases hfollow
      exact hfault
    | some link =>
      dsimp only at hfault
      rw [hfault] at hfollow
      exact ih hfollow

/-- A walk through something that is no directory ends with a fault. -/
theorem follow_leave {kind : Fault} (hleave : disk.leave location none = some kind)
    {last : Location} {left : Option Fault}
    (hfollow : disk.follow budget location none (name :: way) = some (last, left)) :
    left = some kind := by
  have hsame : disk.advance location none (name :: way) =
      disk.advance location (some kind) (name :: way) := by
    unfold advance
    rw [hleave]
    rfl
  rw [follow_congr hsame] at hfollow
  exact follow_fault hfollow

theorem leave_eq_none : disk.leave location none = none ↔
    disk.nodeAt location = some .directory := by
  unfold leave
  cases disk.nodeAt location with
  | none => simp
  | some node => cases node <;> simp

/-- No component of the path holds a null character. -/
theorem walk_eq_follow {found : Location × Option Fault} (hwalk : disk.walk path = some found) :
    path.parts.any (·.toList.contains '\x00') = false ∧
      disk.follow maxSymlinks (if path.absolute then [] else disk.cwd) none path.parts =
        some found := by
  unfold walk at hwalk
  split at hwalk
  · cases hwalk
  next hnull => exact ⟨Bool.eq_false_iff.mpr hnull, hwalk⟩

theorem nullFree_of_resolve (hresolve : disk.resolve path = some location) : path.NullFree := by
  unfold resolve at hresolve
  cases hwalk : disk.walk path with
  | none => rw [hwalk] at hresolve; cases hresolve
  | some found =>
    have hnull := (walk_eq_follow hwalk).1
    rw [List.any_eq_false] at hnull
    exact fun part hpart hmem => hnull part hpart (List.contains_iff_mem.mpr hmem)

theorem any_of_plain (hway : ∀ name ∈ way, Plain name) :
    way.any (·.toList.contains '\x00') = false := by
  rw [List.any_eq_false]
  intro name hname hnull
  exact (hway name hname).2.2 (List.contains_iff_mem.mp hnull)

/-- A path that goes on leads on from where it has led. -/
theorem walk_extend (hwalk : disk.walk path = some (location, fault)) :
    ∃ spare, ∀ way, (∀ name ∈ way, Plain name) →
      disk.walk (path.extend way) = disk.follow spare location fault way := by
  obtain ⟨hnull, hfollow⟩ := walk_eq_follow hwalk
  obtain ⟨spare, hspare⟩ := follow_append hfollow
  refine ⟨spare, fun way hway => ?_⟩
  unfold walk Path.extend
  dsimp only
  rw [List.any_append, hnull, any_of_plain hway, Bool.or_self, if_neg Bool.false_ne_true]
  exact hspare way

/-- Below something that is no directory there is nothing. -/
theorem stat_extend_of_not_directory (hwalk : disk.walk path = some (location, none))
    (hnode : disk.nodeAt location ≠ some .directory) (hway : ∀ other ∈ name :: way, Plain other) :
    disk.stat (path.extend (name :: way)) = none := by
  obtain ⟨spare, hspare⟩ := walk_extend hwalk
  unfold stat
  rw [hspare _ hway]
  cases hleave : disk.leave location none with
  | none => exact absurd (leave_eq_none.mp hleave) hnode
  | some kind =>
    cases hfollow : disk.follow spare location none (name :: way) with
    | none => rfl
    | some found =>
      obtain ⟨last, left⟩ := found
      rw [follow_leave hleave hfollow]

theorem stat_of_walk (hwalk : disk.walk path = some (location, none)) :
    disk.stat path = disk.nodeAt location := by
  unfold stat
  rw [hwalk]

theorem exists_walk_of_stat {node : Node} (hstat : disk.stat path = some node) :
    ∃ location, disk.walk path = some (location, none) ∧ disk.nodeAt location = some node := by
  unfold stat at hstat
  split at hstat
  next location hwalk => exact ⟨location, hwalk, hstat⟩
  · cases hstat

/-- A name of a directory that is no link leads to the entry below. -/
theorem walk_child (hwalk : disk.walk path = some (location, none))
    (hnode : disk.nodeAt location = some .directory) (hname : Plain name)
    (hlink : disk.links.get (location ++ [name]) = none) :
    disk.walk (path.extend [name]) = some (location ++ [name], none) := by
  obtain ⟨spare, hspare⟩ := walk_extend hwalk
  rw [hspare [name] (by simpa using hname), follow_cons hname.2.1 hlink, leave_eq_none.mpr hnode]
  cases spare with
  | zero => rfl
  | succ spare => rfl

/-! ## Sound disks -/

/-- The locations of what a disk holds. -/
def entries (disk : Disk) : List Location := disk.nodes.map (·.1) ++ disk.links.map (·.1)

/-- Every entry has a name of its own in a directory that is there. -/
structure Sound (disk : Disk) : Prop where
  distinct : disk.entries.Nodup
  parents : ∀ entry ∈ disk.entries,
    entry ≠ [] ∧ disk.nodeAt entry.dropLast = some .directory ∧ Plain (entry.getLast?.getD "")

theorem mem_entries : location ∈ disk.entries ↔
    disk.nodes.get location ≠ none ∨ disk.links.get location ≠ none := by
  unfold entries
  rw [List.mem_append, Dict.get_ne_none_iff, Dict.get_ne_none_iff]

theorem mem_entries_append : location ++ [name] ∈ disk.entries ↔ name ∈ disk.names location := by
  unfold names
  rw [List.mem_filterMap]
  apply Iff.intro
  · intro hmem
    exact ⟨location ++ [name], hmem, by simp⟩
  · intro ⟨entry, hentry, hname⟩
    split at hname
    next hparent =>
      rw [← hparent, List.dropLast_append_getLast? name hname]
      exact hentry
    · cases hname

namespace Sound

theorem plain (hsound : disk.Sound) (hname : name ∈ disk.names location) : Plain name := by
  have hplain := (hsound.parents _ (mem_entries_append.mpr hname)).2.2
  simpa using hplain

theorem nodup_names (hsound : disk.Sound) (location : Location) :
    (disk.names location).Nodup := by
  unfold names
  refine List.Nodup.filterMap ?_ hsound.distinct
  intro first second name hfirst hsecond
  rw [Option.mem_def] at hfirst hsecond
  split at hfirst
  next hfirst' =>
    split at hsecond
    next hsecond' =>
      rw [← List.dropLast_append_getLast? name hfirst, hfirst', ← hsecond',
        List.dropLast_append_getLast? name hsecond]
    · cases hsecond
  · cases hfirst

/-- No location is a link and something else. -/
theorem nodeAt_of_link (hsound : disk.Sound) (hlink : disk.links.get location ≠ none) :
    disk.nodeAt location = none := by
  have hentry := mem_entries.mpr (Or.inr hlink)
  unfold nodeAt
  rw [if_neg (hsound.parents _ hentry).1]
  by_contra hnode
  exact (List.nodup_append.mp hsound.distinct).2.2 _ (Dict.get_ne_none_iff.mp hnode) _
    (Dict.get_ne_none_iff.mp hlink) rfl

theorem directory_of_entry (hsound : disk.Sound)
    (hentry : (disk.nodeAt (location ++ [name])).isSome ∨
      disk.links.get (location ++ [name]) ≠ none) :
    disk.nodeAt location = some .directory := by
  have hmem : location ++ [name] ∈ disk.entries := by
    rw [mem_entries]
    apply hentry.imp_left
    intro hsome
    unfold nodeAt at hsome
    rw [if_neg (List.append_ne_nil_of_right_ne_nil _ (List.cons_ne_nil _ _))] at hsome
    exact Option.isSome_iff_ne_none.mp hsome
  simpa using (hsound.parents _ hmem).2.1

/-- What lies above an entry is a directory. -/
theorem directory_above (hsound : disk.Sound) (hway : way ≠ [])
    (hentry : (disk.nodeAt (location ++ way)).isSome) :
    disk.nodeAt location = some .directory := by
  induction way using List.reverseRecOn with
  | nil => exact absurd rfl hway
  | append_singleton init name ih =>
    rw [← List.append_assoc] at hentry
    have hinit := hsound.directory_of_entry (.inl hentry)
    cases init with
    | nil => simpa using hinit
    | cons first rest => exact ih (List.cons_ne_nil _ _) (by rw [hinit]; rfl)

/-- Nothing that lies above an entry is a link. -/
theorem links_above (hsound : disk.Sound) (hentry : (disk.nodeAt (location ++ way)).isSome) :
    disk.links.get location = none := by
  by_contra hlink
  have hnone := hsound.nodeAt_of_link hlink
  cases way with
  | nil =>
    rw [List.append_nil, hnone] at hentry
    cases hentry
  | cons name rest =>
    rw [hsound.directory_above (List.cons_ne_nil _ _) hentry] at hnone
    cases hnone

/-- Where nothing is, nothing lies below. -/
theorem nodeAt_append (hsound : disk.Sound) (hnode : disk.nodeAt location ≠ some .directory)
    (hway : way ≠ []) : disk.nodeAt (location ++ way) = none := by
  by_contra hentry
  exact hnode (hsound.directory_above hway (Option.isSome_iff_ne_none.mpr hentry))

theorem plain_of_nodeAt (hsound : disk.Sound) (hentry : (disk.nodeAt (location ++ way)).isSome) :
    ∀ other ∈ way, Plain other := by
  induction way using List.reverseRecOn with
  | nil => exact fun _ hother => nomatch hother
  | append_singleton init name ih =>
    rw [← List.append_assoc] at hentry
    intro other hother
    rcases List.mem_append.mp hother with hinit | hlast
    · exact ih (by rw [hsound.directory_of_entry (.inl hentry)]; rfl) other hinit
    · rw [List.mem_singleton.mp hlast]
      unfold nodeAt at hentry
      rw [if_neg (List.append_ne_nil_of_right_ne_nil _ (List.cons_ne_nil _ _))] at hentry
      have hmem := mem_entries.mpr (.inl (Option.isSome_iff_ne_none.mp hentry))
      exact hsound.plain (mem_entries_append.mp hmem)

end Sound

/-- A name that a directory does not have leads nowhere. -/
theorem stat_extend_of_not_mem_names (hwalk : disk.walk path = some (location, none))
    (hnode : disk.nodeAt location = some .directory) (hname : name ∉ disk.names location)
    (hway : ∀ other ∈ name :: way, Plain other) : disk.stat (path.extend (name :: way)) = none := by
  have hentry : location ++ [name] ∉ disk.entries := fun hmem => hname (mem_entries_append.mp hmem)
  rw [mem_entries, not_or, not_not, not_not] at hentry
  have hchild := walk_child hwalk hnode (hway name List.mem_cons_self) hentry.2
  have hnone : disk.nodeAt (location ++ [name]) = none := by
    unfold nodeAt
    rw [if_neg (List.append_ne_nil_of_right_ne_nil _ (List.cons_ne_nil _ _)), hentry.1]
  cases way with
  | nil => rw [stat_of_walk hchild, hnone]
  | cons next rest =>
    have hbelow := stat_extend_of_not_directory hchild (hnone ▸ nofun)
      fun other hother => hway other (List.mem_cons_of_mem _ hother)
    rwa [Path.extend_extend] at hbelow

/-- A path that comes to no link goes on to the location that it names. -/
theorem stat_extend_eq_nodeAt (hsound : disk.Sound)
    (hwalk : disk.walk path = some (location, none))
    (hlinks : ∀ first, first ≠ [] → first <+: way → disk.links.get (location ++ first) = none)
    (hway : ∀ other ∈ way, Plain other) :
    disk.stat (path.extend way) = disk.nodeAt (location ++ way) := by
  induction way generalizing path location with
  | nil => rw [Path.extend_nil, List.append_nil, stat_of_walk hwalk]
  | cons name rest ih =>
    by_cases hnode : disk.nodeAt location = some .directory
    · have hlink := hlinks [name] (List.cons_ne_nil _ _) (by simp)
      have hchild := walk_child hwalk hnode (hway name List.mem_cons_self) hlink
      have hrest : ∀ first, first ≠ [] → first <+: rest →
          disk.links.get (location ++ [name] ++ first) = none := by
        intro first _ hfirst
        simpa using hlinks (name :: first) (List.cons_ne_nil _ _)
          (List.cons_prefix_cons.mpr ⟨rfl, hfirst⟩)
      have hbelow := ih hchild hrest fun other hother => hway other (List.mem_cons_of_mem _ hother)
      rw [Path.extend_extend, List.append_assoc] at hbelow
      exact hbelow
    · rw [stat_extend_of_not_directory hwalk hnode hway,
        hsound.nodeAt_append hnode (List.cons_ne_nil _ _)]

end Disk

end DbtCraft.Python
