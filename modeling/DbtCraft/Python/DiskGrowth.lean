/-
# Growing disks

What operations that only add entries below one place leave as it is: the links, the
directories, and everything elsewhere. Walks that end at something go on doing so.
-/

import DbtCraft.Python.SoundDisk

namespace DbtCraft.Python.Disk

open FileOp (SameLinks)

variable {own other last disk : Disk} {location place : Location} {path : Path} {name : String}
  {node : Node} {way parts : List String} {budget : ℕ}

/-- The other disk has more entries at a place and below it. -/
structure Grows (place : Location) (own other : Disk) : Prop where
  links : SameLinks own other
  depth : other.depth = own.depth
  sound : own.Sound → other.Sound
  directories : ∀ location, own.nodeAt location = some .directory →
    other.nodeAt location = some .directory
  present : ∀ location, (own.nodeAt location).isSome → (other.nodeAt location).isSome
  elsewhere : (other.nodes.filter fun item => decide (¬ place <+: item.1)) =
    own.nodes.filter fun item => decide (¬ place <+: item.1)

namespace Grows

theorem refl (place : Location) (disk : Disk) : Grows place disk disk where
  links := SameLinks.refl disk
  depth := rfl
  sound := id
  directories _ := id
  present _ := id
  elsewhere := rfl

theorem trans (hfirst : Grows place own other) (hsecond : Grows place other last) :
    Grows place own last where
  links := hfirst.links.trans hsecond.links
  depth := hsecond.depth.trans hfirst.depth
  sound := hsecond.sound ∘ hfirst.sound
  directories location := hsecond.directories location ∘ hfirst.directories location
  present location := hsecond.present location ∘ hfirst.present location
  elsewhere := hsecond.elsewhere.trans hfirst.elsewhere

/-- What grows below a place grows below every place above. -/
theorem above (hgrows : Grows (place ++ way) own other) : Grows place own other where
  links := hgrows.links
  depth := hgrows.depth
  sound := hgrows.sound
  directories := hgrows.directories
  present := hgrows.present
  elsewhere := by
    have hkeep (dict : Dict Location Node) :
        (dict.filter fun item => decide (¬ place <+: item.1)) =
          (dict.filter fun item => decide (¬ place ++ way <+: item.1)).filter
            fun item => decide (¬ place <+: item.1) := by
      rw [List.filter_filter]
      apply List.filter_congr
      intro item _
      rw [Bool.eq_iff_iff, Bool.and_eq_true, decide_eq_true_iff, decide_eq_true_iff]
      exact ⟨fun h => ⟨h, fun hbelow => h ((List.prefix_append _ _).trans hbelow)⟩, And.left⟩
    rw [hkeep, hgrows.elsewhere, ← hkeep]

theorem of_below {lower : Location} (hgrows : Grows lower own other) (hbelow : place <+: lower) :
    Grows place own other := by
  obtain ⟨way, rfl⟩ := hbelow
  exact hgrows.above

theorem anywhere (hgrows : Grows place own other) : Grows [] own other :=
  hgrows.of_below List.nil_prefix

theorem nodeAt (hgrows : Grows place own other) (hoff : ¬ place <+: location) :
    other.nodeAt location = own.nodeAt location := by
  have hget (disk : Disk) : disk.nodes.get location =
      Dict.get (disk.nodes.filter fun item => decide (¬ place <+: item.1)) location := by
    rw [Dict.get_filter fun key => decide (¬ place <+: key), if_pos (decide_eq_true hoff)]
  unfold Disk.nodeAt
  rw [hget, hgrows.elsewhere, ← hget]

/-- A directory that the place does not lie in keeps its names. -/
theorem names (hgrows : Grows place own other) (hoff : ¬ place <+: location)
    (hapart : ∀ name, place ≠ location ++ [name]) :
    other.names location = own.names location := by
  have hnames (disk : Disk) : disk.names location =
      ((disk.nodes.filter fun item => decide (¬ place <+: item.1)).map (·.1) ++
        disk.links.map (·.1)).filterMap fun entry =>
          if entry.dropLast = location then entry.getLast? else none := by
    unfold Disk.names
    rw [List.filterMap_append, List.filterMap_append]
    congr 1
    rw [← List.filterMap_eq_map, List.filterMap_filterMap,
      List.filterMap_filterMap, List.filterMap_filter]
    apply List.filterMap_congr
    intro item _
    by_cases hbelow : place <+: item.1
    · rw [if_neg (by simpa using hbelow)]
      show (if item.1.dropLast = location then item.1.getLast? else none) = none
      split
      next hparent =>
        cases hlast : item.1.getLast? with
        | none => rfl
        | some name =>
          rw [← List.dropLast_append_getLast? name hlast, hparent,
            List.prefix_concat_iff] at hbelow
          exact absurd hbelow (not_or.mpr ⟨hapart name, hoff⟩)
      · rfl
    · rw [if_pos (by simpa using hbelow)]
  rw [hnames, hgrows.elsewhere, hgrows.links.links, ← hnames]

/-! ## Walks -/

theorem advance (hgrows : Grows place own other) {stop : Location}
    {link : Option (Path × List String)}
    (hadvance : own.advance location none parts = (stop, none, link)) :
    other.advance location none parts = (stop, none, link) := by
  induction parts generalizing location with
  | nil => exact hadvance
  | cons part rest ih =>
    -- A walk that has left the directories would end with the fault.
    have hleave : own.leave location none = none := by
      cases hleave : own.leave location none with
      | none => rfl
      | some kind =>
        have hsame : own.advance location none (part :: rest) =
            own.advance location (some kind) (part :: rest) := by
          rw [Disk.advance, Disk.advance, hleave]
          rfl
        have hfault : (own.advance location (some kind) (part :: rest)).2.1 = some kind :=
          advance_fault
        rw [← hsame, hadvance] at hfault
        cases hfault
    have hleave' := leave_eq_none.mpr (hgrows.directories _ (leave_eq_none.mp hleave))
    rw [Disk.advance] at hadvance ⊢
    rw [hleave] at hadvance
    rw [hleave', hgrows.links.links]
    by_cases hup : part = ".."
    · rw [if_pos hup] at hadvance ⊢
      exact ih hadvance
    · rw [if_neg hup] at hadvance ⊢
      cases hlink : own.links.get (location ++ [part]) with
      | some target =>
        rw [hlink] at hadvance
        exact hadvance
      | none =>
        rw [hlink] at hadvance
        exact ih hadvance

theorem follow (hgrows : Grows place own other) {stop : Location}
    (hfollow : own.follow budget location none parts = some (stop, none)) :
    other.follow budget location none parts = some (stop, none) := by
  induction budget generalizing location parts with
  | zero =>
    rcases hstep : own.advance location none parts with ⟨reached, state, link⟩
    unfold Disk.follow at hfollow ⊢
    rw [hstep] at hfollow
    cases link with
    | none =>
      cases hfollow
      rw [hgrows.advance hstep]
    | some link => cases hfollow
  | succ budget ih =>
    rcases hstep : own.advance location none parts with ⟨reached, state, link⟩
    unfold Disk.follow at hfollow ⊢
    rw [hstep] at hfollow
    cases link with
    | none =>
      cases hfollow
      rw [hgrows.advance hstep]
    | some link =>
      cases state with
      | none =>
        rw [hgrows.advance hstep]
        exact ih hfollow
      | some kind => cases follow_fault hfollow

/-- A walk that is never stopped ends at the same location. -/
theorem walk (hgrows : Grows place own other) (hwalk : own.walk path = some (location, none)) :
    other.walk path = some (location, none) := by
  obtain ⟨hnull, hfollow⟩ := walk_eq_follow hwalk
  unfold Disk.walk
  rw [if_neg (Bool.eq_false_iff.mp hnull), hgrows.links.cwd]
  exact hgrows.follow hfollow

theorem stat_isSome (hgrows : Grows place own other) (hstat : (own.stat path).isSome) :
    (other.stat path).isSome := by
  obtain ⟨node, hnode⟩ := Option.isSome_iff_exists.mp hstat
  obtain ⟨location, hwalk, hlocation⟩ := exists_walk_of_stat hnode
  rw [stat_of_walk (hgrows.walk hwalk)]
  exact hgrows.present _ (by rw [hlocation]; rfl)

theorem stat_directory (hgrows : Grows place own other) (hstat : own.stat path = some .directory) :
    other.stat path = some .directory := by
  obtain ⟨location, hwalk, hlocation⟩ := exists_walk_of_stat hstat
  rw [stat_of_walk (hgrows.walk hwalk)]
  exact hgrows.directories _ hlocation

/-- Nothing that is there lies below a place where nothing is. -/
theorem not_below (hsound : own.Sound) (hplace : own.nodeAt place = none)
    (hlocation : (own.nodeAt location).isSome) : ¬ place <+: location := by
  intro ⟨way, hway⟩
  cases way with
  | nil =>
    rw [← hway, List.append_nil, hplace] at hlocation
    cases hlocation
  | cons first rest =>
    rw [← hway, hsound.nodeAt_append (hplace ▸ nofun) (List.cons_ne_nil _ _)] at hlocation
    cases hlocation

/-- What grows below a place where nothing was changes nothing that was there. -/
theorem stat (hgrows : Grows place own other) (hsound : own.Sound)
    (hplace : own.nodeAt place = none) (hstat : own.stat path = some node) :
    other.stat path = some node := by
  obtain ⟨location, hwalk, hlocation⟩ := exists_walk_of_stat hstat
  rw [stat_of_walk (hgrows.walk hwalk),
    hgrows.nodeAt (not_below hsound hplace (by rw [hlocation]; rfl)), hlocation]

end Grows

/-! ## New entries -/

theorem nodeAt_set {nodes : Dict Location Node} (hlocation : location ≠ [])
    (hnodes : nodes = disk.nodes.set location node) :
    ({ disk with nodes := nodes }).nodeAt place =
      if place = location then some node else disk.nodeAt place := by
  unfold Disk.nodeAt
  dsimp only
  rw [hnodes, Dict.get_set]
  by_cases hplace : place = location
  · rw [if_pos hplace, if_neg (hplace ▸ hlocation), if_pos hplace]
  · rw [if_neg hplace, if_neg hplace]

/-- An entry with a name of its own in a directory. -/
def Seated (disk : Disk) (entry : Location) : Prop :=
  entry ≠ [] ∧ disk.nodeAt entry.dropLast = some .directory ∧ Plain (entry.getLast?.getD "")

/-- A disk stays sound when an entry that is no directory is set at a seat without a link. -/
theorem Sound.set (hsound : disk.Sound) (hseat : disk.Seated location)
    (hlink : disk.links.get location = none) (hnode : disk.nodeAt location ≠ some .directory) :
    ({ disk with nodes := disk.nodes.set location node }).Sound := by
  have hkeep (entry : Location) (hentry : disk.Seated entry) :
      ({ disk with nodes := disk.nodes.set location node }).Seated entry := by
    refine ⟨hentry.1, ?_, hentry.2.2⟩
    rw [nodeAt_set hseat.1 rfl]
    split
    next hsame => exact absurd (hsame ▸ hentry.2.1) hnode
    · exact hentry.2.1
  have hentries : ({ disk with nodes := disk.nodes.set location node }).entries =
      (if disk.nodes.get location = none then disk.nodes.map (·.1) ++ [location]
        else disk.nodes.map (·.1)) ++ disk.links.map (·.1) := by
    unfold entries
    rw [Dict.map_set]
  by_cases hnew : disk.nodes.get location = none
  · rw [if_pos hnew] at hentries
    refine ⟨?_, fun entry hentry => hkeep entry ?_⟩
    · rw [hentries, List.append_assoc, List.singleton_append, List.nodup_middle,
        List.nodup_cons]
      refine ⟨fun hmem => ?_, hsound.distinct⟩
      rcases mem_entries.mp hmem with hnode' | hlink'
      · exact hnode' hnew
      · exact hlink' hlink
    · rw [hentries, List.append_assoc, List.singleton_append, List.mem_append,
        List.mem_cons, or_left_comm, ← List.mem_append] at hentry
      rcases hentry with rfl | hold
      · exact hseat
      · exact hsound.parents entry hold
  · rw [if_neg hnew] at hentries
    refine ⟨hentries ▸ hsound.distinct, fun entry hentry => hkeep entry ?_⟩
    rw [hentries] at hentry
    exact hsound.parents entry hentry

/-- A path has room for an entry: its directory is there, and the name is no link. -/
structure Room (disk : Disk) (path : Path) (base : Location) (name : String) : Prop where
  walk : disk.walk path = some (base, none)
  directory : disk.nodeAt base = some .directory
  plain : Plain name
  noLink : disk.links.get (base ++ [name]) = none

namespace Room

variable {base : Location}

theorem grows (hroom : Room own path base name) (hgrows : Grows place own other) :
    Room other path base name where
  walk := hgrows.walk hroom.walk
  directory := hgrows.directories _ hroom.directory
  plain := hroom.plain
  noLink := by
    rw [hgrows.links.links]
    exact hroom.noLink

theorem walk_extend (hroom : Room disk path base name) :
    disk.walk (path.extend [name]) = some (base ++ [name], none) :=
  walk_child hroom.walk hroom.directory hroom.plain hroom.noLink

/-- An entry that is no directory can be set where there is room. -/
theorem grows_set (hroom : Room disk path base name)
    (hnode : disk.nodeAt (base ++ [name]) ≠ some .directory) :
    Grows (base ++ [name]) disk { disk with nodes := disk.nodes.set (base ++ [name]) node } where
  links := ⟨rfl, rfl⟩
  depth := rfl
  sound := by
    intro hsound
    apply hsound.set _ hroom.noLink hnode
    exact ⟨List.append_ne_nil_of_right_ne_nil _ (List.cons_ne_nil _ _),
      by rw [List.dropLast_concat, hroom.directory],
      by simpa using hroom.plain⟩
  directories := by
    intro location hlocation
    rw [nodeAt_set (List.append_ne_nil_of_right_ne_nil _ (List.cons_ne_nil _ _)) rfl]
    split
    next hsame => exact absurd (hsame ▸ hlocation) hnode
    · exact hlocation
  present := by
    intro location hlocation
    rw [nodeAt_set (List.append_ne_nil_of_right_ne_nil _ (List.cons_ne_nil _ _)) rfl]
    split
    · rfl
    · exact hlocation
  elsewhere := by
    have hself : decide (¬ base ++ [name] <+: base ++ [name]) = false := by simp
    exact @Dict.filter_set _ _ _ disk.nodes _ node (fun key => decide (¬ base ++ [name] <+: key)) hself

end Room

/-! ## New directories -/

/-- The disk with a new directory. -/
def withDirectory (disk : Disk) (location : Location) : Disk :=
  { disk with nodes := disk.nodes.set location .directory }

/-- A directory is made where there is room for it and nothing yet. -/
theorem room_of_made {after : Disk} (hmade : disk.mkdir path = .made after) (hclean : path.Clean)
    (hnull : path.NullFree) :
    ∃ base, Room disk path.parent base path.name ∧ disk.nodeAt (base ++ [path.name]) = none ∧
      after = withDirectory disk (base ++ [path.name]) ∧ path = path.parent.extend [path.name] := by
  unfold mkdir at hmade
  split at hmade
  · cases hmade
  next base fault hwalk =>
    split at hmade
    · cases hmade
    · cases hmade
    next hleave =>
      dsimp only at hmade
      split at hmade
      · cases hmade
      next hfree =>
        cases hmade
        rw [not_or, not_or, Bool.not_eq_false, not_not] at hfree
        obtain ⟨hentry, hlink, hnode⟩ := hfree
        obtain ⟨hplain, hpath⟩ := hclean.plain_name hentry hnull
        cases fault with
        | some kind => cases hleave
        | none =>
          exact ⟨base, ⟨hwalk, leave_eq_none.mp hleave, hplain, hlink⟩,
            Option.not_isSome_iff_eq_none.mp hnode, rfl, hpath⟩

/-- An operation that only adds entries. -/
def Adds {α : Type} (op : FileOp α) : Prop := ∀ disk, Grows [] disk (op disk).disk

section

variable {α β : Type}

theorem adds_pure (value : α) : Adds (pure value : FileOp α) := Grows.refl []

theorem adds_raise (raised : Raised) : Adds (FileOp.raise raised : FileOp α) := Grows.refl []

theorem adds_bind {op : FileOp α} {next : α → FileOp β} (hop : Adds op)
    (hnext : ∀ value, Adds (next value)) : Adds (op >>= next) := by
  intro disk
  show Grows [] disk (FileOp.bind op next disk).disk
  unfold FileOp.bind
  split
  next value _ => exact (hop disk).trans (hnext value _)
  · exact hop disk

end

/-- Making a directory adds one entry at most. -/
theorem adds_mkdir (hclean : path.Clean) (hnull : path.NullFree) (existOk : Bool) :
    Adds (FileOp.mkdir existOk path) := by
  intro disk
  unfold FileOp.mkdir
  split
  next after hmade =>
    obtain ⟨base, hroom, hfree, rfl, _⟩ := room_of_made hmade hclean hnull
    exact (hroom.grows_set (hfree ▸ nofun)).anywhere
  · exact Grows.refl _ _
  · exact Grows.refl _ _

theorem adds_mkdirParts {absolute existOk : Bool}
    (hclean : (Path.mk absolute parts.reverse).Clean)
    (hnull : (Path.mk absolute parts.reverse).NullFree) :
    Adds (FileOp.mkdirParts absolute parts existOk) := by
  induction parts generalizing existOk with
  | nil =>
    apply adds_bind (adds_mkdir hclean hnull _)
    intro there
    split
    · exact adds_pure ()
    · exact adds_raise _
  | cons part rest ih =>
    have hmk := adds_mkdir hclean hnull existOk
    have hkept : ∀ other ∈ rest.reverse, other ∈ (part :: rest).reverse := by
      intro other hother
      rw [List.reverse_cons]
      exact List.mem_append_left _ hother
    have hrest := @ih true (fun other hother => hclean other (hkept other hother))
      fun other hother => hnull other (hkept other hother)
    apply adds_bind hmk
    intro there
    split
    · exact adds_pure ()
    · apply adds_bind hrest
      intro _
      apply adds_bind hmk
      intro there
      split
      · exact adds_pure ()
      · exact adds_raise _

theorem adds_mkdirParents (hclean : path.Clean) (hnull : path.NullFree) (existOk : Bool) :
    Adds (FileOp.mkdirParents existOk path) := by
  apply adds_mkdirParts
  · rw [List.reverse_reverse]
    exact hclean
  · rw [List.reverse_reverse]
    exact hnull

end DbtCraft.Python.Disk
