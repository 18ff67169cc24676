/-
# `shutil.copytree`

The copy of a directory, entry by entry: the entries of a directory are those that stand when
it is entered, after the entries before it have been copied. What the copy sees of its source
is what stood there at the start when the place of the copy lies in no directory that it
enters.
-/

import DbtCraft.Python.DiskGrowth

namespace DbtCraft.Python

namespace FileOp

/-- One turn of the loop of `copytree`: links are followed. -/
def copyEntry (tree : Path → Path → FileOp Unit) (source target : Path) : FileOp Unit := do
  if ← isDir source then tree source target else copy2 source target

/-- The loop of `copytree`: what fails is kept, and raised after the last entry. -/
def copyEntries (tree : Path → Path → FileOp Unit) (source target : Path) :
    List String → FileOp Unit
  | [] => pure ()
  | name :: rest => fun disk =>
    let first := copyEntry tree (source.child name) (target.child name) disk
    let others := copyEntries tree source target rest first.disk
    ⟨others.disk, first.touched ++ others.touched, first.result >>= fun _ => others.result⟩

/-- `shutil.copytree(source, target)` through so many directories: the names are listed, the
target is made, whose parent is there, and the entries are copied one after the other. -/
def copyTree : ℕ → Path → Path → FileOp Unit
  | 0, _, _ => raise .osError
  | depth + 1, source, target => do
    let names ← iterdir source
    if ← mkdir false target then copyEntries (copyTree depth) source target names
    else raise .osError

/-! ## How operations end -/

section

variable {α β : Type} {disk : Disk} {path : Path}

/-- The disk and the result, without what was touched. -/
def ends (op : FileOp α) (disk : Disk) : Disk × Except Raised α := ((op disk).disk, (op disk).result)

theorem ends_bind (op : FileOp α) (next : α → FileOp β) (disk : Disk) :
    ends (op >>= next) disk =
      match ends op disk with
      | (after, .ok value) => ends (next value) after
      | (after, .error raised) => (after, .error raised) := by
  show ends (FileOp.bind op next) disk = _
  unfold ends FileOp.bind
  cases (op disk).result with
  | ok value => rfl
  | error raised => rfl

@[simp]
theorem ends_pure (value : α) : ends (pure value : FileOp α) disk = (disk, .ok value) := rfl

@[simp]
theorem ends_raise (raised : Raised) : ends (raise raised : FileOp α) disk =
    (disk, .error raised) := rfl

theorem ends_pathExists_bind (next : Bool → FileOp β) :
    ends (pathExists path >>= next) disk = ends (next (disk.stat path).isSome) disk := by
  rw [ends_bind]
  rfl

theorem ends_isDir : ends (isDir path) disk =
    (disk, .ok (decide (disk.stat path = some .directory))) := by
  unfold ends isDir look
  dsimp only
  split
  next hstat => simp [hstat]
  next hstat => rw [decide_eq_false hstat]

theorem ends_isDir_bind (next : Bool → FileOp β) :
    ends (isDir path >>= next) disk =
      ends (next (decide (disk.stat path = some .directory))) disk := by
  rw [ends_bind, ends_isDir]

/-- A directory is listed, and nothing else. -/
theorem ends_iterdir {location : Location} (hwalk : disk.walk path = some (location, none))
    (hnode : disk.nodeAt location = some .directory) :
    ends (iterdir path) disk = (disk, .ok (disk.names location)) := by
  unfold ends iterdir look
  dsimp only
  rw [hwalk, Disk.stat_of_walk hwalk, hnode]

theorem ends_iterdir_of_not_directory (hstat : disk.stat path ≠ some .directory) :
    ends (iterdir path) disk = (disk, .error .osError) := by
  unfold ends iterdir look
  dsimp only
  split
  next hdirectory => exact absurd hdirectory hstat
  · rfl

end

/-! ## What a copy changes -/

section

open Disk

variable {disk : Disk} {path source target : Path} {base place location : Location} {name : String}
  {tree : Path → Path → FileOp Unit} {names : List String} {depth : ℕ}

theorem mkdir_of_room (hroom : Room disk path base name) :
    disk.mkdir (path.extend [name]) =
      if (disk.nodeAt (base ++ [name])).isSome then .refused
      else .made { disk with nodes := disk.nodes.set (base ++ [name]) .directory } := by
  unfold Disk.mkdir
  rw [Path.parent_extend, hroom.walk]
  dsimp only
  rw [leave_eq_none.mpr hroom.directory, Path.name_extend, Path.namesEntry_extend hroom.plain,
    hroom.noLink]
  simp

/-- A directory is made where there is room and nothing yet. -/
theorem ends_mkdir_of_room (hroom : Room disk path base name) (existOk : Bool)
    (hfree : disk.nodeAt (base ++ [name]) = none) :
    ends (mkdir existOk (path.extend [name])) disk =
      ({ disk with nodes := disk.nodes.set (base ++ [name]) .directory }, .ok true) := by
  unfold ends mkdir
  rw [mkdir_of_room hroom, hfree, if_neg (by simp)]

theorem ends_mkdir_of_taken (hroom : Room disk path base name)
    (htaken : (disk.nodeAt (base ++ [name])).isSome) :
    ends (mkdir false (path.extend [name])) disk = (disk, .error .osError) := by
  unfold ends mkdir
  rw [mkdir_of_room hroom, if_pos htaken]

theorem ends_copyTree_succ (hroom : Room disk path base name)
    (hfree : disk.nodeAt (base ++ [name]) = none) (hwalk : disk.walk source = some (location, none))
    (hnode : disk.nodeAt location = some .directory) :
    ends (copyTree (depth + 1) source (path.extend [name])) disk =
      ends (copyEntries (copyTree depth) source (path.extend [name]) (disk.names location))
        (withDirectory disk (base ++ [name])) := by
  rw [copyTree, ends_bind, ends_iterdir hwalk hnode]
  dsimp only
  rw [ends_bind, ends_mkdir_of_room hroom false hfree]
  rfl

/-- A copy that cannot begin changes nothing. -/
theorem ends_copyTree_cases (hroom : Room disk path base name) :
    ends (copyTree (depth + 1) source (path.extend [name])) disk = (disk, .error .osError) ∨
      ∃ location, disk.walk source = some (location, none) ∧
        disk.nodeAt location = some .directory ∧ disk.nodeAt (base ++ [name]) = none := by
  by_cases hstat : disk.stat source = some .directory
  · obtain ⟨location, hwalk, hnode⟩ := exists_walk_of_stat hstat
    by_cases hfree : disk.nodeAt (base ++ [name]) = none
    · exact Or.inr ⟨location, hwalk, hnode, hfree⟩
    · apply Or.inl
      rw [copyTree, ends_bind, ends_iterdir hwalk hnode]
      dsimp only
      rw [ends_bind, ends_mkdir_of_taken hroom (Option.isSome_iff_ne_none.mpr hfree)]
  · apply Or.inl
    rw [copyTree, ends_bind, ends_iterdir_of_not_directory hstat]

theorem copyFile_grows (hroom : Room disk path base name) :
    Grows (base ++ [name]) disk (copyFile source (path.extend [name]) disk).disk := by
  unfold copyFile
  rw [hroom.walk_extend]
  dsimp only
  split
  next bytes location _ hwalk =>
    cases hwalk
    split
    · exact Grows.refl _ _
    next hnode =>
      split
      · exact Grows.refl _ _
      · exact hroom.grows_set hnode
  · exact Grows.refl _ _

theorem copy2_grows (hroom : Room disk path base name) (hname : source.name = name)
    (hlinks : disk.links.get (base ++ [name] ++ [name]) = none) :
    Grows (base ++ [name]) disk (copy2 source (path.extend [name]) disk).disk := by
  show Grows _ _ (ends (copy2 source (path.extend [name])) disk).1
  rw [copy2, ends_isDir_bind, hname, Path.child_of_plain hroom.plain]
  by_cases hfolder : disk.stat (path.extend [name]) = some .directory
  · rw [hfolder]
    rw [stat_of_walk hroom.walk_extend] at hfolder
    exact (copyFile_grows ⟨hroom.walk_extend, hfolder, hroom.plain, hlinks⟩).above
  · rw [decide_eq_false hfolder]
    exact copyFile_grows hroom

theorem ends_copyEntries_cons (disk : Disk) :
    ends (copyEntries tree source target (name :: names)) disk =
      let first := ends (copyEntry tree (source.child name) (target.child name)) disk
      let others := ends (copyEntries tree source target names) first.1
      (others.1, first.2 >>= fun _ => others.2) := rfl

/-- An operation from one path to another changes nothing but what lies at the entry. -/
def Fills (tree : Path → Path → FileOp Unit) : Prop :=
  ∀ ⦃source path base name disk⦄, disk.Sound → Room disk path base name →
    Grows (base ++ [name]) disk (tree source (path.extend [name]) disk).disk

theorem copyEntry_grows (htree : Fills tree) (hsound : disk.Sound)
    (hroom : Room disk path base name) (hname : source.name = name)
    (hlinks : disk.links.get (base ++ [name] ++ [name]) = none) :
    Grows (base ++ [name]) disk (copyEntry tree source (path.extend [name]) disk).disk := by
  show Grows _ _ (ends (copyEntry tree source (path.extend [name])) disk).1
  unfold copyEntry
  rw [ends_isDir_bind]
  split
  · exact htree hsound hroom
  · exact copy2_grows hroom hname hlinks

theorem copyEntries_grows (htree : Fills tree) (hsound : disk.Sound)
    (hwalk : disk.walk target = some (location, none))
    (hnode : disk.nodeAt location = some .directory)
    (hlinks : ∀ way, disk.links.get (location ++ way) = none)
    (hnames : ∀ name ∈ names, Plain name) :
    Grows location disk (copyEntries tree source target names disk).disk ∧
      ∀ place, (∀ name ∈ names, ¬ location ++ [name] <+: place) →
        (copyEntries tree source target names disk).disk.nodeAt place = disk.nodeAt place := by
  induction names generalizing disk with
  | nil => exact ⟨Grows.refl _ _, fun _ _ => rfl⟩
  | cons name rest ih =>
    have hplain := hnames name List.mem_cons_self
    have hroom : Room disk target location name := ⟨hwalk, hnode, hplain, hlinks [name]⟩
    have hlinks' : disk.links.get (location ++ [name] ++ [name]) = none := by
      rw [List.append_assoc]
      exact hlinks _
    have hfirst : Grows (location ++ [name]) disk
        (copyEntry tree (source.child name) (target.child name) disk).disk := by
      rw [Path.child_of_plain hplain, Path.child_of_plain hplain]
      exact copyEntry_grows htree hsound hroom Path.name_extend hlinks'
    obtain ⟨hothers, hkept⟩ := ih (hfirst.sound hsound) (hfirst.walk hwalk)
      (hfirst.directories _ hnode) (by rwa [hfirst.links.links])
      fun other hother => hnames other (List.mem_cons_of_mem _ hother)
    refine ⟨hfirst.above.trans hothers, fun place hplace => ?_⟩
    exact (hkept place fun other hother => hplace other (List.mem_cons_of_mem _ hother)).trans
      (hfirst.nodeAt (hplace name List.mem_cons_self))

/-- Below a place without an entry there is no link. -/
theorem links_below (hsound : disk.Sound) (hroom : Room disk path base name)
    (hfree : disk.nodeAt (base ++ [name]) = none) (way : List String) :
    disk.links.get (base ++ [name] ++ way) = none := by
  induction way using List.reverseRecOn with
  | nil => simpa using hroom.noLink
  | append_singleton init last _ =>
    by_contra hlink
    rw [← List.append_assoc] at hlink
    have hinit := hsound.directory_of_entry (.inr hlink)
    cases init with
    | nil => rw [List.append_nil, hfree] at hinit; cases hinit
    | cons first rest =>
      rw [hsound.nodeAt_append (by rw [hfree]; rintro ⟨⟩) (List.cons_ne_nil _ _)] at hinit
      cases hinit

theorem nodeAt_withDirectory (place : Location) : (withDirectory disk (base ++ [name])).nodeAt place =
    if place = base ++ [name] then some .directory else disk.nodeAt place :=
  nodeAt_set (List.append_ne_nil_of_right_ne_nil _ (List.cons_ne_nil _ _)) rfl

theorem nodeAt_withDirectory_self (disk : Disk) (base : Location) (name : String) :
    (withDirectory disk (base ++ [name])).nodeAt (base ++ [name]) = some .directory := by
  rw [nodeAt_withDirectory, if_pos rfl]

theorem grows_withDirectory (hroom : Room disk path base name)
    (hfree : disk.nodeAt (base ++ [name]) = none) :
    Grows (base ++ [name]) disk (withDirectory disk (base ++ [name])) :=
  hroom.grows_set (hfree ▸ nofun)

/-- A copy changes nothing but what lies at its target. -/
theorem copyTree_grows (depth : ℕ) : Fills (copyTree depth) := by
  induction depth with
  | zero => exact fun _ _ _ _ _ _ _ => Grows.refl _ _
  | succ depth ih =>
    intro source path base name disk hsound hroom
    show Grows _ _ (ends (copyTree (depth + 1) source (path.extend [name])) disk).1
    rcases @ends_copyTree_cases disk path source base name depth hroom with hstopped | hbegins
    · rw [hstopped]
      exact Grows.refl _ _
    · obtain ⟨location, hwalk, hnode, hfree⟩ := hbegins
      have hmade := grows_withDirectory hroom hfree
      rw [ends_copyTree_succ hroom hfree hwalk hnode]
      apply hmade.trans
      have hnames : ∀ other ∈ disk.names location, Plain other := fun _ hother => hsound.plain hother
      have hlinks := links_below hsound hroom hfree
      exact (copyEntries_grows ih (hmade.sound hsound) (hmade.walk hroom.walk_extend)
        (nodeAt_withDirectory_self disk base name) hlinks hnames).1

/-- A copy that begins makes its target. -/
theorem nodeAt_copyTree (hsound : disk.Sound) (hroom : Room disk path base name)
    (hfree : disk.nodeAt (base ++ [name]) = none) (hstat : disk.stat source = some .directory) :
    (ends (copyTree (depth + 1) source (path.extend [name])) disk).1.nodeAt (base ++ [name]) =
      some .directory := by
  obtain ⟨location, hwalk, hnode⟩ := exists_walk_of_stat hstat
  have hmade := grows_withDirectory hroom hfree
  have hself := nodeAt_withDirectory_self disk base name
  have hplain : ∀ other ∈ disk.names location, Plain other := fun _ hother => hsound.plain hother
  have hlinks := links_below hsound hroom hfree
  rw [ends_copyTree_succ hroom hfree hwalk hnode]
  exact (copyEntries_grows (copyTree_grows depth) (hmade.sound hsound)
    (hmade.walk hroom.walk_extend) hself hlinks hplain).1.directories _ hself

end

end FileOp

/-! ## What a copy sees -/

namespace Disk

open FileOp

variable {disk other last : Disk} {source path dir : Path} {base place location : Location}
  {name : String} {names : List String} {depth : ℕ}

/-- Every name below a directory leads to a file or a directory, and its directories are fewer
than so many deep. -/
def readable (disk : Disk) : ℕ → Path → Bool
  | 0, _ => false
  | depth + 1, path =>
    match disk.walk path with
    | some (location, none) =>
      decide (disk.nodeAt location = some .directory) &&
        (disk.names location).all fun name =>
          match disk.stat (path.child name) with
          | some .directory => readable disk depth (path.child name)
          | some (.file _) => true
          | none => false
    | _ => false

/-- An entry that a copy can read. -/
def ReadableEntry (disk : Disk) (depth : ℕ) (path : Path) : Prop :=
  (disk.stat path = some .directory ∧ disk.readable depth path = true) ∨
    ∃ bytes, disk.stat path = some (.file bytes)

theorem readable_succ_iff : disk.readable (depth + 1) path = true ↔
    ∃ location, disk.walk path = some (location, none) ∧
      disk.nodeAt location = some .directory ∧
      ∀ name ∈ disk.names location, ReadableEntry disk depth (path.child name) := by
  unfold readable
  split
  next location hwalk =>
    rw [Bool.and_eq_true, decide_eq_true_iff, List.all_eq_true]
    apply Iff.intro
    · intro ⟨hnode, hnames⟩
      refine ⟨location, hwalk, hnode, fun name hname => ?_⟩
      have hentry := hnames name hname
      unfold ReadableEntry
      split at hentry
      next hstat => exact Or.inl ⟨hstat, hentry⟩
      next bytes hstat => exact Or.inr ⟨bytes, hstat⟩
      · cases hentry
    · intro ⟨location', hsame, hnode, hnames⟩
      rw [hwalk] at hsame
      cases hsame
      refine ⟨hnode, fun name hname => ?_⟩
      rcases hnames name hname with ⟨hstat, hreadable⟩ | ⟨bytes, hstat⟩
      · rw [hstat]
        exact hreadable
      · rw [hstat]
  next hwalk =>
    apply iff_of_false Bool.false_ne_true
    intro ⟨location, hsame, _⟩
    exact hwalk location hsame

/-- The place lies in no directory that a walk below the path enters, through links as well. -/
def Apart (disk : Disk) (depth : ℕ) (path : Path) (place : Location) : Prop :=
  ∀ entered ∈ disk.below depth path, ∀ location, disk.walk entered = some (location, none) →
    disk.nodeAt location = some .directory → ¬ location <+: place

theorem Apart.not_above (hapart : disk.Apart depth path place)
    (hwalk : disk.walk path = some (location, none))
    (hnode : disk.nodeAt location = some .directory) : ¬ location <+: place := by
  apply hapart path _ location hwalk hnode
  cases depth with
  | zero => exact List.mem_singleton_self _
  | succ depth => exact List.mem_cons_self

theorem Apart.child (hapart : disk.Apart (depth + 1) path place)
    (hwalk : disk.walk path = some (location, none))
    (hnode : disk.nodeAt location = some .directory) (hname : name ∈ disk.names location) :
    disk.Apart depth (path.child name) place := by
  intro entered hentered
  apply hapart entered
  unfold below
  rw [hwalk]
  dsimp only
  rw [hnode]
  exact List.mem_cons_of_mem _ (List.mem_flatMap.mpr ⟨name, hname, hentered⟩)

/-- A directory keeps its names while entries grow at a place that does not lie in it. -/
theorem Apart.keeps_names (hapart : disk.Apart depth path place) (hsound : disk.Sound)
    (hgrows : Grows place disk other) (hplace : disk.nodeAt place = none)
    (hwalk : disk.walk path = some (location, none))
    (hnode : disk.nodeAt location = some .directory) :
    other.names location = disk.names location := by
  apply hgrows.names (Grows.not_below hsound hplace (by rw [hnode]; rfl))
  intro name hname
  exact hapart.not_above hwalk hnode (hname ▸ List.prefix_append _ _)

/-- Nothing lies below a file. -/
theorem stat_extend_of_file {bytes : ByteArray} (hstat : disk.stat path = some (.file bytes))
    {way : List String} (hway : ∀ name ∈ way, Plain name) :
    disk.stat (path.extend way) = if way = [] then some (.file bytes) else none := by
  obtain ⟨location, hwalk, hnode⟩ := exists_walk_of_stat hstat
  cases way with
  | nil => rw [Path.extend_nil, if_pos rfl, hstat]
  | cons name rest =>
    rw [if_neg (List.cons_ne_nil _ _)]
    exact stat_extend_of_not_directory hwalk (hnode ▸ nofun) hway

/-- A source that can be read shows the same content while entries grow at a place apart. -/
theorem stat_extend_of_readable (hsound : disk.Sound) (hgrows : Grows place disk other)
    (hplace : disk.nodeAt place = none) (hreadable : disk.readable depth path = true)
    (hapart : disk.Apart depth path place) {way : List String} (hway : ∀ name ∈ way, Plain name) :
    other.stat (path.extend way) = disk.stat (path.extend way) := by
  induction depth generalizing path way with
  | zero => cases hreadable
  | succ depth ih =>
    obtain ⟨location, hwalk, hnode, hnames⟩ := readable_succ_iff.mp hreadable
    have hwalk' := hgrows.walk hwalk
    have hnode' := hgrows.directories _ hnode
    cases way with
    | nil =>
      rw [Path.extend_nil, stat_of_walk hwalk, hnode, stat_of_walk hwalk', hnode']
    | cons name rest =>
      have hplain := hway name List.mem_cons_self
      have hrest : ∀ name ∈ rest, Plain name := fun other hother =>
        hway other (List.mem_cons_of_mem _ hother)
      by_cases hname : name ∈ disk.names location
      · have hentry := hnames name hname
        have hchild := hapart.child hwalk hnode hname
        rw [Path.child_of_plain hplain] at hentry hchild
        rcases hentry with ⟨_, hbelow⟩ | ⟨bytes, hstat⟩
        · have hsame := ih hbelow hchild hrest
          rwa [Path.extend_extend] at hsame
        · have hfile := stat_extend_of_file hstat hrest
          have hfile' := stat_extend_of_file (hgrows.stat hsound hplace hstat) hrest
          rw [Path.extend_extend] at hfile hfile'
          exact hfile'.trans hfile.symm
      · rw [stat_extend_of_not_mem_names hwalk hnode hname hway]
        rw [← hapart.keeps_names hsound hgrows hplace hwalk hnode] at hname
        exact stat_extend_of_not_mem_names hwalk' hnode' hname hway

/-- What lies below a path on one disk lies below another path on a disk. -/
def SameContent (own : Disk) (path : Path) (other : Disk) (path' : Path) : Prop :=
  ∀ way, (∀ name ∈ way, Plain name) → other.stat (path'.extend way) = own.stat (path.extend way)

/-! ## A copy that sees its source -/

/-- A copy to a new place has begun, and nothing has changed elsewhere. -/
structure Underway (disk : Disk) (place : Location) (now : Disk) : Prop where
  sound : disk.Sound
  new : disk.nodeAt place = none
  grows : Grows place disk now

/-- What lies at a location now is what lay below the path. -/
def Copied (disk : Disk) (path : Path) (now : Disk) (location : Location) : Prop :=
  ∀ way, (∀ name ∈ way, Plain name) → now.nodeAt (location ++ way) = disk.stat (path.extend way)

/-- The operation copies what the source showed at the start to any new entry at the place. -/
def Copies (disk : Disk) (place : Location) (tree : Path → Path → FileOp Unit) (source : Path) :
    Prop :=
  ∀ ⦃dir base name now⦄, Underway disk place now → Room now dir base name →
    place <+: base ++ [name] → now.nodeAt (base ++ [name]) = none →
    (ends (tree source (dir.extend [name])) now).2 = .ok () ∧
      Copied disk source (ends (tree source (dir.extend [name])) now).1 (base ++ [name])

variable {now : Disk}

theorem ends_copyFile (hroom : Room now dir base name) {bytes : ByteArray}
    (hstat : now.stat source = some (.file bytes)) (hfree : now.nodeAt (base ++ [name]) = none) :
    ends (copyFile source (dir.extend [name])) now =
      ({ now with nodes := now.nodes.set (base ++ [name]) (.file bytes) }, .ok ()) := by
  obtain ⟨location, hwalk, hnode⟩ := exists_walk_of_stat hstat
  have hother : ¬ now.resolve source = some (base ++ [name]) := by
    intro hsame
    unfold resolve at hsame
    rw [hwalk, Option.map_some, Option.some_inj] at hsame
    dsimp only at hsame
    rw [hsame, hfree] at hnode
    cases hnode
  unfold ends copyFile
  rw [hstat, hroom.walk_extend]
  dsimp only
  rw [hfree, if_neg hother]

theorem ends_copy2 (hroom : Room now dir base name) (hfree : now.nodeAt (base ++ [name]) = none) :
    ends (copy2 source (dir.extend [name])) now = ends (copyFile source (dir.extend [name])) now := by
  have hstat : now.stat (dir.extend [name]) ≠ some .directory := by
    rw [stat_of_walk hroom.walk_extend, hfree]
    nofun
  rw [copy2, ends_isDir_bind, decide_eq_false hstat]
  rfl

/-- An entry that can be read is copied. -/
theorem copyEntry_copies {tree : Path → Path → FileOp Unit}
    (hentry : ReadableEntry disk depth source)
    (htree : disk.readable depth source = true → Copies disk place tree source) :
    Copies disk place (copyEntry tree) source := by
  intro dir base name now hunder hroom hbelow hfree
  have hsound := hunder.grows.sound hunder.sound
  rw [copyEntry, ends_isDir_bind]
  rcases hentry with ⟨hstat, hreadable⟩ | ⟨bytes, hstat⟩
  · rw [decide_eq_true (hunder.grows.stat_directory hstat)]
    exact htree hreadable hunder hroom hbelow hfree
  · have hnow := hunder.grows.stat hunder.sound hunder.new hstat
    rw [decide_eq_false (by rw [hnow]; nofun), if_neg Bool.false_ne_true, ends_copy2 hroom hfree,
      ends_copyFile hroom hnow hfree]
    refine ⟨rfl, fun way hway => ?_⟩
    rw [stat_extend_of_file hstat hway,
      nodeAt_set (List.append_ne_nil_of_right_ne_nil _ (List.cons_ne_nil _ _)) rfl]
    by_cases hempty : way = []
    · rw [if_pos hempty, if_pos (by simp [hempty])]
    · rw [if_neg hempty, if_neg (by simp [hempty]), hsound.nodeAt_append (hfree ▸ nofun) hempty]

/-- Where nothing is a link, an entry grows in its place. -/
theorem copyEntry_grows_of_room (source : Path) (depth : ℕ) (hsound : now.Sound)
    (hroom : Room now dir location name) (hplain : Plain name)
    (hlinks : ∀ way, now.links.get (location ++ way) = none) :
    Grows (location ++ [name]) now
      (ends (copyEntry (copyTree depth) (source.child name) (dir.extend [name])) now).1 := by
  apply copyEntry_grows (copyTree_grows depth) hsound hroom (Path.name_child hplain)
  rw [List.append_assoc]
  exact hlinks _

/-- The loop copies the entries that can be read. -/
theorem copyEntries_copied (hunder : Underway disk place now) (hbelow : place <+: location)
    (hwalk : now.walk dir = some (location, none)) (hnode : now.nodeAt location = some .directory)
    (hlinks : ∀ way, now.links.get (location ++ way) = none) (hnodup : names.Nodup)
    (hentries : ∀ name ∈ names, Plain name ∧ now.nodeAt (location ++ [name]) = none ∧
      Copies disk place (copyEntry (copyTree depth)) (source.child name)) :
    (ends (copyEntries (copyTree depth) source dir names) now).2 = .ok () ∧
      ∀ name ∈ names, Copied disk (source.child name)
        (ends (copyEntries (copyTree depth) source dir names) now).1 (location ++ [name]) := by
  induction names generalizing now with
  | nil => exact ⟨rfl, fun _ hname => nomatch hname⟩
  | cons name rest ih =>
    obtain ⟨hname, hrest⟩ := List.nodup_cons.mp hnodup
    obtain ⟨hplain, hfree, hcopies⟩ := hentries name List.mem_cons_self
    have hroom : Room now dir location name := ⟨hwalk, hnode, hplain, hlinks [name]⟩
    obtain ⟨hresult, hcopied⟩ := hcopies hunder hroom (hbelow.trans (List.prefix_append _ _)) hfree
    have hsound := hunder.grows.sound hunder.sound
    have htarget : dir.child name = dir.extend [name] := Path.child_of_plain hplain
    have hfirst := copyEntry_grows_of_room source depth hsound hroom hplain hlinks
    rw [ends_copyEntries_cons, htarget]
    generalize ends (copyEntry (copyTree depth) (source.child name) (dir.extend [name])) now = first
      at hresult hcopied hfirst
    obtain ⟨way, rfl⟩ := hbelow
    have hunder' : Underway disk place first.1 :=
      ⟨hunder.sound, hunder.new, hunder.grows.trans hfirst.above.above⟩
    have hnode' := hfirst.directories _ hnode
    have hlinks'' : ∀ below, first.1.links.get (place ++ way ++ below) = none := by
      rw [hfirst.links.links]
      exact hlinks
    have hapart (other : String) (hother : other ∈ rest) (below : Location) :
        ¬ place ++ way ++ [other] <+: place ++ way ++ [name] ++ below := by
      rw [List.append_assoc _ [name], List.prefix_append_right_inj]
      simp only [List.singleton_append, List.cons_prefix_cons, not_and]
      exact fun hsame => absurd (hsame ▸ hother) hname
    have hentries' : ∀ other ∈ rest, Plain other ∧
        first.1.nodeAt (place ++ way ++ [other]) = none ∧
        Copies disk place (copyEntry (copyTree depth)) (source.child other) := by
      intro other hother
      obtain ⟨hplain', hfree', hcopies'⟩ := hentries other (List.mem_cons_of_mem _ hother)
      refine ⟨hplain', ?_, hcopies'⟩
      rw [hfirst.nodeAt, hfree']
      intro hsame
      have hback := List.IsPrefix.eq_of_length hsame (by simp)
      exact hapart other hother [] (by rw [hback, List.append_nil])
    obtain ⟨hothers, hrestcopied⟩ := ih hunder' (hfirst.walk hwalk) hnode' hlinks''
      hrest hentries'
    have hkept := (@copyEntries_grows _ source _ _ _ _ (copyTree_grows depth) (hfirst.sound hsound)
      (hfirst.walk hwalk) hnode' hlinks'' fun other hother => (hentries' other hother).1).2
    refine ⟨?_, List.forall_mem_cons.mpr ⟨fun below hplain' => ?_, hrestcopied⟩⟩
    · dsimp only
      rw [hresult]
      exact hothers
    · exact (hkept _ fun other hother => hapart other hother below).trans (hcopied below hplain')

/-- A source that can be read, in no directory of which the copy lies, is copied. -/
theorem copyTree_copies (hreadable : disk.readable depth source = true)
    (hapart : disk.Apart depth source place) : Copies disk place (copyTree depth) source := by
  induction depth generalizing source with
  | zero => cases hreadable
  | succ depth ih =>
    intro dir base name now hunder hroom hbelow hfree
    obtain ⟨location, hwalk, hnode, hnames⟩ := readable_succ_iff.mp hreadable
    have hsame := hapart.keeps_names hunder.sound hunder.grows hunder.new hwalk hnode
    have hsound := hunder.grows.sound hunder.sound
    have hmade := grows_withDirectory hroom hfree
    have hself := nodeAt_withDirectory_self now base name
    have hnone (way : Location) (hway : way ≠ []) :
        (withDirectory now (base ++ [name])).nodeAt (base ++ [name] ++ way) = none := by
      rw [nodeAt_withDirectory, if_neg (by simpa using hway),
        hsound.nodeAt_append (hfree ▸ nofun) hway]
    rw [ends_copyTree_succ hroom hfree (hunder.grows.walk hwalk)
      (hunder.grows.directories _ hnode), hsame]
    have hunder' : Underway disk place (withDirectory now (base ++ [name])) :=
      ⟨hunder.sound, hunder.new, hunder.grows.trans (hmade.of_below hbelow)⟩
    have hlinks := links_below hsound hroom hfree
    have hplain : ∀ other ∈ disk.names location, Plain other := fun _ hother =>
      hunder.sound.plain hother
    obtain ⟨hresult, hcopied⟩ := copyEntries_copied hunder' hbelow
      (hmade.walk hroom.walk_extend) hself hlinks (hunder.sound.nodup_names location)
      fun other hother => ⟨hplain other hother, hnone [other] (List.cons_ne_nil _ _),
        copyEntry_copies (hnames other hother) fun hbelow =>
          ih hbelow (hapart.child hwalk hnode hother)⟩
    obtain ⟨hgrows, hkept⟩ := @copyEntries_grows _ source _ _ _ _ (copyTree_grows depth)
      (hmade.sound hsound) (hmade.walk hroom.walk_extend) hself hlinks hplain
    refine ⟨hresult, fun below hbelow => ?_⟩
    cases below with
    | nil =>
      rw [List.append_nil, Path.extend_nil, stat_of_walk hwalk, hnode]
      exact hgrows.directories _ hself
    | cons first rest =>
      by_cases hfirst : first ∈ disk.names location
      · have hentry := hcopied first hfirst rest fun other hother =>
          hbelow other (List.mem_cons_of_mem _ hother)
        rw [Path.child_of_plain (hplain first hfirst), Path.extend_extend,
          List.append_assoc] at hentry
        exact hentry
      · rw [stat_extend_of_not_mem_names hwalk hnode hfirst hbelow]
        refine (hkept _ fun other hother => ?_).trans (hnone _ (List.cons_ne_nil _ _))
        rw [List.prefix_append_right_inj, List.cons_prefix_cons]
        exact fun hprefix' => hfirst (hprefix'.1 ▸ hother)

/-! ## What a copy that returns has seen -/

theorem exists_file_of_copyFile (hresult : (ends (copyFile source path) now).2 = .ok ()) :
    ∃ bytes, now.stat source = some (.file bytes) := by
  unfold ends copyFile at hresult
  dsimp only at hresult
  split at hresult
  next bytes _ hstat _ => exact ⟨bytes, hstat⟩
  · cases hresult

theorem exists_file_of_copy2 (hresult : (ends (copy2 source path) now).2 = .ok ()) :
    ∃ bytes, now.stat source = some (.file bytes) := by
  rw [copy2, ends_isDir_bind] at hresult
  split at hresult
  · exact exists_file_of_copyFile hresult
  · exact exists_file_of_copyFile hresult

theorem SameContent.child (hsame : SameContent disk path last path) (hname : Plain name) :
    SameContent disk (path.child name) last (path.child name) := by
  intro way hway
  rw [Path.child_of_plain hname, Path.extend_extend]
  exact hsame _ (List.forall_mem_cons.mpr ⟨hname, hway⟩)

theorem SameContent.stat {path' : Path} (hsame : SameContent disk path last path') :
    last.stat path' = disk.stat path := by
  simpa using hsame [] fun _ hname => nomatch hname

/-- Copies of the source that return, and after which it still shows what it showed at the
start, have found it readable. -/
def Shows (disk : Disk) (place : Location) (last : Disk) (depth : ℕ) (source : Path) : Prop :=
  ∀ ⦃dir base name now⦄, Underway disk place now → Room now dir base name →
    place <+: base ++ [name] → (ends (copyTree depth source (dir.extend [name])) now).2 = .ok () →
    Grows [] (ends (copyTree depth source (dir.extend [name])) now).1 last →
    disk.readable depth source = true

/-- An entry that has been copied, and shows what it showed, can be read. -/
theorem readableEntry_of_copyEntry (hunder : Underway disk place now)
    (hroom : Room now dir base name) (hbelow : place <+: base ++ [name])
    (hsame : SameContent disk source last source)
    (hshows : disk.stat source = some .directory → Shows disk place last depth source)
    (hrun : Grows [] now (ends (copyEntry (copyTree depth) source (dir.extend [name])) now).1)
    (hresult : (ends (copyEntry (copyTree depth) source (dir.extend [name])) now).2 = .ok ())
    (hlater : Grows [] (ends (copyEntry (copyTree depth) source (dir.extend [name])) now).1 last) :
    ReadableEntry disk depth source := by
  by_cases hstat : now.stat source = some .directory
  · have hstart : disk.stat source = some .directory :=
      hsame.stat ▸ (hrun.trans hlater).stat_directory hstat
    rw [copyEntry, ends_isDir_bind, decide_eq_true hstat] at hresult hlater
    exact Or.inl ⟨hstart, hshows hstart hunder hroom hbelow hresult hlater⟩
  · have hlast : (now.stat source).isSome → (last.stat source).isSome :=
      (hrun.trans hlater).stat_isSome
    rw [copyEntry, ends_isDir_bind, decide_eq_false hstat] at hresult
    obtain ⟨bytes, hbytes⟩ := exists_file_of_copy2 hresult
    have hstart : (disk.stat source).isSome := by
      rw [← hsame.stat]
      exact hlast (by rw [hbytes]; rfl)
    -- What was there at the start is there now, and it is no directory.
    obtain ⟨node, hnode⟩ := Option.isSome_iff_exists.mp hstart
    cases node with
    | directory => exact absurd (hunder.grows.stat_directory hnode) hstat
    | file bytes' => exact Or.inr ⟨bytes', hnode⟩

theorem readableEntry_of_copyEntries (hunder : Underway disk place now)
    (hbelow : place <+: location) (hwalk : now.walk dir = some (location, none))
    (hnode : now.nodeAt location = some .directory)
    (hlinks : ∀ way, now.links.get (location ++ way) = none)
    (hentries : ∀ name ∈ names, Plain name ∧
      SameContent disk (source.child name) last (source.child name) ∧
      (disk.stat (source.child name) = some .directory →
        Shows disk place last depth (source.child name)))
    (hresult : (ends (copyEntries (copyTree depth) source dir names) now).2 = .ok ())
    (hlater : Grows [] (ends (copyEntries (copyTree depth) source dir names) now).1 last) :
    ∀ name ∈ names, ReadableEntry disk depth (source.child name) := by
  induction names generalizing now with
  | nil => exact fun _ hname => nomatch hname
  | cons name rest ih =>
    obtain ⟨hplain, hsame, hshows⟩ := hentries name List.mem_cons_self
    have hroom : Room now dir location name := ⟨hwalk, hnode, hplain, hlinks [name]⟩
    have hsound := hunder.grows.sound hunder.sound
    have htarget : dir.child name = dir.extend [name] := Path.child_of_plain hplain
    have hfirst := copyEntry_grows_of_room source depth hsound hroom hplain hlinks
    rw [ends_copyEntries_cons, htarget] at hresult hlater
    have hentry := readableEntry_of_copyEntry hunder hroom
      (hbelow.trans (List.prefix_append _ _)) hsame hshows hfirst.anywhere
    generalize ends (copyEntry (copyTree depth) (source.child name) (dir.extend [name])) now = first
      at hresult hlater hfirst hentry
    obtain ⟨after, result⟩ := first
    cases result with
    | error raised => cases hresult
    | ok _ =>
      have hlinks'' : ∀ below, after.links.get (location ++ below) = none := by
        rw [hfirst.links.links]
        exact hlinks
      have hnode' := hfirst.directories _ hnode
      have hrest : ∀ other ∈ rest, Plain other := fun other hother =>
        (hentries other (List.mem_cons_of_mem _ hother)).1
      have hothers := (@copyEntries_grows _ source _ _ _ _ (copyTree_grows depth)
        (hfirst.sound hsound) (hfirst.walk hwalk) hnode' hlinks'' hrest).1
      have hunder' : Underway disk place after :=
        ⟨hunder.sound, hunder.new, hunder.grows.trans (hfirst.above.of_below hbelow)⟩
      exact List.forall_mem_cons.mpr ⟨hentry rfl (hothers.anywhere.trans hlater),
        ih hunder' (hfirst.walk hwalk) hnode' hlinks''
          (fun other hother => hentries other (List.mem_cons_of_mem _ hother)) hresult hlater⟩

theorem shows_of_sameContent (hapart : disk.Apart depth source place)
    (hsame : SameContent disk source last source) (hstat : disk.stat source = some .directory) :
    Shows disk place last depth source := by
  induction depth generalizing source with
  | zero =>
    intro dir base name now _ _ _ hresult
    cases hresult
  | succ depth ih =>
    intro dir base name now hunder hroom hbelow hresult hlater
    obtain ⟨location, hwalk, hnode⟩ := exists_walk_of_stat hstat
    have hnames := hapart.keeps_names hunder.sound hunder.grows hunder.new hwalk hnode
    rcases @ends_copyTree_cases now dir source base name depth hroom with hstopped | hbegins
    · rw [hstopped] at hresult
      cases hresult
    · obtain ⟨_, _, _, hfree⟩ := hbegins
      have hmade := grows_withDirectory hroom hfree
      rw [ends_copyTree_succ hroom hfree (hunder.grows.walk hwalk)
        (hunder.grows.directories _ hnode), hnames] at hresult hlater
      have hunder' : Underway disk place (withDirectory now (base ++ [name])) :=
        ⟨hunder.sound, hunder.new, hunder.grows.trans (hmade.of_below hbelow)⟩
      have hlinks := links_below (hunder.grows.sound hunder.sound) hroom hfree
      refine readable_succ_iff.mpr ⟨location, hwalk, hnode, ?_⟩
      apply readableEntry_of_copyEntries hunder' hbelow (hmade.walk hroom.walk_extend)
        (nodeAt_withDirectory_self now base name) hlinks _ hresult hlater
      intro other hother
      have hplain := hunder.sound.plain hother
      exact ⟨hplain, hsame.child hplain,
        ih (hapart.child hwalk hnode hother) (hsame.child hplain)⟩

/-! ## Entries in the source -/

theorem exists_extend_of_mem_below (hsound : disk.Sound) {entered : Path}
    (hentered : entered ∈ disk.below depth path) :
    ∃ way, (∀ name ∈ way, Plain name) ∧ entered = path.extend way := by
  induction depth generalizing path with
  | zero => exact ⟨[], by simp, by simpa [below] using hentered⟩
  | succ depth ih =>
    unfold below at hentered
    rcases List.mem_cons.mp hentered with hself | hlower
    · exact ⟨[], by simp, by simpa using hself⟩
    · split at hlower
      · split at hlower
        · obtain ⟨name, hname, hmem⟩ := List.mem_flatMap.mp hlower
          obtain ⟨way, hway, hextend⟩ := ih hmem
          have hplain := hsound.plain hname
          refine ⟨name :: way, List.forall_mem_cons.mpr ⟨hplain, hway⟩, ?_⟩
          rw [hextend, Path.child_of_plain hplain, Path.extend_extend]
          rfl
        · cases hlower
      · cases hlower

/-- A source shows other content once there is an entry in a directory that a walk below it
enters. -/
theorem apart_of_sameContent (hsound : disk.Sound) (hgrows : Grows [] disk last)
    (hnew : disk.nodeAt place = none) (hmade : (last.nodeAt place).isSome)
    (hsame : SameContent disk path last path) : disk.Apart depth path place := by
  intro entered hentered location hwalk hnode ⟨way, hway⟩
  obtain ⟨first, hfirst, rfl⟩ := exists_extend_of_mem_below hsound hentered
  have hlast := hgrows.sound hsound
  subst hway
  have hplain := hlast.plain_of_nodeAt hmade
  have hlinks : ∀ init, init ≠ [] → init <+: way → last.links.get (location ++ init) = none := by
    intro init _ ⟨rest, hrest⟩
    rw [← hrest, ← List.append_assoc] at hmade
    exact hlast.links_above hmade
  have hnow := stat_extend_eq_nodeAt hlast (hgrows.walk hwalk) hlinks hplain
  have hstart := stat_extend_eq_nodeAt hsound hwalk (hgrows.links.links ▸ hlinks) hplain
  have hshown := hsame (first ++ way) (List.forall_mem_append.mpr ⟨hfirst, hplain⟩)
  rw [Path.extend_extend] at hnow hstart
  rw [hnow, hstart, hnew] at hshown
  rw [hshown] at hmade
  cases hmade

/-- What the source shows in the end, as at the start, it has shown before the copy began. -/
theorem SameContent.before {ready : Disk} (hready : Grows [] disk ready) (hsound : ready.Sound)
    (hgrows : Grows place ready last) (hnew : ready.nodeAt place = none)
    (hsame : SameContent disk path last path) : SameContent disk path ready path := by
  intro way hway
  rw [← hsame way hway]
  cases hstat : ready.stat (path.extend way) with
  | some node => exact (hgrows.stat hsound hnew hstat).symm
  | none =>
    have hstart : disk.stat (path.extend way) = none := by
      rw [← Option.not_isSome_iff_eq_none]
      intro hsome
      have hnow := hready.stat_isSome hsome
      rw [hstat] at hnow
      cases hnow
    rw [hsame way hway, hstart]

theorem SameContent.trans {path' path'' : Path} (hfirst : SameContent disk path other path')
    (hsecond : SameContent other path' last path'') : SameContent disk path last path'' :=
  fun way hway => (hsecond way hway).trans (hfirst way hway)

theorem SameContent.symm {path' : Path} (hsame : SameContent disk path other path') :
    SameContent other path' disk path :=
  fun way hway => (hsame way hway).symm

/-- A new directory with what has been copied to it shows the content of the source. -/
theorem sameContent_of_copied (hsound : now.Sound) (hroom : Room now dir base name)
    (hfree : now.nodeAt (base ++ [name]) = none) (hgrows : Grows (base ++ [name]) now last)
    (hcopied : Copied now source last (base ++ [name])) :
    SameContent now source last (dir.extend [name]) := by
  intro way hway
  rw [← hcopied way hway]
  apply stat_extend_eq_nodeAt (hgrows.sound hsound) (hroom.grows hgrows).walk_extend _ hway
  intro first _ _
  rw [hgrows.links.links]
  exact links_below hsound hroom hfree first

end Disk

end DbtCraft.Python
