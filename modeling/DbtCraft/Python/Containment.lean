/-
# What a file operation touches

An operation stays within a set of locations when all of its calls do. Links do not change
while directories are made, so where a path leads, and what making its parents touches, can
be read off the disk before the operation.
-/

import DbtCraft.Python.FileOp

namespace DbtCraft.Python.FileOp

variable {α β : Type} {allowed : Location → Prop} {disk : Disk} {path : Path}

/-- Every location that the operation touches is allowed. -/
def Within (allowed : Location → Prop) (op : FileOp α) (disk : Disk) : Prop :=
  ∀ location ∈ (op disk).touched, allowed location

/-- A path leads to an allowed location, if it leads anywhere. -/
def Leads (allowed : Location → Prop) (disk : Disk) (path : Path) : Prop :=
  ∀ location, disk.resolve path = some location → allowed location

/-- The entry that a path names is allowed. -/
def Names (allowed : Location → Prop) (disk : Disk) (path : Path) : Prop :=
  ∀ location, disk.entry path = some location → allowed location

/-! ## Sequences -/

theorem within_pure (value : α) : Within allowed (pure value : FileOp α) disk :=
  fun _ hlocation => nomatch hlocation

theorem within_raise (raised : Raised) : Within allowed (raise raised : FileOp α) disk :=
  fun _ hlocation => nomatch hlocation

/-- A sequence stays within a set when its first step does, and the rest does after it. -/
theorem within_bind_iff {op : FileOp α} {next : α → FileOp β} :
    Within allowed (op >>= next) disk ↔ Within allowed op disk ∧
      ∀ value, (op disk).result = .ok value → Within allowed (next value) (op disk).disk := by
  show Within allowed (FileOp.bind op next) disk ↔ _
  unfold Within FileOp.bind
  cases hresult : (op disk).result with
  | error raised => simp
  | ok value => simp [or_imp, forall_and]

theorem within_exceptOsError_iff {op : FileOp α} {handler : String → Raised} :
    Within allowed (exceptOsError op handler) disk ↔ Within allowed op disk := by
  unfold Within exceptOsError
  split
  · rfl
  · rfl

theorem within_ite_iff {condition : Prop} [Decidable condition] {op other : FileOp α} :
    Within allowed (if condition then op else other) disk ↔
      (condition → Within allowed op disk) ∧ (¬ condition → Within allowed other disk) := by
  split
  next hcondition => simp [hcondition]
  next hcondition => simp [hcondition]

theorem forall_mem_toList {found : Option Location} :
    (∀ location ∈ found.toList, allowed location) ↔
      ∀ location, found = some location → allowed location := by
  simp

/-- A question touches the file that its path leads to. -/
theorem within_look_bind_iff {answer : Disk → Except Raised α} {next : α → FileOp β} :
    Within allowed (look path answer >>= next) disk ↔ Leads allowed disk path ∧
      ∀ value, answer disk = .ok value → Within allowed (next value) disk := by
  rw [within_bind_iff]
  unfold Within look Leads
  rw [forall_mem_toList]

theorem within_pathExists_bind_iff {next : Bool → FileOp β} :
    Within allowed (pathExists path >>= next) disk ↔ Leads allowed disk path ∧
      Within allowed (next (disk.stat path).isSome) disk := by
  unfold pathExists
  rw [within_look_bind_iff]
  simp

theorem within_pathExists_iff {yes no : FileOp α} :
    Within allowed (do if ← pathExists path then yes else no) disk ↔ Leads allowed disk path ∧
      ((disk.stat path).isSome → Within allowed yes disk) ∧
      ((disk.stat path).isNone → Within allowed no disk) := by
  rw [within_pathExists_bind_iff]
  cases disk.stat path with
  | none => simp
  | some node => simp

/-- The path leads to a directory. -/
def IsDirectory (disk : Disk) (path : Path) : Prop := disk.stat path = some .directory

instance (disk : Disk) (path : Path) : Decidable (IsDirectory disk path) :=
  inferInstanceAs (Decidable (_ = _))

theorem within_isDir_bind_iff {next : Bool → FileOp β} :
    Within allowed (isDir path >>= next) disk ↔ Leads allowed disk path ∧
      (IsDirectory disk path → Within allowed (next true) disk) ∧
      (¬ IsDirectory disk path → Within allowed (next false) disk) := by
  unfold isDir
  rw [within_look_bind_iff]
  unfold IsDirectory
  rcases disk.stat path with _ | _ | bytes
  · simp
  · simp
  · simp

theorem within_isDir_iff {yes no : FileOp β} :
    Within allowed (do if ← isDir path then yes else no) disk ↔ Leads allowed disk path ∧
      (IsDirectory disk path → Within allowed yes disk) ∧
      (¬ IsDirectory disk path → Within allowed no disk) := by
  rw [within_isDir_bind_iff, if_pos rfl, if_neg Bool.false_ne_true]

/-! ## Disks with the same links -/

/-- Paths lead to the same locations on both disks. -/
structure SameLinks (own other : Disk) : Prop where
  cwd : other.cwd = own.cwd
  links : other.links = own.links

theorem SameLinks.refl (disk : Disk) : SameLinks disk disk := ⟨rfl, rfl⟩

theorem SameLinks.trans {first second third : Disk} (hfirst : SameLinks first second)
    (hsecond : SameLinks second third) : SameLinks first third :=
  ⟨hsecond.cwd.trans hfirst.cwd, hsecond.links.trans hfirst.links⟩

variable {own other : Disk}

/-- A walk up to the first link depends on the links alone. -/
theorem SameLinks.advance (hsame : SameLinks own other) (location : Location)
    (fault fault' : Option Fault) (parts : List String) :
    (other.advance location fault' parts).1 = (own.advance location fault parts).1 ∧
      (other.advance location fault' parts).2.2 = (own.advance location fault parts).2.2 := by
  induction parts generalizing location fault fault' with
  | nil => exact ⟨rfl, rfl⟩
  | cons part rest ih =>
    unfold Disk.advance
    rw [hsame.links]
    split
    · exact ih _ _ _
    · split
      · exact ⟨rfl, rfl⟩
      · exact ih _ _ _

theorem SameLinks.follow (hsame : SameLinks own other) (budget : ℕ) (location : Location)
    (fault fault' : Option Fault) (parts : List String) :
    (other.follow budget location fault' parts).map (·.1) =
      (own.follow budget location fault parts).map (·.1) := by
  induction budget generalizing location fault fault' parts with
  | zero =>
    obtain ⟨hlast, hlink⟩ := hsame.advance location fault fault' parts
    unfold Disk.follow
    generalize own.advance location fault parts = step at hlast hlink ⊢
    generalize other.advance location fault' parts = step' at hlast hlink ⊢
    obtain ⟨last, left, link⟩ := step
    obtain ⟨last', left', link'⟩ := step'
    cases hlast
    cases hlink
    cases link with
    | none => rfl
    | some link => rfl
  | succ budget ih =>
    obtain ⟨hlast, hlink⟩ := hsame.advance location fault fault' parts
    unfold Disk.follow
    generalize own.advance location fault parts = step at hlast hlink ⊢
    generalize other.advance location fault' parts = step' at hlast hlink ⊢
    obtain ⟨last, left, link⟩ := step
    obtain ⟨last', left', link'⟩ := step'
    cases hlast
    cases hlink
    cases link with
    | none => rfl
    | some link => exact ih _ _ _ _

theorem SameLinks.resolve (hsame : SameLinks own other) (path : Path) :
    other.resolve path = own.resolve path := by
  unfold Disk.resolve Disk.walk
  split
  · rfl
  · rw [hsame.cwd]
    exact hsame.follow _ _ _ _ _

theorem SameLinks.entry (hsame : SameLinks own other) (path : Path) :
    other.entry path = own.entry path := by
  unfold Disk.entry
  rw [hsame.resolve, hsame.resolve]

theorem SameLinks.leads_iff (hsame : SameLinks own other) :
    Leads allowed other path ↔ Leads allowed own path := by
  unfold Leads
  rw [hsame.resolve]

theorem SameLinks.names_iff (hsame : SameLinks own other) :
    Names allowed other path ↔ Names allowed own path := by
  unfold Names
  rw [hsame.entry]

/-! ## Making directories -/

/-- The operation changes no link. -/
def KeepsLinks (op : FileOp α) : Prop := ∀ disk, SameLinks disk (op disk).disk

theorem keepsLinks_pure (value : α) : KeepsLinks (pure value : FileOp α) := SameLinks.refl

theorem keepsLinks_raise (raised : Raised) : KeepsLinks (raise raised : FileOp α) := SameLinks.refl

theorem keepsLinks_bind {op : FileOp α} {next : α → FileOp β} (hop : KeepsLinks op)
    (hnext : ∀ value, KeepsLinks (next value)) : KeepsLinks (op >>= next) := by
  intro disk
  show SameLinks disk (FileOp.bind op next disk).disk
  unfold FileOp.bind
  split
  next value _ => exact (hop disk).trans (hnext value _)
  · exact hop disk

theorem keepsLinks_mkdir (existOk : Bool) (path : Path) : KeepsLinks (mkdir existOk path) := by
  intro disk
  unfold mkdir
  split
  next after hmade =>
    unfold Disk.mkdir at hmade
    split at hmade
    · cases hmade
    · split at hmade
      · cases hmade
      · cases hmade
      · dsimp only at hmade
        split at hmade
        · cases hmade
        · cases hmade
          exact ⟨rfl, rfl⟩
  · exact SameLinks.refl disk
  · exact SameLinks.refl disk

theorem keepsLinks_mkdirParts (absolute existOk : Bool) (parts : List String) :
    KeepsLinks (mkdirParts absolute parts existOk) := by
  induction parts generalizing existOk with
  | nil =>
    apply keepsLinks_bind (keepsLinks_mkdir _ _)
    intro there
    split
    · exact keepsLinks_pure ()
    · exact keepsLinks_raise _
  | cons part rest ih =>
    apply keepsLinks_bind (keepsLinks_mkdir _ _)
    intro there
    split
    · exact keepsLinks_pure ()
    · apply keepsLinks_bind (ih true)
      intro _
      apply keepsLinks_bind (keepsLinks_mkdir _ _)
      intro there
      split
      · exact keepsLinks_pure ()
      · exact keepsLinks_raise _

theorem keepsLinks_mkdirParents (existOk : Bool) (path : Path) :
    KeepsLinks (mkdirParents existOk path) := keepsLinks_mkdirParts _ _ _

/-- An entry that is made is allowed, and so is what an older link there leads to. -/
def MakesEntry (allowed : Location → Prop) (disk : Disk) (path : Path) : Prop :=
  Names allowed disk path ∧ Leads allowed disk path

/-- The directories that making a path comes to: the path, and its ancestors up to the
first one whose parent is there. -/
def toMakeParts (disk : Disk) (absolute : Bool) : List String → List Path
  | [] => [⟨absolute, []⟩]
  | part :: rest =>
    ⟨absolute, (part :: rest).reverse⟩ ::
      match disk.mkdir ⟨absolute, (part :: rest).reverse⟩ with
      | .missing => toMakeParts disk absolute rest
      | _ => []

def toMake (disk : Disk) (path : Path) : List Path :=
  toMakeParts disk path.absolute path.parts.reverse

theorem SameLinks.makesEntry_iff (hsame : SameLinks own other) :
    MakesEntry allowed other path ↔ MakesEntry allowed own path :=
  and_congr hsame.names_iff hsame.leads_iff

theorem forall_entryTouched_iff :
    (∀ location ∈ entryTouched disk path, allowed location) ↔ MakesEntry allowed disk path := by
  unfold entryTouched MakesEntry Names Leads
  rw [List.forall_mem_append, forall_mem_toList, forall_mem_toList]

theorem within_mkdir_iff {existOk : Bool} :
    Within allowed (mkdir existOk path) disk ↔ MakesEntry allowed disk path := by
  rw [← forall_entryTouched_iff]
  unfold Within mkdir
  split
  · rfl
  · rfl
  · rfl

/-- The parent of a path is missing exactly when `mkdir` says so, and then nothing has
changed. -/
theorem mkdir_of_missing {existOk : Bool} (hmissing : disk.mkdir path = .missing) :
    mkdir existOk path disk = ⟨disk, entryTouched disk path, .ok false⟩ := by
  unfold mkdir
  rw [hmissing]

theorem missing_of_mkdir {existOk : Bool} (hresult : (mkdir existOk path disk).result = .ok false) :
    disk.mkdir path = .missing := by
  unfold mkdir at hresult
  split at hresult
  · cases hresult
  · assumption
  · dsimp only at hresult
    split at hresult
    · cases hresult
    · cases hresult

theorem within_mkdirParts_iff {absolute existOk : Bool} {parts : List String} :
    Within allowed (mkdirParts absolute parts existOk) disk ↔
      ∀ made ∈ toMakeParts disk absolute parts, MakesEntry allowed disk made := by
  induction parts generalizing existOk with
  | nil =>
    unfold mkdirParts toMakeParts
    rw [within_bind_iff, within_mkdir_iff, List.forall_mem_singleton]
    apply and_iff_left
    intro there _
    rw [within_ite_iff]
    exact ⟨fun _ => within_pure _, fun _ => within_raise _⟩
  | cons part rest ih =>
    unfold mkdirParts toMakeParts
    rw [within_bind_iff, within_mkdir_iff, List.forall_mem_cons]
    apply and_congr_right
    intro hentry
    constructor
    · intro h
      split
      next hmissing =>
        have hlater := h false (by rw [mkdir_of_missing hmissing])
        rw [within_ite_iff, mkdir_of_missing hmissing] at hlater
        exact ih.mp (within_bind_iff.mp (hlater.2 Bool.false_ne_true)).1
      · exact fun _ hmade => nomatch hmade
    · intro h there hresult
      rw [within_ite_iff]
      refine ⟨fun _ => within_pure _, ?_⟩
      intro hthere
      rw [Bool.not_eq_true] at hthere
      subst hthere
      have hmissing := missing_of_mkdir hresult
      rw [hmissing] at h
      rw [mkdir_of_missing hmissing, within_bind_iff]
      refine ⟨ih.mpr h, ?_⟩
      intro _ _
      have hsame := keepsLinks_mkdirParts absolute true rest disk
      rw [within_bind_iff, within_mkdir_iff, hsame.makesEntry_iff]
      refine ⟨hentry, ?_⟩
      intro there _
      rw [within_ite_iff]
      exact ⟨fun _ => within_pure _, fun _ => within_raise _⟩

/-- Making a directory with its parents touches the directories that are missing. -/
theorem within_mkdirParents_iff {existOk : Bool} :
    Within allowed (mkdirParents existOk path) disk ↔
      ∀ made ∈ toMake disk path, MakesEntry allowed disk made := within_mkdirParts_iff

/-! ## Changing files -/

/-- What lies below an allowed location is allowed. -/
def Closed (allowed : Location → Prop) : Prop :=
  ∀ location below, allowed location → location <+: below → allowed below

theorem leads_iff_of_walk {location : Location} {fault : Option Fault}
    (hwalk : disk.walk path = some (location, fault)) :
    Leads allowed disk path ↔ allowed location := by
  unfold Leads Disk.resolve
  rw [hwalk]
  simp

theorem within_writeText_iff {text : String} :
    Within allowed (writeText path text) disk ↔ Leads allowed disk path := by
  unfold Within writeText
  split
  next location hwalk =>
    rw [leads_iff_of_walk hwalk]
    split
    · exact List.forall_mem_singleton
    · exact List.forall_mem_singleton
  · exact forall_mem_toList

theorem within_unlink_iff : Within allowed (unlink path) disk ↔ Names allowed disk path := by
  unfold Within unlink Names
  split
  next location hentry => simp [hentry]
  next hentry => simp [hentry]

theorem under_allowed {location : Location} (hclosed : Closed allowed) (hlocation : allowed location) :
    ∀ entry ∈ under disk location, allowed entry := by
  intro entry hentry
  exact hclosed _ _ hlocation (of_decide_eq_true (List.mem_filter.mp hentry).2)

/-- A tree that is removed lies below its own entry. -/
theorem within_rmtree_iff (hclosed : Closed allowed) (hleads : Leads allowed disk path) :
    Within allowed (rmtree path) disk ↔ Names allowed disk path := by
  unfold Within rmtree Names
  dsimp only
  split
  next location _ hlocation =>
    have hbelow : ∀ entry ∈ location :: under disk location, allowed entry :=
      List.forall_mem_cons.mpr ⟨hleads _ hlocation, under_allowed hclosed (hleads _ hlocation)⟩
    rw [List.forall_mem_append, forall_mem_toList]
    exact and_iff_left hbelow
  · exact forall_mem_toList

/-- The entries of a rename are allowed. -/
def RenameStays (allowed : Location → Prop) (disk : Disk) (source target : Path) : Prop :=
  Names allowed disk source ∧ Names allowed disk target ∧ Leads allowed disk source

theorem within_rename_iff {source target : Path} (hclosed : Closed allowed) :
    Within allowed (rename source target) disk ↔ RenameStays allowed disk source target := by
  have htouched : (∀ location ∈ (disk.entry source).toList ++ (disk.entry target).toList ++
      (disk.resolve source).toList, allowed location) ↔ RenameStays allowed disk source target := by
    rw [List.forall_mem_append, List.forall_mem_append, forall_mem_toList, forall_mem_toList,
      forall_mem_toList, and_assoc]
    rfl
  unfold Within rename
  dsimp only
  split
  next old new hold hnew =>
    split
    · exact htouched
    · split
      · exact htouched
      · rw [List.forall_mem_append, htouched]
        apply and_iff_left_of_imp
        exact fun h => under_allowed hclosed (h.1 _ hold)
  · exact htouched

/-- Both paths lead to one file, and the first is no link. -/
def SameFile (disk : Disk) (source target : Path) : Prop :=
  disk.resolve source = disk.resolve target ∧ disk.isLink source = false

instance (source target : Path) : Decidable (SameFile disk source target) :=
  inferInstanceAs (Decidable (_ ∧ _))

/-- The locations of a move are allowed. -/
def MoveStays (allowed : Location → Prop) (disk : Disk) (source target : Path) : Prop :=
  Leads allowed disk target ∧
  (IsDirectory disk target → Leads allowed disk source ∧
    (SameFile disk source target → RenameStays allowed disk source target) ∧
    (¬ SameFile disk source target → Leads allowed disk (target.child source.name) ∧
      ((disk.stat (target.child source.name)).isNone →
        RenameStays allowed disk source (target.child source.name)))) ∧
  (¬ IsDirectory disk target → RenameStays allowed disk source target)

theorem within_move_iff {source target : Path} (hclosed : Closed allowed) :
    Within allowed (move source target) disk ↔ MoveStays allowed disk source target := by
  unfold move MoveStays
  rw [within_isDir_iff]
  apply and_congr_right
  intro _
  rw [within_rename_iff hclosed]
  apply and_congr_left
  intro _
  apply imp_congr_right
  intro _
  rw [within_look_bind_iff]
  apply and_congr_right
  intro _
  by_cases hsame : SameFile disk source target
  · have hanswer : decide (disk.resolve source = disk.resolve target ∧
        disk.isLink source = false) = true := decide_eq_true hsame
    simp only [hanswer, Except.ok.injEq, forall_eq', if_true]
    rw [within_rename_iff hclosed]
    simp [hsame]
  · have hanswer : decide (disk.resolve source = disk.resolve target ∧
        disk.isLink source = false) = false := decide_eq_false hsame
    simp only [hanswer, Except.ok.injEq, forall_eq', Bool.false_eq_true, if_false]
    rw [within_pathExists_iff, within_rename_iff hclosed]
    simp [hsame, within_raise]

/-- The locations of a copy of a file are allowed. -/
def CopyFileStays (allowed : Location → Prop) (disk : Disk) (source target : Path) : Prop :=
  Leads allowed disk source ∧ Leads allowed disk target

theorem within_copyFile_iff {source target : Path} :
    Within allowed (copyFile source target) disk ↔ CopyFileStays allowed disk source target := by
  have htouched : (∀ location ∈ (disk.resolve source).toList ++ (disk.resolve target).toList,
      allowed location) ↔ CopyFileStays allowed disk source target := by
    rw [List.forall_mem_append, forall_mem_toList, forall_mem_toList]
    rfl
  rw [← htouched]
  unfold Within copyFile
  dsimp only
  split
  · split
    · rfl
    · split_ifs
      · rfl
      · rfl
  · rfl

/-- The locations of a copy into a place or a directory are allowed. -/
def CopyStays (allowed : Location → Prop) (disk : Disk) (source target : Path) : Prop :=
  Leads allowed disk target ∧ Leads allowed disk source ∧
    (IsDirectory disk target → Leads allowed disk (target.child source.name))

theorem within_copy2_iff {source target : Path} :
    Within allowed (copy2 source target) disk ↔ CopyStays allowed disk source target := by
  unfold copy2 CopyStays
  rw [within_isDir_iff, within_copyFile_iff, within_copyFile_iff]
  unfold CopyFileStays
  constructor
  · intro ⟨htarget, hinto, hplain⟩
    by_cases hdirectory : IsDirectory disk target
    · exact ⟨htarget, (hinto hdirectory).1, fun _ => (hinto hdirectory).2⟩
    · exact ⟨htarget, (hplain hdirectory).1, fun h => absurd h hdirectory⟩
  · intro ⟨htarget, hsource, hinto⟩
    exact ⟨htarget, fun h => ⟨hsource, hinto h⟩, fun _ => ⟨hsource, htarget⟩⟩

/-- The locations of a copy of a tree are allowed: those of the tree, through links, and the
new directory. -/
def CopytreeStays (allowed : Location → Prop) (disk : Disk) (source target : Path) : Prop :=
  (Leads allowed disk target.parent ∧ MakesEntry allowed disk target) ∧
  match disk.mkdir target with
  | .made _ => ∀ path ∈ disk.below disk.depth source, Leads allowed disk path
  | _ => Leads allowed disk source

/-- A directory that is made has an entry. -/
theorem exists_entry_of_made {after : Disk} (hmade : disk.mkdir path = .made after) :
    ∃ location, disk.entry path = some location := by
  unfold Disk.mkdir at hmade
  split at hmade
  · cases hmade
  next base fault hwalk =>
    split at hmade
    · cases hmade
    · cases hmade
    · dsimp only at hmade
      split at hmade
      · cases hmade
      next hfree =>
        have hnames : path.namesEntry = true := by
          by_contra hnames
          exact hfree (.inl (Bool.eq_false_iff.mpr hnames))
        refine ⟨base ++ [path.name], ?_⟩
        unfold Disk.entry Disk.resolve
        rw [if_pos hnames, hwalk]
        rfl

theorem within_copytree_iff {source target : Path} (hclosed : Closed allowed) :
    Within allowed (copytree source target) disk ↔ CopytreeStays allowed disk source target := by
  have hmaking : (∀ location ∈ (disk.resolve target.parent).toList ++ entryTouched disk target,
      allowed location) ↔ Leads allowed disk target.parent ∧ MakesEntry allowed disk target := by
    rw [List.forall_mem_append, forall_mem_toList, forall_entryTouched_iff]
    rfl
  unfold Within copytree CopytreeStays
  rw [← hmaking]
  cases hmade : disk.mkdir target with
  | made after =>
    obtain ⟨base, hbase⟩ := exists_entry_of_made hmade
    dsimp only
    rw [List.forall_mem_append, List.forall_mem_append, hmaking]
    have htree : (∀ location ∈ (disk.below disk.depth source).flatMap
        fun path => (disk.resolve path).toList, allowed location) ↔
        ∀ path ∈ disk.below disk.depth source, Leads allowed disk path := by
      unfold Leads
      simp only [List.mem_flatMap, Option.mem_toList]
      exact ⟨fun h path hpath location hlocation => h location ⟨path, hpath, hlocation⟩,
        fun h location ⟨path, hpath, hlocation⟩ => h path hpath location hlocation⟩
    rw [htree]
    apply and_iff_left_of_imp
    intro ⟨⟨_, hentry, _⟩, _⟩ location hlocation
    -- The copies lie below the new directory.
    obtain ⟨copy, hcopy, rfl⟩ := List.mem_map.mp hlocation
    obtain ⟨path, -, rfl⟩ := List.mem_map.mp hcopy
    rw [hbase]
    exact hclosed _ _ (hentry _ hbase) (List.prefix_append _ _)
  | missing =>
    dsimp only
    rw [List.forall_mem_append, forall_mem_toList, and_comm]
    rfl
  | refused =>
    dsimp only
    rw [List.forall_mem_append, forall_mem_toList, and_comm]
    rfl

end DbtCraft.Python.FileOp
