/-
# Copies of directories

`copy` and `duplicate` of `FileService` with `shutil.copytree` taken entry by entry. `move`
refuses a destination in its source, and these two do not: the copy is exact when neither it
nor a directory that is made for it lies in a directory that the source leads to.
-/

import DbtCraft.Python.CopyTree
import DbtCraft.Services.FileContainment

namespace DbtCraft.Services.DirectoryCopy

open DbtCraft.Python FileOp Disk
open FileService (Project reply findDestination findCopyName finalTarget freePath Valid)

/-! ## The operations -/

section

variable (project : Project)

/-- A walk lists directories down to the depth at which the paths are too long. -/
def copytree (source target : Path) : FileOp Unit := fun disk =>
  copyTree (disk.depth + 1) source target disk

def copyFileOrTree (source target : Path) : FileOp Unit := do
  if ← isDir source then copytree source target else copy2 source target

/-- The end of `copy` and `duplicate`: the copy, and its path in the project. -/
def copyTo (source target : Path) : FileOp String := do
  copyFileOrTree source target
  match target.relativeTo project.getPath with
  | some relative => pure relative.str
  | none => raise (.valueError "the copy is not in the subpath of the project")

/-- `copy`. -/
def copy (sourcePath destPath : String) : FileOp Value := do
  let _ ← project.getPathOrRaise
  if ← pathExists (project.target sourcePath) then
    let source ← project.validateSubpath sourcePath
    let dest ← project.validateSubpath destPath
    let final ← findDestination dest source.name
    if ← pathExists final then raise (.invalidPath ("Path already exists: " ++ destPath))
    else
      exceptOsError (do
          mkdirParents true final.parent
          let copied ← copyTo project source final
          pure (reply [("message", "Copied: " ++ sourcePath ++ " -> " ++ copied),
            ("source_path", sourcePath), ("dest_path", copied)]))
        fun text => .invalidPath ("Cannot copy '" ++ sourcePath ++ "': " ++ text)
  else raise (.fileNotFound sourcePath)

/-- `duplicate`. -/
def duplicate (path : String) : FileOp Value := do
  let _ ← project.getPathOrRaise
  if ← pathExists (project.target path) then
    let source ← project.validateSubpath path
    let folder ← isDir source
    let new ← findCopyName source folder
    let copied ← exceptOsError (copyTo project source new)
      fun text => .invalidPath ("Cannot duplicate '" ++ path ++ "': " ++ text)
    pure (reply [("message", "Duplicated: " ++ path ++ " -> " ++ copied),
      ("original_path", path), ("new_path", copied)])
  else raise (.fileNotFound path)

/-- A request for a copy. -/
inductive Request
  | copy (sourcePath destPath : String)
  | duplicate (path : String)

def run : Request → FileOp Value
  | .copy sourcePath destPath => copy project sourcePath destPath
  | .duplicate path => duplicate project path

/-! ## What a request is about -/

/-- The directory that is copied. -/
def source : Request → Path
  | .copy sourcePath _ => project.target sourcePath
  | .duplicate path => project.target path

variable (disk : Disk)

/-- Where the copy goes. -/
def target : Request → Path
  | .copy sourcePath destPath =>
    finalTarget disk (project.target destPath) (project.target sourcePath).name
  | .duplicate path =>
    freePath disk (project.target path) true (disk.nodes.length + disk.links.length + 1) 1

/-- The request passes the checks that come before the copy. -/
def Passes (request : Request) : Prop :=
  (disk.stat project.getPath).isSome ∧
  match request with
  | .copy sourcePath destPath => Valid project disk sourcePath ∧ Valid project disk destPath ∧
      disk.stat (target project disk (.copy sourcePath destPath)) = none
  | .duplicate path => Valid project disk path

/-- The directories of the destination that are missing are made. -/
def prepare (request : Request) : FileOp Unit :=
  match request with
  | .copy _ _ => mkdirParents true (target project disk request).parent
  | .duplicate _ => pure ()

end

/-! ## Exact copies -/

/-- A request raises before it has created anything, or it leaves the source as it was and its
target with what the source held at the start. -/
def Exact (project : Project) (disk : Disk) (request : Request) : Prop :=
  let after := run project request disk
  ((∃ raised, after.result = .error raised) ∧ after.disk = disk) ∨
  ((∃ value, after.result = .ok value) ∧
    SameContent disk (source project request) after.disk (source project request) ∧
    SameContent disk (source project request) after.disk (target project disk request))

/-- Nothing is created: a check fails, or the target cannot be made and neither has any of its
parents been. -/
def Refused (project : Project) (disk : Disk) (request : Request) : Prop :=
  Passes project disk request →
    let ready := prepare project disk request disk
    ready.disk = disk ∧ (ready.result ≠ .ok () ∨
      ∀ after, ready.disk.mkdir (target project disk request) ≠ .made after)

/-- Once the parents of the copy are made, its source holds what it held and can be read, and
the copy lies in the project and in no directory that a walk through the source enters. -/
structure Fits (project : Project) (disk ready : Disk) (own new : Path) : Prop where
  kept : SameContent disk own ready own
  readable : ready.readable (ready.depth + 1) own = true
  apart : ∀ place, ready.entry new = some place → ready.Apart (ready.depth + 1) own place
  inside : (new.relativeTo project.getPath).isSome

/-- The copy can be made, and lies apart from its source. -/
def Copyable (project : Project) (disk : Disk) (request : Request) : Prop :=
  let ready := prepare project disk request disk
  ready.result = .ok () ∧
    (∃ after, ready.disk.mkdir (target project disk request) = .made after) ∧
    Fits project disk ready.disk (source project request) (target project disk request)

variable {project : Project} {disk : Disk} {request : Request} {α β : Type}

/-! ## How requests end -/

theorem ends_getPathOrRaise_bind (hproject : (disk.stat project.getPath).isSome)
    (next : Path → FileOp β) :
    ends (project.getPathOrRaise >>= next) disk = ends (next project.getPath) disk := by
  rw [Project.getPathOrRaise, bind_assoc, ends_pathExists_bind, if_pos hproject, pure_bind]

theorem ends_getPathOrRaise_bind_of_missing (hproject : ¬ (disk.stat project.getPath).isSome)
    (next : Path → FileOp β) :
    ends (project.getPathOrRaise >>= next) disk =
      (disk, .error (.projectNotFound project.projectId)) := by
  rw [Project.getPathOrRaise, bind_assoc, ends_pathExists_bind, if_neg hproject, ends_bind,
    ends_raise]

theorem ends_validateSubpath_bind {path : String} (hvalid : Valid project disk path)
    (next : Path → FileOp β) :
    ends (project.validateSubpath path >>= next) disk = ends (next (project.target path)) disk := by
  have hends : ends (project.validateSubpath path) disk = (disk, .ok (project.target path)) :=
    congrArg (Prod.mk disk) hvalid
  rw [ends_bind, hends]

theorem ends_validateSubpath_bind_of_not {path : String} (hvalid : ¬ Valid project disk path)
    (next : Path → FileOp β) :
    ∃ raised, ends (project.validateSubpath path >>= next) disk = (disk, .error raised) := by
  cases hresult : (project.validateSubpath path disk).result with
  | ok target =>
    cases FileService.validateSubpath_eq_ok hresult
    exact absurd hresult hvalid
  | error raised =>
    have hends : ends (project.validateSubpath path) disk = (disk, .error raised) :=
      congrArg (Prod.mk disk) hresult
    exact ⟨raised, by rw [ends_bind, hends]⟩

theorem ends_findDestination_bind (dest : Path) (name : String) (next : Path → FileOp β) :
    ends (findDestination dest name >>= next) disk = ends (next (finalTarget disk dest name)) disk := by
  unfold FileService.findDestination FileService.finalTarget
  rw [bind_assoc, ends_pathExists_bind]
  by_cases hdirectory : IsDirectory disk dest
  · have hstat : disk.stat dest = some .directory := hdirectory
    rw [if_pos (by rw [hstat]; rfl), if_pos hdirectory, bind_assoc, ends_isDir_bind,
      decide_eq_true hstat, if_pos rfl, pure_bind]
  · have hstat : disk.stat dest ≠ some .directory := hdirectory
    rw [if_neg hdirectory]
    split
    · rw [bind_assoc, ends_isDir_bind, decide_eq_false hstat, if_neg Bool.false_ne_true,
        pure_bind]
    · rw [pure_bind]

theorem ends_freeName_bind {from' : Path} {folder : Bool} {tries count : ℕ}
    (next : Path → FileOp β) :
    ends (FileService.freeName from' folder tries count >>= next) disk =
      ends (next (freePath disk from' folder tries count)) disk := by
  induction tries generalizing count with
  | zero =>
    rw [FileService.freeName, FileService.freePath, pure_bind]
  | succ tries ih =>
    rw [FileService.freeName, FileService.freePath, bind_assoc, ends_pathExists_bind]
    split
    · exact ih
    · rw [pure_bind]

theorem ends_findCopyName_bind {from' : Path} {folder : Bool} (next : Path → FileOp β) :
    ends (findCopyName from' folder >>= next) disk =
      ends (next (freePath disk from' folder (disk.nodes.length + disk.links.length + 1) 1)) disk := by
  have hname : ends (findCopyName from' folder) disk =
      ends (FileService.freeName from' folder (disk.nodes.length + disk.links.length + 1) 1) disk :=
    rfl
  rw [ends_bind, hname, ← ends_bind, ends_freeName_bind]

/-- An operation ends as another one when it leaves the same disk, and returns when it does. -/
def EndsAs (own : Disk × Except Raised α) (other : Disk × Except Raised β) : Prop :=
  own.1 = other.1 ∧ ((∃ value, own.2 = .ok value) ↔ ∃ value, other.2 = .ok value)

theorem EndsAs.refl (own : Disk × Except Raised α) : EndsAs own own := ⟨rfl, Iff.rfl⟩

theorem EndsAs.trans {γ : Type} {first : Disk × Except Raised α} {second : Disk × Except Raised β}
    {third : Disk × Except Raised γ} (hfirst : EndsAs first second) (hsecond : EndsAs second third) :
    EndsAs first third :=
  ⟨hfirst.1.trans hsecond.1, hfirst.2.trans hsecond.2⟩

theorem EndsAs.error_iff {own : Disk × Except Raised α} {other : Disk × Except Raised β}
    (hsame : EndsAs own other) : (∃ raised, own.2 = .error raised) ↔ ¬ ∃ value, other.2 = .ok value := by
  rw [← hsame.2]
  cases own.2 with
  | ok value => simp
  | error raised => simp

theorem endsAs_bind_pure (op : FileOp α) (value : α → β) (disk : Disk) :
    EndsAs (ends (op >>= fun result => pure (value result)) disk) (ends op disk) := by
  rw [ends_bind]
  rcases ends op disk with ⟨after, raised | result⟩
  · exact ⟨rfl, by simp⟩
  · exact ⟨rfl, by simp⟩

theorem endsAs_exceptOsError (op : FileOp α) (handler : String → Raised) (disk : Disk) :
    EndsAs (ends (exceptOsError op handler) disk) (ends op disk) := by
  unfold ends exceptOsError
  split
  next hresult => exact ⟨rfl, by simp [hresult]⟩
  · exact EndsAs.refl _

/-- What a request does once it has passed the checks. -/
def attempt (project : Project) (disk : Disk) (request : Request) : FileOp String := do
  prepare project disk request
  copyTo project (source project request) (target project disk request)

theorem endsAs_run (hstat : disk.stat (source project request) = some .directory)
    (hpasses : Passes project disk request) :
    EndsAs (ends (run project request) disk) (ends (attempt project disk request) disk) := by
  obtain ⟨hproject, hchecks⟩ := hpasses
  have hexists : (disk.stat (source project request)).isSome := by
    rw [hstat]
    rfl
  cases request with
  | copy sourcePath destPath =>
    obtain ⟨hsource, hdest, htarget⟩ := hchecks
    have hfound : (disk.stat (project.target sourcePath)).isSome := hexists
    have hfree : ¬ (disk.stat (finalTarget disk (project.target destPath)
        (project.target sourcePath).name)).isSome := Option.not_isSome_iff_eq_none.mpr htarget
    rw [run, copy, ends_getPathOrRaise_bind hproject, ends_pathExists_bind, if_pos hfound,
      ends_validateSubpath_bind hsource, ends_validateSubpath_bind hdest,
      ends_findDestination_bind, ends_pathExists_bind, if_neg hfree]
    apply (endsAs_exceptOsError _ _ _).trans
    rw [← bind_assoc]
    exact endsAs_bind_pure _ _ _
  | duplicate path =>
    have hfolder : disk.stat (project.target path) = some .directory := hstat
    have hfound : (disk.stat (project.target path)).isSome := hexists
    rw [run, duplicate, ends_getPathOrRaise_bind hproject, ends_pathExists_bind, if_pos hfound,
      ends_validateSubpath_bind hchecks, ends_isDir_bind, decide_eq_true hfolder,
      ends_findCopyName_bind]
    apply (endsAs_bind_pure _ _ _).trans
    apply (endsAs_exceptOsError _ _ _).trans
    rw [attempt, prepare, pure_bind]
    exact EndsAs.refl _

theorem ends_run_of_not_passes (hstat : disk.stat (source project request) = some .directory)
    (hpasses : ¬ Passes project disk request) :
    ∃ raised, ends (run project request) disk = (disk, .error raised) := by
  have hexists : (disk.stat (source project request)).isSome := by
    rw [hstat]
    rfl
  by_cases hproject : (disk.stat project.getPath).isSome
  · cases request with
    | copy sourcePath destPath =>
      have hfound : (disk.stat (project.target sourcePath)).isSome := hexists
      rw [run, copy, ends_getPathOrRaise_bind hproject, ends_pathExists_bind, if_pos hfound]
      by_cases hsource : Valid project disk sourcePath
      · rw [ends_validateSubpath_bind hsource]
        by_cases hdest : Valid project disk destPath
        · rw [ends_validateSubpath_bind hdest, ends_findDestination_bind, ends_pathExists_bind]
          have htaken : (disk.stat (finalTarget disk (project.target destPath)
              (project.target sourcePath).name)).isSome := by
            by_contra hfree
            exact hpasses ⟨hproject, hsource, hdest, Option.not_isSome_iff_eq_none.mp hfree⟩
          rw [if_pos htaken]
          exact ⟨_, rfl⟩
        · exact ends_validateSubpath_bind_of_not hdest _
      · exact ends_validateSubpath_bind_of_not hsource _
    | duplicate path =>
      have hfound : (disk.stat (project.target path)).isSome := hexists
      rw [run, duplicate, ends_getPathOrRaise_bind hproject, ends_pathExists_bind,
        if_pos hfound]
      exact ends_validateSubpath_bind_of_not (fun hvalid => hpasses ⟨hproject, hvalid⟩) _
  · refine ⟨.projectNotFound project.projectId, ?_⟩
    cases request with
    | copy sourcePath destPath => exact ends_getPathOrRaise_bind_of_missing hproject _
    | duplicate path => exact ends_getPathOrRaise_bind_of_missing hproject _

/-! ## Targets -/

theorem clean_target (hclean : project.workspaceDir.Clean) (path : String) :
    (project.target path).Clean :=
  (hclean.child _).join (Path.clean_ofString _)

theorem clean_freePath {from' : Path} {folder : Bool} {tries count : ℕ} (hclean : from'.Clean) :
    (freePath disk from' folder tries count).Clean := by
  induction tries generalizing count with
  | zero => exact hclean.parent.child _
  | succ tries ih =>
    rw [FileService.freePath]
    split
    · exact ih
    · exact hclean.parent.child _

theorem nullFree_freePath {from' : Path} {tries count : ℕ} (hnull : from'.NullFree) :
    (freePath disk from' true tries count).NullFree := by
  have hname (count : ℕ) : '\x00' ∉ (FileService.copyName from' true count).toList := by
    unfold FileService.copyName
    dsimp only
    rw [if_pos rfl, String.toList_append, String.toList_append, List.mem_append, List.mem_append,
      not_or, not_or]
    refine ⟨⟨hnull.not_mem_name, by decide⟩, ?_⟩
    split
    · exact List.not_mem_nil
    · intro hmem
      have hdigits : (toString count).toList = Nat.toDigits 10 count := Nat.toList_repr
      rw [hdigits] at hmem
      exact absurd (Nat.isDigit_of_mem_toDigits (by decide) (by decide) hmem) (by decide)
  induction tries generalizing count with
  | zero => exact hnull.parent.child (hname _)
  | succ tries ih =>
    rw [FileService.freePath]
    split
    · exact ih
    · exact hnull.parent.child (hname _)

theorem nullFree_of_valid {path : String} (hvalid : Valid project disk path) :
    (project.target path).NullFree := by
  obtain ⟨location, hresolve, _⟩ := FileService.valid_iff.mp hvalid
  exact nullFree_of_resolve hresolve

/-- The target of a request that passes is a path of names. -/
theorem clean_and_nullFree_target (hclean : project.workspaceDir.Clean)
    (hpasses : Passes project disk request) :
    (target project disk request).Clean ∧ (target project disk request).NullFree := by
  obtain ⟨_, hchecks⟩ := hpasses
  cases request with
  | copy sourcePath destPath =>
    obtain ⟨hsource, hdest, _⟩ := hchecks
    have hclean' := clean_target hclean destPath
    have hnull := nullFree_of_valid hdest
    rw [target, FileService.finalTarget]
    by_cases hdirectory : IsDirectory disk (project.target destPath)
    · rw [if_pos hdirectory]
      exact ⟨hclean'.child _, hnull.child (nullFree_of_valid hsource).not_mem_name⟩
    · rw [if_neg hdirectory]
      exact ⟨hclean', hnull⟩
  | duplicate path =>
    rw [target]
    exact ⟨clean_freePath (clean_target hclean path), nullFree_freePath (nullFree_of_valid hchecks)⟩

theorem adds_prepare (hclean : project.workspaceDir.Clean) (hpasses : Passes project disk request) :
    Adds (prepare project disk request) := by
  obtain ⟨hclean', hnull⟩ := clean_and_nullFree_target hclean hpasses
  cases request with
  | copy sourcePath destPath => exact adds_mkdirParents hclean'.parent hnull.parent true
  | duplicate path => exact adds_pure ()

/-! ## Exactness -/

/-- The end of an attempt on the disk that its preparation leaves. -/
theorem ends_copyTo (project : Project) (new : Path) {ready : Disk} {own : Path} (hstat : ready.stat own = some .directory) :
    EndsAs (ends (copyTo project own new) ready)
      ((ends (copyTree (ready.depth + 1) own new) ready).1,
        (ends (copyTree (ready.depth + 1) own new) ready).2 >>= fun _ =>
          match new.relativeTo project.getPath with
          | some relative => .ok relative.str
          | none => .error (.valueError "the copy is not in the subpath of the project")) := by
  have htree : ends (copyFileOrTree own new) ready =
      ends (copyTree (ready.depth + 1) own new) ready := by
    rw [copyFileOrTree, ends_isDir_bind, decide_eq_true hstat]
    rfl
  rw [copyTo, ends_bind, htree]
  rcases ends (copyTree (ready.depth + 1) own new) ready with ⟨after, raised | value⟩
  · exact EndsAs.refl _
  · cases new.relativeTo project.getPath with
    | none => exact EndsAs.refl _
    | some relative => exact EndsAs.refl _

theorem ends_copyTree_of_not_made {ready : Disk} {own new : Path} {depth : ℕ}
    (hstat : ready.stat own = some .directory) (hmade : ∀ after, ready.mkdir new ≠ .made after) :
    ends (copyTree (depth + 1) own new) ready = (ready, .error .osError) := by
  obtain ⟨location, hwalk, hnode⟩ := exists_walk_of_stat hstat
  rw [copyTree, ends_bind, ends_iterdir hwalk hnode]
  dsimp only
  rw [ends_bind]
  cases hmkdir : ready.mkdir new with
  | made after => exact absurd hmkdir (hmade after)
  | missing =>
    have hends : ends (mkdir false new) ready = (ready, .ok false) := by
      unfold ends FileOp.mkdir
      rw [hmkdir]
    rw [hends]
    rfl
  | refused =>
    have hends : ends (mkdir false new) ready = (ready, .error .osError) := by
      unfold ends FileOp.mkdir
      rw [hmkdir]
    rw [hends]

section

variable {ready : Disk} {own dir : Path} {base : Location} {name : String}

theorem entry_of_room (hroom : Room ready dir base name) :
    ready.entry (dir.extend [name]) = some (base ++ [name]) := by
  unfold entry resolve
  rw [Path.namesEntry_extend hroom.plain, if_pos rfl, Path.parent_extend, hroom.walk,
    Path.name_extend]
  rfl

/-- A copy that has begun has left something. -/
theorem ends_copyTo_ne (hready : Grows [] disk ready) (hsound : ready.Sound)
    (hroom : Room ready dir base name) (hfree : ready.nodeAt (base ++ [name]) = none)
    (hstat : ready.stat own = some .directory) :
    (ends (copyTo project own (dir.extend [name])) ready).1 ≠ disk := by
  intro hsame
  have hmade : (ends (copyTree (ready.depth + 1) own (dir.extend [name])) ready).1.nodeAt
      (base ++ [name]) = some .directory := nodeAt_copyTree hsound hroom hfree hstat
  rw [← (ends_copyTo project _ hstat).1, hsame] at hmade
  have hpresent := hready.present (base ++ [name]) (by rw [hmade]; rfl)
  rw [hfree] at hpresent
  cases hpresent

/-- A copy that fits is exact. -/
theorem exact_of_fits (hsound : ready.Sound) (hroom : Room ready dir base name)
    (hfree : ready.nodeAt (base ++ [name]) = none) (hstat : ready.stat own = some .directory)
    (hfits : Fits project disk ready own (dir.extend [name])) :
    let after := ends (copyTo project own (dir.extend [name])) ready
    (∃ value, after.2 = .ok value) ∧ SameContent disk own after.1 own ∧
      SameContent disk own after.1 (dir.extend [name]) := by
  have hends := ends_copyTo project (dir.extend [name]) hstat
  have hapart := hfits.apart _ (entry_of_room hroom)
  have hgrows : Grows (base ++ [name]) ready
      (ends (copyTree (ready.depth + 1) own (dir.extend [name])) ready).1 :=
    copyTree_grows _ hsound hroom
  have hunder : Underway ready (base ++ [name]) ready := ⟨hsound, hfree, Grows.refl _ _⟩
  obtain ⟨hresult, hcopied⟩ :=
    copyTree_copies hfits.readable hapart hunder hroom List.prefix_rfl hfree
  have hself : SameContent ready own
      (ends (copyTree (ready.depth + 1) own (dir.extend [name])) ready).1 own := fun way hway =>
    stat_extend_of_readable hsound hgrows hfree hfits.readable hapart hway
  obtain ⟨relative, hrelative⟩ := Option.isSome_iff_exists.mp hfits.inside
  rw [hresult, hrelative] at hends
  dsimp only
  rw [hends.1]
  exact ⟨hends.2.mpr ⟨_, rfl⟩, hfits.kept.trans hself,
    hfits.kept.trans (sameContent_of_copied hsound hroom hfree hgrows hcopied)⟩

/-- A copy that returns and leaves its source with what it held has fitted. -/
theorem fits_of_exact (hready : Grows [] disk ready) (hsound : ready.Sound)
    (hroom : Room ready dir base name) (hfree : ready.nodeAt (base ++ [name]) = none)
    (hstat : ready.stat own = some .directory)
    (hresult : ∃ value, (ends (copyTo project own (dir.extend [name])) ready).2 = .ok value)
    (hsame : SameContent disk own (ends (copyTo project own (dir.extend [name])) ready).1 own) :
    Fits project disk ready own (dir.extend [name]) := by
  have hends := ends_copyTo project (dir.extend [name]) hstat
  have hgrows : Grows (base ++ [name]) ready
      (ends (copyTree (ready.depth + 1) own (dir.extend [name])) ready).1 :=
    copyTree_grows _ hsound hroom
  have hmade : ((ends (copyTree (ready.depth + 1) own (dir.extend [name])) ready).1.nodeAt
      (base ++ [name])).isSome := by
    rw [nodeAt_copyTree hsound hroom hfree hstat]
    rfl
  rw [hends.1] at hsame
  obtain ⟨value, hvalue⟩ := hends.2.mp hresult
  obtain ⟨_, htree, hinside⟩ := bind_eq_ok.mp hvalue
  have hkept := hsame.before hready hsound hgrows hfree
  have hsame' := hkept.symm.trans hsame
  have hapart : ready.Apart (ready.depth + 1) own (base ++ [name]) :=
    apart_of_sameContent hsound hgrows.anywhere hfree hmade hsame'
  have hunder : Underway ready (base ++ [name]) ready := ⟨hsound, hfree, Grows.refl _ _⟩
  refine ⟨hkept, ?_, fun place hplace => ?_, ?_⟩
  · exact shows_of_sameContent hapart hsame' hstat hunder hroom List.prefix_rfl htree (Grows.refl _ _)
  · rw [entry_of_room hroom, Option.some_inj] at hplace
    exact hplace ▸ hapart
  · split at hinside
    next hrelative => rw [hrelative]; rfl
    · cases hinside

/-- A copy that begins is exact just when it fits. -/
theorem exact_iff_fits (hready : Grows [] disk ready) (hsound : ready.Sound)
    (hroom : Room ready dir base name) (hfree : ready.nodeAt (base ++ [name]) = none)
    (hstat : ready.stat own = some .directory) :
    let after := ends (copyTo project own (dir.extend [name])) ready
    ((¬ ∃ value, after.2 = .ok value) ∧ after.1 = disk) ∨
      ((∃ value, after.2 = .ok value) ∧ SameContent disk own after.1 own ∧
        SameContent disk own after.1 (dir.extend [name])) ↔
      Fits project disk ready own (dir.extend [name]) := by
  apply Iff.intro
  · intro hexact
    rcases hexact with ⟨_, hsame⟩ | ⟨hresult, hsame, _⟩
    · exact absurd hsame (ends_copyTo_ne hready hsound hroom hfree hstat)
    · exact fits_of_exact hready hsound hroom hfree hstat hresult hsame
  · exact fun hfits => Or.inr (exact_of_fits hsound hroom hfree hstat hfits)

end

theorem exact_iff_attempt (hstat : disk.stat (source project request) = some .directory)
    (hpasses : Passes project disk request) {after : Disk × Except Raised β}
    (hattempt : EndsAs (ends (attempt project disk request) disk) after) :
    Exact project disk request ↔
      ((¬ ∃ value, after.2 = .ok value) ∧ after.1 = disk) ∨
      ((∃ value, after.2 = .ok value) ∧
        SameContent disk (source project request) after.1 (source project request) ∧
        SameContent disk (source project request) after.1 (target project disk request)) := by
  have hrun := (endsAs_run hstat hpasses).trans hattempt
  rw [← hrun.error_iff, ← hrun.2, ← hrun.1]
  rfl

/-- An attempt that stops before its copy begins is exact when it has made nothing. -/
theorem exact_iff_of_stopped (hstat : disk.stat (source project request) = some .directory)
    (hpasses : Passes project disk request) {ready : Disk} {raised : Raised}
    (hattempt : EndsAs (ends (attempt project disk request) disk)
      (ready, (.error raised : Except Raised Unit))) :
    Exact project disk request ↔ ready = disk := by
  rw [exact_iff_attempt hstat hpasses hattempt]
  simp

theorem ends_attempt : ends (attempt project disk request) disk =
    match (prepare project disk request disk).result with
    | .ok _ => ends (copyTo project (source project request) (target project disk request))
        (prepare project disk request disk).disk
    | .error raised => ((prepare project disk request disk).disk, .error raised) := by
  rw [attempt, ends_bind, ends]
  cases (prepare project disk request disk).result with
  | ok _ => rfl
  | error raised => rfl

/-- For a directory, `copy` and `duplicate` create nothing, or leave the source as it was and an
exact copy of it, exactly when a check or the target refuses the copy, or the copy and the
directories made for it lie in no directory that the source leads to. -/
theorem exact_iff_refused_or_copyable (hsound : disk.Sound) (hclean : project.workspaceDir.Clean)
    (hstat : disk.stat (source project request) = some .directory) :
    Exact project disk request ↔ Refused project disk request ∨ Copyable project disk request := by
  by_cases hpasses : Passes project disk request
  · have hready := adds_prepare hclean hpasses disk
    obtain ⟨hclean', hnull⟩ := clean_and_nullFree_target hclean hpasses
    have hattempt := @ends_attempt project disk request
    have hstat' := hready.stat_directory hstat
    unfold Refused Copyable
    dsimp only
    rw [imp_iff_right hpasses]
    cases hresult : (prepare project disk request disk).result with
    | error raised =>
      rw [hresult] at hattempt
      have hstopped : EndsAs (ends (attempt project disk request) disk)
          ((prepare project disk request disk).disk, (.error raised : Except Raised Unit)) := by
        rw [hattempt]
        exact ⟨rfl, by simp⟩
      rw [exact_iff_of_stopped hstat hpasses hstopped]
      simp
    | ok _ =>
      rw [hresult] at hattempt
      have hends := ends_copyTo project (target project disk request) hstat'
      by_cases hmade : ∃ after,
        (prepare project disk request disk).disk.mkdir (target project disk request) = .made after
      · obtain ⟨made, hmkdir⟩ := hmade
        obtain ⟨base, hroom, hfree, _, hnew⟩ := room_of_made hmkdir hclean' hnull
        have hfits := @exact_iff_fits project disk _ _ _ _ _ hready (hready.sound hsound) hroom hfree
          hstat'
        rw [← hnew] at hfits
        have hbegun : EndsAs (ends (attempt project disk request) disk)
            (ends (copyTo project (source project request) (target project disk request))
              (prepare project disk request disk).disk) := by
          rw [hattempt]
          exact EndsAs.refl _
        apply (exact_iff_attempt hstat hpasses hbegun).trans
        apply hfits.trans
        simp [hmkdir]
      · have hmade' := not_exists.mp hmade
        rw [ends_copyTree_of_not_made hstat' hmade'] at hends
        have hstopped : EndsAs (ends (attempt project disk request) disk)
            ((prepare project disk request disk).disk, (.error .osError : Except Raised Unit)) := by
          rw [hattempt]
          exact hends.trans ⟨rfl, by simp [bind, Except.bind]⟩
        rw [exact_iff_of_stopped hstat hpasses hstopped]
        simp [hmade']
  · obtain ⟨raised, hrun⟩ := ends_run_of_not_passes hstat hpasses
    have hexact : Exact project disk request :=
      Or.inl ⟨⟨raised, congrArg Prod.snd hrun⟩, congrArg Prod.fst hrun⟩
    exact iff_of_true hexact (Or.inl fun hpasses' => absurd hpasses' hpasses)

/-- No copy into a directory is an exact copy of it. -/
theorem not_copyable_of_inside {location place : Location}
    (hwalk : (prepare project disk request disk).disk.walk (source project request) =
      some (location, none))
    (hentry : (prepare project disk request disk).disk.entry (target project disk request) =
      some place)
    (hinside : location <+: place) : ¬ Copyable project disk request := by
  intro ⟨_, _, hfits⟩
  obtain ⟨entered, hentered, hnode, _⟩ := readable_succ_iff.mp hfits.readable
  rw [hwalk] at hentered
  cases hentered
  exact (hfits.apart place hentry).not_above hwalk hnode hinside

/-- A project with a directory of models. -/
def shop : Disk where
  cwd := []
  links := []
  nodes := [(["ws"], .directory), (["ws", "shop"], .directory),
    (["ws", "shop", "models"], .directory),
    (["ws", "shop", "models", "a.sql"], .file "select 1".toUTF8)]
  depth := 3
  strerror := ""

theorem exact_iff_refused_or_copyable_shop :
    Exact ⟨⟨true, ["ws"]⟩, "shop"⟩ shop (.copy "models" "backup") ↔
      Refused ⟨⟨true, ["ws"]⟩, "shop"⟩ shop (.copy "models" "backup") ∨
        Copyable ⟨⟨true, ["ws"]⟩, "shop"⟩ shop (.copy "models" "backup") :=
  exact_iff_refused_or_copyable ⟨by decide, by decide⟩ (by decide) (by decide)

/-- A directory that is copied to itself holds the copy afterwards. -/
theorem not_exact_of_copy_to_itself :
    ¬ ∀ project disk request, disk.Sound → project.workspaceDir.Clean →
      disk.stat (source project request) = some .directory → Exact project disk request := by
  intro h
  have hexact := h ⟨⟨true, ["ws"]⟩, "shop"⟩ shop (.copy "models" "models") ⟨by decide, by decide⟩
    (by decide) (by decide)
  rcases hexact with ⟨_, hsame⟩ | ⟨_, hsame, _⟩
  · exact absurd (congrArg (fun disk => disk.nodes.length) hsame) (by decide)
  · exact absurd (hsame ["models"] (by decide)) (by decide)

end DbtCraft.Services.DirectoryCopy
