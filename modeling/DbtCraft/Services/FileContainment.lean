/-
# Containment of the file service

Which locations a request touches. `validate_subpath` speaks of the path that a client
sends, and only of that one: a request stays inside its project when that path, and every
other one that the operation comes to, leads inside it.
-/

import DbtCraft.Python.Containment
import DbtCraft.Services.FileService

namespace DbtCraft.Services.FileService

open DbtCraft.Python FileOp

/-- The location lies in the directory of the project. -/
def Inside (project : Project) (disk : Disk) (location : Location) : Prop :=
  ∃ root, disk.resolve project.getPath = some root ∧ root <+: location

/-- Everything that a request touches lies in the project. -/
def Contained (project : Project) (disk : Disk) (request : Request) : Prop :=
  Within (Inside project disk) (run project request) disk

/-! ## Conditions on the disk -/

section

variable (project : Project) (disk : Disk)

/-- The path leads into the project. -/
abbrev LeadsIn (path : Path) : Prop := Leads (Inside project disk) disk path

/-- The path passes `validate_subpath`. -/
def Valid (relativePath : String) : Prop :=
  (project.validateSubpath relativePath disk).result = .ok (project.target relativePath)

/-- Making the path with its parents stays in the project. -/
def MakesIn (after : Disk) (path : Path) : Prop :=
  ∀ made ∈ toMake after path, MakesEntry (Inside project disk) after made

/-- What holds of the disk once the path has been made with its parents. -/
def OnceMade (path : Path) (claim : Disk → Prop) : Prop :=
  (mkdirParents true path disk).result = .ok () → claim (mkdirParents true path disk).disk

/-- The names that a listing comes to: it ends at the first item that is not below the
project as a text. -/
def reached (root target : Path) : List String → List String
  | [] => []
  | name :: rest =>
    name ::
      if IsDirectory disk (target.child name) ∧ name ∈ skipDirs ∨
          (target.child name).relativeTo root ≠ none then reached root target rest
      else []

/-- The final destination, which lies in an existing directory. -/
def finalTarget (dest : Path) (name : String) : Path :=
  if IsDirectory disk dest then dest.child name else dest

/-- The names that `duplicate` tries, up to the first that is free. -/
def triedNames (source : Path) (folder : Bool) : ℕ → ℕ → List Path
  | 0, _ => []
  | tries + 1, count =>
    source.parent.child (copyName source folder count) ::
      if (disk.stat (source.parent.child (copyName source folder count))).isSome then
        triedNames source folder tries (count + 1)
      else []

/-- The name that `duplicate` takes. -/
def freePath (source : Path) (folder : Bool) : ℕ → ℕ → Path
  | 0, count => source.parent.child (copyName source folder count)
  | tries + 1, count =>
    if (disk.stat (source.parent.child (copyName source folder count))).isSome then
      freePath source folder tries (count + 1)
    else source.parent.child (copyName source folder count)

/-- The end of `copy` and `duplicate` stays in the project. -/
def CopyToStays (after : Disk) (source target : Path) : Prop :=
  (IsDirectory after source → CopytreeStays (Inside project disk) after source target) ∧
  (¬ IsDirectory after source → CopyStays (Inside project disk) after source target)

/-- What the paths of a request lead to, once the project is there. -/
def Stays : Request → Prop
  | .list path =>
    let root := project.getPath
    let target := if path = "" then root else root.join (.ofString path)
    LeadsIn project disk target ∧ ∀ location, disk.resolve target = some location →
      IsDirectory disk target → ∀ name ∈ reached disk root target (disk.names location),
        LeadsIn project disk (target.child name)
  | .read path => LeadsIn project disk (project.target path)
  | .write path _ => Valid project disk path → LeadsIn project disk (project.target path).parent ∧
      ((disk.stat (project.target path).parent).isNone →
        MakesIn project disk disk (project.target path).parent)
  | .create path _ fileType => Valid project disk path →
      MakesIn project disk disk
        (if fileType = "directory" then project.target path else (project.target path).parent)
  | .save path _ => Valid project disk path → MakesIn project disk disk (project.target path).parent
  | .delete path => LeadsIn project disk (project.target path) ∧
      ((disk.stat (project.target path)).isSome →
        Names (Inside project disk) disk (project.target path))
  | .rename oldPath newPath => LeadsIn project disk (project.target oldPath) ∧
      ((disk.stat (project.target oldPath)).isSome → LeadsIn project disk (project.target newPath) ∧
        ((disk.stat (project.target newPath)).isNone → Valid project disk newPath →
          MakesIn project disk disk (project.target newPath).parent ∧
          OnceMade disk (project.target newPath).parent fun after =>
            MoveStays (Inside project disk) after (project.target oldPath)
              (project.target newPath)))
  | .move sourcePath destPath => Valid project disk sourcePath →
      (disk.stat (project.target sourcePath)).isSome →
      let source := project.target sourcePath
      let dest := moveTarget project sourcePath destPath
      let final := finalTarget disk dest source.name
      LeadsIn project disk dest ∧ ∀ location relative,
        (checkMove project sourcePath destPath source final disk).result =
          .ok (location, relative) → (disk.nodeAt location).isNone →
        MakesIn project disk disk final.parent ∧ OnceMade disk final.parent fun after =>
          MoveStays (Inside project disk) after source final
  | .copy sourcePath destPath => LeadsIn project disk (project.target sourcePath) ∧
      ((disk.stat (project.target sourcePath)).isSome → Valid project disk destPath →
        let source := project.target sourcePath
        let final := finalTarget disk (project.target destPath) source.name
        LeadsIn project disk final ∧ ((disk.stat final).isNone →
          MakesIn project disk disk final.parent ∧ OnceMade disk final.parent fun after =>
            CopyToStays project disk after source final))
  | .duplicate path => LeadsIn project disk (project.target path) ∧
      ((disk.stat (project.target path)).isSome →
        let source := project.target path
        let tries := disk.nodes.length + disk.links.length + 1
        let folder := decide (IsDirectory disk source)
        (∀ tried ∈ triedNames disk source folder tries 1, LeadsIn project disk tried) ∧
        CopyToStays project disk disk source (freePath disk source folder tries 1))

/-- Every path that a request comes to leads into the project. A file that is created first
makes the directory of its project. -/
def Safe (request : Request) : Prop :=
  match request with
  | .create _ _ _ => MakesIn project disk disk project.getPath ∧
      ((mkdirParents true project.getPath disk).result = .ok () →
        Stays project (mkdirParents true project.getPath disk).disk request)
  | _ => (disk.stat project.getPath).isSome → Stays project disk request

end

variable {project : Project} {disk : Disk}

/-! ## Steps of the service -/

theorem closed_inside : Closed (Inside project disk) := by
  intro location below hinside hbelow
  obtain ⟨root, hroot, hlocation⟩ := hinside
  exact ⟨root, hroot, hlocation.trans hbelow⟩

/-- The directory of the project lies in the project. -/
theorem leadsIn_getPath : LeadsIn project disk project.getPath := by
  intro location hlocation
  exact ⟨location, hlocation, List.prefix_rfl⟩

theorem within_getPathOrRaise_bind_iff {α : Type} {next : Path → FileOp α} :
    Within (Inside project disk) (project.getPathOrRaise >>= next) disk ↔
      ((disk.stat project.getPath).isSome →
        Within (Inside project disk) (next project.getPath) disk) := by
  unfold Project.getPathOrRaise
  rw [bind_assoc, within_pathExists_bind_iff, and_iff_right leadsIn_getPath]
  cases disk.stat project.getPath with
  | none => simp [within_bind_iff, within_raise, raise]
  | some node => simp

theorem valid_iff {path : String} : Valid project disk path ↔
    ∃ location, disk.resolve (project.target path) = some location ∧
      Inside project disk location := by
  unfold Valid Project.validateSubpath Inside
  rcases disk.resolve (project.target path) with _ | location
  · simp
  · rcases disk.resolve project.getPath with _ | root
    · simp
    · by_cases hbelow : root <+: location
      · simp [hbelow]
      · simp [hbelow]

/-- A path that passes the check leads into the project. -/
theorem Valid.leadsIn {path : String} (hvalid : Valid project disk path) :
    LeadsIn project disk (project.target path) := by
  obtain ⟨location, hlocation, hinside⟩ := valid_iff.mp hvalid
  intro other hother
  cases hlocation.symm.trans hother
  exact hinside

/-- A path to an existing file passes the check when it leads into the project. -/
theorem LeadsIn.valid {path : String} (hleads : LeadsIn project disk (project.target path))
    (hexists : (disk.stat (project.target path)).isSome) : Valid project disk path := by
  rw [valid_iff]
  unfold Disk.stat at hexists
  split at hexists
  next location hwalk =>
    have hlocation : disk.resolve (project.target path) = some location := by
      unfold Disk.resolve
      rw [hwalk]
      rfl
    exact ⟨location, hlocation, hleads location hlocation⟩
  · cases hexists

theorem validateSubpath_eq_ok {path : String} {target : Path}
    (hresult : (project.validateSubpath path disk).result = .ok target) :
    target = project.target path := by
  unfold Project.validateSubpath at hresult
  dsimp only at hresult
  split at hresult
  · split at hresult
    · cases hresult
      rfl
    · cases hresult
  · cases hresult

theorem within_validateSubpath_bind_iff {α : Type} {allowed : Location → Prop} {path : String}
    {next : Path → FileOp α} :
    Within allowed (project.validateSubpath path >>= next) disk ↔
      (Valid project disk path → Within allowed (next (project.target path)) disk) := by
  rw [within_bind_iff]
  have hfirst : Within allowed (project.validateSubpath path) disk :=
    fun _ hlocation => nomatch hlocation
  constructor
  · exact fun h hvalid => h.2 _ hvalid
  · intro h
    refine ⟨hfirst, ?_⟩
    intro target hresult
    cases validateSubpath_eq_ok hresult
    exact h hresult

/-- Making a directory with its parents, and then something else. -/
theorem within_mkdirParents_bind_iff {α : Type} {next : Unit → FileOp α} {path : Path} :
    Within (Inside project disk) (mkdirParents true path >>= next) disk ↔
      MakesIn project disk disk path ∧
      OnceMade disk path fun after => Within (Inside project disk) (next ()) after := by
  rw [within_bind_iff, within_mkdirParents_iff]
  unfold OnceMade
  constructor
  · exact fun h => ⟨h.1, h.2 ()⟩
  · exact fun h => ⟨h.1, fun _ hresult => h.2 hresult⟩

theorem within_bind_pure_iff {α β : Type} {allowed : Location → Prop} {op : FileOp α}
    {f : α → β} :
    Within allowed (do let value ← op; pure (f value)) disk ↔ Within allowed op disk := by
  rw [within_bind_iff]
  exact and_iff_left fun _ _ => within_pure _

/-! ## Reading -/

/-- An item that is not skipped is read, and the items after it when it can be named. -/
theorem within_itemOf_iff {allowed : Location → Prop} {path : Path} {name : String} {folder : Bool}
    {relative : Option Path} {rest : FileOp (List Item)} (hleads : Leads allowed disk path) :
    Within allowed (itemOf path name folder rest relative) disk ↔
      (relative ≠ none → Within allowed rest disk) := by
  cases relative with
  | none => exact iff_of_true (within_raise _) fun h => absurd rfl h
  | some relative =>
    unfold itemOf fileSize
    rw [within_look_bind_iff, and_iff_right hleads]
    simp only [Except.ok.injEq, forall_eq']
    rw [within_bind_pure_iff]
    exact ⟨fun h _ => h, fun h => h (Option.some_ne_none _)⟩

theorem within_items_iff {allowed : Location → Prop} {root target : Path} {names : List String} :
    Within allowed (items root target names) disk ↔
      ∀ name ∈ reached disk root target names, Leads allowed disk (target.child name) := by
  induction names with
  | nil => exact iff_of_true (within_pure _) fun _ hname => nomatch hname
  | cons name rest ih =>
    unfold items reached
    rw [within_isDir_bind_iff, List.forall_mem_cons]
    apply and_congr_right
    intro hleads
    rw [within_ite_iff, within_ite_iff, within_itemOf_iff hleads, within_itemOf_iff hleads, ih]
    by_cases hdirectory : IsDirectory disk (target.child name)
    · by_cases hskip : name ∈ skipDirs
      · simp [hdirectory, hskip]
      · by_cases hrelative : (target.child name).relativeTo root = none
        · simp [hdirectory, hskip, hrelative]
        · simp [hdirectory, hskip, hrelative]
    · by_cases hrelative : (target.child name).relativeTo root = none
      · simp [hdirectory, hrelative]
      · simp [hdirectory, hrelative]

theorem contained_list_iff {path : String} :
    Contained project disk (.list path) ↔ Safe project disk (.list path) := by
  unfold Contained run listFiles
  rw [within_getPathOrRaise_bind_iff]
  apply imp_congr_right
  intro _
  unfold Stays
  dsimp only
  generalize (if path = "" then project.getPath else project.getPath.join (.ofString path)) = target
  rw [within_pathExists_iff]
  apply and_congr_right
  intro hleads
  rw [and_iff_left fun _ => within_raise _]
  unfold iterdir
  rw [within_look_bind_iff]
  constructor
  · intro h location hlocation hdirectory name hname
    obtain ⟨⟨other, fault⟩, hwalk, rfl⟩ := Option.map_eq_some_iff.mp hlocation
    have hitems := (h (by rw [hdirectory]; rfl)).2 (disk.names other) (by rw [hwalk, hdirectory])
    exact within_items_iff.mp (within_bind_pure_iff.mp hitems) name hname
  · intro h _
    refine ⟨hleads, ?_⟩
    intro names hnames
    rw [within_bind_pure_iff, within_items_iff]
    split at hnames
    next location fault hwalk hdirectory =>
      cases hnames
      exact h location (by rw [Disk.resolve, hwalk]; rfl) hdirectory
    · cases hnames

theorem within_readContent_iff {allowed : Location → Prop} {file : Path} {path : String} :
    Within allowed (readContent file path) disk ↔ Leads allowed disk file := by
  unfold Within readContent readText look Leads
  exact forall_mem_toList

theorem contained_read_iff {path : String} :
    Contained project disk (.read path) ↔ Safe project disk (.read path) := by
  unfold Contained run readFile
  rw [within_getPathOrRaise_bind_iff]
  apply imp_congr_right
  intro _
  rw [within_pathExists_iff]
  apply and_iff_left_of_imp
  intro hleads
  refine ⟨?_, fun _ => within_raise _⟩
  intro _
  unfold isFile
  rw [within_look_bind_iff]
  refine ⟨hleads, ?_⟩
  intro regular _
  rw [within_ite_iff, within_ite_iff, within_bind_pure_iff, within_readContent_iff]
  exact ⟨fun _ => within_raise _, fun _ => ⟨fun _ => hleads, fun _ => within_raise _⟩⟩

/-! ## Writing -/

theorem contained_write_iff {path content : String} :
    Contained project disk (.write path content) ↔ Safe project disk (.write path content) := by
  unfold Contained run writeFile
  rw [within_getPathOrRaise_bind_iff]
  apply imp_congr_right
  intro _
  rw [within_validateSubpath_bind_iff]
  apply imp_congr_right
  intro hvalid
  have hkeeps : KeepsLinks (makeParent (project.target path)) := by
    apply keepsLinks_bind fun disk => SameLinks.refl disk
    intro there
    split
    · exact keepsLinks_pure ()
    · exact keepsLinks_mkdirParents _ _
  rw [within_bind_iff, and_iff_left]
  · unfold makeParent
    rw [within_pathExists_iff, within_mkdirParents_iff]
    apply and_congr_right
    intro _
    exact and_iff_right fun _ => within_pure _
  · intro _ _
    rw [within_bind_pure_iff, within_exceptOsError_iff, within_writeText_iff,
      (hkeeps disk).leads_iff]
    exact hvalid.leadsIn

/-- A file is written after its parents have been made. -/
theorem within_writeText_after {path text : String} {value : Value} {made : Path}
    (hvalid : Valid project disk path) :
    Within (Inside project disk)
      (do writeText (project.target path) text; pure value)
      (mkdirParents true made disk).disk := by
  rw [within_bind_pure_iff, within_writeText_iff, (keepsLinks_mkdirParents true made disk).leads_iff]
  exact hvalid.leadsIn

theorem contained_save_iff {path content : String} :
    Contained project disk (.save path content) ↔ Safe project disk (.save path content) := by
  unfold Contained run saveContent
  rw [within_getPathOrRaise_bind_iff]
  apply imp_congr_right
  intro _
  rw [within_validateSubpath_bind_iff]
  apply imp_congr_right
  intro hvalid
  rw [within_exceptOsError_iff, within_mkdirParents_bind_iff]
  exact and_iff_left fun _ => within_writeText_after hvalid

/-- The project lies at the same place once a directory has been made. -/
theorem inside_after {after : Disk} (hsame : SameLinks disk after) :
    Inside project after = Inside project disk := by
  funext location
  unfold Inside
  rw [hsame.resolve]

theorem within_ensureExists_bind_iff {α : Type} {next : Path → FileOp α} :
    Within (Inside project disk) (project.ensureExists >>= next) disk ↔
      MakesIn project disk disk project.getPath ∧
      OnceMade disk project.getPath fun after =>
        Within (Inside project disk) (next project.getPath) after := by
  unfold Project.ensureExists
  simp only [bind_assoc, pure_bind]
  exact within_mkdirParents_bind_iff

/-- A file or directory is made under a path that passes the check. -/
theorem within_createEnd_iff {path fileType text : String} {reply reply' : Value}
    (hvalid : Valid project disk path) :
    Within (Inside project disk) (if fileType = "directory" then do
        mkdirParents true (project.target path)
        pure reply
      else do
        mkdirParents true (project.target path).parent
        writeText (project.target path) text
        pure reply') disk ↔
      MakesIn project disk disk
        (if fileType = "directory" then project.target path else (project.target path).parent) := by
  split
  · rw [within_bind_pure_iff, within_mkdirParents_iff]
    rfl
  · rw [within_mkdirParents_bind_iff]
    exact and_iff_left fun _ => within_writeText_after hvalid

theorem contained_create_iff {path fileType : String} {content : Option String} :
    Contained project disk (.create path content fileType) ↔
      Safe project disk (.create path content fileType) := by
  unfold Contained run create
  rw [within_ensureExists_bind_iff]
  apply and_congr_right
  intro _
  apply imp_congr_right
  intro _
  have hsame := keepsLinks_mkdirParents true project.getPath disk
  dsimp only
  rw [← inside_after hsame, within_validateSubpath_bind_iff]
  apply imp_congr_right
  intro hvalid
  rw [within_exceptOsError_iff]
  exact within_createEnd_iff hvalid

theorem contained_delete_iff {path : String} :
    Contained project disk (.delete path) ↔ Safe project disk (.delete path) := by
  unfold Contained run delete
  rw [within_getPathOrRaise_bind_iff]
  apply imp_congr_right
  intro _
  rw [within_pathExists_iff, and_iff_left fun _ => within_raise _]
  apply and_congr_right
  intro hleads
  apply imp_congr_right
  intro hexists
  have hvalid := LeadsIn.valid hleads hexists
  rw [within_validateSubpath_bind_iff, forall_prop_of_true hvalid, within_exceptOsError_iff,
    within_bind_pure_iff]
  unfold remove
  rw [within_isDir_iff, within_rmtree_iff closed_inside hleads, within_unlink_iff,
    and_iff_right hleads]
  exact ⟨fun h => if hdirectory : IsDirectory disk (project.target path) then h.1 hdirectory
    else h.2 hdirectory, fun h => ⟨fun _ => h, fun _ => h⟩⟩

/-! ## Moving and copying -/

theorem contained_rename_iff {oldPath newPath : String} :
    Contained project disk (.rename oldPath newPath) ↔
      Safe project disk (.rename oldPath newPath) := by
  unfold Contained run rename
  rw [within_getPathOrRaise_bind_iff]
  apply imp_congr_right
  intro _
  rw [within_pathExists_iff, and_iff_left fun _ => within_raise _]
  apply and_congr_right
  intro hleads
  apply imp_congr_right
  intro hexists
  rw [within_pathExists_iff, and_iff_right fun _ => within_raise _]
  apply and_congr_right
  intro _
  apply imp_congr_right
  intro _
  rw [within_validateSubpath_bind_iff, forall_prop_of_true (LeadsIn.valid hleads hexists),
    within_validateSubpath_bind_iff]
  apply imp_congr_right
  intro _
  rw [within_exceptOsError_iff, within_mkdirParents_bind_iff]
  apply and_congr_right
  intro _
  apply imp_congr_right
  intro _
  dsimp only
  rw [within_bind_pure_iff, within_move_iff closed_inside]

theorem within_findDestination_bind_iff {α : Type} {dest : Path} {name : String}
    {next : Path → FileOp α} :
    Within (Inside project disk) (findDestination dest name >>= next) disk ↔
      LeadsIn project disk dest ∧
      Within (Inside project disk) (next (finalTarget disk dest name)) disk := by
  unfold findDestination finalTarget
  rw [bind_assoc, within_pathExists_bind_iff]
  apply and_congr_right
  intro hleads
  by_cases hdirectory : IsDirectory disk dest
  · have hexists : (disk.stat dest).isSome := by
      rw [show disk.stat dest = some .directory from hdirectory]
      rfl
    rw [if_pos hexists, if_pos hdirectory, bind_assoc, within_isDir_bind_iff]
    simp only [hdirectory, pure_bind, if_true]
    simp [hleads]
  · rw [if_neg hdirectory]
    split
    · rw [bind_assoc, within_isDir_bind_iff]
      simp only [hdirectory, pure_bind]
      simp [hleads]
    · rw [pure_bind]

theorem within_validateSource_bind_iff {α : Type} {allowed : Location → Prop} {sourcePath : String}
    {next : Path → FileOp α} :
    Within allowed (validateSource project sourcePath >>= next) disk ↔
      (Valid project disk sourcePath →
        Within allowed (next (project.target sourcePath)) disk) := by
  rw [within_bind_iff]
  unfold validateSource Valid
  cases hresult : (project.validateSubpath sourcePath disk).result with
  | error raised => simp [Within, hresult]
  | ok source =>
    cases validateSubpath_eq_ok hresult
    simp [Within, hresult]

/-- The checks on a final destination touch nothing, and it lies in the project. -/
theorem within_checkMove_bind_iff {α : Type} {sourcePath destPath : String} {source final : Path}
    {next : Location × Path → FileOp α} :
    Within (Inside project disk)
      (checkMove project sourcePath destPath source final >>= next) disk ↔
      ∀ location relative, (checkMove project sourcePath destPath source final disk).result =
        .ok (location, relative) →
        Within (Inside project disk) (next (location, relative)) disk := by
  have hfirst : Within (Inside project disk)
      (checkMove project sourcePath destPath source final) disk :=
    fun _ hlocation => nomatch hlocation
  rw [within_bind_iff, and_iff_right hfirst, Prod.forall]
  rfl

theorem inside_of_checkMove {sourcePath destPath : String} {source final relative : Path}
    {location : Location}
    (hresult : (checkMove project sourcePath destPath source final disk).result =
      .ok (location, relative)) : Inside project disk location := by
  unfold checkMove at hresult
  dsimp only at hresult
  split at hresult
  next root other own hroot _ _ =>
    split at hresult
    next hbelow =>
      split at hresult
      · cases hresult
      · cases hresult
        exact ⟨root, hroot, hbelow⟩
    · cases hresult
  · cases hresult

theorem within_locationExists_iff {allowed : Location → Prop} {location : Location} {α : Type}
    {yes no : FileOp α} :
    Within allowed (do if ← locationExists location then yes else no) disk ↔
      allowed location ∧ ((disk.nodeAt location).isSome → Within allowed yes disk) ∧
        ((disk.nodeAt location).isNone → Within allowed no disk) := by
  rw [within_bind_iff]
  unfold locationExists
  cases disk.nodeAt location with
  | none => simp [Within]
  | some node => simp [Within]

theorem contained_move_iff {sourcePath destPath : String} :
    Contained project disk (.move sourcePath destPath) ↔
      Safe project disk (.move sourcePath destPath) := by
  unfold Contained run move
  rw [within_getPathOrRaise_bind_iff]
  apply imp_congr_right
  intro _
  rw [within_validateSource_bind_iff]
  apply imp_congr_right
  intro hvalid
  rw [within_pathExists_iff, and_iff_left fun _ => within_raise _, and_iff_right hvalid.leadsIn]
  apply imp_congr_right
  intro _
  rw [within_findDestination_bind_iff]
  apply and_congr_right
  intro _
  rw [within_checkMove_bind_iff]
  apply forall_congr'
  intro location
  apply forall_congr'
  intro relative
  apply imp_congr_right
  intro hresult
  rw [within_locationExists_iff, and_iff_right (inside_of_checkMove hresult),
    and_iff_right fun _ => within_raise _]
  apply imp_congr_right
  intro _
  rw [within_mkdirParents_bind_iff]
  apply and_congr_right
  intro _
  apply imp_congr_right
  intro _
  dsimp only
  rw [within_exceptOsError_iff, within_bind_pure_iff, within_move_iff closed_inside]

theorem within_copyTo_iff {after : Disk} {source target : Path}
    (hsource : Leads (Inside project disk) after source) :
    Within (Inside project disk) (copyTo project source target) after ↔
      CopyToStays project disk after source target := by
  unfold copyTo copyFileOrTree CopyToStays
  rw [within_bind_iff, and_iff_left]
  · rw [within_isDir_iff, and_iff_right hsource, within_copytree_iff closed_inside,
      within_copy2_iff]
  · intro _ _
    split
    · exact within_pure _
    · exact within_raise _

theorem contained_copy_iff {sourcePath destPath : String} :
    Contained project disk (.copy sourcePath destPath) ↔
      Safe project disk (.copy sourcePath destPath) := by
  unfold Contained run copy
  rw [within_getPathOrRaise_bind_iff]
  apply imp_congr_right
  intro _
  rw [within_pathExists_iff, and_iff_left fun _ => within_raise _]
  apply and_congr_right
  intro hleads
  apply imp_congr_right
  intro hexists
  rw [within_validateSubpath_bind_iff, forall_prop_of_true (LeadsIn.valid hleads hexists),
    within_validateSubpath_bind_iff]
  apply imp_congr_right
  intro hvalid
  rw [within_findDestination_bind_iff, and_iff_right hvalid.leadsIn, within_pathExists_iff,
    and_iff_right fun _ => within_raise _]
  apply and_congr_right
  intro _
  apply imp_congr_right
  intro _
  rw [within_exceptOsError_iff, within_mkdirParents_bind_iff]
  apply and_congr_right
  intro _
  apply imp_congr_right
  intro _
  dsimp only
  rw [within_bind_pure_iff, within_copyTo_iff]
  exact (keepsLinks_mkdirParents _ _ disk).leads_iff.mpr hleads

/-- The names that `duplicate` tries are looked up. -/
theorem within_freeName_bind_iff {α : Type} {allowed : Location → Prop} {source : Path}
    {folder : Bool} {tries count : ℕ} {next : Path → FileOp α} :
    Within allowed (freeName source folder tries count >>= next) disk ↔
      (∀ tried ∈ triedNames disk source folder tries count, Leads allowed disk tried) ∧
      Within allowed (next (freePath disk source folder tries count)) disk := by
  induction tries generalizing count with
  | zero =>
    unfold freeName triedNames freePath
    rw [pure_bind]
    simp
  | succ tries ih =>
    unfold freeName triedNames freePath
    rw [bind_assoc, within_pathExists_bind_iff, List.forall_mem_cons, and_assoc]
    apply and_congr_right
    intro _
    split
    · exact ih
    · rw [pure_bind]
      simp

theorem contained_duplicate_iff {path : String} :
    Contained project disk (.duplicate path) ↔ Safe project disk (.duplicate path) := by
  unfold Contained run duplicate
  rw [within_getPathOrRaise_bind_iff]
  apply imp_congr_right
  intro _
  rw [within_pathExists_iff, and_iff_left fun _ => within_raise _]
  apply and_congr_right
  intro hleads
  apply imp_congr_right
  intro hexists
  rw [within_validateSubpath_bind_iff, forall_prop_of_true (LeadsIn.valid hleads hexists),
    within_isDir_bind_iff, and_iff_right hleads]
  have hcopy : ∀ folder, Within (Inside project disk) (do
      let new ← findCopyName (project.target path) folder
      let copied ← exceptOsError (copyTo project (project.target path) new)
        fun text => .invalidPath ("Cannot duplicate '" ++ path ++ "': " ++ text)
      pure (reply [("message", "Duplicated: " ++ path ++ " -> " ++ copied),
        ("original_path", path), ("new_path", copied)])) disk ↔
      (∀ tried ∈ triedNames disk (project.target path) folder
        (disk.nodes.length + disk.links.length + 1) 1, LeadsIn project disk tried) ∧
      CopyToStays project disk disk (project.target path) (freePath disk (project.target path)
        folder (disk.nodes.length + disk.links.length + 1) 1) := by
    intro folder
    rw [← within_copyTo_iff hleads]
    have hnext : ∀ new, Within (Inside project disk) (do
        let copied ← exceptOsError (copyTo project (project.target path) new)
          fun text => .invalidPath ("Cannot duplicate '" ++ path ++ "': " ++ text)
        pure (reply [("message", "Duplicated: " ++ path ++ " -> " ++ copied),
          ("original_path", path), ("new_path", copied)])) disk ↔
        Within (Inside project disk) (copyTo project (project.target path) new) disk := by
      intro new
      rw [within_bind_pure_iff, within_exceptOsError_iff]
    rw [← hnext]
    exact within_freeName_bind_iff
  rw [hcopy, hcopy]
  by_cases hdirectory : IsDirectory disk (project.target path)
  · simp [hdirectory]
  · simp [hdirectory]

/-- A request touches nothing outside its project exactly when the paths that it comes to
lead into the project. -/
theorem contained_iff_safe (project : Project) (disk : Disk) (request : Request) :
    Contained project disk request ↔ Safe project disk request := by
  cases request with
  | list path => exact contained_list_iff
  | read path => exact contained_read_iff
  | write path content => exact contained_write_iff
  | create path content fileType => exact contained_create_iff
  | save path content => exact contained_save_iff
  | delete path => exact contained_delete_iff
  | rename oldPath newPath => exact contained_rename_iff
  | move sourcePath destPath => exact contained_move_iff
  | copy sourcePath destPath => exact contained_copy_iff
  | duplicate path => exact contained_duplicate_iff

/-- Two projects in one workspace. -/
def twoProjects : Disk where
  cwd := []
  links := []
  nodes := [(["ws"], .directory), (["ws", "shop"], .directory), (["ws", "other"], .directory),
    (["ws", "other", "profiles.yml"], .file "".toUTF8)]
  depth := 16
  strerror := ""

/-- A file of another project is read through the parent of the project. -/
theorem not_contained_of_parent_path : ¬ ∀ project disk request, Contained project disk request := by
  intro h
  have hread := h ⟨⟨true, ["ws"]⟩, "shop"⟩ twoProjects (.read "../other/profiles.yml")
    ["ws", "other", "profiles.yml"] (by decide)
  obtain ⟨root, hroot, hbelow⟩ := hread
  cases hroot
  exact absurd hbelow (by decide)

end DbtCraft.Services.FileService
