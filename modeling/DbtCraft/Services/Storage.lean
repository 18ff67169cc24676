/-
# Project storage

`storage_service.py`. Every project has a directory in the storage. A sync copies the files of
a workspace into it one by one; a fetch unpacks the archive with the greatest name that begins
as the names of the snapshots do.
-/

import Mathlib.Data.List.Infix
import Mathlib.Data.List.Sort
import Mathlib.Data.String.Basic
import DbtCraft.Math.Machine
import DbtCraft.Python.Disk
import DbtCraft.Python.Text

namespace DbtCraft.Services.Storage

open DbtCraft.Python DbtCraft.Math

/-! ## Project trees -/

/-- The regular files of a project in the order of `os.walk`. -/
structure Workspace where
  files : Dict Location ByteArray
  named : ∀ item ∈ files, item.1 ≠ []
  /-- No file is a directory on the way to another one, and none comes twice. -/
  apart : files.Pairwise fun first second => ¬ first.1 <+: second.1 ∧ ¬ second.1 <+: first.1

/-- The directories on the way to a location, the root of the tree among them. -/
def ancestors (location : Location) : List Location :=
  (List.range location.length).map fun depth => location.take depth

/-- The files that `os.walk` comes to when it leaves out directories with these names. -/
def Workspace.outside (workspace : Workspace) (names : List String) : Dict Location ByteArray :=
  workspace.files.filter fun item => item.1.dropLast.all fun part => !names.contains part

/-- `os.walk` goes on without a word where it cannot list a directory. -/
def listed (unlisted : Location → Bool) (files : Dict Location ByteArray) :
    Dict Location ByteArray :=
  files.filter fun item => !(ancestors item.1).any unlisted

/-- The directories that `sync_from_workspace` leaves out. -/
def unsynced : List String :=
  ["target", "dbt_packages", ".git", "__pycache__", "node_modules", ".venv"]

/-- The directories that `create_snapshot` leaves out. -/
def unsnapshotted : List String :=
  ["target", "dbt_packages", "logs", ".git", "__pycache__", "node_modules", ".venv"]

/-- `EXCLUDE_PATTERNS`. -/
def excludePatterns : List String :=
  ["target/", "dbt_packages/", "logs/", "__pycache__/", ".git/", "*.pyc", ".DS_Store", "Thumbs.db",
    "node_modules/", ".venv/"]

/-- `fname.endswith(p.lstrip("*"))` for one of the patterns. -/
def isExcluded (name : String) : Bool :=
  excludePatterns.any fun pattern =>
    (pattern.toList.dropWhile (· = '*')).isSuffixOf name.toList

/-- The files that a sync is about. -/
def Workspace.kept (workspace : Workspace) : Dict Location ByteArray := workspace.outside unsynced

/-- The files that a snapshot is about. -/
def Workspace.snapshotted (workspace : Workspace) : Dict Location ByteArray :=
  (workspace.outside unsnapshotted).filter fun item => !isExcluded (item.1.getLastD "")

/-! ## The directory of a project -/

structure ProjectDir where
  /-- The directories below the one of the project. -/
  directories : List Location
  files : Dict Location ByteArray

namespace ProjectDir

variable (storage : ProjectDir)

def isDirectory (location : Location) : Bool :=
  location = [] || storage.directories.contains location

/-- A file is on the way to a location. -/
def blocked (location : Location) : Bool :=
  storage.files.any fun item => item.1.isPrefixOf location && item.1 ≠ location

/-- `target.parent.mkdir(parents=True, exist_ok=True)`; `none` raises. -/
def makeParents (location : Location) : Option ProjectDir :=
  if storage.blocked location then none
  else some { storage with directories := ancestors location ++ storage.directories }

/-- Where `shutil.copy2` writes: into a directory, under the name of the file. -/
def target (location : Location) : Option Location :=
  let inside := location ++ location.getLast?.toList
  if !storage.isDirectory location then some location
  else if storage.isDirectory inside then none
  else some inside

def write (location : Location) (content : ByteArray) : ProjectDir :=
  { storage with files := storage.files.set location content }

/-- `path.unlink()`. -/
def unlink (location : Location) : ProjectDir := { storage with files := storage.files.pop location }

end ProjectDir

/-- Why a file is not written. -/
inductive WriteFault
  | /-- Its parent directories cannot be made. -/
    parents
  | /-- It cannot be opened, here or where it is copied from. -/
    unopened
  | /-- So much of it is written, or all, before the call raises. -/
    torn (bytes : ByteArray)

/-- One turn of the loop in `sync_from_workspace`, and whether it comes to its end. -/
def copyFile (fault : Option WriteFault) (storage : ProjectDir) (location : Location)
    (content : ByteArray) : Bool × ProjectDir :=
  match storage.makeParents location, fault with
  | none, _ | some _, some .parents => (false, storage)
  | some made, some .unopened => (false, made)
  | some made, some (.torn bytes) =>
    match made.target location with
    | none => (false, made)
    | some target => (false, made.write target bytes)
  | some made, none =>
    match made.target location with
    | none => (false, made)
    | some target => (true, made.write target content)

def copyFiles (faults : Location → Option WriteFault) :
    ProjectDir → Dict Location ByteArray → Bool × ProjectDir
  | storage, [] => (true, storage)
  | storage, (location, content) :: rest =>
    match copyFile (faults location) storage location content with
    | (false, stopped) => (false, stopped)
    | (true, copied) => copyFiles faults copied rest

/-- What fails while a workspace is synced. -/
structure SyncFaults where
  unlisted : Location → Bool
  copy : Location → Option WriteFault

/-- `sync_files_to_storage`. -/
def syncFilesToStorage (faults : SyncFaults) (storage : ProjectDir) (workspace : Workspace) :
    Bool × ProjectDir :=
  copyFiles faults.copy storage (listed faults.unlisted workspace.kept)

/-! ## Snapshots -/

/-- `tarfile` with gzip. -/
structure Archive where
  /-- The archive of some files; its header has the time in it. -/
  write : String → Dict Location ByteArray → ByteArray
  /-- Whether `extractall` comes to its end, and what an empty directory holds then. -/
  read : ByteArray → Bool × Dict Location ByteArray

/-- `str(rel_path)`. -/
def nameOf (location : Location) : String := "/".intercalate location

/-- `name.startswith("snapshot_")`. -/
def isSnapshot (location : Location) : Bool := startsWith (nameOf location) "snapshot_"

/-- `sorted(snapshots)[-1]`, with its content. -/
def latest (files : Dict Location ByteArray) : Option (Location × ByteArray) :=
  ((files.filter fun item => isSnapshot item.1).insertionSort
    fun first second => nameOf first.1 ≤ nameOf second.1).getLast?

/-- `sync_from_storage` into an empty directory. -/
def syncFromStorage (archive : Archive) (storage : ProjectDir) : Bool × Dict Location ByteArray :=
  match latest storage.files with
  | none => (true, [])
  | some item => archive.read item.2

/-- What fails while a snapshot is made. -/
structure SnapshotFaults where
  unlisted : Location → Bool
  archive : Option WriteFault

/-- `create_snapshot`, where the clock reads `stamp`. -/
def createSnapshot (archive : Archive) (faults : SnapshotFaults) (stamp : String)
    (storage : ProjectDir) (workspace : Workspace) : Bool × ProjectDir :=
  let location := ["snapshot_" ++ stamp ++ ".tar.gz"]
  let content := archive.write stamp (listed faults.unlisted workspace.snapshotted)
  if storage.isDirectory location then (false, storage)
  else
    match faults.archive with
    | some .parents | some .unopened => (false, storage)
    | some (.torn bytes) => (false, storage.write location bytes)
    | none => (true, storage.write location content)

/-! ## The other operations -/

/-- The marker of a project in the trash. -/
def marker : Location := [".deleted.json"]

/-- `mark_deleted`, and what it leaves in the marker. -/
def markDeleted (storage : ProjectDir) (content : ByteArray) : ProjectDir :=
  if storage.isDirectory marker then storage else storage.write marker content

/-- `restore_project`. -/
def restoreProject (storage : ProjectDir) : ProjectDir := storage.unlink marker

/-- `remove_project`; what cannot be removed is left, and what is not come to. -/
def removeProject (storage : ProjectDir) (left : Location → Bool) : ProjectDir :=
  { directories := storage.directories.filter left
    files := storage.files.filter fun item => left item.1 }

/-- `upload`. -/
def upload (fault : Option WriteFault) (storage : ProjectDir) (location : Location)
    (content : ByteArray) : ProjectDir :=
  match storage.makeParents location, fault with
  | none, _ | some _, some .parents => storage
  | some made, some .unopened => made
  | some made, some (.torn bytes) =>
    if made.isDirectory location then made else made.write location bytes
  | some made, none => if made.isDirectory location then made else made.write location content

/-- `remove`: a directory in the list ends it. -/
def remove (storage : ProjectDir) : List Location → ProjectDir
  | [] => storage
  | location :: rest =>
    if storage.isDirectory location then storage else remove (storage.unlink location) rest

/-! ## Runs -/

structure State where
  storage : ProjectDir
  /-- The states of the project that have been synced or snapshotted. -/
  history : List (Dict Location ByteArray)

inductive Op
  | sync (faults : SyncFaults) (workspace : Workspace)
  | snapshot (faults : SnapshotFaults) (stamp : String) (workspace : Workspace)
  | fetch
  | markDeleted (content : ByteArray)
  | restoreProject
  | removeProject (left : Location → Bool)
  | upload (fault : Option WriteFault) (location : Location) (content : ByteArray)
  | remove (locations : List Location)

def step (archive : Archive) (state : State) : Op → State
  | .sync faults workspace =>
    let synced := syncFilesToStorage faults state.storage workspace
    ⟨synced.2, if synced.1 then workspace.kept :: state.history else state.history⟩
  | .snapshot faults stamp workspace =>
    let made := createSnapshot archive faults stamp state.storage workspace
    ⟨made.2, if made.1 then workspace.snapshotted :: state.history else state.history⟩
  | .fetch => state
  | .markDeleted content => ⟨Storage.markDeleted state.storage content, state.history⟩
  | .restoreProject => ⟨Storage.restoreProject state.storage, state.history⟩
  | .removeProject left => ⟨Storage.removeProject state.storage left, state.history⟩
  | .upload fault location content =>
    ⟨Storage.upload fault state.storage location content, state.history⟩
  | .remove locations => ⟨Storage.remove state.storage locations, state.history⟩

/-- The storage of one project, and what is done with it in any order. -/
def machine (archive : Archive) : Machine State Op where
  init := ⟨⟨[], []⟩, []⟩
  step state op := some (step archive state op)

end DbtCraft.Services.Storage
