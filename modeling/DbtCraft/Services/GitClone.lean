/-
# Cloning a repository

`clone` of `app/services/git_service.py`, as a sequence of steps on the disk of the
workspace. What fails is part of a call: every step may raise (a cancellation raises where
the call waits), and a step of `shutil` or of git that fails leaves a part of what it was
about.
-/

import DbtCraft.Python.Subtree
import DbtCraft.Services.GitCredentials

namespace DbtCraft.Services.GitClone

open DbtCraft.Python

/-- What `clone` raises. -/
inductive CloneError
  | /-- `GitOperationError`. -/
    gitOperation (operation message : String)
  | /-- Anything that a library raises. -/
    other (raised : Raised)
  | cancelled
  deriving DecidableEq

/-- Where a project and its backup are. -/
structure Site where
  workspaceDir : Location
  projectId : String
  /-- `datetime.now().strftime("%Y%m%d_%H%M%S")`. -/
  timestamp : String

namespace Site

variable (site : Site)

/-- `project_path`. -/
def projectPath : Location := site.workspaceDir ++ [site.projectId]

/-- `backup_path`. -/
def backupPath : Location :=
  site.workspaceDir ++ [site.projectId ++ "_backup_" ++ site.timestamp]

end Site

/-! ## What the call meets -/

/-- How `shutil.move` ends. -/
inductive MoveEnd
  | moved
  | /-- It raises: what is still in the project, and what it has copied. -/
    failed (kept : Location → Bool) (copied : Tree)

/-- `shutil.rmtree` raises: what it has not removed. -/
structure Stopped where
  error : CloneError
  kept : Location → Bool

/-- How `git clone` ends, and what it leaves in the project. -/
inductive GitEnd
  | succeeded (tree : Tree)
  | failed (stderr : String) (tree : Tree)
  | raised (error : CloneError) (tree : Tree)

/-- What it leaves. -/
def GitEnd.tree : GitEnd → Tree
  | .succeeded tree | .failed _ tree | .raised _ tree => tree

/-- What becomes of the remote `upstream`. -/
inductive UpstreamEnd
  | /-- The repository has one, or git does not add it. -/
    unchanged
  | /-- Git writes its configuration anew. -/
    added (config : ByteArray)
  | raised (error : CloneError)

/-- The file that `git remote add` writes. -/
def gitConfig : Location := [".git", "config"]

/-- The clone with its remotes. -/
def UpstreamEnd.configured : UpstreamEnd → Tree → Tree
  | .added config, tree => tree.setFile gitConfig config
  | _, tree => tree

/-- How the steps of a call end; `none` is a step that does not raise. -/
structure Course where
  move : MoveEnd
  remove : Option Stopped
  resolveCredentials : Option CloneError
  git : GitEnd
  deleteGitCredentials : Option CloneError
  saveGitCredentials : Option CloneError
  upstream : UpstreamEnd
  /-- `find_dbt_project` cannot look at the project. -/
  look : Option CloneError
  /-- `StorageService()` raises; what raises in the synchronisation is caught. -/
  storage : Option CloneError
  /-- `backup_path.exists()` raises. -/
  checkBackup : Option CloneError

/-- What `clone` returns. -/
structure Cloned where
  projectPath : Location
  message : String
  backupPath : Option Location
  deriving DecidableEq

/-- The disk that a call leaves, and how it ends. -/
abbrev Ended (α : Type) := Disk × Except CloneError α

variable (site : Site) (course : Course)

/-! ## The backup -/

/-- Where `shutil.move` puts the project: in a directory that is there already, or at it. -/
def moveTarget (disk : Disk) : Location :=
  if disk.stat ⟨true, site.backupPath⟩ = some .directory then site.backupPath ++ [site.projectId]
  else site.backupPath

/-- `shutil.move`; it raises where the project would come to lie on something. -/
def moveEnd (disk : Disk) : MoveEnd :=
  if moveTarget site disk ≠ site.backupPath ∧ (disk.stat ⟨true, moveTarget site disk⟩).isSome then
    .failed (fun _ => true) Tree.empty
  else course.move

/-- The project is moved aside, or removed where that fails. -/
def backUp (disk : Disk) : Ended (Option Location) :=
  match moveEnd site course disk with
  | .moved =>
    ((disk.prune site.projectPath fun _ => false).place (moveTarget site disk)
      (disk.treeAt site.projectPath), .ok (some site.backupPath))
  | .failed kept copied =>
    let left := (disk.prune site.projectPath kept).place (moveTarget site disk) copied
    match course.remove with
    | none => (left.prune site.projectPath fun _ => false, .ok none)
    | some stopped => (left.prune site.projectPath stopped.kept, .error stopped.error)

/-- The backup of a project that exists. -/
def backUpExisting (disk : Disk) : Ended (Option Location) :=
  if (disk.stat ⟨true, site.projectPath⟩).isSome then backUp site course disk else (disk, .ok none)

/-! ## The clone -/

/-- `find_dbt_project`. -/
def findDbtProject (disk : Disk) : Option Location :=
  let root := site.projectPath
  if (disk.stat ⟨true, root ++ ["dbt_project.yml"]⟩).isSome then some root
  else (disk.names root).findSome? fun name =>
    if disk.stat ⟨true, root ++ [name]⟩ = some .directory ∧
        (disk.stat ⟨true, root ++ [name, "dbt_project.yml"]⟩).isSome then some (root ++ [name])
    else none

/-- The remote `upstream`. -/
def addUpstream (disk : Disk) : Disk :=
  match course.upstream with
  | .added config => disk.setFile (site.projectPath ++ gitConfig) config
  | _ => disk

/-- The message of a clone, with the backup that is there. -/
def messageOf (disk : Disk) (backup : Option Location) : String :=
  match backup with
  | some path =>
    if (disk.stat ⟨true, path⟩).isSome then
      "Repository cloned successfully. Previous project backed up to: " ++ path.getLast?.getD ""
    else "Repository cloned successfully"
  | none => "Repository cloned successfully"

/-- The part of `clone` after the clone has been saved. -/
def finish (backup : Option Location) (disk : Disk) : Except CloneError Cloned :=
  match course.look with
  | some error => .error error
  | none =>
    match findDbtProject site disk with
    | none => .error (.gitOperation "clone" "No dbt_project.yml found in repository")
    | some path =>
      match course.storage, backup, course.checkBackup with
      | some error, _, _ | none, some _, some error => .error error
      | none, _, _ => .ok ⟨path, messageOf disk backup, backup⟩

/-- The part of `clone` after `git clone` has succeeded. -/
def afterGit (backup : Option Location) (disk : Disk) : Ended Cloned :=
  match course.saveGitCredentials, course.upstream with
  | some error, _ | none, .raised error => (disk, .error error)
  | none, _ =>
    let configured := addUpstream site course disk
    (configured, finish site course backup configured)

/-- What is raised where git fails. -/
def gitError (stderr : String) : CloneError :=
  match GitCredentials.looksLikeAuthFailure stderr, course.deleteGitCredentials with
  | true, some error => error
  | _, _ => .gitOperation "clone" stderr

/-- The part of `clone` after the backup. -/
def cloneInto (backup : Option Location) (disk : Disk) : Ended Cloned :=
  match course.resolveCredentials with
  | some error => (disk, .error error)
  | none =>
    let after := disk.place site.projectPath course.git.tree
    match course.git with
    | .raised error _ => (after, .error error)
    | .failed stderr _ => (after, .error (gitError course stderr))
    | .succeeded _ => afterGit site course backup after

/-- `clone`. -/
def clone (disk : Disk) : Ended Cloned :=
  match backUpExisting site course disk with
  | (after, .error error) => (after, .error error)
  | (after, .ok backup) => cloneInto site course backup after

end DbtCraft.Services.GitClone
