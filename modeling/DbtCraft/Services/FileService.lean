/-
# Project files

`FileService` of `app/services/file_service.py`, over the paths of
`app/services/project.py`. The upload of the editor is `save_content`.
-/

import DbtCraft.Python.FileOp
import DbtCraft.Python.Value

namespace DbtCraft.Services.FileService

open DbtCraft.Python FileOp

/-! ## Projects -/

/-- A `ProjectService`, with the project that a request is about. -/
structure Project where
  workspaceDir : Path
  projectId : String

namespace Project

variable (project : Project)

/-- `get_path`. -/
def getPath : Path := project.workspaceDir.child project.projectId

/-- `get_path_or_raise`. -/
def getPathOrRaise : FileOp Path := do
  if ← pathExists project.getPath then pure project.getPath
  else raise (.projectNotFound project.projectId)

/-- `ensure_exists`. -/
def ensureExists : FileOp Path := do
  mkdirParents true project.getPath
  pure project.getPath

/-- The target of a path that a client sends. -/
def target (relativePath : String) : Path := project.getPath.join (.ofString relativePath)

/-- `validate_subpath`: a null character is a `ValueError` of `resolve`, a loop a
`RuntimeError`. -/
def validateSubpath (relativePath : String) : FileOp Path := fun disk =>
  ⟨disk, [],
    match disk.resolve (project.target relativePath), disk.resolve project.getPath with
    | some location, some root =>
      if root <+: location then .ok (project.target relativePath)
      else .error (.invalidPath relativePath)
    | _, _ =>
      .error (if relativePath.toList.contains '\x00' then .invalidPath relativePath
        else .runtimeError)⟩

end Project

/-! ## Names and contents -/

/-- The directories that are never listed. -/
def skipDirs : List String :=
  [".git", "__pycache__", ".pytest_cache", "node_modules", ".venv", "venv"]

/-- `READABLE_EXTENSIONS`. -/
def readableExtensions : List String :=
  [".sql", ".yml", ".yaml", ".md", ".txt", ".rst", ".csv", ".tsv", ".py", ".js", ".ts", ".jsx",
    ".tsx", ".json", ".toml", ".ini", ".cfg", ".conf", ".env", ".properties", ".gitignore",
    ".dockerignore", ".editorconfig", ".log", ".logs", ".xml"]

/-- `READABLE_FILENAMES`. -/
def readableFilenames : List String :=
  ["Dockerfile", "Makefile", "LICENSE", "README", ".gitignore", ".dbtignore", ".dockerignore",
    ".env", ".env.example"]

/-- `_normalise_content`. -/
def normaliseContent (path : Path) (content : String) : String :=
  match content.toList with
  | '\ufeff' :: rest => if path.suffixLower = ".csv" then String.ofList rest else content
  | _ => content

/-- `_get_default_content`. -/
def getDefaultContent (target : Path) : String :=
  let heading := "# " ++ target.name
  let models := heading ++ "\nversion: 2\n\nmodels:\n  - name: example\n"
  ((Dict.get [(".sql", "-- " ++ target.name ++
      "\n\nSELECT\n    *\nFROM \x7b ref('source') \x7d\n"),
    (".yml", models), (".yaml", models),
    (".md", "# " ++ target.stemSuffix.1 ++ "\n\nDescription here\n"),
    (".csv", "id,name\n1,example\n"),
    (".py", heading ++ "\n\ndef model(dbt, session):\n    pass\n")] target.suffixLower)).getD ""

/-- What an operation returns. -/
def reply (items : List (String × String)) : Value :=
  .dict ((.str "success", .bool true) :: items.map fun item => (.str item.1, .str item.2))

/-! ## Reading -/

/-- An item of a listing. -/
structure Item where
  name : String
  path : String
  folder : Bool
  size : Option ℕ

def Item.value (item : Item) : Value :=
  .dict [(.str "name", .str item.name), (.str "path", .str item.path),
    (.str "type", .str (if item.folder then "folder" else "file")),
    (.str "size", match item.size with | some size => .int size | none => .none)]

/-- An item with the ones after it. -/
def itemOf (path : Path) (name : String) (folder : Bool) (rest : FileOp (List Item)) :
    Option Path → FileOp (List Item)
  | none => raise (.valueError "the item is not in the subpath of the project")
  | some relative => do
    let size ← fileSize path
    let others ← rest
    pure (⟨name, relative.str, folder, size⟩ :: others)

/-- The items of a directory. -/
def items (project target : Path) : List String → FileOp (List Item)
  | [] => pure []
  | name :: rest => do
    let folder ← isDir (target.child name)
    if folder ∧ name ∈ skipDirs then items project target rest
    else
      itemOf (target.child name) name folder (items project target rest)
        ((target.child name).relativeTo project)

/-- Folders first, then by name. -/
def Item.before (own other : Item) : Bool :=
  if own.folder = other.folder then own.name ≤ other.name else own.folder

variable (project : Project)

/-- `list_files`. -/
def listFiles (path : String) : FileOp Value := do
  let root ← project.getPathOrRaise
  let target := if path = "" then root else root.join (.ofString path)
  if ← pathExists target then
    let names ← iterdir target
    let found ← items root target names
    pure (.dict [(.str "path", .str path),
      (.str "items", .list ((found.mergeSort Item.before).map Item.value))])
  else raise (.fileNotFound path)

/-- The end of `read_file`, with the texts of what it raises. -/
def readContent (file : Path) (path : String) : FileOp String := fun disk =>
  ⟨disk, (readText file disk).touched,
    match (readText file disk).result with
    | .ok content => .ok content
    | .error (.valueError _) =>
      .error (.invalidPath ("Cannot read file '" ++ path ++
        "': file is not a valid text file or contains binary data"))
    | .error _ => .error (.invalidPath ("Cannot read file '" ++ path ++ "': " ++ disk.strerror))⟩

/-- `read_file`. -/
def readFile (path : String) : FileOp Value := do
  let _ ← project.getPathOrRaise
  let file := project.target path
  if ← pathExists file then
    let regular ← isFile file
    if regular = false then raise (.invalidPath ("Path is not a file: " ++ path))
    else if readableExtensions.contains file.suffixLower || readableFilenames.contains file.name then
      let content ← readContent file path
      pure (.dict [(.str "path", .str path), (.str "content", .str content)])
    else
      let shown := if file.suffixLower = "" then "no extension" else file.suffixLower
      raise (.invalidPath ("Cannot read file '" ++ path ++ "': unsupported file type '" ++
        shown ++ "'. Only text files are supported."))
  else raise (.fileNotFound path)

/-! ## Writing -/

/-- The parents of a file are made when they are missing. -/
def makeParent (file : Path) : FileOp Unit := do
  if ← pathExists file.parent then pure () else mkdirParents false file.parent

/-- `write_file`. -/
def writeFile (path content : String) : FileOp Value := do
  let _ ← project.getPathOrRaise
  let file ← project.validateSubpath path
  makeParent file
  exceptOsError (writeText file (normaliseContent file content))
    fun text => .invalidPath ("Cannot write file '" ++ path ++ "': " ++ text)
  pure (reply [("path", path)])

/-- `create`. -/
def create (path : String) (content : Option String) (fileType : String) : FileOp Value := do
  let _ ← project.ensureExists
  let target ← project.validateSubpath path
  exceptOsError (
    if fileType = "directory" then do
      mkdirParents true target
      pure (reply [("message", "Directory created: " ++ path), ("path", target.str)])
    else do
      mkdirParents true target.parent
      let given := content.getD ""
      let text := if given = "" then getDefaultContent target else given
      writeText target (normaliseContent target text)
      pure (reply [("message", "File created: " ++ path), ("path", target.str)]))
    fun text => .invalidPath ("Cannot create '" ++ path ++ "': " ++ text)

/-- `save_content`. -/
def saveContent (path content : String) : FileOp Value := do
  let _ ← project.getPathOrRaise
  let target ← project.validateSubpath path
  exceptOsError (do
      mkdirParents true target.parent
      writeText target (normaliseContent target content)
      pure (reply [("message", "File saved: " ++ path)]))
    fun text => .invalidPath ("Cannot save '" ++ path ++ "': " ++ text)

/-- A directory is removed with all it holds. -/
def remove (target : Path) : FileOp Unit := do
  if ← isDir target then rmtree target else unlink target

/-- `delete`. -/
def delete (path : String) : FileOp Value := do
  let _ ← project.getPathOrRaise
  if ← pathExists (project.target path) then
    let target ← project.validateSubpath path
    exceptOsError (do
        remove target
        pure (reply [("message", "Deleted: " ++ path)]))
      fun text => .invalidPath ("Cannot delete '" ++ path ++ "': " ++ text)
  else raise (.fileNotFound path)

/-! ## Moving and copying -/

/-- `rename`. -/
def rename (oldPath newPath : String) : FileOp Value := do
  let _ ← project.getPathOrRaise
  if ← pathExists (project.target oldPath) then
    if ← pathExists (project.target newPath) then
      raise (.invalidPath ("Path already exists: " ++ newPath))
    else
      let old ← project.validateSubpath oldPath
      let new ← project.validateSubpath newPath
      exceptOsError (do
          mkdirParents true new.parent
          FileOp.move old new
          pure (reply [("message", "Renamed: " ++ oldPath ++ " -> " ++ newPath),
            ("old_path", oldPath), ("new_path", newPath)]))
        fun text => .invalidPath ("Cannot rename '" ++ oldPath ++ "': " ++ text)
  else raise (.fileNotFound oldPath)

/-- `dest_target` of `move`: an empty path is the root of the project. -/
def moveTarget (sourcePath destPath : String) : Path :=
  if strip destPath = "" then project.target (Path.ofString sourcePath).name
  else project.target destPath

/-- Any exception of the check of `source_path` is a missing file. -/
def validateSource (sourcePath : String) : FileOp Path := fun disk =>
  match (project.validateSubpath sourcePath disk).result with
  | .ok source => ⟨disk, [], .ok source⟩
  | .error _ => ⟨disk, [], .error (.fileNotFound sourcePath)⟩

/-- The final destination lies in an existing directory. -/
def findDestination (dest : Path) (name : String) : FileOp Path := do
  if ← pathExists dest then
    let folder ← isDir dest
    pure (if folder then dest.child name else dest)
  else pure dest

/-- The checks of `move` on its final destination, with its path in the project. -/
def checkMove (sourcePath destPath : String) (source final : Path) :
    FileOp (Location × Path) := fun disk =>
  ⟨disk, [],
    match disk.resolve project.getPath, disk.resolve final, disk.resolve source with
    | some root, some location, some own =>
      if root <+: location then
        if own <+: location then
          .error (.invalidPath ("Cannot move '" ++ sourcePath ++ "' into itself or a subdirectory"))
        else .ok (location, ⟨false, location.drop root.length⟩)
      else .error (.invalidPath ("Invalid destination path: " ++ destPath))
    | _, _, _ => .error .runtimeError⟩

/-- `move`. -/
def move (sourcePath destPath : String) : FileOp Value := do
  let _ ← project.getPathOrRaise
  let source ← validateSource project sourcePath
  if ← pathExists source then
    let dest := moveTarget project sourcePath destPath
    let final ← findDestination dest source.name
    let (location, relative) ← checkMove project sourcePath destPath source final
    if ← locationExists location then
      raise (.invalidPath ("Destination already exists: " ++ relative.str))
    else
      mkdirParents true final.parent
      exceptOsError (do
          FileOp.move source final
          pure (reply [("message", "Moved to " ++ relative.str), ("source_path", sourcePath),
            ("dest_path", relative.str)]))
        fun text => .invalidPath ("Failed to move '" ++ sourcePath ++ "' to '" ++ destPath ++
          "': " ++ text)
  else raise (.fileNotFound sourcePath)

def copyFileOrTree (source target : Path) : FileOp Unit := do
  if ← isDir source then copytree source target else copy2 source target

/-- The end of `copy` and `duplicate`: the copy, and its path in the project. -/
def copyTo (source target : Path) : FileOp String := do
  copyFileOrTree source target
  match target.relativeTo project.getPath with
  | some relative => pure relative.str
  | none => raise (.valueError "the copy is not in the subpath of the project")

/-- `copy`. -/
def copy (sourcePath destPath : String) : FileOp Value := do
  let _ ← project.getPathOrRaise
  if ← pathExists (project.target sourcePath) then
    let source ← project.validateSubpath sourcePath
    let dest ← project.validateSubpath destPath
    let final ← findDestination dest source.name
    if ← pathExists final then raise (.invalidPath ("Path already exists: " ++ destPath))
    else
      exceptOsError (do
          mkdirParents true final.parent
          let copied ← copyTo project source final
          pure (reply [("message", "Copied: " ++ sourcePath ++ " -> " ++ copied),
            ("source_path", sourcePath), ("dest_path", copied)]))
        fun text => .invalidPath ("Cannot copy '" ++ sourcePath ++ "': " ++ text)
  else raise (.fileNotFound sourcePath)

/-- The name of the copy with a number. -/
def copyName (source : Path) (folder : Bool) (count : ℕ) : String :=
  let number := if count = 1 then "" else toString count
  if folder then source.name ++ "_copy" ++ number
  else source.stemSuffix.1 ++ "_copy" ++ number ++ source.stemSuffix.2

/-- The first name from a number on that is free. -/
def freeName (source : Path) (folder : Bool) : ℕ → ℕ → FileOp Path
  | 0, count => pure (source.parent.child (copyName source folder count))
  | tries + 1, count => do
    if ← pathExists (source.parent.child (copyName source folder count)) then
      freeName source folder tries (count + 1)
    else pure (source.parent.child (copyName source folder count))

/-- A name that is free: a directory has no more entries than the disk. -/
def findCopyName (source : Path) (folder : Bool) : FileOp Path := fun disk =>
  freeName source folder (disk.nodes.length + disk.links.length + 1) 1 disk

/-- `duplicate`. -/
def duplicate (path : String) : FileOp Value := do
  let _ ← project.getPathOrRaise
  if ← pathExists (project.target path) then
    let source ← project.validateSubpath path
    let folder ← isDir source
    let new ← findCopyName source folder
    let copied ← exceptOsError (copyTo project source new)
      fun text => .invalidPath ("Cannot duplicate '" ++ path ++ "': " ++ text)
    pure (reply [("message", "Duplicated: " ++ path ++ " -> " ++ copied),
      ("original_path", path), ("new_path", copied)])
  else raise (.fileNotFound path)

/-! ## Requests -/

/-- A request to the service. -/
inductive Request
  | list (path : String)
  | read (path : String)
  | write (path content : String)
  | create (path : String) (content : Option String) (fileType : String)
  | save (path content : String)
  | delete (path : String)
  | rename (oldPath newPath : String)
  | move (sourcePath destPath : String)
  | copy (sourcePath destPath : String)
  | duplicate (path : String)

def run : Request → FileOp Value
  | .list path => listFiles project path
  | .read path => readFile project path
  | .write path content => writeFile project path content
  | .create path content fileType => create project path content fileType
  | .save path content => saveContent project path content
  | .delete path => delete project path
  | .rename oldPath newPath => rename project oldPath newPath
  | .move sourcePath destPath => move project sourcePath destPath
  | .copy sourcePath destPath => copy project sourcePath destPath
  | .duplicate path => duplicate project path

end DbtCraft.Services.FileService
