/-
# File operations

The calls of `os`, `pathlib` and `shutil` as steps that change a disk, keep the
locations they touch, and return or raise. What such a step touches is followed through
sequences, so that an operation stays within a set of locations when each of its calls
does.
-/

import DbtCraft.Python.Disk

namespace DbtCraft.Python

/-- How a step ends: the disk after it, the locations it has touched, its result. -/
structure Outcome (α : Type) where
  disk : Disk
  touched : List Location
  result : Except Raised α

def FileOp (α : Type) := Disk → Outcome α

namespace FileOp

variable {α β : Type}

def raise (raised : Raised) : FileOp α := fun disk => ⟨disk, [], .error raised⟩

protected def bind (op : FileOp α) (next : α → FileOp β) : FileOp β := fun disk =>
  match (op disk).result with
  | .ok value =>
    let rest := next value (op disk).disk
    ⟨rest.disk, (op disk).touched ++ rest.touched, rest.result⟩
  | .error raised => ⟨(op disk).disk, (op disk).touched, .error raised⟩

instance : Monad FileOp where
  pure value := fun disk => ⟨disk, [], .ok value⟩
  bind := FileOp.bind

theorem bind_pure_eq (op : FileOp α) : FileOp.bind op pure = op := by
  funext disk
  unfold FileOp.bind
  rcases op disk with ⟨after, touched, raised | value⟩
  · rfl
  · simp only [pure, List.append_nil]

/-- Sequences can be read from either end. -/
theorem bind_bind_eq {γ : Type} (op : FileOp α) (next : α → FileOp β) (last : β → FileOp γ) :
    FileOp.bind (FileOp.bind op next) last =
      FileOp.bind op fun value => FileOp.bind (next value) last := by
  funext disk
  unfold FileOp.bind
  rcases op disk with ⟨after, touched, raised | value⟩
  · rfl
  · rcases hnext : next value after with ⟨later, touched', raised | value'⟩
    · simp [hnext]
    · simp [hnext]

instance : LawfulMonad FileOp :=
  LawfulMonad.mk' FileOp bind_pure_eq (fun _ _ => rfl) fun op next last => bind_bind_eq op next last

/-- `except OSError`. -/
def exceptOsError (op : FileOp α) (handler : String → Raised) : FileOp α := fun disk =>
  match (op disk).result with
  | .error .osError => ⟨(op disk).disk, (op disk).touched, .error (handler disk.strerror)⟩
  | _ => op disk

/-! ## Questions -/

/-- A call that follows a path and changes nothing. -/
def look (path : Path) (answer : Disk → Except Raised α) : FileOp α := fun disk =>
  ⟨disk, (disk.resolve path).toList, answer disk⟩

/-- `path.exists()`. -/
def pathExists (path : Path) : FileOp Bool := look path fun disk => .ok (disk.stat path).isSome

/-- `path.is_dir()`. -/
def isDir (path : Path) : FileOp Bool := look path fun disk =>
  match disk.stat path with
  | some .directory => .ok true
  | _ => .ok false

/-- `path.is_file()`. -/
def isFile (path : Path) : FileOp Bool := look path fun disk =>
  match disk.stat path with
  | some (.file _) => .ok true
  | _ => .ok false

/-- `path.stat().st_size if path.is_file() else None`. -/
def fileSize (path : Path) : FileOp (Option ℕ) := look path fun disk =>
  .ok (match disk.stat path with
    | some (.file bytes) => some bytes.size
    | _ => none)

/-- `path.read_text()`; text that cannot be decoded is a `UnicodeDecodeError`, which is a
`ValueError`. -/
def readText (path : Path) : FileOp String := look path fun disk =>
  match disk.stat path with
  | some (.file bytes) =>
    match String.fromUTF8? bytes with
    | some text => .ok text
    | none => .error (.valueError "'utf-8' codec can't decode bytes")
  | _ => .error .osError

/-- `path.iterdir()`. -/
def iterdir (path : Path) : FileOp (List String) := look path fun disk =>
  match disk.walk path, disk.stat path with
  | some (location, _), some .directory => .ok (disk.names location)
  | _, _ => .error .osError

/-- `exists` on a path that `resolve` has returned. -/
def locationExists (location : Location) : FileOp Bool := fun disk =>
  ⟨disk, [location], .ok (disk.nodeAt location).isSome⟩

/-! ## Changes -/

/-- `path.write_text(text)`. -/
def writeText (path : Path) (text : String) : FileOp Unit := fun disk =>
  match disk.walk path with
  | some (location, none) =>
    match disk.nodeAt location with
    | some .directory => ⟨disk, [location], .error .osError⟩
    | _ =>
      ⟨{ disk with nodes := disk.nodes.set location (.file text.toUTF8) }, [location], .ok ()⟩
  | _ => ⟨disk, (disk.resolve path).toList, .error .osError⟩

/-- The locations of an entry that is made: its own, and what an older link leads to. -/
def entryTouched (disk : Disk) (path : Path) : List Location :=
  (disk.entry path).toList ++ (disk.resolve path).toList

/-- `path.mkdir(exist_ok=existOk)`; the result tells whether its parent is there. -/
def mkdir (existOk : Bool) (path : Path) : FileOp Bool := fun disk =>
  match disk.mkdir path with
  | .made after => ⟨after, entryTouched disk path, .ok true⟩
  | .missing => ⟨disk, entryTouched disk path, .ok false⟩
  | .refused =>
    ⟨disk, entryTouched disk path,
      match existOk, disk.stat path with
      | true, some .directory => .ok true
      | _, _ => .error .osError⟩

/-- `path.mkdir(parents=True, exist_ok=existOk)`, on the components in reverse. -/
def mkdirParts (absolute : Bool) : List String → Bool → FileOp Unit
  | [], existOk => do
    if ← mkdir existOk ⟨absolute, []⟩ then pure () else raise .osError
  | part :: rest, existOk => do
    if ← mkdir existOk ⟨absolute, (part :: rest).reverse⟩ then pure ()
    else
      mkdirParts absolute rest true
      if ← mkdir existOk ⟨absolute, (part :: rest).reverse⟩ then pure () else raise .osError

def mkdirParents (existOk : Bool) (path : Path) : FileOp Unit :=
  mkdirParts path.absolute path.parts.reverse existOk

/-- `path.unlink()`. -/
def unlink (path : Path) : FileOp Unit := fun disk =>
  match disk.entry path with
  | some location =>
    ⟨{ disk with links := disk.links.pop location, nodes := disk.nodes.pop location },
      [location], .ok ()⟩
  | none => ⟨disk, [], .error .osError⟩

/-- The entries at a location and below it. -/
def under (disk : Disk) (location : Location) : List Location :=
  (disk.nodes.map (·.1) ++ disk.links.map (·.1)).filter fun entry => location <+: entry

/-- `shutil.rmtree(path)`: it refuses a link, and follows none. -/
def rmtree (path : Path) : FileOp Unit := fun disk =>
  let entries := (disk.entry path).toList
  match disk.isLink path, disk.resolve path with
  | false, some location =>
    ⟨{ disk with
        links := disk.links.filter fun item => ¬ location <+: item.1
        nodes := disk.nodes.filter fun item => ¬ location <+: item.1 },
      entries ++ location :: under disk location,
      if path.namesEntry then .ok () else .error .osError⟩
  | _, _ => ⟨disk, entries, .error .osError⟩

/-- A location after its directory has moved. -/
def moved (source target location : Location) : Location :=
  if source <+: location then target ++ location.drop source.length else location

/-- `os.rename(source, target)`, and what `shutil.move` does when it fails: only entries of
the source and the target itself are touched. -/
def rename (source target : Path) : FileOp Unit := fun disk =>
  let touched := (disk.entry source).toList ++ (disk.entry target).toList ++
    (disk.resolve source).toList
  match disk.entry source, disk.entry target with
  | some old, some new =>
    if old = new then ⟨disk, touched, .ok ()⟩
    else if old <+: new then ⟨disk, touched, .error .osError⟩
    else
      ⟨{ disk with
          links := (disk.links.pop new).map fun item => (moved old new item.1, item.2)
          nodes := disk.nodes.map fun item => (moved old new item.1, item.2) },
        touched ++ under disk old,
        if source.namesEntry then .ok () else .error .osError⟩
  | _, _ => ⟨disk, touched, .error .osError⟩

/-- `shutil.move(source, target)`. -/
def move (source target : Path) : FileOp Unit := do
  if ← isDir target then
    let same ← look source fun disk =>
      .ok (disk.resolve source = disk.resolve target ∧ disk.isLink source = false : Bool)
    if same then rename source target
    else if ← pathExists (target.child source.name) then raise .osError
    else rename source (target.child source.name)
  else rename source target

/-- `shutil.copyfile(source, target)`. -/
def copyFile (source target : Path) : FileOp Unit := fun disk =>
  let touched := (disk.resolve source).toList ++ (disk.resolve target).toList
  match disk.stat source, disk.walk target with
  | some (.file bytes), some (location, none) =>
    match disk.nodeAt location with
    | some .directory => ⟨disk, touched, .error .osError⟩
    | _ =>
      if disk.resolve source = some location then ⟨disk, touched, .error .osError⟩
      else ⟨{ disk with nodes := disk.nodes.set location (.file bytes) }, touched, .ok ()⟩
  | _, _ => ⟨disk, touched, .error .osError⟩

/-- `shutil.copy2(source, target)`. -/
def copy2 (source target : Path) : FileOp Unit := do
  if ← isDir target then copyFile source (target.child source.name)
  else copyFile source target

/-- `shutil.copytree(source, target)`: links are followed. The tree is the one that stands
when the copy begins. -/
def copytree (source target : Path) : FileOp Unit := fun disk =>
  let making := (disk.resolve target.parent).toList ++ entryTouched disk target
  match disk.mkdir target with
  | .made after =>
    let base := (disk.entry target).getD []
    let copies := (disk.below disk.depth source).map fun path =>
      (base ++ path.parts.drop source.parts.length, path)
    ⟨{ after with
        nodes := copies.foldl (fun nodes copy =>
          match disk.stat copy.2 with
          | some node => nodes.set copy.1 node
          | none => nodes) after.nodes },
      making ++ (disk.below disk.depth source).flatMap (fun path => (disk.resolve path).toList) ++
        copies.map (·.1),
      if copies.all fun copy => (disk.stat copy.2).isSome then .ok () else .error .osError⟩
  | _ => ⟨disk, (disk.resolve source).toList ++ making, .error .osError⟩

end FileOp

end DbtCraft.Python
