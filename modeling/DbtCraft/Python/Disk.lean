/-
# Disks

A file system with symbolic links and without permissions, and the calls of `os`,
`pathlib` and `shutil` that work on it. Every call keeps the locations of the files it
reads, lists, tests, writes or deletes. A call that follows links touches the file a path
leads to, one that does not touches the entry that the path names.
-/

import DbtCraft.Exceptions
import DbtCraft.Python.Dict
import DbtCraft.Python.Path

namespace DbtCraft.Python

/-- A real path: the components below the root, none of them a link. -/
abbrev Location := List String

/-- That of the core library, whatever else is imported. -/
instance decidableEqByteArray : DecidableEq ByteArray := ByteArray.instDecidableEq

inductive Node
  | directory
  | file (bytes : ByteArray)
  deriving DecidableEq

structure Disk where
  /-- The working directory of the process. -/
  cwd : Location
  links : Dict Location Path
  nodes : Dict Location Node
  /-- How deep a walk through directories comes before its paths are too long. -/
  depth : ℕ
  /-- The text of an `OSError`. -/
  strerror : String

/-- Why a path does not lead to the directory of its last component. -/
inductive Fault
  | missing
  | notDirectory
  deriving DecidableEq

namespace Disk

variable (disk : Disk)

def nodeAt (location : Location) : Option Node :=
  if location = [] then some .directory else disk.nodes.get location

/-- A walk steps on from a location. -/
def leave (location : Location) (fault : Option Fault) : Option Fault :=
  match fault with
  | some fault => some fault
  | none =>
    match disk.nodeAt location with
    | some .directory => none
    | some (.file _) => some .notDirectory
    | none => some .missing

/-- A walk up to the first link, with the target of the link and what follows it. -/
def advance : Location → Option Fault → List String →
    Location × Option Fault × Option (Path × List String)
  | location, fault, [] => (location, fault, none)
  | location, fault, part :: rest =>
    let left := disk.leave location fault
    if part = ".." then advance location.dropLast left rest
    else
      match disk.links.get (location ++ [part]) with
      | some target => (location, left, some (target, rest))
      | none => advance (location ++ [part]) left rest

/-- A walk through so many links at most; `none` is a loop. -/
def follow : ℕ → Location → Option Fault → List String → Option (Location × Option Fault)
  | budget, location, fault, parts =>
    match disk.advance location fault parts, budget with
    | (last, left, none), _ => some (last, left)
    | (_, _, some _), 0 => none
    | (base, left, some (target, rest)), budget + 1 =>
      follow budget (if target.absolute then [] else base) left (target.parts ++ rest)

/-- `MAXSYMLINKS`. -/
def maxSymlinks : ℕ := 40

/-- Where a path leads, and whether every directory on the way is there. No path with a
null character leads anywhere. -/
def walk (path : Path) : Option (Location × Option Fault) :=
  if path.parts.any (·.toList.contains '\x00') then none
  else disk.follow maxSymlinks (if path.absolute then [] else disk.cwd) none path.parts

/-- `path.resolve()`. -/
def resolve (path : Path) : Option Location := (disk.walk path).map (·.1)

/-- What `stat` finds. -/
def stat (path : Path) : Option Node :=
  match disk.walk path with
  | some (location, none) => disk.nodeAt location
  | _ => none

/-- The entry that a path names. -/
def entry (path : Path) : Option Location :=
  if path.namesEntry then (disk.resolve path.parent).map (· ++ [path.name])
  else disk.resolve path

/-- `os.path.islink(path)`. -/
def isLink (path : Path) : Bool :=
  match disk.entry path with
  | some location => path.namesEntry && (disk.links.get location).isSome
  | none => false

/-- The names in a directory. -/
def names (location : Location) : List String :=
  (disk.nodes.map (·.1) ++ disk.links.map (·.1)).filterMap fun entry =>
    if entry.dropLast = location then entry.getLast? else none

/-- How `os.mkdir` ends. -/
inductive Mkdir
  | made (disk : Disk)
  | /-- `FileNotFoundError`. -/
    missing
  | /-- Any other `OSError`. -/
    refused

/-- `os.mkdir(path)`. -/
def mkdir (path : Path) : Mkdir :=
  match disk.walk path.parent with
  | none => .refused
  | some (base, fault) =>
    match disk.leave base fault with
    | some .missing => .missing
    | some .notDirectory => .refused
    | none =>
      let location := base ++ [path.name]
      if path.namesEntry = false ∨ disk.links.get location ≠ none ∨
          (disk.nodeAt location).isSome then .refused
      else .made { disk with nodes := disk.nodes.set location .directory }

/-- The path and everything below it, through links. -/
def below : ℕ → Path → List Path
  | 0, path => [path]
  | depth + 1, path =>
    path ::
      match disk.walk path with
      | some (location, none) =>
        match disk.nodeAt location with
        | some .directory =>
          (disk.names location).flatMap fun name => below depth (path.child name)
        | _ => []
      | _ => []

end Disk

end DbtCraft.Python
