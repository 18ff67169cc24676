/-
# Publishing to Iceberg

`publish` of `ingest/iceberg.py`: the tables of a lake schema are registered one after the
other in an Iceberg catalog over copies of their files. A table is brought up to date by
adding files, or dropped, copied anew and registered again; every call in between may raise.
-/

import Mathlib.Logic.Function.Basic
import DbtCraft.Exceptions
import DbtCraft.Python.Dict

namespace DbtCraft.Ingest.Iceberg

open DbtCraft.Python

/-! ## Tables -/

/-- The data files of a lake table by their names. DuckLake never gives a name to two files. -/
structure LakeFiles where
  names : List String
  nodup : names.Nodup

/-- An Iceberg table and the directory of its copies. -/
structure TableState where
  /-- The files that the catalog registers the table over. -/
  registered : Option (List String)
  /-- The copies in the directory, if it is there: complete or torn. -/
  directory : Option (Dict String Bool)

/-- The directory after `mkdir(parents=True, exist_ok=True)`. -/
def TableState.mkdir (state : TableState) : TableState :=
  { state with directory := some (state.directory.getD []) }

/-- The copy of a file is complete. -/
def TableState.has (state : TableState) (name : String) : Bool :=
  (state.directory.getD []).get name = some true

/-- What raises while a table is published, with the text of the exception. A call to the
catalog that raises has no effect. -/
structure Faults where
  /-- `_data_files`. -/
  dataFiles : Option String
  /-- `load_table` in `_registered_names`, on a table that is registered. -/
  loadTable : Option String
  /-- `table.inspect.files()`. -/
  inspect : Option String
  /-- The query for the schema of the lake table. -/
  lakeSchema : Option String
  dropTable : Option String
  /-- `shutil.rmtree`, after it has removed some files. -/
  rmtree : Option (String × (String → Bool))
  mkdir : Option String
  /-- `shutil.copy2` for a file; its copy may be torn. -/
  copy : String → Option (String × Bool)
  createTable : Option String
  /-- The second `load_table`. -/
  reloadTable : Option String
  addFiles : Option String

/-! ## One table -/

/-- `[_copy(...) for ...]`: the first exception ends it. -/
def copyFiles (faults : Faults) : List String → Dict String Bool → Option String × Dict String Bool
  | [], copies => (none, copies)
  | name :: rest, copies =>
    match faults.copy name with
    | none => copyFiles faults rest (copies.set name true)
    | some (exc, torn) => (some exc, if torn then copies.set name false else copies)

/-- The copies of some files in a directory that is there. -/
def TableState.copied (state : TableState) (faults : Faults) (names : List String) :
    Option String × TableState :=
  let result := copyFiles faults names (state.directory.getD [])
  (result.1, { state with directory := some result.2 })

/-- `_registered_names`; the outer error is an exception of its own. -/
def registeredNames (faults : Faults) (state : TableState) : Except String (Option (List String)) :=
  match state.registered, faults.loadTable with
  | some names, none =>
    match faults.inspect with
    | none => .ok (some names)
    | some exc => .error exc
  | _, _ => .ok none

/-- The files that are not published yet are copied and added. -/
def addNew (faults : Faults) (published new : List String) (state : TableState) :
    Except String String × TableState :=
  match faults.mkdir with
  | some exc => (.error exc, state)
  | none =>
    match state.mkdir.copied faults new with
    | (some exc, state) => (.error exc, state)
    | (none, state) =>
      match faults.reloadTable, faults.addFiles with
      | some exc, _ | none, some exc => (.error exc, state)
      | none, none =>
        (.ok ("incremental: +" ++ toString new.length ++ " file(s)"),
          { state with registered := some (published ++ new) })

/-- `target_dir` is removed if it is there. -/
def clearDirectory (faults : Faults) (state : TableState) : Option String × TableState :=
  match state.directory, faults.rmtree with
  | none, _ => (none, state)
  | some _, none => (none, { state with directory := none })
  | some copies, some (exc, removed) =>
    (some exc, { state with directory := some (copies.filter fun copy => !removed copy.1) })

/-- `create_table(...).add_files(...)`. -/
def register (faults : Faults) (names : List String) (state : TableState) :
    Except String String × TableState :=
  match state.registered, faults.createTable with
  | some _, _ => (.error "Table already exists", state)
  | none, some exc => (.error exc, state)
  | none, none =>
    match faults.addFiles with
    | some exc => (.error exc, { state with registered := some [] })
    | none =>
      (.ok ("full: " ++ toString names.length ++ " file(s)"), { state with registered := some names })

/-- The directory is made anew, filled and registered. -/
def copyAll (faults : Faults) (names : List String) (state : TableState) :
    Except String String × TableState :=
  match clearDirectory faults state with
  | (some exc, state) => (.error exc, state)
  | (none, state) =>
    match faults.mkdir with
    | some exc => (.error exc, state)
    | none =>
      match state.mkdir.copied faults names with
      | (some exc, state) => (.error exc, state)
      | (none, state) => register faults names state

/-- The full refresh. -/
def refresh (faults : Faults) (names : List String) (published : Bool) (state : TableState) :
    Except String String × TableState :=
  match faults.lakeSchema with
  | some exc => (.error exc, state)
  | none =>
    if published then
      match faults.dropTable with
      | some exc => (.error exc, state)
      | none => copyAll faults names { state with registered := none }
    else copyAll faults names state

/-- `sorted(set(by_name) - published)`. -/
def newNames (names published : List String) : List String :=
  (names.filter (· ∉ published)).mergeSort fun first second => decide (first ≤ second)

/-- `_publish_one`. -/
def publishOne (faults : Faults) (files : LakeFiles) (state : TableState) :
    Except String String × TableState :=
  match faults.dataFiles with
  | some exc => (.error exc, state)
  | none =>
    if files.names = [] then (.error "table has no data files", state)
    else
      match registeredNames faults state with
      | .error exc => (.error exc, state)
      | .ok none => refresh faults files.names false state
      | .ok (some published) =>
        if published ⊆ files.names then
          if newNames files.names published = [] then (.ok "unchanged", state)
          else addNew faults published (newNames files.names published) state
        else refresh faults files.names true state

/-! ## All tables -/

/-- The Iceberg tables by the names of their lake tables, which are names of directories too. -/
abbrev World := String → TableState

/-- A schema of a lake. -/
structure LakeSchema where
  tables : List String
  files : String → LakeFiles

/-- A table that is published, with what raises meanwhile. -/
abbrev Attempt := String × Faults

/-- The world after an attempt. -/
def LakeSchema.attempt (lake : LakeSchema) (world : World) (attempt : Attempt) : World :=
  Function.update world attempt.1
    (publishOne attempt.2 (lake.files attempt.1) (world attempt.1)).2

/-- `results[table]`. -/
def resultText : Except String String → String
  | .ok text => text
  | .error exc => "failed: " ++ exc

/-- The loop over the selected tables. -/
def publishTables (lake : LakeSchema) :
    List Attempt → World → Dict String String → Dict String String × World
  | [], world, results => (results, world)
  | attempt :: rest, world, results =>
    let result := (publishOne attempt.2 (lake.files attempt.1) (world attempt.1)).1
    publishTables lake rest (lake.attempt world attempt) (results.set attempt.1 (resultText result))

/-- `_IDENTIFIER_RE`, which a line feed at the end does not keep from matching. -/
def isIdentifier (name : String) : Bool :=
  let letters := name.toList
  let bare := if letters.getLast? = some '\n' then letters.dropLast else letters
  match bare with
  | [] => false
  | c :: rest =>
    (c.isAlpha || c = '_') && decide (rest.length ≤ 62) &&
      rest.all fun d => d.isAlphanum || d = '_' || d = '$'

/-- `_validated`. -/
def validated (name kind : String) : Except Raised String :=
  if isIdentifier name then .ok name
  else .error (.icebergPublish ("unusable " ++ kind ++ " name: '" ++ name ++ "'"))

/-- The tables that a request selects. -/
def selectTables (lake : LakeSchema) (schema : String) : Option (List String) →
    Except Raised (List String)
  | none => .ok lake.tables
  | some tables => do
    let selected ← tables.mapM (validated · "table")
    let missing := selected.filter (· ∉ lake.tables)
    if missing = [] then return selected
    .error (.icebergPublish ("not in lake schema '" ++ schema ++ "': " ++
      String.intercalate ", " (missing.take 5)))

/-- What raises while the lake is attached and listed, and while the catalog is opened. -/
structure Opening where
  lake : Option Raised
  listing : Option Raised
  catalog : Option Raised

/-- The attempts that a call comes to, which are all that it does to the tables. -/
def attempts (opening : Opening) (lake : LakeSchema) (schema : String)
    (tables : Option (List String)) (faults : ℕ → Faults) : Except Raised (List Attempt) := do
  let schema ← validated schema "schema"
  match opening.lake, opening.listing with
  | some raised, _ | none, some raised => .error raised
  | none, none =>
    let selected ← selectTables lake schema tables
    if selected = [] then return []
    match opening.catalog with
    | some raised => .error raised
    | none => return selected.zipIdx.map fun table => (table.1, faults table.2)

/-- `publish`, with its results by table. -/
def publish (opening : Opening) (lake : LakeSchema) (schema : String)
    (tables : Option (List String)) (faults : ℕ → Faults) (world : World) :
    Except Raised (Dict String String) × World :=
  match attempts opening lake schema tables faults with
  | .error raised => (.error raised, world)
  | .ok attempts =>
    let published := publishTables lake attempts world []
    (.ok published.1, published.2)

end DbtCraft.Ingest.Iceberg
