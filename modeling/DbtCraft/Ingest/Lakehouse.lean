/-
# Lakehouses

The `LakeRef` of `ingest/lakehouse.py`, the job configuration it is sent in, and the
guards in front of the two operations that delete files.
-/

import DbtCraft.Exceptions
import DbtCraft.Python.Dict
import DbtCraft.Python.Text

namespace DbtCraft.Ingest.Lakehouse

open DbtCraft.Python

/-- `ATTACH_ALIAS`. -/
def attachAlias : String := "lake"

/-- `MODE_MANAGED`. -/
def modeManaged : String := "managed"

/-- `MODE_EXTERNAL`. -/
def modeExternal : String := "external"

/-- Everything needed to attach one DuckLake catalog. -/
structure LakeRef where
  catalogUrl : String
  dataPath : String
  metadataSchema : String
  mode : String := modeManaged
  maintained : Bool := true
  deriving DecidableEq

namespace LakeRef

/-- `managed`. -/
def managed (lake : LakeRef) : Bool := lake.mode = modeManaged

/-- `as_job_config`. -/
def asJobConfig (lake : LakeRef) : Dict String String :=
  [("catalog_url", lake.catalogUrl), ("data_path", lake.dataPath),
    ("metadata_schema", lake.metadataSchema), ("mode", lake.mode),
    ("ducklake_name", attachAlias)]

/-- `config[key]`. -/
def required (config : Dict String String) (key : String) : Except Raised String :=
  match config.get key with
  | some value => .ok value
  | none => .error .keyError

/-- `config.get("mode") or MODE_MANAGED`. -/
def modeOf (config : Dict String String) : String :=
  match config.get "mode" with
  | some mode => if mode = "" then modeManaged else mode
  | none => modeManaged

/-- `from_job_config`. -/
def fromJobConfig (config : Dict String String) : Except Raised LakeRef := do
  let catalogUrl ← required config "catalog_url"
  let dataPath ← required config "data_path"
  let metadataSchema ← required config "metadata_schema"
  return { catalogUrl, dataPath, metadataSchema, mode := modeOf config }

end LakeRef

/-! ## Names -/

/-- `_SCHEMA_RE`. -/
def isSchemaName (name : List Char) : Bool :=
  match name with
  | [] => false
  | c :: rest =>
    (c.isAlpha || c = '_') && decide (rest.length ≤ 62) &&
      rest.all fun d => d.isAlphanum || d = '_' || d = '$'

/-- `validate_metadata_schema`. -/
def validateMetadataSchema (name : String) : Except Raised String :=
  let candidate := strip name
  if isSchemaName candidate.toList then .ok candidate
  else
    .error (.lakehouse ("invalid metadata schema '" ++ name ++
      "': use a letter or underscore followed by letters, digits, _ or $ (max 63 characters)"))

/-! ## Guards -/

/-- What `maintain` refuses before it attaches the lake. -/
def maintainGuard (lake : LakeRef) (retentionDays : ℤ) : Except Raised Unit :=
  if retentionDays < 0 then .error (.lakehouse "retention_days cannot be negative")
  else if lake.maintained then .ok ()
  else
    .error (.lakehouse
      "this lakehouse is not maintained by this deployment - its owner runs its garbage collection")

/-- What `destroy` refuses before it deletes anything. -/
def destroyGuard (lake : LakeRef) : Except Raised Unit :=
  if lake.managed then .ok ()
  else
    .error (.lakehouse
      "refusing to delete an external lakehouse: its catalog and files belong to whoever created it")

end DbtCraft.Ingest.Lakehouse
