/-
# Lakehouse connections

`app/services/lakes.py` and the parts of `ingest/lakehouse.py` it uses: where a managed
lake lives, what is stored for a lake that the connection form describes, and the
`LakeRef` that a stored row is read as.
-/

import DbtCraft.Ingest.AttachString
import DbtCraft.Ingest.LakePaths
import DbtCraft.Services.ConnectionConfig

namespace DbtCraft.Services.Lakes

open DbtCraft.Python DbtCraft.Python.Url DbtCraft.Ingest.Lakehouse
open DbtCraft.Services.ConnectionConfig hiding text

/-- A character that `_UUID_CHARS` leaves. -/
def isSlugChar (c : Char) : Bool := c.isLower || c.isDigit

/-- A name that `_UUID_CHARS` has left something of. -/
def isSlug (name : String) : Bool := name ≠ "" && name.toList.all isSlugChar

/-- The deployment that lakes are validated for. -/
structure Deployment where
  platform : Platform
  settings : LakeSettings
  /-- `_configured_catalog_url()`. -/
  catalogUrl : String
  tables : Tables
  /-- `assert_host_allowed`. -/
  assertHostAllowed : Ingest.Lakehouse.Text → Option ℕ → Except Raised Unit
  /-- `str(Path(base) / name)`, where names of letters and digits stay apart. -/
  pathIn : String → String → String
  pathIn_inj : ∀ base own other, isSlug own = true → isSlug other = true →
    pathIn base own = pathIn base other → own = other
  decrypt : Decrypt
  /-- `str(value)` of a value that is not text. -/
  shown : Value → String

/-- `CONNECTION_TYPE`. -/
def connectionType : String := "ducklake"

/-- `CATALOG_POSTGRES`. -/
def catalogPostgres : String := "postgresql"

/-- `CATALOG_SQLITE`. -/
def catalogSqlite : String := "sqlite"

/-! ## Where a managed lake lives -/

/-- A lake id without what `_UUID_CHARS` removes, in lower case. -/
def slugOf (lakeId : String) : List Char :=
  (lakeId.toList.map Char.toLower).filter isSlugChar

/-- `metadata_schema`. -/
def metadataSchema (lakeId : String) : Except Raised String :=
  if slugOf lakeId = [] then .error (.lakehouse "lake id is not a usable catalog name")
  else .ok ("lake_" ++ String.ofList ((slugOf lakeId).take 24))

variable (deployment : Deployment)

/-- `data_dir`, as text. -/
def dataDir (lakeId : String) : Except Raised String :=
  if slugOf lakeId = [] then .error (.lakehouse "lake id is not a usable data path")
  else
    .ok (deployment.pathIn (configuredOwn deployment.platform deployment.settings)
      (String.ofList (slugOf lakeId)))

/-- `managed_defaults`: the data path and the metadata schema. -/
def managedDefaults (lakeId : String) : Except Raised (String × String) := do
  let dataPath ← dataDir deployment lakeId
  let schema ← metadataSchema lakeId
  return (dataPath, schema)

/-! ## What is stored -/

/-- What the connection form submits of a lake: the `extra_config` of `check_lakehouse`, and
the columns that describe a catalog. -/
structure LakePayload where
  mode : String := modeManaged
  catalogType : String := catalogPostgres
  dataPath : String := ""
  metadataSchema : String := ""
  maintained : Option Bool := none
  host : String := ""
  port : Option ℤ := none
  database : String := ""
  username : String := ""
  password : String := ""

/-- `value or default`. -/
def orDefault (value fallback : String) : String := if value = "" then fallback else value

/-- The row that `validate_lake_payload` builds a catalog URL from. -/
def LakePayload.catalogRow (payload : LakePayload) : CatalogRow where
  catalogType := orDefault payload.catalogType catalogPostgres
  host := payload.host.toList
  port := payload.port
  database := payload.database.toList
  username := payload.username.toList

/-- The branch of `validate_lake_payload` for a managed lake. -/
def storedManaged (connectionId : Option String) : Except Raised Value :=
  if deployment.catalogUrl = "" then
    .error (.lakehouse ("no lakehouse catalog is configured for this deployment - set " ++
      "LAKE_CATALOG_URL, or connect to an existing lakehouse instead"))
  else
    let stored : List (Value × Value) :=
      [(.str "mode", .str modeManaged), (.str "maintained", .bool true)]
    match connectionId with
    | none => .ok (.dict stored)
    | some connectionId =>
      if connectionId = "" then .ok (.dict stored)
      else do
        let (dataPath, schema) ← managedDefaults deployment connectionId
        return .dict (stored ++
          [(.str "data_path", .str dataPath), (.str "metadata_schema", .str schema)])

/-- The branch for an external lake. -/
def storedExternal (payload : LakePayload) : Except Raised Value := do
  let catalogType := orDefault payload.catalogType catalogPostgres
  if catalogType ≠ catalogPostgres ∧ catalogType ≠ catalogSqlite then
    throw (.lakehouse ("unknown catalog type '" ++ catalogType ++ "': use '" ++ catalogPostgres ++
      "' or '" ++ catalogSqlite ++ "'"))
  let schema ← validateMetadataSchema payload.metadataSchema
  let dataPath ← validateDataPath deployment.platform deployment.settings payload.dataPath
  let url ← catalogUrlFromRow payload.catalogRow payload.password.toList
  assertCatalogHostAllowed deployment.tables deployment.assertHostAllowed url
  return .dict [(.str "mode", .str modeExternal), (.str "catalog_type", .str catalogType),
    (.str "metadata_schema", .str schema), (.str "data_path", .str dataPath),
    (.str "maintained", .bool (payload.maintained.getD false))]

/-- `validate_lake_payload`. -/
def validateLakePayload (payload : LakePayload) (connectionId : Option String) :
    Except Raised Value :=
  let mode := orDefault payload.mode modeManaged
  if mode = modeManaged then storedManaged deployment connectionId
  else if mode = modeExternal then storedExternal deployment payload
  else
    .error (.lakehouse ("unknown lakehouse mode '" ++ mode ++ "': use '" ++ modeManaged ++
      "' or '" ++ modeExternal ++ "'"))

/-! ## What is read -/

/-- `str(value)`. -/
def textOf (value : Value) : String :=
  match value with
  | .str own => own
  | other => deployment.shown other

/-- `_catalog_url_from_row`, on a row of `connections`. -/
def catalogUrlOfRow (row : ConnectionRow) (extra : Config) (password : String) :
    Except Raised String :=
  let catalogType := match (extra.value "catalog_type").orElse (.str catalogPostgres) with
    | .str own => own
    -- A value that is not text is not the one type that is looked for.
    | _ => catalogPostgres
  (catalogUrlFromRow ⟨catalogType, (row.host.getD "").toList, row.port,
    (row.database.getD "").toList, (row.username.getD "").toList⟩ password.toList).map
      String.ofList

/-- The branch of `lake_ref_from_row` for a managed lake. -/
def managedRef (lakeId : String) (extra : Config) : Except Raised LakeRef := do
  if deployment.catalogUrl = "" then
    throw (.lakehouse "LAKE_CATALOG_URL (or DATABASE_URL) must be set to use a lakehouse destination")
  let (dataPath, schema) ← managedDefaults deployment lakeId
  let schema ← validateMetadataSchema
    (textOf deployment ((extra.value "metadata_schema").orElse (.str schema)))
  return {
    catalogUrl := deployment.catalogUrl
    dataPath := textOf deployment ((extra.value "data_path").orElse (.str dataPath))
    metadataSchema := schema
    mode := modeManaged
    maintained := ((extra.get "maintained").getD (.bool true)).truthy }

/-- The branch for an external lake. -/
def externalRef (row : ConnectionRow) (extra : Config) : Except Raised LakeRef := do
  let secret ← decryptSecretOrPlaintext deployment.decrypt row.passwordEncrypted
  let url ← catalogUrlOfRow row extra secret
  let dataPath ← validateDataPath deployment.platform deployment.settings
    (textOf deployment ((extra.value "data_path").orElse (.str "")))
  let schema ← validateMetadataSchema
    (textOf deployment ((extra.value "metadata_schema").orElse (.str "")))
  return {
    catalogUrl := url
    dataPath := dataPath
    metadataSchema := schema
    mode := modeExternal
    maintained := ((extra.get "maintained").getD (.bool false)).truthy }

/-- `lake_ref_from_row`, without a password that takes the place of the stored one. -/
def lakeRefFromRow (lakeId : String) (row : ConnectionRow) : Except Raised LakeRef := do
  let extra ← extraDict row.extraConfig
  match (extra.value "mode").orElse (.str modeManaged) with
  | .str mode =>
    if mode = modeManaged then managedRef deployment lakeId extra
    else if mode = modeExternal then externalRef deployment row extra
    else .error (.lakehouse ("unknown lakehouse mode '" ++ mode ++ "'"))
  | other => .error (.lakehouse ("unknown lakehouse mode '" ++ deployment.shown other ++ "'"))

/-! ## POSIX paths -/

theorem not_mem_of_isSlug {name : String} {c : Char} (hname : isSlug name = true)
    (hc : isSlugChar c = false) : c ∉ name.toList := by
  intro hmem
  have hall := List.all_eq_true.mp (Bool.and_eq_true_iff.mp hname).2 c hmem
  rw [hc] at hall
  cases hall

/-- A slug is one component of a path. -/
theorem ofString_of_isSlug {name : String} (hname : isSlug name = true) :
    Path.ofString name = ⟨false, [name]⟩ := by
  have hempty : name ≠ "" := of_decide_eq_true (Bool.and_eq_true_iff.mp hname).1
  have hdot : name ≠ "." := by
    intro hdot
    exact not_mem_of_isSlug hname (by decide : isSlugChar '.' = false)
      (hdot ▸ List.mem_singleton_self _)
  exact Path.ofString_of_not_mem (not_mem_of_isSlug hname (by decide)) hempty hdot

/-- `str(Path(base) / name)` on POSIX. -/
def posixPathIn (base name : String) : String := ((Path.ofString base).child name).str

/-- What stands before the last component of a path. -/
theorem exists_intercalate_append (parts : List String) :
    ∃ before, ∀ name, String.intercalate "/" (parts ++ [name]) = before ++ name := by
  cases parts with
  | nil => exact ⟨"", fun name => by simp⟩
  | cons first rest =>
    refine ⟨String.intercalate "/" (first :: rest) ++ "/", fun name => ?_⟩
    rw [String.intercalate_append_of_ne_nil (List.cons_ne_nil _ _) (List.cons_ne_nil _ _),
      String.intercalate_singleton]

theorem posixPathIn_inj (base own other : String) (hown : isSlug own = true)
    (hother : isSlug other = true) (hsame : posixPathIn base own = posixPathIn base other) :
    own = other := by
  obtain ⟨before, hbefore⟩ := exists_intercalate_append (Path.ofString base).parts
  have hbody : ∀ name, isSlug name = true → posixPathIn base name =
      (if (Path.ofString base).absolute then "/" else "") ++ (before ++ name) := by
    intro name hname
    have hempty : before ++ name ≠ "" := by
      intro hempty
      rw [String.append_eq_empty_iff] at hempty
      exact of_decide_eq_true (Bool.and_eq_true_iff.mp hname).1 hempty.2
    unfold posixPathIn Path.child Path.join Path.str
    rw [ofString_of_isSlug hname]
    simp only [Bool.false_eq_true, if_false, hbefore, if_neg hempty]
    split
    · rfl
    · rw [String.empty_append]
  rw [hbody own hown, hbody other hother] at hsame
  exact String.append_right_inj _ |>.mp (String.append_right_inj _ |>.mp hsame)

end DbtCraft.Services.Lakes
