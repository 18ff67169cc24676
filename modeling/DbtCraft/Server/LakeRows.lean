/-
# Rows of lakehouses

What the rows of type `ducklake` hold over any sequence of requests. A request that names
the type stores what the validator returns for the id of the row. One that changes such a
row without naming a supported type is not validated, and one that creates a connection
may choose its id, of which the schema of a managed lake takes only a part.
-/

import DbtCraft.Ingest.LakeDestroy
import DbtCraft.Server.Connections

namespace DbtCraft.Server.Connections

open DbtCraft.Math DbtCraft.Python DbtCraft.Ingest.Lakehouse DbtCraft.Services.Lakes
open DbtCraft.Services.ConnectionConfig hiding text

variable {runtime : Runtime} {deployment : Deployment} {rows : List Connection} {row other : Connection}
  {payload : LakePayload} {lakeId : String} {extra : Value} {lake : LakeRef}

/-! ## What a row is for -/

/-- The digits of an id that the schema of a managed lake is named by. -/
def schemaDigits (lakeId : String) : List Char := (slugOf lakeId).take 24

/-- The payload describes the columns of the row. -/
def ForColumns (payload : LakePayload) (row : Connection) : Prop :=
  payload.host = row.host.getD "" ∧ payload.port.getD 0 = row.port.getD 0 ∧
    payload.database = row.database.getD "" ∧ payload.username = row.username.getD ""

/-- The validator has produced the `extra_config` of the row, for its id and columns. -/
def Produced (deployment : Deployment) (row : Connection) : Prop :=
  ∃ payload, ForColumns payload row ∧
    validateLakePayload deployment payload (some row.id) = .ok row.extraConfig

/-- The managed lake that a row is read as. -/
def ManagedLake (deployment : Deployment) (row : Connection) (lake : LakeRef) : Prop :=
  lakeRefFromRow deployment row.id row.toConnectionRow = .ok lake ∧ lake.managed = true

/-- Deleting the lake leaves every schema but one, and every entry outside a directory. -/
def DestroysOnly (deployment : Deployment) (lake : LakeRef) (schema dataPath : String) : Prop :=
  ∀ faults world,
    (∀ name ∈ world.schemas, name ≠ schema →
      name ∈ (destroy deployment.tables faults lake world).2.schemas) ∧
    ∀ node ∈ world.disk.nodes,
      (∀ root, world.disk.resolve (Path.ofString dataPath) = some root → ¬ root <+: node.1) →
      node ∈ (destroy deployment.tables faults lake world).2.disk.nodes

/-- A row of a lakehouse is as the validator has left it. A managed lake is where its id
says, no other one is there, and deleting it removes nothing else. -/
structure Kept (deployment : Deployment) (rows : List Connection) (row : Connection) : Prop where
  produced : Produced deployment row
  dataPath : ∀ {lake}, ManagedLake deployment row lake →
    dataDir deployment row.id = .ok lake.dataPath
  schema : ∀ {lake}, ManagedLake deployment row lake →
    Services.Lakes.metadataSchema row.id = .ok lake.metadataSchema
  apart : ∀ {lake other own}, ManagedLake deployment row lake → other ∈ rows →
    other.connectionType = Services.Lakes.connectionType → other.id ≠ row.id →
    ManagedLake deployment other own →
    lake.dataPath ≠ own.dataPath ∧ lake.metadataSchema ≠ own.metadataSchema
  destroys : ∀ {lake}, ManagedLake deployment row lake →
    DestroysOnly deployment lake lake.metadataSchema lake.dataPath

/-- Every lakehouse is kept so. -/
def KeptRows (deployment : Deployment) (rows : List Connection) : Prop :=
  ∀ row ∈ rows, row.connectionType = Services.Lakes.connectionType → Kept deployment rows row

/-! ## The condition -/

/-- The mode that a row has stored is the managed one. -/
def storesManaged (row : Connection) : Bool :=
  match prop (some row.extraConfig) "mode" with
  | some (.str mode) => mode = modeManaged
  | _ => false

/-- The mode that a body asks for is the managed one, or its catalog is a file: the user
name of the row is not read. -/
def Nameless (runtime : Runtime) (body : Body) : Prop :=
  ∀ payload, lakePayload runtime body = some payload →
    orDefault payload.mode modeManaged = modeManaged ∨
      orDefault payload.catalogType catalogPostgres = catalogSqlite

/-- A body writes a column of text as it is, or leaves it out. -/
def KeepsColumn (value : Option Value) (column : Option String) : Prop :=
  ∀ written, textColumn value = some (some written) → column = some written

/-- A body leaves the columns that describe a lake as they are. -/
def KeepsColumns (runtime : Runtime) (existing : Connection) (body : Body) : Prop :=
  KeepsColumn body.host existing.host ∧ existing.port = body.port.bind runtime.number ∧
    KeepsColumn body.database existing.database ∧ KeepsColumn body.username existing.username

/-- An update that does not name a supported type leaves the lake where it is: it has no
`extra_config`, and the columns of an external lake stay the same. -/
def LeavesLake (runtime : Runtime) (existing : Connection) (body : Body) : Prop :=
  body.extraConfig = none ∧ (storesManaged existing = true ∨ KeepsColumns runtime existing body)

/-- An update of an owned row is careful with it. -/
def CarefulPut (runtime : Runtime) (idText : String) (body : Body) (existing : Connection) : Prop :=
  if namesType body Services.Lakes.connectionType then
    slugOf idText = slugOf existing.id ∧ (body.username ≠ none ∨ Nameless runtime body)
  else existing.connectionType = Services.Lakes.connectionType → supportedType body = none →
    LeavesLake runtime existing body

/-- The id of the row that a request creates. -/
def createdId (runtime : Runtime) (newId : String) (body : Body) : Option String :=
  if namesType body Services.Lakes.connectionType then some newId
  else newRowId runtime newId body.id

/-- A request that keeps the lakehouses. -/
def Careful (runtime : Runtime) (rows : List Connection) : Request → Prop
  | .post _ newId body _ => runtime.uuid newId = some newId ∧
      ∀ id, createdId runtime newId body = some id →
        ∀ row ∈ rows, schemaDigits row.id ≠ schemaDigits id
  | .put caller idText dremio body _ => dremio = false → ∀ existing,
      ownedRow runtime rows caller idText = some existing →
        CarefulPut runtime idText body existing
  | .delete .. => True

/-! ## What the validator returns -/

/-- The branch that a payload takes. -/
theorem validateLakePayload_eq_ok {connectionId : Option String}
    (hvalid : validateLakePayload deployment payload connectionId = .ok extra) :
    (orDefault payload.mode modeManaged = modeManaged ∧
      storedManaged deployment connectionId = .ok extra) ∨
    (orDefault payload.mode modeManaged ≠ modeManaged ∧
      orDefault payload.mode modeManaged = modeExternal ∧
      storedExternal deployment payload = .ok extra) := by
  simp only [validateLakePayload] at hvalid
  split_ifs at hvalid with hmanaged hexternal
  · exact .inl ⟨hmanaged, hvalid⟩
  · exact .inr ⟨hmanaged, hexternal, hvalid⟩

theorem validateLakePayload_managed {connectionId : Option String}
    (hmode : orDefault payload.mode modeManaged = modeManaged) :
    validateLakePayload deployment payload connectionId = storedManaged deployment connectionId := by
  simp only [validateLakePayload]
  rw [if_pos hmode]

theorem validateLakePayload_external {connectionId : Option String}
    (hmode : orDefault payload.mode modeManaged ≠ modeManaged)
    (hexternal : orDefault payload.mode modeManaged = modeExternal) :
    validateLakePayload deployment payload connectionId = storedExternal deployment payload := by
  simp only [validateLakePayload]
  rw [if_neg hmode, if_pos hexternal]

/-- What is stored for a managed lake of an id. -/
def managedExtra (deployment : Deployment) (lakeId : String) : Value :=
  .dict [(.str "mode", .str modeManaged), (.str "maintained", .bool true),
    (.str "data_path", .str (deployment.pathIn
      (configuredOwn deployment.platform deployment.settings) (String.ofList (slugOf lakeId)))),
    (.str "metadata_schema", .str ("lake_" ++ String.ofList (schemaDigits lakeId)))]

/-- What is stored for an external lake. -/
def externalExtra (catalogType schema dataPath : String) (maintained : Bool) : Value :=
  .dict [(.str "mode", .str modeExternal), (.str "catalog_type", .str catalogType),
    (.str "metadata_schema", .str schema), (.str "data_path", .str dataPath),
    (.str "maintained", .bool maintained)]

theorem managedDefaults_eq (hslug : slugOf lakeId ≠ []) :
    managedDefaults deployment lakeId =
      .ok (deployment.pathIn (configuredOwn deployment.platform deployment.settings)
        (String.ofList (slugOf lakeId)), "lake_" ++ String.ofList (schemaDigits lakeId)) := by
  simp only [managedDefaults, dataDir, Services.Lakes.metadataSchema, if_neg hslug]
  rfl

theorem managedDefaults_of_nil (deployment : Deployment) (hslug : slugOf lakeId = []) :
    ∃ raised, managedDefaults deployment lakeId = .error raised := by
  simp only [managedDefaults, dataDir, if_pos hslug]
  exact ⟨_, rfl⟩

/-- A managed lake of an id that is not empty has a slug, and is stored by it. -/
theorem storedManaged_eq_ok (hid : lakeId ≠ "")
    (hstored : storedManaged deployment (some lakeId) = .ok extra) :
    slugOf lakeId ≠ [] ∧ extra = managedExtra deployment lakeId := by
  simp only [storedManaged] at hstored
  split_ifs at hstored with hurl
  by_cases hslug : slugOf lakeId = []
  · obtain ⟨raised, hraised⟩ := managedDefaults_of_nil deployment hslug
    rw [hraised] at hstored
    cases hstored
  · rw [managedDefaults_eq hslug] at hstored
    cases hstored
    exact ⟨hslug, rfl⟩

/-- A managed lake is stored with its location, or with none. -/
theorem dict_of_storedManaged {connectionId : Option String}
    (hstored : storedManaged deployment connectionId = .ok extra) :
    extra = .dict [(.str "mode", .str modeManaged), (.str "maintained", .bool true)] ∨
      ∃ own, extra = managedExtra deployment own := by
  have hplain := hstored
  simp only [storedManaged] at hplain
  split_ifs at hplain with hurl
  cases connectionId with
  | none =>
    cases hplain
    exact .inl rfl
  | some own =>
    by_cases hown : own = ""
    · simp only [if_pos hown] at hplain
      cases hplain
      exact .inl rfl
    · exact .inr ⟨own, (storedManaged_eq_ok hown hstored).2⟩

theorem storedManaged_congr {own : String} (hid : lakeId ≠ "") (hown : own ≠ "")
    (hslug : slugOf lakeId = slugOf own) :
    storedManaged deployment (some lakeId) = storedManaged deployment (some own) := by
  simp only [storedManaged, if_neg hid, if_neg hown, managedDefaults, dataDir,
    Services.Lakes.metadataSchema, hslug]

/-- An external lake is stored with what the checks return. -/
theorem storedExternal_eq_ok (hstored : storedExternal deployment payload = .ok extra) :
    ∃ schema dataPath, extra = externalExtra (orDefault payload.catalogType catalogPostgres) schema
      dataPath (payload.maintained.getD false) := by
  simp only [storedExternal] at hstored
  split_ifs at hstored with htype
  · cases hstored
  obtain ⟨schema, -, hrest⟩ := bind_eq_ok.mp hstored
  obtain ⟨dataPath, -, hlast⟩ := bind_eq_ok.mp hrest
  obtain ⟨url, -, hguard⟩ := bind_eq_ok.mp hlast
  obtain ⟨done, -, hresult⟩ := bind_eq_ok.mp hguard
  cases hresult
  exact ⟨schema, dataPath, rfl⟩

/-! ## Columns -/

/-- The URL of a catalog that is a file depends on the database only. -/
theorem catalogUrlFromRow_congr {own other : CatalogRow} {password : Ingest.Lakehouse.Text}
    (htype : own.catalogType = other.catalogType) (hdatabase : own.database = other.database)
    (hrest : own.catalogType = catalogSqlite ∨
      own.host = other.host ∧ own.portOf = other.portOf ∧ own.username = other.username) :
    catalogUrlFromRow own password = catalogUrlFromRow other password := by
  by_cases hsqlite : own.catalogType = "sqlite"
  · simp only [catalogUrlFromRow, if_pos hsqlite, if_pos (htype ▸ hsqlite), hdatabase]
  · obtain ⟨hhost, hport, husername⟩ := hrest.resolve_left hsqlite
    simp only [catalogUrlFromRow, if_neg hsqlite, if_neg (htype ▸ hsqlite), hdatabase, hhost, hport,
      husername]

/-- A catalog URL has a database, and that of a PostgreSQL catalog a host. -/
theorem given_of_catalogUrlFromRow {own : CatalogRow} {password url : Ingest.Lakehouse.Text}
    (hurl : catalogUrlFromRow own password = .ok url) :
    own.database ≠ [] ∧ (own.catalogType = catalogSqlite ∨ own.host ≠ []) := by
  by_cases hsqlite : own.catalogType = "sqlite"
  · simp only [catalogUrlFromRow, if_pos hsqlite] at hurl
    split_ifs at hurl with hnone
    exact ⟨hnone, .inl hsqlite⟩
  · simp only [catalogUrlFromRow, if_neg hsqlite] at hurl
    by_cases hnone : own.host = [] ∨ own.database = []
    · rw [if_pos hnone] at hurl
      cases hurl
    · exact ⟨fun hdatabase => hnone (.inr hdatabase), .inr fun hhost => hnone (.inl hhost)⟩

/-- A payload with the columns of a row. -/
def withColumns (payload : LakePayload) (row : Connection) : LakePayload :=
  { payload with
    host := row.host.getD ""
    port := row.port
    database := row.database.getD ""
    username := row.username.getD "" }

theorem forColumns_withColumns : ForColumns (withColumns payload row) row := ⟨rfl, rfl, rfl, rfl⟩

/-- The validator does not read columns that describe the same catalog. -/
theorem storedExternal_withColumns (hstored : storedExternal deployment payload = .ok extra)
    (hdatabase : payload.database ≠ "" → payload.database = row.database.getD "")
    (hrest : orDefault payload.catalogType catalogPostgres = catalogSqlite ∨
      ((payload.host ≠ "" → payload.host = row.host.getD "") ∧
        payload.catalogRow.portOf = (withColumns payload row).catalogRow.portOf ∧
        payload.username = row.username.getD "")) :
    storedExternal deployment (withColumns payload row) = .ok extra := by
  have hnonempty {text : String} (htext : text.toList ≠ []) : text ≠ "" :=
    fun hempty => htext (hempty ▸ rfl)
  have hchecked := hstored
  simp only [storedExternal] at hchecked
  split_ifs at hchecked with htype
  · cases hchecked
  obtain ⟨schema, -, hafter⟩ := bind_eq_ok.mp hchecked
  obtain ⟨dataPath, -, hlast⟩ := bind_eq_ok.mp hafter
  obtain ⟨url, hurl, -⟩ := bind_eq_ok.mp hlast
  obtain ⟨hgiven, hhost⟩ := given_of_catalogUrlFromRow hurl
  have hsame : catalogUrlFromRow (withColumns payload row).catalogRow payload.password.toList =
      catalogUrlFromRow payload.catalogRow payload.password.toList := by
    symm
    refine catalogUrlFromRow_congr (rfl : payload.catalogRow.catalogType =
      (withColumns payload row).catalogRow.catalogType) ?_ ?_
    · exact congrArg String.toList (hdatabase (hnonempty hgiven))
    · rcases hrest with hsqlite | ⟨hhosts, hport, husername⟩
      · exact .inl hsqlite
      · rcases hhost with hsqlite | hhost
        · exact .inl hsqlite
        · exact .inr ⟨congrArg String.toList (hhosts (hnonempty hhost)), hport,
            congrArg String.toList husername⟩
  have heq : storedExternal deployment (withColumns payload row) =
      storedExternal deployment payload := by
    unfold storedExternal
    rw [show (withColumns payload row).password = payload.password from rfl, hsame]
    rfl
  rw [heq, hstored]

/-! ## What is written -/

/-- A validated document has no second secret, so it is written as it is. -/
theorem written_of_validated {connectionId : Option String}
    (hvalid : validateLakePayload deployment payload connectionId = .ok extra) :
    createdExtra runtime (some extra) = some extra ∧
      ∀ existing connectionType,
        updatedExtra runtime existing connectionType (some extra) = some (some extra) := by
  have hforms : ∃ items, extra = .dict items ∧ Value.item items (.str secondaryKey) = none ∧
      deleteProp items secondaryKey = items ∧ Value.item items (.str "auth_type") = none := by
    rcases validateLakePayload_eq_ok hvalid with ⟨-, hstored⟩ | ⟨-, -, hstored⟩
    · rcases dict_of_storedManaged hstored with rfl | ⟨own, rfl⟩
      · exact ⟨_, rfl, rfl, rfl, rfl⟩
      · exact ⟨_, rfl, rfl, rfl, rfl⟩
    · obtain ⟨schema, dataPath, rfl⟩ := storedExternal_eq_ok hstored
      exact ⟨_, rfl, rfl, rfl, rfl⟩
  obtain ⟨items, rfl, hnone, hkept, hauth⟩ := hforms
  apply And.intro
  · simp only [createdExtra, spread, hnone, nonEmptyText, hkept]
  · intro existing connectionType
    have hkeeps : ∀ name, keepsSecondary name items = false := by
      intro name
      simp [keepsSecondary, hauth, Value.sameKey]
    simp [updatedExtra, spread, hnone, nonEmptyText, hkept, hkeeps]

/-! ## What is read -/

theorem isSlug_ofList_slugOf (hslug : slugOf lakeId ≠ []) :
    isSlug (String.ofList (slugOf lakeId)) = true := by
  have hempty : String.ofList (slugOf lakeId) ≠ "" := fun hempty =>
    hslug (String.ofList_eq_empty_iff.mp hempty)
  simp only [isSlug, Bool.and_eq_true, decide_eq_true_eq, String.toList_ofList, List.all_eq_true]
  exact ⟨hempty, fun c hc => (List.mem_filter.mp hc).2⟩

/-- The name of a schema is one that the check leaves as it is. -/
theorem strip_schema (lakeId : String) :
    strip ("lake_" ++ String.ofList (schemaDigits lakeId)) =
      "lake_" ++ String.ofList (schemaDigits lakeId) := by
  apply strip_eq_self
  intro c hc
  rw [String.toList_append, List.mem_append] at hc
  rcases hc with hstart | hdigits
  · have hplain : "lake_".toList.all (fun c => !isSpace c) = true := by decide
    exact Bool.not_eq_true' _ ▸ List.all_eq_true.mp hplain c hstart
  · rw [schemaDigits, String.toList_ofList] at hdigits
    have hmem : c ∈ slugOf lakeId := List.mem_of_mem_take hdigits
    unfold slugOf at hmem
    have hslug := (List.mem_filter.mp hmem).2
    apply isSpace_of_isAlphanum
    simp only [isSlugChar, Bool.or_eq_true] at hslug
    rcases hslug with hlower | hdigit
    · simp [Char.isAlphanum, isAlpha_eq, hlower]
    · simp [Char.isAlphanum, hdigit]

theorem eq_strip_of_validateMetadataSchema {name schema : String}
    (hschema : validateMetadataSchema name = .ok schema) : schema = strip name := by
  simp only [validateMetadataSchema] at hschema
  split_ifs at hschema
  cases hschema
  rfl

/-- The location of a managed lake, where the document of the row has none of its own. -/
def AtHome (deployment : Deployment) (lakeId : String) (lake : LakeRef) : Prop :=
  slugOf lakeId ≠ [] ∧
    lake.dataPath = deployment.pathIn (configuredOwn deployment.platform deployment.settings)
      (String.ofList (slugOf lakeId)) ∧
    lake.metadataSchema = "lake_" ++ String.ofList (schemaDigits lakeId)

/-- A document that says nothing of the location, or what the id says, leads there. -/
theorem atHome_of_managedRef {own : Config}
    (hpath : own.value "data_path" = .none ∨ own.value "data_path" = .str (deployment.pathIn
      (configuredOwn deployment.platform deployment.settings) (String.ofList (slugOf lakeId))))
    (hschema : own.value "metadata_schema" = .none ∨
      own.value "metadata_schema" = .str ("lake_" ++ String.ofList (schemaDigits lakeId)))
    (href : managedRef deployment lakeId own = .ok lake) : AtHome deployment lakeId lake := by
  simp only [managedRef] at href
  split_ifs at href with hurl
  · cases href
  by_cases hslug : slugOf lakeId = []
  · obtain ⟨raised, hraised⟩ := managedDefaults_of_nil deployment hslug
    rw [hraised] at href
    cases href
  rw [managedDefaults_eq hslug] at href
  obtain ⟨defaults, hdefaults, hrest⟩ := bind_eq_ok.mp href
  cases hdefaults
  obtain ⟨schema, hvalid, hresult⟩ := bind_eq_ok.mp hrest
  cases hresult
  refine ⟨hslug, ?_, ?_⟩
  · rcases hpath with hnone | hown
    · simp [hnone, Value.orElse, Value.truthy, textOf]
    · rw [hown]
      simp [Value.orElse, textOf]
  · have htext : textOf deployment ((own.value "metadata_schema").orElse
        (.str ("lake_" ++ String.ofList (schemaDigits lakeId)))) =
        "lake_" ++ String.ofList (schemaDigits lakeId) := by
      rcases hschema with hnone | hown
      · simp [hnone, Value.orElse, Value.truthy, textOf]
      · rw [hown]
        simp [Value.orElse, textOf]
    rw [htext] at hvalid
    exact (eq_strip_of_validateMetadataSchema hvalid).trans (strip_schema lakeId)

/-- A row whose document has the managed mode is read as a managed lake. -/
theorem lakeRefFromRow_managed {own : Config} (hextra : extraDict row.extraConfig = .ok own)
    (hmode : own.value "mode" = .str modeManaged) :
    lakeRefFromRow deployment row.id row.toConnectionRow = managedRef deployment row.id own := by
  have hread : (own.value "mode").orElse (.str modeManaged) = .str modeManaged := by
    rw [hmode]
    rfl
  simp only [lakeRefFromRow, hextra, bind, Except.bind, hread, if_pos]

/-- One with the external mode is no managed lake. -/
theorem not_managedLake_of_external {own : Config} (hextra : extraDict row.extraConfig = .ok own)
    (hmode : own.value "mode" = .str modeExternal) : ¬ ManagedLake deployment row lake := by
  intro ⟨href, hmanaged⟩
  have hread : (own.value "mode").orElse (.str modeManaged) = .str modeExternal := by
    rw [hmode]
    rfl
  have hne : modeExternal ≠ modeManaged := by decide
  have hbranch : lakeRefFromRow deployment row.id row.toConnectionRow =
      externalRef deployment row.toConnectionRow own := by
    simp only [lakeRefFromRow, hextra, bind, Except.bind, hread, if_neg hne, if_pos]
  rw [hbranch, externalRef] at href
  obtain ⟨secret, -, href⟩ := bind_eq_ok.mp href
  obtain ⟨url, -, href⟩ := bind_eq_ok.mp href
  obtain ⟨dataPath, -, href⟩ := bind_eq_ok.mp href
  obtain ⟨schema, -, hresult⟩ := bind_eq_ok.mp href
  cases hresult
  cases hmanaged

/-- A managed lake of a validated row is where the id of the row says. -/
theorem atHome_of_produced (hproduced : Produced deployment row)
    (hlake : ManagedLake deployment row lake) : AtHome deployment row.id lake := by
  obtain ⟨payload, -, hvalid⟩ := hproduced
  rcases validateLakePayload_eq_ok hvalid with ⟨-, hstored⟩ | ⟨-, -, hstored⟩
  · have href := hlake.1
    by_cases hid : row.id = ""
    · simp only [storedManaged, if_pos hid] at hstored
      split_ifs at hstored with hurl
      have hextra : extraDict row.extraConfig =
          .ok [("mode", .str modeManaged), ("maintained", .bool true)] := by
        rw [← Except.ok.inj hstored]
        rfl
      rw [lakeRefFromRow_managed hextra rfl] at href
      exact atHome_of_managedRef (.inl rfl) (.inl rfl) href
    · have hsame := (storedManaged_eq_ok hid hstored).2
      have hextra : extraDict row.extraConfig = .ok [("mode", .str modeManaged),
          ("maintained", .bool true), ("data_path", .str (deployment.pathIn
            (configuredOwn deployment.platform deployment.settings)
            (String.ofList (slugOf row.id)))),
          ("metadata_schema", .str ("lake_" ++ String.ofList (schemaDigits row.id)))] := by
        rw [hsame]
        rfl
      rw [lakeRefFromRow_managed hextra rfl] at href
      exact atHome_of_managedRef (.inr rfl) (.inr rfl) href
  · obtain ⟨schema, dataPath, hsame⟩ := storedExternal_eq_ok hstored
    have hextra : extraDict row.extraConfig = .ok [("mode", .str modeExternal),
        ("catalog_type", .str (orDefault payload.catalogType catalogPostgres)),
        ("metadata_schema", .str schema), ("data_path", .str dataPath),
        ("maintained", .bool (payload.maintained.getD false))] := by
      rw [hsame]
      rfl
    exact absurd hlake (not_managedLake_of_external hextra rfl)

/-! ## Deleting -/

/-- What deleting a lake leaves on the disk. -/
theorem mem_afterRmtree_of_apart {faults : Faults} {disk : Disk} {node : Location × Node}
    (hnode : node ∈ disk.nodes)
    (hapart : ∀ root, disk.resolve (Path.ofString lake.dataPath) = some root → ¬ root <+: node.1) :
    node ∈ (afterRmtree faults disk lake).nodes := by
  apply List.mem_filter.mpr
  refine ⟨hnode, ?_⟩
  cases hroot : dataRoot disk lake with
  | none => simp [removes, hroot]
  | some root =>
    have hprefix : root.isPrefixOf node.1 = false := by
      rw [Bool.eq_false_iff]
      exact fun hprefix => hapart root hroot (List.isPrefixOf_iff_prefix.mp hprefix)
    simp [removes, hroot, hprefix]

/-- Deleting a lake removes its schema and its directory at most. -/
theorem destroysOnly (hschema : strip lake.metadataSchema = lake.metadataSchema) :
    DestroysOnly deployment lake lake.metadataSchema lake.dataPath := by
  intro faults world
  have hdropped : ∀ schema, schema = lake.metadataSchema →
      (dropCatalog deployment.tables faults schema lake world).2.disk = world.disk ∧
        ∀ name ∈ world.schemas, name ≠ lake.metadataSchema →
          name ∈ (dropCatalog deployment.tables faults schema lake world).2.schemas := by
    intro schema hsame
    rcases dropCatalog_cases deployment.tables faults schema lake world with
      ⟨hdrop, -⟩ | ⟨message, -, hdrop, -⟩
    · rw [hdrop]
      exact ⟨rfl, fun name hname hother =>
        List.mem_filter.mpr ⟨hname, decide_eq_true (hsame ▸ hother)⟩⟩
    · rw [hdrop]
      exact ⟨rfl, fun name hname _ => hname⟩
  have hdeleted : ∀ dropped : World, dropped.disk = world.disk →
      (deleteFiles faults lake dropped).2.schemas = dropped.schemas ∧
        ((deleteFiles faults lake dropped).2.disk = world.disk ∨
          (deleteFiles faults lake dropped).2.disk = afterRmtree faults world.disk lake) := by
    intro dropped hdisk
    unfold deleteFiles
    split
    · exact ⟨rfl, .inl hdisk⟩
    · rw [hdisk]
      dsimp only
      split <;> exact ⟨rfl, .inr rfl⟩
  unfold destroy
  split
  · exact ⟨fun name hname _ => hname, fun node hnode _ => hnode⟩
  · exact ⟨fun name hname _ => hname, fun node hnode _ => hnode⟩
  · exact ⟨fun name hname _ => hname, fun node hnode _ => hnode⟩
  next schema hguard hvalid hconnect =>
    have hname := (eq_strip_of_validateMetadataSchema hvalid).trans hschema
    obtain ⟨hdisk, hkept⟩ := hdropped schema hname
    dsimp only
    split
    · exact ⟨hkept, fun node hnode _ => hdisk ▸ hnode⟩
    · obtain ⟨hschemas, hfiles⟩ := hdeleted _ hdisk
      refine ⟨fun name hmem hother => ?_, fun node hnode hapart => ?_⟩
      · exact hschemas ▸ hkept name hmem hother
      · rcases hfiles with hsame | hafter
        · exact hsame ▸ hnode
        · exact hafter ▸ mem_afterRmtree_of_apart hnode hapart

/-! ## Requests -/

variable {body guarded : Body} {hostAllowed : Adapters.Text → Bool} {existing updated created : Connection}
  {caller newId idText : String}

/-- The guard leaves the type and the id of a body. -/
theorem guard_frame (hguard : validateAndGuardConnection runtime hostAllowed body = some guarded) :
    guarded.connectionType = body.connectionType ∧ guarded.id = body.id := by
  unfold validateAndGuardConnection at hguard
  split at hguard
  · obtain ⟨account, -, hrest⟩ := Option.bind_eq_some_iff.mp hguard
    dsimp only at hrest
    split at hrest
    · cases hrest
      exact ⟨rfl, rfl⟩
    · cases hrest
  · split at hguard
    · obtain ⟨host, -, hrest⟩ := Option.bind_eq_some_iff.mp hguard
      obtain ⟨extraConfig, -, hlast⟩ := Option.bind_eq_some_iff.mp hrest
      split at hlast
      · cases hlast
        exact ⟨rfl, rfl⟩
      · cases hlast
    · cases hguard
      exact ⟨rfl, rfl⟩

theorem namesType_iff {name : String} :
    namesType body name = true ↔ body.connectionType = some (.str name) := by
  unfold namesType
  split
  next own hown => rw [hown]; simp
  next hother =>
    apply iff_of_false
    · exact fun hfalse => nomatch hfalse
    · exact fun hname => hother name hname

theorem supportedType_eq_some {name : String} (hname : supportedType body = some name) :
    namesType body name = true ∧ name ∈ connectionTypes := by
  unfold supportedType at hname
  split at hname
  next own hown =>
    split_ifs at hname with hmem
    cases hname
    exact ⟨namesType_iff.mpr hown, hmem⟩
  · cases hname

theorem supportedType_of_namesType {name : String} (hname : namesType body name = true)
    (hmem : name ∈ connectionTypes) : supportedType body = some name := by
  simp only [supportedType, namesType_iff.mp hname, if_pos hmem]

/-- The guard does nothing with a body that names neither type it is for. -/
theorem guard_of_not_names (hsnowflake : namesType body "snowflake" = false)
    (hdatabricks : namesType body "databricks" = false) :
    validateAndGuardConnection runtime hostAllowed body = some body := by
  unfold validateAndGuardConnection
  rw [hsnowflake, hdatabricks]
  rfl

theorem guard_of_unsupported (hnone : supportedType body = none) :
    validateAndGuardConnection runtime hostAllowed body = some body := by
  have hother : ∀ name ∈ connectionTypes, namesType body name = false := by
    intro name hmem
    rw [Bool.eq_false_iff]
    intro hnames
    rw [supportedType_of_namesType hnames hmem] at hnone
    cases hnone
  exact guard_of_not_names (hother "snowflake" (by decide)) (hother "databricks" (by decide))

/-- The guard does nothing with a lakehouse. -/
theorem guard_of_lake (hlake : namesType body Services.Lakes.connectionType = true) :
    validateAndGuardConnection runtime hostAllowed body = some body := by
  have hother : ∀ name, name ≠ Services.Lakes.connectionType → namesType body name = false := by
    intro name hname
    rw [Bool.eq_false_iff]
    intro hnames
    have hsame := (namesType_iff.mp hnames).symm.trans (namesType_iff.mp hlake)
    exact hname (by simpa using hsame)
  exact guard_of_not_names (hother "snowflake" (by decide)) (hother "databricks" (by decide))

/-- What the columns of a row that a lakehouse is created with say. -/
theorem lakePayload_columns (hpayload : lakePayload runtime body = some payload) :
    payload.host = stringOf runtime.shown body.host ∧ payload.port = checkPort runtime body.port ∧
      payload.database = stringOf runtime.shown body.database ∧
      payload.username = stringOf runtime.shown body.username := by
  simp only [lakePayload] at hpayload
  obtain ⟨mode, -, hpayload⟩ := Option.bind_eq_some_iff.mp hpayload
  obtain ⟨catalogType, -, hpayload⟩ := Option.bind_eq_some_iff.mp hpayload
  obtain ⟨dataPath, -, hpayload⟩ := Option.bind_eq_some_iff.mp hpayload
  obtain ⟨schema, -, hpayload⟩ := Option.bind_eq_some_iff.mp hpayload
  obtain ⟨maintained, -, hpayload⟩ := Option.bind_eq_some_iff.mp hpayload
  cases hpayload
  exact ⟨rfl, rfl, rfl, rfl⟩

theorem createConnection_eq_some
    (hcreate : createConnection runtime caller newId body rows = some created) :
    supportedType body = some created.connectionType ∧
      newRowId runtime newId body.id = some created.id ∧ created.id ∉ rows.map (·.id) ∧
      textColumn body.host = some created.host ∧ intColumn body.port = created.port ∧
      textColumn body.database = some created.database ∧
      textColumn body.username = some created.username ∧
      createdExtra runtime body.extraConfig = some created.extraConfig ∧
      created.host ≠ none ∧ created.port ≠ none ∧ created.database ≠ none ∧
      created.username ≠ none := by
  simp only [createConnection] at hcreate
  obtain ⟨connectionType, htype, hcreate⟩ := Option.bind_eq_some_iff.mp hcreate
  obtain ⟨id, hid, hcreate⟩ := Option.bind_eq_some_iff.mp hcreate
  split at hcreate
  · cases hcreate
  next hnew =>
    obtain ⟨host, hhost, hcreate⟩ := Option.bind_eq_some_iff.mp hcreate
    obtain ⟨port, hport, hcreate⟩ := Option.bind_eq_some_iff.mp hcreate
    obtain ⟨database, hdatabase, hcreate⟩ := Option.bind_eq_some_iff.mp hcreate
    obtain ⟨username, husername, hcreate⟩ := Option.bind_eq_some_iff.mp hcreate
    obtain ⟨password, -, hcreate⟩ := Option.bind_eq_some_iff.mp hcreate
    obtain ⟨extraConfig, hextra, hcreate⟩ := Option.bind_eq_some_iff.mp hcreate
    cases hcreate
    exact ⟨htype, hid, hnew, Option.join_eq_some_iff.mp hhost, hport,
      Option.join_eq_some_iff.mp hdatabase, Option.join_eq_some_iff.mp husername, hextra,
      Option.some_ne_none _, Option.some_ne_none _, Option.some_ne_none _,
      Option.some_ne_none _⟩

theorem updateConnection_eq_some {extraConfig : Option Value}
    (hupdate : updateConnection runtime existing body extraConfig = some updated) :
    updated.id = existing.id ∧
      updated.connectionType = (supportedType body).getD existing.connectionType ∧
      (∃ host, textColumn body.host = some host ∧ updated.host = host.or existing.host) ∧
      updated.port = body.port.bind runtime.number ∧ updated.port ≠ none ∧
      (∃ database, textColumn body.database = some database ∧
        updated.database = database.or existing.database) ∧
      (∃ username, textColumn body.username = some username ∧
        updated.username = username.or existing.username) ∧
      ∃ written, updatedExtra runtime existing (supportedType body) extraConfig = some written ∧
        updated.extraConfig = written.getD existing.extraConfig := by
  simp only [updateConnection] at hupdate
  obtain ⟨host, hhost, hupdate⟩ := Option.bind_eq_some_iff.mp hupdate
  obtain ⟨port, hport, hupdate⟩ := Option.bind_eq_some_iff.mp hupdate
  obtain ⟨database, hdatabase, hupdate⟩ := Option.bind_eq_some_iff.mp hupdate
  obtain ⟨username, husername, hupdate⟩ := Option.bind_eq_some_iff.mp hupdate
  obtain ⟨password, -, hupdate⟩ := Option.bind_eq_some_iff.mp hupdate
  obtain ⟨written, hwritten, hupdate⟩ := Option.bind_eq_some_iff.mp hupdate
  cases hupdate
  exact ⟨rfl, rfl, ⟨host, hhost, rfl⟩, hport.symm, Option.some_ne_none _, ⟨database, hdatabase, rfl⟩,
    ⟨username, husername, rfl⟩, ⟨written, hwritten, rfl⟩⟩

/-- The check reads a column of text as it is written, and one that is kept as empty. -/
theorem stringOf_of_textColumn (runtime : Runtime) {value : Option Value} {column : Option String}
    (hcolumn : textColumn value = some column) :
    stringOf runtime.shown value = column.getD "" ∧ (column = none → value = none) := by
  unfold textColumn at hcolumn
  split at hcolumn
  · cases hcolumn
    exact ⟨rfl, fun _ => rfl⟩
  · cases hcolumn
    exact ⟨rfl, fun hnone => nomatch hnone⟩
  · cases hcolumn

/-- The check reads the port of a new row as it is written. -/
theorem checkPort_of_intColumn {value : Option Value} {port : ℤ}
    (hport : intColumn value = some port) : checkPort runtime value = some port := by
  unfold intColumn at hport
  split at hport
  · cases hport
    exact runtime.number_int _
  · cases hport

/-- The port that the check reads leads to the catalog of the port that is written. -/
theorem portOf_checkPort {value : Option Value} {port : Option ℤ} (own : CatalogRow)
    (hport : port = value.bind runtime.number) :
    ({ own with port := checkPort runtime value } : CatalogRow).portOf =
      ({ own with port := port } : CatalogRow).portOf := by
  cases value with
  | none => rw [hport]; rfl
  | some content =>
    cases hnull : isNull content with
    | false => simp [checkPort, hnull, hport]
    | true =>
      have hcontent : content = .none := by
        cases content with
        | none => rfl
        | _ => cases hnull
      subst hcontent
      simp [checkPort, hnull, hport, runtime.number_null, CatalogRow.portOf]

/-- The check of a lakehouse that is stored. -/
theorem validated_of_lakehouseExtraConfig
    (hchecked : lakehouseExtraConfig runtime body lakeId = some extra) :
    ∃ payload, lakePayload runtime body = some payload ∧
      validateLakePayload runtime.deployment payload (some lakeId) = .ok extra := by
  simp only [lakehouseExtraConfig] at hchecked
  obtain ⟨payload, hpayload, hvalid⟩ := Option.bind_eq_some_iff.mp hchecked
  refine ⟨payload, hpayload, ?_⟩
  cases hresult : validateLakePayload runtime.deployment payload (some lakeId) with
  | error raised =>
    rw [hresult] at hvalid
    cases hvalid
  | ok own =>
    rw [hresult] at hvalid
    cases hvalid
    rfl

theorem lake_mem_connectionTypes : Services.Lakes.connectionType ∈ connectionTypes := by decide

/-- A new row has the id that the request gives it, and a lakehouse is as the validator has
left it. -/
theorem produced_of_post (huuid : runtime.uuid newId = some newId)
    (hpost : post runtime caller newId body hostAllowed rows = some created) :
    createdId runtime newId body = some created.id ∧
      (created.connectionType = Services.Lakes.connectionType →
        Produced runtime.deployment created) := by
  simp only [post] at hpost
  obtain ⟨connectionType, htype, hpost⟩ := Option.bind_eq_some_iff.mp hpost
  obtain ⟨guarded, hguard, hpost⟩ := Option.bind_eq_some_iff.mp hpost
  split at hpost
  next hlake =>
    subst hlake
    have hnames := (supportedType_eq_some htype).1
    cases (guard_of_lake hnames).symm.trans hguard
    obtain ⟨extra, hchecked, hcreate⟩ := Option.bind_eq_some_iff.mp hpost
    obtain ⟨payload, hpayload, hvalid⟩ := validated_of_lakehouseExtraConfig hchecked
    obtain ⟨-, hid, -, hhost, hport, hdatabase, husername, hextra, -, hportSome, -⟩ :=
      createConnection_eq_some hcreate
    have hidSame : created.id = newId := Option.some_inj.mp (hid.symm.trans huuid)
    refine ⟨by rw [createdId, if_pos hnames, hidSame], fun _ => ⟨payload, ?_, ?_⟩⟩
    · obtain ⟨hpayloadHost, hpayloadPort, hpayloadDatabase, hpayloadUsername⟩ :=
        lakePayload_columns hpayload
      refine ⟨hpayloadHost.trans (stringOf_of_textColumn runtime hhost).1, ?_,
        hpayloadDatabase.trans (stringOf_of_textColumn runtime hdatabase).1,
        hpayloadUsername.trans (stringOf_of_textColumn runtime husername).1⟩
      obtain ⟨port, hsome⟩ := Option.ne_none_iff_exists'.mp hportSome
      rw [hpayloadPort, hsome, checkPort_of_intColumn (hport.trans hsome)]
    · rw [hidSame, hvalid]
      rw [(written_of_validated hvalid).1] at hextra
      rw [Option.some_inj.mp hextra]
  next hother =>
    obtain ⟨htypes, hid, -⟩ := createConnection_eq_some hpost
    obtain ⟨hsame, hidSame⟩ := guard_frame hguard
    have hsupported : supportedType guarded = supportedType body := by
      simp only [supportedType, hsame]
    rw [hsupported, htype] at htypes
    cases htypes
    refine ⟨?_, fun hlake => absurd hlake hother⟩
    have hnames : ¬ namesType body Services.Lakes.connectionType = true := by
      intro hnames
      have hlake := supportedType_of_namesType hnames lake_mem_connectionTypes
      exact hother (Option.some_inj.mp (htype.symm.trans hlake))
    rw [createdId, if_neg hnames, ← hidSame, hid]

/-- An update that names the type leaves a row as the validator has, where the user name is
the request's or is not read. -/
theorem produced_of_typed (hid : idText ≠ "") (hslug : slugOf idText = slugOf existing.id)
    (husername : body.username ≠ none ∨ Nameless runtime body)
    (hchecked : lakehouseExtraConfig runtime body idText = some extra)
    (hupdate : updateConnection runtime existing body (some extra) = some updated) :
    Produced runtime.deployment updated := by
  obtain ⟨payload, hpayload, hvalid⟩ := validated_of_lakehouseExtraConfig hchecked
  obtain ⟨hidSame, -, ⟨host, hhost, hhostSame⟩, hport, -, ⟨database, hdatabase, hdatabaseSame⟩,
    ⟨name, hname, hnameSame⟩, written, hwritten, hextra⟩ := updateConnection_eq_some hupdate
  rw [(written_of_validated hvalid).2] at hwritten
  cases hwritten
  have hextraSame : updated.extraConfig = extra := hextra
  refine ⟨withColumns payload updated, forColumns_withColumns, ?_⟩
  rw [hextraSame, hidSame]
  rcases validateLakePayload_eq_ok hvalid with ⟨hmode, hstored⟩ | ⟨hmode, hexternal, hstored⟩
  · have hnonempty := (storedManaged_eq_ok hid hstored).1
    have hown : existing.id ≠ "" := by
      intro hempty
      rw [hslug, hempty] at hnonempty
      exact hnonempty rfl
    have hbranch : validateLakePayload runtime.deployment (withColumns payload updated)
        (some existing.id) = _ := validateLakePayload_managed hmode
    rw [hbranch, ← storedManaged_congr hid hown hslug, hstored]
  · have hbranch : validateLakePayload runtime.deployment (withColumns payload updated)
        (some existing.id) = _ := validateLakePayload_external hmode hexternal
    rw [hbranch]
    obtain ⟨hpayloadHost, hpayloadPort, hpayloadDatabase, hpayloadUsername⟩ :=
      lakePayload_columns hpayload
    -- A column that the request gives is the one that is written.
    have hgiven {value : Option Value} {column own : Option String}
        (hcolumn : textColumn value = some column)
        (htext : stringOf runtime.shown value ≠ "" ∨ value ≠ none) :
        stringOf runtime.shown value = (column.or own).getD "" := by
      obtain ⟨hread, hkept⟩ := stringOf_of_textColumn runtime hcolumn
      cases column with
      | some text => exact hread
      | none =>
        have hnone := hkept rfl
        subst hnone
        rcases htext with hempty | hvalue
        · exact absurd rfl hempty
        · exact absurd rfl hvalue
    apply storedExternal_withColumns hstored
    · intro hempty
      rw [hpayloadDatabase] at hempty ⊢
      rw [hdatabaseSame]
      exact hgiven hdatabase (.inl hempty)
    · rcases husername with hsome | hnameless
      · right
        refine ⟨?_, ?_, ?_⟩
        · intro hempty
          rw [hpayloadHost] at hempty ⊢
          rw [hhostSame]
          exact hgiven hhost (.inl hempty)
        · have hcongr := portOf_checkPort (withColumns payload updated).catalogRow hport
          rw [← hpayloadPort] at hcongr
          exact hcongr
        · rw [hpayloadUsername, hnameSame]
          exact hgiven hname (.inr hsome)
      · exact .inl ((hnameless payload hpayload).resolve_left hmode)

theorem KeepsColumn.eq {value : Option Value} {column written : Option String}
    (hkeeps : KeepsColumn value column) (hcolumn : textColumn value = some written) :
    written.or column = column := by
  cases written with
  | none => rfl
  | some text => exact (hkeeps text hcolumn).symm

/-- So does one that leaves the lake where it is. -/
theorem produced_of_leavesLake (hleaves : LeavesLake runtime existing body)
    (hproduced : Produced runtime.deployment existing)
    (hupdate : updateConnection runtime existing body body.extraConfig = some updated) :
    Produced runtime.deployment updated := by
  obtain ⟨hnone, hlake⟩ := hleaves
  rw [hnone] at hupdate
  obtain ⟨hidSame, -, ⟨host, hhostText, hhostSame⟩, hportSame, -,
    ⟨database, hdatabaseText, hdatabaseSame⟩, ⟨username, husernameText, husernameSame⟩,
    written, hwritten, hextra⟩ := updateConnection_eq_some hupdate
  cases hwritten
  have hextraSame : updated.extraConfig = existing.extraConfig := hextra
  obtain ⟨payload, ⟨hhost, hport, hdatabase, husername⟩, hvalid⟩ := hproduced
  rcases hlake with hmanaged | hcolumns
  · refine ⟨withColumns payload updated, forColumns_withColumns, ?_⟩
    rw [hextraSame, hidSame]
    rcases validateLakePayload_eq_ok hvalid with ⟨hmode, hstored⟩ | ⟨-, -, hstored⟩
    · have hbranch : validateLakePayload runtime.deployment (withColumns payload updated)
          (some existing.id) = _ := validateLakePayload_managed hmode
      rw [hbranch, hstored]
    · obtain ⟨schema, dataPath, hexternal⟩ := storedExternal_eq_ok hstored
      unfold storesManaged at hmanaged
      rw [hexternal] at hmanaged
      cases hmanaged
  · obtain ⟨hkeepsHost, hkeepsPort, hkeepsDatabase, hkeepsUsername⟩ := hcolumns
    refine ⟨payload, ?_, ?_⟩
    · unfold ForColumns
      rw [hhostSame, hkeepsHost.eq hhostText, hportSame, ← hkeepsPort, hdatabaseSame,
        hkeepsDatabase.eq hdatabaseText, husernameSame, hkeepsUsername.eq husernameText]
      exact ⟨hhost, hport, hdatabase, husername⟩
    · rw [hextraSame, hidSame]
      exact hvalid

/-- An update that is careful leaves a lakehouse as the validator has, and its id. -/
theorem produced_of_put (hid : idText ≠ "") (hcareful : CarefulPut runtime idText body existing)
    (hexisting : existing.connectionType = Services.Lakes.connectionType →
      Produced runtime.deployment existing)
    (hput : put runtime idText body hostAllowed existing = some updated) :
    updated.id = existing.id ∧
      (updated.connectionType = Services.Lakes.connectionType →
        Produced runtime.deployment updated) := by
  simp only [put] at hput
  obtain ⟨guarded, hguard, hwrite⟩ := Option.bind_eq_some_iff.mp hput
  have hguarded : guarded.connectionType = body.connectionType ∧
      (guarded = body ∨ validateAndGuardConnection runtime hostAllowed body = some guarded) := by
    unfold guardedPut at hguard
    split at hguard
    · exact ⟨(guard_frame hguard).1, .inr hguard⟩
    · cases hguard
      exact ⟨rfl, .inl rfl⟩
  obtain ⟨htype, hbody⟩ := hguarded
  have hnames : namesType guarded Services.Lakes.connectionType =
      namesType body Services.Lakes.connectionType := by
    simp only [namesType, htype]
  rw [hnames] at hwrite
  unfold CarefulPut at hcareful
  split at hwrite
  next hlake =>
    rw [if_pos hlake] at hcareful
    have hsame : guarded = body := by
      rcases hbody with hsame | hguard'
      · exact hsame
      · exact Option.some_inj.mp (hguard'.symm.trans (guard_of_lake hlake))
    subst hsame
    obtain ⟨extra, hchecked, hupdate⟩ := Option.bind_eq_some_iff.mp hwrite
    exact ⟨(updateConnection_eq_some hupdate).1, fun _ =>
      produced_of_typed hid hcareful.1 hcareful.2 hchecked hupdate⟩
  next hlake =>
    rw [if_neg hlake] at hcareful
    obtain ⟨hidSame, htypes, -⟩ := updateConnection_eq_some hwrite
    refine ⟨hidSame, fun hupdated => ?_⟩
    have hsupported : supportedType guarded = supportedType body := by
      simp only [supportedType, htype]
    rw [hsupported] at htypes
    cases hname : supportedType body with
    | some name =>
      -- Another supported type takes the place of the row's.
      rw [hname] at htypes
      have hother : name = Services.Lakes.connectionType := htypes.symm.trans hupdated
      exact absurd (hother ▸ (supportedType_eq_some hname).1) hlake
    | none =>
      rw [hname] at htypes
      have hown : existing.connectionType = Services.Lakes.connectionType :=
        htypes.symm.trans hupdated
      have hsame : guarded = body := by
        rcases hbody with hsame | hguard'
        · exact hsame
        · exact Option.some_inj.mp (hguard'.symm.trans (guard_of_unsupported hname))
      subst hsame
      exact produced_of_leavesLake (hcareful hown hname) (hexisting hown) hwrite

/-! ## Runs -/

/-- What the rows hold: their schemas are named by different digits, and the lakehouses are
as the validator has left them. -/
structure Inv (deployment : Deployment) (rows : List Connection) : Prop where
  distinct : ∀ row ∈ rows, ∀ other ∈ rows, schemaDigits row.id = schemaDigits other.id →
    row.id = other.id
  produced : ∀ row ∈ rows, row.connectionType = Services.Lakes.connectionType →
    Produced deployment row

theorem Inv.keptRows (hinv : Inv deployment rows) : KeptRows deployment rows := by
  intro row hrow htype
  have hproduced := hinv.produced row hrow htype
  refine ⟨hproduced, ?_, ?_, ?_, ?_⟩
  · intro lake hlake
    obtain ⟨hslug, hpath, -⟩ := atHome_of_produced hproduced hlake
    simp only [dataDir, if_neg hslug, hpath]
  · intro lake hlake
    obtain ⟨hslug, -, hschema⟩ := atHome_of_produced hproduced hlake
    simp only [Services.Lakes.metadataSchema, if_neg hslug, hschema]
    rfl
  · intro lake other own hlake hother hotherType hid hown
    obtain ⟨hslug, hpath, hschema⟩ := atHome_of_produced hproduced hlake
    obtain ⟨hotherSlug, hotherPath, hotherSchema⟩ :=
      atHome_of_produced (hinv.produced other hother hotherType) hown
    apply And.intro
    · intro hsame
      rw [hpath, hotherPath] at hsame
      have hslugs := deployment.pathIn_inj _ _ _ (isSlug_ofList_slugOf hslug)
        (isSlug_ofList_slugOf hotherSlug) hsame
      apply hid
      apply (hinv.distinct row hrow other hother ?_).symm
      unfold schemaDigits
      rw [String.ofList_inj.mp hslugs]
    · intro hsame
      rw [hschema, hotherSchema] at hsame
      have hdigits := String.ofList_inj.mp ((String.append_right_inj _).mp hsame)
      exact hid (hinv.distinct row hrow other hother hdigits).symm
  · intro lake hlake
    obtain ⟨-, -, hschema⟩ := atHome_of_produced hproduced hlake
    apply destroysOnly
    rw [hschema]
    exact strip_schema row.id

theorem mem_of_ownedRow (hrow : ownedRow runtime rows caller idText = some row) : row ∈ rows := by
  simp only [ownedRow] at hrow
  obtain ⟨id, -, hrow⟩ := Option.bind_eq_some_iff.mp hrow
  obtain ⟨found, hfound, hrow⟩ := Option.bind_eq_some_iff.mp hrow
  split at hrow
  · cases hrow
    exact List.mem_of_find?_eq_some hfound
  · cases hrow

theorem Inv.handle {request : Request} (hinv : Inv runtime.deployment rows)
    (hcareful : Careful runtime rows request) :
    Inv runtime.deployment (handle runtime rows request) := by
  unfold Connections.handle
  cases request with
  | post caller newId body hostAllowed =>
    dsimp only
    split
    next created hpost =>
      obtain ⟨hid, hproduced⟩ := produced_of_post hcareful.1 hpost
      have hnew := hcareful.2 created.id hid
      apply Inv.mk
      · intro row hrow other hother hdigits
        rcases List.mem_append.mp hrow with hrow | hrow <;>
          rcases List.mem_append.mp hother with hother | hother
        · exact hinv.distinct row hrow other hother hdigits
        · rw [List.mem_singleton.mp hother] at hdigits
          exact absurd hdigits (hnew row hrow)
        · rw [List.mem_singleton.mp hrow] at hdigits
          exact absurd hdigits.symm (hnew other hother)
        · rw [List.mem_singleton.mp hrow, List.mem_singleton.mp hother]
      · intro row hrow htype
        rcases List.mem_append.mp hrow with hrow | hrow
        · exact hinv.produced row hrow htype
        · rw [List.mem_singleton.mp hrow] at htype ⊢
          exact hproduced htype
    · exact hinv
  | put caller idText dremio body hostAllowed =>
    dsimp only
    split
    · exact hinv
    next hrequest =>
      obtain ⟨hdremio, hid⟩ := not_or.mp hrequest
      split
      · exact hinv
      next existing hexisting =>
        split
        next updated hput =>
          have hmem := mem_of_ownedRow hexisting
          obtain ⟨hsame, hproduced⟩ := produced_of_put hid
            (hcareful (Bool.eq_false_iff.mpr hdremio) existing hexisting)
            (hinv.produced existing hmem) hput
          -- A row after the update is the updated one, or one that was there.
          have hafter : ∀ row ∈ rows.map (fun other =>
              if other.id = existing.id then updated else other),
              row = updated ∨ row ∈ rows := by
            intro row hrow
            obtain ⟨other, hother, rfl⟩ := List.mem_map.mp hrow
            split
            · exact .inl rfl
            · exact .inr hother
          have hids : ∀ row ∈ rows.map (fun other =>
              if other.id = existing.id then updated else other),
              ∃ other ∈ rows, other.id = row.id := by
            intro row hrow
            rcases hafter row hrow with rfl | hold
            · exact ⟨existing, hmem, hsame.symm⟩
            · exact ⟨row, hold, rfl⟩
          apply Inv.mk
          · intro row hrow other hother hdigits
            obtain ⟨own, hown, hownId⟩ := hids row hrow
            obtain ⟨second, hsecond, hsecondId⟩ := hids other hother
            rw [← hownId, ← hsecondId] at hdigits ⊢
            exact hinv.distinct own hown second hsecond hdigits
          · intro row hrow htype
            rcases hafter row hrow with rfl | hold
            · exact hproduced htype
            · exact hinv.produced row hold htype
        · exact hinv
  | delete caller idText dremio released =>
    dsimp only
    split
    · exact hinv
    · split
      · exact hinv
      · split
        · exact hinv
        · exact ⟨fun row hrow other hother => hinv.distinct row (List.mem_of_mem_filter hrow) other
            (List.mem_of_mem_filter hother), fun row hrow =>
            hinv.produced row (List.mem_of_mem_filter hrow)⟩

/-- A deployment on POSIX paths that stores its lakes in `/data/lake`. -/
def sampleDeployment : Deployment where
  platform := Platform.posix ⟨[], [], [], 0, ""⟩
  settings := ⟨"/data/lake", "/data", ""⟩
  catalogUrl := "postgresql://db/app"
  tables := ⟨fun _ => false, id⟩
  assertHostAllowed _ _ := .ok ()
  pathIn := posixPathIn
  pathIn_inj := posixPathIn_inj
  decrypt := some
  shown _ := ""

/-- A frontend with it. -/
def sampleRuntime : Runtime where
  deployment := sampleDeployment
  shown _ := ""
  number value := match value with | .int value => some value | .none => some 0 | _ => none
  number_int _ := rfl
  number_null := rfl
  uuid := some
  encryptSecret := id
  flag _ := none

/-- A managed lake. -/
def createLake : Request :=
  .post "ada" "4f1c"
    { connectionType := some (.str "ducklake")
      host := some (.str "")
      port := some (.int 0)
      database := some (.str "")
      username := some (.str "") }
    fun _ => true

/-- The row of the lake. -/
def lakeRow : Connection :=
  ⟨⟨"ducklake", some "", some 0, some "", some "", none, managedExtra sampleDeployment "4f1c"⟩, "4f1c",
    "ada"⟩

theorem handle_createLake : handle sampleRuntime [] createLake = [lakeRow] := by
  rfl

/-- The place of another lake. -/
def otherPlace : Value :=
  .dict [(.str "mode", .str "managed"), (.str "data_path", .str "/data/lake/8e2b"),
    (.str "metadata_schema", .str "lake_8e2b")]

/-- An update without a type moves the lake. -/
def moveLake : Request :=
  .put "ada" "4f1c" false
    { port := some (.int 0)
      extraConfig := some otherPlace }
    fun _ => true

/-- The row that the update leaves. -/
def movedRow : Connection := { lakeRow with extraConfig := otherPlace }

theorem handle_moveLake : handle sampleRuntime [lakeRow] moveLake = [movedRow] := by
  rfl

end DbtCraft.Server.Connections
