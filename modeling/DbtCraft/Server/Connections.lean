/-
# The connections of the frontend

`app/api/connections/route.ts` and what it uses of `features/connections/server.ts`:
requests create, update and delete rows of `connections`. A lakehouse is stored as
dbt-runner's `/lakehouse/check` (`app/routers/lake.py`) answers.

A field of a body is any JSON value, or absent. The database takes the value of a field
only where it has the type of its column, and refuses the request otherwise.
-/

import DbtCraft.Math.Machine
import DbtCraft.Server.ConnectionValidation
import DbtCraft.Services.Lakes

namespace DbtCraft.Server.Connections

open DbtCraft.Math DbtCraft.Python DbtCraft.Services.Lakes
open DbtCraft.Services.ConnectionConfig hiding text

/-- `CONNECTION_TYPES`. -/
def connectionTypes : List String :=
  ["postgresql", "duckdb", "dremio", "oracle", "spark", "snowflake", "databricks", "mysql", "rest",
    Services.Lakes.connectionType]

/-- A row of `connections`, as far as something is read of it. -/
structure Connection extends ConnectionRow where
  id : String
  createdBy : String

/-- The JSON body of a request. -/
structure Body where
  id : Option Value := none
  connectionType : Option Value := none
  host : Option Value := none
  port : Option Value := none
  database : Option Value := none
  username : Option Value := none
  passwordEncrypted : Option Value := none
  extraConfig : Option Value := none

/-- What the frontend runs with: the parts of its language and of its database that the
requests rely on. -/
structure Runtime where
  deployment : Deployment
  /-- `String(value)` of a value that is not text. -/
  shown : Value → String
  /-- `Number(value)`, where it is an integer. -/
  number : Value → Option ℤ
  number_int : ∀ value, number (.int value) = some value
  number_null : number .none = some 0
  /-- What the column of ids makes of a text. -/
  uuid : String → Option String
  encryptSecret : String → String
  /-- A flag that dbt-runner reads from JSON. -/
  flag : Value → Option Bool

/-! ## Reading a body -/

/-- A field of an object; other values have none. -/
def prop (value : Option Value) (key : String) : Option Value :=
  match value with
  | some (.dict items) => Value.item items (.str key)
  | _ => none

/-- Assigns a field of an object. -/
def setProp (value : Value) (key : String) (content : Value) : Value :=
  match value with
  | .dict items =>
    .dict ((items.filter fun item => !item.1.sameKey (.str key)) ++ [(.str key, content)])
  | other => other

/-- `delete object[key]`. -/
def deleteProp (items : List (Value × Value)) (key : String) : List (Value × Value) :=
  items.filter fun item => !item.1.sameKey (.str key)

/-- `{ ...value }` of a value with `typeof value === 'object'`. -/
def spread (value : Value) : Option (List (Value × Value)) :=
  match value with
  | .dict items => some items
  | .list items => some ((items.zipIdx).map fun item => (.str (toString item.2), item.1))
  | _ => none

/-- A text that is not empty. -/
def nonEmptyText (value : Option Value) : Option String :=
  match value with
  | some (.str text) => if text = "" then none else some text
  | _ => none

/-- The key of a second secret. -/
def secondaryKey : String := secondarySecretKey

/-- `Boolean(value)`: every object is true. -/
def jsTruthy : Value → Bool
  | .list _ | .dict _ => true
  | value => value.truthy

/-- `value === null`. -/
def isNull : Value → Bool
  | .none => true
  | _ => false

/-- `body.connectionType === name`. -/
def namesType (body : Body) (name : String) : Bool :=
  match body.connectionType with
  | some (.str own) => own = name
  | _ => false

/-- The type of a body, where it is supported. -/
def supportedType (body : Body) : Option String :=
  match body.connectionType with
  | some (.str name) => if name ∈ connectionTypes then some name else none
  | _ => none

/-- A column of text that is written: `none` keeps it. -/
def textColumn (value : Option Value) : Option (Option String) :=
  match value with
  | none => some none
  | some (.str text) => some (some text)
  | some _ => none

variable (runtime : Runtime)

/-! ## The guard -/

/-- The `extra_config` of a Databricks connection, with a normalized HTTP path. -/
def withHttpPath (extraConfig : Option Value) : Option (Option Value) :=
  let httpPath := prop extraConfig "http_path"
  if jsTruthy (httpPath.getD .none) then
    (normalizeDatabricksHttpPath runtime.shown httpPath).map fun path =>
      extraConfig.map (setProp · "http_path" (.str (String.ofList path)))
  else some extraConfig

/-- `validateAndGuardConnection`, with what `assertHostAllowed` says: the body it leaves, or
`none` where it throws. -/
def validateAndGuardConnection (hostAllowed : Adapters.Text → Bool) (body : Body) : Option Body :=
  if namesType body "snowflake" then do
    let account ← normalizeSnowflakeAccount runtime.shown (prop body.extraConfig "account")
    let host := Adapters.accountHost account
    if hostAllowed host then
      return { body with
        extraConfig := body.extraConfig.map (setProp · "account" (.str (String.ofList account)))
        host := some (.str (String.ofList host))
        port := some (.int 443) }
    none
  else if namesType body "databricks" then do
    let host ← normalizeDatabricksHost runtime.shown body.host
    let extraConfig ← withHttpPath runtime body.extraConfig
    if hostAllowed host then
      return { body with
        extraConfig, host := some (.str (String.ofList host)), port := some (.int 443) }
    none
  else some body

/-! ## Lakehouses -/

/-- A text of the check; `null` and other values are refused. -/
def checkText (value : Option Value) (fallback : String) : Option String :=
  match value with
  | none => some fallback
  | some (.str text) => some text
  | some _ => none

/-- The mode of the check. -/
def checkMode (value : Option Value) : Option String :=
  match value with
  | some .none => some Ingest.Lakehouse.modeManaged
  | value => checkText value Ingest.Lakehouse.modeManaged

/-- The flag of the check. -/
def checkFlag (value : Option Value) : Option (Option Bool) :=
  match value with
  | none | some .none => some none
  | some value => (runtime.flag value).map some

/-- The port of the check. -/
def checkPort (value : Option Value) : Option ℤ :=
  value.bind fun value => if isNull value then none else runtime.number value

/-- The request that `lakehouseExtraConfig` sends, as dbt-runner reads it. -/
def lakePayload (body : Body) : Option LakePayload := do
  let mode ← checkMode (prop body.extraConfig "mode")
  let catalogType ← checkText (prop body.extraConfig "catalog_type") catalogPostgres
  let dataPath ← checkText (prop body.extraConfig "data_path") ""
  let metadataSchema ← checkText (prop body.extraConfig "metadata_schema") ""
  let maintained ← checkFlag runtime (prop body.extraConfig "maintained")
  return {
    mode, catalogType, dataPath, metadataSchema, maintained
    host := stringOf runtime.shown body.host
    port := checkPort runtime body.port
    database := stringOf runtime.shown body.database
    username := stringOf runtime.shown body.username
    password := stringOf runtime.shown body.passwordEncrypted }

/-- `lakehouseExtraConfig`: what to store, or `none` where the check has not passed. -/
def lakehouseExtraConfig (body : Body) (connectionId : String) : Option Value := do
  let payload ← lakePayload runtime body
  (validateLakePayload runtime.deployment payload (some connectionId)).toOption

/-! ## Writing a row -/

/-- The `extra_config` that `createConnection` writes. -/
def createdExtra (extraConfig : Option Value) : Option Value :=
  match extraConfig with
  | none => some .none
  | some value =>
    match spread value with
    | some items =>
      match nonEmptyText (Value.item items (.str secondaryKey)) with
      | some secret =>
        some (setProp (.dict items) secondaryKey (.str (runtime.encryptSecret secret)))
      | none => some (.dict (deleteProp items secondaryKey))
    | none => if isNull value then none else some value

/-- A secret column: `value ? encryptSecret(value) : undefined`. -/
def secretColumn (value : Option Value) : Option (Option String) :=
  match value with
  | none => some none
  | some (.str text) => some (if text = "" then none else some (runtime.encryptSecret text))
  | some value => if jsTruthy value then none else some none

/-- The id of a new row. -/
def newRowId (newId : String) (id : Option Value) : Option String :=
  match id with
  | none => some newId
  | some (.str text) => runtime.uuid text
  | some _ => none

/-- A column of integers that is written as it is. -/
def intColumn (value : Option Value) : Option ℤ :=
  match value with
  | some (.int value) => some value
  | _ => none

/-- `createConnection`: the new row, or `none` where the database refuses it. -/
def createConnection (caller newId : String) (body : Body) (rows : List Connection) :
    Option Connection := do
  let connectionType ← supportedType body
  let id ← newRowId runtime newId body.id
  if id ∈ rows.map (·.id) then none
  else do
    let host ← (textColumn body.host).join
    let port ← intColumn body.port
    let database ← (textColumn body.database).join
    let username ← (textColumn body.username).join
    let passwordEncrypted ← secretColumn runtime body.passwordEncrypted
    let extraConfig ← createdExtra runtime body.extraConfig
    return ⟨⟨connectionType, some host, some port, some database, some username,
      passwordEncrypted, extraConfig⟩, id, caller⟩

/-- A stored second secret is kept for the authentication it belongs to. -/
def keepsSecondary (connectionType : String) (items : List (Value × Value)) : Bool :=
  let authType := (Value.item items (.str "auth_type")).getD .none
  (connectionType = "snowflake" && authType.sameKey (.str "keypair")) ||
    (connectionType = "databricks" && authType.sameKey (.str "oauth_m2m"))

/-- The `extra_config` that `updateConnection` writes, where it writes one. -/
def updatedExtra (existing : Connection) (connectionType : Option String)
    (extraConfig : Option Value) : Option (Option Value) :=
  match extraConfig with
  | none => some none
  | some value =>
    match spread value with
    | some items =>
      let held := (prop (some existing.extraConfig) secondaryKey).getD .none
      match nonEmptyText (Value.item items (.str secondaryKey)) with
      | some secret =>
        some (some (setProp (.dict items) secondaryKey (.str (runtime.encryptSecret secret))))
      | none =>
        let cleared := deleteProp items secondaryKey
        if ((Value.item items (.str secondaryKey)).map isNull).getD false = false ∧
            jsTruthy held = true ∧
            keepsSecondary (connectionType.getD existing.connectionType) items = true then
          some (some (.dict (cleared ++ [(.str secondaryKey, held)])))
        else some (some (.dict cleared))
    | none => if isNull value then none else some (some value)

/-- `updateConnection`, for a body whose lakehouse has been checked. -/
def updateConnection (existing : Connection) (body : Body) (extraConfig : Option Value) :
    Option Connection := do
  let host ← textColumn body.host
  let port ← body.port.bind runtime.number
  let database ← textColumn body.database
  let username ← textColumn body.username
  let passwordEncrypted ← secretColumn runtime body.passwordEncrypted
  let written ← updatedExtra runtime existing (supportedType body) extraConfig
  return { existing with
    connectionType := (supportedType body).getD existing.connectionType
    host := host.or existing.host
    port := some port
    database := database.or existing.database
    username := username.or existing.username
    passwordEncrypted := passwordEncrypted.or existing.passwordEncrypted
    extraConfig := written.getD existing.extraConfig }

/-! ## Requests -/

/-- The row that an id in a request leads to, where the caller owns it. -/
def ownedRow (rows : List Connection) (caller idText : String) : Option Connection := do
  let id ← runtime.uuid idText
  let row ← rows.find? fun row => row.id = id
  if row.createdBy = caller then some row else none

/-- A request, with what the code outside answers: a new id, whether hosts are allowed, and
whether dbt-runner releases a lakehouse. -/
inductive Request
  | post (caller newId : String) (body : Body) (hostAllowed : Adapters.Text → Bool)
  | put (caller idText : String) (dremio : Bool) (body : Body) (hostAllowed : Adapters.Text → Bool)
  | delete (caller idText : String) (dremio released : Bool)

/-- `POST`: the row that is created. -/
def post (caller newId : String) (body : Body) (hostAllowed : Adapters.Text → Bool)
    (rows : List Connection) : Option Connection := do
  let connectionType ← supportedType body
  let guarded ← validateAndGuardConnection runtime hostAllowed body
  if connectionType = Services.Lakes.connectionType then do
    let extraConfig ← lakehouseExtraConfig runtime guarded newId
    createConnection runtime caller newId
      { guarded with id := some (.str newId), extraConfig := some extraConfig } rows
  else createConnection runtime caller newId guarded rows

/-- A body of `PUT` is guarded where it has a type. -/
def guardedPut (hostAllowed : Adapters.Text → Bool) (body : Body) : Option Body :=
  if jsTruthy (body.connectionType.getD .none) then
    validateAndGuardConnection runtime hostAllowed body
  else some body

/-- `PUT` of a connection: what becomes of its row. -/
def put (idText : String) (body : Body) (hostAllowed : Adapters.Text → Bool)
    (existing : Connection) : Option Connection := do
  let guarded ← guardedPut runtime hostAllowed body
  if namesType guarded Services.Lakes.connectionType then do
    let extraConfig ← lakehouseExtraConfig runtime guarded idText
    updateConnection runtime existing guarded (some extraConfig)
  else updateConnection runtime existing guarded guarded.extraConfig

/-- The rows after a request; one that fails leaves them. -/
def handle (rows : List Connection) (request : Request) : List Connection :=
  match request with
  | .post caller newId body hostAllowed =>
    match post runtime caller newId body hostAllowed rows with
    | some row => rows ++ [row]
    | none => rows
  | .put caller idText dremio body hostAllowed =>
    if dremio ∨ idText = "" then rows
    else
      match ownedRow runtime rows caller idText with
      | none => rows
      | some existing =>
        match put runtime idText body hostAllowed existing with
        | some row => rows.map fun other => if other.id = existing.id then row else other
        | none => rows
  | .delete caller idText dremio released =>
    if dremio ∨ idText = "" then rows
    else
      match ownedRow runtime rows caller idText with
      | none => rows
      | some existing =>
        if existing.connectionType = Services.Lakes.connectionType ∧ released = false then rows
        else rows.filter fun other => other.id ≠ existing.id

/-- The connections, from none on. -/
def service : Machine (List Connection) Request where
  init := []
  step rows request := some (handle runtime rows request)

end DbtCraft.Server.Connections
