/-
# What the adapters dial

The adapters of `adapters/` as far as they open connections: what each makes of its config
and hands to its client library. The libraries are not part of the service; what is relied
on of each is what it does with plain arguments. A cloud switch, an alternative key, a
default and a text that is put together each lead to another host than the one that a
config has under `host`.
-/

import DbtCraft.Adapters.HostNames
import DbtCraft.Services.ConnectionConfig

namespace DbtCraft.Adapters

open DbtCraft.Python
open DbtCraft.Services.ConnectionConfig (Config Config.value)

/-- A host and a port that a connection is opened to. -/
abbrev Endpoint := Text × ℤ

/-- A character of a host name or of an IPv4 address. -/
def isHostChar (c : Char) : Bool := c.isAlphanum || c = '.' || c = '-' || c = '_'

/-- A host that no parser takes apart. -/
def isPlainHost (host : Text) : Bool := host ≠ [] && host.all isHostChar

/-- A plain host that is no address. -/
def isPlainName (host : Text) : Bool := isPlainHost host && host.any Char.isAlpha

/-- A service name that does not end a DSN. -/
def isPlainService (service : Text) : Bool :=
  service ≠ [] && service.all fun c => isHostChar c || c = '$' || c = '#'

/-- A port that can be connected to. -/
def IsPort (port : ℤ) : Prop := 0 < port ∧ port < 65536

instance (port : ℤ) : Decidable (IsPort port) := inferInstanceAs (Decidable (_ ∧ _))

/-- A path that DuckDB opens as a file, or its database in memory. -/
def isLocalPath (path : Text) : Bool := path = ":memory:".toList || !path.contains ':'

/-- Host names do not tell upper from lower case. -/
def lowered (host : Text) : Text := host.map Char.toLower

/-- The digits of a number. -/
def digits (number : ℤ) : Text := (toString number).toList

/-- The parts of the language and of the client libraries that the adapters rely on: the
endpoints that a library connects to on account of its arguments. -/
structure Libraries where
  /-- `str(value)` of a value that is not text. -/
  shown : Value → String
  shown_int : ∀ value, shown (.int value) = toString value
  /-- `float(value)` returns. -/
  isFloat : Value → Bool
  /-- `asyncpg.connect(host=..., port=...)`. -/
  asyncpg : Value → Value → List Endpoint
  asyncpg_plain : ∀ host port, isPlainHost host.toList = true → IsPort port →
    asyncpg (.str host) (.int port) = [(host.toList, port)]
  /-- A request of `httpx` to a URL. -/
  httpx : Text → List Endpoint
  httpx_port : ∀ host port, isPlainName host = true → IsPort port →
    httpx ("http://".toList ++ host ++ ':' :: digits port) = [(lowered host, port)]
  httpx_default : ∀ host, isPlainName host = true →
    httpx ("https://".toList ++ host) = [(lowered host, 443)]
  /-- `oracledb.connect_async(dsn=...)`. -/
  oracledb : Text → List Endpoint
  oracledb_plain : ∀ host port service, isPlainHost host = true → IsPort port →
    isPlainService service = true →
    oracledb (host ++ ':' :: digits port ++ '/' :: service) = [(host, port)]
  /-- `duckdb.connect(path)`, after which extensions are installed and loaded. -/
  duckdb : Text → List Text → List Endpoint
  duckdb_local : ∀ path, isLocalPath path = true → duckdb path [] = []

namespace Libraries

variable (libraries : Libraries) (config : Config)

/-- `str(value)`, which is what an f-string writes. -/
def str (value : Value) : Text :=
  match value with
  | .str own => own.toList
  | other => (libraries.shown other).toList

/-- `config.get(key, default)`. -/
def getOr (config : Config) (key : String) (fallback : Value) : Value :=
  (config.get key).getD fallback

/-! ## The adapters -/

/-- `PostgreSQLAdapter`. -/
def postgresql : List Endpoint :=
  libraries.asyncpg (config.value "host") (getOr config "port" (.int 5432))

/-- `OracleAdapter._dsn`. -/
def dsn : Text :=
  libraries.str (config.value "host") ++ ':' :: libraries.str (getOr config "port" (.int 1521)) ++
    '/' :: libraries.str (config.value "service")

/-- `_host` of a `DremioAdapter`. -/
def dremioHost : Text := libraries.str ((config.value "host").orElse (config.value "software_host"))

/-- `_cloud_host` of a `DremioAdapter`. -/
def cloudHost : Text := libraries.str (getOr config "cloud_host" (.str "api.dremio.cloud"))

/-- `_is_cloud` of a `DremioAdapter`. -/
def isCloud (config : Config) : Bool := (getOr config "is_cloud" (.bool false)).truthy

/-- `DremioAdapter._get_base_url`. -/
def baseUrl : Text :=
  if isCloud config then "https://".toList ++ libraries.cloudHost config
  else "http://".toList ++ libraries.dremioHost config ++
    ':' :: libraries.str (getOr config "port" (.int 9047))

/-- `DremioAdapter`: its constructor raises for a timeout that is no number. -/
def dremio : List Endpoint :=
  if libraries.isFloat (getOr config "test_timeout" (.float "15.0" 15)) then
    libraries.httpx (libraries.baseUrl config)
  else []

/-- `_path` of a `DuckDBAdapter`. -/
def duckdbPath : Text :=
  match (config.value "path").orElse (config.value "file_path") with
  | .str own =>
    if own ∈ ["memory", ":memory:", "memory:", "null", "None", ""] then ":memory:".toList
    else own.toList
  | other => if other.truthy then libraries.str other else ":memory:".toList

/-- The extensions that a `DuckDBAdapter` installs. Only a list has items that are texts. -/
def extensions : List Text :=
  match getOr config "extensions" (.list []) with
  | .list items => items.map libraries.str
  | .str own => own.toList.map fun c => [c]
  | .dict items => items.map fun item => libraries.str item.1
  | _ => []

/-- The text of a name, stripped and in lower case. -/
def nameText (value : Value) : Text :=
  lowerText (strip (String.ofList (libraries.str (value.orElse (.str ""))))).toList

/-- `normalize_account`, or the text of its `SnowflakeConfigError`. -/
def normalizeAccount : Except String Text :=
  let value := libraries.nameText (config.value "account")
  if value = [] then
    .error ("A Snowflake connection needs an account identifier, for example " ++
      "myorg-myaccount")
  else if hasUrlPart value then
    .error ("Give the Snowflake account identifier (for example myorg-myaccount " ++
      "or xy12345.eu-west-1), not the snowflakecomputing.com URL")
  else if 255 < value.length ∨ isAccount value = false then
    .error ("'" ++ String.ofList value ++ "' is not a Snowflake account identifier. Use " ++
      "orgname-accountname or an account locator such as xy12345.eu-west-1")
  else .ok (hyphenated value)

/-- `normalize_workspace_host`, or the text of its `DatabricksConfigError`. -/
def normalizeWorkspaceHost : Except String Text :=
  let value := libraries.nameText (config.value "host")
  if value = [] then
    .error ("A Databricks connection needs a workspace hostname, for example " ++
      "dbc-a1b2c3d4-e5f6.cloud.databricks.com")
  else if 253 < value.length ∨ isWorkspaceHost value = false then
    .error ("Give only a Databricks workspace hostname ending in " ++
      ".cloud.databricks.com, .azuredatabricks.net, or " ++
      ".gcp.databricks.com (no scheme, port, path, or query)")
  else .ok value

/-- `normalize_http_path`, or the text of its `DatabricksConfigError`. -/
def normalizeHttpPath : Except String Text :=
  let value := (strip (String.ofList
    (libraries.str ((config.value "http_path").orElse (.str ""))))).toList
  if value = [] ∨ (isWarehousePath value = false ∧ isClusterPath value = false) then
    .error ("Give a Databricks HTTP path shaped like " ++
      "/sql/1.0/warehouses/<16-character-id> or " ++
      "/sql/protocolv1/o/<workspace-id>/<cluster-id>")
  else .ok value

/-- `SNOWFLAKE_PORT`. -/
def snowflakePort : ℤ := 443

/-- `DATABRICKS_PORT`. -/
def databricksPort : ℤ := 443

/-- What the adapter of a type connects to with a config. Snowflake and Databricks connect
to the host that they derive, a Spark connection is checked without one, and the other types
have no adapter. -/
def dialled (connType : String) : List Endpoint :=
  match connType with
  | "postgresql" => libraries.postgresql config
  | "oracle" => libraries.oracledb (libraries.dsn config)
  | "dremio" => libraries.dremio config
  | "duckdb" => libraries.duckdb (libraries.duckdbPath config) (libraries.extensions config)
  | "snowflake" =>
    ((libraries.normalizeAccount config).toOption.map fun account =>
      (accountHost account, snowflakePort)).toList
  | "databricks" =>
    ((libraries.normalizeWorkspaceHost config).toOption.map fun host =>
      (host, databricksPort)).toList
  | _ => []

end Libraries

end DbtCraft.Adapters
