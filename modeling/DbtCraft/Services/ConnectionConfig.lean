/-
# Adapter configs of stored connections

`build_adapter_config_from_connection_row` of `app/services/dbt_service.py` and what it
uses: the config that an adapter renders a connection from, and the secrets of the
connection (`app/core/crypto.py`). A secret stands in the config as a placeholder.
-/

import DbtCraft.Exceptions
import DbtCraft.Python.Dict
import DbtCraft.Python.Text
import DbtCraft.Python.Value

namespace DbtCraft.Services.ConnectionConfig

open DbtCraft.Python

/-- A row of `connections`. -/
structure ConnectionRow where
  connectionType : String
  host : Option String := none
  port : Option ℤ := none
  database : Option String := none
  username : Option String := none
  passwordEncrypted : Option String := none
  extraConfig : Value := .none

/-- A row of `dremio_sources`. -/
structure DremioSourceRow where
  host : Option String := none
  port : Option ℤ := none
  username : Option String := none
  tokenEncrypted : Option String := none
  catalog : Option String := none

/-- An adapter config. -/
abbrev Config := Dict String Value

/-- A column that may be null. -/
def text (column : Option String) : Value :=
  match column with
  | some value => .str value
  | none => .none

def number (column : Option ℤ) : Value :=
  match column with
  | some value => .int value
  | none => .none

/-- `SECONDARY_SECRET_KEY`. -/
def secondarySecretKey : String := "secondary_secret_encrypted"

/-- `MAX_THREADS`. -/
def maxThreads : ℤ := 32

/-- `DEFAULT_THREADS`, or four. -/
def defaultThreads (connType : String) : ℤ := if connType = "dremio" then 1 else 4

/-! ## `extra_config` -/

/-- A pair that `dict` takes as an item. -/
def pairOf : Value → Except Raised (String × Value)
  | .list [.str key, value] => .ok (key, value)
  | .str text =>
    match text.toList with
    | [key, value] => .ok (String.ofList [key], .str (String.ofList [value]))
    | _ => .error (.valueError "dictionary update sequence element has the wrong length")
  | .list _ | .dict _ =>
    .error (.valueError "dictionary update sequence element has the wrong length")
  | _ => .error .typeError

/-- `dict(extra_config or {})` of a JSON document, whose objects have text keys. -/
def extraDict (extraConfig : Value) : Except Raised Config :=
  if extraConfig.truthy = false then .ok []
  else
    match extraConfig with
    | .dict items =>
      .ok (items.filterMap fun item =>
        match item.1 with
        | .str key => some (key, item.2)
        | _ => none)
    | .list items => do
      let pairs ← items.mapM pairOf
      return pairs.foldl (fun dict pair => dict.set pair.1 pair.2) []
    | .str _ => .error (.valueError "dictionary update sequence element has the wrong length")
    | _ => .error .typeError

/-- `extra_cfg.get(key)`. -/
def Config.value (config : Config) (key : String) : Value := (config.get key).getD .none

/-- The digits of an integer literal: single underscores may stand between digits. -/
def digitsOf : List Char → Option (List Char)
  | [] => none
  | [digit] => if digit.isDigit then some [digit] else none
  | digit :: '_' :: rest => if digit.isDigit then (digitsOf rest).map (digit :: ·) else none
  | digit :: rest => if digit.isDigit then (digitsOf rest).map (digit :: ·) else none

/-- `int(text)`; `none` is a `ValueError`. -/
def intOfText (literal : String) : Option ℤ :=
  let natural (digits : List Char) : Option ℤ :=
    (digitsOf digits).map fun own =>
      Int.ofNat (own.foldl (fun total digit => 10 * total + (digit.toNat - 48)) 0)
  match (strip literal).toList with
  | '-' :: digits => (natural digits).map fun value => -value
  | '+' :: digits => natural digits
  | digits => natural digits

/-- `_threads`, without the `pop`: an infinite float is an `OverflowError`, which nothing
catches. -/
def threads (extra : Config) (connType : String) : Except Raised Value :=
  let bounded (value : ℤ) : Value := .int (max 1 (min value maxThreads))
  match extra.value "threads" with
  | .int value | .float _ value => .ok (bounded value)
  | .bool value => .ok (bounded (if value then 1 else 0))
  | .str literal =>
    match intOfText literal with
    | some value => .ok (bounded value)
    | none => .ok (.int (defaultThreads connType))
  | .nonFinite repr =>
    if repr = "nan" then .ok (.int (defaultThreads connType)) else .error .overflowError
  | .none | .list _ | .dict _ | .object _ _ => .ok (.int (defaultThreads connType))

/-- `str(value or default).lower()`, for a value that is compared with words: a value
that is not text equals none of them. -/
def word (value : Value) (fallback : String) : String :=
  match value.orElse (.str fallback) with
  | .str own => String.ofList (own.toList.map Char.toLower)
  | _ => ""

/-! ## The builder -/

/-- `SPARK_EXTRA_CONFIG_KEYS`. -/
def sparkExtraConfigKeys : List String :=
  ["method", "threads", "secret_type", "driver", "cluster", "endpoint", "auth",
    "kerberos_service_name", "organization", "connection_string_suffix", "connect_retries",
    "connect_timeout", "use_ssl", "server_side_parameters", "retry_all", "query_timeout",
    "poll_interval", "query_retries"]

/-- `SNOWFLAKE_EXTRA_CONFIG_KEYS`. -/
def snowflakeExtraConfigKeys : List String :=
  ["query_tag", "client_session_keep_alive", "connect_retries", "connect_timeout",
    "retry_on_database_errors", "retry_all", "reuse_connections"]

/-- The keys that a config takes over from `extra_config`. -/
def Config.withExtra (config extra : Config) (keys : List String) : Config :=
  keys.foldl (fun config key =>
    match extra.get key with
    | some value => config.set key value
    | none => config) config

/-- The types with an adapter. -/
def warehouseTypes : List String :=
  ["postgresql", "duckdb", "oracle", "dremio", "spark", "snowflake", "databricks"]

/-- What `build_adapter_config_from_connection_row` raises for a type that is not a
warehouse. -/
def refuseType (connType : String) : Raised :=
  if connType = "ducklake" then
    .valueError ("A lakehouse is not a warehouse. Point the project at a DuckDB " ++
      "connection and attach the lakehouse to it in Project Settings.")
  else if connType = "mysql" ∨ connType = "rest" then
    .valueError ("A " ++ connType ++ " connection is an ingest source, not a warehouse. Use " ++
      "it on the Sources page; point the project at a warehouse dbt can run against.")
  else .valueError ("Unsupported connection_type: " ++ connType)

variable (row : ConnectionRow) (extra : Config) (hasSecondary : Bool) (secret secondary : Value)

def postgresqlConfig (threads : Value) : Config :=
  [("host", text row.host), ("port", number row.port), ("user", text row.username),
    ("password", secret), ("dbname", text row.database),
    ("schema", (extra.value "schema").orElse (.str "public")), ("threads", threads)]

def duckdbConfig (threads : Value) : Config :=
  [("path", (text row.database).orElse (.str "")),
    ("schema", (extra.value "schema").orElse (.str "main")), ("threads", threads)]

def oracleConfig (threads : Value) : Config :=
  let username := row.username.getD ""
  [("host", text row.host), ("port", number row.port), ("user", .str username),
    ("password", secret), ("service", (extra.value "service").orElse (text row.database)),
    ("schema", (extra.value "schema").orElse (.str (upper username))), ("threads", threads)]

def dremioConfig (threads : Value) : Config :=
  let own : Config :=
    [("host", text row.host), ("port", number row.port), ("user", text row.username),
      ("dremio_space", (text row.database).orElse (.str ("@" ++ row.username.getD "None"))),
      ("threads", threads)]
  let config := ((extra.pop "auth_type").pop "threads").foldl
    (fun config item => config.set item.1 item.2) own
  let authType := match extra.get "auth_type" with | some value => value | none => .str "pat"
  if authType.sameKey (.str "password") then config.set "password" secret
  else config.set "pat" secret

/-- The config of a Spark connection, and whether it holds its secret. -/
def sparkConfig : Config × Bool :=
  let own : Config :=
    [("host", text row.host), ("port", number row.port), ("schema", text row.database),
      ("user", text row.username)]
  let config := Config.withExtra own extra sparkExtraConfigKeys
  let secretType := word (extra.value "secret_type") "none"
  if secretType = "password" ∨ secretType = "token" then
    ((config.set "secret_type" (.str secretType)).set secretType secret, true)
  else (config, false)

def snowflakeConfig (threads : Value) : Config :=
  let authType := word (extra.value "auth_type") "password"
  let own : Config :=
    [("account", extra.value "account"), ("user", text row.username),
      ("auth_type", .str authType), ("role", (extra.value "role").orElse .none),
      ("warehouse", (extra.value "warehouse").orElse .none), ("database", text row.database),
      ("schema", (extra.value "schema").orElse .none), ("threads", threads)]
  let config :=
    if authType = "keypair" then
      let keyed := own.set "private_key" secret
      if hasSecondary then keyed.set "private_key_passphrase" secondary else keyed
    else own.set "password" secret
  Config.withExtra config extra snowflakeExtraConfigKeys

/-- The config of a Databricks connection, and whether it holds its secret. -/
def databricksConfig (threads : Value) : Config × Bool :=
  let authType := word (extra.value "auth_type") "pat"
  let own : Config :=
    [("host", text row.host), ("http_path", extra.value "http_path"),
      ("auth_type", .str authType), ("catalog", (text row.database).orElse .none),
      ("schema", (extra.value "schema").orElse .none), ("threads", threads)]
  if authType = "oauth_m2m" then
    let keyed := own.set "client_id" (extra.value "client_id")
    (if hasSecondary then keyed.set "client_secret" secondary else keyed, false)
  else (own.set "token" secret, true)

/-- The branches of `build_adapter_config_from_connection_row`. -/
def buildOfType : Except Raised (Config × Bool) :=
  let withThreads (build : Value → Config × Bool) : Except Raised (Config × Bool) :=
    (threads extra row.connectionType).map build
  if row.connectionType = "postgresql" then
    withThreads fun count => (postgresqlConfig row extra secret count, true)
  else if row.connectionType = "duckdb" then
    withThreads fun count => (duckdbConfig row extra count, false)
  else if row.connectionType = "oracle" then
    withThreads fun count => (oracleConfig row extra secret count, true)
  else if row.connectionType = "dremio" then
    withThreads fun count => (dremioConfig row extra secret count, true)
  else if row.connectionType = "spark" then .ok (sparkConfig row extra secret)
  else if row.connectionType = "snowflake" then
    withThreads fun count => (snowflakeConfig row extra hasSecondary secret secondary count, true)
  else if row.connectionType = "databricks" then
    withThreads fun count => databricksConfig row extra hasSecondary secret secondary count
  else .error (refuseType row.connectionType)

/-- `build_adapter_config_from_connection_row`: the config, and whether it holds the
secret of `password_encrypted`. -/
def buildAdapterConfig : Except Raised (Config × Bool) := do
  let all ← extraDict row.extraConfig
  buildOfType row (all.pop secondarySecretKey) (all.value secondarySecretKey).truthy secret
    secondary

/-- `build_adapter_config_from_dremio_source_row`. -/
def buildDremioSourceConfig (source : DremioSourceRow) : Config :=
  let username := source.username.getD ""
  [("host", text source.host), ("port", number source.port), ("user", .str username),
    ("pat", secret),
    ("dremio_space", (text source.catalog).orElse
      (.str (if username ≠ "" then "@" ++ username else "@dremio"))),
    ("threads", .int (defaultThreads "dremio"))]

/-! ## Secrets -/

/-- `decrypt_secret`; `none` is an `EncryptionError`. -/
abbrev Decrypt := String → Option String

/-- `decrypt_secret_or_plaintext`. -/
def decryptSecretOrPlaintext (decrypt : Decrypt) (value : Option String) :
    Except Raised String :=
  match value with
  | none => .ok ""
  | some ciphertext =>
    if startsWith ciphertext "v1:gcm:" || startsWith ciphertext "gAAAAA" then
      match decrypt ciphertext with
      | some secret => .ok secret
      | none => .error (.valueError "Encrypted secret cannot be decrypted")
    else .ok ciphertext

/-- `connection_secondary_secret`. -/
def connectionSecondarySecret (decrypt : Decrypt) : Except Raised String :=
  match row.extraConfig with
  | .dict items =>
    match (Value.item items (.str secondarySecretKey)).getD .none with
    | .str ciphertext => decryptSecretOrPlaintext decrypt (some ciphertext)
    | value => if value.truthy then .error .attributeError else .ok ""
  | _ => .ok ""

end DbtCraft.Services.ConnectionConfig
