/-
# Attach strings

How the row of an external lake becomes a catalog URL (`app/services/lakes.py`), and the
URL the string that DuckDB attaches (`ingest/lakehouse.py`). The platform is not Windows.
-/

import DbtCraft.Ingest.Lakehouse
import DbtCraft.Python.UrlParse

namespace DbtCraft.Ingest.Lakehouse

open DbtCraft.Python DbtCraft.Python.Url

/-- The characters of a string. -/
abbrev Text := List Char

/-! ## Catalog URLs -/

/-- The part of a `connections` row that locates its catalog; the default catalog type
has been filled in. -/
structure CatalogRow where
  catalogType : String
  host : Text
  port : Option ℤ
  database : Text
  username : Text

/-- `int(row.get("port") or 5432)`. -/
def CatalogRow.portOf (row : CatalogRow) : ℤ :=
  match row.port with
  | some port => if port = 0 then 5432 else port
  | none => 5432

/-- `text.lstrip("/")`. -/
def withoutSlashes (text : Text) : Text := text.dropWhile (· = '/')

/-- The scheme of a PostgreSQL catalog. -/
def postgresqlScheme : Text := ['p', 'o', 's', 't', 'g', 'r', 'e', 's', 'q', 'l']

/-- `_catalog_url_from_row`. -/
def catalogUrlFromRow (row : CatalogRow) (password : Text) : Except Raised Text :=
  if row.catalogType = "sqlite" then
    if row.database = [] then .error (.lakehouse "a sqlite catalog needs a file path")
    else .ok ("sqlite:///".toList ++ withoutSlashes row.database)
  else if row.host = [] ∨ row.database = [] then
    .error (.lakehouse "a postgres catalog needs a host and a database name")
  else
    let credentials :=
      if password = [] then quote row.username
      else quote row.username ++ ':' :: quote password
    .ok (postgresqlScheme ++ ':' :: '/' :: '/' :: (credentials ++ '@' :: (row.host ++
      ':' :: ((toString row.portOf).toList ++ '/' :: row.database))))

/-- `parsed.scheme.split("+")[0]`. -/
def baseScheme (parsed : Parsed) : String := String.ofList (parsed.scheme.takeWhile (· ≠ '+'))

/-- What `urlparse` raises. -/
def invalidUrl : Raised := .valueError "Invalid URL"

/-- What reading a port raises. -/
def invalidPort : Raised := .valueError "Port could not be cast to integer value"

/-- `_assert_catalog_host_allowed`, with `assert_host_allowed` as it is. -/
def assertCatalogHostAllowed (tables : Tables) (assertHostAllowed : Text → Option ℕ → Except Raised Unit)
    (url : Text) : Except Raised Unit :=
  match urlparse tables url with
  | none => .error invalidUrl
  | some parsed =>
    if baseScheme parsed ∈ ["sqlite", "file", ""] then .ok ()
    else
      match parsed.hostname, parsed.port with
      | none, _ => .error (.lakehouse "the lakehouse catalog URL has no host")
      | some _, none => .error invalidPort
      | some hostname, some port => assertHostAllowed hostname port

/-! ## Attaching -/

/-- `parsed.port or 5432`. -/
def shownPort (port : Option ℕ) : ℕ := if port.getD 0 = 0 then 5432 else port.getD 0

/-- `name=value`. -/
def option (name : String) (value : Text) : Text := name.toList ++ '=' :: value

/-- The options of a connection string. -/
def connectionOptions (database host : Text) (port : Option ℕ) (username password : Text) : Text :=
  option "dbname" database ++ ' ' :: (option "host" host ++
    ' ' :: (option "port" (toString (shownPort port)).toList ++
    ' ' :: (option "user" username ++ ' ' :: option "password" password)))

/-- What DuckLake attaches for a PostgreSQL catalog. -/
def ducklakePostgres (text : Text) : Text := "ducklake:postgres:".toList ++ text

/-- The end of both functions that build a connection string. -/
def connectionString (parsed : Parsed) (password : Text) : Except Raised Text :=
  let database := withoutSlashes parsed.path
  match parsed.hostname with
  | none => .error (.lakehouse "lakehouse catalog URL is missing a host or database name")
  | some hostname =>
    if database = [] then
      .error (.lakehouse "lakehouse catalog URL is missing a host or database name")
    else
      match parsed.port with
      | none => .error invalidPort
      | some port =>
        .ok (connectionOptions database hostname port (parsed.userinfo.1.getD []) password)

/-- `_postgres_attach_string`. -/
def postgresAttachString (tables : Tables) (url : Text) : Except Raised Text :=
  match urlparse tables url with
  | none => .error invalidUrl
  | some parsed => connectionString parsed (parsed.userinfo.2.getD [])

/-- `attach_string`; without a password the one in the URL counts. -/
def attachString (tables : Tables) (url : Text) (password : Option Text) : Except Raised Text :=
  match urlparse tables url with
  | none => .error invalidUrl
  | some parsed =>
    if baseScheme parsed ∈ ["sqlite", "file", ""] then
      let path := if parsed.path = [] then url else parsed.path
      .ok ("ducklake:sqlite:/".toList ++ withoutSlashes path)
    else if baseScheme parsed ∉ ["postgres", "postgresql"] then
      .error (.lakehouse ("Unsupported lakehouse catalog scheme '" ++
        String.ofList parsed.scheme ++ "'. Use postgresql:// or sqlite:///"))
    else
      (connectionString parsed (password.getD (parsed.userinfo.2.getD []))).map
        ducklakePostgres

end DbtCraft.Ingest.Lakehouse
