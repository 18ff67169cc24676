/-
# Names of warehouse hosts

The patterns that Snowflake accounts, Databricks workspaces and Databricks HTTP paths
have to match. `adapters/snowflake.py`, `adapters/databricks.py` and the frontend's
`features/connections/model/validation.ts` have the same ones, and apply them to text that
has been stripped and put into lower case. The dots of a name match in one way only, so a
pattern reads the text between them.
-/

import DbtCraft.Python.Text

namespace DbtCraft.Adapters

open DbtCraft.Python

/-- The characters of a string. -/
abbrev Text := List Char

/-- `[a-z0-9]`. -/
def isLowerAlnum (c : Char) : Bool := c.isLower || c.isDigit

/-- `[a-z0-9](?:…{0,most}[a-z0-9])?`, where the inner characters have the property. -/
def isBounded (inner : Char → Bool) (most : ℕ) (text : Text) : Bool :=
  match text.head?, text.getLast? with
  | some first, some last =>
    isLowerAlnum first && isLowerAlnum last && decide (text.length ≤ most + 2) && text.all inner
  | _, _ => false

/-- `[a-z0-9-]`. -/
def isLabelChar (c : Char) : Bool := isLowerAlnum c || c = '-'

/-- `_HOST_LABEL`. -/
def isHostLabel (text : Text) : Bool := isBounded isLabelChar 61 text

/-- `_ACCOUNT_RE`. -/
def isAccount (text : Text) : Bool :=
  match split '.' text with
  | [] => false
  | first :: labels =>
    isBounded (fun c => isLabelChar c || c = '_') 253 first && decide (labels.length ≤ 3) &&
      labels.all isHostLabel

/-- What a workspace host ends in. -/
def workspaceDomains : List Text :=
  ["cloud.databricks.com".toList, "azuredatabricks.net".toList, "gcp.databricks.com".toList]

/-- `_WORKSPACE_HOST_RE`. -/
def isWorkspaceHost (text : Text) : Bool :=
  (split '.' text).all isHostLabel &&
    workspaceDomains.any fun domain => ('.' :: domain).isSuffixOf text

/-- `_WAREHOUSE_PATH_RE`. -/
def isWarehousePath (text : Text) : Bool :=
  let start := "/sql/1.0/warehouses/".toList
  start.isPrefixOf text && (text.drop start.length).length = 16 &&
    (text.drop start.length).all isLowerAlnum

/-- `_CLUSTER_PATH_RE`. -/
def isClusterPath (text : Text) : Bool :=
  let start := "/sql/protocolv1/o/".toList
  match split '/' (text.drop start.length) with
  | [workspace, cluster] =>
    start.isPrefixOf text && workspace ≠ [] && workspace.all Char.isDigit &&
      isBounded isLabelChar 126 cluster
  | _ => false

/-- `SNOWFLAKE_DOMAIN`. -/
def snowflakeDomain : Text := "snowflakecomputing.com".toList

/-- Lower case, for text that is matched with one of the patterns: of the characters
outside ASCII only the Kelvin sign becomes one inside. -/
def lowerText (text : Text) : Text :=
  text.map fun c => if c.toNat = 0x212A then 'k' else c.toLower

/-- What refuses an account that is a URL or a host. -/
def hasUrlPart (text : Text) : Bool :=
  decide (snowflakeDomain <:+: text) || text.any fun c => c = '/' || c = ':' || c = '@'

/-- Underscores become hyphens. -/
def hyphenated (text : Text) : Text := text.map fun c => if c = '_' then '-' else c

/-- The host of a normalized account. -/
def accountHost (account : Text) : Text := account ++ '.' :: snowflakeDomain

example : isAccount "xy12345.eu-west-1".toList = true := by decide
example : isWorkspaceHost "dbc-a1b2c3d4-e5f6.cloud.databricks.com".toList = true := by decide
example : isWorkspaceHost "cloud.databricks.com".toList = false := by decide

end DbtCraft.Adapters
