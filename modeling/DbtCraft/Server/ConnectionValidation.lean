/-
# Validation of connections

`features/connections/model/validation.ts`: what the frontend normalizes before it saves a
Snowflake or a Databricks connection. A field of a request may be any JSON value, and
`String(value)` of one that is not text is `shown`.
-/

import DbtCraft.Adapters.HostNames
import DbtCraft.Python.Value

namespace DbtCraft.Server.Connections

open DbtCraft.Python DbtCraft.Adapters

/-- A character that `String.prototype.trim` removes. -/
def isJsSpace (c : Char) : Bool :=
  let code := c.toNat
  (9 ≤ code && code ≤ 13) || code = 32 || code = 0xA0 || code = 0x1680 ||
    (0x2000 ≤ code && code ≤ 0x200A) || code = 0x2028 || code = 0x2029 || code = 0x202F ||
    code = 0x205F || code = 0x3000 || code = 0xFEFF

/-- `text.trim()`. -/
def trim (text : Text) : Text :=
  ((text.dropWhile isJsSpace).reverse.dropWhile isJsSpace).reverse

variable (shown : Value → String)

/-- `String(value ?? '')`. -/
def stringOf (value : Option Value) : String :=
  match value with
  | none | some .none => ""
  | some (.str text) => text
  | some other => shown other

/-- `normalizeSnowflakeAccount`; `none` is a `ConnectionValidationError`. -/
def normalizeSnowflakeAccount (account : Option Value) : Option Text :=
  let value := lowerText (trim (stringOf shown account).toList)
  if value = [] ∨ hasUrlPart value = true ∨ isAccount value = false then none
  else some (hyphenated value)

/-- `normalizeDatabricksHost`. -/
def normalizeDatabricksHost (host : Option Value) : Option Text :=
  let value := lowerText (trim (stringOf shown host).toList)
  if value = [] ∨ 253 < value.length ∨ isWorkspaceHost value = false then none else some value

/-- `normalizeDatabricksHttpPath`. -/
def normalizeDatabricksHttpPath (httpPath : Option Value) : Option Text :=
  let value := trim (stringOf shown httpPath).toList
  if value = [] ∨ (isWarehousePath value = false ∧ isClusterPath value = false) then none
  else some value

end DbtCraft.Server.Connections
