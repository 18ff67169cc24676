/-
# The AI providers of a user

`features/settings/server.ts`: routes of model providers, and the credentials that they name,
each in a table of its own. A call of `upsertProvider` or `deleteProvider` is one transaction.
What a credential was last entered together with is kept beside the tables.
-/

import DbtCraft.Math.Machine
import DbtCraft.Server.Proxy

namespace DbtCraft.Server.AiProviders

open DbtCraft.Math DbtCraft.Python
open DbtCraft.Server.Proxy (isWhiteSpace)

/-- `ProviderModel`. -/
structure ProviderModel where
  id : String
  name : Option String := none
  contextWindow : Option ℕ := none
  maxTokens : Option ℕ := none
  deriving DecidableEq

/-- `ProviderInput`. -/
structure ProviderInput where
  route : String
  label : Option String := none
  apiKeyEnv : Option String := none
  api : Option String := none
  baseUrl : Option String := none
  models : List ProviderModel := []
  defaultModel : Option String := none
  isDefault : Bool := false
  apiKey : Option String := none

/-- A row of `ai_providers`, which its route is the key of. -/
structure AiProvider where
  label : Option String
  apiKeyEnv : String
  api : Option String
  baseUrl : Option String
  models : List ProviderModel
  defaultModel : Option String
  isDefault : Bool
  deriving DecidableEq

/-- A row of `ai_credentials`, which its name is the key of. -/
structure AiCredential where
  provider : String
  apiKeyEncrypted : String
  deriving DecidableEq

/-- The rows of one user, and for each name the key that was last entered under it, with the
base URL of the call. -/
structure Account where
  providers : Dict String AiProvider := []
  credentials : Dict String AiCredential := []
  entered : Dict String (String × Option String) := []

/-- What the settings rely on. -/
structure Runtime where
  /-- `new URL(text).protocol`; `none` is an exception. -/
  urlProtocol : String → Option String
  encryptSecret : String → String
  /-- `none` is an exception. -/
  decryptSecret : String → Option String
  decrypt_encrypt : ∀ secret, decryptSecret (encryptSecret secret) = some secret

/-! ## Reading an input -/

/-- `text.trim()`. -/
def trim (text : String) : String :=
  String.ofList (((text.toList.dropWhile isWhiteSpace).reverse.dropWhile isWhiteSpace).reverse)

/-- `text?.trim() || null`. -/
def trimmed (text : Option String) : Option String := (text.map trim).filter (· ≠ "")

/-- `[A-Za-z0-9]+` runs joined with underscores. -/
def words (text : List Char) : List (List Char) :=
  (text.splitOnP fun c => !c.isAlphanum).filter (· ≠ [])

/-- `defaultApiKeyEnv`. -/
def defaultApiKeyEnv (route : String) : String :=
  upper (String.ofList (List.intercalate ['_'] (words route.toList))) ++ "_API_KEY"

/-- `PROTOCOLS`. -/
def protocols : List String := ["openai-completions", "openai-responses", "anthropic-messages"]

/-- `CATALOG_ROUTES`. -/
def catalogRoutes : List String :=
  ["openai", "anthropic", "deepseek", "google", "xai", "groq", "mistral"]

/-- `normalizeModels`. -/
def normalizeModels (models : List ProviderModel) : List ProviderModel :=
  let cleaned := models.map fun model =>
    { model with
      id := trim model.id
      name := model.name.filter (· ≠ "")
      contextWindow := model.contextWindow.filter (· ≠ 0)
      maxTokens := model.maxTokens.filter (· ≠ 0) }
  cleaned.foldl (fun kept model =>
    if model.id = "" ∨ kept.any (fun other => other.id = model.id) then kept
    else kept ++ [model]) []

/-- `declaredModels`. -/
def declaredModels (models : List ProviderModel) (defaultModel : Option String) :
    List ProviderModel :=
  match trimmed defaultModel with
  | none => models
  | some chosen => if models.any (fun model => model.id = chosen) then models
    else models ++ [{ id := chosen }]

namespace ProviderInput

variable (input : ProviderInput)

/-- `route`. -/
def name : String := trim input.route

/-- `apiKeyEnv`. -/
def reference : String := trim (input.apiKeyEnv.getD (defaultApiKeyEnv input.name))

/-- `baseUrl`. -/
def endpoint : Option String := trimmed input.baseUrl

/-- `suppliedApiKey`. -/
def suppliedApiKey : Option String := trimmed input.apiKey

end ProviderInput

/-- `/^[a-z0-9][a-z0-9-]{0,39}$/`. -/
def isRoute (route : String) : Bool :=
  match route.toList with
  | [] => false
  | first :: rest =>
    (first.isLower || first.isDigit) && rest.length ≤ 39 &&
      rest.all fun c => c.isLower || c.isDigit || c = '-'

/-- `/^[A-Z][A-Z0-9_]{0,63}$/`. -/
def isReference (name : String) : Bool :=
  match name.toList with
  | [] => false
  | first :: rest =>
    first.isUpper && rest.length ≤ 63 && rest.all fun c => c.isUpper || c.isDigit || c = '_'

variable (runtime : Runtime)

/-- `validateProvider`. -/
def validateProvider (input : ProviderInput) : Option String :=
  let isCatalog := catalogRoutes.contains input.name
  let models := normalizeModels input.models
  if isRoute input.name = false then
    some "Provider id must be lowercase letters, digits or dashes"
  else if isReference input.reference = false then
    some "Credential reference must look like OPENAI_API_KEY"
  else if (input.api.filter (· ≠ "")).any fun api => !protocols.contains api then
    some ("Protocol must be one of " ++ String.intercalate ", " protocols)
  else if (input.baseUrl.filter (· ≠ "")).any fun url =>
      runtime.urlProtocol url ≠ some "https:" && runtime.urlProtocol url ≠ some "http:" then
    some "Base URL must be a valid http(s) URL"
  else if isCatalog = false ∧ input.api.filter (· ≠ "") = none then
    some "Protocol is required for a custom provider"
  else if isCatalog = false ∧ input.baseUrl.filter (· ≠ "") = none then
    some "Base URL is required for a custom provider"
  else if isCatalog = false ∧ models = [] then
    some "At least one model ID is required for a custom provider"
  else if isCatalog = false ∧ (trimmed input.defaultModel).any fun chosen =>
      !models.any fun model => model.id = chosen then
    some "Default model must match one of the configured model IDs"
  else none

/-! ## The calls -/

variable (account : Account) (input : ProviderInput)

/-- `movesStoredCredential`. -/
def movesStoredCredential : Bool :=
  (account.credentials.get input.reference).isSome &&
    match account.providers.get input.name with
    | none => true
    | some existing => existing.apiKeyEnv ≠ input.reference || existing.baseUrl ≠ input.endpoint

/-- What `upsertProvider` throws before its transaction. -/
def refusal : Option String :=
  match validateProvider runtime input with
  | some problem => some problem
  | none =>
    if account.providers.get input.name = none ∧ input.suppliedApiKey = none then
      some "API key is required when creating a personal AI connection"
    else if movesStoredCredential account input = true ∧ input.suppliedApiKey = none then
      some "Re-enter the API key when changing its connection or Base URL"
    else none

/-- `data` of the transaction. -/
def rowOf : AiProvider :=
  let models := normalizeModels input.models
  { label := trimmed input.label
    apiKeyEnv := input.reference
    api := trimmed input.api
    baseUrl := input.endpoint
    models
    defaultModel := (trimmed input.defaultModel).or (models.head?.map (·.id))
    isDefault := input.isDefault }

/-- The rows once a new default has taken the place of the old one. -/
def cleared : Dict String AiProvider :=
  if input.isDefault then
    account.providers.map fun item => (item.1, { item.2 with isDefault := false })
  else account.providers

/-- The transaction of `upsertProvider`. -/
def written : Account :=
  let providers := (cleared account input).set input.name (rowOf input)
  match input.suppliedApiKey with
  | none => { account with providers }
  | some apiKey =>
    { providers
      credentials := account.credentials.set input.reference
        ⟨input.name, runtime.encryptSecret apiKey⟩
      entered := account.entered.set input.reference (apiKey, input.endpoint) }

/-- `upsertProvider`. -/
def upsertProvider : Except String Account :=
  match refusal runtime account input with
  | some message => .error message
  | none => .ok (written runtime account input)

/-- `deleteProvider`. -/
def deleteProvider (route : String) : Account :=
  match account.providers.get route with
  | none => account
  | some row =>
    { account with
      providers := account.providers.pop route
      credentials := account.credentials.pop row.apiKeyEnv }

/-! ## What the agent gets -/

/-- A route as the adapter of the harness takes it. -/
structure ProviderEntry where
  apiKeyEnv : String
  displayName : Option String
  api : Option String
  baseURL : Option String
  models : List ProviderModel

structure ResolvedRoutes where
  providers : String → Option ProviderEntry
  credentials : String → Option String
  route : Option String
  model : Option String

def entryOf (row : AiProvider) : ProviderEntry :=
  { apiKeyEnv := row.apiKeyEnv
    displayName := row.label
    api := row.api
    baseURL := row.baseUrl
    models := declaredModels (normalizeModels row.models) row.defaultModel }

/-- `resolveRoutes`. -/
def resolveRoutes : ResolvedRoutes :=
  let chosen := (account.providers.find? (·.2.isDefault)).or account.providers.head?
  { providers := fun route => (account.providers.get route).map entryOf
    credentials := fun name =>
      (account.credentials.get name).bind fun row => runtime.decryptSecret row.apiKeyEncrypted
    route := chosen.map (·.1)
    model := chosen.bind fun row =>
      row.2.defaultModel.or ((normalizeModels row.2.models).head?.map (·.id)) }

/-! ## All users -/

inductive Call
  | upsert (input : ProviderInput)
  | delete (route : String)

/-- The rows of a user after a call; one that throws leaves them. -/
def callOf : Call → Account
  | .upsert input => (upsertProvider runtime account input).toOption.getD account
  | .delete route => deleteProvider account route

/-- The rows of all users, under the calls that they make. -/
def machine : Machine (String → Account) (String × Call) where
  init := fun _ => {}
  step accounts call := some fun user =>
    if user = call.1 then callOf runtime (accounts user) call.2 else accounts user

end DbtCraft.Server.AiProviders
