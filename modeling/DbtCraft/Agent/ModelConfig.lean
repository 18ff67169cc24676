/-
# Model configurations

`app/model_config.py` of the agent: what it makes of the four headers in which the proxy
forwards the providers of a user and their secrets. Base64, JSON and the classes of letters
beyond ASCII belong to the language.
-/

import DbtCraft.Python.Environ
import DbtCraft.Python.Text
import DbtCraft.Python.Value

namespace DbtCraft.Agent

open DbtCraft.Python

/-- What a header is decoded with. -/
structure Codec where
  /-- `json.loads(base64.b64decode(header, validate=True))`; `none` is an exception that
  `_decode` catches. -/
  document : String → Option Value
  /-- `str(value)` of a number. -/
  shown : Value → String
  /-- `c.isalnum()`. -/
  isAlnum : Char → Bool
  /-- `c.isalpha()`. -/
  isAlpha : Char → Bool
  /-- `c.isupper()`. -/
  isUpper : Char → Bool
  /-- The character has a case. -/
  isCased : Char → Bool

/-- `_MAX_HEADER_BYTES`. -/
def maxHeaderBytes : ℕ := 64 * 1024

/-- The providers of a user, their secrets, and the route to start on. -/
structure ModelConfig where
  providers : Dict String Value
  credentials : Environ
  route : Option String
  model : Option String

variable (codec : Codec)

/-- `_decode`; the keys of a JSON document are texts. -/
def decode (header : Option String) : Dict String Value :=
  match header with
  | none => []
  | some header =>
    if header = "" ∨ maxHeaderBytes < header.length then []
    else
      match codec.document header with
      | some (.dict items) =>
        items.filterMap fun item =>
          match item.1 with
          | .str key => some (key, item.2)
          | _ => none
      | _ => []

/-- `text.isupper()`. -/
def isUpperText (text : List Char) : Bool :=
  text.any codec.isUpper && text.all fun c => codec.isUpper c || !codec.isCased c

/-- `_valid_reference`. -/
def validReference (name : String) : Bool :=
  match name.toList with
  | [] => false
  | first :: rest =>
    let bare := (first :: rest).filter (· ≠ '_')
    bare ≠ [] && bare.all codec.isAlnum && codec.isAlpha first && isUpperText codec (first :: rest)

/-- `_valid_route`. -/
def validRoute (route : String) : Bool :=
  match route.toList with
  | [] => false
  | first :: rest =>
    (first :: rest).all (fun c => codec.isAlnum c || c = '-') && codec.isAlnum first

/-- `str(value)` of a credential; `none` where it is no text and no integer. -/
def secretText (value : Value) : Option String :=
  match value with
  | .str text => some text
  | .int _ | .bool _ => some (codec.shown value)
  | _ => none

/-- A credential that is kept. -/
def credential (item : String × Value) : Option (String × String) :=
  if validReference codec item.1 then
    ((secretText codec item.2).filter fun text => strip text ≠ "").map fun text => (item.1, text)
  else none

/-- `ModelConfig.from_headers`. -/
def fromHeaders (providers credentials route model : Option String) : ModelConfig :=
  let chosen := route.filter fun route => route ≠ "" && validRoute codec route
  { providers := (decode codec providers).filter fun item =>
      validRoute codec item.1 && match item.2 with | .dict _ => true | _ => false
    credentials := ((decode codec credentials).filterMap (credential codec)).foldl
      (fun env item => env.set item.1 item.2) .empty
    route := chosen
    model := if chosen.isSome then model.filter (· ≠ "") else none }

/-- The references that the routes of a configuration name. -/
def ModelConfig.references (config : ModelConfig) : List String :=
  config.providers.filterMap fun item =>
    match item.2 with
    | .dict entries =>
      match Value.item entries (.str "apiKeyEnv") with
      | some (.str name) => some name
      | _ => none
    | _ => none

/-! ## Accepted credentials -/

variable {codec}

/-- A credential that is kept is valid and not blank. -/
theorem valid_of_credential {item : String × Value} {name secret : String}
    (hkept : credential codec item = some (name, secret)) :
    validReference codec name = true ∧ strip secret ≠ "" := by
  unfold credential at hkept
  split at hkept
  next hvalid =>
    obtain ⟨text, hfiltered, hpair⟩ := Option.map_eq_some_iff.mp hkept
    obtain ⟨-, hstrip⟩ := Option.filter_eq_some_iff.mp hfiltered
    rw [← (Prod.mk.inj hpair).1, ← (Prod.mk.inj hpair).2]
    exact ⟨hvalid, by simpa using hstrip⟩
  · cases hkept

theorem mem_of_get_foldl_set {items : List (String × String)} {env : Environ} {name secret : String}
    (hget : (items.foldl (fun env item => env.set item.1 item.2) env).get name = some secret) :
    (name, secret) ∈ items ∨ env.get name = some secret := by
  induction items generalizing env with
  | nil => exact .inr hget
  | cons first rest ih =>
    rcases ih hget with hrest | hbefore
    · exact .inl (List.mem_cons_of_mem first hrest)
    · rw [Environ.get_set] at hbefore
      split at hbefore
      next hname =>
        rw [hname, ← Option.some.inj hbefore]
        exact .inl List.mem_cons_self
      · exact .inr hbefore

/-- Every credential that `from_headers` accepts has a valid name and is not blank. -/
theorem valid_of_get_credentials {providers credentials route model : Option String}
    {name secret : String}
    (hget : (fromHeaders codec providers credentials route model).credentials.get name =
      some secret) : validReference codec name = true ∧ strip secret ≠ "" := by
  rcases mem_of_get_foldl_set hget with hmem | hempty
  · obtain ⟨item, -, hkept⟩ := List.mem_filterMap.mp hmem
    exact valid_of_credential hkept
  · cases hempty

theorem strip_empty : strip "" = "" := by decide

end DbtCraft.Agent
