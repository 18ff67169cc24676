/-
# Profiles of stored connections

`_regenerate_profiles_from_db` of `app/services/dbt_service.py`: each target of a
project is rendered from its connection, and the outputs are merged into one
`profiles.yml`. The database, the secrets, the adapters and the disk answer through
`Runner`.
-/

import DbtCraft.Services.ConnectionConfig
import DbtCraft.Services.State

namespace DbtCraft.Services.Profiles

open DbtCraft.Python DbtCraft.Services.ConnectionConfig DbtCraft.Services.State

/-- An environment of dbt. -/
abbrev Env := Dict String String

/-! ## Names of secrets -/

/-- `DBT_PROFILE_SECRET_ENV`. -/
def dbtProfileSecretEnv : String := "DBT_ENV_SECRET_DBT_CRAFT_CREDENTIAL"

/-- `DBT_PROFILE_SECONDARY_SECRET_ENV`. -/
def dbtProfileSecondarySecretEnv : String := "DBT_ENV_SECRET_DBT_CRAFT_SECONDARY"

/-- `CATALOG_PASSWORD_ENV`. -/
def catalogPasswordEnv : String := "DBT_ENV_SECRET_LAKE_CATALOG_PASSWORD"

/-- `DEFAULT_TARGET_NAME`. -/
def defaultTargetName : String := "dev"

/-- The part of a variable that names the target. -/
def targetSuffix (target : String) : String :=
  upper (String.ofList (target.toList.map fun c => if c.isAlphanum then c else '_'))

/-- `target_secret_env`. -/
def targetSecretEnv (target base : String) : String :=
  if target = defaultTargetName then base else base ++ "__" ++ targetSuffix target

/-- `{{ env_var('…') }}`. -/
def envVar (name : String) : String := "\x7b\x7b env_var('" ++ name ++ "') \x7d\x7d"

/-! ## Lakehouses -/

/-- What `urlparse` says of a URL; its port may be a `ValueError`. -/
structure ParsedUrl where
  scheme : String
  path : String
  hostname : Option String := none
  port : Option (Option ℕ) := some none
  username : Option String := none
  password : Option String := none

/-- `LakeRef`, as far as a profile needs it. -/
structure LakeRef where
  catalogUrl : String
  dataPath : String
  metadataSchema : String

/-- How `resolve_project_lake` ends. -/
inductive LakeLookup
  | none
  | found (lake : LakeRef)
  | lakehouseError (message : String)
  | /-- Any other exception. -/
    raises

/-- `attach_string` with a password that takes the place of the one in the URL. -/
def attachString (parsed : ParsedUrl) (url password : String) : Except Raised String :=
  let scheme := String.ofList (parsed.scheme.toList.takeWhile (· ≠ '+'))
  if scheme ∈ ["sqlite", "file", ""] then
    let path := if parsed.path ≠ "" then parsed.path else url
    .ok ("ducklake:sqlite:/" ++ String.ofList (path.toList.dropWhile (· = '/')))
  else if scheme ∉ ["postgres", "postgresql"] then
    .error (.lakehouse ("Unsupported lakehouse catalog scheme '" ++ parsed.scheme ++
      "'. Use postgresql:// or sqlite:///"))
  else
    let database := String.ofList (parsed.path.toList.dropWhile (· = '/'))
    match given parsed.hostname, parsed.port with
    | none, _ => .error (.lakehouse "lakehouse catalog URL is missing a host or database name")
    | some hostname, port =>
      if database = "" then
        .error (.lakehouse "lakehouse catalog URL is missing a host or database name")
      else
        match port with
        | none => .error (.valueError "Port could not be cast to integer value")
        | some port =>
          let shown := if port.getD 0 = 0 then 5432 else port.getD 0
          .ok ("ducklake:postgres:dbname=" ++ database ++ " host=" ++ hostname ++ " port=" ++
            toString shown ++ " user=" ++ parsed.username.getD "" ++ " password=" ++ password)

/-! ## The runner -/

structure ProjectRow where
  connectionId : Option String
  dremioSourceId : Option String

/-- The rows of `project_targets` of a project, in the order of their names, which its
unique index keeps apart. -/
structure ProjectTargets where
  rows : List (String × String)
  nodup : (rows.map Prod.fst).Nodup

/-- What is read of `dbt_project.yml`. -/
inductive DbtProjectFile
  | absent
  | /-- It cannot be opened, decoded or parsed. -/
    unreadable
  | document (value : Value)

/-- `profiles.yml` after a regeneration. -/
inductive ProfilesYml
  | /-- The file on disk, or what repairing its in-memory DuckDB target makes of it. -/
    previous
  | rendered (profile : Value) (outputs : Dict String Value) (target : Option String)
  | /-- The write has failed. -/
    broken

/-- What a regeneration of one project meets; where an answer is optional, `none` is an
exception of the database. -/
structure Runner where
  projectId : String
  project : Option (Option ProjectRow)
  targets : Option ProjectTargets
  connection : String → Option (Option ConnectionRow)
  dremioSource : String → Option (Option DremioSourceRow)
  lake : LakeLookup
  decrypt : Decrypt
  urlparse : String → Option ParsedUrl
  /-- `duckdb_resources.profile_settings`. -/
  profileSettings : Config
  /-- The YAML of the adapter of a type, read back; the error is its text. -/
  adapter : String → Config → Value → String → Except String Value
  dbtProject : DbtProjectFile
  /-- The warm workers of the project can be released. -/
  releases : Bool
  writes : Bool
  /-- The branch for a project with no connection at all. -/
  unconnected : Except Raised Env × ProfilesYml

/-- One output to render. -/
structure Spec where
  name : String
  connectionId : Option String
  dremioSourceId : Option String

/-- What `_render_target` returns, with the name of the target. -/
structure Rendered where
  name : String
  output : Value
  env : Env
  connType : String
  releaseDuckdbFile : Bool

def profileSetup (message : String) : Raised := .dbtOperation "profile setup" message

variable (runner : Runner)

/-- The environment entry of a secret that is not empty. -/
def secretEntry (name secret : String) : Env := if secret = "" then [] else [(name, secret)]

/-- A value of the config is this text. -/
def holds (config : Config) (content : String) : Bool :=
  config.any fun item => match item.2 with | .str own => own = content | _ => false

/-- A secret that is decrypted only where the config has a place for it. -/
def whenPlaced (placed : Bool) (secret : Except Raised String) : Except Raised String :=
  if placed then secret else .ok ""

/-- The part of `_build_target_config` for a connection that exists. -/
def buildConnection (row : ConnectionRow) (secretEnv secondaryEnv : String) :
    Except Raised (Config × Env) := do
  let (config, needsSecret) ←
    buildAdapterConfig row (.str (envVar secretEnv)) (.str (envVar secondaryEnv))
  let secondary ← whenPlaced (holds config (envVar secondaryEnv))
    (connectionSecondarySecret row runner.decrypt)
  let secret ← whenPlaced needsSecret
    (decryptSecretOrPlaintext runner.decrypt row.passwordEncrypted)
  return (config, secretEntry secondaryEnv secondary ++ secretEntry secretEnv secret)

/-- `_build_target_config`. -/
def buildTargetConfig (spec : Spec) (secretEnv secondaryEnv : String) :
    Except Raised (String × Config × Env) :=
  match spec.connectionId, spec.dremioSourceId with
  | some connectionId, _ =>
    match runner.connection connectionId with
    | none => .error .database
    | some none =>
      .error (profileSetup ("connection " ++ connectionId ++ " attached to this project no " ++
        "longer exists - attach an existing connection in the UI"))
    | some (some row) => do
      let (config, env) ← buildConnection runner row secretEnv secondaryEnv
      return (row.connectionType, config, env)
  | none, some sourceId =>
    match runner.dremioSource sourceId with
    | none => .error .database
    | some none =>
      .error (profileSetup ("Dremio source " ++ sourceId ++ " attached to this project no " ++
        "longer exists - attach an existing connection in the UI"))
    | some (some source) => do
      let secret ← decryptSecretOrPlaintext runner.decrypt source.tokenEncrypted
      return ("dremio", buildDremioSourceConfig (.str (envVar secretEnv)) source,
        secretEntry secretEnv secret)
  | none, none => .error .database

/-- `dbt_attach_entry` and `catalog_password`, whose `LakehouseError` is translated. -/
def attachLake (lake : LakeRef) : Except Raised (Value × String) :=
  match runner.urlparse lake.catalogUrl with
  | none => .error (.valueError "Invalid URL")
  | some parsed =>
    match attachString parsed lake.catalogUrl (envVar catalogPasswordEnv) with
    | .error (.lakehouse message) => .error (profileSetup message)
    | .error raised => .error raised
    | .ok path =>
      .ok (.dict [(.str "path", .str path), (.str "alias", .str "lake"),
        (.str "is_ducklake", .bool true),
        (.str "options", .dict [
          (.str "data_path", .str (String.ofList
            (lake.dataPath.toList.reverse.dropWhile (· = '/')).reverse ++ "/")),
          (.str "metadata_schema", .str lake.metadataSchema)])], parsed.password.getD "")

/-- `list(value or [])` of a list. -/
def listOf (value : Value) : List Value :=
  match value with
  | .list items => items
  | _ => []

/-- `_apply_lakehouse_attach`. -/
def applyLakehouseAttach (lake : Option LakeRef) (connType : String) (config : Config) :
    Except Raised (Config × Env) :=
  match lake with
  | none => .ok (config, [])
  | some lake =>
    if connType ≠ "duckdb" then .ok (config, [])
    else do
      let (entry, password) ← attachLake runner lake
      let extensions := listOf (config.value "extensions")
      let missing := ["ducklake", "postgres"].filter fun name =>
        !extensions.any fun own => own.sameKey (.str name)
      return ((config.set "extensions" (.list (extensions ++ missing.map .str))).set "attach"
        (.list (listOf (config.value "attach") ++ [entry])), secretEntry catalogPasswordEnv password)

/-- `_apply_duckdb_resources`. -/
def applyDuckdbResources (connType : String) (config : Config) : Config :=
  if connType ≠ "duckdb" ∨ (config.value "settings").truthy ∨ runner.profileSettings = [] then
    config
  else config.set "settings" (.dict (runner.profileSettings.map fun item => (.str item.1, item.2)))

/-- `(value or {})` where a method of `dict` is called on it. -/
def dictOf (value : Option Value) : Except Raised (List (Value × Value)) :=
  match value with
  | none => .ok []
  | some value =>
    if value.truthy = false then .ok []
    else
      match value with
      | .dict items => .ok items
      | _ => .error .attributeError

/-- The output of a target in what its adapter has rendered. -/
def outputOf (rendered profile : Value) (target connType : String) : Except Raised Value := do
  let profiles ← dictOf (some rendered)
  let body ← dictOf (Value.item profiles profile)
  let outputs ← dictOf (Value.item body (.str "outputs"))
  match (Value.item outputs (.str target)).filter Value.truthy, outputs with
  | some output, _ => return output
  | none, [] | none, (_, .none) :: _ =>
    throw (profileSetup ("the " ++ connType ++ " adapter produced no output for target '" ++
      target ++ "'"))
  | none, (_, first) :: _ => return first

/-- `_render_target`. -/
def renderTarget (profile : Value) (lake : Option LakeRef) (spec : Spec) :
    Except Raised Rendered := do
  let (connType, config, env) ← buildTargetConfig runner spec
    (targetSecretEnv spec.name dbtProfileSecretEnv)
    (targetSecretEnv spec.name dbtProfileSecondarySecretEnv)
  let (attached, lakeEnv) ← applyLakehouseAttach runner lake connType config
  let bounded := applyDuckdbResources runner connType attached
  match runner.adapter connType bounded profile spec.name with
  | .error text =>
    throw (profileSetup ("could not render target '" ++ spec.name ++ "' for the " ++ connType ++
      " connection: " ++ text))
  | .ok rendered =>
    let output ← outputOf rendered profile spec.name connType
    let path := (bounded.value "path").orElse (.str "")
    return ⟨spec.name, output, env ++ lakeEnv, connType,
      connType = "duckdb" && !path.sameKey (.str "") && !path.sameKey (.str ":memory:")⟩

/-- The loop over the targets: one that cannot be rendered is skipped, except `dev`. -/
def renderTargets (profile : Value) (lake : Option LakeRef) :
    List Spec → Except Raised (List Rendered)
  | [] => .ok []
  | spec :: rest =>
    match renderTarget runner profile lake spec with
    | .ok rendered => do
      let others ← renderTargets profile lake rest
      return rendered :: others
    | .error raised =>
      if spec.name = defaultTargetName then .error raised else renderTargets profile lake rest

/-- `_load_project_targets`. -/
def loadProjectTargets : Except Raised (List (String × String)) :=
  match runner.targets with
  | none => .error .database
  | some targets => .ok (targets.rows.filter fun row => targetNameMatch row.1)

/-- `specs`. -/
def specsOf (row : ProjectRow) (extraTargets : List (String × String)) : List Spec :=
  (if row.connectionId ≠ none ∨ row.dremioSourceId ≠ none then
    [⟨defaultTargetName, row.connectionId, row.dremioSourceId⟩] else []) ++
  (extraTargets.filter fun target => target.1 ≠ defaultTargetName).map fun target =>
    ⟨target.1, some target.2, none⟩

/-- `dbt_env` after the loop. -/
def envOf (rendered : List Rendered) : Env :=
  rendered.foldl (fun env target =>
    target.env.foldl (fun env item => env.set item.1 item.2) env) []

/-- `outputs` after the loop. -/
def outputsOf (rendered : List Rendered) : Dict String Value :=
  rendered.foldl (fun outputs target => outputs.set target.name target.output) []

/-- The name of the profile in `dbt_project.yml`; `none` when nothing gives one. -/
def profileName : Except Raised (Option Value) :=
  match runner.dbtProject with
  | .absent => .ok none
  | .unreadable => .error .osError
  | .document (.dict items) =>
    let name := ((Value.item items (.str "profile")).getD .none).orElse
      ((Value.item items (.str "name")).getD .none)
    .ok (if name.truthy then some name else none)
  | .document _ => .error .attributeError

/-- `_resolve_lakehouse`. -/
def resolveLakehouse : Except Raised (Option LakeRef) :=
  match runner.lake with
  | .none => .ok none
  | .found lake => .ok (some lake)
  | .lakehouseError message => .error (profileSetup message)
  | .raises => .error .database

/-- A lake that no target can attach. -/
def lakeRefusal (rendered : List Rendered) : Raised :=
  profileSetup ("this project has a lakehouse attached, but none of its targets runs on " ++
    "DuckDB (" ++ String.intercalate ", " ((rendered.map (·.connType)).dedup.mergeSort
      (fun own other => own ≤ other)) ++ "). Only DuckDB can read a DuckLake catalog - detach " ++
    "the lakehouse in Project Settings, or give the project a DuckDB connection.")

/-- The end of `_regenerate_profiles_from_db`, once the targets are rendered. -/
def writeProfile (profile : Value) (lake : Option LakeRef) (rendered : List Rendered) :
    Except Raised Env × ProfilesYml :=
  if rendered = [] then (.ok [], .previous)
  else if lake.isSome ∧ ∀ target ∈ rendered, target.connType ≠ "duckdb" then
    (.error (lakeRefusal rendered), .previous)
  else if (rendered.any (·.releaseDuckdbFile)) = true ∧ runner.releases = false then
    (.error .osError, .previous)
  else if runner.writes then
    (.ok (envOf rendered),
      .rendered profile (outputsOf rendered) (rendered.head?.map (·.name)))
  else
    (.error (profileSetup "could not write profiles.yml for this project"), .broken)

/-- The body of `_regenerate_profiles_from_db`. -/
def regenerateBody : Except Raised Env × ProfilesYml :=
  match runner.project with
  | none => (.error .database, .previous)
  | some none => (.ok [], .previous)
  | some (some row) =>
    match loadProjectTargets runner with
    | .error raised => (.error raised, .previous)
    | .ok extraTargets =>
      if row.connectionId = none ∧ row.dremioSourceId = none ∧ extraTargets = [] then
        runner.unconnected
      else
        match profileName runner with
        | .error raised => (.error raised, .previous)
        | .ok none => (.ok [], .previous)
        | .ok (some profile) =>
          match resolveLakehouse runner with
          | .error raised => (.error raised, .previous)
          | .ok lake =>
            match renderTargets runner profile lake (specsOf row extraTargets) with
            | .error raised => (.error raised, .previous)
            | .ok rendered => writeProfile runner profile lake rendered

/-- `_regenerate_profiles_from_db`: every exception but `DbtOperationError` is caught. -/
def regenerateProfilesFromDb : Except Raised Env × ProfilesYml :=
  match regenerateBody runner with
  | (.error (.dbtOperation operation message), disk) =>
    (.error (.dbtOperation operation message), disk)
  | (.error _, disk) => (.ok [], disk)
  | (.ok env, disk) => (.ok env, disk)

/-! ## The rendered targets -/

section

variable {runner : Runner} {profile : Value} {lake : Option LakeRef}

/-- A rendered target keeps the name of its spec. -/
theorem name_renderTarget {spec : Spec} {target : Rendered}
    (hrendered : renderTarget runner profile lake spec = .ok target) : target.name = spec.name := by
  simp only [renderTarget, bind_eq_ok] at hrendered
  obtain ⟨⟨connType, config, env⟩, -, ⟨attached, lakeEnv⟩, -, hlast⟩ := hrendered
  dsimp only at hlast
  split at hlast
  · cases hlast
  · obtain ⟨output, -, hresult⟩ := bind_eq_ok.mp hlast
    cases hresult
    rfl

/-- Every rendered target comes from a spec. -/
theorem exists_spec_of_mem_renderTargets {specs : List Spec} {rendered : List Rendered}
    {target : Rendered} (hrendered : renderTargets runner profile lake specs = .ok rendered)
    (htarget : target ∈ rendered) :
    ∃ spec ∈ specs, renderTarget runner profile lake spec = .ok target := by
  induction specs generalizing rendered with
  | nil =>
    cases hrendered
    cases htarget
  | cons spec rest ih =>
    unfold renderTargets at hrendered
    split at hrendered
    next own hown =>
      obtain ⟨others, hothers, hresult⟩ := bind_eq_ok.mp hrendered
      cases hresult
      rcases List.mem_cons.mp htarget with hfirst | hrest
      · subst hfirst
        exact ⟨spec, List.mem_cons_self, hown⟩
      · obtain ⟨found, hfound, hrender⟩ := ih hothers hrest
        exact ⟨found, List.mem_cons_of_mem _ hfound, hrender⟩
    · split at hrendered
      · cases hrendered
      · obtain ⟨found, hfound, hrender⟩ := ih hrendered htarget
        exact ⟨found, List.mem_cons_of_mem _ hfound, hrender⟩

/-- Every spec that can be rendered is. -/
theorem mem_renderTargets {specs : List Spec} {rendered : List Rendered} {spec : Spec}
    {target : Rendered} (hrendered : renderTargets runner profile lake specs = .ok rendered)
    (hspec : spec ∈ specs) (htarget : renderTarget runner profile lake spec = .ok target) :
    target ∈ rendered := by
  induction specs generalizing rendered with
  | nil => cases hspec
  | cons first rest ih =>
    unfold renderTargets at hrendered
    split at hrendered
    next own hown =>
      obtain ⟨others, hothers, hresult⟩ := bind_eq_ok.mp hrendered
      cases hresult
      rcases List.mem_cons.mp hspec with hfirst | hrest
      · subst hfirst
        cases hown.symm.trans htarget
        exact List.mem_cons_self
      · exact List.mem_cons_of_mem _ (ih hothers hrest)
    next raised hfailed =>
      split at hrendered
      · cases hrendered
      · rcases List.mem_cons.mp hspec with hfirst | hrest
        · subst hfirst
          cases hfailed.symm.trans htarget
        · exact ih hrendered hrest

end

end DbtCraft.Services.Profiles
