/-
# Secrets of the targets

The outputs of a profile share one environment, so a target reads its own secrets as
long as their variables are its own. The loader takes names that end in a line feed,
and the suffix of such a name is that of the name with an underscore in its place.
-/

import DbtCraft.Services.ProfileRefusal
import Mathlib.Data.List.Nodup

namespace DbtCraft.Services.Profiles

open DbtCraft.Python DbtCraft.Services.ConnectionConfig DbtCraft.Services.State

/-- The secrets that a profile reads from its environment. -/
inductive SecretField
  | primary
  | secondary
  | /-- The password of the lake. -/
    catalog

/-- The variable that carries a secret of a target. -/
def secretName (target : String) : SecretField → String
  | .primary => targetSecretEnv target dbtProfileSecretEnv
  | .secondary => targetSecretEnv target dbtProfileSecondarySecretEnv
  | .catalog => catalogPasswordEnv

/-- The first name ends in a line feed where the second has an underscore. -/
def Twins (own other : String) : Prop := ∃ stem, own = stem ++ "\n" ∧ other = stem ++ "_"

variable {runner : Runner} {spec other : Spec} {field : SecretField} {env : Env}

/-- The targets of a project. -/
def targetsOf (runner : Runner) : List Spec :=
  match runner.project, loadProjectTargets runner with
  | some (some row), .ok extraTargets => specsOf row extraTargets
  | _, _ => []

/-- The target can be rendered. -/
def Renders (runner : Runner) (spec : Spec) : Prop :=
  ∃ profile lake target, profileName runner = .ok (some profile) ∧
    resolveLakehouse runner = .ok lake ∧ renderTarget runner profile lake spec = .ok target

/-- The config of the connection of a target. -/
def configOf (row : ConnectionRow) (target : String) : Except Raised (Config × Bool) :=
  buildAdapterConfig row (.str (envVar (secretName target .primary)))
    (.str (envVar (secretName target .secondary)))

/-- The output of the target has a placeholder for the secret. -/
def Placed (runner : Runner) (spec : Spec) : SecretField → Prop
  | .primary =>
    match spec.connectionId with
    | some connectionId => ∃ row config, runner.connection connectionId = some (some row) ∧
        configOf row spec.name = .ok (config, true)
    | none => True
  | .secondary =>
    match spec.connectionId with
    | some connectionId => ∃ row config needsSecret,
        runner.connection connectionId = some (some row) ∧
        configOf row spec.name = .ok (config, needsSecret) ∧
        holds config (envVar (secretName spec.name .secondary)) = true
    | none => False
  | .catalog => ∃ lake connectionId row, resolveLakehouse runner = .ok (some lake) ∧
      spec.connectionId = some connectionId ∧
      runner.connection connectionId = some (some row) ∧ row.connectionType = "duckdb"

/-- The secret of the connection bound to a target, or of its lake, unless it is empty. -/
def secretOf (runner : Runner) (spec : Spec) : SecretField → Option String
  | .primary =>
    match spec.connectionId, spec.dremioSourceId with
    | some connectionId, _ => do
      let row ← (runner.connection connectionId).join
      given (decryptSecretOrPlaintext runner.decrypt row.passwordEncrypted).toOption
    | none, some sourceId => do
      let source ← (runner.dremioSource sourceId).join
      given (decryptSecretOrPlaintext runner.decrypt source.tokenEncrypted).toOption
    | none, none => none
  | .secondary => do
    let connectionId ← spec.connectionId
    let row ← (runner.connection connectionId).join
    given (connectionSecondarySecret row runner.decrypt).toOption
  | .catalog => do
    let lake ← (resolveLakehouse runner).toOption.join
    let parsed ← runner.urlparse lake.catalogUrl
    given parsed.password

/-- Every placeholder in an output of the profile stands for the secret of its own target. -/
def Isolated (runner : Runner) (outputs : Dict String Value) (env : Env) : Prop :=
  ∀ spec ∈ targetsOf runner, outputs.get spec.name ≠ none → ∀ field, Placed runner spec field →
    env.get (secretName spec.name field) = secretOf runner spec field

/-- Two targets that are rendered under one suffix place the same secret. -/
def TwinsAgree (runner : Runner) : Prop :=
  ∀ own ∈ targetsOf runner, ∀ other ∈ targetsOf runner, Twins own.name other.name →
    Renders runner own → Renders runner other → ∀ field, Placed runner own field →
    Placed runner other field → secretOf runner own field = secretOf runner other field

/-! ## Names of targets -/

/-- A character in the suffix of a variable. -/
def suffixChar (c : Char) : Char := (if c.isAlphanum then c else '_').toUpper

theorem toList_targetSuffix (name : String) :
    (targetSuffix name).toList = name.toList.map suffixChar := by
  simp [targetSuffix, upper, suffixChar]

theorem toNat_lt_of_isTargetChar {c : Char} (hc : isTargetChar c = true) : c.toNat < 128 := by
  simp only [isTargetChar, isLower_eq, Char.isDigit, Bool.or_eq_true, decide_eq_true_eq,
    Bool.and_eq_true] at hc
  rcases hc with (⟨-, hlower⟩ | ⟨-, hdigit⟩) | rfl
  · exact lt_of_le_of_lt (UInt32.le_iff_toNat_le.mp hlower) (by decide)
  · exact lt_of_le_of_lt (UInt32.le_iff_toNat_le.mp hdigit) (by decide)
  · decide

/-- The suffix keeps the characters of a target name apart. -/
theorem toLower_suffixChar {c : Char} (hc : isTargetChar c = true) :
    (suffixChar c).toLower = c := by
  have hascii : ∀ code < 128, isTargetChar (Char.ofNat code) = true →
      (suffixChar (Char.ofNat code)).toLower = Char.ofNat code := by decide +kernel
  have h := hascii c.toNat (toNat_lt_of_isTargetChar hc)
  rw [Char.ofNat_toNat] at h
  exact h hc

/-- What a suffix says of its name. -/
def unsuffixed (name : String) : List Char := (name.toList.map suffixChar).map Char.toLower

theorem unsuffixed_of_all {name : String} (hname : ∀ c ∈ name.toList, isTargetChar c = true) :
    unsuffixed name = name.toList := by
  unfold unsuffixed
  rw [List.map_map]
  have hsame := List.map_congr_left (g := id) fun c hc => toLower_suffixChar (hname c hc)
  exact hsame.trans (List.map_id _)

theorem all_of_matchesTargetName {name : List Char} (hname : matchesTargetName name = true) :
    ∀ c ∈ name, isTargetChar c = true := by
  cases name with
  | nil => exact fun c hc => nomatch hc
  | cons first rest =>
    simp only [matchesTargetName, Bool.and_eq_true, List.all_eq_true] at hname
    intro c hc
    rcases List.mem_cons.mp hc with hfirst | hrest
    · subst hfirst
      simp [isTargetChar, hname.1.1]
    · exact hname.2 c hrest

/-- A name that the loader takes is plain, or plain but for a last line feed. -/
theorem plain_or_line_feed {name : String} (hname : targetNameMatch name = true) :
    (∀ c ∈ name.toList, isTargetChar c = true) ∨
    ∃ stem, name = stem ++ "\n" ∧ ∀ c ∈ stem.toList, isTargetChar c = true := by
  simp only [targetNameMatch, Bool.or_eq_true, Bool.and_eq_true, decide_eq_true_eq] at hname
  rcases hname with hplain | ⟨hlast, hstem⟩
  · exact .inl (all_of_matchesTargetName hplain)
  · right
    refine ⟨String.ofList name.toList.dropLast, ?_, ?_⟩
    · apply String.toList_inj.mp
      rw [String.toList_append, String.toList_ofList]
      exact (List.dropLast_append_getLast? _ hlast).symm
    · rw [String.toList_ofList]
      exact all_of_matchesTargetName hstem

theorem unsuffixed_line_feed {stem : String} (hstem : ∀ c ∈ stem.toList, isTargetChar c = true) :
    unsuffixed (stem ++ "\n") = (stem ++ "_").toList := by
  have hplain := unsuffixed_of_all hstem
  unfold unsuffixed at hplain ⊢
  rw [String.toList_append, String.toList_append, List.map_append, List.map_append, hplain]
  rfl

/-- Two names that the loader takes have one suffix only when one ends in a line feed
where the other has an underscore. -/
theorem eq_or_twins {own other : String} (hown : targetNameMatch own = true)
    (hother : targetNameMatch other = true) (hsame : targetSuffix own = targetSuffix other) :
    own = other ∨ Twins own other ∨ Twins other own := by
  have hlists : unsuffixed own = unsuffixed other := by
    unfold unsuffixed
    rw [← toList_targetSuffix, hsame, toList_targetSuffix]
  rcases plain_or_line_feed hown with hplain | ⟨stem, rfl, hstem⟩ <;>
    rcases plain_or_line_feed hother with hplain' | ⟨stem', rfl, hstem'⟩
  · rw [unsuffixed_of_all hplain, unsuffixed_of_all hplain'] at hlists
    exact .inl (String.toList_inj.mp hlists)
  · rw [unsuffixed_of_all hplain, unsuffixed_line_feed hstem'] at hlists
    exact .inr (.inr ⟨stem', rfl, String.toList_inj.mp hlists⟩)
  · rw [unsuffixed_line_feed hstem, unsuffixed_of_all hplain'] at hlists
    exact .inr (.inl ⟨stem, rfl, (String.toList_inj.mp hlists).symm⟩)
  · rw [unsuffixed_line_feed hstem, unsuffixed_line_feed hstem', String.toList_append,
      String.toList_append] at hlists
    left
    rw [String.toList_inj.mp (List.append_cancel_right hlists)]

theorem Twins.targetSuffix_eq {own other : String} (htwins : Twins own other) :
    targetSuffix own = targetSuffix other := by
  obtain ⟨stem, rfl, rfl⟩ := htwins
  apply String.toList_inj.mp
  rw [toList_targetSuffix, toList_targetSuffix, String.toList_append, String.toList_append,
    List.map_append, List.map_append]
  rfl

/-! ## Names of variables -/

/-- The characters in which the variables of the secrets differ. -/
def SecretField.stem : SecretField → List Char
  | .primary => dbtProfileSecretEnv.toList.take 26
  | .secondary => dbtProfileSecondarySecretEnv.toList.take 26
  | .catalog => catalogPasswordEnv.toList.take 26

theorem take_targetSecretEnv {target base : String} (hbase : 26 ≤ base.toList.length) :
    (targetSecretEnv target base).toList.take 26 = base.toList.take 26 := by
  unfold targetSecretEnv
  split
  · rfl
  · rw [String.append_assoc, String.toList_append, List.take_append_of_le_length hbase]

theorem take_secretName (target : String) (field : SecretField) :
    (secretName target field).toList.take 26 = field.stem := by
  cases field with
  | primary => exact take_targetSecretEnv (by decide)
  | secondary => exact take_targetSecretEnv (by decide)
  | catalog => rfl

/-- No two secrets of a target share a variable, nor do those of two targets. -/
theorem field_eq_of_secretName_eq {own other : String} {field field' : SecretField}
    (hsame : secretName own field = secretName other field') : field = field' := by
  have hstem : field.stem = field'.stem := by
    rw [← take_secretName own field, hsame, take_secretName]
  cases field <;> cases field' <;> first | rfl | exact absurd hstem (by decide)

/-- Two targets have one variable for a secret only when they have one suffix. -/
theorem targetSecretEnv_eq {own other base : String}
    (hsame : targetSecretEnv own base = targetSecretEnv other base) :
    own = other ∨ own ≠ defaultTargetName ∧ other ≠ defaultTargetName ∧
      targetSuffix own = targetSuffix other := by
  have hsuffix : ∀ target, base ≠ base ++ "__" ++ targetSuffix target := by
    intro target hbase
    have hlength := congrArg (·.toList.length) hbase
    simp at hlength
  unfold targetSecretEnv at hsame
  split_ifs at hsame with hown hother hother
  · exact .inl (hown.trans hother.symm)
  · exact absurd hsame (hsuffix other)
  · exact absurd hsame.symm (hsuffix own)
  · right
    refine ⟨hown, hother, ?_⟩
    apply String.toList_inj.mp
    have hlists := congrArg String.toList hsame
    rw [String.toList_append, String.toList_append (s := base ++ "__")] at hlists
    exact List.append_cancel_left hlists

/-! ## The environment of a target -/

theorem given_eq_some {secret value : String} :
    given (some secret) = some value ↔ secret ≠ "" ∧ secret = value := by
  unfold given
  rw [Option.filter_some]
  split
  next hsecret => simp [of_decide_eq_true hsecret]
  next hsecret => simp [not_not.mp fun h => hsecret (decide_eq_true h)]

theorem given_getD (secret : Option String) : given (some (secret.getD "")) = given secret := by
  cases secret with
  | none => rfl
  | some secret => rfl

theorem mem_secretEntry {name secret key value : String} :
    (key, value) ∈ secretEntry name secret ↔ key = name ∧ given (some secret) = some value := by
  unfold secretEntry
  rw [given_eq_some]
  split
  next hempty => simp [hempty]
  next hsecret => simp [hsecret, eq_comm]

theorem given_whenPlaced {placed : Bool} {outcome : Except Raised String} {secret value : String}
    (hsecret : whenPlaced placed outcome = .ok secret) :
    given (some secret) = some value ↔ placed = true ∧ given outcome.toOption = some value := by
  unfold whenPlaced at hsecret
  split at hsecret
  next hplaced =>
    rw [hsecret]
    simp [hplaced, Except.toOption]
  next hplaced =>
    cases hsecret
    simp [hplaced, given]

/-- The entries of a connection carry the secrets that its config has a place for. -/
theorem mem_env_buildConnection {row : ConnectionRow} {target key value : String}
    {config : Config}
    (hbuilt : buildConnection runner row (secretName target .primary)
      (secretName target .secondary) = .ok (config, env)) :
    (key, value) ∈ env ↔
      (key = secretName target .secondary ∧
        (∃ config needsSecret, configOf row target = .ok (config, needsSecret) ∧
          holds config (envVar (secretName target .secondary)) = true) ∧
        given (connectionSecondarySecret row runner.decrypt).toOption = some value) ∨
      (key = secretName target .primary ∧ (∃ config, configOf row target = .ok (config, true)) ∧
        given (decryptSecretOrPlaintext runner.decrypt row.passwordEncrypted).toOption =
          some value) := by
  simp only [buildConnection, bind_eq_ok] at hbuilt
  obtain ⟨⟨built, needsSecret⟩, hconfig, secondary, hsecondary, secret, hsecret, hresult⟩ := hbuilt
  cases hresult
  have hown : configOf row target = .ok (built, needsSecret) := hconfig
  have hplaced : holds built (envVar (secretName target .secondary)) = true ↔
      ∃ config needsSecret, configOf row target = .ok (config, needsSecret) ∧
        holds config (envVar (secretName target .secondary)) = true := by
    simp [hown]
  have hneeds : needsSecret = true ↔ ∃ config, configOf row target = .ok (config, true) := by
    simp [hown]
  rw [List.mem_append, mem_secretEntry, mem_secretEntry, given_whenPlaced hsecondary,
    given_whenPlaced hsecret, hplaced, hneeds]

theorem exists_field_iff {claim : SecretField → Prop} :
    (∃ field, field ≠ .catalog ∧ claim field) ↔ claim .secondary ∨ claim .primary := by
  constructor
  · intro ⟨field, hfield, hclaim⟩
    cases field with
    | primary => exact .inr hclaim
    | secondary => exact .inl hclaim
    | catalog => exact absurd rfl hfield
  · intro h
    rcases h with hclaim | hclaim
    · exact ⟨_, SecretField.noConfusion, hclaim⟩
    · exact ⟨_, SecretField.noConfusion, hclaim⟩

/-- The entries that the connection of a target adds carry its own secrets. -/
theorem mem_env_buildTargetConfig {connType key value : String} {config : Config}
    (hbuilt : buildTargetConfig runner spec (secretName spec.name .primary)
      (secretName spec.name .secondary) = .ok (connType, config, env)) :
    (key, value) ∈ env ↔ ∃ field, field ≠ .catalog ∧ key = secretName spec.name field ∧
      Placed runner spec field ∧ secretOf runner spec field = some value := by
  unfold buildTargetConfig at hbuilt
  split at hbuilt
  next connectionId hid =>
    split at hbuilt
    · cases hbuilt
    · cases hbuilt
    next row hrow =>
      obtain ⟨⟨built, builtEnv⟩, hconnection, hresult⟩ := bind_eq_ok.mp hbuilt
      cases hresult
      rw [mem_env_buildConnection hconnection, exists_field_iff]
      simp [Placed, secretOf, hid, hrow]
  next sourceId hid hsource =>
    split at hbuilt
    · cases hbuilt
    · cases hbuilt
    next source hrow =>
      obtain ⟨secret, hsecret, hresult⟩ := bind_eq_ok.mp hbuilt
      cases hresult
      rw [mem_secretEntry, exists_field_iff]
      simp [Placed, secretOf, hid, hsource, hrow, hsecret, Except.toOption]
  · cases hbuilt

/-- A lake is attached exactly to the outputs on DuckDB. -/
theorem placed_catalog_iff {lake : Option LakeRef} {secretEnv secondaryEnv connType : String}
    {config : Config} (hlake : resolveLakehouse runner = .ok lake)
    (hbuilt : buildTargetConfig runner spec secretEnv secondaryEnv = .ok (connType, config, env)) :
    Placed runner spec .catalog ↔ lake ≠ none ∧ connType = "duckdb" := by
  unfold buildTargetConfig at hbuilt
  split at hbuilt
  next connectionId hid =>
    split at hbuilt
    · cases hbuilt
    · cases hbuilt
    next row hrow =>
      obtain ⟨_, -, hresult⟩ := bind_eq_ok.mp hbuilt
      cases hresult
      simp [Placed, hid, hrow, hlake, Option.ne_none_iff_exists']
  next sourceId hid hsource =>
    split at hbuilt
    · cases hbuilt
    · cases hbuilt
    · obtain ⟨_, -, hresult⟩ := bind_eq_ok.mp hbuilt
      cases hresult
      simp [Placed, hid]
  · cases hbuilt

/-- An attached lake adds its own password. -/
theorem mem_env_applyLakehouseAttach (spec : Spec) {lake : Option LakeRef}
    {connType key value : String} {config attached : Config} (hlake : resolveLakehouse runner = .ok lake)
    (hattach : applyLakehouseAttach runner lake connType config = .ok (attached, env)) :
    (key, value) ∈ env ↔ (lake ≠ none ∧ connType = "duckdb") ∧
      key = secretName spec.name .catalog ∧ secretOf runner spec .catalog = some value := by
  unfold applyLakehouseAttach at hattach
  split at hattach
  · cases hattach
    simp
  next lake =>
    split at hattach
    next hconn =>
      cases hattach
      simp [hconn]
    next hconn =>
      obtain ⟨⟨entry, password⟩, hentry, hresult⟩ := bind_eq_ok.mp hattach
      cases hresult
      unfold attachLake at hentry
      split at hentry
      · cases hentry
      next parsed hparsed =>
        split at hentry
        · cases hentry
        · cases hentry
        · cases hentry
          rw [mem_secretEntry, given_getD]
          simp [secretOf, secretName, hlake, hparsed, not_not.mp hconn, Except.toOption]

/-- The environment of a target carries the secrets that its output has a place for. -/
theorem mem_env_renderTarget {profile : Value} {lake : Option LakeRef} {target : Rendered}
    {key value : String} (hlake : resolveLakehouse runner = .ok lake)
    (hrendered : renderTarget runner profile lake spec = .ok target) :
    (key, value) ∈ target.env ↔ ∃ field, key = secretName spec.name field ∧
      Placed runner spec field ∧ secretOf runner spec field = some value := by
  simp only [renderTarget, bind_eq_ok] at hrendered
  obtain ⟨⟨connType, config, env⟩, hbuilt, ⟨attached, lakeEnv⟩, hattach, hlast⟩ := hrendered
  dsimp only at hlast
  split at hlast
  · cases hlast
  obtain ⟨output, -, hresult⟩ := bind_eq_ok.mp hlast
  cases hresult
  rw [List.mem_append, mem_env_buildTargetConfig hbuilt,
    mem_env_applyLakehouseAttach spec hlake hattach, ← placed_catalog_iff hlake hbuilt]
  constructor
  · intro h
    rcases h with ⟨field, -, hfield⟩ | ⟨hplaced, hkey, hsecret⟩
    · exact ⟨field, hfield⟩
    · exact ⟨.catalog, hkey, hplaced, hsecret⟩
  · rintro ⟨field, hkey, hplaced, hsecret⟩
    cases field with
    | primary => exact .inl ⟨.primary, SecretField.noConfusion, hkey, hplaced, hsecret⟩
    | secondary => exact .inl ⟨.secondary, SecretField.noConfusion, hkey, hplaced, hsecret⟩
    | catalog => exact .inr ⟨hplaced, hkey, hsecret⟩

/-! ## The environment of a profile -/

section

variable {profile : Value} {lake : Option LakeRef} {specs : List Spec} {rendered : List Rendered}
  {key value : String}

theorem envOf_eq_foldl (rendered : List Rendered) : envOf rendered =
    (rendered.flatMap (·.env)).foldl (fun (env : Env) item => env.set item.1 item.2) [] :=
  List.foldl_flatMap.symm

/-- What the environment gives a variable comes from a target. -/
theorem exists_target_of_get_envOf (hget : (envOf rendered).get key = some value) :
    ∃ target ∈ rendered, (key, value) ∈ target.env := by
  rw [envOf_eq_foldl] at hget
  rcases Dict.eq_of_get_foldl_set hget with ⟨item, hitem, rfl, rfl⟩ | hempty
  · exact List.mem_flatMap.mp hitem
  · cases hempty

theorem get_envOf_ne_none {target : Rendered} (htarget : target ∈ rendered)
    (hitem : (key, value) ∈ target.env) : (envOf rendered).get key ≠ none := by
  rw [envOf_eq_foldl, Dict.get_foldl_set_ne_none_iff]
  exact .inl ⟨_, List.mem_flatMap.mpr ⟨target, htarget, hitem⟩, rfl⟩

/-- The profile has an output for each target that can be rendered. -/
theorem get_outputsOf_ne_none_iff
    (hrendered : renderTargets runner profile lake specs = .ok rendered) {name : String} :
    (outputsOf rendered).get name ≠ none ↔ ∃ spec ∈ specs, spec.name = name ∧
      ∃ target, renderTarget runner profile lake spec = .ok target := by
  unfold outputsOf
  rw [Dict.get_foldl_set_ne_none_iff]
  constructor
  · intro h
    rcases h with ⟨target, htarget, hname⟩ | hempty
    · obtain ⟨spec, hspec, hrender⟩ := exists_spec_of_mem_renderTargets hrendered htarget
      exact ⟨spec, hspec, (name_renderTarget hrender).symm.trans hname, target, hrender⟩
    · exact absurd rfl hempty
  · intro ⟨spec, hspec, hname, target, hrender⟩
    left
    exact ⟨target, mem_renderTargets hrendered hspec hrender,
      (name_renderTarget hrender).trans hname⟩

/-- A variable in the environment carries a secret of a target that is rendered. -/
theorem exists_spec_of_get_envOf (hlake : resolveLakehouse runner = .ok lake)
    (hrendered : renderTargets runner profile lake specs = .ok rendered)
    (hget : (envOf rendered).get key = some value) :
    ∃ spec ∈ specs, (∃ target, renderTarget runner profile lake spec = .ok target) ∧
      ∃ field, key = secretName spec.name field ∧ Placed runner spec field ∧
        secretOf runner spec field = some value := by
  obtain ⟨target, htarget, hitem⟩ := exists_target_of_get_envOf hget
  obtain ⟨spec, hspec, hrender⟩ := exists_spec_of_mem_renderTargets hrendered htarget
  exact ⟨spec, hspec, ⟨target, hrender⟩, (mem_env_renderTarget hlake hrender).mp hitem⟩

end

/-! ## The targets of a project -/

theorem targetsOf_eq {row : ProjectRow} {extraTargets : List (String × String)}
    (hrow : runner.project = some (some row))
    (hload : loadProjectTargets runner = .ok extraTargets) :
    targetsOf runner = specsOf row extraTargets := by
  unfold targetsOf
  rw [hrow, hload]

/-- A target of a project comes from its row and the targets that the loader takes. -/
theorem exists_of_mem_targetsOf (hspec : spec ∈ targetsOf runner) :
    ∃ row targets, runner.project = some (some row) ∧ runner.targets = some targets ∧
      targetsOf runner = specsOf row (targets.rows.filter fun row => targetNameMatch row.1) := by
  rcases hrow : runner.project with _ | _ | row
  · simp [targetsOf, hrow] at hspec
  · simp [targetsOf, hrow] at hspec
  rcases htargets : runner.targets with _ | targets
  · simp [targetsOf, hrow, loadProjectTargets, htargets] at hspec
  · refine ⟨row, targets, rfl, rfl, ?_⟩
    apply targetsOf_eq hrow
    rw [loadProjectTargets, htargets]

/-- The loader has taken the name of a target. -/
theorem targetNameMatch_of_mem (hspec : spec ∈ targetsOf runner) :
    targetNameMatch spec.name = true := by
  obtain ⟨row, targets, -, -, hspecs⟩ := exists_of_mem_targetsOf hspec
  rw [hspecs, specsOf, List.mem_append] at hspec
  rcases hspec with hown | hextra
  · split at hown
    · rw [List.mem_singleton.mp hown]
      exact (by decide : targetNameMatch defaultTargetName = true)
    · cases hown
  · obtain ⟨target, htarget, rfl⟩ := List.mem_map.mp hextra
    exact (List.mem_filter.mp (List.mem_filter.mp htarget).1).2

/-- The names of the targets of a project are distinct. -/
theorem eq_of_name_eq (hspec : spec ∈ targetsOf runner) (hother : other ∈ targetsOf runner)
    (hname : spec.name = other.name) : spec = other := by
  obtain ⟨row, targets, -, -, hspecs⟩ := exists_of_mem_targetsOf hspec
  rw [hspecs] at hspec hother
  apply List.inj_on_of_nodup_map _ hspec hother hname
  have hkept : ((targets.rows.filter fun row => targetNameMatch row.1).filter
      fun target => target.1 ≠ defaultTargetName).map (·.1) |>.Nodup :=
    targets.nodup.sublist ((List.filter_sublist.trans List.filter_sublist).map _)
  unfold specsOf
  rw [List.map_append, List.map_map]
  split
  · apply List.nodup_append.mpr
    refine ⟨List.nodup_singleton _, hkept, ?_⟩
    intro name hown name' hextra hsame
    obtain ⟨target, htarget, hname'⟩ := List.mem_map.mp hextra
    have hdev := List.mem_singleton.mp hown
    subst hdev hsame
    exact absurd hname' (of_decide_eq_true (List.mem_filter.mp htarget).2)
  · exact hkept

/-- What a regeneration returns: nothing, what the branch for a project with no connection does,
or the variables of the rendered targets. -/
theorem cases_of_regenerate {disk : ProfilesYml}
    (hregenerate : regenerateProfilesFromDb runner = (.ok env, disk)) :
    env = [] ∧ (disk = .previous ∨ targetsOf runner = []) ∨
      targetsOf runner = [] ∧ runner.unconnected = (.ok env, disk) ∨
      ∃ profile lake rendered, profileName runner = .ok (some profile) ∧
        resolveLakehouse runner = .ok lake ∧
        renderTargets runner profile lake (targetsOf runner) = .ok rendered ∧
        env = envOf rendered ∧
        disk = .rendered profile (outputsOf rendered) (rendered.head?.map (·.name)) := by
  rcases hrow : runner.project with _ | _ | row
  · simp only [regenerateProfilesFromDb, regenerateBody, hrow] at hregenerate
    cases hregenerate
    exact .inl ⟨rfl, .inl rfl⟩
  · simp only [regenerateProfilesFromDb, regenerateBody, hrow] at hregenerate
    cases hregenerate
    exact .inl ⟨rfl, .inl rfl⟩
  rcases hload : loadProjectTargets runner with raised | extraTargets
  · simp only [regenerateProfilesFromDb, regenerateBody, hrow, hload] at hregenerate
    cases raised <;> cases hregenerate <;> exact .inl ⟨rfl, .inl rfl⟩
  rw [targetsOf_eq hrow hload]
  simp only [regenerateProfilesFromDb, regenerateBody, hrow, hload] at hregenerate
  by_cases hnone : row.connectionId = none ∧ row.dremioSourceId = none ∧ extraTargets = []
  · have hempty : specsOf row extraTargets = [] := by simp [specsOf, hnone]
    rw [if_pos hnone] at hregenerate
    rcases hbranch : runner.unconnected with ⟨raised | own, left⟩
    · rw [hbranch] at hregenerate
      cases raised <;> cases hregenerate <;> exact .inl ⟨rfl, .inr hempty⟩
    · rw [hbranch] at hregenerate
      cases hregenerate
      exact .inr (.inl ⟨hempty, rfl⟩)
  rw [if_neg hnone] at hregenerate
  rcases hprofile : profileName runner with raised | _ | own
  · simp only [hprofile] at hregenerate
    cases raised <;> cases hregenerate <;> exact .inl ⟨rfl, .inl rfl⟩
  · simp only [hprofile] at hregenerate
    cases hregenerate
    exact .inl ⟨rfl, .inl rfl⟩
  rcases hlake : resolveLakehouse runner with raised | lake
  · simp only [hprofile, hlake] at hregenerate
    cases raised <;> cases hregenerate <;> exact .inl ⟨rfl, .inl rfl⟩
  rcases hrendered : renderTargets runner own lake (specsOf row extraTargets) with raised | rendered
  · simp only [hprofile, hlake, hrendered] at hregenerate
    cases raised <;> cases hregenerate <;> exact .inl ⟨rfl, .inl rfl⟩
  simp only [hprofile, hlake, hrendered, writeProfile] at hregenerate
  split_ifs at hregenerate
  · cases hregenerate
    exact .inl ⟨rfl, .inl rfl⟩
  · cases hregenerate
  · cases hregenerate
    exact .inl ⟨rfl, .inl rfl⟩
  · cases hregenerate
    exact .inr (.inr ⟨own, lake, rendered, rfl, rfl, hrendered, rfl, rfl⟩)
  · cases hregenerate

/-- A regeneration that writes `profiles.yml` has rendered the targets of the project. -/
theorem rendered_of_regenerate {profile : Value} {outputs : Dict String Value}
    {target : Option String}
    (hregenerate : regenerateProfilesFromDb runner = (.ok env, .rendered profile outputs target)) :
    targetsOf runner = [] ∨ ∃ lake rendered, profileName runner = .ok (some profile) ∧
      resolveLakehouse runner = .ok lake ∧
      renderTargets runner profile lake (targetsOf runner) = .ok rendered ∧
      env = envOf rendered ∧ outputs = outputsOf rendered := by
  rcases cases_of_regenerate hregenerate with ⟨-, hdisk | hempty⟩ | ⟨hempty, -⟩ |
    ⟨own, lake, rendered, hprofile, hlake, hrendered, henv, hdisk⟩
  · cases hdisk
  · exact .inl hempty
  · exact .inl hempty
  · cases hdisk
    exact .inr ⟨lake, rendered, hprofile, hlake, hrendered, henv, rfl⟩

/-- Two targets have one variable for a secret only when they are twins. -/
theorem eq_or_twins_of_secretName_eq {field' : SecretField} (hspec : spec ∈ targetsOf runner)
    (hother : other ∈ targetsOf runner) (hfield : field ≠ .catalog)
    (hsame : secretName spec.name field = secretName other.name field') :
    field = field' ∧ (spec = other ∨ Twins spec.name other.name ∨ Twins other.name spec.name) := by
  have hfields := field_eq_of_secretName_eq hsame
  subst hfields
  refine ⟨rfl, ?_⟩
  have hnames : spec.name = other.name ∨ targetSuffix spec.name = targetSuffix other.name := by
    cases field with
    | primary => exact (targetSecretEnv_eq hsame).imp_right fun h => h.2.2
    | secondary => exact (targetSecretEnv_eq hsame).imp_right fun h => h.2.2
    | catalog => exact absurd rfl hfield
  rcases hnames with hname | hsuffix
  · exact .inl (eq_of_name_eq hspec hother hname)
  · have hmatch := targetNameMatch_of_mem hspec
    have hmatch' := targetNameMatch_of_mem hother
    exact (eq_or_twins hmatch hmatch' hsuffix).imp_left (eq_of_name_eq hspec hother)

theorem Twins.ne_default {own other : String} (htwins : Twins own other) :
    own ≠ defaultTargetName ∧ other ≠ defaultTargetName := by
  obtain ⟨stem, rfl, rfl⟩ := htwins
  have hlast : ∀ c, (stem ++ String.singleton c).toList.getLast? = some c := by
    intro c
    simp
  constructor
  · intro hdev
    have h := hlast '\n'
    rw [show stem ++ String.singleton '\n' = defaultTargetName from hdev] at h
    exact absurd h (by decide)
  · intro hdev
    have h := hlast '_'
    rw [show stem ++ String.singleton '_' = defaultTargetName from hdev] at h
    exact absurd h (by decide)

theorem Twins.secretName_eq {own other : String} (htwins : Twins own other)
    (field : SecretField) : secretName own field = secretName other field := by
  have hbase : ∀ base, targetSecretEnv own base = targetSecretEnv other base := by
    intro base
    unfold targetSecretEnv
    rw [if_neg htwins.ne_default.1, if_neg htwins.ne_default.2, htwins.targetSuffix_eq]
  cases field with
  | primary => exact hbase _
  | secondary => exact hbase _
  | catalog => rfl

theorem renders_iff {profile : Value} {lake : Option LakeRef}
    (hprofile : profileName runner = .ok (some profile))
    (hlake : resolveLakehouse runner = .ok lake) :
    Renders runner spec ↔ ∃ target, renderTarget runner profile lake spec = .ok target := by
  unfold Renders
  constructor
  · intro ⟨_, _, target, hprofile', hlake', hrender⟩
    cases hprofile.symm.trans hprofile'
    cases hlake.symm.trans hlake'
    exact ⟨target, hrender⟩
  · exact fun ⟨target, hrender⟩ => ⟨profile, lake, target, hprofile, hlake, hrender⟩

/-- The outputs of a written profile read the secrets of their own targets exactly when no
two of them share a suffix and differ in a secret. -/
theorem isolated_iff {profile : Value} {outputs : Dict String Value} {target : Option String}
    (hregenerate : regenerateProfilesFromDb runner = (.ok env, .rendered profile outputs target)) :
    Isolated runner outputs env ↔ TwinsAgree runner := by
  rcases rendered_of_regenerate hregenerate with hempty | ⟨lake, rendered, hprofile, hlake,
    hrendered, rfl, rfl⟩
  · unfold Isolated TwinsAgree
    rw [hempty]
    simp
  have hrenders : ∀ spec ∈ targetsOf runner,
      (outputsOf rendered).get spec.name ≠ none ↔ Renders runner spec := by
    intro spec hspec
    rw [get_outputsOf_ne_none_iff hrendered, renders_iff hprofile hlake]
    constructor
    · intro ⟨same, hsame, hname, hrender⟩
      rwa [← eq_of_name_eq hsame hspec hname]
    · exact fun hrender => ⟨spec, hspec, rfl, hrender⟩
  constructor
  · intro hisolated own hown other hother htwins hrender hrender' field hplaced hplaced'
    have hget := hisolated own hown ((hrenders own hown).mpr hrender) field hplaced
    have hget' := hisolated other hother ((hrenders other hother).mpr hrender') field hplaced'
    rw [htwins.secretName_eq] at hget
    exact hget.symm.trans hget'
  · intro hagree spec hspec houtput field hplaced
    have hrender := (hrenders spec hspec).mp houtput
    cases hget : (envOf rendered).get (secretName spec.name field) with
    | none =>
      -- A secret of the target itself would be in the environment.
      obtain ⟨target, htarget⟩ := (renders_iff hprofile hlake).mp hrender
      by_contra hsecret
      obtain ⟨value, hvalue⟩ := Option.ne_none_iff_exists'.mp (Ne.symm hsecret)
      have hitem := (mem_env_renderTarget hlake htarget).mpr ⟨field, rfl, hplaced, hvalue⟩
      exact get_envOf_ne_none (mem_renderTargets hrendered hspec htarget) hitem hget
    | some value =>
      obtain ⟨other, hother, hrender', field', hkey, hplaced', hvalue⟩ :=
        exists_spec_of_get_envOf hlake hrendered hget
      rw [← renders_iff hprofile hlake] at hrender'
      have hfield := field_eq_of_secretName_eq hkey
      subst hfield
      rw [← hvalue]
      by_cases hcatalog : field = .catalog
      · subst hcatalog
        rfl
      obtain ⟨-, rfl | htwins | htwins⟩ :=
        eq_or_twins_of_secretName_eq hspec hother hcatalog hkey
      · rfl
      · exact (hagree _ hspec _ hother htwins hrender hrender' _ hplaced hplaced').symm
      · exact hagree _ hother _ hspec htwins hrender' hrender _ hplaced' hplaced

/-- A project with two more targets, each on a PostgreSQL connection of its own. -/
def twoTargets (first second : String) (hdistinct : first ≠ second) : Runner :=
  { oneConnection "postgresql" with
    targets := some ⟨[(first, "first"), (second, "second")], by simpa using hdistinct⟩
    connection := fun connectionId => some (some
      { connectionType := "postgresql", host := some "db", port := some 5432,
        database := some "shop", username := some "etl", passwordEncrypted := some connectionId }) }

/-- The targets `prod` and `staging` have suffixes of their own. -/
theorem isolated_of_plain_names : ∃ env profile outputs target,
    regenerateProfilesFromDb (twoTargets "prod" "staging" (by decide)) =
      (.ok env, .rendered profile outputs target) ∧
    Isolated (twoTargets "prod" "staging" (by decide)) outputs env := by
  refine ⟨_, _, _, _, rfl, (isolated_iff rfl).mpr ?_⟩
  intro own hown other hother htwins
  have hlast : ∀ spec ∈ targetsOf (twoTargets "prod" "staging" (by decide)),
      spec.name.toList.getLast? ≠ some '\n' := by decide
  obtain ⟨stem, hname, -⟩ := htwins
  exact absurd (by rw [hname]; simp) (hlast own hown)

/-- A last line feed gives a target the variable of another one. -/
theorem not_isolated_of_line_feed : ¬ ∀ runner env profile outputs target,
    regenerateProfilesFromDb runner = (.ok env, .rendered profile outputs target) →
    Isolated runner outputs env := by
  intro h
  have hisolated := h (twoTargets "prod\n" "prod_" (by decide)) _ _ _ _ rfl
  have hget := hisolated ⟨"prod\n", some "first", none⟩ (.tail _ (.head _))
    (Option.some_ne_none _) .primary
    ⟨_, _, rfl, rfl⟩
  exact absurd hget (by decide +kernel)

end DbtCraft.Services.Profiles
