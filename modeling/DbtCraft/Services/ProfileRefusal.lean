/-
# A connection is rendered or the run is refused

`_regenerate_profiles_from_db` announces what it raises as a `DbtOperationError`, and
returns an empty environment for every other exception, with the old `profiles.yml`
still on disk. So a project with a connection is rendered or refused as long as no step
on the way to its own target fails in another way.
-/

import DbtCraft.Services.Profiles

namespace DbtCraft.Services.Profiles

open DbtCraft.Python DbtCraft.Services.ConnectionConfig DbtCraft.Services.State

universe uα

/-- The exception is a `DbtOperationError`. -/
def IsDbtOperation : Raised → Prop
  | .dbtOperation _ _ => True
  | _ => False

/-- What the step raises, if it raises, is a `DbtOperationError`. -/
def Announces {α : Type uα} (outcome : Except Raised α) : Prop :=
  ∀ raised, outcome = .error raised → IsDbtOperation raised

variable {runner : Runner} {profile : Value} {lake : Option LakeRef} {spec : Spec}

/-- The project exists and has a connection of its own, whether or not the database
answers. -/
structure HasConnection (runner : Runner) : Prop where
  exists' : runner.project ≠ some none
  attached : ∀ row, runner.project = some (some row) →
    row.connectionId ≠ none ∨ row.dremioSourceId ≠ none

/-- The regeneration raises a `DbtOperationError`, or it leaves exactly the outputs it
has rendered from the database and returns their environment. -/
def RendersOrRefuses (runner : Runner) : Prop :=
  match regenerateProfilesFromDb runner with
  | (.error raised, _) => IsDbtOperation raised
  | (.ok env, disk) => ∃ row extraTargets profile lake rendered,
      runner.project = some (some row) ∧ loadProjectTargets runner = .ok extraTargets ∧
      profileName runner = .ok (some profile) ∧ resolveLakehouse runner = .ok lake ∧
      renderTargets runner profile lake (specsOf row extraTargets) = .ok rendered ∧
      env = envOf rendered ∧
      disk = .rendered profile (outputsOf rendered) (rendered.head?.map (·.name))

/-- The type of a connection is one of a warehouse, its `extra_config` is a dict, and
its thread count, which Spark leaves alone, is not infinite. -/
def Supported (row : ConnectionRow) : Prop :=
  row.connectionType ∈ warehouseTypes ∧ ∃ extra, extraDict row.extraConfig = .ok extra ∧
    (row.connectionType ≠ "spark" → ∃ count,
      threads (extra.pop secondarySecretKey) row.connectionType = .ok count)

/-- The secrets that the config of a connection has a place for can be decrypted. -/
def SecretsReadable (runner : Runner) (row : ConnectionRow) (secretEnv secondaryEnv : String) :
    Prop :=
  ∀ config needsSecret, buildAdapterConfig row (.str (envVar secretEnv))
      (.str (envVar secondaryEnv)) = .ok (config, needsSecret) →
    (holds config (envVar secondaryEnv) → ∃ secret,
      connectionSecondarySecret row runner.decrypt = .ok secret) ∧
    (needsSecret → ∃ secret,
      decryptSecretOrPlaintext runner.decrypt row.passwordEncrypted = .ok secret)

/-- The connection of a target is gone, or it is supported and its secrets can be
decrypted. -/
def ConnectionReadable (runner : Runner) (spec : Spec) (secretEnv secondaryEnv : String) : Prop :=
  match spec.connectionId, spec.dremioSourceId with
  | some connectionId, _ =>
    match runner.connection connectionId with
    | none => False
    | some none => True
    | some (some row) => Supported row ∧ SecretsReadable runner row secretEnv secondaryEnv
  | none, some sourceId =>
    match runner.dremioSource sourceId with
    | none => False
    | some none => True
    | some (some source) =>
      ∃ secret, decryptSecretOrPlaintext runner.decrypt source.tokenEncrypted = .ok secret
  | none, none => False

/-- The connection of a target is readable, its lake is attached and its output read
back, or the step that fails says so. -/
def Readable (runner : Runner) (profile : Value) (lake : Option LakeRef) (spec : Spec) : Prop :=
  ConnectionReadable runner spec (targetSecretEnv spec.name dbtProfileSecretEnv)
    (targetSecretEnv spec.name dbtProfileSecondarySecretEnv) ∧
  ∀ connType config env, buildTargetConfig runner spec
      (targetSecretEnv spec.name dbtProfileSecretEnv)
      (targetSecretEnv spec.name dbtProfileSecondarySecretEnv) = .ok (connType, config, env) →
    Announces (applyLakehouseAttach runner lake connType config) ∧
    ∀ attached lakeEnv, applyLakehouseAttach runner lake connType config = .ok (attached, lakeEnv) →
      ∀ rendered, runner.adapter connType (applyDuckdbResources runner connType attached) profile
          spec.name = .ok rendered →
        Announces (outputOf rendered profile spec.name connType)

/-- Nothing on the way to the project's own target fails unannounced. -/
def NoSilentFailure (runner : Runner) : Prop :=
  ∃ row targets profile, runner.project = some (some row) ∧ runner.targets = some targets ∧
    profileName runner = .ok (some profile) ∧ runner.lake ≠ .raises ∧
    ∀ lake, resolveLakehouse runner = .ok lake →
      Readable runner profile lake ⟨defaultTargetName, row.connectionId, row.dremioSourceId⟩ ∧
      ∀ rendered, renderTargets runner profile lake (specsOf row
          (targets.rows.filter fun row => targetNameMatch row.1)) = .ok rendered →
        (rendered.any (·.releaseDuckdbFile)) = true → runner.releases = true

/-! ## Announced failures -/

section

variable {α β : Type uα} {first : Except Raised α} {next : α → Except Raised β}

theorem announces_ok (value : α) : Announces (.ok value : Except Raised α) :=
  fun _ h => nomatch h

theorem announces_error_iff {raised : Raised} :
    Announces (.error raised : Except Raised α) ↔ IsDbtOperation raised := by
  constructor
  · exact fun h => h raised rfl
  · intro h other hother
    cases hother
    exact h

/-- A sequence announces its failures when each of its steps does. -/
theorem announces_bind_iff : Announces (first >>= next) ↔
    Announces first ∧ ∀ value, first = .ok value → Announces (next value) := by
  cases first with
  | error raised =>
    show Announces (.error raised) ↔ _
    simp [announces_error_iff]
  | ok value =>
    show Announces (next value) ↔ _
    simp [announces_ok]

end

/-- What the step raises, if it raises, is another exception. -/
def Silent {α : Type uα} (outcome : Except Raised α) : Prop :=
  ∀ raised, outcome = .error raised → ¬ IsDbtOperation raised

section

variable {α β : Type uα} {first : Except Raised α} {next : α → Except Raised β}

theorem silent_ok (value : α) : Silent (.ok value : Except Raised α) :=
  fun _ h => nomatch h

theorem silent_error {raised : Raised} (hraised : ¬ IsDbtOperation raised) :
    Silent (.error raised : Except Raised α) := by
  intro other hother
  cases hother
  exact hraised

theorem silent_bind (hfirst : Silent first) (hnext : ∀ value, Silent (next value)) :
    Silent (first >>= next) := by
  cases first with
  | error raised => exact silent_error (hfirst raised rfl)
  | ok value => exact hnext value

theorem silent_map {f : α → β} (hfirst : Silent first) : Silent (first.map f) := by
  cases first with
  | error raised => exact silent_error (hfirst raised rfl)
  | ok value => exact silent_ok (f value)

theorem silent_mapM {items : List α} (hnext : ∀ value, Silent (next value)) :
    Silent (items.mapM next) := by
  induction items with
  | nil => exact silent_ok []
  | cons item rest ih =>
    rw [List.mapM_cons]
    apply silent_bind (hnext item)
    intro value
    apply silent_bind ih
    exact fun values => silent_ok (value :: values)

/-- A silent step announces its failures only by not failing. -/
theorem announces_iff_of_silent (hsilent : Silent first) :
    Announces first ↔ ∃ value, first = .ok value := by
  cases first with
  | error raised => simp [announces_error_iff, hsilent raised rfl]
  | ok value => simp [announces_ok]

end

/-! ## The connection -/

/-- A branch of the builder returns when its thread count does. -/
theorem map_eq_ok_iff {α β : Type uα} {outcome : Except Raised α} {f : α → β} :
    (∃ result, outcome.map f = .ok result) ↔ ∃ value, outcome = .ok value := by
  cases outcome with
  | error raised => simp [Except.map]
  | ok value => simp [Except.map]

theorem buildOfType_eq_ok {row : ConnectionRow} {extra : Config} {hasSecondary : Bool}
    {secret secondary : Value} :
    (∃ built, buildOfType row extra hasSecondary secret secondary = .ok built) ↔
      row.connectionType ∈ warehouseTypes ∧
        (row.connectionType ≠ "spark" → ∃ count, threads extra row.connectionType = .ok count) := by
  have hbuilds {name : String} {build : Value → Config × Bool} (hname : row.connectionType = name)
      (hmem : name ∈ warehouseTypes) (hother : name ≠ "spark") :
      (∃ built, (threads extra row.connectionType).map build = .ok built) ↔
        row.connectionType ∈ warehouseTypes ∧
          (row.connectionType ≠ "spark" → ∃ count, threads extra row.connectionType = .ok count) := by
    rw [map_eq_ok_iff, hname]
    exact ⟨fun hcount => ⟨hmem, fun _ => hcount⟩, fun hboth => hboth.2 hother⟩
  unfold buildOfType
  split_ifs with hpostgresql hduckdb horacle hdremio hspark hsnowflake hdatabricks
  · exact hbuilds hpostgresql (by decide) (by decide)
  · exact hbuilds hduckdb (by decide) (by decide)
  · exact hbuilds horacle (by decide) (by decide)
  · exact hbuilds hdremio (by decide) (by decide)
  · simp [hspark, warehouseTypes]
  · exact hbuilds hsnowflake (by decide) (by decide)
  · exact hbuilds hdatabricks (by decide) (by decide)
  · simp [warehouseTypes, *]

/-- A config is built exactly for the supported connections. -/
theorem buildAdapterConfig_eq_ok {row : ConnectionRow} {secret secondary : Value} :
    (∃ built, buildAdapterConfig row secret secondary = .ok built) ↔ Supported row := by
  simp only [buildAdapterConfig, bind_eq_ok, Supported]
  constructor
  · intro ⟨built, extra, hextra, hbuilt⟩
    obtain ⟨htype, hthreads⟩ := buildOfType_eq_ok.mp ⟨built, hbuilt⟩
    exact ⟨htype, extra, hextra, hthreads⟩
  · intro ⟨htype, extra, hextra, hthreads⟩
    obtain ⟨built, hbuilt⟩ := buildOfType_eq_ok.mpr ⟨htype, hthreads⟩
    exact ⟨built, extra, hextra, hbuilt⟩

theorem silent_pairOf (item : Value) : Silent (pairOf item) := by
  unfold pairOf
  split
  · exact silent_ok _
  · split
    · exact silent_ok _
    · exact silent_error id
  · exact silent_error id
  · exact silent_error id
  · exact silent_error id

theorem silent_extraDict (extraConfig : Value) : Silent (extraDict extraConfig) := by
  unfold extraDict
  split
  · exact silent_ok _
  · split
    · exact silent_ok _
    · exact silent_bind (silent_mapM silent_pairOf) fun pairs => silent_ok _
    · exact silent_error id
    · exact silent_error id

theorem silent_threads (extra : Config) (connType : String) : Silent (threads extra connType) := by
  unfold threads
  split
  iterate 3 · exact silent_ok _
  · split <;> exact silent_ok _
  · split
    · exact silent_ok _
    · exact silent_error id
  all_goals exact silent_ok _

theorem silent_buildAdapterConfig (row : ConnectionRow) (secret secondary : Value) :
    Silent (buildAdapterConfig row secret secondary) := by
  unfold buildAdapterConfig
  apply silent_bind (silent_extraDict row.extraConfig)
  intro extra
  unfold buildOfType
  split_ifs
  iterate 4 · exact silent_map (silent_threads _ _)
  · exact silent_ok _
  iterate 2 · exact silent_map (silent_threads _ _)
  · unfold refuseType
    split_ifs
    · exact silent_error id
    · exact silent_error id
    · exact silent_error id

theorem silent_decryptSecretOrPlaintext (decrypt : Decrypt) (value : Option String) :
    Silent (decryptSecretOrPlaintext decrypt value) := by
  unfold decryptSecretOrPlaintext
  split
  · exact silent_ok _
  · split
    · split
      · exact silent_ok _
      · exact silent_error id
    · exact silent_ok _

theorem silent_connectionSecondarySecret (row : ConnectionRow) (decrypt : Decrypt) :
    Silent (connectionSecondarySecret row decrypt) := by
  unfold connectionSecondarySecret
  split
  · split
    · exact silent_decryptSecretOrPlaintext _ _
    · split
      · exact silent_error id
      · exact silent_ok _
  · exact silent_ok _

theorem announces_whenPlaced_iff {placed : Bool} {secret : Except Raised String}
    (hsilent : Silent secret) :
    Announces (whenPlaced placed secret) ↔ (placed → ∃ value, secret = .ok value) := by
  unfold whenPlaced
  split
  next hplaced => simp [hplaced, announces_iff_of_silent hsilent]
  next hplaced => simp [hplaced, announces_ok]

theorem whenPlaced_eq_ok {placed : Bool} {secret : Except Raised String}
    (hsecret : placed → ∃ value, secret = .ok value) :
    ∃ value, whenPlaced placed secret = .ok value := by
  unfold whenPlaced
  split
  next hplaced => exact hsecret hplaced
  · exact ⟨"", rfl⟩

/-- A connection fails without an announcement unless it is supported and its secrets can
be decrypted. -/
theorem announces_buildConnection_iff {row : ConnectionRow} {secretEnv secondaryEnv : String} :
    Announces (buildConnection runner row secretEnv secondaryEnv) ↔
      Supported row ∧ SecretsReadable runner row secretEnv secondaryEnv := by
  unfold buildConnection SecretsReadable
  rw [announces_bind_iff, announces_iff_of_silent (silent_buildAdapterConfig _ _ _),
    buildAdapterConfig_eq_ok, Prod.forall]
  apply and_congr_right
  intro _
  apply forall_congr'
  intro config
  apply forall_congr'
  intro needsSecret
  apply imp_congr_right
  intro _
  rw [announces_bind_iff,
    announces_whenPlaced_iff (silent_connectionSecondarySecret row runner.decrypt)]
  constructor
  · intro ⟨hsecondary, hsecret⟩
    obtain ⟨secondary, hplaced⟩ := whenPlaced_eq_ok hsecondary
    have hrest := hsecret secondary hplaced
    rw [announces_bind_iff, announces_whenPlaced_iff (silent_decryptSecretOrPlaintext _ _)] at hrest
    exact ⟨hsecondary, hrest.1⟩
  · intro ⟨hsecondary, hsecret⟩
    refine ⟨hsecondary, ?_⟩
    intro secondary _
    rw [announces_bind_iff, announces_whenPlaced_iff (silent_decryptSecretOrPlaintext _ _)]
    exact ⟨hsecret, fun _ _ => announces_ok _⟩

theorem announces_buildTargetConfig_iff {secretEnv secondaryEnv : String} :
    Announces (buildTargetConfig runner spec secretEnv secondaryEnv) ↔
      ConnectionReadable runner spec secretEnv secondaryEnv := by
  obtain ⟨name, connectionId, dremioSourceId⟩ := spec
  unfold buildTargetConfig ConnectionReadable
  cases connectionId with
  | some connectionId =>
    rcases hrow : runner.connection connectionId with _ | _ | row
    · simp only [hrow, announces_error_iff, IsDbtOperation]
    · simp only [hrow, announces_error_iff, IsDbtOperation, profileSetup]
    · simp only [hrow]
      rw [announces_bind_iff, announces_buildConnection_iff]
      exact and_iff_left fun _ _ => announces_ok _
  | none =>
    cases dremioSourceId with
    | some sourceId =>
      rcases hsource : runner.dremioSource sourceId with _ | _ | source
      · simp only [hsource, announces_error_iff, IsDbtOperation]
      · simp only [hsource, announces_error_iff, IsDbtOperation, profileSetup]
      · simp only [hsource]
        rw [announces_bind_iff, announces_iff_of_silent (silent_decryptSecretOrPlaintext _ _)]
        exact and_iff_left fun _ _ => announces_ok _
    | none => exact announces_error_iff

/-! ## The targets -/

/-- A target announces its failures exactly when it is readable. -/
theorem announces_renderTarget_iff :
    Announces (renderTarget runner profile lake spec) ↔ Readable runner profile lake spec := by
  unfold renderTarget Readable
  rw [announces_bind_iff, announces_buildTargetConfig_iff]
  apply and_congr_right
  intro _
  constructor
  · intro h connType config env hbuilt
    have hrest := h _ hbuilt
    rw [announces_bind_iff] at hrest
    refine ⟨hrest.1, ?_⟩
    intro attached lakeEnv hattached rendered hrendered
    have hadapter := hrest.2 _ hattached
    simp only [hrendered] at hadapter
    rw [announces_bind_iff] at hadapter
    exact hadapter.1
  · intro h ⟨connType, config, env⟩ hbuilt
    obtain ⟨hattach, hrest⟩ := h connType config env hbuilt
    rw [announces_bind_iff]
    refine ⟨hattach, ?_⟩
    intro ⟨attached, lakeEnv⟩ hattached
    dsimp only
    split
    · exact announces_error_iff.mpr trivial
    next rendered hrendered =>
      rw [announces_bind_iff]
      exact ⟨hrest attached lakeEnv hattached rendered hrendered, fun _ _ => announces_ok _⟩

/-- Targets other than `dev` are skipped when they fail. -/
theorem exists_renderTargets (runner : Runner) (profile : Value) (lake : Option LakeRef)
    {specs : List Spec}
    (hnames : ∀ spec ∈ specs, spec.name ≠ defaultTargetName) :
    ∃ rendered, renderTargets runner profile lake specs = .ok rendered := by
  induction specs with
  | nil => exact ⟨[], rfl⟩
  | cons spec rest ih =>
    obtain ⟨others, hothers⟩ := ih fun other hother => hnames other (List.mem_cons_of_mem _ hother)
    unfold renderTargets
    split
    next rendered _ => exact ⟨rendered :: others, by rw [hothers]; rfl⟩
    · rw [if_neg (hnames spec List.mem_cons_self)]
      exact ⟨others, hothers⟩

/-- A project with a connection renders its own target first. -/
theorem specsOf_of_attached {row : ProjectRow} (extraTargets : List (String × String))
    (hattached : row.connectionId ≠ none ∨ row.dremioSourceId ≠ none) :
    ∃ others, specsOf row extraTargets =
        ⟨defaultTargetName, row.connectionId, row.dremioSourceId⟩ :: others ∧
      ∀ spec ∈ others, spec.name ≠ defaultTargetName := by
  unfold specsOf
  rw [if_pos hattached]
  refine ⟨_, rfl, ?_⟩
  intro spec hspec
  obtain ⟨target, htarget, rfl⟩ := List.mem_map.mp hspec
  simpa using (List.mem_filter.mp htarget).2

/-- How the targets of a project with a connection are rendered. -/
theorem renderTargets_specsOf (runner : Runner) (profile : Value) (lake : Option LakeRef)
    {row : ProjectRow} (extraTargets : List (String × String))
    (hattached : row.connectionId ≠ none ∨ row.dremioSourceId ≠ none) :
    (∃ raised, renderTarget runner profile lake
        ⟨defaultTargetName, row.connectionId, row.dremioSourceId⟩ = .error raised ∧
      renderTargets runner profile lake (specsOf row extraTargets) = .error raised) ∨
    ∃ own others, renderTarget runner profile lake
        ⟨defaultTargetName, row.connectionId, row.dremioSourceId⟩ = .ok own ∧
      renderTargets runner profile lake (specsOf row extraTargets) = .ok (own :: others) := by
  obtain ⟨specs, hspecs, hnames⟩ := specsOf_of_attached extraTargets hattached
  rw [hspecs]
  cases hown : renderTarget runner profile lake
      ⟨defaultTargetName, row.connectionId, row.dremioSourceId⟩ with
  | error raised =>
    left
    exact ⟨raised, rfl, by rw [renderTargets, hown]; rfl⟩
  | ok own =>
    right
    obtain ⟨others, hothers⟩ := exists_renderTargets runner profile lake hnames
    exact ⟨own, others, rfl, by rw [renderTargets, hown, hothers]; rfl⟩

/-- Only a DuckDB target has a file to hand back. -/
theorem connType_of_releaseDuckdbFile {target : Rendered}
    (hrendered : renderTarget runner profile lake spec = .ok target)
    (hrelease : target.releaseDuckdbFile = true) : target.connType = "duckdb" := by
  simp only [renderTarget, bind_eq_ok] at hrendered
  obtain ⟨⟨connType, config, env⟩, -, ⟨attached, lakeEnv⟩, -, hlast⟩ := hrendered
  dsimp only at hlast
  split at hlast
  · cases hlast
  · obtain ⟨output, -, hresult⟩ := bind_eq_ok.mp hlast
    cases hresult
    simp only [Bool.and_eq_true, decide_eq_true_eq] at hrelease
    exact hrelease.1.1

/-! ## The regeneration -/

section

variable {raised : Raised} {env : Env} {disk : ProfilesYml}

/-- Another exception than `DbtOperationError` becomes an empty environment. -/
theorem regenerate_of_silent (hbody : regenerateBody runner = (.error raised, disk))
    (hraised : ¬ IsDbtOperation raised) : regenerateProfilesFromDb runner = (.ok [], disk) := by
  unfold regenerateProfilesFromDb
  rw [hbody]
  cases raised with
  | dbtOperation operation message => exact absurd trivial hraised
  | _ => rfl

theorem rendersOrRefuses_of_announced (hbody : regenerateBody runner = (.error raised, disk))
    (hraised : IsDbtOperation raised) : RendersOrRefuses runner := by
  unfold RendersOrRefuses regenerateProfilesFromDb
  rw [hbody]
  cases raised with
  | dbtOperation operation message => trivial
  | _ => exact absurd hraised id

theorem regenerate_of_ok (hbody : regenerateBody runner = (.ok env, disk)) :
    regenerateProfilesFromDb runner = (.ok env, disk) := by
  unfold regenerateProfilesFromDb
  rw [hbody]

/-- A regeneration that returns with the old profile has not rendered anything. -/
theorem not_rendersOrRefuses (hregenerate : regenerateProfilesFromDb runner = (.ok env, .previous)) :
    ¬ RendersOrRefuses runner := by
  unfold RendersOrRefuses
  rw [hregenerate]
  intro ⟨_, _, _, _, _, _, _, _, _, _, _, hdisk⟩
  cases hdisk

end

theorem silent_profileName : Silent (profileName runner) := by
  unfold profileName
  split
  · exact silent_ok _
  · exact silent_error id
  · exact silent_ok _
  · exact silent_error id

/-- The end of the regeneration fails without an announcement only when a DuckDB file
cannot be handed back. -/
theorem rendersOrRefuses_of_rendered {row : ProjectRow} {extraTargets : List (String × String)}
    {rendered : List Rendered} (hrow : runner.project = some (some row))
    (hload : loadProjectTargets runner = .ok extraTargets)
    (hprofile : profileName runner = .ok (some profile))
    (hlake : resolveLakehouse runner = .ok lake)
    (hrendered : renderTargets runner profile lake (specsOf row extraTargets) = .ok rendered)
    (hbody : regenerateBody runner = writeProfile runner profile lake rendered)
    (hsome : rendered ≠ []) :
    RendersOrRefuses runner ↔
      ((rendered.any (·.releaseDuckdbFile)) = true → runner.releases = true) := by
  unfold writeProfile at hbody
  rw [if_neg hsome] at hbody
  split at hbody
  next hmismatch =>
    refine iff_of_true (rendersOrRefuses_of_announced hbody trivial) ?_
    intro hrelease
    obtain ⟨target, htarget, hfile⟩ := List.any_eq_true.mp hrelease
    obtain ⟨spec, -, hrender⟩ := exists_spec_of_mem_renderTargets hrendered htarget
    exact absurd (connType_of_releaseDuckdbFile hrender hfile) (hmismatch.2 target htarget)
  · split at hbody
    next hkept =>
      refine iff_of_false (not_rendersOrRefuses (regenerate_of_silent hbody id)) ?_
      intro hreleases
      rw [hreleases hkept.1] at hkept
      cases hkept.2
    next hfree =>
      have hreleases : (rendered.any (·.releaseDuckdbFile)) = true → runner.releases = true := by
        intro hfile
        by_contra hkept
        exact hfree ⟨hfile, Bool.eq_false_iff.mpr hkept⟩
      refine iff_of_true ?_ hreleases
      split at hbody
      · unfold RendersOrRefuses
        rw [regenerate_of_ok hbody]
        exact ⟨row, extraTargets, profile, lake, rendered, hrow, hload, hprofile, hlake,
          hrendered, rfl, rfl⟩
      · exact rendersOrRefuses_of_announced hbody trivial

/-- A project with its own connection, its targets loaded and its lake resolved. -/
theorem regenerateBody_of_loaded {row : ProjectRow} {extraTargets : List (String × String)}
    (hattached : row.connectionId ≠ none ∨ row.dremioSourceId ≠ none)
    (hrow : runner.project = some (some row))
    (hload : loadProjectTargets runner = .ok extraTargets) :
    regenerateBody runner =
      match profileName runner with
      | .error raised => (.error raised, .previous)
      | .ok none => (.ok [], .previous)
      | .ok (some profile) =>
        match resolveLakehouse runner with
        | .error raised => (.error raised, .previous)
        | .ok lake =>
          match renderTargets runner profile lake (specsOf row extraTargets) with
          | .error raised => (.error raised, .previous)
          | .ok rendered => writeProfile runner profile lake rendered := by
  have hown : ¬ (row.connectionId = none ∧ row.dremioSourceId = none ∧ extraTargets = []) := by
    intro ⟨hconnection, hsource, _⟩
    exact hattached.elim (· hconnection) (· hsource)
  simp only [regenerateBody, hrow, hload, if_neg hown] <;> rfl

/-- Once the lake is resolved, the own target decides. -/
theorem rendersOrRefuses_of_resolved {row : ProjectRow} {extraTargets : List (String × String)}
    (hattached : row.connectionId ≠ none ∨ row.dremioSourceId ≠ none)
    (hrow : runner.project = some (some row))
    (hload : loadProjectTargets runner = .ok extraTargets)
    (hprofile : profileName runner = .ok (some profile))
    (hlake : resolveLakehouse runner = .ok lake) :
    RendersOrRefuses runner ↔
      Readable runner profile lake ⟨defaultTargetName, row.connectionId, row.dremioSourceId⟩ ∧
      ∀ rendered, renderTargets runner profile lake (specsOf row extraTargets) = .ok rendered →
        (rendered.any (·.releaseDuckdbFile)) = true → runner.releases = true := by
  have hloaded := regenerateBody_of_loaded hattached hrow hload
  rw [hprofile] at hloaded
  dsimp only at hloaded
  rw [hlake] at hloaded
  dsimp only at hloaded
  rw [← announces_renderTarget_iff]
  obtain ⟨raised, hown, hrendered⟩ | ⟨own, others, hown, hrendered⟩ :=
    renderTargets_specsOf runner profile lake extraTargets hattached
  · rw [hrendered] at hloaded
    rw [hown, announces_error_iff]
    constructor
    · intro hrefused
      refine ⟨?_, fun rendered hother => nomatch hrendered.symm.trans hother⟩
      by_contra hsilent
      exact not_rendersOrRefuses (regenerate_of_silent hloaded hsilent) hrefused
    · exact fun h => rendersOrRefuses_of_announced hloaded h.1
  · rw [hrendered] at hloaded
    rw [rendersOrRefuses_of_rendered hrow hload hprofile hlake hrendered hloaded
      (List.cons_ne_nil _ _), hown, hrendered]
    constructor
    · intro hreleases
      refine ⟨announces_ok own, ?_⟩
      intro rendered hsame
      cases hsame
      exact hreleases
    · exact fun h => h.2 _ rfl

theorem noSilentFailure_iff {row : ProjectRow} {targets : ProjectTargets}
    (hrow : runner.project = some (some row)) (htargets : runner.targets = some targets)
    (hprofile : profileName runner = .ok (some profile)) :
    NoSilentFailure runner ↔ runner.lake ≠ .raises ∧ ∀ lake, resolveLakehouse runner = .ok lake →
      Readable runner profile lake ⟨defaultTargetName, row.connectionId, row.dremioSourceId⟩ ∧
      ∀ rendered, renderTargets runner profile lake (specsOf row
          (targets.rows.filter fun row => targetNameMatch row.1)) = .ok rendered →
        (rendered.any (·.releaseDuckdbFile)) = true → runner.releases = true := by
  constructor
  · intro ⟨_, _, _, hrow', htargets', hprofile', h⟩
    cases hrow.symm.trans hrow'
    cases htargets.symm.trans htargets'
    cases hprofile.symm.trans hprofile'
    exact h
  · exact fun h => ⟨row, targets, profile, hrow, htargets, hprofile, h⟩

/-- A project with one connection of the type, whose adapter writes its config down. -/
def oneConnection (connType : String) : Runner where
  projectId := "shop"
  project := some (some ⟨some "warehouse", none⟩)
  targets := some ⟨[], List.nodup_nil⟩
  connection _ := some (some
    { connectionType := connType, host := some "db", port := some 5432,
      database := some "shop", username := some "etl", passwordEncrypted := some "secret" })
  dremioSource _ := some none
  lake := .none
  decrypt _ := none
  urlparse _ := none
  profileSettings := []
  adapter connType config profile target := .ok (.dict [(profile, .dict [
    (.str "outputs", .dict [(.str target, .dict ((.str "type", .str connType) ::
      config.map fun item => (.str item.1, item.2)))])])])
  dbtProject := .document (.dict [(.str "name", .str "shop")])
  releases := true
  writes := true
  unconnected := (.ok [], .previous)

theorem hasConnection_oneConnection (connType : String) :
    HasConnection (oneConnection connType) where
  exists' h := nomatch h
  attached row hrow := by
    cases hrow
    exact .inl (Option.some_ne_none _)

end DbtCraft.Services.Profiles
