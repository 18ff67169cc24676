/-
# What the forms accept

`features/projects/model/env-vars.ts`, and what the runner makes of a value that the
frontend has accepted. The patterns of the two sides are the same; the frontend has no
bound on the length of a whole account.
-/

import DbtCraft.Python.Splitting
import DbtCraft.Server.ConnectionValidation
import DbtCraft.Services.ConnectionTargets
import DbtCraft.Services.EnvironmentIsolation

namespace DbtCraft.Server.EnvVars

open DbtCraft.Python

/-! ## Names of variables -/

/-- `ENV_NAME_RE`. -/
def isEnvName (name : String) : Bool :=
  match name.toList with
  | [] => false
  | first :: rest =>
    (first.isAlpha || first = '_') && decide (rest.length ≤ 127) &&
      rest.all fun c => c.isAlphanum || c = '_'

/-- `DBT_PROFILE_SECRET_PREFIX`. -/
def dbtProfileSecretPrefix : String := "DBT_ENV_SECRET_DBT_CRAFT_"

/-- `DBT_LAKE_CATALOG_PASSWORD_ENV`. -/
def dbtLakeCatalogPasswordEnv : String := "DBT_ENV_SECRET_LAKE_CATALOG_PASSWORD"

/-- `LEGACY_DBT_CLI_FLAGS`. -/
def legacyDbtCliFlags : List String :=
  ["DBT_ARTIFACT_STATE_PATH", "DBT_CACHE_SELECTED_ONLY", "DBT_CLEAN_PROJECT_FILES_ONLY",
    "DBT_DEBUG", "DBT_DEFER", "DBT_DEFER_STATE", "DBT_DEFER_TO_STATE", "DBT_EMPTY",
    "DBT_EVENT_TIME_END", "DBT_EVENT_TIME_START", "DBT_EXCLUDE_RESOURCE_TYPES",
    "DBT_EXPORT_SAVED_QUERIES", "DBT_FAIL_FAST", "DBT_FAVOR_STATE", "DBT_FAVOR_STATE_MODE",
    "DBT_FULL_REFRESH", "DBT_HOST", "DBT_INCLUDE_SAVED_QUERY", "DBT_INDIRECT_SELECTION",
    "DBT_INTROSPECT", "DBT_LOG_CACHE_EVENTS", "DBT_LOG_FILE_MAX_BYTES", "DBT_LOG_FORMAT",
    "DBT_LOG_FORMAT_FILE", "DBT_LOG_LEVEL", "DBT_LOG_LEVEL_FILE", "DBT_LOG_PATH",
    "DBT_MACRO_DEBUGGING", "DBT_NO_PRINT", "DBT_PACKAGES_INSTALL_PATH", "DBT_PARTIAL_PARSE",
    "DBT_PARTIAL_PARSE_FILE_DIFF", "DBT_PARTIAL_PARSE_FILE_PATH", "DBT_POPULATE_CACHE",
    "DBT_PRINT", "DBT_PRINTER_WIDTH", "DBT_PROFILE", "DBT_PROFILES_DIR", "DBT_PROJECT_DIR",
    "DBT_QUIET", "DBT_RESOURCE_TYPES", "DBT_SAMPLE", "DBT_SEND_ANONYMOUS_USAGE_STATS",
    "DBT_SHOW_RESOURCE_REPORT", "DBT_SINGLE_THREADED", "DBT_STATE", "DBT_STATIC_PARSER",
    "DBT_STORE_FAILURES", "DBT_TARGET", "DBT_TARGET_PATH",
    "DBT_UPLOAD_TO_ARTIFACTS_INGEST_API", "DBT_USE_COLORS", "DBT_USE_COLORS_FILE",
    "DBT_USE_EXPERIMENTAL_PARSER", "DBT_USE_FAST_TEST_EDGES", "DBT_VERSION_CHECK",
    "DBT_WARN_ERROR", "DBT_WARN_ERROR_OPTIONS", "DBT_WRITE_JSON"]

/-- `name.replace(/^DBT_/, '')`. -/
def withoutDbt (name : String) : String :=
  if startsWith name "DBT_" then String.ofList (name.toList.drop 4) else name

/-- `FORBIDDEN_DBT_CLI_ENV_VARS`. -/
def forbiddenDbtCliEnvVars : List String :=
  legacyDbtCliFlags ++
    ("DBT_ENGINE_SQLPARSE" :: legacyDbtCliFlags.map fun name => "DBT_ENGINE_" ++ withoutDbt name)

/-- `getForbiddenEnvVarReason`, of a name that `ENV_NAME_RE` matches. -/
def getForbiddenEnvVarReason (name : String) : Option String :=
  let normalized := upper name
  if normalized ∈ forbiddenDbtCliEnvVars then some "dbt treats it as a CLI option"
  else if normalized ∈ ["PATH", "HOME", "VIRTUAL_ENV"] then
    some "it controls the dbt process environment"
  else if startsWith normalized "PYTHON" || startsWith normalized "LD_" ||
      startsWith normalized "DYLD_" || startsWith normalized "UV_" then
    some "it controls Python or native code loading"
  else if startsWith normalized dbtProfileSecretPrefix ||
      normalized = dbtLakeCatalogPasswordEnv then
    some "it is reserved for a server-managed credential"
  else none

/-- `validateEnvVarName`, or the `error` of a name that is not valid. -/
def validateEnvVarName (name : String) : Except String Unit :=
  if name = "" then .error "Environment variable name cannot be empty"
  else if isEnvName name = false then .error ("Invalid environment variable name: " ++ name)
  else
    match getForbiddenEnvVarReason name with
    | some reason =>
      .error ("Environment variable '" ++ name ++ "' is not allowed because " ++ reason)
    | none => .ok ()

end DbtCraft.Server.EnvVars

namespace DbtCraft.Server.Connections

open DbtCraft.Python DbtCraft.Adapters
open DbtCraft.Services.ConnectionConfig (Config)
open DbtCraft.Services.DbtEnvironment
open DbtCraft.Server.EnvVars

/-! ## The runner beside it -/

/-- What the frontend makes of a text the runner accepts and leaves as it is: an account, a
workspace or an HTTP path wherever a config has it, and a name with any value. -/
structure Refines (shown : Value → String) (libraries : Libraries) (text : String) : Prop where
  account : ∀ normalized (config : Config),
    normalizeSnowflakeAccount shown (some (.str text)) = some normalized →
    config.value "account" = .str (String.ofList normalized) →
    libraries.normalizeAccount config = .ok normalized
  workspaceHost : ∀ normalized (config : Config),
    normalizeDatabricksHost shown (some (.str text)) = some normalized →
    config.value "host" = .str (String.ofList normalized) →
    libraries.normalizeWorkspaceHost config = .ok normalized
  httpPath : ∀ normalized (config : Config),
    normalizeDatabricksHttpPath shown (some (.str text)) = some normalized →
    config.value "http_path" = .str (String.ofList normalized) →
    libraries.normalizeHttpPath config = .ok normalized
  envVarName : ∀ value, validateEnvVarName text = .ok () →
    sanitizeDbtEnvironment fallbackDbtCliEnvVars [(text, value)] false =
      .ok (Environ.empty.set text value)

/-- The text, trimmed and in lower case, has at most 255 characters where it has the shape
of an account and names no URL. -/
def FitsAccount (text : String) : Prop :=
  let account := lowerText (trim text.toList)
  isAccount account = true → hasUrlPart account = false → account.length ≤ 255

/-! ## Characters -/

/-- A character of an accepted value: a host name, or a path. -/
def isPlainChar (c : Char) : Bool := isLabelChar c || c = '_' || c = '.' || c = '/'

theorem toNat_of_isLowerAlnum {c : Char} (hc : isLowerAlnum c = true) :
    (48 ≤ c.toNat ∧ c.toNat ≤ 57) ∨ (97 ≤ c.toNat ∧ c.toNat ≤ 122) := by
  have hcode : c.toNat = c.val.toNat := rfl
  simp only [isLowerAlnum, isLower_eq, Char.isDigit, Bool.or_eq_true, Bool.and_eq_true,
    decide_eq_true_eq, UInt32.le_iff_toNat_le, ge_iff_le] at hc
  rcases hc with hlower | hdigit
  · exact .inr hlower
  · exact .inl hdigit

theorem isPlainChar_cases {c : Char} (hc : isPlainChar c = true) :
    isLowerAlnum c = true ∨ c = '-' ∨ c = '_' ∨ c = '.' ∨ c = '/' := by
  simpa [isPlainChar, isLabelChar, or_assoc] using hc

theorem isSpace_of_isPlainChar {c : Char} (hc : isPlainChar c = true) : isSpace c = false := by
  rcases isPlainChar_cases hc with halnum | rfl | rfl | rfl | rfl
  · have hbound := toNat_of_isLowerAlnum halnum
    simp only [isSpace, Bool.or_eq_false_iff, Bool.and_eq_false_iff, decide_eq_false_iff_not]
    omega
  · decide
  · decide
  · decide
  · decide

theorem isUpper_of_isLowerAlnum {c : Char} (hc : isLowerAlnum c = true) : c.isUpper = false := by
  have hbound := toNat_of_isLowerAlnum hc
  have hcode : c.toNat = c.val.toNat := rfl
  rw [isUpper_eq, decide_eq_false_iff_not]
  rintro ⟨hfirst, hlast⟩
  have hupper : 65 ≤ c.val.toNat ∧ c.val.toNat ≤ 90 := ⟨hfirst, hlast⟩
  omega

/-- A plain character is in lower case. -/
theorem lower_of_isPlainChar {c : Char} (hc : isPlainChar c = true) :
    (if c.toNat = 0x212A then 'k' else c.toLower) = c := by
  rcases isPlainChar_cases hc with halnum | rfl | rfl | rfl | rfl
  · have hbound := toNat_of_isLowerAlnum halnum
    rw [if_neg (by omega), toLower_of_not_isUpper (isUpper_of_isLowerAlnum halnum)]
  · decide
  · decide
  · decide
  · decide

/-- Nothing is stripped of a plain text. -/
theorem strip_of_plain {text : Text} (htext : ∀ c ∈ text, isPlainChar c = true) :
    strip (String.ofList text) = String.ofList text := by
  apply strip_eq_self
  intro c hc
  rw [String.toList_ofList] at hc
  exact isSpace_of_isPlainChar (htext c hc)

theorem lowerText_of_plain {text : Text} (htext : ∀ c ∈ text, isPlainChar c = true) :
    lowerText text = text :=
  List.map_congr_left (fun c hc => lower_of_isPlainChar (htext c hc)) |>.trans (List.map_id text)

theorem isPlainChar_of_isBounded {inner : Char → Bool} {most : ℕ} {text : Text}
    (hinner : ∀ c, inner c = true → isPlainChar c = true)
    (htext : isBounded inner most text = true) : ∀ c ∈ text, isPlainChar c = true := by
  unfold isBounded at htext
  split at htext
  · simp only [Bool.and_eq_true] at htext
    exact fun c hc => hinner c (List.all_eq_true.mp htext.2 c hc)
  · cases htext

/-- The pieces between separators are plain, and so is what they are pieces of. -/
theorem plain_of_split (separator : Char) {text : Text} (hseparator : isPlainChar separator = true)
    (hpieces : ∀ piece ∈ split separator text, ∀ c ∈ piece, isPlainChar c = true) :
    ∀ c ∈ text, isPlainChar c = true := by
  intro c hc
  by_cases hsame : c = separator
  · exact hsame ▸ hseparator
  · obtain ⟨piece, hpiece, hmem⟩ := mem_split hc hsame
    exact hpieces piece hpiece c hmem

theorem plain_of_isHostLabel {text : Text} (htext : isHostLabel text = true) :
    ∀ c ∈ text, isPlainChar c = true :=
  isPlainChar_of_isBounded (fun c hc => by simp [isPlainChar, hc]) htext

theorem plain_of_isAccount {text : Text} (htext : isAccount text = true) :
    ∀ c ∈ text, isPlainChar c = true := by
  apply plain_of_split '.' (by decide)
  unfold isAccount at htext
  split at htext
  · cases htext
  next first labels hsplit =>
    simp only [Bool.and_eq_true] at htext
    rw [hsplit]
    intro piece hpiece
    rcases List.mem_cons.mp hpiece with rfl | hlabel
    · apply isPlainChar_of_isBounded _ htext.1.1
      intro c hc
      simp only [Bool.or_eq_true, decide_eq_true_eq] at hc
      rcases hc with hc | hc <;> simp [isPlainChar, hc]
    · exact plain_of_isHostLabel (List.all_eq_true.mp htext.2 piece hlabel)

theorem plain_of_isWorkspaceHost {text : Text} (htext : isWorkspaceHost text = true) :
    ∀ c ∈ text, isPlainChar c = true := by
  unfold isWorkspaceHost at htext
  rw [Bool.and_eq_true] at htext
  exact plain_of_split '.' (by decide) fun piece hpiece =>
    plain_of_isHostLabel (List.all_eq_true.mp htext.1 piece hpiece)

/-- A text that starts with a plain one is plain if the rest is. -/
theorem plain_of_drop {start text : Text} (hstarts : start.isPrefixOf text = true)
    (hstart : start.all isPlainChar = true)
    (hrest : ∀ c ∈ text.drop start.length, isPlainChar c = true) :
    ∀ c ∈ text, isPlainChar c = true := by
  obtain ⟨rest, rfl⟩ := List.isPrefixOf_iff_prefix.mp hstarts
  rw [List.drop_left] at hrest
  intro c hc
  rcases List.mem_append.mp hc with hfirst | hlast
  · exact List.all_eq_true.mp hstart c hfirst
  · exact hrest c hlast

theorem plain_of_isWarehousePath {text : Text} (htext : isWarehousePath text = true) :
    ∀ c ∈ text, isPlainChar c = true := by
  simp only [isWarehousePath, Bool.and_eq_true] at htext
  apply plain_of_drop htext.1.1 (by decide)
  intro c hc
  simp [isPlainChar, isLabelChar, List.all_eq_true.mp htext.2 c hc]

theorem plain_of_isClusterPath {text : Text} (htext : isClusterPath text = true) :
    ∀ c ∈ text, isPlainChar c = true := by
  unfold isClusterPath at htext
  dsimp only at htext
  split at htext
  next workspace cluster hsplit =>
    simp only [Bool.and_eq_true] at htext
    apply plain_of_drop htext.1.1.1 (by decide)
    apply plain_of_split '/' (by decide)
    rw [hsplit]
    intro piece hpiece
    rcases List.mem_cons.mp hpiece with rfl | hlast
    · intro c hc
      simp [isPlainChar, isLabelChar, isLowerAlnum, List.all_eq_true.mp htext.1.2 c hc]
    · rw [List.mem_singleton.mp hlast]
      exact isPlainChar_of_isBounded (fun c hc => by simp [isPlainChar, hc]) htext.2
  · cases htext

/-! ## Hyphens for underscores -/

theorem hyphen_of_isLowerAlnum {c : Char} (hc : isLowerAlnum c = true) :
    (if c = '_' then '-' else c) = c := by
  apply if_neg
  rintro rfl
  cases hc

/-- The pieces of a text in which no separator comes or goes. -/
theorem split_map {separator : Char} {f : Char → Char} (hf : ∀ c, f c = separator ↔ c = separator)
    (text : Text) : split separator (text.map f) = (split separator text).map (·.map f) := by
  induction text with
  | nil => rfl
  | cons c text ih =>
    by_cases hc : c = separator
    · rw [hc, List.map_cons, (hf separator).mpr rfl, split_cons_separator, split_cons_separator,
        ih, List.map_cons, List.map_nil]
    · unfold split at ih ⊢
      rw [List.map_cons, List.foldr_cons, List.foldr_cons, if_neg hc, if_neg (hc ∘ (hf c).mp), ih]
      cases List.foldr _ _ text <;> rfl

theorem isBounded_hyphenated {inner other : Char → Bool} {most : ℕ} {text : Text}
    (hinner : ∀ c, inner c = true → other (if c = '_' then '-' else c) = true)
    (htext : isBounded inner most text = true) : isBounded other most (hyphenated text) = true := by
  unfold isBounded at htext ⊢
  unfold hyphenated
  rw [List.head?_map, List.getLast?_map, List.length_map, List.all_map]
  split at htext
  next first last hfirst hlast =>
    simp only [Bool.and_eq_true] at htext
    obtain ⟨⟨⟨hhead, hback⟩, hlength⟩, hall⟩ := htext
    rw [hfirst, hlast]
    simp only [Option.map_some, hyphen_of_isLowerAlnum hhead, hyphen_of_isLowerAlnum hback, hhead,
      hback, hlength, Bool.and_self, Bool.true_and]
    exact List.all_eq_true.mpr fun c hc => hinner c (List.all_eq_true.mp hall c hc)
  · cases htext

/-- A normalized account is an account. -/
theorem isAccount_hyphenated {text : Text} (htext : isAccount text = true) :
    isAccount (hyphenated text) = true := by
  have hkeeps : ∀ c, isLabelChar c = true → isLabelChar (if c = '_' then '-' else c) = true := by
    intro c hc
    split
    · rfl
    · exact hc
  unfold isAccount at htext ⊢
  rw [show split '.' (hyphenated text) = (split '.' text).map hyphenated from
    split_map (fun c => by split <;> simp_all) text]
  split at htext
  · cases htext
  next first labels hsplit =>
    simp only [Bool.and_eq_true] at htext
    obtain ⟨⟨hfirst, hcount⟩, hlabels⟩ := htext
    rw [hsplit]
    simp only [List.map_cons, List.length_map, hcount, Bool.and_eq_true, and_true]
    apply And.intro
    · apply isBounded_hyphenated _ hfirst
      intro c hc
      split
      · rfl
      · exact hc
    · rw [List.all_map]
      exact List.all_eq_true.mpr fun label hlabel =>
        isBounded_hyphenated hkeeps (List.all_eq_true.mp hlabels label hlabel)

/-- No URL comes into being. -/
theorem hasUrlPart_hyphenated {text : Text} (htext : hasUrlPart text = false) :
    hasUrlPart (hyphenated text) = false := by
  unfold hasUrlPart at htext ⊢
  rw [Bool.or_eq_false_iff, decide_eq_false_iff_not] at htext ⊢
  apply And.intro
  · rintro ⟨before, after, hparts⟩
    apply htext.1
    obtain ⟨start, back, rfl, hstart, -⟩ := List.map_eq_append_iff.mp hparts.symm
    obtain ⟨front, own, rfl, -, hown⟩ := List.map_eq_append_iff.mp hstart
    have hsame : own = snowflakeDomain := by
      rw [← hown]
      refine (List.map_id own).symm.trans (List.map_congr_left fun c hc => ?_)
      have hmem : (if c = '_' then '-' else c) ∈ snowflakeDomain := hown ▸ List.mem_map_of_mem hc
      split at hmem
      · exact absurd hmem (by decide)
      next hne => rw [if_neg hne, id]
    exact ⟨front, back, by rw [hsame]⟩
  · rw [List.any_eq_false] at htext ⊢
    intro c hc
    obtain ⟨own, hown, rfl⟩ := List.mem_map.mp hc
    split
    · decide
    · exact htext.2 own hown

theorem hyphenated_hyphenated (text : Text) : hyphenated (hyphenated text) = hyphenated text := by
  unfold hyphenated
  rw [List.map_map]
  refine List.map_congr_left fun c _ => ?_
  show (if (if c = '_' then '-' else c) = '_' then '-' else if c = '_' then '-' else c) = _
  by_cases hc : c = '_'
  · rw [if_pos hc]
    rfl
  · rw [if_neg hc, if_neg hc]

/-! ## What the runner makes of it -/

variable {shown : Value → String} {libraries : Libraries} {config : Config} {text : String}

theorem str_orElse (value : String) : (Value.str value).orElse (.str "") = .str value := by
  by_cases hempty : value = ""
  · rw [hempty]
    rfl
  · exact if_pos (decide_eq_true hempty)

/-- The runner reads a plain value as it is. -/
theorem nameText_of_plain {normalized : Text} (hplain : ∀ c ∈ normalized, isPlainChar c = true) :
    libraries.nameText (.str (String.ofList normalized)) = normalized := by
  rw [Libraries.nameText, str_orElse, Libraries.str, String.toList_ofList, strip_of_plain hplain,
    String.toList_ofList, lowerText_of_plain hplain]

/-- The runner takes a normalized account exactly when it is not too long. -/
theorem normalizeAccount_iff {account : Text} (hshape : isAccount account = true)
    (hurl : hasUrlPart account = false)
    (hconfig : config.value "account" = .str (String.ofList (hyphenated account))) :
    libraries.normalizeAccount config = .ok (hyphenated account) ↔ account.length ≤ 255 := by
  have hnormalized := isAccount_hyphenated hshape
  have hne : hyphenated account ≠ [] := by
    intro hempty
    rw [hempty] at hnormalized
    cases hnormalized
  unfold Libraries.normalizeAccount
  rw [hconfig, nameText_of_plain (plain_of_isAccount hnormalized)]
  dsimp only
  rw [if_neg hne, hasUrlPart_hyphenated hurl, if_neg Bool.false_ne_true, hnormalized,
    hyphenated_hyphenated]
  have hlength : (hyphenated account).length = account.length := List.length_map _
  rw [hlength]
  split
  next hlong => exact iff_of_false nofun (by simpa using hlong)
  next hshort => exact iff_of_true rfl (by simpa using hshort)

theorem normalizeWorkspaceHost_eq {host : Text} (hne : host ≠ []) (hlength : ¬ 253 < host.length)
    (hshape : isWorkspaceHost host = true)
    (hconfig : config.value "host" = .str (String.ofList host)) :
    libraries.normalizeWorkspaceHost config = .ok host := by
  unfold Libraries.normalizeWorkspaceHost
  rw [hconfig, nameText_of_plain (plain_of_isWorkspaceHost hshape)]
  simp [hne, hlength, hshape]

theorem normalizeHttpPath_eq {path : Text} (hne : path ≠ [])
    (hshape : ¬ (isWarehousePath path = false ∧ isClusterPath path = false))
    (hconfig : config.value "http_path" = .str (String.ofList path)) :
    libraries.normalizeHttpPath config = .ok path := by
  have hplain : ∀ c ∈ path, isPlainChar c = true := by
    rcases Bool.eq_false_or_eq_true (isWarehousePath path) with hpath | hpath
    · exact plain_of_isWarehousePath hpath
    · exact plain_of_isClusterPath (by simpa [hpath] using hshape)
  unfold Libraries.normalizeHttpPath
  rw [hconfig, str_orElse, Libraries.str, String.toList_ofList, strip_of_plain hplain,
    String.toList_ofList]
  exact if_neg (not_or.mpr ⟨hne, hshape⟩)

/-! ## Names -/

theorem legacyDbtCliFlags_eq : legacyDbtCliFlags = legacyOptions.map ("DBT_" ++ ·) := by
  decide +kernel

/-- The two sides have the same list of options. -/
theorem forbiddenDbtCliEnvVars_eq : forbiddenDbtCliEnvVars = fallbackDbtCliEnvVars := by
  have hengine (name : String) : withoutDbt ("DBT_" ++ name) = name := by
    have hstarts : startsWith ("DBT_" ++ name) "DBT_" = true := by
      rw [startsWith, List.isPrefixOf_iff_prefix, String.toList_append]
      exact List.prefix_append _ _
    rw [withoutDbt, if_pos hstarts, String.toList_append]
    exact String.ofList_toList
  unfold forbiddenDbtCliEnvVars fallbackDbtCliEnvVars
  rw [legacyDbtCliFlags_eq, List.map_map]
  simp only [Function.comp_def, hengine]

theorem isAdmittedName_of_isEnvName {name : String} (hname : isEnvName name = true) :
    isAdmittedName name = true := by
  unfold isEnvName at hname
  unfold isAdmittedName
  cases hlist : name.toList with
  | nil =>
    rw [hlist] at hname
    cases hname
  | cons first rest =>
    rw [hlist] at hname
    simp only [Bool.and_eq_true, decide_eq_true_eq] at hname
    obtain ⟨⟨hfirst, hlength⟩, hrest⟩ := hname
    have hhead : isNameChar first = true := by
      simp only [Bool.or_eq_true, decide_eq_true_eq] at hfirst
      rcases hfirst with halpha | rfl
      · simp [isNameChar, Char.isAlphanum, halpha]
      · decide
    simp only [List.length_cons, hfirst, List.all_cons, hhead, Bool.and_true, Bool.true_and,
      Bool.and_eq_true, decide_eq_true_eq]
    exact ⟨by omega, hrest⟩

/-- The two sides forbid a name for the same reason. -/
theorem forbiddenReason_eq (name : String) :
    forbiddenDbtEnvironmentReason fallbackDbtCliEnvVars name false =
      getForbiddenEnvVarReason name := by
  have hoptions (normalized : String) : normalized ∈ dbtCliEnvVars fallbackDbtCliEnvVars ↔
      normalized ∈ forbiddenDbtCliEnvVars := by
    rw [dbtCliEnvVars, List.mem_append, or_self, forbiddenDbtCliEnvVars_eq]
  have hloading : ["PYTHON", "LD_", "DYLD_", "UV_"].any (startsWith (upper name)) =
      (startsWith (upper name) "PYTHON" || startsWith (upper name) "LD_" ||
        startsWith (upper name) "DYLD_" || startsWith (upper name) "UV_") := by
    simp [Bool.or_assoc]
  unfold forbiddenDbtEnvironmentReason getForbiddenEnvVarReason
  dsimp only
  rw [hloading, Bool.not_false, Bool.true_and]
  exact if_congr (hoptions _) rfl rfl

theorem sanitize_of_valid (hvalid : validateEnvVarName text = .ok ()) (value : String) :
    sanitizeDbtEnvironment fallbackDbtCliEnvVars [(text, value)] false =
      .ok (Environ.empty.set text value) := by
  unfold validateEnvVarName at hvalid
  split at hvalid
  · cases hvalid
  · split at hvalid
    · cases hvalid
    next hname =>
      have hadmitted := isAdmittedName_of_isEnvName (by simpa using hname)
      split at hvalid
      · cases hvalid
      next hreason =>
        have hstep : sanitizeItem fallbackDbtCliEnvVars false Environ.empty (text, value) =
            .ok (Environ.empty.set text value) := by
          rw [sanitizeItem_eq_ok, strip_of_isAdmittedName hadmitted]
          exact .inr ⟨hadmitted, (forbiddenReason_eq text).trans hreason, rfl⟩
        rw [sanitizeDbtEnvironment, List.foldlM_cons, hstep]
        rfl

/-! ## The bound on an account -/

theorem fitsAccount_of_refines (hrefines : Refines shown libraries text) : FitsAccount text := by
  intro hshape hurl
  have hne : lowerText (trim text.toList) ≠ [] := by
    intro hempty
    rw [hempty] at hshape
    cases hshape
  have hsaved : normalizeSnowflakeAccount shown (some (.str text)) =
      some (hyphenated (lowerText (trim text.toList))) :=
    if_neg (by simp [stringOf, hne, hshape, hurl])
  exact (normalizeAccount_iff hshape hurl rfl).mp (hrefines.account _ [("account", _)] hsaved rfl)

/-- **When saved values pass the runner.** What the frontend accepts the runner accepts, and
leaves as it is, exactly when an account has at most 255 characters. -/
theorem refines_iff (shown : Value → String) (libraries : Libraries) (text : String) :
    Refines shown libraries text ↔ FitsAccount text := by
  apply Iff.intro fitsAccount_of_refines
  intro hfits
  refine ⟨fun normalized config hsaved hconfig => ?_, fun normalized config hsaved hconfig => ?_,
    fun normalized config hsaved hconfig => ?_, fun value hvalid => sanitize_of_valid hvalid value⟩
  · obtain ⟨haccepted, hsame⟩ := Option.ite_none_left_eq_some.mp hsaved
    obtain rfl := Option.some.inj hsame
    simp only [not_or, Bool.not_eq_true, Bool.not_eq_false] at haccepted
    obtain ⟨-, hurl, hshape⟩ := haccepted
    exact (normalizeAccount_iff hshape hurl hconfig).mpr (hfits hshape hurl)
  · obtain ⟨haccepted, hsame⟩ := Option.ite_none_left_eq_some.mp hsaved
    obtain rfl := Option.some.inj hsame
    simp only [not_or, Bool.not_eq_false] at haccepted
    exact normalizeWorkspaceHost_eq haccepted.1 haccepted.2.1 haccepted.2.2 hconfig
  · obtain ⟨haccepted, hsame⟩ := Option.ite_none_left_eq_some.mp hsaved
    obtain rfl := Option.some.inj hsame
    rw [not_or] at haccepted
    exact normalizeHttpPath_eq haccepted.1 haccepted.2 hconfig

/-- A locator of 246 characters and a region: no label is too long, but the account is. -/
def longAccount : Text := List.replicate 246 'a' ++ ".eu-west-1".toList

theorem not_refines_of_long_account :
    ¬ ∀ shown libraries text, Refines shown libraries text := by
  intro hclaim
  have hrefines := hclaim (fun _ => "") Services.ConnectionTargets.sampleLibraries
    (String.ofList longAccount)
  have hfits := fitsAccount_of_refines hrefines
  unfold FitsAccount at hfits
  rw [String.toList_ofList] at hfits
  have hlong : isAccount (lowerText (trim longAccount)) = true ∧
      hasUrlPart (lowerText (trim longAccount)) = false ∧
      255 < (lowerText (trim longAccount)).length := by decide +kernel
  exact absurd (hfits hlong.1 hlong.2.1) (not_le.mpr hlong.2.2)

end DbtCraft.Server.Connections
