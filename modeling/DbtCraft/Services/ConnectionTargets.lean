/-
# Targets of connections

`app/services/connection_targets.py`: the host and port of a config that the host guard is
asked about, and what the adapter of its type then dials. The guard reads one key with one
default. The adapters of Snowflake and Databricks dial the host that it reads. The others
have defaults of their own, and Dremio has other keys.
-/

import DbtCraft.Adapters.Dialling
import Mathlib.Data.List.TakeWhile

namespace DbtCraft.Services.ConnectionTargets

open DbtCraft.Python DbtCraft.Adapters DbtCraft.Adapters.Libraries
open DbtCraft.Services.ConnectionConfig (Config Config.value intOfText)

/-- `HOSTLESS_TYPES`. -/
def hostlessTypes : List String := ["duckdb", "spark"]

/-- What `assert_host_allowed` is asked about. -/
abbrev Asked := Text × Option ℤ

/-- `int(value)`: `none` is an exception that is caught, an infinity raises another one. -/
def intOf (value : Value) : Except Raised (Option ℤ) :=
  match value with
  | .int own | .float _ own => .ok (some own)
  | .bool own => .ok (some (if own then 1 else 0))
  | .str own => .ok (intOfText own)
  | .nonFinite repr => if repr = "nan" then .ok none else .error .overflowError
  | .none | .list _ | .dict _ | .object _ _ => .ok none

/-- The port of `target_endpoint`. -/
def portOf (config : Config) : Except Raised (Option ℤ) :=
  if (config.value "port").truthy then intOf (config.value "port") else .ok none

variable (libraries : Libraries) (config : Config)

/-- The host of `target_endpoint`. -/
def hostOf : Text := (strip (String.ofList (libraries.str ((config.value "host").orElse (.str ""))))).toList

/-- `target_endpoint`. -/
def targetEndpoint (connType : String) : Except Raised Asked :=
  if connType = "snowflake" then
    match libraries.normalizeAccount config with
    | .ok account => .ok (accountHost account, some snowflakePort)
    | .error message => .error (.hostNotAllowed message)
  else if connType = "databricks" then
    match libraries.normalizeWorkspaceHost config with
    | .ok host => .ok (host, some databricksPort)
    | .error message => .error (.hostNotAllowed message)
  else (portOf config).map fun port => (hostOf libraries config, port)

/-- What `assert_connection_target_allowed` asks the guard, if anything. -/
def asked (connType : String) : Except Raised (Option Asked) :=
  if connType ∈ hostlessTypes then .ok none
  else (targetEndpoint libraries config connType).map fun endpoint =>
    if endpoint.1 = [] then none else some endpoint

/-- `assert_connection_target_allowed`. -/
def assertConnectionTargetAllowed (assertHostAllowed : Text → Option ℤ → Except Raised Unit)
    (connType : String) : Except Raised Unit := do
  match ← asked libraries config connType with
  | none => return ()
  | some (host, port) => assertHostAllowed host port

/-! ## What is checked is what is dialled -/

/-- Every endpoint that the adapter dials is the one that the guard has been asked about,
and one that the guard is never asked about dials none. -/
def Guarded (connType : String) : Prop :=
  ∀ endpoint ∈ libraries.dialled config connType, ∃ host,
    asked libraries config connType = .ok (some (host, some endpoint.2)) ∧
      lowered host = lowered endpoint.1

/-- What the adapter hands to its library is plain: its documentation says what is dialled. -/
def PlainTarget (connType : String) : Prop :=
  match connType with
  | "postgresql" => ∃ host port, config.value "host" = .str host ∧
      getOr config "port" (.int 5432) = .int port ∧ isPlainHost host.toList = true ∧ IsPort port
  | "oracle" => ∃ host port, config.value "host" = .str host ∧
      getOr config "port" (.int 1521) = .int port ∧ isPlainHost host.toList = true ∧
      IsPort port ∧ isPlainService (libraries.str (config.value "service")) = true
  | "dremio" => libraries.isFloat (getOr config "test_timeout" (.float "15.0" 15)) = true ∧
      if isCloud config then isPlainName (libraries.cloudHost config) = true
      else isPlainName (libraries.dremioHost config) = true ∧
        ∃ port, getOr config "port" (.int 9047) = .int port ∧ IsPort port
  | "duckdb" => isLocalPath (libraries.duckdbPath config) = true ∧ libraries.extensions config = []
  | _ => True

/-- The keys that the adapter reads are those that the guard is asked about. -/
def SameKeys (connType : String) : Prop :=
  match connType with
  | "postgresql" | "oracle" => (config.get "port").isSome = true
  | "dremio" =>
    if isCloud config then
      lowered (hostOf libraries config) = lowered (libraries.cloudHost config) ∧
        portOf config = .ok (some 443)
    else (config.value "host").truthy = true ∧ (config.get "port").isSome = true
  | _ => True

variable {libraries : Libraries} {config : Config} {connType : String} {host : Text}
  {port : Option ℤ}

/-! ## What the guard is asked -/

theorem isSpace_of_isHostChar {c : Char} (hc : isHostChar c = true) : isSpace c = false := by
  simp only [isHostChar, Bool.or_eq_true, decide_eq_true_eq] at hc
  rcases hc with ((halnum | rfl) | rfl) | rfl
  · exact isSpace_of_isAlphanum halnum
  · decide
  · decide
  · decide

theorem isPlainHost_of_isPlainName (hname : isPlainName host = true) : isPlainHost host = true :=
  (Bool.and_eq_true_iff.mp hname).1

theorem lowered_lowered (host : Text) : lowered (lowered host) = lowered host := by
  unfold lowered
  rw [List.map_map]
  exact List.map_congr_left fun c _ => toLower_toLower c

/-- A plain host is asked about as it is. -/
theorem hostOf_of_isPlainHost (htruthy : (config.value "host").truthy = true)
    (hplain : isPlainHost (libraries.str (config.value "host")) = true) :
    hostOf libraries config = libraries.str (config.value "host") := by
  unfold hostOf Value.orElse
  rw [if_pos htruthy, strip_eq_self, String.toList_ofList]
  rw [String.toList_ofList]
  intro c hc
  exact isSpace_of_isHostChar
    (List.all_eq_true.mp (Bool.and_eq_true_iff.mp hplain).2 c hc)

theorem ne_nil_of_isPlainHost (hplain : isPlainHost host = true) : host ≠ [] :=
  of_decide_eq_true (Bool.and_eq_true_iff.mp hplain).1

/-- Without a host nothing is asked. -/
theorem truthy_of_hostOf_ne_nil (hhost : hostOf libraries config ≠ []) :
    (config.value "host").truthy = true := by
  by_contra hfalsy
  apply hhost
  unfold hostOf Value.orElse
  rw [if_neg hfalsy]
  simp [Libraries.str, strip]

/-- A port that is given as a number is asked about. -/
theorem portOf_of_int {fallback : Value} {value : ℤ} (hsome : (config.get "port").isSome = true)
    (hvalue : getOr config "port" fallback = .int value) (hport : IsPort value) :
    portOf config = .ok (some value) := by
  obtain ⟨own, hown⟩ := Option.isSome_iff_exists.mp hsome
  have hsame : config.value "port" = .int value := by
    unfold getOr at hvalue
    unfold Config.value
    rw [hown] at hvalue ⊢
    exact hvalue
  unfold portOf
  rw [hsame, if_pos]
  · rfl
  · exact decide_eq_true (Int.ne_of_gt hport.1)

/-- A port that is missing is not. -/
theorem isSome_of_portOf {value : ℤ} (hport : portOf config = .ok (some value)) :
    (config.get "port").isSome = true := by
  cases hget : config.get "port" with
  | some own => rfl
  | none =>
    unfold portOf Config.value at hport
    rw [hget] at hport
    cases hport

/-- What is asked for a type whose host stands under `host`. -/
theorem asked_eq_some_iff (hhostless : connType ∉ hostlessTypes) (hsnowflake : connType ≠ "snowflake")
    (hdatabricks : connType ≠ "databricks") :
    asked libraries config connType = .ok (some (host, port)) ↔
      host = hostOf libraries config ∧ host ≠ [] ∧ portOf config = .ok port := by
  unfold asked targetEndpoint
  rw [if_neg hhostless, if_neg hsnowflake, if_neg hdatabricks]
  generalize hostOf libraries config = own
  cases portOf config with
  | error raised => exact ⟨(fun hnone => nomatch hnone), fun hall => (nomatch hall.2.2)⟩
  | ok ownPort =>
    dsimp only [Except.map]
    apply Iff.intro
    · intro hasked
      split at hasked
      · cases hasked
      next hne =>
        cases hasked
        exact ⟨rfl, hne, rfl⟩
    · rintro ⟨rfl, hne, hport⟩
      cases hport
      rw [if_neg hne]

/-! ## One type at a time -/

/-- Where one endpoint is dialled, with a host that stands under `host` and a port that may
be a default. -/
theorem guarded_iff_of_one_endpoint (dialledHost : Text) {fallback : Value} {value : ℤ}
    (hhostless : connType ∉ hostlessTypes) (hsnowflake : connType ≠ "snowflake")
    (hdatabricks : connType ≠ "databricks")
    (hdialled : libraries.dialled config connType = [(dialledHost, value)])
    (hhost : (config.value "host").truthy = true)
    (hplain : isPlainHost (libraries.str (config.value "host")) = true)
    (hsame : lowered dialledHost = lowered (libraries.str (config.value "host")))
    (hvalue : getOr config "port" fallback = .int value) (hport : IsPort value) :
    Guarded libraries config connType ↔ (config.get "port").isSome = true := by
  unfold Guarded
  rw [hdialled]
  apply Iff.intro
  · intro hguarded
    obtain ⟨own, hasked, -⟩ := hguarded _ (List.mem_singleton_self _)
    exact isSome_of_portOf ((asked_eq_some_iff hhostless hsnowflake hdatabricks).mp hasked).2.2
  · intro hsome endpoint hendpoint
    rw [List.mem_singleton] at hendpoint
    subst hendpoint
    refine ⟨libraries.str (config.value "host"),
      (asked_eq_some_iff hhostless hsnowflake hdatabricks).mpr
        ⟨(hostOf_of_isPlainHost hhost hplain).symm, ne_nil_of_isPlainHost hplain,
          portOf_of_int hsome hvalue hport⟩, hsame.symm⟩

theorem truthy_of_isPlainHost {own : String} (hplain : isPlainHost own.toList = true) :
    (Value.str own).truthy = true := by
  apply decide_eq_true
  rintro rfl
  exact ne_nil_of_isPlainHost hplain rfl

theorem guarded_postgresql_iff (hplain : PlainTarget libraries config "postgresql") :
    Guarded libraries config "postgresql" ↔ (config.get "port").isSome = true := by
  obtain ⟨own, value, hhost, hvalue, hname, hport⟩ := hplain
  apply guarded_iff_of_one_endpoint own.toList (by decide) (by decide) (by decide) _ _ _ _ hvalue
    hport
  · show libraries.postgresql config = _
    unfold postgresql
    rw [hhost, hvalue, libraries.asyncpg_plain own value hname hport]
  · rw [hhost]
    exact truthy_of_isPlainHost hname
  · rw [hhost]
    exact hname
  · rw [hhost]
    rfl

theorem guarded_oracle_iff (hplain : PlainTarget libraries config "oracle") :
    Guarded libraries config "oracle" ↔ (config.get "port").isSome = true := by
  obtain ⟨own, value, hhost, hvalue, hname, hport, hservice⟩ := hplain
  apply guarded_iff_of_one_endpoint own.toList (by decide) (by decide) (by decide) _ _ _ _ hvalue
    hport
  · show libraries.oracledb (libraries.dsn config) = _
    have hdsn : libraries.dsn config =
        own.toList ++ ':' :: digits value ++ '/' :: libraries.str (config.value "service") := by
      unfold dsn
      rw [hhost, hvalue, show libraries.str (.int value) = digits value from
        congrArg String.toList (libraries.shown_int value)]
      rfl
    rw [hdsn, libraries.oracledb_plain own.toList value _ hname hport hservice]
  · rw [hhost]
    exact truthy_of_isPlainHost hname
  · rw [hhost]
    exact hname
  · rw [hhost]
    rfl

/-- A Dremio server of one's own. -/
theorem guarded_software_iff (hcloud : isCloud config = false)
    (hplain : PlainTarget libraries config "dremio") :
    Guarded libraries config "dremio" ↔
      (config.value "host").truthy = true ∧ (config.get "port").isSome = true := by
  obtain ⟨hfloat, htarget⟩ := hplain
  rw [hcloud, if_neg Bool.false_ne_true] at htarget
  obtain ⟨hname, value, hvalue, hport⟩ := htarget
  have hdialled : libraries.dialled config "dremio" =
      [(lowered (libraries.dremioHost config), value)] := by
    show libraries.dremio config = _
    unfold dremio baseUrl
    rw [if_pos hfloat, hcloud, if_neg Bool.false_ne_true, hvalue,
      show libraries.str (.int value) = digits value from
        congrArg String.toList (libraries.shown_int value), libraries.httpx_port _ _ hname hport]
  cases htruthy : (config.value "host").truthy with
  | true =>
    have hhost : libraries.dremioHost config = libraries.str (config.value "host") := by
      unfold dremioHost Value.orElse
      rw [if_pos htruthy]
    rw [guarded_iff_of_one_endpoint (lowered (libraries.dremioHost config)) (by decide) (by decide)
      (by decide) hdialled htruthy _ _ hvalue hport]
    · exact ⟨fun hsome => ⟨rfl, hsome⟩, And.right⟩
    · rw [← hhost]
      exact isPlainHost_of_isPlainName hname
    · rw [lowered_lowered, hhost]
  | false =>
    -- The host is the one under `software_host`, which is not asked about.
    apply iff_of_false
    · intro hguarded
      rw [Guarded, hdialled] at hguarded
      obtain ⟨own, hasked, -⟩ := hguarded _ (List.mem_singleton_self _)
      obtain ⟨hown, hne, -⟩ :=
        (asked_eq_some_iff (by decide) (by decide) (by decide)).mp hasked
      rw [hown] at hne
      rw [truthy_of_hostOf_ne_nil hne] at htruthy
      cases htruthy
    · exact fun hboth => absurd hboth.1 Bool.false_ne_true

/-- Dremio Cloud. -/
theorem guarded_cloud_iff (hcloud : isCloud config = true)
    (hplain : PlainTarget libraries config "dremio") :
    Guarded libraries config "dremio" ↔
      lowered (hostOf libraries config) = lowered (libraries.cloudHost config) ∧
        portOf config = .ok (some 443) := by
  obtain ⟨hfloat, hname⟩ := hplain
  rw [hcloud, if_pos rfl] at hname
  have hdialled : libraries.dialled config "dremio" =
      [(lowered (libraries.cloudHost config), 443)] := by
    show libraries.dremio config = _
    unfold dremio baseUrl
    rw [if_pos hfloat, hcloud, if_pos rfl, libraries.httpx_default _ hname]
  unfold Guarded
  rw [hdialled]
  apply Iff.intro
  · intro hguarded
    obtain ⟨own, hasked, hsame⟩ := hguarded _ (List.mem_singleton_self _)
    obtain ⟨hown, -, hport⟩ := (asked_eq_some_iff (by decide) (by decide) (by decide)).mp hasked
    rw [lowered_lowered, hown] at hsame
    exact ⟨hsame, hport⟩
  · rintro ⟨hsame, hport⟩ endpoint hendpoint
    rw [List.mem_singleton] at hendpoint
    rw [hendpoint]
    have hne : hostOf libraries config ≠ [] := by
      intro hempty
      rw [hempty] at hsame
      exact ne_nil_of_isPlainHost (isPlainHost_of_isPlainName hname)
        (List.map_eq_nil_iff.mp hsame.symm)
    refine ⟨hostOf libraries config,
      (asked_eq_some_iff (by decide) (by decide) (by decide)).mpr ⟨rfl, hne, hport⟩, ?_⟩
    rw [lowered_lowered]
    exact hsame

/-- Snowflake is asked about and dialled at the host of its account. -/
theorem guarded_snowflake : Guarded libraries config "snowflake" := by
  intro endpoint hendpoint
  have hdialled : endpoint ∈ ((libraries.normalizeAccount config).toOption.map fun account =>
    (accountHost account, snowflakePort)).toList := hendpoint
  cases haccount : libraries.normalizeAccount config with
  | error message =>
    rw [haccount] at hdialled
    cases hdialled
  | ok account =>
    rw [haccount] at hdialled
    rw [show endpoint = (accountHost account, snowflakePort) from List.mem_singleton.mp hdialled]
    refine ⟨accountHost account, ?_, rfl⟩
    have htarget : targetEndpoint libraries config "snowflake" =
        .ok (accountHost account, some snowflakePort) := by
      unfold targetEndpoint
      rw [if_pos rfl, haccount]
    unfold asked
    rw [if_neg (by decide), htarget]
    dsimp only [Except.map]
    rw [if_neg (by unfold accountHost; simp)]

/-- Databricks is asked about and dialled at its workspace. -/
theorem guarded_databricks : Guarded libraries config "databricks" := by
  intro endpoint hendpoint
  have hdialled : endpoint ∈ ((libraries.normalizeWorkspaceHost config).toOption.map fun host =>
    (host, databricksPort)).toList := hendpoint
  cases hworkspace : libraries.normalizeWorkspaceHost config with
  | error message =>
    rw [hworkspace] at hdialled
    cases hdialled
  | ok host =>
    rw [hworkspace] at hdialled
    rw [show endpoint = (host, databricksPort) from List.mem_singleton.mp hdialled]
    refine ⟨host, ?_, rfl⟩
    have hne : host ≠ [] := by
      rintro rfl
      unfold normalizeWorkspaceHost at hworkspace
      dsimp only at hworkspace
      split_ifs at hworkspace with hempty
      exact hempty (Except.ok.inj hworkspace)
    have htarget : targetEndpoint libraries config "databricks" =
        .ok (host, some databricksPort) := by
      unfold targetEndpoint
      rw [if_neg (by decide), if_pos rfl, hworkspace]
    unfold asked
    rw [if_neg (by decide), htarget]
    dsimp only [Except.map]
    rw [if_neg hne]

theorem guarded_of_dialled_nil (hdialled : libraries.dialled config connType = []) :
    Guarded libraries config connType := by
  intro endpoint hendpoint
  rw [hdialled] at hendpoint
  exact absurd hendpoint List.not_mem_nil

theorem guarded_duckdb (hplain : PlainTarget libraries config "duckdb") :
    Guarded libraries config "duckdb" := by
  apply guarded_of_dialled_nil
  show libraries.duckdb (libraries.duckdbPath config) (libraries.extensions config) = []
  rw [hplain.2]
  exact libraries.duckdb_local _ hplain.1

/-! ## Every type -/

/-- **When what is checked is what is dialled.** Where the adapter hands plain arguments to
its library: exactly if the guard is asked about the keys that it reads. -/
theorem guarded_iff_sameKeys : PlainTarget libraries config connType →
    (Guarded libraries config connType ↔ SameKeys libraries config connType) := by
  intro hplain
  by_cases hpostgresql : connType = "postgresql"
  · subst hpostgresql
    exact guarded_postgresql_iff hplain
  by_cases horacle : connType = "oracle"
  · subst horacle
    exact guarded_oracle_iff hplain
  by_cases hdremio : connType = "dremio"
  · subst hdremio
    show _ ↔ if isCloud config then _ else _
    cases hcloud : isCloud config with
    | true => exact guarded_cloud_iff hcloud hplain
    | false =>
      rw [if_neg Bool.false_ne_true]
      exact guarded_software_iff hcloud hplain
  have hkeys : SameKeys libraries config connType := by
    unfold SameKeys
    split
    · exact absurd rfl hpostgresql
    · exact absurd rfl horacle
    · exact absurd rfl hdremio
    · exact trivial
  apply iff_of_true _ hkeys
  by_cases hduckdb : connType = "duckdb"
  · subst hduckdb
    exact guarded_duckdb hplain
  by_cases hsnowflake : connType = "snowflake"
  · subst hsnowflake
    exact guarded_snowflake
  by_cases hdatabricks : connType = "databricks"
  · subst hdatabricks
    exact guarded_databricks
  apply guarded_of_dialled_nil
  unfold dialled
  split
  · exact absurd rfl hpostgresql
  · exact absurd rfl horacle
  · exact absurd rfl hdremio
  · exact absurd rfl hduckdb
  · exact absurd rfl hsnowflake
  · exact absurd rfl hdatabricks
  · rfl

variable {assertHostAllowed : Text → Option ℤ → Except Raised Unit}

variable (libraries config) in
/-- Every endpoint that the adapter dials has been asked about and allowed. -/
def DialsAllowed (assertHostAllowed : Text → Option ℤ → Except Raised Unit) (connType : String) :
    Prop :=
  ∀ endpoint ∈ libraries.dialled config connType, ∃ host,
    asked libraries config connType = .ok (some (host, some endpoint.2)) ∧
      assertHostAllowed host (some endpoint.2) = .ok () ∧ lowered host = lowered endpoint.1

/-- What is asked about in an accepted config is allowed. -/
theorem dialsAllowed_iff_guarded
    (hallowed : assertConnectionTargetAllowed libraries config assertHostAllowed connType = .ok ()) :
    DialsAllowed libraries config assertHostAllowed connType ↔ Guarded libraries config connType := by
  apply Iff.intro
  · intro hdials endpoint hendpoint
    obtain ⟨host, hasked, -, hsame⟩ := hdials endpoint hendpoint
    exact ⟨host, hasked, hsame⟩
  · intro hguarded endpoint hendpoint
    obtain ⟨host, hasked, hsame⟩ := hguarded endpoint hendpoint
    unfold assertConnectionTargetAllowed at hallowed
    rw [hasked] at hallowed
    exact ⟨host, hasked, hallowed, hsame⟩

/-- The host and the port of a text, with a port that may be missing. -/
def readEndpoint (fallback : Option ℤ) (text : Text) : List Endpoint :=
  match text.dropWhile isHostChar, fallback with
  | [], some port => [(text.takeWhile isHostChar, port)]
  | ':' :: port, _ => [(text.takeWhile isHostChar, (Nat.ofDigitChars 10 port 0 : ℕ))]
  | _, _ => []

theorem ofDigitChars_digits {value : ℤ} (hport : IsPort value) :
    ((Nat.ofDigitChars 10 (digits value) 0 : ℕ) : ℤ) = value := by
  obtain ⟨number, rfl⟩ := Int.eq_ofNat_of_zero_le (Int.le_of_lt hport.1)
  have hdigits : digits (number : ℤ) = Nat.toDigits 10 number := String.toList_ofList
  rw [hdigits, Nat.ofDigitChars_ten_toDigits]

theorem readEndpoint_port (fallback : Option ℤ) (hplain : isPlainHost host = true) {value : ℤ}
    (hport : IsPort value) : readEndpoint fallback (host ++ ':' :: digits value) = [(host, value)] := by
  have hall : ∀ c ∈ host, isHostChar c = true :=
    List.all_eq_true.mp (Bool.and_eq_true_iff.mp hplain).2
  have hcolon : isHostChar ':' = false := by decide
  unfold readEndpoint
  rw [List.dropWhile_append_of_pos hall, List.takeWhile_append_of_pos hall,
    List.dropWhile_cons_of_neg (by simp [hcolon]), List.takeWhile_cons_of_neg (by simp [hcolon]),
    List.append_nil]
  exact congrArg (fun port => [(host, port)]) (ofDigitChars_digits hport)

theorem readEndpoint_bare (hplain : isPlainHost host = true) (value : ℤ) :
    readEndpoint (some value) host = [(host, value)] := by
  have hall : ∀ c ∈ host, isHostChar c = true :=
    List.all_eq_true.mp (Bool.and_eq_true_iff.mp hplain).2
  unfold readEndpoint
  rw [List.dropWhile_eq_nil_iff.mpr hall, List.takeWhile_eq_self_iff.mpr hall]

/-- The endpoint of a URL. -/
def readUrl (url : Text) : List Endpoint :=
  let lower (endpoint : Endpoint) : Endpoint := (lowered endpoint.1, endpoint.2)
  if "https://".toList.isPrefixOf url then
    (readEndpoint (some 443) (url.drop 8)).map lower
  else (readEndpoint (some 80) (url.drop 7)).map lower

/-- The endpoint of a DSN, before its last slash. -/
def readDsn (text : Text) : List Endpoint :=
  readEndpoint (some 1521) ((text.reverse.dropWhile (· ≠ '/')).drop 1).reverse

theorem readDsn_plain {service : Text} {value : ℤ} (hplain : isPlainHost host = true)
    (hport : IsPort value) (hservice : isPlainService service = true) :
    readDsn (host ++ ':' :: digits value ++ '/' :: service) = [(host, value)] := by
  have hslash : ∀ c ∈ service.reverse, decide (c ≠ '/') = true := by
    intro c hc
    have hchar := List.all_eq_true.mp (Bool.and_eq_true_iff.mp hservice).2 c (List.mem_reverse.mp hc)
    apply decide_eq_true
    rintro rfl
    exact absurd hchar (by decide)
  unfold readDsn
  rw [List.reverse_append, List.reverse_cons, List.append_assoc,
    List.dropWhile_append_of_pos hslash, List.singleton_append,
    List.dropWhile_cons_of_neg (by simp), List.drop_one, List.tail_cons, List.reverse_reverse]
  exact readEndpoint_port _ hplain hport

/-- Libraries that connect to what their arguments say. -/
def sampleLibraries : Libraries where
  shown value := match value with | .int own => toString own | _ => "None"
  shown_int _ := rfl
  isFloat _ := true
  asyncpg host port := match host, port with
    | .str own, .int value => [(own.toList, value)]
    | _, _ => []
  asyncpg_plain _ _ _ _ := rfl
  httpx := readUrl
  httpx_port host port hname hport := by
    show (readEndpoint (some 80) (host ++ ':' :: digits port)).map _ = _
    rw [readEndpoint_port _ (isPlainHost_of_isPlainName hname) hport]
    rfl
  httpx_default host hname := by
    show (readEndpoint (some 443) host).map _ = _
    rw [readEndpoint_bare (isPlainHost_of_isPlainName hname)]
    rfl
  oracledb := readDsn
  oracledb_plain _ _ _ hplain hport hservice := readDsn_plain hplain hport hservice
  duckdb _ _ := []
  duckdb_local _ _ := rfl

/-- A connection to a Postgres of one's own. -/
def plainConfig : Config := [("host", .str "db.example"), ("port", .int 5432)]

/-- A Dremio Cloud whose host is another one. -/
def cloudConfig : Config := [("is_cloud", .bool true), ("cloud_host", .str "vault.internal")]

end DbtCraft.Services.ConnectionTargets
