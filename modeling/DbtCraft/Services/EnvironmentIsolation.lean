/-
# Isolation of the variables of dbt

Which value a name has in the environment of dbt: a name that only the server sets has
the value of the profile, or else the one of the server's own environment, however the
user's layers spell and overlap their names. A warm worker gives a job what a child
process gets, and has its own environment back after it.
-/

import DbtCraft.Services.DbtEnvironment
import DbtCraft.Services.ProfileSecrets

namespace DbtCraft.Services.DbtEnvironment

open DbtCraft.Math DbtCraft.Python DbtCraft.Services.ConnectionConfig

variable {discovered : List String} {allow : Bool} {raw : List (String × String)}
  {env : Environ} {name value : String}

/-- A name that the user's layers can set. -/
def Settable (discovered : List String) (name : String) : Prop :=
  isAdmittedName name = true ∧ forbiddenDbtEnvironmentReason discovered name false = none

/-! ## Admitted names -/

theorem all_of_isAdmittedName (hname : isAdmittedName name = true) :
    ∀ c ∈ name.toList, isNameChar c = true := by
  unfold isAdmittedName at hname
  split at hname
  · cases hname
  next first rest hlist =>
    simp only [Bool.and_eq_true] at hname
    exact hlist ▸ List.all_eq_true.mp hname.2

/-- Nothing is stripped of an admitted name. -/
theorem strip_of_isAdmittedName (hname : isAdmittedName name = true) : strip name = name := by
  apply strip_eq_self
  intro c hc
  have hchar := all_of_isAdmittedName hname c hc
  simp only [isNameChar, Bool.or_eq_true, decide_eq_true_eq] at hchar
  rcases hchar with hletter | rfl
  · exact isSpace_of_isAlphanum hletter
  · decide

/-! ## Sanitized environments -/

/-- A turn of the loop that returns has left the item out, or has set its stripped name. -/
theorem sanitizeItem_eq_ok {sanitized next : Environ} {item : String × String} :
    sanitizeItem discovered allow sanitized item = .ok next ↔
      (isAdmittedName (strip item.1) = false ∧ next = sanitized) ∨
      (isAdmittedName (strip item.1) = true ∧
        forbiddenDbtEnvironmentReason discovered (strip item.1) allow = none ∧
        next = sanitized.set (strip item.1) item.2) := by
  simp only [sanitizeItem]
  cases hadmitted : isAdmittedName (strip item.1) with
  | false =>
    rw [if_pos rfl, Except.ok.injEq]
    apply Iff.intro
    · exact fun hsame => .inl ⟨rfl, hsame.symm⟩
    · intro hstep
      rcases hstep with ⟨-, hsame⟩ | ⟨hnone, -⟩
      · exact hsame.symm
      · cases hnone
  | true =>
    rw [if_neg (by decide)]
    cases hreason : forbiddenDbtEnvironmentReason discovered (strip item.1) allow with
    | some reason =>
      apply iff_of_false
      · intro hnone
        cases hnone
      · intro hstep
        rcases hstep with ⟨hnone, -⟩ | ⟨-, hnone, -⟩
        · cases hnone
        · cases hnone
    | none =>
      rw [Except.ok.injEq]
      apply Iff.intro
      · exact fun hsame => .inr ⟨rfl, rfl, hsame.symm⟩
      · intro hstep
        rcases hstep with ⟨hnone, -⟩ | ⟨-, -, hsame⟩
        · cases hnone
        · exact hsame.symm

/-- What a name has after the loop it had before, or has from an item of that name, which
is admitted and not forbidden. -/
theorem mem_of_get_foldlM_sanitizeItem {sanitized : Environ}
    (hsanitize : raw.foldlM (sanitizeItem discovered allow) sanitized = .ok env)
    (hget : env.get name = some value) :
    sanitized.get name = some value ∨
      (∃ item ∈ raw, strip item.1 = name ∧ item.2 = value) ∧ isAdmittedName name = true ∧
        forbiddenDbtEnvironmentReason discovered name allow = none := by
  induction raw generalizing sanitized with
  | nil =>
    cases hsanitize
    exact .inl hget
  | cons first rest ih =>
    rw [List.foldlM_cons] at hsanitize
    obtain ⟨next, hnext, hrest⟩ := bind_eq_ok.mp hsanitize
    rcases ih hrest with hbefore | ⟨⟨item, hitem, hname⟩, hallowed⟩
    · rcases sanitizeItem_eq_ok.mp hnext with ⟨-, rfl⟩ | ⟨hadmitted, hreason, rfl⟩
      · exact .inl hbefore
      · rw [Environ.get_set] at hbefore
        split at hbefore
        next hsame =>
          subst hsame
          exact .inr ⟨⟨first, List.mem_cons_self, rfl, Option.some_inj.mp hbefore⟩, hadmitted,
            hreason⟩
        · exact .inl hbefore
    · exact .inr ⟨⟨item, List.mem_cons_of_mem _ hitem, hname⟩, hallowed⟩

theorem mem_of_get_sanitize (hsanitize : sanitizeDbtEnvironment discovered raw allow = .ok env)
    (hget : env.get name = some value) :
    (∃ item ∈ raw, strip item.1 = name ∧ item.2 = value) ∧ isAdmittedName name = true ∧
      forbiddenDbtEnvironmentReason discovered name allow = none := by
  rcases mem_of_get_foldlM_sanitizeItem hsanitize hget with hempty | hfound
  · cases hempty
  · exact hfound

/-- A name that an admitted item sets is there after the loop. -/
theorem get_foldlM_sanitizeItem_ne_none {sanitized : Environ}
    (hsanitize : raw.foldlM (sanitizeItem discovered allow) sanitized = .ok env)
    (hname : sanitized.get name ≠ none ∨
      ∃ item ∈ raw, strip item.1 = name ∧ isAdmittedName name = true) :
    env.get name ≠ none := by
  induction raw generalizing sanitized with
  | nil =>
    cases hsanitize
    rcases hname with hbefore | ⟨item, hitem, -⟩
    · exact hbefore
    · cases hitem
  | cons first rest ih =>
    rw [List.foldlM_cons] at hsanitize
    obtain ⟨next, hnext, hrest⟩ := bind_eq_ok.mp hsanitize
    apply ih hrest
    rcases hname with hbefore | ⟨item, hitem, hstrip, hadmitted⟩
    · left
      rcases sanitizeItem_eq_ok.mp hnext with ⟨-, rfl⟩ | ⟨-, -, rfl⟩
      · exact hbefore
      · rw [Environ.get_set]
        split
        · exact Option.some_ne_none _
        · exact hbefore
    · rcases List.mem_cons.mp hitem with rfl | hmem
      · left
        rw [← hstrip] at hadmitted ⊢
        rcases sanitizeItem_eq_ok.mp hnext with ⟨hleft, -⟩ | ⟨-, -, rfl⟩
        · exact absurd hadmitted (by simp [hleft])
        · simp
      · exact .inr ⟨item, hmem, hstrip, hadmitted⟩

/-! ## The variables of a run -/

section

variable {decrypt : Decrypt} {request environ dbtEnv : Environ} {args : List String} {rows : List PersistedVariable}
  {profile : ProfileEnv} {item : String × String}

/-- What a single variable that is sanitized for its name says of it. -/
theorem reason_of_sanitize_single
    (hsanitize : sanitizeDbtEnvironment discovered [(name, value)] false = .ok env)
    (hadmitted : isAdmittedName (strip name) = true) : Settable discovered (strip name) := by
  have hset : env.get (strip name) ≠ none := get_foldlM_sanitizeItem_ne_none hsanitize
    (.inr ⟨(name, value), List.mem_singleton_self _, rfl, hadmitted⟩)
  obtain ⟨own, hown⟩ := Option.ne_none_iff_exists'.mp hset
  exact (mem_of_get_sanitize hsanitize hown).2

/-- An admitted name in the request's layer is one that users set. -/
theorem settable_of_mem_requested
    (hrequest : sanitizeDbtEnvironment discovered request.vars false = .ok env)
    (hitem : item ∈ env.vars) : Settable discovered item.1 :=
  (mem_of_get_sanitize hrequest (Environ.get_eq_some_iff.mpr hitem)).2

/-- So is one in the layer of the persisted variables, once it is stripped. -/
theorem settable_of_mem_persisted {before : Environ}
    (hload : rows.foldlM (loadPersistedVariable discovered decrypt) before = .ok env)
    (hbefore : ∀ item ∈ before.vars, isAdmittedName (strip item.1) = true →
      Settable discovered (strip item.1))
    (hitem : item ∈ env.vars) (hadmitted : isAdmittedName (strip item.1) = true) :
    Settable discovered (strip item.1) := by
  induction rows generalizing before with
  | nil =>
    cases hload
    exact hbefore item hitem hadmitted
  | cons row rest ih =>
    rw [List.foldlM_cons] at hload
    obtain ⟨next, hnext, hrest⟩ := bind_eq_ok.mp hload
    obtain ⟨checked, hchecked, hvalue⟩ := bind_eq_ok.mp hnext
    obtain ⟨secret, -, hset⟩ := bind_eq_ok.mp hvalue
    cases hset
    apply ih hrest
    intro other hother hown
    rcases Dict.mem_set hother with rfl | hold
    · exact reason_of_sanitize_single hchecked hown
    · exact hbefore other hold hown

/-- A variable of a run is the profile's, or its stripped name is one that users set. -/
theorem mem_profile_or_settable
    (hbuild : buildDbtEnvironment discovered decrypt request rows profile.toEnviron = .ok env)
    (hitem : item ∈ env.vars) (hadmitted : isAdmittedName (strip item.1) = true) :
    item ∈ profile.vars ∨ Settable discovered (strip item.1) := by
  obtain ⟨requested, hrequested, hrest⟩ := bind_eq_ok.mp hbuild
  obtain ⟨persisted, hpersisted, hmerged⟩ := bind_eq_ok.mp hrest
  cases hmerged
  rcases Environ.mem_of_mem_update hitem with hprofile | hlayers
  · exact .inl hprofile
  right
  rcases Environ.mem_of_mem_update hlayers with hstored | hasked
  · exact settable_of_mem_persisted hpersisted (fun _ hnone => nomatch hnone) hstored hadmitted
  · have hsettable := settable_of_mem_requested hrequested hasked
    rwa [strip_of_isAdmittedName hsettable.1]

/-- A run has the variables of its profile. -/
theorem get_of_mem_profile
    (hbuild : buildDbtEnvironment discovered decrypt request rows profile.toEnviron = .ok env)
    (hget : profile.get name = some value) : env.get name = some value := by
  obtain ⟨requested, hrequested, hrest⟩ := bind_eq_ok.mp hbuild
  obtain ⟨persisted, hpersisted, hmerged⟩ := bind_eq_ok.mp hrest
  cases hmerged
  rw [Environ.get_update, hget, Option.some_or]

/-- No variable of a profile is one that users set. -/
theorem ProfileEnv.not_settable (hget : profile.get name = some value) :
    ¬ Settable discovered name := by
  intro hsettable
  have howned := profile.owned _ (Environ.get_eq_some_iff.mp hget)
  have hreason := hsettable.2
  simp only [forbiddenDbtEnvironmentReason, howned] at hreason
  split_ifs at hreason with hoption hprocess hloading hshared
  exact hshared rfl

/-- What a child process gets for a name that users cannot set: the profile's value, or
else the server's. -/
theorem get_dbtProcessEnvironment
    (hbuild : buildDbtEnvironment discovered decrypt request rows profile.toEnviron = .ok env)
    (hprocess : dbtProcessEnvironment discovered environ env = .ok dbtEnv)
    (hname : ¬ Settable discovered name) :
    dbtEnv.get name = (profile.get name).or (environ.get name) := by
  obtain ⟨overlay, hoverlay, rfl⟩ := map_eq_ok.mp hprocess
  rw [Environ.get_update]
  congr 1
  have honly : ∀ own, overlay.get name = some own → profile.get name = some own := by
    intro own hown
    obtain ⟨⟨item, hitem, hstrip, hvalue⟩, hadmitted, -⟩ := mem_of_get_sanitize hoverlay hown
    rcases mem_profile_or_settable hbuild hitem (hstrip ▸ hadmitted) with hprofile | hsettable
    · rw [strip_of_isAdmittedName (profile.admitted item hprofile)] at hstrip
      exact Environ.get_eq_some_iff.mpr (hstrip ▸ hvalue ▸ hprofile)
    · exact absurd (hstrip ▸ hsettable) hname
  cases hprofile : profile.get name with
  | none =>
    cases hown : overlay.get name with
    | none => rfl
    | some own => exact absurd (hprofile.symm.trans (honly own hown)) (Option.some_ne_none own).symm
  | some secret =>
    have hitem := Environ.get_eq_some_iff.mp (get_of_mem_profile hbuild hprofile)
    have hadmitted := profile.admitted _ (Environ.get_eq_some_iff.mp hprofile)
    have hset : overlay.get name ≠ none := get_foldlM_sanitizeItem_ne_none hoverlay
      (.inr ⟨_, hitem, strip_of_isAdmittedName hadmitted, hadmitted⟩)
    obtain ⟨own, hown⟩ := Option.ne_none_iff_exists'.mp hset
    rw [hown, ← hprofile, honly own hown]

/-! ## The child process -/

theorem pathName_dbt : subprocessEnvironment discovered environ ("dbt" :: args) env =
    dbtProcessEnvironment discovered environ env := by
  unfold subprocessEnvironment
  rw [if_pos]
  left
  show (pathName "dbt").toList.map Char.toLower = "dbt".toList
  decide

theorem startedWith_eq_some_iff :
    startedWith discovered environ ("dbt" :: args) env = some dbtEnv ↔
      dbtProcessEnvironment discovered environ env = .ok dbtEnv ∧ Storable dbtEnv := by
  unfold startedWith
  rw [pathName_dbt]
  cases hprocess : dbtProcessEnvironment discovered environ env with
  | error raised => simp
  | ok childEnv =>
    by_cases hstorable : Storable childEnv
    · simp only [if_pos hstorable, Option.some.injEq, Except.ok.injEq]
      exact ⟨fun hsame => ⟨hsame, hsame ▸ hstorable⟩, And.left⟩
    · simp only [if_neg hstorable, Except.ok.injEq]
      exact iff_of_false (fun hnone => nomatch hnone) fun ⟨hsame, hown⟩ =>
        hstorable (hsame ▸ hown)

/-! ## The warm worker -/

/-- A job of a worker that can change back leaves the environment of the worker. -/
theorem snd_runDbt {job : Job} (hreturns : job.returns = true) :
    (runDbt discovered environ job).2 = environ := by
  unfold runDbt
  by_cases hcwd : job.hasCwd = true
  · simp only [hcwd, hreturns, if_true, Environ.empty_update]
  · rw [if_neg hcwd]

theorem eq_of_path {current : Environ} {jobs : List Job}
    (hjobs : (worker discovered environ).Path ReturnsHome jobs current) : current = environ := by
  refine hjobs.invariant (P := fun current => current = environ) rfl ?_
  intro source job target hsource hreturns hstep
  cases hstep
  rw [hsource, snd_runDbt hreturns]

/-- A job that is come to invokes dbt with the environment of a child process. -/
theorem fst_runDbt {job : Job} (hcwd : job.hasCwd = true) (hchdir : job.chdirs = true) :
    (runDbt discovered environ job).1 = startedWith discovered environ ("dbt" :: args) job.env := by
  unfold runDbt invoked startedWith
  rw [if_pos hcwd, if_pos hchdir, pathName_dbt]
  cases hprocess : dbtProcessEnvironment discovered environ job.env with
  | error raised => rfl
  | ok processEnv =>
    dsimp only
    split
    · rw [Environ.empty_update]
    · rfl

end

/-! ## The profiles of a project -/

section

open DbtCraft.Services.Profiles DbtCraft.Services.State

variable {runner : Runner} {profileEnv : Env} {target base : String}

theorem length_le_of_matchesTargetName {text : List Char} (htext : matchesTargetName text = true) :
    text.length ≤ 30 := by
  cases text with
  | nil => cases htext
  | cons first rest =>
    simp only [matchesTargetName, Bool.and_eq_true, decide_eq_true_eq] at htext
    rw [List.length_cons]
    exact Nat.succ_le_succ htext.1.2

/-- A name that the loader takes has at most one character more than the pattern. -/
theorem length_le_of_targetNameMatch (htarget : targetNameMatch target = true) :
    target.toList.length ≤ 31 := by
  simp only [targetNameMatch, Bool.or_eq_true, Bool.and_eq_true] at htarget
  rcases htarget with hplain | ⟨-, hstem⟩
  · exact (length_le_of_matchesTargetName hplain).trans (by omega)
  · have hlength := length_le_of_matchesTargetName hstem
    rw [List.length_dropLast] at hlength
    omega

theorem isNameChar_suffixChar {c : Char} (hc : c.toNat < 128) :
    isNameChar (suffixChar c) = true := by
  have hascii : ∀ code < 128, isNameChar (suffixChar (Char.ofNat code)) = true := by
    decide +kernel
  have h := hascii c.toNat hc
  rwa [Char.ofNat_toNat] at h

theorem toNat_lt_of_targetNameMatch (htarget : targetNameMatch target = true) :
    ∀ c ∈ target.toList, c.toNat < 128 := by
  intro c hc
  rcases plain_or_line_feed htarget with hplain | ⟨stem, rfl, hstem⟩
  · exact toNat_lt_of_isTargetChar (hplain c hc)
  · rw [String.toList_append, List.mem_append] at hc
    rcases hc with hstem' | hfeed
    · exact toNat_lt_of_isTargetChar (hstem c hstem')
    · rw [List.mem_singleton.mp hfeed]
      decide

/-- A name that goes on from an admitted one with characters of names, and not for long. -/
theorem isAdmittedName_append {start rest : String} (hstart : isAdmittedName start = true)
    (hrest : ∀ c ∈ rest.toList, isNameChar c = true)
    (hlength : start.toList.length + rest.toList.length ≤ 128) :
    isAdmittedName (start ++ rest) = true := by
  unfold isAdmittedName at hstart ⊢
  rw [String.toList_append]
  cases hlist : start.toList with
  | nil => rw [hlist] at hstart; cases hstart
  | cons first others =>
    rw [hlist] at hstart hlength
    simp only [Bool.and_eq_true, decide_eq_true_eq, List.all_eq_true] at hstart
    simp only [List.cons_append, Bool.and_eq_true, decide_eq_true_eq, List.all_eq_true]
    refine ⟨⟨?_, hstart.1.2⟩, ?_⟩
    · rwa [← List.cons_append, List.length_append]
    · intro c hc
      rw [← List.cons_append, List.mem_append] at hc
      exact hc.elim (hstart.2 c) (hrest c)

theorem isAdmittedName_targetSecretEnv (htarget : targetNameMatch target = true)
    (hbase : isAdmittedName base = true) (hlength : base.toList.length ≤ 64) :
    isAdmittedName (targetSecretEnv target base) = true := by
  unfold targetSecretEnv
  split
  · exact hbase
  · rw [String.append_assoc]
    apply isAdmittedName_append hbase
    · intro c hc
      rw [String.toList_append, List.mem_append, toList_targetSuffix] at hc
      rcases hc with hline | hsuffix
      · exact List.all_eq_true.mp (show "__".toList.all isNameChar = true by decide) c hline
      · obtain ⟨own, hown, rfl⟩ := List.mem_map.mp hsuffix
        exact isNameChar_suffixChar (toNat_lt_of_targetNameMatch htarget own hown)
    · have hname := length_le_of_targetNameMatch htarget
      have hlines : "__".toList.length = 2 := by decide
      rw [String.toList_append, List.length_append, toList_targetSuffix, List.length_map, hlines]
      omega

theorem isServerOwnedName_targetSecretEnv
    (hbase : startsWith (upper base) dbtProfileSecretPrefix = true) :
    isServerOwnedName (upper (targetSecretEnv target base)) = true := by
  unfold isServerOwnedName
  rw [Bool.or_eq_true]
  left
  unfold targetSecretEnv
  split
  · exact hbase
  · rw [startsWith, List.isPrefixOf_iff_prefix] at hbase ⊢
    rw [upper, String.toList_ofList] at hbase ⊢
    rw [String.append_assoc, String.toList_append, List.map_append]
    exact hbase.trans (List.prefix_append _ _)

/-- The variable of a secret is the server's, and dbt's process takes its name. -/
theorem owned_and_admitted_secretName (htarget : targetNameMatch target = true)
    (field : SecretField) : isServerOwnedName (upper (secretName target field)) = true ∧
      isAdmittedName (secretName target field) = true := by
  cases field with
  | primary =>
    exact ⟨isServerOwnedName_targetSecretEnv (by decide),
      isAdmittedName_targetSecretEnv htarget (by decide) (by decide)⟩
  | secondary =>
    exact ⟨isServerOwnedName_targetSecretEnv (by decide),
      isAdmittedName_targetSecretEnv htarget (by decide) (by decide)⟩
  | catalog =>
    show isServerOwnedName (upper catalogPasswordEnv) = true ∧
      isAdmittedName catalogPasswordEnv = true
    decide

theorem nodup_envOf (rendered : List Rendered) : ((envOf rendered).map Prod.fst).Nodup := by
  rw [envOf_eq_foldl]
  exact Dict.nodup_foldl_set List.nodup_nil

/-- **The variables of a profile.** What a regeneration returns has the names of the
server only, as long as the branch for a project with no connection returns no more
than the password of the lake. -/
theorem exists_profileEnv_of_regenerate {disk : ProfilesYml}
    (hregenerate : regenerateProfilesFromDb runner = (.ok profileEnv, disk))
    (hunconnected : ∀ own left, runner.unconnected = (.ok own, left) →
      own = [] ∨ ∃ password, own = [(catalogPasswordEnv, password)]) :
    ∃ profile : ProfileEnv, profile.vars = profileEnv := by
  have hnone : ∃ profile : ProfileEnv, profile.vars = [] :=
    ⟨⟨.empty, (fun _ hnone => nomatch hnone), (fun _ hnone => nomatch hnone)⟩, rfl⟩
  have hcatalog := owned_and_admitted_secretName
    (by decide : targetNameMatch defaultTargetName = true) .catalog
  rcases cases_of_regenerate hregenerate with ⟨rfl, -⟩ | ⟨-, hbranch⟩ |
    ⟨profile, lake, rendered, -, hlake, hrender, rfl, -⟩
  · exact hnone
  · rcases hunconnected profileEnv disk hbranch with rfl | ⟨password, rfl⟩
    · exact hnone
    · refine ⟨⟨⟨[(catalogPasswordEnv, password)], List.nodup_singleton _⟩, ?_, ?_⟩, rfl⟩
      · intro item hitem
        rw [List.mem_singleton.mp hitem]
        exact hcatalog.1
      · intro item hitem
        rw [List.mem_singleton.mp hitem]
        exact hcatalog.2
  · have hnames : ∀ item ∈ envOf rendered, isServerOwnedName (upper item.1) = true ∧
        isAdmittedName item.1 = true := by
      intro item hitem
      have hget : (envOf rendered).get item.1 = some item.2 :=
        Dict.get_of_mem (nodup_envOf rendered) hitem
      obtain ⟨spec, hspec, -, field, hkey, -⟩ := exists_spec_of_get_envOf hlake hrender hget
      rw [hkey]
      exact owned_and_admitted_secretName (targetNameMatch_of_mem hspec) field
    exact ⟨⟨⟨envOf rendered, nodup_envOf rendered⟩, fun item hitem => (hnames item hitem).1,
      fun item hitem => (hnames item hitem).2⟩, rfl⟩

theorem exists_profileEnv_of_postgresql :
    ∃ profile : ProfileEnv, profile.vars = [(dbtProfileSecretEnv, "secret")] :=
  exists_profileEnv_of_regenerate
    (show regenerateProfilesFromDb (oneConnection "postgresql") =
      (.ok [(dbtProfileSecretEnv, "secret")], _) from rfl)
    fun own left hown => by
      cases hown
      exact .inl rfl

end

/-! ## Both ways to dbt -/

section

variable {decrypt : Decrypt} {request environ current dbtEnv : Environ}
  {rows : List PersistedVariable} {profile : ProfileEnv} {jobs : List Job}

/-- **Isolation of the variables of dbt.** A run whose variables are not refused gets for
each name that users cannot set the value of its profile, or else what the server has;
all secrets of the profile are among these. A job of a warm worker that is come to gets
the environment of a child process, after any jobs before it, and as long as the worker
can change back to its directory its own environment is restored after each job. -/
theorem isolated_of_build (args : List String)
    (hbuild : buildDbtEnvironment discovered decrypt request rows profile.toEnviron = .ok env)
    (hjobs : (worker discovered environ).Path ReturnsHome jobs current) :
    current = environ ∧
      (∀ job : Job, job.env = env → job.hasCwd = true → job.chdirs = true →
        (runDbt discovered current job).1 = startedWith discovered environ ("dbt" :: args) env) ∧
      (startedWith discovered environ ("dbt" :: args) env = some dbtEnv →
        (∀ name secret, profile.get name = some secret → dbtEnv.get name = some secret) ∧
        ∀ name, ¬ Settable discovered name →
          dbtEnv.get name = (profile.get name).or (environ.get name)) := by
  have hcurrent := eq_of_path hjobs
  refine ⟨hcurrent, ?_, ?_⟩
  · intro job hjob hcwd hchdir
    rw [hcurrent, fst_runDbt hcwd hchdir, hjob]
  · intro hstarted
    have hprocess := (startedWith_eq_some_iff.mp hstarted).1
    have hvalue : ∀ name, ¬ Settable discovered name →
        dbtEnv.get name = (profile.get name).or (environ.get name) := fun name =>
      get_dbtProcessEnvironment hbuild hprocess
    refine ⟨?_, hvalue⟩
    intro name secret hsecret
    rw [hvalue name (profile.not_settable hsecret), hsecret, Option.some_or]

/-- The secret of the default target. -/
def defaultSecret : ProfileEnv :=
  ⟨⟨[("DBT_ENV_SECRET_DBT_CRAFT_CREDENTIAL", "secret")], List.nodup_singleton _⟩,
    by decide, by decide⟩

/-- The server's environment. -/
def serverEnviron : Environ :=
  ⟨[("PATH", "/usr/bin"), ("DBT_ENV_SECRET_DBT_CRAFT_CREDENTIAL", "stale")], by decide⟩

/-- A run in which both layers of the user set `MODE`, one with a blank before it. -/
def layeredEnv : Environ :=
  ⟨[("MODE", "fast"), (" MODE", "slow"), ("DBT_ENV_SECRET_DBT_CRAFT_CREDENTIAL", "secret")],
    by decide⟩

/-- What dbt gets of it. -/
def layeredChild : Environ :=
  ⟨[("PATH", "/usr/bin"), ("DBT_ENV_SECRET_DBT_CRAFT_CREDENTIAL", "secret"), ("MODE", "slow")],
    by decide⟩

/-- A job after which dbt has left nothing in `os.environ`. -/
def clearingJob : Job := ⟨layeredEnv, true, true, .empty, true⟩

theorem isolated_of_layers :
    (runDbt [] serverEnviron clearingJob).2 = serverEnviron ∧
      (runDbt [] (runDbt [] serverEnviron clearingJob).2 clearingJob).1 =
        startedWith [] serverEnviron ["dbt", "run"] layeredEnv ∧
      layeredChild.get "DBT_ENV_SECRET_DBT_CRAFT_CREDENTIAL" = some "secret" ∧
      layeredChild.get "PATH" = some "/usr/bin" := by
  have hbuild : buildDbtEnvironment [] (fun _ => none) ⟨[("MODE", "fast")], by decide⟩
      [⟨" MODE", some "slow"⟩] defaultSecret.toEnviron = .ok layeredEnv := rfl
  have hjobs : (worker [] serverEnviron).Path ReturnsHome ([] ++ [clearingJob])
      (runDbt [] serverEnviron clearingJob).2 := .extend .start rfl rfl
  have hstarted : startedWith [] serverEnviron ["dbt", "run"] layeredEnv = some layeredChild :=
    startedWith_eq_some_iff.mpr ⟨rfl, by decide⟩
  obtain ⟨hrestored, hsame, hvalues⟩ := isolated_of_build ["run"] hbuild hjobs
  obtain ⟨hsecrets, hserver⟩ := hvalues hstarted
  exact ⟨hrestored, hsame clearingJob rfl rfl rfl, hsecrets _ _ rfl,
    hserver "PATH" fun hsettable => absurd hsettable.2 (by decide)⟩

/-- The server's own environment has names that the policy forbids. -/
theorem not_free_of_server_names : ¬ ∀ discovered decrypt request rows (profile : ProfileEnv)
    environ env dbtEnv args,
    buildDbtEnvironment discovered decrypt request rows profile.toEnviron = .ok env →
    startedWith discovered environ ("dbt" :: args) env = some dbtEnv →
    ∀ name, dbtEnv.get name ≠ none →
      forbiddenDbtEnvironmentReason discovered name true = none := by
  intro hclaim
  have hnone := hclaim [] (fun _ => none) .empty [] ⟨.empty, by decide, by decide⟩
    ⟨[("PATH", "/usr/bin")], by decide⟩ .empty ⟨[("PATH", "/usr/bin")], by decide⟩ ["run"] rfl
    (startedWith_eq_some_iff.mpr ⟨rfl, by decide⟩) "PATH" (by decide)
  exact absurd hnone (by decide)

end

end DbtCraft.Services.DbtEnvironment
