/-
# Credentials of git remotes

The operations of `app/services/git_service.py` that reach a remote, as far as they use
credentials: which they take, which remotes git is given them for, and what they store. What
git says of a repository and how its commands end are part of an operation, since the remotes
are edited freely between two of them.
-/

import DbtCraft.Math.Machine
import DbtCraft.Python.Text

namespace DbtCraft.Services.GitCredentials

open DbtCraft.Math DbtCraft.Python

/-- `encrypt_secret` and `decrypt_secret`; `none` is an `EncryptionError`. -/
structure Crypto where
  encrypt : String → Option String
  decrypt : String → Option String

/-- A row of `git_credentials`. -/
structure Row where
  projectId : String
  owner : String
  remoteUrl : String
  username : String
  tokenEncrypted : String
  /-- The remote that the token was typed in for. No query reads it. -/
  givenFor : String
  deriving DecidableEq

/-- Who calls an operation; without a session there is no owner. -/
structure Caller where
  projectId : String
  owner : Option String

/-- The username and the token of a request. -/
structure Given where
  username : Option String
  token : Option String

/-- Credentials that an operation uses, and the row they are from. -/
structure Credentials where
  username : String
  token : String
  source : Option Row
  deriving DecidableEq

/-- `url.startswith("https://")`. -/
def isHttps (url : String) : Bool := startsWith url "https://"

/-- A list without repetitions, in the order of the first occurrences. -/
def unique (urls : List String) : List String :=
  urls.foldl (fun found url => if found.contains url then found else found ++ [url]) []

/-! ## The table -/

/-- The rows of a caller, the last written first. -/
def ownRows (rows : List Row) (projectId owner : String) : List Row :=
  rows.filter fun row => row.projectId = projectId && row.owner = owner

variable (crypto : Crypto) (rows : List Row) (caller : Caller)

/-- `_load_git_credentials`, without the decryption. -/
def loadGitCredentials (remoteUrls : List String) : Option Row :=
  match caller.owner with
  | none => none
  | some owner =>
    let urls := remoteUrls.filter isHttps
    let rows := ownRows rows caller.projectId owner
    if urls ≠ [] then rows.find? fun row => urls.contains row.remoteUrl else rows.head?

/-- `_resolve_credentials`; the outer `none` is a `GitOperationError`. -/
def resolveCredentials (remoteUrls : List String) (given : Given) :
    Option (Option Credentials) :=
  match given.username.filter (· ≠ ""), given.token.filter (· ≠ "") with
  | some username, some token => some (some ⟨username, token, none⟩)
  | _, _ =>
    match loadGitCredentials rows caller remoteUrls with
    | none => some none
    | some row =>
      (crypto.decrypt row.tokenEncrypted).map fun token =>
        some ⟨row.username, token, some row⟩

/-- `_save_git_credentials`; `none` is a `GitOperationError`. A row that is written becomes
the newest. -/
def saveGitCredentials (remoteUrl : String) (credentials : Option Credentials) :
    Option (List Row) :=
  match caller.owner, credentials with
  | some owner, some credentials =>
    if isHttps remoteUrl && credentials.username ≠ "" && credentials.token ≠ "" then
      (crypto.encrypt credentials.token).map fun tokenEncrypted =>
        { projectId := caller.projectId
          owner := owner
          remoteUrl := remoteUrl
          username := credentials.username
          tokenEncrypted := tokenEncrypted
          givenFor := (credentials.source.map Row.givenFor).getD remoteUrl } ::
          rows.filter fun row => !(row.projectId = caller.projectId && row.owner = owner &&
            row.remoteUrl = remoteUrl)
    else some rows
  | _, _ => some rows

/-- `_delete_git_credentials`. -/
def deleteGitCredentials (remoteUrls : List String) : List Row :=
  match caller.owner with
  | none => rows
  | some owner =>
    rows.filter fun row => !(row.projectId = caller.projectId && row.owner = owner &&
      (remoteUrls.filter isHttps).contains row.remoteUrl)

/-- The loop that saves credentials for several remotes; each save is committed. -/
def saveAll (credentials : Option Credentials) : List Row → List String → List Row
  | rows, [] => rows
  | rows, remoteUrl :: rest =>
    match saveGitCredentials crypto rows caller remoteUrl credentials with
    | none => rows
    | some rows => saveAll credentials rows rest

/-! ## What git is given -/

/-- Credentials for the requests of git to some URLs. -/
structure HttpAuth where
  urls : List String
  credentials : Credentials
  deriving DecidableEq

/-- `_get_http_auth_env_for_urls`; for one URL it is `_get_http_auth_env`. -/
def getHttpAuthEnvForUrls (gitUrls : List String) (credentials : Option Credentials) :
    Option HttpAuth :=
  match credentials with
  | none => none
  | some credentials =>
    if credentials.username = "" || credentials.token = "" then none
    else
      let httpsUrls := unique (gitUrls.filter isHttps)
      if httpsUrls = [] then none else some ⟨httpsUrls, credentials⟩

/-- The variables of the environment of git, with `base64` of the credentials. -/
def HttpAuth.env (base64 : String → String) (auth : HttpAuth) : List (String × String) :=
  let value := "Authorization: Basic " ++
    base64 (auth.credentials.username ++ ":" ++ auth.credentials.token)
  ("GIT_CONFIG_COUNT", toString auth.urls.length) ::
    (auth.urls.zipIdx.flatMap fun item =>
      [("GIT_CONFIG_KEY_" ++ toString item.2, "http." ++ item.1 ++ ".extraHeader"),
        ("GIT_CONFIG_VALUE_" ++ toString item.2, value)])

/-- `_looks_like_auth_failure`. -/
def looksLikeAuthFailure (stderr : String) : Bool :=
  let text := String.ofList (stderr.toList.map Char.toLower)
  ["authentication failed", "could not read username", "permission denied", "403", "401"].any
    (contains · text)

/-- How the commands of git end that are given credentials. -/
inductive GitEnd
  | succeeded
  | failed (stderr : String)
  | raised

/-! ## The operations -/

structure Outcome where
  rows : List Row
  handed : Option HttpAuth

/-- What the operations have in common, by the URLs of the remotes that they name. -/
def reachRemotes (remoteUrls : List String) (given : Given) (git : GitEnd) : Outcome :=
  match resolveCredentials crypto rows caller remoteUrls given with
  | none => ⟨rows, none⟩
  | some credentials =>
    let auth := getHttpAuthEnvForUrls remoteUrls credentials
    match git with
    | .raised => ⟨rows, auth⟩
    | .failed stderr =>
      if looksLikeAuthFailure stderr then ⟨deleteGitCredentials rows caller remoteUrls, auth⟩
      else ⟨rows, auth⟩
    | .succeeded => ⟨saveAll crypto caller credentials rows remoteUrls, auth⟩

/-- `[remote_url] if remote_url else []`. -/
def oneUrl (remoteUrl : Option String) : List String := (remoteUrl.filter (· ≠ "")).toList

/-- `_get_remote_urls`: the second field of each line of `git remote -v`, once. -/
def getRemoteUrls (lines : List (List String)) : List String :=
  unique (lines.filterMap fun line =>
    match line with
    | _ :: url :: _ => some url
    | _ => none)

/-- `clone`. -/
def clone (gitUrl : String) (given : Given) (git : GitEnd) : Outcome :=
  reachRemotes crypto rows caller (oneUrl (some gitUrl)) given git

/-- `pull`; `originUrl` is what git says of `origin`. -/
def pull (originUrl : Option String) (given : Given) (git : GitEnd) : Outcome :=
  reachRemotes crypto rows caller (oneUrl originUrl) given git

/-- `push`, with `_ensure_full_history`. -/
def push (remoteUrl : Option String) (given : Given) (git : GitEnd) : Outcome :=
  reachRemotes crypto rows caller (oneUrl remoteUrl) given git

/-- `fetch`; `remotes` is the output of `git remote -v`. -/
def fetch (remotes : List (List String)) (given : Given) (git : GitEnd) : Outcome :=
  reachRemotes crypto rows caller (getRemoteUrls remotes) given git

inductive Op
  | clone (caller : Caller) (gitUrl : String) (given : Given) (git : GitEnd)
  | pull (caller : Caller) (originUrl : Option String) (given : Given) (git : GitEnd)
  | push (caller : Caller) (remoteUrl : Option String) (given : Given) (git : GitEnd)
  | fetch (caller : Caller) (remotes : List (List String)) (given : Given) (git : GitEnd)

def perform (rows : List Row) : Op → Outcome
  | .clone caller gitUrl given git => GitCredentials.clone crypto rows caller gitUrl given git
  | .pull caller originUrl given git => GitCredentials.pull crypto rows caller originUrl given git
  | .push caller remoteUrl given git => GitCredentials.push crypto rows caller remoteUrl given git
  | .fetch caller remotes given git => GitCredentials.fetch crypto rows caller remotes given git

/-- The table is empty at first. -/
def machine : Machine (List Row) Op where
  init := []
  step rows op := some (perform crypto rows op).rows

/-! ## The guarantee -/

universe uη

variable {η : Type uη} (host : String → η)

/-- Credentials stay with the host that they were given for. -/
structure StayHome (outcome : Outcome) : Prop where
  /-- Stored ones are handed to their own host only. -/
  stored : ∀ auth row, outcome.handed = some auth → auth.credentials.source = some row →
    ∀ url ∈ auth.urls, host url = host row.givenFor
  /-- Those of a request are handed to one host. -/
  typed : ∀ auth, outcome.handed = some auth → auth.credentials.source = none →
    ∀ url ∈ auth.urls, ∀ other ∈ auth.urls, host url = host other
  /-- The table has them under their own host. -/
  saved : ∀ row ∈ outcome.rows, host row.remoteUrl = host row.givenFor

/-- Where there are credentials to be used, the remotes over HTTPS have one host. -/
def OneHost (remoteUrls : List String) (given : Given) : Prop :=
  ∀ credentials, resolveCredentials crypto rows caller remoteUrls given = some (some credentials) →
    credentials.username ≠ "" → credentials.token ≠ "" →
      ∀ url ∈ remoteUrls, ∀ other ∈ remoteUrls, isHttps url = true → isHttps other = true →
        host url = host other

/-- The condition on an operation. -/
def FetchesOneHost (rows : List Row) : Op → Prop
  | .fetch caller remotes given _ => OneHost crypto rows caller host (getRemoteUrls remotes) given
  | .clone _ _ _ _ | .pull _ _ _ _ | .push _ _ _ _ => True

/-! ## One operation -/

theorem mem_unique {urls : List String} {url : String} : url ∈ unique urls ↔ url ∈ urls := by
  have hfold : ∀ (urls found : List String),
      url ∈ urls.foldl (fun found url => if found.contains url then found else found ++ [url])
        found ↔ url ∈ found ∨ url ∈ urls := by
    intro urls
    induction urls with
    | nil => simp
    | cons first rest ih =>
      intro found
      rw [List.foldl_cons, ih]
      by_cases hfirst : first ∈ found
      · rw [if_pos (List.contains_iff_mem.mpr hfirst), List.mem_cons]
        apply Iff.intro
        · exact Or.imp_right Or.inr
        · rintro (hfound | rfl | hrest)
          · exact Or.inl hfound
          · exact Or.inl hfirst
          · exact Or.inr hrest
      · rw [if_neg (fun hcontains => hfirst (List.contains_iff_mem.mp hcontains)),
          List.mem_append, List.mem_singleton, List.mem_cons, or_assoc]
  rw [unique, hfold, or_iff_right (List.not_mem_nil)]

variable {crypto rows caller host} {remoteUrls : List String} {given : Given} {git : GitEnd}
  {credentials : Credentials} {row : Row} {url : String}

/-- A row that is loaded for remotes over HTTPS is one of theirs. -/
theorem loaded_mem (url : String) (hload : loadGitCredentials rows caller remoteUrls = some row) :
    row ∈ rows ∧ (url ∈ remoteUrls → isHttps url = true →
      row.remoteUrl ∈ remoteUrls ∧ isHttps row.remoteUrl = true) := by
  unfold loadGitCredentials at hload
  split at hload
  · cases hload
  next owner hcaller =>
    simp only at hload
    split_ifs at hload with hurls
    · have hrow := List.mem_of_find?_eq_some hload
      have hurl := List.find?_some hload
      refine ⟨(List.mem_filter.mp hrow).1, fun _ _ => ?_⟩
      exact List.mem_filter.mp (List.contains_iff_mem.mp hurl)
    · refine ⟨(List.mem_filter.mp (List.mem_of_head? hload)).1, fun hurl hhttps => ?_⟩
      exact absurd (List.ne_nil_of_mem (List.mem_filter.mpr ⟨hurl, hhttps⟩)) hurls

/-- Stored credentials are those of a loaded row. -/
theorem loaded_of_resolve
    (hresolve : resolveCredentials crypto rows caller remoteUrls given = some (some credentials))
    (hsource : credentials.source = some row) :
    loadGitCredentials rows caller remoteUrls = some row := by
  unfold resolveCredentials at hresolve
  split at hresolve
  · rw [← Option.some.inj (Option.some.inj hresolve)] at hsource
    cases hsource
  · split at hresolve
    · cases Option.some.inj hresolve
    next loaded hload =>
      obtain ⟨token, -, hcredentials⟩ := Option.map_eq_some_iff.mp hresolve
      rw [← Option.some.inj hcredentials] at hsource
      rw [← Option.some.inj hsource]
      exact hload

theorem mem_urls_iff {auth : HttpAuth}
    (hauth : getHttpAuthEnvForUrls remoteUrls (some credentials) = some auth) :
    credentials.username ≠ "" ∧ credentials.token ≠ "" ∧ auth.credentials = credentials ∧
      ∀ url, url ∈ auth.urls ↔ url ∈ remoteUrls ∧ isHttps url = true := by
  simp only [getHttpAuthEnvForUrls] at hauth
  split_ifs at hauth with hempty hnone
  rw [Bool.or_eq_true, decide_eq_true_eq, decide_eq_true_eq, not_or] at hempty
  rw [← Option.some.inj hauth]
  exact ⟨hempty.1, hempty.2, rfl, fun url => by rw [mem_unique, List.mem_filter]⟩

/-- Credentials that may be used are handed over wherever a remote speaks HTTPS. -/
theorem exists_auth (husername : credentials.username ≠ "") (htoken : credentials.token ≠ "")
    (hurl : url ∈ remoteUrls) (hhttps : isHttps url = true) :
    ∃ auth, getHttpAuthEnvForUrls remoteUrls (some credentials) = some auth := by
  have hnonempty : unique (remoteUrls.filter isHttps) ≠ [] :=
    List.ne_nil_of_mem (mem_unique.mpr (List.mem_filter.mpr ⟨hurl, hhttps⟩))
  refine ⟨⟨unique (remoteUrls.filter isHttps), credentials⟩, ?_⟩
  simp [getHttpAuthEnvForUrls, husername, htoken, hnonempty]

/-- A row of the table after some saves was there before, or is one of those saved. -/
theorem mem_saveAll (hrow : row ∈ saveAll crypto caller (some credentials) rows remoteUrls) :
    row ∈ rows ∨ credentials.username ≠ "" ∧ credentials.token ≠ "" ∧
      row.remoteUrl ∈ remoteUrls ∧ isHttps row.remoteUrl = true ∧
        row.givenFor = (credentials.source.map Row.givenFor).getD row.remoteUrl := by
  induction remoteUrls generalizing rows with
  | nil => exact Or.inl hrow
  | cons first rest ih =>
    rw [saveAll] at hrow
    split at hrow
    · exact Or.inl hrow
    next saved hsave =>
      rcases ih hrow with hsaved | ⟨husername, htoken, hurl, hrest⟩
      · unfold saveGitCredentials at hsave
        split at hsave
        next owner own hcaller hown =>
          cases hown
          split_ifs at hsave with husable
          · obtain ⟨token, -, rfl⟩ := Option.map_eq_some_iff.mp hsave
            rcases List.mem_cons.mp hsaved with rfl | hkept
            · simp only [Bool.and_eq_true, decide_eq_true_eq] at husable
              exact Or.inr ⟨husable.1.2, husable.2, List.mem_cons_self, husable.1.1, rfl⟩
            · exact Or.inl (List.mem_filter.mp hkept).1
          · exact Or.inl (Option.some.inj hsave ▸ hsaved)
        · exact Or.inl (Option.some.inj hsave ▸ hsaved)
      · exact Or.inr ⟨husername, htoken, List.mem_cons_of_mem _ hurl, hrest⟩

theorem saveAll_none (remoteUrls : List String) : saveAll crypto caller none rows remoteUrls = rows := by
  induction remoteUrls with
  | nil => rfl
  | cons first rest ih =>
    rw [saveAll]
    cases hcaller : caller.owner <;> simpa [saveGitCredentials, hcaller] using ih

theorem mem_deleteGitCredentials (hrow : row ∈ deleteGitCredentials rows caller remoteUrls) :
    row ∈ rows := by
  unfold deleteGitCredentials at hrow
  split at hrow
  · exact hrow
  · exact (List.mem_filter.mp hrow).1

/-- A row after an operation was there before, or is a save of the credentials in use. -/
theorem mem_reachRemotes
    (hrow : row ∈ (reachRemotes crypto rows caller remoteUrls given git).rows) :
    row ∈ rows ∨ ∃ credentials,
      resolveCredentials crypto rows caller remoteUrls given = some (some credentials) ∧
        credentials.username ≠ "" ∧ credentials.token ≠ "" ∧
          row.remoteUrl ∈ remoteUrls ∧ isHttps row.remoteUrl = true ∧
            row.givenFor = (credentials.source.map Row.givenFor).getD row.remoteUrl := by
  unfold reachRemotes at hrow
  split at hrow
  · exact Or.inl hrow
  next credentials hresolve =>
    simp only at hrow
    split at hrow
    · exact Or.inl hrow
    · split_ifs at hrow
      · exact Or.inl (mem_deleteGitCredentials hrow)
      · exact Or.inl hrow
    · cases credentials with
      | none =>
        rw [saveAll_none] at hrow
        exact Or.inl hrow
      | some credentials =>
        exact (mem_saveAll hrow).imp_right fun hsaved => ⟨credentials, hresolve, hsaved⟩

/-- What an operation hands to git does not depend on how git ends. -/
theorem handed_reachRemotes {credentials : Option Credentials}
    (hresolve : resolveCredentials crypto rows caller remoteUrls given = some credentials) :
    (reachRemotes crypto rows caller remoteUrls given git).handed =
      getHttpAuthEnvForUrls remoteUrls credentials := by
  simp only [reachRemotes, hresolve]
  cases git with
  | succeeded => rfl
  | raised => rfl
  | failed stderr => cases hfailure : looksLikeAuthFailure stderr <;> simp [hfailure]

theorem handed_eq_some_iff {auth : HttpAuth} :
    (reachRemotes crypto rows caller remoteUrls given git).handed = some auth ↔
      ∃ credentials,
        resolveCredentials crypto rows caller remoteUrls given = some (some credentials) ∧
          getHttpAuthEnvForUrls remoteUrls (some credentials) = some auth := by
  cases hresolve : resolveCredentials crypto rows caller remoteUrls given with
  | none => simp [reachRemotes, hresolve]
  | some credentials =>
    rw [handed_reachRemotes hresolve]
    cases credentials with
    | none => simp [getHttpAuthEnvForUrls]
    | some credentials => simp

/-- **The step lemma.** Where all rows are under their own host, an operation keeps
credentials at home exactly when its remotes have one host. -/
theorem stayHome_iff (host : String → η) (hrows : ∀ row ∈ rows, host row.remoteUrl = host row.givenFor) :
    StayHome host (reachRemotes crypto rows caller remoteUrls given git) ↔
      OneHost crypto rows caller host remoteUrls given := by
  apply Iff.intro
  · intro hhome credentials hresolve husername htoken url hurl other hother hhttps hotherHttps
    obtain ⟨auth, hauth⟩ := exists_auth husername htoken hurl hhttps
    obtain ⟨-, -, hown, hmem⟩ := mem_urls_iff hauth
    have hhanded : (reachRemotes crypto rows caller remoteUrls given git).handed = some auth :=
      handed_eq_some_iff.mpr ⟨credentials, hresolve, hauth⟩
    have hurl := (hmem url).mpr ⟨hurl, hhttps⟩
    have hother := (hmem other).mpr ⟨hother, hotherHttps⟩
    cases hsource : credentials.source with
    | none => exact hhome.typed auth hhanded (hown ▸ hsource) url hurl other hother
    | some row =>
      have hstored := hhome.stored auth row hhanded (hown ▸ hsource)
      exact (hstored url hurl).trans (hstored other hother).symm
  · intro hone
    have hsource {credentials : Credentials} {row : Row} {url : String}
        (hresolve : resolveCredentials crypto rows caller remoteUrls given = some (some credentials))
        (husername : credentials.username ≠ "") (htoken : credentials.token ≠ "")
        (hrow : credentials.source = some row) (hurl : url ∈ remoteUrls)
        (hhttps : isHttps url = true) : host url = host row.givenFor := by
      obtain ⟨hmem, hloaded⟩ := loaded_mem url (loaded_of_resolve hresolve hrow)
      obtain ⟨hremote, hremoteHttps⟩ := hloaded hurl hhttps
      rw [← hrows row hmem]
      exact hone credentials hresolve husername htoken url hurl _ hremote hhttps hremoteHttps
    refine ⟨fun auth row hhanded hrow url hurl => ?_, fun auth hhanded hnone url hurl other hother => ?_,
      fun row hrow => ?_⟩
    · obtain ⟨credentials, hresolve, hauth⟩ := handed_eq_some_iff.mp hhanded
      obtain ⟨husername, htoken, hown, hmem⟩ := mem_urls_iff hauth
      obtain ⟨hurl, hhttps⟩ := (hmem url).mp hurl
      exact hsource hresolve husername htoken (hown ▸ hrow) hurl hhttps
    · obtain ⟨credentials, hresolve, hauth⟩ := handed_eq_some_iff.mp hhanded
      obtain ⟨husername, htoken, -, hmem⟩ := mem_urls_iff hauth
      obtain ⟨hurl, hhttps⟩ := (hmem url).mp hurl
      obtain ⟨hother, hotherHttps⟩ := (hmem other).mp hother
      exact hone credentials hresolve husername htoken url hurl other hother hhttps hotherHttps
    · rcases mem_reachRemotes hrow with hkept |
        ⟨credentials, hresolve, husername, htoken, hurl, hhttps, hgiven⟩
      · exact hrows row hkept
      · rw [hgiven]
        cases hfrom : credentials.source with
        | none => rfl
        | some source => exact hsource hresolve husername htoken hfrom hurl hhttps

/-- One remote has one host. -/
theorem oneHost_oneUrl (remoteUrl : Option String) :
    OneHost crypto rows caller host (oneUrl remoteUrl) given := by
  intro credentials _ _ _ url hurl other hother _ _
  unfold oneUrl at hurl hother
  rw [Option.mem_toList] at hurl hother
  rw [Option.mem_unique hurl hother]

/-! ## Runs -/

theorem stayHome_perform_iff (host : String → η) {op : Op}
    (hrows : ∀ row ∈ rows, host row.remoteUrl = host row.givenFor) :
    StayHome host (perform crypto rows op) ↔ FetchesOneHost crypto host rows op := by
  cases op with
  | clone caller gitUrl given git =>
    exact (stayHome_iff host hrows).trans (iff_of_true (oneHost_oneUrl _) trivial)
  | pull caller originUrl given git =>
    exact (stayHome_iff host hrows).trans (iff_of_true (oneHost_oneUrl _) trivial)
  | push caller remoteUrl given git =>
    exact (stayHome_iff host hrows).trans (iff_of_true (oneHost_oneUrl _) trivial)
  | fetch caller remotes given git => exact stayHome_iff host hrows

/-- The runs in which credentials stay with the hosts that they were given for are those in
which every fetch that uses credentials reaches one host over HTTPS. -/
theorem path_stayHome_iff (crypto : Crypto) (host : String → η) (ops : List Op) (rows : List Row) :
    (machine crypto).Path (fun rows op => StayHome host (perform crypto rows op)) ops rows ↔
      (machine crypto).Path (FetchesOneHost crypto host) ops rows := by
  apply Machine.path_congr (P := fun rows => ∀ row ∈ rows, host row.remoteUrl = host row.givenFor)
  · exact fun row hrow => absurd hrow (List.not_mem_nil)
  · intro source op target _ hhome hstep
    rw [← Option.some.inj hstep]
    exact hhome.saved
  · intro source op target hrows _
    exact stayHome_perform_iff host hrows

/-- The host of a URL over HTTPS, as far as the examples need it. -/
def hostOf (url : String) : String := String.ofList ((url.toList.drop 8).takeWhile (· ≠ '/'))

/-- A token that was stored for one remote is handed to another one that a fetch reaches. -/
theorem not_stayHome_of_second_remote :
    ¬ ∀ (crypto : Crypto) (ops : List Op) (rows : List Row),
      (machine crypto).Path Machine.anyStep ops rows →
        ∀ op, StayHome hostOf (perform crypto rows op) := by
  intro hclaim
  let crypto : Crypto := ⟨some, some⟩
  let caller : Caller := ⟨"project", some "user"⟩
  let stored : Row :=
    ⟨"project", "user", "https://git.example/models", "user", "token", "https://git.example/models"⟩
  let pulled : Op :=
    .pull caller (some "https://git.example/models") ⟨some "user", some "token"⟩ .succeeded
  let fetched : Op :=
    .fetch caller [["origin", "https://git.example/models", "(fetch)"],
      ["fork", "https://other.example/models", "(fetch)"]] ⟨none, none⟩ .succeeded
  have hrun : (machine crypto).runFrom (machine crypto).init [pulled] = some [stored] := by
    decide +kernel
  have hhome := hclaim crypto [pulled] [stored] (Machine.path_of_runFrom hrun) fetched
  have hhanded : (perform crypto [stored] fetched).handed =
      some ⟨["https://git.example/models", "https://other.example/models"],
        "user", "token", some stored⟩ := by decide +kernel
  have hsame := hhome.stored _ stored hhanded rfl "https://other.example/models" (by decide)
  exact absurd hsame (by decide +kernel)

/-! ## What git reads -/

theorem append_repr_beq (stem : String) (index other : ℕ) :
    (stem ++ index.repr == stem ++ other.repr) = (index == other) := by
  rw [Bool.eq_iff_iff, beq_iff_eq, beq_iff_eq]
  refine ⟨fun hsame => ?_, fun hsame => hsame ▸ rfl⟩
  have hlist := congrArg String.toList hsame
  rw [String.toList_append, String.toList_append] at hlist
  have hvalue := congrArg (Nat.ofDigitChars 10 · 0) (List.append_cancel_left hlist)
  simpa [Nat.repr, Nat.ofDigitChars_ten_toDigits] using hvalue

theorem beq_of_letter {text other : String} (hletter : text.toList[11]? ≠ other.toList[11]?) :
    (text == other) = false := beq_false_of_ne fun hsame => hletter (hsame ▸ rfl)

end DbtCraft.Services.GitCredentials
