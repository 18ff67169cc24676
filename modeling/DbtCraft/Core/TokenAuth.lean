/-
# Bearer tokens

`_resolve_jwks_uri`, `_fetch_jwks` and `verify_token` of `app/core/auth.py`, in a process that
keeps what it has once fetched, while the issuer publishes other keys. The HTTP client answers
with what is published at a URL, and the JWT library is a parameter.
-/

import DbtCraft.Math.Machine
import Mathlib.Data.List.Basic

namespace DbtCraft.Core.TokenAuth

open DbtCraft.Math

universe uτ uκ uγ

variable {τ : Type uτ} {κ : Type uκ} {γ : Type uγ}

/-- A key of a JWKS document. -/
structure Jwk (κ : Type uκ) where
  kid : Option String
  material : κ

/-- What `get_unverified_header` says of a token. -/
structure Header where
  alg : Option String
  kid : Option String
  deriving DecidableEq

/-- The JWT library. -/
structure Jwt (τ : Type uτ) (κ : Type uκ) (γ : Type uγ) where
  /-- `jwt.get_unverified_header(token)`; `none` is a `PyJWTError`. -/
  header : τ → Option Header
  /-- `PyJWK.from_dict` and `jwt.decode` with the audience and the issuer of the settings;
  `none` is a `PyJWTError` or a `ValueError`. -/
  decode : τ → κ → Option γ

structure Settings where
  oidcIssuer : String
  oidcJwksUri : String

/-- What the issuer answers. -/
structure Issuer (κ : Type uκ) where
  /-- `jwks_uri` of the discovery document. -/
  discovery : Option String
  /-- `data.get("keys", []) or []` of the document at a URL. -/
  published : String → List (Jwk κ)

/-- The globals of the module. -/
structure Caches (κ : Type uκ) where
  jwksCache : Option (List (Jwk κ)) := none
  jwksCacheUri : Option String := none
  discoveredJwksUri : Option String := none
  discoveryIssuer : Option String := none

/-- An `HTTPException`. -/
structure HttpError where
  statusCode : ℕ
  detail : String
  deriving DecidableEq

/-- The cached result of the discovery for an issuer. -/
def Caches.discovered (caches : Caches κ) (oidcIssuer : String) : Option String :=
  if caches.discoveryIssuer = some oidcIssuer then caches.discoveredJwksUri else none

/-- The cached keys of a URL. -/
def Caches.keys (caches : Caches κ) (uri : String) : Option (List (Jwk κ)) :=
  if caches.jwksCacheUri = some uri then caches.jwksCache else none

variable (settings : Settings) (jwt : Jwt τ κ γ)

/-- `_resolve_jwks_uri`. -/
def resolveJwksUri (issuer : Issuer κ) (caches : Caches κ) :
    Except HttpError String × Caches κ :=
  if settings.oidcJwksUri ≠ "" then (.ok settings.oidcJwksUri, caches)
  else if settings.oidcIssuer = "" then
    (.error ⟨500, "OIDC issuer is not configured"⟩, caches)
  else
    match caches.discovered settings.oidcIssuer, issuer.discovery.filter (· ≠ "") with
    | some uri, _ => (.ok uri, caches)
    | none, none => (.error ⟨500, "OIDC discovery document has no jwks_uri"⟩, caches)
    | none, some uri =>
      (.ok uri, { caches with
        discoveredJwksUri := some uri
        discoveryIssuer := some settings.oidcIssuer })

/-- `_fetch_jwks`. -/
def fetchJwks (issuer : Issuer κ) (caches : Caches κ) :
    Except HttpError (List (Jwk κ)) × Caches κ :=
  match resolveJwksUri settings issuer caches with
  | (.error error, caches) => (.error error, caches)
  | (.ok uri, caches) =>
    match caches.keys uri with
    | some keys => (.ok keys, caches)
    | none =>
      (.ok (issuer.published uri), { caches with
        jwksCache := some (issuer.published uri)
        jwksCacheUri := some uri })

/-- `verify_token` with the keys that have been fetched. -/
def checkToken (jwks : List (Jwk κ)) (token : τ) : Except HttpError γ :=
  match jwt.header token with
  | none => .error ⟨401, "Invalid token format"⟩
  | some unverified =>
    if unverified.alg ≠ some "RS256" then .error ⟨401, "Unsupported token algorithm"⟩
    else
      match jwks.find? fun key => key.kid = unverified.kid with
      | none => .error ⟨401, "Unknown token signing key"⟩
      | some key =>
        match jwt.decode token key.material with
        | none => .error ⟨401, "Invalid token"⟩
        | some claims => .ok claims

/-- `verify_token`. -/
def verifyToken (issuer : Issuer κ) (caches : Caches κ) (token : τ) :
    Except HttpError γ × Caches κ :=
  match fetchJwks settings issuer caches with
  | (.error error, caches) => (.error error, caches)
  | (.ok jwks, caches) => (checkToken jwt jwks token, caches)

/-! ## Histories -/

/-- The process and the issuer. -/
structure State (κ : Type uκ) where
  issuer : Issuer κ
  caches : Caches κ := {}

inductive Event (τ : Type uτ) (κ : Type uκ)
  | /-- The document at a URL has other keys. -/
    publish (uri : String) (keys : List (Jwk κ))
  | /-- The discovery document names another URL. -/
    move (jwksUri : Option String)
  | verify (token : τ)

/-- One event. -/
def step (state : State κ) : Event τ κ → State κ
  | .publish uri keys =>
    { state with issuer.published := fun other =>
        if other = uri then keys else state.issuer.published other }
  | .move jwksUri => { state with issuer.discovery := jwksUri }
  | .verify token => { state with caches := (verifyToken settings jwt state.issuer state.caches token).2 }

/-- The process of these settings with an issuer; it has fetched nothing yet. -/
def machine (issuer : Issuer κ) : Machine (State κ) (Event τ κ) where
  init := { issuer }
  step state event := some (step settings jwt state event)

/-! ## The guarantee -/

/-- The URL that the issuer publishes its keys at. -/
def issuerUri (issuer : Issuer κ) : Option String :=
  if settings.oidcJwksUri ≠ "" then some settings.oidcJwksUri
  else if settings.oidcIssuer = "" then none
  else issuer.discovery.filter (· ≠ "")

/-- The keys that the issuer publishes. -/
def publishedKeys (issuer : Issuer κ) : List (Jwk κ) :=
  ((issuerUri settings issuer).map issuer.published).getD []

/-- An RS256 token for this audience and issuer that is signed by the key and has not
expired. -/
def Signed (token : τ) (key : Jwk κ) : Prop :=
  (∃ kid, jwt.header token = some ⟨some "RS256", kid⟩) ∧ jwt.decode token key.material ≠ none

/-- A call accepts a token of a key that is published now, and leaves no empty key set for
later calls. -/
def Right (state : State κ) : Event τ κ → Prop
  | .verify token =>
    ((∃ key ∈ publishedKeys settings state.issuer, Signed jwt token key) →
      ∃ claims, (verifyToken settings jwt state.issuer state.caches token).1 = .ok claims) ∧
    (step settings jwt state (.verify token)).caches.jwksCache ≠ some []
  | _ => True

/-! ## The condition -/

/-- The URL that a call asks: one that was discovered earlier, or the one of the issuer. -/
def askedUri (state : State κ) : Option String :=
  if settings.oidcJwksUri ≠ "" then some settings.oidcJwksUri
  else if settings.oidcIssuer = "" then none
  else (state.caches.discovered settings.oidcIssuer).or (state.issuer.discovery.filter (· ≠ ""))

/-- The keys of a URL that a call looks at: those that were fetched earlier, or the published
ones. -/
def heldKeys (state : State κ) (uri : String) : List (Jwk κ) :=
  (state.caches.keys uri).getD (state.issuer.published uri)

/-- At a call the keys that are held are not empty, and for a token of a published key the
first of them with its key id verifies it too. -/
def Held (state : State κ) : Event τ κ → Prop
  | .verify token =>
    match askedUri settings state with
    | none => state.caches.jwksCache ≠ some []
    | some uri => heldKeys state uri ≠ [] ∧
        ∀ key ∈ publishedKeys settings state.issuer, Signed jwt token key →
          ∃ header own, jwt.header token = some header ∧
            (heldKeys state uri).find? (fun key => key.kid = header.kid) = some own ∧
              jwt.decode token own.material ≠ none
  | _ => True

/-! ## What a call does -/

section

variable {settings : Settings} {jwt : Jwt τ κ γ} {issuer : Issuer κ} {caches : Caches κ}
  {state : State κ} {uri : String} {token : τ}

theorem resolveJwksUri_of_none (hasked : askedUri settings ⟨issuer, caches⟩ = none) :
    ∃ error, resolveJwksUri settings issuer caches = (.error error, caches) := by
  unfold askedUri at hasked
  unfold resolveJwksUri
  split at hasked
  · cases hasked
  next hconfigured =>
    rw [if_neg hconfigured]
    split at hasked
    next hissuer => exact ⟨_, if_pos hissuer⟩
    next hissuer =>
      obtain ⟨hdiscovered, hdiscovery⟩ := Option.or_eq_none_iff.mp hasked
      rw [if_neg hissuer, hdiscovered, hdiscovery]
      exact ⟨_, rfl⟩

/-- A call resolves the URL that it asks, and leaves the cached keys as they are. -/
theorem resolveJwksUri_of_some (hasked : askedUri settings ⟨issuer, caches⟩ = some uri) :
    ∃ resolved, resolveJwksUri settings issuer caches = (.ok uri, resolved) ∧
      resolved.jwksCache = caches.jwksCache ∧ resolved.jwksCacheUri = caches.jwksCacheUri := by
  unfold askedUri at hasked
  unfold resolveJwksUri
  split at hasked
  next hconfigured =>
    rw [if_pos hconfigured, Option.some.inj hasked]
    exact ⟨caches, rfl, rfl, rfl⟩
  next hconfigured =>
    rw [if_neg hconfigured]
    split at hasked
    · cases hasked
    next hissuer =>
      dsimp only at hasked
      rw [if_neg hissuer]
      cases hdiscovered : caches.discovered settings.oidcIssuer with
      | some own =>
        rw [hdiscovered, Option.some_or] at hasked
        rw [Option.some.inj hasked]
        exact ⟨caches, rfl, rfl, rfl⟩
      | none =>
        rw [hdiscovered, Option.none_or] at hasked
        rw [hasked]
        exact ⟨_, rfl, rfl, rfl⟩

/-- A call fetches the keys that are held, and they are cached afterwards. -/
theorem fetchJwks_of_some (hasked : askedUri settings ⟨issuer, caches⟩ = some uri) :
    ∃ fetched, fetchJwks settings issuer caches = (.ok (heldKeys ⟨issuer, caches⟩ uri), fetched) ∧
      fetched.jwksCache = some (heldKeys ⟨issuer, caches⟩ uri) := by
  obtain ⟨resolved, hresolved, hcache, huri⟩ := resolveJwksUri_of_some hasked
  have hkeys : resolved.keys uri = caches.keys uri := by
    rw [Caches.keys, Caches.keys, hcache, huri]
  unfold fetchJwks heldKeys
  rw [hresolved]
  dsimp only
  rw [hkeys]
  cases hheld : caches.keys uri with
  | none => exact ⟨_, rfl, rfl⟩
  | some keys =>
    refine ⟨resolved, rfl, ?_⟩
    unfold Caches.keys at hheld
    split at hheld
    · rw [hcache, hheld, Option.getD_some]
    · cases hheld

theorem checkToken_eq_ok_iff {jwks : List (Jwk κ)} :
    (∃ claims, checkToken jwt jwks token = .ok claims) ↔
      ∃ header own, jwt.header token = some header ∧ header.alg = some "RS256" ∧
        jwks.find? (fun key => key.kid = header.kid) = some own ∧
          jwt.decode token own.material ≠ none := by
  unfold checkToken
  cases hheader : jwt.header token with
  | none => simp
  | some header =>
    dsimp only
    by_cases halg : header.alg = some "RS256"
    · rw [if_neg (not_not.mpr halg)]
      cases hfind : jwks.find? fun key => key.kid = header.kid with
      | none => simp [hfind]
      | some own =>
        cases hdecode : jwt.decode token own.material with
        | none => simp [hfind, hdecode]
        | some claims => simp [hfind, hdecode, halg]
    · rw [if_pos halg]
      simp [halg]

/-- The issuer publishes its keys at a URL that is asked. -/
theorem publishedKeys_of_none (hasked : askedUri settings state = none) :
    publishedKeys settings state.issuer = [] := by
  have hnone : issuerUri settings state.issuer = none := by
    unfold askedUri at hasked
    unfold issuerUri
    split at hasked
    · cases hasked
    next hconfigured =>
      rw [if_neg hconfigured]
      split at hasked
      next hissuer => rw [if_pos hissuer]
      next hissuer =>
        rw [if_neg hissuer]
        exact (Option.or_eq_none_iff.mp hasked).2
  rw [publishedKeys, hnone, Option.map_none, Option.getD_none]

/-- A call is right exactly when the keys that are held serve it. -/
theorem right_iff_held (event : Event τ κ) :
    Right settings jwt state event ↔ Held settings jwt state event := by
  cases event with
  | publish uri keys => exact Iff.rfl
  | move jwksUri => exact Iff.rfl
  | verify token =>
    unfold Right Held
    cases hasked : askedUri settings state with
    | none =>
      obtain ⟨error, herror⟩ := resolveJwksUri_of_none hasked
      have hverify : verifyToken settings jwt state.issuer state.caches token =
          (.error error, state.caches) := by
        rw [verifyToken, fetchJwks, herror]
      simp only [publishedKeys_of_none hasked, List.not_mem_nil, false_and, exists_false,
        false_imp_iff, true_and, step, hverify]
    | some uri =>
      obtain ⟨fetched, hfetched, hcache⟩ := fetchJwks_of_some hasked
      have hverify : verifyToken settings jwt state.issuer state.caches token =
          (checkToken jwt (heldKeys state uri) token, fetched) := by
        rw [verifyToken, hfetched]
      simp only [step, hverify, hcache, Option.some.injEq, ne_eq]
      rw [checkToken_eq_ok_iff, and_comm]
      apply and_congr Iff.rfl
      apply Iff.intro
      · intro haccepts key hkey hsigned
        obtain ⟨header, own, hheader, -, hfind, hdecode⟩ := haccepts ⟨key, hkey, hsigned⟩
        exact ⟨header, own, hheader, hfind, hdecode⟩
      · rintro hheld ⟨key, hkey, hsigned⟩
        obtain ⟨header, own, hheader, hfind, hdecode⟩ := hheld key hkey hsigned
        obtain ⟨⟨kid, hkid⟩, -⟩ := hsigned
        have halg : header.alg = some "RS256" := by
          rw [Option.some.inj (hheader.symm.trans hkid)]
        exact ⟨header, own, hheader, halg, hfind, hdecode⟩

end

/-- In a history of publications and calls every call is right exactly when at each of them
the keys that are held serve it. -/
theorem path_right_iff_held (settings : Settings) (jwt : Jwt τ κ γ) (issuer : Issuer κ)
    (events : List (Event τ κ)) (state : State κ) :
    (machine settings jwt issuer).Path (Right settings jwt) events state ↔
      (machine settings jwt issuer).Path (Held settings jwt) events state :=
  Machine.path_congr (P := fun _ => True) trivial (fun _ _ _ => trivial)
    fun _ _ => right_iff_held _

/-! ## A rotation -/

/-- A library that knows a token by its key id and its key. -/
def sampleJwt : Jwt (String × ℕ) ℕ String where
  header token := some ⟨some "RS256", some token.1⟩
  decode token key := if token.2 = key then some "claims" else none

/-- An issuer that publishes a new key after the first call. -/
theorem not_right_of_rotation :
    ¬ ∀ (settings : Settings) (issuer : Issuer ℕ) (events : List (Event (String × ℕ) ℕ))
      (state : State ℕ), (machine settings sampleJwt issuer).Path Machine.anyStep events state →
        ∀ event, Right settings sampleJwt state event := by
  intro hclaim
  let settings : Settings := ⟨"https://issuer", "https://issuer/jwks"⟩
  let issuer : Issuer ℕ := ⟨none, fun _ => [⟨some "old", 1⟩]⟩
  let rotated : List (Jwk ℕ) := [⟨some "new", 2⟩]
  have hpath : (machine settings sampleJwt issuer).Path Machine.anyStep
      [.verify ("old", 1), .publish "https://issuer/jwks" rotated] _ :=
    Machine.path_of_runFrom rfl
  obtain ⟨haccepts, -⟩ := hclaim settings issuer _ _ hpath (.verify ("new", 2))
  obtain ⟨claims, hclaims⟩ := haccepts
    ⟨⟨some "new", 2⟩, List.mem_singleton_self _, ⟨_, rfl⟩, Option.some_ne_none _⟩
  cases hclaims

end DbtCraft.Core.TokenAuth
