/-
# The session token

The `jwt` callback of `server/auth/auth.ts` in requests that carry one session cookie. Each
decodes the cookie, reconciles the user, exchanges the refresh token when the access token is
about to expire, and answers with a cookie of its own. The identity provider rotates refresh
tokens and accepts each one once; they are known by the order in which they were issued.
-/

import DbtCraft.Math.Machine
import Mathlib.Data.Int.Notation
import Mathlib.Logic.Function.Basic

namespace DbtCraft.Server.SessionToken

open DbtCraft.Math

/-- `ACCESS_TOKEN_REFRESH_BUFFER_SECONDS`. -/
def accessTokenRefreshBufferSeconds : ℤ := 60

/-- `token.error`. -/
inductive TokenError
  | accessTokenRefreshError
  | accessTokenExpired
  deriving DecidableEq

/-- The JWT, as far as the callback reads and writes it. -/
structure Token where
  accessToken : Option String := none
  idToken : Option String := none
  refreshToken : Option ℕ := none
  /-- In seconds. -/
  accessTokenExpiresAt : Option ℤ := none
  error : Option TokenError := none
  deriving DecidableEq

/-- What the provider answers at a sign-in; its refresh token is the first. -/
structure Account where
  accessToken : String
  idToken : Option String := none
  expiresAt : Option ℤ := none
  expiresIn : Option ℤ := none
  deriving DecidableEq

/-- `RefreshTokenResponse`, beside the refresh token. -/
structure RefreshTokenResponse where
  accessToken : String
  expiresIn : ℤ
  idToken : Option String := none
  deriving DecidableEq

/-- `Math.floor(Date.now() / 1000)`. -/
def seconds (now : ℕ) : ℤ := (now / 1000 : ℕ)

namespace Token

variable (token : Token)

/-- The branch for a sign-in. -/
def signIn (now : ℕ) (account : Account) : Token where
  accessToken := some account.accessToken
  idToken := account.idToken
  refreshToken := some 0
  accessTokenExpiresAt := some (account.expiresAt.getD (seconds now + account.expiresIn.getD 0))

/-- `token.accessToken`, as a condition. -/
def hasAccessToken : Bool :=
  match token.accessToken with
  | some accessToken => accessToken ≠ ""
  | none => false

/-- The access token is not about to expire. -/
def isFresh (now : ℕ) : Bool :=
  token.hasAccessToken &&
    match token.accessTokenExpiresAt with
    | some expiresAt =>
      expiresAt ≠ 0 && (now : ℤ) < (expiresAt - accessTokenRefreshBufferSeconds) * 1000
    | none => false

/-- The token takes over what the provider has answered. -/
def refresh (now : ℕ) (refreshed : RefreshTokenResponse) (refreshToken : ℕ) : Token where
  accessToken := some refreshed.accessToken
  idToken := refreshed.idToken.or token.idToken
  refreshToken := some refreshToken
  accessTokenExpiresAt := some (seconds now + refreshed.expiresIn)

end Token

/-- Where a request is. -/
inductive Request
  | idle
  | /-- In the callback, with the token of its cookie, at `ensureOidcUser`. -/
    reconciling (token : Token)
  | /-- In `refreshAccessToken`, before the provider. -/
    refreshing (token : Token)
  | /-- The provider has issued another refresh token. -/
    granted (token : Token) (refreshed : RefreshTokenResponse) (refreshToken : ℕ)
  | /-- `refreshAccessToken` is to throw. -/
    refused (token : Token)
  | /-- The callback has ended. -/
    responding (token : Token)
  deriving DecidableEq

structure State where
  /-- In milliseconds. -/
  now : ℕ
  /-- The session at the provider. -/
  alive : Bool := true
  /-- The one refresh token that the provider accepts. -/
  current : ℕ := 0
  cookie : Token
  requests : ℕ → Request := fun _ => .idle

inductive Event
  | elapse (milliseconds : ℕ)
  | receive (request : ℕ)
  | reconciled (request : ℕ)
  | /-- The provider handles the refresh token of a request. -/
    exchange (request : ℕ) (refreshed : RefreshTokenResponse)
  | answered (request : ℕ)
  | /-- The provider is not reached, or its answer is lost. -/
    lost (request : ℕ)
  | /-- The browser takes the cookie of the response. -/
    respond (request : ℕ)
  | /-- The request ends without one. -/
    drop (request : ℕ)
  | /-- The session at the provider ends. -/
    revoke
  deriving DecidableEq

/-- The callback past `ensureOidcUser`. -/
def jwt (now : ℕ) (token : Token) : Request :=
  if token.isFresh now then .responding token
  else
    match token.refreshToken with
    | some _ => .refreshing token
    | none =>
      if token.hasAccessToken then .responding { token with error := some .accessTokenExpired }
      else .responding token

def State.setRequest (state : State) (request : ℕ) (value : Request) : State :=
  { state with requests := Function.update state.requests request value }

/-- The provider accepts a refresh token once. -/
def exchange (state : State) (request : ℕ) (token : Token) (refreshed : RefreshTokenResponse) :
    State :=
  if state.alive = true ∧ token.refreshToken = some state.current then
    { state with current := state.current + 1 }.setRequest request
      (.granted token refreshed (state.current + 1))
  else state.setRequest request (.refused token)

def step (state : State) : Event → Option State
  | .elapse milliseconds => some { state with now := state.now + milliseconds }
  | .receive request =>
    match state.requests request with
    | .idle => some (state.setRequest request (.reconciling state.cookie))
    | _ => none
  | .reconciled request =>
    match state.requests request with
    | .reconciling token => some (state.setRequest request (jwt state.now token))
    | _ => none
  | .exchange request refreshed =>
    match state.requests request with
    | .refreshing token => some (exchange state request token refreshed)
    | _ => none
  | .answered request =>
    match state.requests request with
    | .granted token refreshed refreshToken =>
      some (state.setRequest request (.responding (token.refresh state.now refreshed refreshToken)))
    | .refused token =>
      some (state.setRequest request
        (.responding { token with error := some .accessTokenRefreshError }))
    | _ => none
  | .lost request =>
    match state.requests request with
    | .refreshing token | .granted token _ _ => some (state.setRequest request (.refused token))
    | _ => none
  | .respond request =>
    match state.requests request with
    | .responding token => some ({ state with cookie := token }.setRequest request .idle)
    | _ => none
  | .drop request =>
    match state.requests request with
    | .idle => none
    | _ => some (state.setRequest request .idle)
  | .revoke => some { state with alive := false }

/-- The requests with the cookie of one sign-in. -/
def machine (now : ℕ) (account : Account) : Machine State Event where
  init := { now, cookie := Token.signIn now account }
  step := step

end DbtCraft.Server.SessionToken
