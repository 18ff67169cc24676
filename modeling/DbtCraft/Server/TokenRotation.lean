/-
# Refreshing beside other requests

No callback is to end with an error while the provider's session is alive, and the cookie that
is left is to hold a refresh token that the provider still accepts. A request keeps the
refresh token it has read from its cookie: another request may use it up before, and its own
answer may put it back over a newer one. Along every run without these steps, in which no
answer of the provider is lost, the user stays signed in.
-/

import DbtCraft.Server.SessionToken

namespace DbtCraft.Server.SessionToken

open DbtCraft.Math

variable {now request other : ℕ} {account : Account} {state next : State} {event : Event}
  {events : List Event} {token : Token} {value : Request}

/-! ## The guarantee -/

structure SignedIn (state : State) : Prop where
  callbacks : state.alive = true → ∀ request token,
    state.requests request = .responding token → token.error = none
  cookie : state.alive = true → (∀ request, state.requests request = .idle) →
    state.cookie.refreshToken = some state.current

/-- A refresh token that was issued before another one. -/
def Token.Older (first second : Token) : Prop :=
  match first.refreshToken, second.refreshToken with
  | some own, some later => own < later
  | _, _ => False

instance (first second : Token) : Decidable (first.Older second) := by
  unfold Token.Older
  split <;> infer_instance

/-- Nobody else has exchanged the refresh token of the request. -/
def MayExchange (current : ℕ) : Request → Prop
  | .refreshing token => token.refreshToken = some current
  | _ => True

/-- The response does not go over a later refresh token. -/
def MayRespond (cookie : Token) : Request → Prop
  | .responding token => ¬ token.Older cookie
  | _ => True

/-- The request has no refresh token that is later than the one of the cookie. -/
def MayDrop (cookie : Token) : Request → Prop
  | .granted .. => False
  | .responding token => ¬ cookie.Older token
  | _ => True

instance (current : ℕ) (value : Request) : Decidable (MayExchange current value) := by
  unfold MayExchange
  split <;> infer_instance

instance (cookie : Token) (value : Request) : Decidable (MayRespond cookie value) := by
  unfold MayRespond
  split <;> infer_instance

instance (cookie : Token) (value : Request) : Decidable (MayDrop cookie value) := by
  unfold MayDrop
  split <;> infer_instance

/-- No request exchanges a refresh token that another one has exchanged, or answers with one
over a later one, and the latest refresh token is not lost. -/
def Orderly (state : State) : Event → Prop
  | .exchange request _ => MayExchange state.current (state.requests request)
  | .lost _ => False
  | .respond request => MayRespond state.cookie (state.requests request)
  | .drop request => MayDrop state.cookie (state.requests request)
  | .elapse _ | .receive _ | .reconciled _ | .answered _ | .revoke => True

instance (state : State) (event : Event) : Decidable (Orderly state event) := by
  cases event <;> unfold Orderly <;> infer_instance

/-! ## The invariant -/

/-- A token without an error, and with a refresh token of the provider. -/
def Sound (state : State) (token : Token) : Prop :=
  token.error = none ∧ ∃ refreshToken ≤ state.current, token.refreshToken = some refreshToken

/-- What a request carries. -/
def Carries (state : State) : Request → Prop
  | .idle => True
  | .reconciling token | .refreshing token | .responding token => Sound state token
  | .granted _ _ refreshToken => refreshToken ≤ state.current
  | .refused _ => False

/-- A request is to answer with the refresh token that the provider accepts. -/
def Brings (current : ℕ) : Request → Prop
  | .granted _ _ refreshToken => refreshToken = current
  | .responding token => token.refreshToken = some current
  | _ => False

structure Live (state : State) : Prop where
  cookie : Sound state state.cookie
  requests : ∀ request, Carries state (state.requests request)
  latest : state.cookie.refreshToken = some state.current ∨
    ∃ request, Brings state.current (state.requests request)

/-- What holds while the session is alive. -/
def Inv (state : State) : Prop := state.alive = true → Live state

theorem inv_init : Inv (machine now account).init := fun _ =>
  ⟨⟨rfl, 0, Nat.le_refl 0, rfl⟩, fun _ => trivial, .inl rfl⟩

theorem Live.signedIn (hlive : Live state) : SignedIn state where
  callbacks _ request token hrequest := by
    have hcarries := hlive.requests request
    rw [hrequest] at hcarries
    exact hcarries.1
  cookie _ hidle := by
    rcases hlive.latest with hlatest | ⟨request, hbrings⟩
    · exact hlatest
    · rw [hidle request] at hbrings
      exact hbrings.elim

theorem Inv.signedIn (hinv : Inv state) : SignedIn state where
  callbacks halive := (hinv halive).signedIn.callbacks halive
  cookie halive := (hinv halive).signedIn.cookie halive

/-! ## The steps -/

theorem requests_setRequest : (state.setRequest request value).requests other =
    if other = request then value else state.requests other :=
  Function.update_apply ..

/-- A request moves on, and the latest refresh token stays where it is. -/
theorem Live.setRequest (hlive : Live state) (hcarries : Carries state value)
    (hbrings : Brings state.current (state.requests request) →
      Brings state.current value ∨ state.cookie.refreshToken = some state.current) :
    Live (state.setRequest request value) where
  cookie := hlive.cookie
  requests other := by
    rw [requests_setRequest]
    split
    · cases value <;> exact hcarries
    · have hbefore := hlive.requests other
      cases hat : state.requests other <;> rw [hat] at hbefore <;> exact hbefore
  latest := by
    rcases hlive.latest with hlatest | ⟨holder, hholder⟩
    · exact .inl hlatest
    · by_cases hsame : holder = request
      · subst hsame
        rcases hbrings hholder with hnow | hlatest
        · refine .inr ⟨holder, ?_⟩
          rw [requests_setRequest, if_pos rfl]
          exact hnow
        · exact .inl hlatest
      · refine .inr ⟨holder, ?_⟩
        rw [requests_setRequest, if_neg hsame]
        exact hholder

theorem carries_jwt (hsound : Sound state token) : Carries state (jwt now token) := by
  obtain ⟨refreshToken, -, hrefresh⟩ := hsound.2
  unfold jwt
  split
  · exact hsound
  · rw [hrefresh]
    exact hsound

theorem Sound.later (hsound : Sound state token) {later : ℕ} (hlater : state.current ≤ later) :
    Sound { state with current := later } token := by
  obtain ⟨herror, refreshToken, hissued, hrefresh⟩ := hsound
  exact ⟨herror, refreshToken, Nat.le_trans hissued hlater, hrefresh⟩

/-- The provider issues another refresh token to a request. -/
theorem Live.grant {refreshed : RefreshTokenResponse} (hlive : Live state) :
    Live ({ state with current := state.current + 1 }.setRequest request
      (.granted token refreshed (state.current + 1))) where
  cookie := hlive.cookie.later (Nat.le_succ _)
  requests other := by
    rw [requests_setRequest]
    split
    · exact Nat.le_refl _
    · have hbefore := hlive.requests other
      show Carries _ (state.requests other)
      cases hat : state.requests other with
      | idle => trivial
      | reconciling token | refreshing token | responding token =>
        rw [hat] at hbefore
        exact Sound.later hbefore (Nat.le_succ _)
      | granted _ _ refreshToken =>
        rw [hat] at hbefore
        exact Nat.le_succ_of_le hbefore
      | refused _ =>
        rw [hat] at hbefore
        exact hbefore
  latest := by
    refine .inr ⟨request, ?_⟩
    rw [requests_setRequest, if_pos rfl]
    rfl

/-- The browser takes a cookie that is not older than its own. -/
theorem Live.respond (hlive : Live state) (hrequest : state.requests request = .responding token)
    (hnewer : ¬ token.Older state.cookie) :
    Live ({ state with cookie := token }.setRequest request .idle) := by
  have hcarries := hlive.requests request
  rw [hrequest] at hcarries
  obtain ⟨-, own, hown, hrefresh⟩ := hcarries
  refine ⟨hlive.requests request |> fun h => by rw [hrequest] at h; exact h, ?_, ?_⟩
  · intro other
    rw [requests_setRequest]
    split
    · trivial
    · have hbefore := hlive.requests other
      show Carries _ (state.requests other)
      cases hat : state.requests other <;> rw [hat] at hbefore <;> exact hbefore
  · rcases hlive.latest with hlatest | ⟨keeper, hkeeper⟩
    · left
      simp only [Token.Older, hrefresh, hlatest, Nat.not_lt] at hnewer
      show token.refreshToken = some state.current
      rw [hrefresh, Nat.le_antisymm hown hnewer]
    · by_cases hsame : keeper = request
      · subst hsame
        rw [hrequest] at hkeeper
        exact .inl hkeeper
      · right
        refine ⟨keeper, ?_⟩
        rw [requests_setRequest, if_neg hsame]
        exact hkeeper

/-- A request that brings no later refresh token than the cookie is dropped. -/
theorem Live.drop (hlive : Live state)
    (hdrop : MayDrop state.cookie (state.requests request)) :
    Live (state.setRequest request .idle) := by
  refine hlive.setRequest trivial fun hbrings => ?_
  cases hrequest : state.requests request with
  | granted _ _ refreshToken =>
    rw [hrequest] at hdrop
    exact hdrop.elim
  | responding token =>
    rw [hrequest] at hdrop hbrings
    obtain ⟨-, own, hown, hrefresh⟩ := hlive.cookie
    have hlatest : token.refreshToken = some state.current := hbrings
    have hnewer : ¬ state.cookie.Older token := hdrop
    simp only [Token.Older, hrefresh, hlatest, Nat.not_lt] at hnewer
    right
    rw [hrefresh, Nat.le_antisymm hown hnewer]
  | idle | reconciling token | refreshing token | refused token =>
    rw [hrequest] at hbrings
    exact hbrings.elim

theorem inv_step (hinv : Inv state) (horderly : Orderly state event)
    (hstep : step state event = some next) : Inv next := by
  cases event with
  | elapse milliseconds =>
    cases hstep
    intro halive
    have hlive := hinv halive
    refine ⟨hlive.cookie, fun request => ?_, hlive.latest⟩
    have hbefore := hlive.requests request
    show Carries _ (state.requests request)
    cases hat : state.requests request <;> rw [hat] at hbefore <;> exact hbefore
  | receive request =>
    simp only [step] at hstep
    split at hstep <;> cases hstep
    next hrequest =>
      intro halive
      have hlive := hinv halive
      refine hlive.setRequest hlive.cookie fun hbrings => ?_
      rw [hrequest] at hbrings
      exact hbrings.elim
  | reconciled request =>
    simp only [step] at hstep
    split at hstep <;> cases hstep
    next token hrequest =>
      intro halive
      have hlive := hinv halive
      have hcarries := hlive.requests request
      rw [hrequest] at hcarries
      refine hlive.setRequest (carries_jwt hcarries) fun hbrings => ?_
      rw [hrequest] at hbrings
      exact hbrings.elim
  | exchange request refreshed =>
    simp only [step] at hstep
    split at hstep <;> cases hstep
    next token hrequest =>
      have hmay : MayExchange state.current (state.requests request) := horderly
      rw [hrequest] at hmay
      unfold exchange
      split
      · exact fun halive => (hinv halive).grant
      next hrefused => exact fun halive => absurd ⟨halive, hmay⟩ hrefused
  | answered request =>
    simp only [step] at hstep
    split at hstep <;> cases hstep
    next token refreshed refreshToken hrequest =>
      intro halive
      have hlive := hinv halive
      have hcarries := hlive.requests request
      rw [hrequest] at hcarries
      refine hlive.setRequest ⟨rfl, refreshToken, hcarries, rfl⟩ fun hbrings => ?_
      rw [hrequest] at hbrings
      exact .inl (congrArg some hbrings)
    next token hrequest =>
      intro halive
      have hcarries := (hinv halive).requests request
      rw [hrequest] at hcarries
      exact hcarries.elim
  | lost request => exact horderly.elim
  | respond request =>
    simp only [step] at hstep
    split at hstep <;> cases hstep
    next token hrequest =>
      have hmay : MayRespond state.cookie (state.requests request) := horderly
      rw [hrequest] at hmay
      exact fun halive => (hinv halive).respond hrequest hmay
  | drop request =>
    simp only [step] at hstep
    split at hstep <;> cases hstep
    exact fun halive => (hinv halive).drop horderly
  | revoke =>
    cases hstep
    rintro ⟨⟩

/-- **The user stays signed in**, in every state of an orderly run. -/
theorem signedIn_of_orderly (hpath : (machine now account).Path Orderly events state) :
    SignedIn state :=
  (hpath.invariant inv_init inv_step).signedIn

/-- An access token of five minutes. -/
def sampleAccount : Account := { accessToken := "a1", expiresIn := some 300 }

/-- Two requests, of which the second reads the cookie of the first. -/
theorem signedIn_of_one_refresh :
    ∃ state, SignedIn state ∧ state.current = 1 ∧ state.cookie.refreshToken = some 1 := by
  obtain ⟨state, hrun, hcurrent, hcookie⟩ : ∃ state,
      (machine 0 sampleAccount).runUnder Orderly (machine 0 sampleAccount).init
        [.receive 2, .elapse 250000, .receive 0, .reconciled 0, .exchange 0 ⟨"a2", 300, none⟩,
          .answered 0, .drop 2, .respond 0, .receive 1, .reconciled 1, .respond 1] = some state ∧
      state.current = 1 ∧ state.cookie.refreshToken = some 1 := ⟨_, rfl, rfl, rfl⟩
  exact ⟨state, signedIn_of_orderly (Machine.path_of_runUnder hrun), hcurrent, hcookie⟩

/-- Two requests read the cookie before either has refreshed its token. -/
theorem not_signedIn_of_two_refreshes : ¬ ∀ (now : ℕ) (account : Account) (events : List Event)
    (state : State), (machine now account).Path Machine.anyStep events state → SignedIn state := by
  intro hclaim
  obtain ⟨state, hrun, halive, hrequest⟩ : ∃ state,
      (machine 0 sampleAccount).runFrom (machine 0 sampleAccount).init
        [.elapse 250000, .receive 0, .receive 1, .reconciled 0, .reconciled 1,
          .exchange 0 ⟨"a2", 300, none⟩, .exchange 1 ⟨"a3", 300, none⟩, .answered 1] =
        some state ∧ state.alive = true ∧
      state.requests 1 = .responding { Token.signIn 0 sampleAccount with
        error := some .accessTokenRefreshError } := ⟨_, rfl, rfl, rfl⟩
  have hnone := (hclaim _ _ _ _ (Machine.path_of_runFrom hrun)).callbacks halive 1 _ hrequest
  cases hnone

end DbtCraft.Server.SessionToken
