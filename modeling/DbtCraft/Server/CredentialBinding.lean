/-
# Credentials and their endpoints

Over any sequence of calls a stored key goes to the endpoint that it was entered for as long
as routes do not share a name, or share the endpoint too. A call that enters a key under the
name of another route, moves a route away from its name, or deletes a route whose name is
shared is where the two tables come apart.
-/

import DbtCraft.Server.AiProviders

namespace DbtCraft.Server.AiProviders

open DbtCraft.Math DbtCraft.Python

variable {runtime : Runtime} {account : Account} {input : ProviderInput}

/-! ## The guarantee -/

/-- What the agent gets of a user. -/
structure Bound (runtime : Runtime) (account : Account) : Prop where
  /-- A secret goes with the base URL that it was last entered together with. -/
  paired : ∀ route entry secret, (resolveRoutes runtime account).providers route = some entry →
    (resolveRoutes runtime account).credentials entry.apiKeyEnv = some secret →
      account.entered.get entry.apiKeyEnv = some (secret, entry.baseURL)
  /-- A secret that is forwarded is one that a route names. -/
  referenced : ∀ name secret, (resolveRoutes runtime account).credentials name = some secret →
    ∃ route entry, (resolveRoutes runtime account).providers route = some entry ∧
      entry.apiKeyEnv = name
  oneDefault : ∀ route other row own, account.providers.get route = some row →
    account.providers.get other = some own → row.isDefault = true → own.isDefault = true →
      route = other

/-- The route that a call deletes, or that it writes over. -/
def touched : Call → String
  | .upsert input => input.name
  | .delete route => route

/-- Deleting or changing a route leaves the credentials that the other ones name. -/
def Keeps (runtime : Runtime) (account : Account) (call : Call) : Prop :=
  account.providers.get (touched call) ≠ none →
    ∀ other row credential, other ≠ touched call → account.providers.get other = some row →
      account.credentials.get row.apiKeyEnv = some credential →
        (callOf runtime account call).credentials.get row.apiKeyEnv = some credential

/-- A call of a user leaves everything bound. -/
def Right (runtime : Runtime) (accounts : String → Account) (call : String × Call) : Prop :=
  Bound runtime (callOf runtime (accounts call.1) call.2) ∧
    Keeps runtime (accounts call.1) call.2

/-! ## The condition -/

/-- The name and the base URL of a route. -/
def pointsTo (account : Account) (route : String) : Option (String × Option String) :=
  (account.providers.get route).map fun row => (row.apiKeyEnv, row.baseUrl)

/-- Another route points to this name. -/
def Shared (account : Account) (route name : String) : Prop :=
  ∃ other baseUrl, other ≠ route ∧ pointsTo account other = some (name, baseUrl)

/-- A key is entered under a name of its own or with the base URL of the routes that share the
name, and where the route is already there it replaces no other key of theirs; a route leaves
no key behind at the name that it moves away from; and a route that is deleted does not share
the name of a stored key. -/
def Apart (runtime : Runtime) (account : Account) : Call → Prop
  | .upsert input => refusal runtime account input = none →
    (∀ apiKey, input.suppliedApiKey = some apiKey →
      (∀ other baseUrl, other ≠ input.name →
        pointsTo account other = some (input.reference, baseUrl) → baseUrl = input.endpoint) ∧
      (account.providers.get input.name ≠ none → Shared account input.name input.reference →
        ∀ credential, account.credentials.get input.reference = some credential →
          credential = ⟨input.name, runtime.encryptSecret apiKey⟩)) ∧
    ∀ name baseUrl, pointsTo account input.name = some (name, baseUrl) → name ≠ input.reference →
      account.credentials.get name ≠ none → Shared account input.name name
  | .delete route => ∀ name baseUrl, pointsTo account route = some (name, baseUrl) →
    Shared account route name → account.credentials.get name = none

/-! ## Rows -/

/-- A stored key is the one that was entered last. -/
def Sealed (runtime : Runtime) (account : Account) : Prop :=
  ∀ name credential, account.credentials.get name = some credential →
    ∃ secret baseUrl, account.entered.get name = some (secret, baseUrl) ∧
      credential.apiKeyEncrypted = runtime.encryptSecret secret

/-- A stored key was entered with the base URL of every route that names it. -/
def Paired (account : Account) : Prop :=
  ∀ route name baseUrl, pointsTo account route = some (name, baseUrl) →
    account.credentials.get name ≠ none → ∃ secret, account.entered.get name = some (secret, baseUrl)

/-- A stored key is one that a route names. -/
def Referenced (account : Account) : Prop :=
  ∀ name, account.credentials.get name ≠ none →
    ∃ route baseUrl, pointsTo account route = some (name, baseUrl)

/-- At most one route is the default. -/
def OneDefault (account : Account) : Prop :=
  ∀ route other row own, account.providers.get route = some row →
    account.providers.get other = some own → row.isDefault = true → own.isDefault = true →
      route = other

theorem credentials_resolveRoutes (hsealed : Sealed runtime account) {name secret : String} :
    (resolveRoutes runtime account).credentials name = some secret ↔
      account.credentials.get name ≠ none ∧ ∃ baseUrl, account.entered.get name = some (secret, baseUrl) := by
  show ((account.credentials.get name).bind fun row => runtime.decryptSecret row.apiKeyEncrypted) =
    some secret ↔ _
  cases hcredential : account.credentials.get name with
  | none => simp
  | some credential =>
    obtain ⟨own, baseUrl, hentered, hencrypted⟩ := hsealed name credential hcredential
    rw [Option.bind_some, hencrypted, runtime.decrypt_encrypt, hentered]
    simp

theorem providers_resolveRoutes {route name : String} {baseUrl : Option String} :
    (∃ entry, (resolveRoutes runtime account).providers route = some entry ∧
        entry.apiKeyEnv = name ∧ entry.baseURL = baseUrl) ↔
      pointsTo account route = some (name, baseUrl) := by
  show (∃ entry, (account.providers.get route).map entryOf = some entry ∧ _) ↔ _
  unfold pointsTo
  cases account.providers.get route with
  | none => simp
  | some row => simp [entryOf]

/-- What the agent gets is bound exactly when the rows are. -/
theorem bound_iff (hsealed : Sealed runtime account) :
    Bound runtime account ↔ Paired account ∧ Referenced account ∧ OneDefault account := by
  apply Iff.intro
  · intro hbound
    refine ⟨?_, ?_, hbound.oneDefault⟩
    · intro route name baseUrl hpoints hstored
      obtain ⟨entry, hentry, rfl, rfl⟩ := providers_resolveRoutes.mpr hpoints
      obtain ⟨credential, hcredential⟩ := Option.ne_none_iff_exists'.mp hstored
      obtain ⟨secret, endpoint, hentered, -⟩ := hsealed _ credential hcredential
      exact ⟨secret, hbound.paired route entry secret hentry
        ((credentials_resolveRoutes hsealed).mpr ⟨hstored, endpoint, hentered⟩)⟩
    · intro name hstored
      obtain ⟨credential, hcredential⟩ := Option.ne_none_iff_exists'.mp hstored
      obtain ⟨secret, endpoint, hentered, -⟩ := hsealed _ credential hcredential
      obtain ⟨route, entry, hentry, hname⟩ := hbound.referenced name secret
        ((credentials_resolveRoutes hsealed).mpr ⟨hstored, endpoint, hentered⟩)
      exact ⟨route, entry.baseURL, providers_resolveRoutes.mp ⟨entry, hentry, hname, rfl⟩⟩
  · rintro ⟨hpaired, hreferenced, hdefault⟩
    refine ⟨?_, ?_, hdefault⟩
    · intro route entry secret hentry hsecret
      obtain ⟨hstored, endpoint, hentered⟩ := (credentials_resolveRoutes hsealed).mp hsecret
      obtain ⟨own, hown⟩ := hpaired route entry.apiKeyEnv entry.baseURL
        (providers_resolveRoutes.mp ⟨entry, hentry, rfl, rfl⟩) hstored
      rw [hentered] at hown
      rw [hentered, (Prod.mk.inj (Option.some.inj hown)).2]
    · intro name secret hsecret
      obtain ⟨route, baseUrl, hpoints⟩ :=
        hreferenced name ((credentials_resolveRoutes hsealed).mp hsecret).1
      obtain ⟨entry, hentry, hname, -⟩ : ∃ entry,
          (resolveRoutes runtime account).providers route = some entry ∧
            entry.apiKeyEnv = name ∧ entry.baseURL = baseUrl := providers_resolveRoutes.mpr hpoints
      exact ⟨route, entry, hentry, hname⟩

/-! ## What a call leaves -/

theorem get_map {κ ν μ : Type} [DecidableEq κ] (change : ν → μ) {dict : Dict κ ν} {key : κ} :
    Dict.get (dict.map fun item => (item.1, change item.2)) key = (dict.get key).map change := by
  induction dict with
  | nil => rfl
  | cons item rest ih =>
    rw [List.map_cons, Dict.get, Dict.get, ih]
    split <;> rfl

/-- A row that is no default any more. -/
def clear (isDefault : Bool) (row : AiProvider) : AiProvider :=
  if isDefault then { row with isDefault := false } else row

theorem get_cleared {route : String} :
    (cleared account input).get route = (account.providers.get route).map (clear input.isDefault) := by
  unfold cleared
  cases input.isDefault with
  | true => exact get_map (clear true)
  | false =>
    show account.providers.get route = (account.providers.get route).map fun row => row
    rw [Option.map_id']

theorem apiKeyEnv_clear (isDefault : Bool) (row : AiProvider) :
    (clear isDefault row).apiKeyEnv = row.apiKeyEnv := by
  cases isDefault <;> rfl

theorem baseUrl_clear (isDefault : Bool) (row : AiProvider) :
    (clear isDefault row).baseUrl = row.baseUrl := by
  cases isDefault <;> rfl

theorem get_providers_written {route : String} :
    (written runtime account input).providers.get route =
      if route = input.name then some (rowOf input) else (cleared account input).get route := by
  unfold written
  cases input.suppliedApiKey with
  | none => exact Dict.get_set
  | some apiKey => exact Dict.get_set

theorem pointsTo_written {route : String} :
    pointsTo (written runtime account input) route =
      if route = input.name then some (input.reference, input.endpoint)
      else pointsTo account route := by
  unfold pointsTo
  rw [get_providers_written]
  split
  · rfl
  · rw [get_cleared, Option.map_map]
    apply congrArg fun change => (account.providers.get route).map change
    funext row
    exact Prod.ext (apiKeyEnv_clear input.isDefault row) (baseUrl_clear input.isDefault row)

theorem pointsTo_delete {route other : String} :
    pointsTo (deleteProvider account route) other =
      if other = route then none else pointsTo account other := by
  unfold deleteProvider
  cases hrow : account.providers.get route with
  | none =>
    by_cases hsame : other = route
    · rw [if_pos hsame, pointsTo, hsame, hrow, Option.map_none]
    · rw [if_neg hsame]
  | some row =>
    show ((account.providers.pop route).get other).map _ = _
    rw [Dict.get_pop]
    split
    · rfl
    · rfl

/-- At most one route is the default after a call that writes. -/
theorem oneDefault_written (hdefault : OneDefault account) :
    OneDefault (written runtime account input) := by
  have hother : ∀ {route row}, route ≠ input.name →
      (written runtime account input).providers.get route = some row → row.isDefault = true →
        input.isDefault = false ∧ account.providers.get route = some row := by
    intro route row hroute hrow hisDefault
    rw [get_providers_written, if_neg hroute, get_cleared] at hrow
    obtain ⟨own, hown, rfl⟩ := Option.map_eq_some_iff.mp hrow
    cases hinput : input.isDefault with
    | true =>
      rw [hinput] at hisDefault
      cases hisDefault
    | false => exact ⟨rfl, hown⟩
  intro route other row own hrow hown hrowDefault hownDefault
  by_cases hroute : route = input.name
  · by_cases hsame : other = input.name
    · exact hroute.trans hsame.symm
    · rw [get_providers_written, if_pos hroute] at hrow
      have hinput : input.isDefault = true := by
        rw [← Option.some.inj hrow] at hrowDefault
        exact hrowDefault
      rw [(hother hsame hown hownDefault).1] at hinput
      cases hinput
  · by_cases hsame : other = input.name
    · rw [get_providers_written, if_pos hsame] at hown
      have hinput : input.isDefault = true := by
        rw [← Option.some.inj hown] at hownDefault
        exact hownDefault
      rw [(hother hroute hrow hrowDefault).1] at hinput
      cases hinput
    · exact hdefault route other row own (hother hroute hrow hrowDefault).2
        (hother hsame hown hownDefault).2 hrowDefault hownDefault

theorem oneDefault_delete (hdefault : OneDefault account) (deleted : String) :
    OneDefault (deleteProvider account deleted) := by
  have hkept : ∀ {route row}, (deleteProvider account deleted).providers.get route = some row →
      account.providers.get route = some row := by
    intro route row hrow
    unfold deleteProvider at hrow
    split at hrow
    · exact hrow
    · rw [Dict.get_pop] at hrow
      split at hrow
      · cases hrow
      · exact hrow
  exact fun route other row own hrow hown =>
    hdefault route other row own (hkept hrow) (hkept hown)

theorem written_of_none (hkey : input.suppliedApiKey = none) :
    (written runtime account input).credentials = account.credentials ∧
      (written runtime account input).entered = account.entered := by
  unfold written
  rw [hkey]
  exact ⟨rfl, rfl⟩

theorem written_of_some {apiKey : String} (hkey : input.suppliedApiKey = some apiKey) :
    (written runtime account input).credentials = account.credentials.set input.reference
        ⟨input.name, runtime.encryptSecret apiKey⟩ ∧
      (written runtime account input).entered =
        account.entered.set input.reference (apiKey, input.endpoint) := by
  unfold written
  rw [hkey]
  exact ⟨rfl, rfl⟩

/-- A call without a key leaves a stored key where the route already points. -/
theorem pointsTo_of_refusal (haccepted : refusal runtime account input = none)
    (hkey : input.suppliedApiKey = none) :
    account.providers.get input.name ≠ none ∧ (account.credentials.get input.reference ≠ none →
      pointsTo account input.name = some (input.reference, input.endpoint)) := by
  unfold refusal at haccepted
  split at haccepted
  · cases haccepted
  · split at haccepted
    · cases haccepted
    next hcreates =>
      split at haccepted
      · cases haccepted
      next hmoves =>
        have hthere : account.providers.get input.name ≠ none :=
          fun hnone => hcreates ⟨hnone, hkey⟩
        refine ⟨hthere, fun hstored => ?_⟩
        obtain ⟨row, hrow⟩ := Option.ne_none_iff_exists'.mp hthere
        have hstays : movesStoredCredential account input = false :=
          Bool.eq_false_iff.mpr fun hmove => hmoves ⟨hmove, hkey⟩
        rw [movesStoredCredential, hrow, Option.isSome_iff_ne_none.mpr hstored, Bool.true_and,
          Bool.or_eq_false_iff] at hstays
        rw [pointsTo, hrow, Option.map_some, ← not_not.mp (of_decide_eq_false hstays.1),
          ← not_not.mp (of_decide_eq_false hstays.2)]

/-- A call that throws changes nothing. -/
theorem callOf_refused {message : String} (hrefused : refusal runtime account input = some message) :
    callOf runtime account (.upsert input) = account := by
  have hupsert : upsertProvider runtime account input = .error message := by
    rw [upsertProvider, hrefused]
  rw [callOf, hupsert]
  rfl

theorem callOf_accepted (haccepted : refusal runtime account input = none) :
    callOf runtime account (.upsert input) = written runtime account input := by
  have hupsert : upsertProvider runtime account input = .ok (written runtime account input) := by
    rw [upsertProvider, haccepted]
  rw [callOf, hupsert]
  rfl

theorem sealed_callOf (hsealed : Sealed runtime account) (call : Call) :
    Sealed runtime (callOf runtime account call) := by
  cases call with
  | delete route =>
    intro name credential hcredential
    show ∃ secret baseUrl, (deleteProvider account route).entered.get name = _ ∧ _
    have hkept : account.credentials.get name = some credential ∧
        (deleteProvider account route).entered = account.entered := by
      change (deleteProvider account route).credentials.get name = some credential at hcredential
      unfold deleteProvider at hcredential ⊢
      split at hcredential
      · exact ⟨hcredential, rfl⟩
      · rw [Dict.get_pop] at hcredential
        split at hcredential
        · cases hcredential
        · exact ⟨hcredential, rfl⟩
    rw [hkept.2]
    exact hsealed name credential hkept.1
  | upsert input =>
    cases haccepted : refusal runtime account input with
    | some message =>
      rw [callOf_refused haccepted]
      exact hsealed
    | none =>
      rw [callOf_accepted haccepted]
      cases hkey : input.suppliedApiKey with
      | none =>
        intro name credential hcredential
        rw [(written_of_none hkey).1] at hcredential
        rw [(written_of_none hkey).2]
        exact hsealed name credential hcredential
      | some apiKey =>
        intro name credential hcredential
        rw [(written_of_some hkey).1, Dict.get_set] at hcredential
        rw [(written_of_some hkey).2, Dict.get_set]
        by_cases hname : name = input.reference
        · rw [if_pos hname] at hcredential ⊢
          exact ⟨apiKey, input.endpoint, rfl, by rw [← Option.some.inj hcredential]⟩
        · rw [if_neg hname] at hcredential ⊢
          exact hsealed name credential hcredential

/-! ## The condition is exact -/

section Upsert

variable (hpaired : Paired account) (hreferenced : Referenced account)
  (haccepted : refusal runtime account input = none)

include hpaired haccepted in
/-- A key that is entered is paired where the routes of its name have its base URL. -/
theorem paired_written_iff : Paired (written runtime account input) ↔
    ∀ apiKey, input.suppliedApiKey = some apiKey → ∀ other baseUrl, other ≠ input.name →
      pointsTo account other = some (input.reference, baseUrl) → baseUrl = input.endpoint := by
  cases hkey : input.suppliedApiKey with
  | none =>
    apply iff_of_true
    · intro route name baseUrl hpoints hstored
      rw [(written_of_none hkey).1] at hstored
      rw [(written_of_none hkey).2]
      rw [pointsTo_written] at hpoints
      split at hpoints
      · obtain ⟨hname, hbase⟩ := Prod.mk.inj (Option.some.inj hpoints)
        rw [← hname] at hstored ⊢
        rw [← hbase]
        exact hpaired input.name _ _ ((pointsTo_of_refusal haccepted hkey).2 hstored) hstored
      · exact hpaired route name baseUrl hpoints hstored
    · intro apiKey hnone
      cases hnone
  | some apiKey =>
    apply Iff.intro
    · intro hwritten _ _ other baseUrl hother hpoints
      obtain ⟨secret, hentered⟩ := hwritten other input.reference baseUrl
        (by rw [pointsTo_written, if_neg hother, hpoints])
        (by rw [(written_of_some hkey).1, Dict.get_set, if_pos rfl]; exact Option.some_ne_none _)
      rw [(written_of_some hkey).2, Dict.get_set, if_pos rfl] at hentered
      exact (Prod.mk.inj (Option.some.inj hentered)).2.symm
    · intro hsame route name baseUrl hpoints hstored
      rw [(written_of_some hkey).1, Dict.get_set] at hstored
      rw [(written_of_some hkey).2, Dict.get_set]
      rw [pointsTo_written] at hpoints
      by_cases hroute : route = input.name
      · rw [if_pos hroute] at hpoints
        obtain ⟨hname, hbase⟩ := Prod.mk.inj (Option.some.inj hpoints)
        rw [if_pos hname.symm, hbase]
        exact ⟨apiKey, rfl⟩
      · rw [if_neg hroute] at hpoints
        by_cases hname : name = input.reference
        · rw [if_pos hname]
          rw [hname] at hpoints
          exact ⟨apiKey, by rw [hsame apiKey rfl route baseUrl hroute hpoints]⟩
        · rw [if_neg hname] at hstored ⊢
          exact hpaired route name baseUrl hpoints hstored

theorem get_credentials_written {name : String} (hname : name ≠ input.reference) :
    (written runtime account input).credentials.get name = account.credentials.get name := by
  cases hkey : input.suppliedApiKey with
  | none => rw [(written_of_none hkey).1]
  | some apiKey => rw [(written_of_some hkey).1, Dict.get_set, if_neg hname]

include hreferenced in
/-- Every stored key is one that a route names where none is left behind. -/
theorem referenced_written_iff : Referenced (written runtime account input) ↔
    ∀ name baseUrl, pointsTo account input.name = some (name, baseUrl) → name ≠ input.reference →
      account.credentials.get name ≠ none → Shared account input.name name := by
  apply Iff.intro
  · intro hwritten name baseUrl hpoints hname hstored
    obtain ⟨route, endpoint, hroute⟩ := hwritten name (by rwa [get_credentials_written hname])
    rw [pointsTo_written] at hroute
    split at hroute
    · exact absurd (Prod.mk.inj (Option.some.inj hroute)).1.symm hname
    next hother => exact ⟨route, endpoint, hother, hroute⟩
  · intro hshared name hstored
    by_cases hname : name = input.reference
    · exact ⟨input.name, input.endpoint, by rw [pointsTo_written, if_pos rfl, hname]⟩
    · rw [get_credentials_written hname] at hstored
      obtain ⟨route, baseUrl, hroute⟩ := hreferenced name hstored
      by_cases hown : route = input.name
      · rw [hown] at hroute
        obtain ⟨other, endpoint, hother, hpoints⟩ := hshared name baseUrl hroute hname hstored
        exact ⟨other, endpoint, by rw [pointsTo_written, if_neg hother, hpoints]⟩
      · exact ⟨route, baseUrl, by rw [pointsTo_written, if_neg hown, hroute]⟩

/-- A route that shares a name, by its row. -/
theorem shared_iff {route name : String} : Shared account route name ↔
    ∃ other row, other ≠ route ∧ account.providers.get other = some row ∧ row.apiKeyEnv = name := by
  unfold Shared pointsTo
  apply Iff.intro
  · rintro ⟨other, baseUrl, hother, hpoints⟩
    obtain ⟨row, hrow, hpair⟩ := Option.map_eq_some_iff.mp hpoints
    exact ⟨other, row, hother, hrow, (Prod.mk.inj hpair).1⟩
  · rintro ⟨other, row, hother, hrow, rfl⟩
    exact ⟨other, row.baseUrl, hother, by rw [hrow, Option.map_some]⟩

include haccepted in
/-- A call that changes a route leaves the keys of the others where it replaces none. -/
theorem keeps_upsert_iff : Keeps runtime account (.upsert input) ↔
    ∀ apiKey, input.suppliedApiKey = some apiKey → account.providers.get input.name ≠ none →
      Shared account input.name input.reference →
        ∀ credential, account.credentials.get input.reference = some credential →
          credential = ⟨input.name, runtime.encryptSecret apiKey⟩ := by
  unfold Keeps touched
  rw [callOf_accepted haccepted]
  apply Iff.intro
  · intro hkeeps apiKey hkey hthere hshared credential hstored
    obtain ⟨other, row, hother, hrow, hname⟩ := shared_iff.mp hshared
    have hkept := hkeeps hthere other row credential hother hrow (by rw [hname, hstored])
    rw [hname, (written_of_some hkey).1, Dict.get_set, if_pos rfl] at hkept
    exact (Option.some.inj hkept).symm
  · intro hsame hthere other row credential hother hrow hstored
    by_cases hname : row.apiKeyEnv = input.reference
    · cases hkey : input.suppliedApiKey with
      | none => rw [(written_of_none hkey).1, hstored]
      | some apiKey =>
        rw [hname] at hstored ⊢
        rw [(written_of_some hkey).1, Dict.get_set, if_pos rfl, hsame apiKey hkey hthere
          (shared_iff.mpr ⟨other, row, hother, hrow, hname⟩) credential hstored]
    · rw [get_credentials_written hname, hstored]

end Upsert

section Delete

variable {route : String}

theorem get_credentials_delete {row : AiProvider} {name : String}
    (hrow : account.providers.get route = some row) :
    (deleteProvider account route).credentials.get name =
      if name = row.apiKeyEnv then none else account.credentials.get name := by
  have hdelete : (deleteProvider account route).credentials = account.credentials.pop row.apiKeyEnv := by
    unfold deleteProvider
    rw [hrow]
  rw [hdelete, Dict.get_pop]

theorem entered_delete : (deleteProvider account route).entered = account.entered := by
  unfold deleteProvider
  cases account.providers.get route <;> rfl

theorem deleteProvider_of_none (hnone : account.providers.get route = none) :
    deleteProvider account route = account := by
  unfold deleteProvider
  rw [hnone]

/-- Deleting a route leaves the keys paired that are left. -/
theorem paired_delete (hpaired : Paired account) : Paired (deleteProvider account route) := by
  cases hrow : account.providers.get route with
  | none => rwa [deleteProvider_of_none hrow]
  | some row =>
    intro other name baseUrl hpoints hstored
    rw [pointsTo_delete] at hpoints
    rw [get_credentials_delete hrow] at hstored
    rw [entered_delete]
    split at hpoints
    · cases hpoints
    · split at hstored
      · exact absurd rfl hstored
      · exact hpaired other name baseUrl hpoints hstored

theorem referenced_delete (hreferenced : Referenced account) :
    Referenced (deleteProvider account route) := by
  cases hrow : account.providers.get route with
  | none => rwa [deleteProvider_of_none hrow]
  | some row =>
    intro name hstored
    rw [get_credentials_delete hrow] at hstored
    split at hstored
    · exact absurd rfl hstored
    next hname =>
      obtain ⟨other, baseUrl, hpoints⟩ := hreferenced name hstored
      have hother : other ≠ route := by
        rintro rfl
        rw [pointsTo, hrow, Option.map_some] at hpoints
        exact hname (Prod.mk.inj (Option.some.inj hpoints)).1.symm
      exact ⟨other, baseUrl, by rw [pointsTo_delete, if_neg hother, hpoints]⟩

/-- A key goes with a route that is deleted, and nothing else of the other routes does. -/
theorem keeps_delete_iff : Keeps runtime account (.delete route) ↔
    Apart runtime account (.delete route) := by
  unfold Keeps Apart touched callOf
  cases hrow : account.providers.get route with
  | none =>
    apply iff_of_true
    · exact fun hthere => absurd rfl hthere
    · intro name baseUrl hpoints
      rw [pointsTo, hrow] at hpoints
      cases hpoints
  | some row =>
    apply Iff.intro
    · intro hkeeps name baseUrl hpoints hshared
      have hname : row.apiKeyEnv = name := by
        rw [pointsTo, hrow, Option.map_some] at hpoints
        exact (Prod.mk.inj (Option.some.inj hpoints)).1
      obtain ⟨other, own, hother, hown, hsame⟩ := shared_iff.mp hshared
      by_contra hstored
      obtain ⟨credential, hcredential⟩ := Option.ne_none_iff_exists'.mp hstored
      have hkept := hkeeps (Option.some_ne_none row) other own credential hother hown
        (by rw [hsame, hcredential])
      rw [get_credentials_delete hrow, hsame, hname, if_pos rfl] at hkept
      cases hkept
    · intro hapart _ other own credential hother hown hstored
      rw [get_credentials_delete hrow]
      by_cases hname : own.apiKeyEnv = row.apiKeyEnv
      · have hnone := hapart row.apiKeyEnv row.baseUrl (by rw [pointsTo, hrow, Option.map_some])
          (shared_iff.mpr ⟨other, own, hother, hown, hname⟩)
        rw [hname, hnone] at hstored
        cases hstored
      · rw [if_neg hname, hstored]

end Delete

/-- Everything of an account is as it should be. -/
structure Sound (runtime : Runtime) (account : Account) : Prop where
  sealed_rows : Sealed runtime account
  bound : Bound runtime account

/-- A call leaves a sound account bound exactly when it meets the condition. -/
theorem bound_and_keeps_iff (hsound : Sound runtime account) (call : Call) :
    Bound runtime (callOf runtime account call) ∧ Keeps runtime account call ↔
      Apart runtime account call := by
  obtain ⟨hpaired, hreferenced, hdefault⟩ := (bound_iff hsound.sealed_rows).mp hsound.bound
  rw [bound_iff (sealed_callOf hsound.sealed_rows call)]
  cases call with
  | delete route =>
    rw [keeps_delete_iff]
    exact and_iff_right ⟨paired_delete hpaired, referenced_delete hreferenced,
      oneDefault_delete hdefault route⟩
  | upsert input =>
    cases haccepted : refusal runtime account input with
    | some message =>
      unfold Keeps
      rw [callOf_refused haccepted]
      apply iff_of_true
      · exact ⟨⟨hpaired, hreferenced, hdefault⟩, fun _ _ _ _ _ _ hstored => hstored⟩
      · intro hnone
        rw [haccepted] at hnone
        cases hnone
    | none =>
      rw [keeps_upsert_iff haccepted, callOf_accepted haccepted,
        paired_written_iff hpaired haccepted, referenced_written_iff hreferenced]
      apply Iff.intro
      · rintro ⟨⟨hpairs, hrefers, -⟩, hkeeps⟩ _
        exact ⟨fun apiKey hkey => ⟨hpairs apiKey hkey, hkeeps apiKey hkey⟩, hrefers⟩
      · intro hapart
        obtain ⟨hkeys, hrefers⟩ := hapart haccepted
        exact ⟨⟨fun apiKey hkey => (hkeys apiKey hkey).1, hrefers, oneDefault_written hdefault⟩,
          fun apiKey hkey => (hkeys apiKey hkey).2⟩

/-- The calls of a user meet the condition on the rows of the user. -/
def Careful (runtime : Runtime) (accounts : String → Account) (call : String × Call) : Prop :=
  Apart runtime (accounts call.1) call.2

theorem sound_empty (runtime : Runtime) : Sound runtime {} where
  sealed_rows _ _ hnone := by cases hnone
  bound :=
    { paired := fun _ _ _ hnone => by cases hnone
      referenced := fun _ _ hnone => by cases hnone
      oneDefault := fun _ _ _ _ hnone => by cases hnone }

/-- Over every sequence of calls of any users the calls leave everything bound exactly when
each of them meets the condition. -/
theorem path_right_iff_careful (runtime : Runtime) (calls : List (String × Call))
    (accounts : String → Account) :
    (machine runtime).Path (Right runtime) calls accounts ↔
      (machine runtime).Path (Careful runtime) calls accounts := by
  apply Machine.path_congr (P := fun accounts => ∀ user, Sound runtime (accounts user))
  · exact fun _ => sound_empty runtime
  · intro source call target hsound hright hstep user
    rw [← Option.some.inj hstep]
    show Sound runtime (if user = call.1 then callOf runtime (source user) call.2 else source user)
    split
    next huser =>
      rw [huser]
      exact ⟨sealed_callOf (hsound call.1).sealed_rows call.2, hright.1⟩
    · exact hsound user
  · intro source call _ hsound _
    exact bound_and_keeps_iff (hsound call.1) call.2

/-! ## A shared name -/

/-- Secrets that are stored as they are. -/
def sampleRuntime : Runtime where
  urlProtocol _ := some "https:"
  encryptSecret secret := secret
  decryptSecret secret := some secret
  decrypt_encrypt _ := rfl

/-- A route of OpenAI, and one of Groq under the same name. -/
def sharedCalls : List (String × Call) :=
  [("ada", .upsert { route := "openai", apiKeyEnv := some "KEY", apiKey := some "sk-1" }),
    ("ada", .upsert { route := "groq", apiKeyEnv := some "KEY", apiKey := some "sk-2" })]

/-- The rows that are left of them. -/
def sharedAccount : Account :=
  (callOf sampleRuntime (callOf sampleRuntime {}
    (.upsert { route := "openai", apiKeyEnv := some "KEY", apiKey := some "sk-1" }))
    (.upsert { route := "groq", apiKeyEnv := some "KEY", apiKey := some "sk-2" }))

/-- Deleting one of two routes with a name takes the key of the other one. -/
theorem not_right_of_shared_name : ¬ ∀ runtime calls accounts,
    (machine runtime).Path Machine.anyStep calls accounts →
      ∀ call, Right runtime accounts call := by
  intro hclaim
  have hpath : (machine sampleRuntime).Path Machine.anyStep sharedCalls
      (fun user => if user = "ada" then callOf sampleRuntime
        (if user = "ada" then callOf sampleRuntime {}
          (.upsert { route := "openai", apiKeyEnv := some "KEY", apiKey := some "sk-1" }) else {})
        (.upsert { route := "groq", apiKeyEnv := some "KEY", apiKey := some "sk-2" })
        else if user = "ada" then callOf sampleRuntime {}
          (.upsert { route := "openai", apiKeyEnv := some "KEY", apiKey := some "sk-1" }) else {}) :=
    Machine.path_of_runFrom rfl
  have hkeeps : Keeps sampleRuntime sharedAccount (.delete "groq") :=
    (hclaim sampleRuntime _ _ hpath ("ada", .delete "groq")).2
  have hrow : (sharedAccount.providers.get "openai").map (·.apiKeyEnv) = some "KEY" := by
    decide +kernel
  obtain ⟨row, hopenai, hname⟩ := Option.map_eq_some_iff.mp hrow
  have hkept := hkeeps (by decide +kernel) "openai" row ⟨"groq", "sk-2"⟩ (by decide) hopenai
    (by rw [hname]; decide +kernel)
  rw [hname] at hkept
  exact absurd hkept (by decide +kernel)

end DbtCraft.Server.AiProviders
