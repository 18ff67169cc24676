/-
# The headers that reach the agent

The proxy of the agent sets a header where the user has something stored for it and passes
every other header on. So what the agent makes of the four headers depends on the stored
providers alone exactly when each of the four is set.
-/

import DbtCraft.Agent.ModelConfig
import DbtCraft.Server.Proxy

namespace DbtCraft.Server.Proxy

open DbtCraft.Python DbtCraft.Web
open DbtCraft.Agent (Codec ModelConfig fromHeaders)

/-! ## The guarantee -/

/-- The headers that the agent reads. -/
def modelHeaderNames : List String :=
  ["x-model-credentials", "x-model-providers", "x-model-route", "x-model-name"]

/-- What the agent reads in them of a request that is forwarded. -/
def modelHeaders : Outcome → Option (List (Option String))
  | .fetched _ _ _ headers _ => some (modelHeaderNames.map headers.get)
  | _ => none

/-- The configuration that `ModelConfig.from_headers` builds of them. -/
def configOf (codec : Codec) (outcome : Outcome) : Option ModelConfig :=
  match outcome with
  | .fetched _ _ _ headers _ =>
    some (fromHeaders codec (headers.get "x-model-providers") (headers.get "x-model-credentials")
      (headers.get "x-model-route") (headers.get "x-model-name"))
  | _ => none

/-- Two requests differ in their headers only. -/
def SameBesidesHeaders (request other : Request) : Prop :=
  request.method = other.method ∧ request.search = other.search ∧ request.body = other.body

/-- What reaches the agent depends on the stored providers of the user only. -/
def StoredOnly (hosts : HostParser) (environment : Option Text) (routes : Option Routes)
    (path : List Text) : Prop :=
  ∀ request other, SameBesidesHeaders request other →
    ∀ values values', modelHeaders (proxyAgent hosts environment routes request path) = some values →
      modelHeaders (proxyAgent hosts environment routes other path) = some values' →
        values = values' ∧ ∀ codec, configOf codec (proxyAgent hosts environment routes request path) =
          configOf codec (proxyAgent hosts environment routes other path)

/-! ## The condition -/

/-- The user has a credential, a provider, a route and a model. -/
def Complete (routes : Option Routes) : Prop :=
  ∃ stored, routes = some stored ∧ stored.credentials ≠ none ∧ stored.providers ≠ none ∧
    (∃ route, stored.route = some route ∧ route ≠ "") ∧
      ∃ model, stored.model = some model ∧ model ≠ ""

/-- Nothing is forwarded for the user to this address. -/
def Unsendable (hosts : HostParser) (environment : Option Text) (routes : Option Routes)
    (path : List Text) : Prop :=
  agentUrl environment = [] ∨
    (∀ url, targetUrl hosts path (agentUrl environment) = some url → url.credentials = true) ∨
      ∃ extra ∈ agentHeaders routes, isHeaderValue extra.2 = false

/-! ## What is forwarded -/

variable {hosts : HostParser} {environment : Option Text} {routes : Option Routes}
  {request other : Request} {path : List Text}

theorem get_foldl_pop (headers : Headers) (names : List String) (name : String) :
    (names.foldl (fun headers name => headers.pop name) headers).get name =
      if name ∈ names then none else headers.get name := by
  induction names generalizing headers with
  | nil => rfl
  | cons first rest ih =>
    rw [List.foldl_cons, ih, Dict.get_pop]
    by_cases hfirst : name = first
    · simp [hfirst]
    · simp [hfirst]

/-- What is attached stands in the place of what the client has sent. -/
theorem get_forwarded {headers extraHeaders : Headers} {name : String}
    (hextra : (extraHeaders.map Prod.fst).Nodup) (hname : name ∉ hopByHopHeaders) :
    (forwarded headers extraHeaders).get name = (extraHeaders.get name).or (headers.get name) := by
  unfold forwarded
  rw [Dict.get_foldl_set_of_nodup hextra, get_foldl_pop, if_neg hname]

section Present

variable {ν : Type} {items : Dict String (Option ν)}

/-- The headers with a value. -/
def present (items : Dict String (Option ν)) : Dict String ν :=
  items.filterMap fun item => item.2.map fun value => (item.1, value)

theorem map_fst_present_sublist : ((present items).map Prod.fst).Sublist (items.map Prod.fst) := by
  induction items with
  | nil => exact .slnil
  | cons item rest ih =>
    obtain ⟨name, value⟩ := item
    cases value with
    | none => exact ih.cons name
    | some value => exact ih.cons_cons name

theorem get_present {name : String} (hitems : (items.map Prod.fst).Nodup) :
    (present items).get name = ((items.get name).join : Option ν) := by
  induction items with
  | nil => rfl
  | cons item rest ih =>
    obtain ⟨first, value⟩ := item
    obtain ⟨hfirst, hrest⟩ := List.nodup_cons.mp hitems
    rw [Dict.get]
    cases value with
    | none =>
      show (present rest).get name = _
      rw [ih hrest]
      split
      next hsame =>
        rw [← hsame, Dict.get_of_not_mem hfirst]
        rfl
      · rfl
    | some value =>
      show (if first = name then some value else (present rest).get name) = _
      rw [ih hrest]
      split <;> rfl

end Present

/-- What there is to attach for a user. -/
def attached (stored : Routes) : Dict String (Option String) :=
  [("x-model-credentials", stored.credentials), ("x-model-providers", stored.providers),
    ("x-model-route", stored.route.filter (· ≠ "")),
    ("x-model-name", stored.model.filter (· ≠ ""))]

theorem nodup_attached (stored : Routes) : ((attached stored).map Prod.fst).Nodup := by
  show modelHeaderNames.Nodup
  decide

theorem nodup_agentHeaders (routes : Option Routes) :
    ((agentHeaders routes).map Prod.fst).Nodup := by
  cases routes with
  | none => exact List.nodup_nil
  | some stored => exact map_fst_present_sublist.nodup (nodup_attached stored)

theorem get_agentHeaders {stored : Routes} {item : String × Option String}
    (hitem : item ∈ attached stored) : (agentHeaders (some stored)).get item.1 = item.2 := by
  have hget : (attached stored).get item.1 = some item.2 :=
    Dict.get_of_mem (nodup_attached stored) hitem
  have hpresent : (agentHeaders (some stored)).get item.1 = ((attached stored).get item.1).join :=
    get_present (nodup_attached stored)
  rw [hpresent, hget, Option.join_some]

/-- A request that is fetched goes with the headers that are forwarded. -/
theorem headers_of_fetched {targetBaseUrl : Option Text} {serviceName : String}
    {extraHeaders headers : Headers} {url : Url} {search : Text} {method : String}
    {body : Option (List UInt8)}
    (hfetched : proxyRequest hosts request path targetBaseUrl serviceName extraHeaders =
      .fetched url search method headers body) :
    headers = forwarded request.headers extraHeaders := by
  unfold proxyRequest at hfetched
  split at hfetched
  · cases hfetched
  · cases hfetched
  · split at hfetched
    · cases hfetched
    · split at hfetched
      · cases hfetched
      · split at hfetched
        · cases hfetched
        · split at hfetched
          · cases hfetched
          · cases hfetched
            rfl

/-- What the agent reads is what is attached, and what the client has sent elsewhere. -/
theorem get_of_fetched {url : Url} {search : Text} {method : String} {headers : Headers}
    {body : Option (List UInt8)} {name : String} (hname : name ∈ modelHeaderNames)
    (hfetched : proxyAgent hosts environment routes request path =
      .fetched url search method headers body) :
    headers.get name = ((agentHeaders routes).get name).or (request.headers.get name) := by
  have hapart : ∀ name ∈ modelHeaderNames, name ∉ hopByHopHeaders := by decide
  rw [headers_of_fetched hfetched,
    get_forwarded (nodup_agentHeaders routes) (hapart name hname)]

theorem filter_ne_none_iff {text : Option String} :
    text.filter (· ≠ "") ≠ none ↔ ∃ own, text = some own ∧ own ≠ "" := by
  cases text with
  | none => simp
  | some own => simp [Option.filter]

/-- Every header is attached for a user with complete settings only. -/
theorem complete_iff : Complete routes ↔
    ∀ name ∈ modelHeaderNames, (agentHeaders routes).get name ≠ none := by
  cases routes with
  | none =>
    apply iff_of_false
    · rintro ⟨stored, hnone, -⟩
      cases hnone
    · intro hall
      exact hall "x-model-route" (by decide) rfl
  | some stored =>
    have hnames : (∀ name ∈ modelHeaderNames, (agentHeaders (some stored)).get name ≠ none) ↔
        ∀ item ∈ attached stored, item.2 ≠ none := by
      have hattached : modelHeaderNames = (attached stored).map Prod.fst := rfl
      rw [hattached, List.forall_mem_map]
      exact forall₂_congr fun item hitem => by rw [get_agentHeaders hitem]
    have hitems : (∀ item ∈ attached stored, item.2 ≠ none) ↔
        stored.credentials ≠ none ∧ stored.providers ≠ none ∧
          stored.route.filter (· ≠ "") ≠ none ∧ stored.model.filter (· ≠ "") ≠ none := by
      unfold attached
      rw [List.forall_mem_cons, List.forall_mem_cons, List.forall_mem_cons,
        List.forall_mem_singleton]
    rw [hnames, hitems, filter_ne_none_iff, filter_ne_none_iff]
    apply Iff.intro
    · rintro ⟨own, hown, hcomplete⟩
      rw [Option.some.inj hown]
      exact hcomplete
    · exact fun hcomplete => ⟨stored, rfl, hcomplete⟩

/-! ## The condition is exact -/

/-- Nothing is fetched where nothing can be sent. -/
theorem modelHeaders_of_unsendable (hunsendable : Unsendable hosts environment routes path) :
    modelHeaders (proxyAgent hosts environment routes request path) = none := by
  unfold proxyAgent proxyRequest
  split
  · rfl
  · rfl
  next address hnonempty haddress =>
    have hagent : agentUrl environment = address := Option.some.inj haddress
    split
    · rfl
    next url hurl =>
      split
      · rfl
      · split
        · rfl
        next hany =>
          split
          · rfl
          next hplain =>
            rcases hunsendable with hempty | hcredentials | ⟨extra, hextra, hinvalid⟩
            · exact absurd (hagent.symm.trans hempty) hnonempty
            · rw [hagent] at hcredentials
              exact absurd (hcredentials url hurl) hplain
            · exact absurd (List.any_eq_true.mpr ⟨extra, hextra, by rw [hinvalid]; rfl⟩) hany

/-- A request is fetched unless nothing can be sent or its bearer is malformed. -/
theorem exists_fetched (hsendable : ¬ Unsendable hosts environment routes path)
    (hbearer : isMalformedBearerHeader (request.headers.get "authorization") = false) :
    ∃ url search method headers body, proxyAgent hosts environment routes request path =
      .fetched url search method headers body := by
  obtain ⟨haddress, hrest⟩ := not_or.mp hsendable
  obtain ⟨htarget, hvalues⟩ := not_or.mp hrest
  obtain ⟨url, hurl⟩ := not_forall.mp htarget
  obtain ⟨hparsed, hplain⟩ := Classical.not_imp.mp hurl
  have hany : (agentHeaders routes).any (fun extra => !isHeaderValue extra.2) = false := by
    apply List.any_eq_false.mpr
    intro extra hextra hinvalid
    exact hvalues ⟨extra, hextra, by simpa using hinvalid⟩
  refine ⟨url, request.search, request.method, forwarded request.headers (agentHeaders routes),
    request.forwardedBody, ?_⟩
  unfold proxyAgent proxyRequest
  split
  next hnone => cases hnone
  next hnone => exact absurd (Option.some.inj hnone) haddress
  next address hnonempty haddress' =>
    rw [← Option.some.inj haddress', hparsed]
    simp only [hbearer, hany, Bool.false_eq_true, if_false]
    rw [if_neg hplain]

/-- Two configurations agree where the headers do. -/
theorem configOf_eq {outcome outcome' : Outcome} {values : List (Option String)}
    (hvalues : modelHeaders outcome = some values) (hvalues' : modelHeaders outcome' = some values)
    (codec : Codec) : configOf codec outcome = configOf codec outcome' := by
  cases outcome with
  | answered | raised => cases hvalues
  | fetched url search method headers body =>
    cases outcome' with
    | answered | raised => cases hvalues'
    | fetched url' search' method' headers' body' =>
      have hsame := (Option.some.inj hvalues).trans (Option.some.inj hvalues').symm
      have hget := List.map_inj_left.mp hsame
      show some (fromHeaders codec _ _ _ _) = some (fromHeaders codec _ _ _ _)
      rw [hget "x-model-credentials" (by decide), hget "x-model-providers" (by decide),
        hget "x-model-route" (by decide), hget "x-model-name" (by decide)]

/-- A request of a client that sends this in every header of the agent. -/
def spoofed (value : String) : Request :=
  ⟨"GET", [], modelHeaderNames.map fun name => (name, value), []⟩

theorem get_spoofed {name value : String} (hname : name ∈ modelHeaderNames) :
    (spoofed value).headers.get name = some value := by
  have hnodup : ((spoofed value).headers.map Prod.fst).Nodup := by
    show modelHeaderNames.Nodup
    decide
  exact Dict.get_of_mem hnodup (List.mem_map_of_mem hname)

theorem bearer_spoofed (value : String) :
    isMalformedBearerHeader ((spoofed value).headers.get "authorization") = false := by
  have habsent : (spoofed value).headers.get "authorization" = none := by
    apply Dict.get_of_not_mem
    show "authorization" ∉ modelHeaderNames
    decide
  rw [habsent]
  rfl

/-- What the agent makes of the four headers depends on the stored settings alone exactly
when these set each of them, or when nothing can be forwarded. -/
theorem storedOnly_iff (hosts : HostParser) (environment : Option Text) (routes : Option Routes)
    (path : List Text) :
    StoredOnly hosts environment routes path ↔
      Complete routes ∨ Unsendable hosts environment routes path := by
  apply Iff.intro
  · intro hstored
    rw [or_iff_not_imp_right, complete_iff]
    intro hsendable name hname habsent
    -- The name is left to the client, so two clients can make it differ.
    have hfetches : ∀ value, ∃ url search method headers body,
        proxyAgent hosts environment routes (spoofed value) path =
          .fetched url search method headers body :=
      fun value => exists_fetched hsendable (bearer_spoofed value)
    obtain ⟨url, search, method, headers, body, hfetched⟩ := hfetches "one"
    obtain ⟨url', search', method', headers', body', hfetched'⟩ := hfetches "other"
    obtain ⟨hsame, -⟩ := hstored (spoofed "one") (spoofed "other") ⟨rfl, rfl, rfl⟩
      (modelHeaderNames.map headers.get) (modelHeaderNames.map headers'.get)
      (by rw [hfetched]; rfl) (by rw [hfetched']; rfl)
    have hget := List.map_inj_left.mp hsame name hname
    rw [get_of_fetched hname hfetched, get_of_fetched hname hfetched', habsent, get_spoofed hname,
      get_spoofed hname] at hget
    exact absurd hget (by decide)
  · intro hcondition request other _ values values' hvalues hvalues'
    rcases hcondition with hcomplete | hunsendable
    · have hread : ∀ {own : Request} {read : List (Option String)},
          modelHeaders (proxyAgent hosts environment routes own path) = some read →
            read = modelHeaderNames.map (agentHeaders routes).get := by
        intro own read hown
        cases houtcome : proxyAgent hosts environment routes own path with
        | answered | raised =>
          rw [houtcome] at hown
          cases hown
        | fetched url search method headers body =>
          rw [houtcome] at hown
          rw [← Option.some.inj hown]
          apply List.map_congr_left
          intro name hname
          obtain ⟨value, hvalue⟩ := Option.ne_none_iff_exists'.mp
            (complete_iff.mp hcomplete name hname)
          rw [get_of_fetched hname houtcome, hvalue, Option.some_or]
      have hsame : values = values' := (hread hvalues).trans (hread hvalues').symm
      exact ⟨hsame, configOf_eq hvalues (hsame ▸ hvalues')⟩
    · rw [modelHeaders_of_unsendable hunsendable] at hvalues
      cases hvalues

/-- A user has stored nothing, and a client names a route of its own. -/
theorem not_storedOnly_of_client : ¬ ∀ hosts environment routes path,
    StoredOnly hosts environment routes path := by
  intro hclaim
  let hosts : HostParser := fun _ name => some name
  let path : List Text := ["agent".toList, "p".toList, "prompt".toList]
  let plain : Request := ⟨"POST", [], [], []⟩
  let spoofing : Request := ⟨"POST", [], [("x-model-route", "openai")], []⟩
  let address : Url := ⟨http, false, some "dsh-agent".toList, some 8090, .segments path⟩
  have hplain : proxyAgent hosts none none plain path =
      .fetched address [] "POST" [] (some []) := by decide +kernel
  have hspoofing : proxyAgent hosts none none spoofing path =
      .fetched address [] "POST" [("x-model-route", "openai")] (some []) := by decide +kernel
  obtain ⟨hsame, -⟩ := hclaim hosts none none path plain spoofing ⟨rfl, rfl, rfl⟩
    [none, none, none, none] [none, none, some "openai", none] (by rw [hplain]; rfl)
    (by rw [hspoofing]; decide +kernel)
  exact absurd hsame (by decide)

end DbtCraft.Server.Proxy
