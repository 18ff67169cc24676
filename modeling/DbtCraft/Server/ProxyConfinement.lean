/-
# Where the proxy sends a request

The segments of a request are resolved against the address of the service as one reference.
A reference without a scheme and without an authority keeps those of the base, and its dot
segments are all that can lead out of the path of the base; any other reference leads where
it says.
-/

import DbtCraft.Server.Proxy

namespace DbtCraft.Server.Proxy

open DbtCraft.Web

/-! ## The guarantee -/

/-- A path is below the directory of a base. -/
def Below : Path → Path → Prop
  | .segments base, .segments path => base.dropLast <+: path
  | .whole base, .whole path => path = base
  | _, _ => False

/-- A URL of the service at the base. -/
structure Within (base url : Url) : Prop where
  scheme : url.scheme = base.scheme
  host : url.host = base.host
  port : url.port = base.port
  path : Below base.path url.path

/-- What is fetched is a URL of the service. -/
def Confined (hosts : HostParser) (targetBaseUrl : Option Text) (outcome : Outcome) : Prop :=
  ∀ url search method headers body, outcome = .fetched url search method headers body →
    ∃ address base, targetBaseUrl = some address ∧
      parse hosts (withSlash address) none = some base ∧ Within base url

/-! ## The condition -/

/-- The authority that is spelled is the one of the base, and no path leads out of its
directory. -/
def Stays (hosts : HostParser) (base : Url) : Reference → Prop
  | .invalid | .same => True
  | .path start text =>
    base.credentials = true ∨ Below base.path (.segments (pathState base.scheme start text))
  | .authority scheme text =>
    let ends := endsAuthority (isSpecial scheme)
    ∀ authority, authorityState hosts scheme (text.takeWhile (!ends ·)) = some authority →
      authority.credentials = false →
        scheme = base.scheme ∧ some authority.host = base.host ∧ authority.port = base.port ∧
          Below base.path (.segments (pathStart scheme (text.dropWhile (!ends ·))))
  | .rootless scheme text =>
    scheme = base.scheme ∧ none = base.host ∧ none = base.port ∧
      Below base.path (.segments (pathState scheme [] text))
  | .whole scheme text =>
    scheme = base.scheme ∧ none = base.host ∧ none = base.port ∧
      Below base.path (.whole (text.takeWhile (!endsPath ·)))
  | .file host start text =>
    fileScheme = base.scheme ∧ host = base.host ∧ none = base.port ∧
      Below base.path (.segments (pathState fileScheme start text))
  | .fileHost text => ∀ url, fileHostState hosts text = some url → Within base url

/-- The condition on a request that is fetched. -/
def StaysOn (hosts : HostParser) (request : Request) (path : List Text)
    (targetBaseUrl : Option Text) (extraHeaders : Headers) : Prop :=
  isMalformedBearerHeader (request.headers.get "authorization") = false →
    (∀ extra ∈ extraHeaders, isHeaderValue extra.2 = true) →
      ∀ address base, targetBaseUrl = some address → address ≠ [] →
        parse hosts (withSlash address) none = some base →
          Stays hosts base (referenceOf (some base) (cleaned (join path)))

/-! ## References -/

theorem below_self (path : Path) : Below path path := by
  cases path with
  | whole text => rfl
  | segments segments => exact List.dropLast_prefix segments

theorem Within.refl (base : Url) : Within base base := ⟨rfl, rfl, rfl, below_self base.path⟩

theorem credentials_of_fileHost {hosts : HostParser} {text : Text} {url : Url}
    (hurl : fileHostState hosts text = some url) : url.credentials = false := by
  simp only [fileHostState] at hurl
  split_ifs at hurl
  · exact Option.some.inj hurl ▸ rfl
  · exact Option.some.inj hurl ▸ rfl
  · obtain ⟨host, -, rfl⟩ := Option.map_eq_some_iff.mp hurl
    rfl

/-- A reference leads to URLs of the service only exactly when it stays there. -/
theorem stays_iff (hosts : HostParser) (base : Url) (reference : Reference) :
    Stays hosts base reference ↔
      ∀ url, reference.url hosts (some base) = some url → url.credentials = false →
        Within base url := by
  cases reference with
  | invalid => exact iff_of_true trivial fun url hurl => by cases hurl
  | same =>
    refine iff_of_true trivial fun url hurl _ => ?_
    rw [← Option.some.inj hurl]
    exact Within.refl base
  | path start text =>
    apply Iff.intro
    · rintro hstays url hurl hplain
      rw [← Option.some.inj hurl] at hplain ⊢
      refine ⟨rfl, rfl, rfl, hstays.resolve_left fun hcredentials => ?_⟩
      exact Bool.false_ne_true (hplain.symm.trans hcredentials)
    · intro hwithin
      cases hcredentials : base.credentials with
      | true => exact Or.inl hcredentials
      | false => exact Or.inr (hwithin _ rfl hcredentials).path
  | authority scheme text =>
    apply Iff.intro
    · intro hstays url hurl hplain
      obtain ⟨authority, hauthority, rfl⟩ := Option.map_eq_some_iff.mp hurl
      obtain ⟨hscheme, hhost, hport, hpath⟩ := hstays authority hauthority hplain
      exact ⟨hscheme, hhost, hport, hpath⟩
    · intro hwithin authority hauthority hplain
      have hurl := hwithin _ (Option.map_eq_some_iff.mpr ⟨authority, hauthority, rfl⟩) hplain
      exact ⟨hurl.scheme, hurl.host, hurl.port, hurl.path⟩
  | rootless _ _ | whole _ _ | file _ _ _ =>
    apply Iff.intro
    · rintro ⟨hscheme, hhost, hport, hpath⟩ url hurl -
      rw [← Option.some.inj hurl]
      exact ⟨hscheme, hhost, hport, hpath⟩
    · intro hwithin
      obtain ⟨hscheme, hhost, hport, hpath⟩ := hwithin _ rfl rfl
      exact ⟨hscheme, hhost, hport, hpath⟩
  | fileHost text =>
    apply Iff.intro
    · exact fun hstays url hurl _ => hstays url hurl
    · exact fun hwithin url hurl => hwithin url hurl (credentials_of_fileHost hurl)

/-! ## Requests -/

section

variable {hosts : HostParser} {request : Request} {path : List Text}
  {targetBaseUrl : Option Text} {serviceName : String} {extraHeaders : Headers} {url : Url}

/-- What is fetched is the target, where nothing stops the request before. -/
theorem fetched_iff :
    (∃ search method headers body,
      proxyRequest hosts request path targetBaseUrl serviceName extraHeaders =
        .fetched url search method headers body) ↔
      ∃ address, targetBaseUrl = some address ∧ address ≠ [] ∧
        targetUrl hosts path address = some url ∧
        isMalformedBearerHeader (request.headers.get "authorization") = false ∧
        (∀ extra ∈ extraHeaders, isHeaderValue extra.2 = true) ∧ url.credentials = false := by
  cases targetBaseUrl with
  | none => simp [proxyRequest]
  | some address =>
    cases address with
    | nil => simp [proxyRequest]
    | cons first rest =>
      cases htarget : targetUrl hosts path (first :: rest) with
      | none => simp [proxyRequest, htarget]
      | some target =>
        simp only [proxyRequest, htarget]
        split_ifs with hmalformed hheaders hcredentials
        · refine iff_of_false (fun hfetched => ?_) fun hallowed => ?_
          · obtain ⟨search, method, headers, body, hsame⟩ := hfetched
            cases hsame
          · obtain ⟨address, -, -, -, hbearer, -⟩ := hallowed
            exact Bool.false_ne_true (hbearer.symm.trans hmalformed)
        · have hbad : ∃ extra ∈ extraHeaders, isHeaderValue extra.2 = false := by
            simpa using hheaders
          obtain ⟨extra, hextra, hvalue⟩ := hbad
          refine iff_of_false (fun hfetched => ?_) fun hallowed => ?_
          · obtain ⟨search, method, headers, body, hsame⟩ := hfetched
            cases hsame
          · obtain ⟨address, -, -, -, -, hvalues, -⟩ := hallowed
            exact Bool.false_ne_true (hvalue.symm.trans (hvalues extra hextra))
        · refine iff_of_false (fun hfetched => ?_) fun hallowed => ?_
          · obtain ⟨search, method, headers, body, hsame⟩ := hfetched
            cases hsame
          · obtain ⟨address, haddress, -, hurl, -, -, hplain⟩ := hallowed
            rw [← Option.some.inj haddress, htarget] at hurl
            rw [← Option.some.inj hurl, hcredentials] at hplain
            cases hplain
        · have hvalues : ∀ extra ∈ extraHeaders, isHeaderValue extra.2 = true := by
            simpa using hheaders
          apply Iff.intro
          · rintro ⟨search, method, headers, body, hsame⟩
            cases hsame
            exact ⟨_, rfl, List.cons_ne_nil _ _, htarget,
              Bool.eq_false_iff.mpr hmalformed, hvalues, Bool.eq_false_iff.mpr hcredentials⟩
          · rintro ⟨address, haddress, -, hurl, -⟩
            rw [← Option.some.inj haddress, htarget] at hurl
            rw [Option.some.inj hurl]
            exact ⟨_, _, _, _, rfl⟩

end

end DbtCraft.Server.Proxy
