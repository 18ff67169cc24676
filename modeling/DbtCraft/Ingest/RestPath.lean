/-
# Endpoint paths of a REST source

`validate_base_url` and `_validate_path` of `ingest/rest_source.py`, and the URL that
`probe_endpoint` and a load build of the two. The check of a path looks for two dots in the text
as it is, while a server looks for dot segments after it has decoded the path.
-/

import DbtCraft.Core.HostGuard
import DbtCraft.Web.ServerPath

namespace DbtCraft.Ingest.RestPath

open DbtCraft.Core.HostGuard DbtCraft.Python DbtCraft.Python.Url DbtCraft.Web

/-- `UnsupportedRestSource`, a `ValueError`. -/
def unsupported (message : List Char) : Raised := .valueError (String.ofList message)

/-! ## The checks -/

/-- `validate_base_url`. -/
def validateBaseUrl (names : Names) (tables : Tables) (settings : Core.HostGuard.Settings)
    (raw : List Char) : Except Raised (List Char) :=
  let candidate := stripped raw
  if candidate = [] then .error (unsupported "a base URL is required".toList)
  else
    match urlparse tables candidate with
    | none => .error (.valueError "Invalid URL")
    | some parsed =>
      if parsed.scheme ∉ [['h', 't', 't', 'p'], ['h', 't', 't', 'p', 's']] then
        .error (unsupported ("base URL must be http or https, not '".toList ++
          (if parsed.scheme = [] then candidate else parsed.scheme) ++ ['\'']))
      else
        match parsed.hostname with
        | none => .error (unsupported ('\'' :: raw ++ "' has no host".toList))
        | some hostname =>
          match parsed.port with
          | none => .error (.valueError "Port could not be cast to integer value")
          | some port => do
            assertHostAllowed names tables settings hostname port
            .ok (candidate.rdropWhile (· = '/') ++ ['/'])

/-- A character that `_PATH_RE` allows. -/
def isPathChar (c : Char) : Bool :=
  c.isAlphanum || ['_', '-', '.', '/', '{', '}', '~', '%'].contains c

/-- `_validate_path` of `str(raw or "")`. White space at the end has been stripped, so the pattern
ends with the path. -/
def validatePath (raw : List Char) : Except Raised (List Char) :=
  let path := (stripped raw).dropWhile (· = '/')
  if ['.', '.'] <:+: path then
    .error (unsupported ("endpoint path '".toList ++ raw ++ "' cannot contain '..'".toList))
  else if path.all isPathChar = false ∨ 300 < path.length then
    .error (unsupported ('\'' :: raw ++ "' is not a usable endpoint path".toList))
  else .ok path

/-! ## The request -/

/-- What stands behind the network location of a URL. -/
def behind (url : List Char) : List Char := (splitNetloc (splitScheme url).2).2

/-- The scheme, the network location and the path of a URL. -/
def target (url : List Char) : Parsed :=
  ⟨(splitScheme url).1, (splitNetloc (splitScheme url).2).1, pathOf (behind url)⟩

/-- The request for a path goes to the host of the base URL and stays below its path. -/
structure Confined (server : Server) (base path : List Char) : Prop where
  scheme : (target (base ++ path)).scheme = (target base).scheme
  netloc : (target (base ++ path)).netloc = (target base).netloc
  below : server.directory (target base).path <+: server.place (target (base ++ path)).path

/-- How far a path climbs by itself, as a server reads it. -/
def climbOf (server : Server) (path : List Char) : Server.Climb :=
  server.climb (split '/' (server.read path))

/-- A path goes down again by the names of the base path by which it has climbed. -/
def Returns (server : Server) (base path : List Char) : Prop :=
  let directory := server.directory (target base).path
  directory.drop (directory.length - (climbOf server path).ups) <+: (climbOf server path).names

/-- The base URL has a query or a fragment. -/
def isQuery (c : Char) : Bool := c = '?' || c = '#'

def HasQuery (base : List Char) : Prop := ∃ c ∈ behind base, isQuery c = true

variable {names : Names} {tables : Tables} {settings : Core.HostGuard.Settings} {server : Server}
  {raw base path text rest : List Char} {c : Char}

/-- What is known of an accepted path. -/
structure Accepted (path : List Char) : Prop where
  head : path.head? ≠ some '/'
  chars : ∀ c ∈ path, isPathChar c = true
  dots : ¬ ['.', '.'] <:+: path

theorem accepted_of_validatePath (hpath : validatePath raw = .ok path) : Accepted path := by
  rw [validatePath] at hpath
  split at hpath
  · cases hpath
  next hdots =>
    split at hpath
    · cases hpath
    next hchars =>
      have hsame := Except.ok.inj hpath
      rw [hsame] at hdots hchars
      apply Accepted.mk
      · intro hhead
        have hslash := List.head?_dropWhile_not (fun c : Char => decide (c = '/')) (stripped raw)
        rw [hsame, hhead] at hslash
        exact absurd hslash (by decide)
      · have hall : path.all isPathChar = true := by
          simpa using fun hfalse => hchars (.inl hfalse)
        exact List.all_eq_true.mp hall
      · exact hdots

/-- A text that ends with one slash. -/
structure Ended (text : List Char) : Prop where
  last : text.getLast? = some '/'
  single : ¬ ['/', '/'] <:+ text

theorem ended_of_validateBaseUrl (hbase : validateBaseUrl names tables settings raw = .ok base) :
    Ended base := by
  have hended : ∀ candidate : List Char, Ended (candidate.rdropWhile (· = '/') ++ ['/']) := by
    intro candidate
    apply Ended.mk
    · exact List.getLast?_concat
    · intro hsuffix
      obtain ⟨before, hbefore⟩ := hsuffix
      have hlonger : (before ++ ['/']) ++ ['/'] = candidate.rdropWhile (· = '/') ++ ['/'] := by
        rw [← hbefore, List.append_assoc]
        rfl
      have hstem := List.append_cancel_right hlonger
      have hne : candidate.rdropWhile (· = '/') ≠ [] := by
        rw [← hstem]
        exact List.append_ne_nil_of_right_ne_nil before (List.cons_ne_nil '/' [])
      have hlast := List.rdropWhile_last_not (fun c : Char => decide (c = '/')) candidate hne
      simp [← hstem] at hlast
  simp only [validateBaseUrl] at hbase
  split at hbase
  · cases hbase
  · split at hbase
    · cases hbase
    · split at hbase
      · cases hbase
      · split at hbase
        · cases hbase
        · split at hbase
          · cases hbase
          · obtain ⟨_, _, hvalue⟩ := bind_eq_ok.mp hbase
            exact Except.ok.inj hvalue ▸ hended (stripped raw)

theorem Ended.suffix (hended : Ended text) (hrest : rest <:+ text) (hne : rest ≠ []) : Ended rest where
  last := by
    obtain ⟨before, hbefore⟩ := hrest
    have hlast := hended.last
    rwa [← hbefore, List.getLast?_append_of_ne_nil _ hne] at hlast
  single hsuffix := hended.single (hsuffix.trans hrest)

theorem splitScheme_append (hpath : ':' ∉ path) :
    splitScheme (base ++ path) = ((splitScheme base).1, (splitScheme base).2 ++ path) := by
  by_cases hmem : ':' ∈ base
  · obtain ⟨first, later, hsplit, hfirst⟩ := List.eq_append_cons_of_mem hmem
    rw [hsplit, List.append_assoc, List.cons_append, splitScheme, splitScheme,
      partition_append hfirst, partition_append hfirst]
    simp only
    split
    · rfl
    · simp
  · rw [splitScheme, splitScheme, partition_of_not_mem hmem, partition_of_not_mem (by simp [hmem, hpath])]

theorem ended_splitScheme (hended : Ended base) : Ended (splitScheme base).2 := by
  by_cases hmem : ':' ∈ base
  · obtain ⟨first, later, hsplit, hfirst⟩ := List.eq_append_cons_of_mem hmem
    have hne : later ≠ [] := by
      intro hnil
      have hlast := hended.last
      rw [hsplit, hnil, List.getLast?_concat] at hlast
      cases hlast
    have hlater : Ended later := hended.suffix ⟨first ++ [':'], by simp [hsplit]⟩ hne
    rw [splitScheme, hsplit, partition_append hfirst]
    simp only
    split
    · exact hlater
    · exact hsplit ▸ hended
  · rw [splitScheme, partition_of_not_mem hmem]
    exact hended

theorem splitNetloc_append (hended : Ended text) (hpath : path.head? ≠ some '/') :
    splitNetloc (text ++ path) = ((splitNetloc text).1, (splitNetloc text).2 ++ path) ∧
      Ended (splitNetloc text).2 := by
  cases text with
  | nil => cases hended.last
  | cons c more =>
    by_cases hslashes : ∃ later, c :: more = '/' :: '/' :: later
    · obtain ⟨later, hlater⟩ := hslashes
      have hne : later ≠ [] := by
        intro hnil
        rw [hlater, hnil] at hended
        exact hended.single List.suffix_rfl
      have hsuffix : later <:+ c :: more := hlater ▸ ⟨['/', '/'], rfl⟩
      have hlast := (hended.suffix hsuffix hne).last
      have hsplit : later = later.dropLast ++ ['/'] :=
        (List.dropLast_append_getLast? '/' hlast).symm
      have hends : ∀ before tail : List Char,
          (before ++ '/' :: tail).takeWhile (!endsNetloc ·) = before.takeWhile (!endsNetloc ·) :=
        fun before tail => takeWhile_append_cons (by decide)
      have htake : (later ++ path).takeWhile (!endsNetloc ·) = later.takeWhile (!endsNetloc ·) := by
        rw [hsplit, List.append_assoc, List.singleton_append, hends, hends]
      have hdrop : (later ++ path).dropWhile (!endsNetloc ·) =
          later.dropWhile (!endsNetloc ·) ++ path := by
        have hwhole : (later ++ path).takeWhile (!endsNetloc ·) ++
            (later ++ path).dropWhile (!endsNetloc ·) = later ++ path :=
          List.takeWhile_append_dropWhile
        have hown : later.takeWhile (!endsNetloc ·) ++ later.dropWhile (!endsNetloc ·) = later :=
          List.takeWhile_append_dropWhile
        rw [htake] at hwhole
        conv_rhs at hwhole => rw [← hown]
        rw [List.append_assoc] at hwhole
        exact List.append_cancel_left hwhole
      have hnonempty : later.dropWhile (!endsNetloc ·) ≠ [] := by
        intro hnil
        have hall := List.dropWhile_eq_nil_iff.mp hnil '/' (List.mem_of_mem_getLast? hlast)
        exact absurd hall (by decide)
      rw [hlater]
      apply And.intro
      · simp only [List.cons_append, splitNetloc, htake, hdrop]
      · exact hended.suffix ((List.dropWhile_suffix _).trans hsuffix) hnonempty
    · have hplain : splitNetloc (c :: more) = ([], c :: more) := by
        rw [splitNetloc]
        exact fun later hlater => hslashes ⟨later, hlater⟩
      have hlonger : splitNetloc (c :: more ++ path) = ([], c :: more ++ path) := by
        rw [splitNetloc]
        intro later hlater
        cases more with
        | nil =>
          rw [List.singleton_append] at hlater
          exact hpath (by rw [(List.cons.inj hlater).2]; rfl)
        | cons d others =>
          rw [List.cons_append, List.cons_append] at hlater
          obtain ⟨hc, hmore⟩ := List.cons.inj hlater
          exact hslashes ⟨others, by rw [hc, (List.cons.inj hmore).1]⟩
      rw [hplain, hlonger]
      exact ⟨rfl, hended⟩

/-- A path without a query is read up to the first mark of one. -/
theorem pathOf_eq (text : List Char) : pathOf text = text.takeWhile (!isQuery ·) := by
  rw [pathOf, partition_fst, partition_fst, List.takeWhile_takeWhile]
  congr 1
  funext c
  simp [isQuery, Bool.and_comm]

theorem pathOf_append_of_query (htext : ∃ c ∈ text, isQuery c = true) :
    pathOf (text ++ path) = pathOf text := by
  obtain ⟨c, hmem, hc⟩ := htext
  obtain ⟨before, after, hsplit⟩ := List.append_of_mem hmem
  have hstops : ∀ tail : List Char,
      (before ++ c :: tail).takeWhile (!isQuery ·) = before.takeWhile (!isQuery ·) :=
    fun tail => takeWhile_append_cons (by simp [hc])
  rw [pathOf_eq, pathOf_eq, hsplit, List.append_assoc, List.cons_append, hstops, hstops]

theorem pathOf_of_plain (htext : ∀ c ∈ text, isQuery c = false) : pathOf text = text := by
  rw [pathOf_eq]
  exact List.takeWhile_eq_self_iff.mpr fun c hc => by rw [htext c hc]; rfl

theorem Accepted.not_mem (haccepted : Accepted path) (hc : isPathChar c = false) : c ∉ path := by
  intro hmem
  rw [haccepted.chars c hmem] at hc
  cases hc

/-- The parts of the URL that is requested. -/
theorem target_append (hended : Ended base) (haccepted : Accepted path) :
    (target (base ++ path)).scheme = (target base).scheme ∧
      (target (base ++ path)).netloc = (target base).netloc ∧
      behind (base ++ path) = behind base ++ path ∧ Ended (behind base) := by
  have hscheme : splitScheme (base ++ path) = ((splitScheme base).1, (splitScheme base).2 ++ path) :=
    splitScheme_append (haccepted.not_mem (by decide))
  have hrest := ended_splitScheme hended
  obtain ⟨hnetloc, hbehind⟩ := splitNetloc_append hrest haccepted.head
  simp only [target, behind, hscheme, hnetloc]
  exact ⟨trivial, trivial, trivial, hbehind⟩

/-- **A request stays below the base URL** just if the path, as the server reads it, does not
climb, or goes down again by the names of the base path; or if the base URL has a query or a
fragment, to which the path is then added. -/
theorem confined_iff (names : Names) (tables : Tables) (settings : Core.HostGuard.Settings)
    (server : Server) (rawBase rawPath base path : List Char)
    (hbase : validateBaseUrl names tables settings rawBase = .ok base)
    (hpath : validatePath rawPath = .ok path) :
    Confined server base path ↔ HasQuery base ∨ Returns server base path := by
  have haccepted := accepted_of_validatePath hpath
  obtain ⟨hscheme, hnetloc, hbehind, hended⟩ :=
    target_append (ended_of_validateBaseUrl hbase) haccepted
  by_cases hquery : HasQuery base
  · have hsame : (target (base ++ path)).path = (target base).path := by
      rw [target, hbehind]
      exact pathOf_append_of_query hquery
    apply iff_of_true
    · exact ⟨hscheme, hnetloc, hsame ▸ Server.directory_prefix_self _⟩
    · exact .inl hquery
  · have hplain : ∀ c ∈ behind base, isQuery c = false := fun c hc =>
      Bool.eq_false_iff.mpr fun htrue => hquery ⟨c, hc, htrue⟩
    have hpathplain : ∀ c ∈ path, isQuery c = false := fun c hc =>
      Bool.eq_false_iff.mpr fun htrue => by
        rcases (by simpa [isQuery] using htrue : c = '?' ∨ c = '#') with hsame | hsame
        · exact haccepted.not_mem (by decide) (hsame ▸ hc)
        · exact haccepted.not_mem (by decide) (hsame ▸ hc)
    have hown : (target base).path = behind base := pathOf_of_plain hplain
    have hwhole : (target (base ++ path)).path = behind base ++ path := by
      rw [target, hbehind]
      apply pathOf_of_plain
      intro c hc
      rcases List.mem_append.mp hc with hbase | hpath
      · exact hplain c hbase
      · exact hpathplain c hpath
    have hslash : behind base = (behind base).dropLast ++ ['/'] :=
      (List.dropLast_append_getLast? '/' hended.last).symm
    have hbelow : server.directory (target base).path <+: server.place (target (base ++ path)).path ↔
        Returns server base path := by
      rw [Returns, hown, hwhole, hslash, List.append_assoc, List.singleton_append]
      exact Server.directory_prefix_place _ path
    apply Iff.intro
    · exact fun hconfined => .inr (hbelow.mp hconfined.below)
    · intro hcondition
      rcases hcondition with hfalse | hreturns
      · exact absurd hfalse hquery
      · exact ⟨hscheme, hnetloc, hbelow.mpr hreturns⟩

/-! ## Encoded dots -/

/-- Names that know 8.8.8.8 only. -/
def publicNames : Names where
  ipAddress text := if text = "8.8.8.8".toList then some (.v4 (Address.ipv4 8 8 8 8)) else none
  getaddrinfo _ := .error "Name or service not known"

/-- A server that decodes once. -/
def decoding : Server := ⟨1, false, true⟩

theorem confined_iff_items :
    Confined decoding "https://8.8.8.8/v1/".toList "items".toList ↔
      HasQuery "https://8.8.8.8/v1/".toList ∨
        Returns decoding "https://8.8.8.8/v1/".toList "items".toList :=
  confined_iff publicNames ⟨fun _ => false, id⟩ ⟨[], [], [], false⟩ decoding
    "https://8.8.8.8/v1".toList "/items".toList _ _ (by decide +kernel) (by decide +kernel)

/-- Two encoded dots lead out of the base path. -/
theorem not_confined_of_encoded_dots :
    ¬ ∀ names tables settings server rawBase rawPath base path,
      validateBaseUrl names tables settings rawBase = .ok base →
      validatePath rawPath = .ok path → Confined server base path := by
  intro hclaim
  have hconfined := hclaim publicNames ⟨fun _ => false, id⟩ ⟨[], [], [], false⟩ decoding
    "https://8.8.8.8/v1".toList "%2e%2e/admin".toList "https://8.8.8.8/v1/".toList
    "%2e%2e/admin".toList (by decide +kernel) (by decide +kernel)
  exact absurd hconfined.below (by decide +kernel)

end DbtCraft.Ingest.RestPath
