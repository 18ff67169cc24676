/-
# URLs of the web

`new URL(input, base)`: the parser of the URL standard. Its states before an authority or a
path is read sort the input into a reference, which says what is taken from the base; the
others make a URL of it. Hosts are read by a host parser. The query and the fragment are left
out.
-/

import DbtCraft.Python.UrlParse

namespace DbtCraft.Web

open DbtCraft.Python.Url

/-- The characters of a URL. -/
abbrev Text := List Char

inductive Path
  | /-- The path of a URL that has no segments. -/
    whole (text : Text)
  | segments (segments : List Text)
  deriving DecidableEq

structure Url where
  scheme : Text
  /-- There is a username or a password. -/
  credentials : Bool
  host : Option Text
  port : Option ℕ
  path : Path
  deriving DecidableEq

/-- The host parser of the standard, for an opaque host or another one; `none` is a failure. -/
abbrev HostParser := Bool → Text → Option Text

/-- The segments of a path. -/
def Url.pathSegments (url : Url) : List Text :=
  match url.path with
  | .whole _ => []
  | .segments segments => segments

/-! ## Schemes -/

def http : Text := "http".toList
def https : Text := "https".toList
def fileScheme : Text := "file".toList

def isSpecial (scheme : Text) : Bool :=
  ["ftp".toList, fileScheme, http, https, "ws".toList, "wss".toList].contains scheme

def defaultPort (scheme : Text) : Option ℕ :=
  if scheme = "ftp".toList then some 21
  else if scheme = http ∨ scheme = "ws".toList then some 80
  else if scheme = https ∨ scheme = "wss".toList then some 443
  else none

/-- The scheme of the input and what follows its colon. -/
def schemeOf (input : Text) : Option (Text × Text) :=
  if input.head?.any Char.isAlpha then
    match input.dropWhile isSchemeChar with
    | ':' :: rest => some ((input.takeWhile isSchemeChar).map Char.toLower, rest)
    | _ => none
  else none

/-! ## Paths -/

/-- A slash; in a special URL a backslash is one. -/
def isSlash (special : Bool) (c : Char) : Bool := c = '/' || special && c = '\\'

/-- The end of a path. -/
def endsPath (c : Char) : Bool := c = '?' || c = '#'

/-- The end of an authority. -/
def endsAuthority (special : Bool) (c : Char) : Bool := isSlash special c || endsPath c

/-- The path percent-encode set. -/
def inPathSet (c : Char) : Bool :=
  c.toNat < 0x20 || c.toNat > 0x7e ||
    [0x20, 0x22, 0x23, 0x3c, 0x3e, 0x3f, 0x5e, 0x60, 0x7b, 0x7d].contains c.toNat

/-- A character of a path. -/
def percentEncode (c : Char) : Text :=
  if inPathSet c then (String.utf8EncodeChar c).flatMap quoteByte else [c]

def isSingleDot (segment : Text) : Bool :=
  [".", "%2e"].contains (String.ofList (segment.map Char.toLower))

def isDoubleDot (segment : Text) : Bool :=
  ["..", ".%2e", "%2e.", "%2e%2e"].contains (String.ofList (segment.map Char.toLower))

/-- A Windows drive letter. -/
def isDrive : Text → Bool
  | [letter, mark] => letter.isAlpha && (mark = ':' || mark = '|')
  | _ => false

def startsWithDrive (text : Text) : Bool :=
  isDrive (text.take 2) && (text[2]?).all (endsAuthority true)

def isNormalizedDrive (segment : Text) : Bool := isDrive segment && segment[1]? = some ':'

/-- A path without its last segment; a drive letter stays. -/
def shorten (scheme : Text) (path : List Text) : List Text :=
  if scheme = fileScheme ∧ path.length = 1 ∧ path.all isNormalizedDrive then path else path.dropLast

/-- A segment that is appended to a path. -/
def segmentOf (scheme : Text) (path : List Text) (buffer : Text) : Text :=
  if scheme = fileScheme && path.isEmpty && isDrive buffer then buffer.take 1 ++ [':'] else buffer

/-- The path state, segment after segment. -/
def walk (scheme : Text) : List Text → List Text → List Text
  | path, [] => path
  | path, segment :: rest =>
    let buffer := segment.flatMap percentEncode
    let ending : List Text := if rest.isEmpty then [[]] else []
    if isDoubleDot buffer then walk scheme (shorten scheme path ++ ending) rest
    else if isSingleDot buffer then walk scheme (path ++ ending) rest
    else walk scheme (path ++ [segmentOf scheme path buffer]) rest

/-- The path state. -/
def pathState (scheme : Text) (start : List Text) (text : Text) : List Text :=
  walk scheme start ((text.takeWhile (!endsPath ·)).splitOnP (isSlash (isSpecial scheme)))

/-- The path start state. -/
def pathStart (scheme : Text) (text : Text) : List Text :=
  match text with
  | [] => if isSpecial scheme then pathState scheme [] [] else []
  | c :: rest =>
    if isSlash (isSpecial scheme) c then pathState scheme [] rest
    else if isSpecial scheme then pathState scheme [] text
    else []

/-! ## Authorities -/

structure Authority where
  credentials : Bool
  host : Text
  port : Option ℕ

/-- A host, and what follows the first colon outside brackets. -/
def cutPort : Bool → Text → Text × Option Text
  | _, [] => ([], none)
  | inside, c :: rest =>
    if c = ':' && !inside then ([], some rest)
    else
      let (host, port) := cutPort (if c = '[' then true else if c = ']' then false else inside) rest
      (c :: host, port)

/-- The port state; the outer `none` is a failure. -/
def portState (scheme digits : Text) : Option (Option ℕ) :=
  if digits.all Char.isDigit = false then none
  else if digits = [] then some none
  else if Parsed.natOfDigits digits > 65535 then none
  else if defaultPort scheme = some (Parsed.natOfDigits digits) then some none
  else some (some (Parsed.natOfDigits digits))

/-- The authority, the host and the port state. -/
def authorityState (hosts : HostParser) (scheme text : Text) : Option Authority :=
  let (userinfo, rest) := rpartition '@' text
  let (name, digits) := cutPort false rest
  let credentials := userinfo.any fun userinfo =>
    let (username, password) := partition ':' userinfo
    username ≠ [] || password.any (· ≠ [])
  if userinfo.isSome && rest = [] then none
  else if name = [] && (digits.isSome || isSpecial scheme) then none
  else do
    let host ← hosts (!isSpecial scheme) name
    let port ← portState scheme (digits.getD [])
    return ⟨credentials, host, port⟩

/-! ## References -/

/-- What is taken from the base, and what is still to be read. -/
inductive Reference
  | invalid
  | /-- The URL of the base. -/
    same
  | /-- A path from the first segments on, with the authority of the base. -/
    path (start : List Text) (text : Text)
  | authority (scheme text : Text)
  | /-- A path without an authority. -/
    rootless (scheme text : Text)
  | /-- A path without segments. -/
    whole (scheme text : Text)
  | file (host : Option Text) (start : List Text) (text : Text)
  | fileHost (text : Text)

/-- The relative state and the relative slash state. -/
def relativeState (base : Url) (text : Text) : Reference :=
  let special := isSpecial base.scheme
  match text with
  | [] => .same
  | c :: rest =>
    if isSlash special c then
      match rest with
      | [] => .path [] []
      | second :: after =>
        if isSlash special second then
          .authority base.scheme (if special then after.dropWhile (isSlash true) else after)
        else .path [] rest
    else if endsPath c then .same
    else .path (shorten base.scheme base.pathSegments) text

/-- The file state and the file slash state, with a base that is a file URL or none. -/
def fileState (base : Option Url) (text : Text) : Reference :=
  match text with
  | '/' :: rest | '\\' :: rest =>
    match rest with
    | '/' :: after | '\\' :: after => .fileHost after
    | _ =>
      match base with
      | none => .file (some []) [] rest
      | some base =>
        let drive := base.pathSegments.take 1
        .file base.host
          (if !startsWithDrive rest && drive.all isNormalizedDrive then drive else []) rest
  | _ =>
    match base with
    | none => .file (some []) [] text
    | some base =>
      if text.head?.all endsPath then .same
      else if startsWithDrive text then .file base.host [] text
      else .file base.host (shorten fileScheme base.pathSegments) text

/-- The states up to the relative and the file state. -/
def referenceOf (base : Option Url) (text : Text) : Reference :=
  match schemeOf text with
  | some (scheme, rest) =>
    if scheme = fileScheme then fileState (base.filter fun base => base.scheme = fileScheme) rest
    else if isSpecial scheme then
      match base.filter fun base => base.scheme = scheme && !"//".toList.isPrefixOf rest with
      | some base => relativeState base rest
      | none => .authority scheme (rest.dropWhile (isSlash true))
    else
      match rest with
      | '/' :: '/' :: after => .authority scheme after
      | '/' :: after => .rootless scheme after
      | _ => .whole scheme rest
  | none =>
    match base with
    | none => .invalid
    | some base =>
      match base.path with
      | .whole _ => if text.head? = some '#' then .same else .invalid
      | .segments _ =>
        if base.scheme = fileScheme then fileState (some base) text else relativeState base text

/-! ## The parser -/

/-- The file host state. -/
def fileHostState (hosts : HostParser) (text : Text) : Option Url :=
  let name := text.takeWhile (!endsAuthority true ·)
  let rest := text.dropWhile (!endsAuthority true ·)
  if isDrive name then
    some ⟨fileScheme, false, some [], none, .segments (pathState fileScheme [] text)⟩
  else if name = [] then some ⟨fileScheme, false, some [], none, .segments (pathStart fileScheme rest)⟩
  else (hosts false name).map fun host =>
    ⟨fileScheme, false, some (if host = "localhost".toList then [] else host), none,
      .segments (pathStart fileScheme rest)⟩

/-- The URL of a reference; `none` is a failure. -/
def Reference.url (hosts : HostParser) (base : Option Url) : Reference → Option Url
  | .invalid => none
  | .same => base
  | .path start text =>
    base.map fun base => { base with path := .segments (pathState base.scheme start text) }
  | .authority scheme text =>
    let special := isSpecial scheme
    (authorityState hosts scheme (text.takeWhile (!endsAuthority special ·))).map fun authority =>
      ⟨scheme, authority.credentials, some authority.host, authority.port,
        .segments (pathStart scheme (text.dropWhile (!endsAuthority special ·)))⟩
  | .rootless scheme text => some ⟨scheme, false, none, none, .segments (pathState scheme [] text)⟩
  | .whole scheme text => some ⟨scheme, false, none, none, .whole (text.takeWhile (!endsPath ·))⟩
  | .file host start text => some ⟨fileScheme, false, host, none, .segments (pathState fileScheme start text)⟩
  | .fileHost text => fileHostState hosts text

/-- The input without the characters that the parser drops. -/
def cleaned (input : Text) : Text :=
  (((input.dropWhile isControlOrSpace).reverse.dropWhile isControlOrSpace).reverse).filter isKept

/-- `new URL(input, base)`; `none` is a `TypeError`. -/
def parse (hosts : HostParser) (input : Text) (base : Option Url) : Option Url :=
  (referenceOf base (cleaned input)).url hosts base

end DbtCraft.Web
