/-
# URLs

`urlparse` of `urllib.parse`, with the parts of a network location, and `quote` with no
character but the unreserved ones left as it is. Upper-case letters are those of ASCII.
-/

import Mathlib.Data.List.DropRight
import Mathlib.Data.List.TakeWhile
import DbtCraft.Python.Text

namespace DbtCraft.Python.Url

/-- What `urlparse` asks of `ipaddress` and `unicodedata`. -/
structure Tables where
  /-- `_check_bracketed_host` accepts the text between brackets. -/
  bracketed : List Char → Bool
  /-- `unicodedata.normalize("NFKC", text)`. -/
  nfkc : List Char → List Char

/-! ## Cutting -/

/-- `text.partition(separator)`; there is no second part without a separator. -/
def partition (separator : Char) (text : List Char) : List Char × Option (List Char) :=
  match text.dropWhile (· ≠ separator) with
  | [] => (text, none)
  | _ :: rest => (text.takeWhile (· ≠ separator), some rest)

/-- `text.rpartition(separator)`; there is no first part without a separator. -/
def rpartition (separator : Char) (text : List Char) : Option (List Char) × List Char :=
  match partition separator text.reverse with
  | (_, none) => (none, text)
  | (last, some first) => (some first.reverse, last.reverse)

variable {separator : Char} {text rest : List Char}

theorem partition_of_not_mem (htext : separator ∉ text) : partition separator text = (text, none) := by
  have hall : ∀ c ∈ text, (decide (c ≠ separator)) = true := by
    intro c hc
    exact decide_eq_true fun hsame => htext (hsame ▸ hc)
  unfold partition
  rw [List.dropWhile_eq_nil_iff.mpr hall]

section

universe uα

variable {α : Type uα} {keep : α → Bool} {item : α} {before after : List α}

/-- Nothing is taken beyond an item that is not kept. -/
theorem takeWhile_append_cons (hitem : keep item = false) :
    (before ++ item :: after).takeWhile keep = before.takeWhile keep := by
  induction before with
  | nil => rw [List.nil_append, List.takeWhile_cons_of_neg (by simp [hitem]), List.takeWhile_nil]
  | cons first before ih => rw [List.cons_append, List.takeWhile_cons, List.takeWhile_cons, ih]

theorem rtakeWhile_append_cons (hitem : keep item = false) :
    (before ++ item :: after).rtakeWhile keep = after.rtakeWhile keep := by
  have hreverse : (before ++ item :: after).reverse = after.reverse ++ item :: before.reverse := by
    simp
  rw [List.rtakeWhile, List.rtakeWhile, hreverse, takeWhile_append_cons hitem]

/-- What is kept at the end is taken with it. -/
theorem rtakeWhile_append_of_pos (hafter : ∀ item ∈ after, keep item = true) :
    (before ++ after).rtakeWhile keep = before.rtakeWhile keep ++ after := by
  have hreverse : ∀ item ∈ after.reverse, keep item = true := fun item hitem =>
    hafter item (List.mem_reverse.mp hitem)
  rw [List.rtakeWhile, List.rtakeWhile, List.reverse_append,
    List.takeWhile_append_of_pos hreverse, List.reverse_append, List.reverse_reverse]

theorem length_rtakeWhile_le : (before.rtakeWhile keep).length ≤ before.length :=
  (List.rtakeWhile_suffix keep before).length_le

end

theorem partition_fst : (partition separator text).1 = text.takeWhile (· ≠ separator) := by
  unfold partition
  split
  next hnil =>
    have hall := List.dropWhile_eq_nil_iff.mp hnil
    exact (List.takeWhile_eq_self_iff.mpr hall).symm
  · rfl

/-- A text is what stands before and after its first separator. -/
theorem eq_append_of_partition {first last : List Char}
    (hpartition : partition separator text = (first, some last)) :
    text = first ++ separator :: last := by
  unfold partition at hpartition
  split at hpartition
  · cases hpartition
  next c rest hdrop =>
    obtain ⟨hfirst, hlast⟩ := Prod.mk.inj hpartition
    have hc : c = separator := by
      have hhead := List.head?_dropWhile_not (fun d : Char => decide (d ≠ separator)) text
      rw [hdrop] at hhead
      simpa using hhead
    have hwhole := List.takeWhile_append_dropWhile (p := (· ≠ separator)) (l := text)
    rw [hdrop] at hwhole
    rw [← hwhole, ← hfirst, ← Option.some_inj.mp hlast, hc]

theorem partition_append (htext : separator ∉ text) :
    partition separator (text ++ separator :: rest) = (text, some rest) := by
  have hall : ∀ c ∈ text, (decide (c ≠ separator)) = true := by
    intro c hc
    exact decide_eq_true fun hsame => htext (hsame ▸ hc)
  unfold partition
  rw [List.dropWhile_append_of_pos hall, List.takeWhile_append_of_pos hall]
  simp

theorem rpartition_append (hrest : separator ∉ rest) :
    rpartition separator (text ++ separator :: rest) = (some text, rest) := by
  have hreverse : (text ++ separator :: rest).reverse = rest.reverse ++ separator :: text.reverse := by
    simp
  unfold rpartition
  rw [hreverse, partition_append (by simpa using hrest)]
  simp

theorem eq_of_partition_none {first : List Char}
    (hpartition : partition separator text = (first, none)) : first = text := by
  unfold partition at hpartition
  split at hpartition
  · exact (Prod.mk.inj hpartition).1.symm
  · cases hpartition

theorem rpartition_snd :
    (rpartition separator text).2 = text.rtakeWhile (· ≠ separator) := by
  unfold rpartition
  rw [List.rtakeWhile, ← partition_fst]
  split
  next first hnone =>
    rw [hnone, eq_of_partition_none hnone, List.reverse_reverse]
  next hsome => rw [hsome]

/-! ## `urlparse` -/

/-- A parsed URL, without its parameters, query and fragment. -/
structure Parsed where
  scheme : List Char
  netloc : List Char
  path : List Char

def isSchemeChar (c : Char) : Bool := c.isAlphanum || c = '+' || c = '-' || c = '.'

/-- The scheme and what follows its colon. -/
def splitScheme (url : List Char) : List Char × List Char :=
  match partition ':' url with
  | (scheme, some rest) =>
    if scheme.head?.any Char.isAlpha && scheme.all isSchemeChar then
      (scheme.map Char.toLower, rest)
    else ([], url)
  | (_, none) => ([], url)

def endsNetloc (c : Char) : Bool := c = '/' || c = '?' || c = '#'

/-- The network location and what follows it. -/
def splitNetloc : List Char → List Char × List Char
  | '/' :: '/' :: rest => (rest.takeWhile (!endsNetloc ·), rest.dropWhile (!endsNetloc ·))
  | url => ([], url)

/-- The text between the first brackets. -/
def betweenBrackets (netloc : List Char) : List Char :=
  match partition '[' netloc with
  | (_, some rest) => (partition ']' rest).1
  | (_, none) => []

/-- The brackets of a network location are those of an address. -/
def validBrackets (tables : Tables) (netloc : List Char) : Bool :=
  if netloc.contains '[' && netloc.contains ']' then tables.bracketed (betweenBrackets netloc)
  else !netloc.contains '[' && !netloc.contains ']'

def isAscii (c : Char) : Bool := c.toNat < 128

def isDelimiter (c : Char) : Bool := c = '/' || c = '?' || c = '#' || c = '@' || c = ':'

/-- `_checknetloc`: no character stands for a delimiter. -/
def validNetloc (tables : Tables) (netloc : List Char) : Bool :=
  let bare := netloc.filter fun c => c ≠ '@' && c ≠ ':' && c ≠ '#' && c ≠ '?'
  netloc.all isAscii || tables.nfkc bare = bare || !(tables.nfkc bare).any isDelimiter

/-- `uses_params`. -/
def usesParams : List String :=
  ["", "ftp", "hdl", "prospero", "http", "https", "shttp", "rtsp", "rtspu", "sip", "sips", "mms",
    "sftp", "tel"]

/-- The path without the parameters of its last segment. -/
def withoutParams (path : List Char) : List Char :=
  match rpartition '/' path with
  | (some before, last) => before ++ '/' :: (partition ';' last).1
  | (none, _) => (partition ';' path).1

/-- A space or a control character, which is dropped at the start of a URL. -/
def isControlOrSpace (c : Char) : Bool := c.toNat ≤ 32

/-- A character that is not dropped from all of a URL. -/
def isKept (c : Char) : Bool := c ≠ '\t' && c ≠ '\r' && c ≠ '\n'

/-- The path of a URL that ends with its query and its fragment. -/
def pathOf (text : List Char) : List Char := (partition '?' (partition '#' text).1).1

/-- `urlparse(url)`; `none` is a `ValueError`. -/
def urlparse (tables : Tables) (url : List Char) : Option Parsed :=
  let bare := (url.dropWhile isControlOrSpace).filter isKept
  let (scheme, afterScheme) := splitScheme bare
  let (netloc, afterNetloc) := splitNetloc afterScheme
  let path := pathOf afterNetloc
  if validBrackets tables netloc && validNetloc tables netloc then
    some ⟨scheme, netloc,
      if String.ofList scheme ∈ usesParams then withoutParams path else path⟩
  else none

namespace Parsed

variable (parsed : Parsed)

/-- `username` and `password`. -/
def userinfo : Option (List Char) × Option (List Char) :=
  match rpartition '@' parsed.netloc with
  | (some userinfo, _) => (some (partition ':' userinfo).1, (partition ':' userinfo).2)
  | (none, _) => (none, none)

/-- `_hostinfo`; an empty port is none. -/
def hostinfo : List Char × Option (List Char) :=
  let hostinfo := (rpartition '@' parsed.netloc).2
  let (host, port) :=
    match partition '[' hostinfo with
    | (_, some bracketed) =>
      ((partition ']' bracketed).1,
        (partition ':' ((partition ']' bracketed).2.getD [])).2)
    | (_, none) => partition ':' hostinfo
  (host, if port = some [] then none else port)

/-- A host in lower case; a zone keeps its letters. -/
def lowerHost (host : List Char) : List Char :=
  match partition '%' host with
  | (name, some zone) => name.map Char.toLower ++ '%' :: zone
  | (name, none) => name.map Char.toLower

theorem length_lowerHost (host : List Char) : (lowerHost host).length = host.length := by
  unfold lowerHost
  split
  next name zone hpartition =>
    rw [eq_append_of_partition hpartition]
    simp
  next name hpartition =>
    rw [List.length_map, eq_of_partition_none hpartition]

/-- The case of a host changes, and nothing else. -/
theorem map_toLower_lowerHost (host : List Char) :
    (lowerHost host).map Char.toLower = host.map Char.toLower := by
  have hname : ∀ name : List Char, (name.map Char.toLower).map Char.toLower =
      name.map Char.toLower := by
    intro name
    rw [List.map_map]
    exact List.map_congr_left fun c _ => toLower_toLower c
  unfold lowerHost
  split
  next name zone hpartition =>
    rw [eq_append_of_partition hpartition, List.map_append, List.map_append, hname]
  next name hpartition =>
    rw [hname, eq_of_partition_none hpartition]

/-- `hostname`. -/
def hostname : Option (List Char) :=
  if parsed.hostinfo.1 = [] then none else some (lowerHost parsed.hostinfo.1)

/-- `int(digits)`. -/
def natOfDigits (digits : List Char) : ℕ := Nat.ofDigitChars 10 digits 0

/-- `port`; the outer `none` is a `ValueError`. -/
def port : Option (Option ℕ) :=
  match parsed.hostinfo.2 with
  | none => some none
  | some digits =>
    if digits.all Char.isDigit && decide (natOfDigits digits ≤ 65535) then
      some (some (natOfDigits digits))
    else none

end Parsed

/-! ## `quote` -/

/-- The characters that `quote` never writes as bytes. -/
def isUnreserved (c : Char) : Bool :=
  c.isAlphanum || c = '_' || c = '.' || c = '-' || c = '~'

/-- An upper-case hexadecimal digit. -/
def hexDigit (digit : ℕ) : Char := (Nat.digitChar digit).toUpper

/-- `%xx` for a byte. -/
def quoteByte (byte : UInt8) : List Char :=
  ['%', hexDigit (byte.toNat / 16), hexDigit (byte.toNat % 16)]

/-- `quote(text, safe="")`. -/
def quote (text : List Char) : List Char :=
  text.flatMap fun c =>
    if isUnreserved c then [c] else (String.utf8EncodeChar c).flatMap quoteByte

end DbtCraft.Python.Url
