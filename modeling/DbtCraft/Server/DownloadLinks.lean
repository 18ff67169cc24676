/-
# Signed download links

`POST /api/files/sign` and `GET /api/files/download`: a link carries a MAC of the file name,
the time it expires at and the user, joined with colons, and the download reads the three of
them back out of its parameters. HMAC, the sum and the text of large numbers, and the disk are
not part of the service.
-/

import DbtCraft.Python.Splitting
import DbtCraft.Server.Proxy
import Mathlib.Data.Nat.Digits.Defs
import Mathlib.Data.Set.Insert

namespace DbtCraft.Server.DownloadLinks

open DbtCraft.Python
open DbtCraft.Server.Proxy (isWhiteSpace)

abbrev Text := List Char

/-- `session.user.id`, a UUID. -/
structure UserId where
  text : Text
  nonempty : text ≠ []
  plain : ∀ c ∈ text, (c.isAlphanum || c = '-') = true

/-- What the routes rely on. -/
structure Runtime where
  /-- `createHmac('sha256', secret).update(data).digest('hex')`; without a secret there is
  none. -/
  digest : Option (Text → Text)
  /-- The sum of two integral numbers. -/
  add : ℕ → ℕ → ℕ
  /-- The text of a number from 1e21 on. -/
  exponential : ℕ → Text
  exponential_eq : ∀ number, ∃ lead rest, exponential number = lead :: rest ∧ lead.isDigit = true ∧
    (∀ c ∈ rest.head?, c.isDigit = false ∧ c ≠ 'x' ∧ c ≠ 'X') ∧ ':' ∉ rest

/-- `path.resolve(STORAGE_DIR, 'files')` and the files on the disk. -/
structure Disk where
  filesDir : List Text
  /-- `fs.readFile(path)`. -/
  readFile : List Text → Option (List UInt8)

variable (runtime : Runtime) (disk : Disk)

/-! ## Signing -/

/-- The text of an integral number. -/
def numberText (number : ℕ) : Text :=
  if number < 10 ^ 21 then Nat.toDigits 10 number else runtime.exponential number

/-- A call of the route that answers a link: `ttlSeconds` is the integral part of a positive
number, if it is one. -/
structure Minting where
  now : ℕ
  user : UserId
  filename : Text
  nonempty : filename ≠ []
  ttlSeconds : Option ℕ

namespace Minting

variable (minting : Minting)

/-- `exp`. -/
def exp : ℕ := runtime.add (minting.now / 1000) (minting.ttlSeconds.getD 60)

/-- `${filename}:${exp}:${userId}`. -/
def data : Text :=
  minting.filename ++ ':' :: (numberText runtime (minting.exp runtime) ++ ':' :: minting.user.text)

end Minting

/-- The parameters of a link. -/
structure Link where
  filename : Text
  token : Text
  exp : Text

/-- `POST`: without a secret it fails. -/
def sign (minting : Minting) : Option Link :=
  runtime.digest.map fun digest =>
    { filename := minting.filename
      token := minting.user.text ++ '.' :: digest (minting.data runtime)
      exp := numberText runtime (minting.exp runtime) }

/-! ## Downloading -/

/-- The value of a hexadecimal digit. -/
def hexDigit (c : Char) : Option ℕ :=
  if c.isDigit then some (c.toNat - 48)
  else if 'a' ≤ c ∧ c ≤ 'f' then some (c.toNat - 87)
  else if 'A' ≤ c ∧ c ≤ 'F' then some (c.toNat - 55)
  else none

/-- `Buffer.from(text, 'hex')`: it ends before the first pair that is not hexadecimal. -/
def hexBytes : Text → List ℕ
  | high :: low :: rest =>
    match hexDigit high, hexDigit low with
    | some high, some low => (16 * high + low) :: hexBytes rest
    | _, _ => []
  | _ => []

/-- `safeEqualHex`. -/
def safeEqualHex (own other : Text) : Bool := hexBytes own = hexBytes other

/-- The number that a text begins with, where it is not negative. -/
def magnitude (text : Text) : Option ℕ :=
  if text.take 2 = ['0', 'x'] ∨ text.take 2 = ['0', 'X'] then
    match ((text.drop 2).map hexDigit).takeWhile Option.isSome with
    | [] => none
    | values => some (values.foldl (fun total value => 16 * total + value.getD 0) 0)
  else
    let digits := text.takeWhile Char.isDigit
    if digits = [] then none else some (Nat.ofDigitChars 10 digits 0)

/-- `parseInt(text)`; `none` is `NaN`. -/
def parseInt (text : Text) : Option ℤ :=
  let trimmed := text.dropWhile isWhiteSpace
  if trimmed.head? = some '-' then (magnitude (trimmed.drop 1)).map fun value => -(value : ℤ)
  else if trimmed.head? = some '+' then (magnitude (trimmed.drop 1)).map fun value => (value : ℤ)
  else (magnitude trimmed).map fun value => (value : ℤ)

/-- The segments of a path that is walked from a directory. -/
def walk (start : List Text) (path : Text) : List Text :=
  (split '/' path).foldl (fun reached segment =>
    if segment = [] ∨ segment = ['.'] then reached
    else if segment = ['.', '.'] then reached.dropLast
    else reached ++ [segment]) start

/-- `path.resolve(base, filename)`. -/
def resolve (base : List Text) (filename : Text) : List Text :=
  walk (if filename.head? = some '/' then [] else base) filename

/-- `resolveWithin` of a base that may end with a separator. -/
def resolveWithin (base : List Text) (separated : Bool) (filename : Text) : Option (List Text) :=
  let resolved := resolve base filename
  if resolved = base then if separated then none else some resolved
  else if base.isPrefixOf resolved then some resolved
  else none

structure Request where
  filename : Option Text
  token : Option Text
  exp : Option Text

inductive Response
  | refused (status : ℕ) (error : String)
  | served (file : List Text) (content : List UInt8)

/-- A parameter that is there and not empty. -/
def given (parameter : Option Text) : Option Text := parameter.filter (· ≠ [])

/-- `GET`, at the time `Date.now()`. -/
def download (now : ℕ) (request : Request) : Response :=
  match given request.filename, given request.token, given request.exp with
  | some filename, some token, some exp =>
    match runtime.digest with
    | none => .refused 500 "Server misconfigured"
    | some digest =>
      match split '.' token with
      | [userId, hmac] =>
        if safeEqualHex hmac (digest (filename ++ ':' :: (exp ++ ':' :: userId))) = false then
          .refused 403 "Invalid or expired token"
        -- A comparison with `NaN` is false.
        else if (parseInt exp).any fun seconds => seconds * 1000 < (now : ℤ) then
          .refused 403 "Token expired"
        else
          match resolveWithin (walk disk.filesDir userId) (userId.getLast? = some '/') filename with
          | none => .refused 400 "Invalid filename"
          | some file =>
            match disk.readFile file with
            | none => .refused 404 "File not found"
            | some content => .served file content
      | _ => .refused 403 "Invalid token"
  | _, _, _ => .refused 400 "Missing params"

/-! ## The guarantee -/

/-- A link with this file name, this expiry and this user was minted, the expiry is not past,
and the file lies in the directory of the user. -/
def Authorised (minted : Set Minting) (now : ℕ) (request : Request) (file : List Text) : Prop :=
  ∃ minting ∈ minted, request.filename = some minting.filename ∧
    request.exp = some (numberText runtime (minting.exp runtime)) ∧
      (∃ token hmac, request.token = some token ∧ split '.' token = [minting.user.text, hmac]) ∧
        now ≤ minting.exp runtime * 1000 ∧ disk.filesDir ++ [minting.user.text] <+: file

/-- Nobody has the MAC of a text that was not signed. -/
def Unforged (minted : Set Minting) (request : Request) : Prop :=
  ∀ filename exp token digest userId hmac, request.filename = some filename →
    request.exp = some exp → request.token = some token → runtime.digest = some digest →
      split '.' token = [userId, hmac] →
        safeEqualHex hmac (digest (filename ++ ':' :: (exp ++ ':' :: userId))) = true →
          ∃ minting ∈ minted, minting.data runtime = filename ++ ':' :: (exp ++ ':' :: userId)

/-- Neither the expiry nor the user of a request has a colon. -/
def Separated (request : Request) : Prop :=
  (∀ exp, request.exp = some exp → ':' ∉ exp) ∧
    ∀ token userId hmac, request.token = some token → split '.' token = [userId, hmac] →
      ':' ∉ userId

/-! ## What a MAC covers -/

/-- A text is taken apart at its last colon in one way. -/
theorem append_colon_inj {before other after rest : Text} (hafter : ':' ∉ after) (hrest : ':' ∉ rest)
    (hsame : before ++ ':' :: after = other ++ ':' :: rest) : before = other ∧ after = rest := by
  rcases List.append_eq_append_iff.mp hsame with ⟨between, hother, hcolon⟩ | ⟨between, hbefore, hcolon⟩
  · cases between with
    | nil => exact ⟨(hother.trans (List.append_nil before)).symm, (List.cons.inj hcolon).2⟩
    | cons first between =>
      have hmem : ':' ∈ after := by
        rw [(List.cons.inj hcolon).2]
        exact List.mem_append_right between List.mem_cons_self
      exact absurd hmem hafter
  · cases between with
    | nil => exact ⟨hbefore.trans (List.append_nil other), ((List.cons.inj hcolon).2).symm⟩
    | cons first between =>
      have hmem : ':' ∈ rest := by
        rw [(List.cons.inj hcolon).2]
        exact List.mem_append_right between List.mem_cons_self
      exact absurd hmem hrest

theorem not_mem_colon_user (user : UserId) : ':' ∉ user.text := by
  intro hmem
  exact absurd (user.plain ':' hmem) (by decide)

variable {runtime disk}

theorem not_mem_colon_numberText (number : ℕ) : ':' ∉ numberText runtime number := by
  unfold numberText
  split
  · intro hmem
    exact absurd (Nat.isDigit_of_mem_toDigits (by decide) (by decide) hmem) (by decide)
  · obtain ⟨lead, rest, hnumber, hlead, -, hrest⟩ := runtime.exponential_eq number
    rw [hnumber, List.mem_cons]
    rintro (hcolon | hmem)
    · rw [← hcolon] at hlead
      exact absurd hlead (by decide)
    · exact hrest hmem

/-- A MAC of a text with an expiry and a user without colons covers this expiry and user. -/
theorem eq_of_data {minting : Minting} {filename exp userId : Text} (hexp : ':' ∉ exp)
    (huser : ':' ∉ userId) (hdata : minting.data runtime = filename ++ ':' :: (exp ++ ':' :: userId)) :
    minting.filename = filename ∧ numberText runtime (minting.exp runtime) = exp ∧
      minting.user.text = userId := by
  have houter : (minting.filename ++ ':' :: numberText runtime (minting.exp runtime)) ++
      ':' :: minting.user.text = (filename ++ ':' :: exp) ++ ':' :: userId := by
    simpa [Minting.data] using hdata
  obtain ⟨hinner, hid⟩ := append_colon_inj (not_mem_colon_user minting.user) huser houter
  obtain ⟨hname, hnumber⟩ := append_colon_inj (not_mem_colon_numberText _) hexp hinner
  exact ⟨hname, hnumber, hid⟩

/-! ## Expiry -/

theorem isDigit_bound {c : Char} (hc : c.isDigit = true) : 48 ≤ c.toNat ∧ c.toNat ≤ 57 := by
  simp only [Char.isDigit, Bool.and_eq_true, decide_eq_true_eq, UInt32.le_iff_toNat_le, ge_iff_le] at hc
  exact hc

theorem not_isWhiteSpace {c : Char} (hc : c.isDigit = true) : isWhiteSpace c = false := by
  have hbound := isDigit_bound hc
  simp only [isWhiteSpace, Bool.or_eq_false_iff, Bool.and_eq_false_iff, decide_eq_false_iff_not]
  omega

/-- A text that begins with digits is read as their number. -/
theorem parseInt_digits {digits rest : Text} (hdigits : ∀ c ∈ digits, c.isDigit = true)
    (hnonempty : digits ≠ [])
    (hrest : ∀ c ∈ rest.head?, c.isDigit = false ∧ c ≠ 'x' ∧ c ≠ 'X') :
    parseInt (digits ++ rest) = some (Nat.ofDigitChars 10 digits 0 : ℕ) := by
  obtain ⟨first, tail, rfl⟩ := List.exists_cons_of_ne_nil hnonempty
  have hfirst := hdigits first List.mem_cons_self
  have htake : (first :: tail ++ rest).takeWhile Char.isDigit = first :: tail := by
    rw [List.takeWhile_append_of_pos hdigits]
    cases rest with
    | nil => rw [List.takeWhile_nil, List.append_nil]
    | cons c rest =>
      rw [List.takeWhile_cons_of_neg (by simp [(hrest c rfl).1]), List.append_nil]
  -- A second character is a digit or the first of the rest, so no hexadecimal number begins.
  have hsecond : ∀ c, (c = 'x' ∨ c = 'X') → (first :: tail ++ rest).take 2 ≠ ['0', c] := by
    intro c hc htwo
    cases tail with
    | cons second tail =>
      have hdigit := hdigits second (List.mem_cons_of_mem _ List.mem_cons_self)
      rw [(List.cons.inj (List.cons.inj htwo).2).1] at hdigit
      rcases hc with rfl | rfl <;> exact absurd hdigit (by decide)
    | nil =>
      cases rest with
      | nil => exact absurd (congrArg List.length htwo) (by simp)
      | cons second rest =>
        have hsame : second = c := (List.cons.inj (List.cons.inj htwo).2).1
        rcases hc with hx | hX
        · exact (hrest second rfl).2.1 (hsame.trans hx)
        · exact (hrest second rfl).2.2 (hsame.trans hX)
  have hmagnitude : magnitude (first :: tail ++ rest) =
      some (Nat.ofDigitChars 10 (first :: tail) 0) := by
    unfold magnitude
    rw [if_neg (not_or.mpr ⟨hsecond 'x' (.inl rfl), hsecond 'X' (.inr rfl)⟩), htake]
    exact if_neg (List.cons_ne_nil first tail)
  have hsign : ∀ c, c.isDigit = false → (first :: tail ++ rest).head? ≠ some c := by
    intro c hc hhead
    rw [← Option.some.inj hhead, hfirst] at hc
    cases hc
  unfold parseInt
  rw [List.cons_append, List.dropWhile_cons_of_neg (by simp [not_isWhiteSpace hfirst]),
    ← List.cons_append]
  dsimp only
  rw [if_neg (hsign '-' (by decide)), if_neg (hsign '+' (by decide)), hmagnitude]
  rfl

theorem parseInt_toDigits (number : ℕ) :
    parseInt (Nat.toDigits 10 number) = some (number : ℤ) := by
  have hparsed : parseInt (Nat.toDigits 10 number ++ []) =
      some (Nat.ofDigitChars 10 (Nat.toDigits 10 number) 0 : ℕ) :=
    parseInt_digits (fun c hc => Nat.isDigit_of_mem_toDigits (by decide) (by decide) hc)
      Nat.toDigits_ne_nil fun c hc => by cases hc
  rw [List.append_nil, Nat.ofDigitChars_ten_toDigits] at hparsed
  exact hparsed

/-- The expiry of a link is read as no later time than it says. -/
theorem parseInt_numberText (number : ℕ) :
    ∃ seconds : ℕ, parseInt (numberText runtime number) = some (seconds : ℤ) ∧ seconds ≤ number := by
  unfold numberText
  split
  · exact ⟨number, parseInt_toDigits number, le_refl number⟩
  next hlarge =>
    obtain ⟨lead, rest, hnumber, hlead, hrest, -⟩ := runtime.exponential_eq number
    have hparsed : parseInt ([lead] ++ rest) = some (Nat.ofDigitChars 10 [lead] 0 : ℕ) :=
      parseInt_digits (by simpa using hlead) (List.cons_ne_nil lead []) hrest
    refine ⟨_, by rw [hnumber]; exact hparsed, ?_⟩
    have hbound := isDigit_bound hlead
    rw [Nat.ofDigitChars_cons, Nat.ofDigitChars_nil]
    have hten : (10 : ℕ) ^ 21 ≤ number := Nat.le_of_not_lt hlarge
    have hzero : ('0').toNat = 48 := rfl
    omega

/-! ## The directory of a user -/

theorem not_mem_user (user : UserId) {c : Char} (hc : (c.isAlphanum || c = '-') = false) :
    c ∉ user.text := by
  intro hmem
  rw [user.plain c hmem] at hc
  cases hc

/-- The id of a user is one segment of a path. -/
theorem walk_user (start : List Text) (user : UserId) :
    walk start user.text = start ++ [user.text] := by
  have hdot : '.' ∉ user.text := not_mem_user user (by decide)
  have hone : user.text ≠ ['.'] := fun hsame => hdot (hsame ▸ List.mem_cons_self)
  have htwo : user.text ≠ ['.', '.'] := fun hsame => hdot (hsame ▸ List.mem_cons_self)
  unfold walk
  rw [split_of_not_mem (not_mem_user user (by decide)), List.foldl_cons, List.foldl_nil,
    if_neg (not_or.mpr ⟨user.nonempty, hone⟩), if_neg htwo]

/-- What is served lies in the directory of the user. -/
theorem resolveWithin_user {user : UserId} {filename : Text} {file : List Text} :
    resolveWithin (walk disk.filesDir user.text) (user.text.getLast? = some '/') filename = some file ↔
      disk.filesDir ++ [user.text] <+: file ∧
        resolve (disk.filesDir ++ [user.text]) filename = file := by
  have hslash : user.text.getLast? ≠ some '/' := fun hlast =>
    not_mem_user user (by decide) (List.mem_of_getLast? hlast)
  rw [walk_user, decide_eq_false hslash]
  unfold resolveWithin
  dsimp only
  split
  next hbase =>
    rw [hbase]
    constructor
    · rintro ⟨⟩
      exact ⟨List.prefix_rfl, rfl⟩
    · rintro ⟨-, rfl⟩
      rfl
  · rw [Option.ite_none_right_eq_some, List.isPrefixOf_iff_prefix, Option.some_inj]
    exact and_congr_left fun hfile => by rw [hfile]

/-! ## The condition is exact -/

variable {minted : Set Minting} {now : ℕ} {request : Request} {file : List Text}
  {content : List UInt8}

theorem eq_some_of_given {parameter : Option Text} {text : Text} (hgiven : given parameter = some text) :
    parameter = some text := (Option.filter_eq_some_iff.mp hgiven).1

/-- What has been checked when a file is served. -/
theorem checked_of_served (hserved : download runtime disk now request = .served file content) :
    ∃ filename token exp digest userId hmac, request.filename = some filename ∧
      request.token = some token ∧ request.exp = some exp ∧ runtime.digest = some digest ∧
        split '.' token = [userId, hmac] ∧
          safeEqualHex hmac (digest (filename ++ ':' :: (exp ++ ':' :: userId))) = true ∧
            (∀ seconds, parseInt exp = some seconds → (now : ℤ) ≤ seconds * 1000) ∧
              resolveWithin (walk disk.filesDir userId) (userId.getLast? = some '/') filename =
                some file ∧ disk.readFile file = some content := by
  unfold download at hserved
  split at hserved
  next filename token exp hfilename htoken hexp =>
    split at hserved
    · cases hserved
    next digest hdigest =>
      split at hserved
      next userId hmac hparts =>
        split at hserved
        · cases hserved
        next hequal =>
          split at hserved
          · cases hserved
          next hfresh =>
            split at hserved
            · cases hserved
            next own hfile =>
              split at hserved
              · cases hserved
              next hread =>
                cases hserved
                refine ⟨filename, token, exp, digest, userId, hmac,
                  eq_some_of_given hfilename, eq_some_of_given htoken,
                  eq_some_of_given hexp, hdigest, hparts, by simpa using hequal, ?_,
                  hfile, hread⟩
                intro seconds hseconds
                rw [hseconds] at hfresh
                simpa using hfresh
      · cases hserved
  · cases hserved

/-- A file that is served to a request that is not forged is one that a link authorises exactly
when neither the expiry nor the user of the request has a colon. -/
theorem authorised_iff_separated (runtime : Runtime) (disk : Disk) (minted : Set Minting) (now : ℕ)
    (request : Request) (file : List Text) (content : List UInt8)
    (hunforged : Unforged runtime minted request)
    (hserved : download runtime disk now request = .served file content) :
    Authorised runtime disk minted now request file ↔ Separated request := by
  obtain ⟨filename, token, exp, digest, userId, hmac, hfilename, htoken, hexp, hdigest, hparts,
    hequal, hfresh, hfile, -⟩ := checked_of_served hserved
  apply Iff.intro
  · rintro ⟨minting, -, -, hnumber, ⟨own, mac, hown, huser⟩, -⟩
    apply And.intro
    · intro other hother
      rw [Option.some.inj (hother.symm.trans hnumber)]
      exact not_mem_colon_numberText _
    · intro other id mac' hother hsplit
      rw [Option.some.inj (hown.symm.trans hother), hsplit] at huser
      rw [(List.cons.inj huser).1]
      exact not_mem_colon_user minting.user
  · rintro ⟨hexpiry, huser⟩
    obtain ⟨minting, hminting, hdata⟩ :=
      hunforged filename exp token digest userId hmac hfilename hexp htoken hdigest hparts hequal
    obtain ⟨hname, hnumber, hid⟩ :=
      eq_of_data (hexpiry exp hexp) (huser token userId hmac htoken hparts) hdata
    obtain ⟨seconds, hparsed, hseconds⟩ :
        ∃ seconds : ℕ, parseInt (numberText runtime (minting.exp runtime)) = some (seconds : ℤ) ∧
          seconds ≤ minting.exp runtime := parseInt_numberText _
    refine ⟨minting, hminting, by rw [hfilename, hname], by rw [hexp, hnumber],
      ⟨token, hmac, htoken, by rw [hparts, hid]⟩, ?_, ?_⟩
    · have hnow := hfresh seconds (hnumber ▸ hparsed)
      omega
    · rw [← hid] at hfile
      exact (resolveWithin_user.mp hfile).1

/-! ## A file name with a colon -/

/-- A digest that stands for a MAC: the codes of the characters. -/
def sampleDigest (data : Text) : Text :=
  data.flatMap fun c => [Nat.digitChar (c.toNat / 16), Nat.digitChar (c.toNat % 16)]

def sampleRuntime : Runtime where
  digest := some sampleDigest
  add := (· + ·)
  exponential _ := "1e+21".toList
  exponential_eq _ := by
    refine ⟨'1', "e+21".toList, rfl, by decide, ?_, by decide⟩
    rintro _ ⟨⟩
    decide

def sampleUser : UserId := ⟨"u1".toList, by decide, List.all_eq_true.mp (by decide)⟩

def sampleDisk : Disk where
  filesDir := ["data".toList, "storage".toList, "files".toList]
  readFile _ := some []

/-- A link of a minute to a file. -/
def mintingOf (filename : Text) (hnonempty : filename ≠ []) : Minting :=
  ⟨1700000000000, sampleUser, filename, hnonempty, none⟩

/-- A request for a file with an expiry, with the MAC of these texts. -/
def requestOf (filename exp : Text) : Request :=
  ⟨some filename, some ("u1".toList ++ '.' ::
    sampleDigest (filename ++ ':' :: (exp ++ ':' :: "u1".toList))), some exp⟩

theorem unforged_requestOf (minting : Minting) (filename exp : Text)
    (hdot : split '.' ("u1".toList ++ '.' ::
      sampleDigest (filename ++ ':' :: (exp ++ ':' :: "u1".toList))) =
        ["u1".toList, sampleDigest (filename ++ ':' :: (exp ++ ':' :: "u1".toList))])
    (hdata : minting.data sampleRuntime = filename ++ ':' :: (exp ++ ':' :: "u1".toList)) :
    Unforged sampleRuntime {minting} (requestOf filename exp) := by
  intro filename' exp' token digest userId hmac hfilename hexp htoken _ hparts _
  cases hfilename
  cases hexp
  cases htoken
  rw [hdot] at hparts
  cases hparts
  exact ⟨minting, Set.mem_singleton minting, hdata⟩

theorem authorised_of_plain :
    Authorised sampleRuntime sampleDisk {mintingOf "report".toList (by decide)} 1700000001000
        (requestOf "report".toList "1700000060".toList)
        (sampleDisk.filesDir ++ ["u1".toList, "report".toList]) ↔
      Separated (requestOf "report".toList "1700000060".toList) :=
  authorised_iff_separated sampleRuntime sampleDisk _ 1700000001000 _ _ []
    (unforged_requestOf _ "report".toList "1700000060".toList (by decide +kernel)
      (by decide +kernel)) (by rfl)

/-- The link of a file whose name ends with a time serves another file until then. -/
theorem not_authorised_of_colon :
    ¬ ∀ runtime disk minted now request file content, Unforged runtime minted request →
      download runtime disk now request = .served file content →
        Authorised runtime disk minted now request file := by
  intro hclaim
  let minted : Set Minting := {mintingOf "report:9999999999".toList (by decide)}
  have hunforged : Unforged sampleRuntime minted
      (requestOf "report".toList "9999999999:1700000060".toList) :=
    unforged_requestOf _ "report".toList "9999999999:1700000060".toList (by decide +kernel)
      (by decide +kernel)
  obtain ⟨minting, hminting, hfilename, -⟩ := hclaim sampleRuntime sampleDisk minted 1800000000000
    _ (sampleDisk.filesDir ++ ["u1".toList, "report".toList]) [] hunforged (by rfl)
  rw [Set.mem_singleton_iff.mp hminting] at hfilename
  exact absurd hfilename (by decide)

/-! ## A link that is minted -/

/-- A link is good until it expires: what is served then depends on the file alone. -/
theorem served_iff_of_sign (minting : Minting) (link : Link) (now : ℕ) (file : List Text)
    (content : List UInt8)
    (hhex : ∀ digest, runtime.digest = some digest → '.' ∉ digest (minting.data runtime))
    (hshort : minting.exp runtime < 10 ^ 21) (hlink : sign runtime minting = some link) :
    download runtime disk now ⟨some link.filename, some link.token, some link.exp⟩ =
        .served file content ↔
      now ≤ minting.exp runtime * 1000 ∧ disk.filesDir ++ [minting.user.text] <+: file ∧
        resolve (disk.filesDir ++ [minting.user.text]) minting.filename = file ∧
          disk.readFile file = some content := by
  obtain ⟨digest, hdigest, rfl⟩ := Option.map_eq_some_iff.mp hlink
  have hparts : split '.' (minting.user.text ++ '.' :: digest (minting.data runtime)) =
      [minting.user.text, digest (minting.data runtime)] := by
    rw [split_append (not_mem_user minting.user (by decide)),
      split_of_not_mem (hhex digest hdigest)]
  have hnumber : numberText runtime (minting.exp runtime) = Nat.toDigits 10 (minting.exp runtime) :=
    if_pos hshort
  constructor
  · intro hserved
    obtain ⟨_, _, _, _, _, _, hname, htoken, hexp, -, hsplit, -, hfresh, hfile, hread⟩ :=
      checked_of_served hserved
    cases hname
    cases htoken
    cases hexp
    cases hparts.symm.trans hsplit
    obtain ⟨hwithin, hown⟩ := resolveWithin_user.mp hfile
    rw [hnumber] at hfresh
    have hnow := hfresh _ (parseInt_toDigits _)
    exact ⟨by omega, hwithin, hown, hread⟩
  · rintro ⟨hnow, hwithin, hown, hread⟩
    have hfile := resolveWithin_user.mpr ⟨hwithin, hown⟩
    have hfresh : ¬ (minting.exp runtime : ℤ) * 1000 < now := by omega
    have hequal : safeEqualHex (digest (minting.data runtime)) (digest (minting.data runtime)) = true :=
      decide_eq_true rfl
    unfold Minting.data at hparts hequal
    rw [hnumber] at hparts hequal
    have hgiven : ∀ text : Text, text ≠ [] → given (some text) = some text := fun text htext => by
      simp [given, Option.filter_some, htext]
    simp [download, hgiven, Minting.data, hnumber, minting.nonempty, hdigest, hparts, hequal,
      parseInt_toDigits, hfresh, hfile, hread, Nat.toDigits_ne_nil]

theorem served_of_minted :
    ∃ link, sign sampleRuntime (mintingOf "report".toList (by decide)) = some link ∧
      download sampleRuntime sampleDisk 1700000060000
        ⟨some link.filename, some link.token, some link.exp⟩ =
          .served (sampleDisk.filesDir ++ ["u1".toList, "report".toList]) [] := by
  refine ⟨_, rfl, (served_iff_of_sign _ _ _ _ _ ?_ (by decide) rfl).mpr
    ⟨by decide, by decide, rfl, rfl⟩⟩
  rintro _ ⟨⟩
  decide +kernel

end DbtCraft.Server.DownloadLinks
