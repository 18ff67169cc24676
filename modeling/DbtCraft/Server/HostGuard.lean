/-
# The host guard of the web app

`src/server/host-guard.ts`: a host that a user has typed in is refused if one of its addresses
is local. IPv4 addresses are told by their octets, IPv6 addresses by their text. The resolver
and the parser of hosts in URLs are parameters.
-/

import DbtCraft.Exceptions
import DbtCraft.Server.AiProviders
import DbtCraft.Web.Address
import DbtCraft.Web.Url

namespace DbtCraft.Server.HostGuard

open DbtCraft.Python DbtCraft.Server.AiProviders DbtCraft.Web DbtCraft.Web.Address

abbrev Text := List Char

/-! ## The rules -/

def unusable : String := "it is not a usable address"
def loopback : String := "loopback is this container itself, not your gateway host"
def metadata : String := "link-local and cloud metadata addresses are blocked"
def privateAddress : String := "it is a private address"
def carrierPrivate : String := "it is a carrier-private address"

/-- `Number(part)` of a part of an address; `none` is no integer. -/
def numberOf (part : Text) : Option ℕ :=
  if part.all Char.isDigit then some (decimal part) else none

/-- The rules about the first octets. -/
def octetRules (a b : ℕ) : Option String :=
  if a = 127 then some loopback
  else if a = 0 then some unusable
  else if a = 169 ∧ b = 254 then some metadata
  else if a = 10 then some privateAddress
  else if a = 172 ∧ 16 ≤ b ∧ b ≤ 31 then some privateAddress
  else if a = 192 ∧ b = 168 then some privateAddress
  else if a = 100 ∧ 64 ≤ b ∧ b ≤ 127 then some carrierPrivate
  else none

/-- `ipv4Rules`. -/
def ipv4Rules (address : Text) : Option String :=
  match (split '.' address).map numberOf with
  | [some a, some b, some c, some d] =>
    if 255 < a ∨ 255 < b ∨ 255 < c ∨ 255 < d then some unusable else octetRules a b
  | _ => some unusable

/-- `\d+`. -/
def isDigits (text : Text) : Bool := text ≠ [] && text.all Char.isDigit

/-- `/^::ffff:(\d+\.\d+\.\d+\.\d+)$/`. -/
def mapped (value : Text) : Option Text :=
  if mappedStart.isPrefixOf value then
    match split '.' (value.drop 7) with
    | [a, b, c, d] =>
      if isDigits a ∧ isDigits b ∧ isDigits c ∧ isDigits d then some (value.drop 7) else none
    | _ => none
  else none

/-- `/^::ffff:([0-9a-f]{1,4}):([0-9a-f]{1,4})$/`, with the values of both. -/
def mappedHex (value : Text) : Option (ℕ × ℕ) :=
  if mappedStart.isPrefixOf value then
    match split ':' (value.drop 7) with
    | [high, low] =>
      match group high, group low with
      | some high, some low => some (high, low)
      | _, _ => none
    | _ => none
  else none

/-- `[high >> 8, high & 255, low >> 8, low & 255].join(".")`. -/
def joined (high low : ℕ) : Text :=
  Nat.toDigits 10 (high / 256) ++ '.' :: (Nat.toDigits 10 (high % 256) ++
    '.' :: (Nat.toDigits 10 (low / 256) ++ '.' :: Nat.toDigits 10 (low % 256)))

/-- `/^fe[89ab]/`. -/
def startsLinkLocal : Text → Bool
  | 'f' :: 'e' :: c :: _ => ['8', '9', 'a', 'b'].contains c
  | _ => false

/-- `/^f[cd]/`. -/
def startsPrivate : Text → Bool
  | 'f' :: c :: _ => c = 'c' || c = 'd'
  | _ => false

/-- `ipv6Rules`. -/
def ipv6Rules (address : Text) : Option String :=
  let value := bodyOf address
  match mapped value with
  | some dotted => ipv4Rules dotted
  | none =>
    match mappedHex value with
    | some (high, low) => ipv4Rules (joined high low)
    | none =>
      if value = "::1".toList then some loopback
      else if value = "::".toList then some unusable
      else if startsLinkLocal value then some metadata
      else if startsPrivate value then some privateAddress
      else none

/-- `refusalFor`. -/
def refusalFor (address : Text) : Option String :=
  if isIP address = 6 then ipv6Rules address else ipv4Rules address

/-! ## The guard -/

/-- The resolver. -/
structure Resolver where
  /-- The addresses of `lookup(host, \x7b all: true \x7d)`; `none` is an exception. -/
  lookup : Text → Option (List Text)
  isAddress : ∀ host addresses, lookup host = some addresses →
    ∀ address ∈ addresses, isIP address ≠ 0
  /-- `text.toLowerCase()`. -/
  lowerCase : Text → Text

/-- `privateHostsAllowed` in an environment. -/
def privateHostsAllowed (setting : Option String) : Bool := setting = some "true"

/-- `text.replace(/^\[|\]$/g, "")`. -/
def withoutBrackets (text : Text) : Text :=
  let text := if text.head? = some '[' then text.tail else text
  if text.getLast? = some ']' then text.dropLast else text

variable (resolver : Resolver) (setting : Option String)

/-- `resolveAll`; the error is the text of a `HostNotAllowed`. -/
def resolveAll (host : Text) : Except String (List Text) :=
  if isIP host ≠ 0 then .ok [host]
  else
    match resolver.lookup host with
    | none | some [] =>
      .error ("Host “" ++ String.ofList host ++ "” could not be resolved from this deployment.")
    | some addresses => .ok addresses

/-- `refusal.includes("private")`. -/
def isPrivateRefusal (refusal : String) : Bool := contains "private" refusal

/-- What is said of a refusal that a setting lifts. -/
def hint : String := " Set AI_PROVIDER_ALLOW_PRIVATE_HOSTS=true to reach a gateway on this network."

/-- One round of the loop. -/
def checkAddress (label : String) (host address : Text) : Except String PUnit :=
  match refusalFor address with
  | none => .ok ()
  | some refusal =>
    if isPrivateRefusal refusal && privateHostsAllowed setting then .ok ()
    else .error (label ++ " “" ++ String.ofList host ++ "” is not allowed: " ++ refusal ++ "." ++
      if isPrivateRefusal refusal then hint else "")

/-- `cleanHost`. -/
def cleanHost (host : Text) : Text :=
  withoutBrackets (resolver.lowerCase (trim (String.ofList host)).toList)

/-- `assertHostAllowed`. -/
def assertHostAllowed (host : Text) (label : String) : Except String PUnit :=
  if cleanHost resolver host = [] then .error (label ++ " cannot be empty")
  else
    match resolveAll resolver (cleanHost resolver host) with
    | .error message => .error message
    | .ok addresses => addresses.forM (checkAddress setting label (cleanHost resolver host))

def invalidUrl : String := "Base URL must be a valid http(s) URL"

/-- The host that a URL is fetched from, without brackets; `none` is refused. -/
def urlHost (hosts : HostParser) (url : Text) : Option Text :=
  match Web.parse hosts url none with
  | none => none
  | some parsed =>
    if parsed.scheme = http ∨ parsed.scheme = https then
      some (withoutBrackets (parsed.host.getD []))
    else none

/-- `assertUrlHostAllowed`. -/
def assertUrlHostAllowed (hosts : HostParser) (url : Text) : Except String PUnit :=
  match urlHost hosts url with
  | none => .error invalidUrl
  | some host => assertHostAllowed resolver setting host "Base URL"

/-! ## What addresses stand for -/

inductive Place
  | v4 (address : Octets)
  | v6 (groups : List ℕ)

/-- The address that a text stands for. -/
def placeOf (text : Text) : Option Place :=
  match parse4 text with
  | some address => some (.v4 address)
  | none => (parse6 text).map .v6

/-- The octets of two groups. -/
def octetsOf (high low : ℕ) : Octets := ⟨high / 256, high % 256, low / 256, low % 256⟩

/-- The IPv4 address that is mapped to an IPv6 address or compatible with it. -/
def embedded : List ℕ → Option Octets
  | [0, 0, 0, 0, 0, 0xffff, high, low] => some (octetsOf high low)
  | [0, 0, 0, 0, 0, 0, high, low] => if high = 0 ∧ low ≤ 1 then none else some (octetsOf high low)
  | _ => none

namespace Place

def octets : Place → Option Octets
  | v4 address => some address
  | v6 groups => embedded groups

/-- The first group of an IPv6 address lies between two bounds. -/
def Between (least most : ℕ) (place : Place) : Prop :=
  ∃ group rest, place = v6 (group :: rest) ∧ least ≤ group ∧ group ≤ most

def IsLoopback (place : Place) : Prop :=
  (∃ address, place.octets = some address ∧ address.a = 127) ∨ place = v6 [0, 0, 0, 0, 0, 0, 0, 1]

def IsUnspecified (place : Place) : Prop :=
  place.octets = some ⟨0, 0, 0, 0⟩ ∨ place = v6 [0, 0, 0, 0, 0, 0, 0, 0]

def IsLinkLocal (place : Place) : Prop :=
  (∃ address, place.octets = some address ∧ address.a = 169 ∧ address.b = 254) ∨
    place.Between 0xfe80 0xfebf

/-- A private network, or one of a carrier. -/
def IsPrivate (place : Place) : Prop :=
  (∃ address, place.octets = some address ∧ (address.a = 10 ∨
    address.a = 172 ∧ 16 ≤ address.b ∧ address.b ≤ 31 ∨ address.a = 192 ∧ address.b = 168 ∨
    address.a = 100 ∧ 64 ≤ address.b ∧ address.b ≤ 127)) ∨ place.Between 0xfc00 0xfdff

/-- The address is none that the guard is there to refuse. -/
structure Safe (allowed : Bool) (place : Place) : Prop where
  loopback : ¬ place.IsLoopback
  unspecified : ¬ place.IsUnspecified
  linkLocal : ¬ place.IsLinkLocal
  isPrivate : place.IsPrivate → allowed = true

end Place

/-- The guard accepts a host only if none of its addresses is to be refused. -/
def Sound (host : Text) (label : String) : Prop :=
  assertHostAllowed resolver setting host label = .ok () →
    ∀ addresses, resolveAll resolver (cleanHost resolver host) = .ok addresses →
      ∀ address ∈ addresses, ∀ place, placeOf address = some place →
        place.Safe (privateHostsAllowed setting)

/-- The guard accepts a URL only if none of the addresses of its host is to be refused. -/
def SoundUrl (hosts : HostParser) (url : Text) : Prop :=
  ∀ host, urlHost hosts url = some host → Sound resolver setting host "Base URL"

/-! ## What the guard tells -/

/-- An IPv6 address in one of the spellings that are looked for. -/
def Told (value : Text) : Prop :=
  (mapped value).isSome ∨ (mappedHex value).isSome ∨ value = "::1".toList ∨ value = "::".toList

/-- The text is another spelling of an IPv6 address that is looked for, or stands for an IPv4
address that is to be refused without being mapped. -/
def Alias (text : Text) : Prop :=
  ¬ Told (bodyOf text) ∧ ∃ groups, placeOf text = some (.v6 groups) ∧
    (groups = [0, 0, 0, 0, 0, 0, 0, 1] ∨ groups = [0, 0, 0, 0, 0, 0, 0, 0] ∨
      ∃ address, embedded groups = some address ∧
        ¬ (Place.v4 address).Safe (privateHostsAllowed setting))

/-- An address of the host is refused, or none is an alias. -/
def Covered (host : Text) : Prop :=
  cleanHost resolver host ≠ [] → ∀ addresses, resolveAll resolver (cleanHost resolver host) = .ok addresses →
    (∃ address ∈ addresses, ∃ refusal, refusalFor address = some refusal ∧
      (isPrivateRefusal refusal && privateHostsAllowed setting) = false) ∨
    ∀ address ∈ addresses, ¬ Alias setting address

/-! ## IPv4 addresses -/

variable {resolver : Resolver} {setting : Option String} {allowed : Bool} {text value : Text}
  {address : Octets} {groups : List ℕ} {place : Place}

/-- The refusal, if there is one, is lifted by the setting. -/
def Lifted (allowed : Bool) (refusal : Option String) : Prop :=
  ∀ reason, refusal = some reason → (isPrivateRefusal reason && allowed) = true

theorem lifted_none : Lifted allowed none := nofun

theorem lifted_some {reason : String} :
    Lifted allowed (some reason) ↔ isPrivateRefusal reason = true ∧ allowed = true := by
  rw [← Bool.and_eq_true]
  exact ⟨fun hlifted => hlifted reason rfl, fun h other hother => Option.some.inj hother ▸ h⟩

theorem not_lifted {reason : String} (hreason : isPrivateRefusal reason = false) :
    ¬ Lifted allowed (some reason) := by
  rw [lifted_some, hreason]
  exact fun h => Bool.false_ne_true h.1

theorem loopback_not_private : isPrivateRefusal loopback = false := by decide +kernel
theorem unusable_not_private : isPrivateRefusal unusable = false := by decide +kernel
theorem metadata_not_private : isPrivateRefusal metadata = false := by decide +kernel
/-- What the rules about octets let through. -/
structure Passes (allowed : Bool) (a b : ℕ) : Prop where
  loopback : a ≠ 127
  zero : a ≠ 0
  linkLocal : ¬ (a = 169 ∧ b = 254)
  isPrivate : (a = 10 ∨ a = 172 ∧ 16 ≤ b ∧ b ≤ 31 ∨ a = 192 ∧ b = 168 ∨
    a = 100 ∧ 64 ≤ b ∧ b ≤ 127) → allowed = true

theorem passes_of_lifted {a b : ℕ} (hlifted : Lifted allowed (octetRules a b)) :
    Passes allowed a b := by
  unfold octetRules at hlifted
  split at hlifted
  · exact absurd hlifted (not_lifted loopback_not_private)
  next hloopback =>
    split at hlifted
    · exact absurd hlifted (not_lifted unusable_not_private)
    next hzero =>
      split at hlifted
      · exact absurd hlifted (not_lifted metadata_not_private)
      next hlinkLocal =>
        refine ⟨hloopback, hzero, hlinkLocal, fun hprivate => ?_⟩
        split at hlifted
        · exact (lifted_some.mp hlifted).2
        · split at hlifted
          · exact (lifted_some.mp hlifted).2
          · split at hlifted
            · exact (lifted_some.mp hlifted).2
            · split at hlifted
              · exact (lifted_some.mp hlifted).2
              · omega

/-- An address whose octets pass is safe, if its groups are none that are to be refused. -/
theorem safe_of_passes (hoctets : place.octets = some address)
    (hpasses : Passes allowed address.a address.b)
    (hgroups : ∀ groups, place = .v6 groups → groups ≠ [0, 0, 0, 0, 0, 0, 0, 1] ∧
      groups ≠ [0, 0, 0, 0, 0, 0, 0, 0] ∧ groups.head? = some 0) : place.Safe allowed := by
  have hbetween {least most : ℕ} (hleast : 0 < least) : ¬ place.Between least most := by
    rintro ⟨group, rest, hplace, hlow, -⟩
    have hzero := Option.some.inj (hgroups _ hplace).2.2
    omega
  have hsame {other : Octets} (hother : place.octets = some other) : other = address :=
    Option.some.inj (hother.symm.trans hoctets)
  refine ⟨?_, ?_, ?_, ?_⟩
  · rintro (⟨other, hother, ha⟩ | hplace)
    · exact hpasses.loopback (hsame hother ▸ ha)
    · exact (hgroups _ hplace).1 rfl
  · rintro (hother | hplace)
    · exact hpasses.zero (hsame hother ▸ rfl)
    · exact (hgroups _ hplace).2.1 rfl
  · rintro (⟨other, hother, hab⟩ | hplace)
    · exact hpasses.linkLocal (hsame hother ▸ hab)
    · exact hbetween (by decide) hplace
  · rintro (⟨other, hother, hab⟩ | hplace)
    · exact hpasses.isPrivate (hsame hother ▸ hab)
    · exact absurd hplace (hbetween (by decide))

theorem octet_eq_some {part : Text} {value : ℕ} (hoctet : octet part = some value) :
    numberOf part = some value ∧ value ≤ 255 ∧ isDigits part = true := by
  unfold octet at hoctet
  split at hoctet
  next hpart =>
    obtain ⟨hne, hdigits, -, -, hsmall⟩ := hpart
    cases hoctet
    refine ⟨if_pos hdigits, hsmall, ?_⟩
    simp [isDigits, hne, hdigits]
  · cases hoctet

/-- The octets of an IPv4 address are told. -/
theorem ipv4Rules_of_parse4 (hparse : parse4 text = some address) :
    ipv4Rules text = octetRules address.a address.b ∧ address.a ≤ 255 ∧ address.b ≤ 255 ∧
      address.c ≤ 255 ∧ address.d ≤ 255 := by
  unfold parse4 at hparse
  split at hparse
  next a b c d hsplit =>
    split at hparse
    next a' b' c' d' ha hb hc hd =>
      cases hparse
      have ha' := octet_eq_some ha
      have hb' := octet_eq_some hb
      have hc' := octet_eq_some hc
      have hd' := octet_eq_some hd
      refine ⟨?_, ha'.2.1, hb'.2.1, hc'.2.1, hd'.2.1⟩
      rw [ipv4Rules, hsplit]
      simp only [List.map_cons, List.map_nil, ha'.1, hb'.1, hc'.1, hd'.1]
      rw [if_neg]
      omega
    · cases hparse
  · cases hparse

theorem safe_v4 (hparse : parse4 text = some address)
    (hlifted : Lifted allowed (ipv4Rules text)) : (Place.v4 address).Safe allowed := by
  rw [(ipv4Rules_of_parse4 hparse).1] at hlifted
  exact safe_of_passes rfl (passes_of_lifted hlifted) nofun

/-! ## Mapped addresses -/

theorem numberOf_toDigits (number : ℕ) : numberOf (Nat.toDigits 10 number) = some number := by
  have hdigits : (Nat.toDigits 10 number).all Char.isDigit = true := List.all_eq_true.mpr
    fun c hc => Nat.isDigit_of_mem_toDigits (by decide) (by decide) hc
  rw [numberOf, if_pos hdigits, decimal, Nat.ofDigitChars_ten_toDigits]

theorem ipv4Rules_joined {high low : ℕ} (hhigh : high < 0x10000) (hlow : low < 0x10000) :
    ipv4Rules (joined high low) = octetRules (high / 256) (high % 256) := by
  have hplain (number : ℕ) : '.' ∉ Nat.toDigits 10 number := fun hdot =>
    absurd (Nat.isDigit_of_mem_toDigits (by decide) (by decide) hdot) (by decide)
  rw [ipv4Rules, joined, split_append (hplain _), split_append (hplain _), split_append (hplain _),
    split_of_not_mem (hplain _)]
  simp only [List.map_cons, List.map_nil, numberOf_toDigits]
  rw [if_neg]
  omega

theorem mapped_eq_some {dotted : Text} (hmapped : mapped value = some dotted) :
    value = mappedStart ++ dotted ∧ ':' ∉ dotted ∧ group dotted = none := by
  unfold mapped at hmapped
  split at hmapped
  next hstart =>
    split at hmapped
    next a b c d hsplit =>
      split at hmapped
      next hdigits =>
        obtain ⟨rest, rfl⟩ := List.isPrefixOf_iff_prefix.mp hstart
        have hdrop : (mappedStart ++ rest).drop 7 = rest := rfl
        rw [hdrop] at hsplit hmapped
        cases hmapped
        refine ⟨rfl, fun hcolon => ?_, ?_⟩
        · obtain ⟨piece, hpiece, hin⟩ := mem_split hcolon (show ':' ≠ '.' by decide)
          rw [hsplit] at hpiece
          have hall : ∀ piece ∈ [a, b, c, d], isDigits piece = true := by
            simpa using hdigits
          have hpiece' := (Bool.and_eq_true_iff.mp (hall piece hpiece)).2
          exact absurd (List.all_eq_true.mp hpiece' _ hin) (by decide)
        · cases hgroup : group dotted with
          | none => rfl
          | some other =>
            have hdot : '.' ∉ dotted := not_mem_of_group hgroup (by decide)
            rw [split_of_not_mem hdot] at hsplit
            cases hsplit
      · cases hmapped
    · cases hmapped
  · cases hmapped

theorem mappedHex_eq_some {high low : ℕ} (hmapped : mappedHex value = some (high, low)) :
    high < 0x10000 ∧ low < 0x10000 ∧ bodyGroups value = some (mappedGroups high low) := by
  unfold mappedHex at hmapped
  split at hmapped
  next hstart =>
    split at hmapped
    next first second hsplit =>
      split at hmapped
      next x y hx hy =>
        cases hmapped
        refine ⟨group_lt hx, group_lt hy, ?_⟩
        obtain ⟨rest, rfl⟩ := List.isPrefixOf_iff_prefix.mp hstart
        have hdrop : (mappedStart ++ rest).drop 7 = rest := rfl
        rw [hdrop] at hsplit
        have hcolon : ':' ∈ rest := by
          by_contra hnone
          rw [split_of_not_mem hnone] at hsplit
          cases hsplit
        obtain ⟨before, behind, rfl, -, hcut⟩ := exists_split_of_mem hcolon
        rw [hsplit] at hcut
        obtain ⟨rfl, hlast⟩ := List.cons.inj hcut
        have hbehind : behind = second := by
          by_cases hmore : ':' ∈ behind
          · obtain ⟨_, others, -, -, hothers⟩ := exists_split_of_mem hmore
            rw [hothers] at hlast
            exact absurd (List.cons.inj hlast).2.symm split_ne_nil
          · rw [split_of_not_mem hmore] at hlast
            exact (List.cons.inj hlast).1.symm
        rw [hbehind]
        exact bodyGroups_mapped_groups hx hy (not_mem_of_group hx (by decide))
          (not_mem_of_group hy (by decide))
      · cases hmapped
    · cases hmapped
  · cases hmapped

theorem octets_mappedGroups (high low : ℕ) :
    (Place.v6 (mappedGroups high low)).octets = some (octetsOf high low) := rfl

/-- A mapped address is safe if its octets pass. -/
theorem safe_of_mappedGroups {high low : ℕ}
    (hpasses : Passes allowed (high / 256) (high % 256)) :
    (Place.v6 (mappedGroups high low)).Safe allowed := by
  refine safe_of_passes (octets_mappedGroups high low) hpasses fun groups hgroups => ?_
  cases hgroups
  exact ⟨by simp [mappedGroups], by simp [mappedGroups], rfl⟩

theorem safe_of_mapped {dotted : Text} (hmapped : mapped value = some dotted)
    (hbody : bodyGroups value = some groups) (hlifted : Lifted allowed (ipv4Rules dotted)) :
    (Place.v6 groups).Safe allowed := by
  obtain ⟨rfl, hcolon, hgroup⟩ := mapped_eq_some hmapped
  rw [bodyGroups_mapped_octets hcolon hgroup] at hbody
  obtain ⟨address, hparse, rfl⟩ := Option.map_eq_some_iff.mp hbody
  obtain ⟨hrules, -, hb, -, -⟩ := ipv4Rules_of_parse4 hparse
  have hpasses := passes_of_lifted (hrules ▸ hlifted)
  apply safe_of_mappedGroups
  rwa [show (256 * address.a + address.b) / 256 = address.a by omega,
    show (256 * address.a + address.b) % 256 = address.b by omega]

theorem safe_of_mappedHex {high low : ℕ} (hmapped : mappedHex value = some (high, low))
    (hbody : bodyGroups value = some groups)
    (hlifted : Lifted allowed (ipv4Rules (joined high low))) : (Place.v6 groups).Safe allowed := by
  obtain ⟨hhigh, hlow, hgroups⟩ := mappedHex_eq_some hmapped
  obtain rfl := Option.some.inj (hgroups.symm.trans hbody)
  rw [ipv4Rules_joined hhigh hlow] at hlifted
  exact safe_of_mappedGroups (passes_of_lifted hlifted)

/-! ## The other addresses -/

/-- A link-local address begins as the pattern says. -/
theorem startsLinkLocal_of_between (hbody : bodyGroups value = some groups)
    (hplace : (Place.v6 groups).Between 0xfe80 0xfebf) : startsLinkLocal value = true := by
  have hthird : ∀ digit < 12, 8 ≤ digit →
      ['8', '9', 'a', 'b'].contains (Nat.digitChar digit) = true := by decide
  obtain ⟨group, rest, hgroups, hleast, hmost⟩ := hplace
  cases hgroups
  obtain ⟨more, rfl⟩ := exists_rest_of_bodyGroups hbody (by omega)
  rw [show group / 0x1000 = 15 by omega, show group / 0x100 % 16 = 14 by omega]
  exact hthird _ (by omega) (by omega)

/-- A private address begins as the pattern says. -/
theorem startsPrivate_of_between (hbody : bodyGroups value = some groups)
    (hplace : (Place.v6 groups).Between 0xfc00 0xfdff) :
    startsPrivate value = true ∧ startsLinkLocal value = false := by
  obtain ⟨group, rest, hgroups, hleast, hmost⟩ := hplace
  cases hgroups
  obtain ⟨more, rfl⟩ := exists_rest_of_bodyGroups hbody (by omega)
  rw [show group / 0x1000 = 15 by omega]
  have hsecond : group / 0x100 % 16 = 12 ∨ group / 0x100 % 16 = 13 := by omega
  rcases hsecond with hsecond | hsecond
  · rw [hsecond]
    exact ⟨rfl, rfl⟩
  · rw [hsecond]
    exact ⟨rfl, rfl⟩

/-- An address in none of the spellings that are looked for is safe, unless it is an alias. -/
theorem safe_of_not_told (htold : ¬ Told (bodyOf text)) (hplace : placeOf text = some (.v6 groups))
    (hbody : bodyGroups (bodyOf text) = some groups) (halias : ¬ Alias setting text)
    (hlifted : Lifted (privateHostsAllowed setting) (ipv6Rules text)) :
    (Place.v6 groups).Safe (privateHostsAllowed setting) := by
  have hnone : mapped (bodyOf text) = none :=
    Option.not_isSome_iff_eq_none.mp fun h => htold (.inl h)
  have hnone' : mappedHex (bodyOf text) = none :=
    Option.not_isSome_iff_eq_none.mp fun h => htold (.inr (.inl h))
  rw [ipv6Rules, hnone, hnone'] at hlifted
  dsimp only at hlifted
  rw [if_neg fun h => htold (.inr (.inr (.inl h))),
    if_neg fun h => htold (.inr (.inr (.inr h)))] at hlifted
  have hsafe {address : Octets} (hembedded : embedded groups = some address) :
      (Place.v4 address).Safe (privateHostsAllowed setting) := by
    by_contra hunsafe
    exact halias ⟨htold, groups, hplace, .inr (.inr ⟨address, hembedded, hunsafe⟩)⟩
  refine ⟨?_, ?_, ?_, ?_⟩
  · rintro (⟨address, hoctets, ha⟩ | hgroups)
    · exact (hsafe hoctets).loopback (.inl ⟨address, rfl, ha⟩)
    · exact halias ⟨htold, groups, hplace, .inl (Place.v6.inj hgroups)⟩
  · rintro (hoctets | hgroups)
    · exact (hsafe hoctets).unspecified (.inl rfl)
    · exact halias ⟨htold, groups, hplace, .inr (.inl (Place.v6.inj hgroups))⟩
  · rintro (⟨address, hoctets, hab⟩ | hbetween)
    · exact (hsafe hoctets).linkLocal (.inl ⟨address, rfl, hab⟩)
    · rw [if_pos (startsLinkLocal_of_between hbody hbetween)] at hlifted
      exact not_lifted metadata_not_private hlifted
  · rintro (⟨address, hoctets, hab⟩ | hbetween)
    · exact (hsafe hoctets).isPrivate (.inl ⟨address, rfl, hab⟩)
    · obtain ⟨hstarts, hlocal⟩ := startsPrivate_of_between hbody hbetween
      rw [if_neg (by rw [hlocal]; exact Bool.false_ne_true), if_pos hstarts] at hlifted
      exact (lifted_some.mp hlifted).2

/-- An address in one of the spellings that are looked for is safe if it is let through. -/
theorem safe_of_told (htold : Told (bodyOf text)) (hbody : bodyGroups (bodyOf text) = some groups)
    (hlifted : Lifted allowed (ipv6Rules text)) : (Place.v6 groups).Safe allowed := by
  cases hmapped : mapped (bodyOf text) with
  | some dotted =>
    rw [ipv6Rules, hmapped] at hlifted
    exact safe_of_mapped hmapped hbody hlifted
  | none =>
    rw [ipv6Rules, hmapped] at hlifted
    cases hhex : mappedHex (bodyOf text) with
    | some groups' =>
      rw [hhex] at hlifted
      exact safe_of_mappedHex hhex hbody hlifted
    | none =>
      rw [hhex] at hlifted
      dsimp only at hlifted
      rcases htold with hsome | hsome | hloopback | hunspecified
      · rw [hmapped] at hsome
        cases hsome
      · rw [hhex] at hsome
        cases hsome
      · rw [if_pos hloopback] at hlifted
        exact absurd hlifted (not_lifted loopback_not_private)
      · rw [hunspecified, if_neg (by decide), if_pos rfl] at hlifted
        exact absurd hlifted (not_lifted unusable_not_private)

theorem bodyGroups_of_parse6 (hparse : parse6 text = some groups) :
    bodyGroups (bodyOf text) = some groups := by
  unfold parse6 at hparse
  split at hparse
  · split at hparse
    · exact hparse
    · cases hparse
  · exact hparse

/-- An address that is let through is safe, unless it is an alias. -/
theorem safe_of_lifted (hplace : placeOf text = some place)
    (hlifted : Lifted (privateHostsAllowed setting) (refusalFor text))
    (halias : ¬ Alias setting text) : place.Safe (privateHostsAllowed setting) := by
  have hwhole := hplace
  unfold placeOf at hplace
  split at hplace
  next address hparse =>
    cases hplace
    have hip : isIP text = 4 := by
      rw [isIP, hparse]
      rfl
    rw [refusalFor, hip, if_neg (by decide)] at hlifted
    exact safe_v4 hparse hlifted
  next hparse =>
    obtain ⟨groups, hgroups, rfl⟩ := Option.map_eq_some_iff.mp hplace
    have hip : isIP text = 6 := by
      rw [isIP, hparse, hgroups]
      rfl
    rw [refusalFor, hip, if_pos rfl] at hlifted
    have hbody := bodyGroups_of_parse6 hgroups
    by_cases htold : Told (bodyOf text)
    · exact safe_of_told htold hbody hlifted
    · exact safe_of_not_told htold hwhole hbody halias hlifted

/-- An alias is not safe. -/
theorem not_safe_of_alias (halias : Alias setting text) :
    ∃ place, placeOf text = some place ∧ ¬ place.Safe (privateHostsAllowed setting) := by
  obtain ⟨-, groups, hplace, hgroups⟩ := halias
  refine ⟨_, hplace, fun hsafe => ?_⟩
  rcases hgroups with rfl | rfl | ⟨address, hembedded, hunsafe⟩
  · exact hsafe.loopback (.inr rfl)
  · exact hsafe.unspecified (.inr rfl)
  · have hoctets : (Place.v6 groups).octets = some address := hembedded
    have hfour : (Place.v4 address).octets = some address := rfl
    refine hunsafe ⟨?_, ?_, ?_, ?_⟩
    · rintro (h | h)
      · exact hsafe.loopback (.inl (by rwa [hoctets]))
      · cases h
    · rintro (h | h)
      · exact hsafe.unspecified (.inl (by rwa [hoctets]))
      · cases h
    · rintro (h | ⟨_, _, h, -⟩)
      · exact hsafe.linkLocal (.inl (by rwa [hoctets]))
      · cases h
    · rintro (h | ⟨_, _, h, -⟩)
      · exact hsafe.isPrivate (.inl (by rwa [hoctets]))
      · cases h

/-! ## The whole check -/

theorem checkAddress_eq_ok {label : String} {host address : Text} :
    checkAddress setting label host address = .ok () ↔
      Lifted (privateHostsAllowed setting) (refusalFor address) := by
  unfold checkAddress
  cases hrefusal : refusalFor address with
  | none => exact iff_of_true rfl lifted_none
  | some refusal =>
    cases hlifted : isPrivateRefusal refusal && privateHostsAllowed setting with
    | true =>
      refine iff_of_true (if_pos hlifted) fun reason hreason => ?_
      rw [← Option.some.inj hreason, hlifted]
    | false =>
      apply iff_of_false
      · dsimp only
        rw [hlifted, if_neg Bool.false_ne_true]
        nofun
      · intro h
        rw [h refusal rfl] at hlifted
        cases hlifted

/-- A host is accepted when every refusal of its addresses is lifted. -/
theorem assertHostAllowed_eq_ok {host : Text} {label : String} :
    assertHostAllowed resolver setting host label = .ok () ↔ cleanHost resolver host ≠ [] ∧
      ∃ addresses, resolveAll resolver (cleanHost resolver host) = .ok addresses ∧
        ∀ address ∈ addresses, Lifted (privateHostsAllowed setting) (refusalFor address) := by
  unfold assertHostAllowed
  by_cases hempty : cleanHost resolver host = []
  · rw [if_pos hempty]
    exact iff_of_false nofun fun h => h.1 hempty
  · rw [if_neg hempty]
    cases hresolve : resolveAll resolver (cleanHost resolver host) with
    | error message => exact iff_of_false nofun fun ⟨_, _, h, _⟩ => nomatch h
    | ok addresses =>
      dsimp only
      rw [forM_eq_ok]
      simp only [checkAddress_eq_ok]
      exact ⟨fun h => ⟨hempty, addresses, rfl, h⟩, fun ⟨_, _, hsame, h⟩ =>
        Except.ok.inj hsame ▸ h⟩

/-- The guard is sound for a host exactly when it covers it. -/
theorem sound_iff (resolver : Resolver) (setting : Option String) (host : Text) (label : String) :
    Sound resolver setting host label ↔ Covered resolver setting host := by
  apply Iff.intro
  · intro hsound hhost addresses hresolve
    by_cases hlifted : ∀ address ∈ addresses,
        Lifted (privateHostsAllowed setting) (refusalFor address)
    · refine .inr fun address haddress halias => ?_
      obtain ⟨place, hplace, hunsafe⟩ := not_safe_of_alias halias
      have haccepted : assertHostAllowed resolver setting host label = .ok () :=
        assertHostAllowed_eq_ok.mpr ⟨hhost, addresses, hresolve, hlifted⟩
      exact hunsafe (hsound haccepted addresses hresolve address haddress place hplace)
    · simp only [Lifted, not_forall] at hlifted
      obtain ⟨address, haddress, refusal, hrefusal, hstays⟩ := hlifted
      exact .inl ⟨address, haddress, refusal, hrefusal, Bool.eq_false_iff.mpr hstays⟩
  · intro hcovered haccepted addresses hresolve address haddress place hplace
    obtain ⟨hhost, others, hothers, hlifted⟩ := assertHostAllowed_eq_ok.mp haccepted
    obtain rfl := Except.ok.inj (hothers.symm.trans hresolve)
    rcases hcovered hhost others hresolve with ⟨other, hother, refusal, hrefusal, hstays⟩ | hnone
    · rw [hlifted other hother refusal hrefusal] at hstays
      cases hstays
    · exact safe_of_lifted hplace (hlifted address haddress) (hnone address haddress)

/-- **The guard is sound** for a host, and for a URL, exactly when an address of the host is
refused or none is spelled as the rules do not expect it. -/
theorem guard_sound_iff (resolver : Resolver) (setting : Option String) (hosts : HostParser)
    (host url : Text) (label : String) :
    (Sound resolver setting host label ↔ Covered resolver setting host) ∧
      (SoundUrl resolver setting hosts url ↔
        ∀ host, urlHost hosts url = some host → Covered resolver setting host) :=
  ⟨sound_iff resolver setting host label,
    forall_congr' fun host => imp_congr_right fun _ => sound_iff resolver setting host "Base URL"⟩

/-! ## Loopback in full -/

/-- No name is known. -/
def noNames : Resolver where
  lookup _ := none
  isAddress := nofun
  lowerCase text := text.map Char.toLower

/-- The loopback address with all of its groups is accepted. -/
theorem not_sound_of_full_loopback :
    ¬ ∀ resolver setting host label, Sound resolver setting host label := by
  intro h
  have haccepted : assertHostAllowed noNames none "0:0:0:0:0:0:0:1".toList "Host" = .ok () := rfl
  have hsafe := h noNames none "0:0:0:0:0:0:0:1".toList "Host" haccepted
    ["0:0:0:0:0:0:0:1".toList] rfl _ List.mem_cons_self (.v6 [0, 0, 0, 0, 0, 0, 0, 1]) rfl
  exact hsafe.loopback (.inr rfl)

end DbtCraft.Server.HostGuard
