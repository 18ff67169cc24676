/-
# Addresses as texts

What `isIP` of `node:net` takes for an address, and the address that a text stands for: four
octets, or eight groups, some of which may be left out or be written as octets, with a zone.
-/

import DbtCraft.Python.Splitting
import DbtCraft.Python.UrlParse

namespace DbtCraft.Web.Address

open DbtCraft.Python
open DbtCraft.Python.Url (partition)

abbrev Text := List Char

/-! ## Octets -/

/-- The value of decimal digits. -/
def decimal (digits : Text) : ℕ := Nat.ofDigitChars 10 digits 0

/-- `25[0-5]|2[0-4]\d|1\d\d|[1-9]\d|\d`. -/
def octet (text : Text) : Option ℕ :=
  if text ≠ [] ∧ text.all Char.isDigit = true ∧ (text.head? = some '0' → text.length = 1) ∧
      text.length ≤ 3 ∧ decimal text ≤ 255 then
    some (decimal text)
  else none

/-- An IPv4 address. -/
structure Octets where
  a : ℕ
  b : ℕ
  c : ℕ
  d : ℕ
  deriving DecidableEq

/-- `isIPv4`, with the address. -/
def parse4 (text : Text) : Option Octets :=
  match split '.' text with
  | [a, b, c, d] =>
    match octet a, octet b, octet c, octet d with
    | some a, some b, some c, some d => some ⟨a, b, c, d⟩
    | _, _, _, _ => none
  | _ => none

/-! ## Groups -/

/-- A hexadecimal digit in lower case. -/
def digitOf (c : Char) : Option ℕ :=
  if c.isDigit then some (c.toNat - 48)
  else if 97 ≤ c.toNat ∧ c.toNat ≤ 102 then some (c.toNat - 87)
  else none

/-- The value of hexadecimal digits behind others. -/
def hexadecimal : ℕ → Text → Option ℕ
  | total, [] => some total
  | total, c :: rest =>
    match digitOf c with
    | some digit => hexadecimal (16 * total + digit) rest
    | none => none

/-- `[0-9a-f]{1,4}`. -/
def group (text : Text) : Option ℕ :=
  if text = [] ∨ 4 < text.length then none else hexadecimal 0 text

/-- Groups with colons between them; the last one may be octets. -/
def groupList (octets : Bool) : List Text → Option (List ℕ)
  | [] => some []
  | [last] =>
    match group last with
    | some value => some [value]
    | none =>
      if octets then
        (parse4 last).map fun address =>
          [256 * address.a + address.b, 256 * address.c + address.d]
      else none
  | first :: second :: rest =>
    match group first, groupList octets (second :: rest) with
    | some value, some values => some (value :: values)
    | _, _ => none

def groupsOf (octets : Bool) (text : Text) : Option (List ℕ) :=
  if text = [] then some [] else groupList octets (split ':' text)

/-- What stands before and behind the first double colon. -/
def cutGap : Text → Option (Text × Text)
  | ':' :: ':' :: rest => some ([], rest)
  | c :: rest => (cutGap rest).map fun parts => (c :: parts.1, parts.2)
  | [] => none

/-- The eight groups of an IPv6 address in lower case, without its zone. -/
def bodyGroups (text : Text) : Option (List ℕ) :=
  match cutGap text with
  | none => (groupsOf true text).filter fun groups => groups.length = 8
  | some (before, behind) =>
    match groupsOf false before, groupsOf true behind with
    | some before, some behind =>
      if before.length + behind.length ≤ 7 then
        some (before ++ List.replicate (8 - (before.length + behind.length)) 0 ++ behind)
      else none
    | _, _ => none

/-- `[0-9a-zA-Z-.:]`. -/
def isZoneChar (c : Char) : Bool := c.isAlphanum || c = '-' || c = '.' || c = ':'

/-- An address in lower case, without its zone. -/
def bodyOf (text : Text) : Text := (partition '%' (text.map Char.toLower)).1

/-- `isIPv6`, with the address. -/
def parse6 (text : Text) : Option (List ℕ) :=
  match (partition '%' text).2 with
  | some zone => if zone ≠ [] ∧ zone.all isZoneChar then bodyGroups (bodyOf text) else none
  | none => bodyGroups (bodyOf text)

/-- `isIP`. -/
def isIP (text : Text) : ℕ :=
  if (parse4 text).isSome then 4 else if (parse6 text).isSome then 6 else 0

/-! ## First groups -/

variable {text before behind : Text} {groups : List ℕ} {value : ℕ} {octets : Bool}

theorem digitOf_lt {c : Char} (hc : digitOf c = some value) : value < 16 := by
  unfold digitOf at hc
  split at hc
  next hdigit =>
    have hbounds : 48 ≤ c.toNat ∧ c.toNat ≤ 57 := by
      simpa [Char.isDigit, UInt32.le_iff_toNat_le] using hdigit
    cases hc
    omega
  · split at hc
    · cases hc
      omega
    · cases hc

theorem hexadecimal_cons {c : Char} {total : ℕ} (hread : hexadecimal total (c :: text) = some value) :
    ∃ digit, digitOf c = some digit ∧ hexadecimal (16 * total + digit) text = some value := by
  rw [hexadecimal] at hread
  split at hread
  next digit hdigit => exact ⟨digit, hdigit, hread⟩
  · cases hread

/-- Digits are worth less than a power of sixteen. -/
theorem hexadecimal_lt {total : ℕ} (hread : hexadecimal total text = some value) :
    value < 16 ^ text.length * (total + 1) := by
  induction text generalizing total with
  | nil =>
    cases hread
    simp
  | cons c text ih =>
    obtain ⟨digit, hdigit, hrest⟩ := hexadecimal_cons hread
    have hsmall := digitOf_lt hdigit
    rw [List.length_cons, Nat.pow_succ, Nat.mul_assoc]
    exact Nat.lt_of_lt_of_le (ih hrest) (Nat.mul_le_mul_left _ (by omega))

theorem group_eq_some (hgroup : group text = some value) :
    hexadecimal 0 text = some value ∧ text.length ≤ 4 := by
  unfold group at hgroup
  split at hgroup
  · cases hgroup
  next hshort => exact ⟨hgroup, Nat.not_lt.mp (not_or.mp hshort).2⟩

/-- The first of many groups, or of groups that are no octets, is written as such. -/
theorem group_of_groupList {pieces : List Text} {rest : List ℕ}
    (hlist : groupList octets pieces = some (value :: rest))
    (hmany : octets = false ∨ 1 < rest.length) :
    ∃ first, pieces.head? = some first ∧ group first = some value := by
  match pieces with
  | [] => cases hlist
  | [last] =>
    refine ⟨last, rfl, ?_⟩
    unfold groupList at hlist
    split at hlist
    next own hown =>
      cases hlist
      exact hown
    · split at hlist
      next hoctets =>
        obtain ⟨address, -, hgroups⟩ := Option.map_eq_some_iff.mp hlist
        cases hgroups
        rcases hmany with hplain | hlong
        · cases hoctets.symm.trans hplain
        · exact absurd hlong (Nat.lt_irrefl 1)
      · cases hlist
  | first :: second :: more =>
    refine ⟨first, rfl, ?_⟩
    unfold groupList at hlist
    split at hlist
    next own others hown _ =>
      cases hlist
      exact hown
    · cases hlist

theorem group_of_groupsOf {rest : List ℕ} (hgroups : groupsOf octets text = some (value :: rest))
    (hmany : octets = false ∨ 1 < rest.length) :
    ∃ first, first <+: text ∧ group first = some value := by
  unfold groupsOf at hgroups
  split at hgroups
  · cases hgroups
  · obtain ⟨first, hfirst, hgroup⟩ := group_of_groupList hgroups hmany
    cases hsplit : split ':' text with
    | nil => exact absurd hsplit split_ne_nil
    | cons piece pieces =>
      rw [hsplit] at hfirst
      cases hfirst
      exact ⟨first, (infix_of_split hsplit).1, hgroup⟩

theorem prefix_of_cutGap (hcut : cutGap text = some (before, behind)) : before <+: text := by
  induction text using cutGap.induct generalizing before with
  | case1 rest =>
    cases hcut
    exact List.nil_prefix
  | case2 c rest hgap ih =>
    rw [cutGap] at hcut
    · obtain ⟨parts, hparts, hsame⟩ := Option.map_eq_some_iff.mp hcut
      cases hsame
      exact (List.prefix_cons_inj c).mpr (ih hparts)
    · exact hgap
  | case3 => cases hcut

/-- A first group that is not zero stands at the beginning. -/
theorem group_of_bodyGroups {rest : List ℕ} (hbody : bodyGroups text = some (value :: rest))
    (hvalue : value ≠ 0) : ∃ first, first <+: text ∧ group first = some value := by
  unfold bodyGroups at hbody
  split at hbody
  · obtain ⟨hgroups, hlength⟩ := Option.filter_eq_some_iff.mp hbody
    have hlong : rest.length + 1 = 8 := of_decide_eq_true hlength
    exact group_of_groupsOf hgroups (.inr (by omega))
  next before behind hcut =>
    split at hbody
    next own others hown _ =>
      split at hbody
      next hshort =>
        cases own with
        | nil =>
          obtain ⟨count, hcount⟩ :=
            Nat.exists_eq_add_one_of_ne_zero (show 8 - ([].length + others.length) ≠ 0 by
              omega)
          rw [hcount, List.replicate_succ] at hbody
          exact absurd (List.cons.inj (Option.some.inj hbody)).1.symm hvalue
        | cons first others' =>
          cases hbody
          obtain ⟨piece, hpiece, hgroup⟩ := group_of_groupsOf hown (.inl rfl)
          exact ⟨piece, hpiece.trans (prefix_of_cutGap hcut), hgroup⟩
      · cases hbody
    · cases hbody

/-- A digit is written in one way. -/
theorem eq_digitChar {c : Char} (hc : digitOf c = some value) : c = Nat.digitChar value := by
  have hdecimal : ∀ digit < 10, Char.ofNat (digit + 48) = Nat.digitChar digit := by decide
  have hletter : ∀ digit < 16, 10 ≤ digit → Char.ofNat (digit + 87) = Nat.digitChar digit := by
    decide
  unfold digitOf at hc
  split at hc
  next hdigit =>
    have hbounds : 48 ≤ c.toNat ∧ c.toNat ≤ 57 := by
      simpa [Char.isDigit, UInt32.le_iff_toNat_le] using hdigit
    have hvalue := Option.some.inj hc
    rw [← hdecimal value (by omega), show value + 48 = c.toNat by omega, Char.ofNat_toNat]
  · split at hc
    · have hvalue := Option.some.inj hc
      rw [← hletter value (by omega) (by omega), show value + 87 = c.toNat by omega,
        Char.ofNat_toNat]
    · cases hc

theorem group_lt (hgroup : group text = some value) : value < 0x10000 := by
  obtain ⟨hread, hshort⟩ := group_eq_some hgroup
  have hsmall := hexadecimal_lt hread
  exact Nat.lt_of_lt_of_le hsmall (by simpa using Nat.pow_le_pow_right (by decide) hshort)

theorem isSome_of_hexadecimal {total : ℕ} (hread : hexadecimal total text = some value) :
    ∀ c ∈ text, (digitOf c).isSome = true := by
  induction text generalizing total with
  | nil => exact nofun
  | cons c text ih =>
    obtain ⟨digit, hdigit, hrest⟩ := hexadecimal_cons hread
    exact List.forall_mem_cons.mpr ⟨hdigit ▸ rfl, ih hrest⟩

/-- A group has hexadecimal digits only. -/
theorem not_mem_of_group {c : Char} (hgroup : group text = some value) (hc : digitOf c = none) :
    c ∉ text := by
  intro hmem
  have hdigit := isSome_of_hexadecimal (group_eq_some hgroup).1 c hmem
  rw [hc] at hdigit
  cases hdigit

/-- A group that is worth four digits is written in four digits. -/
theorem four_digits (hgroup : group text = some value) (hlarge : 0x1000 ≤ value) :
    text = [Nat.digitChar (value / 0x1000), Nat.digitChar (value / 0x100 % 16),
      Nat.digitChar (value / 16 % 16), Nat.digitChar (value % 16)] := by
  obtain ⟨hread, hshort⟩ := group_eq_some hgroup
  have hsmall := hexadecimal_lt hread
  match text with
  | [] | [c₁] | [c₁, c₂] | [c₁, c₂, c₃] =>
    simp only [List.length_cons, List.length_nil] at hsmall
    omega
  | [c₁, c₂, c₃, c₄] =>
    obtain ⟨d₁, h₁, hrest⟩ := hexadecimal_cons hread
    obtain ⟨d₂, h₂, hrest⟩ := hexadecimal_cons hrest
    obtain ⟨d₃, h₃, hrest⟩ := hexadecimal_cons hrest
    obtain ⟨d₄, h₄, hrest⟩ := hexadecimal_cons hrest
    have hvalue := Option.some.inj hrest
    have hsmall₂ := digitOf_lt h₂
    have hsmall₃ := digitOf_lt h₃
    have hsmall₄ := digitOf_lt h₄
    rw [eq_digitChar h₁, eq_digitChar h₂, eq_digitChar h₃, eq_digitChar h₄,
      show value / 0x1000 = d₁ by omega, show value / 0x100 % 16 = d₂ by omega,
      show value / 16 % 16 = d₃ by omega, show value % 16 = d₄ by omega]
  | _ :: _ :: _ :: _ :: _ :: _ =>
    simp only [List.length_cons] at hshort
    omega

/-- How an address begins whose first group is worth four digits. -/
theorem exists_rest_of_bodyGroups {rest : List ℕ} (hbody : bodyGroups text = some (value :: rest))
    (hlarge : 0x1000 ≤ value) : ∃ more, text = Nat.digitChar (value / 0x1000) ::
      Nat.digitChar (value / 0x100 % 16) :: Nat.digitChar (value / 16 % 16) :: more := by
  obtain ⟨first, ⟨more, rfl⟩, hgroup⟩ := group_of_bodyGroups hbody (by omega)
  rw [four_digits hgroup hlarge]
  exact ⟨_, rfl⟩

/-! ## Mapped addresses -/

/-- The groups of an address that IPv4 is mapped to. -/
def mappedGroups (high low : ℕ) : List ℕ := [0, 0, 0, 0, 0, 0xffff, high, low]

def mappedStart : Text := "::ffff:".toList

theorem bodyGroups_mapped (rest : Text) : bodyGroups (mappedStart ++ rest) =
    match groupList true (split ':' rest) with
    | some groups =>
      if groups.length + 1 ≤ 7 then
        some (List.replicate (8 - (groups.length + 1)) 0 ++ 0xffff :: groups)
      else none
    | none => none := by
  have hcut : cutGap (mappedStart ++ rest) = some ([], "ffff".toList ++ ':' :: rest) := rfl
  have hgroup : group "ffff".toList = some 0xffff := by decide
  have hgroups : groupsOf true ("ffff".toList ++ ':' :: rest) =
      match groupList true (split ':' rest) with
      | some groups => some (0xffff :: groups)
      | none => none := by
    rw [groupsOf, if_neg (List.append_ne_nil_of_right_ne_nil _ (List.cons_ne_nil _ _)),
      split_append (by decide)]
    cases hsplit : split ':' rest with
    | nil => exact absurd hsplit split_ne_nil
    | cons first more =>
      rw [groupList, hgroup]
      cases groupList true (first :: more) <;> rfl
  rw [bodyGroups, hcut]
  simp only [hgroups]
  rw [groupsOf, if_pos rfl]
  cases groupList true (split ':' rest) with
  | none => rfl
  | some groups =>
    simp only [List.length_nil, List.length_cons, Nat.zero_add, List.nil_append]

/-- The octets at the end of a mapped address. -/
theorem bodyGroups_mapped_octets {rest : Text} (hcolon : ':' ∉ rest) (hgroup : group rest = none) :
    bodyGroups (mappedStart ++ rest) = (parse4 rest).map fun address =>
      mappedGroups (256 * address.a + address.b) (256 * address.c + address.d) := by
  rw [bodyGroups_mapped, split_of_not_mem hcolon, groupList, hgroup]
  cases parse4 rest <;> rfl

theorem bodyGroups_mapped_groups {high low : Text} {x y : ℕ} (hhigh : group high = some x)
    (hlow : group low = some y) (hcolon : ':' ∉ high) (hcolon' : ':' ∉ low) :
    bodyGroups (mappedStart ++ (high ++ ':' :: low)) = some (mappedGroups x y) := by
  rw [bodyGroups_mapped, split_append hcolon, split_of_not_mem hcolon', groupList, groupList,
    hhigh, hlow]
  rfl

end DbtCraft.Web.Address
