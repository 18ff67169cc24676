/-
# IP addresses

The addresses of `ipaddress` as Python 3.11 classifies them. An IPv6 address that maps an
IPv4 one is private when that one is; it is never loopback, and in no IPv4 network.
-/

import Mathlib.Algebra.Group.Nat.Defs
import Mathlib.Tactic.Common

namespace DbtCraft.Python

/-- An address; an IPv6 address may have a scope. -/
inductive Address
  | v4 (value : BitVec 32)
  | v6 (value : BitVec 128) (scope : Option String)
  deriving DecidableEq

namespace Address

/-- `a.b.c.d`. -/
def ipv4 (a b c d : ℕ) : BitVec 32 := .ofNat 32 (((a * 256 + b) * 256 + c) * 256 + d)

/-- The groups of an address, with zeros after them. -/
def ipv6 (groups : List ℕ) : BitVec 128 :=
  .ofNat 128 (groups.foldl (fun value group => value * 65536 + group) 0 *
    65536 ^ (8 - groups.length))

/-- `value in ip_network(f"{base}/{length}")`. -/
def inNetwork {w : ℕ} (value base : BitVec w) (length : ℕ) : Bool :=
  value >>> (w - length) = base >>> (w - length)

/-- `::ffff:a.b.c.d`. -/
def mapped (value : BitVec 32) : BitVec 128 := .ofNat 128 (0xffff * 2 ^ 32 + value.toNat)

/-- `ipv4_mapped`. -/
def ipv4Mapped (value : BitVec 128) : Option (BitVec 32) :=
  if value >>> 32 = 0xffff then some (value.setWidth 32) else none

theorem ipv4Mapped_mapped (value : BitVec 32) : ipv4Mapped (mapped value) = some value := by
  have hbound := value.isLt
  have hnat : (mapped value).toNat = 0xffff * 2 ^ 32 + value.toNat := by
    rw [mapped, BitVec.toNat_ofNat, Nat.mod_eq_of_lt (by omega)]
  have hhigh : mapped value >>> 32 = 0xffff := by
    apply BitVec.eq_of_toNat_eq
    rw [BitVec.toNat_ushiftRight, hnat, Nat.shiftRight_eq_div_pow]
    show (0xffff * 2 ^ 32 + value.toNat) / 2 ^ 32 = 0xffff
    omega
  have hlow : (mapped value).setWidth 32 = value := by
    apply BitVec.eq_of_toNat_eq
    rw [BitVec.toNat_setWidth, hnat]
    omega
  rw [ipv4Mapped, if_pos hhigh, hlow]

/-- `IPv4Address._constants._private_networks`. -/
def privateNetworks4 : List (BitVec 32 × ℕ) :=
  [(ipv4 0 0 0 0, 8), (ipv4 10 0 0 0, 8), (ipv4 127 0 0 0, 8), (ipv4 169 254 0 0, 16),
    (ipv4 172 16 0 0, 12), (ipv4 192 0 0 0, 24), (ipv4 192 0 0 170, 31), (ipv4 192 0 2 0, 24),
    (ipv4 192 168 0 0, 16), (ipv4 198 18 0 0, 15), (ipv4 198 51 100 0, 24),
    (ipv4 203 0 113 0, 24), (ipv4 240 0 0 0, 4), (ipv4 255 255 255 255, 32)]

/-- `IPv4Address._constants._private_networks_exceptions`. -/
def privateExceptions4 : List (BitVec 32 × ℕ) := [(ipv4 192 0 0 9, 32), (ipv4 192 0 0 10, 32)]

/-- `IPv6Address._constants._private_networks`. -/
def privateNetworks6 : List (BitVec 128 × ℕ) :=
  [(1, 128), (0, 128), (ipv6 [0, 0, 0, 0, 0, 0xffff], 96), (ipv6 [0x64, 0xff9b, 1], 48),
    (ipv6 [0x100], 64), (ipv6 [0x2001], 23), (ipv6 [0x2001, 0xdb8], 32), (ipv6 [0x2002], 16),
    (ipv6 [0xfc00], 7), (ipv6 [0xfe80], 10)]

/-- `IPv6Address._constants._private_networks_exceptions`. -/
def privateExceptions6 : List (BitVec 128 × ℕ) :=
  [(ipv6 [0x2001, 1, 0, 0, 0, 0, 0, 1], 128), (ipv6 [0x2001, 1, 0, 0, 0, 0, 0, 2], 128),
    (ipv6 [0x2001, 3], 32), (ipv6 [0x2001, 4, 0x112], 48), (ipv6 [0x2001, 0x20], 28),
    (ipv6 [0x2001, 0x30], 28)]

def inAny {w : ℕ} (networks : List (BitVec w × ℕ)) (value : BitVec w) : Bool :=
  networks.any fun network => inNetwork value network.1 network.2

def isPrivate4 (value : BitVec 32) : Bool :=
  inAny privateNetworks4 value && !inAny privateExceptions4 value

/-- `is_private`. -/
def isPrivate : Address → Bool
  | v4 value => isPrivate4 value
  | v6 value _ =>
    match ipv4Mapped value with
    | some value => isPrivate4 value
    | none => inAny privateNetworks6 value && !inAny privateExceptions6 value

/-- `is_loopback`. -/
def isLoopback : Address → Bool
  | v4 value => inNetwork value (ipv4 127 0 0 0) 8
  | v6 value _ => value = 1

/-- `is_unspecified`. -/
def isUnspecified : Address → Bool
  | v4 value => value = 0
  | v6 value _ => value = 0

end Address

end DbtCraft.Python
