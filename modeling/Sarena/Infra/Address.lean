import Mathlib.Algebra.Order.Ring.Nat

namespace Sarena

/-!
# Addresses

The address types the endpoint manager, the IPAM and the CNI plugin share: IPv4 and IPv6
addresses with the CIDR blocks they are allocated from, and Ethernet addresses.
Addresses are machine words; a CIDR block carries its prefix length in range, as
`ipnet` guarantees.
-/

/-- `std::net::Ipv4Addr`. -/
abbrev Ipv4Addr := BitVec 32

/-- `std::net::Ipv6Addr`. -/
abbrev Ipv6Addr := BitVec 128

/-- `std::net::IpAddr`. -/
inductive IpAddr
  | v4 (ip : Ipv4Addr)
  | v6 (ip : Ipv6Addr)
  deriving DecidableEq, Repr

/-- `ip_to_u128`. -/
def IpAddr.toU128 : IpAddr → Nat
  | .v4 ip => ip.toNat
  | .v6 ip => ip.toNat

-- Prefix lengths are written as numerals.
instance neZero_prefixes4 : NeZero 33 := ⟨by decide⟩

instance neZero_prefixes6 : NeZero 129 := ⟨by decide⟩

/-- `ipnet::IpNet`: an address with a prefix length of its family. -/
inductive IpNet
  | v4 (addr : Ipv4Addr) (prefixLen : Fin 33)
  | v6 (addr : Ipv6Addr) (prefixLen : Fin 129)
  deriving DecidableEq, Repr

namespace IpNet

def prefixLen : IpNet → Nat
  | .v4 _ len => len.val
  | .v6 _ len => len.val

def maxPrefixLen : IpNet → Nat
  | .v4 _ _ => 32
  | .v6 _ _ => 128

/-- The number of host bits of the block. -/
def hostBits (n : IpNet) : Nat := n.maxPrefixLen - n.prefixLen

/-- `IpNet::addr`. -/
def addr : IpNet → IpAddr
  | .v4 ip _ => .v4 ip
  | .v6 ip _ => .v6 ip

/-- The first address of the block as a number: the host bits cleared. -/
def networkNat (n : IpNet) : Nat := n.addr.toU128 - n.addr.toU128 % 2 ^ n.hostBits

/-- The last address of the block as a number: the host bits set. -/
def broadcastNat (n : IpNet) : Nat := n.networkNat + (2 ^ n.hostBits - 1)

/-- The address of the block's family with the given number. -/
def ofNat (n : IpNet) (value : Nat) : IpAddr :=
  match n with
  | .v4 _ _ => .v4 (BitVec.ofNat 32 value)
  | .v6 _ _ => .v6 (BitVec.ofNat 128 value)

/-- `IpNet::network`. -/
def network (n : IpNet) : IpAddr := n.ofNat n.networkNat

/-- `IpNet::contains` at an address: the same family, between network and broadcast. -/
def contains (n : IpNet) (ip : IpAddr) : Bool :=
  match n, ip with
  | .v4 _ _, .v4 a => decide (n.networkNat ≤ a.toNat ∧ a.toNat ≤ n.broadcastNat)
  | .v6 _ _, .v6 a => decide (n.networkNat ≤ a.toNat ∧ a.toNat ≤ n.broadcastNat)
  | _, _ => false

end IpNet

/-- The textual forms of addresses: `FromStr` of `IpNet`, `FromStr` of `IpAddr` with the
    text of its error, and `Display` of `IpAddr`. -/
structure IpText where
  parseNet : String → Option IpNet
  parseAddr : String → Except String IpAddr
  showAddr : IpAddr → String

/-- `sarena_infra::MacAddress`: six octets. -/
structure MacAddress where
  octets : Vector UInt8 6
  deriving DecidableEq, Repr

instance : Inhabited MacAddress := ⟨⟨Vector.replicate 6 0⟩⟩

/-- The address with the octets given. -/
def MacAddress.ofBytes (a b c d e f : UInt8) : MacAddress := ⟨#v[a, b, c, d, e, f]⟩

/-- `char::to_digit(16)`. -/
def hexDigit (c : Char) : Option Nat :=
  if '0' ≤ c ∧ c ≤ '9' then some (c.toNat - '0'.toNat)
  else if 'a' ≤ c ∧ c ≤ 'f' then some (c.toNat - 'a'.toNat + 10)
  else if 'A' ≤ c ∧ c ≤ 'F' then some (c.toNat - 'A'.toNat + 10)
  else none

/-- The digits of `u8::from_str_radix(_, 16)`, failing on overflow. -/
def u8OfHexDigits (digits : List Char) : Option Nat :=
  digits.foldlM (fun acc c => do
    let d ← hexDigit c
    if acc * 16 + d < 256 then some (acc * 16 + d) else none) 0

/-- `u8::from_str_radix(_, 16)`: at least one digit, after an optional plus sign. -/
def u8FromHex : List Char → Option UInt8
  | [] => none
  | '+' :: [] => none
  | '+' :: digits => (u8OfHexDigits digits).map UInt8.ofNat
  | digits => (u8OfHexDigits digits).map UInt8.ofNat

/-- `MacAddress::parse`: the parts that do not parse are dropped, and six must remain. -/
def MacAddress.parse (s : String) : Option MacAddress :=
  let parts := (s.toList.splitOn ':').filterMap u8FromHex
  if h : parts.length = 6 then some ⟨⟨parts.toArray, by simpa using h⟩⟩ else none

example : MacAddress.parse "02:00:00:00:00:0a" = some (.ofBytes 2 0 0 0 0 10) := by decide

end Sarena
