import Sarena.Infra.Address
import Sarena.Lib.Fields

namespace Sarena

open Lib

/-!
# eBPF programs — the keys of the `lxc_map`

The map is keyed by an address as bytes: sixteen of them, in network order, with the family
beside them.  A program makes the key from the octets of a packet, and the daemon from an
address.

* `EndpointKey.toIpAddr_ofIpAddr` — a key gives back its address;
* `EndpointKey.fromIpv4Octets_eq` — the key of a packet is that of the address it carries.
-/

def ENDPOINT_KEY_FAMILY_IPV4 : Byte := 1
def ENDPOINT_KEY_FAMILY_IPV6 : Byte := 2

/-- `EndpointKey`: an IPv4 address stands in the first four bytes. -/
structure EndpointKey where
  ip : Vector Byte 16
  family : Byte
  pad : Vector Byte 3
  deriving DecidableEq

namespace EndpointKey

/-- `from_ipv4_octets`. -/
def fromIpv4Octets (octets : Vector Byte 4) : EndpointKey where
  ip := octets ++ Vector.replicate 12 (0 : Byte)
  family := ENDPOINT_KEY_FAMILY_IPV4
  pad := .replicate 3 0

/-- `from_ipv6_octets`. -/
def fromIpv6Octets (octets : Vector Byte 16) : EndpointKey where
  ip := octets
  family := ENDPOINT_KEY_FAMILY_IPV6
  pad := .replicate 3 0

/-- `From<IpAddr>`. -/
def ofIpAddr : IpAddr → EndpointKey
  | .v4 ip => fromIpv4Octets (beBytes 4 ip)
  | .v6 ip => fromIpv6Octets (beBytes 16 ip)

/-- `TryFrom<EndpointKey>`. -/
def toIpAddr (key : EndpointKey) : Except String IpAddr :=
  if key.family = ENDPOINT_KEY_FAMILY_IPV4 then
    .ok (.v4 (ofBeBytes (n := 4) (Vector.ofFn fun i => key.ip[i.val])))
  else if key.family = ENDPOINT_KEY_FAMILY_IPV6 then .ok (.v6 (ofBeBytes key.ip))
  else .error "Invalid endpoint key address family"

@[simp] theorem family_fromIpv4Octets (octets : Vector Byte 4) :
    (fromIpv4Octets octets).family = ENDPOINT_KEY_FAMILY_IPV4 := rfl

@[simp] theorem family_fromIpv6Octets (octets : Vector Byte 16) :
    (fromIpv6Octets octets).family = ENDPOINT_KEY_FAMILY_IPV6 := rfl

theorem getElem_fromIpv4Octets (octets : Vector Byte 4) (i : Nat) (hi : i < 4) :
    (fromIpv4Octets octets).ip[i] = octets[i] := by
  show (octets ++ Vector.replicate 12 (0 : Byte))[i] = octets[i]
  rw [Vector.getElem_append_left hi]

/-- A key gives back its address. -/
@[simp] theorem toIpAddr_ofIpAddr (ip : IpAddr) : (ofIpAddr ip).toIpAddr = .ok ip := by
  cases ip with
  | v4 ip =>
    have hfirst : (Vector.ofFn fun i : Fin 4 => (fromIpv4Octets (beBytes 4 ip)).ip[i.val]) =
        beBytes 4 ip := by
      refine Vector.ext fun i hi => ?_
      rw [Vector.getElem_ofFn, getElem_fromIpv4Octets _ i hi]
    rw [ofIpAddr, toIpAddr, if_pos (family_fromIpv4Octets _), hfirst, ofBeBytes_beBytes]
  | v6 ip =>
    have hfamily : ENDPOINT_KEY_FAMILY_IPV6 ≠ ENDPOINT_KEY_FAMILY_IPV4 := by decide
    rw [ofIpAddr, toIpAddr, family_fromIpv6Octets, if_neg hfamily, if_pos rfl]
    show Except.ok (IpAddr.v6 (ofBeBytes (beBytes 16 ip))) = _
    rw [ofBeBytes_beBytes]

theorem ofIpAddr_injective : Function.Injective ofIpAddr := by
  intro a b h
  have hback := toIpAddr_ofIpAddr a
  rw [h, toIpAddr_ofIpAddr] at hback
  exact (Except.ok.inj hback).symm

/-- The key of a packet is that of the address it carries. -/
theorem fromIpv4Octets_eq (octets : Vector Byte 4) :
    fromIpv4Octets octets = ofIpAddr (.v4 (ofBeBytes octets)) := by
  rw [ofIpAddr, beBytes_ofBeBytes]

end EndpointKey

end Sarena
