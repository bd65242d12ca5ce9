import Sarena.Ebpf.EndpointKey
import Sarena.Ebpf.LocalDelivery
import Sarena.Ebpf.Metrics

namespace Sarena.Ebpf

open Lib

/-!
# eBPF programs — the programs of the hooks

What the classifiers make of a packet.  `from_container` and `from_host` deliver IPv4 packets to
the endpoints of the node, and `from_container` answers ARP requests; the other programs pass
everything.  The kernel's helpers and what the packet library knows are parameters.

* `tryFromContainer`, `tryFromHost`, `processArp` — over the packet and the updates of the
  metrics that were made;
* `dispatch` — the code of a result, and the counter of an error.
-/

/-! ### Errors and verdicts -/

def TCX_NEXT : BitVec 32 := -1
def TCX_PASS : BitVec 32 := 0
def TCX_DROP : BitVec 32 := 2

/-- `From<Verdict>`. -/
def Verdict.toCode : Verdict → BitVec 32
  | .pass => TCX_PASS
  | .drop => TCX_DROP
  | .next => TCX_NEXT
  | .redirect code => code

namespace EbpfError

/-- `EbpfError::verdict`. -/
def verdict : EbpfError → Verdict
  | .unsupportedProtocol _ => .pass
  | _ => .drop

/-- `EbpfError::code`. -/
def code : EbpfError → Nat
  | .common _ => 1
  | .internalError => 2
  | .ipError => 3
  | .unsupportedProtocol _ => 4
  | .ttlExceeded => 5
  | .csumL3 => 6
  | .icmpError => 7
  | .mapError _ => 8

end EbpfError

namespace Programs

/-- `ERRORS`: sixteen counters for each CPU. -/
abbrev Errors (n : Nat) := Fin 16 → Fin n → BitVec 64

/-- `dispatch`, on a CPU. -/
def dispatch {n : Nat} (cpu : Fin n) (errors : Errors n) (result : Except EbpfError Verdict) :
    BitVec 32 × Errors n :=
  match result with
  | .ok v => (v.toCode, errors)
  | .error e =>
    let errors := fun slot cpu' =>
      if slot.val = e.code ∧ cpu' = cpu then errors slot cpu' + 1 else errors slot cpu'
    (e.verdict.toCode, errors)

/-! ### What the programs read -/

/-- `EtherType`, as far as the programs tell them apart. -/
inductive EtherType
  | ipv4
  | arp
  | other
  deriving DecidableEq, Repr

/-- The kernel's helpers, and the EtherTypes the packet library knows. -/
structure Kernel extends Helpers where
  redirectPeer : (ifIndex : BitVec 32) → (flags : BitVec 64) → Int
  etherType : BitVec 16 → Option EtherType

/-- What the programs count on: the checksum helper as it is documented, and the numbers of the
    two EtherTypes. -/
structure Kernel.Lawful (k : Kernel) : Prop where
  update : IncrementalUpdate k.toHelpers
  ipv4 : ∀ n, k.etherType n = some .ipv4 ↔ n = 0x0800
  arp : ∀ n, k.etherType n = some .arp ↔ n = 0x0806

/-- `EndpointConfig`, as far as the programs read it. -/
structure EndpointConfig where
  hostMac : Vector Byte 6
  ipv4 : Option Ipv4Addr
  deriving DecidableEq

/-- The maps that the programs only read: `LXC_MAP` and `ENDPOINT_CONFIG`. -/
structure Maps where
  lxcMap : KeyMap EndpointKey EndpointInfo
  endpointConfig : Option EndpointConfig

/-- What a program reads of its context: the length of the packet and the interface. -/
structure Ctx where
  len : BitVec 32
  ifindex : BitVec 32

/-- What a program works on: the linear part of the packet, and the calls of `update_metrics`. -/
structure Work where
  packet : Bytes
  updates : List (BitVec 64 × Byte)

/-- `Res`. -/
abbrev Res := ExceptT EbpfError (StateM Work)

/-- `ref_at`: a header of `len` bytes lies within the packet. -/
def refAt (offset len : Nat) : Res Unit := do
  if offset + len > (← get).packet.length then throw (.common .packetSizeError)

/-- A write of the packet. -/
def write (offset : Nat) (src : Bytes) : Res Unit :=
  modify fun w => { w with packet := w.packet.patch offset src }

/-- Code of local delivery. -/
def liftDelivery (m : Ebpf.Res Verdict) : Res Verdict := fun w =>
  let delivery := m.run.run w.packet
  (delivery.1, { w with packet := delivery.2 })

/-- `update_metrics`. -/
def updateMetrics (bytes : BitVec 64) (obsPoint : Byte) : Res Unit :=
  modify fun w => { w with updates := w.updates ++ [(bytes, obsPoint)] }

/-- A number of two bytes in network order. -/
def be16 (packet : Bytes) (offset : Nat) : BitVec 16 := ofBeBytes (packet.field offset 2)

/-- `Ipv4Hdr::frag_flags`. -/
def fragFlags (packet : Bytes) : BitVec 16 := be16 packet (ETH_HDR_LEN + 6) >>> 13

/-- `Ipv4Hdr::frag_offset`. -/
def fragOffset (packet : Bytes) : BitVec 16 := be16 packet (ETH_HDR_LEN + 6) &&& 0x1FFF

/-- `is_fragmented`. -/
def isFragmented (packet : Bytes) : Bool :=
  fragFlags packet &&& 0x1 != 0 || fragOffset packet != 0

/-- The destination address of the IPv4 header. -/
def dstAddr (packet : Bytes) : Vector Byte 4 := packet.field (ETH_HDR_LEN + 16) 4

/-- `lookup_endpoint`. -/
def lookupEndpoint (maps : Maps) (ip : EndpointKey) : Option EndpointInfo := maps.lxcMap ip

/-- `get_endpoint_config`. -/
def getEndpointConfig (maps : Maps) : Res EndpointConfig :=
  match maps.endpointConfig with
  | some config => pure config
  | none => throw .internalError

/-! ### ARP -/

def ARP_HDR_LEN : Nat := 28
def ARPOP_REQUEST : BitVec 16 := 1
def ARPOP_REPLY : BitVec 16 := 2
def ARPHRD_ETHER : BitVec 16 := 1

/-- `bpf_memcmp` on two arrays: the difference of the first bytes that differ. -/
def bpfMemcmp : Bytes → Bytes → Int
  | a :: s1, b :: s2 => if a ≠ b then (a.toNat : Int) - b.toNat else bpfMemcmp s1 s2
  | _, _ => 0

def ETH_BROADCAST : Vector Byte 6 := .replicate 6 0xff

/-- `eth_is_bcast`. -/
def ethIsBcast (a : Vector Byte 6) : Bool := bpfMemcmp a.toList ETH_BROADCAST.toList == 0

/-- `write_arp_reply`. -/
def writeArpReply (ourMac requesterMac : Vector Byte 6) (ourIp requesterIp : Vector Byte 4) :
    Res Unit := do
  refAt 0 ETH_HDR_LEN
  write 6 ourMac.toList
  write 0 requesterMac.toList
  refAt ETH_HDR_LEN ARP_HDR_LEN
  write (ETH_HDR_LEN + 6) (beBytes 2 ARPOP_REPLY).toList
  write (ETH_HDR_LEN + 8) ourMac.toList
  write (ETH_HDR_LEN + 14) ourIp.toList
  write (ETH_HDR_LEN + 18) requesterMac.toList
  write (ETH_HDR_LEN + 24) requesterIp.toList

/-- `process_arp`. -/
def processArp (k : Kernel) (ctx : Ctx) (config : EndpointConfig) : Res Verdict := do
  refAt 0 ETH_HDR_LEN
  refAt ETH_HDR_LEN ARP_HDR_LEN
  let packet := (← get).packet
  let isRequest := be16 packet (ETH_HDR_LEN + 6) = ARPOP_REQUEST ∧
    be16 packet ETH_HDR_LEN = ARPHRD_ETHER
  let dstMac := packet.field 0 6
  let srcMac := packet.field 6 6
  let senderIp := packet.field (ETH_HDR_LEN + 14) 4
  let targetIp := packet.field (ETH_HDR_LEN + 24) 4
  let forUs := ethIsBcast dstMac || bpfMemcmp dstMac.toList config.hostMac.toList == 0
  if ¬ isRequest ∨ forUs = false then return .pass
  -- Our own endpoint IP is answered by the stack, not here.
  if config.ipv4.map (beBytes 4) = some targetIp then return .next
  writeArpReply config.hostMac srcMac targetIp senderIp
  return .redirect (BitVec.ofInt 32 (k.redirectPeer ctx.ifindex 0))

/-! ### The programs -/

/-- `process_ipv4`, with the point at which the packet is counted. -/
def processIpv4 (k : Kernel) (maps : Maps) (ctx : Ctx) (obsPoint : Byte) : Res Verdict := do
  refAt ETH_HDR_LEN IPV4_HDR_LEN
  let w ← get
  if isFragmented w.packet then return .drop
  match lookupEndpoint maps (.fromIpv4Octets (dstAddr w.packet)) with
  | some ep =>
    updateMetrics (ctx.len.setWidth 64) obsPoint
    liftDelivery (localDelivery k.toHelpers ep)
  | none => return .pass

/-- `process_ipv4` of the host. -/
def processIpv4Host (k : Kernel) (maps : Maps) (ctx : Ctx) : Res Verdict :=
  processIpv4 k maps ctx OBS_POINT_HOST_FORWARD

/-- `process_ipv4` of a container: the Ethernet header is looked at once more, for a trace. -/
def processIpv4Container (k : Kernel) (maps : Maps) (ctx : Ctx) : Res Verdict := do
  refAt ETH_HDR_LEN IPV4_HDR_LEN
  let w ← get
  if isFragmented w.packet then return .drop
  refAt 0 ETH_HDR_LEN
  match lookupEndpoint maps (.fromIpv4Octets (dstAddr w.packet)) with
  | some ep =>
    updateMetrics (ctx.len.setWidth 64) OBS_POINT_CONTAINER_FORWARD
    liftDelivery (localDelivery k.toHelpers ep)
  | none => return .pass

/-- `try_from_host`. -/
def tryFromHost (k : Kernel) (maps : Maps) (ctx : Ctx) : Res Verdict := do
  refAt 0 ETH_HDR_LEN
  let w ← get
  match k.etherType (be16 w.packet 12) with
  | some .ipv4 => processIpv4Host k maps ctx
  | _ => return .pass

/-- `try_from_container`. -/
def tryFromContainer (k : Kernel) (maps : Maps) (ctx : Ctx) : Res Verdict := do
  refAt 0 ETH_HDR_LEN
  let w ← get
  match k.etherType (be16 w.packet 12) with
  | none => return .pass
  | some etherType =>
    let config ← getEndpointConfig maps
    match etherType with
    | .ipv4 => processIpv4Container k maps ctx
    | .arp => processArp k ctx config
    | .other => return .drop

/-- A program that passes everything. -/
def passAll : Res Verdict := return .pass

/-- `try_to_container`. -/
def tryToContainer : Res Verdict := passAll

/-- `try_to_host`. -/
def tryToHost : Res Verdict := passAll

/-- `try_from_netdev`. -/
def tryFromNetdev : Res Verdict := passAll

/-- `try_to_netdev`. -/
def tryToNetdev : Res Verdict := passAll

/-- `try_from_overlay`. -/
def tryFromOverlay : Res Verdict := passAll

/-- `try_to_overlay`. -/
def tryToOverlay : Res Verdict := passAll

/-- `try_from_wireguard`. -/
def tryFromWireguard : Res Verdict := passAll

/-- `try_to_wireguard`. -/
def tryToWireguard : Res Verdict := passAll

/-- The classifiers. -/
inductive Classifier
  | fromContainer
  | toContainer
  | fromHost
  | toHost
  | fromNetdev
  | toNetdev
  | fromOverlay
  | toOverlay
  | fromWireguard
  | toWireguard
  deriving DecidableEq, Repr

/-- What a classifier hands to `dispatch`. -/
def Classifier.body (k : Kernel) (maps : Maps) (ctx : Ctx) : Classifier → Res Verdict
  | .fromContainer => tryFromContainer k maps ctx
  | .toContainer => tryToContainer
  | .fromHost => tryFromHost k maps ctx
  | .toHost => tryToHost
  | .fromNetdev => tryFromNetdev
  | .toNetdev => tryToNetdev
  | .fromOverlay => tryFromOverlay
  | .toOverlay => tryToOverlay
  | .fromWireguard => tryFromWireguard
  | .toWireguard => tryToWireguard

/-- A classifier on a packet: its result, the packet and the updates of the metrics. -/
def Classifier.run (k : Kernel) (maps : Maps) (ctx : Ctx) (c : Classifier) (packet : Bytes) :
    Except EbpfError Verdict × Work :=
  (c.body k maps ctx).run.run ⟨packet, []⟩

/-! ### Running the programs -/

section

variable {ε σ α β : Type} {m : ExceptT ε (StateM σ) α} {f : α → ExceptT ε (StateM σ) β} {s s' : σ}

theorem run_of_ok {a : α} (h : m.run.run s = (.ok a, s')) :
    (m >>= f).run.run s = (f a).run.run s' := by
  simp only [ExceptT.run, StateT.run] at h
  simp only [bind, ExceptT.bind, ExceptT.mk, ExceptT.run, StateT.run, StateT.bind, h]
  rfl

theorem run_of_error {e : ε} (h : m.run.run s = (.error e, s')) :
    (m >>= f).run.run s = (.error e, s') := by
  simp only [ExceptT.run, StateT.run] at h
  simp only [bind, ExceptT.bind, ExceptT.mk, ExceptT.run, StateT.run, StateT.bind, h]
  rfl

end

variable {w : Work}

theorem run_refAt {offset len : Nat} (h : offset + len ≤ w.packet.length) :
    (refAt offset len).run.run w = (.ok (), w) := by
  have hnot : ¬ offset + len > List.length w.packet := Nat.not_lt.mpr h
  show (ite (offset + len > List.length w.packet) _ _ : Res Unit).run.run w = _
  rw [if_neg hnot]
  rfl

theorem run_refAt_short {offset len : Nat} (h : w.packet.length < offset + len) :
    (refAt offset len).run.run w = (.error (.common .packetSizeError), w) := by
  show (ite (offset + len > List.length w.packet) _ _ : Res Unit).run.run w = _
  rw [if_pos h]
  rfl

theorem run_get : (get : Res Work).run.run w = (.ok w, w) := rfl

theorem run_write (offset : Nat) (src : Bytes) : (write offset src).run.run w =
    (.ok (), { w with packet := w.packet.patch offset src }) := rfl

variable {k : Kernel} {maps : Maps} {ctx : Ctx}

/-- A packet without an Ethernet header. -/
theorem run_tryFromContainer_short (hlen : w.packet.length < 14) :
    (tryFromContainer k maps ctx).run.run w = (.error (.common .packetSizeError), w) :=
  run_of_error (run_refAt_short (by rw [ETH_HDR_LEN]; omega))

/-- A program of a container without its configuration. -/
theorem run_tryFromContainer_config (hlen : 14 ≤ w.packet.length)
    (hconfig : maps.endpointConfig = none) : (tryFromContainer k maps ctx).run.run w =
      (if k.etherType (be16 w.packet 12) = none then .ok .pass else .error .internalError, w) := by
  rw [tryFromContainer, run_of_ok (run_refAt (by rw [ETH_HDR_LEN]; omega)), run_of_ok run_get]
  cases k.etherType (be16 w.packet 12) with
  | none => rfl
  | some etherType =>
    have hfail : (getEndpointConfig maps).run.run w = (.error .internalError, w) := by
      rw [getEndpointConfig, hconfig]
      rfl
    exact run_of_error hfail

/-- What the program of a container does with its configuration. -/
theorem run_tryFromContainer {config : EndpointConfig} (hlen : 14 ≤ w.packet.length)
    (hconfig : maps.endpointConfig = some config) : (tryFromContainer k maps ctx).run.run w =
      match k.etherType (be16 w.packet 12) with
      | none => (.ok .pass, w)
      | some .ipv4 => (processIpv4Container k maps ctx).run.run w
      | some .arp => (processArp k ctx config).run.run w
      | some .other => (.ok .drop, w) := by
  rw [tryFromContainer, run_of_ok (run_refAt (by rw [ETH_HDR_LEN]; omega)), run_of_ok run_get]
  have hget : (getEndpointConfig maps).run.run w = (.ok config, w) := by
    rw [getEndpointConfig, hconfig]
    rfl
  cases k.etherType (be16 w.packet 12) with
  | none => rfl
  | some etherType =>
    show (getEndpointConfig maps >>= _).run.run w = _
    rw [run_of_ok hget]
    cases etherType <;> rfl

theorem run_tryFromHost_short (hlen : w.packet.length < 14) :
    (tryFromHost k maps ctx).run.run w = (.error (.common .packetSizeError), w) :=
  run_of_error (run_refAt_short (by rw [ETH_HDR_LEN]; omega))

theorem run_tryFromHost (hlen : 14 ≤ w.packet.length) : (tryFromHost k maps ctx).run.run w =
    if k.etherType (be16 w.packet 12) = some .ipv4 then (processIpv4Host k maps ctx).run.run w
    else (.ok .pass, w) := by
  rw [tryFromHost, run_of_ok (run_refAt (by rw [ETH_HDR_LEN]; omega)), run_of_ok run_get]
  cases k.etherType (be16 w.packet 12) with
  | none => rfl
  | some etherType => cases etherType <;> rfl

/-! ### A kernel -/

/-- The kernel of a little-endian host, and a packet library that knows two EtherTypes. -/
def littleEndianKernel : Kernel where
  toHelpers := littleEndianHelpers
  redirectPeer _ _ := 7
  etherType n := if n = 0x0800 then some .ipv4 else if n = 0x0806 then some .arp else none

theorem lawful_littleEndianKernel : littleEndianKernel.Lawful where
  update := incrementalUpdate_littleEndianHelpers
  ipv4 n := by
    show ite (n = 0x0800) _ _ = _ ↔ _
    by_cases h1 : n = 0x0800
    · rw [if_pos h1]
      exact iff_of_true rfl h1
    · rw [if_neg h1]
      refine iff_of_false (fun h => ?_) h1
      by_cases h2 : n = 0x0806
      · rw [if_pos h2] at h
        cases h
      · rw [if_neg h2] at h
        cases h
  arp n := by
    show ite (n = 0x0800) _ (ite (n = 0x0806) _ _) = _ ↔ _
    by_cases h2 : n = 0x0806
    · subst h2
      exact iff_of_true rfl rfl
    · rw [if_neg h2]
      refine iff_of_false (fun h => ?_) h2
      by_cases h1 : n = 0x0800
      · rw [if_pos h1] at h
        cases h
      · rw [if_neg h1] at h
        cases h

end Programs

end Sarena.Ebpf
