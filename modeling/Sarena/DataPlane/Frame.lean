import Sarena.Infra.Address
import Sarena.Lib.Bytes

namespace Sarena.Soft

open Lib

/-!
# Soft data plane — frames

Parsing of Ethernet frames that carry IPv4, and their rewriting in place: addresses,
ports and both checksums.  Every index and range is checked, so a panic of the source is
a `Panic` here.

* `wireOf` — what a frame says about itself, without checks, and `parseWire_eq`: parsing
  never panics and finds just that;
* `wireOf_plainFrame` — a frame of every flow.
-/

/-- `network_types::ip::IpProto`: the protocols the data plane handles, and the others. -/
inductive IpProto
  | icmp
  | tcp
  | udp
  | other (number : Byte)
  deriving DecidableEq, Repr

abbrev Port := BitVec 16

/-- `FlowTuple`. -/
@[ext]
structure FlowTuple where
  src : IpAddr
  srcPort : Port
  dst : IpAddr
  dstPort : Port
  protocol : IpProto
  deriving DecidableEq, Repr

abbrev Frame := Bytes

def ETH_HDR_LEN : Nat := 14
def ETHERTYPE_IPV4 : BitVec 16 := 0x0800

/-- `Ipv4Info`. -/
structure Ipv4Info where
  ihl : Nat
  protocol : Byte
  src : Ipv4Addr
  dst : Ipv4Addr
  deriving DecidableEq, Repr

/-- `Ipv4Addr::new`. -/
def ipv4OfOctets (a b c d : Byte) : Ipv4Addr := a ++ b ++ c ++ d

/-- `Ipv4Addr::octets`. -/
def octets (ip : Ipv4Addr) : List Byte :=
  [ip.extractLsb' 24 8, ip.extractLsb' 16 8, ip.extractLsb' 8 8, ip.extractLsb' 0 8]

@[simp] theorem length_octets (ip : Ipv4Addr) : (octets ip).length = 4 := rfl

/-- An address is made of its octets. -/
theorem ipv4OfOctets_octets (ip : Ipv4Addr) :
    ipv4OfOctets (ip.extractLsb' 24 8) (ip.extractLsb' 16 8) (ip.extractLsb' 8 8)
      (ip.extractLsb' 0 8) = ip := by
  apply BitVec.eq_of_getLsbD_eq
  intro i hi
  simp only [ipv4OfOctets, BitVec.getLsbD_append, BitVec.getLsbD_extractLsb']
  grind

/-! ### Parsing -/

/-- `parse_ipv4`. -/
def parseIpv4 (frame : Frame) : Checked (Option Ipv4Info) :=
  if frame.length < ETH_HDR_LEN + 20 then pure none
  else do
    let ethertype := fromBeBytes (← frame.read 12) (← frame.read 13)
    if ethertype ≠ ETHERTYPE_IPV4 then pure none
    else do
      let ip ← frame.slice ETH_HDR_LEN frame.length
      let first ← ip.read 0
      if first >>> 4 ≠ 4 then pure none
      else do
        let ihl := (first &&& 0x0F).toNat * 4
        if ip.length < ihl then pure none
        else do
          let protocol ← ip.read 9
          let src := ipv4OfOctets (← ip.read 12) (← ip.read 13) (← ip.read 14) (← ip.read 15)
          let dst := ipv4OfOctets (← ip.read 16) (← ip.read 17) (← ip.read 18) (← ip.read 19)
          return some { ihl, protocol, src, dst }

/-- `parse_ports`. -/
def parsePorts (frame : Frame) (l4Offset : Nat) : Checked (Option (Port × Port)) :=
  if frame.length < l4Offset + 4 then pure none
  else do
    let srcPort := fromBeBytes (← frame.read l4Offset) (← frame.read (l4Offset + 1))
    let dstPort := fromBeBytes (← frame.read (l4Offset + 2)) (← frame.read (l4Offset + 3))
    return some (srcPort, dstPort)

/-- `ip_proto_from_byte`. -/
def ipProtoFromByte (byte : Byte) : Option IpProto :=
  if byte = 1 then some .icmp
  else if byte = 6 then some .tcp
  else if byte = 17 then some .udp
  else none

/-- The ports of a flow: those of TCP and UDP frames that have them, zero otherwise. -/
def flowPorts (frame : Frame) (protocol : IpProto) (l4Off : Nat) : Checked (Port × Port) :=
  if protocol = .tcp ∨ protocol = .udp then do
    let ports ← parsePorts frame l4Off
    return ports.getD (0, 0)
  else pure (0, 0)

/-- The 5-tuple of a frame of the given protocol. -/
def flowOf (frame : Frame) (ip : Ipv4Info) (protocol : IpProto) : Checked FlowTuple := do
  let l4Off := ETH_HDR_LEN + ip.ihl
  let (srcPort, dstPort) ← flowPorts frame protocol l4Off
  return { src := .v4 ip.src, srcPort, dst := .v4 ip.dst, dstPort, protocol }

/-- What `decide` reads off a frame: its IPv4 header and its 5-tuple, when it carries IPv4
    with a protocol that the data plane handles. -/
def parseWire (frame : Frame) : Checked (Option (Ipv4Info × FlowTuple)) := do
  let ip? ← parseIpv4 frame
  match ip? with
  | none => return none
  | some ip =>
    match ipProtoFromByte ip.protocol with
    | none => return none
    | some protocol => return some (ip, ← flowOf frame ip protocol)

/-! ### Rewriting -/

/-- `sum += …` over the 16-bit words of a buffer, the last byte padded with a zero. -/
def sumWords (sum : Nat) : Bytes → Checked Nat
  | [] => pure sum
  | [last] => Checked.addU32 sum (last.toNat <<< 8)
  | hi :: lo :: rest => do sumWords (← Checked.addU32 sum (fromBeBytes hi lo).toNat) rest

/-- `while sum >> 16 != 0 { sum = (sum & 0xFFFF) + (sum >> 16) }` -/
def foldCarries (sum : Nat) : Nat :=
  if sum >>> 16 = 0 then sum else foldCarries ((sum &&& 0xFFFF) + sum >>> 16)
termination_by sum
decreasing_by
  have hand : sum &&& 0xFFFF = sum % 65536 := Nat.and_two_pow_sub_one_eq_mod sum 16
  rw [hand, Nat.shiftRight_eq_div_pow] at *
  omega

/-- `internet_checksum`: the RFC 1071 checksum. -/
def internetChecksum (bytes : Bytes) : Checked (BitVec 16) := do
  let sum ← sumWords 0 bytes
  return ~~~ BitVec.ofNat 16 (foldCarries sum)

/-- `if let Some(src) = … { frame[start..stop].copy_from_slice(&src) }` -/
def copyIfSome (frame : Frame) (start stop : Nat) (src : Option Bytes) : Checked Frame :=
  match src with
  | some src => frame.copyFromSlice start stop src
  | none => pure frame

/-- The end of each branch of `recompute_l4_checksum`: the field is cleared, the checksum
    over the pseudo header and the segment taken, mended by `fix`, and written. -/
def writeL4Checksum (frame : Frame) (pseudo : Bytes) (l4Off l4Len field : Nat)
    (fix : BitVec 16 → BitVec 16) : Checked Frame := do
  let frame ← frame.write (l4Off + field) 0
  let frame ← frame.write (l4Off + field + 1) 0
  let segment ← frame.slice l4Off (l4Off + l4Len)
  let csum ← internetChecksum (pseudo ++ segment)
  frame.copyFromSlice (l4Off + field) (l4Off + field + 2) (toBeBytes (fix csum))

/-- `recompute_l4_checksum`. -/
def recomputeL4Checksum (frame : Frame) (ipOff ihl : Nat) (protocol : Byte) : Checked Frame := do
  let totalLen := (fromBeBytes (← frame.read (ipOff + 2)) (← frame.read (ipOff + 3))).toNat
  let l4Off := ipOff + ihl
  if totalLen < ihl then pure frame
  else do
    let l4Len ← Checked.sub totalLen ihl
    if l4Off + l4Len > frame.length then pure frame
    else do
      let src ← frame.slice (ipOff + 12) (ipOff + 16)
      let dst ← frame.slice (ipOff + 16) (ipOff + 20)
      let pseudo := src ++ dst ++ [0, protocol] ++ toBeBytes (BitVec.ofNat 16 l4Len)
      if protocol = 6 then writeL4Checksum frame pseudo l4Off l4Len 16 id
      else if protocol = 17 then
        -- 0 means "no checksum" for UDP/IPv4
        writeL4Checksum frame pseudo l4Off l4Len 6 fun csum => if csum = 0 then 0xFFFF else csum
      else pure frame

/-- The port rewrites of `rewrite_ipv4`. -/
def rewritePorts (frame : Frame) (protocol : Byte) (l4Off : Nat)
    (newSrcPort newDstPort : Option Port) : Checked Frame :=
  if protocol = 6 ∨ protocol = 17 then do
    let frame ← copyIfSome frame l4Off (l4Off + 2) (newSrcPort.map toBeBytes)
    copyIfSome frame (l4Off + 2) (l4Off + 4) (newDstPort.map toBeBytes)
  else pure frame

/-- `rewrite_ipv4`: the addresses and ports that are given replace those of the frame, and
    both checksums are recomputed. -/
def rewriteIpv4 (frame : Frame) (ihl : Nat) (newSrcAddr newDstAddr : Option Ipv4Addr)
    (newSrcPort newDstPort : Option Port) : Checked Frame := do
  let ipOff := ETH_HDR_LEN
  let frame ← copyIfSome frame (ipOff + 12) (ipOff + 16) (newSrcAddr.map octets)
  let frame ← copyIfSome frame (ipOff + 16) (ipOff + 20) (newDstAddr.map octets)
  let frame ← frame.write (ipOff + 10) 0
  let frame ← frame.write (ipOff + 11) 0
  let ipCsum ← internetChecksum (← frame.slice ipOff (ipOff + ihl))
  let frame ← frame.copyFromSlice (ipOff + 10) (ipOff + 12) (toBeBytes ipCsum)
  let protocol ← frame.read (ipOff + 9)
  let l4Off := ipOff + ihl
  let frame ← rewritePorts frame protocol l4Off newSrcPort newDstPort
  recomputeL4Checksum frame ipOff ihl protocol

/-! ### What a frame says about itself -/

/-- The big-endian number at an offset. -/
def be16At (b : Bytes) (i : Nat) : BitVec 16 := fromBeBytes (b.byteAt i) (b.byteAt (i + 1))

/-- The IPv4 address at an offset. -/
def addrAt (b : Bytes) (i : Nat) : Ipv4Addr :=
  ipv4OfOctets (b.byteAt i) (b.byteAt (i + 1)) (b.byteAt (i + 2)) (b.byteAt (i + 3))

/-- The header length that a frame announces. -/
def ihlOf (frame : Frame) : Nat := (frame.byteAt 14 &&& 0x0F).toNat * 4

/-- The frame carries an IPv4 header, options included. -/
def IsIpv4 (frame : Frame) : Prop :=
  34 ≤ frame.length ∧ be16At frame 12 = ETHERTYPE_IPV4 ∧ frame.byteAt 14 >>> 4 = 4 ∧
    14 + ihlOf frame ≤ frame.length

instance (frame : Frame) : Decidable (IsIpv4 frame) := inferInstanceAs (Decidable (_ ∧ _))

/-- The header of a frame that carries one. -/
def ipv4Of (frame : Frame) : Ipv4Info where
  ihl := ihlOf frame
  protocol := frame.byteAt 23
  src := addrAt frame 26
  dst := addrAt frame 30

/-- The ports of a frame, zero for those that have none. -/
def portsOf (frame : Frame) (protocol : IpProto) (l4Off : Nat) : Port × Port :=
  if (protocol = .tcp ∨ protocol = .udp) ∧ l4Off + 4 ≤ frame.length then
    (be16At frame l4Off, be16At frame (l4Off + 2))
  else (0, 0)

/-- The 5-tuple of a frame with an IPv4 header. -/
def tupleOf (frame : Frame) (ip : Ipv4Info) (protocol : IpProto) : FlowTuple where
  src := .v4 ip.src
  srcPort := (portsOf frame protocol (14 + ip.ihl)).1
  dst := .v4 ip.dst
  dstPort := (portsOf frame protocol (14 + ip.ihl)).2
  protocol := protocol

/-- The 5-tuple of a frame, when it carries IPv4 with a protocol that is handled. -/
def wireOf (frame : Frame) : Option FlowTuple :=
  if IsIpv4 frame then (ipProtoFromByte (frame.byteAt 23)).map (tupleOf frame (ipv4Of frame))
  else none

/-- A frame with a 5-tuple carries IPv4 with a protocol that is handled. -/
theorem wireOf_eq_some {frame : Frame} {wire : FlowTuple} : wireOf frame = some wire ↔
    IsIpv4 frame ∧ ∃ protocol, ipProtoFromByte (frame.byteAt 23) = some protocol ∧
      tupleOf frame (ipv4Of frame) protocol = wire := by
  rw [wireOf]
  by_cases hip : IsIpv4 frame
  · rw [if_pos hip, Option.map_eq_some_iff, and_iff_right hip]
  · rw [if_neg hip]
    exact iff_of_false nofun fun h => hip h.1

/-- The header length is at most 60, and the header is in the frame. -/
theorem ihlOf_le (frame : Frame) : ihlOf frame ≤ 60 := by
  have h : (frame.byteAt 14 &&& 0x0F).toNat ≤ 15 := by
    rw [BitVec.toNat_and]
    exact Nat.and_le_right
  rw [ihlOf]
  omega

theorem parseIpv4_eq (frame : Frame) :
    parseIpv4 frame = .ok (if IsIpv4 frame then some (ipv4Of frame) else none) := by
  rw [parseIpv4]
  -- The four guards of the source in their order; each is one conjunct of `IsIpv4`.
  by_cases hlen : frame.length < ETH_HDR_LEN + 20
  · rw [if_pos hlen, if_neg (fun h : IsIpv4 frame => absurd h.1 (Nat.not_le.mpr hlen))]
    rfl
  have hlen : 34 ≤ frame.length := Nat.not_lt.mp hlen
  have hslice : frame.slice ETH_HDR_LEN frame.length =
      .ok ((frame.drop 14).take (frame.length - 14)) :=
    Bytes.slice_eq ⟨by rw [ETH_HDR_LEN]; omega, le_refl _⟩
  have hiplen : ((frame.drop 14).take (frame.length - 14)).length = frame.length - 14 := by
    rw [List.length_take, List.length_drop, Nat.min_self]
  have hread : ∀ i, i < 20 →
      Bytes.read ((frame.drop 14).take (frame.length - 14)) i = .ok (frame.byteAt (14 + i)) := by
    intro i hi
    rw [Bytes.read_eq (by omega), Bytes.byteAt_take_drop (by omega)]
  rw [if_neg (by rw [ETH_HDR_LEN]; omega), Bytes.read_eq (by omega), Bytes.read_eq (by omega),
    hslice]
  simp only [bind, Except.bind, hread _ (show 0 < 20 by omega)]
  by_cases htype : be16At frame 12 ≠ ETHERTYPE_IPV4
  · rw [if_neg fun h : IsIpv4 frame => htype h.2.1]
    exact if_pos htype
  refine (if_neg htype).trans ?_
  by_cases hversion : frame.byteAt 14 >>> 4 ≠ 4
  · rw [if_neg fun h : IsIpv4 frame => hversion h.2.2.1]
    exact if_pos hversion
  refine (if_neg hversion).trans ?_
  rw [hiplen]
  by_cases hihl : frame.length - 14 < ihlOf frame
  · rw [if_neg fun h : IsIpv4 frame => absurd h.2.2.2 (by omega)]
    exact if_pos hihl
  · have hip : IsIpv4 frame := ⟨hlen, not_not.mp htype, not_not.mp hversion, by omega⟩
    rw [if_pos hip]
    refine (if_neg hihl).trans ?_
    simp only [hread _ (show 9 < 20 by omega), hread _ (show 12 < 20 by omega),
      hread _ (show 13 < 20 by omega), hread _ (show 14 < 20 by omega),
      hread _ (show 15 < 20 by omega), hread _ (show 16 < 20 by omega),
      hread _ (show 17 < 20 by omega), hread _ (show 18 < 20 by omega),
      hread _ (show 19 < 20 by omega)]
    rfl

theorem flowPorts_eq (frame : Frame) (protocol : IpProto) (l4Off : Nat) :
    flowPorts frame protocol l4Off = .ok (portsOf frame protocol l4Off) := by
  rw [flowPorts, portsOf]
  by_cases hproto : protocol = .tcp ∨ protocol = .udp
  · rw [if_pos hproto, parsePorts]
    by_cases hlen : frame.length < l4Off + 4
    · rw [if_pos hlen, if_neg fun h => absurd h.2 (Nat.not_le.mpr hlen)]
      rfl
    · rw [if_neg hlen, if_pos ⟨hproto, Nat.not_lt.mp hlen⟩, Bytes.read_eq (by omega),
        Bytes.read_eq (by omega), Bytes.read_eq (by omega), Bytes.read_eq (by omega)]
      rfl
  · rw [if_neg hproto, if_neg fun h => hproto h.1]
    rfl

theorem flowOf_eq (frame : Frame) (ip : Ipv4Info) (protocol : IpProto) :
    flowOf frame ip protocol = .ok (tupleOf frame ip protocol) := by
  rw [flowOf, flowPorts_eq]
  rfl

/-- **Parsing never panics**, and finds what the frame says. -/
theorem parseWire_eq (frame : Frame) :
    parseWire frame = .ok ((wireOf frame).map fun wire => (ipv4Of frame, wire)) := by
  rw [parseWire, parseIpv4_eq, wireOf]
  by_cases hip : IsIpv4 frame
  · rw [if_pos hip, if_pos hip]
    show (match ipProtoFromByte (frame.byteAt 23) with
      | none => pure none
      | some protocol => do return some (ipv4Of frame, ← flowOf frame (ipv4Of frame) protocol)) = _
    cases ipProtoFromByte (frame.byteAt 23) with
    | none => rfl
    | some protocol => simp only [flowOf_eq]; rfl
  · rw [if_neg hip, if_neg hip]
    rfl

/-! ### A frame of every flow -/

/-- The 5-tuples that frames have: IPv4 addresses, a protocol that is handled, and ports of
    zero where the protocol has none. -/
structure IsFlow (wire : FlowTuple) : Prop where
  src : ∃ a, wire.src = .v4 a
  dst : ∃ a, wire.dst = .v4 a
  protocol : ∃ byte, ipProtoFromByte byte = some wire.protocol
  ports : ¬ (wire.protocol = .tcp ∨ wire.protocol = .udp) → wire.srcPort = 0 ∧ wire.dstPort = 0

theorem isFlow_of_wireOf {frame : Frame} {wire : FlowTuple} (h : wireOf frame = some wire) :
    IsFlow wire := by
  obtain ⟨-, protocol, hprotocol, rfl⟩ := wireOf_eq_some.mp h
  refine ⟨⟨_, rfl⟩, ⟨_, rfl⟩, ⟨_, hprotocol⟩, fun hports => ?_⟩
  have hzero : portsOf frame protocol (14 + (ipv4Of frame).ihl) = (0, 0) :=
    if_neg fun h => hports h.1
  exact ⟨congrArg Prod.fst hzero, congrArg Prod.snd hzero⟩

/-- A frame of 54 bytes: Ethernet, IPv4 without options, the ports, and zeros. -/
def plainFrame (protocol : Byte) (src : Ipv4Addr) (srcPort : Port) (dst : Ipv4Addr)
    (dstPort : Port) : Frame :=
  List.replicate 12 0 ++ [0x08, 0x00] ++ [0x45, 0, 0, 40, 0, 0, 0, 0, 64, protocol, 0, 0] ++
    octets src ++ octets dst ++ toBeBytes srcPort ++ toBeBytes dstPort ++ List.replicate 16 0

theorem length_plainFrame (protocol : Byte) (src : Ipv4Addr) (srcPort : Port) (dst : Ipv4Addr)
    (dstPort : Port) : (plainFrame protocol src srcPort dst dstPort).length = 54 := rfl

theorem ihlOf_plainFrame (protocol : Byte) (src : Ipv4Addr) (srcPort : Port) (dst : Ipv4Addr)
    (dstPort : Port) : ihlOf (plainFrame protocol src srcPort dst dstPort) = 20 := by
  have hfirst : (plainFrame protocol src srcPort dst dstPort).byteAt 14 = 0x45 := rfl
  rw [ihlOf, hfirst]
  rfl

theorem wireOf_plainFrame {protocol : Byte} {proto : IpProto}
    (h : ipProtoFromByte protocol = some proto) (src : Ipv4Addr) (srcPort : Port)
    (dst : Ipv4Addr) (dstPort : Port) :
    wireOf (plainFrame protocol src srcPort dst dstPort) = some
      { src := .v4 src
        srcPort := if proto = .tcp ∨ proto = .udp then srcPort else 0
        dst := .v4 dst
        dstPort := if proto = .tcp ∨ proto = .udp then dstPort else 0
        protocol := proto } := by
  have hlen := length_plainFrame protocol src srcPort dst dstPort
  have h12 : (plainFrame protocol src srcPort dst dstPort).byteAt 12 = 0x08 := rfl
  have h13 : (plainFrame protocol src srcPort dst dstPort).byteAt 13 = 0x00 := rfl
  have h14 : (plainFrame protocol src srcPort dst dstPort).byteAt 14 = 0x45 := rfl
  have hproto : (plainFrame protocol src srcPort dst dstPort).byteAt 23 = protocol := rfl
  have hihl := ihlOf_plainFrame protocol src srcPort dst dstPort
  have hip : IsIpv4 (plainFrame protocol src srcPort dst dstPort) := by
    refine ⟨by omega, ?_, ?_, by omega⟩
    · rw [be16At, h12, h13]
      rfl
    · rw [h14]
      rfl
  have hsrc : addrAt (plainFrame protocol src srcPort dst dstPort) 26 = src :=
    ipv4OfOctets_octets src
  have hdst : addrAt (plainFrame protocol src srcPort dst dstPort) 30 = dst :=
    ipv4OfOctets_octets dst
  have hsp : be16At (plainFrame protocol src srcPort dst dstPort) 34 = srcPort :=
    fromBeBytes_toBeBytes srcPort
  have hdp : be16At (plainFrame protocol src srcPort dst dstPort) 36 = dstPort :=
    fromBeBytes_toBeBytes dstPort
  generalize plainFrame protocol src srcPort dst dstPort = frame at *
  have hget : portsOf frame proto 34 =
      (if proto = .tcp ∨ proto = .udp then srcPort else 0,
        if proto = .tcp ∨ proto = .udp then dstPort else 0) := by
    rw [portsOf]
    by_cases hports : proto = .tcp ∨ proto = .udp
    · rw [if_pos ⟨hports, by omega⟩, if_pos hports, if_pos hports, hsp, hdp]
    · rw [if_neg fun h => hports h.1, if_neg hports, if_neg hports]
  rw [wireOf, if_pos hip, hproto, h, Option.map_some]
  simp only [tupleOf, ipv4Of, hsrc, hdst, hihl, Nat.reduceAdd, hget]

end Sarena.Soft
