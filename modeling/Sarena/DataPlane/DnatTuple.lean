import Sarena.DataPlane.RewriteChecksum
import Sarena.DataPlane.RouteLookup

namespace Sarena.Soft

open Lib

/-!
# Soft data plane — the tuple of a translated request

A request that is translated to a backend goes out with the client's address and port, and
addressed to the backend.  The parser accepts headers that announce less than their 20
bytes; then the ports and the L4 checksum are written over the addresses.

* `be16At_rewriteOf` — a translated frame word by word, for every header length;
* `SameFlow` — what the tuple and the other bytes of the output should be;
* `TupleSafe`, `dnat_tuple_iff` — when they are;
* `short_header_misdirects` — a request with a header of 16 bytes.
-/

/-! ### Words -/

/-- The halves of an address. -/
def hiWord (addr : Ipv4Addr) : BitVec 16 := addr.extractLsb' 16 16

def loWord (addr : Ipv4Addr) : BitVec 16 := addr.extractLsb' 0 16

theorem addr_eq_iff {a b : Ipv4Addr} : a = b ↔ hiWord a = hiWord b ∧ loWord a = loWord b := by
  refine ⟨fun h => h ▸ ⟨rfl, rfl⟩, fun ⟨hhi, hlo⟩ => ?_⟩
  have hhi := congrArg BitVec.toNat hhi
  have hlo := congrArg BitVec.toNat hlo
  have ha := a.isLt
  have hb := b.isLt
  simp only [hiWord, loWord, BitVec.extractLsb'_toNat, Nat.shiftRight_eq_div_pow] at hhi hlo
  apply BitVec.eq_of_toNat_eq
  omega

theorem hiWord_addrAt (b : Bytes) (i : Nat) : hiWord (addrAt b i) = be16At b i := by
  apply BitVec.eq_of_getLsbD_eq
  intro j hj
  simp only [hiWord, addrAt, be16At, ipv4OfOctets, fromBeBytes, BitVec.getLsbD_append,
    BitVec.getLsbD_extractLsb']
  grind

theorem loWord_addrAt (b : Bytes) (i : Nat) : loWord (addrAt b i) = be16At b (i + 2) := by
  apply BitVec.eq_of_getLsbD_eq
  intro j hj
  simp only [loWord, addrAt, be16At, ipv4OfOctets, fromBeBytes, BitVec.getLsbD_append,
    BitVec.getLsbD_extractLsb']
  grind

/-- A word read where words are written. -/
theorem be16At_patch {b : Bytes} {off : Nat} (n : BitVec 16) (hlen : off + 2 ≤ b.length) {o : Nat}
    (ho : o % 2 = 0) (hoff : off % 2 = 0) :
    be16At (b.patch off (toBeBytes n)) o = if o = off then n else be16At b o := by
  by_cases h : o = off
  · rw [if_pos h, h, be16At_patch_self n hlen]
  · have hpatch : AgreesOutside off (off + 2) b (b.patch off (toBeBytes n)) :=
      .patch hlen le_rfl le_rfl
    rw [if_neg h, hpatch.be16At (by omega)]

/-- A word read where an address is written. -/
theorem be16At_patch_octets {b : Bytes} {off : Nat} (addr : Ipv4Addr) (hlen : off + 4 ≤ b.length)
    {o : Nat} (ho : o % 2 = 0) (hoff : off % 2 = 0) :
    be16At (b.patch off (octets addr)) o =
      if o = off then hiWord addr else if o = off + 2 then loWord addr else be16At b o := by
  have hself : addrAt (b.patch off (octets addr)) off = addr := addrAt_patch_self addr hlen
  by_cases h : o = off
  · rw [if_pos h, h, ← hiWord_addrAt, hself]
  by_cases h' : o = off + 2
  · rw [if_neg h, if_pos h', h', ← loWord_addrAt, hself]
  · have hpatch : AgreesOutside off (off + 4) b (b.patch off (octets addr)) :=
      .patch hlen le_rfl le_rfl
    rw [if_neg h, if_neg h', hpatch.be16At (by omega)]

/-! ### The translated frame, word by word -/

section

variable {frame : Frame} {ihl : Nat} {address : Ipv4Addr} {port : Port}

/-- The frame before its L4 checksum: the port is written last, over whatever lies there. -/
theorem be16At_translated (address : Ipv4Addr) (port : Port) (hlen : 34 ≤ frame.length)
    (hfour : ihl % 4 = 0)
    (hproto : frame.byteAt 23 = 6 ∨ frame.byteAt 23 = 17) (hports : 14 + ihl + 4 ≤ frame.length)
    {o : Nat} (ho : o % 2 = 0) (hsum : o ≠ 24) :
    be16At (translated frame ihl none (some address) none (some port)) o =
      if o = 14 + ihl + 2 then port else if o = 30 then hiWord address
      else if o = 32 then loWord address else be16At frame o := by
  have h5 := addressesRewritten_readdressed ihl none (some address) hlen
  have hlen5 : 14 + ihl + 2 + 2 ≤ (readdressed frame ihl none (some address)).length := by
    rw [h5.length]
    exact hports
  have ht : translated frame ihl none (some address) none (some port) =
      (readdressed frame ihl none (some address)).patch (14 + ihl + 2) (toBeBytes port) :=
    if_pos hproto
  have hlen2 := length_withAddresses none (some address) hlen
  have hheader := agreesOutside_withHeaderChecksum (withAddresses frame none (some address)) ihl
    (by omega)
  have haddr : withAddresses frame none (some address) = frame.patch 30 (octets address) := rfl
  rw [ht, be16At_patch port hlen5 ho (by omega), readdressed, hheader.be16At (by omega), haddr,
    be16At_patch_octets address (by omega) ho (by decide)]

/-- The L4 checksum is written into the translated frame. -/
def Written (frame : Frame) (ihl : Nat) (address : Ipv4Addr) (port : Port) : Prop :=
  HasSegment (translated frame ihl none (some address) none (some port)) ihl

/-- The L4 checksum that is written. -/
def writtenSum (frame : Frame) (ihl : Nat) (address : Ipv4Addr) (port : Port) : BitVec 16 :=
  storedChecksum (frame.byteAt 23) (l4Checksum
    (translated frame ihl none (some address) none (some port)) ihl (frame.byteAt 23))

instance : Decidable (Written frame ihl address port) :=
  inferInstanceAs (Decidable (HasSegment _ _))

/-- **A word of a frame that is translated to a backend**: the L4 checksum goes over the port,
    the port over the address, the address over what was there. -/
theorem be16At_rewriteOf (hlen : 34 ≤ frame.length) (hfour : ihl % 4 = 0)
    (hproto : frame.byteAt 23 = 6 ∨ frame.byteAt 23 = 17) (hports : 14 + ihl + 4 ≤ frame.length)
    (hroom : RewriteRoom frame ihl none (some address) none (some port)) {o : Nat}
    (ho : o % 2 = 0) (hsum : o ≠ 24) :
    be16At (rewriteOf frame ihl none (some address) none (some port)) o =
      if Written frame ihl address port ∧ o = 14 + ihl + l4Field (frame.byteAt 23) then
        writtenSum frame ihl address port
      else if o = 14 + ihl + 2 then port else if o = 30 then hiWord address
      else if o = 32 then loWord address else be16At frame o := by
  have htranslated := be16At_translated address port hlen hfour hproto hports ho hsum
  have heven : l4Field (frame.byteAt 23) % 2 = 0 := by
    rw [l4Field]
    split <;> rfl
  rw [← htranslated, rewriteOf, withL4Checksum]
  by_cases hw : Written frame ihl address port
  · have hfield := (hroom hproto).2.2 hw
    have hlen6 := length_translated hlen hroom
    rw [if_pos ⟨hproto, hw⟩, be16At_patch _ (by omega) ho (by omega)]
    by_cases hoff : o = 14 + ihl + l4Field (frame.byteAt 23)
    · rw [if_pos hoff, if_pos ⟨hw, hoff⟩]
      rfl
    · rw [if_neg hoff, if_neg fun h => hoff h.2]
  · rw [if_neg fun h => hw h.2, if_neg fun h => hw h.1]

/-- The destination port is where it was asked for. -/
theorem dstPort_rewriteOf (hlen : 34 ≤ frame.length)
    (hproto : frame.byteAt 23 = 6 ∨ frame.byteAt 23 = 17)
    (hroom : RewriteRoom frame ihl none (some address) none (some port)) :
    be16At (rewriteOf frame ihl none (some address) none (some port)) (14 + ihl + 2) = port := by
  have hr := agreesBelow_rewriteOf hlen hroom
  have h6 := portsRewritten_translated ihl none (some address) hlen
    fun hproto => ⟨(hroom hproto).1, (hroom hproto).2.1⟩
  rw [be16At_congr fun i _ _ => hr.byteAt i (by omega)]
  exact h6.dstPort hproto

/-- The bytes that a translation to a backend may write. -/
def DnatField (ihl : Nat) (protocol : Byte) (i : Nat) : Prop :=
  i < 6 ∨ 24 ≤ i ∧ i < 34 ∨ 14 + ihl ≤ i ∧ i < 14 + ihl + 4 ∨
    14 + ihl + l4Field protocol ≤ i ∧ i < 14 + ihl + l4Field protocol + 2

theorem not_touched {protocol : Byte} {i : Nat} (hi : ¬ DnatField ihl protocol i) :
    ¬ Touched ihl protocol none (some address) none (some port) i := by
  intro h
  refine hi ?_
  rcases h with h | ⟨h, -⟩ | ⟨-, h⟩ | ⟨-, ⟨h, -⟩ | ⟨-, h⟩ | h⟩
  · exact .inr (.inl ⟨h.1, by omega⟩)
  · cases h
  · exact .inr (.inl ⟨by omega, h.2⟩)
  · cases h
  · exact .inr (.inr (.inl ⟨by omega, h.2⟩))
  · exact .inr (.inr (.inr h))

end

/-! ### When the tuple is the one asked for -/

/-- A TCP or UDP request that is rewritten without a panic. -/
structure Translatable (frame : Frame) (address : Ipv4Addr) (port : Port) : Prop where
  ipv4 : IsIpv4 frame
  proto : frame.byteAt 23 = 6 ∨ frame.byteAt 23 = 17
  room : RewriteRoom frame (ihlOf frame) none (some address) none (some port)

/-- What becomes of it. -/
def backendFrame (frame : Frame) (address : Ipv4Addr) (port : Port) : Frame :=
  rewriteOf frame (ihlOf frame) none (some address) none (some port)

/-- The writes that follow that of the address leave the addresses and the client's port
    right: a header of 20 bytes or more has the ports and the L4 checksum behind it, and a
    shorter one has what is written there in place already. -/
structure TupleSafe (frame : Frame) (address : Ipv4Addr) (port : Port) : Prop where
  /-- The port is written over the second half of the source address. -/
  port12 : ihlOf frame = 12 → port = be16At frame 28
  /-- The address is written over both ports, and the port over its second half. -/
  port16 : ihlOf frame = 16 → port = loWord address
  addr16 : ihlOf frame = 16 → hiWord address = be16At frame 30
  /-- The TCP checksum is written over the first half of the destination address. -/
  sum0 : ihlOf frame = 0 → frame.byteAt 23 = 6 → Written frame (ihlOf frame) address port →
    writtenSum frame (ihlOf frame) address port = hiWord address
  /-- The UDP checksum is written over the second half of the source address. -/
  sum8 : ihlOf frame = 8 → frame.byteAt 23 = 17 → Written frame (ihlOf frame) address port →
    writtenSum frame (ihlOf frame) address port = be16At frame 28
  /-- The UDP checksum is written over the second half of the destination address. -/
  sum12 : ihlOf frame = 12 → frame.byteAt 23 = 17 → Written frame (ihlOf frame) address port →
    writtenSum frame (ihlOf frame) address port = loWord address

theorem ihlOf_mod (frame : Frame) : ihlOf frame % 4 = 0 := Nat.mul_mod_left _ _

/-- A whole header keeps the ports and the checksum off the addresses. -/
theorem tupleSafe_of_header {frame : Frame} (address : Ipv4Addr) (port : Port)
    (h : 20 ≤ ihlOf frame) : TupleSafe frame address port where
  port12 _ := by omega
  port16 _ := by omega
  addr16 _ := by omega
  sum0 _ := by omega
  sum8 _ := by omega
  sum12 _ := by omega

/-- The place of the L4 checksum, by protocol. -/
theorem eq_field_iff {protocol : Byte} (h : protocol = 6 ∨ protocol = 17) (o ihl : Nat) :
    o = 14 + ihl + l4Field protocol ↔
      protocol = 6 ∧ o = 30 + ihl ∨ protocol = 17 ∧ o = 20 + ihl := by
  rcases h with rfl | rfl
  · have hfield : l4Field 6 = 16 := rfl
    rw [hfield]
    exact ⟨fun h => .inl ⟨rfl, by omega⟩, fun h => h.elim (fun h => by omega) fun h => nomatch h.1⟩
  · have hfield : l4Field 17 = 6 := rfl
    rw [hfield]
    exact ⟨fun h => .inr ⟨rfl, by omega⟩, fun h => h.elim (fun h => nomatch h.1) fun h => by omega⟩

namespace Translatable

variable {frame : Frame} {address : Ipv4Addr} {port : Port} (h : Translatable frame address port)

include h

theorem ports : 14 + ihlOf frame + 4 ≤ frame.length := (h.room h.proto).2.1 rfl

theorem word {o : Nat} (ho : o % 2 = 0) (hsum : o ≠ 24) :
    be16At (backendFrame frame address port) o =
      if Written frame (ihlOf frame) address port ∧
          (frame.byteAt 23 = 6 ∧ o = 30 + ihlOf frame ∨
            frame.byteAt 23 = 17 ∧ o = 20 + ihlOf frame) then
        writtenSum frame (ihlOf frame) address port
      else if o = 14 + ihlOf frame + 2 then port else if o = 30 then hiWord address
      else if o = 32 then loWord address else be16At frame o :=
  (be16At_rewriteOf h.ipv4.1 (ihlOf_mod frame) h.proto h.ports h.room ho hsum).trans
    (if_congr (and_congr_right fun _ => eq_field_iff h.proto o (ihlOf frame)) rfl rfl)

/-- The first half of the source address is never written. -/
theorem word26 : be16At (backendFrame frame address port) 26 = be16At frame 26 := by
  have hfour := ihlOf_mod frame
  rw [h.word (by decide) (by decide), if_neg (by omega), if_neg (by omega), if_neg (by decide),
    if_neg (by decide)]

theorem word28_iff : be16At (backendFrame frame address port) 28 = be16At frame 28 ↔
    (ihlOf frame = 12 → port = be16At frame 28) ∧
      (ihlOf frame = 8 → frame.byteAt 23 = 17 → Written frame (ihlOf frame) address port →
        writtenSum frame (ihlOf frame) address port = be16At frame 28) := by
  have hfour := ihlOf_mod frame
  rw [h.word (by decide) (by decide)]
  grind

theorem word30_iff : be16At (backendFrame frame address port) 30 = hiWord address ↔
    (ihlOf frame = 0 → frame.byteAt 23 = 6 → Written frame (ihlOf frame) address port →
      writtenSum frame (ihlOf frame) address port = hiWord address) := by
  have hfour := ihlOf_mod frame
  rw [h.word (by decide) (by decide)]
  grind

theorem word32_iff : be16At (backendFrame frame address port) 32 = loWord address ↔
    (ihlOf frame = 16 → port = loWord address) ∧
      (ihlOf frame = 12 → frame.byteAt 23 = 17 → Written frame (ihlOf frame) address port →
        writtenSum frame (ihlOf frame) address port = loWord address) := by
  have hfour := ihlOf_mod frame
  rw [h.word (by decide) (by decide)]
  grind

/-- The client's port lies under the address in a header of 16 bytes. -/
theorem srcPort_iff : be16At (backendFrame frame address port) (14 + ihlOf frame) =
    be16At frame (14 + ihlOf frame) ↔
      (ihlOf frame = 16 → hiWord address = be16At frame 30) := by
  have hfour := ihlOf_mod frame
  rw [h.word (by omega) (by omega)]
  grind

theorem dstPort : be16At (backendFrame frame address port) (14 + ihlOf frame + 2) = port :=
  dstPort_rewriteOf h.ipv4.1 h.proto h.room

theorem length : (backendFrame frame address port).length = frame.length :=
  length_rewriteOf h.ipv4.1 h.room

/-- A byte that no field covers, as it was. -/
theorem byteAt {i : Nat} (hi : ¬ DnatField (ihlOf frame) (frame.byteAt 23) i) :
    (backendFrame frame address port).byteAt i = frame.byteAt i :=
  byteAt_rewriteOf h.ipv4.1 h.room (not_touched hi)

/-- The fields that the parser checks are not written, however short the header is. -/
theorem byteAt_header {i : Nat} (hi : i < 16 ∨ i = 23) :
    (backendFrame frame address port).byteAt i = frame.byteAt i := by
  have hfour := ihlOf_mod frame
  refine byteAt_rewriteOf h.ipv4.1 h.room fun ht => ?_
  have hfield := eq_field_iff h.proto (14 + ihlOf frame + l4Field (frame.byteAt 23)) (ihlOf frame)
  rcases ht with ht | ⟨ht, -⟩ | ht | ⟨-, ⟨ht, -⟩ | ht | ht⟩
  · omega
  · cases ht
  · omega
  · cases ht
  · omega
  · rcases hfield.mp rfl with hfield | hfield
    · omega
    · omega

/-- It is parsed, and its header is found where that of the request was. -/
theorem isIpv4 : IsIpv4 (backendFrame frame address port) ∧
    ihlOf (backendFrame frame address port) = ihlOf frame :=
  isIpv4_of_sameHeader h.ipv4 h.length (be16At_congr fun i _ _ => h.byteAt_header (by omega))
    (h.byteAt_header (by omega))

/-- **The tuple of the translated frame** is the one asked for exactly when no later write
    spoils it. -/
theorem tuple_iff {wire : FlowTuple} (hwire : wireOf frame = some wire) :
    wireOf (backendFrame frame address port) =
        some { wire with dst := .v4 address, dstPort := port } ↔
      TupleSafe frame address port := by
  obtain ⟨-, protocol, hprotocol, rfl⟩ := wireOf_eq_some.mp hwire
  have hfour := ihlOf_mod frame
  have hproto : protocol = .tcp ∨ protocol = .udp := (hasPorts_iff hprotocol).mpr h.proto
  obtain ⟨hip, hihl⟩ := h.isIpv4
  have hwire' := wireOf_of_protocol (backendFrame frame address port) hip (by
    rw [h.byteAt_header (.inr rfl), hprotocol])
  have hroom : 14 + ihlOf frame + 4 ≤ (backendFrame frame address port).length := by
    rw [h.length]
    exact h.ports
  rw [hwire', Option.some.injEq, tupleOf, tupleOf, FlowTuple.mk.injEq]
  simp only [ipv4Of, hihl, portsOf_of_room hproto hroom, portsOf_of_room hproto h.ports,
    IpAddr.v4.injEq, h.dstPort, and_true]
  rw [addr_eq_iff, addr_eq_iff (b := address), hiWord_addrAt, loWord_addrAt, hiWord_addrAt,
    loWord_addrAt, hiWord_addrAt, loWord_addrAt, h.word28_iff, h.word30_iff, h.word32_iff,
    h.srcPort_iff, and_iff_right h.word26]
  constructor
  · rintro ⟨⟨port12, sum8⟩, addr16, sum0, port16, sum12⟩
    exact ⟨port12, port16, addr16, sum0, sum8, sum12⟩
  · rintro ⟨port12, port16, addr16, sum0, sum8, sum12⟩
    exact ⟨⟨port12, sum8⟩, addr16, sum0, port16, sum12⟩

end Translatable

/-! ### The request that goes out -/

/-- What a translated request should be: the client's address and port, the backend's, and
    nothing changed but the destination MAC, addresses, ports and checksums. -/
structure SameFlow (frame : Frame) (wire : FlowTuple) (address : Ipv4Addr) (port : Port)
    (out : Frame) : Prop where
  tuple : wireOf out = some { wire with dst := .v4 address, dstPort := port }
  length : out.length = frame.length
  unchanged : ∀ i, ¬ DnatField (ihlOf frame) (frame.byteAt 23) i → out.byteAt i = frame.byteAt i

variable {hash : FlowTuple → BitVec 64} {localNode : NodeId} {s : State}

/-- A frame that is translated and sent on was rewritten and forwarded. -/
theorem exists_forward {frame : Frame} {now : Nat} {wire : FlowTuple} {address : Ipv4Addr}
    {port : Port} {decision : Decision} (hdnat : dnatOf hash s frame = some (wire, address, port))
    (hdecide : (decide hash localNode now s frame).1 = .ok decision) :
    ∃ r, rewriteIpv4 frame (ihlOf frame) none (some address) none (some port) = .ok r ∧
      forward hash localNode (record s now wire (wire.reply address port)) r = .ok decision := by
  obtain ⟨hwire, hindex, htarget⟩ := dnatOf_eq_some.mp hdnat
  rw [decide, parseWire_eq, hwire] at hdecide
  simp only [Option.map_some, translate_of_target hindex htarget, rewritten] at hdecide
  cases hr : rewriteIpv4 frame (ipv4Of frame).ihl none (some address) none (some port) with
  | error p =>
    rw [hr] at hdecide
    cases hdecide
  | ok r =>
    rw [hr] at hdecide
    exact ⟨r, hr, hdecide⟩

/-- The destination MAC is not part of the 5-tuple. -/
theorem wireOf_of_agrees {b c : Frame} (h : AgreesOutside 0 6 b c) : wireOf c = wireOf b := by
  have hihl : ihlOf c = ihlOf b := by rw [ihlOf, ihlOf, h.byteAt 14 (by omega)]
  have hports : ∀ protocol, portsOf c protocol (14 + ihlOf b) =
      portsOf b protocol (14 + ihlOf b) := by
    intro protocol
    rw [portsOf, portsOf, h.length, h.be16At (.inr (by omega)), h.be16At (.inr (by omega))]
  have hip : IsIpv4 c ↔ IsIpv4 b := by
    rw [IsIpv4, IsIpv4, h.length, h.be16At (.inr (by omega)), h.byteAt 14 (by omega), hihl]
  have hipv4 : ipv4Of c = ipv4Of b := by
    rw [ipv4Of, ipv4Of, hihl, h.byteAt 23 (by omega), h.addrAt (.inr (by omega)),
      h.addrAt (.inr (by omega))]
  have htuple : tupleOf c (ipv4Of b) = tupleOf b (ipv4Of b) := by
    funext protocol
    have hp : portsOf c protocol (14 + (ipv4Of b).ihl) = portsOf b protocol (14 + (ipv4Of b).ihl) :=
      hports protocol
    rw [tupleOf, tupleOf, hp]
  rw [wireOf, wireOf, hipv4, htuple, h.byteAt 23 (by omega)]
  exact if_congr hip rfl rfl

/-- **DNAT and the tuple.** A request that is translated and sent on has the tuple asked for,
    and its other bytes, exactly when no later write spoils it. -/
theorem dnat_tuple_iff {frame out : Frame} {now : Nat} {wire : FlowTuple} {address : Ipv4Addr}
    {port : Port} {decision : Decision} (hdnat : dnatOf hash s frame = some (wire, address, port))
    (hproto : wire.protocol = .tcp ∨ wire.protocol = .udp)
    (hdecide : (decide hash localNode now s frame).1 = .ok decision)
    (hout : decision.frame? = some out) :
    SameFlow frame wire address port out ↔ TupleSafe frame address port := by
  have hwire := (dnatOf_eq_some.mp hdnat).1
  obtain ⟨hip, protocol, hprotocol, htuple⟩ := wireOf_eq_some.mp hwire
  obtain ⟨r, hr, hforward⟩ := exists_forward hdnat hdecide
  have hihl := ihlOf_le frame
  have hrewrite := exactly_rewrite none (some address) none (some port) hip.1 hip.2.2.2
    (show ihlOf frame ≤ 65535 by omega)
  have hbyte : frame.byteAt 23 = 6 ∨ frame.byteAt 23 = 17 := by
    rw [← htuple] at hproto
    exact (hasPorts_iff hprotocol).mp hproto
  have h : Translatable frame address port := ⟨hip, hbyte, hrewrite.cond r hr⟩
  have hbackend : r = backendFrame frame address port := hrewrite.of_eq hr
  have hsent : AgreesOutside 0 6 (backendFrame frame address port) out := by
    rw [← hbackend]
    exact (exactly_forward hash localNode _ r).of_eq hforward out hout
  constructor
  · intro hsame
    rw [← h.tuple_iff hwire, ← wireOf_of_agrees hsent]
    exact hsame.tuple
  · intro hsafe
    refine ⟨?_, hsent.length.trans h.length, fun i hi => ?_⟩
    · rw [wireOf_of_agrees hsent]
      exact (h.tuple_iff hwire).mpr hsafe
    · rw [hsent.byteAt i fun h => hi (.inl h.2)]
      exact h.byteAt hi

/-! ### A header that is too short -/

/-- A service on one backend, and a route for everything to a local interface. -/
def routedService (last : Byte) (port : Port) : State :=
  { State.default with
    services := KeyMap.empty.insert ⟨.v4 (hostAddr last), port, .tcp⟩
      ⟨⟨.v4 (hostAddr last), port, .tcp⟩, [webBackend 2]⟩
    routes := [(.v4 0 0, [⟨.v4 0 0, .local 1, 1⟩])] }

/-- One route for everything takes every frame. -/
theorem forward_default (hash : FlowTuple → BitVec 64) (localNode : NodeId) {frame : Frame}
    (hip : IsIpv4 frame)
    (hroutes : s.routes = [(.v4 0 0, [⟨.v4 0 0, .local 1, 1⟩])]) (hmac : s.interfaces 1 = none) :
    forward hash localNode s frame = .ok (.deliver 1 frame) := by
  have hcontains : ∀ a : Ipv4Addr, (IpNet.v4 0 0).contains (.v4 a) = true := fun a =>
    decide_eq_true ⟨Nat.zero_le _, Nat.le_pred_of_lt a.isLt⟩
  have hbest : ∀ a : Ipv4Addr, bestGroup s.routes (.v4 a) =
      some (0, [⟨.v4 0 0, .local 1, 1⟩]) := fun a => by
    rw [hroutes]
    show (if (IpNet.v4 0 0).contains (.v4 a) && true then some (0, [_]) else none) = _
    rw [hcontains]
    rfl
  have hroute : ∀ a flow, lookupRoute hash s.routes (.v4 a) flow =
      .ok (some ⟨.v4 0 0, .local 1, 1⟩) := fun a flow => by
    obtain ⟨r, hr, hselect⟩ := selectRoute_mem (List.cons_ne_nil _ _)
      (show totalWeight [⟨.v4 0 0, .local 1, 1⟩] < 2 ^ 32 by decide) hash flow
    rw [lookupRoute_of_some (hbest a), hselect, List.mem_singleton.mp hr]
  rw [forward, parseIpv4_eq, if_pos hip]
  show (flowOf frame (ipv4Of frame) _ >>= _) = _
  rw [flowOf_eq]
  show (lookupRoute hash s.routes (.v4 (addrAt frame 30)) _ >>= _) = _
  have hnone : (s.interfaces 1).bind (·.mac) = none := by rw [hmac, Option.bind_none]
  rw [hroute]
  simp only [bind, Except.bind, hnone]
  rfl

/-- A request for the service goes to the backend's frame, whatever that says. -/
theorem decide_routedService (localNode : NodeId) {frame : Frame} {wire : FlowTuple} {last : Byte}
    {p : Port}
    (now : Nat) (hdnat : dnatOf hash (routedService last p) frame = some (wire, hostAddr 2, 8080))
    (h : Translatable frame (hostAddr 2) 8080) :
    (decide hash localNode now (routedService last p) frame).1 =
      .ok (.deliver 1 (backendFrame frame (hostAddr 2) 8080)) := by
  obtain ⟨hwire, hindex, htarget⟩ := dnatOf_eq_some.mp hdnat
  have hihl := ihlOf_le frame
  obtain ⟨_, hr, rfl⟩ := (exactly_rewrite none (some (hostAddr 2)) none (some 8080) h.ipv4.1
    h.ipv4.2.2.2 (show ihlOf frame ≤ 65535 by omega)).returns h.room
  rw [decide, parseWire_eq, hwire]
  simp only [Option.map_some, translate_of_target hindex htarget, rewritten]
  have hrewrite : rewriteIpv4 frame (ipv4Of frame).ihl none (some (hostAddr 2)) none (some 8080) =
      .ok (backendFrame frame (hostAddr 2) 8080) := hr
  rw [hrewrite]
  exact forward_default hash localNode h.isIpv4.1 rfl rfl

theorem translatable_of_fits {frame : Frame} {address : Ipv4Addr} {port : Port}
    (hip : IsIpv4 frame) (hproto : frame.byteAt 23 = 6 ∨ frame.byteAt 23 = 17)
    (hfits : L4Fits frame (ihlOf frame) none (some port)) : Translatable frame address port where
  ipv4 := hip
  proto := hproto
  room := by
    have hfour := ihlOf_mod frame
    exact (rewriteRoom_iff none (some address) hip.1 (by omega)).mpr hfits

/-- A request with a whole header goes to the backend. -/
theorem dnat_tuple_webRequest :
    TupleSafe (webRequest 100) (hostAddr 2) 8080 ∧
      SameFlow (webRequest 100) (webFlow 100) (hostAddr 2) 8080
        (backendFrame (webRequest 100) (hostAddr 2) 8080) := by
  have hdnat : dnatOf (fun _ => 0) (routedService 100 80) (webRequest 100) =
      some (webFlow 100, hostAddr 2, 8080) :=
    dnatOf_of_single (wireOf_webRequest 100) rfl rfl rfl rfl
  have h : Translatable (webRequest 100) (hostAddr 2) 8080 :=
    translatable_of_fits (by decide) (by decide) (by unfold L4Fits; decide)
  have hsafe : TupleSafe (webRequest 100) (hostAddr 2) 8080 :=
    tupleSafe_of_header (hostAddr 2) 8080 (by decide)
  have hiff := dnat_tuple_iff hdnat (.inl rfl) (decide_routedService ⟨0⟩ 0 hdnat h) rfl
  exact ⟨hsafe, hiff.mpr hsafe⟩

/-- A request whose header announces 16 bytes: its ports are the destination address. -/
def shortRequest : Frame := (webRequest 100).patch 14 [0x44]

def shortFlow : FlowTuple := ⟨.v4 (hostAddr 1), 0x0A00, .v4 (hostAddr 100), 100, .tcp⟩

/-- The request goes out to 10.0.31.144: the backend's port has replaced half of its address. -/
theorem short_header_misdirects : ¬ ∀ (hash : FlowTuple → BitVec 64) (localNode : NodeId)
    (now : Nat) (s : State) (frame out : Frame) (wire : FlowTuple) (address : Ipv4Addr)
    (port : Port) (decision : Decision), dnatOf hash s frame = some (wire, address, port) →
      wire.protocol = .tcp ∨ wire.protocol = .udp →
      (decide hash localNode now s frame).1 = .ok decision → decision.frame? = some out →
        SameFlow frame wire address port out := by
  intro hall
  have hwire : wireOf shortRequest = some shortFlow := by decide
  have hdnat : dnatOf (fun _ => 0) (routedService 100 100) shortRequest =
      some (shortFlow, hostAddr 2, 8080) := dnatOf_of_single hwire rfl rfl rfl rfl
  have h : Translatable shortRequest (hostAddr 2) 8080 :=
    translatable_of_fits (by decide) (by decide) (by unfold L4Fits; decide)
  have hsame := hall _ ⟨0⟩ 0 _ _ _ _ _ _ _ hdnat (.inl rfl) (decide_routedService ⟨0⟩ 0 hdnat h) rfl
  have hport := ((h.tuple_iff hwire).mp hsame.tuple).port16 (by decide)
  exact absurd hport (by decide)

end Sarena.Soft
