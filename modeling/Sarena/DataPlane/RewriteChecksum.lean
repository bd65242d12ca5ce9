import Sarena.DataPlane.Rewrite

namespace Sarena.Soft

open Lib

/-!
# Soft data plane — the checksums of a rewritten frame

On a frame whose length fields agree with it, `rewrite_ipv4` puts the new addresses and
ports in place, leaves checksums behind that verify, and touches no other byte.

* `WellFormed` — the frames meant, and `wellFormed_room`: they have room for the rewrite;
* `verifies_header`, `verifies_segment` — each checksum among the words that it is taken
  over;
* `rewriteIpv4_correct`.
-/

variable {frame : Frame} {ihl : Nat} {newSrcAddr newDstAddr : Option Ipv4Addr}
  {newSrcPort newDstPort : Option Port}

/-- The IPv4 header of the frame has its 20 bytes, the length it announces lies within the
    frame, and a TCP or UDP header fits in what follows it. -/
structure WellFormed (frame : Frame) (ihl : Nat) : Prop where
  header : 20 ≤ ihl
  segment : ihl ≤ (be16At frame 16).toNat
  total : 14 + (be16At frame 16).toNat ≤ frame.length
  tcp : frame.byteAt 23 = 6 → ihl + 20 ≤ (be16At frame 16).toNat
  udp : frame.byteAt 23 = 17 → ihl + 8 ≤ (be16At frame 16).toNat

namespace WellFormed

variable (h : WellFormed frame ihl)

include h

theorem length_le : 34 ≤ frame.length := by
  have := h.header
  have := h.segment
  have := h.total
  omega

theorem ihl_le : 14 + ihl ≤ frame.length := by
  have := h.segment
  have := h.total
  omega

theorem ihl_lt : ihl ≤ 65535 := by
  have := h.segment
  have := (be16At frame 16).isLt
  omega

/-- The L4 checksum lies in the segment. -/
theorem field_le (hproto : frame.byteAt 23 = 6 ∨ frame.byteAt 23 = 17) :
    ihl + l4Field (frame.byteAt 23) + 2 ≤ (be16At frame 16).toNat := by
  rcases hproto with htcp | hudp
  · have := h.tcp htcp
    rw [htcp, l4Field, if_pos rfl]
    omega
  · have := h.udp hudp
    rw [hudp, l4Field, if_neg (by decide)]
    omega

theorem ports_le (hproto : frame.byteAt 23 = 6 ∨ frame.byteAt 23 = 17) :
    14 + ihl + 4 ≤ frame.length := by
  have hfield := h.field_le hproto
  have htotal := h.total
  have hsix : 6 ≤ l4Field (frame.byteAt 23) := by
    rw [l4Field]
    split <;> omega
  omega

/-- There is room for the rewrite. -/
theorem room (newSrcAddr newDstAddr : Option Ipv4Addr) (newSrcPort newDstPort : Option Port) :
    RewriteRoom frame ihl newSrcAddr newDstAddr newSrcPort newDstPort := by
  intro hproto
  have hports := h.ports_le hproto
  have hfield := h.field_le hproto
  have htotal := h.total
  exact ⟨fun _ => by omega, fun _ => by omega, fun _ => by omega⟩

end WellFormed

/-! ### The checksums -/

/-- **The header checksum** verifies once it is written. -/
theorem verifies_header (hlen : 14 + ihl ≤ frame.length) (hihl : 20 ≤ ihl) :
    Verifies (headerOf (withHeaderChecksum frame ihl) ihl) := by
  have hin : ∀ src : Bytes, src.length = 2 →
      headerOf (frame.patch 24 src) ihl = (headerOf frame ihl).patch 10 src := fun src hsrc =>
    Bytes.take_drop_patch 10 hlen (by omega)
  have hheader : (headerOf frame ihl).length = ihl := Bytes.length_take_drop hlen
  rw [withHeaderChecksum, hin _ rfl, hin _ rfl]
  exact verifies_patch (by decide) (by omega)

/-- What a checksum that is stored makes of a buffer: a zero may be stored as all ones. -/
theorem verifies_stored {b : Bytes} {off : Nat} (protocol : Byte) (heven : off % 2 = 0)
    (hlen : off + 2 ≤ b.length) :
    Verifies (b.patch off (toBeBytes (storedChecksum protocol
      (BitVec.ofNat 16 (checksumOf (b.patch off [0, 0])))))) := by
  rw [storedChecksum]
  by_cases hzero : protocol = 17 ∧ BitVec.ofNat 16 (checksumOf (b.patch off [0, 0])) = 0
  · rw [if_pos hzero]
    refine verifies_patch_top heven hlen ?_
    have hnat := congrArg BitVec.toNat hzero.2
    rwa [BitVec.toNat_ofNat, Nat.mod_eq_of_lt (checksumOf_lt _)] at hnat
  · rw [if_neg hzero]
    exact verifies_patch heven hlen

/-- What the L4 checksum of a frame is taken over, its field included. -/
def l4Summed (frame : Frame) (ihl : Nat) (protocol : Byte) : Bytes :=
  pseudoHeader frame ihl protocol ++ segmentOf frame ihl (segmentLen frame ihl)

/-- The frame has a segment with the checksum field of the protocol in it. -/
structure HasField (frame : Frame) (ihl : Nat) (protocol : Byte) : Prop where
  header : 20 ≤ ihl
  segment : HasSegment frame ihl
  field : l4Field protocol + 2 ≤ segmentLen frame ihl

namespace HasField

variable {protocol : Byte} (h : HasField frame ihl protocol)

include h

theorem segment_le : 14 + ihl + segmentLen frame ihl ≤ frame.length := by
  have h1 := h.segment.1
  have h2 := h.segment.2
  rw [segmentLen]
  omega

theorem field_le : 14 + ihl + l4Field protocol + 2 ≤ frame.length := by
  have h1 := h.segment_le
  have h2 := h.field
  omega

theorem length_pseudoHeader : (pseudoHeader frame ihl protocol).length = 12 := by
  have h1 := h.field_le
  have h2 := h.header
  exact Soft.length_pseudoHeader ihl protocol (by omega)

theorem length_l4Summed : (l4Summed frame ihl protocol).length = 12 + segmentLen frame ihl := by
  rw [l4Summed, List.length_append, h.length_pseudoHeader, segmentOf,
    Bytes.length_take_drop h.segment_le]

/-- Writing the field leaves what is in front of the segment alone. -/
theorem agreesBelow_patch {src : Bytes} (hsrc : src.length = 2) :
    Bytes.AgreesBelow 34 frame (frame.patch (14 + ihl + l4Field protocol) src) := by
  have hheader := h.header
  have hfield := h.field_le
  exact Bytes.agreesBelow_patch (by omega) (by omega)

theorem segmentLen_patch {src : Bytes} (hsrc : src.length = 2) :
    segmentLen (frame.patch (14 + ihl + l4Field protocol) src) ihl = segmentLen frame ihl := by
  rw [segmentLen, segmentLen,
    be16At_congr fun i _ _ => (h.agreesBelow_patch hsrc).byteAt i (by omega)]

theorem pseudoHeader_patch {src : Bytes} (hsrc : src.length = 2) :
    pseudoHeader (frame.patch (14 + ihl + l4Field protocol) src) ihl protocol =
      pseudoHeader frame ihl protocol := by
  have hbelow := h.agreesBelow_patch hsrc
  have hheader := h.header
  have hfield := h.field_le
  have hrange : ∀ start, start + 4 ≤ 34 →
      ((frame.patch (14 + ihl + l4Field protocol) src).drop start).take 4 =
        (frame.drop start).take 4 := fun start _ =>
    Bytes.take_drop_congr (by rw [hbelow.length]; omega) (by omega)
      fun i _ _ => hbelow.byteAt i (by omega)
  rw [pseudoHeader, pseudoHeader, h.segmentLen_patch hsrc, hrange 26 (by omega), hrange 30 le_rfl]

/-- Writing the field writes one word of what is summed. -/
theorem l4Summed_patch {src : Bytes} (hsrc : src.length = 2) :
    l4Summed (frame.patch (14 + ihl + l4Field protocol) src) ihl protocol =
      (l4Summed frame ihl protocol).patch (12 + l4Field protocol) src := by
  have hsegment : segmentOf (frame.patch (14 + ihl + l4Field protocol) src) ihl
      (segmentLen frame ihl) =
        (segmentOf frame ihl (segmentLen frame ihl)).patch (l4Field protocol) src :=
    Bytes.take_drop_patch (l4Field protocol) h.segment_le (by rw [hsrc]; exact h.field)
  rw [l4Summed, h.pseudoHeader_patch hsrc, h.segmentLen_patch hsrc, hsegment, Bytes.append_patch,
    h.length_pseudoHeader]
  rfl

/-- The checksum is that of the bytes summed, with the field cleared. -/
theorem l4Checksum_eq : l4Checksum frame ihl protocol = BitVec.ofNat 16 (checksumOf
    ((l4Summed frame ihl protocol).patch (12 + l4Field protocol) [0, 0])) := by
  rw [l4Checksum, ← h.l4Summed_patch rfl, l4Summed, h.pseudoHeader_patch rfl,
    h.segmentLen_patch rfl]

/-- **The L4 checksum** verifies once it is stored. -/
theorem verifies_withL4Checksum (hproto : protocol = 6 ∨ protocol = 17) :
    Verifies (l4Summed (withL4Checksum frame ihl protocol) ihl protocol) := by
  have heven : (12 + l4Field protocol) % 2 = 0 := by
    rw [l4Field]
    split <;> rfl
  have hlen := h.length_l4Summed
  have hfield := h.field
  rw [withL4Checksum, if_pos ⟨hproto, h.segment⟩, h.l4Summed_patch rfl, h.l4Checksum_eq]
  exact verifies_stored protocol heven (by omega)

/-- The checksum does not depend on what is in its field. -/
theorem l4Checksum_patch {src : Bytes} (hsrc : src.length = 2) :
    l4Checksum (frame.patch (14 + ihl + l4Field protocol) src) ihl protocol =
      l4Checksum frame ihl protocol := by
  have hfits : 14 + ihl + l4Field protocol + src.length ≤ frame.length := by
    rw [hsrc]
    exact h.field_le
  have hpatch : (frame.patch (14 + ihl + l4Field protocol) src).patch
      (14 + ihl + l4Field protocol) [0, 0] = frame.patch (14 + ihl + l4Field protocol) [0, 0] :=
    Bytes.patch_patch hfits hsrc
  rw [l4Checksum, l4Checksum, h.pseudoHeader_patch hsrc, h.segmentLen_patch hsrc, hpatch]

/-- What is stored is the checksum of the frame that it is stored in. -/
theorem be16At_withL4Checksum (hproto : protocol = 6 ∨ protocol = 17) :
    be16At (withL4Checksum frame ihl protocol) (14 + ihl + l4Field protocol) =
      storedChecksum protocol (l4Checksum (withL4Checksum frame ihl protocol) ihl protocol) := by
  rw [withL4Checksum, if_pos ⟨hproto, h.segment⟩, be16At_patch_self _ h.field_le,
    h.l4Checksum_patch rfl]

end HasField

/-! ### The bytes that are touched -/

/-- The bytes that a rewrite may change: the addresses and ports that are given, and the
    checksums. -/
def Touched (ihl : Nat) (protocol : Byte) (newSrcAddr newDstAddr : Option Ipv4Addr)
    (newSrcPort newDstPort : Option Port) (i : Nat) : Prop :=
  24 ≤ i ∧ i < 26 ∨
  newSrcAddr.isSome ∧ 26 ≤ i ∧ i < 30 ∨
  newDstAddr.isSome ∧ 30 ≤ i ∧ i < 34 ∨
  (protocol = 6 ∨ protocol = 17) ∧
    (newSrcPort.isSome ∧ 14 + ihl ≤ i ∧ i < 14 + ihl + 2 ∨
      newDstPort.isSome ∧ 14 + ihl + 2 ≤ i ∧ i < 14 + ihl + 4 ∨
      14 + ihl + l4Field protocol ≤ i ∧ i < 14 + ihl + l4Field protocol + 2)

/-- A value that is given or not leaves the bytes outside its place alone. -/
theorem byteAt_patchSome {α : Type} {enc : α → Bytes} {n : Nat} (henc : ∀ a, (enc a).length = n)
    {b : Bytes} {off : Nat} {value : Option α} (hfits : value.isSome → off + n ≤ b.length) {i : Nat}
    (hi : ¬ (value.isSome ∧ off ≤ i ∧ i < off + n)) :
    (patchSome b off enc value).byteAt i = b.byteAt i := by
  cases value with
  | none => rfl
  | some a => exact (agreesOutside_patchSome henc b off hfits).byteAt i fun h => hi ⟨rfl, h⟩

theorem byteAt_readdressed (hlen : 34 ≤ frame.length) {i : Nat} (hsum : ¬ (24 ≤ i ∧ i < 26))
    (hsrc : ¬ (newSrcAddr.isSome ∧ 26 ≤ i ∧ i < 30))
    (hdst : ¬ (newDstAddr.isSome ∧ 30 ≤ i ∧ i < 34)) :
    (readdressed frame ihl newSrcAddr newDstAddr).byteAt i = frame.byteAt i := by
  have hroom : newSrcAddr.isSome → 26 + 4 ≤ frame.length := fun _ => by omega
  have h1 := (agreesOutside_patchSome length_octets frame 26 hroom).length
  have hroom' : newDstAddr.isSome → 30 + 4 ≤ (patchSome frame 26 octets newSrcAddr).length :=
    fun _ => by
      rw [h1]
      exact hlen
  have hlen2 := length_withAddresses newSrcAddr newDstAddr hlen
  rw [readdressed, (agreesOutside_withHeaderChecksum _ ihl (by omega)).byteAt i hsum, withAddresses,
    byteAt_patchSome length_octets hroom' hdst, byteAt_patchSome length_octets hroom hsrc]

theorem byteAt_withPorts {protocol : Byte} {l4Off : Nat}
    (hfits : protocol = 6 ∨ protocol = 17 →
      (newSrcPort.isSome → l4Off + 2 ≤ frame.length) ∧
        (newDstPort.isSome → l4Off + 4 ≤ frame.length)) {i : Nat}
    (hsrc : ¬ ((protocol = 6 ∨ protocol = 17) ∧ newSrcPort.isSome ∧ l4Off ≤ i ∧ i < l4Off + 2))
    (hdst : ¬ ((protocol = 6 ∨ protocol = 17) ∧
      newDstPort.isSome ∧ l4Off + 2 ≤ i ∧ i < l4Off + 4)) :
    (withPorts frame protocol l4Off newSrcPort newDstPort).byteAt i = frame.byteAt i := by
  rw [withPorts]
  by_cases hproto : protocol = 6 ∨ protocol = 17
  · obtain ⟨hroom, hroom'⟩ := hfits hproto
    have h1 := agreesOutside_patchSome length_toBeBytes frame l4Off hroom
    have hroom' : newDstPort.isSome →
        l4Off + 2 + 2 ≤ (patchSome frame l4Off toBeBytes newSrcPort).length := by rwa [h1.length]
    rw [if_pos hproto, byteAt_patchSome length_toBeBytes hroom' fun h => hdst ⟨hproto, h⟩,
      byteAt_patchSome length_toBeBytes hroom fun h => hsrc ⟨hproto, h⟩]
  · rw [if_neg hproto]

theorem byteAt_withL4Checksum {protocol : Byte}
    (hfits : protocol = 6 ∨ protocol = 17 → HasSegment frame ihl →
      14 + ihl + l4Field protocol + 2 ≤ frame.length) {i : Nat}
    (hi : ¬ ((protocol = 6 ∨ protocol = 17) ∧
      14 + ihl + l4Field protocol ≤ i ∧ i < 14 + ihl + l4Field protocol + 2)) :
    (withL4Checksum frame ihl protocol).byteAt i = frame.byteAt i := by
  rw [withL4Checksum]
  by_cases h : (protocol = 6 ∨ protocol = 17) ∧ HasSegment frame ihl
  · have hpatch : AgreesOutside (14 + ihl + l4Field protocol) (14 + ihl + l4Field protocol + 2)
        frame (frame.patch (14 + ihl + l4Field protocol)
          (toBeBytes (storedChecksum protocol (l4Checksum frame ihl protocol)))) :=
      .patch (hfits h.1 h.2) le_rfl le_rfl
    rw [if_pos h, hpatch.byteAt i fun h' => hi ⟨h.1, h'⟩]
  · rw [if_neg h]

/-- **Nothing else changes**, for a header of any length. -/
theorem byteAt_rewriteOf (hlen : 34 ≤ frame.length)
    (hroom : RewriteRoom frame ihl newSrcAddr newDstAddr newSrcPort newDstPort) {i : Nat}
    (hi : ¬ Touched ihl (frame.byteAt 23) newSrcAddr newDstAddr newSrcPort newDstPort i) :
    (rewriteOf frame ihl newSrcAddr newDstAddr newSrcPort newDstPort).byteAt i =
      frame.byteAt i := by
  simp only [Touched, not_or] at hi
  obtain ⟨hsum, hsrc, hdst, hl4⟩ := hi
  have hlen5 := (addressesRewritten_readdressed ihl newSrcAddr newDstAddr hlen).length
  have hfits : frame.byteAt 23 = 6 ∨ frame.byteAt 23 = 17 →
      (newSrcPort.isSome → 14 + ihl + 2 ≤ frame.length) ∧
        (newDstPort.isSome → 14 + ihl + 4 ≤ frame.length) :=
    fun hproto => ⟨(hroom hproto).1, (hroom hproto).2.1⟩
  have hlen6 := length_translated hlen hroom
  rw [rewriteOf, byteAt_withL4Checksum (fun hproto hseg => by
      rw [hlen6]
      exact (hroom hproto).2.2 hseg) fun h' => hl4 ⟨h'.1, .inr (.inr h'.2)⟩, translated,
    byteAt_withPorts (by rwa [hlen5]) (fun h' => hl4 ⟨h'.1, .inl h'.2⟩)
      (fun h' => hl4 ⟨h'.1, .inr (.inl h'.2)⟩),
    byteAt_readdressed hlen hsum hsrc hdst]

/-! ### The rewritten frame -/

/-- A frame rewritten as it was asked for: the new values in place, checksums that verify,
    and nothing else changed. -/
structure CorrectlyRewritten (frame : Frame) (ihl : Nat) (newSrcAddr newDstAddr : Option Ipv4Addr)
    (newSrcPort newDstPort : Option Port) (r : Frame) : Prop
    extends Rewritten frame ihl newSrcAddr newDstAddr newSrcPort newDstPort r where
  unchanged : ∀ i, ¬ Touched ihl (frame.byteAt 23) newSrcAddr newDstAddr newSrcPort newDstPort i →
    r.byteAt i = frame.byteAt i
  headerSum : Verifies (headerOf r ihl)
  l4Sum : frame.byteAt 23 = 6 ∨ frame.byteAt 23 = 17 →
    Verifies (l4Summed r ihl (frame.byteAt 23))
  stored : frame.byteAt 23 = 6 ∨ frame.byteAt 23 = 17 →
    be16At r (14 + ihl + l4Field (frame.byteAt 23)) =
      storedChecksum (frame.byteAt 23) (l4Checksum r ihl (frame.byteAt 23))

namespace WellFormed

variable (h : WellFormed frame ihl)

include h

/-- The translated frame still has its segment. -/
theorem hasField_translated (newSrcAddr newDstAddr : Option Ipv4Addr)
    (newSrcPort newDstPort : Option Port) (hproto : frame.byteAt 23 = 6 ∨ frame.byteAt 23 = 17) :
    HasField (translated frame ihl newSrcAddr newDstAddr newSrcPort newDstPort) ihl
      (frame.byteAt 23) := by
  have hheader := h.header
  have h5 := addressesRewritten_readdressed ihl newSrcAddr newDstAddr h.length_le
  have hroom := h.room newSrcAddr newDstAddr newSrcPort newDstPort hproto
  have h6 := portsRewritten_translated ihl newSrcAddr newDstAddr h.length_le
    fun _ => ⟨hroom.1, hroom.2.1⟩
  have htotal : be16At (translated frame ihl newSrcAddr newDstAddr newSrcPort newDstPort) 16 =
      be16At frame 16 := by
    rw [h6.outside.be16At (.inl (by omega)), be16At_congr fun i _ _ => h5.byteAt i (by omega)]
  have hfield := h.field_le hproto
  refine ⟨hheader, ⟨?_, ?_⟩, ?_⟩
  · rw [htotal]
    exact h.segment
  · rw [htotal, h6.outside.length, h5.length]
    exact h.total
  · rw [segmentLen, htotal]
    omega

/-- The header is summed after its last change. -/
theorem verifies_headerOf (newSrcAddr newDstAddr : Option Ipv4Addr)
    (newSrcPort newDstPort : Option Port) :
    Verifies (headerOf (rewriteOf frame ihl newSrcAddr newDstAddr newSrcPort newDstPort) ihl) := by
  have hlen := h.length_le
  have hihl := h.ihl_le
  have hroom := h.room newSrcAddr newDstAddr newSrcPort newDstPort
  have h5 := addressesRewritten_readdressed ihl newSrcAddr newDstAddr hlen
  have h6 := portsRewritten_translated ihl newSrcAddr newDstAddr hlen
    fun hproto => ⟨(hroom hproto).1, (hroom hproto).2.1⟩
  have hr := agreesBelow_rewriteOf hlen hroom
  -- What follows the header is all that changes after its checksum.
  have hheader : headerOf (rewriteOf frame ihl newSrcAddr newDstAddr newSrcPort newDstPort) ihl =
      headerOf (readdressed frame ihl newSrcAddr newDstAddr) ihl := by
    refine Bytes.take_drop_congr ?_ (by rw [h5.length]; exact hihl) fun i _ hi => ?_
    · rw [length_rewriteOf hlen hroom]
      exact hihl
    · rw [hr.byteAt i (by omega)]
      exact h6.outside.byteAt i (by omega)
  rw [hheader, readdressed]
  refine verifies_header ?_ h.header
  rw [length_withAddresses newSrcAddr newDstAddr hlen]
  exact hihl

end WellFormed

/-- **`rewrite_ipv4` is correct on well-formed frames**, whatever addresses and ports it is
    given. -/
theorem rewriteIpv4_correct (newSrcAddr newDstAddr : Option Ipv4Addr)
    (newSrcPort newDstPort : Option Port) (h : WellFormed frame ihl) :
    ∃ r, rewriteIpv4 frame ihl newSrcAddr newDstAddr newSrcPort newDstPort = .ok r ∧
      CorrectlyRewritten frame ihl newSrcAddr newDstAddr newSrcPort newDstPort r := by
  have hroom := h.room newSrcAddr newDstAddr newSrcPort newDstPort
  obtain ⟨_, hr, rfl⟩ := (exactly_rewrite newSrcAddr newDstAddr newSrcPort newDstPort h.length_le
    h.ihl_le h.ihl_lt).returns hroom
  refine ⟨_, hr, rewritten_rewriteOf h.length_le h.header hroom, fun i hi => ?_, ?_,
    fun hproto => ?_, fun hproto => ?_⟩
  · exact byteAt_rewriteOf h.length_le hroom hi
  · exact h.verifies_headerOf newSrcAddr newDstAddr newSrcPort newDstPort
  · exact (h.hasField_translated _ _ _ _ hproto).verifies_withL4Checksum hproto
  · exact (h.hasField_translated _ _ _ _ hproto).be16At_withL4Checksum hproto

/-- A UDP frame with IP options and a segment of nine bytes. -/
def optionsFrame : Frame :=
  List.replicate 12 0 ++ [0x08, 0x00] ++ [0x46, 0, 0, 33, 0, 0, 0, 0, 64, 17, 0, 0] ++
    octets (ipv4OfOctets 10 0 0 1) ++ octets (ipv4OfOctets 10 0 0 2) ++ [1, 1, 1, 0] ++
    toBeBytes 4000 ++ toBeBytes 53 ++ [0, 9, 0, 0, 0xAB]

theorem wellFormed_optionsFrame : WellFormed optionsFrame 24 where
  header := by decide
  segment := by decide
  total := by decide
  tcp := by decide
  udp := by decide

/-- The destination of `optionsFrame` replaced. -/
theorem rewriteIpv4_correct_optionsFrame :
    ∃ r, rewriteIpv4 optionsFrame 24 none (some (ipv4OfOctets 192 168 0 7)) none (some 5353) =
        .ok r ∧
      CorrectlyRewritten optionsFrame 24 none (some (ipv4OfOctets 192 168 0 7)) none
        (some 5353) r :=
  rewriteIpv4_correct _ _ _ _ wellFormed_optionsFrame

end Sarena.Soft
