import Sarena.DataPlane.Frame
import Sarena.Lib.OnesComplement

namespace Sarena.Soft

open Lib

/-!
# Soft data plane — rewriting

What `rewrite_ipv4` makes of a frame, as a sequence of writes.

* `internetChecksum_eq` — the checksum of the source is the one's-complement checksum;
* `rewriteOf`, `exactly_rewrite` — the rewritten frame stage by stage, for every header
  length, and when the source gets that far;
* `L4Fits`, `exactly_rewriteIpv4` — the frames that are long enough to be rewritten, and
  what rewriting leaves alone and changes;
* `wireOf_rewritten` — what is read off a rewritten frame.
-/

/-! ### Writes, field by field -/

theorem be16At_congr {b c : Bytes} {off : Nat}
    (h : ∀ i, off ≤ i → i < off + 2 → c.byteAt i = b.byteAt i) : be16At c off = be16At b off := by
  rw [be16At, be16At, h off le_rfl (by omega), h (off + 1) (by omega) (by omega)]

theorem addrAt_congr {b c : Bytes} {off : Nat}
    (h : ∀ i, off ≤ i → i < off + 4 → c.byteAt i = b.byteAt i) : addrAt c off = addrAt b off := by
  rw [addrAt, addrAt, h off le_rfl (by omega), h (off + 1) (by omega) (by omega),
    h (off + 2) (by omega) (by omega), h (off + 3) (by omega) (by omega)]

theorem be16At_patch_self {b : Bytes} {off : Nat} (n : BitVec 16) (h : off + 2 ≤ b.length) :
    be16At (b.patch off (toBeBytes n)) off = n := by
  have hbyte : ∀ j, j < 2 →
      (b.patch off (toBeBytes n)).byteAt (off + j) = Bytes.byteAt (toBeBytes n) j :=
    fun j hj => Bytes.byteAt_patch_add h hj
  have hfirst := hbyte 0 (by omega)
  rw [Nat.add_zero] at hfirst
  rw [be16At, hbyte 1 (by omega), hfirst]
  exact fromBeBytes_toBeBytes n

theorem addrAt_patch_self {b : Bytes} {off : Nat} (ip : Ipv4Addr) (h : off + 4 ≤ b.length) :
    addrAt (b.patch off (octets ip)) off = ip := by
  have hbyte : ∀ j, j < 4 →
      (b.patch off (octets ip)).byteAt (off + j) = Bytes.byteAt (octets ip) j :=
    fun j hj => Bytes.byteAt_patch_add h hj
  have hfirst := hbyte 0 (by omega)
  rw [Nat.add_zero] at hfirst
  rw [addrAt, hbyte 1 (by omega), hbyte 2 (by omega), hbyte 3 (by omega), hfirst]
  exact ipv4OfOctets_octets ip

/-- A buffer of the same length with the same bytes outside a range. -/
structure AgreesOutside (start stop : Nat) (b c : Bytes) : Prop where
  length : c.length = b.length
  byteAt : ∀ i, ¬ (start ≤ i ∧ i < stop) → c.byteAt i = b.byteAt i

namespace AgreesOutside

variable {start stop : Nat} {b c d : Bytes}

theorem refl (start stop : Nat) (b : Bytes) : AgreesOutside start stop b b :=
  ⟨rfl, fun _ _ => rfl⟩

theorem trans (h : AgreesOutside start stop b c) (h' : AgreesOutside start stop c d) :
    AgreesOutside start stop b d where
  length := h'.length.trans h.length
  byteAt i hi := (h'.byteAt i hi).trans (h.byteAt i hi)

theorem patch {src : Bytes} {off : Nat} (h : off + src.length ≤ b.length) (hstart : start ≤ off)
    (hstop : off + src.length ≤ stop) : AgreesOutside start stop b (b.patch off src) where
  length := Bytes.length_patch h
  byteAt i hi := by rw [Bytes.byteAt_patch h, if_neg (by omega)]

theorem be16At (h : AgreesOutside start stop b c) {i : Nat} (hi : i + 2 ≤ start ∨ stop ≤ i) :
    be16At c i = be16At b i :=
  be16At_congr fun j _ _ => h.byteAt j (by omega)

theorem addrAt (h : AgreesOutside start stop b c) {i : Nat} (hi : i + 4 ≤ start ∨ stop ≤ i) :
    addrAt c i = addrAt b i :=
  addrAt_congr fun j _ _ => h.byteAt j (by omega)

end AgreesOutside

/-! ### The checksum -/

/-- The carries of the source are folded into the end-around sum. -/
theorem foldCarries_eq (sum : Nat) : foldCarries sum = endAround 65535 sum := by
  induction sum using foldCarries.induct with
  | case1 sum h =>
    have hlt : sum < 65536 := by
      rw [Nat.shiftRight_eq_div_pow] at h
      omega
    rw [foldCarries, if_pos h, endAround_of_le (by omega)]
  | case2 sum h ih =>
    have hand : sum &&& 0xFFFF = sum % 65536 := Nat.and_two_pow_sub_one_eq_mod sum 16
    have hshift : sum >>> 16 = sum / 65536 := Nat.shiftRight_eq_div_pow sum 16
    rw [foldCarries, if_neg h, ih, hand, hshift, endAround_carry, Nat.mod_add_div]

theorem sumWords_eq (bytes : Bytes) (sum : Nat)
    (h : sum + 65535 * ((bytes.length + 1) / 2) < 2 ^ 32) :
    sumWords sum bytes = .ok (sum + wordSum bytes) := by
  induction sum, bytes using sumWords.induct with
  | case1 sum => rfl
  | case2 sum last =>
    have hlast : last.toNat <<< 8 = 256 * last.toNat := by rw [Nat.shiftLeft_eq, Nat.mul_comm]
    have hlt := last.isLt
    rw [List.length_singleton] at h
    rw [sumWords, hlast]
    exact if_pos (by omega)
  | case3 sum hi lo rest ih =>
    have hword := (fromBeBytes hi lo).isLt
    rw [List.length_cons, List.length_cons] at h
    have hadd : Checked.addU32 sum (fromBeBytes hi lo).toNat =
        .ok (sum + (fromBeBytes hi lo).toNat) := if_pos (by omega)
    rw [sumWords, hadd]
    exact (ih _ (by omega)).trans (by rw [wordSum, Nat.add_assoc])

/-- **The checksum of the source** is that of RFC 1071 and never overflows on what the data
    plane sums: at most a pseudo header and 65535 bytes. -/
theorem internetChecksum_eq {bytes : Bytes} (h : bytes.length ≤ 131070) :
    internetChecksum bytes = .ok (BitVec.ofNat 16 (checksumOf bytes)) := by
  rw [internetChecksum, sumWords_eq bytes 0 (by omega), Nat.zero_add]
  show Except.ok (~~~ BitVec.ofNat 16 (foldCarries (wordSum bytes))) = _
  have hle := endAround_le (show 0 < 65535 by decide) (wordSum bytes)
  congr 1
  apply BitVec.eq_of_toNat_eq
  rw [foldCarries_eq, checksumOf, BitVec.toNat_not, BitVec.toNat_ofNat, BitVec.toNat_ofNat]
  omega

/-! ### The stages of `rewrite_ipv4` as writes -/

section

variable {α : Type} {enc : α → Bytes} {n : Nat}

/-- The buffer with a value written at `off`, when it is given. -/
def patchSome (b : Bytes) (off : Nat) (enc : α → Bytes) (value : Option α) : Bytes :=
  value.elim b fun a => b.patch off (enc a)

/-- A value is written when it is given, and where there is room for it. -/
theorem exactly_copyIfSome (henc : ∀ a, (enc a).length = n) (frame : Frame) (off : Nat)
    (value : Option α) : Checked.Exactly (copyIfSome frame off (off + n) (value.map enc))
      (value.isSome → off + n ≤ frame.length) (· = patchSome frame off enc value) := by
  cases value with
  | none => exact (Checked.exactly_pure frame).mono (iff_of_true trivial nofun) fun _ h => h
  | some a =>
    have hcopy := Bytes.exactly_copyFromSlice frame (enc a) off (off + n) (by rw [henc])
    exact hcopy.mono ⟨fun h _ => h, fun h => h rfl⟩ fun _ h => h

theorem agreesOutside_patchSome (henc : ∀ a, (enc a).length = n) (b : Bytes) (off : Nat)
    {value : Option α} (hfits : value.isSome → off + n ≤ b.length) :
    AgreesOutside off (off + n) b (patchSome b off enc value) := by
  cases value with
  | none => exact .refl _ _ _
  | some a =>
    have hlen : off + (enc a).length ≤ b.length := by
      rw [henc]
      exact hfits rfl
    exact .patch hlen le_rfl (by rw [henc])

theorem be16At_patchSome {b : Bytes} {off : Nat} {port : Option Port}
    (hfits : port.isSome → off + 2 ≤ b.length) :
    be16At (patchSome b off toBeBytes port) off = port.getD (be16At b off) := by
  cases port with
  | none => rfl
  | some port => exact be16At_patch_self port (hfits rfl)

theorem addrAt_patchSome {b : Bytes} {off : Nat} {addr : Option Ipv4Addr}
    (hfits : addr.isSome → off + 4 ≤ b.length) :
    addrAt (patchSome b off octets addr) off = addr.getD (addrAt b off) := by
  cases addr with
  | none => rfl
  | some addr => exact addrAt_patch_self addr (hfits rfl)

end

/-- The bytes of the IPv4 header. -/
def headerOf (frame : Frame) (ihl : Nat) : Bytes := (frame.drop 14).take ihl

/-- The length of what follows the IPv4 header, as the header announces it. -/
def segmentLen (frame : Frame) (ihl : Nat) : Nat := (be16At frame 16).toNat - ihl

/-- What follows the IPv4 header. -/
def segmentOf (frame : Frame) (ihl len : Nat) : Bytes := (frame.drop (14 + ihl)).take len

/-- The pseudo header of the TCP and UDP checksums. -/
def pseudoHeader (frame : Frame) (ihl : Nat) (protocol : Byte) : Bytes :=
  (frame.drop 26).take 4 ++ (frame.drop 30).take 4 ++ [0, protocol] ++
    toBeBytes (BitVec.ofNat 16 (segmentLen frame ihl))

/-- The place of the checksum in a TCP or a UDP header. -/
def l4Field (protocol : Byte) : Nat := if protocol = 6 then 16 else 6

/-- What is stored for a checksum: zero means "no checksum" for UDP. -/
def storedChecksum (protocol : Byte) (csum : BitVec 16) : BitVec 16 :=
  if protocol = 17 ∧ csum = 0 then 0xFFFF else csum

theorem storedChecksum_tcp : storedChecksum 6 = id := rfl

theorem storedChecksum_udp :
    storedChecksum 17 = fun csum => if csum = 0 then 0xFFFF else csum := by
  funext csum
  by_cases h : csum = 0
  · rw [storedChecksum, if_pos ⟨rfl, h⟩, if_pos h]
  · rw [storedChecksum, if_neg fun h' => h h'.2, if_neg h]

/-- The TCP or UDP checksum of a frame, its field taken as zero. -/
def l4Checksum (frame : Frame) (ihl : Nat) (protocol : Byte) : BitVec 16 :=
  BitVec.ofNat 16 (checksumOf (pseudoHeader frame ihl protocol ++
    segmentOf (frame.patch (14 + ihl + l4Field protocol) [0, 0]) ihl (segmentLen frame ihl)))

/-- The length that the IPv4 header announces covers the header and lies within the frame. -/
def HasSegment (frame : Frame) (ihl : Nat) : Prop :=
  ihl ≤ (be16At frame 16).toNat ∧ 14 + (be16At frame 16).toNat ≤ frame.length

instance (frame : Frame) (ihl : Nat) : Decidable (HasSegment frame ihl) :=
  inferInstanceAs (Decidable (_ ∧ _))

def withAddresses (frame : Frame) (newSrcAddr newDstAddr : Option Ipv4Addr) : Frame :=
  patchSome (patchSome frame 26 octets newSrcAddr) 30 octets newDstAddr

def withHeaderChecksum (frame : Frame) (ihl : Nat) : Frame :=
  frame.patch 24 (toBeBytes (BitVec.ofNat 16 (checksumOf (headerOf (frame.patch 24 [0, 0]) ihl))))

def withPorts (frame : Frame) (protocol : Byte) (l4Off : Nat)
    (newSrcPort newDstPort : Option Port) : Frame :=
  if protocol = 6 ∨ protocol = 17 then
    patchSome (patchSome frame l4Off toBeBytes newSrcPort) (l4Off + 2) toBeBytes newDstPort
  else frame

def withL4Checksum (frame : Frame) (ihl : Nat) (protocol : Byte) : Frame :=
  if (protocol = 6 ∨ protocol = 17) ∧ HasSegment frame ihl then
    frame.patch (14 + ihl + l4Field protocol)
      (toBeBytes (storedChecksum protocol (l4Checksum frame ihl protocol)))
  else frame

/-- The frame with its new addresses, and the checksum of its header. -/
def readdressed (frame : Frame) (ihl : Nat) (newSrcAddr newDstAddr : Option Ipv4Addr) : Frame :=
  withHeaderChecksum (withAddresses frame newSrcAddr newDstAddr) ihl

/-- The frame with its new addresses and ports, before its L4 checksum is recomputed. -/
def translated (frame : Frame) (ihl : Nat) (newSrcAddr newDstAddr : Option Ipv4Addr)
    (newSrcPort newDstPort : Option Port) : Frame :=
  withPorts (readdressed frame ihl newSrcAddr newDstAddr) (frame.byteAt 23) (14 + ihl) newSrcPort
    newDstPort

/-- The frame that `rewrite_ipv4` leaves. -/
def rewriteOf (frame : Frame) (ihl : Nat) (newSrcAddr newDstAddr : Option Ipv4Addr)
    (newSrcPort newDstPort : Option Port) : Frame :=
  withL4Checksum (translated frame ihl newSrcAddr newDstAddr newSrcPort newDstPort) ihl
    (frame.byteAt 23)

theorem exactly_rewritePorts (frame : Frame) (protocol : Byte) (l4Off : Nat)
    (newSrcPort newDstPort : Option Port) :
    Checked.Exactly (rewritePorts frame protocol l4Off newSrcPort newDstPort)
      (protocol = 6 ∨ protocol = 17 →
        (newSrcPort.isSome → l4Off + 2 ≤ frame.length) ∧
          (newDstPort.isSome → l4Off + 4 ≤ frame.length))
      (· = withPorts frame protocol l4Off newSrcPort newDstPort) := by
  rw [rewritePorts, withPorts]
  by_cases hproto : protocol = 6 ∨ protocol = 17
  · rw [if_pos hproto, if_pos hproto]
    refine Checked.Exactly.mono ?_ (imp_iff_right hproto).symm fun _ h => h
    apply (exactly_copyIfSome length_toBeBytes frame l4Off newSrcPort).bind
    rintro hfits _ rfl
    rw [← (agreesOutside_patchSome length_toBeBytes frame l4Off hfits).length]
    exact exactly_copyIfSome length_toBeBytes _ (l4Off + 2) newDstPort
  · rw [if_neg hproto, if_neg hproto]
    exact (Checked.exactly_pure frame).mono (iff_of_true trivial fun h => absurd h hproto)
      fun _ h => h

/-- **A checksum field**: both bytes are cleared, the sum is taken over a range and what
    stands in front of it, and the checksum is written, before the rest is done. -/
theorem exactly_storeChecksum {β : Type} {b front : Bytes} {off start len : Nat}
    {k : Bytes → Checked β} {P : Prop} {Q : β → Prop} (fix : BitVec 16 → BitVec 16)
    (hfront : front.length ≤ 65535) (hmax : len ≤ 65535) (hrange : start + len ≤ b.length)
    (h : off + 2 ≤ b.length → Checked.Exactly (k (b.patch off (toBeBytes (fix (BitVec.ofNat 16
      (checksumOf (front ++ ((b.patch off [0, 0]).drop start).take len))))))) P Q) :
    Checked.Exactly (do
      let b ← b.write off 0
      let b ← b.write (off + 1) 0
      let range ← b.slice start (start + len)
      let csum ← internetChecksum (front ++ range)
      let b ← b.copyFromSlice off (off + 2) (toBeBytes (fix csum))
      k b) (off + 2 ≤ b.length ∧ P) Q := by
  have hcond : off < b.length ∧ off + 1 < b.length ∧ P ↔ off + 2 ≤ b.length ∧ P :=
    ⟨fun h => h.2, fun h => ⟨Nat.lt_of_succ_lt h.1, h⟩⟩
  refine Checked.Exactly.mono ?_ hcond fun _ h => h
  apply (Bytes.exactly_write _ _ _).bind
  rintro hfirst _ rfl
  have hlen1 : (b.patch off [0]).length = b.length := Bytes.length_patch hfirst
  rw [← hlen1]
  apply (Bytes.exactly_write _ _ _).bind
  rintro hfits _ rfl
  rw [hlen1] at hfits
  rw [Bytes.patch_pair 0 0 hfits]
  have hlen2 : (b.patch off [0, 0]).length = b.length := Bytes.length_patch hfits
  rw [Bytes.slice_eq ⟨Nat.le_add_right _ _, by rwa [hlen2]⟩, Nat.add_sub_cancel_left]
  -- Short enough for the 32-bit accumulator of the sum.
  have hsum : (front ++ ((b.patch off [0, 0]).drop start).take len).length ≤ 131070 := by
    rw [List.length_append, Bytes.length_take_drop (by rwa [hlen2])]
    omega
  have hpatch : ∀ csum : BitVec 16, (b.patch off [0, 0]).patch off (toBeBytes csum) =
      b.patch off (toBeBytes csum) := fun _ => Bytes.patch_patch hfits rfl
  have hcopy := fun csum : BitVec 16 => Bytes.exactly_copyFromSlice (b.patch off [0, 0])
    (toBeBytes csum) off (off + 2) rfl
  simp only [bind, Except.bind, internetChecksum_eq hsum]
  apply ((hcopy _).mono (iff_of_true (by rwa [hlen2]) trivial) fun _ h => h).bind_of_true
  rintro _ rfl
  rw [hpatch]
  exact h hfits

/-- The L4 checksum gets its place exactly when the frame has its field. -/
theorem exactly_writeL4Checksum {frame : Frame} {pseudo : Bytes} {l4Off l4Len : Nat} (field : Nat)
    (fix : BitVec 16 → BitVec 16) (hpseudo : pseudo.length ≤ 65535) (hl4 : l4Len ≤ 65535)
    (hseg : l4Off + l4Len ≤ frame.length) :
    Checked.Exactly (writeL4Checksum frame pseudo l4Off l4Len field fix)
      (l4Off + field + 2 ≤ frame.length)
      (· = frame.patch (l4Off + field) (toBeBytes (fix (BitVec.ofNat 16 (checksumOf (pseudo ++
        ((frame.patch (l4Off + field) [0, 0]).drop l4Off).take l4Len)))))) := by
  have h := exactly_storeChecksum (k := pure) fix hpseudo hl4 hseg fun _ : l4Off + field + 2 ≤ _ =>
    Checked.exactly_pure _
  rw [and_true] at h
  simp only [bind_pure] at h
  exact h

theorem length_pseudoHeader {frame : Frame} (ihl : Nat) (protocol : Byte)
    (hlen : 34 ≤ frame.length) : (pseudoHeader frame ihl protocol).length = 12 := by
  rw [pseudoHeader, List.length_append, List.length_append, List.length_append,
    Bytes.length_take_drop (by omega), Bytes.length_take_drop (by omega)]
  rfl

/-- A TCP or UDP frame that holds its segment gets the L4 checksum exactly when it has the
    checksum field of its protocol. -/
theorem exactly_writeSegmentChecksum {frame : Frame} {ihl : Nat} {protocol : Byte}
    (hlen : 34 ≤ frame.length) (hproto : protocol = 6 ∨ protocol = 17)
    (hseg : HasSegment frame ihl) :
    Checked.Exactly (writeL4Checksum frame (pseudoHeader frame ihl protocol) (14 + ihl)
        (segmentLen frame ihl) (l4Field protocol) (storedChecksum protocol))
      (protocol = 6 ∨ protocol = 17 → HasSegment frame ihl →
        14 + ihl + l4Field protocol + 2 ≤ frame.length)
      (· = withL4Checksum frame ihl protocol) := by
  have htotal := (be16At frame 16).isLt
  have hsegLen : segmentLen frame ihl = (be16At frame 16).toNat - ihl := rfl
  have hpseudo : (pseudoHeader frame ihl protocol).length ≤ 65535 := by
    rw [length_pseudoHeader ihl protocol hlen]
    omega
  have hfits : 14 + ihl + segmentLen frame ihl ≤ frame.length := by
    have hin := hseg.2
    have hle := hseg.1
    omega
  have hwrite := exactly_writeL4Checksum (l4Field protocol) (storedChecksum protocol) hpseudo
    (show segmentLen frame ihl ≤ 65535 by omega) hfits
  rw [withL4Checksum, if_pos ⟨hproto, hseg⟩]
  exact hwrite.mono ⟨fun h _ _ => h, fun h => h hproto hseg⟩ fun _ h => h

/-- **The L4 checksum** is recomputed without a panic exactly when the frame has the
    checksum field of its protocol, or the IP length does not fit the frame. -/
theorem exactly_recompute {frame : Frame} (ihl : Nat) (protocol : Byte)
    (hlen : 34 ≤ frame.length) :
    Checked.Exactly (recomputeL4Checksum frame 14 ihl protocol)
      (protocol = 6 ∨ protocol = 17 → HasSegment frame ihl →
        14 + ihl + l4Field protocol + 2 ≤ frame.length)
      (· = withL4Checksum frame ihl protocol) := by
  rw [recomputeL4Checksum, Bytes.read_eq (by omega), Bytes.read_eq (by omega)]
  show Checked.Exactly (if (be16At frame 16).toNat < ihl then _ else _) _ _
  have hsame : ¬ ((protocol = 6 ∨ protocol = 17) ∧ HasSegment frame ihl) →
      Checked.Exactly (pure frame) (protocol = 6 ∨ protocol = 17 → HasSegment frame ihl →
        14 + ihl + l4Field protocol + 2 ≤ frame.length)
        (· = withL4Checksum frame ihl protocol) := by
    intro h
    rw [withL4Checksum, if_neg h]
    exact (Checked.exactly_pure frame).mono
      (iff_of_true trivial fun hproto hseg => absurd ⟨hproto, hseg⟩ h) fun _ h => h
  -- A length field that contradicts the header or the frame leaves the frame alone.
  by_cases hihl : (be16At frame 16).toNat < ihl
  · rw [if_pos hihl]
    exact hsame fun h => absurd h.2.1 (Nat.not_le.mpr hihl)
  have hsub : Checked.sub (fromBeBytes (frame.byteAt (14 + 2)) (frame.byteAt (14 + 3))).toNat ihl =
      .ok (segmentLen frame ihl) := Checked.sub_ok (Nat.not_lt.mp hihl)
  rw [if_neg hihl, hsub]
  show Checked.Exactly (if 14 + ihl + segmentLen frame ihl > frame.length then _ else _) _ _
  have hsegLen : segmentLen frame ihl = (be16At frame 16).toNat - ihl := rfl
  by_cases hshort : 14 + ihl + segmentLen frame ihl > frame.length
  · rw [if_pos hshort]
    exact hsame fun h => absurd h.2.2 (by omega)
  rw [if_neg hshort, Bytes.slice_eq (by omega), Bytes.slice_eq (by omega)]
  have hseg : HasSegment frame ihl := ⟨Nat.not_lt.mp hihl, by omega⟩
  show Checked.Exactly (if protocol = 6 then
    writeL4Checksum frame (pseudoHeader frame ihl protocol) _ _ _ _ else _) _ _
  -- The checksum field is 16 bytes into a TCP header and 6 into a UDP header.
  by_cases htcp : protocol = 6
  · have hfield : l4Field protocol = 16 := if_pos htcp
    have h := exactly_writeSegmentChecksum hlen (.inl htcp) hseg
    rw [hfield, htcp, storedChecksum_tcp] at h
    rw [if_pos htcp, hfield, htcp]
    exact h
  rw [if_neg htcp]
  by_cases hudp : protocol = 17
  · have hfield : l4Field protocol = 6 := if_neg htcp
    have h := exactly_writeSegmentChecksum hlen (.inr hudp) hseg
    rw [hfield, hudp, storedChecksum_udp] at h
    rw [if_pos hudp, hfield, hudp]
    exact h
  · rw [if_neg hudp]
    exact hsame fun h => h.1.elim htcp hudp

theorem agreesOutside_withHeaderChecksum (frame : Frame) (ihl : Nat) (hlen : 26 ≤ frame.length) :
    AgreesOutside 24 26 frame (withHeaderChecksum frame ihl) := .patch hlen le_rfl le_rfl

/-- What rewriting the ports changes. -/
structure PortsRewritten (frame : Frame) (protocol : Byte) (l4Off : Nat)
    (newSrcPort newDstPort : Option Port) (r : Frame) : Prop where
  outside : AgreesOutside l4Off (l4Off + 4) frame r
  srcPort : protocol = 6 ∨ protocol = 17 →
    be16At r l4Off = newSrcPort.getD (be16At frame l4Off)
  dstPort : protocol = 6 ∨ protocol = 17 →
    be16At r (l4Off + 2) = newDstPort.getD (be16At frame (l4Off + 2))
  other : ¬ (protocol = 6 ∨ protocol = 17) → r = frame

theorem portsRewritten_withPorts {frame : Frame} {protocol : Byte} {l4Off : Nat}
    {newSrcPort newDstPort : Option Port} (hfits : protocol = 6 ∨ protocol = 17 →
      (newSrcPort.isSome → l4Off + 2 ≤ frame.length) ∧
        (newDstPort.isSome → l4Off + 4 ≤ frame.length)) :
    PortsRewritten frame protocol l4Off newSrcPort newDstPort
      (withPorts frame protocol l4Off newSrcPort newDstPort) := by
  rw [withPorts]
  by_cases hproto : protocol = 6 ∨ protocol = 17
  · rw [if_pos hproto]
    obtain ⟨hsrc, hdst⟩ := hfits hproto
    have h1 := agreesOutside_patchSome length_toBeBytes frame l4Off hsrc
    have hdst : newDstPort.isSome → l4Off + 2 + 2 ≤
        (patchSome frame l4Off toBeBytes newSrcPort).length := by rwa [h1.length]
    have h2 := agreesOutside_patchSome length_toBeBytes _ _ hdst
    have hboth : AgreesOutside l4Off (l4Off + 4) frame
        (patchSome (patchSome frame l4Off toBeBytes newSrcPort) (l4Off + 2) toBeBytes newDstPort) :=
      ⟨h2.length.trans h1.length, fun i hi =>
        (h2.byteAt i (by omega)).trans (h1.byteAt i (by omega))⟩
    refine ⟨hboth, fun _ => ?_, fun _ => ?_, fun h => absurd hproto h⟩
    · rw [h2.be16At (.inl le_rfl), be16At_patchSome hsrc]
    · rw [be16At_patchSome hdst, h1.be16At (.inr le_rfl)]
  · rw [if_neg hproto]
    exact ⟨.refl _ _ _, fun h => absurd h hproto, fun h => absurd h hproto, fun _ => rfl⟩

/-! ### `rewrite_ipv4` -/

/-- The IP total length that the L4 checksum is taken over.  Where the header announces no
    length at all, the new destination port has just replaced it. -/
def totalLenOf (frame : Frame) (ihl : Nat) (newDstPort : Option Port) : Nat :=
  if ihl = 0 ∧ (frame.byteAt 23 = 6 ∨ frame.byteAt 23 = 17) then
    (newDstPort.getD (be16At frame 16)).toNat
  else (be16At frame 16).toNat

/-- The frame is long enough for its ports to be rewritten and for its L4 checksum, if one
    is written, to have a place: TCP and UDP frames only. -/
def L4Fits (frame : Frame) (ihl : Nat) (newSrcPort newDstPort : Option Port) : Prop :=
  frame.byteAt 23 = 6 ∨ frame.byteAt 23 = 17 →
    (newSrcPort.isSome → 14 + ihl + 2 ≤ frame.length) ∧
    (newDstPort.isSome → 14 + ihl + 4 ≤ frame.length) ∧
    (ihl ≤ totalLenOf frame ihl newDstPort →
      14 + totalLenOf frame ihl newDstPort ≤ frame.length →
      (frame.byteAt 23 = 6 → 14 + ihl + 18 ≤ frame.length) ∧
        (frame.byteAt 23 = 17 → 14 + ihl + 8 ≤ frame.length))

/-- A frame with its addresses and ports replaced: the IPv4 header has its full 20 bytes. -/
structure Rewritten (frame : Frame) (ihl : Nat) (newSrcAddr newDstAddr : Option Ipv4Addr)
    (newSrcPort newDstPort : Option Port) (r : Frame) : Prop where
  length : r.length = frame.length
  byteAt : ∀ i, i < 24 → r.byteAt i = frame.byteAt i
  src : addrAt r 26 = newSrcAddr.getD (addrAt frame 26)
  dst : addrAt r 30 = newDstAddr.getD (addrAt frame 30)
  srcPort : frame.byteAt 23 = 6 ∨ frame.byteAt 23 = 17 →
    be16At r (14 + ihl) = newSrcPort.getD (be16At frame (14 + ihl))
  dstPort : frame.byteAt 23 = 6 ∨ frame.byteAt 23 = 17 →
    be16At r (14 + ihl + 2) = newDstPort.getD (be16At frame (14 + ihl + 2))

/-- A frame with its addresses replaced, and the checksum of its header. -/
structure AddressesRewritten (frame : Frame) (newSrcAddr newDstAddr : Option Ipv4Addr)
    (r : Frame) : Prop where
  length : r.length = frame.length
  byteAt : ∀ i, ¬ (24 ≤ i ∧ i < 34) → r.byteAt i = frame.byteAt i
  src : addrAt r 26 = newSrcAddr.getD (addrAt frame 26)
  dst : addrAt r 30 = newDstAddr.getD (addrAt frame 30)

theorem length_withAddresses {frame : Frame} (newSrcAddr newDstAddr : Option Ipv4Addr)
    (hlen : 34 ≤ frame.length) :
    (withAddresses frame newSrcAddr newDstAddr).length = frame.length := by
  have hsrc : newSrcAddr.isSome → 26 + 4 ≤ frame.length := fun _ => by omega
  have h1 := agreesOutside_patchSome length_octets frame 26 hsrc
  have hdst : newDstAddr.isSome → 30 + 4 ≤ (patchSome frame 26 octets newSrcAddr).length :=
    fun _ => by
      rw [h1.length]
      exact hlen
  exact (agreesOutside_patchSome length_octets _ _ hdst).length.trans h1.length

theorem addressesRewritten_readdressed {frame : Frame} (ihl : Nat)
    (newSrcAddr newDstAddr : Option Ipv4Addr) (hlen : 34 ≤ frame.length) :
    AddressesRewritten frame newSrcAddr newDstAddr
      (readdressed frame ihl newSrcAddr newDstAddr) := by
  have hsrc : newSrcAddr.isSome → 26 + 4 ≤ frame.length := fun _ => by omega
  have h1 := agreesOutside_patchSome length_octets frame 26 hsrc
  have hdst : newDstAddr.isSome → 30 + 4 ≤ (patchSome frame 26 octets newSrcAddr).length :=
    fun _ => by
      rw [h1.length]
      exact hlen
  have h2 := agreesOutside_patchSome length_octets _ _ hdst
  have hlen2 := length_withAddresses newSrcAddr newDstAddr hlen
  have h3 := agreesOutside_withHeaderChecksum (withAddresses frame newSrcAddr newDstAddr) ihl
    (by omega)
  refine ⟨h3.length.trans hlen2, fun i hi => ?_, ?_, ?_⟩
  · exact (h3.byteAt i (by omega)).trans
      ((h2.byteAt i (by omega)).trans (h1.byteAt i (by omega)))
  · rw [readdressed, h3.addrAt (.inr le_rfl), withAddresses, h2.addrAt (.inl le_rfl),
      addrAt_patchSome hsrc]
  · rw [readdressed, h3.addrAt (.inr (by omega)), withAddresses, addrAt_patchSome hdst,
      h1.addrAt (.inr le_rfl)]

/-- The ports have their place, and the L4 checksum has it in the translated frame. -/
def RewriteRoom (frame : Frame) (ihl : Nat) (newSrcAddr newDstAddr : Option Ipv4Addr)
    (newSrcPort newDstPort : Option Port) : Prop :=
  frame.byteAt 23 = 6 ∨ frame.byteAt 23 = 17 →
    (newSrcPort.isSome → 14 + ihl + 2 ≤ frame.length) ∧
    (newDstPort.isSome → 14 + ihl + 4 ≤ frame.length) ∧
    (HasSegment (translated frame ihl newSrcAddr newDstAddr newSrcPort newDstPort) ihl →
      14 + ihl + l4Field (frame.byteAt 23) + 2 ≤ frame.length)

/-- The last part of the rewriting: the ports, and the L4 checksum over them. -/
theorem exactly_translate {frame : Frame} {ihl : Nat} (newSrcAddr newDstAddr : Option Ipv4Addr)
    (newSrcPort newDstPort : Option Port) (hlen : 34 ≤ frame.length) :
    Checked.Exactly (do
      let b ← rewritePorts (readdressed frame ihl newSrcAddr newDstAddr) (frame.byteAt 23)
        (14 + ihl) newSrcPort newDstPort
      recomputeL4Checksum b 14 ihl (frame.byteAt 23))
      (RewriteRoom frame ihl newSrcAddr newDstAddr newSrcPort newDstPort)
      (· = rewriteOf frame ihl newSrcAddr newDstAddr newSrcPort newDstPort) := by
  have hlen5 := (addressesRewritten_readdressed ihl newSrcAddr newDstAddr hlen).length
  have hports := exactly_rewritePorts (readdressed frame ihl newSrcAddr newDstAddr)
    (frame.byteAt 23) (14 + ihl) newSrcPort newDstPort
  have hlast : ∀ f7, f7 = translated frame ihl newSrcAddr newDstAddr newSrcPort newDstPort →
      f7.length = frame.length → Checked.Exactly (recomputeL4Checksum f7 14 ihl (frame.byteAt 23))
        (frame.byteAt 23 = 6 ∨ frame.byteAt 23 = 17 →
          HasSegment (translated frame ihl newSrcAddr newDstAddr newSrcPort newDstPort) ihl →
          14 + ihl + l4Field (frame.byteAt 23) + 2 ≤ frame.length)
        (· = rewriteOf frame ihl newSrcAddr newDstAddr newSrcPort newDstPort) := by
    rintro f7 hf7 hlen7
    have h := exactly_recompute ihl (frame.byteAt 23) (show 34 ≤ f7.length by omega)
    rw [hlen7, hf7] at h
    rw [hf7]
    exact h
  refine (hports.bind fun hfits f7 hf7 => hlast f7 hf7 ?_).mono ?_ fun _ h => h
  · rw [hf7]
    exact (portsRewritten_withPorts hfits).outside.length.trans hlen5
  · rw [hlen5, RewriteRoom]
    by_cases hproto : frame.byteAt 23 = 6 ∨ frame.byteAt 23 = 17
    · simp only [hproto, true_imp_iff, and_assoc]
    · exact iff_of_true ⟨fun h => absurd h hproto, fun h => absurd h hproto⟩
        fun h => absurd h hproto

/-- **`rewrite_ipv4`** writes the rewritten frame exactly when the ports and the L4 checksum
    have their place. -/
theorem exactly_rewrite {frame : Frame} {ihl : Nat} (newSrcAddr newDstAddr : Option Ipv4Addr)
    (newSrcPort newDstPort : Option Port) (hlen : 34 ≤ frame.length)
    (hihl : 14 + ihl ≤ frame.length) (hmax : ihl ≤ 65535) :
    Checked.Exactly (rewriteIpv4 frame ihl newSrcAddr newDstAddr newSrcPort newDstPort)
      (RewriteRoom frame ihl newSrcAddr newDstAddr newSrcPort newDstPort)
      (· = rewriteOf frame ihl newSrcAddr newDstAddr newSrcPort newDstPort) := by
  have haddr := addressesRewritten_readdressed ihl newSrcAddr newDstAddr hlen
  simp only [rewriteIpv4, ETH_HDR_LEN, Nat.reduceAdd]
  have hsrc : newSrcAddr.isSome → 26 + 4 ≤ frame.length := fun _ => by omega
  have h1 := agreesOutside_patchSome length_octets frame 26 hsrc
  refine ((exactly_copyIfSome length_octets frame 26 newSrcAddr).mono
    (iff_of_true (fun _ => by omega) trivial) fun _ h => h).bind_of_true ?_
  rintro _ rfl
  have hdst : 30 + 4 ≤ (patchSome frame 26 octets newSrcAddr).length := by
    rw [h1.length]
    exact hlen
  refine ((exactly_copyIfSome length_octets _ 30 newDstAddr).mono
    (iff_of_true (fun _ => hdst) trivial) fun _ h => h).bind_of_true ?_
  rintro _ rfl
  have hlen2 := length_withAddresses newSrcAddr newDstAddr hlen
  have hfield : 24 + 2 ≤ (withAddresses frame newSrcAddr newDstAddr).length := by omega
  have hempty : ([] : Bytes).length ≤ 65535 := Nat.zero_le _
  refine (exactly_storeChecksum id hempty hmax (by rwa [← hlen2] at hihl) fun _ => ?_).mono
    (and_iff_right hfield) fun _ h => h
  have hlen5 := haddr.length
  show Checked.Exactly ((readdressed frame ihl newSrcAddr newDstAddr).read 23 >>= _) _ _
  rw [Bytes.read_eq (by omega), haddr.byteAt 23 (by omega)]
  exact exactly_translate newSrcAddr newDstAddr newSrcPort newDstPort hlen

/-- The total length that the last part of the rewriting reads. -/
theorem be16At_totalLen {frame f5 f6 : Frame} {ihl : Nat} {newSrcAddr newDstAddr : Option Ipv4Addr}
    {newSrcPort newDstPort : Option Port} (hzero : ihl = 0 ∨ 4 ≤ ihl)
    (h5 : AddressesRewritten frame newSrcAddr newDstAddr f5)
    (h6 : PortsRewritten f5 (frame.byteAt 23) (14 + ihl) newSrcPort newDstPort f6) :
    (be16At f6 16).toNat = totalLenOf frame ihl newDstPort := by
  have htotal5 : be16At f5 16 = be16At frame 16 := be16At_congr fun i _ _ => h5.byteAt i (by omega)
  rw [totalLenOf]
  by_cases hproto : frame.byteAt 23 = 6 ∨ frame.byteAt 23 = 17
  · rcases hzero with rfl | hpos
    · -- A header without a length: the destination port lies on the total length.
      rw [if_pos ⟨rfl, hproto⟩, ← htotal5, ← h6.dstPort hproto]
    · rw [if_neg (by omega), h6.outside.be16At (.inl (by omega)), htotal5]
  · rw [if_neg fun h => hproto h.2, h6.other hproto, htotal5]

/-- The last part of the rewriting changes the L4 checksum only. -/
theorem agreesBelow_withL4Checksum {frame : Frame} (ihl : Nat) (protocol : Byte)
    (hfits : protocol = 6 ∨ protocol = 17 → HasSegment frame ihl →
      14 + ihl + l4Field protocol + 2 ≤ frame.length) :
    Bytes.AgreesBelow (14 + ihl + 6) frame (withL4Checksum frame ihl protocol) := by
  rw [withL4Checksum]
  by_cases h : (protocol = 6 ∨ protocol = 17) ∧ HasSegment frame ihl
  · have hfield : 6 ≤ l4Field protocol := by
      rw [l4Field]
      split <;> omega
    rw [if_pos h]
    exact Bytes.agreesBelow_patch (hfits h.1 h.2) (by omega)
  · rw [if_neg h]
    exact .refl _ _

theorem portsRewritten_translated {frame : Frame} (ihl : Nat)
    (newSrcAddr newDstAddr : Option Ipv4Addr) {newSrcPort newDstPort : Option Port}
    (hlen : 34 ≤ frame.length) (hfits : frame.byteAt 23 = 6 ∨ frame.byteAt 23 = 17 →
      (newSrcPort.isSome → 14 + ihl + 2 ≤ frame.length) ∧
        (newDstPort.isSome → 14 + ihl + 4 ≤ frame.length)) :
    PortsRewritten (readdressed frame ihl newSrcAddr newDstAddr) (frame.byteAt 23) (14 + ihl)
      newSrcPort newDstPort
      (translated frame ihl newSrcAddr newDstAddr newSrcPort newDstPort) := by
  apply portsRewritten_withPorts
  rwa [(addressesRewritten_readdressed ihl newSrcAddr newDstAddr hlen).length]

/-- The room a frame needs, read off the frame itself. -/
theorem rewriteRoom_iff {frame : Frame} {ihl : Nat} (newSrcAddr newDstAddr : Option Ipv4Addr)
    {newSrcPort newDstPort : Option Port} (hlen : 34 ≤ frame.length) (hzero : ihl = 0 ∨ 4 ≤ ihl) :
    RewriteRoom frame ihl newSrcAddr newDstAddr newSrcPort newDstPort ↔
      L4Fits frame ihl newSrcPort newDstPort := by
  refine forall_congr' fun hproto => and_congr_right fun hsrc => and_congr_right fun hdst => ?_
  have h5 := addressesRewritten_readdressed ihl newSrcAddr newDstAddr hlen
  have h6 := portsRewritten_translated ihl newSrcAddr newDstAddr hlen fun _ => ⟨hsrc, hdst⟩
  rw [HasSegment, h6.outside.length, h5.length, be16At_totalLen hzero h5 h6, and_imp]
  refine forall_congr' fun _ => forall_congr' fun _ => ?_
  rcases hproto with htcp | hudp
  · rw [htcp, l4Field, if_pos rfl]
    exact ⟨fun h => ⟨fun _ => h, nofun⟩, fun h => h.1 rfl⟩
  · rw [hudp, l4Field, if_neg (by decide)]
    exact ⟨fun h => ⟨nofun, fun _ => h⟩, fun h => h.2 rfl⟩

theorem length_translated {frame : Frame} {ihl : Nat} {newSrcAddr newDstAddr : Option Ipv4Addr}
    {newSrcPort newDstPort : Option Port} (hlen : 34 ≤ frame.length)
    (hroom : RewriteRoom frame ihl newSrcAddr newDstAddr newSrcPort newDstPort) :
    (translated frame ihl newSrcAddr newDstAddr newSrcPort newDstPort).length = frame.length :=
  (portsRewritten_translated ihl newSrcAddr newDstAddr hlen
    fun hproto => ⟨(hroom hproto).1, (hroom hproto).2.1⟩).outside.length.trans
    (addressesRewritten_readdressed ihl newSrcAddr newDstAddr hlen).length

/-- What comes before the L4 checksum stays as it has been translated. -/
theorem agreesBelow_rewriteOf {frame : Frame} {ihl : Nat} {newSrcAddr newDstAddr : Option Ipv4Addr}
    {newSrcPort newDstPort : Option Port} (hlen : 34 ≤ frame.length)
    (hroom : RewriteRoom frame ihl newSrcAddr newDstAddr newSrcPort newDstPort) :
    Bytes.AgreesBelow (14 + ihl + 6)
      (translated frame ihl newSrcAddr newDstAddr newSrcPort newDstPort)
      (rewriteOf frame ihl newSrcAddr newDstAddr newSrcPort newDstPort) := by
  refine agreesBelow_withL4Checksum ihl (frame.byteAt 23) fun hproto hseg => ?_
  rw [length_translated hlen hroom]
  exact (hroom hproto).2.2 hseg

theorem length_rewriteOf {frame : Frame} {ihl : Nat} {newSrcAddr newDstAddr : Option Ipv4Addr}
    {newSrcPort newDstPort : Option Port} (hlen : 34 ≤ frame.length)
    (hroom : RewriteRoom frame ihl newSrcAddr newDstAddr newSrcPort newDstPort) :
    (rewriteOf frame ihl newSrcAddr newDstAddr newSrcPort newDstPort).length = frame.length :=
  (agreesBelow_rewriteOf hlen hroom).length.trans (length_translated hlen hroom)

theorem rewritten_rewriteOf {frame : Frame} {ihl : Nat}
    {newSrcAddr newDstAddr : Option Ipv4Addr} {newSrcPort newDstPort : Option Port}
    (hlen : 34 ≤ frame.length) (hfull : 20 ≤ ihl)
    (hroom : RewriteRoom frame ihl newSrcAddr newDstAddr newSrcPort newDstPort) :
    Rewritten frame ihl newSrcAddr newDstAddr newSrcPort newDstPort
      (rewriteOf frame ihl newSrcAddr newDstAddr newSrcPort newDstPort) := by
  have h5 := addressesRewritten_readdressed ihl newSrcAddr newDstAddr hlen
  have h6 := portsRewritten_translated ihl newSrcAddr newDstAddr hlen
    fun hproto => ⟨(hroom hproto).1, (hroom hproto).2.1⟩
  have hr := agreesBelow_rewriteOf hlen hroom
  have hlenr := length_rewriteOf hlen hroom
  generalize rewriteOf frame ihl newSrcAddr newDstAddr newSrcPort newDstPort = r at hr hlenr
  have hbyte : ∀ i, i < 14 + ihl → r.byteAt i =
      (readdressed frame ihl newSrcAddr newDstAddr).byteAt i := fun i hi =>
    (hr.byteAt i (by omega)).trans (h6.outside.byteAt i (by omega))
  have hl4 : ∀ i, 14 + ihl ≤ i → (readdressed frame ihl newSrcAddr newDstAddr).byteAt i =
      frame.byteAt i := fun i hi => h5.byteAt i (by omega)
  refine ⟨hlenr, fun i hi => ?_, ?_, ?_, fun hproto => ?_, fun hproto => ?_⟩
  · rw [hbyte i (by omega), h5.byteAt i (by omega)]
  · rw [addrAt_congr fun i _ _ => hbyte i (by omega), h5.src]
  · rw [addrAt_congr fun i _ _ => hbyte i (by omega), h5.dst]
  · rw [be16At_congr fun i _ _ => hr.byteAt i (by omega), h6.srcPort hproto,
      be16At_congr fun i hi _ => hl4 i (by omega)]
  · rw [be16At_congr fun i _ _ => hr.byteAt i (by omega), h6.dstPort hproto,
      be16At_congr fun i hi _ => hl4 i (by omega)]

/-- **Rewriting** panics exactly on the frames that are too short for it. -/
theorem exactly_rewriteIpv4 {frame : Frame} {ihl : Nat} (newSrcAddr newDstAddr : Option Ipv4Addr)
    (newSrcPort newDstPort : Option Port) (hlen : 34 ≤ frame.length)
    (hihl : 14 + ihl ≤ frame.length) (hmax : ihl ≤ 60) (hzero : ihl = 0 ∨ 4 ≤ ihl) :
    Checked.Exactly (rewriteIpv4 frame ihl newSrcAddr newDstAddr newSrcPort newDstPort)
      (L4Fits frame ihl newSrcPort newDstPort)
      fun r => 20 ≤ ihl → Rewritten frame ihl newSrcAddr newDstAddr newSrcPort newDstPort r := by
  have h := exactly_rewrite newSrcAddr newDstAddr newSrcPort newDstPort hlen hihl (by omega)
  refine ⟨fun hfits => ?_, fun r hr => ?_⟩
  · have hcond := (rewriteRoom_iff newSrcAddr newDstAddr hlen hzero).mpr hfits
    refine (h.returns hcond).mono ?_
    rintro _ rfl hfull
    exact rewritten_rewriteOf hlen hfull hcond
  · exact (rewriteRoom_iff newSrcAddr newDstAddr hlen hzero).mp (h.cond r hr)

/-! ### Reading a rewritten frame -/

/-- The protocols whose ports are read and rewritten. -/
theorem hasPorts_iff {byte : Byte} {protocol : IpProto} (h : ipProtoFromByte byte = some protocol) :
    protocol = .tcp ∨ protocol = .udp ↔ byte = 6 ∨ byte = 17 := by
  unfold ipProtoFromByte at h
  split_ifs at h with h1 h6 h17 <;> cases h
  · subst h1
    exact iff_of_false nofun nofun
  · exact iff_of_true (.inl rfl) (.inl h6)
  · exact iff_of_true (.inr rfl) (.inr h17)

/-- The frame has the ports of its protocol. -/
def HasPorts (frame : Frame) (protocol : IpProto) : Prop :=
  protocol = .tcp ∨ protocol = .udp → 14 + ihlOf frame + 4 ≤ frame.length

/-- A frame of the same length whose fixed header fields are the same is parsed in the same
    places. -/
theorem isIpv4_of_sameHeader {frame r : Frame} (hip : IsIpv4 frame)
    (hlen : r.length = frame.length) (htype : be16At r 12 = be16At frame 12)
    (hfirst : r.byteAt 14 = frame.byteAt 14) : IsIpv4 r ∧ ihlOf r = ihlOf frame := by
  have hihl : ihlOf r = ihlOf frame := by rw [ihlOf, ihlOf, hfirst]
  obtain ⟨hlen', htype', hversion, hheader⟩ := hip
  refine ⟨⟨hlen ▸ hlen', htype.trans htype', ?_, ?_⟩, hihl⟩
  · rw [hfirst, hversion]
  · rw [hihl, hlen]
    exact hheader

theorem wireOf_of_protocol (frame : Frame) {protocol : IpProto} (hip : IsIpv4 frame)
    (hprotocol : ipProtoFromByte (frame.byteAt 23) = some protocol) :
    wireOf frame = some (tupleOf frame (ipv4Of frame) protocol) := by
  rw [wireOf, if_pos hip, hprotocol, Option.map_some]

/-- The ports of a frame that has them. -/
theorem portsOf_of_room {frame : Frame} {protocol : IpProto} {l4Off : Nat}
    (hproto : protocol = .tcp ∨ protocol = .udp) (hroom : l4Off + 4 ≤ frame.length) :
    portsOf frame protocol l4Off = (be16At frame l4Off, be16At frame (l4Off + 2)) :=
  if_pos ⟨hproto, hroom⟩

/-- **Reading back.** The source of a rewritten frame is the one it was given, and the rest
    of its 5-tuple is unchanged. -/
theorem wireOf_rewritten {frame r : Frame} {wire : FlowTuple} {addr : Ipv4Addr} {port : Port}
    (hwire : wireOf frame = some wire) (hports : HasPorts frame wire.protocol)
    (h : Rewritten frame (ihlOf frame) (some addr) none (some port) none r) :
    wireOf r = some { wire with
      src := .v4 addr
      srcPort := if wire.protocol = .tcp ∨ wire.protocol = .udp then port else 0 } := by
  obtain ⟨hip, protocol, hprotocol, rfl⟩ := wireOf_eq_some.mp hwire
  have hports : HasPorts frame protocol := hports
  -- What the parser checks lies outside the bytes that a rewrite changes.
  obtain ⟨hip', hihl'⟩ := isIpv4_of_sameHeader hip h.length
    (be16At_congr fun i _ _ => h.byteAt i (by omega)) (h.byteAt 14 (by omega))
  have hwire' := wireOf_of_protocol r hip' (by rw [h.byteAt 23 (by omega), hprotocol])
  have hiff := hasPorts_iff hprotocol
  have hget : portsOf r protocol (14 + ihlOf r) =
      (if protocol = .tcp ∨ protocol = .udp then port else 0,
        (portsOf frame protocol (14 + ihlOf frame)).2) := by
    by_cases hproto : protocol = .tcp ∨ protocol = .udp
    · have hroom := hports hproto
      rw [hihl', portsOf_of_room hproto (h.length ▸ hroom), portsOf_of_room hproto hroom,
        if_pos hproto, h.srcPort (hiff.mp hproto), h.dstPort (hiff.mp hproto)]
      rfl
    · have hnone : ∀ f : Frame, portsOf f protocol (14 + ihlOf f) = (0, 0) := fun f =>
        if_neg fun h => hproto h.1
      rw [hnone, hnone, if_neg hproto]
  have hsrc : addrAt r 26 = addr := h.src
  have hdst : addrAt r 30 = addrAt frame 30 := h.dst
  rw [hwire']
  simp only [tupleOf, ipv4Of, hget, hsrc, hdst]
  rfl

end Sarena.Soft
