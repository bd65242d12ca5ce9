import Sarena.Lib.OnesComplement

namespace Sarena.Ebpf

open Lib

/-!
# eBPF programs — local delivery

A packet for an endpoint of the node: the TTL is counted down, the Ethernet addresses are
rewritten and the packet is redirected.  The kernel's `bpf_l3_csum_replace` mends the IPv4
checksum; it is a parameter here.

* `localDelivery` — over the bytes of the packet, which an error leaves as they are by then;
* `IncrementalUpdate` — what the code counts on: with size 2 the helper is the kernel's
  `csum_replace2` on the field as a little-endian host loads it;
* `toNat_csumReplace2` — the kernel's update is the one's-complement update;
* `localDelivery_ttl`.
-/

inductive CommonError
  | packetSizeError
  deriving DecidableEq, Repr

/-- `EbpfError`. -/
inductive EbpfError
  | common (error : CommonError)
  | internalError
  | ipError
  | icmpError
  | unsupportedProtocol (protocol : Byte)
  | mapError (code : BitVec 32)
  | ttlExceeded
  | csumL3
  deriving DecidableEq, Repr

/-- `Verdict`. -/
inductive Verdict
  | pass
  | drop
  | next
  | redirect (code : BitVec 32)
  deriving DecidableEq, Repr

/-- `EndpointInfo`: what local delivery reads of it. -/
structure EndpointInfo where
  ifIndex : BitVec 32
  containerMac : Vector Byte 6
  hostMac : Vector Byte 6
  deriving DecidableEq

/-- `Res`, over the bytes of the packet. -/
abbrev Res := ExceptT EbpfError (StateM Bytes)

/-- The kernel's helpers: `bpf_l3_csum_replace` with the offset, the old and the new value and
    the flags, and `bpf_redirect` with the interface and the flags. -/
structure Helpers where
  l3CsumReplace : (offset : Nat) → (old new flags : BitVec 64) → Bytes → Except Int Bytes
  redirect : (ifIndex : BitVec 32) → (flags : BitVec 64) → Int

def ETH_HDR_LEN : Nat := 14
def IPV4_HDR_LEN : Nat := 20

/-- The offset of the IPv4 header checksum field within the frame. -/
def IPV4_CSUM_OFF : Nat := ETH_HDR_LEN + 10

/-- The offset of the TTL within the frame. -/
def TTL_OFF : Nat := ETH_HDR_LEN + 8

/-- `ref_at_mut`: a header of `len` bytes lies within the packet. -/
def refAtMut (offset len : Nat) : Res Unit := do
  if offset + len > (← get).length then throw (.common .packetSizeError)

/-- `ipv4_dec_ttl`. -/
def ipv4DecTtl (k : Helpers) : Res Unit := do
  refAtMut ETH_HDR_LEN IPV4_HDR_LEN
  let ttl := (← get).byteAt TTL_OFF
  if ttl ≤ 1 then throw .ttlExceeded
  let old := ttl
  let new := old - 1
  modify fun packet => packet.patch TTL_OFF [new]
  match k.l3CsumReplace IPV4_CSUM_OFF (old.setWidth 64) (new.setWidth 64) 2 (← get) with
  | .ok packet => set packet
  | .error _ => throw .csumL3

/-- `rewrite_eth`. -/
def rewriteEth (srcMac dstMac : Vector Byte 6) : Res Unit := do
  refAtMut 0 ETH_HDR_LEN
  modify fun packet => packet.patch 0 dstMac.toList
  modify fun packet => packet.patch 6 srcMac.toList

/-- `local_delivery`. -/
def localDelivery (k : Helpers) (ep : EndpointInfo) : Res Verdict := do
  let srcMac := ep.hostMac
  let dstMac := ep.containerMac
  ipv4DecTtl k
  rewriteEth srcMac dstMac
  return .redirect (BitVec.ofInt 32 (k.redirect ep.ifIndex 0))

/-! ### The kernel's incremental update -/

/-- `csum16_add` of the kernel: an addition with its carry added back. -/
def csum16Add (csum addend : BitVec 16) : BitVec 16 :=
  let res := csum + addend
  res + if res < addend then 1 else 0

/-- `csum16_sub`. -/
def csum16Sub (csum addend : BitVec 16) : BitVec 16 := csum16Add csum (~~~ addend)

/-- `csum_replace2`. -/
def csumReplace2 (sum old new : BitVec 16) : BitVec 16 :=
  ~~~ csum16Add (csum16Sub (~~~ sum) old) new

/-- A 16-bit load of a little-endian host. -/
def le16At (b : Bytes) (i : Nat) : BitVec 16 := fromBeBytes (b.byteAt (i + 1)) (b.byteAt i)

/-- The bytes of a 16-bit store of a little-endian host. -/
def toLe16 (n : BitVec 16) : Bytes := [n.extractLsb' 0 8, n.extractLsb' 8 8]

@[simp] theorem length_toLe16 (n : BitVec 16) : (toLe16 n).length = 2 := rfl

/-- **The helper as it is documented**, on a little-endian host: with size 2, the 16-bit field
    at an even offset of the packet is updated for a 16-bit value that has been replaced. -/
structure IncrementalUpdate (k : Helpers) : Prop where
  replace2 : ∀ (packet : Bytes) (offset : Nat) (old new : BitVec 64), offset % 2 = 0 →
    offset ≤ 0xFFFF → offset + 2 ≤ packet.length →
    k.l3CsumReplace offset old new 2 packet = .ok (packet.patch offset
      (toLe16 (csumReplace2 (le16At packet offset) (old.setWidth 16) (new.setWidth 16))))

theorem toNat_csum16Add (a b : BitVec 16) :
    (csum16Add a b).toNat = endAround 65535 (a.toNat + b.toNat) := by
  have ha := a.isLt
  have hb := b.isLt
  have hres : (a + b).toNat = (a.toNat + b.toNat) % 65536 := BitVec.toNat_add a b
  rw [csum16Add]
  rcases Nat.lt_or_ge (a.toNat + b.toNat) 65536 with hlt | hge
  · -- No carry.
    have hnot : ¬ a + b < b := by
      rw [BitVec.lt_def, hres]
      omega
    have hzero : a + b + 0 = a + b := BitVec.add_zero _
    rw [if_neg hnot, hzero, hres, endAround_of_le (by omega), Nat.mod_eq_of_lt hlt]
  · -- The carry out of the word is its last place again.
    have hless : a + b < b := by
      rw [BitVec.lt_def, hres]
      omega
    have hsplit : a.toNat + b.toNat = (a.toNat + b.toNat - 65536) + (65535 + 1) * 1 := by omega
    rw [if_pos hless, BitVec.toNat_add, hres, hsplit, ← endAround_carry,
      endAround_of_le (by omega)]
    have hone : (1 : BitVec 16).toNat = 1 := rfl
    rw [hone]
    omega

/-- **The kernel's update** is the one's-complement update. -/
theorem toNat_csumReplace2 (sum old new : BitVec 16) :
    (csumReplace2 sum old new).toNat = updated 65535 sum.toNat old.toNat new.toNat := by
  have hnot : ∀ x : BitVec 16, (~~~ x).toNat = 65535 - x.toNat := fun x => BitVec.toNat_not
  rw [csumReplace2, csum16Sub, hnot, toNat_csum16Add, toNat_csum16Add, hnot, hnot, updated]

/-! ### The checksum after the update -/

/-- The first byte of a word written. -/
theorem patch_first {b : Bytes} {off : Nat} (x : Byte) (hlen : off + 2 ≤ b.length) :
    b.patch off [x] = b.patch off [x, b.byteAt (off + 1)] := by
  have hfits : off + [x].length ≤ b.length := Nat.le_of_succ_le hlen
  rw [← Bytes.patch_pair x _ hlen]
  refine (Bytes.patch_self ?_ fun i hi => ?_).symm
  · rw [Bytes.length_patch hfits]
    exact hlen
  · obtain rfl : i = 0 := Nat.lt_one_iff.mp hi
    have hout : ¬ (off ≤ off + 1 + 0 ∧ off + 1 + 0 < off + [x].length) := fun h =>
      Nat.lt_irrefl _ h.2
    rw [Bytes.byteAt_patch hfits, if_neg hout]
    rfl

/-- The sum of a buffer after the first byte of a word has been replaced. -/
theorem wordSum_patch_first {b : Bytes} {off : Nat} (x : Byte) (heven : off % 2 = 0)
    (hlen : off + 2 ≤ b.length) :
    wordSum (b.patch off [x]) + 256 * (b.byteAt off).toNat = wordSum b + 256 * x.toNat := by
  have hpatch := wordSum_patch x (b.byteAt (off + 1)) heven hlen
  rw [toNat_fromBeBytes, toNat_fromBeBytes] at hpatch
  rw [patch_first x hlen]
  omega

/-- A word as the host loads it, and as the sum counts it. -/
theorem word_modEq_le16At (b : Bytes) (off : Nat) :
    (fromBeBytes (b.byteAt off) (b.byteAt (off + 1))).toNat ≡ 256 * (le16At b off).toNat
      [MOD 65535] := fromBeBytes_swap _ _

/-- A byte written elsewhere does not show in a load. -/
theorem le16At_patch {b : Bytes} {off i : Nat} (x : Byte) (hlen : off + 1 ≤ b.length) (hi : i ≠ off)
    (hi' : i + 1 ≠ off) : le16At (b.patch off [x]) i = le16At b i := by
  have hfits : off + [x].length ≤ b.length := hlen
  have hout : ∀ j, j ≠ off → (b.patch off [x]).byteAt j = b.byteAt j := fun j hj => by
    rw [Bytes.byteAt_patch hfits, List.length_singleton, if_neg (by omega)]
  rw [le16At, le16At, hout _ hi, hout _ hi']

/-- The sum of a buffer after a word has been stored by the host. -/
theorem wordSum_toLe16 {b : Bytes} {off : Nat} (n : BitVec 16) (heven : off % 2 = 0)
    (hlen : off + 2 ≤ b.length) :
    wordSum (b.patch off (toLe16 n)) + 256 * (le16At b off).toNat ≡ wordSum b + 256 * n.toNat
      [MOD 65535] := by
  have hpatch := wordSum_patch (n.extractLsb' 0 8) (n.extractLsb' 8 8) heven hlen
  have hstored : (fromBeBytes (n.extractLsb' 0 8) (n.extractLsb' 8 8)).toNat ≡ 256 * n.toNat
      [MOD 65535] := by
    have hswap := fromBeBytes_swap (n.extractLsb' 8 8) (n.extractLsb' 0 8)
    rwa [fromBeBytes_toBeBytes] at hswap
  calc wordSum (b.patch off (toLe16 n)) + 256 * (le16At b off).toNat
      ≡ wordSum (b.patch off (toLe16 n)) +
          (fromBeBytes (b.byteAt off) (b.byteAt (off + 1))).toNat [MOD 65535] :=
        Nat.ModEq.add_left _ (word_modEq_le16At b off).symm
    _ = wordSum b + (fromBeBytes (n.extractLsb' 0 8) (n.extractLsb' 8 8)).toNat := hpatch
    _ ≡ wordSum b + 256 * n.toNat [MOD 65535] := Nat.ModEq.add_left _ hstored

/-- The update of the checksum by the host gains what the replaced byte has lost. -/
theorem csumReplace2_modEq (check : BitVec 16) (old new : Byte) :
    (csumReplace2 check (old.setWidth 16) (new.setWidth 16)).toNat + new.toNat ≡
      check.toNat + old.toNat [MOD 65535] := by
  have hwidth : ∀ x : Byte, (x.setWidth 16).toNat = x.toNat := fun x =>
    BitVec.toNat_setWidth_of_le (by decide)
  have hle := check.isLt
  have hold8 := old.isLt
  rw [toNat_csumReplace2, hwidth, hwidth]
  exact updated_modEq (by decide) (by omega) (by omega)

/-- **The update keeps the buffer balanced**: the first byte of a word is replaced, and the
    checksum in another word is updated by the host for the replaced byte. -/
theorem verifies_update {b : Bytes} {off field : Nat} {old new : Byte} (hoff : off % 2 = 0)
    (hfield : field % 2 = 0) (hlen : off + 2 ≤ b.length) (hlen' : field + 2 ≤ b.length)
    (hne : off ≠ field) (hold : b.byteAt off = old) (hnew : 0 < new.toNat) (h : Verifies b) :
    Verifies ((b.patch off [new]).patch field
      (toLe16 (csumReplace2 (le16At b field) (old.setWidth 16) (new.setWidth 16)))) := by
  have hfits : off + [new].length ≤ b.length := Nat.le_of_succ_le hlen
  have hlen1 : (b.patch off [new]).length = b.length := Bytes.length_patch hfits
  have hsum1 := wordSum_patch_first new hoff hlen
  have hload : le16At (b.patch off [new]) field = le16At b field :=
    le16At_patch new (by omega) (by omega) (by omega)
  have hbyte1 : (b.patch off [new]).byteAt off = new := by
    have h0 := Bytes.byteAt_patch_add hfits (show 0 < [new].length from Nat.one_pos)
    exact h0
  rw [hold] at hsum1
  generalize b.patch off [new] = b1 at hlen1 hsum1 hload hbyte1
  have hupdate := csumReplace2_modEq (le16At b field) old new
  generalize csumReplace2 (le16At b field) (old.setWidth 16) (new.setWidth 16) = csum at hupdate ⊢
  have hsum2 := wordSum_toLe16 csum hfield (b := b1) (by omega)
  rw [hload] at hsum2
  have hfits2 : field + (toLe16 csum).length ≤ List.length b1 := by
    rw [hlen1]
    exact hlen'
  refine verifies_iff.mpr ⟨?_, ?_⟩
  · -- The replaced byte alone keeps the sum from being empty.
    have hbyte : (b1.patch field (toLe16 csum)).byteAt off = b1.byteAt off := by
      have hout : ¬ (field ≤ off ∧ off < field + (toLe16 csum).length) := by
        show ¬ (field ≤ off ∧ off < field + 2)
        omega
      rw [Bytes.byteAt_patch hfits2, if_neg hout]
    have hword := word_le_wordSum hoff (b := b1.patch field (toLe16 csum)) (by
      rw [Bytes.length_patch hfits2, hlen1]
      exact hlen)
    rw [toNat_fromBeBytes, hbyte, hbyte1] at hword
    omega
  · refine Nat.ModEq.trans ?_ (verifies_iff.mp h).2
    apply Nat.ModEq.add_right_cancel' (256 * ((le16At b field).toNat + old.toNat))
    calc wordSum (b1.patch field (toLe16 csum)) + 256 * ((le16At b field).toNat + old.toNat)
        = wordSum (b1.patch field (toLe16 csum)) + 256 * (le16At b field).toNat +
            256 * old.toNat := by omega
      _ ≡ wordSum b1 + 256 * csum.toNat + 256 * old.toNat [MOD 65535] := hsum2.add_right _
      _ = wordSum b + 256 * (csum.toNat + new.toNat) := by omega
      _ ≡ wordSum b + 256 * ((le16At b field).toNat + old.toNat) [MOD 65535] :=
        Nat.ModEq.add_left _ (hupdate.mul_left 256)

/-! ### Running local delivery -/

section

variable {α β : Type} {m : Res α} {f : α → Res β} {packet packet' : Bytes}

theorem run_bind_ok {a : α} (h : m.run.run packet = (.ok a, packet')) :
    (m >>= f).run.run packet = (f a).run.run packet' := by
  simp only [ExceptT.run, StateT.run] at h
  simp only [bind, ExceptT.bind, ExceptT.mk, ExceptT.run, StateT.run, StateT.bind, h]
  rfl

theorem run_bind_error {e : EbpfError} (h : m.run.run packet = (.error e, packet')) :
    (m >>= f).run.run packet = (.error e, packet') := by
  simp only [ExceptT.run, StateT.run] at h
  simp only [bind, ExceptT.bind, ExceptT.mk, ExceptT.run, StateT.run, StateT.bind, h]
  rfl

end

theorem run_refAtMut {offset len : Nat} {packet : Bytes} (h : offset + len ≤ packet.length) :
    (refAtMut offset len).run.run packet = (.ok (), packet) := by
  have hnot : ¬ offset + len > List.length packet := Nat.not_lt.mpr h
  show (ite (offset + len > List.length packet) _ _ : Res Unit).run.run packet = _
  rw [if_neg hnot]
  rfl

theorem run_refAtMut_short {offset len : Nat} {packet : Bytes} (h : packet.length < offset + len) :
    (refAtMut offset len).run.run packet = (.error (.common .packetSizeError), packet) := by
  show (ite (offset + len > List.length packet) _ _ : Res Unit).run.run packet = _
  rw [if_pos h]
  rfl

variable {k : Helpers} {packet : Bytes}

/-- A packet without a whole header is refused. -/
theorem run_ipv4DecTtl_short (hlen : packet.length < 34) :
    (ipv4DecTtl k).run.run packet = (.error (.common .packetSizeError), packet) :=
  run_bind_error (run_refAtMut_short hlen)

/-- A TTL that is used up is refused before anything is written. -/
theorem run_ipv4DecTtl_exceeded (hlen : 34 ≤ packet.length) (httl : (packet.byteAt 22).toNat ≤ 1) :
    (ipv4DecTtl k).run.run packet = (.error .ttlExceeded, packet) := by
  rw [ipv4DecTtl, run_bind_ok (run_refAtMut hlen)]
  have hle : packet.byteAt TTL_OFF ≤ 1 := httl
  show (ite (packet.byteAt TTL_OFF ≤ 1) _ _ : Res Unit).run.run packet = _
  rw [if_pos hle]
  rfl

/-- The packet with its TTL counted down and its header checksum updated. -/
def decremented (packet : Bytes) : Bytes :=
  (packet.patch 22 [packet.byteAt 22 - 1]).patch 24
    (toLe16 (csumReplace2 (le16At packet 24) ((packet.byteAt 22).setWidth 16)
      ((packet.byteAt 22 - 1).setWidth 16)))

theorem length_patch_ttl {packet : Bytes} (hlen : 34 ≤ packet.length) :
    (packet.patch 22 [packet.byteAt 22 - 1]).length = packet.length :=
  Bytes.length_patch (Nat.le_trans (show 23 ≤ 34 by decide) hlen)

theorem length_decremented (hlen : 34 ≤ packet.length) :
    (decremented packet).length = packet.length := by
  have h1 := length_patch_ttl hlen
  have h2 : 24 + 2 ≤ (packet.patch 22 [packet.byteAt 22 - 1]).length := by omega
  exact (Bytes.length_patch h2).trans h1

theorem run_ipv4DecTtl (hk : IncrementalUpdate k) (hlen : 34 ≤ packet.length)
    (httl : 2 ≤ (packet.byteAt 22).toNat) :
    (ipv4DecTtl k).run.run packet = (.ok (), decremented packet) := by
  rw [ipv4DecTtl, run_bind_ok (run_refAtMut hlen)]
  have hle : ¬ packet.byteAt TTL_OFF ≤ 1 := fun h =>
    absurd (show (packet.byteAt 22).toNat ≤ 1 from h)
    (Nat.not_le.mpr httl)
  have h1 := length_patch_ttl hlen
  have hhelper := hk.replace2 (packet.patch 22 [packet.byteAt 22 - 1]) 24
    ((packet.byteAt 22).setWidth 64) ((packet.byteAt 22 - 1).setWidth 64) (by decide) (by decide)
    (by omega)
  show (ite (packet.byteAt TTL_OFF ≤ 1) _ _ : Res Unit).run.run packet = _
  rw [if_neg hle]
  show (match k.l3CsumReplace 24 ((packet.byteAt 22).setWidth 64)
    ((packet.byteAt 22 - 1).setWidth 64) 2 (packet.patch 22 [packet.byteAt 22 - 1]) with
    | .ok packet => (set packet : Res Unit)
    | .error _ => throw EbpfError.csumL3).run.run (packet.patch 22 [packet.byteAt 22 - 1]) = _
  have hwidth : ∀ x : Byte, (x.setWidth 64).setWidth 16 = x.setWidth 16 := fun x =>
    BitVec.setWidth_setWidth_of_le x (by decide)
  rw [hhelper, le16At_patch _ (by omega) (by decide) (by decide), hwidth, hwidth]
  rfl

/-- The packet with its Ethernet addresses replaced. -/
def addressed (packet : Bytes) (srcMac dstMac : Vector Byte 6) : Bytes :=
  (packet.patch 0 dstMac.toList).patch 6 srcMac.toList

/-- The addresses in front of the rest of the packet. -/
theorem addressed_eq (packet : Bytes) (srcMac dstMac : Vector Byte 6) :
    addressed packet srcMac dstMac = dstMac.toList ++ (srcMac.toList ++ packet.drop 12) := by
  have hdst : dstMac.toList.length = 6 := Vector.length_toList
  have hsrc : srcMac.toList.length = 6 := Vector.length_toList
  have h1 : packet.patch 0 dstMac.toList = dstMac.toList ++ packet.drop 6 := by
    rw [Bytes.patch, List.take_zero, List.nil_append, hdst]
  rw [addressed, h1, Bytes.patch, List.take_left' hdst, hsrc, List.append_assoc, List.drop_append,
    hdst, List.drop_drop, List.drop_of_length_le (by omega)]
  rfl

theorem length_addressed (srcMac dstMac : Vector Byte 6) (hlen : 14 ≤ packet.length) :
    (addressed packet srcMac dstMac).length = packet.length := by
  rw [addressed_eq, List.length_append, List.length_append, List.length_drop, Vector.length_toList,
    Vector.length_toList]
  omega

theorem run_rewriteEth (srcMac dstMac : Vector Byte 6) (hlen : 14 ≤ packet.length) :
    (rewriteEth srcMac dstMac).run.run packet = (.ok (), addressed packet srcMac dstMac) := by
  rw [rewriteEth, run_bind_ok (run_refAtMut (by rw [ETH_HDR_LEN]; omega))]
  rfl

/-! ### The packet that is delivered -/

/-- The IPv4 header of a packet, options included. -/
def ipv4Header (packet : Bytes) (ihl : Nat) : Bytes := (packet.drop 14).take ihl

/-- **Counting the TTL down keeps the header checksum valid.** -/
theorem verifies_decremented {ihl : Nat} (hihl : 20 ≤ ihl) (hlen : 14 + ihl ≤ packet.length)
    (httl : 2 ≤ (packet.byteAt 22).toNat) (h : Verifies (ipv4Header packet ihl)) :
    Verifies (ipv4Header (decremented packet) ihl) := by
  have hheader : (ipv4Header packet ihl).length = ihl := Bytes.length_take_drop hlen
  have hbyte : ∀ i, i < ihl → Bytes.byteAt (ipv4Header packet ihl) i = packet.byteAt (14 + i) :=
    fun i hi => Bytes.byteAt_take_drop hi
  have hload : le16At (ipv4Header packet ihl) 10 = le16At packet 24 := by
    rw [le16At, le16At, hbyte 11 (by omega), hbyte 10 (by omega)]
  -- The two writes, seen from the header: the word of the TTL and the checksum next to it.
  have h1 : ipv4Header (packet.patch 22 [packet.byteAt 22 - 1]) ihl =
      (ipv4Header packet ihl).patch 8 [packet.byteAt 22 - 1] :=
    Bytes.take_drop_patch 8 hlen (show 8 + 1 ≤ ihl by omega)
  have hlen1 := length_patch_ttl (show 34 ≤ packet.length by omega)
  have h2 : ∀ src : Bytes, src.length = 2 →
      ipv4Header ((packet.patch 22 [packet.byteAt 22 - 1]).patch 24 src) ihl =
        ((ipv4Header packet ihl).patch 8 [packet.byteAt 22 - 1]).patch 10 src := by
    intro src hsrc
    rw [← h1]
    exact Bytes.take_drop_patch 10 (by omega) (by omega)
  rw [decremented, h2 _ rfl, ← hload]
  refine verifies_update (by decide) (by decide) (by omega) (by omega) (by decide)
    (hbyte 8 (by omega)) ?_ h
  have hone : (1 : Byte).toNat = 1 := rfl
  rw [BitVec.toNat_sub_of_le (show (1 : Byte) ≤ packet.byteAt 22 from by rw [BitVec.le_def]; omega)]
  omega

/-- What local delivery makes of a packet. -/
structure Delivered (ep : EndpointInfo) (packet : Bytes) (ihl : Nat) (r : Bytes) : Prop where
  length : r.length = packet.length
  ttl : (r.byteAt 22).toNat = (packet.byteAt 22).toNat - 1
  checksum : Verifies (ipv4Header r ihl)
  dstMac : r.take 6 = ep.containerMac.toList
  srcMac : (r.drop 6).take 6 = ep.hostMac.toList
  unchanged : ∀ i, 12 ≤ i → i ≠ 22 → i ≠ 24 → i ≠ 25 → r.byteAt i = packet.byteAt i

/-- The bytes outside the checksum show the TTL counted down, and nothing else new. -/
theorem byteAt_decremented (hlen : 34 ≤ packet.length) {i : Nat} (hi : ¬ (24 ≤ i ∧ i < 26)) :
    (decremented packet).byteAt i = if i = 22 then packet.byteAt 22 - 1 else packet.byteAt i := by
  have hfits : 22 + [packet.byteAt 22 - 1].length ≤ packet.length :=
    Nat.le_trans (show 23 ≤ 34 by decide) hlen
  rw [decremented]
  generalize csumReplace2 _ _ _ = csum
  have hfits' : 24 + (toLe16 csum).length ≤ (packet.patch 22 [packet.byteAt 22 - 1]).length := by
    rw [length_patch_ttl hlen]
    exact Nat.le_trans (show 26 ≤ 34 by decide) hlen
  rw [Bytes.byteAt_patch hfits', length_toLe16, if_neg hi, Bytes.byteAt_patch hfits,
    List.length_singleton]
  by_cases h : i = 22
  · subst h
    rfl
  · rw [if_neg (by omega), if_neg h]

theorem byteAt_addressed (srcMac dstMac : Vector Byte 6) {i : Nat} (hi : 12 ≤ i) :
    (addressed packet srcMac dstMac).byteAt i = packet.byteAt i := by
  have hdst : dstMac.toList.length = 6 := Vector.length_toList
  have hsrc : srcMac.toList.length = 6 := Vector.length_toList
  rw [addressed_eq, Bytes.byteAt, List.getD_append_right _ _ _ _ (by omega),
    List.getD_append_right _ _ _ _ (by omega), hdst, hsrc, List.getD_eq_getElem?_getD,
    List.getElem?_drop, ← List.getD_eq_getElem?_getD, Bytes.byteAt]
  congr 1
  omega

theorem delivered_addressed (ep : EndpointInfo) {ihl : Nat} (hihl : 20 ≤ ihl)
    (hlen : 14 + ihl ≤ packet.length) (hsum : Verifies (ipv4Header packet ihl))
    (httl : 2 ≤ (packet.byteAt 22).toNat) :
    Delivered ep packet ihl (addressed (decremented packet) ep.hostMac ep.containerMac) := by
  have hlen34 : 34 ≤ packet.length := by omega
  have hdec := length_decremented hlen34
  have hadd := length_addressed ep.hostMac ep.containerMac
    (show 14 ≤ (decremented packet).length by omega)
  have hdst : ep.containerMac.toList.length = 6 := Vector.length_toList
  have hsrc : ep.hostMac.toList.length = 6 := Vector.length_toList
  refine ⟨hadd.trans hdec, ?_, ?_, ?_, ?_, fun i hi h22 h24 h25 => ?_⟩
  · have hone : (1 : Byte) ≤ packet.byteAt 22 := by
      rw [BitVec.le_def]
      exact Nat.le_of_succ_le httl
    rw [byteAt_addressed _ _ (by omega), byteAt_decremented hlen34 (by omega), if_pos rfl,
      BitVec.toNat_sub_of_le hone]
    rfl
  · -- The Ethernet addresses lie in front of the header.
    have hheader : ipv4Header (addressed (decremented packet) ep.hostMac ep.containerMac) ihl =
        ipv4Header (decremented packet) ihl :=
      Bytes.take_drop_congr (by omega) (by omega) fun i hi _ => byteAt_addressed _ _ (by omega)
    rw [hheader]
    exact verifies_decremented hihl hlen httl hsum
  · rw [addressed_eq, List.take_left' hdst]
  · rw [addressed_eq, List.drop_left' hdst, List.take_left' hsrc]
  · rw [byteAt_addressed _ _ hi, byteAt_decremented hlen34 (by omega), if_neg h22]

/-- **Local delivery and the TTL.** -/
theorem localDelivery_ttl (hk : IncrementalUpdate k) (ep : EndpointInfo) (packet : Bytes) :
    (∀ ihl, 20 ≤ ihl → 14 + ihl ≤ packet.length → Verifies (ipv4Header packet ihl) →
      2 ≤ (packet.byteAt 22).toNat → ∃ r,
        (localDelivery k ep).run.run packet =
          (.ok (.redirect (BitVec.ofInt 32 (k.redirect ep.ifIndex 0))), r) ∧
        Delivered ep packet ihl r) ∧
    ((packet.byteAt 22).toNat ≤ 1 → ∃ e, (localDelivery k ep).run.run packet = (.error e, packet) ∧
      (34 ≤ packet.length → e = .ttlExceeded)) := by
  constructor
  · intro ihl hihl hlen hsum httl
    have hlen34 : 34 ≤ packet.length := by omega
    have hdec := length_decremented hlen34
    refine ⟨addressed (decremented packet) ep.hostMac ep.containerMac, ?_, ?_⟩
    · rw [localDelivery, run_bind_ok (run_ipv4DecTtl hk hlen34 httl),
        run_bind_ok (run_rewriteEth _ _ (by omega))]
      rfl
    · exact delivered_addressed ep hihl hlen hsum httl
  · intro httl
    rcases Nat.lt_or_ge packet.length 34 with hshort | hlen
    · exact ⟨_, run_bind_error (run_ipv4DecTtl_short hshort), fun h => absurd h (by omega)⟩
    · exact ⟨_, run_bind_error (run_ipv4DecTtl_exceeded hlen httl), fun _ => rfl⟩

/-- The helpers of a little-endian kernel, for updates of size 2. -/
def littleEndianHelpers : Helpers where
  l3CsumReplace offset old new flags packet :=
    if offset % 2 ≠ 0 ∨ 0xFFFF < offset ∨ packet.length < offset + 2 then .error (-14)
    else if flags = 2 then .ok (packet.patch offset
      (toLe16 (csumReplace2 (le16At packet offset) (old.setWidth 16) (new.setWidth 16))))
    else .error (-22)
  redirect _ _ := 7

theorem incrementalUpdate_littleEndianHelpers : IncrementalUpdate littleEndianHelpers where
  replace2 packet offset old new heven hmax hlen := by
    have hok : ¬ (offset % 2 ≠ 0 ∨ 0xFFFF < offset ∨ packet.length < offset + 2) := by omega
    exact (if_neg hok).trans (if_pos rfl)

/-- A packet whose IPv4 header has options and a TTL of 64. -/
def optionsPacket : Bytes :=
  List.replicate 12 0 ++ [0x08, 0x00] ++ [0x46, 0, 0, 24, 0, 0, 0, 0, 64, 1, 0x63, 0xE2] ++
    [10, 0, 0, 1, 10, 0, 0, 2, 1, 1, 1, 0]

theorem localDelivery_ttl_optionsPacket : ∃ r,
    (localDelivery littleEndianHelpers ⟨3, .replicate 6 0x0A, .replicate 6 0x0B⟩).run.run
        optionsPacket = (.ok (.redirect 7), r) ∧
      Delivered ⟨3, .replicate 6 0x0A, .replicate 6 0x0B⟩ optionsPacket 24 r :=
  (localDelivery_ttl incrementalUpdate_littleEndianHelpers _ optionsPacket).1 24 (by decide)
    (by decide) (by decide) (by decide)

end Sarena.Ebpf
