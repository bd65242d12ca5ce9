import Mathlib.Data.Nat.ModEq
import Sarena.Lib.Bytes

namespace Sarena.Lib

/-!
# Library — one's-complement sums

Addition with end-around carry, and the checksum of RFC 1071 made of it.  A sum is the
class of a number modulo the largest word `m`, with two spellings of zero: `0` for the sum
of nothing but zeros, and `m` for every other multiple.

* `endAround m n` — what `n` comes to when its carries are added back until none is left,
  and `endAround_carry`;
* `endAround_insert` — a sum and its complement come to all ones;
* `updated_modEq` — the complement after one summand has been replaced;
* `wordSum` — the sum of the 16-bit words of a buffer, and what writing one word does to it
  (`wordSum_patch`);
* `Verifies` — a buffer whose words come to all ones, checksum included, and
  `verifies_patch`.
-/

/-! ### End-around carry -/

/-- The number that is left when every carry out of `0..m` is added back. -/
def endAround (m n : Nat) : Nat := if n = 0 then 0 else (n - 1) % m + 1

section

variable {m a b : Nat}

@[simp] theorem endAround_zero (m : Nat) : endAround m 0 = 0 := if_pos rfl

theorem endAround_pos_iff : 0 < endAround m a ↔ 0 < a := by
  rw [endAround]
  split <;> omega

theorem endAround_le (hm : 0 < m) (a : Nat) : endAround m a ≤ m := by
  have := Nat.mod_lt (a - 1) hm
  rw [endAround]
  split <;> omega

theorem endAround_modEq (m a : Nat) : endAround m a ≡ a [MOD m] := by
  rw [endAround]
  by_cases h : a = 0
  · rw [if_pos h, h]
  · rw [if_neg h]
    have hmod := (Nat.mod_modEq (a - 1) m).add_right 1
    rwa [Nat.sub_add_cancel (Nat.pos_of_ne_zero h)] at hmod

/-- The only number of `1..m` in the class of a positive number. -/
theorem endAround_unique (ha : 0 < a) (hb : 0 < b) (hle : b ≤ m) (h : b ≡ a [MOD m]) :
    endAround m a = b := by
  have hpos : 0 < endAround m a := endAround_pos_iff.mpr ha
  have hle' := endAround_le (Nat.lt_of_lt_of_le hb hle) a
  have hsame : endAround m a ≡ b [MOD m] := (endAround_modEq m a).trans h.symm
  rcases Nat.lt_or_ge (endAround m a) b with hlt | hge
  · have := hsame.add_le_of_lt hlt
    omega
  · rcases Nat.lt_or_ge b (endAround m a) with hlt | hle
    · have := hsame.symm.add_le_of_lt hlt
      omega
    · omega

/-- What is in range carries nothing. -/
theorem endAround_of_le (h : a ≤ m) : endAround m a = a := by
  rcases Nat.eq_zero_or_pos a with rfl | ha
  · exact endAround_zero m
  · exact endAround_unique ha ha h rfl

theorem endAround_congr (hpos : 0 < a ↔ 0 < b) (h : a ≡ b [MOD m]) :
    endAround m a = endAround m b := by
  rcases Nat.eq_zero_or_pos m with rfl | hm
  · rw [Nat.modEq_zero_iff.mp h]
  rcases Nat.eq_zero_or_pos b with rfl | hb
  · rw [Nat.eq_zero_of_not_pos fun ha => absurd (hpos.mp ha) (Nat.lt_irrefl 0)]
  · exact endAround_unique (hpos.mpr hb) (endAround_pos_iff.mpr hb) (endAround_le hm b)
      ((endAround_modEq m b).trans h.symm)

/-- **The end-around carry**: what stands above the word is added to it. -/
theorem endAround_carry (m low high : Nat) :
    endAround m (low + high) = endAround m (low + (m + 1) * high) := by
  apply endAround_congr
  · rcases Nat.eq_zero_or_pos high with rfl | h
    · rfl
    · have : 0 < (m + 1) * high := Nat.mul_pos (Nat.succ_pos m) h
      omega
  · have hmul : (m + 1) * high = m * high + high := Nat.succ_mul m high
    refine Nat.ModEq.add_left low ?_
    rw [hmul]
    exact (Nat.modulus_mul_add_modEq_iff.mpr rfl).symm

/-- All ones are the spelling of zero of every sum but the empty one. -/
theorem endAround_eq_top_iff (hm : 0 < m) : endAround m a = m ↔ 0 < a ∧ a ≡ 0 [MOD m] := by
  constructor
  · intro h
    have hpos : 0 < endAround m a := by omega
    refine ⟨endAround_pos_iff.mp hpos, ?_⟩
    have hmod := (endAround_modEq m a).symm
    rw [h] at hmod
    exact hmod.trans Nat.modulus_modEq_zero
  · rintro ⟨hpos, hmod⟩
    exact endAround_unique hpos hm le_rfl (Nat.modulus_modEq_zero.trans hmod.symm)

/-- **A sum and its complement** come to all ones. -/
theorem endAround_insert (hm : 0 < m) (a : Nat) : endAround m (a + (m - endAround m a)) = m := by
  have hle := endAround_le hm a
  have hpos : 0 < endAround m a ↔ 0 < a := endAround_pos_iff
  refine (endAround_eq_top_iff hm).mpr ⟨by omega, ?_⟩
  have hsame := (endAround_modEq m a).symm.add_right (m - endAround m a)
  rw [Nat.add_sub_cancel' hle] at hsame
  exact hsame.trans Nat.modulus_modEq_zero

/-- The other spelling of a zero complement serves as well. -/
theorem endAround_insert_top (hm : 0 < m) (h : endAround m a = m) : endAround m (a + m) = m := by
  obtain ⟨hpos, hmod⟩ := (endAround_eq_top_iff hm).mp h
  exact (endAround_eq_top_iff hm).mpr ⟨by omega, Nat.add_modulus_modEq_iff.mpr hmod⟩

/-- The complement `c` of a sum, after its summand `old` has become `new`: `~(~c + ~old + new)`. -/
def updated (m c old new : Nat) : Nat :=
  m - endAround m (endAround m ((m - c) + (m - old)) + new)

/-- **The incremental update** takes off what the summand has gained. -/
theorem updated_modEq {c old new : Nat} (hm : 0 < m) (hc : c ≤ m) (hold : old ≤ m) :
    updated m c old new + new ≡ c + old [MOD m] := by
  have hle := endAround_le hm (endAround m ((m - c) + (m - old)) + new)
  have hsum : endAround m (endAround m ((m - c) + (m - old)) + new) ≡ (m - c) + (m - old) + new
      [MOD m] := (endAround_modEq m _).trans ((endAround_modEq m _).add_right new)
  -- Both sides are compared with the folded sum added to them.
  refine Nat.ModEq.add_right_cancel hsum ?_
  rw [updated]
  generalize endAround m (endAround m ((m - c) + (m - old)) + new) = s at hle
  have hleft : m - s + new + s = m + new := by omega
  have hright : c + old + ((m - c) + (m - old) + new) = m + (m + new) := by omega
  rw [hleft, hright]
  exact Nat.modEq_modulus_add_iff.mpr rfl

end

/-! ### The words of a buffer -/

theorem toNat_fromBeBytes (hi lo : Byte) :
    (fromBeBytes hi lo).toNat = 256 * hi.toNat + lo.toNat := by
  have := lo.isLt
  rw [fromBeBytes, BitVec.toNat_append, ← Nat.shiftLeft_add_eq_or_of_lt (by omega),
    Nat.shiftLeft_eq, Nat.mul_comm]

/-- Read from the other end, a word is the word times 256. -/
theorem fromBeBytes_swap (hi lo : Byte) :
    (fromBeBytes lo hi).toNat ≡ 256 * (fromBeBytes hi lo).toNat [MOD 65535] := by
  have hsplit : 256 * (256 * hi.toNat + lo.toNat) =
      65535 * hi.toNat + (256 * lo.toNat + hi.toNat) := by omega
  rw [toNat_fromBeBytes, toNat_fromBeBytes, hsplit]
  exact (Nat.modulus_mul_add_modEq_iff.mpr rfl).symm

/-- The sum of the big-endian 16-bit words of a buffer, an odd last byte padded with a zero. -/
def wordSum : Bytes → Nat
  | [] => 0
  | [last] => 256 * last.toNat
  | hi :: lo :: rest => (fromBeBytes hi lo).toNat + wordSum rest

/-- Buffers one after the other: the first has no byte left over. -/
theorem wordSum_append (a b : Bytes) (h : a.length % 2 = 0) :
    wordSum (a ++ b) = wordSum a + wordSum b := by
  induction a using wordSum.induct with
  | case1 => exact (Nat.zero_add _).symm
  | case2 last => simp at h
  | case3 hi lo rest ih =>
    rw [List.length_cons, List.length_cons] at h
    show (fromBeBytes hi lo).toNat + wordSum (rest ++ b) = _
    rw [ih (by omega), wordSum, Nat.add_assoc]

/-- A buffer with a word written into it, cut at that word. -/
theorem wordSum_patch_eq {b : Bytes} {off : Nat} (hi lo : Byte) (heven : off % 2 = 0)
    (hlen : off + 2 ≤ b.length) : wordSum (b.patch off [hi, lo]) =
      wordSum (b.take off) + ((fromBeBytes hi lo).toNat + wordSum (b.drop (off + 2))) := by
  have htake : (b.take off).length = off := by
    rw [List.length_take]
    omega
  rw [Bytes.patch, List.append_assoc, wordSum_append _ _ (by rw [htake, heven])]
  rfl

/-- **Writing a word** changes the sum by what the word gains. -/
theorem wordSum_patch {b : Bytes} {off : Nat} (hi lo : Byte) (heven : off % 2 = 0)
    (hlen : off + 2 ≤ b.length) : wordSum (b.patch off [hi, lo]) +
      (fromBeBytes (b.byteAt off) (b.byteAt (off + 1))).toNat =
        wordSum b + (fromBeBytes hi lo).toNat := by
  have hself : b.patch off [b.byteAt off, b.byteAt (off + 1)] = b :=
    Bytes.patch_self hlen fun i hi => by
      match i with
      | 0 => rfl
      | 1 => rfl
      | i + 2 => exact absurd hi (by simp)
  have hold := wordSum_patch_eq (b.byteAt off) (b.byteAt (off + 1)) heven hlen
  rw [hself] at hold
  rw [wordSum_patch_eq hi lo heven hlen, hold]
  omega

/-- A word of a buffer is one of the summands. -/
theorem word_le_wordSum {b : Bytes} {off : Nat} (heven : off % 2 = 0) (hlen : off + 2 ≤ b.length) :
    (fromBeBytes (b.byteAt off) (b.byteAt (off + 1))).toNat ≤ wordSum b := by
  have hpatch := wordSum_patch 0 0 heven hlen
  have hzero : (fromBeBytes 0 0).toNat = 0 := rfl
  omega

/-- **A buffer that verifies**: its words, the checksum among them, come to all ones. -/
def Verifies (b : Bytes) : Prop := endAround 65535 (wordSum b) = 65535

instance (b : Bytes) : Decidable (Verifies b) := inferInstanceAs (Decidable (_ = _))

theorem verifies_iff {b : Bytes} : Verifies b ↔ 0 < wordSum b ∧ wordSum b ≡ 0 [MOD 65535] :=
  endAround_eq_top_iff (by decide)

/-- The RFC 1071 checksum of a buffer, the field for it being zero. -/
def checksumOf (b : Bytes) : Nat := 65535 - endAround 65535 (wordSum b)

theorem checksumOf_lt (b : Bytes) : checksumOf b < 2 ^ 16 := by
  rw [checksumOf]
  omega

/-- A word of a buffer written over a word of zeros. -/
theorem wordSum_insert {b : Bytes} {off : Nat} (n : BitVec 16) (heven : off % 2 = 0)
    (hlen : off + 2 ≤ b.length) :
    wordSum (b.patch off (toBeBytes n)) = wordSum (b.patch off [0, 0]) + n.toNat := by
  rw [toBeBytes, wordSum_patch_eq _ _ heven hlen, wordSum_patch_eq _ _ heven hlen,
    fromBeBytes_toBeBytes]
  have hzero : (fromBeBytes 0 0).toNat = 0 := rfl
  omega

/-- **The checksum makes the buffer verify**, wherever its field lies among the words. -/
theorem verifies_patch {b : Bytes} {off : Nat} (heven : off % 2 = 0) (hlen : off + 2 ≤ b.length) :
    Verifies (b.patch off (toBeBytes (BitVec.ofNat 16 (checksumOf (b.patch off [0, 0]))))) := by
  rw [Verifies, wordSum_insert _ heven hlen, BitVec.toNat_ofNat,
    Nat.mod_eq_of_lt (checksumOf_lt _)]
  exact endAround_insert (by decide) _

/-- A checksum of zero may be written as all ones. -/
theorem verifies_patch_top {b : Bytes} {off : Nat} (heven : off % 2 = 0)
    (hlen : off + 2 ≤ b.length) (hzero : checksumOf (b.patch off [0, 0]) = 0) :
    Verifies (b.patch off (toBeBytes 0xFFFF)) := by
  have hle := endAround_le (show 0 < 65535 by decide) (wordSum (b.patch off [0, 0]))
  rw [checksumOf] at hzero
  rw [Verifies, wordSum_insert _ heven hlen]
  exact endAround_insert_top (by decide) (by omega)

end Sarena.Lib
