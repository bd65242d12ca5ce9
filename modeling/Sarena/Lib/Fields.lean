import Sarena.Lib.Bytes

namespace Sarena.Lib

/-!
# Library — fields of fixed size

A header is read and written field by field, and a field is an array of bytes at a fixed
offset.  Numbers stand in their fields in network order.

* `Bytes.field` — the field at an offset, with `field_patch_self` and `field_patch_of_disjoint`
  for reading after writing;
* `beBytes`, `ofBeBytes` — a number and its bytes, the highest first; they are inverse.
-/

/-! ### Numbers in network order -/

/-- `to_be_bytes`. -/
def beBytes (n : Nat) (x : BitVec (8 * n)) : Vector Byte n :=
  ⟨(toLeBytes n x.toNat).reverse.toArray, by
    rw [List.size_toArray, List.length_reverse, length_toLeBytes]⟩

/-- `from_be_bytes`. -/
def ofBeBytes {n : Nat} (v : Vector Byte n) : BitVec (8 * n) :=
  BitVec.ofNat (8 * n) (fromLeBytes v.toList.reverse)

/-- The number that little-endian bytes denote has those bytes. -/
theorem toLeBytes_fromLeBytes (b : Bytes) : toLeBytes b.length (fromLeBytes b) = b := by
  induction b with
  | nil => rfl
  | cons x rest ih =>
    have hx := x.isLt
    have hmod : (x.toNat + 256 * fromLeBytes rest) % 256 = x.toNat := by omega
    have hdiv : (x.toNat + 256 * fromLeBytes rest) / 256 = fromLeBytes rest := by omega
    rw [List.length_cons, fromLeBytes, toLeBytes, hdiv, ih]
    congr 1
    apply BitVec.eq_of_toNat_eq
    rw [BitVec.toNat_ofNat]
    exact hmod

theorem fromLeBytes_lt (b : Bytes) : fromLeBytes b < 256 ^ b.length := by
  induction b with
  | nil => exact Nat.one_pos
  | cons x rest ih =>
    have hx := x.isLt
    rw [fromLeBytes, List.length_cons, Nat.pow_succ]
    omega

theorem toList_beBytes (n : Nat) (x : BitVec (8 * n)) :
    (beBytes n x).toList = (toLeBytes n x.toNat).reverse := rfl

@[simp] theorem ofBeBytes_beBytes (n : Nat) (x : BitVec (8 * n)) : ofBeBytes (beBytes n x) = x := by
  apply BitVec.eq_of_toNat_eq
  have hpow : 256 ^ n = 2 ^ (8 * n) := by rw [Nat.pow_mul]
  rw [ofBeBytes, toList_beBytes, List.reverse_reverse, fromLeBytes_toLeBytes, BitVec.toNat_ofNat,
    hpow, Nat.mod_mod, Nat.mod_eq_of_lt x.isLt]

@[simp] theorem beBytes_ofBeBytes {n : Nat} (v : Vector Byte n) : beBytes n (ofBeBytes v) = v := by
  have hlen : v.toList.reverse.length = n := by rw [List.length_reverse, Vector.length_toList]
  have hlt : fromLeBytes v.toList.reverse < 2 ^ (8 * n) := by
    have h := fromLeBytes_lt v.toList.reverse
    rwa [hlen, show 256 = 2 ^ 8 from rfl, ← Nat.pow_mul] at h
  have hbytes := toLeBytes_fromLeBytes v.toList.reverse
  rw [hlen] at hbytes
  rw [← Vector.toList_inj, toList_beBytes, ofBeBytes, BitVec.toNat_ofNat, Nat.mod_eq_of_lt hlt,
    hbytes, List.reverse_reverse]

namespace Bytes

variable {n : Nat} {b : Bytes} {off : Nat}

/-- The field of `n` bytes at an offset. -/
def field (b : Bytes) (off n : Nat) : Vector Byte n := Vector.ofFn fun i => b.byteAt (off + i)

theorem getElem_field {i : Nat} (hi : i < n) : (b.field off n)[i] = b.byteAt (off + i) := by
  rw [field, Vector.getElem_ofFn]

/-- A field is its bytes. -/
theorem field_congr {c : Bytes} (h : ∀ i, off ≤ i → i < off + n → b.byteAt i = c.byteAt i) :
    b.field off n = c.field off n := by
  refine Vector.ext fun i hi => ?_
  rw [getElem_field hi, getElem_field hi, h (off + i) (by omega) (by omega)]

/-- The first bytes of a field. -/
theorem field_prefix {c : Bytes} {m : Nat} (h : c.field off n = b.field off n) (hm : m ≤ n) :
    c.field off m = b.field off m := by
  refine Vector.ext fun i hi => ?_
  have hi' : i < n := Nat.lt_of_lt_of_le hi hm
  rw [getElem_field hi, getElem_field hi, ← getElem_field hi', h, getElem_field hi']

/-- A field is a range of the buffer. -/
theorem toList_field (h : off + n ≤ b.length) : (b.field off n).toList = (b.drop off).take n := by
  refine ext_byteAt ?_ fun i hi => ?_
  · rw [Vector.length_toList, length_take_drop h]
  rw [length_take_drop h] at hi
  have hi' : i < (b.field off n).toList.length := by rwa [Vector.length_toList]
  rw [byteAt_take_drop hi, byteAt, List.getD_eq_getElem _ _ hi', Vector.getElem_toList,
    getElem_field hi]

/-- Reading the field that was written. -/
theorem field_patch_self (v : Vector Byte n) (h : off + n ≤ b.length) :
    (b.patch off v.toList).field off n = v := by
  have hlen : v.toList.length = n := Vector.length_toList
  refine Vector.ext fun i hi => ?_
  have hi' : i < v.toList.length := by omega
  rw [getElem_field hi, byteAt_patch_add (by omega) hi', byteAt, List.getD_eq_getElem _ _ hi',
    Vector.getElem_toList]

/-- Reading a field that was not written. -/
theorem field_patch_of_disjoint {src : Bytes} {off' : Nat} (h : off' + src.length ≤ b.length)
    (hdisjoint : off + n ≤ off' ∨ off' + src.length ≤ off) :
    (b.patch off' src).field off n = b.field off n := by
  refine field_congr fun i hlo hhi => ?_
  rw [byteAt_patch h, if_neg (by omega)]

/-- A field that is written: the buffer keeps its length and its other fields. -/
theorem field_write {m off' : Nat} (v : Vector Byte m) (h : off' + m ≤ b.length) :
    (b.patch off' v.toList).length = b.length ∧ (b.patch off' v.toList).field off' m = v ∧
      ∀ off n, off + n ≤ off' ∨ off' + m ≤ off →
        (b.patch off' v.toList).field off n = b.field off n := by
  have hlen : v.toList.length = m := Vector.length_toList
  have h' : off' + v.toList.length ≤ b.length := by rwa [hlen]
  refine ⟨length_patch h', field_patch_self v h, fun off n hdisjoint => ?_⟩
  exact field_patch_of_disjoint h' (by rwa [hlen])

/-- The end of a buffer is a field. -/
theorem drop_eq_of_field {c : Bytes} (hlen : c.length = b.length)
    (h : c.field off (b.length - off) = b.field off (b.length - off)) :
    c.drop off = b.drop off := by
  rcases Nat.le_total off b.length with hle | hge
  · have hb : (b.field off (b.length - off)).toList = (b.drop off).take (b.length - off) :=
      toList_field (by omega)
    have hc : (c.field off (b.length - off)).toList = (c.drop off).take (b.length - off) :=
      toList_field (by omega)
    rw [List.take_of_length_le (by rw [List.length_drop])] at hb
    rw [List.take_of_length_le (by rw [List.length_drop, hlen])] at hc
    rw [← hb, ← hc, h]
  · rw [List.drop_of_length_le hge, List.drop_of_length_le (hlen.trans_le hge)]

end Bytes

end Sarena.Lib
