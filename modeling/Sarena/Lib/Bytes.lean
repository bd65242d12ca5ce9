import Mathlib.Algebra.Order.Ring.Nat
import Mathlib.Data.List.GetD

namespace Sarena.Lib

/-!
# Library — byte buffers and code that may panic

A buffer is a list of bytes.  The operations on it are checked as Rust checks them: an
index or a range out of bounds, a subtraction below zero or an addition past the type's
largest value is a `Panic`.

* `Checked.Returns m Q` — `m` does not panic and its result meets `Q`;
* `Checked.Exactly m P Q` — `m` panics exactly when `P` fails, and otherwise its result
  meets `Q`, with a sequencing rule and one rule for each operation;
* `Bytes.byteAt`, `Bytes.patch` — the total view of a buffer that the rules are stated
  in, with `Bytes.byteAt_patch` for reading after writing;
* `Bytes.AgreesBelow` — what a write past an offset leaves alone.
-/

/-- What a checked operation panics with. -/
inductive Panic
  | indexOutOfBounds
  | rangeOutOfBounds
  | lengthMismatch
  | arithmeticOverflow
  | divisionByZero
  deriving DecidableEq, Repr

/-- A computation that may panic. -/
abbrev Checked := Except Panic

namespace Checked

variable {α β : Type}

/-- The computation does not panic, and its result meets `Q`. -/
def Returns (m : Checked α) (Q : α → Prop) : Prop := ∃ a, m = .ok a ∧ Q a

/-- A weaker postcondition. -/
theorem Returns.mono {m : Checked α} {Q R : α → Prop} (h : Returns m Q) (hQR : ∀ a, Q a → R a) :
    Returns m R := by
  obtain ⟨a, hm, hQ⟩ := h
  exact ⟨a, hm, hQR a hQ⟩

/-- What returns, returns one result. -/
theorem Returns.of_eq {m : Checked α} {Q : α → Prop} (h : Returns m Q) {a : α} (hm : m = .ok a) :
    Q a := by
  obtain ⟨b, hb, hQ⟩ := h
  obtain rfl : b = a := Except.ok.inj (hb.symm.trans hm)
  exact hQ

/-- `a - b` on unsigned integers. -/
def sub (a b : Nat) : Checked Nat := if b ≤ a then .ok (a - b) else .error .arithmeticOverflow

/-- `a + b` on `u32`. -/
def addU32 (a b : Nat) : Checked Nat :=
  if a + b < 2 ^ 32 then .ok (a + b) else .error .arithmeticOverflow

/-- `a + b` on unsigned integers of `w` bits. -/
def add (w a b : Nat) : Checked Nat :=
  if a + b < 2 ^ w then .ok (a + b) else .error .arithmeticOverflow

/-- `a * b` on unsigned integers of `w` bits. -/
def mul (w a b : Nat) : Checked Nat :=
  if a * b < 2 ^ w then .ok (a * b) else .error .arithmeticOverflow

/-- `a << k` on unsigned integers of `w` bits: `k` is below the width, and what is shifted out
    is lost. -/
def shl (w a k : Nat) : Checked Nat :=
  if k < w then .ok (a * 2 ^ k % 2 ^ w) else .error .arithmeticOverflow

/-- `a % b` on unsigned integers. -/
def rem (a b : Nat) : Checked Nat := if b ≠ 0 then .ok (a % b) else .error .divisionByZero

theorem sub_ok {a b : Nat} (h : b ≤ a) : sub a b = .ok (a - b) := if_pos h

theorem add_ok {w a b : Nat} (h : a + b < 2 ^ w) : add w a b = .ok (a + b) := if_pos h

theorem mul_ok {w a b : Nat} (h : a * b < 2 ^ w) : mul w a b = .ok (a * b) := if_pos h

theorem shl_ok {w a k : Nat} (hk : k < w) (h : a * 2 ^ k < 2 ^ w) :
    shl w a k = .ok (a * 2 ^ k) := by
  rw [shl, if_pos hk, Nat.mod_eq_of_lt h]

/-- A loop whose rounds all return. -/
theorem mapM_ok {f : α → Checked β} {g : α → β} {l : List α} (h : ∀ a ∈ l, f a = .ok (g a)) :
    l.mapM f = .ok (l.map g) := by
  induction l with
  | nil => rfl
  | cons a rest ih =>
    rw [List.mapM_cons, h a List.mem_cons_self, ih fun b hb => h b (List.mem_cons_of_mem a hb)]
    rfl

/-- `m` returns exactly when `P` holds, and what it returns then meets `Q`. -/
structure Exactly (m : Checked α) (P : Prop) (Q : α → Prop) : Prop where
  returns : P → Returns m Q
  cond : ∀ a, m = .ok a → P

theorem Exactly.ok_iff {m : Checked α} {P : Prop} {Q : α → Prop} (h : Exactly m P Q) :
    (∃ a, m = .ok a) ↔ P := by
  constructor
  · rintro ⟨a, hm⟩
    exact h.cond a hm
  · intro hP
    obtain ⟨a, hm, -⟩ := h.returns hP
    exact ⟨a, hm⟩

/-- What has returned meets the postcondition. -/
theorem Exactly.of_eq {m : Checked α} {P : Prop} {Q : α → Prop} (h : Exactly m P Q) {a : α}
    (hm : m = .ok a) : Q a :=
  (h.returns (h.cond a hm)).of_eq hm

/-- The same condition in other words, and a weaker postcondition. -/
theorem Exactly.mono {m : Checked α} {P P' : Prop} {Q Q' : α → Prop} (h : Exactly m P Q)
    (hP : P ↔ P') (hQ : ∀ a, Q a → Q' a) : Exactly m P' Q' where
  returns hP' := (h.returns (hP.mpr hP')).mono hQ
  cond a hm := hP.mp (h.cond a hm)

/-- The result itself as the postcondition. -/
theorem Exactly.result {m : Checked α} {P : Prop} {Q : α → Prop} (h : Exactly m P Q) :
    Exactly m P (m = .ok ·) where
  returns hP := by
    obtain ⟨a, hm, -⟩ := h.returns hP
    exact ⟨a, hm, hm⟩
  cond := h.cond

/-- A result without a check. -/
theorem exactly_pure (a : α) : Exactly (pure a) True (· = a) where
  returns _ := ⟨a, rfl, rfl⟩
  cond _ _ := trivial

/-- **Sequencing.** The second part starts from a result of the first, so it may count on
    the condition of the first. -/
theorem Exactly.bind {m : Checked α} {f : α → Checked β} {P P' : Prop} {Q : α → Prop}
    {R : β → Prop} (h : Exactly m P Q) (hf : P → ∀ a, Q a → Exactly (f a) P' R) :
    Exactly (m >>= f) (P ∧ P') R where
  returns hP := by
    obtain ⟨a, rfl, hQ⟩ := h.returns hP.1
    exact (hf hP.1 a hQ).returns hP.2
  cond b hb := by
    cases m with
    | error p => cases hb
    | ok a =>
      have hP := h.cond a rfl
      exact ⟨hP, (hf hP a (h.of_eq rfl)).cond b hb⟩

/-- Sequencing before a part that cannot panic. -/
theorem Exactly.bind_true {m : Checked α} {f : α → Checked β} {P : Prop} {Q : α → Prop}
    {R : β → Prop} (h : Exactly m P Q) (hf : P → ∀ a, Q a → Exactly (f a) True R) :
    Exactly (m >>= f) P R :=
  (h.bind hf).mono (iff_of_eq (and_true P)) fun _ hR => hR

/-- Sequencing after a part that cannot panic. -/
theorem Exactly.bind_of_true {m : Checked α} {f : α → Checked β} {P : Prop} {Q : α → Prop}
    {R : β → Prop} (h : Exactly m True Q) (hf : ∀ a, Q a → Exactly (f a) P R) :
    Exactly (m >>= f) P R :=
  (h.bind fun _ => hf).mono (iff_of_eq (true_and P)) fun _ hR => hR

/-- A check: what a function returns when its condition holds, a panic otherwise. -/
theorem exactly_ite (P : Prop) [Decidable P] (a : α) (p : Panic) :
    Exactly (if P then .ok a else .error p) P (· = a) where
  returns hP := ⟨a, if_pos hP, rfl⟩
  cond b hb := by
    by_cases hP : P
    · exact hP
    · rw [if_neg hP] at hb
      cases hb

theorem exactly_sub (a b : Nat) : Exactly (sub a b) (b ≤ a) (· = a - b) := exactly_ite _ _ _

theorem exactly_rem (a b : Nat) : Exactly (rem a b) (b ≠ 0) (· = a % b) := exactly_ite _ _ _

theorem exactly_addU32 (a b : Nat) : Exactly (addU32 a b) (a + b < 2 ^ 32) (· = a + b) :=
  exactly_ite _ _ _

end Checked

/-- A byte. -/
abbrev Byte := BitVec 8

/-- `u16::from_be_bytes`. -/
def fromBeBytes (hi lo : Byte) : BitVec 16 := hi ++ lo

/-- `u16::to_be_bytes`. -/
def toBeBytes (n : BitVec 16) : List Byte := [n.extractLsb' 8 8, n.extractLsb' 0 8]

@[simp] theorem length_toBeBytes (n : BitVec 16) : (toBeBytes n).length = 2 := rfl

/-- The bytes of a big-endian number give it back. -/
theorem fromBeBytes_toBeBytes (n : BitVec 16) :
    fromBeBytes (n.extractLsb' 8 8) (n.extractLsb' 0 8) = n := by
  apply BitVec.eq_of_toNat_eq
  have := n.isLt
  simp only [fromBeBytes, BitVec.toNat_append, BitVec.extractLsb'_toNat,
    Nat.shiftRight_eq_div_pow]
  rw [← Nat.shiftLeft_add_eq_or_of_lt (by omega), Nat.shiftLeft_eq]
  omega

/-- A buffer. -/
abbrev Bytes := List Byte

/-- `to_le_bytes` of an unsigned integer of `k` bytes. -/
def toLeBytes : Nat → Nat → Bytes
  | 0, _ => []
  | k + 1, n => BitVec.ofNat 8 n :: toLeBytes k (n / 256)

/-- `from_le_bytes` of an unsigned integer. -/
def fromLeBytes : Bytes → Nat
  | [] => 0
  | x :: rest => x.toNat + 256 * fromLeBytes rest

@[simp] theorem length_toLeBytes (k n : Nat) : (toLeBytes k n).length = k := by
  induction k generalizing n with
  | zero => rfl
  | succ k ih => rw [toLeBytes, List.length_cons, ih]

/-- The bytes of a little-endian number give it back. -/
theorem fromLeBytes_toLeBytes (k n : Nat) : fromLeBytes (toLeBytes k n) = n % 256 ^ k := by
  induction k generalizing n with
  | zero => exact (Nat.mod_one n).symm
  | succ k ih =>
    have hpow : 256 ^ (k + 1) = 256 * 256 ^ k := by rw [Nat.pow_succ, Nat.mul_comm]
    rw [toLeBytes, fromLeBytes, ih, BitVec.toNat_ofNat, hpow, Nat.mod_mul]

namespace Bytes

/-- The byte at an index, zero past the end. -/
def byteAt (b : Bytes) (i : Nat) : Byte := b.getD i 0

/-- The buffer with the bytes from `off` on replaced by `src`. -/
def patch (b : Bytes) (off : Nat) (src : Bytes) : Bytes :=
  b.take off ++ src ++ b.drop (off + src.length)

/-- `b[i]`. -/
def read (b : Bytes) (i : Nat) : Checked Byte :=
  if i < b.length then .ok (b.byteAt i) else .error .indexOutOfBounds

/-- `b[i] = x`. -/
def write (b : Bytes) (i : Nat) (x : Byte) : Checked Bytes :=
  if i < b.length then .ok (b.patch i [x]) else .error .indexOutOfBounds

/-- `&b[start..stop]`. -/
def slice (b : Bytes) (start stop : Nat) : Checked Bytes :=
  if start ≤ stop ∧ stop ≤ b.length then .ok ((b.drop start).take (stop - start))
  else .error .rangeOutOfBounds

/-- `b[start..stop].copy_from_slice(src)`. -/
def copyFromSlice (b : Bytes) (start stop : Nat) (src : Bytes) : Checked Bytes :=
  if start ≤ stop ∧ stop ≤ b.length then
    if src.length = stop - start then .ok (b.patch start src) else .error .lengthMismatch
  else .error .rangeOutOfBounds

/-! ### Reading after writing -/

theorem length_patch {b src : Bytes} {off : Nat} (h : off + src.length ≤ b.length) :
    (b.patch off src).length = b.length := by
  simp only [patch, List.length_append, List.length_take, List.length_drop]
  omega

/-- **Reading after writing**: the new bytes inside the range, the old ones outside it. -/
theorem byteAt_patch {b src : Bytes} {off : Nat} (h : off + src.length ≤ b.length) (i : Nat) :
    (b.patch off src).byteAt i =
      if off ≤ i ∧ i < off + src.length then src.byteAt (i - off) else b.byteAt i := by
  have htake : (b.take off).length = off := by
    rw [List.length_take]
    omega
  rw [byteAt, patch, List.append_assoc]
  by_cases hlo : i < off
  · rw [List.getD_append _ _ _ _ (by omega), if_neg (by omega), List.getD_eq_getElem?_getD,
      List.getElem?_take_of_lt hlo, ← List.getD_eq_getElem?_getD, byteAt]
  · rw [List.getD_append_right _ _ _ _ (by omega), htake]
    by_cases hhi : i < off + src.length
    · rw [List.getD_append _ _ _ _ (by omega), if_pos (by omega), byteAt]
    · rw [List.getD_append_right _ _ _ _ (by omega), if_neg (by omega),
        List.getD_eq_getElem?_getD, List.getElem?_drop, ← List.getD_eq_getElem?_getD, byteAt]
      congr 1
      omega

/-- Reading inside the range written. -/
theorem byteAt_patch_add {b src : Bytes} {off : Nat} (h : off + src.length ≤ b.length) {j : Nat}
    (hj : j < src.length) : (b.patch off src).byteAt (off + j) = src.byteAt j := by
  rw [byteAt_patch h, if_pos (by omega), Nat.add_sub_cancel_left]

/-- Reading in a range. -/
theorem byteAt_take_drop {b : Bytes} {start len i : Nat} (hi : i < len) :
    byteAt ((b.drop start).take len) i = b.byteAt (start + i) := by
  rw [byteAt, byteAt, List.getD_eq_getElem?_getD, List.getElem?_take_of_lt hi, List.getElem?_drop,
    List.getD_eq_getElem?_getD]

/-- A buffer is its length and its bytes. -/
theorem ext_byteAt {b c : Bytes} (hlen : b.length = c.length)
    (h : ∀ i, i < c.length → b.byteAt i = c.byteAt i) : b = c := by
  refine List.ext_getElem hlen fun i hb hc => ?_
  have hi := h i hc
  rwa [byteAt, byteAt, List.getD_eq_getElem _ _ hb, List.getD_eq_getElem _ _ hc] at hi

/-- The range `start..start + len` of a buffer that has it. -/
theorem length_take_drop {b : Bytes} {start len : Nat} (h : start + len ≤ b.length) :
    ((b.drop start).take len).length = len := by
  rw [List.length_take, List.length_drop]
  omega

/-- A range is its bytes. -/
theorem take_drop_congr {b c : Bytes} {start len : Nat} (hb : start + len ≤ b.length)
    (hc : start + len ≤ c.length) (h : ∀ i, start ≤ i → i < start + len → b.byteAt i = c.byteAt i) :
    (b.drop start).take len = (c.drop start).take len := by
  refine ext_byteAt ((length_take_drop hb).trans (length_take_drop hc).symm) fun i hi => ?_
  rw [length_take_drop hc] at hi
  rw [byteAt_take_drop hi, byteAt_take_drop hi, h (start + i) (by omega) (by omega)]

/-- Writing what is there. -/
theorem patch_self {b src : Bytes} {off : Nat} (hlen : off + src.length ≤ b.length)
    (h : ∀ i, i < src.length → src.byteAt i = b.byteAt (off + i)) : b.patch off src = b := by
  refine ext_byteAt (length_patch hlen) fun i _ => ?_
  rw [byteAt_patch hlen]
  by_cases hi : off ≤ i ∧ i < off + src.length
  · rw [if_pos hi, h (i - off) (by omega), Nat.add_sub_cancel' hi.1]
  · rw [if_neg hi]

/-- The second of two writes to one range is the one that stays. -/
theorem patch_patch {b src src' : Bytes} {off : Nat} (hlen : off + src.length ≤ b.length)
    (h : src.length = src'.length) : (b.patch off src).patch off src' = b.patch off src' := by
  have hlen' : off + src'.length ≤ b.length := by omega
  have hpatched : off + src'.length ≤ (b.patch off src).length := by rwa [length_patch hlen]
  refine ext_byteAt ?_ fun i _ => ?_
  · rw [length_patch hpatched, length_patch hlen, length_patch hlen']
  · rw [byteAt_patch hpatched, byteAt_patch hlen', byteAt_patch hlen, h]
    split <;> rfl

/-- Two bytes written one after the other. -/
theorem patch_pair {b : Bytes} {off : Nat} (x y : Byte) (hlen : off + 2 ≤ b.length) :
    (b.patch off [x]).patch (off + 1) [y] = b.patch off [x, y] := by
  have hfirst : off + [x].length ≤ b.length := Nat.le_of_succ_le hlen
  have hboth : off + [x, y].length ≤ b.length := hlen
  have hsecond : off + 1 + [y].length ≤ (b.patch off [x]).length := by
    rw [length_patch hfirst]
    exact hlen
  refine ext_byteAt ?_ fun i _ => ?_
  · rw [length_patch hsecond, length_patch hfirst, length_patch hboth]
  rw [byteAt_patch hsecond, byteAt_patch hfirst, byteAt_patch hboth]
  simp only [List.length_cons, List.length_nil]
  rcases Nat.lt_or_ge i off with hlo | hlo
  · rw [if_neg (by omega), if_neg (by omega), if_neg (by omega)]
  · obtain ⟨j, rfl⟩ := Nat.exists_eq_add_of_le hlo
    match j with
    | 0 =>
      rw [if_neg (by omega), if_pos (by omega), if_pos (by omega), Nat.add_sub_cancel_left]
      rfl
    | 1 => rw [if_pos (by omega), if_pos (by omega), Nat.add_sub_cancel_left, Nat.sub_self]; rfl
    | j + 2 => rw [if_neg (by omega), if_neg (by omega), if_neg (by omega)]

/-- A write inside a range, seen from the range. -/
theorem take_drop_patch {b src : Bytes} {start len : Nat} (off : Nat)
    (hlen : start + len ≤ b.length)
    (h : off + src.length ≤ len) : ((b.patch (start + off) src).drop start).take len =
      patch ((b.drop start).take len) off src := by
  have hrange := length_take_drop hlen
  have hfits : start + off + src.length ≤ b.length := by omega
  have hpatched : start + len ≤ (b.patch (start + off) src).length := by rwa [length_patch hfits]
  have hinner : off + src.length ≤ ((b.drop start).take len).length := by rwa [hrange]
  refine ext_byteAt ?_ fun i hi => ?_
  · rw [length_take_drop hpatched, length_patch hinner, hrange]
  rw [length_patch hinner, hrange] at hi
  rw [byteAt_take_drop hi, byteAt_patch hfits, byteAt_patch hinner, byteAt_take_drop hi]
  by_cases hin : off ≤ i ∧ i < off + src.length
  · rw [if_pos (by omega), if_pos hin, Nat.add_sub_add_left]
  · rw [if_neg (by omega), if_neg hin]

/-- A write past what stands in front of a buffer. -/
theorem append_patch (front b src : Bytes) (off : Nat) :
    front ++ b.patch off src = patch (front ++ b) (front.length + off) src := by
  rw [patch, patch, List.take_length_add_append, Nat.add_assoc, List.drop_length_add_append]
  simp only [List.append_assoc]

/-- A buffer of the same length with the same bytes below `n`. -/
structure AgreesBelow (n : Nat) (b c : Bytes) : Prop where
  length : c.length = b.length
  byteAt : ∀ i, i < n → c.byteAt i = b.byteAt i

theorem AgreesBelow.refl (n : Nat) (b : Bytes) : AgreesBelow n b b := ⟨rfl, fun _ _ => rfl⟩

theorem AgreesBelow.trans {n : Nat} {b c d : Bytes} (h : AgreesBelow n b c)
    (h' : AgreesBelow n c d) : AgreesBelow n b d where
  length := h'.length.trans h.length
  byteAt i hi := (h'.byteAt i hi).trans (h.byteAt i hi)

/-- A write at `off` leaves what is below `off` alone. -/
theorem agreesBelow_patch {b src : Bytes} {off n : Nat} (h : off + src.length ≤ b.length)
    (hn : n ≤ off) : AgreesBelow n b (b.patch off src) where
  length := length_patch h
  byteAt i hi := by rw [byteAt_patch h, if_neg (by omega)]

/-! ### The rules of the operations -/

theorem read_eq {b : Bytes} {i : Nat} (h : i < b.length) : b.read i = .ok (b.byteAt i) := if_pos h

theorem slice_eq {b : Bytes} {start stop : Nat} (h : start ≤ stop ∧ stop ≤ b.length) :
    b.slice start stop = .ok ((b.drop start).take (stop - start)) := if_pos h

theorem exactly_write (b : Bytes) (i : Nat) (x : Byte) :
    Checked.Exactly (b.write i x) (i < b.length) (· = b.patch i [x]) := Checked.exactly_ite _ _ _

/-- Copying a slice of the range's own length. -/
theorem exactly_copyFromSlice (b src : Bytes) (start stop : Nat)
    (hlen : start + src.length = stop) :
    Checked.Exactly (b.copyFromSlice start stop src) (stop ≤ b.length)
      (· = b.patch start src) := by
  rw [copyFromSlice, if_pos (show src.length = stop - start by omega)]
  refine (Checked.exactly_ite _ _ _).mono ?_ fun _ h => h
  omega

end Bytes

end Sarena.Lib
