import Mathlib.Data.Finset.Card
import Mathlib.Data.Finset.Range

namespace Sarena

/-!
# IPAM — the allocation bitmap

`AllocationBitmap` keeps the offsets below `max` that are in use as bits of 64-bit words,
with their number.  A value of the type carries the two facts that the code relies on
without checking them: the count is the number of set bits, and no bit beyond `max` is set.

* `getBit`, `setBit`, `clearBit` — the bit operations on the words;
* `AllocationBitmap.has_allocate`, `has_allocateNext`, `has_release` — the operations on the
  bitmap as operations on the set of its used offsets;
* `AllocationBitmap.allocateNext_eq_none` — the search fails only when all offsets are used.
-/

/-! ### Bits of words -/

section

variable {n : Nat}

/-- `words[offset / 64]`.  The callers stay below `max`, where the word exists. -/
def wordAt (words : Vector (BitVec 64) n) (offset : Nat) : BitVec 64 :=
  words[offset / 64]?.getD 0

/-- `get_bit`. -/
def getBit (words : Vector (BitVec 64) n) (offset : Nat) : Bool :=
  (wordAt words offset >>> (offset % 64)) &&& 1 == 1

/-- `set_bit`. -/
def setBit (words : Vector (BitVec 64) n) (offset : Nat) : Vector (BitVec 64) n :=
  words.setIfInBounds (offset / 64) (wordAt words offset ||| (1 : BitVec 64) <<< (offset % 64))

/-- `clear_bit`. -/
def clearBit (words : Vector (BitVec 64) n) (offset : Nat) : Vector (BitVec 64) n :=
  words.setIfInBounds (offset / 64)
    (wordAt words offset &&& ~~~((1 : BitVec 64) <<< (offset % 64)))

/-- A word masked with one is its lowest bit. -/
theorem and_one_eq (w : BitVec 64) : (w &&& 1 == 1) = w.getLsbD 0 := by
  have hone : w &&& 1#64 = if w.getLsbD 0 then 1#64 else 0#64 := by
    apply BitVec.eq_of_getLsbD_eq
    intro i hi
    cases h : w.getLsbD 0 <;> cases i <;> simp_all
  show (w &&& 1#64 == 1#64) = _
  rw [hone]
  cases w.getLsbD 0 <;> rfl

/-- The shifted and masked word is one bit of it. -/
theorem getBit_eq (words : Vector (BitVec 64) n) (offset : Nat) :
    getBit words offset = (wordAt words offset).getLsbD (offset % 64) := by
  rw [getBit, and_one_eq, BitVec.getLsbD_ushiftRight, Nat.add_zero]

/-- The words after one of them was replaced. -/
theorem wordAt_setIfInBounds (words : Vector (BitVec 64) n) {i : Nat} (hi : i < n)
    (w : BitVec 64) (offset : Nat) :
    wordAt (words.setIfInBounds i w) offset =
      if offset / 64 = i then w else wordAt words offset := by
  unfold wordAt
  rw [Vector.getElem?_setIfInBounds]
  by_cases h : i = offset / 64
  · subst h
    rw [if_pos rfl, if_pos rfl, if_pos hi]
    rfl
  · rw [if_neg h, if_neg (Ne.symm h)]

/-- Two offsets are one when they name the same bit of the same word. -/
theorem offset_eq_iff (i j : Nat) : j = i ↔ j / 64 = i / 64 ∧ i % 64 = j % 64 := by
  omega

theorem getBit_setBit (words : Vector (BitVec 64) n) {i : Nat} (hi : i / 64 < n) (j : Nat) :
    getBit (setBit words i) j = (getBit words j || decide (j = i)) := by
  have hlt : j % 64 < 64 := Nat.mod_lt j (by decide)
  rw [getBit_eq, getBit_eq, setBit, wordAt_setIfInBounds words hi]
  by_cases hw : j / 64 = i / 64
  · have hword : wordAt words i = wordAt words j := by rw [wordAt, wordAt, hw]
    rw [if_pos hw, hword, BitVec.getLsbD_or, BitVec.getLsbD_shiftLeft]
    congr 1
    rw [Bool.eq_iff_iff, decide_eq_true_iff, offset_eq_iff]
    simp [hw, hlt]
    omega
  · have hne : j ≠ i := fun h => hw (h ▸ rfl)
    rw [if_neg hw, decide_eq_false hne, Bool.or_false]

theorem getBit_clearBit (words : Vector (BitVec 64) n) {i : Nat} (hi : i / 64 < n) (j : Nat) :
    getBit (clearBit words i) j = (getBit words j && decide (j ≠ i)) := by
  have hlt : j % 64 < 64 := Nat.mod_lt j (by decide)
  rw [getBit_eq, getBit_eq, clearBit, wordAt_setIfInBounds words hi]
  by_cases hw : j / 64 = i / 64
  · have hword : wordAt words i = wordAt words j := by rw [wordAt, wordAt, hw]
    rw [if_pos hw, hword, BitVec.getLsbD_and, BitVec.getLsbD_not, BitVec.getLsbD_shiftLeft]
    congr 1
    rw [Bool.eq_iff_iff, decide_eq_true_iff, ne_eq, offset_eq_iff]
    simp [hw, hlt]
    omega
  · have hne : j ≠ i := fun h => hw (h ▸ rfl)
    rw [if_neg hw, decide_eq_true hne, Bool.and_true]

theorem getBit_replicate (offset : Nat) :
    getBit (Vector.replicate n (0 : BitVec 64)) offset = false := by
  rw [getBit_eq, wordAt]
  by_cases h : offset / 64 < n <;> simp [h]

/-- The inner loop of `for_each`: the positions of the set bits of a word, from `bit` on. -/
def visitBits (word : BitVec 64) (bit : Nat) : List Nat :=
  if h : word.toNat = 0 then []
  else if word &&& 1 == 1 then bit :: visitBits (word >>> 1) (bit + 1)
  else visitBits (word >>> 1) (bit + 1)
termination_by word.toNat
decreasing_by
  all_goals
    rw [BitVec.toNat_ushiftRight, Nat.shiftRight_eq_div_pow]
    omega

/-- The inner loop visits exactly the set bits. -/
theorem mem_visitBits (word : BitVec 64) (bit i : Nat) :
    i ∈ visitBits word bit ↔ bit ≤ i ∧ word.getLsbD (i - bit) = true := by
  induction word, bit using visitBits.induct with
  | case1 word bit h =>
    have hzero : word = 0#64 := BitVec.eq_of_toNat_eq h
    rw [visitBits, dif_pos h, hzero]
    simp
  | case2 word bit h hset ih =>
    rw [visitBits, dif_neg h, if_pos hset, List.mem_cons, ih, BitVec.getLsbD_ushiftRight]
    rw [and_one_eq] at hset
    constructor
    · rintro (rfl | ⟨hle, hbit⟩)
      · exact ⟨Nat.le_refl _, by rwa [Nat.sub_self]⟩
      · exact ⟨by omega, by rwa [show i - bit = 1 + (i - (bit + 1)) by omega]⟩
    · rintro ⟨hle, hbit⟩
      by_cases hi : i = bit
      · exact .inl hi
      · exact .inr ⟨by omega, by rwa [show 1 + (i - (bit + 1)) = i - bit by omega]⟩
  | case3 word bit h hclear ih =>
    rw [visitBits, dif_neg h, if_neg hclear, ih, BitVec.getLsbD_ushiftRight]
    rw [and_one_eq] at hclear
    constructor
    · rintro ⟨hle, hbit⟩
      exact ⟨by omega, by rwa [show i - bit = 1 + (i - (bit + 1)) by omega]⟩
    · rintro ⟨hle, hbit⟩
      have hi : i ≠ bit := by
        rintro rfl
        rw [Nat.sub_self] at hbit
        exact hclear hbit
      exact ⟨by omega, by rwa [show 1 + (i - (bit + 1)) = i - bit by omega]⟩

/-- The inner loop goes upwards. -/
theorem visitBits_sorted (word : BitVec 64) (bit : Nat) :
    (visitBits word bit).Pairwise (· < ·) := by
  induction word, bit using visitBits.induct with
  | case1 word bit h =>
    rw [visitBits, dif_pos h]
    exact .nil
  | case2 word bit h hset ih =>
    rw [visitBits, dif_neg h, if_pos hset, List.pairwise_cons]
    refine ⟨fun i hi => ?_, ih⟩
    have := (mem_visitBits _ _ _).mp hi
    omega
  | case3 word bit h hclear ih =>
    rw [visitBits, dif_neg h, if_neg hclear]
    exact ih

end

/-! ### The bitmap -/

/-- The offsets below `max` whose bit is set. -/
def usedBelow (max : Nat) {n : Nat} (words : Vector (BitVec 64) n) : Finset Nat :=
  (Finset.range max).filter fun offset => getBit words offset

theorem mem_usedBelow {max n : Nat} {words : Vector (BitVec 64) n} {offset : Nat} :
    offset ∈ usedBelow max words ↔ offset < max ∧ getBit words offset = true := by
  rw [usedBelow, Finset.mem_filter, Finset.mem_range]

/-- `AllocationBitmap`, with the state its mutex guards. -/
structure AllocationBitmap where
  max : Nat
  words : Vector (BitVec 64) ((max + 63) / 64)
  count : Nat
  count_eq : count = (usedBelow max words).card
  below_max : ∀ offset, getBit words offset = true → offset < max

/-- `allocate_bit`.  `random` is the draw of `random_range(0..max)`, reduced to its range. -/
def allocateBit {n : Nat} (words : Vector (BitVec 64) n) (max count random : Nat) : Option Nat :=
  if count ≥ max then none
  else
    let offset := random % max
    ((List.range max).map fun i => (offset + i) % max).find? fun at_ => !getBit words at_

namespace AllocationBitmap

/-- `AllocationBitmap::new`. -/
def new (max : Nat) : AllocationBitmap where
  max := max
  words := .replicate _ 0
  count := 0
  count_eq := by
    rw [eq_comm, Finset.card_eq_zero, usedBelow, Finset.filter_eq_empty_iff]
    intro offset _
    rw [getBit_replicate]
    exact Bool.false_ne_true
  below_max offset h := by
    rw [getBit_replicate] at h
    cases h

/-- The word of an offset below `max` exists. -/
private theorem word_lt {offset max : Nat} (h : offset < max) : offset / 64 < (max + 63) / 64 := by
  omega

/-- The bitmap with the bit of a free offset set and counted. -/
def take (b : AllocationBitmap) (offset : Nat) (hlt : offset < b.max)
    (hfree : getBit b.words offset = false) : AllocationBitmap where
  max := b.max
  words := setBit b.words offset
  count := b.count + 1
  count_eq := by
    have hins : usedBelow b.max (setBit b.words offset) =
        insert offset (usedBelow b.max b.words) := by
      ext i
      rw [Finset.mem_insert, mem_usedBelow, mem_usedBelow, getBit_setBit _ (word_lt hlt),
        Bool.or_eq_true, decide_eq_true_iff]
      constructor
      · rintro ⟨hi, hbit | rfl⟩
        · exact .inr ⟨hi, hbit⟩
        · exact .inl rfl
      · rintro (rfl | ⟨hi, hbit⟩)
        · exact ⟨hlt, .inr rfl⟩
        · exact ⟨hi, .inl hbit⟩
    rw [hins, Finset.card_insert_of_notMem, b.count_eq]
    rw [mem_usedBelow, hfree]
    exact fun h => Bool.false_ne_true h.2
  below_max i h := by
    rw [getBit_setBit _ (word_lt hlt), Bool.or_eq_true, decide_eq_true_iff] at h
    rcases h with h | rfl
    · exact b.below_max i h
    · exact hlt

/-- The bitmap with the bit of a used offset cleared and no longer counted. -/
def give (b : AllocationBitmap) (offset : Nat) (hlt : offset < b.max)
    (hused : getBit b.words offset = true) : AllocationBitmap where
  max := b.max
  words := clearBit b.words offset
  count := b.count - 1
  count_eq := by
    have hera : usedBelow b.max (clearBit b.words offset) =
        (usedBelow b.max b.words).erase offset := by
      ext i
      rw [Finset.mem_erase, mem_usedBelow, mem_usedBelow, getBit_clearBit _ (word_lt hlt),
        Bool.and_eq_true, decide_eq_true_iff]
      constructor
      · rintro ⟨hi, hbit, hne⟩
        exact ⟨hne, hi, hbit⟩
      · rintro ⟨hne, hi, hbit⟩
        exact ⟨hi, hbit, hne⟩
    rw [hera, Finset.card_erase_of_mem (mem_usedBelow.mpr ⟨hlt, hused⟩), b.count_eq]
  below_max i h := by
    rw [getBit_clearBit _ (word_lt hlt), Bool.and_eq_true] at h
    exact b.below_max i h.1

/-- `AllocationBitmap::allocate`. -/
def allocate (b : AllocationBitmap) (offset : Nat) : Bool × AllocationBitmap :=
  if hlt : offset < b.max then
    if hfree : getBit b.words offset = false then (true, b.take offset hlt hfree)
    else (false, b)
  else (false, b)

/-- What `allocate_bit` finds is a free offset. -/
theorem allocateBit_some {n : Nat} {words : Vector (BitVec 64) n} {max count random next : Nat}
    (h : allocateBit words max count random = some next) :
    next < max ∧ getBit words next = false := by
  rw [allocateBit] at h
  split at h
  · cases h
  · have hfree := List.find?_some h
    obtain ⟨i, -, rfl⟩ := List.mem_map.mp (List.mem_of_find?_eq_some h)
    refine ⟨Nat.mod_lt _ (by omega), ?_⟩
    rwa [Bool.not_eq_true'] at hfree

/-- `AllocationBitmap::allocate_next`. -/
def allocateNext (b : AllocationBitmap) (random : Nat) : Option Nat × AllocationBitmap :=
  match h : allocateBit b.words b.max b.count random with
  | some next => (some next, b.take next (allocateBit_some h).1 (allocateBit_some h).2)
  | none => (none, b)

/-- `AllocationBitmap::release`. -/
def release (b : AllocationBitmap) (offset : Nat) : AllocationBitmap :=
  if hlt : offset < b.max then
    if hused : getBit b.words offset = true then b.give offset hlt hused
    else b
  else b

/-- `AllocationBitmap::for_each`: the offsets it calls its function with, in order. -/
def forEach (b : AllocationBitmap) : List Nat :=
  (List.range ((b.max + 63) / 64)).flatMap fun wordIdx =>
    (visitBits (b.words[wordIdx]?.getD 0) 0).map fun bit => wordIdx * 64 + bit

/-- The offset is in use. -/
def has (b : AllocationBitmap) (offset : Nat) : Bool :=
  decide (offset < b.max) && getBit b.words offset

/-- The number of free offsets. -/
def free (b : AllocationBitmap) : Nat := b.max - b.count

/-! ### The operations on the set of used offsets -/

variable (b : AllocationBitmap)

theorem has_eq (offset : Nat) : b.has offset = getBit b.words offset := by
  rw [has, Bool.eq_iff_iff, Bool.and_eq_true, decide_eq_true_iff]
  exact and_iff_right_of_imp (b.below_max offset)

theorem has_lt {b : AllocationBitmap} {offset : Nat} (h : b.has offset = true) :
    offset < b.max := by
  rw [has_eq] at h
  exact b.below_max offset h

@[simp] theorem has_new (max offset : Nat) : (new max).has offset = false := by
  rw [has_eq, new, getBit_replicate]

@[simp] theorem max_new (max : Nat) : (new max).max = max := rfl

@[simp] theorem max_take (offset : Nat) (hlt : offset < b.max)
    (hfree : getBit b.words offset = false) : (b.take offset hlt hfree).max = b.max := rfl

theorem has_take (offset : Nat) (hlt : offset < b.max) (hfree : getBit b.words offset = false)
    (i : Nat) : (b.take offset hlt hfree).has i = (b.has i || decide (i = offset)) := by
  rw [has_eq, has_eq, take, getBit_setBit _ (word_lt hlt)]

/-- **`for_each`.** It visits exactly the used offsets. -/
theorem mem_forEach (offset : Nat) : offset ∈ b.forEach ↔ b.has offset = true := by
  rw [has_eq, getBit_eq, wordAt, forEach, List.mem_flatMap]
  simp only [List.mem_range, List.mem_map, mem_visitBits]
  constructor
  · rintro ⟨wordIdx, hword, bit, ⟨-, hbit⟩, rfl⟩
    rw [Nat.sub_zero] at hbit
    have hlt := BitVec.lt_of_getLsbD hbit
    rw [show (wordIdx * 64 + bit) / 64 = wordIdx by omega,
      show (wordIdx * 64 + bit) % 64 = bit by omega]
    exact hbit
  · intro hbit
    have hlt : offset / 64 < (b.max + 63) / 64 := by
      by_contra hge
      rw [Vector.getElem?_eq_none (by omega)] at hbit
      simp at hbit
    exact ⟨offset / 64, hlt, offset % 64, ⟨Nat.zero_le _, by rwa [Nat.sub_zero]⟩, by omega⟩

/-- `for_each` goes upwards, so it visits no offset twice. -/
theorem forEach_sorted : b.forEach.Pairwise (· < ·) := by
  rw [forEach, List.pairwise_flatMap]
  constructor
  · intro wordIdx _
    rw [List.pairwise_map]
    exact (visitBits_sorted _ _).imp (by omega)
  · refine List.pairwise_lt_range.imp ?_
    intro i j hij x hx y hy
    obtain ⟨bit, hbit, rfl⟩ := List.mem_map.mp hx
    obtain ⟨bit', -, rfl⟩ := List.mem_map.mp hy
    have hlt := BitVec.lt_of_getLsbD ((mem_visitBits _ _ _).mp hbit).2
    omega

/-- The count never exceeds `max`. -/
theorem count_le : b.count ≤ b.max := by
  rw [b.count_eq, usedBelow]
  exact (Finset.card_filter_le _ _).trans_eq (Finset.card_range b.max)

/-- Some offset is free when fewer than `max` are in use. -/
theorem exists_free (h : b.count < b.max) : ∃ offset < b.max, b.has offset = false := by
  have hcard : (usedBelow b.max b.words).card < (Finset.range b.max).card := by
    rw [← b.count_eq, Finset.card_range]
    exact h
  obtain ⟨offset, hmem, hnot⟩ := Finset.exists_mem_notMem_of_card_lt_card hcard
  have hlt := Finset.mem_range.mp hmem
  refine ⟨offset, hlt, ?_⟩
  rw [has_eq, ← Bool.not_eq_true]
  exact fun hbit => hnot (mem_usedBelow.mpr ⟨hlt, hbit⟩)

/-- Fewer than `max` offsets are in use when some offset is free. -/
theorem count_lt_of_free {offset : Nat} (hlt : offset < b.max) (h : b.has offset = false) :
    b.count < b.max := by
  have hss : usedBelow b.max b.words ⊂ Finset.range b.max := by
    refine ⟨Finset.filter_subset _ _, fun hsub => ?_⟩
    have hbit := (mem_usedBelow.mp (hsub (Finset.mem_range.mpr hlt))).2
    rw [has_eq, hbit] at h
    cases h
  have hcard := Finset.card_lt_card hss
  rwa [← b.count_eq, Finset.card_range] at hcard

/-- `b'` is the bitmap after a free offset of `b` was put to use. -/
structure Taken (b : AllocationBitmap) (offset : Nat) (b' : AllocationBitmap) : Prop where
  lt : offset < b.max
  free : b.has offset = false
  max : b'.max = b.max
  count : b'.count = b.count + 1
  has : ∀ i, b'.has i = (b.has i || decide (i = offset))

theorem taken_take (offset : Nat) (hlt : offset < b.max) (hfree : getBit b.words offset = false) :
    Taken b offset (b.take offset hlt hfree) :=
  ⟨hlt, (has_eq b offset).trans hfree, rfl, rfl, has_take b offset hlt hfree⟩

/-- **`allocate`.** It succeeds on the free offsets below `max`, and otherwise changes
    nothing. -/
theorem allocate_cases (offset : Nat) :
    (∃ b', b.allocate offset = (true, b') ∧ Taken b offset b') ∨
      (b.allocate offset = (false, b) ∧ (offset < b.max → b.has offset = true)) := by
  rw [allocate]
  split
  next hlt =>
    split
    next hfree => exact .inl ⟨_, rfl, taken_take b offset hlt hfree⟩
    next hused =>
      rw [Bool.not_eq_false] at hused
      exact .inr ⟨rfl, fun _ => (has_eq b offset).trans hused⟩
  next hge => exact .inr ⟨rfl, fun hlt => absurd hlt hge⟩

@[simp] theorem max_allocate (offset : Nat) : (b.allocate offset).2.max = b.max := by
  obtain ⟨b', heq, htaken⟩ | ⟨heq, -⟩ := b.allocate_cases offset
  · rw [heq]
    exact htaken.max
  · rw [heq]

/-- **Completeness of the search.** Wherever it starts, it finds a free offset if any. -/
theorem allocateBit_eq_none (random : Nat) :
    allocateBit b.words b.max b.count random = none ↔ b.count = b.max := by
  have hle := b.count_le
  rw [allocateBit]
  split
  next hge => exact iff_of_true rfl (by omega)
  next hlt =>
    obtain ⟨offset, hoffset, hfree⟩ := b.exists_free (by omega)
    refine iff_of_false (fun hnone => ?_) (by omega)
    rw [List.find?_eq_none] at hnone
    -- The search reaches `offset` after going around from where it starts.
    have hmem : offset ∈ (List.range b.max).map fun i => (random % b.max + i) % b.max := by
      have hstart : random % b.max < b.max := Nat.mod_lt _ (by omega)
      refine List.mem_map.mpr ⟨(offset + (b.max - random % b.max)) % b.max,
        List.mem_range.mpr (Nat.mod_lt _ (by omega)), ?_⟩
      rw [Nat.add_mod_mod, show random % b.max + (offset + (b.max - random % b.max)) =
        offset + b.max by omega, Nat.add_mod_right, Nat.mod_eq_of_lt hoffset]
    apply hnone offset hmem
    rw [← has_eq, hfree]
    rfl

/-- **`allocate_next`.** It hands out some free offset, or all of them are in use and it
    changes nothing. -/
theorem allocateNext_cases (random : Nat) :
    (∃ next b', b.allocateNext random = (some next, b') ∧ Taken b next b') ∨
      (b.allocateNext random = (none, b) ∧ b.count = b.max) := by
  rw [allocateNext]
  split
  next next h =>
    obtain ⟨hlt, hfree⟩ := allocateBit_some h
    exact .inl ⟨next, _, rfl, taken_take b next hlt hfree⟩
  next h => exact .inr ⟨rfl, (allocateBit_eq_none b random).mp h⟩

@[simp] theorem max_allocateNext (random : Nat) : (b.allocateNext random).2.max = b.max := by
  obtain ⟨next, b', heq, htaken⟩ | ⟨heq, -⟩ := b.allocateNext_cases random
  · rw [heq]
    exact htaken.max
  · rw [heq]

/-- A search that starts at a free offset ends there. -/
theorem allocateBit_start {n : Nat} {words : Vector (BitVec 64) n} {max count offset : Nat}
    (hcount : count < max) (hlt : offset < max) (hfree : getBit words offset = false) :
    allocateBit words max count offset = some offset := by
  obtain ⟨m, rfl⟩ := Nat.exists_eq_succ_of_ne_zero (show max ≠ 0 by omega)
  have hat : (offset % (m + 1) + 0) % (m + 1) = offset := by
    rw [Nat.add_zero, Nat.mod_mod, Nat.mod_eq_of_lt hlt]
  rw [allocateBit, if_neg (by omega)]
  show List.find? _ (List.map _ (List.range (m + 1))) = _
  rw [List.range_succ_eq_map, List.map_cons, List.find?_cons_of_pos, hat]
  rw [hat, hfree]
  rfl

/-- Any free offset can be the one that `allocate_next` hands out. -/
theorem exists_allocateNext {offset : Nat} (hlt : offset < b.max) (hfree : b.has offset = false) :
    ∃ random, (b.allocateNext random).1 = some offset := by
  have hfound := allocateBit_start (b.count_lt_of_free hlt hfree) hlt ((has_eq b offset) ▸ hfree)
  refine ⟨offset, ?_⟩
  rw [allocateNext]
  split
  next next h => exact h.symm.trans hfound
  next h => cases h.symm.trans hfound

@[simp] theorem max_release (offset : Nat) : (b.release offset).max = b.max := by
  rw [release]
  split
  · split <;> rfl
  · rfl

/-- Releasing a used offset takes it off the count. -/
theorem count_release {b : AllocationBitmap} {offset : Nat} (h : b.has offset = true) :
    (b.release offset).count + 1 = b.count := by
  have hlt := has_lt h
  rw [has_eq] at h
  have hpos : 0 < b.count := by
    rw [b.count_eq, Finset.card_pos]
    exact ⟨offset, mem_usedBelow.mpr ⟨hlt, h⟩⟩
  rw [release, dif_pos hlt, dif_pos h]
  show b.count - 1 + 1 = b.count
  omega

/-- **`release`.** It frees exactly its offset. -/
theorem has_release (offset i : Nat) :
    (b.release offset).has i = (b.has i && decide (i ≠ offset)) := by
  have hunused : b.has offset = false → b.has i = (b.has i && decide (i ≠ offset)) := by
    intro hfree
    by_cases hi : i = offset
    · rw [hi, hfree, Bool.false_and]
    · rw [decide_eq_true hi, Bool.and_true]
  rw [release]
  split
  next hlt =>
    split
    next hused => rw [has_eq, has_eq, give, getBit_clearBit _ (word_lt hlt)]
    next hfree => exact hunused ((has_eq b offset).trans (Bool.not_eq_true _ ▸ hfree))
  next hge =>
    rw [← Bool.not_eq_true, has_eq] at hunused
    exact hunused fun h => hge (b.below_max offset h)

end AllocationBitmap

end Sarena
