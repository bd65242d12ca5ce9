import Sarena.Ipam.Bitmap
import Sarena.Lib.Bytes
import Sarena.Lib.Run

namespace Sarena

open Lib

/-!
# IPAM — runs of the allocation bitmap

`AllocationBitmap` carries its invariants as fields.  The code carries none of them: it
indexes its words, draws from the range below `max` and subtracts from the count without
looking.  `RawBitmap` is that code, with each of these checked.

* `RawBitmap.allocate`, `allocateNext`, `release`, `forEach` — the operations;
* `raw_allocate`, `raw_allocateNext`, `raw_release` — on the words and the count of an
  `AllocationBitmap` they do not panic, and do what its own operations do;
* `SetStep` — the same calls on a finite set of offsets;
* `allocationBitmap_refines_set` — in every run the bitmap is that set.

A bitmap takes an eighth of `max` bytes, so a sum of two offsets does not overflow a `usize`.
-/

/-! ### The operations, checked -/

/-- `words[i]`. -/
def readWord (words : List (BitVec 64)) (i : Nat) : Checked (BitVec 64) :=
  match words[i]? with
  | some word => .ok word
  | none => .error .indexOutOfBounds

/-- `rand::random_range(0..max)`, which panics when the range is empty. -/
def randomRange (max random : Nat) : Checked Nat :=
  if max = 0 then .error .rangeOutOfBounds else .ok (random % max)

/-- `AllocationBitmap` as the code has it. -/
structure RawBitmap where
  max : Nat
  words : List (BitVec 64)
  count : Nat
  deriving DecidableEq, Repr

namespace RawBitmap

/-- `get_bit`. -/
def getBit (words : List (BitVec 64)) (offset : Nat) : Checked Bool := do
  let word ← readWord words (offset / 64)
  return (word >>> (offset % 64)) &&& 1 == 1

/-- `set_bit`. -/
def setBit (words : List (BitVec 64)) (offset : Nat) : Checked (List (BitVec 64)) := do
  let word ← readWord words (offset / 64)
  return words.set (offset / 64) (word ||| (1 : BitVec 64) <<< (offset % 64))

/-- `clear_bit`. -/
def clearBit (words : List (BitVec 64)) (offset : Nat) : Checked (List (BitVec 64)) := do
  let word ← readWord words (offset / 64)
  return words.set (offset / 64) (word &&& ~~~((1 : BitVec 64) <<< (offset % 64)))

/-- `allocate_bit`. -/
def allocateBit (words : List (BitVec 64)) (max count random : Nat) : Checked (Option Nat) := do
  if count ≥ max then return none
  else
    let offset ← randomRange max random
    ((List.range max).map fun i => (offset + i) % max).findM? fun at_ => do
      let bit ← getBit words at_
      return !bit

/-- `AllocationBitmap::new`. -/
def new (max : Nat) : RawBitmap where
  max := max
  words := .replicate ((max + 63) / 64) 0
  count := 0

/-- `AllocationBitmap::allocate`. -/
def allocate (b : RawBitmap) (offset : Nat) : Checked (Bool × RawBitmap) := do
  if offset ≥ b.max then return (false, b)
  else if ← getBit b.words offset then return (false, b)
  else
    let words ← setBit b.words offset
    return (true, { b with words := words, count := b.count + 1 })

/-- `AllocationBitmap::allocate_next`. -/
def allocateNext (b : RawBitmap) (random : Nat) : Checked (Option Nat × RawBitmap) := do
  match ← allocateBit b.words b.max b.count random with
  | none => return (none, b)
  | some next =>
    let words ← setBit b.words next
    return (some next, { b with words := words, count := b.count + 1 })

/-- `AllocationBitmap::release`. -/
def release (b : RawBitmap) (offset : Nat) : Checked RawBitmap := do
  if offset ≥ b.max then return b
  else if !(← getBit b.words offset) then return b
  else
    let words ← clearBit b.words offset
    let count ← Checked.sub b.count 1
    return { b with words := words, count := count }

/-- `AllocationBitmap::for_each`: the offsets it calls its function with, in order. -/
def forEach (b : RawBitmap) : List Nat :=
  b.words.zipIdx.flatMap fun (word, wordIdx) =>
    (visitBits word 0).map fun bit => wordIdx * 64 + bit

/-- The positions of the set bits, in all the words. -/
def used (b : RawBitmap) : Finset Nat :=
  (Finset.range (64 * b.words.length)).filter fun offset =>
    (b.words.getD (offset / 64) 0).getLsbD (offset % 64)

end RawBitmap

/-! ### Calls -/

/-- A call, with the random draw where there is one. -/
inductive BitmapCall
  | allocate (offset : Nat)
  | allocateNext (random : Nat)
  | release (offset : Nat)
  | forEach
  deriving DecidableEq, Repr

/-- What a call returns. -/
inductive BitmapAnswer
  | allocated (success : Bool)
  | next (offset : Option Nat)
  | released
  | visited (offsets : List Nat)
  deriving DecidableEq, Repr

/-- A call of the bitmap. -/
def RawBitmap.call (b : RawBitmap) : BitmapCall → Checked (BitmapAnswer × RawBitmap)
  | .allocate offset => do
    let (success, b) ← b.allocate offset
    return (.allocated success, b)
  | .allocateNext random => do
    let (offset, b) ← b.allocateNext random
    return (.next offset, b)
  | .release offset => do
    let b ← b.release offset
    return (.released, b)
  | .forEach => return (.visited b.forEach, b)

/-- A call that returned. -/
def RawBitmap.Step (b : RawBitmap) (a : BitmapCall × BitmapAnswer) (c : RawBitmap) : Prop :=
  b.call a.1 = .ok (a.2, c)

/-- The calls on a set of offsets below `max`. -/
inductive SetStep (max : Nat) (s : Finset Nat) : BitmapCall × BitmapAnswer → Finset Nat → Prop
  | allocated (offset : Nat) (hlt : offset < max) (hfree : offset ∉ s) :
      SetStep max s (.allocate offset, .allocated true) (insert offset s)
  | refused (offset : Nat) (h : ¬ (offset < max ∧ offset ∉ s)) :
      SetStep max s (.allocate offset, .allocated false) s
  | next (random offset : Nat) (hcard : s.card < max) (hlt : offset < max) (hfree : offset ∉ s) :
      SetStep max s (.allocateNext random, .next (some offset)) (insert offset s)
  | full (random : Nat) (hcard : ¬ s.card < max) :
      SetStep max s (.allocateNext random, .next none) s
  | release (offset : Nat) : SetStep max s (.release offset, .released) (s.erase offset)
  | forEach (offsets : List Nat) (hsorted : offsets.Pairwise (· < ·))
      (hmem : ∀ offset, offset ∈ offsets ↔ offset ∈ s) :
      SetStep max s (.forEach, .visited offsets) s

/-! ### The words of an allocation bitmap -/

section

variable {n : Nat} (words : Vector (BitVec 64) n)

/-- Reading a word that exists. -/
theorem readWord_toList {offset : Nat} (h : offset / 64 < n) :
    readWord words.toList (offset / 64) = .ok (wordAt words offset) := by
  have hsome : words.toList[offset / 64]? = some (wordAt words offset) := by
    rw [wordAt, Vector.getElem?_toList, Vector.getElem?_eq_getElem h]
    rfl
  rw [readWord, hsome]

theorem raw_getBit {offset : Nat} (h : offset / 64 < n) :
    RawBitmap.getBit words.toList offset = .ok (getBit words offset) := by
  rw [RawBitmap.getBit, readWord_toList words h]
  rfl

theorem raw_setBit {offset : Nat} (h : offset / 64 < n) :
    RawBitmap.setBit words.toList offset = .ok (setBit words offset).toList := by
  rw [RawBitmap.setBit, readWord_toList words h, setBit, Vector.toList_setIfInBounds]
  rfl

theorem raw_clearBit {offset : Nat} (h : offset / 64 < n) :
    RawBitmap.clearBit words.toList offset = .ok (clearBit words offset).toList := by
  rw [RawBitmap.clearBit, readWord_toList words h, clearBit, Vector.toList_setIfInBounds]
  rfl

/-- A search with a predicate that does not panic on the list. -/
theorem findM?_ok {p : Nat → Checked Bool} {q : Nat → Bool} {l : List Nat}
    (h : ∀ i ∈ l, p i = .ok (q i)) : l.findM? p = .ok (l.find? q) := by
  induction l with
  | nil => rfl
  | cons i rest ih =>
    rw [List.findM?, h i List.mem_cons_self, List.find?_cons]
    cases hq : q i with
    | true => rfl
    | false => exact ih fun j hj => h j (List.mem_cons_of_mem i hj)

/-- The search stays below `max`, where the words are. -/
theorem raw_allocateBit {max count random : Nat} (hn : max ≤ 64 * n) :
    RawBitmap.allocateBit words.toList max count random =
      .ok (allocateBit words max count random) := by
  unfold RawBitmap.allocateBit allocateBit
  by_cases hcount : count ≥ max
  · rw [if_pos hcount, if_pos hcount]
    rfl
  · rw [if_neg hcount, if_neg hcount, randomRange, if_neg (by omega)]
    refine findM?_ok fun i hi => ?_
    obtain ⟨j, -, rfl⟩ := List.mem_map.mp hi
    have hlt : (random % max + j) % max < max := Nat.mod_lt _ (by omega)
    rw [raw_getBit words (by omega)]
    rfl

end

namespace AllocationBitmap

/-- The bitmap without its invariants. -/
def raw (b : AllocationBitmap) : RawBitmap := ⟨b.max, b.words.toList, b.count⟩

theorem raw_new (max : Nat) : (new max).raw = RawBitmap.new max := by
  rw [raw, new, RawBitmap.new, Vector.toList_replicate]

variable (b : AllocationBitmap)

/-- The words reach up to `max`. -/
private theorem div_lt {offset : Nat} (h : offset < b.max) : offset / 64 < (b.max + 63) / 64 := by
  omega

theorem mem_used_raw (offset : Nat) : offset ∈ b.raw.used ↔ b.has offset = true := by
  have hword : b.words.toList.getD (offset / 64) 0 = wordAt b.words offset := by
    rw [List.getD_eq_getElem?_getD, Vector.getElem?_toList, wordAt]
  rw [RawBitmap.used, Finset.mem_filter, Finset.mem_range, has_eq, getBit_eq]
  show offset < 64 * b.words.toList.length ∧
    (b.words.toList.getD (offset / 64) 0).getLsbD _ = true ↔ _
  rw [hword, Vector.length_toList]
  refine and_iff_right_of_imp fun hbit => ?_
  have hlt := b.below_max offset ((getBit_eq b.words offset).trans hbit)
  omega

theorem used_raw : b.raw.used = usedBelow b.max b.words := by
  ext offset
  rw [mem_used_raw, mem_usedBelow, has, Bool.and_eq_true, decide_eq_true_iff]

theorem card_used_raw : b.raw.used.card = b.count := by rw [used_raw, b.count_eq]

/-! ### The operations do not panic -/

theorem raw_allocate (offset : Nat) :
    b.raw.allocate offset = .ok ((b.allocate offset).1, (b.allocate offset).2.raw) := by
  unfold RawBitmap.allocate allocate
  by_cases hlt : offset < b.max
  · have hword := b.div_lt hlt
    rw [if_neg (show ¬ offset ≥ b.raw.max from not_le.mpr hlt), dif_pos hlt,
      show b.raw.words = b.words.toList from rfl, raw_getBit b.words hword]
    by_cases hfree : getBit b.words offset = false
    · rw [dif_pos hfree, hfree, raw_setBit b.words hword]
      rfl
    · rw [dif_neg hfree, (Bool.not_eq_false _).mp hfree]
      rfl
  · rw [if_pos (show offset ≥ b.raw.max from not_lt.mp hlt), dif_neg hlt]
    rfl

theorem raw_allocateNext (random : Nat) :
    b.raw.allocateNext random = .ok ((b.allocateNext random).1, (b.allocateNext random).2.raw) := by
  have hsearch : RawBitmap.allocateBit b.raw.words b.raw.max b.raw.count random =
      .ok (allocateBit b.words b.max b.count random) := by
    refine raw_allocateBit b.words ?_
    show b.max ≤ _
    omega
  unfold RawBitmap.allocateNext allocateNext
  split
  next next hfound =>
    rw [hfound] at hsearch
    rw [hsearch]
    show (RawBitmap.setBit b.words.toList next >>= _) = _
    rw [raw_setBit b.words (b.div_lt (allocateBit_some hfound).1)]
    rfl
  next hnone =>
    rw [hnone] at hsearch
    rw [hsearch]
    rfl

/-- A set bit is counted, so the count is not zero. -/
theorem raw_release (offset : Nat) : b.raw.release offset = .ok (b.release offset).raw := by
  unfold RawBitmap.release release
  by_cases hlt : offset < b.max
  · have hword := b.div_lt hlt
    rw [if_neg (show ¬ offset ≥ b.raw.max from not_le.mpr hlt), dif_pos hlt,
      show b.raw.words = b.words.toList from rfl, raw_getBit b.words hword]
    by_cases hused : getBit b.words offset = true
    · have hpos := count_release ((has_eq b offset).trans hused)
      rw [dif_pos hused, hused, raw_clearBit b.words hword]
      show (Checked.sub b.count 1 >>= _) = _
      rw [Checked.sub_ok (by omega)]
      rfl
    · rw [dif_neg hused, (Bool.not_eq_true _).mp hused]
      rfl
  · rw [if_pos (show offset ≥ b.raw.max from not_lt.mp hlt), dif_neg hlt]
    rfl

theorem raw_forEach : b.raw.forEach = b.forEach := by
  have hzip : b.words.toList.zipIdx =
      (List.range ((b.max + 63) / 64)).map fun i => (b.words[i]?.getD 0, i) := by
    refine List.ext_getElem (by simp) fun i hi hi' => ?_
    have hlt : i < (b.max + 63) / 64 := by simpa using hi'
    simp [Vector.getElem?_eq_getElem hlt]
  unfold RawBitmap.forEach forEach
  show b.words.toList.zipIdx.flatMap _ = _
  rw [hzip, List.flatMap_map]

/-! ### The operations on the set of used offsets -/

variable {b} {b' : AllocationBitmap} {offset : Nat}

theorem used_of_taken (h : Taken b offset b') : b'.raw.used = insert offset b.raw.used := by
  ext i
  rw [Finset.mem_insert, mem_used_raw, mem_used_raw, h.has, Bool.or_eq_true, decide_eq_true_iff,
    or_comm]

theorem notMem_of_taken (h : Taken b offset b') : offset ∉ b.raw.used := by
  rw [mem_used_raw, h.free]
  exact Bool.false_ne_true

theorem used_release (b : AllocationBitmap) (offset : Nat) :
    (b.release offset).raw.used = b.raw.used.erase offset := by
  ext i
  rw [Finset.mem_erase, mem_used_raw, mem_used_raw, has_release, Bool.and_eq_true,
    decide_eq_true_iff, and_comm]

/-- **Step.** A call returns, and is the same call on the set of the used offsets. -/
theorem setStep_call (b : AllocationBitmap) (c : BitmapCall) :
    ∃ answer, ∃ b' : AllocationBitmap, b.raw.call c = .ok (answer, b'.raw) ∧ b'.max = b.max ∧
      SetStep b.max b.raw.used (c, answer) b'.raw.used := by
  cases c with
  | allocate offset =>
    have hcall : b.raw.call (.allocate offset) =
        .ok (.allocated (b.allocate offset).1, (b.allocate offset).2.raw) := by
      rw [RawBitmap.call, raw_allocate]
      rfl
    refine ⟨_, _, hcall, b.max_allocate offset, ?_⟩
    obtain ⟨b', heq, htaken⟩ | ⟨heq, hused⟩ := b.allocate_cases offset
    · rw [heq, used_of_taken htaken]
      exact .allocated offset htaken.lt (notMem_of_taken htaken)
    · rw [heq]
      refine .refused offset ?_
      rintro ⟨hlt, hfree⟩
      exact hfree ((b.mem_used_raw offset).mpr (hused hlt))
  | allocateNext random =>
    have hcall : b.raw.call (.allocateNext random) =
        .ok (.next (b.allocateNext random).1, (b.allocateNext random).2.raw) := by
      rw [RawBitmap.call, raw_allocateNext]
      rfl
    refine ⟨_, _, hcall, b.max_allocateNext random, ?_⟩
    obtain ⟨next, b', heq, htaken⟩ | ⟨heq, hfull⟩ := b.allocateNext_cases random
    · have hcard : b.raw.used.card < b.max := by
        rw [card_used_raw]
        exact b.count_lt_of_free htaken.lt htaken.free
      rw [heq, used_of_taken htaken]
      exact .next random next hcard htaken.lt (notMem_of_taken htaken)
    · rw [heq]
      refine .full random ?_
      rw [card_used_raw, hfull]
      exact Nat.lt_irrefl b.max
  | release offset =>
    have hcall : b.raw.call (.release offset) = .ok (.released, (b.release offset).raw) := by
      rw [RawBitmap.call, raw_release]
      rfl
    refine ⟨_, _, hcall, b.max_release offset, ?_⟩
    rw [used_release]
    exact .release offset
  | forEach =>
    refine ⟨.visited b.forEach, b, ?_, rfl, .forEach _ b.forEach_sorted fun offset => ?_⟩
    · rw [RawBitmap.call, raw_forEach]
      rfl
    · rw [mem_forEach, mem_used_raw]

end AllocationBitmap

/-! ### Runs -/

/-- The words and the count are those of a bitmap for `max`. -/
def RawBitmap.Sound (max : Nat) (b : RawBitmap) : Prop :=
  ∃ b' : AllocationBitmap, b'.max = max ∧ b = b'.raw

namespace RawBitmap

variable {max : Nat} {b c : RawBitmap} {a : BitmapCall × BitmapAnswer}

theorem sound_new (max : Nat) : (new max).Sound max :=
  ⟨.new max, rfl, (AllocationBitmap.raw_new max).symm⟩

/-- A step is the call that the bitmap answers. -/
theorem Sound.setStep (hb : b.Sound max) (h : b.Step a c) :
    c.Sound max ∧ SetStep max b.used a c.used := by
  obtain ⟨b', rfl, rfl⟩ := hb
  obtain ⟨answer, c', hcall, hmax, hset⟩ := b'.setStep_call a.1
  rw [Step, hcall, Except.ok.injEq, Prod.mk.injEq] at h
  obtain ⟨rfl, rfl⟩ := h
  exact ⟨⟨c', hmax, rfl⟩, hset⟩

/-- **The allocation bitmap is a finite set.** In every run, from any maximum and with any
    random draws: each call is the call on the set of the used offsets; the count is the
    number of set bits, none of which is at or beyond the maximum; and no call panics, so the
    count is never taken below zero and no word is read that does not exist. -/
theorem allocationBitmap_refines_set (run : Run Step (new max) b) :
    run.EachStep (fun s a t => SetStep max s.used a t.used) ∧
      b.count = b.used.card ∧ (∀ offset ∈ b.used, offset < max) ∧
      ∀ call, ∃ answer c, b.call call = .ok (answer, c) := by
  have hkeep : ∀ (s : RawBitmap) a t, s.Step a t → s.Sound max → t.Sound max :=
    fun s a t hstep hs => (hs.setStep hstep).1
  refine ⟨run.eachStep_of_invariant (sound_new max) hkeep fun s a t hstep hs =>
    (hs.setStep hstep).2, ?_⟩
  obtain ⟨b', rfl, rfl⟩ := run.invariant (sound_new max) hkeep
  refine ⟨b'.card_used_raw.symm, fun offset hused => ?_, fun call => ?_⟩
  · exact AllocationBitmap.has_lt ((b'.mem_used_raw offset).mp hused)
  · obtain ⟨answer, c, hcall, -⟩ := b'.setStep_call call
    exact ⟨answer, c.raw, hcall⟩

end RawBitmap

end Sarena
