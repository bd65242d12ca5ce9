import Sarena.Infra.MacAddress
import Sarena.TestFramework.Suite

namespace Sarena.TestFramework

open Lib

/-!
# Test framework — buffer assertions and their failure records

`assert_buffer_inner` compares a packet with an expected buffer.  When they differ, or one is
too short, it fills in a record of the failure and puts it into a map, which the test runner
reads and serializes.  The lengths in the record are the length that was asked for and what
the packet has from the offset on.  The programs are built without overflow checks, so machine
arithmetic wraps around.

* `Memory`, `TcContext`, `Slice` — the memory of a test program, its packet and a buffer;
* `memcpy`, `memcmp` — over raw pointers; a write past the end of its buffer, which is
  undefined, is one that panics;
* `ScapyAssert`, `ScapyAssert.serialize` — the record, and what the runner does with it;
* `assertBufferInner` — the assertion;
* `AssertInBounds`, `assertBuffer_inBounds_iff` — the inputs for which its record stays inside
  its buffers; `misplaced_assert_outOfBounds` — three for which it does not.
-/

/-- `SCAPY_MAX_BUF`. -/
def scapyMaxBuf : Nat := 1518

/-- `SCAPY_MAX_ASSERTS`. -/
def scapyMaxAsserts : Nat := 256

/-- `SCAPY_MAX_STR_LEN`. -/
def scapyMaxStrLen : Nat := 128

abbrev Usize := BitVec 64

/-! ### Memory -/

/-- The memory that a test program reads, with the address of the buffer of zeros in
    `SCAPY_ASSERT_NULL`. -/
structure Memory where
  byte : Usize → Byte
  nullBuf : Usize
  null_zero : ∀ i < scapyMaxBuf, byte (nullBuf + BitVec.ofNat 64 i) = 0

/-- What a pointer points to, byte by byte. -/
def Memory.bytes (mem : Memory) (ptr : Usize) (i : Nat) : Byte := mem.byte (ptr + BitVec.ofNat 64 i)

/-- `TcContext`: where the packet begins and ends, and the length of the whole socket buffer. -/
structure TcContext where
  data : Usize
  dataEnd : Usize
  len : BitVec 32
  data_le : data ≤ dataEnd

/-- `&[u8]`. -/
structure Slice where
  ptr : Usize
  len : Usize
  len_lt : len.toNat < 2 ^ 63

/-- The loop of `memcpy`, with the rounds left. -/
def memcpyFrom {n : Nat} (src : Nat → Byte) : Nat → Nat → Vector Byte n → Checked (Vector Byte n)
  | _, 0, dst => pure dst
  | i, rounds + 1, dst =>
    if h : i < n then memcpyFrom src (i + 1) rounds (dst.set i (src i))
    else .error .indexOutOfBounds

/-- `memcpy`. -/
def memcpy {n : Nat} (dst : Vector Byte n) (src : Nat → Byte) (len : Usize) :
    Checked (Vector Byte n) :=
  memcpyFrom src 0 len.toNat dst

/-- The loop of `memcmp`, with the rounds left. -/
def memcmpFrom (buf1 buf2 : Nat → Byte) : Nat → Nat → Bool
  | _, 0 => true
  | i, rounds + 1 => if buf1 i ≠ buf2 i then false else memcmpFrom buf1 buf2 (i + 1) rounds

/-- `memcmp`. -/
def memcmp (buf1 buf2 : Nat → Byte) (len : Usize) : Bool := memcmpFrom buf1 buf2 0 len.toNat

/-- `copy_str`: a zero stays at the end. -/
def copyStr (src : String) : Vector Byte scapyMaxStrLen :=
  let bytes := Bytes.utf8 src
  let len := min bytes.length (scapyMaxStrLen - 1)
  Vector.ofFn fun i => if i.val < len then bytes.byteAt i else 0

/-! ### Failure records -/

/-- `ScapyAssert`. -/
structure ScapyAssert where
  name : Vector Byte scapyMaxStrLen
  file : Vector Byte scapyMaxStrLen
  line : UInt32
  firstLayer : Vector Byte scapyMaxStrLen
  expectedLen : Usize
  expectedBuf : Vector Byte scapyMaxBuf
  actualLen : Usize
  actualBuf : Vector Byte scapyMaxBuf

/-- `ScapyAssert::null`. -/
def ScapyAssert.null : ScapyAssert where
  name := Vector.replicate _ 0
  file := Vector.replicate _ 0
  line := 0
  firstLayer := Vector.replicate _ 0
  expectedLen := 0
  expectedBuf := Vector.replicate _ 0
  actualLen := 0
  actualBuf := Vector.replicate _ 0

/-- The value of a field of the serialized record. -/
inductive FieldValue
  | text (s : String)
  | number (n : Nat)
  deriving DecidableEq, Repr

/-- `convert`: the text up to the first zero, unless it is not UTF-8. -/
def convert (bytes : Vector Byte scapyMaxStrLen) : Option String :=
  String.fromUTF8? ((bytes.toList.takeWhile (· ≠ 0)).map UInt8.ofBitVec).toByteArray

/-- `encode_to_string`. -/
def encodeToString (bytes : Bytes) : String :=
  String.join (bytes.map fun b => hexByte (UInt8.ofBitVec b))

/-- `Serialize` of a record: its fields in order, unless a text is not UTF-8. -/
def ScapyAssert.serialize (a : ScapyAssert) : Checked (Option (List (String × FieldValue))) :=
  match convert a.name, convert a.file, convert a.firstLayer with
  | some name, some file, some firstLayer => do
    let expected ← Bytes.slice a.expectedBuf.toList 0 a.expectedLen.toNat
    let actual ← Bytes.slice a.actualBuf.toList 0 a.actualLen.toNat
    return some [
      ("name", .text name),
      ("file", .text file),
      ("linenum", .number a.line.toNat),
      ("first-layer", .text firstLayer),
      ("exp-len", .number a.expectedLen.toNat),
      ("exp-buf", .text (encodeToString expected)),
      ("got-len", .number a.actualLen.toNat),
      ("got-buf", .text (encodeToString actual))]
  | _, _, _ => return none

/-- The maps of the failure records: the record that is filled in, the number of the failures
    and their records. -/
structure AssertMaps where
  scratch : Vector ScapyAssert 1
  count : Vector (BitVec 32) 1
  asserts : Vector ScapyAssert scapyMaxAsserts

/-- The maps of a test that has recorded no failure yet. -/
def noFailures : AssertMaps where
  scratch := Vector.replicate _ .null
  count := Vector.replicate _ 0
  asserts := Vector.replicate _ .null

/-! ### The assertion -/

/-- The end of `add_failure`: the record is filled in, counted, and put into the map at its
    number. -/
def TestSuite.pushFailure (t : TestSuite) (maps : AssertMaps) (entry : ScapyAssert) :
    TestSuite × AssertMaps :=
  let maps := { maps with scratch := maps.scratch.set 0 entry }
  match maps.count[0]? with
  | none => (t, maps)
  | some idx =>
    let maps := { maps with count := maps.count.set 0 (idx + 1) }
    if h : idx.toNat < scapyMaxAsserts then
      (t, { maps with asserts := maps.asserts.set idx.toNat entry })
    else (t.log0 207 (Bytes.utf8 "ERROR: unable to push failed assert to map!"), maps)

/-- `TestSuite::add_failure`. -/
def TestSuite.addFailure (mem : Memory) (t : TestSuite) (maps : AssertMaps) (name file : String)
    (line : UInt32) (firstLayer : String) (buf : Slice) (len data dataEnd : Usize) :
    Checked (TestSuite × AssertMaps) :=
  match maps.scratch[0]? with
  | none => return (t, maps)
  | some _ => do
    let expectedBuf ← memcpy (Vector.replicate scapyMaxBuf 0) (mem.bytes buf.ptr) len
    let source := if data + len ≤ dataEnd then mem.bytes data else mem.bytes mem.nullBuf
    let actualBuf ← memcpy (Vector.replicate scapyMaxBuf 0) source len
    return t.pushFailure maps {
      name := copyStr name
      file := copyStr file
      line := line
      firstLayer := copyStr firstLayer
      expectedLen := len
      expectedBuf := expectedBuf
      actualLen := dataEnd - data
      actualBuf := actualBuf }

/-- `TestSuite::assert_buffer_inner`. -/
def TestSuite.assertBufferInner (mem : Memory) (t : TestSuite) (maps : AssertMaps) (file : String)
    (line : UInt32) (ctx : TcContext) (name firstLayer : String) (offset : Usize) (buf : Slice)
    (len : Usize) (msgTooShort msgMismatch : String) : Checked (TestSuite × AssertMaps) :=
  let data := ctx.data + offset
  let (pass, t) :=
    if data + len > ctx.dataEnd then
      (false, t.log3 line (Bytes.utf8 "CTX len (%d) - offset (%d) < LEN (%d)")
        (.ofNat ctx.len.toNat) (.ofBitVec offset) (.ofBitVec len))
    else (true, t)
  let (pass, t) :=
    if buf.len < len then
      (false, t.log2 line (Bytes.utf8 msgTooShort) (.ofBitVec buf.len) (.ofBitVec len))
    else (pass, t)
  let (pass, t) :=
    if pass && !memcmp (mem.bytes data) (mem.bytes buf.ptr) len then
      (false, t.log0 line (Bytes.utf8 msgMismatch))
    else (pass, t)
  if !pass then do
    let (t, maps) ← t.addFailure mem maps name file line firstLayer buf len data ctx.dataEnd
    return (t.fail, maps)
  else return (t, maps)

/-! ### The loops over memory -/

theorem memcmpFrom_eq_true {buf1 buf2 : Nat → Byte} (i rounds : Nat) :
    memcmpFrom buf1 buf2 i rounds = true ↔ ∀ j < rounds, buf1 (i + j) = buf2 (i + j) := by
  induction rounds generalizing i with
  | zero => exact iff_of_true rfl fun j hj => absurd hj (Nat.not_lt_zero j)
  | succ rounds ih =>
    rw [memcmpFrom, Nat.forall_lt_succ_left]
    by_cases hi : buf1 i = buf2 i
    · rw [if_neg (not_not.mpr hi), ih]
      refine Iff.trans (forall_congr' fun j => ?_) (and_iff_right hi).symm
      rw [Nat.add_right_comm, Nat.add_assoc]
    · rw [if_pos hi]
      exact iff_of_false Bool.false_ne_true fun h => hi h.1

/-- **`memcpy`** writes up to the end of its buffer at most. -/
theorem exactly_memcpyFrom {n : Nat} (src : Nat → Byte) (i rounds : Nat) (hi : i ≤ n)
    (dst : Vector Byte n) :
    Checked.Exactly (memcpyFrom src i rounds dst) (i + rounds ≤ n) fun _ => True := by
  induction rounds generalizing i dst with
  | zero => exact (Checked.exactly_pure dst).mono (iff_of_true trivial hi) fun _ _ => trivial
  | succ rounds ih =>
    rw [memcpyFrom]
    by_cases hlt : i < n
    · rw [dif_pos hlt]
      have hcond : i + 1 + rounds ≤ n ↔ i + (rounds + 1) ≤ n := by omega
      exact (ih (i + 1) hlt _).mono hcond fun _ h => h
    · rw [dif_neg hlt]
      exact ⟨fun h => absurd h (by omega), nofun⟩

theorem exactly_memcpy {n : Nat} (dst : Vector Byte n) (src : Nat → Byte) (len : Usize) :
    Checked.Exactly (memcpy dst src len) (len.toNat ≤ n) fun _ => True :=
  (exactly_memcpyFrom src 0 len.toNat (Nat.zero_le n) dst).mono (by rw [Nat.zero_add]) fun _ h => h

/-! ### The record of a failure -/

variable {mem : Memory} {t : TestSuite} {maps : AssertMaps} {name file firstLayer : String}
  {line : UInt32} {ctx : TcContext} {offset len data dataEnd : Usize} {buf : Slice}
  {msgTooShort msgMismatch : String}

/-- What a failure leaves in the maps: its record in the scratch map, one failure more, and
    the record in the map of the failures, where there is room. -/
structure AssertMaps.Failed (before : AssertMaps) (len actualLen : Usize) (after : AssertMaps) :
    Prop where
  expectedLen : after.scratch[0].expectedLen = len
  actualLen : after.scratch[0].actualLen = actualLen
  count : after.count[0] = before.count[0] + 1
  asserts : ∀ h : before.count[0].toNat < scapyMaxAsserts,
    after.asserts[before.count[0].toNat] = after.scratch[0]

theorem failed_pushFailure {entry : ScapyAssert} {actualLen : Usize}
    (hexpected : entry.expectedLen = len) (hactual : entry.actualLen = actualLen) :
    maps.Failed len actualLen (t.pushFailure maps entry).2 := by
  have hentry : (maps.scratch.set 0 entry)[0] = entry := Vector.getElem_set_self _
  have hcount : maps.count[0]? = some maps.count[0] := Vector.getElem?_eq_getElem Nat.one_pos
  unfold TestSuite.pushFailure
  dsimp only
  rw [hcount]
  dsimp only
  split_ifs with hroom
  · exact ⟨(congrArg _ hentry).trans hexpected, (congrArg _ hentry).trans hactual,
      Vector.getElem_set_self _, fun _ => (Vector.getElem_set_self _).trans hentry.symm⟩
  · exact ⟨(congrArg _ hentry).trans hexpected, (congrArg _ hentry).trans hactual,
      Vector.getElem_set_self _, fun h => absurd h hroom⟩

/-- **A failure** is recorded exactly when the length fits the buffers of the record. -/
theorem exactly_addFailure : Checked.Exactly
    (t.addFailure mem maps name file line firstLayer buf len data dataEnd)
    (len.toNat ≤ scapyMaxBuf) fun r => maps.Failed len (dataEnd - data) r.2 := by
  have hscratch : maps.scratch[0]? = some maps.scratch[0] := Vector.getElem?_eq_getElem Nat.one_pos
  rw [TestSuite.addFailure, hscratch]
  apply (exactly_memcpy _ _ _).bind_true
  rintro hlen expectedBuf -
  apply ((exactly_memcpy _ _ _).mono (iff_of_true hlen trivial) fun _ h => h).bind_of_true
  rintro actualBuf -
  refine (Checked.exactly_pure _).mono Iff.rfl ?_
  rintro _ rfl
  exact failed_pushFailure rfl rfl

/-! ### The assertion passes or fails -/

/-- The assertion passes: the packet has `len` bytes from the offset on, the buffer has as
    many, and they agree. -/
structure Passes (mem : Memory) (ctx : TcContext) (offset : Usize) (buf : Slice) (len : Usize) :
    Prop where
  packet : ctx.data + offset + len ≤ ctx.dataEnd
  buffer : len ≤ buf.len
  equal : ∀ i < len.toNat, mem.bytes (ctx.data + offset) i = mem.bytes buf.ptr i

theorem memcmp_eq_true {buf1 buf2 : Nat → Byte} :
    memcmp buf1 buf2 len = true ↔ ∀ i < len.toNat, buf1 i = buf2 i := by
  rw [memcmp, memcmpFrom_eq_true]
  simp only [Nat.zero_add]

/-- An assertion that passes records nothing. -/
theorem assertBufferInner_of_passes (h : Passes mem ctx offset buf len) :
    t.assertBufferInner mem maps file line ctx name firstLayer offset buf len msgTooShort
      msgMismatch = .ok (t, maps) := by
  have hpacket : ¬ ctx.data + offset + len > ctx.dataEnd := BitVec.not_lt.mpr h.packet
  have hbuffer : ¬ buf.len < len := BitVec.not_lt.mpr h.buffer
  have hequal := memcmp_eq_true.mpr h.equal
  unfold TestSuite.assertBufferInner
  dsimp only
  rw [if_neg hpacket]
  dsimp only
  rw [if_neg hbuffer]
  dsimp only
  rw [hequal]
  rfl

/-- An assertion that does not pass is recorded as a failure, after a log of why. -/
theorem assertBufferInner_of_not_passes (h : ¬ Passes mem ctx offset buf len) :
    ∃ t' : TestSuite, t.assertBufferInner mem maps file line ctx name firstLayer offset buf len
        msgTooShort msgMismatch =
      t'.addFailure mem maps name file line firstLayer buf len (ctx.data + offset) ctx.dataEnd >>=
        fun r => pure (r.1.fail, r.2) := by
  unfold TestSuite.assertBufferInner
  dsimp only
  by_cases hbuffer : buf.len < len
  · rw [if_pos hbuffer]
    exact ⟨_, rfl⟩
  rw [if_neg hbuffer]
  by_cases hpacket : ctx.data + offset + len > ctx.dataEnd
  · rw [if_pos hpacket]
    exact ⟨_, rfl⟩
  rw [if_neg hpacket]
  dsimp only
  cases hequal : memcmp (mem.bytes (ctx.data + offset)) (mem.bytes buf.ptr) len with
  | true =>
    have hpasses : Passes mem ctx offset buf len :=
      ⟨BitVec.not_lt.mp hpacket, BitVec.not_lt.mp hbuffer, memcmp_eq_true.mp hequal⟩
    exact absurd hpasses h
  | false => exact ⟨_, rfl⟩

/-! ### Records in bounds -/

/-- The lengths of the record are lengths of its buffers, and serializing it indexes nothing
    beyond them. -/
structure ScapyAssert.InBounds (a : ScapyAssert) : Prop where
  expected : a.expectedLen.toNat ≤ scapyMaxBuf
  actual : a.actualLen.toNat ≤ scapyMaxBuf
  serialized : ∃ fields, a.serialize = .ok fields

theorem ScapyAssert.inBounds_of_le {a : ScapyAssert} (hexpected : a.expectedLen.toNat ≤ scapyMaxBuf)
    (hactual : a.actualLen.toNat ≤ scapyMaxBuf) : a.InBounds := by
  refine ⟨hexpected, hactual, ?_⟩
  have hslice : ∀ (b : Vector Byte scapyMaxBuf) (len : Usize), len.toNat ≤ scapyMaxBuf →
      Bytes.slice b.toList 0 len.toNat = .ok ((b.toList.drop 0).take (len.toNat - 0)) := by
    intro b len hlen
    exact Bytes.slice_eq ⟨Nat.zero_le _, by rwa [b.length_toList]⟩
  rw [serialize]
  split
  next =>
    rw [hslice _ _ hexpected, hslice _ _ hactual]
    exact ⟨_, rfl⟩
  next => exact ⟨_, rfl⟩

/-- The record that a call has filled in: there is one when the number of failures has moved. -/
def AssertMaps.filled (before after : AssertMaps) : Option ScapyAssert :=
  if after.count[0] = before.count[0] then none else some after.scratch[0]

/-- The record that a call has put into the map of the failures. -/
def AssertMaps.recorded (before after : AssertMaps) : Option ScapyAssert :=
  if after.count[0] = before.count[0] then none else after.asserts[before.count[0].toNat]?

/-- An assertion stays in bounds: it writes nothing beyond its buffers, the record that it puts
    into the map is in bounds, and the length of the packet from the offset on, which it
    subtracts, is a length. -/
def AssertInBounds (outcome : Checked (TestSuite × AssertMaps)) (before : AssertMaps)
    (ctx : TcContext) (offset : Usize) : Prop :=
  Checked.Returns outcome fun r =>
    (∀ a ∈ before.recorded r.2, a.InBounds) ∧
    ∀ a ∈ before.filled r.2,
      (a.actualLen.toNat : Int) = ctx.dataEnd.toNat - (ctx.data + offset).toNat

/-- A failure can be recorded: the length fits the buffers of the record, the offset lies in
    the packet, and the rest of the packet fits them too, unless the map is full. -/
structure Recordable (maps : AssertMaps) (ctx : TcContext) (offset len : Usize) : Prop where
  expected : len.toNat ≤ scapyMaxBuf
  inside : ctx.data + offset ≤ ctx.dataEnd
  actual : maps.count[0].toNat < scapyMaxAsserts →
    ctx.dataEnd.toNat - (ctx.data + offset).toNat ≤ scapyMaxBuf

variable {after : AssertMaps} {actualLen : Usize}

theorem AssertMaps.Failed.moved (h : maps.Failed len actualLen after) :
    after.count[0] ≠ maps.count[0] := by
  rw [h.count]
  intro heq
  have hnat := congrArg BitVec.toNat heq
  rw [BitVec.toNat_add] at hnat
  have hlt := maps.count[0].isLt
  have hone : (1 : BitVec 32).toNat = 1 := rfl
  omega

theorem AssertMaps.Failed.filled_eq (h : maps.Failed len actualLen after) :
    maps.filled after = some after.scratch[0] := if_neg h.moved

/-- The map has room for the record, or there is none. -/
theorem AssertMaps.Failed.mem_recorded (h : maps.Failed len actualLen after) {a : ScapyAssert} :
    a ∈ maps.recorded after ↔ maps.count[0].toNat < scapyMaxAsserts ∧ after.scratch[0] = a := by
  rw [AssertMaps.recorded, if_neg h.moved]
  by_cases hroom : maps.count[0].toNat < scapyMaxAsserts
  · rw [Vector.getElem?_eq_getElem hroom, h.asserts hroom, Option.mem_some, and_iff_right hroom]
  · rw [Vector.getElem?_eq_none (Nat.not_lt.mp hroom)]
    exact iff_of_false nofun fun h => hroom h.1

/-- A recorded failure is in bounds exactly when it can be recorded. -/
theorem failed_inBounds_iff (hlen : len.toNat ≤ scapyMaxBuf)
    (h : maps.Failed len (ctx.dataEnd - (ctx.data + offset)) after) :
    ((∀ a ∈ maps.recorded after, a.InBounds) ∧ ∀ a ∈ maps.filled after,
      (a.actualLen.toNat : Int) = ctx.dataEnd.toNat - (ctx.data + offset).toNat) ↔
      Recordable maps ctx offset len := by
  have hsub : ctx.data + offset ≤ ctx.dataEnd → after.scratch[0].actualLen.toNat =
      ctx.dataEnd.toNat - (ctx.data + offset).toNat := by
    intro hle
    rw [h.actualLen, BitVec.toNat_sub_of_le hle]
  have hfilled : after.scratch[0] ∈ maps.filled after := h.filled_eq
  constructor
  · rintro ⟨hrecorded, hexact⟩
    have hint := hexact _ hfilled
    have hle : ctx.data + offset ≤ ctx.dataEnd := by
      rw [BitVec.le_def]
      omega
    refine ⟨hlen, hle, fun hroom => ?_⟩
    rw [← hsub hle]
    exact (hrecorded _ (h.mem_recorded.mpr ⟨hroom, rfl⟩)).actual
  · intro hrec
    have hle := BitVec.le_def.mp hrec.inside
    refine ⟨fun a ha => ?_, fun a ha => ?_⟩
    · obtain ⟨hroom, rfl⟩ := h.mem_recorded.mp ha
      apply ScapyAssert.inBounds_of_le
      · rw [h.expectedLen]
        exact hlen
      · rw [hsub hrec.inside]
        exact hrec.actual hroom
    · obtain rfl : after.scratch[0] = a := Option.some.inj (h.filled_eq.symm.trans ha)
      rw [hsub hrec.inside]
      omega

/-- **An assertion that does not pass** records its failure exactly when the length fits the
    buffers of the record. -/
theorem exactly_assertBufferInner (h : ¬ Passes mem ctx offset buf len) : Checked.Exactly
    (t.assertBufferInner mem maps file line ctx name firstLayer offset buf len msgTooShort
      msgMismatch)
    (len.toNat ≤ scapyMaxBuf)
    fun r => maps.Failed len (ctx.dataEnd - (ctx.data + offset)) r.2 := by
  obtain ⟨t', heq⟩ := assertBufferInner_of_not_passes h
  rw [heq]
  apply exactly_addFailure.bind_true
  intro _ r hr
  refine (Checked.exactly_pure _).mono Iff.rfl ?_
  rintro _ rfl
  exact hr

theorem inBounds_of_not_passes (h : ¬ Passes mem ctx offset buf len) :
    AssertInBounds (t.assertBufferInner mem maps file line ctx name firstLayer offset buf len
      msgTooShort msgMismatch) maps ctx offset ↔ Recordable maps ctx offset len := by
  constructor
  · rintro ⟨r, hr, hbounds⟩
    have hlen := (exactly_assertBufferInner h).cond r hr
    have hfailed := (exactly_assertBufferInner h).of_eq hr
    exact (failed_inBounds_iff hlen hfailed).mp hbounds
  · intro hrec
    exact ((exactly_assertBufferInner h).returns hrec.expected).mono fun r hfailed =>
      (failed_inBounds_iff hrec.expected hfailed).mpr hrec

/-- **Buffer assertions in bounds.** For every packet, offset, buffer and length, and whatever
    has been recorded, an assertion stays in bounds exactly when it passes or its failure can
    be recorded. -/
theorem assertBuffer_inBounds_iff (mem : Memory) (t : TestSuite) (maps : AssertMaps)
    (file : String) (line : UInt32) (ctx : TcContext) (name firstLayer : String) (offset : Usize)
    (buf : Slice) (len : Usize) (msgTooShort msgMismatch : String) :
    AssertInBounds (t.assertBufferInner mem maps file line ctx name firstLayer offset buf len
      msgTooShort msgMismatch) maps ctx offset ↔
      Passes mem ctx offset buf len ∨ Recordable maps ctx offset len := by
  by_cases h : Passes mem ctx offset buf len
  · refine iff_of_true ⟨(t, maps), assertBufferInner_of_passes h, ?_, ?_⟩ (.inl h)
    · intro a ha
      rw [AssertMaps.recorded, if_pos rfl] at ha
      cases ha
    · intro a ha
      rw [AssertMaps.filled, if_pos rfl] at ha
      cases ha
  · rw [inBounds_of_not_passes h]
    exact ⟨.inr, fun hor => hor.resolve_left h⟩

/-! ### Records out of bounds -/

/-- A memory of zeros, but for the first byte of the expected buffer. -/
def sampleMemory : Memory where
  byte a := if a = 0x8000 then 1 else 0
  nullBuf := 0
  null_zero i hi := by
    have hne : (0 : Usize) + BitVec.ofNat 64 i ≠ 0x8000 := by
      have hmax : scapyMaxBuf = 1518 := rfl
      intro heq
      have hnat := congrArg BitVec.toNat heq
      have h8000 : (0x8000 : Usize).toNat = 32768 := rfl
      rw [BitVec.toNat_add, BitVec.toNat_ofNat, h8000] at hnat
      have hzero : (0 : Usize).toNat = 0 := rfl
      omega
    exact if_neg hne

/-- A frame of 54 bytes. -/
def shortFrame : TcContext := ⟨0x1000, 0x1036, 54, by decide⟩

/-- A frame of 9000 bytes. -/
def jumboFrame : TcContext := ⟨0x1000, 0x3328, 9000, by decide⟩

/-- An expected buffer of 2000 bytes. -/
def sampleBuffer : Slice := ⟨0x8000, 2000, by decide⟩

/-- A test that has written nothing yet. -/
def freshSuite : TestSuite := ⟨⟨zeroedBuffer, 0, length_zeroedBuffer, Nat.zero_le _⟩, .pass⟩

/-- The first assertion of the test. -/
def sampleAssert (ctx : TcContext) (offset len : Usize) : Checked (TestSuite × AssertMaps) :=
  freshSuite.assertBufferInner sampleMemory noFailures "scapy_tests.rs" 20 ctx "equal bytes" "Ether"
    offset sampleBuffer len "buffer too short" "content mismatch"

theorem recordable_sampleAssert (hfails : ¬ Passes sampleMemory ctx offset sampleBuffer len)
    (h : AssertInBounds (sampleAssert ctx offset len) noFailures ctx offset) :
    Recordable noFailures ctx offset len := (inBounds_of_not_passes hfails).mp h

/-- With an offset past the end of the frame, the length in the record wraps around.  With a
    frame that is longer than the buffers of the record, or a length that is, the record of the
    failure is out of bounds as well. -/
theorem misplaced_assert_outOfBounds :
    (∃ r, sampleAssert shortFrame 60 10 = .ok r ∧
      ∃ a ∈ noFailures.recorded r.2, a.actualLen.toNat = 2 ^ 64 - 6) ∧
    ¬ AssertInBounds (sampleAssert shortFrame 60 10) noFailures shortFrame 60 ∧
    ¬ AssertInBounds (sampleAssert jumboFrame 0 10) noFailures jumboFrame 0 ∧
    ¬ AssertInBounds (sampleAssert jumboFrame 8000 1519) noFailures jumboFrame 8000 := by
  have hfails : ¬ Passes sampleMemory shortFrame 60 sampleBuffer 10 := fun hp =>
    absurd hp.packet (by decide)
  refine ⟨?_, fun h => ?_, fun h => ?_, fun h => ?_⟩
  · have hadd : Checked.Exactly (sampleAssert shortFrame 60 10) _ _ :=
      exactly_assertBufferInner hfails
    obtain ⟨r, hr, hfailed⟩ := hadd.returns (by decide)
    refine ⟨r, hr, _, hfailed.mem_recorded.mpr ⟨by decide, rfl⟩, ?_⟩
    rw [hfailed.actualLen]
    rfl
  · exact absurd (recordable_sampleAssert hfails h).inside (by decide)
  · have hfails : ¬ Passes sampleMemory jumboFrame 0 sampleBuffer 10 := fun hp =>
      absurd (hp.equal 0 (by decide)) (by decide)
    exact absurd ((recordable_sampleAssert hfails h).actual (by decide)) (by decide)
  · have hfails : ¬ Passes sampleMemory jumboFrame 8000 sampleBuffer 1519 := fun hp =>
      absurd hp.packet (by decide)
    exact absurd (recordable_sampleAssert hfails h).expected (by decide)

end Sarena.TestFramework
