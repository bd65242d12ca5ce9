import Sarena.Lib.Utf8

namespace Sarena.TestFramework

open Lib

/-!
# Test framework — the wire format and its writer

A test reports its result as a sequence of records, each a tag, a length byte and a value, in
a buffer of fixed size.  The writer fills the buffer from the front; a record that does not
fit is not begun.

* `Tag`, `TestStatus` — the tags and the status codes;
* `Record`, `encode` — records and their bytes;
* `TlvWriter` — the writer, with its position inside the buffer;
* `TlvWriter.Holds` — the buffer holds the records written so far, and zeros;
  `holds_writeRecord` — a write adds its record.
-/

/-! ### The wire format -/

/-- `TEST_RESULT_MAP_SIZE`. -/
def testResultMapSize : Nat := 8192

/-- A result buffer as the test runner clears it. -/
def zeroedBuffer : Bytes := List.replicate testResultMapSize 0

theorem length_zeroedBuffer : zeroedBuffer.length = testResultMapSize := List.length_replicate

/-- `WIRE_VERSION`. -/
def wireVersion : Byte := 1

/-- `Tag`. -/
inductive Tag
  | version
  | testName
  | testFile
  | testStatus
  | logFmt
  | logArg
  | logLine
  deriving DecidableEq, Repr

/-- `tag as u8`. -/
def Tag.code : Tag → Byte
  | version => 0x01
  | testName => 0x10
  | testFile => 0x11
  | testStatus => 0x13
  | logFmt => 0x20
  | logArg => 0x21
  | logLine => 0x22

/-- `Tag::from_u8`. -/
def Tag.fromU8 (v : Byte) : Option Tag :=
  match v.toNat with
  | 0x01 => some version
  | 0x10 => some testName
  | 0x11 => some testFile
  | 0x13 => some testStatus
  | 0x20 => some logFmt
  | 0x21 => some logArg
  | 0x22 => some logLine
  | _ => none

@[simp] theorem Tag.fromU8_code (tag : Tag) : Tag.fromU8 tag.code = some tag := by
  cases tag <;> rfl

/-- `TestStatus`. -/
inductive TestStatus
  | pass
  | fail
  | skip
  | frameworkError
  deriving DecidableEq, Repr

/-- `status as u8`. -/
def TestStatus.code : TestStatus → Byte
  | pass => 101
  | fail => 102
  | skip => 103
  | frameworkError => 105

/-- `TestStatus::from_u8`. -/
def TestStatus.fromU8 (v : Byte) : TestStatus :=
  match v.toNat with
  | 101 => pass
  | 102 => fail
  | 103 => skip
  | _ => frameworkError

@[simp] theorem TestStatus.fromU8_code (status : TestStatus) : fromU8 status.code = status := by
  cases status <;> rfl

theorem TestStatus.code_ne_zero (status : TestStatus) : status.code ≠ 0 := by
  cases status <;> decide

/-! ### Records -/

/-- A record whose length fits the length byte. -/
structure Record where
  tag : Tag
  value : Bytes
  short : value.length ≤ 255

/-- The bytes of a record. -/
def Record.bytes (r : Record) : Bytes :=
  r.tag.code :: BitVec.ofNat 8 r.value.length :: r.value

/-- The bytes of records in a row. -/
def encode (rs : List Record) : Bytes := rs.flatMap Record.bytes

theorem encode_append (rs rs' : List Record) : encode (rs ++ rs') = encode rs ++ encode rs' :=
  List.flatMap_append

theorem length_bytes (r : Record) : r.bytes.length = 2 + r.value.length := by
  show r.value.length + 1 + 1 = _
  omega

/-! ### The writer -/

/-- `TlvWriter`. -/
structure TlvWriter where
  buf : Bytes
  pos : Nat
  length_buf : buf.length = testResultMapSize
  pos_le : pos ≤ testResultMapSize

namespace TlvWriter

/-- What the `write_` methods share: `need`, then the tag, the length and the value.  The
    writer is left alone where there is no room. -/
def writeRecord (w : TlvWriter) (tag : Tag) (value : Bytes) : Option TlvWriter :=
  if h : w.pos + (2 + value.length) ≤ testResultMapSize then
    some {
      buf := w.buf.patch w.pos (tag.code :: BitVec.ofNat 8 value.length :: value)
      pos := w.pos + (2 + value.length)
      length_buf := by
        rw [Bytes.length_patch]
        · exact w.length_buf
        · rw [w.length_buf, List.length_cons, List.length_cons]
          omega
      pos_le := h }
  else none

/-- `TlvWriter::write_u8`. -/
def writeU8 (w : TlvWriter) (tag : Tag) (val : Byte) : Option TlvWriter := w.writeRecord tag [val]

/-- `TlvWriter::write_u32`. -/
def writeU32 (w : TlvWriter) (tag : Tag) (val : UInt32) : Option TlvWriter :=
  w.writeRecord tag (toLeBytes 4 val.toNat)

/-- `TlvWriter::write_u64`. -/
def writeU64 (w : TlvWriter) (tag : Tag) (val : UInt64) : Option TlvWriter :=
  w.writeRecord tag (toLeBytes 8 val.toNat)

/-- `TlvWriter::write_bytes`. -/
def writeBytes (w : TlvWriter) (tag : Tag) (data : Bytes) : Option TlvWriter :=
  if 255 < data.length then none else w.writeRecord tag data

/-- `TlvWriter::new`. -/
def new (buf : Bytes) (h : buf.length = testResultMapSize) : Option TlvWriter :=
  writeU8 ⟨buf, 0, h, Nat.zero_le _⟩ .version wireVersion

/-- The buffer holds these records and zeros after them. -/
def Holds (w : TlvWriter) (rs : List Record) : Prop :=
  w.pos = (encode rs).length ∧
    w.buf = encode rs ++ List.replicate (testResultMapSize - w.pos) 0

variable {w w' : TlvWriter} {tag : Tag} {value : Bytes} {rs : List Record}

/-- A write that fits adds its record to the buffer. -/
theorem holds_writeRecord (h : w.Holds rs) (hshort : value.length ≤ 255)
    (hwrite : w.writeRecord tag value = some w') : w'.Holds (rs ++ [⟨tag, value, hshort⟩]) := by
  unfold writeRecord at hwrite
  split at hwrite
  next hroom =>
    obtain rfl := Option.some.inj hwrite
    obtain ⟨hpos, hbuf⟩ := h
    have hbytes : encode [⟨tag, value, hshort⟩] =
        tag.code :: BitVec.ofNat 8 value.length :: value := List.append_nil _
    have hlength : (tag.code :: BitVec.ofNat 8 value.length :: value).length =
        2 + value.length := by
      rw [List.length_cons, List.length_cons]
      omega
    constructor
    · show w.pos + (2 + value.length) = _
      rw [encode_append, hbytes, List.length_append, hlength, hpos]
    · show w.buf.patch w.pos _ = _ ++ List.replicate (testResultMapSize - (w.pos + _)) 0
      rw [encode_append, hbytes, hbuf, Bytes.patch, hlength]
      -- The records before it stay, the zeros it needs go.
      have htake : (encode rs ++ List.replicate (testResultMapSize - w.pos) (0 : Byte)).take w.pos =
          encode rs := by
        rw [hpos, List.take_left]
      have hdrop : (encode rs ++ List.replicate (testResultMapSize - w.pos) (0 : Byte)).drop
          (w.pos + (2 + value.length)) =
          List.replicate (testResultMapSize - (w.pos + (2 + value.length))) 0 := by
        rw [hpos, List.drop_append, List.drop_replicate]
        rw [List.drop_eq_nil_of_le (by omega), List.nil_append]
        congr 1
        omega
      rw [htake, hdrop]
  next => cases hwrite

/-- A write succeeds where there is room. -/
theorem exists_writeRecord (h : w.pos + (2 + value.length) ≤ testResultMapSize) :
    ∃ w', w.writeRecord tag value = some w' := by
  unfold writeRecord
  rw [dif_pos h]
  exact ⟨_, rfl⟩

theorem pos_writeRecord (hwrite : w.writeRecord tag value = some w') :
    w'.pos = w.pos + (2 + value.length) := by
  unfold writeRecord at hwrite
  split at hwrite
  next =>
    obtain rfl := Option.some.inj hwrite
    rfl
  next => cases hwrite

/-- A new writer has room for the version. -/
theorem exists_new (buf : Bytes) (h : buf.length = testResultMapSize) :
    ∃ w, new buf h = some w ∧ w.pos = 3 := by
  unfold new writeU8
  obtain ⟨w, hw⟩ : ∃ w, writeRecord ⟨buf, 0, h, Nat.zero_le _⟩ .version [wireVersion] = some w := by
    apply exists_writeRecord
    show 0 + (2 + 1) ≤ 8192
    omega
  exact ⟨w, hw, pos_writeRecord hw⟩

/-- A new writer on a buffer of zeros holds the version. -/
theorem holds_new (hnew : new zeroedBuffer length_zeroedBuffer = some w) :
    w.Holds [⟨.version, [wireVersion], by decide⟩] := by
  have hempty : Holds ⟨zeroedBuffer, 0, length_zeroedBuffer, Nat.zero_le _⟩ [] := ⟨rfl, rfl⟩
  exact holds_writeRecord hempty _ hnew

end TlvWriter

end Sarena.TestFramework
