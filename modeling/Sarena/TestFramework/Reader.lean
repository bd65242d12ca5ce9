import Sarena.TestFramework.Writer

namespace Sarena.TestFramework

open Lib

/-!
# Test framework — the reader

`parse_test` reads the records of a result one after the other, after the version.  A `LogFmt`
begins a log entry, to which the next `LogLine` and `LogArg` records belong; unknown tags are
skipped.

* `nextTlv`, `applyRecord`, `parseRecords`, `parseTest` — the reader;
* `Reads` — what a sequence of records that is read without an error makes of a result;
* `parseTest_encode` — the bytes of such a sequence are parsed to that.
-/

/-! ### The parser -/

/-- `LogEntry`. -/
structure LogEntry where
  fmt : String
  line : UInt32 := 0
  args : List UInt64 := []
  deriving DecidableEq, Repr

/-- `TestResult`. -/
structure TestResult where
  name : String
  file : String
  status : TestStatus
  logs : List LogEntry
  deriving DecidableEq, Repr

/-- `ParseError`. -/
inductive ParseError
  | missingVersionTag
  | incompatibleVersion (found : Byte)
  | truncatedHeader (offset : Nat)
  | truncatedValue (offset expected : Nat)
  | badTagLength (tag : Byte) (expected found : Nat)
  | orphanLogField (offset : Nat)
  deriving DecidableEq, Repr

/-- Why the parser did not return a result: it returned an error, or it panicked. -/
inductive ParseFailure
  | error (error : ParseError)
  | panicked (panic : Panic)
  deriving DecidableEq, Repr

/-- `next_tlv`: the tag and the value at the cursor, and where the cursor gets to. -/
def nextTlv (data : Bytes) (cur : Nat) : Except ParseError ((Byte × Bytes) × Nat) :=
  if data.length < cur + 2 then .error (.truncatedHeader cur)
  else
    let tag := data.byteAt cur
    let len := (data.byteAt (cur + 1)).toNat
    let cur := cur + 2
    if data.length < cur + len then .error (.truncatedValue cur len)
    else .ok ((tag, (data.drop cur).take len), cur + len)

/-- A value of the length that its tag asks for. -/
def expectLength (tag : Tag) (expected : Nat) (value : Bytes) : Except ParseFailure Unit :=
  if value.length ≠ expected then
    .error (.error (.badTagLength tag.code expected value.length))
  else .ok ()

/-- `logs.last_mut()`, changed by `f`. -/
def changeLast (logs : List LogEntry) (offset : Nat) (f : LogEntry → LogEntry) :
    Except ParseFailure (List LogEntry) :=
  match logs.getLast? with
  | some entry => .ok (logs.dropLast ++ [f entry])
  | none => .error (.error (.orphanLogField offset))

/-- The `match` of `parse_test` on a record, which starts at `offset`. -/
def applyRecord (offset : Nat) (tag : Byte) (value : Bytes) (r : TestResult) :
    Except ParseFailure TestResult :=
  match Tag.fromU8 tag with
  | some .testName => .ok { r with name := value.fromUtf8Lossy }
  | some .testFile => .ok { r with file := value.fromUtf8Lossy }
  | some .testStatus => do
    expectLength .testStatus 1 value
    return { r with status := .fromU8 (value.byteAt 0) }
  | some .logFmt => .ok { r with logs := r.logs ++ [{ fmt := value.fromUtf8Lossy }] }
  | some .logLine => do
    expectLength .logLine 4 value
    let logs ← changeLast r.logs offset fun entry =>
      { entry with line := .ofNat (fromLeBytes value) }
    return { r with logs := logs }
  | some .logArg => do
    expectLength .logArg 8 value
    let logs ← changeLast r.logs offset fun entry =>
      { entry with args := entry.args ++ [.ofNat (fromLeBytes value)] }
    return { r with logs := logs }
  | _ => .ok r

/-- The cursor moves on. -/
theorem lt_of_nextTlv {data : Bytes} {cur next : Nat} {record : Byte × Bytes}
    (h : nextTlv data cur = .ok (record, next)) : cur < next ∧ next ≤ data.length := by
  unfold nextTlv at h
  split at h
  next => cases h
  next =>
    dsimp only at h
    split at h
    next => cases h
    next =>
      have hnext := congrArg Prod.snd (Except.ok.inj h)
      dsimp only at hnext
      omega

/-- The loop of `parse_test`. -/
def parseRecords (data : Bytes) (cur : Nat) (r : TestResult) : Except ParseFailure TestResult :=
  if cur < data.length then
    match _h : nextTlv data cur with
    | .error e => .error (.error e)
    | .ok ((tag, value), next) =>
      match applyRecord cur tag value r with
      | .error e => .error e
      | .ok r => parseRecords data next r
  else .ok r
termination_by data.length - cur
decreasing_by
  have hnext := lt_of_nextTlv ‹_›
  omega

/-- What `parse_test` starts with. -/
def TestResult.start : TestResult :=
  { name := "", file := "", status := .frameworkError, logs := [] }

/-- `parse_test`. -/
def parseTest (data : Bytes) : Except ParseFailure TestResult :=
  match nextTlv data 0 with
  | .error e => .error (.error e)
  | .ok ((tag, value), cur) =>
    if tag ≠ Tag.version.code then .error (.error .missingVersionTag)
    else if value ≠ [wireVersion] then
      match value with
      | found :: _ => .error (.error (.incompatibleVersion found))
      | [] => .error (.panicked .indexOutOfBounds)
    else parseRecords data cur .start

/-! ### Reading what was encoded -/

/-- The record is read without an error, wherever it starts. -/
def ReadsOne (r : TestResult) (record : Record) (r' : TestResult) : Prop :=
  ∀ offset, applyRecord offset record.tag.code record.value r = .ok r'

/-- A sequence of records is read without an error. -/
inductive Reads : TestResult → List Record → TestResult → Prop
  | nil (r : TestResult) : Reads r [] r
  | cons {r r' r'' : TestResult} {record : Record} {rest : List Record}
      (hone : ReadsOne r record r') (hrest : Reads r' rest r'') : Reads r (record :: rest) r''

variable {r r' r'' : TestResult} {rs rs' : List Record}

theorem Reads.append (h : Reads r rs r') (h' : Reads r' rs' r'') : Reads r (rs ++ rs') r'' := by
  induction h with
  | nil => exact h'
  | cons hone _ ih => exact .cons hone (ih h')

theorem Reads.one {record : Record} (h : ReadsOne r record r') : Reads r [record] r' :=
  .cons h (.nil r')

/-- The reader finds the record that starts at the cursor. -/
theorem nextTlv_bytes (front rest : Bytes) (record : Record) :
    nextTlv (front ++ (record.bytes ++ rest)) front.length =
      .ok ((record.tag.code, record.value), front.length + record.bytes.length) := by
  have hbytes := length_bytes record
  have htag : (front ++ (record.bytes ++ rest)).byteAt front.length = record.tag.code := by
    rw [Bytes.byteAt, List.getD_append_right _ _ _ _ (Nat.le_refl _), Nat.sub_self]
    rfl
  have hlen : (front ++ (record.bytes ++ rest)).byteAt (front.length + 1) =
      BitVec.ofNat 8 record.value.length := by
    rw [Bytes.byteAt, List.getD_append_right _ _ _ _ (by omega), Nat.add_sub_cancel_left]
    rfl
  have hvalue : ((front ++ (record.bytes ++ rest)).drop (front.length + 2)).take
      record.value.length = record.value := by
    rw [List.drop_length_add_append]
    show ((record.value ++ rest).drop 0).take _ = _
    rw [List.drop_zero, List.take_left]
  -- The length byte holds the length, as the value of a record is short.
  have hshort : (BitVec.ofNat 8 record.value.length).toNat = record.value.length := by
    rw [BitVec.toNat_ofNat]
    exact Nat.mod_eq_of_lt (Nat.lt_succ_of_le record.short)
  have htotal : (front ++ (record.bytes ++ rest)).length =
      front.length + (2 + record.value.length + rest.length) := by
    rw [List.length_append, List.length_append, hbytes]
  unfold nextTlv
  rw [if_neg (by omega)]
  dsimp only
  rw [htag, hlen, hshort, hvalue, if_neg (by omega), hbytes]
  congr 2
  omega

/-- **The loop**, on the bytes of records that are read without an error. -/
theorem parseRecords_encode (h : Reads r rs r') (front : Bytes) :
    parseRecords (front ++ encode rs) front.length r = .ok r' := by
  induction h generalizing front with
  | nil =>
    rw [parseRecords, if_neg]
    show ¬ front.length < (front ++ []).length
    rw [List.append_nil]
    omega
  | @cons r r' r'' record rest hone _ ih =>
    have hencode : front ++ encode (record :: rest) = front ++ (record.bytes ++ encode rest) := by
      rw [encode, List.flatMap_cons]
      rfl
    have hnext := nextTlv_bytes front (encode rest) record
    -- A record has at least two bytes, so the loop goes on.
    have hlt : front.length < (front ++ (record.bytes ++ encode rest)).length := by
      rw [List.length_append, List.length_append, length_bytes]
      omega
    rw [hencode, parseRecords, if_pos hlt]
    split
    next e herror =>
      rw [hnext] at herror
      cases herror
    next tag value next hok =>
      rw [hnext] at hok
      obtain ⟨⟨rfl, rfl⟩, rfl⟩ := Prod.mk.inj (Except.ok.inj hok)
      rw [hone front.length]
      dsimp only
      have hrest := ih (front ++ record.bytes)
      rw [List.append_assoc, List.length_append] at hrest
      exact hrest

/-- **Parsing.** The bytes of a version and of records that are read without an error. -/
theorem parseTest_encode (h : Reads .start rs r) :
    parseTest (encode (⟨.version, [wireVersion], by decide⟩ :: rs)) = .ok r := by
  have hnext := nextTlv_bytes [] (encode rs) ⟨.version, [wireVersion], by decide⟩
  have hparse := parseRecords_encode h (Record.bytes ⟨.version, [wireVersion], by decide⟩)
  unfold parseTest
  have hencode : encode (⟨.version, [wireVersion], by decide⟩ :: rs) =
      [] ++ (Record.bytes ⟨.version, [wireVersion], by decide⟩ ++ encode rs) := by
    rw [encode, List.flatMap_cons]
    rfl
  rw [hencode, show (0 : Nat) = ([] : Bytes).length from rfl, hnext]
  dsimp only
  rw [if_neg (not_not.mpr rfl), if_neg (not_not.mpr rfl), List.nil_append, List.length_nil,
    Nat.zero_add]
  exact hparse

end Sarena.TestFramework
