import Mathlib.Tactic.SplitIfs
import Sarena.TestFramework.Reader

namespace Sarena.TestFramework.Indexed

open Lib

/-!
# Test framework — the accesses of the reader

The reader of `Reader.lean` looks at its buffer through total functions.  Here every index,
every slice and every conversion of a slice to an array is checked, as in the source.

* `nextTlv`, `applyRecord`, `parseRecords`, `parseTest` — the reader, access by access;
* `nextTlv_eq`, `applyRecord_eq` — their own checks cover their accesses;
* `parseTest_eq` — so the two readers are one, panics included;
* `Safe`, `parseTest_safe_iff` — the one access that no check covers.
-/

/-! ### The reader -/

/-- An access, which panics when it is out of bounds. -/
def access {α : Type} (m : Checked α) : Except ParseFailure α := m.mapError .panicked

@[simp] theorem access_ok {α : Type} (a : α) : access (.ok a : Checked α) = .ok a := rfl

/-- `value.try_into().unwrap()`, for an array of `n` bytes. -/
def toArray (n : Nat) (value : Bytes) : Checked Bytes :=
  if value.length = n then .ok value else .error .lengthMismatch

/-- `next_tlv`. -/
def nextTlv (data : Bytes) (cur : Nat) : Except ParseFailure ((Byte × Bytes) × Nat) := do
  if data.length < cur + 2 then throw (.error (.truncatedHeader cur))
  else
    let tag ← access (data.read cur)
    let len ← access (data.read (cur + 1))
    let cur := cur + 2
    if data.length < cur + len.toNat then throw (.error (.truncatedValue cur len.toNat))
    else
      let value ← access (data.slice cur (cur + len.toNat))
      return ((tag, value), cur + len.toNat)

/-- The `match` of `parse_test` on a record, which starts at `offset`. -/
def applyRecord (offset : Nat) (tag : Byte) (value : Bytes) (r : TestResult) :
    Except ParseFailure TestResult :=
  match Tag.fromU8 tag with
  | some .testName => .ok { r with name := value.fromUtf8Lossy }
  | some .testFile => .ok { r with file := value.fromUtf8Lossy }
  | some .testStatus => do
    expectLength .testStatus 1 value
    let code ← access (value.read 0)
    return { r with status := .fromU8 code }
  | some .logFmt => .ok { r with logs := r.logs ++ [{ fmt := value.fromUtf8Lossy }] }
  | some .logLine => do
    expectLength .logLine 4 value
    let bytes ← access (toArray 4 value)
    let logs ← changeLast r.logs offset fun entry =>
      { entry with line := .ofNat (fromLeBytes bytes) }
    return { r with logs := logs }
  | some .logArg => do
    expectLength .logArg 8 value
    let bytes ← access (toArray 8 value)
    let logs ← changeLast r.logs offset fun entry =>
      { entry with args := entry.args ++ [.ofNat (fromLeBytes bytes)] }
    return { r with logs := logs }
  | _ => .ok r

/-! ### What the checks cover -/

/-- `next_tlv` accesses nothing that it has not checked. -/
theorem nextTlv_eq (data : Bytes) (cur : Nat) :
    nextTlv data cur = (TestFramework.nextTlv data cur).mapError .error := by
  unfold nextTlv TestFramework.nextTlv
  by_cases hheader : data.length < cur + 2
  · rw [if_pos hheader, if_pos hheader]
    rfl
  · rw [if_neg hheader, if_neg hheader, Bytes.read_eq (by omega), Bytes.read_eq (by omega)]
    show (if data.length < cur + 2 + (data.byteAt (cur + 1)).toNat then _ else _) = _
    by_cases hvalue : data.length < cur + 2 + (data.byteAt (cur + 1)).toNat
    · rw [if_pos hvalue]
      dsimp only
      rw [if_pos hvalue]
      rfl
    · rw [if_neg hvalue, Bytes.slice_eq (by omega)]
      dsimp only
      rw [if_neg hvalue, Nat.add_sub_cancel_left]
      rfl

/-- After the check of a length. -/
theorem expectLength_bind {α : Type} {tag : Tag} {n : Nat} {value : Bytes}
    {f g : Unit → Except ParseFailure α} (h : value.length = n → f () = g ()) :
    (expectLength tag n value >>= f) = (expectLength tag n value >>= g) := by
  unfold expectLength
  by_cases hlen : value.length = n
  · rw [if_neg (not_not.mpr hlen)]
    exact h hlen
  · rw [if_pos hlen]
    rfl

/-- Every arm accesses its value after the check of its length. -/
theorem applyRecord_eq (offset : Nat) (tag : Byte) (value : Bytes) (r : TestResult) :
    applyRecord offset tag value r = TestFramework.applyRecord offset tag value r := by
  unfold applyRecord TestFramework.applyRecord
  cases Tag.fromU8 tag with
  | none => rfl
  | some tag =>
    cases tag with
    | version | testName | testFile | logFmt => rfl
    | testStatus =>
      refine expectLength_bind fun hlen => ?_
      rw [Bytes.read_eq (by omega)]
      rfl
    | logLine =>
      refine expectLength_bind fun hlen => ?_
      rw [toArray, if_pos hlen]
      rfl
    | logArg =>
      refine expectLength_bind fun hlen => ?_
      rw [toArray, if_pos hlen]
      rfl

/-! ### The loop -/

/-- The cursor moves on, so the loop ends. -/
theorem lt_of_nextTlv {data : Bytes} {cur next : Nat} {record : Byte × Bytes}
    (h : nextTlv data cur = .ok (record, next)) : cur < next ∧ next ≤ data.length := by
  rw [nextTlv_eq] at h
  cases hnext : TestFramework.nextTlv data cur with
  | error e =>
    rw [hnext] at h
    cases h
  | ok found =>
    rw [hnext] at h
    obtain rfl := Except.ok.inj h
    exact TestFramework.lt_of_nextTlv hnext

/-- The loop of `parse_test`. -/
def parseRecords (data : Bytes) (cur : Nat) (r : TestResult) : Except ParseFailure TestResult :=
  if cur < data.length then
    match _h : nextTlv data cur with
    | .error e => .error e
    | .ok ((tag, value), next) =>
      match applyRecord cur tag value r with
      | .error e => .error e
      | .ok r => parseRecords data next r
  else .ok r
termination_by data.length - cur
decreasing_by
  have hnext := lt_of_nextTlv ‹_›
  omega

/-- `parse_test`. -/
def parseTest (data : Bytes) : Except ParseFailure TestResult := do
  let ((tag, value), cur) ← nextTlv data 0
  if tag ≠ Tag.version.code then throw (.error .missingVersionTag)
  else if value ≠ [wireVersion] then
    let found ← access (value.read 0)
    throw (.error (.incompatibleVersion found))
  else parseRecords data cur .start

/-- A round of the loop. -/
theorem parseRecords_of_lt {data : Bytes} {cur : Nat} (hlt : cur < data.length) (r : TestResult) :
    parseRecords data cur r = (nextTlv data cur >>= fun ((tag, value), next) =>
      applyRecord cur tag value r >>= parseRecords data next) := by
  rw [parseRecords, if_pos hlt]
  split
  next e herror =>
    rw [herror]
    rfl
  next tag value next hok =>
    rw [hok]
    show _ = applyRecord cur tag value r >>= _
    cases applyRecord cur tag value r <;> rfl

/-- A round of the loop over total functions. -/
theorem totalRecords_of_lt {data : Bytes} {cur : Nat} (hlt : cur < data.length)
    (r : TestResult) :
    TestFramework.parseRecords data cur r =
      ((TestFramework.nextTlv data cur).mapError .error >>= fun ((tag, value), next) =>
        TestFramework.applyRecord cur tag value r >>= TestFramework.parseRecords data next) := by
  rw [TestFramework.parseRecords, if_pos hlt]
  split
  next e herror =>
    rw [herror]
    rfl
  next tag value next hok =>
    rw [hok]
    show _ = TestFramework.applyRecord cur tag value r >>= _
    cases TestFramework.applyRecord cur tag value r <;> rfl

/-- **The loop.** Round by round the two readers do the same. -/
theorem parseRecords_eq (data : Bytes) (cur : Nat) (r : TestResult) :
    parseRecords data cur r = TestFramework.parseRecords data cur r := by
  induction cur, r using TestFramework.parseRecords.induct data with
  | case1 cur r hlt e hnext =>
    rw [parseRecords_of_lt hlt, totalRecords_of_lt hlt, nextTlv_eq, hnext]
    rfl
  | case2 cur r hlt tag value next hnext e happly =>
    rw [parseRecords_of_lt hlt, totalRecords_of_lt hlt, nextTlv_eq, hnext]
    show applyRecord cur tag value r >>= _ = TestFramework.applyRecord cur tag value r >>= _
    rw [applyRecord_eq, happly]
    rfl
  | case3 cur r hlt tag value next hnext r' happly ih =>
    rw [parseRecords_of_lt hlt, totalRecords_of_lt hlt, nextTlv_eq, hnext]
    show applyRecord cur tag value r >>= _ = TestFramework.applyRecord cur tag value r >>= _
    rw [applyRecord_eq, happly]
    exact ih
  | case4 cur r hge => rw [parseRecords, TestFramework.parseRecords, if_neg hge, if_neg hge]

/-- **One reader.** The checks of `parse_test` cover its accesses, but for the one that the
    model over total functions has as well. -/
theorem parseTest_eq (data : Bytes) : parseTest data = TestFramework.parseTest data := by
  unfold parseTest TestFramework.parseTest
  rw [nextTlv_eq]
  cases TestFramework.nextTlv data 0 with
  | error e => rfl
  | ok found =>
    obtain ⟨⟨tag, value⟩, cur⟩ := found
    show (if tag ≠ Tag.version.code then _ else _) = _
    dsimp only
    split_ifs with htag hvalue
    · rfl
    · cases value <;> rfl
    · exact parseRecords_eq data cur .start

/-! ### The panics -/

/-- The result is a value or an error of the parser's own. -/
def Safe {α : Type} (m : Except ParseFailure α) : Prop :=
  (∃ a, m = .ok a) ∨ ∃ e, m = .error (.error e)

section

variable {α β : Type}

theorem safe_ok (a : α) : Safe (.ok a) := .inl ⟨a, rfl⟩

theorem safe_error (e : ParseError) : Safe (.error (.error e) : Except ParseFailure α) :=
  .inr ⟨e, rfl⟩

theorem not_safe_panicked (p : Panic) : ¬ Safe (.error (.panicked p) : Except ParseFailure α) := by
  rintro (⟨a, ha⟩ | ⟨e, he⟩)
  · cases ha
  · cases he

theorem Safe.bind {m : Except ParseFailure α} {f : α → Except ParseFailure β} (h : Safe m)
    (hf : ∀ a, Safe (f a)) : Safe (m >>= f) := by
  obtain ⟨a, rfl⟩ | ⟨e, rfl⟩ := h
  · exact hf a
  · exact safe_error e

end

theorem safe_expectLength (tag : Tag) (n : Nat) (value : Bytes) :
    Safe (expectLength tag n value) := by
  unfold expectLength
  split_ifs
  · exact safe_error _
  · exact safe_ok ()

theorem safe_changeLast (logs : List LogEntry) (offset : Nat) (f : LogEntry → LogEntry) :
    Safe (changeLast logs offset f) := by
  unfold changeLast
  split
  · exact safe_ok _
  · exact safe_error _

theorem safe_applyRecord (offset : Nat) (tag : Byte) (value : Bytes) (r : TestResult) :
    Safe (TestFramework.applyRecord offset tag value r) := by
  unfold TestFramework.applyRecord
  cases Tag.fromU8 tag with
  | none => exact safe_ok r
  | some tag =>
    cases tag with
    | version | testName | testFile | logFmt => exact safe_ok _
    | testStatus => exact (safe_expectLength _ _ _).bind fun _ => safe_ok _
    | logLine | logArg =>
      exact (safe_expectLength _ _ _).bind fun _ =>
        (safe_changeLast _ _ _).bind fun _ => safe_ok _

/-- The loop does not panic, from no cursor. -/
theorem safe_parseRecords (data : Bytes) (cur : Nat) (r : TestResult) :
    Safe (TestFramework.parseRecords data cur r) := by
  induction cur, r using TestFramework.parseRecords.induct data with
  | case1 cur r hlt e hnext =>
    rw [totalRecords_of_lt hlt, hnext]
    exact safe_error e
  | case2 cur r hlt tag value next hnext e happly =>
    have hsafe := safe_applyRecord cur tag value r
    rw [totalRecords_of_lt hlt, hnext]
    show Safe (TestFramework.applyRecord cur tag value r >>= _)
    rw [happly] at hsafe ⊢
    obtain ⟨_, herror⟩ | ⟨e, herror⟩ := hsafe
    · cases herror
    · rw [herror]
      exact safe_error e
  | case3 cur r hlt tag value next hnext r' happly ih =>
    rw [totalRecords_of_lt hlt, hnext]
    show Safe (TestFramework.applyRecord cur tag value r >>= _)
    rw [happly]
    exact ih
  | case4 cur r hge =>
    rw [TestFramework.parseRecords, if_neg hge]
    exact safe_ok r

/-- The first record of an input that has a header. -/
theorem nextTlv_header (x y : Byte) (rest : Bytes) :
    TestFramework.nextTlv (x :: y :: rest) 0 = if rest.length < y.toNat then
      .error (.truncatedValue 2 y.toNat) else .ok ((x, rest.take y.toNat), 2 + y.toNat) := by
  unfold TestFramework.nextTlv
  rw [if_neg (by simp)]
  dsimp only
  show (if rest.length + 1 + 1 < 0 + 2 + y.toNat then _ else _) = _
  by_cases h : rest.length < y.toNat
  · rw [if_pos (by omega), if_pos h]
    rfl
  · rw [if_neg (by omega), if_neg h]
    rfl

/-- The version of the wire format is not the empty one. -/
theorem safe_version_iff {tag : Byte} {value : Bytes} {cur : Nat} {data : Bytes}
    (hnext : TestFramework.nextTlv data 0 = .ok ((tag, value), cur)) :
    Safe (TestFramework.parseTest data) ↔ ¬ (tag = Tag.version.code ∧ value = []) := by
  unfold TestFramework.parseTest
  rw [hnext]
  dsimp only
  split_ifs with htag hvalue
  · exact iff_of_true (safe_error _) fun h => htag h.1
  · rw [not_not] at htag
    cases value with
    | nil => exact iff_of_false (not_safe_panicked _) fun h => h ⟨htag, rfl⟩
    | cons found rest => exact iff_of_true (safe_error _) fun h => nomatch h.2
  · rw [not_not] at hvalue
    exact iff_of_true (safe_parseRecords data cur .start) fun h => by rw [hvalue] at h; cases h.2

/-- **The empty version.** `parse_test` returns, with a result or an error, on every input but
    those that start with a version record of length zero: there it reads the first byte of
    the value, to name it in its error, and panics. -/
theorem parseTest_safe_iff (data : Bytes) :
    ((∃ r, parseTest data = .ok r) ∨ ∃ e, parseTest data = .error (.error e)) ↔
      ¬ [Tag.version.code, 0] <+: data := by
  rw [parseTest_eq]
  show Safe (TestFramework.parseTest data) ↔ _
  match data with
  | [] => exact iff_of_true (safe_error _) fun h => nomatch h.length_le
  | [x] => exact iff_of_true (safe_error _) fun h => nomatch h.length_le
  | x :: y :: rest =>
    have hheader := nextTlv_header x y rest
    rw [List.cons_prefix_cons, List.cons_prefix_cons]
    split_ifs at hheader with htruncated
    · rw [TestFramework.parseTest, hheader]
      refine iff_of_true (safe_error _) ?_
      rintro ⟨-, rfl, -⟩
      exact absurd htruncated (Nat.not_lt_zero _)
    · -- The value is empty exactly when its length is zero, as it was not truncated.
      have hempty : rest.take y.toNat = [] ↔ 0 = y := by
        rw [← List.length_eq_zero_iff, List.length_take, Nat.min_eq_left (Nat.not_lt.mp htruncated),
          eq_comm (a := (0 : Byte))]
        exact (BitVec.toNat_inj (y := (0 : Byte))).trans Iff.rfl
      rw [safe_version_iff hheader, hempty, eq_comm (a := x)]
      simp only [List.nil_prefix, and_true]

/-- A version tag and a zero length are enough. -/
theorem parseTest_empty_version :
    ¬ ((∃ r, parseTest [0x01, 0x00] = .ok r) ∨
      ∃ e, parseTest [0x01, 0x00] = .error (.error e)) := by
  have hpanic : parseTest [0x01, 0x00] = .error (.panicked .indexOutOfBounds) := rfl
  rw [hpanic]
  exact not_safe_panicked _

end Sarena.TestFramework.Indexed
