import Sarena.TestFramework.Reader

namespace Sarena.TestFramework

open Lib

/-!
# Test framework — the suite and the way of its result

A `TestSuite` writes the name and the file of the test, then its logs.  One log is several
records; when one of them does not fit, the log is cut there and the suite's status becomes
`FrameworkError`.  At the end of the test its status is written.  The runner reads the buffer
back, cuts its trailing zeros and parses the rest.

* `TestSuite`, `SuiteCall` — the suite and what a test calls on it;
* `completed` — the logs of a sequence of calls that were written completely;
* `writeLogInner_carries` — what a log leaves in the buffer is read as one entry, or none;
* `parse_written` — the result that was written is the result that is parsed.
-/

/-! ### The suite -/

/-- The loop of `write_log_inner` over the arguments; the flag tells whether all were
    written. -/
def writeArgs (w : TlvWriter) : List UInt64 → TlvWriter × Bool
  | [] => (w, true)
  | a :: args =>
    match w.writeU64 .logArg a with
    | none => (w, false)
    | some w => writeArgs w args

/-- `TestSuite::write_log_inner`: the writer it leaves, and whether all was written. -/
def writeLogInner (w : TlvWriter) (line : UInt32) (fmt : Bytes) (args : List UInt64) :
    TlvWriter × Bool :=
  match w.writeBytes .logFmt fmt with
  | none => (w, false)
  | some w =>
    match w.writeU32 .logLine line with
    | none => (w, false)
    | some w => writeArgs w args

/-- `TestSuite`. -/
structure TestSuite where
  writer : TlvWriter
  status : TestStatus

namespace TestSuite

/-- `TestSuite::new`, with the buffer of the result map. -/
def new (buf : Bytes) (h : buf.length = testResultMapSize) (name file : String) :
    Option TestSuite := do
  let writer ← TlvWriter.new buf h
  let writer ← writer.writeBytes .testName (Bytes.utf8 name)
  let writer ← writer.writeBytes .testFile (Bytes.utf8 file)
  return { writer := writer, status := .pass }

/-- `TestSuite::set_status`. -/
def setStatus (t : TestSuite) (status : TestStatus) : TestSuite := { t with status := status }

/-- `TestSuite::log`. -/
def log (t : TestSuite) (line : UInt32) (fmt : Bytes) (args : List UInt64) : TestSuite :=
  let (writer, written) := writeLogInner t.writer line fmt args
  { writer := writer, status := if written then t.status else .frameworkError }

/-- `TestSuite::log0`. -/
def log0 (t : TestSuite) (line : UInt32) (fmt : Bytes) : TestSuite := t.log line fmt []

/-- `TestSuite::log1`. -/
def log1 (t : TestSuite) (line : UInt32) (fmt : Bytes) (a0 : UInt64) : TestSuite :=
  t.log line fmt [a0]

/-- `TestSuite::log2`. -/
def log2 (t : TestSuite) (line : UInt32) (fmt : Bytes) (a0 a1 : UInt64) : TestSuite :=
  t.log line fmt [a0, a1]

/-- `TestSuite::log3`. -/
def log3 (t : TestSuite) (line : UInt32) (fmt : Bytes) (a0 a1 a2 : UInt64) : TestSuite :=
  t.log line fmt [a0, a1, a2]

/-- `TestSuite::fail`. -/
def fail (t : TestSuite) : TestSuite := t.setStatus .fail

/-- `TestSuite::skip`. -/
def skip (t : TestSuite) : TestSuite := t.setStatus .skip

end TestSuite

/-- What a test calls on its suite.  The format of a log is a text. -/
inductive SuiteCall
  | log0 (line : UInt32) (text : String)
  | log1 (line : UInt32) (text : String) (a0 : UInt64)
  | log2 (line : UInt32) (text : String) (a0 a1 : UInt64)
  | log3 (line : UInt32) (text : String) (a0 a1 a2 : UInt64)
  | log (line : UInt32) (text : String) (args : List UInt64)
  | setStatus (status : TestStatus)
  | fail
  | skip

/-- The suite after a call. -/
def TestSuite.call (t : TestSuite) : SuiteCall → TestSuite
  | .log0 line text => t.log0 line (Bytes.utf8 text)
  | .log1 line text a0 => t.log1 line (Bytes.utf8 text) a0
  | .log2 line text a0 a1 => t.log2 line (Bytes.utf8 text) a0 a1
  | .log3 line text a0 a1 a2 => t.log3 line (Bytes.utf8 text) a0 a1 a2
  | .log line text args => t.log line (Bytes.utf8 text) args
  | .setStatus status => t.setStatus status
  | .fail => t.fail
  | .skip => t.skip

/-- The suite after a sequence of calls. -/
def TestSuite.run (t : TestSuite) (calls : List SuiteCall) : TestSuite :=
  calls.foldl TestSuite.call t

/-- The log that a call is to write. -/
def SuiteCall.entry : SuiteCall → Option LogEntry
  | .log0 line text => some ⟨text, line, []⟩
  | .log1 line text a0 => some ⟨text, line, [a0]⟩
  | .log2 line text a0 a1 => some ⟨text, line, [a0, a1]⟩
  | .log3 line text a0 a1 a2 => some ⟨text, line, [a0, a1, a2]⟩
  | .log line text args => some ⟨text, line, args⟩
  | .setStatus _ => none
  | .fail => none
  | .skip => none

/-- The log of a call that is written completely, from this suite. -/
def TestSuite.completedLog (t : TestSuite) (call : SuiteCall) : Option LogEntry :=
  call.entry.filter fun entry =>
    (writeLogInner t.writer entry.line (Bytes.utf8 entry.fmt) entry.args).2

/-- The logs of a sequence of calls that are written completely, from this suite. -/
def TestSuite.completed (t : TestSuite) : List SuiteCall → List LogEntry
  | [] => []
  | call :: calls => (t.completedLog call).toList ++ (t.call call).completed calls

/-- The last record of a test: its status. -/
def TestSuite.writeStatus (t : TestSuite) : Option TlvWriter :=
  t.writer.writeU8 .testStatus t.status.code

/-! ### The runner -/

/-- `Iterator::rposition`: the last index whose element meets `p`. -/
def rposition {α : Type} (p : α → Bool) : List α → Option Nat
  | [] => none
  | a :: rest =>
    match rposition p rest with
    | some i => some (i + 1)
    | none => if p a then some 0 else none

/-- What `sub_test` keeps of the result map: all up to the last byte that is not zero. -/
def trimmed (raw : Bytes) : Bytes :=
  raw.take (((rposition (fun b => b ≠ 0) raw).map (· + 1)).getD 0)

/-! ### What one record is read as -/

section

variable {r : TestResult} {logs : List LogEntry} {entry : LogEntry}

theorem reads_testName (text : String) (h : (Bytes.utf8 text).length ≤ 255) :
    ReadsOne r ⟨.testName, Bytes.utf8 text, h⟩ { r with name := text } := by
  intro offset
  rw [applyRecord, Tag.fromU8_code, Bytes.fromUtf8Lossy_utf8]

theorem reads_testFile (text : String) (h : (Bytes.utf8 text).length ≤ 255) :
    ReadsOne r ⟨.testFile, Bytes.utf8 text, h⟩ { r with file := text } := by
  intro offset
  rw [applyRecord, Tag.fromU8_code, Bytes.fromUtf8Lossy_utf8]

theorem reads_testStatus (status : TestStatus) (h : [status.code].length ≤ 255) :
    ReadsOne r ⟨.testStatus, [status.code], h⟩ { r with status := status } := by
  intro offset
  rw [applyRecord, Tag.fromU8_code]
  show Except.ok { r with status := TestStatus.fromU8 status.code } = _
  rw [TestStatus.fromU8_code]

theorem reads_logFmt (text : String) (h : (Bytes.utf8 text).length ≤ 255) :
    ReadsOne r ⟨.logFmt, Bytes.utf8 text, h⟩ { r with logs := r.logs ++ [{ fmt := text }] } := by
  intro offset
  rw [applyRecord, Tag.fromU8_code, Bytes.fromUtf8Lossy_utf8]

theorem changeLast_append (offset : Nat) (f : LogEntry → LogEntry) :
    changeLast (logs ++ [entry]) offset f = .ok (logs ++ [f entry]) := by
  unfold changeLast
  rw [List.getLast?_concat]
  dsimp only
  rw [List.dropLast_concat]

theorem reads_logLine (line : UInt32) (h : (toLeBytes 4 line.toNat).length ≤ 255) :
    ReadsOne { r with logs := logs ++ [entry] } ⟨.logLine, toLeBytes 4 line.toNat, h⟩
      { r with logs := logs ++ [{ entry with line := line }] } := by
  intro offset
  have hline : UInt32.ofNat (fromLeBytes (toLeBytes 4 line.toNat)) = line := by
    have hlt : line.toNat < 256 ^ 4 := by
      have := line.toNat_lt
      omega
    rw [fromLeBytes_toLeBytes, Nat.mod_eq_of_lt hlt, UInt32.ofNat_toNat]
  rw [applyRecord, Tag.fromU8_code]
  dsimp only
  rw [expectLength, if_neg (not_not.mpr (length_toLeBytes _ _)), changeLast_append, hline]
  rfl

theorem reads_logArg (a : UInt64) (h : (toLeBytes 8 a.toNat).length ≤ 255) :
    ReadsOne { r with logs := logs ++ [entry] } ⟨.logArg, toLeBytes 8 a.toNat, h⟩
      { r with logs := logs ++ [{ entry with args := entry.args ++ [a] }] } := by
  intro offset
  have ha : UInt64.ofNat (fromLeBytes (toLeBytes 8 a.toNat)) = a := by
    have hlt : a.toNat < 256 ^ 8 := by
      have := a.toNat_lt
      omega
    rw [fromLeBytes_toLeBytes, Nat.mod_eq_of_lt hlt, UInt64.ofNat_toNat]
  rw [applyRecord, Tag.fromU8_code]
  dsimp only
  rw [expectLength, if_neg (not_not.mpr (length_toLeBytes _ _)), changeLast_append, ha]
  rfl

end

/-! ### What the buffer carries -/

/-- The record that every result begins with. -/
def versionRecord : Record := ⟨.version, [wireVersion], by decide⟩

/-- What is in the buffer is read as this result. -/
def TlvWriter.Carries (w : TlvWriter) (r : TestResult) : Prop :=
  ∃ rs, w.Holds (versionRecord :: rs) ∧ Reads .start rs r

variable {w w' : TlvWriter} {r r' : TestResult} {t : TestSuite}

/-- **Step.** One more record. -/
theorem TlvWriter.Carries.write (h : w.Carries r) {tag : Tag} {value : Bytes}
    (hshort : value.length ≤ 255) (hwrite : w.writeRecord tag value = some w')
    (hreads : ReadsOne r ⟨tag, value, hshort⟩ r') : w'.Carries r' := by
  obtain ⟨rs, hholds, hrs⟩ := h
  have hnext : w'.Holds (versionRecord :: (rs ++ [⟨tag, value, hshort⟩])) :=
    holds_writeRecord hholds hshort hwrite
  exact ⟨_, hnext, hrs.append (.one hreads)⟩

/-- What `write_bytes` writes is short enough. -/
theorem writeBytes_eq_some {tag : Tag} {data : Bytes} (h : w.writeBytes tag data = some w') :
    data.length ≤ 255 ∧ w.writeRecord tag data = some w' := by
  unfold TlvWriter.writeBytes at h
  split at h
  next => cases h
  next hshort => exact ⟨Nat.le_of_not_lt hshort, h⟩

/-- The arguments of a log go to its entry, up to the first that does not fit. -/
theorem writeArgs_carries (args : List UInt64) {logs : List LogEntry} {entry : LogEntry}
    (h : w.Carries { r with logs := logs ++ [entry] }) :
    ∃ entry', (writeArgs w args).1.Carries { r with logs := logs ++ [entry'] } ∧
      ((writeArgs w args).2 = true → entry' = { entry with args := entry.args ++ args }) := by
  induction args generalizing w entry with
  | nil =>
    refine ⟨entry, h, fun _ => ?_⟩
    rw [List.append_nil]
  | cons a args ih =>
    unfold writeArgs
    cases hwrite : w.writeU64 .logArg a with
    | none => exact ⟨entry, h, nofun⟩
    | some w' =>
      dsimp only
      have hshort : (toLeBytes 8 a.toNat).length ≤ 255 := by
        rw [length_toLeBytes]
        omega
      obtain ⟨entry', hcarries, hall⟩ := ih (h.write hshort hwrite (reads_logArg a hshort))
      refine ⟨entry', hcarries, fun hwritten => ?_⟩
      rw [hall hwritten, List.append_assoc]
      rfl

/-- **A log** leaves one entry or none; a log that is written completely leaves its own. -/
theorem writeLogInner_carries (h : w.Carries r) (line : UInt32) (text : String)
    (args : List UInt64) :
    ∃ extra, (writeLogInner w line (Bytes.utf8 text) args).1.Carries
        { r with logs := r.logs ++ extra } ∧
      ((writeLogInner w line (Bytes.utf8 text) args).2 = true → extra = [⟨text, line, args⟩]) := by
  unfold writeLogInner
  cases hfmt : w.writeBytes .logFmt (Bytes.utf8 text) with
  | none =>
    -- Where the format does not fit, nothing of the log is written.
    refine ⟨[], ?_, nofun⟩
    rw [List.append_nil]
    exact h
  | some w₁ =>
    dsimp only
    obtain ⟨hshort, hwrite⟩ := writeBytes_eq_some hfmt
    have hcarries := h.write hshort hwrite (reads_logFmt text hshort)
    -- A log that is cut off is read as one without its line or its last arguments.
    cases hline : w₁.writeU32 .logLine line with
    | none => exact ⟨[{ fmt := text }], hcarries, nofun⟩
    | some w₂ =>
      dsimp only
      have hlength : (toLeBytes 4 line.toNat).length ≤ 255 := by
        rw [length_toLeBytes]
        omega
      obtain ⟨entry, hargs, hall⟩ :=
        writeArgs_carries args (hcarries.write hlength hline (reads_logLine line hlength))
      refine ⟨[entry], hargs, fun hwritten => ?_⟩
      rw [hall hwritten]
      rfl

/-- The same of `TestSuite::log`. -/
theorem log_carries (h : t.writer.Carries r) (line : UInt32) (text : String)
    (args : List UInt64) :
    ∃ extra, (t.log line (Bytes.utf8 text) args).writer.Carries
        { r with logs := r.logs ++ extra } ∧
      ((some (⟨text, line, args⟩ : LogEntry)).filter fun entry =>
        (writeLogInner t.writer entry.line (Bytes.utf8 entry.fmt) entry.args).2).toList.Sublist
          extra := by
  obtain ⟨extra, hcarries, hall⟩ := writeLogInner_carries h line text args
  refine ⟨extra, hcarries, ?_⟩
  rw [Option.filter_some]
  split
  next hwritten =>
    rw [hall hwritten]
    exact List.Sublist.refl _
  next => exact List.nil_sublist _

/-- **Step.** A call adds its log, complete or not, if it writes one. -/
theorem call_carries (h : t.writer.Carries r) (call : SuiteCall) :
    ∃ extra, (t.call call).writer.Carries { r with logs := r.logs ++ extra } ∧
      (t.completedLog call).toList.Sublist extra := by
  have hnone : t.writer.Carries { r with logs := r.logs ++ [] } := by
    rw [List.append_nil]
    exact h
  cases call with
  | log0 line text => exact log_carries h line text []
  | log1 line text a0 => exact log_carries h line text [a0]
  | log2 line text a0 a1 => exact log_carries h line text [a0, a1]
  | log3 line text a0 a1 a2 => exact log_carries h line text [a0, a1, a2]
  | log line text args => exact log_carries h line text args
  | setStatus status => exact ⟨[], hnone, List.nil_sublist _⟩
  | fail => exact ⟨[], hnone, List.nil_sublist _⟩
  | skip => exact ⟨[], hnone, List.nil_sublist _⟩

/-- **A run of calls** adds its logs in order. -/
theorem run_carries (h : t.writer.Carries r) (calls : List SuiteCall) :
    ∃ extra, (t.run calls).writer.Carries { r with logs := r.logs ++ extra } ∧
      (t.completed calls).Sublist extra := by
  induction calls generalizing t r with
  | nil =>
    refine ⟨[], ?_, List.nil_sublist _⟩
    rw [List.append_nil]
    exact h
  | cons call calls ih =>
    obtain ⟨extra, hcall, hcompleted⟩ := call_carries h call
    obtain ⟨extra', hrun, hrest⟩ := ih hcall
    refine ⟨extra ++ extra', ?_, hcompleted.append hrest⟩
    rw [← List.append_assoc]
    exact hrun

/-! ### The way back -/

theorem rposition_eq_none {α : Type} {p : α → Bool} {l : List α} (h : ∀ a ∈ l, p a = false) :
    rposition p l = none := by
  induction l with
  | nil => rfl
  | cons a rest ih =>
    rw [rposition, ih fun b hb => h b (List.mem_cons_of_mem a hb)]
    dsimp only
    rw [h a List.mem_cons_self]
    rfl

/-- The last element that meets `p`. -/
theorem rposition_append {α : Type} {p : α → Bool} (front : List α) {a : α} {rest : List α}
    (ha : p a = true) (hrest : ∀ b ∈ rest, p b = false) :
    rposition p (front ++ a :: rest) = some front.length := by
  induction front with
  | nil =>
    rw [List.nil_append, rposition, rposition_eq_none hrest]
    dsimp only
    rw [if_pos ha]
    rfl
  | cons b front ih =>
    rw [List.cons_append, rposition, ih]
    rfl

/-- Trimming takes the zeros after a byte that is not zero. -/
theorem trimmed_append (front : Bytes) {b : Byte} (hb : b ≠ 0) (n : Nat) :
    trimmed (front ++ [b] ++ List.replicate n 0) = front ++ [b] := by
  have hlast : rposition (fun b : Byte => decide (b ≠ 0)) (front ++ b :: List.replicate n 0) =
      some front.length := by
    apply rposition_append
    · exact decide_eq_true hb
    · intro c hc
      rw [List.eq_of_mem_replicate hc]
      rfl
  have hsplit : front ++ [b] ++ List.replicate n 0 = front ++ b :: List.replicate n (0 : Byte) :=
    List.append_assoc _ _ _
  have hlength : front.length + 1 = (front ++ [b]).length := by
    rw [List.length_append]
    rfl
  unfold trimmed
  rw [hsplit, hlast]
  show (front ++ b :: List.replicate n 0).take (front.length + 1) = _
  rw [← hsplit, hlength, List.take_left]

/-- A test can begin when the names of the test and of its file fit the length byte. -/
theorem exists_new {name file : String} (hname : (Bytes.utf8 name).length ≤ 255)
    (hfile : (Bytes.utf8 file).length ≤ 255) :
    ∃ t, TestSuite.new zeroedBuffer length_zeroedBuffer name file = some t ∧
      t.writer.Carries { TestResult.start with name := name, file := file } := by
  obtain ⟨w₀, hversion, hpos₀⟩ := TlvWriter.exists_new zeroedBuffer length_zeroedBuffer
  obtain ⟨w₁, hwrite₁⟩ : ∃ w, w₀.writeRecord .testName (Bytes.utf8 name) = some w := by
    apply TlvWriter.exists_writeRecord
    show _ ≤ 8192
    omega
  have hpos₁ := TlvWriter.pos_writeRecord hwrite₁
  obtain ⟨w₂, hwrite₂⟩ : ∃ w, w₁.writeRecord .testFile (Bytes.utf8 file) = some w := by
    apply TlvWriter.exists_writeRecord
    show _ ≤ 8192
    omega
  have hbytes₁ : w₀.writeBytes .testName (Bytes.utf8 name) = some w₁ := by
    rw [TlvWriter.writeBytes, if_neg (by omega), hwrite₁]
  have hbytes₂ : w₁.writeBytes .testFile (Bytes.utf8 file) = some w₂ := by
    rw [TlvWriter.writeBytes, if_neg (by omega), hwrite₂]
  refine ⟨⟨w₂, .pass⟩, ?_, ?_⟩
  · rw [TestSuite.new, hversion]
    show ((w₀.writeBytes _ _).bind fun w => (w.writeBytes _ _).bind fun w => some _) = _
    rw [hbytes₁, Option.bind_some, hbytes₂, Option.bind_some]
  · have hstart : w₀.Carries .start := ⟨[], TlvWriter.holds_new hversion, .nil _⟩
    have hnamed := hstart.write hname hwrite₁ (reads_testName name hname)
    exact hnamed.write hfile hwrite₂ (reads_testFile file hfile)

/-- The status comes last, and it is not zero: trimming leaves what was written. -/
theorem parseTest_writeStatus (h : t.writer.Carries r) (hwrite : t.writeStatus = some w) :
    parseTest (trimmed w.buf) = .ok { r with status := t.status } := by
  have hshort : [t.status.code].length ≤ 255 := Nat.le_of_ble_eq_true rfl
  obtain ⟨rs, hholds, hreads⟩ := h
  have hstatus := hreads.append (.one (reads_testStatus t.status hshort))
  have hafter : w.Holds (versionRecord :: rs ++ [⟨.testStatus, [t.status.code], hshort⟩]) :=
    TlvWriter.holds_writeRecord hholds hshort hwrite
  have hlast : encode [⟨.testStatus, [t.status.code], hshort⟩] =
      [Tag.testStatus.code, 1] ++ [t.status.code] := rfl
  have hencode : encode (versionRecord :: rs ++ [⟨.testStatus, [t.status.code], hshort⟩]) =
      encode (versionRecord :: rs) ++ [Tag.testStatus.code, 1] ++ [t.status.code] := by
    rw [encode_append, hlast, List.append_assoc]
  rw [hafter.2, hencode, trimmed_append _ t.status.code_ne_zero, ← hencode]
  exact parseTest_encode hstatus

/-- **Round trip.** For names that fit the length byte, whatever the test logs and sets: when
    its status is written at the end, the trimmed buffer is parsed to the same name, file and
    status, and to logs among which are, in order, those that were written completely. -/
theorem parse_written (name file : String) (hname : (Bytes.utf8 name).length ≤ 255)
    (hfile : (Bytes.utf8 file).length ≤ 255) :
    ∃ t, TestSuite.new zeroedBuffer length_zeroedBuffer name file = some t ∧
      ∀ (calls : List SuiteCall) (w : TlvWriter), (t.run calls).writeStatus = some w →
        ∃ result, parseTest (trimmed w.buf) = .ok result ∧ result.name = name ∧
          result.file = file ∧ result.status = (t.run calls).status ∧
          (t.completed calls).Sublist result.logs := by
  obtain ⟨t, hnew, hcarries⟩ := exists_new hname hfile
  refine ⟨t, hnew, fun calls w hwrite => ?_⟩
  obtain ⟨extra, hrun, hcompleted⟩ := run_carries hcarries calls
  exact ⟨_, parseTest_writeStatus hrun hwrite, rfl, rfl, rfl, hcompleted⟩

/-- A log that fits, and a failure. -/
def failedCalls : List SuiteCall := [.log1 7 "seen %d" 3, .fail]

/-- A test that logs a value and fails. -/
theorem failed_test_parsed : ∃ t w result,
    TestSuite.new zeroedBuffer length_zeroedBuffer "arp" "arp.rs" = some t ∧
      (t.run failedCalls).writeStatus = some w ∧ parseTest (trimmed w.buf) = .ok result ∧
      result.name = "arp" ∧ result.file = "arp.rs" ∧ result.status = .fail ∧
      List.Sublist [⟨"seen %d", 7, [3]⟩] result.logs := by
  obtain ⟨t, hnew, hall⟩ := parse_written "arp" "arp.rs" (by decide +kernel) (by decide +kernel)
  have hpos : (TestSuite.new zeroedBuffer length_zeroedBuffer "arp" "arp.rs").map
      (fun t => (t.run failedCalls).writer.pos) = some 41 := by decide +kernel
  have hlogs : (TestSuite.new zeroedBuffer length_zeroedBuffer "arp" "arp.rs").map
      (fun t => t.completed failedCalls) = some [⟨"seen %d", 7, [3]⟩] := by decide +kernel
  rw [hnew] at hpos hlogs
  obtain ⟨w, hwrite⟩ : ∃ w, (t.run failedCalls).writeStatus = some w := by
    have hroom : (t.run failedCalls).writer.pos = 41 := Option.some.inj hpos
    apply TlvWriter.exists_writeRecord
    rw [hroom]
    show 41 + (2 + 1) ≤ 8192
    omega
  obtain ⟨result, hparse, hname, hfile, hstatus, hsublist⟩ := hall failedCalls w hwrite
  have hcompleted : t.completed failedCalls = [⟨"seen %d", 7, [3]⟩] := Option.some.inj hlogs
  rw [hcompleted] at hsublist
  exact ⟨t, w, result, hnew, hwrite, hparse, hname, hfile, hstatus, hsublist⟩

end Sarena.TestFramework
