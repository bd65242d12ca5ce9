import Sarena.Lib.Bytes

namespace Sarena.Lib

/-!
# Library — UTF-8 text in byte buffers

The encoding of a character is the one of the core library.  Decoding is lossy: where the
bytes do not start with a character, as many of them as may start one, or else a single byte,
are replaced.

* `utf8` — the bytes of a text;
* `fromUtf8Lossy` — the text of any bytes;
* `fromUtf8Lossy_utf8` — the bytes of a text give it back.
-/

namespace Bytes

/-- The UTF-8 bytes of a character. -/
def ofChar (c : Char) : Bytes := (String.utf8EncodeChar c).map UInt8.toBitVec

/-- `str::as_bytes`. -/
def utf8 (text : String) : Bytes := text.toList.flatMap ofChar

/-- The character whose encoding the bytes start with. -/
def decodeChar (b : Bytes) : Option Char :=
  (b.map UInt8.ofBitVec).toByteArray.utf8DecodeChar? 0

/-- A continuation byte. -/
def isContinuation (x : Byte) : Bool := 0x80 ≤ x.toNat && x.toNat ≤ 0xBF

/-- A second byte that may follow the first byte of an encoding of three or four bytes. -/
def isSecond (first second : Byte) : Bool :=
  match first.toNat with
  | 0xE0 => 0xA0 ≤ second.toNat && second.toNat ≤ 0xBF
  | 0xED => 0x80 ≤ second.toNat && second.toNat ≤ 0x9F
  | 0xF0 => 0x90 ≤ second.toNat && second.toNat ≤ 0xBF
  | 0xF4 => 0x80 ≤ second.toNat && second.toNat ≤ 0x8F
  | n => 0xE1 ≤ n && n ≤ 0xF3 && isContinuation second

/-- How many bytes are replaced where no character is encoded: as many as may start one. -/
def invalidLength : Bytes → Nat
  | first :: second :: rest =>
    if isSecond first second then
      match rest with
      | third :: _ => if 0xF0 ≤ first.toNat && isContinuation third then 3 else 2
      | [] => 2
    else 1
  | _ => 1

theorem invalidLength_pos (b : Bytes) : 0 < b.invalidLength := by
  unfold invalidLength
  split
  · split
    · split
      · split
        · omega
        · omega
      · omega
    · omega
  · omega

/-- The characters that `String::from_utf8_lossy` makes of the bytes. -/
def lossyChars (b : Bytes) : List Char :=
  match b with
  | [] => []
  | x :: rest =>
    match decodeChar (x :: rest) with
    | some c => c :: lossyChars ((x :: rest).drop c.utf8Size)
    | none => '\uFFFD' :: lossyChars ((x :: rest).drop (invalidLength (x :: rest)))
termination_by b.length
decreasing_by
  · have := c.utf8Size_pos
    simp only [List.length_drop, List.length_cons]
    omega
  · have := invalidLength_pos (x :: rest)
    simp only [List.length_drop, List.length_cons]
    omega

/-- `String::from_utf8_lossy`. -/
def fromUtf8Lossy (b : Bytes) : String := String.ofList b.lossyChars

/-! ### Round trip -/

theorem length_ofChar (c : Char) : (ofChar c).length = c.utf8Size := by
  rw [ofChar, List.length_map, String.length_utf8EncodeChar]

theorem decodeChar_ofChar (c : Char) (rest : Bytes) : decodeChar (ofChar c ++ rest) = some c := by
  have hbytes : (ofChar c ++ rest).map UInt8.ofBitVec =
      String.utf8EncodeChar c ++ rest.map UInt8.ofBitVec := by
    rw [List.map_append, ofChar, List.map_map]
    congr 1
    exact List.map_id _
  rw [decodeChar, hbytes, List.toByteArray_append]
  exact ByteArray.utf8DecodeChar?_utf8EncodeChar_append

theorem lossyChars_ofChar (c : Char) (rest : Bytes) :
    lossyChars (ofChar c ++ rest) = c :: lossyChars rest := by
  have hpos := c.utf8Size_pos
  have hlength := length_ofChar c
  have hdrop : (ofChar c ++ rest).drop c.utf8Size = rest := by
    rw [← hlength, List.drop_left]
  have hdecode := decodeChar_ofChar c rest
  cases hb : ofChar c ++ rest with
  | nil =>
    have hempty := congrArg List.length hb
    rw [List.length_append, hlength, List.length_nil] at hempty
    omega
  | cons x tail =>
    rw [hb] at hdecode hdrop
    rw [lossyChars, hdecode]
    dsimp only
    rw [hdrop]

/-- **Round trip.** -/
theorem fromUtf8Lossy_utf8 (text : String) : fromUtf8Lossy (utf8 text) = text := by
  have hchars : ∀ chars : List Char, lossyChars (chars.flatMap ofChar) = chars := by
    intro chars
    induction chars with
    | nil =>
      rw [List.flatMap_nil, lossyChars]
    | cons c rest ih => rw [List.flatMap_cons, lossyChars_ofChar, ih]
  rw [fromUtf8Lossy, utf8, hchars, String.ofList_toList]

end Bytes

end Sarena.Lib
