import Mathlib.Data.List.Forall2
import Sarena.Infra.Address

namespace Sarena

/-!
# Addresses — the two parsers of MAC addresses

A MAC address is read by `MacAddress::parse`, from the texts of a request, and by its
`Deserialize`.  Both split the text at its colons and read the segments with
`u8::from_str_radix`, which takes a plus sign and leading zeros.  `parse` drops a segment that
it cannot read, and `Deserialize` asks for segments of two bytes.

* `MacAddress.deserialize` — the second parser, with the texts of its errors;
* `MacAddress.Spells` — what a text has to be: six octets of two hexadecimal digits;
* `OctetNumeral` — the segments that `u8::from_str_radix` reads;
* `spells_text` — the text that is written for an address spells it;
* `macParsers_agree_iff` — the texts for which the parsers agree and accept what is spelled;
  `lenientMac_parses` — texts of which one is an address for one parser or both.
-/

/-! ### The parsers and the text -/

/-- `str::len`: the number of bytes. -/
def byteLength (part : List Char) : Nat := (part.map Char.utf8Size).sum

/-- The segment of an address in `Deserialize`. -/
def deserializeSegment (part : List Char) : Except String UInt8 :=
  if byteLength part ≠ 2 then .error "each MAC address segment must contain 2 hex digits"
  else
    match u8FromHex part with
    | some b => .ok b
    | none => .error "invalid hexadecimal byte"

/-- `Deserialize` of a MAC address, from a string: the first segment that is no byte is an
    error. -/
def MacAddress.deserialize (s : String) : Except String MacAddress := do
  let bytes ← (s.toList.splitOn ':').mapM deserializeSegment
  if h : bytes.length = 6 then .ok ⟨⟨bytes.toArray, by simpa using h⟩⟩
  else .error ("expected 6 MAC address bytes, got " ++ toString bytes.length)

/-- Two hexadecimal digits. -/
def hexByte (b : UInt8) : String :=
  String.ofList [Nat.digitChar (b.toNat / 16), Nat.digitChar (b.toNat % 16)]

/-- `Display` of a MAC address. -/
def MacAddress.text (mac : MacAddress) : String := ":".intercalate (mac.octets.toList.map hexByte)

/-! ### The grammar -/

/-- Two hexadecimal digits spell an octet. -/
def SpellsOctet (part : List Char) (b : UInt8) : Prop :=
  ∃ hi lo h l, part = [hi, lo] ∧ hexDigit hi = some h ∧ hexDigit lo = some l ∧
    b = UInt8.ofNat (h * 16 + l)

/-- Six octets of two hexadecimal digits, with colons between them, spell the address. -/
def MacAddress.Spells (s : String) (m : MacAddress) : Prop :=
  ∃ parts, s.toList = [':'].intercalate parts ∧ List.Forall₂ SpellsOctet parts m.octets.toList

/-- What a segment is without a plus sign. -/
def unsigned : List Char → List Char
  | '+' :: digits => digits
  | digits => digits

/-- A segment that `u8::from_str_radix` reads: an optional plus sign and hexadecimal digits, at
    least one, and at most two after the leading zeros. -/
def OctetNumeral (part : List Char) : Prop :=
  unsigned part ≠ [] ∧ (∀ c ∈ unsigned part, (hexDigit c).isSome) ∧
    ((unsigned part).dropWhile (· = '0')).length ≤ 2

instance (part : List Char) : Decidable (OctetNumeral part) := inferInstanceAs (Decidable (_ ∧ _))

/-! ### Numerals -/

/-- A digit is a decimal digit or one of the first six letters, in either case. -/
theorem hexDigit_cases {c : Char} {d : Nat} (h : hexDigit c = some d) :
    (48 ≤ c.toNat ∧ c.toNat ≤ 57 ∧ d = c.toNat - 48) ∨
      (97 ≤ c.toNat ∧ c.toNat ≤ 102 ∧ d = c.toNat - 97 + 10) ∨
      (65 ≤ c.toNat ∧ c.toNat ≤ 70 ∧ d = c.toNat - 65 + 10) := by
  unfold hexDigit at h
  split at h
  next hc =>
    exact .inl ⟨Char.le_def.mp hc.1, Char.le_def.mp hc.2, (Option.some.inj h).symm⟩
  next =>
    split at h
    next hc =>
      exact .inr (.inl ⟨Char.le_def.mp hc.1, Char.le_def.mp hc.2, (Option.some.inj h).symm⟩)
    next =>
      split at h
      next hc =>
        exact .inr (.inr ⟨Char.le_def.mp hc.1, Char.le_def.mp hc.2, (Option.some.inj h).symm⟩)
      next => cases h

theorem hexDigit_lt {c : Char} {d : Nat} (h : hexDigit c = some d) : d < 16 := by
  have hcases := hexDigit_cases h
  omega

/-- Only one digit is zero. -/
theorem hexDigit_eq_zero {c : Char} (h : hexDigit c = some 0) : c = '0' := by
  have hcases := hexDigit_cases h
  have heq : c.toNat = '0'.toNat := by
    show c.toNat = 48
    omega
  exact Char.toNat_inj.mp heq

/-- A round of the loop over the digits. -/
def pushHexDigit (acc : Nat) (c : Char) : Option Nat := do
  let d ← hexDigit c
  if acc * 16 + d < 256 then some (acc * 16 + d) else none

theorem u8OfHexDigits_eq (digits : List Char) :
    u8OfHexDigits digits = digits.foldlM pushHexDigit 0 := rfl

theorem pushHexDigit_eq_some {acc n : Nat} {c : Char} :
    pushHexDigit acc c = some n ↔ ∃ d, hexDigit c = some d ∧ acc * 16 + d < 256 ∧
      acc * 16 + d = n := by
  rw [pushHexDigit]
  constructor
  · intro h
    obtain ⟨d, hd, hn⟩ := Option.bind_eq_some_iff.mp h
    split at hn
    next hlt => exact ⟨d, hd, hlt, Option.some.inj hn⟩
    next => cases hn
  · rintro ⟨d, hd, hlt, rfl⟩
    rw [hd]
    exact if_pos hlt

/-- A value below 16 leaves room for one more digit. -/
theorem pushHexDigit_of_lt {acc : Nat} (hacc : acc < 16) (c : Char) :
    pushHexDigit acc c = (hexDigit c).map (acc * 16 + ·) := by
  cases hd : hexDigit c with
  | none =>
    rw [pushHexDigit, hd]
    rfl
  | some d =>
    have hlt := hexDigit_lt hd
    exact pushHexDigit_eq_some.mpr ⟨d, hd, by omega, rfl⟩

/-- A value from 16 on leaves no room. -/
theorem pushHexDigit_of_le {acc : Nat} (hacc : 16 ≤ acc) (c : Char) :
    pushHexDigit acc c = none := by
  rw [Option.eq_none_iff_forall_ne_some]
  intro n hn
  obtain ⟨d, -, hfits, -⟩ := pushHexDigit_eq_some.mp hn
  omega

/-- No digit follows once the value is at least 16. -/
theorem isSome_foldlM_push_of_le {acc : Nat} (hacc : 16 ≤ acc) (digits : List Char) :
    (digits.foldlM pushHexDigit acc).isSome ↔ digits = [] := by
  cases digits with
  | nil => exact iff_of_true rfl rfl
  | cons c rest =>
    rw [List.foldlM_cons, pushHexDigit_of_le hacc]
    exact iff_of_false Bool.false_ne_true (List.cons_ne_nil c rest)

/-- One more digit may follow a first one that is not zero. -/
theorem isSome_foldlM_push_of_lt {acc : Nat} (hpos : 0 < acc) (hacc : acc < 16)
    (digits : List Char) : (digits.foldlM pushHexDigit acc).isSome ↔
      (∀ x ∈ digits, (hexDigit x).isSome) ∧ digits.length ≤ 1 := by
  cases digits with
  | nil => exact iff_of_true rfl ⟨nofun, Nat.zero_le 1⟩
  | cons c rest =>
    rw [List.foldlM_cons, pushHexDigit_of_lt hacc, List.forall_mem_cons]
    cases hexDigit c with
    | none => exact iff_of_false Bool.false_ne_true fun h => Bool.false_ne_true h.1.1
    | some d =>
      have hfull : 16 ≤ acc * 16 + d := by omega
      refine (isSome_foldlM_push_of_le hfull rest).trans ?_
      rw [List.length_cons]
      constructor
      · rintro rfl
        exact ⟨⟨rfl, nofun⟩, Nat.le_refl 1⟩
      · rintro ⟨-, hlen⟩
        exact List.length_eq_zero_iff.mp (by omega)

/-- A first digit that is not zero leaves room for one more. -/
theorem isSome_foldlM_push {c : Char} (hc : c ≠ '0') (rest : List Char) :
    ((c :: rest).foldlM pushHexDigit 0).isSome ↔
      (∀ x ∈ c :: rest, (hexDigit x).isSome) ∧ (c :: rest).length ≤ 2 := by
  rw [List.foldlM_cons, pushHexDigit_of_lt (by decide), List.forall_mem_cons, List.length_cons,
    Nat.succ_le_succ_iff, and_assoc]
  cases hd : hexDigit c with
  | none => exact iff_of_false Bool.false_ne_true fun h => Bool.false_ne_true h.1
  | some d =>
    have hpos : d ≠ 0 := fun h => hc (hexDigit_eq_zero (h ▸ hd))
    have hvalue : 0 * 16 + d = d := by omega
    rw [Option.map_some, hvalue]
    refine (isSome_foldlM_push_of_lt (Nat.pos_of_ne_zero hpos) (hexDigit_lt hd) rest).trans ?_
    exact (and_iff_right rfl).symm

/-- After the leading zeros there is room for two digits: the third would be a multiple of
    256. -/
theorem isSome_u8OfHexDigits (digits : List Char) : (u8OfHexDigits digits).isSome ↔
    (∀ c ∈ digits, (hexDigit c).isSome) ∧ (digits.dropWhile (· = '0')).length ≤ 2 := by
  rw [u8OfHexDigits_eq]
  induction digits with
  | nil => exact iff_of_true rfl ⟨nofun, Nat.zero_le 2⟩
  | cons c rest ih =>
    by_cases hc : c = '0'
    · have hpush : pushHexDigit 0 c = some 0 := by
        rw [hc]
        rfl
      have hdrop : (c :: rest).dropWhile (· = '0') = rest.dropWhile (· = '0') :=
        List.dropWhile_cons_of_pos (decide_eq_true hc)
      have hdigit : (hexDigit c).isSome := by
        rw [hc]
        rfl
      rw [List.foldlM_cons, hpush, hdrop, List.forall_mem_cons, and_iff_right hdigit]
      exact ih
    · have hdrop : (c :: rest).dropWhile (· = '0') = c :: rest :=
        List.dropWhile_cons_of_neg fun h => hc (of_decide_eq_true h)
      rw [hdrop]
      exact isSome_foldlM_push hc rest

theorem u8FromHex_eq (part : List Char) : u8FromHex part =
    if unsigned part = [] then none else (u8OfHexDigits (unsigned part)).map UInt8.ofNat := by
  unfold u8FromHex unsigned
  split
  next => rfl
  next => rfl
  next digits hne => exact (if_neg fun h => hne h).symm
  next hnil _ hplus =>
    split
    next digits heq => exact absurd rfl (hplus digits)
    next => exact (if_neg hnil).symm

/-- **What `u8::from_str_radix` reads** are the numerals of octets. -/
theorem isSome_u8FromHex (part : List Char) : (u8FromHex part).isSome ↔ OctetNumeral part := by
  rw [u8FromHex_eq, OctetNumeral]
  by_cases hnil : unsigned part = []
  · rw [if_pos hnil]
    exact iff_of_false nofun fun h => h.1 hnil
  · rw [if_neg hnil, Option.isSome_map, isSome_u8OfHexDigits]
    exact (and_iff_right hnil).symm

/-! ### Two digits -/

variable {part : List Char} {b : UInt8}

/-- Two hexadecimal digits are read as what they spell. -/
theorem SpellsOctet.reads (h : SpellsOctet part b) : u8FromHex part = some b := by
  obtain ⟨hi, lo, x, y, rfl, hx, hy, rfl⟩ := h
  have hx16 := hexDigit_lt hx
  have hy16 := hexDigit_lt hy
  have hsign : unsigned [hi, lo] = [hi, lo] := by
    unfold unsigned
    split
    next heq =>
      obtain ⟨rfl, -⟩ := List.cons.inj heq
      cases hx
    next => rfl
  have hfirst : pushHexDigit 0 hi = some x :=
    pushHexDigit_eq_some.mpr ⟨x, hx, by omega, by omega⟩
  have hsecond : pushHexDigit x lo = some (x * 16 + y) :=
    pushHexDigit_eq_some.mpr ⟨y, hy, by omega, rfl⟩
  rw [u8FromHex_eq, hsign, if_neg (List.cons_ne_nil _ _), u8OfHexDigits_eq, List.foldlM_cons,
    hfirst, Option.bind_eq_bind, Option.bind_some, List.foldlM_cons, hsecond]
  rfl

/-- A hexadecimal digit is no colon, and takes one byte. -/
theorem hexDigit_ascii {c : Char} {d : Nat} (h : hexDigit c = some d) :
    c ≠ ':' ∧ c.utf8Size = 1 := by
  refine ⟨?_, ?_⟩
  · rintro rfl
    cases h
  · have hcases := hexDigit_cases h
    exact Char.utf8Size_eq_one_iff.mpr (UInt32.le_iff_toNat_le.mpr (by
      show c.toNat ≤ 127
      omega))

theorem SpellsOctet.not_mem_colon (h : SpellsOctet part b) : ':' ∉ part := by
  obtain ⟨hi, lo, x, y, rfl, hx, hy, -⟩ := h
  rw [List.mem_pair]
  rintro (heq | heq)
  · exact (hexDigit_ascii hx).1 heq.symm
  · exact (hexDigit_ascii hy).1 heq.symm

theorem SpellsOctet.byteLength_eq (h : SpellsOctet part b) : byteLength part = 2 := by
  obtain ⟨hi, lo, x, y, rfl, hx, hy, -⟩ := h
  show hi.utf8Size + (lo.utf8Size + 0) = 2
  rw [(hexDigit_ascii hx).2, (hexDigit_ascii hy).2]

/-- Two hexadecimal digits spell some octet. -/
theorem exists_spellsOctet (hlen : part.length = 2) (hdigits : ∀ c ∈ part, (hexDigit c).isSome) :
    ∃ b, SpellsOctet part b := by
  obtain ⟨hi, lo, rfl⟩ := List.length_eq_two.mp hlen
  obtain ⟨x, hx⟩ := Option.isSome_iff_exists.mp (hdigits hi List.mem_cons_self)
  obtain ⟨y, hy⟩ := Option.isSome_iff_exists.mp
    (hdigits lo (List.mem_cons_of_mem hi List.mem_cons_self))
  exact ⟨_, hi, lo, x, y, rfl, hx, hy, rfl⟩

theorem deserializeSegment_eq_ok :
    deserializeSegment part = .ok b ↔ byteLength part = 2 ∧ u8FromHex part = some b := by
  rw [deserializeSegment]
  by_cases hlen : byteLength part = 2
  · rw [if_neg (not_not.mpr hlen), and_iff_right hlen]
    cases u8FromHex part with
    | none => exact ⟨nofun, nofun⟩
    | some b' =>
      show Except.ok b' = Except.ok b ↔ _
      rw [Except.ok.injEq, Option.some.injEq]
  · rw [if_pos hlen]
    exact ⟨nofun, fun h => absurd h.1 hlen⟩

/-! ### Texts -/

section

variable {α β ε : Type}

theorem mapM_eq_ok_iff {f : α → Except ε β} {l : List α} {bs : List β} :
    l.mapM f = .ok bs ↔ List.Forall₂ (fun a b => f a = .ok b) l bs := by
  induction l generalizing bs with
  | nil =>
    rw [List.mapM_nil, List.forall₂_nil_left_iff]
    exact ⟨fun h => (Except.ok.inj h).symm, fun h => congrArg Except.ok h.symm⟩
  | cons a rest ih =>
    rw [List.mapM_cons, List.forall₂_cons_left_iff]
    constructor
    · intro h
      cases ha : f a with
      | error e =>
        rw [ha] at h
        cases h
      | ok b =>
        rw [ha] at h
        cases hrest : rest.mapM f with
        | error e =>
          rw [hrest] at h
          cases h
        | ok bs' =>
          rw [hrest] at h
          exact ⟨b, bs', rfl, ih.mp hrest, (Except.ok.inj h).symm⟩
    · rintro ⟨b, bs', ha, hrest, rfl⟩
      rw [ha, ih.mpr hrest]
      rfl

theorem filterMap_of_forall₂ {f : α → Option β} {l : List α} {bs : List β}
    (h : List.Forall₂ (fun a b => f a = some b) l bs) : l.filterMap f = bs := by
  induction h with
  | nil => rfl
  | cons hab _ ih => rw [List.filterMap_cons_some hab, ih]

theorem exists_forall₂ {R : α → β → Prop} {l : List α} (h : ∀ a ∈ l, ∃ b, R a b) :
    ∃ bs, List.Forall₂ R l bs := by
  induction l with
  | nil => exact ⟨[], .nil⟩
  | cons a rest ih =>
    obtain ⟨b, hb⟩ := h a List.mem_cons_self
    obtain ⟨bs, hbs⟩ := ih fun a ha => h a (List.mem_cons_of_mem _ ha)
    exact ⟨b :: bs, .cons hb hbs⟩

theorem exists_of_mem_left {R : α → β → Prop} {l : List α} {bs : List β}
    (h : List.Forall₂ R l bs) {a : α} (ha : a ∈ l) : ∃ b ∈ bs, R a b := by
  induction h with
  | nil => cases ha
  | cons hab _ ih =>
    rcases List.mem_cons.mp ha with rfl | ha
    · exact ⟨_, List.mem_cons_self, hab⟩
    · obtain ⟨b, hb, hR⟩ := ih ha
      exact ⟨b, List.mem_cons_of_mem _ hb, hR⟩

end

namespace MacAddress

variable {s : String} {m : MacAddress} {bytes : List UInt8}

/-- The segments of a text between its colons. -/
def segments (s : String) : List (List Char) := s.toList.splitOn ':'

theorem length_octets (m : MacAddress) : m.octets.toList.length = 6 := m.octets.length_toList

theorem mk_eq_iff (h : bytes.toArray.size = 6) :
    (⟨⟨bytes.toArray, h⟩⟩ : MacAddress) = m ↔ bytes = m.octets.toList := by
  constructor
  · rintro rfl
    rfl
  · intro hbytes
    obtain ⟨octets⟩ := m
    rw [MacAddress.mk.injEq, ← Vector.toList_inj]
    exact hbytes

/-- **`MacAddress::parse`** keeps the bytes of the segments that it can read. -/
theorem parse_eq_some :
    parse s = some m ↔ (segments s).filterMap u8FromHex = m.octets.toList := by
  unfold parse
  dsimp only
  by_cases h : ((s.toList.splitOn ':').filterMap u8FromHex).length = 6
  · rw [dif_pos h, Option.some.injEq, mk_eq_iff]
    rfl
  · rw [dif_neg h]
    refine ⟨nofun, fun hbytes => absurd ?_ h⟩
    exact (congrArg List.length hbytes).trans m.length_octets

/-- **`Deserialize`** reads each segment, which has two bytes. -/
theorem deserialize_eq_ok : deserialize s = .ok m ↔
    List.Forall₂ (fun part b => byteLength part = 2 ∧ u8FromHex part = some b) (segments s)
      m.octets.toList := by
  simp only [← deserializeSegment_eq_ok, ← mapM_eq_ok_iff]
  unfold deserialize
  cases hbytes : (s.toList.splitOn ':').mapM deserializeSegment with
  | error e => exact ⟨nofun, fun h => nomatch hbytes.symm.trans h⟩
  | ok bytes =>
    show (if h : bytes.length = 6 then _ else _) = _ ↔ _
    have hsegments : (segments s).mapM deserializeSegment = .ok bytes := hbytes
    rw [hsegments, Except.ok.injEq]
    by_cases h : bytes.length = 6
    · rw [dif_pos h, Except.ok.injEq, mk_eq_iff]
    · rw [dif_neg h]
      refine ⟨nofun, fun heq => absurd ?_ h⟩
      rw [heq]
      exact m.length_octets

/-- The segments of a text that spells an address spell its octets. -/
theorem spells_iff : Spells s m ↔ List.Forall₂ SpellsOctet (segments s) m.octets.toList := by
  constructor
  · rintro ⟨parts, hs, hparts⟩
    have hcolon : ∀ part ∈ parts, ':' ∉ part := by
      intro part hpart
      obtain ⟨b, -, hb⟩ := exists_of_mem_left hparts hpart
      exact hb.not_mem_colon
    have hne : parts ≠ [] := by
      rintro rfl
      have hlen := hparts.length_eq
      rw [m.length_octets] at hlen
      cases hlen
    rw [segments, hs, List.splitOn_intercalate _ hcolon hne]
    exact hparts
  · intro h
    exact ⟨segments s, (List.intercalate_splitOn _).symm, h⟩

/-- What is spelled is read by `parse`. -/
theorem Spells.parse_eq (h : Spells s m) : parse s = some m := by
  have hread := (spells_iff.mp h).imp fun _ _ hb => hb.reads
  exact parse_eq_some.mpr (filterMap_of_forall₂ hread)

/-- What is spelled is read by `Deserialize`. -/
theorem Spells.deserialize_eq (h : Spells s m) : deserialize s = .ok m :=
  deserialize_eq_ok.mpr ((spells_iff.mp h).imp fun _ _ hb => ⟨hb.byteLength_eq, hb.reads⟩)

/-- What `Deserialize` reads is read by `parse`. -/
theorem parse_of_deserialize (h : deserialize s = .ok m) : parse s = some m := by
  have hread := (deserialize_eq_ok.mp h).imp fun _ _ hb => hb.2
  exact parse_eq_some.mpr (filterMap_of_forall₂ hread)

/-- The segments are six octets of two hexadecimal digits. -/
def SixOctets (s : String) : Prop :=
  (segments s).length = 6 ∧
    ∀ part ∈ segments s, part.length = 2 ∧ ∀ c ∈ part, (hexDigit c).isSome

instance (s : String) : Decidable (SixOctets s) := inferInstanceAs (Decidable (_ ∧ _))

/-- The text spells an address exactly when its segments are six octets. -/
theorem exists_spells_iff : (∃ m, Spells s m) ↔ SixOctets s := by
  constructor
  · rintro ⟨m, h⟩
    have hparts := spells_iff.mp h
    refine ⟨hparts.length_eq.trans m.length_octets, fun part hpart => ?_⟩
    obtain ⟨b, -, hi, lo, x, y, rfl, hx, hy, -⟩ := exists_of_mem_left hparts hpart
    refine ⟨rfl, fun c hc => ?_⟩
    rcases List.mem_pair.mp hc with rfl | rfl
    · rw [hx]
      rfl
    · rw [hy]
      rfl
  · rintro ⟨hlen, hoctets⟩
    obtain ⟨bytes, hbytes⟩ := exists_forall₂ fun part hpart =>
      exists_spellsOctet (hoctets part hpart).1 (hoctets part hpart).2
    have hsize : bytes.toArray.size = 6 := hbytes.length_eq.symm.trans hlen
    exact ⟨⟨⟨bytes.toArray, hsize⟩⟩, spells_iff.mpr hbytes⟩

/-- `parse` finds an address in a text exactly when six of its segments are numerals. -/
theorem exists_parse_iff :
    (∃ m, parse s = some m) ↔ (segments s).countP (OctetNumeral ·) = 6 := by
  have hcount : (segments s).countP (OctetNumeral ·) =
      ((segments s).filterMap u8FromHex).length := by
    rw [List.length_filterMap_eq_countP]
    refine List.countP_congr fun part _ => ?_
    rw [decide_eq_true_iff, isSome_u8FromHex]
  rw [hcount]
  constructor
  · rintro ⟨m, h⟩
    rw [parse_eq_some.mp h]
    exact m.length_octets
  · intro h
    exact ⟨⟨⟨((segments s).filterMap u8FromHex).toArray, h⟩⟩, parse_eq_some.mpr rfl⟩

/-- **The parsers agree, and accept exactly what is spelled**, for the texts that do not have
    six numerals among their segments without being six octets of two hexadecimal digits. -/
theorem macParsers_agree_iff (s : String) :
    (∀ m, (parse s = some m ↔ deserialize s = .ok m) ∧ (deserialize s = .ok m ↔ Spells s m)) ↔
      ((segments s).countP (OctetNumeral ·) = 6 → SixOctets s) := by
  constructor
  · intro h hcount
    obtain ⟨m, hm⟩ := exists_parse_iff.mpr hcount
    have hspells := (h m).2.mp ((h m).1.mp hm)
    exact exists_spells_iff.mp ⟨m, hspells⟩
  · intro h m
    have hspelled : parse s = some m → Spells s m := by
      intro hm
      obtain ⟨m', hm'⟩ := exists_spells_iff.mpr (h (exists_parse_iff.mp ⟨m, hm⟩))
      obtain rfl : m' = m := Option.some.inj (hm'.parse_eq.symm.trans hm)
      exact hm'
    exact ⟨⟨fun hm => (hspelled hm).deserialize_eq, parse_of_deserialize⟩,
      ⟨fun hm => hspelled (parse_of_deserialize hm), fun hm => hm.deserialize_eq⟩⟩

/-! ### The text of an address -/

theorem hexDigit_digitChar {n : Nat} (h : n < 16) : hexDigit (Nat.digitChar n) = some n := by
  decide +revert

theorem spellsOctet_hexByte (b : UInt8) : SpellsOctet (hexByte b).toList b := by
  have hb := b.toNat_lt
  refine ⟨_, _, b.toNat / 16, b.toNat % 16, String.toList_ofList,
    hexDigit_digitChar (by omega), hexDigit_digitChar (by omega), ?_⟩
  rw [Nat.div_add_mod' b.toNat 16, UInt8.ofNat_toNat]

/-- **The text of an address spells it**, so both parsers read it back. -/
theorem spells_text (m : MacAddress) : Spells m.text m := by
  refine ⟨m.octets.toList.map fun b => (hexByte b).toList, ?_, ?_⟩
  · rw [text, String.toList_intercalate, List.map_map]
    rfl
  · rw [List.forall₂_map_left_iff]
    exact List.forall₂_same.mpr fun b _ => spellsOctet_hexByte b

/-- A text with single digits and a segment that is no number is an address for `parse` only,
    and one with a plus sign is an address for both parsers. -/
theorem lenientMac_parses :
    (parse "2:0:zz:0:0:0:0a" = some ⟨#v[2, 0, 0, 0, 0, 10]⟩ ∧
      deserialize "2:0:zz:0:0:0:0a" = .error "each MAC address segment must contain 2 hex digits") ∧
    parse "+2:00:00:00:00:0a" = some ⟨#v[2, 0, 0, 0, 0, 10]⟩ ∧
      deserialize "+2:00:00:00:00:0a" = .ok ⟨#v[2, 0, 0, 0, 0, 10]⟩ ∧
      ¬ ∃ m, Spells "+2:00:00:00:00:0a" m := by
  refine ⟨⟨by decide, by decide⟩, by decide, by decide, ?_⟩
  rw [exists_spells_iff]
  intro h
  have hsegments : segments "+2:00:00:00:00:0a" =
      [['+', '2'], ['0', '0'], ['0', '0'], ['0', '0'], ['0', '0'], ['0', 'a']] := by decide
  have hsigned : ['+', '2'] ∈ segments "+2:00:00:00:00:0a" := by
    rw [hsegments]
    exact List.mem_cons_self
  have hplus := (h.2 _ hsigned).2 '+' List.mem_cons_self
  cases hplus

end MacAddress

end Sarena
