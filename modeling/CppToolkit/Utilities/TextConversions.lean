import CppToolkit.Library.Unicode

/-! Conversions between UTF-8, UTF-16, UTF-32 and wide strings. `WSTRING_IS_U16STRING` is defined,
so that a wide string goes through `convert` unit by unit. -/
namespace CppToolkit.Utilities.Converter
open Codes Unicode

/-- The string that a C string constructor reads from a buffer; none if no unit ends it. -/
def cString {υ : Type} [DecidableEq υ] (zero : υ) (buffer : List υ) : Option (List υ) :=
  if zero ∈ buffer then some (buffer.takeWhile (· ≠ zero)) else none

/-- `std::codecvt::in` and `out`: what can be read of the text, as far as there is room. -/
def codecvt {υ ω : Type} (source : Code Char υ) (target : Code Char ω) (room : Nat)
    (value : List υ) : List ω :=
  target.encodeWithin room (source.decodeAll value)

def maxLength : Nat := 4

/-- The body of the conversions: `result` is a buffer of zeros, the facet writes from its
beginning on. -/
def throughBuffer {υ ω : Type} [DecidableEq υ] [DecidableEq ω] (source : Code Char υ)
    (target : Code Char ω) (size : Nat) (value : List υ) : Option (List ω) :=
  if value = [] then some []
  else
    let written := codecvt source target size value
    cString target.zero (written ++ List.replicate (size - written.length) target.zero)

def toU32string (value : List UInt8) : Option (List UInt32) :=
  throughBuffer utf8 utf32 (value.length + 1) value

def toU16string (value : List UInt8) : Option (List UInt16) :=
  throughBuffer utf8 utf16 (value.length + 1) value

/-- `to_string` of a `std::u32string`. -/
def toString32 (value : List UInt32) : Option (List UInt8) :=
  throughBuffer utf32 utf8 ((value.length + 1) * maxLength) value

/-- `to_string` of a `std::u16string`. -/
def toString16 (value : List UInt16) : Option (List UInt8) :=
  throughBuffer utf16 utf8 ((value.length + 1) * maxLength) value

/-- `convert` to a `std::wstring`. -/
def convertToWide (value : List UInt16) : List UInt32 := value.map UInt16.toUInt32

/-- `convert` to a `std::u16string`: a unit keeps its low 16 bits. -/
def convertFromWide (value : List UInt32) : List UInt16 := value.map UInt32.toUInt16

def toWstring (value : List UInt8) : Option (List UInt32) := (toU16string value).map convertToWide

/-- `to_string` of a `std::wstring`. -/
def toStringWide (value : List UInt32) : Option (List UInt8) := toString16 (convertFromWide value)

section
variable {υ ω : Type} [DecidableEq υ] [DecidableEq ω] {source : Code Char υ}
  {target : Code Char ω} {size : Nat}

theorem cString_padded {zero : ω} {written : List ω} (room : written.length < size) :
    cString zero (written ++ List.replicate (size - written.length) zero) =
      some (written.takeWhile (· ≠ zero)) := by
  obtain ⟨rest, more⟩ := Nat.exists_eq_succ_of_ne_zero (Nat.sub_ne_zero_of_lt room)
  have ended : zero ∈ written ++ List.replicate (size - written.length) zero := by
    rw [more, List.replicate_succ]
    exact List.mem_append_right _ List.mem_cons_self
  rw [cString, if_pos ended, more, List.replicate_succ]
  refine congrArg some ?_
  clear room ended more
  induction written with
  | nil => simp
  | cons unit written ih =>
      rw [List.cons_append, List.takeWhile_cons, List.takeWhile_cons, ih]

/-- A buffer that is large enough gives the text up to its first NUL. -/
theorem throughBuffer_eq {value : List υ}
    (enough : (target.encodeAll (source.decodeAll value)).length < size) :
    throughBuffer source target size value =
      some (target.encodeAll ((source.decodeAll value).takeWhile (· ≠ target.nul))) := by
  unfold throughBuffer
  split
  next empty =>
    rw [empty]
    rfl
  next =>
    have written : codecvt source target size value =
        target.encodeAll (source.decodeAll value) := Code.encodeWithin_eq (Nat.le_of_lt enough)
    dsimp only
    rw [written, cString_padded enough, Code.takeWhile_encodeAll]

end

theorem length_utf8_pos (c : Char) : 0 < (utf8.encode c).length := Code.length_encode_pos c

theorem length_utf8_le (c : Char) : (utf8.encode c).length ≤ 4 := by
  change (String.utf8EncodeChar c).length ≤ 4
  rw [String.length_utf8EncodeChar]
  exact Char.utf8Size_le_four c

theorem utf8Size_high {c : Char} (high : 0x10000 ≤ c.toNat) : c.utf8Size = 4 := by
  have above {n : UInt32} (small : n.toNat < 0x10000) : ¬c.val ≤ n := by
    rw [UInt32.le_iff_toNat_le]
    exact Nat.not_le.mpr (Nat.lt_of_lt_of_le small high)
  rw [Char.utf8Size, if_neg (above (by decide)), if_neg (above (by decide)),
    if_neg (above (by decide))]

theorem length_utf16_le (c : Char) : (utf16.encode c).length ≤ 1 * (utf8.encode c).length := by
  have some_ := length_utf8_pos c
  change (Utf16.encode c).length ≤ 1 * (String.utf8EncodeChar c).length
  change 0 < (String.utf8EncodeChar c).length at some_
  rw [Utf16.length_encode]
  split
  next => omega
  next high =>
    rw [String.length_utf8EncodeChar, utf8Size_high (Nat.not_lt.mp high)]
    decide

theorem toU16string_encodeAll (chars : List Char) :
    toU16string (utf8.encodeAll chars) =
      some (utf16.encodeAll (chars.takeWhile (· ≠ Char.ofNat 0))) := by
  have room := Code.length_transcoded_le length_utf16_le (utf8.encodeAll chars)
  rw [toU16string, throughBuffer_eq (by omega), Code.decodeAll_encodeAll]
  rfl

theorem toU32string_encodeAll (chars : List Char) :
    toU32string (utf8.encodeAll chars) =
      some (utf32.encodeAll (chars.takeWhile (· ≠ Char.ofNat 0))) := by
  have each (c : Char) : (utf32.encode c).length ≤ 1 * (utf8.encode c).length := by
    rw [Nat.one_mul]
    exact length_utf8_pos c
  have room := Code.length_transcoded_le each (utf8.encodeAll chars)
  rw [toU32string, throughBuffer_eq (by omega), Code.decodeAll_encodeAll]
  rfl

section
variable {υ : Type} {source : Code Char υ}

theorem length_out_le (source : Code Char υ) (c : Char) :
    (utf8.encode c).length ≤ maxLength * (source.encode c).length :=
  Nat.le_trans (length_utf8_le c)
    (Nat.le_mul_of_pos_right maxLength (Code.length_encode_pos (a := source) c))

theorem throughBuffer_out [DecidableEq υ] (value : List υ) :
    throughBuffer source utf8 ((value.length + 1) * maxLength) value =
      some (utf8.encodeAll ((source.decodeAll value).takeWhile (· ≠ Char.ofNat 0))) := by
  have room := Code.length_transcoded_le (length_out_le source) value
  refine throughBuffer_eq (Nat.lt_of_le_of_lt room ?_)
  rw [Nat.mul_comm]
  exact Nat.mul_lt_mul_of_pos_right (Nat.lt_succ_self _) (by decide)

end

theorem toString16_eq (value : List UInt16) :
    toString16 value =
      some (utf8.encodeAll ((utf16.decodeAll value).takeWhile (· ≠ Char.ofNat 0))) :=
  throughBuffer_out value

theorem toString32_eq (value : List UInt32) :
    toString32 value =
      some (utf8.encodeAll ((utf32.decodeAll value).takeWhile (· ≠ Char.ofNat 0))) :=
  throughBuffer_out value

theorem convertFromWide_convertToWide (value : List UInt16) :
    convertFromWide (convertToWide value) = value := by
  rw [convertFromWide, convertToWide, List.map_map]
  conv_rhs => rw [← List.map_id value]
  refine List.map_congr_left fun unit _ => ?_
  exact UInt16.toUInt16_toUInt32 unit

/-- A detour cuts the text at its first NUL. -/
theorem detours_eq (chars : List Char) :
    (toU16string (utf8.encodeAll chars)).bind toString16 =
        some (utf8.encodeAll (chars.takeWhile (· ≠ Char.ofNat 0))) ∧
      (toU32string (utf8.encodeAll chars)).bind toString32 =
        some (utf8.encodeAll (chars.takeWhile (· ≠ Char.ofNat 0))) ∧
      (toWstring (utf8.encodeAll chars)).bind toStringWide =
        some (utf8.encodeAll (chars.takeWhile (· ≠ Char.ofNat 0))) := by
  have narrow : toString16 (utf16.encodeAll (chars.takeWhile (· ≠ Char.ofNat 0))) =
      some (utf8.encodeAll (chars.takeWhile (· ≠ Char.ofNat 0))) := by
    rw [toString16_eq, Code.decodeAll_encodeAll, List.takeWhile_idem]
  refine ⟨?_, ?_, ?_⟩
  · rw [toU16string_encodeAll, Option.bind_some, narrow]
  · rw [toU32string_encodeAll, Option.bind_some, toString32_eq, Code.decodeAll_encodeAll,
      List.takeWhile_idem]
  · rw [toWstring, toU16string_encodeAll, Option.map_some, Option.bind_some, toStringWide,
      convertFromWide_convertToWide, narrow]

theorem encodeAll_takeWhile_iff (chars : List Char) :
    some (utf8.encodeAll (chars.takeWhile (· ≠ Char.ofNat 0))) = some (utf8.encodeAll chars) ↔
      0 ∉ utf8.encodeAll chars := by
  rw [Option.some_inj, Code.encodeAll_injective.eq_iff, List.takeWhile_eq_self_iff]
  refine Iff.trans ?_ (not_congr (Code.zero_mem_encodeAll_iff (a := utf8) chars)).symm
  change _ ↔ Char.ofNat 0 ∉ chars
  constructor
  · intro plain member
    simpa using plain _ member
  · intro absent c member
    refine decide_eq_true fun same => absent ?_
    rwa [same] at member

/-- The wide string with the scalar values of a text. -/
def wide (chars : List Char) : List UInt32 := chars.map Char.val

theorem toStringWide_wide (chars : List Char) :
    toStringWide (wide chars) = some (utf8.encodeAll
      ((utf16.decodeAll (convertFromWide (wide chars))).takeWhile (· ≠ Char.ofNat 0))) :=
  toString16_eq _

theorem convertFromWide_wide {chars : List Char} (basic : ∀ c ∈ chars, c.toNat < 0x10000) :
    convertFromWide (wide chars) = utf16.encodeAll chars := by
  induction chars with
  | nil => rfl
  | cons c chars ih =>
      have one : utf16.encode c = [.ofNat c.toNat] :=
        Utf16.encode_basic (basic c List.mem_cons_self)
      have rest := ih fun d member => basic d (List.mem_cons_of_mem _ member)
      rw [Code.encodeAll_cons, ← rest, one]
      rfl

theorem basic_of_length {chars : List Char}
    (short : (utf16.encodeAll chars).length ≤ chars.length) : ∀ c ∈ chars, c.toNat < 0x10000 := by
  intro c member
  have one := Code.length_encode_eq_one short c member
  change (Utf16.encode c).length = 1 at one
  rw [Utf16.length_encode] at one
  by_contra high
  rw [if_neg high] at one
  exact absurd one (by decide)

/-- A wide string keeps its text exactly if it has no NUL and no character of two units. -/
theorem toStringWide_iff (chars : List Char) :
    toStringWide (wide chars) = some (utf8.encodeAll chars) ↔
      ∀ c ∈ chars, c ≠ Char.ofNat 0 ∧ c.toNat < 0x10000 := by
  rw [toStringWide_wide, Option.some_inj, Code.encodeAll_injective.eq_iff]
  constructor
  · intro same
    have plain : ∀ c ∈ chars, c ≠ Char.ofNat 0 := by
      rw [← same]
      intro c member
      simpa using List.mem_takeWhile_imp member
    have start : chars <+: utf16.decodeAll (convertFromWide (wide chars)) := by
      conv_lhs => rw [← same]
      exact List.takeWhile_prefix _
    have units : (utf16.encodeAll (utf16.decodeAll (convertFromWide (wide chars)))).length ≤
        chars.length := by
      refine Nat.le_trans (Code.encodeAll_decodeAll _).length_le (Nat.le_of_eq ?_)
      rw [convertFromWide, wide, List.length_map, List.length_map]
    have basic := basic_of_length (Nat.le_trans units start.length_le)
    exact fun c member => ⟨plain c member, basic c (start.subset member)⟩
  · intro each
    rw [convertFromWide_wide fun c member => (each c member).2, Code.decodeAll_encodeAll,
      List.takeWhile_eq_self_iff]
    exact fun c member => decide_eq_true (each c member).1

/-- The detours keep a text exactly if it has no NUL, and a wide string is its text in UTF-8
exactly if it has neither a NUL nor a character beyond the basic plane. -/
theorem conversions_keep_iff (chars : List Char) :
    ((toU16string (utf8.encodeAll chars)).bind toString16 = some (utf8.encodeAll chars) ∧
        (toU32string (utf8.encodeAll chars)).bind toString32 = some (utf8.encodeAll chars) ∧
        (toWstring (utf8.encodeAll chars)).bind toStringWide = some (utf8.encodeAll chars) ↔
      0 ∉ utf8.encodeAll chars) ∧
    (toStringWide (wide chars) = some (utf8.encodeAll chars) ↔
      ∀ c ∈ chars, c ≠ Char.ofNat 0 ∧ c.toNat < 0x10000) := by
  obtain ⟨narrow, long, broad⟩ := detours_eq chars
  refine ⟨?_, toStringWide_iff chars⟩
  rw [narrow, long, broad, encodeAll_takeWhile_iff, and_self, and_self]

/-- A NUL ends the text, and the character U+1F600 becomes U+F600. -/
theorem conversions_lose :
    utf8.encodeAll ['a', Char.ofNat 0, 'b'] = [0x61, 0, 0x62] ∧
      (toU16string [0x61, 0, 0x62]).bind toString16 = some [0x61] ∧
      utf8.encodeAll [Char.ofNat 0x1F600] = [0xF0, 0x9F, 0x98, 0x80] ∧
      toStringWide (wide [Char.ofNat 0x1F600]) = some [0xEF, 0x98, 0x80] := by
  refine ⟨by decide, ?_, by decide, by decide⟩
  exact (detours_eq ['a', Char.ofNat 0, 'b']).1

end CppToolkit.Utilities.Converter
