import CppToolkit.Library.Codes
import Mathlib

/-! UTF-8, UTF-16 and UTF-32 as codes of the Unicode scalar values. -/
namespace CppToolkit.Unicode
open Codes

/-- The unit of a number that fits and is not 0 is not the zero unit. -/
theorem zero_ne_ofNat {U : Type} {ofNat : Nat → U} {toNat : U → Nat} {size n : Nat} {zero : U}
    (toNat_ofNat : ∀ {n}, n < size → toNat (ofNat n) = n) (toNat_zero : toNat zero = 0)
    (positive : 0 < n) (small : n < size) : zero ≠ ofNat n := by
  intro same
  have value := congrArg toNat same
  rw [toNat_zero, toNat_ofNat small] at value
  exact Nat.ne_of_lt positive value

namespace Utf8

def decode (bytes : List UInt8) : Option (Char × List UInt8) :=
  (bytes.toByteArray.utf8DecodeChar? 0).map fun c => (c, bytes.drop c.utf8Size)

theorem decode_encode (c : Char) (rest : List UInt8) :
    decode (String.utf8EncodeChar c ++ rest) = some (c, rest) := by
  have length := String.length_utf8EncodeChar c
  rw [decode, List.toByteArray_append, ByteArray.utf8DecodeChar?_utf8EncodeChar_append,
    Option.map_some, ← length, List.drop_left]

theorem encode_of_decode {bytes rest : List UInt8} {c : Char}
    (read : decode bytes = some (c, rest)) : bytes = String.utf8EncodeChar c ++ rest := by
  obtain ⟨d, found, same⟩ := Option.map_eq_some_iff.mp read
  cases same
  obtain ⟨left, split⟩ := ByteArray.exists_of_utf8DecodeChar?_eq_some found
  have lists := congrArg (·.data.toList) split
  simp only [ByteArray.toList_data_append, List.toList_data_toByteArray] at lists
  rw [lists, ← String.length_utf8EncodeChar, List.drop_left]

theorem val_eq_zero_iff (c : Char) : c.val.toNat = 0 ↔ c = Char.ofNat 0 := by
  constructor
  · exact fun zero => Char.ext (UInt32.toNat_inj.mp zero)
  · rintro rfl
    rfl

/-- The bytes of a longer encoding have their marker bits. -/
theorem zero_mem_iff (c : Char) : (0 : UInt8) ∈ String.utf8EncodeChar c ↔ c = Char.ofNat 0 := by
  have ofNat_ne_zero : ∀ {n : Nat}, 0 < n → n < 256 → (0 : UInt8) ≠ .ofNat n :=
    zero_ne_ofNat UInt8.toNat_ofNat_of_lt' rfl
  rw [← val_eq_zero_iff]
  unfold String.utf8EncodeChar
  generalize c.val.toNat = v
  dsimp only
  split
  next ascii =>
    rw [List.mem_singleton]
    constructor
    · intro same
      by_contra some_
      exact ofNat_ne_zero (Nat.pos_of_ne_zero some_) (by omega) same
    · rintro rfl
      rfl
  next high =>
    refine iff_of_false ?_ (by omega)
    split
    next =>
      rw [List.mem_cons, List.mem_singleton, not_or]
      exact ⟨ofNat_ne_zero (by omega) (by omega), ofNat_ne_zero (by omega) (by omega)⟩
    next =>
    split
    next =>
      rw [List.mem_cons, List.mem_cons, List.mem_singleton, not_or, not_or]
      exact ⟨ofNat_ne_zero (by omega) (by omega), ofNat_ne_zero (by omega) (by omega),
        ofNat_ne_zero (by omega) (by omega)⟩
    next =>
      rw [List.mem_cons, List.mem_cons, List.mem_cons, List.mem_singleton, not_or, not_or, not_or]
      exact ⟨ofNat_ne_zero (by omega) (by omega), ofNat_ne_zero (by omega) (by omega),
        ofNat_ne_zero (by omega) (by omega), ofNat_ne_zero (by omega) (by omega)⟩

end Utf8

def utf8 : Code Char UInt8 where
  nul := Char.ofNat 0
  zero := 0
  encode := String.utf8EncodeChar
  decode := Utf8.decode
  decode_encode := Utf8.decode_encode
  encode_of_decode := fun _ _ _ => Utf8.encode_of_decode
  encode_ne_nil := fun _ => String.utf8EncodeChar_ne_nil
  encode_nul := rfl
  zero_mem_iff := Utf8.zero_mem_iff

namespace Utf16

def encode (c : Char) : List UInt16 :=
  let v := c.toNat
  if v < 0x10000 then [.ofNat v]
  else [.ofNat (0xD800 + (v - 0x10000) / 0x400), .ofNat (0xDC00 + (v - 0x10000) % 0x400)]

/-- A unit alone, or a high and a low surrogate. -/
def decode : List UInt16 → Option (Char × List UInt16)
  | [] => none
  | a :: rest =>
      let v := a.toNat
      if v < 0xD800 ∨ 0xE000 ≤ v then some (Char.ofNat v, rest)
      else if v < 0xDC00 then
        match rest with
        | [] => none
        | b :: rest =>
            let w := b.toNat
            if 0xDC00 ≤ w ∧ w < 0xE000 then
              some (Char.ofNat (0x10000 + (v - 0xD800) * 0x400 + (w - 0xDC00)), rest)
            else none
      else none

theorem eq_ofNat {c : Char} {v : Nat} (same : c.toNat = v) : c = Char.ofNat v := by
  rw [← same, Char.ofNat_toNat]

theorem decode_single {a : UInt16} {rest : List UInt16}
    (single : a.toNat < 0xD800 ∨ 0xE000 ≤ a.toNat) :
    decode (a :: rest) = some (Char.ofNat a.toNat, rest) := by
  unfold decode
  exact if_pos single

theorem decode_pair {a b : UInt16} {rest : List UInt16}
    (high : 0xD800 ≤ a.toNat ∧ a.toNat < 0xDC00) (low : 0xDC00 ≤ b.toNat ∧ b.toNat < 0xE000) :
    decode (a :: b :: rest) = some (Char.ofNat
      (0x10000 + (a.toNat - 0xD800) * 0x400 + (b.toNat - 0xDC00)), rest) := by
  unfold decode
  dsimp only
  rw [if_neg (by omega), if_pos high.2, if_pos low]

theorem encode_basic {c : Char} (basic : c.toNat < 0x10000) : encode c = [.ofNat c.toNat] :=
  if_pos basic

theorem encode_high {c : Char} (high : 0x10000 ≤ c.toNat) :
    encode c = [.ofNat (0xD800 + (c.toNat - 0x10000) / 0x400),
      .ofNat (0xDC00 + (c.toNat - 0x10000) % 0x400)] :=
  if_neg (Nat.not_lt.mpr high)

theorem decode_encode (c : Char) (rest : List UInt16) :
    decode (encode c ++ rest) = some (c, rest) := by
  have valid : c.toNat.isValidChar := c.valid
  unfold Nat.isValidChar at valid
  unfold encode
  dsimp only
  split
  next basic =>
    have value : (UInt16.ofNat c.toNat).toNat = c.toNat :=
      UInt16.toNat_ofNat_of_lt' basic
    rw [List.singleton_append, decode_single (by omega), value, Char.ofNat_toNat]
  next high =>
    have first : (UInt16.ofNat (0xD800 + (c.toNat - 0x10000) / 0x400)).toNat =
        0xD800 + (c.toNat - 0x10000) / 0x400 := UInt16.toNat_ofNat_of_lt' (show _ < 0x10000 by omega)
    have second : (UInt16.ofNat (0xDC00 + (c.toNat - 0x10000) % 0x400)).toNat =
        0xDC00 + (c.toNat - 0x10000) % 0x400 := UInt16.toNat_ofNat_of_lt' (show _ < 0x10000 by omega)
    rw [List.cons_append, List.singleton_append, decode_pair (by omega) (by omega), first, second]
    refine congrArg (fun d => some (d, rest)) (eq_ofNat ?_).symm
    omega

theorem encode_of_decode {units rest : List UInt16} {c : Char}
    (read : decode units = some (c, rest)) : units = encode c ++ rest := by
  unfold decode at read
  split at read
  next => cases read
  next a behind =>
  have small := a.toNat_lt
  dsimp only at read
  split at read
  next alone =>
    cases read
    have scalar : a.toNat.isValidChar := by
      unfold Nat.isValidChar
      omega
    have value : (Char.ofNat a.toNat).toNat = a.toNat := by
      rw [Char.toNat_ofNat, if_pos scalar]
    rw [encode_basic (by omega), value, UInt16.ofNat_toNat, List.singleton_append]
  next =>
  split at read
  next high =>
    split at read
    next => cases read
    next b behind =>
    split at read
    next low =>
      obtain ⟨same, behindSame⟩ := Prod.mk.inj (Option.some.inj read)
      have value : c.toNat = 0x10000 + (a.toNat - 0xD800) * 0x400 + (b.toNat - 0xDC00) := by
        rw [← same, Char.toNat_ofNat, if_pos]
        unfold Nat.isValidChar
        omega
      have first : UInt16.ofNat (0xD800 + (0x10000 + (a.toNat - 0xD800) * 0x400 +
          (b.toNat - 0xDC00) - 0x10000) / 0x400) = a := UInt16.toNat_inj.mp (by
        rw [UInt16.toNat_ofNat_of_lt' (show _ < 0x10000 by omega)]
        omega)
      have second : UInt16.ofNat (0xDC00 + (0x10000 + (a.toNat - 0xD800) * 0x400 +
          (b.toNat - 0xDC00) - 0x10000) % 0x400) = b := UInt16.toNat_inj.mp (by
        rw [UInt16.toNat_ofNat_of_lt' (show _ < 0x10000 by omega)]
        omega)
      rw [encode_high (by omega), value, first, second, List.cons_append, List.singleton_append,
        behindSame]
    next => cases read
  next => cases read

theorem zero_mem_iff (c : Char) : (0 : UInt16) ∈ encode c ↔ c = Char.ofNat 0 := by
  have ofNat_ne_zero : ∀ {n : Nat}, 0 < n → n < 0x10000 → (0 : UInt16) ≠ .ofNat n :=
    zero_ne_ofNat UInt16.toNat_ofNat_of_lt' rfl
  have valid : c.toNat.isValidChar := c.valid
  unfold Nat.isValidChar at valid
  rw [← Utf8.val_eq_zero_iff]
  change _ ↔ c.toNat = 0
  unfold encode
  generalize c.toNat = v at valid
  dsimp only
  split
  next basic =>
    rw [List.mem_singleton]
    constructor
    · intro same
      by_contra some_
      exact ofNat_ne_zero (Nat.pos_of_ne_zero some_) basic same
    · rintro rfl
      rfl
  next high =>
    rw [List.mem_cons, List.mem_singleton]
    refine iff_of_false (not_or.mpr ⟨?_, ?_⟩) (by omega)
    · exact ofNat_ne_zero (by omega) (by omega)
    · exact ofNat_ne_zero (by omega) (by omega)

/-- One unit is enough for the basic plane, and for nothing else. -/
theorem length_encode (c : Char) : (encode c).length = if c.toNat < 0x10000 then 1 else 2 := by
  unfold encode
  dsimp only
  split <;> rfl

end Utf16

def utf16 : Code Char UInt16 where
  nul := Char.ofNat 0
  zero := 0
  encode := Utf16.encode
  decode := Utf16.decode
  decode_encode := Utf16.decode_encode
  encode_of_decode := fun _ _ _ => Utf16.encode_of_decode
  encode_ne_nil := fun c => List.ne_nil_of_length_pos (by
    rw [Utf16.length_encode]
    split <;> decide)
  encode_nul := rfl
  zero_mem_iff := Utf16.zero_mem_iff

namespace Utf32

def decode : List UInt32 → Option (Char × List UInt32)
  | [] => none
  | a :: rest => if valid : a.isValidChar then some (⟨a, valid⟩, rest) else none

end Utf32

def utf32 : Code Char UInt32 where
  nul := Char.ofNat 0
  zero := 0
  encode := fun c => [c.val]
  decode := Utf32.decode
  decode_encode := fun c rest => by
    rw [List.singleton_append, Utf32.decode, dif_pos c.valid]
  encode_of_decode := fun units rest c read => by
    unfold Utf32.decode at read
    split at read
    next => cases read
    next =>
      split at read <;> cases read
      rfl
  encode_ne_nil := fun c => List.cons_ne_nil _ _
  encode_nul := rfl
  zero_mem_iff := fun c => by
    rw [List.mem_singleton]
    constructor
    · exact fun zero => Char.ext zero.symm
    · rintro rfl
      rfl

end CppToolkit.Unicode
