import Mathlib.Data.List.Basic
import Mathlib.Data.List.TakeWhile
import Mathlib.Order.Basic

/-! Codes of variable length: a character is some units in a row, and a text is read back
character by character as far as its units make sense. -/
namespace CppToolkit.Codes

/-- A code in which every character can be told from what follows it; only `nul` has the unit
`zero` in it. -/
structure Code (χ υ : Type) where
  nul : χ
  zero : υ
  encode : χ → List υ
  decode : List υ → Option (χ × List υ)
  decode_encode : ∀ c rest, decode (encode c ++ rest) = some (c, rest)
  encode_of_decode : ∀ units c rest, decode units = some (c, rest) → units = encode c ++ rest
  encode_ne_nil : ∀ c, encode c ≠ []
  encode_nul : encode nul = [zero]
  zero_mem_iff : ∀ c, zero ∈ encode c ↔ c = nul

namespace Code
variable {χ υ ω : Type} (a : Code χ υ) (b : Code χ ω)

def encodeAll (text : List χ) : List υ := text.flatMap a.encode

/-- The characters at the beginning, with a bound on their number. -/
def decodeWithin : Nat → List υ → List χ
  | 0, _ => []
  | fuel + 1, units =>
      match a.decode units with
      | none => []
      | some (c, rest) => c :: decodeWithin fuel rest

/-- What can be read of the units: it ends where they are no character. -/
def decodeAll (units : List υ) : List χ := a.decodeWithin units.length units

/-- The characters for whose units there is room. -/
def encodeWithin : Nat → List χ → List υ
  | _, [] => []
  | room, c :: text =>
      if (a.encode c).length ≤ room then
        a.encode c ++ encodeWithin (room - (a.encode c).length) text
      else []

section
variable {a b}

@[simp] theorem encodeAll_nil : a.encodeAll [] = [] := rfl

@[simp] theorem encodeAll_cons (c : χ) (text : List χ) :
    a.encodeAll (c :: text) = a.encode c ++ a.encodeAll text := List.flatMap_cons

theorem length_encode_pos (c : χ) : 0 < (a.encode c).length :=
  List.length_pos_iff.mpr (a.encode_ne_nil c)

theorem length_le_encodeAll (text : List χ) : text.length ≤ (a.encodeAll text).length := by
  induction text with
  | nil => exact Nat.le_refl 0
  | cons c text ih =>
      have positive := length_encode_pos (a := a) c
      rw [encodeAll_cons, List.length_append, List.length_cons]
      omega

/-- As many characters as units have one unit each. -/
theorem length_encode_eq_one {text : List χ}
    (short : (a.encodeAll text).length ≤ text.length) : ∀ c ∈ text, (a.encode c).length = 1 := by
  induction text with
  | nil => exact fun c member => absurd member List.not_mem_nil
  | cons c text ih =>
      have positive := length_encode_pos (a := a) c
      have others := length_le_encodeAll (a := a) text
      rw [encodeAll_cons, List.length_append, List.length_cons] at short
      rintro d (_ | ⟨_, member⟩)
      · omega
      · exact ih (by omega) d member

theorem decodeWithin_encodeAll {fuel : Nat} {text : List χ} (enough : text.length ≤ fuel) :
    a.decodeWithin fuel (a.encodeAll text) = text := by
  induction text generalizing fuel with
  | nil =>
      cases fuel with
      | zero => rfl
      | succ fuel =>
          rw [decodeWithin]
          split
          next => rfl
          next c rest read =>
            have split := a.encode_of_decode _ _ _ read
            exact absurd (List.append_eq_nil_iff.mp split.symm).1 (a.encode_ne_nil c)
  | cons c text ih =>
      obtain ⟨fuel, rfl⟩ := Nat.exists_eq_succ_of_ne_zero (Nat.ne_zero_of_lt enough)
      rw [decodeWithin, encodeAll_cons, a.decode_encode]
      exact congrArg (c :: ·) (ih (Nat.le_of_succ_le_succ enough))

theorem decodeAll_encodeAll (text : List χ) : a.decodeAll (a.encodeAll text) = text :=
  decodeWithin_encodeAll (length_le_encodeAll text)

theorem encodeAll_injective : Function.Injective a.encodeAll :=
  Function.LeftInverse.injective decodeAll_encodeAll

theorem encodeAll_decodeWithin (fuel : Nat) (units : List υ) :
    a.encodeAll (a.decodeWithin fuel units) <+: units := by
  induction fuel generalizing units with
  | zero => exact List.nil_prefix
  | succ fuel ih =>
      rw [decodeWithin]
      split
      next => exact List.nil_prefix
      next c rest read =>
        obtain ⟨left, same⟩ := ih rest
        rw [encodeAll_cons, a.encode_of_decode _ _ _ read]
        exact ⟨left, by rw [List.append_assoc, same]⟩

/-- What is read is what the units begin with. -/
theorem encodeAll_decodeAll (units : List υ) : a.encodeAll (a.decodeAll units) <+: units :=
  encodeAll_decodeWithin _ units

theorem encodeWithin_eq {room : Nat} {text : List χ}
    (enough : (a.encodeAll text).length ≤ room) :
    a.encodeWithin room text = a.encodeAll text := by
  induction text generalizing room with
  | nil => rfl
  | cons c text ih =>
      rw [encodeAll_cons, List.length_append] at enough
      rw [encodeWithin, if_pos (by omega), ih (by omega), encodeAll_cons]

theorem length_encodeAll_le {k : Nat}
    (each : ∀ c, (b.encode c).length ≤ k * (a.encode c).length) (text : List χ) :
    (b.encodeAll text).length ≤ k * (a.encodeAll text).length := by
  induction text with
  | nil => exact Nat.zero_le _
  | cons c text ih =>
      have first := each c
      rw [encodeAll_cons, encodeAll_cons, List.length_append, List.length_append, Nat.mul_add]
      omega

/-- What is read of the units is no longer in another code than that code can make it. -/
theorem length_transcoded_le {k : Nat}
    (each : ∀ c, (b.encode c).length ≤ k * (a.encode c).length) (units : List υ) :
    (b.encodeAll (a.decodeAll units)).length ≤ k * units.length :=
  Nat.le_trans (length_encodeAll_le each _)
    (Nat.mul_le_mul_left k (encodeAll_decodeAll units).length_le)

/-- Cutting the units at the first zero cuts the text at its first `nul`. -/
theorem takeWhile_encodeAll [DecidableEq χ] [DecidableEq υ] (text : List χ) :
    (a.encodeAll text).takeWhile (· ≠ a.zero) = a.encodeAll (text.takeWhile (· ≠ a.nul)) := by
  induction text with
  | nil => rfl
  | cons c text ih =>
      by_cases nul : c = a.nul
      · subst nul
        simp [a.encode_nul]
      · have plain : ∀ unit ∈ a.encode c, decide (unit ≠ a.zero) = true := by
          intro unit member
          refine decide_eq_true fun zero => nul ((a.zero_mem_iff c).mp ?_)
          rwa [zero] at member
        have kept : (c :: text).takeWhile (· ≠ a.nul) = c :: text.takeWhile (· ≠ a.nul) :=
          List.takeWhile_cons_of_pos (by simp [nul])
        rw [encodeAll_cons, List.takeWhile_append_of_pos plain, ih, kept, encodeAll_cons]

theorem zero_mem_encodeAll_iff (text : List χ) : a.zero ∈ a.encodeAll text ↔ a.nul ∈ text := by
  rw [encodeAll, List.mem_flatMap]
  constructor
  · rintro ⟨c, member, zero⟩
    rwa [(a.zero_mem_iff c).mp zero] at member
  · intro member
    exact ⟨a.nul, member, (a.zero_mem_iff a.nul).mpr rfl⟩

end

end Code
end CppToolkit.Codes
