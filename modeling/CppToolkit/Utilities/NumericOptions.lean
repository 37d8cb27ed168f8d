import CppToolkit.Utilities.ArgumentParser
import Mathlib.Algebra.Order.Ring.Int
import Mathlib.Data.List.TakeWhile

/-! Numeric options: the accessors of `ArgumentParser` read a value with `atoi` or `atol` and
cast the result. -/
namespace CppToolkit.Utilities.ArgumentParser

def isspace (c : UInt8) : Bool := c = 32 ∨ 9 ≤ c ∧ c ≤ 13

def isdigit (c : UInt8) : Bool := 48 ≤ c ∧ c ≤ 57

/-- The number that `strtol` reads in base ten, before it saturates. -/
def decimal (text : Token) : Int :=
  let rest := text.dropWhile isspace
  let signed := rest.head? = some 45 ∨ rest.head? = some 43
  let digits := (if signed then rest.tail else rest).takeWhile isdigit
  let value : Nat := digits.foldl (fun n c => 10 * n + (c.toNat - 48)) 0
  if rest.head? = some 45 then -value else value

/-- On a 64-bit `long`. -/
def strtol (text : Token) : Int64 := .ofIntClamp (decimal text)

def atol (text : Token) : Int64 := strtol text

def atoi (text : Token) : Int32 := (strtol text).toInt32

def toShort (arguments_ : Arguments) (key : Token) : Option Int16 :=
  (toString arguments_ key).map fun target => (atoi target).toInt16

def toUshort (arguments_ : Arguments) (key : Token) : Option UInt16 :=
  (toString arguments_ key).map fun target => (atoi target).toUInt32.toUInt16

def toInt (arguments_ : Arguments) (key : Token) : Option Int32 :=
  (toString arguments_ key).map fun target => atoi target

def toUint (arguments_ : Arguments) (key : Token) : Option UInt32 :=
  (toString arguments_ key).map fun target => (atoi target).toUInt32

def toLong (arguments_ : Arguments) (key : Token) : Option Int64 :=
  (toString arguments_ key).map fun target => atol target

def toUlong (arguments_ : Arguments) (key : Token) : Option UInt64 :=
  (toString arguments_ key).map fun target => (atol target).toUInt64

/-- The decimal numeral. -/
def numeral (n : Int) : Token := literal n.repr

inductive Accessor where
  | short | ushort | int | uint | long | ulong
  deriving DecidableEq, Repr

namespace Accessor

def call (arguments_ : Arguments) (key : Token) : Accessor → Option Int
  | .short => (toShort arguments_ key).map Int16.toInt
  | .ushort => (toUshort arguments_ key).map fun v => v.toNat
  | .int => (toInt arguments_ key).map Int32.toInt
  | .uint => (toUint arguments_ key).map fun v => v.toNat
  | .long => (toLong arguments_ key).map Int64.toInt
  | .ulong => (toUlong arguments_ key).map fun v => v.toNat

/-- The values of the result type. -/
def InRange (n : Int) : Accessor → Prop
  | .short => -2 ^ 15 ≤ n ∧ n < 2 ^ 15
  | .ushort => 0 ≤ n ∧ n < 2 ^ 16
  | .int => -2 ^ 31 ≤ n ∧ n < 2 ^ 31
  | .uint => 0 ≤ n ∧ n < 2 ^ 32
  | .long => -2 ^ 63 ≤ n ∧ n < 2 ^ 63
  | .ulong => 0 ≤ n ∧ n < 2 ^ 64

/-- A number of the result type is returned, and any other number does not become one. -/
def Keeps (a : Accessor) (n : Int) : Prop :=
  ∀ (arguments_ : Arguments) (key : Token), arguments_ key = some (numeral n) →
    (a.InRange n → a.call arguments_ key = some n) ∧
      (¬a.InRange n → ∀ m, a.call arguments_ key = some m → m = n)

end Accessor

theorem isDigit_bounds {c : Char} (digit : c.isDigit) : 48 ≤ c.toNat ∧ c.toNat ≤ 57 := by
  simp only [Char.isDigit, Bool.and_eq_true, decide_eq_true_iff, ge_iff_le,
    UInt32.le_iff_toNat_le] at digit
  exact digit

theorem toNat_toUInt8 {c : Char} (digit : c.isDigit) : c.toUInt8.toNat = c.toNat := by
  have bounds := isDigit_bounds digit
  exact Nat.mod_eq_of_lt (show c.toNat < 256 by omega)

theorem repr_digits {n : Nat} {c : Char} (member : c ∈ n.repr.toList) : c.isDigit := by
  rw [Nat.toList_repr] at member
  exact Nat.isDigit_of_mem_toDigits (by decide) (by decide) member

theorem literal_digits {n : Nat} {c : UInt8} (member : c ∈ literal n.repr) :
    48 ≤ c.toNat ∧ c.toNat ≤ 57 := by
  obtain ⟨d, inside, rfl⟩ := List.mem_map.mp member
  rw [toNat_toUInt8 (repr_digits inside)]
  exact isDigit_bounds (repr_digits inside)

theorem foldl_digits {digits : List Char} (all : ∀ c ∈ digits, c.isDigit) (n : Nat) :
    (digits.map Char.toUInt8).foldl (fun n c => 10 * n + (c.toNat - 48)) n =
      Nat.ofDigitChars 10 digits n := by
  induction digits generalizing n with
  | nil => rw [List.map_nil, List.foldl_nil, Nat.ofDigitChars_nil]
  | cons c digits ih =>
      rw [List.map_cons, List.foldl_cons, Nat.ofDigitChars_cons,
        ih fun d member => all d (List.mem_cons_of_mem _ member),
        toNat_toUInt8 (all c List.mem_cons_self)]
      rfl

theorem foldl_literal (n : Nat) :
    (literal n.repr).foldl (fun n c => 10 * n + (c.toNat - 48)) 0 = n := by
  rw [literal, foldl_digits fun c => repr_digits, Nat.toList_repr, Nat.ofDigitChars_ten_toDigits]

theorem takeWhile_digits (n : Nat) : (literal n.repr).takeWhile isdigit = literal n.repr := by
  refine List.takeWhile_eq_self_iff.mpr fun c member => ?_
  obtain ⟨low, high⟩ := literal_digits member
  exact decide_eq_true ⟨UInt8.le_iff_toNat_le.mpr low, UInt8.le_iff_toNat_le.mpr high⟩

/-- A numeral begins with a digit, and not with white space or a sign. -/
theorem literal_head (n : Nat) : ∃ c rest, literal n.repr = c :: rest ∧ isspace c = false ∧
    c ≠ 45 ∧ c ≠ 43 := by
  cases shape : literal n.repr with
  | nil =>
      rw [literal, List.map_eq_nil_iff, Nat.toList_repr] at shape
      exact absurd shape Nat.toDigits_ne_nil
  | cons c rest =>
      have bounds := literal_digits (n := n) (c := c) (shape ▸ List.mem_cons_self)
      refine ⟨c, rest, rfl, ?_, ?_, ?_⟩
      · refine decide_eq_false fun space => ?_
        rcases space with rfl | ⟨-, high⟩
        · exact absurd bounds.1 (by decide)
        · exact absurd (Nat.le_trans bounds.1 (UInt8.le_iff_toNat_le.mp high)) (by decide)
      · rintro rfl
        exact absurd bounds.1 (by decide)
      · rintro rfl
        exact absurd bounds.1 (by decide)

theorem decimal_natural (n : Nat) : decimal (literal n.repr) = n := by
  have whole := takeWhile_digits n
  have value := foldl_literal n
  obtain ⟨c, rest, shape, space, minus, plus⟩ := literal_head n
  rw [shape] at whole value ⊢
  have bare : (c :: rest).dropWhile isspace = c :: rest := by
    rw [List.dropWhile_cons, space, if_neg Bool.false_ne_true]
  unfold decimal
  rw [bare]
  dsimp only
  rw [List.head?_cons]
  simp only [Option.some.injEq, minus, plus, or_self, if_false]
  rw [whole, value]

theorem decimal_minus (n : Nat) : decimal (45 :: literal n.repr) = -n := by
  have bare : (45 :: literal n.repr).dropWhile isspace = 45 :: literal n.repr := by
    rw [List.dropWhile_cons, if_neg (by decide)]
  unfold decimal
  rw [bare]
  dsimp only
  rw [List.head?_cons]
  simp only [true_or, if_true]
  rw [List.tail_cons, takeWhile_digits, foldl_literal]

theorem decimal_numeral (n : Int) : decimal (numeral n) = n := by
  cases n with
  | ofNat n => exact decimal_natural n
  | negSucc n =>
      have shape : numeral (.negSucc n) = 45 :: literal (n + 1).repr := by
        rw [numeral, literal, Int.repr]
        change (("-" ++ (n + 1).repr).toList.map Char.toUInt8) = _
        rw [String.toList_append]
        rfl
      rw [shape, decimal_minus]
      rfl

theorem toInt_atol {n : Int} (low : -2 ^ 63 ≤ n) (high : n < 2 ^ 63) :
    (atol (numeral n)).toInt = n := by
  rw [atol, strtol, decimal_numeral]
  exact Int64.toInt_ofIntClamp low (Int.le_of_lt_add_one high)

theorem atol_high {n : Int} (high : 2 ^ 63 ≤ n) : atol (numeral n) = Int64.maxValue := by
  have low : Int64.minValue.toInt ≤ n := Int.le_trans (by decide) high
  have above : ¬n ≤ Int64.maxValue.toInt := Int.not_le.mpr (Int.lt_of_lt_of_le (by decide) high)
  rw [atol, strtol, decimal_numeral, Int64.ofIntClamp, dif_pos low, dif_neg above]

theorem toInt_atoi {n : Int} (low : -2 ^ 63 ≤ n) (high : n < 2 ^ 63) :
    (atoi (numeral n)).toInt = n.bmod (2 ^ 32) := by
  rw [atoi, Int64.toInt_toInt32]
  exact congrArg (Int.bmod · (2 ^ 32)) (toInt_atol low high)

theorem toNat_toUInt32 (v : Int32) : (v.toUInt32.toNat : Int) = v.toInt % 2 ^ 32 := by
  have wrapped : v.toInt = Int.bmod v.toUInt32.toNat (2 ^ 32) := BitVec.toInt_eq_toNat_bmod _
  have small := v.toUInt32.toNat_lt
  rw [wrapped]
  change _ = Int.bmod v.toUInt32.toNat (2 ^ 32) % ((2 ^ 32 : Nat) : Int)
  rw [Int.bmod_emod]
  omega

theorem toNat_toUInt64 (v : Int64) : (v.toUInt64.toNat : Int) = v.toInt % 2 ^ 64 := by
  have wrapped : v.toInt = Int.bmod v.toUInt64.toNat (2 ^ 64) := BitVec.toInt_eq_toNat_bmod _
  have small := v.toUInt64.toNat_lt
  rw [wrapped]
  change _ = Int.bmod v.toUInt64.toNat (2 ^ 64) % ((2 ^ 64 : Nat) : Int)
  rw [Int.bmod_emod]
  omega

theorem toNat_atoi {n : Int} (low : -2 ^ 63 ≤ n) (high : n < 2 ^ 63) :
    ((atoi (numeral n)).toUInt32.toNat : Int) = n % 2 ^ 32 := by
  rw [toNat_toUInt32, toInt_atoi low high]
  exact Int.bmod_emod

namespace Accessor
variable {arguments_ : Arguments} {key : Token} {a : Accessor} {n m : Int}

/-- What an accessor returns is a value of its type. -/
theorem inRange_of_call (called : a.call arguments_ key = some m) : a.InRange m := by
  cases a with
  | short =>
      obtain ⟨v, -, rfl⟩ := Option.map_eq_some_iff.mp called
      exact ⟨v.le_toInt, v.toInt_lt⟩
  | ushort =>
      obtain ⟨v, -, rfl⟩ := Option.map_eq_some_iff.mp called
      exact ⟨Int.natCast_nonneg _, Int.ofNat_lt.mpr v.toNat_lt⟩
  | int =>
      obtain ⟨v, -, rfl⟩ := Option.map_eq_some_iff.mp called
      exact ⟨v.le_toInt, v.toInt_lt⟩
  | uint =>
      obtain ⟨v, -, rfl⟩ := Option.map_eq_some_iff.mp called
      exact ⟨Int.natCast_nonneg _, Int.ofNat_lt.mpr v.toNat_lt⟩
  | long =>
      obtain ⟨v, -, rfl⟩ := Option.map_eq_some_iff.mp called
      exact ⟨v.le_toInt, v.toInt_lt⟩
  | ulong =>
      obtain ⟨v, -, rfl⟩ := Option.map_eq_some_iff.mp called
      exact ⟨Int.natCast_nonneg _, Int.ofNat_lt.mpr v.toNat_lt⟩

/-- A value under the key is always read as some number. -/
theorem exists_call {value : Token} (given : arguments_ key = some value) :
    ∃ m, a.call arguments_ key = some m := by
  have found : toString arguments_ key = some value := given
  cases a with
  | short => exact ⟨_, by rw [call, toShort, found]; rfl⟩
  | ushort => exact ⟨_, by rw [call, toUshort, found]; rfl⟩
  | int => exact ⟨_, by rw [call, toInt, found]; rfl⟩
  | uint => exact ⟨_, by rw [call, toUint, found]; rfl⟩
  | long => exact ⟨_, by rw [call, toLong, found]; rfl⟩
  | ulong => exact ⟨_, by rw [call, toUlong, found]; rfl⟩

/-- A number of the type is read as it is, but `atol` reads none from `2 ^ 63` on. -/
theorem call_eq (given : arguments_ key = some (numeral n)) (within : a.InRange n)
    (readable : a = .ulong → n < 2 ^ 63) : a.call arguments_ key = some n := by
  have found : toString arguments_ key = some (numeral n) := given
  cases a with
  | short =>
      obtain ⟨low, high⟩ := within
      have word : n.bmod (2 ^ 32) = n := Int.bmod_eq_of_le (by omega) (by omega)
      have half : n.bmod (2 ^ 16) = n := Int.bmod_eq_of_le (by omega) (by omega)
      rw [call, toShort, found, Option.map_some, Option.map_some, Int32.toInt_toInt16,
        toInt_atoi (by omega) (by omega), word, half]
  | ushort =>
      obtain ⟨low, high⟩ := within
      have wide := toNat_atoi (n := n) (by omega) (by omega)
      rw [call, toUshort, found, Option.map_some, Option.map_some, UInt32.toNat_toUInt16,
        Option.some_inj]
      omega
  | int =>
      obtain ⟨low, high⟩ := within
      rw [call, toInt, found, Option.map_some, Option.map_some, toInt_atoi (by omega) (by omega),
        Int.bmod_eq_of_le (by omega) (by omega)]
  | uint =>
      obtain ⟨low, high⟩ := within
      have wide := toNat_atoi (n := n) (by omega) (by omega)
      rw [call, toUint, found, Option.map_some, Option.map_some, Option.some_inj]
      omega
  | long =>
      rw [call, toLong, found, Option.map_some, Option.map_some, toInt_atol within.1 within.2]
  | ulong =>
      obtain ⟨low, -⟩ := within
      have high := readable rfl
      rw [call, toUlong, found, Option.map_some, Option.map_some, Option.some_inj, toNat_toUInt64,
        toInt_atol (by omega) high]
      omega

theorem call_ulong_high (given : arguments_ key = some (numeral n)) (high : 2 ^ 63 ≤ n) :
    Accessor.ulong.call arguments_ key = some (2 ^ 63 - 1) := by
  have found : toString arguments_ key = some (numeral n) := given
  rw [call, toUlong, found, Option.map_some, Option.map_some, atol_high high]
  rfl

/-- An accessor keeps exactly the numbers of its result type, and `to_ulong` only those below
`2 ^ 63`. -/
theorem keeps_number_iff (a : Accessor) (n : Int) :
    a.Keeps n ↔ a.InRange n ∧ (a = .ulong → n < 2 ^ 63) := by
  constructor
  · intro keeps
    let stored : Arguments := fun _ => some (numeral n)
    obtain ⟨inside, outside⟩ := keeps stored [] rfl
    have within : a.InRange n := by
      by_contra beyond
      obtain ⟨m, called⟩ : ∃ m, a.call stored [] = some m := exists_call rfl
      have same := outside beyond m called
      exact beyond (same ▸ inRange_of_call called)
    refine ⟨within, fun same => ?_⟩
    subst same
    by_contra big
    have high : 2 ^ 63 ≤ n := Int.not_lt.mp big
    have returned := (inside within).symm.trans (call_ulong_high rfl high)
    have value := Option.some.inj returned
    omega
  · intro condition arguments_ key given
    exact ⟨fun within => call_eq given within condition.2,
      fun beyond => absurd condition.1 beyond⟩

/-- `to_ulong` does not return `2 ^ 63`, a value of its type, and `to_short` returns another
number for 32768. -/
theorem to_ulong_saturates :
    ¬Accessor.ulong.Keeps (2 ^ 63) ∧
      Accessor.ulong.call (fun _ => some (literal "9223372036854775808")) (literal "--size") =
        some 9223372036854775807 ∧
      Accessor.short.call (fun _ => some (literal "32768")) (literal "--size") = some (-32768) := by
  refine ⟨fun keeps => ?_, by decide, by decide⟩
  let stored : Arguments := fun _ => some (numeral (2 ^ 63))
  have within : Accessor.ulong.InRange (2 ^ 63) := ⟨by decide, by decide⟩
  have returned := (keeps stored [] rfl).1 within
  have saturated : Accessor.ulong.call stored [] = some (2 ^ 63 - 1) :=
    call_ulong_high rfl (Int.le_refl _)
  exact absurd (Option.some.inj (returned.symm.trans saturated)) (by decide)

end Accessor

end CppToolkit.Utilities.ArgumentParser
