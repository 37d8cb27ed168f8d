import Mathlib.Algebra.Order.Ring.Int
import Mathlib.Data.List.Basic
import Mathlib.Tactic.Common

/-! Fixed-width little-endian words over byte lists. Nothing here depends on a
particular program: a word of `n` bytes is written low byte first and read back. -/
namespace CppToolkit.Words

/-- The `n` low bytes of `v`, least significant first. -/
def leWord : Nat → Nat → List UInt8
  | 0, _ => []
  | n+1, v => UInt8.ofNat v :: leWord n (v / 256)

def leValue : List UInt8 → Nat
  | [] => 0
  | b :: bs => b.toNat + 256 * leValue bs

@[simp] theorem leWord_length (n v : Nat) : (leWord n v).length = n := by
  induction n generalizing v with
  | zero => rfl
  | succ n ih => simp only [leWord, List.length_cons, ih]

theorem leValue_leWord_mod (n v : Nat) : leValue (leWord n v) = v % 256 ^ n := by
  induction n generalizing v with
  | zero => simp [leWord, leValue, Nat.mod_one]
  | succ n ih =>
      have split : v % (256 * 256 ^ n) = v % 256 + 256 * (v / 256 % 256 ^ n) := Nat.mod_mul
      rw [leWord, leValue, ih, Nat.pow_succ, Nat.mul_comm (256 ^ n), split]
      simp [UInt8.toNat_ofNat']

theorem leValue_leWord {n v : Nat} (fits : v < 256 ^ n) : leValue (leWord n v) = v := by
  rw [leValue_leWord_mod, Nat.mod_eq_of_lt fits]

theorem leValue_lt (bs : List UInt8) : leValue bs < 256 ^ bs.length := by
  induction bs with
  | nil => simp [leValue]
  | cons b bs ih =>
      have byte := b.toNat_lt
      rw [leValue, List.length_cons, Nat.pow_succ]
      omega

/-- Every byte list is the word of its value. -/
theorem leWord_leValue (bs : List UInt8) : leWord bs.length (leValue bs) = bs := by
  induction bs with
  | nil => rfl
  | cons b bs ih =>
      have byte : b.toNat < 256 := b.toNat_lt
      have high : (b.toNat + 256 * leValue bs) / 256 = leValue bs := by omega
      have low : UInt8.ofNat (b.toNat + 256 * leValue bs) = b := by
        apply UInt8.toNat_inj.mp
        rw [UInt8.toNat_ofNat']
        omega
      rw [leValue, List.length_cons, leWord, high, low, ih]

/-- Two's-complement reading of a 32-bit word. -/
def toInt32 (v : Nat) : Int :=
  if v < 2 ^ 31 then v else (v : Int) - 2 ^ 32

theorem toInt32_of_lt {v : Nat} (small : v < 2 ^ 31) : toInt32 v = v := by
  rw [toInt32, if_pos small]

end CppToolkit.Words
