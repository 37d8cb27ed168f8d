import CppToolkit.Library.LexicalPath

/-! The names that the generator makes of five numbers: different numbers make different names. -/
namespace CppToolkit.Utilities.Generator
open LexicalPath

/-- A digit of `{:X}`. -/
def hexDigit (n : Nat) : UInt8 := UInt8.ofNat (if n < 10 then 48 + n else 55 + n)

/-- `{:04X}` of a number with 16 bits. -/
def hex (n : UInt16) : List UInt8 :=
  [hexDigit (n.toNat / 4096), hexDigit (n.toNat / 256 % 16), hexDigit (n.toNat / 16 % 16),
    hexDigit (n.toNat % 16)]

/-- The five numbers that `guid` draws. -/
structure Numbers where
  first : UInt16
  second : UInt16
  third : UInt16
  fourth : UInt16
  fifth : UInt16
  deriving DecidableEq, Repr

def dash : UInt8 := 45

def guid (numbers : Numbers) : List UInt8 :=
  hex numbers.first ++ dash :: (hex numbers.second ++ dash :: (hex numbers.third ++
    dash :: (hex numbers.fourth ++ dash :: hex numbers.fifth)))

theorem hexDigit_inj : ∀ m < 16, ∀ n < 16, hexDigit m = hexDigit n → m = n := by decide

theorem hexDigit_ne_dot : ∀ n < 16, hexDigit n ≠ dot := by decide

theorem hex_inj {m n : UInt16} (same : hex m = hex n) : m = n := by
  simp only [hex, List.cons.injEq, and_true] at same
  have small := m.toNat_lt
  have small' := n.toNat_lt
  have one := hexDigit_inj _ (by omega) _ (by omega) same.1
  have two := hexDigit_inj _ (by omega) _ (by omega) same.2.1
  have three := hexDigit_inj _ (by omega) _ (by omega) same.2.2.1
  have four := hexDigit_inj _ (by omega) _ (by omega) same.2.2.2
  exact UInt16.toNat_inj.mp (by omega)

theorem guid_injective : Function.Injective guid := by
  intro m n same
  have cut : ∀ {x y : UInt16} {front back : List UInt8}, hex x ++ front = hex y ++ back →
      x = y ∧ front = back := by
    intro x y front back same
    obtain ⟨here, behind⟩ := List.append_inj same rfl
    exact ⟨hex_inj here, behind⟩
  obtain ⟨one, same⟩ := cut same
  obtain ⟨two, same⟩ := cut (List.cons.inj same).2
  obtain ⟨three, same⟩ := cut (List.cons.inj same).2
  obtain ⟨four, same⟩ := cut (List.cons.inj same).2
  have five := hex_inj (List.cons.inj same).2
  cases m
  cases n
  cases one
  cases two
  cases three
  cases four
  cases five
  rfl

theorem guid_ne_nil (numbers : Numbers) : guid numbers ≠ [] := List.cons_ne_nil _ _

theorem dot_notMem_hex (n : UInt16) : dot ∉ hex n := by
  have small := n.toNat_lt
  simp only [hex, List.mem_cons, List.not_mem_nil, or_false, not_or]
  exact ⟨(hexDigit_ne_dot _ (by omega)).symm, (hexDigit_ne_dot _ (by omega)).symm,
    (hexDigit_ne_dot _ (by omega)).symm, (hexDigit_ne_dot _ (by omega)).symm⟩

/-- A name is one component of a path without an extension. -/
theorem dot_notMem_guid (numbers : Numbers) : dot ∉ guid numbers := by
  have dashed : dot ≠ dash := by decide
  simp only [guid, List.mem_append, List.mem_cons, dot_notMem_hex, dashed, or_self,
    not_false_eq_true]

end CppToolkit.Utilities.Generator
