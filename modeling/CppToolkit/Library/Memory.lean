import CppToolkit.Library.Words

/-! Bounds-checked access to byte vectors. An access that the C++ code performs
without a check is modelled by one of these; a `Fault` is undefined behaviour. -/
namespace CppToolkit.Memory

inductive Fault where
  | readOutOfRange
  | writeOverrun
  | intOverflow
  | nullPointer
  deriving DecidableEq, Repr

abbrev Checked (α : Type) := Except Fault α

/-- The contents of a `std::vector<uint8_t>`, whose size stays below PTRDIFF_MAX. -/
abbrev ByteVector := { bytes : List UInt8 // bytes.length < 2 ^ 63 }

/-- `size_t` arithmetic on the 64-bit targets of the project. -/
def sizeMax : Nat := 2 ^ 64

/-- The size of a vector is in the range of `size_t`. -/
theorem lt_sizeMax {n : Nat} (small : n < 2 ^ 63) : n < sizeMax := Nat.lt_trans small (by decide)

def addSize (a b : Nat) : Nat := (a + b) % sizeMax

theorem addSize_of_lt {a b : Nat} (fits : a + b < sizeMax) : addSize a b = a + b :=
  Nat.mod_eq_of_lt fits

def subSize (a b : Nat) : Nat := (a + (sizeMax - b % sizeMax)) % sizeMax

theorem subSize_of_le {a b : Nat} (le : b ≤ a) (fits : a < sizeMax) : subSize a b = a - b := by
  have small : b % sizeMax = b := Nat.mod_eq_of_lt (by omega)
  have wrapped : a + (sizeMax - b) = (a - b) + sizeMax := by omega
  rw [subSize, small, wrapped, Nat.add_mod_right, Nat.mod_eq_of_lt (by omega)]

/-- Advancing a signed 32-bit cursor. -/
def addInt32 (a b : Nat) : Checked Nat :=
  if a + b < 2 ^ 31 then .ok (a + b) else .error .intOverflow

theorem addInt32_eq_ok_iff {a b c : Nat} : addInt32 a b = .ok c ↔ a + b < 2 ^ 31 ∧ c = a + b := by
  by_cases fits : a + b < 2 ^ 31
  · rw [addInt32, if_pos fits]
    constructor
    · intro same
      exact ⟨fits, (Except.ok.inj same).symm⟩
    · intro sum
      exact congrArg _ sum.2.symm
  · rw [addInt32, if_neg fits]
    exact ⟨nofun, fun sum => absurd sum.1 fits⟩

theorem addInt32_ok {a b : Nat} (fits : a + b < 2 ^ 31) : addInt32 a b = .ok (a + b) := if_pos fits

theorem ok_bind {α β : Type} (a : α) (f : α → Checked β) : (Except.ok a >>= f) = f a := rfl

theorem bind_eq_ok {α β : Type} {x : Checked α} {f : α → Checked β} {b : β} :
    (x >>= f) = .ok b ↔ ∃ a, x = .ok a ∧ f a = .ok b := by
  cases x with
  | error fault => simp [bind, Except.bind]
  | ok a => simp [bind, Except.bind]

theorem map_eq_ok {ε α β : Type} {x : Except ε α} {f : α → β} {b : β} :
    x.map f = .ok b ↔ ∃ a, x = .ok a ∧ f a = b := by
  cases x with
  | error e => simp [Except.map]
  | ok a => simp [Except.map]

/-- The computation meets no undefined behaviour. -/
def Safe {α : Type} (x : Checked α) : Prop := ∀ fault, x ≠ .error fault

theorem safe_ok {α : Type} (a : α) : Safe (.ok a) := fun _ same => by cases same

theorem not_safe_error {α : Type} (fault : Fault) : ¬ Safe (.error fault : Checked α) :=
  fun safe => safe fault rfl

/-- An access outside a buffer. -/
def Fault.outOfRange : Fault → Bool
  | .readOutOfRange => true
  | .writeOverrun => true
  | _ => false

/-- The computation accesses no buffer outside its range. -/
def InRange {α : Type} (x : Checked α) : Prop := ∀ fault, x = .error fault → fault.outOfRange = false

theorem inRange_ok {α : Type} (a : α) : InRange (.ok a) := fun _ same => by cases same

theorem inRange_map_iff {α β : Type} {x : Checked α} {f : α → β} :
    InRange (x.map f) ↔ InRange x := by
  cases x with
  | error fault =>
      constructor
      · intro inRange other same
        cases same
        exact inRange _ rfl
      · intro inRange other same
        cases same
        exact inRange _ rfl
  | ok a => exact ⟨fun _ => inRange_ok a, fun _ => inRange_ok (f a)⟩

/-- What follows a computation decides, if only accesses can stop the computation. -/
theorem inRange_bind_iff {α β : Type} {x : Checked α} {f : α → Checked β}
    (accesses : ∀ fault, x = .error fault → fault.outOfRange = true)
    (rest : ∀ a, InRange (f a)) : InRange (x >>= f) ↔ Safe x := by
  cases x with
  | error fault =>
      have access := accesses fault rfl
      constructor
      · intro inRange
        have inside := inRange fault rfl
        rw [access] at inside
        cases inside
      · intro safe
        exact absurd rfl (safe fault)
  | ok a => exact ⟨fun _ => safe_ok a, fun _ => rest a⟩

theorem error_of_bind {α β : Type} {x : Checked α} {f : α → Checked β} {fault : Fault}
    (failed : (x >>= f) = .error fault) : x = .error fault ∨ ∃ a, f a = .error fault := by
  cases x with
  | error other =>
      cases failed
      exact .inl rfl
  | ok a => exact .inr ⟨a, failed⟩

/-- Reading `count` bytes from `offset` on, as memcpy or an iterator range does. -/
def readRange (data : List UInt8) (offset count : Nat) : Checked (List UInt8) :=
  if offset + count ≤ data.length then .ok ((data.drop offset).take count)
  else .error .readOutOfRange

theorem readRange_ok {data : List UInt8} {offset count : Nat}
    (inside : offset + count ≤ data.length) :
    readRange data offset count = .ok ((data.drop offset).take count) := if_pos inside

theorem readRange_eq_ok_iff {data bytes : List UInt8} {offset count : Nat} :
    readRange data offset count = .ok bytes ↔
      offset + count ≤ data.length ∧ bytes = (data.drop offset).take count := by
  unfold readRange
  split
  next inside => simp [inside, eq_comm]
  next outside => simp [outside]

/-- memcpy of `count` bytes at `offset` into a buffer of `capacity` bytes. -/
def copyInto (capacity : Nat) (data : List UInt8) (offset count : Nat) : Checked (List UInt8) :=
  if capacity < count then .error .writeOverrun else readRange data offset count

theorem copyInto_ok {capacity offset count : Nat} {data : List UInt8} (bounded : count ≤ capacity)
    (inside : offset + count ≤ data.length) :
    copyInto capacity data offset count = .ok ((data.drop offset).take count) := by
  rw [copyInto, if_neg (Nat.not_lt.mpr bounded), readRange_ok inside]

theorem copyInto_eq_ok_iff {capacity offset count : Nat} {data bytes : List UInt8} :
    copyInto capacity data offset count = .ok bytes ↔
      count ≤ capacity ∧ offset + count ≤ data.length ∧
        bytes = (data.drop offset).take count := by
  unfold copyInto
  split
  next beyond => simp [Nat.not_le.mpr beyond]
  next fits => simp [Nat.le_of_not_lt fits, readRange_eq_ok_iff]

end CppToolkit.Memory
