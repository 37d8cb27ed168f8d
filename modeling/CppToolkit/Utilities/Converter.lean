import Mathlib.Algebra.Order.Ring.Int
import Mathlib.Data.List.Basic

/-! Strings and byte vectors. A `std::string` is its list of bytes. -/
namespace CppToolkit.Utilities.Converter

def toArray (value : List UInt8) : List UInt8 := value

/-- A UTF-8 byte order mark makes the conversion drop the first two bytes. -/
def toString (value : List UInt8) : List UInt8 :=
  if [0xef, 0xbb, 0xbf] <+: value then value.drop 2 else value

/-- The bytes of a string as they appear in a message. -/
def text (value : List UInt8) : String := String.ofList (value.map fun b => Char.ofNat b.toNat)

def hasByteOrderMark (value : List UInt8) : Prop := [0xef, 0xbb, 0xbf] <+: value

instance (value : List UInt8) : Decidable (hasByteOrderMark value) :=
  inferInstanceAs (Decidable (_ <+: _))

theorem toString_toArray {value : List UInt8} (plain : ¬ hasByteOrderMark value) :
    toString (toArray value) = value := if_neg plain

/-- What `toString` returns never starts with a byte order mark again. -/
theorem toString_plain (value : List UInt8) : ¬ hasByteOrderMark (toString value) := by
  unfold toString
  split
  next marked =>
    obtain ⟨rest, rfl⟩ := marked
    rintro ⟨more, same⟩
    simp at same
  next plain => exact plain

end CppToolkit.Utilities.Converter
