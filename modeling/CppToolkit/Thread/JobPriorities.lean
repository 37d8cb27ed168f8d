import Mathlib.Algebra.Order.Ring.Int
import Mathlib.Data.List.Basic

/-! The priorities of the thread pool, in the order of their enumerators. -/
namespace CppToolkit.Thread

inductive JobPriorities where
  | top
  | high
  | normal
  | low
  | longTerm
  deriving DecidableEq, Repr

def JobPriorities.all : List JobPriorities := [.top, .high, .normal, .low, .longTerm]

end CppToolkit.Thread
