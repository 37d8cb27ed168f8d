import Mathlib.Logic.Function.Basic
import Mathlib.Order.Basic

/-! Promises of the standard library, each with the state that it shares with its future. -/
namespace CppToolkit.Futures

/-- Why a call throws `std::future_error`. -/
inductive FutureError where
  | futureAlreadyRetrieved
  | promiseAlreadySatisfied
  deriving DecidableEq, Repr

structure SharedState where
  retrieved : Bool
  satisfied : Bool
  deriving DecidableEq, Repr

/-- The promises that have been made, numbered. -/
structure Promises where
  made : Nat
  states : Nat → SharedState

namespace Promises

def empty : Promises := ⟨0, fun _ => ⟨false, false⟩⟩

def update (f : Promises) (p : Nat) (state : SharedState) : Promises :=
  { f with states := Function.update f.states p state }

/-- The new promise is the one with the number `made`. -/
def make (f : Promises) : Promises :=
  ⟨f.made + 1, Function.update f.states f.made ⟨false, false⟩⟩

def getFuture (f : Promises) (p : Nat) : Except FutureError Promises :=
  if (f.states p).retrieved then .error .futureAlreadyRetrieved
  else .ok (f.update p { f.states p with retrieved := true })

def setValue (f : Promises) (p : Nat) : Except FutureError Promises :=
  if (f.states p).satisfied then .error .promiseAlreadySatisfied
  else .ok (f.update p { f.states p with satisfied := true })

section
variable {f : Promises} {p : Nat}

@[simp] theorem update_self (state : SharedState) : (f.update p state).states p = state :=
  Function.update_self ..

@[simp] theorem make_self : f.make.states f.made = ⟨false, false⟩ := Function.update_self ..

theorem update_of_ne {q : Nat} (state : SharedState) (other : q ≠ p) :
    (f.update p state).states q = f.states q := Function.update_of_ne other _ _

theorem getFuture_once (fresh : (f.states p).retrieved = false) :
    f.getFuture p = .ok (f.update p { f.states p with retrieved := true }) := by
  rw [getFuture, fresh]
  rfl

/-- The future of a new promise. -/
theorem make_getFuture (f : Promises) :
    f.make.getFuture f.made = .ok (f.make.update f.made ⟨true, false⟩) := by
  rw [getFuture_once (congrArg SharedState.retrieved make_self), make_self]

theorem getFuture_again (retrieved : (f.states p).retrieved = true) :
    f.getFuture p = .error .futureAlreadyRetrieved :=
  if_pos retrieved

theorem setValue_again (satisfied : (f.states p).satisfied = true) :
    f.setValue p = .error .promiseAlreadySatisfied :=
  if_pos satisfied

theorem setValue_once (unset : (f.states p).satisfied = false) :
    f.setValue p = .ok (f.update p { f.states p with satisfied := true }) := by
  rw [setValue, unset]
  rfl

end

end Promises
end CppToolkit.Futures
