import Mathlib.Data.List.Basic
import Mathlib.Tactic.Common

/-! Loops without a condition, which only a `break` of their body ends. -/
namespace CppToolkit.Loops

variable {σ ρ : Type*}

/-- The loop with a bound on its turns; a turn goes on in a new state or leaves the loop. -/
def turns (body : σ → σ ⊕ ρ) : Nat → σ → Option ρ
  | 0, _ => none
  | fuel + 1, s =>
      match body s with
      | .inl t => turns body fuel t
      | .inr r => some r

/-- The states at the beginning of a turn. -/
inductive Reaches (body : σ → σ ⊕ ρ) (s : σ) : σ → Prop
  | start : Reaches body s s
  | turn {t u : σ} (before : Reaches body s t) (goes : body t = .inl u) : Reaches body s u

/-- With enough turns a bounded computation returns the value. -/
def Returns (f : Nat → Option ρ) (r : ρ) : Prop := ∃ n, ∀ m, n ≤ m → f m = some r

section
variable {body : σ → σ ⊕ ρ} {s t : σ} {r : ρ}

theorem turns_goes (goes : body s = .inl t) (fuel : Nat) :
    turns body (fuel + 1) s = turns body fuel t := by
  rw [turns, goes]

theorem turns_leaves (leaves : body s = .inr r) (fuel : Nat) : turns body (fuel + 1) s = some r := by
  rw [turns, leaves]

theorem returns_of_goes (goes : body s = .inl t) (returns : Returns (turns body · t) r) :
    Returns (turns body · s) r := by
  obtain ⟨n, enough⟩ := returns
  refine ⟨n + 1, fun m more => ?_⟩
  obtain ⟨m, rfl⟩ := Nat.exists_eq_add_of_le' (Nat.le_trans (Nat.le_add_left 1 n) more)
  dsimp only
  rw [turns_goes goes]
  exact enough m (Nat.le_of_succ_le_succ more)

theorem returns_of_leaves (leaves : body s = .inr r) : Returns (turns body · s) r := by
  refine ⟨1, fun m more => ?_⟩
  obtain ⟨m, rfl⟩ := Nat.exists_eq_add_of_le' more
  exact turns_leaves leaves m

/-- A loop that returns leaves from a state that it has reached. -/
theorem exists_leaves {fuel : Nat} (returned : turns body fuel s = some r) :
    ∃ t, Reaches body s t ∧ body t = .inr r := by
  suffices ∀ t, Reaches body s t → turns body fuel t = some r →
      ∃ u, Reaches body s u ∧ body u = .inr r from this s .start returned
  clear returned
  induction fuel with
  | zero => exact fun t _ returned => nomatch returned
  | succ fuel ih =>
      intro t reached returned
      cases turned : body t with
      | inl u =>
          rw [turns_goes turned] at returned
          exact ih u (.turn reached turned) returned
      | inr q =>
          rw [turns_leaves turned] at returned
          exact ⟨t, reached, by rw [turned, Option.some.inj returned]⟩

/-- The loop ends if every turn that goes on makes a measure smaller. -/
theorem returns_of_measure (measure : σ → Nat) (I : σ → Prop)
    (keeps : ∀ s t, I s → body s = .inl t → I t ∧ measure t < measure s) (start : I s) :
    ∃ r, Returns (turns body · s) r := by
  induction size : measure s using Nat.strongRecOn generalizing s with
  | _ n ih =>
      cases turned : body s with
      | inr r => exact ⟨r, returns_of_leaves turned⟩
      | inl t =>
          obtain ⟨held, less⟩ := keeps s t start turned
          obtain ⟨r, returns⟩ := ih (measure t) (size ▸ less) held rfl
          exact ⟨r, returns_of_goes turned returns⟩

/-- A loop that goes on from every state in which an invariant holds never ends. -/
theorem turns_eq_none (I : σ → Prop) (goes : ∀ s, I s → ∃ t, body s = .inl t ∧ I t) (start : I s)
    (fuel : Nat) : turns body fuel s = none := by
  induction fuel generalizing s with
  | zero => rfl
  | succ fuel ih =>
      obtain ⟨t, turned, held⟩ := goes s start
      rw [turns_goes turned]
      exact ih held

theorem Returns.map {f : Nat → Option ρ} {τ : Type*} (returns : Returns f r) (g : ρ → τ) :
    Returns (fun n => (f n).map g) (g r) := by
  obtain ⟨n, enough⟩ := returns
  exact ⟨n, fun m more => congrArg (Option.map g) (enough m more)⟩

end

end CppToolkit.Loops
