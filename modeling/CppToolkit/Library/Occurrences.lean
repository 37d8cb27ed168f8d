import Mathlib.Data.List.Infix
import Mathlib.Order.Basic

/-! The occurrences of a token in a text, and the cutting of a text at them from left to right. -/
namespace CppToolkit.Occurrences

section
variable {α : Type*} {token text : List α}

/-- The pieces of a text between the occurrences of a token, of which each is the first in what
is left of the text. -/
inductive Cuts (token : List α) : List α → List (List α) → Prop
  | last {text : List α} (absent : ¬ token <:+: text) : Cuts token text [text]
  | cut {text piece rest : List α} {pieces : List (List α)}
      (split : text = piece ++ token ++ rest)
      (leftmost : ∀ front back, text = front ++ token ++ back → piece.length ≤ front.length)
      (cuts : Cuts token rest pieces) : Cuts token text (piece :: pieces)

namespace Cuts
variable {pieces others : List (List α)}

theorem ne_nil (cuts : Cuts token text pieces) : pieces ≠ [] := by
  cases cuts <;> exact List.cons_ne_nil _ _

/-- The text is its pieces with the token between them. -/
theorem intercalate (cuts : Cuts token text pieces) : token.intercalate pieces = text := by
  induction cuts with
  | last absent => exact List.intercalate_singleton
  | cut split leftmost cuts ih =>
      rw [List.intercalate_cons_of_ne_nil cuts.ne_nil, ih, split]

/-- There is one way to cut a text. -/
theorem unique (cuts : Cuts token text pieces) (again : Cuts token text others) :
    pieces = others := by
  induction cuts generalizing others with
  | last absent =>
      cases again with
      | last => rfl
      | cut split => exact absurd ⟨_, _, split.symm⟩ absent
  | cut split leftmost _ ih =>
      cases again with
      | last absent => exact absurd ⟨_, _, split.symm⟩ absent
      | cut split' leftmost' again =>
          have lengths := Nat.le_antisymm (leftmost _ _ split') (leftmost' _ _ split)
          have same := split.symm.trans split'
          rw [List.append_assoc, List.append_assoc] at same
          obtain ⟨rfl, tails⟩ := List.append_inj same lengths
          cases List.append_cancel_left tails
          rw [ih again]

end Cuts

end

section
variable {α : Type*} [DecidableEq α] {token text : List α}

/-- The position of the first occurrence. -/
def first (token : List α) : List α → Option Nat
  | [] => if token = [] then some 0 else none
  | b :: rest =>
      if token <+: b :: rest then some 0
      else (first token rest).map (· + 1)

theorem first_of_begins (here : token <+: text) : first token text = some 0 := by
  cases text with
  | nil => exact if_pos (List.prefix_nil.mp here)
  | cons b rest => exact if_pos here

theorem first_cons {b : α} (other : ¬ token <+: b :: rest) :
    first token (b :: rest) = (first token rest).map (· + 1) := if_neg other

theorem first_eq_none_iff : first token text = none ↔ ¬ token <:+: text := by
  induction text with
  | nil =>
      rw [List.infix_nil]
      by_cases empty : token = []
      · exact iff_of_false (by simp [first, empty]) (not_not_intro empty)
      · exact iff_of_true (if_neg empty) empty
  | cons b rest ih =>
      rw [List.infix_cons_iff, not_or]
      by_cases here : token <+: b :: rest
      · rw [first_of_begins here]
        exact iff_of_false nofun fun absent => absent.1 here
      · rw [first_cons here, Option.map_eq_none_iff, ih, and_iff_right here]

/-- A first occurrence has one part of the text before it and one behind it, and none is
further to the left. -/
theorem first_eq_some {k : Nat} (found : first token text = some k) :
    ∃ front back, text = front ++ token ++ back ∧ front.length = k ∧
      ∀ other behind, text = other ++ token ++ behind → k ≤ other.length := by
  induction text generalizing k with
  | nil =>
      by_cases empty : token = []
      · rw [first, if_pos empty] at found
        cases found
        exact ⟨[], [], by simp [empty], rfl, fun _ _ _ => Nat.zero_le _⟩
      · rw [first, if_neg empty] at found
        cases found
  | cons b rest ih =>
      by_cases here : token <+: b :: rest
      · rw [first_of_begins here] at found
        cases found
        obtain ⟨back, same⟩ := here
        exact ⟨[], back, same.symm, rfl, fun _ _ _ => Nat.zero_le _⟩
      · rw [first_cons here, Option.map_eq_some_iff] at found
        obtain ⟨k, found, rfl⟩ := found
        obtain ⟨front, back, split, rfl, leftmost⟩ := ih found
        refine ⟨b :: front, back, by rw [split]; rfl, rfl, fun other behind same => ?_⟩
        cases other with
        | nil => exact absurd ⟨behind, same.symm⟩ here
        | cons c other =>
            rw [List.cons_append, List.cons_append, List.cons.injEq] at same
            exact Nat.succ_le_succ (leftmost other behind same.2)

theorem first_eq_zero_iff : first token text = some 0 ↔ token <+: text := by
  refine ⟨fun found => ?_, first_of_begins⟩
  obtain ⟨front, back, split, empty, -⟩ := first_eq_some found
  rw [List.length_eq_zero_iff.mp empty, List.nil_append] at split
  exact ⟨back, split.symm⟩

theorem first_of_leftmost {front back : List α} (split : text = front ++ token ++ back)
    (leftmost : ∀ other behind, text = other ++ token ++ behind → front.length ≤ other.length) :
    first token text = some front.length := by
  cases found : first token text with
  | none => exact absurd ⟨front, back, split.symm⟩ (first_eq_none_iff.mp found)
  | some k =>
      obtain ⟨other, behind, split', rfl, before⟩ := first_eq_some found
      rw [Nat.le_antisymm (before front back split) (leftmost other behind split')]

/-- Every text can be cut at a token that is not empty. The induction is on the length of
what is left. -/
theorem exists_cuts (some_ : token ≠ []) (text : List α) : ∃ pieces, Cuts token text pieces := by
  induction size : text.length using Nat.strongRecOn generalizing text with
  | _ n ih =>
      cases found : first token text with
      | none => exact ⟨[text], .last (first_eq_none_iff.mp found)⟩
      | some k =>
          obtain ⟨piece, rest, split, rfl, leftmost⟩ := first_eq_some found
          have positive := List.length_pos_iff.mpr some_
          have lengths := congrArg List.length split
          simp only [List.length_append] at lengths
          obtain ⟨pieces, cuts⟩ := ih rest.length (by omega) rest rfl
          exact ⟨piece :: pieces, .cut split leftmost cuts⟩

end

end CppToolkit.Occurrences
