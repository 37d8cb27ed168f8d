import Mathlib.Data.List.Perm.Basic

/-! Lists used as bags: any element may be the next one taken, so that a list of
pending work stands for every order in which it can be served. -/
namespace CppToolkit.Bag

variable {α : Type*}

def takeAt (bag : List α) (position : Nat) : Option (α × List α) :=
  bag[position]?.map fun a => (a, bag.eraseIdx position)

theorem takeAt_perm {bag rest : List α} {position : Nat} {a : α}
    (taken : takeAt bag position = some (a, rest)) : bag.Perm (a :: rest) := by
  obtain ⟨b, found, same⟩ := Option.map_eq_some_iff.mp taken
  obtain ⟨inside, rfl⟩ := List.getElem?_eq_some_iff.mp found
  cases same
  exact (List.getElem_cons_eraseIdx_perm inside).symm

theorem takeAt_mem {bag rest : List α} {position : Nat} {a : α}
    (taken : takeAt bag position = some (a, rest)) : a ∈ bag :=
  (takeAt_perm taken).mem_iff.mpr List.mem_cons_self

theorem mem_iff_of_takeAt {bag rest : List α} {position : Nat} {a b : α}
    (taken : takeAt bag position = some (a, rest)) : b ∈ bag ↔ b = a ∨ b ∈ rest := by
  rw [(takeAt_perm taken).mem_iff, List.mem_cons]

theorem mem_of_takeAt {bag rest : List α} {position : Nat} {a b : α}
    (taken : takeAt bag position = some (a, rest)) (member : b ∈ rest) : b ∈ bag :=
  (mem_iff_of_takeAt taken).mpr (.inr member)

theorem takeAt_succ (x : α) (bag : List α) (position : Nat) :
    takeAt (x :: bag) (position + 1) =
      (takeAt bag position).map fun taken => (taken.1, x :: taken.2) := by
  simp only [takeAt, List.getElem?_cons_succ, List.eraseIdx_cons_succ, Option.map_map]
  rfl

/-- Taking from a list takes the partner from a list that goes with it. -/
theorem takeAt_forall₂ {β : Type*} {R : α → β → Prop} {bag : List α} {partners : List β}
    (paired : List.Forall₂ R bag partners) {position : Nat} {a : α} {rest : List α}
    (taken : takeAt bag position = some (a, rest)) :
    ∃ b left, R a b ∧ List.Forall₂ R rest left ∧ partners.Perm ([b] ++ left) := by
  induction paired generalizing position rest with
  | nil => cases taken
  | @cons x y bag partners related paired ih =>
      cases position with
      | zero =>
          cases taken
          exact ⟨y, partners, related, paired, .refl _⟩
      | succ position =>
          rw [takeAt_succ] at taken
          obtain ⟨⟨b, left⟩, found, same⟩ := Option.map_eq_some_iff.mp taken
          cases same
          obtain ⟨partner, others, fits, still, perm⟩ := ih found
          exact ⟨partner, y :: others, fits, .cons related still,
            (perm.cons y).trans (List.Perm.swap partner y others)⟩

/-- What is taken out of one part of a list and put behind the next is still there. -/
theorem perm_passed {bag rest : List α} {a : α} (taken : bag.Perm (a :: rest))
    (middle after : List α) : (rest ++ (middle ++ a :: after)).Perm (bag ++ (middle ++ after)) := by
  have first : (rest ++ (middle ++ a :: after)).Perm (a :: rest ++ (middle ++ after)) :=
    (List.perm_middle.append_left rest).trans List.perm_middle
  exact first.trans (taken.symm.append_right _)

/-- No two elements of the list have the property. -/
def AtMostOne (P : α → Prop) (as : List α) : Prop := as.Pairwise fun a b => ¬ (P a ∧ P b)

section
variable {P : α → Prop} {as bs : List α}

theorem atMostOne_of_none (none_ : ∀ a ∈ as, ¬ P a) : AtMostOne P as :=
  List.pairwise_of_forall_mem_list fun a here _ _ both => none_ a here both.1

theorem atMostOne_singleton (P : α → Prop) (a : α) : AtMostOne P [a] := List.pairwise_singleton _ a

theorem atMostOne_append : AtMostOne P (as ++ bs) ↔
    AtMostOne P as ∧ AtMostOne P bs ∧ ¬ ((∃ a ∈ as, P a) ∧ ∃ b ∈ bs, P b) := by
  rw [AtMostOne, List.pairwise_append]
  refine and_congr_right fun _ => and_congr_right fun _ => ?_
  constructor
  · rintro apart ⟨⟨a, first, one⟩, b, second, two⟩
    exact apart a first b second ⟨one, two⟩
  · intro apart a first b second both
    exact apart ⟨⟨a, first, both.1⟩, b, second, both.2⟩

/-- What comes later has one only where nothing before has. -/
theorem atMostOne_append_of_silent (silent : (∃ b ∈ bs, P b) → ∀ a ∈ as, ¬ P a) :
    AtMostOne P (as ++ bs) ↔ AtMostOne P as ∧ AtMostOne P bs := by
  rw [atMostOne_append]
  refine and_congr_right fun _ => and_iff_left ?_
  rintro ⟨⟨a, first, one⟩, later⟩
  exact silent later a first one

end

end CppToolkit.Bag
