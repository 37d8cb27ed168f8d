import CppToolkit.Utilities.Combiner

/-! The range that `divide` copies, and which length words keep it inside the source. -/
namespace CppToolkit.Utilities.Combiner
open Words Memory

/-- The start and the length of the copy, where the tests of `divide` let it come to one. -/
def copies (source : List UInt8) (index : Nat) : Option (Nat × Nat) :=
  if source = [] then none
  else if source.length < addSize index sizeBytes then none
  else
    let temp := wordAt source index
    let index := addSize index sizeBytes
    if temp = 0 ∨ source.length < addSize index temp then none else some (index, temp)

/-- Every copy of `divide` reads a range of the source, of which the sum does not wrap, makes a
field of it and moves the cursor forward inside the source. -/
def Bounded (source : List UInt8) (index : Nat) : Prop :=
  ∀ start length, copies source index = some (start, length) →
    start ≤ addSize start length ∧ addSize start length ≤ source.length ∧
      start + length < sizeMax ∧ ∃ field next, divide source index = .ok (field, next) ∧
        field.length = length ∧ index < next ∧ next ≤ source.length

section
variable {source : List UInt8} {index : Nat}

theorem copies_truncated (small : source.length < 2 ^ 63) (inside : index ≤ source.length)
    (truncated : source.length < index + 8) : copies source index = none := by
  have plain : addSize index sizeBytes = index + 8 :=
    addSize_of_lt (by simp only [sizeBytes, sizeMax]; omega)
  unfold copies
  by_cases empty : source = []
  · rw [if_pos empty]
  · rw [if_neg empty, plain, if_pos truncated]

theorem copies_word (small : source.length < 2 ^ 63) (fits : index + 8 ≤ source.length) :
    copies source index =
      if wordAt source index = 0 ∨ source.length < addSize (index + 8) (wordAt source index) then none
      else some (index + 8, wordAt source index) := by
  have plain : addSize index sizeBytes = index + 8 :=
    addSize_of_lt (by simp only [sizeBytes, sizeMax]; omega)
  have nonempty : source ≠ [] := by
    rintro rfl
    simp at fits
  rw [copies, if_neg nonempty, plain, if_neg (by omega)]

/-- A word that leads past the range of `size_t` passes the tests. -/
theorem copies_wraps (small : source.length < 2 ^ 63) (wraps : Wraps source index) :
    copies source index = some (index + 8, wordAt source index) := by
  obtain ⟨fits, wraps⟩ := wraps
  have word := wordAt_lt source index
  have size : sizeMax = 2 ^ 64 := rfl
  rw [copies_word small fits, addSize_wraps small fits wraps, if_neg (by omega)]

/-- Where `divide` comes to a copy, the copy alone decides what it returns. -/
theorem divide_copies (small : source.length < 2 ^ 63) (inside : index ≤ source.length)
    {start length : Nat} (copied : copies source index = some (start, length)) :
    start = index + 8 ∧ length = wordAt source index ∧
      divide source index = (readRange source start length).map
        fun range => (range.reverse, addSize start length) := by
  by_cases truncated : source.length < index + 8
  · rw [copies_truncated small inside truncated] at copied
    cases copied
  have fits := Nat.le_of_not_lt truncated
  rw [copies_word small fits] at copied
  rw [divide_word (lt_sizeMax small) fits]
  split at copied
  next => cases copied
  next comes =>
    obtain ⟨rfl, rfl⟩ := Prod.mk.inj (Option.some.inj copied)
    exact ⟨rfl, rfl, if_neg comes⟩

end

/-- The copies of `divide` are in bounds if and only if the length word at the cursor, where it
is there, does not lead past the range of `size_t`. -/
theorem divide_bounded_iff (source : ByteVector) {index : Nat} (inside : index ≤ source.val.length) :
    Bounded source.val index ↔ ¬ Wraps source.val index := by
  obtain ⟨source, small⟩ := source
  dsimp only at inside ⊢
  constructor
  · intro bounded wraps
    have plain := (bounded _ _ (copies_wraps small wraps)).2.2.1
    exact absurd wraps.2 (Nat.not_le_of_lt plain)
  · intro plain start length copied
    obtain ⟨rfl, rfl, _⟩ := divide_copies small inside copied
    have fits : index + 8 ≤ source.length := by
      by_contra truncated
      rw [copies_truncated small inside (by omega)] at copied
      cases copied
    have sum : index + 8 + wordAt source index < sizeMax := by
      by_contra wraps
      exact plain ⟨fits, by omega⟩
    rw [copies_word small fits, addSize_of_lt sum] at copied
    split at copied
    next => cases copied
    next comes =>
    have whole : Whole source index := by
      simp only [Whole]
      omega
    have behind := whole.2
    refine ⟨by rw [addSize_of_lt sum]; omega, by rw [addSize_of_lt sum]; omega, sum, _, _,
      divide_complete (lt_sizeMax small) whole.1 behind, ?_, by omega, behind⟩
    rw [List.length_reverse, List.length_take, List.length_drop]
    omega

/-- A whole field of two bytes. -/
theorem divide_bounded_iff_two : Bounded [2, 0, 0, 0, 0, 0, 0, 0, 7, 8] 0 :=
  (divide_bounded_iff ⟨[2, 0, 0, 0, 0, 0, 0, 0, 7, 8], by decide⟩ (Nat.zero_le _)).mpr
    (by decide +kernel)

/-- The sum of 8 and the length word 2^64 - 8 is 0. -/
theorem divide_copies_beyond :
    ¬ ∀ (source : ByteVector) (index : Nat), index ≤ source.val.length → Bounded source.val index := by
  intro bounded
  let source : List UInt8 := [0xf8, 0xff, 0xff, 0xff, 0xff, 0xff, 0xff, 0xff]
  have copied : copies source 0 = some (8, 2 ^ 64 - 8) := by decide +kernel
  have sum := (bounded ⟨source, by decide⟩ 0 (Nat.zero_le _) _ _ copied).2.2.1
  have size : sizeMax = 2 ^ 64 := rfl
  omega

end CppToolkit.Utilities.Combiner
