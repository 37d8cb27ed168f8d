import Mathlib.Data.List.Basic

/-! `std::remove_if` over a vector in place, with a predicate that changes a state. -/
namespace CppToolkit.RemoveIf

variable {σ α : Type}

/-- The vector is `kept`, the gap behind the new end so far, and what is still to be looked at. An
entry `a` that stays is moved to the front of the gap and leaves `moved a` behind, unless the gap
is empty. -/
def removeIf (test : σ → α → σ × Bool) (moved : α → α) :
    List α → List α → List α → σ → σ × List α × List α
  | kept, gap, [], s => (s, kept, gap)
  | kept, gap, a :: rest, s =>
      match test s a with
      | (t, true) => removeIf test moved kept (gap ++ [a]) rest t
      | (t, false) =>
          match gap with
          | [] => removeIf test moved (kept ++ [a]) [] rest t
          | _ :: gap => removeIf test moved (kept ++ [a]) (gap ++ [moved a]) rest t

/-- A predicate that changes nothing. -/
def stateless (test : α → Bool) (s : σ) (a : α) : σ × Bool := (s, test a)

section
variable {test : σ → α → σ × Bool} {moved : α → α} {q : α → Bool} {I : σ → Prop}

/-- With a predicate that answers as `q` does in every state it comes to: it is called once for
each entry in order, what stays is what `q` does not hold of, in order, and the gap is as long as
what `q` holds of. -/
theorem removeIf_spec {rest : List α} (keeps : ∀ s, ∀ a ∈ rest, I s → I (test s a).1)
    (answers : ∀ s, ∀ a ∈ rest, I s → (test s a).2 = q a) {s : σ} (start : I s)
    (kept gap : List α) :
    ∃ gap', removeIf test moved kept gap rest s =
        (rest.foldl (fun s a => (test s a).1) s, kept ++ rest.filter (fun a => !q a), gap') ∧
      gap'.length = gap.length + rest.countP q := by
  induction rest generalizing s kept gap with
  | nil => exact ⟨gap, by rw [removeIf, List.filter_nil, List.append_nil]; rfl, rfl⟩
  | cons a rest ih =>
      have keeps' : ∀ s, ∀ b ∈ rest, I s → I (test s b).1 :=
        fun s b member => keeps s b (List.mem_cons_of_mem _ member)
      have answers' : ∀ s, ∀ b ∈ rest, I s → (test s b).2 = q b :=
        fun s b member => answers s b (List.mem_cons_of_mem _ member)
      have next := keeps s a List.mem_cons_self start
      have answer := answers s a List.mem_cons_self start
      have tested : test s a = ((test s a).1, q a) := Prod.ext rfl answer
      cases holds : q a with
      | true =>
          rw [holds] at tested
          obtain ⟨gap', same, length⟩ := ih keeps' answers' next kept (gap ++ [a])
          refine ⟨gap', ?_, ?_⟩
          · rw [removeIf, tested, List.filter_cons_of_neg (by simp [holds]), List.foldl_cons]
            exact same
          · rw [length, List.countP_cons_of_pos holds, List.length_append, List.length_singleton]
            omega
      | false =>
          rw [holds] at tested
          have stays : kept ++ (a :: rest).filter (fun a => !q a) =
              kept ++ [a] ++ rest.filter (fun a => !q a) := by
            rw [List.filter_cons_of_pos (by simp [holds]), List.append_assoc]
            rfl
          rw [List.countP_cons_of_neg (by simp [holds]), stays, List.foldl_cons]
          cases gap with
          | nil =>
              obtain ⟨gap', same, length⟩ := ih keeps' answers' next (kept ++ [a]) []
              exact ⟨gap', by rw [removeIf, tested]; exact same, length⟩
          | cons b gap =>
              obtain ⟨gap', same, length⟩ := ih keeps' answers' next (kept ++ [a]) (gap ++ [moved a])
              refine ⟨gap', by rw [removeIf, tested]; exact same, ?_⟩
              rw [length, List.length_append, List.length_singleton, List.length_cons]

/-- With a predicate that changes nothing, what stays is a filter. -/
theorem removeIf_stateless (moved : α → α) (as : List α) (s : σ) :
    (removeIf (stateless q) moved [] [] as s).2.1 = as.filter fun a => !q a := by
  obtain ⟨gap', same, _⟩ := @removeIf_spec σ α (stateless q) moved q (fun _ => True) as
    (fun _ _ _ _ => trivial) (fun _ _ _ _ => rfl) s trivial [] []
  rw [same]
  rfl

end

end CppToolkit.RemoveIf
