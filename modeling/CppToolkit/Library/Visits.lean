import Mathlib.Data.List.Basic
import Mathlib.Data.List.ReduceOption

/-! A `for` loop with `continue` and an early return at the first error, over given elements and
over elements that change a state. -/
namespace CppToolkit.Visits

variable {α β ε : Type}

/-- The loop over `as` from a position on: the elements it did something with, and its
reply. A body that comes to `none` has met `continue`. -/
def visits (body : Nat → α → Option (β × Except ε Unit)) :
    Nat → List α → List (Nat × β) × Except ε Unit
  | _, [] => ([], .ok ())
  | position, a :: rest =>
      match body position a with
      | none => visits body (position + 1) rest
      | some (b, .error what) => ([(position, b)], .error what)
      | some (b, .ok ()) =>
          let (more, reply) := visits body (position + 1) rest
          ((position, b) :: more, reply)

section
variable {body : Nat → α → Option (β × Except ε Unit)} {fails : α → Prop}

/-- What a pass makes of the elements behind it. -/
theorem mem_visits_cons {k position : Nat} {a : α} {rest : List α} {b : β}
    (behind : k < position) :
    (position, b) ∈ (visits body k (a :: rest)).1 ↔
      (∀ c what, body k a ≠ some (c, .error what)) ∧
        (position, b) ∈ (visits body (k + 1) rest).1 := by
  rw [visits]
  split
  next skipped =>
    refine (and_iff_right fun c what failed => ?_).symm
    cases skipped.symm.trans failed
  next c what failed =>
    constructor
    · intro member
      cases List.mem_singleton.mp member
      exact absurd behind (Nat.lt_irrefl _)
    · rintro ⟨passes, _⟩
      exact absurd failed (passes c what)
  next c did =>
    constructor
    · intro member
      rcases List.mem_cons.mp member with here | later
      · cases here
        exact absurd behind (Nat.lt_irrefl _)
      · refine ⟨fun d what failed => ?_, later⟩
        cases did.symm.trans failed
    · exact fun ⟨_, later⟩ => List.mem_cons_of_mem _ later

theorem mem_visits_from_iff
    (failing : ∀ position a, (∃ b what, body position a = some (b, .error what)) ↔ fails a)
    {k : Nat} {front back : List α} {a : α} {b : β} {reply : Except ε Unit}
    (did : body (k + front.length) a = some (b, reply)) :
    (k + front.length, b) ∈ (visits body k (front ++ a :: back)).1 ↔ ∀ x ∈ front, ¬ fails x := by
  induction front generalizing k with
  | nil =>
      refine iff_of_true ?_ fun _ member => (by cases member)
      change body k a = _ at did
      rw [List.nil_append, visits, did]
      cases reply <;> exact List.mem_cons_self
  | cons x rest ih =>
      have shift : k + (x :: rest).length = (k + 1) + rest.length := by
        rw [List.length_cons]
        omega
      rw [shift] at did ⊢
      rw [List.cons_append, mem_visits_cons (by omega), ih did, List.forall_mem_cons,
        ← failing k x]
      exact and_congr_left fun _ => ⟨fun passes ⟨c, what, failed⟩ => passes c what failed,
        fun none_ c what failed => none_ ⟨c, what, failed⟩⟩

/-- The loop comes to an element exactly if no element before it makes it return. -/
theorem mem_visits_iff
    (failing : ∀ position a, (∃ b what, body position a = some (b, .error what)) ↔ fails a)
    {front back : List α} {a : α} {b : β} {reply : Except ε Unit}
    (did : body front.length a = some (b, reply)) :
    (front.length, b) ∈ (visits body 0 (front ++ a :: back)).1 ↔ ∀ x ∈ front, ¬ fails x := by
  rw [← Nat.zero_add front.length] at did ⊢
  exact mem_visits_from_iff failing did

end

section
variable {σ : Type} {visit : σ → α → σ × Except ε Unit} {s t : σ} {a : α} {as rest : List α} {e : ε}

/-- The loop on a state, with the state in which it ends. -/
def walk (visit : σ → α → σ × Except ε Unit) : List α → σ → σ × Except ε Unit
  | [], s => (s, .ok ())
  | a :: rest, s =>
      match visit s a with
      | (t, .ok ()) => walk visit rest t
      | (t, .error what) => (t, .error what)

/-- `if (element == nullptr) continue`. -/
def unlessNull (visit : σ → α → σ × Except ε Unit) (s : σ) : Option α → σ × Except ε Unit
  | none => (s, .ok ())
  | some a => visit s a

theorem walk_cons_of_ok (passes : visit s a = (t, .ok ())) :
    walk visit (a :: rest) s = walk visit rest t := by
  rw [walk, passes]

theorem walk_cons_of_error (halts : visit s a = (t, .error e)) :
    walk visit (a :: rest) s = (t, .error e) := by
  rw [walk, halts]

/-- Null elements are passed over. -/
theorem walk_unlessNull (as : List (Option α)) (s : σ) :
    walk (unlessNull visit) as s = walk visit as.reduceOption s := by
  induction as generalizing s with
  | nil => rfl
  | cons a rest ih =>
      cases a with
      | none =>
          rw [List.reduceOption_cons_of_none, ← ih]
          exact walk_cons_of_ok rfl
      | some a =>
          rw [List.reduceOption_cons_of_some]
          cases visited : visit s a with
          | mk t reply =>
              have same : unlessNull visit s (some a) = (t, reply) := visited
              cases reply with
              | error e => rw [walk_cons_of_error visited, walk_cons_of_error same]
              | ok => rw [walk_cons_of_ok visited, walk_cons_of_ok same, ih]

theorem walk_cons_ok : walk visit (a :: rest) s = (t, .ok ()) ↔
    ∃ u, visit s a = (u, .ok ()) ∧ walk visit rest u = (t, .ok ()) := by
  cases visited : visit s a with
  | mk u reply =>
      cases reply with
      | error e =>
          rw [walk_cons_of_error visited]
          constructor
          · intro same
            cases same
          · rintro ⟨_, same, _⟩
            cases same
      | ok =>
          rw [walk_cons_of_ok visited]
          constructor
          · exact fun walked => ⟨u, rfl, walked⟩
          · rintro ⟨_, same, walked⟩
            cases same
            exact walked

/-- The loop returns early at the first element that halts, behind elements that all pass. -/
theorem walk_eq_error_iff : walk visit as s = (t, .error e) ↔ ∃ front a back u,
    as = front ++ a :: back ∧ walk visit front s = (u, .ok ()) ∧ visit u a = (t, .error e) := by
  induction as generalizing s with
  | nil =>
      constructor
      · intro same
        cases same
      · rintro ⟨front, a, back, _, split, _⟩
        cases front <;> cases split
  | cons x rest ih =>
      constructor
      · intro walked
        cases visited : visit s x with
        | mk u reply =>
            cases reply with
            | error e' =>
                rw [walk_cons_of_error visited] at walked
                cases walked
                exact ⟨[], x, rest, s, rfl, rfl, visited⟩
            | ok =>
                rw [walk_cons_of_ok visited] at walked
                obtain ⟨front, a, back, v, rfl, passed, halts⟩ := ih.mp walked
                exact ⟨x :: front, a, back, v, rfl, walk_cons_ok.mpr ⟨u, visited, passed⟩, halts⟩
      · rintro ⟨front, a, back, u, split, passed, halts⟩
        cases front with
        | nil =>
            cases split
            cases passed
            exact walk_cons_of_error halts
        | cons y front =>
            cases split
            obtain ⟨v, visited, passed⟩ := walk_cons_ok.mp passed
            rw [walk_cons_of_ok visited]
            exact ih.mpr ⟨front, a, back, u, rfl, passed, halts⟩

/-- What every visit keeps, the loop keeps, however it ends. -/
theorem walk_keeps {I : σ → Prop} (keeps : ∀ s, ∀ a ∈ as, I s → I (visit s a).1) (start : I s) :
    I (walk visit as s).1 := by
  induction as generalizing s with
  | nil => exact start
  | cons a rest ih =>
      have first := keeps s a List.mem_cons_self start
      have rest_ : ∀ s, ∀ b ∈ rest, I s → I (visit s b).1 :=
        fun s b member => keeps s b (List.mem_cons_of_mem _ member)
      cases visited : visit s a with
      | mk t reply =>
          rw [visited] at first
          cases reply with
          | error e =>
              rw [walk_cons_of_error visited]
              exact first
          | ok =>
              rw [walk_cons_of_ok visited]
              exact ih rest_ first

/-- What no visit changes, the loop does not change. -/
theorem walk_fixes {γ : Type} {f : σ → γ} (same : ∀ s a, f (visit s a).1 = f s) (as : List α)
    (s : σ) : f (walk visit as s).1 = f s :=
  walk_keeps (I := fun t => f t = f s) (fun t a _ held => (same t a).trans held) rfl

end

end CppToolkit.Visits
