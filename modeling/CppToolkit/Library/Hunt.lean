import Mathlib.Data.Nat.Find
import Mathlib.Data.List.Basic

/-! Hunting for a code in a stream with a count of matched items only: an item that does not match
is dropped and the count starts at zero again. -/
namespace CppToolkit.Hunt
variable {α : Type*} [DecidableEq α]

/-- The count after one more item. -/
def advance (code : List α) (m : Nat) (b : α) : Nat := if code[m]? = some b then m + 1 else 0

/-- The number of items taken until the whole code has matched, with `m` matched before. -/
def hunt (code : List α) (m : Nat) : List α → Option Nat
  | [] => if m = code.length then some 0 else none
  | b :: rest => if m = code.length then some 0 else (hunt code (advance code m b) rest).map (· + 1)

/-- Items that the hunt drops piece by piece: a part of the code and an item that does not
continue it. -/
inductive Pieces (code : List α) : List α → Prop
  | nil : Pieces code []
  | cons {m : Nat} {b : α} {rest : List α} : m < code.length → code[m]? ≠ some b →
      Pieces code rest → Pieces code (code.take m ++ b :: rest)

/-- The first position at which the last items are the code. -/
structure First (code stream : List α) (n : Nat) : Prop where
  inside : n ≤ stream.length
  ends : code <:+ stream.take n
  first : ∀ m < n, ¬ code <:+ stream.take m

section
variable {code stream junk rest : List α} {m n : Nat} {b : α}

theorem advance_of_eq (same : code[m]? = some b) : advance code m b = m + 1 := if_pos same

theorem advance_of_ne (other : code[m]? ≠ some b) : advance code m b = 0 := if_neg other

theorem advance_le (b : α) (inside : m < code.length) : advance code m b ≤ code.length := by
  unfold advance
  split
  next => exact inside
  next => exact Nat.zero_le _

theorem hunt_matched (stream : List α) : hunt code code.length stream = some 0 := by
  cases stream <;> exact if_pos rfl

theorem hunt_cons (partly : m ≠ code.length) :
    hunt code m (b :: rest) = (hunt code (advance code m b) rest).map (· + 1) := if_neg partly

theorem hunt_end (partly : m ≠ code.length) : hunt code m [] = none := if_neg partly

/-- On a part of the stream the hunt ends where it ends on the whole, or not at all. -/
theorem hunt_take (k : Nat) :
    hunt code m (stream.take k) = (hunt code m stream).filter fun n => n ≤ k := by
  induction stream generalizing m k with
  | nil =>
      rw [List.take_nil]
      by_cases whole : m = code.length
      · subst m
        rw [hunt_matched]
        rfl
      · rw [hunt_end whole]
        rfl
  | cons b rest ih =>
      by_cases whole : m = code.length
      · subst m
        rw [hunt_matched, hunt_matched]
        rfl
      cases k with
      | zero =>
          rw [List.take_zero, hunt_end whole, hunt_cons whole]
          cases hunt code (advance code m b) rest <;> rfl
      | succ k =>
          rw [List.take_succ_cons, hunt_cons whole, hunt_cons whole, ih]
          cases hunt code (advance code m b) rest with
          | none => rfl
          | some n => by_cases le : n ≤ k <;> simp [Option.filter, le]

/-- What the hunt takes is pieces and then the code, together with what was matched before. -/
theorem hunt_pieces (le : m ≤ code.length) (found : hunt code m stream = some n) :
    ∃ junk rest, Pieces code junk ∧ code.take m ++ stream = junk ++ code ++ rest ∧
      m + n = junk.length + code.length := by
  induction stream generalizing m n with
  | nil =>
      by_cases whole : m = code.length
      · subst m
        rw [hunt_matched] at found
        cases found
        refine ⟨[], [], .nil, by simp, by simp⟩
      · rw [hunt_end whole] at found
        cases found
  | cons b rest ih =>
      by_cases whole : m = code.length
      · subst m
        rw [hunt_matched] at found
        cases found
        refine ⟨[], b :: rest, .nil, by simp, by simp⟩
      · rw [hunt_cons whole] at found
        obtain ⟨n, later, rfl⟩ := Option.map_eq_some_iff.mp found
        have inside : m < code.length := by omega
        by_cases same : code[m]? = some b
        · rw [advance_of_eq same] at later
          obtain ⟨junk, behind, pieces, split, length⟩ := ih inside later
          refine ⟨junk, behind, pieces, ?_, by omega⟩
          have item : code[m] = b := by
            rw [List.getElem?_eq_getElem inside] at same
            exact Option.some.inj same
          rw [← split, List.take_succ_eq_append_getElem inside, item, List.append_assoc]
          rfl
        · rw [advance_of_ne same] at later
          obtain ⟨junk, behind, pieces, split, length⟩ := ih (Nat.zero_le _) later
          rw [List.take_zero, List.nil_append] at split
          refine ⟨code.take m ++ b :: junk, behind, .cons inside same pieces, ?_, ?_⟩
          · rw [split]
            simp
          · rw [List.length_append, List.length_take, List.length_cons]
            omega

/-- Matching items are counted. -/
theorem hunt_matching (done todo more behind : List α) (split : code = done ++ (todo ++ more)) :
    hunt code done.length (todo ++ behind) =
      (hunt code (done ++ todo).length behind).map (· + todo.length) := by
  induction todo generalizing done with
  | nil =>
      rw [List.append_nil, List.nil_append]
      cases hunt code done.length behind <;> rfl
  | cons b todo ih =>
      have same : code[done.length]? = some b := by
        rw [split, List.getElem?_append_right (Nat.le_refl _), Nat.sub_self]
        rfl
      have partly : done.length ≠ code.length := by
        intro whole
        rw [whole, List.getElem?_eq_none (Nat.le_refl _)] at same
        cases same
      have rest := ih (done ++ [b]) (by rw [split, List.append_assoc]; rfl)
      rw [List.length_append, List.length_singleton, List.append_assoc] at rest
      rw [List.cons_append, hunt_cons partly, advance_of_eq same, rest, Option.map_map]
      rfl

theorem hunt_code (code rest : List α) : hunt code 0 (code ++ rest) = some code.length := by
  have matching := hunt_matching [] code [] rest (List.append_nil code).symm
  rw [List.nil_append, hunt_matched] at matching
  rw [← List.length_nil, matching, Option.map_some, Nat.zero_add]

/-- A piece is dropped as a whole. -/
theorem hunt_piece (inside : m < code.length) (other : code[m]? ≠ some b) (rest : List α) :
    hunt code 0 (code.take m ++ b :: rest) = (hunt code 0 rest).map (· + (m + 1)) := by
  have length : (code.take m).length = m := List.length_take_of_le (Nat.le_of_lt inside)
  have matching := hunt_matching [] (code.take m) (code.drop m) (b :: rest)
    (List.take_append_drop m code).symm
  rw [List.nil_append, length, hunt_cons (Nat.ne_of_lt inside), advance_of_ne other,
    Option.map_map] at matching
  rw [← List.length_nil, matching]
  congr 1
  funext n
  exact Nat.add_right_comm n 1 m

/-- The hunt finds the code exactly behind pieces. -/
theorem hunt_eq_some_iff :
    hunt code 0 stream = some n ↔ ∃ junk rest, Pieces code junk ∧ stream = junk ++ code ++ rest ∧
      n = junk.length + code.length := by
  constructor
  · intro found
    obtain ⟨junk, rest, pieces, split, length⟩ := hunt_pieces (Nat.zero_le _) found
    rw [List.take_zero, List.nil_append] at split
    rw [Nat.zero_add] at length
    exact ⟨junk, rest, pieces, split, length⟩
  · rintro ⟨junk, rest, pieces, rfl, rfl⟩
    induction pieces with
    | nil => rw [List.nil_append, hunt_code, List.length_nil, Nat.zero_add]
    | @cons m b junk inside other _ ih =>
        have length : (code.take m).length = m := List.length_take_of_le (Nat.le_of_lt inside)
        rw [List.append_assoc] at ih
        rw [List.append_assoc, List.append_assoc, List.cons_append, hunt_piece inside other, ih,
          Option.map_some, List.length_append, length, List.length_cons]
        congr 1
        omega

theorem ends_of_hunt (found : hunt code 0 stream = some n) :
    n ≤ stream.length ∧ code <:+ stream.take n := by
  obtain ⟨junk, rest, _, rfl, rfl⟩ := hunt_eq_some_iff.mp found
  rw [← List.length_append, List.take_left]
  refine ⟨?_, List.suffix_append _ _⟩
  rw [List.length_append, List.length_append, List.length_append]
  omega

/-- Where the code ends a part of the stream, it ends one for the first time. -/
theorem exists_first (inside : n ≤ stream.length) (ends : code <:+ stream.take n) :
    ∃ m ≤ n, First code stream m := by
  have some_ : ∃ m, code <:+ stream.take m := ⟨n, ends⟩
  have le := Nat.find_min' some_ ends
  exact ⟨Nat.find some_, le, Nat.le_trans le inside, Nat.find_spec some_,
    fun _ below => Nat.find_min some_ below⟩

theorem exists_first_of_suffix (ends : code <:+ stream) :
    ∃ m ≤ stream.length, First code stream m := by
  refine exists_first (Nat.le_refl _) ?_
  simpa only [List.take_length] using ends

omit [DecidableEq α] in
theorem First.split (first : First code stream n) :
    stream.take (n - code.length) ++ code = stream.take n ∧ code.length ≤ n := by
  obtain ⟨junk, same⟩ := first.ends
  have length := congrArg List.length same
  rw [List.length_append, List.length_take_of_le first.inside] at length
  refine ⟨?_, by omega⟩
  have front : stream.take (n - code.length) = (stream.take n).take (n - code.length) := by
    rw [List.take_take, Nat.min_eq_left (Nat.sub_le _ _)]
  rw [front, ← same, List.take_left' (by omega)]

theorem hunt_first (first : First code stream n) :
    hunt code 0 stream = some n ↔ Pieces code (stream.take (n - code.length)) := by
  obtain ⟨same, le⟩ := first.split
  have inside := first.inside
  constructor
  · intro found
    obtain ⟨junk, rest, pieces, rfl, rfl⟩ := hunt_eq_some_iff.mp found
    rw [Nat.add_sub_cancel, List.append_assoc, List.take_left]
    exact pieces
  · intro pieces
    refine hunt_eq_some_iff.mpr ⟨_, stream.drop n, pieces, ?_, ?_⟩
    · rw [same, List.take_append_drop]
    · rw [List.length_take_of_le (by omega)]
      omega

/-- The hunt ends at the first occurrence and nowhere else if and only if pieces precede it. -/
theorem hunt_first_iff :
    (∀ n, hunt code 0 stream = some n ↔ First code stream n) ↔
      ∀ n, First code stream n → Pieces code (stream.take (n - code.length)) := by
  constructor
  · intro exact_ n first
    exact (hunt_first first).mp ((exact_ n).mpr first)
  · intro pieces n
    constructor
    · intro found
      obtain ⟨inside, ends⟩ := ends_of_hunt found
      obtain ⟨m, _, first⟩ := exists_first inside ends
      rw [(hunt_first first).mpr (pieces m first)] at found
      cases found
      exact first
    · intro first
      exact (hunt_first first).mpr (pieces n first)

theorem not_hunt_short (short : stream.length < code.length) : hunt code 0 stream = none := by
  cases found : hunt code 0 stream with
  | none => rfl
  | some n =>
      obtain ⟨junk, rest, _, rfl, _⟩ := hunt_eq_some_iff.mp found
      rw [List.length_append, List.length_append] at short
      omega

omit [DecidableEq α] in
/-- Everything before the first run of equal items is pieces. The induction is on the items,
with the equal ones just before them as a count. -/
theorem pieces_before_run {c : α} {k : Nat} (positive : 0 < k) (junk : List α) (below : m < k)
    (only : ∀ front back, front ++ List.replicate k c ++ back =
      List.replicate m c ++ (junk ++ List.replicate k c) → back = []) :
    Pieces (List.replicate k c) (List.replicate m c ++ junk) := by
  induction junk generalizing m with
  | nil =>
      have ends := only [] (List.replicate m c) (by simp [Nat.add_comm])
      rw [ends]
      exact .nil
  | cons a junk ih =>
      by_cases same : a = c
      · subst a
        have more : List.replicate (m + 1) c = List.replicate m c ++ [c] := List.replicate_succ'
        have shifted : ∀ tail : List α,
            List.replicate m c ++ c :: tail = List.replicate (m + 1) c ++ tail := fun tail => by
          rw [more, List.append_assoc]
          rfl
        by_cases whole : m + 1 = k
        · have ends := only [] (junk ++ List.replicate k c) (by rw [List.cons_append, shifted, whole]; rfl)
          have length := congrArg List.length ends
          rw [List.length_append, List.length_replicate, List.length_nil] at length
          omega
        · rw [shifted]
          apply ih (by omega)
          intro front back equal
          apply only front back
          rw [equal, List.cons_append, shifted]
      · have part : List.replicate m c = (List.replicate k c).take m := by
          rw [List.take_replicate, Nat.min_eq_left (Nat.le_of_lt below)]
        have rest : Pieces (List.replicate k c) junk := by
          apply @ih 0 positive
          intro front back equal
          apply only (List.replicate m c ++ a :: front) back
          rw [List.append_assoc, List.append_assoc, List.cons_append, ← List.append_assoc front, equal]
          rfl
        have other : (List.replicate k c)[m]? ≠ some a := by
          rw [List.getElem?_replicate, if_pos below]
          exact fun equal => same (Option.some.inj equal).symm
        rw [part]
        exact .cons (by rw [List.length_replicate]; exact below) other rest

omit [DecidableEq α] in
/-- In the bytes up to the first occurrence, nothing is behind an occurrence. -/
theorem First.nothing_behind (first : First code stream n) {front back : List α}
    (equal : front ++ code ++ back = stream.take n) : back = [] := by
  by_contra more
  have length := congrArg List.length equal
  rw [List.length_append, List.length_take_of_le first.inside] at length
  have behind := List.length_pos_iff.mpr more
  have part : stream.take (front ++ code).length = front ++ code := by
    rw [← Nat.min_eq_left (show (front ++ code).length ≤ n by omega), ← List.take_take, ← equal,
      List.take_left]
  apply first.first (front ++ code).length (by omega)
  rw [part]
  exact List.suffix_append _ _

omit [DecidableEq α] in
/-- Before the first occurrence of a code that repeats one item, there are only pieces. -/
theorem First.pieces_of_replicate {c : α} (first : First code stream n) (positive : code ≠ [])
    (same : code = List.replicate code.length c) :
    Pieces code (stream.take (n - code.length)) := by
  obtain ⟨whole, le⟩ := first.split
  have some_ := List.length_pos_iff.mpr positive
  have only : ∀ front back, front ++ List.replicate code.length c ++ back =
      List.replicate 0 c ++ (stream.take (n - code.length) ++ List.replicate code.length c) →
      back = [] := by
    intro front back equal
    rw [List.replicate_zero, List.nil_append, ← same, whole] at equal
    exact first.nothing_behind equal
  have pieces := pieces_before_run some_ (stream.take (n - code.length)) some_ only
  rw [← same] at pieces
  exact pieces

/-- A code with an item other than its first is missed behind the part before that item. -/
theorem exists_missed {b c : α} {tail : List α} (member : b ∈ c :: tail) (other : b ≠ c) :
    ∃ junk, hunt (c :: tail) 0 (junk ++ c :: tail) = none := by
  obtain ⟨m, inside, found⟩ := List.getElem_of_mem member
  have mismatch : (c :: tail)[m]? ≠ some c := by
    rw [List.getElem?_eq_getElem inside, found]
    exact fun equal => other (Option.some.inj equal)
  refine ⟨(c :: tail).take m, ?_⟩
  rw [hunt_piece inside mismatch, not_hunt_short (by simp)]
  rfl

/-- The hunt finds the first occurrence in every stream if and only if the code repeats one
item. -/
theorem hunt_always_iff (positive : code ≠ []) :
    (∀ stream n, hunt code 0 stream = some n ↔ First code stream n) ↔
      ∃ c, code = List.replicate code.length c := by
  constructor
  · intro always
    cases code with
    | nil => exact absurd rfl positive
    | cons c tail =>
        refine ⟨c, List.eq_replicate_iff.mpr ⟨rfl, fun b member => ?_⟩⟩
        by_contra other
        obtain ⟨junk, missed⟩ := exists_missed member other
        obtain ⟨n, _, first⟩ := exists_first_of_suffix (List.suffix_append junk (c :: tail))
        rw [(always _ n).mpr first] at missed
        cases missed
  · rintro ⟨c, same⟩ stream
    exact hunt_first_iff.mpr fun n first => first.pieces_of_replicate positive same

end

end CppToolkit.Hunt
