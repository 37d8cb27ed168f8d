import CppToolkit.Library.Loops
import CppToolkit.Library.Memory
import CppToolkit.Library.Occurrences

/-! Splitting a string at a token and replacing the token: `split`, `replace` and `replace2`. -/
namespace CppToolkit.Utilities.Converter
open Memory Occurrences Loops

def npos : Nat := sizeMax - 1

/-- `std::string::find`; an empty token is found at every position of the string. -/
def find (source token : List UInt8) (position : Nat) : Option Nat :=
  if position ≤ source.length then (first token (source.drop position)).map (· + position)
  else none

/-- `std::string::substr`, for a position that is not behind the end. -/
def substr (source : List UInt8) (position count : Nat) : List UInt8 :=
  (source.drop position).take count

/-- The local variables of `split` and of `replace2` at the beginning of a turn. -/
structure Cutting (β : Type) where
  lastOffset : Nat
  result : β

section
variable {β : Type}

/-- The loop of both functions, which differ in what they do with a piece. -/
def turn (piece : β → List UInt8 → β) (source token : List UInt8) (s : Cutting β) :
    Cutting β ⊕ Cutting β :=
  match find source token s.lastOffset with
  | none => .inr s
  | some offset =>
      .inl ⟨offset + token.length,
        piece s.result (substr source s.lastOffset (offset - s.lastOffset))⟩

/-- What follows the loop. -/
def finish (last : β → List UInt8 → β) (whole : β) (source : List UInt8) (s : Cutting β) : β :=
  let result :=
    if s.lastOffset ≠ 0 ∧ s.lastOffset ≠ npos then
      last s.result (substr source s.lastOffset (npos - s.lastOffset))
    else s.result
  if s.lastOffset = 0 then whole else result

end

def pushNonEmpty (result : List (List UInt8)) (temp : List UInt8) : List (List UInt8) :=
  if temp ≠ [] then result ++ [temp] else result

def splitTurn (source token : List UInt8) :
    Cutting (List (List UInt8)) → Cutting (List (List UInt8)) ⊕ Cutting (List (List UInt8)) :=
  turn pushNonEmpty source token

def split (fuel : Nat) (source : ByteVector) (token : List UInt8) : Option (List (List UInt8)) :=
  if source.val = [] then some []
  else
    (turns (splitTurn source.val token) fuel ⟨0, []⟩).map
      (finish pushNonEmpty [source.val] source.val)

def replaceTurn (source token target : List UInt8) :
    Cutting (List UInt8) → Cutting (List UInt8) ⊕ Cutting (List UInt8) :=
  turn (fun result piece => result ++ (piece ++ target)) source token

def replace2 (fuel : Nat) (source : ByteVector) (token target : List UInt8) :
    Option (List UInt8) :=
  if source.val = [] then some []
  else
    (turns (replaceTurn source.val token target) fuel ⟨0, []⟩).map
      (finish (· ++ ·) source.val source.val)

/-- The string that `replace` leaves in its argument. -/
def replace (fuel : Nat) (source : ByteVector) (token target : List UInt8) :
    Option (List UInt8) := replace2 fuel source token target

section
variable {β : Type} {f g : β → List UInt8 → β} {source : ByteVector} {token : List UInt8}
  {s : Cutting β} {pieces : List (List UInt8)}

theorem turn_leaves (within : s.lastOffset ≤ source.val.length)
    (absent : ¬ token <:+: source.val.drop s.lastOffset) :
    turn f source.val token s = .inr s := by
  unfold turn find
  rw [if_pos within, first_eq_none_iff.mpr absent]
  rfl

/-- A turn goes on behind the first occurrence of the token. -/
theorem turn_goes (within : s.lastOffset ≤ source.val.length) {front back : List UInt8}
    (split : source.val.drop s.lastOffset = front ++ token ++ back)
    (leftmost : ∀ other behind, source.val.drop s.lastOffset = other ++ token ++ behind →
      front.length ≤ other.length) :
    turn f source.val token s =
      .inl ⟨front.length + s.lastOffset + token.length, f s.result front⟩ := by
  have cut : substr source.val s.lastOffset (front.length + s.lastOffset - s.lastOffset) =
      front := by
    rw [substr, split, Nat.add_sub_cancel, List.append_assoc, List.take_left]
  unfold turn find
  rw [if_pos within, first_of_leftmost split leftmost, Option.map_some]
  dsimp only
  rw [cut]

theorem drop_behind {front back : List UInt8}
    (split : source.val.drop s.lastOffset = front ++ token ++ back) :
    source.val.drop (front.length + s.lastOffset + token.length) = back := by
  have position : front.length + s.lastOffset + token.length =
      s.lastOffset + (front ++ token).length := by
    rw [List.length_append]
    omega
  rw [position, ← List.drop_drop, split, List.drop_left]

/-- What is left behind the last offset is the last piece. -/
theorem finish_behind (positive : 0 < s.lastOffset) (within : s.lastOffset ≤ source.val.length)
    (whole : β) : finish g whole source.val s =
      g s.result (source.val.drop s.lastOffset) := by
  have small := source.property
  have inside : s.lastOffset ≠ npos := by
    unfold npos sizeMax
    omega
  have rest : substr source.val s.lastOffset (npos - s.lastOffset) =
      source.val.drop s.lastOffset := by
    refine List.take_of_length_le ?_
    rw [List.length_drop]
    unfold npos sizeMax
    omega
  unfold finish
  dsimp only
  rw [if_neg (Nat.ne_of_gt positive), if_pos ⟨Nat.ne_of_gt positive, inside⟩, rest]

/-- From behind an occurrence on, the loop takes the pieces one by one and leaves the last for
what follows it. -/
theorem returns_pieces (positive : 0 < s.lastOffset) (within : s.lastOffset ≤ source.val.length)
    (whole : β) (cuts : Cuts token (source.val.drop s.lastOffset) pieces) :
    ∃ ended, Returns (turns (turn f source.val token) · s) ended ∧
      finish g whole source.val ended =
        g (pieces.dropLast.foldl f s.result) (pieces.getLast cuts.ne_nil) := by
  generalize left : source.val.drop s.lastOffset = text at cuts
  induction cuts generalizing s with
  | last absent =>
      subst left
      exact ⟨s, returns_of_leaves (turn_leaves within absent), finish_behind positive within whole⟩
  | cut split leftmost cuts ih =>
      subst left
      have lengths := congrArg List.length split
      simp only [List.length_drop, List.length_append] at lengths
      obtain ⟨ended, returns, finished⟩ := ih (s := ⟨_, f s.result _⟩)
        (Nat.lt_of_lt_of_le positive (by dsimp only; omega)) (by dsimp only; omega)
        (drop_behind split)
      refine ⟨ended, returns_of_goes (turn_goes within split leftmost) returns, ?_⟩
      rw [finished, List.dropLast_cons_of_ne_nil cuts.ne_nil, List.getLast_cons cuts.ne_nil,
        List.foldl_cons]

/-- A string without the token is left as it is; any other is taken apart into its pieces. -/
theorem returns_cuts (some_ : token ≠ []) (start whole : β)
    (cuts : Cuts token source.val pieces) :
    ∃ ended, Returns (turns (turn f source.val token) · ⟨0, start⟩) ended ∧
      finish g whole source.val ended =
        if pieces = [source.val] then whole
        else g (pieces.dropLast.foldl f start) (pieces.getLast cuts.ne_nil) := by
  cases cuts with
  | last absent =>
      refine ⟨_, returns_of_leaves (turn_leaves (s := ⟨0, start⟩) (Nat.zero_le _) absent), ?_⟩
      rw [if_pos rfl]
      rfl
  | @cut _ front rest pieces split leftmost cuts =>
      have positive := List.length_pos_iff.mpr some_
      have lengths := congrArg List.length split
      simp only [List.length_append] at lengths
      have other : ¬ front :: pieces = [source.val] := by
        intro same
        cases same
        omega
      obtain ⟨ended, returns, finished⟩ := returns_pieces (g := g)
        (s := ⟨front.length + 0 + token.length, f start front⟩)
        (by dsimp only; omega) (by dsimp only; omega) whole
        (drop_behind (s := ⟨0, start⟩) split ▸ cuts)
      refine ⟨ended, returns_of_goes
        (turn_goes (s := ⟨0, start⟩) (Nat.zero_le _) split leftmost) returns, ?_⟩
      rw [finished, if_neg other, List.dropLast_cons_of_ne_nil cuts.ne_nil,
        List.getLast_cons cuts.ne_nil, List.foldl_cons]

end

section
variable {token target : List UInt8} {pieces : List (List UInt8)}

theorem foldl_pushNonEmpty (result pieces : List (List UInt8)) :
    pieces.foldl pushNonEmpty result = result ++ pieces.filter (· ≠ []) := by
  induction pieces generalizing result with
  | nil => exact (List.append_nil result).symm
  | cons piece pieces ih =>
      rw [List.foldl_cons, ih, pushNonEmpty]
      by_cases empty : piece = []
      · rw [if_neg (not_not_intro empty), List.filter_cons_of_neg (by simp [empty])]
      · rw [if_pos empty, List.filter_cons_of_pos (by simp [empty]), List.append_assoc]
        rfl

/-- The pieces that `split` keeps. -/
theorem push_pieces (some_ : pieces ≠ []) :
    pushNonEmpty (pieces.dropLast.foldl pushNonEmpty []) (pieces.getLast some_) =
      pieces.filter (· ≠ []) := by
  have whole := foldl_pushNonEmpty [] (pieces.dropLast ++ [pieces.getLast some_])
  rwa [List.foldl_append, List.dropLast_append_getLast, List.nil_append] at whole

/-- The pieces with the target between them. -/
theorem join_pieces (some_ : pieces ≠ []) (start : List UInt8) :
    pieces.dropLast.foldl (fun result piece => result ++ (piece ++ target)) start ++
      pieces.getLast some_ = start ++ target.intercalate pieces := by
  induction pieces generalizing start with
  | nil => exact absurd rfl some_
  | cons piece pieces ih =>
      by_cases last : pieces = []
      · subst last
        simp
      · rw [List.dropLast_cons_of_ne_nil last, List.getLast_cons last, List.foldl_cons, ih last,
          List.intercalate_cons_of_ne_nil last]
        simp only [List.append_assoc]

/-- The pieces of a string come out of `split` without the empty ones, and out of `replace2` and
`replace` with the target between them. -/
theorem split_replace2_pieces (source : ByteVector) {token : List UInt8} (some_ : token ≠ [])
    (target : List UInt8) :
    ∃ pieces, Cuts token source.val pieces ∧ (∀ others, Cuts token source.val others →
        others = pieces) ∧ token.intercalate pieces = source.val ∧
      Returns (replace2 · source token target) (target.intercalate pieces) ∧
      Returns (replace · source token target) (target.intercalate pieces) ∧
      Returns (split · source token) (pieces.filter (· ≠ [])) := by
  obtain ⟨pieces, cuts⟩ := exists_cuts some_ source.val
  refine ⟨pieces, cuts, fun others again => again.unique cuts, cuts.intercalate, ?_⟩
  suffices Returns (replace2 · source token target) (target.intercalate pieces) ∧
      Returns (split · source token) (pieces.filter (· ≠ [])) from ⟨this.1, this⟩
  by_cases empty : source.val = []
  · have absent : ¬ token <:+: source.val := by
      rw [empty, List.infix_nil]
      exact some_
    cases cuts.unique (.last absent)
    rw [empty, List.intercalate_singleton]
    exact ⟨⟨0, fun n _ => if_pos empty⟩, ⟨0, fun n _ => if_pos empty⟩⟩
  unfold replace2 split
  simp only [if_neg empty]
  constructor
  · obtain ⟨ended, returns, finished⟩ := returns_cuts (g := (· ++ ·)) some_ [] source.val cuts
    have returned := returns.map (finish (· ++ ·) source.val source.val)
    rw [finished, join_pieces cuts.ne_nil, List.nil_append, ite_eq_right_iff.mpr] at returned
    · exact returned
    · rintro rfl
      exact List.intercalate_singleton.symm
  · obtain ⟨ended, returns, finished⟩ := returns_cuts (g := pushNonEmpty) some_ [] [source.val] cuts
    have returned := returns.map (finish pushNonEmpty [source.val] source.val)
    rw [finished, push_pieces cuts.ne_nil, ite_eq_right_iff.mpr] at returned
    · exact returned
    · rintro rfl
      simp [empty]

/-- A token that overlaps itself, at both ends of the string. -/
theorem split_replace2_overlapping :
    ∃ pieces, Cuts [1, 1] [1, 1, 1, 2, 1, 1] pieces ∧ (∀ others, Cuts [1, 1] [1, 1, 1, 2, 1, 1] others →
        others = pieces) ∧ List.intercalate [1, 1] pieces = [1, 1, 1, 2, 1, 1] ∧
      Returns (replace2 · ⟨[1, 1, 1, 2, 1, 1], by decide⟩ [1, 1] [3]) (List.intercalate [3] pieces) ∧
      Returns (replace · ⟨[1, 1, 1, 2, 1, 1], by decide⟩ [1, 1] [3]) (List.intercalate [3] pieces) ∧
      Returns (split · ⟨[1, 1, 1, 2, 1, 1], by decide⟩ [1, 1]) (pieces.filter (· ≠ [])) :=
  split_replace2_pieces ⟨[1, 1, 1, 2, 1, 1], by decide⟩ (by decide) [3]

end

/-- Both functions return, and a turn of their loops that goes on moves the last offset on. -/
def Terminates (source : ByteVector) (token target : List UInt8) : Prop :=
  ((∃ pieces, Returns (split · source token) pieces) ∧
      ∃ replaced, Returns (replace2 · source token target) replaced) ∧
    (source.val ≠ [] →
      (∀ s t, Reaches (splitTurn source.val token) ⟨0, []⟩ s →
          splitTurn source.val token s = .inl t → s.lastOffset < t.lastOffset) ∧
        ∀ s t, Reaches (replaceTurn source.val token target) ⟨0, []⟩ s →
          replaceTurn source.val token target s = .inl t → s.lastOffset < t.lastOffset)

section
variable {β : Type} {f : β → List UInt8 → β} {source token : List UInt8} {s t : Cutting β}

/-- What a turn that goes on has found. -/
theorem turn_goes_from (goes : turn f source token s = .inl t) :
    ∃ offset, s.lastOffset ≤ offset ∧ offset + token.length ≤ source.length ∧
      t.lastOffset = offset + token.length := by
  unfold turn at goes
  split at goes
  next => cases goes
  next offset found =>
    cases goes
    unfold find at found
    split at found
    next within =>
      obtain ⟨k, here, rfl⟩ := Option.map_eq_some_iff.mp found
      obtain ⟨front, back, split, rfl, _⟩ := first_eq_some here
      have lengths := congrArg List.length split
      simp only [List.length_drop, List.length_append] at lengths
      exact ⟨_, Nat.le_add_left _ _, by omega, rfl⟩
    next => cases found

theorem turn_advances (some_ : token ≠ []) (goes : turn f source token s = .inl t) :
    s.lastOffset < t.lastOffset := by
  obtain ⟨offset, behind, _, same⟩ := turn_goes_from goes
  have positive := List.length_pos_iff.mpr some_
  omega

/-- What is left of the string bounds the turns. -/
theorem loop_returns (some_ : token ≠ []) (s : Cutting β) :
    ∃ ended, Returns (turns (turn f source token) · s) ended := by
  refine returns_of_measure (fun s => source.length - s.lastOffset) (fun _ => True)
    (fun s t _ goes => ⟨trivial, ?_⟩) trivial
  obtain ⟨offset, _, within, same⟩ := turn_goes_from goes
  have further := turn_advances some_ goes
  omega

/-- With an empty token every turn finds it where the turn before has found it. -/
theorem turns_empty (f : β → List UInt8 → β) (source : List UInt8) (start : β) (fuel : Nat) :
    turns (turn f source []) fuel ⟨0, start⟩ = none := by
  refine turns_eq_none (fun s => s.lastOffset = 0) (fun s zero => ?_) rfl fuel
  have found : find source [] s.lastOffset = some 0 := by
    unfold find
    rw [zero, if_pos (Nat.zero_le _), first_of_begins List.nil_prefix]
    rfl
  exact ⟨_, by rw [turn, found], rfl⟩

end

/-- The loops end exactly for a token that is not empty, or a string that is. -/
theorem terminates_iff (source : ByteVector) (token target : List UInt8) :
    Terminates source token target ↔ source.val = [] ∨ token ≠ [] := by
  constructor
  · rintro ⟨⟨⟨pieces, returns⟩, _⟩, _⟩
    by_contra neither
    obtain ⟨some_, empty⟩ := not_or.mp neither
    obtain ⟨n, enough⟩ := returns
    have returned := enough n (Nat.le_refl n)
    dsimp only at returned
    rw [split, if_neg some_, not_not.mp empty, splitTurn, turns_empty] at returned
    cases returned
  · rintro (empty | some_)
    · refine ⟨⟨⟨[], 0, fun n _ => if_pos empty⟩, ⟨[], 0, fun n _ => if_pos empty⟩⟩, ?_⟩
      exact fun some_ => absurd empty some_
    · refine ⟨⟨?_, ?_⟩, fun _ => ⟨fun s t _ goes => turn_advances some_ goes,
        fun s t _ goes => turn_advances some_ goes⟩⟩
      · unfold split
        split
        next => exact ⟨[], 0, fun n _ => rfl⟩
        next =>
          obtain ⟨ended, returns⟩ := loop_returns some_ ⟨0, []⟩
          exact ⟨_, returns.map _⟩
      · unfold replace2
        split
        next => exact ⟨[], 0, fun n _ => rfl⟩
        next =>
          obtain ⟨ended, returns⟩ := loop_returns some_ ⟨0, []⟩
          exact ⟨_, returns.map _⟩

/-- The string "a" and the empty token. -/
theorem empty_token_loops :
    ¬ ∀ (source : ByteVector) (token target : List UInt8), Terminates source token target := by
  intro every
  obtain ⟨⟨⟨_, n, enough⟩, _⟩, _⟩ := every ⟨[97], by decide⟩ [] []
  have returned := enough n (Nat.le_refl n)
  dsimp only at returned
  rw [split, if_neg (List.cons_ne_nil _ _), splitTurn, turns_empty] at returned
  cases returned

end CppToolkit.Utilities.Converter
