import Mathlib.Data.List.Basic
import Mathlib.Data.List.TakeWhile
import Mathlib.Logic.Function.Basic

/-! Regular expressions with greedy repetition: a pattern leads to states in the order in which
backtracking tries them, and the first of them is the match. -/
namespace CppToolkit.Regex

inductive Pattern (α : Type) where
  | set (p : α → Bool)
  | seq (a b : Pattern α)
  | star (a : Pattern α)
  | group (index : Nat) (a : Pattern α)

/-- The text that is left and what the groups have captured. -/
structure State (α : Type) where
  rest : List α
  groups : Nat → Option (List α)

section
variable {α : Type}

/-- As often as possible first; a repetition that matches nothing is given up. -/
def repeated (body : State α → List (State α)) : Nat → State α → List (State α)
  | 0, s => [s]
  | n + 1, s =>
      ((body s).filter fun t => t.rest.length < s.rest.length).flatMap (repeated body n) ++ [s]

namespace Pattern

/-- One time or more. -/
def plus (a : Pattern α) : Pattern α := seq a (star a)

def indices : Pattern α → List Nat
  | set _ => []
  | seq a b => a.indices ++ b.indices
  | star a => a.indices
  | group index a => index :: a.indices

/-- A repetition forgets what its groups have captured before. -/
def reset (a : Pattern α) (s : State α) : State α :=
  { s with groups := fun index => if index ∈ a.indices then none else s.groups index }

def results : Pattern α → State α → List (State α)
  | set p, s =>
      match s.rest with
      | [] => []
      | c :: rest => if p c then [{ s with rest := rest }] else []
  | seq a b, s => (a.results s).flatMap b.results
  | star a, s => repeated (fun t => a.results (a.reset t)) s.rest.length s
  | group index a, s =>
      (a.results s).map fun t =>
        { t with
          groups := Function.update t.groups index
            (some (s.rest.take (s.rest.length - t.rest.length))) }

/-- What backtracking finds first. -/
def first (a : Pattern α) (s : State α) : Option (State α) := (a.results s).head?

/-- The leftmost match in a text. -/
def search (a : Pattern α) : List α → Option (State α)
  | [] => a.first ⟨[], fun _ => none⟩
  | c :: text =>
      match a.first ⟨c :: text, fun _ => none⟩ with
      | some t => some t
      | none => search a text

/-- The matches one behind the other, with a bound on their number. No match of the pattern may
be empty. -/
def matchesWithin (a : Pattern α) : Nat → List α → List (State α)
  | 0, _ => []
  | n + 1, text =>
      match a.search text with
      | none => []
      | some t => t :: matchesWithin a n t.rest

def allMatches (a : Pattern α) (text : List α) : List (State α) := a.matchesWithin text.length text

end Pattern

/-- What is left behind a run of characters, the longest run first. -/
def drops (p : α → Bool) : List α → List (List α)
  | [] => [[]]
  | c :: text => if p c then drops p text ++ [c :: text] else [c :: text]

section
variable {p : α → Bool} {s : State α} {run text : List α}

theorem drops_of_head (stop : ∀ c ∈ text.head?, p c = false) : drops p text = [text] := by
  cases text with
  | nil => rfl
  | cons c text => exact if_neg (by simp [stop c rfl])

theorem drops_append (all : ∀ c ∈ run, p c = true) (text : List α) :
    ∃ shorter, drops p (run ++ text) = drops p text ++ shorter := by
  induction run with
  | nil => exact ⟨[], (List.append_nil _).symm⟩
  | cons c run ih =>
      obtain ⟨shorter, same⟩ := ih fun d member => all d (List.mem_cons_of_mem _ member)
      refine ⟨shorter ++ [c :: (run ++ text)], ?_⟩
      rw [List.cons_append, drops, if_pos (all c List.mem_cons_self), same, List.append_assoc]

/-- The longest run is tried first. -/
theorem drops_run (all : ∀ c ∈ run, p c = true) (stop : ∀ c ∈ text.head?, p c = false) :
    ∃ shorter, drops p (run ++ text) = text :: shorter := by
  obtain ⟨shorter, same⟩ := drops_append all text
  exact ⟨shorter, by rw [same, drops_of_head stop, List.singleton_append]⟩

/-- Then the run that is one character shorter. -/
theorem drops_run_concat {c : α} (all : ∀ c ∈ run, p c = true) (last : p c = true)
    (stop : ∀ c ∈ text.head?, p c = false) :
    ∃ shorter, drops p (run ++ c :: text) = text :: (c :: text) :: shorter := by
  obtain ⟨shorter, same⟩ := drops_append all (c :: text)
  refine ⟨shorter, ?_⟩
  rw [same, drops, if_pos last, drops_of_head stop]
  rfl

theorem reset_set : (Pattern.set p).reset s = s := by
  unfold Pattern.reset
  simp [Pattern.indices]

/-- A repeated set of characters. -/
theorem results_star_set (p : α → Bool) (s : State α) :
    (Pattern.star (.set p)).results s = (drops p s.rest).map fun rest => { s with rest := rest } := by
  obtain ⟨text, groups⟩ := s
  rw [Pattern.results]
  dsimp only
  induction text with
  | nil => rfl
  | cons c text ih =>
      rw [List.length_cons, repeated, reset_set, Pattern.results]
      dsimp only
      by_cases given : p c
      · rw [if_pos given, drops, if_pos given, List.map_append, ← ih]
        simp
      · rw [if_neg given, drops, if_neg given]
        rfl

theorem first_seq (a b : Pattern α) (s : State α) :
    (a.seq b).first s = (a.results s).findSome? b.first := by
  rw [Pattern.first, Pattern.results, List.head?_flatMap]
  rfl

/-- A repeated set of characters stops at the end of the run. -/
theorem first_star_set (all : ∀ c ∈ run, p c = true) (stop : ∀ c ∈ text.head?, p c = false)
    (groups : Nat → Option (List α)) :
    (Pattern.star (.set p)).first ⟨run ++ text, groups⟩ = some ⟨text, groups⟩ := by
  obtain ⟨shorter, same⟩ := drops_run all stop
  rw [Pattern.first, results_star_set, same]
  rfl

theorem first_star_set_of_head (stop : ∀ c ∈ text.head?, p c = false)
    (groups : Nat → Option (List α)) :
    (Pattern.star (.set p)).first ⟨text, groups⟩ = some ⟨text, groups⟩ := by
  rw [Pattern.first, results_star_set, drops_of_head stop]
  rfl

theorem first_set_of_head (stop : ∀ c ∈ s.rest.head?, p c = false) :
    (Pattern.set p).first s = none := by
  obtain ⟨text, groups⟩ := s
  cases text with
  | nil => rfl
  | cons c text =>
      rw [Pattern.first, Pattern.results]
      dsimp only
      rw [if_neg (by simp [stop c rfl])]
      rfl

theorem results_eq_nil {a : Pattern α} (none_ : a.first s = none) : a.results s = [] :=
  List.head?_eq_none_iff.mp none_

theorem first_seq_of_none {a b : Pattern α} (none_ : a.first s = none) : (a.seq b).first s = none := by
  rw [first_seq, results_eq_nil none_]
  rfl

theorem first_seq_of_first {a b : Pattern α} {t : State α} {u : State α}
    (found : a.first s = some t) (behind : b.first t = some u) : (a.seq b).first s = some u := by
  obtain ⟨others, shape⟩ := List.head?_eq_some_iff.mp found
  rw [first_seq, shape, List.findSome?_cons, behind]

theorem search_of_first {a : Pattern α} {t : State α}
    (found : a.first ⟨text, fun _ => none⟩ = some t) : a.search text = some t := by
  cases text with
  | nil => exact found
  | cons c text => rw [Pattern.search, found]

theorem search_of_none {a : Pattern α} {c : α}
    (none_ : a.first ⟨c :: text, fun _ => none⟩ = none) : a.search (c :: text) = a.search text := by
  rw [Pattern.search, none_]

theorem first_group {index : Nat} {a : Pattern α} :
    (a.group index).first s = (a.first s).map fun t =>
      { t with
        groups := Function.update t.groups index
          (some (s.rest.take (s.rest.length - t.rest.length))) } := by
  rw [Pattern.first, Pattern.results, List.head?_map]
  rfl

/-- A set of characters once or more takes the whole run. -/
theorem first_plus_set {c : α} (given : p c = true) (all : ∀ c ∈ run, p c = true)
    (stop : ∀ c ∈ text.head?, p c = false) (groups : Nat → Option (List α)) :
    (Pattern.set p).plus.first ⟨c :: run ++ text, groups⟩ = some ⟨text, groups⟩ := by
  have one : (Pattern.set p).first ⟨c :: run ++ text, groups⟩ = some ⟨run ++ text, groups⟩ := by
    rw [Pattern.first, List.cons_append, Pattern.results]
    dsimp only
    rw [if_pos given]
    rfl
  exact first_seq_of_first one (first_star_set all stop groups)

end

end

end CppToolkit.Regex
