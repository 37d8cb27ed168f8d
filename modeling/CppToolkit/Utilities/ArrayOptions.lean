import CppToolkit.Library.Regex
import CppToolkit.Utilities.NumericOptions
import Mathlib.Data.List.DropRight

/-! Array options: `to_array` collects the matches of `\s*([^,]+)\s*`. -/
namespace CppToolkit.Utilities.ArgumentParser
open Regex

def comma : UInt8 := 44

def notComma (c : UInt8) : Bool := c ≠ comma

/-- `\s*([^,]+)\s*` -/
def reg : Pattern UInt8 :=
  .seq (.star (.set isspace)) (.seq (.group 1 (.plus (.set notComma))) (.star (.set isspace)))

/-- The loop over the matches: `match[1].str()` of each. -/
def elements (value : Token) : List Token :=
  (reg.allMatches value).map fun found => (found.groups 1).getD []

def toArray (arguments_ : Arguments) (key : Token) : Option (List Token) :=
  (arguments_ key).map elements

def trim (piece : Token) : Token := (piece.dropWhile isspace).rdropWhile isspace

def pieces (value : Token) : List Token := value.splitOn comma

/-- The trimmed pieces between commas, without the empty ones. -/
def trimmed (value : Token) : List Token := ((pieces value).map trim).filter (· ≠ [])

/-- What the group captures of a piece: white space before it is skipped, unless there is
nothing else in the piece. -/
def captured (piece : Token) : Token :=
  if piece.all isspace then piece.drop (piece.length - 1) else piece.dropWhile isspace

section
variable {run piece tail : Token} {c : UInt8}

theorem isspace_comma : isspace comma = false := by decide

theorem not_isspace_of_behind (behind : ∀ c ∈ tail.head?, c = comma) :
    ∀ c ∈ tail.head?, isspace c = false := by
  intro c head
  rw [behind c head, isspace_comma]

theorem notComma_of_behind (behind : ∀ c ∈ tail.head?, c = comma) :
    ∀ c ∈ tail.head?, notComma c = false := by
  intro c head
  rw [behind c head]
  rfl

/-- The group takes everything up to the next comma. -/
theorem first_element (plain : comma ∉ c :: run) (behind : ∀ c ∈ tail.head?, c = comma)
    (groups : Nat → Option Token) :
    (Pattern.seq (.group 1 (.plus (.set notComma))) (.star (.set isspace))).first
        ⟨c :: run ++ tail, groups⟩ =
      some ⟨tail, Function.update groups 1 (some (c :: run))⟩ := by
  have others : ∀ d ∈ c :: run, notComma d = true := by
    refine fun d member => decide_eq_true fun same => plain ?_
    rwa [← same]
  have run_ := first_plus_set (others c List.mem_cons_self)
    (fun d member => others d (List.mem_cons_of_mem _ member)) (notComma_of_behind behind) groups
  have taken : (c :: run ++ tail).take ((c :: run ++ tail).length - tail.length) = c :: run := by
    rw [List.length_append, Nat.add_sub_cancel_right, List.take_left]
  have group : (Pattern.group 1 (.plus (.set notComma))).first ⟨c :: run ++ tail, groups⟩ =
      some ⟨tail, Function.update groups 1 (some (c :: run))⟩ := by
    rw [first_group, run_, Option.map_some]
    dsimp only
    rw [taken]
  exact first_seq_of_first group (first_star_set_of_head (not_isspace_of_behind behind) _)

theorem first_element_behind (behind : ∀ c ∈ tail.head?, c = comma)
    (groups : Nat → Option Token) :
    (Pattern.seq (.group 1 (.plus (.set notComma))) (.star (.set isspace))).first
        ⟨tail, groups⟩ = none := by
  have stop : (Pattern.set notComma).plus.first ⟨tail, groups⟩ = none :=
    first_seq_of_none (first_set_of_head (notComma_of_behind behind))
  refine first_seq_of_none ?_
  rw [first_group, stop]
  rfl

/-- Before a comma or at the end nothing matches. -/
theorem first_reg_behind (behind : ∀ c ∈ tail.head?, c = comma) (groups : Nat → Option Token) :
    reg.first ⟨tail, groups⟩ = none := by
  rw [reg, first_seq, results_star_set, drops_of_head (not_isspace_of_behind behind)]
  rw [List.map_singleton, List.findSome?_singleton]
  exact first_element_behind behind groups

/-- A piece is matched up to the comma behind it. -/
theorem first_reg (some_ : piece ≠ []) (plain : comma ∉ piece)
    (behind : ∀ c ∈ tail.head?, c = comma) (groups : Nat → Option Token) :
    reg.first ⟨piece ++ tail, groups⟩ =
      some ⟨tail, Function.update groups 1 (some (captured piece))⟩ := by
  unfold captured
  split
  next blank =>
    cases piece using List.reverseRecOn with
    | nil => exact absurd rfl some_
    | append_singleton init last _ =>
    have all := List.all_eq_true.mp blank
    have space : isspace last = true := all last (List.mem_append_right _ List.mem_cons_self)
    have one : comma ∉ [last] := fun member => plain (List.mem_append_right _ member)
    have order : ∃ shorter, drops isspace (init ++ last :: tail) =
        tail :: (last :: tail) :: shorter :=
      drops_run_concat (fun c member => all c (List.mem_append_left _ member)) space
        (not_isspace_of_behind behind)
    obtain ⟨shorter, order⟩ := order
    rw [reg, first_seq, results_star_set, List.append_assoc, List.singleton_append, order,
      List.map_cons, List.map_cons, List.findSome?_cons, first_element_behind behind,
      List.findSome?_cons]
    have element := first_element one behind groups
    rw [List.singleton_append] at element
    rw [element]
    simp
  next given =>
    have mixed : piece.dropWhile isspace ≠ [] := by
      rw [Ne, List.dropWhile_eq_nil_iff]
      exact fun all => given (List.all_eq_true.mpr all)
    obtain ⟨c, run, shape⟩ := List.exists_cons_of_ne_nil mixed
    have starts : isspace c = false := by
      have head := List.head?_dropWhile_not isspace piece
      rwa [shape] at head
    have whole : piece = piece.takeWhile isspace ++ c :: run := by
      rw [← shape, List.takeWhile_append_dropWhile]
    have inside : comma ∉ c :: run := by
      rw [← shape]
      exact fun member => plain ((List.dropWhile_suffix _).subset member)
    rw [shape]
    conv_lhs => rw [whole, List.append_assoc]
    have leading : (Pattern.star (.set isspace)).first
        ⟨piece.takeWhile isspace ++ (c :: run ++ tail), groups⟩ = some ⟨c :: run ++ tail, groups⟩ :=
      first_star_set (fun d member => List.mem_takeWhile_imp member) (by simp [starts]) groups
    exact first_seq_of_first leading (first_element inside behind groups)

/-- The pieces that are not empty. -/
def nonEmpty (value : Token) : List Token := (pieces value).filter (· ≠ [])

theorem nonEmpty_comma (rest : Token) : nonEmpty (comma :: rest) = nonEmpty rest := by
  have cut : (comma :: rest).splitOn comma = [] :: rest.splitOn comma :=
    List.splitOn_append_cons_self_of_not_mem List.not_mem_nil rest
  rw [nonEmpty, pieces, cut]
  rfl

theorem nonEmpty_append (some_ : piece ≠ []) (plain : comma ∉ piece)
    (behind : ∀ c ∈ tail.head?, c = comma) : nonEmpty (piece ++ tail) = piece :: nonEmpty tail := by
  cases tail with
  | nil =>
      rw [List.append_nil, nonEmpty, pieces, List.splitOn_eq_singleton plain]
      exact List.filter_cons_of_pos (by simp [some_])
  | cons c rest =>
      rw [behind c rfl, nonEmpty_comma, nonEmpty, pieces,
        List.splitOn_append_cons_self_of_not_mem plain]
      exact List.filter_cons_of_pos (by simp [some_])

/-- A value is empty, begins with a comma, or with a piece. -/
theorem value_cases (value : Token) :
    value = [] ∨ (∃ rest, value = comma :: rest) ∨
      ∃ piece tail, value = piece ++ tail ∧ piece ≠ [] ∧ comma ∉ piece ∧
        ∀ c ∈ tail.head?, c = comma := by
  cases value with
  | nil => exact .inl rfl
  | cons c rest =>
      by_cases first : c = comma
      · exact .inr (.inl ⟨rest, by rw [first]⟩)
      refine .inr (.inr ⟨(c :: rest).takeWhile notComma, (c :: rest).dropWhile notComma,
        List.takeWhile_append_dropWhile.symm, ?_, ?_, ?_⟩)
      · rw [List.takeWhile_cons_of_pos (by simp [notComma, first])]
        exact List.cons_ne_nil _ _
      · intro member
        have other := List.mem_takeWhile_imp member
        simp [notComma] at other
      · intro d head
        have stop := List.head?_dropWhile_not notComma (c :: rest)
        rw [Option.mem_def.mp head] at stop
        simpa [notComma] using stop

theorem matchesWithin_comma (n : Nat) (rest : Token) :
    reg.matchesWithin n (comma :: rest) = reg.matchesWithin n rest := by
  have none_ : reg.first ⟨comma :: rest, fun _ => none⟩ = none :=
    first_reg_behind (by simp) _
  cases n with
  | zero => rfl
  | succ n => rw [Pattern.matchesWithin, Pattern.matchesWithin, search_of_none none_]

theorem matchesWithin_nil (n : Nat) : reg.matchesWithin n [] = [] := by
  have none_ : reg.search [] = none := first_reg_behind (by simp) _
  cases n with
  | zero => rfl
  | succ n => rw [Pattern.matchesWithin, none_]

/-- Every piece that is not empty gives one element. -/
theorem matchesWithin_eq {n : Nat} {value : Token} (enough : value.length ≤ n) :
    (reg.matchesWithin n value).map (fun found => (found.groups 1).getD []) =
      (nonEmpty value).map captured := by
  induction size : value.length using Nat.strongRecOn generalizing n value with
  | _ k ih =>
      obtain rfl | ⟨rest, rfl⟩ | ⟨piece, tail, rfl, some_, plain, behind⟩ := value_cases value
      · rw [matchesWithin_nil]
        rfl
      · rw [List.length_cons] at enough size
        rw [matchesWithin_comma, nonEmpty_comma]
        exact ih rest.length (by omega) (by omega) rfl
      · have positive := List.length_pos_iff.mpr some_
        rw [List.length_append] at enough size
        obtain ⟨n, rfl⟩ := Nat.exists_eq_succ_of_ne_zero (n := n) (by omega)
        rw [Pattern.matchesWithin, search_of_first (first_reg some_ plain behind _),
          nonEmpty_append some_ plain behind, List.map_cons, List.map_cons]
        rw [ih tail.length (by omega) (by omega) rfl]
        simp

theorem elements_eq (value : Token) : elements value = (nonEmpty value).map captured :=
  matchesWithin_eq (Nat.le_refl _)

theorem trim_of_blank (blank : piece.all isspace) : trim piece = [] := by
  rw [trim, List.dropWhile_eq_nil_iff.mpr (List.all_eq_true.mp blank)]
  rfl

theorem trim_ne_nil (mixed : ¬piece.all isspace) : trim piece ≠ [] := by
  intro empty
  rw [trim, List.rdropWhile_eq_nil_iff] at empty
  refine mixed (List.all_eq_true.mpr ?_)
  rw [← List.dropWhile_eq_nil_iff]
  have stop := List.head?_dropWhile_not isspace piece
  cases shape : piece.dropWhile isspace with
  | nil => rfl
  | cons c run =>
      rw [shape] at stop empty
      exact absurd (empty c List.mem_cons_self) (by simpa using stop)

/-- What is captured is trimmed exactly if no white space ends the piece. -/
theorem captured_eq_trim_iff (mixed : ¬piece.all isspace) :
    captured piece = trim piece ↔ ∀ c ∈ piece.getLast?, isspace c = false := by
  have kept : piece.dropWhile isspace ≠ [] := by
    rw [Ne, List.dropWhile_eq_nil_iff]
    exact fun all => mixed (List.all_eq_true.mpr all)
  have last : piece.getLast? = some ((piece.dropWhile isspace).getLast kept) := by
    conv_lhs => rw [← List.takeWhile_append_dropWhile (p := isspace) (l := piece)]
    rw [List.getLast?_append, List.getLast?_eq_some_getLast kept]
    rfl
  rw [captured, if_neg mixed, trim, eq_comm, List.rdropWhile_eq_self_iff, last]
  simp [kept]

theorem last_of_blank (some_ : piece ≠ []) (blank : piece.all isspace) :
    ¬∀ c ∈ piece.getLast?, isspace c = false := by
  intro plain
  have space := List.all_eq_true.mp blank _ (List.getLast_mem some_)
  rw [plain _ (List.getLast?_eq_some_getLast some_)] at space
  cases space

theorem filter_trim_blank (blank : piece.all isspace) (all : List Token) :
    ((piece :: all).map trim).filter (· ≠ []) = (all.map trim).filter (· ≠ []) := by
  rw [List.map_cons, trim_of_blank blank]
  exact List.filter_cons_of_neg (by simp)

theorem filter_trim_mixed (mixed : ¬piece.all isspace) (all : List Token) :
    ((piece :: all).map trim).filter (· ≠ []) = trim piece :: (all.map trim).filter (· ≠ []) := by
  rw [List.map_cons]
  exact List.filter_cons_of_pos (by simp [trim_ne_nil mixed])

theorem map_captured_cons (some_ : piece ≠ []) (all : List Token) :
    ((piece :: all).filter (· ≠ [])).map captured =
      captured piece :: (all.filter (· ≠ [])).map captured := by
  rw [List.filter_cons_of_pos (by simp [some_]), List.map_cons]

theorem length_trimmed_le (all : List Token) :
    ((all.map trim).filter (· ≠ [])).length ≤ ((all.filter (· ≠ [])).map captured).length := by
  induction all with
  | nil => exact Nat.le_refl 0
  | cons piece all ih =>
      by_cases empty : piece = []
      · subst empty
        exact ih
      rw [map_captured_cons empty, List.length_cons]
      by_cases blank : piece.all isspace
      · rw [filter_trim_blank blank]
        exact Nat.le_succ_of_le ih
      · rw [filter_trim_mixed blank, List.length_cons]
        exact Nat.succ_le_succ ih

theorem map_captured_iff (all : List Token) :
    (all.filter (· ≠ [])).map captured = (all.map trim).filter (· ≠ []) ↔
      ∀ piece ∈ all, ∀ c ∈ piece.getLast?, isspace c = false := by
  induction all with
  | nil => simp
  | cons piece all ih =>
      rw [List.forall_mem_cons]
      by_cases empty : piece = []
      · subst empty
        exact ih.trans (and_iff_right (fun _ => nofun)).symm
      rw [map_captured_cons empty]
      by_cases blank : piece.all isspace
      · -- a blank piece is captured and not kept by trimming
        rw [filter_trim_blank blank]
        refine iff_of_false (fun same => ?_) fun plain => last_of_blank empty blank plain.1
        have shorter := length_trimmed_le all
        rw [← same, List.length_cons] at shorter
        exact Nat.not_succ_le_self _ shorter
      · rw [filter_trim_mixed blank, List.cons.injEq, ih, captured_eq_trim_iff blank]

/-- An array option is the list of its trimmed elements exactly if no piece between commas ends
with white space. -/
theorem toArray_trims_iff (value : Token) :
    (∀ (arguments_ : Arguments) (key : Token), arguments_ key = some value →
        toArray arguments_ key = some (trimmed value)) ↔
      ∀ piece ∈ pieces value, ∀ c ∈ piece.getLast?, isspace c = false := by
  rw [← map_captured_iff]
  constructor
  · intro each
    have same := each (fun _ => some value) [] rfl
    rw [toArray, Option.map_some, Option.some_inj, elements_eq] at same
    exact same
  · intro same arguments_ key given
    rw [toArray, given, Option.map_some, elements_eq]
    exact congrArg some same

/-- White space before a comma stays, and a blank piece becomes an element. -/
theorem toArray_keeps_space :
    toArray (fun _ => some (literal "a ,b, ")) (literal "--list") =
        some (["a ", "b", " "].map literal) ∧
      trimmed (literal "a ,b, ") = ["a", "b"].map literal := by
  decide

end

end CppToolkit.Utilities.ArgumentParser
