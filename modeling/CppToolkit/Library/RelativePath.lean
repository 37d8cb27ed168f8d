import CppToolkit.Library.LexicalPath

/-! The elements of a path name, and the way from one path to another without looking at a file
system. -/
namespace CppToolkit.LexicalPath

/-- The file names of a path. -/
def names (path : List UInt8) : List (List UInt8) := (path.splitOn separator).filter (· ≠ [])

/-- The root directory, if there is one, and the file names. -/
def trunk (path : List UInt8) : List (List UInt8) :=
  (if isAbsolute path then [[separator]] else []) ++ names path

/-- The elements of the iterator of a path; a separator behind a file name leaves an empty one. -/
def elements (path : List UInt8) : List (List UInt8) :=
  trunk path ++ if names path ≠ [] ∧ path.getLast? = some separator then [[]] else []

/-- `std::mismatch`: what is left of two lists behind what they have in common. -/
def mismatch {α : Type*} [DecidableEq α] : List α → List α → List α × List α
  | x :: xs, y :: ys => if x = y then mismatch xs ys else (x :: xs, y :: ys)
  | xs, ys => (xs, ys)

/-- How far down the elements lead. -/
def depth (part : List (List UInt8)) : Int :=
  (part.countP fun e => e ≠ [] ∧ e ≠ [dot] ∧ e ≠ [dot, dot] : Nat) -
    (part.countP fun e => e = [dot, dot] : Nat)

/-- `path::lexically_relative`. -/
def lexicallyRelative (path base : List UInt8) : List UInt8 :=
  if isAbsolute path ≠ isAbsolute base then []
  else
    let rest := mismatch (elements path) (elements base)
    if rest.1 = [] ∧ rest.2 = [] then [dot]
    else if depth rest.2 < 0 then []
    else if depth rest.2 = 0 ∧ (rest.1 = [] ∨ rest.1.head? = some []) then [dot]
    else (List.replicate (depth rest.2).toNat [dot, dot] ++ rest.1).foldl append []

/-- A file name of a directory entry. -/
def Plain (name : List UInt8) : Prop := name ≠ [] ∧ separator ∉ name

section
variable {path name : List UInt8} {below : List (List UInt8)}

theorem names_separated (path name : List UInt8) :
    names (path ++ separator :: name) = names path ++ names name := by
  simp only [names, List.splitOn_eq_splitOnP]
  rw [List.splitOnP_append_cons path name (by exact beq_self_eq_true separator), List.filter_append]

theorem splitOn_plain (plain : Plain name) : name.splitOn separator = [name] := by
  rw [List.splitOn_eq_splitOnP, List.splitOnP_eq_singleton]
  exact fun byte member => beq_eq_false_iff_ne.mpr fun same => plain.2 (same ▸ member)

theorem names_plain (plain : Plain name) : names name = [name] := by
  have kept : decide (name ≠ []) = true := decide_eq_true plain.1
  rw [names, splitOn_plain plain, List.filter_cons, if_pos kept, List.filter_nil]

theorem names_append (plain : Plain name) (path : List UInt8) :
    names (append path name) = names path ++ [name] := by
  rw [append, isAbsolute_eq_false plain.2, if_neg Bool.false_ne_true]
  split
  next => rw [names_separated, names_plain plain]
  next bare =>
    cases path using List.reverseRecOn with
    | nil => exact names_plain plain
    | append_singleton front last _ =>
        have ends : last = separator := by
          by_contra other
          refine bare (decide_eq_true ⟨List.concat_ne_nil _ _, ?_⟩)
          rw [List.getLast?_concat]
          exact fun same => other (Option.some.inj same)
        have nothing : names [] = [] := rfl
        rw [ends, List.append_assoc, List.singleton_append, names_separated, names_separated,
          names_plain plain, nothing, List.append_nil]

theorem trunk_append (plain : Plain name) (path : List UInt8) :
    trunk (append path name) = trunk path ++ [name] := by
  rw [trunk, trunk, isAbsolute_append (isAbsolute_eq_false plain.2), names_append plain,
    List.append_assoc]

theorem trunk_below (plain : ∀ name ∈ below, Plain name) (path : List UInt8) :
    trunk (below.foldl append path) = trunk path ++ below := by
  induction below generalizing path with
  | nil => exact (List.append_nil _).symm
  | cons name below ih =>
      rw [List.forall_mem_cons] at plain
      rw [List.foldl_cons, ih plain.2, trunk_append plain.1, List.append_assoc,
        List.singleton_append]

/-- Other names lead elsewhere. -/
theorem below_injective {others : List (List UInt8)} (plain : ∀ name ∈ below, Plain name)
    (plain' : ∀ name ∈ others, Plain name)
    (same : below.foldl append path = others.foldl append path) : below = others := by
  have trunks := congrArg trunk same
  rw [trunk_below plain, trunk_below plain'] at trunks
  exact List.append_cancel_left trunks

theorem getLast?_append (plain : Plain name) (path : List UInt8) :
    (append path name).getLast? ≠ some separator := by
  rw [append_eq_base plain.2, List.getLast?_append_of_ne_nil _ plain.1]
  exact fun ends => plain.2 (List.mem_of_getLast? ends)

/-- Going down from a path, name by name. -/
theorem elements_below (plain : ∀ name ∈ below, Plain name) (some_ : below ≠ [])
    (path : List UInt8) : elements (below.foldl append path) = trunk path ++ below := by
  cases below using List.reverseRecOn with
  | nil => exact absurd rfl some_
  | append_singleton front last =>
      have own : Plain last := plain last (List.mem_append_right _ List.mem_cons_self)
      have above : ∀ name ∈ front, Plain name := fun name member =>
        plain name (List.mem_append_left _ member)
      rw [List.foldl_concat, elements, trunk_append own, trunk_below above,
        if_neg fun ends => getLast?_append own _ ends.2, List.append_nil, List.append_assoc]

theorem isAbsolute_below (plain : ∀ name ∈ below, Plain name) (path : List UInt8) :
    isAbsolute (below.foldl append path) = isAbsolute path := by
  induction below generalizing path with
  | nil => rfl
  | cons name below ih =>
      rw [List.forall_mem_cons] at plain
      rw [List.foldl_cons, ih plain.2, isAbsolute_append (isAbsolute_eq_false plain.1.2)]

theorem mismatch_common {α : Type*} [DecidableEq α] (common xs ys : List α) :
    mismatch (common ++ xs) (common ++ ys) = mismatch xs ys := by
  induction common with
  | nil => rfl
  | cons x common ih =>
      rw [List.cons_append, List.cons_append, mismatch, if_pos rfl]
      exact ih

/-- The way from a path to what lies below it is the names in between. -/
theorem lexicallyRelative_below (plain : ∀ name ∈ below, Plain name) (some_ : below ≠ [])
    (path : List UInt8) :
    lexicallyRelative (below.foldl append path) path = below.foldl append [] := by
  obtain ⟨name, rest, rfl⟩ := List.exists_cons_of_ne_nil some_
  have own : name ≠ [] := (plain name List.mem_cons_self).1
  have left : ∃ part, mismatch (elements ((name :: rest).foldl append path)) (elements path) =
      (name :: rest, part) ∧ depth part = 0 := by
    rw [elements_below plain some_, elements]
    split
    next =>
      rw [mismatch_common]
      exact ⟨[[]], if_neg own, rfl⟩
    next =>
      rw [mismatch_common]
      exact ⟨[], rfl, rfl⟩
  obtain ⟨part, left, level⟩ := left
  have front : ¬ ((name :: rest) = [] ∨ (name :: rest).head? = some []) := by
    rintro (empty | empty)
    · cases empty
    · exact own (Option.some.inj empty)
  rw [lexicallyRelative, isAbsolute_below plain, if_neg (not_not_intro rfl)]
  simp only [left, level]
  rw [if_neg fun both => List.cons_ne_nil _ _ both.1, if_neg (Int.lt_irrefl 0),
    if_neg fun both => front both.2]
  rfl

/-- The names below a path, behind it. -/
theorem foldl_append_eq (plain : ∀ name ∈ below, Plain name) (own : Plain name) (path : List UInt8) :
    (name :: below).foldl append path = base path ++ (name ++ below.flatMap (separator :: ·)) := by
  induction below using List.reverseRecOn with
  | nil => rw [List.foldl_cons, List.foldl_nil, append_eq_base own.2, List.flatMap_nil, List.append_nil]
  | append_singleton front last ih =>
      have above : ∀ name ∈ front, Plain name := fun name member =>
        plain name (List.mem_append_left _ member)
      have lowest : Plain last := plain last (List.mem_append_right _ List.mem_cons_self)
      have ends : hasFilename ((name :: front).foldl append path) = true := by
        cases front using List.reverseRecOn with
        | nil =>
            refine decide_eq_true ⟨?_, getLast?_append own path⟩
            rw [List.foldl_cons, List.foldl_nil, append_eq_base own.2]
            exact fun empty => own.1 (List.append_eq_nil_iff.mp empty).2
        | append_singleton front next =>
            have next_ : Plain next := above next (List.mem_append_right _ List.mem_cons_self)
            rw [← List.cons_append, List.foldl_concat]
            refine decide_eq_true ⟨?_, getLast?_append next_ _⟩
            rw [append_eq_base next_.2]
            exact fun empty => next_.1 (List.append_eq_nil_iff.mp empty).2
      rw [← List.cons_append, List.foldl_concat, append_eq_base lowest.2, base, if_pos ends, ih above,
        List.flatMap_append, List.flatMap_singleton]
      simp only [List.append_assoc, List.singleton_append]

/-- A relative path of names leads from any path to where the names lead. -/
theorem append_below (plain : ∀ name ∈ below, Plain name) (some_ : below ≠ [])
    (path : List UInt8) : append path (below.foldl append []) = below.foldl append path := by
  obtain ⟨name, rest, rfl⟩ := List.exists_cons_of_ne_nil some_
  have relative := isAbsolute_below plain []
  rw [List.forall_mem_cons] at plain
  have here := foldl_append_eq plain.2 plain.1 []
  have nothing : base [] = [] := rfl
  rw [nothing, List.nil_append] at here
  rw [foldl_append_eq plain.2 plain.1 path, ← here, append, relative]
  have bare : ¬ isAbsolute [] = true := Bool.false_ne_true
  rw [if_neg bare, base]
  split
  next => rw [List.append_assoc, List.singleton_append]
  next => rfl

end

end CppToolkit.LexicalPath
