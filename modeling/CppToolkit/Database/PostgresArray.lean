import CppToolkit.Library.Fstream
import Mathlib.Data.List.DropRight

/-! What `parse_postgres_array` makes of the text that PostgreSQL puts out for a `text[]`. -/
namespace CppToolkit.Database
open Fstream

def space : UInt8 := 32

def quote : UInt8 := 34

def comma : UInt8 := 44

def backslash : UInt8 := 92

def opening : UInt8 := 123

def closing : UInt8 := 125

/-- The group of the first match of the regular expression of a brace, bytes other than the
closing brace, and the closing brace. -/
def braced (text : List UInt8) : Option (List UInt8) :=
  let behind := (text.dropWhile (· ≠ opening)).drop 1
  if closing ∈ behind then some (behind.takeWhile (· ≠ closing)) else none

/-- The two `erase` calls. -/
def trim (element : List UInt8) : List UInt8 :=
  (element.dropWhile (· = space)).rdropWhile (· = space)

def parsePostgresArray (arrayString : List UInt8) : List (List UInt8) :=
  match braced arrayString with
  | none => []
  | some elementsString => (pieces comma elementsString).map trim

/-- The bytes that make `array_out` quote an element; white space is that of ASCII. -/
def special (b : UInt8) : Bool :=
  b == comma || b == opening || b == closing || b == quote || b == backslash || b == space ||
    (9 ≤ b && b ≤ 13)

def lower (b : UInt8) : UInt8 := if 65 ≤ b ∧ b ≤ 90 then b + 32 else b

def needsQuotes (element : List UInt8) : Bool :=
  element == [] || element.map lower == [110, 117, 108, 108] || element.any special

def escaped (element : List UInt8) : List UInt8 :=
  element.flatMap fun b => if b = quote ∨ b = backslash then [backslash, b] else [b]

def outputElement (element : List UInt8) : List UInt8 :=
  if needsQuotes element then quote :: escaped element ++ [quote] else element

/-- The elements with commas between them. -/
def joined : List (List UInt8) → List UInt8
  | [] => []
  | [element] => outputElement element
  | element :: more => outputElement element ++ comma :: joined more

/-- The output of PostgreSQL for a one-dimensional `text[]` without null elements. -/
def arrayOutput (elements : List (List UInt8)) : List UInt8 :=
  opening :: joined elements ++ [closing]

section
variable {element : List UInt8} {elements : List (List UInt8)}

/-- The part of the parser behind the opening brace. -/
def parsed (text : List UInt8) : List (List UInt8) :=
  (pieces comma (text.takeWhile (· ≠ closing))).map trim

theorem parsePostgresArray_braced (text : List UInt8) :
    parsePostgresArray (opening :: text ++ [closing]) = parsed (text ++ [closing]) := by
  have group : braced (opening :: text ++ [closing]) =
      some ((text ++ [closing]).takeWhile (· ≠ closing)) := by
    have behind : ((opening :: text ++ [closing]).dropWhile (· ≠ opening)).drop 1 =
        text ++ [closing] := by
      rw [List.cons_append, List.dropWhile_cons_of_neg (by simp)]
      rfl
    unfold braced
    rw [behind]
    exact if_pos (List.mem_append_right _ List.mem_cons_self)
  rw [parsePostgresArray, group]
  rfl

theorem takeWhile_closing {text : List UInt8} (plain : closing ∉ text) (more : List UInt8) :
    (text ++ more).takeWhile (· ≠ closing) = text ++ more.takeWhile (· ≠ closing) :=
  List.takeWhile_append_of_pos fun _ member =>
    decide_eq_true fun same => plain (same ▸ member)

/-- An element in front of a comma. -/
theorem parsed_comma {text : List UInt8} (plain : comma ∉ text ∧ closing ∉ text)
    (more : List UInt8) : parsed (text ++ comma :: more) = trim text :: parsed more := by
  unfold parsed
  rw [takeWhile_closing plain.2, List.takeWhile_cons_of_pos (by decide), pieces_piece plain.1,
    List.map_cons]

theorem parsed_closing {text : List UInt8} (plain : comma ∉ text ∧ closing ∉ text)
    (some_ : text ≠ []) : parsed (text ++ [closing]) = [trim text] := by
  unfold parsed
  rw [takeWhile_closing plain.2, List.takeWhile_cons_of_neg (by decide), List.append_nil,
    pieces_last plain.1 some_]
  rfl

/-- No element has a comma or a closing brace in it. -/
theorem parsed_plain (text : List UInt8) :
    ∀ element ∈ parsed text, comma ∉ element ∧ closing ∉ element := by
  intro element member
  obtain ⟨piece, found, rfl⟩ := List.mem_map.mp member
  have inside : ∀ b ∈ trim piece, b ∈ piece := fun b byte =>
    (List.dropWhile_suffix _).subset ((List.rdropWhile_prefix _ _).subset byte)
  refine ⟨fun byte => pieces_plain comma _ piece found (inside _ byte), fun byte => ?_⟩
  have taken := List.mem_takeWhile_imp (mem_of_mem_pieces found (inside _ byte))
  simp at taken

theorem length_escaped (element : List UInt8) : element.length ≤ (escaped element).length := by
  induction element with
  | nil => exact Nat.le_refl 0
  | cons b rest ih =>
      have first : 1 ≤ (if b = quote ∨ b = backslash then [backslash, b] else [b]).length := by
        split <;> simp
      unfold escaped at ih ⊢
      rw [List.flatMap_cons, List.length_append, List.length_cons]
      omega

theorem mem_escaped {b : UInt8} (byte : b ∈ escaped element) : b ∈ element ∨ b = backslash := by
  obtain ⟨c, member, byte⟩ := List.mem_flatMap.mp byte
  split at byte
  next =>
    rcases List.mem_cons.mp byte with same | last
    · exact .inr same
    · exact .inl (List.mem_singleton.mp last ▸ member)
  next => exact .inl (List.mem_singleton.mp byte ▸ member)

theorem outputElement_eq_iff : outputElement element = element ↔ needsQuotes element = false := by
  unfold outputElement
  cases needsQuotes element with
  | false => exact iff_of_true rfl rfl
  | true =>
      refine iff_of_false (fun same => ?_) (Bool.noConfusion ·)
      have longer := length_escaped element
      have lengths := congrArg List.length same
      rw [if_pos rfl, List.length_append, List.length_cons] at lengths
      omega

theorem special_of_plain (plain : needsQuotes element = false) :
    element ≠ [] ∧ ∀ b ∈ element, special b = false := by
  unfold needsQuotes at plain
  rw [Bool.or_eq_false_iff, Bool.or_eq_false_iff, List.any_eq_false] at plain
  refine ⟨fun empty => ?_, fun b member => eq_false_of_ne_true (plain.2 b member)⟩
  rw [empty] at plain
  cases plain.1.1

theorem trim_of_plain (plain : ∀ b ∈ element, b ≠ space) : trim element = element := by
  unfold trim
  cases element with
  | nil => rfl
  | cons b rest =>
      rw [List.dropWhile_cons_of_neg (by simpa using plain b List.mem_cons_self),
        List.rdropWhile_eq_self_iff]
      intro some_
      simpa using plain _ (List.getLast_mem some_)

theorem trim_quoted (text : List UInt8) :
    trim (quote :: text ++ [quote]) = quote :: text ++ [quote] := by
  unfold trim
  rw [List.cons_append, List.dropWhile_cons_of_neg (by decide), ← List.cons_append]
  exact List.rdropWhile_concat_neg _ _ _ (by decide)

/-- An element with neither a comma nor a closing brace is put out as one piece, and nothing of
it is trimmed. -/
theorem outputElement_piece (plain : comma ∉ element ∧ closing ∉ element) :
    (comma ∉ outputElement element ∧ closing ∉ outputElement element) ∧
      outputElement element ≠ [] ∧ trim (outputElement element) = outputElement element := by
  unfold outputElement
  cases quoted : needsQuotes element with
  | false =>
      obtain ⟨some_, ordinary⟩ := special_of_plain quoted
      refine ⟨plain, some_, trim_of_plain fun b member same => ?_⟩
      have ordinary := ordinary b member
      rw [same] at ordinary
      cases ordinary
  | true =>
      have outside : ∀ b, b ∉ element → b ≠ quote → b ≠ backslash →
          b ∉ quote :: escaped element ++ [quote] := by
        intro b absent other other' member
        rcases List.mem_append.mp member with front | last
        · rcases List.mem_cons.mp front with same | inside
          · exact other same
          · exact (mem_escaped inside).elim absent other'
        · exact other (List.mem_singleton.mp last)
      refine ⟨⟨outside comma plain.1 (by decide) (by decide),
        outside closing plain.2 (by decide) (by decide)⟩, ?_, trim_quoted _⟩
      rw [if_pos rfl]
      exact List.append_ne_nil_of_right_ne_nil _ (List.cons_ne_nil quote [])

/-- The step of the proof: the elements are read back if the first is and the others are. -/
theorem parsed_joined_iff : parsed (joined elements ++ [closing]) = elements ↔
    ∀ element ∈ elements, needsQuotes element = false := by
  induction elements with
  | nil => exact iff_of_true rfl fun _ member => by cases member
  | cons element more ih =>
      by_cases plain : comma ∉ element ∧ closing ∉ element
      · obtain ⟨clean, some_, trimmed⟩ := outputElement_piece plain
        rw [List.forall_mem_cons, ← ih, ← outputElement_eq_iff]
        cases more with
        | nil =>
            have one : joined [element] = outputElement element := rfl
            rw [one, parsed_closing clean some_, trimmed, List.cons.injEq]
            exact and_congr_right fun _ => iff_of_true rfl rfl
        | cons next more =>
            rw [joined, List.append_assoc, List.cons_append, parsed_comma clean, trimmed,
              List.cons.injEq]
            exact List.cons_ne_nil next more
      · refine iff_of_false (fun same => plain ?_) fun all => plain ?_
        · exact parsed_plain _ element (same.symm ▸ List.mem_cons_self)
        · have ordinary := (special_of_plain (List.forall_mem_cons.mp all).1).2
          exact ⟨fun byte => absurd (ordinary comma byte) (by decide),
            fun byte => absurd (ordinary closing byte) (by decide)⟩

end

/-- The elements come back exactly if none of them is quoted. -/
theorem parse_arrayOutput_iff (elements : List (List UInt8)) :
    parsePostgresArray (arrayOutput elements) = elements ↔
      ∀ element ∈ elements, needsQuotes element = false := by
  rw [arrayOutput, parsePostgresArray_braced]
  exact parsed_joined_iff

/-- An element with a comma becomes two elements. -/
theorem parse_quoted_differs :
    ¬ ∀ elements, parsePostgresArray (arrayOutput elements) = elements := by
  intro every
  have same := every [[97, 44, 98]]
  revert same
  decide

end CppToolkit.Database
