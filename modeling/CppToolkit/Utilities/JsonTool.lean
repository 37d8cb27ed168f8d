import CppToolkit.Library.Json
import Mathlib.Algebra.Order.Ring.Int

/-! Pretty printing of JSON values: `pretty_print` and `pretty_format`. -/
namespace CppToolkit.Utilities.JsonTool
open Json

def intMax : Int := 2147483647

/-- The result of arithmetic on `int`; an overflow has none. -/
def int (n : Int) : Option Int := if -intMax - 1 ≤ n ∧ n ≤ intMax then some n else none

/-- `std::string(count, ' ')`, which throws for a negative count. -/
def spaces (count : Int) : Option (List UInt8) :=
  if 0 ≤ count then some (List.replicate count.toNat 32) else none

def newline : UInt8 := 10

/-- Behind the outermost value. -/
def ending (depth : Int) : List UInt8 := if depth = 0 then [newline] else []

section
variable {σ κ : Type} (codec : Codec σ κ) (indentWidth : Int)

mutual

/-- What is written to the stream. -/
def prettyPrint (depth : Int) : Value σ κ → Option (List UInt8)
  | .object members => do
      let indent ← spaces (← int (depth * indentWidth))
      let deeper ← int (depth + 1)
      let newIndent ← spaces (← int (deeper * indentWidth))
      let printed ← printMembers deeper newIndent members
      let body := if members.isEmpty then [] else newline :: printed ++ newline :: indent
      some (openObject ++ body ++ closeObject ++ ending depth)
  | .array items => do
      let indent ← spaces (← int (depth * indentWidth))
      let deeper ← int (depth + 1)
      let newIndent ← spaces (← int (deeper * indentWidth))
      let printed ← printItems deeper newIndent items
      let body := if items.isEmpty then [] else newline :: printed ++ newline :: indent
      some (openArray ++ body ++ closeArray ++ ending depth)
  | .scalar s => do
      let _ ← spaces (← int (depth * indentWidth))
      some (codec.serialize s ++ ending depth)

/-- The loop over the members, which ends behind the last one. -/
def printMembers (deeper : Int) (newIndent : List UInt8) :
    List (κ × Value σ κ) → Option (List UInt8)
  | [] => some []
  | (key, item) :: rest => do
      let printed ← prettyPrint deeper item
      let others ← printMembers deeper newIndent rest
      let behind := if rest.isEmpty then [] else comma ++ newline :: others
      some (newIndent ++ codec.serializeKey key ++ colon ++ 32 :: printed ++ behind)

/-- The loop over the items. -/
def printItems (deeper : Int) (newIndent : List UInt8) : List (Value σ κ) → Option (List UInt8)
  | [] => some []
  | item :: rest => do
      let printed ← prettyPrint deeper item
      let others ← printItems deeper newIndent rest
      let behind := if rest.isEmpty then [] else comma ++ newline :: others
      some (newIndent ++ printed ++ behind)

end

def prettyFormat (depth : Int) (value : Value σ κ) : Option (List UInt8) :=
  prettyPrint codec indentWidth depth value

end

section
variable {σ κ : Type}

mutual

/-- How many containers are inside one another. -/
def nesting : Value σ κ → Nat
  | .scalar _ => 0
  | .array items => nestingOfItems items + 1
  | .object members => nestingOfMembers members + 1

def nestingOfItems : List (Value σ κ) → Nat
  | [] => 0
  | item :: rest => max (nesting item) (nestingOfItems rest)

def nestingOfMembers : List (κ × Value σ κ) → Nat
  | [] => 0
  | (_, item) :: rest => max (nesting item) (nestingOfMembers rest)

end

/-- The depth that the nesting reaches, and its product with the indent width, are values of
`int`. -/
def Fits (indentWidth depth : Int) (value : Value σ κ) : Prop :=
  depth + nesting value ≤ intMax ∧ (depth + nesting value) * indentWidth ≤ intMax

/-- In front of what ends a lexeme, the text has the lexemes. -/
def Prints (text : List UInt8) (lexemes : List Lexeme) : Prop :=
  ∀ rest, Stops rest → lex (text ++ rest) = (lex rest).map (lexemes ++ ·)

end

section
variable {σ κ : Type} {codec : Codec σ κ} {indentWidth limit depth : Int}

theorem int_eq {n : Int} (low : 0 ≤ n) (high : n ≤ intMax) : int n = some n := by
  refine if_pos ⟨Int.le_trans ?_ low, high⟩
  decide

/-- Up to the limit every indent can be computed. -/
theorem indent_eq (depth : Int) (width : 0 ≤ indentWidth)
    (product : limit * indentWidth ≤ intMax) (low : 0 ≤ depth) (high : depth ≤ limit) :
    ∃ indent, (int (depth * indentWidth)).bind spaces = some indent ∧
      ∀ c ∈ indent, isSpace c := by
  have positive : 0 ≤ depth * indentWidth := Int.mul_nonneg low width
  have small := Int.le_trans (Int.mul_le_mul_of_nonneg_right high width) product
  refine ⟨List.replicate (depth * indentWidth).toNat 32, ?_, fun c member => ?_⟩
  · rw [int_eq positive small, Option.bind_some, spaces, if_pos positive]
  · rw [List.eq_of_mem_replicate member]
    decide

theorem stops_cons {c : UInt8} (mark : isSpace c ∨ isPunctuation c) (rest : List UInt8) :
    Stops (c :: rest) := by
  rintro d ⟨⟩
  exact mark

theorem stops_ending (depth : Int) {rest : List UInt8} (stops : Stops rest) :
    Stops (ending depth ++ rest) := by
  unfold ending
  split
  next => exact stops_cons (.inl (by decide)) rest
  next => exact stops

theorem lex_ending (depth : Int) (rest : List UInt8) : lex (ending depth ++ rest) = lex rest := by
  unfold ending
  split
  next => exact lex_space (by decide)
  next => rfl

theorem prints_scalar (s : σ) (depth : Int) :
    Prints (codec.serialize s ++ ending depth) [codec.serialize s] := by
  intro rest stops
  rw [List.append_assoc, lex_scalar s (stops_ending depth stops), lex_ending]
  rfl

/-- A container that is empty. -/
theorem prints_empty {o c : UInt8} (opens : isPunctuation o) (ends : isPunctuation c) (depth : Int) :
    Prints ([o] ++ [] ++ [c] ++ ending depth) [[o], [c]] := by
  intro rest _
  have shape : [o] ++ [] ++ [c] ++ ending depth ++ rest = o :: c :: (ending depth ++ rest) := rfl
  rw [shape, lex_punctuation opens, lex_punctuation ends, lex_ending, Option.map_map]
  rfl

/-- A container whose content is printed on lines of its own. -/
theorem prints_container {o c : UInt8} (opens : isPunctuation o) (ends : isPunctuation c)
    (depth : Int) {printed indent : List UInt8} {lexemes : List Lexeme}
    (content : Prints printed lexemes) (blank : ∀ c ∈ indent, isSpace c) :
    Prints ([o] ++ (newline :: printed ++ newline :: indent) ++ [c] ++ ending depth)
      ([o] :: lexemes ++ [[c]]) := by
  intro rest _
  have shape : [o] ++ (newline :: printed ++ newline :: indent) ++ [c] ++ ending depth ++ rest =
      o :: newline :: (printed ++ newline :: (indent ++ c :: (ending depth ++ rest))) := by
    simp
  have line : isSpace newline := by decide
  rw [shape, lex_punctuation opens, lex_space line, content _ (stops_cons (.inl line) _),
    lex_space line, lex_spaces blank, lex_punctuation ends, lex_ending]
  simp only [Option.map_map]
  refine congrArg (fun f => (lex rest).map f) ?_
  funext lexemes
  simp

/-- What follows an item: nothing, or a comma and the items of the next lines. -/
theorem prints_behind {front others : List UInt8} {lexemes more : List Lexeme} (last : Bool)
    (item : Prints front lexemes) (rest : last = false → Prints others more) :
    Prints (front ++ if last then [] else comma ++ newline :: others)
      (lexemes ++ if last then [] else comma :: more) := by
  intro text stops
  cases last with
  | true =>
      rw [if_pos rfl, if_pos rfl, List.append_nil, List.append_nil]
      exact item text stops
  | false =>
      have mark : isPunctuation 44 := by decide
      have shape : front ++ (comma ++ newline :: others) ++ text =
          front ++ 44 :: newline :: (others ++ text) := by
        rw [List.append_assoc]
        rfl
      rw [if_neg Bool.false_ne_true, if_neg Bool.false_ne_true, shape,
        item _ (stops_cons (.inr mark) _), lex_punctuation mark, lex_space (by decide),
        rest rfl text stops]
      simp only [Option.map_map]
      refine congrArg (fun f => (lex text).map f) ?_
      funext lexemes
      simp [comma]

theorem prints_indented {newIndent printed : List UInt8} {lexemes : List Lexeme}
    (blank : ∀ c ∈ newIndent, isSpace c) (content : Prints printed lexemes) :
    Prints (newIndent ++ printed) lexemes := by
  intro rest stops
  rw [List.append_assoc, lex_spaces blank]
  exact content rest stops

theorem prints_member {newIndent printed : List UInt8} {lexemes : List Lexeme}
    (blank : ∀ c ∈ newIndent, isSpace c) (key : κ) (content : Prints printed lexemes) :
    Prints (newIndent ++ codec.serializeKey key ++ colon ++ 32 :: printed)
      (codec.serializeKey key :: colon :: lexemes) := by
  intro rest stops
  have shape : newIndent ++ codec.serializeKey key ++ colon ++ 32 :: printed ++ rest =
      newIndent ++ (codec.serializeKey key ++ 58 :: 32 :: (printed ++ rest)) := by
    simp [colon]
  rw [shape, lex_spaces blank, lex_string (codec.string_serializeKey key),
    lex_punctuation (by decide), lex_space (by decide), content rest stops]
  simp only [Option.map_map]
  rfl

section
variable {indent newIndent printed : List UInt8}

theorem prettyPrint_array {items : List (Value σ κ)}
    (here : (int (depth * indentWidth)).bind spaces = some indent)
    (deeper : int (depth + 1) = some (depth + 1))
    (below : (int ((depth + 1) * indentWidth)).bind spaces = some newIndent)
    (loop : printItems codec indentWidth (depth + 1) newIndent items = some printed) :
    prettyPrint codec indentWidth depth (.array items) = some (openArray ++
      (if items.isEmpty then [] else newline :: printed ++ newline :: indent) ++ closeArray ++
        ending depth) := by
  obtain ⟨product, first, made⟩ := Option.bind_eq_some_iff.mp here
  obtain ⟨next, second, madeNew⟩ := Option.bind_eq_some_iff.mp below
  rw [prettyPrint, first, deeper]
  simp only [Option.bind_eq_bind, Option.bind_some, made, second, madeNew, loop]

theorem prettyPrint_object {members : List (κ × Value σ κ)}
    (here : (int (depth * indentWidth)).bind spaces = some indent)
    (deeper : int (depth + 1) = some (depth + 1))
    (below : (int ((depth + 1) * indentWidth)).bind spaces = some newIndent)
    (loop : printMembers codec indentWidth (depth + 1) newIndent members = some printed) :
    prettyPrint codec indentWidth depth (.object members) = some (openObject ++
      (if members.isEmpty then [] else newline :: printed ++ newline :: indent) ++ closeObject ++
        ending depth) := by
  obtain ⟨product, first, made⟩ := Option.bind_eq_some_iff.mp here
  obtain ⟨next, second, madeNew⟩ := Option.bind_eq_some_iff.mp below
  rw [prettyPrint, first, deeper]
  simp only [Option.bind_eq_bind, Option.bind_some, made, second, madeNew, loop]

end

mutual

/-- A value is printed as its lexemes, as long as the arithmetic stays within the limit. -/
theorem prettyPrint_prints (width : 0 ≤ indentWidth) (range : limit ≤ intMax)
    (product : limit * indentWidth ≤ intMax) (v : Value σ κ) (depth : Int) (low : 0 ≤ depth)
    (high : depth + nesting v ≤ limit) :
    ∃ text, prettyPrint codec indentWidth depth v = some text ∧ Prints text (lexemes codec v) := by
  obtain ⟨indent, here, blank⟩ := indent_eq depth width product low (by omega)
  match v with
  | .scalar s =>
      refine ⟨_, ?_, prints_scalar s depth⟩
      obtain ⟨product, first, made⟩ := Option.bind_eq_some_iff.mp here
      rw [prettyPrint, first, Option.bind_eq_bind, Option.bind_some, made]
      rfl
  | .array items =>
      rw [nesting, Nat.cast_add, Nat.cast_one] at high
      obtain ⟨newIndent, below, blankNew⟩ :=
        indent_eq (depth + 1) width product (by omega) (by omega)
      obtain ⟨printed, loop, content⟩ := printItems_prints width range product items (depth + 1)
        newIndent (by omega) (by omega) blankNew
      refine ⟨_, prettyPrint_array here (int_eq (by omega) (by omega)) below loop, ?_⟩
      cases items with
      | nil => exact prints_empty (by decide) (by decide) depth
      | cons item items =>
          exact prints_container (by decide) (by decide) depth (content rfl) blank
  | .object members =>
      rw [nesting, Nat.cast_add, Nat.cast_one] at high
      obtain ⟨newIndent, below, blankNew⟩ :=
        indent_eq (depth + 1) width product (by omega) (by omega)
      obtain ⟨printed, loop, content⟩ := printMembers_prints width range product members
        (depth + 1) newIndent (by omega) (by omega) blankNew
      refine ⟨_, prettyPrint_object here (int_eq (by omega) (by omega)) below loop, ?_⟩
      cases members with
      | nil => exact prints_empty (by decide) (by decide) depth
      | cons member members =>
          exact prints_container (by decide) (by decide) depth (content rfl) blank

theorem printItems_prints (width : 0 ≤ indentWidth) (range : limit ≤ intMax)
    (product : limit * indentWidth ≤ intMax) (items : List (Value σ κ)) (deeper : Int)
    (newIndent : List UInt8) (low : 0 ≤ deeper) (high : deeper + nestingOfItems items ≤ limit)
    (blank : ∀ c ∈ newIndent, isSpace c) :
    ∃ printed, printItems codec indentWidth deeper newIndent items = some printed ∧
      (items.isEmpty = false → Prints printed (itemLexemes codec items)) := by
  match items with
  | [] => exact ⟨[], rfl, nofun⟩
  | item :: rest =>
      rw [nestingOfItems] at high
      obtain ⟨printed, print, content⟩ := prettyPrint_prints width range product item
        deeper low (by omega)
      obtain ⟨others, loop, more⟩ := printItems_prints width range product rest deeper newIndent
        low (by omega) blank
      refine ⟨_, ?_, fun _ => prints_behind rest.isEmpty (prints_indented blank content) more⟩
      rw [printItems, print, loop]
      rfl

theorem printMembers_prints (width : 0 ≤ indentWidth) (range : limit ≤ intMax)
    (product : limit * indentWidth ≤ intMax) (members : List (κ × Value σ κ)) (deeper : Int)
    (newIndent : List UInt8) (low : 0 ≤ deeper) (high : deeper + nestingOfMembers members ≤ limit)
    (blank : ∀ c ∈ newIndent, isSpace c) :
    ∃ printed, printMembers codec indentWidth deeper newIndent members = some printed ∧
      (members.isEmpty = false → Prints printed (memberLexemes codec members)) := by
  match members with
  | [] => exact ⟨[], rfl, nofun⟩
  | (key, item) :: rest =>
      rw [nestingOfMembers] at high
      obtain ⟨printed, print, content⟩ := prettyPrint_prints width range product item
        deeper low (by omega)
      obtain ⟨others, loop, more⟩ := printMembers_prints width range product rest deeper newIndent
        low (by omega) blank
      refine ⟨_, ?_, fun _ => prints_behind rest.isEmpty (prints_member blank key content) more⟩
      rw [printMembers, print, loop]
      rfl

end

/-- A text is printed that is read as the same value, and that is the compact serialisation but
for white space between the lexemes. -/
theorem prettyFormat_preserves (codec : Codec σ κ) (value : Value σ κ) (width : 0 ≤ indentWidth)
    (low : 0 ≤ depth) (fits : Fits indentWidth depth value) :
    ∃ text, prettyFormat codec indentWidth depth value = some text ∧
      parse codec text = some value ∧
      (lex text).map List.flatten = some (compact codec value) := by
  obtain ⟨range, product⟩ := fits
  obtain ⟨text, printed, content⟩ : ∃ text, prettyPrint codec indentWidth depth value = some text ∧
      Prints text (lexemes codec value) :=
    prettyPrint_prints width range product value depth low (Int.le_refl _)
  have whole := content [] (fun _ => nofun)
  have nothing : lex [] = some [] := rfl
  rw [List.append_nil, nothing, Option.map_some, List.append_nil] at whole
  refine ⟨text, printed, parse_of_lex whole, ?_⟩
  rw [whole]
  rfl

end

inductive Literal where
  | null | falseValue | trueValue
  deriving DecidableEq, Repr

def Literal.text : Literal → List UInt8
  | .null => [110, 117, 108, 108]
  | .falseValue => [102, 97, 108, 115, 101]
  | .trueValue => [116, 114, 117, 101]

theorem isWord_text (s : Literal) : IsWord s.text := by
  have letters : s.text.all fun c => !isSpace c && !isPunctuation c && c != quote := by
    cases s <;> rfl
  refine ⟨by cases s <;> exact List.cons_ne_nil _ _, fun c member => ?_⟩
  have letter := List.all_eq_true.mp letters c member
  simpa [and_assoc] using letter

/-- A string in which nothing needs an escape. -/
abbrev PlainString := { text : List UInt8 // ∀ c ∈ text, c ≠ quote ∧ c ≠ backslash ∧ 32 ≤ c }

def quoted (text : List UInt8) : Lexeme := quote :: (text ++ [quote])

theorem closes_quoted {text : List UInt8}
    (plain : ∀ c ∈ text, c ≠ quote ∧ c ≠ backslash ∧ 32 ≤ c) :
    closes false (text ++ [quote]) := by
  induction text with
  | nil => decide
  | cons c text ih =>
      obtain ⟨other, unescaped, -⟩ := plain c List.mem_cons_self
      rw [List.cons_append, closes, if_neg unescaped, if_neg other]
      exact ih fun d member => plain d (List.mem_cons_of_mem _ member)

/-- The literals and the plain strings as keys. -/
def literals : Codec Literal PlainString where
  serialize := Literal.text
  serializeKey := fun key => quoted key.val
  parse := fun lexeme => [.null, .falseValue, .trueValue].find? fun s => s.text = lexeme
  parseKey := fun lexeme =>
    let text := lexeme.tail.dropLast
    if plain : lexeme = quoted text ∧ text.all (fun c => c ≠ quote ∧ c ≠ backslash ∧ 32 ≤ c) then
      some ⟨text, fun c member => of_decide_eq_true (List.all_eq_true.mp plain.2 c member)⟩
    else none
  lexeme_serialize := fun s => .inr (isWord_text s)
  parse_serialize := fun s => by
    cases s <;> rfl
  string_serializeKey := fun key => ⟨key.val ++ [quote], rfl, closes_quoted key.property⟩
  parseKey_serializeKey := fun key => by
    have text : (quoted key.val).tail.dropLast = key.val := List.dropLast_concat
    refine (dif_pos ⟨?_, ?_⟩).trans (congrArg some (Subtype.ext text))
    · rw [text]
    · rw [text]
      exact List.all_eq_true.mpr fun c member => decide_eq_true (key.property c member)

/-- A key of one letter. -/
def letter (c : UInt8) (plain : c ≠ quote ∧ c ≠ backslash ∧ 32 ≤ c) : PlainString :=
  ⟨[c], fun d member => by rwa [List.mem_singleton.mp member]⟩

/-- An object with an array and an empty object in it. -/
def nested : Value Literal PlainString :=
  .object [(letter 97 (by decide), .array [.scalar .null, .array []]),
    (letter 98 (by decide), .object [])]

theorem prettyFormat_nested : ∃ text, prettyFormat literals 2 0 nested = some text ∧
    parse literals text = some nested ∧
      (lex text).map List.flatten = some (compact literals nested) :=
  prettyFormat_preserves literals nested (by decide) (by decide) ⟨by decide, by decide⟩

end CppToolkit.Utilities.JsonTool
