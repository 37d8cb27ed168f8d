import Mathlib.Data.List.Basic

/-! JSON texts as white space between lexemes, and values as what a recursive descent reads from
the lexemes. Scalars and keys are read and written by a codec. -/
namespace CppToolkit.Json

abbrev Lexeme := List UInt8

def isSpace (c : UInt8) : Bool := c = 32 ∨ c = 10 ∨ c = 13 ∨ c = 9

/-- Brackets, braces, colon and comma. -/
def isPunctuation (c : UInt8) : Bool := c = 91 ∨ c = 93 ∨ c = 123 ∨ c = 125 ∨ c = 58 ∨ c = 44

def quote : UInt8 := 34
def backslash : UInt8 := 92

def openArray : Lexeme := [91]
def closeArray : Lexeme := [93]
def openObject : Lexeme := [123]
def closeObject : Lexeme := [125]
def colon : Lexeme := [58]
def comma : Lexeme := [44]

/-- The text ends with the first quote that no backslash escapes. -/
def closes : Bool → List UInt8 → Bool
  | _, [] => false
  | true, _ :: rest => closes false rest
  | false, c :: rest =>
      if c = backslash then closes true rest
      else if c = quote then rest = []
      else closes false rest

def IsString (lexeme : Lexeme) : Prop := ∃ body, lexeme = quote :: body ∧ closes false body

/-- Numbers and literals. -/
def IsWord (lexeme : Lexeme) : Prop :=
  lexeme ≠ [] ∧ ∀ c ∈ lexeme, isSpace c = false ∧ isPunctuation c = false ∧ c ≠ quote

/-- Scalars and keys, each with the lexeme that stands for it. -/
structure Codec (σ κ : Type) where
  serialize : σ → Lexeme
  serializeKey : κ → Lexeme
  parse : Lexeme → Option σ
  parseKey : Lexeme → Option κ
  lexeme_serialize : ∀ s, IsString (serialize s) ∨ IsWord (serialize s)
  parse_serialize : ∀ s, parse (serialize s) = some s
  string_serializeKey : ∀ k, IsString (serializeKey k)
  parseKey_serializeKey : ∀ k, parseKey (serializeKey k) = some k

inductive Value (σ κ : Type) where
  | scalar (s : σ)
  | array (items : List (Value σ κ))
  | object (members : List (κ × Value σ κ))

/-- What the reader of a text has begun. -/
inductive Mode where
  | between
  | word (begun : List UInt8)
  | string (begun : List UInt8) (escaped : Bool)

def lexFrom : Mode → List UInt8 → Option (List Lexeme)
  | .between, [] => some []
  | .between, c :: rest =>
      if isSpace c then lexFrom .between rest
      else if isPunctuation c then (lexFrom .between rest).map ([c] :: ·)
      else if c = quote then lexFrom (.string [c] false) rest
      else lexFrom (.word [c]) rest
  | .word begun, [] => some [begun]
  | .word begun, c :: rest =>
      if isSpace c then (lexFrom .between rest).map (begun :: ·)
      else if isPunctuation c then (lexFrom .between rest).map (begun :: [c] :: ·)
      else if c = quote then none
      else lexFrom (.word (begun ++ [c])) rest
  | .string _ _, [] => none
  | .string begun true, c :: rest => lexFrom (.string (begun ++ [c]) false) rest
  | .string begun false, c :: rest =>
      if c = backslash then lexFrom (.string (begun ++ [c]) true) rest
      else if c = quote then (lexFrom .between rest).map ((begun ++ [c]) :: ·)
      else lexFrom (.string (begun ++ [c]) false) rest

/-- The lexemes of a text, which is the text without the white space between them. -/
def lex (text : List UInt8) : Option (List Lexeme) := lexFrom .between text

section
variable {σ κ : Type} (codec : Codec σ κ)

mutual

/-- Reads a value, with a bound on the nesting. -/
def readValue : Nat → List Lexeme → Option (Value σ κ × List Lexeme)
  | 0, _ => none
  | _ + 1, [] => none
  | n + 1, lexeme :: rest =>
      if lexeme = openArray then
        if rest.head? = some closeArray then some (.array [], rest.tail)
        else (readItems n rest).map fun (items, rest) => (.array items, rest)
      else if lexeme = openObject then
        if rest.head? = some closeObject then some (.object [], rest.tail)
        else (readMembers n rest).map fun (members, rest) => (.object members, rest)
      else (codec.parse lexeme).map fun s => (.scalar s, rest)

/-- The items up to the bracket that closes the array. -/
def readItems : Nat → List Lexeme → Option (List (Value σ κ) × List Lexeme)
  | 0, _ => none
  | n + 1, lexemes =>
      match readValue n lexemes with
      | some (item, separator :: rest) =>
          if separator = comma then
            (readItems n rest).map fun (items, rest) => (item :: items, rest)
          else if separator = closeArray then some ([item], rest)
          else none
      | _ => none

/-- The members up to the brace that closes the object. -/
def readMembers : Nat → List Lexeme → Option (List (κ × Value σ κ) × List Lexeme)
  | 0, _ => none
  | n + 1, lexeme :: separator :: lexemes =>
      if separator = colon then
        match codec.parseKey lexeme, readValue n lexemes with
        | some key, some (item, separator :: rest) =>
            if separator = comma then
              (readMembers n rest).map fun (members, rest) => ((key, item) :: members, rest)
            else if separator = closeObject then some ([(key, item)], rest)
            else none
        | _, _ => none
      else none
  | _ + 1, _ => none

end

/-- Reads a text that is one value and white space. -/
def parse (text : List UInt8) : Option (Value σ κ) :=
  match lex text with
  | none => none
  | some lexemes =>
      match readValue codec lexemes.length lexemes with
      | some (v, []) => some v
      | _ => none

mutual

def lexemes : Value σ κ → List Lexeme
  | .scalar s => [codec.serialize s]
  | .array items => openArray :: itemLexemes items ++ [closeArray]
  | .object members => openObject :: memberLexemes members ++ [closeObject]

def itemLexemes : List (Value σ κ) → List Lexeme
  | [] => []
  | item :: rest => lexemes item ++ if rest.isEmpty then [] else comma :: itemLexemes rest

def memberLexemes : List (κ × Value σ κ) → List Lexeme
  | [] => []
  | (key, item) :: rest =>
      codec.serializeKey key :: colon :: lexemes item ++
        if rest.isEmpty then [] else comma :: memberLexemes rest

end

/-- The serialisation without white space. -/
def compact (v : Value σ κ) : List UInt8 := (lexemes codec v).flatten

end

/-- A lexeme ends before white space, before punctuation and at the end. -/
def Stops (text : List UInt8) : Prop := ∀ c ∈ text.head?, isSpace c ∨ isPunctuation c

section
variable {text body begun : List UInt8} {c : UInt8}

theorem lex_space (space : isSpace c) : lex (c :: text) = lex text := by
  rw [lex, lexFrom, if_pos space]
  rfl

theorem lex_spaces {spaces : List UInt8} (all : ∀ c ∈ spaces, isSpace c) (text : List UInt8) :
    lex (spaces ++ text) = lex text := by
  induction spaces with
  | nil => rfl
  | cons c spaces ih =>
      rw [List.cons_append, lex_space (all c List.mem_cons_self),
        ih fun d member => all d (List.mem_cons_of_mem _ member)]

theorem lex_punctuation (mark : isPunctuation c) :
    lex (c :: text) = (lex text).map ([c] :: ·) := by
  have other : isSpace c = false := by
    unfold isPunctuation at mark
    unfold isSpace
    rw [decide_eq_true_iff] at mark
    rcases mark with rfl | rfl | rfl | rfl | rfl | rfl <;> decide
  rw [lex, lexFrom, other, if_neg Bool.false_ne_true, if_pos mark]
  rfl

theorem lexFrom_string {escaped : Bool} (closed : closes escaped body) (text : List UInt8) :
    lexFrom (.string begun escaped) (body ++ text) = (lex text).map ((begun ++ body) :: ·) := by
  induction body generalizing begun escaped with
  | nil => cases escaped <;> cases closed
  | cons c body ih =>
      have longer : begun ++ c :: body = begun ++ [c] ++ body := by simp
      cases escaped with
      | true =>
          rw [closes] at closed
          rw [List.cons_append, lexFrom, ih closed, longer]
      | false =>
          rw [closes] at closed
          rw [List.cons_append, lexFrom]
          split at closed
          next escape => rw [if_pos escape, ih closed, longer]
          next plain =>
          split at closed
          next ends =>
            rw [if_neg plain, if_pos ends, of_decide_eq_true closed]
            rfl
          next inside => rw [if_neg plain, if_neg inside, ih closed, longer]

theorem lex_string {lexeme : Lexeme} (string : IsString lexeme) (text : List UInt8) :
    lex (lexeme ++ text) = (lex text).map (lexeme :: ·) := by
  obtain ⟨body, rfl, closed⟩ := string
  have opened : lex (quote :: (body ++ text)) = lexFrom (.string [quote] false) (body ++ text) := rfl
  rw [List.cons_append, opened, lexFrom_string closed]
  rfl

theorem lexFrom_word (plain : ∀ c ∈ body, isSpace c = false ∧ isPunctuation c = false ∧ c ≠ quote)
    (stops : Stops text) :
    lexFrom (.word begun) (body ++ text) = (lex text).map ((begun ++ body) :: ·) := by
  induction body generalizing begun with
  | nil =>
      rw [List.nil_append, List.append_nil]
      cases text with
      | nil => rfl
      | cons c text =>
          rw [lexFrom]
          by_cases space : isSpace c
          · rw [if_pos space, lex_space space]
            rfl
          · have mark := (stops c rfl).resolve_left space
            rw [if_neg space, if_pos mark, lex_punctuation mark, Option.map_map]
            rfl
  | cons c body ih =>
      obtain ⟨space, mark, other⟩ := plain c List.mem_cons_self
      have longer : begun ++ c :: body = begun ++ [c] ++ body := by simp
      rw [List.cons_append, lexFrom, space, mark, if_neg Bool.false_ne_true,
        if_neg Bool.false_ne_true, if_neg other,
        ih fun d member => plain d (List.mem_cons_of_mem _ member), longer]

theorem lex_word {lexeme : Lexeme} (word : IsWord lexeme) (stops : Stops text) :
    lex (lexeme ++ text) = (lex text).map (lexeme :: ·) := by
  obtain ⟨some_, plain⟩ := word
  obtain ⟨c, body, rfl⟩ := List.exists_cons_of_ne_nil some_
  obtain ⟨space, mark, other⟩ := plain c List.mem_cons_self
  have begins : lex (c :: (body ++ text)) = lexFrom (.word [c]) (body ++ text) := by
    rw [lex, lexFrom, space, mark, if_neg Bool.false_ne_true, if_neg Bool.false_ne_true,
      if_neg other]
  rw [List.cons_append, begins,
    lexFrom_word (fun d member => plain d (List.mem_cons_of_mem _ member)) stops]
  rfl

end

section
variable {σ κ : Type} {codec : Codec σ κ}

theorem lex_scalar (s : σ) {text : List UInt8} (stops : Stops text) :
    lex (codec.serialize s ++ text) = (lex text).map (codec.serialize s :: ·) := by
  rcases codec.lexeme_serialize s with string | word
  · exact lex_string string text
  · exact lex_word word stops

/-- A scalar is no punctuation. -/
theorem serialize_ne {c : UInt8} (mark : isPunctuation c) (s : σ) : codec.serialize s ≠ [c] := by
  intro same
  rcases codec.lexeme_serialize s with ⟨body, string, closed⟩ | ⟨-, plain⟩
  · rw [string] at same
    obtain ⟨rfl, rfl⟩ := List.cons.inj same
    cases closed
  · have given := (plain c (same ▸ List.mem_cons_self)).2.1
    rw [mark] at given
    cases given

theorem lexemes_ne_nil (codec : Codec σ κ) (v : Value σ κ) : lexemes codec v ≠ [] := by
  cases v <;> simp [lexemes]

theorem serialize_ne_openArray (s : σ) : codec.serialize s ≠ openArray :=
  serialize_ne (by decide) s

theorem serialize_ne_openObject (s : σ) : codec.serialize s ≠ openObject :=
  serialize_ne (by decide) s

/-- No value begins with what closes an array. -/
theorem head?_lexemes (v : Value σ κ) (rest : List Lexeme) :
    (lexemes codec v ++ rest).head? ≠ some closeArray := by
  cases v with
  | scalar s =>
      rw [lexemes, List.singleton_append, List.head?_cons]
      exact fun same => serialize_ne (by decide) s (Option.some.inj same)
  | array items =>
      rw [lexemes, List.cons_append, List.cons_append, List.head?_cons]
      decide
  | object members =>
      rw [lexemes, List.cons_append, List.cons_append, List.head?_cons]
      decide

theorem serializeKey_ne_closeObject (k : κ) : codec.serializeKey k ≠ closeObject := by
  obtain ⟨body, string, -⟩ := codec.string_serializeKey k
  rw [string]
  exact fun same => absurd (List.cons.inj same).1 (by decide)

@[simp] theorem itemLexemes_singleton (item : Value σ κ) :
    itemLexemes codec [item] = lexemes codec item := List.append_nil _

@[simp] theorem itemLexemes_cons_cons (item next : Value σ κ) (items : List (Value σ κ)) :
    itemLexemes codec (item :: next :: items) =
      lexemes codec item ++ comma :: itemLexemes codec (next :: items) := rfl

@[simp] theorem memberLexemes_singleton (key : κ) (item : Value σ κ) :
    memberLexemes codec [(key, item)] = codec.serializeKey key :: colon :: lexemes codec item :=
  List.append_nil _

@[simp] theorem memberLexemes_cons_cons (key : κ) (item : Value σ κ) (next : κ × Value σ κ)
    (members : List (κ × Value σ κ)) :
    memberLexemes codec ((key, item) :: next :: members) =
      codec.serializeKey key :: colon ::
        (lexemes codec item ++ comma :: memberLexemes codec (next :: members)) := rfl

mutual

/-- The reader reads a value from its lexemes. -/
theorem readValue_lexemes (v : Value σ κ) (n : Nat) (rest : List Lexeme)
    (enough : (lexemes codec v).length ≤ n) :
    readValue codec n (lexemes codec v ++ rest) = some (v, rest) := by
  obtain ⟨n, rfl⟩ := Nat.exists_eq_succ_of_ne_zero
    (Nat.ne_zero_of_lt (Nat.lt_of_lt_of_le (List.length_pos_iff.mpr (lexemes_ne_nil codec v)) enough))
  match v with
  | .scalar s =>
      rw [lexemes, List.singleton_append, readValue, if_neg (serialize_ne_openArray s),
        if_neg (serialize_ne_openObject s), codec.parse_serialize]
      rfl
  | .array [] => rfl
  | .array (item :: items) =>
      rw [lexemes, List.length_append, List.length_cons, List.length_singleton] at enough
      have inside := readItems_lexemes item items n rest (by omega)
      have opened : (itemLexemes codec (item :: items) ++ closeArray :: rest).head? ≠
          some closeArray := by
        cases items with
        | nil =>
            rw [itemLexemes_singleton]
            exact head?_lexemes item _
        | cons next items =>
            rw [itemLexemes_cons_cons, List.append_assoc]
            exact head?_lexemes item _
      rw [lexemes, List.cons_append, List.cons_append, List.append_assoc, List.singleton_append,
        readValue, if_pos rfl, if_neg opened, inside]
      rfl
  | .object [] => rfl
  | .object ((key, item) :: members) =>
      rw [lexemes, List.length_append, List.length_cons, List.length_singleton] at enough
      have inside := readMembers_lexemes key item members n rest (by omega)
      have opened : (memberLexemes codec ((key, item) :: members) ++ closeObject :: rest).head? ≠
          some closeObject := by
        cases members with
        | nil => simpa using serializeKey_ne_closeObject key
        | cons next members => simpa using serializeKey_ne_closeObject key
      rw [lexemes, List.cons_append, List.cons_append, List.append_assoc, List.singleton_append,
        readValue, if_neg (by decide), if_pos rfl, if_neg opened, inside]
      rfl
  termination_by n

theorem readItems_lexemes (item : Value σ κ) (items : List (Value σ κ)) (n : Nat)
    (rest : List Lexeme) (enough : (itemLexemes codec (item :: items)).length < n) :
    readItems codec n (itemLexemes codec (item :: items) ++ closeArray :: rest) =
      some (item :: items, rest) := by
  obtain ⟨n, rfl⟩ := Nat.exists_eq_succ_of_ne_zero (Nat.ne_zero_of_lt enough)
  match items with
  | [] =>
      rw [itemLexemes_singleton] at enough ⊢
      rw [readItems, readValue_lexemes item n _ (Nat.le_of_lt_succ enough)]
      rfl
  | next :: items =>
      rw [itemLexemes_cons_cons, List.length_append, List.length_cons] at enough
      rw [itemLexemes_cons_cons, List.append_assoc, List.cons_append, readItems,
        readValue_lexemes item n _ (by omega)]
      dsimp only
      rw [if_pos rfl, readItems_lexemes next items n rest (by
        have positive := List.length_pos_iff.mpr (lexemes_ne_nil codec item)
        omega)]
      rfl
  termination_by n

theorem readMembers_lexemes (key : κ) (item : Value σ κ) (members : List (κ × Value σ κ))
    (n : Nat) (rest : List Lexeme)
    (enough : (memberLexemes codec ((key, item) :: members)).length < n) :
    readMembers codec n (memberLexemes codec ((key, item) :: members) ++ closeObject :: rest) =
      some ((key, item) :: members, rest) := by
  obtain ⟨n, rfl⟩ := Nat.exists_eq_succ_of_ne_zero (Nat.ne_zero_of_lt enough)
  match members with
  | [] =>
      rw [memberLexemes_singleton, List.length_cons, List.length_cons] at enough
      rw [memberLexemes_singleton, List.cons_append, List.cons_append, readMembers, if_pos rfl,
        codec.parseKey_serializeKey, readValue_lexemes item n _ (by omega)]
      rfl
  | (nextKey, next) :: members =>
      rw [memberLexemes_cons_cons, List.length_cons, List.length_cons, List.length_append,
        List.length_cons] at enough
      rw [memberLexemes_cons_cons, List.cons_append, List.cons_append, List.append_assoc,
        List.cons_append, readMembers, if_pos rfl, codec.parseKey_serializeKey,
        readValue_lexemes item n _ (by omega)]
      dsimp only
      rw [if_pos rfl, readMembers_lexemes nextKey next members n rest (by omega)]
      rfl
  termination_by n

end

/-- A text with the lexemes of a value is read as the value. -/
theorem parse_of_lex {v : Value σ κ} {text : List UInt8}
    (read : lex text = some (lexemes codec v)) : parse codec text = some v := by
  have whole : readValue codec (lexemes codec v).length (lexemes codec v ++ []) = some (v, []) :=
    readValue_lexemes v _ [] (Nat.le_refl _)
  rw [List.append_nil] at whole
  rw [parse, read]
  dsimp only
  rw [whole]

end

end CppToolkit.Json
