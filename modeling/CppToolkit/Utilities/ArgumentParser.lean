import CppToolkit.Utilities.Tokens

/-! The options of a command line: `ArgumentParser::parse` reads them token by token, and
`to_string` and `to_bool` look them up. -/
namespace CppToolkit.Utilities.ArgumentParser
open Loops Occurrences

abbrev Token := List UInt8

/-- A string literal. -/
def literal (text : String) : Token := text.toList.map Char.toUInt8

def dashes : Token := literal "--"

def help : Token := literal "--help"

def version : Token := literal "--version"

/-- `std::map<std::string, std::string>`. -/
abbrev Arguments := Token → Option Token

def Arguments.insert (result : Arguments) (key value : Token) : Arguments :=
  if result key = none then Function.update result key (some value) else result

/-- `target->second = value`. -/
def Arguments.assign (result : Arguments) (key value : Token) : Arguments :=
  Function.update result key (some value)

def isOption (token : Token) : Bool := Converter.find token dashes 0 = some 0

/-- The local variables of `parse` at the beginning of a turn. -/
structure Scan where
  index : Nat
  result : Arguments

/-- What an option with a value does. -/
def store (result : Arguments) (argumentId value : Token) : Arguments :=
  if result argumentId = none then result.insert argumentId value
  else result.assign argumentId value

def parseTurn (arguments : List Token) (s : Scan) : Scan ⊕ Arguments :=
  match arguments[s.index]? with
  | none => .inr s.result
  | some argumentId =>
      if isOption argumentId = false then .inl { s with index := s.index + 1 }
      else if argumentId = help then
        .inl ⟨s.index + 1, s.result.insert argumentId (literal "display help")⟩
      else if argumentId = version then
        .inl ⟨s.index + 1, s.result.insert argumentId (literal "display version")⟩
      else
        match arguments[s.index + 1]? with
        | none => .inr s.result
        | some value => .inl ⟨s.index + 2, store s.result argumentId value⟩

def start : Scan := ⟨0, fun _ => none⟩

def parse (arguments : List Token) (fuel : Nat) : Option Arguments :=
  turns (parseTurn arguments) fuel start

/-- The arguments without the name of the program. -/
def arguments (argv : List Token) : List Token := argv.tail

/-- The constructor, which keeps what `parse` returns. -/
def construct (argv : List Token) (fuel : Nat) : Option Arguments := parse (arguments argv) fuel

def toString (arguments_ : Arguments) (key : Token) : Option Token := arguments_ key

def tolower (c : UInt8) : UInt8 := if 65 ≤ c ∧ c ≤ 90 then c + 32 else c

def toBool (arguments_ : Arguments) (key : Token) : Option Bool :=
  (toString arguments_ key).map fun temp => temp.map tolower = literal "true"

/-- An option that takes the token behind it as its value. -/
def TakesValue (token : Token) : Prop := isOption token ∧ token ≠ help ∧ token ≠ version

instance (token : Token) : Decidable (TakesValue token) := inferInstanceAs (Decidable (_ ∧ _))

/-- Some turn stores the token at the position as the value of the option before it. -/
def Swallowed (arguments : List Token) (position : Nat) : Prop :=
  ∃ s argumentId value, Reaches (parseTurn arguments) start s ∧ s.index + 1 = position ∧
    arguments[s.index]? = some argumentId ∧ arguments[position]? = some value ∧
      parseTurn arguments s = .inl ⟨s.index + 2, store s.result argumentId value⟩

/-- The option at every position but the last is a key of the map and no value. -/
def Recognised (arguments : List Token) : Prop :=
  ∀ position token, position + 1 < arguments.length → arguments[position]? = some token →
    isOption token → (∃ result, Returns (parse arguments) result ∧ (result token).isSome) ∧
      ¬Swallowed arguments position

/-- The options are the tokens that begin with two dashes. -/
theorem isOption_iff (token : Token) : isOption token = true ↔ dashes <+: token := by
  rw [isOption, decide_eq_true_iff, Converter.find, if_pos (Nat.zero_le _), List.drop_zero]
  rw [← first_eq_zero_iff]
  cases first dashes token <;> simp

namespace Arguments
variable {result : Arguments} {key value other : Token}

theorem isSome_update (held : (result other).isSome ∨ other = key) :
    (Function.update result key (some value) other).isSome := by
  by_cases same : other = key
  · rw [same, Function.update_self]
    rfl
  · rw [Function.update_of_ne same]
    exact held.resolve_right same

theorem isSome_insert (held : (result other).isSome ∨ other = key) :
    (result.insert key value other).isSome := by
  unfold insert
  split
  next => exact isSome_update held
  next given =>
    refine held.elim id fun same => ?_
    rw [same]
    exact Option.isSome_iff_ne_none.mpr given

theorem isSome_store (held : (result other).isSome ∨ other = key) :
    (store result key value other).isSome := by
  unfold store
  split
  next => exact isSome_insert held
  next => exact isSome_update held

/-- What is found after an update was there before it, or was put there by it. -/
theorem of_update {found : Token}
    (there : Function.update result key (some value) other = some found) :
    result other = some found ∨ other = key ∧ found = value := by
  by_cases same : other = key
  · rw [same, Function.update_self] at there
    exact .inr ⟨same, (Option.some.inj there).symm⟩
  · rw [Function.update_of_ne same] at there
    exact .inl there

theorem of_insert {found : Token} (there : result.insert key value other = some found) :
    result other = some found ∨ other = key ∧ found = value := by
  unfold insert at there
  split at there
  next => exact of_update there
  next => exact .inl there

theorem of_store {found : Token} (there : store result key value other = some found) :
    result other = some found ∨ other = key ∧ found = value := by
  unfold store at there
  split at there
  next => exact of_insert there
  next => exact of_update there

end Arguments

section
variable {arguments : List Token} {s t : Scan} {argumentId value : Token}

/-- A turn that goes on reads one token, or an option and its value. -/
theorem parseTurn_goes (goes : parseTurn arguments s = .inl t) :
    ∃ argumentId, arguments[s.index]? = some argumentId ∧
      ((isOption argumentId = false ∧ t.index = s.index + 1 ∧ t.result = s.result) ∨
        (isOption argumentId ∧ ¬TakesValue argumentId ∧ t.index = s.index + 1 ∧
          ∃ text, t.result = s.result.insert argumentId text) ∨
        (TakesValue argumentId ∧ t.index = s.index + 2 ∧ ∃ value,
          arguments[s.index + 1]? = some value ∧ t.result = store s.result argumentId value)) := by
  unfold parseTurn at goes
  split at goes
  next => cases goes
  next argumentId read =>
  refine ⟨argumentId, read, ?_⟩
  split at goes
  next word =>
    cases goes
    exact .inl ⟨word, rfl, rfl⟩
  next option =>
  have given : isOption argumentId := Bool.eq_true_of_not_eq_false option
  split at goes
  next same =>
    cases goes
    exact .inr (.inl ⟨given, fun takes => takes.2.1 same, rfl, _, rfl⟩)
  next plain =>
  split at goes
  next same =>
    cases goes
    exact .inr (.inl ⟨given, fun takes => takes.2.2 same, rfl, _, rfl⟩)
  next other =>
  split at goes
  next => cases goes
  next value behind =>
    cases goes
    exact .inr (.inr ⟨⟨given, plain, other⟩, rfl, value, behind, rfl⟩)

theorem parseTurn_takes (read : arguments[s.index]? = some argumentId)
    (takes : TakesValue argumentId) (behind : arguments[s.index + 1]? = some value) :
    parseTurn arguments s = .inl ⟨s.index + 2, store s.result argumentId value⟩ := by
  unfold parseTurn
  rw [read]
  dsimp only
  rw [if_neg (by simp [takes.1]), if_neg takes.2.1, if_neg takes.2.2, behind]

theorem parseTurn_passes (read : arguments[s.index]? = some argumentId)
    (passes : ¬TakesValue argumentId) :
    ∃ t, parseTurn arguments s = .inl t ∧ t.index = s.index + 1 := by
  unfold parseTurn
  rw [read]
  dsimp only
  split
  next => exact ⟨_, rfl, rfl⟩
  next option =>
  split
  next => exact ⟨_, rfl, rfl⟩
  next plain =>
  split
  next => exact ⟨_, rfl, rfl⟩
  next other => exact absurd ⟨Bool.eq_true_of_not_eq_false option, plain, other⟩ passes

/-- The loop ends at the end of the list, or at an option that is the last token. -/
theorem parseTurn_leaves {result : Arguments} (leaves : parseTurn arguments s = .inr result) :
    result = s.result ∧ arguments.length ≤ s.index + 1 := by
  unfold parseTurn at leaves
  split at leaves
  next behind =>
    cases leaves
    exact ⟨rfl, Nat.le_succ_of_le (List.getElem?_eq_none_iff.mp behind)⟩
  next =>
  split at leaves
  next => cases leaves
  next =>
  split at leaves
  next => cases leaves
  next =>
  split at leaves
  next => cases leaves
  next =>
  split at leaves
  next behind =>
    cases leaves
    exact ⟨rfl, List.getElem?_eq_none_iff.mp behind⟩
  next => cases leaves

theorem swallowed_takes {position : Nat} (swallowed : Swallowed arguments position) :
    ∃ before argumentId, before + 1 = position ∧ arguments[before]? = some argumentId ∧
      TakesValue argumentId := by
  obtain ⟨s, argumentId, value, -, here, read, -, stores⟩ := swallowed
  obtain ⟨again, readAgain, cases⟩ := parseTurn_goes stores
  rw [read, Option.some_inj] at readAgain
  subst readAgain
  refine ⟨s.index, argumentId, here, read, ?_⟩
  obtain ⟨-, one, -⟩ | ⟨-, -, one, -⟩ | ⟨takes, -⟩ := cases
  · exact absurd one (Nat.ne_of_gt (Nat.lt_succ_self _))
  · exact absurd one (Nat.ne_of_gt (Nat.lt_succ_self _))
  · exact takes

/-- Every position is read at the beginning of a turn or as a value. -/
theorem read_or_swallowed {position : Nat} (within : position < arguments.length) :
    (∃ s, Reaches (parseTurn arguments) start s ∧ s.index = position) ∨
      Swallowed arguments position := by
  induction position with
  | zero => exact .inl ⟨start, .start, rfl⟩
  | succ position ih =>
      obtain ⟨value, behind⟩ : ∃ value, arguments[position + 1]? = some value :=
        ⟨_, List.getElem?_eq_getElem within⟩
      obtain ⟨s, reached, rfl⟩ | ⟨s, argumentId, other, reached, rfl, read, here, stores⟩ :=
        ih (Nat.lt_of_succ_lt within)
      · obtain ⟨argumentId, read⟩ : ∃ argumentId, arguments[s.index]? = some argumentId :=
          ⟨_, List.getElem?_eq_getElem (Nat.lt_of_succ_lt within)⟩
        by_cases takes : TakesValue argumentId
        · exact .inr ⟨s, argumentId, value, reached, rfl, read, behind,
            parseTurn_takes read takes behind⟩
        · obtain ⟨t, goes, one⟩ := parseTurn_passes read takes
          exact .inl ⟨t, .turn reached goes, one⟩
      · exact .inl ⟨_, .turn reached stores, rfl⟩

/-- What is before the index and an option is a key, or was taken as a value. -/
theorem keys_of_reaches (reached : Reaches (parseTurn arguments) start s) :
    ∀ position token, position < s.index → arguments[position]? = some token → isOption token →
      (s.result token).isSome ∨ Swallowed arguments position := by
  induction reached with
  | start => exact fun position token before => absurd before (Nat.not_lt_zero _)
  | @turn s t reached goes ih =>
      intro position token before here option
      obtain ⟨argumentId, read, cases⟩ := parseTurn_goes goes
      have now : position = s.index → token = argumentId := by
        rintro rfl
        exact Option.some.inj (here.symm.trans read)
      obtain ⟨word, one, same⟩ | ⟨-, -, one, text, same⟩ | ⟨takes, two, value, behind, same⟩ := cases
      · rw [one] at before
        have earlier : position < s.index := by
          refine Nat.lt_of_le_of_ne (Nat.le_of_lt_succ before) fun equal => ?_
          rw [now equal, word] at option
          cases option
        rw [same]
        exact ih position token earlier here option
      · rw [one] at before
        rw [same]
        rcases Nat.lt_or_eq_of_le (Nat.le_of_lt_succ before) with earlier | equal
        · exact (ih position token earlier here option).imp_left fun held =>
            Arguments.isSome_insert (.inl held)
        · exact .inl (Arguments.isSome_insert (.inr (now equal)))
      · rw [same]
        rw [two] at before
        rcases Nat.lt_trichotomy position s.index with earlier | equal | later
        · exact (ih position token earlier here option).imp_left fun held =>
            Arguments.isSome_store (.inl held)
        · exact .inl (Arguments.isSome_store (.inr (now equal)))
        · have next_ : position = s.index + 1 := by omega
          refine .inr ⟨s, argumentId, value, reached, next_.symm, read, next_ ▸ behind, ?_⟩
          exact parseTurn_takes read takes behind

/-- The keys are options, and what an option that takes a value has got stands behind it. -/
def Sourced (arguments : List Token) (result : Arguments) : Prop :=
  ∀ key value, result key = some value → isOption key ∧ (TakesValue key →
    ∃ position : Nat, arguments[position]? = some key ∧ arguments[position + 1]? = some value)

theorem sourced_of_reaches (reached : Reaches (parseTurn arguments) start s) :
    Sourced arguments s.result := by
  induction reached with
  | start => exact fun key value found => by cases found
  | @turn s t reached goes ih =>
      intro key found there
      obtain ⟨argumentId, read, cases⟩ := parseTurn_goes goes
      obtain ⟨-, -, same⟩ | ⟨option, plain, -, text, same⟩ | ⟨takes, -, value, behind, same⟩ := cases
      · exact ih key found (same ▸ there)
      · rw [same] at there
        rcases Arguments.of_insert there with before | ⟨rfl, rfl⟩
        · exact ih key found before
        · exact ⟨option, fun takes => absurd takes plain⟩
      · rw [same] at there
        rcases Arguments.of_store there with before | ⟨rfl, rfl⟩
        · exact ih key found before
        · exact ⟨takes.1, fun _ => ⟨s.index, read, behind⟩⟩

theorem parse_returns (arguments : List Token) : ∃ result, Returns (parse arguments) result := by
  refine returns_of_measure (fun s => arguments.length - s.index) (fun _ => True)
    (fun s t _ goes => ⟨trivial, ?_⟩) trivial
  obtain ⟨argumentId, read, cases⟩ := parseTurn_goes goes
  obtain ⟨within, -⟩ := List.getElem?_eq_some_iff.mp read
  obtain ⟨-, one, -⟩ | ⟨-, -, one, -⟩ | ⟨-, two, -⟩ := cases
  all_goals omega

/-- The parser ends on every command line; what it has found stands there behind the name of
the program. -/
theorem construct_sourced (argv : List Token) :
    ∃ result, Returns (construct argv) result ∧ ∀ key value, result key = some value →
      isOption key ∧ (TakesValue key →
        ∃ position, 0 < position ∧ argv[position]? = some key ∧ argv[position + 1]? = some value) := by
  obtain ⟨result, n, enough⟩ := parse_returns (ArgumentParser.arguments argv)
  obtain ⟨s, reached, leaves⟩ := exists_leaves (enough n (Nat.le_refl n))
  obtain ⟨rfl, -⟩ := parseTurn_leaves leaves
  refine ⟨s.result, ⟨n, enough⟩, fun key value there => ?_⟩
  obtain ⟨option, sourced⟩ := sourced_of_reaches reached key value there
  refine ⟨option, fun takes => ?_⟩
  obtain ⟨position, here, behind⟩ := sourced takes
  rw [ArgumentParser.arguments, List.getElem?_tail] at here behind
  exact ⟨position + 1, Nat.succ_pos position, here, behind⟩

theorem keys_of_parse {position : Nat} {token : Token} (notLast : position + 1 < arguments.length)
    (here : arguments[position]? = some token) (option : isOption token) :
    (∃ result, Returns (parse arguments) result ∧ (result token).isSome) ∨
      Swallowed arguments position := by
  obtain ⟨result, n, enough⟩ := parse_returns arguments
  obtain ⟨s, reached, leaves⟩ := exists_leaves (enough n (Nat.le_refl n))
  obtain ⟨rfl, ends⟩ := parseTurn_leaves leaves
  have before : position < s.index := by omega
  exact (keys_of_reaches reached position token before here option).imp_left fun key =>
    ⟨_, ⟨n, enough⟩, key⟩

/-- Options are recognised exactly if no option that takes a value is directly followed by an
option other than the last token. -/
theorem recognised_iff (arguments : List Token) :
    Recognised arguments ↔ ∀ position argumentId value, position + 2 < arguments.length →
      arguments[position]? = some argumentId → arguments[position + 1]? = some value →
        TakesValue argumentId → isOption value = false := by
  constructor
  · intro recognised position argumentId value within here behind takes
    by_contra isGiven
    have option := Bool.eq_true_of_not_eq_false isGiven
    have kept := (recognised (position + 1) value within behind option).2
    rcases read_or_swallowed (Nat.lt_of_succ_lt (Nat.lt_of_succ_lt within)) with
      ⟨s, reached, rfl⟩ | swallowed
    · exact kept ⟨s, argumentId, value, reached, rfl, here, behind,
        parseTurn_takes here takes behind⟩
    · exact (recognised position argumentId (Nat.lt_of_succ_lt within) here takes.1).2 swallowed
  · intro free position token notLast here option
    have kept : ¬Swallowed arguments position := by
      intro swallowed
      obtain ⟨before, argumentId, rfl, read, takes⟩ := swallowed_takes swallowed
      rw [free before argumentId token notLast read here takes] at option
      cases option
    exact ⟨(keys_of_parse notLast here option).resolve_right kept, kept⟩

end

/-- The arguments of the first example of `print_help_message`. -/
def compressAFolder : List Token :=
  ["--compress", "--source", "./source_folder", "--compressed_file", "./compressed.file"].map
    literal

/-- `--source` is stored as the value of `--compress`, which is then read as false, and is no
key. -/
theorem parse_swallows_source :
    ¬Recognised compressAFolder ∧
      (parse compressAFolder 6).map (fun result => (toString result (literal "--compress"),
          toBool result (literal "--compress"), toString result (literal "--source"))) =
        some (some (literal "--source"), some false, none) := by
  refine ⟨fun recognised => ?_, by decide⟩
  have kept := (recognised 1 (literal "--source") (by decide) (by decide) (by decide)).2
  refine kept ⟨start, literal "--compress", literal "--source", .start, rfl, by decide, by decide,
    parseTurn_takes (by decide) (by decide) (by decide)⟩

end CppToolkit.Utilities.ArgumentParser
