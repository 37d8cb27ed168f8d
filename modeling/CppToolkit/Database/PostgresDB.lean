import CppToolkit.Database.PostgresArray
import CppToolkit.Library.Memory
import Mathlib.Data.List.Forall2

/-! What `execute_query_and_get_result` makes of the rows of a query. The values that `std::stof`
comes to are left open. -/
namespace CppToolkit.Database
open Memory

abbrev Text := List UInt8

abbrev Oid := Nat

inductive Cell (δ : Type) where
  | int (n : Int)
  | double (x : δ)
  | string (text : Text)
  | strings (elements : List Text)
  deriving DecidableEq, Repr

/-- The types of the columns, and the cells; `none` is a NULL. -/
structure PGresult where
  types : List Oid
  tuples : List (List (Option Text))
  shaped : ∀ cells ∈ tuples, cells.length = types.length

def isSpace (b : UInt8) : Bool := b == 32 || (9 ≤ b && b ≤ 13)

def isDigit (b : UInt8) : Bool := 48 ≤ b && b ≤ 57

/-- `std::stoi` in base 10; what is behind the digits is not looked at. -/
def stoi (text : Text) : Except String Int :=
  let behind := text.dropWhile isSpace
  let unsigned_ := if behind.head? = some 43 ∨ behind.head? = some 45 then behind.tail else behind
  let digits := unsigned_.takeWhile isDigit
  let magnitude : Int := digits.foldl (fun n b => 10 * n + (b.toNat - 48)) 0
  let value := if behind.head? = some 45 then -magnitude else magnitude
  if digits = [] then .error "std::invalid_argument"
  else if -2 ^ 31 ≤ value ∧ value < 2 ^ 31 then .ok value
  else .error "std::out_of_range"

section
variable {δ : Type} (stof : Text → Except String δ)

/-- The `switch` over the type of a column. -/
def convert (fieldType : Oid) (fieldValue : Text) : Except String (Cell δ) :=
  match fieldType with
  | 23 => (stoi fieldValue).map .int
  | 700 => (stof fieldValue).map .double
  | 1043 => .ok (.string fieldValue)
  | 1009 => .ok (.strings (parsePostgresArray fieldValue))
  | _ => .ok (.string fieldValue)

/-- What a field appends to the row. A NULL appends an empty string and is then converted like
the empty string that `PQgetvalue` gives for it. -/
def field (column : Oid × Option Text) : Except String (List (Cell δ)) :=
  let null := if column.2 = none then [.string []] else []
  (convert stof column.1 (column.2.getD [])).map fun converted => null ++ [converted]

def currentRow (types : List Oid) (cells : List (Option Text)) : Except String (List (Cell δ)) :=
  ((types.zip cells).mapM (field stof)).map List.flatten

/-- The answers of libpq: no connection, a failed query, or rows. -/
inductive Answer where
  | unconnected (errorMessage : String)
  | failed (errorMessage : String)
  | rows (result : PGresult)

/-- The error is the exception of a conversion. -/
def executeQueryAndGetResult : Answer →
    Except String (Option (List (List (Cell δ))) × Option String)
  | .unconnected errorMessage =>
      .ok (none, some ("there is no created PGconn: " ++ errorMessage))
  | .failed errorMessage => .ok (none, some errorMessage)
  | .rows result =>
      (result.tuples.mapM (currentRow stof result.types)).map fun resultData =>
        (some resultData, some ("there are selected rows: " ++ toString resultData.length))

/-- The cell is that of the column; a NULL is an empty string. -/
def Comes (column : Oid × Option Text) (c : Cell δ) : Prop :=
  match column.2 with
  | none => c = .string []
  | some text => convert stof column.1 text = .ok c

/-- Every row has a cell for each column and no others. -/
def KeepsColumns (result : PGresult) : Prop :=
  ∃ resultData message, executeQueryAndGetResult stof (.rows result) = .ok (some resultData, message) ∧
    List.Forall₂ (fun cells row => row.length = result.types.length ∧
      List.Forall₂ (Comes stof) (result.types.zip cells) row) result.tuples resultData

/-- The cell is not NULL, and a conversion does not throw. -/
def Convertible (column : Oid × Option Text) : Prop :=
  ∃ text, column.2 = some text ∧ (column.1 = 23 → ∃ n, stoi text = .ok n) ∧
    (column.1 = 700 → ∃ x, stof text = .ok x)

end

/-- A pass over a list succeeds if it does for every element. -/
theorem mapM_ok_iff {α β ε : Type} {f : α → Except ε β} {as : List α} {bs : List β} :
    as.mapM f = .ok bs ↔ List.Forall₂ (fun a b => f a = .ok b) as bs := by
  induction as generalizing bs with
  | nil =>
      rw [List.mapM_nil, List.forall₂_nil_left_iff]
      exact ⟨fun same => (Except.ok.inj same).symm, fun same => congrArg _ same.symm⟩
  | cons a as ih =>
      rw [List.mapM_cons, List.forall₂_cons_left_iff]
      cases first : f a with
      | error e =>
          refine iff_of_false (fun same => by cases same) ?_
          rintro ⟨b, _, same, _⟩
          cases same
      | ok b =>
          cases rest : as.mapM f with
          | error e =>
              refine iff_of_false (fun same => by cases same) ?_
              rintro ⟨_, bs, _, others, _⟩
              rw [← ih, rest] at others
              cases others
          | ok others =>
              constructor
              · intro same
                cases same
                exact ⟨b, others, rfl, ih.mp rest, rfl⟩
              · rintro ⟨_, bs, same, all, rfl⟩
                cases same
                rw [← ih, rest] at all
                cases all
                rfl

theorem exists_forall₂_iff {α β : Type} {R : α → β → Prop} {as : List α} :
    (∃ bs, List.Forall₂ R as bs) ↔ ∀ a ∈ as, ∃ b, R a b := by
  induction as with
  | nil => exact iff_of_true ⟨[], .nil⟩ fun _ member => by cases member
  | cons a as ih =>
      rw [List.forall_mem_cons, ← ih]
      constructor
      · rintro ⟨_, _ | ⟨first, others⟩⟩
        exact ⟨⟨_, first⟩, ⟨_, others⟩⟩
      · rintro ⟨⟨b, first⟩, ⟨bs, others⟩⟩
        exact ⟨b :: bs, .cons first others⟩

section
variable {δ : Type} {stof : Text → Except String δ} {columns : List (Oid × Option Text)}

theorem exists_map_ok_iff {ε α β : Type} {x : Except ε α} {f : α → β} :
    (∃ b, x.map f = .ok b) ↔ ∃ a, x = .ok a := by
  simp only [map_eq_ok]
  exact ⟨fun ⟨_, a, ok, _⟩ => ⟨a, ok⟩, fun ⟨a, ok⟩ => ⟨f a, a, ok, rfl⟩⟩

theorem convert_ok_iff (oid : Oid) (text : Text) :
    (∃ c, convert stof oid text = .ok c) ↔
      (oid = 23 → ∃ n, stoi text = .ok n) ∧ (oid = 700 → ∃ x, stof text = .ok x) := by
  by_cases int : oid = 23
  · subst int
    have other : ¬ (23 : Oid) = 700 := by decide
    rw [imp_iff_right rfl, and_iff_left fun same => absurd same other]
    exact exists_map_ok_iff
  by_cases float : oid = 700
  · subst float
    rw [imp_iff_right rfl, and_iff_right fun same => absurd same int]
    exact exists_map_ok_iff
  · refine iff_of_true ?_ ⟨fun same => absurd same int, fun same => absurd same float⟩
    unfold convert
    split
    next => exact absurd rfl int
    next => exact absurd rfl float
    all_goals exact ⟨_, rfl⟩

/-- A field appends one cell, or two where it is NULL. -/
theorem field_ok {column : Oid × Option Text} {cells : List (Cell δ)}
    (ok : field stof column = .ok cells) :
    1 ≤ cells.length ∧ (cells.length = 1 → ∃ text c, column.2 = some text ∧
      convert stof column.1 text = .ok c) := by
  obtain ⟨c, converted, rfl⟩ := map_eq_ok.mp ok
  cases null : column.2 with
  | none =>
      refine ⟨by simp, fun one => ?_⟩
      simp at one
  | some text =>
      rw [null] at converted
      exact ⟨by simp, fun _ => ⟨text, c, rfl, converted⟩⟩

theorem field_some {oid : Oid} {text : Text} {c : Cell δ}
    (converted : convert stof oid text = .ok c) :
    field stof (oid, some text) = .ok [c] := by
  unfold field
  dsimp only [Option.getD_some]
  rw [converted]
  rfl

/-- A row that is no longer than its columns has no NULL. -/
theorem convertible_of_length {parts : List (List (Cell δ))}
    (fields : List.Forall₂ (fun column cells => field stof column = .ok cells) columns parts) :
    columns.length ≤ parts.flatten.length ∧ (parts.flatten.length = columns.length →
      ∀ column ∈ columns, Convertible stof column) := by
  induction fields with
  | nil => exact ⟨Nat.le_refl 0, fun _ _ member => by cases member⟩
  | cons first _ ih =>
      obtain ⟨one, single⟩ := field_ok first
      rw [List.flatten_cons, List.length_append, List.length_cons]
      refine ⟨by omega, fun same => List.forall_mem_cons.mpr ⟨?_, ih.2 (by omega)⟩⟩
      obtain ⟨text, c, there, converted⟩ := single (by omega)
      exact ⟨text, there, (convert_ok_iff _ text).mp ⟨c, converted⟩⟩

theorem fields_of_convertible (all : ∀ column ∈ columns, Convertible stof column) :
    ∃ row, List.Forall₂ (fun column cells => field stof column = .ok cells) columns
        (row.map fun c => [c]) ∧ List.Forall₂ (Comes stof) columns row := by
  induction columns with
  | nil => exact ⟨[], .nil, .nil⟩
  | cons column columns ih =>
      rw [List.forall_mem_cons] at all
      obtain ⟨row, fields, comes⟩ := ih all.2
      obtain ⟨oid, cell⟩ := column
      obtain ⟨text, rfl, conversions⟩ := all.1
      obtain ⟨c, converted⟩ := (convert_ok_iff oid text).mpr conversions
      exact ⟨c :: row, .cons (field_some converted) fields, .cons converted comes⟩

theorem currentRow_ok_iff {types : List Oid} {cells : List (Option Text)} {row : List (Cell δ)} :
    currentRow stof types cells = .ok row ↔ ∃ parts,
      List.Forall₂ (fun column part => field stof column = .ok part) (types.zip cells) parts ∧
        parts.flatten = row := by
  rw [currentRow, map_eq_ok]
  simp only [mapM_ok_iff]

/-- The rows are kept one by one. -/
theorem keepsColumns_iff_rows {result : PGresult} : KeepsColumns stof result ↔
    ∀ cells ∈ result.tuples, ∃ row, currentRow stof result.types cells = .ok row ∧
      row.length = result.types.length ∧
        List.Forall₂ (Comes stof) (result.types.zip cells) row := by
  rw [← exists_forall₂_iff]
  refine exists_congr fun resultData => ?_
  constructor
  · rintro ⟨message, ran, kept⟩
    obtain ⟨_, passed, same⟩ := map_eq_ok.mp ran
    cases same
    exact kept.mp (fun _ _ shape current => ⟨current, shape⟩) (mapM_ok_iff.mp passed)
  · intro both
    have passed := mapM_ok_iff.mpr (both.imp fun _ _ held => held.1)
    exact ⟨_, map_eq_ok.mpr ⟨resultData, passed, rfl⟩, both.imp fun _ _ held => held.2⟩

end

/-- The columns are kept exactly in the results without a NULL and without a number that cannot
be converted. -/
theorem keepsColumns_iff {δ : Type} (stof : Text → Except String δ) (result : PGresult) :
    KeepsColumns stof result ↔
      ∀ cells ∈ result.tuples, ∀ column ∈ result.types.zip cells, Convertible stof column := by
  rw [keepsColumns_iff_rows]
  refine forall₂_congr fun cells member => ?_
  have columns : (result.types.zip cells).length = result.types.length := by
    rw [List.length_zip, result.shaped cells member, Nat.min_self]
  constructor
  · rintro ⟨row, current, count, _⟩
    obtain ⟨parts, fields, rfl⟩ := currentRow_ok_iff.mp current
    exact (convertible_of_length fields).2 (count.trans columns.symm)
  · intro all
    obtain ⟨row, fields, comes⟩ := fields_of_convertible all
    have flat : (row.map fun c => [c]).flatten = row := List.flatMap_singleton' row
    have current := currentRow_ok_iff.mpr ⟨_, fields, flat⟩
    exact ⟨row, current, comes.length_eq.symm.trans columns, comes⟩

/-- A NULL makes its row one cell longer. -/
theorem null_adds_cell :
    ¬ ∀ (stof : Text → Except String Unit) (result : PGresult), KeepsColumns stof result := by
  intro every
  obtain ⟨_, _, ran, kept⟩ := every (fun _ => .ok ()) ⟨[25], [[none]], by decide⟩
  cases ran
  cases kept with
  | cons first _ => exact absurd first.1 (by decide)

end CppToolkit.Database
