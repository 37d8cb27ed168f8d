import CppToolkit.Library.LexicalPath
import Mathlib.Data.List.Nodup

/-! The files that `Folder::get_files` finds in a directory tree. -/
namespace CppToolkit.Utilities.Folder
open LexicalPath

/-- The entries of a folder, in the order of the directory iterator. -/
inductive Directory where
  | empty
  | file (name : List UInt8) (rest : Directory)
  | other (name : List UInt8) (rest : Directory)
  | folder (name : List UInt8) (inside rest : Directory)

/-- What is at the path of a search. -/
inductive Target where
  | missing
  | notFolder
  | folder (inside : Directory)

/-- The filter compares what `path::extension` returns with the list. -/
def wanted (extensions : List (List UInt8)) (path : List UInt8) : Bool :=
  extensions = [] ∨ extension (filename path) ∈ extensions

def checked (targetPath : List UInt8) (result : List (List UInt8)) :
    Except String (List (List UInt8)) :=
  if targetPath = [] then .error "target path is empty" else .ok result

/-- The loop of `get_files`; a folder is searched by a call for its own path. -/
def filesIn (searchSubFolder : Bool) (extensions : List (List UInt8)) (targetPath : List UInt8) :
    Directory → List (List UInt8)
  | .empty => []
  | .file name rest =>
      let path := append targetPath name
      (if wanted extensions path then [path] else []) ++
        filesIn searchSubFolder extensions targetPath rest
  | .other _ rest => filesIn searchSubFolder extensions targetPath rest
  | .folder name inside rest =>
      let path := append targetPath name
      (if searchSubFolder then
        match checked path (filesIn searchSubFolder extensions path inside) with
        | .error _ => []
        | .ok subFolders => subFolders
      else []) ++ filesIn searchSubFolder extensions targetPath rest

/-- The directory iterator throws for what is not a folder. -/
def getFiles (searchSubFolder : Bool) (extensions : List (List UInt8)) (targetPath : List UInt8)
    (target : Target) : Option (Except String (List (List UInt8))) :=
  if targetPath = [] then some (.error "target path is empty")
  else
    match target with
    | .missing => some (.error "there is no target folder")
    | .notFolder => none
    | .folder inside => some (.ok (filesIn searchSubFolder extensions targetPath inside))

namespace Directory

def names : Directory → List (List UInt8)
  | .empty => []
  | .file name rest => name :: rest.names
  | .other name rest => name :: rest.names
  | .folder name _ rest => name :: rest.names

/-- Names are not empty, have no separators, and differ within a folder. -/
def Valid : Directory → Prop
  | .empty => True
  | .file name rest => name ≠ [] ∧ separator ∉ name ∧ name ∉ rest.names ∧ rest.Valid
  | .other name rest => name ≠ [] ∧ separator ∉ name ∧ name ∉ rest.names ∧ rest.Valid
  | .folder name inside rest =>
      name ≠ [] ∧ separator ∉ name ∧ name ∉ rest.names ∧ inside.Valid ∧ rest.Valid

/-- The regular files of the tree, each by the names that lead to it. -/
inductive Holds : Directory → List (List UInt8) → Prop
  | here {name : List UInt8} {rest : Directory} : Holds (.file name rest) [name]
  | inside {name : List UInt8} {d rest : Directory} {names : List (List UInt8)}
      (below : Holds d names) : Holds (.folder name d rest) (name :: names)
  | behindFile {name : List UInt8} {rest : Directory} {names : List (List UInt8)}
      (later : Holds rest names) : Holds (.file name rest) names
  | behindOther {name : List UInt8} {rest : Directory} {names : List (List UInt8)}
      (later : Holds rest names) : Holds (.other name rest) names
  | behindFolder {name : List UInt8} {d rest : Directory} {names : List (List UInt8)}
      (later : Holds rest names) : Holds (.folder name d rest) names

end Directory

def pathOf (targetPath : List UInt8) (names : List (List UInt8)) : List UInt8 :=
  names.foldl append targetPath

/-- A file of the tree, or only of the folder itself. -/
def InScope (searchSubFolder : Bool) (d : Directory) (names : List (List UInt8)) : Prop :=
  d.Holds names ∧ (searchSubFolder = false → names.length = 1)

/-- The file has one of the extensions, which are given without the dot. -/
def HasOneOf (extensions names : List (List UInt8)) : Prop :=
  ∃ name ∈ names.getLast?, ∃ e ∈ extensions, extension name = dot :: e

/-- The documented form of the list: `txt,json,xml`. -/
def Documented (extensions : List (List UInt8)) : Prop := ∀ e ∈ extensions, e ≠ [] ∧ dot ∉ e

/-- The requested files are returned once, and nothing else is. -/
def SelectsExactly (searchSubFolder : Bool) (extensions : List (List UInt8))
    (targetPath : List UInt8) (d : Directory) : Prop :=
  ∃ result, getFiles searchSubFolder extensions targetPath (.folder d) = some (.ok result) ∧
    result.Nodup ∧ ∀ path, path ∈ result ↔ ∃ names, InScope searchSubFolder d names ∧
      (extensions = [] ∨ HasOneOf extensions names) ∧ path = pathOf targetPath names

section
variable {searchSubFolder : Bool} {extensions names : List (List UInt8)}
  {targetPath path name : List UInt8} {d inside rest : Directory}

theorem Directory.Holds.ne_nil (holds : d.Holds names) : names ≠ [] := by
  induction holds with
  | here => exact List.cons_ne_nil _ _
  | inside => exact List.cons_ne_nil _ _
  | behindFile _ ih => exact ih
  | behindOther _ ih => exact ih
  | behindFolder _ ih => exact ih

theorem holds_file_iff :
    (Directory.file name rest).Holds names ↔ names = [name] ∨ rest.Holds names := by
  constructor
  · intro holds
    cases holds with
    | here => exact .inl rfl
    | behindFile later => exact .inr later
  · rintro (rfl | later)
    · exact .here
    · exact .behindFile later

theorem holds_other_iff : (Directory.other name rest).Holds names ↔ rest.Holds names := by
  constructor
  · intro holds
    cases holds with
    | behindOther later => exact later
  · exact .behindOther

theorem holds_folder_iff : (Directory.folder name inside rest).Holds names ↔
    (∃ below, names = name :: below ∧ inside.Holds below) ∨ rest.Holds names := by
  constructor
  · intro holds
    cases holds with
    | inside below => exact .inl ⟨_, rfl, below⟩
    | behindFolder later => exact .inr later
  · rintro (⟨below, rfl, holds⟩ | later)
    · exact .inside holds
    · exact .behindFolder later

/-- What the filter lets through, by the names of a file. -/
def Passes (extensions names : List (List UInt8)) : Prop :=
  extensions = [] ∨ ∃ name ∈ names.getLast?, extension name ∈ extensions

theorem wanted_append_iff (plain : separator ∉ name) (targetPath : List UInt8) :
    wanted extensions (append targetPath name) ↔ Passes extensions [name] := by
  rw [wanted, decide_eq_true_iff, filename_append plain, Passes]
  simp

theorem append_ne_nil (plain : separator ∉ name) (some_ : name ≠ []) (targetPath : List UInt8) :
    append targetPath name ≠ [] := by
  rw [append_eq_base plain]
  exact fun empty => some_ (List.append_eq_nil_iff.mp empty).2

theorem passes_cons (more : names ≠ []) :
    Passes extensions (name :: names) ↔ Passes extensions names := by
  rw [Passes, Passes, List.getLast?_cons_of_ne_nil more]

/-- A file in scope that passes the filter has the path. -/
def Finds (searchSubFolder : Bool) (extensions : List (List UInt8)) (targetPath : List UInt8)
    (d : Directory) (path : List UInt8) : Prop :=
  ∃ names, InScope searchSubFolder d names ∧ Passes extensions names ∧
    path = pathOf targetPath names

theorem finds_file_iff :
    Finds searchSubFolder extensions targetPath (.file name rest) path ↔
      (Passes extensions [name] ∧ path = append targetPath name) ∨
        Finds searchSubFolder extensions targetPath rest path := by
  constructor
  · rintro ⟨names, ⟨holds, direct⟩, passes, rfl⟩
    rcases holds_file_iff.mp holds with rfl | later
    · exact .inl ⟨passes, rfl⟩
    · exact .inr ⟨names, ⟨later, direct⟩, passes, rfl⟩
  · rintro (⟨passes, rfl⟩ | ⟨names, ⟨holds, direct⟩, passes, rfl⟩)
    · exact ⟨[name], ⟨.here, fun _ => rfl⟩, passes, rfl⟩
    · exact ⟨names, ⟨.behindFile holds, direct⟩, passes, rfl⟩

theorem finds_other_iff :
    Finds searchSubFolder extensions targetPath (.other name rest) path ↔
      Finds searchSubFolder extensions targetPath rest path := by
  unfold Finds InScope
  simp only [holds_other_iff]

theorem finds_folder_iff :
    Finds searchSubFolder extensions targetPath (.folder name inside rest) path ↔
      (searchSubFolder = true ∧
        Finds searchSubFolder extensions (append targetPath name) inside path) ∨
        Finds searchSubFolder extensions targetPath rest path := by
  constructor
  · rintro ⟨names, ⟨holds, direct⟩, passes, rfl⟩
    rcases holds_folder_iff.mp holds with ⟨below, rfl, lower⟩ | later
    · have deeper : searchSubFolder = true := by
        by_contra only
        refine lower.ne_nil (List.length_eq_zero_iff.mp (Nat.succ.inj (direct ?_)))
        exact Bool.eq_false_iff.mpr only
      refine .inl ⟨deeper, below, ⟨lower, fun only => ?_⟩, (passes_cons lower.ne_nil).mp passes,
        rfl⟩
      rw [deeper] at only
      cases only
    · exact .inr ⟨names, ⟨later, direct⟩, passes, rfl⟩
  · rintro (⟨deeper, below, ⟨holds, -⟩, passes, rfl⟩ | ⟨names, ⟨holds, direct⟩, passes, rfl⟩)
    · refine ⟨name :: below, ⟨.inside holds, fun only => ?_⟩, (passes_cons holds.ne_nil).mpr passes,
        rfl⟩
      rw [deeper] at only
      cases only
    · exact ⟨names, ⟨.behindFolder holds, direct⟩, passes, rfl⟩

theorem filesIn_folder (plain : separator ∉ name) (some_ : name ≠ []) :
    filesIn searchSubFolder extensions targetPath (.folder name inside rest) =
      (if searchSubFolder then
        filesIn searchSubFolder extensions (append targetPath name) inside else []) ++
        filesIn searchSubFolder extensions targetPath rest := by
  rw [filesIn, checked, if_neg (append_ne_nil plain some_ targetPath)]

/-- A search finds the files in its scope that pass the filter. -/
theorem mem_filesIn (valid : d.Valid) :
    path ∈ filesIn searchSubFolder extensions targetPath d ↔
      Finds searchSubFolder extensions targetPath d path := by
  induction d generalizing targetPath with
  | empty => exact iff_of_false List.not_mem_nil fun ⟨_, ⟨holds, _⟩, _⟩ => nomatch holds
  | file name rest ih =>
      obtain ⟨-, plain, -, validRest⟩ := valid
      rw [filesIn, List.mem_append, List.mem_ite_nil_right, List.mem_singleton,
        wanted_append_iff plain, ih validRest, finds_file_iff]
  | other name rest ih =>
      obtain ⟨-, -, -, validRest⟩ := valid
      rw [filesIn, ih validRest, finds_other_iff]
  | folder name inside rest ihInside ihRest =>
      obtain ⟨some_, plain, -, validInside, validRest⟩ := valid
      rw [filesIn_folder plain some_, List.mem_append, List.mem_ite_nil_right,
        ihInside validInside, ihRest validRest, finds_folder_iff]

/-- The first name behind the path of the search. -/
def firstName (targetPath path : List UInt8) : List UInt8 :=
  (path.drop (base targetPath).length).takeWhile (· ≠ separator)

theorem firstName_append (plain : separator ∉ name) {behind : List UInt8}
    (stops : ∀ byte ∈ behind.head?, byte = separator) :
    firstName targetPath (append targetPath name ++ behind) = name := by
  have own : ∀ byte ∈ name, decide (byte ≠ separator) = true := by
    refine fun byte member => decide_eq_true fun same => plain ?_
    rwa [← same]
  rw [firstName, append_eq_base plain, List.append_assoc, List.drop_left,
    List.takeWhile_append_of_pos own]
  cases behind with
  | nil => rw [List.takeWhile_nil, List.append_nil]
  | cons byte behind =>
      rw [List.takeWhile_cons_of_neg (by simp [stops byte rfl]), List.append_nil]

theorem firstName_file (plain : separator ∉ name) (targetPath : List UInt8) :
    firstName targetPath (append targetPath name) = name := by
  have nothing : ∀ byte ∈ ([] : List UInt8).head?, byte = separator := nofun
  rw [← List.append_nil (append targetPath name)]
  exact firstName_append plain nothing

/-- Every path that is found begins with the path of the search. -/
theorem filesIn_below (valid : d.Valid)
    (member : path ∈ filesIn searchSubFolder extensions targetPath d) :
    ∃ behind, path = base targetPath ++ behind := by
  induction d generalizing targetPath with
  | empty => cases member
  | file name rest ih =>
      obtain ⟨-, plain, -, validRest⟩ := valid
      rw [filesIn, List.mem_append, List.mem_ite_nil_right, List.mem_singleton] at member
      rcases member with ⟨-, own⟩ | later
      · exact ⟨name, own.trans (append_eq_base plain targetPath)⟩
      · exact ih validRest later
  | other name rest ih => exact ih valid.2.2.2 member
  | folder name inside rest ihInside ihRest =>
      obtain ⟨some_, plain, -, validInside, validRest⟩ := valid
      rw [filesIn_folder plain some_, List.mem_append, List.mem_ite_nil_right] at member
      rcases member with ⟨-, lower⟩ | later
      · obtain ⟨behind, same⟩ := ihInside validInside lower
        rw [base_append plain some_, append_eq_base plain, List.append_assoc,
          List.append_assoc] at same
        exact ⟨_, same⟩
      · exact ihRest validRest later

/-- The paths of a folder's files begin with its own name. -/
theorem firstName_folder (valid : d.Valid) (plain : separator ∉ name) (some_ : name ≠ [])
    (member : path ∈ filesIn searchSubFolder extensions (append targetPath name) d) :
    firstName targetPath path = name := by
  obtain ⟨behind, rfl⟩ := filesIn_below valid member
  rw [base_append plain some_, List.append_assoc]
  refine firstName_append plain ?_
  rintro byte ⟨⟩
  rfl

theorem firstName_mem (valid : d.Valid)
    (member : path ∈ filesIn searchSubFolder extensions targetPath d) :
    firstName targetPath path ∈ d.names := by
  induction d with
  | empty => cases member
  | file name rest ih =>
      obtain ⟨-, plain, -, validRest⟩ := valid
      rw [filesIn, List.mem_append, List.mem_ite_nil_right, List.mem_singleton] at member
      rcases member with ⟨-, rfl⟩ | later
      · rw [firstName_file plain]
        exact List.mem_cons_self
      · exact List.mem_cons_of_mem _ (ih validRest later)
  | other name rest ih => exact List.mem_cons_of_mem _ (ih valid.2.2.2 member)
  | folder name inside rest ihInside ihRest =>
      obtain ⟨some_, plain, -, validInside, validRest⟩ := valid
      rw [filesIn_folder plain some_, List.mem_append, List.mem_ite_nil_right] at member
      rcases member with ⟨-, lower⟩ | later
      · rw [firstName_folder validInside plain some_ lower]
        exact List.mem_cons_self
      · exact List.mem_cons_of_mem _ (ihRest validRest later)

/-- No path is returned twice. -/
theorem filesIn_nodup (valid : d.Valid) :
    (filesIn searchSubFolder extensions targetPath d).Nodup := by
  induction d generalizing targetPath with
  | empty => exact List.nodup_nil
  | file name rest ih =>
      obtain ⟨-, plain, fresh, validRest⟩ := valid
      rw [filesIn]
      refine List.nodup_append'.mpr ⟨?_, ih validRest, fun path here later => fresh ?_⟩
      · split
        next => exact List.nodup_singleton _
        next => exact List.nodup_nil
      · rw [List.mem_ite_nil_right, List.mem_singleton] at here
        have first := firstName_mem validRest later
        rwa [here.2, firstName_file plain] at first
  | other name rest ih =>
      obtain ⟨-, -, -, validRest⟩ := valid
      exact ih validRest
  | folder name inside rest ihInside ihRest =>
      obtain ⟨some_, plain, fresh, validInside, validRest⟩ := valid
      rw [filesIn_folder plain some_]
      refine List.nodup_append'.mpr ⟨?_, ihRest validRest, fun path here later => fresh ?_⟩
      · split
        next => exact ihInside validInside
        next => exact List.nodup_nil
      · rw [List.mem_ite_nil_right] at here
        rw [← firstName_folder validInside plain some_ here.2]
        exact firstName_mem validRest later

theorem documented_not_passes (documented : Documented extensions) (some_ : extensions ≠ [])
    (names : List (List UInt8)) : ¬Passes extensions names := by
  rintro (empty | ⟨name, -, member⟩)
  · exact some_ empty
  · rcases extension_cases name with bare | ⟨behind, dotted⟩
    · exact (documented _ member).1 bare
    · refine (documented _ member).2 ?_
      rw [dotted]
      exact List.mem_cons_self

/-- The requested files are returned exactly if all are, or none is there. -/
theorem selectsExactly_iff (searchSubFolder : Bool) (given : targetPath ≠ [])
    (documented : Documented extensions) (valid : d.Valid) :
    SelectsExactly searchSubFolder extensions targetPath d ↔
      extensions = [] ∨ ∀ names, InScope searchSubFolder d names → ¬HasOneOf extensions names := by
  have returned : getFiles searchSubFolder extensions targetPath (.folder d) =
      some (.ok (filesIn searchSubFolder extensions targetPath d)) := if_neg given
  by_cases empty : extensions = []
  · refine iff_of_true ⟨_, returned, filesIn_nodup valid, fun path => ?_⟩ (.inl empty)
    rw [mem_filesIn valid, Finds]
    simp only [Passes, empty, true_or]
  · rw [or_iff_right empty]
    constructor
    · rintro ⟨result, same, -, all⟩ names scope requested
      rw [returned] at same
      cases same
      have member := (all _).mpr ⟨names, scope, .inr requested, rfl⟩
      obtain ⟨others, -, passes, -⟩ := (mem_filesIn valid).mp member
      exact documented_not_passes documented empty others passes
    · intro absent
      refine ⟨_, returned, filesIn_nodup valid, fun path => iff_of_false ?_ ?_⟩
      · rw [mem_filesIn valid]
        rintro ⟨names, -, passes, -⟩
        exact documented_not_passes documented empty names passes
      · rintro ⟨names, scope, requested, -⟩
        exact absent names scope (requested.resolve_left empty)

end

/-- A folder `f` with the file `a.txt`. -/
def oneFile : Directory := .file [97, 46, 116, 120, 116] .empty

theorem selectsExactly_oneFile : SelectsExactly true [[116, 120, 116]] [102] oneFile ↔
    [[116, 120, 116]] = ([] : List (List UInt8)) ∨
      ∀ names, InScope true oneFile names → ¬HasOneOf [[116, 120, 116]] names := by
  have documented : Documented [[116, 120, 116]] := by
    unfold Documented
    decide
  exact selectsExactly_iff true (by decide) documented ⟨by decide, by decide, by decide, trivial⟩

/-- With the list `txt` the file `a.txt` is not found. -/
theorem getFiles_misses :
    getFiles true [[116, 120, 116]] [102] (.folder oneFile) = some (.ok []) ∧
      InScope true oneFile [[97, 46, 116, 120, 116]] ∧
      HasOneOf [[116, 120, 116]] [[97, 46, 116, 120, 116]] ∧
      ¬SelectsExactly true [[116, 120, 116]] [102] oneFile := by
  have scope : InScope true oneFile [[97, 46, 116, 120, 116]] := ⟨.here, nofun⟩
  have requested : HasOneOf [[116, 120, 116]] [[97, 46, 116, 120, 116]] :=
    ⟨_, rfl, _, List.mem_cons_self, by decide⟩
  have nothing : getFiles true [[116, 120, 116]] [102] (.folder oneFile) = some (.ok []) := by
    rfl
  refine ⟨nothing, scope, requested, ?_⟩
  rintro ⟨result, same, -, all⟩
  rw [nothing] at same
  cases same
  exact absurd ((all _).mpr ⟨_, scope, .inr requested, rfl⟩) List.not_mem_nil

end CppToolkit.Utilities.Folder
