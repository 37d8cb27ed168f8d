import CppToolkit.Library.RelativePath
import CppToolkit.Utilities.FileSearch
import CppToolkit.Utilities.FolderPaths

/-! A whole folder through `compression` and `decompression`, and the folders that
`Folder::get_folders` finds in it. -/
namespace CppToolkit.Utilities.Folder
open LexicalPath

/-- The loop of `get_folders`; a folder is searched by a call for its own path. -/
def foldersIn (searchSubFolder : Bool) (targetPath : List UInt8) : Directory → List (List UInt8)
  | .empty => []
  | .file _ rest => foldersIn searchSubFolder targetPath rest
  | .other _ rest => foldersIn searchSubFolder targetPath rest
  | .folder name inside rest =>
      let path := append targetPath name
      path :: (if searchSubFolder then
        match checked path (foldersIn searchSubFolder path inside) with
        | .error _ => []
        | .ok subFolders => subFolders
      else []) ++ foldersIn searchSubFolder targetPath rest

/-- The directory iterator throws for what is not a folder. -/
def getFolders (searchSubFolder : Bool) (targetPath : List UInt8) (target : Target) :
    Option (Except String (List (List UInt8))) :=
  if targetPath = [] then some (.error "target path is empty")
  else
    match target with
    | .missing => some (.error "there is no target folder")
    | .notFolder => none
    | .folder inside => some (.ok (foldersIn searchSubFolder targetPath inside))

/-- `compression` of what is at the source path; the archive is opened after the search. -/
def compressionOf (fs : FileSystem) (targetPath sourcePath : List UInt8) (searchSubFolder : Bool)
    (extensions : List (List UInt8)) (source : Target) : Option (List UInt8 × Outcome) :=
  (getFiles searchSubFolder extensions sourcePath source).map
    (compression fs (lexicallyRelative · sourcePath) targetPath)

/-- The names that lead to the files of a search, in its order. -/
def namesIn (searchSubFolder : Bool) (extensions : List (List UInt8)) :
    Directory → List (List (List UInt8))
  | .empty => []
  | .file name rest =>
      (if wanted extensions name then [[name]] else []) ++ namesIn searchSubFolder extensions rest
  | .other _ rest => namesIn searchSubFolder extensions rest
  | .folder name inside rest =>
      (if searchSubFolder then (namesIn searchSubFolder extensions inside).map (name :: ·) else []) ++
        namesIn searchSubFolder extensions rest

/-- The folders below a folder, each with the names that lead to it. -/
def foldersBelow (searchSubFolder : Bool) : Directory → List (List (List UInt8) × Directory)
  | .empty => []
  | .file _ rest => foldersBelow searchSubFolder rest
  | .other _ rest => foldersBelow searchSubFolder rest
  | .folder name inside rest =>
      ([name], inside) :: (if searchSubFolder then
        (foldersBelow searchSubFolder inside).map fun below => (name :: below.1, below.2)
      else []) ++ foldersBelow searchSubFolder rest

/-- What a search finds in a folder itself. -/
abbrev filesAt (extensions : List (List UInt8)) (targetPath : List UInt8)
    (below : List (List UInt8) × Directory) : List (List UInt8) :=
  filesIn false extensions (pathOf targetPath below.1) below.2

section
variable {searchSubFolder : Bool} {extensions : List (List UInt8)} {names : List (List UInt8)}
  {targetPath sourcePath name : List UInt8} {d inside rest : Directory}

theorem filename_plain (plain : separator ∉ name) : filename name = name := by
  have alone := filename_append plain []
  rwa [append_eq_base plain, base, if_neg (by decide), List.nil_append] at alone

theorem wanted_append (plain : separator ∉ name) (targetPath : List UInt8) :
    wanted extensions (append targetPath name) = wanted extensions name := by
  rw [wanted, wanted, filename_append plain, filename_plain plain]

/-- A search finds its files by their names, whatever it is called with. -/
theorem filesIn_eq (valid : d.Valid) (targetPath : List UInt8) :
    filesIn searchSubFolder extensions targetPath d =
      (namesIn searchSubFolder extensions d).map (pathOf targetPath) := by
  induction d generalizing targetPath with
  | empty => rfl
  | file name rest ih =>
      obtain ⟨-, plain, -, validRest⟩ := valid
      rw [filesIn, namesIn, wanted_append plain, ih validRest, List.map_append]
      split
      next => rfl
      next => rfl
  | other name rest ih => exact ih valid.2.2.2 targetPath
  | folder name inside rest ihInside ihRest =>
      obtain ⟨some_, plain, -, validInside, validRest⟩ := valid
      rw [filesIn_folder plain some_, namesIn, ihInside validInside, ihRest validRest,
        List.map_append]
      split
      next =>
        rw [List.map_map]
        rfl
      next => rfl

/-- Names that lead to a file are names of entries. -/
theorem plain_of_namesIn (valid : d.Valid) (member : names ∈ namesIn searchSubFolder extensions d) :
    names ≠ [] ∧ ∀ name ∈ names, Plain name := by
  induction d generalizing names with
  | empty => cases member
  | file name rest ih =>
      obtain ⟨some_, plain, -, validRest⟩ := valid
      rw [namesIn, List.mem_append, List.mem_ite_nil_right, List.mem_singleton] at member
      rcases member with ⟨-, rfl⟩ | later
      · exact ⟨List.cons_ne_nil _ _, List.forall_mem_singleton.mpr ⟨some_, plain⟩⟩
      · exact ih validRest later
  | other name rest ih => exact ih valid.2.2.2 member
  | folder name inside rest ihInside ihRest =>
      obtain ⟨some_, plain, -, validInside, validRest⟩ := valid
      rw [namesIn, List.mem_append, List.mem_ite_nil_right, List.mem_map] at member
      rcases member with ⟨-, below, inner, rfl⟩ | later
      · refine ⟨List.cons_ne_nil _ _, List.forall_mem_cons.mpr ⟨⟨some_, plain⟩, ?_⟩⟩
        exact (ihInside validInside inner).2
      · exact ihRest validRest later

/-- The path of a file from the source on leads to the file again, below any path. -/
theorem append_relative (valid : d.Valid) (member : names ∈ namesIn searchSubFolder extensions d) :
    lexicallyRelative (pathOf sourcePath names) sourcePath = pathOf [] names ∧
      append targetPath (pathOf [] names) = pathOf targetPath names := by
  obtain ⟨some_, plain⟩ := plain_of_namesIn valid member
  exact ⟨lexicallyRelative_below plain some_ sourcePath, append_below plain some_ targetPath⟩

/-- The records of the files that a search finds. -/
def recordsOf (fs : FileSystem) (sourcePath : List UInt8) (found : List (List (List UInt8))) :
    List Entry :=
  found.map fun names => (pathOf [] names, (fs.bytes (pathOf sourcePath names)).val)

/-- What `compression` writes for a folder whose files can be read. -/
theorem compressionOf_archive {fs : FileSystem} {archivePath : List UInt8} (given : sourcePath ≠ [])
    (valid : d.Valid)
    (readable : ∀ path ∈ filesIn searchSubFolder extensions sourcePath d, fs.readable path = .opened)
    (writable : fs.writable 0 archivePath = .opened) :
    compressionOf fs archivePath sourcePath searchSubFolder extensions (.folder d) =
      some (archive (recordsOf fs sourcePath (namesIn searchSubFolder extensions d)),
        .returned (.ok ())) := by
  rw [compressionOf, getFiles, if_neg given]
  simp only [Option.map_some, compression, writable]
  rw [compressionLoop_archive readable, filesIn_eq valid, List.map_map, recordsOf]
  congr 3
  refine List.map_congr_left fun names member => ?_
  exact congrArg (·, _) (@append_relative _ _ _ [] _ _ valid member).1

end

theorem stores_of_keeps {fs : FileSystem} (keeps : fs.Keeps) {n : Nat} {records : List Entry}
    (short : ∀ entry ∈ records, (recordBytes entry).length < 2 ^ 32) : Stores fs n records := by
  induction records generalizing n with
  | nil => exact trivial
  | cons entry rest ih =>
      rw [List.forall_mem_cons] at short
      refine ⟨?_, ih short.2⟩
      rw [keeps, File.writeBytes_eq_iff]
      refine Nat.lt_of_le_of_lt ?_ short.1
      rw [recordBytes, List.length_append, Combiner.field_length, Combiner.field_length]
      omega

/-- The folder `a` with the file `b`, and the file `c`. -/
def sampleFolder : Directory := .folder [97] (.file [98] .empty) (.file [99] .empty)

/-- What an entry of a folder is called: the directory iterator leaves out the folder itself and
the folder above. -/
def Ordinary (name : List UInt8) : Prop :=
  Plain name ∧ name ≠ [dot] ∧ name ≠ [dot, dot] ∧ 0 ∉ name

section
variable {names : List (List UInt8)} {name targetPath : List UInt8}

theorem components_ordinary (ordinary : Ordinary name) : components name = [.name name] := by
  have here : ¬ (name = [] ∨ name = [46]) := not_or_intro ordinary.1.1 ordinary.2.1
  have below : name ≠ [46, 46] := ordinary.2.2.1
  rw [components, splitOn_plain ordinary.1, List.map_singleton, Component.ofBytes, if_neg here,
    if_neg below]

/-- Names of entries only lead down. -/
theorem ups_pathOf (ordinary : ∀ name ∈ names, Ordinary name) (absolute : Bool)
    (n : Normal (List UInt8)) :
    (n.walk absolute (components (pathOf [] names))).ups = n.ups := by
  induction names using List.reverseRecOn with
  | nil => rfl
  | append_singleton front last ih =>
      have own : Ordinary last := ordinary last (List.mem_append_right _ List.mem_cons_self)
      rw [pathOf, List.foldl_concat, walk_components_append (isAbsolute_eq_false own.1.2),
        components_ordinary own]
      exact ih fun name member => ordinary name (List.mem_append_left _ member)

theorem zero_not_mem_pathOf (ordinary : ∀ name ∈ names, Ordinary name) : 0 ∉ pathOf [] names := by
  induction names using List.reverseRecOn with
  | nil => exact List.not_mem_nil
  | append_singleton front last ih =>
      have own : Ordinary last := ordinary last (List.mem_append_right _ List.mem_cons_self)
      have front_ := ih fun name member => ordinary name (List.mem_append_left _ member)
      rw [pathOf, List.foldl_concat, append_eq_base own.1.2, List.mem_append, base]
      rintro (before | behind)
      · split at before
        next =>
          rw [List.mem_append, List.mem_singleton] at before
          rcases before with before | zero
          · exact front_ before
          · cases zero
        next => exact front_ before
      · exact own.2.2.2 behind

theorem confined_pathOf (ordinary : ∀ name ∈ names, Ordinary name) (targetPath : List UInt8) :
    Confined targetPath (pathOf [] names) := by
  have relative : isAbsolute (pathOf [] names) = false :=
    isAbsolute_below (fun name member => (ordinary name member).1) []
  have level : (normal (pathOf [] names)).ups = 0 := ups_pathOf ordinary _ _
  rw [Confined, relative, if_neg Bool.false_ne_true,
    systemPath_whole_iff.mpr (zero_not_mem_pathOf ordinary), level, Nat.sub_zero, List.drop_length]
  exact .inr ⟨.inr (Nat.zero_le _), List.nil_prefix⟩

theorem toString_marked {value : List UInt8} (marked : Converter.hasByteOrderMark value) :
    Converter.toString value = value.drop 2 := if_pos marked

/-- What a byte order mark costs is paid by the first name, which stays a name. -/
theorem toString_pathOf (ordinary : ∀ name ∈ names, Ordinary name) :
    ∃ others, (∀ name ∈ others, Ordinary name) ∧
      Converter.toString (pathOf [] names) = pathOf [] others := by
  by_cases marked : Converter.hasByteOrderMark (pathOf [] names)
  swap
  · exact ⟨names, ordinary, Converter.toString_toArray marked⟩
  cases names with
  | nil => exact absurd marked (by decide)
  | cons first rest =>
      rw [List.forall_mem_cons] at ordinary
      obtain ⟨own, below⟩ := ordinary
      have plain : ∀ name ∈ rest, Plain name := fun name member => (below name member).1
      have whole := foldl_append_eq plain own.1 []
      have nothing : base [] = [] := rfl
      rw [nothing, List.nil_append] at whole
      have marked_ := marked
      rw [Converter.hasByteOrderMark, pathOf, whole] at marked_
      -- The mark has no separator, so it lies in the first name.
      obtain ⟨behind, rfl⟩ : ∃ behind, first = 0xef :: 0xbb :: 0xbf :: behind := by
        rcases first with _ | ⟨a, _ | ⟨b, _ | ⟨c, behind⟩⟩⟩
        · exact absurd rfl own.1.1
        · cases rest <;> simp [separator] at marked_
        · cases rest <;> simp [separator] at marked_
        · simp only [List.cons_append, List.cons_prefix_cons] at marked_
          exact ⟨behind, by rw [marked_.1, marked_.2.1, marked_.2.2.1]⟩
      have cut : Ordinary (0xbf :: behind) := by
        refine ⟨⟨List.cons_ne_nil _ _, fun member => own.1.2 ?_⟩, ?_, ?_, fun member => own.2.2.2 ?_⟩
        · exact List.mem_cons_of_mem _ (List.mem_cons_of_mem _ member)
        · exact fun same => absurd (List.cons.inj same).1 (by decide)
        · exact fun same => absurd (List.cons.inj same).1 (by decide)
        · exact List.mem_cons_of_mem _ (List.mem_cons_of_mem _ member)
      refine ⟨(0xbf :: behind) :: rest, List.forall_mem_cons.mpr ⟨cut, below⟩, ?_⟩
      rw [toString_marked marked, pathOf, pathOf, whole, foldl_append_eq plain cut.1, nothing]
      rfl

end

/-- Whatever `compression` comes to, it has written whole records of the first files. -/
theorem compressionLoop_front (fs : FileSystem) (relative : List UInt8 → List UInt8)
    (searchFiles : List (List UInt8)) : ∃ front, front <+: searchFiles ∧
      (compressionLoop fs relative searchFiles).1 =
        archive (front.map fun path => (relative path, (fs.bytes path).val)) := by
  induction searchFiles with
  | nil => exact ⟨[], List.prefix_rfl, rfl⟩
  | cons path rest ih =>
      obtain ⟨front, before, written⟩ := ih
      rw [compressionLoop]
      split
      next => exact ⟨[], List.nil_prefix, rfl⟩
      next => exact ⟨[], List.nil_prefix, rfl⟩
      next =>
        refine ⟨path :: front, (List.prefix_cons_inj path).mpr before, ?_⟩
        exact congrArg (_ ++ ·) written

section
variable {searchSubFolder : Bool} {extensions : List (List UInt8)}
  {archivePath sourcePath targetPath written : List UInt8} {outcome : Outcome} {d : Directory}

theorem compressionOf_front {fs : FileSystem} (valid : d.Valid)
    (made : compressionOf fs archivePath sourcePath searchSubFolder extensions (.folder d) =
      some (written, outcome)) : ∃ front, front <+: namesIn searchSubFolder extensions d ∧
        written = archive (recordsOf fs sourcePath front) := by
  rw [compressionOf, getFiles] at made
  split at made
  next =>
    cases made
    exact ⟨[], List.nil_prefix, rfl⟩
  next =>
    simp only [Option.map_some, compression, Option.some.injEq] at made
    split at made
    next =>
      cases made
      exact ⟨[], List.nil_prefix, rfl⟩
    next =>
      cases made
      exact ⟨[], List.nil_prefix, rfl⟩
    next =>
      obtain ⟨front, before, same⟩ := compressionLoop_front fs (lexicallyRelative · sourcePath)
        (filesIn searchSubFolder extensions sourcePath d)
      rw [made] at same
      rw [filesIn_eq valid] at before
      obtain ⟨names, prefix_, rfl⟩ := List.prefix_map_iff.mp before
      refine ⟨names, prefix_, same.trans ?_⟩
      rw [List.map_map, recordsOf]
      refine congrArg archive (List.map_congr_left fun names member => ?_)
      exact congrArg (·, _) (@append_relative _ _ _ [] _ _ valid (prefix_.subset member)).1

/-- An archive that `compression` has written, whole or not, never leads an extraction out of
its target, however the extraction ends. -/
theorem compressed_stays_inside {fs : FileSystem} (valid : d.Valid)
    (ordinary : ∀ names ∈ namesIn searchSubFolder extensions d, ∀ name ∈ names, Ordinary name)
    (short : ∀ entry ∈ recordsOf fs sourcePath (namesIn searchSubFolder extensions d),
      (recordBytes entry).length < 2 ^ 32)
    (made : compressionOf fs archivePath sourcePath searchSubFolder extensions (.folder d) =
      some (written, outcome)) (fs' : FileSystem) (createFolder : Option String)
    (targetPath archivePath' : List UInt8) (same : (fs'.bytes archivePath').val = written) :
    StaysInside targetPath (decompression fs' createFolder targetPath archivePath') := by
  obtain ⟨front, before, rfl⟩ := compressionOf_front valid made
  have short_ : ∀ entry ∈ recordsOf fs sourcePath front, (recordBytes entry).length < 2 ^ 32 :=
    fun entry member => short entry ((before.map _).subset member)
  rw [decompression_staysInside_iff, entries_of_image (same.trans (archive_eq_image short_))]
  intro _ _ entry member
  have found := reached_prefix _ |>.subset member
  obtain ⟨names, there, rfl⟩ := List.mem_map.mp found
  obtain ⟨others, ordinary_, path⟩ := toString_pathOf (ordinary names (before.subset there))
  exact path ▸ confined_pathOf ordinary_ targetPath

end

/-- A folder called by a byte order mark, with a file. -/
theorem compressed_stays_inside_marked :
    let d := Directory.folder [0xef, 0xbb, 0xbf] (.file [46, 120] .empty) .empty
    let fs := FileSystem.open_ fun _ => ⟨[], by decide⟩
    ∃ fs' : FileSystem, (fs'.bytes [122]).val = archive (recordsOf fs [115] (namesIn true [] d)) ∧
      StaysInside [116] (decompression fs' none [116] [122]) := by
  intro d fs
  have small : (archive (recordsOf fs [115] (namesIn true [] d))).length < 2 ^ 63 := by
    decide +kernel
  have valid : d.Valid := by simp [d, Directory.Valid, Directory.names, separator]
  have ordinary : ∀ names ∈ namesIn true [] d, ∀ name ∈ names, Ordinary name := by
    have found : namesIn true [] d = [[[0xef, 0xbb, 0xbf], [46, 120]]] := by decide +kernel
    simp [found, Ordinary, Plain, separator, dot]
  have made := @compressionOf_archive true [] [115] d fs [122] (by decide) valid (fun _ _ => rfl) rfl
  refine ⟨.open_ fun _ => ⟨_, small⟩, rfl, ?_⟩
  exact compressed_stays_inside valid ordinary (by decide +kernel) made _ none [116] [122] rfl

section
variable {extensions : List (List UInt8)} {targetPath name : List UInt8} {d inside rest : Directory}

theorem foldersIn_folder {searchSubFolder : Bool} (plain : separator ∉ name) (some_ : name ≠ []) :
    foldersIn searchSubFolder targetPath (.folder name inside rest) =
      append targetPath name :: (if searchSubFolder then
        foldersIn searchSubFolder (append targetPath name) inside else []) ++
        foldersIn searchSubFolder targetPath rest := by
  rw [foldersIn, checked, if_neg (append_ne_nil plain some_ targetPath)]

theorem foldersIn_eq {searchSubFolder : Bool} (valid : d.Valid) (targetPath : List UInt8) :
    foldersIn searchSubFolder targetPath d =
      (foldersBelow searchSubFolder d).map fun below => pathOf targetPath below.1 := by
  induction d generalizing targetPath with
  | empty => rfl
  | file name rest ih => exact ih valid.2.2.2 targetPath
  | other name rest ih => exact ih valid.2.2.2 targetPath
  | folder name inside rest ihInside ihRest =>
      obtain ⟨some_, plain, -, validInside, validRest⟩ := valid
      rw [foldersIn_folder plain some_, foldersBelow, ihInside validInside, ihRest validRest,
        List.map_append, List.map_cons]
      split
      next =>
        rw [List.map_map]
        rfl
      next => rfl

theorem plain_of_foldersBelow {below : List (List UInt8) × Directory} (valid : d.Valid)
    (member : below ∈ foldersBelow true d) :
    (∃ first ∈ below.1.head?, first ∈ d.names) ∧ ∀ name ∈ below.1, Plain name := by
  induction d generalizing below with
  | empty => cases member
  | file name rest ih =>
      obtain ⟨⟨first, head, own⟩, plain⟩ := ih valid.2.2.2 member
      exact ⟨⟨first, head, List.mem_cons_of_mem _ own⟩, plain⟩
  | other name rest ih =>
      obtain ⟨⟨first, head, own⟩, plain⟩ := ih valid.2.2.2 member
      exact ⟨⟨first, head, List.mem_cons_of_mem _ own⟩, plain⟩
  | folder name inside rest ihInside ihRest =>
      obtain ⟨some_, plain, -, validInside, validRest⟩ := valid
      rw [foldersBelow, if_pos rfl, List.cons_append, List.mem_cons, List.mem_append,
        List.mem_map] at member
      rcases member with rfl | ⟨lower, inner, rfl⟩ | later
      · exact ⟨⟨name, rfl, List.mem_cons_self⟩, List.forall_mem_singleton.mpr ⟨some_, plain⟩⟩
      · refine ⟨⟨name, rfl, List.mem_cons_self⟩, List.forall_mem_cons.mpr ⟨⟨some_, plain⟩, ?_⟩⟩
        exact (ihInside validInside inner).2
      · obtain ⟨⟨first, head, own⟩, plain⟩ := ihRest validRest later
        exact ⟨⟨first, head, List.mem_cons_of_mem _ own⟩, plain⟩

/-- No folder leads to one that is returned before it. -/
theorem foldersBelow_ordered (valid : d.Valid) :
    (foldersBelow true d).Pairwise fun earlier later => ¬ later.1 <+: earlier.1 := by
  induction d with
  | empty => exact .nil
  | file name rest ih => exact ih valid.2.2.2
  | other name rest ih => exact ih valid.2.2.2
  | folder name inside rest ihInside ihRest =>
      obtain ⟨-, -, fresh, validInside, validRest⟩ := valid
      have apart : ∀ {names : List (List UInt8)}, ∀ later ∈ foldersBelow true rest,
          ¬ later.1 <+: name :: names := by
        intro names later member before
        obtain ⟨⟨first, head, own⟩, -⟩ := plain_of_foldersBelow validRest member
        obtain ⟨behind, whole⟩ := List.head?_eq_some_iff.mp head
        rw [whole, List.cons_prefix_cons] at before
        exact fresh (before.1 ▸ own)
      rw [foldersBelow, if_pos rfl, List.cons_append]
      refine List.pairwise_cons.mpr ⟨?_, List.pairwise_append.mpr ⟨?_, ihRest validRest, ?_⟩⟩
      · intro later member
        rcases List.mem_append.mp member with lower | later_
        · obtain ⟨below, inner, rfl⟩ := List.mem_map.mp lower
          obtain ⟨⟨first, head, -⟩, -⟩ := plain_of_foldersBelow validInside inner
          intro before
          have empty := List.prefix_nil.mp ((List.prefix_cons_inj name).mp before)
          rw [empty] at head
          cases head
        · exact apart later later_
      · refine List.pairwise_map.mpr ((ihInside validInside).imp fun not before => not ?_)
        exact (List.prefix_cons_inj name).mp before
      · intro earlier lower later member
        obtain ⟨below, -, rfl⟩ := List.mem_map.mp lower
        exact apart later member

theorem filesIn_perm (valid : d.Valid) (targetPath : List UInt8) :
    (filesIn true extensions targetPath d).Perm (filesIn false extensions targetPath d ++
      (foldersBelow true d).flatMap (filesAt extensions targetPath)) := by
  induction d generalizing targetPath with
  | empty => exact .refl _
  | file name rest ih =>
      rw [filesIn, filesIn, foldersBelow, List.append_assoc]
      exact (ih valid.2.2.2 targetPath).append_left _
  | other name rest ih => exact ih valid.2.2.2 targetPath
  | folder name inside rest ihInside ihRest =>
      obtain ⟨some_, plain, -, validInside, validRest⟩ := valid
      have below : (foldersBelow true (.folder name inside rest)).flatMap
          (filesAt extensions targetPath) =
          (filesIn false extensions (append targetPath name) inside ++
            (foldersBelow true inside).flatMap (filesAt extensions (append targetPath name))) ++
            (foldersBelow true rest).flatMap (filesAt extensions targetPath) := by
        rw [foldersBelow, if_pos rfl, List.cons_append, List.flatMap_cons, List.flatMap_append,
          List.flatMap_map, List.append_assoc]
        rfl
      have here : filesIn false extensions targetPath (.folder name inside rest) =
          filesIn false extensions targetPath rest := filesIn_folder plain some_
      rw [filesIn_folder plain some_, if_pos rfl, below, here]
      exact ((ihInside validInside _).append (ihRest validRest targetPath)).trans
        (List.perm_append_comm_assoc _ _ _)

end

/-- `get_folders` returns every folder once and a folder before what is in it, and a search
through all of them finds what `get_files` finds in the target and in each of them. -/
theorem getFiles_by_folders {targetPath : List UInt8} {d : Directory} (given : targetPath ≠ [])
    (valid : d.Valid) (extensions : List (List UInt8)) :
    ∃ folders found, getFolders true targetPath (.folder d) = some (.ok folders) ∧
      getFiles true extensions targetPath (.folder d) = some (.ok found) ∧
      folders = (foldersBelow true d).map (fun below => pathOf targetPath below.1) ∧
      folders.Nodup ∧
      ((foldersBelow true d).Pairwise fun earlier later => ¬ later.1 <+: earlier.1) ∧
      found.Perm (filesIn false extensions targetPath d ++
        (foldersBelow true d).flatMap (filesAt extensions targetPath)) := by
  have ordered := foldersBelow_ordered valid
  refine ⟨_, _, if_neg given, if_neg given, foldersIn_eq valid targetPath, ?_, ordered,
    filesIn_perm valid targetPath⟩
  rw [foldersIn_eq valid]
  refine List.pairwise_map.mpr (ordered.imp_of_mem fun earlier later not same => not ?_)
  rw [below_injective (plain_of_foldersBelow valid earlier).2
    (plain_of_foldersBelow valid later).2 same]

/-- The folder `t/a` with the file `b`, and the file `t/c`. -/
theorem getFiles_by_folders_sample : ∃ folders found,
    getFolders true [116] (.folder sampleFolder) = some (.ok folders) ∧
    getFiles true [] [116] (.folder sampleFolder) = some (.ok found) ∧
    folders = [[116, 47, 97]] ∧ folders.Nodup ∧
    ((foldersBelow true sampleFolder).Pairwise fun earlier later => ¬ later.1 <+: earlier.1) ∧
    found.Perm [[116, 47, 99], [116, 47, 97, 47, 98]] := by
  have valid : sampleFolder.Valid := by simp [sampleFolder, Directory.Valid, Directory.names, separator]
  obtain ⟨folders, found, listed, searched, below, once, ordered, same⟩ :=
    @getFiles_by_folders [116] _ (by decide) valid []
  have files : filesIn false [] [116] sampleFolder ++
      (foldersBelow true sampleFolder).flatMap (filesAt [] [116]) =
      [[116, 47, 99], [116, 47, 97, 47, 98]] := by decide +kernel
  rw [files] at same
  exact ⟨folders, found, listed, searched, below.trans (by decide +kernel), once, ordered, same⟩

end CppToolkit.Utilities.Folder
