import CppToolkit.Utilities.Folder

/-! What the extraction reads out of an archive, and when it has written all of it. -/
namespace CppToolkit.Utilities.Folder
open Words Memory Combiner

/-- The name and the content of a file, as they stand in a record. -/
abbrev Entry := List UInt8 × List UInt8

def Entry.path (targetPath : List UInt8) (entry : Entry) : List UInt8 :=
  LexicalPath.append targetPath (Converter.toString entry.1)

/-- The records of an archive from a cursor on, and the cursor behind them. -/
def entries (sourceData : ByteVector) (index : Nat) : List Entry × Checked Nat :=
  match _divided : divide sourceData.val index with
  | .error fault => ([], .error fault)
  | .ok (parsedData, next) =>
      if _empty : parsedData = [] then ([], .ok next)
      else
        match divideRecord parsedData with
        | .error fault => ([], .error fault)
        | .ok entry =>
            let (rest, ended) := entries sourceData next
            (entry :: rest, ended)
  termination_by sourceData.val.length - index
  decreasing_by
    have forward := divide_advances sourceData.property _divided _empty
    omega

/-- Every file of the records can be opened, the first one as the `n`-th. -/
def Opens (fs : FileSystem) (targetPath : List UInt8) : Nat → List Entry → Prop
  | _, [] => True
  | n, entry :: rest =>
      fs.writable n (entry.path targetPath) = .opened ∧ Opens fs targetPath (n + 1) rest

/-- Every content arrives in its file. -/
def Stores (fs : FileSystem) : Nat → List Entry → Prop
  | _, [] => True
  | n, entry :: rest =>
      fs.stored n (File.writeBytes entry.2) = entry.2 ∧ Stores fs (n + 1) rest

/-- The records up to the first whose file cannot be opened, and that one. -/
def reached (fs : FileSystem) (targetPath : List UInt8) : Nat → List Entry → List Entry
  | _, [] => []
  | n, entry :: rest =>
      if fs.writable n (entry.path targetPath) = .opened then
        entry :: reached fs targetPath (n + 1) rest
      else [entry]

/-- How the extraction of records that can all be opened ends. -/
def ending : Checked Nat → Outcome
  | .error fault => .fault fault
  | .ok _ => .returned (.ok ())

section
variable {sourceData : ByteVector} {index next : Nat} {parsedData : List UInt8} {entry : Entry}

theorem entries_end (divided : divide sourceData.val index = .ok ([], next)) :
    entries sourceData index = ([], .ok next) := by
  rw [entries]
  split
  next failed => cases divided.symm.trans failed
  next ok =>
    cases divided.symm.trans ok
    rfl

theorem entries_record (divided : divide sourceData.val index = .ok (parsedData, next))
    (some_ : parsedData ≠ []) (record : divideRecord parsedData = .ok entry) :
    entries sourceData index =
      (entry :: (entries sourceData next).1, (entries sourceData next).2) := by
  rw [entries]
  split
  next failed => cases divided.symm.trans failed
  next ok =>
    cases divided.symm.trans ok
    rw [dif_neg some_, record]

variable {fs : FileSystem} {targetPath : List UInt8} {n : Nat} {fault : Fault}

theorem loop_fault (divided : divide sourceData.val index = .error fault) :
    decompressionLoop fs targetPath sourceData n index = ⟨[], index, .fault fault⟩ := by
  rw [decompressionLoop]
  split
  next failed =>
    cases divided.symm.trans failed
    rfl
  next ok => cases divided.symm.trans ok

theorem loop_end (divided : divide sourceData.val index = .ok ([], next)) :
    decompressionLoop fs targetPath sourceData n index = ⟨[], next, .returned (.ok ())⟩ := by
  rw [decompressionLoop]
  split
  next failed => cases divided.symm.trans failed
  next ok =>
    cases divided.symm.trans ok
    rfl

theorem loop_broken (divided : divide sourceData.val index = .ok (parsedData, next))
    (some_ : parsedData ≠ []) (failed : divideRecord parsedData = .error fault) :
    decompressionLoop fs targetPath sourceData n index = ⟨[], next, .fault fault⟩ := by
  rw [decompressionLoop]
  split
  next other => cases divided.symm.trans other
  next ok =>
    cases divided.symm.trans ok
    rw [dif_neg some_, failed]

/-- A record goes to the file that its name leads to. -/
theorem loop_record (divided : divide sourceData.val index = .ok (parsedData, next))
    (some_ : parsedData ≠ []) (record : divideRecord parsedData = .ok entry) :
    decompressionLoop fs targetPath sourceData n index =
      match fs.writable n (entry.path targetPath) with
      | .thrown what => ⟨[⟨entry.1, entry.2, entry.path targetPath, none⟩], next, .thrown what⟩
      | .failed message =>
          ⟨[⟨entry.1, entry.2, entry.path targetPath, none⟩], next, .returned (.error message)⟩
      | .opened =>
          let rest := decompressionLoop fs targetPath sourceData (n + 1) next
          { rest with files := ⟨entry.1, entry.2, entry.path targetPath,
            some (fs.stored n (File.writeBytes entry.2))⟩ :: rest.files } := by
  rw [decompressionLoop]
  split
  next other => cases divided.symm.trans other
  next ok =>
    cases divided.symm.trans ok
    rw [dif_neg some_, record]
    rfl

end

/-- A file of an extraction belongs to its record. -/
def Extracted.entry (file : Extracted) : Entry := (file.name, file.data)

/-- What the extraction makes of the records that it reads. -/
structure Extracts (fs : FileSystem) (targetPath : List UInt8) (n : Nat) (read : List Entry × Checked Nat)
    (e : Extraction) : Prop where
  reached : e.files.map Extracted.entry = reached fs targetPath n read.1
  paths : ∀ file ∈ e.files, file.path = file.entry.path targetPath
  failed : ¬ Opens fs targetPath n read.1 → e.outcome.Failed
  ended : Opens fs targetPath n read.1 → e.outcome = ending read.2 ∧
    ∀ last, read.2 = .ok last → e.index = last
  contents : Opens fs targetPath n read.1 →
    (e.files.map (·.content) = read.1.map (fun entry => some entry.2) ↔ Stores fs n read.1)

section
variable {fs : FileSystem} {targetPath : List UInt8} {n : Nat}

/-- Nothing was read before the end. -/
theorem Extracts.nothing {ended : Checked Nat} {e : Extraction} (files : e.files = [])
    (outcome : e.outcome = ending ended) (index : ∀ last, ended = .ok last → e.index = last) :
    Extracts fs targetPath n ([], ended) e where
  reached := by
    rw [files]
    rfl
  paths := by
    rw [files]
    exact fun _ member => (by cases member)
  failed := fun cannot => absurd trivial cannot
  ended := fun _ => ⟨outcome, index⟩
  contents := by
    rw [files]
    exact fun _ => iff_of_true rfl trivial

/-- The first file cannot be opened. -/
theorem Extracts.stopped {entry : Entry} {rest : List Entry} {ended : Checked Nat} {index : Nat}
    {outcome : Outcome} (closed : fs.writable n (entry.path targetPath) ≠ .opened)
    (failed : outcome.Failed) : Extracts fs targetPath n (entry :: rest, ended)
      ⟨[⟨entry.1, entry.2, entry.path targetPath, none⟩], index, outcome⟩ where
  reached := (if_neg closed).symm
  paths := by
    intro file member
    rw [List.mem_singleton.mp member]
    rfl
  failed := fun _ => failed
  ended := fun opens => absurd opens.1 closed
  contents := fun opens => absurd opens.1 closed

/-- The first file is opened, and the extraction goes on. -/
theorem Extracts.goes_on {entry : Entry} {read : List Entry × Checked Nat} {e : Extraction}
    (opened : fs.writable n (entry.path targetPath) = .opened)
    (extracts : Extracts fs targetPath (n + 1) read e) :
    Extracts fs targetPath n (entry :: read.1, read.2)
      { e with files := ⟨entry.1, entry.2, entry.path targetPath,
        some (fs.stored n (File.writeBytes entry.2))⟩ :: e.files } where
  reached := by
    rw [Folder.reached, if_pos opened, ← extracts.reached]
    rfl
  paths := by
    intro file member
    rcases List.mem_cons.mp member with rfl | member
    · rfl
    · exact extracts.paths file member
  failed := fun cannot => extracts.failed fun opens => cannot ⟨opened, opens⟩
  ended := fun opens => extracts.ended opens.2
  contents := by
    intro opens
    rw [List.map_cons, List.map_cons, List.cons.injEq, extracts.contents opens.2,
      Option.some.injEq]
    rfl

/-- Induction on the turns of the loop. -/
theorem decompressionLoop_extracts (sourceData : ByteVector) (index : Nat) :
    Extracts fs targetPath n (entries sourceData index)
      (decompressionLoop fs targetPath sourceData n index) := by
  fun_induction entries sourceData index generalizing n with
  | case1 index fault divided =>
      rw [loop_fault divided]
      exact .nothing rfl rfl fun _ same => (by cases same)
  | case2 index next divided =>
      rw [loop_end divided]
      refine .nothing rfl rfl fun last same => ?_
      exact Except.ok.inj same
  | case3 index parsedData next divided some_ fault failed =>
      rw [loop_broken divided some_ failed]
      exact .nothing rfl rfl fun _ same => (by cases same)
  | case4 index parsedData next divided some_ entry record rest ended read ih =>
      rw [loop_record divided some_ record]
      split
      next what thrown =>
        refine .stopped ?_ trivial
        rw [thrown]
        exact fun same => by cases same
      next message failed =>
        refine .stopped ?_ trivial
        rw [failed]
        exact fun same => by cases same
      next opened =>
        rw [read] at ih
        exact .goes_on opened ih

end

/-- The two fields of a record, before it is written. -/
def recordBytes (entry : Entry) : List UInt8 := field entry.1 ++ field entry.2

/-- The bytes of an archive: one field for each record. -/
def image (records : List Entry) : List UInt8 := fields (records.map recordBytes)

/-- What `compression` writes for its files, one after the other. -/
def archive (records : List Entry) : List UInt8 :=
  records.flatMap fun entry => record entry.1 entry.2

theorem recordBytes_ne_nil (entry : Entry) : recordBytes entry ≠ [] :=
  List.append_ne_nil_of_left_ne_nil (field_ne_nil _) _

/-- A record that is written whole is one field with two inside. -/
theorem record_eq {entry : Entry} (short : (recordBytes entry).length < 2 ^ 32) :
    record entry.1 entry.2 = field (recordBytes entry) := by
  have source : append (append [] (Converter.toArray entry.1)) entry.2 = recordBytes entry := by
    rw [append_eq, append_eq, List.nil_append]
    rfl
  have word : (leWord sizeBytes (recordBytes entry).length).length < 2 ^ 32 := by
    rw [leWord_length]
    decide
  have whole : (recordBytes entry).reverse.length < 2 ^ 32 := by
    rw [List.length_reverse]
    exact short
  simp only [record, source, List.length_reverse]
  rw [File.writeBytes_eq_iff.mpr word, File.writeBytes_eq_iff.mpr whole]
  rfl

theorem archive_eq_image {records : List Entry}
    (short : ∀ entry ∈ records, (recordBytes entry).length < 2 ^ 32) :
    archive records = image records := by
  induction records with
  | nil => rfl
  | cons entry rest ih =>
      have rest_ := ih fun other member => short other (List.mem_cons_of_mem _ member)
      have first := record_eq (short entry List.mem_cons_self)
      have split : archive (entry :: rest) = record entry.1 entry.2 ++ archive rest :=
        List.flatMap_cons
      rw [split, first, rest_, image, image, List.map_cons, fields_cons]

theorem divideRecord_recordBytes {entry : Entry} (small : (recordBytes entry).length < 2 ^ 63) :
    divideRecord (recordBytes entry) = .ok entry := by
  have both : recordBytes entry = fields [entry.1, entry.2] := by
    rw [fields_cons, fields_cons, fields, List.flatMap_nil, List.append_nil]
    rfl
  rw [both] at small ⊢
  have small := lt_sizeMax small
  have first := divide_fields [] entry.1 [entry.2] small
  have second := divide_fields [entry.1] entry.2 [] small
  have zero : (fields []).length = 0 := rfl
  rw [zero] at first
  simp only [List.nil_append, List.cons_append] at first second
  simp only [divideRecord, first, second, ok_bind]

/-- Behind the records before them, the records of an archive are read one after the other. -/
theorem entries_image {sourceData : ByteVector} (front back : List Entry)
    (whole : sourceData.val = image (front ++ back)) :
    entries sourceData (image front).length = (back, .ok sourceData.val.length) := by
  have small := sourceData.property
  induction back generalizing front with
  | nil =>
      rw [List.append_nil] at whole
      rw [← whole]
      exact entries_end (divide_truncated small (Nat.le_refl _) (by omega))
  | cons entry rest ih =>
      have split : image (front ++ entry :: rest) =
          fields (front.map recordBytes ++ recordBytes entry :: rest.map recordBytes) := by
        rw [image, List.map_append, List.map_cons]
      have behind : image (front ++ [entry]) = fields (front.map recordBytes ++ [recordBytes entry]) := by
        rw [image, List.map_append]
        rfl
      have divided : divide sourceData.val (image front).length =
          .ok (recordBytes entry, (image (front ++ [entry])).length) := by
        rw [whole, split] at small ⊢
        rw [behind]
        exact divide_fields _ _ _ (lt_sizeMax small)
      have inner : (recordBytes entry).length < 2 ^ 63 := by
        rw [whole, split, fields_append, fields_cons, List.length_append, List.length_append,
          field_length] at small
        omega
      have rest_ := ih (front ++ [entry]) (by rw [whole, List.append_assoc]; rfl)
      rw [entries_record divided (recordBytes_ne_nil entry) (divideRecord_recordBytes inner), rest_]

theorem entries_of_image {sourceData : ByteVector} {records : List Entry}
    (whole : sourceData.val = image records) :
    entries sourceData 0 = (records, .ok sourceData.val.length) :=
  entries_image [] records whole

section
variable {fs : FileSystem} {targetPath : List UInt8} {n : Nat}

theorem reached_prefix (records : List Entry) : reached fs targetPath n records <+: records := by
  induction records generalizing n with
  | nil => exact List.prefix_rfl
  | cons entry rest ih =>
      rw [reached]
      split
      next => exact (List.prefix_cons_inj entry).mpr ih
      next => exact (List.prefix_cons_inj entry).mpr (List.nil_prefix)

theorem reached_all {records : List Entry} (opens : Opens fs targetPath n records) :
    reached fs targetPath n records = records := by
  induction records generalizing n with
  | nil => rfl
  | cons entry rest ih => rw [reached, if_pos opens.1, ih opens.2]

theorem opens_of_writable (opens : ∀ n path, fs.writable n path = .opened) (records : List Entry) :
    Opens fs targetPath n records := by
  induction records generalizing n with
  | nil => exact trivial
  | cons entry rest ih => exact ⟨opens _ _, ih⟩

end

/-- `compression` writes the archive of the files that it can read. -/
theorem compressionLoop_archive {fs : FileSystem} {relative : List UInt8 → List UInt8}
    {searchFiles : List (List UInt8)} (readable : ∀ path ∈ searchFiles, fs.readable path = .opened) :
    compressionLoop fs relative searchFiles =
      (archive (searchFiles.map fun path => (relative path, (fs.bytes path).val)),
        .returned (.ok ())) := by
  induction searchFiles with
  | nil => rfl
  | cons path rest ih =>
      have first := readable path List.mem_cons_self
      have rest_ := ih fun other member => readable other (List.mem_cons_of_mem _ member)
      rw [compressionLoop, first, rest_]
      rfl

/-- An extraction tells the truth: it reports success only where it has written every record
of an archive that is nothing but records, and it reports any other archive as a failure. -/
structure Truthful (targetPath source : List UInt8) (e : Extraction) : Prop where
  success : e.outcome = .returned (.ok ()) → ∃ records, source = image records ∧
    e.files = records.map fun entry =>
      ⟨entry.1, entry.2, entry.path targetPath, some entry.2⟩
  damage : (¬ ∃ records, source = image records) → e.outcome.Failed

theorem files_eq_iff {targetPath : List UInt8} {files : List Extracted} {records : List Entry}
    (read : files.map Extracted.entry = records)
    (paths : ∀ file ∈ files, file.path = file.entry.path targetPath) :
    files = records.map (fun entry => ⟨entry.1, entry.2, entry.path targetPath, some entry.2⟩) ↔
      files.map (·.content) = records.map fun entry => some entry.2 := by
  subst read
  induction files with
  | nil => exact iff_of_true rfl rfl
  | cons file rest ih =>
      have first := paths file List.mem_cons_self
      have rest_ := ih fun other member => paths other (List.mem_cons_of_mem _ member)
      simp only [List.map_cons, List.cons.injEq, rest_]
      refine and_congr_left fun _ => ?_
      obtain ⟨name, data, path, content⟩ := file
      change path = Entry.path targetPath (name, data) at first
      subst first
      refine ⟨fun same => congrArg Extracted.content same, fun same => ?_⟩
      change content = some data at same
      rw [same]
      rfl

theorem not_success_of_failed {outcome : Outcome} (failed : outcome.Failed) :
    outcome ≠ .returned (.ok ()) := by
  rintro rfl
  exact failed

/-- The extraction of what has been read tells the truth exactly if a file cannot be opened
or the archive is whole and every content arrives. -/
theorem Extracts.truthful_iff {fs : FileSystem} {targetPath : List UInt8} {sourceData : ByteVector}
    {e : Extraction} (extracts : Extracts fs targetPath 0 (entries sourceData 0) e) :
    Truthful targetPath sourceData.val e ↔ ¬ Opens fs targetPath 0 (entries sourceData 0).1 ∨
      ∃ records, sourceData.val = image records ∧ Stores fs 0 records := by
  by_cases opens : Opens fs targetPath 0 (entries sourceData 0).1
  swap
  · have failed := extracts.failed opens
    refine iff_of_true ⟨fun success => absurd success (not_success_of_failed failed), fun _ => failed⟩
      (.inl opens)
  rw [or_iff_right (not_not_intro opens)]
  obtain ⟨outcome, _⟩ := extracts.ended opens
  have read := extracts.reached.trans (reached_all opens)
  have written := files_eq_iff read extracts.paths
  rw [extracts.contents opens] at written
  constructor
  · intro truthful
    by_cases whole : ∃ records, sourceData.val = image records
    · obtain ⟨records, whole⟩ := whole
      have records_ := entries_of_image whole
      rw [records_] at outcome
      obtain ⟨others, whole', files⟩ := truthful.success outcome
      have same := (entries_of_image whole').symm.trans records_
      cases (Prod.mk.inj same).1
      rw [records_] at written
      exact ⟨records, whole, written.mp files⟩
    · have failed := truthful.damage whole
      rw [outcome] at failed
      cases ended : (entries sourceData 0).2 with
      | error fault => rw [ended] at failed; exact failed.elim
      | ok last => rw [ended] at failed; exact failed.elim
  · rintro ⟨records, whole, stores⟩
    have records_ := entries_of_image whole
    rw [records_] at written
    exact ⟨fun _ => ⟨records, whole, written.mpr stores⟩, fun damaged => absurd ⟨records, whole⟩ damaged⟩

/-- `decompression` reports success only for a whole archive, if and only if the archive
cannot be read, the folder cannot be looked at, one of the files that it names before the
damage cannot be opened, or the archive is whole and every content arrives in its file. -/
theorem decompression_truthful_iff (fs : FileSystem) (createFolder : Option String)
    (targetPath sourcePath : List UInt8) :
    Truthful targetPath (fs.bytes sourcePath).val
        (decompression fs createFolder targetPath sourcePath) ↔
      fs.readable sourcePath ≠ .opened ∨ createFolder ≠ none ∨
        ¬ Opens fs targetPath 0 (entries (fs.bytes sourcePath) 0).1 ∨
          ∃ records, (fs.bytes sourcePath).val = image records ∧ Stores fs 0 records := by
  have reports : ∀ {e : Extraction}, e.outcome.Failed →
      Truthful targetPath (fs.bytes sourcePath).val e := fun failed =>
    ⟨fun success => absurd success (not_success_of_failed failed), fun _ => failed⟩
  unfold decompression
  split
  next what thrown =>
    refine iff_of_true (reports trivial) (.inl fun opened => ?_)
    cases thrown.symm.trans opened
  next message failed =>
    refine iff_of_true (reports trivial) (.inl fun opened => ?_)
    cases failed.symm.trans opened
  next opened =>
    rw [or_iff_right (not_not_intro opened)]
    split
    next what => exact iff_of_true (reports trivial) (.inl (Option.some_ne_none what))
    next =>
      rw [or_iff_right (not_not_intro rfl)]
      exact (decompressionLoop_extracts _ 0).truthful_iff

/-- Three bytes are no archive, and are extracted with success. -/
theorem decompression_accepts_damage :
    ¬ ∀ (fs : FileSystem) (createFolder : Option String) (targetPath sourcePath : List UInt8),
      Truthful targetPath (fs.bytes sourcePath).val
        (decompression fs createFolder targetPath sourcePath) := by
  intro truthful
  have ended : divide [0, 0, 0] 0 = .ok ([], 0) := by decide +kernel
  have success := (truthful (.open_ fun _ => ⟨[0, 0, 0], by decide⟩) none [] []).success
    (congrArg Extraction.outcome (@loop_end ⟨[0, 0, 0], by decide⟩ _ _ _ _ _ ended))
  obtain ⟨records, whole, _⟩ := success
  have size := congrArg List.length whole
  cases records with
  | nil => cases size
  | cons entry rest =>
      rw [image, List.map_cons, fields_cons, List.length_append, field_length] at size
      change 3 = _ at size
      omega

end CppToolkit.Utilities.Folder
