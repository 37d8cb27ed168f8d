import CppToolkit.Utilities.FileReads

/-! Files of lines: what `write_lines` leaves in a file, and what `read_lines` gets of it. -/
namespace CppToolkit.Utilities.Files
open Fstream

namespace File

section
variable {f : File} {d : Disk (List UInt8)} {path : List UInt8} {mode : Openmode}

theorem closed_initial : initial.stream.isOpen = false := rfl

theorem openPath_granted (closed : f.stream.isOpen = false) (d : Disk (List UInt8))
    (path : List UInt8) (mode : Openmode) (valid : mode.valid = true)
    (there : mode.mustExist = true → (d path).isSome = true) :
    f.openPath d path mode .granted =
      (({ f with
            stream := ⟨some path, mode,
              if mode.ate then (if mode.truncates then [] else (d path).getD []).length else 0,
              false, false, false⟩
            filePath := path },
        Function.update d path (some (if mode.truncates then [] else (d path).getD []))),
        .returned (.ok ())) := by
  unfold openPath openStream
  dsimp only
  rw [Stream.openFile_granted closed valid there]
  exact if_pos rfl

theorem openPath_absent (closed : f.stream.isOpen = false) (mode : Openmode)
    (must : mode.mustExist = true) (absent : d path = none) : f.openPath d path mode .granted =
      (({ f with stream := { f.stream with fail := true }, filePath := path }, d),
        .returned (.error ("there is no file : " ++ Converter.text path))) := by
  have still : ¬ ({ f.stream with fail := true } : Stream (List UInt8)).isOpen = true :=
    ne_true_of_eq_false closed
  unfold openPath openStream
  dsimp only
  rw [Stream.openFile_absent closed must absent]
  dsimp only
  rw [if_neg still, if_pos absent]

theorem atEnd_truncated (closed : f.stream.isOpen = false) (d : Disk (List UInt8))
    (path : List UInt8) (mode : Openmode) (valid : mode.valid = true)
    (truncates : mode.truncates = true) :
    ∃ g e, f.openPath d path mode .granted = ((g, e), .returned (.ok ())) ∧
      g.openmode = f.openmode ∧ g.stream.AtEnd e path ∧ (e path).getD [] = [] := by
  have there : mode.mustExist = true → (d path).isSome = true := by
    unfold Openmode.mustExist
    unfold Openmode.truncates at truncates
    grind
  have writable : mode.writable = true := by
    unfold Openmode.writable
    unfold Openmode.truncates at truncates
    unfold Openmode.valid at valid
    grind
  refine ⟨_, _, openPath_granted closed d path mode valid there, rfl, ?_, ?_⟩
  · exact ⟨rfl, rfl, writable, by simp, by simp [Stream.writePosition, Stream.content, truncates]⟩
  · simp [truncates]

theorem atEnd_appended (closed : f.stream.isOpen = false) (d : Disk (List UInt8))
    (path : List UInt8) (mode : Openmode) (valid : mode.valid = true)
    (app : mode.app = true) :
    ∃ g e, f.openPath d path mode .granted = ((g, e), .returned (.ok ())) ∧
      g.openmode = f.openmode ∧ g.stream.AtEnd e path ∧ (e path).getD [] = (d path).getD [] := by
  have there : mode.mustExist = true → (d path).isSome = true := by
    unfold Openmode.mustExist
    grind
  have kept : mode.truncates = false := by
    unfold Openmode.truncates
    unfold Openmode.valid at valid
    grind
  refine ⟨_, _, openPath_granted closed d path mode valid there, rfl, ?_, ?_⟩
  · exact ⟨rfl, rfl, by simp [Openmode.writable, app], by simp,
      by simp [Stream.writePosition, Stream.content, app]⟩
  · simp [kept]

/-- `write_lines` through a stream that writes behind what the file holds. -/
theorem writeLines_atEnd (openmode : f.openmode = .none) (atEnd : f.stream.AtEnd d path)
    (lines : List (List UInt8)) (appendNewline : Bool) :
    ∃ g e, f.writeLines d lines appendNewline = ((g, e), .ok ()) ∧ g.openmode = .none ∧
      (e path).isSome = true ∧ (e path).getD [] = (d path).getD [] ++
        concatenated lines appendNewline ++ (if appendNewline then [Stream.newline] else []) := by
  have isOpen : ¬ f.stream.isOpen = false := by simp [Stream.isOpen, atEnd.target]
  obtain ⟨next, first⟩ := atEnd.write (concatenated lines appendNewline)
  obtain ⟨last, second⟩ := next.write (if appendNewline then [Stream.newline] else [])
  rw [writeLines, if_neg (mayWrite openmode), if_neg isOpen]
  exact ⟨_, _, rfl, openmode, last.present, by rw [second, first]⟩

theorem close_closed (f : File) :
    f.close.stream.isOpen = false ∧ f.close.openmode = f.openmode := by
  unfold close
  split
  next closed => exact ⟨closed, rfl⟩
  next => exact ⟨rfl, rfl⟩

/-- `read_lines` from a file that is opened for it. -/
theorem readLines_opened (openmode : f.openmode = .none) (closed : f.stream.isOpen = false)
    (mode : Openmode) (valid : mode.valid = true) (input : mode.input = true)
    (kept : mode.truncates = false) (present : (d path).isSome = true) :
    ∃ g e, f.openPath d path mode .granted = ((g, e), .returned (.ok ())) ∧ e = d ∧
      ∀ includeNewLine, (g.readLines e includeNewLine).1.openmode = .none ∧
        (g.readLines e includeNewLine).2 =
          .ok ((splitLines ((d path).getD [])).map fun line =>
            if includeNewLine then line ++ [Stream.newline] else line) := by
  have same :
      Function.update d path (some (if mode.truncates then [] else (d path).getD [])) = d := by
    rw [kept, if_neg Bool.false_ne_true]
    refine Function.update_eq_self_iff.mpr ?_
    obtain ⟨content, there⟩ := Option.isSome_iff_exists.mp present
    rw [there]
    rfl
  have opened := openPath_granted closed d path mode valid fun _ => present
  refine ⟨_, _, opened, same, fun includeNewLine => ?_⟩
  obtain ⟨reads, fail⟩ := reads_opened openmode closed input opened
  have after := (reads_reading reads (.lines includeNewLine)).openmode
  have read := (independent_lines reads includeNewLine).mpr (.inl fail)
  rw [same] at after read ⊢
  exact ⟨after, Reading.Result.lines.inj read⟩

end

/-- The lines are written to a file opened in a mode that truncates it, and read back from it. -/
def roundTrip (d : Disk (List UInt8)) (path : List UInt8) (writing reading : Openmode)
    (lines : List (List UInt8)) : Except String (List (List UInt8)) :=
  let opened := initial.openPath d path writing .granted
  let written := opened.1.1.writeLines opened.1.2 lines true
  let again := written.1.1.close.openPath written.1.2 path reading .granted
  (again.1.1.readLines again.1.2 false).2

theorem roundTrip_eq {path : List UInt8} {writing reading : Openmode}
    (writes : writing.valid = true ∧ writing.truncates = true)
    (reads : reading.valid = true ∧ reading.input = true ∧ reading.truncates = false)
    (d : Disk (List UInt8)) (lines : List (List UInt8)) :
    roundTrip d path writing reading lines =
      .ok (splitLines (concatenated lines true ++ [Stream.newline])) := by
  obtain ⟨f, e, opened, openmode, atEnd, empty⟩ :=
    atEnd_truncated closed_initial d path writing writes.1 writes.2
  obtain ⟨g, e', written, openmode', present, content⟩ :=
    writeLines_atEnd openmode atEnd lines true
  obtain ⟨h, _, again, rfl, read⟩ :=
    readLines_opened ((close_closed g).2.trans openmode') (close_closed g).1 reading
      reads.1 reads.2.1 reads.2.2 present
  unfold roundTrip
  simp only [opened, written, again]
  rw [(read false).2, content, empty]
  exact congrArg Except.ok (List.map_id _)

theorem concatenated_flatten (lines : List (List UInt8)) :
    concatenated lines false = lines.flatten := by
  have behind : ∀ (lines : List (List UInt8)) (text : List UInt8),
      lines.foldl (· ++ ·) text = text ++ lines.flatten := by
    intro lines
    induction lines with
    | nil =>
        intro text
        exact (List.append_nil text).symm
    | cons line lines ih =>
        intro text
        rw [List.foldl_cons, ih, List.flatten_cons, List.append_assoc]
  exact behind lines []

/-- An empty line in front of all others leaves no trace. -/
theorem concatenated_blank (lines : List (List UInt8)) :
    concatenated ([] :: lines) true = concatenated lines true := rfl

theorem concatenated_line {line : List UInt8} (some_ : line ≠ []) (lines : List (List UInt8)) :
    concatenated (line :: lines) true ++ [Stream.newline] =
      (line :: lines).flatMap (· ++ [Stream.newline]) := by
  have behind : ∀ (lines : List (List UInt8)) (text : List UInt8), text ≠ [] →
      lines.foldl (fun a b => a ++ (if a = [] then [] else [Stream.newline]) ++ b) text ++
          [Stream.newline] =
        text ++ [Stream.newline] ++ lines.flatMap (· ++ [Stream.newline]) := by
    intro lines
    induction lines with
    | nil =>
        intro text _
        exact (List.append_nil _).symm
    | cons b lines ih =>
        intro text some_
        rw [List.foldl_cons, if_neg some_, ih _ (by simp), List.flatMap_cons]
        simp only [List.append_assoc]
  exact behind lines line some_

/-- What is read back of the lines. -/
theorem splitLines_concatenated {lines : List (List UInt8)}
    (plain : ∀ line ∈ lines, Stream.newline ∉ line) :
    splitLines (concatenated lines true ++ [Stream.newline]) =
      if lines.dropWhile List.isEmpty = [] then [[]] else lines.dropWhile List.isEmpty := by
  induction lines with
  | nil => rfl
  | cons line lines ih =>
      by_cases blank : line = []
      · subst line
        rw [concatenated_blank]
        exact ih (List.forall_mem_cons.mp plain).2
      · have kept : (line :: lines).dropWhile List.isEmpty = line :: lines :=
          List.dropWhile_cons_of_neg (by simp [blank])
        have whole := splitLines_flatMap plain []
        rw [List.append_nil] at whole
        rw [kept, if_neg (List.cons_ne_nil line lines), concatenated_line blank, whole]
        exact List.append_nil _

/-- The lines come back exactly if there are some and the first is not empty or the only one. -/
theorem roundTrip_iff {path : List UInt8} {writing reading : Openmode}
    (writes : writing.valid = true ∧ writing.truncates = true)
    (reads : reading.valid = true ∧ reading.input = true ∧ reading.truncates = false)
    (d : Disk (List UInt8)) {lines : List (List UInt8)}
    (plain : ∀ line ∈ lines, Stream.newline ∉ line) :
    roundTrip d path writing reading lines = .ok lines ↔
      ∃ line rest, lines = line :: rest ∧ (line ≠ [] ∨ rest = []) := by
  rw [roundTrip_eq writes reads, splitLines_concatenated plain, Except.ok.injEq]
  cases lines with
  | nil =>
      refine iff_of_false (fun same => by cases same) ?_
      rintro ⟨line, rest, same, _⟩
      cases same
  | cons line rest =>
      by_cases blank : line = []
      · subst line
        have shorter := List.length_dropWhile_le List.isEmpty rest
        have only : (∃ line rest', ([] : List UInt8) :: rest = line :: rest' ∧
            (line ≠ [] ∨ rest' = [])) ↔ rest = [] := by
          constructor
          · rintro ⟨line, rest', same, alone⟩
            cases same
            exact alone.resolve_left (absurd rfl)
          · rintro rfl
            exact ⟨[], [], rfl, .inr rfl⟩
        change (if rest.dropWhile List.isEmpty = [] then _ else rest.dropWhile List.isEmpty) = _ ↔ _
        rw [only]
        split
        next =>
          rw [List.cons.injEq]
          exact ⟨fun same => same.2.symm, fun none_ => ⟨rfl, none_.symm⟩⟩
        next some_ =>
          refine iff_of_false (fun same => ?_) fun none_ => some_ (by rw [none_]; rfl)
          rw [same, List.length_cons] at shorter
          omega
      · have kept : (line :: rest).dropWhile List.isEmpty = line :: rest :=
          List.dropWhile_cons_of_neg (by simp [blank])
        rw [kept, if_neg (List.cons_ne_nil line rest)]
        exact iff_of_true rfl ⟨line, rest, rfl, .inl blank⟩

theorem roundTrip_two_lines :
    roundTrip (fun _ => none) [97] { Openmode.out with trunc := true } .in_ [[1], [], [2]] =
      .ok [[1], [], [2]] :=
  (roundTrip_iff ⟨rfl, rfl⟩ ⟨rfl, rfl, rfl⟩ _ (by decide)).mpr ⟨[1], _, rfl, .inl (by decide)⟩

/-- An empty line in front of another is lost. -/
theorem roundTrip_loses_blank :
    ¬ ∀ (d : Disk (List UInt8)) (path : List UInt8) (writing reading : Openmode)
      (lines : List (List UInt8)), writing.valid = true ∧ writing.truncates = true →
        reading.valid = true ∧ reading.input = true ∧ reading.truncates = false →
        (∀ line ∈ lines, Stream.newline ∉ line) →
        roundTrip d path writing reading lines = .ok lines := by
  intro every
  have same := every (fun _ => none) [97] { Openmode.out with trunc := true } .in_ [[], [1]]
    ⟨rfl, rfl⟩ ⟨rfl, rfl, rfl⟩ (by decide)
  revert same
  decide

end File
end CppToolkit.Utilities.Files
