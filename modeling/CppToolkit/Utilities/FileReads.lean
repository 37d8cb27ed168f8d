import CppToolkit.Utilities.FileCalls

/-! Sequences of reads from one `File` that is open for reading. -/
namespace CppToolkit.Utilities.Files
open Fstream Machine

inductive Reading where
  | bytes
  | bytesAt (index size : UInt64)
  | lines (includeNewLine : Bool)
  deriving DecidableEq, Repr

namespace Reading

inductive Result where
  | bytes (read : Except String (Except String (List UInt8)))
  | lines (read : Except String (List (List UInt8)))

/-- What a read comes to that depends on nothing but the file. -/
def expected (content : List UInt8) : Reading → Result
  | .bytes => .bytes (.ok (.ok content))
  | .bytesAt index size => .bytes (.ok (.ok ((content.drop index.toNat).take size.toNat)))
  | .lines includeNewLine =>
      .lines (.ok ((splitLines content).map fun line =>
        if includeNewLine then line ++ [Stream.newline] else line))

end Reading

namespace File

def reading (d : Disk (List UInt8)) (f : File) : Reading → File × Reading.Result
  | .bytes =>
      let read := f.readBytes d
      (read.1, .bytes (.ok read.2))
  | .bytesAt index size =>
      let read := f.readBytesAt d index size
      (read.1, .bytes read.2)
  | .lines includeNewLine =>
      let read := f.readLines d includeNewLine
      (read.1, .lines read.2)

def readStep (d : Disk (List UInt8)) (f : File) (r : Reading) : Option File :=
  some (f.reading d r).1

def Independent (d : Disk (List UInt8)) (content : List UInt8) (f : File) (r : Reading) : Prop :=
  (f.reading d r).2 = r.expected content

/-- The stream has not failed, or the read does not notice it; and the numbers of a read of a
part can be those of a seek and of a vector. -/
def Fresh (d : Disk (List UInt8)) (f : File) : Reading → Prop
  | .bytes => f.stream.fail = false ∨ f.stream.position = 0 ∨ f.stream.content d = []
  | .bytesAt index size => f.stream.fail = false ∧ index.toNat < 2 ^ 63 ∧ size.toNat < 2 ^ 63
  | .lines _ => f.stream.fail = false ∨ f.stream.content d = []

/-- What holds between the reads of a file with this content. -/
structure Reads (d : Disk (List UInt8)) (content : List UInt8) (f : File) : Prop where
  openmode : f.openmode = .none
  isOpen : f.stream.isOpen = true
  input : f.stream.mode.input = true
  bad : f.stream.bad = false
  ended : f.stream.eof = true → f.stream.fail = true
  content : f.stream.content d = content

section
variable {d : Disk (List UInt8)} {content : List UInt8} {f : File}

theorem Reads.unread (reads : Reads d content f) :
    f.stream.unread d = content.drop f.stream.position := by
  rw [Stream.unread, if_pos reads.input, reads.content]

theorem Reads.mayRead (reads : Reads d content f) : ¬ f.openmode.output = true := by
  rw [reads.openmode]
  exact Bool.false_ne_true

theorem Reads.notClosed (reads : Reads d content f) : ¬ f.stream.isOpen = false :=
  ne_false_of_eq_true reads.isOpen

theorem Reads.works (reads : Reads d content f) (fail : f.stream.fail = false) :
    ¬ f.stream.failed = true := by simp [Stream.failed, fail, reads.bad]

theorem Reads.seekg_failed (reads : Reads d content f) (fail : f.stream.fail = true)
    (offset : Nat) :
    Reads d content { f with stream := f.stream.seekg offset } ∧
      (f.stream.seekg offset).fail = true ∧
      (f.stream.seekg offset).position = f.stream.position := by
  have failed : f.stream.failed = true := by simp [Stream.failed, fail]
  rw [Stream.seekg_failed failed]
  exact ⟨⟨reads.openmode, reads.isOpen, reads.input, reads.bad, fun _ => fail, reads.content⟩,
    fail, rfl⟩

theorem Reads.seekg_far (reads : Reads d content f) {offset : Nat} (far : 2 ^ 63 ≤ offset) :
    Reads d content { f with stream := f.stream.seekg offset } ∧
      (f.stream.seekg offset).fail = true := by
  cases fail : f.stream.fail with
  | true => exact ⟨(reads.seekg_failed fail offset).1, (reads.seekg_failed fail offset).2.1⟩
  | false =>
      rw [Stream.seekg_far (reads.works fail) far]
      exact ⟨⟨reads.openmode, reads.isOpen, reads.input, reads.bad, fun _ => rfl,
        reads.content⟩, rfl⟩

theorem Reads.seekg_works (reads : Reads d content f) (fail : f.stream.fail = false)
    {offset : Nat} (small : offset < 2 ^ 63) :
    Reads d content { f with stream := f.stream.seekg offset } ∧
      (f.stream.seekg offset).good = true ∧ (f.stream.seekg offset).position = offset := by
  rw [Stream.seekg_works (reads.works fail) reads.isOpen small]
  refine ⟨⟨reads.openmode, reads.isOpen, reads.input, reads.bad, fun eof => ?_,
    reads.content⟩, ?_, rfl⟩
  · cases eof
  · simp [Stream.good, fail, reads.bad]

theorem Reads.extract (reads : Reads d content f) :
    Reads d content { f with stream := (f.stream.extract d).1 } :=
  ⟨reads.openmode, reads.isOpen, reads.input, reads.bad, reads.ended, reads.content⟩

theorem Reads.read (reads : Reads d content f) (count : Nat) :
    Reads d content { f with stream := (f.stream.read d count).1 } := by
  unfold Stream.read
  split
  next =>
    exact ⟨reads.openmode, reads.isOpen, reads.input, reads.bad, fun short => short,
      reads.content⟩
  next =>
    exact ⟨reads.openmode, reads.isOpen, reads.input, reads.bad, fun _ => rfl, reads.content⟩

theorem Reads.getlines (reads : Reads d content f) {fuel : Nat} (enough : content.length < fuel) :
    Reads d content { f with stream := (Stream.getlines d fuel f.stream).1 } := by
  cases good : f.stream.good with
  | true =>
      have left : (f.stream.unread d).length < fuel := by
        rw [reads.unread, List.length_drop]
        omega
      rw [Stream.getlines_good good left]
      exact ⟨reads.openmode, reads.isOpen, reads.input, reads.bad, fun _ => rfl, reads.content⟩
  | false =>
      obtain ⟨fuel, rfl⟩ := Nat.exists_eq_succ_of_ne_zero (Nat.ne_zero_of_lt enough)
      rw [Stream.getlines_not_good good]
      exact ⟨reads.openmode, reads.isOpen, reads.input, reads.bad, fun _ => rfl, reads.content⟩

/-- A seek, whatever becomes of it. -/
theorem Reads.seekg (reads : Reads d content f) (offset : Nat) :
    Reads d content { f with stream := f.stream.seekg offset } := by
  by_cases far : 2 ^ 63 ≤ offset
  · exact (reads.seekg_far far).1
  cases fail : f.stream.fail with
  | true => exact (reads.seekg_failed fail offset).1
  | false => exact (reads.seekg_works fail (Nat.lt_of_not_le far)).1

theorem readBytes_eq (reads : Reads d content f) : f.readBytes d =
    ({ f with stream := ((f.stream.seekg 0).extract d).1 },
      .ok ((f.stream.seekg 0).extract d).2) := by
  rw [readBytes, if_neg reads.mayRead, if_neg reads.notClosed]

theorem readLines_eq (reads : Reads d content f) (includeNewLine : Bool) :
    f.readLines d includeNewLine =
      ({ f with stream := (Stream.getlines d (content.length + 1) (f.stream.seekg 0)).1 },
        .ok ((Stream.getlines d (content.length + 1) (f.stream.seekg 0)).2.map fun line =>
          if includeNewLine then line ++ [Stream.newline] else line)) := by
  rw [readLines, if_neg reads.mayRead, if_neg reads.notClosed]
  have same : ((f.stream.seekg 0).content d) = content := (reads.seekg 0).content
  dsimp only
  rw [same]

theorem reads_reading (reads : Reads d content f) (r : Reading) :
    Reads d content (f.reading d r).1 := by
  cases r with
  | bytes =>
      dsimp only [reading]
      rw [readBytes_eq reads]
      exact (reads.seekg 0).extract
  | bytesAt index size =>
      dsimp only [reading]
      rw [readBytesAt, if_neg reads.mayRead, if_neg reads.notClosed]
      dsimp only
      split
      next => exact reads.seekg _
      next =>
        split
        next => exact (reads.seekg _).read _
        next => exact reads.seekg _
  | lines includeNewLine =>
      dsimp only [reading]
      rw [readLines_eq reads]
      exact (reads.seekg 0).getlines (Nat.lt_succ_self _)

theorem drop_eq_self_iff {k : Nat} {bytes : List UInt8} :
    bytes.drop k = bytes ↔ k = 0 ∨ bytes = [] := by
  constructor
  · intro same
    have lengths := congrArg List.length same
    rw [List.length_drop] at lengths
    rw [← List.length_eq_zero_iff]
    omega
  · rintro (rfl | rfl)
    · exact List.drop_zero
    · exact List.drop_nil

theorem reads_opened {g : File} {disk : Disk (List UInt8)} {path : List UInt8} {mode : Openmode}
    {access : Access} (openmode : g.openmode = .none) (closed : g.stream.isOpen = false)
    (input : mode.input = true)
    (opened : g.openPath disk path mode access = ((f, d), .returned (.ok ()))) :
    Reads d ((d path).getD []) f ∧ f.stream.fail = false := by
  have came := openPath_opened g disk path mode access
  rw [opened] at came
  cases came with
  | again isOpen => exact absurd isOpen (ne_true_of_eq_false closed)
  | opened _ content position within =>
      exact ⟨⟨openmode, rfl, input, rfl, fun eof => (by cases eof), rfl⟩, rfl⟩

theorem independent_bytes (reads : Reads d content f) :
    Independent d content f .bytes ↔ Fresh d f .bytes := by
  unfold Independent Fresh reading Reading.expected
  dsimp only
  rw [readBytes_eq reads, reads.content]
  simp only [Reading.Result.bytes.injEq, Except.ok.injEq]
  rw [Stream.extract, (reads.seekg 0).unread]
  dsimp only
  cases fail : f.stream.fail with
  | true =>
      rw [(reads.seekg_failed fail 0).2.2, drop_eq_self_iff]
      exact (or_iff_right Bool.false_ne_true.symm).symm
  | false =>
      rw [(reads.seekg_works fail (by decide)).2.2]
      exact iff_of_true List.drop_zero (.inl rfl)

theorem independent_bytesAt (reads : Reads d content f) (index size : UInt64) :
    Independent d content f (.bytesAt index size) ↔ Fresh d f (.bytesAt index size) := by
  unfold Independent Fresh reading Reading.expected
  dsimp only
  rw [readBytesAt, if_neg reads.mayRead, if_neg reads.notClosed]
  dsimp only
  by_cases works : f.stream.fail = false ∧ index.toNat < 2 ^ 63
  · obtain ⟨kept, good, position⟩ := reads.seekg_works works.1 works.2
    rw [if_neg (Stream.not_failed_of_good good)]
    by_cases small : size.toNat < 2 ^ 63
    · rw [if_pos small]
      refine iff_of_true ?_ ⟨works.1, works.2, small⟩
      rw [Stream.read, if_pos good, kept.unread]
      dsimp only
      rw [position]
    · rw [if_neg small]
      refine iff_of_false (fun same => ?_) fun fresh => small fresh.2.2
      cases same
  · have fails : (f.stream.seekg index.toNat).fail = true := by
      cases fail : f.stream.fail with
      | true => exact (reads.seekg_failed fail _).2.1
      | false => exact (reads.seekg_far (Nat.le_of_not_lt fun near => works ⟨fail, near⟩)).2
    rw [if_pos (by simp [Stream.failed, fails])]
    refine iff_of_false (fun same => ?_) fun fresh => works ⟨fresh.1, fresh.2.1⟩
    cases same

theorem independent_lines (reads : Reads d content f) (includeNewLine : Bool) :
    Independent d content f (.lines includeNewLine) ↔ Fresh d f (.lines includeNewLine) := by
  unfold Independent Fresh reading Reading.expected
  dsimp only
  rw [readLines_eq reads, reads.content]
  simp only [Reading.Result.lines.injEq, Except.ok.injEq]
  cases fail : f.stream.fail with
  | true =>
      have broken := Stream.not_good_of_fail (reads.seekg_failed fail 0).2.1
      rw [Stream.getlines_not_good broken, List.map_nil, eq_comm, List.map_eq_nil_iff,
        splitLines_eq_nil_iff]
      exact (or_iff_right Bool.false_ne_true.symm).symm
  | false =>
      obtain ⟨kept, good, position⟩ := reads.seekg_works fail (show 0 < 2 ^ 63 by decide)
      have unread : (f.stream.seekg 0).unread d = content := by
        rw [kept.unread, position, List.drop_zero]
      rw [Stream.getlines_good good (by rw [unread]; exact Nat.lt_succ_self _), unread]
      exact iff_of_true rfl (.inl rfl)

end

/-- The reads of a file that has been opened for reading do not depend on each other in exactly
the sequences in which every read finds the stream without a failure it would notice. -/
theorem independent_along_iff {disk d : Disk (List UInt8)} {path : List UInt8} {mode : Openmode}
    {access : Access} {f : File} (input : mode.input = true)
    (opened : initial.openPath disk path mode access = ((f, d), .returned (.ok ())))
    (calls : List Reading) :
    Along (readStep d) (Independent d ((d path).getD [])) f calls ↔
      Along (readStep d) (Fresh d) f calls := by
  refine along_iff (I := Reads d ((d path).getD [])) (fun f r next reads stepped => ?_)
    (fun f r reads => ?_) (reads_opened rfl rfl input opened).1
  · cases stepped
    exact reads_reading reads r
  · cases r with
    | bytes => exact independent_bytes reads
    | bytesAt index size => exact independent_bytesAt reads index size
    | lines includeNewLine => exact independent_lines reads includeNewLine

theorem independent_whole_reads :
    let opened := initial.openPath (fun _ => some [1, 10, 2]) [97] .in_ .granted
    Along (readStep opened.1.2) (Independent opened.1.2 ((opened.1.2 [97]).getD [])) opened.1.1
      [.bytes, .bytesAt 1 1, .lines false] := by
  intro opened
  have worked : initial.openPath (fun _ => some [1, 10, 2]) [97] .in_ .granted =
      ((opened.1.1, opened.1.2), .returned (.ok ())) := rfl
  refine (independent_along_iff rfl worked _).mpr ⟨.inl rfl, ?_⟩
  rintro _ ⟨⟩
  refine ⟨⟨rfl, by decide, by decide⟩, ?_⟩
  rintro _ ⟨⟩
  exact ⟨.inl rfl, fun _ _ => trivial⟩

/-- A read of all bytes returns none of them after the lines have been read. -/
theorem bytes_after_lines_differ :
    ¬ ∀ (disk d : Disk (List UInt8)) (path : List UInt8) (mode : Openmode) (access : Access)
      (f : File) (calls : List Reading), mode.input = true →
        initial.openPath disk path mode access = ((f, d), .returned (.ok ())) →
        Along (readStep d) (Independent d ((d path).getD [])) f calls := by
  intro every
  have along := every (fun _ => some [7]) _ [97] .in_ .granted _ [.lines false, .bytes] rfl rfl
  have same := (along.2 _ rfl).1
  cases same

end File
end CppToolkit.Utilities.Files
