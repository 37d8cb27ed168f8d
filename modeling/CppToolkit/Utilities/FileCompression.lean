import CppToolkit.Utilities.CompressorRoundTrip
import CppToolkit.Utilities.FileFrames

/-! Files that are compressed and decompressed in place. -/
namespace CppToolkit.Utilities.Files.File
open Fstream Memory

/-- The modes in which a file is read and written again. -/
def inputMode : Openmode := { Openmode.in_ with binary := true }

def outputMode : Openmode := { Openmode.out with binary := true, trunc := true }

/-- A file is read, goes through a function of `Compressor`, and is written again. -/
def recode (coder : List UInt8 → Checked (Except String (List UInt8))) (d : Disk (List UInt8))
    (path : List UInt8) (toRead toWrite : Access) : Disk (List UInt8) × Outcome :=
  match initial.openPath d path inputMode toRead with
  | ((source, d), .returned (.ok ())) =>
      match source.readBytes d with
      | (_, .error message) => (d, .returned (.error message))
      | (source, .ok readData) =>
          match coder readData with
          | .error fault => (d, .fault fault)
          | .ok (.error message) => (d, .returned (.error ("cannot compress file : " ++ message)))
          | .ok (.ok bytes) =>
              match source.close.openPath d path outputMode toWrite with
              | ((source, d), .returned (.ok ())) =>
                  let written := source.writeBytes d bytes
                  (written.1.2, .returned written.2)
              | ((_, d), outcome) => (d, outcome)
  | ((_, d), outcome) => (d, outcome)

def compression (lz4 : Lz4) (d : Disk (List UInt8)) (path : List UInt8) (blockBytes : UInt16)
    (toRead toWrite : Access) : Disk (List UInt8) × Outcome :=
  recode (fun data => .ok (Compressor.compression lz4 data blockBytes)) d path toRead toWrite

def decompression (lz4 : Lz4) (d : Disk (List UInt8)) (path : List UInt8) (blockBytes : UInt16)
    (toRead toWrite : Access) : Disk (List UInt8) × Outcome :=
  recode (fun data => Compressor.decompression lz4 data blockBytes) d path toRead toWrite

/-- What becomes of the file when nothing fails before it is written. -/
inductive Recoded (coder : List UInt8 → Checked (Except String (List UInt8)))
    (d : Disk (List UInt8)) (path : List UInt8) : Disk (List UInt8) × Outcome → Prop
  | failed (outcome : Outcome) (unsuccessful : outcome ≠ .returned (.ok ())) :
      Recoded coder d path (d, outcome)
  | written (content bytes : List UInt8) (there : d path = some content)
      (coded : coder content = .ok (.ok bytes)) :
      Recoded coder d path
        (Function.update d path (some (Utilities.File.writeBytes bytes)), .returned (.ok ()))

section
variable {coder : List UInt8 → Checked (Except String (List UInt8))} {f : File}
  {d : Disk (List UInt8)} {path content bytes : List UInt8}

/-- A closed file is opened and truncated, and takes the bytes. -/
theorem rewritten (openmode : f.openmode = .none) (closed : f.stream.isOpen = false)
    (d : Disk (List UInt8)) (path bytes : List UInt8) :
    ∃ g e, f.openPath d path outputMode .granted = ((g, e), .returned (.ok ())) ∧
      (g.writeBytes e bytes).1.2 = Function.update d path (some (Utilities.File.writeBytes bytes)) ∧
      (g.writeBytes e bytes).2 = .ok () := by
  obtain ⟨g, e, opened, openmode', atEnd, empty⟩ := atEnd_truncated closed d path outputMode rfl rfl
  have isOpen : g.stream.isOpen = true := by simp [Stream.isOpen, atEnd.target]
  obtain ⟨after, content⟩ := atEnd.write (Utilities.File.writeBytes bytes)
  refine ⟨g, e, opened, ?_, ?_⟩
  · funext other
    by_cases here : other = path
    · rw [here, Function.update_self, writeBytes_open (openmode'.trans openmode) isOpen]
      obtain ⟨whole, there⟩ := Option.isSome_iff_exists.mp after.present
      rw [there] at content ⊢
      rw [empty, List.nil_append] at content
      exact congrArg some content
    · rw [Function.update_of_ne here]
      have elsewhere := openPath_elsewhere closed d outputMode .granted (Ne.symm here)
      rw [opened] at elsewhere
      exact (writeBytes_elsewhere elsewhere.2 e bytes).trans elsewhere.1
  · rw [writeBytes_open (openmode'.trans openmode) isOpen]

/-- An open that does not succeed leaves the disk alone. -/
theorem openPath_failed (closed : f.stream.isOpen = false) (mode : Openmode) (access : Access)
    (failed : (f.openPath d path mode access).2 ≠ .returned (.ok ())) :
    (f.openPath d path mode access).1.2 = d := by
  have came := openPath_opened f d path mode access
  generalize f.openPath d path mode access = opened at came failed
  cases came with
  | thrown what => rfl
  | again isOpen => exact absurd isOpen (ne_true_of_eq_false closed)
  | refused _ message => rfl
  | opened => exact absurd rfl failed

theorem openPath_refused (closed : f.stream.isOpen = false) (mode : Openmode) {access : Access}
    (refused : access ≠ .granted) : (f.openPath d path mode access).2 ≠ .returned (.ok ()) := by
  cases access with
  | granted => exact absurd rfl refused
  | thrown what => exact fun same => (by cases same)
  | denied =>
      have shut : f.stream.openFile d path mode false = ({ f.stream with fail := true }, d) := by
        rw [Stream.openFile, if_neg (by simp [closed]), if_neg (by simp)]
      have still : ¬ ({ f.stream with fail := true } : Stream (List UInt8)).isOpen = true :=
        ne_true_of_eq_false closed
      unfold openPath openStream
      dsimp only
      rw [shut, if_neg still]
      split
      next => exact fun same => (by cases same)
      next => exact fun same => (by cases same)

/-- A file that cannot be read stays as it is. -/
theorem recode_unread {toRead toWrite : Access}
    (failed : (initial.openPath d path inputMode toRead).2 ≠ .returned (.ok ())) :
    Recoded coder d path (recode coder d path toRead toWrite) := by
  have kept := openPath_failed closed_initial inputMode toRead failed
  unfold recode
  generalize initial.openPath d path inputMode toRead = opened at failed kept
  obtain ⟨⟨source, e⟩, outcome⟩ := opened
  change e = d at kept
  subst kept
  split
  next same =>
    rw [same] at failed
    exact absurd rfl failed
  next same =>
    cases same
    exact .failed _ failed

/-- A file that is read goes through the coder, and is opened again to be written. -/
theorem recode_read (there : d path = some content) (toWrite : Access) :
    ∃ source : File, source.stream.isOpen = false ∧ source.openmode = .none ∧
      recode coder d path .granted toWrite =
        match coder content with
        | .error fault => (d, .fault fault)
        | .ok (.error message) => (d, .returned (.error ("cannot compress file : " ++ message)))
        | .ok (.ok bytes) =>
            match source.openPath d path outputMode toWrite with
            | ((source, d), .returned (.ok ())) =>
                ((source.writeBytes d bytes).1.2, .returned (source.writeBytes d bytes).2)
            | ((_, d), outcome) => (d, outcome) := by
  obtain ⟨source, opened, -, read, openmode⟩ :=
    @readBytes_opened initial d path rfl closed_initial inputMode rfl rfl rfl content there
  refine ⟨(source.readBytes d).1.close, (close_closed _).1, (close_closed _).2.trans openmode, ?_⟩
  rw [recode, opened]
  dsimp only
  generalize source.readBytes d = taken at read
  obtain ⟨source, got⟩ := taken
  change got = .ok content at read
  rw [read]

/-- A file that may be read and written is rewritten with what the coder makes of it. -/
theorem recode_granted (there : d path = some content) (coded : coder content = .ok (.ok bytes)) :
    recode coder d path .granted .granted =
      (Function.update d path (some (Utilities.File.writeBytes bytes)), .returned (.ok ())) := by
  obtain ⟨source, closed, openmode, same⟩ := @recode_read coder d path content there .granted
  obtain ⟨g, e, opened, disk, success⟩ := rewritten openmode closed d path bytes
  rw [same, coded]
  dsimp only
  rw [opened]
  dsimp only
  rw [disk, success]

/-- What a rewriting of a file comes to: nothing, or all of it. -/
theorem recode_recoded (coder : List UInt8 → Checked (Except String (List UInt8)))
    (d : Disk (List UInt8)) (path : List UInt8) (toRead toWrite : Access) :
    Recoded coder d path (recode coder d path toRead toWrite) := by
  by_cases readable : toRead = .granted
  swap
  · exact recode_unread (openPath_refused closed_initial inputMode readable)
  subst readable
  cases there : d path with
  | none =>
      refine recode_unread ?_
      rw [openPath_absent closed_initial inputMode rfl there]
      exact fun same => (by cases same)
  | some content =>
      obtain ⟨source, closed, -, same⟩ := @recode_read coder d path content there toWrite
      cases coded : coder content with
      | error fault =>
          rw [same, coded]
          exact .failed _ fun same => (by cases same)
      | ok reply =>
          cases reply with
          | error message =>
              rw [same, coded]
              exact .failed _ fun same => (by cases same)
          | ok bytes =>
              by_cases writable : toWrite = .granted
              · rw [writable, recode_granted there coded]
                exact .written content bytes there coded
              · have refused := @openPath_refused _ d path closed outputMode _ writable
                have kept := openPath_failed closed outputMode toWrite refused
                rw [same, coded]
                dsimp only
                generalize source.openPath d path outputMode toWrite = opened at refused kept
                obtain ⟨⟨g, e⟩, outcome⟩ := opened
                change e = d at kept
                subst kept
                split
                next same =>
                  rw [same] at refused
                  exact absurd rfl refused
                next same =>
                  cases same
                  exact .failed _ refused

end

/-- Whatever the codec and the system do, a compression or decompression in place touches no
other file, one that does not report success has not touched its own, and after one that does the
file holds what the compressor made of its content. -/
theorem in_place_all_or_nothing (lz4 : Lz4) (d : Disk (List UInt8)) (path : List UInt8)
    (blockBytes : UInt16) (toRead toWrite : Access) :
    let compressed := compression lz4 d path blockBytes toRead toWrite
    let decompressed := decompression lz4 d path blockBytes toRead toWrite
    (∀ other, other ≠ path → compressed.1 other = d other ∧ decompressed.1 other = d other) ∧
      (compressed.2 ≠ .returned (.ok ()) → compressed.1 = d) ∧
      (decompressed.2 ≠ .returned (.ok ()) → decompressed.1 = d) ∧
      (compressed.2 = .returned (.ok ()) → ∃ content image, d path = some content ∧
        Compressor.compression lz4 content blockBytes = .ok image ∧
        compressed.1 path = some (Utilities.File.writeBytes image)) ∧
      (decompressed.2 = .returned (.ok ()) → ∃ content data, d path = some content ∧
        Compressor.decompression lz4 content blockBytes = .ok (.ok data) ∧
        decompressed.1 path = some (Utilities.File.writeBytes data)) := by
  have safe : ∀ {coder : List UInt8 → Checked (Except String (List UInt8))}
      {after : Disk (List UInt8) × Outcome}, Recoded coder d path after →
      (∀ other, other ≠ path → after.1 other = d other) ∧
        (after.2 ≠ .returned (.ok ()) → after.1 = d) ∧
        (after.2 = .returned (.ok ()) → ∃ content bytes, d path = some content ∧
          coder content = .ok (.ok bytes) ∧
          after.1 path = some (Utilities.File.writeBytes bytes)) := by
    intro coder after recoded
    cases recoded with
    | failed outcome unsuccessful =>
        exact ⟨fun _ _ => rfl, fun _ => rfl, fun success => absurd success unsuccessful⟩
    | written content bytes there coded =>
        exact ⟨fun other apart => Function.update_of_ne apart _ _, fun failed => absurd rfl failed,
          fun _ => ⟨content, bytes, there, coded, Function.update_self ..⟩⟩
  obtain ⟨elsewhere, nothing, all⟩ := safe (recode_recoded
    (fun data => .ok (Compressor.compression lz4 data blockBytes)) d path toRead toWrite)
  obtain ⟨elsewhere', nothing', all'⟩ := safe (recode_recoded
    (fun data => Compressor.decompression lz4 data blockBytes) d path toRead toWrite)
  refine ⟨fun other apart => ⟨elsewhere other apart, elsewhere' other apart⟩, nothing, nothing', ?_,
    all'⟩
  intro success
  obtain ⟨content, image, there, coded, after⟩ := all success
  exact ⟨content, image, there, Except.ok.inj coded, after⟩

/-- A file that is compressed in place and decompressed in place is the file again, and the disk
the disk. -/
theorem in_place_round_trip {lz4 : Lz4} {paired : lz4.Stream → lz4.StreamDecode → Prop}
    (faithful : lz4.Faithful paired) {blockBytes : UInt16} (positive : 0 < blockBytes.toNat)
    {d : Disk (List UInt8)} {path content : List UInt8} (there : d path = some content)
    (nonempty : content ≠ []) (short : content.length < 2 ^ 32) :
    ∃ image, Compressor.compression lz4 content blockBytes = .ok image ∧
      let after := Function.update d path (some (Utilities.File.writeBytes image))
      compression lz4 d path blockBytes .granted .granted = (after, .returned (.ok ())) ∧
      (image.length < 2 ^ 31 →
        decompression lz4 after path blockBytes .granted .granted = (d, .returned (.ok ()))) := by
  obtain ⟨image, compressed, -, back⟩ :=
    Compressor.compression_round_trip faithful positive nonempty
  refine ⟨image, compressed, recode_granted there (congrArg Except.ok compressed), fun small => ?_⟩
  have whole : Utilities.File.writeBytes image = image :=
    Utilities.File.writeBytes_eq_iff.mpr (Nat.lt_trans small (by decide))
  rw [whole]
  refine (recode_granted (Function.update_self ..) (back small)).trans ?_
  rw [Function.update_idem, Utilities.File.writeBytes_eq_iff.mpr short,
    Function.update_eq_self_iff.mpr there.symm]

/-- A file of one byte, with a codec that only copies. -/
theorem in_place_round_trip_byte :
    let d : Disk (List UInt8) := fun _ => some [7]
    ∃ after, compression .literals d [112] 4 .granted .granted = (after, .returned (.ok ())) ∧
      decompression .literals after [112] 4 .granted .granted = (d, .returned (.ok ())) := by
  intro d
  obtain ⟨image, coded, compressed, back⟩ := @in_place_round_trip .literals _ Lz4.literals_faithful 4
    (by decide) d [112] [7] rfl (by decide) (by decide)
  have bounded := Compressor.compression_length Lz4.literals_faithful (by decide) coded
  exact ⟨_, compressed, back (Nat.lt_of_le_of_lt bounded (by decide))⟩

end CppToolkit.Utilities.Files.File
