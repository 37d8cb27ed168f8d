import CppToolkit.Utilities.LineFiles

/-! What the calls of a `File` leave alone: only the file that is open changes. -/
namespace CppToolkit.Fstream.Stream
variable {π : Type} [DecidableEq π]

theorem write_elsewhere {s : Stream π} {other : π}
    (elsewhere : ∀ path, s.target = some path → path ≠ other) (d : Disk π) (bytes : List UInt8) : (s.write d bytes).2 other = d other := by
  unfold write
  split
  next => rfl
  next written =>
    cases target : s.target with
    | none => rfl
    | some path =>
        dsimp only
        split
        next =>
          unfold Disk.write
          split
          next => rfl
          next => exact Function.update_of_ne (Ne.symm (elsewhere path target)) _ _
        next => rfl

end CppToolkit.Fstream.Stream

namespace CppToolkit.Utilities.Files.File
open Fstream

section
variable {f : File} {d : Disk (List UInt8)} {path other : List UInt8} {mode : Openmode}

/-- An open of a closed file touches no other, and leaves no other open. -/
theorem openPath_elsewhere (closed : f.stream.isOpen = false) (d : Disk (List UInt8))
    (mode : Openmode) (access : Access) (apart : path ≠ other) :
    (f.openPath d path mode access).1.2 other = d other ∧
      ∀ target, (f.openPath d path mode access).1.1.stream.target = some target → target ≠ other := by
  have none_ : f.stream.target = none := Option.not_isSome_iff_eq_none.mp (ne_true_of_eq_false closed)
  have came := openPath_opened f d path mode access
  generalize f.openPath d path mode access = opened at came
  cases came with
  | thrown what =>
      refine ⟨rfl, fun target at_ => ?_⟩
      change f.stream.target = some target at at_
      rw [none_] at at_
      cases at_
  | again isOpen => exact absurd isOpen (ne_true_of_eq_false closed)
  | refused _ message =>
      refine ⟨rfl, fun target at_ => ?_⟩
      change f.stream.target = some target at at_
      rw [none_] at at_
      cases at_
  | opened _ content position _ =>
      refine ⟨Function.update_of_ne (Ne.symm apart) _ _, fun target at_ => ?_⟩
      cases at_
      exact apart

theorem writeLines_elsewhere (elsewhere : ∀ target, f.stream.target = some target → target ≠ other)
    (d : Disk (List UInt8)) (lines : List (List UInt8)) (appendNewline : Bool) :
    (f.writeLines d lines appendNewline).1.2 other = d other := by
  have kept : (f.stream.write d (concatenated lines appendNewline)).1.target = f.stream.target :=
    Stream.write_target _ _ _
  unfold writeLines
  split
  next => rfl
  next =>
  split
  next => rfl
  next =>
    rw [Stream.write_elsewhere (by rw [kept]; exact elsewhere), Stream.write_elsewhere elsewhere]

theorem writeBytes_elsewhere (elsewhere : ∀ target, f.stream.target = some target → target ≠ other)
    (d : Disk (List UInt8)) (bytes : List UInt8) : (f.writeBytes d bytes).1.2 other = d other := by
  unfold writeBytes
  split
  next => rfl
  next =>
  split
  next => rfl
  next => exact Stream.write_elsewhere elsewhere d _

/-- `write_bytes` through a stream that writes behind what the file holds. -/
theorem writeBytes_atEnd (openmode : f.openmode = .none) (atEnd : f.stream.AtEnd d path)
    {bytes : List UInt8} (small : bytes.length < 2 ^ 32) :
    ∃ g e, f.writeBytes d bytes = ((g, e), .ok ()) ∧
      (e path).getD [] = (d path).getD [] ++ bytes := by
  have isOpen : f.stream.isOpen = true := by simp [Stream.isOpen, atEnd.target]
  obtain ⟨_, written⟩ := atEnd.write (Utilities.File.writeBytes bytes)
  rw [writeBytes_open openmode isOpen]
  refine ⟨_, _, rfl, ?_⟩
  rw [written, Utilities.File.writeBytes_eq_iff.mpr small]

/-- `read_bytes` from a file that is there and is opened for it. -/
theorem readBytes_opened (openmode : f.openmode = .none) (closed : f.stream.isOpen = false)
    (mode : Openmode) (valid : mode.valid = true) (input : mode.input = true)
    (kept : mode.truncates = false) {content : List UInt8} (there : d path = some content) :
    ∃ g, f.openPath d path mode .granted = ((g, d), .returned (.ok ())) ∧
      g.openmode = .none ∧ (g.readBytes d).2 = .ok content ∧
      (g.readBytes d).1.openmode = .none := by
  have same :
      Function.update d path (some (if mode.truncates then [] else (d path).getD [])) = d := by
    rw [kept, if_neg Bool.false_ne_true, there]
    exact Function.update_eq_self_iff.mpr there.symm
  have opened := openPath_granted closed d path mode valid fun _ => Option.isSome_of_eq_some there
  rw [same] at opened
  obtain ⟨reads, fail⟩ := reads_opened openmode closed input opened
  have read := Except.ok.inj (Reading.Result.bytes.inj ((independent_bytes reads).mpr (.inl fail)))
  have whole : (d path).getD [] = content := by
    rw [there]
    rfl
  refine ⟨_, opened, openmode, read.trans (congrArg Except.ok whole), ?_⟩
  exact (reads_reading reads .bytes).openmode

end
end CppToolkit.Utilities.Files.File
