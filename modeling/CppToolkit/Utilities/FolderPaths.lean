import CppToolkit.Utilities.FolderArchive

/-! Where an extraction opens its files. -/
namespace CppToolkit.Utilities.Folder
open Memory Combiner LexicalPath

/-- Every path that is opened for writing lies under the target, as the system reads both. -/
def StaysInside (targetPath : List UInt8) (e : Extraction) : Prop :=
  ∀ file ∈ e.files, Inside (systemPath file.path) (systemPath targetPath)

theorem Extracts.staysInside_iff {fs : FileSystem} {targetPath : List UInt8} {n : Nat}
    {read : List Entry × Checked Nat} {e : Extraction} (extracts : Extracts fs targetPath n read e) :
    StaysInside targetPath e ↔
      ∀ entry ∈ Folder.reached fs targetPath n read.1, Confined targetPath (Converter.toString entry.1) := by
  rw [← extracts.reached, List.forall_mem_map]
  refine forall₂_congr fun file member => ?_
  rw [extracts.paths file member]
  exact inside_systemPath_append_iff

/-- The extraction stays under the target path if and only if the name of every record that
it comes to is confined. -/
theorem decompression_staysInside_iff (fs : FileSystem) (createFolder : Option String)
    (targetPath sourcePath : List UInt8) :
    StaysInside targetPath (decompression fs createFolder targetPath sourcePath) ↔
      (fs.readable sourcePath = .opened → createFolder = none →
        ∀ entry ∈ reached fs targetPath 0 (entries (fs.bytes sourcePath) 0).1,
          Confined targetPath (Converter.toString entry.1)) := by
  have nothing : ∀ {e : Extraction}, e.files = [] → StaysInside targetPath e := by
    intro e none_ file member
    rw [none_] at member
    cases member
  unfold decompression
  split
  next what thrown => exact iff_of_true (nothing rfl) fun opened => (by cases thrown.symm.trans opened)
  next message failed =>
    exact iff_of_true (nothing rfl) fun opened => (by cases failed.symm.trans opened)
  next opened =>
    rw [forall_prop_of_true opened]
    split
    next what => exact iff_of_true (nothing rfl) fun none_ => (by cases none_)
    next =>
      rw [forall_prop_of_true rfl]
      exact (decompressionLoop_extracts _ 0).staysInside_iff

/-- An archive with the name `../x`, extracted to `t`. -/
theorem decompression_leaves_target :
    ¬ ∀ (fs : FileSystem) (createFolder : Option String) (targetPath sourcePath : List UInt8),
      StaysInside targetPath (decompression fs createFolder targetPath sourcePath) := by
  intro stays
  let name : List UInt8 := [46, 46, 47, 120]
  let fs := FileSystem.open_ fun _ => ⟨image [(name, [])], by decide +kernel⟩
  have extracts := @decompressionLoop_extracts fs [116] 0 (fs.bytes []) 0
  rw [@entries_of_image (fs.bytes []) _ rfl] at extracts
  have confined := extracts.staysInside_iff.mp (stays fs none [116] []) (name, []) List.mem_cons_self
  have climbs : ¬ Confined [116] (Converter.toString name) := by decide +kernel
  exact climbs confined

end CppToolkit.Utilities.Folder
