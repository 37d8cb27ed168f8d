import CppToolkit.Library.LexicalPath
import CppToolkit.Utilities.Combiner
import CppToolkit.Utilities.Converter
import CppToolkit.Utilities.File

/-! The archive of a folder: one record for each file, and the loop that writes the files
of an archive below a folder. -/
namespace CppToolkit.Utilities.Folder
open Words Memory Combiner

/-- What `compression` writes for one file. -/
def record (name content : List UInt8) : List UInt8 :=
  let sourceData := (append (append [] (Converter.toArray name)) content).reverse
  let temp := sourceData.length
  File.writeBytes (leWord sizeBytes temp) ++ File.writeBytes sourceData

/-- The loop of `compression` over the files that were found: what it has written, and how it
ends. `relative` is `lexically_relative` to the source path. -/
def compressionLoop (fs : FileSystem) (relative : List UInt8 → List UInt8) :
    List (List UInt8) → List UInt8 × Outcome
  | [] => ([], .returned (.ok ()))
  | searchFile :: rest =>
      match fs.readable searchFile with
      | .thrown what => ([], .thrown what)
      | .failed message => ([], .returned (.error message))
      | .opened =>
          let (written, outcome) := compressionLoop fs relative rest
          (record (relative searchFile) (fs.bytes searchFile).val ++ written, outcome)

/-- `searchFiles` is what `get_files` returns. -/
def compression (fs : FileSystem) (relative : List UInt8 → List UInt8) (targetPath : List UInt8)
    (searchFiles : Except String (List (List UInt8))) : List UInt8 × Outcome :=
  match searchFiles with
  | .error message => ([], .returned (.error message))
  | .ok searchFiles =>
      match fs.writable 0 targetPath with
      | .thrown what => ([], .thrown what)
      | .failed message => ([], .returned (.error message))
      | .opened => compressionLoop fs relative searchFiles

/-- One turn of the extraction: the record, the path that was opened for it, and what is in
the file, if it could be opened. -/
structure Extracted where
  name : List UInt8
  data : List UInt8
  path : List UInt8
  content : Option (List UInt8)
  deriving DecidableEq, Repr

structure Extraction where
  files : List Extracted
  index : Nat
  outcome : Outcome

/-- The two fields inside a record. -/
def divideRecord (parsedData : List UInt8) : Checked (List UInt8 × List UInt8) := do
  let (name, subIndex) ← divide parsedData 0
  let (data, _) ← divide parsedData subIndex
  .ok (name, data)

theorem divide_advances {source : List UInt8} (small : source.length < 2 ^ 63) {index next : Nat}
    {v : List UInt8} (divided : divide source index = .ok (v, next)) (some_ : v ≠ []) :
    index < next ∧ next ≤ source.length := by
  have inside : index ≤ source.length := by
    unfold divide at divided
    split at divided
    next =>
      cases divided
      exact absurd rfl some_
    next =>
    split at divided
    next =>
      cases divided
      exact absurd rfl some_
    next =>
    obtain ⟨word, read, _⟩ := bind_eq_ok.mp divided
    have := (readRange_eq_ok_iff.mp read).1
    omega
  rw [divide_eq small inside] at divided
  split at divided
  next => cases divided
  next =>
    obtain ⟨field_, rfl⟩ := Prod.mk.inj (Except.ok.inj divided)
    refine ⟨?_, after_le inside⟩
    have whole : Whole source index := by
      by_contra partly
      rw [fieldAt, if_neg partly] at field_
      exact some_ field_.symm
    rw [after, if_pos whole]
    omega

/-- The loop of `decompression`, which has opened `n` files. -/
def decompressionLoop (fs : FileSystem) (targetPath : List UInt8) (sourceData : ByteVector)
    (n index : Nat) : Extraction :=
  match _divided : divide sourceData.val index with
  | .error fault => ⟨[], index, .fault fault⟩
  | .ok (parsedData, next) =>
      if _empty : parsedData = [] then ⟨[], next, .returned (.ok ())⟩
      else
        match divideRecord parsedData with
        | .error fault => ⟨[], next, .fault fault⟩
        | .ok (name, data) =>
            let path := LexicalPath.append targetPath (Converter.toString name)
            match fs.writable n path with
            | .thrown what => ⟨[⟨name, data, path, none⟩], next, .thrown what⟩
            | .failed message => ⟨[⟨name, data, path, none⟩], next, .returned (.error message)⟩
            | .opened =>
                let file := ⟨name, data, path, some (fs.stored n (File.writeBytes data))⟩
                let rest := decompressionLoop fs targetPath sourceData (n + 1) next
                { rest with files := file :: rest.files }
  termination_by sourceData.val.length - index
  decreasing_by
    have forward := divide_advances sourceData.property _divided _empty
    omega

/-- `createFolder` is the exception that `create_folder` throws, if it does; what it returns
is not looked at. -/
def decompression (fs : FileSystem) (createFolder : Option String)
    (targetPath sourcePath : List UInt8) : Extraction :=
  match fs.readable sourcePath with
  | .thrown what => ⟨[], 0, .thrown what⟩
  | .failed message => ⟨[], 0, .returned (.error message)⟩
  | .opened =>
      match createFolder with
      | some what => ⟨[], 0, .thrown what⟩
      | none => decompressionLoop fs targetPath (fs.bytes sourcePath) 0 0

end CppToolkit.Utilities.Folder
