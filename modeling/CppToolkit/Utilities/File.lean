import CppToolkit.Utilities.Compressor
import Mathlib.Data.List.TakeDrop

/-! Files as the functions of the library find and leave them. -/
namespace CppToolkit.Utilities
open Memory

/-- What `File::open` comes to; it creates the folders of the path, which may throw. -/
inductive Opening where
  | opened
  | failed (message : String)
  | thrown (what : String)
  deriving DecidableEq, Repr

/-- How a function ends: with its pair, with an exception or with undefined behaviour. -/
inductive Outcome where
  | returned (reply : Except String Unit)
  | thrown (what : String)
  | fault (fault : Fault)

/-- The caller is told of a failure. -/
def Outcome.Failed : Outcome → Prop
  | .returned (.error _) => True
  | .thrown _ => True
  | _ => False

/-- The answers of the file system. Files opened for writing are numbered, so that every one
may be answered in another way, and `stored` is what a stream leaves of the bytes that it
is given. -/
structure FileSystem where
  readable : List UInt8 → Opening
  bytes : List UInt8 → ByteVector
  writable : Nat → List UInt8 → Opening
  stored : Nat → List UInt8 → List UInt8

/-- A file system that keeps what it is given. -/
def FileSystem.Keeps (fs : FileSystem) : Prop := ∀ n bytes, fs.stored n bytes = bytes

/-- What there is behind a path, for a file system that opens everything. -/
def FileSystem.open_ (bytes : List UInt8 → ByteVector) : FileSystem where
  readable := fun _ => .opened
  bytes := bytes
  writable := fun _ _ => .opened
  stored := fun _ bytes => bytes

namespace File

/-- `write_bytes`: the stream is given the low 32 bits of the size. -/
def writeBytes (bytes : List UInt8) : List UInt8 := bytes.take (bytes.length % 2 ^ 32)

theorem writeBytes_eq_iff {bytes : List UInt8} : writeBytes bytes = bytes ↔ bytes.length < 2 ^ 32 := by
  rw [writeBytes, List.take_eq_self_iff]
  have less := Nat.mod_lt bytes.length (show 2 ^ 32 > 0 by decide)
  constructor
  · exact fun whole => Nat.lt_of_le_of_lt whole less
  · exact fun short => Nat.le_of_eq (Nat.mod_eq_of_lt short).symm

/-- What a function that rewrites a file leaves in it, unless it leaves the file alone. -/
structure Rewriting where
  content : Option (List UInt8)
  outcome : Outcome

def decompression (lz4 : Lz4) (fs : FileSystem) (path : List UInt8) (blockBytes : UInt16) :
    Rewriting :=
  match fs.readable path with
  | .thrown what => ⟨none, .thrown what⟩
  | .failed message => ⟨none, .returned (.error message)⟩
  | .opened =>
      match Compressor.decompression lz4 (fs.bytes path).val blockBytes with
      | .error fault => ⟨none, .fault fault⟩
      | .ok (.error message) => ⟨none, .returned (.error ("cannot compress file : " ++ message))⟩
      | .ok (.ok decompressedBytes) =>
          match fs.writable 0 path with
          | .thrown what => ⟨none, .thrown what⟩
          | .failed message => ⟨none, .returned (.error message)⟩
          | .opened => ⟨some (fs.stored 0 (writeBytes decompressedBytes)), .returned (.ok ())⟩

end File
end CppToolkit.Utilities
