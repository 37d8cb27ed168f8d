import CppToolkit.Network.FileManager
import CppToolkit.Network.FilePacket

/-! What both peers use from outside: the JSON library, random keys, temporary files
and the callbacks of the application. -/
namespace CppToolkit.Network
open Utilities

/-- The values that the handshake tells apart. -/
inductive Json where
  | string (value : List UInt8)
  | bool (value : Bool)
  | other
  deriving DecidableEq, Repr

/-- `parse` is `boost::json::parse(..).as_object()` as a lookup of its fields. The n-th
call of `create_key` and of `save_temp_path` in a run is answered by `createKey n` and
`saveTempPath n`. -/
structure World where
  parse : List UInt8 → Except String (String → Option Json)
  serialize : List (String × Json) → List UInt8
  createKey : Nat → List UInt8 × List UInt8
  saveTempPath : Nat → List UInt8 → Except String (Option (List UInt8))

/-- A world without JSON, keys or files, for examples. -/
def World.empty : World where
  parse := fun _ => .error "cannot parse"
  serialize := fun _ => []
  createKey := fun _ => ([], [])
  saveTempPath := fun _ _ => .ok none

/-- A `const char*` ends before the first zero byte. -/
def cString (value : List UInt8) : List UInt8 := value.takeWhile (· ≠ 0)

end CppToolkit.Network
