import CppToolkit.Utilities.Converter
import CppToolkit.Network.DataHandler

/-! The fields of a file packet, as `received_file` reads them on both peers. -/
namespace CppToolkit.Network
open Words Memory Utilities Combiner

/-- What a packet asks for. The index is only logged for a failure or a success. -/
inductive FilePacket where
  | start (guid : List UInt8) (fileCount : Nat)
  | failure (guid : List UInt8) (fileCount : Nat) (message : List UInt8)
  | success (guid : List UInt8) (fileCount : Nat) (message fileData : List UInt8)
  deriving DecidableEq, Repr

namespace FilePacket

def guid : FilePacket → List UInt8
  | .start guid _ => guid
  | .failure guid _ _ => guid
  | .success guid _ _ _ => guid

/-- `std::copy` of a field into a zeroed `size_t`. -/
def copyToSize (fileIndex : List UInt8) : Checked Nat := do
  let bytes ← copyInto sizeBytes fileIndex 0 fileIndex.length
  .ok (leValue bytes)

/-- `file_mode[0]`. -/
def firstByte (fileMode : List UInt8) : Checked UInt8 :=
  match fileMode with
  | [] => .error .readOutOfRange
  | code :: _ => .ok code

def readMessage (data guid : List UInt8) (code : UInt8) (fileCount index : Nat) :
    Checked FilePacket := do
  let (message, index) ← divide data index
  if code = FileModes.failure.code then
    .ok (.failure guid fileCount (Converter.toString message))
  else do
    let (fileData, _) ← divide data index
    .ok (.success guid fileCount (Converter.toString message) fileData)

def read (data : List UInt8) : Checked FilePacket := do
  let (guid, index) ← divide data 0
  let (fileMode, index) ← divide data index
  let (fileIndex, index) ← divide data index
  let fileCount ← copyToSize fileIndex
  let code ← firstByte fileMode
  if code = FileModes.start.code then .ok (.start (Converter.toString guid) fileCount)
  else readMessage data (Converter.toString guid) code fileCount index

/-- The cursor before the field of this number. -/
def cursor (data : List UInt8) : Nat → Nat
  | 0 => 0
  | n+1 => after data (cursor data n)

theorem cursor_le (data : List UInt8) (n : Nat) : cursor data n ≤ data.length := by
  induction n with
  | zero => exact Nat.zero_le _
  | succ n ih => exact after_le ih

/-- The mode byte: the last byte of the second field, which is stored in reverse. -/
def modeByte (data : List UInt8) : Option UInt8 := (fieldAt data (cursor data 1)).head?

/-- The number of fields that a packet of this mode is read for. -/
def fieldCount (code : UInt8) : Nat :=
  if code = FileModes.start.code then 3 else if code = FileModes.failure.code then 4 else 5

/-- The second field is whole, the third is at most as long as a `size_t`, and no
length word that is read leads past the range of `size_t`. -/
structure Bounded (data : List UInt8) (code : UInt8) : Prop where
  mode : modeByte data = some code
  fileIndex : (fieldAt data (cursor data 2)).length ≤ sizeBytes
  plain : ∀ n < fieldCount code, ¬ Wraps data (cursor data n)

theorem copyToSize_bind_safe_iff {α : Type} {fileIndex : List UInt8} {f : Nat → Checked α} :
    Safe (copyToSize fileIndex >>= f) ↔
      fileIndex.length ≤ sizeBytes ∧ Safe (f (leValue fileIndex)) := by
  by_cases short : fileIndex.length ≤ sizeBytes
  · have copied : copyToSize fileIndex = .ok (leValue fileIndex) := by
      rw [copyToSize, copyInto_ok short (by omega), ok_bind, List.drop_zero, List.take_length]
    rw [copied, ok_bind]
    constructor
    · intro safe
      exact ⟨short, safe⟩
    · intro safe
      exact safe.2
  · have overrun : copyToSize fileIndex = .error .writeOverrun := by
      rw [copyToSize, copyInto, if_pos (Nat.not_le.mp short)]
      rfl
    rw [overrun]
    constructor
    · intro safe
      exact absurd safe (not_safe_error _)
    · intro safe
      exact absurd safe.1 short

theorem firstByte_bind_safe_iff {α : Type} {fileMode : List UInt8} {f : UInt8 → Checked α} :
    Safe (firstByte fileMode >>= f) ↔ ∃ code, fileMode.head? = some code ∧ Safe (f code) := by
  cases fileMode with
  | nil =>
      refine ⟨fun safe => absurd safe (not_safe_error _), ?_⟩
      rintro ⟨code, none, _⟩
      cases none
  | cons code rest =>
      refine ⟨fun safe => ⟨code, rfl, safe⟩, ?_⟩
      rintro ⟨_, same, safe⟩
      cases same
      exact safe

section
variable {data : List UInt8} (small : data.length < 2 ^ 63)
include small

theorem divide_bind_safe_iff {α : Type} (n : Nat) {f : List UInt8 × Nat → Checked α} :
    Safe (divide data (cursor data n) >>= f) ↔
      ¬ Wraps data (cursor data n) ∧
        Safe (f (fieldAt data (cursor data n), cursor data (n + 1))) := by
  have divided := divide_eq small (cursor_le data n)
  by_cases wraps : Wraps data (cursor data n)
  · rw [divided, if_pos wraps]
    constructor
    · intro safe
      exact absurd safe (not_safe_error _)
    · intro safe
      exact absurd wraps safe.1
  · rw [divided, if_neg wraps, ok_bind]
    constructor
    · intro safe
      exact ⟨wraps, safe⟩
    · intro safe
      exact safe.2

theorem readMessage_safe_iff (guid : List UInt8) (code : UInt8) (fileCount : Nat) :
    Safe (readMessage data guid code fileCount (cursor data 3)) ↔
      ¬ Wraps data (cursor data 3) ∧
        (code ≠ FileModes.failure.code → ¬ Wraps data (cursor data 4)) := by
  rw [readMessage, divide_bind_safe_iff small]
  apply and_congr_right
  intro _
  by_cases failure : code = FileModes.failure.code
  · simp only [if_pos failure]
    constructor
    · intro _ other
      exact absurd failure other
    · intro _
      exact safe_ok _
  · simp only [if_neg failure]
    rw [divide_bind_safe_iff small]
    constructor
    · intro safe _
      exact safe.1
    · intro plain
      exact ⟨plain failure, safe_ok _⟩

/-- Exactly the bounded packets are read inside the payload and inside `file_count`. -/
theorem read_safe_iff : Safe (read data) ↔ ∃ code, Bounded data code := by
  have first : (0 : Nat) = cursor data 0 := rfl
  rw [read, first, divide_bind_safe_iff small, divide_bind_safe_iff small,
    divide_bind_safe_iff small, copyToSize_bind_safe_iff, firstByte_bind_safe_iff]
  constructor
  · rintro ⟨guid, mode, index, short, code, byte, safe⟩
    refine ⟨code, byte, short, ?_⟩
    intro n less
    have header : n < 3 → ¬ Wraps data (cursor data n) := by
      intro less
      match n with
      | 0 => exact guid
      | 1 => exact mode
      | 2 => exact index
    by_cases early : n < 3
    · exact header early
    unfold fieldCount at less
    split at safe
    next start =>
      rw [if_pos start] at less
      exact absurd less early
    next other =>
      rw [if_neg other] at less
      obtain ⟨message, fileData⟩ := (readMessage_safe_iff small _ _ _).mp safe
      by_cases third : n = 3
      · rw [third]
        exact message
      · split at less
        next => omega
        next success =>
          have fourth : n = 4 := by omega
          rw [fourth]
          exact fileData success
  · rintro ⟨code, byte, short, plain⟩
    have three : 3 ≤ fieldCount code := by
      unfold fieldCount
      split <;> first | omega | (split <;> omega)
    refine ⟨plain 0 (by omega), plain 1 (by omega), plain 2 (by omega), short, code, byte, ?_⟩
    split
    next => exact safe_ok _
    next other =>
      have four : fieldCount code = if code = FileModes.failure.code then 4 else 5 := if_neg other
      refine (readMessage_safe_iff small _ _ _).mpr ⟨plain 3 ?_, fun success => plain 4 ?_⟩
      · rw [four]
        split <;> omega
      · rw [four, if_neg success]
        omega

end

theorem copyToSize_fault {fileIndex : List UInt8} {fault : Fault}
    (failed : copyToSize fileIndex = .error fault) : fault = .writeOverrun := by
  by_cases short : fileIndex.length ≤ sizeBytes
  · rw [copyToSize, copyInto_ok short (by omega)] at failed
    cases failed
  · rw [copyToSize, copyInto, if_pos (Nat.not_le.mp short)] at failed
    cases failed
    rfl

theorem readMessage_fault {data guid : List UInt8} {code : UInt8} {fileCount index : Nat}
    {fault : Fault} (failed : readMessage data guid code fileCount index = .error fault) :
    fault = .readOutOfRange := by
  rcases error_of_bind failed with failed | ⟨⟨message, index⟩, failed⟩
  · exact divide_fault failed
  · by_cases failure : code = FileModes.failure.code
    · simp only [if_pos failure] at failed
      cases failed
    · simp only [if_neg failure] at failed
      rcases error_of_bind failed with failed | ⟨_, failed⟩
      · exact divide_fault failed
      · cases failed

/-- Reading a packet can only fail in an access. -/
theorem read_fault {data : List UInt8} {fault : Fault} (failed : read data = .error fault) :
    fault.outOfRange = true := by
  rcases error_of_bind failed with failed | ⟨⟨guid, index⟩, failed⟩
  · rw [divide_fault failed]
    rfl
  rcases error_of_bind failed with failed | ⟨⟨fileMode, index⟩, failed⟩
  · rw [divide_fault failed]
    rfl
  rcases error_of_bind failed with failed | ⟨⟨fileIndex, index⟩, failed⟩
  · rw [divide_fault failed]
    rfl
  rcases error_of_bind failed with failed | ⟨fileCount, failed⟩
  · rw [copyToSize_fault failed]
    rfl
  rcases error_of_bind failed with failed | ⟨code, failed⟩
  · cases fileMode with
    | nil =>
        cases failed
        rfl
    | cons code rest => cases failed
  · by_cases start : code = FileModes.start.code
    · simp only [if_pos start] at failed
      cases failed
    · simp only [if_neg start] at failed
      rw [readMessage_fault failed]
      rfl

theorem readMessage_guid {data guid : List UInt8} {code : UInt8} {fileCount index : Nat}
    {packet : FilePacket} (reads : readMessage data guid code fileCount index = .ok packet) :
    packet.guid = guid := by
  obtain ⟨⟨message, index⟩, _, reads⟩ := bind_eq_ok.mp reads
  by_cases failure : code = FileModes.failure.code
  · simp only [if_pos failure] at reads
    cases reads
    rfl
  · simp only [if_neg failure] at reads
    obtain ⟨_, _, reads⟩ := bind_eq_ok.mp reads
    cases reads
    rfl

/-- The guid of a packet never starts with a byte order mark. -/
theorem read_plain {data : List UInt8} {packet : FilePacket} (reads : read data = .ok packet) :
    ¬ Converter.hasByteOrderMark packet.guid := by
  obtain ⟨⟨guid, index⟩, _, reads⟩ := bind_eq_ok.mp reads
  obtain ⟨⟨fileMode, index⟩, _, reads⟩ := bind_eq_ok.mp reads
  obtain ⟨⟨fileIndex, index⟩, _, reads⟩ := bind_eq_ok.mp reads
  obtain ⟨fileCount, _, reads⟩ := bind_eq_ok.mp reads
  obtain ⟨code, _, reads⟩ := bind_eq_ok.mp reads
  by_cases start : code = FileModes.start.code
  · simp only [if_pos start] at reads
    cases reads
    exact Converter.toString_plain guid
  · simp only [if_neg start] at reads
    rw [readMessage_guid reads]
    exact Converter.toString_plain guid

end FilePacket
end CppToolkit.Network
