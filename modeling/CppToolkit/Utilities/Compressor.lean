import CppToolkit.Library.Memory

/-! Block-wise compression. LZ4 itself is a parameter; the block loop, the headers
and the cursor of the decompressor are the code's own. -/
namespace CppToolkit.Utilities
open Words Memory

/-- The streaming calls of the library; `none` is a return value of at most zero. -/
structure Lz4 where
  Stream : Type
  StreamDecode : Type
  resetStream : Stream
  setStreamDecode : StreamDecode
  compressFastContinue : Stream → List UInt8 → Nat → Stream × Option (List UInt8)
  decompressSafeContinue : StreamDecode → List UInt8 → Nat → StreamDecode × Option (List UInt8)

/-- `LZ4_MAX_INPUT_SIZE`. -/
def maxInputSize : Nat := 0x7E000000

/-- `LZ4_COMPRESSBOUND`. -/
def compressBound (size : Nat) : Nat :=
  if maxInputSize < size then 0 else size + size / 255 + 16

/-- `sizeof(int32_t)`. -/
def headerBytes : Nat := 4

/-- Blocks of literals only, which is the format LZ4 gives to blocks of up to twelve
bytes. It stands in for the library in examples. -/
def Lz4.literals : Lz4 where
  Stream := Unit
  StreamDecode := Unit
  resetStream := ()
  setStreamDecode := ()
  compressFastContinue _ block _ :=
    let n := block.length
    let token := if n < 15 then [UInt8.ofNat (16 * n)]
      else 0xf0 :: (List.replicate ((n - 15) / 255) 0xff ++ [UInt8.ofNat ((n - 15) % 255)])
    ((), some (token ++ block))
  decompressSafeContinue _ block _ :=
    let literals := match block with
      | [] => []
      | token :: rest => if token ≠ 0xf0 then rest else (rest.dropWhile (· = 0xff)).drop 1
    ((), if literals = [] then none else some literals)

namespace Compressor

/-- `inpBytes`: a whole block, or what is left. -/
def inputBytes (blockBytes remaining : Nat) : Nat :=
  if blockBytes < remaining then blockBytes else remaining

theorem inputBytes_le (blockBytes remaining : Nat) : inputBytes blockBytes remaining ≤ remaining := by
  unfold inputBytes
  split <;> omega

def compressionLoop (lz4 : Lz4) (blockBytes : Nat) (stream : lz4.Stream) (rest : List UInt8) :
    List UInt8 :=
  let inpBytes := inputBytes blockBytes rest.length
  if inpBytes = 0 then []
  else
    match lz4.compressFastContinue stream (rest.take inpBytes) (compressBound blockBytes) with
    | (_, none) => []
    | (stream, some compressed) =>
        leWord headerBytes inpBytes ++ leWord headerBytes compressed.length ++ compressed ++
          compressionLoop lz4 blockBytes stream (rest.drop inpBytes)
  termination_by rest.length
  decreasing_by
    have some : inputBytes blockBytes rest.length ≠ 0 := by assumption
    have le := inputBytes_le blockBytes rest.length
    rw [List.length_drop]
    omega

def compression (lz4 : Lz4) (originalData : List UInt8) (blockBytes : UInt16) :
    Except String (List UInt8) :=
  if originalData = [] then .error "the data field is empty."
  else
    let compressedData :=
      compressionLoop lz4 blockBytes.toNat lz4.resetStream originalData
    if compressedData = [] then .error "cannot compress data" else .ok compressedData

/-- The signed 32-bit size stored at `index`. -/
def sizeAt (data : List UInt8) (index : Nat) : Int :=
  toInt32 (leValue ((data.drop index).take headerBytes))

/-- memcpy of one size out of the compressed data. -/
def readSize (data : List UInt8) (index : Nat) : Checked Int := do
  let word ← readRange data index headerBytes
  .ok (toInt32 (leValue word))

theorem readSize_ok {data : List UInt8} {index : Nat} (inside : index + 4 ≤ data.length) :
    readSize data index = .ok (sizeAt data index) := by
  rw [readSize, @readRange_ok data index headerBytes inside]
  rfl

theorem readSize_eq_ok_iff {data : List UInt8} {index : Nat} {size : Int} :
    readSize data index = .ok size ↔ index + 4 ≤ data.length ∧ size = sizeAt data index := by
  constructor
  · intro read
    obtain ⟨word, taken, same⟩ := bind_eq_ok.mp read
    obtain ⟨inside, rfl⟩ := readRange_eq_ok_iff.mp taken
    cases same
    exact ⟨inside, rfl⟩
  · rintro ⟨inside, rfl⟩
    exact readSize_ok inside

/-- The variables the decompression loop carries. -/
structure Decoder (lz4 : Lz4) where
  readIndex : Nat
  stream : lz4.StreamDecode
  decompressedData : List UInt8

/-- One turn of the loop; `none` leaves it. -/
def decompressionTurn (lz4 : Lz4) (compressedData : List UInt8) (blockBytes : UInt16)
    (d : Decoder lz4) : Checked (Option (Decoder lz4)) :=
  if subSize compressedData.length d.readIndex < 1 then .ok none
  else do
    let originalSize ← readSize compressedData d.readIndex
    if originalSize ≤ 0 then .ok none
    else do
      let readIndex ← addInt32 d.readIndex headerBytes
      let compressedSize ← readSize compressedData readIndex
      if compressedSize ≤ 0 then .ok none
      else do
        let readIndex ← addInt32 readIndex headerBytes
        let block ← copyInto (compressBound blockBytes.toNat) compressedData readIndex
          compressedSize.toNat
        let readIndex ← addInt32 readIndex compressedSize.toNat
        match lz4.decompressSafeContinue d.stream block blockBytes.toNat with
        | (_, none) => .ok none
        | (stream, some decompressed) =>
            .ok (some ⟨readIndex, stream, d.decompressedData ++ decompressed⟩)

/-- A whole block at `index`: two positive sizes and `size` bytes that fit. -/
structure BlockAt (data : List UInt8) (blockBytes : UInt16) (index size : Nat) : Prop where
  original : 0 < sizeAt data index
  compressed : sizeAt data (index + 4) = size
  positive : 0 < size
  bounded : size ≤ compressBound blockBytes.toNat
  inside : index + 8 + size ≤ data.length
  small : index + 8 + size < 2 ^ 31

def blockOf (data : List UInt8) (index size : Nat) : List UInt8 :=
  (data.drop (index + 8)).take size

/-- The ways a turn can end without a fault. -/
inductive Turned (lz4 : Lz4) (data : List UInt8) (blockBytes : UInt16) (d : Decoder lz4) :
    Option (Decoder lz4) → Prop
  | finished : subSize data.length d.readIndex < 1 → Turned lz4 data blockBytes d none
  | noOriginalSize : ¬ subSize data.length d.readIndex < 1 →
      d.readIndex + 4 ≤ data.length → sizeAt data d.readIndex ≤ 0 →
      Turned lz4 data blockBytes d none
  | noCompressedSize : ¬ subSize data.length d.readIndex < 1 → 0 < sizeAt data d.readIndex →
      d.readIndex + 8 ≤ data.length → d.readIndex + 4 < 2 ^ 31 →
      sizeAt data (d.readIndex + 4) ≤ 0 → Turned lz4 data blockBytes d none
  | rejected {size stream} : ¬ subSize data.length d.readIndex < 1 →
      BlockAt data blockBytes d.readIndex size →
      lz4.decompressSafeContinue d.stream (blockOf data d.readIndex size) blockBytes.toNat =
        (stream, none) → Turned lz4 data blockBytes d none
  | accepted {size stream decompressed} : ¬ subSize data.length d.readIndex < 1 →
      BlockAt data blockBytes d.readIndex size →
      lz4.decompressSafeContinue d.stream (blockOf data d.readIndex size) blockBytes.toNat =
        (stream, some decompressed) →
      Turned lz4 data blockBytes d
        (some ⟨d.readIndex + 8 + size, stream, d.decompressedData ++ decompressed⟩)

theorem turned_of_decompressionTurn {lz4 : Lz4} {data : List UInt8} {blockBytes : UInt16}
    {d : Decoder lz4} {result : Option (Decoder lz4)}
    (turned : decompressionTurn lz4 data blockBytes d = .ok result) :
    Turned lz4 data blockBytes d result := by
  unfold decompressionTurn at turned
  split at turned
  next done =>
    cases turned
    exact .finished done
  next more =>
  obtain ⟨_, read, turned⟩ := bind_eq_ok.mp turned
  obtain ⟨first, rfl⟩ := readSize_eq_ok_iff.mp read
  split at turned
  next stop =>
    cases turned
    exact .noOriginalSize more first stop
  next original =>
  obtain ⟨_, added, turned⟩ := bind_eq_ok.mp turned
  obtain ⟨low, rfl⟩ := addInt32_eq_ok_iff.mp added
  obtain ⟨_, read, turned⟩ := bind_eq_ok.mp turned
  obtain ⟨second, rfl⟩ := readSize_eq_ok_iff.mp read
  split at turned
  next stop =>
    cases turned
    exact .noCompressedSize more (Int.not_le.mp original) second low stop
  next compressed =>
  obtain ⟨_, added, turned⟩ := bind_eq_ok.mp turned
  obtain ⟨_, rfl⟩ := addInt32_eq_ok_iff.mp added
  obtain ⟨_, copied, turned⟩ := bind_eq_ok.mp turned
  obtain ⟨bounded, inside, rfl⟩ := copyInto_eq_ok_iff.mp copied
  obtain ⟨_, added, turned⟩ := bind_eq_ok.mp turned
  obtain ⟨small, rfl⟩ := addInt32_eq_ok_iff.mp added
  have positive := Int.not_le.mp compressed
  have fits : BlockAt data blockBytes d.readIndex (sizeAt data (d.readIndex + 4)).toNat :=
    ⟨Int.not_le.mp original, (Int.toNat_of_nonneg (Int.le_of_lt positive)).symm,
      Int.pos_iff_toNat_pos.mp positive, bounded, inside, small⟩
  split at turned
  next stream decoded =>
    cases turned
    exact .rejected more fits decoded
  next stream decompressed decoded =>
    cases turned
    exact .accepted more fits decoded

/-- A turn that meets a whole block hands it to LZ4. -/
theorem decompressionTurn_block {lz4 : Lz4} {data : List UInt8} {blockBytes : UInt16}
    {d : Decoder lz4} {size : Nat} (more : ¬ subSize data.length d.readIndex < 1)
    (fits : BlockAt data blockBytes d.readIndex size) :
    decompressionTurn lz4 data blockBytes d =
      match lz4.decompressSafeContinue d.stream (blockOf data d.readIndex size)
        blockBytes.toNat with
      | (_, none) => .ok none
      | (stream, some decompressed) =>
          .ok (some ⟨d.readIndex + 8 + size, stream, d.decompressedData ++ decompressed⟩) := by
  have inside := fits.inside
  have small := fits.small
  have original : ¬ sizeAt data d.readIndex ≤ 0 := Int.not_le.mpr fits.original
  have compressed : ¬ sizeAt data (d.readIndex + headerBytes) ≤ 0 := by
    rw [headerBytes, fits.compressed]
    have := fits.positive
    omega
  have value : (sizeAt data (d.readIndex + headerBytes)).toNat = size := by
    rw [headerBytes, fits.compressed, Int.toNat_natCast]
  have first : d.readIndex + headerBytes < 2 ^ 31 := by simp only [headerBytes]; omega
  have second : d.readIndex + headerBytes + headerBytes < 2 ^ 31 := by
    simp only [headerBytes]
    omega
  rw [decompressionTurn, if_neg more, readSize_ok (by omega), ok_bind, if_neg original,
    addInt32_ok first, ok_bind, readSize_ok (by simp only [headerBytes]; omega), ok_bind,
    if_neg compressed, addInt32_ok second, ok_bind, value,
    copyInto_ok fits.bounded (by simp only [headerBytes]; omega), ok_bind,
    addInt32_ok (by simp only [headerBytes]; omega), ok_bind]
  rfl

theorem decompressionTurn_of_turned {lz4 : Lz4} {data : List UInt8} {blockBytes : UInt16}
    {d : Decoder lz4} {result : Option (Decoder lz4)}
    (turned : Turned lz4 data blockBytes d result) :
    decompressionTurn lz4 data blockBytes d = .ok result := by
  cases turned with
  | finished done => rw [decompressionTurn, if_pos done]
  | noOriginalSize more first stop =>
      rw [decompressionTurn, if_neg more, readSize_ok first, ok_bind, if_pos stop]
  | noCompressedSize more original second low stop =>
      rw [decompressionTurn, if_neg more, readSize_ok (by omega), ok_bind,
        if_neg (Int.not_le.mpr original), addInt32_ok (b := headerBytes) low, ok_bind,
        readSize_ok (by simp only [headerBytes]; omega), ok_bind]
      exact if_pos stop
  | rejected more fits decoded => rw [decompressionTurn_block more fits, decoded]
  | accepted more fits decoded => rw [decompressionTurn_block more fits, decoded]

theorem decompressionTurn_advances {lz4 : Lz4} {compressedData : List UInt8}
    {blockBytes : UInt16} {d next : Decoder lz4}
    (turned : decompressionTurn lz4 compressedData blockBytes d = .ok (some next)) :
    compressedData.length - next.readIndex < compressedData.length - d.readIndex := by
  cases turned_of_decompressionTurn turned with
  | @accepted size _ _ _ fits _ =>
      have inside := fits.inside
      change compressedData.length - (d.readIndex + 8 + size) < _
      omega

def decompressionLoop (lz4 : Lz4) (compressedData : List UInt8) (blockBytes : UInt16)
    (d : Decoder lz4) : Checked (List UInt8) :=
  match _turned : decompressionTurn lz4 compressedData blockBytes d with
  | .error fault => .error fault
  | .ok none => .ok d.decompressedData
  | .ok (some next) => decompressionLoop lz4 compressedData blockBytes next
  termination_by compressedData.length - d.readIndex
  decreasing_by exact decompressionTurn_advances _turned

section
variable {lz4 : Lz4} {compressedData : List UInt8} {blockBytes : UInt16} {d : Decoder lz4}

theorem decompressionLoop_fault {fault : Fault}
    (turned : decompressionTurn lz4 compressedData blockBytes d = .error fault) :
    decompressionLoop lz4 compressedData blockBytes d = .error fault := by
  rw [decompressionLoop]
  split
  next failed =>
    rw [turned] at failed
    cases failed
    rfl
  next stopped =>
    rw [turned] at stopped
    cases stopped
  next again =>
    rw [turned] at again
    cases again

theorem decompressionLoop_stop
    (turned : decompressionTurn lz4 compressedData blockBytes d = .ok none) :
    decompressionLoop lz4 compressedData blockBytes d = .ok d.decompressedData := by
  rw [decompressionLoop]
  split
  next failed =>
    rw [turned] at failed
    cases failed
  next => rfl
  next again =>
    rw [turned] at again
    cases again

theorem decompressionLoop_next {next : Decoder lz4}
    (turned : decompressionTurn lz4 compressedData blockBytes d = .ok (some next)) :
    decompressionLoop lz4 compressedData blockBytes d =
      decompressionLoop lz4 compressedData blockBytes next := by
  rw [decompressionLoop]
  split
  next failed =>
    rw [turned] at failed
    cases failed
  next stopped =>
    rw [turned] at stopped
    cases stopped
  next again =>
    rw [turned] at again
    cases again
    rfl

end

def decompression (lz4 : Lz4) (compressedData : List UInt8) (blockBytes : UInt16) :
    Checked (Except String (List UInt8)) :=
  if compressedData = [] then .ok (.error "the data field is empty.")
  else do
    let decompressedData ←
      decompressionLoop lz4 compressedData blockBytes ⟨0, lz4.setStreamDecode, []⟩
    if decompressedData = [] then .ok (.error "cannot decompress data")
    else .ok (.ok decompressedData)

end Compressor
end CppToolkit.Utilities
