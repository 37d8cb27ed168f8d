import CppToolkit.Utilities.CompressorRoundTrip

/-! The two buffers between which both loops of the compressor alternate. A streaming call
of LZ4 reads the block of the call before where it was, in the other buffer. -/
namespace CppToolkit.Utilities
open Memory

/-- `source_buffer` or `target_buffer`, and the index of the one that is next. -/
structure Buffers where
  buffer : Fin 2 → List UInt8
  index : Fin 2

namespace Buffers

def initial : Buffers := ⟨fun _ => [], 0⟩

def current (m : Buffers) : List UInt8 := m.buffer m.index

def other (m : Buffers) : List UInt8 := m.buffer (m.index + 1)

/-- The bytes from the start of the current buffer on are overwritten. -/
def write (m : Buffers) (bytes : List UInt8) : Buffers :=
  { m with buffer := Function.update m.buffer m.index (bytes ++ m.current.drop bytes.length) }

def flip (m : Buffers) : Buffers := { m with index := m.index + 1 }

theorem current_write (m : Buffers) (bytes : List UInt8) :
    (m.write bytes).current = bytes ++ m.current.drop bytes.length :=
  Function.update_self ..

theorem other_write (m : Buffers) (bytes : List UInt8) : (m.write bytes).other = m.other := by
  have apart : m.index + 1 ≠ m.index := by
    generalize m.index = index
    revert index
    decide
  exact Function.update_of_ne apart ..

/-- After the change the buffer that was written is the other one. -/
theorem other_flip (m : Buffers) : m.flip.other = m.current := by
  have back : m.index + 1 + 1 = m.index := by
    generalize m.index = index
    revert index
    decide
  exact congrArg m.buffer back

theorem other_write_flip (m : Buffers) (bytes : List UInt8) : bytes <+: (m.write bytes).flip.other := by
  rw [other_flip, current_write]
  exact List.prefix_append _ _

end Buffers

/-- The streaming calls with what they find in the buffer of the call before. -/
structure Lz4Buffers where
  Stream : Type
  StreamDecode : Type
  resetStream : Stream
  setStreamDecode : StreamDecode
  compressFastContinue : Stream → List UInt8 → List UInt8 → Nat → Stream × Option (List UInt8)
  decompressSafeContinue :
    StreamDecode → List UInt8 → List UInt8 → Nat → StreamDecode × Option (List UInt8)

namespace Lz4Buffers

/-- The calls as the loops of the compressor make them: the next buffer is cleared and takes
the block before it is compressed, or the block that is decompressed; then the buffers change
their roles. -/
def alternating (b : Lz4Buffers) (blockBytes : Nat) : Lz4 where
  Stream := b.Stream × Buffers
  StreamDecode := b.StreamDecode × Buffers
  resetStream := (b.resetStream, .initial)
  setStreamDecode := (b.setStreamDecode, .initial)
  compressFastContinue := fun (stream, sourceBuffer) block capacity =>
    let sourceBuffer := (sourceBuffer.write (List.replicate blockBytes 0)).write block
    let (stream, compressed) := b.compressFastContinue stream sourceBuffer.other
      (sourceBuffer.current.take block.length) capacity
    ((stream, sourceBuffer.flip), compressed)
  decompressSafeContinue := fun (stream, targetBuffer) block size =>
    match b.decompressSafeContinue stream targetBuffer.other block size with
    | (stream, none) => ((stream, targetBuffer), none)
    | (stream, some decompressed) =>
        let targetBuffer := targetBuffer.write decompressed
        ((stream, targetBuffer.flip), some (targetBuffer.current.take decompressed.length))

/-- The calls where nothing but the last block is in the other buffer. -/
def blockwise (b : Lz4Buffers) : Lz4 where
  Stream := b.Stream × List UInt8
  StreamDecode := b.StreamDecode × List UInt8
  resetStream := (b.resetStream, [])
  setStreamDecode := (b.setStreamDecode, [])
  compressFastContinue := fun (stream, last) block capacity =>
    let (stream, compressed) := b.compressFastContinue stream last block capacity
    ((stream, block), compressed)
  decompressSafeContinue := fun (stream, last) block size =>
    match b.decompressSafeContinue stream last block size with
    | (stream, none) => ((stream, last), none)
    | (stream, some decompressed) => ((stream, decompressed), some decompressed)

/-- What a stream refers to is the beginning of the block before, of which it knows the size;
it reads nothing else of the other buffer. -/
structure Refers (b : Lz4Buffers) (dictSize : b.Stream → Nat) (dictSizeDecode : b.StreamDecode → Nat) :
    Prop where
  compress : ∀ stream other last block capacity,
    other.take (dictSize stream) = last.take (dictSize stream) →
      b.compressFastContinue stream other block capacity =
        b.compressFastContinue stream last block capacity
  decompress : ∀ stream other last block size,
    other.take (dictSizeDecode stream) = last.take (dictSizeDecode stream) →
      b.decompressSafeContinue stream other block size =
        b.decompressSafeContinue stream last block size
  reset : dictSize b.resetStream = 0
  resetDecode : dictSizeDecode b.setStreamDecode = 0
  next : ∀ stream last block capacity stream' compressed,
    b.compressFastContinue stream last block capacity = (stream', some compressed) →
      dictSize stream' ≤ block.length
  nextDecode : ∀ stream last block size stream' decompressed,
    b.decompressSafeContinue stream last block size = (stream', some decompressed) →
      dictSizeDecode stream' ≤ decompressed.length

section
variable {b : Lz4Buffers} {dictSize : b.Stream → Nat} {dictSizeDecode : b.StreamDecode → Nat}
  {paired : b.blockwise.Stream → b.blockwise.StreamDecode → Prop}

/-- The states are paired for the last blocks, which are still at the beginning of the other
buffers. -/
def Intact (dictSize : b.Stream → Nat) (dictSizeDecode : b.StreamDecode → Nat)
    (paired : b.blockwise.Stream → b.blockwise.StreamDecode → Prop) (blockBytes : Nat)
    (s : (b.alternating blockBytes).Stream) (d : (b.alternating blockBytes).StreamDecode) : Prop :=
  ∃ last lastDecode, paired (s.1, last) (d.1, lastDecode) ∧
    (last <+: s.2.other ∧ dictSize s.1 ≤ last.length) ∧
      lastDecode <+: d.2.other ∧ dictSizeDecode d.1 ≤ lastDecode.length

theorem take_kept {last other : List UInt8} (kept : last <+: other) {size : Nat}
    (inside : size ≤ last.length) : other.take size = last.take size := by
  obtain ⟨more, rfl⟩ := kept
  exact List.take_append_of_le_length inside

theorem blockwise_compressed {stream stream' : b.Stream} {last last' block compressed : List UInt8}
    {capacity : Nat} (packed : b.blockwise.compressFastContinue (stream, last) block capacity =
      ((stream', last'), some compressed)) :
    b.compressFastContinue stream last block capacity = (stream', some compressed) ∧
      last' = block := by
  cases call : b.compressFastContinue stream last block capacity with
  | mk next out =>
      simp only [blockwise, call] at packed
      cases packed
      exact ⟨rfl, rfl⟩

theorem blockwise_decompressed {stream stream' : b.StreamDecode}
    {last last' block decompressed : List UInt8} {size : Nat}
    (unpacked : b.blockwise.decompressSafeContinue (stream, last) block size =
      ((stream', last'), some decompressed)) :
    b.decompressSafeContinue stream last block size = (stream', some decompressed) ∧
      last' = decompressed := by
  cases call : b.decompressSafeContinue stream last block size with
  | mk next out =>
      cases out with
      | none =>
          simp only [blockwise, call] at unpacked
          cases unpacked
      | some value =>
          simp only [blockwise, call] at unpacked
          cases unpacked
          exact ⟨rfl, rfl⟩

theorem alternating_compresses {stream stream' : b.Stream} {source : Buffers} {blockBytes : Nat}
    {block compressed : List UInt8} {capacity : Nat}
    (packed : b.compressFastContinue stream source.other block capacity =
      (stream', some compressed)) :
    (b.alternating blockBytes).compressFastContinue (stream, source) block capacity =
      ((stream', ((source.write (List.replicate blockBytes 0)).write block).flip),
        some compressed) := by
  have taken : ((source.write (List.replicate blockBytes 0)).write block).current.take block.length =
      block := by
    rw [Buffers.current_write, List.take_left]
  simp only [alternating, Buffers.other_write, taken, packed]

theorem alternating_decompresses {stream stream' : b.StreamDecode} {target : Buffers}
    {blockBytes : Nat} {block decompressed : List UInt8} {size : Nat}
    (unpacked : b.decompressSafeContinue stream target.other block size =
      (stream', some decompressed)) :
    (b.alternating blockBytes).decompressSafeContinue (stream, target) block size =
      ((stream', (target.write decompressed).flip), some decompressed) := by
  have taken : (target.write decompressed).current.take decompressed.length = decompressed := by
    rw [Buffers.current_write, List.take_left]
  simp only [alternating, unpacked, taken]

/-- With two buffers every call finds the block of the call before. -/
theorem alternating_faithful (refers : b.Refers dictSize dictSizeDecode)
    (faithful : b.blockwise.Faithful paired) (blockBytes : Nat) :
    (b.alternating blockBytes).Faithful (Intact dictSize dictSizeDecode paired blockBytes) where
  fresh := ⟨[], [], faithful.fresh, ⟨List.nil_prefix, Nat.le_of_eq refers.reset⟩, List.nil_prefix,
    Nat.le_of_eq refers.resetDecode⟩
  block := by
    rintro ⟨stream, source⟩ ⟨decode, target⟩ block capacity size
      ⟨last, lastDecode, pair, ⟨kept, inside⟩, keptDecode, insideDecode⟩ some_ input bound room
    obtain ⟨⟨stream', packedLast⟩, compressed, ⟨decode', unpackedLast⟩, packed, positive, bounded,
      unpacked, pair⟩ := faithful.block (stream, last) (decode, lastDecode) block capacity size pair
        some_ input bound room
    obtain ⟨packed, packedSame⟩ := blockwise_compressed packed
    obtain ⟨unpacked, unpackedSame⟩ := blockwise_decompressed unpacked
    rw [packedSame, unpackedSame] at pair
    have found := refers.compress stream source.other last block capacity (take_kept kept inside)
    have foundDecode := refers.decompress decode target.other lastDecode compressed size
      (take_kept keptDecode insideDecode)
    exact ⟨_, compressed, _, alternating_compresses (found.trans packed), positive, bounded,
      alternating_decompresses (foundDecode.trans unpacked), block, block, pair,
      ⟨Buffers.other_write_flip _ _, refers.next _ _ _ _ _ _ packed⟩,
      Buffers.other_write_flip _ _, refers.nextDecode _ _ _ _ _ _ unpacked⟩

end

/-- Calls that read nothing of the other buffer. -/
def ofBlocks (lz4 : Lz4) : Lz4Buffers where
  Stream := lz4.Stream
  StreamDecode := lz4.StreamDecode
  resetStream := lz4.resetStream
  setStreamDecode := lz4.setStreamDecode
  compressFastContinue := fun stream _ => lz4.compressFastContinue stream
  decompressSafeContinue := fun stream _ => lz4.decompressSafeContinue stream

theorem ofBlocks_refers (lz4 : Lz4) : (ofBlocks lz4).Refers (fun _ => 0) fun _ => 0 where
  compress := fun _ _ _ _ _ _ => rfl
  decompress := fun _ _ _ _ _ _ => rfl
  reset := rfl
  resetDecode := rfl
  next := fun _ _ _ _ _ _ _ => Nat.zero_le _
  nextDecode := fun _ _ _ _ _ _ _ => Nat.zero_le _

theorem ofBlocks_faithful {lz4 : Lz4} {paired : lz4.Stream → lz4.StreamDecode → Prop}
    (faithful : lz4.Faithful paired) :
    (ofBlocks lz4).blockwise.Faithful fun stream decode => paired stream.1 decode.1 where
  fresh := faithful.fresh
  block := by
    rintro ⟨stream, last⟩ ⟨decode, lastDecode⟩ block capacity size pair some_ input bound room
    obtain ⟨stream', compressed, decode', packed, positive, bounded, unpacked, pair⟩ :=
      faithful.block stream decode block capacity size pair some_ input bound room
    refine ⟨(stream', block), compressed, (decode', block), ?_, positive, bounded, ?_, pair⟩
    · simp only [blockwise, ofBlocks, packed]
    · simp only [blockwise, ofBlocks, unpacked]

end Lz4Buffers

namespace Compressor

/-- With their two buffers each, `compression` makes an image of any data, and `decompression`
makes the data of an image below 2 GiB. -/
theorem alternating_round_trip {b : Lz4Buffers} {dictSize : b.Stream → Nat}
    {dictSizeDecode : b.StreamDecode → Nat}
    {paired : b.blockwise.Stream → b.blockwise.StreamDecode → Prop}
    (refers : b.Refers dictSize dictSizeDecode) (faithful : b.blockwise.Faithful paired)
    {blockBytes : UInt16} (positive : 0 < blockBytes.toNat) {data : List UInt8} (some_ : data ≠ []) :
    ∃ image, compression (b.alternating blockBytes.toNat) data blockBytes = .ok image ∧
      (image.length < 2 ^ 31 →
        decompression (b.alternating blockBytes.toNat) image blockBytes = .ok (.ok data)) := by
  obtain ⟨image, compressed, _, decompressed⟩ := compression_round_trip
    (Lz4Buffers.alternating_faithful refers faithful blockBytes.toNat) positive some_
  exact ⟨image, compressed, decompressed⟩

theorem alternating_round_trip_literals :
    let blockBytes : UInt16 := 2
    let codec := (Lz4Buffers.ofBlocks .literals).alternating blockBytes.toNat
    ∃ image, compression codec [7, 8, 9, 10, 11] blockBytes = .ok image ∧
      decompression codec image blockBytes = .ok (.ok [7, 8, 9, 10, 11]) := by
  intro blockBytes codec
  have refers := Lz4Buffers.ofBlocks_refers .literals
  have faithful := Lz4Buffers.ofBlocks_faithful Lz4.literals_faithful
  obtain ⟨image, compressed, decompressed⟩ := @alternating_round_trip _ _ _ _ refers faithful
    blockBytes (by decide) [7, 8, 9, 10, 11] (List.cons_ne_nil _ _)
  have bounded := compression_length (Lz4Buffers.alternating_faithful refers faithful 2)
    (by decide) compressed
  exact ⟨image, compressed, decompressed (Nat.lt_of_le_of_lt bounded (by decide))⟩

end Compressor
end CppToolkit.Utilities
