import CppToolkit.Utilities.Compressor

/-! What the compressor writes is what the decompressor reads back, block by block. -/
namespace CppToolkit.Utilities
open Words Memory

/-- The contract of the streaming calls: a compressor and a decompressor that have seen
the same blocks are `paired`; a block that the buffer bound allows is compressed to
something, and a decompressor paired with the compressor gives the block back. -/
structure Lz4.Faithful (lz4 : Lz4) (paired : lz4.Stream → lz4.StreamDecode → Prop) : Prop where
  fresh : paired lz4.resetStream lz4.setStreamDecode
  block : ∀ stream decode block capacity size, paired stream decode → block ≠ [] →
    block.length ≤ maxInputSize → compressBound block.length ≤ capacity → block.length ≤ size →
    ∃ stream' compressed decode',
      lz4.compressFastContinue stream block capacity = (stream', some compressed) ∧
      compressed ≠ [] ∧ compressed.length ≤ capacity ∧
      lz4.decompressSafeContinue decode compressed size = (decode', some block) ∧
      paired stream' decode'

theorem compressBound_mono {a b : Nat} (le : a ≤ b) (small : b ≤ maxInputSize) :
    compressBound a ≤ compressBound b := by
  have quotient : a / 255 ≤ b / 255 := Nat.div_le_div_right le
  rw [compressBound, compressBound, if_neg (by omega), if_neg (by omega)]
  omega

namespace Compressor

theorem sizeAt_append {v : Nat} (small : v < 2 ^ 31) (front back : List UInt8) :
    sizeAt (front ++ (leWord headerBytes v ++ back)) front.length = v := by
  have word : (leWord headerBytes v).length = headerBytes := leWord_length _ _
  have value : leValue (leWord headerBytes v) = v :=
    leValue_leWord (Nat.lt_trans small (by decide))
  rw [sizeAt, List.drop_left, List.take_left' word, value, toInt32_of_lt small]

/-- The bytes of one block: its two sizes and its compressed image. -/
def blockImage (size : Nat) (compressed : List UInt8) : List UInt8 :=
  leWord headerBytes size ++ (leWord headerBytes compressed.length ++ compressed)

theorem blockImage_length (size : Nat) (compressed : List UInt8) :
    (blockImage size compressed).length = 8 + compressed.length := by
  simp only [blockImage, List.length_append, leWord_length, headerBytes]
  omega

theorem blockAt_blockImage {front compressed back : List UInt8} {size : Nat} {blockBytes : UInt16}
    (nonempty : 0 < size) (positive : compressed ≠ [])
    (bounded : compressed.length ≤ compressBound blockBytes.toNat) (fits : size < 2 ^ 31)
    (small : (front ++ (blockImage size compressed ++ back)).length < 2 ^ 31) :
    BlockAt (front ++ (blockImage size compressed ++ back)) blockBytes front.length
      compressed.length := by
  have total : (front ++ (blockImage size compressed ++ back)).length =
      front.length + (8 + compressed.length) + back.length := by
    simp only [List.length_append, blockImage_length]
    omega
  refine ⟨?_, ?_, List.length_pos_iff.mpr positive, bounded, by omega, by omega⟩
  · rw [blockImage, List.append_assoc, sizeAt_append fits]
    exact Int.natCast_pos.mpr nonempty
  · have header : (front ++ leWord headerBytes size).length = front.length + 4 := by
      rw [List.length_append, leWord_length, headerBytes]
    rw [blockImage, List.append_assoc, List.append_assoc, ← List.append_assoc front, ← header]
    exact sizeAt_append (by omega) _ _

theorem blockOf_blockImage (front compressed back : List UInt8) (size : Nat) :
    blockOf (front ++ (blockImage size compressed ++ back)) front.length compressed.length =
      compressed := by
  have header : (front ++ (leWord headerBytes size ++ leWord headerBytes compressed.length)).length =
      front.length + 8 := by
    simp only [List.length_append, leWord_length, headerBytes]
  have regroup : front ++ (blockImage size compressed ++ back) =
      (front ++ (leWord headerBytes size ++ leWord headerBytes compressed.length)) ++
        (compressed ++ back) := by
    simp only [blockImage, List.append_assoc]
  rw [blockOf, regroup, List.drop_left' header, List.take_left' rfl]

theorem compressionLoop_nil (lz4 : Lz4) (blockBytes : Nat) (stream : lz4.Stream) :
    compressionLoop lz4 blockBytes stream [] = [] := by
  have nothing : inputBytes blockBytes ([] : List UInt8).length = 0 :=
    Nat.le_zero.mp (inputBytes_le _ _)
  rw [compressionLoop]
  exact if_pos nothing

theorem compressionLoop_block {lz4 : Lz4} {blockBytes : Nat} {stream stream' : lz4.Stream}
    {rest compressed : List UInt8} (taken : inputBytes blockBytes rest.length ≠ 0)
    (packed : lz4.compressFastContinue stream (rest.take (inputBytes blockBytes rest.length))
      (compressBound blockBytes) = (stream', some compressed)) :
    compressionLoop lz4 blockBytes stream rest =
      blockImage (inputBytes blockBytes rest.length) compressed ++
        compressionLoop lz4 blockBytes stream'
          (rest.drop (inputBytes blockBytes rest.length)) := by
  rw [compressionLoop]
  refine (if_neg taken).trans ?_
  rw [packed]
  simp only [blockImage, List.append_assoc]

theorem inputBytes_pos {blockBytes : Nat} (positive : 0 < blockBytes) {rest : List UInt8}
    (more : rest ≠ []) : 0 < inputBytes blockBytes rest.length := by
  have := List.length_pos_iff.mpr more
  unfold inputBytes
  split <;> omega

theorem inputBytes_le_block (blockBytes remaining : Nat) :
    inputBytes blockBytes remaining ≤ blockBytes := by
  unfold inputBytes
  split <;> omega

/-- The number of blocks that data is cut into. -/
def blockCount (blockBytes size : Nat) : Nat := (size + blockBytes - 1) / blockBytes

theorem blockCount_zero {blockBytes : Nat} (positive : 0 < blockBytes) :
    blockCount blockBytes 0 = 0 := by
  rw [blockCount, Nat.zero_add]
  exact Nat.div_eq_of_lt (Nat.sub_lt positive Nat.one_pos)

theorem blockCount_next {blockBytes size : Nat} (positive : 0 < blockBytes) (more : 0 < size) :
    blockCount blockBytes size = blockCount blockBytes (size - inputBytes blockBytes size) + 1 := by
  unfold inputBytes
  split
  next longer =>
    have last : size + blockBytes - 1 = size - blockBytes + blockBytes - 1 + blockBytes := by omega
    rw [blockCount, blockCount, last, Nat.add_div_right _ positive]
  next short =>
    have last : size + blockBytes - 1 = size - 1 + blockBytes := by omega
    rw [Nat.sub_self, blockCount_zero positive, blockCount, last, Nat.add_div_right _ positive,
      Nat.div_eq_of_lt (by omega)]

section
variable {lz4 : Lz4} {paired : lz4.Stream → lz4.StreamDecode → Prop}

/-- A block that is offered to a faithful codec, with both states after it. -/
theorem Faithful.offered (faithful : lz4.Faithful paired) {blockBytes : UInt16}
    (positive : 0 < blockBytes.toNat) {stream : lz4.Stream} {decode : lz4.StreamDecode}
    (pair : paired stream decode) {rest : List UInt8} (more : rest ≠ []) :
    ∃ stream' compressed decode',
      lz4.compressFastContinue stream (rest.take (inputBytes blockBytes.toNat rest.length))
        (compressBound blockBytes.toNat) = (stream', some compressed) ∧
      compressed ≠ [] ∧ compressed.length ≤ compressBound blockBytes.toNat ∧
      lz4.decompressSafeContinue decode compressed blockBytes.toNat =
        (decode', some (rest.take (inputBytes blockBytes.toNat rest.length))) ∧
      paired stream' decode' := by
  have bound := blockBytes.toNat_lt
  have length : (rest.take (inputBytes blockBytes.toNat rest.length)).length =
      inputBytes blockBytes.toNat rest.length := by
    rw [List.length_take]
    exact Nat.min_eq_left (inputBytes_le _ _)
  have small := inputBytes_le_block blockBytes.toNat rest.length
  have input : inputBytes blockBytes.toNat rest.length ≤ maxInputSize := by
    simp only [maxInputSize]
    omega
  refine faithful.block stream decode _ _ _ pair ?_ ?_ ?_ ?_
  · exact List.ne_nil_of_length_pos (by rw [length]; exact inputBytes_pos positive more)
  · rw [length]
    exact input
  · rw [length]
    exact compressBound_mono small (by simp only [maxInputSize]; omega)
  · rw [length]
    exact small

/-- Induction on the data still to compress: `front` is what both sides have behind
them, and their states are paired. -/
theorem decompressionLoop_image (faithful : lz4.Faithful paired) {blockBytes : UInt16}
    (positive : 0 < blockBytes.toNat) (rest front acc : List UInt8) {stream : lz4.Stream}
    {decode : lz4.StreamDecode} (pair : paired stream decode)
    (small : (front ++ compressionLoop lz4 blockBytes.toNat stream rest).length < 2 ^ 31) :
    decompressionLoop lz4 (front ++ compressionLoop lz4 blockBytes.toNat stream rest) blockBytes
      ⟨front.length, decode, acc⟩ = .ok (acc ++ rest) := by
  induction length : rest.length using Nat.strongRecOn generalizing rest front acc stream decode with
  | _ n ih =>
      subst n
      by_cases empty : rest = []
      · subst rest
        rw [compressionLoop_nil, List.append_nil] at small
        rw [compressionLoop_nil, List.append_nil, List.append_nil]
        refine decompressionLoop_stop (decompressionTurn_of_turned (.finished ?_))
        rw [subSize_of_le (Nat.le_refl _) (Nat.lt_trans small (by decide)), Nat.sub_self]
        exact Nat.one_pos
      obtain ⟨stream', compressed, decode', packed, positive', bounded, unpacked, next⟩ :=
        Faithful.offered faithful positive pair empty
      have taken := inputBytes_pos positive empty
      have image := compressionLoop_block (Nat.ne_of_gt taken) packed
      rw [image] at small ⊢
      have fits : inputBytes blockBytes.toNat rest.length < 2 ^ 31 := by
        have bound := blockBytes.toNat_lt
        have := inputBytes_le_block blockBytes.toNat rest.length
        omega
      have block := blockAt_blockImage taken positive' bounded fits small
      have more : ¬ subSize (front ++ (blockImage (inputBytes blockBytes.toNat rest.length)
          compressed ++ compressionLoop lz4 blockBytes.toNat stream'
            (rest.drop (inputBytes blockBytes.toNat rest.length)))).length front.length < 1 := by
        have inside := block.inside
        rw [subSize_of_le (by omega) (Nat.lt_trans small (by decide))]
        omega
      have turned := decompressionTurn_of_turned (.accepted
        (d := ⟨front.length, decode, acc⟩) more block
        (by rw [blockOf_blockImage]; exact unpacked))
      have length : (front ++ blockImage (inputBytes blockBytes.toNat rest.length) compressed).length =
          front.length + 8 + compressed.length := by
        rw [List.length_append, blockImage_length, Nat.add_assoc]
      have shorter : (rest.drop (inputBytes blockBytes.toNat rest.length)).length < rest.length := by
        rw [List.length_drop]
        have := List.length_pos_iff.mpr empty
        omega
      rw [decompressionLoop_next turned, ← List.append_assoc, ← length]
      rw [← List.append_assoc] at small
      rw [ih _ shorter _ _ _ next small rfl, List.append_assoc, List.take_append_drop]

/-- Non-empty data is compressed to an image, and an image below 2 GiB is
decompressed to the data. -/
theorem compression_round_trip (faithful : lz4.Faithful paired) {blockBytes : UInt16}
    (positive : 0 < blockBytes.toNat) {data : List UInt8} (nonempty : data ≠ []) :
    ∃ image, compression lz4 data blockBytes = .ok image ∧ image ≠ [] ∧
      (image.length < 2 ^ 31 → decompression lz4 image blockBytes = .ok (.ok data)) := by
  obtain ⟨stream', compressed, _, packed, positive', _⟩ :=
    Faithful.offered faithful positive faithful.fresh nonempty
  have first := compressionLoop_block (Nat.ne_of_gt (inputBytes_pos positive nonempty)) packed
  have some_ : compressionLoop lz4 blockBytes.toNat lz4.resetStream data ≠ [] := by
    intro nothing
    have size := congrArg List.length (first.symm.trans nothing)
    rw [List.length_append, blockImage_length, List.length_nil] at size
    omega
  refine ⟨_, ?_, some_, ?_⟩
  · rw [compression, if_neg nonempty]
    exact if_neg some_
  · intro small
    have looped := decompressionLoop_image faithful positive data [] [] faithful.fresh small
    rw [List.nil_append, List.length_nil, List.nil_append] at looped
    rw [decompression, if_neg some_, looped, ok_bind, if_neg nonempty]

/-- Each block of an image is its two sizes and what the codec makes of at most one block. -/
theorem compressionLoop_length (faithful : lz4.Faithful paired) {blockBytes : UInt16}
    (positive : 0 < blockBytes.toNat) (rest : List UInt8) {stream : lz4.Stream}
    {decode : lz4.StreamDecode} (pair : paired stream decode) :
    (compressionLoop lz4 blockBytes.toNat stream rest).length ≤
      blockCount blockBytes.toNat rest.length * (8 + compressBound blockBytes.toNat) := by
  induction length : rest.length using Nat.strongRecOn generalizing rest stream decode with
  | _ n ih =>
      subst n
      by_cases empty : rest = []
      · subst rest
        rw [compressionLoop_nil]
        exact Nat.zero_le _
      obtain ⟨stream', compressed, decode', packed, _, bounded, _, next⟩ :=
        Faithful.offered faithful positive pair empty
      have taken := inputBytes_pos positive empty
      have left : (rest.drop (inputBytes blockBytes.toNat rest.length)).length =
          rest.length - inputBytes blockBytes.toNat rest.length := List.length_drop
      have later := ih _ (by rw [left]; have := List.length_pos_iff.mpr empty; omega) _ next rfl
      rw [compressionLoop_block (Nat.ne_of_gt taken) packed, List.length_append, blockImage_length,
        blockCount_next positive (List.length_pos_iff.mpr empty), Nat.add_mul, Nat.one_mul,
        Nat.add_comm (_ * _), ← left]
      exact Nat.add_le_add (Nat.add_le_add_left bounded 8) later

theorem compression_length (faithful : lz4.Faithful paired) {blockBytes : UInt16}
    (positive : 0 < blockBytes.toNat) {data image : List UInt8}
    (compressed : compression lz4 data blockBytes = .ok image) :
    image.length ≤ blockCount blockBytes.toNat data.length * (8 + compressBound blockBytes.toNat) := by
  rw [compression] at compressed
  split at compressed
  next => cases compressed
  next =>
    dsimp only at compressed
    split at compressed
    next => cases compressed
    next =>
      cases compressed
      exact compressionLoop_length faithful positive data faithful.fresh

/-- The image of data that fits into one block is not much longer than a block. -/
theorem compression_single_length (faithful : lz4.Faithful paired) {blockBytes : UInt16}
    {data image : List UInt8} (nonempty : data ≠ []) (one : data.length ≤ blockBytes.toNat)
    (compressed : compression lz4 data blockBytes = .ok image) :
    image.length ≤ 8 + compressBound blockBytes.toNat := by
  have taken := List.length_pos_iff.mpr nonempty
  have positive : 0 < blockBytes.toNat := Nat.lt_of_lt_of_le taken one
  have whole : inputBytes blockBytes.toNat data.length = data.length := if_neg (Nat.not_lt.mpr one)
  have single : blockCount blockBytes.toNat data.length = 1 := by
    rw [blockCount_next positive taken, whole, Nat.sub_self, blockCount_zero positive]
  have bounded := compression_length faithful positive compressed
  rwa [single, Nat.one_mul] at bounded

end

end Compressor

namespace Lz4

theorem dropWhile_run (count : Nat) (last : UInt8) (block : List UInt8) (short : last ≠ 0xff) :
    (List.replicate count 0xff ++ (last :: block)).dropWhile (· = 0xff) = last :: block := by
  induction count with
  | zero => exact List.dropWhile_cons_of_neg (by simp [short])
  | succ count ih =>
      rw [List.replicate_succ, List.cons_append, List.dropWhile_cons_of_pos (by simp)]
      exact ih

/-- The stand-in codec satisfies the contract. -/
theorem literals_faithful : literals.Faithful fun _ _ => True where
  fresh := trivial
  block := by
    intro stream decode block capacity size _ nonempty input bound room
    have some_ := List.length_pos_iff.mpr nonempty
    rw [compressBound, if_neg (Nat.not_lt.mpr input)] at bound
    by_cases short : block.length < 15
    · have token : UInt8.ofNat (16 * block.length) ≠ 0xf0 := by
        intro same
        have value := congrArg UInt8.toNat same
        rw [UInt8.toNat_ofNat', Nat.mod_eq_of_lt (by omega)] at value
        simp at value
        omega
      refine ⟨(), UInt8.ofNat (16 * block.length) :: block, (), ?_, List.cons_ne_nil _ _, ?_, ?_,
        trivial⟩
      · simp [literals, short]
      · rw [List.length_cons]
        omega
      · generalize UInt8.ofNat (16 * block.length) = first at token
        simp [literals, token, nonempty]
    · have last : UInt8.ofNat ((block.length - 15) % 255) ≠ 0xff := by
        intro same
        have value := congrArg UInt8.toNat same
        have less := Nat.mod_lt (block.length - 15) (show 0 < 255 by decide)
        rw [UInt8.toNat_ofNat', Nat.mod_eq_of_lt (by omega)] at value
        simp at value
        omega
      refine ⟨(), 0xf0 :: (List.replicate ((block.length - 15) / 255) 0xff ++
        (UInt8.ofNat ((block.length - 15) % 255) :: block)), (), ?_, List.cons_ne_nil _ _, ?_, ?_,
        trivial⟩
      · simp [literals, short]
      · simp only [List.length_cons, List.length_append, List.length_replicate]
        omega
      · simp [literals, dropWhile_run _ _ _ last, nonempty]

end Lz4
end CppToolkit.Utilities
