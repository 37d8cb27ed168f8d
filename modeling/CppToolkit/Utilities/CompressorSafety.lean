import CppToolkit.Utilities.Compressor

/-! Which inputs the decompression loop reads without leaving its buffers. -/
namespace CppToolkit.Utilities.Compressor
open Words Memory

/-- From `index` on, the input is a run of whole blocks that LZ4 accepts. It ends
with the data, with a block that LZ4 rejects, or with a complete size that is not
positive; everything up to there lies below 2^31. -/
inductive Contained (lz4 : Lz4) (data : List UInt8) (blockBytes : UInt16) :
    Nat → lz4.StreamDecode → Prop
  | finished (stream) : Contained lz4 data blockBytes data.length stream
  | noOriginalSize {index stream} : index + 4 ≤ data.length → sizeAt data index ≤ 0 →
      Contained lz4 data blockBytes index stream
  | noCompressedSize {index stream} : 0 < sizeAt data index → index + 8 ≤ data.length →
      index + 4 < 2 ^ 31 → sizeAt data (index + 4) ≤ 0 →
      Contained lz4 data blockBytes index stream
  | rejected {index stream size stream'} : BlockAt data blockBytes index size →
      lz4.decompressSafeContinue stream (blockOf data index size) blockBytes.toNat =
        (stream', none) → Contained lz4 data blockBytes index stream
  | accepted {index stream size stream' decompressed} : BlockAt data blockBytes index size →
      lz4.decompressSafeContinue stream (blockOf data index size) blockBytes.toNat =
        (stream', some decompressed) →
      Contained lz4 data blockBytes (index + 8 + size) stream' →
      Contained lz4 data blockBytes index stream

section
variable {lz4 : Lz4} {data : List UInt8} {blockBytes : UInt16}

/-- The loop test compares a `size_t` difference, which is exact below the end. -/
theorem more_iff (small : data.length < 2 ^ 63) {index : Nat} (inside : index ≤ data.length) :
    subSize data.length index < 1 ↔ index = data.length := by
  rw [subSize_of_le inside (Nat.lt_trans small (by decide))]
  omega

/-- One turn of the loop, in both directions. -/
theorem contained_iff_turned (small : data.length < 2 ^ 63) {d : Decoder lz4}
    (inside : d.readIndex ≤ data.length) :
    Contained lz4 data blockBytes d.readIndex d.stream ↔
      decompressionTurn lz4 data blockBytes d = .ok none ∨
        ∃ next, decompressionTurn lz4 data blockBytes d = .ok (some next) ∧
          Contained lz4 data blockBytes next.readIndex next.stream := by
  have done := more_iff small inside
  constructor
  · intro contained
    by_cases finished : d.readIndex = data.length
    · exact .inl (decompressionTurn_of_turned (.finished (done.mpr finished)))
    have more := mt done.mp finished
    generalize index : d.readIndex = at_, stream : d.stream = from_ at contained
    cases contained with
    | finished => exact absurd index finished
    | noOriginalSize first stop =>
        subst index
        exact .inl (decompressionTurn_of_turned (.noOriginalSize more first stop))
    | noCompressedSize original second low stop =>
        subst index
        exact .inl (decompressionTurn_of_turned (.noCompressedSize more original second low stop))
    | rejected fits decoded =>
        subst index stream
        exact .inl (decompressionTurn_of_turned (.rejected more fits decoded))
    | accepted fits decoded rest =>
        subst index stream
        exact .inr ⟨_, decompressionTurn_of_turned (.accepted more fits decoded), rest⟩
  · rintro (turned | ⟨next, turned, rest⟩)
    · cases turned_of_decompressionTurn turned with
      | finished finished =>
          rw [done.mp finished]
          exact .finished _
      | noOriginalSize _ first stop => exact .noOriginalSize first stop
      | noCompressedSize _ original second low stop =>
          exact .noCompressedSize original second low stop
      | rejected _ fits decoded => exact .rejected fits decoded
    · cases turned_of_decompressionTurn turned with
      | accepted _ fits decoded => exact .accepted fits decoded rest

theorem turn_stays_inside {d next : Decoder lz4}
    (turned : decompressionTurn lz4 data blockBytes d = .ok (some next)) :
    next.readIndex ≤ data.length := by
  cases turned_of_decompressionTurn turned with
  | accepted _ fits _ => exact fits.inside

/-- Induction on the turns of the loop; the cursor never passes the end. -/
theorem decompressionLoop_contained_iff (small : data.length < 2 ^ 63) (d : Decoder lz4)
    (inside : d.readIndex ≤ data.length) :
    (∀ fault, decompressionLoop lz4 data blockBytes d ≠ .error fault) ↔
      Contained lz4 data blockBytes d.readIndex d.stream := by
  fun_induction decompressionLoop lz4 data blockBytes d with
  | case1 d fault turned =>
      rw [contained_iff_turned small inside, turned]
      constructor
      · intro safe
        exact absurd rfl (safe fault)
      · rintro (none | ⟨next, some, _⟩)
        · cases none
        · cases some
  | case2 d turned =>
      rw [contained_iff_turned small inside]
      exact ⟨fun _ => .inl turned, fun _ fault same => by cases same⟩
  | case3 d next turned ih =>
      rw [ih (turn_stays_inside turned), contained_iff_turned small inside, turned]
      constructor
      · intro rest
        exact .inr ⟨next, rfl, rest⟩
      · rintro (none | ⟨other, same, rest⟩)
        · cases none
        · cases same
          exact rest

end

/-- The decompressor stays inside its buffers and its cursor inside `int32_t` exactly
on the inputs that are contained from the first byte on. -/
theorem decompression_safe_iff (lz4 : Lz4) (compressedData : ByteVector) (blockBytes : UInt16) :
    (∀ fault, decompression lz4 compressedData.val blockBytes ≠ .error fault) ↔
      Contained lz4 compressedData.val blockBytes 0 lz4.setStreamDecode := by
  obtain ⟨data, small⟩ := compressedData
  by_cases empty : data = []
  · subst data
    refine ⟨fun _ => .finished _, ?_⟩
    intro _ fault same
    cases same
  rw [← decompressionLoop_contained_iff small ⟨0, lz4.setStreamDecode, []⟩ (Nat.zero_le _)]
  rw [decompression, if_neg empty]
  cases decompressionLoop lz4 data blockBytes ⟨0, lz4.setStreamDecode, []⟩ with
  | error fault =>
      constructor
      · intro safe
        exact absurd rfl (safe fault)
      · intro safe
        exact absurd rfl (safe fault)
  | ok out =>
      constructor
      · intro _ fault same
        cases same
      · intro _ fault same
        rw [ok_bind] at same
        split at same <;> cases same

/-- One byte is less than the size that the first turn reads. -/
theorem decompression_overreads :
    ¬ ∀ (lz4 : Lz4) (compressedData : ByteVector) (blockBytes : UInt16) (fault : Fault),
      decompression lz4 compressedData.val blockBytes ≠ .error fault := by
  intro safe
  apply safe .literals ⟨[1], by decide⟩ 1024 .readOutOfRange
  rw [decompression, decompressionLoop]
  rfl

end CppToolkit.Utilities.Compressor
