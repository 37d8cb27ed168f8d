import CppToolkit.Utilities.CompressorRoundTrip
import CppToolkit.Utilities.CompressorSafety
import CppToolkit.Utilities.File

/-! Which inputs the decompressor takes for a whole stream, and what it makes of a file. -/
namespace CppToolkit.Utilities.Compressor
open Words Memory

/-- Nothing but blocks, each of them decoded to as many bytes as it states, and all that they
decode to. -/
inductive Complete (lz4 : Lz4) (blockBytes : UInt16) :
    lz4.StreamDecode → List UInt8 → List UInt8 → Prop
  | nil (stream) : Complete lz4 blockBytes stream [] []
  | block {stream stream' compressed original rest value} : original ≠ [] → compressed ≠ [] →
      original.length < 2 ^ 31 → compressed.length < 2 ^ 31 →
      lz4.decompressSafeContinue stream compressed blockBytes.toNat = (stream', some original) →
      Complete lz4 blockBytes stream' rest value →
      Complete lz4 blockBytes stream (blockImage original.length compressed ++ rest)
        (original ++ value)

/-- From `index` on the loop stops without a fault before it has decoded a byte. -/
inductive Barren (lz4 : Lz4) (data : List UInt8) (blockBytes : UInt16) :
    Nat → lz4.StreamDecode → Prop
  | finished (stream) : Barren lz4 data blockBytes data.length stream
  | noOriginalSize {index stream} : index + 4 ≤ data.length → sizeAt data index ≤ 0 →
      Barren lz4 data blockBytes index stream
  | noCompressedSize {index stream} : 0 < sizeAt data index → index + 8 ≤ data.length →
      index + 4 < 2 ^ 31 → sizeAt data (index + 4) ≤ 0 → Barren lz4 data blockBytes index stream
  | rejected {index stream size stream'} : BlockAt data blockBytes index size →
      lz4.decompressSafeContinue stream (blockOf data index size) blockBytes.toNat =
        (stream', none) → Barren lz4 data blockBytes index stream
  | empty {index stream size stream'} : BlockAt data blockBytes index size →
      lz4.decompressSafeContinue stream (blockOf data index size) blockBytes.toNat =
        (stream', some []) →
      Barren lz4 data blockBytes (index + 8 + size) stream' →
      Barren lz4 data blockBytes index stream

/-- What a decompressor owes its callers: a value only for a complete stream, `nullopt` for any
other, and no file with a part of the value in it. -/
structure Owed (lz4 : Lz4) (data : List UInt8) (blockBytes : UInt16) : Prop where
  value : ∀ value, decompression lz4 data blockBytes = .ok (.ok value) →
    Complete lz4 blockBytes lz4.setStreamDecode data value
  nullopt : (¬ ∃ value, Complete lz4 blockBytes lz4.setStreamDecode data value) →
    ∃ message, decompression lz4 data blockBytes = .ok (.error message)
  file : ∀ (fs : FileSystem) (path content : List UInt8), fs.Keeps → (fs.bytes path).val = data →
    (File.decompression lz4 fs path blockBytes).content = some content →
      Complete lz4 blockBytes lz4.setStreamDecode data content

section
variable {lz4 : Lz4} {data : List UInt8} {blockBytes : UInt16}

/-- The loop only adds to what has been decoded. -/
theorem loop_extends {d : Decoder lz4} {out : List UInt8}
    (returned : decompressionLoop lz4 data blockBytes d = .ok out) : d.decompressedData <+: out := by
  fun_induction decompressionLoop lz4 data blockBytes d with
  | case1 d fault turned => cases returned
  | case2 d turned =>
      cases returned
      exact List.prefix_rfl
  | case3 d next turned ih =>
      have rest := ih returned
      cases turned_of_decompressionTurn turned with
      | accepted _ _ _ => exact (List.prefix_append _ _).trans rest

/-- One turn of a loop that decodes nothing, in both directions. -/
theorem barren_iff_turned (small : data.length < 2 ^ 63) {d : Decoder lz4}
    (inside : d.readIndex ≤ data.length) :
    Barren lz4 data blockBytes d.readIndex d.stream ↔
      decompressionTurn lz4 data blockBytes d = .ok none ∨
        ∃ next, decompressionTurn lz4 data blockBytes d = .ok (some next) ∧
          next.decompressedData = d.decompressedData ∧
            Barren lz4 data blockBytes next.readIndex next.stream := by
  have done := more_iff small inside
  constructor
  · intro barren
    by_cases finished : d.readIndex = data.length
    · exact .inl (decompressionTurn_of_turned (.finished (done.mpr finished)))
    have more := mt done.mp finished
    generalize index : d.readIndex = at_, stream : d.stream = from_ at barren
    cases barren with
    | finished => exact absurd index finished
    | noOriginalSize first stop =>
        subst index
        exact .inl (decompressionTurn_of_turned (.noOriginalSize more first stop))
    | noCompressedSize original second low stop =>
        subst index
        exact .inl (decompressionTurn_of_turned (.noCompressedSize more original second low stop))
    | rejected fits decoded =>
        subst index stream
        exact .inl (decompressionTurn_of_turned (.rejected more fits decoded))
    | empty fits decoded rest =>
        subst index stream
        exact .inr ⟨_, decompressionTurn_of_turned (.accepted more fits decoded), List.append_nil _, rest⟩
  · rintro (turned | ⟨next, turned, nothing, rest⟩)
    · cases turned_of_decompressionTurn turned with
      | finished finished =>
          rw [done.mp finished]
          exact .finished _
      | noOriginalSize _ first stop => exact .noOriginalSize first stop
      | noCompressedSize _ original second low stop =>
          exact .noCompressedSize original second low stop
      | rejected _ fits decoded => exact .rejected fits decoded
    · cases turned_of_decompressionTurn turned with
      | accepted _ fits decoded =>
          cases List.append_right_eq_self.mp nothing
          exact .empty fits decoded rest

/-- Induction on the turns of the loop; the cursor never passes the end. -/
theorem barren_iff (small : data.length < 2 ^ 63) (d : Decoder lz4)
    (inside : d.readIndex ≤ data.length) :
    decompressionLoop lz4 data blockBytes d = .ok d.decompressedData ↔
      Barren lz4 data blockBytes d.readIndex d.stream := by
  fun_induction decompressionLoop lz4 data blockBytes d with
  | case1 d fault turned =>
      rw [barren_iff_turned small inside, turned]
      refine iff_of_false (fun same => (by cases same)) ?_
      rintro (none | ⟨next, some, _⟩)
      · cases none
      · cases some
  | case2 d turned => exact iff_of_true rfl ((barren_iff_turned small inside).mpr (.inl turned))
  | case3 d next turned ih =>
      have ih := ih (turn_stays_inside turned)
      rw [barren_iff_turned small inside, turned]
      constructor
      · intro returned
        have extends_ : d.decompressedData <+: next.decompressedData := by
          cases turned_of_decompressionTurn turned with
          | accepted _ _ _ => exact List.prefix_append _ _
        have nothing := (loop_extends returned).eq_of_length_le extends_.length_le
        rw [← nothing] at returned
        exact .inr ⟨next, rfl, nothing, ih.mp returned⟩
      · rintro (none | ⟨other, same, nothing, rest⟩)
        · cases none
        · cases same
          rw [← nothing]
          exact ih.mpr rest

theorem complete_nil {stream : lz4.StreamDecode} (complete : Complete lz4 blockBytes stream data []) :
    data = [] := by
  generalize none_ : ([] : List UInt8) = value at complete
  cases complete with
  | nil => rfl
  | block original _ _ _ _ _ => exact absurd (List.append_eq_nil_iff.mp none_.symm).1 original

/-- The stream of a single byte is one block. -/
theorem complete_single {stream : lz4.StreamDecode} {byte : UInt8}
    (complete : Complete lz4 blockBytes stream data [byte]) :
    ∃ compressed, data = blockImage 1 compressed := by
  generalize one : [byte] = value at complete
  cases complete with
  | nil => cases one
  | @block _ _ compressed original rest value positive _ _ _ _ rest_ =>
      cases original with
      | nil => exact absurd rfl positive
      | cons first more =>
          obtain ⟨_, nothing⟩ := List.cons.inj one
          obtain ⟨rfl, rfl⟩ := List.append_eq_nil_iff.mp nothing.symm
          rw [complete_nil rest_, List.append_nil]
          exact ⟨compressed, rfl⟩

/-- A turn at a block of a complete stream decodes it, if it ends without a fault. -/
theorem turn_block {front compressed original rest acc : List UInt8}
    {stream stream' : lz4.StreamDecode} {result : Option (Decoder lz4)} (positive : original ≠ [])
    (some_ : compressed ≠ []) (fits : original.length < 2 ^ 31) (fits' : compressed.length < 2 ^ 31)
    (decoded : lz4.decompressSafeContinue stream compressed blockBytes.toNat = (stream', some original))
    (small : (front ++ (blockImage original.length compressed ++ rest)).length < 2 ^ 63)
    (turned : decompressionTurn lz4 (front ++ (blockImage original.length compressed ++ rest))
      blockBytes ⟨front.length, stream, acc⟩ = .ok result) :
    result = some ⟨front.length + 8 + compressed.length, stream', acc ++ original⟩ := by
  have total : (front ++ (blockImage original.length compressed ++ rest)).length =
      front.length + (8 + compressed.length) + rest.length := by
    simp only [List.length_append, blockImage_length]
    omega
  have size : sizeAt (front ++ (blockImage original.length compressed ++ rest)) front.length =
      original.length := by
    rw [blockImage, List.append_assoc, sizeAt_append fits]
  have size' : sizeAt (front ++ (blockImage original.length compressed ++ rest)) (front.length + 4) =
      compressed.length := by
    have header : (front ++ leWord headerBytes original.length).length = front.length + 4 := by
      rw [List.length_append, leWord_length, headerBytes]
    rw [blockImage, List.append_assoc, List.append_assoc, ← List.append_assoc front, ← header]
    exact sizeAt_append fits' _ _
  have block := blockOf_blockImage front compressed rest original.length
  have pos := List.length_pos_iff.mpr positive
  have pos' := List.length_pos_iff.mpr some_
  have same : ∀ {n}, BlockAt (front ++ (blockImage original.length compressed ++ rest)) blockBytes
      front.length n → n = compressed.length := by
    intro n at_
    have value := at_.compressed.symm.trans size'
    exact Int.ofNat_inj.mp value
  cases turned_of_decompressionTurn turned with
  | finished finished =>
      have last := (more_iff small (show front.length ≤ _ by omega)).mp finished
      omega
  | noOriginalSize _ _ stop =>
      rw [size] at stop
      omega
  | noCompressedSize _ _ _ _ stop =>
      rw [size'] at stop
      omega
  | rejected _ at_ none_ =>
      cases same at_
      rw [block, decoded] at none_
      cases none_
  | accepted _ at_ decoded' =>
      cases same at_
      rw [block, decoded] at decoded'
      cases decoded'
      rfl

/-- What the loop returns for the rest of a complete stream is its value. -/
theorem loop_complete {front rest value acc out : List UInt8} {stream : lz4.StreamDecode}
    (complete : Complete lz4 blockBytes stream rest value)
    (small : (front ++ rest).length < 2 ^ 63)
    (returned : decompressionLoop lz4 (front ++ rest) blockBytes ⟨front.length, stream, acc⟩ = .ok out) :
    out = acc ++ value := by
  induction complete generalizing front acc with
  | nil stream =>
      rw [List.append_nil] at small returned
      have turned : decompressionTurn lz4 front blockBytes ⟨front.length, stream, acc⟩ = .ok none :=
        decompressionTurn_of_turned (.finished ((more_iff small (Nat.le_refl _)).mpr rfl))
      rw [decompressionLoop_stop turned] at returned
      rw [List.append_nil]
      exact (Except.ok.inj returned).symm
  | @block stream stream' compressed original rest value positive some_ fits fits' decoded _ ih =>
      cases turned : decompressionTurn lz4 (front ++ (blockImage original.length compressed ++ rest))
          blockBytes ⟨front.length, stream, acc⟩ with
      | error fault =>
          rw [decompressionLoop_fault turned] at returned
          cases returned
      | ok result =>
          have goes := turn_block positive some_ fits fits' decoded small turned
          rw [goes] at turned
          rw [decompressionLoop_next turned] at returned
          have length : (front ++ blockImage original.length compressed).length =
              front.length + 8 + compressed.length := by
            rw [List.length_append, blockImage_length, Nat.add_assoc]
          rw [← List.append_assoc] at small returned
          rw [← length] at returned
          rw [ih small returned, List.append_assoc]

/-- How `decompression` ends, by the loop. -/
theorem decompression_cases (lz4 : Lz4) (data : List UInt8) (blockBytes : UInt16) :
    (∃ fault, decompression lz4 data blockBytes = .error fault ∧
        decompressionLoop lz4 data blockBytes ⟨0, lz4.setStreamDecode, []⟩ = .error fault) ∨
      ((∃ message, decompression lz4 data blockBytes = .ok (.error message)) ∧
        (data = [] ∨
          decompressionLoop lz4 data blockBytes ⟨0, lz4.setStreamDecode, []⟩ = .ok [])) ∨
      ∃ value, decompression lz4 data blockBytes = .ok (.ok value) ∧ value ≠ [] ∧
        decompressionLoop lz4 data blockBytes ⟨0, lz4.setStreamDecode, []⟩ = .ok value := by
  unfold decompression
  split
  next empty => exact .inr (.inl ⟨⟨_, rfl⟩, .inl empty⟩)
  next =>
  cases returned : decompressionLoop lz4 data blockBytes ⟨0, lz4.setStreamDecode, []⟩ with
  | error fault => exact .inl ⟨fault, rfl, rfl⟩
  | ok value =>
      rw [ok_bind]
      split
      next nothing =>
        subst nothing
        exact .inr (.inl ⟨⟨_, rfl⟩, .inr rfl⟩)
      next some_ => exact .inr (.inr ⟨value, rfl, some_, rfl⟩)

/-- A value is what the loop has decoded. -/
theorem loop_of_returned {value : List UInt8}
    (returned : decompression lz4 data blockBytes = .ok (.ok value)) :
    decompressionLoop lz4 data blockBytes ⟨0, lz4.setStreamDecode, []⟩ = .ok value := by
  rcases decompression_cases lz4 data blockBytes with
    ⟨fault, failed, _⟩ | ⟨⟨message, failed⟩, _⟩ | ⟨other, same, _, looped⟩
  · cases failed.symm.trans returned
  · cases failed.symm.trans returned
  · cases same.symm.trans returned
    exact looped

/-- The value of a complete stream is what `decompression` returns, if it returns one. -/
theorem decompression_complete (small : data.length < 2 ^ 63) {value value' : List UInt8}
    (complete : Complete lz4 blockBytes lz4.setStreamDecode data value)
    (returned : decompression lz4 data blockBytes = .ok (.ok value')) : value' = value :=
  @loop_complete _ _ [] _ _ _ _ _ complete small (loop_of_returned returned)

theorem contained_of_returned (small : data.length < 2 ^ 63) {value : List UInt8}
    (returned : decompression lz4 data blockBytes = .ok (.ok value)) :
    Contained lz4 data blockBytes 0 lz4.setStreamDecode :=
  (decompressionLoop_contained_iff small ⟨0, lz4.setStreamDecode, []⟩ (Nat.zero_le _)).mp
    fun _ failed => by cases (loop_of_returned returned).symm.trans failed

/-- What a file holds that has been rewritten. -/
theorem file_content {fs : FileSystem} {path content : List UInt8}
    (rewritten : (File.decompression lz4 fs path blockBytes).content = some content) :
    ∃ value, decompression lz4 (fs.bytes path).val blockBytes = .ok (.ok value) ∧
      content = fs.stored 0 (File.writeBytes value) := by
  unfold File.decompression at rewritten
  split at rewritten
  next => cases rewritten
  next => cases rewritten
  next =>
  split at rewritten
  next => cases rewritten
  next => cases rewritten
  next value returned =>
  split at rewritten
  next => cases rewritten
  next => cases rewritten
  next => exact ⟨value, returned, (Option.some.inj rewritten).symm⟩

/-- A loop that decodes nothing has nothing to answer for. -/
theorem owed_of_barren (small : data.length < 2 ^ 63)
    (nothing : Barren lz4 data blockBytes 0 lz4.setStreamDecode) : Owed lz4 data blockBytes := by
  have looped := (barren_iff small ⟨0, lz4.setStreamDecode, []⟩ (Nat.zero_le _)).mpr nothing
  have refused : ∃ message, decompression lz4 data blockBytes = .ok (.error message) := by
    unfold decompression
    split
    next => exact ⟨_, rfl⟩
    next =>
      rw [looped, ok_bind, if_pos rfl]
      exact ⟨_, rfl⟩
  obtain ⟨message, refused⟩ := refused
  refine ⟨fun value returned => ?_, fun _ => ⟨message, refused⟩, ?_⟩
  · cases refused.symm.trans returned
  · rintro fs path content _ rfl rewritten
    obtain ⟨value, returned, _⟩ := file_content rewritten
    cases refused.symm.trans returned

theorem owed_of_complete (small : data.length < 2 ^ 63) {value : List UInt8}
    (complete : Complete lz4 blockBytes lz4.setStreamDecode data value)
    (limits : value.length < 2 ^ 32 ∨ ¬ Contained lz4 data blockBytes 0 lz4.setStreamDecode) :
    Owed lz4 data blockBytes := by
  refine ⟨fun other returned => ?_, fun not_ => absurd ⟨value, complete⟩ not_, ?_⟩
  · rw [decompression_complete small complete returned]
    exact complete
  · rintro fs path content keeps rfl rewritten
    obtain ⟨other, returned, rfl⟩ := file_content rewritten
    have short := limits.resolve_right fun leaves => leaves (contained_of_returned small returned)
    rw [decompression_complete small complete returned, keeps, File.writeBytes_eq_iff.mpr short]
    exact complete

/-- A file that can be opened shows that a value is shorter than 2^32 bytes. -/
theorem Owed.short (owed : Owed lz4 data blockBytes) (small : data.length < 2 ^ 63)
    {value : List UInt8} (returned : decompression lz4 data blockBytes = .ok (.ok value)) :
    value.length < 2 ^ 32 := by
  have rewritten : (File.decompression lz4 (.open_ fun _ => ⟨data, small⟩) [] blockBytes).content =
      some (File.writeBytes value) := by
    simp only [File.decompression, FileSystem.open_, returned]
  have complete := owed.file _ _ _ (fun _ _ => rfl) rfl rewritten
  exact File.writeBytes_eq_iff.mp (decompression_complete small complete returned).symm

end

/-- `decompression` returns a value only for a complete stream, and no file is replaced by less,
if and only if the loop stops before it has decoded a byte, or the stream is complete and
shorter than 2^32 bytes when decoded, or leads the loop out of its buffers. -/
theorem decompression_owed_iff (lz4 : Lz4) (compressedData : ByteVector) (blockBytes : UInt16) :
    Owed lz4 compressedData.val blockBytes ↔
      Barren lz4 compressedData.val blockBytes 0 lz4.setStreamDecode ∨
        ∃ value, Complete lz4 blockBytes lz4.setStreamDecode compressedData.val value ∧
          (value.length < 2 ^ 32 ∨
            ¬ Contained lz4 compressedData.val blockBytes 0 lz4.setStreamDecode) := by
  obtain ⟨data, small⟩ := compressedData
  have inside : 0 ≤ data.length := Nat.zero_le _
  constructor
  · intro owed
    rcases decompression_cases lz4 data blockBytes with
      ⟨fault, failed, looped⟩ | ⟨_, empty | looped⟩ | ⟨value, returned, _, _⟩
    · by_cases complete : ∃ value, Complete lz4 blockBytes lz4.setStreamDecode data value
      · obtain ⟨value, complete⟩ := complete
        refine .inr ⟨value, complete, .inr fun contained => ?_⟩
        exact (decompressionLoop_contained_iff small _ inside).mpr contained fault looped
      · obtain ⟨message, refused⟩ := owed.nullopt complete
        cases failed.symm.trans refused
    · subst empty
      exact .inl (.finished _)
    · exact .inl ((barren_iff small _ inside).mp looped)
    · exact .inr ⟨value, owed.value value returned, .inl (owed.short small returned)⟩
  · rintro (nothing | ⟨value, complete, limits⟩)
    · exact owed_of_barren small nothing
    · exact owed_of_complete small complete limits

/-- A whole block of the byte 7, and a header that is cut off by zeros. -/
def cutOff : List UInt8 := [1, 0, 0, 0, 2, 0, 0, 0, 16, 7, 0, 0, 0, 0]

theorem decompression_returns_prefix :
    ¬ ∀ (lz4 : Lz4) (compressedData : ByteVector) (blockBytes : UInt16),
      Owed lz4 compressedData.val blockBytes := by
  intro owed
  have first : decompressionTurn .literals cutOff 1024 ⟨0, (), []⟩ = .ok (some ⟨10, (), [7]⟩) := rfl
  have second : decompressionTurn .literals cutOff 1024 ⟨10, (), [7]⟩ = .ok none := rfl
  have looped := (decompressionLoop_next first).trans (decompressionLoop_stop second)
  have returned : decompression .literals cutOff 1024 = .ok (.ok [7]) := by
    rw [decompression, if_neg (show cutOff ≠ [] from List.cons_ne_nil _ _)]
    change (decompressionLoop .literals cutOff 1024 ⟨0, (), []⟩ >>= _) = _
    rw [looped]
    rfl
  obtain ⟨compressed, whole⟩ :=
    complete_single ((owed .literals ⟨cutOff, by decide⟩ 1024).value [7] returned)
  have size := congrArg List.length whole
  rw [blockImage_length] at size
  have size : compressed.length = 6 := (Nat.add_left_cancel size).symm
  have word := congrArg (fun bytes => bytes[4]?) whole
  rw [blockImage, size] at word
  change some (2 : UInt8) = some 6 at word
  exact absurd word (by decide)

end CppToolkit.Utilities.Compressor
