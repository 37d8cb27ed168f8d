import CppToolkit.Library.Hunt
import CppToolkit.Network.Framing

/-! The hunt of `read_start_code` for the start code, in a stream of arbitrary bytes. -/
namespace CppToolkit.Network
open Memory Hunt

namespace Reader
variable (disconnected : Bool → DataHandler → Handling DataHandler Job)

/-- All of the first `n` bytes are taken, and the length code is read next. -/
def ReadsLength (h : DataHandler) (jobs : List Job) (stream : List UInt8) (n : Nat) : Prop :=
  ∃ r, pump disconnected n (listening h jobs) (stream.take n) = .ok (r, []) ∧
    r.pending = .lengthCode

/-- The move to `read_length_code` comes exactly after `n` bytes. -/
def MovesAfter (h : DataHandler) (jobs : List Job) (stream : List UInt8) (n : Nat) : Prop :=
  ReadsLength disconnected h jobs stream n ∧ ∀ m < n, ¬ ReadsLength disconnected h jobs stream m

/-- The move comes exactly after the first position at which the last bytes are the code. -/
def FindsFirst (h : DataHandler) (jobs : List Job) (stream : List UInt8) : Prop :=
  ∀ n ≤ stream.length, MovesAfter disconnected h jobs stream n ↔ First h.startCodeTag stream n

variable {h : DataHandler} (opened : h.Open)

section
include opened

/-- One byte for a reader that has matched `m` bytes of the start code. -/
theorem receive_startCode (positive : 0 < h.bufferSize) (jobs : List Job) (m : Nat) (b : UInt8)
    (rest : List UInt8) :
    (stage h [] (.startCode m) jobs).receive disconnected (b :: rest) =
      .ok (some (if advance h.startCodeTag m b = startCodeSize then stage h [] .lengthCode jobs
        else stage h [] (.startCode (advance h.startCodeTag m b)) jobs, rest)) := by
  have one := receive_served disconnected h [] (.startCode m) jobs [b] rest (by simp) rfl positive
  rw [List.singleton_append] at one
  rw [one]
  by_cases same : h.startCodeTag[m]? = some b
  · rw [complete_startCode disconnected opened same, advance_of_eq same, readStartCode,
      guarded_stage disconnected opened, readLengthCode, guarded_stage disconnected opened]
    rfl
  · have live : (stage h [] (.startCode m) jobs).handler.condition ≠ .expired := opened.live
    have mismatch : [b].length ≠ 1 ∨ [b][0]? ≠ h.startCodeTag[m]? := .inr fun equal => same equal.symm
    have dropped : (stage h [] (.startCode m) jobs).complete disconnected [b] = listening h jobs := by
      rw [complete, if_neg live]
      exact (if_pos mismatch).trans (readStartCode_zero disconnected opened [] (.startCode m) jobs)
    rw [dropped, advance_of_ne same, if_neg (by decide)]
    rfl

/-- Where the hunt does not end, the reader still reads the start code. -/
theorem pump_hunting (positive : 0 < h.bufferSize) (jobs : List Job)
    (tag : h.startCodeTag.length = startCodeSize) {m : Nat} (partly : m < startCodeSize)
    {stream : List UInt8} (never : hunt h.startCodeTag m stream = none) :
    ∃ k, pump disconnected stream.length (stage h [] (.startCode m) jobs) stream =
      .ok (stage h [] (.startCode k) jobs, []) := by
  induction stream generalizing m with
  | nil => exact ⟨m, rfl⟩
  | cons b rest ih =>
      rw [hunt_cons (by rw [tag]; exact Nat.ne_of_lt partly), Option.map_eq_none_iff] at never
      have more : advance h.startCodeTag m b ≠ startCodeSize := by
        intro whole
        rw [whole, ← tag, hunt_matched] at never
        cases never
      have le := advance_le b (tag ▸ partly)
      rw [tag] at le
      rw [List.length_cons, pump, receive_startCode disconnected opened positive, if_neg more]
      exact ih (Nat.lt_of_le_of_ne le more) never

/-- Where the hunt ends with the last byte, the length code is read next. -/
theorem pump_found (positive : 0 < h.bufferSize) (jobs : List Job)
    (tag : h.startCodeTag.length = startCodeSize) {m : Nat} (partly : m < startCodeSize)
    {stream : List UInt8} (found : hunt h.startCodeTag m stream = some stream.length) :
    pump disconnected stream.length (stage h [] (.startCode m) jobs) stream =
      .ok (stage h [] .lengthCode jobs, []) := by
  induction stream generalizing m with
  | nil =>
      rw [hunt_end (by rw [tag]; exact Nat.ne_of_lt partly)] at found
      cases found
  | cons b rest ih =>
      rw [hunt_cons (by rw [tag]; exact Nat.ne_of_lt partly)] at found
      obtain ⟨n, later, length⟩ := Option.map_eq_some_iff.mp found
      obtain rfl : n = rest.length := Nat.succ.inj length
      rw [List.length_cons, pump, receive_startCode disconnected opened positive]
      by_cases whole : advance h.startCodeTag m b = startCodeSize
      · rw [whole, ← tag, hunt_matched] at later
        have nothing := List.length_eq_zero_iff.mp (Option.some.inj later).symm
        subst nothing
        rw [if_pos whole]
        rfl
      · have le := advance_le b (tag ▸ partly)
        rw [tag] at le
        rw [if_neg whole]
        exact ih (Nat.lt_of_le_of_ne le whole) later

/-- The reader moves on exactly where the hunt ends. -/
theorem movesAfter_iff (positive : 0 < h.bufferSize) (jobs : List Job)
    (tag : h.startCodeTag.length = startCodeSize) (stream : List UInt8) {n : Nat}
    (inside : n ≤ stream.length) :
    MovesAfter disconnected h jobs stream n ↔ hunt h.startCodeTag 0 stream = some n := by
  have hunting : ∀ k ≤ stream.length, hunt h.startCodeTag 0 (stream.take k) = none →
      ¬ ReadsLength disconnected h jobs stream k := by
    rintro k le never ⟨r, pumped, pending⟩
    obtain ⟨m, same⟩ := pump_hunting disconnected opened positive jobs tag (by decide) never
    rw [List.length_take_of_le le] at same
    cases same.symm.trans pumped
    cases pending
  have found : ∀ k ≤ stream.length, hunt h.startCodeTag 0 (stream.take k) = some k →
      ReadsLength disconnected h jobs stream k := by
    intro k le ends
    have length : (stream.take k).length = k := List.length_take_of_le le
    have same := pump_found disconnected opened positive jobs tag (by decide)
      (ends.trans (congrArg some length.symm))
    rw [length] at same
    exact ⟨_, same, rfl⟩
  constructor
  · rintro ⟨reads, first⟩
    cases ends : hunt h.startCodeTag 0 stream with
    | none => exact absurd reads (hunting n inside (by rw [hunt_take, ends]; rfl))
    | some k =>
        have le := (ends_of_hunt ends).1
        by_cases beyond : k ≤ n
        · by_contra other
          have below : k < n := Nat.lt_of_le_of_ne beyond fun same => other (congrArg some same)
          exact first k below (found k le (by simp [hunt_take, ends, Option.filter]))
        · exact absurd reads (hunting n inside (by simp [hunt_take, ends, Option.filter, beyond]))
  · intro ends
    refine ⟨found n inside (by simp [hunt_take, ends, Option.filter]), fun m below => ?_⟩
    apply hunting m (by omega)
    simp [hunt_take, ends, Option.filter, Nat.not_le.mpr below]

end

/-- Without a buffer no byte is read at all. -/
theorem not_readsLength_of_empty (empty : h.bufferSize = 0) (jobs : List Job) (stream : List UInt8)
    (n : Nat) : ¬ ReadsLength disconnected h jobs stream n := by
  rintro ⟨r, pumped, pending⟩
  cases n with
  | zero =>
      cases pumped
      cases pending
  | succ n =>
      cases stream with
      | nil =>
          cases pumped
          cases pending
      | cons b rest =>
          have overrun : (listening h jobs).receive disconnected ((b :: rest).take (n + 1)) =
              .error .writeOverrun := by
            apply if_pos
            change h.bufferSize < min 1 _
            rw [empty, List.take_succ_cons, List.length_cons]
            omega
          rw [pump, overrun] at pumped
          cases pumped

section
include opened

theorem findsFirst_iff (jobs : List Job) (tag : h.startCodeTag.length = startCodeSize)
    (stream : List UInt8) :
    FindsFirst disconnected h jobs stream ↔ ∀ n, First h.startCodeTag stream n →
      h.bufferSize ≠ 0 ∧ Pieces h.startCodeTag (stream.take (n - startCodeSize)) := by
  by_cases empty : h.bufferSize = 0
  · constructor
    · intro finds n first
      exact absurd ((finds n first.inside).mpr first).1
        (not_readsLength_of_empty disconnected empty jobs stream n)
    · intro never n _
      constructor
      · intro moves
        exact absurd moves.1 (not_readsLength_of_empty disconnected empty jobs stream n)
      · intro first
        exact absurd empty (never n first).1
  · have positive := Nat.pos_of_ne_zero empty
    have inside : FindsFirst disconnected h jobs stream ↔
        ∀ n, hunt h.startCodeTag 0 stream = some n ↔ First h.startCodeTag stream n := by
      constructor
      · intro finds n
        by_cases le : n ≤ stream.length
        · rw [← movesAfter_iff disconnected opened positive jobs tag stream le]
          exact finds n le
        · exact ⟨fun ends => absurd (ends_of_hunt ends).1 le, fun first => absurd first.inside le⟩
      · intro same n le
        rw [movesAfter_iff disconnected opened positive jobs tag stream le]
        exact same n
    rw [inside, hunt_first_iff, tag]
    constructor
    · intro pieces n first
      exact ⟨empty, pieces n first⟩
    · intro pieces n first
      exact (pieces n first).2

/-- For every stream, the reader moves to `read_length_code` exactly behind the first occurrence
of the start code if and only if what precedes that occurrence is pieces; for a given code, it
does so on every stream if and only if its four bytes are equal. -/
theorem startCode_first_iff (c1 c2 c3 c4 : UInt8) (jobs : List Job) :
    (∀ stream, FindsFirst disconnected (h.startCode c1 c2 c3 c4) jobs stream ↔
      ∀ n, First [c1, c2, c3, c4] stream n →
        h.bufferSize ≠ 0 ∧ Pieces [c1, c2, c3, c4] (stream.take (n - startCodeSize))) ∧
    ((∀ stream, FindsFirst disconnected (h.startCode c1 c2 c3 c4) jobs stream) ↔
      h.bufferSize ≠ 0 ∧ c1 = c2 ∧ c2 = c3 ∧ c3 = c4) := by
  have each : ∀ stream, FindsFirst disconnected (h.startCode c1 c2 c3 c4) jobs stream ↔
      ∀ n, First [c1, c2, c3, c4] stream n →
        h.bufferSize ≠ 0 ∧ Pieces [c1, c2, c3, c4] (stream.take (n - startCodeSize)) :=
    @findsFirst_iff disconnected (h.startCode c1 c2 c3 c4) ⟨opened.live, opened.connected⟩ jobs rfl
  have equal : (∃ c, [c1, c2, c3, c4] = List.replicate startCodeSize c) ↔
      c1 = c2 ∧ c2 = c3 ∧ c3 = c4 := by
    constructor
    · rintro ⟨c, same⟩
      cases same
      exact ⟨rfl, rfl, rfl⟩
    · rintro ⟨rfl, rfl, rfl⟩
      exact ⟨_, rfl⟩
  have always := @hunt_always_iff _ _ [c1, c2, c3, c4] (List.cons_ne_nil _ _)
  refine ⟨each, ?_⟩
  rw [← equal, forall_congr' each]
  constructor
  · intro all
    obtain ⟨n, _, first⟩ := exists_first_of_suffix (List.suffix_refl [c1, c2, c3, c4])
    exact ⟨(all _ n first).1, always.mp fun stream =>
      hunt_first_iff.mpr fun n first => (all stream n first).2⟩
  · rintro ⟨some_, repeats⟩ stream n first
    exact ⟨some_, hunt_first_iff.mp (always.mpr repeats stream) n first⟩

end

/-- The default code behind one byte of it and another byte. -/
theorem startCode_first_iff_default :
    FindsFirst (fun _ h => ⟨h, [], done⟩) (DataHandler.connected.startCode 253 253 253 253) []
      [253, 7, 253, 253, 253, 253] :=
  (@startCode_first_iff _ DataHandler.connected ⟨by decide, rfl⟩ 253 253 253 253 []).2.mpr
    ⟨by decide, rfl, rfl, rfl⟩ _

/-- The code 1, 2, 3, 4 behind another 1. -/
theorem startCode_not_first :
    ¬ FindsFirst (fun _ h => ⟨h, [], done⟩) (DataHandler.connected.startCode 1 2 3 4) []
      [1, 1, 2, 3, 4] := by
  intro finds
  have first : First [(1 : UInt8), 2, 3, 4] [1, 1, 2, 3, 4] 5 :=
    ⟨by decide, by decide, by decide⟩
  have ends := (movesAfter_iff (fun _ h => ⟨h, [], done⟩)
    (h := DataHandler.connected.startCode 1 2 3 4) ⟨by decide, rfl⟩ (by decide) [] rfl [1, 1, 2, 3, 4]
    (by decide)).mp ((finds 5 (by decide)).mpr first)
  revert ends
  decide

end Reader
end CppToolkit.Network
