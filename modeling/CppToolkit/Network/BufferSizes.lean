import CppToolkit.Network.NetworkClient
import CppToolkit.Network.NetworkSession
import CppToolkit.Network.StartCodes

/-! The socket buffer size that a peer is started with, against what its reader asks for. -/
namespace CppToolkit.Network
open Memory Hunt

namespace Reader
variable (disconnected : Bool → DataHandler → Handling DataHandler Job)

/-- The reader has stopped, or its buffer is as large as in the beginning. -/
def Sized (size : Nat) (r : Reader) : Prop := r.pending = .none ∨ r.handler.bufferSize = size

section
variable {size : Nat} {r : Reader}

theorem sized_guarded {body : Reader} (sized : Sized size body) :
    Sized size (r.guarded disconnected body) := by
  unfold guarded
  split
  next => exact .inl rfl
  next =>
    split
    next => exact .inl rfl
    next => exact sized

theorem sized_readLengthCode (same : r.handler.bufferSize = size) :
    Sized size (r.readLengthCode disconnected) := sized_guarded disconnected (.inr same)

theorem sized_readStartCode (same : r.handler.bufferSize = size) (matchedIndex : Nat) :
    Sized size (r.readStartCode disconnected matchedIndex) := by
  apply sized_guarded
  split
  next => exact sized_readLengthCode disconnected same
  next => exact .inr same

theorem sized_readEndCode (same : r.handler.bufferSize = size) (matchedIndex : Nat) :
    Sized size (r.readEndCode disconnected matchedIndex) := by
  apply sized_guarded
  split
  next =>
    dsimp only
    apply sized_readStartCode
    exact same
  next => exact .inr same

theorem sized_readData (same : r.handler.bufferSize = size) (remained : Nat) :
    Sized size (r.readData disconnected remained) := by
  apply sized_guarded
  split
  next => exact sized_readEndCode disconnected same 0
  next => exact .inr same

/-- One case for each kind of read. -/
theorem sized_complete (sized : Sized size r) (bytes : List UInt8) :
    Sized size (r.complete disconnected bytes) := by
  unfold complete
  split
  next => exact .inl rfl
  next =>
    rcases sized with none | same
    · rw [none]
      exact .inl none
    split
    next none => exact .inl none
    next =>
      split
      next => exact sized_readStartCode disconnected same 0
      next => exact sized_readStartCode disconnected same _
    next =>
      split
      next => exact sized_readStartCode disconnected same 0
      next => exact sized_readData disconnected same _
    next =>
      split
      next =>
        split
        next => exact sized_readStartCode disconnected same 0
        next => exact @sized_readData disconnected size (r.collect bytes) same _
      next => exact @sized_readEndCode disconnected size (r.collect bytes) same 0
    next =>
      split
      next => exact sized_readStartCode disconnected same 0
      next => exact sized_readEndCode disconnected same _

theorem receive_rest {next : Reader} {stream rest : List UInt8}
    (received : r.receive disconnected stream = .ok (some (next, rest))) :
    rest = stream.drop r.request := by
  unfold receive at received
  split at received
  next => cases received
  next =>
    split at received
    next => cases received
    next =>
      split at received
      next => cases received
      next =>
        cases received
        rfl

theorem sized_receive {next : Reader} {stream rest : List UInt8} (sized : Sized size r)
    (received : r.receive disconnected stream = .ok (some (next, rest))) : Sized size next := by
  unfold receive at received
  split at received
  next => cases received
  next =>
    split at received
    next => cases received
    next =>
      split at received
      next => cases received
      next =>
        cases received
        exact sized_complete disconnected sized _

theorem sized_pump {fuel : Nat} {last : Reader} {stream rest : List UInt8} (sized : Sized size r)
    (pumped : pump disconnected fuel r stream = .ok (last, rest)) : Sized size last := by
  induction fuel generalizing r stream with
  | zero =>
      cases pumped
      exact sized
  | succ fuel ih =>
      rw [pump] at pumped
      split at pumped
      next => cases pumped
      next =>
        cases pumped
        exact sized
      next received => exact ih (sized_receive disconnected sized received) pumped

/-- A buffer that holds a length word holds whatever a read asks for. -/
theorem request_le (sized : Sized size r) (room : lengthSize ≤ size) :
    r.request ≤ r.handler.bufferSize := by
  rcases sized with none | same
  · rw [request, none]
    exact Nat.zero_le _
  · have eight : 8 ≤ r.handler.bufferSize := same ▸ room
    unfold request
    split
    next => exact Nat.zero_le _
    next => omega
    next => exact eight
    next =>
      split
      next => exact Nat.le_refl _
      next less => omega
    next => omega

end

/-- From the start on, whatever bytes arrive, no read asks for more than the buffer holds. -/
def Requests (h : DataHandler) : Prop :=
  ∀ jobs fuel stream r rest,
    pump disconnected fuel ((Reader.mk h .none jobs).readStartCode disconnected 0) stream =
      .ok (r, rest) → r.request ≤ r.handler.bufferSize

/-- For every declared length and every payload of that length, `read_data` comes to
`read_end_code` in reads that each take at least one byte, and takes just the payload. -/
def Drains (h : DataHandler) : Prop :=
  ∀ received pending jobs (data rest : List UInt8), data.length < sizeMax →
    ∃ received' pending', Reads disconnected
      ((stage h received pending jobs).readData disconnected data.length) (data ++ rest)
      ((stage h received' pending' jobs).readEndCode disconnected 0) rest

theorem requests_of_room {h : DataHandler} (room : lengthSize ≤ h.bufferSize) :
    Requests disconnected h := by
  intro jobs fuel stream r rest pumped
  have start : Sized h.bufferSize ((Reader.mk h .none jobs).readStartCode disconnected 0) :=
    sized_readStartCode disconnected rfl 0
  exact request_le (sized_pump disconnected start pumped) room

section
variable {h : DataHandler} (opened : h.Open)
include opened

/-- Behind the start code a length word is asked for, whatever the buffer holds. -/
theorem requests_iff (tag : h.startCodeTag.length = startCodeSize) :
    Requests disconnected h ↔ lengthSize ≤ h.bufferSize := by
  constructor
  · intro requests
    have start : (Reader.mk h .none []).readStartCode disconnected 0 = listening h [] :=
      readStartCode_zero disconnected opened h.receivedData .none []
    have first : 0 < h.bufferSize := by
      apply requests [] 0 [] (listening h []) []
      rw [start, pump]
    have found : hunt h.startCodeTag 0 h.startCodeTag = some h.startCodeTag.length := by
      have code := hunt_code h.startCodeTag []
      rw [List.append_nil] at code
      exact code
    have second := pump_found disconnected opened first [] tag (by decide) found
    apply requests [] h.startCodeTag.length h.startCodeTag (stage h [] .lengthCode []) []
    rw [start]
    exact second
  · exact requests_of_room disconnected

/-- An empty buffer never takes the first byte of a payload. -/
theorem drains_iff : Drains disconnected h ↔ 0 < h.bufferSize := by
  constructor
  · intro drains
    by_contra empty
    obtain ⟨received', pending', reads⟩ := drains [] .none [] [0] [] (by decide)
    have waiting : (stage h [] .none []).readData disconnected [(0 : UInt8)].length =
        stage h [] (.data 1) [] := readData_stage disconnected opened [] .none [] (by decide)
    rw [waiting] at reads
    generalize (stage h received' pending' []).readEndCode disconnected 0 = last at reads
    cases reads with
    | step received shorter _ =>
        have zero : h.bufferSize = 0 := Nat.eq_zero_of_not_pos empty
        have nothing : (stage h [] (.data 1) []).request = 0 :=
          (if_pos (zero ▸ Nat.zero_le _)).trans zero
        rw [receive_rest disconnected received, nothing] at shorter
        exact Nat.lt_irrefl _ shorter
  · intro positive received pending jobs data rest _
    obtain ⟨pending', reads⟩ :=
      reads_data_positive disconnected opened positive jobs rest data received pending
    exact ⟨_, pending', reads⟩

end

end Reader

/-- What a handler needs for its reader: requests that fit, and an end of every payload. -/
def DataHandler.ReadsSafely (h : DataHandler) : Prop :=
  ∀ disconnected, Reader.Requests disconnected h ∧ Reader.Drains disconnected h

theorem NetworkSession.start_open (w : World) (s : NetworkSession) (size : Nat) :
    (s.start w (some true) size).toDataHandler.Open ∧
      (s.start w (some true) size).bufferSize = size := by
  unfold start
  dsimp only
  rw [setCondition_live w s (by decide), setCondition_live w _ (by decide)]
  exact ⟨⟨by simp, rfl⟩, rfl⟩

theorem NetworkClient.start_open (w : World) (c : NetworkClient) (size : Nat) :
    (c.start w true size).1.toDataHandler.Open ∧ (c.start w true size).1.bufferSize = size := by
  unfold start
  dsimp only
  rw [if_pos rfl, setCondition_live _ (by decide), setCondition_live _ (by decide)]
  exact ⟨⟨by simp, rfl⟩, rfl⟩

/-- Every session and every client started with this buffer size reads safely. -/
def SafeBufferSize (size : Nat) : Prop :=
  (∀ w, ∀ s : NetworkSession, (s.start w (some true) size).toDataHandler.ReadsSafely) ∧
    ∀ w, ∀ c : NetworkClient, (c.start w true size).1.toDataHandler.ReadsSafely

theorem DataHandler.readsSafely_of_room {h : DataHandler} (opened : h.Open)
    (room : lengthSize ≤ h.bufferSize) : h.ReadsSafely := fun disconnected =>
  ⟨Reader.requests_of_room disconnected room,
    (Reader.drains_iff disconnected opened).mpr (Nat.lt_of_lt_of_le (by decide) room)⟩

/-- A session of a server, before its start. -/
def NetworkSession.fresh : NetworkSession where
  toPeer := { Peer.connected with toDataHandler := .initial }
  receivedConnectionCallback := none

theorem not_safe_of_short {size : Nat} (short : size < lengthSize) : ¬ SafeBufferSize size := by
  rintro ⟨safe, _⟩
  obtain ⟨opened, same⟩ := NetworkSession.fresh.start_open World.empty size
  have requests := (safe World.empty NetworkSession.fresh fun _ h => ⟨h, [], done⟩).1
  have room := (Reader.requests_iff _ opened rfl).mp requests
  rw [same] at room
  exact absurd room (Nat.not_le_of_lt short)

/-- The reader is safe exactly for buffers that hold a length word. -/
theorem safeBufferSize_iff (size : Nat) : SafeBufferSize size ↔ lengthSize ≤ size := by
  constructor
  · intro safe
    by_contra short
    exact not_safe_of_short (Nat.not_le.mp short) safe
  · intro room
    refine ⟨fun w s => ?_, fun w c => ?_⟩
    · obtain ⟨opened, same⟩ := s.start_open w size
      exact DataHandler.readsSafely_of_room opened (Nat.le_trans room (Nat.le_of_eq same.symm))
    · obtain ⟨opened, same⟩ := c.start_open w size
      exact DataHandler.readsSafely_of_room opened (Nat.le_trans room (Nat.le_of_eq same.symm))

/-- Four bytes hold a start code and no length word. -/
theorem bufferSize_of_four_unsafe : ¬ SafeBufferSize 4 := not_safe_of_short (by decide)

end CppToolkit.Network
