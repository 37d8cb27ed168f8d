import CppToolkit.Network.Acceptance
import CppToolkit.Network.SessionNotices

/-! The handshake through the jobs of both peers: a packet that is not encrypted, what the session
makes of the request, and what the client makes of the answer. -/
namespace CppToolkit.Network
open Memory Utilities Bag Machine

/-- The job of a packet that a handler has pushed. -/
def Effect.sends : Effect → Option Job
  | .push (.compressMessage packet) => some (.compressMessage packet)
  | .push (.encryptMessage packet) => some (.encryptMessage packet)
  | _ => none

/-- No key is in use, so that `encrypt_message` and `decrypt_message` pass on what they get. -/
def DataHandler.Keyless (h : DataHandler) : Prop := h.encryptMode = true → h.key = [] ∨ h.iv = []

namespace Link

/-- Handlers that do the jobs at hand alike. -/
theorem step_congr {c : Codecs} {sender sender' receiver receiver' : DataHandler} {l : Link}
    (senders : ∀ job ∈ l.sending, sender.work c job = sender'.work c job)
    (receivers : ∀ job ∈ l.receiving, receiver.work c job = receiver'.work c job)
    (pool : receiver.threadPool = receiver'.threadPool) (a : Action) :
    l.step c sender receiver a = l.step c sender' receiver' a := by
  cases a with
  | sender position =>
      cases found : takeAt l.sending position with
      | none => simp only [step, found, Option.bind_none]
      | some taken =>
          simp only [step, found, Option.bind_some, workStep, senders _ (takeAt_mem found)]
  | deliver => simp only [step, DataHandler.push, pool]
  | receiver position =>
      cases found : takeAt l.receiving position with
      | none => simp only [step, found, Option.bind_none]
      | some taken =>
          simp only [step, found, Option.bind_some, workStep, receivers _ (takeAt_mem found)]

section
variable {c : Codecs} {sender receiver : DataHandler} {packet image data : List UInt8}
  {mode : DataModes} {n : Nat}

/-- From the second job on nothing of a packet is encrypted, and a receiver without a key does
not decrypt it. -/
theorem step_stage_plain (live : receiver.condition ≠ .expired)
    (pool : receiver.threadPool = some false) (keyless : receiver.Keyless) (some_ : packet ≠ [])
    (a : Action) :
    (stage packet packet image mode data (n + 1)).step c sender receiver a =
      (stage packet packet image mode data (n + 1)).step c sender.plain receiver.plain a := by
  have decrypts : receiver.work c (.decryptMessage packet) =
      receiver.plain.work c (.decryptMessage packet) := by
    have plainly : receiver.plain.Keyless := fun encrypted => (by cases encrypted)
    exact congrArg some ((Acceptance.decrypts_keyless live pool some_ keyless).trans
      (@Acceptance.decrypts_keyless c receiver.plain _ live pool some_ plainly).symm)
  refine step_congr ?_ ?_ (by exact rfl) a
  · match n with
    | 0 => exact List.forall_mem_singleton.mpr rfl
    | 1 => exact List.forall_mem_singleton.mpr rfl
    | 2 | 3 | 4 | 5 | n+6 => exact fun _ member => (by cases member)
  · match n with
    | 0 | 1 | 2 => exact fun _ member => (by cases member)
    | 3 => exact List.forall_mem_singleton.mpr rfl
    | 4 => exact List.forall_mem_singleton.mpr decrypts
    | 5 => exact List.forall_mem_singleton.mpr rfl
    | n+6 => exact fun _ member => (by cases member)

/-- The way of a packet that is not encrypted. -/
theorem carried_plain (live : sender.condition ≠ .expired) (connected : sender.socket ≠ none)
    (running : sender.threadPool = some false) (live' : receiver.condition ≠ .expired)
    (pool : receiver.threadPool = some false)
    {paired : c.lz4.Stream → c.lz4.StreamDecode → Prop} (faithful : c.lz4.Faithful paired)
    (some_ : data ≠ []) (fits : (DataHandler.packet mode data).length < 2 ^ 63)
    (small : ∀ image, Compressor.compression c.lz4 (DataHandler.packet mode data) blockBytes =
      .ok image → image.length < 2 ^ 31) :
    ∃ image, Carried c sender.plain receiver.plain (DataHandler.packet mode data)
      (DataHandler.packet mode data) image mode data := by
  have matched : Matched c sender.plain receiver.plain :=
    ⟨live, live', connected, running, pool, rfl, fun encrypted => (by cases encrypted)⟩
  obtain ⟨coded, image, carried, plain⟩ := matched.carried faithful mode some_ fits (by
    intro coded image encrypts compressed
    rw [Acceptance.encrypts_plain live running] at encrypts
    cases encrypts
    exact small image compressed)
  have same := plain rfl
  subst same
  exact ⟨image, carried⟩

end
end Link

/-- The text of the request of a client. -/
def NetworkClient.request (w : World) (k : NetworkClient) : List UInt8 :=
  w.serialize [("id", .string k.id), ("sub_id", .string k.subId),
    ("registered_key", .string k.registeredKey), ("condition", .bool true)]

/-- The session that has taken the request of the client. -/
def NetworkSession.greeted (w : World) (s : NetworkSession) (k : NetworkClient) : NetworkSession :=
  ({ s with id := cString k.id, condition := .confirmed } : NetworkSession).createKey w

/-- The client that has taken the answer of the session. -/
def NetworkClient.greeted (k : NetworkClient) (s : NetworkSession) : NetworkClient :=
  { Handshake.stored k s with condition := .confirmed }

section
variable {w : World} {s : NetworkSession} {k : NetworkClient}

theorem NetworkSession.start_waiting (w : World) (s : NetworkSession) (socketBufferSize : Nat) :
    s.start w (some true) socketBufferSize =
      { s with
        condition := .waiting
        bufferSize := socketBufferSize
        socket := some true
        threadPool := some false
        fileManager := { s.fileManager with threadPool := some false } } := by
  rw [start, setCondition_live w s (by decide)]
  dsimp only
  rw [setCondition_live w _ (by decide)]

theorem NetworkClient.start_connects (faithful : w.Faithful) (k : NetworkClient)
    (socketBufferSize : Nat) :
    k.start w true socketBufferSize =
      ({ k with
        condition := .waiting
        bufferSize := socketBufferSize
        socket := some true
        threadPool := some false
        fileManager := { k.fileManager with threadPool := some false } },
        [.push (.compressMessage (DataHandler.packet .connection (k.request w)))], true) := by
  have some_ : k.request w ≠ [] := faithful.serialize_ne_nil _
  rw [start, setCondition_live _ (by decide)]
  dsimp only
  rw [if_pos rfl, setCondition_live _ (by decide)]
  have sends : ∀ h : DataHandler, h.socket = some true → h.threadPool = some false →
      pushed (h.send .connection (k.request w)) =
        [.push (.compressMessage (DataHandler.packet .connection (k.request w)))] := by
    intro h socket pool
    rw [DataHandler.send, if_neg (by rw [socket]; exact Option.some_ne_none _),
      if_neg (by rw [pool]; exact Option.some_ne_none _), if_neg some_, if_pos rfl,
      DataHandler.push_running pool]
    rfl
  exact Prod.ext rfl (Prod.ext (sends _ rfl rfl) rfl)

/-- The session accepts the request, and pushes the answer. -/
theorem NetworkSession.receivedConnection_greets (faithful : w.Faithful)
    (waiting : s.condition = .waiting) (pool : s.threadPool = some false) (socket : s.socket ≠ none)
    (registered : cString k.registeredKey = s.registeredKey)
    (readable : ∃ message, w.parse (k.request w) = .ok message) :
    ∃ h, s.onReceivedData w DataModes.connection.code (k.request w) = .ok h ∧
      h.peer = s.greeted w k ∧
      h.effects = [.push (.receivedConnectionJob ((s.greeted w k).connectionMessage w true)),
        .push (.compressMessage
          (DataHandler.packet .connection ((s.greeted w k).connectionMessage w true)))] := by
  obtain ⟨message, parsed⟩ := readable
  have read := faithful.reads _ message parsed
  have id : message "id" = some (.string k.id) := by simp [read]
  have key : message "registered_key" = some (.string k.registeredKey) := by simp [read]
  have some_ : k.request w ≠ [] := faithful.serialize_ne_nil _
  have plain : Converter.toString (k.request w) = k.request w := faithful.plain _
  let named : NetworkSession := { s with id := cString k.id }
  let accepted : NetworkSession := { named with condition := .confirmed }
  have accepts : named.accepts (.string k.registeredKey) = true := decide_eq_true registered
  have answers : s.receivedConnection w (k.request w) = accepted.responseConnection w true := by
    rw [receivedConnection, if_neg (not_not_intro waiting), if_neg some_, plain, parsed]
    dsimp only
    rw [id]
    dsimp only
    rw [key]
    dsimp only
    rw [if_pos accepts, setCondition_live w _ (by decide)]
    rfl
  refine ⟨_, rfl, ?_⟩
  rw [answers, responseConnection_running (by exact pool)]
  refine ⟨rfl, ?_⟩
  have still : (s.greeted w k).threadPool = some false :=
    (createKey_threadPool w _).trans pool
  have open_ : (s.greeted w k).socket ≠ none := by
    rw [greeted, (Acceptance.createKey_base w _).2.2]
    exact socket
  have text : (s.greeted w k).connectionMessage w true ≠ [] := faithful.serialize_ne_nil _
  have sends : (s.greeted w k).toDataHandler.send .connection
      ((s.greeted w k).connectionMessage w true) = .ok (.compressMessage (DataHandler.packet
        .connection ((s.greeted w k).connectionMessage w true))) := by
    rw [DataHandler.send, if_neg open_, if_neg (by rw [still]; exact Option.some_ne_none _),
      if_neg text, if_pos rfl, DataHandler.push_running still]
  change _ :: pushed ((s.greeted w k).toDataHandler.send .connection
    ((s.greeted w k).connectionMessage w true)) = _
  rw [sends]
  rfl

/-- The end of a handshake that went well sends nothing and calls nothing but a job. -/
theorem NetworkClient.conclude_quiet {message : String → Option Json} {d : NetworkClient}
    (found : message "condition" = some (.bool true)) :
    ∀ e ∈ (d.conclude message).effects, e.sends = none ∧ e.application = false := by
  rw [conclude, found]
  dsimp only
  rw [setCondition_live d (by decide)]
  intro e member
  change e ∈ pushConnectionJob _ true at member
  unfold pushConnectionJob at member
  split at member
  next => cases member
  next =>
    cases pushes : DataHandler.push ({ d with condition := .confirmed } : NetworkClient).toDataHandler
        (.connectionJob true true) with
    | error what =>
        rw [pushes] at member
        cases member
    | ok job =>
        rw [pushes] at member
        rw [List.mem_singleton.mp member, DataHandler.push_eq_ok pushes]
        exact ⟨rfl, rfl⟩

/-- The client takes the answer, and only tells its application. -/
theorem NetworkClient.receivedConnection_greets (faithful : w.Faithful)
    (waiting : k.condition = .waiting)
    (readable : ∃ message, w.parse (s.connectionMessage w true) = .ok message) :
    ∃ h, k.onReceivedData w DataModes.connection.code (s.connectionMessage w true) = .ok h ∧
      h.peer = k.greeted s ∧ ∀ e ∈ h.effects, e.sends = none ∧ e.application = false := by
  obtain ⟨message, parsed⟩ := readable
  obtain ⟨found, peer⟩ := Handshake.receivedConnection_reads faithful waiting s true parsed
  have live : k.condition ≠ .expired := by
    rw [waiting]
    decide
  have some_ : s.connectionMessage w true ≠ [] := faithful.serialize_ne_nil _
  have plain : Converter.toString (s.connectionMessage w true) = s.connectionMessage w true :=
    faithful.plain _
  refine ⟨k.receivedConnection w (s.connectionMessage w true), if_neg live, ?_, ?_⟩
  · rw [peer, conclude, found]
    dsimp only
    rw [setCondition_live _ (by decide)]
    rfl
  · have read := faithful.reads _ message parsed
    rcases receivedConnection_cases waiting some_ (plain.symm ▸ parsed) with
      ⟨d, what, _, stops, missing⟩ | ⟨d, _, concludes, _⟩
    · refine absurd ⟨⟨s.id, ?_⟩, ⟨s.subId, ?_⟩, ?_, ?_, ?_⟩ missing <;> simp [read]
    · rw [concludes]
      exact conclude_quiet found

end
end CppToolkit.Network
