import CppToolkit.Network.NetworkClient
import CppToolkit.Network.NetworkSession
import CppToolkit.Network.Authentication
import CppToolkit.Network.PipelineRoundTrip
import CppToolkit.Utilities.CombinerCalls

/-! Binaries and messages between `send_binary` or `send_message` on one peer and the callback of
the application on the other. -/
namespace CppToolkit.Network
open Memory Utilities

section
variable {P : Type} {peer : P → Peer} {withPeer : P → Peer → P} {expire : P → Handling P Effect}
  {message : String} {body : Peer → Checked (Handling Peer Effect)} {s : P}

theorem confirmedOnly_of_confirmed (confirmed : (peer s).condition = .confirmed) :
    confirmedOnly peer withPeer expire message body s =
      (body (peer s)).map (Handling.map (withPeer s)) :=
  if_neg fun stranger => stranger confirmed

/-- Only the body behind the guard calls the application. -/
theorem confirmedOnly_application {h : Handling P Effect} {e : Effect}
    (silent : ∀ e ∈ (expire s).effects, e.application = false)
    (handled : confirmedOnly peer withPeer expire message body s = .ok h) (called : e ∈ h.effects)
    (application : e.application = true) :
    ∃ inner, body (peer s) = .ok inner ∧ e ∈ inner.effects := by
  rcases confirmedOnly_cases handled with ⟨_, rfl⟩ | ⟨_, inner, bodily, rfl⟩
  · rw [Handling.andThen_nothing _ fun _ => rfl] at called
    rw [silent e called] at application
    cases application
  · exact ⟨inner, bodily, called⟩

end

theorem NetworkClient.setCondition_application (c : NetworkClient)
    (newCondition : ConnectConditions) (byItself : Bool) :
    ∀ e ∈ (c.setCondition newCondition byItself).effects, e.application = false := by
  unfold setCondition DataHandler.setCondition
  split
  next => exact fun e member => by cases member
  next =>
    dsimp only
    split
    next =>
      unfold disconnected
      dsimp only
      split
      next => exact fun e member => by cases member
      next =>
        rw [Handling.andThen_nothing _ fun _ => rfl]
        intro e member
        rw [List.mem_singleton.mp member]
        rfl
    next => exact fun e member => by cases member

/-- The handler calls the binary callback of the application. -/
def CallsBinary {P : Type} (handled : Checked (Handling P Effect)) : Prop :=
  ∃ h, handled = .ok h ∧
    ∃ caller message binary, Effect.binaryCallback caller message binary ∈ h.effects

/-- What a handler that calls the binary callback has divided off. -/
theorem Peer.handleBinary_calls {caller : Caller} {p : Peer} {data : List UInt8}
    {h : Handling Peer Effect} {e : Effect} (handled : p.handleBinary caller data = .ok h)
    (called : e ∈ h.effects) :
    ∃ message index binary next, Combiner.divide data 0 = .ok (message, index) ∧
      Combiner.divide data index = .ok (binary, next) ∧ binary ≠ [] := by
  unfold Peer.handleBinary at handled
  split at handled
  next =>
    cases handled
    cases called
  next =>
    obtain ⟨⟨message, index⟩, first, handled⟩ := bind_eq_ok.mp handled
    obtain ⟨⟨binary, next⟩, second, handled⟩ := bind_eq_ok.mp handled
    dsimp only at second handled
    split at handled
    next =>
      cases handled
      cases called
    next some_ => exact ⟨message, index, binary, next, first, second, some_⟩

theorem NetworkSession.receivedBinary_calls {w : World} {s : NetworkSession} {data : List UInt8}
    (calls : CallsBinary (s.receivedBinary w data)) :
    ∃ message index binary next, Combiner.divide data 0 = .ok (message, index) ∧
      Combiner.divide data index = .ok (binary, next) ∧ binary ≠ [] := by
  obtain ⟨h, handled, caller, message, binary, called⟩ := calls
  unfold receivedBinary expireFirst at handled
  obtain ⟨inner, handled, called⟩ :=
    confirmedOnly_application (s.setCondition_inert w .expired false).effects handled called rfl
  exact Peer.handleBinary_calls handled called

theorem NetworkClient.receivedBinary_calls {c : NetworkClient} {data : List UInt8}
    (calls : CallsBinary (c.receivedBinary data)) :
    ∃ message index binary next, Combiner.divide data 0 = .ok (message, index) ∧
      Combiner.divide data index = .ok (binary, next) ∧ binary ≠ [] := by
  obtain ⟨h, handled, caller, message, binary, called⟩ := calls
  unfold receivedBinary expireFirst at handled
  obtain ⟨inner, handled, called⟩ :=
    confirmedOnly_application (c.setCondition_application .expired false) handled called rfl
  exact Peer.handleBinary_calls handled called

/-- A confirmed session with the callbacks of the application set. -/
def NetworkSession.answering : NetworkSession where
  toPeer := { Peer.connected with
    receivedBinaryCallback := some fun _ _ _ => done
    receivedMessageCallback := some fun _ _ => done }
  receivedConnectionCallback := none

/-- Whenever a handler calls the binary callback, the payload begins with what `append` makes of
the two vectors it has divided off. -/
def BeginsWithDecoded (data : List UInt8) : Prop :=
  ∀ message index binary next, Combiner.divide data 0 = .ok (message, index) →
    Combiner.divide data index = .ok (binary, next) →
    ((∃ w, ∃ s : NetworkSession, CallsBinary (s.receivedBinary w data)) ∨
      ∃ c : NetworkClient, CallsBinary (c.receivedBinary data)) →
    Combiner.append (Combiner.append [] message) binary <+: data

section
open Combiner

/-- A non-empty second vector comes from two fields at the head of the payload. -/
theorem prefix_of_divided {data message binary : List UInt8} {index next : Nat}
    (small : data.length < 2 ^ 63) (settled : Settled data)
    (first : divide data 0 = .ok (message, index)) (second : divide data index = .ok (binary, next))
    (some_ : binary ≠ []) : append (append [] message) binary <+: data := by
  have index_le : index ≤ data.length :=
    (reached_divide small settled (Nat.zero_le _) (reached_zero data) first).1
  have whole : Whole data index := by
    by_contra partly
    rw [divide_eq small index_le] at second
    split at second
    next => cases second
    next =>
      rw [fieldAt, if_neg partly] at second
      exact some_ (Prod.mk.inj (Except.ok.inj second)).1.symm
  have fits : 0 + 8 ≤ data.length := by
    have := whole.2
    omega
  have sized : ¬ Oversized data 0 := by
    intro oversized
    have idle := settled [] List.nil_prefix oversized
    have start : Idle data 0 := idle 0
    rw [divide_idle small (Nat.zero_le _) start, if_neg (by omega)] at first
    obtain ⟨_, rfl⟩ := Prod.mk.inj (Except.ok.inj first)
    exact (idle 1).1 whole
  have head := divide_takes_field small fits sized first
  have behind : ¬ Oversized data index := by
    intro oversized
    have := oversized.2
    have := whole.2
    omega
  have rest := divide_takes_field small (by have := whole.2; omega) behind second
  rw [append_eq, append_eq, List.nil_append]
  refine ⟨data.drop next, ?_⟩
  rw [List.append_assoc, ← rest.1, ← head.1]
  rfl

theorem beginsWithDecoded_of_settled {data : List UInt8} (small : data.length < 2 ^ 63)
    (settled : Settled data) : BeginsWithDecoded data := by
  intro message index binary next first second calls
  have divided : ∃ message index binary next, divide data 0 = .ok (message, index) ∧
      divide data index = .ok (binary, next) ∧ binary ≠ [] := by
    rcases calls with ⟨w, s, calls⟩ | ⟨c, calls⟩
    · exact s.receivedBinary_calls calls
    · exact c.receivedBinary_calls calls
  obtain ⟨_, _, _, _, first', second', some_⟩ := divided
  cases first.symm.trans first'
  cases second.symm.trans second'
  exact prefix_of_divided small settled first second some_

/-- Later calls stay empty behind an oversized word, and the payloads of which the application is
told begin with the two fields, if and only if no word that lies a multiple of eight bytes behind
an oversized one makes a field or leads past the range of `size_t`. -/
theorem resumes_iff (data : ByteVector) :
    NeverResumes data.val ∧ BeginsWithDecoded data.val ↔ Settled data.val := by
  constructor
  · intro held
    exact (neverResumes_iff data).mp held.1
  · intro settled
    exact ⟨(neverResumes_iff data).mpr settled, beginsWithDecoded_of_settled data.property settled⟩

/-- A word of 100 before a field of one byte: the second call returns the byte, and so does the
handler. -/
theorem resumes_behind_oversized :
    let data : List UInt8 := [100, 0, 0, 0, 0, 0, 0, 0, 1, 0, 0, 0, 0, 0, 0, 0, 7]
    ¬ NeverResumes data ∧ ¬ BeginsWithDecoded data := by
  intro data
  have first : divide data 0 = .ok ([], 8) := by decide +kernel
  have second : divide data 8 = .ok ([7], 17) := by decide +kernel
  constructor
  · intro never
    obtain ⟨_, next, calls⟩ := never 0 [] 0 rfl (by decide +kernel) 1
    rw [divideTimes_succ first (divideTimes_succ second divideTimes_zero)] at calls
    cases calls
  · intro begins
    have handled : ∃ h, NetworkSession.answering.toPeer.handleBinary (some ([], [])) data = .ok h ∧
        h.effects = [.binaryCallback (some ([], [])) [] [7]] := by
      rw [Peer.handleBinary, if_neg (by decide), first, ok_bind]
      dsimp only
      rw [second, ok_bind]
      exact ⟨_, rfl, rfl⟩
    obtain ⟨h, handled, effects⟩ := handled
    have called : CallsBinary (NetworkSession.answering.receivedBinary World.empty data) := by
      have body : NetworkSession.answering.receivedBinary World.empty data =
          (NetworkSession.answering.toPeer.handleBinary (some ([], [])) data).map
            (Handling.map fun p => { NetworkSession.answering with toPeer := p }) := rfl
      rw [body, handled]
      refine ⟨_, rfl, some ([], []), [], [7], ?_⟩
      rw [Handling.map, effects]
      exact List.mem_singleton.mpr rfl
    exact absurd (begins _ _ _ _ first second (.inl ⟨_, _, called⟩)) (by decide)

end

/-- Confirmed, with the callbacks of the application set. -/
def Peer.Answers (p : Peer) : Prop :=
  p.condition = .confirmed ∧ p.receivedBinaryCallback ≠ none ∧ p.receivedMessageCallback ≠ none

/-- Of this packet the receiving job makes a call of `received_data` in which every session and
every client that answers calls the application exactly once, as `called` says. -/
def Tells (packet : List UInt8) (called : Caller → Effect) : Prop :=
  ∃ mode data, receivingWork packet = .ok (.received mode data) ∧
    (∀ w, ∀ s : NetworkSession, s.toPeer.Answers →
      ∃ h, s.onReceivedData w mode data = .ok h ∧ h.effects = [called s.caller]) ∧
    ∀ w, ∀ c : NetworkClient, c.toPeer.Answers →
      ∃ h, c.onReceivedData w mode data = .ok h ∧ h.effects = [called none]

/-- Whenever `send_binary` succeeds, both strings reach the application as they are. -/
def BinaryVerbatim (message binary : List UInt8) : Prop :=
  ∀ (h : DataHandler) job, h.sendBinary binary message = .ok job →
    ∃ packet, job = .encryptMessage packet ∧
      Tells packet fun caller => .binaryCallback caller message binary

/-- Whenever `send_message` succeeds, the message reaches the application as it is. -/
def MessageVerbatim (message : List UInt8) : Prop :=
  ∀ (h : DataHandler) job, h.sendMessage message = .ok job →
    ∃ packet, job = .encryptMessage packet ∧
      Tells packet fun caller => .messageCallback caller message

section
variable {caller : Caller} {p : Peer} {data message binary : List UInt8} {index next : Nat}

/-- What a handler with the callback set makes of two fields. -/
theorem Peer.handleBinary_divided (answers : p.Answers)
    (first : Combiner.divide data 0 = .ok (message, index))
    (second : Combiner.divide data index = .ok (binary, next)) (some_ : data ≠ []) :
    ∃ h, p.handleBinary caller data = .ok h ∧ h.effects =
      if binary = [] then [] else [.binaryCallback caller (Converter.toString message) binary] := by
  obtain ⟨_, set, _⟩ := answers
  cases callback : p.receivedBinaryCallback with
  | none => exact absurd callback set
  | some callback' =>
      rw [Peer.handleBinary, if_neg some_, first, ok_bind]
      dsimp only
      rw [second, ok_bind]
      by_cases empty : binary = []
      · exact ⟨_, if_pos empty, (if_pos empty).symm⟩
      · simp only [if_neg empty, callback]
        exact ⟨_, rfl, rfl⟩

theorem Peer.handleMessage_answers (answers : p.Answers) (some_ : data ≠ []) :
    ∃ h, p.handleMessage caller data = .ok h ∧
      h.effects = [.messageCallback caller (Converter.toString data)] := by
  obtain ⟨_, _, set⟩ := answers
  cases callback : p.receivedMessageCallback with
  | none => exact absurd callback set
  | some callback' =>
      rw [Peer.handleMessage, if_neg some_]
      simp only [callback]
      exact ⟨_, rfl, rfl⟩

end

section
variable {w : World} {data : List UInt8} {called : Caller → Effect} {packet : List UInt8}

theorem NetworkSession.expireFirst_confirmed {s : NetworkSession} {what : String}
    {body : Peer → Checked (Handling Peer Effect)} (confirmed : s.condition = .confirmed) :
    s.expireFirst w what body =
      (body s.toPeer).map (Handling.map fun p => { s with toPeer := p }) := by
  unfold expireFirst
  exact confirmedOnly_of_confirmed confirmed

theorem NetworkClient.expireFirst_confirmed {c : NetworkClient} {what : String}
    {body : Peer → Checked (Handling Peer Effect)} (confirmed : c.condition = .confirmed) :
    c.expireFirst what body =
      (body c.toPeer).map (Handling.map fun p => { c with toPeer := p }) := by
  unfold expireFirst
  exact confirmedOnly_of_confirmed confirmed

theorem NetworkSession.answering_answers : answering.toPeer.Answers :=
  ⟨rfl, Option.some_ne_none _, Option.some_ne_none _⟩

/-- What both peers make of a packet of the application is decided by the handler they share. -/
theorem tells_of_handler {mode : DataModes} {what : String} {effects : Caller → List Effect}
    {body : Caller → Peer → Checked (Handling Peer Effect)}
    (work : receivingWork packet = .ok (.received mode.code data))
    (session : ∀ w, ∀ s : NetworkSession,
      s.onReceivedData w mode.code data = s.expireFirst w what (body s.caller))
    (client : ∀ w, ∀ c : NetworkClient, c.condition ≠ .expired →
      c.onReceivedData w mode.code data = c.expireFirst what (body none))
    (handled : ∀ caller, ∀ p : Peer, p.Answers →
      ∃ h, body caller p = .ok h ∧ h.effects = effects caller)
    (same : ∀ caller, effects caller = [called caller]) : Tells packet called := by
  refine ⟨mode.code, data, work, ?_, ?_⟩
  · intro w s answers
    obtain ⟨h, handled, told⟩ := handled s.caller s.toPeer answers
    rw [session, s.expireFirst_confirmed answers.1, handled]
    exact ⟨_, rfl, told.trans (same _)⟩
  · intro w c answers
    have live : c.condition ≠ .expired := by
      rw [answers.1]
      decide
    obtain ⟨h, handled, told⟩ := handled none c.toPeer answers
    rw [client w c live, c.expireFirst_confirmed answers.1, handled]
    exact ⟨_, rfl, told.trans (same _)⟩

theorem effects_of_tells {mode : DataModes} {what : String} {effects : Caller → List Effect}
    {body : Caller → Peer → Checked (Handling Peer Effect)}
    (work : receivingWork packet = .ok (.received mode.code data))
    (session : ∀ w, ∀ s : NetworkSession,
      s.onReceivedData w mode.code data = s.expireFirst w what (body s.caller))
    (handled : ∀ caller, ∀ p : Peer, p.Answers →
      ∃ h, body caller p = .ok h ∧ h.effects = effects caller)
    (tells : Tells packet called) : ∃ caller, effects caller = [called caller] := by
  let s := NetworkSession.answering
  have answers := NetworkSession.answering_answers
  obtain ⟨_, _, work', told, _⟩ := tells
  rw [work] at work'
  cases work'
  obtain ⟨h, taken, effects_⟩ := told World.empty s answers
  obtain ⟨inner, handled, inner_⟩ := handled s.caller s.toPeer answers
  rw [session, s.expireFirst_confirmed answers.1, handled] at taken
  cases taken
  exact ⟨s.caller, inner_.symm.trans effects_⟩

/-- The packet of a binary, at the receiving end. -/
theorem tells_binary {message binary : List UInt8}
    (fits : (DataHandler.packet .binary
      (Combiner.append (Combiner.append [] message) binary)).length < 2 ^ 63) :
    ∃ data, receivingWork (DataHandler.packet .binary
        (Combiner.append (Combiner.append [] message) binary)) =
        .ok (.received DataModes.binary.code data) ∧
      ∀ caller, ∀ p : Peer, p.Answers → ∃ h, p.handleBinary caller data = .ok h ∧ h.effects =
        if binary = [] then [] else [.binaryCallback caller (Converter.toString message) binary] := by
  have data_eq : Combiner.append (Combiner.append [] message) binary =
      Combiner.field message ++ Combiner.field binary := by
    rw [Combiner.append_eq, Combiner.append_eq, List.nil_append]
  rw [data_eq] at fits ⊢
  have some_ : Combiner.field message ++ Combiner.field binary ≠ [] :=
    List.append_ne_nil_of_left_ne_nil (Combiner.field_ne_nil _) _
  have inner : (Combiner.field message ++ Combiner.field binary).length < sizeMax := by
    rw [DataHandler.packet_eq, List.length_append, Combiner.field_length] at fits
    rw [Combiner.field_length] at fits
    exact lt_sizeMax (by omega)
  have first := Combiner.divide_field [] message (Combiner.field binary) inner
  have second := Combiner.divide_field (Combiner.field message) binary []
    (by rw [List.append_nil]; exact inner)
  rw [List.append_nil, Combiner.field_length] at second
  refine ⟨_, DataHandler.receivingWork_packet some_ fits, fun caller p answers => ?_⟩
  have index : ([] : List UInt8).length + 8 + message.length = 8 + message.length := by
    rw [List.length_nil, Nat.zero_add]
  rw [List.nil_append, index] at first
  exact Peer.handleBinary_divided answers first second some_

theorem tells_message {message : List UInt8} (some_ : message ≠ [])
    (fits : (DataHandler.packet .message message).length < 2 ^ 63) :
    receivingWork (DataHandler.packet .message message) =
        .ok (.received DataModes.message.code message) ∧
      ∀ caller, ∀ p : Peer, p.Answers → ∃ h, p.handleMessage caller message = .ok h ∧
        h.effects = [.messageCallback caller (Converter.toString message)] :=
  ⟨DataHandler.receivingWork_packet some_ fits, fun _ _ answers =>
    Peer.handleMessage_answers answers some_⟩

end

theorem sendBinary_job {h : DataHandler} {message binary : List UInt8} {job : Job}
    (sent : h.sendBinary binary message = .ok job) : job = .encryptMessage
      (DataHandler.packet .binary (Combiner.append (Combiner.append [] message) binary)) := by
  unfold DataHandler.sendBinary at sent
  split at sent
  next => cases sent
  next => exact (DataHandler.send_eq_ok sent).2

theorem sendMessage_job {h : DataHandler} {message : List UInt8} {job : Job}
    (sent : h.sendMessage message = .ok job) :
    message ≠ [] ∧ job = .encryptMessage (DataHandler.packet .message message) := by
  unfold DataHandler.sendMessage at sent
  split at sent
  next => cases sent
  next => exact DataHandler.send_eq_ok sent

theorem toString_eq_self_iff {value : List UInt8} :
    Converter.toString value = value ↔ ¬ Converter.hasByteOrderMark value := by
  constructor
  · intro same
    rw [← same]
    exact Converter.toString_plain value
  · exact Converter.toString_toArray

section
variable {message binary : List UInt8}

theorem binaryVerbatim_iff (fits : (DataHandler.packet .binary
      (Combiner.append (Combiner.append [] message) binary)).length < 2 ^ 63) :
    BinaryVerbatim message binary ↔ binary ≠ [] ∧ ¬ Converter.hasByteOrderMark message := by
  obtain ⟨data, work, handled⟩ := tells_binary fits
  constructor
  · intro verbatim
    have some_ : Combiner.append (Combiner.append [] message) binary ≠ [] := by
      rw [Combiner.append_eq]
      exact List.append_ne_nil_of_right_ne_nil _ (Combiner.field_ne_nil _)
    have sent : DataHandler.connected.sendBinary binary message = .ok (.encryptMessage
        (DataHandler.packet .binary (Combiner.append (Combiner.append [] message) binary))) :=
      (if_neg fun stranger => stranger rfl).trans (if_neg some_)
    obtain ⟨packet, same, tells⟩ := verbatim _ _ sent
    cases same
    obtain ⟨caller, told⟩ := effects_of_tells work (fun _ _ => rfl) handled tells
    split at told
    next => cases told
    next some_ =>
      injection (List.cons.inj told).1 with _ same
      exact ⟨some_, toString_eq_self_iff.mp same⟩
  · rintro ⟨some_, plain⟩ h job sent
    have client : ∀ (w : World) (c : NetworkClient), c.condition ≠ .expired →
        c.onReceivedData w DataModes.binary.code data =
          c.expireFirst "binary" fun p => p.handleBinary none data := fun _ _ live => if_neg live
    refine ⟨_, sendBinary_job sent, tells_of_handler work (fun _ _ => rfl) client handled ?_⟩
    intro caller
    rw [if_neg some_, toString_eq_self_iff.mpr plain]

theorem messageVerbatim_iff (fits : (DataHandler.packet .message message).length < 2 ^ 63) :
    MessageVerbatim message ↔ ¬ Converter.hasByteOrderMark message := by
  constructor
  · intro verbatim marked
    have some_ : message ≠ [] := by
      rintro rfl
      exact absurd marked (by decide)
    obtain ⟨work, handled⟩ := tells_message some_ fits
    have sent : DataHandler.connected.sendMessage message = .ok (.encryptMessage
        (DataHandler.packet .message message)) :=
      (if_neg fun stranger => stranger rfl).trans (if_neg some_)
    obtain ⟨packet, same, tells⟩ := verbatim _ _ sent
    cases same
    obtain ⟨caller, told⟩ := effects_of_tells work (fun _ _ => rfl) handled tells
    injection (List.cons.inj told).1 with _ same
    exact toString_eq_self_iff.mp same marked
  · intro plain h job sent
    obtain ⟨some_, rfl⟩ := sendMessage_job sent
    obtain ⟨work, handled⟩ := tells_message some_ fits
    have client : ∀ (w : World) (c : NetworkClient), c.condition ≠ .expired →
        c.onReceivedData w DataModes.message.code message =
          c.expireFirst "normal" fun p => p.handleMessage none message := fun _ _ live => if_neg live
    refine ⟨_, rfl, tells_of_handler work (fun _ _ => rfl) client handled ?_⟩
    intro caller
    rw [toString_eq_self_iff.mpr plain]

/-- What `send_binary` and `send_message` accept reaches the application unchanged if and only if
the message carries no byte order mark and the binary is not empty. -/
theorem accepted_verbatim_iff (fits : (DataHandler.packet .binary
      (Combiner.append (Combiner.append [] message) binary)).length < 2 ^ 63) :
    (BinaryVerbatim message binary ↔ binary ≠ [] ∧ ¬ Converter.hasByteOrderMark message) ∧
      (MessageVerbatim message ↔ ¬ Converter.hasByteOrderMark message) := by
  refine ⟨binaryVerbatim_iff fits, messageVerbatim_iff ?_⟩
  rw [DataHandler.packet_eq, Combiner.append_eq, Combiner.append_eq] at fits
  rw [DataHandler.packet_eq]
  simp only [List.length_append, List.length_nil, Combiner.field_length] at fits ⊢
  have codes : [DataModes.binary.code].length = [DataModes.message.code].length := rfl
  omega

/-- The one byte `A` as message and as binary. -/
theorem accepted_verbatim_iff_letter :
    BinaryVerbatim [65] [65] ∧ MessageVerbatim [65] := by
  have both := @accepted_verbatim_iff [65] [65] (by decide)
  exact ⟨both.1.mpr (by decide), both.2.mpr (by decide)⟩

/-- An empty binary, and a message that begins with a byte order mark. -/
theorem accepted_not_verbatim :
    ¬ BinaryVerbatim [65] [] ∧ ¬ BinaryVerbatim [0xef, 0xbb, 0xbf, 65] [65] ∧
      ¬ MessageVerbatim [0xef, 0xbb, 0xbf, 65] := by
  refine ⟨fun verbatim => ?_, fun verbatim => ?_, fun verbatim => ?_⟩
  · exact ((binaryVerbatim_iff (by decide)).mp verbatim).1 rfl
  · exact absurd ((binaryVerbatim_iff (by decide)).mp verbatim).2 (by decide)
  · exact absurd ((messageVerbatim_iff (by decide)).mp verbatim) (by decide)

end

end CppToolkit.Network
