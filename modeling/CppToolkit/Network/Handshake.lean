import CppToolkit.Network.Authentication
import CppToolkit.Network.NetworkClient
import CppToolkit.Network.PipelineRoundTrip
import Mathlib.Data.List.TakeWhile

/-! One client and the session it connects to. Every handler runs as one step, and the
packets between the two arrive in any order. -/
namespace CppToolkit.Network
open Memory Utilities Bag Machine

/-- What the handshake relies on: the text of an object begins with a brace and is read
back as the object, no vector has 2^63 bytes, and a key is a text in base64. -/
structure World.Faithful (w : World) : Prop where
  opens : ∀ fields, ∃ rest, w.serialize fields = 123 :: rest
  fits : ∀ fields, (DataHandler.packet .connection (w.serialize fields)).length < 2 ^ 63
  reads : ∀ fields message, w.parse (w.serialize fields) = .ok message →
    ∀ name, message name = (fields.find? (·.1 = name)).map Prod.snd
  texts : ∀ n, 0 ∉ (w.createKey n).1 ∧ 0 ∉ (w.createKey n).2

theorem World.Faithful.plain {w : World} (faithful : w.Faithful) (fields : List (String × Json)) :
    Converter.toString (w.serialize fields) = w.serialize fields := by
  refine if_neg ?_
  obtain ⟨rest, opens⟩ := faithful.opens fields
  rw [opens]
  rintro ⟨more, same⟩
  cases same

theorem World.Faithful.serialize_ne_nil {w : World} (faithful : w.Faithful)
    (fields : List (String × Json)) : w.serialize fields ≠ [] := by
  obtain ⟨rest, opens⟩ := faithful.opens fields
  rw [opens]
  exact List.cons_ne_nil _ _

theorem cString_text {value : List UInt8} (text : 0 ∉ value) : cString value = value := by
  refine List.takeWhile_eq_self_iff.mpr ?_
  intro byte member
  exact decide_eq_true fun zero => text (zero ▸ member)

/-- What both sides have to agree on. -/
structure Keys where
  key : List UInt8
  iv : List UInt8
  encryptMode : Bool
  deriving DecidableEq, Repr

def DataHandler.keys (h : DataHandler) : Keys := ⟨h.key, h.iv, h.encryptMode⟩

/-- Key and IV have no zero byte. -/
def Keys.Texts (keys : Keys) : Prop := 0 ∉ keys.key ∧ 0 ∉ keys.iv

structure Handshake where
  session : NetworkSession
  client : NetworkClient
  toSession : List (List UInt8)
  toClient : List (List UInt8)

namespace Handshake

/-- Packets arrive, the connection is lost or stopped at one end, and the applications
send. `clientWaited` is the end of a `wait_stop`. -/
inductive Action where
  | toSession (position : Nat)
  | toClient (position : Nat)
  | sessionLost
  | sessionStop
  | sessionSend (mode : DataModes) (data : List UInt8)
  | clientLost
  | clientStop (awaited : Bool)
  | clientWaited
  | clientSend (mode : DataModes) (data : List UInt8)
  deriving DecidableEq, Repr

/-- The packets of the jobs that were pushed. -/
def packets (effects : List Effect) : List (List UInt8) := effects.filterMap Effect.packet

def bySession (h : Handshake) (handling : Handling NetworkSession Effect) : Handshake :=
  { h with session := handling.peer, toClient := h.toClient ++ packets handling.effects }

def byClient (h : Handshake) (handling : Handling NetworkClient Effect) : Handshake :=
  { h with client := handling.peer, toSession := h.toSession ++ packets handling.effects }

/-- `received_data` with what `ReceivingJob` found in the packet; a fault leaves no next
state. -/
def receive {P : Type} (packet : List UInt8) (peer : P)
    (receivedData : UInt8 → List UInt8 → Checked (Handling P Effect)) : Option (Handling P Effect) :=
  match receivingWork packet with
  | .ok (.received mode data) => (receivedData mode data).toOption
  | .ok _ => some ⟨peer, [], done⟩
  | .error _ => none

/-- `send_binary`, `send_message` and `send_files` test the condition first. -/
def applicationSend (h : DataHandler) (mode : DataModes) (data : List UInt8) :
    Option (List Effect) :=
  if h.condition = .confirmed ∧ mode ≠ .connection ∧ (DataHandler.packet mode data).length < 2 ^ 63
  then some (pushed (h.send mode data)) else none

def step (w : World) (h : Handshake) : Action → Option Handshake
  | .toSession position =>
      (takeAt h.toSession position).bind fun (packet, toSession) =>
        (receive packet h.session (h.session.onReceivedData w)).map
          { h with toSession }.bySession
  | .toClient position =>
      (takeAt h.toClient position).bind fun (packet, toClient) =>
        (receive packet h.client (h.client.onReceivedData w)).map { h with toClient }.byClient
  | .sessionLost => some (h.bySession (h.session.setCondition w .expired false))
  | .sessionStop => some (h.bySession (h.session.stop w))
  | .sessionSend mode data =>
      (applicationSend h.session.toDataHandler mode data).map fun effects =>
        h.bySession ⟨h.session, effects, done⟩
  | .clientLost => some (h.byClient (h.client.setCondition .expired false))
  | .clientStop awaited => some (h.byClient (h.client.stop awaited))
  | .clientWaited => some (h.byClient ⟨h.client.release, [], done⟩)
  | .clientSend mode data =>
      (applicationSend h.client.toDataHandler mode data).map fun effects =>
        h.byClient ⟨h.client, effects, done⟩

/-- Both sides have been started; the request is on its way. -/
def started (w : World) (session : NetworkSession) (connectedSocket : Option Bool)
    (socketBufferSize : Nat) (client : NetworkClient) (connects : Bool)
    (clientBufferSize : Nat) : Handshake :=
  let (client, request, _) := client.start w connects clientBufferSize
  ⟨session.start w connectedSocket socketBufferSize, client, packets request, []⟩

section
variable {w : World} {s : NetworkSession} {c : NetworkClient} {data packet : List UInt8}

theorem mem_packets {effects : List Effect} :
    packet ∈ packets effects ↔ ∃ e ∈ effects, e.packet = some packet := List.mem_filterMap

/-- What may be on its way to the client beside a session in this state. -/
inductive Sent (w : World) (s : NetworkSession) : List UInt8 → Prop
  | application {mode : DataModes} {data : List UInt8} : mode ≠ .connection → data ≠ [] →
      (DataHandler.packet mode data).length < 2 ^ 63 → Sent w s (DataHandler.packet mode data)
  | refusal (r : NetworkSession) :
      Sent w s (DataHandler.packet .connection (r.connectionMessage w false))
  | acceptance (r : NetworkSession) : r.keys.Texts →
      s.condition = .expired ∨ s.condition = .confirmed ∧ s.keys = r.keys →
      Sent w s (DataHandler.packet .connection (r.connectionMessage w true))

/-- A step of the session. What it sends is right, and what was sent stays so. -/
structure Onward (w : World) (s : NetworkSession) (h : Handling NetworkSession Effect) : Prop where
  texts : h.peer.keys.Texts
  condition : h.peer.condition = .expired ∨
    h.peer.condition = s.condition ∧ h.peer.keys = s.keys ∨
    s.condition = .waiting ∧ h.peer.condition = .confirmed
  sent : ∀ e ∈ h.effects, ∀ packet, e.packet = some packet → Sent w h.peer packet

theorem Sent.onward {h : Handling NetworkSession Effect} (onward : Onward w s h)
    (sent : Sent w s packet) : Sent w h.peer packet := by
  cases sent with
  | application other some_ fits => exact .application other some_ fits
  | refusal r => exact .refusal r
  | acceptance r texts fits =>
      refine .acceptance r texts ?_
      rcases onward.condition with expired | ⟨same, keys⟩ | ⟨waiting, _⟩
      · exact .inl expired
      · rwa [same, keys]
      · rw [waiting] at fits
        rcases fits with fits | ⟨fits, _⟩ <;> cases fits

theorem onward_silent {h : Handling NetworkSession Effect} (texts : s.keys.Texts)
    (base : h.peer.condition = s.condition ∧ h.peer.keys = s.keys)
    (silent : ∀ e ∈ h.effects, e.packet = none) : Onward w s h := by
  refine ⟨base.2 ▸ texts, .inr (.inl base), ?_⟩
  intro e member packet sent
  rw [silent e member] at sent
  cases sent

/-- An answer carries the keys that the session has afterwards. -/
structure Answered (w : World) (s : NetworkSession) (accepted : Bool)
    (h : Handling NetworkSession Effect) : Prop where
  condition : h.peer.condition = s.condition
  texts : h.peer.keys.Texts
  sent : ∀ e ∈ h.effects, ∀ packet, e.packet = some packet →
    packet = DataHandler.packet .connection (h.peer.connectionMessage w accepted)

theorem createKey_texts (faithful : w.Faithful) (texts : s.keys.Texts) :
    (s.createKey w).keys.Texts := by
  unfold NetworkSession.createKey
  split
  next => exact faithful.texts s.keysCreated
  next => exact texts

theorem responseConnection_answered (faithful : w.Faithful) (texts : s.keys.Texts)
    (accepted : Bool) : Answered w s accepted (s.responseConnection w accepted) := by
  have same := NetworkSession.createKey_condition w s
  have created := createKey_texts faithful texts
  have sent := fun e member packet (sent : e.packet = some packet) =>
    NetworkSession.responseConnection_packet w s accepted (e := e) member sent
  rw [← NetworkSession.responseConnection_peer w s accepted] at same created sent
  exact ⟨same, created, sent⟩

/-- The session is expired in the end and has sent nothing but refusals. -/
structure Refused (w : World) (h : Handling NetworkSession Effect) : Prop where
  expired : h.peer.condition = .expired ∧ h.peer.keys.Texts
  sent : ∀ e ∈ h.effects, ∀ packet, e.packet = some packet →
    ∃ r : NetworkSession, packet = DataHandler.packet .connection (r.connectionMessage w false)

theorem Refused.onward {h : Handling NetworkSession Effect} (refused : Refused w h) :
    Onward w s h := by
  refine ⟨refused.expired.2, .inl refused.expired.1, ?_⟩
  intro e member packet sent
  obtain ⟨r, rfl⟩ := refused.sent e member packet sent
  exact .refusal r

theorem Refused.andThen {h : Handling NetworkSession Effect}
    {next : NetworkSession → Handling NetworkSession Effect} (first : Refused w h)
    (rest : ∀ s : NetworkSession, s.condition = .expired ∧ s.keys.Texts → Refused w (next s)) :
    Refused w (h.andThen next) :=
  ⟨Handling.andThen_peer (I := fun s => s.condition = .expired ∧ s.keys.Texts) first.expired
      fun s expired => (rest s expired).expired,
    Handling.andThen_effects first.sent (rest _ first.expired).sent⟩

theorem refused_nothing (expired : s.condition = .expired ∧ s.keys.Texts) (reply : Reply) :
    Refused w ⟨s, [], reply⟩ := ⟨expired, fun _ member => (by cases member)⟩

theorem responseConnection_refused (faithful : w.Faithful)
    (expired : s.condition = .expired ∧ s.keys.Texts) :
    Refused w (s.responseConnection w false) := by
  have answered := responseConnection_answered faithful expired.2 false
  refine ⟨⟨answered.condition.trans expired.1, answered.texts⟩, ?_⟩
  intro e member packet sent
  exact ⟨_, answered.sent e member packet sent⟩

theorem setCondition_refused (faithful : w.Faithful) (texts : s.keys.Texts) (byItself : Bool) :
    Refused w (s.setCondition w .expired byItself) := by
  unfold NetworkSession.setCondition DataHandler.setCondition
  split
  next expired => exact refused_nothing ⟨expired, texts⟩ _
  next =>
    rw [if_pos rfl]
    have answer := @responseConnection_refused w { s with condition := .expired } faithful
      ⟨rfl, texts⟩
    refine answer.andThen ?_
    intro t expired
    exact refused_nothing expired _

theorem receivedConnection_onward (faithful : w.Faithful) (texts : s.keys.Texts)
    (data : List UInt8) : Onward w s (s.receivedConnection w data) := by
  have refuses : ∀ {t : NetworkSession} {reply : Reply}, t.condition = s.condition →
      t.keys = s.keys → Onward w s ⟨t, [], reply⟩ := fun same keys =>
    onward_silent texts ⟨same, keys⟩ fun _ member => (by cases member)
  unfold NetworkSession.receivedConnection
  split
  next => exact refuses rfl rfl
  next waiting =>
  split
  next => exact refuses rfl rfl
  next =>
  split
  next => exact refuses rfl rfl
  next message parsed =>
  split
  next => exact refuses rfl rfl
  next value named =>
    dsimp only
    split
    next => exact refuses rfl rfl
    next key found =>
      have waiting := Decidable.not_not.mp waiting
      split
      next accepted =>
        rw [NetworkSession.setCondition_live w { s with id := cString value } (by decide)]
        have answered := @responseConnection_answered w
          { s with id := cString value, condition := .confirmed } faithful texts true
        refine ⟨answered.texts, .inr (.inr ⟨waiting, answered.condition⟩), ?_⟩
        intro e member packet sent
        rw [answered.sent e member packet sent]
        exact .acceptance _ answered.texts (.inr ⟨answered.condition, rfl⟩)
      next =>
        have refused := @setCondition_refused w { s with id := cString value } faithful texts false
        refine Refused.onward (refused.andThen ?_)
        intro t expired
        exact responseConnection_refused faithful expired
  next => exact refuses rfl rfl

theorem expireFirst_onward (faithful : w.Faithful) (texts : s.keys.Texts) {what : String}
    {body : Peer → Checked (Handling Peer Effect)} {h : Handling NetworkSession Effect}
    (keeps : ∀ h, body s.toPeer = .ok h → s.toPeer.Kept h)
    (handled : s.expireFirst w what body = .ok h) : Onward w s h := by
  rcases confirmedOnly_cases handled with ⟨_, rfl⟩ | ⟨_, inner, ran, rfl⟩
  · refine Refused.onward ((setCondition_refused faithful texts false).andThen ?_)
    intro t expired
    exact refused_nothing expired _
  · have kept := keeps inner ran
    exact onward_silent texts ⟨kept.condition, congrArg DataHandler.keys kept.base⟩ kept.silent

theorem onReceivedData_onward (faithful : w.Faithful) (texts : s.keys.Texts) {mode : UInt8}
    {h : Handling NetworkSession Effect} (handled : s.onReceivedData w mode data = .ok h) :
    Onward w s h := by
  unfold NetworkSession.onReceivedData at handled
  split at handled
  next =>
    cases handled
    exact onward_silent texts ⟨rfl, rfl⟩ fun _ member => (by cases member)
  next =>
    cases handled
    exact receivedConnection_onward faithful texts data
  next => exact expireFirst_onward faithful texts (fun _ => Peer.handleBinary_kept) handled
  next => exact expireFirst_onward faithful texts (fun _ => Peer.handleMessage_kept) handled
  next => exact expireFirst_onward faithful texts (fun _ => Peer.handleFile_kept) handled

/-- A step of the client that may confirm it, but only with what it was `offered`. -/
def Joins (c : NetworkClient) (offered : Keys → Prop) (h : Handling NetworkClient Effect) : Prop :=
  h.peer.condition = .confirmed →
    c.condition = .confirmed ∧ h.peer.keys = c.keys ∨ offered h.peer.keys

theorem expired_joins {offered : Keys → Prop} {h : Handling NetworkClient Effect}
    (expired : h.peer.condition = .expired) : Joins c offered h := by
  intro confirmed
  rw [expired] at confirmed
  cases confirmed

theorem same_joins {offered : Keys → Prop} {h : Handling NetworkClient Effect}
    (base : h.peer.condition = c.condition ∧ h.peer.keys = c.keys) : Joins c offered h :=
  fun confirmed => .inl ⟨base.1 ▸ confirmed, base.2⟩

/-- The last field of an answer decides. -/
theorem conclude_confirmed {message : String → Option Json} {accepted : Bool}
    (found : message "condition" = some (.bool accepted)) (waiting : c.condition = .waiting)
    (confirmed : (c.conclude message).peer.condition = .confirmed) :
    accepted = true ∧ (c.conclude message).peer.keys = c.keys := by
  unfold NetworkClient.conclude at confirmed ⊢
  rw [found] at confirmed ⊢
  cases accepted with
  | true =>
      have fresh : c.condition ≠ .confirmed := by
        rw [waiting]
        decide
      refine ⟨rfl, ?_⟩
      dsimp only
      unfold NetworkClient.setCondition DataHandler.setCondition
      rw [if_neg fresh, if_neg (by decide)]
      rfl
  | false =>
      have expired := @Handling.andThen_peer _ _ (fun c : NetworkClient => c.condition = .expired)
        _ (fun c =>
          let c := { c with key := [], iv := [] }
          ⟨c, c.pushConnectionJob false, refuse "connection has expired by server"⟩)
        (c.setCondition_condition .expired false) fun _ same => same
      cases expired.symm.trans confirmed

/-- The client with what it has stored before it looks at the last field of an answer. -/
def stored (c : NetworkClient) (r : NetworkSession) : NetworkClient :=
  { c with
    serverId := r.id
    subId := cString r.subId
    key := cString r.key
    iv := cString r.iv
    encryptMode := r.encryptMode }

/-- The client reads the fields of an answer as the session wrote them. -/
theorem receivedConnection_reads (faithful : w.Faithful) (waiting : c.condition = .waiting)
    (r : NetworkSession) (accepted : Bool) {message : String → Option Json}
    (parsed : w.parse (r.connectionMessage w accepted) = .ok message) :
    message "condition" = some (.bool accepted) ∧
      (c.receivedConnection w (r.connectionMessage w accepted)).peer =
        ((stored c r).conclude message).peer := by
  have read := faithful.reads _ message parsed
  have id : message "id" = some (.string r.id) := by simp [read]
  have subId : message "sub_id" = some (.string r.subId) := by simp [read]
  have key : message "key" = some (.string r.key) := by simp [read]
  have iv : message "iv" = some (.string r.iv) := by simp [read]
  have mode : message "encrypt_mode" = some (.bool r.encryptMode) := by simp [read]
  refine ⟨by simp [read], ?_⟩
  unfold NetworkClient.receivedConnection NetworkSession.connectionMessage
  unfold NetworkSession.connectionMessage at parsed
  rw [if_neg (not_not_intro waiting), if_neg (faithful.serialize_ne_nil _), faithful.plain, parsed]
  simp only [NetworkClient.storeString, NetworkClient.storeIf, id, subId, key, iv, mode,
    Handling.andThen, done]
  rfl

theorem receivedConnection_joins (faithful : w.Faithful) (c : NetworkClient) (r : NetworkSession)
    (accepted : Bool) :
    Joins c (fun keys => accepted = true ∧ (r.keys.Texts → keys = r.keys))
      (c.receivedConnection w (r.connectionMessage w accepted)) := by
  by_cases waiting : c.condition = .waiting
  · cases parsed : w.parse (r.connectionMessage w accepted) with
    | error what =>
        refine same_joins ?_
        have plain : Converter.toString (r.connectionMessage w accepted) = _ := faithful.plain _
        have some_ : r.connectionMessage w accepted ≠ [] := faithful.serialize_ne_nil _
        rw [NetworkClient.receivedConnection, if_neg (not_not_intro waiting), if_neg some_, plain]
        unfold NetworkSession.connectionMessage at parsed
        rw [parsed]
        exact ⟨rfl, rfl⟩
    | ok message =>
        obtain ⟨condition, same⟩ := receivedConnection_reads faithful waiting r accepted parsed
        rw [Joins, same]
        intro confirmed
        obtain ⟨accepts, keys⟩ := conclude_confirmed condition (by exact waiting) confirmed
        refine .inr ⟨accepts, fun texts => keys.trans ?_⟩
        change (⟨cString r.key, cString r.iv, r.encryptMode⟩ : Keys) = r.keys
        rw [@cString_text r.key texts.1, @cString_text r.iv texts.2]
        rfl
  · rw [NetworkClient.receivedConnection, if_pos waiting]
    exact same_joins ⟨rfl, rfl⟩

/-- A waiting client that can read an acceptance is confirmed by it. -/
theorem receivedConnection_confirms (faithful : w.Faithful) (waiting : c.condition = .waiting)
    (r : NetworkSession) {message : String → Option Json}
    (parsed : w.parse (r.connectionMessage w true) = .ok message) :
    (c.receivedConnection w (r.connectionMessage w true)).peer.condition = .confirmed := by
  obtain ⟨condition, same⟩ := receivedConnection_reads faithful waiting r true parsed
  have fresh : (stored c r).condition ≠ .confirmed := by
    change c.condition ≠ .confirmed
    rw [waiting]
    decide
  rw [same, NetworkClient.conclude, condition]
  unfold NetworkClient.setCondition DataHandler.setCondition
  rw [if_neg fresh, if_neg (by decide)]
  rfl

theorem client_expireFirst_joins {offered : Keys → Prop} {what : String}
    {body : Peer → Checked (Handling Peer Effect)} {h : Handling NetworkClient Effect}
    (keeps : ∀ h, body c.toPeer = .ok h → c.toPeer.Kept h)
    (handled : c.expireFirst what body = .ok h) : Joins c offered h := by
  rcases confirmedOnly_cases handled with ⟨_, rfl⟩ | ⟨_, inner, ran, rfl⟩
  · exact expired_joins (Handling.andThen_peer (I := fun c : NetworkClient => c.condition = .expired)
      (c.setCondition_condition .expired false) fun _ same => same)
  · have kept := keeps inner ran
    exact same_joins ⟨kept.condition, congrArg DataHandler.keys kept.base⟩

theorem receive_packet {P : Type} {peer : P} {mode : DataModes} {h : Handling P Effect}
    {receivedData : UInt8 → List UInt8 → Checked (Handling P Effect)} (some_ : data ≠ [])
    (fits : (DataHandler.packet mode data).length < 2 ^ 63)
    (received : receive (DataHandler.packet mode data) peer receivedData = some h) :
    receivedData mode.code data = .ok h := by
  rw [receive, DataHandler.receivingWork_packet some_ fits] at received
  dsimp only at received
  cases result : receivedData mode.code data with
  | error fault =>
      rw [result] at received
      cases received
  | ok handling =>
      rw [result] at received
      cases received
      rfl

/-- A packet that may be on its way confirms the client only with the keys of the session. -/
theorem receive_joins (faithful : w.Faithful) (sent : Sent w s packet)
    {h : Handling NetworkClient Effect}
    (received : receive packet c (c.onReceivedData w) = some h) :
    Joins c (fun keys => s.condition = .expired ∨ s.condition = .confirmed ∧ s.keys = keys) h := by
  have answered : ∀ {r : NetworkSession} {accepted : Bool},
      receive (DataHandler.packet .connection (r.connectionMessage w accepted)) c
        (c.onReceivedData w) = some h →
      Joins c (fun keys => accepted = true ∧ (r.keys.Texts → keys = r.keys)) h := by
    intro r accepted received
    have handled := receive_packet (faithful.serialize_ne_nil _) (faithful.fits _) received
    unfold NetworkClient.onReceivedData at handled
    split at handled
    next =>
      cases handled
      exact same_joins ⟨rfl, rfl⟩
    next =>
      rw [DataModes.ofCode_code] at handled
      cases handled
      exact receivedConnection_joins faithful c r accepted
  cases sent with
  | @application mode data other some_ fits =>
      have handled := receive_packet some_ fits received
      unfold NetworkClient.onReceivedData at handled
      split at handled
      next =>
        cases handled
        exact same_joins ⟨rfl, rfl⟩
      next =>
        rw [DataModes.ofCode_code] at handled
        cases mode with
        | connection => exact absurd rfl other
        | binary => exact client_expireFirst_joins (fun _ => Peer.handleBinary_kept) handled
        | message => exact client_expireFirst_joins (fun _ => Peer.handleMessage_kept) handled
        | file => exact client_expireFirst_joins (fun _ => Peer.handleFile_kept) handled
  | refusal r =>
      intro confirmed
      rcases answered received confirmed with kept | ⟨accepted, _⟩
      · exact .inl kept
      · cases accepted
  | acceptance r texts fits =>
      intro confirmed
      rcases answered received confirmed with kept | ⟨_, keys⟩
      · exact .inl kept
      · rw [keys texts]
        exact .inr fits

/-- Key agreement, with what it rests on: the packets on their way. -/
structure Agreed (w : World) (h : Handshake) : Prop where
  texts : h.session.keys.Texts
  sent : ∀ packet ∈ h.toClient, Sent w h.session packet
  joined : h.client.condition = .confirmed →
    h.session.condition = .expired ∨ h.session.condition = .confirmed ∧ h.session.keys = h.client.keys

variable {h : Handshake}

theorem Agreed.bySession (agreed : h.Agreed w) {handling : Handling NetworkSession Effect}
    (onward : Onward w h.session handling) : (h.bySession handling).Agreed w := by
  refine ⟨onward.texts, ?_, ?_⟩
  · intro packet member
    rcases List.mem_append.mp member with old | new
    · exact (agreed.sent packet old).onward onward
    · obtain ⟨e, caused, sends⟩ := mem_packets.mp new
      exact onward.sent e caused packet sends
  · intro confirmed
    change handling.peer.condition = .expired ∨ handling.peer.condition = .confirmed ∧
      handling.peer.keys = h.client.keys
    rcases onward.condition with expired | ⟨same, keys⟩ | ⟨waiting, _⟩
    · exact .inl expired
    · rw [same, keys]
      exact agreed.joined confirmed
    · have joined := agreed.joined confirmed
      rw [waiting] at joined
      rcases joined with fits | ⟨fits, _⟩ <;> cases fits

theorem Agreed.byClient (agreed : h.Agreed w) {handling : Handling NetworkClient Effect}
    (joins : Joins h.client (fun keys => h.session.condition = .expired ∨
      h.session.condition = .confirmed ∧ h.session.keys = keys) handling) :
    (h.byClient handling).Agreed w := by
  refine ⟨agreed.texts, agreed.sent, ?_⟩
  intro confirmed
  rcases joins confirmed with ⟨was, same⟩ | joined
  · change h.session.condition = .expired ∨ h.session.condition = .confirmed ∧
      h.session.keys = handling.peer.keys
    rw [same]
    exact agreed.joined was
  · exact joined

theorem applicationSend_sent {handler : DataHandler} {mode : DataModes} {effects : List Effect}
    (sends : applicationSend handler mode data = some effects) :
    ∀ e ∈ effects, ∀ packet, e.packet = some packet → Sent w s packet := by
  unfold applicationSend at sends
  split at sends
  next allowed =>
    cases sends
    intro e member packet sent
    obtain ⟨some_, same⟩ := send_packet member sent
    rw [same]
    exact .application allowed.2.1 some_ allowed.2.2
  next => cases sends

theorem stop_joins {offered : Keys → Prop} (c : NetworkClient) (awaited : Bool) :
    Joins c offered (c.stop awaited) := by
  unfold NetworkClient.stop
  split
  next => exact same_joins ⟨rfl, rfl⟩
  next =>
    refine expired_joins (Handling.andThen_peer (I := fun c : NetworkClient => c.condition = .expired)
      (c.setCondition_condition .expired true) ?_)
    intro t expired
    cases awaited <;> exact expired

theorem step_agreed (faithful : w.Faithful) {a : Action} {t : Handshake} (agreed : h.Agreed w)
    (stepped : step w h a = some t) : t.Agreed w := by
  cases a with
  | toSession position =>
      obtain ⟨⟨packet, rest⟩, _, stepped⟩ := Option.bind_eq_some_iff.mp stepped
      obtain ⟨handling, received, same⟩ := Option.map_eq_some_iff.mp stepped
      subst same
      have arrived : Agreed w { h with toSession := rest } :=
        ⟨agreed.texts, agreed.sent, agreed.joined⟩
      refine arrived.bySession ?_
      unfold receive at received
      split at received
      next mode data worked =>
        cases result : h.session.onReceivedData w mode data with
        | error fault =>
            rw [result] at received
            cases received
        | ok inner =>
            rw [result] at received
            cases received
            exact onReceivedData_onward faithful agreed.texts result
      next =>
        cases received
        exact onward_silent agreed.texts ⟨rfl, rfl⟩ fun _ member => (by cases member)
      next => cases received
  | toClient position =>
      obtain ⟨⟨packet, rest⟩, taken, stepped⟩ := Option.bind_eq_some_iff.mp stepped
      obtain ⟨handling, received, same⟩ := Option.map_eq_some_iff.mp stepped
      subst same
      have arrived : Agreed w { h with toClient := rest } :=
        ⟨agreed.texts, fun packet member => agreed.sent packet (mem_of_takeAt taken member),
          agreed.joined⟩
      exact arrived.byClient (receive_joins faithful (agreed.sent packet (takeAt_mem taken)) received)
  | sessionLost =>
      cases stepped
      exact agreed.bySession (setCondition_refused faithful agreed.texts false).onward
  | sessionStop =>
      cases stepped
      refine agreed.bySession (Refused.onward
        ((setCondition_refused faithful agreed.texts true).andThen ?_))
      intro t expired
      exact ⟨expired, fun _ member => (by cases member)⟩
  | sessionSend mode data =>
      obtain ⟨effects, sends, same⟩ := Option.map_eq_some_iff.mp stepped
      subst same
      exact agreed.bySession ⟨agreed.texts, .inr (.inl ⟨rfl, rfl⟩), applicationSend_sent sends⟩
  | clientLost =>
      cases stepped
      exact agreed.byClient (expired_joins (h.client.setCondition_condition .expired false))
  | clientStop awaited =>
      cases stepped
      exact agreed.byClient (stop_joins h.client awaited)
  | clientWaited =>
      cases stepped
      exact agreed.byClient (same_joins ⟨rfl, rfl⟩)
  | clientSend mode data =>
      obtain ⟨effects, _, same⟩ := Option.map_eq_some_iff.mp stepped
      subst same
      exact agreed.byClient (same_joins ⟨rfl, rfl⟩)

theorem session_start_keys (s : NetworkSession) (connectedSocket : Option Bool)
    (socketBufferSize : Nat) : (s.start w connectedSocket socketBufferSize).keys = s.keys := by
  unfold NetworkSession.start
  rw [NetworkSession.setCondition_live w s (by decide)]
  dsimp only
  split
  next => rfl
  next => rfl
  next =>
    rw [NetworkSession.setCondition_live w _ (by decide)]
    rfl

theorem client_start_condition (c : NetworkClient) (connects : Bool) (socketBufferSize : Nat) :
    (c.start w connects socketBufferSize).1.condition ≠ .confirmed := by
  unfold NetworkClient.start
  dsimp only
  split
  next =>
    change (NetworkClient.setCondition _ _ _).peer.condition ≠ _
    rw [NetworkClient.setCondition_condition]
    decide
  next =>
    change (NetworkClient.setCondition _ _ _).peer.condition ≠ _
    rw [NetworkClient.setCondition_condition]
    decide

theorem started_agreed (session : NetworkSession) (connectedSocket : Option Bool)
    (socketBufferSize : Nat) (client : NetworkClient) (connects : Bool) (clientBufferSize : Nat)
    (fresh : session.key = [] ∧ session.iv = []) :
    (started w session connectedSocket socketBufferSize client connects clientBufferSize).Agreed w := by
  refine ⟨?_, fun _ member => (by cases member), ?_⟩
  · change Keys.Texts (session.start w connectedSocket socketBufferSize).keys
    rw [session_start_keys]
    refine ⟨?_, ?_⟩
    · change 0 ∉ session.key
      rw [fresh.1]
      exact List.not_mem_nil
    · change 0 ∉ session.iv
      rw [fresh.2]
      exact List.not_mem_nil
  · exact fun confirmed => absurd confirmed (client_start_condition client connects clientBufferSize)

end

/-- However the packets are delayed and reordered: while both sides are confirmed, they
have the same key, IV and mode. -/
theorem keys_agree {w : World} (faithful : w.Faithful) {session : NetworkSession}
    (fresh : session.key = [] ∧ session.iv = []) (connectedSocket : Option Bool)
    (socketBufferSize : Nat) (client : NetworkClient) (connects : Bool) (clientBufferSize : Nat)
    {actions : List Action} {h : Handshake}
    (ran : run (step w) (started w session connectedSocket socketBufferSize client connects
      clientBufferSize) actions = some h)
    (sessionConfirmed : h.session.condition = .confirmed)
    (clientConfirmed : h.client.condition = .confirmed) :
    h.client.key = h.session.key ∧ h.client.iv = h.session.iv ∧
      h.client.encryptMode = h.session.encryptMode := by
  have agreed := run_keeps (fun _ _ _ held stepped => step_agreed faithful held stepped)
    (started_agreed session connectedSocket socketBufferSize client connects clientBufferSize fresh)
    ran
  rcases agreed.joined clientConfirmed with expired | ⟨_, same⟩
  · rw [sessionConfirmed] at expired
    cases expired
  · exact ⟨(congrArg Keys.key same).symm, (congrArg Keys.iv same).symm,
      (congrArg Keys.encryptMode same).symm⟩

/-- A JSON library that knows some objects by their texts, for examples. -/
def knownTexts (texts : List (List (String × Json) × List UInt8)) (key : List UInt8 × List UInt8) :
    World where
  parse := fun data =>
    match texts.find? (·.2 = data) with
    | some entry => .ok fun name => (entry.1.find? (·.1 = name)).map Prod.snd
    | none => .error "syntax error"
  serialize := fun fields => ((texts.find? (·.1 = fields)).map Prod.snd).getD [123, 125]
  createKey := fun _ => key
  saveTempPath := fun _ _ => .ok none

theorem knownTexts_parse {texts : List (List (String × Json) × List UInt8)}
    {key : List UInt8 × List UInt8} {data : List UInt8} {entry : List (String × Json) × List UInt8}
    (known : texts.find? (·.2 = data) = some entry) :
    (knownTexts texts key).parse data =
      .ok fun name => (entry.1.find? (·.1 = name)).map Prod.snd := by
  simp only [knownTexts, known]

theorem knownTexts_faithful {texts : List (List (String × Json) × List UInt8)}
    {key : List UInt8 × List UInt8}
    (opens : ∀ entry ∈ texts, entry.2.head? = some 123 ∧ entry.2.length < 2 ^ 16)
    (distinct : ∀ one ∈ texts, ∀ two ∈ texts, one.2 = two.2 → one = two)
    (empty : ∀ entry ∈ texts, entry.2 ≠ [123, 125]) (keyTexts : 0 ∉ key.1 ∧ 0 ∉ key.2) :
    (knownTexts texts key).Faithful := by
  have written : ∀ fields, (∃ entry ∈ texts, entry.1 = fields ∧
      (knownTexts texts key).serialize fields = entry.2) ∨
      (knownTexts texts key).serialize fields = [123, 125] := by
    intro fields
    simp only [knownTexts]
    cases found : texts.find? (·.1 = fields) with
    | none => exact .inr rfl
    | some entry =>
        have same := List.find?_some found
        exact .inl ⟨entry, List.mem_of_find?_eq_some found, of_decide_eq_true same, rfl⟩
  have known : ∀ {data message}, (knownTexts texts key).parse data = .ok message →
      ∃ entry ∈ texts, entry.2 = data ∧
        message = fun name => (entry.1.find? (·.1 = name)).map Prod.snd := by
    intro data message parsed
    simp only [knownTexts] at parsed
    split at parsed
    next entry found =>
      cases parsed
      have same := List.find?_some found
      exact ⟨entry, List.mem_of_find?_eq_some found, of_decide_eq_true same, rfl⟩
    next => cases parsed
  refine ⟨?_, ?_, ?_, fun _ => keyTexts⟩
  · intro fields
    rcases written fields with ⟨entry, member, _, same⟩ | same
    · rw [same]
      exact List.head?_eq_some_iff.mp (opens entry member).1
    · exact ⟨[125], same⟩
  · intro fields
    rw [DataHandler.packet_eq, List.length_append, Combiner.field_length, Combiner.field_length]
    rcases written fields with ⟨entry, member, _, same⟩ | same
    · have short := (opens entry member).2
      rw [same, List.length_singleton]
      omega
    · rw [same]
      decide
  · intro fields message parsed name
    obtain ⟨other, known, text, rfl⟩ := known parsed
    rcases written fields with ⟨entry, member, rfl, same⟩ | same
    · rw [distinct other known entry member (text.trans same)]
    · exact absurd (text.trans same) (empty other known)

def ascii (text : String) : List UInt8 := text.toList.map fun c => UInt8.ofNat c.toNat

/-- The two objects of a handshake with encryption, and their texts. -/
def sampleTexts : List (List (String × Json) × List UInt8) :=
  [([("id", .string [97]), ("sub_id", .string [98]), ("registered_key", .string [107]),
      ("condition", .bool true)],
    ascii "\x7b\"id\":\"a\",\"sub_id\":\"b\",\"registered_key\":\"k\",\"condition\":true\x7d"),
   ([("id", .string [97]), ("sub_id", .string [99]), ("key", .string Cipher.sampleKey),
      ("iv", .string Cipher.sampleIv), ("encrypt_mode", .bool true), ("condition", .bool true)],
    ascii "\x7b\"id\":\"a\",\"sub_id\":\"c\",\"key\":\"" ++ Cipher.sampleKey ++ ascii "\",\"iv\":\"" ++
      Cipher.sampleIv ++ ascii "\",\"encrypt_mode\":true,\"condition\":true\x7d")]

def sampleWorld : World := knownTexts sampleTexts (Cipher.sampleKey, Cipher.sampleIv)

theorem sampleWorld_faithful : sampleWorld.Faithful :=
  knownTexts_faithful (by decide +kernel) (by decide +kernel) (by decide +kernel) (by decide +kernel)

def sampleSession : NetworkSession where
  toPeer := { Peer.connected with
    toDataHandler := { DataHandler.initial with subId := [99], encryptMode := true }
    registeredKey := [107] }
  receivedConnectionCallback := none

def sampleClient : NetworkClient where
  toPeer := { Peer.connected with
    toDataHandler := { DataHandler.initial with id := [97], subId := [98] }
    registeredKey := [107] }
  receivedConnectionCallback := none

/-- The request arrives, and the answer arrives. -/
theorem keys_agree_encrypted :
    ∃ h, run (step sampleWorld) (started sampleWorld sampleSession (some true) 1024 sampleClient
      true 1024) [.toSession 0, .toClient 0] = some h ∧
      (h.session.condition, h.client.condition, h.client.encryptMode) =
        (.confirmed, .confirmed, true) ∧ h.client.key = h.session.key := by
  have conditions : (run (step sampleWorld) (started sampleWorld sampleSession (some true) 1024
      sampleClient true 1024) [.toSession 0, .toClient 0]).map
        (fun h => (h.session.condition, h.client.condition, h.client.encryptMode)) =
          some (.confirmed, .confirmed, true) := by decide +kernel
  obtain ⟨h, ran, same⟩ := Option.map_eq_some_iff.mp conditions
  obtain ⟨sessionConfirmed, rest⟩ := Prod.mk.inj same
  exact ⟨h, ran, same, (keys_agree sampleWorld_faithful ⟨rfl, rfl⟩ (some true) 1024 sampleClient true
    1024 ran sessionConfirmed (Prod.mk.inj rest).1).1⟩

end Handshake
end CppToolkit.Network
