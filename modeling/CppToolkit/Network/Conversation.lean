import CppToolkit.Network.Deliveries
import CppToolkit.Network.Greeting

/-! A client and its session with the jobs of both: the request and its answer take the way of
every packet, and then both applications send. -/
namespace CppToolkit.Network
open Memory Utilities Bag Machine

/-- The jobs of packets among what a handler has pushed. -/
def Traffic.also (t : Traffic) (effects : List Effect) : Traffic :=
  { t with link := { t.link with sending := t.link.sending ++ effects.filterMap Effect.sends } }

/-- `up` goes from the client to the session. The last two fields are the calls of the
applications. -/
structure Conversation where
  session : NetworkSession
  client : NetworkClient
  up : Traffic
  down : Traffic
  sessionTold : List Effect
  clientTold : List Effect

namespace Conversation

inductive Action where
  | up (action : Traffic.Action)
  | down (action : Traffic.Action)
  deriving DecidableEq, Repr

/-- `received_data`, if a packet has come with the step. -/
def hear {P : Type} (receivedData : UInt8 → List UInt8 → Checked (Handling P Effect)) (peer : P)
    (old new : Traffic) : Option (Handling P Effect) :=
  match new.link.received.drop old.link.received.length with
  | [] => some ⟨peer, [], done⟩
  | (mode, data) :: _ => (receivedData mode data).toOption

def step (w : World) (c : Codecs) (j : Conversation) : Action → Option Conversation
  | .up action =>
      (j.up.step c j.client.toDataHandler j.session.toDataHandler action).bind fun up =>
        (hear (j.session.onReceivedData w) j.session j.up up).map fun h =>
          { j with
            session := h.peer
            up
            down := j.down.also h.effects
            sessionTold := j.sessionTold ++ h.effects.filter Effect.application }
  | .down action =>
      (j.down.step c j.session.toDataHandler j.client.toDataHandler action).bind fun down =>
        (hear (j.client.onReceivedData w) j.client j.down down).map fun h =>
          { j with
            client := h.peer
            down
            up := j.up.also h.effects
            clientTold := j.clientTold ++ h.effects.filter Effect.application }

/-- Both sides have been started; the request is on its way. -/
def started (w : World) (session : NetworkSession) (socketBufferSize : Nat) (client : NetworkClient)
    (clientBufferSize : Nat) : Conversation :=
  let (client, request, _) := client.start w true clientBufferSize
  ⟨session.start w (some true) socketBufferSize, client, Traffic.initial.also request, .initial,
    [], []⟩

/-- Every packet can be carried, and the server does not send before the client has been
confirmed. -/
def Allowed (c : Codecs) (j : Conversation) : Action → Prop
  | .up action => action.Fits c j.client.toDataHandler
  | .down action =>
      action.Fits c j.session.toDataHandler ∧
        (action.ofLink = false → j.client.condition = .confirmed)

def Action.ofLink : Action → Bool
  | .up action => action.ofLink
  | .down action => action.ofLink

/-- Nothing is on its way in either direction. -/
def Quiet (j : Conversation) : Prop := j.up.link.Quiet ∧ j.down.link.Quiet

/-- The compressor does not fail on the packet of the text. -/
def Light (c : Codecs) (text : List UInt8) : Prop :=
  ∀ image, Compressor.compression c.lz4 (DataHandler.packet .connection text) blockBytes =
    .ok image → image.length < 2 ^ 31

/-- The client has the registered key, neither side has a key from an earlier connection, each
reads what the other one writes, and the applications have set their callbacks. -/
structure Joinable (w : World) (c : Codecs) (s : NetworkSession) (k : NetworkClient) : Prop where
  faithful : w.Faithful
  registered : cString k.registeredKey = s.registeredKey
  sessionKeyless : s.Keyless
  clientKeyless : k.Keyless
  requestReadable : ∃ message, w.parse (k.request w) = .ok message
  answerReadable : ∃ message, w.parse ((s.greeted w k).connectionMessage w true) = .ok message
  requestLight : Light c (k.request w)
  answerLight : Light c ((s.greeted w k).connectionMessage w true)
  keys : s.encryptMode = true → (w.createKey s.keysCreated).1 ≠ [] ∧
    (w.createKey s.keysCreated).2 ≠ [] ∧
    c.cipher.Inverts (w.createKey s.keysCreated).1 (w.createKey s.keysCreated).2
  sessionCallbacks : s.receivedBinaryCallback ≠ none ∧ s.receivedMessageCallback ≠ none
  clientCallbacks : k.receivedBinaryCallback ≠ none ∧ k.receivedMessageCallback ≠ none

/-- Both sides as `start` leaves them. -/
structure Waits (w : World) (c : Codecs) (s : NetworkSession) (k : NetworkClient) : Prop
    extends Joinable w c s k where
  session : s.condition = .waiting
  sessionPool : s.threadPool = some false
  sessionSocket : s.socket ≠ none
  client : k.condition = .waiting
  clientPool : k.threadPool = some false
  clientSocket : k.socket ≠ none

section
variable {w : World} {c : Codecs} {s : NetworkSession} {k : NetworkClient}

theorem Waits.sessionLive (waits : Waits w c s k) : s.condition ≠ .expired := by
  rw [waits.session]
  decide

theorem Waits.clientLive (waits : Waits w c s k) : k.condition ≠ .expired := by
  rw [waits.client]
  decide

theorem greeted_condition : (s.greeted w k).condition = .confirmed :=
  (Acceptance.createKey_base w _).1

theorem greeted_mode : (s.greeted w k).encryptMode = s.encryptMode := by
  unfold NetworkSession.greeted NetworkSession.createKey
  split <;> rfl

theorem greeted_keys (on : s.encryptMode = true) :
    (s.greeted w k).key = (w.createKey s.keysCreated).1 ∧
      (s.greeted w k).iv = (w.createKey s.keysCreated).2 := by
  unfold NetworkSession.greeted NetworkSession.createKey
  rw [if_pos (by exact on)]
  exact ⟨rfl, rfl⟩

theorem greeted_callbacks : (s.greeted w k).receivedBinaryCallback = s.receivedBinaryCallback ∧
    (s.greeted w k).receivedMessageCallback = s.receivedMessageCallback := by
  unfold NetworkSession.greeted NetworkSession.createKey
  split <;> exact ⟨rfl, rfl⟩

/-- After the handshake the two sides match in either direction. -/
theorem Waits.matched (waits : Waits w c s k) :
    Matched c (k.greeted (s.greeted w k)).toDataHandler (s.greeted w k).toDataHandler ∧
      Matched c (s.greeted w k).toDataHandler (k.greeted (s.greeted w k)).toDataHandler := by
  obtain ⟨condition, pool, socket⟩ := Acceptance.createKey_base w
    ({ s with id := cString k.id, condition := .confirmed } : NetworkSession)
  have sessionLive : (s.greeted w k).condition ≠ .expired := by
    rw [greeted_condition]
    decide
  have clientLive : (k.greeted (s.greeted w k)).condition ≠ .expired := by
    rw [show (k.greeted (s.greeted w k)).condition = .confirmed from rfl]
    decide
  have sessionPool : (s.greeted w k).threadPool = some false := pool.trans waits.sessionPool
  have sessionSocket : (s.greeted w k).socket ≠ none := socket ▸ waits.sessionSocket
  have clientPool : (k.greeted (s.greeted w k)).threadPool = some false := waits.clientPool
  have clientSocket : (k.greeted (s.greeted w k)).socket ≠ none := waits.clientSocket
  have keys : (s.greeted w k).encryptMode = true →
      (k.greeted (s.greeted w k)).key = (s.greeted w k).key ∧
      (k.greeted (s.greeted w k)).iv = (s.greeted w k).iv ∧
      (s.greeted w k).key ≠ [] ∧ (s.greeted w k).iv ≠ [] ∧
      c.cipher.Inverts (s.greeted w k).key (s.greeted w k).iv := by
    intro on
    have on : s.encryptMode = true := greeted_mode.symm.trans on
    obtain ⟨key, iv⟩ := @greeted_keys w s k on
    obtain ⟨texts, texts'⟩ := waits.faithful.texts s.keysCreated
    refine ⟨?_, ?_, ?_⟩
    · change cString (s.greeted w k).key = _
      rw [key]
      exact cString_text texts
    · change cString (s.greeted w k).iv = _
      rw [iv]
      exact cString_text texts'
    · rw [key, iv]
      exact waits.keys on
  refine ⟨⟨clientLive, sessionLive, clientSocket, clientPool, sessionPool, rfl, fun on => ?_⟩,
    ⟨sessionLive, clientLive, sessionSocket, sessionPool, clientPool, rfl, fun on => ?_⟩⟩
  · obtain ⟨key, iv, inverts⟩ := keys on
    exact ⟨key, iv, key ▸ iv ▸ inverts⟩
  · obtain ⟨key, iv, inverts⟩ := keys on
    exact ⟨key.symm, iv.symm, inverts⟩

theorem Waits.answers (waits : Waits w c s k) :
    (s.greeted w k).toPeer.Answers ∧ (k.greeted (s.greeted w k)).toPeer.Answers := by
  obtain ⟨binary, message⟩ := @greeted_callbacks w s k
  refine ⟨⟨greeted_condition, ?_, ?_⟩, rfl, waits.clientCallbacks⟩
  · rw [binary]
    exact waits.sessionCallbacks.1
  · rw [message]
    exact waits.sessionCallbacks.2

end
end Conversation

/-- The received list of a link only grows, by one arrival at a time. -/
theorem Link.step_received {c : Codecs} {sender receiver : DataHandler} {l t : Link}
    {a : Link.Action} (stepped : l.step c sender receiver a = some t) :
    t.received = l.received ∨ ∃ arrival, t.received = l.received ++ [arrival] := by
  have settled : ∀ onSender rest worked, (l.settle onSender rest worked).received = l.received ∨
      ∃ arrival, (l.settle onSender rest worked).received = l.received ++ [arrival] := by
    intro onSender rest worked
    cases worked with
    | received mode data => exact .inr ⟨_, rfl⟩
    | _ => cases onSender <;> exact .inl rfl
  have works : ∀ {h onSender job rest}, workStep c h l onSender job rest = some t →
      t.received = l.received ∨ ∃ arrival, t.received = l.received ++ [arrival] := by
    intro h onSender job rest worked
    unfold workStep at worked
    split at worked
    next => exact Option.some.inj worked ▸ settled _ _ _
    next => cases worked
  cases a with
  | sender position =>
      obtain ⟨taken, _, stepped⟩ := Option.bind_eq_some_iff.mp stepped
      exact works stepped
  | deliver =>
      unfold step at stepped
      dsimp only at stepped
      split at stepped
      next => cases stepped
      next =>
        split at stepped <;> cases stepped <;> exact .inl rfl
  | receiver position =>
      obtain ⟨taken, _, stepped⟩ := Option.bind_eq_some_iff.mp stepped
      exact works stepped

/-- The link with an arrival that came before everything else. -/
def Link.behind (first : UInt8 × List UInt8) (l : Link) : Link :=
  { l with received := first :: l.received }

theorem Link.step_behind {c : Codecs} {sender receiver : DataHandler} {l : Link}
    (first : UInt8 × List UInt8) (a : Link.Action) :
    (l.behind first).step c sender receiver a =
      (l.step c sender receiver a).map (Link.behind first) := by
  have works : ∀ h onSender job rest, workStep c h (l.behind first) onSender job rest =
      (workStep c h l onSender job rest).map (Link.behind first) := by
    intro h onSender job rest
    unfold workStep
    split
    next worked _ =>
      cases worked with
      | pushed job => cases onSender <;> rfl
      | written packet => rfl
      | received mode data => rfl
      | refused what => cases onSender <;> rfl
      | thrown what => cases onSender <;> rfl
    next => rfl
  cases a with
  | sender position =>
      unfold step
      dsimp only
      rw [show (l.behind first).sending = l.sending from rfl, Option.map_bind]
      exact congrArg (Option.bind _) (funext fun taken => works _ _ _ _)
  | deliver =>
      unfold step
      dsimp only
      rw [show (l.behind first).wire = l.wire from rfl]
      split
      next => rfl
      next => split <;> rfl
  | receiver position =>
      unfold step
      dsimp only
      rw [show (l.behind first).receiving = l.receiving from rfl, Option.map_bind]
      exact congrArg (Option.bind _) (funext fun taken => works _ _ _ _)

namespace Traffic

def behind (first : UInt8 × List UInt8) (t : Traffic) : Traffic :=
  { t with link := t.link.behind first }

section
variable {c : Codecs} {sender receiver : DataHandler} {t u : Traffic}

theorem step_behind (first : UInt8 × List UInt8) (a : Action) :
    (t.behind first).step c sender receiver a =
      (t.step c sender receiver a).map (behind first) := by
  cases a with
  | call call =>
      unfold step
      dsimp only
      split <;> rfl
  | link action =>
      unfold step
      dsimp only
      rw [show (t.behind first).link = t.link.behind first from rfl, Link.step_behind,
        Option.map_map, Option.map_map]
      rfl

theorem step_behind_some (first : UInt8 × List UInt8) {a : Action}
    (stepped : t.step c sender receiver a = some u) :
    (t.behind first).step c sender receiver a = some (u.behind first) := by
  rw [step_behind, stepped, Option.map_some]

theorem step_received {a : Action} (stepped : t.step c sender receiver a = some u) :
    u.link.received = t.link.received ∨
      ∃ arrival, u.link.received = t.link.received ++ [arrival] := by
  cases a with
  | call call =>
      unfold step at stepped
      dsimp only at stepped
      split at stepped <;> cases stepped <;> exact .inl rfl
  | link action =>
      obtain ⟨link, moved, rfl⟩ := Option.map_eq_some_iff.mp stepped
      exact Link.step_received moved

theorem also_nothing {effects : List Effect} (silent : ∀ e ∈ effects, e.sends = none) :
    t.also effects = t := by
  have none_ : effects.filterMap Effect.sends = [] := List.filterMap_eq_nil_iff.mpr silent
  rw [also, none_, List.append_nil]

end
end Traffic

namespace Conversation

/-- What the application is told of the packets that have come. -/
def told {P : Type} (receivedData : UInt8 → List UInt8 → Checked (Handling P Effect))
    (t : Traffic) : List Effect :=
  t.link.received.flatMap fun arrival =>
    match receivedData arrival.1 arrival.2 with
    | .ok h => h.effects.filter Effect.application
    | .error _ => []

/-- The handler of this peer makes of the packet of a call what the application is to be told, and
stays as it is. -/
def Attends {P : Type} (receivedData : UInt8 → List UInt8 → Checked (Handling P Effect)) (peer : P)
    (caller : Caller) (call : Call) : Prop :=
  ∃ h, receivedData call.cargo.arrival.1 call.cargo.arrival.2 = .ok h ∧ h.peer = peer ∧
    h.effects = call.told caller

section
variable {w : World}

theorem told_application (caller : Caller) (call : Call) :
    ∀ e ∈ call.told caller, e.application = true ∧ e.sends = none := by
  intro e member
  cases call with
  | message text =>
      rw [List.mem_singleton.mp member]
      exact ⟨rfl, rfl⟩
  | binary data text =>
      change e ∈ (if data = [] then [] else [_]) at member
      split at member
      next => cases member
      next =>
        rw [List.mem_singleton.mp member]
        exact ⟨rfl, rfl⟩

theorem handleMessage_peer {caller : Caller} {p : Peer} {data : List UInt8}
    {h : Handling Peer Effect} (handled : p.handleMessage caller data = .ok h) : h.peer = p := by
  unfold Peer.handleMessage at handled
  split at handled
  next =>
    cases handled
    rfl
  next => split at handled <;> cases handled <;> rfl

theorem handleBinary_peer {caller : Caller} {p : Peer} {data : List UInt8}
    {h : Handling Peer Effect} (handled : p.handleBinary caller data = .ok h) : h.peer = p := by
  unfold Peer.handleBinary at handled
  split at handled
  next =>
    cases handled
    rfl
  next =>
    obtain ⟨⟨message, index⟩, _, handled⟩ := bind_eq_ok.mp handled
    obtain ⟨⟨binary, _⟩, _, handled⟩ := bind_eq_ok.mp handled
    dsimp only at handled
    split at handled
    next =>
      cases handled
      rfl
    next => split at handled <;> cases handled <;> rfl

/-- A handler behind the guard leaves a confirmed peer as its body does. -/
theorem confirmedOnly_peer {P : Type} {peer : P → Peer} {withPeer : P → Peer → P}
    {expire : P → Handling P Effect} {what : String}
    {body : Peer → Checked (Handling Peer Effect)} {s : P} {h : Handling P Effect}
    (confirmed : (peer s).condition = .confirmed) (same : withPeer s (peer s) = s)
    (keeps : ∀ inner, body (peer s) = .ok inner → inner.peer = peer s)
    (handled : confirmedOnly peer withPeer expire what body s = .ok h) : h.peer = s := by
  rcases confirmedOnly_cases handled with ⟨stranger, _⟩ | ⟨_, inner, ran, rfl⟩
  · exact absurd confirmed stranger
  · change withPeer s inner.peer = s
    rw [keeps inner ran, same]

theorem session_attends (w : World) {s : NetworkSession} {call : Call} (answers : s.toPeer.Answers)
    (tells : call.Tells call.cargo.arrival) :
    Attends (s.onReceivedData w) s s.caller call := by
  obtain ⟨h, handled, effects⟩ := tells.1 w s answers
  refine ⟨h, handled, ?_, effects⟩
  have keeps : ∀ what body, (∀ inner, body s.toPeer = .ok inner → inner.peer = s.toPeer) →
      s.expireFirst w what body = .ok h → h.peer = s :=
    fun _ _ keeps => confirmedOnly_peer answers.1 rfl keeps
  cases call with
  | message text =>
      exact keeps "normal" (fun p => p.handleMessage s.caller (Call.message text).data)
        (fun _ => handleMessage_peer) handled
  | binary data text =>
      exact keeps "binary" (fun p => p.handleBinary s.caller (Call.binary data text).data)
        (fun _ => handleBinary_peer) handled

theorem client_attends (w : World) {k : NetworkClient} {call : Call} (answers : k.toPeer.Answers)
    (tells : call.Tells call.cargo.arrival) :
    Attends (k.onReceivedData w) k none call := by
  obtain ⟨h, handled, effects⟩ := tells.2 w k answers
  refine ⟨h, handled, ?_, effects⟩
  have live : k.condition ≠ .expired := by
    rw [answers.1]
    decide
  have keeps : ∀ what body, (∀ inner, body k.toPeer = .ok inner → inner.peer = k.toPeer) →
      k.expireFirst what body = .ok h → h.peer = k :=
    fun _ _ keeps => confirmedOnly_peer answers.1 rfl keeps
  unfold NetworkClient.onReceivedData at handled
  rw [if_neg live] at handled
  cases call with
  | message text => exact keeps "normal" _ (fun _ => handleMessage_peer) handled
  | binary data text => exact keeps "binary" _ (fun _ => handleBinary_peer) handled

end

section
variable {P : Type} {receivedData : UInt8 → List UInt8 → Checked (Handling P Effect)} {peer : P}
  {caller : Caller} {c : Codecs} {sender receiver : DataHandler} {t u : Traffic} {n : Nat}

/-- A step of the traffic after the handshake, and what is made of the packet that has come. -/
theorem hear_step (delivering : Traffic.Delivering c sender receiver n u)
    (attends : ∀ call ∈ u.accepted, Attends receivedData peer caller call)
    (received : u.link.received = t.link.received ∨
      ∃ arrival, u.link.received = t.link.received ++ [arrival])
    (first : UInt8 × List UInt8) :
    ∃ h, hear receivedData peer (t.behind first) (u.behind first) = some h ∧ h.peer = peer ∧
      (∀ e ∈ h.effects, e.sends = none) ∧
      told receivedData u = told receivedData t ++ h.effects.filter Effect.application := by
  have dropped : (u.behind first).link.received.drop (t.behind first).link.received.length =
      u.link.received.drop t.link.received.length := rfl
  rcases received with same | ⟨arrival, more⟩
  · refine ⟨⟨peer, [], done⟩, ?_, rfl, fun _ member => (by cases member), ?_⟩
    · rw [hear, dropped, same, List.drop_length]
    · rw [told, told, same]
      exact (List.append_nil _).symm
  · obtain ⟨arrived, _, perm, arrivals, _⟩ := delivering.accounted.split
    have member : arrival ∈ arrived.map (fun call => call.cargo.arrival) := by
      rw [← arrivals, more]
      exact List.mem_append_right _ List.mem_cons_self
    obtain ⟨call, came, rfl⟩ := List.mem_map.mp member
    obtain ⟨h, handled, same, effects⟩ :=
      attends call (perm.mem_iff.mp (List.mem_append_left _ came))
    refine ⟨h, ?_, same, ?_, ?_⟩
    · rw [hear, dropped, more, List.drop_left]
      exact congrArg Except.toOption handled
    · intro e inside
      rw [effects] at inside
      exact (told_application caller call e inside).2
    · rw [told, told, more, List.flatMap_append, List.flatMap_singleton, handled]

/-- In the end the application has been told of the calls that have arrived. -/
theorem told_eq {arrived : List Call}
    (received : t.link.received = arrived.map fun call => call.cargo.arrival)
    (attends : ∀ call ∈ arrived, Attends receivedData peer caller call) :
    told receivedData t = arrived.flatMap (Call.told caller) := by
  rw [told, received, List.flatMap_map]
  refine List.flatMap_congr fun call member => ?_
  obtain ⟨h, handled, _, effects⟩ := attends call member
  rw [handled]
  dsimp only
  rw [effects, List.filter_eq_self]
  exact fun e inside => (told_application caller call e inside).1

end

end Conversation
end CppToolkit.Network
