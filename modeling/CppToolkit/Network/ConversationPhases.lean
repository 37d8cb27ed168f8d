import CppToolkit.Network.Conversation

/-! A conversation from the request on: first the request is on its way, then the answer, and from
then on both sides are confirmed and every accepted call is told once. -/
namespace CppToolkit.Network
open Memory Utilities Bag Machine

namespace Conversation

/-- The packet of the request, and that of its answer. -/
def requested (w : World) (k : NetworkClient) : List UInt8 :=
  DataHandler.packet .connection (k.request w)

def replied (w : World) (s : NetworkSession) (k : NetworkClient) : List UInt8 :=
  DataHandler.packet .connection ((s.greeted w k).connectionMessage w true)

/-- How far the two have come after so many steps of their links, when the request and the answer
are `image` and `image'` on the wire. -/
inductive Phase (w : World) (c : Codecs) (s : NetworkSession) (k : NetworkClient)
    (image image' : List UInt8) : Nat → Conversation → Prop
  | asked {n : Nat} : n < 6 → Phase w c s k image image' n
      ⟨s, k, ⟨Link.stage (requested w k) (requested w k) image .connection (k.request w) (n + 1), []⟩,
        .initial, [], []⟩
  | answered {n : Nat} : n < 6 → Phase w c s k image image' (6 + n)
      ⟨s.greeted w k, k, Traffic.initial.behind (DataModes.connection.code, k.request w),
        ⟨Link.stage (replied w s k) (replied w s k) image' .connection
          ((s.greeted w k).connectionMessage w true) (n + 1), []⟩, [], []⟩
  | joined {n m : Nat} {up down : Traffic} :
      Traffic.Delivering c (k.greeted (s.greeted w k)).toDataHandler (s.greeted w k).toDataHandler n
        up →
      Traffic.Delivering c (s.greeted w k).toDataHandler (k.greeted (s.greeted w k)).toDataHandler m
        down →
      Phase w c s k image image' (12 + n + m)
        ⟨s.greeted w k, k.greeted (s.greeted w k),
          up.behind (DataModes.connection.code, k.request w),
          down.behind (DataModes.connection.code, (s.greeted w k).connectionMessage w true),
          told ((s.greeted w k).onReceivedData w) up,
          told ((k.greeted (s.greeted w k)).onReceivedData w) down⟩

/-- What the handshake packets come to on their ways. -/
structure Ways (w : World) (c : Codecs) (s : NetworkSession) (k : NetworkClient)
    (image image' : List UInt8) : Prop extends Waits w c s k where
  asks : Carried c k.toDataHandler.plain s.toDataHandler.plain (requested w k) (requested w k) image
    .connection (k.request w)
  replies : Carried c (s.greeted w k).toDataHandler.plain k.toDataHandler.plain (replied w s k)
    (replied w s k) image' .connection ((s.greeted w k).connectionMessage w true)

section
variable {w : World} {c : Codecs} {s : NetworkSession} {k : NetworkClient}
  {image image' : List UInt8}

theorem Waits.ways (waits : Waits w c s k) {paired : c.lz4.Stream → c.lz4.StreamDecode → Prop}
    (faithful : c.lz4.Faithful paired) : ∃ image image', Ways w c s k image image' := by
  obtain ⟨condition, pool, socket⟩ := Acceptance.createKey_base w
    ({ s with id := cString k.id, condition := .confirmed } : NetworkSession)
  have live : (s.greeted w k).condition ≠ .expired := by
    rw [greeted_condition]
    decide
  obtain ⟨image, asks⟩ := Link.carried_plain waits.clientLive waits.clientSocket waits.clientPool
    waits.sessionLive waits.sessionPool faithful (waits.faithful.serialize_ne_nil _)
    (waits.faithful.fits _) waits.requestLight
  obtain ⟨image', replies⟩ := @Link.carried_plain c (s.greeted w k).toDataHandler k.toDataHandler _ _
    live (socket ▸ waits.sessionSocket) (pool.trans waits.sessionPool)
    waits.clientLive waits.clientPool _ faithful (waits.faithful.serialize_ne_nil _)
    (waits.faithful.fits _) waits.answerLight
  exact ⟨image, image', ⟨waits, asks, replies⟩⟩

/-- Whoever is not confirmed sends nothing of the application. -/
theorem call_refused {h : DataHandler} (unconfirmed : h.condition ≠ .confirmed) (call : Call) :
    ∃ what, call.send h = .error what := by
  cases call with
  | message text => exact ⟨_, if_pos unconfirmed⟩
  | binary data text => exact ⟨_, if_pos unconfirmed⟩

theorem call_unmoved {t u : Traffic} {sender receiver : DataHandler} {call : Call}
    (unconfirmed : sender.condition ≠ .confirmed)
    (stepped : t.step c sender receiver (.call call) = some u) : u = t := by
  obtain ⟨what, refused⟩ := call_refused unconfirmed call
  unfold Traffic.step at stepped
  dsimp only at stepped
  rw [refused] at stepped
  exact (Option.some.inj stepped).symm

theorem hear_same {P : Type} (receivedData : UInt8 → List UInt8 → Checked (Handling P Effect))
    (peer : P) (t : Traffic) : hear receivedData peer t t = some ⟨peer, [], done⟩ := by
  rw [hear, List.drop_length]

theorem initial_still {sender receiver : DataHandler} {a : Link.Action} {u : Traffic}
    (first : UInt8 × List UInt8) :
    Traffic.initial.step c sender receiver (.link a) ≠ some u ∧
      (Traffic.initial.behind first).step c sender receiver (.link a) ≠ some u := by
  constructor <;> intro stepped <;>
    obtain ⟨link, moved, _⟩ := Option.map_eq_some_iff.mp stepped <;> cases a <;> cases moved

/-- A step of a packet of the handshake. -/
theorem stage_next {sender receiver : DataHandler} {packet data : List UInt8} {n : Nat}
    {a : Link.Action} {u : Traffic} (live : receiver.condition ≠ .expired)
    (pool : receiver.threadPool = some false) (keyless : receiver.Keyless) (some_ : packet ≠ [])
    (carried : Carried c sender.plain receiver.plain packet packet image .connection data)
    (stepped : Traffic.step c sender receiver
      ⟨Link.stage packet packet image .connection data (n + 1), []⟩ (.link a) = some u) :
    n < 6 ∧ u = ⟨Link.stage packet packet image .connection data (n + 2), []⟩ := by
  obtain ⟨link, moved, rfl⟩ := Option.map_eq_some_iff.mp stepped
  rw [Link.step_stage_plain live pool keyless some_] at moved
  obtain ⟨less, rfl⟩ := Link.step_stage carried (by exact pool) moved
  exact ⟨by omega, rfl⟩

theorem stage_moves {sender receiver : DataHandler} {packet data : List UInt8} {n : Nat}
    (live : receiver.condition ≠ .expired) (pool : receiver.threadPool = some false)
    (keyless : receiver.Keyless) (some_ : packet ≠ [])
    (carried : Carried c sender.plain receiver.plain packet packet image .connection data)
    (way : n < 6) : ∃ a, Traffic.step c sender receiver
      ⟨Link.stage packet packet image .connection data (n + 1), []⟩ (.link a) =
        some ⟨Link.stage packet packet image .connection data (n + 2), []⟩ := by
  obtain ⟨a, moved⟩ := Link.exists_step carried (by exact pool) (show n + 1 < 7 by omega)
  refine ⟨a, Option.map_eq_some_iff.mpr ⟨_, ?_, rfl⟩⟩
  rw [Link.step_stage_plain live pool keyless some_]
  exact moved

/-- Until the last stage nothing has come. -/
theorem hear_stage {P : Type} (receivedData : UInt8 → List UInt8 → Checked (Handling P Effect))
    (peer : P) (packet data : List UInt8) {n : Nat} (way : n < 6) :
    hear receivedData peer ⟨Link.stage packet packet image .connection data (n + 1), []⟩
        ⟨Link.stage packet packet image .connection data (n + 2), []⟩ =
      if n = 5 then (receivedData DataModes.connection.code data).toOption
      else some ⟨peer, [], done⟩ := by
  match n with
  | 0 | 1 | 2 | 3 | 4 | 5 => rfl
  | n+6 => omega

variable (ways : Ways w c s k image image')
include ways

/-- The request moves on, and in the end the session takes it. -/
theorem asked_next {n : Nat} (way : n < 6) :
    ∃ h, hear (s.onReceivedData w) s
        ⟨Link.stage (requested w k) (requested w k) image .connection (k.request w) (n + 1), []⟩
        ⟨Link.stage (requested w k) (requested w k) image .connection (k.request w) (n + 2), []⟩ =
          some h ∧
      Phase w c s k image image' (n + 1) ⟨h.peer, k,
        ⟨Link.stage (requested w k) (requested w k) image .connection (k.request w) (n + 2), []⟩,
        Traffic.initial.also h.effects, [] ++ h.effects.filter Effect.application, []⟩ := by
  rw [hear_stage _ _ _ _ way]
  split
  next last =>
    subst last
    obtain ⟨h, handled, peer, effects⟩ := NetworkSession.receivedConnection_greets ways.faithful
      ways.session ways.sessionPool ways.sessionSocket ways.registered ways.requestReadable
    refine ⟨h, congrArg Except.toOption handled, ?_⟩
    rw [peer, effects]
    exact @Phase.answered w c s k image image' 0 (by decide)
  next earlier => exact ⟨_, rfl, .asked (by omega)⟩

/-- The answer moves on, and in the end the client takes it. -/
theorem answered_next {n : Nat} (way : n < 6) :
    ∃ h, hear (k.onReceivedData w) k
        ⟨Link.stage (replied w s k) (replied w s k) image' .connection
          ((s.greeted w k).connectionMessage w true) (n + 1), []⟩
        ⟨Link.stage (replied w s k) (replied w s k) image' .connection
          ((s.greeted w k).connectionMessage w true) (n + 2), []⟩ = some h ∧
      Phase w c s k image image' (6 + n + 1) ⟨s.greeted w k, h.peer,
        (Traffic.initial.behind (DataModes.connection.code, k.request w)).also h.effects,
        ⟨Link.stage (replied w s k) (replied w s k) image' .connection
          ((s.greeted w k).connectionMessage w true) (n + 2), []⟩, [],
        [] ++ h.effects.filter Effect.application⟩ := by
  rw [hear_stage _ _ _ _ way]
  split
  next last =>
    subst last
    obtain ⟨h, handled, peer, quiet⟩ := NetworkClient.receivedConnection_greets ways.faithful
      ways.client ways.answerReadable
    have untold : h.effects.filter Effect.application = [] :=
      List.filter_eq_nil_iff.mpr fun e member => by
        rw [(quiet e member).2]
        exact Bool.false_ne_true
    refine ⟨h, congrArg Except.toOption handled, ?_⟩
    rw [peer, Traffic.also_nothing fun e member => (quiet e member).1, untold]
    exact @Phase.joined w c s k image image' 0 0 _ _ Traffic.initial_delivering
      Traffic.initial_delivering
  next earlier => exact ⟨_, rfl, @Phase.answered w c s k image image' (n + 1) (by omega)⟩

/-- A step of the client after the handshake. -/
theorem up_next {n m : Nat} {up down up' : Traffic}
    (one : Traffic.Delivering c (k.greeted (s.greeted w k)).toDataHandler
      (s.greeted w k).toDataHandler n up')
    (two : Traffic.Delivering c (s.greeted w k).toDataHandler
      (k.greeted (s.greeted w k)).toDataHandler m down)
    (received : up'.link.received = up.link.received ∨
      ∃ arrival, up'.link.received = up.link.received ++ [arrival]) :
    let first := (DataModes.connection.code, k.request w)
    let first' := (DataModes.connection.code, (s.greeted w k).connectionMessage w true)
    ∃ h, hear ((s.greeted w k).onReceivedData w) (s.greeted w k) (up.behind first)
        (up'.behind first) = some h ∧
      Phase w c s k image image' (12 + n + m) ⟨h.peer, k.greeted (s.greeted w k), up'.behind first,
        (down.behind first').also h.effects,
        told ((s.greeted w k).onReceivedData w) up ++ h.effects.filter Effect.application,
        told ((k.greeted (s.greeted w k)).onReceivedData w) down⟩ := by
  intro first first'
  obtain ⟨h, heard, peer, silent, more⟩ := hear_step one
    (fun call member => session_attends w ways.answers.1 (one.tells call member)) received first
  refine ⟨h, heard, ?_⟩
  rw [peer, Traffic.also_nothing silent, ← more]
  exact .joined one two

/-- A step of the session after the handshake. -/
theorem down_next {n m : Nat} {up down down' : Traffic}
    (one : Traffic.Delivering c (k.greeted (s.greeted w k)).toDataHandler
      (s.greeted w k).toDataHandler n up)
    (two : Traffic.Delivering c (s.greeted w k).toDataHandler
      (k.greeted (s.greeted w k)).toDataHandler m down')
    (received : down'.link.received = down.link.received ∨
      ∃ arrival, down'.link.received = down.link.received ++ [arrival]) :
    let first := (DataModes.connection.code, k.request w)
    let first' := (DataModes.connection.code, (s.greeted w k).connectionMessage w true)
    ∃ h, hear ((k.greeted (s.greeted w k)).onReceivedData w) (k.greeted (s.greeted w k))
        (down.behind first') (down'.behind first') = some h ∧
      Phase w c s k image image' (12 + n + m) ⟨s.greeted w k, h.peer,
        (up.behind first).also h.effects, down'.behind first',
        told ((s.greeted w k).onReceivedData w) up,
        told ((k.greeted (s.greeted w k)).onReceivedData w) down ++
          h.effects.filter Effect.application⟩ := by
  intro first first'
  obtain ⟨h, heard, peer, silent, more⟩ := hear_step two
    (fun call member => client_attends w ways.answers.2 (two.tells call member)) received first'
  refine ⟨h, heard, ?_⟩
  rw [peer, Traffic.also_nothing silent, ← more]
  exact .joined one two

variable {paired : c.lz4.Stream → c.lz4.StreamDecode → Prop} (faithful : c.lz4.Faithful paired)
include faithful

theorem Phase.step {n : Nat} {j t : Conversation} {a : Action}
    (phase : Phase w c s k image image' n j) (allowed : j.Allowed c a)
    (stepped : j.step w c a = some t) :
    Phase w c s k image image' (n + if a.ofLink then 1 else 0) t := by
  have sessionUnconfirmed : s.condition ≠ .confirmed := by
    rw [ways.session]
    decide
  have clientUnconfirmed : k.condition ≠ .confirmed := by
    rw [ways.client]
    decide
  have some_ : ∀ data, DataHandler.packet .connection data ≠ [] := DataHandler.packet_ne_nil _
  cases a with
  | up action =>
      obtain ⟨up, moved, stepped⟩ := Option.bind_eq_some_iff.mp stepped
      obtain ⟨h, heard, rfl⟩ := Option.map_eq_some_iff.mp stepped
      cases phase with
      | @asked n way =>
          cases action with
          | call call =>
              cases call_unmoved clientUnconfirmed moved
              cases (hear_same _ _ _).symm.trans heard
              exact .asked way
          | link action =>
              obtain ⟨_, rfl⟩ := stage_next ways.sessionLive ways.sessionPool ways.sessionKeyless
                (some_ _) ways.asks moved
              obtain ⟨h', heard', next⟩ := asked_next ways way
              cases heard'.symm.trans heard
              exact next
      | @answered n way =>
          cases action with
          | call call =>
              cases call_unmoved clientUnconfirmed moved
              cases (hear_same _ _ _).symm.trans heard
              rw [Traffic.also_nothing fun _ member => (by cases member)]
              exact @Phase.answered w c s k image image' n way
          | link action => exact absurd moved (initial_still _).2
      | @joined n m up_ down one two =>
          rw [Traffic.step_behind] at moved
          obtain ⟨up', advances, rfl⟩ := Option.map_eq_some_iff.mp moved
          obtain ⟨h', heard', next⟩ := up_next ways
            (one.step ways.matched.1 faithful allowed advances) two (Traffic.step_received advances)
          cases heard'.symm.trans heard
          rw [show ∀ x, 12 + n + m + x = 12 + (n + x) + m by omega]
          exact next
  | down action =>
      obtain ⟨down, moved, stepped⟩ := Option.bind_eq_some_iff.mp stepped
      obtain ⟨h, heard, rfl⟩ := Option.map_eq_some_iff.mp stepped
      cases phase with
      | @asked n way =>
          cases action with
          | call call => exact absurd (allowed.2 rfl) clientUnconfirmed
          | link action => exact absurd moved (initial_still (0, [])).1
      | @answered n way =>
          cases action with
          | call call => exact absurd (allowed.2 rfl) clientUnconfirmed
          | link action =>
              obtain ⟨_, rfl⟩ := stage_next ways.clientLive ways.clientPool ways.clientKeyless
                (some_ _) ways.replies moved
              obtain ⟨h', heard', next⟩ := answered_next ways way
              cases heard'.symm.trans heard
              exact next
      | @joined n m up down_ one two =>
          rw [Traffic.step_behind] at moved
          obtain ⟨down', advances, rfl⟩ := Option.map_eq_some_iff.mp moved
          obtain ⟨h', heard', next⟩ := down_next ways one
            (two.step ways.matched.2 faithful allowed.1 advances) (Traffic.step_received advances)
          cases heard'.symm.trans heard
          rw [Nat.add_assoc (12 + n) m]
          exact next

/-- Induction on the steps. -/
theorem Phase.run {n : Nat} {j t : Conversation} {actions : List Action}
    (phase : Phase w c s k image image' n j)
    (along : Along (Conversation.step w c) (Allowed c) j actions)
    (ran : Machine.run (Conversation.step w c) j actions = some t) :
    Phase w c s k image image' (n + actions.countP Action.ofLink) t := by
  induction actions generalizing n j with
  | nil =>
      cases ran
      exact phase
  | cons a rest ih =>
      obtain ⟨u, stepped, ran⟩ := run_cons.mp ran
      have last := ih (phase.step ways faithful along.1 stepped) (along.2 u stepped) ran
      rw [List.countP_cons, Nat.add_comm (rest.countP _), ← Nat.add_assoc]
      exact last

/-- While something is on its way, some job can run or some frame can be read. -/
theorem Phase.moves {n : Nat} {j : Conversation} (phase : Phase w c s k image image' n j)
    (busy : ¬ j.Quiet) : ∃ a t, a.ofLink = true ∧ j.step w c a = some t := by
  have some_ : ∀ data, DataHandler.packet .connection data ≠ [] := DataHandler.packet_ne_nil _
  have ups : ∀ {j : Conversation} {a up h},
      j.up.step c j.client.toDataHandler j.session.toDataHandler (.link a) = some up →
      hear (j.session.onReceivedData w) j.session j.up up = some h →
      ∃ a t, a.ofLink = true ∧ j.step w c a = some t := fun moved heard =>
    ⟨.up (.link _), _, rfl, Option.bind_eq_some_iff.mpr
      ⟨_, moved, Option.map_eq_some_iff.mpr ⟨_, heard, rfl⟩⟩⟩
  have downs : ∀ {j : Conversation} {a down h},
      j.down.step c j.session.toDataHandler j.client.toDataHandler (.link a) = some down →
      hear (j.client.onReceivedData w) j.client j.down down = some h →
      ∃ a t, a.ofLink = true ∧ j.step w c a = some t := fun moved heard =>
    ⟨.down (.link _), _, rfl, Option.bind_eq_some_iff.mpr
      ⟨_, moved, Option.map_eq_some_iff.mpr ⟨_, heard, rfl⟩⟩⟩
  cases phase with
  | asked way =>
      obtain ⟨a, moved⟩ := stage_moves ways.sessionLive ways.sessionPool ways.sessionKeyless (some_ _)
        ways.asks way
      obtain ⟨h, heard, _⟩ := asked_next ways way
      exact ups moved heard
  | answered way =>
      obtain ⟨a, moved⟩ := stage_moves ways.clientLive ways.clientPool ways.clientKeyless (some_ _)
        ways.replies way
      obtain ⟨h, heard, _⟩ := answered_next ways way
      exact downs moved heard
  | @joined _ _ up down one two =>
      by_cases quiet : up.link.Quiet
      · have busy : ¬ down.link.Quiet := fun still => busy ⟨quiet, still⟩
        obtain ⟨a, link, moved⟩ := two.accounted.moves ways.matched.2.receiverPool busy
        have stepped : down.step c (s.greeted w k).toDataHandler
            (k.greeted (s.greeted w k)).toDataHandler (.link a) = some { down with link } :=
          Option.map_eq_some_iff.mpr ⟨link, moved, rfl⟩
        obtain ⟨h, heard, _⟩ := down_next ways one
          (Traffic.Delivering.step ways.matched.2 faithful two (by exact trivial) stepped)
          (Traffic.step_received stepped)
        exact downs (Traffic.step_behind_some _ stepped) heard
      · obtain ⟨a, link, moved⟩ := one.accounted.moves ways.matched.1.receiverPool quiet
        have stepped : up.step c (k.greeted (s.greeted w k)).toDataHandler
            (s.greeted w k).toDataHandler (.link a) = some { up with link } :=
          Option.map_eq_some_iff.mpr ⟨link, moved, rfl⟩
        obtain ⟨h, heard, _⟩ := up_next ways
          (Traffic.Delivering.step ways.matched.1 faithful one (by exact trivial) stepped) two
          (Traffic.step_received stepped)
        exact ups (Traffic.step_behind_some _ stepped) heard

end

section
variable {w : World} {c : Codecs} {session : NetworkSession} {client : NetworkClient}

theorem started_waits (joinable : Joinable w c session client)
    (socketBufferSize clientBufferSize : Nat) :
    ∃ s k, Waits w c s k ∧ (s.greeted w k).caller = some (cString client.id, session.subId) ∧
      started w session socketBufferSize client clientBufferSize =
        ⟨s, k, ⟨Link.sent (.compressMessage (requested w k)), []⟩, .initial, [], []⟩ := by
  let s := session.start w (some true) socketBufferSize
  let k := (client.start w true clientBufferSize).1
  have opened := session.start_waiting w socketBufferSize
  have connects := client.start_connects joinable.faithful clientBufferSize
  have answer : (s.greeted w k).caller = some (cString client.id, session.subId) ∧
      (s.greeted w k).connectionMessage w true =
        (session.greeted w client).connectionMessage w true := by
    dsimp only [s, k]
    rw [opened, connects]
    unfold NetworkSession.greeted NetworkSession.createKey
    dsimp only
    split <;> exact ⟨rfl, rfl⟩
  refine ⟨s, k, ?_, answer.1, ?_⟩
  · dsimp only [s, k] at answer ⊢
    rw [opened, connects] at answer ⊢
    exact {
      joinable with
      answerReadable := answer.2 ▸ joinable.answerReadable
      answerLight := answer.2 ▸ joinable.answerLight
      session := rfl
      sessionPool := rfl
      sessionSocket := Option.some_ne_none _
      client := rfl
      clientPool := rfl
      clientSocket := Option.some_ne_none _ }
  · dsimp only [s, k]
    rw [started, connects]
    rfl

/-- From the request of the client on, in whatever order the jobs of both sides run: each
application is told of some of the calls that the other side has accepted, each of them once and of
nothing else. The request and its answer take six steps each, and every call seven. While something
is on its way some step can be taken, and in the end both sides are confirmed, they match, and every
accepted call has been told. -/
theorem conversation_told_once (joinable : Joinable w c session client)
    {paired : c.lz4.Stream → c.lz4.StreamDecode → Prop} (faithful : c.lz4.Faithful paired)
    (socketBufferSize clientBufferSize : Nat) {actions : List Action} {j : Conversation}
    (along : Along (step w c) (Allowed c)
      (started w session socketBufferSize client clientBufferSize) actions)
    (ran : run (step w c) (started w session socketBufferSize client clientBufferSize) actions =
      some j) :
    ∃ arrived underway arrived' underway',
      (arrived ++ underway).Perm j.up.accepted ∧ (arrived' ++ underway').Perm j.down.accepted ∧
      j.sessionTold = arrived.flatMap (Call.told (some (cString client.id, session.subId))) ∧
      j.clientTold = arrived'.flatMap (Call.told none) ∧
      actions.countP Action.ofLink ≤ 12 + 7 * (j.up.accepted.length + j.down.accepted.length) ∧
      (¬ j.Quiet → ∃ a t, a.ofLink = true ∧ j.step w c a = some t) ∧
      (j.Quiet → underway = [] ∧ underway' = [] ∧ j.session.condition = .confirmed ∧
        j.client.condition = .confirmed ∧
        Matched c j.client.toDataHandler j.session.toDataHandler) := by
  obtain ⟨s, k, waits, caller, begins⟩ := started_waits joinable socketBufferSize clientBufferSize
  obtain ⟨image, image', ways⟩ := waits.ways faithful
  rw [begins] at along ran
  have phase : Phase w c s k image image' _ j :=
    Phase.run ways faithful (@Phase.asked w c s k image image' 0 (by decide)) along ran
  have moves := Phase.moves ways faithful phase
  generalize count : 0 + actions.countP Action.ofLink = taken at phase
  rw [Nat.zero_add] at count
  rw [count]
  cases phase with
  | asked way =>
      refine ⟨[], [], [], [], .refl _, .refl _, rfl, rfl, by omega, moves, fun quiet => ?_⟩
      exact absurd quiet.1 (Link.stage_received (show taken + 1 < 7 by omega)).2
  | @answered n way =>
      refine ⟨[], [], [], [], .refl _, .refl _, rfl, rfl, by omega, moves, fun quiet => ?_⟩
      exact absurd quiet.2 (Link.stage_received (show n + 1 < 7 by omega)).2
  | @joined n m up down one two =>
      obtain ⟨arrived, underway, perm, received, all⟩ := one.accounted.split
      obtain ⟨arrived', underway', perm', received', all'⟩ := two.accounted.split
      refine ⟨arrived, underway, arrived', underway', perm, perm', ?_, ?_, ?_, moves, ?_⟩
      · rw [← caller]
        exact told_eq received fun call member => session_attends w ways.answers.1
          (one.tells call (perm.mem_iff.mp (List.mem_append_left _ member)))
      · exact told_eq received' fun call member => client_attends w ways.answers.2
          (two.tells call (perm'.mem_iff.mp (List.mem_append_left _ member)))
      · have ups := one.counted
        have downs := two.counted
        change 12 + n + m ≤ 12 + 7 * (up.accepted.length + down.accepted.length)
        omega
      · exact fun quiet => ⟨all quiet.1, all' quiet.2, greeted_condition, rfl, ways.matched.1⟩

end

/-- A session and a client with their callbacks, and encryption at the server. -/
def sampleSession : NetworkSession :=
  { Handshake.sampleSession with
    receivedBinaryCallback := some fun _ _ _ => done
    receivedMessageCallback := some fun _ _ => done }

def sampleClient : NetworkClient :=
  { Handshake.sampleClient with
    receivedBinaryCallback := some fun _ _ _ => done
    receivedMessageCallback := some fun _ _ => done }

theorem light_of_short {text : List UInt8} (some_ : DataHandler.packet .connection text ≠ [])
    (short : (DataHandler.packet .connection text).length ≤ blockBytes.toNat) :
    Light Link.sampleCodecs text := fun _ compressed =>
  Nat.lt_of_le_of_lt (Compressor.compression_single_length Lz4.literals_faithful some_ short
    compressed) (by decide)

theorem readable_of_known {data : List UInt8}
    (known : (Handshake.sampleTexts.find? (·.2 = data)).isSome = true) :
    ∃ message, Handshake.sampleWorld.parse data = .ok message := by
  obtain ⟨entry, found⟩ := Option.isSome_iff_exists.mp known
  exact ⟨_, Handshake.knownTexts_parse found⟩

theorem sample_joinable :
    Joinable Handshake.sampleWorld Link.sampleCodecs sampleSession sampleClient where
  faithful := Handshake.sampleWorld_faithful
  registered := by decide
  sessionKeyless := fun _ => .inl rfl
  clientKeyless := fun _ => .inl rfl
  requestReadable := readable_of_known (by decide +kernel)
  answerReadable := readable_of_known (by decide +kernel)
  requestLight := light_of_short (by decide +kernel) (by decide +kernel)
  answerLight := light_of_short (by decide +kernel) (by decide +kernel)
  keys := fun _ => ⟨by decide, by decide, Cipher.sample_inverts⟩
  sessionCallbacks := ⟨Option.some_ne_none _, Option.some_ne_none _⟩
  clientCallbacks := ⟨Option.some_ne_none _, Option.some_ne_none _⟩

/-- The handshake, and then a message of the client. -/
def firstMessage : List Action :=
  let ups : List Link.Action :=
    [.sender 0, .sender 0, .deliver, .receiver 0, .receiver 0, .receiver 0]
  ups.map (fun a => .up (.link a)) ++ ups.map (fun a => .down (.link a)) ++
    .up (.call (.message [104, 105])) :: .up (.link (.sender 0)) ::
      ups.map (fun a => .up (.link a))

/-- The packet of the message is short with and without encryption. -/
theorem fits_hi (h : DataHandler) :
    (Call.message [104, 105]).cargo.Fits Link.sampleCodecs h := by
  have faithful : Link.sampleCodecs.lz4.Faithful fun _ _ => True := Lz4.literals_faithful
  refine ⟨by decide, small_of_single faithful fun coded encrypts => ?_⟩
  have pushes : ∀ {job}, (.ok (.ofPush (h.push job)) : Checked Worked) =
      .ok (.pushed (.compressMessage coded)) → job = .compressMessage coded := by
    intro job same
    cases result : h.push job with
    | error what =>
        rw [result] at same
        cases same
    | ok job' =>
        rw [result] at same
        cases same
        exact (DataHandler.push_eq_ok result).symm
  have coded_ : coded = Cipher.samplePacket ∨ coded = Cipher.sampleCiphertext := by
    unfold DataHandler.encryptMessage DataHandler.alive at encrypts
    split at encrypts
    next => cases encrypts
    next =>
    split at encrypts
    next => cases encrypts
    next =>
    split at encrypts
    next =>
      by_cases keyless : h.key = [] ∨ h.iv = []
      · rw [Encryptor.encryption, Encryptor.withKey, if_neg (by decide), if_pos keyless] at encrypts
        exact .inl (Job.compressMessage.inj (pushes encrypts)).symm
      · rw [Encryptor.encryption, Encryptor.withKey, if_neg (by decide), if_neg keyless] at encrypts
        exact .inr (Job.compressMessage.inj (pushes encrypts)).symm
    next => exact .inl (Job.compressMessage.inj (pushes encrypts)).symm
  rcases coded_ with rfl | rfl <;> decide

theorem firstMessage_allowed (j : Conversation) :
    Along (step Handshake.sampleWorld Link.sampleCodecs) (Allowed Link.sampleCodecs) j
      firstMessage := by
  have shape : ∀ a ∈ firstMessage, a.ofLink = true ∨ a = .up (.call (.message [104, 105])) := by
    decide
  have all : ∀ a ∈ firstMessage, ∀ j, Allowed Link.sampleCodecs j a := by
    intro a member j
    rcases shape a member with linked | rfl
    · cases a with
      | up action =>
          cases action with
          | call => cases linked
          | link => trivial
      | down action =>
          cases action with
          | call => cases linked
          | link => exact ⟨trivial, fun same => (by cases same)⟩
    · exact fits_hi _
  exact ((along_true _ j firstMessage).and all).mono fun j a both => both.1 j

/-- The message reaches the session encrypted, and once. -/
theorem conversation_told_once_first : ∃ j, run (step Handshake.sampleWorld Link.sampleCodecs)
      (started Handshake.sampleWorld sampleSession 1024 sampleClient 1024) firstMessage = some j ∧
    ∃ arrived underway arrived' underway',
      (arrived ++ underway).Perm j.up.accepted ∧ (arrived' ++ underway').Perm j.down.accepted ∧
      j.sessionTold = arrived.flatMap (Call.told (some (cString [97], [99]))) ∧
      j.clientTold = arrived'.flatMap (Call.told none) ∧
      firstMessage.countP Action.ofLink ≤
        12 + 7 * (j.up.accepted.length + j.down.accepted.length) ∧
      (¬ j.Quiet → ∃ a t, a.ofLink = true ∧
        j.step Handshake.sampleWorld Link.sampleCodecs a = some t) ∧
      (j.Quiet → underway = [] ∧ underway' = [] ∧ j.session.condition = .confirmed ∧
        j.client.condition = .confirmed ∧
        Matched Link.sampleCodecs j.client.toDataHandler j.session.toDataHandler) := by
  obtain ⟨j, ran⟩ := Option.isSome_iff_exists.mp (show (run
    (step Handshake.sampleWorld Link.sampleCodecs) (started Handshake.sampleWorld sampleSession 1024
      sampleClient 1024) firstMessage).isSome = true by decide +kernel)
  have faithful : Link.sampleCodecs.lz4.Faithful fun _ _ => True := Lz4.literals_faithful
  exact ⟨j, ran, conversation_told_once sample_joinable faithful 1024 1024
    (firstMessage_allowed _) ran⟩

end Conversation
end CppToolkit.Network
