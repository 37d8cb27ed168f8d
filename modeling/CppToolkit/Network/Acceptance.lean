import CppToolkit.Network.Handshake
import CppToolkit.Network.SendOrder

/-! What the server sends to a client that it has accepted: the answer to the request, and
behind it packets of the application, through the pools of both ends. -/
namespace CppToolkit.Network
open Memory Utilities Thread Machine

/-- Both ends when the session has accepted the client and is about to answer, with the
workers of their pools. -/
structure Ends where
  codecs : Codecs
  world : World
  session : NetworkSession
  client : NetworkClient
  senders : List (List JobPriorities)
  receivers : List (List JobPriorities)

def Ends.answer (e : Ends) : Handling NetworkSession Effect :=
  e.session.responseConnection e.world true

inductive Worker where
  | sender (worker : Nat)
  | reader
  | receiver (worker : Nat)
  deriving DecidableEq, Repr

/-- A call of `received_data`, with the condition of the client that it finds. -/
structure Received where
  call : Nat
  mode : UInt8
  condition : ConnectConditions
  deriving DecidableEq, Repr

/-- The answer is call 0, the packets of the application are counted from 1 on. -/
structure Acceptance where
  sent : Nat
  relay : Relay Worker Parcel
  client : NetworkClient
  received : List Received

namespace Acceptance

inductive Action where
  | send (mode : DataModes) (data : List UInt8)
  | take (worker : Worker)
  | work (worker : Worker)
  deriving DecidableEq, Repr

/-- The parcel of a job of the answer. -/
def answered : Effect → Option Parcel
  | .push job => Parcel.ofJob job 0
  | _ => none

def initial (e : Ends) : Acceptance :=
  ⟨0, ⟨e.answer.effects.filterMap answered, []⟩, e.client, []⟩

def served (e : Ends) : Worker → List Nat
  | .sender i => Stage.served Stage.ofSender e.senders i
  | .reader => [Stage.wire.rank]
  | .receiver i => Stage.served Stage.ofReceiver e.receivers i

/-- The job of a parcel, at its end of the wire; the reader pushes what it has read. -/
def worked (e : Ends) (s : Acceptance) (p : Parcel) : Option (Checked Worked) :=
  match p.stage with
  | .encrypt | .compress | .send => p.work e.codecs e.answer.peer.toDataHandler
  | .wire => some (.ok (.ofPush (s.client.push (.decompressMessage p.data))))
  | .decompress | .decrypt | .receive => p.work e.codecs s.client.toDataHandler

/-- A call of `received_data`; a fault leaves no next state. -/
def receive (e : Ends) (s : Acceptance) (rest : Relay Worker Parcel) (call : Nat) (mode : UInt8)
    (data : List UInt8) : Option Acceptance :=
  match s.client.onReceivedData e.world mode data with
  | .ok h =>
      some { s with
        relay := rest
        client := h.peer
        received := s.received ++ [⟨call, mode, s.client.condition⟩] }
  | .error _ => none

def workStep (e : Ends) (s : Acceptance) (worker : Worker) (p : Parcel) : Option Acceptance :=
  let rest := s.relay.release worker
  match s.worked e p with
  | some (.ok (.received mode data)) => s.receive e rest p.call mode data
  | some (.ok what) => some { s with relay := ((p.next what).map rest.enter).getD rest }
  | _ => none

def sendStep (e : Ends) (s : Acceptance) (mode : DataModes) (data : List UInt8) : Acceptance :=
  match e.answer.peer.send mode data with
  | .ok job =>
      { s with
        sent := s.sent + 1
        relay := ((Parcel.ofJob job (s.sent + 1)).map s.relay.enter).getD s.relay }
  | .error _ => { s with sent := s.sent + 1 }

def step (e : Ends) (s : Acceptance) : Action → Option Acceptance
  | .send mode data => if mode = .connection then none else some (s.sendStep e mode data)
  | .take worker =>
      (s.relay.take Parcel.rank worker (served e worker)).map fun relay => { s with relay }
  | .work worker => (s.relay.holds worker).bind (s.workStep e worker)

/-- The worker passes on a packet of the application while another one has the answer in
its hand, at the same stage. -/
def overtakes (s : Acceptance) : Action → Bool
  | .work worker =>
      (s.relay.holds worker).any fun p => p.call ≠ 0 && p.stage ≠ .send && p.stage ≠ .wire &&
        s.relay.held.any fun other => other.2.stage = p.stage && other.2.call = 0
  | _ => false

/-- The stages with one worker. -/
def only (rank : Nat) : Option Worker :=
  if rank = Stage.send.rank then some (.sender 0)
  else if rank = Stage.wire.rank then some .reader
  else none

/-- The packet of the answer, as it is at each stage. -/
def routed (packet image : List UInt8) : Stage → Option (List UInt8)
  | .encrypt => none
  | .compress => some packet
  | .send => some image
  | .wire => some image
  | .decompress => some image
  | .decrypt => some packet
  | .receive => some packet

/-- What the jobs make of the answer, up to the client's `received_data`. -/
structure Route (e : Ends) (packet image data : List UInt8) : Prop where
  compresses : e.answer.peer.work e.codecs (.compressMessage packet) =
    some (.ok (.pushed (.sendingJob image)))
  sends : e.answer.peer.work e.codecs (.sendingJob image) = some (.ok (.written image))
  reads : e.client.push (.decompressMessage image) = .ok (.decompressMessage image)
  decompresses : e.client.work e.codecs (.decompressMessage image) =
    some (.ok (.pushed (.decryptMessage packet)))
  decrypts : e.client.work e.codecs (.decryptMessage packet) =
    some (.ok (.pushed (.receivingJob packet)))
  receives : e.client.work e.codecs (.receivingJob packet) =
    some (.ok (.received DataModes.connection.code data))
  confirms : ∀ h, e.client.onReceivedData e.world DataModes.connection.code data = .ok h →
    h.peer.condition = .confirmed

/-- The answer is on its way to the client, which waits for it. -/
structure Awaited (e : Ends) (packet image : List UInt8) (s : Acceptance) : Prop where
  client : s.client = e.client
  there : ∃ p ∈ s.relay.items, p.call = 0
  right : ∀ p ∈ s.relay.items, p.call = 0 → routed packet image p.stage = some p.data

structure Kept (e : Ends) (packet image : List UInt8) (s : Acceptance) : Prop where
  manned : s.relay.Manned Parcel.rank only
  ordered : s.relay.InOrder Parcel.rank (·.call = 0) (·.call ≠ 0)
  answered : s.client.condition = .confirmed ∨ s.Awaited e packet image
  received : ∀ r ∈ s.received, r.call ≠ 0 → r.condition = .confirmed

/-- What a step does. -/
inductive Moves (e : Ends) (s : Acceptance) : Action → Acceptance → Prop
  | refused {mode : DataModes} {data : List UInt8} :
      Moves e s (.send mode data) { s with sent := s.sent + 1 }
  | sent {mode : DataModes} {data : List UInt8} {p : Parcel} : p.rank = 0 → p.call ≠ 0 →
      Moves e s (.send mode data) { s with sent := s.sent + 1, relay := s.relay.enter p }
  | taken {worker : Worker} {p : Parcel} {relay : Relay Worker Parcel} :
      s.relay.Takes Parcel.rank worker (served e worker) p relay →
      Moves e s (.take worker) { s with relay }
  | dropped {worker : Worker} {p : Parcel} {what : Worked} : s.relay.holds worker = some p →
      s.worked e p = some (.ok what) → p.next what = none →
      (∀ mode data, what ≠ .received mode data) →
      Moves e s (.work worker) { s with relay := s.relay.release worker }
  | passed {worker : Worker} {p next : Parcel} {what : Worked} : s.relay.holds worker = some p →
      s.worked e p = some (.ok what) → p.next what = some next →
      Moves e s (.work worker) { s with relay := (s.relay.release worker).enter next }
  | received {worker : Worker} {p : Parcel} {mode : UInt8} {data : List UInt8}
      {h : Handling NetworkClient Effect} : s.relay.holds worker = some p →
      s.worked e p = some (.ok (.received mode data)) →
      s.client.onReceivedData e.world mode data = .ok h →
      Moves e s (.work worker)
        { s with
          relay := s.relay.release worker
          client := h.peer
          received := s.received ++ [⟨p.call, mode, s.client.condition⟩] }

section
variable {e : Ends} {s t : Acceptance} {packet image data : List UInt8}

theorem sent_parcel {mode : DataModes} {number : Nat} {job : Job} {p : Parcel}
    (other : mode ≠ .connection) (sent : e.answer.peer.send mode data = .ok job)
    (parcel : Parcel.ofJob job number = some p) : p.rank = 0 ∧ p.call = number := by
  have encrypts := (DataHandler.send_eq_ok sent).2
  rw [if_neg other] at encrypts
  subst encrypts
  cases parcel
  exact ⟨rfl, rfl⟩

theorem step_moves {a : Action} (stepped : step e s a = some t) : Moves e s a t := by
  cases a with
  | send mode data =>
      simp only [step] at stepped
      split at stepped
      next => cases stepped
      next other =>
        cases stepped
        unfold sendStep
        split
        next job sent =>
          cases parcel : Parcel.ofJob job (s.sent + 1) with
          | none => exact .refused
          | some p =>
              obtain ⟨rank, number⟩ := sent_parcel other sent parcel
              exact .sent rank (number ▸ Nat.succ_ne_zero s.sent)
        next => exact .refused
  | take worker =>
      obtain ⟨relay, taken, same⟩ := Option.map_eq_some_iff.mp stepped
      subst same
      obtain ⟨p, takes⟩ := Relay.take_takes taken
      exact .taken takes
  | work worker =>
      obtain ⟨p, holds, stepped⟩ := Option.bind_eq_some_iff.mp stepped
      unfold workStep at stepped
      dsimp only at stepped
      split at stepped
      next mode data does =>
        unfold receive at stepped
        split at stepped
        next h handled =>
          cases stepped
          exact .received holds does handled
        next => cases stepped
      next what plain does =>
        cases stepped
        cases next : p.next what with
        | none => exact .dropped holds does next plain
        | some q => exact .passed holds does next
      next => cases stepped

theorem worked_next {p next : Parcel} {what : Worked} (does : s.worked e p = some (.ok what))
    (leaves : p.next what = some next) : next.rank = p.rank + 1 ∧ next.call = p.call := by
  obtain ⟨stage, bytes, call⟩ := p
  cases stage with
  | wire =>
      cases does
      cases Parcel.next_ofPush leaves
      exact ⟨rfl, rfl⟩
  | _ => exact Parcel.work_next does leaves

theorem worked_received {p : Parcel} {mode : UInt8}
    (does : s.worked e p = some (.ok (.received mode data))) : p.stage = .receive := by
  obtain ⟨stage, bytes, call⟩ := p
  cases stage with
  | wire => exact absurd (Except.ok.inj (Option.some.inj does)) Parcel.ofPush_not_received
  | _ => exact Parcel.received_stage does

/-- A job of the answer passes it on, or hands it to `received_data`. -/
theorem Route.worked (route : Route e packet image data) (client : s.client = e.client) {p : Parcel}
    (right : routed packet image p.stage = some p.data) {what : Worked}
    (does : s.worked e p = some (.ok what)) :
    (∃ next, p.next what = some next ∧ routed packet image next.stage = some next.data ∧
      ∀ mode data, what ≠ .received mode data) ∨
    what = .received DataModes.connection.code data := by
  obtain ⟨stage, bytes, call⟩ := p
  unfold Acceptance.worked at does
  rw [client] at does
  cases stage with
  | encrypt => cases right
  | compress =>
      cases right
      cases route.compresses.symm.trans does
      exact .inl ⟨_, rfl, rfl, nofun⟩
  | send =>
      cases right
      cases route.sends.symm.trans does
      exact .inl ⟨_, rfl, rfl, nofun⟩
  | wire =>
      cases right
      simp only [route.reads] at does
      cases does
      exact .inl ⟨_, rfl, rfl, nofun⟩
  | decompress =>
      cases right
      cases route.decompresses.symm.trans does
      exact .inl ⟨_, rfl, rfl, nofun⟩
  | decrypt =>
      cases right
      cases route.decrypts.symm.trans does
      exact .inl ⟨_, rfl, rfl, nofun⟩
  | receive =>
      cases right
      cases route.receives.symm.trans does
      exact .inr rfl

theorem confirmed_stays {w : World} {c : NetworkClient} {mode : UInt8}
    {h : Handling NetworkClient Effect} (confirmed : c.condition = .confirmed)
    (handled : c.onReceivedData w mode data = .ok h) : h.peer.condition = .confirmed := by
  have behind : ∀ {what body}, (∀ h, body c.toPeer = .ok h → c.toPeer.Kept h) →
      c.expireFirst what body = .ok h → h.peer.condition = .confirmed := by
    intro what body keeps handled
    obtain ⟨_, inner, kept, rfl⟩ :=
      (confirmedOnly_cases handled).resolve_left fun expelled => expelled.1 confirmed
    exact (keeps inner kept).condition.trans confirmed
  have live : c.condition ≠ .expired := by
    rw [confirmed]
    decide
  have settled : c.condition ≠ .waiting := by
    rw [confirmed]
    decide
  unfold NetworkClient.onReceivedData at handled
  rw [if_neg live] at handled
  split at handled
  next =>
    cases handled
    exact confirmed
  next =>
    cases handled
    rw [NetworkClient.receivedConnection, if_pos settled]
    exact confirmed
  next => exact behind (fun _ => Peer.handleBinary_kept) handled
  next => exact behind (fun _ => Peer.handleMessage_kept) handled
  next => exact behind (fun _ => Peer.handleFile_kept) handled

theorem served_only (first : FirstSends e.senders) {worker other : Worker} {p : Parcel}
    (wanted : p.rank ∈ served e worker) (alone : only p.rank = some other) : worker = other := by
  obtain ⟨stage, bytes, call⟩ := p
  cases worker with
  | sender i =>
      obtain ⟨list, priority, found, listed, is⟩ := Stage.mem_served wanted
      unfold only at alone
      split at alone
      next send =>
        cases alone
        rw [Stage.rank_inj send] at is
        cases priority <;> cases is
        rw [first i list found listed]
      next =>
        split at alone
        next wire =>
          rw [Stage.rank_inj wire] at is
          cases priority <;> cases is
        next => cases alone
  | reader =>
      rw [served, List.mem_singleton] at wanted
      rw [wanted] at alone
      exact Option.some.inj alone
  | receiver i =>
      obtain ⟨list, priority, found, listed, is⟩ := Stage.mem_served wanted
      have none_ : only stage.rank = none := by cases priority <;> cases is <;> rfl
      cases none_.symm.trans alone

/-- A worker that passes on an application packet has the answer beside it in no hand. -/
theorem Kept.waits (kept : s.Kept e packet image) {worker : Worker} {p : Parcel}
    (holds : s.relay.holds worker = some p) (stays : s.overtakes (.work worker) = false)
    (application : p.call ≠ 0) {held : Worker × Parcel} (member : held ∈ s.relay.held)
    (answer : held.2.call = 0) : held.2.rank ≠ p.rank := by
  intro same
  have stage : held.2.stage = p.stage := Stage.rank_inj same
  have alone : ∀ one, only p.rank = some one → False := by
    intro one alone
    rw [kept.manned.same holds alone member same] at answer
    exact application answer
  have open_ : p.stage ≠ .send ∧ p.stage ≠ .wire := by
    constructor
    · intro send
      exact alone (.sender 0) (by rw [Parcel.rank, send]; rfl)
    · intro wire
      exact alone .reader (by rw [Parcel.rank, wire]; rfl)
  simp only [overtakes, holds, Option.any_some, application, open_.1, open_.2, ne_eq,
    not_false_eq_true, decide_true, Bool.true_and, List.any_eq_false, Bool.and_eq_true,
    decide_eq_true_eq] at stays
  exact stays held member ⟨stage, answer⟩

/-- While the answer is awaited, no packet of the application comes to `received_data`. -/
theorem Kept.before (kept : s.Kept e packet image) (awaited : s.Awaited e packet image)
    {worker : Worker} {p : Parcel} {mode : UInt8} (holds : s.relay.holds worker = some p)
    (stays : s.overtakes (.work worker) = false)
    (does : s.worked e p = some (.ok (.received mode data))) : p.call = 0 := by
  by_contra application
  have stage := worked_received does
  have top : p.rank = Stage.receive.rank := congrArg Stage.rank stage
  obtain ⟨r, member, answer⟩ := awaited.there
  rcases Relay.mem_items.mp member with queued | ⟨held, inside, rfl⟩
  · have behind : p.rank < r.rank :=
      kept.ordered.behind r queued _ (Relay.holds_mem holds) answer application
    rw [top] at behind
    exact absurd behind (Nat.not_lt_of_le r.stage.rank_le_receive)
  · have ahead : p.rank ≤ held.2.rank :=
      kept.ordered.hands held inside _ (Relay.holds_mem holds) answer application
    refine kept.waits holds stays application inside answer (Nat.le_antisymm ?_ ahead)
    rw [top]
    exact held.2.stage.rank_le_receive

theorem Kept.ordered_step (kept : s.Kept e packet image) {a : Action}
    (stays : s.overtakes a = false) (moves : Moves e s a t) :
    t.relay.InOrder Parcel.rank (·.call = 0) (·.call ≠ 0) := by
  cases moves with
  | refused => exact kept.ordered
  | @sent mode data p rank application =>
      refine kept.ordered.enter (fun answer => absurd answer application) ?_
      intro _ q _ _
      rw [rank]
      exact Nat.zero_le _
  | taken takes => exact takes.inOrder kept.ordered
  | dropped => exact kept.ordered.release _
  | @passed worker p next what holds does leaves =>
      obtain ⟨rank, same⟩ := worked_next does leaves
      refine kept.ordered.pass holds rank ⟨fun here => same ▸ here, fun there => same ▸ there⟩ ?_
      intro application held member answer
      exact kept.waits holds stays application member answer
  | received => exact kept.ordered.release _

theorem Kept.manned_step (kept : s.Kept e packet image) (first : FirstSends e.senders) {a : Action}
    (moves : Moves e s a t) : t.relay.Manned Parcel.rank only := by
  cases moves with
  | refused => exact kept.manned
  | sent => exact kept.manned.enter _
  | taken takes => exact takes.manned kept.manned fun other => served_only first takes.wanted
  | dropped => exact kept.manned.release _
  | passed => exact (kept.manned.release _).enter _
  | received => exact kept.manned.release _

theorem Awaited.keep (awaited : s.Awaited e packet image) {worker : Worker} {p : Parcel}
    (holds : s.relay.holds worker = some p) (application : p.call ≠ 0) :
    ∃ q ∈ (s.relay.release worker).items, q.call = 0 := by
  obtain ⟨q, member, answer⟩ := awaited.there
  rcases List.mem_cons.mp ((Relay.items_release holds).mem_iff.mp member) with same | left
  · exact absurd (same ▸ answer) application
  · exact ⟨q, left, answer⟩

theorem Awaited.step (route : Route e packet image data) (kept : s.Kept e packet image)
    (awaited : s.Awaited e packet image) {a : Action} (stays : s.overtakes a = false)
    (moves : Moves e s a t) : t.client.condition = .confirmed ∨ t.Awaited e packet image := by
  have held : ∀ {worker p}, s.relay.holds worker = some p → p ∈ s.relay.items := fun holds =>
    Relay.mem_items.mpr (.inr ⟨_, Relay.holds_mem holds, rfl⟩)
  cases moves with
  | refused => exact .inr ⟨awaited.client, awaited.there, awaited.right⟩
  | @sent mode data p rank application =>
      have entered := Relay.items_enter s.relay p
      obtain ⟨q, member, answer⟩ := awaited.there
      have inside := entered.mem_iff.mpr (List.mem_cons_of_mem _ member)
      refine .inr ⟨awaited.client, ⟨q, inside, answer⟩, ?_⟩
      intro r inside answer
      rcases List.mem_cons.mp (entered.mem_iff.mp inside) with rfl | old
      · exact absurd answer application
      · exact awaited.right r old answer
  | taken takes =>
      obtain ⟨q, member, answer⟩ := awaited.there
      exact .inr ⟨awaited.client, ⟨q, takes.items.mem_iff.mpr member, answer⟩,
        fun r inside => awaited.right r (takes.items.mem_iff.mp inside)⟩
  | @dropped worker p what holds does nothing plain =>
      have application : p.call ≠ 0 := by
        intro answer
        rcases route.worked awaited.client (awaited.right p (held holds) answer) does with
          ⟨next, leaves, _⟩ | received
        · cases nothing.symm.trans leaves
        · exact plain _ _ received
      exact .inr ⟨awaited.client, awaited.keep holds application,
        fun r inside => awaited.right r (Relay.release_items inside)⟩
  | @passed worker p next what holds does leaves =>
      have same := (worked_next does leaves).2
      have entered := Relay.items_enter (s.relay.release worker) next
      have right : next.call = 0 → routed packet image next.stage = some next.data := by
        intro answer
        rcases route.worked awaited.client (awaited.right p (held holds) (same ▸ answer)) does with
          ⟨next', leaves', routes, _⟩ | received
        · cases leaves.symm.trans leaves'
          exact routes
        · rw [received] at leaves
          cases leaves
      refine .inr ⟨awaited.client, ?_, ?_⟩
      · by_cases answer : p.call = 0
        · exact ⟨next, entered.mem_iff.mpr List.mem_cons_self, same.trans answer⟩
        · obtain ⟨q, member, answer⟩ := awaited.keep holds answer
          exact ⟨q, entered.mem_iff.mpr (List.mem_cons_of_mem _ member), answer⟩
      · intro r inside answer
        rcases List.mem_cons.mp (entered.mem_iff.mp inside) with rfl | old
        · exact right answer
        · exact awaited.right r (Relay.release_items old) answer
  | @received worker p mode bytes h holds does handled =>
      left
      have answer := kept.before awaited holds stays does
      rcases route.worked awaited.client (awaited.right p (held holds) answer) does with
        ⟨next, _, _, plain⟩ | received
      · exact absurd rfl (plain mode bytes)
      · cases received
        rw [awaited.client] at handled
        exact route.confirms h handled

theorem Kept.step (route : Route e packet image data) (first : FirstSends e.senders)
    (kept : s.Kept e packet image) {a : Action} (stays : s.overtakes a = false)
    (stepped : Acceptance.step e s a = some t) : t.Kept e packet image := by
  have moves := step_moves stepped
  refine ⟨kept.manned_step first moves, kept.ordered_step stays moves, ?_, ?_⟩
  · rcases kept.answered with confirmed | awaited
    · cases moves with
      | received holds does handled => exact .inl (confirmed_stays confirmed handled)
      | _ => exact .inl confirmed
    · exact Awaited.step route kept awaited stays moves
  · intro r member application
    cases moves with
    | @received worker p mode bytes h holds does handled =>
        rcases List.mem_append.mp member with old | new
        · exact kept.received r old application
        · rw [List.mem_singleton.mp new] at application ⊢
          exact kept.answered.resolve_right fun awaited =>
            application (kept.before awaited holds stays does)
    | _ => exact kept.received r member application

end

end Acceptance

/-- An end as the answer finds it: no job of it encrypts or decrypts. -/
def DataHandler.plain (h : DataHandler) : DataHandler := { h with encryptMode := false }

/-- The text of the answer. -/
def Ends.message (e : Ends) : List UInt8 :=
  (e.session.createKey e.world).connectionMessage e.world true

/-- The session is confirmed, its answer can be pushed, and the client waits for it. The
client has no key: it has not been confirmed before, or it has been disconnected since. -/
structure Ends.Accepting (e : Ends) : Prop where
  confirmed : e.session.condition = .confirmed
  sessionPool : e.session.threadPool = some false
  socket : e.session.socket ≠ none
  waiting : e.client.condition = .waiting
  clientPool : e.client.threadPool = some false
  keyless : e.client.encryptMode = true → e.client.key = [] ∨ e.client.iv = []
  faithful : e.world.Faithful
  readable : ∃ message, e.world.parse e.message = .ok message
  small : ∀ image, Compressor.compression e.codecs.lz4 (DataHandler.packet .connection e.message)
    blockBytes = .ok image → image.length < 2 ^ 31

namespace Acceptance

section
variable {e : Ends} {paired : e.codecs.lz4.Stream → e.codecs.lz4.StreamDecode → Prop}

theorem createKey_base (w : World) (s : NetworkSession) :
    (s.createKey w).condition = s.condition ∧ (s.createKey w).threadPool = s.threadPool ∧
      (s.createKey w).socket = s.socket := by
  unfold NetworkSession.createKey
  split <;> exact ⟨rfl, rfl, rfl⟩

theorem answer_eq (accepting : e.Accepting) :
    e.answer.peer = e.session.createKey e.world ∧
      e.answer.effects = [.push (.receivedConnectionJob e.message),
        .push (.compressMessage (DataHandler.packet .connection e.message))] := by
  obtain ⟨_, pool, socket⟩ := createKey_base e.world e.session
  rw [accepting.sessionPool] at pool
  have connected : (e.session.createKey e.world).socket ≠ none := socket ▸ accepting.socket
  have some_ : e.message ≠ [] := accepting.faithful.serialize_ne_nil _
  have pushes := DataHandler.push_running pool
  have sends : (e.session.createKey e.world).toDataHandler.send .connection e.message =
      .ok (.compressMessage (DataHandler.packet .connection e.message)) := by
    rw [DataHandler.send, if_neg connected, if_neg (by rw [pool]; exact Option.some_ne_none _),
      if_neg some_, if_pos rfl, pushes]
  unfold Ends.answer NetworkSession.responseConnection
  dsimp only
  rw [pool]
  refine ⟨rfl, ?_⟩
  change pushed (DataHandler.push _ _) ++ pushed (DataHandler.send _ _ e.message) = _
  rw [pushes, sends]
  rfl

theorem decryption_keyless {cipher : Cipher} {data key iv : List UInt8} (some_ : data ≠ [])
    (keyless : key = [] ∨ iv = []) :
    ∃ what, Encryptor.decryption cipher data key iv = .ok (.error what) :=
  ⟨_, by rw [Encryptor.decryption, Encryptor.withKey, if_neg some_, if_pos keyless]⟩

theorem decrypts_keyless {c : Codecs} {h : DataHandler} {data : List UInt8}
    (live : h.condition ≠ .expired) (pool : h.threadPool = some false) (some_ : data ≠ [])
    (keyless : h.encryptMode = true → h.key = [] ∨ h.iv = []) :
    h.decryptMessage c data = .ok (.pushed (.receivingJob data)) := by
  have pushes := DataHandler.push_running pool
  rw [DataHandler.decryptMessage, DataHandler.alive_live live pool]
  cases on : h.encryptMode with
  | false =>
      rw [pushes]
      rfl
  | true =>
      obtain ⟨what, same⟩ := @decryption_keyless c.cipher data h.key h.iv some_ (keyless on)
      rw [if_pos rfl, same, DataHandler.pushCoded, orRaw, pushes]
      rfl

theorem encrypts_plain {c : Codecs} {h : DataHandler} {data : List UInt8}
    (live : h.condition ≠ .expired) (pool : h.threadPool = some false) :
    h.plain.encryptMessage c data = .ok (.pushed (.compressMessage data)) := by
  rw [DataHandler.encryptMessage, @DataHandler.alive_live h.plain live pool,
    @DataHandler.push_running h.plain pool]
  rfl

/-- The answer reaches the client as it was sent: it is not encrypted, and without a key
the client does not decrypt it. -/
theorem Accepting.route (accepting : e.Accepting) (lz4 : e.codecs.lz4.Faithful paired) :
    ∃ image, Route e (DataHandler.packet .connection e.message) image e.message := by
  obtain ⟨peer, _⟩ := answer_eq accepting
  obtain ⟨condition, pool, socket⟩ := createKey_base e.world e.session
  have some_ : e.message ≠ [] := accepting.faithful.serialize_ne_nil _
  have fits : (DataHandler.packet .connection e.message).length < 2 ^ 63 :=
    accepting.faithful.fits _
  have live : e.client.condition ≠ .expired := by
    rw [accepting.waiting]
    decide
  have sessionLive : (e.session.createKey e.world).condition ≠ .expired := by
    rw [condition, accepting.confirmed]
    decide
  have matched : Matched e.codecs (e.session.createKey e.world).toDataHandler.plain
      e.client.toDataHandler.plain :=
    ⟨sessionLive, live, socket ▸ accepting.socket, pool.trans accepting.sessionPool,
      accepting.clientPool, rfl, nofun⟩
  have small : Small e.codecs (e.session.createKey e.world).toDataHandler.plain
      (DataHandler.packet .connection e.message) := by
    intro coded image encrypts compressed
    rw [encrypts_plain sessionLive (pool.trans accepting.sessionPool)] at encrypts
    cases encrypts
    exact accepting.small image compressed
  obtain ⟨coded, image, carried, plain⟩ := matched.carried lz4 .connection some_ fits small
  have same := plain rfl
  subst same
  refine ⟨image, ⟨?_, ?_, DataHandler.push_running accepting.clientPool _, carried.decompresses,
    ?_, carried.receives, ?_⟩⟩
  · rw [peer]
    exact carried.compresses
  · rw [peer]
    exact carried.sends
  · exact congrArg some (decrypts_keyless live accepting.clientPool
      (DataHandler.packet_ne_nil _ _) accepting.keyless)
  · intro h handled
    obtain ⟨message, parsed⟩ := accepting.readable
    unfold NetworkClient.onReceivedData at handled
    rw [if_neg live, DataModes.ofCode_code] at handled
    cases handled
    exact Handshake.receivedConnection_confirms accepting.faithful accepting.waiting
      (e.session.createKey e.world) parsed

/-- At first the answer waits to be compressed. -/
theorem initial_kept (accepting : e.Accepting) (image : List UInt8) :
    (initial e).Kept e (DataHandler.packet .connection e.message) image := by
  have queued : (initial e).relay.queued =
      [⟨.compress, DataHandler.packet .connection e.message, 0⟩] := by
    rw [initial, (answer_eq accepting).2]
    rfl
  have items : (initial e).relay.items =
      [⟨.compress, DataHandler.packet .connection e.message, 0⟩] := by
    rw [Relay.items, queued]
    rfl
  have held : ∀ {h}, h ∉ (initial e).relay.held := List.not_mem_nil
  refine ⟨⟨.nil, fun _ inside => absurd inside held⟩, ⟨?_, ?_, ?_, ?_⟩, .inr ⟨rfl, ?_, ?_⟩,
    fun _ inside => absurd inside List.not_mem_nil⟩
  · rw [queued]
    exact List.pairwise_singleton _ _
  · exact fun _ _ _ inside => absurd inside held
  · exact fun _ _ _ inside => absurd inside held
  · exact fun _ inside => absurd inside held
  · rw [items]
    exact ⟨_, List.mem_cons_self, rfl⟩
  · intro p member _
    rw [items, List.mem_singleton] at member
    rw [member]
    rfl

end

/-- However the workers of both ends take turns: while none of them passes on an application
packet that another one with the answer in its hand is behind, the client takes the answer
first, and no packet of the application expires it. -/
theorem never_expired_by_order {e : Ends} (accepting : e.Accepting)
    {paired : e.codecs.lz4.Stream → e.codecs.lz4.StreamDecode → Prop}
    (lz4 : e.codecs.lz4.Faithful paired) {high normal low : Nat}
    (senders : e.senders = createThreadPool high normal low) {actions : List Action}
    {t : Acceptance} (ran : run (step e) (initial e) actions = some t)
    (along : Along (step e) (fun s a => s.overtakes a = false) (initial e) actions) :
    t.client.condition ≠ .expired ∧
      ∀ r ∈ t.received, r.call ≠ 0 → r.condition = .confirmed := by
  have first : FirstSends e.senders := senders ▸ createThreadPool_firstSends high normal low
  obtain ⟨image, route⟩ := Accepting.route accepting lz4
  have kept := run_invariant
    (fun _ _ _ held stays stepped => Kept.step route first held stays stepped)
    (initial_kept accepting image) along ran
  refine ⟨?_, kept.received⟩
  rcases kept.answered with confirmed | awaited
  · rw [confirmed]
    decide
  · rw [awaited.client, accepting.waiting]
    decide

/-- The text of an answer without encryption. -/
def sampleAnswer : List (String × Json) × List UInt8 :=
  ([("id", .string [97]), ("sub_id", .string [99]), ("key", .string []), ("iv", .string []),
      ("encrypt_mode", .bool false), ("condition", .bool true)],
    Handshake.ascii ("\x7b\"id\":\"a\",\"sub_id\":\"c\",\"key\":\"\",\"iv\":\"\"," ++
      "\"encrypt_mode\":false,\"condition\":true\x7d"))

/-- An accepted client, and pools with one worker of each kind. -/
def sampleEnds : Ends where
  codecs := Link.sampleCodecs
  world := Handshake.knownTexts [sampleAnswer] (Cipher.sampleKey, Cipher.sampleIv)
  session := {
    toPeer := { Peer.connected with
      toDataHandler := { DataHandler.connected with id := [97], subId := [99] } }
    receivedConnectionCallback := none }
  client := {
    toPeer := { Peer.connected with
      toDataHandler := { DataHandler.connected with id := [97], condition := .waiting } }
    receivedConnectionCallback := none }
  senders := createThreadPool 1 1 1
  receivers := clientThreadPool 1 1 1

theorem sampleEnds_accepting : sampleEnds.Accepting where
  confirmed := rfl
  sessionPool := rfl
  socket := by decide
  waiting := rfl
  clientPool := rfl
  keyless := nofun
  faithful := Handshake.knownTexts_faithful (by decide +kernel) (by decide +kernel)
    (by decide +kernel) (by decide +kernel)
  readable := ⟨_, rfl⟩
  small := fun _ compressed => Nat.lt_of_le_of_lt
    (Compressor.compression_single_length Lz4.literals_faithful (by decide +kernel)
      (by decide +kernel) compressed) (by decide)

def turn (worker : Worker) : List Action := [.take worker, .work worker]

/-- The jobs of a packet at the client, up to `received_data`. -/
def arrived : List Action := [Worker.reader, .receiver 3, .receiver 2, .receiver 1].flatMap turn

/-- The message is encrypted while the answer is sent, and follows it. -/
def followed : List Action :=
  Action.take (.sender 1) :: Action.send .message [104, 105] :: turn (.sender 2) ++
    Action.work (.sender 1) :: Action.take (.sender 0) :: Action.take (.sender 1) ::
    Action.work (.sender 0) :: arrived ++ Action.work (.sender 1) :: turn (.sender 0) ++ arrived

theorem never_expired_by_order_followed :
    ∃ t, run (step sampleEnds) (initial sampleEnds) followed = some t ∧ t.received.length = 2 ∧
      t.client.condition ≠ .expired ∧ ∀ r ∈ t.received, r.call ≠ 0 → r.condition = .confirmed := by
  have received : (run (step sampleEnds) (initial sampleEnds) followed).map
      (fun t => t.received.length) = some 2 := by decide +kernel
  obtain ⟨t, ran, two⟩ := Option.map_eq_some_iff.mp received
  exact ⟨t, ran, two, @never_expired_by_order sampleEnds sampleEnds_accepting _
    Lz4.literals_faithful 1 1 1 rfl followed t ran (by decide +kernel)⟩

/-- The worker that compresses the answer is slow. -/
def overtaken : List Action :=
  Action.take (.sender 1) :: Action.send .message [104, 105] :: turn (.sender 2) ++
    turn (.sender 2) ++ turn (.sender 0) ++ arrived

theorem expired_by_order :
    ¬ ∀ (e : Ends) paired, e.Accepting → e.codecs.lz4.Faithful paired →
      ∀ high normal low, 0 < high → 0 < normal → 0 < low →
        e.senders = createThreadPool high normal low →
        e.receivers = clientThreadPool high normal low →
        ∀ actions t, run (step e) (initial e) actions = some t →
          t.client.condition ≠ .expired ∧
            ∀ r ∈ t.received, r.call ≠ 0 → r.condition = .confirmed := by
  intro always
  have ended : (run (step sampleEnds) (initial sampleEnds) overtaken).map
      (fun t => t.client.condition) = some .expired := by decide +kernel
  obtain ⟨t, ran, expired⟩ := Option.map_eq_some_iff.mp ended
  exact (always sampleEnds _ sampleEnds_accepting Lz4.literals_faithful 1 1 1 Nat.one_pos
    Nat.one_pos Nat.one_pos rfl rfl overtaken t ran).1 expired

end Acceptance
end CppToolkit.Network
