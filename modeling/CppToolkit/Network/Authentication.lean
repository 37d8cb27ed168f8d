import CppToolkit.Library.Machine
import CppToolkit.Network.NetworkSession

/-! A session between one start and the next: whatever packets arrive, application
traffic is delivered only after the handshake and never after the session expired. -/
namespace CppToolkit.Network
open Memory Utilities Machine

namespace NetworkSession

/-- The condition in the end is `condition`, and no application callback was called. -/
structure Inert (condition : ConnectConditions) (h : Handling NetworkSession Effect) : Prop where
  condition : h.peer.condition = condition
  effects : ∀ e ∈ h.effects, e.application = false

theorem inert_nothing (s : NetworkSession) (reply : Reply) : Inert s.condition ⟨s, [], reply⟩ :=
  ⟨rfl, fun _ member => (by cases member)⟩

theorem Inert.andThen {condition : ConnectConditions} {h : Handling NetworkSession Effect}
    {next : NetworkSession → Handling NetworkSession Effect} (first : Inert condition h)
    (rest : ∀ s : NetworkSession, s.condition = condition → Inert condition (next s)) :
    Inert condition (h.andThen next) :=
  ⟨Handling.andThen_peer (I := fun s => s.condition = condition) first.condition
      fun s same => (rest s same).condition,
    Handling.andThen_effects first.effects (rest _ first.condition).effects⟩

theorem pushed_application (push : Except String Job) : ∀ e ∈ pushed push, e.application = false := by
  cases push with
  | error what => exact fun e member => (by cases member)
  | ok job =>
      intro e member
      rw [List.mem_singleton.mp member]
      rfl

variable (w : World) (s : NetworkSession)

theorem createKey_condition : (s.createKey w).condition = s.condition := by
  unfold createKey
  split <;> rfl

theorem responseConnection_inert (accepted : Bool) :
    Inert s.condition (s.responseConnection w accepted) := by
  have same := createKey_condition w s
  unfold responseConnection
  dsimp only
  split
  next =>
    refine ⟨same, ?_⟩
    intro e member
    exact (List.mem_append.mp member).elim (pushed_application _ e) (pushed_application _ e)
  next =>
    split
    next => exact ⟨same, fun _ member => (by cases member)⟩
    next =>
      refine ⟨same, ?_⟩
      intro e member
      rw [List.mem_singleton.mp member]
      rfl

theorem setCondition_inert (newCondition : ConnectConditions) (byItself : Bool) :
    Inert newCondition (s.setCondition w newCondition byItself) := by
  unfold setCondition DataHandler.setCondition
  split
  next same =>
    rw [← same]
    exact inert_nothing s done
  next =>
    dsimp only
    split
    next =>
      have answered : Inert newCondition _ :=
        responseConnection_inert w { s with condition := newCondition } false
      apply answered.andThen
      intro t same
      rw [← same]
      exact inert_nothing t done
    next => exact ⟨rfl, fun _ member => (by cases member)⟩

/-- A `Connection` packet whose registered key passes the comparison of the handler. -/
def Authenticates (data : List UInt8) : Prop :=
  ∃ message key, w.parse (Converter.toString data) = .ok message ∧
    message "registered_key" = some key ∧ s.accepts key = true

theorem receivedConnection_cases (data : List UInt8) :
    Inert s.condition (s.receivedConnection w data) ∨
      Inert .expired (s.receivedConnection w data) ∨
      s.condition = .waiting ∧ s.Authenticates w data ∧
        Inert .confirmed (s.receivedConnection w data) := by
  unfold receivedConnection
  split
  next => exact .inl (inert_nothing s _)
  next waiting =>
  split
  next => exact .inl (inert_nothing s _)
  next =>
  split
  next => exact .inl (inert_nothing s _)
  next message parsed =>
  split
  next => exact .inl (inert_nothing s _)
  next id =>
    dsimp only
    split
    next => exact .inl ⟨rfl, fun _ member => (by cases member)⟩
    next key found =>
      split
      next accepted =>
        refine .inr (.inr ⟨Decidable.not_not.mp waiting, ⟨message, key, parsed, found, accepted⟩,
          (setCondition_inert w _ .confirmed false).andThen ?_⟩)
        intro t same
        rw [← same]
        exact responseConnection_inert w t true
      next =>
        refine .inr (.inl ((setCondition_inert w _ .expired false).andThen ?_))
        intro t same
        rw [← same]
        exact responseConnection_inert w t false
  next => exact .inl (inert_nothing s _)

/-- A handler behind the guard: a stranger is expelled, and a confirmed peer is handled
by a body that leaves the condition alone. -/
theorem expireFirst_cases {what : String} {body : Peer → Checked (Handling Peer Effect)}
    {h : Handling NetworkSession Effect}
    (keeps : ∀ h, body s.toPeer = .ok h → h.peer.condition = s.condition)
    (handled : s.expireFirst w what body = .ok h) :
    s.condition = .confirmed ∧ h.peer.condition = .confirmed ∨
      s.condition ≠ .confirmed ∧ Inert .expired h := by
  rcases confirmedOnly_cases handled with ⟨stranger, rfl⟩ | ⟨confirmed, inner, kept, rfl⟩
  · refine .inr ⟨stranger, (setCondition_inert w s .expired false).andThen ?_⟩
    intro t same
    rw [← same]
    exact inert_nothing t _
  · exact .inl ⟨confirmed, (keeps inner kept).trans confirmed⟩

/-- What happens to a session after its start; the data of a packet is what
`ReceivingJob` found behind the mode byte. -/
inductive Event where
  | packet (mode : UInt8) (data : List UInt8)
  | readError
  | stop
  deriving DecidableEq, Repr

def process (w : World) (s : NetworkSession) : Event → Checked (Handling NetworkSession Effect)
  | .packet mode data => s.onReceivedData w mode data
  | .readError => .ok (s.setCondition w .expired false)
  | .stop => .ok (s.stop w)

def Event.application : Event → Bool
  | .packet mode _ => mode = DataModes.binary.code ∨ mode = DataModes.message.code ∨
      mode = DataModes.file.code
  | _ => false

/-- One processed event: the session before it, and what it left. -/
structure Processed where
  before : NetworkSession
  event : Event
  handling : Handling NetworkSession Effect

/-- What holds for every processed event. -/
structure Guarded (w : World) (p : Processed) : Prop where
  callbacks : ∀ e ∈ p.handling.effects, e.application = true → p.before.condition = .confirmed
  confirmed : p.handling.peer.condition = .confirmed → p.before.condition = .confirmed ∨
    p.before.condition = .waiting ∧
      ∃ data, p.event = .packet DataModes.connection.code data ∧ p.before.Authenticates w data
  strangers : p.event.application = true → p.before.condition ≠ .confirmed →
    p.handling.peer.condition = .expired
  expired : p.before.condition = .expired → p.handling.peer.condition = .expired

theorem Inert.not_application {condition : ConnectConditions} {h : Handling NetworkSession Effect}
    (inert : Inert condition h) {e : Effect} (member : e ∈ h.effects) {Q : Prop}
    (application : e.application = true) : Q := by
  rw [inert.effects e member] at application
  cases application

theorem Inert.guarded_expired {e : Event} {h : Handling NetworkSession Effect}
    (inert : Inert .expired h) : Guarded w ⟨s, e, h⟩ where
  callbacks := fun _ member application => inert.not_application member application
  confirmed := fun same => by
    rw [inert.condition] at same
    cases same
  strangers := fun _ _ => inert.condition
  expired := fun _ => inert.condition

theorem Inert.guarded_same {e : Event} {h : Handling NetworkSession Effect}
    (inert : Inert s.condition h) (foreign : e.application = false) : Guarded w ⟨s, e, h⟩ where
  callbacks := fun _ member application => inert.not_application member application
  confirmed := fun same => .inl (inert.condition ▸ same)
  strangers := fun application => by
    rw [foreign] at application
    cases application
  expired := fun same => inert.condition.trans same

theorem expireFirst_guarded {what : String} {body : Peer → Checked (Handling Peer Effect)}
    {e : Event} {h : Handling NetworkSession Effect}
    (keeps : ∀ h, body s.toPeer = .ok h → h.peer.condition = s.condition)
    (handled : s.expireFirst w what body = .ok h) : Guarded w ⟨s, e, h⟩ := by
  rcases expireFirst_cases w s keeps handled with ⟨confirmed, same⟩ | ⟨_, inert⟩
  · exact ⟨fun _ _ _ => confirmed, fun _ => .inl confirmed,
      fun _ stranger => absurd confirmed stranger, fun expired => by
        rw [confirmed] at expired
        cases expired⟩
  · exact inert.guarded_expired w s

/-- One event of any kind. -/
theorem process_guarded {e : Event} {h : Handling NetworkSession Effect}
    (handled : s.process w e = .ok h) : Guarded w ⟨s, e, h⟩ := by
  cases e with
  | packet mode data =>
      simp only [process, onReceivedData] at handled
      split at handled
      next unknown =>
        cases handled
        refine (inert_nothing s _).guarded_same w s ?_
        rw [Event.application, decide_eq_false_iff_not]
        rintro (rfl | rfl | rfl) <;> cases unknown
      next known =>
        cases handled
        have code := DataModes.code_of_ofCode known
        rcases receivedConnection_cases w s data with inert | inert | ⟨waiting, key, inert⟩
        · apply inert.guarded_same w s
          rw [code]
          rfl
        · exact inert.guarded_expired w s
        · refine ⟨fun _ member application => inert.not_application member application,
            fun _ => .inr ⟨waiting, data, by rw [code], key⟩, ?_, ?_⟩
          · intro application
            rw [code] at application
            cases application
          · intro expired
            rw [waiting] at expired
            cases expired
      next => exact expireFirst_guarded w s (fun _ inner => (Peer.handleBinary_kept inner).condition) handled
      next => exact expireFirst_guarded w s (fun _ inner => (Peer.handleMessage_kept inner).condition) handled
      next => exact expireFirst_guarded w s (fun _ inner => (Peer.handleFile_kept inner).condition) handled
  | readError =>
      cases handled
      exact (setCondition_inert w s .expired false).guarded_expired w s
  | stop =>
      cases handled
      refine Inert.guarded_expired w s ((setCondition_inert w s .expired true).andThen ?_)
      intro t same
      exact ⟨same, fun _ member => (by cases member)⟩

end NetworkSession

/-- A session with everything that has been processed since its start. -/
structure SessionRun where
  session : NetworkSession
  history : List NetworkSession.Processed

namespace SessionRun
open NetworkSession

/-- A fault leaves no next state: from there on the program has no defined behaviour. -/
def step (w : World) (r : SessionRun) (e : Event) : Option SessionRun :=
  match r.session.process w e with
  | .error _ => none
  | .ok h => some ⟨h.peer, r.history ++ [⟨r.session, e, h⟩]⟩

theorem step_eq_some_iff {w : World} {r t : SessionRun} {e : Event} :
    step w r e = some t ↔ ∃ h, r.session.process w e = .ok h ∧
      t = ⟨h.peer, r.history ++ [⟨r.session, e, h⟩]⟩ := by
  unfold step
  cases r.session.process w e with
  | error fault => simp
  | ok h => simp [eq_comm]

/-- An expired session stays expired and is silent. -/
def Absorbs (p q : Processed) : Prop :=
  p.handling.peer.condition = .expired →
    q.handling.peer.condition = .expired ∧ ∀ e ∈ q.handling.effects, e.application = false

structure Invariant (w : World) (r : SessionRun) : Prop where
  guarded : ∀ p ∈ r.history, Guarded w p
  absorbs : r.history.Pairwise Absorbs
  last : ∀ p ∈ r.history, p.handling.peer.condition = .expired → r.session.condition = .expired

theorem step_invariant {w : World} {r t : SessionRun} {e : Event} (held : Invariant w r)
    (stepped : step w r e = some t) : Invariant w t := by
  obtain ⟨h, processed, rfl⟩ := step_eq_some_iff.mp stepped
  have next := process_guarded w r.session processed
  refine ⟨?_, ?_, ?_⟩
  · intro p member
    rcases List.mem_append.mp member with old | new
    · exact held.guarded p old
    · rw [List.mem_singleton.mp new]
      exact next
  · refine List.pairwise_append.mpr ⟨held.absorbs, List.pairwise_singleton _ _, ?_⟩
    intro p member q last expired
    rw [List.mem_singleton.mp last]
    have before := held.last p member expired
    refine ⟨next.expired before, ?_⟩
    intro e called
    by_contra application
    have confirmed := next.callbacks e called (eq_true_of_ne_false application)
    rw [before] at confirmed
    cases confirmed
  · intro p member expired
    rcases List.mem_append.mp member with old | new
    · exact next.expired (held.last p old expired)
    · rw [List.mem_singleton.mp new] at expired
      exact expired

/-- Between one start and the next: callbacks are called only while the session is
confirmed, only a packet with the registered key confirms it, and only while it waits,
a stranger's application packet expires it, and what is expired stays so. -/
theorem authenticated_first (w : World) (s : NetworkSession) (connectedSocket : Option Bool)
    (socketBufferSize : Nat) {events : List Event} {r : SessionRun}
    (ran : run (step w) ⟨s.start w connectedSocket socketBufferSize, []⟩ events = some r) :
    (∀ p ∈ r.history,
      (∀ e ∈ p.handling.effects, e.application = true → p.before.condition = .confirmed) ∧
      (p.handling.peer.condition = .confirmed → p.before.condition ≠ .confirmed →
        p.before.condition = .waiting ∧
          ∃ data, p.event = .packet DataModes.connection.code data ∧
            p.before.Authenticates w data) ∧
      (p.event.application = true → p.before.condition ≠ .confirmed →
        p.handling.peer.condition = .expired)) ∧
      r.history.Pairwise Absorbs := by
  have start : Invariant w ⟨s.start w connectedSocket socketBufferSize, []⟩ :=
    ⟨fun _ member => (by cases member), .nil, fun _ member => (by cases member)⟩
  have held := run_keeps (fun _ _ _ held stepped => step_invariant held stepped) start ran
  refine ⟨?_, held.absorbs⟩
  intro p member
  have guarded := held.guarded p member
  exact ⟨guarded.callbacks, fun confirmed stranger =>
    (guarded.confirmed confirmed).resolve_left stranger, guarded.strangers⟩

/-- A world that knows one client, for examples. -/
def oneClient : World where
  parse := fun data =>
    if data = [1] then
      .ok fun field =>
        if field = "id" then some (.string [7]) else some (.string [8, 0, 9])
    else .error "cannot parse"
  serialize := fun _ => [2]
  createKey := fun _ => ([3], [4])
  saveTempPath := fun _ _ => .ok none

/-- A session that delivers messages, before its start. -/
def listener : NetworkSession where
  toDataHandler := { DataHandler.initial with encryptMode := true }
  serverId := []
  registeredKey := [8]
  fileManager := .initial
  keysCreated := 0
  filesSaved := 0
  receivedBinaryCallback := none
  receivedMessageCallback := some fun _ _ => done
  receivedFileCallback := none
  receivedConnectionCallback := none

def oneMessage : List Event :=
  [.packet 3 [5], .packet 3 [1], .packet 2 [6], .readError, .packet 2 [6]]

/-- The client is confirmed, sends one message, is lost, and sends another one. -/
theorem authenticated_first_run :
    ∃ r, run (step oneClient) ⟨listener.start oneClient (some true) 8, []⟩ oneMessage = some r ∧
      r.history.map (fun p => p.before.condition) =
        [.waiting, .waiting, .confirmed, .confirmed, .expired] ∧
      r.history.Pairwise Absorbs := by
  have conditions : (run (step oneClient) ⟨listener.start oneClient (some true) 8, []⟩
      oneMessage).map (fun r => r.history.map fun p => p.before.condition) =
        some [.waiting, .waiting, .confirmed, .confirmed, .expired] := rfl
  obtain ⟨r, ran, same⟩ := Option.map_eq_some_iff.mp conditions
  exact ⟨r, ran, same, (authenticated_first oneClient listener (some true) 8 ran).2⟩

end SessionRun
end CppToolkit.Network
