import CppToolkit.Library.Bag
import CppToolkit.Network.Authentication
import CppToolkit.Network.Pipeline

/-! The answer of a session to a client that it turns away, from `response_connection`
to the socket. The statements of functions that run on other threads come in between. -/
namespace CppToolkit.Network
open Memory Utilities Machine Bag

/-- What a thread inside a function of the session still has to do. -/
inductive Statement where
  | setCondition (newCondition : ConnectConditions) (byItself : Bool)
  | responseConnection (condition : Bool)
  | release
  deriving DecidableEq, Repr

namespace NetworkSession

/-- The end of `stop`. -/
def release (s : NetworkSession) : NetworkSession :=
  let fileManager := { s.fileManager with threadPool := none }
  { s with fileManager, threadPool := none, socket := none }

/-- A statement, and what it calls next: the setter notifies behind its assignment. -/
def execute (w : World) (s : NetworkSession) :
    Statement → Handling NetworkSession Effect × List Statement
  | .setCondition newCondition _ =>
      if s.condition = newCondition then (⟨s, [], done⟩, [])
      else
        (⟨{ s with condition := newCondition }, [], done⟩,
          if newCondition = .expired then [.responseConnection false] else [])
  | .responseConnection condition => (s.responseConnection w condition, [])
  | .release => (⟨s.release, [], done⟩, [])

/-- The tests at the head of `received_connection`, and what they lead to. -/
def connectionStatements (w : World) (s : NetworkSession) (data : List UInt8) :
    NetworkSession × List Statement :=
  if s.condition ≠ .waiting then (s, [])
  else if data = [] then (s, [])
  else
    match w.parse (Converter.toString data) with
    | .error _ => (s, [])
    | .ok receivedMessage =>
        match receivedMessage "id" with
        | none => (s, [])
        | some (.string id) =>
            let s := { s with id := cString id }
            match receivedMessage "registered_key" with
            | none => (s, [])
            | some key =>
                if s.accepts key then
                  (s, [.setCondition .confirmed false, .responseConnection true])
                else (s, [.setCondition .expired false, .responseConnection false])
        | some _ => (s, [])

/-- A thread comes into a function of the session. What a handler of application packets
does for a confirmed peer is no matter of the condition. -/
def arrive (w : World) (s : NetworkSession) : Event → Checked (NetworkSession × List Statement)
  | .packet mode data =>
      if DataModes.ofCode mode = none then .ok (s, [])
      else if DataModes.ofCode mode = some .connection then .ok (s.connectionStatements w data)
      else if s.condition ≠ .confirmed then .ok (s, [.setCondition .expired false])
      else (s.onReceivedData w mode data).map fun h => (h.peer, [])
  | .readError => .ok (s, [.setCondition .expired false])
  | .stop => .ok (s, [.setCondition .expired true, .release])

end NetworkSession

/-- A queued `compress_message` job with an answer, and the condition it announces. -/
structure Notice where
  packet : List UInt8
  condition : Bool
  deriving DecidableEq, Repr

/-- A `compress_message` job that ran: what it found and what it came to. -/
structure Ran where
  notice : Notice
  handler : DataHandler
  worked : Worked

/-- Socket and thread pool exist, and the pool is not locked. -/
def DataHandler.Running (h : DataHandler) : Prop := h.socket = some true ∧ h.threadPool = some false

instance (h : DataHandler) : Decidable h.Running := inferInstanceAs (Decidable (_ ∧ _))

/-- The packet is in a `SendingJob` of the pool. -/
def Ran.HandedOn (c : Codecs) (r : Ran) : Prop :=
  r.worked = .pushed (.sendingJob
    (orRaw r.notice.packet (Compressor.compression c.lz4 r.notice.packet blockBytes)))

/-- A session with the threads inside its functions. -/
structure Notices where
  session : NetworkSession
  threads : Nat → List Statement
  pending : List Notice
  ran : List Ran

namespace Notices
open NetworkSession (Event)

inductive Action where
  | begin (thread : Nat) (event : Event)
  | go (thread : Nat)
  | work (position : Nat)
  | start (connectedSocket : Option Bool) (socketBufferSize : Nat)
  deriving DecidableEq, Repr

/-- A session that has been started. -/
def started (w : World) (s : NetworkSession) (connectedSocket : Option Bool)
    (socketBufferSize : Nat) : Notices :=
  ⟨s.start w connectedSocket socketBufferSize, fun _ => [], [], []⟩

/-- The answers that a statement has put on their way. -/
def queued (effects : List Effect) : Statement → List Notice
  | .responseConnection condition => (effects.filterMap Effect.packet).map (⟨·, condition⟩)
  | _ => []

/-- An exception ends the function; otherwise `rest` follows. -/
def left {P E : Type} (h : Handling P E) (rest : List Statement) : List Statement :=
  match h.reply with
  | .error _ => []
  | .ok _ => rest

/-- The thread's next statement, with `rest` behind it. -/
def follow (w : World) (n : Notices) (thread : Nat) (statement : Statement)
    (rest : List Statement) : Notices :=
  let (h, next) := n.session.execute w statement
  { n with
    session := h.peer
    threads := Function.update n.threads thread (left h (next ++ rest))
    pending := n.pending ++ queued h.effects statement }

/-- A new thread pool is created by a `start` with an open socket; the old one goes with
its jobs. -/
def step (c : Codecs) (w : World) (n : Notices) : Action → Option Notices
  | .begin thread event =>
      if n.threads thread ≠ [] then none
      else
        match n.session.arrive w event with
        | .ok (session, statements) =>
            some { n with session, threads := Function.update n.threads thread statements }
        | .error _ => none
  | .go thread =>
      match n.threads thread with
      | [] => none
      | statement :: rest => some (n.follow w thread statement rest)
  | .work position =>
      (takeAt n.pending position).bind fun (notice, pending) =>
        match n.session.compressMessage c notice.packet with
        | .ok worked =>
            some { n with
              pending
              ran := n.ran ++ [⟨notice, n.session.toDataHandler, worked⟩] }
        | .error _ => none
  | .start connectedSocket socketBufferSize =>
      some { n with
        session := n.session.start w connectedSocket socketBufferSize
        pending := if connectedSocket = some true then [] else n.pending }

/-- The statements of one thread, with no other thread in between. -/
def replay (w : World) : List Statement → NetworkSession → Handling NetworkSession Effect
  | [], s => ⟨s, [], done⟩
  | .setCondition newCondition byItself :: rest, s =>
      (s.setCondition w newCondition byItself).andThen (replay w rest)
  | .responseConnection condition :: rest, s =>
      (s.responseConnection w condition).andThen (replay w rest)
  | .release :: rest, s => replay w rest s.release

section
variable {c : Codecs} {w : World} {s : NetworkSession} {n m : Notices} {a : Action}

/-- `received_connection` is its tests and the statements they lead to. -/
theorem receivedConnection_replayed (data : List UInt8) :
    (s.receivedConnection w data).peer =
      (replay w (s.connectionStatements w data).2 (s.connectionStatements w data).1).peer := by
  unfold NetworkSession.receivedConnection NetworkSession.connectionStatements
  by_cases waits : s.condition ≠ .waiting
  · simp only [if_pos waits]
    rfl
  by_cases empty : data = []
  · simp only [if_neg waits, if_pos empty]
    rfl
  simp only [if_neg waits, if_neg empty]
  cases w.parse (Converter.toString data) with
  | error what => rfl
  | ok message =>
      dsimp only
      cases message "id" with
      | none => rfl
      | some id =>
          cases id with
          | bool => rfl
          | other => rfl
          | string id =>
              dsimp only
              cases message "registered_key" with
              | none => rfl
              | some key =>
                  dsimp only
                  split
                  next =>
                    exact Handling.andThen_peer_congr fun _ =>
                      (Handling.andThen_peer_last fun _ => rfl).symm
                  next =>
                    exact Handling.andThen_peer_congr fun _ =>
                      (Handling.andThen_peer_last fun _ => rfl).symm

/-- An application packet of a stranger. -/
theorem onReceivedData_stranger {mode : UInt8} {data : List UInt8}
    {h : Handling NetworkSession Effect} (stranger : s.condition ≠ .confirmed)
    (known : DataModes.ofCode mode ≠ none) (other : DataModes.ofCode mode ≠ some .connection)
    (handled : s.onReceivedData w mode data = .ok h) :
    h.peer = (s.setCondition w .expired false).peer := by
  have expires : ∀ {what : String} {body : Peer → Checked (Handling Peer Effect)},
      s.expireFirst w what body = .ok h → h.peer = (s.setCondition w .expired false).peer := by
    intro what body handled
    obtain ⟨_, rfl⟩ :=
      (confirmedOnly_cases handled).resolve_right fun served => stranger served.1
    exact Handling.andThen_peer_last fun _ => rfl
  unfold NetworkSession.onReceivedData at handled
  split at handled
  next unknown => exact absurd unknown known
  next connection => exact absurd connection other
  next => exact expires handled
  next => exact expires handled
  next => exact expires handled

/-- What an event does is what its thread comes in with and the statements that follow. -/
theorem process_replayed {event : Event} {h : Handling NetworkSession Effect}
    (handled : s.process w event = .ok h) :
    ∃ t statements, s.arrive w event = .ok (t, statements) ∧
      h.peer = (replay w statements t).peer := by
  cases event with
  | readError =>
      cases handled
      exact ⟨_, _, rfl, (Handling.andThen_peer_last fun _ => rfl).symm⟩
  | stop =>
      cases handled
      exact ⟨_, _, rfl, rfl⟩
  | packet mode data =>
      change s.onReceivedData w mode data = .ok h at handled
      simp only [NetworkSession.arrive]
      by_cases unknown : DataModes.ofCode mode = none
      · rw [if_pos unknown]
        rw [NetworkSession.onReceivedData, unknown] at handled
        cases handled
        exact ⟨_, _, rfl, rfl⟩
      by_cases connection : DataModes.ofCode mode = some .connection
      · rw [if_neg unknown, if_pos connection]
        rw [NetworkSession.onReceivedData, connection] at handled
        cases handled
        exact ⟨_, _, rfl, receivedConnection_replayed data⟩
      rw [if_neg unknown, if_neg connection]
      by_cases stranger : s.condition ≠ .confirmed
      · rw [if_pos stranger]
        refine ⟨_, _, rfl, ?_⟩
        rw [onReceivedData_stranger stranger unknown connection handled]
        exact (Handling.andThen_peer_last fun _ => rfl).symm
      · rw [if_neg stranger, handled]
        exact ⟨_, _, rfl, rfl⟩

theorem follow_thread (w : World) (n : Notices) (thread : Nat) (statement : Statement)
    (rest : List Statement) :
    (n.follow w thread statement rest).threads thread =
      left (n.session.execute w statement).1 ((n.session.execute w statement).2 ++ rest) :=
  Function.update_self thread _ _

theorem run_go {thread steps : Nat} {statement : Statement} {rest : List Statement}
    (inside : n.threads thread = statement :: rest) :
    run (step c w) n (List.replicate (steps + 1) (.go thread)) =
      run (step c w) (n.follow w thread statement rest) (List.replicate steps (.go thread)) := by
  rw [List.replicate_succ, run, step, inside]
  rfl

/-- Where no other thread comes in between, a thread does what its function does. -/
theorem undisturbed (c : Codecs) (w : World) (thread : Nat) (statements : List Statement)
    (inside : n.threads thread = statements) :
    ∃ steps m, run (step c w) n (List.replicate steps (.go thread)) = some m ∧
      m.session = (replay w statements n.session).peer := by
  induction statements generalizing n with
  | nil => exact ⟨0, n, rfl, rfl⟩
  | cons statement rest ih =>
      have rested : ∀ (h : Handling NetworkSession Effect) (m : Notices), m.session = h.peer →
          m.threads thread = left h rest → ∃ steps u,
            run (step c w) m (List.replicate steps (.go thread)) = some u ∧
              u.session = (h.andThen (replay w rest)).peer := by
        intro h m same here
        cases reply : h.reply with
        | error what =>
            refine ⟨0, m, rfl, ?_⟩
            rw [same, Handling.andThen, reply]
        | ok result =>
            rw [left, reply] at here
            rw [Handling.andThen, reply, ← same]
            exact ih here
      have next := follow_thread w n thread statement rest
      -- A statement that calls nothing is one step.
      have single : (n.session.execute w statement).2 = [] → ∃ steps m,
          run (step c w) n (List.replicate steps (.go thread)) = some m ∧
            m.session = ((n.session.execute w statement).1.andThen (replay w rest)).peer := by
        intro calls
        rw [calls, List.nil_append] at next
        obtain ⟨steps, u, ran, ended⟩ := rested _ (n.follow w thread statement rest) rfl next
        exact ⟨steps + 1, u, (run_go inside).trans ran, ended⟩
      cases statement with
      | setCondition newCondition byItself =>
          rw [replay, NetworkSession.setCondition, DataHandler.setCondition]
          by_cases unchanged : n.session.condition = newCondition
          · rw [NetworkSession.execute, if_pos unchanged] at single
            rw [if_pos unchanged]
            exact single rfl
          rw [if_neg unchanged]
          by_cases expired : newCondition = .expired
          · rw [if_pos expired]
            subst expired
            rw [NetworkSession.execute, if_neg unchanged] at next
            have notified := follow_thread w (n.follow w thread (.setCondition .expired byItself) rest)
              thread (.responseConnection false) rest
            have session : (n.follow w thread (.setCondition .expired byItself) rest).session =
                { n.session with condition := .expired } := by
              rw [follow, NetworkSession.execute, if_neg unchanged]
            obtain ⟨steps, u, ran, ended⟩ := rested _ _ rfl notified
            refine ⟨steps + 2, u, (run_go inside).trans ((run_go next).trans ran), ?_⟩
            rw [ended, session]
            exact (Handling.andThen_done _ _).symm
          · rw [NetworkSession.execute, if_neg unchanged, if_neg expired] at single
            rw [if_neg expired]
            exact single rfl
      | responseConnection condition => exact single rfl
      | release => exact single rfl

/-- An event that no other thread disturbs leaves the session that `process` leaves. -/
theorem process_undisturbed (c : Codecs) {thread : Nat} {event : Event}
    {h : Handling NetworkSession Effect} (idle : n.threads thread = [])
    (handled : n.session.process w event = .ok h) :
    ∃ steps m, run (step c w) n (.begin thread event :: List.replicate steps (.go thread)) = some m ∧
      m.session = h.peer := by
  obtain ⟨t, statements, arrived, same⟩ := process_replayed handled
  have inside : (Function.update n.threads thread statements) thread = statements :=
    Function.update_self thread _ _
  obtain ⟨steps, m, ran, ended⟩ := undisturbed c w thread statements
    (n := { n with session := t, threads := Function.update n.threads thread statements }) inside
  refine ⟨steps, m, ?_, ended.trans same.symm⟩
  rw [run, step, if_neg (not_not_intro idle), arrived]
  exact ran

/-- What a step does. -/
inductive Moves (c : Codecs) (w : World) (n : Notices) : Action → Notices → Prop
  | began {thread : Nat} {event : Event} {session : NetworkSession} {statements : List Statement} :
      n.session.arrive w event = .ok (session, statements) →
      Moves c w n (.begin thread event)
        { n with session, threads := Function.update n.threads thread statements }
  | followed {thread : Nat} {statement : Statement} {rest : List Statement} :
      n.threads thread = statement :: rest →
      Moves c w n (.go thread) (n.follow w thread statement rest)
  | worked {position : Nat} {notice : Notice} {pending : List Notice} {worked : Worked} :
      takeAt n.pending position = some (notice, pending) →
      n.session.compressMessage c notice.packet = .ok worked →
      Moves c w n (.work position)
        { n with pending, ran := n.ran ++ [⟨notice, n.session.toDataHandler, worked⟩] }
  | started {connectedSocket : Option Bool} {socketBufferSize : Nat} :
      Moves c w n (.start connectedSocket socketBufferSize)
        { n with
          session := n.session.start w connectedSocket socketBufferSize
          pending := if connectedSocket = some true then [] else n.pending }

theorem step_moves (stepped : step c w n a = some m) : Moves c w n a m := by
  cases a with
  | begin thread event =>
      rw [step] at stepped
      split at stepped
      next => cases stepped
      next =>
        split at stepped
        next arrived =>
          cases stepped
          exact .began arrived
        next => cases stepped
  | go thread =>
      rw [step] at stepped
      split at stepped
      next => cases stepped
      next inside =>
        cases stepped
        exact .followed inside
  | work position =>
      obtain ⟨⟨notice, pending⟩, taken, stepped⟩ := Option.bind_eq_some_iff.mp stepped
      dsimp only at stepped
      split at stepped
      next worked =>
        cases stepped
        exact .worked taken worked
      next => cases stepped
  | start connectedSocket socketBufferSize =>
      cases stepped
      exact .started

/-- On a running handler only the condition decides about a `compress_message` job. -/
theorem compressMessage_running {h : DataHandler} (running : h.Running) (data : List UInt8) :
    h.compressMessage c data = .ok (if h.condition = .expired then .refused "connection has expired"
      else .pushed (.sendingJob (orRaw data (Compressor.compression c.lz4 data blockBytes)))) := by
  rw [DataHandler.compressMessage, DataHandler.alive, DataHandler.push, running.2]
  split
  next => rfl
  next => rfl

theorem handedOn_iff {r : Ran} (running : r.handler.Running)
    (worked : r.handler.compressMessage c r.notice.packet = .ok r.worked) :
    r.HandedOn c ↔ r.handler.condition ≠ .expired := by
  rw [compressMessage_running running] at worked
  rw [Ran.HandedOn, ← Except.ok.inj worked]
  split
  next expired => exact ⟨fun same => (by cases same), fun other => absurd expired other⟩
  next live => exact ⟨fun _ => live, fun _ => rfl⟩

/-- A rejection that a running session announces meets a session that is not expired. -/
def Unexpired (n : Notices) : Action → Prop
  | .work position => ∀ taken ∈ takeAt n.pending position, taken.1.condition = false →
      n.session.Running → n.session.condition ≠ .expired
  | _ => True

instance (n : Notices) : ∀ a, Decidable (Unexpired n a)
  | .begin _ _ => isTrue trivial
  | .go _ => isTrue trivial
  | .work position => inferInstanceAs (Decidable (∀ taken ∈ takeAt n.pending position, _))
  | .start _ _ => isTrue trivial

/-- Every rejection whose job found a running session has been handed on. -/
def Delivered (c : Codecs) (n : Notices) : Prop :=
  ∀ r ∈ n.ran, r.notice.condition = false → r.handler.Running → r.HandedOn c

theorem step_delivered_iff (stepped : step c w n a = some m) :
    Delivered c m ↔ Delivered c n ∧ Unexpired n a := by
  cases step_moves stepped with
  | began => exact (and_iff_left trivial).symm
  | followed => exact (and_iff_left trivial).symm
  | started => exact (and_iff_left trivial).symm
  | @worked position notice pending worked taken compressed =>
      have last := fun running => handedOn_iff
        (r := ⟨notice, n.session.toDataHandler, worked⟩) running compressed
      constructor
      · intro delivered
        refine ⟨fun r member => delivered r (List.mem_append_left _ member), ?_⟩
        intro found taken' rejection running
        cases taken.symm.trans taken'
        exact (last running).mp
          (delivered _ (List.mem_append_right _ (List.mem_singleton_self _)) rejection running)
      · rintro ⟨delivered, unexpired⟩ r member rejection running
        rcases List.mem_append.mp member with old | new
        · exact delivered r old rejection running
        · rw [List.mem_singleton.mp new] at rejection running ⊢
          exact (last running).mpr (unexpired _ taken rejection running)

/-- No thread gives an expired session another condition. -/
def Prompt (n : Notices) : Action → Prop
  | .go thread => ∀ newCondition byItself rest,
      n.threads thread = .setCondition newCondition byItself :: rest → newCondition ≠ .expired →
        n.session.condition ≠ .expired
  | .start _ _ => False
  | _ => True

/-- The thread announces a rejection only behind `condition(Expired)`. -/
def Guarded : List Statement → Prop
  | [] => True
  | .setCondition newCondition _ :: rest => newCondition = .expired ∨ Guarded rest
  | .responseConnection condition :: rest => condition = true ∧ Guarded rest
  | .release :: rest => Guarded rest

/-- Only an expired session has announced a rejection. -/
structure Late (c : Codecs) (n : Notices) : Prop where
  threads : n.session.condition ≠ .expired → ∀ thread, Guarded (n.threads thread)
  pending : n.session.condition ≠ .expired → ∀ notice ∈ n.pending, notice.condition = true
  ran : ∀ r ∈ n.ran, r.notice.condition = false → r.handler.condition = .expired
  worked : ∀ r ∈ n.ran, r.handler.compressMessage c r.notice.packet = .ok r.worked

theorem connectionStatements_guarded (data : List UInt8) :
    (s.connectionStatements w data).1.condition = s.condition ∧
      Guarded (s.connectionStatements w data).2 := by
  unfold NetworkSession.connectionStatements
  split
  next => exact ⟨rfl, trivial⟩
  next =>
  split
  next => exact ⟨rfl, trivial⟩
  next =>
  split
  next => exact ⟨rfl, trivial⟩
  next =>
  split
  next => exact ⟨rfl, trivial⟩
  next =>
    dsimp only
    split
    next => exact ⟨rfl, trivial⟩
    next =>
      split
      next => exact ⟨rfl, .inr ⟨rfl, trivial⟩⟩
      next => exact ⟨rfl, .inl rfl⟩
  next => exact ⟨rfl, trivial⟩

/-- An application packet of a confirmed peer leaves the condition alone. -/
theorem onReceivedData_confirmed {mode : UInt8} {data : List UInt8}
    {h : Handling NetworkSession Effect} (confirmed : s.condition = .confirmed)
    (other : DataModes.ofCode mode ≠ some .connection)
    (handled : s.onReceivedData w mode data = .ok h) : h.peer.condition = s.condition := by
  have kept : ∀ {what : String} {body : Peer → Checked (Handling Peer Effect)},
      (∀ h, body s.toPeer = .ok h → h.peer.condition = s.condition) →
        s.expireFirst w what body = .ok h → h.peer.condition = s.condition := by
    intro what body keeps handled
    rcases NetworkSession.expireFirst_cases w s keeps handled with ⟨_, same⟩ | ⟨stranger, _⟩
    · exact same.trans confirmed.symm
    · exact absurd confirmed stranger
  unfold NetworkSession.onReceivedData at handled
  split at handled
  next =>
    cases handled
    rfl
  next connection => exact absurd connection other
  next => exact kept (fun _ inner => (Peer.handleBinary_kept inner).condition) handled
  next => exact kept (fun _ inner => (Peer.handleMessage_kept inner).condition) handled
  next => exact kept (fun _ inner => (Peer.handleFile_kept inner).condition) handled

theorem arrive_guarded {event : Event} {t : NetworkSession} {statements : List Statement}
    (arrived : s.arrive w event = .ok (t, statements)) :
    t.condition = s.condition ∧ Guarded statements := by
  cases event with
  | packet mode data =>
      rw [NetworkSession.arrive] at arrived
      split at arrived
      next =>
        cases arrived
        exact ⟨rfl, trivial⟩
      next =>
      split at arrived
      next =>
        have guarded := connectionStatements_guarded (w := w) (s := s) data
        rw [Except.ok.inj arrived] at guarded
        exact guarded
      next other =>
      split at arrived
      next =>
        cases arrived
        exact ⟨rfl, .inl rfl⟩
      next confirmed =>
        obtain ⟨h, handled, same⟩ := map_eq_ok.mp arrived
        cases same
        exact ⟨onReceivedData_confirmed (Decidable.not_not.mp confirmed) other handled, trivial⟩
  | readError =>
      cases arrived
      exact ⟨rfl, .inl rfl⟩
  | stop =>
      cases arrived
      exact ⟨rfl, .inl rfl⟩

theorem left_guarded {P E : Type} (h : Handling P E) {rest : List Statement}
    (guarded : Guarded rest) : Guarded (left h rest) := by
  unfold left
  split
  next => trivial
  next => exact guarded

/-- One thread's list of statements has changed. -/
theorem guarded_update {threads : Nat → List Statement} (guarded : ∀ thread, Guarded (threads thread))
    (thread : Nat) {statements : List Statement} (new : Guarded statements) (other : Nat) :
    Guarded (Function.update threads thread statements other) := by
  by_cases same : other = thread
  · subst same
    rw [Function.update_self]
    exact new
  · rw [Function.update_of_ne same]
    exact guarded other

theorem execute_expired {statement : Statement} (live : (s.execute w statement).1.peer.condition ≠ .expired)
    (prompt : ∀ newCondition byItself, statement = .setCondition newCondition byItself →
      newCondition ≠ .expired → s.condition ≠ .expired) : s.condition ≠ .expired := by
  cases statement with
  | setCondition newCondition byItself =>
      rw [NetworkSession.execute] at live
      split at live
      next => exact live
      next => exact prompt newCondition byItself rfl live
  | responseConnection condition =>
      change (s.responseConnection w condition).peer.condition ≠ .expired at live
      rw [(NetworkSession.responseConnection_inert w s condition).condition] at live
      exact live
  | release => exact live

theorem follow_late {thread : Nat} {statement : Statement} {rest : List Statement}
    (inside : n.threads thread = statement :: rest) (prompt : Prompt n (.go thread)) (late : Late c n) :
    Late c (n.follow w thread statement rest) := by
  have before : (n.follow w thread statement rest).session.condition ≠ .expired →
      n.session.condition ≠ .expired := fun live => execute_expired live
    fun newCondition byItself is other => prompt newCondition byItself rest (is ▸ inside) other
  refine ⟨fun live => ?_, fun live => ?_, late.ran, late.worked⟩
  · have guarded := late.threads (before live)
    refine guarded_update guarded thread (left_guarded _ ?_)
    have here := guarded thread
    rw [inside] at here
    cases statement with
    | setCondition newCondition byItself =>
        change (n.session.execute w (.setCondition newCondition byItself)).1.peer.condition ≠ _ at live
        rw [NetworkSession.execute] at live
        change Guarded ((if n.session.condition = newCondition then _ else _ : _ × _).2 ++ rest)
        split at live
        next unchanged =>
          rw [if_pos unchanged]
          exact here.resolve_left fun expired => live (unchanged.trans expired)
        next changed =>
          have other : newCondition ≠ .expired := live
          rw [if_neg changed, if_neg other]
          exact here.resolve_left other
    | responseConnection condition => exact here.2
    | release => exact here
  · intro notice member
    rcases List.mem_append.mp member with old | new
    · exact late.pending (before live) notice old
    · have here := late.threads (before live) thread
      rw [inside] at here
      cases statement with
      | setCondition => cases new
      | release => cases new
      | responseConnection condition =>
          obtain ⟨packet, _, rfl⟩ := List.mem_map.mp new
          exact here.1

theorem step_late (stepped : step c w n a = some m) (prompt : Prompt n a) (late : Late c n) :
    Late c m := by
  cases step_moves stepped with
  | began arrived =>
      obtain ⟨same, guarded⟩ := arrive_guarded arrived
      refine ⟨fun live => ?_, fun live => ?_, late.ran, late.worked⟩
      · exact guarded_update (late.threads (same ▸ live)) _ guarded
      · exact late.pending (same ▸ live)
  | followed inside => exact follow_late inside prompt late
  | worked taken compressed =>
      refine ⟨late.threads, fun live notice member =>
        late.pending live notice (mem_of_takeAt taken member), ?_, ?_⟩
      · intro r member rejection
        rcases List.mem_append.mp member with old | new
        · exact late.ran r old rejection
        · rw [List.mem_singleton.mp new] at rejection ⊢
          by_contra live
          rw [late.pending live _ (takeAt_mem taken)] at rejection
          cases rejection
      · intro r member
        rcases List.mem_append.mp member with old | new
        · exact late.worked r old
        · rw [List.mem_singleton.mp new]
          exact compressed
  | started => exact prompt.elim

/-- What is queued is the packet of an answer. -/
def Answers (w : World) (notice : Notice) : Prop :=
  ∃ t : NetworkSession,
    notice.packet = DataHandler.packet .connection (t.connectionMessage w notice.condition)

theorem queued_answers {statement : Statement} {notice : Notice}
    (member : notice ∈ queued (s.execute w statement).1.effects statement) : Answers w notice := by
  cases statement with
  | setCondition => cases member
  | release => cases member
  | responseConnection condition =>
      obtain ⟨packet, sent, rfl⟩ := List.mem_map.mp member
      obtain ⟨e, caused, here⟩ := List.mem_filterMap.mp sent
      exact ⟨s.createKey w, NetworkSession.responseConnection_packet w s condition caused here⟩

theorem step_answers (stepped : step c w n a = some m)
    (held : (∀ notice ∈ n.pending, Answers w notice) ∧ ∀ r ∈ n.ran, Answers w r.notice) :
    (∀ notice ∈ m.pending, Answers w notice) ∧ ∀ r ∈ m.ran, Answers w r.notice := by
  cases step_moves stepped with
  | began => exact held
  | followed =>
      refine ⟨fun notice member => ?_, held.2⟩
      exact (List.mem_append.mp member).elim (held.1 notice) queued_answers
  | worked taken =>
      refine ⟨fun notice member => held.1 notice (mem_of_takeAt taken member), fun r member => ?_⟩
      rcases List.mem_append.mp member with old | new
      · exact held.2 r old
      · rw [List.mem_singleton.mp new]
        exact held.1 _ (takeAt_mem taken)
  | started =>
      refine ⟨fun notice member => ?_, held.2⟩
      dsimp only at member
      split at member
      next => cases member
      next => exact held.1 notice member

end

/-- However the threads are interleaved: every rejection whose job meets a running session
is handed on if and only if the session is not expired whenever such a job runs. Where no
thread revives an expired session it always is, and the job drops the packet. -/
theorem rejections_handed_on_iff (c : Codecs) (w : World) (s : NetworkSession)
    (connectedSocket : Option Bool) (socketBufferSize : Nat) {actions : List Action} {n : Notices}
    (ran : run (step c w) (started w s connectedSocket socketBufferSize) actions = some n) :
    (Delivered c n ↔
      Along (step c w) Unexpired (started w s connectedSocket socketBufferSize) actions) ∧
    (Along (step c w) Prompt (started w s connectedSocket socketBufferSize) actions →
      ∀ r ∈ n.ran, r.notice.condition = false → r.handler.Running →
        r.worked = .refused "connection has expired") ∧
    ∀ r ∈ n.ran, Answers w r.notice := by
  refine ⟨?_, ?_, ?_⟩
  · have counted : Delivered c n ↔ Delivered c (started w s connectedSocket socketBufferSize) ∧
        Along (step c w) Unexpired (started w s connectedSocket socketBufferSize) actions :=
      run_iff (I := fun _ => True) (fun _ _ _ _ _ => trivial)
        (fun _ _ _ _ stepped => step_delivered_iff stepped) trivial ran
    exact counted.trans (and_iff_right fun r member => (by cases member))
  · intro prompt r member rejection running
    have start : Late c (started w s connectedSocket socketBufferSize) :=
      ⟨fun _ _ => trivial, fun _ _ member => (by cases member), fun _ member => (by cases member),
        fun _ member => (by cases member)⟩
    have late := run_invariant (fun _ _ _ held prompt stepped => step_late stepped prompt held)
      start prompt ran
    have worked := late.worked r member
    rw [compressMessage_running running, if_pos (late.ran r member rejection)] at worked
    exact (Except.ok.inj worked).symm
  · have held := run_keeps (fun _ _ _ held stepped => step_answers stepped held)
      ⟨fun _ member => (by cases member), fun _ member => (by cases member)⟩ ran
    exact held.2

def sampleCodecs : Codecs := ⟨.literals, .sample⟩

/-- A client is accepted, and the connection is lost before the handler has confirmed it:
the job of the rejection runs behind that. -/
def crossing : List Action :=
  [.begin 0 (.packet 3 [1]), .begin 1 .readError, .go 1, .go 1, .go 0, .work 0]

theorem rejections_handed_on_iff_crossing :
    ∃ n, run (step sampleCodecs SessionRun.oneClient)
        (started SessionRun.oneClient SessionRun.listener (some true) 8) crossing = some n ∧
      n.ran.map (fun r => (r.notice.condition, decide r.handler.Running)) = [(false, true)] ∧
      Delivered sampleCodecs n := by
  have reports : (run (step sampleCodecs SessionRun.oneClient)
      (started SessionRun.oneClient SessionRun.listener (some true) 8) crossing).map
        (fun n => n.ran.map fun r => (r.notice.condition, decide r.handler.Running)) =
          some [(false, true)] := by decide +kernel
  obtain ⟨n, ran, same⟩ := Option.map_eq_some_iff.mp reports
  exact ⟨n, ran, same, (rejections_handed_on_iff sampleCodecs SessionRun.oneClient
    SessionRun.listener (some true) 8 ran).1.mpr (by decide +kernel)⟩

/-- A client with another key is turned away, and the job of its rejection runs. -/
def turnedAway : List Action := [.begin 0 (.packet 3 [1]), .go 0, .go 0, .work 0]

theorem rejection_is_dropped :
    ¬ ∀ (c : Codecs) (w : World) (s : NetworkSession) (connectedSocket : Option Bool)
        (socketBufferSize : Nat) (actions : List Action) (n : Notices),
      run (step c w) (started w s connectedSocket socketBufferSize) actions = some n →
        Delivered c n := by
  intro delivers
  have reports : (run (step sampleCodecs SessionRun.oneClient) (started SessionRun.oneClient
      { SessionRun.listener with registeredKey := [9] } (some true) 8) turnedAway).map
        (fun n => n.ran.map fun r =>
          (r.notice.condition, decide r.handler.Running, r.worked)) =
          some [(false, true, .refused "connection has expired")] := by decide +kernel
  obtain ⟨n, ran, same⟩ := Option.map_eq_some_iff.mp reports
  obtain ⟨job, only, found⟩ := List.map_eq_singleton_iff.mp same
  obtain ⟨rejection, found⟩ := Prod.mk.inj found
  obtain ⟨running, dropped⟩ := Prod.mk.inj found
  have delivered := delivers _ _ _ _ _ _ n ran job (only ▸ List.mem_singleton_self _) rejection
    (of_decide_eq_true running)
  rw [Ran.HandedOn, dropped] at delivered
  cases delivered

end Notices
end CppToolkit.Network
