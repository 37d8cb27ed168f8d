import CppToolkit.Library.Bag
import CppToolkit.Network.SessionNotices

/-! The sessions that a server keeps: the accept loop, the notices on their way to the server,
and the handler that erases expired sessions. -/
namespace CppToolkit.Network
open Utilities Bag

/-- What a server gives to the sessions that it constructs. -/
structure ServerOptions where
  id : List UInt8
  encryptMode : Bool
  registeredKey : List UInt8
  bufferSize : Nat
  receivedConnectionCallback : Bool
  receivedBinaryCallback : Option (Caller → List UInt8 → List UInt8 → Reply)
  receivedMessageCallback : Option (Caller → List UInt8 → Reply)
  receivedFileCallback : Option (Caller → List UInt8 → List UInt8 → Reply)

namespace ServerOptions

def receivedBinary (o : ServerOptions) (caller : Caller) (message data : List UInt8) : Reply :=
  match o.receivedBinaryCallback with
  | none => refuse "there is no callback to handle received binary"
  | some callback => callback caller message data

def receivedMessage (o : ServerOptions) (caller : Caller) (message : List UInt8) : Reply :=
  match o.receivedMessageCallback with
  | none => refuse "there is no callback to handle received message"
  | some callback => callback caller message

def receivedFile (o : ServerOptions) (caller : Caller) (message filePath : List UInt8) : Reply :=
  match o.receivedFileCallback with
  | none => refuse "there is no callback to handle received file"
  | some callback => callback caller message filePath

/-- The session of an accepted socket before its start; `guid` is its sub id. -/
def session (o : ServerOptions) (guid : List UInt8) : NetworkSession where
  toDataHandler := { DataHandler.initial with
    id := Handshake.ascii "unauthorized_client"
    subId := guid
    encryptMode := o.encryptMode }
  serverId := o.id
  registeredKey := o.registeredKey
  fileManager := { FileManager.initial with callback := true }
  keysCreated := 0
  filesSaved := 0
  receivedBinaryCallback := some o.receivedBinary
  receivedMessageCallback := some o.receivedMessage
  receivedFileCallback := some o.receivedFile
  receivedConnectionCallback := some fun _ => done

end ServerOptions

/-- A notice, with the session that it is of. -/
abbrev ConnectionNotice := Nat × List UInt8

/-- `sessions` are the numbers in `sessions_` of accepted sockets. A notice waits in the pool of
its session and then in that of the server. What is below is kept to state what follows: all
notices, those handled and those lost with their session, and the calls of the application. -/
structure Registry where
  accepting : Bool
  accepted : Nat
  sessions : List Nat
  objects : Nat → NetworkSession
  jobs : List ConnectionNotice
  notices : List ConnectionNotice
  queued : List ConnectionNotice
  handled : List ConnectionNotice
  lost : List ConnectionNotice
  told : List (List UInt8 × List UInt8 × Bool)

namespace Registry

/-- `accept` is told whether an option of the socket can be set. -/
inductive Action where
  | accept (guid : List UInt8) (isOpen : Bool)
  | acceptFails
  | event (session : Nat) (event : NetworkSession.Event)
  | deliver (position : Nat)
  | lose (position : Nat)
  | handle (position : Nat)
  | dropSession (id subId : List UInt8)
  | dropSessions (id : List UInt8)
  deriving DecidableEq, Repr

def initial (o : ServerOptions) : Registry where
  accepting := true
  accepted := 0
  sessions := []
  objects := fun _ => o.session []
  jobs := []
  notices := []
  queued := []
  handled := []
  lost := []
  told := []

/-- What these sessions have caused goes where it belongs. -/
def notify (r : Registry) (caused : List (Nat × List Effect)) : Registry :=
  let jobs := caused.flatMap fun c => (c.2.filterMap Effect.queued).map (c.1, ·)
  let notices := caused.flatMap fun c => (c.2.filterMap Effect.direct).map (c.1, ·)
  { r with
    jobs := r.jobs ++ jobs
    notices := r.notices ++ notices
    queued := r.queued ++ (jobs ++ notices) }

/-- The pointers of these sessions are released, and the destructors stop them. -/
def retire (w : World) (r : Registry) (leaves : NetworkSession → Bool) : Registry :=
  let gone := r.sessions.filter fun n => leaves (r.objects n)
  { r with
    sessions := r.sessions.filter fun n => !leaves (r.objects n)
    objects := fun n => if n ∈ gone then ((r.objects n).stop w).peer else r.objects n }.notify
      (gone.map fun n => (n, ((r.objects n).stop w).effects))

/-- What the handler of a notice reads first; an exception leaves it when a field is missing. -/
def announcement (w : World) (text : List UInt8) : Option (List UInt8 × List UInt8 × Bool) :=
  match w.parse (Converter.toString text) with
  | .error _ => none
  | .ok message =>
      match message "id", message "sub_id", message "condition" with
      | some (.string id), some (.string subId), some (.bool condition) =>
          some (cString id, cString subId, condition)
      | _, _, _ => none

/-- `received_connection_handler` of the server. -/
def receivedConnectionHandler (w : World) (o : ServerOptions) (r : Registry) (text : List UInt8) :
    Registry :=
  match announcement w text with
  | none => r
  | some announced =>
      let r := if announced.2.2 then r else r.retire w fun s => s.condition = .expired
      if o.receivedConnectionCallback then { r with told := r.told ++ [announced] } else r

def step (w : World) (o : ServerOptions) (r : Registry) : Action → Option Registry
  | .accept guid isOpen =>
      if r.accepting then
        if isOpen then some
          { r with
            accepted := r.accepted + 1
            objects := Function.update r.objects r.accepted
              ((o.session guid).start w (some true) o.bufferSize)
            sessions := r.sessions ++ [r.accepted] }
        -- The exception leaves the handler and ends `io_context::run`.
        else some { r with accepting := false }
      else none
  -- The handler returns before it calls `wait_connection` again.
  | .acceptFails => if r.accepting then some { r with accepting := false } else none
  | .event n e =>
      if n ∈ r.sessions ∧ e ≠ .stop then
        match (r.objects n).process w e with
        | .error _ => none
        | .ok h => some
            ({ r with objects := Function.update r.objects n h.peer }.notify [(n, h.effects)])
      else none
  | .deliver position =>
      (takeAt r.jobs position).map fun (notice, jobs) =>
        { r with jobs, notices := r.notices ++ [notice] }
  | .lose position =>
      (takeAt r.jobs position).bind fun (notice, jobs) =>
        if notice.1 ∈ r.sessions then none
        else some { r with jobs, lost := r.lost ++ [notice] }
  | .handle position =>
      (takeAt r.notices position).map fun (notice, notices) =>
        { r with notices, handled := r.handled ++ [notice] }.receivedConnectionHandler w o notice.2
  | .dropSession id subId => some (r.retire w fun s => s.id = id ∧ s.subId = subId)
  | .dropSessions id => some (r.retire w fun s => s.id = id)

/-- The notice speaks of this session: it has come to the condition that it tells. -/
def Genuine (w : World) (s : NetworkSession) (text : List UInt8) : Prop :=
  ∃ t : NetworkSession, ∃ accepted, text = t.connectionMessage w accepted ∧ t.subId = s.subId ∧
    (s.condition = .expired ∨ accepted = true ∧ s.condition = .confirmed)

/-- A session of the same name whose condition has gone on, or has not changed. -/
structure Later (s t : NetworkSession) : Prop where
  subId : t.subId = s.subId
  condition : t.condition = s.condition ∨ t.condition = .expired ∨
    s.condition = .waiting ∧ t.condition = .confirmed

def Readable (w : World) (notice : ConnectionNotice) : Prop :=
  ∃ message, w.parse (Converter.toString notice.2) = .ok message

/-- The notice waits, or the handler could not read it. -/
def Pending (w : World) (r : Registry) (notice : ConnectionNotice) : Prop :=
  notice ∈ r.jobs ∨ notice ∈ r.notices ∨ notice ∈ r.handled ∧ ¬ Readable w notice

structure Sound (w : World) (r : Registry) : Prop where
  sorted : r.sessions.Pairwise (· < ·)
  bounded : ∀ n ∈ r.sessions, n < r.accepted
  pools : ∀ n ∈ r.sessions, (r.objects n).threadPool = some false
  gone : ∀ n < r.accepted, n ∉ r.sessions → (r.objects n).condition = .expired
  genuine : ∀ notice ∈ r.queued, notice.1 < r.accepted ∧ Genuine w (r.objects notice.1) notice.2
  conserved : (r.jobs ++ (r.notices ++ (r.handled ++ r.lost))).Perm r.queued
  strangers : ∀ notice ∈ r.lost, notice.1 ∉ r.sessions
  told : ∀ entry ∈ r.told, ∃ notice ∈ r.handled, announcement w notice.2 = some entry

/-- The server is still to hear of every session that has expired. -/
def Announced (w : World) (r : Registry) : Prop :=
  ∀ n ∈ r.sessions, (r.objects n).condition = .expired →
    ∃ t : NetworkSession, Pending w r (n, t.connectionMessage w false)

end Registry
end CppToolkit.Network
