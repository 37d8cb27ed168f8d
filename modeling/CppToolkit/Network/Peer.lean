import CppToolkit.Network.World

/-! What the session and the client have in common: the handlers of application
packets, each with the callbacks and jobs it causes and its reply. -/
namespace CppToolkit.Network
open Memory Utilities

/-- The id and sub id that a session passes to its callbacks; a client passes none. -/
abbrev Caller := Option (List UInt8 × List UInt8)

structure Peer extends DataHandler where
  serverId : List UInt8
  registeredKey : List UInt8
  fileManager : FileManager
  keysCreated : Nat
  filesSaved : Nat
  receivedBinaryCallback : Option (Caller → List UInt8 → List UInt8 → Reply)
  receivedMessageCallback : Option (Caller → List UInt8 → Reply)
  receivedFileCallback : Option (Caller → List UInt8 → List UInt8 → Reply)

/-- A confirmed peer that has no application callbacks. -/
def Peer.connected : Peer where
  toDataHandler := .connected
  serverId := []
  registeredKey := []
  fileManager := { FileManager.initial with threadPool := some false }
  keysCreated := 0
  filesSaved := 0
  receivedBinaryCallback := none
  receivedMessageCallback := none
  receivedFileCallback := none

inductive Effect where
  | push (job : Job)
  | sessionCallback (data : List UInt8)
  | clientCallback (condition byItself : Bool)
  | binaryCallback (caller : Caller) (message binary : List UInt8)
  | messageCallback (caller : Caller) (message : List UInt8)
  | fileCallback (caller : Caller) (message tempFilePath : List UInt8)
  deriving DecidableEq, Repr

/-- A call of the binary, message or file callback of the application. -/
def Effect.application : Effect → Bool
  | .binaryCallback _ _ _ => true
  | .messageCallback _ _ => true
  | .fileCallback _ _ _ => true
  | _ => false

/-- What the handlers of application packets cause: a call of the application, or the end
of a transfer. -/
def Effect.ofBody : Effect → Bool
  | .push (.checkConditionCallback _) => true
  | e => e.application

/-- The packet of a job that is on its way to the socket. -/
def Effect.packet : Effect → Option (List UInt8)
  | .push (.compressMessage packet) => some packet
  | .push (.encryptMessage packet) => some packet
  | _ => none

/-- The accepted job of a push, if it was accepted. -/
def pushed : Except String Job → List Effect
  | .ok job => [.push job]
  | .error _ => []

section
variable {packet data : List UInt8}

theorem push_packet {push : Except String Job} {e : Effect} (member : e ∈ pushed push)
    (sent : e.packet = some packet) :
    push = .ok (.compressMessage packet) ∨ push = .ok (.encryptMessage packet) := by
  cases push with
  | error what => cases member
  | ok job =>
      rw [List.mem_singleton.mp member] at sent
      cases job with
      | compressMessage data =>
          cases sent
          exact .inl rfl
      | encryptMessage data =>
          cases sent
          exact .inr rfl
      | _ => cases sent

theorem send_packet {h : DataHandler} {mode : DataModes} {e : Effect}
    (member : e ∈ pushed (h.send mode data)) (sent : e.packet = some packet) :
    data ≠ [] ∧ packet = DataHandler.packet mode data := by
  rcases push_packet member sent with accepted | accepted
  · obtain ⟨some_, same⟩ := DataHandler.send_eq_ok accepted
    split at same <;> cases same
    exact ⟨some_, rfl⟩
  · obtain ⟨some_, same⟩ := DataHandler.send_eq_ok accepted
    split at same <;> cases same
    exact ⟨some_, rfl⟩

end

def pushReply : Except String Job → Reply
  | .ok _ => done
  | .error what => refuse what

namespace Peer

def handleBinary (caller : Caller) (p : Peer) (data : List UInt8) : Checked (Handling Peer Effect) :=
  if data = [] then .ok ⟨p, [], refuse "cannot handle empty message."⟩
  else do
    let (message, index) ← Combiner.divide data 0
    let (binary, _) ← Combiner.divide data index
    if binary = [] then .ok ⟨p, [], refuse "cannot handle empty binary message."⟩
    else
      match p.receivedBinaryCallback with
      | none => .ok ⟨p, [], refuse "there is no callback to handle binary data"⟩
      | some callback =>
          let message := Converter.toString message
          .ok ⟨p, [.binaryCallback caller message binary], callback caller message binary⟩

def handleMessage (caller : Caller) (p : Peer) (data : List UInt8) : Checked (Handling Peer Effect) :=
  if data = [] then .ok ⟨p, [], refuse "cannot handle empty message."⟩
  else
    match p.receivedMessageCallback with
    | none => .ok ⟨p, [], refuse "there is no callback to handle message data"⟩
    | some callback =>
        let message := Converter.toString data
        .ok ⟨p, [.messageCallback caller message], callback caller message⟩

/-- The end of a handler in a call of the file manager. -/
def managed (p : Peer) (result : Checked (FileManager × Except String (Option Job))) :
    Checked (Handling Peer Effect) := do
  let (fileManager, reply) ← result
  let p := { p with fileManager }
  match reply with
  | .ok (some job) => .ok ⟨p, [.push job], done⟩
  | .ok none => .ok ⟨p, [], done⟩
  | .error what => .ok ⟨p, [], refuse what⟩

def saveFile (w : World) (caller : Caller) (p : Peer) (guid message fileData : List UInt8) :
    Checked (Handling Peer Effect) :=
  let saved := w.saveTempPath p.filesSaved fileData
  let p := { p with filesSaved := p.filesSaved + 1 }
  match saved with
  | .error what => .ok ⟨p, [], .error what⟩
  | .ok none => p.managed (p.fileManager.failure guid message)
  | .ok (some tempFilePath) =>
      let stored := p.managed (p.fileManager.success guid message tempFilePath)
      match p.receivedFileCallback with
      | none => stored
      | some callback =>
          let called := [Effect.fileCallback caller message tempFilePath]
          match callback caller message tempFilePath with
          | .error what => .ok ⟨p, called, .error what⟩
          | .ok _ => stored.map fun h => { h with effects := called ++ h.effects }

def handleFilePacket (w : World) (caller : Caller) (p : Peer) :
    FilePacket → Checked (Handling Peer Effect)
  | .start guid fileCount =>
      let (fileManager, reply) := p.fileManager.start guid fileCount
      .ok ⟨{ p with fileManager }, [], .ok reply⟩
  | .failure guid _ message => p.managed (p.fileManager.failure guid message)
  | .success guid _ message fileData => p.saveFile w caller guid message fileData

def handleFile (w : World) (caller : Caller) (p : Peer) (data : List UInt8) :
    Checked (Handling Peer Effect) :=
  if data = [] then .ok ⟨p, [], refuse "cannot handle empty file message."⟩
  else do
    let packet ← FilePacket.read data
    p.handleFilePacket w caller packet

end Peer

/-- What the handlers of application packets have in common: the part of the base class
stays as it is, and nothing is sent. -/
structure Peer.Kept (p : Peer) (h : Handling Peer Effect) : Prop where
  base : h.peer.toDataHandler = p.toDataHandler
  silent : ∀ e ∈ h.effects, e.packet = none

structure Peer.Confined (p : Peer) (h : Handling Peer Effect) : Prop where
  base : h.peer.toDataHandler = p.toDataHandler
  effects : ∀ e ∈ h.effects, e.ofBody = true

theorem packet_of_ofBody {e : Effect} (ofBody : e.ofBody = true) : e.packet = none := by
  cases e with
  | push job =>
      cases job with
      | checkConditionCallback => rfl
      | _ => cases ofBody
  | _ => rfl

namespace Peer

section
variable {w : World} {caller : Caller} {p : Peer} {data : List UInt8} {h : Handling Peer Effect}

theorem Kept.condition (kept : p.Kept h) : h.peer.condition = p.condition :=
  congrArg DataHandler.condition kept.base

theorem Confined.kept (confined : p.Confined h) : p.Kept h :=
  ⟨confined.base, fun e member => packet_of_ofBody (confined.effects e member)⟩

theorem confined_nothing (p : Peer) (reply : Reply) : p.Confined ⟨p, [], reply⟩ :=
  ⟨rfl, fun _ member => (by cases member)⟩

theorem confined_one {e : Effect} {reply : Reply} (ofBody : e.ofBody = true) :
    p.Confined ⟨p, [e], reply⟩ := by
  refine ⟨rfl, ?_⟩
  intro other member
  rw [List.mem_singleton.mp member]
  exact ofBody

theorem handleBinary_confined (handled : p.handleBinary caller data = .ok h) : p.Confined h := by
  unfold handleBinary at handled
  split at handled
  next =>
    cases handled
    exact confined_nothing p _
  next =>
    obtain ⟨⟨message, index⟩, _, handled⟩ := bind_eq_ok.mp handled
    obtain ⟨⟨binary, _⟩, _, handled⟩ := bind_eq_ok.mp handled
    dsimp only at handled
    split at handled
    next =>
      cases handled
      exact confined_nothing p _
    next =>
      split at handled
      next =>
        cases handled
        exact confined_nothing p _
      next =>
        cases handled
        exact confined_one rfl

theorem handleMessage_confined (handled : p.handleMessage caller data = .ok h) : p.Confined h := by
  unfold handleMessage at handled
  split at handled
  next =>
    cases handled
    exact confined_nothing p _
  next =>
    split at handled
    next =>
      cases handled
      exact confined_nothing p _
    next =>
      cases handled
      exact confined_one rfl

/-- The only job of a file manager is the one that completes a transfer. -/
theorem managed_confined {m : FileManager} {guid : Guid} {outcome : FileOutcome}
    (handled : p.managed (m.report guid outcome) = .ok h) : p.Confined h := by
  obtain ⟨⟨fileManager, reply⟩, reported, handled⟩ := bind_eq_ok.mp handled
  dsimp only at handled
  split at handled
  next job =>
    cases handled
    refine ⟨rfl, ?_⟩
    intro e member
    rw [List.mem_singleton.mp member, FileManager.report_job reported]
    rfl
  next =>
    cases handled
    exact ⟨rfl, fun _ member => (by cases member)⟩
  next =>
    cases handled
    exact ⟨rfl, fun _ member => (by cases member)⟩

theorem saveFile_confined {guid message fileData : List UInt8}
    (handled : p.saveFile w caller guid message fileData = .ok h) : p.Confined h := by
  have ended : ∀ {m : FileManager} {guid : Guid} {outcome : FileOutcome}
      {h : Handling Peer Effect},
      Peer.managed { p with filesSaved := p.filesSaved + 1 } (m.report guid outcome) = .ok h →
        p.Confined h := fun managed =>
    ⟨(managed_confined managed).base.trans rfl, (managed_confined managed).effects⟩
  unfold saveFile at handled
  dsimp only at handled
  split at handled
  next =>
    cases handled
    exact ⟨rfl, fun _ member => (by cases member)⟩
  next => exact ended handled
  next =>
    split at handled
    next => exact ended handled
    next =>
      split at handled
      next =>
        cases handled
        refine ⟨rfl, ?_⟩
        intro e member
        rw [List.mem_singleton.mp member]
        rfl
      next =>
        obtain ⟨stored, managed, same⟩ := map_eq_ok.mp handled
        have confined := ended managed
        subst same
        refine ⟨confined.base, ?_⟩
        intro e member
        rcases List.mem_append.mp member with called | other
        · rw [List.mem_singleton.mp called]
          rfl
        · exact confined.effects e other

theorem handleFile_confined (handled : p.handleFile w caller data = .ok h) : p.Confined h := by
  unfold handleFile at handled
  split at handled
  next =>
    cases handled
    exact confined_nothing p _
  next =>
    obtain ⟨packet, _, handled⟩ := bind_eq_ok.mp handled
    cases packet with
    | start =>
        cases handled
        exact ⟨rfl, fun _ member => (by cases member)⟩
    | failure => exact managed_confined handled
    | success => exact saveFile_confined handled

theorem handleBinary_kept (handled : p.handleBinary caller data = .ok h) : p.Kept h :=
  (handleBinary_confined handled).kept

theorem handleMessage_kept (handled : p.handleMessage caller data = .ok h) : p.Kept h :=
  (handleMessage_confined handled).kept

theorem handleFile_kept (handled : p.handleFile w caller data = .ok h) : p.Kept h :=
  (handleFile_confined handled).kept

end

end Peer

/-- The guard of the handlers of application packets on a peer `P`, with `expire` its
`condition(Expired)`. -/
def confirmedOnly {P : Type} (peer : P → Peer) (withPeer : P → Peer → P)
    (expire : P → Handling P Effect) (message : String) (body : Peer → Checked (Handling Peer Effect))
    (s : P) : Checked (Handling P Effect) :=
  if (peer s).condition ≠ .confirmed then
    .ok ((expire s).andThen fun s => ⟨s, [], refuse message⟩)
  else (body (peer s)).map (Handling.map (withPeer s))

/-- A handler behind the guard expires a peer that is not confirmed, or runs its body. -/
theorem confirmedOnly_cases {P : Type} {peer : P → Peer} {withPeer : P → Peer → P}
    {expire : P → Handling P Effect} {message : String}
    {body : Peer → Checked (Handling Peer Effect)} {s : P} {h : Handling P Effect}
    (handled : confirmedOnly peer withPeer expire message body s = .ok h) :
    (peer s).condition ≠ .confirmed ∧
        h = (expire s).andThen (fun s => ⟨s, [], refuse message⟩) ∨
      (peer s).condition = .confirmed ∧
        ∃ inner, body (peer s) = .ok inner ∧ h = inner.map (withPeer s) := by
  unfold confirmedOnly at handled
  split at handled
  next stranger => exact .inl ⟨stranger, (Except.ok.inj handled).symm⟩
  next confirmed =>
    obtain ⟨inner, bodily, same⟩ := map_eq_ok.mp handled
    exact .inr ⟨Decidable.not_not.mp confirmed, inner, bodily, same.symm⟩

def notConfirmed (what : String) : String :=
  "cannot handle " ++ what ++ " message until receiving confirm message related to connection."

end CppToolkit.Network
