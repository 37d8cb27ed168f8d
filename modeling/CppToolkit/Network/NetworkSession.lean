import CppToolkit.Network.Peer

/-! The server side of a connection. -/
namespace CppToolkit.Network
open Memory Utilities

structure NetworkSession extends Peer where
  receivedConnectionCallback : Option (List UInt8 → Reply)

namespace NetworkSession

def createKey (w : World) (s : NetworkSession) : NetworkSession :=
  if s.encryptMode then
    { s with
      key := (w.createKey s.keysCreated).1
      iv := (w.createKey s.keysCreated).2
      keysCreated := s.keysCreated + 1 }
  else s

def connectionMessage (w : World) (s : NetworkSession) (condition : Bool) : List UInt8 :=
  w.serialize [("id", .string s.id), ("sub_id", .string s.subId), ("key", .string s.key),
    ("iv", .string s.iv), ("encrypt_mode", .bool s.encryptMode), ("condition", .bool condition)]

def responseConnection (w : World) (s : NetworkSession) (condition : Bool) :
    Handling NetworkSession Effect :=
  let s := s.createKey w
  let arrayData := s.connectionMessage w condition
  match s.threadPool with
  | some _ =>
      let job := s.toDataHandler.push (.receivedConnectionJob arrayData)
      let sent := s.toDataHandler.send .connection arrayData
      ⟨s, pushed job ++ pushed sent, pushReply sent⟩
  | none =>
      match s.receivedConnectionCallback with
      | none => ⟨s, [], refuse "there is no callback to handle connection"⟩
      | some callback => ⟨s, [.sessionCallback arrayData], callback arrayData⟩

theorem responseConnection_peer (w : World) (s : NetworkSession) (condition : Bool) :
    (s.responseConnection w condition).peer = s.createKey w := by
  unfold responseConnection
  dsimp only
  split
  next => rfl
  next => split <;> rfl

/-- The packet of an answer carries the keys that the session has afterwards. -/
theorem responseConnection_packet (w : World) (s : NetworkSession) (condition : Bool) {e : Effect}
    {packet : List UInt8} (member : e ∈ (s.responseConnection w condition).effects)
    (sent : e.packet = some packet) :
    packet = DataHandler.packet .connection ((s.createKey w).connectionMessage w condition) := by
  unfold responseConnection at member
  dsimp only at member
  split at member
  next =>
    rcases List.mem_append.mp member with job | answer
    · rcases push_packet job sent with pushed | pushed <;> cases DataHandler.push_eq_ok pushed
    · exact (send_packet answer sent).2
  next =>
    split at member
    next => cases member
    next =>
      rw [List.mem_singleton.mp member] at sent
      cases sent

def disconnected (w : World) (_byItself : Bool) (s : NetworkSession) :
    Handling NetworkSession Effect :=
  (s.responseConnection w false).andThen fun s => ⟨s, [], done⟩

def setCondition (w : World) (s : NetworkSession) (newCondition : ConnectConditions)
    (byItself : Bool) : Handling NetworkSession Effect :=
  DataHandler.setCondition (fun s => s.toDataHandler) (fun s h => { s with toDataHandler := h })
    (disconnected w) s newCondition byItself

theorem setCondition_live (w : World) (s : NetworkSession) {newCondition : ConnectConditions}
    (live : newCondition ≠ .expired) (byItself : Bool) :
    s.setCondition w newCondition byItself = ⟨{ s with condition := newCondition }, [], done⟩ :=
  DataHandler.setCondition_live rfl live byItself

def caller (s : NetworkSession) : Caller := some (s.id, s.subId)

def expireFirst (w : World) (s : NetworkSession) (what : String)
    (body : Peer → Checked (Handling Peer Effect)) : Checked (Handling NetworkSession Effect) :=
  confirmedOnly toPeer (fun s p => { s with toPeer := p })
    (fun s => s.setCondition w .expired false) (notConfirmed what) body s

/-- The comparison of the handler: a string that is the registered key up to its first
zero byte. -/
def accepts (s : NetworkSession) : Json → Bool
  | .string value => cString value = s.registeredKey
  | _ => false

def receivedConnection (w : World) (s : NetworkSession) (data : List UInt8) :
    Handling NetworkSession Effect :=
  if s.condition ≠ .waiting then ⟨s, [], refuse "the line is not waiting for connection"⟩
  else if data = [] then ⟨s, [], refuse "received empty data for connection"⟩
  else
    match w.parse (Converter.toString data) with
    | .error what => ⟨s, [], .error what⟩
    | .ok receivedMessage =>
        match receivedMessage "id" with
        | none => ⟨s, [], .error "out of range"⟩
        | some (.string id) =>
            let s := { s with id := cString id }
            match receivedMessage "registered_key" with
            | none => ⟨s, [], .error "out of range"⟩
            | some key =>
                if s.accepts key then
                  (s.setCondition w .confirmed false).andThen fun s => s.responseConnection w true
                else
                  (s.setCondition w .expired false).andThen fun s => s.responseConnection w false
        | some _ => ⟨s, [], .error "not a string"⟩

def receivedBinary (w : World) (s : NetworkSession) (data : List UInt8) :
    Checked (Handling NetworkSession Effect) :=
  s.expireFirst w "binary" fun p => p.handleBinary s.caller data

def receivedMessage (w : World) (s : NetworkSession) (data : List UInt8) :
    Checked (Handling NetworkSession Effect) :=
  s.expireFirst w "normal" fun p => p.handleMessage s.caller data

def receivedFile (w : World) (s : NetworkSession) (data : List UInt8) :
    Checked (Handling NetworkSession Effect) :=
  s.expireFirst w "file" fun p => p.handleFile w s.caller data

/-- `received_data`: the handler of the mode byte. -/
def onReceivedData (w : World) (s : NetworkSession) (mode : UInt8) (data : List UInt8) :
    Checked (Handling NetworkSession Effect) :=
  match DataModes.ofCode mode with
  | none => .ok ⟨s, [], refuse "there is no matched mode"⟩
  | some .connection => .ok (s.receivedConnection w data)
  | some .binary => s.receivedBinary w data
  | some .message => s.receivedMessage w data
  | some .file => s.receivedFile w data

/-- `start` with a null socket, a closed one (setting an option throws) or an open one. -/
def start (w : World) (s : NetworkSession) (connectedSocket : Option Bool)
    (socketBufferSize : Nat) : NetworkSession :=
  let s := (s.setCondition w .none false).peer
  match connectedSocket with
  | none => s
  | some false => { s with bufferSize := socketBufferSize }
  | some true =>
      let s := { s with bufferSize := socketBufferSize, socket := some true }
      let s := (s.setCondition w .waiting false).peer
      { s with
        threadPool := some false
        fileManager := { s.fileManager with threadPool := some false } }

def stop (w : World) (s : NetworkSession) : Handling NetworkSession Effect :=
  (s.setCondition w .expired true).andThen fun s =>
    let fileManager := { s.fileManager with threadPool := none }
    ⟨{ s with fileManager, threadPool := none, socket := none }, [], done⟩

end NetworkSession
end CppToolkit.Network
