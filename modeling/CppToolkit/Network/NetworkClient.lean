import CppToolkit.Network.Peer

/-! The client side of a connection. -/
namespace CppToolkit.Network
open Memory Utilities

structure NetworkClient extends Peer where
  receivedConnectionCallback : Option (Bool → Bool → Reply)

namespace NetworkClient

/-- Key and IV are cleared; the callback is called by the caller's thread. -/
def disconnected (byItself : Bool) (c : NetworkClient) : Handling NetworkClient Effect :=
  let c := { c with key := [], iv := [] }
  match c.receivedConnectionCallback with
  | none => ⟨c, [], done⟩
  | some callback =>
      Handling.andThen ⟨c, [.clientCallback false byItself], callback false byItself⟩
        fun c => ⟨c, [], done⟩

def setCondition (c : NetworkClient) (newCondition : ConnectConditions) (byItself : Bool) :
    Handling NetworkClient Effect :=
  DataHandler.setCondition (fun c => c.toDataHandler) (fun c h => { c with toDataHandler := h })
    disconnected c newCondition byItself

theorem setCondition_live (c : NetworkClient) {newCondition : ConnectConditions}
    (live : newCondition ≠ .expired) (byItself : Bool) :
    c.setCondition newCondition byItself = ⟨{ c with condition := newCondition }, [], done⟩ :=
  DataHandler.setCondition_live rfl live byItself

theorem setCondition_condition (c : NetworkClient) (newCondition : ConnectConditions)
    (byItself : Bool) : (c.setCondition newCondition byItself).peer.condition = newCondition := by
  unfold setCondition DataHandler.setCondition
  split
  next same => exact same
  next =>
    dsimp only
    split
    next =>
      unfold disconnected
      dsimp only
      split
      next => rfl
      next =>
        exact Handling.andThen_peer (I := fun c : NetworkClient => c.condition = newCondition) rfl
          fun _ same => same
    next => rfl

def expireFirst (c : NetworkClient) (what : String) (body : Peer → Checked (Handling Peer Effect)) :
    Checked (Handling NetworkClient Effect) :=
  confirmedOnly toPeer (fun c p => { c with toPeer := p })
    (fun c => c.setCondition .expired false) (notConfirmed what) body c

def receivedBinary (c : NetworkClient) (data : List UInt8) :
    Checked (Handling NetworkClient Effect) :=
  c.expireFirst "binary" fun p => p.handleBinary none data

def receivedMessage (c : NetworkClient) (data : List UInt8) :
    Checked (Handling NetworkClient Effect) :=
  c.expireFirst "normal" fun p => p.handleMessage none data

def receivedFile (w : World) (c : NetworkClient) (data : List UInt8) :
    Checked (Handling NetworkClient Effect) :=
  c.expireFirst "file" fun p => p.handleFile w none data

/-- `at(name).as_string()`, stored by `store`. -/
def storeString (message : String → Option Json) (name : String)
    (store : NetworkClient → List UInt8 → NetworkClient) (c : NetworkClient) :
    Handling NetworkClient Effect :=
  match message name with
  | none => ⟨c, [], .error "out of range"⟩
  | some (.string value) => ⟨store c value, [], done⟩
  | some _ => ⟨c, [], .error "not a string"⟩

/-- `at(name)` that is stored if it is of the right type and passed over if not. -/
def storeIf (message : String → Option Json) (name : String)
    (store : NetworkClient → Json → NetworkClient) (c : NetworkClient) :
    Handling NetworkClient Effect :=
  match message name with
  | none => ⟨c, [], .error "out of range"⟩
  | some value => ⟨store c value, [], done⟩

def storeKey (c : NetworkClient) : Json → NetworkClient
  | .string value => { c with key := cString value }
  | _ => c

def storeIv (c : NetworkClient) : Json → NetworkClient
  | .string value => { c with iv := cString value }
  | _ => c

def storeEncryptMode (c : NetworkClient) : Json → NetworkClient
  | .bool mode => { c with encryptMode := mode }
  | _ => c

/-- Telling the application, by a job of the pool if both are there. -/
def pushConnectionJob (c : NetworkClient) (condition : Bool) : List Effect :=
  if c.receivedConnectionCallback.isNone then []
  else pushed (c.toDataHandler.push (.connectionJob condition true))

/-- The end of the handshake, with the `condition` of the answer. -/
def conclude (message : String → Option Json) (c : NetworkClient) :
    Handling NetworkClient Effect :=
  match message "condition" with
  | none => ⟨c, [], .error "out of range"⟩
  | some (.bool true) =>
      (c.setCondition .confirmed false).andThen fun c => ⟨c, c.pushConnectionJob true, done⟩
  | some (.bool false) =>
      (c.setCondition .expired false).andThen fun c =>
        let c := { c with key := [], iv := [] }
        ⟨c, c.pushConnectionJob false, refuse "connection has expired by server"⟩
  | some _ => ⟨c, [], .error "not a bool"⟩

def receivedConnection (w : World) (c : NetworkClient) (data : List UInt8) :
    Handling NetworkClient Effect :=
  if c.condition ≠ .waiting then ⟨c, [], refuse "the line is not waiting for connection"⟩
  else if data = [] then ⟨c, [], refuse "received empty data for connection"⟩
  else
    match w.parse (Converter.toString data) with
    | .error what => ⟨c, [], .error what⟩
    | .ok message =>
        (storeString message "id" (fun c value => { c with serverId := value }) c).andThen fun c =>
        (storeString message "sub_id" (fun c value => { c with subId := cString value }) c).andThen
          fun c =>
        (storeIf message "key" storeKey c).andThen fun c =>
        (storeIf message "iv" storeIv c).andThen fun c =>
        (storeIf message "encrypt_mode" storeEncryptMode c).andThen fun c =>
        c.conclude message

/-- `received_data`: an expired client handles nothing. -/
def onReceivedData (w : World) (c : NetworkClient) (mode : UInt8) (data : List UInt8) :
    Checked (Handling NetworkClient Effect) :=
  if c.condition = .expired then .ok ⟨c, [], refuse "the line has expired"⟩
  else
    match DataModes.ofCode mode with
    | none => .ok ⟨c, [], refuse "there is no matched mode"⟩
    | some .connection => .ok (c.receivedConnection w data)
    | some .binary => c.receivedBinary data
    | some .message => c.receivedMessage data
    | some .file => c.receivedFile w data

def requestConnection (w : World) (c : NetworkClient) : Except String Job :=
  c.toDataHandler.send .connection (w.serialize [("id", .string c.id), ("sub_id", .string c.subId),
    ("registered_key", .string c.registeredKey), ("condition", .bool true)])

/-- `destroy_socket` and `destroy_io_context`, which takes the pool with it. -/
def destroy (c : NetworkClient) : NetworkClient := { c with socket := none, threadPool := none }

/-- `start`, given whether `create_socket` connects. -/
def start (w : World) (c : NetworkClient) (connects : Bool) (socketBufferSize : Nat) :
    NetworkClient × List Effect × Bool :=
  let c := (c.destroy.setCondition .none false).peer
  let c := { c with bufferSize := socketBufferSize, threadPool := some false }
  if connects then
    let c := (setCondition { c with socket := some true } .waiting false).peer
    let request := pushed (c.requestConnection w)
    ({ c with fileManager := { c.fileManager with threadPool := some false } }, request, true)
  else (c.destroy, [], false)

/-- The end of `stop` and of `wait_stop`. -/
def release (c : NetworkClient) : NetworkClient :=
  { c.destroy with fileManager := { c.fileManager with threadPool := none } }

/-- `stop`, given whether a `wait_stop` waits for it. The io context is there as long as
the pool is. -/
def stop (c : NetworkClient) (awaited : Bool) : Handling NetworkClient Effect :=
  if c.threadPool = none then ⟨c, [], done⟩
  else
    (c.setCondition .expired true).andThen fun c =>
      if awaited then ⟨c, [], done⟩ else ⟨c.release, [], done⟩

end NetworkClient
end CppToolkit.Network
