import CppToolkit.Library.Machine
import CppToolkit.Network.NetworkClient
import CppToolkit.Network.NetworkSession
import CppToolkit.Network.Pipeline

/-! The handshake beside the traffic of the application, store by store: any number of
threads are inside the functions that write condition, key and IV, while packets are
sent and encrypted by others. Encryption is on. -/
namespace CppToolkit.Network
open Utilities Bag

/-- One assignment to a member that other threads read. -/
inductive Store where
  | condition (value : ConnectConditions)
  | key (value : List UInt8)
  | iv (value : List UInt8)
  deriving DecidableEq, Repr

/-- The functions of a peer that write these members: whether one starts with the test
for `Waiting`, its stores in order, and those of `disconnected`, which the setter of the
condition inserts behind `Expired`. -/
structure Role where
  Handler : Type
  Fresh : Type
  waits : Handler → Bool
  stores : Handler → List Store
  disconnected : Fresh → List Store

/-- A text from `create_key`: the base64 form of 32 or 16 bytes. -/
abbrev Created := { text : List UInt8 // text ≠ [] }

inductive SessionHandler where
  | start
  | accept (key iv : Created)
  | reject (key iv : Created)
  | expire

def session : Role where
  Handler := SessionHandler
  Fresh := Created × Created
  waits
    | .accept _ _ => true
    | .reject _ _ => true
    | _ => false
  stores
    | .start => [.condition .none, .condition .waiting]
    | .accept key iv => [.condition .confirmed, .key key, .iv iv]
    | .reject key iv => [.condition .expired, .key key, .iv iv]
    | .expire => [.condition .expired]
  disconnected := fun (key, iv) => [.key key, .iv iv]

/-- `none` is a field of the answer that is no string. -/
inductive ClientHandler where
  | start
  | accept (key iv : Option (List UInt8))
  | reject (key iv : Option (List UInt8))
  | expire

def answered (key iv : Option (List UInt8)) : List Store :=
  (key.map Store.key).toList ++ (iv.map Store.iv).toList

def client : Role where
  Handler := ClientHandler
  Fresh := Unit
  waits
    | .accept _ _ => true
    | .reject _ _ => true
    | _ => false
  stores
    | .start => [.condition .none, .condition .waiting]
    | .accept key iv => answered key iv ++ [.condition .confirmed]
    | .reject key iv => answered key iv ++ [.condition .expired, .key [], .iv []]
    | .expire => [.condition .expired]
  disconnected := fun _ => [.key [], .iv []]

/-- An `encrypt_message` job behind its first tests, with the members it has read. -/
structure Encrypting where
  packet : List UInt8
  key : Option (List UInt8)
  iv : Option (List UInt8)
  deriving DecidableEq, Repr

/-- What a job passed to `compress_message` for its packet. -/
structure HandedOn where
  packet : List UInt8
  bytes : List UInt8
  deriving DecidableEq, Repr

/-- The members, the rest of every function that is writing them, the sends that found
the condition `Confirmed`, the queued and the running jobs, and what they handed on. -/
structure Exchange where
  condition : ConnectConditions
  key : List UInt8
  iv : List UInt8
  handlers : List (List Store)
  sending : List (DataModes × List UInt8)
  jobs : List (List UInt8)
  running : List Encrypting
  handedOn : List HandedOn
  deriving DecidableEq, Repr

namespace Exchange

def initial : Exchange := ⟨.none, [], [], [], [], [], [], []⟩

/-- `call` is a `send_binary`, `send_message` or `send_files`: the data it will send. -/
inductive Action (role : Role) where
  | enter (handler : role.Handler)
  | store (thread : Nat) (fresh : role.Fresh)
  | call (data : List (DataModes × List UInt8))
  | push (position : Nat)
  | startJob (position : Nat)
  | readKey (job : Nat)
  | readIv (job : Nat)
  | handOn (job : Nat)

def storeStep (role : Role) (s : Exchange) (fresh : role.Fresh) (rest : List Store)
    (others : List (List Store)) : Store → Exchange
  | .key value => { s with key := value, handlers := rest :: others }
  | .iv value => { s with iv := value, handlers := rest :: others }
  | .condition value =>
      if s.condition ≠ value ∧ value = .expired then
        { s with condition := value, handlers := (role.disconnected fresh ++ rest) :: others }
      else { s with condition := value, handlers := rest :: others }

/-- `send` refuses empty data. -/
def pushStep (s : Exchange) (mode : DataModes) (data : List UInt8)
    (rest : List (DataModes × List UInt8)) : Exchange :=
  if data = [] then { s with sending := rest }
  else { s with sending := rest, jobs := s.jobs ++ [DataHandler.packet mode data] }

def startStep (s : Exchange) (packet : List UInt8) (rest : List (List UInt8)) : Exchange :=
  if s.condition = .expired then { s with jobs := rest }
  else { s with jobs := rest, running := ⟨packet, none, none⟩ :: s.running }

/-- The end of `encrypt_message`; an exception hands nothing on. -/
def handOnStep (cipher : Cipher) (s : Exchange) (packet key iv : List UInt8)
    (rest : List Encrypting) : Exchange :=
  match Encryptor.encryption cipher packet key iv with
  | .error _ => { s with running := rest }
  | .ok buffer => { s with running := rest, handedOn := s.handedOn ++ [⟨packet, orRaw packet buffer⟩] }

def step (role : Role) (cipher : Cipher) (s : Exchange) : Action role → Option Exchange
  | .enter handler =>
      if role.waits handler = true ∧ s.condition ≠ .waiting then none
      else some { s with handlers := role.stores handler :: s.handlers }
  | .store thread fresh =>
      match takeAt s.handlers thread with
      | some (store :: rest, others) => some (s.storeStep role fresh rest others store)
      | _ => none
  | .call data =>
      if s.condition = .confirmed ∧ ∀ sent ∈ data, sent.1 ≠ .connection then
        some { s with sending := s.sending ++ data }
      else none
  | .push position =>
      match takeAt s.sending position with
      | some ((mode, data), rest) => some (s.pushStep mode data rest)
      | none => none
  | .startJob position =>
      match takeAt s.jobs position with
      | some (packet, rest) => some (s.startStep packet rest)
      | none => none
  | .readKey job =>
      match takeAt s.running job with
      | some (⟨packet, none, iv⟩, rest) =>
          some { s with running := ⟨packet, some s.key, iv⟩ :: rest }
      | _ => none
  | .readIv job =>
      match takeAt s.running job with
      | some (⟨packet, key, none⟩, rest) =>
          some { s with running := ⟨packet, key, some s.iv⟩ :: rest }
      | _ => none
  | .handOn job =>
      match takeAt s.running job with
      | some (⟨packet, some key, some iv⟩, rest) => some (s.handOnStep cipher packet key iv rest)
      | _ => none

end Exchange

/-- The members that the stores write. -/
structure Members where
  condition : ConnectConditions
  key : List UInt8
  iv : List UInt8

def Members.of (h : DataHandler) : Members := ⟨h.condition, h.key, h.iv⟩

def Members.store (m : Members) : Store → Members
  | .condition value => { m with condition := value }
  | .key value => { m with key := value }
  | .iv value => { m with iv := value }

theorem NetworkSession.responseConnection_members (w : World) {s : NetworkSession}
    (on : s.encryptMode = true) (accepted : Bool) :
    Members.of (s.responseConnection w accepted).peer.toDataHandler =
      [.key (w.createKey s.keysCreated).1, .iv (w.createKey s.keysCreated).2].foldl Members.store
        (Members.of s.toDataHandler) := by
  unfold responseConnection createKey
  rw [if_pos on]
  dsimp only
  split
  next => rfl
  next => split <;> rfl

theorem NetworkSession.setCondition_members (w : World) {s : NetworkSession} {byItself : Bool}
    (on : s.encryptMode = true) (live : s.condition ≠ .expired) :
    Members.of (s.setCondition w .expired byItself).peer.toDataHandler =
      [.condition .expired, .key (w.createKey s.keysCreated).1,
        .iv (w.createKey s.keysCreated).2].foldl Members.store (Members.of s.toDataHandler) := by
  unfold setCondition DataHandler.setCondition disconnected
  rw [if_neg live, if_pos rfl]
  refine Handling.andThen_peer (I := fun t : NetworkSession => Members.of t.toDataHandler = _)
    ?_ fun _ same => same
  exact @responseConnection_members w { s with condition := .expired } on false

/-- An accepted handshake performs the stores of its role in their order. -/
theorem NetworkSession.receivedConnection_members (w : World) {s : NetworkSession}
    {data id : List UInt8} {message : String → Option Json} {key : Json}
    (on : s.encryptMode = true) (waiting : s.condition = .waiting) (some_ : data ≠ [])
    (parsed : w.parse (Converter.toString data) = .ok message)
    (named : message "id" = some (.string id)) (found : message "registered_key" = some key)
    (accepted : s.accepts key = true) :
    Members.of (s.receivedConnection w data).peer.toDataHandler =
      [.condition .confirmed, .key (w.createKey s.keysCreated).1,
        .iv (w.createKey s.keysCreated).2].foldl Members.store (Members.of s.toDataHandler) := by
  have fresh : s.condition ≠ .confirmed := by
    rw [waiting]
    decide
  unfold receivedConnection
  rw [if_neg (not_not_intro waiting), if_neg some_, parsed]
  simp only [named, found]
  have same : accepts { s with id := cString id } key = true := accepted
  rw [if_pos same]
  unfold setCondition DataHandler.setCondition
  rw [if_neg fresh, if_neg (by decide)]
  exact @responseConnection_members w { s with id := cString id, condition := .confirmed } on true

theorem NetworkClient.disconnected_members (c : NetworkClient) (byItself : Bool) :
    Members.of (c.disconnected byItself).peer.toDataHandler =
      (client.disconnected ()).foldl Members.store (Members.of c.toDataHandler) := by
  unfold disconnected
  dsimp only
  split
  next => rfl
  next =>
    exact Handling.andThen_peer (I := fun t : NetworkClient => Members.of t.toDataHandler = _)
      rfl fun _ same => same

end CppToolkit.Network
