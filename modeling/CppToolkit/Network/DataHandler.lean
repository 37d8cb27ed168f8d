import CppToolkit.Utilities.Combiner
import CppToolkit.Utilities.Converter
import CppToolkit.Thread.JobPriorities

/-! The state shared by both peers and the jobs they exchange with their pool. -/
namespace CppToolkit.Network
open Thread (JobPriorities)
open Utilities

inductive ConnectConditions where
  | none
  | waiting
  | expired
  | confirmed
  deriving DecidableEq, Repr

inductive DataModes where
  | binary
  | file
  | message
  | connection
  deriving DecidableEq, Repr

inductive FileModes where
  | start
  | success
  | failure
  deriving DecidableEq, Repr

def DataModes.code : DataModes → UInt8
  | .binary => 0
  | .file => 1
  | .message => 2
  | .connection => 3

/-- The cast `(DataModes)byte`; a byte without an enumerator finds no handler. -/
def DataModes.ofCode : UInt8 → Option DataModes
  | 0 => some .binary
  | 1 => some .file
  | 2 => some .message
  | 3 => some .connection
  | _ => none

@[simp] theorem DataModes.ofCode_code (mode : DataModes) : ofCode mode.code = some mode := by
  cases mode <;> rfl

theorem DataModes.code_of_ofCode {code : UInt8} {mode : DataModes} (known : ofCode code = some mode) :
    code = mode.code := by
  unfold ofCode at known
  split at known <;> cases known <;> rfl

def FileModes.code : FileModes → UInt8
  | .start => 0
  | .success => 1
  | .failure => 2

def startCodeSize : Nat := 4
def lengthSize : Nat := 8
def endCodeSize : Nat := 4

/-- The jobs a `DataHandler` and its subclasses push, named by their titles. -/
inductive Job where
  | encryptMessage (data : List UInt8)
  | compressMessage (data : List UInt8)
  | sendingJob (data : List UInt8)
  | decompressMessage (data : List UInt8)
  | decryptMessage (data : List UInt8)
  | receivingJob (data : List UInt8)
  | fileSendingJob (fileInformation : List UInt8)
  | receivedConnectionJob (data : List UInt8)
  | connectionJob (condition byItself : Bool)
  | checkConditionCallback (guid : List UInt8)
  deriving DecidableEq, Repr

def Job.priority : Job → JobPriorities
  | .encryptMessage _ => .normal
  | .compressMessage _ => .high
  | .sendingJob _ => .top
  | .decompressMessage _ => .low
  | .decryptMessage _ => .normal
  | .receivingJob _ => .high
  | .fileSendingJob _ => .low
  | .receivedConnectionJob _ => .normal
  | .connectionJob _ _ => .normal
  | .checkConditionCallback _ => .low

/-- `threadPool` is the lock flag of the pool behind the pointer, `socket` whether
the socket behind the pointer is open; `none` is the null pointer. -/
structure DataHandler where
  id : List UInt8
  subId : List UInt8
  bufferSize : Nat
  condition : ConnectConditions
  key : List UInt8
  iv : List UInt8
  encryptMode : Bool
  threadPool : Option Bool
  socket : Option Bool
  startCodeTag : List UInt8
  endCodeTag : List UInt8
  receivedData : List UInt8
  deriving Repr

/-- A fresh handler, as the constructor leaves it. -/
def DataHandler.initial : DataHandler where
  id := []
  subId := []
  bufferSize := 1024
  condition := .none
  key := []
  iv := []
  encryptMode := false
  threadPool := none
  socket := none
  startCodeTag := [253, 253, 253, 253]
  endCodeTag := [252, 252, 252, 252]
  receivedData := []

/-- A connected handler with an open socket and a running pool. -/
def DataHandler.connected : DataHandler :=
  { DataHandler.initial with condition := .confirmed, threadPool := some false, socket := some true }

/-- A C++ exception, or the returned pair: `{ true, nullopt }` or `{ false, message }`. -/
abbrev Reply := Except String (Except String Unit)

def refuse (message : String) : Reply := .ok (.error message)

def done : Reply := .ok (.ok ())

/-- What a member function leaves: the object, its effects in order, and its reply. -/
structure Handling (P E : Type) where
  peer : P
  effects : List E
  reply : Reply

namespace Handling
variable {P Q E : Type}

def map (f : P → Q) (h : Handling P E) : Handling Q E := ⟨f h.peer, h.effects, h.reply⟩

/-- The next statement, unless an exception has left the function. -/
def andThen (h : Handling P E) (next : P → Handling P E) : Handling P E :=
  match h.reply with
  | .error _ => h
  | .ok _ =>
      let n := next h.peer
      ⟨n.peer, h.effects ++ n.effects, n.reply⟩

theorem andThen_peer {I : P → Prop} {h : Handling P E}
    {next : P → Handling P E} (first : I h.peer) (rest : ∀ p, I p → I (next p).peer) :
    I (h.andThen next).peer := by
  unfold andThen
  split
  next => exact first
  next => exact rest _ first

theorem andThen_effects {I : E → Prop} {h : Handling P E}
    {next : P → Handling P E} (first : ∀ e ∈ h.effects, I e)
    (rest : ∀ e ∈ (next h.peer).effects, I e) : ∀ e ∈ (h.andThen next).effects, I e := by
  unfold andThen
  split
  next => exact first
  next =>
    intro e member
    exact (List.mem_append.mp member).elim (first e) (rest e)

/-- A last statement that causes nothing. -/
theorem andThen_nothing (h : Handling P E) {last : P → Handling P E}
    (none_ : ∀ p, (last p).effects = []) : (h.andThen last).effects = h.effects := by
  unfold andThen
  split
  next => rfl
  next =>
    dsimp only
    rw [none_, List.append_nil]

/-- A last statement that changes nothing. -/
theorem andThen_peer_last {h : Handling P E} {last : P → Handling P E}
    (same : ∀ p, (last p).peer = p) : (h.andThen last).peer = h.peer := by
  unfold andThen
  split
  next => rfl
  next => exact same _

theorem andThen_peer_congr {h : Handling P E} {next other : P → Handling P E}
    (same : ∀ p, (next p).peer = (other p).peer) :
    (h.andThen next).peer = (h.andThen other).peer := by
  unfold andThen
  split
  next => rfl
  next => exact same _

/-- A reply that is not looked at. -/
theorem andThen_done (h : Handling P E) (next : P → Handling P E) :
    ((h.andThen fun p => ⟨p, [], done⟩).andThen next).peer = (h.andThen next).peer := by
  cases reply : h.reply with
  | error what => simp only [andThen, reply]
  | ok result =>
      simp only [andThen, reply]
      rfl

end Handling

namespace DataHandler

def startCode (h : DataHandler) (code1 code2 code3 code4 : UInt8) : DataHandler :=
  { h with startCodeTag := [code1, code2, code3, code4] }

def endCode (h : DataHandler) (code1 code2 code3 code4 : UInt8) : DataHandler :=
  { h with endCodeTag := [code1, code2, code3, code4] }

/-- `thread_pool_->push(job)` on a live pool; the accepted job is the result. -/
def push (h : DataHandler) (job : Job) : Except String Job :=
  match h.threadPool with
  | none => .error "thread pool has no handle"
  | some true => .error "the system is locked and new tasks cannot be created"
  | some false => .ok job

theorem push_eq_ok {h : DataHandler} {job job' : Job} (accepted : h.push job = .ok job') :
    job' = job := by
  unfold push at accepted
  split at accepted <;> cases accepted
  rfl

/-- `condition(new_condition, by_itself)` of a peer `P`, whose part of this class `base`
reads and `withBase` writes; `disconnected` is the virtual function of its subclass. -/
def setCondition {P E : Type} (base : P → DataHandler) (withBase : P → DataHandler → P)
    (disconnected : Bool → P → Handling P E) (peer : P) (newCondition : ConnectConditions)
    (byItself : Bool) : Handling P E :=
  if (base peer).condition = newCondition then ⟨peer, [], done⟩
  else
    let peer := withBase peer { base peer with condition := newCondition }
    if newCondition = .expired then disconnected byItself peer else ⟨peer, [], done⟩

/-- Any condition but `Expired` is set and nothing else is done. -/
theorem setCondition_live {P E : Type} {base : P → DataHandler} {withBase : P → DataHandler → P}
    {disconnected : Bool → P → Handling P E} {peer : P} {newCondition : ConnectConditions}
    (same : withBase peer (base peer) = peer) (live : newCondition ≠ .expired) (byItself : Bool) :
    setCondition base withBase disconnected peer newCondition byItself =
      ⟨withBase peer { base peer with condition := newCondition }, [], done⟩ := by
  unfold setCondition
  by_cases already : (base peer).condition = newCondition
  · subst newCondition
    rw [if_pos rfl]
    exact congrArg (Handling.mk · [] done) same.symm
  · rw [if_neg already]
    exact if_neg live

/-- The text of `mode[{}]` in the messages of `send`. -/
def modeText (mode : DataModes) : String := " : mode[" ++ toString mode.code.toNat ++ "]"

/-- The packet of a mode and its data. -/
def packet (mode : DataModes) (data : List UInt8) : List UInt8 :=
  Combiner.append (Combiner.append [] [mode.code]) data

/-- `send` builds the packet and pushes the first job of its way to the socket. -/
def send (h : DataHandler) (mode : DataModes) (data : List UInt8) : Except String Job :=
  if h.socket = none then .error ("cannot send a message by null socket" ++ modeText mode)
  else if h.threadPool = none then
    .error ("cannot send a message by null thread pool" ++ modeText mode)
  else if data = [] then .error ("cannot send a message by null data" ++ modeText mode)
  else if mode = .connection then h.push (.compressMessage (packet mode data))
  else h.push (.encryptMessage (packet mode data))

theorem send_eq_ok {h : DataHandler} {mode : DataModes} {data : List UInt8} {job : Job}
    (sent : h.send mode data = .ok job) :
    data ≠ [] ∧ job = if mode = .connection then .compressMessage (packet mode data)
      else .encryptMessage (packet mode data) := by
  unfold send at sent
  split at sent
  next => cases sent
  next =>
  split at sent
  next => cases sent
  next =>
  split at sent
  next => cases sent
  next some_ =>
  refine ⟨some_, ?_⟩
  split at sent
  next connection => rw [if_pos connection, push_eq_ok sent]
  next other => rw [if_neg other, push_eq_ok sent]

/-- `send_binary`, `send_message` and `send_files` refuse with the same text. -/
def notConfirmed (h : DataHandler) : String :=
  "cannot send binary due to connect condition on " ++ Converter.text h.id ++ ": not confirmed"

def sendBinary (h : DataHandler) (binary message : List UInt8) : Except String Job :=
  if h.condition ≠ .confirmed then .error h.notConfirmed
  else h.send .binary (Combiner.append (Combiner.append [] (Converter.toArray message)) binary)

def sendMessage (h : DataHandler) (message : List UInt8) : Except String Job :=
  if h.condition ≠ .confirmed then .error h.notConfirmed
  else h.send .message (Converter.toArray message)

end DataHandler
end CppToolkit.Network
