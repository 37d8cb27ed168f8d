import CppToolkit.Library.Bag
import CppToolkit.Network.DataHandler
import CppToolkit.Utilities.Compressor
import CppToolkit.Utilities.Encryptor

/-! The jobs a packet passes through, from `send` on one peer to `received_data` on the
other. Each stage falls back to the bytes it got when its codec returns nothing. -/
namespace CppToolkit.Network
open Memory Utilities Bag

/-- The libraries behind the compressor and the encryptor. -/
structure Codecs where
  lz4 : Lz4
  cipher : Cipher

/-- The default of `block_bytes`. -/
def blockBytes : UInt16 := 1024

/-- What one job comes to: a pushed job, a packet handed to the socket, a call of
`received_data`, a message, or an exception. -/
inductive Worked where
  | pushed (job : Job)
  | written (packet : List UInt8)
  | received (mode : UInt8) (data : List UInt8)
  | refused (what : String)
  | thrown (what : String)
  deriving DecidableEq, Repr

def Worked.ofPush : Except String Job → Worked
  | .ok job => .pushed job
  | .error what => .refused what

/-- `if (buffer == nullopt) buffer = data`. -/
def orRaw (data : List UInt8) : Except String (List UInt8) → List UInt8
  | .ok buffer => buffer
  | .error _ => data

namespace DataHandler

/-- The two tests at the head of the four message jobs. -/
def alive (h : DataHandler) (body : Checked Worked) : Checked Worked :=
  if h.condition = .expired then .ok (.refused "connection has expired")
  else if h.threadPool = none then .ok (.refused "thread pool has no handle")
  else body

/-- Pushing the next job with what a coder returned. -/
def pushCoded (h : DataHandler) (data : List UInt8) (next : List UInt8 → Job) :
    Encryptor.Coded → Worked
  | .error what => .thrown what
  | .ok buffer => .ofPush (h.push (next (orRaw data buffer)))

def compressMessage (c : Codecs) (h : DataHandler) (data : List UInt8) : Checked Worked :=
  h.alive <| .ok <| .ofPush <|
    h.push (.sendingJob (orRaw data (Compressor.compression c.lz4 data blockBytes)))

def decompressMessage (c : Codecs) (h : DataHandler) (data : List UInt8) : Checked Worked :=
  h.alive do
    let buffer ← Compressor.decompression c.lz4 data blockBytes
    .ok (.ofPush (h.push (.decryptMessage (orRaw data buffer))))

def encryptMessage (c : Codecs) (h : DataHandler) (data : List UInt8) : Checked Worked :=
  h.alive <|
    if h.encryptMode then
      .ok (h.pushCoded data .compressMessage (Encryptor.encryption c.cipher data h.key h.iv))
    else .ok (.ofPush (h.push (.compressMessage data)))

def decryptMessage (c : Codecs) (h : DataHandler) (data : List UInt8) : Checked Worked :=
  h.alive <|
    if h.encryptMode then
      .ok (h.pushCoded data .receivingJob (Encryptor.decryption c.cipher data h.key h.iv))
    else .ok (.ofPush (h.push (.receivingJob data)))

/-- A sending job whose transfers succeed; the frame it writes is that of the packet. -/
def sendPacket (h : DataHandler) (data : List UInt8) : Worked :=
  if data = [] then .refused "cannot send to empty data"
  else if h.socket = none then .refused "cannot send on null socket"
  else .written data

end DataHandler

/-- `ReceivingJob::working`. -/
def receivingWork (data : List UInt8) : Checked Worked :=
  if data = [] then .ok (.refused "cannot complete ReceivingJob with null data")
  else do
    let (modeData, index) ← Combiner.divide data 0
    let (arrayData, _) ← Combiner.divide data index
    match modeData with
    | [mode] =>
        if arrayData = [] then .ok (.refused "cannot complete ReceivingJob with empty data")
        else .ok (.received mode arrayData)
    | _ => .ok (.refused "cannot complete ReceivingJob with null data mode")

/-- The jobs of the pipeline; the other jobs are not its part. -/
def DataHandler.work (c : Codecs) (h : DataHandler) : Job → Option (Checked Worked)
  | .encryptMessage data => some (h.encryptMessage c data)
  | .compressMessage data => some (h.compressMessage c data)
  | .sendingJob data => some (.ok (h.sendPacket data))
  | .decompressMessage data => some (h.decompressMessage c data)
  | .decryptMessage data => some (h.decryptMessage c data)
  | .receivingJob data => some (receivingWork data)
  | _ => none

/-- A packet on its way: the pending jobs of both peers in any order, the payloads of the
frames on the wire in theirs, and the calls of `received_data`. -/
structure Link where
  sending : List Job
  wire : List (List UInt8)
  receiving : List Job
  received : List (UInt8 × List UInt8)
  deriving DecidableEq, Repr

namespace Link

inductive Action where
  | sender (position : Nat)
  | deliver
  | receiver (position : Nat)
  deriving DecidableEq, Repr

/-- The pending jobs `rest` of one side, after a job of it came to `worked`. -/
def settle (l : Link) (onSender : Bool) (rest : List Job) : Worked → Link
  | .pushed job =>
      if onSender then { l with sending := rest ++ [job] }
      else { l with receiving := rest ++ [job] }
  | .written packet => { l with sending := rest, wire := l.wire ++ [packet] }
  | .received mode data => { l with receiving := rest, received := l.received ++ [(mode, data)] }
  | _ => if onSender then { l with sending := rest } else { l with receiving := rest }

def workStep (c : Codecs) (h : DataHandler) (l : Link) (onSender : Bool) (job : Job)
    (rest : List Job) : Option Link :=
  match h.work c job with
  | some (.ok worked) => some (l.settle onSender rest worked)
  | _ => none

/-- The reader of the receiver turns the next frame into a job. -/
def step (c : Codecs) (sender receiver : DataHandler) (l : Link) : Action → Option Link
  | .sender position =>
      (takeAt l.sending position).bind fun (job, rest) => workStep c sender l true job rest
  | .deliver =>
      match l.wire with
      | [] => none
      | packet :: wire =>
          match receiver.push (.decompressMessage packet) with
          | .ok job => some { l with wire, receiving := l.receiving ++ [job] }
          | .error _ => some { l with wire }
  | .receiver position =>
      (takeAt l.receiving position).bind fun (job, rest) => workStep c receiver l false job rest

def Quiet (l : Link) : Prop := l.sending = [] ∧ l.wire = [] ∧ l.receiving = []

/-- The pipeline with one job pushed by the sender. -/
def sent (job : Job) : Link := ⟨[job], [], [], []⟩

end Link
end CppToolkit.Network
