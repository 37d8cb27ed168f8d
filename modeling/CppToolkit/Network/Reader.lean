import CppToolkit.Network.DataHandler

/-! The read loop of a `DataHandler`: each function issues one exact-size read, and
the completion of that read decides which one is issued next. -/
namespace CppToolkit.Network
open Words Memory

/-- The outstanding `async_read`, with what its completion handler captured. -/
inductive PendingRead where
  | none
  | startCode (matchedIndex : Nat)
  | lengthCode
  | data (remainedDataLength : Nat)
  | endCode (matchedIndex : Nat)
  deriving DecidableEq, Repr

structure Reader where
  handler : DataHandler
  pending : PendingRead
  jobs : List Job
  deriving Repr

namespace Reader

section
variable (disconnected : Bool → DataHandler → Handling DataHandler Job)

def expire (r : Reader) : Reader :=
  let h := DataHandler.setCondition id (fun _ h => h) disconnected r.handler .expired false
  { handler := h.peer, pending := .none, jobs := r.jobs ++ h.effects }

/-- The two tests every read function starts with. -/
def guarded (r : Reader) (body : Reader) : Reader :=
  if r.handler.condition = .expired then { r with pending := .none }
  else if r.handler.socket ≠ some true then r.expire disconnected
  else body

def readLengthCode (r : Reader) : Reader :=
  r.guarded disconnected { r with pending := .lengthCode }

def readStartCode (r : Reader) (matchedIndex : Nat) : Reader :=
  r.guarded disconnected <|
    if matchedIndex = startCodeSize then r.readLengthCode disconnected
    else
      { r with
        handler := { r.handler with receivedData := [] }
        pending := .startCode matchedIndex }

def readEndCode (r : Reader) (matchedIndex : Nat) : Reader :=
  r.guarded disconnected <|
    if matchedIndex = r.handler.endCodeTag.length then
      let pushed := match r.handler.push (.decompressMessage r.handler.receivedData) with
        | .ok job => [job]
        | .error _ => []
      readStartCode disconnected
        { r with
          handler := { r.handler with receivedData := [] }
          jobs := r.jobs ++ pushed } 0
    else { r with pending := .endCode matchedIndex }

def readData (r : Reader) (remainedDataLength : Nat) : Reader :=
  r.guarded disconnected <|
    if remainedDataLength = 0 then r.readEndCode disconnected 0
    else { r with pending := .data remainedDataLength }

/-- The number of bytes the outstanding read asks for. -/
def request (r : Reader) : Nat :=
  match r.pending with
  | .none => 0
  | .startCode _ => 1
  | .lengthCode => lengthSize
  | .data remained => if r.handler.bufferSize ≤ remained then r.handler.bufferSize else remained
  | .endCode _ => 1

def collect (r : Reader) (bytes : List UInt8) : Reader :=
  { r with handler := { r.handler with receivedData := r.handler.receivedData ++ bytes } }

/-- The completion handler, called with the bytes now in `receiving_buffers_`. -/
def complete (r : Reader) (bytes : List UInt8) : Reader :=
  if r.handler.condition = .expired then { r with pending := .none }
  else
    match r.pending with
    | .none => r
    | .startCode matchedIndex =>
        if bytes.length ≠ 1 ∨ bytes[0]? ≠ r.handler.startCodeTag[matchedIndex]? then
          r.readStartCode disconnected 0
        else r.readStartCode disconnected (matchedIndex + 1)
    | .lengthCode =>
        if bytes.length ≠ lengthSize then r.readStartCode disconnected 0
        else r.readData disconnected (leValue bytes)
    | .data remained =>
        if r.handler.bufferSize ≤ remained then
          if bytes.length ≠ r.handler.bufferSize then r.readStartCode disconnected 0
          else (r.collect bytes).readData disconnected (remained - bytes.length)
        else (r.collect bytes).readEndCode disconnected 0
    | .endCode matchedIndex =>
        if bytes.length ≠ 1 ∨ bytes[0]? ≠ r.handler.endCodeTag[matchedIndex]? then
          r.readStartCode disconnected 0
        else r.readEndCode disconnected (matchedIndex + 1)

/-- The completion handler, called with an error code. -/
def fail (r : Reader) : Reader :=
  if r.handler.condition = .expired then { r with pending := .none }
  else r.expire disconnected

/-- One read on the bytes the peer has sent so far. `none` is a read that still
waits; a request beyond the buffer writes past `receiving_buffers_`. -/
def receive (r : Reader) (stream : List UInt8) : Checked (Option (Reader × List UInt8)) :=
  match r.pending with
  | .none => .ok none
  | _ =>
      if r.handler.bufferSize < min r.request stream.length then .error .writeOverrun
      else if stream.length < r.request then .ok none
      else .ok (some (r.complete disconnected (stream.take r.request), stream.drop r.request))

/-- At most `fuel` reads; every read of a reader with a non-empty buffer takes a byte. -/
def pump : Nat → Reader → List UInt8 → Checked (Reader × List UInt8)
  | 0, r, stream => .ok (r, stream)
  | fuel+1, r, stream =>
      match r.receive disconnected stream with
      | .error fault => .error fault
      | .ok none => .ok (r, stream)
      | .ok (some (next, rest)) => pump fuel next rest

end

/-- The reader right after `read_start_code()` was issued on a handler. -/
def listening (h : DataHandler) (jobs : List Job) : Reader where
  handler := { h with receivedData := [] }
  pending := .startCode 0
  jobs := jobs

end Reader
end CppToolkit.Network
