import CppToolkit.Network.DataHandler

/-! One frame on the wire: start code, length, payload in chunks, end code. The
socket answers each send with the number of bytes it took or with an exception. -/
namespace CppToolkit.Network
open Words

/-- What the socket answers to the sends of one job; `data turn size` is the answer
to the given turn of the chunk loop when `size` bytes are offered. -/
structure Transfers where
  start : Except String Nat
  length : Except String Nat
  data : Nat → Nat → Except String Nat
  finish : Except String Nat

/-- The bytes that reached the socket and the value returned. -/
structure Written where
  bytes : List UInt8
  result : Except String Unit

def Written.andThen (first : Written) (next : Written) : Written :=
  match first.result with
  | .error what => ⟨first.bytes, .error what⟩
  | .ok () => ⟨first.bytes ++ next.bytes, next.result⟩

structure SendingJob where
  socket : Bool
  startCode : List UInt8
  data : List UInt8
  endCode : List UInt8
  bufferSize : Nat

namespace SendingJob

/-- A send that has to take all its bytes: `send_start`, `send_length`, `send_end`. -/
def sendWhole (bytes : List UInt8) (answer : Except String Nat) (failure : String) : Written :=
  match answer with
  | .error what => ⟨[], .error what⟩
  | .ok sentSize =>
      if sentSize ≠ bytes.length then ⟨bytes.take sentSize, .error failure⟩
      else ⟨bytes, .ok ()⟩

def sendStart (job : SendingJob) (net : Transfers) : Written :=
  sendWhole job.startCode net.start
    ("cannot send start code : " ++ toString job.startCode.length ++ " bytes")

def sendLength (length : Nat) (net : Transfers) : Written :=
  sendWhole (leWord lengthSize length) net.length
    ("cannot send length code : " ++ toString lengthSize ++ " bytes")

/-- The chunk loop, over the bytes not yet sent. -/
def sendData (bufferSize count : Nat) (net : Transfers) (turn : Nat) (rest : List UInt8) :
    Written :=
  if rest = [] then ⟨[], .ok ()⟩
  else
    let temp := min bufferSize rest.length
    match net.data turn temp with
    | .error what => ⟨[], .error what⟩
    | .ok answer =>
        let sent := min answer temp
        if sent = 0 then
          ⟨[], .error ("cannot send data: sent [0] / total [" ++ toString count ++ "] bytes")⟩
        else
          let more := sendData bufferSize count net (turn + 1) (rest.drop sent)
          ⟨rest.take sent ++ more.bytes, more.result⟩
  termination_by rest.length
  decreasing_by
    have := List.length_pos_iff.mpr ‹rest ≠ []›
    simp only [List.length_drop]
    omega

def sendEnd (job : SendingJob) (net : Transfers) : Written :=
  sendWhole job.endCode net.finish
    ("cannot send end code : " ++ toString job.endCode.length ++ " bytes")

def working (job : SendingJob) (net : Transfers) : Written :=
  if job.data = [] then ⟨[], .error "cannot send to empty data"⟩
  else if !job.socket then ⟨[], .error "cannot send on null socket"⟩
  else
    (job.sendStart net).andThen <|
      (sendLength job.data.length net).andThen <|
        (sendData job.bufferSize job.data.length net 0 job.data).andThen (job.sendEnd net)

/-- The frame a job writes when nothing fails. -/
def frame (job : SendingJob) : List UInt8 :=
  job.startCode ++ leWord lengthSize job.data.length ++ job.data ++ job.endCode

end SendingJob

/-- The job `compress_message` makes for its packet. -/
def DataHandler.sendingJob (h : DataHandler) (data : List UInt8) : SendingJob where
  socket := h.socket.isSome
  startCode := h.startCodeTag
  data := data
  endCode := h.endCodeTag
  bufferSize := h.bufferSize

/-- Start code, length and end code go out whole, each data send takes some bytes. -/
structure Transfers.Steady (net : Transfers) (job : SendingJob) : Prop where
  start : net.start = .ok job.startCode.length
  length : net.length = .ok lengthSize
  data : ∀ turn size, 0 < size → ∃ sent, net.data turn size = .ok sent ∧ 0 < sent ∧ sent ≤ size
  finish : net.finish = .ok job.endCode.length

namespace SendingJob

theorem sendWhole_all (bytes : List UInt8) (failure : String) :
    sendWhole bytes (.ok bytes.length) failure = ⟨bytes, .ok ()⟩ := by
  simp [sendWhole]

/-- However the chunks are split, the loop writes the payload once and in order. -/
theorem sendData_steady {net : Transfers}
    (takes : ∀ turn size, 0 < size → ∃ sent, net.data turn size = .ok sent ∧ 0 < sent ∧ sent ≤ size)
    {bufferSize : Nat} (positive : 1 ≤ bufferSize) (count turn : Nat) (rest : List UInt8) :
    sendData bufferSize count net turn rest = ⟨rest, .ok ()⟩ := by
  fun_induction sendData bufferSize count net turn rest with
  | case1 => rfl
  | case2 turn rest nonempty temp what answered =>
      have offered : 0 < temp := by
        have := List.length_pos_iff.mpr nonempty
        omega
      obtain ⟨sent, took, _⟩ := takes turn temp offered
      rw [took] at answered
      cases answered
  | case3 turn rest nonempty temp answer answered sent nothing =>
      have offered : 0 < temp := by
        have := List.length_pos_iff.mpr nonempty
        omega
      obtain ⟨took, same, some, _⟩ := takes turn temp offered
      rw [same] at answered
      cases answered
      omega
  | case4 turn rest nonempty temp answer answered sent some more ih =>
      simp only [more, ih, List.take_append_drop]

theorem working_steady {job : SendingJob} {net : Transfers} (steady : net.Steady job)
    (positive : 1 ≤ job.bufferSize) (payload : job.data ≠ []) (live : job.socket = true) :
    job.working net = ⟨job.frame, .ok ()⟩ := by
  have word : (leWord lengthSize job.data.length).length = lengthSize := leWord_length _ _
  have length : sendLength job.data.length net = ⟨leWord lengthSize job.data.length, .ok ()⟩ := by
    rw [sendLength, steady.length]
    simp [sendWhole, word]
  unfold working
  simp only [payload, live, if_false, Bool.not_true, Bool.false_eq_true, sendStart, sendEnd,
    steady.start, steady.finish, sendWhole_all, length, sendData_steady steady.data positive,
    Written.andThen, frame, List.append_assoc]

end SendingJob
end CppToolkit.Network
