import CppToolkit.Library.Machine
import CppToolkit.Network.Framing

/-! Jobs that write to one socket one after the other, where a send may take fewer bytes
than it was offered. A short start code, length or end code ends the job and leaves the
part of the frame on the stream. -/
namespace CppToolkit.Network
open Words Memory

/-- Every send takes some of the bytes it was offered. -/
structure Transfers.Short (net : Transfers) (job : SendingJob) : Prop where
  start : ∃ sent, net.start = .ok sent ∧ 0 < sent ∧ sent ≤ job.startCode.length
  length : ∃ sent, net.length = .ok sent ∧ 0 < sent ∧ sent ≤ lengthSize
  data : ∀ turn size, 0 < size → ∃ sent, net.data turn size = .ok sent ∧ 0 < sent ∧ sent ≤ size
  finish : ∃ sent, net.finish = .ok sent ∧ 0 < sent ∧ sent ≤ job.endCode.length

namespace SendingJob

/-- The parts of its frame that a job can leave behind. -/
inductive Torn (job : SendingJob) : List UInt8 → Prop
  | start (count : Nat) : count < job.startCode.length → Torn job (job.startCode.take count)
  | length (count : Nat) : count < lengthSize →
      Torn job (job.startCode ++ (leWord lengthSize job.data.length).take count)
  | finish (count : Nat) : count < job.endCode.length →
      Torn job (job.startCode ++ (leWord lengthSize job.data.length ++
        (job.data ++ job.endCode.take count)))

theorem sendWhole_some (bytes : List UInt8) (failure : String) {answer : Except String Nat}
    {size : Nat} (exact : size = bytes.length)
    (took : ∃ sent, answer = .ok sent ∧ 0 < sent ∧ sent ≤ size) :
    sendWhole bytes answer failure = ⟨bytes, .ok ()⟩ ∨
      ∃ count, count < bytes.length ∧
        sendWhole bytes answer failure = ⟨bytes.take count, .error failure⟩ := by
  obtain ⟨sent, rfl, _, bounded⟩ := took
  by_cases all : sent = bytes.length
  · left
    rw [all]
    exact sendWhole_all bytes failure
  · right
    exact ⟨sent, by omega, if_pos all⟩

/-- A job writes its frame and reports success, or leaves a part of it and reports why. -/
theorem working_short {job : SendingJob} {net : Transfers} (short : net.Short job)
    (positive : 1 ≤ job.bufferSize) (payload : job.data ≠ []) (live : job.socket = true) :
    job.working net = ⟨job.frame, .ok ()⟩ ∨
      job.Torn (job.working net).bytes ∧ ∃ what, (job.working net).result = .error what := by
  have data := sendData_steady short.data positive job.data.length 0 job.data
  have word : lengthSize = (leWord lengthSize job.data.length).length := (leWord_length _ _).symm
  unfold working
  simp only [payload, live, if_false, Bool.not_true, Bool.false_eq_true]
  obtain start | ⟨count, part, start⟩ := sendWhole_some job.startCode
    ("cannot send start code : " ++ toString job.startCode.length ++ " bytes") rfl short.start
  · obtain length | ⟨count, part, length⟩ := sendWhole_some (leWord lengthSize job.data.length)
      ("cannot send length code : " ++ toString lengthSize ++ " bytes") word short.length
    · obtain finish | ⟨count, part, finish⟩ := sendWhole_some job.endCode
        ("cannot send end code : " ++ toString job.endCode.length ++ " bytes") rfl short.finish
      · left
        simp only [sendStart, sendLength, sendEnd, start, length, data, finish, Written.andThen,
          frame, List.append_assoc]
      · right
        simp only [sendStart, sendLength, sendEnd, start, length, data, finish, Written.andThen]
        exact ⟨.finish count part, _, rfl⟩
    · right
      simp only [sendStart, sendLength, start, length, Written.andThen]
      exact ⟨.length count (by rw [← word] at part; exact part), _, rfl⟩
  · right
    simp only [sendStart, start, Written.andThen]
    exact ⟨.start count part, _, rfl⟩

end SendingJob

namespace Reader

section
variable (disconnected : Bool → DataHandler → Handling DataHandler Job)

/-- A read that asks for more bytes than there are waits. -/
theorem pump_starved {r : Reader} {stream : List UInt8} (starved : stream.length < r.request)
    (small : stream.length ≤ r.handler.bufferSize) (fuel : Nat) :
    pump disconnected fuel r stream = .ok (r, stream) := by
  have fits : ¬ r.handler.bufferSize < min r.request stream.length := by omega
  have waits : r.receive disconnected stream = .ok none := by
    unfold receive
    split
    next => rfl
    next => rw [if_neg fits, if_pos starved]
  cases fuel with
  | zero => rfl
  | succ fuel => simp only [pump, waits]

variable {h : DataHandler} (listens : h.Listening)
include listens

/-- A part of a frame pushes nothing and leaves the reader inside that frame. -/
theorem pump_torn (jobs : List Job) {job : SendingJob} {bytes : List UInt8}
    (torn : job.Torn bytes) (startTag : job.startCode = h.startCodeTag)
    (endTag : job.endCode = h.endCodeTag) (fits : job.data.length < 2 ^ 63) {fuel : Nat}
    (enough : bytes.length ≤ fuel) :
    ∃ received pending rest, pump disconnected fuel (listening h jobs) bytes =
        .ok (stage h received pending jobs, rest) ∧
      (pending = .startCode 0 → received = []) := by
  have room := listens.buffer
  cases torn with
  | start count part =>
      rw [startTag] at part
      have behind : (h.startCodeTag.take count).length = count := by
        rw [List.length_take]
        omega
      obtain ⟨pending, reads⟩ := reads_startCode_part disconnected listens jobs []
        (h.startCodeTag.drop count) (h.startCodeTag.take count) []
        (by rw [List.nil_append, List.take_append_drop]) [] (.startCode 0)
      rw [List.length_nil, readStartCode_zero disconnected listens.opened, List.nil_append, behind,
        ite_self, List.append_nil] at reads
      have issued : (stage h [] pending jobs).readStartCode disconnected count =
          stage h [] (.startCode count) jobs := by
        rw [readStartCode, guarded_stage disconnected listens.opened]
        exact if_neg (by rw [← listens.startTag]; exact Nat.ne_of_lt part)
      rw [issued] at reads
      rw [startTag] at enough ⊢
      obtain ⟨left, _, same⟩ := reads.pump enough
      have asks : ([] : List UInt8).length < (stage h [] (.startCode count) jobs).request :=
        Nat.zero_lt_one
      rw [same, pump_starved disconnected asks (Nat.zero_le _)]
      exact ⟨[], .startCode count, [], rfl, fun _ => rfl⟩
  | length count part =>
      rw [startTag] at enough ⊢
      have behind : ((leWord lengthSize job.data.length).take count).length = count := by
        rw [List.length_take, leWord_length]
        omega
      obtain ⟨left, _, same⟩ := (reads_head disconnected listens jobs _).pump enough
      rw [same, pump_starved disconnected (by rw [behind]; exact part)
        (by rw [behind]; exact Nat.le_trans (Nat.le_of_lt part) room)]
      exact ⟨[], .lengthCode, _, rfl, fun same => by cases same⟩
  | finish count part =>
      rw [endTag] at part
      rw [startTag, endTag] at enough ⊢
      have behind : (h.endCodeTag.take count).length = count := by
        rw [List.length_take]
        omega
      have body := reads_body disconnected listens jobs fits (h.endCodeTag.take count)
      obtain ⟨pending, trailer⟩ := reads_endCode_part disconnected listens job.data jobs []
        (h.endCodeTag.drop count) (h.endCodeTag.take count) []
        (by rw [List.nil_append, List.take_append_drop]) (.endCode 0)
      rw [List.length_nil, readEndCode_zero disconnected listens, List.nil_append, behind,
        List.append_nil] at trailer
      have issued : (stage h job.data pending jobs).readEndCode disconnected count =
          stage h job.data (.endCode count) jobs := by
        rw [readEndCode, guarded_stage disconnected listens.opened]
        exact if_neg (Nat.ne_of_lt part)
      rw [issued] at trailer
      obtain ⟨left, _, same⟩ := (body.trans trailer).pump enough
      have asks : ([] : List UInt8).length <
          (stage h job.data (.endCode count) jobs).request := Nat.zero_lt_one
      rw [same, pump_starved disconnected asks (Nat.zero_le _)]
      exact ⟨job.data, .endCode count, [], rfl, fun same => by cases same⟩

end
end Reader

/-- The peer's reader, the bytes it has not taken, and the payloads of the jobs whose
`working` returned true. -/
structure Connection where
  reader : Reader
  unread : List UInt8
  sent : List (List UInt8)

namespace Connection
variable (disconnected : Bool → DataHandler → Handling DataHandler Job) (sender : DataHandler)

/-- One job works, and the peer reads as far as the bytes go. -/
def send (c : Connection) (job : ByteVector × Transfers) : Option Connection :=
  let written := (sender.sendingJob job.1.val).working job.2
  let stream := c.unread ++ written.bytes
  match c.reader.pump disconnected stream.length stream with
  | .error _ => none
  | .ok (reader, unread) =>
      some ⟨reader, unread, match written.result with
        | .ok () => c.sent ++ [job.1.val]
        | .error _ => c.sent⟩

/-- The peer waits for the first byte of a start code and has taken all bytes. -/
def AtBoundary (c : Connection) : Prop := c.reader.pending = .startCode 0 ∧ c.unread = []

/-- The peer has pushed the payloads of the successful jobs, in order, and nothing else. -/
def Faithful (c : Connection) : Prop := c.reader.jobs = c.sent.map .decompressMessage

/-- The connection before any job. -/
def fresh (receiver : DataHandler) : Connection := ⟨Reader.listening receiver [], [], []⟩

/-- Faithful, and at a boundary the reader is the one that starts a frame. -/
structure Kept (receiver : DataHandler) (c : Connection) : Prop where
  faithful : c.Faithful
  boundary : c.AtBoundary → c.reader = Reader.listening receiver c.reader.jobs

theorem kept_fresh (receiver : DataHandler) : (fresh receiver).Kept receiver :=
  ⟨rfl, fun _ => rfl⟩

/-- A job that starts at a boundary is pushed when it succeeds and leaves nothing pushed
when it fails. -/
theorem send_kept {receiver : DataHandler} (connected : sender.socket ≠ none)
    (sendBuffer : 1 ≤ sender.bufferSize) (listens : receiver.Listening)
    (sameStart : sender.startCodeTag = receiver.startCodeTag)
    (sameEnd : sender.endCodeTag = receiver.endCodeTag) {c : Connection}
    {job : ByteVector × Transfers} (payload : job.1.val ≠ [])
    (short : job.2.Short (sender.sendingJob job.1.val)) (kept : c.Kept receiver)
    (boundary : c.AtBoundary) :
    ∃ next, c.send disconnected sender job = some next ∧ next.Kept receiver := by
  obtain ⟨reader, unread, sent⟩ := c
  have idle : reader = Reader.listening receiver reader.jobs := kept.boundary boundary
  have taken : unread = [] := boundary.2
  have faithful : reader.jobs = sent.map .decompressMessage := kept.faithful
  subst taken
  obtain whole | ⟨torn, what, failed⟩ := SendingJob.working_short short sendBuffer payload
    (Option.isSome_iff_ne_none.mpr connected)
  · have frame : (sender.sendingJob job.1.val).frame = receiver.startCodeTag ++
        leWord lengthSize job.1.val.length ++ job.1.val ++ receiver.endCodeTag ++ [] := by
      rw [List.append_nil, SendingJob.frame, ← sameStart, ← sameEnd]
      rfl
    have reads := @Reader.reads_frame disconnected _ listens reader.jobs _ job.1.property []
    rw [← frame] at reads
    obtain ⟨left, _, same⟩ := reads.pump (Nat.le_refl _)
    rw [Reader.pump_listening, ← idle] at same
    refine ⟨⟨Reader.listening receiver (reader.jobs ++ [.decompressMessage job.1.val]), [],
      sent ++ [job.1.val]⟩, ?_, ?_, ?_⟩
    · simp only [send, whole, List.nil_append, same]
    · change reader.jobs ++ [.decompressMessage job.1.val] = _
      rw [faithful, List.map_append]
      rfl
    · intro _
      rfl
  · obtain ⟨received, pending, rest, same, empty⟩ := Reader.pump_torn disconnected listens
      reader.jobs torn sameStart sameEnd job.1.property (Nat.le_refl _)
    rw [← idle] at same
    refine ⟨⟨Reader.stage receiver received pending reader.jobs, rest, sent⟩, ?_, ?_, ?_⟩
    · simp only [send, failed, List.nil_append, same]
    · exact faithful
    · intro still
      have waits : pending = .startCode 0 := still.1
      rw [waits, empty waits]
      rfl

end Connection

/-- A socket that takes two bytes of the start code. -/
def shortStart : Transfers := { bytewise with start := .ok 2 }

theorem bytewise_short (job : SendingJob) (startTag : job.startCode.length = startCodeSize)
    (endTag : job.endCode.length = endCodeSize) : bytewise.Short job where
  start := ⟨4, rfl, by decide, by rw [startTag]; decide⟩
  length := ⟨8, rfl, by decide, Nat.le_refl _⟩
  data := fun _ _ some => ⟨1, rfl, Nat.one_pos, some⟩
  finish := ⟨4, rfl, by decide, by rw [endTag]; decide⟩

theorem shortStart_short (job : SendingJob) (startTag : job.startCode.length = startCodeSize)
    (endTag : job.endCode.length = endCodeSize) : shortStart.Short job :=
  { bytewise_short job startTag endTag with
    start := ⟨2, rfl, by decide, by rw [startTag]; decide⟩ }

/-- In a run of jobs that each start at a frame boundary, every state is faithful. -/
theorem boundary_keeps_frames (disconnected : Bool → DataHandler → Handling DataHandler Job)
    {sender receiver : DataHandler} (connected : sender.socket ≠ none)
    (sendBuffer : 1 ≤ sender.bufferSize) (listens : receiver.Listening)
    (sameStart : sender.startCodeTag = receiver.startCodeTag)
    (sameEnd : sender.endCodeTag = receiver.endCodeTag) (jobs : List (ByteVector × Transfers))
    (payloads : ∀ job ∈ jobs, job.1.val ≠ [])
    (short : ∀ job ∈ jobs, job.2.Short (sender.sendingJob job.1.val))
    (boundary : Machine.Along (Connection.send disconnected sender) (fun c _ => c.AtBoundary)
      (Connection.fresh receiver) jobs) :
    ∃ c, Machine.run (Connection.send disconnected sender) (Connection.fresh receiver) jobs =
      some c ∧ c.Faithful := by
  have along := (boundary.and short).and payloads
  obtain ⟨c, ran, kept⟩ := Machine.run_progress (I := Connection.Kept receiver)
    (fun c job kept allowed => Connection.send_kept disconnected sender connected sendBuffer
      listens sameStart sameEnd allowed.1 allowed.2.1 kept allowed.2.2)
    (Connection.kept_fresh receiver) along
  exact ⟨c, ran, kept.faithful⟩

/-- A frame in full and then one that stops inside its start code. -/
theorem boundary_keeps_frames_two :
    let jobs : List (ByteVector × Transfers) :=
      [(⟨[2], by decide⟩, bytewise), (⟨[1], by decide⟩, shortStart)]
    ∃ c, Machine.run (Connection.send (fun _ h => ⟨h, [], done⟩) DataHandler.connected)
      (Connection.fresh DataHandler.connected) jobs = some c ∧ c.Faithful := by
  intro jobs
  have first : (DataHandler.connected.sendingJob [2]).working bytewise =
      ⟨(DataHandler.connected.sendingJob [2]).frame, .ok ()⟩ :=
    SendingJob.working_steady (bytewise_steady _ rfl rfl) (by decide) (by decide) rfl
  have reached : Connection.send (fun _ h => ⟨h, [], done⟩) DataHandler.connected
      (Connection.fresh DataHandler.connected) (⟨[2], by decide⟩, bytewise) =
      some ⟨Reader.listening DataHandler.connected [.decompressMessage [2]], [], [[2]]⟩ := by
    simp only [Connection.send, first]
    rfl
  refine boundary_keeps_frames _ (by decide) (by decide) ⟨by decide, rfl, rfl, rfl, rfl, by decide⟩
    rfl rfl jobs (by decide) ?_ ?_
  · intro job member
    simp only [jobs, List.mem_cons, List.not_mem_nil, or_false] at member
    obtain rfl | rfl := member
    · exact bytewise_short _ rfl rfl
    · exact shortStart_short _ rfl rfl
  · refine .cons reached ⟨rfl, rfl⟩ ⟨⟨rfl, rfl⟩, ?_⟩
    intro c _
    trivial

/-- The first job ends after two bytes of its start code. The second one succeeds, but its
payload is not pushed. -/
theorem short_start_loses_frame :
    let jobs : List (ByteVector × Transfers) :=
      [(⟨[1], by decide⟩, shortStart), (⟨[2], by decide⟩, bytewise)]
    (∀ job ∈ jobs, job.1.val ≠ []) ∧
      (∀ job ∈ jobs, job.2.Short (DataHandler.connected.sendingJob job.1.val)) ∧
      ∃ c, Machine.run (Connection.send (fun _ h => ⟨h, [], done⟩) DataHandler.connected)
        (Connection.fresh DataHandler.connected) jobs = some c ∧
        c.sent = [[2]] ∧ c.reader.jobs = [] := by
  intro jobs
  have first : (DataHandler.connected.sendingJob [1]).working shortStart =
      ⟨[253, 253], .error "cannot send start code : 4 bytes"⟩ := rfl
  have second : (DataHandler.connected.sendingJob [2]).working bytewise =
      ⟨(DataHandler.connected.sendingJob [2]).frame, .ok ()⟩ :=
    SendingJob.working_steady (bytewise_steady _ rfl rfl) (by decide) (by decide) rfl
  refine ⟨by decide, ?_, ?_⟩
  · intro job member
    simp only [jobs, List.mem_cons, List.not_mem_nil, or_false] at member
    obtain rfl | rfl := member
    · exact shortStart_short _ rfl rfl
    · exact bytewise_short _ rfl rfl
  · refine ⟨⟨Reader.stage DataHandler.connected [] (.data 130557) [],
      [0, 0, 2, 252, 252, 252, 252], [[2]]⟩, ?_, rfl, rfl⟩
    simp only [jobs, Machine.run, Connection.send, first, second]
    rfl

end CppToolkit.Network
