import CppToolkit.Network.Reader
import CppToolkit.Network.SendingJob

/-! The byte stream of any number of frames, split in any way, makes the reader push
the payloads and nothing else. -/
namespace CppToolkit.Network
open Words Memory

/-- A handler whose read functions do not stop. -/
structure DataHandler.Open (h : DataHandler) : Prop where
  live : h.condition ≠ .expired
  connected : h.socket = some true

/-- A handler whose read functions neither stop nor overrun the buffer. -/
structure DataHandler.Listening (h : DataHandler) : Prop where
  live : h.condition ≠ .expired
  connected : h.socket = some true
  unlocked : h.threadPool = some false
  startTag : h.startCodeTag.length = startCodeSize
  endTag : h.endCodeTag.length = endCodeSize
  buffer : lengthSize ≤ h.bufferSize

theorem DataHandler.Listening.opened {h : DataHandler} (listens : h.Listening) : h.Open :=
  ⟨listens.live, listens.connected⟩

/-- Codes that are set are codes of four bytes. -/
theorem DataHandler.Listening.codes {h : DataHandler} (listens : h.Listening)
    (code1 code2 code3 code4 code5 code6 code7 code8 : UInt8) :
    ((h.startCode code1 code2 code3 code4).endCode code5 code6 code7 code8).Listening :=
  ⟨listens.live, listens.connected, listens.unlocked, rfl, rfl, listens.buffer⟩

namespace Reader

/-- The states a listening reader passes through differ only in these three. -/
def stage (h : DataHandler) (received : List UInt8) (pending : PendingRead) (jobs : List Job) :
    Reader := ⟨{ h with receivedData := received }, pending, jobs⟩

variable {disconnected : Bool → DataHandler → Handling DataHandler Job}

/-- Reads that each take at least one byte of the stream. -/
inductive Reads (disconnected : Bool → DataHandler → Handling DataHandler Job) :
    Reader → List UInt8 → Reader → List UInt8 → Prop
  | refl (r stream) : Reads disconnected r stream r stream
  | step {r stream next rest last final} :
      r.receive disconnected stream = .ok (some (next, rest)) → rest.length < stream.length →
      Reads disconnected next rest last final → Reads disconnected r stream last final

theorem Reads.trans {r next last : Reader} {stream rest final : List UInt8}
    (first : Reads disconnected r stream next rest)
    (second : Reads disconnected next rest last final) :
    Reads disconnected r stream last final := by
  induction first with
  | refl => exact second
  | step received shorter _ ih => exact .step received shorter (ih second)

theorem Reads.single {r next : Reader} {stream rest : List UInt8}
    (received : r.receive disconnected stream = .ok (some (next, rest)))
    (shorter : rest.length < stream.length) : Reads disconnected r stream next rest :=
  .step received shorter (.refl _ _)

/-- With one unit of fuel for each byte the pump performs all the reads. -/
theorem Reads.pump {r last : Reader} {stream final : List UInt8}
    (reads : Reads disconnected r stream last final) {fuel : Nat} (enough : stream.length ≤ fuel) :
    ∃ left, final.length ≤ left ∧
      Reader.pump disconnected fuel r stream = Reader.pump disconnected left last final := by
  induction reads generalizing fuel with
  | refl => exact ⟨fuel, enough, rfl⟩
  | step received shorter _ ih =>
      cases fuel with
      | zero => omega
      | succ fuel =>
          obtain ⟨left, room, same⟩ := @ih fuel (by omega)
          exact ⟨left, room, by simp only [Reader.pump, received, same]⟩

section
variable (disconnected)
variable {h : DataHandler} (opened : h.Open)
include opened

theorem guarded_stage (received : List UInt8) (pending : PendingRead) (jobs : List Job)
    (body : Reader) : (stage h received pending jobs).guarded disconnected body = body := by
  have live : (stage h received pending jobs).handler.condition ≠ .expired := opened.live
  have connected : (stage h received pending jobs).handler.socket = some true := opened.connected
  rw [guarded, if_neg live, if_neg (not_not_intro connected)]

theorem readStartCode_zero (received : List UInt8) (pending : PendingRead) (jobs : List Job) :
    (stage h received pending jobs).readStartCode disconnected 0 = listening h jobs := by
  rw [readStartCode, guarded_stage disconnected opened]
  rfl

theorem readData_stage (received : List UInt8) (pending : PendingRead) (jobs : List Job)
    {remained : Nat} (more : remained ≠ 0) :
    (stage h received pending jobs).readData disconnected remained =
      stage h received (.data remained) jobs := by
  rw [readData, guarded_stage disconnected opened, if_neg more]
  rfl

omit opened in
/-- A read that the buffer and the stream can serve completes. -/
theorem receive_served (h : DataHandler) (received : List UInt8) (pending : PendingRead)
    (jobs : List Job) (bytes rest : List UInt8) (waits : pending ≠ .none)
    (asked : (stage h received pending jobs).request = bytes.length)
    (small : bytes.length ≤ h.bufferSize) :
    (stage h received pending jobs).receive disconnected (bytes ++ rest) =
      .ok (some ((stage h received pending jobs).complete disconnected bytes, rest)) := by
  have fits : ¬ (stage h received pending jobs).handler.bufferSize <
      min (stage h received pending jobs).request (bytes ++ rest).length := by
    rw [asked]
    have : (stage h received pending jobs).handler.bufferSize = h.bufferSize := rfl
    omega
  have served : ¬ (bytes ++ rest).length < (stage h received pending jobs).request := by
    rw [asked, List.length_append]
    omega
  unfold receive
  split
  next none => exact absurd none waits
  next => rw [if_neg fits, if_neg served, asked, List.take_left, List.drop_left]

theorem complete_startCode {received : List UInt8} {jobs : List Job} {m : Nat} {b : UInt8}
    (same : h.startCodeTag[m]? = some b) :
    (stage h received (.startCode m) jobs).complete disconnected [b] =
      (stage h received (.startCode m) jobs).readStartCode disconnected (m + 1) := by
  have live : (stage h received (.startCode m) jobs).handler.condition ≠ .expired := opened.live
  have matched : ¬ ([b].length ≠ 1 ∨ [b][0]? ≠ h.startCodeTag[m]?) := by simp [same]
  rw [complete, if_neg live]
  exact if_neg matched

theorem complete_endCode {received : List UInt8} {jobs : List Job} {m : Nat} {b : UInt8}
    (same : h.endCodeTag[m]? = some b) :
    (stage h received (.endCode m) jobs).complete disconnected [b] =
      (stage h received (.endCode m) jobs).readEndCode disconnected (m + 1) := by
  have live : (stage h received (.endCode m) jobs).handler.condition ≠ .expired := opened.live
  have matched : ¬ ([b].length ≠ 1 ∨ [b][0]? ≠ h.endCodeTag[m]?) := by simp [same]
  rw [complete, if_neg live]
  exact if_neg matched

theorem complete_wholeBuffer {received bytes : List UInt8} {jobs : List Job} {remained : Nat}
    (full : bytes.length = h.bufferSize) (more : h.bufferSize ≤ remained) :
    (stage h received (.data remained) jobs).complete disconnected bytes =
      (stage h (received ++ bytes) (.data remained) jobs).readData disconnected
        (remained - bytes.length) := by
  have live : (stage h received (.data remained) jobs).handler.condition ≠ .expired := opened.live
  rw [complete, if_neg live]
  exact (if_pos more).trans (if_neg (not_not_intro full))

theorem complete_remainder {received bytes : List UInt8} {jobs : List Job} {remained : Nat}
    (less : ¬ h.bufferSize ≤ remained) :
    (stage h received (.data remained) jobs).complete disconnected bytes =
      (stage h (received ++ bytes) (.data remained) jobs).readEndCode disconnected 0 := by
  have live : (stage h received (.data remained) jobs).handler.condition ≠ .expired := opened.live
  rw [complete, if_neg live]
  exact if_neg less

/-- Induction on the payload still to come, one receiving buffer at a time. -/
theorem reads_data_positive (positive : 0 < h.bufferSize) (jobs : List Job)
    (rest data received : List UInt8) (pending : PendingRead) :
    ∃ pending', Reads disconnected ((stage h received pending jobs).readData disconnected data.length)
      (data ++ rest)
      ((stage h (received ++ data) pending' jobs).readEndCode disconnected 0) rest := by
  induction length : data.length using Nat.strongRecOn
    generalizing data received pending with
  | _ n ih =>
      subst n
      by_cases empty : data = []
      · subst data
        rw [readData, guarded_stage disconnected opened, List.append_nil, List.nil_append]
        exact ⟨pending, .refl _ _⟩
      have some := List.length_pos_iff.mpr empty
      rw [readData_stage disconnected opened _ _ _ (Nat.ne_of_gt some)]
      by_cases more : h.bufferSize ≤ data.length
      · have full : (data.take h.bufferSize).length = h.bufferSize := by
          rw [List.length_take]
          omega
        have tail : (data.drop h.bufferSize).length = data.length - h.bufferSize :=
          List.length_drop
        have one := receive_served disconnected h received (.data data.length) jobs
          (data.take h.bufferSize) (data.drop h.bufferSize ++ rest) (by simp)
          ((if_pos more).trans full.symm) (Nat.le_of_eq full)
        rw [complete_wholeBuffer disconnected opened full more, full, ← tail, ← List.append_assoc,
          List.take_append_drop] at one
        obtain ⟨pending', next⟩ := ih _ (by rw [tail]; omega) (data.drop h.bufferSize)
          (received ++ data.take h.bufferSize) (.data data.length) rfl
        rw [List.append_assoc, List.take_append_drop] at next
        refine ⟨pending', (Reads.single one ?_).trans next⟩
        simp only [List.length_append, tail]
        omega
      · have one := receive_served disconnected h received (.data data.length) jobs data rest (by simp)
          (if_neg more) (by omega)
        rw [complete_remainder disconnected opened more] at one
        refine ⟨.data data.length, Reads.single one ?_⟩
        rw [List.length_append]
        omega

end

section
variable (disconnected)
variable {h : DataHandler} (listens : h.Listening)
include listens

theorem readEndCode_zero (received : List UInt8) (pending : PendingRead) (jobs : List Job) :
    (stage h received pending jobs).readEndCode disconnected 0 =
      stage h received (.endCode 0) jobs := by
  have size : (0 : Nat) ≠ (stage h received pending jobs).handler.endCodeTag.length := by
    have : h.endCodeTag.length = endCodeSize := listens.endTag
    simp only [stage, this, endCodeSize]
    decide
  rw [readEndCode, guarded_stage disconnected listens.opened, if_neg size]
  rfl

/-- The fourth matching end byte pushes the payload and starts the next frame. -/
theorem readEndCode_last (received : List UInt8) (pending : PendingRead) (jobs : List Job) :
    (stage h received pending jobs).readEndCode disconnected endCodeSize =
      listening h (jobs ++ [.decompressMessage received]) := by
  have size : endCodeSize = (stage h received pending jobs).handler.endCodeTag.length :=
    listens.endTag.symm
  have accepted : (stage h received pending jobs).handler.push
      (.decompressMessage (stage h received pending jobs).handler.receivedData) =
        .ok (.decompressMessage received) := by
    have pool : h.threadPool = some false := listens.unlocked
    simp only [stage, DataHandler.push, pool]
  rw [readEndCode, guarded_stage disconnected listens.opened, if_pos size]
  dsimp only
  rw [accepted]
  exact readStartCode_zero disconnected listens.opened [] pending _

/-- A buffer for a length word has room for a byte. -/
theorem buffer_positive : 0 < h.bufferSize := Nat.lt_of_lt_of_le (by decide) listens.buffer

theorem room_for_one (b : UInt8) : [b].length ≤ h.bufferSize := buffer_positive listens

/-- Induction on the part of the start code that comes. -/
theorem reads_startCode_part (jobs : List Job) (rest more : List UInt8) (todo done : List UInt8)
    (tag : h.startCodeTag = done ++ (todo ++ more)) (received : List UInt8)
    (pending : PendingRead) :
    ∃ pending', Reads disconnected
      ((stage h received pending jobs).readStartCode disconnected done.length) (todo ++ rest)
      ((stage h (if todo = [] then received else []) pending' jobs).readStartCode disconnected
        (done ++ todo).length) rest := by
  induction todo generalizing done received pending with
  | nil =>
      rw [if_pos rfl, List.append_nil]
      exact ⟨pending, .refl _ _⟩
  | cons b todo ih =>
      have short : done.length ≠ startCodeSize := by
        rw [← listens.startTag, tag, List.length_append, List.length_append, List.length_cons]
        omega
      have same : h.startCodeTag[done.length]? = some b := by
        rw [tag, List.getElem?_append_right (Nat.le_refl _), Nat.sub_self]
        rfl
      have one := receive_served disconnected h [] (.startCode done.length) jobs [b]
        (todo ++ rest) (by simp) rfl (room_for_one listens b)
      rw [complete_startCode disconnected listens.opened same] at one
      rw [readStartCode, guarded_stage disconnected listens.opened, if_neg short]
      obtain ⟨pending', next⟩ := ih (done ++ [b]) (by simp [tag]) [] (.startCode done.length)
      rw [List.length_append, List.length_singleton, ite_self, List.append_assoc,
        List.singleton_append] at next
      rw [if_neg (List.cons_ne_nil b todo)]
      exact ⟨pending', (Reads.single one (by simp)).trans next⟩

theorem reads_startCode (jobs : List Job) (rest : List UInt8) (todo done : List UInt8)
    (tag : h.startCodeTag = done ++ todo) (received : List UInt8) (pending : PendingRead) :
    Reads disconnected
      ((stage h received pending jobs).readStartCode disconnected done.length) (todo ++ rest)
      (stage h (if todo = [] then received else []) .lengthCode jobs) rest := by
  obtain ⟨pending', reads⟩ := reads_startCode_part disconnected listens jobs rest [] todo done
    (by rw [tag, List.append_nil]) received pending
  have whole : (done ++ todo).length = startCodeSize := by
    rw [← tag, listens.startTag]
  rw [readStartCode.eq_1 disconnected (stage h (if todo = [] then received else []) pending' jobs),
    guarded_stage disconnected listens.opened, if_pos whole, readLengthCode,
    guarded_stage disconnected listens.opened] at reads
  exact reads

/-- Induction on the part of the end code that comes. -/
theorem reads_endCode_part (received : List UInt8) (jobs : List Job) (rest more : List UInt8)
    (todo done : List UInt8) (tag : h.endCodeTag = done ++ (todo ++ more))
    (pending : PendingRead) :
    ∃ pending', Reads disconnected
      ((stage h received pending jobs).readEndCode disconnected done.length) (todo ++ rest)
      ((stage h received pending' jobs).readEndCode disconnected (done ++ todo).length) rest := by
  induction todo generalizing done pending with
  | nil =>
      rw [List.append_nil]
      exact ⟨pending, .refl _ _⟩
  | cons b todo ih =>
      have short : done.length ≠ h.endCodeTag.length := by
        rw [tag, List.length_append, List.length_append, List.length_cons]
        omega
      have same : h.endCodeTag[done.length]? = some b := by
        rw [tag, List.getElem?_append_right (Nat.le_refl _), Nat.sub_self]
        rfl
      have one := receive_served disconnected h received (.endCode done.length) jobs [b]
        (todo ++ rest) (by simp) rfl (room_for_one listens b)
      rw [complete_endCode disconnected listens.opened same] at one
      have issued : (stage h received pending jobs).readEndCode disconnected done.length =
          stage h received (.endCode done.length) jobs := by
        rw [readEndCode, guarded_stage disconnected listens.opened]
        exact if_neg short
      obtain ⟨pending', next⟩ := ih (done ++ [b]) (by simp [tag]) (.endCode done.length)
      rw [List.length_append, List.length_singleton, List.append_assoc,
        List.singleton_append] at next
      rw [issued]
      exact ⟨pending', (Reads.single one (by simp)).trans next⟩

theorem reads_endCode (received : List UInt8) (jobs : List Job) (rest : List UInt8)
    (todo done : List UInt8) (tag : h.endCodeTag = done ++ todo) (pending : PendingRead) :
    Reads disconnected
      ((stage h received pending jobs).readEndCode disconnected done.length) (todo ++ rest)
      (listening h (jobs ++ [.decompressMessage received])) rest := by
  obtain ⟨pending', reads⟩ := reads_endCode_part disconnected listens received jobs rest [] todo
    done (by rw [tag, List.append_nil]) pending
  have whole : (done ++ todo).length = endCodeSize := by
    rw [← tag, listens.endTag]
  rw [whole, readEndCode_last disconnected listens] at reads
  exact reads

theorem reads_data (jobs : List Job) (rest data received : List UInt8) (pending : PendingRead) :
    Reads disconnected ((stage h received pending jobs).readData disconnected data.length)
      (data ++ rest)
      (stage h (received ++ data) (.endCode 0) jobs) rest := by
  obtain ⟨pending', reads⟩ := reads_data_positive disconnected listens.opened
    (buffer_positive listens) jobs rest data received pending
  rw [readEndCode_zero disconnected listens] at reads
  exact reads

theorem reads_lengthCode (jobs : List Job) (rest received : List UInt8) {length : Nat}
    (fits : length < 2 ^ 63) :
    Reads disconnected (stage h received .lengthCode jobs) (leWord lengthSize length ++ rest)
      ((stage h received .lengthCode jobs).readData disconnected length) rest := by
  have word : (leWord lengthSize length).length = lengthSize := leWord_length _ _
  have value : leValue (leWord lengthSize length) = length :=
    leValue_leWord (Nat.lt_of_lt_of_le fits (by decide))
  have one := receive_served disconnected h received .lengthCode jobs (leWord lengthSize length)
    rest (by simp) word.symm (Nat.le_trans (Nat.le_of_eq word) listens.buffer)
  have live : (stage h received .lengthCode jobs).handler.condition ≠ .expired := listens.live
  have decoded : (stage h received .lengthCode jobs).complete disconnected
      (leWord lengthSize length) =
      (stage h received .lengthCode jobs).readData disconnected length := by
    rw [complete, if_neg live]
    refine (if_neg (not_not_intro word)).trans ?_
    rw [value]
  rw [decoded] at one
  apply Reads.single one
  rw [List.length_append, word, lengthSize]
  omega

theorem reads_head (jobs : List Job) (rest : List UInt8) :
    Reads disconnected (listening h jobs) (h.startCodeTag ++ rest)
      (stage h [] .lengthCode jobs) rest := by
  have tag : h.startCodeTag ≠ [] := by
    intro empty
    have size := listens.startTag
    rw [empty] at size
    cases size
  have start := reads_startCode disconnected listens jobs rest h.startCodeTag [] rfl []
    (.startCode 0)
  rw [List.length_nil, readStartCode_zero disconnected listens.opened, if_neg tag] at start
  exact start

/-- A frame up to its end code, whatever bytes the payload contains. -/
theorem reads_body (jobs : List Job) {payload : List UInt8} (fits : payload.length < 2 ^ 63)
    (rest : List UInt8) :
    Reads disconnected (listening h jobs)
      (h.startCodeTag ++ (leWord lengthSize payload.length ++ (payload ++ rest)))
      (stage h payload (.endCode 0) jobs) rest := by
  have start := reads_head disconnected listens jobs
    (leWord lengthSize payload.length ++ (payload ++ rest))
  have length := reads_lengthCode disconnected listens jobs (payload ++ rest) [] fits
  have data := reads_data disconnected listens jobs rest payload [] .lengthCode
  exact start.trans (length.trans data)

/-- One frame becomes one job. -/
theorem reads_frame {jobs : List Job} {payload : List UInt8} (fits : payload.length < 2 ^ 63)
    (rest : List UInt8) :
    Reads disconnected (listening h jobs)
      (h.startCodeTag ++ leWord lengthSize payload.length ++ payload ++ h.endCodeTag ++ rest)
      (listening h (jobs ++ [.decompressMessage payload])) rest := by
  have body := reads_body disconnected listens jobs fits (h.endCodeTag ++ rest)
  have finish := reads_endCode disconnected listens
    payload jobs rest h.endCodeTag [] rfl (.endCode 0)
  rw [List.length_nil, readEndCode_zero disconnected listens] at finish
  simp only [List.append_assoc]
  exact body.trans finish

end

/-- A reader that waits for a start code and has no byte to read stays as it is. -/
theorem pump_listening (h : DataHandler) (jobs : List Job) (fuel : Nat) :
    pump disconnected fuel (listening h jobs) [] = .ok (listening h jobs, []) := by
  cases fuel <;> rfl

end Reader

/-- The bytes that the jobs write when they run one after the other. -/
def wire (sender : DataHandler) (sent : List (ByteVector × Transfers)) : List UInt8 :=
  sent.flatMap fun (payload, net) => ((sender.sendingJob payload.val).working net).bytes

theorem wire_nil (sender : DataHandler) : wire sender [] = [] := rfl

theorem wire_cons (sender : DataHandler) (payload : ByteVector) (net : Transfers)
    (sent : List (ByteVector × Transfers)) :
    wire sender ((payload, net) :: sent) =
      ((sender.sendingJob payload.val).working net).bytes ++ wire sender sent := rfl

namespace Reader

variable (disconnected : Bool → DataHandler → Handling DataHandler Job)

/-- Induction on the frames. -/
theorem reads_wire {sender receiver : DataHandler} (listens : receiver.Listening)
    (sameStart : sender.startCodeTag = receiver.startCodeTag)
    (sameEnd : sender.endCodeTag = receiver.endCodeTag) (sent : List (ByteVector × Transfers))
    (framed : ∀ s ∈ sent, ((sender.sendingJob s.1.val).working s.2).bytes =
      (sender.sendingJob s.1.val).frame) (jobs : List Job) :
    Reads disconnected (listening receiver jobs) (wire sender sent)
      (listening receiver (jobs ++ sent.map fun s => .decompressMessage s.1.val)) [] := by
  induction sent generalizing jobs with
  | nil =>
      rw [List.map_nil, List.append_nil, wire_nil]
      exact .refl _ _
  | cons first sent ih =>
      obtain ⟨payload, net⟩ := first
      have frame : ((sender.sendingJob payload.val).working net).bytes =
          receiver.startCodeTag ++ leWord lengthSize payload.val.length ++ payload.val ++
            receiver.endCodeTag := by
        rw [framed (payload, net) List.mem_cons_self, SendingJob.frame]
        simp only [DataHandler.sendingJob, sameStart, sameEnd]
      have rest := ih (fun s member => framed s (List.mem_cons_of_mem _ member))
        (jobs ++ [.decompressMessage payload.val])
      rw [List.append_assoc] at rest
      rw [wire_cons, frame, List.map_cons]
      exact (reads_frame disconnected listens payload.property (wire sender sent)).trans rest

end Reader

/-- Every job reports success, and the reader pushes exactly the payloads, in order,
and waits for the next start code with nothing left over. -/
theorem wire_round_trip (disconnected : Bool → DataHandler → Handling DataHandler Job)
    {sender receiver : DataHandler} (connected : sender.socket ≠ none)
    (sendBuffer : 1 ≤ sender.bufferSize) (listens : receiver.Listening)
    (sameStart : sender.startCodeTag = receiver.startCodeTag)
    (sameEnd : sender.endCodeTag = receiver.endCodeTag) (sent : List (ByteVector × Transfers))
    (payloads : ∀ s ∈ sent, s.1.val ≠ [])
    (steady : ∀ s ∈ sent, s.2.Steady (sender.sendingJob s.1.val)) (jobs : List Job) :
    (∀ s ∈ sent, ((sender.sendingJob s.1.val).working s.2).result = .ok ()) ∧
      ∀ fuel, (wire sender sent).length ≤ fuel →
        Reader.pump disconnected fuel
            ((Reader.mk receiver .none jobs).readStartCode disconnected 0) (wire sender sent) =
          .ok (Reader.listening receiver (jobs ++ sent.map fun s => .decompressMessage s.1.val),
            []) := by
  have worked : ∀ s ∈ sent, (sender.sendingJob s.1.val).working s.2 =
      ⟨(sender.sendingJob s.1.val).frame, .ok ()⟩ := fun s member =>
    SendingJob.working_steady (steady s member) sendBuffer (payloads s member)
      (Option.isSome_iff_ne_none.mpr connected)
  refine ⟨fun s member => by rw [worked s member], ?_⟩
  intro fuel enough
  have start : (Reader.mk receiver .none jobs).readStartCode disconnected 0 =
      Reader.listening receiver jobs :=
    Reader.readStartCode_zero disconnected listens.opened receiver.receivedData .none jobs
  have reads := Reader.reads_wire disconnected listens sameStart sameEnd sent
    (fun s member => by rw [worked s member]) jobs
  obtain ⟨left, _, same⟩ := reads.pump enough
  rw [start, same, Reader.pump_listening]

/-- A socket that takes one byte of every chunk. -/
def bytewise : Transfers := ⟨.ok 4, .ok 8, fun _ _ => .ok 1, .ok 4⟩

theorem bytewise_steady (job : SendingJob) (startTag : job.startCode.length = startCodeSize)
    (endTag : job.endCode.length = endCodeSize) : bytewise.Steady job where
  start := by rw [startTag]; rfl
  length := rfl
  data := fun _ _ some => ⟨1, rfl, Nat.one_pos, some⟩
  finish := by rw [endTag]; rfl

/-- Two frames through a buffer of three bytes; the second payload contains the codes. -/
theorem wire_round_trip_two :
    let sender := { DataHandler.connected with bufferSize := 3 }
    let first : ByteVector := ⟨[1, 2, 3, 4, 5], by decide⟩
    let second : ByteVector := ⟨[253, 253, 253, 253, 252], by decide⟩
    let stream := wire sender [(first, bytewise), (second, bytewise)]
    Reader.pump (fun _ h => ⟨h, [], done⟩) stream.length
        ((Reader.mk DataHandler.connected .none []).readStartCode (fun _ h => ⟨h, [], done⟩) 0) stream =
      .ok (Reader.listening DataHandler.connected
        [.decompressMessage first.val, .decompressMessage second.val], []) := by
  intro sender first second stream
  have listens : DataHandler.connected.Listening :=
    ⟨by decide, rfl, rfl, rfl, rfl, by decide⟩
  refine (@wire_round_trip (fun _ h => ⟨h, [], done⟩) sender _ (by decide) (by decide) listens
    rfl rfl [(first, bytewise), (second, bytewise)] ?_ ?_ []).2 _ (Nat.le_refl _)
  · decide
  · intro s _
    have net : s.2 = bytewise := by
      rename_i member
      rcases List.mem_cons.mp member with rfl | member
      · rfl
      · rw [List.mem_singleton.mp member]
    rw [net]
    exact bytewise_steady _ rfl rfl

end CppToolkit.Network
