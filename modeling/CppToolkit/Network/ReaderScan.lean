import CppToolkit.Library.Scanner
import CppToolkit.Network.Recovery

/-! The reader against a scan of the same bytes one at a time: whatever the size of its buffer
and in whatever pieces the bytes come, it pushes the payloads that the scan finds. -/
namespace CppToolkit.Network
open Words Memory Scanner

/-- The frames that the codes of a handler delimit. -/
def DataHandler.Listening.format {h : DataHandler} (listens : h.Listening) : Format UInt8 where
  startCode := h.startCodeTag
  width := lengthSize
  value := leValue
  endCode := h.endCodeTag
  starts := by
    have size := listens.startTag
    intro empty
    rw [empty] at size
    cases size
  measured := by decide
  ends := by
    have size := listens.endTag
    intro empty
    rw [empty] at size
    cases size

namespace Reader

section
variable (disconnected : Bool → DataHandler → Handling DataHandler Job)

/-- The bytes come in pieces; behind each one the reader goes on as far as it can. -/
def arrivals : Reader → List UInt8 → List (List UInt8) → Checked (Reader × List UInt8)
  | r, left, [] => .ok (r, left)
  | r, left, piece :: pieces =>
      match pump disconnected (left ++ piece).length r (left ++ piece) with
      | .error fault => .error fault
      | .ok (next, rest) => arrivals next rest pieces

end

/-- A reader between two reads and a scan that have come equally far. -/
inductive Follows (h : DataHandler) (jobs : List Job) : Reader → State UInt8 → Prop
  | startCode {m : Nat} : m < startCodeSize →
      Follows h jobs (stage h [] (.startCode m) jobs) (.hunting m)
  | lengthCode : Follows h jobs (stage h [] .lengthCode jobs) (.measuring [])
  | data {remained : Nat} {received : List UInt8} : 0 < remained →
      Follows h jobs (stage h received (.data remained) jobs) (.filling remained received)
  | endCode {m : Nat} {received : List UInt8} : m < endCodeSize →
      Follows h jobs (stage h received (.endCode m) jobs) (.closing m received)

theorem Follows.jobs_eq {h : DataHandler} {jobs : List Job} {r : Reader} {s : State UInt8}
    (follows : Follows h jobs r s) : r.jobs = jobs := by
  cases follows <;> rfl

theorem follows_listening (h : DataHandler) (jobs : List Job) :
    Follows h jobs (listening h jobs) (.hunting 0) := .startCode (by decide)

section
variable (disconnected : Bool → DataHandler → Handling DataHandler Job)
variable {h : DataHandler} (listens : h.Listening) (jobs : List Job)
include listens

theorem readData_follows (remained : Nat) (received : List UInt8) (pending : PendingRead) :
    Follows h jobs ((stage h received pending jobs).readData disconnected remained)
      (Format.fill remained received) := by
  by_cases all : remained = 0
  · rw [Format.fill, if_pos all, readData, guarded_stage disconnected listens.opened, if_pos all,
      readEndCode_zero disconnected listens]
    exact .endCode (by decide)
  · rw [Format.fill, if_neg all, readData_stage disconnected listens.opened _ _ _ all]
    exact .data (Nat.pos_of_ne_zero all)

/-- A byte that does not go on with the start code is consumed, and the hunt starts again. -/
theorem complete_missed {m : Nat} {b : UInt8} (other : h.startCodeTag[m]? ≠ some b) :
    (stage h [] (.startCode m) jobs).complete disconnected [b] = listening h jobs := by
  have live : (stage h [] (.startCode m) jobs).handler.condition ≠ .expired := listens.live
  have mismatch : [b].length ≠ 1 ∨ [b][0]? ≠ h.startCodeTag[m]? := .inr (Ne.symm other)
  rw [complete, if_neg live]
  refine (if_pos mismatch).trans ?_
  exact readStartCode_zero disconnected listens.opened [] (.startCode m) jobs

theorem complete_startCode_follows {m : Nat} (partly : m < startCodeSize) (b : UInt8) :
    Follows h jobs ((stage h [] (.startCode m) jobs).complete disconnected [b])
      (listens.format.step (.hunting m) b).1 := by
  have tag : listens.format.startCode.length = startCodeSize := listens.startTag
  have positive : 0 ≠ startCodeSize := by decide
  simp only [Format.step]
  by_cases same : h.startCodeTag[m]? = some b
  · have scanned : listens.format.startCode[m]? = some b := same
    rw [complete_startCode disconnected listens.opened same, Hunt.advance_of_eq scanned, tag]
    rw [readStartCode, guarded_stage disconnected listens.opened]
    by_cases all : m + 1 = startCodeSize
    · rw [if_pos all, if_pos all, readLengthCode, guarded_stage disconnected listens.opened]
      exact .lengthCode
    · rw [if_neg all, if_neg all]
      exact .startCode (by omega)
  · have scanned : listens.format.startCode[m]? ≠ some b := same
    rw [Hunt.advance_of_ne scanned, tag, if_neg positive,
      complete_missed disconnected listens jobs same]
    exact follows_listening h jobs

theorem complete_endCode_follows {m : Nat} (partly : m < endCodeSize) (received : List UInt8)
    (b : UInt8) :
    Follows h
      (jobs ++ (listens.format.step (.closing m received) b).2.toList.map .decompressMessage)
      ((stage h received (.endCode m) jobs).complete disconnected [b])
      (listens.format.step (.closing m received) b).1 := by
  have tag : listens.format.endCode.length = endCodeSize := listens.endTag
  simp only [Format.step]
  by_cases same : h.endCodeTag[m]? = some b
  · have scanned : listens.format.endCode[m]? = some b := same
    rw [if_pos scanned, complete_endCode disconnected listens.opened same, tag]
    by_cases all : m + 1 = endCodeSize
    · have pushed := readEndCode_last disconnected listens received (.endCode m) jobs
      rw [← all] at pushed
      rw [if_pos all, pushed]
      exact follows_listening h _
    · have more : ¬ m + 1 = (stage h received (.endCode m) jobs).handler.endCodeTag.length := by
        rw [← listens.endTag] at all
        exact all
      rw [if_neg all, readEndCode, guarded_stage disconnected listens.opened, if_neg more]
      dsimp only
      rw [Option.toList_none, List.map_nil, List.append_nil]
      exact .endCode (by omega)
  · have scanned : ¬ listens.format.endCode[m]? = some b := same
    rw [if_neg scanned, complete_wrongEnd disconnected listens received jobs same]
    rw [Option.toList_none, List.map_nil, List.append_nil]
    exact follows_listening h jobs

/-- A completed read is a scan of its bytes. -/
theorem complete_follows {r : Reader} {s : State UInt8} (follows : Follows h jobs r s)
    {bytes : List UInt8} (whole : bytes.length = r.request) :
    Follows h (jobs ++ (listens.format.scan s bytes).2.map .decompressMessage)
      (r.complete disconnected bytes) (listens.format.scan s bytes).1 := by
  cases follows with
  | startCode partly =>
      obtain ⟨b, rfl⟩ := List.length_eq_one_iff.mp whole
      have kept := complete_startCode_follows disconnected listens jobs partly b
      simpa only [Format.scan_cons, Format.scan_nil, Format.step, Option.toList_none, List.append_nil,
        List.map_nil] using kept
  | lengthCode =>
      have size : bytes.length = listens.format.width := whole
      have scanned := @Format.scan_measuring _ listens.format _ bytes []
        listens.format.measured (by rw [List.length_nil, Nat.zero_add, size])
      rw [List.nil_append, if_pos size] at scanned
      have live : (stage h [] .lengthCode jobs).handler.condition ≠ .expired := listens.live
      have read : (stage h [] .lengthCode jobs).complete disconnected bytes =
          (stage h [] .lengthCode jobs).readData disconnected (leValue bytes) := by
        rw [complete, if_neg live]
        exact if_neg (not_not_intro whole)
      rw [scanned, read, List.map_nil, List.append_nil]
      exact readData_follows disconnected listens jobs (leValue bytes) [] .lengthCode
  | @data remained received more =>
      by_cases big : h.bufferSize ≤ remained
      · have full : bytes.length = h.bufferSize := whole.trans (if_pos big)
        have scanned := @Format.scan_filling _ listens.format _ bytes remained received more
          (Nat.le_trans (Nat.le_of_eq full) big)
        rw [complete_wholeBuffer disconnected listens.opened full big, scanned, List.map_nil,
          List.append_nil]
        exact readData_follows disconnected listens jobs _ _ _
      · have rest : bytes.length = remained := whole.trans (if_neg big)
        have scanned := @Format.scan_filling _ listens.format _ bytes remained received more
          (Nat.le_of_eq rest)
        rw [complete_remainder disconnected listens.opened big, scanned, rest, Nat.sub_self,
          Format.fill, if_pos rfl, List.map_nil, List.append_nil,
          readEndCode_zero disconnected listens]
        exact .endCode (by decide)
  | @endCode m received partly =>
      obtain ⟨b, rfl⟩ := List.length_eq_one_iff.mp whole
      have kept := complete_endCode_follows disconnected listens jobs partly received b
      simpa only [Format.scan_cons, Format.scan_nil, List.append_nil] using kept

omit listens in
theorem Follows.request_positive {r : Reader} {s : State UInt8} (follows : Follows h jobs r s)
    (buffer : lengthSize ≤ h.bufferSize) : 0 < r.request ∧ r.request ≤ h.bufferSize := by
  have room : 0 < h.bufferSize := Nat.lt_of_lt_of_le (by decide) buffer
  cases follows with
  | startCode => exact ⟨Nat.one_pos, room⟩
  | lengthCode => exact ⟨Nat.succ_pos 7, buffer⟩
  | @data remained received more =>
      have asked : (stage h received (.data remained) jobs).request =
          if h.bufferSize ≤ remained then h.bufferSize else remained := rfl
      rw [asked]
      split
      next => exact ⟨room, Nat.le_refl _⟩
      next small => exact ⟨more, by omega⟩
  | endCode => exact ⟨Nat.one_pos, room⟩

/-- The bytes that a read still waits for end no frame. -/
theorem waiting_silent {r : Reader} {s : State UInt8} (follows : Follows h jobs r s)
    {rest : List UInt8} (short : rest.length < r.request) : (listens.format.scan s rest).2 = [] := by
  cases follows with
  | startCode =>
      have none_ : rest = [] := List.length_eq_zero_iff.mp (Nat.lt_one_iff.mp short)
      rw [none_]
      rfl
  | lengthCode =>
      have room : ([] : List UInt8).length + rest.length ≤ listens.format.width := by
        rw [List.length_nil, Nat.zero_add]
        exact Nat.le_of_lt short
      exact congrArg Prod.snd (Format.scan_measuring rest [] listens.format.measured room)
  | @data remained received more =>
      have room : rest.length ≤ remained := by
        have asked : (stage h received (.data remained) jobs).request =
            if h.bufferSize ≤ remained then h.bufferSize else remained := rfl
        rw [asked] at short
        split at short <;> omega
      rw [Format.scan_filling rest received more room]
  | endCode =>
      have none_ : rest = [] := List.length_eq_zero_iff.mp (Nat.lt_one_iff.mp short)
      rw [none_]
      rfl

/-- What a reader and a scan have in common behind a part of the stream. -/
structure Scanned (s : State UInt8) (stream : List UInt8) (last : Reader) (rest : List UInt8) :
    Prop where
  taken : ∃ taken, stream = taken ++ rest ∧
    Follows h (jobs ++ (listens.format.scan s taken).2.map .decompressMessage) last
      (listens.format.scan s taken).1
  waits : rest.length < last.request

theorem Follows.receive {r : Reader} {s : State UInt8} (follows : Follows h jobs r s)
    (stream : List UInt8) :
    (stream.length < r.request ∧ r.receive disconnected stream = .ok none) ∨
      (r.request ≤ stream.length ∧ r.receive disconnected stream =
        .ok (some (r.complete disconnected (stream.take r.request), stream.drop r.request))) := by
  have fits : ¬ r.handler.bufferSize < min r.request stream.length := by
    have small := (follows.request_positive jobs listens.buffer).2
    have same : r.handler.bufferSize = h.bufferSize := by cases follows <;> rfl
    omega
  have waits : r.pending ≠ .none := by cases follows <;> simp [stage]
  unfold Reader.receive
  split
  next none_ => exact absurd none_ waits
  next =>
    rw [if_neg fits]
    by_cases short : stream.length < r.request
    · exact .inl ⟨short, if_pos short⟩
    · exact .inr ⟨Nat.le_of_not_lt short, if_neg short⟩

/-- Induction on the reads. -/
theorem pump_scanned {r : Reader} {s : State UInt8} (follows : Follows h jobs r s)
    {stream : List UInt8} {fuel : Nat} (enough : stream.length ≤ fuel) :
    ∃ last rest, pump disconnected fuel r stream = .ok (last, rest) ∧
      Scanned listens jobs s stream last rest := by
  induction fuel generalizing r s jobs stream with
  | zero =>
      have none_ : stream = [] := List.length_eq_zero_iff.mp (Nat.le_zero.mp enough)
      subst stream
      refine ⟨r, [], rfl, ⟨[], rfl, ?_⟩, (follows.request_positive jobs listens.buffer).1⟩
      rw [Format.scan_nil, List.map_nil, List.append_nil]
      exact follows
  | succ fuel ih =>
      rcases follows.receive disconnected listens jobs stream with ⟨short, waits⟩ | ⟨served, read⟩
      · refine ⟨r, stream, by rw [pump, waits], ⟨[], rfl, ?_⟩, short⟩
        rw [Format.scan_nil, List.map_nil, List.append_nil]
        exact follows
      · have positive := (follows.request_positive jobs listens.buffer).1
        have size : (stream.take r.request).length = r.request := by
          rw [List.length_take]
          omega
        have next := complete_follows disconnected listens jobs follows size
        obtain ⟨last, rest, pumped, ⟨taken, split, ends⟩, waits⟩ := @ih _ _ _ next
          (stream.drop r.request) (by rw [List.length_drop]; omega)
        refine ⟨last, rest, by rw [pump, read]; exact pumped, ⟨stream.take r.request ++ taken, ?_, ?_⟩,
          waits⟩
        · rw [List.append_assoc, ← split, List.take_append_drop]
        · rw [Format.scan_append, List.map_append, ← List.append_assoc]
          exact ends

/-- Induction on the pieces; what one of them leaves unread comes before the next. -/
theorem arrivals_scanned {r : Reader} {s : State UInt8} (follows : Follows h jobs r s)
    {left : List UInt8} (waits : left.length < r.request) (pieces : List (List UInt8)) :
    ∃ last rest, arrivals disconnected r left pieces = .ok (last, rest) ∧
      Scanned listens jobs s (left ++ pieces.flatten) last rest := by
  induction pieces generalizing r s jobs left with
  | nil =>
      refine ⟨r, left, rfl, ⟨[], ?_, ?_⟩, waits⟩
      · rw [List.flatten_nil, List.append_nil, List.nil_append]
      · rw [Format.scan_nil, List.map_nil, List.append_nil]
        exact follows
  | cons piece pieces ih =>
      obtain ⟨next, kept, pumped, ⟨taken, split, reached⟩, short⟩ :=
        pump_scanned disconnected listens jobs follows (Nat.le_refl (left ++ piece).length)
      obtain ⟨last, rest, arrived, ⟨more, later, ends⟩, waiting⟩ := ih _ reached short
      refine ⟨last, rest, by rw [arrivals, pumped]; exact arrived, ⟨taken ++ more, ?_, ?_⟩, waiting⟩
      · rw [List.flatten_cons, ← List.append_assoc, split, List.append_assoc, later, List.append_assoc]
      · rw [Format.scan_append, List.map_append, ← List.append_assoc]
        exact ends

theorem Scanned.jobs_eq {s : State UInt8} {stream : List UInt8} {last : Reader}
    {rest : List UInt8} (scanned : Scanned listens jobs s stream last rest) :
    last.jobs = jobs ++ (listens.format.scan s stream).2.map .decompressMessage := by
  obtain ⟨⟨taken, rfl, follows⟩, waits⟩ := scanned
  have silent := waiting_silent listens _ follows waits
  rw [Format.scan_append, silent, List.append_nil]
  exact follows.jobs_eq

theorem arrivals_jobs (pieces : List (List UInt8)) :
    ∃ last rest, arrivals disconnected (listening h jobs) [] pieces = .ok (last, rest) ∧
      last.jobs = jobs ++
        (listens.format.scan (.hunting 0) pieces.flatten).2.map .decompressMessage := by
  obtain ⟨last, rest, arrived, scanned⟩ := arrivals_scanned disconnected listens jobs
    (follows_listening h jobs) (List.length_nil ▸ Nat.one_pos) pieces
  exact ⟨last, rest, arrived, scanned.jobs_eq⟩

end

/-- The codes alone decide what is read: two readers with buffers of any size, given the same
bytes cut into any pieces, push the payloads that a scan of the bytes one at a time finds. -/
theorem arrivals_exact (disconnected : Bool → DataHandler → Handling DataHandler Job)
    {h other : DataHandler} (listens : h.Listening) (listening_ : other.Listening)
    (sameStart : other.startCodeTag = h.startCodeTag) (sameEnd : other.endCodeTag = h.endCodeTag)
    (jobs : List Job) {pieces recut : List (List UInt8)} (sameBytes : recut.flatten = pieces.flatten) :
    ∃ one rest two left,
      arrivals disconnected (listening h jobs) [] pieces = .ok (one, rest) ∧
      arrivals disconnected (listening other jobs) [] recut = .ok (two, left) ∧
      one.jobs = two.jobs ∧ one.jobs = jobs ++
        (listens.format.scan (.hunting 0) pieces.flatten).2.map .decompressMessage := by
  have sameFormat : listening_.format = listens.format := by
    simp only [DataHandler.Listening.format, sameStart, sameEnd]
  obtain ⟨one, rest, first, pushed⟩ := arrivals_jobs disconnected listens jobs pieces
  obtain ⟨two, left, second, equally⟩ := arrivals_jobs disconnected listening_ jobs recut
  rw [sameFormat, sameBytes] at equally
  exact ⟨one, rest, two, left, first, second, pushed.trans equally.symm, pushed⟩

theorem connected_listening {size : Nat} (buffer : lengthSize ≤ size) :
    { DataHandler.connected with bufferSize := size }.Listening :=
  ⟨by simp [DataHandler.connected], rfl, rfl, rfl, rfl, buffer⟩

/-- A frame of nine bytes through a buffer of eight and a buffer of a hundred, cut in two ways. -/
theorem arrivals_exact_nine :
    let frame : List UInt8 :=
      [253, 253, 253, 253, 9, 0, 0, 0, 0, 0, 0, 0, 1, 2, 3, 4, 5, 6, 7, 8, 9, 252, 252, 252, 252]
    ∃ one rest two left,
      arrivals (fun _ h => ⟨h, [], done⟩)
        (listening { DataHandler.connected with bufferSize := 8 } []) []
        [frame.take 6, frame.drop 6] = .ok (one, rest) ∧
      arrivals (fun _ h => ⟨h, [], done⟩)
        (listening { DataHandler.connected with bufferSize := 100 } []) [] [frame] =
          .ok (two, left) ∧
      one.jobs = two.jobs ∧ one.jobs = [.decompressMessage [1, 2, 3, 4, 5, 6, 7, 8, 9]] := by
  intro frame
  have small := @connected_listening 8 (by decide)
  have large := @connected_listening 100 (by decide)
  have sameBytes : [frame].flatten = [frame.take 6, frame.drop 6].flatten := by decide
  have found : (small.format.scan (.hunting 0) [frame.take 6, frame.drop 6].flatten).2 =
      [[1, 2, 3, 4, 5, 6, 7, 8, 9]] := rfl
  obtain ⟨one, rest, two, left, first, second, same, pushed⟩ := arrivals_exact
    (fun _ h => ⟨h, [], done⟩) small large rfl rfl [] sameBytes
  rw [found] at pushed
  exact ⟨one, rest, two, left, first, second, same, pushed⟩

section
variable (disconnected : Bool → DataHandler → Handling DataHandler Job)

theorem fail_idle (r : Reader) : (r.fail disconnected).pending = .none := by
  unfold fail expire
  split
  next => rfl
  next => rfl

/-- A reader without a read leaves the bytes where they are. -/
theorem arrivals_idle {r : Reader} (idle : r.pending = .none) (left : List UInt8)
    (pieces : List (List UInt8)) :
    arrivals disconnected r left pieces = .ok (r, left ++ pieces.flatten) := by
  have waits : ∀ fuel stream, pump disconnected fuel r stream = .ok (r, stream) := by
    intro fuel stream
    cases fuel with
    | zero => rfl
    | succ fuel =>
        have none_ : r.receive disconnected stream = .ok none := by
          unfold receive
          rw [idle]
        rw [pump, none_]
  induction pieces generalizing left with
  | nil => rw [arrivals, List.flatten_nil, List.append_nil]
  | cons piece pieces ih =>
      rw [arrivals, waits]
      dsimp only
      rw [ih, List.flatten_cons, List.append_assoc]

end

/-- Every payload handed on is that of a whole frame of the stream; the frames stand one behind
the other in the order of the jobs. Nothing is read any more once a read has failed. -/
theorem arrivals_sound (disconnected : Bool → DataHandler → Handling DataHandler Job)
    {h : DataHandler} (listens : h.Listening) (jobs : List Job) (pieces : List (List UInt8)) :
    ∃ last rest payloads, arrivals disconnected (listening h jobs) [] pieces = .ok (last, rest) ∧
      last.jobs = jobs ++ payloads.map .decompressMessage ∧
      listens.format.Carved payloads pieces.flatten ∧
      ∀ later, arrivals disconnected (last.fail disconnected) rest later =
        .ok (last.fail disconnected, rest ++ later.flatten) := by
  obtain ⟨last, rest, arrived, pushed⟩ := arrivals_jobs disconnected listens jobs pieces
  exact ⟨last, rest, _, arrived, pushed, Format.scan_sound _,
    arrivals_idle disconnected (fail_idle disconnected last) rest⟩

/-- A frame between two other bytes, with the codes 1, 2, 3, 4 and 5, 6, 7, 8; the next start code
breaks off. -/
theorem arrivals_sound_between :
    let h := (({ DataHandler.connected with bufferSize := 8 }).startCode 1 2 3 4).endCode 5 6 7 8
    let pieces : List (List UInt8) :=
      [[9, 1, 2, 3, 4, 1, 0, 0, 0], [0, 0, 0, 0, 42, 5, 6], [7, 8, 9, 1, 2]]
    ∃ (listens : h.Listening) (last : Reader) (rest : List UInt8),
      arrivals (fun _ h => ⟨h, [], done⟩) (listening h []) [] pieces = .ok (last, rest) ∧
      last.jobs = [.decompressMessage [42]] ∧ listens.format.Carved [[42]] pieces.flatten ∧
      arrivals (fun _ h => ⟨h, [], done⟩) (last.fail fun _ h => ⟨h, [], done⟩) rest [[3, 4]] =
        .ok (last.fail fun _ h => ⟨h, [], done⟩, rest ++ [3, 4]) := by
  intro h pieces
  have listens : h.Listening := (@connected_listening 8 (by decide)).codes 1 2 3 4 5 6 7 8
  obtain ⟨last, rest, payloads, arrived, pushed, carved, silent⟩ :=
    arrivals_sound (fun _ h => ⟨h, [], done⟩) listens [] pieces
  obtain ⟨last', rest', arrived', pushed'⟩ :=
    arrivals_jobs (fun _ h => ⟨h, [], done⟩) listens [] pieces
  obtain ⟨rfl, rfl⟩ := Prod.mk.inj (Except.ok.inj (arrived.symm.trans arrived'))
  have found : (listens.format.scan (.hunting 0) pieces.flatten).2 = [[42]] := rfl
  rw [found] at pushed'
  have same : payloads = [[42]] :=
    List.map_injective_iff.mpr (fun _ _ same => Job.decompressMessage.inj same)
      (List.append_cancel_left (pushed.symm.trans pushed'))
  rw [same] at carved
  exact ⟨listens, last, rest, arrived, pushed', carved, silent [[3, 4]]⟩

end Reader
end CppToolkit.Network
