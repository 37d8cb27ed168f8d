import CppToolkit.Network.Framing

/-! A stream in which end codes are damaged and other bytes stand between the frames.
The reader drops the damaged frame at the wrong byte and hunts for the next start code. -/
namespace CppToolkit.Network
open Words Memory

/-- One byte of a tag, replaced by a different one. -/
structure Damage (tag : List UInt8) where
  position : Nat
  inside : position < tag.length
  replacement : UInt8
  differs : tag[position]? ≠ some replacement

def Damage.bytes {tag : List UInt8} (d : Damage tag) : List UInt8 :=
  tag.set d.position d.replacement

/-- A frame as it arrives, behind bytes that cannot start one. -/
structure Arrival (startTag endTag : List UInt8) where
  gap : List UInt8
  quiet : ∀ b ∈ gap, startTag[0]? ≠ some b
  payload : ByteVector
  damage : Option (Damage endTag)

namespace Arrival
variable {startTag endTag : List UInt8}

def trailer (a : Arrival startTag endTag) : List UInt8 :=
  match a.damage with
  | none => endTag
  | some d => d.bytes

def bytes (a : Arrival startTag endTag) : List UInt8 :=
  a.gap ++ (startTag ++ (leWord lengthSize a.payload.val.length ++ (a.payload.val ++ a.trailer)))

/-- An undamaged frame hands its payload over, a damaged one nothing. -/
def pushed (a : Arrival startTag endTag) : List Job :=
  match a.damage with
  | none => [.decompressMessage a.payload.val]
  | some _ => []

end Arrival

namespace Reader

section
variable (disconnected : Bool → DataHandler → Handling DataHandler Job)
variable {h : DataHandler} (listens : h.Listening)
include listens

theorem complete_hunting (jobs : List Job) {b : UInt8} (other : h.startCodeTag[0]? ≠ some b) :
    (listening h jobs).complete disconnected [b] = listening h jobs := by
  have live : (listening h jobs).handler.condition ≠ .expired := listens.live
  have mismatch : [b].length ≠ 1 ∨ [b][0]? ≠ h.startCodeTag[0]? := .inr fun same => other same.symm
  rw [complete, if_neg live]
  refine (if_pos mismatch).trans ?_
  exact readStartCode_zero disconnected listens.opened [] (.startCode 0) jobs

/-- The wrong byte is consumed and the collected payload is dropped. -/
theorem complete_wrongEnd (received : List UInt8) (jobs : List Job) {m : Nat} {b : UInt8}
    (other : h.endCodeTag[m]? ≠ some b) :
    (stage h received (.endCode m) jobs).complete disconnected [b] = listening h jobs := by
  have live : (stage h received (.endCode m) jobs).handler.condition ≠ .expired := listens.live
  have mismatch : [b].length ≠ 1 ∨ [b][0]? ≠ h.endCodeTag[m]? := .inr fun same => other same.symm
  rw [complete, if_neg live]
  refine (if_pos mismatch).trans ?_
  exact readStartCode_zero disconnected listens.opened received (.endCode m) jobs

/-- Bytes other than the first of the start code are skipped one by one. -/
theorem reads_gap (jobs : List Job) (rest gap : List UInt8)
    (quiet : ∀ b ∈ gap, h.startCodeTag[0]? ≠ some b) :
    Reads disconnected (listening h jobs) (gap ++ rest) (listening h jobs) rest := by
  induction gap with
  | nil => exact .refl _ _
  | cons b gap ih =>
      rw [List.forall_mem_cons] at quiet
      have one := receive_served disconnected h [] (.startCode 0) jobs [b] (gap ++ rest)
        (by simp) rfl (room_for_one listens b)
      have skipped : (stage h [] (.startCode 0) jobs).complete disconnected [b] =
          listening h jobs := complete_hunting disconnected listens jobs quiet.1
      rw [skipped] at one
      exact (Reads.single one (by simp)).trans (ih quiet.2)

/-- A damaged end code: the part before the damage matches, the wrong byte ends the
frame, and what is left of the code cannot start a new one. -/
theorem reads_damaged (received : List UInt8) (jobs : List Job) (rest : List UInt8)
    (d : Damage h.endCodeTag) (apart : ∀ b ∈ h.endCodeTag, h.startCodeTag[0]? ≠ some b) :
    Reads disconnected (stage h received (.endCode 0) jobs) (d.bytes ++ rest)
      (listening h jobs) rest := by
  have split : d.bytes = h.endCodeTag.take d.position ++
      d.replacement :: h.endCodeTag.drop (d.position + 1) :=
    List.set_eq_take_append_cons_drop.trans (if_pos d.inside)
  have behind : (h.endCodeTag.take d.position).length = d.position := by
    rw [List.length_take]
    exact Nat.min_eq_left (Nat.le_of_lt d.inside)
  obtain ⟨pending, before⟩ := reads_endCode_part disconnected listens received jobs
    (d.replacement :: (h.endCodeTag.drop (d.position + 1) ++ rest))
    (h.endCodeTag.drop d.position) (h.endCodeTag.take d.position) []
    (by rw [List.nil_append, List.take_append_drop]) (.endCode 0)
  rw [List.length_nil, readEndCode_zero disconnected listens, List.nil_append, behind] at before
  have issued : (stage h received pending jobs).readEndCode disconnected d.position =
      stage h received (.endCode d.position) jobs := by
    rw [readEndCode, guarded_stage disconnected listens.opened]
    exact if_neg (Nat.ne_of_lt d.inside)
  rw [issued] at before
  have wrong := receive_served disconnected h received (.endCode d.position) jobs
    [d.replacement] (h.endCodeTag.drop (d.position + 1) ++ rest) (by simp) rfl
    (room_for_one listens d.replacement)
  rw [complete_wrongEnd disconnected listens received jobs d.differs] at wrong
  have skipped := reads_gap disconnected listens jobs rest (h.endCodeTag.drop (d.position + 1))
    fun b member => apart b (List.mem_of_mem_drop member)
  rw [split, List.append_assoc, List.cons_append]
  exact before.trans ((Reads.single wrong (by simp)).trans skipped)

theorem reads_arrival (jobs : List Job) (rest : List UInt8)
    (apart : ∀ b ∈ h.endCodeTag, h.startCodeTag[0]? ≠ some b)
    (a : Arrival h.startCodeTag h.endCodeTag) :
    Reads disconnected (listening h jobs) (a.bytes ++ rest)
      (listening h (jobs ++ a.pushed)) rest := by
  have gap := reads_gap disconnected listens jobs
    (h.startCodeTag ++ (leWord lengthSize a.payload.val.length ++
      (a.payload.val ++ (a.trailer ++ rest)))) a.gap a.quiet
  have body := reads_body disconnected listens jobs a.payload.property (a.trailer ++ rest)
  have finish : Reads disconnected (stage h a.payload.val (.endCode 0) jobs) (a.trailer ++ rest)
      (listening h (jobs ++ a.pushed)) rest := by
    cases damaged : a.damage with
    | none =>
        have whole := reads_endCode disconnected listens a.payload.val jobs rest h.endCodeTag []
          rfl (.endCode 0)
        rw [List.length_nil, readEndCode_zero disconnected listens] at whole
        simpa only [Arrival.trailer, Arrival.pushed, damaged] using whole
    | some d =>
        have dropped := reads_damaged disconnected listens a.payload.val jobs rest d apart
        simpa only [Arrival.trailer, Arrival.pushed, damaged, List.append_nil] using dropped
  simp only [Arrival.bytes, List.append_assoc]
  exact gap.trans (body.trans finish)

/-- Induction on the frames that arrive. -/
theorem reads_arrivals (jobs : List Job) (rest : List UInt8)
    (apart : ∀ b ∈ h.endCodeTag, h.startCodeTag[0]? ≠ some b)
    (arrivals : List (Arrival h.startCodeTag h.endCodeTag)) :
    Reads disconnected (listening h jobs) (arrivals.flatMap Arrival.bytes ++ rest)
      (listening h (jobs ++ arrivals.flatMap Arrival.pushed)) rest := by
  induction arrivals generalizing jobs with
  | nil =>
      rw [List.flatMap_nil, List.flatMap_nil, List.append_nil]
      exact .refl _ _
  | cons a arrivals ih =>
      have first := reads_arrival disconnected listens jobs
        (arrivals.flatMap Arrival.bytes ++ rest) apart a
      have others := ih (jobs ++ a.pushed)
      rw [List.append_assoc] at others
      rw [List.flatMap_cons, List.flatMap_cons, List.append_assoc]
      exact first.trans others

end
end Reader

/-- With the default codes the reader pushes the payloads of the undamaged frames, each
once and in order, and hunts for the next frame with an empty payload. -/
theorem recovers_from_damage (disconnected : Bool → DataHandler → Handling DataHandler Job)
    {receiver : DataHandler} (listens : receiver.Listening)
    (startTag : receiver.startCodeTag = [253, 253, 253, 253])
    (endTag : receiver.endCodeTag = [252, 252, 252, 252])
    (arrivals : List (Arrival [253, 253, 253, 253] [252, 252, 252, 252]))
    (trailing : List UInt8) (quiet : ∀ b ∈ trailing, b ≠ 253) (jobs : List Job) (fuel : Nat)
    (enough : (arrivals.flatMap Arrival.bytes ++ trailing).length ≤ fuel) :
    Reader.pump disconnected fuel ((Reader.mk receiver .none jobs).readStartCode disconnected 0)
        (arrivals.flatMap Arrival.bytes ++ trailing) =
      .ok (Reader.listening receiver (jobs ++ arrivals.flatMap Arrival.pushed), []) := by
  have start : (Reader.mk receiver .none jobs).readStartCode disconnected 0 =
      Reader.listening receiver jobs :=
    Reader.readStartCode_zero disconnected listens.opened receiver.receivedData .none jobs
  have apart : ∀ b ∈ receiver.endCodeTag, receiver.startCodeTag[0]? ≠ some b := by
    rw [startTag, endTag]
    simp
  have silent : ∀ b ∈ trailing, receiver.startCodeTag[0]? ≠ some b := by
    intro b member same
    rw [startTag] at same
    exact quiet b member (Option.some.inj same).symm
  have reads : Reader.Reads disconnected (Reader.listening receiver jobs)
      (arrivals.flatMap Arrival.bytes ++ trailing)
      (Reader.listening receiver (jobs ++ arrivals.flatMap Arrival.pushed)) trailing := by
    revert arrivals
    rw [← startTag, ← endTag]
    intro arrivals _
    exact Reader.reads_arrivals disconnected listens jobs trailing apart arrivals
  have tail := Reader.reads_gap disconnected listens
    (jobs ++ arrivals.flatMap Arrival.pushed) [] trailing silent
  rw [List.append_nil] at tail
  obtain ⟨left, _, same⟩ := (reads.trans tail).pump enough
  rw [start, same, Reader.pump_listening]

/-- A frame with a start-code byte in its end code; its payload contains both codes. -/
def damagedFrame : Arrival [253, 253, 253, 253] [252, 252, 252, 252] :=
  ⟨[], nofun, ⟨[252, 252, 252, 252, 253, 253, 253, 253, 9], by decide⟩,
    some ⟨1, by decide, 253, by decide⟩⟩

/-- A frame behind two other bytes. -/
def wholeFrame : Arrival [253, 253, 253, 253] [252, 252, 252, 252] :=
  ⟨[252, 7], by simp, ⟨[1, 2, 3], by decide⟩, none⟩

theorem recovers_from_damage_two :
    let receiver := { DataHandler.connected with bufferSize := 8 }
    let stream := [damagedFrame, wholeFrame].flatMap Arrival.bytes ++ [1]
    Reader.pump (fun _ h => ⟨h, [], done⟩) stream.length
        ((Reader.mk receiver .none []).readStartCode (fun _ h => ⟨h, [], done⟩) 0) stream =
      .ok (Reader.listening receiver [.decompressMessage [1, 2, 3]], []) := by
  intro receiver stream
  have listens : receiver.Listening := ⟨by decide, rfl, rfl, rfl, rfl, Nat.le_refl 8⟩
  exact recovers_from_damage _ listens rfl rfl [damagedFrame, wholeFrame] [1] (by simp) [] _
    (Nat.le_refl _)

end CppToolkit.Network
