import CppToolkit.Network.Deliveries
import CppToolkit.Network.ReaderScan

/-! The link with the bytes on its socket, which come in any pieces: the frames that the jobs
write and those that the reader finds are the wire of the link. -/
namespace CppToolkit.Network
open Words Memory Utilities Bag Machine Scanner

/-- The jobs of both peers and the calls of `received_data`, the bytes that were written and have
not come, and those that have come and are not read. A job that writes leaves nothing on the
wire of `peers`. -/
structure ByteLink where
  peers : Link
  stream : List UInt8
  unread : List UInt8
  reader : Reader

namespace ByteLink

/-- `net` is what the socket answers to the job. -/
inductive Action where
  | sender (position : Nat) (net : Transfers)
  | arrive (count : Nat)
  | receiver (position : Nat)

def initial (receiver : DataHandler) : ByteLink :=
  ⟨⟨[], [], [], []⟩, [], [], .listening receiver []⟩

/-- What the jobs of the packets write. -/
def written (sender : DataHandler) (net : Transfers) (packets : List (List UInt8)) : List UInt8 :=
  packets.flatMap fun packet => ((sender.sendingJob packet).working net).bytes

section
variable (disconnected : Bool → DataHandler → Handling DataHandler Job)

/-- The next bytes come, and the reader goes on as far as it can. -/
def arrive (t : ByteLink) (count : Nat) : Option ByteLink :=
  let bytes := t.unread ++ t.stream.take count
  match Reader.pump disconnected bytes.length t.reader bytes with
  | .error _ => none
  | .ok (reader, unread) => some
      { peers := { t.peers with receiving := t.peers.receiving ++ reader.jobs }
        stream := t.stream.drop count
        unread
        reader := { reader with jobs := [] } }

def step (c : Codecs) (sender receiver : DataHandler) (t : ByteLink) : Action → Option ByteLink
  | .sender position net =>
      (takeAt t.peers.sending position).bind fun (job, rest) =>
        (Link.workStep c sender t.peers true job rest).map fun peers =>
          { t with
            peers := { peers with wire := [] }
            stream := t.stream ++ written sender net peers.wire }
  | .arrive count => t.arrive disconnected count
  | .receiver position =>
      (takeAt t.peers.receiving position).bind fun (job, rest) =>
        (Link.workStep c receiver t.peers false job rest).map fun peers => { t with peers }

end

/-- Both peers are set up alike, and the receiver reads. -/
structure Wired (sender receiver : DataHandler) : Prop where
  buffer : 1 ≤ sender.bufferSize
  listens : receiver.Listening
  startCode : sender.startCodeTag = receiver.startCodeTag
  endCode : sender.endCodeTag = receiver.endCodeTag

/-- No send of the action fails. -/
def Action.Steady (sender : DataHandler) : Action → Prop
  | .sender _ net => ∀ packet, net.Steady (sender.sendingJob packet)
  | _ => True

/-- The reader is to find the frames on the wire, and nothing else. -/
structure Shows {receiver : DataHandler} (listens : receiver.Listening) (t : ByteLink) (l : Link) :
    Prop where
  peers : t.peers = { l with wire := [] }
  reading : ∃ s, Reader.Follows receiver [] t.reader s ∧ t.unread.length < t.reader.request ∧
    listens.format.scan s (t.unread ++ t.stream) = (.hunting 0, l.wire)

theorem initial_shows {receiver : DataHandler} (listens : receiver.Listening) :
    Shows listens (initial receiver) ⟨[], [], [], []⟩ :=
  ⟨rfl, .hunting 0, Reader.follows_listening receiver [], Nat.one_pos, rfl⟩

/-- With every byte read there is no frame on the wire. -/
theorem Shows.all_read {receiver : DataHandler} {listens : receiver.Listening} {t : ByteLink}
    {l : Link} (shows_ : Shows listens t l) (come : t.stream = []) : l.wire = [] := by
  obtain ⟨s, follows, waits, scanned⟩ := shows_.reading
  rw [come, List.append_nil] at scanned
  rw [← Reader.waiting_silent listens [] follows waits, scanned]

theorem Follows.forget {h : DataHandler} {jobs : List Job} {r : Reader} {s : State UInt8}
    (follows : Reader.Follows h jobs r s) : Reader.Follows h [] { r with jobs := [] } s := by
  cases follows with
  | startCode partly => exact .startCode partly
  | lengthCode => exact .lengthCode
  | data more => exact .data more
  | endCode partly => exact .endCode partly

/-- A job does the same with frames on the wire before its own. -/
theorem settle_wire (l : Link) (onSender : Bool) (rest : List Job) (worked : Worked) :
    let alone := ({ l with wire := [] } : Link).settle onSender rest worked
    (l.settle onSender rest worked).wire = l.wire ++ alone.wire ∧
      { l.settle onSender rest worked with wire := [] } = { alone with wire := [] } := by
  cases worked with
  | written packet => exact ⟨rfl, rfl⟩
  | _ => cases onSender <;> exact ⟨(List.append_nil _).symm, rfl⟩

theorem workStep_settles {c : Codecs} {h : DataHandler} {l link : Link} {onSender : Bool} {job : Job}
    {rest : List Job} (works : Link.workStep c h l onSender job rest = some link) :
    ∃ worked, h.work c job = some (.ok worked) ∧ link = l.settle onSender rest worked := by
  unfold Link.workStep at works
  split at works
  next worked does =>
    cases works
    exact ⟨worked, does, rfl⟩
  next => cases works

theorem sendPacket_written {h : DataHandler} {data packet : List UInt8}
    (sent : h.sendPacket data = .written packet) : packet ≠ [] ∧ h.socket ≠ none := by
  unfold DataHandler.sendPacket at sent
  split at sent
  next => cases sent
  next some_ =>
    split at sent
    next => cases sent
    next connected =>
      cases sent
      exact ⟨some_, connected⟩

section
variable {c : Codecs} {sender receiver : DataHandler} (wired : Wired sender receiver)
  {disconnected : Bool → DataHandler → Handling DataHandler Job}
include wired

/-- The bytes of a packet whose sends do not fail are one frame of the reader. -/
theorem written_frame {net : Transfers} {packet : List UInt8}
    (steady : net.Steady (sender.sendingJob packet)) (some_ : packet ≠ [])
    (connected : sender.socket ≠ none) :
    ((sender.sendingJob packet).working net).bytes =
      wired.listens.format.frame (leWord lengthSize packet.length) packet := by
  rw [SendingJob.working_steady steady wired.buffer some_ (Option.isSome_iff_ne_none.mpr connected)]
  simp only [SendingJob.frame, DataHandler.sendingJob, Format.frame,
    DataHandler.Listening.format, wired.startCode, wired.endCode, List.append_assoc]

theorem scan_written {net : Transfers}
    (steady : ∀ packet, net.Steady (sender.sendingJob packet)) (packets : List (List UInt8))
    (sendable : ∀ packet ∈ packets, packet ≠ [] ∧ packet.length < 2 ^ 31 ∧ sender.socket ≠ none) :
    wired.listens.format.scan (.hunting 0) (written sender net packets) =
      (.hunting 0, packets) := by
  induction packets with
  | nil => rfl
  | cons packet rest ih =>
      rw [List.forall_mem_cons] at sendable
      obtain ⟨some_, short, connected⟩ := sendable.1
      have sized : (leWord lengthSize packet.length).length = wired.listens.format.width :=
        leWord_length _ _
      have value : wired.listens.format.value (leWord lengthSize packet.length) = packet.length :=
        leValue_leWord (Nat.lt_trans short (by decide))
      have first : written sender net (packet :: rest) =
          ((sender.sendingJob packet).working net).bytes ++ written sender net rest := rfl
      rw [first, written_frame wired (steady packet) some_ connected, Format.scan_append,
        Format.scan_frame sized value, ih sendable.2]
      rfl

end

/-- The frames on the wire are of packets that can be sent. -/
theorem sendable {κ : Type} {cargo : κ → Shipment} {c : Codecs} {sender receiver : DataHandler}
    {l : Link} {packets : List κ} (accounted : l.Accounted cargo c sender receiver packets) :
    ∀ packet ∈ l.wire, packet ≠ [] ∧ packet.length < 2 ^ 31 ∧ sender.socket ≠ none := by
  obtain ⟨_, _, _, _, _, framed, others⟩ := accounted
  clear others
  generalize l.wire = frames at framed
  induction framed with
  | nil => exact fun _ member => by cases member
  | cons of _ ih =>
      refine List.forall_mem_cons.mpr ⟨?_, ih⟩
      obtain ⟨coded, carried⟩ := of
      obtain ⟨some_, connected⟩ := sendPacket_written (Except.ok.inj (Option.some.inj carried.sends))
      exact ⟨some_, carried.short, connected⟩

theorem run_deliver {c : Codecs} {sender receiver : DataHandler}
    (pool : receiver.threadPool = some false) (wire : List (List UInt8)) :
    ∀ (found : List (List UInt8)) (l : Link), l.wire = found ++ wire →
      run (Link.step c sender receiver) l (List.replicate found.length .deliver) =
        some { l with wire, receiving := l.receiving ++ found.map .decompressMessage } := by
  intro found
  induction found with
  | nil =>
      rintro l rfl
      rw [List.map_nil, List.append_nil]
      rfl
  | cons packet rest ih =>
      intro l here
      refine run_cons.mpr ⟨{ l with
        wire := rest ++ wire, receiving := l.receiving ++ [.decompressMessage packet] }, ?_, ?_⟩
      · rw [List.cons_append] at here
        simp only [Link.step, here, DataHandler.push_running pool]
      · refine (ih _ rfl).trans ?_
        rw [List.map_cons, List.append_assoc]
        rfl

section
variable {κ : Type} {cargo : κ → Shipment} {c : Codecs} {sender receiver : DataHandler}
  (wired : Wired sender receiver) {disconnected : Bool → DataHandler → Handling DataHandler Job}
  {t u : ByteLink} {l : Link} {packets : List κ}
  (accounted : l.Accounted cargo c sender receiver packets) (shows_ : Shows wired.listens t l)
include wired accounted shows_

theorem Shows.sends {position : Nat} {net : Transfers}
    (steady : ∀ packet, net.Steady (sender.sendingJob packet))
    (stepped : t.step disconnected c sender receiver (.sender position net) = some u) :
    ∃ link, l.step c sender receiver (.sender position) = some link ∧
      Shows wired.listens u link := by
  obtain ⟨⟨job, rest⟩, taken, stepped⟩ := Option.bind_eq_some_iff.mp stepped
  obtain ⟨peers, works, rfl⟩ := Option.map_eq_some_iff.mp stepped
  obtain ⟨s, follows, waits, scanned⟩ := shows_.reading
  rw [shows_.peers] at taken works
  obtain ⟨worked, does, rfl⟩ := workStep_settles works
  obtain ⟨link, works', kept, _⟩ := accounted.sends taken
  obtain ⟨worked', does', rfl⟩ := workStep_settles works'
  cases does.symm.trans does'
  obtain ⟨wire, same⟩ := settle_wire l true rest worked
  refine ⟨_, Option.bind_eq_some_iff.mpr ⟨_, taken, works'⟩, same.symm, s, follows, waits, ?_⟩
  have new := fun packet member => sendable kept packet (wire ▸ List.mem_append_right _ member)
  rw [← List.append_assoc, Format.scan_append, scanned, scan_written wired steady _ new, wire]

omit accounted in
theorem Shows.arrives {count : Nat}
    (stepped : t.step disconnected c sender receiver (.arrive count) = some u) :
    ∃ found link, run (Link.step c sender receiver) l (List.replicate found .deliver) = some link ∧
      Shows wired.listens u link := by
  obtain ⟨s, follows, waits, scanned⟩ := shows_.reading
  obtain ⟨last, rest, pumped, ⟨taken, split, ends⟩, waits⟩ :=
    Reader.pump_scanned disconnected wired.listens [] follows
      (Nat.le_refl (t.unread ++ t.stream.take count).length)
  unfold step ByteLink.arrive at stepped
  dsimp only at stepped
  rw [pumped] at stepped
  cases stepped
  have whole : t.unread ++ t.stream = taken ++ (rest ++ t.stream.drop count) := by
    rw [← List.append_assoc, ← split, List.append_assoc, List.take_append_drop]
  rw [whole, Format.scan_append] at scanned
  obtain ⟨ended, wire⟩ := Prod.mk.inj scanned
  have ran : run (Link.step c sender receiver) l _ = some _ :=
    run_deliver wired.listens.unlocked _ _ l wire.symm
  refine ⟨_, _, ran, ?_, _, Follows.forget ends, waits, Prod.ext ended rfl⟩
  rw [ends.jobs_eq, shows_.peers]
  rfl

theorem Shows.receives {position : Nat}
    (stepped : t.step disconnected c sender receiver (.receiver position) = some u) :
    ∃ link, l.step c sender receiver (.receiver position) = some link ∧
      Shows wired.listens u link := by
  obtain ⟨⟨job, rest⟩, taken, stepped⟩ := Option.bind_eq_some_iff.mp stepped
  obtain ⟨peers, works, rfl⟩ := Option.map_eq_some_iff.mp stepped
  rw [shows_.peers] at taken works
  obtain ⟨_, _, _, _, _, _, three, _⟩ := accounted
  obtain ⟨k, left, of, _⟩ := takeAt_forall₂ three taken
  have reading := shows_.reading
  rcases of.works with ⟨next, does, _⟩ | ⟨does, _⟩
  · rw [Link.workStep_of_work does] at works
    cases works
    exact ⟨_, Option.bind_eq_some_iff.mpr ⟨_, taken, Link.workStep_of_work does⟩, rfl, reading⟩
  · rw [Link.workStep_of_work does] at works
    cases works
    exact ⟨_, Option.bind_eq_some_iff.mpr ⟨_, taken, Link.workStep_of_work does⟩, rfl, reading⟩

/-- A step on the bytes is some steps of the link. -/
theorem Shows.step {a : Action} (steady : a.Steady sender)
    (stepped : t.step disconnected c sender receiver a = some u) :
    ∃ actions link, run (Link.step c sender receiver) l actions = some link ∧
      link.Accounted cargo c sender receiver packets ∧ Shows wired.listens u link := by
  have keeps : ∀ {actions link}, run (Link.step c sender receiver) l actions = some link →
      link.Accounted cargo c sender receiver packets := fun ran =>
    run_keeps (fun _ _ _ held moved => (Link.Accounted.step held wired.listens.unlocked moved).1)
      accounted ran
  cases a with
  | sender position net =>
      obtain ⟨link, moved, still⟩ := shows_.sends wired accounted steady stepped
      exact ⟨_, link, run_single moved, keeps (run_single moved), still⟩
  | arrive count =>
      obtain ⟨found, link, ran, still⟩ := shows_.arrives wired stepped
      exact ⟨_, link, ran, keeps ran, still⟩
  | receiver position =>
      obtain ⟨link, moved, still⟩ := shows_.receives wired accounted stepped
      exact ⟨_, link, run_single moved, keeps (run_single moved), still⟩

end

end ByteLink

/-- The bytes on their way, and the calls that returned success so far. -/
structure ByteTraffic where
  line : ByteLink
  accepted : List Call

namespace ByteTraffic

inductive Action where
  | call (call : Call)
  | line (action : ByteLink.Action)

def initial (receiver : DataHandler) : ByteTraffic := ⟨.initial receiver, []⟩

def push (t : ByteTraffic) (call : Call) (job : Job) : ByteTraffic where
  line := { t.line with
    peers := { t.line.peers with sending := t.line.peers.sending ++ [job] } }
  accepted := t.accepted ++ [call]

def step (disconnected : Bool → DataHandler → Handling DataHandler Job) (c : Codecs)
    (sender receiver : DataHandler) (t : ByteTraffic) : Action → Option ByteTraffic
  | .call call =>
      match call.send sender with
      | .ok job => some (t.push call job)
      | .error _ => some t
  | .line action =>
      (t.line.step disconnected c sender receiver action).map fun line => { t with line }

/-- The packet of a call is one that the codecs can carry, and no send to the socket fails. -/
def Action.Allowed (c : Codecs) (sender : DataHandler) : Action → Prop
  | .call made => made.cargo.Fits c sender
  | .line action => action.Steady sender

/-- The traffic of whole frames that the bytes are. -/
structure Refines {receiver : DataHandler} (listens : receiver.Listening) (c : Codecs)
    (sender : DataHandler) (t : ByteTraffic) (v : Traffic) : Prop where
  line : t.line.Shows listens v.link
  accepted : t.accepted = v.accepted
  delivering : ∃ taken, Traffic.Delivering c sender receiver taken v

theorem run_link {c : Codecs} {sender receiver : DataHandler} {accepted : List Call}
    {actions : List Link.Action} {l link : Link}
    (ran : run (Link.step c sender receiver) l actions = some link) :
    run (Traffic.step c sender receiver) ⟨l, accepted⟩ (actions.map .link) =
      some ⟨link, accepted⟩ := by
  induction actions generalizing l with
  | nil =>
      cases ran
      rfl
  | cons a rest ih =>
      obtain ⟨next, moved, ran⟩ := run_cons.mp ran
      exact run_cons.mpr ⟨_, congrArg (Option.map _) moved, ih ran⟩

section
variable {c : Codecs} {sender receiver : DataHandler} (matched : Matched c sender receiver)
  {paired : c.lz4.Stream → c.lz4.StreamDecode → Prop} (faithful : c.lz4.Faithful paired)
  (wired : ByteLink.Wired sender receiver)
  {disconnected : Bool → DataHandler → Handling DataHandler Job}
include matched faithful wired

theorem Refines.step (t : ByteTraffic) (v : Traffic) (a : Action) (u : ByteTraffic)
    (refines : Refines wired.listens c sender t v) (allowed : a.Allowed c sender)
    (stepped : t.step disconnected c sender receiver a = some u) :
    ∃ actions w, run (Traffic.step c sender receiver) v actions = some w ∧
      Refines wired.listens c sender u w := by
  obtain ⟨line, accepted, taken, delivering⟩ := refines
  cases a with
  | call call =>
      unfold ByteTraffic.step at stepped
      dsimp only at stepped
      split at stepped
      next job sent =>
        cases stepped
        let w : Traffic :=
          ⟨{ v.link with sending := v.link.sending ++ [job] }, v.accepted ++ [call]⟩
        have moved : v.step c sender receiver (.call call) = some w := by
          simp only [Traffic.step, sent, w]
        refine ⟨_, w, run_single moved, ⟨?_, line.reading⟩, congrArg (· ++ [call]) accepted,
          _, delivering.step matched faithful (a := .call call) allowed moved⟩
        rw [push, line.peers]
      next what sent =>
        cases stepped
        exact ⟨[], v, rfl, line, accepted, taken, delivering⟩
  | line action =>
      obtain ⟨next, moved, rfl⟩ := Option.map_eq_some_iff.mp stepped
      obtain ⟨actions, link, ran, _, still⟩ := line.step wired delivering.accounted allowed moved
      have ran := @run_link c sender receiver v.accepted _ _ _ ran
      have fits : ∀ a ∈ actions.map Traffic.Action.link, a.Fits c sender := by
        intro a member
        obtain ⟨_, _, rfl⟩ := List.mem_map.mp member
        trivial
      exact ⟨_, _, ran, still, accepted, _, delivering.run matched faithful fits ran⟩

theorem Refines.run {actions : List Action} {t : ByteTraffic}
    (allowed : ∀ a ∈ actions, a.Allowed c sender)
    (ran : Machine.run (ByteTraffic.step disconnected c sender receiver) (initial receiver) actions =
      some t) :
    ∃ frames v, Machine.run (Traffic.step c sender receiver) .initial frames = some v ∧
      Refines wired.listens c sender t v :=
  run_simulated (Refines.step matched faithful wired)
    ⟨ByteLink.initial_shows wired.listens, rfl, 0, Traffic.initial_delivering⟩ allowed ran

/-- Whatever the socket does to the bytes, a run on them is one on whole frames: the same calls
are accepted, the same jobs wait and the same packets are received, and with no byte on its way
there is no frame on the wire. -/
theorem bytes_refine_frames {actions : List Action} {t : ByteTraffic}
    (allowed : ∀ a ∈ actions, a.Allowed c sender)
    (ran : Machine.run (ByteTraffic.step disconnected c sender receiver) (initial receiver) actions =
      some t) :
    ∃ frames v, Machine.run (Traffic.step c sender receiver) .initial frames = some v ∧
      t.accepted = v.accepted ∧ t.line.peers = { v.link with wire := [] } ∧
      (t.line.stream = [] → v.link.wire = []) := by
  obtain ⟨frames, v, ran, line, accepted, _⟩ := Refines.run matched faithful wired allowed ran
  exact ⟨frames, v, ran, accepted, line.peers, line.all_read⟩

end

/-- A message whose bytes come in two pieces, the first one cut inside the length. -/
def inPieces : List Action :=
  [.call (.message [104, 105]), .line (.sender 0 bytewise), .line (.sender 0 bytewise),
    .line (.sender 0 bytewise), .line (.arrive 9), .line (.arrive 100), .line (.receiver 0),
    .line (.receiver 0), .line (.receiver 0)]

theorem connected_wired : ByteLink.Wired DataHandler.connected DataHandler.connected where
  buffer := by decide
  listens := @Reader.connected_listening 1024 (by decide)
  startCode := rfl
  endCode := rfl

theorem inPieces_allowed : ∀ a ∈ inPieces, a.Allowed Link.sampleCodecs DataHandler.connected := by
  have steady := fun packet => bytewise_steady (DataHandler.connected.sendingJob packet) rfl rfl
  have fits : (Call.message [104, 105]).cargo.Fits Link.sampleCodecs DataHandler.connected :=
    Shipment.fits_plain (by decide) (by decide)
  simp only [inPieces, List.forall_mem_cons]
  exact ⟨fits, steady, steady, steady, trivial, trivial, trivial, trivial, trivial, by simp⟩

theorem inPieces_runs : ∃ t, Machine.run (step (fun _ h => ⟨h, [], done⟩) Link.sampleCodecs
    DataHandler.connected DataHandler.connected) (initial DataHandler.connected) inPieces =
      some t :=
  Option.isSome_iff_exists.mp (by decide +kernel)

theorem bytes_refine_frames_pieces : ∃ t,
    Machine.run (step (fun _ h => ⟨h, [], done⟩) Link.sampleCodecs DataHandler.connected
      DataHandler.connected) (initial DataHandler.connected) inPieces = some t ∧
    ∃ frames v, Machine.run (Traffic.step Link.sampleCodecs DataHandler.connected
        DataHandler.connected) .initial frames = some v ∧
      t.accepted = v.accepted ∧ t.line.peers = { v.link with wire := [] } ∧
      (t.line.stream = [] → v.link.wire = []) := by
  obtain ⟨t, ran⟩ := inPieces_runs
  have faithful : Link.sampleCodecs.lz4.Faithful fun _ _ => True := Lz4.literals_faithful
  exact ⟨t, ran, bytes_refine_frames Link.connected_plain faithful connected_wired
    inPieces_allowed ran⟩

end ByteTraffic
end CppToolkit.Network
