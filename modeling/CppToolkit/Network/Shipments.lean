import CppToolkit.Network.PipelineRoundTrip

/-! Many packets on a link at once: from its first job to `received_data`, each of them is at
exactly one place, in whatever order the jobs of both peers run. -/
namespace CppToolkit.Network
open Memory Utilities Bag

/-- The mode and the data that a packet is made of. -/
structure Shipment where
  mode : DataModes
  data : List UInt8
  deriving DecidableEq, Repr

namespace Shipment

def packet (cargo : Shipment) : List UInt8 := DataHandler.packet cargo.mode cargo.data

/-- What `received_data` is called with on the other side. -/
def arrival (cargo : Shipment) : UInt8 × List UInt8 := (cargo.mode.code, cargo.data)

/-- Its packet can be read, and stays below 2 GiB when it is compressed. -/
def Fits (c : Codecs) (sender : DataHandler) (cargo : Shipment) : Prop :=
  cargo.packet.length < 2 ^ 63 ∧ Small c sender cargo.packet

section
variable (c : Codecs) (sender receiver : DataHandler)

/-- The bytes of the packet after encryption and compression. -/
structure CarriedBy (cargo : Shipment) (coded image : List UInt8) : Prop
    extends Carried c sender receiver cargo.packet coded image cargo.mode cargo.data where
  short : image.length < 2 ^ 31

inductive OfSender (cargo : Shipment) : Job → Prop where
  | encrypts {coded image : List UInt8} (carried : cargo.CarriedBy c sender receiver coded image) :
      OfSender cargo (.encryptMessage cargo.packet)
  | compresses {coded image : List UInt8} (carried : cargo.CarriedBy c sender receiver coded image) :
      OfSender cargo (.compressMessage coded)
  | sends {coded image : List UInt8} (carried : cargo.CarriedBy c sender receiver coded image) :
      OfSender cargo (.sendingJob image)

def OfWire (image : List UInt8) (cargo : Shipment) : Prop :=
  ∃ coded, cargo.CarriedBy c sender receiver coded image

inductive OfReceiver (cargo : Shipment) : Job → Prop where
  | decompresses {coded image : List UInt8}
      (carried : cargo.CarriedBy c sender receiver coded image) :
      OfReceiver cargo (.decompressMessage image)
  | decrypts {coded image : List UInt8} (carried : cargo.CarriedBy c sender receiver coded image) :
      OfReceiver cargo (.decryptMessage coded)
  | receives {coded image : List UInt8} (carried : cargo.CarriedBy c sender receiver coded image) :
      OfReceiver cargo (.receivingJob cargo.packet)

end
end Shipment

/-- The steps that are still to be taken for a packet whose job this is. -/
def Job.ahead : Job → Nat
  | .encryptMessage _ => 7
  | .compressMessage _ => 6
  | .sendingJob _ => 5
  | .decompressMessage _ => 3
  | .decryptMessage _ => 2
  | .receivingJob _ => 1
  | _ => 0

theorem sum_ahead {job : Job} {jobs rest : List Job} {position : Nat}
    (taken : takeAt jobs position = some (job, rest)) :
    (jobs.map Job.ahead).sum = job.ahead + (rest.map Job.ahead).sum := by
  rw [((takeAt_perm taken).map Job.ahead).sum_nat, List.map_cons, List.sum_cons]

theorem sum_ahead_concat (rest : List Job) (next : Job) :
    ((rest ++ [next]).map Job.ahead).sum = (rest.map Job.ahead).sum + next.ahead := by
  rw [List.map_append, List.sum_append]
  rfl

namespace Shipment
variable {c : Codecs} {sender receiver : DataHandler} {cargo : Shipment} {job : Job}

/-- A job of the sender passes its packet on: to the next job or to the wire. -/
theorem OfSender.works (of : cargo.OfSender c sender receiver job) :
    (∃ next, sender.work c job = some (.ok (.pushed next)) ∧
      cargo.OfSender c sender receiver next ∧ job.ahead = next.ahead + 1) ∨
    ∃ image, sender.work c job = some (.ok (.written image)) ∧
      OfWire c sender receiver image cargo ∧ job.ahead = 5 := by
  cases of with
  | encrypts carried => exact .inl ⟨_, carried.encrypts, .compresses carried, rfl⟩
  | compresses carried => exact .inl ⟨_, carried.compresses, .sends carried, rfl⟩
  | sends carried => exact .inr ⟨_, carried.sends, ⟨_, carried⟩, rfl⟩

theorem OfReceiver.works (of : cargo.OfReceiver c sender receiver job) :
    (∃ next, receiver.work c job = some (.ok (.pushed next)) ∧
      cargo.OfReceiver c sender receiver next ∧ job.ahead = next.ahead + 1) ∨
    receiver.work c job = some (.ok (.received cargo.arrival.1 cargo.arrival.2)) ∧
      job.ahead = 1 := by
  cases of with
  | decompresses carried => exact .inl ⟨_, carried.decompresses, .decrypts carried, rfl⟩
  | decrypts carried => exact .inl ⟨_, carried.decrypts, .receives carried, rfl⟩
  | receives carried => exact .inr ⟨carried.receives, rfl⟩

end Shipment

namespace Link

theorem workStep_of_work {c : Codecs} {h : DataHandler} {l : Link} {onSender : Bool} {job : Job}
    {rest : List Job} {worked : Worked} (does : h.work c job = some (.ok worked)) :
    workStep c h l onSender job rest = some (l.settle onSender rest worked) := by
  rw [workStep, does]

def ahead (l : Link) : Nat :=
  (l.sending.map Job.ahead).sum + 4 * l.wire.length + (l.receiving.map Job.ahead).sum

section
variable {κ : Type} (cargo : κ → Shipment) (c : Codecs) (sender receiver : DataHandler)

/-- Everything that was sent is at one place: at a job of the sender, on the wire, at a job of
the receiver, or received. -/
def Accounted (l : Link) (packets : List κ) : Prop :=
  ∃ sending wire receiving arrived,
    List.Forall₂ (fun job k => (cargo k).OfSender c sender receiver job) l.sending sending ∧
    List.Forall₂ (fun image k => Shipment.OfWire c sender receiver image (cargo k)) l.wire wire ∧
    List.Forall₂ (fun job k => (cargo k).OfReceiver c sender receiver job) l.receiving receiving ∧
    l.received = arrived.map (fun k => (cargo k).arrival) ∧
    (sending ++ (wire ++ (receiving ++ arrived))).Perm packets

theorem accounted_nil : Accounted cargo c sender receiver ⟨[], [], [], []⟩ [] :=
  ⟨[], [], [], [], .nil, .nil, .nil, rfl, .refl _⟩

end

namespace Accounted
section
variable {κ : Type} {cargo : κ → Shipment} {c : Codecs} {sender receiver : DataHandler} {l : Link}
  {packets : List κ} {job : Job} (accounted : Accounted cargo c sender receiver l packets)
include accounted

/-- The first job of one more packet. -/
theorem push {k : κ} (of : (cargo k).OfSender c sender receiver job) :
    Accounted cargo c sender receiver { l with sending := l.sending ++ [job] } (packets ++ [k]) := by
  obtain ⟨sending, wire, receiving, arrived, one, two, three, received, perm⟩ := accounted
  refine ⟨sending ++ [k], wire, receiving, arrived, List.rel_append one (.cons of .nil), two, three,
    received, ?_⟩
  rw [List.append_assoc]
  exact List.perm_middle.trans ((perm.cons k).trans (List.perm_append_singleton k packets).symm)

theorem sends {position : Nat} {rest : List Job}
    (taken : takeAt l.sending position = some (job, rest)) :
    ∃ link, workStep c sender l true job rest = some link ∧
      Accounted cargo c sender receiver link packets ∧ l.ahead = link.ahead + 1 := by
  obtain ⟨sending, wire, receiving, arrived, one, two, three, received, perm⟩ := accounted
  obtain ⟨k, left, of, still, moved⟩ := takeAt_forall₂ one taken
  have sum := sum_ahead taken
  rcases of.works with ⟨next, does, goesOn, less⟩ | ⟨image, does, framed, less⟩
  · refine ⟨l.settle true rest (.pushed next), workStep_of_work does,
      ⟨left ++ [k], wire, receiving, arrived, List.rel_append still (.cons goesOn .nil), two, three,
        received, ?_⟩, ?_⟩
    · rw [List.append_assoc left]
      exact (perm_passed moved [] _).trans perm
    · simp only [ahead, settle, if_true, sum_ahead_concat, sum]
      omega
  · refine ⟨l.settle true rest (.written image), workStep_of_work does,
      ⟨left, wire ++ [k], receiving, arrived, still, List.rel_append two (.cons framed .nil), three,
        received, ?_⟩, ?_⟩
    · rw [List.append_assoc wire]
      exact (perm_passed moved wire _).trans perm
    · simp only [ahead, settle, List.length_append, List.length_singleton, sum]
      omega

theorem deliver {image : List UInt8} {wire : List (List UInt8)} (next : l.wire = image :: wire) :
    Accounted cargo c sender receiver
      { l with wire, receiving := l.receiving ++ [.decompressMessage image] } packets := by
  obtain ⟨sending, wired, receiving, arrived, one, two, three, received, perm⟩ := accounted
  rw [next] at two
  cases two with
  | @cons _ k _ wired framed behind =>
      obtain ⟨coded, carried⟩ := framed
      refine ⟨sending, wired, receiving ++ [k], arrived, one, behind,
        List.rel_append three (.cons (.decompresses carried) .nil), received, ?_⟩
      rw [List.append_assoc receiving]
      exact ((perm_passed (.refl (k :: wired)) receiving arrived).append_left sending).trans perm

theorem receives {position : Nat} {rest : List Job}
    (taken : takeAt l.receiving position = some (job, rest)) :
    ∃ link, workStep c receiver l false job rest = some link ∧
      Accounted cargo c sender receiver link packets ∧ l.ahead = link.ahead + 1 := by
  obtain ⟨sending, wire, receiving, arrived, one, two, three, received, perm⟩ := accounted
  obtain ⟨k, left, of, still, moved⟩ := takeAt_forall₂ three taken
  have sum := sum_ahead taken
  rcases of.works with ⟨next, does, goesOn, less⟩ | ⟨does, less⟩
  · refine ⟨l.settle false rest (.pushed next), workStep_of_work does,
      ⟨sending, wire, left ++ [k], arrived, one, two, List.rel_append still (.cons goesOn .nil),
        received, ?_⟩, ?_⟩
    · rw [List.append_assoc left]
      exact (((perm_passed moved [] arrived).append_left wire).append_left sending).trans perm
    · simp only [ahead, settle, Bool.false_eq_true, if_false, sum_ahead_concat, sum]
      omega
  · refine ⟨l.settle false rest (.received (cargo k).arrival.1 (cargo k).arrival.2),
      workStep_of_work does, ⟨sending, wire, left, arrived ++ [k], one, two, still, ?_, ?_⟩, ?_⟩
    · simp only [settle, received, List.map_append, List.map_cons, List.map_nil]
    · have last := perm_passed moved arrived []
      rw [List.append_nil] at last
      exact ((last.append_left wire).append_left sending).trans perm
    · simp only [ahead, settle, sum]
      omega

/-- With something pending, a job can run or a frame be read. -/
theorem moves (pool : receiver.threadPool = some false) (busy : ¬ l.Quiet) :
    ∃ a link, l.step c sender receiver a = some link := by
  cases sending : l.sending with
  | cons job rest =>
      have taken : takeAt l.sending 0 = some (job, rest) := by rw [sending]; rfl
      obtain ⟨link, stepped, _⟩ := accounted.sends taken
      exact ⟨.sender 0, link, Option.bind_eq_some_iff.mpr ⟨_, taken, stepped⟩⟩
  | nil =>
      cases wire : l.wire with
      | cons image behind =>
          let next : Link := { l with
            wire := behind, receiving := l.receiving ++ [Job.decompressMessage image] }
          refine ⟨.deliver, next, ?_⟩
          simp only [step, wire, DataHandler.push_running pool]
          rfl
      | nil =>
          cases receiving : l.receiving with
          | cons job rest =>
              have taken : takeAt l.receiving 0 = some (job, rest) := by rw [receiving]; rfl
              obtain ⟨link, stepped, _⟩ := accounted.receives taken
              exact ⟨.receiver 0, link, Option.bind_eq_some_iff.mpr ⟨_, taken, stepped⟩⟩
          | nil => exact absurd ⟨sending, wire, receiving⟩ busy

/-- A step of the link leaves every packet at one place and brings one of them a step on. -/
theorem step (pool : receiver.threadPool = some false) {a : Action} {link : Link}
    (stepped : l.step c sender receiver a = some link) :
    Accounted cargo c sender receiver link packets ∧ l.ahead = link.ahead + 1 := by
  cases a with
  | sender position =>
      obtain ⟨⟨job, rest⟩, taken, stepped⟩ := Option.bind_eq_some_iff.mp stepped
      obtain ⟨next, works, kept⟩ := accounted.sends taken
      cases stepped.symm.trans works
      exact kept
  | deliver =>
      unfold Link.step at stepped
      dsimp only at stepped
      split at stepped
      next => cases stepped
      next image wire next =>
        rw [DataHandler.push_running pool] at stepped
        cases stepped
        refine ⟨accounted.deliver next, ?_⟩
        simp only [ahead, next, List.length_cons, sum_ahead_concat, Job.ahead]
        omega
  | receiver position =>
      obtain ⟨⟨job, rest⟩, taken, stepped⟩ := Option.bind_eq_some_iff.mp stepped
      obtain ⟨next, works, kept⟩ := accounted.receives taken
      cases stepped.symm.trans works
      exact kept

/-- What has been received is of packets that were sent, each of them once; with nothing
pending it is of all of them. -/
theorem split :
    ∃ arrived underway, (arrived ++ underway).Perm packets ∧
      l.received = arrived.map (fun k => (cargo k).arrival) ∧ (l.Quiet → underway = []) := by
  classical
  obtain ⟨sending, wire, receiving, arrived, one, two, three, received, perm⟩ := accounted
  refine ⟨arrived, sending ++ (wire ++ receiving), ?_, received, ?_⟩
  · refine List.Perm.trans (List.perm_iff_count.mpr fun x => ?_) perm
    simp only [List.count_append]
    omega
  · intro quiet
    rw [quiet.1] at one
    rw [quiet.2.1] at two
    rw [quiet.2.2] at three
    cases one
    cases two
    cases three
    rfl

end
end Accounted
end Link

/-- What is sent of a small packet is short: the compressor does not fail on it. -/
theorem Matched.image_short {c : Codecs} {sender receiver : DataHandler}
    (matched : Matched c sender receiver) {paired : c.lz4.Stream → c.lz4.StreamDecode → Prop}
    (faithful : c.lz4.Faithful paired) {packet coded image data : List UInt8} {mode : DataModes}
    (carried : Carried c sender receiver packet coded image mode data)
    (small : Small c sender packet) : image.length < 2 ^ 31 := by
  have encrypts := Option.some.inj carried.encrypts
  have pushed : sender.compressMessage c coded = .ok (.pushed (.sendingJob image)) :=
    Option.some.inj carried.compresses
  rw [DataHandler.compressMessage, DataHandler.alive_live matched.senderLive matched.senderPool,
    DataHandler.push_running matched.senderPool] at pushed
  have same : image = orRaw coded (Compressor.compression c.lz4 coded blockBytes) := by
    cases pushed
    rfl
  cases compressed : Compressor.compression c.lz4 coded blockBytes with
  | ok shrunk =>
      rw [same, compressed]
      exact small coded shrunk encrypts compressed
  | error what =>
      have empty : coded = [] := by
        by_contra some_
        obtain ⟨shrunk, compressed', _⟩ :=
          @Compressor.compression_round_trip _ _ faithful blockBytes (by decide) _ some_
        cases compressed.symm.trans compressed'
      rw [same, compressed, empty]
      exact Nat.two_pow_pos 31

/-- A packet with data starts at the first job. -/
theorem Matched.starts {c : Codecs} {sender receiver : DataHandler}
    (matched : Matched c sender receiver) {paired : c.lz4.Stream → c.lz4.StreamDecode → Prop}
    (faithful : c.lz4.Faithful paired) {cargo : Shipment} (some_ : cargo.data ≠ [])
    (fits : cargo.Fits c sender) :
    cargo.OfSender c sender receiver (.encryptMessage cargo.packet) := by
  obtain ⟨coded, image, carried, _⟩ := matched.carried faithful cargo.mode some_ fits.1 fits.2
  exact .encrypts ⟨carried, matched.image_short faithful carried fits.2⟩

/-- A connected handler accepts every packet with data. -/
theorem Matched.sends {c : Codecs} {sender receiver : DataHandler}
    (matched : Matched c sender receiver) {mode : DataModes} (coded : mode ≠ .connection)
    {data : List UInt8} (some_ : data ≠ []) :
    sender.send mode data = .ok (.encryptMessage (DataHandler.packet mode data)) := by
  have running : sender.threadPool ≠ none := by
    rw [matched.senderPool]
    exact Option.some_ne_none _
  rw [DataHandler.send, if_neg matched.connected, if_neg running, if_neg some_, if_neg coded,
    DataHandler.push_running matched.senderPool]

theorem Link.connected_plain :
    Matched Link.sampleCodecs DataHandler.connected DataHandler.connected where
  senderLive := by decide
  receiverLive := by decide
  connected := by decide
  senderPool := rfl
  receiverPool := rfl
  mode := rfl
  keys := fun encrypted => by cases encrypted

/-- Without encryption a packet of one block fits. -/
theorem Shipment.fits_plain {cargo : Shipment} (some_ : cargo.packet ≠ [])
    (one : cargo.packet.length ≤ blockBytes.toNat) :
    cargo.Fits Link.sampleCodecs DataHandler.connected := by
  have small : blockBytes.toNat < 2 ^ 63 := by decide
  have faithful : Link.sampleCodecs.lz4.Faithful fun _ _ => True := Lz4.literals_faithful
  refine ⟨Nat.lt_of_le_of_lt one small, small_of_single faithful fun coded encrypts => ?_⟩
  cases encrypts
  exact ⟨some_, one⟩

end CppToolkit.Network
