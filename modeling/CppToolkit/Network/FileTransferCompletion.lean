import CppToolkit.Network.FileCompletion
import CppToolkit.Network.FileTransferPackets

/-! One call of `send_files` as the receiver sees it: the start packet and one packet for
each file are on their way through the jobs of both peers, and each file that has been
reported is not on its way any more. -/
namespace CppToolkit.Network
open Memory Utilities Bag Machine

def FileOutcome.message : FileOutcome → List UInt8
  | .failure message => message
  | .success message _ => message

namespace FileTransfer

/-- The bytes of a packet with these data after encryption and compression. -/
abbrev CarriedBy (p : Peers) (data coded image : List UInt8) : Prop :=
  Carried p.codecs p.sender p.receiver.toDataHandler (DataHandler.packet .file data) coded image
    .file data

inductive OfSender (p : Peers) (data : List UInt8) : Job → Prop where
  | encrypts {coded image : List UInt8} (carried : CarriedBy p data coded image) :
      OfSender p data (.encryptMessage (DataHandler.packet .file data))
  | compresses {coded image : List UInt8} (carried : CarriedBy p data coded image) :
      OfSender p data (.compressMessage coded)
  | sends {coded image : List UInt8} (carried : CarriedBy p data coded image) :
      OfSender p data (.sendingJob image)

def OfWire (p : Peers) (data image : List UInt8) : Prop := ∃ coded, CarriedBy p data coded image

inductive OfReceiver (p : Peers) (data : List UInt8) : Job → Prop where
  | decompresses {coded image : List UInt8} (carried : CarriedBy p data coded image) :
      OfReceiver p data (.decompressMessage image)
  | decrypts {coded image : List UInt8} (carried : CarriedBy p data coded image) :
      OfReceiver p data (.decryptMessage coded)
  | receives {coded image : List UInt8} (carried : CarriedBy p data coded image) :
      OfReceiver p data (.receivingJob (DataHandler.packet .file data))

theorem OfSender.works {p : Peers} {data : List UInt8} {job : Job} (of : OfSender p data job)
    (disk : List UInt8 → Opened) :
    (∃ next, p.sender.sendingWork p.codecs disk job = some (.ok (.pushed next)) ∧
      OfSender p data next) ∨
    ∃ image, p.sender.sendingWork p.codecs disk job = some (.ok (.written image)) ∧
      OfWire p data image := by
  cases of with
  | encrypts carried => exact .inl ⟨_, carried.encrypts, .compresses carried⟩
  | compresses carried => exact .inl ⟨_, carried.compresses, .sends carried⟩
  | sends carried => exact .inr ⟨_, carried.sends, _, carried⟩

theorem OfReceiver.works {p : Peers} {data : List UInt8} {job : Job} (of : OfReceiver p data job) :
    (∃ next, p.receiver.work p.codecs job = some (.ok (.pushed next)) ∧ OfReceiver p data next) ∨
    p.receiver.work p.codecs job = some (.ok (.received DataModes.file.code data)) := by
  cases of with
  | decompresses carried => exact .inl ⟨_, carried.decompresses, .decrypts carried⟩
  | decrypts carried => exact .inl ⟨_, carried.decrypts, .receives carried⟩
  | receives carried => exact .inr carried.receives

/-- What a pending job or frame is there for. -/
inductive Cargo where
  | start
  | report (file : FileInformation)
  deriving DecidableEq

/-- The data of a packet with this cargo. -/
def Payload (guid : Guid) (count : Nat) : Cargo → List UInt8 → Prop
  | .start, data => data = startData guid count
  | .report file, data => ∃ disk index, index < 2 ^ 64 ∧ data.length < 2 ^ 63 ∧
      reportData disk guid index file = some data

/-- The packet of these data can be read, and stays below 2 GiB when it is compressed. -/
def Fits (p : Peers) (data : List UInt8) : Prop :=
  (DataHandler.packet .file data).length < 2 ^ 63 ∧
    Small p.codecs p.sender (DataHandler.packet .file data)

inductive Sends (p : Peers) (guid : Guid) (count : Nat) : Job → Cargo → Prop where
  | file {index : Nat} {file : FileInformation} (fits : index < 2 ^ 64)
      (small : (fileData guid index file).length < 2 ^ 63) :
      Sends p guid count (.fileSendingJob (fileData guid index file)) (.report file)
  | packet {data : List UInt8} {job : Job} {cargo : Cargo} (payload : Payload guid count cargo data)
      (of : OfSender p data job) : Sends p guid count job cargo

def Frames (p : Peers) (guid : Guid) (count : Nat) (image : List UInt8) (cargo : Cargo) : Prop :=
  ∃ data, Payload guid count cargo data ∧ OfWire p data image

def Receives (p : Peers) (guid : Guid) (count : Nat) (job : Job) (cargo : Cargo) : Prop :=
  ∃ data, Payload guid count cargo data ∧ OfReceiver p data job

/-- Exactly this cargo is on its way. -/
def Underway (p : Peers) (guid : Guid) (count : Nat) (calling : List Job) (link : Link)
    (cargo : List Cargo) : Prop :=
  ∃ called sending wire receiving, List.Forall₂ (Sends p guid count) calling called ∧
    List.Forall₂ (Sends p guid count) link.sending sending ∧
    List.Forall₂ (Frames p guid count) link.wire wire ∧
    List.Forall₂ (Receives p guid count) link.receiving receiving ∧
    (called ++ (sending ++ (wire ++ receiving))).Perm cargo

section
variable {p : Peers} {guid : Guid} {count : Nat} {calling : List Job} {link : Link}
  {cargo : List Cargo}

theorem Underway.perm {cargo' : List Cargo} (underway : Underway p guid count calling link cargo)
    (same : cargo.Perm cargo') : Underway p guid count calling link cargo' := by
  obtain ⟨called, sending, wire, receiving, one, two, three, four, perm⟩ := underway
  exact ⟨called, sending, wire, receiving, one, two, three, four, perm.trans same⟩

theorem Underway.push {job : Job} (underway : Underway p guid count (job :: calling) link cargo) :
    Underway p guid count calling { link with sending := link.sending ++ [job] } cargo := by
  obtain ⟨called, sending, wire, receiving, one, two, three, four, perm⟩ := underway
  cases one with
  | @cons _ k _ called first rest =>
      refine ⟨called, sending ++ [k], wire, receiving, rest, List.rel_append two (.cons first .nil),
        three, four, ?_⟩
      refine List.Perm.trans (List.perm_iff_count.mpr ?_) perm
      intro x
      have split : k :: called = [k] ++ called := rfl
      rw [split]
      simp only [List.count_append]
      omega

/-- What becomes of the next job of the sender. -/
theorem Underway.sender {position : Nat} {job : Job} {rest : List Job}
    (underway : Underway p guid count calling link cargo)
    (taken : takeAt link.sending position = some (job, rest)) :
    ∃ k, Sends p guid count job k ∧
      (∀ next, Sends p guid count next k →
        Underway p guid count calling { link with sending := rest ++ [next] } cargo) ∧
      ∀ image, Frames p guid count image k →
        Underway p guid count calling { link with sending := rest, wire := link.wire ++ [image] }
          cargo := by
  obtain ⟨called, sending, wire, receiving, one, two, three, four, perm⟩ := underway
  obtain ⟨k, left, sends, still, moved⟩ := takeAt_forall₂ two taken
  refine ⟨k, sends, ?_, ?_⟩
  · intro next sends
    refine ⟨called, left ++ [k], wire, receiving, one, List.rel_append still (.cons sends .nil), three,
      four, List.Perm.trans (List.perm_iff_count.mpr ?_) perm⟩
    intro x
    have same := moved.count_eq x
    simp only [List.count_append] at same ⊢
    omega
  · intro image frames
    refine ⟨called, left, wire ++ [k], receiving, one, still, List.rel_append three (.cons frames .nil),
      four, List.Perm.trans (List.perm_iff_count.mpr ?_) perm⟩
    intro x
    have same := moved.count_eq x
    simp only [List.count_append] at same ⊢
    omega

theorem Underway.deliver {image : List UInt8} {wire : List (List UInt8)}
    (underway : Underway p guid count calling link cargo) (next : link.wire = image :: wire) :
    Underway p guid count calling
      { link with wire := wire, receiving := link.receiving ++ [.decompressMessage image] }
      cargo := by
  obtain ⟨called, sending, wired, receiving, one, two, three, four, perm⟩ := underway
  rw [next] at three
  cases three with
  | @cons _ k _ wired frames rest =>
      obtain ⟨data, payload, coded, carried⟩ := frames
      refine ⟨called, sending, wired, receiving ++ [k], one, two, rest,
        List.rel_append four (.cons ⟨data, payload, .decompresses carried⟩ .nil),
        List.Perm.trans (List.perm_iff_count.mpr ?_) perm⟩
      intro x
      have split : k :: wired = [k] ++ wired := rfl
      rw [split]
      simp only [List.count_append]
      omega

/-- What becomes of the next job of the receiver. -/
theorem Underway.receiver {position : Nat} {job : Job} {rest : List Job}
    (underway : Underway p guid count calling link cargo)
    (taken : takeAt link.receiving position = some (job, rest)) :
    ∃ k left, cargo.Perm (k :: left) ∧ Receives p guid count job k ∧
      (∀ next, Receives p guid count next k →
        Underway p guid count calling { link with receiving := rest ++ [next] } cargo) ∧
      ∀ received,
        Underway p guid count calling { link with receiving := rest, received := received } left := by
  obtain ⟨called, sending, wire, receiving, one, two, three, four, perm⟩ := underway
  obtain ⟨k, left, receives, still, moved⟩ := takeAt_forall₂ four taken
  refine ⟨k, called ++ (sending ++ (wire ++ left)), perm.symm.trans ?_, receives,
    ?_, fun received => ⟨called, sending, wire, left, one, two, three, still,
      .refl _⟩⟩
  · apply List.perm_iff_count.mpr
    intro x
    have same := moved.count_eq x
    have split : k :: (called ++ (sending ++ (wire ++ left))) =
      [k] ++ (called ++ (sending ++ (wire ++ left))) := rfl
    rw [split]
    simp only [List.count_append] at same ⊢
    omega
  · intro next receives
    refine ⟨called, sending, wire, left ++ [k], one, two, three,
      List.rel_append still (.cons receives .nil),
      List.Perm.trans (List.perm_iff_count.mpr ?_) perm⟩
    intro x
    have same := moved.count_eq x
    simp only [List.count_append] at same ⊢
    omega

/-- With nothing pending, no cargo is on its way. -/
theorem Underway.quiet (underway : Underway p guid count [] link cargo) (quiet : link.Quiet) :
    cargo = [] := by
  obtain ⟨called, sending, wire, receiving, one, two, three, four, perm⟩ := underway
  rw [quiet.1] at two
  rw [quiet.2.1] at three
  rw [quiet.2.2] at four
  cases one
  cases two
  cases three
  cases four
  exact List.nil_perm.mp perm

end

/-- What the step conditions of a transfer ask: `File::open` throws for no file, its packet
fits, and a report is received behind the start packet and nothing throws before it is
recorded. -/
def Allowed (p : Peers) (guid : Guid) (count : Nat) (s : FileTransfer) : Action → Prop
  | .sender position disk => ∀ index file rest,
      takeAt s.link.sending position = some (.fileSendingJob (fileData guid index file), rest) →
        ∃ data, reportData disk guid index file = some data ∧ Fits p data
  | .receiver position => ∀ packet rest data,
      takeAt s.link.receiving position = some (.receivingJob packet, rest) →
        receivingWork packet = .ok (.received DataModes.file.code data) →
          data ≠ startData guid count →
            (DataModes.file.code, startData guid count) ∈ s.link.received ∧
            ∀ read, FilePacket.read data = .ok read →
              (s.receiving p).asks p.world p.caller read ≠ none
  | _ => True

/-- Nothing has been received, and every packet is on its way. -/
structure Before (p : Peers) (guid : Guid) (files : List FileInformation) (s : FileTransfer) :
    Prop where
  absent : FileManagement.Absent guid s.files
  received : s.link.received = []
  underway : Underway p guid files.length s.calling s.link (.start :: files.map .report)

/-- The start packet has been received; these outcomes are one for each file whose packet
is not on its way any more. -/
structure Receiving (p : Peers) (guid : Guid) (files : List FileInformation)
    (outcomes : List FileOutcome) (s : FileTransfer) : Prop where
  progress : FileManagement.Progress guid files.length outcomes s.files
  underway : ∃ reported remaining,
    List.Forall₂ (fun outcome file => outcome.message = Converter.toString file.2) outcomes reported ∧
    (reported ++ remaining).Perm files ∧
    Underway p guid files.length s.calling s.link (remaining.map .report)

structure Transferring (p : Peers) (guid : Guid) (files : List FileInformation) (s : FileTransfer) :
    Prop where
  sound : s.files.Sound
  phase : Before p guid files s ∨ ∃ outcomes, Receiving p guid files outcomes s

/-- A step that moves cargo on. -/
theorem Transferring.moved {p : Peers} {guid : Guid} {files : List FileInformation}
    {s t : FileTransfer} (transferring : Transferring p guid files s)
    (moves : ∀ cargo, Underway p guid files.length s.calling s.link cargo →
      t.files = s.files ∧ t.link.received = s.link.received ∧
        Underway p guid files.length t.calling t.link cargo) : Transferring p guid files t := by
  rcases transferring.phase with before | ⟨outcomes, receiving⟩
  · obtain ⟨same, received, underway⟩ := moves _ before.underway
    exact ⟨same ▸ transferring.sound,
      .inl ⟨same ▸ before.absent, received.trans before.received, underway⟩⟩
  · obtain ⟨reported, remaining, one, perm, underway⟩ := receiving.underway
    obtain ⟨same, _, underway⟩ := moves _ underway
    exact ⟨same ▸ transferring.sound,
      .inr ⟨outcomes, same ▸ receiving.progress, reported, remaining, one, perm, underway⟩⟩

/-- A step of the threads inside the file manager. -/
theorem Transferring.managed {p : Peers} {guid : Guid} {files : List FileInformation}
    {s t : FileTransfer} {a : FileManagement.Action} (transferring : Transferring p guid files s)
    (silent : a.guid? = none) (link : t.link = s.link) (calling : t.calling = s.calling)
    (stepped : s.files.step a = some t.files) : Transferring p guid files t where
  sound := transferring.sound.step (fun other named => by cases silent.symm.trans named)
    (FileManagement.stepped_of_step stepped)
  phase := by
    have did := FileManagement.stepped_of_step stepped
    have unstarted : ∀ n, a ≠ .start guid n := by
      rintro n rfl
      cases silent
    have unreported : FileManagement.reportOf guid a = none := by
      cases a with
      | record other outcome => cases silent
      | _ => rfl
    rcases transferring.phase with before | ⟨outcomes, receiving⟩
    · refine .inl ⟨before.absent.step transferring.sound unstarted did, ?_, ?_⟩
      · rw [link]
        exact before.received
      · rw [link, calling]
        exact before.underway
    · obtain ⟨reported, remaining, one, perm, underway⟩ := receiving.underway
      have bounded : outcomes.length ≤ files.length := by
        rw [one.length_eq, ← perm.length_eq, List.length_append]
        exact Nat.le_add_right _ _
      have kept := receiving.progress.step transferring.sound unstarted
        (by rw [unreported]; exact bounded) did
      rw [FileManagement.append_reportOf_none unreported] at kept
      refine .inr ⟨outcomes, kept, reported, remaining, one, perm, ?_⟩
      rw [link, calling]
      exact underway

section
variable {p : Peers} {guid : Guid} {files : List FileInformation} {s t : FileTransfer}
  (carry : ∀ data, data ≠ [] → Fits p data → ∃ coded image, CarriedBy p data coded image)
  (connected : p.sender.socket ≠ none) (pool : p.sender.threadPool = some false)
include carry connected pool

theorem sent_report {data : List UInt8} (nonempty : data ≠ []) (fits : Fits p data) :
    ∃ job, p.sender.send .file data = .ok job ∧ OfSender p data job := by
  obtain ⟨coded, image, carried⟩ := carry data nonempty fits
  refine ⟨_, ?_, .encrypts carried⟩
  rw [DataHandler.send, if_neg connected, if_neg (by rw [pool]; exact Option.some_ne_none _),
    if_neg nonempty, if_neg (by decide), DataHandler.push_running pool]

theorem Transferring.sender {position : Nat} {disk : List UInt8 → Opened}
    (transferring : Transferring p guid files s)
    (allowed : Allowed p guid files.length s (.sender position disk))
    (stepped : step p s (.sender position disk) = some t) : Transferring p guid files t := by
  obtain ⟨⟨job, rest⟩, taken, stepped⟩ := Option.bind_eq_some_iff.mp stepped
  have settles : ∀ worked, p.sender.sendingWork p.codecs disk job = some (.ok worked) →
      t = { s with link := s.link.settle true rest worked } := by
    intro worked does
    simp only [senderStep, does] at stepped
    exact (Option.some.inj stepped).symm
  have outcome : ∀ k, Sends p guid files.length job k →
      (∃ next, p.sender.sendingWork p.codecs disk job = some (.ok (.pushed next)) ∧
        Sends p guid files.length next k) ∨
      ∃ image, p.sender.sendingWork p.codecs disk job = some (.ok (.written image)) ∧
        Frames p guid files.length image k := by
    intro k sends
    cases sends with
    | @file index file fits small =>
        obtain ⟨data, reports, suits⟩ := allowed index file rest taken
        have nonempty : data ≠ [] := reportData_ne_nil reports
        obtain ⟨next, sent, of⟩ := sent_report carry connected pool nonempty suits
        refine .inl ⟨next, ?_, .packet ⟨disk, index, fits, ?_, reports⟩ of⟩
        · rw [DataHandler.sendingWork, fileSendingWork_fileData _ small reports, sent]
          rfl
        · have longer := suits.1
          rw [DataHandler.packet_eq, List.length_append, Combiner.field_length,
            Combiner.field_length] at longer
          omega
    | packet payload of =>
        rcases of.works disk with ⟨next, does, of⟩ | ⟨image, does, of⟩
        · exact .inl ⟨next, does, .packet payload of⟩
        · exact .inr ⟨image, does, _, payload, of⟩
  apply transferring.moved
  intro cargo underway
  obtain ⟨k, sends, pushed, written⟩ := underway.sender taken
  rcases outcome k sends with ⟨next, does, sends⟩ | ⟨image, does, frames⟩
  · rw [settles _ does]
    exact ⟨rfl, rfl, pushed next sends⟩
  · rw [settles _ does]
    exact ⟨rfl, rfl, written image frames⟩

omit carry connected pool in
theorem Transferring.push (transferring : Transferring p guid files s)
    (stepped : step p s .push = some t) : Transferring p guid files t := by
  apply transferring.moved
  intro cargo underway
  simp only [step] at stepped
  split at stepped
  next => cases stepped
  next job calling some_ =>
    cases stepped
    rw [some_] at underway
    exact ⟨rfl, rfl, underway.push⟩

omit carry connected pool in
theorem Transferring.deliver (running : p.receiver.threadPool = some false)
    (transferring : Transferring p guid files s) (stepped : step p s .deliver = some t) :
    Transferring p guid files t := by
  obtain ⟨link, delivered, same⟩ := Option.map_eq_some_iff.mp stepped
  subst same
  apply transferring.moved
  intro cargo underway
  simp only [Link.step, DataHandler.push_running running] at delivered
  split at delivered
  next => cases delivered
  next image wire next =>
    cases delivered
    exact ⟨rfl, rfl, underway.deliver next⟩

end

/-- Whatever `received_file` asks for, the guid is one that the manager keeps. -/
theorem asks_plain {w : World} {caller : Caller} {peer : Peer} {data : List UInt8}
    {packet : FilePacket} {a : FileManagement.Action} (reads : FilePacket.read data = .ok packet)
    (asked : peer.asks w caller packet = some a) : a.Plain := by
  have plain := FilePacket.read_plain reads
  have named : ∀ guid, a.guid? = some guid → guid = packet.guid := by
    intro guid named
    cases packet with
    | start =>
        cases asked
        cases named
        rfl
    | failure =>
        cases asked
        cases named
        rfl
    | success =>
        simp only [Peer.asks] at asked
        split at asked
        next => cases asked
        next =>
          cases asked
          cases named
          rfl
        next =>
          split at asked
          next =>
            cases asked
            cases named
            rfl
          next =>
            split at asked
            next => cases asked
            next =>
              cases asked
              cases named
              rfl
  intro guid of
  rw [named guid of]
  exact plain

/-- The packet of a report asks to record one outcome with the message of its file. -/
theorem asks_report {p : Peers} {guid : Guid} {count : Nat} {file : FileInformation}
    {data : List UInt8} (plain : ¬ Converter.hasByteOrderMark guid)
    (payload : Payload guid count (.report file) data) :
    ∃ read, FilePacket.read data = .ok read ∧ (∀ other n, read ≠ .start other n) ∧
      ∀ peer : Peer, peer.asks p.world p.caller read ≠ none → ∃ outcome,
        peer.asks p.world p.caller read = some (.record guid outcome) ∧
          outcome.message = Converter.toString file.2 := by
  obtain ⟨disk, index, fits, small, reports⟩ := payload
  have key : Converter.toString guid = guid := Converter.toString_toArray plain
  rcases read_reportData fits reports small with read | ⟨sourceData, read⟩
  · rw [key] at read
    exact ⟨_, read, nofun, fun peer _ => ⟨_, rfl, rfl⟩⟩
  · rw [key] at read
    refine ⟨_, read, nofun, ?_⟩
    intro peer asked
    simp only [Peer.asks] at asked ⊢
    cases saved : p.world.saveTempPath peer.filesSaved sourceData with
    | error what =>
        rw [saved] at asked
        exact absurd rfl asked
    | ok path =>
        rw [saved] at asked
        cases path with
        | none => exact ⟨_, rfl, rfl⟩
        | some path =>
            simp only at asked ⊢
            cases set : peer.receivedFileCallback with
            | none => exact ⟨_, rfl, rfl⟩
            | some callback =>
                rw [set] at asked
                simp only at asked ⊢
                cases called : callback p.caller (Converter.toString file.2) path with
                | error what =>
                    rw [called] at asked
                    exact absurd rfl asked
                | ok reply => exact ⟨_, rfl, rfl⟩

theorem report_ne_start {p : Peers} {guid : Guid} {count : Nat} {file : FileInformation}
    {data : List UInt8} (plain : ¬ Converter.hasByteOrderMark guid) (countable : count < 2 ^ 64)
    (payload : Payload guid count (.report file) data) : data ≠ startData guid count := by
  intro same
  obtain ⟨read, reads, other, _⟩ := @asks_report p _ _ _ _ plain payload
  obtain ⟨_, _, _, small, _⟩ := payload
  rw [same, read_startData countable (same ▸ small)] at reads
  cases reads
  exact other _ _ rfl

/-- What a received file packet does, once it is read and nothing throws. -/
theorem fileStep_asks {p : Peers} {s t : FileTransfer} {data : List UInt8} {read : FilePacket}
    {a : FileManagement.Action} (reads : FilePacket.read data = .ok read)
    (asked : (s.receiving p).asks p.world p.caller read = some a)
    (stepped : s.fileStep p data = some t) :
    s.files.step a = some t.files ∧ t.link = s.link ∧ t.calling = s.calling := by
  simp only [fileStep, reads, asked] at stepped
  obtain ⟨files, did, same⟩ := Option.map_eq_some_iff.mp stepped
  subst same
  exact ⟨did, rfl, rfl⟩

section
variable {p : Peers} {guid : Guid} {files : List FileInformation} {s t : FileTransfer}
  (plain : ¬ Converter.hasByteOrderMark guid)
include plain

/-- The start packet is received. -/
theorem Before.started (before : Before p guid files s) (positive : 1 ≤ files.length)
    (countable : files.length < 2 ^ 64) (small : (startData guid files.length).length < 2 ^ 63)
    (sound : s.files.Sound) {link : Link}
    (underway : Underway p guid files.length s.calling link (files.map .report))
    (stepped : fileStep p { s with link := link } (startData guid files.length) = some t) :
    Transferring p guid files t := by
  have reads := read_startData countable small
  rw [show Converter.toString guid = guid from Converter.toString_toArray plain] at reads
  obtain ⟨did, same, calling⟩ := fileStep_asks reads rfl stepped
  have did := FileManagement.stepped_of_step did
  refine ⟨sound.step (@asks_plain p.world p.caller (s.receiving p) _ _ _ reads rfl) did,
    .inr ⟨[], .inl (before.absent.started positive did), [], files, .nil, .refl _, ?_⟩⟩
  rw [same, calling]
  exact underway

/-- The packet of one more file is received. -/
theorem Receiving.recorded {outcomes : List FileOutcome} {reported remaining : List FileInformation}
    {file : FileInformation} {data : List UInt8} {link : Link}
    (progress : FileManagement.Progress guid files.length outcomes s.files)
    (one : List.Forall₂ (fun outcome file => outcome.message = Converter.toString file.2) outcomes
      reported)
    (perm : (reported ++ file :: remaining).Perm files) (sound : s.files.Sound)
    (payload : Payload guid files.length (.report file) data)
    (underway : Underway p guid files.length s.calling link (remaining.map .report))
    (asked : ∀ read, FilePacket.read data = .ok read →
      (s.receiving p).asks p.world p.caller read ≠ none)
    (stepped : fileStep p { s with link := link } data = some t) : Transferring p guid files t := by
  obtain ⟨read, reads, _, records⟩ := @asks_report p _ _ _ _ plain payload
  obtain ⟨outcome, asks, message⟩ := records (s.receiving p) (asked read reads)
  obtain ⟨did, same, calling⟩ := @fileStep_asks p { s with link := link } t _ _ _ reads asks stepped
  have did := FileManagement.stepped_of_step did
  have room : outcomes.length + 1 ≤ files.length := by
    rw [one.length_eq, ← perm.length_eq, List.length_append, List.length_cons]
    omega
  have report : FileManagement.reportOf guid (.record guid outcome) = some outcome := if_pos rfl
  have next := progress.step sound (fun _ started => by cases started) (by rw [report]; exact room) did
  rw [report] at next
  refine ⟨sound.step (asks_plain reads asks) did, .inr ⟨outcomes ++ [outcome], next,
    reported ++ [file], remaining, List.rel_append one (.cons message .nil), ?_, ?_⟩⟩
  · rw [List.append_assoc]
    exact perm
  · rw [same, calling]
    exact underway

theorem Transferring.receiver (positive : 1 ≤ files.length) (countable : files.length < 2 ^ 64)
    (small : (startData guid files.length).length < 2 ^ 63) {position : Nat}
    (transferring : Transferring p guid files s)
    (allowed : Allowed p guid files.length s (.receiver position))
    (stepped : step p s (.receiver position) = some t) : Transferring p guid files t := by
  obtain ⟨⟨job, rest⟩, taken, stepped⟩ := Option.bind_eq_some_iff.mp stepped
  change s.receiverStep p job rest = some t at stepped
  by_cases pushes : ∃ next, p.receiver.work p.codecs job = some (.ok (.pushed next))
  · obtain ⟨next, does⟩ := pushes
    simp only [receiverStep, does] at stepped
    cases stepped
    refine transferring.moved fun cargo underway => ⟨rfl, rfl, ?_⟩
    obtain ⟨k, left, _, ⟨data, payload, of⟩, pushed, _⟩ := underway.receiver taken
    rcases of.works with ⟨next', does', of⟩ | does'
    · cases does.symm.trans does'
      exact pushed next ⟨data, payload, of⟩
    · cases does.symm.trans does'
  · have receives : ∀ {data : List UInt8}, OfReceiver p data job →
        job = .receivingJob (DataHandler.packet .file data) ∧
        receivingWork (DataHandler.packet .file data) = .ok (.received DataModes.file.code data) ∧
        fileStep p { s with link := s.link.settle false rest (.received DataModes.file.code data) }
          data = some t := by
      intro data of
      cases of with
      | decompresses carried => exact absurd ⟨_, carried.decompresses⟩ pushes
      | decrypts carried => exact absurd ⟨_, carried.decrypts⟩ pushes
      | receives carried =>
          refine ⟨rfl, Option.some.inj carried.receives, ?_⟩
          simp only [receiverStep, carried.receives, DataModes.ofCode_code, if_pos] at stepped
          exact stepped
    rcases transferring.phase with before | ⟨outcomes, receiving⟩
    · obtain ⟨k, left, perm, ⟨data, payload, of⟩, _, taken_⟩ := before.underway.receiver taken
      obtain ⟨rfl, works, stepped⟩ := receives of
      cases k with
      | start =>
          subst payload
          refine before.started plain positive countable small transferring.sound ?_ stepped
          exact (taken_ _).perm (List.Perm.cons_inv perm).symm
      | report file =>
          have different := @report_ne_start p _ _ _ _ plain countable payload
          have first := (allowed _ rest data taken works different).1
          rw [before.received] at first
          cases first
    · obtain ⟨reported, remaining, one, all, underway⟩ := receiving.underway
      obtain ⟨k, left, perm, ⟨data, payload, of⟩, _, taken_⟩ := underway.receiver taken
      obtain ⟨rfl, works, stepped⟩ := receives of
      obtain ⟨file, member, rfl⟩ := List.mem_map.mp (perm.mem_iff.mpr List.mem_cons_self)
      have different := @report_ne_start p _ _ _ _ plain countable payload
      have split := List.perm_cons_erase member
      have rest_ : left.Perm ((remaining.erase file).map .report) :=
        List.Perm.cons_inv (perm.symm.trans (split.map Cargo.report))
      exact Receiving.recorded plain receiving.progress one ((split.symm.append_left reported).trans all)
        transferring.sound payload ((taken_ _).perm rest_)
        (allowed _ rest data taken works different).2 stepped

end
end FileTransfer
end CppToolkit.Network
