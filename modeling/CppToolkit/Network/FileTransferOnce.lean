import CppToolkit.Network.FileTransferCompletion

/-! A call of `send_files` completes at the receiver exactly once, with one entry for each
file, in the runs whose steps are allowed. -/
namespace CppToolkit.Network
open Words Memory Utilities Bag Machine

namespace FileTransfer

/-- Two confirmed peers with working libraries. -/
structure Connected (p : Peers) : Prop where
  faithful : ∃ paired, p.codecs.lz4.Faithful paired
  matched : Matched p.codecs p.sender p.receiver.toDataHandler
  sender : p.sender.condition = .confirmed
  receiver : p.receiver.condition = .confirmed

/-- The guid is a plain text, and what `send_files` builds itself can be sent. -/
structure Sendable (p : Peers) (guid : Guid) (files : List FileInformation) : Prop where
  plain : ¬ Converter.hasByteOrderMark guid
  countable : files.length < 2 ^ 64
  start : Fits p (startData guid files.length)
  short : ∀ file ∈ files, (fileData guid 0 file).length < 2 ^ 63

/-- The file manager is set up and has not seen the guid. -/
structure Idle (manager : FileManager) (guid : Guid) : Prop where
  pool : manager.threadPool = some false
  callback : manager.callback = true
  entry : manager.fileConditions guid = none

/-- The callback was called once for the guid, with one entry for each file. -/
structure CompletedOnce (guid : Guid) (files : List FileInformation) (s : FileTransfer) : Prop where
  entry : s.files.manager.fileConditions guid = none
  called : ∃ outcomes reported, reported.Perm files ∧
    List.Forall₂ (fun outcome file => outcome.message = Converter.toString file.2) outcomes reported ∧
    (failuresOf outcomes).length + (successesOf outcomes).length = files.length ∧
    (s.files.calls.filter fun completion => completion.guid = guid) =
      [⟨guid, failuresOf outcomes, successesOf outcomes⟩]

theorem Connected.carry {p : Peers} (connected : Connected p) :
    ∀ data, data ≠ [] → Fits p data → ∃ coded image, CarriedBy p data coded image := by
  intro data nonempty fits
  obtain ⟨paired, faithful⟩ := connected.faithful
  obtain ⟨coded, image, carried, _⟩ := connected.matched.carried faithful .file nonempty fits.1 fits.2
  exact ⟨coded, image, carried⟩

theorem startData_ne_nil (guid : Guid) (count : Nat) : startData guid count ≠ [] := by
  rw [startData_eq]
  exact fields_ne_nil _ _

theorem Fits.length {p : Peers} {data : List UInt8} (fits : Fits p data) : data.length < 2 ^ 63 := by
  have longer := fits.1
  rw [DataHandler.packet_eq, List.length_append, Combiner.field_length,
    Combiner.field_length] at longer
  omega

theorem fileData_length (guid : Guid) (index : Nat) (file : FileInformation) :
    (fileData guid index file).length = (fileData guid 0 file).length := by
  have word : ∀ n, (Words.leWord Combiner.sizeBytes n).length = Combiner.sizeBytes :=
    fun n => Words.leWord_length _ n
  simp only [fileData_eq, Combiner.fields_cons, List.length_append, Combiner.field_length, word]

/-- The loop of `send_files`: induction on the files that are left. -/
theorem pushFiles_sends {p : Peers} {guid : Guid} {count index : Nat} {files : List FileInformation}
    (pool : p.sender.threadPool = some false) (bounded : index + files.length < 2 ^ 64)
    (short : ∀ file ∈ files, (fileData guid 0 file).length < 2 ^ 63) :
    List.Forall₂ (Sends p guid count) (p.sender.pushFiles guid index files).1
      (files.map .report) := by
  induction files generalizing index with
  | nil => exact .nil
  | cons file rest ih =>
      rw [List.forall_mem_cons] at short
      rw [List.length_cons] at bounded
      simp only [DataHandler.pushFiles, DataHandler.push_running pool, List.map_cons]
      refine .cons (.file (by omega) ?_) (ih (by omega) short.2)
      rw [fileData_length]
      exact short.1

/-- What `send_files` pushes. -/
theorem sendFiles_sends {p : Peers} {guid : Guid} {files : List FileInformation}
    (connected : Connected p) (sendable : Sendable p guid files) :
    List.Forall₂ (Sends p guid files.length) (p.sender.sendFiles guid files).1
      (.start :: files.map .report) := by
  obtain ⟨job, sent, of⟩ := sent_report connected.carry connected.matched.connected
    connected.matched.senderPool (startData_ne_nil guid files.length) sendable.start
  simp only [DataHandler.sendFiles, if_neg (not_not_intro connected.sender), sent]
  refine .cons (.packet rfl of) (pushFiles_sends connected.matched.senderPool ?_ sendable.short)
  rw [Nat.zero_add]
  exact sendable.countable

theorem initial_transferring {p : Peers} {guid : Guid} {files : List FileInformation}
    {manager : FileManager} {filesSaved : Nat} (connected : Connected p)
    (sendable : Sendable p guid files) (idle : Idle manager guid) :
    Transferring p guid files (initial (p.sender.sendFiles guid files).1 manager filesSaved) where
  sound := ⟨idle.pool, idle.callback, fun _ member => (by cases member),
    fun _ member => (by cases member)⟩
  phase := by
    refine .inl ⟨⟨idle.entry, List.not_mem_nil, List.not_mem_nil, rfl⟩, rfl, _, [], [], [],
      sendFiles_sends connected sendable, .nil, .nil, .nil, ?_⟩
    rw [List.append_nil, List.append_nil, List.append_nil]

theorem transferring_step {p : Peers} {guid : Guid} {files : List FileInformation}
    {s t : FileTransfer} {a : Action} (connected : Connected p) (sendable : Sendable p guid files)
    (positive : 1 ≤ files.length) (transferring : Transferring p guid files s)
    (allowed : Allowed p guid files.length s a) (stepped : step p s a = some t) :
    Transferring p guid files t := by
  cases a with
  | push => exact transferring.push stepped
  | sender position disk =>
      exact transferring.sender connected.carry connected.matched.connected
        connected.matched.senderPool allowed stepped
  | deliver => exact transferring.deliver connected.matched.receiverPool stepped
  | receiver position =>
      exact transferring.receiver sendable.plain positive sendable.countable sendable.start.length
        allowed stepped
  | check thread =>
      obtain ⟨files, did, same⟩ := Option.map_eq_some_iff.mp stepped
      subst same
      exact transferring.managed rfl rfl rfl did
  | job position =>
      obtain ⟨files, did, same⟩ := Option.map_eq_some_iff.mp stepped
      subst same
      exact transferring.managed rfl rfl rfl did
  | call position =>
      obtain ⟨files, did, same⟩ := Option.map_eq_some_iff.mp stepped
      subst same
      exact transferring.managed rfl rfl rfl did

/-- With nothing pending any more, the transfer of at least one file has completed once. -/
theorem transfer_completes_once {p : Peers} {guid : Guid} {files : List FileInformation}
    {manager : FileManager} {filesSaved : Nat} {actions : List Action} {s : FileTransfer}
    (connected : Connected p) (sendable : Sendable p guid files) (idle : Idle manager guid)
    (positive : 1 ≤ files.length)
    (ran : run (step p) (initial (p.sender.sendFiles guid files).1 manager filesSaved) actions =
      some s)
    (allowed : Along (step p) (Allowed p guid files.length)
      (initial (p.sender.sendFiles guid files).1 manager filesSaved) actions)
    (quiet : s.Quiet) : CompletedOnce guid files s := by
  have transferring : Transferring p guid files s := run_invariant
    (fun _ _ _ held allowed stepped =>
      transferring_step connected sendable positive held allowed stepped)
    (initial_transferring connected sendable idle) allowed ran
  rcases transferring.phase with before | ⟨outcomes, receiving⟩
  · have none_ := before.underway
    rw [quiet.1] at none_
    cases none_.quiet quiet.2.1
  · obtain ⟨reported, remaining, one, perm, underway⟩ := receiving.underway
    rw [quiet.1] at underway
    have nothing : remaining = [] := List.map_eq_nil_iff.mp (underway.quiet quiet.2.1)
    rw [nothing, List.append_nil] at perm
    have all : outcomes.length = files.length := one.length_eq.trans perm.length_eq
    have done := receiving.progress.quiet quiet.2.2 all
    refine ⟨done.entry, outcomes, reported, perm, one, ?_, ?_⟩
    · exact (recorded_targetCount files.length outcomes).trans all
    · have made := done.completions
      rw [FileManagement.completions, quiet.2.2.2.2, List.nil_append] at made
      exact made

section
variable {p : Peers} {guid : Guid} {count : Nat} {s : FileTransfer} {disk : List UInt8 → Opened}

theorem step_sender {job : Job} {worked : Worked} (only : s.link.sending = [job])
    (does : p.sender.sendingWork p.codecs disk job = some (.ok worked)) :
    step p s (.sender 0 disk) = some { s with link := s.link.settle true [] worked } := by
  have taken : takeAt s.link.sending 0 = some (job, []) := by
    rw [only]
    rfl
  simp only [step, taken, Option.bind_some, senderStep, does]

theorem step_deliver {image : List UInt8} (only : s.link.wire = [image])
    (pool : p.receiver.threadPool = some false) :
    step p s .deliver = some { s with
      link.wire := []
      link.receiving := s.link.receiving ++ [.decompressMessage image] } := by
  simp only [step, Link.step, only, DataHandler.push_running pool, Option.map_some]

theorem step_receiver {job next : Job} (only : s.link.receiving = [job])
    (does : p.receiver.work p.codecs job = some (.ok (.pushed next))) :
    step p s (.receiver 0) = some { s with link := s.link.settle false [] (.pushed next) } := by
  have taken : takeAt s.link.receiving 0 = some (job, []) := by
    rw [only]
    rfl
  simp only [step, taken, Option.bind_some, receiverStep, does]

theorem allowed_sender {job : Job} (only : s.link.sending = [job])
    (other : ∀ fileInformation, job ≠ .fileSendingJob fileInformation) :
    Allowed p guid count s (.sender 0 disk) := by
  intro index file rest taken
  rw [only] at taken
  cases taken
  exact absurd rfl (other _)

theorem allowed_receiver {job : Job} (only : s.link.receiving = [job])
    (other : ∀ packet, job ≠ .receivingJob packet) : Allowed p guid count s (.receiver 0) := by
  intro packet rest data taken
  rw [only] at taken
  cases taken
  exact absurd rfl (other _)

theorem allowed_fileSendingJob {index : Nat} {file : FileInformation} {data : List UInt8}
    (only : s.link.sending = [.fileSendingJob (fileData guid index file)])
    (small : (fileData guid index file).length < 2 ^ 63)
    (reports : reportData disk guid index file = some data) (fits : Fits p data) :
    Allowed p guid count s (.sender 0 disk) := by
  intro i other rest taken
  rw [only] at taken
  obtain ⟨same, _⟩ := Prod.mk.inj (Option.some.inj taken)
  obtain ⟨word, rfl⟩ := fileData_inj (Job.fileSendingJob.inj same) small
  refine ⟨data, ?_, fits⟩
  rw [← reports, reportData, reportData, word]

theorem allowed_receivingJob {data packet : List UInt8} (only : s.link.receiving = [.receivingJob packet])
    (works : receivingWork packet = .ok (.received DataModes.file.code data))
    (next : data ≠ startData guid count →
      (DataModes.file.code, startData guid count) ∈ s.link.received ∧
      ∃ read, FilePacket.read data = .ok read ∧ (s.receiving p).asks p.world p.caller read ≠ none) :
    Allowed p guid count s (.receiver 0) := by
  intro other rest data' taken works' different
  rw [only] at taken
  cases taken
  cases works.symm.trans works'
  obtain ⟨started, read, reads, asked⟩ := next different
  refine ⟨started, ?_⟩
  intro read' reads'
  cases reads.symm.trans reads'
  exact asked

/-- The steps that carry the only packet there is to the receiver. -/
def delivery (disk : List UInt8 → Opened) : List Action :=
  [.sender 0 disk, .sender 0 disk, .sender 0 disk, .deliver, .receiver 0, .receiver 0]

theorem runs_delivery {data coded image : List UInt8} (carried : CarriedBy p data coded image)
    (pool : p.receiver.threadPool = some false) (calling : List Job) (files : FileManagement)
    (filesSaved : Nat) (received : List (UInt8 × List UInt8)) :
    Runs (step p) (Allowed p guid count)
      ⟨calling, ⟨[.encryptMessage (DataHandler.packet .file data)], [], [], received⟩, files, filesSaved⟩
      (delivery disk)
      ⟨calling, ⟨[], [], [.receivingJob (DataHandler.packet .file data)], received⟩, files,
        filesSaved⟩ := by
  refine .cons (step_sender rfl carried.encrypts) (allowed_sender rfl nofun) ?_
  refine .cons (step_sender rfl carried.compresses) (allowed_sender rfl nofun) ?_
  refine .cons (step_sender rfl carried.sends) (allowed_sender rfl nofun) ?_
  refine .cons (step_deliver rfl pool) trivial ?_
  refine .cons (step_receiver rfl carried.decompresses) (allowed_receiver rfl nofun) ?_
  exact .cons (step_receiver rfl carried.decrypts) (allowed_receiver rfl nofun) (.nil _ _ _)

/-- The last job of the packet calls `received_file`. -/
theorem step_receives {data coded image : List UInt8} (carried : CarriedBy p data coded image)
    (calling : List Job) (files : FileManagement) (filesSaved : Nat)
    (received : List (UInt8 × List UInt8)) :
    step p ⟨calling, ⟨[], [], [.receivingJob (DataHandler.packet .file data)], received⟩, files,
        filesSaved⟩ (.receiver 0) =
      fileStep p ⟨calling, ⟨[], [], [], received ++ [(DataModes.file.code, data)]⟩, files, filesSaved⟩
        data := by
  have taken : takeAt [Job.receivingJob (DataHandler.packet .file data)] 0 =
    some (.receivingJob (DataHandler.packet .file data), []) := rfl
  simp only [step, taken, Option.bind_some, receiverStep, carried.receives, DataModes.ofCode_code,
    if_pos, Link.settle]

end

/-- The guid `0A1B-2C3D-4E5F-6071-8293`. -/
def sampleGuid : Guid :=
  [48, 65, 49, 66, 45, 50, 67, 51, 68, 45, 52, 69, 53, 70, 45, 54, 48, 55, 49, 45, 56, 50, 57, 51]

/-- The file `/d/a` with the message `hi`. -/
def sampleFile : FileInformation := ([47, 100, 47, 97], [104, 105])

/-- The packet of the file when `hi` is read from it. -/
def sampleReport : List UInt8 :=
  successData sampleGuid (leWord Combiner.sizeBytes 0) [104, 105] [104, 105]

/-- Packets with their AES-256-CBC ciphertexts under the sample key and IV. -/
def sampleResults : List (List UInt8 × List UInt8) :=
  [(DataHandler.packet .file (startData sampleGuid 1),
     [74, 219, 194, 56, 83, 55, 34, 161, 181, 53, 194, 55, 183, 17, 87, 58, 204, 158, 33, 105, 5,
      214, 75, 196, 41, 70, 246, 84, 206, 130, 174, 2, 69, 120, 164, 99, 22, 6, 7, 192, 139, 91,
      84, 56, 209, 186, 65, 241, 73, 97, 44, 236, 14, 186, 162, 68, 228, 5, 238, 143, 187, 64, 75,
      78, 8, 162, 125, 231, 183, 177, 34, 104, 180, 22, 153, 59, 172, 36, 224, 73]),
   (DataHandler.packet .file (startData sampleGuid 0),
     [74, 219, 194, 56, 83, 55, 34, 161, 181, 53, 194, 55, 183, 17, 87, 58, 153, 176, 104, 49, 17,
      13, 176, 220, 193, 181, 175, 208, 144, 18, 198, 90, 158, 239, 162, 245, 2, 238, 27, 85, 201,
      39, 114, 135, 205, 192, 133, 107, 124, 198, 146, 254, 175, 2, 189, 235, 53, 30, 188, 227,
      146, 189, 78, 197, 109, 119, 152, 47, 153, 66, 120, 190, 100, 242, 196, 230, 123, 167, 59,
      221]),
   (DataHandler.packet .file sampleReport,
     [98, 8, 200, 5, 95, 171, 89, 103, 186, 247, 193, 36, 235, 157, 237, 242, 183, 130, 54, 47,
      60, 130, 4, 124, 211, 55, 93, 197, 6, 30, 244, 97, 69, 49, 91, 1, 112, 82, 196, 185, 103,
      139, 101, 247, 163, 175, 228, 85, 233, 147, 203, 181, 163, 127, 126, 30, 126, 114, 140, 42,
      215, 141, 202, 183, 89, 14, 112, 82, 192, 2, 36, 224, 253, 184, 38, 82, 9, 13, 194, 131,
      102, 134, 228, 142, 67, 27, 250, 129, 176, 151, 43, 244, 180, 85, 254, 194])]

/-- Two peers with encryption on; every received file is saved as `/t`. -/
def samplePeers : Peers where
  codecs := ⟨.literals, .known sampleResults⟩
  world := { World.empty with saveTempPath := fun _ _ => .ok (some [47, 116]) }
  sender := Link.encrypted
  receiver := { Peer.connected with toDataHandler := Link.encrypted }
  caller := none

def sampleManager : FileManager := { Peer.connected.fileManager with callback := true }

theorem distinct_sampleResults : Cipher.Distinct sampleResults := by decide

theorem samplePeers_connected : Connected samplePeers where
  faithful := ⟨_, Lz4.literals_faithful⟩
  matched := { Link.encrypted_matched with
    keys := fun _ => ⟨rfl, rfl, by decide, by decide, Cipher.known_inverts distinct_sampleResults⟩ }
  sender := rfl
  receiver := rfl

theorem sampleManager_idle : Idle sampleManager sampleGuid := ⟨rfl, rfl, rfl⟩

theorem samplePeers_fits {data coded : List UInt8}
    (member : (DataHandler.packet .file data, coded) ∈ sampleResults) : Fits samplePeers data := by
  have every : ∀ result ∈ sampleResults, result.1.length < 2 ^ 63 ∧
      Link.encrypted.encryptMessage samplePeers.codecs result.1 =
        .ok (.pushed (.compressMessage result.2)) ∧
      result.2 ≠ [] ∧ result.2.length ≤ blockBytes.toNat := by decide
  obtain ⟨short, encrypts, nonempty, one⟩ := every _ member
  refine ⟨short, small_of_single Lz4.literals_faithful ?_⟩
  intro other encrypts'
  cases encrypts.symm.trans encrypts'
  exact ⟨nonempty, one⟩

theorem samplePeers_sendable {files : List FileInformation}
    (one : files = [] ∨ files = [sampleFile]) : Sendable samplePeers sampleGuid files := by
  rcases one with rfl | rfl
  · exact ⟨by decide, by decide, samplePeers_fits (List.mem_cons_of_mem _ List.mem_cons_self), by decide⟩
  · exact ⟨by decide, by decide, samplePeers_fits List.mem_cons_self, by decide⟩

/-- The disk of the sample peers: every file holds `hi`. -/
def sampleDisk : List UInt8 → Opened := fun _ => .read [104, 105]

/-- A call of `send_files` once its start packet has been received. -/
def started (count : Nat) (calling : List Job) : FileTransfer :=
  ⟨calling, ⟨[], [], [], [(DataModes.file.code, startData sampleGuid count)]⟩,
    ⟨(sampleManager.start sampleGuid count).1, [], [], [], []⟩, 0⟩

theorem runs_started {count : Nat} {coded : List UInt8} (countable : count < 2 ^ 64)
    (member : (DataHandler.packet .file (startData sampleGuid count), coded) ∈ sampleResults)
    (calling : List Job) :
    Runs (step samplePeers) (Allowed samplePeers sampleGuid count)
      (initial (.encryptMessage (DataHandler.packet .file (startData sampleGuid count)) :: calling)
        sampleManager 0)
      (.push :: delivery sampleDisk ++ [.receiver 0]) (started count calling) := by
  have fits := samplePeers_fits member
  obtain ⟨coded, image, carried⟩ := samplePeers_connected.carry _ (startData_ne_nil _ _) fits
  refine .append (.cons rfl trivial (runs_delivery carried rfl _ _ _ _)) (.cons ?_ ?_ (.nil _ _ _))
  · rw [step_receives carried, fileStep, read_startData countable fits.length]
    rfl
  · exact allowed_receivingJob rfl (Option.some.inj carried.receives) fun other => absurd rfl other

/-- And once the report of its one file has been received. -/
def reported : FileTransfer :=
  ⟨[], ⟨[], [], [], (started 1 []).link.received ++ [(DataModes.file.code, sampleReport)]⟩,
    (started 1 []).files.recordStep sampleGuid (.success [104, 105] [47, 116]), 1⟩

theorem runs_reported :
    Runs (step samplePeers) (Allowed samplePeers sampleGuid 1)
      (started 1 [.fileSendingJob (fileData sampleGuid 0 sampleFile)])
      (.push :: .sender 0 sampleDisk :: delivery sampleDisk ++ [.receiver 0]) reported := by
  have fits : Fits samplePeers sampleReport :=
    samplePeers_fits (List.mem_cons_of_mem _ (List.mem_cons_of_mem _ List.mem_cons_self))
  have small : (fileData sampleGuid 0 sampleFile).length < 2 ^ 63 := by decide
  have reports : reportData sampleDisk sampleGuid 0 sampleFile = some sampleReport := rfl
  have read : FilePacket.read sampleReport = .ok (.success sampleGuid 0 [104, 105] [104, 105]) :=
    read_successData (by decide) fits.length
  obtain ⟨coded, image, carried⟩ := samplePeers_connected.carry _ (reportData_ne_nil reports) fits
  have sends : samplePeers.sender.sendingWork samplePeers.codecs sampleDisk
      (.fileSendingJob (fileData sampleGuid 0 sampleFile)) =
        some (.ok (.pushed (.encryptMessage (DataHandler.packet .file sampleReport)))) :=
    congrArg some (fileSendingWork_fileData _ small reports)
  refine .append (.cons rfl trivial (.cons (step_sender rfl sends)
    (allowed_fileSendingJob rfl small reports fits) (runs_delivery carried rfl _ _ _ _)))
    (.cons ?_ ?_ (.nil _ _ _))
  · rw [step_receives carried, fileStep, read]
    rfl
  · exact allowed_receivingJob rfl (Option.some.inj carried.receives) fun _ =>
      ⟨List.mem_singleton_self _, _, read, fun same => by cases same⟩

theorem runs_called : ∃ s,
    Runs (step samplePeers) (Allowed samplePeers sampleGuid 1) reported [.check 0, .job 0, .call 0] s ∧
      s.Quiet :=
  ⟨_, .cons rfl trivial (.cons rfl trivial (.cons rfl trivial (.nil _ _ _))), rfl, ⟨rfl, rfl, rfl⟩,
    rfl, rfl, rfl⟩

theorem transfer_completes_once_of_one : ∃ actions s,
    run (step samplePeers)
      (initial (samplePeers.sender.sendFiles sampleGuid [sampleFile]).1 sampleManager 0) actions =
        some s ∧
      s.Quiet ∧ CompletedOnce sampleGuid [sampleFile] s := by
  obtain ⟨s, called, quiet⟩ := runs_called
  obtain ⟨ran, along⟩ := ((runs_started (by decide) List.mem_cons_self _).append runs_reported).append
    called
  exact ⟨_, s, ran, quiet, transfer_completes_once samplePeers_connected
    (samplePeers_sendable (.inr rfl)) sampleManager_idle (by decide) ran along quiet⟩

/-- A call without files leaves its entry behind, and so does one whose only file makes
`File::open` throw, as when `/d` cannot be created: the callback is never called. -/
theorem transfer_stays_open :
    Connected samplePeers ∧ Idle sampleManager sampleGuid ∧
    (Sendable samplePeers sampleGuid [] ∧ ∃ actions s,
      run (step samplePeers) (initial (samplePeers.sender.sendFiles sampleGuid []).1 sampleManager 0)
        actions = some s ∧ s.Quiet ∧ s.files.calls = [] ∧ ¬ CompletedOnce sampleGuid [] s) ∧
    (Sendable samplePeers sampleGuid [sampleFile] ∧ ∃ actions s,
      run (step samplePeers)
        (initial (samplePeers.sender.sendFiles sampleGuid [sampleFile]).1 sampleManager 0) actions =
          some s ∧
        s.Quiet ∧ s.files.calls = [] ∧ ¬ CompletedOnce sampleGuid [sampleFile] s) := by
  have none_ := @runs_started 0 _ (by decide) (List.mem_cons_of_mem _ List.mem_cons_self) []
  have one := @runs_started 1 _ (by decide) List.mem_cons_self
    [.fileSendingJob (fileData sampleGuid 0 sampleFile)]
  have throws : samplePeers.sender.sendingWork samplePeers.codecs (fun _ => .thrown "filesystem error")
      (.fileSendingJob (fileData sampleGuid 0 sampleFile)) =
        some (.ok (.thrown "filesystem error")) := by decide
  have thrown : run (step samplePeers) (started 1 [.fileSendingJob (fileData sampleGuid 0 sampleFile)])
      [.push, .sender 0 fun _ => .thrown "filesystem error"] = some (started 1 []) :=
    run_cons.mpr ⟨_, rfl, run_single (step_sender rfl throws)⟩
  refine ⟨samplePeers_connected, sampleManager_idle,
    ⟨samplePeers_sendable (.inl rfl), _, _, none_.1, ⟨rfl, ⟨rfl, rfl, rfl⟩, rfl, rfl, rfl⟩, rfl, ?_⟩,
    samplePeers_sendable (.inr rfl), _, _, run_append.mpr ⟨_, one.1, thrown⟩,
    ⟨rfl, ⟨rfl, rfl, rfl⟩, rfl, rfl, rfl⟩, rfl, ?_⟩
  · intro completed
    cases completed.entry
  · intro completed
    cases completed.entry

end FileTransfer
end CppToolkit.Network
