import CppToolkit.Network.Peer
import CppToolkit.Network.Pipeline

/-! `send_files` on one confirmed peer and `received_file` on the other, with every job
between them and the file manager of the receiver. -/
namespace CppToolkit.Network
open Words Memory Utilities Combiner Bag

/-- What `File::open` and `read_bytes` come to for one path. -/
inductive Opened where
  | read (bytes : List UInt8)
  | failed
  | thrown (what : String)
  deriving DecidableEq, Repr

/-- The path and the message of a file to send. -/
abbrev FileInformation := List UInt8 × List UInt8

def startData (guid : Guid) (fileCount : Nat) : List UInt8 :=
  append (append (append [] (Converter.toArray guid)) [FileModes.start.code])
    (leWord sizeBytes fileCount)

def fileData (guid : Guid) (index : Nat) (file : FileInformation) : List UInt8 :=
  append (append (append (append [] (Converter.toArray guid)) (leWord sizeBytes index))
    (Converter.toArray file.1)) (Converter.toArray file.2)

def failureData (guid fileIndex fileMessage : List UInt8) : List UInt8 :=
  append (append (append (append [] guid) [FileModes.failure.code]) fileIndex) fileMessage

def successData (guid fileIndex fileMessage sourceData : List UInt8) : List UInt8 :=
  append (append (append (append (append [] guid) [FileModes.success.code]) fileIndex) fileMessage)
    sourceData

namespace DataHandler

/-- The loop of `send_files`: the jobs it pushes, and its reply. -/
def pushFiles (h : DataHandler) (guid : Guid) :
    Nat → List FileInformation → List Job × Except String Unit
  | _, [] => ([], .ok ())
  | index, file :: rest =>
      match h.push (.fileSendingJob (fileData guid index file)) with
      | .error what => ([], .error what)
      | .ok job =>
          let (jobs, reply) := h.pushFiles guid (index + 1) rest
          (job :: jobs, reply)

/-- `guid` is the one that `Generator::guid` has returned. -/
def sendFiles (h : DataHandler) (guid : Guid) (files : List FileInformation) :
    List Job × Except String Unit :=
  if h.condition ≠ .confirmed then
    ([], .error ("cannot send binary due to connect condition on " ++ Converter.text h.id ++
      ": not confirmed"))
  else
    match h.send .file (startData guid files.length) with
    | .error what => ([], .error what)
    | .ok job =>
        let (jobs, reply) := h.pushFiles guid 0 files
        (job :: jobs, reply)

/-- `FileSendingJob::working`, with the file system as the job finds it. -/
def fileSendingWork (h : DataHandler) (disk : List UInt8 → Opened) (fileInformation : List UInt8) :
    Checked Worked :=
  if fileInformation = [] then .ok (.refused "cannot complete FileSendingJob with null data")
  else do
    let (guid, index) ← divide fileInformation 0
    let (fileIndex, index) ← divide fileInformation index
    let (filePath, index) ← divide fileInformation index
    let (fileMessage, _) ← divide fileInformation index
    match disk (Converter.toString filePath) with
    | .thrown what => .ok (.thrown what)
    | .failed => .ok (.ofPush (h.send .file (failureData guid fileIndex fileMessage)))
    | .read sourceData =>
        .ok (.ofPush (h.send .file (successData guid fileIndex fileMessage sourceData)))

/-- The jobs of the sender. -/
def sendingWork (c : Codecs) (h : DataHandler) (disk : List UInt8 → Opened) :
    Job → Option (Checked Worked)
  | .fileSendingJob fileInformation => some (h.fileSendingWork disk fileInformation)
  | job => h.work c job

end DataHandler

namespace Peer

/-- What `received_file` asks of the file manager, if no exception comes before. -/
def asks (w : World) (caller : Caller) (p : Peer) : FilePacket → Option FileManagement.Action
  | .start guid fileCount => some (.start guid fileCount)
  | .failure guid _ message => some (.record guid (.failure message))
  | .success guid _ message fileData =>
      match w.saveTempPath p.filesSaved fileData with
      | .error _ => none
      | .ok none => some (.record guid (.failure message))
      | .ok (some tempFilePath) =>
          match p.receivedFileCallback with
          | none => some (.record guid (.success message tempFilePath))
          | some callback =>
              match callback caller message tempFilePath with
              | .error _ => none
              | .ok _ => some (.record guid (.success message tempFilePath))

theorem managed_fileManager {p : Peer} {result : Checked (FileManager × Except String (Option Job))}
    {h : Handling Peer Effect} (handled : p.managed result = .ok h) :
    ∃ reply, result = .ok (h.peer.fileManager, reply) := by
  cases result with
  | error fault => cases handled
  | ok pair =>
      obtain ⟨manager, reply⟩ := pair
      rcases reply with what | job
      · cases handled
        exact ⟨_, rfl⟩
      · cases job <;> cases handled <;> exact ⟨_, rfl⟩

/-- The handler performs exactly what it asks for. -/
theorem handleFilePacket_asks {w : World} {caller : Caller} {p : Peer} {packet : FilePacket}
    {h : Handling Peer Effect} (handled : p.handleFilePacket w caller packet = .ok h) :
    match p.asks w caller packet with
    | some (.start guid fileCount) => h.peer.fileManager = (p.fileManager.start guid fileCount).1
    | some (.record guid outcome) =>
        ∃ reply, p.fileManager.report guid outcome = .ok (h.peer.fileManager, reply)
    | _ => h.peer.fileManager = p.fileManager := by
  cases packet with
  | start guid fileCount =>
      cases handled
      rfl
  | failure guid fileCount message => exact managed_fileManager handled
  | success guid fileCount message fileData =>
      simp only [handleFilePacket, saveFile] at handled
      simp only [asks]
      cases saved : w.saveTempPath p.filesSaved fileData with
      | error what =>
          simp only [saved] at handled
          cases handled
          rfl
      | ok path =>
          cases path with
          | none =>
              simp only [saved] at handled
              exact managed_fileManager handled
          | some path =>
              simp only [saved] at handled
              cases set : p.receivedFileCallback with
              | none =>
                  simp only [set] at handled
                  exact managed_fileManager handled
              | some callback =>
                  simp only [set] at handled ⊢
                  cases called : callback caller message path with
                  | error what =>
                      simp only [called] at handled
                      cases handled
                      rfl
                  | ok reply =>
                      simp only [called] at handled
                      obtain ⟨stored, managed, rfl⟩ := map_eq_ok.mp handled
                      have kept := managed_fileManager managed
                      exact kept

end Peer

/-- One call of `send_files` with what it has still to push, the pending jobs and frames,
and the file manager of the receiver with the threads inside it. -/
structure FileTransfer where
  calling : List Job
  link : Link
  files : FileManagement
  filesSaved : Nat

/-- The two peers with their libraries and surroundings. -/
structure Peers where
  codecs : Codecs
  world : World
  sender : DataHandler
  receiver : Peer
  caller : Caller

namespace FileTransfer

/-- `disk` is the file system as a sender's job finds it. -/
inductive Action where
  | push
  | sender (position : Nat) (disk : List UInt8 → Opened)
  | deliver
  | receiver (position : Nat)
  | check (thread : Nat)
  | job (position : Nat)
  | call (position : Nat)

/-- The transfer that the caller of `send_files` begins. -/
def initial (jobs : List Job) (manager : FileManager) (filesSaved : Nat) : FileTransfer :=
  ⟨jobs, ⟨[], [], [], []⟩, ⟨manager, [], [], [], []⟩, filesSaved⟩

def senderStep (p : Peers) (s : FileTransfer) (disk : List UInt8 → Opened) (job : Job)
    (rest : List Job) : Option FileTransfer :=
  match p.sender.sendingWork p.codecs disk job with
  | some (.ok worked) => some { s with link := s.link.settle true rest worked }
  | _ => none

/-- The receiver as its next job finds it. -/
def receiving (p : Peers) (s : FileTransfer) : Peer :=
  { p.receiver with fileManager := s.files.manager, filesSaved := s.filesSaved }

/-- `received_file`; the check behind a recorded outcome is a step of its own. -/
def fileStep (p : Peers) (s : FileTransfer) (data : List UInt8) : Option FileTransfer :=
  match FilePacket.read data with
  | .error _ => none
  | .ok packet =>
      let saves := match packet with
        | .success _ _ _ _ => 1
        | _ => 0
      match (s.receiving p).asks p.world p.caller packet with
      | none => some { s with filesSaved := s.filesSaved + saves }
      | some action =>
          (s.files.step action).map fun files => { s with files, filesSaved := s.filesSaved + saves }

/-- A job of the receiver; packets of the other modes do not concern the transfer. -/
def receiverStep (p : Peers) (s : FileTransfer) (job : Job) (rest : List Job) : Option FileTransfer :=
  match p.receiver.work p.codecs job with
  | some (.ok (.received mode data)) =>
      let s := { s with link := s.link.settle false rest (.received mode data) }
      if DataModes.ofCode mode = some .file then s.fileStep p data else some s
  | some (.ok worked) => some { s with link := s.link.settle false rest worked }
  | _ => none

def step (p : Peers) (s : FileTransfer) : Action → Option FileTransfer
  | .push =>
      match s.calling with
      | [] => none
      | job :: calling => some { s with calling, link.sending := s.link.sending ++ [job] }
  | .sender position disk =>
      (takeAt s.link.sending position).bind fun (job, rest) => s.senderStep p disk job rest
  | .deliver =>
      (Link.step p.codecs p.sender p.receiver.toDataHandler s.link .deliver).map fun link =>
        { s with link }
  | .receiver position =>
      (takeAt s.link.receiving position).bind fun (job, rest) => s.receiverStep p job rest
  | .check thread => (s.files.step (.check thread)).map fun files => { s with files }
  | .job position => (s.files.step (.job position)).map fun files => { s with files }
  | .call position => (s.files.step (.call position)).map fun files => { s with files }

/-- Nothing is left to push, to run or to deliver. -/
def Quiet (s : FileTransfer) : Prop := s.calling = [] ∧ s.link.Quiet ∧ s.files.Quiet

end FileTransfer
end CppToolkit.Network
