import CppToolkit.Network.FileTransferPackets
import CppToolkit.Network.Messages
import CppToolkit.Network.Shipments
import CppToolkit.Library.Machine

/-! Any number of calls of `send_files` at once: every packet that the other side enters into its
file manager is one that was reported, a file with the bytes that its job found. -/
namespace CppToolkit.Network
open Words Memory Utilities Combiner Bag Machine

/-- A `FileSendingJob` of `send_files`. -/
structure Task where
  guid : Guid
  index : Nat
  file : FileInformation
  deriving DecidableEq, Repr

/-- What a packet of a transfer reports: its start, or a file, with its bytes if it could be
opened. -/
inductive Report where
  | start (guid : Guid) (fileCount : Nat)
  | file (task : Task) (contents : Option (List UInt8))
  deriving DecidableEq, Repr

/-- No exception comes from `save_temp_path` or from the callback of the application. -/
structure Peer.Stores (w : World) (p : Peer) : Prop where
  saves : ∀ bytes, ∃ saved, w.saveTempPath p.filesSaved bytes = .ok saved
  returns : ∀ callback, p.receivedFileCallback = some callback → ∀ caller message tempFilePath,
    ∃ reply, callback caller message tempFilePath = .ok reply

namespace Task

def data (task : Task) : List UInt8 := fileData task.guid task.index task.file

def job (task : Task) : Job := .fileSendingJob task.data

/-- The path that the job opens. -/
def path (task : Task) : List UInt8 := Converter.toString task.file.1

def report (task : Task) : Opened → Option Report
  | .thrown _ => none
  | .failed => some (.file task none)
  | .read bytes => some (.file task (some bytes))

/-- The jobs of one call. -/
def ofCall (guid : Guid) : Nat → List FileInformation → List Task
  | _, [] => []
  | index, file :: rest => ⟨guid, index, file⟩ :: ofCall guid (index + 1) rest

theorem index_lt {guid : Guid} {start : Nat} {files : List FileInformation} {task : Task}
    (member : task ∈ ofCall guid start files) : task.index < start + files.length := by
  induction files generalizing start with
  | nil => cases member
  | cons file rest ih =>
      rw [List.length_cons]
      rcases List.mem_cons.mp member with rfl | later
      · exact Nat.lt_add_of_pos_right (Nat.succ_pos _)
      · have bounded := ih later
        omega

end Task

namespace Report

def data : Report → List UInt8
  | .start guid fileCount => startData guid fileCount
  | .file task none => failureData task.guid (leWord sizeBytes task.index) task.file.2
  | .file task (some bytes) =>
      successData task.guid (leWord sizeBytes task.index) task.file.2 bytes

def cargo (report : Report) : Shipment := ⟨.file, report.data⟩

/-- What `received_file` is to make of it. -/
def packet : Report → FilePacket
  | .start guid fileCount => .start (Converter.toString guid) fileCount
  | .file task none =>
      .failure (Converter.toString task.guid) task.index (Converter.toString task.file.2)
  | .file task (some bytes) =>
      .success (Converter.toString task.guid) task.index (Converter.toString task.file.2) bytes

def task? : Report → Option Task
  | .start _ _ => none
  | .file task _ => some task

def start? : Report → Option (Guid × Nat)
  | .start guid fileCount => some (guid, fileCount)
  | .file _ _ => none

/-- The number in its packet is a `size_t`. -/
def Countable : Report → Prop
  | .start _ fileCount => fileCount < 2 ^ 64
  | .file task _ => task.index < 2 ^ 64

/-- What the file manager is after the report; the bytes of a file are saved first. -/
def entered (w : World) (filesSaved : Nat) (m : FileManager) : Report → Checked FileManager
  | .start guid fileCount => .ok (m.start (Converter.toString guid) fileCount).1
  | .file task none =>
      (m.failure (Converter.toString task.guid) (Converter.toString task.file.2)).map Prod.fst
  | .file task (some bytes) =>
      let guid := Converter.toString task.guid
      let message := Converter.toString task.file.2
      match w.saveTempPath filesSaved bytes with
      | .ok (some tempFilePath) => (m.success guid message tempFilePath).map Prod.fst
      | _ => (m.failure guid message).map Prod.fst

/-- `received_data` of every confirmed session and client handles the packet of the report, and
enters it into the file manager unless the disk or the application throws. -/
structure Reads (got : UInt8 × List UInt8) (report : Report) : Prop where
  session : ∀ w, ∀ s : NetworkSession, s.condition = .confirmed →
    s.onReceivedData w got.1 got.2 = (s.toPeer.handleFilePacket w s.caller report.packet).map
        (Handling.map fun p => { s with toPeer := p }) ∧
      (s.toPeer.Stores w → (s.onReceivedData w got.1 got.2).map (fun h => h.peer.fileManager) =
        report.entered w s.filesSaved s.fileManager)
  client : ∀ w, ∀ c : NetworkClient, c.condition = .confirmed →
    c.onReceivedData w got.1 got.2 = (c.toPeer.handleFilePacket w none report.packet).map
        (Handling.map fun p => { c with toPeer := p }) ∧
      (c.toPeer.Stores w → (c.onReceivedData w got.1 got.2).map (fun h => h.peer.fileManager) =
        report.entered w c.filesSaved c.fileManager)

theorem data_ne_nil (report : Report) : report.data ≠ [] := by
  rcases report with _ | ⟨task, _ | bytes⟩
  · rw [data, startData_eq]
    exact fields_ne_nil _ _
  · rw [data, failureData_eq]
    exact fields_ne_nil _ _
  · rw [data, successData_eq]
    exact fields_ne_nil _ _

/-- What was reported is read again. -/
theorem read_data {report : Report} (countable : report.Countable)
    (small : report.data.length < 2 ^ 63) : FilePacket.read report.data = .ok report.packet := by
  rcases report with _ | ⟨task, _ | bytes⟩
  · exact read_startData countable small
  · exact read_failureData countable small
  · exact read_successData countable small

theorem managed_entered (p : Peer) (result : Checked (FileManager × Except String (Option Job))) :
    (p.managed result).map (fun h => h.peer.fileManager) = result.map Prod.fst := by
  cases result with
  | error fault => rfl
  | ok pair =>
      obtain ⟨manager, reply⟩ := pair
      rcases reply with what | job
      · rfl
      · cases job <;> rfl

theorem handleFilePacket_entered {w : World} {p : Peer} (stores : p.Stores w) (caller : Caller)
    (report : Report) :
    (p.handleFilePacket w caller report.packet).map (fun h => h.peer.fileManager) =
      report.entered w p.filesSaved p.fileManager := by
  have kept : ∀ (handled : Checked (Handling Peer Effect)) (called : List Effect),
      (handled.map fun h => { h with effects := called ++ h.effects }).map
        (fun h => h.peer.fileManager) = handled.map fun h => h.peer.fileManager := by
    intro handled called
    cases handled <;> rfl
  rcases report with _ | ⟨task, _ | bytes⟩
  · rfl
  · exact managed_entered _ _
  · obtain ⟨saved, saves⟩ := stores.saves bytes
    unfold entered
    simp only [packet, Peer.handleFilePacket, Peer.saveFile, saves]
    cases saved with
    | none => exact managed_entered _ _
    | some tempFilePath =>
        cases callback : p.receivedFileCallback with
        | none => exact managed_entered _ _
        | some called =>
            obtain ⟨reply, returned⟩ := stores.returns called callback caller
              (Converter.toString task.file.2) tempFilePath
            simp only [returned]
            exact (kept _ _).trans (managed_entered _ _)

theorem reads_arrival {c : Codecs} {sender : DataHandler} {report : Report}
    (countable : report.Countable) (fits : report.cargo.Fits c sender) :
    Reads report.cargo.arrival report := by
  have small : report.data.length < 2 ^ 63 := by
    have longer := fits.1
    rw [Shipment.packet, DataHandler.packet_eq, List.length_append, field_length,
      field_length] at longer
    simp only [cargo] at longer
    omega
  have handled : ∀ w caller, ∀ p : Peer, p.handleFile w caller report.data =
      p.handleFilePacket w caller report.packet := by
    intro w caller p
    simp only [Peer.handleFile, if_neg report.data_ne_nil, read_data countable small]
    rfl
  constructor
  · intro w s confirmed
    have whole : s.onReceivedData w report.cargo.arrival.1 report.cargo.arrival.2 =
        (s.toPeer.handleFilePacket w s.caller report.packet).map
          (Handling.map fun p => { s with toPeer := p }) := by
      have shared : s.onReceivedData w report.cargo.arrival.1 report.cargo.arrival.2 =
          s.expireFirst w "file" fun p => p.handleFile w s.caller report.data := rfl
      rw [shared, s.expireFirst_confirmed confirmed, handled]
    refine ⟨whole, fun stores => ?_⟩
    rw [whole, ← handleFilePacket_entered stores s.caller]
    cases s.toPeer.handleFilePacket w s.caller report.packet <;> rfl
  · intro w c confirmed
    have whole : c.onReceivedData w report.cargo.arrival.1 report.cargo.arrival.2 =
        (c.toPeer.handleFilePacket w none report.packet).map
          (Handling.map fun p => { c with toPeer := p }) := by
      have live : c.condition ≠ .expired := by
        rw [confirmed]
        decide
      have shared : c.onReceivedData w report.cargo.arrival.1 report.cargo.arrival.2 =
          c.expireFirst "file" fun p => p.handleFile w none report.data := if_neg live
      rw [shared, c.expireFirst_confirmed confirmed, handled]
    refine ⟨whole, fun stores => ?_⟩
    rw [whole, ← handleFilePacket_entered stores none]
    cases c.toPeer.handleFilePacket w none report.packet <;> rfl

end Report

/-- The jobs of files that wait, the packets on their way, and the calls that returned
success so far. -/
structure FileTraffic where
  waiting : List Job
  link : Link
  calls : List (Guid × List FileInformation)
  deriving DecidableEq, Repr

namespace FileTraffic

/-- `disk` is the file system as the job of a file finds it. -/
inductive Action where
  | call (guid : Guid) (files : List FileInformation)
  | file (position : Nat) (disk : List UInt8 → Opened)
  | link (action : Link.Action)

def initial : FileTraffic := ⟨[], ⟨[], [], [], []⟩, []⟩

def ofFile : Job → Bool
  | .fileSendingJob _ => true
  | _ => false

/-- What a call pushes before it returns stays pushed when it fails. -/
def send (sender : DataHandler) (s : FileTraffic) (guid : Guid) (files : List FileInformation) :
    FileTraffic :=
  let (jobs, reply) := sender.sendFiles guid files
  { waiting := s.waiting ++ jobs.filter ofFile
    link := { s.link with sending := s.link.sending ++ jobs.filter fun job => !ofFile job }
    calls := match reply with
      | .ok () => s.calls ++ [(guid, files)]
      | .error _ => s.calls }

def step (c : Codecs) (sender receiver : DataHandler) (s : FileTraffic) :
    Action → Option FileTraffic
  | .call guid files => some (s.send sender guid files)
  | .file position disk =>
      (takeAt s.waiting position).bind fun (job, rest) =>
        match sender.sendingWork c disk job with
        | some (.ok (.pushed next)) => some
            { s with waiting := rest, link := { s.link with sending := s.link.sending ++ [next] } }
        | some (.ok _) => some { s with waiting := rest }
        | _ => none
  | .link action => (s.link.step c sender receiver action).map fun link => { s with link }

/-- All files that the calls named. -/
def tasks (s : FileTraffic) : List Task :=
  s.calls.flatMap fun call => Task.ofCall call.1 0 call.2

/-- The packets of the calls and of their files are ones that the codecs can carry, whatever
the jobs of the files find. -/
structure Suits (c : Codecs) (sender : DataHandler) (all : List Action) : Prop where
  start : ∀ guid files, Action.call guid files ∈ all →
    files.length < 2 ^ 64 ∧ (Report.start guid files.length).cargo.Fits c sender
  file : ∀ guid files, Action.call guid files ∈ all → ∀ position disk,
    Action.file position disk ∈ all → ∀ task ∈ Task.ofCall guid 0 files,
      task.data.length < 2 ^ 63 ∧
        ∀ report, task.report (disk task.path) = some report → report.cargo.Fits c sender

/-- Where a report of a file has its bytes from. -/
def Honest (all : List Action) : Report → Prop
  | .start _ _ => True
  | .file task contents => ∃ position disk, Action.file position disk ∈ all ∧
      disk task.path = match contents with
        | none => .failed
        | some bytes => .read bytes

/-- `File::open` has thrown for this file. -/
def Dropped (all : List Action) (task : Task) : Prop :=
  ∃ position disk what, Action.file position disk ∈ all ∧ disk task.path = .thrown what

/-- Each call has been announced once, and each of its files waits, has been reported once, or
has been dropped. -/
structure Reporting (c : Codecs) (sender receiver : DataHandler) (all : List Action)
    (s : FileTraffic) (reports : List Report) (waiting dropped : List Task) : Prop where
  accounted : s.link.Accounted Report.cargo c sender receiver reports
  waits : List.Forall₂ (fun job task => job = Task.job task) s.waiting waiting
  called : ∀ call ∈ s.calls, Action.call call.1 call.2 ∈ all
  starts : (reports.filterMap Report.start?).Perm (s.calls.map fun call => (call.1, call.2.length))
  files : (reports.filterMap Report.task? ++ (waiting ++ dropped)).Perm s.tasks
  reads : ∀ report ∈ reports, Report.Reads report.cargo.arrival report
  honest : ∀ report ∈ reports, Honest all report
  drops : ∀ task ∈ dropped, Dropped all task

theorem fileSendingWork_thrown (h : DataHandler) {disk : List UInt8 → Opened} {guid : Guid}
    {index : Nat} {file : FileInformation} (small : (fileData guid index file).length < 2 ^ 63)
    {what : String} (opened : disk (Converter.toString file.1) = .thrown what) :
    h.fileSendingWork disk (fileData guid index file) = .ok (.thrown what) := by
  rw [fileData_eq] at small ⊢
  have small := lt_sizeMax small
  have first := divide_fields [] guid _ small
  have second := divide_fields [guid] (leWord sizeBytes index) _ small
  have third := divide_fields [guid, leWord sizeBytes index] file.1 _ small
  have fourth := divide_fields [guid, leWord sizeBytes index, file.1] file.2 [] small
  have zero : (fields []).length = 0 := rfl
  rw [zero] at first
  simp only [List.nil_append, List.cons_append] at first second third fourth
  simp only [DataHandler.fileSendingWork, if_neg (fields_ne_nil _ _), first, second, third, fourth,
    ok_bind, opened]

section
variable {sender : DataHandler} {guid : Guid} {files : List FileInformation}

/-- The loop of `send_files`: induction on the files that are left. -/
theorem pushFiles_jobs (pool : sender.threadPool = some false) (index : Nat) :
    sender.pushFiles guid index files = ((Task.ofCall guid index files).map Task.job, .ok ()) := by
  induction files generalizing index with
  | nil => rfl
  | cons file rest ih =>
      rw [DataHandler.pushFiles, DataHandler.push_running pool]
      dsimp only
      rw [ih]
      rfl

/-- A call pushes the first job of its start packet and one job for each file, or nothing. -/
theorem sendFiles_jobs (pool : sender.threadPool = some false) :
    sender.sendFiles guid files =
        (.encryptMessage (Report.start guid files.length).cargo.packet ::
          (Task.ofCall guid 0 files).map Task.job, .ok ()) ∨
      ∃ what, sender.sendFiles guid files = ([], .error what) := by
  unfold DataHandler.sendFiles
  split
  next => exact .inr ⟨_, rfl⟩
  next =>
    cases sent : sender.send .file (startData guid files.length) with
    | error what => exact .inr ⟨what, rfl⟩
    | ok job =>
        obtain ⟨_, rfl⟩ := DataHandler.send_eq_ok sent
        dsimp only
        rw [pushFiles_jobs pool]
        exact .inl rfl

theorem filter_jobs (tasks : List Task) :
    (tasks.map Task.job).filter ofFile = tasks.map Task.job ∧
      (tasks.map Task.job).filter (fun job => !ofFile job) = [] := by
  constructor
  · rw [List.filter_eq_self]
    intro job member
    obtain ⟨task, _, rfl⟩ := List.mem_map.mp member
    rfl
  · rw [List.filter_eq_nil_iff]
    intro job member
    obtain ⟨task, _, rfl⟩ := List.mem_map.mp member
    exact Bool.false_ne_true

end

section
variable {c : Codecs} {sender receiver : DataHandler} {all : List Action} {s t : FileTraffic}
  {reports : List Report} {waiting dropped : List Task}

theorem initial_reporting : Reporting c sender receiver all initial [] [] [] where
  accounted := Link.accounted_nil _ _ _ _
  waits := .nil
  called := fun _ member => by cases member
  starts := .nil
  files := .nil
  reads := fun _ member => by cases member
  honest := fun _ member => by cases member
  drops := fun _ member => by cases member

variable (matched : Matched c sender receiver)
  {paired : c.lz4.Stream → c.lz4.StreamDecode → Prop} (faithful : c.lz4.Faithful paired)
  (suits : Suits c sender all) (reporting : Reporting c sender receiver all s reports waiting dropped)
include matched faithful suits reporting

theorem Reporting.call {guid : Guid} {files : List FileInformation}
    (member : Action.call guid files ∈ all) :
    ∃ reports waiting, Reporting c sender receiver all (s.send sender guid files) reports waiting
      dropped := by
  rcases @sendFiles_jobs sender guid files matched.senderPool with sent | ⟨what, sent⟩
  · obtain ⟨countable, fits⟩ := suits.start guid files member
    let report : Report := .start guid files.length
    have next : s.send sender guid files =
        { waiting := s.waiting ++ (Task.ofCall guid 0 files).map Task.job
          link := { s.link with sending := s.link.sending ++ [.encryptMessage report.cargo.packet] }
          calls := s.calls ++ [(guid, files)] } := by
      have first : ofFile (.encryptMessage report.cargo.packet) = false := rfl
      obtain ⟨all_, none_⟩ := filter_jobs (Task.ofCall guid 0 files)
      simp only [send, sent, List.filter_cons, first, all_, none_, Bool.false_eq_true, if_false,
        Bool.not_false, if_true, report]
    rw [next]
    refine ⟨reports ++ [report], waiting ++ Task.ofCall guid 0 files, ?_⟩
    have starts := matched.starts faithful report.data_ne_nil fits
    refine ⟨reporting.accounted.push starts, ?_, ?_, ?_, ?_, ?_, ?_, reporting.drops⟩
    · refine List.rel_append reporting.waits ?_
      rw [List.forall₂_map_left_iff, List.forall₂_same]
      exact fun _ _ => rfl
    · intro call called
      rcases List.mem_append.mp called with old | new
      · exact reporting.called call old
      · rw [List.mem_singleton.mp new]
        exact member
    · rw [List.filterMap_append, List.map_append]
      exact reporting.starts.append_right _
    · have before := reporting.files.append_right (Task.ofCall guid 0 files)
      have names : (s.calls ++ [(guid, files)]).flatMap (fun call => Task.ofCall call.1 0 call.2) =
          s.tasks ++ Task.ofCall guid 0 files := by
        rw [List.flatMap_append, List.flatMap_singleton]
        rfl
      rw [tasks, names, List.filterMap_append]
      refine List.Perm.trans (List.perm_iff_count.mpr fun x => ?_) before
      simp only [List.count_append, List.filterMap_cons, Report.task?, report, List.filterMap_nil,
        List.count_nil]
      omega
    · intro other reported
      rcases List.mem_append.mp reported with old | new
      · exact reporting.reads other old
      · rw [List.mem_singleton.mp new]
        exact Report.reads_arrival countable fits
    · intro other reported
      rcases List.mem_append.mp reported with old | new
      · exact reporting.honest other old
      · rw [List.mem_singleton.mp new]
        trivial
  · have next : s.send sender guid files = s := by
      simp only [send, sent, List.filter_nil, List.append_nil]
    rw [next]
    exact ⟨reports, waiting, reporting⟩

omit faithful in
/-- A job of a file pushes the packet that reports it, unless `File::open` throws. -/
theorem Reporting.works {task : Task} (member : task ∈ waiting) {position : Nat}
    {disk : List UInt8 → Opened} (acts : Action.file position disk ∈ all) :
    task.index < 2 ^ 64 ∧
      ((∃ report, task.report (disk task.path) = some report ∧ report.cargo.Fits c sender ∧
        sender.sendingWork c disk task.job =
          some (.ok (.pushed (.encryptMessage report.cargo.packet)))) ∨
      ∃ what, disk task.path = .thrown what ∧
        sender.sendingWork c disk task.job = some (.ok (.thrown what))) := by
  have named : task ∈ s.tasks := by
    refine reporting.files.mem_iff.mp (List.mem_append_right _ (List.mem_append_left _ member))
  obtain ⟨call, called, named⟩ := List.mem_flatMap.mp named
  have made := reporting.called call called
  have countable := (suits.start _ _ made).1
  obtain ⟨small, fits⟩ := suits.file _ _ made _ _ acts task named
  have bounded := Task.index_lt named
  refine ⟨by omega, ?_⟩
  have reported : ∀ report, task.report (disk task.path) = some report →
      reportData disk task.guid task.index task.file = some report.data := by
    intro report same
    unfold reportData
    rw [← Task.path]
    cases opened : disk task.path with
    | thrown what =>
        rw [opened] at same
        cases same
    | failed =>
        rw [opened] at same
        cases same
        rfl
    | read bytes =>
        rw [opened] at same
        cases same
        rfl
  cases report_ : task.report (disk task.path) with
  | some report =>
      refine .inl ⟨report, rfl, fits report report_, ?_⟩
      have work := fileSendingWork_fileData sender small (reported report report_)
      rw [matched.sends (by decide) report.data_ne_nil] at work
      exact congrArg some work
  | none =>
      cases opened : disk task.path with
      | thrown what =>
          exact .inr ⟨what, rfl, congrArg some (fileSendingWork_thrown sender small opened)⟩
      | failed =>
          rw [opened] at report_
          cases report_
      | read bytes =>
          rw [opened] at report_
          cases report_

theorem Reporting.file {position : Nat} {disk : List UInt8 → Opened}
    (acts : Action.file position disk ∈ all)
    (stepped : s.step c sender receiver (.file position disk) = some t) :
    ∃ reports waiting dropped, Reporting c sender receiver all t reports waiting dropped := by
  obtain ⟨⟨job, rest⟩, taken, stepped⟩ := Option.bind_eq_some_iff.mp stepped
  obtain ⟨task, left, rfl, still, moved⟩ := takeAt_forall₂ reporting.waits taken
  have member : task ∈ waiting := moved.mem_iff.mpr List.mem_cons_self
  obtain ⟨countable, found⟩ := reporting.works matched suits member acts
  rcases found with ⟨report, opened, fits, works⟩ | ⟨what, opened, works⟩
  · simp only [works] at stepped
    cases stepped
    have honest : report.Countable ∧ Honest all report ∧ report.task? = some task ∧
        report.start? = none := by
      cases found : disk task.path with
      | thrown what =>
          rw [found] at opened
          cases opened
      | failed =>
          rw [found] at opened
          cases opened
          exact ⟨countable, ⟨position, disk, acts, found⟩, rfl, rfl⟩
      | read bytes =>
          rw [found] at opened
          cases opened
          exact ⟨countable, ⟨position, disk, acts, found⟩, rfl, rfl⟩
    obtain ⟨countable, honest, ofTask, noStart⟩ := honest
    have starts := matched.starts faithful report.data_ne_nil fits
    refine ⟨reports ++ [report], left, dropped, reporting.accounted.push starts, still,
      reporting.called, ?_, ?_, ?_, ?_, reporting.drops⟩
    · rw [List.filterMap_append, List.filterMap_cons, noStart, List.filterMap_nil, List.append_nil]
      exact reporting.starts
    · rw [List.filterMap_append, List.filterMap_cons, ofTask, List.filterMap_nil, List.append_assoc]
      exact ((moved.append_right dropped).append_left _).symm.trans reporting.files
    · intro other reported
      rcases List.mem_append.mp reported with old | new
      · exact reporting.reads other old
      · rw [List.mem_singleton.mp new]
        exact Report.reads_arrival countable fits
    · intro other reported
      rcases List.mem_append.mp reported with old | new
      · exact reporting.honest other old
      · rw [List.mem_singleton.mp new]
        exact honest
  · simp only [works] at stepped
    cases stepped
    refine ⟨reports, left, dropped ++ [task], reporting.accounted, still, reporting.called,
      reporting.starts, ?_, reporting.reads, reporting.honest, ?_⟩
    · have last := perm_passed moved dropped []
      rw [List.append_nil] at last
      exact (last.append_left _).trans reporting.files
    · intro other drops
      rcases List.mem_append.mp drops with old | new
      · exact reporting.drops other old
      · rw [List.mem_singleton.mp new]
        exact ⟨position, disk, what, acts, opened⟩

theorem Reporting.step {a : Action} (acts : a ∈ all) (stepped : s.step c sender receiver a = some t) :
    ∃ reports waiting dropped, Reporting c sender receiver all t reports waiting dropped := by
  cases a with
  | call guid files =>
      cases stepped
      obtain ⟨reports, waiting, kept⟩ := reporting.call matched faithful suits acts
      exact ⟨reports, waiting, dropped, kept⟩
  | file position disk => exact reporting.file matched faithful suits acts stepped
  | link action =>
      obtain ⟨link, moved, rfl⟩ := Option.map_eq_some_iff.mp stepped
      obtain ⟨kept, _⟩ := reporting.accounted.step matched.receiverPool moved
      exact ⟨reports, waiting, dropped, { reporting with accounted := kept }⟩

/-- Induction on the steps. -/
theorem Reporting.run {actions : List Action} (acts : ∀ a ∈ actions, a ∈ all)
    (ran : Machine.run (FileTraffic.step c sender receiver) s actions = some t) :
    ∃ reports waiting dropped, Reporting c sender receiver all t reports waiting dropped := by
  induction actions generalizing s reports waiting dropped with
  | nil =>
      cases ran
      exact ⟨reports, waiting, dropped, reporting⟩
  | cons a rest ih =>
      rw [List.forall_mem_cons] at acts
      obtain ⟨u, stepped, ran⟩ := run_cons.mp ran
      obtain ⟨reports, waiting, dropped, kept⟩ := reporting.step matched faithful suits acts.1 stepped
      exact ih kept acts.2 ran

end

section
variable {c : Codecs} {sender receiver : DataHandler} (matched : Matched c sender receiver)
  {paired : c.lz4.Stream → c.lz4.StreamDecode → Prop} (faithful : c.lz4.Faithful paired)
include matched faithful

end

/-- Two calls for one file each; the job of the second file runs first. -/
def secondFirst : List Action :=
  [.call [71] [([47, 97], [104])], .call [72] [([47, 98], [105])],
    .file 1 fun path => if path = [47, 98] then .read [7, 9] else .failed,
    .link (.sender 2), .link (.sender 2), .link (.sender 2), .link .deliver, .link (.receiver 0),
    .link (.receiver 0), .link (.receiver 0)]

theorem secondFirst_suits : Suits Link.sampleCodecs DataHandler.connected secondFirst where
  start := by
    intro guid files member
    simp only [secondFirst, List.mem_cons, Action.call.injEq, reduceCtorEq, List.not_mem_nil,
      or_false] at member
    rcases member with ⟨rfl, rfl⟩ | ⟨rfl, rfl⟩
    · exact ⟨by decide, Shipment.fits_plain (by decide) (by decide)⟩
    · exact ⟨by decide, Shipment.fits_plain (by decide) (by decide)⟩
  file := by
    intro guid files member position disk acts task named
    simp only [secondFirst, List.mem_cons, Action.call.injEq, Action.file.injEq, reduceCtorEq,
      List.not_mem_nil, or_false, false_or] at member acts
    obtain ⟨rfl, rfl⟩ := acts
    rcases member with ⟨rfl, rfl⟩ | ⟨rfl, rfl⟩
    · cases List.mem_singleton.mp named
      refine ⟨by decide, fun report reported => ?_⟩
      cases reported
      exact Shipment.fits_plain (by decide) (by decide)
    · cases List.mem_singleton.mp named
      refine ⟨by decide, fun report reported => ?_⟩
      cases reported
      exact Shipment.fits_plain (by decide) (by decide)

end FileTraffic
end CppToolkit.Network
