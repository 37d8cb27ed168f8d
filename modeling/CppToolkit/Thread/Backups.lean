import CppToolkit.Library.Machine
import CppToolkit.Thread.JobQueues
import CppToolkit.Thread.UncompletedJobs
import CppToolkit.Utilities.File

/-! The backup files of jobs: `save` writes them, `work` and the two `clear` functions of the pool
should remove them. Every removal succeeds. -/
namespace CppToolkit.Thread
open Machine

/-- The name that `save` gives a file. -/
structure BackupPath where
  folder : List UInt8
  guid : List UInt8
  priority : JobPriorities
  deriving DecidableEq, Repr

/-- A file with the job that has saved itself in it; it is `stale` if that job has been worked or
cleared since. -/
structure BackupFile where
  content : List UInt8
  owner : Option Job
  stale : Bool
  deriving DecidableEq, Repr

/-- What a job has of its data in memory, and where the rest is. -/
structure JobData where
  data : List UInt8
  temporaryFile : Option BackupPath
  deriving DecidableEq, Repr

structure Backups where
  pool : JobQueues
  jobs : Job → JobData
  disk : BackupPath → Option BackupFile

/-- The part of a file's name that `save` gives it for the priority; there is none for long-term
jobs. -/
def priorityExtension : JobPriorities → Option (List UInt8)
  | .low => some [108, 111, 119]
  | .normal => some [110, 111, 114, 109, 97, 108]
  | .high => some [104, 105, 103, 104]
  | .top => some [116, 111, 112]
  | .longTerm => none

/-- How a callback ends. -/
inductive CallbackOutcome where
  | returned (condition : Bool)
  | thrown
  deriving DecidableEq, Repr

namespace Backups

inductive Act where
  | save (job : Job) (folder guid : List UInt8) (opened : Bool)
  | push (job : Option Job)
  | work (priorities : List JobPriorities) (opened : Bool) (read : ReadOutcome)
      (callback : CallbackOutcome)
  | clear
  | clearPriority (priority : JobPriorities)
  deriving DecidableEq, Repr

def setJob (s : Backups) (job : Job) (data : JobData) : Backups :=
  { s with jobs := Function.update s.jobs job data }

def setFile (s : Backups) (path : BackupPath) (file : Option BackupFile) : Backups :=
  { s with disk := Function.update s.disk path file }

/-- `Job::save`. A file that cannot be opened is not written, and the data are cleared. -/
def save (s : Backups) (job : Job) (folder guid : List UInt8) (opened : Bool) : Backups :=
  if (s.jobs job).data = [] then s
  else
    match priorityExtension job.priority with
    | none => s
    | some _ =>
        let path : BackupPath := ⟨folder, guid, job.priority⟩
        let file : BackupFile :=
          ⟨Utilities.File.writeBytes (s.jobs job).data, some job, false⟩
        let written := if opened then s.setFile path (some file) else s
        written.setJob job ⟨[], some path⟩

/-- The data after `Job::load`, unless the read throws. -/
def load (s : Backups) (job : Job) (opened : Bool) (read : ReadOutcome) :
    Except String (List UInt8) :=
  match (s.jobs job).temporaryFile with
  | none => .ok (s.jobs job).data
  | some path =>
      match s.disk path with
      | none => .ok []
      | some file =>
          if opened then
            match read with
            | .complete => .ok file.content
            | .short count => .ok (file.content.take count)
            | .thrown => .error "std::ios_base::failure"
          else .ok []

/-- `Job::destroy`. -/
def destroy (s : Backups) (job : Job) : Backups :=
  match (s.jobs job).temporaryFile with
  | none => s
  | some path => (s.setFile path none).setJob job ⟨(s.jobs job).data, none⟩

/-- The job is worked or cleared: the files that are still there of it are stale. -/
def finish (s : Backups) (job : Job) : Backups :=
  { s with disk := fun path => (s.disk path).map fun file =>
      if file.owner = some job then { file with stale := true } else file }

/-- `Job::work`. What the callback throws is caught and `destroy` is called in any case, but not
if the data cannot be loaded for an exception. -/
def workJob (s : Backups) (job : Job) (opened : Bool) (read : ReadOutcome)
    (callback : CallbackOutcome) : Backups × Except String Bool :=
  match s.load job opened read with
  | .error what => (s.finish job, .error what)
  | .ok data =>
      let worked := ((s.setJob job ⟨data, (s.jobs job).temporaryFile⟩).destroy job).finish job
      match callback with
      | .returned condition => (worked, .ok condition)
      | .thrown => (worked, .ok false)

def queued (s : Backups) : List Job := JobPriorities.all.flatMap s.pool.queue

def after (s : Backups) : Act → Backups
  | .save job folder guid opened => s.save job folder guid opened
  | .push job => { s with pool := (s.pool.push job).1 }
  | .work priorities opened read callback =>
      let popped := s.pool.pop priorities
      match popped.2 with
      | none => { s with pool := popped.1 }
      | some job => ({ s with pool := popped.1 }.workJob job opened read callback).1
  | .clear =>
      let cleared := s.queued.foldl (fun s job => (s.destroy job).finish job) s
      { cleared with pool := s.pool.clear }
  | .clearPriority priority =>
      let cleared := (s.pool.queue priority).foldl finish s
      { cleared with pool := s.pool.clearPriority priority }

def step (s : Backups) (a : Act) : Option Backups := some (s.after a)

/-- Jobs with the data of their constructors, an empty pool, and a disk with files of others. -/
def initial (data : Job → List UInt8) (disk : BackupPath → Option (List UInt8)) : Backups where
  pool := .initial
  jobs := fun job => ⟨data job, none⟩
  disk := fun path => (disk path).map fun content => ⟨content, none, false⟩

/-- The name of the file in its folder. -/
def fileName (path : BackupPath) : List UInt8 :=
  path.guid ++ LexicalPath.dot :: (priorityExtension path.priority).getD []

/-- The job files of the folder are on the disk. -/
def Lists (s : Backups) (folder : List UInt8) (listing : BackupFolder) : Prop :=
  ∀ e ∈ listing.entries, e.isBackup = true → ∃ path file, path.folder = folder ∧
    fileName path = e.name ∧ s.disk path = some file ∧ file.content = e.content

def Clean (s : Backups) : Prop := ∀ path file, s.disk path = some file → file.stale = false

/-- No file of a job that has been worked or cleared is there, and none is recovered. -/
def Tidy (s : Backups) : Prop :=
  s.Clean ∧ ∀ folder listing treatment result, s.Lists folder listing →
    (Recovery.uncompletedJobs treatment (some listing)).returned = .ok result →
      ∀ data ∈ result, ∃ path file, path.folder = folder ∧ s.disk path = some file ∧
        data <+: file.content ∧ file.stale = false

/-- No file on the disk is of the job. -/
def Unsaved (s : Backups) (job : Job) : Prop :=
  ∀ path file, s.disk path = some file → file.owner ≠ some job

/-- The step does not drop a job with a file: `clear(priority)` drops the jobs of its queue, and
`work` its job where the read throws. -/
def Removes (s : Backups) : Act → Prop
  | .clearPriority priority => ∀ job ∈ s.pool.queue priority, s.Unsaved job
  | .work priorities opened read _ =>
      opened = true → read = .thrown → ∀ job, (s.pool.pop priorities).2 = some job → s.Unsaved job
  | _ => True

/-- A job with a file on the disk knows it and has no data in memory. -/
structure Owned (s : Backups) : Prop where
  named : ∀ {path file job}, s.disk path = some file → file.owner = some job →
    (s.jobs job).temporaryFile = some path
  saved : ∀ {path file job}, s.disk path = some file → file.owner = some job →
    (s.jobs job).data = []

section
variable {s : Backups} {job : Job}

theorem finish_disk {path : BackupPath} {file : BackupFile}
    (there : (s.finish job).disk path = some file) :
    ∃ before, s.disk path = some before ∧ file.owner = before.owner ∧
      file.stale = (before.stale || decide (before.owner = some job)) := by
  obtain ⟨before, found, rfl⟩ := Option.map_eq_some_iff.mp there
  refine ⟨before, found, ?_⟩
  split
  next own => exact ⟨rfl, by simp [own]⟩
  next other => exact ⟨rfl, by simp [other]⟩

theorem owned_finish (owned : s.Owned) (job : Job) : (s.finish job).Owned where
  named := fun there owner => by
    obtain ⟨before, found, same, _⟩ := finish_disk there
    exact owned.named found (same ▸ owner)
  saved := fun there owner => by
    obtain ⟨before, found, same, _⟩ := finish_disk there
    exact owned.saved found (same ▸ owner)

theorem finish_some (job : Job) {path : BackupPath} {file : BackupFile}
    (there : s.disk path = some file) :
    ∃ later, (s.finish job).disk path = some later ∧ later.owner = file.owner ∧
      later.stale = (file.stale || decide (file.owner = some job)) := by
  obtain ⟨later, found⟩ : ∃ later, (s.finish job).disk path = some later :=
    ⟨_, congrArg (Option.map _) there⟩
  obtain ⟨before, same, owner, stale⟩ := finish_disk found
  cases there.symm.trans same
  exact ⟨later, found, owner, stale⟩

theorem unsaved_finish_iff {other : Job} : (s.finish other).Unsaved job ↔ s.Unsaved job := by
  constructor
  · intro unsaved path file there owner
    obtain ⟨later, found, same, _⟩ := finish_some other there
    exact unsaved path later found (same.trans owner)
  · intro unsaved path file there owner
    obtain ⟨before, found, same, _⟩ := finish_disk there
    exact unsaved path before found (same ▸ owner)

/-- Finishing a job leaves no stale file exactly if there is none of it. -/
theorem clean_finish_iff : (s.finish job).Clean ↔ s.Clean ∧ s.Unsaved job := by
  constructor
  · intro after
    constructor
    · intro path file there
      obtain ⟨later, found, _, stale⟩ := finish_some job there
      rw [after path later found] at stale
      exact (Bool.or_eq_false_iff.mp stale.symm).1
    · intro path file there
      obtain ⟨later, found, _, stale⟩ := finish_some job there
      rw [after path later found] at stale
      exact of_decide_eq_false (Bool.or_eq_false_iff.mp stale.symm).2
  · rintro ⟨clean, unsaved⟩ path file there
    obtain ⟨before, found, _, stale⟩ := finish_disk there
    rw [stale, clean path before found, decide_eq_false (unsaved path before found)]
    rfl

/-- A job without a file may have any data. -/
theorem owned_of_unsaved (owned : s.Owned) {t : Backups}
    (disk : ∀ path file, t.disk path = some file → s.disk path = some file)
    (jobs : ∀ other, other ≠ job → t.jobs other = s.jobs other) (unsaved : t.Unsaved job) :
    t.Owned where
  named := fun there owner => by
    have other := fun same => unsaved _ _ there (owner.trans (congrArg some same))
    rw [jobs _ other]
    exact owned.named (disk _ _ there) owner
  saved := fun there owner => by
    have other := fun same => unsaved _ _ there (owner.trans (congrArg some same))
    rw [jobs _ other]
    exact owned.saved (disk _ _ there) owner

theorem drop_eq (s : Backups) (job : Job) (data : List UInt8) :
    (s.setJob job ⟨data, (s.jobs job).temporaryFile⟩).destroy job =
      match (s.jobs job).temporaryFile with
      | none => s.setJob job ⟨data, none⟩
      | some path => (s.setFile path none).setJob job ⟨data, none⟩ := by
  unfold destroy setJob setFile
  dsimp only
  rw [Function.update_self]
  cases (s.jobs job).temporaryFile with
  | none => rfl
  | some path =>
      dsimp only
      rw [Function.update_idem]

/-- What `destroy` removes is all that there is of the job. -/
theorem owned_dropped (owned : s.Owned) (job : Job) (data : List UInt8) :
    ((s.setJob job ⟨data, (s.jobs job).temporaryFile⟩).destroy job).Owned ∧
      ((s.setJob job ⟨data, (s.jobs job).temporaryFile⟩).destroy job).Unsaved job ∧
      (s.Clean → ((s.setJob job ⟨data, (s.jobs job).temporaryFile⟩).destroy job).Clean) := by
  rw [drop_eq]
  cases temporary : (s.jobs job).temporaryFile with
  | none =>
      have unsaved : (s.setJob job ⟨data, none⟩).Unsaved job := by
        intro path file there owner
        have named := owned.named there owner
        rw [temporary] at named
        cases named
      exact ⟨owned_of_unsaved owned (fun _ _ there => there)
        (fun _ other => Function.update_of_ne other _ _) unsaved, unsaved, fun clean => clean⟩
  | some gone =>
      have disk : ∀ path file, ((s.setFile gone none).setJob job ⟨data, none⟩).disk path = some file →
          path ≠ gone ∧ s.disk path = some file := by
        intro path file there
        change Function.update s.disk gone none path = some file at there
        by_cases same : path = gone
        · rw [same, Function.update_self] at there
          cases there
        · rw [Function.update_of_ne same] at there
          exact ⟨same, there⟩
      have unsaved : ((s.setFile gone none).setJob job ⟨data, none⟩).Unsaved job := by
        intro path file there owner
        have named := owned.named (disk path file there).2 owner
        rw [temporary] at named
        exact (disk path file there).1 (Option.some.inj named).symm
      exact ⟨owned_of_unsaved owned (fun path file there => (disk path file there).2)
        (fun _ other => Function.update_of_ne other _ _) unsaved, unsaved,
        fun clean path file there => clean path file (disk path file there).2⟩

theorem owned_destroyed (owned : s.Owned) (job : Job) : (s.destroy job).Owned ∧
    (s.destroy job).Unsaved job ∧ (s.Clean → (s.destroy job).Clean) := by
  have same : s.setJob job ⟨(s.jobs job).data, (s.jobs job).temporaryFile⟩ = s := by
    unfold setJob
    rw [Function.update_eq_self]
  have dropped := owned_dropped owned job (s.jobs job).data
  rwa [same] at dropped

theorem owned_finished (owned : s.Owned) (jobs : List Job) : (jobs.foldl finish s).Owned := by
  induction jobs generalizing s with
  | nil => exact owned
  | cons job rest ih => exact ih (owned_finish owned job)

theorem clean_finished_iff (jobs : List Job) :
    (jobs.foldl finish s).Clean ↔ s.Clean ∧ ∀ job ∈ jobs, s.Unsaved job := by
  induction jobs generalizing s with
  | nil => exact (and_iff_left fun _ member => by cases member).symm
  | cons job rest ih =>
      rw [List.foldl_cons, ih, clean_finish_iff, List.forall_mem_cons, and_assoc]
      refine and_congr_right fun _ => and_congr_right fun _ => ?_
      exact forall₂_congr fun other _ => unsaved_finish_iff

/-- Clearing the pool removes the files of its jobs. -/
theorem owned_cleared (owned : s.Owned) (jobs : List Job) :
    (jobs.foldl (fun s job => (s.destroy job).finish job) s).Owned ∧
      (s.Clean → (jobs.foldl (fun s job => (s.destroy job).finish job) s).Clean) := by
  induction jobs generalizing s with
  | nil => exact ⟨owned, fun clean => clean⟩
  | cons job rest ih =>
      obtain ⟨kept, unsaved, clean⟩ := owned_destroyed owned job
      obtain ⟨last, tidy⟩ := ih (owned_finish kept job)
      exact ⟨last, fun before => tidy (clean_finish_iff.mpr ⟨clean before, unsaved⟩)⟩

/-- A file is written for a job that has none. -/
theorem owned_written (owned : s.Owned) (unsaved : s.Unsaved job) (path : BackupPath)
    (content : List UInt8) :
    ((s.setFile path (some ⟨content, some job, false⟩)).setJob job ⟨[], some path⟩).Owned ∧
      (s.Clean →
        ((s.setFile path (some ⟨content, some job, false⟩)).setJob job ⟨[], some path⟩).Clean) := by
  generalize written :
    (s.setFile path (some ⟨content, some job, false⟩)).setJob job ⟨[], some path⟩ = t
  have new : t.jobs job = ⟨[], some path⟩ := by
    rw [← written]
    exact Function.update_self _ _ _
  have others : ∀ other, other ≠ job → t.jobs other = s.jobs other := by
    rintro other different
    rw [← written]
    exact Function.update_of_ne different _ _
  have disk : ∀ {p file}, t.disk p = some file →
      p = path ∧ file = ⟨content, some job, false⟩ ∨ s.disk p = some file := by
    intro p file there
    rw [← written] at there
    change Function.update s.disk path (some _) p = some file at there
    by_cases same : p = path
    · rw [same, Function.update_self] at there
      exact .inl ⟨same, (Option.some.inj there).symm⟩
    · rw [Function.update_of_ne same] at there
      exact .inr there
  refine ⟨⟨fun {p file other} there owner => ?_, fun {p file other} there owner => ?_⟩,
    fun clean p file there => ?_⟩
  · rcases disk there with ⟨rfl, rfl⟩ | before
    · rw [← Option.some.inj owner, new]
    · rw [others other fun same => unsaved p file before (same ▸ owner)]
      exact owned.named before owner
  · rcases disk there with ⟨rfl, rfl⟩ | before
    · rw [← Option.some.inj owner, new]
    · rw [others other fun same => unsaved p file before (same ▸ owner)]
      exact owned.saved before owner
  · rcases disk there with ⟨_, rfl⟩ | before
    · rfl
    · exact clean p file before

/-- A save writes a file of a job that has none. -/
theorem owned_saved (owned : s.Owned) (job : Job) (folder guid : List UInt8) (opened : Bool) :
    (s.save job folder guid opened).Owned ∧ (s.Clean → (s.save job folder guid opened).Clean) := by
  unfold save
  split
  next => exact ⟨owned, fun clean => clean⟩
  next data =>
    split
    next => exact ⟨owned, fun clean => clean⟩
    next =>
      have unsaved : s.Unsaved job := fun _ _ there owner => data (owned.saved there owner)
      cases opened with
      | false =>
          exact ⟨owned_of_unsaved owned (fun _ _ there => there)
            (fun _ other => Function.update_of_ne other _ _) unsaved, fun clean => clean⟩
      | true => exact owned_written owned unsaved _ _

theorem load_error {opened : Bool} {read : ReadOutcome} {what : String}
    (failed : s.load job opened read = .error what) : opened = true ∧ read = .thrown := by
  unfold load at failed
  split at failed
  next => cases failed
  next =>
    split at failed
    next => cases failed
    next =>
      cases opened with
      | false => cases failed
      | true =>
          cases read with
          | complete => cases failed
          | short count => cases failed
          | thrown => exact ⟨rfl, rfl⟩

theorem load_thrown (owned : s.Owned) {data : List UInt8}
    (loaded : s.load job true .thrown = .ok data) : s.Unsaved job := by
  intro path file there owner
  unfold load at loaded
  rw [owned.named there owner] at loaded
  dsimp only at loaded
  rw [there] at loaded
  cases loaded

theorem workJob_ok {opened : Bool} {read : ReadOutcome} {data : List UInt8}
    (loaded : s.load job opened read = .ok data) (callback : CallbackOutcome) :
    (s.workJob job opened read callback).1 =
      ((s.setJob job ⟨data, (s.jobs job).temporaryFile⟩).destroy job).finish job := by
  unfold workJob
  rw [loaded]
  cases callback <;> rfl

/-- A job that is worked keeps its file only where the read throws. -/
theorem owned_worked (owned : s.Owned) (job : Job) (opened : Bool) (read : ReadOutcome)
    (callback : CallbackOutcome) : (s.workJob job opened read callback).1.Owned ∧
      (s.Clean → ((s.workJob job opened read callback).1.Clean ↔
        (opened = true → read = .thrown → s.Unsaved job))) := by
  cases loaded : s.load job opened read with
  | error what =>
      obtain ⟨rfl, rfl⟩ := load_error loaded
      have left : (s.workJob job true .thrown callback).1 = s.finish job := by
        unfold workJob
        rw [loaded]
      rw [left, clean_finish_iff]
      exact ⟨owned_finish owned job, fun clean => ⟨fun both _ _ => both.2,
        fun unsaved => ⟨clean, unsaved rfl rfl⟩⟩⟩
  | ok data =>
      obtain ⟨kept, unsaved, clean⟩ := owned_dropped owned job data
      rw [workJob_ok loaded, clean_finish_iff]
      refine ⟨owned_finish kept job, fun before => iff_of_true ⟨clean before, unsaved⟩ ?_⟩
      rintro rfl rfl
      exact load_thrown owned loaded

theorem owned_after (owned : s.Owned) (a : Act) :
    (s.after a).Owned ∧ (s.Clean → ((s.after a).Clean ↔ s.Removes a)) := by
  cases a with
  | save job folder guid opened =>
      obtain ⟨kept, clean⟩ := owned_saved owned job folder guid opened
      exact ⟨kept, fun before => iff_of_true (clean before) trivial⟩
  | push job => exact ⟨⟨owned.named, owned.saved⟩, fun clean => iff_of_true clean trivial⟩
  | work priorities opened read callback =>
      unfold after Removes
      dsimp only
      cases popped : (s.pool.pop priorities).2 with
      | none =>
          exact ⟨⟨owned.named, owned.saved⟩,
            fun clean => iff_of_true clean fun _ _ _ same => by cases same⟩
      | some job =>
          have taken : ({ s with pool := (s.pool.pop priorities).1 } : Backups).Owned :=
            ⟨owned.named, owned.saved⟩
          obtain ⟨kept, clean⟩ := owned_worked taken job opened read callback
          refine ⟨kept, fun before => (clean before).trans ?_⟩
          refine forall₂_congr fun _ _ => ⟨fun unsaved _ same => ?_, fun all => all job rfl⟩
          cases same
          exact unsaved
  | clear =>
      obtain ⟨kept, clean⟩ := owned_cleared owned s.queued
      exact ⟨⟨kept.named, kept.saved⟩, fun before => iff_of_true (clean before) trivial⟩
  | clearPriority priority =>
      have kept := owned_finished owned (s.pool.queue priority)
      refine ⟨⟨kept.named, kept.saved⟩, fun clean => ?_⟩
      exact (clean_finished_iff (s.pool.queue priority)).trans (and_iff_right clean)

/-- What is recovered of a folder without stale files is of files that are not stale. -/
theorem tidy_iff_clean : s.Tidy ↔ s.Clean := by
  refine and_iff_left_of_imp fun clean folder listing treatment result lists ran data member => ?_
  obtain ⟨e, inside, backup, front⟩ := Recovery.mem_returned ran member
  obtain ⟨path, file, within, _, there, content⟩ := lists e inside backup
  exact ⟨path, file, within, there, content ▸ front, clean path file there⟩

end

end Backups
end CppToolkit.Thread
