import CppToolkit.Thread.Backups
import CppToolkit.Utilities.Generator

/-! What a program finds in its backup folder when it starts again: the jobs that had been
saved and neither worked nor cleared, wherever the last run has ended. -/
namespace CppToolkit.Thread
open Machine LexicalPath Utilities

namespace Backups

/-- The jobs that a new start has to find, with the folder and the data they are saved with. -/
abbrev Ledger := Job → Option (List UInt8 × List UInt8)

/-- What a step means for them. A job whose data cannot be loaded is not worked, and
`clear(priority)` only forgets its jobs. -/
def record (s : Backups) (l : Ledger) : Act → Ledger
  | .save job folder _ opened =>
      if opened = true ∧ (s.jobs job).data ≠ [] ∧ priorityExtension job.priority ≠ none then
        Function.update l job (some (folder, File.writeBytes (s.jobs job).data))
      else l
  | .work priorities opened read _ =>
      match (s.pool.pop priorities).2 with
      | none => l
      | some job =>
          match s.load job opened read with
          | .error _ => l
          | .ok _ => Function.update l job none
  | .clear => fun job => if job ∈ s.queued then none else l job
  | .push _ => l
  | .clearPriority _ => l

/-- The name that a step draws for a file. -/
def Act.guid? : Act → Option (List UInt8)
  | .save _ _ guid _ => some guid
  | _ => none

/-- A file gets a name that no job has been given before. -/
def Fresh (s : Backups) : Act → Prop
  | .save job folder guid _ => guid ≠ [] ∧ dot ∉ guid ∧
      s.disk ⟨folder, guid, job.priority⟩ = none ∧
      ∀ other, (s.jobs other).temporaryFile ≠ some ⟨folder, guid, job.priority⟩
  | _ => True

/-- The folder as the directory iterator lists it. -/
structure ListsAll (s : Backups) (folder : List UInt8) (listing : BackupFolder) : Prop where
  there : s.Lists folder listing
  listed : ∀ path file, path.folder = folder → s.disk path = some file →
    ∃ e ∈ listing.entries, e.regular = true ∧ e.name = fileName path ∧ e.content = file.content

/-- The files on the disk are those of the ledger. -/
structure Mirrors (s : Backups) (l : Ledger) : Prop where
  owned : s.Owned
  filed : ∀ path file, s.disk path = some file →
    ∃ job, file.owner = some job ∧ l job = some (path.folder, file.content)
  kept : ∀ job folder data, l job = some (folder, data) →
    ∃ path file, path.folder = folder ∧ s.disk path = some file ∧ file.owner = some job ∧
      file.content = data
  named : ∀ path file, s.disk path = some file →
    path.guid ≠ [] ∧ dot ∉ path.guid ∧ priorityExtension path.priority ≠ none
  apart : ∀ job path file, (s.jobs job).temporaryFile = some path → s.disk path = some file →
    file.owner = some job

section
variable {s : Backups} {l : Ledger} {job : Job}

theorem finish_file {path : BackupPath} {file : BackupFile}
    (there : (s.finish job).disk path = some file) :
    ∃ before, s.disk path = some before ∧ file.owner = before.owner ∧
      file.content = before.content := by
  obtain ⟨before, found, rfl⟩ := Option.map_eq_some_iff.mp there
  refine ⟨before, found, ?_⟩
  split <;> exact ⟨rfl, rfl⟩

theorem file_finish (job : Job) {path : BackupPath} {file : BackupFile}
    (there : s.disk path = some file) :
    ∃ later, (s.finish job).disk path = some later ∧ later.owner = file.owner ∧
      later.content = file.content := by
  obtain ⟨later, found⟩ : ∃ later, (s.finish job).disk path = some later :=
    ⟨_, congrArg (Option.map _) there⟩
  obtain ⟨before, same, owner, content⟩ := finish_file found
  cases there.symm.trans same
  exact ⟨later, found, owner, content⟩

theorem Mirrors.finish (mirrors : s.Mirrors l) (job : Job) : (s.finish job).Mirrors l where
  owned := owned_finish mirrors.owned job
  filed := by
    intro path file there
    obtain ⟨before, found, owner, content⟩ := finish_file there
    obtain ⟨own, named, listed⟩ := mirrors.filed path before found
    exact ⟨own, owner.trans named, content ▸ listed⟩
  kept := by
    intro other folder data listed
    obtain ⟨path, file, within, there, owner, content⟩ := mirrors.kept other folder data listed
    obtain ⟨later, found, sameOwner, sameContent⟩ := file_finish job there
    exact ⟨path, later, within, found, sameOwner.trans owner, sameContent.trans content⟩
  named := by
    intro path file there
    obtain ⟨before, found, _⟩ := finish_file there
    exact mirrors.named path before found
  apart := by
    intro other path file temporary there
    obtain ⟨before, found, owner, _⟩ := finish_file there
    exact owner.trans (mirrors.apart other path before temporary found)

/-- `destroy` takes the job out of the ledger, and no other job's file is removed. -/
theorem Mirrors.drop (mirrors : s.Mirrors l) (job : Job) (data : List UInt8) :
    ((s.setJob job ⟨data, (s.jobs job).temporaryFile⟩).destroy job).Mirrors
      (Function.update l job none) := by
  obtain ⟨owned, unsaved, _⟩ := owned_dropped mirrors.owned job data
  generalize dropped : (s.setJob job ⟨data, (s.jobs job).temporaryFile⟩).destroy job = t at *
  have own : t.jobs job = ⟨data, none⟩ := by
    rw [← dropped, drop_eq]
    split <;> exact Function.update_self ..
  have others : ∀ other, other ≠ job → t.jobs other = s.jobs other := by
    intro other different
    rw [← dropped, drop_eq]
    split <;> exact Function.update_of_ne different _ _
  have disk : ∀ path file, t.disk path = some file ↔
      s.disk path = some file ∧ (s.jobs job).temporaryFile ≠ some path := by
    intro path file
    rw [← dropped, drop_eq]
    cases temporary : (s.jobs job).temporaryFile with
    | none => exact (and_iff_left (fun same => by cases same)).symm
    | some gone =>
        change Function.update s.disk gone none path = some file ↔ _
        by_cases same : path = gone
        · subst same
          rw [Function.update_self]
          exact iff_of_false (fun same => by cases same) fun both => both.2 rfl
        · rw [Function.update_of_ne same]
          exact (and_iff_left fun other => same (Option.some.inj other).symm).symm
  refine ⟨owned, ?_, ?_, ?_, ?_⟩
  · intro path file there
    obtain ⟨other, owner, listed⟩ := mirrors.filed path file ((disk path file).mp there).1
    refine ⟨other, owner, ?_⟩
    rw [Function.update_of_ne fun same => unsaved path file there (owner.trans (congrArg some same))]
    exact listed
  · intro other folder data' listed
    have different : other ≠ job := by
      rintro rfl
      rw [Function.update_self] at listed
      cases listed
    rw [Function.update_of_ne different] at listed
    obtain ⟨path, file, within, there, owner, content⟩ := mirrors.kept other folder data' listed
    refine ⟨path, file, within, (disk path file).mpr ⟨there, fun temporary => ?_⟩, owner, content⟩
    have mine := mirrors.apart job path file temporary there
    exact different (Option.some.inj (owner.symm.trans mine))
  · exact fun path file there => mirrors.named path file ((disk path file).mp there).1
  · intro other path file temporary there
    have different : other ≠ job := by
      rintro rfl
      rw [own] at temporary
      cases temporary
    rw [others other different] at temporary
    exact mirrors.apart other path file temporary ((disk path file).mp there).1

theorem Mirrors.destroyed (mirrors : s.Mirrors l) (job : Job) :
    (s.destroy job).Mirrors (Function.update l job none) := by
  have same : s.setJob job ⟨(s.jobs job).data, (s.jobs job).temporaryFile⟩ = s := by
    unfold setJob
    rw [Function.update_eq_self]
  have dropped := mirrors.drop job (s.jobs job).data
  rwa [same] at dropped

theorem Mirrors.pool (mirrors : s.Mirrors l) (pool : JobQueues) : { s with pool }.Mirrors l where
  owned := ⟨mirrors.owned.named, mirrors.owned.saved⟩
  filed := mirrors.filed
  kept := mirrors.kept
  named := mirrors.named
  apart := mirrors.apart

theorem Mirrors.finished (mirrors : s.Mirrors l) (jobs : List Job) :
    (jobs.foldl Backups.finish s).Mirrors l := by
  induction jobs generalizing s with
  | nil => exact mirrors
  | cons job rest ih => exact ih (mirrors.finish job)

/-- Clearing the pool takes its jobs out of the ledger. -/
theorem Mirrors.cleared (mirrors : s.Mirrors l) (jobs : List Job) :
    (jobs.foldl (fun s job => (s.destroy job).finish job) s).Mirrors
      fun job => if job ∈ jobs then none else l job := by
  induction jobs generalizing s l with
  | nil => exact mirrors
  | cons job rest ih =>
      have later := ih ((mirrors.destroyed job).finish job)
      refine cast (congrArg _ (funext fun other => ?_)) later
      by_cases same : other = job
      · subst same
        rw [Function.update_self, ite_self, if_pos List.mem_cons_self]
      · rw [Function.update_of_ne same]
        exact if_congr (List.mem_cons.trans (or_iff_right same)).symm rfl rfl

/-- A job that has not been saved gets a new file. -/
theorem Mirrors.written (mirrors : s.Mirrors l) (unsaved : s.Unsaved job)
    {folder guid : List UInt8} (fresh : s.Fresh (.save job folder guid true)) (content : List UInt8)
    (named : priorityExtension job.priority ≠ none) :
    ((s.setFile ⟨folder, guid, job.priority⟩ (some ⟨content, some job, false⟩)).setJob job
        ⟨[], some ⟨folder, guid, job.priority⟩⟩).Mirrors
      (Function.update l job (some (folder, content))) := by
  obtain ⟨owned, _⟩ := owned_written mirrors.owned unsaved ⟨folder, guid, job.priority⟩ content
  obtain ⟨some_, plain, free, unknown⟩ := fresh
  generalize place : (⟨folder, guid, job.priority⟩ : BackupPath) = path at *
  generalize written :
    (s.setFile path (some ⟨content, some job, false⟩)).setJob job ⟨[], some path⟩ = t at *
  have own : t.jobs job = ⟨[], some path⟩ := by
    rw [← written]
    exact Function.update_self ..
  have others : ∀ other, other ≠ job → t.jobs other = s.jobs other := by
    intro other different
    rw [← written]
    exact Function.update_of_ne different _ _
  have new : t.disk path = some ⟨content, some job, false⟩ := by
    rw [← written]
    exact Function.update_self ..
  have old : ∀ p, p ≠ path → t.disk p = s.disk p := by
    intro p different
    rw [← written]
    exact Function.update_of_ne different _ _
  refine ⟨owned, ?_, ?_, ?_, ?_⟩
  · intro p file there
    by_cases same : p = path
    · subst same
      cases new.symm.trans there
      refine ⟨job, rfl, ?_⟩
      rw [Function.update_self, ← place]
    · rw [old p same] at there
      obtain ⟨other, owner, listed⟩ := mirrors.filed p file there
      refine ⟨other, owner, ?_⟩
      rw [Function.update_of_ne fun same => unsaved p file there (owner.trans (congrArg some same))]
      exact listed
  · intro other folder' data listed
    by_cases same : other = job
    · subst same
      rw [Function.update_self] at listed
      cases listed
      exact ⟨path, _, by rw [← place], new, rfl, rfl⟩
    · rw [Function.update_of_ne same] at listed
      obtain ⟨p, file, within, there, owner, content'⟩ := mirrors.kept other folder' data listed
      have elsewhere : p ≠ path := by
        rintro rfl
        cases free.symm.trans there
      exact ⟨p, file, within, (old p elsewhere).trans there, owner, content'⟩
  · intro p file there
    by_cases same : p = path
    · subst same
      rw [← place]
      exact ⟨some_, plain, named⟩
    · rw [old p same] at there
      exact mirrors.named p file there
  · intro other p file temporary there
    by_cases same : other = job
    · subst same
      rw [own] at temporary
      cases temporary
      cases new.symm.trans there
      rfl
    · rw [others other same] at temporary
      have elsewhere : p ≠ path := fun here => unknown other (here ▸ temporary)
      rw [old p elsewhere] at there
      exact mirrors.apart other p file temporary there

/-- A file that cannot be opened leaves the disk and the ledger as they are. -/
theorem Mirrors.unwritten (mirrors : s.Mirrors l) (unsaved : s.Unsaved job)
    {folder guid : List UInt8} (fresh : s.Fresh (.save job folder guid false)) :
    (s.setJob job ⟨[], some ⟨folder, guid, job.priority⟩⟩).Mirrors l where
  owned := owned_of_unsaved mirrors.owned (fun _ _ there => there)
    (fun _ other => Function.update_of_ne other _ _) unsaved
  filed := mirrors.filed
  kept := mirrors.kept
  named := mirrors.named
  apart := by
    intro other p file temporary there
    unfold setJob at temporary
    dsimp only at temporary
    by_cases same : other = job
    · subst same
      rw [Function.update_self] at temporary
      cases temporary
      cases fresh.2.2.1.symm.trans there
    · rw [Function.update_of_ne same] at temporary
      exact mirrors.apart other p file temporary there

theorem Mirrors.saved (mirrors : s.Mirrors l) {folder guid : List UInt8} {opened : Bool}
    (fresh : s.Fresh (.save job folder guid opened)) :
    (s.save job folder guid opened).Mirrors (s.record l (.save job folder guid opened)) := by
  let writes := opened = true ∧ (s.jobs job).data ≠ [] ∧ priorityExtension job.priority ≠ none
  unfold save record
  dsimp only
  by_cases empty : (s.jobs job).data = []
  · have skips : ¬ writes := fun written => written.2.1 empty
    rw [if_pos empty, if_neg skips]
    exact mirrors
  · have unsaved : s.Unsaved job := fun _ _ there owner => empty (mirrors.owned.saved there owner)
    rw [if_neg empty]
    split
    next name =>
      have skips : ¬ writes := fun written => written.2.2 name
      rw [if_neg skips]
      exact mirrors
    next extension name =>
      have named : priorityExtension job.priority ≠ none := by
        rw [name]
        exact Option.some_ne_none _
      cases opened with
      | false =>
          have skips : ¬ (false = true ∧ (s.jobs job).data ≠ [] ∧
            priorityExtension job.priority ≠ none) := fun written => Bool.false_ne_true written.1
          rw [if_neg skips, if_neg Bool.false_ne_true]
          exact mirrors.unwritten unsaved fresh
      | true =>
          rw [if_pos rfl, if_pos ⟨rfl, empty, named⟩]
          exact mirrors.written unsaved fresh _ named

theorem Mirrors.worked (mirrors : s.Mirrors l) (priorities : List JobPriorities) (opened : Bool)
    (read : ReadOutcome) (callback : CallbackOutcome) :
    (s.after (.work priorities opened read callback)).Mirrors
      (s.record l (.work priorities opened read callback)) := by
  unfold after record
  dsimp only
  cases popped : (s.pool.pop priorities).2 with
  | none => exact mirrors.pool _
  | some job =>
      have taken := mirrors.pool (s.pool.pop priorities).1
      have loads : ({ s with pool := (s.pool.pop priorities).1 } : Backups).load job opened read =
        s.load job opened read := rfl
      dsimp only
      cases loaded : s.load job opened read with
      | error what =>
          unfold workJob
          rw [loads, loaded]
          exact taken.finish job
      | ok data =>
          rw [workJob_ok (loads.trans loaded)]
          exact (taken.drop job data).finish job

theorem Mirrors.after (mirrors : s.Mirrors l) {a : Act} (fresh : s.Fresh a) :
    (s.after a).Mirrors (s.record l a) := by
  cases a with
  | save job folder guid opened => exact mirrors.saved fresh
  | push job => exact mirrors.pool _
  | work priorities opened read callback => exact mirrors.worked priorities opened read callback
  | clear => exact (mirrors.cleared s.queued).pool _
  | clearPriority priority => exact (mirrors.finished (s.pool.queue priority)).pool _

end

/-- The second state has no file, and no job of it knows a path, that the first one has not. -/
structure Within (s t : Backups) : Prop where
  files : ∀ path file, t.disk path = some file → ∃ before, s.disk path = some before
  known : ∀ job path, (t.jobs job).temporaryFile = some path →
    (s.jobs job).temporaryFile = some path

namespace Within
variable {s t u : Backups}

theorem refl (s : Backups) : Within s s := ⟨fun _ file there => ⟨file, there⟩, fun _ _ => id⟩

theorem trans (first : Within s t) (second : Within t u) : Within s u where
  files := fun path file there => by
    obtain ⟨between, there⟩ := second.files path file there
    exact first.files path between there
  known := fun job path temporary => first.known job path (second.known job path temporary)

theorem foldl {visit : Backups → Job → Backups} (one : ∀ s job, Within s (visit s job))
    (jobs : List Job) (s : Backups) : Within s (jobs.foldl visit s) := by
  induction jobs generalizing s with
  | nil => exact refl s
  | cons job rest ih => exact (one s job).trans (ih _)

theorem finish (s : Backups) (job : Job) : Within s (s.finish job) where
  files := fun path file there => by
    obtain ⟨before, found, _⟩ := finish_file there
    exact ⟨before, found⟩
  known := fun _ _ => id

/-- The file and the path of the job are gone. -/
theorem drop (s : Backups) (job : Job) (data : List UInt8) :
    Within s ((s.setJob job ⟨data, (s.jobs job).temporaryFile⟩).destroy job) := by
  have jobs : ∀ other path, (Function.update s.jobs job ⟨data, none⟩ other).temporaryFile =
      some path → (s.jobs other).temporaryFile = some path := by
    intro other path temporary
    by_cases same : other = job
    · subst same
      rw [Function.update_self] at temporary
      cases temporary
    · rwa [Function.update_of_ne same] at temporary
  rw [drop_eq]
  split
  next => exact ⟨fun _ file there => ⟨file, there⟩, jobs⟩
  next gone _ =>
    refine ⟨fun path file there => ?_, jobs⟩
    change Function.update s.disk gone none path = some file at there
    by_cases same : path = gone
    · subst same
      rw [Function.update_self] at there
      cases there
    · rw [Function.update_of_ne same] at there
      exact ⟨file, there⟩

theorem destroy (s : Backups) (job : Job) : Within s (s.destroy job) := by
  have dropped := drop s job (s.jobs job).data
  unfold setJob at dropped
  rwa [Function.update_eq_self] at dropped

theorem pool (s : Backups) (pool : JobQueues) : Within s { s with pool } :=
  ⟨fun _ file there => ⟨file, there⟩, fun _ _ => id⟩

theorem workJob (s : Backups) (job : Job) (opened : Bool) (read : ReadOutcome)
    (callback : CallbackOutcome) : Within s (s.workJob job opened read callback).1 := by
  cases loaded : s.load job opened read with
  | error what =>
      rw [Backups.workJob, loaded]
      exact finish s job
  | ok data =>
      rw [workJob_ok loaded]
      exact (drop s job data).trans (finish _ job)

/-- A step that draws no name makes no file. -/
theorem after (s : Backups) {a : Act} (drawsNone : a.guid? = none) : Within s (s.after a) := by
  cases a with
  | save job folder guid opened => cases drawsNone
  | push job => exact pool s _
  | work priorities opened read callback =>
      unfold Backups.after
      dsimp only
      split
      next => exact pool s _
      next job _ => exact (pool s _).trans (workJob _ job opened read callback)
  | clear =>
      exact (foldl (fun s job => (destroy s job).trans (finish _ job)) s.queued s).trans (pool _ _)
  | clearPriority priority => exact (foldl finish (s.pool.queue priority) s).trans (pool _ _)

end Within

/-- Every file and every path has a name that was drawn. -/
structure Drawn (s : Backups) (names : List (List UInt8)) : Prop where
  files : ∀ path file, s.disk path = some file → path.guid ∈ names
  known : ∀ job path, (s.jobs job).temporaryFile = some path → path.guid ∈ names

theorem Drawn.within {s t : Backups} {names : List (List UInt8)} (drawn : s.Drawn names)
    (within : Within s t) : t.Drawn names where
  files := fun path file there => by
    obtain ⟨before, there⟩ := within.files path file there
    exact drawn.files path before there
  known := fun job path temporary => drawn.known job path (within.known job path temporary)

theorem Drawn.written {s : Backups} {names : List (List UInt8)} (drawn : s.Drawn names)
    (path : BackupPath) (file : Option BackupFile) (job : Job) :
    ((s.setFile path file).setJob job ⟨[], some path⟩).Drawn (path.guid :: names) where
  files := fun other file there => by
    change Function.update s.disk path _ other = some file at there
    by_cases same : other = path
    · exact same ▸ List.mem_cons_self
    · rw [Function.update_of_ne same] at there
      exact List.mem_cons_of_mem _ (drawn.files other file there)
  known := fun other known temporary => by
    change (Function.update s.jobs job _ other).temporaryFile = some known at temporary
    by_cases same : other = job
    · subst same
      rw [Function.update_self] at temporary
      cases temporary
      exact List.mem_cons_self
    · rw [Function.update_of_ne same] at temporary
      exact List.mem_cons_of_mem _ (drawn.known other known temporary)

theorem Drawn.saved {s : Backups} {names : List (List UInt8)} (drawn : s.Drawn names) (job : Job)
    (folder guid : List UInt8) (opened : Bool) :
    (s.save job folder guid opened).Drawn (guid :: names) := by
  have more : s.Drawn (guid :: names) :=
    ⟨fun path file there => List.mem_cons_of_mem _ (drawn.files path file there),
      fun job path temporary => List.mem_cons_of_mem _ (drawn.known job path temporary)⟩
  unfold save
  split
  next => exact more
  next =>
    split
    next => exact more
    next =>
      dsimp only
      split
      next => exact drawn.written ⟨folder, guid, job.priority⟩ _ job
      next =>
        have same := drawn.written ⟨folder, guid, job.priority⟩
          (s.disk ⟨folder, guid, job.priority⟩) job
        unfold setFile at same
        rwa [Function.update_eq_self] at same

theorem Drawn.fresh {s : Backups} {names : List (List UInt8)} (drawn : s.Drawn names)
    {numbers : Generator.Numbers} (new : Generator.guid numbers ∉ names) (job : Job)
    (folder : List UInt8) (opened : Bool) :
    s.Fresh (.save job folder (Generator.guid numbers) opened) := by
  refine ⟨Generator.guid_ne_nil _, Generator.dot_notMem_guid _, ?_, fun other temporary => ?_⟩
  · cases there : s.disk ⟨folder, Generator.guid numbers, job.priority⟩ with
    | none => rfl
    | some file => exact absurd (drawn.files _ file there) new
  · exact new (drawn.known other _ temporary)

/-- The files with the ledger that they are to mirror. -/
structure Journal where
  store : Backups
  ledger : Ledger

/-- Where a program ends: between two calls, or in a `save` that has written so many bytes. -/
inductive Ending where
  | between
  | saving (job : Job) (folder guid : List UInt8) (count : Nat)
  deriving DecidableEq, Repr

def Ending.guid? : Ending → Option (List UInt8)
  | .between => none
  | .saving _ _ guid _ => some guid

namespace Journal

def step (j : Journal) (a : Act) : Option Journal :=
  some ⟨j.store.after a, j.store.record j.ledger a⟩

def initial (data : Job → List UInt8) : Journal := ⟨.initial data fun _ => none, fun _ => none⟩

theorem initial_mirrors (data : Job → List UInt8) :
    (initial data).store.Mirrors (initial data).ledger where
  owned := ⟨fun there _ => (by cases there), fun there _ => (by cases there)⟩
  filed := fun _ _ there => by cases there
  kept := fun _ _ _ listed => by cases listed
  named := fun _ _ there => by cases there
  apart := fun _ _ _ temporary => by cases temporary

/-- Different numbers make names that are new. -/
theorem along_fresh {j t : Journal} {names : List (List UInt8)} (drawn : j.store.Drawn names)
    {acts : List Act} {numbers : List Generator.Numbers}
    (draws : acts.filterMap Act.guid? = numbers.map Generator.guid) (distinct : numbers.Nodup)
    (new : ∀ n ∈ numbers, Generator.guid n ∉ names) (ran : run step j acts = some t) :
    Along step (fun j a => j.store.Fresh a) j acts ∧
      t.store.Drawn (numbers.reverse.map Generator.guid ++ names) := by
  induction acts generalizing j names numbers with
  | nil =>
      cases List.map_eq_nil_iff.mp draws.symm
      cases ran
      exact ⟨trivial, drawn⟩
  | cons a rest ih =>
      obtain ⟨u, stepped, onward⟩ := run_cons.mp ran
      cases drew : a.guid? with
      | none =>
          rw [List.filterMap_cons_none drew] at draws
          have fresh : j.store.Fresh a := by
            cases a with
            | save job folder guid opened => cases drew
            | _ => trivial
          have still : u.store.Drawn names := by
            cases stepped
            exact drawn.within (Within.after j.store drew)
          obtain ⟨later, last⟩ := ih still draws distinct new onward
          exact ⟨.cons stepped fresh later, last⟩
      | some guid =>
          rw [List.filterMap_cons_some drew] at draws
          cases numbers with
          | nil => cases draws
          | cons n numbers =>
              obtain ⟨rfl, behind⟩ := List.cons.inj draws
              rw [List.forall_mem_cons] at new
              obtain ⟨other, distinct⟩ := List.nodup_cons.mp distinct
              cases a with
              | save job folder guid opened =>
                  cases drew
                  have fresh := drawn.fresh new.1 job folder opened
                  have still : u.store.Drawn (Generator.guid n :: names) := by
                    cases stepped
                    exact drawn.saved job folder _ opened
                  have apart : ∀ m ∈ numbers, Generator.guid m ∉ Generator.guid n :: names := by
                    intro m member named
                    rcases List.mem_cons.mp named with same | old
                    · exact other (Generator.guid_injective same ▸ member)
                    · exact new.2 m member old
                  obtain ⟨later, last⟩ := ih still behind distinct apart onward
                  refine ⟨.cons stepped fresh later, ?_⟩
                  rw [List.reverse_cons, List.map_append, List.append_assoc]
                  exact last
              | _ => cases drew

/-- The disk refines the ledger in every run. -/
theorem run_mirrors {j t : Journal} (mirrors : j.store.Mirrors j.ledger) {acts : List Act}
    (ran : run step j acts = some t) (fresh : Along step (fun j a => j.store.Fresh a) j acts) :
    t.store.Mirrors t.ledger := by
  induction acts generalizing j with
  | nil =>
      cases ran
      exact mirrors
  | cons a rest ih =>
      obtain ⟨u, stepped, ran⟩ := run_cons.mp ran
      obtain ⟨first, later⟩ := fresh
      have behind := later u stepped
      cases stepped
      exact ih (mirrors.after first) ran behind

theorem initial_drawn (data : Job → List UInt8) : (initial data).store.Drawn [] where
  files := fun _ _ there => by cases there
  known := fun _ _ temporary => by cases temporary

/-- What the end leaves. A file that was being written has the bytes that were written; the memory
of the program is gone, so it does not matter that the job still has its data. -/
def ended (j : Journal) : Ending → Journal
  | .between => j
  | .saving job folder guid count =>
      if (j.store.jobs job).data = [] ∨ priorityExtension job.priority = none then j
      else
        let path : BackupPath := ⟨folder, guid, job.priority⟩
        let content := (File.writeBytes (j.store.jobs job).data).take count
        { store := (j.store.setFile path (some ⟨content, some job, false⟩)).setJob job ⟨[], some path⟩
          ledger := Function.update j.ledger job (some (folder, content)) }

theorem ended_mirrors {j : Journal} (mirrors : j.store.Mirrors j.ledger) {ending : Ending}
    (fresh : ∀ job folder guid count, ending = .saving job folder guid count →
      j.store.Fresh (.save job folder guid true)) :
    (j.ended ending).store.Mirrors (j.ended ending).ledger := by
  cases ending with
  | between => exact mirrors
  | saving job folder guid count =>
      unfold ended
      dsimp only
      split
      next => exact mirrors
      next writes =>
        obtain ⟨some_, named⟩ := not_or.mp writes
        have unsaved : j.store.Unsaved job := fun _ _ there owner =>
          some_ (mirrors.owned.saved there owner)
        exact mirrors.written unsaved (fresh job folder guid count rfl) _ named

end Journal

/-- An extension without a dot is what `extension` finds behind a name. -/
theorem extension_append {stem behind : List UInt8} (some_ : stem ≠ []) (plain : dot ∉ behind)
    (more : behind ≠ []) : extension (stem ++ dot :: behind) = dot :: behind := by
  have own : ∀ byte ∈ behind.reverse, decide (byte ≠ dot) = true := by
    refine fun byte member => decide_eq_true fun same => plain ?_
    rw [← same]
    exact List.mem_reverse.mp member
  have tail : ((stem ++ dot :: behind).reverse.takeWhile (· ≠ dot)).reverse = behind := by
    rw [List.reverse_append, List.reverse_cons, List.append_assoc,
      List.takeWhile_append_of_pos own, List.singleton_append,
      List.takeWhile_cons_of_neg (by simp), List.append_nil, List.reverse_reverse]
  have long := List.length_pos_iff.mpr some_
  unfold extension
  dsimp only
  rw [tail, if_neg]
  rintro (dots | short)
  · have last := congrArg List.getLast? dots
    rw [List.getLast?_append_of_ne_nil _ (List.cons_ne_nil _ _), List.getLast?_cons_of_ne_nil more]
      at last
    exact plain (List.mem_of_getLast? (last.trans rfl))
  · rw [List.length_append, List.length_cons] at short
    omega

theorem priorityExtension_plain {priority : JobPriorities} {name : List UInt8}
    (named : priorityExtension priority = some name) :
    dot ∉ name ∧ name ≠ [] ∧ dot :: name ∈ backupExtensions := by
  cases priority <;> cases named <;> decide

/-- A name has one dot at the most behind which there is an extension. -/
theorem fileName_inj {p q : BackupPath} (folder : p.folder = q.folder)
    (first : priorityExtension p.priority ≠ none) (second : priorityExtension q.priority ≠ none)
    (guids : p.guid ≠ [] ∧ q.guid ≠ []) (same : fileName p = fileName q) : p = q := by
  obtain ⟨one, named⟩ := Option.ne_none_iff_exists'.mp first
  obtain ⟨two, named'⟩ := Option.ne_none_iff_exists'.mp second
  unfold fileName at same
  rw [named, named', Option.getD_some, Option.getD_some] at same
  obtain ⟨plain, more, _⟩ := priorityExtension_plain named
  obtain ⟨plain', more', _⟩ := priorityExtension_plain named'
  have behind := congrArg extension same
  rw [extension_append guids.1 plain more, extension_append guids.2 plain' more'] at behind
  have guid : p.guid = q.guid := List.append_cancel_right (behind ▸ same)
  have priority : p.priority = q.priority := by
    have extensions : priorityExtension p.priority = priorityExtension q.priority := by
      rw [named, named', (List.cons.inj behind).2]
    revert first extensions
    cases p.priority <;> cases q.priority <;> decide
  cases p
  cases q
  cases folder
  cases guid
  cases priority
  rfl

theorem isBackup_of_fileName {e : BackupEntry} {path : BackupPath} (regular : e.regular = true)
    (name : e.name = fileName path) (guid : path.guid ≠ [])
    (named : priorityExtension path.priority ≠ none) : e.isBackup = true := by
  obtain ⟨behind, found⟩ := Option.ne_none_iff_exists'.mp named
  obtain ⟨plain, more, known⟩ := priorityExtension_plain found
  rw [BackupEntry.isBackup, regular, Bool.true_and, List.contains_iff_mem, name, fileName, found,
    Option.getD_some, extension_append guid plain more]
  exact known

/-- Everything is read, and every job file is removed. -/
def Succeeds (treatment : BackupEntry → Treatment) : Prop :=
  ∀ e, treatment e = ⟨true, .complete, true⟩

theorem visit_succeeds {treatment : BackupEntry → Treatment} (succeeds : Succeeds treatment)
    (entries : List BackupEntry) :
    (Recovery.visit treatment entries).left = entries.filter (fun e => !e.isBackup) ∧
      (Recovery.visit treatment entries).returned =
        .ok ((entries.filter BackupEntry.isBackup).map BackupEntry.content) := by
  induction entries with
  | nil => exact ⟨rfl, rfl⟩
  | cons e rest ih =>
      obtain ⟨left, result⟩ := ih
      unfold Recovery.returned at result ⊢
      rw [Recovery.visit]
      cases backup : e.isBackup with
      | false =>
          rw [if_neg Bool.false_ne_true, List.filter_cons_of_pos (by rw [backup]; rfl),
            List.filter_cons_of_neg (by rw [backup]; exact Bool.false_ne_true)]
          exact ⟨congrArg (e :: ·) left, result⟩
      | true =>
          have read : e.sourceData (treatment e) = .ok (some e.content) := by rw [succeeds e]; rfl
          rw [if_pos rfl, read, succeeds e, List.filter_cons_of_neg (by rw [backup]; decide),
            List.filter_cons_of_pos backup]
          refine ⟨left, ?_⟩
          dsimp only
          cases later : (Recovery.visit treatment rest).result with
          | error what =>
              rw [later] at result
              cases result
          | ok pairs =>
              rw [later] at result
              exact congrArg (fun all => Except.ok (e.content :: all)) (Except.ok.inj result)

theorem Mirrors.recovers {s : Backups} {l : Ledger} (mirrors : s.Mirrors l)
    {folder : List UInt8} {listing : BackupFolder} (lists : s.ListsAll folder listing)
    {treatment : BackupEntry → Treatment} (succeeds : Succeeds treatment) :
    ∃ recovered result, recovered.Nodup ∧
      (∀ job, job ∈ recovered ↔ ∃ data, l job = some (folder, data)) ∧
      (Recovery.uncompletedJobs treatment (some listing)).returned = .ok result ∧
      List.Forall₂ (fun job data => l job = some (folder, data)) recovered result ∧
      ∀ e ∈ (Recovery.uncompletedJobs treatment (some listing)).left, e.isBackup = false := by
  obtain ⟨left, result⟩ := visit_succeeds succeeds listing.entries
  let files := listing.entries.filter BackupEntry.isBackup
  -- The job of an entry is the owner of the file that has the entry's name.
  have owned : ∀ e ∈ files, ∃ job path file, path.folder = folder ∧ fileName path = e.name ∧
      s.disk path = some file ∧ file.owner = some job ∧ file.content = e.content := by
    intro e member
    obtain ⟨inside, backup⟩ := List.mem_filter.mp member
    obtain ⟨path, file, within, name, there, content⟩ := lists.there e inside backup
    obtain ⟨job, owner, _⟩ := mirrors.filed path file there
    exact ⟨job, path, file, within, name, there, owner, content⟩
  have : Nonempty Job := ⟨⟨0, .low⟩⟩
  have : Nonempty BackupPath := ⟨⟨[], [], .low⟩⟩
  have : Nonempty BackupFile := ⟨⟨[], none, false⟩⟩
  choose! owner place file within name there own content using owned
  have ledger : ∀ e ∈ files, l (owner e) = some (folder, e.content) := by
    intro e member
    obtain ⟨job, owner', listed⟩ := mirrors.filed _ _ (there e member)
    cases owner'.symm.trans (own e member)
    rw [listed, within e member, content e member]
  refine ⟨files.map owner, files.map BackupEntry.content, ?_, ?_, result, ?_, ?_⟩
  · have names : (files.map BackupEntry.name).Nodup :=
      listing.distinct.sublist (List.filter_sublist.map BackupEntry.name)
    refine List.Nodup.map_on ?_ names.of_map
    intro e member other member' same
    have here := mirrors.owned.named (there e member) (own e member)
    have also := mirrors.owned.named (there other member') (own other member')
    rw [← same, here] at also
    refine List.inj_on_of_nodup_map names member member' ?_
    rw [← name e member, ← name other member', Option.some.inj also]
  · intro job
    rw [List.mem_map]
    constructor
    · rintro ⟨e, member, rfl⟩
      exact ⟨_, ledger e member⟩
    · rintro ⟨bytes, listed⟩
      obtain ⟨path, kept, inFolder, stored, ownerOf, _⟩ := mirrors.kept job folder bytes listed
      obtain ⟨e, inside, regular, named, _⟩ := lists.listed path kept inFolder stored
      obtain ⟨guid, _, extension⟩ := mirrors.named path kept stored
      have member : e ∈ files :=
        List.mem_filter.mpr ⟨inside, isBackup_of_fileName regular named guid extension⟩
      obtain ⟨guid', _, extension'⟩ := mirrors.named _ _ (there e member)
      have same : place e = path := fileName_inj ((within e member).trans inFolder.symm) extension'
        extension ⟨guid', guid⟩ ((name e member).trans named)
      refine ⟨e, member, ?_⟩
      have found := there e member
      rw [same, stored] at found
      have mine := own e member
      rw [← Option.some.inj found, ownerOf] at mine
      exact (Option.some.inj mine).symm
  · rw [List.forall₂_map_left_iff, List.forall₂_map_right_iff, List.forall₂_same]
    exact ledger
  · intro e member
    unfold Recovery.uncompletedJobs at member
    rw [left, List.mem_filter, Bool.not_eq_true'] at member
    exact member.2

/-- Wherever a program has ended, the next one gets back what had been saved in the folder and
neither worked nor cleared, each job once and whole, but for a file that was just being written:
of that job it gets what was written. No job file is left. -/
theorem crash_recovers {data : Job → List UInt8} {acts : List Act} {j : Journal}
    (ran : run Journal.step (.initial data) acts = some j) (ending : Ending)
    {numbers : List Generator.Numbers} (distinct : numbers.Nodup)
    (draws : acts.filterMap Act.guid? ++ ending.guid?.toList = numbers.map Generator.guid)
    {folder : List UInt8} {listing : BackupFolder}
    (lists : (j.ended ending).store.ListsAll folder listing)
    {treatment : BackupEntry → Treatment} (succeeds : Succeeds treatment) :
    ∃ recovered result, recovered.Nodup ∧
      (∀ job, job ∈ recovered ↔ ∃ data, (j.ended ending).ledger job = some (folder, data)) ∧
      (Recovery.uncompletedJobs treatment (some listing)).returned = .ok result ∧
      List.Forall₂ (fun job data => (j.ended ending).ledger job = some (folder, data)) recovered
        result ∧
      ∀ e ∈ (Recovery.uncompletedJobs treatment (some listing)).left, e.isBackup = false := by
  obtain ⟨first, last, split, draws, drewLast⟩ := List.append_eq_map_iff.mp draws
  rw [split, List.nodup_append] at distinct
  obtain ⟨fresh, drawn⟩ := Journal.along_fresh (Journal.initial_drawn data) draws.symm distinct.1
    (fun _ _ named => (by cases named)) ran
  have mirrors := Journal.run_mirrors (Journal.initial_mirrors data) ran fresh
  refine (Journal.ended_mirrors mirrors ?_).recovers lists succeeds
  rintro job folder guid count rfl
  obtain ⟨n, rest, rfl, rfl, _⟩ := List.map_eq_cons_iff.mp drewLast
  refine drawn.fresh (fun named => ?_) job folder true
  rw [List.append_nil, List.mem_map] at named
  obtain ⟨old, member, same⟩ := named
  cases Generator.guid_injective same
  exact distinct.2.2 _ (List.mem_reverse.mp member) _ List.mem_cons_self rfl

/-- The program ends while a second job is saved. -/
theorem crash_recovers_cut :
    let data : Job → List UInt8 := fun job => [UInt8.ofNat job.id, 8]
    let draw : UInt16 → Generator.Numbers := fun n => ⟨n, 0, 0, 0, 0⟩
    let acts : List Act := [.save ⟨1, .low⟩ [70] (Generator.guid (draw 1)) true,
      .push (some ⟨1, .low⟩)]
    let ending : Ending := .saving ⟨2, .top⟩ [70] (Generator.guid (draw 2)) 1
    let low : BackupPath := ⟨[70], Generator.guid (draw 1), .low⟩
    let top : BackupPath := ⟨[70], Generator.guid (draw 2), .top⟩
    let listing : BackupFolder :=
      ⟨[⟨fileName low, true, [1, 8]⟩, ⟨fileName top, true, [2]⟩, ⟨[99], true, [7]⟩],
        by decide +kernel⟩
    ∃ j, run Journal.step (.initial data) acts = some j ∧
      ∃ recovered result, recovered.Nodup ∧
        (∀ job, job ∈ recovered ↔ ∃ data, (j.ended ending).ledger job = some ([70], data)) ∧
        (Recovery.uncompletedJobs (fun _ => ⟨true, .complete, true⟩) (some listing)).returned =
          .ok result ∧
        List.Forall₂ (fun job data => (j.ended ending).ledger job = some ([70], data)) recovered
          result ∧
        ∀ e ∈ (Recovery.uncompletedJobs (fun _ => ⟨true, .complete, true⟩) (some listing)).left,
          e.isBackup = false := by
  intro data draw acts ending low top listing
  obtain ⟨j, ran⟩ : ∃ j, run Journal.step (.initial data) acts = some j := ⟨_, rfl⟩
  have stored : ∀ path, j.store.disk path =
      if path = low then some ⟨[1, 8], some ⟨1, .low⟩, false⟩ else none := by
    intro path
    cases ran
    exact Function.update_apply ..
  have second : (j.store.jobs ⟨2, .top⟩).data = [2, 8] := by
    cases ran
    decide +kernel
  have disk : ∀ path, (j.ended ending).store.disk path =
      if path = top then some ⟨[2], some ⟨2, .top⟩, false⟩
      else if path = low then some ⟨[1, 8], some ⟨1, .low⟩, false⟩ else none := by
    intro path
    rw [← stored path]
    simp only [Journal.ended, ending, second, setFile, setJob]
    exact Function.update_apply ..
  have distinct : [draw 1, draw 2].Nodup := by decide
  refine ⟨j, ran, crash_recovers ran ending distinct rfl ⟨?_, ?_⟩ fun _ => rfl⟩
  · intro e inside backup
    rcases List.mem_cons.mp inside with rfl | inside
    · exact ⟨low, _, rfl, rfl, (disk _).trans ((if_neg (by decide)).trans (if_pos rfl)), rfl⟩
    · rcases List.mem_cons.mp inside with rfl | inside
      · exact ⟨top, _, rfl, rfl, (disk _).trans (if_pos rfl), rfl⟩
      · cases List.mem_singleton.mp inside
        exact absurd backup (by decide)
  · intro path file _ there
    rw [disk] at there
    split at there
    next same =>
      cases there
      exact ⟨_, List.mem_cons_of_mem _ List.mem_cons_self, rfl, same ▸ rfl, rfl⟩
    next =>
      split at there
      next same =>
        cases there
        exact ⟨_, List.mem_cons_self, rfl, same ▸ rfl, rfl⟩
      next => cases there

end Backups
end CppToolkit.Thread
