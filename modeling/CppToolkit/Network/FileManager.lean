import CppToolkit.Library.Bag
import CppToolkit.Library.Memory
import CppToolkit.Utilities.Converter
import CppToolkit.Network.DataHandler

/-! The file manager of a peer. `record` and `checkCondition` are separate critical
sections of its mutex, and completion runs as a job of the pool. -/
namespace CppToolkit.Network
open Memory Utilities Bag

abbrev Guid := List UInt8

structure ReceivedConditions where
  count : Nat
  failures : List (List UInt8)
  successes : List (List UInt8 × List UInt8)
  deriving DecidableEq, Repr

inductive FileOutcome where
  | failure (message : List UInt8)
  | success (message tempFilePath : List UInt8)
  deriving DecidableEq, Repr

def ReceivedConditions.record (conditions : ReceivedConditions) : FileOutcome → ReceivedConditions
  | .failure message => { conditions with failures := conditions.failures ++ [message] }
  | .success message path =>
      { conditions with successes := conditions.successes ++ [(message, path)] }

def ReceivedConditions.targetCount (conditions : ReceivedConditions) : Nat :=
  conditions.failures.length + conditions.successes.length

/-- `threadPool` is the lock flag of the pool, `callback` whether `callback_` is set. -/
structure FileManager where
  threadPool : Option Bool
  fileConditions : Guid → Option ReceivedConditions
  callback : Bool

namespace FileManager

def initial : FileManager := ⟨none, fun _ => none, false⟩

def insert (m : FileManager) (guid : Guid) (conditions : ReceivedConditions) : FileManager :=
  { m with fileConditions := Function.update m.fileConditions guid (some conditions) }

def erase (m : FileManager) (guid : Guid) : FileManager :=
  { m with fileConditions := Function.update m.fileConditions guid none }

def notFound (guid : Guid) : String :=
  "cannot find same guid on file manager: " ++ Converter.text guid

def start (m : FileManager) (guid : Guid) (count : Nat) : FileManager × Except String Unit :=
  match m.fileConditions guid with
  | some _ => (m, .error ("cannot make file manager due to same guid: " ++ Converter.text guid))
  | none => (m.insert guid ⟨count, [], []⟩, .ok ())

/-- The first critical section of `failure` and `success`; an error ends the call. -/
def record (m : FileManager) (guid : Guid) (outcome : FileOutcome) :
    FileManager × Except String Unit :=
  match m.fileConditions guid with
  | none => (m, .error (notFound guid))
  | some conditions => (m.insert guid (conditions.record outcome), .ok ())

/-- `check_condition`: the job it pushes, if any. The pool pointer is not tested. -/
def checkCondition (m : FileManager) (guid : Guid) : Checked (Except String (Option Job)) :=
  match m.fileConditions guid with
  | none => .ok (.error (notFound guid))
  | some conditions =>
      if conditions.count ≠ conditions.targetCount then .ok (.ok none)
      else
        match m.threadPool with
        | none => .error .nullPointer
        | some true => .ok (.error "the system is locked and new tasks cannot be created")
        | some false => .ok (.ok (some (.checkConditionCallback (Converter.toArray guid))))

theorem checkCondition_job {m : FileManager} {guid : Guid} {job : Job}
    (checked : m.checkCondition guid = .ok (.ok (some job))) :
    job = .checkConditionCallback (Converter.toArray guid) := by
  unfold checkCondition at checked
  split at checked
  next => cases checked
  next =>
    split at checked
    next => cases checked
    next =>
      split at checked
      next => cases checked
      next => cases checked
      next =>
        cases checked
        rfl

/-- The arguments of one call of `callback_`, with the key whose entry they are from. -/
structure Completion where
  guid : Guid
  failures : List (List UInt8)
  successes : List (List UInt8 × List UInt8)
  deriving DecidableEq, Repr

/-- The critical section of `check_condition_callback`; the callback is called after it. -/
def checkConditionCallback (m : FileManager) (guid : List UInt8) :
    FileManager × Except String (Option Completion) :=
  let key := Converter.toString guid
  match m.fileConditions key with
  | none => (m, .error (notFound key))
  | some conditions =>
      if m.callback then
        (m.erase key, .ok (some ⟨key, conditions.failures, conditions.successes⟩))
      else (m.erase key, .ok none)

/-- `failure` and `success` as one thread runs them: record, then check. -/
def report (m : FileManager) (guid : Guid) (outcome : FileOutcome) :
    Checked (FileManager × Except String (Option Job)) :=
  match m.record guid outcome with
  | (m, .error what) => .ok (m, .error what)
  | (m, .ok ()) => do
      let pushed ← m.checkCondition guid
      .ok (m, pushed)

theorem report_job {m n : FileManager} {guid : Guid} {outcome : FileOutcome} {job : Job}
    (reported : m.report guid outcome = .ok (n, .ok (some job))) :
    job = .checkConditionCallback (Converter.toArray guid) := by
  unfold report at reported
  split at reported
  next => cases reported
  next =>
    obtain ⟨pushed, checked, same⟩ := bind_eq_ok.mp reported
    cases same
    exact checkCondition_job checked

def failure (m : FileManager) (guid : Guid) (message : List UInt8) :
    Checked (FileManager × Except String (Option Job)) := m.report guid (.failure message)

def success (m : FileManager) (guid : Guid) (message tempFilePath : List UInt8) :
    Checked (FileManager × Except String (Option Job)) :=
  m.report guid (.success message tempFilePath)

end FileManager

/-- A file manager with the threads inside it: those that have recorded an outcome and
have still to check, the pushed jobs, the jobs that have left their critical section and
have still to call the callback, and the calls made. -/
structure FileManagement where
  manager : FileManager
  checks : List Guid
  jobs : List Job
  calling : List FileManager.Completion
  calls : List FileManager.Completion

namespace FileManagement

inductive Action where
  | start (guid : Guid) (count : Nat)
  | record (guid : Guid) (outcome : FileOutcome)
  | check (thread : Nat)
  | job (position : Nat)
  | call (position : Nat)
  deriving DecidableEq, Repr

/-- With a live pool and the callback set, as both peers set it up. -/
def initial : FileManagement :=
  ⟨{ FileManager.initial with threadPool := some false, callback := true }, [], [], [], []⟩

def startStep (s : FileManagement) (guid : Guid) (count : Nat) : FileManagement :=
  { s with manager := (s.manager.start guid count).1 }

def recordStep (s : FileManagement) (guid : Guid) (outcome : FileOutcome) : FileManagement :=
  match s.manager.record guid outcome with
  | (_, .error _) => s
  | (manager, .ok ()) => { s with manager, checks := s.checks ++ [guid] }

/-- The check of a thread that recorded for `guid`; a fault leaves no next state. -/
def checkStep (s : FileManagement) (guid : Guid) (rest : List Guid) : Option FileManagement :=
  match s.manager.checkCondition guid with
  | .error _ => none
  | .ok (.ok (some job)) => some { s with checks := rest, jobs := s.jobs ++ [job] }
  | .ok _ => some { s with checks := rest }

def jobStep (s : FileManagement) (guid : List UInt8) (rest : List Job) : FileManagement :=
  match s.manager.checkConditionCallback guid with
  | (manager, .ok (some completion)) =>
      { s with manager, jobs := rest, calling := s.calling ++ [completion] }
  | (manager, _) => { s with manager, jobs := rest }

def callStep (s : FileManagement) (completion : FileManager.Completion)
    (rest : List FileManager.Completion) : FileManagement :=
  { s with calling := rest, calls := s.calls ++ [completion] }

def step (s : FileManagement) : Action → Option FileManagement
  | .start guid count => some (s.startStep guid count)
  | .record guid outcome => some (s.recordStep guid outcome)
  | .check thread =>
      match takeAt s.checks thread with
      | some (guid, rest) => s.checkStep guid rest
      | none => none
  | .job position =>
      match takeAt s.jobs position with
      | some (.checkConditionCallback guid, rest) => some (s.jobStep guid rest)
      | _ => none
  | .call position =>
      match takeAt s.calling position with
      | some (completion, rest) => some (s.callStep completion rest)
      | none => none

/-- Every thread has left the manager and every pushed job has run. -/
def Quiet (s : FileManagement) : Prop := s.checks = [] ∧ s.jobs = [] ∧ s.calling = []

end FileManagement
end CppToolkit.Network
