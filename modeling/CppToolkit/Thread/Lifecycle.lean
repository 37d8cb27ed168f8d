import CppToolkit.Library.Futures
import CppToolkit.Library.Machine
import CppToolkit.Library.RemoveIf
import CppToolkit.Library.Visits
import CppToolkit.Thread.JobPool

/-! The calls of a thread pool one after the other, each of them run to its end. What the threads
of the workers do between two calls is a step of its own. -/
namespace CppToolkit.Thread.Lifecycle
open Futures Machine Visits RemoveIf

/-- What `std::make_unique<std::thread>` comes to. -/
inductive Creation where
  | created
  | badAlloc
  | systemError
  deriving DecidableEq, Repr

inductive Exception where
  | future (error : FutureError)
  | system
  deriving DecidableEq, Repr

/-- A call that does not return `{ true, nullopt }`. -/
inductive Halt where
  | refused (message : String)
  | thrown (exception : Exception)
  deriving DecidableEq, Repr

abbrev Answer := Except Halt Unit

/-- `thread` is whether `thread_` is set; its thread runs exactly then. -/
structure ThreadWorker where
  priorities : List JobPriorities
  thread : Bool
  pause : Bool
  threadStop : Bool
  deriving DecidableEq, Repr

/-- A worker that has just been constructed. -/
def ThreadWorker.initial (priorities : List JobPriorities) : ThreadWorker :=
  ⟨priorities, false, false, false⟩

/-- An entry of `threadWorkers` is a null pointer or the number of a worker, and `promise_` of a
worker has its number. `threadsCreated` counts the attempts to create a thread. -/
structure ThreadPool where
  jobPool : JobPool
  working : Bool
  pause : Bool
  threadWorkers : List (Option Nat)
  workers : Nat → ThreadWorker
  promises : Promises
  threadsCreated : Nat

inductive Call where
  | pushJob (job : Job)
  | pushWorker (worker : Option Nat)
  | removeWorkers (priority : JobPriorities)
  | start
  | pause (pause : Bool)
  | stop (immediately : Bool)
  | work (worker : Nat)
  deriving DecidableEq, Repr

namespace ThreadPool

/-- A new pool, with the workers that exist beside it. -/
def initial (workers : Nat → ThreadWorker) : ThreadPool where
  jobPool := .empty
  working := false
  pause := false
  threadWorkers := []
  workers := workers
  promises := .empty
  threadsCreated := 0

def setWorker (s : ThreadPool) (i : Nat) (w : ThreadWorker) : ThreadPool :=
  { s with workers := Function.update s.workers i w }

/-- `join` and `thread_.reset()`: with `thread_stop_` set, a thread works off its queues, paused or
not, clears the flag and ends. -/
def join (s : ThreadPool) (i : Nat) : ThreadPool :=
  let w := s.workers i
  let jobPool := w.priorities.foldl JobPool.clearPriority s.jobPool
  { s with jobPool }.setWorker i { w with thread := false, threadStop := false }

/-- `ThreadWorker::stop`. -/
def stopWorker (s : ThreadPool) (i : Nat) : ThreadPool × Answer :=
  if (s.workers i).thread = false then (s, .error (.refused "Thread is not running."))
  else (s.join i, .ok ())

/-- The new thread sets the value for which `start` waits. -/
def runWorker (s : ThreadPool) (i : Nat) : ThreadPool × Answer :=
  match s.promises.setValue i with
  | .error error => (s, .error (.thrown (.future error)))
  | .ok promises => ({ s with promises }.setWorker i { s.workers i with thread := true }, .ok ())

/-- `ThreadWorker::start`; the n-th thread of a run comes to `creation n`. -/
def startWorker (creation : Nat → Creation) (s : ThreadPool) (i : Nat) : ThreadPool × Answer :=
  let s := (s.stopWorker i).1
  if (s.workers i).priorities = [] then
    (s, .error (.refused "cannot start by empty priorities"))
  else
    let s := s.setWorker i { s.workers i with threadStop := false }
    match s.promises.getFuture i with
    | .error error => (s, .error (.thrown (.future error)))
    | .ok promises =>
        let attempt := s.threadsCreated
        let s := { s with promises, threadsCreated := attempt + 1 }
        match creation attempt with
        | .badAlloc => (s, .error (.refused "Failed to create thread instance."))
        | .systemError => (s, .error (.thrown .system))
        | .created => s.runWorker i

def pushJob (s : ThreadPool) (job : Job) : ThreadPool × Answer :=
  if s.jobPool.lockCondition then
    (s, .error (.refused "the system is locked and new tasks cannot be created"))
  else ({ s with jobPool := s.jobPool.insert job }, .ok ())

/-- A null worker is logged and passed over. What a started worker returns is not looked at. -/
def pushWorker (creation : Nat → Creation) (s : ThreadPool) : Option Nat → ThreadPool × Answer
  | none => (s, .ok ())
  | some i =>
      let s := { s with threadWorkers := s.threadWorkers ++ [some i] }
      let s := s.setWorker i { s.workers i with pause := s.pause }
      if s.working then
        match s.startWorker creation i with
        | (s, .error (.thrown exception)) => (s, .error (.thrown exception))
        | (s, _) => (s, .ok ())
      else (s, .ok ())

def start (creation : Nat → Creation) (s : ThreadPool) : ThreadPool × Answer :=
  if s.working then (s, .error (.refused "already started"))
  else
    match walk (unlessNull (startWorker creation)) s.threadWorkers s with
    | (s, .error halt) => (s, .error halt)
    | (s, .ok ()) => ({ s with working := true }, .ok ())

def setPause (s : ThreadPool) (pause : Bool) : ThreadPool :=
  { s with
    pause := pause
    workers := fun i =>
      if some i ∈ s.threadWorkers then { s.workers i with pause := pause } else s.workers i }

/-- The early return leaves `lock(true)` behind. -/
def stop (s : ThreadPool) (immediately : Bool) : ThreadPool × Answer :=
  if s.working = false then (s, .error (.refused "not started"))
  else
    let jobPool := s.jobPool.lock true
    let s := { s with jobPool := if immediately then jobPool.clear else jobPool }
    match walk (unlessNull stopWorker) s.threadWorkers s with
    | (s, .error halt) => (s, .error halt)
    | (s, .ok ()) => ({ s with jobPool := s.jobPool.lock false, working := false }, .ok ())

/-- The predicate of `remove_workers`, which rewrites and stops the workers it is asked about. -/
def losesPriority (priority : JobPriorities) (s : ThreadPool) : Option Nat → ThreadPool × Bool
  | none => (s, false)
  | some i =>
      let (_, priorities, _) :=
        removeIf (stateless fun target => target = priority) id [] [] (s.workers i).priorities ()
      let s := s.setWorker i { s.workers i with priorities }
      if priorities ≠ [] then (s, false) else ((s.stopWorker i).1, true)

/-- `remove_workers`, with the number of the removed entries; a moved-from pointer is null. -/
def removeWorkers (s : ThreadPool) (priority : JobPriorities) :
    ThreadPool × Nat × Option String :=
  let s := { s with jobPool := s.jobPool.clearPriority priority }
  let (s, kept, removedItems) :=
    removeIf (losesPriority priority) (fun _ => none) [] [] s.threadWorkers s
  if removedItems.length = 0 then
    ({ s with threadWorkers := kept ++ removedItems }, 0, some "no worker to remove")
  else ({ s with threadWorkers := kept }, removedItems.length, none)

/-- A worker that is not paused works on the next job of its queues. -/
def work (s : ThreadPool) (i : Nat) : ThreadPool :=
  let w := s.workers i
  if w.thread = false ∨ w.pause then s
  else
    match s.jobPool.pop w.priorities with
    | none => s
    | some (_, jobPool) => { s with jobPool }

def call (creation : Nat → Creation) (s : ThreadPool) : Call → ThreadPool × Answer
  | .pushJob job => s.pushJob job
  | .pushWorker worker => s.pushWorker creation worker
  | .removeWorkers priority => ((s.removeWorkers priority).1, .ok ())
  | .start => s.start creation
  | .pause pause => (s.setPause pause, .ok ())
  | .stop immediately => s.stop immediately
  | .work i => (s.work i, .ok ())

def step (creation : Nat → Creation) (s : ThreadPool) (c : Call) : Option ThreadPool :=
  some (s.call creation c).1

end ThreadPool
end CppToolkit.Thread.Lifecycle
