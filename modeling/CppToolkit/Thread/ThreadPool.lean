import CppToolkit.Thread.ThreadWorker

/-! The thread pool with all threads in it: the workers, and any number of callers of
`push`, `pause`, `stop` and `remove_workers`. -/
namespace CppToolkit.Thread

/-- The thread that holds the mutex of the pool. -/
inductive Owner where
  | worker (worker : Nat)
  | caller (caller : Nat)
  deriving DecidableEq, Repr

/-- The two loops over the workers that stop them. `before` are the jobs that had been
accepted when `stop` was called, `removed` the workers that `remove_if` has dropped. -/
inductive Loop where
  | stop (before : List Job)
  | remove (priority : JobPriorities) (removed : List Nat)
  deriving DecidableEq, Repr

/-- How far a call is. `pause`, `stop` and `remove` wait for the mutex, what follows them
holds it. At `next` the loop takes the next worker, at `halting` it calls its `stop`, and
in `joining` it waits for the thread. -/
inductive Operation where
  | push (push : Push)
  | pause (flag : Bool)
  | pausing (flag : Bool) (left : List Nat)
  | stop (immediately : Bool) (before : List Job)
  | stopTest (immediately : Bool) (before : List Job)
  | stopLocked (immediately : Bool) (before : List Job)
  | stopped (before : List Job)
  | clear (priority : JobPriorities)
  | remove (priority : JobPriorities)
  | next (loop : Loop) (left : List Nat)
  | halting (loop : Loop) (worker : Nat) (left : List Nat)
  | joining (loop : Loop) (worker : Nat) (left : List Nat)
  deriving DecidableEq, Repr

/-- `remove_if` drops worker `i`. -/
def Loop.joined (i : Nat) : Loop → Loop
  | .stop before => .stop before
  | .remove priority removed => .remove priority (removed ++ [i])

inductive Call where
  | push (priority : JobPriorities)
  | pause (flag : Bool)
  | stop (immediately : Bool)
  | removeWorkers (priority : JobPriorities)
  deriving DecidableEq, Repr

/-- The error that `stop` returned, if any, and the jobs that had been accepted when it
was called. -/
structure Stopped where
  error : Option String
  before : List Job
  deriving DecidableEq, Repr

/-- `inserted` are all jobs that `push` put into a queue, in their order, `accepted` those
for which it has returned, `worked` those whose `work` was called. `stops` and `removals`
are what the calls have returned. -/
structure ThreadPool where
  jobPool : JobPool
  mutex : Option Owner
  working : Bool
  pause : Bool
  threadWorkers : List Nat
  workers : Nat → ThreadWorker
  callers : Nat → Option Operation
  inserted : List Job
  accepted : List Job
  worked : List Job
  stops : List Stopped
  removals : List (Nat × Option String)

inductive Action where
  | worker (worker : Nat)
  | push (worker : Nat) (priority : JobPriorities)
  | call (caller : Nat) (call : Call)
  | caller (caller : Nat)
  deriving DecidableEq, Repr

namespace ThreadPool

/-- A pool that has just been started with these workers. What was pushed or paused
before is a call before the first step of a worker. -/
def started (priorities : List (List JobPriorities)) : ThreadPool where
  jobPool := .empty
  mutex := none
  working := true
  pause := false
  threadWorkers := List.range priorities.length
  workers := fun i => (priorities[i]?.map fun list => .started list false).getD .absent
  callers := fun _ => none
  inserted := []
  accepted := []
  worked := []
  stops := []
  removals := []

def setWorker (s : ThreadPool) (i : Nat) (w : ThreadWorker) : ThreadPool :=
  { s with workers := Function.update s.workers i w }

def setPhase (s : ThreadPool) (i : Nat) (phase : Phase) : ThreadPool :=
  s.setWorker i { s.workers i with phase := phase }

def setCaller (s : ThreadPool) (j : Nat) (operation : Option Operation) : ThreadPool :=
  { s with callers := Function.update s.callers j operation }

def unlock (s : ThreadPool) : ThreadPool := { s with mutex := none }

def returnStop (s : ThreadPool) (error : Option String) (before : List Job) : ThreadPool :=
  { s with stops := s.stops ++ [⟨error, before⟩] }

/-- One step of `JobPool::push` with the call of `ThreadPool::notify_callback` at its end;
no push is left when it returns. -/
def pushStep (s : ThreadPool) (me : Owner) : Push → Option (ThreadPool × Option Push)
  | .test priority =>
      if s.jobPool.lockCondition then some (s, none) else some (s, some (.insert priority))
  | .insert priority =>
      let job : Job := ⟨s.inserted.length, priority⟩
      some ({ s with jobPool := s.jobPool.insert job, inserted := s.inserted ++ [job] },
        some (.waiting job))
  | .waiting job =>
      if s.mutex = none then some ({ s with mutex := some me }, some (.notifying job s.threadWorkers))
      else none
  | .notifying job (i :: left) =>
      if ¬ (s.workers i).wants job.priority then some (s, some (.notifying job left))
      else if (s.workers i).locked then none
      else some (s.setWorker i (s.workers i).notify, some (.notifying job left))
  | .notifying job [] =>
      some ({ s.unlock with accepted := s.accepted ++ [job] }, none)

/-- `ThreadWorker::run`. -/
def workerStep (s : ThreadPool) (i : Nat) : Option ThreadPool :=
  let w := s.workers i
  match w.phase with
  | .idle => some (s.setPhase i .checking)
  | .checking =>
      if w.threadStop then some (s.setPhase i .stopTest)
      else if w.pause then some (s.setPhase i (.blocked false))
      else some (s.setPhase i (.counting (w.hasJob s.jobPool).1 (w.hasJob s.jobPool).2))
  | .counting (priority :: left) count =>
      some (s.setPhase i (.counting left (count + s.jobPool.countOf priority)))
  | .counting [] count =>
      if 0 < count then some (s.setPhase i .stopTest) else some (s.setPhase i (.blocked false))
  | .blocked _ => some (s.setPhase i .checking)
  | .stopTest =>
      if w.threadStop then
        some (s.setPhase i (.stopCounting (w.hasJob s.jobPool).1 (w.hasJob s.jobPool).2))
      else some (s.setPhase i .pauseTest)
  | .stopCounting (priority :: left) count =>
      some (s.setPhase i (.stopCounting left (count + s.jobPool.countOf priority)))
  | .stopCounting [] count =>
      if 0 < count then some (s.setPhase i .pauseTest) else some (s.setPhase i .leaving)
  | .pauseTest =>
      if w.threadStop = false ∧ w.pause then some (s.setPhase i .idle)
      else some (s.setPhase i .popping)
  | .popping =>
      match s.jobPool.pop w.priorities with
      | none => some (s.setPhase i (.popped none))
      | some (job, jobPool) => some ({ s with jobPool }.setPhase i (.popped (some job)))
  | .popped none => if w.threadStop then some (s.setPhase i .leaving) else some (s.setPhase i .idle)
  | .popped (some job) => some ({ s with worked := s.worked ++ [job] }.setPhase i (.running job none))
  | .running _ none => some (s.setPhase i .idle)
  | .running job (some push) =>
      (s.pushStep (.worker i) push).map fun (t, push) => t.setPhase i (.running job push)
  | .leaving => some (s.setWorker i { w with threadStop := false, phase := .exited })
  | .exited => none

/-- The end of the loop over the workers. -/
def finishStep (s : ThreadPool) : Loop → ThreadPool × Option Operation
  | .stop before => ({ s.unlock with jobPool := s.jobPool.lock false }, some (.stopped before))
  | .remove _ [] =>
      ({ s.unlock with removals := s.removals ++ [(0, some "no worker to remove")] }, none)
  | .remove _ removed =>
      ({ s.unlock with
        threadWorkers := s.threadWorkers.filter (· ∉ removed)
        removals := s.removals ++ [(removed.length, none)] }, none)

/-- The loop bodies of `stop` and of the predicate of `remove_workers`. -/
def bodyStep (s : ThreadPool) (i : Nat) (left : List Nat) :
    Loop → Option (ThreadPool × Option Operation)
  | .stop before => some (s, some (.halting (.stop before) i left))
  | .remove priority removed =>
      if (s.workers i).locked then none
      else
        let priorities := (s.workers i).priorities.filter (· ≠ priority)
        let next := if priorities = [] then Operation.halting (.remove priority removed) i left
          else .next (.remove priority removed) left
        some (s.setWorker i ((s.workers i).setPriorities priorities), some next)

/-- `stop` returns early when a worker has no thread, `remove_workers` ignores it. -/
def refuseStep (s : ThreadPool) (i : Nat) (left : List Nat) : Loop → ThreadPool × Option Operation
  | .stop before => (s.unlock.returnStop (some "Thread is not running.") before, none)
  | .remove priority removed => (s, some (.next (.remove priority (removed ++ [i])) left))

/-- One step of caller `j`, and the rest of its call. -/
def callerStep (s : ThreadPool) (j : Nat) : Operation → Option (ThreadPool × Option Operation)
  | .push p => (s.pushStep (.caller j) p).map fun (t, p) => (t, p.map .push)
  | .pause flag =>
      if s.mutex = none then
        some ({ s with mutex := some (.caller j), pause := flag }, some (.pausing flag s.threadWorkers))
      else none
  | .pausing flag (i :: left) =>
      if (s.workers i).locked then none
      else some (s.setWorker i ((s.workers i).setPause flag), some (.pausing flag left))
  | .pausing _ [] => some (s.unlock, none)
  | .stop immediately before =>
      if s.mutex = none then
        some ({ s with mutex := some (.caller j) }, some (.stopTest immediately before))
      else none
  | .stopTest immediately before =>
      if s.working then
        some ({ s with jobPool := s.jobPool.lock true }, some (.stopLocked immediately before))
      else some (s.unlock.returnStop (some "not started") before, none)
  | .stopLocked immediately before =>
      let jobPool := if immediately then s.jobPool.clear else s.jobPool
      some ({ s with jobPool }, some (.next (.stop before) s.threadWorkers))
  | .stopped before => some ({ s with working := false }.returnStop none before, none)
  | .clear priority =>
      some ({ s with jobPool := s.jobPool.clearPriority priority }, some (.remove priority))
  | .remove priority =>
      if s.mutex = none then
        some ({ s with mutex := some (.caller j) }, some (.next (.remove priority []) s.threadWorkers))
      else none
  | .next loop (i :: left) => s.bodyStep i left loop
  | .next loop [] => some (s.finishStep loop)
  | .halting loop i left =>
      if (s.workers i).thread = false then some (s.refuseStep i left loop)
      else if (s.workers i).locked then none
      else some (s.setWorker i (s.workers i).setStop, some (.joining loop i left))
  | .joining loop i left =>
      if (s.workers i).phase = .exited then
        some (s.setWorker i { s.workers i with thread := false }, some (.next (loop.joined i) left))
      else none

def beginCall (s : ThreadPool) : Call → Operation
  | .push priority => .push (.test priority)
  | .pause flag => .pause flag
  | .stop immediately => .stop immediately s.accepted
  | .removeWorkers priority => .clear priority

def step (s : ThreadPool) : Action → Option ThreadPool
  | .worker i => s.workerStep i
  | .push i priority =>
      match (s.workers i).phase with
      | .running job none => some (s.setPhase i (.running job (some (.test priority))))
      | _ => none
  | .call j call =>
      match s.callers j with
      | none => some (s.setCaller j (some (s.beginCall call)))
      | some _ => none
  | .caller j =>
      match s.callers j with
      | some operation => (s.callerStep j operation).map fun (t, rest) => t.setCaller j rest
      | none => none

end ThreadPool
end CppToolkit.Thread
