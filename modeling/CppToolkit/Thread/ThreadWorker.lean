import CppToolkit.Thread.JobPool

/-! A worker and the run loop of its thread, cut at every point where another thread can
run between two of its actions. -/
namespace CppToolkit.Thread

/-- How far a call of `JobPool::push` is: at the test of the lock, behind it, inserted and
waiting for the mutex of the thread pool, or notifying with that mutex held. -/
inductive Push where
  | test (priority : JobPriorities)
  | insert (priority : JobPriorities)
  | waiting (job : Job)
  | notifying (job : Job) (left : List Nat)
  deriving DecidableEq, Repr

/-- In `counting` and `stopCounting`, the calls of `has_job`, `left` are the queues still
to be counted. -/
inductive Phase where
  | idle
  | checking
  | counting (left : List JobPriorities) (count : Nat)
  | blocked (notified : Bool)
  | stopTest
  | stopCounting (left : List JobPriorities) (count : Nat)
  | pauseTest
  | popping
  | popped (job : Option Job)
  | running (job : Job) (push : Option Push)
  | leaving
  | exited
  deriving DecidableEq, Repr

namespace Phase

/-- The thread holds the mutex of the worker. -/
def locked : Phase → Bool
  | .checking => true
  | .counting _ _ => true
  | .stopTest => true
  | .stopCounting _ _ => true
  | .pauseTest => true
  | .popping => true
  | _ => false

/-- `condition_.notify_one()`. -/
def notify : Phase → Phase
  | .blocked _ => .blocked true
  | phase => phase

/-- The job that was popped and has not been started. -/
def hand : Phase → Option Job
  | .popped job => job
  | _ => none

/-- The job that was popped, until its `work` returns. -/
def job : Phase → Option Job
  | .popped job => job
  | .running job _ => some job
  | _ => none

/-- The call of `push` that the current job is in. -/
def push : Phase → Option Push
  | .running _ push => push
  | _ => none

/-- The thread has left the loop. -/
def left : Phase → Bool
  | .leaving => true
  | .exited => true
  | _ => false

@[simp] theorem notify_hand (phase : Phase) : phase.notify.hand = phase.hand := by
  cases phase <;> rfl

@[simp] theorem notify_job (phase : Phase) : phase.notify.job = phase.job := by
  cases phase <;> rfl

@[simp] theorem notify_push (phase : Phase) : phase.notify.push = phase.push := by
  cases phase <;> rfl

@[simp] theorem notify_left (phase : Phase) : phase.notify.left = phase.left := by
  cases phase <;> rfl

theorem notify_counting {phase : Phase} {left : List JobPriorities} {count : Nat}
    (counting : phase.notify = .stopCounting left count) : phase = .stopCounting left count := by
  cases phase with
  | blocked notified => cases counting
  | _ => exact counting

end Phase

/-- `thread` is whether `thread_` is set. -/
structure ThreadWorker where
  priorities : List JobPriorities
  thread : Bool
  pause : Bool
  threadStop : Bool
  phase : Phase
  deriving DecidableEq, Repr

namespace ThreadWorker

/-- A worker whose thread has just started. -/
def started (priorities : List JobPriorities) (pause : Bool) : ThreadWorker :=
  ⟨priorities, true, pause, false, .idle⟩

/-- A worker without a thread. -/
def absent : ThreadWorker := ⟨[], false, false, false, .exited⟩

def locked (w : ThreadWorker) : Bool := w.phase.locked

def notify (w : ThreadWorker) : ThreadWorker := { w with phase := w.phase.notify }

/-- `pause`, `stop` and `priorities` once they have the mutex of the worker. -/
def setPause (w : ThreadWorker) (pause : Bool) : ThreadWorker := { w with pause }.notify

def setStop (w : ThreadWorker) : ThreadWorker := { w with threadStop := true }.notify

def setPriorities (w : ThreadWorker) (priorities : List JobPriorities) : ThreadWorker :=
  { w with priorities }

/-- `notify_one` goes for the mutex. -/
def wants (w : ThreadWorker) (target : JobPriorities) : Prop :=
  w.thread = true ∧ target ∈ w.priorities

instance (w : ThreadWorker) (target : JobPriorities) : Decidable (w.wants target) :=
  inferInstanceAs (Decidable (_ ∧ _))

/-- The start of `has_job`: the queues to count one by one, and the count so far. -/
def hasJob (w : ThreadWorker) (p : JobPool) : List JobPriorities × Nat :=
  if w.priorities = [] then ([], p.countAll) else (w.priorities, 0)

end ThreadWorker
end CppToolkit.Thread
