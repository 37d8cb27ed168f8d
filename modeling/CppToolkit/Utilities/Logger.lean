import CppToolkit.Library.Machine
import Mathlib.Logic.Function.Basic

/-! The logger with its writing thread, any number of callers of `write`, and `stop`, for a
write interval of zero. `stop` changes what the thread waits for without its mutex. -/
namespace CppToolkit.Utilities
open Machine

inductive LogTypes where
  | none
  | exception
  | error
  | information
  | debug
  | sequence
  | parameter
  | packet
  deriving DecidableEq, Repr

def LogTypes.value : LogTypes → Nat
  | .none => 0
  | .exception => 1
  | .error => 2
  | .information => 3
  | .debug => 4
  | .sequence => 5
  | .parameter => 6
  | .packet => 7

structure Log where
  type : LogTypes
  message : String
  deriving DecidableEq, Repr

/-- How far a call of `write` is; behind `lock` it holds the mutex. -/
inductive Write where
  | lock (log : Log)
  | test (log : Log)
  | push (log : Log)
  | compare (log : Log)
  | notify
  | unlock
  deriving DecidableEq, Repr

/-- How far `run` is. From `stopPredicate` to `blocking`, and at `swap`, the thread holds
the mutex; `blocking` releases it and waits in one step. -/
inductive Run where
  | stopTest
  | emptyTest
  | lock
  | stopPredicate
  | emptyPredicate
  | blocking
  | blocked (notified : Bool)
  | swap
  | writing (messages : List Log)
  | stopping
  | exited
  deriving DecidableEq, Repr

/-- The thread neither waits without a wake-up nor is about to. -/
def Run.settled : Run → Bool
  | .emptyPredicate => false
  | .blocking => false
  | .blocked notified => notified
  | _ => true

inductive Stop where
  | test
  | store
  | notify
  | joining
  | reset
  deriving DecidableEq, Repr

inductive Holder where
  | writer (writer : Nat)
  | run
  deriving DecidableEq, Repr

/-- `thread` is whether `thread_` is set, `written` what `write_log` was given. -/
structure Logger where
  logTypes : LogTypes
  mutex : Option Holder
  threadStop : Bool
  thread : Bool
  messages : List Log
  written : List Log
  writers : Nat → Option Write
  stop : Option Stop
  run : Run

namespace Logger

inductive Action where
  | write (writer : Nat) (log : Log)
  | writer (writer : Nat)
  | run
  | callStop
  | stop
  deriving DecidableEq, Repr

/-- A logger whose thread has just begun; what was written before is in `messages`. -/
def started (logTypes : LogTypes) (messages : List Log) : Logger where
  logTypes := logTypes
  mutex := none
  threadStop := false
  thread := true
  messages := messages
  written := []
  writers := fun _ => none
  stop := none
  run := .stopTest

def setWriter (s : Logger) (j : Nat) (write : Option Write) : Logger :=
  { s with writers := Function.update s.writers j write }

/-- `condition_.notify_one()`: only the thread of the logger waits. -/
def notifyOne (s : Logger) : Logger :=
  match s.run with
  | .blocked _ => { s with run := .blocked true }
  | _ => s

def writerStep (s : Logger) (j : Nat) : Write → Option Logger
  | .lock log =>
      if s.mutex = none then
        some ({ s with mutex := some (.writer j) }.setWriter j (some (.test log)))
      else none
  | .test log =>
      if s.threadStop then some (s.setWriter j (some .unlock))
      else some (s.setWriter j (some (.push log)))
  | .push log =>
      some ({ s with messages := s.messages ++ [log] }.setWriter j (some (.compare log)))
  | .compare log =>
      if s.logTypes.value < log.type.value then some (s.setWriter j (some .unlock))
      else some (s.setWriter j (some .notify))
  | .notify => some (s.notifyOne.setWriter j (some .unlock))
  | .unlock => some ({ s with mutex := none }.setWriter j none)

def runStep (s : Logger) : Option Logger :=
  match s.run with
  | .stopTest => some { s with run := if s.threadStop then .emptyTest else .lock }
  | .emptyTest => some { s with run := if s.messages = [] then .stopping else .lock }
  | .lock => if s.mutex = none then some { s with mutex := some .run, run := .stopPredicate } else none
  | .stopPredicate => some { s with run := if s.threadStop then .swap else .emptyPredicate }
  | .emptyPredicate => some { s with run := if s.messages = [] then .blocking else .swap }
  | .blocking => some { s with mutex := none, run := .blocked false }
  | .blocked _ => some { s with run := .lock }
  | .swap =>
      some { s with
        mutex := none
        messages := []
        run := if s.messages = [] then .stopTest else .writing s.messages }
  | .writing messages => some { s with written := s.written ++ messages, run := .stopTest }
  | .stopping => some { s with run := .exited }
  | .exited => none

def stopStep (s : Logger) : Stop → Option Logger
  | .test => some { s with stop := if s.thread then some .store else none }
  | .store => some { s with threadStop := true, stop := some .notify }
  | .notify => some { s.notifyOne with stop := some .joining }
  | .joining => if s.run = .exited then some { s with stop := some .reset } else none
  | .reset => some { s with thread := false, threadStop := false, stop := none }

def step (s : Logger) : Action → Option Logger
  | .write j log =>
      match s.writers j with
      | none => some (s.setWriter j (some (.lock log)))
      | some _ => none
  | .writer j =>
      match s.writers j with
      | some write => s.writerStep j write
      | none => none
  | .run => s.runStep
  | .callStop =>
      match s.stop with
      | none => some { s with stop := some .test }
      | some _ => none
  | .stop =>
      match s.stop with
      | some stop => s.stopStep stop
      | none => none

/-- `stop` waits for a thread that waits for a wake-up. -/
def Hung (s : Logger) : Prop :=
  s.threadStop = true ∧ s.stop = some .joining ∧ s.run = .blocked false

/-- The thread has evaluated its predicate to false and does not wait yet. -/
def Deaf (s : Logger) : Prop :=
  s.run = .blocking ∨ (s.run = .emptyPredicate ∧ s.messages = [])

/-- `stop` does not notify while the thread is deaf. -/
def Timely (s : Logger) : Action → Prop
  | .stop => s.stop = some .notify → ¬ s.Deaf
  | _ => True

/-- From the notification of `stop` on the flag is set, and from then on the thread neither
waits without a wake-up nor is about to. -/
structure Heard (s : Logger) : Prop where
  flag : s.stop = some .notify ∨ s.stop = some .joining → s.threadStop = true
  hears : s.stop = some .joining → ¬ s.Deaf
  woken : s.stop = some .joining → s.run ≠ .blocked false

theorem started_heard (logTypes : LogTypes) (messages : List Log) :
    (started logTypes messages).Heard where
  flag := fun called => called.elim nofun nofun
  hears := nofun
  woken := nofun

section
variable {s t : Logger}

@[simp] theorem notifyOne_stop (s : Logger) : s.notifyOne.stop = s.stop := by
  unfold notifyOne
  split <;> rfl

@[simp] theorem notifyOne_threadStop (s : Logger) : s.notifyOne.threadStop = s.threadStop := by
  unfold notifyOne
  split <;> rfl

theorem notifyOne_not_deaf (hears : ¬ s.Deaf) : ¬ s.notifyOne.Deaf := by
  unfold notifyOne
  split
  next => rintro (blocking | ⟨empty, _⟩) <;> contradiction
  next => exact hears

theorem notifyOne_woken (s : Logger) : s.notifyOne.run ≠ .blocked false := by
  unfold notifyOne
  split
  next =>
    intro same
    cases same
  next waits =>
    intro same
    exact waits false same

/-- What neither moves `stop` nor the thread of the logger, and drops no message. -/
theorem Heard.kept (heard : s.Heard) (flag : t.threadStop = s.threadStop) (stop : t.stop = s.stop)
    (run : t.run = s.run) (messages : t.messages = [] → s.messages = []) : t.Heard := by
  refine ⟨?_, ?_, ?_⟩
  · rw [stop, flag]
    exact heard.flag
  · intro joining deaf
    rw [stop] at joining
    rw [Deaf, run] at deaf
    exact heard.hears joining (deaf.imp id fun empty => ⟨empty.1, messages empty.2⟩)
  · rw [stop, run]
    exact heard.woken

theorem Heard.notified (heard : s.Heard) : s.notifyOne.Heard := by
  refine ⟨?_, ?_, fun _ => notifyOne_woken s⟩
  · rw [notifyOne_stop, notifyOne_threadStop]
    exact heard.flag
  · intro joining
    rw [notifyOne_stop] at joining
    exact notifyOne_not_deaf (heard.hears joining)

theorem Heard.writerStep (heard : s.Heard) {j : Nat} {write : Write}
    (stepped : s.writerStep j write = some t) : t.Heard := by
  cases write with
  | lock log =>
      simp only [Logger.writerStep] at stepped
      split at stepped <;> cases stepped
      exact heard.kept rfl rfl rfl id
  | test log =>
      simp only [Logger.writerStep] at stepped
      split at stepped <;> cases stepped <;> exact heard.kept rfl rfl rfl id
  | push log =>
      cases stepped
      exact heard.kept rfl rfl rfl fun none_ => (List.append_eq_nil_iff.mp none_).1
  | compare log =>
      simp only [Logger.writerStep] at stepped
      split at stepped <;> cases stepped <;> exact heard.kept rfl rfl rfl id
  | notify =>
      cases stepped
      exact heard.notified.kept rfl rfl rfl id
  | unlock =>
      cases stepped
      exact heard.kept rfl rfl rfl id

theorem Heard.outside (notify : s.stop ≠ some .notify) (joining : s.stop ≠ some .joining) :
    s.Heard where
  flag := fun called => absurd called (not_or.mpr ⟨notify, joining⟩)
  hears := fun called => absurd called joining
  woken := fun called => absurd called joining

theorem Heard.goes (heard : s.Heard) (flag : t.threadStop = s.threadStop) (stop : t.stop = s.stop)
    (settled : t.stop = some .joining → t.run.settled = true) : t.Heard := by
  refine ⟨?_, ?_, ?_⟩
  · rw [stop, flag]
    exact heard.flag
  · intro joining deaf
    have calm := settled joining
    rcases deaf with blocking | ⟨empty, _⟩
    · rw [blocking] at calm
      cases calm
    · rw [empty] at calm
      cases calm
  · intro joining blocked
    have calm := settled joining
    rw [blocked] at calm
    cases calm

theorem Heard.runStep (heard : s.Heard) (stepped : s.runStep = some t) : t.Heard := by
  unfold Logger.runStep at stepped
  split at stepped
  next =>
    cases stepped
    refine heard.goes rfl rfl fun _ => ?_
    dsimp only
    split <;> rfl
  next =>
    cases stepped
    refine heard.goes rfl rfl fun _ => ?_
    dsimp only
    split <;> rfl
  next =>
    split at stepped <;> cases stepped
    exact heard.goes rfl rfl fun _ => rfl
  next =>
    -- the flag is set before `stop` joins, so the predicate is true from here on
    cases stepped
    refine heard.goes rfl rfl fun joining => ?_
    have stopped : s.threadStop = true := heard.flag (.inr joining)
    simp only [stopped, if_true, Run.settled]
  next at_ =>
    cases stepped
    refine heard.goes rfl rfl fun joining => ?_
    have some_ : s.messages ≠ [] := fun none_ => heard.hears joining (.inr ⟨at_, none_⟩)
    simp only [some_, if_false, Run.settled]
  next at_ =>
    cases stepped
    exact heard.goes rfl rfl fun joining => absurd (.inl at_) (heard.hears joining)
  next =>
    cases stepped
    exact heard.goes rfl rfl fun _ => rfl
  next =>
    cases stepped
    refine heard.goes rfl rfl fun _ => ?_
    dsimp only
    split <;> rfl
  next =>
    cases stepped
    exact heard.goes rfl rfl fun _ => rfl
  next =>
    cases stepped
    exact heard.goes rfl rfl fun _ => rfl
  next => cases stepped

theorem Heard.stopStep (heard : s.Heard) {stop : Stop} (called : s.stop = some stop)
    (timely : stop = .notify → ¬ s.Deaf) (stepped : s.stopStep stop = some t) : t.Heard := by
  cases stop with
  | test =>
      cases stepped
      refine Heard.outside ?_ ?_ <;> (dsimp only; split <;> nofun)
  | store =>
      cases stepped
      exact ⟨fun _ => rfl, nofun, nofun⟩
  | notify =>
      cases stepped
      refine ⟨fun _ => ?_, fun _ => notifyOne_not_deaf (timely rfl), fun _ => notifyOne_woken s⟩
      exact (notifyOne_threadStop s).trans (heard.flag (.inl called))
  | joining =>
      simp only [Logger.stopStep] at stepped
      split at stepped <;> cases stepped
      exact .outside nofun nofun
  | reset =>
      cases stepped
      exact .outside nofun nofun

theorem heard_step {a : Action} (heard : s.Heard) (timely : s.Timely a)
    (stepped : step s a = some t) : t.Heard := by
  cases a with
  | write j log =>
      simp only [step] at stepped
      split at stepped <;> cases stepped
      exact heard.kept rfl rfl rfl id
  | writer j =>
      simp only [step] at stepped
      split at stepped
      next write => exact heard.writerStep stepped
      next => cases stepped
  | run => exact heard.runStep stepped
  | callStop =>
      simp only [step] at stepped
      split at stepped <;> cases stepped
      exact .outside nofun nofun
  | stop =>
      simp only [step] at stepped
      split at stepped
      next stop called =>
        exact heard.stopStep called (fun notify => timely (notify ▸ called)) stepped
      next => cases stepped

end

/-- Where `stop` only notifies a thread that is not deaf, no state that a run reaches hangs. -/
theorem never_hung {logTypes : LogTypes} {messages : List Log} {actions : List Action} {s : Logger}
    (ran : Machine.run step (started logTypes messages) actions = some s)
    (along : Along step Timely (started logTypes messages) actions) : ¬ s.Hung := by
  have heard : s.Heard := run_invariant
    (fun _ _ _ heard timely stepped => heard_step heard timely stepped)
    (started_heard logTypes messages) along ran
  rintro ⟨_, joining, blocked⟩
  exact heard.woken joining blocked

/-- `stop` notifies the thread that waits. -/
def wokenStop : List Action :=
  List.replicate 5 .run ++ [.callStop, .stop, .stop, .stop]

theorem never_hung_woken :
    ∃ s, Machine.run step (started .information []) wokenStop = some s ∧
      s.stop = some .joining ∧ s.run = .blocked true ∧ ¬ s.Hung := by
  refine ⟨_, rfl, rfl, rfl, @never_hung .information [] wokenStop _ rfl ?_⟩
  iterate 5 refine .cons rfl trivial ?_
  refine .cons rfl trivial (.cons rfl nofun (.cons rfl nofun (.cons rfl ?_ trivial)))
  rintro _ (blocking | ⟨empty, _⟩)
  · cases blocking
  · cases empty

/-- `stop` stores the flag and notifies between the predicate and the wait. -/
def unheardStop : List Action :=
  List.replicate 4 .run ++ [.callStop, .stop, .stop, .stop, .run]

theorem stop_hangs :
    ¬ ∀ logTypes messages actions s, Machine.run step (started logTypes messages) actions = some s →
      ¬ s.Hung := by
  intro never
  have reached : ∃ s, Machine.run step (started .information []) unheardStop = some s ∧ s.Hung :=
    ⟨_, rfl, rfl, rfl, rfl⟩
  obtain ⟨s, ran, hung⟩ := reached
  exact never .information [] unheardStop s ran hung

end Logger
end CppToolkit.Utilities
