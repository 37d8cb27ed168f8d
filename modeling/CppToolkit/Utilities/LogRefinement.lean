import CppToolkit.Utilities.LogQueue

/-! Without a write interval the queue of entries does, from the start of its thread on, what the
logger of plain messages does. -/
namespace CppToolkit.Utilities.LogQueue
open Machine

section
variable {τ : Type} (text : Message → String)

def Call.log (call : Call τ) : Log := ⟨call.logType, text call.message⟩

def Entry.log (e : Entry τ) : Log := ⟨e.logType, text e.logMessage⟩

/-- A call in both models; behind `push` the queue only keeps the type. -/
inductive Write.Shows : Write τ → Utilities.Write → Prop
  | lock (call : Call τ) : Shows (.lock call) (.lock (call.log text))
  | test (number : Nat) (call : Call τ) : Shows (.test number call) (.test (call.log text))
  | push (number : Nat) (call : Call τ) : Shows (.push number call) (.push (call.log text))
  | compare (log : Log) : Shows (.compare log.type) (.compare log)
  | notify : Shows .notify .notify
  | unlock : Shows .unlock .unlock

def Run.shown : Run τ → Utilities.Run
  | .starting => .stopTest
  | .stopTest => .stopTest
  | .emptyTest => .emptyTest
  | .lock _ => .lock
  | .stopPredicate _ => .stopPredicate
  | .emptyPredicate _ => .emptyPredicate
  | .blocking => .blocking
  | .blocked notified => .blocked notified
  | .swap => .swap
  | .writing messages => .writing (messages.map (·.log text))
  | .stopping => .stopping
  | .exited => .exited

/-- No wait has timed out. -/
def Run.Untimed : Run τ → Prop
  | .lock timedOut => timedOut = false
  | .stopPredicate timedOut => timedOut = false
  | .emptyPredicate timedOut => timedOut = false
  | _ => True

/-- The logger without times, without the record of what has happened, and without `start`. -/
structure Shows (settings : Settings) (s : State τ) (l : Logger) : Prop where
  logTypes : l.logTypes = settings.logTypes
  mutex : l.mutex = s.mutex
  threadStop : l.threadStop = s.threadStop
  thread : l.thread = s.thread
  messages : l.messages = s.messages.map (·.log text)
  written : l.written = (s.written.flatMap Prod.fst).map (·.log text)
  writers : ∀ j, Option.Rel (Write.Shows text) (s.writers j) (l.writers j)
  control : (s.control = none ∧ l.stop = none) ∨
    ∃ place, s.control = some (.stop place false) ∧ l.stop = some place
  run : l.run = s.run.shown text
  untimed : s.run.Untimed

/-- The thread has just been started. -/
def begun : State τ := { State.initial false with thread := true, run := .starting }

theorem begun_reached (settings : Settings) (f : Formats τ) (threadStop : Bool) :
    Machine.run (State.step settings f) (State.initial threadStop)
      [.callStart, .control, .control, .control] = some begun := rfl

theorem begun_shows (settings : Settings) :
    Shows text settings (begun : State τ) (Logger.started settings.logTypes []) where
  logTypes := rfl
  mutex := rfl
  threadStop := rfl
  thread := rfl
  messages := rfl
  written := rfl
  writers := fun _ => .none
  control := .inl ⟨rfl, rfl⟩
  run := rfl
  untimed := trivial

variable {text} {settings : Settings} {f : Formats τ} {s t : State τ} {l : Logger} {j : Nat}

theorem Shows.setWriter (shows_ : Shows text settings s l) {write : Option (Write τ)}
    {other : Option Utilities.Write} (corresponds : Option.Rel (Write.Shows text) write other) :
    Shows text settings (s.setWriter j write) (l.setWriter j other) := by
  refine { shows_ with writers := fun k => ?_ }
  change Option.Rel _ (Function.update s.writers j write k) (Function.update l.writers j other k)
  by_cases same : k = j
  · rw [same, Function.update_self, Function.update_self]
    exact corresponds
  · rw [Function.update_of_ne same, Function.update_of_ne same]
    exact shows_.writers k

theorem Shows.notifyOne (shows_ : Shows text settings s l) :
    Shows text settings s.notifyOne l.notifyOne := by
  unfold State.notifyOne Logger.notifyOne
  rw [shows_.run]
  cases s.run with
  | blocked => exact { shows_ with run := rfl, untimed := trivial }
  | _ => exact shows_

theorem Shows.holds (shows_ : Shows text settings s l) (mutex : Option Holder)
    (held : List (Holding τ)) :
    Shows text settings { s with mutex := mutex, held := held } { l with mutex := mutex } :=
  { shows_ with mutex := rfl }

theorem Shows.pushes (shows_ : Shows text settings s l) (e : Entry τ) (held : List (Holding τ)) :
    Shows text settings { s with messages := s.messages ++ [e], held := held }
      { l with messages := l.messages ++ [e.log text] } := by
  refine { shows_ with messages := ?_ }
  rw [shows_.messages, List.map_append]
  rfl

theorem Shows.goes (shows_ : Shows text settings s l) (run : Run τ) (untimed : run.Untimed) :
    Shows text settings { s with run := run } { l with run := run.shown text } :=
  { shows_ with
    run := rfl
    untimed := untimed }

theorem Shows.isEmpty (shows_ : Shows text settings s l) :
    l.messages = [] ↔ s.messages.isEmpty := by
  rw [shows_.messages, List.map_eq_nil_iff, List.isEmpty_iff]

/-- A step of a call, in both models. -/
theorem Shows.writerStep (shows_ : Shows text settings s l) (always : settings.writeInterval = 0)
    {systemTime highResolutionTime : τ} {write : Write τ} {other : Utilities.Write}
    (corresponds : write.Shows text other)
    (stepped : s.writerStep settings j systemTime highResolutionTime write = some t) :
    ∃ u, l.writerStep j other = some u ∧ Shows text settings t u := by
  cases corresponds with
  | lock call =>
      simp only [State.writerStep] at stepped
      split at stepped
      next free =>
        cases stepped
        refine ⟨_, if_pos (shows_.mutex.trans free), ?_⟩
        exact (shows_.holds _ _).setWriter (.some (.test _ call))
      next => cases stepped
  | test number call =>
      simp only [State.writerStep] at stepped
      split at stepped
      next given =>
        cases stepped
        refine ⟨_, if_pos (shows_.threadStop.trans given), ?_⟩
        have recorded : Shows text settings
            { s with held := s.held.set number ⟨j, call, .rejected⟩ } l := { shows_ with }
        exact recorded.setWriter (.some .unlock)
      next absent =>
        cases stepped
        refine ⟨_, if_neg fun given => absent (shows_.threadStop.symm.trans given), ?_⟩
        exact shows_.setWriter (.some (.push number call))
  | push number call =>
      cases stepped
      exact ⟨_, rfl, (shows_.pushes _ _).setWriter (.some (.compare (call.log text)))⟩
  | compare log =>
      simp only [State.writerStep] at stepped
      split at stepped
      next quiet =>
        cases stepped
        refine ⟨_, if_pos (by rwa [shows_.logTypes]), ?_⟩
        exact shows_.setWriter (.some .unlock)
      next loud =>
        cases stepped
        refine ⟨_, if_neg (by rwa [shows_.logTypes]), ?_⟩
        exact shows_.setWriter (.some .notify)
  | notify =>
      cases stepped
      exact ⟨_, rfl, shows_.notifyOne.setWriter (.some .unlock)⟩
  | unlock =>
      cases stepped
      exact ⟨_, rfl, (shows_.holds none s.held).setWriter .none⟩

/-- A step of the thread is one of the logger's, apart from the line at its start. -/
theorem Shows.runStep (shows_ : Shows text settings s l) {systemTime highResolutionTime : τ}
    (stepped : s.runStep settings f systemTime highResolutionTime = some t) :
    Shows text settings t l ∨ ∃ u, l.runStep = some u ∧ Shows text settings t u := by
  have shown := shows_.run
  have untimed := shows_.untimed
  unfold State.runStep at stepped
  split at stepped
  next at_ =>
    cases stepped
    rw [at_] at shown
    exact .inl { shows_ with run := shown, untimed := trivial }
  next at_ =>
    cases stepped
    rw [at_] at shown
    refine .inr ⟨_, ?_, shows_.goes (if s.threadStop then .emptyTest else .lock false) ?_⟩
    · rw [Logger.runStep, shown, ← shows_.threadStop]
      cases l.threadStop <;> rfl
    · split
      next => trivial
      next => rfl
  next at_ =>
    cases stepped
    rw [at_] at shown
    refine .inr ⟨_, ?_, shows_.goes (if s.messages.isEmpty then .stopping else .lock false) ?_⟩
    · rw [Logger.runStep, shown]
      simp only [Run.shown, shows_.isEmpty]
      split <;> rfl
    · split
      next => trivial
      next => rfl
  next timedOut at_ =>
    rw [at_] at shown untimed
    cases untimed
    split at stepped
    next free =>
      cases stepped
      refine .inr ⟨_, ?_, (shows_.holds (some .run) s.held).goes (.stopPredicate false) rfl⟩
      rw [Logger.runStep, shown]
      exact if_pos (shows_.mutex.trans free)
    next => cases stepped
  next timedOut at_ =>
    cases stepped
    rw [at_] at shown untimed
    cases untimed
    refine .inr ⟨_, ?_, shows_.goes (if s.threadStop then .swap else .emptyPredicate false) ?_⟩
    · rw [Logger.runStep, shown, ← shows_.threadStop]
      cases l.threadStop <;> rfl
    · split
      next => trivial
      next => rfl
  next timedOut at_ =>
    cases stepped
    rw [at_] at shown untimed
    cases untimed
    refine .inr ⟨_, ?_, shows_.goes (if s.messages.isEmpty && !false then .blocking else .swap) ?_⟩
    · rw [Logger.runStep, shown]
      simp only [Run.shown, shows_.isEmpty, Bool.not_false, Bool.and_true]
      split <;> rfl
    · split <;> trivial
  next at_ =>
    cases stepped
    rw [at_] at shown
    refine .inr ⟨_, ?_, (shows_.holds none s.held).goes (.blocked false) trivial⟩
    rw [Logger.runStep, shown]
    rfl
  next at_ =>
    cases stepped
    rw [at_] at shown
    refine .inr ⟨_, ?_, shows_.goes (.lock false) rfl⟩
    rw [Logger.runStep, shown]
    rfl
  next at_ =>
    cases stepped
    rw [at_] at shown
    let next_ : Run τ := if s.messages.isEmpty then .stopTest else .writing s.messages
    refine .inr ⟨{ l with mutex := none, messages := [], run := next_.shown text }, ?_, ?_⟩
    · rw [Logger.runStep, shown]
      simp only [next_, Run.shown, shows_.isEmpty]
      rw [shows_.messages]
      split <;> rfl
    · refine { shows_ with mutex := rfl, messages := rfl, run := rfl, untimed := ?_ }
      dsimp only
      split <;> trivial
  next messages at_ =>
    cases stepped
    rw [at_] at shown
    refine .inr ⟨_, by rw [Logger.runStep, shown]; rfl, ?_⟩
    refine { shows_ with written := ?_, run := rfl, untimed := trivial }
    dsimp only
    rw [shows_.written, List.flatMap_append, List.flatMap_singleton, List.map_append]
    rfl
  next at_ =>
    cases stepped
    rw [at_] at shown
    refine .inr ⟨_, by rw [Logger.runStep, shown]; rfl, ?_⟩
    exact { shows_ with run := rfl, untimed := trivial }
  next => cases stepped

/-- A step of `stop`, in both models. -/
theorem Shows.controlStep (shows_ : Shows text settings s l) {place : Stop}
    (stepped : s.controlStep (.stop place false) = some t) :
    ∃ u, l.stopStep place = some u ∧ Shows text settings t u := by
  cases place with
  | test =>
      simp only [State.controlStep] at stepped
      split at stepped
      next running =>
        cases stepped
        refine ⟨_, rfl, { shows_ with control := .inr ⟨.store, rfl, ?_⟩ }⟩
        exact if_pos (shows_.thread.trans running)
      next absent =>
        cases stepped
        refine ⟨_, rfl, { shows_ with control := .inl ⟨rfl, ?_⟩ }⟩
        exact if_neg fun running => absent (shows_.thread.symm.trans running)
  | store =>
      cases stepped
      exact ⟨_, rfl, { shows_ with threadStop := rfl, control := .inr ⟨_, rfl, rfl⟩ }⟩
  | notify =>
      cases stepped
      exact ⟨_, rfl, { shows_.notifyOne with control := .inr ⟨_, rfl, rfl⟩ }⟩
  | joining =>
      simp only [State.controlStep] at stepped
      split at stepped
      next exited =>
        cases stepped
        have over_ : l.run = .exited := by
          rw [shows_.run, exited]
          rfl
        exact ⟨_, if_pos over_, { shows_ with control := .inr ⟨_, rfl, rfl⟩ }⟩
      next => cases stepped
  | reset =>
      cases stepped
      exact ⟨_, rfl, { shows_ with thread := rfl, threadStop := rfl, control := .inl ⟨rfl, rfl⟩ }⟩

/-- A step of the queue is none of the logger's, or one. -/
theorem Shows.step (shows_ : Shows text settings s l) (always : settings.writeInterval = 0)
    {a : State.Action τ} (noStart : a ≠ .callStart) (stepped : s.step settings f a = some t) :
    ∃ bs u, Machine.run Logger.step l bs = some u ∧ Shows text settings t u := by
  cases a with
  | write j call =>
      simp only [State.step] at stepped
      split at stepped
      next fresh =>
        cases stepped
        have here := shows_.writers j
        rw [fresh] at here
        cases free : l.writers j with
        | some other =>
            rw [free] at here
            cases here
        | none =>
            refine ⟨[.write j (call.log text)], _, run_single ?_,
              shows_.setWriter (.some (.lock call))⟩
            simp only [Logger.step, free]
      next => cases stepped
  | writer j systemTime highResolutionTime =>
      simp only [State.step] at stepped
      split at stepped
      next write called =>
        have here := shows_.writers j
        rw [called] at here
        cases busy : l.writers j with
        | none =>
            rw [busy] at here
            cases here
        | some other =>
            rw [busy] at here
            cases here with
            | some corresponds =>
                obtain ⟨u, goes, after⟩ := shows_.writerStep always corresponds stepped
                refine ⟨[.writer j], u, run_single ?_, after⟩
                simp only [Logger.step, busy, goes]
      next => cases stepped
  | run systemTime highResolutionTime =>
      rcases shows_.runStep stepped with same | ⟨u, goes, after⟩
      · exact ⟨[], l, rfl, same⟩
      · exact ⟨[.run], u, run_single goes, after⟩
  | timeOut =>
      simp only [State.step, if_pos always] at stepped
      split at stepped <;> cases stepped
  | callStart => exact absurd rfl noStart
  | callStop =>
      simp only [State.step] at stepped
      split at stepped
      next idle =>
        cases stepped
        have free : l.stop = none := by
          rcases shows_.control with ⟨-, free⟩ | ⟨place, busy, -⟩
          · exact free
          · rw [idle] at busy
            cases busy
        refine ⟨[.callStop], { l with stop := some .test }, run_single ?_, ?_⟩
        · simp only [Logger.step, free]
        · exact { shows_ with control := .inr ⟨_, rfl, rfl⟩ }
      next => cases stepped
  | control =>
      simp only [State.step] at stepped
      rcases shows_.control with ⟨idle, -⟩ | ⟨place, busy, called⟩
      · rw [idle] at stepped
        cases stepped
      · rw [busy] at stepped
        obtain ⟨u, goes, after⟩ := shows_.controlStep stepped
        refine ⟨[.stop], u, run_single ?_, after⟩
        simp only [Logger.step, called, goes]

/-- Without a write interval every run of the queue that does not start the thread again is a run
of the logger. -/
theorem refines_logger (text : Message → String) (always : settings.writeInterval = 0)
    {actions : List (State.Action τ)} (noStart : ∀ a ∈ actions, a ≠ .callStart)
    (ran : Machine.run (State.step settings f) begun actions = some t) :
    ∃ bs u, Machine.run Logger.step (Logger.started settings.logTypes []) bs = some u ∧
      Shows text settings t u :=
  run_simulated (fun _ _ _ _ shows_ allowed stepped => shows_.step always allowed stepped)
    (begun_shows text settings) noStart ran

end

end CppToolkit.Utilities.LogQueue
