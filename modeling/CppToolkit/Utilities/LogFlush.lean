import CppToolkit.Utilities.LogQueue

/-! What `stop` waits for: a thread that is told to stop writes everything that was accepted
before it was told, and only then ends. -/
namespace CppToolkit.Utilities.LogQueue
open Machine

section
variable {τ : Type}

/-- The loop of `run` has come to its end. -/
def Run.Ending : Run τ → Prop
  | .stopping => True
  | .exited => True
  | _ => False

/-- The thread is before a test of the loop that lets it go on. -/
def Run.Going : Run τ → Prop
  | .emptyTest => False
  | .stopping => False
  | .exited => False
  | _ => True

/-- `stop` has stored the flag and has not come back. -/
def Control.Told : Control → Prop
  | .stop .notify _ => True
  | .stop .joining _ => True
  | .stop .reset _ => True
  | _ => False

theorem Run.Going.not_ending {run : Run τ} (going : run.Going) : ¬ run.Ending := by
  cases run <;> first | exact id | exact going.elim

/-- A thread that nobody has told to stop goes on. -/
structure Attended (s : State τ) : Prop where
  running : s.thread = true → (∀ control, s.control = some control → ¬ control.Told) →
    s.threadStop = false ∧ s.run.Going
  thread : ∀ place starts, s.control = some (.stop place starts) → place ≠ .test → s.thread = true
  cleared : s.control = some .spawn → s.threadStop = false

/-- What a step does to the batches and the messages, and when it ends the loop. -/
structure Moves (s t : State τ) : Prop where
  change : (t.batches = s.batches ∧ ∃ more, t.messages = s.messages ++ more) ∨
    (t.batches = s.batches ++ [s.messages] ∧ t.messages = [])
  ends : t.run.Ending → s.run.Ending ∨ t.messages = []

/-- These entries are in a batch or wait, and at the end of the loop none of them waits. -/
structure Flushing (entries : List (Entry τ)) (s : State τ) : Prop where
  kept : entries <+: s.batches.flatten ++ s.messages
  ended : s.run.Ending → entries <+: s.batches.flatten

theorem Flushing.moves {entries : List (Entry τ)} {s t : State τ} (flushing : Flushing entries s)
    (moves : Moves s t) : Flushing entries t := by
  have kept : entries <+: t.batches.flatten ++ t.messages := by
    rcases moves.change with ⟨batches, more, messages⟩ | ⟨batches, messages⟩
    · rw [batches, messages, ← List.append_assoc]
      exact flushing.kept.trans (List.prefix_append _ _)
    · rw [batches, messages, List.append_nil, List.flatten_append, List.flatten_singleton]
      exact flushing.kept
  refine ⟨kept, fun ending => ?_⟩
  rcases moves.ends ending with already | empty
  · have before := flushing.ended already
    rcases moves.change with ⟨batches, _⟩ | ⟨batches, _⟩
    · rw [batches]
      exact before
    · rw [batches, List.flatten_append]
      exact before.trans (List.prefix_append _ _)
  · rw [empty, List.append_nil] at kept
    exact kept

section
variable {settings : Settings} {f : Formats τ} {s t : State τ}

/-- A step that leaves the messages, where the loop does not end. -/
theorem Moves.still (batches : t.batches = s.batches) (messages : t.messages = s.messages)
    (ends : t.run.Ending → s.run.Ending) : Moves s t :=
  ⟨.inl ⟨batches, [], by rw [messages, List.append_nil]⟩, fun ending => .inl (ends ending)⟩

theorem notifyOne_moves (s : State τ) : Moves s s.notifyOne := by
  unfold State.notifyOne
  split
  next => exact .still rfl rfl False.elim
  next => exact .still rfl rfl id

theorem writerStep_moves {j : Nat} {systemTime highResolutionTime : τ} {write : Write τ}
    (stepped : s.writerStep settings j systemTime highResolutionTime write = some t) :
    Moves s t := by
  cases write with
  | lock call =>
      simp only [State.writerStep] at stepped
      split at stepped <;> cases stepped
      exact .still rfl rfl id
  | test number call =>
      simp only [State.writerStep] at stepped
      split at stepped <;> cases stepped <;> exact .still rfl rfl id
  | push number call =>
      cases stepped
      exact ⟨.inl ⟨rfl, _, rfl⟩, .inl⟩
  | compare logType =>
      simp only [State.writerStep] at stepped
      split at stepped
      next =>
        cases stepped
        exact .still rfl rfl id
      next => split at stepped <;> cases stepped <;> exact .still rfl rfl id
  | notify =>
      cases stepped
      have woken := notifyOne_moves s
      exact ⟨woken.change, woken.ends⟩
  | unlock =>
      cases stepped
      exact .still rfl rfl id

/-- The only way to the end of the loop is past the test that nothing waits. -/
theorem runStep_moves {systemTime highResolutionTime : τ}
    (stepped : s.runStep settings f systemTime highResolutionTime = some t) : Moves s t := by
  unfold State.runStep at stepped
  split at stepped
  next =>
    cases stepped
    exact .still rfl rfl False.elim
  next =>
    cases stepped
    refine .still rfl rfl ?_
    dsimp only
    split <;> exact False.elim
  next =>
    cases stepped
    refine ⟨.inl ⟨rfl, [], (List.append_nil _).symm⟩, ?_⟩
    dsimp only
    split
    next empty => exact fun _ => .inr (List.isEmpty_iff.mp empty)
    next => exact False.elim
  next =>
    split at stepped <;> cases stepped
    exact .still rfl rfl False.elim
  next =>
    cases stepped
    refine .still rfl rfl ?_
    dsimp only
    split <;> exact False.elim
  next =>
    cases stepped
    refine .still rfl rfl ?_
    dsimp only
    split <;> exact False.elim
  next =>
    cases stepped
    exact .still rfl rfl False.elim
  next =>
    cases stepped
    exact .still rfl rfl False.elim
  next =>
    cases stepped
    refine ⟨.inr ⟨rfl, rfl⟩, ?_⟩
    dsimp only
    split <;> exact False.elim
  next =>
    cases stepped
    exact .still rfl rfl False.elim
  next at_ =>
    cases stepped
    refine .still rfl rfl fun _ => ?_
    rw [at_]
    trivial
  next => cases stepped

theorem controlStep_moves {control : Control} (stepped : s.controlStep control = some t) :
    Moves s t := by
  cases control with
  | stop place starts =>
      cases place with
      | test =>
          simp only [State.controlStep] at stepped
          split at stepped <;> cases stepped <;> exact .still rfl rfl id
      | store =>
          cases stepped
          exact .still rfl rfl id
      | notify =>
          cases stepped
          have woken := notifyOne_moves s
          exact ⟨woken.change, woken.ends⟩
      | joining =>
          simp only [State.controlStep] at stepped
          split at stepped <;> cases stepped
          exact .still rfl rfl id
      | reset =>
          cases stepped
          exact .still rfl rfl id
  | clear =>
      cases stepped
      exact .still rfl rfl id
  | spawn =>
      cases stepped
      exact .still rfl rfl False.elim

theorem step_moves {a : State.Action τ} (stepped : s.step settings f a = some t) : Moves s t := by
  cases a with
  | write j call =>
      simp only [State.step] at stepped
      split at stepped <;> cases stepped
      exact .still rfl rfl id
  | writer j systemTime highResolutionTime =>
      simp only [State.step] at stepped
      split at stepped
      next => exact writerStep_moves stepped
      next => cases stepped
  | run systemTime highResolutionTime => exact runStep_moves stepped
  | timeOut =>
      simp only [State.step] at stepped
      split at stepped
      next =>
        split at stepped <;> cases stepped
        exact .still rfl rfl False.elim
      next => cases stepped
  | callStart =>
      simp only [State.step] at stepped
      split at stepped <;> cases stepped
      exact .still rfl rfl id
  | callStop =>
      simp only [State.step] at stepped
      split at stepped <;> cases stepped
      exact .still rfl rfl id
  | control =>
      simp only [State.step] at stepped
      split at stepped
      next => exact controlStep_moves stepped
      next => cases stepped

/-- Whatever leaves the flag and the callers of `start` and `stop` keeps a thread attended, where
it lets an attended one go on. -/
theorem Attended.goes (attended : Attended s) (thread : t.thread = s.thread)
    (control : t.control = s.control) (threadStop : t.threadStop = s.threadStop)
    (going : s.threadStop = false → s.run.Going → t.run.Going) : Attended t where
  running := by
    rw [thread, control, threadStop]
    intro there untold
    obtain ⟨open_, goes⟩ := attended.running there untold
    exact ⟨open_, going open_ goes⟩
  thread := by
    rw [thread, control]
    exact attended.thread
  cleared := by
    rw [control, threadStop]
    exact attended.cleared

theorem Attended.notified (attended : Attended s) : Attended s.notifyOne := by
  unfold State.notifyOne
  split
  next => exact attended.goes rfl rfl rfl fun _ _ => trivial
  next => exact attended

theorem Attended.writerStep (attended : Attended s) {j : Nat} {systemTime highResolutionTime : τ}
    {write : Write τ}
    (stepped : s.writerStep settings j systemTime highResolutionTime write = some t) :
    Attended t := by
  cases write with
  | lock call =>
      simp only [State.writerStep] at stepped
      split at stepped <;> cases stepped
      exact attended.goes rfl rfl rfl fun _ => id
  | test number call =>
      simp only [State.writerStep] at stepped
      split at stepped <;> cases stepped <;> exact attended.goes rfl rfl rfl fun _ => id
  | push number call =>
      cases stepped
      exact attended.goes rfl rfl rfl fun _ => id
  | compare logType =>
      simp only [State.writerStep] at stepped
      split at stepped
      next =>
        cases stepped
        exact attended.goes rfl rfl rfl fun _ => id
      next => split at stepped <;> cases stepped <;> exact attended.goes rfl rfl rfl fun _ => id
  | notify =>
      cases stepped
      exact attended.notified.goes rfl rfl rfl fun _ => id
  | unlock =>
      cases stepped
      exact attended.goes rfl rfl rfl fun _ => id

theorem Attended.runStep (attended : Attended s) {systemTime highResolutionTime : τ}
    (stepped : s.runStep settings f systemTime highResolutionTime = some t) : Attended t := by
  unfold State.runStep at stepped
  split at stepped
  next =>
    cases stepped
    exact attended.goes rfl rfl rfl fun _ _ => trivial
  next =>
    cases stepped
    refine attended.goes rfl rfl rfl fun open_ _ => ?_
    rw [open_]
    trivial
  next at_ =>
    cases stepped
    refine attended.goes rfl rfl rfl fun _ going => ?_
    rw [at_] at going
    exact going.elim
  next =>
    split at stepped <;> cases stepped
    exact attended.goes rfl rfl rfl fun _ _ => trivial
  next =>
    cases stepped
    refine attended.goes rfl rfl rfl fun _ _ => ?_
    dsimp only
    split <;> trivial
  next =>
    cases stepped
    refine attended.goes rfl rfl rfl fun _ _ => ?_
    dsimp only
    split <;> trivial
  next =>
    cases stepped
    exact attended.goes rfl rfl rfl fun _ _ => trivial
  next =>
    cases stepped
    exact attended.goes rfl rfl rfl fun _ _ => trivial
  next =>
    cases stepped
    refine attended.goes rfl rfl rfl fun _ _ => ?_
    dsimp only
    split <;> trivial
  next =>
    cases stepped
    exact attended.goes rfl rfl rfl fun _ _ => trivial
  next at_ =>
    cases stepped
    refine attended.goes rfl rfl rfl fun _ going => ?_
    rw [at_] at going
    exact going.elim
  next => cases stepped

/-- Where `stop` has been told of no thread, or has joined it, there is none. -/
theorem attended_absent (absent : t.thread = false)
    (control : t.control = none ∨ t.control = some .clear) : Attended t where
  running there := by
    rw [absent] at there
    cases there
  thread place starts at_ := by
    rcases control with none_ | clear
    · rw [none_] at at_
      cases at_
    · rw [clear] at at_
      cases at_
  cleared at_ := by
    rcases control with none_ | clear
    · rw [none_] at at_
      cases at_
    · rw [clear] at at_
      cases at_

/-- Between the store of the flag and the end of the join nothing is asked of the thread. -/
theorem attended_told {place : Stop} {starts : Bool} (there : t.thread = true)
    (control : t.control = some (.stop place starts)) (told : (Control.stop place starts).Told) :
    Attended t where
  running _ untold := absurd told (untold _ control)
  thread _ _ _ _ := there
  cleared at_ := by
    rw [control] at at_
    cases at_

theorem stopped_attended {starts : Bool} (absent : s.thread = false) :
    Attended (s.stopped starts) := by
  refine attended_absent absent ?_
  cases starts
  · exact .inl rfl
  · exact .inr rfl

theorem Attended.controlStep (attended : Attended s) (orderly : Orderly settings f s)
    {control : Control} (called : s.control = some control)
    (stepped : s.controlStep control = some t) : Attended t := by
  cases control with
  | stop place starts =>
      cases place with
      | test =>
          simp only [State.controlStep] at stepped
          split at stepped
          next there =>
            cases stepped
            have untold : ∀ control, s.control = some control → ¬ control.Told := by
              intro control at_
              rw [called] at at_
              cases at_
              exact id
            exact ⟨fun _ _ => attended.running there untold, fun _ _ _ _ => there,
              fun at_ => (by cases at_)⟩
          next absent =>
            cases stepped
            exact stopped_attended (Bool.eq_false_of_not_eq_true absent)
      | store =>
          cases stepped
          have there := attended.thread _ _ called (by decide)
          exact attended_told there rfl trivial
      | notify =>
          cases stepped
          have there := attended.thread _ _ called (by decide)
          have same : s.notifyOne.thread = s.thread := by
            unfold State.notifyOne
            split <;> rfl
          exact attended_told (same.trans there) rfl trivial
      | joining =>
          simp only [State.controlStep] at stepped
          split at stepped <;> cases stepped
          have there := attended.thread _ _ called (by decide)
          exact attended_told there rfl trivial
      | reset =>
          cases stepped
          exact stopped_attended rfl
  | clear =>
      cases stepped
      have gone := orderly.absent (.inl called)
      refine ⟨fun there => ?_, fun _ _ at_ => (by cases at_), fun _ => rfl⟩
      rw [show s.thread = true from there] at gone
      cases gone
  | spawn =>
      cases stepped
      exact ⟨fun _ _ => ⟨attended.cleared called, trivial⟩, fun _ _ at_ => (by cases at_),
        fun at_ => (by cases at_)⟩

theorem Attended.called (attended : Attended s) (free : s.control = none) (starts : Bool) :
    Attended { s with control := some (.stop .test starts) } where
  running there _ := by
    refine attended.running there fun control at_ => ?_
    rw [free] at at_
    cases at_
  thread place _ at_ other := by
    cases at_
    exact absurd rfl other
  cleared at_ := by cases at_

theorem Attended.step (attended : Attended s) (orderly : Orderly settings f s)
    {a : State.Action τ} (stepped : s.step settings f a = some t) : Attended t := by
  cases a with
  | write j call =>
      simp only [State.step] at stepped
      split at stepped <;> cases stepped
      exact attended.goes rfl rfl rfl fun _ => id
  | writer j systemTime highResolutionTime =>
      simp only [State.step] at stepped
      split at stepped
      next => exact attended.writerStep stepped
      next => cases stepped
  | run systemTime highResolutionTime => exact attended.runStep stepped
  | timeOut =>
      simp only [State.step] at stepped
      split at stepped
      next =>
        split at stepped <;> cases stepped
        exact attended.goes rfl rfl rfl fun _ _ => trivial
      next => cases stepped
  | callStart =>
      simp only [State.step] at stepped
      split at stepped <;> cases stepped
      next free => exact attended.called free true
  | callStop =>
      simp only [State.step] at stepped
      split at stepped <;> cases stepped
      next free => exact attended.called free false
  | control =>
      simp only [State.step] at stepped
      split at stepped
      next control called => exact attended.controlStep orderly called stepped
      next => cases stepped

theorem initial_attended (threadStop : Bool) : Attended (State.initial threadStop : State τ) :=
  attended_absent rfl (.inl rfl)

/-- Where the thread has ended, all batches with a message have been written. -/
theorem Orderly.written_flatten (orderly : Orderly settings f s) (exited : s.run = .exited) :
    (s.written.map Prod.fst).flatten = s.batches.flatten := by
  have batched := orderly.batched
  rw [exited] at batched
  have pending : (Run.exited : Run τ).pending = [] := rfl
  rw [pending, List.append_nil] at batched
  rw [← batched]
  exact List.flatten_filter_not_isEmpty

end

/-- Everything that was accepted when `stop` stored its flag has been given to `write_log`, in
order and separated for the console, the file and the database, when its join comes back; this
holds whatever calls of `write` compete with it. What has been given to `write_log` is the
beginning of what was accepted, so that no entry was given twice. -/
theorem stop_flushes {settings : Settings} {f : Formats τ} {threadStop starts starts' : Bool}
    {before after : List (State.Action τ)} {s t : State τ}
    (reached : Machine.run (State.step settings f) (State.initial threadStop) before = some s)
    (storing : s.control = some (.stop .store starts))
    (ran : Machine.run (State.step settings f) s after = some t)
    (joined : t.control = some (.stop .reset starts')) :
    s.accepted <+: (t.written.map Prod.fst).flatten ∧
      (t.written.map Prod.fst).flatten <+: t.accepted ∧
      ∀ w ∈ t.written, w.2 = some (separated f settings.consoleMode settings.fileMode w.1) := by
  have both : Orderly settings f s ∧ Attended s :=
    run_keeps (I := fun s => Orderly settings f s ∧ Attended s)
      (fun _ _ _ held stepped => ⟨orderly_step held.1 stepped, held.2.step held.1 stepped⟩)
      ⟨initial_orderly settings f threadStop, initial_attended threadStop⟩ reached
  obtain ⟨orderly, attended⟩ := both
  have untold : ∀ control, s.control = some control → ¬ control.Told := by
    intro control at_
    rw [storing] at at_
    cases at_
    exact id
  have going := (attended.running (attended.thread _ _ storing (by decide)) untold).2
  have start : Flushing s.accepted s := by
    refine ⟨?_, fun ending => absurd ending going.not_ending⟩
    exact orderly.accounted ▸ List.prefix_refl _
  have last : Orderly settings f t ∧ Flushing s.accepted t :=
    run_keeps (I := fun t => Orderly settings f t ∧ Flushing s.accepted t)
      (fun _ _ _ held stepped => ⟨orderly_step held.1 stepped, held.2.moves (step_moves stepped)⟩)
      ⟨orderly, start⟩ ran
  have exited := last.1.idle (.inr ⟨starts', joined⟩)
  have ended := last.2.ended
  rw [exited] at ended
  rw [last.1.written_flatten exited, ← last.1.accounted]
  exact ⟨ended trivial, List.prefix_append _ _, last.1.outputs⟩

end

/-- A call is accepted, and `stop` is about to store its flag. -/
def callsAndStop : List (State.Action Nat) :=
  [.callStart, .control, .control, .control, .write 0 loud] ++ List.replicate 6 (.writer 0 2 3) ++
    [.callStop, .control]

/-- A second call comes too late, and the thread comes to its end. -/
def toTheJoin : List (State.Action Nat) :=
  [.control, .write 1 loud] ++ List.replicate 3 (.writer 1 5 6) ++ [.control] ++
    List.replicate 10 (.run 7 8) ++ [.control]

theorem stop_flushes_call :
    ∃ s t, Machine.run (State.step usual plain) (State.initial true) callsAndStop = some s ∧
      Machine.run (State.step usual plain) s toTheJoin = some t ∧
      s.accepted = [⟨.information, loud.message, 2, none, 3⟩] ∧
      s.accepted <+: (t.written.map Prod.fst).flatten ∧
      (t.written.map Prod.fst).flatten <+: t.accepted ∧
      ∀ w ∈ t.written, w.2 = some (separated plain .error .information w.1) :=
  ⟨_, _, rfl, rfl, rfl, @stop_flushes Nat usual plain true false false callsAndStop toTheJoin _ _ rfl
    rfl rfl rfl⟩

end CppToolkit.Utilities.LogQueue
