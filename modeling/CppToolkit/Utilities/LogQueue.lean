import CppToolkit.Utilities.LogEntries

/-! The queue between the callers of `write` and the writing thread, with `start` and `stop` and
any write interval: nothing that a call has accepted is lost, doubled or moved. -/
namespace CppToolkit.Utilities.LogQueue
open Machine

/-- What the setters have stored. -/
structure Settings where
  consoleMode : LogTypes
  fileMode : LogTypes
  logTypes : LogTypes
  writeInterval : UInt16
  deriving DecidableEq, Repr

/-- The arguments of `write`. -/
structure Call (τ : Type) where
  logType : LogTypes
  message : Message
  time : Option τ

/-- What has become of a call that has held the mutex. -/
inductive Outcome (τ : Type) where
  | undecided
  | rejected
  | accepted (entry : Entry τ)

def Outcome.entry {τ : Type} : Outcome τ → Option (Entry τ)
  | .accepted entry => some entry
  | _ => none

/-- One time that the mutex was held by a call. -/
structure Holding (τ : Type) where
  writer : Nat
  call : Call τ
  outcome : Outcome τ

/-- How far a call of `write` is; behind `lock` it holds the mutex, for the time with the
number. -/
inductive Write (τ : Type) where
  | lock (call : Call τ)
  | test (number : Nat) (call : Call τ)
  | push (number : Nat) (call : Call τ)
  | compare (logType : LogTypes)
  | notify
  | unlock

/-- How far `run` is. From `stopPredicate` to `blocking`, and at `swap`, the thread holds the
mutex. After a time-out the predicate no longer matters. -/
inductive Run (τ : Type) where
  | starting
  | stopTest
  | emptyTest
  | lock (timedOut : Bool)
  | stopPredicate (timedOut : Bool)
  | emptyPredicate (timedOut : Bool)
  | blocking
  | blocked (notified : Bool)
  | swap
  | writing (messages : List (Entry τ))
  | stopping
  | exited

/-- How far the caller of `start` or `stop` is; `start` stops the thread first. -/
inductive Control where
  | stop (place : Stop) (starts : Bool)
  | clear
  | spawn
  deriving DecidableEq, Repr

/-- `held` are the times that a call has held the mutex, `batches` what `messages` was swapped
for, and `written` what `write_log` was given, with what `convert_log` has made of it. The two
lines of the thread itself are in `marks`. -/
structure State (τ : Type) where
  mutex : Option Holder
  threadStop : Bool
  thread : Bool
  messages : List (Entry τ)
  writers : Nat → Option (Write τ)
  control : Option Control
  run : Run τ
  held : List (Holding τ)
  batches : List (List (Entry τ))
  written : List (List (Entry τ) × Option Converted)
  marks : List (List (Entry τ) × Option Converted)

namespace State

/-- The clocks are read when an entry is made. -/
inductive Action (τ : Type) where
  | write (writer : Nat) (call : Call τ)
  | writer (writer : Nat) (systemTime highResolutionTime : τ)
  | run (systemTime highResolutionTime : τ)
  | timeOut
  | callStart
  | callStop
  | control

section
variable {τ : Type}

/-- A logger before its first start; `thread_stop_` has no initial value. -/
def initial (threadStop : Bool) : State τ where
  mutex := none
  threadStop := threadStop
  thread := false
  messages := []
  writers := fun _ => none
  control := none
  run := .exited
  held := []
  batches := []
  written := []
  marks := []

def setWriter (s : State τ) (j : Nat) (write : Option (Write τ)) : State τ :=
  { s with writers := Function.update s.writers j write }

/-- `condition_.notify_one()`: only the thread of the logger waits. -/
def notifyOne (s : State τ) : State τ :=
  match s.run with
  | .blocked _ => { s with run := .blocked true }
  | _ => s

variable (settings : Settings) (f : Formats τ)

def writerStep (s : State τ) (j : Nat) (systemTime highResolutionTime : τ) :
    Write τ → Option (State τ)
  | .lock call =>
      if s.mutex = none then
        let holding : Holding τ := ⟨j, call, .undecided⟩
        some (({ s with mutex := some (.writer j), held := s.held ++ [holding] } : State τ).setWriter
          j (some (.test s.held.length call)))
      else none
  | .test number call =>
      if s.threadStop then
        some (({ s with held := s.held.set number ⟨j, call, .rejected⟩ } : State τ).setWriter j
          (some .unlock))
      else some (s.setWriter j (some (.push number call)))
  | .push number call =>
      let entry : Entry τ :=
        ⟨call.logType, call.message, systemTime, call.time, highResolutionTime⟩
      let holding : Holding τ := ⟨j, call, .accepted entry⟩
      some (({ s with
        messages := s.messages ++ [entry]
        held := s.held.set number holding } : State τ).setWriter j (some (.compare call.logType)))
  | .compare logType =>
      if settings.logTypes.value < logType.value then some (s.setWriter j (some .unlock))
      else if settings.writeInterval = 0 then some (s.setWriter j (some .notify))
      else some (s.setWriter j (some .unlock))
  | .notify => some (s.notifyOne.setWriter j (some .unlock))
  | .unlock => some (({ s with mutex := none } : State τ).setWriter j none)

/-- `write_log`, as far as `convert_log` goes. -/
def converted (messages : List (Entry τ)) : List (Entry τ) × Option Converted :=
  (messages, convertLog f settings.consoleMode settings.fileMode messages)

/-- A line of the thread itself. -/
def mark (text : String) (systemTime highResolutionTime : τ) : List (Entry τ) :=
  [⟨.none, .string (literal text), systemTime, none, highResolutionTime⟩]

def runStep (s : State τ) (systemTime highResolutionTime : τ) : Option (State τ) :=
  match s.run with
  | .starting =>
      some { s with
        marks := s.marks ++
          [converted settings f (mark "[START]" systemTime highResolutionTime)]
        run := .stopTest }
  | .stopTest => some { s with run := if s.threadStop then .emptyTest else .lock false }
  | .emptyTest => some { s with run := if s.messages.isEmpty then .stopping else .lock false }
  | .lock timedOut =>
      if s.mutex = none then some { s with mutex := some .run, run := .stopPredicate timedOut }
      else none
  | .stopPredicate timedOut =>
      some { s with run := if s.threadStop then .swap else .emptyPredicate timedOut }
  | .emptyPredicate timedOut =>
      some { s with run := if s.messages.isEmpty && !timedOut then .blocking else .swap }
  | .blocking => some { s with mutex := none, run := .blocked false }
  | .blocked _ => some { s with run := .lock false }
  | .swap =>
      some { s with
        mutex := none
        messages := []
        batches := s.batches ++ [s.messages]
        run := if s.messages.isEmpty then .stopTest else .writing s.messages }
  | .writing messages =>
      some { s with written := s.written ++ [converted settings f messages], run := .stopTest }
  | .stopping =>
      some { s with
        marks := s.marks ++
          [converted settings f (mark "[STOP]" systemTime highResolutionTime)]
        run := .exited }
  | .exited => none

/-- `stop` is over. -/
def stopped (s : State τ) (starts : Bool) : State τ :=
  { s with control := if starts then some .clear else none }

def controlStep (s : State τ) : Control → Option (State τ)
  | .stop .test starts =>
      if s.thread then some { s with control := some (.stop .store starts) }
      else some (s.stopped starts)
  | .stop .store starts =>
      some { s with threadStop := true, control := some (.stop .notify starts) }
  | .stop .notify starts => some { s.notifyOne with control := some (.stop .joining starts) }
  | .stop .joining starts =>
      match s.run with
      | .exited => some { s with control := some (.stop .reset starts) }
      | _ => none
  | .stop .reset starts => some ({ s with thread := false, threadStop := false }.stopped starts)
  | .clear => some { s with threadStop := false, control := some .spawn }
  | .spawn => some { s with thread := true, run := .starting, control := none }

def step (s : State τ) : Action τ → Option (State τ)
  | .write j call =>
      match s.writers j with
      | none => some (s.setWriter j (some (.lock call)))
      | some _ => none
  | .writer j systemTime highResolutionTime =>
      match s.writers j with
      | some write => s.writerStep settings j systemTime highResolutionTime write
      | none => none
  | .run systemTime highResolutionTime => s.runStep settings f systemTime highResolutionTime
  | .timeOut =>
      match s.run with
      | .blocked _ =>
          if settings.writeInterval = 0 then none else some { s with run := .lock true }
      | _ => none
  | .callStart =>
      match s.control with
      | none => some { s with control := some (.stop .test true) }
      | some _ => none
  | .callStop =>
      match s.control with
      | none => some { s with control := some (.stop .test false) }
      | some _ => none
  | .control =>
      match s.control with
      | some control => s.controlStep control
      | none => none

/-- What the calls have accepted, in the order in which they held the mutex. -/
def accepted (s : State τ) : List (Entry τ) := s.held.filterMap fun h => h.outcome.entry

end

end State

section
variable {τ : Type}

/-- The call has not got the mutex yet. -/
def Write.Waits : Write τ → Prop
  | .lock _ => True
  | _ => False

/-- The thread holds the mutex. -/
def Run.Inside : Run τ → Prop
  | .stopPredicate _ => True
  | .emptyPredicate _ => True
  | .blocking => True
  | .swap => True
  | _ => False

/-- What the thread is about to write. -/
def Run.pending : Run τ → List (List (Entry τ))
  | .writing messages => [messages]
  | _ => []

/-- An entry that a call has left is made of its arguments. -/
def Holding.Own (h : Holding τ) : Prop :=
  ∀ entry, h.outcome = .accepted entry →
    entry.logType = h.call.logType ∧ entry.logMessage = h.call.message ∧
      entry.startTimeFlag = h.call.time

def Decided (held : List (Holding τ)) : Prop := ∀ h ∈ held, h.outcome ≠ .undecided

/-- Up to its `push` a call is undecided, and it is the last one that has got the mutex. -/
def Write.Holds (j : Nat) (held : List (Holding τ)) : Write τ → Prop
  | .lock _ => False
  | .test number call => ∃ front, held = front ++ [⟨j, call, .undecided⟩] ∧
      number = front.length ∧ Decided front
  | .push number call => ∃ front, held = front ++ [⟨j, call, .undecided⟩] ∧
      number = front.length ∧ Decided front
  | _ => Decided held

/-- No call holds the mutex, or one does. -/
inductive Place (s : State τ) : Prop
  | outside (mutex : ∀ j, s.mutex ≠ some (.writer j))
      (waits : ∀ j write, s.writers j = some write → write.Waits) (decided : Decided s.held)
  | inside (j : Nat) (write : Write τ) (mutex : s.mutex = some (.writer j))
      (own : s.writers j = some write) (holds : write.Holds j s.held)
      (others : ∀ k, k ≠ j → ∀ write, s.writers k = some write → write.Waits)

/-- Everything that was accepted is in a batch or waits, in order. -/
structure Orderly (settings : Settings) (f : Formats τ) (s : State τ) : Prop where
  place : Place s
  owned : ∀ h ∈ s.held, h.Own
  inside : s.run.Inside → s.mutex = some .run
  idle : s.thread = false ∨ (∃ starts, s.control = some (.stop .reset starts)) → s.run = .exited
  absent : s.control = some .clear ∨ s.control = some .spawn → s.thread = false
  accounted : s.batches.flatten ++ s.messages = s.accepted
  batched : s.batches.filter (!·.isEmpty) = s.written.map Prod.fst ++ s.run.pending
  outputs : ∀ w ∈ s.written, w.2 = some (separated f settings.consoleMode settings.fileMode w.1)

theorem initial_orderly (settings : Settings) (f : Formats τ) (threadStop : Bool) :
    Orderly settings f (State.initial threadStop) where
  place := .outside (fun _ => nofun) (fun _ _ => nofun) (fun _ => nofun)
  owned := fun _ => nofun
  inside := nofun
  idle := fun _ => rfl
  absent := fun _ => rfl
  accounted := rfl
  batched := rfl
  outputs := fun _ => nofun

section
variable {settings : Settings} {f : Formats τ} {s t : State τ} {j : Nat} {write : Write τ}

theorem Place.congr (place : Place s) (mutex : t.mutex = s.mutex) (writers : t.writers = s.writers)
    (held : t.held = s.held) : Place t := by
  cases place with
  | outside free waits decided =>
      refine .outside ?_ ?_ ?_
      · rwa [mutex]
      · rwa [writers]
      · rwa [held]
  | inside j write own call holds others =>
      refine .inside j write ?_ ?_ ?_ ?_
      · rwa [mutex]
      · rwa [writers]
      · rwa [held]
      · rwa [writers]

/-- Where no call holds the mutex, the thread may take it and give it back. -/
theorem Place.mutex (place : Place s) (free : ∀ j, s.mutex ≠ some (.writer j))
    (freeAfter : ∀ j, t.mutex ≠ some (.writer j)) (writers : t.writers = s.writers)
    (held : t.held = s.held) : Place t := by
  cases place with
  | outside _ waits decided =>
      refine .outside freeAfter ?_ ?_
      · rwa [writers]
      · rwa [held]
  | inside j _ own => exact absurd own (free j)

/-- A call that does not wait is the one that holds the mutex. -/
theorem Place.own (place : Place s) (called : s.writers j = some write) (within : ¬write.Waits) :
    s.mutex = some (.writer j) ∧ write.Holds j s.held ∧
      ∀ k, k ≠ j → ∀ write, s.writers k = some write → write.Waits := by
  cases place with
  | outside _ waits _ => exact absurd (waits j write called) within
  | inside k other mutex own holds others =>
      by_cases same : j = k
      · subst same
        rw [own, Option.some_inj] at called
        subst called
        exact ⟨mutex, holds, others⟩
      · exact absurd (others j same write called) within

theorem set_last (front : List (Holding τ)) (last other : Holding τ) :
    (front ++ [last]).set front.length other = front ++ [other] := by
  rw [List.set_append_right _ _ (Nat.le_refl _), Nat.sub_self]
  rfl

theorem decided_concat {front : List (Holding τ)} {last : Holding τ} (decided : Decided front)
    (own : last.outcome ≠ .undecided) : Decided (front ++ [last]) := by
  intro h member
  rcases List.mem_append.mp member with earlier | here
  · exact decided h earlier
  · rw [List.mem_singleton.mp here]
    exact own

theorem owned_concat {front : List (Holding τ)} {last : Holding τ} (owned : ∀ h ∈ front, h.Own)
    (own : last.Own) : ∀ h ∈ front ++ [last], h.Own := by
  intro h member
  rcases List.mem_append.mp member with earlier | here
  · exact owned h earlier
  · rw [List.mem_singleton.mp here]
    exact own

theorem entries_concat (front : List (Holding τ)) (last : Holding τ) :
    (front ++ [last]).filterMap (fun h => h.outcome.entry) =
      front.filterMap (fun h => h.outcome.entry) ++ last.outcome.entry.toList := by
  rw [List.filterMap_append]
  cases left : last.outcome.entry <;> simp [left]

/-- The calls that wait still do when another one has moved. -/
theorem others_wait {next : Option (Write τ)}
    (others : ∀ k, k ≠ j → ∀ write, s.writers k = some write → write.Waits) :
    ∀ k, k ≠ j → ∀ write, (s.setWriter j next).writers k = some write → write.Waits := by
  intro k other write called
  refine others k other write ?_
  rw [← called]
  exact (Function.update_of_ne other next s.writers).symm

theorem Place.called (place : Place s) (fresh : s.writers j = none) (call : Call τ) :
    Place (s.setWriter j (some (.lock call))) := by
  cases place with
  | outside free waits decided =>
      refine .outside free ?_ decided
      intro k write called
      by_cases same : k = j
      · subst same
        cases (Function.update_self k _ s.writers).symm.trans called
        trivial
      · exact others_wait (fun k _ => waits k) k same write called
  | inside i write mutex own holds others =>
      have other : i ≠ j := by
        rintro rfl
        rw [fresh] at own
        cases own
      refine .inside i write mutex ((Function.update_of_ne other _ s.writers).trans own) holds ?_
      intro k different write called
      by_cases same : k = j
      · subst same
        cases (Function.update_self k _ s.writers).symm.trans called
        trivial
      · exact others k different write
          ((Function.update_of_ne same _ s.writers).symm.trans called)

/-- A call that holds the mutex goes on. -/
theorem Orderly.moves (orderly : Orderly settings f s) (called : s.writers j = some write)
    (within : ¬write.Waits) {next : Write τ} (holds : write.Holds j s.held → next.Holds j s.held) :
    Orderly settings f (s.setWriter j (some next)) := by
  obtain ⟨mutex, held, others⟩ := orderly.place.own called within
  exact { orderly with
    place := .inside j next mutex (Function.update_self j _ s.writers) (holds held)
      (others_wait others) }

/-- A call gets the mutex. -/
theorem Orderly.locks (orderly : Orderly settings f s) (free : s.mutex = none) (call : Call τ) :
    Orderly settings f
      (({ s with mutex := some (.writer j), held := s.held ++ [⟨j, call, .undecided⟩] } :
        State τ).setWriter j (some (.test s.held.length call))) := by
  have place : Place (({ s with
      mutex := some (.writer j)
      held := s.held ++ [⟨j, call, .undecided⟩] } : State τ).setWriter j
        (some (.test s.held.length call))) := by
    cases orderly.place with
    | outside _ waits decided =>
        refine .inside j _ rfl (Function.update_self j _ s.writers) ⟨s.held, rfl, rfl, decided⟩ ?_
        exact others_wait fun k _ => waits k
    | inside i _ mutex =>
        rw [free] at mutex
        cases mutex
  exact { orderly with
    place := place
    owned := owned_concat orderly.owned nofun
    inside := fun within => by
      have held := orderly.inside within
      rw [free] at held
      cases held
    accounted := orderly.accounted.trans ((entries_concat s.held _).trans (List.append_nil _)).symm }

/-- The call that holds the mutex is decided: it leaves one entry or none. -/
theorem Orderly.decides (orderly : Orderly settings f s) (called : s.writers j = some write)
    (within : ¬write.Waits) {call : Call τ} {number : Nat}
    (holds : ∃ front, s.held = front ++ [⟨j, call, .undecided⟩] ∧ number = front.length ∧
      Decided front)
    (outcome : Outcome τ) (decided : outcome ≠ .undecided)
    (own : (⟨j, call, outcome⟩ : Holding τ).Own) (next : Write τ)
    (after : ∀ held, Decided held → next.Holds j held) :
    Orderly settings f (({ s with
      messages := s.messages ++ outcome.entry.toList
      held := s.held.set number ⟨j, call, outcome⟩ } : State τ).setWriter j (some next)) := by
  obtain ⟨mutex, _, others⟩ := orderly.place.own called within
  obtain ⟨front, held, rfl, earlier⟩ := holds
  have changed : s.held.set front.length ⟨j, call, outcome⟩ = front ++ [⟨j, call, outcome⟩] := by
    rw [held, set_last]
  have before : s.accepted = front.filterMap fun h => h.outcome.entry := by
    rw [State.accepted, held, entries_concat]
    exact List.append_nil _
  refine { orderly with
    place := .inside j next mutex (Function.update_self j _ s.writers) (after _ ?_)
      (others_wait others)
    owned := ?_
    accounted := ?_ }
  · exact changed ▸ decided_concat earlier decided
  · refine changed ▸ owned_concat (fun h member => orderly.owned h ?_) own
    rw [held]
    exact List.mem_append_left _ member
  · change s.batches.flatten ++ (s.messages ++ outcome.entry.toList) =
      (s.held.set front.length ⟨j, call, outcome⟩).filterMap fun h => h.outcome.entry
    rw [changed, entries_concat, ← before, ← orderly.accounted, List.append_assoc]

/-- A call gives the mutex back. -/
theorem Orderly.unlocks (orderly : Orderly settings f s) (called : s.writers j = some .unlock) :
    Orderly settings f (({ s with mutex := none } : State τ).setWriter j none) := by
  obtain ⟨mutex, decided, others⟩ := orderly.place.own called id
  refine { orderly with
    place := .outside (fun _ => nofun) ?_ decided
    inside := fun within => ?_ }
  · intro k write waiting
    by_cases same : k = j
    · subst same
      cases (Function.update_self k _ s.writers).symm.trans waiting
    · exact others_wait others k same write waiting
  · have held := orderly.inside within
    rw [mutex] at held
    cases held

/-- A notification at most wakes the thread. -/
theorem Orderly.notified (orderly : Orderly settings f s) : Orderly settings f s.notifyOne := by
  unfold State.notifyOne
  split
  next blocked =>
    refine { orderly with
      place := orderly.place.congr rfl rfl rfl
      inside := nofun
      idle := fun over_ => ?_
      batched := ?_ }
    · have exited := orderly.idle over_
      rw [blocked] at exited
      cases exited
    · rw [orderly.batched, blocked]
      rfl
  next => exact orderly

theorem notifyOne_writers (s : State τ) : s.notifyOne.writers = s.writers := by
  unfold State.notifyOne
  split <;> rfl

theorem Orderly.writerStep (orderly : Orderly settings f s) {systemTime highResolutionTime : τ}
    (called : s.writers j = some write)
    (stepped : s.writerStep settings j systemTime highResolutionTime write = some t) :
    Orderly settings f t := by
  cases write with
  | lock call =>
      simp only [State.writerStep] at stepped
      split at stepped
      next free =>
        cases stepped
        exact orderly.locks free call
      next => cases stepped
  | test number call =>
      simp only [State.writerStep] at stepped
      split at stepped
      next =>
        cases stepped
        have holds := (orderly.place.own called id).2.1
        have rejected := orderly.decides called id holds .rejected nofun nofun .unlock fun _ => id
        have none_ : (Outcome.rejected : Outcome τ).entry.toList = [] := rfl
        rwa [none_, List.append_nil] at rejected
      next =>
        cases stepped
        exact orderly.moves called id id
  | push number call =>
      cases stepped
      have holds := (orderly.place.own called id).2.1
      refine orderly.decides called id holds (.accepted _) nofun ?_ (.compare _) fun _ => id
      intro entry same
      cases same
      exact ⟨rfl, rfl, rfl⟩
  | compare logType =>
      simp only [State.writerStep] at stepped
      split at stepped
      next =>
        cases stepped
        exact orderly.moves called id id
      next =>
        split at stepped <;> cases stepped <;> exact orderly.moves called id id
  | notify =>
      cases stepped
      exact orderly.notified.moves ((congrFun (notifyOne_writers s) j).trans called) id id
  | unlock =>
      cases stepped
      exact orderly.unlocks called

/-- A step of the thread that leaves the mutex and the messages. -/
theorem Orderly.goes (orderly : Orderly settings f s) (alive : s.run ≠ .exited) (run : Run τ)
    (inside : run.Inside → s.run.Inside) (pending : run.pending = s.run.pending) :
    Orderly settings f { s with run := run } :=
  { orderly with
    place := orderly.place.congr rfl rfl rfl
    inside := fun within => orderly.inside (inside within)
    idle := fun over_ => absurd (orderly.idle over_) alive
    batched := orderly.batched.trans (by rw [pending]) }

theorem Orderly.marked (orderly : Orderly settings f s)
    (marks : List (List (Entry τ) × Option Converted)) :
    Orderly settings f { s with marks := marks } :=
  { orderly with place := orderly.place.congr rfl rfl rfl }

/-- The thread holds the mutex, so no call does. -/
theorem Orderly.alone (orderly : Orderly settings f s) (within : s.run.Inside) (j : Nat) :
    s.mutex ≠ some (.writer j) := by
  rw [orderly.inside within]
  nofun

/-- The batch is what waits, and nothing waits any more. -/
theorem Orderly.swaps (orderly : Orderly settings f s) (at_ : s.run = .swap) :
    Orderly settings f { s with
      mutex := none
      messages := []
      batches := s.batches ++ [s.messages]
      run := if s.messages.isEmpty then .stopTest else .writing s.messages } := by
  have within : s.run.Inside := by
    rw [at_]
    trivial
  have before : s.batches.filter (!·.isEmpty) = s.written.map Prod.fst := by
    rw [orderly.batched, at_]
    exact List.append_nil _
  refine { orderly with
    place := orderly.place.mutex (orderly.alone within) (fun _ => nofun) rfl rfl
    inside := ?_
    idle := fun over_ => ?_
    accounted := ?_
    batched := ?_ }
  · dsimp only
    split <;> exact nofun
  · have exited := orderly.idle over_
    rw [at_] at exited
    cases exited
  · dsimp only
    rw [List.flatten_append, List.flatten_singleton, List.append_nil]
    exact orderly.accounted
  · dsimp only
    rw [List.filter_append, before]
    cases empty : s.messages.isEmpty with
    | true => rw [List.filter_cons_of_neg (by simp [empty])]; rfl
    | false => rw [List.filter_cons_of_pos (by simp [empty])]; rfl

theorem Orderly.writes (orderly : Orderly settings f s) {messages : List (Entry τ)}
    (at_ : s.run = .writing messages) :
    Orderly settings f { s with
      written := s.written ++ [State.converted settings f messages]
      run := .stopTest } := by
  refine { orderly with
    place := orderly.place.congr rfl rfl rfl
    inside := nofun
    idle := fun over_ => ?_
    batched := ?_
    outputs := ?_ }
  · have exited := orderly.idle over_
    rw [at_] at exited
    cases exited
  · dsimp only
    rw [orderly.batched, at_, List.map_append]
    exact (List.append_nil _).symm
  · intro w member
    rcases List.mem_append.mp member with earlier | here
    · exact orderly.outputs w earlier
    · rw [List.mem_singleton.mp here]
      exact convertLog_eq f settings.consoleMode settings.fileMode messages

theorem Orderly.runStep (orderly : Orderly settings f s) {systemTime highResolutionTime : τ}
    (stepped : s.runStep settings f systemTime highResolutionTime = some t) :
    Orderly settings f t := by
  unfold State.runStep at stepped
  split at stepped
  next at_ =>
    cases stepped
    exact (orderly.goes (by simp [at_]) .stopTest nofun (by rw [at_]; rfl)).marked _
  next at_ =>
    cases stepped
    refine orderly.goes (by simp [at_]) _ ?_ ?_
    · split <;> exact nofun
    · rw [at_]
      split <;> rfl
  next at_ =>
    cases stepped
    refine orderly.goes (by simp [at_]) _ ?_ ?_
    · split <;> exact nofun
    · rw [at_]
      split <;> rfl
  next at_ =>
    split at stepped
    next free =>
      cases stepped
      have open_ : ∀ j, s.mutex ≠ some (.writer j) := by
        rw [free]
        exact fun _ => nofun
      exact { orderly with
        place := orderly.place.mutex open_ (fun _ => nofun) rfl rfl
        inside := fun _ => rfl
        idle := fun over_ => absurd (orderly.idle over_) (by simp [at_])
        batched := orderly.batched.trans (by rw [at_]; rfl) }
    next => cases stepped
  next at_ =>
    cases stepped
    refine orderly.goes (by simp [at_]) _ (fun _ => by rw [at_]; trivial) ?_
    rw [at_]
    split <;> rfl
  next at_ =>
    cases stepped
    refine orderly.goes (by simp [at_]) _ (fun _ => by rw [at_]; trivial) ?_
    rw [at_]
    split <;> rfl
  next at_ =>
    cases stepped
    have within : s.run.Inside := by
      rw [at_]
      trivial
    exact { orderly with
      place := orderly.place.mutex (orderly.alone within) (fun _ => nofun) rfl rfl
      inside := nofun
      idle := fun over_ => absurd (orderly.idle over_) (by simp [at_])
      batched := orderly.batched.trans (by rw [at_]; rfl) }
  next at_ =>
    cases stepped
    exact orderly.goes (by simp [at_]) (.lock false) nofun (by rw [at_]; rfl)
  next at_ =>
    cases stepped
    exact orderly.swaps at_
  next at_ =>
    cases stepped
    exact orderly.writes at_
  next at_ =>
    cases stepped
    exact (orderly.goes (by simp [at_]) .exited nofun (by rw [at_]; rfl)).marked _
  next => cases stepped

/-- `start` and `stop` leave what the calls and the thread share, apart from the flag. -/
theorem Orderly.controls (orderly : Orderly settings f s) {threadStop thread : Bool}
    {control : Option Control}
    (idle : thread = false ∨ (∃ starts, control = some (.stop .reset starts)) → s.run = .exited)
    (absent : control = some .clear ∨ control = some .spawn → thread = false) :
    Orderly settings f
      { s with threadStop := threadStop, thread := thread, control := control } :=
  { orderly with
    place := orderly.place.congr rfl rfl rfl
    idle := idle
    absent := absent }

/-- `stop` is on its way, up to the end of the thread. -/
theorem Orderly.heads (orderly : Orderly settings f s) (threadStop : Bool) {place : Stop}
    (starts : Bool) (before : place ≠ .reset) :
    Orderly settings f { s with threadStop := threadStop, control := some (.stop place starts) } := by
  refine orderly.controls ?_ nofun
  rintro (idle | ⟨_, reset⟩)
  · exact orderly.idle (.inl idle)
  · cases reset
    exact absurd rfl before

/-- Where `stop` ends there is no thread. -/
theorem Orderly.stopped (orderly : Orderly settings f s) (threadStop starts : Bool)
    (over_ : s.run = .exited) :
    Orderly settings f (({ s with threadStop := threadStop, thread := false } : State τ).stopped
      starts) :=
  orderly.controls (fun _ => over_) (fun _ => rfl)

theorem Orderly.controlStep (orderly : Orderly settings f s) {control : Control}
    (called : s.control = some control) (stepped : s.controlStep control = some t) :
    Orderly settings f t := by
  cases control with
  | stop place starts =>
      cases place with
      | test =>
          simp only [State.controlStep] at stepped
          split at stepped
          next =>
            cases stepped
            exact orderly.heads s.threadStop starts nofun
          next absent =>
            cases stepped
            have gone : s.thread = false := Bool.eq_false_of_not_eq_true absent
            have over_ := orderly.stopped s.threadStop starts (orderly.idle (.inl gone))
            rwa [← gone] at over_
      | store =>
          cases stepped
          exact orderly.heads true starts nofun
      | notify =>
          cases stepped
          exact orderly.notified.heads s.notifyOne.threadStop starts nofun
      | joining =>
          simp only [State.controlStep] at stepped
          split at stepped
          next exited =>
            cases stepped
            exact orderly.controls (fun _ => exited) nofun
          next => cases stepped
      | reset =>
          cases stepped
          exact orderly.stopped false starts (orderly.idle (.inr ⟨starts, called⟩))
  | clear =>
      cases stepped
      have gone := orderly.absent (.inl called)
      exact orderly.controls (fun _ => orderly.idle (.inl gone)) (fun _ => gone)
  | spawn =>
      cases stepped
      have exited := orderly.idle (.inl (orderly.absent (.inr called)))
      refine { orderly with
        place := orderly.place.congr rfl rfl rfl
        inside := nofun
        idle := ?_
        absent := ?_
        batched := orderly.batched.trans (by rw [exited]; rfl) }
      · rintro (idle | ⟨_, reset⟩)
        · cases idle
        · cases reset
      · rintro (clear | spawn)
        · cases clear
        · cases spawn

theorem orderly_step {a : State.Action τ} (orderly : Orderly settings f s)
    (stepped : s.step settings f a = some t) : Orderly settings f t := by
  cases a with
  | write j call =>
      simp only [State.step] at stepped
      split at stepped
      next fresh =>
        cases stepped
        exact { orderly with place := orderly.place.called fresh call }
      next => cases stepped
  | writer j systemTime highResolutionTime =>
      simp only [State.step] at stepped
      split at stepped
      next write called => exact orderly.writerStep called stepped
      next => cases stepped
  | run systemTime highResolutionTime => exact orderly.runStep stepped
  | timeOut =>
      simp only [State.step] at stepped
      split at stepped
      next at_ =>
        split at stepped <;> cases stepped
        exact orderly.goes (by simp [at_]) (.lock true) nofun (by rw [at_]; rfl)
      next => cases stepped
  | callStart =>
      simp only [State.step] at stepped
      split at stepped <;> cases stepped
      exact orderly.heads s.threadStop true nofun
  | callStop =>
      simp only [State.step] at stepped
      split at stepped <;> cases stepped
      exact orderly.heads s.threadStop false nofun
  | control =>
      simp only [State.step] at stepped
      split at stepped
      next control called => exact orderly.controlStep called stepped
      next => cases stepped

/-- A call that has not decided yet is the one that holds the mutex. -/
theorem Place.undecided (place : Place s) {h : Holding τ} (member : h ∈ s.held)
    (open_ : h.outcome = .undecided) : s.mutex = some (.writer h.writer) := by
  have last : ∀ j call, (∃ front, s.held = front ++ [⟨j, call, .undecided⟩] ∧ Decided front) →
      h.writer = j := by
    rintro j call ⟨front, held, decided⟩
    rw [held, List.mem_append, List.mem_singleton] at member
    rcases member with earlier | rfl
    · exact absurd open_ (decided h earlier)
    · rfl
  cases place with
  | outside _ _ decided => exact absurd open_ (decided h member)
  | inside j write mutex own holds others =>
      cases write with
      | lock => exact holds.elim
      | test number call =>
          obtain ⟨front, held, _, decided⟩ := holds
          rw [last j call ⟨front, held, decided⟩, mutex]
      | push number call =>
          obtain ⟨front, held, _, decided⟩ := holds
          rw [last j call ⟨front, held, decided⟩, mutex]
      | compare => exact absurd open_ (holds h member)
      | notify => exact absurd open_ (holds h member)
      | unlock => exact absurd open_ (holds h member)

end

/-- In every state that a run comes to, the batches and what waits are what the calls have
accepted, in the order in which they held the mutex; every batch with a message is written once,
in order, and `convert_log` separates all of it. -/
theorem messages_kept {settings : Settings} {f : Formats τ} {threadStop : Bool}
    {actions : List (State.Action τ)} {s : State τ}
    (ran : Machine.run (State.step settings f) (State.initial threadStop) actions = some s) :
    s.batches.flatten ++ s.messages = s.accepted ∧
      (∀ h ∈ s.held,
        h.Own ∧ (h.outcome = .undecided → s.mutex = some (.writer h.writer))) ∧
      s.batches.filter (!·.isEmpty) = s.written.map Prod.fst ++ s.run.pending ∧
      (∀ w ∈ s.written,
        w.2 = some (separated f settings.consoleMode settings.fileMode w.1)) ∧
      ∀ batch ∈ s.batches, convertLog f settings.consoleMode settings.fileMode batch =
        some (separated f settings.consoleMode settings.fileMode batch) := by
  have orderly : Orderly settings f s :=
    run_keeps (fun _ _ _ => orderly_step) (initial_orderly settings f threadStop) ran
  refine ⟨orderly.accounted, ?_, orderly.batched, orderly.outputs, ?_⟩
  · exact fun h member => ⟨orderly.owned h member, orderly.place.undecided member⟩
  · exact fun batch _ => convertLog_eq f settings.consoleMode settings.fileMode batch

end

/-- Times are numbers of seconds, and an object is its values. -/
def plain : Formats Nat where
  datetime seconds := List.replicate seconds 48
  milliseconds start done := List.replicate (done - start) 49
  serialize pairs := pairs.flatMap Prod.snd

def usual : Settings where
  consoleMode := .error
  fileMode := .information
  logTypes := .information
  writeInterval := 0

/-- One message that wakes the thread and one that does not. -/
def loud : Call Nat := ⟨.information, .string [104, 105], none⟩

def quiet : Call Nat := ⟨.packet, .u32string [121, 111], some 1⟩

/-- Two calls compete, and the batch of both is written. -/
def twoCalls : List (State.Action Nat) :=
  [.callStart, .control, .control, .control, .run 1 1, .write 0 loud, .write 1 quiet] ++
    List.replicate 5 (.writer 1 2 3) ++ List.replicate 6 (.writer 0 2 3) ++
      List.replicate 6 (.run 4 4)

theorem messages_kept_twoCalls :
    ∃ s, Machine.run (State.step usual plain) (State.initial true) twoCalls = some s ∧
      s.batches = [[⟨.packet, quiet.message, 2, some 1, 3⟩,
        ⟨.information, loud.message, 2, none, 3⟩]] ∧
      s.batches.flatten ++ s.messages = s.accepted ∧
      (∀ h ∈ s.held, h.Own ∧ (h.outcome = .undecided → s.mutex = some (.writer h.writer))) ∧
      s.batches.filter (!·.isEmpty) = s.written.map Prod.fst ++ s.run.pending ∧
      (∀ w ∈ s.written, w.2 = some (separated plain .error .information w.1)) ∧
      ∀ batch ∈ s.batches, convertLog plain .error .information batch =
        some (separated plain .error .information batch) :=
  ⟨_, rfl, rfl, @messages_kept Nat usual plain true twoCalls _ rfl⟩

end CppToolkit.Utilities.LogQueue
