import CppToolkit.Thread.ThreadPool

/-! What one step of the thread pool does: the cases of the step functions with their
guards, so that no later proof opens a step function again. -/
namespace CppToolkit.Thread

/-- Phases with no job in hand, no push under way and no count that could end the loop. -/
def Phase.quiet : Phase → Bool
  | .stopCounting _ _ => false
  | .popped (some _) => false
  | .running _ (some _) => false
  | .leaving => false
  | .exited => false
  | _ => true

theorem Phase.quiet_hand {phase : Phase} (quiet : phase.quiet = true) : phase.hand = none := by
  cases phase with
  | popped job =>
      cases job with
      | none => rfl
      | some job => cases quiet
  | _ => rfl

theorem Phase.quiet_push {phase : Phase} (quiet : phase.quiet = true) : phase.push = none := by
  cases phase with
  | running job push =>
      cases push with
      | none => rfl
      | some push => cases quiet
  | _ => rfl

theorem Phase.quiet_left {phase : Phase} (quiet : phase.quiet = true) : phase.left = false := by
  cases phase with
  | leaving => cases quiet
  | exited => cases quiet
  | _ => rfl

namespace ThreadPool

@[simp] theorem setCaller_workers (s : ThreadPool) (j : Nat) (operation : Option Operation) :
    (s.setCaller j operation).workers = s.workers := rfl

@[simp] theorem setCaller_mutex (s : ThreadPool) (j : Nat) (operation : Option Operation) :
    (s.setCaller j operation).mutex = s.mutex := rfl

@[simp] theorem setCaller_self (s : ThreadPool) (j : Nat) (operation : Option Operation) :
    (s.setCaller j operation).callers j = operation := Function.update_self _ _ _

theorem setCaller_ne (s : ThreadPool) {j k : Nat} (operation : Option Operation) (other : k ≠ j) :
    (s.setCaller j operation).callers k = s.callers k := Function.update_of_ne other _ _

@[simp] theorem setWorker_self (s : ThreadPool) (i : Nat) (w : ThreadWorker) :
    (s.setWorker i w).workers i = w := Function.update_self _ _ _

theorem setWorker_ne (s : ThreadPool) {i k : Nat} (w : ThreadWorker) (other : k ≠ i) :
    (s.setWorker i w).workers k = s.workers k := Function.update_of_ne other _ _

@[simp] theorem setPhase_self (s : ThreadPool) (i : Nat) (phase : Phase) :
    (s.setPhase i phase).workers i = { s.workers i with phase } := setWorker_self _ _ _

theorem setPhase_ne (s : ThreadPool) {i k : Nat} (phase : Phase) (other : k ≠ i) :
    (s.setPhase i phase).workers k = s.workers k := setWorker_ne _ _ other

theorem started_worker (priorities : List (List JobPriorities)) (i : Nat) :
    (i ∈ (started priorities).threadWorkers ∧
      ∃ list, (started priorities).workers i = .started list false) ∨
    (i ∉ (started priorities).threadWorkers ∧ (started priorities).workers i = .absent) := by
  by_cases inside : i < priorities.length
  · refine .inl ⟨List.mem_range.mpr inside, priorities[i], ?_⟩
    simp only [started, List.getElem?_eq_getElem inside, Option.map_some, Option.getD_some]
  · refine .inr ⟨fun member => inside (List.mem_range.mp member), ?_⟩
    simp only [started, List.getElem?_eq_none (Nat.le_of_not_lt inside), Option.map_none,
      Option.getD_none]

/-- What a new value of one worker has in common with the old one, all workers have. -/
theorem setWorker_keeps {β : Type*} (f : ThreadWorker → β) {s : ThreadPool} {i : Nat}
    {w : ThreadWorker} (same : f w = f (s.workers i)) (k : Nat) :
    f ((s.setWorker i w).workers k) = f (s.workers k) := by
  by_cases here : k = i
  · rw [here, setWorker_self, same]
  · rw [setWorker_ne s w here]

/-- What one step of `push` does. -/
inductive PushStep (s : ThreadPool) (me : Owner) : Push → ThreadPool → Option Push → Prop where
  | refused (priority : JobPriorities) (locked : s.jobPool.lockCondition = true) :
      PushStep s me (.test priority) s none
  | tested (priority : JobPriorities) (unlocked : s.jobPool.lockCondition = false) :
      PushStep s me (.test priority) s (some (.insert priority))
  | inserted (priority : JobPriorities) :
      PushStep s me (.insert priority)
        { s with
          jobPool := s.jobPool.insert ⟨s.inserted.length, priority⟩
          inserted := s.inserted ++ [⟨s.inserted.length, priority⟩] }
        (some (.waiting ⟨s.inserted.length, priority⟩))
  | acquired (job : Job) (free : s.mutex = none) :
      PushStep s me (.waiting job) { s with mutex := some me }
        (some (.notifying job s.threadWorkers))
  | skipped (job : Job) (i : Nat) (left : List Nat)
      (unwanted : ¬ (s.workers i).wants job.priority) :
      PushStep s me (.notifying job (i :: left)) s (some (.notifying job left))
  | notified (job : Job) (i : Nat) (left : List Nat) (free : (s.workers i).locked = false) :
      PushStep s me (.notifying job (i :: left)) (s.setWorker i (s.workers i).notify)
        (some (.notifying job left))
  | returned (job : Job) :
      PushStep s me (.notifying job []) { s.unlock with accepted := s.accepted ++ [job] } none

/-- What a notification leaves alone, a push leaves alone. -/
theorem PushStep.workers {s t : ThreadPool} {me : Owner} {p : Push} {p' : Option Push}
    (step : PushStep s me p t p') {β : Type*} (f : ThreadWorker → β)
    (notified : ∀ w, f w.notify = f w) (k : Nat) : f (t.workers k) = f (s.workers k) := by
  cases step with
  | notified job i left => exact setWorker_keeps f (notified _) k
  | _ => rfl

theorem PushStep.callers {s t : ThreadPool} {me : Owner} {p : Push} {p' : Option Push}
    (step : PushStep s me p t p') : t.callers = s.callers := by
  cases step <;> rfl

/-- A push leaves a worker alone or notifies it. -/
theorem PushStep.worker {s t : ThreadPool} {me : Owner} {p : Push} {p' : Option Push}
    (step : PushStep s me p t p') (k : Nat) : t.workers k = s.workers k ∨
      (s.workers k).locked = false ∧ t.workers k = (s.workers k).notify := by
  cases step with
  | notified job i left free =>
      by_cases here : k = i
      · rw [here, setWorker_self]
        exact .inr ⟨free, rfl⟩
      · exact .inl (setWorker_ne _ _ here)
  | _ => exact .inl rfl

theorem pushStep_inv {s t : ThreadPool} {me : Owner} {p : Push} {p' : Option Push}
    (stepped : s.pushStep me p = some (t, p')) : PushStep s me p t p' := by
  cases p with
  | test priority =>
      simp only [pushStep] at stepped
      split at stepped
      next locked =>
        cases stepped
        exact .refused priority locked
      next unlocked =>
        cases stepped
        exact .tested priority (eq_false_of_ne_true unlocked)
  | insert priority =>
      cases stepped
      exact .inserted priority
  | waiting job =>
      simp only [pushStep] at stepped
      split at stepped <;> cases stepped
      next free => exact .acquired job free
  | notifying job left =>
      cases left with
      | nil =>
          cases stepped
          exact .returned job
      | cons i left =>
          simp only [pushStep] at stepped
          split at stepped
          next unwanted =>
            cases stepped
            exact .skipped job i left unwanted
          next =>
            split at stepped <;> cases stepped
            next free => exact .notified job i left (eq_false_of_ne_true free)

/-- What one step of the run loop does: most steps only move within the loop. -/
inductive WorkerStep (s : ThreadPool) (i : Nat) : ThreadPool → Prop where
  | moved (phase : Phase) (quiet : phase.quiet = true)
      (before : (s.workers i).phase.hand = none) (remains : (s.workers i).phase.left = false)
      (idle : (s.workers i).phase.push = none) (jobless : phase.job = none) :
      WorkerStep s i (s.setPhase i phase)
  | starts (stop : (s.workers i).threadStop = true) (test : (s.workers i).phase = .stopTest) :
      WorkerStep s i (s.setPhase i (.stopCounting ((s.workers i).hasJob s.jobPool).1
        ((s.workers i).hasJob s.jobPool).2))
  | counts (priority : JobPriorities) (left : List JobPriorities) (count : Nat)
      (counting : (s.workers i).phase = .stopCounting (priority :: left) count) :
      WorkerStep s i (s.setPhase i (.stopCounting left (count + s.jobPool.countOf priority)))
  | drained (counting : (s.workers i).phase = .stopCounting [] 0) :
      WorkerStep s i (s.setPhase i .leaving)
  | pops (job : Job) (jobPool : JobPool) (popping : (s.workers i).phase = .popping)
      (popped : s.jobPool.pop (s.workers i).priorities = some (job, jobPool)) :
      WorkerStep s i ({ s with jobPool }.setPhase i (.popped (some job)))
  | breaks (nothing : (s.workers i).phase = .popped none) (stop : (s.workers i).threadStop = true) :
      WorkerStep s i (s.setPhase i .leaving)
  | works (job : Job) (popped : (s.workers i).phase = .popped (some job)) :
      WorkerStep s i ({ s with worked := s.worked ++ [job] }.setPhase i (.running job none))
  | pushes (job : Job) (p : Push) (t : ThreadPool) (p' : Option Push)
      (running : (s.workers i).phase = .running job (some p))
      (step : PushStep s (.worker i) p t p') :
      WorkerStep s i (t.setPhase i (.running job p'))
  | exits (leaving : (s.workers i).phase = .leaving) :
      WorkerStep s i (s.setWorker i { s.workers i with threadStop := false, phase := .exited })

theorem workerStep_inv {s t : ThreadPool} {i : Nat} (stepped : s.workerStep i = some t) :
    WorkerStep s i t := by
  have moves : ∀ {phase : Phase}, phase.quiet = true → (s.workers i).phase.hand = none →
      (s.workers i).phase.left = false → (s.workers i).phase.push = none → phase.job = none →
      some (s.setPhase i phase) = some t → WorkerStep s i t := by
    intro phase quiet before remains idle jobless same
    cases same
    exact .moved phase quiet before remains idle jobless
  unfold workerStep at stepped
  dsimp only at stepped
  split at stepped
  next at_ => exact moves rfl (by rw [at_]; rfl) (by rw [at_]; rfl) (by rw [at_]; rfl) rfl stepped
  next at_ =>
    split at stepped
    next => exact moves rfl (by rw [at_]; rfl) (by rw [at_]; rfl) (by rw [at_]; rfl) rfl stepped
    next =>
      split at stepped <;>
        exact moves rfl (by rw [at_]; rfl) (by rw [at_]; rfl) (by rw [at_]; rfl) rfl stepped
  next at_ => exact moves rfl (by rw [at_]; rfl) (by rw [at_]; rfl) (by rw [at_]; rfl) rfl stepped
  next at_ =>
    split at stepped <;>
      exact moves rfl (by rw [at_]; rfl) (by rw [at_]; rfl) (by rw [at_]; rfl) rfl stepped
  next at_ => exact moves rfl (by rw [at_]; rfl) (by rw [at_]; rfl) (by rw [at_]; rfl) rfl stepped
  next at_ =>
    split at stepped
    next stop =>
      cases stepped
      exact .starts stop at_
    next => exact moves rfl (by rw [at_]; rfl) (by rw [at_]; rfl) (by rw [at_]; rfl) rfl stepped
  next priority left count at_ =>
    cases stepped
    exact .counts priority left count at_
  next count at_ =>
    split at stepped
    next => exact moves rfl (by rw [at_]; rfl) (by rw [at_]; rfl) (by rw [at_]; rfl) rfl stepped
    next zero =>
      cases stepped
      rw [Nat.eq_zero_of_not_pos zero] at at_
      exact .drained at_
  next at_ =>
    split at stepped <;>
      exact moves rfl (by rw [at_]; rfl) (by rw [at_]; rfl) (by rw [at_]; rfl) rfl stepped
  next at_ =>
    split at stepped
    next => exact moves rfl (by rw [at_]; rfl) (by rw [at_]; rfl) (by rw [at_]; rfl) rfl stepped
    next job jobPool popped =>
      cases stepped
      exact .pops job jobPool at_ popped
  next at_ =>
    split at stepped
    next stop =>
      cases stepped
      exact .breaks at_ stop
    next => exact moves rfl (by rw [at_]; rfl) (by rw [at_]; rfl) (by rw [at_]; rfl) rfl stepped
  next job at_ =>
    cases stepped
    exact .works job at_
  next at_ => exact moves rfl (by rw [at_]; rfl) (by rw [at_]; rfl) (by rw [at_]; rfl) rfl stepped
  next job push at_ =>
    obtain ⟨⟨u, p'⟩, pushed, same⟩ := Option.map_eq_some_iff.mp stepped
    subst same
    exact .pushes job push u p' at_ (pushStep_inv pushed)
  next at_ =>
    cases stepped
    exact .exits at_
  next => cases stepped

section
variable {s t : ThreadPool} {i : Nat}

theorem WorkerStep.callers (step : WorkerStep s i t) : t.callers = s.callers := by
  cases step with
  | pushes job p u p' running step => exact step.callers
  | _ => rfl

theorem WorkerStep.threadWorkers (step : WorkerStep s i t) :
    t.threadWorkers = s.threadWorkers := by
  cases step with
  | pushes job p u p' running step => cases step <;> rfl
  | _ => rfl

theorem WorkerStep.live (step : WorkerStep s i t) : (s.workers i).phase ≠ .exited := by
  intro exited
  cases step with
  | moved phase quiet before remains =>
      rw [exited] at remains
      cases remains
  | starts stop test => cases exited.symm.trans test
  | counts priority left count counting => cases exited.symm.trans counting
  | drained counting => cases exited.symm.trans counting
  | pops job jobPool popping => cases exited.symm.trans popping
  | breaks nothing => cases exited.symm.trans nothing
  | works job popped => cases exited.symm.trans popped
  | pushes job p u p' running => cases exited.symm.trans running
  | exits leaving => cases exited.symm.trans leaving

/-- Beside its own worker, a step of a worker only notifies. -/
theorem WorkerStep.other {k : Nat} (step : WorkerStep s i t) (different : k ≠ i) :
    t.workers k = s.workers k ∨
      (s.workers k).locked = false ∧ t.workers k = (s.workers k).notify := by
  cases step with
  | pushes job p u p' running step =>
      rw [setPhase_ne _ _ different]
      exact step.worker k
  | exits => exact .inl (setWorker_ne _ _ different)
  | _ => exact .inl (setPhase_ne _ _ different)

end

/-- What one step of a caller does. -/
inductive CallerStep (s : ThreadPool) (j : Nat) :
    Operation → ThreadPool → Option Operation → Prop where
  | pushes (p : Push) (t : ThreadPool) (p' : Option Push) (step : PushStep s (.caller j) p t p') :
      CallerStep s j (.push p) t (p'.map .push)
  | pauses (flag : Bool) (free : s.mutex = none) :
      CallerStep s j (.pause flag) { s with mutex := some (.caller j), pause := flag }
        (some (.pausing flag s.threadWorkers))
  | paused (flag : Bool) (i : Nat) (left : List Nat) (free : (s.workers i).locked = false) :
      CallerStep s j (.pausing flag (i :: left)) (s.setWorker i ((s.workers i).setPause flag))
        (some (.pausing flag left))
  | pauseEnds (flag : Bool) : CallerStep s j (.pausing flag []) s.unlock none
  | stops (immediately : Bool) (before : List Job) (free : s.mutex = none) :
      CallerStep s j (.stop immediately before) { s with mutex := some (.caller j) }
        (some (.stopTest immediately before))
  | locks (immediately : Bool) (before : List Job) (working : s.working = true) :
      CallerStep s j (.stopTest immediately before) { s with jobPool := s.jobPool.lock true }
        (some (.stopLocked immediately before))
  | notStarted (immediately : Bool) (before : List Job) :
      CallerStep s j (.stopTest immediately before) (s.unlock.returnStop (some "not started") before)
        none
  | loops (before : List Job) :
      CallerStep s j (.stopLocked false before) s (some (.next (.stop before) s.threadWorkers))
  | clearsAll (before : List Job) :
      CallerStep s j (.stopLocked true before) { s with jobPool := s.jobPool.clear }
        (some (.next (.stop before) s.threadWorkers))
  | stopReturns (before : List Job) :
      CallerStep s j (.stopped before) ({ s with working := false }.returnStop none before) none
  | clears (priority : JobPriorities) :
      CallerStep s j (.clear priority) { s with jobPool := s.jobPool.clearPriority priority }
        (some (.remove priority))
  | removes (priority : JobPriorities) (free : s.mutex = none) :
      CallerStep s j (.remove priority) { s with mutex := some (.caller j) }
        (some (.next (.remove priority []) s.threadWorkers))
  | stopBody (before : List Job) (i : Nat) (left : List Nat) :
      CallerStep s j (.next (.stop before) (i :: left)) s (some (.halting (.stop before) i left))
  | removeBody (priority : JobPriorities) (removed : List Nat) (i : Nat) (left : List Nat)
      (priorities : List JobPriorities) (next : Operation)
      (either : next = .halting (.remove priority removed) i left ∨
        next = .next (.remove priority removed) left)
      (free : (s.workers i).locked = false) (fewer : priorities ⊆ (s.workers i).priorities) :
      CallerStep s j (.next (.remove priority removed) (i :: left))
        (s.setWorker i ((s.workers i).setPriorities priorities)) (some next)
  | stopEnds (before : List Job) :
      CallerStep s j (.next (.stop before) []) { s.unlock with jobPool := s.jobPool.lock false }
        (some (.stopped before))
  | removeEnds (priority : JobPriorities) (removed : List Nat) (threadWorkers : List Nat)
      (removals : List (Nat × Option String))
      (kept : ∀ i ∈ s.threadWorkers, i ∉ removed → i ∈ threadWorkers) :
      CallerStep s j (.next (.remove priority removed) [])
        { s.unlock with threadWorkers := threadWorkers, removals := removals } none
  | stopRefused (before : List Job) (i : Nat) (left : List Nat)
      (absent : (s.workers i).thread = false) :
      CallerStep s j (.halting (.stop before) i left)
        (s.unlock.returnStop (some "Thread is not running.") before) none
  | removeSkips (priority : JobPriorities) (removed : List Nat) (i : Nat) (left : List Nat)
      (absent : (s.workers i).thread = false) :
      CallerStep s j (.halting (.remove priority removed) i left) s
        (some (.next (.remove priority (removed ++ [i])) left))
  | halts (loop : Loop) (i : Nat) (left : List Nat) (present : (s.workers i).thread = true)
      (free : (s.workers i).locked = false) :
      CallerStep s j (.halting loop i left) (s.setWorker i (s.workers i).setStop)
        (some (.joining loop i left))
  | joins (loop : Loop) (i : Nat) (left : List Nat) (exited : (s.workers i).phase = .exited) :
      CallerStep s j (.joining loop i left) (s.setWorker i { s.workers i with thread := false })
        (some (.next (loop.joined i) left))

theorem CallerStep.callers {s t : ThreadPool} {j : Nat} {op : Operation} {op' : Option Operation}
    (step : CallerStep s j op t op') : t.callers = s.callers := by
  cases step with
  | pushes p t p' step => exact step.callers
  | _ => rfl

/-- A caller never moves the thread of a worker, except that it notifies it. -/
theorem CallerStep.phases {s t : ThreadPool} {j : Nat} {op : Operation} {op' : Option Operation}
    (step : CallerStep s j op t op') {β : Type*} (f : Phase → β)
    (notified : ∀ phase, f phase.notify = f phase) (k : Nat) :
    f (t.workers k).phase = f (s.workers k).phase := by
  cases step with
  | pushes p t p' step => exact step.workers (fun w => f w.phase) (fun w => notified _) k
  | paused flag i left => exact setWorker_keeps (fun w => f w.phase) (notified _) k
  | removeBody priority removed i left priorities next =>
      refine setWorker_keeps (fun w => f w.phase) ?_ k
      rfl
  | halts loop i left => exact setWorker_keeps (fun w => f w.phase) (notified _) k
  | joins loop i left =>
      refine setWorker_keeps (fun w => f w.phase) ?_ k
      rfl
  | _ => rfl

/-- Only a thread that waits can be notified, so any other phase stays. -/
theorem CallerStep.phase_iff {s t : ThreadPool} {j : Nat} {op : Operation} {op' : Option Operation}
    (step : CallerStep s j op t op') {phase : Phase} (awake : ∀ notified, phase ≠ .blocked notified)
    (k : Nat) : (t.workers k).phase = phase ↔ (s.workers k).phase = phase := by
  refine decide_eq_decide.mp (step.phases (fun p => decide (p = phase)) (fun p => ?_) k)
  cases p with
  | blocked notified =>
      exact decide_eq_decide.mpr (iff_of_false (awake true ·.symm) (awake notified ·.symm))
  | _ => rfl

theorem callerStep_inv {s t : ThreadPool} {j : Nat} {op : Operation} {op' : Option Operation}
    (stepped : s.callerStep j op = some (t, op')) : CallerStep s j op t op' := by
  cases op with
  | push p =>
      obtain ⟨⟨u, p'⟩, pushed, same⟩ := Option.map_eq_some_iff.mp stepped
      cases same
      exact .pushes p t p' (pushStep_inv pushed)
  | pause flag =>
      simp only [callerStep] at stepped
      split at stepped <;> cases stepped
      next free => exact .pauses flag free
  | pausing flag left =>
      cases left with
      | nil =>
          cases stepped
          exact .pauseEnds flag
      | cons i left =>
          simp only [callerStep] at stepped
          split at stepped <;> cases stepped
          next free => exact .paused flag i left (eq_false_of_ne_true free)
  | stop immediately before =>
      simp only [callerStep] at stepped
      split at stepped <;> cases stepped
      next free => exact .stops immediately before free
  | stopTest immediately before =>
      simp only [callerStep] at stepped
      split at stepped <;> cases stepped
      next working => exact .locks immediately before working
      next => exact .notStarted immediately before
  | stopLocked immediately before =>
      cases immediately with
      | false =>
          cases stepped
          exact .loops before
      | true =>
          cases stepped
          exact .clearsAll before
  | stopped before =>
      cases stepped
      exact .stopReturns before
  | clear priority =>
      cases stepped
      exact .clears priority
  | remove priority =>
      simp only [callerStep] at stepped
      split at stepped <;> cases stepped
      next free => exact .removes priority free
  | next loop left =>
      cases left with
      | nil =>
          cases loop with
          | stop before =>
              cases stepped
              exact .stopEnds before
          | remove priority removed =>
              cases removed with
              | nil =>
                  cases stepped
                  exact .removeEnds priority [] s.threadWorkers _ fun _ member _ => member
              | cons first removed =>
                  cases stepped
                  refine .removeEnds priority (first :: removed) _ _ fun i member stays => ?_
                  exact List.mem_filter.mpr ⟨member, decide_eq_true stays⟩
      | cons i left =>
          cases loop with
          | stop before =>
              cases stepped
              exact .stopBody before i left
          | remove priority removed =>
              simp only [callerStep, bodyStep] at stepped
              split at stepped <;> cases stepped
              next free =>
                refine .removeBody priority removed i left _ _ ?_ (eq_false_of_ne_true free)
                  fun _ member => List.mem_of_mem_filter member
                split
                next => exact .inl rfl
                next => exact .inr rfl
  | halting loop i left =>
      simp only [callerStep] at stepped
      split at stepped
      next absent =>
        cases loop with
        | stop before =>
            cases stepped
            exact .stopRefused before i left absent
        | remove priority removed =>
            cases stepped
            exact .removeSkips priority removed i left absent
      next present =>
        split at stepped <;> cases stepped
        next free => exact .halts loop i left (eq_true_of_ne_false present) (eq_false_of_ne_true free)
  | joining loop i left =>
      simp only [callerStep] at stepped
      split at stepped <;> cases stepped
      next exited => exact .joins loop i left exited

/-- What one step of any thread does. -/
inductive Step (s : ThreadPool) : Action → ThreadPool → Prop where
  | worker (i : Nat) (t : ThreadPool) (step : WorkerStep s i t) : Step s (.worker i) t
  | push (i : Nat) (priority : JobPriorities) (job : Job)
      (running : (s.workers i).phase = .running job none) :
      Step s (.push i priority) (s.setPhase i (.running job (some (.test priority))))
  | call (j : Nat) (call : Call) (idle : s.callers j = none) :
      Step s (.call j call) (s.setCaller j (some (s.beginCall call)))
  | caller (j : Nat) (op : Operation) (t : ThreadPool) (op' : Option Operation)
      (called : s.callers j = some op) (step : CallerStep s j op t op') :
      Step s (.caller j) (t.setCaller j op')

theorem step_inv {s t : ThreadPool} {a : Action} (stepped : step s a = some t) : Step s a t := by
  cases a with
  | worker i => exact .worker i t (workerStep_inv stepped)
  | push i priority =>
      simp only [step] at stepped
      split at stepped
      next job running =>
        cases stepped
        exact .push i priority job running
      next => cases stepped
  | call j call =>
      simp only [step] at stepped
      split at stepped <;> cases stepped
      next idle => exact .call j call idle
  | caller j =>
      simp only [step] at stepped
      split at stepped
      next op called =>
        obtain ⟨⟨u, op'⟩, rest, same⟩ := Option.map_eq_some_iff.mp stepped
        subst same
        exact .caller j op u op' called (callerStep_inv rest)
      next => cases stepped

section
variable {s t : ThreadPool} {a : Action}

/-- The call of a caller goes on in steps of its own. -/
theorem Step.callers_ne (step : Step s a t) {k : Nat} (apart : a ≠ .caller k)
    (uncalled : ∀ call, a ≠ .call k call) : t.callers k = s.callers k := by
  cases step with
  | worker i t step => rw [step.callers]
  | push => rfl
  | call j call =>
      have other : k ≠ j := fun same => uncalled call (same ▸ rfl)
      exact setCaller_ne _ _ other
  | caller j op u op' called step =>
      have other : k ≠ j := fun same => apart (same ▸ rfl)
      rw [setCaller_ne _ _ other, step.callers]

theorem beginCall_not_joining (s : ThreadPool) (call : Call) {loop : Loop} {i : Nat}
    {left : List Nat} : s.beginCall call ≠ .joining loop i left := by
  cases call <;> nofun

/-- A worker is joined only behind its `halting`. -/
theorem CallerStep.from_halting {j : Nat} {op : Operation} {loop : Loop} {i : Nat}
    {left : List Nat} {op' : Option Operation} (step : CallerStep s j op t op')
    (joining : op' = some (.joining loop i left)) : op = .halting loop i left := by
  cases step with
  | pushes p u p' step => cases p' <;> cases joining
  | halts =>
      cases joining
      rfl
  | removeBody priority removed i left priorities next either =>
      rw [Option.some.inj joining] at either
      rcases either with halting | goes
      · cases halting
      · cases goes
  | _ => cases joining

/-- A job that a worker has is one that it had, or one of its priorities. -/
theorem Step.job (step : Step s a t) {k : Nat} {job : Job}
    (has : (t.workers k).phase.job = some job) :
    (s.workers k).phase.job = some job ∨ job.priority ∈ (s.workers k).priorities := by
  have other : ∀ {u : ThreadPool}, u.workers k = s.workers k ∨
      (s.workers k).locked = false ∧ u.workers k = (s.workers k).notify →
      (u.workers k).phase.job = some job → (s.workers k).phase.job = some job := by
    intro u either has
    rcases either with same | ⟨_, same⟩
    · rwa [same] at has
    · rwa [same, ThreadWorker.notify, Phase.notify_job] at has
  cases step with
  | worker i t step =>
      by_cases here : k = i
      · subst k
        cases step with
        | moved phase quiet before remains idle jobless =>
            rw [setPhase_self] at has
            cases jobless.symm.trans has
        | pops job' jobPool popping popped =>
            rw [setPhase_self] at has
            cases has
            exact .inr (JobPool.pop_mem popped).1
        | works job' popped =>
            rw [setPhase_self] at has
            cases has
            exact .inl (by rw [popped]; rfl)
        | pushes job' p u p' running =>
            rw [setPhase_self] at has
            cases has
            exact .inl (by rw [running]; rfl)
        | exits leaving =>
            rw [setWorker_self] at has
            cases has
        | _ =>
            rw [setPhase_self] at has
            cases has
      · exact .inl (other (step.other here) has)
  | push i priority job' running =>
      by_cases here : k = i
      · subst k
        rw [setPhase_self] at has
        cases has
        exact .inl (by rw [running]; rfl)
      · rw [setPhase_ne _ _ here] at has
        exact .inl has
  | call j call idle => exact .inl has
  | caller j op u op' called step =>
      exact .inl ((step.phases Phase.job Phase.notify_job k).symm.trans has)

/-- A running job goes on, but for the return of its `work`. -/
theorem Step.running (step : Step s a t) {k : Nat} {job : Job} {push : Option Push}
    (running : (s.workers k).phase = .running job push) (inside : a = .worker k → push ≠ none) :
    ∃ push', (t.workers k).phase = .running job push' := by
  have kept : ∀ {phase : Phase}, phase = (s.workers k).phase ∨ phase = (s.workers k).phase.notify →
      ∃ push', phase = .running job push' := by
    intro phase either
    rw [running] at either
    exact ⟨push, either.elim id id⟩
  cases step with
  | worker i t step =>
      by_cases here : k = i
      · subst k
        cases step with
        | moved phase quiet before remains idle =>
            rw [running] at idle
            exact absurd idle (inside rfl)
        | pushes job' p u p' running' =>
            rw [running] at running'
            cases running'
            exact ⟨p', by rw [setPhase_self]⟩
        | starts stop test => cases running.symm.trans test
        | counts priority left count counting => cases running.symm.trans counting
        | drained counting => cases running.symm.trans counting
        | pops job' jobPool popping => cases running.symm.trans popping
        | breaks nothing => cases running.symm.trans nothing
        | works job' popped => cases running.symm.trans popped
        | exits leaving => cases running.symm.trans leaving
      · rcases step.other here with same | ⟨_, same⟩
        · exact kept (.inl (by rw [same]))
        · exact kept (.inr (by rw [same]; rfl))
  | push i priority job' running' =>
      by_cases here : k = i
      · subst k
        rw [running] at running'
        cases running'
        exact ⟨some (.test priority), by rw [setPhase_self]⟩
      · exact kept (.inl (by rw [setPhase_ne _ _ here]))
  | call j call idle => exact kept (.inl rfl)
  | caller j op u op' called step =>
      exact ⟨push, (step.phase_iff (by simp) k).mpr running⟩

/-- Lists of priorities only get shorter. -/
theorem Step.priorities (step : Step s a t) (k : Nat) :
    (t.workers k).priorities ⊆ (s.workers k).priorities := by
  have kept : ∀ {u : ThreadPool} {i : Nat} {w : ThreadWorker},
      w.priorities = (u.workers i).priorities →
      ((u.setWorker i w).workers k).priorities ⊆ (u.workers k).priorities := by
    intro u i w same
    rw [setWorker_keeps ThreadWorker.priorities same]
    exact List.Subset.refl _
  cases step with
  | worker i t step =>
      cases step with
      | pushes job p u p' running step =>
          have pushed := step.workers ThreadWorker.priorities (fun _ => rfl) k
          exact fun priority member => pushed ▸ kept (by rfl) member
      | _ => exact kept (by rfl)
  | push i priority job running => exact kept (by rfl)
  | call j call idle => exact List.Subset.refl _
  | caller j op u op' called step =>
      rw [setCaller_workers]
      cases step with
      | pushes p t p' step =>
          rw [step.workers ThreadWorker.priorities fun _ => rfl]
          exact List.Subset.refl _
      | removeBody priority removed i left priorities next either free fewer =>
          by_cases here : k = i
          · rw [here, setWorker_self]
            exact fewer
          · rw [setWorker_ne _ _ here]
            exact List.Subset.refl _
      | paused flag i left => exact kept (by rfl)
      | halts loop i left => exact kept (by rfl)
      | joins loop i left => exact kept (by rfl)
      | _ => exact List.Subset.refl _

end

end ThreadPool
end CppToolkit.Thread
