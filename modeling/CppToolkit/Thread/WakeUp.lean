import CppToolkit.Thread.Ownership

/-! No wake-up is missed. A worker that has seen a queue empty keeps its mutex until it
blocks, and a push notifies it under that mutex after it has inserted its job. -/
namespace CppToolkit.Thread
open Machine

/-- The thread is blocked without a wake-up, or is about to block unless it counts a job. -/
def Phase.waits : Phase → Bool
  | .counting _ _ => true
  | .blocked notified => !notified
  | _ => false

theorem Phase.notify_waits {phase : Phase} (free : phase.locked = false) :
    phase.notify.waits = false := by
  cases phase with
  | counting left count => cases free
  | _ => rfl

/-- A push that has inserted a job of this priority and has still to notify the worker. -/
def Push.Covers (target : JobPriorities) (worker : Nat) : Push → Prop
  | .waiting job => job.priority = target
  | .notifying job left => job.priority = target ∧ worker ∈ left
  | _ => False

/-- The worker lists this priority and has seen its queue empty. -/
def ThreadWorker.Relies (w : ThreadWorker) (target : JobPriorities) : Prop :=
  target ∈ w.priorities ∧
    match w.phase with
    | .counting left count => count = 0 ∧ target ∉ left
    | .blocked notified => notified = false ∧ w.pause = false
    | _ => False

theorem ThreadWorker.Relies.waits {w : ThreadWorker} {target : JobPriorities}
    (relies : w.Relies target) : w.phase.waits = true := by
  unfold Relies at relies
  split at relies
  next left count counting =>
    rw [counting]
    rfl
  next notified blocked =>
    rw [blocked, relies.2.1]
    rfl
  next => exact relies.2.elim

/-- The workers that the predicate of `remove_if` has dropped so far. -/
def Loop.dropped : Loop → List Nat
  | .stop _ => []
  | .remove _ removed => removed

def Operation.dropped : Operation → List Nat
  | .next loop _ => loop.dropped
  | .halting loop _ _ => loop.dropped
  | .joining loop _ _ => loop.dropped
  | _ => []

namespace ThreadPool

def Pending (s : ThreadPool) (target : JobPriorities) (i : Nat) : Prop :=
  ∃ owner push, s.operation owner = some (.push push) ∧ push.Covers target i

/-- A worker whose thread runs is known to every push, a stopped one has been told, and
one that relies on an empty queue is right or will be notified. -/
structure Awake (s : ThreadPool) : Prop where
  inside : ∀ i, (s.workers i).phase ≠ .exited →
    (s.workers i).thread = true ∧ i ∈ s.threadWorkers
  dropped : ∀ j op, s.callers j = some op → ∀ i ∈ op.dropped, (s.workers i).phase = .exited
  told : ∀ i, (s.workers i).phase.waits = true → (s.workers i).threadStop = false
  covered : ∀ i target, (s.workers i).Relies target → s.jobPool.jobQueues target ≠ [] →
    s.Pending target i

theorem started_awake (priorities : List (List JobPriorities)) : (started priorities).Awake := by
  refine ⟨?_, (fun _ _ called => nomatch called), ?_, fun _ _ _ queued => absurd rfl queued⟩
  · intro i live
    rcases started_worker priorities i with ⟨member, list, is⟩ | ⟨_, is⟩
    · rw [is]
      exact ⟨rfl, member⟩
    · rw [is] at live
      exact absurd rfl live
  · intro i waits
    rcases started_worker priorities i with ⟨_, list, is⟩ | ⟨_, is⟩
    · rw [is]
      rfl
    · rw [is]
      rfl

section
variable {s t : ThreadPool}

/-- A worker that waits after the step of a worker waited before it, or has just begun to
count, or has been paused before it blocks. -/
theorem workerStep_waits {i : Nat} (stepped : s.workerStep i = some t)
    (waits : (t.workers i).phase.waits = true) :
    ((t.workers i).threadStop = (s.workers i).threadStop ∧
      ((s.workers i).threadStop = false ∨ (s.workers i).phase.waits = true)) ∧
    ∀ target, (t.workers i).Relies target →
      s.jobPool.jobQueues target = [] ∨ (s.workers i).Relies target := by
  have still : ∀ {u : ThreadPool} {phase : Phase}, phase.waits = false →
      some (u.setPhase i phase) = some t → False := by
    intro u phase quiet same
    cases same
    rw [setPhase_self] at waits
    cases quiet.symm.trans waits
  unfold workerStep at stepped
  dsimp only at stepped
  split at stepped
  next => exact (still rfl stepped).elim
  next checking =>
    split at stepped
    next => exact (still rfl stepped).elim
    next stop =>
      have running : (s.workers i).threadStop = false := eq_false_of_ne_true stop
      split at stepped
      next pause =>
        cases stepped
        rw [setPhase_self]
        refine ⟨⟨rfl, .inl running⟩, ?_⟩
        intro target relies
        cases pause.symm.trans relies.2.2
      next =>
        cases stepped
        rw [setPhase_self]
        refine ⟨⟨rfl, .inl running⟩, ?_⟩
        intro target relies
        have listed : target ∈ (s.workers i).priorities := relies.1
        have counted : target ∉ ((s.workers i).hasJob s.jobPool).1 := relies.2.2
        unfold ThreadWorker.hasJob at counted
        split at counted
        next empty =>
          rw [empty] at listed
          cases listed
        next => exact absurd listed counted
  next priority left count counting =>
    cases stepped
    rw [setPhase_self]
    refine ⟨⟨rfl, .inr (by rw [counting]; rfl)⟩, ?_⟩
    intro target relies
    have zero : count + s.jobPool.countOf priority = 0 := relies.2.1
    have uncounted : target ∉ left := relies.2.2
    by_cases same : target = priority
    · left
      rw [same]
      exact List.eq_nil_of_length_eq_zero (Nat.add_eq_zero_iff.mp zero).2
    · right
      refine ⟨relies.1, ?_⟩
      rw [counting]
      exact ⟨(Nat.add_eq_zero_iff.mp zero).1, List.not_mem_cons_of_ne_of_not_mem same uncounted⟩
  next count counting =>
    split at stepped
    next => exact (still rfl stepped).elim
    next none_ =>
      cases stepped
      rw [setPhase_self]
      refine ⟨⟨rfl, .inr (by rw [counting]; rfl)⟩, ?_⟩
      intro target relies
      right
      refine ⟨relies.1, ?_⟩
      rw [counting]
      exact ⟨Nat.eq_zero_of_not_pos none_, List.not_mem_nil⟩
  next => exact (still rfl stepped).elim
  next => split at stepped <;> exact (still rfl stepped).elim
  next => exact (still rfl stepped).elim
  next => split at stepped <;> exact (still rfl stepped).elim
  next => split at stepped <;> exact (still rfl stepped).elim
  next => split at stepped <;> exact (still rfl stepped).elim
  next => split at stepped <;> exact (still rfl stepped).elim
  next => exact (still rfl stepped).elim
  next => exact (still rfl stepped).elim
  next =>
    obtain ⟨_, _, same⟩ := Option.map_eq_some_iff.mp stepped
    exact (still rfl (congrArg some same)).elim
  next =>
    cases stepped
    rw [setWorker_self] at waits
    cases waits
  next => cases stepped

/-- A notified worker does not wait. -/
theorem notified_waits {w w' : ThreadWorker}
    (same : w' = w ∨ w.locked = false ∧ w' = w.notify) (waits : w'.phase.waits = true) : w' = w := by
  rcases same with same | ⟨free, same⟩
  · exact same
  · rw [same] at waits
    cases (Phase.notify_waits free).symm.trans waits

/-- A caller leaves a waiting worker alone, except for its list of priorities. -/
theorem CallerStep.waiting {j k : Nat} {op : Operation} {op' : Option Operation}
    (step : CallerStep s j op t op') (waits : (t.workers k).phase.waits = true) :
    ∃ priorities, priorities ⊆ (s.workers k).priorities ∧
      t.workers k = (s.workers k).setPriorities priorities := by
  have same : ∀ {w : ThreadWorker}, w = s.workers k → ∃ priorities,
      priorities ⊆ (s.workers k).priorities ∧ w = (s.workers k).setPriorities priorities := by
    intro w equal
    exact ⟨(s.workers k).priorities, List.Subset.refl _, equal⟩
  have other : ∀ {i : Nat} {w : ThreadWorker}, w.phase.waits = false →
      ((s.setWorker i w).workers k).phase.waits = true →
      (s.setWorker i w).workers k = s.workers k := by
    intro i w quiet waits
    by_cases here : k = i
    · rw [here, setWorker_self] at waits
      cases quiet.symm.trans waits
    · exact setWorker_ne s w here
  cases step with
  | pushes p t p' step => exact same (notified_waits (step.worker k) waits)
  | paused flag i left free => exact same (other (Phase.notify_waits free) waits)
  | halts loop i left present free => exact same (other (Phase.notify_waits free) waits)
  | joins loop i left exited =>
      refine same (other ?_ waits)
      rw [exited]
      rfl
  | removeBody priority removed i left priorities next either free fewer =>
      by_cases here : k = i
      · rw [here, setWorker_self]
        exact ⟨priorities, fewer, rfl⟩
      · exact same (setWorker_ne s _ here)
  | _ => exact same rfl

theorem Step.told {a : Action} (told : ∀ i, (s.workers i).phase.waits = true →
    (s.workers i).threadStop = false) (stepped : s.step a = some t) (k : Nat)
    (waits : (t.workers k).phase.waits = true) : (t.workers k).threadStop = false := by
  cases step_inv stepped with
  | worker i t step =>
      by_cases here : k = i
      · subst k
        obtain ⟨⟨same, before⟩, _⟩ := workerStep_waits stepped waits
        rw [same]
        exact before.elim id (told i)
      · have same := notified_waits (step.other here) waits
        rw [same] at waits ⊢
        exact told k waits
  | push i priority job running =>
      by_cases here : k = i
      · rw [here, setPhase_self] at waits
        cases waits
      · rw [setPhase_ne _ _ here] at waits ⊢
        exact told k waits
  | call j call idle => exact told k waits
  | caller j op u op' called step =>
      obtain ⟨priorities, _, same⟩ := step.waiting (k := k) waits
      change (u.workers k).phase.waits = true at waits
      change (u.workers k).threadStop = false
      rw [same] at waits ⊢
      exact told k waits

/-- A thread that has exited stays so. -/
theorem Step.exited {a : Action} (step : Step s a t) {k : Nat}
    (exited : (s.workers k).phase = .exited) : (t.workers k).phase = .exited := by
  cases step with
  | worker i t step =>
      have other : k ≠ i := by
        intro here
        exact step.live (here ▸ exited)
      rcases step.other other with same | ⟨_, same⟩
      · rw [same, exited]
      · rw [same, ThreadWorker.notify, exited]
        rfl
  | push i priority job running =>
      have other : k ≠ i := by
        intro here
        rw [← here, exited] at running
        cases running
      rw [setPhase_ne _ _ other, exited]
  | call j call idle => exact exited
  | caller j op u op' called step => exact (step.phase_iff (by simp) k).mpr exited

/-- Only the thread of a worker that has exited is reset. -/
theorem Step.thread {a : Action} (step : Step s a t) {k : Nat}
    (live : (s.workers k).phase ≠ .exited) : (t.workers k).thread = (s.workers k).thread := by
  cases step with
  | worker i t step =>
      cases step with
      | pushes job p u p' running step =>
          exact (setWorker_keeps ThreadWorker.thread (by rfl) k).trans
            (step.workers ThreadWorker.thread (fun _ => rfl) k)
      | _ => exact setWorker_keeps ThreadWorker.thread (by rfl) k
  | push i priority job running => exact setWorker_keeps ThreadWorker.thread (by rfl) k
  | call j call idle => rfl
  | caller j op u op' called step =>
      rw [setCaller_workers]
      cases step with
      | pushes p t p' step => exact step.workers ThreadWorker.thread (fun _ => rfl) k
      | paused flag i left => exact setWorker_keeps ThreadWorker.thread (by rfl) k
      | removeBody priority removed i left => exact setWorker_keeps ThreadWorker.thread (by rfl) k
      | halts loop i left => exact setWorker_keeps ThreadWorker.thread (by rfl) k
      | joins loop i left exited =>
          have other : k ≠ i := by
            intro here
            exact live (here ▸ exited)
          rw [setWorker_ne _ _ other]
      | _ => rfl

/-- The list of workers only loses workers that `remove_if` has dropped. -/
theorem Step.listed {a : Action} (step : Step s a t) {k : Nat} (member : k ∈ s.threadWorkers)
    (kept : ∀ j op, s.callers j = some op → k ∉ op.dropped) : k ∈ t.threadWorkers := by
  cases step with
  | worker i t step => rwa [step.threadWorkers]
  | push i priority job running => exact member
  | call j call idle => exact member
  | caller j op u op' called step =>
      cases step with
      | pushes p t p' step => cases step <;> exact member
      | removeEnds priority removed threadWorkers removals keeps =>
          exact keeps k member (kept j _ called)
      | _ => exact member

/-- What a step of a caller adds to its dropped workers. -/
theorem CallerStep.dropped {j : Nat} {op rest : Operation} {op' : Option Operation}
    (step : CallerStep s j op t op') (next : op' = some rest) {k : Nat}
    (member : k ∈ rest.dropped) :
    k ∈ op.dropped ∨ (s.workers k).phase = .exited ∨ (s.workers k).thread = false := by
  cases step with
  | pushes p t p' step =>
      cases p' with
      | none => cases next
      | some p' =>
          cases next
          cases member
  | removeBody priority removed i left priorities next' either =>
      cases next
      rcases either with rfl | rfl <;> exact .inl member
  | removeSkips priority removed i left absent =>
      cases next
      rcases List.mem_append.mp member with old | new
      · exact .inl old
      · rw [List.mem_singleton.mp new]
        exact .inr (.inr absent)
  | halts loop i left =>
      cases next
      exact .inl member
  | joins loop i left exited =>
      cases next
      cases loop with
      | stop before => cases member
      | remove priority removed =>
          rcases List.mem_append.mp member with old | new
          · exact .inl old
          · rw [List.mem_singleton.mp new]
            exact .inr (.inl exited)
  | _ => cases next <;> cases member

/-- A push that covers a worker goes on to cover it until the worker has been notified. -/
theorem PushStep.covers {me : Owner} {p : Push} {p' : Option Push} (step : PushStep s me p t p')
    {target : JobPriorities} {i : Nat} (covers : p.Covers target i) (member : i ∈ s.threadWorkers)
    (wants : (s.workers i).wants target) (waits : (t.workers i).phase.waits = true) :
    ∃ rest, p' = some rest ∧ rest.Covers target i := by
  cases step with
  | acquired job free => exact ⟨_, rfl, covers, member⟩
  | skipped job k left unwanted =>
      refine ⟨_, rfl, covers.1, (List.mem_cons.mp covers.2).resolve_left ?_⟩
      intro here
      rw [← here, covers.1] at unwanted
      exact unwanted wants
  | notified job k left free =>
      refine ⟨_, rfl, covers.1, (List.mem_cons.mp covers.2).resolve_left ?_⟩
      intro here
      rw [here, setWorker_self] at waits
      cases (Phase.notify_waits free).symm.trans waits
  | returned job => cases covers.2
  | _ => exact covers.elim

/-- A queue that is no longer empty got a job whose push has still to notify. -/
theorem PushStep.queued {me : Owner} {p : Push} {p' : Option Push} (step : PushStep s me p t p')
    {target : JobPriorities} (queued : t.jobPool.jobQueues target ≠ []) (i : Nat) :
    s.jobPool.jobQueues target ≠ [] ∨ ∃ rest, p' = some rest ∧ rest.Covers target i := by
  cases step with
  | inserted priority =>
      rcases JobPool.insert_nonempty queued with same | before
      · exact .inr ⟨_, rfl, same.symm⟩
      · exact .inl before
  | _ => exact .inl queued

theorem CallerStep.queued {j : Nat} {op : Operation} {op' : Option Operation}
    (step : CallerStep s j op t op') {target : JobPriorities}
    (queued : t.jobPool.jobQueues target ≠ []) (i : Nat) :
    s.jobPool.jobQueues target ≠ [] ∨
      ∃ rest, op' = some (.push rest) ∧ rest.Covers target i := by
  cases step with
  | pushes p t p' step =>
      rcases step.queued queued i with before | ⟨rest, is, covers⟩
      · exact .inl before
      · exact .inr ⟨rest, by rw [is]; rfl, covers⟩
  | clearsAll before => exact absurd rfl queued
  | clears priority =>
      left
      intro empty
      by_cases same : target = priority
      · rw [same] at queued
        exact queued (JobPool.setQueue_self _ _ _)
      · exact queued ((JobPool.setQueue_ne _ _ same).trans empty)
  | _ => exact .inl queued

theorem Step.queued {a : Action} (step : Step s a t) {target : JobPriorities}
    (queued : t.jobPool.jobQueues target ≠ []) (i : Nat) :
    s.jobPool.jobQueues target ≠ [] ∨ t.Pending target i := by
  cases step with
  | worker k t step =>
      cases step with
      | pops job jobPool popping popped => exact .inl (JobPool.pop_nonempty popped queued)
      | pushes job p u p' running step =>
          rcases step.queued queued i with before | ⟨rest, is, covers⟩
          · exact .inl before
          · subst is
            exact .inr ⟨.worker k, rest, operation_running u k job _, covers⟩
      | _ => exact .inl queued
  | push k priority job running => exact .inl queued
  | call j call idle => exact .inl queued
  | caller j op u op' called step =>
      rcases step.queued queued i with before | ⟨rest, is, covers⟩
      · exact .inl before
      · subst is
        exact .inr ⟨.caller j, rest, operation_setCaller u j _, covers⟩

/-- A worker that relies on an empty queue stays covered. -/
theorem Step.pending {a : Action} (step : Step s a t) {target : JobPriorities} {i : Nat}
    (pending : s.Pending target i) (member : i ∈ s.threadWorkers)
    (wants : (s.workers i).wants target) (waits : (t.workers i).phase.waits = true) :
    t.Pending target i := by
  obtain ⟨owner, push, called, covers⟩ := pending
  by_cases mine : owner = a.owner
  · subst mine
    cases step with
    | worker k t step =>
        obtain ⟨p, pushing, same⟩ := Option.map_eq_some_iff.mp called
        cases same
        cases step with
        | pushes job p' u rest running step =>
            rw [running] at pushing
            cases pushing
            have still : (u.workers i).phase.waits = true := by
              by_cases here : i = k
              · rw [here, setPhase_self] at waits
                cases waits
              · rwa [setPhase_ne _ _ here] at waits
            obtain ⟨rest, rfl, covers⟩ := step.covers covers member wants still
            exact ⟨.worker k, rest, operation_running u k job _, covers⟩
        | moved phase quiet before remains idle => cases idle.symm.trans pushing
        | starts stop test => cases (congrArg Phase.push test).symm.trans pushing
        | counts priority left count counting =>
            cases (congrArg Phase.push counting).symm.trans pushing
        | drained counting => cases (congrArg Phase.push counting).symm.trans pushing
        | pops job jobPool popping => cases (congrArg Phase.push popping).symm.trans pushing
        | breaks nothing => cases (congrArg Phase.push nothing).symm.trans pushing
        | works job popped => cases (congrArg Phase.push popped).symm.trans pushing
        | exits leaving => cases (congrArg Phase.push leaving).symm.trans pushing
    | push k priority job running =>
        obtain ⟨p, pushing, same⟩ := Option.map_eq_some_iff.mp called
        rw [running] at pushing
        cases pushing
    | call j call idle => cases idle.symm.trans called
    | caller j op u op' called' step =>
        cases called'.symm.trans called
        cases step with
        | pushes p u p' step =>
            obtain ⟨rest, rfl, covers⟩ := step.covers covers member wants waits
            exact ⟨.caller j, rest, operation_setCaller u j _, covers⟩
  · exact ⟨owner, push, (step.operation mine).trans called, covers⟩

/-- A worker that relies on an empty queue after a step relied on it before, or has found
the queue empty in this step. -/
theorem Step.relies {a : Action} (stepped : s.step a = some t) {i : Nat} {target : JobPriorities}
    (relies : (t.workers i).Relies target) :
    s.jobPool.jobQueues target = [] ∨ (s.workers i).Relies target := by
  have waits := relies.waits
  cases step_inv stepped with
  | worker k t step =>
      by_cases here : i = k
      · subst i
        exact (workerStep_waits stepped waits).2 target relies
      · rw [notified_waits (step.other here) waits] at relies
        exact .inr relies
  | push k priority job running =>
      by_cases here : i = k
      · rw [here, setPhase_self] at waits
        cases waits
      · rw [setPhase_ne _ _ here] at relies
        exact .inr relies
  | call j call idle => exact .inr relies
  | caller j op u op' called step =>
      obtain ⟨priorities, fewer, same⟩ := step.waiting (k := i) waits
      rw [setCaller_workers, same] at relies
      exact .inr ⟨fewer relies.1, relies.2⟩

theorem awake_step {a : Action} (awake : s.Awake) (stepped : s.step a = some t) : t.Awake := by
  have step := step_inv stepped
  have before : ∀ {k}, (t.workers k).phase ≠ .exited → (s.workers k).phase ≠ .exited :=
    fun live exited => live (step.exited exited)
  have kept : ∀ {k}, (s.workers k).phase ≠ .exited →
      ∀ j op, s.callers j = some op → k ∉ op.dropped :=
    fun live j op called member => live (awake.dropped j op called _ member)
  refine ⟨?_, ?_, Step.told awake.told stepped, ?_⟩
  · intro k live
    obtain ⟨thread, member⟩ := awake.inside k (before live)
    exact ⟨(step.thread (before live)).trans thread, step.listed member (kept (before live))⟩
  · intro k op called i member
    by_contra live
    have stays := kept (before live)
    cases step with
    | worker i t step =>
        rw [step.callers] at called
        exact stays k op called member
    | push i priority job running => exact stays k op called member
    | call j call idle =>
        by_cases here : k = j
        · rw [here, setCaller_self] at called
          cases called
          cases call <;> cases member
        · rw [setCaller_ne _ _ here] at called
          exact stays k op called member
    | caller j op₁ u op₂ called₁ step =>
        by_cases here : k = j
        · rw [here, setCaller_self] at called
          rcases step.dropped called member with old | exited | absent
          · exact stays j op₁ called₁ old
          · exact before live exited
          · cases (awake.inside i (before live)).1.symm.trans absent
        · rw [setCaller_ne _ _ here, step.callers] at called
          exact stays k op called member
  · intro i target relies queued
    rcases step.queued queued i with was | pending
    · rcases Step.relies stepped relies with empty | relied
      · exact absurd empty was
      · have live : (s.workers i).phase ≠ .exited := by
          intro exited
          have waits := relied.waits
          rw [exited] at waits
          cases waits
        obtain ⟨thread, member⟩ := awake.inside i live
        exact step.pending (awake.covered i target relied was) member ⟨thread, relied.1⟩
          relies.waits
    · exact pending

end

/-- In every state that a run reaches, a blocked worker that nobody has woken up, that is
not paused and that lists a priority with a job is still to be notified by a push of that
priority, and no worker is blocked so once it has been told to stop. -/
theorem no_missed_wakeup {priorities : List (List JobPriorities)} {actions : List Action}
    {s : ThreadPool} (ran : run step (started priorities) actions = some s) (i : Nat)
    (blocked : (s.workers i).phase = .blocked false) :
    (s.workers i).threadStop = false ∧
      ((s.workers i).pause = false → ∀ target ∈ (s.workers i).priorities,
        s.jobPool.jobQueues target ≠ [] → s.Pending target i) := by
  have awake := run_keeps (fun _ _ _ held stepped => awake_step held stepped)
    (started_awake priorities) ran
  refine ⟨awake.told i (by rw [blocked]; rfl), ?_⟩
  intro running target listed queued
  refine awake.covered i target ⟨listed, ?_⟩ queued
  rw [blocked]
  exact ⟨rfl, running⟩

/-- The job comes in behind the count of the worker, which then blocks. -/
def countedBefore : List Action :=
  [.call 0 (.push .high), .worker 0, .worker 0, .worker 0, .caller 0, .caller 0, .worker 0]

theorem no_missed_wakeup_counted :
    ∃ s, run step (started [[.high]]) countedBefore = some s ∧
      s.jobPool.jobQueues .high = [0] ∧ s.Pending .high 0 := by
  refine ⟨_, rfl, rfl, ?_⟩
  exact (@no_missed_wakeup [[.high]] countedBefore _ rfl 0 rfl).2 rfl .high (by decide) (by decide)

end ThreadPool
end CppToolkit.Thread
