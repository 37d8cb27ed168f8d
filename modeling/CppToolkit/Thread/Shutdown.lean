import CppToolkit.Thread.Ownership

/-! When `stop` and `remove_workers` can be called beside jobs that push: the caller that
joins a worker holds the mutex which the job of that worker may be waiting for. -/
namespace CppToolkit.Thread
open Machine

/-- Behind the test of the lock and still without the mutex of the pool. -/
def Push.past : Push → Bool
  | .insert _ => true
  | .waiting _ => true
  | _ => false

/-- Inside `stop`, behind `lock(true)` and before `lock(false)`. -/
def Operation.locks : Operation → Bool
  | .stopLocked _ _ => true
  | .next (.stop _) _ => true
  | .halting (.stop _) _ _ => true
  | .joining (.stop _) _ _ => true
  | _ => false

theorem Operation.locks_holds {op : Operation} (locks : op.locks = true) : op.holds = true := by
  cases op with
  | stopLocked => rfl
  | next => rfl
  | halting => rfl
  | joining => rfl
  | _ => cases locks

namespace ThreadPool

/-- A caller holds the mutex and joins a worker whose job waits for it. -/
def Deadlocked (s : ThreadPool) : Prop :=
  ∃ j loop i left job, s.callers j = some (.joining loop i left) ∧
    s.mutex = some (.caller j) ∧ (s.workers i).phase.push = some (.waiting job)

/-- A join begins only while the job of the worker is not past the test of a push, and no
job passes that test while `remove_workers` joins its worker. -/
def Apart (s : ThreadPool) : Action → Prop
  | .caller j =>
      match s.callers j with
      | some (.halting _ i _) =>
          (s.workers i).thread = true → (s.workers i).phase.push.any Push.past = false
      | _ => True
  | .worker i =>
      match (s.workers i).phase.push with
      | some (.test _) => s.jobPool.lockCondition = false →
          ∀ j priority removed left, s.callers j ≠ some (.joining (.remove priority removed) i left)
      | _ => True
  | _ => True

structure Guarded (s : ThreadPool) : Prop where
  owned : s.Owned
  locked : ∀ j op, s.callers j = some op → op.locks = true → s.jobPool.lockCondition = true
  joined : ∀ j loop i left, s.callers j = some (.joining loop i left) →
    (s.workers i).phase.push.any Push.past = false

theorem started_guarded (priorities : List (List JobPriorities)) :
    (started priorities).Guarded where
  owned := started_owned priorities
  locked := fun _ _ called => by cases called
  joined := fun _ _ _ _ called => by cases called

theorem PushStep.lockCondition {s t : ThreadPool} {me : Owner} {p : Push} {p' : Option Push}
    (step : PushStep s me p t p') : t.jobPool.lockCondition = s.jobPool.lockCondition := by
  cases step <;> rfl

theorem WorkerStep.lockCondition {s t : ThreadPool} {i : Nat} (step : WorkerStep s i t) :
    t.jobPool.lockCondition = s.jobPool.lockCondition := by
  cases step with
  | pops job jobPool popping popped => exact JobPool.pop_lockCondition popped
  | pushes job p u p' running step => exact step.lockCondition
  | _ => rfl

/-- Only the end of `stop` clears the lock. -/
theorem CallerStep.lockCondition {s t : ThreadPool} {j : Nat} {op : Operation}
    {op' : Option Operation} (step : CallerStep s j op t op')
    (locked : s.jobPool.lockCondition = true) :
    t.jobPool.lockCondition = true ∨ (op.holds = true ∧ op'.any Operation.locks = false) := by
  cases step with
  | pushes p t p' step => exact .inl (step.lockCondition.trans locked)
  | locks => exact .inl rfl
  | stopEnds before => exact .inr ⟨rfl, rfl⟩
  | _ => exact .inl locked

/-- A call is inside `stop` only behind `lock(true)`. -/
theorem CallerStep.inside {s t : ThreadPool} {j : Nat} {op : Operation} {op' : Option Operation}
    (step : CallerStep s j op t op') (locks : op'.any Operation.locks = true) :
    t.jobPool.lockCondition = true ∨
      (op.locks = true ∧ t.jobPool.lockCondition = s.jobPool.lockCondition) := by
  cases step with
  | pushes p t p' step =>
      cases p' <;> cases locks
  | locks => exact .inl rfl
  | loops before => exact .inr ⟨rfl, rfl⟩
  | clearsAll before => exact .inr ⟨rfl, rfl⟩
  | stopBody before i left => exact .inr ⟨rfl, rfl⟩
  | removeBody priority removed i left priorities next either =>
      rcases either with rfl | rfl <;> cases locks
  | halts loop i left =>
      cases loop with
      | stop before => exact .inr ⟨rfl, rfl⟩
      | remove priority removed => cases locks
  | joins loop i left =>
      cases loop with
      | stop before => exact .inr ⟨rfl, rfl⟩
      | remove priority removed => cases locks
  | _ => cases locks

theorem locked_step {s t : ThreadPool} {a : Action} (guarded : s.Guarded) (step : Step s a t)
    (k : Nat) (op : Operation) (called : t.callers k = some op) (locks : op.locks = true) :
    t.jobPool.lockCondition = true := by
  cases step with
  | worker i t step =>
      rw [step.lockCondition]
      refine guarded.locked k op ?_ locks
      cases step with
      | pushes job p u p' running step => exact step.callers ▸ called
      | _ => exact called
  | push i priority job => exact guarded.locked k op called locks
  | call j call =>
      by_cases me : k = j
      · rw [me, setCaller_self] at called
        cases called
        cases call <;> cases locks
      · rw [setCaller_ne _ _ me] at called
        exact guarded.locked k op called locks
  | caller j op₁ u op₂ called₁ step =>
      by_cases me : k = j
      · rw [me, setCaller_self] at called
        rcases step.inside (by rw [called]; exact locks) with now | ⟨was, same⟩
        · exact now
        · exact same.trans (guarded.locked j op₁ called₁ was)
      · rw [setCaller_ne _ _ me, step.callers] at called
        rcases step.lockCondition (guarded.locked k op called locks) with now | ⟨held, _⟩
        · exact now
        · have mine := guarded.owned (.caller j) (by rw [holds, called₁]; exact held)
          have other := guarded.owned (.caller k)
            (by rw [holds, called]; exact Operation.locks_holds locks)
          cases mine.symm.trans other
          exact absurd rfl me

/-- A push is past the test only behind an unlocked test or if it was before. -/
theorem PushStep.past {s t : ThreadPool} {me : Owner} {p : Push} {p' : Option Push}
    (step : PushStep s me p t p') (past : p'.any Push.past = true) :
    p.past = true ∨ ∃ priority, p = .test priority ∧ s.jobPool.lockCondition = false := by
  cases step with
  | tested priority unlocked => exact .inr ⟨priority, rfl, unlocked⟩
  | inserted priority => exact .inl rfl
  | _ => cases past

/-- A join begins at `halting`. -/
theorem CallerStep.joining {s t : ThreadPool} {j : Nat} {op : Operation} {loop : Loop} {i : Nat}
    {left : List Nat} (step : CallerStep s j op t (some (.joining loop i left))) :
    op = .halting loop i left ∧ (s.workers i).thread = true := by
  generalize same : some (Operation.joining loop i left) = op' at step
  cases step with
  | pushes p t p' step => cases p' <;> cases same
  | removeBody priority removed i left priorities next either =>
      rcases either with rfl | rfl <;> cases same
  | halts loop i left present =>
      cases same
      exact ⟨rfl, present⟩
  | _ => cases same

theorem joined_step {s t : ThreadPool} {a : Action} (guarded : s.Guarded) (apart : s.Apart a)
    (step : Step s a t) (j : Nat) (loop : Loop) (i : Nat) (left : List Nat)
    (joining : t.callers j = some (.joining loop i left)) :
    (t.workers i).phase.push.any Push.past = false := by
  cases step with
  | worker k t step =>
      have same : t.callers = s.callers := by
        cases step with
        | pushes job p u p' running step => exact step.callers
        | _ => rfl
      rw [same] at joining
      have before := guarded.joined j loop i left joining
      by_cases me : i = k
      · subst me
        cases step with
        | pushes job p u p' running step =>
            rw [setPhase_self]
            apply eq_false_of_ne_true
            intro past
            have pushing : (s.workers i).phase.push = some p := by rw [running]; rfl
            rcases step.past past with was | ⟨priority, rfl, unlocked⟩
            · rw [pushing, Option.any_some, was] at before
              cases before
            · cases loop with
              | stop jobs =>
                  cases unlocked.symm.trans (guarded.locked j _ joining rfl)
              | remove priority' removed =>
                  simp only [Apart, pushing] at apart
                  exact apart unlocked j priority' removed left joining
        | moved phase quiet => rw [setPhase_self, Phase.quiet_push quiet]; rfl
        | exits => rw [setWorker_self]; rfl
        | _ => rw [setPhase_self]; rfl
      · cases step with
        | pushes job p u p' running step =>
            rw [setPhase_ne _ _ me, step.workers (fun w => w.phase.push) fun w => Phase.notify_push _]
            exact before
        | exits => rwa [setWorker_ne _ _ me]
        | _ => rwa [setPhase_ne _ _ me]
  | push k priority job running =>
      by_cases me : i = k
      · rw [me, setPhase_self]
        rfl
      · rw [setPhase_ne _ _ me]
        exact guarded.joined j loop i left joining
  | call k call =>
      by_cases me : j = k
      · rw [me, setCaller_self] at joining
        cases call <;> cases joining
      · rw [setCaller_ne _ _ me] at joining
        exact guarded.joined j loop i left joining
  | caller k op u op' called step =>
      rw [setCaller_workers, step.phases _ Phase.notify_push]
      by_cases me : j = k
      · rw [me, setCaller_self] at joining
        subst joining
        obtain ⟨rfl, present⟩ := step.joining
        simp only [Apart, called] at apart
        exact apart present
      · rw [setCaller_ne _ _ me, step.callers] at joining
        exact guarded.joined j loop i left joining

theorem guarded_step {s t : ThreadPool} {a : Action} (guarded : s.Guarded) (apart : s.Apart a)
    (stepped : step s a = some t) : t.Guarded where
  owned := owned_step guarded.owned stepped
  locked := locked_step guarded (step_inv stepped)
  joined := joined_step guarded apart (step_inv stepped)

/-- While joins and pushes keep apart, no state that a run reaches is deadlocked. -/
theorem never_deadlocked {priorities : List (List JobPriorities)} {actions : List Action}
    {s : ThreadPool} (ran : run step (started priorities) actions = some s)
    (along : Along step Apart (started priorities) actions) : ¬ s.Deadlocked := by
  have guarded : s.Guarded := run_invariant
    (fun _ _ _ guarded apart stepped => guarded_step guarded apart stepped)
    (started_guarded priorities) along ran
  rintro ⟨j, loop, i, left, job, joining, mutex, waiting⟩
  have free := guarded.joined j loop i left joining
  rw [waiting] at free
  cases free

/-- A worker takes a job; `stop` joins it, and the push of the job is refused. -/
def refusedPush : List Action :=
  [.call 0 (.push .high), .caller 0, .caller 0, .caller 0, .caller 0, .caller 0, .worker 0,
    .worker 0, .worker 0, .worker 0, .worker 0, .worker 0, .worker 0, .worker 0,
    .call 0 (.stop false), .caller 0, .caller 0, .caller 0, .caller 0, .caller 0, .push 0 .low,
    .worker 0]

theorem never_deadlocked_refused :
    ∃ s, run step (started [[.high]]) refusedPush = some s ∧
      s.callers 0 = some (.joining (.stop [⟨0, .high⟩]) 0 []) ∧ ¬ s.Deadlocked := by
  refine ⟨_, rfl, rfl, @never_deadlocked [[.high]] refusedPush _ rfl ?_⟩
  iterate 19 refine .cons rfl trivial ?_
  refine .cons rfl (fun _ => rfl) (.cons rfl trivial (.cons rfl ?_ trivial))
  intro unlocked
  cases unlocked

/-- The push is past the test when `stop` takes the mutex. -/
def crossedPush : List Action :=
  [.call 0 (.push .high), .caller 0, .caller 0, .caller 0, .caller 0, .caller 0, .worker 0,
    .worker 0, .worker 0, .worker 0, .worker 0, .worker 0, .worker 0, .worker 0, .push 0 .low,
    .worker 0, .call 0 (.stop false), .caller 0, .caller 0, .caller 0, .caller 0, .caller 0,
    .worker 0]

theorem crossed_push_deadlocks :
    ¬ ∀ priorities actions s, run step (started priorities) actions = some s → ¬ s.Deadlocked := by
  intro never
  have reached : ∃ s, run step (started [[.high]]) crossedPush = some s ∧ s.Deadlocked :=
    ⟨_, rfl, 0, .stop [⟨0, .high⟩], 0, [], ⟨1, .low⟩, rfl, rfl, rfl⟩
  obtain ⟨s, ran, deadlocked⟩ := reached
  exact never [[.high]] crossedPush s ran deadlocked

end ThreadPool
end CppToolkit.Thread
