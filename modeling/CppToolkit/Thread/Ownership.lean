import CppToolkit.Library.Machine
import CppToolkit.Thread.PoolSteps

/-! Every thread in a critical section of the pool owns its mutex. -/
namespace CppToolkit.Thread

def Push.holds : Push → Bool
  | .notifying _ _ => true
  | _ => false

def Operation.holds : Operation → Bool
  | .push p => p.holds
  | .pausing _ _ => true
  | .stopTest _ _ => true
  | .stopLocked _ _ => true
  | .next _ _ => true
  | .halting _ _ _ => true
  | .joining _ _ _ => true
  | _ => false

def Action.owner : Action → Owner
  | .worker i => .worker i
  | .push i _ => .worker i
  | .call j _ => .caller j
  | .caller j => .caller j

namespace ThreadPool

/-- The call that the thread is in. -/
def operation (s : ThreadPool) : Owner → Option Operation
  | .worker i => (s.workers i).phase.push.map .push
  | .caller j => s.callers j

/-- The thread is in a critical section of the mutex of the pool. -/
def holds (s : ThreadPool) : Owner → Bool
  | .worker i => (s.workers i).phase.push.any Push.holds
  | .caller j => (s.callers j).any Operation.holds

def Owned (s : ThreadPool) : Prop := ∀ owner, s.holds owner = true → s.mutex = some owner

theorem started_owned (priorities : List (List JobPriorities)) : (started priorities).Owned := by
  intro owner held
  cases owner with
  | worker i =>
      simp only [holds] at held
      rcases started_worker priorities i with ⟨_, list, is⟩ | ⟨_, is⟩ <;>
      · rw [is] at held
        cases held
  | caller j => cases held

theorem operation_running (s : ThreadPool) (i : Nat) (job : Job) (push : Option Push) :
    (s.setPhase i (.running job push)).operation (.worker i) = push.map .push := by
  rw [operation, setPhase_self, Phase.push]

theorem operation_setCaller (s : ThreadPool) (j : Nat) (op : Option Operation) :
    (s.setCaller j op).operation (.caller j) = op := setCaller_self s j op

theorem holds_operation (s : ThreadPool) (owner : Owner) :
    s.holds owner = (s.operation owner).any Operation.holds := by
  cases owner with
  | worker i =>
      rw [holds, operation, Option.any_map]
      rfl
  | caller j => rfl

/-- A step moves only its own thread in its call. -/
theorem Step.operation {s t : ThreadPool} {a : Action} (step : Step s a t) {owner : Owner}
    (other : owner ≠ a.owner) : t.operation owner = s.operation owner := by
  have caller_ne : ∀ {j k : Nat}, Owner.caller k ≠ .caller j → k ≠ j := fun different same =>
    different (congrArg Owner.caller same)
  have worker_ne : ∀ {i k : Nat}, Owner.worker k ≠ .worker i → k ≠ i := fun different same =>
    different (congrArg Owner.worker same)
  cases step with
  | worker i t step =>
      cases owner with
      | worker k =>
          rcases step.other (worker_ne other) with same | ⟨_, same⟩
          · rw [ThreadPool.operation, same, ThreadPool.operation]
          · rw [ThreadPool.operation, same, ThreadPool.operation, ThreadWorker.notify,
              Phase.notify_push]
      | caller k => rw [ThreadPool.operation, step.callers, ThreadPool.operation]
  | push i priority job =>
      cases owner with
      | worker k => simp only [ThreadPool.operation, setPhase_ne _ _ (worker_ne other)]
      | caller k => rfl
  | call j call =>
      cases owner with
      | worker k => rfl
      | caller k => simp only [ThreadPool.operation, setCaller_ne _ _ (caller_ne other)]
  | caller j op u op' called step =>
      cases owner with
      | worker k =>
          simp only [ThreadPool.operation, setCaller_workers, step.phases _ Phase.notify_push]
      | caller k =>
          simp only [ThreadPool.operation, setCaller_ne _ _ (caller_ne other), step.callers]

theorem Step.holds {s t : ThreadPool} {a : Action} (step : Step s a t) {owner : Owner}
    (other : owner ≠ a.owner) : t.holds owner = s.holds owner := by
  rw [holds_operation, holds_operation, step.operation other]

/-- How the mutex may change in a step of `me`: not at all, or acquired, or released. -/
inductive Change (me : Owner) : Option Owner → Bool → Option Owner → Bool → Prop where
  | kept {mutex : Option Owner} {before after : Bool} (still : after = true → before = true) :
      Change me mutex before mutex after
  | acquired {before after : Bool} : Change me none before (some me) after
  | released {mutex : Option Owner} : Change me mutex true none false

theorem PushStep.change {s t : ThreadPool} {me : Owner} {p : Push} {p' : Option Push}
    (step : PushStep s me p t p') :
    Change me s.mutex p.holds t.mutex (p'.any Push.holds) := by
  cases step with
  | acquired job free =>
      rw [free]
      exact .acquired
  | returned job => exact .released
  | skipped job i left => exact .kept fun _ => rfl
  | notified job i left => exact .kept fun _ => rfl
  | _ => exact .kept nofun

theorem CallerStep.change {s t : ThreadPool} {j : Nat} {op : Operation} {op' : Option Operation}
    (step : CallerStep s j op t op') :
    Change (.caller j) s.mutex op.holds t.mutex (op'.any Operation.holds) := by
  cases step with
  | pushes p t p' step =>
      have change := step.change
      cases p' with
      | none => exact change
      | some p' => exact change
  | pauses flag free =>
      rw [free]
      exact .acquired
  | stops immediately before free =>
      rw [free]
      exact .acquired
  | removes priority free =>
      rw [free]
      exact .acquired
  | pauseEnds flag => exact .released
  | notStarted immediately before => exact .released
  | stopEnds before => exact .released
  | removeEnds priority removed threadWorkers removals => exact .released
  | stopRefused before i left absent => exact .released
  | stopReturns before => exact .kept nofun
  | clears priority => exact .kept nofun
  | _ => exact .kept fun _ => rfl

theorem Step.change {s t : ThreadPool} {a : Action} (step : Step s a t) :
    Change a.owner s.mutex (s.holds a.owner) t.mutex (t.holds a.owner) := by
  cases step with
  | worker i t step =>
      cases step with
      | pushes job p u p' running step =>
          have change := step.change
          simp only [Action.owner, ThreadPool.holds, running, setPhase_self, Phase.push,
            Option.any_some]
          exact change
      | moved phase quiet =>
          refine .kept ?_
          intro held
          simp only [Action.owner, ThreadPool.holds, setPhase_self, Phase.quiet_push quiet] at held
          cases held
      | exits leaving =>
          refine .kept ?_
          intro held
          simp only [Action.owner, ThreadPool.holds, setWorker_self] at held
          cases held
      | _ =>
          refine .kept ?_
          intro held
          simp only [Action.owner, ThreadPool.holds, setPhase_self] at held
          cases held
  | push i priority job =>
      refine .kept ?_
      intro held
      simp only [Action.owner, ThreadPool.holds, setPhase_self] at held
      cases held
  | call j call =>
      refine .kept ?_
      intro held
      simp only [Action.owner, ThreadPool.holds, setCaller_self] at held
      cases call <;> cases held
  | caller j op u op' called step =>
      have change := step.change
      simpa only [Action.owner, ThreadPool.holds, called, setCaller_self, setCaller_mutex,
        Option.any_some] using change

theorem Change.owner {me owner : Owner} {mutex mutex' : Option Owner} {held held' : Bool}
    (change : Change me mutex held mutex' held') (mine : held = true → mutex = some me)
    (now : if owner = me then held' = true else mutex = some owner) : mutex' = some owner := by
  by_cases same : owner = me
  · subst same
    rw [if_pos rfl] at now
    cases change with
    | kept still => exact mine (still now)
    | acquired => rfl
    | released => cases now
  · rw [if_neg same] at now
    cases change with
    | kept => exact now
    | acquired => cases now
    | released => exact absurd (Option.some.inj (now.symm.trans (mine rfl))) same

theorem owned_step {s t : ThreadPool} {a : Action} (owned : s.Owned) (stepped : step s a = some t) :
    t.Owned := by
  have step := step_inv stepped
  intro owner held
  apply step.change.owner (owned a.owner)
  split
  next same => exact same ▸ held
  next other => exact owned owner (step.holds other ▸ held)

end ThreadPool
end CppToolkit.Thread
