import CppToolkit.Library.Machine
import CppToolkit.Thread.Sweep
import Mathlib.Data.List.Nodup

/-! A successful `stop` has worked off what was accepted before it, in the runs whose
workers are relieved when they leave. -/
namespace CppToolkit.Thread
open Machine

namespace ThreadPool

section
variable {s t : ThreadPool}

theorem placed_step {a : Action} (draining : s.Draining) (step : Step s a t) : t.Placed := by
  have placed := draining.placed
  cases step with
  | worker i t step => exact placed.workerStep step
  | push i priority job running =>
      refine placed.still (fun _ => Iff.rfl) placed.distinct
        (setWorker_keeps (fun w => w.phase.hand) ?_) rfl rfl
      rw [running]
      rfl
  | call j call => exact placed.still (fun _ => Iff.rfl) placed.distinct (fun _ => rfl) rfl rfl
  | caller j op u op' called step =>
      have after : u.Placed := placed.callerStep (draining.controlled.plain j op called) step
      exact after.still (fun _ => Iff.rfl) after.distinct (fun _ => rfl) rfl rfl

/-- A step of worker `i`, with the push of its job. -/
theorem WorkerStep.draining {i : Nat} (draining : s.Draining) (relieved : s.Relieved (.worker i))
    (step : WorkerStep s i t) (controlled : t.Controlled) (placed : t.Placed) : t.Draining := by
  have later := step.later draining.placed
  refine ⟨controlled, placed, ?_, ?_, ?_, ?_⟩
  · cases step with
    | pushes job p u p' running step =>
        have good := draining.pushing i p (by rw [running]; rfl)
        exact (Later.setPhase u i _).known
          (accepted_later step (step.later draining.placed) good draining.accepted)
    | _ => exact later.known draining.accepted
  · intro k q pushing
    by_cases here : k = i
    · subst here
      cases step with
      | pushes job p u p' running step =>
          have good := draining.pushing k p (by rw [running]; rfl)
          rw [setPhase_self] at pushing
          exact (Later.setPhase u k _).goodPush (step.good good q pushing)
      | moved phase quiet =>
          rw [setPhase_self] at pushing
          cases (Phase.quiet_push quiet).symm.trans pushing
      | exits =>
          rw [setWorker_self] at pushing
          cases pushing
      | _ =>
          rw [setPhase_self] at pushing
          cases pushing
    · refine later.goodPush (draining.pushing k q ?_)
      rcases step.other here with same | ⟨_, same⟩
      · exact same ▸ pushing
      · rw [same, ThreadWorker.notify, Phase.notify_push] at pushing
        exact pushing
  · intro j op called
    exact step.good draining relieved (step.callers ▸ called)
  · intro stopped member success
    have stops : t.stops = s.stops := by
      cases step with
      | pushes job p u p' running step => cases step <;> rfl
      | _ => rfl
    rw [stops] at member
    exact (draining.stops stopped member success).imp later.known later.finished

theorem CallerStep.draining {j : Nat} {op : Operation} {op' : Option Operation}
    (draining : s.Draining) (called : s.callers j = some op) (step : CallerStep s j op t op')
    (controlled : (t.setCaller j op').Controlled) (placed : (t.setCaller j op').Placed) :
    (t.setCaller j op').Draining := by
  have plain := draining.controlled.plain j op called
  have later := step.later draining.placed plain
  have rest := Later.setCaller t j op'
  refine ⟨controlled, placed, rest.known ?_, ?_, ?_, ?_⟩
  · cases step with
    | pushes p t p' step =>
        exact accepted_later step later (draining.calls j _ called) draining.accepted
    | _ => exact later.known draining.accepted
  · intro k p pushing
    refine rest.goodPush (later.goodPush (draining.pushing k p ?_))
    exact (step.phases Phase.push Phase.notify_push k).symm.trans pushing
  · intro k next called_
    by_cases here : k = j
    · rw [here, setCaller_self] at called_
      exact rest.good (fun _ => rfl) (fun _ _ same => same) (step.good draining called next called_)
    · rw [setCaller_ne _ _ here, step.callers] at called_
      apply rest.good (fun _ => rfl) (fun _ _ same => same)
      refine later.good (step.phases Phase.left Phase.notify_left) ?_ (draining.calls k next called_)
      intro i left counting
      exact (step.phase_iff (by simp) i).mp counting
  · intro stopped member success
    exact (step.stopped draining called stopped member success).imp
      (fun known => rest.known (later.known known))
      fun finished => rest.finished (later.finished finished)

theorem draining_step {a : Action} (draining : s.Draining) (plain : a.plain = true)
    (relieved : s.Relieved a) (stepped : step s a = some t) : t.Draining := by
  have controlled := controlled_step draining.controlled plain stepped
  have inv := step_inv stepped
  have placed := placed_step draining inv
  cases inv with
  | worker i t step => exact step.draining draining relieved controlled placed
  | push i priority job running =>
      have later := Later.setPhase s i (.running job (some (.test priority)))
      have phases : ∀ {β : Type} (f : Phase → β), f (.running job (some (.test priority))) =
          f (.running job none) → ∀ k,
            f ((s.setPhase i (.running job (some (.test priority)))).workers k).phase =
              f (s.workers k).phase := fun f same =>
        setWorker_keeps (fun w => f w.phase) (same.trans (congrArg f running.symm))
      refine ⟨controlled, placed, draining.accepted, ?_, ?_, ?_⟩
      · intro k q pushing
        by_cases here : k = i
        · rw [here, setPhase_self] at pushing
          cases pushing
          trivial
        · rw [setPhase_ne _ _ here] at pushing
          exact later.goodPush (draining.pushing k q pushing)
      · intro j op called
        refine later.good (phases Phase.left rfl) ?_ (draining.calls j op called)
        intro k left counting
        have same := phases (fun phase => decide (phase = .stopCounting left 0)) rfl k
        exact of_decide_eq_true (same.symm.trans (decide_eq_true counting))
      · intro stopped member success
        exact (draining.stops stopped member success).imp later.known later.finished
  | call j call idle =>
      have later := Later.setCaller s j (some (s.beginCall call))
      refine ⟨controlled, placed, draining.accepted, ?_, ?_, ?_⟩
      · intro k p pushing
        exact later.goodPush (draining.pushing k p pushing)
      · intro k op called
        by_cases here : k = j
        · rw [here, setCaller_self] at called
          cases called
          cases call with
          | stop immediately => exact draining.accepted
          | _ => trivial
        · rw [setCaller_ne _ _ here] at called
          exact later.good (fun _ => rfl) (fun _ _ same => same) (draining.calls k op called)
      · intro stopped member success
        exact (draining.stops stopped member success).imp later.known later.finished
  | caller j op u op' called step => exact step.draining draining called controlled placed

end

/-- When `stop` has returned successfully, the work of every job that was accepted before
the call and whose priority some worker lists has been called exactly once. -/
theorem stop_drains {priorities : List (List JobPriorities)} {actions : List Action} {s : ThreadPool}
    (ran : run step (started priorities) actions = some s)
    (plain : ∀ a ∈ actions, a.plain = true)
    (relieved : Along step Relieved (started priorities) actions) :
    ∀ stopped ∈ s.stops, stopped.error = none → ∀ job ∈ stopped.before, s.Served job →
      s.worked.count job = 1 := by
  have draining : s.Draining := run_invariant
    (fun _ _ _ draining allowed stepped => draining_step draining allowed.1 allowed.2 stepped)
    (started_draining priorities) (relieved.and plain) ran
  intro stopped member success job before served
  have worked := (draining.stops stopped member success).2 job before served
  exact List.count_eq_one_of_mem draining.placed.once worked

/-- A paused pool works off a job of low priority while it is stopped. -/
def pausedDrain : List Action :=
  Action.call 0 (.push .low) :: List.replicate 5 (Action.caller 0) ++
    Action.call 1 (.pause true) :: List.replicate 3 (Action.caller 1) ++
    Action.call 0 (.stop false) :: List.replicate 5 (Action.caller 0) ++
    List.replicate 15 (Action.worker 0) ++ List.replicate 3 (Action.caller 0)

/-- No worker goes on behind a `pop` that has found nothing. -/
def supplied (s : ThreadPool) : Action → Bool
  | .worker i => (s.workers i).phase ≠ .popped none
  | _ => true

theorem relieved_of_supplied {s : ThreadPool} {a : Action} (found : s.supplied a = true) :
    s.Relieved a := by
  cases a with
  | worker i =>
      unfold Relieved
      dsimp only
      split
      next nothing => exact absurd nothing (of_decide_eq_true found)
      next => trivial
  | _ => trivial

theorem stop_drains_paused :
    ∃ s, run step (started [[.low]]) pausedDrain = some s ∧
      s.stops = [⟨none, [⟨0, .low⟩]⟩] ∧ s.worked.count ⟨0, .low⟩ = 1 := by
  have ends : (run step (started [[.low]]) pausedDrain).map
      (fun s => (s.stops, s.threadWorkers, (s.workers 0).priorities)) =
        some ([⟨none, [⟨0, .low⟩]⟩], [0], [.low]) := by decide +kernel
  have along : Along step (fun s a => s.supplied a = true) (started [[.low]]) pausedDrain := by
    decide +kernel
  obtain ⟨s, ran, last⟩ := Option.map_eq_some_iff.mp ends
  simp only [Prod.mk.injEq] at last
  obtain ⟨stops, workers, priorities⟩ := last
  have served : s.Served ⟨0, .low⟩ := ⟨0, by rw [workers]; decide, by rw [priorities]; decide⟩
  exact ⟨s, ran, stops, stop_drains ran (by decide) (along.mono fun _ _ => relieved_of_supplied)
    ⟨none, [⟨0, .low⟩]⟩ (stops ▸ List.mem_singleton_self _) rfl ⟨0, .low⟩ (by decide) served⟩

/-- Worker 0 finds the queues empty, the job of low priority that only it serves is
accepted, `stop` sets its flag, and it leaves. -/
def lostJob : List Action :=
  Action.call 0 (.push .high) :: List.replicate 6 (Action.caller 0) ++
    List.replicate 5 (Action.worker 0) ++ List.replicate 7 (Action.worker 1) ++
    List.replicate 3 (Action.worker 0) ++
    Action.call 0 (.push .low) :: List.replicate 6 (Action.caller 0) ++
    Action.call 0 (.stop false) :: List.replicate 5 (Action.caller 0) ++
    List.replicate 2 (Action.worker 0) ++ List.replicate 3 (Action.caller 0) ++
    List.replicate 8 (Action.worker 1) ++ List.replicate 3 (Action.caller 0)

theorem stop_loses_a_job :
    ¬ ∀ priorities actions s, run step (started priorities) actions = some s →
      (∀ a ∈ actions, a.plain = true) → ∀ stopped ∈ s.stops, stopped.error = none →
        ∀ job ∈ stopped.before, s.Served job → s.worked.count job = 1 := by
  intro drains
  have ends : (run step (started [[.high, .low], [.high]]) lostJob).map
      (fun s => (s.stops, s.worked, s.threadWorkers, (s.workers 0).priorities)) =
        some ([⟨none, [⟨0, .high⟩, ⟨1, .low⟩]⟩], [⟨0, .high⟩], [0, 1], [.high, .low]) := by
    decide +kernel
  obtain ⟨s, ran, lost⟩ := Option.map_eq_some_iff.mp ends
  simp only [Prod.mk.injEq] at lost
  obtain ⟨stops, worked, workers, priorities⟩ := lost
  have served : s.Served ⟨1, .low⟩ := ⟨0, by rw [workers]; decide, by rw [priorities]; decide⟩
  have once := drains _ lostJob s ran (by decide) ⟨none, [⟨0, .high⟩, ⟨1, .low⟩]⟩
    (stops ▸ List.mem_singleton_self _) rfl ⟨1, .low⟩ (by decide) served
  rw [worked] at once
  exact absurd once (by decide)

end ThreadPool
end CppToolkit.Thread
