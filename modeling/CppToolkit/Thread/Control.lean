import CppToolkit.Thread.JobPlaces
import CppToolkit.Thread.Ownership

/-! Which workers may leave: in a run that removes none, a worker has its stop flag set,
or has left its loop with its thread still there, only while a call of `stop` joins it. -/
namespace CppToolkit.Thread
namespace ThreadPool

def Joined (s : ThreadPool) (i : Nat) : Prop :=
  ∃ j loop left, s.callers j = some (.joining loop i left)

structure Tame (w : ThreadWorker) (joined : Prop) : Prop where
  stop : w.threadStop = true → joined
  left : w.thread = true → w.phase.left = true → joined
  counting : ∀ left count, w.phase = .stopCounting left count → w.threadStop = true
  exited : w.phase = .exited → w.threadStop = false
  absent : w.thread = false → w.phase = .exited

structure Controlled (s : ThreadPool) : Prop where
  owned : s.Owned
  plain : ∀ j op, s.callers j = some op → op.plain = true
  tame : ∀ i, Tame (s.workers i) (s.Joined i)
  outside : ∀ i, i ∉ s.threadWorkers → (s.workers i).phase = .exited

theorem started_controlled (priorities : List (List JobPriorities)) :
    (started priorities).Controlled where
  owned := started_owned priorities
  plain := fun _ _ called => by cases called
  tame := fun i => by
    rcases started_worker priorities i with ⟨_, list, is⟩ | ⟨_, is⟩
    · rw [is]
      exact ⟨nofun, nofun, nofun, nofun, nofun⟩
    · rw [is]
      exact ⟨nofun, nofun, nofun, fun _ => rfl, fun _ => rfl⟩
  outside := fun i outside => by
    rcases started_worker priorities i with ⟨inside, _⟩ | ⟨_, is⟩
    · exact absurd inside outside
    · rw [is]
      rfl

theorem Tame.mono {w : ThreadWorker} {joined joined' : Prop} (tame : Tame w joined)
    (still : joined → joined') : Tame w joined' :=
  ⟨fun stop => still (tame.stop stop), fun thread left => still (tame.left thread left),
    tame.counting, tame.exited, tame.absent⟩

/-- A worker that is notified, or whose pause flag is set. -/
theorem Tame.notified {w w' : ThreadWorker} {joined : Prop} (tame : Tame w joined)
    (stop : w'.threadStop = w.threadStop) (thread : w'.thread = w.thread)
    (phase : w'.phase = w.phase.notify) : Tame w' joined := by
  have same : ∀ {phase' : Phase}, (∀ notified, phase' ≠ .blocked notified) → w'.phase = phase' →
      w.phase = phase' := by
    intro phase' awake is
    rw [phase] at is
    cases at_ : w.phase with
    | blocked notified =>
        rw [at_] at is
        exact absurd is.symm (awake true)
    | _ => rw [at_] at is; exact is
  refine ⟨fun set => tame.stop (stop ▸ set), ?_, ?_, ?_, ?_⟩
  · intro there left
    rw [phase, Phase.notify_left] at left
    exact tame.left (thread ▸ there) left
  · intro left count counting
    exact stop ▸ tame.counting left count (same nofun counting)
  · intro exited
    exact stop ▸ tame.exited (same nofun exited)
  · intro absent
    rw [phase, tame.absent (thread ▸ absent)]
    rfl

/-- A thread that goes on within the loop. -/
theorem Tame.goes {w : ThreadWorker} {joined : Prop} (tame : Tame w joined) {phase : Phase}
    (live : w.phase ≠ .exited) (inside : phase.left = false)
    (counting : ∀ left count, phase = .stopCounting left count → w.threadStop = true) :
    Tame { w with phase } joined := by
  refine ⟨tame.stop, ?_, counting, ?_, ?_⟩
  · intro _ left
    cases inside.symm.trans left
  · intro exited
    change phase = .exited at exited
    rw [exited] at inside
    cases inside
  · intro absent
    exact absurd (tame.absent absent) live

/-- A thread that leaves the loop with its stop flag set. -/
theorem Tame.leaves {w : ThreadWorker} {joined : Prop} (tame : Tame w joined)
    (live : w.phase ≠ .exited) (stop : w.threadStop = true) :
    Tame { w with phase := .leaving } joined :=
  ⟨tame.stop, fun _ _ => tame.stop stop, nofun, nofun, fun absent => absurd (tame.absent absent) live⟩

section
variable {s t : ThreadPool}

theorem WorkerStep.tame {i : Nat} {joined : Prop} (step : WorkerStep s i t)
    (tame : Tame (s.workers i) joined) : Tame (t.workers i) joined := by
  have live := step.live
  cases step with
  | moved phase quiet =>
      rw [setPhase_self]
      apply tame.goes live (Phase.quiet_left quiet)
      intro left count counting
      rw [counting] at quiet
      cases quiet
  | starts stop test =>
      rw [setPhase_self]
      exact tame.goes live rfl fun _ _ _ => stop
  | counts priority left count counting =>
      rw [setPhase_self]
      exact tame.goes live rfl fun _ _ _ => tame.counting _ _ counting
  | drained counting =>
      rw [setPhase_self]
      exact tame.leaves live (tame.counting _ _ counting)
  | pops job jobPool popping popped =>
      rw [setPhase_self]
      exact tame.goes live rfl nofun
  | breaks nothing stop =>
      rw [setPhase_self]
      exact tame.leaves live stop
  | works job popped =>
      rw [setPhase_self]
      exact tame.goes live rfl nofun
  | pushes job p u p' running step =>
      rw [setPhase_self]
      have threadStop := step.workers (fun w => w.threadStop) (fun _ => rfl) i
      have thread := step.workers (fun w => w.thread) (fun _ => rfl) i
      have goes := @Tame.goes _ _ tame (.running job p') live rfl nofun
      exact ⟨fun stop => goes.stop (threadStop ▸ stop), nofun, nofun, nofun,
        fun absent => goes.absent (thread ▸ absent)⟩
  | exits leaving =>
      rw [setWorker_self]
      exact ⟨nofun, fun thread _ => tame.left thread (by rw [leaving]; rfl), nofun, fun _ => rfl,
        fun _ => rfl⟩

theorem CallerStep.plain {j : Nat} {op : Operation} {op' : Option Operation}
    (step : CallerStep s j op t op') (plain : op.plain = true) : op'.all Operation.plain = true := by
  cases step with
  | pushes p t p' step => cases p' <;> rfl
  | stops => exact plain
  | locks => exact plain
  | clears => cases plain
  | removes => cases plain
  | removeBody => cases plain
  | removeSkips => cases plain
  | halts loop i left =>
      cases loop with
      | stop before => rfl
      | remove priority removed => cases plain
  | joins loop i left =>
      cases loop with
      | stop before => rfl
      | remove priority removed => cases plain
  | _ => rfl

theorem CallerStep.threadWorkers {j : Nat} {op : Operation} {op' : Option Operation}
    (step : CallerStep s j op t op') (plain : op.plain = true) :
    t.threadWorkers = s.threadWorkers := by
  cases step with
  | pushes p t p' step => cases step <;> rfl
  | removeEnds => cases plain
  | _ => rfl

/-- A worker stays joined while its joiner does not step. -/
theorem Joined.kept {j i : Nat} {op : Operation} (joined : s.Joined i) (op' : Option Operation)
    (called : s.callers j = some op) (callers : t.callers = s.callers)
    (other : ∀ loop left, op ≠ .joining loop i left) : (t.setCaller j op').Joined i := by
  obtain ⟨k, loop, left, joining⟩ := joined
  by_cases here : k = j
  · rw [here, called] at joining
    exact absurd (Option.some.inj joining) (other loop left)
  · refine ⟨k, loop, left, ?_⟩
    rw [setCaller_ne _ _ here, callers]
    exact joining

theorem CallerStep.tame {j : Nat} {op : Operation} {op' : Option Operation} (owned : s.Owned)
    (tame : ∀ i, Tame (s.workers i) (s.Joined i)) (called : s.callers j = some op)
    (plain : op.plain = true) (step : CallerStep s j op t op') (k : Nat) :
    Tame (t.workers k) ((t.setCaller j op').Joined k) := by
  have callers := step.callers
  cases step with
  | pushes p t p' step =>
      have still := (tame k).mono fun joined =>
        joined.kept (p'.map .push) called callers fun _ _ same => by cases same
      cases step with
      | notified job i left =>
          by_cases here : k = i
          · rw [here, setWorker_self]
            exact (here ▸ still).notified rfl rfl rfl
          · rwa [setWorker_ne _ _ here]
      | _ => exact still
  | paused flag i left =>
      have still := (tame k).mono fun joined =>
        joined.kept (some (.pausing flag left)) called callers fun _ _ same => by cases same
      by_cases here : k = i
      · rw [here, setWorker_self]
        exact (here ▸ still).notified rfl rfl rfl
      · rwa [setWorker_ne _ _ here]
  | removeBody => cases plain
  | halts loop i left present free =>
      have still := (tame k).mono fun joined =>
        joined.kept (some (.joining loop i left)) called callers fun _ _ same => by cases same
      by_cases here : k = i
      · subst here
        have mine : ∀ {u : ThreadPool}, (u.setCaller j (some (.joining loop k left))).Joined k :=
          ⟨j, loop, left, setCaller_self _ _ _⟩
        have live : (s.workers k).phase.left = false := by
          apply eq_false_of_ne_true
          intro gone
          obtain ⟨j', loop', left', joining⟩ := (tame k).left present gone
          have one := owned (.caller j) (by rw [holds, called]; rfl)
          have two := owned (.caller j') (by rw [holds, joining]; rfl)
          cases one.symm.trans two
          cases called.symm.trans joining
        rw [setWorker_self]
        refine ⟨fun _ => mine, fun _ _ => mine, fun _ _ _ => rfl, ?_, ?_⟩
        · intro exited
          have gone : (s.workers k).phase.notify.left = true := by
            change (s.workers k).phase.notify = .exited at exited
            rw [exited]
            rfl
          rw [Phase.notify_left, live] at gone
          cases gone
        · intro absent
          cases present.symm.trans absent
      · rwa [setWorker_ne _ _ here]
  | joins loop i left exited =>
      by_cases here : k = i
      · subst here
        rw [setWorker_self]
        refine ⟨?_, fun thread => (by cases thread), ?_, (tame k).exited, fun _ => exited⟩
        · intro stop
          cases stop.symm.trans ((tame k).exited exited)
        · intro _ _ counting
          cases exited.symm.trans counting
      · rw [setWorker_ne _ _ here]
        refine (tame k).mono fun joined => joined.kept _ called callers ?_
        intro loop' left' same
        cases same
        exact here rfl
  | _ =>
      refine (tame k).mono fun joined => joined.kept _ called callers ?_
      intro loop left same
      cases same

theorem WorkerStep.controlled {i : Nat} (controlled : s.Controlled) (owned : t.Owned)
    (step : WorkerStep s i t) : t.Controlled := by
  have joined : ∀ k, t.Joined k ↔ s.Joined k := fun k => by
    simp only [Joined, step.callers]
  refine ⟨owned, fun j op called => controlled.plain j op (step.callers ▸ called), ?_, ?_⟩
  · intro k
    refine Tame.mono ?_ (joined k).mpr
    by_cases here : k = i
    · subst here
      exact step.tame (controlled.tame k)
    · rcases step.other here with same | ⟨_, same⟩
      · exact same ▸ controlled.tame k
      · exact same ▸ (controlled.tame k).notified rfl rfl rfl
  · intro k outside
    rw [step.threadWorkers] at outside
    have exited := controlled.outside k outside
    have here : k ≠ i := by
      rintro rfl
      exact step.live exited
    rcases step.other here with same | ⟨_, same⟩
    · exact same ▸ exited
    · rw [same, ThreadWorker.notify, exited]
      rfl

/-- A job calls `push`. -/
theorem Controlled.pushed {i : Nat} {priority : JobPriorities} {job : Job}
    (controlled : s.Controlled) (running : (s.workers i).phase = .running job none)
    (owned : (s.setPhase i (.running job (some (.test priority)))).Owned) :
    (s.setPhase i (.running job (some (.test priority)))).Controlled := by
  have live : (s.workers i).phase ≠ .exited := fun exited => by cases exited.symm.trans running
  refine ⟨owned, controlled.plain, ?_, ?_⟩
  · intro k
    by_cases here : k = i
    · subst here
      rw [setPhase_self]
      exact (controlled.tame k).goes live rfl nofun
    · rw [setPhase_ne _ _ here]
      exact controlled.tame k
  · intro k outside
    have exited := controlled.outside k outside
    have here : k ≠ i := by
      rintro rfl
      exact live exited
    rwa [setPhase_ne _ _ here]

theorem Controlled.called {j : Nat} {call : Call} (controlled : s.Controlled)
    (plain : (Action.call j call).plain = true) (idle : s.callers j = none)
    (owned : (s.setCaller j (some (s.beginCall call))).Owned) :
    (s.setCaller j (some (s.beginCall call))).Controlled := by
  refine ⟨owned, ?_, ?_, controlled.outside⟩
  · intro k op called
    by_cases here : k = j
    · rw [here, setCaller_self] at called
      cases called
      cases call with
      | removeWorkers priority => cases plain
      | stop immediately => exact plain
      | _ => rfl
    · rw [setCaller_ne _ _ here] at called
      exact controlled.plain k op called
  · intro k
    refine (controlled.tame k).mono ?_
    rintro ⟨j', loop, left, joining⟩
    refine ⟨j', loop, left, ?_⟩
    rw [setCaller_ne _ _ ?_]
    · exact joining
    · rintro rfl
      cases idle.symm.trans joining

theorem CallerStep.controlled {j : Nat} {op : Operation} {op' : Option Operation} {u : ThreadPool}
    (controlled : s.Controlled) (called : s.callers j = some op) (step : CallerStep s j op u op')
    (owned : (u.setCaller j op').Owned) : (u.setCaller j op').Controlled := by
  have before := controlled.plain j op called
  refine ⟨owned, ?_, fun k => step.tame controlled.owned controlled.tame called
    before k, ?_⟩
  · intro k op₂ called₂
    by_cases here : k = j
    · rw [here, setCaller_self] at called₂
      have all := step.plain before
      rw [called₂] at all
      exact all
    · rw [setCaller_ne _ _ here, step.callers] at called₂
      exact controlled.plain k op₂ called₂
  · intro k outside
    change k ∉ u.threadWorkers at outside
    rw [step.threadWorkers before] at outside
    exact (step.phase_iff (by simp) k).mpr (controlled.outside k outside)

end

theorem controlled_step {a : Action} (controlled : s.Controlled) (plain : a.plain = true)
    (stepped : step s a = some t) : t.Controlled := by
  have owned := owned_step controlled.owned stepped
  cases step_inv stepped with
  | worker i t step => exact step.controlled controlled owned
  | push i priority job running => exact controlled.pushed running owned
  | call j call idle => exact controlled.called plain idle owned
  | caller j op u op' called step => exact step.controlled controlled called owned

end ThreadPool
end CppToolkit.Thread
