import CppToolkit.Thread.WakeUp

/-! What `pause(true)` comes to while other threads push, stop and remove workers: once it has
returned, no worker takes a job out of the queues. -/
namespace CppToolkit.Thread
open Machine

/-- The thread is not on its way to a `pop`. -/
def Phase.resting : Phase → Bool
  | .checking => true
  | phase => !phase.locked

theorem Phase.resting_of_free {phase : Phase} (free : phase.locked = false) :
    phase.resting = true := by
  cases phase <;> first | rfl | cases free

theorem Phase.notify_resting (phase : Phase) : phase.notify.resting = phase.resting := by
  cases phase <;> rfl

/-- A worker that has been paused, and not been told to stop. -/
def ThreadWorker.held (w : ThreadWorker) : Bool := w.pause && !w.threadStop

theorem ThreadWorker.held_iff {w : ThreadWorker} :
    w.held = true ↔ w.pause = true ∧ w.threadStop = false := by
  rw [held, Bool.and_eq_true, Bool.not_eq_true']

def Operation.pushing : Operation → Bool
  | .push _ => true
  | _ => false

/-- Nobody calls `pause`, `stop` or `remove_workers`. -/
def Action.pushing : Action → Bool
  | .call _ (.push _) => true
  | .call _ _ => false
  | _ => true

namespace ThreadPool

/-- Every live worker has the flag of the pool, or a call of `pause` is on its way to it. -/
structure Paused (s : ThreadPool) : Prop where
  owned : s.Owned
  awake : s.Awake
  flag : ∀ j flag left, s.callers j = some (.pausing flag left) → s.pause = flag
  told : ∀ i, (s.workers i).phase ≠ .exited → (s.workers i).pause = s.pause ∨
    ∃ j left, s.callers j = some (.pausing s.pause left) ∧ i ∈ left
  resting : ∀ i, (s.workers i).held = true → (s.workers i).phase.resting = true

theorem started_paused (priorities : List (List JobPriorities)) :
    (started priorities).Paused where
  owned := started_owned priorities
  awake := started_awake priorities
  flag := fun j flag left called => by cases called
  told := fun i _ => by
    rcases started_worker priorities i with ⟨_, list, is⟩ | ⟨_, is⟩ <;>
    · rw [is]
      exact .inl rfl
  resting := fun i held => by
    rcases started_worker priorities i with ⟨_, list, is⟩ | ⟨_, is⟩ <;>
    · rw [is] at held
      cases held

section
variable {s t : ThreadPool}

/-- A held worker goes on to block, or with the job that it has. -/
theorem workerStep_resting {i : Nat} (stepped : s.workerStep i = some t)
    (resting : (s.workers i).held = true → (s.workers i).phase.resting = true)
    (held : (t.workers i).held = true) : (t.workers i).phase.resting = true := by
  have goes : ∀ {u : ThreadPool} {phase : Phase}, phase.resting = true →
      some (u.setPhase i phase) = some t → (t.workers i).phase.resting = true := by
    intro u phase rests same
    cases same
    rwa [setPhase_self]
  have busy : ∀ {u : ThreadPool} {phase : Phase}, some (u.setPhase i phase) = some t →
      u.workers = s.workers → (s.workers i).phase.resting = false →
      (t.workers i).phase.resting = true := by
    intro u phase same workers moves
    cases same
    rw [setPhase_self, workers] at held
    cases moves.symm.trans (resting held)
  unfold workerStep at stepped
  dsimp only at stepped
  split at stepped
  next => exact goes rfl stepped
  next checking =>
    split at stepped
    next stop =>
      cases stepped
      rw [setPhase_self, ThreadWorker.held_iff] at held
      cases stop.symm.trans held.2
    next =>
      split at stepped
      next => exact goes rfl stepped
      next running =>
        cases stepped
        rw [setPhase_self, ThreadWorker.held_iff] at held
        exact absurd held.1 running
  next at_ => exact busy stepped rfl (by rw [at_]; rfl)
  next at_ => split at stepped <;> exact busy stepped rfl (by rw [at_]; rfl)
  next => exact goes rfl stepped
  next at_ => split at stepped <;> exact busy stepped rfl (by rw [at_]; rfl)
  next at_ => exact busy stepped rfl (by rw [at_]; rfl)
  next at_ => split at stepped <;> exact busy stepped rfl (by rw [at_]; rfl)
  next at_ => split at stepped <;> exact busy stepped rfl (by rw [at_]; rfl)
  next at_ => split at stepped <;> exact busy stepped rfl (by rw [at_]; rfl)
  next => split at stepped <;> exact goes rfl stepped
  next => exact goes rfl stepped
  next => exact goes rfl stepped
  next =>
    obtain ⟨_, _, same⟩ := Option.map_eq_some_iff.mp stepped
    exact goes rfl (congrArg some same)
  next =>
    cases stepped
    rw [setWorker_self]
    rfl
  next => cases stepped

/-- A worker that is notified, or that loses its thread or priorities. -/
theorem resting_of_same {w w' : ThreadWorker} (resting : w.held = true → w.phase.resting = true)
    (same : w'.held = w.held) (phase : w'.phase = w.phase ∨ w'.phase = w.phase.notify)
    (held : w'.held = true) : w'.phase.resting = true := by
  have rests := resting (same ▸ held)
  rcases phase with is | is
  · rw [is, rests]
  · rw [is, Phase.notify_resting, rests]

theorem PushStep.resting {me : Owner} {p : Push} {p' : Option Push} (step : PushStep s me p t p')
    {k : Nat} (resting : (s.workers k).held = true → (s.workers k).phase.resting = true) :
    (t.workers k).held = true → (t.workers k).phase.resting = true := by
  rcases step.worker k with same | ⟨_, same⟩
  · rwa [same]
  · rw [same]
    exact resting_of_same resting rfl (.inr rfl)

theorem CallerStep.resting {j k : Nat} {op : Operation} {op' : Option Operation}
    (step : CallerStep s j op t op')
    (resting : (s.workers k).held = true → (s.workers k).phase.resting = true) :
    (t.workers k).held = true → (t.workers k).phase.resting = true := by
  have changed : ∀ {i : Nat} {w : ThreadWorker}, (i = k → w.held = true → w.phase.resting = true) →
      ((s.setWorker i w).workers k).held = true →
      ((s.setWorker i w).workers k).phase.resting = true := by
    intro i w own
    by_cases here : k = i
    · rw [here, setWorker_self]
      exact own here.symm
    · rwa [setWorker_ne _ _ here]
  cases step with
  | pushes p t p' step => exact step.resting resting
  | paused flag i left free =>
      refine changed fun _ _ => ?_
      change (s.workers i).phase.notify.resting = true
      rw [Phase.notify_resting]
      exact Phase.resting_of_free free
  | halts loop i left present free =>
      refine changed fun _ held => ?_
      cases (ThreadWorker.held_iff.mp held).2
  | removeBody priority removed i left priorities next =>
      refine changed fun here => ?_
      subst here
      exact resting_of_same resting rfl (.inl rfl)
  | joins loop i left exited =>
      refine changed fun here => ?_
      subst here
      exact resting_of_same resting rfl (.inl rfl)
  | _ => exact resting

theorem Step.resting {a : Action} (stepped : s.step a = some t) {k : Nat}
    (resting : (s.workers k).held = true → (s.workers k).phase.resting = true) :
    (t.workers k).held = true → (t.workers k).phase.resting = true := by
  cases step_inv stepped with
  | worker i t step =>
      by_cases here : k = i
      · subst k
        exact workerStep_resting stepped resting
      · rcases step.other here with same | ⟨_, same⟩
        · rwa [same]
        · rw [same]
          exact resting_of_same resting rfl (.inr rfl)
  | push i priority job running =>
      by_cases here : k = i
      · subst k
        rw [setPhase_self]
        exact fun _ => rfl
      · rwa [setPhase_ne _ _ here]
  | call j call idle => exact resting
  | caller j op u op' called step => exact step.resting resting

end

section
variable {s t : ThreadPool}

theorem PushStep.pause {me : Owner} {p : Push} {p' : Option Push} (step : PushStep s me p t p') :
    t.pause = s.pause ∧ ∀ k, (t.workers k).pause = (s.workers k).pause :=
  ⟨by cases step <;> rfl, step.workers ThreadWorker.pause fun _ => rfl⟩

/-- No step of a worker changes a pause flag. -/
theorem WorkerStep.pause {i : Nat} (step : WorkerStep s i t) :
    t.pause = s.pause ∧ ∀ k, (t.workers k).pause = (s.workers k).pause := by
  cases step with
  | pushes job p u p' running step =>
      refine ⟨step.pause.1, fun k => ?_⟩
      exact (setWorker_keeps ThreadWorker.pause (by rfl) k).trans (step.pause.2 k)
  | _ => exact ⟨rfl, setWorker_keeps ThreadWorker.pause (by rfl)⟩

/-- A call of `pause` that holds the mutex is the only one. -/
theorem Owned.pausing {j k : Nat} {flag : Bool} {left : List Nat} {op : Operation}
    (owned : s.Owned) (pausing : s.callers j = some (.pausing flag left))
    (called : s.callers k = some op) (holds : op.holds = true) : k = j := by
  have first := owned (.caller j) (by rw [ThreadPool.holds, pausing]; rfl)
  have second := owned (.caller k) (by rw [ThreadPool.holds, called]; exact holds)
  exact Owner.caller.inj (Option.some.inj (second.symm.trans first))

theorem Owned.free {j : Nat} {flag : Bool} {left : List Nat} (owned : s.Owned)
    (free : s.mutex = none) : s.callers j ≠ some (.pausing flag left) := by
  intro pausing
  have held := owned (.caller j) (by rw [ThreadPool.holds, pausing]; rfl)
  rw [free] at held
  cases held

/-- Any other call leaves the flags alone. -/
theorem CallerStep.calm {j : Nat} {op : Operation} {op' : Option Operation}
    (step : CallerStep s j op t op') (asked : ∀ flag, op ≠ .pause flag)
    (calm : ∀ flag left, op ≠ .pausing flag left) : t.pause = s.pause ∧
      (∀ k, (t.workers k).pause = (s.workers k).pause) ∧
      ∀ flag left, op' ≠ some (.pausing flag left) := by
  cases step with
  | pushes p t p' step =>
      refine ⟨step.pause.1, step.pause.2, fun flag left same => ?_⟩
      cases p' <;> cases same
  | pauses flag => exact absurd rfl (asked flag)
  | paused flag i left => exact absurd rfl (calm flag _)
  | pauseEnds flag => exact absurd rfl (calm flag _)
  | removeBody priority removed i left priorities next either =>
      refine ⟨rfl, setWorker_keeps ThreadWorker.pause (by rfl), fun flag rest same => ?_⟩
      rw [Option.some.inj same] at either
      rcases either with halting | goes
      · cases halting
      · cases goes
  | halts => exact ⟨rfl, setWorker_keeps ThreadWorker.pause (by rfl), fun _ _ same => (by cases same)⟩
  | joins => exact ⟨rfl, setWorker_keeps ThreadWorker.pause (by rfl), fun _ _ same => (by cases same)⟩
  | _ => exact ⟨rfl, fun _ => rfl, fun _ _ same => (by cases same)⟩

/-- One caller goes on; all others keep their calls. -/
theorem callers_of_pausing {j k : Nat} {flag : Bool} {left : List Nat} {op' : Option Operation}
    (pausing : (t.setCaller k op').callers j = some (.pausing flag left))
    (callers : t.callers = s.callers) (calm : ∀ flag left, op' ≠ some (.pausing flag left)) :
    s.callers j = some (.pausing flag left) := by
  by_cases here : j = k
  · rw [here, setCaller_self] at pausing
    exact absurd pausing (calm flag left)
  · rwa [setCaller_ne _ _ here, callers] at pausing

theorem Paused.call {k : Nat} {op : Operation} {op' : Option Operation} (paused : s.Paused)
    (called : s.callers k = some op) (step : CallerStep s k op t op') :
    (∀ j flag left, (t.setCaller k op').callers j = some (.pausing flag left) → t.pause = flag) ∧
      ∀ i, (s.workers i).phase ≠ .exited → (t.workers i).pause = t.pause ∨
        ∃ j left, (t.setCaller k op').callers j = some (.pausing t.pause left) ∧ i ∈ left := by
  have alone : ∀ {j : Nat} {flag : Bool} {left : List Nat}, op.holds = true →
      s.callers j = some (.pausing flag left) → op = .pausing flag left := by
    intro j flag left holds pausing
    have same := paused.owned.pausing pausing called holds
    subst same
    exact Option.some.inj (called.symm.trans pausing)
  cases op with
  | pause flag =>
      cases step with
      | pauses flag free =>
          refine ⟨fun j flag' left pausing => ?_, fun i alive => .inr ⟨k, s.threadWorkers,
            setCaller_self _ _ _, (paused.awake.inside i alive).2⟩⟩
          by_cases here : j = k
          · rw [here, setCaller_self] at pausing
            cases pausing
            rfl
          · rw [setCaller_ne _ _ here] at pausing
            exact absurd pausing (paused.owned.free free)
  | pausing flag rest =>
      have own := paused.flag k flag rest called
      cases step with
      | paused flag worker left free =>
          refine ⟨fun j flag' left' pausing => ?_, fun i alive => ?_⟩
          · by_cases here : j = k
            · rw [here, setCaller_self] at pausing
              cases pausing
              exact own
            · rw [setCaller_ne _ _ here] at pausing
              exact paused.flag j flag' left' pausing
          · by_cases here : i = worker
            · rw [here, setWorker_self]
              exact .inl own.symm
            · rw [setWorker_ne _ _ here]
              rcases paused.told i alive with same | ⟨j, left', pausing, member⟩
              · exact .inl same
              · cases alone rfl pausing
                exact .inr ⟨k, left, setCaller_self _ _ _,
                  (List.mem_cons.mp member).resolve_left here⟩
      | pauseEnds flag =>
          refine ⟨fun j flag' left' pausing => ?_, fun i alive => ?_⟩
          · exact paused.flag j flag' left'
              (callers_of_pausing pausing rfl fun _ _ same => (by cases same))
          · rcases paused.told i alive with same | ⟨j, left', pausing, member⟩
            · exact .inl same
            · cases alone rfl pausing
              cases member
  | _ =>
      obtain ⟨pool, workers, calm⟩ :=
        step.calm (fun _ same => (by cases same)) (fun _ _ same => (by cases same))
      refine ⟨fun j flag left pausing => ?_, fun i alive => ?_⟩
      · rw [pool]
        exact paused.flag j flag left (callers_of_pausing pausing step.callers calm)
      · rw [pool, workers]
        refine (paused.told i alive).imp_right fun ⟨j, left, pausing, member⟩ => ?_
        have other : j ≠ k := by
          rintro rfl
          cases called.symm.trans pausing
        exact ⟨j, left, by rw [setCaller_ne _ _ other, step.callers, pausing], member⟩

theorem Paused.step {a : Action} (paused : s.Paused) (step : Step s a t) :
    (∀ j flag left, t.callers j = some (.pausing flag left) → t.pause = flag) ∧
      ∀ i, (s.workers i).phase ≠ .exited → (t.workers i).pause = t.pause ∨
        ∃ j left, t.callers j = some (.pausing t.pause left) ∧ i ∈ left := by
  cases step with
  | worker k t step =>
      rw [step.callers, step.pause.1]
      refine ⟨paused.flag, fun i alive => ?_⟩
      rw [step.pause.2]
      exact paused.told i alive
  | push k priority job running =>
      refine ⟨paused.flag, fun i alive => ?_⟩
      have same : ((s.setPhase k (.running job (some (.test priority)))).workers i).pause =
          (s.workers i).pause := setWorker_keeps ThreadWorker.pause (by rfl) i
      rw [same]
      exact paused.told i alive
  | call k call idle =>
      have calm : ∀ flag left, some (s.beginCall call) ≠ some (.pausing flag left) := by
        intro flag left same
        cases call <;> cases same
      refine ⟨fun j flag left pausing => ?_, fun i alive => ?_⟩
      · exact paused.flag j flag left (callers_of_pausing pausing rfl calm)
      · refine (paused.told i alive).imp_right fun ⟨j, left, pausing, member⟩ => ?_
        have other : j ≠ k := by
          rintro rfl
          cases idle.symm.trans pausing
        exact ⟨j, left, (setCaller_ne _ _ other).trans pausing, member⟩
  | caller k op u op' called step => exact paused.call called step

theorem paused_step {a : Action} (paused : s.Paused) (stepped : s.step a = some t) : t.Paused := by
  have step := step_inv stepped
  obtain ⟨flag, told⟩ := paused.step step
  exact ⟨owned_step paused.owned stepped, awake_step paused.awake stepped, flag,
    fun i alive => told i fun exited => alive (step.exited exited),
    fun i => Step.resting stepped (paused.resting i)⟩

end

/-- What has become of a paused pool in which jobs are only pushed. -/
structure Rests (s t : ThreadPool) : Prop where
  paused : t.Paused
  flag : t.pause = true
  calls : ∀ j op, t.callers j = some op → op.pushing = true
  going : ∀ i, (t.workers i).threadStop = false
  queued : ∀ job, s.jobPool.Queued job ∨ job ∈ t.inserted ∧ job ∉ s.inserted → t.jobPool.Queued job
  hands : ∀ i job, (t.workers i).phase.hand = some job → (s.workers i).phase.hand = some job
  worked : ∃ more, t.worked = s.worked ++ more ∧
    ∀ job ∈ more, ∃ i, (s.workers i).phase.hand = some job

section
variable {s t u : ThreadPool}

theorem Rests.refl (paused : s.Paused) (flag : s.pause = true)
    (calls : ∀ j op, s.callers j = some op → op.pushing = true)
    (going : ∀ i, (s.workers i).threadStop = false) : Rests s s where
  paused := paused
  flag := flag
  calls := calls
  going := going
  queued := fun _ either => either.elim id fun both => absurd both.1 both.2
  hands := fun _ _ hand => hand
  worked := ⟨[], (List.append_nil _).symm, fun _ member => (by cases member)⟩

/-- A live worker of the pool is held. -/
theorem Rests.resting (rests : Rests s t) {i : Nat} (alive : (t.workers i).phase ≠ .exited) :
    (t.workers i).phase.resting = true := by
  refine rests.paused.resting i (ThreadWorker.held_iff.mpr ⟨?_, rests.going i⟩)
  rcases rests.paused.told i alive with same | ⟨j, left, pausing, -⟩
  · exact same.trans rests.flag
  · cases rests.calls j _ pausing

/-- What a push does to the pool that its thread does not do. -/
theorem PushStep.grows {me : Owner} {p : Push} {p' : Option Push} (step : PushStep t me p u p') :
    (∀ i, (u.workers i).threadStop = (t.workers i).threadStop ∧
      (u.workers i).phase.hand = (t.workers i).phase.hand) ∧ u.worked = t.worked ∧
    ∀ job, job ∈ u.inserted ∧ job ∉ t.inserted ∨ t.jobPool.Queued job → u.jobPool.Queued job := by
  refine ⟨fun i => ⟨step.workers ThreadWorker.threadStop (fun _ => rfl) i,
    step.workers (fun w => w.phase.hand) (fun w => Phase.notify_hand _) i⟩, by cases step <;> rfl, ?_⟩
  intro job either
  cases step with
  | inserted priority =>
      rw [JobPool.insert_queued]
      rcases either with ⟨new, fresh⟩ | queued
      · exact .inl (List.mem_singleton.mp ((List.mem_append.mp new).resolve_left fresh))
      · exact .inr queued
  | _ => exact either.elim (fun both => absurd both.1 both.2) id

/-- A step that takes nothing out of the queues and no new job into a hand. -/
theorem Rests.goes (rests : Rests s t) (paused : u.Paused) (flag : u.pause = t.pause)
    (calls : ∀ j op, u.callers j = some op → op.pushing = true)
    (going : ∀ i, (u.workers i).threadStop = false)
    (queued : ∀ job, job ∈ u.inserted ∧ job ∉ t.inserted ∨ t.jobPool.Queued job →
      u.jobPool.Queued job)
    (hands : ∀ i job, (u.workers i).phase.hand = some job → (t.workers i).phase.hand = some job)
    (worked : u.worked = t.worked ∨ ∃ i job, (t.workers i).phase.hand = some job ∧
      u.worked = t.worked ++ [job]) : Rests s u where
  paused := paused
  flag := flag.trans rests.flag
  calls := calls
  going := going
  queued := by
    rintro job (was | ⟨new, fresh⟩)
    · exact queued job (.inr (rests.queued job (.inl was)))
    · by_cases old : job ∈ t.inserted
      · exact queued job (.inr (rests.queued job (.inr ⟨old, fresh⟩)))
      · exact queued job (.inl ⟨new, old⟩)
  hands := fun i job hand => rests.hands i job (hands i job hand)
  worked := by
    obtain ⟨more, same, had⟩ := rests.worked
    rcases worked with still | ⟨i, job, hand, next⟩
    · exact ⟨more, still.trans same, had⟩
    · refine ⟨more ++ [job], by rw [next, same, List.append_assoc], ?_⟩
      rintro other member
      rcases List.mem_append.mp member with old | new
      · exact had other old
      · rw [List.mem_singleton.mp new]
        exact ⟨i, rests.hands i job hand⟩

/-- A worker that has no job in its hand now. -/
theorem Rests.moves (rests : Rests s t) {v : ThreadPool} {i : Nat} {w : ThreadWorker}
    (paused : (v.setWorker i w).Paused) (flag : v.pause = t.pause) (callers : v.callers = t.callers)
    (going : w.threadStop = false) (empty : w.phase.hand = none)
    (others : ∀ k, (v.workers k).threadStop = (t.workers k).threadStop ∧
      (v.workers k).phase.hand = (t.workers k).phase.hand)
    (queued : ∀ job, job ∈ v.inserted ∧ job ∉ t.inserted ∨ t.jobPool.Queued job →
      v.jobPool.Queued job)
    (worked : v.worked = t.worked ∨ ∃ i job, (t.workers i).phase.hand = some job ∧
      v.worked = t.worked ++ [job]) : Rests s (v.setWorker i w) := by
  refine rests.goes paused flag (fun j op called => ?_) (fun k => ?_) queued (fun k job hand => ?_)
    worked
  · exact rests.calls j op (callers ▸ called)
  · by_cases here : k = i
    · rw [here, setWorker_self, going]
    · rw [setWorker_ne _ _ here, (others k).1]
      exact rests.going k
  · by_cases here : k = i
    · rw [here, setWorker_self, empty] at hand
      cases hand
    · rwa [setWorker_ne _ _ here, (others k).2] at hand

theorem rests_step {a : Action} (rests : Rests s t) (pushing : a.pushing = true)
    (stepped : t.step a = some u) : Rests s u := by
  have paused := paused_step rests.paused stepped
  have still : ∀ job, job ∈ t.inserted ∧ job ∉ t.inserted ∨ t.jobPool.Queued job →
      t.jobPool.Queued job := fun _ either => either.elim (fun both => absurd both.1 both.2) id
  cases step_inv stepped with
  | worker i u step =>
      have resting := rests.resting step.live
      cases step with
      | pops job jobPool popping =>
          rw [popping] at resting
          cases resting
      | works job popped =>
          refine rests.moves paused rfl rfl (rests.going i) rfl (fun _ => ⟨rfl, rfl⟩) still
            (.inr ⟨i, job, ?_, rfl⟩)
          rw [popped]
          rfl
      | pushes job p v p' running step =>
          obtain ⟨others, worked, queued⟩ := step.grows
          exact rests.moves paused step.pause.1 step.callers ((others i).1.trans (rests.going i)) rfl
            others queued (.inl worked)
      | moved phase quiet =>
          exact rests.moves paused rfl rfl (rests.going i) (Phase.quiet_hand quiet)
            (fun _ => ⟨rfl, rfl⟩) still (.inl rfl)
      | exits leaving =>
          exact rests.moves paused rfl rfl rfl rfl (fun _ => ⟨rfl, rfl⟩) still (.inl rfl)
      | _ =>
          exact rests.moves paused rfl rfl (rests.going i) rfl (fun _ => ⟨rfl, rfl⟩) still (.inl rfl)
  | push i priority job running =>
      exact rests.moves paused rfl rfl (rests.going i) rfl (fun _ => ⟨rfl, rfl⟩) still (.inl rfl)
  | call j call idle =>
      refine rests.goes paused rfl (fun k op called => ?_) rests.going still (fun _ _ hand => hand)
        (.inl rfl)
      by_cases here : k = j
      · rw [here, setCaller_self] at called
        cases called
        cases call <;> first | rfl | cases pushing
      · rw [setCaller_ne _ _ here] at called
        exact rests.calls k op called
  | caller j op v op' called step =>
      have own := rests.calls j op called
      cases step with
      | pushes p v p' step =>
          obtain ⟨others, worked, queued⟩ := step.grows
          refine rests.goes paused step.pause.1 (fun k op called => ?_)
            (fun k => (others k).1.trans (rests.going k)) queued
            (fun k job hand => (others k).2 ▸ hand) (.inl worked)
          by_cases here : k = j
          · rw [here, setCaller_self] at called
            cases p' <;> cases called
            rfl
          · rw [setCaller_ne _ _ here, step.callers] at called
            exact rests.calls k op called
      | _ => cases own

end

/-- Once the pool is paused and no worker has been told to stop, jobs that are queued or pushed
stay in the queues for as long as nobody calls `pause`, `stop` or `remove_workers`, and only jobs
that a worker had in its hand are still worked. -/
theorem paused_pool_rests {priorities : List (List JobPriorities)} {before after : List Action}
    {s t : ThreadPool} (ran : run step (started priorities) before = some s)
    (paused : s.pause = true) (calls : ∀ j op, s.callers j = some op → op.pushing = true)
    (going : ∀ i, (s.workers i).threadStop = false) (pushing : ∀ a ∈ after, a.pushing = true)
    (ran' : run step s after = some t) :
    (∀ job, s.jobPool.Queued job ∨ job ∈ t.inserted ∧ job ∉ s.inserted → t.jobPool.Queued job) ∧
      ∃ more, t.worked = s.worked ++ more ∧
        ∀ job ∈ more, ∃ i, (s.workers i).phase.hand = some job := by
  have start := run_keeps (fun _ _ _ held stepped => paused_step held stepped)
    (started_paused priorities) ran
  have rests := run_invariant (fun _ _ _ rests allowed stepped => rests_step rests allowed.1 stepped)
    (Rests.refl start paused calls going) ((along_true step s after).and pushing) ran'
  exact ⟨rests.queued, rests.worked⟩

/-- A job is popped, and the pool is paused. -/
def popThenPause : List Action :=
  [.call 0 (.push .high), .caller 0, .caller 0, .caller 0, .caller 0, .caller 0,
    .worker 0, .worker 0, .worker 0, .worker 0, .worker 0, .worker 0, .worker 0,
    .call 1 (.pause true), .caller 1, .caller 1, .caller 1]

/-- Another job is pushed, and the worker goes on. -/
def pushThenWork : List Action :=
  [.call 0 (.push .high), .caller 0, .caller 0, .caller 0, .caller 0, .caller 0,
    .worker 0, .worker 0, .worker 0, .worker 0]

theorem paused_pool_rests_popped :
    ∃ s t, run step (started [[.high]]) popThenPause = some s ∧
      run step s pushThenWork = some t ∧ t.jobPool.Queued ⟨1, .high⟩ := by
  refine ⟨_, _, rfl, rfl, ?_⟩
  refine (@paused_pool_rests [[.high]] popThenPause pushThenWork _ _ rfl rfl ?_ ?_ (by decide) rfl).1
    ⟨1, .high⟩ (.inr (by decide))
  · rintro (_ | _ | j) op called <;> cases called
  · rintro (_ | i) <;> rfl

end ThreadPool
end CppToolkit.Thread
