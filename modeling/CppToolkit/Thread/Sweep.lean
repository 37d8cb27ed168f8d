import CppToolkit.Thread.Control

/-! What `stop` has worked off when it returns. A worker leaves its loop behind a count of
its queues, or because a `pop` found nothing before the stop flag was set. -/
namespace CppToolkit.Thread

namespace ThreadPool

/-- Some worker of the pool lists the priority of the job. -/
def Served (s : ThreadPool) (job : Job) : Prop :=
  ∃ i ∈ s.threadWorkers, job.priority ∈ (s.workers i).priorities

/-- When a worker that is being stopped leaves although its last `pop` was before the stop
flag, each queued job that `stop` found accepted and that it serves is served by another
worker that has not left. -/
def Relieved (s : ThreadPool) : Action → Prop
  | .worker i =>
      match (s.workers i).phase with
      | .popped none => (s.workers i).threadStop = true → ∀ j before left,
          s.callers j = some (.joining (.stop before) i left) → ∀ job ∈ before,
            s.jobPool.Queued job → job.priority ∈ (s.workers i).priorities →
              ∃ k ∈ s.threadWorkers, k ≠ i ∧ job.priority ∈ (s.workers k).priorities ∧
                (s.workers k).phase.left = false
      | _ => True
  | _ => True

def Known (s : ThreadPool) (jobs : List Job) : Prop := ∀ job ∈ jobs, job ∈ s.inserted

/-- The loop of `stop` with the workers still to be stopped and the one being joined: a
queued job is served by a worker that has not left, or the loop is going to fail. -/
structure Sweep (s : ThreadPool) (before : List Job) (left : List Nat) (current : Option Nat) :
    Prop where
  known : s.Known before
  covered : ∀ job ∈ before, s.jobPool.Queued job → s.Served job →
    (∃ i ∈ s.threadWorkers, job.priority ∈ (s.workers i).priorities ∧
      (s.workers i).phase.left = false) ∨ ∃ i ∈ left, (s.workers i).thread = false
  done : ∀ i ∈ s.threadWorkers, i ∈ left ∨ (s.workers i).thread = false ∨ current = some i

/-- A count of zero has found no such job in the queues behind it. -/
def Counted (s : ThreadPool) (i : Nat) (before : List Job) : Prop :=
  ∀ left, (s.workers i).phase = .stopCounting left 0 → ∀ job ∈ before,
    job.priority ∈ (s.workers i).priorities → job.priority ∉ left → ¬ s.jobPool.Queued job

def Finished (s : ThreadPool) (before : List Job) : Prop :=
  ∀ job ∈ before, s.Served job → job ∈ s.worked

def GoodPush (s : ThreadPool) : Push → Prop
  | .waiting job => job ∈ s.inserted
  | .notifying job _ => job ∈ s.inserted
  | _ => True

def Good (s : ThreadPool) : Operation → Prop
  | .push p => s.GoodPush p
  | .stop _ before => s.Known before
  | .stopTest _ before => s.Known before
  | .stopLocked _ before => s.Known before
  | .next (.stop before) left => s.Sweep before left none
  | .halting (.stop before) i left => s.Sweep before (i :: left) none
  | .joining (.stop before) i left => s.Sweep before left (some i) ∧ s.Counted i before
  | .stopped before => s.Known before ∧ s.Finished before
  | _ => True

structure Draining (s : ThreadPool) : Prop where
  controlled : s.Controlled
  placed : s.Placed
  accepted : s.Known s.accepted
  pushing : ∀ i p, (s.workers i).phase.push = some p → s.GoodPush p
  calls : ∀ j op, s.callers j = some op → s.Good op
  stops : ∀ stopped ∈ s.stops, stopped.error = none →
    s.Known stopped.before ∧ s.Finished stopped.before

theorem started_draining (priorities : List (List JobPriorities)) :
    (started priorities).Draining where
  controlled := started_controlled priorities
  placed := started_placed priorities
  accepted := fun _ member => by cases member
  pushing := fun i p pushing => by
    rcases started_worker priorities i with ⟨_, list, is⟩ | ⟨_, is⟩ <;>
    · rw [is] at pushing
      cases pushing
  calls := fun _ _ called => by cases called
  stops := fun _ member => by cases member

/-- What every step without a clear and without a removal keeps. -/
structure Later (s t : ThreadPool) : Prop where
  threadWorkers : t.threadWorkers = s.threadWorkers
  priorities : ∀ i, (t.workers i).priorities = (s.workers i).priorities
  thread : ∀ i, (s.workers i).thread = false → (t.workers i).thread = false
  queued : ∀ job ∈ s.inserted, t.jobPool.Queued job → s.jobPool.Queued job
  inserted : ∀ job ∈ s.inserted, job ∈ t.inserted
  worked : ∀ job ∈ s.worked, job ∈ t.worked

section
variable {s t : ThreadPool}

theorem Later.served (later : Later s t) {job : Job} : t.Served job ↔ s.Served job := by
  simp only [Served, later.threadWorkers, later.priorities]

theorem Later.known (later : Later s t) {jobs : List Job} (known : s.Known jobs) : t.Known jobs :=
  fun job member => later.inserted job (known job member)

theorem Later.finished (later : Later s t) {before : List Job} (finished : s.Finished before) :
    t.Finished before :=
  fun job member served => later.worked job (finished job member (later.served.mp served))

theorem Later.goodPush (later : Later s t) {p : Push} (good : s.GoodPush p) : t.GoodPush p := by
  cases p with
  | waiting job => exact later.inserted job good
  | notifying job left => exact later.inserted job good
  | _ => trivial

/-- The loop of `stop` goes on if whoever leaves is relieved. -/
theorem Sweep.later {before : List Job} {left : List Nat} {current : Option Nat}
    (sweep : s.Sweep before left current) (later : Later s t)
    (relieved : ∀ job ∈ before, s.jobPool.Queued job → ∀ i ∈ s.threadWorkers,
      job.priority ∈ (s.workers i).priorities → (s.workers i).phase.left = false →
        ∃ k ∈ s.threadWorkers, job.priority ∈ (s.workers k).priorities ∧
          (t.workers k).phase.left = false) :
    t.Sweep before left current where
  known := later.known sweep.known
  covered := fun job member queued served => by
    simp only [later.threadWorkers, later.priorities]
    have was := later.queued job (sweep.known job member) queued
    rcases sweep.covered job member was (later.served.mp served) with
      ⟨i, inside, serves, stays⟩ | ⟨i, inside, absent⟩
    · exact .inl (relieved job member was i inside serves stays)
    · exact .inr ⟨i, inside, later.thread i absent⟩
  done := fun i inside => by
    rw [later.threadWorkers] at inside
    exact (sweep.done i inside).imp id (Or.imp (later.thread i) id)

theorem Counted.later {i : Nat} {before : List Job} (counted : s.Counted i before)
    (known : s.Known before) (later : Later s t)
    (same : ∀ left, (t.workers i).phase = .stopCounting left 0 →
      (s.workers i).phase = .stopCounting left 0) : t.Counted i before := by
  intro left counting job member serves outside queued
  rw [later.priorities] at serves
  exact counted left (same left counting) job member serves outside
    (later.queued job (known job member) queued)

/-- What is good about a call stays so where its sweep stays. -/
theorem Later.goodOf (later : Later s t) {op : Operation}
    (sweeps : ∀ {before left current}, op.holds = true →
      (∀ loop k left, op = .joining loop k left → loop = .stop before ∧ s.Counted k before) →
        s.Sweep before left current → t.Sweep before left current)
    (counts : ∀ {k before}, s.Known before → s.Counted k before → t.Counted k before)
    (good : s.Good op) : t.Good op := by
  cases op with
  | push p => exact later.goodPush good
  | stop immediately before => exact later.known good
  | stopTest immediately before => exact later.known good
  | stopLocked immediately before => exact later.known good
  | stopped before => exact ⟨later.known good.1, later.finished good.2⟩
  | next loop left =>
      cases loop with
      | stop before => exact sweeps rfl (fun _ _ _ same => by cases same) good
      | remove priority removed => trivial
  | halting loop k left =>
      cases loop with
      | stop before => exact sweeps rfl (fun _ _ _ same => by cases same) good
      | remove priority removed => trivial
  | joining loop k left =>
      cases loop with
      | stop before =>
          refine ⟨sweeps rfl ?_ good.1, counts good.1.known good.2⟩
          intro loop k left same
          cases same
          exact ⟨rfl, good.2⟩
      | remove priority removed => trivial
  | _ => trivial

/-- Nobody leaves or counts in a step of a caller. -/
theorem Later.good (later : Later s t)
    (leaves : ∀ i, (t.workers i).phase.left = (s.workers i).phase.left)
    (counts : ∀ i left, (t.workers i).phase = .stopCounting left 0 →
      (s.workers i).phase = .stopCounting left 0) {op : Operation} (good : s.Good op) :
    t.Good op := by
  refine later.goodOf ?_ (fun known counted => counted.later known later (counts _)) good
  intro before left current _ _ sweep
  exact sweep.later later fun _ _ _ i inside serves stays =>
    ⟨i, inside, serves, (leaves i).trans stays⟩

theorem Later.setCaller (s : ThreadPool) (j : Nat) (op : Option Operation) :
    Later s (s.setCaller j op) :=
  ⟨rfl, fun _ => rfl, fun _ absent => absent, fun _ _ queued => queued, fun _ member => member,
    fun _ member => member⟩

theorem Later.setPhase (s : ThreadPool) (i : Nat) (phase : Phase) : Later s (s.setPhase i phase) :=
  have thread : ∀ k, ((s.setPhase i phase).workers k).thread = (s.workers k).thread :=
    setWorker_keeps (fun w => w.thread) rfl
  ⟨rfl, setWorker_keeps (fun w => w.priorities) rfl, fun k absent => (thread k).trans absent,
    fun _ _ queued => queued, fun _ member => member, fun _ member => member⟩

theorem Later.trans {u : ThreadPool} (one : Later s t) (two : Later t u) : Later s u :=
  ⟨two.threadWorkers.trans one.threadWorkers,
    fun i => (two.priorities i).trans (one.priorities i),
    fun i absent => two.thread i (one.thread i absent),
    fun job member queued => one.queued job member (two.queued job (one.inserted job member) queued),
    fun job member => two.inserted job (one.inserted job member),
    fun job member => two.worked job (one.worked job member)⟩

theorem PushStep.later (placed : s.Placed) {me : Owner} {p : Push} {p' : Option Push}
    (step : PushStep s me p t p') : Later s t := by
  have priorities := step.workers (fun w => w.priorities) fun _ => rfl
  have thread := step.workers (fun w => w.thread) fun _ => rfl
  have threads : ∀ i, (s.workers i).thread = false → (t.workers i).thread = false :=
    fun i absent => (thread i).trans absent
  cases step with
  | inserted priority =>
      refine ⟨rfl, priorities, threads, ?_,
        fun job member => List.mem_append_left _ member, fun _ member => member⟩
      intro job member queued
      rcases JobPool.insert_queued.mp queued with rfl | old
      · exact absurd (placed.numbered _ member) (Nat.lt_irrefl _)
      · exact old
  | _ =>
      exact ⟨rfl, priorities, threads, fun _ _ queued => queued, fun _ member => member,
        fun _ member => member⟩

theorem PushStep.good {me : Owner} {p : Push} {p' : Option Push}
    (step : PushStep s me p t p') (good : s.GoodPush p) : ∀ q, p' = some q → t.GoodPush q := by
  intro q same
  cases step with
  | inserted priority =>
      cases same
      exact List.mem_append_right _ (List.mem_singleton_self _)
  | acquired job free =>
      cases same
      exact good
  | skipped job i left =>
      cases same
      exact good
  | notified job i left =>
      cases same
      exact good
  | tested priority =>
      cases same
      trivial
  | _ => cases same

theorem WorkerStep.later (placed : s.Placed) {i : Nat} (step : WorkerStep s i t) : Later s t := by
  cases step with
  | pops job jobPool popping popped =>
      refine Later.trans ?_ (.setPhase _ i _)
      exact ⟨rfl, fun _ => rfl, fun _ absent => absent,
        fun other _ queued => ((JobPool.pop_queued placed.distinct popped other).mp queued).1,
        fun _ member => member, fun _ member => member⟩
  | works job popped =>
      refine Later.trans ?_ (.setPhase _ i _)
      exact ⟨rfl, fun _ => rfl, fun _ absent => absent, fun _ _ queued => queued,
        fun _ member => member, fun _ member => List.mem_append_left _ member⟩
  | pushes job p u p' running step => exact (step.later placed).trans (.setPhase _ i _)
  | exits leaving =>
      have thread : ∀ k, ((s.setWorker i { s.workers i with threadStop := false, phase := .exited
          }).workers k).thread = (s.workers k).thread := setWorker_keeps (fun w => w.thread) rfl
      exact ⟨rfl, setWorker_keeps (fun w => w.priorities) rfl, fun k absent => (thread k).trans absent,
        fun _ _ queued => queued, fun _ member => member, fun _ member => member⟩
  | _ => exact .setPhase _ i _

theorem CallerStep.later (placed : s.Placed) {j : Nat} {op : Operation} {op' : Option Operation}
    (plain : op.plain = true) (step : CallerStep s j op t op') : Later s t := by
  have workers : ∀ i w, w.priorities = (s.workers i).priorities →
      ((s.workers i).thread = false → w.thread = false) → Later s (s.setWorker i w) := by
    intro i w priorities thread
    refine ⟨rfl, setWorker_keeps (fun w => w.priorities) priorities, ?_,
      fun _ _ queued => queued, fun _ member => member, fun _ member => member⟩
    intro k absent
    by_cases here : k = i
    · rw [here, setWorker_self]
      exact thread (here ▸ absent)
    · rwa [setWorker_ne _ _ here]
  cases step with
  | pushes p t p' step => exact step.later placed
  | paused flag i left => exact workers i _ rfl id
  | halts loop i left => exact workers i _ rfl id
  | joins loop i left => exact workers i _ rfl fun _ => rfl
  | clearsAll => cases plain
  | clears => cases plain
  | removeBody => cases plain
  | removeEnds => cases plain
  | _ =>
      exact ⟨rfl, fun _ => rfl, fun _ absent => absent, fun _ _ queued => queued,
        fun _ member => member, fun _ member => member⟩

/-- The two ways out of the loop. -/
theorem WorkerStep.leaves {i k : Nat} (step : WorkerStep s i t)
    (stays : (s.workers k).phase.left = false) (gone : (t.workers k).phase.left = true) :
    k = i ∧ ((s.workers i).phase = .stopCounting [] 0 ∨
      ((s.workers i).phase = .popped none ∧ (s.workers i).threadStop = true)) := by
  by_cases here : k = i
  · subst here
    refine ⟨rfl, ?_⟩
    cases step with
    | drained counting => exact .inl counting
    | breaks nothing stop => exact .inr ⟨nothing, stop⟩
    | moved phase quiet =>
        rw [setPhase_self] at gone
        cases (Phase.quiet_left quiet).symm.trans gone
    | exits leaving =>
        rw [leaving] at stays
        cases stays
    | _ =>
        rw [setPhase_self] at gone
        cases gone
  · rcases step.other here with same | ⟨_, same⟩
    · rw [same, stays] at gone
      cases gone
    · rw [same, ThreadWorker.notify, Phase.notify_left, stays] at gone
      cases gone

/-- Only a worker that is being joined by a running `stop` has its stop flag set. -/
theorem Controlled.joiner (controlled : s.Controlled) {i j : Nat} {op : Operation}
    (stop : (s.workers i).threadStop = true) (called : s.callers j = some op)
    (held : op.holds = true) : ∃ before left, op = .joining (.stop before) i left := by
  obtain ⟨j', loop, left, joining⟩ := (controlled.tame i).stop stop
  have one := controlled.owned (.caller j) (by rw [holds, called]; exact held)
  have two := controlled.owned (.caller j') (by rw [holds, joining]; rfl)
  cases one.symm.trans two
  cases called.symm.trans joining
  have plain := controlled.plain j _ called
  cases loop with
  | stop before => exact ⟨before, left, rfl⟩
  | remove priority removed => cases plain

/-- Whoever leaves is relieved: a count has found nothing to do, or the run sees to it. -/
theorem leaves_relieved (controlled : s.Controlled) {i j : Nat} (relieved : s.Relieved (.worker i))
    (step : WorkerStep s i t) {op : Operation} (called : s.callers j = some op)
    (held : op.holds = true) {before : List Job}
    (counted : ∀ loop left, op = .joining loop i left → loop = .stop before ∧ s.Counted i before) :
    ∀ job ∈ before, s.jobPool.Queued job → ∀ k ∈ s.threadWorkers,
      job.priority ∈ (s.workers k).priorities → (s.workers k).phase.left = false →
        ∃ k' ∈ s.threadWorkers, job.priority ∈ (s.workers k').priorities ∧
          (t.workers k').phase.left = false := by
  intro job member queued k inside serves stays
  by_cases gone : (t.workers k).phase.left = true
  · obtain ⟨rfl, counting | ⟨nothing, stop⟩⟩ := step.leaves stays gone
    · have stop := (controlled.tame k).counting _ _ counting
      obtain ⟨_, left, joining⟩ := controlled.joiner stop called held
      exact absurd queued ((counted _ left joining).2 [] counting job member serves List.not_mem_nil)
    · obtain ⟨_, left, joining⟩ := controlled.joiner stop called held
      obtain ⟨same, _⟩ := counted _ left joining
      cases same
      simp only [Relieved, nothing] at relieved
      obtain ⟨k', inside', other, serves', stays'⟩ :=
        relieved stop j before left (joining ▸ called) job member queued serves
      refine ⟨k', inside', serves', eq_false_of_ne_true ?_⟩
      intro gone'
      exact other (step.leaves stays' gone').1
  · exact ⟨k, inside, serves, eq_false_of_ne_true gone⟩

/-- The count goes on to be right. -/
theorem WorkerStep.counted {i k : Nat} {before : List Job} (step : WorkerStep s i t)
    (later : Later s t) (known : s.Known before) (counted : s.Counted k before) :
    t.Counted k before := by
  by_cases here : k = i
  · subst here
    intro left counting job member serves outside queued
    rw [later.priorities] at serves
    have was := later.queued job (known job member) queued
    cases step with
    | starts stop test =>
        rw [setPhase_self] at counting
        unfold ThreadWorker.hasJob at counting
        split at counting
        next nobody =>
          rw [nobody] at serves
          cases serves
        next =>
          cases counting
          exact outside serves
    | counts priority rest count at_ =>
        rw [setPhase_self] at counting
        obtain ⟨rfl, zero⟩ := Phase.stopCounting.inj counting
        obtain ⟨rfl, empty⟩ := Nat.add_eq_zero_iff.mp zero
        by_cases same : job.priority = priority
        · rw [JobPool.Queued, same, List.eq_nil_of_length_eq_zero empty] at was
          cases was
        · refine counted _ at_ job member serves ?_ was
          intro inside
          exact (List.mem_cons.mp inside).elim same outside
    | moved phase quiet =>
        rw [setPhase_self] at counting
        change phase = _ at counting
        rw [counting] at quiet
        cases quiet
    | exits =>
        rw [setWorker_self] at counting
        cases counting
    | _ =>
        rw [setPhase_self] at counting
        cases counting
  · apply counted.later known later
    intro left counting
    rcases step.other here with same | ⟨_, same⟩
    · exact same ▸ counting
    · rw [same] at counting
      exact Phase.notify_counting counting

theorem WorkerStep.good (draining : s.Draining) {i : Nat} (relieved : s.Relieved (.worker i))
    (step : WorkerStep s i t) {j : Nat} {op : Operation} (called : s.callers j = some op) :
    t.Good op := by
  have later := step.later draining.placed
  refine later.goodOf ?_ (fun known counted => step.counted later known counted)
    (draining.calls j op called)
  intro before left current held counted sweep
  exact sweep.later later (leaves_relieved draining.controlled relieved step called held
    fun loop left => counted loop i left)

/-- A call of `stop` starts its loop: a worker that serves a job and has left has no thread. -/
theorem Controlled.sweep (controlled : s.Controlled) {j : Nat} {before : List Job}
    (called : s.callers j = some (.stopLocked false before)) (known : s.Known before) :
    s.Sweep before s.threadWorkers none where
  known := known
  covered := fun job _ _ served => by
    obtain ⟨i, inside, serves⟩ := served
    by_cases gone : (s.workers i).phase.left = true
    · refine .inr ⟨i, inside, eq_false_of_ne_true ?_⟩
      intro thread
      obtain ⟨j', loop, left, joining⟩ := (controlled.tame i).left thread gone
      have one := controlled.owned (.caller j) (by rw [holds, called]; rfl)
      have two := controlled.owned (.caller j') (by rw [holds, joining]; rfl)
      cases one.symm.trans two
      cases called.symm.trans joining
    · exact .inl ⟨i, inside, serves, eq_false_of_ne_true gone⟩
  done := fun _ inside => .inl inside

/-- Behind the last join every job is worked: no worker is left to have it in hand, and one
that serves it would have to be left for it to be queued. -/
theorem Sweep.finished (controlled : s.Controlled) (placed : s.Placed) {before : List Job}
    (sweep : s.Sweep before [] none) : s.Finished before := by
  have exited : ∀ i, (s.workers i).phase = .exited := by
    intro i
    by_cases inside : i ∈ s.threadWorkers
    · rcases sweep.done i inside with member | absent | current
      · cases member
      · exact (controlled.tame i).absent absent
      · cases current
    · exact controlled.outside i inside
  intro job member served
  obtain ⟨place, at_⟩ := placed.kept job (sweep.known job member)
  cases place with
  | queue =>
      rcases sweep.covered job member at_ served with ⟨i, _, _, stays⟩ | ⟨i, none_, _⟩
      · rw [exited i] at stays
        cases stays
      · cases none_
  | hand i =>
      rw [At, exited i] at at_
      cases at_
  | worked => exact at_

/-- A sweep that goes one worker on, when the step keeps every worker in its loop. -/
theorem Sweep.moved {before : List Job} {left left' : List Nat}
    {current current' : Option Nat} (sweep : s.Sweep before left current) (later : Later s t)
    (leaves : ∀ i, (t.workers i).phase.left = (s.workers i).phase.left)
    (absent : ∀ i ∈ left, (t.workers i).thread = false → i ∈ left')
    (done : ∀ i ∈ s.threadWorkers, i ∈ left ∨ current = some i →
      i ∈ left' ∨ (t.workers i).thread = false ∨ current' = some i) :
    t.Sweep before left' current' := by
  have kept := sweep.later later fun _ _ _ i inside serves stays =>
    ⟨i, inside, serves, (leaves i).trans stays⟩
  refine ⟨kept.known, ?_, ?_⟩
  · intro job member queued served
    refine (kept.covered job member queued served).imp id ?_
    rintro ⟨i, inside, none_⟩
    exact ⟨i, absent i inside none_, none_⟩
  · intro i inside
    rw [later.threadWorkers] at inside
    rcases sweep.done i inside with member | none_ | current
    · exact done i inside (.inl member)
    · exact .inr (.inl (later.thread i none_))
    · exact done i inside (.inr current)

theorem CallerStep.good (draining : s.Draining) {j : Nat} {op : Operation} {op' : Option Operation}
    (called : s.callers j = some op) (step : CallerStep s j op t op') :
    ∀ next, op' = some next → t.Good next := by
  intro next same
  have good := draining.calls j op called
  have plain := draining.controlled.plain j op called
  have later := step.later draining.placed plain
  have leaves := step.phases Phase.left Phase.notify_left
  cases step with
  | pushes p t p' step =>
      cases p' with
      | none => cases same
      | some q =>
          cases same
          exact step.good good q rfl
  | stops =>
      cases same
      exact good
  | locks =>
      cases same
      exact good
  | loops before =>
      cases same
      exact draining.controlled.sweep called good
  | stopBody before i left =>
      cases same
      exact good
  | stopEnds before =>
      cases same
      exact ⟨later.known good.known,
        later.finished (Sweep.finished draining.controlled draining.placed good)⟩
  | halts loop i left present free =>
      cases loop with
      | remove priority removed => cases plain
      | stop before =>
          cases same
          refine ⟨good.moved later leaves ?_ ?_, ?_⟩
          · intro k inside absent
            refine (List.mem_cons.mp inside).resolve_left ?_
            rintro rfl
            rw [setWorker_self] at absent
            cases present.symm.trans absent
          · intro k _ inside
            rcases inside with inside | none_
            · exact (List.mem_cons.mp inside).elim (fun same => .inr (.inr (congrArg some same.symm))) .inl
            · cases none_
          · intro left' counting
            rw [setWorker_self] at counting
            rw [ThreadWorker.locked, Phase.notify_counting counting] at free
            cases free
  | joins loop i left exited =>
      cases loop with
      | remove priority removed => cases plain
      | stop before =>
          cases same
          apply good.1.moved later leaves fun k inside _ => inside
          intro k _ inside
          rcases inside with inside | current
          · exact .inl inside
          · cases current
            rw [setWorker_self]
            exact .inr (.inl rfl)
  | clearsAll => cases plain
  | clears => cases plain
  | removes => cases plain
  | removeBody => cases plain
  | removeSkips => cases plain
  | pauses =>
      cases same
      trivial
  | paused =>
      cases same
      trivial
  | _ => cases same

/-- What a call of `stop` returns. -/
theorem CallerStep.stopped (draining : s.Draining) {j : Nat} {op : Operation} {op' : Option Operation}
    (called : s.callers j = some op) (step : CallerStep s j op t op') :
    ∀ stopped ∈ t.stops, stopped.error = none →
      s.Known stopped.before ∧ s.Finished stopped.before := by
  intro stopped member success
  have old : stopped ∈ s.stops → s.Known stopped.before ∧ s.Finished stopped.before :=
    fun member => draining.stops stopped member success
  have new : ∀ {error before}, stopped ∈ s.stops ++ [Stopped.mk error before] →
      (error = none → s.Known before ∧ s.Finished before) →
        s.Known stopped.before ∧ s.Finished stopped.before := by
    intro error before member fine
    rcases List.mem_append.mp member with before_ | last
    · exact old before_
    · cases List.mem_singleton.mp last
      exact fine success
  cases step with
  | pushes p t p' step =>
      apply old
      cases step <;> exact member
  | notStarted immediately before => exact new member nofun
  | stopRefused before => exact new member nofun
  | stopReturns before => exact new member fun _ => draining.calls j _ called
  | _ => exact old member

theorem accepted_later {me : Owner} {p : Push} {p' : Option Push} (step : PushStep s me p t p')
    (later : Later s t) (good : s.GoodPush p) (accepted : s.Known s.accepted) :
    t.Known t.accepted := by
  cases step with
  | returned job =>
      intro other member
      rcases List.mem_append.mp member with old | last
      · exact accepted other old
      · rw [List.mem_singleton.mp last]
        exact good
  | _ => exact later.known accepted

end
end ThreadPool
end CppToolkit.Thread
