import CppToolkit.Thread.Lifecycle

/-! What `start` and `stop` of a pool leave behind when a worker in the middle of their loops
refuses. -/
namespace CppToolkit.Thread.Lifecycle
open Futures Machine Visits

namespace ThreadPool

/-- Only worker `i`, its promise and the queues are touched. -/
structure Touched (s t : ThreadPool) (i : Nat) : Prop where
  threadWorkers : t.threadWorkers = s.threadWorkers
  working : t.working = s.working
  lockCondition : t.jobPool.lockCondition = s.jobPool.lockCondition
  others : ∀ j, j ≠ i → t.workers j = s.workers j
  states : ∀ j, j ≠ i → t.promises.states j = s.promises.states j
  priorities : ∀ j, (t.workers j).priorities = (s.workers j).priorities

section
variable {s t u : ThreadPool} {i : Nat}

theorem Touched.refl (s : ThreadPool) (i : Nat) : Touched s s i :=
  ⟨rfl, rfl, rfl, fun _ _ => rfl, fun _ _ => rfl, fun _ => rfl⟩

theorem Touched.trans (first : Touched s t i) (second : Touched t u i) : Touched s u i where
  threadWorkers := second.threadWorkers.trans first.threadWorkers
  working := second.working.trans first.working
  lockCondition := second.lockCondition.trans first.lockCondition
  others := fun j other => (second.others j other).trans (first.others j other)
  states := fun j other => (second.states j other).trans (first.states j other)
  priorities := fun j => (second.priorities j).trans (first.priorities j)

@[simp] theorem setWorker_self (s : ThreadPool) (i : Nat) (w : ThreadWorker) :
    (s.setWorker i w).workers i = w := Function.update_self _ _ _

theorem setWorker_of_ne {j : Nat} (s : ThreadPool) (w : ThreadWorker) (other : j ≠ i) :
    (s.setWorker i w).workers j = s.workers j := Function.update_of_ne other _ _

theorem setWorker_touched {w : ThreadWorker} (same : w.priorities = (s.workers i).priorities) :
    Touched s (s.setWorker i w) i where
  threadWorkers := rfl
  working := rfl
  lockCondition := rfl
  others := fun _ other => setWorker_of_ne s w other
  states := fun _ _ => rfl
  priorities := fun j => by
    by_cases equal : j = i
    · subst j
      rw [setWorker_self, same]
    · rw [setWorker_of_ne s w equal]

theorem clearPriority_lockCondition (priorities : List JobPriorities) (p : JobPool) :
    (priorities.foldl JobPool.clearPriority p).lockCondition = p.lockCondition := by
  induction priorities generalizing p with
  | nil => rfl
  | cons priority rest ih =>
      rw [List.foldl_cons, ih]
      rfl

theorem join_touched (s : ThreadPool) (i : Nat) : Touched s (s.join i) i where
  threadWorkers := rfl
  working := rfl
  lockCondition := clearPriority_lockCondition _ _
  others := fun _ other => setWorker_of_ne _ _ other
  states := fun _ _ => rfl
  priorities := fun j => by
    by_cases equal : j = i
    · subst j
      rw [join, setWorker_self]
    · rw [join, setWorker_of_ne _ _ equal]

theorem stopWorker_ok_iff : (s.stopWorker i).2 = .ok () ↔ (s.workers i).thread = true := by
  unfold stopWorker
  cases (s.workers i).thread <;> simp

theorem stopWorker_refused (idle : (s.workers i).thread = false) :
    s.stopWorker i = (s, .error (.refused "Thread is not running.")) := if_pos idle

/-- Whether it was running or not, the worker has no thread afterwards. -/
theorem stopWorker_thread (s : ThreadPool) (i : Nat) :
    ((s.stopWorker i).1.workers i).thread = false := by
  unfold stopWorker
  split
  next idle => exact idle
  next => rw [join, setWorker_self]

theorem stopWorker_touched (s : ThreadPool) (i : Nat) : Touched s (s.stopWorker i).1 i := by
  unfold stopWorker
  split
  next => exact .refl s i
  next => exact join_touched s i

theorem stopWorker_promises (s : ThreadPool) (i : Nat) :
    (s.stopWorker i).1.promises = s.promises ∧
      (s.stopWorker i).1.threadsCreated = s.threadsCreated := by
  unfold stopWorker
  split <;> exact ⟨rfl, rfl⟩

end

/-- Worker `i` starts if it is asked now. -/
def Ready (creation : Nat → Creation) (s : ThreadPool) (i : Nat) : Prop :=
  (s.workers i).priorities ≠ [] ∧ s.promises.states i = ⟨false, false⟩ ∧
    creation s.threadsCreated = .created

/-- Worker `i` refuses if it is asked now. -/
def Refuses (creation : Nat → Creation) (s : ThreadPool) (i : Nat) : Prop :=
  (s.workers i).priorities = [] ∨
    (s.promises.states i).retrieved = false ∧ creation s.threadsCreated = .badAlloc

/-- What a call of `ThreadWorker::start` comes to. -/
structure Asked (creation : Nat → Creation) (s t : ThreadPool) (i : Nat) (answer : Answer) :
    Prop where
  touched : Touched s t i
  thread : (t.workers i).thread = true ↔ answer = .ok ()
  ready : answer = .ok () ↔ Ready creation s i
  retrieved : answer = .ok () → (t.promises.states i).retrieved = true
  threadsCreated : answer = .ok () → t.threadsCreated = s.threadsCreated + 1
  refuses : (∃ message, answer = .error (.refused message)) ↔ Refuses creation s i

theorem withPromise_touched {s u : ThreadPool} {i : Nat} (touched : Touched s u i)
    (state : SharedState) (threadsCreated : Nat) :
    Touched s { u with promises := s.promises.update i state, threadsCreated } i where
  threadWorkers := touched.threadWorkers
  working := touched.working
  lockCondition := touched.lockCondition
  others := touched.others
  states := fun _ other => Promises.update_of_ne state other
  priorities := touched.priorities

section
variable {creation : Nat → Creation} {s : ThreadPool} {i : Nat}

/-- An attempt that fails or throws behind the call of `get_future`. -/
theorem asked_without_thread {t : ThreadPool} {halt : Halt} (touched : Touched s t i)
    (idle : (t.workers i).thread = false) (listed : (s.workers i).priorities ≠ [])
    (unready : ¬ Ready creation s i)
    (refuses : (∃ message, halt = .refused message) ↔
      (s.promises.states i).retrieved = false ∧ creation s.threadsCreated = .badAlloc) :
    Asked creation s t i (.error halt) where
  touched := touched
  thread := by simp [idle]
  ready := iff_of_false (fun same => by cases same) unready
  retrieved := fun same => by cases same
  threadsCreated := fun same => by cases same
  refuses := by
    rw [Refuses, or_iff_right listed, ← refuses]
    simp

/-- The thread that was created behind the call of `get_future`. -/
theorem runWorker_asked {t : ThreadPool} (touched : Touched s t i)
    (idle : (t.workers i).thread = false) (listed : (s.workers i).priorities ≠ [])
    (retrieved : (s.promises.states i).retrieved = false)
    (created : creation s.threadsCreated = .created)
    (taken : t.promises.states i = { s.promises.states i with retrieved := true })
    (attempted : t.threadsCreated = s.threadsCreated + 1) :
    Asked creation s (t.runWorker i).1 i (t.runWorker i).2 := by
  unfold runWorker
  cases satisfied : (s.promises.states i).satisfied with
  | true =>
      have again : (t.promises.states i).satisfied = true := by rw [taken, satisfied]
      rw [Promises.setValue_again again]
      refine asked_without_thread touched idle listed (fun ready => ?_) (by simp [created])
      rw [ready.2.1] at satisfied
      cases satisfied
  | false =>
      have unset : (t.promises.states i).satisfied = false := by rw [taken, satisfied]
      have fresh : s.promises.states i = ⟨false, false⟩ := by
        cases state : s.promises.states i
        rw [state] at retrieved satisfied
        cases retrieved
        cases satisfied
        rfl
      rw [Promises.setValue_once unset]
      dsimp only
      have set : Touched t { t with
          promises := t.promises.update i { t.promises.states i with satisfied := true } } i :=
        ⟨rfl, rfl, rfl, fun _ _ => rfl, fun _ other => Promises.update_of_ne _ other, fun _ => rfl⟩
      exact {
        touched := (touched.trans set).trans (setWorker_touched rfl)
        thread := by rw [setWorker_self]; simp
        ready := iff_of_true rfl ⟨listed, fresh, created⟩
        retrieved := fun _ => by
          change ((t.promises.update i _).states i).retrieved = true
          rw [Promises.update_self, taken]
        threadsCreated := fun _ => attempted
        refuses := by simp [Refuses, listed, created] }

theorem startWorker_empty (empty : (s.workers i).priorities = []) :
    s.startWorker creation i =
      ((s.stopWorker i).1, .error (.refused "cannot start by empty priorities")) :=
  if_pos (((stopWorker_touched s i).priorities i).trans empty)

/-- The part of `start` behind the test of the priorities, on a worker without a thread. -/
theorem startWorker_listed (listed : (s.workers i).priorities ≠ []) {u : ThreadPool}
    (stopped : u = (s.stopWorker i).1.setWorker i
      { (s.stopWorker i).1.workers i with threadStop := false }) :
    s.startWorker creation i =
      match u.promises.getFuture i with
      | .error error => (u, .error (.thrown (.future error)))
      | .ok promises =>
          let t := { u with promises, threadsCreated := u.threadsCreated + 1 }
          match creation u.threadsCreated with
          | .badAlloc => (t, .error (.refused "Failed to create thread instance."))
          | .systemError => (t, .error (.thrown .system))
          | .created => t.runWorker i := by
  subst stopped
  have listed' : ((s.stopWorker i).1.workers i).priorities ≠ [] := by
    rw [(stopWorker_touched s i).priorities]
    exact listed
  exact if_neg listed'

theorem startWorker_asked (creation : Nat → Creation) (s : ThreadPool) (i : Nat) :
    Asked creation s (s.startWorker creation i).1 i (s.startWorker creation i).2 := by
  by_cases empty : (s.workers i).priorities = []
  · rw [startWorker_empty empty]
    exact {
      touched := stopWorker_touched s i
      thread := by simp [stopWorker_thread]
      ready := by simp [Ready, empty]
      retrieved := fun same => by cases same
      threadsCreated := fun same => by cases same
      refuses := by simp [Refuses, empty] }
  generalize stopped : (s.stopWorker i).1.setWorker i
    { (s.stopWorker i).1.workers i with threadStop := false } = u
  have touched : Touched s u i := by
    rw [← stopped]
    exact (stopWorker_touched s i).trans (setWorker_touched rfl)
  have idle : (u.workers i).thread = false := by
    rw [← stopped, setWorker_self]
    exact stopWorker_thread s i
  have promises : u.promises = s.promises := by
    rw [← stopped]
    exact (stopWorker_promises s i).1
  have attempts : u.threadsCreated = s.threadsCreated := by
    rw [← stopped]
    exact (stopWorker_promises s i).2
  rw [startWorker_listed empty stopped.symm, promises, attempts]
  cases retrieved : (s.promises.states i).retrieved with
  | true =>
      rw [Promises.getFuture_again retrieved]
      refine asked_without_thread touched idle empty (fun ready => ?_) (by simp [retrieved])
      rw [ready.2.1] at retrieved
      cases retrieved
  | false =>
      have taken := withPromise_touched touched
      rw [Promises.getFuture_once retrieved]
      dsimp only
      cases created : creation s.threadsCreated with
      | badAlloc =>
          refine asked_without_thread (taken _ _) idle empty (fun ready => ?_)
            (by simp [retrieved, created])
          rw [ready.2.2] at created
          cases created
      | systemError =>
          refine asked_without_thread (taken _ _) idle empty (fun ready => ?_) (by simp [created])
          rw [ready.2.2] at created
          cases created
      | created =>
          exact runWorker_asked (taken _ _) idle empty retrieved created (Promises.update_self _) rfl

end

/-- The loop of `start` passes these workers one after the other. -/
structure Starts (creation : Nat → Creation) (s : ThreadPool) (front : List Nat) : Prop where
  once : front.Nodup
  fresh : ∀ i ∈ front, (s.workers i).priorities ≠ [] ∧ s.promises.states i = ⟨false, false⟩
  created : ∀ k < front.length, creation (s.threadsCreated + k) = .created

/-- What the loop of `start` has done behind the workers it has passed. -/
structure Started (s t : ThreadPool) (front : List Nat) : Prop where
  threadWorkers : t.threadWorkers = s.threadWorkers
  working : t.working = s.working
  lockCondition : t.jobPool.lockCondition = s.jobPool.lockCondition
  others : ∀ j, j ∉ front → t.workers j = s.workers j
  states : ∀ j, j ∉ front → t.promises.states j = s.promises.states j
  priorities : ∀ j, (t.workers j).priorities = (s.workers j).priorities
  runs : ∀ i ∈ front, (t.workers i).thread = true ∧ (t.promises.states i).retrieved = true
  threadsCreated : t.threadsCreated = s.threadsCreated + front.length

section
variable {creation : Nat → Creation} {s t u : ThreadPool} {i : Nat} {front rest : List Nat}

theorem starts_cons_iff (asked : Asked creation s u i (.ok ())) :
    Starts creation s (i :: rest) ↔ Starts creation u rest := by
  have ready := asked.ready.mp rfl
  have attempts := asked.threadsCreated rfl
  constructor
  · intro starts
    obtain ⟨new, once⟩ := List.nodup_cons.mp starts.once
    refine ⟨once, fun j member => ?_, fun k below => ?_⟩
    · have other : j ≠ i := fun same => new (same ▸ member)
      rw [asked.touched.priorities, asked.touched.states j other]
      exact starts.fresh j (List.mem_cons_of_mem _ member)
    · rw [attempts, Nat.add_assoc, Nat.add_comm 1]
      exact starts.created (k + 1) (Nat.succ_lt_succ below)
  · intro starts
    have new : i ∉ rest := by
      intro member
      have retrieved := asked.retrieved rfl
      rw [(starts.fresh i member).2] at retrieved
      cases retrieved
    refine ⟨List.nodup_cons.mpr ⟨new, starts.once⟩, fun j member => ?_, fun k below => ?_⟩
    · rcases List.mem_cons.mp member with rfl | member
      · exact ⟨ready.1, ready.2.1⟩
      · have other : j ≠ i := fun same => new (same ▸ member)
        rw [← asked.touched.priorities, ← asked.touched.states j other]
        exact starts.fresh j member
    · cases k with
      | zero => exact ready.2.2
      | succ k =>
          have later := starts.created k (Nat.lt_of_succ_lt_succ below)
          rw [attempts, Nat.add_assoc, Nat.add_comm 1] at later
          exact later

theorem asked_of_start (started : s.startWorker creation i = (u, .ok ())) :
    Asked creation s u i (.ok ()) := by
  have asked := startWorker_asked creation s i
  rw [started] at asked
  exact asked

/-- The loop passes exactly the workers that start one after the other. -/
theorem walk_start_iff :
    (∃ t, walk (startWorker creation) front s = (t, .ok ())) ↔ Starts creation s front := by
  induction front generalizing s with
  | nil =>
      refine iff_of_true ⟨s, rfl⟩ ⟨List.nodup_nil, ?_, ?_⟩
      · intro i member
        cases member
      · intro k below
        cases below
  | cons i rest ih =>
      constructor
      · rintro ⟨t, walked⟩
        obtain ⟨u, started, walked⟩ := walk_cons_ok.mp walked
        exact (starts_cons_iff (asked_of_start started)).mpr (ih.mp ⟨t, walked⟩)
      · intro starts
        have ready : Ready creation s i :=
          ⟨(starts.fresh i List.mem_cons_self).1, (starts.fresh i List.mem_cons_self).2,
            starts.created 0 (Nat.succ_pos _)⟩
        have passes := (startWorker_asked creation s i).ready.mpr ready
        have started : s.startWorker creation i = ((s.startWorker creation i).1, .ok ()) :=
          Prod.ext rfl passes
        obtain ⟨t, walked⟩ := ih.mpr ((starts_cons_iff (asked_of_start started)).mp starts)
        exact ⟨t, walk_cons_ok.mpr ⟨_, started, walked⟩⟩

/-- What the loop leaves alone, and that the workers it has passed run. -/
theorem walk_started (walked : walk (startWorker creation) front s = (t, .ok ())) :
    Started s t front := by
  have starts := walk_start_iff.mp ⟨t, walked⟩
  induction front generalizing s with
  | nil =>
      cases walked
      exact ⟨rfl, rfl, rfl, fun _ _ => rfl, fun _ _ => rfl, fun _ => rfl,
        fun _ member => (by cases member), rfl⟩
  | cons i rest ih =>
      obtain ⟨u, started, walked⟩ := walk_cons_ok.mp walked
      have asked := asked_of_start started
      have touched := asked.touched
      have later := ih walked ((starts_cons_iff asked).mp starts)
      have new := (List.nodup_cons.mp starts.once).1
      refine ⟨later.threadWorkers.trans touched.threadWorkers, later.working.trans touched.working,
        later.lockCondition.trans touched.lockCondition, fun j absent => ?_, fun j absent => ?_,
        fun j => (later.priorities j).trans (touched.priorities j), fun j member => ?_, ?_⟩
      · rw [List.mem_cons, not_or] at absent
        exact (later.others j absent.2).trans (touched.others j absent.1)
      · rw [List.mem_cons, not_or] at absent
        exact (later.states j absent.2).trans (touched.states j absent.1)
      · rcases List.mem_cons.mp member with rfl | member
        · rw [later.others j new, later.states j new]
          exact ⟨asked.thread.mpr rfl, asked.retrieved rfl⟩
        · exact later.runs j member
      · rw [later.threadsCreated, asked.threadsCreated rfl, List.length_cons]
        omega

/-- Worker `i` refuses in the loop of `start` once the workers before it run. -/
def RefusesBehind (creation : Nat → Creation) (s : ThreadPool) (front : List Nat) (i : Nat) : Prop :=
  (s.workers i).priorities = [] ∨
    i ∉ front ∧ (s.promises.states i).retrieved = false ∧
      creation (s.threadsCreated + front.length) = .badAlloc

theorem refuses_iff (started : Started s t front) :
    Refuses creation t i ↔ RefusesBehind creation s front i := by
  unfold Refuses RefusesBehind
  rw [started.priorities, started.threadsCreated]
  by_cases member : i ∈ front
  · have retrieved := (started.runs i member).2
    simp [member, retrieved]
  · rw [started.states i member]
    simp [member]

/-- What is left when the loop of `start` returns at worker `i`. -/
structure Halted (s t : ThreadPool) (front : List Nat) (i : Nat) : Prop where
  threadWorkers : t.threadWorkers = s.threadWorkers
  runs : ∀ j ∈ front, j ≠ i → (t.workers j).thread = true
  idle : (t.workers i).thread = false
  others : ∀ j, j ∉ front → j ≠ i → t.workers j = s.workers j

theorem halted_of_asked {halt : Halt} (started : Started s u front)
    (asked : Asked creation u t i (.error halt)) : Halted s t front i where
  threadWorkers := asked.touched.threadWorkers.trans started.threadWorkers
  runs := fun j member other => by
    rw [asked.touched.others j other]
    exact (started.runs j member).1
  idle := by simpa using asked.thread
  others := fun j absent other => (asked.touched.others j other).trans (started.others j absent)

theorem asked_of_halt {halt : Halt} (halts : s.startWorker creation i = (t, .error halt)) :
    Asked creation s t i (.error halt) := by
  have asked := startWorker_asked creation s i
  rw [halts] at asked
  exact asked

/-- A refusal behind workers that start ends the loop. -/
theorem walk_start_halts (back : List Nat) (starts : Starts creation s front)
    (refuses : RefusesBehind creation s front i) :
    ∃ t message, walk (startWorker creation) (front ++ i :: back) s =
      (t, .error (.refused message)) ∧ Halted s t front i := by
  obtain ⟨u, walked⟩ := walk_start_iff.mpr starts
  have started := walk_started walked
  have asked := startWorker_asked creation u i
  obtain ⟨message, answer⟩ := asked.refuses.mpr ((refuses_iff started).mpr refuses)
  have halts : u.startWorker creation i =
      ((u.startWorker creation i).1, .error (.refused message)) := Prod.ext rfl answer
  exact ⟨_, message, walk_eq_error_iff.mpr ⟨front, i, back, u, rfl, walked, halts⟩,
    halted_of_asked started (asked_of_halt halts)⟩

/-- A loop that ended in a refusal has met one behind workers that started. -/
theorem refusal_of_walk {message : String} {ws : List Nat}
    (walked : walk (startWorker creation) ws s = (t, .error (.refused message))) :
    ∃ front i back, ws = front ++ i :: back ∧ Starts creation s front ∧
      RefusesBehind creation s front i ∧ Halted s t front i := by
  obtain ⟨front, i, back, u, split, passed, halts⟩ := walk_eq_error_iff.mp walked
  have started := walk_started passed
  have asked := asked_of_halt halts
  exact ⟨front, i, back, split, walk_start_iff.mp ⟨u, passed⟩,
    (refuses_iff started).mp (asked.refuses.mp ⟨message, rfl⟩), halted_of_asked started asked⟩

end

/-- The workers of the pool, null pointers left out. -/
def listed (s : ThreadPool) : List Nat := s.threadWorkers.reduceOption

/-- No refusal can meet `start` behind a worker that runs. -/
def LeavesNone (creation : Nat → Creation) (s : ThreadPool) : Prop :=
  ∀ front i back, s.listed = front ++ i :: back → Starts creation s front →
    RefusesBehind creation s front i →
      front = [] ∧ ∀ j ∈ back, j ≠ i → (s.workers j).thread = false

theorem leavesNone_iff {creation : Nat → Creation} {s t : ThreadPool} {message : String}
    (walked : walk (startWorker creation) s.listed s = (t, .error (.refused message))) :
    (∀ i ∈ s.listed, (t.workers i).thread = false) ↔ LeavesNone creation s := by
  constructor
  · intro none_ front i back split starts refuses
    obtain ⟨u, _, same, halted⟩ := walk_start_halts back starts refuses
    rw [← split, walked] at same
    cases same
    -- a worker in front of the one that refuses has been left running
    have first : front = [] := by
      refine List.eq_nil_iff_forall_not_mem.mpr fun j member => ?_
      have other : j ≠ i := by
        rintro rfl
        rcases refuses with empty | ⟨absent, _⟩
        · exact (starts.fresh j member).1 empty
        · exact absent member
      have idle := none_ j (split ▸ List.mem_append_left _ member)
      rw [halted.runs j member other] at idle
      cases idle
    refine ⟨first, fun j member other => ?_⟩
    subst first
    rw [← halted.others j List.not_mem_nil other]
    exact none_ j (split ▸ List.mem_cons_of_mem _ member)
  · intro leaves j member
    obtain ⟨front, i, back, split, starts, refuses, halted⟩ := refusal_of_walk walked
    obtain ⟨rfl, behind⟩ := leaves front i back split starts refuses
    by_cases same : j = i
    · rw [same]
      exact halted.idle
    · rw [halted.others j List.not_mem_nil same]
      rw [split, List.nil_append] at member
      exact behind j (List.mem_of_ne_of_mem same member) same

section
variable {s t : ThreadPool} {ws : List Nat}

theorem stopWorker_stays_idle {i j : Nat} (idle : (s.workers j).thread = false) :
    ((s.stopWorker i).1.workers j).thread = false := by
  by_cases same : j = i
  · rw [same]
    exact stopWorker_thread s i
  · rw [(stopWorker_touched s i).others j same]
    exact idle

theorem stopWorker_passes {i : Nat} (runs : (s.workers i).thread = true) :
    s.stopWorker i = ((s.stopWorker i).1, .ok ()) :=
  Prod.ext rfl (stopWorker_ok_iff.mpr runs)

/-- The loop of `stop` passes exactly the workers that run, each of them once. -/
theorem walk_stop_iff : (∃ t, walk stopWorker ws s = (t, .ok ())) ↔
    ws.Nodup ∧ ∀ i ∈ ws, (s.workers i).thread = true := by
  induction ws generalizing s with
  | nil => exact iff_of_true ⟨s, rfl⟩ ⟨List.nodup_nil, fun _ member => (by cases member)⟩
  | cons i rest ih =>
      rw [List.nodup_cons, List.forall_mem_cons]
      constructor
      · rintro ⟨t, walked⟩
        obtain ⟨u, stopped, walked⟩ := walk_cons_ok.mp walked
        have u_eq : u = (s.stopWorker i).1 := by rw [stopped]
        have runs : (s.workers i).thread = true := stopWorker_ok_iff.mp (by rw [stopped])
        obtain ⟨once, others⟩ := ih.mp ⟨t, walked⟩
        rw [u_eq] at others
        have new : i ∉ rest := fun member => by
          have again := others i member
          rw [stopWorker_thread] at again
          cases again
        refine ⟨⟨new, once⟩, runs, fun j member => ?_⟩
        have other : j ≠ i := fun same => new (same ▸ member)
        rw [← (stopWorker_touched s i).others j other]
        exact others j member
      · rintro ⟨⟨new, once⟩, runs, others⟩
        have still : ∀ j ∈ rest, ((s.stopWorker i).1.workers j).thread = true :=
          fun j member => by
            have other : j ≠ i := fun same => new (same ▸ member)
            rw [(stopWorker_touched s i).others j other]
            exact others j member
        obtain ⟨t, walked⟩ := ih.mpr ⟨once, still⟩
        exact ⟨t, walk_cons_ok.mpr ⟨_, stopWorker_passes runs, walked⟩⟩

theorem walk_stop_stays_idle {j : Nat} (ws : List Nat) (idle : (s.workers j).thread = false) :
    ((walk stopWorker ws s).1.workers j).thread = false :=
  walk_keeps (I := fun s : ThreadPool => (s.workers j).thread = false)
    (fun _ _ _ idle => stopWorker_stays_idle idle) idle

theorem walk_stop_idle (walked : walk stopWorker ws s = (t, .ok ())) :
    ∀ i ∈ ws, (t.workers i).thread = false := by
  induction ws generalizing s with
  | nil =>
      intro i member
      cases member
  | cons i rest ih =>
      obtain ⟨u, stopped, walked⟩ := walk_cons_ok.mp walked
      refine List.forall_mem_cons.mpr ⟨?_, ih walked⟩
      have idle := stopWorker_thread s i
      rw [stopped] at idle
      have later := walk_stop_stays_idle rest idle
      rw [walked] at later
      exact later

/-- A worker that does not stop refuses: nothing in the loop of `stop` throws. -/
theorem walk_stop_refused {halt : Halt} (walked : walk stopWorker ws s = (t, .error halt)) :
    halt = .refused "Thread is not running." := by
  obtain ⟨_, i, _, u, _, _, halts⟩ := walk_eq_error_iff.mp walked
  cases thread : (u.workers i).thread with
  | false =>
      rw [stopWorker_refused thread] at halts
      cases halts
      rfl
  | true =>
      rw [stopWorker_passes thread] at halts
      cases halts

end

/-- What a call of `start` leaves behind, by its answer. -/
def StartAllOrNothing (s : ThreadPool) (creation : Nat → Creation) : Prop :=
  match s.start creation with
  | (t, .ok ()) => t.working = true ∧ ∀ i ∈ t.listed, (t.workers i).thread = true
  | (t, .error (.refused _)) => s.working = false → ∀ i ∈ t.listed, (t.workers i).thread = false
  | (_, .error (.thrown _)) => True

/-- What a call of `stop` leaves behind, by its answer. -/
def StopAllOrNothing (s : ThreadPool) (immediately : Bool) : Prop :=
  match s.stop immediately with
  | (t, .ok ()) => t.jobPool.lockCondition = false ∧ t.working = false ∧
      ∀ i ∈ t.listed, (t.workers i).thread = false
  | (t, .error (.refused _)) => s.working = true → t.jobPool.lockCondition = false ∧
      ∀ i, (t.workers i).thread = (s.workers i).thread
  | (_, .error (.thrown _)) => True

def AllOrNothing (creation : Nat → Creation) (s : ThreadPool) : Call → Prop
  | .start => s.StartAllOrNothing creation
  | .stop immediately => s.StopAllOrNothing immediately
  | _ => True

/-- Before a call: no refusal will come in the middle of its loop. -/
def Unrefused (creation : Nat → Creation) (s : ThreadPool) : Call → Prop
  | .start => s.working = false → LeavesNone creation s
  | .stop _ => s.working = true → s.listed.Nodup ∧ ∀ i ∈ s.listed, (s.workers i).thread = true
  | _ => True

section
variable {creation : Nat → Creation} {s t : ThreadPool}

theorem start_of_working (working : s.working = true) :
    s.start creation = (s, .error (.refused "already started")) := if_pos working

theorem stop_of_stopped (stopped : s.working = false) (immediately : Bool) :
    s.stop immediately = (s, .error (.refused "not started")) := if_pos stopped

theorem start_eq (stopped : s.working = false) : s.start creation =
    match walk (startWorker creation) s.listed s with
    | (t, .error halt) => (t, .error halt)
    | (t, .ok ()) => ({ t with working := true }, .ok ()) := by
  rw [listed, ← walk_unlessNull]
  exact if_neg (by simp [stopped])

/-- Unless the loop of `start` ends in a refusal, it has met none. -/
theorem leavesNone_of_walk {reply : Answer}
    (walked : walk (startWorker creation) s.listed s = (t, reply))
    (passes : ∀ message, reply ≠ .error (.refused message)) : LeavesNone creation s := by
  intro front i back split starts refuses
  obtain ⟨u, message, same, _⟩ := walk_start_halts back starts refuses
  rw [← split, walked] at same
  exact absurd (congrArg Prod.snd same) (passes message)

theorem start_iff :
    s.StartAllOrNothing creation ↔ (s.working = false → LeavesNone creation s) := by
  unfold StartAllOrNothing
  cases working : s.working with
  | true =>
      rw [start_of_working working]
      exact iff_of_true (fun stopped => by cases stopped) fun stopped => by cases stopped
  | false =>
      rw [start_eq working]
      cases walked : walk (startWorker creation) s.listed s with
      | mk t reply =>
          cases reply with
          | ok =>
              refine iff_of_true ⟨rfl, fun i member => ?_⟩
                fun _ => leavesNone_of_walk walked fun _ same => by cases same
              have started := walk_started walked
              have member : i ∈ s.listed := by
                rw [listed, ← started.threadWorkers]
                exact member
              exact (started.runs i member).1
          | error halt =>
              cases halt with
              | thrown =>
                  exact iff_of_true trivial
                    fun _ => leavesNone_of_walk walked fun _ same => by cases same
              | refused =>
                  obtain ⟨_, _, _, _, _, _, halted⟩ := refusal_of_walk walked
                  have same : t.listed = s.listed := congrArg List.reduceOption halted.threadWorkers
                  dsimp only
                  rw [same, leavesNone_iff walked]

/-- The pool at the loop of `stop`. -/
def locked (s : ThreadPool) (immediately : Bool) : ThreadPool :=
  let jobPool := s.jobPool.lock true
  { s with jobPool := if immediately then jobPool.clear else jobPool }

theorem locked_lock (s : ThreadPool) (immediately : Bool) :
    (s.locked immediately).jobPool.lockCondition = true := by
  cases immediately <;> rfl

theorem stop_eq (started : s.working = true) (immediately : Bool) : s.stop immediately =
    match walk stopWorker s.listed (s.locked immediately) with
    | (t, .error halt) => (t, .error halt)
    | (t, .ok ()) => ({ t with jobPool := t.jobPool.lock false, working := false }, .ok ()) := by
  rw [listed, ← walk_unlessNull]
  exact if_neg (by simp [started])

theorem stop_iff {immediately : Bool} : s.StopAllOrNothing immediately ↔
    (s.working = true → s.listed.Nodup ∧ ∀ i ∈ s.listed, (s.workers i).thread = true) := by
  unfold StopAllOrNothing
  cases working : s.working with
  | false =>
      rw [stop_of_stopped working]
      exact iff_of_true (fun started => by cases started) fun started => by cases started
  | true =>
      rw [stop_eq working]
      cases walked : walk stopWorker s.listed (s.locked immediately) with
      | mk t reply =>
          cases reply with
          | ok =>
              refine iff_of_true ⟨rfl, rfl, fun i member => ?_⟩
                fun _ => (walk_stop_iff (s := s.locked immediately)).mp ⟨t, walked⟩
              have same : t.threadWorkers = s.threadWorkers := by
                have kept := walk_fixes (f := threadWorkers)
                  (fun t i => (stopWorker_touched t i).threadWorkers) s.listed (s.locked immediately)
                rwa [walked] at kept
              have member : i ∈ s.listed := by
                rw [listed, ← same]
                exact member
              exact walk_stop_idle walked i member
          | error halt =>
              rw [walk_stop_refused walked]
              have left : t.jobPool.lockCondition = true := by
                have kept := walk_fixes (f := fun t => t.jobPool.lockCondition)
                  (fun t i => (stopWorker_touched t i).lockCondition) s.listed
                  (s.locked immediately)
                rwa [walked, locked_lock] at kept
              refine iff_of_false (fun unlocked => ?_) fun unrefused => ?_
              · rw [(unlocked rfl).1] at left
                cases left
              · obtain ⟨u, passed⟩ :=
                  (walk_stop_iff (s := s.locked immediately)).mpr (unrefused rfl)
                have both := walked.symm.trans passed
                cases both

end

theorem allOrNothing_iff {creation : Nat → Creation} {s : ThreadPool} {c : Call} :
    AllOrNothing creation s c ↔ Unrefused creation s c := by
  cases c with
  | start => exact start_iff
  | stop => exact stop_iff
  | pushJob | pushWorker | removeWorkers | pause | work => exact Iff.rfl

/-- Along a run, `start` and `stop` are all or nothing exactly if no refusal meets them in the
middle of their loops. -/
theorem allOrNothing_along_iff (creation : Nat → Creation) (s : ThreadPool) (calls : List Call) :
    Along (step creation) (AllOrNothing creation) s calls ↔
      Along (step creation) (Unrefused creation) s calls :=
  ⟨.mono fun _ _ => allOrNothing_iff.mp, .mono fun _ _ => allOrNothing_iff.mpr⟩

/-- One worker has a priority, the other has none. -/
def oneEmpty (i : Nat) : ThreadWorker := .initial (if i = 0 then [.normal] else [])

/-- The first worker is left running by a `start` that returns false; a pool that has been started
before the other worker came is left locked by a `stop` that returns false. -/
theorem start_and_stop_not_allOrNothing :
    ¬ Along (step fun _ => .created) (AllOrNothing fun _ => .created) (initial oneEmpty)
        [.pushWorker (some 0), .pushWorker (some 1), .start] ∧
      ¬ Along (step fun _ => .created) (AllOrNothing fun _ => .created) (initial oneEmpty)
        [.pushWorker (some 0), .start, .pushWorker (some 1), .stop false] := by
  constructor
  · intro along
    have left := ((along.2 _ rfl).2 _ rfl).1
    have idle := left rfl 0 (by decide)
    exact absurd idle (by decide)
  · intro along
    have left := (((along.2 _ rfl).2 _ rfl).2 _ rfl).1
    have unlocked := (left rfl).1
    exact absurd unlocked (by decide)

end ThreadPool
end CppToolkit.Thread.Lifecycle
