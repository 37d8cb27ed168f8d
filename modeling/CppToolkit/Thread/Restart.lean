import CppToolkit.Thread.StartStop

/-! Starting a pool again. The promise of a worker is used by its first start and never renewed. -/
namespace CppToolkit.Thread.Lifecycle
open Futures Machine Visits

/-- The calls that leave the list of workers alone. -/
def Call.Controls : Call → Prop
  | .pushWorker _ | .removeWorkers _ => False
  | _ => True

namespace ThreadPool

/-- The call does not throw, and if it starts a stopped pool it returns true with every worker
running. -/
def Restartable (creation : Nat → Creation) (s : ThreadPool) (c : Call) : Prop :=
  (∀ exception, (s.call creation c).2 ≠ .error (.thrown exception)) ∧
    (c = .start → s.working = false →
      (s.call creation c).2 = .ok () ∧
        ∀ i ∈ s.listed, ((s.call creation c).1.workers i).thread = true)

/-- What a start looks at is as it was. -/
structure Kept (s t : ThreadPool) : Prop where
  threadWorkers : t.threadWorkers = s.threadWorkers
  working : t.working = s.working
  promises : t.promises = s.promises
  threadsCreated : t.threadsCreated = s.threadsCreated
  priorities : ∀ i, (t.workers i).priorities = (s.workers i).priorities
  thread : ∀ i, (t.workers i).thread = (s.workers i).thread

/-- The call starts a stopped pool or stops a working one. -/
def Turns (s : ThreadPool) : Call → Prop
  | .start => s.working = false
  | .stop _ => s.working = true
  | _ => False

section
variable {creation : Nat → Creation} {s t : ThreadPool} {c : Call} {calls rest : List Call}

theorem Kept.refl (s : ThreadPool) : Kept s s :=
  ⟨rfl, rfl, rfl, rfl, fun _ => rfl, fun _ => rfl⟩

theorem Kept.listed (kept : Kept s t) : t.listed = s.listed :=
  congrArg List.reduceOption kept.threadWorkers

theorem setPause_kept (s : ThreadPool) (pause : Bool) : Kept s (s.setPause pause) where
  threadWorkers := rfl
  working := rfl
  promises := rfl
  threadsCreated := rfl
  priorities := fun i => by
    unfold setPause
    dsimp only
    split <;> rfl
  thread := fun i => by
    unfold setPause
    dsimp only
    split <;> rfl

theorem work_kept (s : ThreadPool) (i : Nat) : Kept s (s.work i) := by
  unfold work
  dsimp only
  split
  next => exact .refl s
  next =>
    split
    next => exact .refl s
    next => exact ⟨rfl, rfl, rfl, rfl, fun _ => rfl, fun _ => rfl⟩

theorem pushJob_kept (s : ThreadPool) (job : Job) : Kept s (s.pushJob job).1 := by
  unfold pushJob
  split
  next => exact .refl s
  next => exact ⟨rfl, rfl, rfl, rfl, fun _ => rfl, fun _ => rfl⟩

theorem pushJob_not_thrown (s : ThreadPool) (job : Job) (exception : Exception) :
    (s.pushJob job).2 ≠ .error (.thrown exception) := by
  unfold pushJob
  split <;> simp

theorem not_turns (stopped : s.working = false) (other : c ≠ .start) : ¬ s.Turns c := by
  cases c with
  | start => exact absurd rfl other
  | stop => simp [Turns, stopped]
  | pushJob | pushWorker | removeWorkers | pause | work => exact id

/-- A call that does not turn the pool keeps what a start looks at. -/
theorem unturned (creation : Nat → Creation) (controls : c.Controls) (same : ¬ s.Turns c) :
    Kept s (s.call creation c).1 ∧ Restartable creation s c := by
  cases c with
  | pushWorker => exact controls.elim
  | removeWorkers => exact controls.elim
  | pushJob job =>
      exact ⟨pushJob_kept s job, pushJob_not_thrown s job, fun same => by cases same⟩
  | pause pause =>
      exact ⟨setPause_kept s pause, fun _ same => (by cases same), fun same => by cases same⟩
  | work i => exact ⟨work_kept s i, fun _ same => (by cases same), fun same => by cases same⟩
  | start =>
      have working : s.working = true := Bool.eq_true_of_not_eq_false same
      have refused : s.call creation .start = (s, .error (.refused "already started")) :=
        start_of_working working
      unfold Restartable
      rw [refused]
      exact ⟨.refl s, fun _ same => (by cases same), fun _ stopped => absurd stopped same⟩
  | stop immediately =>
      have stopped : s.working = false := Bool.eq_false_of_not_eq_true same
      have refused : s.call creation (.stop immediately) = (s, .error (.refused "not started")) :=
        stop_of_stopped stopped immediately
      unfold Restartable
      rw [refused]
      exact ⟨.refl s, fun _ same => (by cases same), fun same => by cases same⟩

theorem along_cons_iff {ok : ThreadPool → Call → Prop} :
    Along (step creation) ok s (c :: rest) ↔
      ok s c ∧ Along (step creation) ok (s.call creation c).1 rest :=
  ⟨fun along => ⟨along.1, along.2 _ rfl⟩, fun both => .cons rfl both.1 both.2⟩

/-- A start of a stopped pool returns true exactly if its loop passes all workers. -/
theorem start_ok_iff (stopped : s.working = false) :
    (s.start creation).2 = .ok () ↔ Starts creation s s.listed := by
  rw [start_eq stopped, ← walk_start_iff]
  cases walked : walk (startWorker creation) s.listed s with
  | mk t reply =>
      cases reply with
      | ok => exact iff_of_true rfl ⟨t, rfl⟩
      | error halt =>
          refine iff_of_false (fun same => by cases same) ?_
          rintro ⟨u, same⟩
          cases same

theorem start_started (stopped : s.working = false) (starts : Starts creation s s.listed) :
    ∃ t, s.call creation .start = ({ t with working := true }, .ok ()) ∧
      Started s t s.listed := by
  obtain ⟨t, walked⟩ := walk_start_iff.mpr starts
  exact ⟨t, by rw [call, start_eq stopped, walked], walk_started walked⟩

theorem restartable_start_iff (stopped : s.working = false) :
    Restartable creation s .start ↔ Starts creation s s.listed := by
  constructor
  · intro restartable
    exact (start_ok_iff stopped).mp (restartable.2 rfl stopped).1
  · intro starts
    obtain ⟨t, started, all⟩ := start_started stopped starts
    unfold Restartable
    rw [started]
    exact ⟨fun _ same => (by cases same), fun _ _ => ⟨rfl, fun i member => (all.runs i member).1⟩⟩

theorem stop_not_thrown (s : ThreadPool) (immediately : Bool) (exception : Exception) :
    (s.stop immediately).2 ≠ .error (.thrown exception) := by
  cases working : s.working with
  | false =>
      rw [stop_of_stopped working]
      simp
  | true =>
      rw [stop_eq working]
      cases walked : walk stopWorker s.listed (s.locked immediately) with
      | mk t reply =>
          cases reply with
          | ok => simp
          | error halt =>
              rw [walk_stop_refused walked]
              simp

theorem restartable_stop (s : ThreadPool) (immediately : Bool) :
    Restartable creation s (.stop immediately) :=
  ⟨stop_not_thrown s immediately, fun same => by cases same⟩

/-- A pool whose workers all run stops, and its promises are the old ones. -/
theorem stop_stops (started : s.working = true) (once : s.listed.Nodup)
    (runs : ∀ i ∈ s.listed, (s.workers i).thread = true) (immediately : Bool) :
    (s.stop immediately).1.working = false ∧ (s.stop immediately).1.listed = s.listed ∧
      (s.stop immediately).1.promises = s.promises := by
  obtain ⟨t, walked⟩ := (walk_stop_iff (s := s.locked immediately)).mpr ⟨once, runs⟩
  have kept := walk_fixes (f := fun t => (t.threadWorkers, t.promises))
    (fun t i => Prod.ext (stopWorker_touched t i).threadWorkers (stopWorker_promises t i).1)
    s.listed (s.locked immediately)
  rw [walked] at kept
  obtain ⟨threadWorkers, promises⟩ := Prod.ext_iff.mp kept
  rw [stop_eq started, walked]
  exact ⟨rfl, congrArg List.reduceOption threadWorkers, promises⟩

/-- A stopped pool with a worker that has run before: no further start. -/
theorem along_used_iff {i : Nat} (only : ∀ c ∈ calls, c.Controls) (stopped : s.working = false)
    (member : i ∈ s.listed) (used : (s.promises.states i).retrieved = true) :
    Along (step creation) (Restartable creation) s calls ↔ .start ∉ calls := by
  induction calls generalizing s with
  | nil => exact iff_of_true trivial List.not_mem_nil
  | cons c rest ih =>
      rw [List.forall_mem_cons] at only
      rw [along_cons_iff, List.mem_cons, not_or]
      by_cases start : c = .start
      · subst c
        refine iff_of_false (fun along => ?_) fun absent => absent.1 rfl
        have starts := (restartable_start_iff stopped).mp along.1
        rw [(starts.fresh i member).2] at used
        cases used
      · obtain ⟨kept, restartable⟩ := unturned creation only.1 (not_turns stopped start)
        rw [ih only.2 (kept.working.trans stopped) (kept.listed ▸ member)
          (kept.promises ▸ used)]
        exact and_congr (iff_of_true restartable fun other => start other.symm) Iff.rfl

/-- A working pool whose workers all run: no start after a stop. -/
theorem along_working_iff {i : Nat} (only : ∀ c ∈ calls, c.Controls) (working : s.working = true)
    (once : s.listed.Nodup) (runs : ∀ i ∈ s.listed, (s.workers i).thread = true)
    (member : i ∈ s.listed) (used : (s.promises.states i).retrieved = true) :
    Along (step creation) (Restartable creation) s calls ↔
      ∀ immediately, ¬ List.Sublist [.stop immediately, .start] calls := by
  induction calls generalizing s with
  | nil => exact iff_of_true trivial fun _ sublist => by cases sublist
  | cons c rest ih =>
      rw [List.forall_mem_cons] at only
      rw [along_cons_iff]
      by_cases turns : s.Turns c
      · cases c with
        | start =>
            have stopped : s.working = false := turns
            rw [working] at stopped
            cases stopped
        | stop immediately =>
            obtain ⟨stopped, listed, promises⟩ := stop_stops working once runs immediately
            have later : Along (step creation) (Restartable creation) _ rest ↔ _ :=
              along_used_iff only.2 stopped (listed ▸ member) (promises ▸ used)
            refine (and_iff_right (restartable_stop s immediately)).trans (later.trans ?_)
            constructor
            · intro absent other sublist
              rcases List.cons_sublist_cons'.mp sublist with later | ⟨_, later⟩
              · exact absent (later.subset (List.mem_cons_of_mem _ List.mem_cons_self))
              · exact absent (List.singleton_sublist.mp later)
            · intro none_ start
              exact none_ immediately
                (List.cons_sublist_cons.mpr (List.singleton_sublist.mpr start))
        | pushJob | pushWorker | removeWorkers | pause | work => exact turns.elim
      · obtain ⟨kept, restartable⟩ := unturned creation only.1 turns
        rw [and_iff_right restartable, ih only.2 (kept.working.trans working)
          (kept.listed ▸ once)
          (fun j member => (kept.thread j).trans (runs j (kept.listed ▸ member)))
          (kept.listed ▸ member) (kept.promises ▸ used)]
        refine forall_congr' fun immediately => not_congr ?_
        rw [List.cons_sublist_cons', or_iff_left]
        rintro ⟨rfl, _⟩
        exact turns working

/-- Without workers, there is no promise that a start could use. -/
theorem along_without_workers (only : ∀ c ∈ calls, c.Controls) (empty : s.listed = []) :
    Along (step creation) (Restartable creation) s calls := by
  induction calls generalizing s with
  | nil => trivial
  | cons c rest ih =>
      rw [List.forall_mem_cons] at only
      rw [along_cons_iff]
      by_cases turns : s.Turns c
      · cases c with
        | start =>
            have starts : Starts creation s s.listed := by
              rw [empty]
              exact walk_start_iff.mp ⟨s, rfl⟩
            obtain ⟨t, started, all⟩ := start_started turns starts
            refine ⟨(restartable_start_iff turns).mpr starts, ih only.2 ?_⟩
            rw [started]
            exact (congrArg List.reduceOption all.threadWorkers).trans empty
        | stop immediately =>
            have once : s.listed.Nodup := empty ▸ List.nodup_nil
            have runs : ∀ i ∈ s.listed, (s.workers i).thread = true := by simp [empty]
            obtain ⟨_, listed, _⟩ := stop_stops turns once runs immediately
            exact ⟨restartable_stop s immediately, ih only.2 (listed.trans empty)⟩
        | pushJob | pushWorker | removeWorkers | pause | work => exact turns.elim
      · obtain ⟨kept, restartable⟩ := unturned creation only.1 turns
        exact ⟨restartable, ih only.2 (kept.listed.trans empty)⟩

theorem starts_iff_of_kept (kept : Kept s t) :
    Starts creation t t.listed ↔ Starts creation s s.listed := by
  have fresh : ∀ i, ((t.workers i).priorities ≠ [] ∧ t.promises.states i = ⟨false, false⟩) ↔
      ((s.workers i).priorities ≠ [] ∧ s.promises.states i = ⟨false, false⟩) := fun i => by
    rw [kept.priorities, kept.promises]
  rw [kept.listed]
  constructor
  · intro starts
    exact ⟨starts.once, fun i member => (fresh i).mp (starts.fresh i member),
      kept.threadsCreated ▸ starts.created⟩
  · intro starts
    exact ⟨starts.once, fun i member => (fresh i).mpr (starts.fresh i member),
      kept.threadsCreated ▸ starts.created⟩

/-- A stopped pool with a worker can be started once at most. -/
theorem along_with_workers_iff {i : Nat} (only : ∀ c ∈ calls, c.Controls)
    (stopped : s.working = false) (member : i ∈ s.listed) :
    Along (step creation) (Restartable creation) s calls ↔
      .start ∉ calls ∨ Starts creation s s.listed ∧
        ∀ immediately, ¬ List.Sublist [.start, .stop immediately, .start] calls := by
  induction calls generalizing s with
  | nil => exact iff_of_true trivial (.inl List.not_mem_nil)
  | cons c rest ih =>
      rw [List.forall_mem_cons] at only
      rw [along_cons_iff]
      by_cases start : c = .start
      · subst c
        rw [or_iff_right (not_not_intro List.mem_cons_self), restartable_start_iff stopped]
        refine and_congr_right fun starts => ?_
        -- the pool works from here on, with the promises of all its workers used
        obtain ⟨t, started, all⟩ := start_started stopped starts
        have listed : t.listed = s.listed := congrArg List.reduceOption all.threadWorkers
        have running :
            Along (step creation) (Restartable creation) { t with working := true } rest ↔ _ :=
          along_working_iff only.2 rfl (listed ▸ starts.once)
            (fun j member => (all.runs j (listed ▸ member)).1) (listed ▸ member)
            (all.runs i member).2
        rw [started, running]
        exact forall_congr' fun _ => not_congr List.cons_sublist_cons.symm
      · obtain ⟨kept, restartable⟩ := unturned creation only.1 (not_turns stopped start)
        rw [and_iff_right restartable, ih only.2 (kept.working.trans stopped)
          (kept.listed ▸ member), starts_iff_of_kept kept]
        have absent : .start ∉ c :: rest ↔ .start ∉ rest := by
          rw [List.mem_cons, not_or]
          exact and_iff_right fun same => start same.symm
        rw [absent]
        refine or_congr_right (and_congr_right fun _ => forall_congr' fun _ => not_congr ?_)
        rw [List.cons_sublist_cons', or_iff_left fun both => start both.1.symm]

end

/-- A stopped pool can be started as often as wanted if it has no worker, and once otherwise. -/
theorem restartable_along_iff (creation : Nat → Creation) (s : ThreadPool) (calls : List Call)
    (only : ∀ c ∈ calls, c.Controls) (stopped : s.working = false) :
    Along (step creation) (Restartable creation) s calls ↔
      s.listed = [] ∨ .start ∉ calls ∨ Starts creation s s.listed ∧
        ∀ immediately, ¬ List.Sublist [.start, .stop immediately, .start] calls := by
  cases listed : s.listed with
  | nil => exact iff_of_true (along_without_workers only listed) (.inl rfl)
  | cons i rest =>
      rw [or_iff_right (List.cons_ne_nil i rest), ← listed]
      exact along_with_workers_iff only stopped (listed ▸ List.mem_cons_self)

/-- One worker with the priority `normal`. -/
def oneWorker : ThreadPool :=
  ((initial fun _ => .initial [.normal]).call (fun _ => .created) (.pushWorker (some 0))).1

theorem restartable_along_oneWorker :
    Along (step fun _ => .created) (Restartable fun _ => .created) oneWorker
      [.start, .pushJob ⟨7, .normal⟩, .stop false] := by
  refine (restartable_along_iff (fun _ => .created) oneWorker _ (by simp [Call.Controls]) rfl).mpr
    (.inr (.inr ⟨⟨by decide, ?_, fun _ _ => rfl⟩, fun immediately => ?_⟩))
  · intro i member
    have first : i = 0 := List.mem_singleton.mp member
    subst i
    exact ⟨by decide, rfl⟩
  · cases immediately <;> decide

/-- The second start of the only worker throws. -/
theorem oneWorker_not_restartable :
    ¬ Along (step fun _ => .created) (Restartable fun _ => .created) oneWorker
      [.start, .pushJob ⟨7, .normal⟩, .stop false, .start] := by
  intro along
  have again := ((((along.2 _ rfl).2 _ rfl).2 _ rfl).1).1
  exact again (.future .futureAlreadyRetrieved) rfl

end ThreadPool
end CppToolkit.Thread.Lifecycle
