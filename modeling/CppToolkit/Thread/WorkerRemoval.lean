import CppToolkit.Thread.StartStop

/-! What `remove_workers` takes out of a pool, with a predicate that rewrites and stops the workers
it is asked about. -/
namespace CppToolkit.Thread.Lifecycle
open RemoveIf

namespace ThreadWorker

/-- The priority list contains nothing but `priority`. -/
def onlyHas (w : ThreadWorker) (priority : JobPriorities) : Bool :=
  w.priorities.all fun target => target = priority

/-- A worker that `remove_workers` has been asked about: a thread that has no priority left is
joined. -/
def without (w : ThreadWorker) (priority : JobPriorities) : ThreadWorker :=
  let rest := { w with priorities := w.priorities.filter fun target => !decide (target = priority) }
  if rest.priorities = [] ∧ w.thread = true then { rest with thread := false, threadStop := false }
  else rest

section
variable {w : ThreadWorker} {priority : JobPriorities}

theorem onlyHas_iff : w.onlyHas priority = true ↔
    (w.priorities.filter fun target => !decide (target = priority)) = [] := by
  unfold onlyHas
  rw [List.filter_eq_nil_iff]
  simp

theorem without_priorities (w : ThreadWorker) (priority : JobPriorities) :
    (w.without priority).priorities =
      w.priorities.filter fun target => !decide (target = priority) := by
  unfold without
  dsimp only
  split <;> rfl

theorem without_thread (w : ThreadWorker) (priority : JobPriorities) :
    (w.without priority).thread = (!w.onlyHas priority && w.thread) := by
  cases only : w.onlyHas priority with
  | true =>
      unfold without
      cases thread : w.thread <;> simp [onlyHas_iff.mp only]
  | false =>
      have left : ¬ (w.priorities.filter fun target => !decide (target = priority)) = [] := by
        rw [← onlyHas_iff, only]
        exact Bool.false_ne_true
      unfold without
      rw [if_neg fun both => left both.1]
      rfl

/-- The other members of a worker that stays. -/
theorem without_of_other (other : w.onlyHas priority = false) : w.without priority =
    { w with priorities := w.priorities.filter fun target => !decide (target = priority) } := by
  refine if_neg fun both => ?_
  rw [onlyHas_iff.mpr both.1] at other
  cases other

/-- Whether it is asked again makes no difference. -/
theorem without_without (w : ThreadWorker) (priority : JobPriorities) :
    (w.without priority).without priority = w.without priority := by
  have same : ((w.without priority).priorities.filter fun target => !decide (target = priority)) =
      (w.without priority).priorities := by
    rw [without_priorities, List.filter_filter]
    simp
  cases only : w.onlyHas priority with
  | true =>
      have thread : (w.without priority).thread = false := by rw [without_thread, only]; rfl
      rw [without, same, if_neg fun both => by rw [thread] at both; cases both.2]
  | false =>
      have again : (w.without priority).onlyHas priority = false := by
        rw [Bool.eq_false_iff, Ne, onlyHas_iff, same, without_priorities, ← onlyHas_iff, only]
        exact Bool.false_ne_true
      rw [without_of_other again, same]

theorem onlyHas_without (w : ThreadWorker) (priority : JobPriorities) :
    (w.without priority).onlyHas priority = w.onlyHas priority := by
  rw [Bool.eq_iff_iff, onlyHas_iff, onlyHas_iff, without_priorities, List.filter_filter]
  simp

end

end ThreadWorker

namespace ThreadPool

/-- A worker whose priority list contains nothing but `priority`. -/
def leaves (priority : JobPriorities) (s : ThreadPool) : Option Nat → Bool
  | none => false
  | some i => (s.workers i).onlyHas priority

section
variable {priority : JobPriorities} {s : ThreadPool} {i : Nat}

theorem setWorker_setWorker (v w : ThreadWorker) :
    (s.setWorker i v).setWorker i w = s.setWorker i w := by
  unfold setWorker
  dsimp only
  rw [Function.update_idem]

/-- A thread without priorities works nothing off when it is joined. -/
theorem stopWorker_without_priorities (empty : (s.workers i).priorities = [])
    (runs : (s.workers i).thread = true) :
    (s.stopWorker i).1 = s.setWorker i { s.workers i with thread := false, threadStop := false } := by
  have joined : s.stopWorker i = (s.join i, .ok ()) := if_neg (by simp [runs])
  have drained : (s.workers i).priorities.foldl JobPool.clearPriority s.jobPool = s.jobPool := by
    rw [empty]
    rfl
  rw [joined]
  unfold join
  dsimp only
  rw [drained]

/-- What the predicate answers, and what it does to the worker it is asked about. -/
theorem losesPriority_some (priority : JobPriorities) (s : ThreadPool) (i : Nat) :
    losesPriority priority s (some i) =
      (s.setWorker i ((s.workers i).without priority), (s.workers i).onlyHas priority) := by
  unfold losesPriority
  dsimp only
  rw [removeIf_stateless]
  cases only : (s.workers i).onlyHas priority with
  | false =>
      have some_ : (s.workers i).priorities.filter (fun a => !decide (a = priority)) ≠ [] := by
        rw [Ne, ← ThreadWorker.onlyHas_iff, only]
        exact Bool.false_ne_true
      rw [if_pos some_, ThreadWorker.without_of_other only]
  | true =>
      have none_ := ThreadWorker.onlyHas_iff.mp only
      rw [if_neg (not_not_intro none_), ThreadWorker.without]
      dsimp only
      cases thread : (s.workers i).thread with
      | false =>
          rw [stopWorker_refused (by rw [setWorker_self]), if_neg (by simp)]
      | true =>
          rw [stopWorker_without_priorities (by rw [setWorker_self, none_])
            (by rw [setWorker_self]), setWorker_self, setWorker_setWorker, if_pos ⟨none_, rfl⟩]

/-- The pool once the predicate has been asked about these entries. -/
def asked (priority : JobPriorities) (entries : List (Option Nat)) (s : ThreadPool) : ThreadPool :=
  { s with
    workers := fun j =>
      if entries.contains (some j) then (s.workers j).without priority else s.workers j }

theorem asked_of_mem {entries : List (Option Nat)} (member : some i ∈ entries) :
    (asked priority entries s).workers i = (s.workers i).without priority :=
  if_pos (List.contains_iff_mem.mpr member)

theorem asked_of_not_mem {entries : List (Option Nat)} (absent : some i ∉ entries) :
    (asked priority entries s).workers i = s.workers i :=
  if_neg fun member => absent (List.contains_iff_mem.mp member)

theorem losesPriority_asked (priority : JobPriorities) (s : ThreadPool) (entry : Option Nat)
    (rest : List (Option Nat)) :
    asked priority rest (losesPriority priority s entry).1 = asked priority (entry :: rest) s := by
  cases entry with
  | none => simp [losesPriority, asked]
  | some i =>
      rw [losesPriority_some]
      unfold asked setWorker
      congr 1
      funext j
      dsimp only
      by_cases same : j = i
      · subst j
        rw [Function.update_self, List.contains_cons, beq_self_eq_true, Bool.true_or, if_pos rfl]
        split
        next => exact ThreadWorker.without_without _ _
        next => rfl
      · have other : (some j == some i) = false := by simp [same]
        rw [Function.update_of_ne same, List.contains_cons, other, Bool.false_or]

theorem foldl_asked (priority : JobPriorities) (entries : List (Option Nat)) (s : ThreadPool) :
    entries.foldl (fun s entry => (losesPriority priority s entry).1) s =
      asked priority entries s := by
  induction entries generalizing s with
  | nil => simp [asked]
  | cons entry rest ih => rw [List.foldl_cons, ih, losesPriority_asked]

/-- Which workers leave does not depend on who has been asked already. -/
def SameLeaves (priority : JobPriorities) (s t : ThreadPool) : Prop :=
  ∀ j, (t.workers j).onlyHas priority = (s.workers j).onlyHas priority

theorem losesPriority_sameLeaves {t : ThreadPool} (entry : Option Nat)
    (same : SameLeaves priority s t) : SameLeaves priority s (losesPriority priority t entry).1 := by
  intro j
  rw [← same j]
  cases entry with
  | none => rfl
  | some i =>
      rw [losesPriority_some]
      by_cases equal : j = i
      · subst j
        rw [setWorker_self, ThreadWorker.onlyHas_without]
      · rw [setWorker_of_ne _ _ equal]

theorem losesPriority_answer {t : ThreadPool} (entry : Option Nat)
    (same : SameLeaves priority s t) :
    (losesPriority priority t entry).2 = leaves priority s entry := by
  cases entry with
  | none => rfl
  | some i =>
      rw [losesPriority_some]
      exact same i

end

/-- The whole effect of `remove_workers`. -/
theorem removeWorkers_eq (s : ThreadPool) (priority : JobPriorities) :
    s.removeWorkers priority =
      let count := s.threadWorkers.countP (leaves priority s)
      ({ asked priority s.threadWorkers s with
          jobPool := s.jobPool.clearPriority priority
          threadWorkers := s.threadWorkers.filter fun entry => !leaves priority s entry },
        count, if count = 0 then some "no worker to remove" else none) := by
  obtain ⟨gap, same, length⟩ := @removeIf_spec _ _ (losesPriority priority) (fun _ => none)
    (leaves priority s) (SameLeaves priority s) s.threadWorkers
    (fun _ entry _ => losesPriority_sameLeaves entry) (fun _ entry _ => losesPriority_answer entry)
    { s with jobPool := s.jobPool.clearPriority priority } (fun _ => rfl) [] []
  rw [foldl_asked, List.nil_append] at same
  rw [List.length_nil, Nat.zero_add] at length
  unfold removeWorkers
  dsimp only
  rw [same]
  dsimp only
  rw [← length]
  split
  next none_ =>
    rw [List.length_eq_zero_iff.mp none_, List.append_nil]
    rfl
  next => rfl

/-- What a removal of the workers of a priority leaves, with its answer. -/
structure RemovedExactly (priority : JobPriorities) (s t : ThreadPool) (count : Nat)
    (error : Option String) : Prop where
  threadWorkers : t.threadWorkers = s.threadWorkers.filter fun entry => !leaves priority s entry
  counted : count = s.threadWorkers.countP (leaves priority s)
  succeeds : error = none ↔ count ≠ 0
  stopped : ∀ i, some i ∈ s.threadWorkers → leaves priority s (some i) = true →
    (t.workers i).thread = false
  kept : ∀ i, some i ∈ s.threadWorkers → leaves priority s (some i) = false →
    t.workers i = { s.workers i with
      priorities := (s.workers i).priorities.filter fun target => target ≠ priority }
  others : ∀ i, some i ∉ s.threadWorkers → t.workers i = s.workers i
  queue : t.jobPool.jobQueues priority = []
  queues : ∀ other, other ≠ priority → t.jobPool.jobQueues other = s.jobPool.jobQueues other

/-- `remove_workers` takes out and stops exactly the workers whose priority lists contain nothing
but the priority. -/
theorem removeWorkers_exact (s : ThreadPool) (priority : JobPriorities) :
    RemovedExactly priority s (s.removeWorkers priority).1 (s.removeWorkers priority).2.1
      (s.removeWorkers priority).2.2 := by
  rw [removeWorkers_eq]
  exact {
    threadWorkers := rfl
    counted := rfl
    succeeds := by
      dsimp only
      split <;> simp [*]
    stopped := fun i member only => by
      have only : (s.workers i).onlyHas priority = true := only
      change ((asked priority s.threadWorkers s).workers i).thread = false
      rw [asked_of_mem member, ThreadWorker.without_thread, only]
      rfl
    kept := fun i member other => by
      change (asked priority s.threadWorkers s).workers i = _
      rw [asked_of_mem member, ThreadWorker.without_of_other other]
      simp
    others := fun i absent => asked_of_not_mem absent
    queue := JobPool.setQueue_self _ _ _
    queues := fun other different => JobPool.setQueue_ne _ _ different }

/-- Null pointers stay, and a worker listed twice counts twice. -/
example :
    let s : ThreadPool := { initial fun i => .initial (if i = 0 then [.low] else [.low, .normal])
      with threadWorkers := [none, some 0, some 1, some 0, none] }
    ((s.removeWorkers .low).1.threadWorkers, (s.removeWorkers .low).2.1) =
      ([none, some 1, none], 2) := by decide

end ThreadPool
end CppToolkit.Thread.Lifecycle
