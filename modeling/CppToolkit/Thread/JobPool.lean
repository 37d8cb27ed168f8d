import CppToolkit.Thread.JobPriorities
import Mathlib.Logic.Function.Basic

/-! The queues behind a thread pool, one for each priority, and the flag that refuses new
jobs. Each critical section of its mutex is one operation. -/
namespace CppToolkit.Thread

/-- A job, known by its pointer. -/
@[ext] structure Job where
  id : Nat
  priority : JobPriorities
  deriving DecidableEq, Repr

/-- A queue holds the pointers of jobs of its own priority. -/
@[ext] structure JobPool where
  lockCondition : Bool
  jobQueues : JobPriorities → List Nat

namespace JobPool

def empty : JobPool := ⟨false, fun _ => []⟩

def setQueue (p : JobPool) (priority : JobPriorities) (queue : List Nat) : JobPool :=
  { p with jobQueues := Function.update p.jobQueues priority queue }

/-- The critical section of `push`. -/
def insert (p : JobPool) (job : Job) : JobPool :=
  p.setQueue job.priority (p.jobQueues job.priority ++ [job.id])

/-- The front of the first listed queue that has one. -/
def pop (p : JobPool) : List JobPriorities → Option (Job × JobPool)
  | [] => none
  | priority :: rest =>
      match p.jobQueues priority with
      | [] => p.pop rest
      | id :: queue => some (⟨id, priority⟩, p.setQueue priority queue)

def clear (p : JobPool) : JobPool := { p with jobQueues := fun _ => [] }

/-- `clear(priority)`. -/
def clearPriority (p : JobPool) (priority : JobPriorities) : JobPool := p.setQueue priority []

def lock (p : JobPool) (condition : Bool) : JobPool := { p with lockCondition := condition }

def countOf (p : JobPool) (priority : JobPriorities) : Nat := (p.jobQueues priority).length

/-- `job_count` of no priorities. -/
def countAll (p : JobPool) : Nat := (JobPriorities.all.map p.countOf).sum

def Queued (p : JobPool) (job : Job) : Prop := job.id ∈ p.jobQueues job.priority

/-- No queue holds a pointer twice. -/
def Distinct (p : JobPool) : Prop := ∀ priority, (p.jobQueues priority).Nodup

theorem not_queued_empty (job : Job) : ¬ empty.Queued job := List.not_mem_nil

theorem distinct_empty : empty.Distinct := fun _ => List.nodup_nil

theorem setQueue_self (p : JobPool) (priority : JobPriorities) (queue : List Nat) :
    (p.setQueue priority queue).jobQueues priority = queue := Function.update_self _ _ _

theorem setQueue_ne (p : JobPool) {priority other : JobPriorities} (queue : List Nat)
    (different : other ≠ priority) :
    (p.setQueue priority queue).jobQueues other = p.jobQueues other :=
  Function.update_of_ne different _ _

theorem insert_queued {p : JobPool} {job other : Job} :
    (p.insert job).Queued other ↔ other = job ∨ p.Queued other := by
  unfold insert Queued
  by_cases same : other.priority = job.priority
  · rw [same, setQueue_self, List.mem_append, List.mem_singleton, or_comm, Job.ext_iff]
    simp only [same, and_true]
  · rw [setQueue_ne p _ same]
    refine ⟨.inr, fun either => either.resolve_left fun equal => same (congrArg Job.priority equal)⟩

theorem insert_distinct {p : JobPool} {job : Job} (distinct : p.Distinct)
    (fresh : ¬ p.Queued job) : (p.insert job).Distinct := by
  intro priority
  unfold insert
  by_cases same : priority = job.priority
  · rw [same, setQueue_self, List.nodup_append]
    refine ⟨distinct _, List.pairwise_singleton _ _, fun a member b single equal => fresh ?_⟩
    rw [List.mem_singleton.mp single] at equal
    rwa [equal] at member
  · rw [setQueue_ne p _ same]
    exact distinct priority

/-- What `pop` returns was queued under a listed priority. -/
theorem pop_mem {p q : JobPool} {priorities : List JobPriorities} {job : Job}
    (popped : p.pop priorities = some (job, q)) : job.priority ∈ priorities ∧ p.Queued job := by
  induction priorities with
  | nil => cases popped
  | cons priority rest ih =>
      unfold pop at popped
      split at popped
      next => exact ⟨List.mem_cons_of_mem _ (ih popped).1, (ih popped).2⟩
      next id queue queued =>
        cases popped
        refine ⟨List.mem_cons_self, ?_⟩
        rw [Queued, queued]
        exact List.mem_cons_self

/-- `pop` takes exactly the job it returns out of its queue. -/
theorem pop_queued {p q : JobPool} {priorities : List JobPriorities} {job : Job}
    (distinct : p.Distinct) (popped : p.pop priorities = some (job, q)) (other : Job) :
    q.Queued other ↔ p.Queued other ∧ other ≠ job := by
  induction priorities with
  | nil => cases popped
  | cons priority rest ih =>
      unfold pop at popped
      split at popped
      next => exact ih popped
      next id queue queued =>
        cases popped
        have once := distinct priority
        rw [queued, List.nodup_cons] at once
        by_cases same : other.priority = priority
        · unfold Queued
          rw [same, setQueue_self, queued, List.mem_cons, Ne, Job.ext_iff]
          simp only [same, and_true]
          constructor
          · intro member
            exact ⟨.inr member, fun equal => once.1 (equal ▸ member)⟩
          · rintro ⟨equal | member, different⟩
            · exact absurd equal different
            · exact member
        · unfold Queued
          rw [setQueue_ne p _ same]
          constructor
          · intro member
            exact ⟨member, fun equal => same (congrArg Job.priority equal)⟩
          · intro both
            exact both.1

theorem pop_distinct {p q : JobPool} {priorities : List JobPriorities} {job : Job}
    (distinct : p.Distinct) (popped : p.pop priorities = some (job, q)) : q.Distinct := by
  induction priorities with
  | nil => cases popped
  | cons priority rest ih =>
      unfold pop at popped
      split at popped
      next => exact ih popped
      next id queue queued =>
        cases popped
        intro other
        have once := distinct priority
        rw [queued, List.nodup_cons] at once
        by_cases same : other = priority
        · rw [same, setQueue_self]
          exact once.2
        · rw [setQueue_ne p _ same]
          exact distinct other

theorem pop_lockCondition {p q : JobPool} {priorities : List JobPriorities} {job : Job}
    (popped : p.pop priorities = some (job, q)) : q.lockCondition = p.lockCondition := by
  induction priorities with
  | nil => cases popped
  | cons priority rest ih =>
      unfold pop at popped
      split at popped
      next => exact ih popped
      next =>
        cases popped
        rfl

theorem insert_nonempty {p : JobPool} {job : Job} {target : JobPriorities}
    (queued : (p.insert job).jobQueues target ≠ []) :
    target = job.priority ∨ p.jobQueues target ≠ [] := by
  by_cases same : target = job.priority
  · exact .inl same
  · unfold insert at queued
    rw [setQueue_ne p _ same] at queued
    exact .inr queued

theorem pop_nonempty {p q : JobPool} {priorities : List JobPriorities} {job : Job}
    {target : JobPriorities} (popped : p.pop priorities = some (job, q))
    (queued : q.jobQueues target ≠ []) : p.jobQueues target ≠ [] := by
  induction priorities with
  | nil => cases popped
  | cons priority rest ih =>
      unfold pop at popped
      split at popped
      next => exact ih popped
      next id queue was =>
        cases popped
        by_cases same : target = priority
        · rw [same, was]
          exact List.cons_ne_nil _ _
        · rwa [setQueue_ne p _ same] at queued

end JobPool
end CppToolkit.Thread
