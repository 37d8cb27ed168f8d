import CppToolkit.Library.PriorityFifo
import CppToolkit.Thread.JobPool

/-! The job pool with its map of queues as it is filled and emptied, and the priority
queue that it implements. -/
namespace CppToolkit.Thread

/-- A priority gets its key with its first job, keeps an empty queue when the last job is
popped, and loses the key when it is cleared. -/
structure JobQueues where
  lockCondition : Bool
  jobQueues : JobPriorities → Option (List Job)

namespace JobQueues

def initial : JobQueues := ⟨false, fun _ => none⟩

def setQueue (p : JobQueues) (priority : JobPriorities) (queue : Option (List Job)) : JobQueues :=
  { p with jobQueues := Function.update p.jobQueues priority queue }

/-- `none` is the null pointer. -/
def push (p : JobQueues) : Option Job → JobQueues × Except String Unit
  | none => (p, .error "cannot push empty job")
  | some job =>
      if p.lockCondition then
        (p, .error "the system is locked and new tasks cannot be created")
      else
        match p.jobQueues job.priority with
        | some queue => (p.setQueue job.priority (some (queue ++ [job])), .ok ())
        | none => (p.setQueue job.priority (some [job]), .ok ())

/-- No null pointer is ever queued, so the front of a queue that is not empty is popped. -/
def pop (p : JobQueues) : List JobPriorities → JobQueues × Option Job
  | [] => (p, none)
  | priority :: rest =>
      match p.jobQueues priority with
      | some (job :: queue) => (p.setQueue priority (some queue), some job)
      | some [] => p.pop rest
      | none => p.pop rest

def clear (p : JobQueues) : JobQueues := { p with jobQueues := fun _ => none }

def clearPriority (p : JobQueues) (priority : JobPriorities) : JobQueues :=
  match p.jobQueues priority with
  | some _ => p.setQueue priority none
  | none => p

def size (p : JobQueues) (priority : JobPriorities) : Nat :=
  match p.jobQueues priority with
  | some queue => queue.length
  | none => 0

def jobCount (p : JobQueues) (priorities : List JobPriorities) : Nat :=
  if priorities = [] then (JobPriorities.all.map p.size).sum else (priorities.map p.size).sum

def lock (p : JobQueues) (condition : Bool) : JobQueues := { p with lockCondition := condition }

inductive Operation where
  | push (job : Option Job)
  | pop (priorities : List JobPriorities)
  | clear
  | clearPriority (priority : JobPriorities)
  | lock (condition : Bool)
  deriving DecidableEq, Repr

inductive Reply where
  | pushed (reply : Except String Unit)
  | popped (job : Option Job)
  | nothing

def apply (p : JobQueues) : Operation → JobQueues × Reply
  | .push job => ((p.push job).1, .pushed (p.push job).2)
  | .pop priorities => ((p.pop priorities).1, .popped (p.pop priorities).2)
  | .clear => (p.clear, .nothing)
  | .clearPriority priority => (p.clearPriority priority, .nothing)
  | .lock condition => (p.lock condition, .nothing)

/-- The pool after the operations, and what each of them replied. -/
def run : JobQueues → List Operation → JobQueues × List (Operation × Reply)
  | p, [] => (p, [])
  | p, op :: ops =>
      let next := p.apply op
      let last := next.1.run ops
      (last.1, (op, next.2) :: last.2)

/-- The jobs whose push was accepted. -/
def accepted (log : List (Operation × Reply)) : List Job :=
  log.filterMap fun entry =>
    match entry with
    | (.push job, .pushed (.ok ())) => job
    | _ => none

def popped (log : List (Operation × Reply)) : List Job :=
  log.filterMap fun entry =>
    match entry with
    | (_, .popped job) => job
    | _ => none

/-- What the operations mean for a priority queue. -/
def serve (s : PriorityFifo Job) : Operation → PriorityFifo Job
  | .push (some job) => if s.closed then s else s.offer job
  | .push none => s
  | .pop priorities =>
      match s.oldest Job.priority priorities with
      | some e => s.take e
      | none => s
  | .clear => s.drop fun _ => true
  | .clearPriority priority => s.drop fun e => e.item.priority = priority
  | .lock condition => s.close condition

def queue (p : JobQueues) (priority : JobPriorities) : List Job := (p.jobQueues priority).getD []

/-- Each queue of the map holds the entries of its priority. -/
structure Matches (p : JobQueues) (s : PriorityFifo Job) : Prop where
  closed : s.closed = p.lockCondition
  queues : ∀ priority, p.queue priority = (s.ofKey Job.priority priority).map Entry.item

/-- The pool does what the priority queue does. -/
structure Refines (p : JobQueues) (log : List (Operation × Reply)) (s : PriorityFifo Job) :
    Prop where
  /-- A push is accepted when the job is not null and the pool is unlocked. -/
  accepts : ∀ job, (p.push job).2 = .ok () ↔ job ≠ none ∧ p.lockCondition = false
  /-- The history of the priority queue is what the operations have replied. -/
  history : s.accepted = accepted log ∧ s.taken.map Entry.item = popped log
  /-- Each accepted job is queued, popped once, or cleared. -/
  known : ∀ e ∈ s.queued ++ s.taken ++ s.dropped, s.accepted[e.ticket]? = some e.item
  once : ((s.queued ++ s.taken ++ s.dropped).map Entry.ticket).Perm (List.range s.accepted.length)
  /-- A pop returns the oldest job of the first listed priority that has one. -/
  pops : ∀ priorities job, (p.pop priorities).2 = some job →
    ∃ e, e.item = job ∧ s.Oldest Job.priority priorities e
  empty : ∀ priorities, (p.pop priorities).2 = none ↔
    ∀ priority ∈ priorities, ∀ q ∈ s.queued, q.item.priority ≠ priority
  /-- Jobs of one priority are popped in push order. -/
  order : s.taken.Pairwise fun a b => a.item.priority = b.item.priority → a.ticket < b.ticket
  count : p.jobCount [] = s.accepted.length - s.taken.length - s.dropped.length

section
variable {p : JobQueues} {s : PriorityFifo Job}

theorem setQueue_self (p : JobQueues) (priority : JobPriorities) (queue : Option (List Job)) :
    (p.setQueue priority queue).queue priority = queue.getD [] :=
  congrArg (Option.getD · []) (Function.update_self _ _ _)

theorem setQueue_ne (p : JobQueues) {priority other : JobPriorities} (queue : Option (List Job))
    (different : other ≠ priority) : (p.setQueue priority queue).queue other = p.queue other :=
  congrArg (Option.getD · []) (Function.update_of_ne different _ _)

theorem size_queue (p : JobQueues) (priority : JobPriorities) :
    p.size priority = (p.queue priority).length := by
  unfold size queue
  cases p.jobQueues priority <;> rfl

theorem push_queue (unlocked : p.lockCondition = false) (job : Job) :
    (p.push (some job)).1 = p.setQueue job.priority (some (p.queue job.priority ++ [job])) ∧
      (p.push (some job)).2 = .ok () := by
  rw [push, if_neg (ne_true_of_eq_false unlocked), queue]
  cases p.jobQueues job.priority with
  | some queue => exact ⟨rfl, rfl⟩
  | none => exact ⟨rfl, rfl⟩

theorem pop_cons_nil {priority : JobPriorities} (empty : p.queue priority = [])
    (rest : List JobPriorities) : p.pop (priority :: rest) = p.pop rest := by
  unfold queue at empty
  rw [pop]
  split
  next job queue found =>
    rw [found] at empty
    cases empty
  next => rfl
  next => rfl

theorem pop_cons_cons {priority : JobPriorities} {job : Job} {left : List Job}
    (front : p.queue priority = job :: left) (rest : List JobPriorities) :
    p.pop (priority :: rest) = (p.setQueue priority (some left), some job) := by
  unfold queue at front
  rw [pop]
  split
  next job' queue found =>
    rw [found] at front
    cases front
    rfl
  next found =>
    rw [found] at front
    cases front
  next found =>
    rw [found] at front
    cases front

theorem clearPriority_queue (p : JobQueues) (priority other : JobPriorities) :
    (p.clearPriority priority).queue other = if other = priority then [] else p.queue other := by
  by_cases same : other = priority
  · rw [if_pos same, same, clearPriority]
    split
    next => exact setQueue_self p priority none
    next found => rw [queue, found, Option.getD_none]
  · rw [if_neg same, clearPriority]
    split
    next => exact setQueue_ne p none same
    next => rfl

theorem clearPriority_lockCondition (p : JobQueues) (priority : JobPriorities) :
    (p.clearPriority priority).lockCondition = p.lockCondition := by
  unfold clearPriority
  split <;> rfl

theorem matches_initial : Matches initial PriorityFifo.empty := ⟨rfl, fun _ => rfl⟩

theorem Matches.offer (matched : Matches p s) (unlocked : p.lockCondition = false) (job : Job) :
    Matches (p.push (some job)).1 (s.offer job) := by
  rw [(push_queue unlocked job).1]
  refine ⟨matched.closed, ?_⟩
  intro priority
  rw [PriorityFifo.ofKey, PriorityFifo.offer, List.filter_append, List.map_append]
  by_cases same : priority = job.priority
  · subst same
    rw [setQueue_self, Option.getD_some, matched.queues]
    simp [PriorityFifo.ofKey]
  · rw [setQueue_ne p _ same, matched.queues]
    simp [PriorityFifo.ofKey, Ne.symm same]

/-- A pop takes the oldest entry of the first listed priority that has one. -/
theorem Matches.pop (matched : Matches p s)
    (sorted : s.queued.Pairwise fun a b => a.ticket < b.ticket) (priorities : List JobPriorities) :
    (p.pop priorities).2 = (s.oldest Job.priority priorities).map Entry.item ∧
      Matches (p.pop priorities).1 (serve s (.pop priorities)) := by
  induction priorities with
  | nil => exact ⟨rfl, matched⟩
  | cons priority rest ih =>
      have queues := matched.queues priority
      cases found : s.ofKey Job.priority priority with
      | nil =>
          rw [found, List.map_nil] at queues
          have skip : s.oldest Job.priority (priority :: rest) = s.oldest Job.priority rest := by
            rw [PriorityFifo.oldest, List.findSome?_cons, found]
            rfl
          rw [pop_cons_nil queues, serve, skip]
          exact ih
      | cons e left =>
          rw [found, List.map_cons] at queues
          have here : s.oldest Job.priority (priority :: rest) = some e := by
            rw [PriorityFifo.oldest, List.findSome?_cons, found]
            rfl
          have member : e ∈ s.ofKey Job.priority priority := by
            rw [found]
            exact List.mem_cons_self
          obtain ⟨queued, same⟩ := PriorityFifo.mem_ofKey.mp member
          rw [pop_cons_cons queues, serve, here]
          refine ⟨rfl, matched.closed, ?_⟩
          intro other
          by_cases equal : other = priority
          · rw [equal, setQueue_self, PriorityFifo.take_ofKey sorted found]
            rfl
          · rw [setQueue_ne p _ equal, matched.queues, PriorityFifo.take_ofKey_ne sorted queued]
            intro back
            exact equal (back.symm.trans same)

theorem ofKey_drop (s : PriorityFifo Job) (gone : Entry Job → Bool) (priority : JobPriorities) :
    (s.drop gone).ofKey Job.priority priority =
      (s.ofKey Job.priority priority).filter fun q => !gone q := by
  rw [PriorityFifo.ofKey, PriorityFifo.ofKey, PriorityFifo.drop, List.filter_filter,
    List.filter_filter]
  exact List.filter_congr fun _ _ => Bool.and_comm _ _

theorem Matches.clear (matched : Matches p s) : Matches p.clear (s.drop fun _ => true) := by
  refine ⟨matched.closed, ?_⟩
  intro priority
  rw [ofKey_drop]
  simp [queue, JobQueues.clear]

theorem Matches.clearPriority (matched : Matches p s) (priority : JobPriorities) :
    Matches (p.clearPriority priority) (s.drop fun e => e.item.priority = priority) := by
  refine ⟨matched.closed.trans (clearPriority_lockCondition p priority).symm, ?_⟩
  intro other
  rw [clearPriority_queue, ofKey_drop]
  have keyed : ∀ q ∈ s.ofKey Job.priority other, q.item.priority = other :=
    fun q member => (PriorityFifo.mem_ofKey.mp member).2
  by_cases same : other = priority
  · rw [if_pos same, List.filter_eq_nil_iff.mpr, List.map_nil]
    intro q member
    rw [keyed q member, same]
    simp
  · rw [if_neg same, List.filter_eq_self.mpr, matched.queues]
    intro q member
    rw [keyed q member]
    simp [same]

/-- One operation, its reply, and what it adds to the history. -/
theorem Matches.apply (matched : Matches p s) (sound : s.Sound Job.priority) (op : Operation) :
    Matches (p.apply op).1 (serve s op) ∧ (serve s op).Sound Job.priority ∧
      (serve s op).accepted = s.accepted ++ accepted [(op, (p.apply op).2)] ∧
      (serve s op).taken.map Entry.item =
        s.taken.map Entry.item ++ popped [(op, (p.apply op).2)] := by
  cases op with
  | push job =>
      cases job with
      | none => exact ⟨matched, sound, (List.append_nil _).symm, (List.append_nil _).symm⟩
      | some job =>
          cases locked : p.lockCondition with
          | true =>
              have refused : p.push (some job) =
                  (p, .error "the system is locked and new tasks cannot be created") := by
                rw [push, if_pos locked]
              have same : serve s (.push (some job)) = s := by
                rw [serve, matched.closed, if_pos locked]
              rw [same, JobQueues.apply, refused]
              exact ⟨matched, sound, (List.append_nil _).symm, (List.append_nil _).symm⟩
          | false =>
              have same : serve s (.push (some job)) = s.offer job := by
                rw [serve, matched.closed, if_neg (ne_true_of_eq_false locked)]
              rw [same, JobQueues.apply, (push_queue locked job).2]
              exact ⟨matched.offer locked job, sound.offer job, rfl, (List.append_nil _).symm⟩
  | pop priorities =>
      obtain ⟨reply, next⟩ := matched.pop sound.sorted priorities
      refine ⟨next, ?_⟩
      rw [JobQueues.apply, reply, serve]
      cases found : s.oldest Job.priority priorities with
      | none => exact ⟨sound, (List.append_nil _).symm, (List.append_nil _).symm⟩
      | some e =>
          exact ⟨sound.take (PriorityFifo.oldest_some sound.sorted found),
            (List.append_nil _).symm, List.map_append⟩
  | clear => exact ⟨matched.clear, sound.drop _, (List.append_nil _).symm, (List.append_nil _).symm⟩
  | clearPriority priority =>
      exact ⟨matched.clearPriority priority, sound.drop _, (List.append_nil _).symm,
        (List.append_nil _).symm⟩
  | lock condition =>
      exact ⟨⟨rfl, matched.queues⟩, sound.close condition, (List.append_nil _).symm,
        (List.append_nil _).symm⟩

theorem Matches.run (matched : Matches p s) (sound : s.Sound Job.priority)
    (ops : List Operation) :
    Matches (p.run ops).1 (ops.foldl serve s) ∧ (ops.foldl serve s).Sound Job.priority ∧
      (ops.foldl serve s).accepted = s.accepted ++ accepted (p.run ops).2 ∧
      (ops.foldl serve s).taken.map Entry.item =
        s.taken.map Entry.item ++ popped (p.run ops).2 := by
  induction ops generalizing p s with
  | nil => exact ⟨matched, sound, (List.append_nil _).symm, (List.append_nil _).symm⟩
  | cons op ops ih =>
      obtain ⟨next, still, accepted_, taken⟩ := matched.apply sound op
      obtain ⟨last, sound', accepted', taken'⟩ := ih next still
      refine ⟨last, sound', ?_, ?_⟩
      · rw [List.foldl_cons, accepted', accepted_, List.append_assoc, JobQueues.run, accepted,
          accepted, accepted, ← List.filterMap_append]
        rfl
      · rw [List.foldl_cons, taken', taken, List.append_assoc, JobQueues.run, popped, popped,
          popped, ← List.filterMap_append]
        rfl

/-- The queues of all priorities together. -/
theorem sum_ofKey (entries : List (Entry Job)) :
    (JobPriorities.all.map fun priority =>
      (entries.filter fun e => e.item.priority = priority).length).sum = entries.length := by
  induction entries with
  | nil => rfl
  | cons e entries ih =>
      simp only [JobPriorities.all, List.map_cons, List.map_nil, List.sum_cons, List.sum_nil] at ih ⊢
      simp only [List.filter_cons, List.length_cons]
      cases e.item.priority <;> simp only [reduceCtorEq, decide_true, decide_false, if_true,
        Bool.false_eq_true, if_false, List.length_cons] <;> omega

theorem Matches.refines (matched : Matches p s) (sound : s.Sound Job.priority)
    {log : List (Operation × Reply)} (history : s.accepted = accepted log ∧
      s.taken.map Entry.item = popped log) : Refines p log s where
  accepts := by
    intro job
    cases job with
    | none => exact ⟨nofun, fun both => absurd rfl both.1⟩
    | some job =>
        cases locked : p.lockCondition with
        | true =>
            rw [push, if_pos locked]
            exact ⟨nofun, fun both => by cases both.2⟩
        | false => exact ⟨fun _ => ⟨nofun, rfl⟩, fun _ => (push_queue locked job).2⟩
  history := history
  known := sound.known
  once := sound.once
  pops := by
    intro priorities job popped
    rw [(matched.pop sound.sorted priorities).1] at popped
    obtain ⟨e, found, same⟩ := Option.map_eq_some_iff.mp popped
    exact ⟨e, same, PriorityFifo.oldest_some sound.sorted found⟩
  empty := by
    intro priorities
    rw [(matched.pop sound.sorted priorities).1, Option.map_eq_none_iff, PriorityFifo.oldest_none]
  order := sound.order
  count := by
    have sizes : JobPriorities.all.map p.size = JobPriorities.all.map fun priority =>
        (s.queued.filter fun e => e.item.priority = priority).length := by
      refine List.map_congr_left fun priority _ => ?_
      rw [size_queue, matched.queues, List.length_map]
      rfl
    have balance := sound.balance
    rw [jobCount, if_pos rfl, sizes, sum_ofKey]
    omega

end

/-- After every sequence of operations the pool is the priority queue of that sequence. -/
theorem refines_priority_fifo (ops : List Operation) :
    Refines (initial.run ops).1 (initial.run ops).2 (ops.foldl serve PriorityFifo.empty) := by
  obtain ⟨matched, sound, accepted, taken⟩ :=
    matches_initial.run PriorityFifo.sound_empty ops
  exact matched.refines sound ⟨accepted, taken⟩

/-- `ThreadWorker::has_job` of a worker with these priorities. -/
def hasJob (p : JobQueues) (priorities : List JobPriorities) : Bool := 0 < p.jobCount priorities

section
variable {p : JobQueues}

theorem pop_none_iff {priorities : List JobPriorities} :
    (p.pop priorities).2 = none ↔ ∀ priority ∈ priorities, p.queue priority = [] := by
  induction priorities with
  | nil => exact iff_of_true rfl fun _ member => absurd member List.not_mem_nil
  | cons priority rest ih =>
      rw [List.forall_mem_cons]
      cases front : p.queue priority with
      | nil => rw [pop_cons_nil front, ih, and_iff_right rfl]
      | cons job left =>
          rw [pop_cons_cons front]
          simp

theorem sum_size_pos_iff {priorities : List JobPriorities} :
    0 < (priorities.map p.size).sum ↔ ∃ priority ∈ priorities, p.queue priority ≠ [] := by
  induction priorities with
  | nil => simp
  | cons priority rest ih =>
      rw [List.map_cons, List.sum_cons, List.exists_mem_cons_iff, ← ih, size_queue,
        ← List.length_pos_iff]
      omega

/-- With listed priorities the test agrees with `pop`. -/
theorem hasJob_listed {priorities : List JobPriorities} (listed : priorities ≠ []) :
    p.hasJob priorities = true ↔ ∃ job, (p.pop priorities).2 = some job := by
  rw [hasJob, jobCount, if_neg listed, decide_eq_true_iff, sum_size_pos_iff,
    ← Option.ne_none_iff_exists', Ne, pop_none_iff]
  simp

/-- With no priorities it asks for a job of any queue. -/
theorem hasJob_nil : p.hasJob [] = true ↔ ∃ priority, p.queue priority ≠ [] := by
  rw [hasJob, jobCount, if_pos rfl, decide_eq_true_iff, sum_size_pos_iff]
  refine exists_congr fun priority => and_iff_right ?_
  cases priority <;> decide

end

/-- The test of a worker agrees with `pop` exactly if the worker has a priority or no job is
queued. -/
theorem hasJob_agrees_iff (ops : List Operation) (priorities : List JobPriorities) :
    ((initial.run ops).1.hasJob priorities = true ↔
        ∃ job, ((initial.run ops).1.pop priorities).2 = some job) ↔
      priorities ≠ [] ∨ ∀ priority, (initial.run ops).1.queue priority = [] := by
  by_cases listed : priorities = []
  · subst listed
    have none_ : ¬ ∃ job, ((initial.run ops).1.pop []).2 = some job := by simp [pop]
    rw [iff_false_right none_, hasJob_nil, or_iff_right (not_not_intro rfl)]
    simp
  · exact iff_of_true (hasJob_listed listed) (.inl listed)

/-- A job of some priority wakes a worker without priorities. -/
theorem hasJob_without_priorities :
    ¬ ((initial.run [.push (some ⟨1, .low⟩)]).1.hasJob [] = true ↔
      ∃ job, ((initial.run [.push (some ⟨1, .low⟩)]).1.pop []).2 = some job) := by
  intro agrees
  obtain ⟨job, popped⟩ := agrees.mp (by decide)
  cases popped

/-- The pool as the threads of a `ThreadPool` see it, without the keys of the map. -/
def toJobPool (p : JobQueues) : JobPool :=
  ⟨p.lockCondition, fun priority => (p.queue priority).map Job.id⟩

/-- Each queue holds jobs of its priority. -/
def Typed (p : JobQueues) : Prop := ∀ priority, ∀ job ∈ p.queue priority, job.priority = priority

theorem Matches.typed {p : JobQueues} {s : PriorityFifo Job} (matched : Matches p s) : p.Typed := by
  intro priority job member
  rw [matched.queues] at member
  obtain ⟨e, listed, rfl⟩ := List.mem_map.mp member
  exact (PriorityFifo.mem_ofKey.mp listed).2

theorem run_typed (ops : List Operation) : (initial.run ops).1.Typed :=
  (matches_initial.run PriorityFifo.sound_empty ops).1.typed

section
variable {p : JobQueues}

theorem toJobPool_setQueue (p : JobQueues) (priority : JobPriorities) (queue : List Job) :
    (p.setQueue priority (some queue)).toJobPool =
      p.toJobPool.setQueue priority (queue.map Job.id) := by
  refine congrArg (JobPool.mk p.lockCondition) (funext fun other => ?_)
  by_cases same : other = priority
  · rw [same, setQueue_self, Function.update_self]
    rfl
  · rw [setQueue_ne p _ same, Function.update_of_ne same]
    rfl

theorem toJobPool_push (unlocked : p.lockCondition = false) (job : Job) :
    (p.push (some job)).1.toJobPool = p.toJobPool.insert job := by
  rw [(push_queue unlocked job).1, toJobPool_setQueue, List.map_append]
  rfl

theorem toJobPool_pop (typed : p.Typed) (priorities : List JobPriorities) :
    p.toJobPool.pop priorities =
      (p.pop priorities).2.map fun job => (job, (p.pop priorities).1.toJobPool) := by
  induction priorities with
  | nil => rfl
  | cons priority rest ih =>
      cases front : p.queue priority with
      | nil =>
          have empty : p.toJobPool.jobQueues priority = [] := congrArg (List.map Job.id) front
          rw [JobPool.pop, empty, pop_cons_nil front]
          exact ih
      | cons job left =>
          have some_ : p.toJobPool.jobQueues priority = job.id :: left.map Job.id :=
            congrArg (List.map Job.id) front
          have same : job.priority = priority := typed priority job (front ▸ List.mem_cons_self)
          rw [JobPool.pop, some_, pop_cons_cons front, Option.map_some, toJobPool_setQueue, ← same]

theorem toJobPool_clear (p : JobQueues) : p.clear.toJobPool = p.toJobPool.clear := rfl

theorem toJobPool_clearPriority (p : JobQueues) (priority : JobPriorities) :
    (p.clearPriority priority).toJobPool = p.toJobPool.clearPriority priority := by
  refine JobPool.ext (clearPriority_lockCondition p priority) (funext fun other => ?_)
  change ((p.clearPriority priority).queue other).map Job.id =
    (p.toJobPool.setQueue priority []).jobQueues other
  by_cases same : other = priority
  · rw [clearPriority_queue, if_pos same, same, JobPool.setQueue_self]
    rfl
  · rw [clearPriority_queue, if_neg same, JobPool.setQueue_ne _ _ same]
    rfl

end

end JobQueues
end CppToolkit.Thread
