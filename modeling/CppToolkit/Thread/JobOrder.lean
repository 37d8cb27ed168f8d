import CppToolkit.Library.Machine
import CppToolkit.Thread.PoolSteps
import Mathlib.Data.List.Nodup

/-! The order in which jobs leave the queues of a pool, whatever is cleared, stopped or removed
meanwhile: every queue holds the last jobs of its priority, no job is worked twice, and a job that
no longer waits was taken or cleared. -/
namespace CppToolkit.Thread
open Machine

namespace JobPool

/-- `pop` takes the front of one queue. -/
theorem pop_front {p q : JobPool} {priorities : List JobPriorities} {job : Job}
    (popped : p.pop priorities = some (job, q)) :
    ∃ rest, p.jobQueues job.priority = job.id :: rest ∧ q = p.setQueue job.priority rest := by
  induction priorities with
  | nil => cases popped
  | cons priority others ih =>
      unfold pop at popped
      split at popped
      next => exact ih popped
      next id queue queued =>
        cases popped
        exact ⟨queue, queued, rfl⟩

end JobPool

/-- The queues that an operation empties: all of them in an immediate stop, and one before the
workers of its priority are removed. -/
def Operation.clears : Operation → JobPriorities → Bool
  | .stopLocked immediately _, _ => immediately
  | .clear priority, other => other = priority
  | _, _ => false

namespace ThreadPool

/-- The pointers of all jobs of a priority that were ever queued, in their order. -/
def line (s : ThreadPool) (priority : JobPriorities) : List Nat :=
  (s.inserted.filter fun job => job.priority = priority).map Job.id

/-- A worker has taken the job. -/
def Taken (s : ThreadPool) (job : Job) : Prop :=
  job ∈ s.worked ∨ ∃ i, (s.workers i).phase.hand = some job

/-- Queues are the ends of their lines, and a job that was taken is nowhere else. -/
structure Lined (s : ThreadPool) : Prop where
  numbered : s.inserted.map Job.id = List.range s.inserted.length
  queues : ∀ priority, s.jobPool.jobQueues priority <:+ s.line priority
  known : ∀ job, s.Taken job → job ∈ s.inserted
  gone : ∀ job, s.Taken job → ¬ s.jobPool.Queued job
  once : s.worked.Nodup
  unworked : ∀ i job, (s.workers i).phase.hand = some job → job ∉ s.worked
  single : ∀ i k job, (s.workers i).phase.hand = some job → (s.workers k).phase.hand = some job →
    i = k

theorem started_hand (priorities : List (List JobPriorities)) (i : Nat) (job : Job) :
    ((started priorities).workers i).phase.hand ≠ some job := by
  intro hand
  rcases started_worker priorities i with ⟨_, list, is⟩ | ⟨_, is⟩ <;>
  · rw [is] at hand
    cases hand

theorem started_untaken (priorities : List (List JobPriorities)) (job : Job) :
    ¬ (started priorities).Taken job := by
  rintro (worked | ⟨i, hand⟩)
  · cases worked
  · exact started_hand priorities i job hand

theorem started_lined (priorities : List (List JobPriorities)) : (started priorities).Lined := by
  have empty := started_hand priorities
  have untaken := started_untaken priorities
  exact ⟨rfl, fun _ => List.suffix_rfl, fun job taken => absurd taken (untaken job),
    fun job taken => absurd taken (untaken job), List.nodup_nil,
    fun i job hand => absurd hand (empty i job), fun i _ job hand => absurd hand (empty i job)⟩

section
variable {s t : ThreadPool}

theorem mem_line {job : Job} : job.id ∈ s.line job.priority ↔ ∃ other ∈ s.inserted,
    other.priority = job.priority ∧ other.id = job.id := by
  simp only [line, List.mem_map, List.mem_filter, decide_eq_true_iff, and_assoc]

/-- In a line, pointers stand in the order of the pushes. -/
theorem Lined.sorted (lined : s.Lined) (priority : JobPriorities) :
    (s.line priority).Pairwise (· < ·) := by
  have all : (s.inserted.map Job.id).Pairwise (· < ·) := lined.numbered ▸ List.pairwise_lt_range
  exact all.sublist (List.filter_sublist.map Job.id)

theorem Lined.inserted_of_queued (lined : s.Lined) {job : Job} (queued : s.jobPool.Queued job) :
    job ∈ s.inserted := by
  obtain ⟨other, member, priority, id⟩ := mem_line.mp ((lined.queues _).subset queued)
  rwa [← Job.ext id priority]

/-- A job behind a queued one is queued. -/
theorem Lined.behind (lined : s.Lined) {first second : Job} (queued : s.jobPool.Queued first)
    (member : second ∈ s.inserted) (same : second.priority = first.priority)
    (later : first.id < second.id) : s.jobPool.Queued second := by
  obtain ⟨front, whole⟩ := lined.queues first.priority
  have there : second.id ∈ s.line first.priority := by
    rw [← same]
    exact mem_line.mpr ⟨second, member, rfl, rfl⟩
  have sorted := lined.sorted first.priority
  rw [← whole] at there sorted
  rw [JobPool.Queued, same]
  refine (List.mem_append.mp there).resolve_left fun before => ?_
  have less := (List.pairwise_append.mp sorted).2.2 _ before _ queued
  exact Nat.lt_asymm less later

theorem taken_of_hands (worked : t.worked = s.worked)
    (hands : ∀ k job, (t.workers k).phase.hand = some job → (s.workers k).phase.hand = some job)
    {job : Job} : t.Taken job → s.Taken job
  | .inl member => .inl (worked ▸ member)
  | .inr ⟨k, hand⟩ => .inr ⟨k, hands k job hand⟩

/-- A step that at most clears queues. -/
theorem Lined.still (lined : s.Lined) (inserted : t.inserted = s.inserted)
    (queues : ∀ priority, t.jobPool.jobQueues priority <:+ s.jobPool.jobQueues priority)
    (worked : t.worked = s.worked)
    (hands : ∀ k job, (t.workers k).phase.hand = some job → (s.workers k).phase.hand = some job) :
    t.Lined where
  numbered := inserted ▸ lined.numbered
  queues := fun priority => by
    rw [line, inserted]
    exact (queues priority).trans (lined.queues priority)
  known := fun job taken => inserted ▸ lined.known job (taken_of_hands worked hands taken)
  gone := fun job taken queued =>
    lined.gone job (taken_of_hands worked hands taken) ((queues _).subset queued)
  once := worked ▸ lined.once
  unworked := fun i job hand => worked ▸ lined.unworked i job (hands i job hand)
  single := fun i k job one two => lined.single i k job (hands i job one) (hands k job two)

theorem Lined.insert (lined : s.Lined) (priority : JobPriorities) :
    Lined { s with
      jobPool := s.jobPool.insert ⟨s.inserted.length, priority⟩
      inserted := s.inserted ++ [⟨s.inserted.length, priority⟩] } where
  numbered := by
    rw [List.map_append, lined.numbered, List.length_append, List.length_singleton,
      List.range_succ]
    rfl
  queues := fun other => by
    obtain ⟨front, whole⟩ := lined.queues other
    have longer : line { s with
        jobPool := s.jobPool.insert ⟨s.inserted.length, priority⟩
        inserted := s.inserted ++ [⟨s.inserted.length, priority⟩] } other =
        s.line other ++ if priority = other then [s.inserted.length] else [] := by
      rw [line, List.filter_append, List.map_append, line]
      by_cases same : priority = other <;> simp [same]
    rw [longer, ← whole]
    by_cases same : other = priority
    · rw [if_pos same.symm, same, JobPool.insert, JobPool.setQueue_self, List.append_assoc]
      exact List.suffix_append _ _
    · rw [if_neg (Ne.symm same), List.append_nil, JobPool.insert, JobPool.setQueue_ne _ _ same]
      exact List.suffix_append _ _
  known := fun job taken => List.mem_append_left _ (lined.known job taken)
  gone := fun job taken queued => by
    rcases JobPool.insert_queued.mp queued with rfl | was
    · have old := List.mem_map_of_mem (f := Job.id) (lined.known _ taken)
      rw [lined.numbered] at old
      exact Nat.lt_irrefl _ (List.mem_range.mp old)
    · exact lined.gone job taken was
  once := lined.once
  unworked := lined.unworked
  single := lined.single

/-- A worker takes a job out of its queue. -/
theorem Lined.pop (lined : s.Lined) {i : Nat} {job : Job} {jobPool : JobPool}
    (popped : s.jobPool.pop (s.workers i).priorities = some (job, jobPool)) :
    Lined ({ s with jobPool }.setPhase i (.popped (some job))) := by
  obtain ⟨rest, front, rfl⟩ := JobPool.pop_front popped
  have queued : s.jobPool.Queued job := (JobPool.pop_mem popped).2
  have untaken : ¬ s.Taken job := fun taken => lined.gone job taken queued
  have hands : ∀ k other, (({ s with jobPool := s.jobPool.setQueue job.priority rest }.setPhase i
      (.popped (some job))).workers k).phase.hand = some other →
      (k = i ∧ other = job) ∨ (k ≠ i ∧ (s.workers k).phase.hand = some other) := by
    intro k other hand
    by_cases here : k = i
    · rw [here, setPhase_self] at hand
      exact .inl ⟨here, (Option.some.inj hand).symm⟩
    · rw [setPhase_ne _ _ here] at hand
      exact .inr ⟨here, hand⟩
  have shorter : ∀ priority, (s.jobPool.setQueue job.priority rest).jobQueues priority <:+
      s.jobPool.jobQueues priority := by
    intro priority
    by_cases same : priority = job.priority
    · rw [same, JobPool.setQueue_self, front]
      exact List.suffix_cons _ _
    · exact s.jobPool.setQueue_ne rest same ▸ List.suffix_rfl
  have out : job.id ∉ rest := by
    have sorted := (lined.sorted job.priority).sublist (lined.queues job.priority).sublist
    rw [front, List.pairwise_cons] at sorted
    exact fun member => Nat.lt_irrefl _ (sorted.1 _ member)
  have taken : ∀ other, Taken ({ s with jobPool := s.jobPool.setQueue job.priority rest }.setPhase i
      (.popped (some job))) other → other = job ∨ s.Taken other := by
    rintro other (worked | ⟨k, hand⟩)
    · exact .inr (.inl worked)
    · rcases hands k other hand with ⟨-, same⟩ | ⟨-, was⟩
      · exact .inl same
      · exact .inr (.inr ⟨k, was⟩)
  refine ⟨lined.numbered, fun priority => (shorter priority).trans (lined.queues priority), ?_, ?_,
    lined.once, ?_, ?_⟩
  · intro other member
    rcases taken other member with rfl | was
    · exact lined.inserted_of_queued queued
    · exact lined.known other was
  · intro other member still
    rcases taken other member with rfl | was
    · change other.id ∈ (s.jobPool.setQueue other.priority rest).jobQueues other.priority at still
      rw [JobPool.setQueue_self] at still
      exact out still
    · exact lined.gone other was ((shorter _).subset still)
  · intro k other hand
    rcases hands k other hand with ⟨-, rfl⟩ | ⟨-, was⟩
    · exact fun worked => untaken (.inl worked)
    · exact lined.unworked k other was
  · intro k l other one two
    rcases hands k other one with ⟨rfl, rfl⟩ | ⟨-, was⟩
    · rcases hands l other two with ⟨rfl, -⟩ | ⟨-, was⟩
      · rfl
      · exact absurd (.inr ⟨l, was⟩) untaken
    · rcases hands l other two with ⟨-, rfl⟩ | ⟨-, was'⟩
      · exact absurd (.inr ⟨k, was⟩) untaken
      · exact lined.single k l other was was'

/-- The job in the hand of a worker is worked. -/
theorem Lined.work (lined : s.Lined) {i : Nat} {job : Job}
    (hand : (s.workers i).phase.hand = some job) :
    Lined ({ s with worked := s.worked ++ [job] }.setPhase i (.running job none)) := by
  have hands : ∀ k other, (({ s with worked := s.worked ++ [job] }.setPhase i
      (.running job none)).workers k).phase.hand = some other →
      k ≠ i ∧ (s.workers k).phase.hand = some other := by
    intro k other has
    by_cases here : k = i
    · rw [here, setPhase_self] at has
      cases has
    · rw [setPhase_ne _ _ here] at has
      exact ⟨here, has⟩
  have taken : ∀ other, Taken ({ s with worked := s.worked ++ [job] }.setPhase i
      (.running job none)) other → s.Taken other := by
    rintro other (worked | ⟨k, has⟩)
    · rcases List.mem_append.mp worked with old | new
      · exact .inl old
      · exact .inr ⟨i, List.mem_singleton.mp new ▸ hand⟩
    · exact .inr ⟨k, (hands k other has).2⟩
  refine ⟨lined.numbered, lined.queues, fun other member => lined.known other (taken other member),
    fun other member => lined.gone other (taken other member), ?_, ?_, ?_⟩
  · refine List.nodup_append'.mpr ⟨lined.once, List.nodup_singleton _, ?_⟩
    intro other old new
    rw [List.mem_singleton.mp new] at old
    exact lined.unworked i job hand old
  · intro k other has member
    obtain ⟨elsewhere, was⟩ := hands k other has
    rcases List.mem_append.mp member with old | new
    · exact lined.unworked k other was old
    · rw [List.mem_singleton.mp new] at was
      exact elsewhere (lined.single k i job was hand)
  · intro k l other one two
    exact lined.single k l other (hands k other one).2 (hands l other two).2

/-- A worker that comes to hold no job that it did not hold. -/
theorem Lined.moves (lined : s.Lined) {i : Nat} {w : ThreadWorker} (empty : w.phase.hand = none) :
    (s.setWorker i w).Lined := by
  refine lined.still rfl (fun _ => List.suffix_rfl) rfl fun k job hand => ?_
  by_cases here : k = i
  · rw [here, setWorker_self, empty] at hand
    cases hand
  · rwa [setWorker_ne _ _ here] at hand

theorem PushStep.lined {me : Owner} {p : Push} {p' : Option Push} (step : PushStep s me p t p')
    (lined : s.Lined) : t.Lined := by
  have hands := step.workers (fun w => w.phase.hand) fun w => Phase.notify_hand _
  cases step with
  | inserted priority => exact lined.insert priority
  | _ => exact lined.still rfl (fun _ => List.suffix_rfl) rfl fun k job hand => hands k ▸ hand

theorem WorkerStep.lined {i : Nat} (step : WorkerStep s i t) (lined : s.Lined) : t.Lined := by
  cases step with
  | moved phase quiet => exact lined.moves (Phase.quiet_hand quiet)
  | pops job jobPool popping popped => exact lined.pop popped
  | works job popped => exact lined.work (by rw [popped]; rfl)
  | pushes job p u p' running step => exact (step.lined lined).moves rfl
  | _ => exact lined.moves rfl

theorem CallerStep.lined {j : Nat} {op : Operation} {op' : Option Operation}
    (step : CallerStep s j op t op') (lined : s.Lined) : t.Lined := by
  have hands := step.phases Phase.hand Phase.notify_hand
  have kept : ∀ k job, (t.workers k).phase.hand = some job → (s.workers k).phase.hand = some job :=
    fun k job hand => hands k ▸ hand
  cases step with
  | pushes p t p' step => exact step.lined lined
  | clearsAll before => exact lined.still rfl (fun _ => List.nil_suffix) rfl kept
  | clears priority =>
      refine lined.still rfl (fun other => ?_) rfl kept
      change (s.jobPool.setQueue priority []).jobQueues other <:+ _
      by_cases same : other = priority
      · rw [same, JobPool.setQueue_self]
        exact List.nil_suffix
      · exact s.jobPool.setQueue_ne [] same ▸ List.suffix_rfl
  | _ => exact lined.still rfl (fun _ => List.suffix_rfl) rfl kept

theorem lined_step {a : Action} (lined : s.Lined) (stepped : s.step a = some t) : t.Lined := by
  cases step_inv stepped with
  | worker i t step => exact step.lined lined
  | push i priority job running => exact lined.moves rfl
  | call j call idle => exact lined.still rfl (fun _ => List.suffix_rfl) rfl fun _ _ hand => hand
  | caller j op u op' called step =>
      exact (step.lined lined).still rfl (fun _ => List.suffix_rfl) rfl fun _ _ hand => hand

end

/-- The jobs in the queues that an operation empties. -/
def droppedBy (s : ThreadPool) (operation : Operation) : List Job :=
  s.inserted.filter fun job =>
    operation.clears job.priority && decide (job.id ∈ s.jobPool.jobQueues job.priority)

/-- The jobs that a step clears. -/
def cleared (s : ThreadPool) : Action → List Job
  | .caller j => (s.callers j).elim [] s.droppedBy
  | _ => []

/-- Every job that was queued waits, was taken or was cleared, and only one of these. -/
structure Accounted (lost : List Job) (s : ThreadPool) : Prop where
  all : ∀ job ∈ s.inserted, s.jobPool.Queued job ∨ s.Taken job ∨ job ∈ lost
  queued : ∀ job, s.jobPool.Queued job → job ∈ s.inserted
  taken : ∀ job, s.Taken job → job ∈ s.inserted ∧ ¬ s.jobPool.Queued job
  cleared : ∀ job ∈ lost, job ∈ s.inserted ∧ ¬ s.jobPool.Queued job ∧ ¬ s.Taken job
  once : lost.Nodup

/-- What a step does to the jobs that wait and to those that were taken. -/
structure Passes (lost : List Job) (s t : ThreadPool) : Prop where
  keeps : s.inserted ⊆ t.inserted
  enters : ∀ job ∈ t.inserted, job ∈ s.inserted ∨ t.jobPool.Queued job
  queued : ∀ job, t.jobPool.Queued job → s.jobPool.Queued job ∨ job ∉ s.inserted
  leaves : ∀ job, s.jobPool.Queued job → t.jobPool.Queued job ∨ t.Taken job ∨ job ∈ lost
  stays : ∀ job, s.Taken job → t.Taken job
  taken : ∀ job, t.Taken job → s.Taken job ∨ s.jobPool.Queued job ∧ job ∉ lost
  cleared : ∀ job ∈ lost, s.jobPool.Queued job ∧ ¬ t.jobPool.Queued job

section
variable {s t u : ThreadPool} {lost gone : List Job}

theorem mem_droppedBy {operation : Operation} {job : Job} : job ∈ s.droppedBy operation ↔
    job ∈ s.inserted ∧ operation.clears job.priority = true ∧ s.jobPool.Queued job := by
  rw [droppedBy, List.mem_filter, Bool.and_eq_true, decide_eq_true_iff]
  rfl

/-- An operation that empties no queue. -/
theorem Passes.quiet {operation : Operation}
    (keeps : ∀ priority, operation.clears priority = false) (passes : Passes [] s t) :
    Passes (s.droppedBy operation) s t := by
  have nothing : s.droppedBy operation = [] := by
    refine List.eq_nil_iff_forall_not_mem.mpr fun job member => ?_
    have clears := (mem_droppedBy.mp member).2.1
    rw [keeps] at clears
    cases clears
  rwa [nothing]

theorem Lined.inserted_nodup (lined : s.Lined) : s.inserted.Nodup := by
  refine List.Nodup.of_map Job.id ?_
  rw [lined.numbered]
  exact List.nodup_range

/-- The places of all jobs after a step, from those before it. -/
theorem Accounted.passes (accounted : Accounted gone s) (after : t.Lined)
    (passes : Passes lost s t) (once : lost.Nodup) : Accounted (gone ++ lost) t where
  all := by
    intro job member
    rcases passes.enters job member with was | waits
    · rcases accounted.all job was with waited | taken | earlier
      · rcases passes.leaves job waited with waits | taken | now
        · exact .inl waits
        · exact .inr (.inl taken)
        · exact .inr (.inr (List.mem_append_right _ now))
      · exact .inr (.inl (passes.stays job taken))
      · exact .inr (.inr (List.mem_append_left _ earlier))
    · exact .inl waits
  queued := fun _ => after.inserted_of_queued
  taken := fun job taken => ⟨after.known job taken, after.gone job taken⟩
  cleared := by
    intro job member
    rcases List.mem_append.mp member with earlier | now
    · obtain ⟨known, unqueued, untaken⟩ := accounted.cleared job earlier
      refine ⟨passes.keeps known, fun waits => ?_, fun taken => ?_⟩
      · exact (passes.queued job waits).elim unqueued fun new => new known
      · exact (passes.taken job taken).elim untaken fun was => unqueued was.1
    · obtain ⟨was, unqueued⟩ := passes.cleared job now
      refine ⟨passes.keeps (accounted.queued job was), unqueued, fun taken => ?_⟩
      rcases passes.taken job taken with already | ⟨-, other⟩
      · exact (accounted.taken job already).2 was
      · exact other now
  once := by
    refine List.nodup_append'.mpr ⟨accounted.once, once, fun job earlier now => ?_⟩
    exact (accounted.cleared job earlier).2.1 (passes.cleared job now).1

theorem taken_congr (worked : t.worked = s.worked)
    (hands : ∀ k, (t.workers k).phase.hand = (s.workers k).phase.hand) (job : Job) :
    t.Taken job ↔ s.Taken job := by
  rw [Taken, Taken, worked]
  simp only [hands]

/-- A step that leaves the queues, behind one that does not. -/
theorem Passes.congr (passes : Passes lost s t) (inserted : u.inserted = t.inserted)
    (queues : u.jobPool.jobQueues = t.jobPool.jobQueues) (taken : ∀ job, u.Taken job ↔ t.Taken job) :
    Passes lost s u := by
  have waits : ∀ job, u.jobPool.Queued job ↔ t.jobPool.Queued job := fun job => by
    rw [JobPool.Queued, JobPool.Queued, queues]
  refine ⟨inserted ▸ passes.keeps, ?_, ?_, ?_, ?_, ?_, ?_⟩
  · intro job member
    rw [waits]
    exact passes.enters job (inserted ▸ member)
  · exact fun job waits_ => passes.queued job ((waits job).mp waits_)
  · intro job was
    rw [waits, taken]
    exact passes.leaves job was
  · exact fun job was => (taken job).mpr (passes.stays job was)
  · exact fun job taken_ => passes.taken job ((taken job).mp taken_)
  · intro job member
    rw [waits]
    exact passes.cleared job member

theorem Passes.refl (s : ThreadPool) : Passes [] s s :=
  ⟨List.Subset.refl _, fun _ => .inl, fun _ => .inl, fun _ => .inl, fun _ => id, fun _ => .inl,
    fun _ member => (by cases member)⟩

/-- A step that leaves all jobs where they are. -/
theorem passes_still (inserted : t.inserted = s.inserted)
    (queues : t.jobPool.jobQueues = s.jobPool.jobQueues) (taken : ∀ job, t.Taken job ↔ s.Taken job) :
    Passes [] s t :=
  (Passes.refl s).congr inserted queues taken

theorem PushStep.passes {me : Owner} {p : Push} {p' : Option Push} (step : PushStep s me p t p')
    (lined : s.Lined) : Passes [] s t := by
  have hands := step.workers (fun w => w.phase.hand) fun w => Phase.notify_hand _
  cases step with
  | inserted priority =>
      have fresh : (⟨s.inserted.length, priority⟩ : Job) ∉ s.inserted := by
        intro member
        have old := List.mem_map_of_mem (f := Job.id) member
        rw [lined.numbered] at old
        exact Nat.lt_irrefl _ (List.mem_range.mp old)
      refine ⟨List.subset_append_left _ _, fun job member => ?_, fun job waits => ?_, fun job was => ?_,
        fun job => id, fun job => .inl, fun job member => (by cases member)⟩
      · exact (List.mem_append.mp member).imp_right fun new =>
          JobPool.insert_queued.mpr (.inl (List.mem_singleton.mp new))
      · rcases JobPool.insert_queued.mp waits with rfl | was
        · exact .inr fresh
        · exact .inl was
      · exact .inl (JobPool.insert_queued.mpr (.inr was))
  | _ => exact passes_still rfl rfl (taken_congr rfl hands)

/-- Taking a job out of its queue puts it into the hand of the worker. -/
theorem passes_pop (lined : s.Lined) {i : Nat} {job : Job} {jobPool : JobPool}
    (empty : (s.workers i).phase.hand = none)
    (popped : s.jobPool.pop (s.workers i).priorities = some (job, jobPool)) :
    Passes [] s ({ s with jobPool }.setPhase i (.popped (some job))) := by
  have distinct : s.jobPool.Distinct := fun priority =>
    ((lined.sorted priority).sublist (lined.queues priority).sublist).imp Nat.ne_of_lt
  have waits := JobPool.pop_queued distinct popped
  have was : s.jobPool.Queued job := (JobPool.pop_mem popped).2
  have hand : Taken ({ s with jobPool }.setPhase i (.popped (some job))) job := by
    refine .inr ⟨i, ?_⟩
    rw [setPhase_self]
    rfl
  refine ⟨List.Subset.refl _, fun _ => .inl, fun other still => .inl ((waits other).mp still).1, ?_,
    ?_, ?_, fun _ member => (by cases member)⟩
  · intro other before
    by_cases same : other = job
    · exact .inr (.inl (same ▸ hand))
    · exact .inl ((waits other).mpr ⟨before, same⟩)
  · rintro other (worked | ⟨k, holds⟩)
    · exact .inl worked
    · refine .inr ⟨k, ?_⟩
      rwa [setPhase_ne]
      rintro rfl
      rw [empty] at holds
      cases holds
  · rintro other (worked | ⟨k, holds⟩)
    · exact .inl (.inl worked)
    · by_cases here : k = i
      · rw [here, setPhase_self] at holds
        cases holds
        exact .inr ⟨was, List.not_mem_nil⟩
      · rw [setPhase_ne _ _ here] at holds
        exact .inl (.inr ⟨k, holds⟩)

/-- A job in the hand of a worker that is worked stays a taken one. -/
theorem passes_work {i : Nat} {job : Job} (hand : (s.workers i).phase.hand = some job) :
    Passes [] s ({ s with worked := s.worked ++ [job] }.setPhase i (.running job none)) := by
  refine passes_still rfl rfl fun other => ⟨?_, ?_⟩
  · rintro (worked | ⟨k, holds⟩)
    · rcases List.mem_append.mp worked with old | new
      · exact .inl old
      · exact .inr ⟨i, List.mem_singleton.mp new ▸ hand⟩
    · by_cases here : k = i
      · rw [here, setPhase_self] at holds
        cases holds
      · rw [setPhase_ne _ _ here] at holds
        exact .inr ⟨k, holds⟩
  · rintro (worked | ⟨k, holds⟩)
    · exact .inl (List.mem_append_left _ worked)
    · by_cases here : k = i
      · rw [here, hand] at holds
        cases holds
        exact .inl (List.mem_append_right _ (List.mem_singleton_self _))
      · refine .inr ⟨k, ?_⟩
        rwa [setPhase_ne _ _ here]

theorem WorkerStep.passes {i : Nat} (step : WorkerStep s i t) (lined : s.Lined) :
    Passes [] s t := by
  have empty : ∀ {u : ThreadPool} {w : ThreadWorker}, (u.workers i).phase.hand = none →
      w.phase.hand = none → ∀ job, (u.setWorker i w).Taken job ↔ u.Taken job :=
    fun before after => taken_congr rfl
      (setWorker_keeps (fun w => w.phase.hand) (after.trans before.symm))
  cases step with
  | moved phase quiet before => exact passes_still rfl rfl (empty before (Phase.quiet_hand quiet))
  | starts stop test => exact passes_still rfl rfl (empty (by rw [test]; rfl) rfl)
  | counts priority left count counting =>
      exact passes_still rfl rfl (empty (by rw [counting]; rfl) rfl)
  | drained counting => exact passes_still rfl rfl (empty (by rw [counting]; rfl) rfl)
  | breaks nothing => exact passes_still rfl rfl (empty (by rw [nothing]; rfl) rfl)
  | exits leaving => exact passes_still rfl rfl (empty (by rw [leaving]; rfl) rfl)
  | pushes job p u p' running step =>
      have before : (u.workers i).phase.hand = none := by
        rw [step.workers (fun w => w.phase.hand) fun w => Phase.notify_hand _, running]
        rfl
      exact (step.passes lined).congr rfl rfl (empty before rfl)
  | works job popped => exact passes_work (by rw [popped]; rfl)
  | pops job jobPool popping popped => exact passes_pop lined (by rw [popping]; rfl) popped

/-- What an operation takes out of the queues it empties. -/
theorem passes_clear {operation : Operation} {jobPool : JobPool} (lined : s.Lined)
    (emptied : ∀ priority, jobPool.jobQueues priority =
      if operation.clears priority then [] else s.jobPool.jobQueues priority) :
    Passes (s.droppedBy operation) s { s with jobPool } := by
  have waits : ∀ job, jobPool.Queued job ↔
      s.jobPool.Queued job ∧ operation.clears job.priority = false := by
    intro job
    rw [JobPool.Queued, emptied]
    cases operation.clears job.priority with
    | true => exact iff_of_false List.not_mem_nil fun both => by cases both.2
    | false => exact (and_iff_left rfl).symm
  refine ⟨List.Subset.refl _, fun _ => .inl, fun job still => .inl ((waits job).mp still).1, ?_,
    fun _ => id, fun _ => .inl, ?_⟩
  · intro job was
    cases clears : operation.clears job.priority with
    | true => exact .inr (.inr (mem_droppedBy.mpr ⟨lined.inserted_of_queued was, clears, was⟩))
    | false => exact .inl ((waits job).mpr ⟨was, clears⟩)
  · intro job member
    obtain ⟨-, clears, was⟩ := mem_droppedBy.mp member
    refine ⟨was, fun still => ?_⟩
    rw [((waits job).mp still).2] at clears
    cases clears

theorem CallerStep.passes {j : Nat} {op : Operation} {op' : Option Operation}
    (step : CallerStep s j op t op') (lined : s.Lined) : Passes (s.droppedBy op) s t := by
  have hands := step.phases Phase.hand Phase.notify_hand
  cases step with
  | pushes p t p' step => exact .quiet (fun _ => rfl) (step.passes lined)
  | clearsAll before => exact passes_clear lined fun _ => rfl
  | clears priority =>
      refine passes_clear lined fun other => ?_
      by_cases same : other = priority
      · rw [same, Operation.clears, if_pos (decide_eq_true rfl)]
        exact JobPool.setQueue_self _ _ _
      · rw [Operation.clears, if_neg (by simpa using same)]
        exact s.jobPool.setQueue_ne [] same
  | _ => exact .quiet (fun _ => rfl) (passes_still rfl rfl (taken_congr rfl hands))

theorem passes_step {a : Action} (lined : s.Lined) (stepped : s.step a = some t) :
    Passes (s.cleared a) s t := by
  cases step_inv stepped with
  | worker i t step => exact step.passes lined
  | push i priority job running =>
      exact passes_still rfl rfl (taken_congr rfl (setWorker_keeps (fun w => w.phase.hand)
        (by rw [running]; rfl)))
  | call j call idle => exact passes_still rfl rfl fun _ => Iff.rfl
  | caller j op u op' called step =>
      have dropped : s.cleared (.caller j) = s.droppedBy op := by
        rw [cleared, called, Option.elim_some]
      rw [dropped]
      exact (step.passes lined).congr rfl rfl fun _ => Iff.rfl

theorem Lined.cleared_nodup (lined : s.Lined) (a : Action) : (s.cleared a).Nodup := by
  cases a with
  | caller j =>
      change ((s.callers j).elim [] s.droppedBy).Nodup
      cases s.callers j with
      | none => exact List.nodup_nil
      | some operation => exact lined.inserted_nodup.filter _
  | _ => exact List.nodup_nil

end

/-- Whatever is pushed, cleared, paused, stopped and removed, and in whatever order the threads
run: a job that was pushed waits, or one worker has taken it once, or one clearing has dropped it;
and it has left its queue before any job of the same priority that was pushed behind it is taken. -/
theorem jobs_in_order {priorities : List (List JobPriorities)} {actions : List Action}
    {s : ThreadPool} (ran : run step (started priorities) actions = some s) :
    Accounted (outputs step cleared (started priorities) actions) s ∧ s.worked.Nodup ∧
      (∀ i job, (s.workers i).phase.hand = some job → job ∉ s.worked ∧
        ∀ k, (s.workers k).phase.hand = some job → k = i) ∧
      ∀ front first middle second back,
        s.inserted = front ++ first :: (middle ++ second :: back) →
        first.priority = second.priority → s.Taken second → ¬ s.jobPool.Queued first := by
  have start : Accounted [] (started priorities) :=
    ⟨fun _ member => (by cases member), fun _ waits => (by cases waits),
      fun job taken => absurd taken (started_untaken priorities job),
      fun _ member => (by cases member), List.nodup_nil⟩
  have both := run_outputs (I := fun lost s => s.Lined ∧ Accounted lost s)
    (fun lost s a t held stepped => ⟨lined_step held.1 stepped, held.2.passes
      (lined_step held.1 stepped) (passes_step held.1 stepped) (held.1.cleared_nodup a)⟩)
    ⟨started_lined priorities, start⟩ ran
  obtain ⟨lined, accounted⟩ := both
  refine ⟨accounted, lined.once, fun i job hand => ⟨lined.unworked i job hand, fun k other =>
    lined.single k i job other hand⟩, ?_⟩
  intro front first middle second back whole same taken queued
  have sorted : (s.inserted.map Job.id).Pairwise (· < ·) := lined.numbered ▸ List.pairwise_lt_range
  rw [whole, List.map_append, List.map_cons, List.pairwise_append, List.pairwise_cons] at sorted
  have later : first.id < second.id := sorted.2.1.1 _ (List.mem_map_of_mem (by simp))
  exact lined.gone second taken (lined.behind queued (lined.known second taken) same.symm later)

/-- One call of `push` from the beginning to the end. -/
def pushHigh : List Action := .call 0 (.push .high) :: List.replicate 5 (.caller 0)

/-- Three jobs of one priority: the second has been popped when the third is cleared, and a fourth
one comes then. -/
def thirdCleared : List Action :=
  pushHigh ++ pushHigh ++ List.replicate 16 (.worker 0) ++ pushHigh ++
    [.call 1 (.removeWorkers .high), .caller 1] ++ pushHigh

theorem jobs_in_order_cleared : ∃ s, run step (started [[.high]]) thirdCleared = some s ∧
    Accounted [⟨2, .high⟩] s ∧ s.worked.Nodup ∧ (⟨1, .high⟩ ∉ s.worked ∧
      ∀ k, (s.workers k).phase.hand = some ⟨1, .high⟩ → k = 0) ∧ ¬ s.jobPool.Queued ⟨0, .high⟩ := by
  obtain ⟨accounted, once, hands, order⟩ := @jobs_in_order [[.high]] thirdCleared _ rfl
  exact ⟨_, rfl, accounted, once, hands 0 ⟨1, .high⟩ rfl,
    order [] ⟨0, .high⟩ [] ⟨1, .high⟩ [⟨2, .high⟩, ⟨3, .high⟩] rfl rfl (.inr ⟨0, rfl⟩)⟩

end ThreadPool
end CppToolkit.Thread
