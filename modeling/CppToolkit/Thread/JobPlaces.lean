import CppToolkit.Thread.PoolSteps

/-! Where a job is: in a queue, in the hand of a worker, or worked. While nothing is
cleared, every job that was inserted is in exactly one place. -/
namespace CppToolkit.Thread

inductive Place where
  | queue
  | hand (worker : Nat)
  | worked
  deriving DecidableEq, Repr

/-- Calls that clear no queue and remove no worker. -/
def Call.plain : Call → Bool
  | .stop immediately => !immediately
  | .removeWorkers _ => false
  | _ => true

def Action.plain : Action → Bool
  | .call _ c => c.plain
  | _ => true

def Operation.plain : Operation → Bool
  | .stop immediately _ => !immediately
  | .stopTest immediately _ => !immediately
  | .stopLocked immediately _ => !immediately
  | .clear _ => false
  | .remove _ => false
  | .next (.remove _ _) _ => false
  | .halting (.remove _ _) _ _ => false
  | .joining (.remove _ _) _ _ => false
  | _ => true

namespace ThreadPool

def At (s : ThreadPool) (job : Job) : Place → Prop
  | .queue => s.jobPool.Queued job
  | .hand i => (s.workers i).phase.hand = some job
  | .worked => job ∈ s.worked

/-- Every inserted job has one place, and is there once. -/
structure Placed (s : ThreadPool) : Prop where
  distinct : s.jobPool.Distinct
  once : s.worked.Nodup
  numbered : ∀ job ∈ s.inserted, job.id < s.inserted.length
  known : ∀ job place, s.At job place → job ∈ s.inserted
  kept : ∀ job ∈ s.inserted, ∃ place, s.At job place
  single : ∀ job place other, s.At job place → s.At job other → place = other

theorem started_placed (priorities : List (List JobPriorities)) : (started priorities).Placed := by
  have nowhere : ∀ job place, ¬ (started priorities).At job place := by
    intro job place at_
    cases place with
    | queue => exact JobPool.not_queued_empty job at_
    | hand i =>
        simp only [At] at at_
        rcases started_worker priorities i with ⟨_, list, is⟩ | ⟨_, is⟩ <;>
        · rw [is] at at_
          cases at_
    | worked => cases at_
  exact ⟨JobPool.distinct_empty, List.nodup_nil, fun _ member => (by cases member),
    fun job place at_ => absurd at_ (nowhere job place), fun _ member => (by cases member),
    fun job place _ at_ => absurd at_ (nowhere job place)⟩

section
variable {s t : ThreadPool} (placed : s.Placed)
include placed

theorem Placed.still (jobPool : ∀ job, t.jobPool.Queued job ↔ s.jobPool.Queued job)
    (distinct : t.jobPool.Distinct)
    (hands : ∀ i, (t.workers i).phase.hand = (s.workers i).phase.hand)
    (worked : t.worked = s.worked) (inserted : t.inserted = s.inserted) : t.Placed := by
  have same : ∀ job place, t.At job place ↔ s.At job place := by
    intro job place
    cases place with
    | queue => exact jobPool job
    | hand i => simp only [At, hands]
    | worked => simp only [At, worked]
  refine ⟨distinct, worked ▸ placed.once, inserted ▸ placed.numbered, ?_, ?_, ?_⟩
  · intro job place at_
    exact inserted ▸ placed.known job place ((same job place).mp at_)
  · intro job member
    obtain ⟨place, at_⟩ := placed.kept job (inserted ▸ member)
    exact ⟨place, (same job place).mpr at_⟩
  · intro job place other one two
    exact placed.single job place other ((same job place).mp one) ((same job other).mp two)

/-- One job goes from one place to another. -/
theorem Placed.moved {job : Job} {origin target : Place} (was : s.At job origin)
    (now : ∀ other place, t.At other place ↔ if other = job then place = target else s.At other place)
    (distinct : t.jobPool.Distinct) (once : t.worked.Nodup) (inserted : t.inserted = s.inserted) :
    t.Placed := by
  refine ⟨distinct, once, inserted ▸ placed.numbered, ?_, ?_, ?_⟩
  · intro other place at_
    rw [inserted]
    by_cases same : other = job
    · exact same ▸ placed.known job origin was
    · exact placed.known other place (by simpa only [now, if_neg same] using at_)
  · intro other member
    by_cases same : other = job
    · exact ⟨target, (now other target).mpr (by rw [if_pos same])⟩
    · obtain ⟨place, at_⟩ := placed.kept other (inserted ▸ member)
      exact ⟨place, (now other place).mpr (by rwa [if_neg same])⟩
  · intro other place place' one two
    rw [now] at one two
    by_cases same : other = job
    · rw [if_pos same] at one two
      exact one.trans two.symm
    · rw [if_neg same] at one two
      exact placed.single other place place' one two

theorem Placed.insert (priority : JobPriorities) :
    Placed { s with
      jobPool := s.jobPool.insert ⟨s.inserted.length, priority⟩
      inserted := s.inserted ++ [⟨s.inserted.length, priority⟩] } := by
  have fresh : (⟨s.inserted.length, priority⟩ : Job) ∉ s.inserted := fun member =>
    Nat.lt_irrefl _ (placed.numbered _ member)
  have now : ∀ (job : Job) (place : Place), At { s with
      jobPool := s.jobPool.insert ⟨s.inserted.length, priority⟩
      inserted := s.inserted ++ [⟨s.inserted.length, priority⟩] } job place ↔
      (job = ⟨s.inserted.length, priority⟩ ∧ place = .queue) ∨ s.At job place := by
    intro job place
    cases place with
    | queue => simp only [At, JobPool.insert_queued, and_true]
    | hand i => simp only [At, reduceCtorEq, and_false, false_or]
    | worked => simp only [At, reduceCtorEq, and_false, false_or]
  refine ⟨JobPool.insert_distinct placed.distinct fun queued => fresh (placed.known _ .queue queued),
    placed.once, ?_, ?_, ?_, ?_⟩
  · intro job member
    rw [List.length_append, List.length_singleton]
    rcases List.mem_append.mp member with old | new
    · exact Nat.lt_succ_of_lt (placed.numbered job old)
    · rw [List.mem_singleton.mp new]
      exact Nat.lt_succ_self _
  · intro job place at_
    rcases (now job place).mp at_ with ⟨rfl, _⟩ | old
    · exact List.mem_append_right _ (List.mem_singleton_self _)
    · exact List.mem_append_left _ (placed.known job place old)
  · intro job member
    rcases List.mem_append.mp member with old | new
    · obtain ⟨place, at_⟩ := placed.kept job old
      exact ⟨place, (now job place).mpr (.inr at_)⟩
    · exact ⟨.queue, (now job .queue).mpr (.inl ⟨List.mem_singleton.mp new, rfl⟩)⟩
  · intro job place other one two
    rcases (now job place).mp one with ⟨rfl, here⟩ | old
    · rcases (now _ other).mp two with ⟨_, there⟩ | old
      · exact here.trans there.symm
      · exact absurd (placed.known _ other old) fresh
    · rcases (now job other).mp two with ⟨rfl, _⟩ | old'
      · exact absurd (placed.known _ place old) fresh
      · exact placed.single job place other old old'

theorem Placed.pushStep {me : Owner} {p : Push} {p' : Option Push} (step : PushStep s me p t p') :
    t.Placed := by
  cases step with
  | inserted priority => exact placed.insert priority
  | notified job i left =>
      exact placed.still (fun _ => Iff.rfl) placed.distinct
        (setWorker_keeps (fun w => w.phase.hand) (Phase.notify_hand _)) rfl rfl
  | _ => exact placed.still (fun _ => Iff.rfl) placed.distinct (fun _ => rfl) rfl rfl

/-- Where the job that worker `i` pops goes. -/
theorem Placed.pop {i : Nat} {job : Job} {jobPool : JobPool}
    (popping : (s.workers i).phase.hand = none)
    (popped : s.jobPool.pop (s.workers i).priorities = some (job, jobPool)) :
    Placed ({ s with jobPool }.setPhase i (.popped (some job))) := by
  have queued : s.At job .queue := (JobPool.pop_mem popped).2
  have hands : ∀ k, (({ s with jobPool }.setPhase i (.popped (some job))).workers k).phase.hand =
      if k = i then some job else (s.workers k).phase.hand := by
    intro k
    by_cases here : k = i
    · rw [if_pos here, here, setPhase_self]
      rfl
    · rw [if_neg here, setPhase_ne _ _ here]
  refine @Placed.moved s _ placed job .queue (.hand i) queued ?_
    (JobPool.pop_distinct placed.distinct popped) placed.once rfl
  intro other place
  by_cases same : other = job
  · subst same
    rw [if_pos rfl]
    cases place with
    | queue =>
        refine ⟨?_, nofun⟩
        intro at_
        exact absurd rfl ((JobPool.pop_queued placed.distinct popped other).mp at_).2
    | hand k =>
        simp only [At, hands, Place.hand.injEq]
        by_cases here : k = i
        · rw [if_pos here]
          exact ⟨fun _ => here, fun _ => rfl⟩
        · rw [if_neg here]
          refine ⟨?_, fun same => absurd same here⟩
          intro at_
          cases placed.single other .queue (.hand k) queued at_
    | worked =>
        refine ⟨?_, nofun⟩
        intro at_
        cases placed.single other .queue .worked queued at_
  · rw [if_neg same]
    cases place with
    | queue =>
        refine ⟨fun at_ => ((JobPool.pop_queued placed.distinct popped other).mp at_).1, ?_⟩
        intro at_
        exact (JobPool.pop_queued placed.distinct popped other).mpr ⟨at_, same⟩
    | hand k =>
        simp only [At, hands]
        by_cases here : k = i
        · rw [if_pos here, here, popping]
          exact ⟨fun at_ => absurd (Option.some.inj at_).symm same, nofun⟩
        · rw [if_neg here]
    | worked => exact Iff.rfl

/-- The job in the hand of worker `i` is worked. -/
theorem Placed.work {i : Nat} {job : Job} (popped : (s.workers i).phase = .popped (some job)) :
    Placed ({ s with worked := s.worked ++ [job] }.setPhase i (.running job none)) := by
  have hand : s.At job (.hand i) := by
    rw [At, popped]
    rfl
  have hands : ∀ k,
      (({ s with worked := s.worked ++ [job] }.setPhase i (.running job none)).workers k).phase.hand =
        if k = i then none else (s.workers k).phase.hand := by
    intro k
    by_cases here : k = i
    · rw [if_pos here, here, setPhase_self]
      rfl
    · rw [if_neg here, setPhase_ne _ _ here]
  have new : job ∉ s.worked := by
    intro at_
    cases placed.single job (.hand i) .worked hand at_
  refine @Placed.moved s _ placed job (.hand i) .worked hand ?_ placed.distinct
    (List.nodup_append.mpr ⟨placed.once, List.pairwise_singleton _ _, ?_⟩) rfl
  · intro other place
    by_cases same : other = job
    · subst same
      rw [if_pos rfl]
      cases place with
      | queue =>
          refine ⟨?_, nofun⟩
          intro at_
          cases placed.single other (.hand i) .queue hand at_
      | hand k =>
          simp only [At, hands, reduceCtorEq, iff_false]
          by_cases here : k = i
          · rw [if_pos here]
            nofun
          · rw [if_neg here]
            intro at_
            cases placed.single other (.hand i) (.hand k) hand at_
            exact here rfl
      | worked => exact ⟨fun _ => rfl, fun _ => List.mem_append_right _ (List.mem_singleton_self _)⟩
    · rw [if_neg same]
      cases place with
      | queue => exact Iff.rfl
      | hand k =>
          simp only [At, hands]
          by_cases here : k = i
          · rw [if_pos here, here, popped]
            exact ⟨nofun, fun at_ => absurd (Option.some.inj at_).symm same⟩
          · rw [if_neg here]
      | worked =>
          change other ∈ s.worked ++ [job] ↔ other ∈ s.worked
          rw [List.mem_append, List.mem_singleton, or_iff_left same]
  · intro a member b single equal
    rw [List.mem_singleton.mp single] at equal
    exact new (equal ▸ member)

theorem Placed.workerStep {i : Nat} (step : WorkerStep s i t) : t.Placed := by
  have phases : ∀ phase : Phase, phase.hand = none → (s.workers i).phase.hand = none →
      (s.setPhase i phase).Placed := by
    intro phase now before
    exact placed.still (fun _ => Iff.rfl) placed.distinct
      (setWorker_keeps (fun w => w.phase.hand) (now.trans before.symm)) rfl rfl
  cases step with
  | moved phase quiet before => exact phases phase (Phase.quiet_hand quiet) before
  | starts stop test => exact phases _ rfl (by rw [test]; rfl)
  | counts priority left count counting => exact phases _ rfl (by rw [counting]; rfl)
  | drained counting => exact phases _ rfl (by rw [counting]; rfl)
  | breaks nothing => exact phases _ rfl (by rw [nothing]; rfl)
  | pops job jobPool popping popped => exact placed.pop (by rw [popping]; rfl) popped
  | works job popped => exact placed.work popped
  | pushes job p u p' running step =>
      have none_ : (u.workers i).phase.hand = none := by
        rw [step.workers (fun w => w.phase.hand) fun w => Phase.notify_hand _, running]
        rfl
      have pushed := placed.pushStep step
      exact pushed.still (fun _ => Iff.rfl) pushed.distinct
        (setWorker_keeps (fun w => w.phase.hand) none_.symm) rfl rfl
  | exits leaving =>
      exact placed.still (fun _ => Iff.rfl) placed.distinct
        (setWorker_keeps (fun w => w.phase.hand) (by rw [leaving]; rfl)) rfl rfl

theorem Placed.callerStep {j : Nat} {op : Operation} {op' : Option Operation}
    (plain : op.plain = true) (step : CallerStep s j op t op') : t.Placed := by
  have hands := step.phases Phase.hand Phase.notify_hand
  cases step with
  | pushes p t p' step => exact placed.pushStep step
  | clearsAll => cases plain
  | clears => cases plain
  | _ => exact placed.still (fun _ => Iff.rfl) placed.distinct hands rfl rfl

end
end ThreadPool
end CppToolkit.Thread
