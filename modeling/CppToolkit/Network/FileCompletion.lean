import CppToolkit.Library.Machine
import CppToolkit.Network.FileManager

/-! Completion of a file transfer: whatever the interleaving of the critical sections,
the callback runs once for a guid, with every outcome in the order of recording. -/
namespace CppToolkit.Network
open Memory Utilities Bag Machine

def failuresOf (outcomes : List FileOutcome) : List (List UInt8) :=
  outcomes.filterMap fun
    | .failure message => some message
    | .success _ _ => none

def successesOf (outcomes : List FileOutcome) : List (List UInt8 × List UInt8) :=
  outcomes.filterMap fun
    | .failure _ => none
    | .success message path => some (message, path)

/-- The entry of a transfer of `count` files after these outcomes. -/
def recorded (count : Nat) (outcomes : List FileOutcome) : ReceivedConditions :=
  ⟨count, failuresOf outcomes, successesOf outcomes⟩

theorem recorded_record (count : Nat) (outcomes : List FileOutcome) (outcome : FileOutcome) :
    (recorded count outcomes).record outcome = recorded count (outcomes ++ [outcome]) := by
  cases outcome <;>
    simp [recorded, failuresOf, successesOf, ReceivedConditions.record, List.filterMap_append]

theorem recorded_targetCount (count : Nat) (outcomes : List FileOutcome) :
    (recorded count outcomes).targetCount = outcomes.length := by
  induction outcomes with
  | nil => rfl
  | cons outcome outcomes ih =>
      simp only [recorded, ReceivedConditions.targetCount] at ih
      cases outcome <;>
        simp only [recorded, failuresOf, successesOf, ReceivedConditions.targetCount,
          List.filterMap_cons, List.length_cons] at ih ⊢ <;>
        omega

namespace FileManagement

/-- What a step does, by the state it finds. -/
inductive Stepped (s : FileManagement) : Action → FileManagement → Prop
  | started {guid count} : s.manager.fileConditions guid = none →
      Stepped s (.start guid count) { s with manager := s.manager.insert guid ⟨count, [], []⟩ }
  | startRefused {guid count conditions} : s.manager.fileConditions guid = some conditions →
      Stepped s (.start guid count) s
  | recorded {guid outcome conditions} : s.manager.fileConditions guid = some conditions →
      Stepped s (.record guid outcome)
        { s with
          manager := s.manager.insert guid (conditions.record outcome)
          checks := s.checks ++ [guid] }
  | recordRefused {guid outcome} : s.manager.fileConditions guid = none →
      Stepped s (.record guid outcome) s
  | checked {thread guid rest} : takeAt s.checks thread = some (guid, rest) →
      (∀ conditions, s.manager.fileConditions guid = some conditions →
        conditions.count = conditions.targetCount → s.manager.threadPool ≠ some false) →
      Stepped s (.check thread) { s with checks := rest }
  | completing {thread guid rest conditions} : takeAt s.checks thread = some (guid, rest) →
      s.manager.fileConditions guid = some conditions →
      conditions.count = conditions.targetCount → s.manager.threadPool = some false →
      Stepped s (.check thread)
        { s with
          checks := rest
          jobs := s.jobs ++ [.checkConditionCallback (Converter.toArray guid)] }
  | missed {position guid rest} :
      takeAt s.jobs position = some (.checkConditionCallback guid, rest) →
      s.manager.fileConditions (Converter.toString guid) = none →
      Stepped s (.job position) { s with jobs := rest }
  | completed {position guid rest conditions} :
      takeAt s.jobs position = some (.checkConditionCallback guid, rest) →
      s.manager.fileConditions (Converter.toString guid) = some conditions →
      s.manager.callback = true →
      Stepped s (.job position)
        { s with
          manager := s.manager.erase (Converter.toString guid)
          jobs := rest
          calling := s.calling ++
            [⟨Converter.toString guid, conditions.failures, conditions.successes⟩] }
  | dropped {position guid rest conditions} :
      takeAt s.jobs position = some (.checkConditionCallback guid, rest) →
      s.manager.fileConditions (Converter.toString guid) = some conditions →
      s.manager.callback = false →
      Stepped s (.job position)
        { s with manager := s.manager.erase (Converter.toString guid), jobs := rest }
  | called {position completion rest} : takeAt s.calling position = some (completion, rest) →
      Stepped s (.call position)
        { s with calling := rest, calls := s.calls ++ [completion] }

theorem checkStep_stepped {s t : FileManagement} {thread : Nat} {guid : Guid} {rest : List Guid}
    (taken : takeAt s.checks thread = some (guid, rest)) (checked : s.checkStep guid rest = some t) :
    Stepped s (.check thread) t := by
  unfold checkStep FileManager.checkCondition at checked
  cases entry : s.manager.fileConditions guid with
  | none =>
      simp only [entry] at checked
      cases checked
      exact .checked taken fun conditions found => by
        rw [entry] at found
        cases found
  | some conditions =>
      simp only [entry] at checked
      by_cases full : conditions.count = conditions.targetCount
      · rw [if_neg (not_not_intro full)] at checked
        cases pool : s.manager.threadPool with
        | none =>
            simp only [pool] at checked
            cases checked
        | some locked =>
            cases locked with
            | true =>
                simp only [pool] at checked
                cases checked
                exact .checked taken fun _ _ _ open_ => by
                  rw [pool] at open_
                  cases open_
            | false =>
                simp only [pool] at checked
                cases checked
                exact .completing taken entry full pool
      · rw [if_pos full] at checked
        cases checked
        exact .checked taken fun other found same => by
          rw [entry] at found
          cases found
          exact absurd same full

theorem jobStep_stepped (s : FileManagement) {position : Nat} {guid : List UInt8}
    {rest : List Job} (taken : takeAt s.jobs position = some (.checkConditionCallback guid, rest)) :
    Stepped s (.job position) (s.jobStep guid rest) := by
  unfold jobStep FileManager.checkConditionCallback
  cases entry : s.manager.fileConditions (Converter.toString guid) with
  | none =>
      simp only [entry]
      exact .missed taken entry
  | some conditions =>
      cases set : s.manager.callback with
      | true =>
          simp only [entry, if_pos]
          exact .completed taken entry set
      | false =>
          simp only [entry, Bool.false_eq_true, if_false]
          exact .dropped taken entry set

theorem stepped_of_step {s t : FileManagement} {a : Action} (stepped : s.step a = some t) :
    Stepped s a t := by
  cases a with
  | start guid count =>
      cases stepped
      unfold startStep FileManager.start
      cases entry : s.manager.fileConditions guid with
      | none => exact .started entry
      | some conditions => exact .startRefused entry
  | record guid outcome =>
      cases stepped
      unfold recordStep FileManager.record
      cases entry : s.manager.fileConditions guid with
      | none => exact .recordRefused entry
      | some conditions => exact .recorded entry
  | check thread =>
      simp only [step] at stepped
      split at stepped
      next taken => exact checkStep_stepped taken stepped
      next => cases stepped
  | job position =>
      simp only [step] at stepped
      split at stepped
      next taken =>
        cases stepped
        exact jobStep_stepped s taken
      next => cases stepped
  | call position =>
      simp only [step] at stepped
      split at stepped
      next taken =>
        cases stepped
        exact .called taken
      next => cases stepped

/-- The guid that a start or a report names. -/
def Action.guid? : Action → Option Guid
  | .start guid _ => some guid
  | .record guid _ => some guid
  | _ => none

/-- The guid an action works for: a check, a job and a call belong to the guid they
were made for. -/
def target (s : FileManagement) : Action → Option Guid
  | .start guid _ => some guid
  | .record guid _ => some guid
  | .check thread => (takeAt s.checks thread).map fun taken => taken.1
  | .job position =>
      match takeAt s.jobs position with
      | some (.checkConditionCallback guid, _) => some guid
      | _ => none
  | .call position => (takeAt s.calling position).map fun taken => taken.1.guid

def reportOf (guid : Guid) : Action → Option FileOutcome
  | .record other outcome => if other = guid then some outcome else none
  | _ => none

/-- The reports for `guid`, in the order in which they are recorded. -/
def reportsOf (guid : Guid) (actions : List Action) : List FileOutcome :=
  actions.filterMap (reportOf guid)

/-- The completions of `guid` on their way to the callback and made. -/
def completions (s : FileManagement) (guid : Guid) : List FileManager.Completion :=
  (s.calling ++ s.calls).filter fun completion => completion.guid = guid

/-- Pool and callback are there, and no guid at work starts with a byte order mark. -/
structure Sound (s : FileManagement) : Prop where
  pool : s.manager.threadPool = some false
  callback : s.manager.callback = true
  checks : ∀ guid ∈ s.checks, ¬ Converter.hasByteOrderMark guid
  jobs : ∀ job ∈ s.jobs, ∃ guid, job = .checkConditionCallback guid ∧
    ¬ Converter.hasByteOrderMark guid

def Action.Plain (a : Action) : Prop := ∀ guid, a.guid? = some guid → ¬ Converter.hasByteOrderMark guid

theorem initial_sound : initial.Sound :=
  ⟨rfl, rfl, fun _ member => (by cases member), fun _ member => (by cases member)⟩

theorem Sound.key {s : FileManagement} (sound : s.Sound) {position : Nat} {guid : List UInt8}
    {rest : List Job} (taken : takeAt s.jobs position = some (.checkConditionCallback guid, rest)) :
    Converter.toString guid = guid := by
  obtain ⟨other, same, plain⟩ := sound.jobs _ (takeAt_mem taken)
  cases same
  exact Converter.toString_toArray plain

theorem Sound.step {s t : FileManagement} {a : Action} (sound : s.Sound) (plain : a.Plain)
    (stepped : Stepped s a t) : t.Sound := by
  obtain ⟨pool, callback, checks, jobs⟩ := sound
  cases stepped with
  | started => exact ⟨pool, callback, checks, jobs⟩
  | startRefused => exact ⟨pool, callback, checks, jobs⟩
  | recorded =>
      refine ⟨pool, callback, ?_, jobs⟩
      intro guid member
      rcases List.mem_append.mp member with old | new
      · exact checks guid old
      · rw [List.mem_singleton.mp new]
        exact plain _ rfl
  | recordRefused => exact ⟨pool, callback, checks, jobs⟩
  | checked taken =>
      exact ⟨pool, callback, fun guid member => checks guid (mem_of_takeAt taken member), jobs⟩
  | completing taken =>
      refine ⟨pool, callback, fun guid member => checks guid (mem_of_takeAt taken member), ?_⟩
      intro job member
      rcases List.mem_append.mp member with old | new
      · exact jobs job old
      · exact ⟨_, List.mem_singleton.mp new, checks _ (takeAt_mem taken)⟩
  | missed taken =>
      exact ⟨pool, callback, checks, fun job member => jobs job (mem_of_takeAt taken member)⟩
  | completed taken =>
      exact ⟨pool, callback, checks, fun job member => jobs job (mem_of_takeAt taken member)⟩
  | dropped taken =>
      exact ⟨pool, callback, checks, fun job member => jobs job (mem_of_takeAt taken member)⟩
  | called => exact ⟨pool, callback, checks, jobs⟩

/-- What the manager and its threads hold for `guid` is the same in both states. -/
structure SameFor (guid : Guid) (s t : FileManagement) : Prop where
  entry : t.manager.fileConditions guid = s.manager.fileConditions guid
  checks : guid ∈ t.checks ↔ guid ∈ s.checks
  jobs : .checkConditionCallback guid ∈ t.jobs ↔ .checkConditionCallback guid ∈ s.jobs
  completions : (t.completions guid).Perm (s.completions guid)

theorem SameFor.refl (guid : Guid) (s : FileManagement) : SameFor guid s s :=
  ⟨rfl, Iff.rfl, Iff.rfl, .refl _⟩

theorem insert_other {m : FileManager} {guid other : Guid} (different : guid ≠ other)
    (conditions : ReceivedConditions) :
    (m.insert guid conditions).fileConditions other = m.fileConditions other :=
  Function.update_of_ne different.symm _ _

theorem erase_other {m : FileManager} {guid other : Guid} (different : guid ≠ other) :
    (m.erase guid).fileConditions other = m.fileConditions other :=
  Function.update_of_ne different.symm _ _

theorem insert_same (m : FileManager) (guid : Guid) (conditions : ReceivedConditions) :
    (m.insert guid conditions).fileConditions guid = some conditions := Function.update_self _ _ _

theorem erase_same (m : FileManager) (guid : Guid) :
    (m.erase guid).fileConditions guid = none := Function.update_self _ _ _

theorem mem_rest_iff {α : Type} {bag rest : List α} {position : Nat} {a b : α}
    (taken : takeAt bag position = some (a, rest)) (different : a ≠ b) : b ∈ rest ↔ b ∈ bag := by
  rw [mem_iff_of_takeAt taken]
  exact ⟨.inr, fun member => member.resolve_left different.symm⟩

/-- Calling the callback only moves a completion on. -/
theorem called_completions {s : FileManagement} {position : Nat}
    {completion : FileManager.Completion} {rest : List FileManager.Completion}
    (taken : takeAt s.calling position = some (completion, rest)) (guid : Guid) :
    (completions { s with calling := rest, calls := s.calls ++ [completion] } guid).Perm
      (s.completions guid) := by
  apply List.Perm.filter _
  have moved : (rest ++ (s.calls ++ [completion])).Perm (completion :: (rest ++ s.calls)) := by
    rw [← List.append_assoc]
    exact List.perm_append_singleton _ _
  exact moved.trans ((takeAt_perm taken).symm.append_right s.calls)

/-- An action leaves everything of the guids it does not work for as it was. -/
theorem Stepped.others {s t : FileManagement} {a : Action} (sound : s.Sound)
    (stepped : Stepped s a t) {guid : Guid} (other : s.target a ≠ some guid) :
    SameFor guid s t := by
  cases stepped with
  | started =>
      exact ⟨insert_other (fun same => other (congrArg some same)) _, Iff.rfl, Iff.rfl, .refl _⟩
  | startRefused => exact .refl _ _
  | recorded =>
      have different := fun same => other (congrArg some same)
      refine ⟨insert_other different _, ?_, Iff.rfl, .refl _⟩
      rw [List.mem_append, List.mem_singleton]
      exact ⟨fun member => member.resolve_right fun same => different same.symm, .inl⟩
  | recordRefused => exact .refl _ _
  | checked taken =>
      rw [target, taken] at other
      exact ⟨rfl, mem_rest_iff taken fun same => other (congrArg some same), Iff.rfl, .refl _⟩
  | @completing _ at_ _ _ taken =>
      rw [target, taken] at other
      have different : at_ ≠ guid := fun same => other (congrArg some same)
      refine ⟨rfl, mem_rest_iff taken different, ?_, .refl _⟩
      rw [List.mem_append, List.mem_singleton]
      refine ⟨fun member => member.resolve_right ?_, .inl⟩
      intro same
      cases same
      exact different rfl
  | @missed _ at_ _ taken =>
      rw [target, taken] at other
      have different : at_ ≠ guid := fun same => other (congrArg some same)
      exact ⟨rfl, Iff.rfl, mem_rest_iff taken fun same => different (Job.checkConditionCallback.inj same),
        .refl _⟩
  | @completed _ at_ _ _ taken =>
      rw [target, taken] at other
      have different : at_ ≠ guid := fun same => other (congrArg some same)
      rw [sound.key taken]
      refine ⟨erase_other different, Iff.rfl,
        mem_rest_iff taken fun same => different (Job.checkConditionCallback.inj same), ?_⟩
      simp [completions, List.filter_append, different]
  | @dropped _ at_ _ _ taken =>
      rw [target, taken] at other
      have different : at_ ≠ guid := fun same => other (congrArg some same)
      rw [sound.key taken]
      exact ⟨erase_other different, Iff.rfl,
        mem_rest_iff taken fun same => different (Job.checkConditionCallback.inj same), .refl _⟩
  | called taken => exact ⟨rfl, Iff.rfl, Iff.rfl, called_completions taken guid⟩

/-- Nothing in the manager is about `guid`. -/
structure Absent (guid : Guid) (s : FileManagement) : Prop where
  entry : s.manager.fileConditions guid = none
  checks : guid ∉ s.checks
  jobs : .checkConditionCallback guid ∉ s.jobs
  completions : s.completions guid = []

/-- These outcomes are recorded, and the callback is not on its way. With the last
outcome some thread has still to check, or a job has still to run. -/
structure Collecting (guid : Guid) (count : Nat) (outcomes : List FileOutcome)
    (s : FileManagement) : Prop where
  entry : s.manager.fileConditions guid = some (recorded count outcomes)
  bounded : outcomes.length ≤ count
  pending : outcomes.length = count → guid ∈ s.checks ∨ .checkConditionCallback guid ∈ s.jobs
  early : .checkConditionCallback guid ∈ s.jobs → outcomes.length = count
  completions : s.completions guid = []

/-- The entry is gone, and its one completion carries all outcomes. -/
structure Completed (guid : Guid) (count : Nat) (outcomes : List FileOutcome)
    (s : FileManagement) : Prop where
  entry : s.manager.fileConditions guid = none
  full : outcomes.length = count
  completions : s.completions guid = [⟨guid, failuresOf outcomes, successesOf outcomes⟩]

def Progress (guid : Guid) (count : Nat) (outcomes : List FileOutcome) (s : FileManagement) : Prop :=
  Collecting guid count outcomes s ∨ Completed guid count outcomes s

theorem Absent.transfer {guid : Guid} {s t : FileManagement} (absent : Absent guid s)
    (same : SameFor guid s t) : Absent guid t where
  entry := same.entry.trans absent.entry
  checks := mt same.checks.mp absent.checks
  jobs := mt same.jobs.mp absent.jobs
  completions := List.perm_nil.mp (absent.completions ▸ same.completions)

theorem Progress.transfer {guid : Guid} {count : Nat} {outcomes : List FileOutcome}
    {s t : FileManagement} (progress : Progress guid count outcomes s) (same : SameFor guid s t) :
    Progress guid count outcomes t := by
  rcases progress with ⟨entry, bounded, pending, early, none⟩ | ⟨entry, full, one⟩
  · refine .inl ⟨same.entry.trans entry, bounded, ?_, fun job => early (same.jobs.mp job),
      List.perm_nil.mp (none ▸ same.completions)⟩
    intro all
    exact (pending all).imp same.checks.mpr same.jobs.mpr
  · exact .inr ⟨same.entry.trans entry, full, List.perm_singleton.mp (one ▸ same.completions)⟩

/-- Nothing works for an absent guid. -/
theorem Absent.unaffected {guid : Guid} {s t : FileManagement} {a : Action}
    (absent : Absent guid s) (unstarted : ∀ n, a ≠ .start guid n) (stepped : Stepped s a t) :
    s.target a ≠ some guid ∨ SameFor guid s t := by
  cases stepped with
  | @started other count =>
      refine .inl fun same => unstarted count ?_
      rw [Option.some.inj same]
  | startRefused => exact .inr (.refl _ _)
  | recorded entry =>
      refine .inl ?_
      intro same
      rw [Option.some.inj same, absent.entry] at entry
      cases entry
  | recordRefused => exact .inr (.refl _ _)
  | checked taken =>
      rw [target, taken]
      exact .inl fun same => absent.checks (Option.some.inj same ▸ takeAt_mem taken)
  | completing taken =>
      rw [target, taken]
      exact .inl fun same => absent.checks (Option.some.inj same ▸ takeAt_mem taken)
  | missed taken =>
      rw [target, taken]
      exact .inl fun same => absent.jobs (Option.some.inj same ▸ takeAt_mem taken)
  | completed taken =>
      rw [target, taken]
      exact .inl fun same => absent.jobs (Option.some.inj same ▸ takeAt_mem taken)
  | dropped taken =>
      rw [target, taken]
      exact .inl fun same => absent.jobs (Option.some.inj same ▸ takeAt_mem taken)
  | called taken => exact .inr ⟨rfl, Iff.rfl, Iff.rfl, called_completions taken guid⟩

/-- A guid that nobody starts stays absent. -/
theorem Absent.step {guid : Guid} {s t : FileManagement} {a : Action} (absent : Absent guid s)
    (sound : s.Sound) (unstarted : ∀ n, a ≠ .start guid n) (stepped : Stepped s a t) :
    Absent guid t := by
  rcases absent.unaffected unstarted stepped with other | same
  · exact absent.transfer (stepped.others sound other)
  · exact absent.transfer same

theorem reportOf_other {s : FileManagement} {a : Action} {guid : Guid}
    (other : s.target a ≠ some guid) : reportOf guid a = none := by
  cases a with
  | record at_ outcome => exact if_neg fun same => other (congrArg some same)
  | start => rfl
  | check => rfl
  | job => rfl
  | call => rfl

theorem append_reportOf_none {outcomes : List FileOutcome} {guid : Guid} {a : Action}
    (unreported : reportOf guid a = none) :
    outcomes ++ (reportOf guid a).toList = outcomes := by
  rw [unreported, Option.toList_none, List.append_nil]

/-- The starting step opens the collection. -/
theorem Absent.started {guid : Guid} {count : Nat} {s t : FileManagement} (absent : Absent guid s)
    (positive : 1 ≤ count) (stepped : Stepped s (.start guid count) t) :
    Collecting guid count [] t := by
  cases stepped with
  | started =>
      exact ⟨insert_same _ _ _, Nat.zero_le _, fun all => absurd all (Nat.ne_of_lt positive),
        fun job => absurd job absent.jobs, absent.completions⟩
  | startRefused entry =>
      rw [absent.entry] at entry
      cases entry

/-- One step of any thread, on any guid, while the outcomes are collected. -/
theorem Collecting.step {guid : Guid} {count : Nat} {outcomes : List FileOutcome}
    {s t : FileManagement} {a : Action} (collecting : Collecting guid count outcomes s)
    (sound : s.Sound) (at_ : s.target a = some guid) (once : ∀ n, a ≠ .start guid n)
    (room : outcomes.length + (reportOf guid a).toList.length ≤ count) (stepped : Stepped s a t) :
    Progress guid count (outcomes ++ (reportOf guid a).toList) t := by
  obtain ⟨entry, bounded, pending, early, none⟩ := collecting
  cases stepped with
  | started =>
      cases at_
      exact absurd rfl (once _)
  | startRefused =>
      cases at_
      exact absurd rfl (once _)
  | recorded found =>
      cases at_
      rw [entry] at found
      cases found
      rw [reportOf, if_pos rfl, Option.toList_some, List.length_singleton] at room
      rw [reportOf, if_pos rfl, Option.toList_some]
      refine .inl ⟨?_, by rwa [List.length_append], fun _ => .inl ?_, ?_, none⟩
      · rw [insert_same, recorded_record]
      · exact List.mem_append_right _ List.mem_cons_self
      · intro job
        have := early job
        omega
  | recordRefused missing =>
      cases at_
      rw [entry] at missing
      cases missing
  | checked taken waits =>
      rw [target, taken] at at_
      cases at_
      have less : outcomes.length ≠ count := fun all =>
        waits _ entry (by rw [recorded_targetCount]; exact all.symm) sound.pool
      rw [append_reportOf_none rfl]
      exact .inl ⟨entry, bounded, fun all => absurd all less, early, none⟩
  | completing taken found full =>
      rw [target, taken] at at_
      cases at_
      rw [entry] at found
      cases found
      rw [recorded_targetCount] at full
      rw [append_reportOf_none rfl]
      refine .inl ⟨entry, bounded, fun _ => .inr ?_, fun _ => full.symm, none⟩
      exact List.mem_append_right _ List.mem_cons_self
  | missed taken missing =>
      rw [target, taken] at at_
      cases at_
      rw [sound.key taken, entry] at missing
      cases missing
  | completed taken found =>
      rw [target, taken] at at_
      cases at_
      rw [sound.key taken, entry] at found
      cases found
      rw [append_reportOf_none rfl, sound.key taken]
      refine .inr ⟨erase_same _ _, early (takeAt_mem taken), ?_⟩
      have pieces := List.append_eq_nil_iff.mp ((List.filter_append ..).symm.trans none)
      simp [FileManagement.completions, List.filter_append, pieces.1, pieces.2, recorded]
  | dropped taken _ unset =>
      rw [sound.callback] at unset
      cases unset
  | called taken =>
      rw [append_reportOf_none rfl]
      exact Progress.transfer (.inl ⟨entry, bounded, pending, early, none⟩)
        ⟨rfl, Iff.rfl, Iff.rfl, called_completions taken guid⟩

/-- After completion late checks and jobs find no entry. -/
theorem Completed.step {guid : Guid} {count : Nat} {outcomes : List FileOutcome}
    {s t : FileManagement} {a : Action} (completed : Completed guid count outcomes s)
    (sound : s.Sound) (at_ : s.target a = some guid) (once : ∀ n, a ≠ .start guid n)
    (room : outcomes.length + (reportOf guid a).toList.length ≤ count) (stepped : Stepped s a t) :
    Progress guid count (outcomes ++ (reportOf guid a).toList) t := by
  obtain ⟨entry, full, one⟩ := completed
  cases stepped with
  | started =>
      cases at_
      exact absurd rfl (once _)
  | startRefused =>
      cases at_
      exact absurd rfl (once _)
  | recorded found =>
      cases at_
      rw [entry] at found
      cases found
  | recordRefused =>
      cases at_
      rw [reportOf, if_pos rfl, Option.toList_some, List.length_singleton] at room
      omega
  | checked =>
      rw [append_reportOf_none rfl]
      exact .inr ⟨entry, full, one⟩
  | completing taken found =>
      rw [target, taken] at at_
      cases at_
      rw [entry] at found
      cases found
  | missed =>
      rw [append_reportOf_none rfl]
      exact .inr ⟨entry, full, one⟩
  | completed taken found =>
      rw [target, taken] at at_
      cases at_
      rw [sound.key taken, entry] at found
      cases found
  | dropped _ _ unset =>
      rw [sound.callback] at unset
      cases unset
  | called taken =>
      rw [append_reportOf_none rfl]
      exact Progress.transfer (.inr ⟨entry, full, one⟩)
        ⟨rfl, Iff.rfl, Iff.rfl, called_completions taken guid⟩

theorem Progress.step {guid : Guid} {count : Nat} {outcomes : List FileOutcome}
    {s t : FileManagement} {a : Action} (progress : Progress guid count outcomes s)
    (sound : s.Sound) (once : ∀ n, a ≠ .start guid n)
    (room : outcomes.length + (reportOf guid a).toList.length ≤ count) (stepped : Stepped s a t) :
    Progress guid count (outcomes ++ (reportOf guid a).toList) t := by
  by_cases at_ : s.target a = some guid
  · rcases progress with collecting | completed
    · exact collecting.step sound at_ once room stepped
    · exact completed.step sound at_ once room stepped
  · rw [append_reportOf_none (reportOf_other at_)]
    exact progress.transfer (stepped.others sound at_)

theorem initial_absent (guid : Guid) : Absent guid initial :=
  ⟨rfl, (by rintro ⟨⟩), (by rintro ⟨⟩), rfl⟩

theorem sound_run {s t : FileManagement} {actions : List Action} (sound : s.Sound)
    (plain : ∀ a ∈ actions, a.Plain) (ran : run step s actions = some t) : t.Sound := by
  induction actions generalizing s with
  | nil =>
      cases ran
      exact sound
  | cons a rest ih =>
      obtain ⟨u, stepped, ran⟩ := run_cons.mp ran
      exact ih (sound.step (plain a List.mem_cons_self) (stepped_of_step stepped))
        (fun b member => plain b (List.mem_cons_of_mem _ member)) ran

/-- Induction over the actions before the start. -/
theorem absent_run {guid : Guid} {s t : FileManagement} {actions : List Action} (sound : s.Sound)
    (absent : Absent guid s) (plain : ∀ a ∈ actions, a.Plain)
    (unstarted : ∀ n, .start guid n ∉ actions) (ran : run step s actions = some t) :
    Absent guid t := by
  induction actions generalizing s with
  | nil =>
      cases ran
      exact absent
  | cons a rest ih =>
      obtain ⟨u, stepped, ran⟩ := run_cons.mp ran
      have did := stepped_of_step stepped
      refine ih (sound.step (plain a List.mem_cons_self) did) (absent.step sound ?_ did)
        (fun b member => plain b (List.mem_cons_of_mem _ member))
        (fun n member => unstarted n (List.mem_cons_of_mem _ member)) ran
      rintro n rfl
      exact unstarted n List.mem_cons_self

theorem reportsOf_cons (guid : Guid) (a : Action) (rest : List Action) :
    reportsOf guid (a :: rest) = (reportOf guid a).toList ++ reportsOf guid rest := by
  unfold reportsOf
  cases report : reportOf guid a with
  | none => rw [List.filterMap_cons_none report, Option.toList_none, List.nil_append]
  | some outcome => rw [List.filterMap_cons_some report, Option.toList_some, List.singleton_append]

/-- Induction over the actions after the start. -/
theorem progress_run {guid : Guid} {count : Nat} {outcomes : List FileOutcome}
    {s t : FileManagement} {actions : List Action} (sound : s.Sound)
    (progress : Progress guid count outcomes s) (plain : ∀ a ∈ actions, a.Plain)
    (once : ∀ n, .start guid n ∉ actions)
    (room : outcomes.length + (reportsOf guid actions).length ≤ count)
    (ran : run step s actions = some t) :
    Progress guid count (outcomes ++ reportsOf guid actions) t := by
  induction actions generalizing s outcomes with
  | nil =>
      cases ran
      rwa [reportsOf, List.filterMap_nil, List.append_nil]
  | cons a rest ih =>
      obtain ⟨u, stepped, ran⟩ := run_cons.mp ran
      have did := stepped_of_step stepped
      rw [reportsOf_cons, List.length_append] at room
      rw [reportsOf_cons, ← List.append_assoc]
      refine ih (sound.step (plain a List.mem_cons_self) did)
        (progress.step sound ?_ (by omega) did)
        (fun b member => plain b (List.mem_cons_of_mem _ member))
        (fun n member => once n (List.mem_cons_of_mem _ member))
        (by rw [List.length_append]; omega) ran
      rintro n rfl
      exact once n List.mem_cons_self

/-- A transfer of `count` files inside a run: `guid` is started once, after `first`, and
`count` outcomes are reported for it in `rest`. -/
structure Transfer (guid : Guid) (count : Nat) (first rest : List Action) : Prop where
  positive : 1 ≤ count
  once : ∀ n, .start guid n ∉ first ∧ .start guid n ∉ rest
  reports : (reportsOf guid rest).length = count

/-- The run up to any point of what follows the start. -/
theorem Transfer.progress {guid : Guid} {count : Nat} {first early late : List Action}
    {s : FileManagement} (transfer : Transfer guid count first (early ++ late))
    (plain : ∀ a ∈ first ++ .start guid count :: (early ++ late), a.Plain)
    (ran : run step initial (first ++ .start guid count :: early) = some s) :
    Progress guid count (reportsOf guid early) s := by
  have total := transfer.reports
  rw [reportsOf, List.filterMap_append, List.length_append] at total
  obtain ⟨u, before, ran⟩ := run_append.mp ran
  obtain ⟨t, stepped, after⟩ := run_cons.mp ran
  have plainBefore : ∀ a ∈ first, a.Plain := fun a member =>
    plain a (List.mem_append_left _ member)
  have sound := sound_run initial_sound plainBefore before
  have absent := absent_run initial_sound (initial_absent guid) plainBefore
    (fun n => (transfer.once n).1) before
  have did := stepped_of_step stepped
  refine progress_run (sound.step (plain _ ?_) did)
    (.inl (absent.started transfer.positive did)) ?_ ?_ ?_ after
  · exact List.mem_append_right _ List.mem_cons_self
  · intro a member
    exact plain a (List.mem_append_right _
      (List.mem_cons_of_mem _ (List.mem_append_left _ member)))
  · exact fun n member => (transfer.once n).2 (List.mem_append_left _ member)
  · rw [List.length_nil, reportsOf]
    omega

theorem Progress.quiet {guid : Guid} {count : Nat} {outcomes : List FileOutcome}
    {s : FileManagement} (progress : Progress guid count outcomes s) (quiet : s.Quiet)
    (all : outcomes.length = count) : Completed guid count outcomes s := by
  rcases progress with collecting | completed
  · exfalso
    rcases collecting.pending all with check | job
    · rw [quiet.1] at check
      cases check
    · rw [quiet.2.1] at job
      cases job
  · exact completed

theorem Progress.complete {guid : Guid} {count : Nat} {outcomes : List FileOutcome}
    {s : FileManagement} (progress : Progress guid count outcomes s)
    (some_ : s.completions guid ≠ []) : outcomes.length = count := by
  rcases progress with collecting | completed
  · exact absurd collecting.completions some_
  · exact completed.full

/-- Once every thread and job is done, the callback has been called once for the guid,
with all outcomes in the order of recording, and the entry is gone. It was not called
before the last outcome was recorded, and no action changes the entry of a guid it does
not work for. -/
theorem completes_once {guid : Guid} {count : Nat} {first rest : List Action}
    {s : FileManagement} (transfer : Transfer guid count first rest)
    (plain : ∀ a ∈ first ++ .start guid count :: rest, a.Plain)
    (ran : run step initial (first ++ .start guid count :: rest) = some s) (quiet : s.Quiet) :
    (s.calls.filter fun completion => completion.guid = guid) =
        [⟨guid, failuresOf (reportsOf guid rest), successesOf (reportsOf guid rest)⟩] ∧
      s.manager.fileConditions guid = none ∧
      (∀ early late t, rest = early ++ late →
        run step initial (first ++ .start guid count :: early) = some t →
        t.completions guid ≠ [] → (reportsOf guid early).length = count) ∧
      ∀ early a late t u, first ++ .start guid count :: rest = early ++ a :: late →
        run step initial early = some t → step t a = some u →
        ∀ other, t.target a ≠ some other →
          u.manager.fileConditions other = t.manager.fileConditions other := by
  have whole : rest = rest ++ [] := (List.append_nil rest).symm
  have done := (Transfer.progress (whole ▸ transfer) (whole ▸ plain) ran).quiet quiet
    transfer.reports
  refine ⟨?_, done.entry, ?_, ?_⟩
  · have made := done.completions
    rw [completions, quiet.2.2, List.nil_append] at made
    exact made
  · rintro early late t rfl ran called
    exact (transfer.progress plain ran).complete called
  · intro early a late t u split ran stepped other different
    have sound := sound_run initial_sound (fun b member =>
      plain b (split ▸ List.mem_append_left _ member)) ran
    exact ((stepped_of_step stepped).others sound different).entry

/-- Two files of one transfer beside another one. Both threads see the full count, so
two jobs are pushed, and the second finds no entry. -/
def crossedRun : List Action :=
  [.start [2] 1, .record [1] (.failure [7]), .record [1] (.success [8] [9]), .check 0, .check 0,
    .job 1, .record [2] (.failure []), .job 0, .call 0, .check 0, .job 0, .call 0]

theorem completes_once_crossed :
    ∃ s, run step initial ([] ++ .start [1] 2 :: crossedRun) = some s ∧
      (s.calls.filter fun completion => completion.guid = [1]) = [⟨[1], [[7]], [([8], [9])]⟩] ∧
      s.manager.fileConditions [1] = none := by
  refine ⟨_, rfl, ?_⟩
  have done := @completes_once [1] 2 [] crossedRun _
    ⟨by decide, fun n => ⟨by simp, by simp [crossedRun]⟩, rfl⟩ ?_ rfl ⟨rfl, rfl, rfl⟩
  · exact ⟨done.1, done.2.1⟩
  · simp only [crossedRun, List.nil_append, List.forall_mem_cons, Action.Plain, Action.guid?]
    simp [Converter.hasByteOrderMark]

/-- The job of a guid that starts with a byte order mark looks for a shorter key. -/
theorem completes_once_fails_with_mark :
    ¬ ∀ (guid : Guid) (count : Nat) (first rest : List Action) (s : FileManagement),
      Transfer guid count first rest →
      run step initial (first ++ .start guid count :: rest) = some s → s.Quiet →
      (s.calls.filter fun completion => completion.guid = guid) =
        [⟨guid, failuresOf (reportsOf guid rest), successesOf (reportsOf guid rest)⟩] ∧
      s.manager.fileConditions guid = none := by
  intro once
  have marked := (once [0xef, 0xbb, 0xbf] 1 []
    [.record [0xef, 0xbb, 0xbf] (.failure []), .check 0, .job 0] _
    ⟨by decide, fun n => ⟨by simp, by simp⟩, rfl⟩ rfl ⟨rfl, rfl, rfl⟩).1
  cases marked

end FileManagement
end CppToolkit.Network
