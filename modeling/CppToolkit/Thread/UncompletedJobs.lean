import CppToolkit.Library.LexicalPath
import Mathlib.Data.List.Nodup

/-! The recovery of jobs from the files of a backup folder, with any failure of an open, a read
or a removal. -/
namespace CppToolkit.Thread
open LexicalPath

structure BackupEntry where
  name : List UInt8
  regular : Bool
  content : List UInt8
  deriving DecidableEq, Repr

structure BackupFolder where
  entries : List BackupEntry
  distinct : (entries.map BackupEntry.name).Nodup

/-- How a read ends: `short` gets a part of the file only, and `thrown` is the exception of a
read error. -/
inductive ReadOutcome where
  | complete
  | short (count : Nat)
  | thrown
  deriving DecidableEq, Repr

/-- What the system does with a file. -/
structure Treatment where
  opened : Bool
  read : ReadOutcome
  removed : Bool
  deriving DecidableEq, Repr

/-- ".top", ".high", ".normal" and ".low". -/
def backupExtensions : List (List UInt8) :=
  [[46, 116, 111, 112], [46, 104, 105, 103, 104], [46, 110, 111, 114, 109, 97, 108],
    [46, 108, 111, 119]]

namespace BackupEntry

def isBackup (e : BackupEntry) : Bool :=
  e.regular && backupExtensions.contains (extension e.name)

/-- `open`, `read_bytes` and `close`: there are no data where the file could not be opened. -/
def sourceData (e : BackupEntry) (t : Treatment) : Except String (Option (List UInt8)) :=
  if t.opened then
    match t.read with
    | .complete => .ok (some e.content)
    | .short count => .ok (some (e.content.take count))
    | .thrown => .error "std::ios_base::failure"
  else .ok none

end BackupEntry

/-- The entries that are left in the folder, and the data with the entries they are of. -/
structure Recovery where
  left : List BackupEntry
  result : Except String (List (BackupEntry × List UInt8))

namespace Recovery

/-- The loop. The file is removed before the data are looked at; an exception leaves the rest of
the folder as it is. -/
def visit (treatment : BackupEntry → Treatment) : List BackupEntry → Recovery
  | [] => ⟨[], .ok []⟩
  | e :: rest =>
      if e.isBackup then
        match e.sourceData (treatment e) with
        | .error what => ⟨e :: rest, .error what⟩
        | .ok data =>
            let later := visit treatment rest
            ⟨if (treatment e).removed then later.left else e :: later.left,
              later.result.map (data.toList.map (e, ·) ++ ·)⟩
      else
        let later := visit treatment rest
        ⟨e :: later.left, later.result⟩

/-- `none` is a path that is no directory. -/
def uncompletedJobs (treatment : BackupEntry → Treatment) : Option BackupFolder → Recovery
  | none => ⟨[], .ok []⟩
  | some folder => visit treatment folder.entries

/-- What the function returns. -/
def returned (r : Recovery) : Except String (List (List UInt8)) :=
  r.result.map (List.map Prod.snd)

/-- Every job file is returned whole or is still there, and everything else is. -/
def NothingLost (r : Recovery) (folder : BackupFolder) : Prop :=
  ∀ e ∈ folder.entries, e ∈ r.left ∨
    e.isBackup = true ∧ ∃ result, r.result = .ok result ∧ (e, e.content) ∈ result

def Throws (treatment : BackupEntry → Treatment) (e : BackupEntry) : Prop :=
  e.isBackup = true ∧ (treatment e).opened = true ∧ (treatment e).read = .thrown

/-- The whole content is read. -/
def ReadsAll (treatment : BackupEntry → Treatment) (e : BackupEntry) : Prop :=
  e.sourceData (treatment e) = .ok (some e.content)

/-- A job file that is reached and removed is read, and so are the files behind it. -/
def Harmless (treatment : BackupEntry → Treatment) (entries : List BackupEntry) : Prop :=
  ∀ front e back, entries = front ++ e :: back → (∀ x ∈ front, ¬ Throws treatment x) →
    ¬ Throws treatment e → e.isBackup = true → (treatment e).removed = true →
      ReadsAll treatment e ∧ ∀ x ∈ back, ¬ Throws treatment x

section
variable {treatment : BackupEntry → Treatment} {e : BackupEntry}
  {entries front back rest : List BackupEntry}

theorem throws_iff : Throws treatment e ↔
    e.isBackup = true ∧ ∃ what, e.sourceData (treatment e) = .error what := by
  refine and_congr_right fun _ => ?_
  unfold BackupEntry.sourceData
  cases (treatment e).opened with
  | false =>
      refine iff_of_false (fun both => Bool.false_ne_true both.1) ?_
      rintro ⟨_, same⟩
      cases same
  | true =>
      rw [if_pos rfl, and_iff_right rfl]
      cases (treatment e).read with
      | complete => exact iff_of_false (fun same => by cases same) fun ⟨_, same⟩ => by cases same
      | short count =>
          exact iff_of_false (fun same => by cases same) fun ⟨_, same⟩ => by cases same
      | thrown => exact iff_of_true rfl ⟨_, rfl⟩

theorem visit_throws (throws : Throws treatment e) :
    (visit treatment (e :: rest)).left = e :: rest ∧
      ∃ what, (visit treatment (e :: rest)).result = .error what := by
  obtain ⟨backup, what, failed⟩ := throws_iff.mp throws
  rw [visit, if_pos backup, failed]
  exact ⟨rfl, what, rfl⟩

theorem sourceData_ok (passes : ¬ Throws treatment e) (backup : e.isBackup = true) :
    ∃ data, e.sourceData (treatment e) = .ok data := by
  cases read : e.sourceData (treatment e) with
  | error what => exact absurd (throws_iff.mpr ⟨backup, what, read⟩) passes
  | ok data => exact ⟨data, rfl⟩

/-- An entry that does not throw, and what the loop makes of those behind it. -/
theorem visit_passes (passes : ¬ Throws treatment e) (rest : List BackupEntry) :
    (visit treatment (e :: rest)).left =
        (if e.isBackup = true ∧ (treatment e).removed = true then (visit treatment rest).left
        else e :: (visit treatment rest).left) ∧
      ∃ data : Option (List UInt8),
        (∀ d, data = some d ↔ e.isBackup = true ∧ e.sourceData (treatment e) = .ok (some d)) ∧
          (visit treatment (e :: rest)).result =
            (visit treatment rest).result.map (data.toList.map (e, ·) ++ ·) := by
  rw [visit]
  cases backup : e.isBackup with
  | false =>
      rw [if_neg Bool.false_ne_true, if_neg fun both => Bool.false_ne_true both.1]
      refine ⟨rfl, none, fun d => ?_, (congrFun Except.map_id _).symm⟩
      exact iff_of_false (fun same => by cases same) fun both => Bool.false_ne_true both.1
  | true =>
      obtain ⟨data, read⟩ := sourceData_ok passes backup
      rw [if_pos rfl, read]
      refine ⟨by simp only [true_and], data, fun d => ?_, rfl⟩
      rw [and_iff_right rfl, Except.ok.injEq]

theorem visit_subset : (visit treatment entries).left ⊆ entries := by
  induction entries with
  | nil => exact List.Subset.refl []
  | cons e rest ih =>
      by_cases throws : Throws treatment e
      · rw [(visit_throws throws).1]
        exact List.Subset.refl _
      · rw [(visit_passes throws _).1]
        split
        next => exact List.subset_cons_of_subset e ih
        next => exact List.cons_subset_cons e ih

/-- The result, where no file throws. -/
theorem visit_result (passes : ∀ x ∈ entries, ¬ Throws treatment x) :
    ∃ result, (visit treatment entries).result = .ok result ∧ ∀ e d, (e, d) ∈ result ↔
      e ∈ entries ∧ e.isBackup = true ∧ e.sourceData (treatment e) = .ok (some d) := by
  induction entries with
  | nil => exact ⟨[], rfl, by simp⟩
  | cons x rest ih =>
      rw [List.forall_mem_cons] at passes
      obtain ⟨result, ran, members⟩ := ih passes.2
      obtain ⟨_, data, read, all⟩ := visit_passes passes.1 rest
      rw [ran] at all
      refine ⟨_, all, fun e d => ?_⟩
      have first : (e, d) ∈ data.toList.map (x, ·) ↔
          e = x ∧ e.isBackup = true ∧ e.sourceData (treatment e) = .ok (some d) := by
        rw [List.mem_map]
        constructor
        · rintro ⟨_, member, same⟩
          cases same
          exact ⟨rfl, (read d).mp (Option.mem_toList.mp member)⟩
        · rintro ⟨rfl, both⟩
          exact ⟨d, Option.mem_toList.mpr ((read d).mpr both), rfl⟩
      rw [List.mem_append, first, members, List.mem_cons, ← or_and_right]

theorem visit_error (throws : ∃ x ∈ entries, Throws treatment x) :
    ∃ what, (visit treatment entries).result = .error what := by
  induction entries with
  | nil =>
      obtain ⟨_, member, _⟩ := throws
      cases member
  | cons e rest ih =>
      by_cases first : Throws treatment e
      · exact (visit_throws first).2
      · obtain ⟨x, member, later⟩ := throws
        have behind : x ∈ rest := (List.mem_cons.mp member).resolve_left fun same => first (same ▸ later)
        obtain ⟨what, failed⟩ := ih ⟨x, behind, later⟩
        obtain ⟨_, _, _, all⟩ := visit_passes first rest
        exact ⟨what, by rw [all, failed]; rfl⟩

theorem passes_of_ok {result : List (BackupEntry × List UInt8)}
    (ran : (visit treatment entries).result = .ok result) : ∀ x ∈ entries, ¬ Throws treatment x := by
  intro x inside throws
  obtain ⟨what, failed⟩ := visit_error ⟨x, inside, throws⟩
  rw [failed] at ran
  cases ran

theorem sourceData_prefix {t : Treatment} {data : List UInt8}
    (read : e.sourceData t = .ok (some data)) : data <+: e.content := by
  unfold BackupEntry.sourceData at read
  split at read
  next =>
    split at read
    next =>
      cases read
      exact List.prefix_refl _
    next =>
      cases read
      exact List.take_prefix _ _
    next => cases read
  next => cases read

/-- What is returned is of a job file of the folder, or of the front of one. -/
theorem mem_returned {result : List (List UInt8)} {data : List UInt8}
    (ran : (visit treatment entries).returned = .ok result) (member : data ∈ result) :
    ∃ e ∈ entries, e.isBackup = true ∧ data <+: e.content := by
  unfold returned at ran
  cases pairs : (visit treatment entries).result with
  | error what =>
      rw [pairs] at ran
      cases ran
  | ok recovered =>
      rw [pairs] at ran
      cases ran
      obtain ⟨⟨e, d⟩, found, rfl⟩ := List.mem_map.mp member
      obtain ⟨all, same, members⟩ := visit_result (passes_of_ok pairs)
      cases pairs.symm.trans same
      obtain ⟨inside, backup, read⟩ := (members e d).mp found
      exact ⟨e, inside, backup, sourceData_prefix read⟩

/-- A file is gone exactly if it is reached and removed. -/
theorem mem_visit_left (absent : e ∉ front ∧ e ∉ back) :
    e ∈ (visit treatment (front ++ e :: back)).left ↔
      ¬ ((∀ x ∈ front, ¬ Throws treatment x) ∧ ¬ Throws treatment e ∧ e.isBackup = true ∧
        (treatment e).removed = true) := by
  induction front with
  | nil =>
      rw [List.nil_append, and_iff_right fun _ member => (by cases member)]
      by_cases throws : Throws treatment e
      · rw [(visit_throws throws).1]
        exact iff_of_true List.mem_cons_self fun gone => gone.1 throws
      · rw [(visit_passes throws _).1, and_iff_right throws]
        split
        next gone => exact iff_of_false (fun left => absent.2 (visit_subset left)) (not_not_intro gone)
        next stays => exact iff_of_true List.mem_cons_self stays
  | cons x front ih =>
      rw [List.mem_cons, not_or] at absent
      have behind := ih ⟨absent.1.2, absent.2⟩
      rw [List.cons_append, List.forall_mem_cons]
      by_cases throws : Throws treatment x
      · rw [(visit_throws throws).1]
        exact iff_of_true (by simp) fun gone => gone.1.1 throws
      · rw [(visit_passes throws _).1, and_iff_right throws, ← behind]
        split
        next => exact Iff.rfl
        next => exact List.mem_cons.trans (or_iff_right absent.1.1)

end

/-- Nothing is lost exactly if the files that are removed have been read and nothing throws
behind them. -/
theorem nothingLost_iff (treatment : BackupEntry → Treatment) (backupFolder : BackupFolder) :
    NothingLost (uncompletedJobs treatment (some backupFolder)) backupFolder ↔
      Harmless treatment backupFolder.entries := by
  have distinct : ∀ front e back, backupFolder.entries = front ++ e :: back →
      e ∉ front ∧ e ∉ back := by
    intro front e back split
    have nodup := List.Nodup.of_map _ backupFolder.distinct
    rw [split, List.nodup_middle, List.nodup_cons, List.mem_append, not_or] at nodup
    exact nodup.1
  unfold NothingLost uncompletedJobs
  constructor
  · intro kept front e back split before passes backup removed
    have member : e ∈ backupFolder.entries := by simp [split]
    have gone : e ∉ (visit treatment backupFolder.entries).left := by
      rw [split, mem_visit_left (distinct front e back split), not_not]
      exact ⟨before, passes, backup, removed⟩
    obtain ⟨_, result, ran, recovered⟩ := (kept e member).resolve_left gone
    have none_ := passes_of_ok ran
    obtain ⟨result', ran', members⟩ := visit_result none_
    cases ran.symm.trans ran'
    refine ⟨((members e e.content).mp recovered).2.2, fun x inside => none_ x ?_⟩
    simp [split, inside]
  · intro harmless e member
    obtain ⟨front, back, split⟩ := List.append_of_mem member
    by_cases left : e ∈ (visit treatment backupFolder.entries).left
    · exact .inl left
    · rw [split, mem_visit_left (distinct front e back split), not_not] at left
      obtain ⟨before, passes, backup, removed⟩ := left
      obtain ⟨read, after⟩ := harmless front e back split before passes backup removed
      have none_ : ∀ x ∈ backupFolder.entries, ¬ Throws treatment x := by
        rw [split, List.forall_mem_append, List.forall_mem_cons]
        exact ⟨before, passes, after⟩
      obtain ⟨result, ran, members⟩ := visit_result none_
      exact .inr ⟨backup, result, ran, (members e e.content).mpr ⟨member, backup, read⟩⟩

/-- A file that cannot be opened but can be removed is lost. -/
theorem unopened_lost :
    ¬ ∀ (treatment : BackupEntry → Treatment) (backupFolder : BackupFolder),
      NothingLost (uncompletedJobs treatment (some backupFolder)) backupFolder := by
  intro every
  have kept := every (fun _ => ⟨false, .complete, true⟩)
    ⟨[⟨[97, 46, 108, 111, 119], true, [7]⟩], by decide⟩ _ List.mem_cons_self
  rcases kept with left | ⟨_, result, ran, recovered⟩
  · revert left
    decide
  · cases ran
    cases recovered

end Recovery
end CppToolkit.Thread
