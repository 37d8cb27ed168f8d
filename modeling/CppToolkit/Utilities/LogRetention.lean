import CppToolkit.Library.LexicalPath
import CppToolkit.Library.Memory

/-! Which log files `check_life_cycle` removes. Times are counts of nanoseconds, those of files
from the epoch of `file_clock` on. -/
namespace CppToolkit.Utilities.LogRetention
open LexicalPath Memory

structure Entry where
  name : List UInt8
  regular : Bool
  lastWriteTime : Int64
  deriving DecidableEq, Repr

/-- ".log". -/
def logExtension : List UInt8 := [46, 108, 111, 103]

def Entry.isLog (e : Entry) : Bool := e.regular && extension e.name == logExtension

def hour : Int := 3600 * 10 ^ 9

def day : Int := 24 * hour

/-- The difference of two counts, which has to be one again. -/
def subtract (a b : Int64) : Checked Int :=
  let difference := a.toInt - b.toInt
  if -2 ^ 63 ≤ difference ∧ difference < 2 ^ 63 then .ok difference else .error .intOverflow

/-- The test of the loop; casts and divisions round towards zero. -/
def isOld (lifeCyclePeriod : UInt16) (now lastWriteTime : Int64) : Checked Bool :=
  (subtract now lastWriteTime).map fun difference =>
    let hours := difference.tdiv hour
    hours.tdiv 24 > (lifeCyclePeriod.toNat : Int)

/-- The loop, with the entries it leaves; `now` is what the clock says when it is at an entry. -/
def checkEntries (lifeCyclePeriod : UInt16) (now : Entry → Int64) :
    List Entry → Checked (List Entry)
  | [] => .ok []
  | e :: rest =>
      if e.isLog then
        match isOld lifeCyclePeriod (now e) e.lastWriteTime with
        | .error fault => .error fault
        | .ok true => checkEntries lifeCyclePeriod now rest
        | .ok false => (checkEntries lifeCyclePeriod now rest).map (e :: ·)
      else (checkEntries lifeCyclePeriod now rest).map (e :: ·)

/-- `current` and `checked` are the dates before and after the loop, and `logRoot` is the folder,
where it exists. -/
def checkLifeCycle (lifeCyclePeriod : UInt16) (now : Entry → Int64) (current checked : String)
    (logRoot : Option (List Entry)) (previousCheckFlag : String) :
    Checked (Option (List Entry) × String) :=
  if current = previousCheckFlag then .ok (logRoot, previousCheckFlag)
  else
    match logRoot with
    | none => .ok (none, previousCheckFlag)
    | some entries =>
        (checkEntries lifeCyclePeriod now entries).map fun left => (some left, checked)

/-- The age of a file where the epoch of `file_clock` is `epoch` behind that of `system_clock`. -/
def Entry.age (epoch : Int) (now : Int64) (e : Entry) : Int :=
  now.toInt - (e.lastWriteTime.toInt + epoch)

/-- What is to be removed: log files that are older than the period. -/
def due (epoch : Int) (lifeCyclePeriod : UInt16) (now : Entry → Int64) (e : Entry) : Bool :=
  e.isLog && decide (lifeCyclePeriod.toNat * day < e.age epoch (now e))

/-- The difference the loop computes is a count again. -/
def Countable (epoch : Int) (now : Entry → Int64) (e : Entry) : Prop :=
  -2 ^ 63 ≤ e.age epoch (now e) + epoch ∧ e.age epoch (now e) + epoch < 2 ^ 63

/-- What the loop removes. -/
def removes (epoch : Int) (lifeCyclePeriod : UInt16) (now : Entry → Int64) (e : Entry) : Bool :=
  e.isLog && decide ((lifeCyclePeriod.toNat + 1) * day ≤ e.age epoch (now e) + epoch)

section
variable {epoch : Int} {lifeCyclePeriod : UInt16} {now : Entry → Int64} {e : Entry}
  {entries left : List Entry}

theorem age_add_epoch (epoch : Int) (now : Int64) (e : Entry) :
    e.age epoch now + epoch = now.toInt - e.lastWriteTime.toInt := by
  unfold Entry.age
  omega

theorem old_iff (difference : Int) (days : Nat) :
    (difference.tdiv hour).tdiv 24 > (days : Int) ↔ (days + 1) * day ≤ difference := by
  have quotient : ∀ x : Int, 0 ≤ x → (x.tdiv hour).tdiv 24 = x / hour / 24 := by
    intro x nonneg
    have hours : 0 ≤ x / hour := Int.ediv_nonneg nonneg (by decide)
    rw [Int.tdiv_eq_ediv_of_nonneg nonneg, Int.tdiv_eq_ediv_of_nonneg hours]
  rcases Int.lt_or_le difference 0 with negative | nonneg
  · have opposite : (difference.tdiv hour).tdiv 24 = -(-difference / hour / 24) := by
      rw [← quotient (-difference) (by omega), Int.neg_tdiv, Int.neg_tdiv, Int.neg_neg]
    rw [opposite]
    unfold day hour
    omega
  · rw [quotient difference nonneg]
    unfold day hour
    omega

theorem isOld_ok (countable : Countable epoch now e) (log : e.isLog = true) :
    isOld lifeCyclePeriod (now e) e.lastWriteTime =
      .ok (removes epoch lifeCyclePeriod now e) := by
  rw [Countable, age_add_epoch] at countable
  rw [removes, age_add_epoch, log, isOld, subtract, if_pos countable]
  exact congrArg Except.ok (decide_eq_decide.mpr (old_iff _ _))

theorem isOld_fault (overflow : ¬ Countable epoch now e) :
    isOld lifeCyclePeriod (now e) e.lastWriteTime = .error .intOverflow := by
  rw [Countable, age_add_epoch] at overflow
  rw [isOld, subtract, if_neg overflow]
  rfl

theorem keep_ok_iff {rest : Checked (List Entry)} : rest.map (e :: ·) = .ok left ↔
    ∃ others, rest = .ok others ∧ left = e :: others := by
  rw [map_eq_ok]
  exact exists_congr fun others => and_congr_right fun _ => eq_comm

/-- The loop comes to its end exactly if no difference overflows. -/
theorem checkEntries_ok_iff (epoch : Int) : checkEntries lifeCyclePeriod now entries = .ok left ↔
    (∀ e ∈ entries, e.isLog = true → Countable epoch now e) ∧
      left = entries.filter (!removes epoch lifeCyclePeriod now ·) := by
  induction entries generalizing left with
  | nil =>
      constructor
      · intro same
        cases same
        exact ⟨fun _ member => (by cases member), rfl⟩
      · rintro ⟨_, rfl⟩
        rfl
  | cons e rest ih =>
      have kept (stays : removes epoch lifeCyclePeriod now e = false) :
          (checkEntries lifeCyclePeriod now rest).map (e :: ·) = .ok left ↔
            (∀ e ∈ rest, e.isLog = true → Countable epoch now e) ∧
              left = (e :: rest).filter (!removes epoch lifeCyclePeriod now ·) := by
        rw [keep_ok_iff, List.filter_cons_of_pos (by simp [stays])]
        simp only [ih, and_assoc, exists_and_left, exists_eq_left]
      rw [List.forall_mem_cons, checkEntries]
      cases log : e.isLog with
      | false =>
          rw [if_neg Bool.false_ne_true, kept (by simp [removes, log])]
          simp
      | true =>
          rw [if_pos rfl, imp_iff_right rfl]
          by_cases countable : Countable epoch now e
          · rw [isOld_ok countable log, and_iff_right countable]
            cases stays : removes epoch lifeCyclePeriod now e with
            | false => exact kept stays
            | true =>
                rw [List.filter_cons_of_neg (by simp [stays])]
                exact ih
          · rw [isOld_fault countable]
            exact iff_of_false (fun same => by cases same) fun both => countable both.1.1

end

/-- What is left of the folder is what is not due. -/
def Keeps (epoch : Int) (lifeCyclePeriod : UInt16) (now : Entry → Int64)
    (logRoot : Option (List Entry)) (result : Checked (Option (List Entry) × String)) : Prop :=
  result.map Prod.fst = .ok (logRoot.map (List.filter (!due epoch lifeCyclePeriod now ·)))

/-- The ages that the loop takes for older than the period and that are not, with epochs that are
a day or more apart, and otherwise the ages that it wrongly takes for younger. -/
def Misjudged (epoch : Int) (lifeCyclePeriod : UInt16) (age : Int) : Prop :=
  if day ≤ epoch then
    (lifeCyclePeriod.toNat + 1) * day - epoch ≤ age ∧ age ≤ lifeCyclePeriod.toNat * day
  else lifeCyclePeriod.toNat * day < age ∧ age < (lifeCyclePeriod.toNat + 1) * day - epoch

/-- No log file is of an age that the loop misjudges, or that is due where it does not look. -/
def Unaffected (epoch : Int) (lifeCyclePeriod : UInt16) (now : Entry → Int64)
    (looked : Bool) (entries : List Entry) : Prop :=
  ∀ e ∈ entries, e.isLog = true →
    if looked then
      Countable epoch now e ∧ ¬ Misjudged epoch lifeCyclePeriod (e.age epoch (now e))
    else e.age epoch (now e) ≤ lifeCyclePeriod.toNat * day

section
variable {epoch : Int} {lifeCyclePeriod : UInt16} {now : Entry → Int64} {entries : List Entry}

/-- Two filters leave the same of a list if they agree on its elements. -/
theorem filter_eq_filter_iff {α : Type} {p q : α → Bool} {as : List α} :
    as.filter p = as.filter q ↔ ∀ a ∈ as, p a = q a := by
  constructor
  · intro same a member
    have both := congrArg (a ∈ ·) same
    simp only [List.mem_filter, member, true_and, eq_iff_iff] at both
    exact Bool.eq_iff_iff.mpr both
  · exact List.filter_congr

/-- The two limits agree on an age outside one window, which the distance of the epochs opens. -/
theorem agree_iff_not_misjudged (epoch : Int) (lifeCyclePeriod : UInt16) (age : Int) :
    (lifeCyclePeriod.toNat * day < age ↔ (lifeCyclePeriod.toNat + 1) * day ≤ age + epoch) ↔
      ¬ Misjudged epoch lifeCyclePeriod age := by
  have next_day : ((lifeCyclePeriod.toNat : Int) + 1) * day = lifeCyclePeriod.toNat * day + day := by
    rw [Int.add_mul, Int.one_mul]
  unfold Misjudged
  rw [next_day]
  split
  next far => omega
  next near => omega

theorem keeps_unlooked (flag : String) :
    Keeps epoch lifeCyclePeriod now (some entries) (.ok (some entries, flag)) ↔
      Unaffected epoch lifeCyclePeriod now false entries := by
  have stays : Keeps epoch lifeCyclePeriod now (some entries) (.ok (some entries, flag)) ↔
      entries.filter (!due epoch lifeCyclePeriod now ·) = entries := by
    change Except.ok (some entries) = Except.ok (some _) ↔ _
    rw [Except.ok.injEq, Option.some.injEq]
    exact eq_comm
  rw [stays, List.filter_eq_self]
  refine forall₂_congr fun e _ => ?_
  rw [if_neg Bool.false_ne_true, due, Bool.not_eq_true', Bool.and_eq_false_imp,
    decide_eq_false_iff_not, Int.not_lt]

theorem keeps_looked (checked : String) :
    Keeps epoch lifeCyclePeriod now (some entries)
        ((checkEntries lifeCyclePeriod now entries).map fun left => (some left, checked)) ↔
      Unaffected epoch lifeCyclePeriod now true entries := by
  have left : Keeps epoch lifeCyclePeriod now (some entries)
        ((checkEntries lifeCyclePeriod now entries).map fun left => (some left, checked)) ↔
      checkEntries lifeCyclePeriod now entries =
        .ok (entries.filter (!due epoch lifeCyclePeriod now ·)) := by
    unfold Keeps
    cases checkEntries lifeCyclePeriod now entries with
    | error fault => exact iff_of_false (fun same => by cases same) fun same => by cases same
    | ok left =>
        change Except.ok (some left) = Except.ok (some _) ↔ _
        rw [Except.ok.injEq, Except.ok.injEq, Option.some.injEq]
  rw [left, checkEntries_ok_iff epoch, filter_eq_filter_iff, ← forall₂_and]
  refine forall₂_congr fun e _ => ?_
  rw [if_pos rfl]
  unfold removes due
  cases e.isLog with
  | false =>
      have never : ∀ {P : Prop}, false = true → P := fun same => absurd same Bool.false_ne_true
      rw [Bool.false_and, Bool.false_and]
      exact iff_of_true ⟨never, rfl⟩ never
  | true =>
      rw [imp_iff_right rfl, imp_iff_right rfl, Bool.true_and, Bool.true_and, Bool.not_inj_iff,
        decide_eq_decide, agree_iff_not_misjudged]

end

/-- The files that are due are removed, and no others, exactly if no log file is of an age that
is misjudged. -/
theorem keeps_iff (epoch : Int) (lifeCyclePeriod : UInt16) (now : Entry → Int64)
    (current checked : String) (logRoot : Option (List Entry)) (previousCheckFlag : String) :
    Keeps epoch lifeCyclePeriod now logRoot
        (checkLifeCycle lifeCyclePeriod now current checked logRoot previousCheckFlag) ↔
      ∀ entries, logRoot = some entries →
        Unaffected epoch lifeCyclePeriod now (current ≠ previousCheckFlag) entries := by
  cases logRoot with
  | none =>
      have nothing : checkLifeCycle lifeCyclePeriod now current checked none previousCheckFlag =
          .ok (none, previousCheckFlag) := ite_self _
      rw [nothing]
      exact iff_of_true rfl fun _ same => by cases same
  | some entries =>
      have one {P : List Entry → Prop} : (∀ e, some entries = some e → P e) ↔ P entries :=
        ⟨fun all => all _ rfl, fun held _ same => Option.some.inj same ▸ held⟩
      rw [one]
      unfold checkLifeCycle
      by_cases same : current = previousCheckFlag
      · rw [if_pos same, keeps_unlooked, decide_eq_false (not_not_intro same)]
      · rw [if_neg same, decide_eq_true same]
        exact keeps_looked checked

/-- A file written this moment is removed where the epochs are those of libstdc++. -/
theorem new_file_removed :
    ¬ ∀ (lifeCyclePeriod : UInt16) (now : Entry → Int64) (current checked : String)
      (logRoot : Option (List Entry)),
        Keeps (6437664000 * 10 ^ 9) lifeCyclePeriod now logRoot
          (checkLifeCycle lifeCyclePeriod now current checked logRoot "") := by
  intro every
  have kept := every 7 (fun _ => 1700000000000000000) "2023-11-14" "2023-11-14"
    (some [⟨[97, 46, 108, 111, 103], true, -4737664000000000000⟩])
  revert kept
  unfold Keeps
  decide

end CppToolkit.Utilities.LogRetention
