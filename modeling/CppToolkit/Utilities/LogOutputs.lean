import CppToolkit.Utilities.FileFrames
import CppToolkit.Utilities.LogEntries
import CppToolkit.Utilities.LogLines

/-! `write_log` with all that it writes to: the console, the notification of the database, the log
file of the day, and the backup of that file. -/
namespace CppToolkit.Utilities.LogQueue
open Fstream Machine Files

/-- What `write_log` reads of a logger. -/
structure Outlets where
  consoleMode : LogTypes
  fileMode : LogTypes
  databaseMode : Bool
  notification : Bool
  fileBackupMode : Bool
  maxLines : UInt16
  maxFileSize : UInt64
  logRoot : List UInt8
  logName : List UInt8
  deriving DecidableEq, Repr

/-- What has been printed, the calls of the notification, and the files. -/
structure Sinks where
  console : List UInt8
  notified : List (List UInt8 × List (List UInt8))
  disk : Disk (List UInt8)

namespace Outlets
variable (o : Outlets)

/-- The `file_name` of a day. -/
def fileName (date : List UInt8) : List UInt8 := o.logRoot ++ (o.logName ++ (literal "_" ++ date))

def logPath (date : List UInt8) : List UInt8 := o.fileName date ++ literal ".log"

def backupPath (date : List UInt8) : List UInt8 := o.fileName date ++ literal ".backup"

def writeConsole (messages : List (List UInt8)) (console : List UInt8) : List UInt8 :=
  if o.consoleMode = .none then console
  else if messages = [] then console
  else console ++ messages.flatten

def writeDatabase (messages : List (List UInt8)) (notified : List (List UInt8 × List (List UInt8))) :
    List (List UInt8 × List (List UInt8)) :=
  if o.databaseMode = false then notified
  else if o.notification = false then notified
  else if messages = [] then notified
  else notified ++ [(o.logName, messages)]

/-- The overload of `backup_file` for a whole file. -/
def backupFile (d : Disk (List UInt8)) (sourcePath backupPath : List UInt8) : Disk (List UInt8) :=
  if o.fileMode = .none then d
  else
    match d sourcePath with
    | none => d
    | some content =>
        if content.length < o.maxFileSize.toNat then d
        else
          let source := File.initial.openPath d sourcePath { Openmode.in_ with binary := true } .granted
          match (source.1.1.readBytes source.1.2).2 with
          | .error _ => source.1.2
          | .ok sourceData =>
              let backup := File.initial.openPath source.1.2 backupPath
                { Openmode.out with binary := true, app := true } .granted
              let written := backup.1.1.writeBytes backup.1.2 sourceData
              Function.update written.1.2 sourcePath (some [])

/-- The overload of `backup_file` for the lines that `write_file` has removed. -/
def backupLines (d : Disk (List UInt8)) (sourceData : List (List UInt8)) (backupPath : List UInt8) :
    Disk (List UInt8) :=
  if o.fileMode = .none then d
  else if sourceData = [] then d
  else
    let backup := File.initial.openPath d backupPath { Openmode.out with app := true } .granted
    (backup.1.1.writeLines backup.1.2 sourceData true).1.2

def writeLog {τ : Type} (f : Formats τ) (date : List UInt8) (messages : List (Entry τ)) (s : Sinks) :
    Option Sinks := do
  let converted ← convertLog f o.consoleMode o.fileMode messages
  let console := o.writeConsole converted.consoleMessages s.console
  let notified := o.writeDatabase converted.databaseMessages s.notified
  let written :=
    LogLines.writeFile o.fileMode o.maxLines s.disk (o.logPath date) converted.fileMessages
  if o.fileBackupMode = false then some ⟨console, notified, written.1⟩
  else if 0 < o.maxLines then
    some ⟨console, notified, o.backupLines written.1 written.2 (o.backupPath date)⟩
  else some ⟨console, notified, o.backupFile written.1 (o.logPath date) (o.backupPath date)⟩

/-- One call of `write_log`, on the day of the call. -/
def step {τ : Type} (f : Formats τ) (s : Sinks) (call : List UInt8 × List (Entry τ)) : Option Sinks :=
  o.writeLog f call.1 call.2 s

/-- The backup of a day and the log behind it. -/
def kept (s : Sinks) (date : List UInt8) : List UInt8 :=
  (s.disk (o.backupPath date)).getD [] ++ (s.disk (o.logPath date)).getD []

/-- The lines of a call for the file. -/
def fileLines {τ : Type} (f : Formats τ) (messages : List (Entry τ)) : List UInt8 :=
  if o.fileMode = .none then []
  else (separated f o.consoleMode o.fileMode messages).fileMessages.flatten

def consoleLines {τ : Type} (f : Formats τ) (messages : List (Entry τ)) : List UInt8 :=
  if o.consoleMode = .none then []
  else (separated f o.consoleMode o.fileMode messages).consoleMessages.flatten

/-- The calls of the notification for a call. -/
def notifications {τ : Type} (f : Formats τ) (messages : List (Entry τ)) :
    List (List UInt8 × List (List UInt8)) :=
  if o.databaseMode && o.notification && !messages.isEmpty then
    [(o.logName, messages.map (·.json f))]
  else []

/-- The lines of the calls of a day. -/
def linesOn {τ : Type} (f : Formats τ) (date : List UInt8)
    (calls : List (List UInt8 × List (Entry τ))) : List UInt8 :=
  (calls.filter (·.1 = date)).flatMap fun call => o.fileLines f call.2

theorem logPath_ne_backupPath (date other : List UInt8) : o.logPath date ≠ o.backupPath other := by
  intro same
  have last := congrArg List.getLast? same
  have log : (literal ".log").getLast? = some 103 := by decide
  have backup : (literal ".backup").getLast? = some 112 := by decide
  rw [logPath, backupPath, List.getLast?_append, List.getLast?_append, log, backup] at last
  cases last

theorem fileName_injective {date other : List UInt8} (same : o.fileName date = o.fileName other) :
    date = other :=
  List.append_cancel_left (List.append_cancel_left (List.append_cancel_left same))

section
variable {o} {d : Disk (List UInt8)}

theorem writeFile_elsewhere {fileMode : LogTypes} {maxLines : UInt16} {targetPath other : List UInt8}
    (apart : targetPath ≠ other) (d : Disk (List UInt8)) (messages : List (List UInt8)) :
    (LogLines.writeFile fileMode maxLines d targetPath messages).1 other = d other := by
  unfold LogLines.writeFile
  split
  next => rfl
  next =>
  split
  next => rfl
  next =>
  split
  next =>
    obtain ⟨outside, elsewhere⟩ := File.openPath_elsewhere File.closed_initial d
      { Openmode.out with app := true } .granted apart
    dsimp only
    split
    next => exact (File.writeLines_elsewhere elsewhere _ _ _).trans outside
    next => exact outside
  next =>
    obtain ⟨f, read, _, closed⟩ := LogLines.readFile_eq d targetPath
    obtain ⟨outside, elsewhere⟩ := File.openPath_elsewhere closed d
      { Openmode.out with trunc := true } .granted apart
    rw [read]
    exact (File.writeLines_elsewhere elsewhere _ _ _).trans outside

theorem backupLines_elsewhere {backupPath other : List UInt8} (apart : backupPath ≠ other)
    (sourceData : List (List UInt8)) : o.backupLines d sourceData backupPath other = d other := by
  unfold backupLines
  split
  next => rfl
  next =>
  split
  next => rfl
  next =>
    obtain ⟨outside, elsewhere⟩ := File.openPath_elsewhere File.closed_initial d
      { Openmode.out with app := true } .granted apart
    exact (File.writeLines_elsewhere elsewhere _ _ _).trans outside

/-- A backup leaves the files as they are, or appends the log to the backup and empties it. -/
theorem backupFile_moves (d : Disk (List UInt8)) (sourcePath backupPath : List UInt8) :
    o.backupFile d sourcePath backupPath = d ∨
      ∃ content e, d sourcePath = some content ∧
        o.backupFile d sourcePath backupPath = Function.update e sourcePath (some []) ∧
        (∀ other, backupPath ≠ other → e other = d other) ∧
        (content.length < 2 ^ 32 → (e backupPath).getD [] = (d backupPath).getD [] ++ content) := by
  unfold backupFile
  by_cases none_ : o.fileMode = .none
  · exact .inl (if_pos none_)
  rw [if_neg none_]
  cases there : d sourcePath with
  | none => exact .inl rfl
  | some content =>
      dsimp only
      split
      next => exact .inl rfl
      next =>
        obtain ⟨source, opened, _, read, _⟩ := File.readBytes_opened rfl File.closed_initial
          { Openmode.in_ with binary := true } rfl rfl rfl there
        let mode := { Openmode.out with binary := true, app := true }
        have elsewhere := fun other apart =>
          @File.openPath_elsewhere _ backupPath other File.closed_initial d mode .granted apart
        obtain ⟨backup, e, again, openmode, atEnd, before⟩ := File.atEnd_appended File.closed_initial
          d backupPath mode rfl rfl
        simp only [opened, read]
        rw [again] at elsewhere ⊢
        refine .inr ⟨content, _, rfl, rfl, fun other apart => ?_, fun small => ?_⟩
        · obtain ⟨outside, target⟩ := elsewhere other apart
          exact (File.writeBytes_elsewhere target e content).trans outside
        · obtain ⟨g, e', written, stored⟩ := File.writeBytes_atEnd openmode atEnd small
          rw [written, stored, before]

theorem backupFile_elsewhere {sourcePath backupPath other : List UInt8} (source : sourcePath ≠ other)
    (backup : backupPath ≠ other) : o.backupFile d sourcePath backupPath other = d other := by
  rcases o.backupFile_moves d sourcePath backupPath with same | ⟨content, e, _, moved, outside, _⟩
  · rw [same]
  · rw [moved, Function.update_of_ne (Ne.symm source), outside other backup]

/-- What leaves the log is behind what the backup held. -/
theorem backupFile_kept {sourcePath backupPath : List UInt8} (apart : sourcePath ≠ backupPath)
    (small : ((d sourcePath).getD []).length < 2 ^ 32) :
    ((o.backupFile d sourcePath backupPath) backupPath).getD [] ++
        ((o.backupFile d sourcePath backupPath) sourcePath).getD [] =
      (d backupPath).getD [] ++ (d sourcePath).getD [] := by
  rcases o.backupFile_moves d sourcePath backupPath with same | ⟨content, e, there, moved, _, stored⟩
  · rw [same]
  · rw [there] at small ⊢
    rw [moved, Function.update_of_ne (Ne.symm apart), Function.update_self, stored small]
    exact List.append_nil _

end

section
variable {τ : Type} (f : Formats τ)

theorem writeLog_eq (date : List UInt8) (messages : List (Entry τ)) (s : Sinks) :
    ∃ t, o.writeLog f date messages s = some t ∧
      t.console = o.writeConsole (separated f o.consoleMode o.fileMode messages).consoleMessages
        s.console ∧
      t.notified = o.writeDatabase (messages.map (·.json f)) s.notified ∧
      ∃ written, written = LogLines.writeFile o.fileMode o.maxLines s.disk (o.logPath date)
          (separated f o.consoleMode o.fileMode messages).fileMessages ∧
        t.disk = if o.fileBackupMode = false then written.1
          else if 0 < o.maxLines then o.backupLines written.1 written.2 (o.backupPath date)
          else o.backupFile written.1 (o.logPath date) (o.backupPath date) := by
  unfold writeLog
  rw [convertLog_eq, Option.bind_eq_bind, Option.bind_some]
  split
  next => exact ⟨_, rfl, rfl, rfl, _, rfl, rfl⟩
  next =>
  split
  next => exact ⟨_, rfl, rfl, rfl, _, rfl, rfl⟩
  next => exact ⟨_, rfl, rfl, rfl, _, rfl, rfl⟩

theorem writeConsole_eq (messages : List (Entry τ)) (console : List UInt8) :
    o.writeConsole (separated f o.consoleMode o.fileMode messages).consoleMessages console =
      console ++ o.consoleLines f messages := by
  unfold writeConsole consoleLines
  split
  next => exact (List.append_nil _).symm
  next =>
  split
  next empty => rw [empty, List.flatten_nil, List.append_nil]
  next => rfl

theorem writeDatabase_eq (messages : List (Entry τ))
    (notified : List (List UInt8 × List (List UInt8))) :
    o.writeDatabase (messages.map (·.json f)) notified = notified ++ o.notifications f messages := by
  unfold writeDatabase notifications
  cases o.databaseMode <;> cases o.notification <;> cases messages <;> simp

theorem writeFile_kept {fileMode : LogTypes} (d : Disk (List UInt8)) (targetPath : List UInt8)
    (messages : List (List UInt8)) :
    ((LogLines.writeFile fileMode 0 d targetPath messages).1 targetPath).getD [] =
      (d targetPath).getD [] ++ if fileMode = .none then [] else messages.flatten := by
  by_cases none_ : fileMode = .none
  · rw [if_pos none_, none_, LogLines.writeFile_none, List.append_nil]
  · rw [if_neg none_]
    by_cases empty : messages = []
    · rw [empty, LogLines.writeFile_nil, List.flatten_nil, List.append_nil]
    · exact (LogLines.writeFile_unlimited none_ d targetPath empty).1

theorem kept_other {date day : List UInt8} (other : day ≠ date) {s t : Sinks}
    (outside : ∀ path, o.logPath date ≠ path → o.backupPath date ≠ path → t.disk path = s.disk path) :
    o.kept t day = o.kept s day := by
  have log : o.logPath date ≠ o.logPath day := fun same =>
    other (o.fileName_injective (List.append_cancel_right same)).symm
  have backup : o.backupPath date ≠ o.backupPath day := fun same =>
    other (o.fileName_injective (List.append_cancel_right same)).symm
  rw [kept, kept, outside _ log (Ne.symm (o.logPath_ne_backupPath day date)),
    outside _ (o.logPath_ne_backupPath date day) backup]

/-- What one call of `write_log` adds to each of its outputs. -/
theorem writeLog_adds (date : List UInt8) (messages : List (Entry τ)) (s : Sinks) :
    ∃ t, o.writeLog f date messages s = some t ∧
      t.console = s.console ++ o.consoleLines f messages ∧
      t.notified = s.notified ++ o.notifications f messages ∧
      (∀ path, o.logPath date ≠ path → o.backupPath date ≠ path → t.disk path = s.disk path) ∧
      (o.maxLines = 0 →
        (o.fileBackupMode = true →
          (o.kept s date).length + (o.fileLines f messages).length < 2 ^ 32) →
        o.kept t date = o.kept s date ++ o.fileLines f messages) := by
  obtain ⟨t, wrote, console, notified, written, rfl, disk⟩ := o.writeLog_eq f date messages s
  rw [writeConsole_eq] at console
  rw [writeDatabase_eq] at notified
  refine ⟨t, wrote, console, notified, fun path log backup => ?_, fun unlimited small => ?_⟩
  · have outside := @writeFile_elsewhere o.fileMode o.maxLines _ _ log s.disk
      (separated f o.consoleMode o.fileMode messages).fileMessages
    rw [disk]
    split
    next => exact outside
    next =>
    split
    next => exact (backupLines_elsewhere backup _).trans outside
    next => exact (backupFile_elsewhere log backup).trans outside
  · have log := @writeFile_kept o.fileMode s.disk (o.logPath date)
      (separated f o.consoleMode o.fileMode messages).fileMessages
    have backup := @writeFile_elsewhere o.fileMode o.maxLines _ _
      (o.logPath_ne_backupPath date date) s.disk
      (separated f o.consoleMode o.fileMode messages).fileMessages
    have positive : ¬ 0 < o.maxLines := by
      rw [unlimited]
      decide
    rw [← fileLines, ← unlimited] at log
    rw [if_neg positive] at disk
    rw [kept, kept, disk]
    split
    next => rw [backup, log, List.append_assoc]
    next backs =>
      have size := small (Bool.eq_true_of_not_eq_false backs)
      rw [kept, List.length_append] at size
      rw [backupFile_kept (o.logPath_ne_backupPath date date), backup, log, List.append_assoc]
      rw [log, List.length_append]
      omega

end

section
variable {o} {τ : Type} (f : Formats τ)

theorem linesOn_cons (day : List UInt8) (call : List UInt8 × List (Entry τ))
    (calls : List (List UInt8 × List (Entry τ))) :
    o.linesOn f day (call :: calls) =
      (if call.1 = day then o.fileLines f call.2 else []) ++ o.linesOn f day calls := by
  rw [linesOn, List.filter_cons]
  by_cases same : call.1 = day
  · rw [if_pos (decide_eq_true same), List.flatMap_cons, if_pos same]
    rfl
  · rw [if_neg (by simpa using same), if_neg same, List.nil_append]
    rfl

/-- Over any number of calls on any days: the console and the database get their part of every
message, in order. Without a limit of lines the backup and the log of a day, one behind the other,
get the lines of that day, however often the log is moved to the backup. Nothing else is written. -/
theorem run_adds (calls : List (List UInt8 × List (Entry τ))) (s : Sinks) :
    ∃ t, run (o.step f) s calls = some t ∧
      t.console = s.console ++ calls.flatMap (fun call => o.consoleLines f call.2) ∧
      t.notified = s.notified ++ calls.flatMap (fun call => o.notifications f call.2) ∧
      (∀ path, (∀ call ∈ calls, o.logPath call.1 ≠ path ∧ o.backupPath call.1 ≠ path) →
        t.disk path = s.disk path) ∧
      (o.maxLines = 0 →
        (o.fileBackupMode = true →
          ∀ day, (o.kept s day).length + (o.linesOn f day calls).length < 2 ^ 32) →
        ∀ day, o.kept t day = o.kept s day ++ o.linesOn f day calls) := by
  induction calls generalizing s with
  | nil =>
      refine ⟨s, rfl, (List.append_nil _).symm, (List.append_nil _).symm, fun _ _ => rfl, ?_⟩
      exact fun _ _ day => (List.append_nil _).symm
  | cons call calls ih =>
      obtain ⟨mid, wrote, console, notified, outside, adds⟩ := o.writeLog_adds f call.1 call.2 s
      obtain ⟨t, ran, console', notified', outside', adds'⟩ := ih mid
      refine ⟨t, run_cons.mpr ⟨mid, wrote, ran⟩, ?_, ?_, fun path apart => ?_,
        fun unlimited small => ?_⟩
      · rw [console', console, List.flatMap_cons, List.append_assoc]
      · rw [notified', notified, List.flatMap_cons, List.append_assoc]
      · rw [List.forall_mem_cons] at apart
        rw [outside' path apart.2, outside path apart.1.1 apart.1.2]
      · have one : ∀ day, o.kept mid day =
            o.kept s day ++ if call.1 = day then o.fileLines f call.2 else [] := by
          intro day
          by_cases same : call.1 = day
          · subst day
            rw [if_pos rfl]
            refine adds unlimited fun backs => ?_
            have size := small backs call.1
            rw [linesOn_cons, if_pos rfl, List.length_append] at size
            omega
          · rw [if_neg same, List.append_nil]
            exact o.kept_other (Ne.symm same) outside
        have rest : o.fileBackupMode = true →
            ∀ day, (o.kept mid day).length + (o.linesOn f day calls).length < 2 ^ 32 := by
          intro backs day
          have size := small backs day
          rw [linesOn_cons, List.length_append] at size
          rw [one, List.length_append]
          omega
        intro day
        rw [adds' unlimited rest day, one, linesOn_cons, List.append_assoc]

end

/-- A log without a limit of lines, which goes to the backup from eight bytes on. -/
def daily : Outlets where
  consoleMode := .error
  fileMode := .information
  databaseMode := true
  notification := true
  fileBackupMode := true
  maxLines := 0
  maxFileSize := 8
  logRoot := []
  logName := literal "a"

/-- A time is that many zeros, and an object its values. -/
def bare : Formats Nat where
  datetime := fun time => List.replicate time 48
  milliseconds := fun _ _ => []
  serialize := fun pairs => pairs.flatMap Prod.snd

/-- An entry of the time 1. -/
def entry (logType : LogTypes) (text : String) : Entry Nat :=
  ⟨logType, .string (literal text), 1, none, 1⟩

/-- Two calls of one day; only the error is for the console, and a packet not for the file. -/
def twoCallsOfADay : List (List UInt8 × List (Entry Nat)) :=
  [(literal "1", [entry .information "h", entry .error "i"]),
    (literal "1", [entry .packet "j", entry .information "k"])]

theorem run_adds_two :
    ∃ t, run (daily.step bare) ⟨[], [], fun _ => none⟩ twoCallsOfADay = some t ∧
      t.console = literal "[0][ERROR] i\n" ∧
      t.notified = [(literal "a", [literal "0INFORMATIONh", literal "0ERRORi"]),
        (literal "a", [literal "0PACKETj", literal "0INFORMATIONk"])] ∧
      t.disk (literal "b") = none ∧
      daily.kept t (literal "1") =
        literal "[0][INFORMATION] h\n[0][ERROR] i\n[0][INFORMATION] k\n" := by
  obtain ⟨t, ran, console, notified, outside, adds⟩ :=
    @run_adds daily Nat bare twoCallsOfADay ⟨[], [], fun _ => none⟩
  have elsewhere : ∀ call ∈ twoCallsOfADay,
      daily.logPath call.1 ≠ literal "b" ∧ daily.backupPath call.1 ≠ literal "b" := by
    decide +kernel
  have small : ∀ day, (daily.kept ⟨[], [], fun _ => none⟩ day).length +
      (daily.linesOn bare day twoCallsOfADay).length < 2 ^ 32 := by
    intro day
    by_cases today : literal "1" = day
    · subst day
      decide +kernel
    · have nothing : twoCallsOfADay.filter (·.1 = day) = [] := by
        simp [twoCallsOfADay, today]
      rw [linesOn, nothing]
      exact Nat.two_pow_pos 32
  have kept := adds rfl (fun _ => small) (literal "1")
  exact ⟨t, ran, console.trans (by decide +kernel), notified.trans (by decide +kernel),
    outside _ elsewhere, kept.trans (by decide +kernel)⟩

end Outlets
end CppToolkit.Utilities.LogQueue
