import CppToolkit.Utilities.LineFiles
import CppToolkit.Utilities.Logger

/-! The log file and its line limit: `max_lines` and `write_file`, where every open is granted. -/
namespace CppToolkit.Utilities.LogLines
open Fstream Machine Files

/-- The loop of `write_file` over its messages, with what is left of the lines and what is
removed of them. -/
def pushLines (maxLines : Nat) : List (List UInt8) → List (List UInt8) →
    List (List UInt8) × List (List UInt8)
  | readLines, [] => (readLines, [])
  | readLines, message :: messages =>
      if maxLines ≤ readLines.length then
        let pushed := pushLines maxLines (readLines.drop 1 ++ [message]) messages
        (pushed.1, readLines.take 1 ++ pushed.2)
      else pushLines maxLines (readLines ++ [message]) messages

/-- The part of `write_file` that reads the lines, with the closed file and the disk. -/
def readFile (d : Disk (List UInt8)) (targetPath : List UInt8) :
    (File × Disk (List UInt8)) × List (List UInt8) :=
  let opened := File.initial.openPath d targetPath .in_ .granted
  match opened.2 with
  | .returned (.ok ()) =>
      let fileLines := opened.1.1.readLines opened.1.2 true
      ((fileLines.1.close, opened.1.2),
        match fileLines.2 with
        | .ok lines => lines
        | .error _ => [])
  | _ => (opened.1, [])

/-- The disk after `write_file`, and the removed lines. -/
def writeFile (fileMode : LogTypes) (maxLines : UInt16) (d : Disk (List UInt8))
    (targetPath : List UInt8) (messages : List (List UInt8)) :
    Disk (List UInt8) × List (List UInt8) :=
  if fileMode = .none then (d, [])
  else if messages = [] then (d, [])
  else if maxLines = 0 then
    let opened := File.initial.openPath d targetPath { Openmode.out with app := true } .granted
    match opened.2 with
    | .returned (.ok ()) => ((opened.1.1.writeLines opened.1.2 messages false).1.2, [])
    | _ => (opened.1.2, [])
  else
    let reading := readFile d targetPath
    let pushed := pushLines maxLines.toNat reading.2 messages
    let again :=
      reading.1.1.openPath reading.1.2 targetPath { Openmode.out with trunc := true } .granted
    ((again.1.1.writeLines again.1.2 pushed.1 false).1.2, pushed.2)

section
variable {fileMode : LogTypes} {maxLines : UInt16} {targetPath : List UInt8}
  {d : Disk (List UInt8)} {messages : List (List UInt8)}

/-- The loop moves lines from the front and removes as many as do not fit when it ends, but
no more than there are messages. -/
theorem pushLines_spec {limit : Nat} (positive : 0 < limit)
    (readLines messages : List (List UInt8)) :
    (pushLines limit readLines messages).2 ++ (pushLines limit readLines messages).1 =
        readLines ++ messages ∧
      (pushLines limit readLines messages).2.length =
        messages.length - (limit - readLines.length) := by
  induction messages generalizing readLines with
  | nil => exact ⟨(List.append_nil readLines).symm, (Nat.zero_sub _).symm⟩
  | cons message messages ih =>
      unfold pushLines
      split
      next full =>
        obtain ⟨same, count⟩ := ih (readLines.drop 1 ++ [message])
        dsimp only
        constructor
        · rw [List.append_assoc, same, List.append_assoc, ← List.append_assoc,
            List.take_append_drop, List.singleton_append]
        · rw [List.length_append, count]
          simp only [List.length_take, List.length_append, List.length_drop, List.length_cons,
            List.length_nil]
          omega
      next room =>
        obtain ⟨same, count⟩ := ih (readLines ++ [message])
        refine ⟨by rw [same, List.append_assoc, List.singleton_append], ?_⟩
        rw [count, List.length_append, List.length_cons, List.length_cons, List.length_nil]
        omega

theorem writeFile_none (messages : List (List UInt8)) :
    writeFile .none maxLines d targetPath messages = (d, []) := if_pos rfl

theorem writeFile_nil : writeFile fileMode maxLines d targetPath [] = (d, []) := by
  unfold writeFile
  split
  next => rfl
  next => exact if_pos rfl

/-- Without a limit the messages are appended. -/
theorem writeFile_unlimited (mode : fileMode ≠ .none) (d : Disk (List UInt8))
    (targetPath : List UInt8) (some_ : messages ≠ []) :
    ((writeFile fileMode 0 d targetPath messages).1 targetPath).getD [] =
        (d targetPath).getD [] ++ messages.flatten ∧
      (writeFile fileMode 0 d targetPath messages).2 = [] := by
  obtain ⟨f, e, opened, openmode, atEnd, content⟩ :=
    File.atEnd_appended File.closed_initial d targetPath { Openmode.out with app := true } rfl rfl
  obtain ⟨g, e', written, _, _, stored⟩ := File.writeLines_atEnd openmode atEnd messages false
  rw [writeFile, if_neg mode, if_neg some_, if_pos rfl]
  simp only [opened, written]
  rw [stored, content, File.concatenated_flatten]
  exact ⟨List.append_nil _, trivial⟩

theorem readFile_eq (d : Disk (List UInt8)) (targetPath : List UInt8) :
    ∃ f, readFile d targetPath =
        ((f, d), (splitLines ((d targetPath).getD [])).map (· ++ [Stream.newline])) ∧
      f.openmode = .none ∧ f.stream.isOpen = false := by
  cases there : d targetPath with
  | none =>
      have absent := File.openPath_absent File.closed_initial .in_ rfl there
      unfold readFile
      simp only [absent]
      exact ⟨_, rfl, rfl, rfl⟩
  | some content =>
      obtain ⟨g, _, opened, rfl, read⟩ :=
        File.readLines_opened rfl File.closed_initial .in_ rfl rfl rfl (Option.isSome_of_eq_some there)
      obtain ⟨openmode, lines⟩ := read true
      unfold readFile
      simp only [opened, lines]
      rw [there]
      exact ⟨_, rfl, (File.close_closed _).2.trans openmode, (File.close_closed _).1⟩

theorem writeFile_limited (mode : fileMode ≠ .none) (d : Disk (List UInt8))
    (targetPath : List UInt8) (some_ : messages ≠ []) (limited : maxLines ≠ 0) :
    ((writeFile fileMode maxLines d targetPath messages).1 targetPath).getD [] =
        (pushLines maxLines.toNat ((splitLines ((d targetPath).getD [])).map
          (· ++ [Stream.newline])) messages).1.flatten ∧
      (writeFile fileMode maxLines d targetPath messages).2 =
        (pushLines maxLines.toNat ((splitLines ((d targetPath).getD [])).map
          (· ++ [Stream.newline])) messages).2 := by
  obtain ⟨f, read, openmode, closed⟩ := readFile_eq d targetPath
  obtain ⟨g, e, opened, openmode', atEnd, empty⟩ :=
    File.atEnd_truncated closed d targetPath { Openmode.out with trunc := true } rfl rfl
  rw [writeFile, if_neg mode, if_neg some_, if_neg limited, read]
  dsimp only
  generalize pushLines maxLines.toNat _ messages = pushed
  obtain ⟨h, e', written, _, _, stored⟩ :=
    File.writeLines_atEnd (openmode'.trans openmode) atEnd pushed.1 false
  simp only [opened, written]
  rw [stored, empty, File.concatenated_flatten]
  exact ⟨List.append_nil _, trivial⟩

end

/-- What `write_file` reads of a logger, its disk, and the number that `max_lines` was last
called with. -/
structure LogFile where
  fileMode : LogTypes
  maxLines : UInt16
  requested : UInt64
  disk : Disk (List UInt8)

namespace LogFile

/-- A message of `write_file` is a text and a newline. -/
inductive Call where
  | maxLines (lineCount : UInt64) (positive : 0 < lineCount)
  | writeFile (texts : List (List UInt8))

def constructed (fileMode : LogTypes) (disk : Disk (List UInt8)) : LogFile :=
  ⟨fileMode, 10000, 10000, disk⟩

def messages (texts : List (List UInt8)) : List (List UInt8) :=
  texts.map (· ++ [Stream.newline])

def call (targetPath : List UInt8) (s : LogFile) : Call → LogFile × List (List UInt8)
  | .maxLines lineCount _ =>
      ({ s with maxLines := lineCount.toUInt16, requested := lineCount }, [])
  | .writeFile texts =>
      let written := LogLines.writeFile s.fileMode s.maxLines s.disk targetPath (messages texts)
      ({ s with disk := written.1 }, written.2)

def step (targetPath : List UInt8) (s : LogFile) (c : Call) : Option LogFile :=
  some (s.call targetPath c).1

def lines (targetPath : List UInt8) (s : LogFile) : List (List UInt8) :=
  splitLines ((s.disk targetPath).getD [])

/-- The file holds the last lines of what it held and the batch, no more of them than requested,
and the others are returned. -/
def Limited (targetPath : List UInt8) (s : LogFile) : Call → Prop
  | .maxLines _ _ => True
  | .writeFile texts =>
      let written := s.call targetPath (.writeFile texts)
      ∃ dropped, s.lines targetPath ++ splitLines (messages texts).flatten =
          dropped ++ written.1.lines targetPath ∧
        written.2 = dropped.map (· ++ [Stream.newline]) ∧
        (written.1.lines targetPath).length ≤ s.requested.toNat

/-- There is room for the lines of the batch where the file loses one line for a message at
most, and the messages that are dropped at once have one line. -/
def Fits (targetPath : List UInt8) (s : LogFile) : Call → Prop
  | .maxLines _ _ => True
  | .writeFile texts =>
      let held := (s.lines targetPath).length
      let added := (splitLines (messages texts).flatten).length
      if texts = [] then held ≤ s.requested.toNat
      else s.fileMode ≠ .none ∧
        if s.maxLines = 0 then held + added ≤ s.requested.toNat
        else
          held + added ≤ s.requested.toNat + (texts.length - (s.maxLines.toNat - held)) ∧
            ∀ text ∈ texts.take (texts.length - max s.maxLines.toNat held),
              Stream.newline ∉ text

instance decidableFits (targetPath : List UInt8) (s : LogFile) :
    ∀ c, Decidable (Fits targetPath s c)
  | .maxLines _ _ => isTrue trivial
  | .writeFile texts => by
      dsimp only [Fits]
      infer_instance

section
variable {targetPath : List UInt8} {s : LogFile} {texts : List (List UInt8)}

theorem messages_ended (texts : List (List UInt8)) : ∀ message ∈ messages texts, Ended message := by
  intro message member
  obtain ⟨text, _, rfl⟩ := List.mem_map.mp member
  exact .inr ⟨text, rfl⟩

theorem messages_injective : Function.Injective messages :=
  List.map_injective_iff.mpr (List.append_left_injective _)

theorem messages_append (first rest : List (List UInt8)) :
    messages (first ++ rest) = messages first ++ messages rest := List.map_append

theorem messages_ne_nil (some_ : texts ≠ []) : messages texts ≠ [] :=
  mt List.map_eq_nil_iff.mp some_

/-- The messages are read back as their texts if each text is one line. -/
theorem messages_lines_iff :
    texts = (messages texts).flatMap splitLines ↔ ∀ text ∈ texts, Stream.newline ∉ text := by
  constructor
  · intro same text member
    rw [same] at member
    obtain ⟨message, _, line⟩ := List.mem_flatMap.mp member
    exact splitLines_plain message text line
  · intro plain
    have whole : splitLines ((messages texts).flatten ++ []) = texts ++ splitLines [] :=
      splitLines_flatMap plain []
    rw [List.append_nil, splitLines_flatten (messages_ended texts)] at whole
    exact (List.append_nil texts).symm.trans whole.symm

theorem lines_plain (targetPath : List UInt8) (s : LogFile) :
    s.lines targetPath = (messages (s.lines targetPath)).flatMap splitLines :=
  messages_lines_iff.mpr (splitLines_plain _)

/-- What the loop leaves in the file and what it returns, as parts of the lines and the texts. -/
theorem call_limited (targetPath : List UInt8) (mode : s.fileMode ≠ .none) (some_ : texts ≠ [])
    (limited : s.maxLines ≠ 0) :
    let removed := texts.length - (s.maxLines.toNat - (s.lines targetPath).length)
    let all := s.lines targetPath ++ texts
    (s.call targetPath (.writeFile texts)).2 = messages (all.take removed) ∧
      ((s.call targetPath (.writeFile texts)).1.disk targetPath).getD [] =
        (messages (all.drop removed)).flatten := by
  intro removed all
  have positive : 0 < s.maxLines.toNat :=
    Nat.pos_of_ne_zero fun zero => limited (UInt16.toNat_inj.mp zero)
  obtain ⟨whole, count⟩ :=
    pushLines_spec positive (messages (s.lines targetPath)) (messages texts)
  obtain ⟨stored, returned⟩ :=
    writeFile_limited mode s.disk targetPath (messages_ne_nil some_) limited
  have lengths : (messages texts).length - (s.maxLines.toNat - (messages (s.lines targetPath)).length)
      = removed := by
    simp only [messages, List.length_map, removed]
  rw [lengths] at count
  have both : messages (s.lines targetPath) ++ messages texts = messages all :=
    List.map_append.symm
  rw [both] at whole
  have front := congrArg (List.take removed) whole
  have back := congrArg (List.drop removed) whole
  rw [List.take_left' count] at front
  rw [List.drop_left' count] at back
  dsimp only [call]
  rw [stored, returned]
  refine ⟨front.trans ?_, congrArg List.flatten (back.trans ?_)⟩
  · exact List.map_take.symm
  · exact List.map_drop.symm

theorem limited_nil : Limited targetPath s (.writeFile []) ↔ Fits targetPath s (.writeFile []) := by
  unfold Limited Fits
  have nothing : (s.call targetPath (.writeFile [])) = (s, []) := by
    dsimp only [call]
    rw [show messages [] = [] from rfl, writeFile_nil]
  dsimp only
  rw [nothing, if_pos rfl]
  constructor
  · rintro ⟨_, _, _, few⟩
    exact few
  · exact fun few => ⟨[], List.append_nil _, rfl, few⟩

/-- A batch of which nothing is removed: the file gets all of its lines or none. -/
theorem limited_kept
    (returned : (s.call targetPath (.writeFile texts)).2 = []) :
    Limited targetPath s (.writeFile texts) ↔
      s.lines targetPath ++ splitLines (messages texts).flatten =
          (s.call targetPath (.writeFile texts)).1.lines targetPath ∧
        (s.lines targetPath).length + (splitLines (messages texts).flatten).length ≤
          s.requested.toNat := by
  unfold Limited
  dsimp only
  rw [returned]
  constructor
  · rintro ⟨dropped, whole, same, few⟩
    rw [List.map_eq_nil_iff.mp same.symm] at whole
    refine ⟨whole, ?_⟩
    rw [← List.length_append, whole]
    exact few
  · rintro ⟨whole, few⟩
    refine ⟨[], whole, rfl, ?_⟩
    rw [← whole, List.length_append]
    exact few

theorem limited_unlimited (ended : Ended ((s.disk targetPath).getD [])) (some_ : texts ≠ [])
    (mode : s.fileMode ≠ .none) (unlimited : s.maxLines = 0) :
    Limited targetPath s (.writeFile texts) ↔ Fits targetPath s (.writeFile texts) := by
  obtain ⟨stored, returned⟩ := writeFile_unlimited mode s.disk targetPath (messages_ne_nil some_)
  rw [← unlimited] at stored returned
  have whole : s.lines targetPath ++ splitLines (messages texts).flatten =
      (s.call targetPath (.writeFile texts)).1.lines targetPath := by
    change _ = splitLines _
    dsimp only [call]
    rw [stored, splitLines_append ended]
    rfl
  rw [limited_kept returned, Fits, if_neg some_, if_pos unlimited]
  exact ⟨fun both => ⟨mode, both.2⟩, fun both => ⟨whole, both.2⟩⟩

theorem limited_none (some_ : texts ≠ []) (mode : s.fileMode = .none) :
    Limited targetPath s (.writeFile texts) ↔ Fits targetPath s (.writeFile texts) := by
  have nothing : s.call targetPath (.writeFile texts) = (s, []) := by
    dsimp only [call]
    rw [mode, writeFile_none, ← mode]
  have lines : splitLines (messages texts).flatten ≠ [] := by
    obtain ⟨text, rest, rfl⟩ := List.exists_cons_of_ne_nil some_
    rw [Ne, splitLines_eq_nil_iff]
    simp [messages]
  rw [limited_kept (by rw [nothing]), nothing, Fits, if_neg some_]
  refine iff_of_false (fun both => lines ?_) fun both => both.1 mode
  exact List.append_right_eq_self.mp both.1

/-- The texts among the lines and texts that are removed. -/
theorem removed_plain_iff (targetPath : List UInt8) (s : LogFile) (texts : List (List UInt8)) :
    (∀ line ∈ (s.lines targetPath ++ texts).take
        (texts.length - (s.maxLines.toNat - (s.lines targetPath).length)),
        Stream.newline ∉ line) ↔
      ∀ text ∈ texts.take (texts.length - max s.maxLines.toNat (s.lines targetPath).length),
        Stream.newline ∉ text := by
  have plain := splitLines_plain ((s.disk targetPath).getD [])
  have counts : texts.length - (s.maxLines.toNat - (s.lines targetPath).length) -
      (s.lines targetPath).length =
        texts.length - max s.maxLines.toNat (s.lines targetPath).length := by omega
  rw [List.take_append, List.forall_mem_append, counts]
  exact and_iff_right fun line member => plain line (List.mem_of_mem_take member)

theorem limited_limited (some_ : texts ≠ []) (mode : s.fileMode ≠ .none)
    (limited : s.maxLines ≠ 0) :
    Limited targetPath s (.writeFile texts) ↔ Fits targetPath s (.writeFile texts) := by
  obtain ⟨returned, stored⟩ := call_limited targetPath mode some_ limited
  have plain := removed_plain_iff targetPath s texts
  have few : texts.length - (s.maxLines.toNat - (s.lines targetPath).length) ≤
      (s.lines targetPath ++ texts).length := by
    rw [List.length_append]
    omega
  have both : s.lines targetPath ++ splitLines (messages texts).flatten =
      (messages (s.lines targetPath ++ texts)).flatMap splitLines := by
    rw [messages_append, List.flatMap_append]
    exact congrArg₂ _ (lines_plain targetPath s) (splitLines_flatten (messages_ended texts))
  have lengths := congrArg List.length both
  unfold Limited Fits
  dsimp only
  rw [if_neg some_, if_neg limited, returned, ← plain]
  generalize texts.length - (s.maxLines.toNat - (s.lines targetPath).length) = removed
    at stored few ⊢
  generalize s.lines targetPath ++ texts = all at stored few both lengths ⊢
  have after : (s.call targetPath (.writeFile texts)).1.lines targetPath =
      (messages (all.drop removed)).flatMap splitLines := by
    rw [lines, stored, splitLines_flatten (messages_ended _)]
  have parts : (messages all).flatMap splitLines = (messages (all.take removed)).flatMap splitLines ++
      (messages (all.drop removed)).flatMap splitLines := by
    rw [← List.flatMap_append, ← messages_append, List.take_append_drop]
  have count : (all.take removed).length = removed := List.length_take_of_le few
  rw [after, both, parts, and_iff_right mode]
  rw [parts, List.length_append, List.length_append] at lengths
  generalize (messages (all.drop removed)).flatMap splitLines = left at lengths ⊢
  constructor
  · rintro ⟨dropped, whole, same, room⟩
    have lost := List.append_cancel_right whole
    rw [← messages_injective same] at lost
    rw [lost, count] at lengths
    exact ⟨by omega, messages_lines_iff.mp lost.symm⟩
  · rintro ⟨room, plain⟩
    have lost := messages_lines_iff.mpr plain
    rw [← lost, count] at lengths
    exact ⟨_, rfl, congrArg messages lost, by omega⟩

theorem limited_iff_fits (ended : Ended ((s.disk targetPath).getD [])) (c : Call) :
    Limited targetPath s c ↔ Fits targetPath s c := by
  cases c with
  | maxLines lineCount positive => exact Iff.rfl
  | writeFile texts =>
      by_cases empty : texts = []
      · rw [empty]
        exact limited_nil
      by_cases mode : s.fileMode = .none
      · exact limited_none empty mode
      by_cases unlimited : s.maxLines = 0
      · exact limited_unlimited ended empty mode unlimited
      · exact limited_limited empty mode unlimited

/-- The file ends with a newline whenever it holds anything. -/
theorem ended_call (ended : Ended ((s.disk targetPath).getD [])) (c : Call) :
    Ended (((s.call targetPath c).1.disk targetPath).getD []) := by
  cases c with
  | maxLines lineCount positive => exact ended
  | writeFile texts =>
      by_cases empty : texts = []
      · dsimp only [call]
        rw [empty, show messages [] = [] from rfl, writeFile_nil]
        exact ended
      by_cases mode : s.fileMode = .none
      · dsimp only [call]
        rw [mode, writeFile_none]
        exact ended
      by_cases unlimited : s.maxLines = 0
      · have stored := (writeFile_unlimited mode s.disk targetPath (messages_ne_nil empty)).1
        dsimp only [call]
        rw [unlimited, stored]
        exact ended.append (Ended.flatten (messages_ended texts))
      · rw [(call_limited targetPath mode empty unlimited).2]
        exact Ended.flatten (messages_ended _)

end

/-- The log file keeps to its limit in exactly the runs in which every batch fits. -/
theorem limited_along_iff (fileMode : LogTypes) {disk : Disk (List UInt8)} {targetPath : List UInt8}
    (absent : disk targetPath = none) (calls : List Call) :
    Along (step targetPath) (Limited targetPath) (constructed fileMode disk) calls ↔
      Along (step targetPath) (Fits targetPath) (constructed fileMode disk) calls := by
  refine along_iff (I := fun s => Ended ((s.disk targetPath).getD [])) (fun s c t ended stepped => ?_)
    (fun s c ended => limited_iff_fits ended c) (.inl ?_)
  · cases stepped
    exact ended_call ended c
  · change (disk targetPath).getD [] = []
    rw [absent]
    rfl

theorem limited_two_batches :
    Along (step [97]) (Limited [97]) (constructed .information fun _ => none)
      [.maxLines 2 (by decide), .writeFile [[97], [98]], .writeFile [[99]]] := by
  refine (limited_along_iff .information rfl _).mpr ?_
  decide

/-- One message removes one line, however many lines are too many. -/
theorem lowered_limit_exceeded :
    ¬ ∀ (fileMode : LogTypes) (disk : Disk (List UInt8)) (targetPath : List UInt8) (calls : List Call),
      disk targetPath = none →
        Along (step targetPath) (Limited targetPath) (constructed fileMode disk) calls := by
  intro every
  have along := every .information (fun _ => none) [97]
    [.writeFile [[97], [98]], .maxLines 1 (by decide), .writeFile [[99]]] rfl
  obtain ⟨_, _, _, few⟩ := ((along.2 _ rfl).2 _ rfl).1
  revert few
  decide

end LogFile
end CppToolkit.Utilities.LogLines
