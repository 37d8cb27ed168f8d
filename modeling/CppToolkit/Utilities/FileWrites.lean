import CppToolkit.Utilities.FileCalls

/-! Sequences of calls that write through one `File`, and the writes that report success. -/
namespace CppToolkit.Utilities.Files
open Fstream Machine

/-- `lastOpened` is the path of the most recent `open` that returned true. -/
structure Session where
  file : File
  disk : Disk (List UInt8)
  lastOpened : Option (List UInt8)

namespace Session

inductive Call where
  | openPath (path : List UInt8) (mode : Openmode) (access : Access)
  | writeBytes (bytes : List UInt8)
  | writeLines (lines : List (List UInt8)) (appendNewline : Bool)
  | close
  deriving DecidableEq, Repr

def initial (disk : Disk (List UInt8)) : Session := ⟨.initial, disk, none⟩

def call (s : Session) : Call → Session × Outcome
  | .openPath path mode access =>
      let opened := s.file.openPath s.disk path mode access
      match opened.2 with
      | .returned (.ok ()) => (⟨opened.1.1, opened.1.2, some path⟩, opened.2)
      | _ => (⟨opened.1.1, opened.1.2, s.lastOpened⟩, opened.2)
  | .writeBytes bytes =>
      let written := s.file.writeBytes s.disk bytes
      (⟨written.1.1, written.1.2, s.lastOpened⟩, .returned written.2)
  | .writeLines lines appendNewline =>
      let written := s.file.writeLines s.disk lines appendNewline
      (⟨written.1.1, written.1.2, s.lastOpened⟩, .returned written.2)
  | .close => (⟨s.file.close, s.disk, s.lastOpened⟩, .returned (.ok ()))

def step (s : Session) (c : Call) : Option Session := some (s.call c).1

/-- The bytes are in the last opened file, at the position of the stream, and nowhere else. -/
def Stored (s t : Session) (bytes : List UInt8) : Prop :=
  ∃ path, s.lastOpened = some path ∧
    t.disk = s.disk.write path (s.file.stream.writePosition s.disk) bytes ∧
    (bytes ≠ [] →
      t.file.stream.position = s.file.stream.writePosition s.disk + bytes.length)

/-- A `write_bytes` that returns true has stored its bytes. -/
def Honest (s : Session) (c : Call) : Prop :=
  ∀ bytes, c = .writeBytes bytes → (s.call c).2 = .returned (.ok ()) → Stored s (s.call c).1 bytes

/-- The stream can take the bytes, unless the file is not open or there are none. -/
def Takes (s : Session) (c : Call) : Prop :=
  ∀ bytes, c = .writeBytes bytes → s.file.stream.isOpen = true → bytes = [] ∨
    s.file.stream.good = true ∧ s.file.stream.mode.writable = true ∧ bytes.length < 2 ^ 32

/-- What holds in every session. -/
structure Sound (s : Session) : Prop where
  openmode : s.file.openmode = .none
  within : s.file.stream.isOpen = true →
    s.file.stream.position ≤ (s.file.stream.content s.disk).length
  known : s.file.stream.isOpen = true → ∃ path, s.lastOpened = some path
  named : ∀ path, s.file.stream.target = some path → s.file.stream.good = true →
    s.lastOpened = some path

section
variable {s t : Session} {c : Call}

theorem sound_initial (disk : Disk (List UInt8)) : (initial disk).Sound where
  openmode := rfl
  within := fun isOpen => by cases isOpen
  known := fun isOpen => by cases isOpen
  named := fun _ target => by cases target

theorem call_writeBytes_open (sound : s.Sound) (isOpen : s.file.stream.isOpen = true)
    (bytes : List UInt8) : s.call (.writeBytes bytes) =
      (⟨{ s.file with
            stream := (s.file.stream.write s.disk (Utilities.File.writeBytes bytes)).1 },
          (s.file.stream.write s.disk (Utilities.File.writeBytes bytes)).2, s.lastOpened⟩,
        .returned (.ok ())) := by
  dsimp only [call]
  rw [File.writeBytes_open sound.openmode isOpen]

theorem call_writeBytes_closed (sound : s.Sound) (closed : s.file.stream.isOpen = false)
    (bytes : List UInt8) :
    s.call (.writeBytes bytes) = (s, .returned (.error (s.file.unopened "write"))) := by
  dsimp only [call]
  rw [File.writeBytes_closed sound.openmode closed]

/-- A write to the stream of a sound session. -/
theorem Sound.write (sound : s.Sound) (bytes : List UInt8) :
    (⟨{ s.file with stream := (s.file.stream.write s.disk bytes).1 },
      (s.file.stream.write s.disk bytes).2, s.lastOpened⟩ : Session).Sound where
  openmode := sound.openmode
  within := fun isOpen => Stream.write_within (sound.within (by
    rw [Stream.isOpen, Stream.write_target] at isOpen
    exact isOpen))
  known := fun isOpen => sound.known (by
    rw [Stream.isOpen, Stream.write_target] at isOpen
    exact isOpen)
  named := fun path target good => sound.named path (by
    rw [Stream.write_target] at target
    exact target) (Stream.good_of_write good)

/-- An open that fails, and leaves what the stream has opened before. -/
theorem Sound.fails (sound : s.Sound) (path : List UInt8) {lastOpened : Option (List UInt8)}
    (known : s.file.stream.isOpen = true → ∃ path, lastOpened = some path) :
    (⟨{ s.file with stream := { s.file.stream with fail := true }, filePath := path },
      s.disk, lastOpened⟩ : Session).Sound where
  openmode := sound.openmode
  within := sound.within
  known := known
  named := fun _ _ good => by simp [Stream.good] at good

theorem sound_close (sound : s.Sound) : (s.call .close).1.Sound := by
  unfold call File.close
  dsimp only
  split
  next => exact sound
  next =>
    exact {
      openmode := sound.openmode
      within := fun isOpen => by cases isOpen
      known := fun isOpen => by cases isOpen
      named := fun _ target => by cases target }

theorem sound_writeBytes (sound : s.Sound) (bytes : List UInt8) :
    (s.call (.writeBytes bytes)).1.Sound := by
  cases isOpen : s.file.stream.isOpen with
  | true =>
      rw [call_writeBytes_open sound isOpen]
      exact sound.write _
  | false =>
      rw [call_writeBytes_closed sound isOpen]
      exact sound

theorem sound_writeLines (sound : s.Sound) (lines : List (List UInt8)) (appendNewline : Bool) :
    (s.call (.writeLines lines appendNewline)).1.Sound := by
  dsimp only [call]
  unfold File.writeLines
  split
  next => exact sound
  next =>
    split
    next => exact sound
    next => exact (sound.write _).write _

theorem sound_openPath (sound : s.Sound) (path : List UInt8) (mode : Openmode)
    (access : Access) : (s.call (.openPath path mode access)).1.Sound := by
  have opened := File.openPath_opened s.file s.disk path mode access
  dsimp only [call]
  generalize s.file.openPath s.disk path mode access = result at opened ⊢
  cases opened with
  | thrown what =>
      exact ⟨sound.openmode, sound.within, sound.known, sound.named⟩
  | again isOpen => exact sound.fails path fun _ => ⟨path, rfl⟩
  | refused closed message =>
      exact sound.fails path fun isOpen => absurd isOpen (ne_true_of_eq_false closed)
  | opened closed content position within =>
      exact {
        openmode := sound.openmode
        within := fun _ => by simpa [Stream.content] using within
        known := fun _ => ⟨path, rfl⟩
        named := fun _ target _ => target }

theorem sound_step (sound : s.Sound) (stepped : step s c = some t) : t.Sound := by
  cases stepped
  cases c with
  | openPath path mode access => exact sound_openPath sound path mode access
  | writeBytes bytes => exact sound_writeBytes sound bytes
  | writeLines lines appendNewline => exact sound_writeLines sound lines appendNewline
  | close => exact sound_close sound

theorem stored_write {path : List UInt8} {bytes : List UInt8} (good : s.file.stream.good = true)
    (target : s.file.stream.target = some path) (writable : s.file.stream.mode.writable = true)
    (last : s.lastOpened = some path) :
    Stored s ⟨{ s.file with stream := (s.file.stream.write s.disk bytes).1 },
      (s.file.stream.write s.disk bytes).2, s.lastOpened⟩ bytes := by
  refine ⟨path, last, ?_⟩
  by_cases empty : bytes = []
  · rw [empty, Stream.write_nil]
    exact ⟨rfl, fun some_ => absurd rfl some_⟩
  · rw [Stream.write_written good empty target writable]
    exact ⟨rfl, fun _ => rfl⟩

/-- A stream that is not good or not for writing stays where it is. -/
theorem not_stored_refused {bytes : List UInt8} (isOpen : s.file.stream.isOpen = true)
    (sound : s.Sound) (some_ : bytes ≠ [])
    (refuses : s.file.stream.good = false ∨ s.file.stream.mode.writable = false)
    (given : List UInt8) :
    ¬ Stored s ⟨{ s.file with stream := (s.file.stream.write s.disk given).1 },
      (s.file.stream.write s.disk given).2, s.lastOpened⟩ bytes := by
  have still : (s.file.stream.write s.disk given).1.position = s.file.stream.position := by
    by_cases empty : given = []
    · rw [empty, Stream.write_nil]
    cases good : s.file.stream.good with
    | false => rw [Stream.write_broken good]
    | true =>
        have unwritable := refuses.resolve_left (by simp [good])
        rw [Stream.write_refused good empty (.inr unwritable)]
  rintro ⟨path, _, _, moved⟩
  have moved := moved some_
  dsimp only at moved
  rw [still] at moved
  have positive := List.length_pos_iff.mpr some_
  have behind := Stream.le_writePosition (sound.within isOpen)
  omega

/-- A length from 2^32 on is cut. -/
theorem not_stored_cut (sound : s.Sound) {path : List UInt8} {bytes : List UInt8}
    (isOpen : s.file.stream.isOpen = true) (good : s.file.stream.good = true)
    (target : s.file.stream.target = some path) (writable : s.file.stream.mode.writable = true)
    (long : 2 ^ 32 ≤ bytes.length) :
    ¬ Stored s ⟨{ s.file with
        stream := (s.file.stream.write s.disk (Utilities.File.writeBytes bytes)).1 },
      (s.file.stream.write s.disk (Utilities.File.writeBytes bytes)).2, s.lastOpened⟩ bytes := by
  have some_ : bytes ≠ [] := List.ne_nil_of_length_pos (by omega)
  have cut : (Utilities.File.writeBytes bytes).length < bytes.length := by
    unfold Utilities.File.writeBytes
    rw [List.length_take]
    omega
  generalize Utilities.File.writeBytes bytes = taken at cut ⊢
  rintro ⟨path', last, disk, moved⟩
  have moved := moved some_
  by_cases empty : taken = []
  · have behind := Stream.le_writePosition (sound.within isOpen)
    rw [empty, Stream.write_nil] at moved
    dsimp only at moved
    omega
  · rw [Stream.write_written good empty target writable] at moved
    dsimp only at moved
    omega

theorem honest_writeBytes (sound : s.Sound) (bytes : List UInt8) :
    ((s.call (.writeBytes bytes)).2 = .returned (.ok ()) →
        Stored s (s.call (.writeBytes bytes)).1 bytes) ↔
      (s.file.stream.isOpen = true → bytes = [] ∨ s.file.stream.good = true ∧
        s.file.stream.mode.writable = true ∧ bytes.length < 2 ^ 32) := by
  cases isOpen : s.file.stream.isOpen with
  | false =>
      rw [call_writeBytes_closed sound isOpen]
      exact iff_of_true (fun same => by cases same) fun same => by cases same
  | true =>
      rw [call_writeBytes_open sound isOpen]
      by_cases empty : bytes = []
      · subst bytes
        obtain ⟨path, last⟩ := sound.known isOpen
        have nothing : Utilities.File.writeBytes [] = [] := rfl
        rw [nothing, Stream.write_nil]
        exact iff_of_true (fun _ => ⟨path, last, rfl, fun some_ => absurd rfl some_⟩)
          fun _ => .inl rfl
      rw [or_iff_right empty]
      by_cases refuses : s.file.stream.good = false ∨ s.file.stream.mode.writable = false
      · refine iff_of_false (fun stored => ?_) fun takes => ?_
        · exact not_stored_refused isOpen sound empty refuses _ (stored rfl)
        · obtain ⟨good, writable, _⟩ := takes rfl
          rcases refuses with broken | unwritable
          · rw [good] at broken
            cases broken
          · rw [writable] at unwritable
            cases unwritable
      · rw [not_or, Bool.not_eq_false, Bool.not_eq_false] at refuses
        obtain ⟨good, writable⟩ := refuses
        obtain ⟨path, target⟩ := Option.isSome_iff_exists.mp isOpen
        by_cases short : bytes.length < 2 ^ 32
        · refine iff_of_true (fun _ => ?_) fun _ => ⟨good, writable, short⟩
          rw [Utilities.File.writeBytes_eq_iff.mpr short]
          exact stored_write good target writable (sound.named path target good)
        · refine iff_of_false (fun stored => ?_) fun takes => short (takes rfl).2.2
          exact not_stored_cut sound isOpen good target writable (Nat.le_of_not_lt short) (stored rfl)

theorem honest_of_other (other : ∀ bytes, c ≠ .writeBytes bytes) : Honest s c ↔ Takes s c :=
  iff_of_true (fun bytes same => absurd same (other bytes))
    fun bytes same => absurd same (other bytes)

theorem honest_iff_takes (sound : s.Sound) (c : Call) : Honest s c ↔ Takes s c := by
  cases c with
  | writeBytes bytes =>
      constructor
      · rintro honest _ ⟨⟩
        exact (honest_writeBytes sound bytes).mp (honest bytes rfl)
      · rintro takes _ ⟨⟩
        exact (honest_writeBytes sound bytes).mpr (takes bytes rfl)
  | openPath path mode access => exact honest_of_other nofun
  | writeLines lines appendNewline => exact honest_of_other nofun
  | close => exact honest_of_other nofun

end

/-- Writes that report success have happened in exactly the sessions whose streams could take
them. -/
theorem honest_along_iff (disk : Disk (List UInt8)) (calls : List Call) :
    Along step Honest (initial disk) calls ↔ Along step Takes (initial disk) calls :=
  along_iff (fun _ _ _ sound stepped => sound_step sound stepped)
    (fun _ c sound => honest_iff_takes sound c) (sound_initial disk)

/-- The bytes do not go into a file that is open for reading. -/
theorem write_to_input_lost :
    ¬ ∀ disk calls, Along step Honest (initial disk) calls := by
  intro every
  have honest := every (fun _ => some [1]) [.openPath [97] .in_ .granted, .writeBytes [7]]
  obtain ⟨path, last, disk, _⟩ := (honest.2 _ rfl).1 [7] rfl rfl
  cases last
  have stored := congrFun disk [97]
  revert stored
  decide

end Session
end CppToolkit.Utilities.Files
