import Mathlib.Algebra.Order.Ring.Int
import Mathlib.Data.List.Basic
import Mathlib.Data.List.TakeDrop
import Mathlib.Data.List.TakeWhile
import Mathlib.Logic.Function.Basic
import Mathlib.Order.Basic

/-! File streams of the standard library on the files of a disk. A stream has one position for
reading and writing; what is still in its buffer counts as written. -/
namespace CppToolkit.Fstream

/-- `std::ios_base::openmode`; `input` and `output` are `in` and `out`. -/
structure Openmode where
  input : Bool
  output : Bool
  app : Bool
  trunc : Bool
  ate : Bool
  binary : Bool
  deriving DecidableEq, Repr

namespace Openmode

def none : Openmode := ⟨false, false, false, false, false, false⟩

def in_ : Openmode := { none with input := true }

def out : Openmode := { none with output := true }

def valid (m : Openmode) : Bool :=
  (m.input || m.output || m.app) && (!m.trunc || (m.output && !m.app))

/-- The modes `r` and `r+`. -/
def mustExist (m : Openmode) : Bool := m.input && !m.app && !m.trunc

/-- The modes `w` and `w+`. -/
def truncates (m : Openmode) : Bool := m.trunc || (m.output && !m.input && !m.app)

def writable (m : Openmode) : Bool := m.output || m.app

end Openmode

/-- The contents of the files that exist. -/
abbrev Disk (π : Type) := π → Option (List UInt8)

/-- `bytes` over `content` from `position` on; a gap is filled with zeros. -/
def overwrite (content : List UInt8) (position : Nat) (bytes : List UInt8) : List UInt8 :=
  content.take position ++ List.replicate (position - content.length) 0 ++ bytes ++
    content.drop (position + bytes.length)

section
variable {π : Type}

/-- The disk once `bytes` have been written to a file. -/
def Disk.write [DecidableEq π] (d : Disk π) (path : π) (position : Nat) (bytes : List UInt8) :
    Disk π :=
  if bytes = [] then d
  else Function.update d path (some (overwrite ((d path).getD []) position bytes))

/-- `target` is the file that is open. -/
structure Stream (π : Type) where
  target : Option π
  mode : Openmode
  position : Nat
  eof : Bool
  fail : Bool
  bad : Bool
  deriving DecidableEq, Repr

namespace Stream

def closed : Stream π := ⟨none, .none, 0, false, false, false⟩

def isOpen (s : Stream π) : Bool := s.target.isSome

def good (s : Stream π) : Bool := !s.eof && !s.fail && !s.bad

/-- `fail()`. -/
def failed (s : Stream π) : Bool := s.fail || s.bad

def content (s : Stream π) (d : Disk π) : List UInt8 := (s.target.bind d).getD []

/-- What a read from the position can still get. -/
def unread (s : Stream π) (d : Disk π) : List UInt8 :=
  if s.mode.input then (s.content d).drop s.position else []

def writePosition (s : Stream π) (d : Disk π) : Nat :=
  if s.mode.app then (s.content d).length else s.position

/-- `open`, on a file that the system would let be opened or not. On a stream that is open it
fails; where it does not, the flags are cleared. -/
def openFile [DecidableEq π] (s : Stream π) (d : Disk π) (path : π) (mode : Openmode)
    (granted : Bool) : Stream π × Disk π :=
  if s.isOpen then ({ s with fail := true }, d)
  else if mode.valid && granted && (!mode.mustExist || (d path).isSome) then
    let content := if mode.truncates then [] else (d path).getD []
    (⟨some path, mode, if mode.ate then content.length else 0, false, false, false⟩,
      Function.update d path (some content))
  else ({ s with fail := true }, d)

def write [DecidableEq π] (s : Stream π) (d : Disk π) (bytes : List UInt8) : Stream π × Disk π :=
  if s.good = false ∨ bytes = [] then (s, d)
  else
    match s.target with
    | none => ({ s with bad := true }, d)
    | some path =>
        if s.mode.writable then
          ({ s with position := s.writePosition d + bytes.length },
            d.write path (s.writePosition d) bytes)
        else ({ s with bad := true }, d)

/-- The offset is a `size_t` that is converted to a signed number. -/
def seekg (s : Stream π) (offset : Nat) : Stream π :=
  if s.failed then { s with eof := false }
  else if s.isOpen ∧ offset < 2 ^ 63 then { s with eof := false, position := offset }
  else { s with eof := false, fail := true }

def read (s : Stream π) (d : Disk π) (count : Nat) : Stream π × List UInt8 :=
  if s.good then
    let got := (s.unread d).take count
    let short : Bool := got.length < count
    ({ s with position := s.position + got.length, eof := short, fail := short }, got)
  else ({ s with fail := true }, [])

/-- A `std::istreambuf_iterator` does not look at the flags. -/
def extract (s : Stream π) (d : Disk π) : Stream π × List UInt8 :=
  ({ s with position := s.position + (s.unread d).length }, s.unread d)

def newline : UInt8 := 10

/-- `getline`, with the line unless it fails. -/
def getline (s : Stream π) (d : Disk π) : Stream π × Option (List UInt8) :=
  if s.good then
    let rest := s.unread d
    let line := rest.takeWhile (· ≠ newline)
    if rest = [] then ({ s with eof := true, fail := true }, none)
    else if newline ∈ rest then ({ s with position := s.position + line.length + 1 }, some line)
    else ({ s with position := s.position + line.length, eof := true }, some line)
  else ({ s with fail := true }, none)

/-- `while (getline(stream, line))`. -/
def getlines (d : Disk π) : Nat → Stream π → Stream π × List (List UInt8)
  | 0, s => (s, [])
  | fuel + 1, s =>
      match s.getline d with
      | (s, none) => (s, [])
      | (s, some line) =>
          let (s, lines) := getlines d fuel s
          (s, line :: lines)

def close (s : Stream π) : Stream π := { s with target := none }

end Stream

end

/-- What `while (getline(stream, piece, delimiter))` reads of a text; what is behind the last
delimiter is a piece unless it is empty. -/
def pieces (delimiter : UInt8) : List UInt8 → List (List UInt8)
  | [] => []
  | b :: rest =>
      if b = delimiter then [] :: pieces delimiter rest
      else
        match pieces delimiter rest with
        | [] => [[b]]
        | piece :: more => (b :: piece) :: more

/-- The lines of a text. -/
def splitLines (text : List UInt8) : List (List UInt8) := pieces Stream.newline text

theorem overwrite_end (content bytes : List UInt8) :
    overwrite content content.length bytes = content ++ bytes := by
  simp [overwrite]

theorem le_overwrite (content : List UInt8) (position : Nat) (bytes : List UInt8) :
    position + bytes.length ≤ (overwrite content position bytes).length := by
  simp only [overwrite, List.length_append, List.length_take, List.length_replicate]
  omega

theorem pieces_delimiter (delimiter : UInt8) (rest : List UInt8) :
    pieces delimiter (delimiter :: rest) = [] :: pieces delimiter rest := if_pos rfl

theorem pieces_cons {delimiter b : UInt8} (other : b ≠ delimiter) (rest : List UInt8) :
    pieces delimiter (b :: rest) =
      match pieces delimiter rest with
      | [] => [[b]]
      | piece :: more => (b :: piece) :: more := if_neg other

/-- The first piece, and the pieces behind its delimiter. -/
theorem pieces_piece {delimiter : UInt8} {piece : List UInt8} (plain : delimiter ∉ piece)
    (rest : List UInt8) :
    pieces delimiter (piece ++ delimiter :: rest) = piece :: pieces delimiter rest := by
  induction piece with
  | nil => exact pieces_delimiter delimiter rest
  | cons b piece ih =>
      rw [List.mem_cons, not_or] at plain
      rw [List.cons_append, pieces_cons (Ne.symm plain.1), ih plain.2]

/-- A last piece without a delimiter. -/
theorem pieces_last {delimiter : UInt8} {piece : List UInt8} (plain : delimiter ∉ piece)
    (some_ : piece ≠ []) : pieces delimiter piece = [piece] := by
  induction piece with
  | nil => exact absurd rfl some_
  | cons b piece ih =>
      rw [List.mem_cons, not_or] at plain
      rw [pieces_cons (Ne.symm plain.1)]
      by_cases last : piece = []
      · rw [last]
        rfl
      · rw [ih plain.2 last]

theorem pieces_plain (delimiter : UInt8) (text : List UInt8) :
    ∀ piece ∈ pieces delimiter text, delimiter ∉ piece := by
  induction text with
  | nil =>
      intro piece member
      cases member
  | cons b rest ih =>
      by_cases same : b = delimiter
      · rw [same, pieces_delimiter]
        exact List.forall_mem_cons.mpr ⟨List.not_mem_nil, ih⟩
      · rw [pieces_cons same]
        generalize pieces delimiter rest = more at ih ⊢
        cases more with
        | nil => simpa using Ne.symm same
        | cons piece more =>
            rw [List.forall_mem_cons] at ih
            refine List.forall_mem_cons.mpr ⟨?_, ih.2⟩
            rw [List.mem_cons, not_or]
            exact ⟨Ne.symm same, ih.1⟩

/-- The pieces are made of bytes of the text. -/
theorem mem_of_mem_pieces {delimiter b : UInt8} {text piece : List UInt8}
    (member : piece ∈ pieces delimiter text) (byte : b ∈ piece) : b ∈ text := by
  induction text generalizing piece with
  | nil => cases member
  | cons c rest ih =>
      by_cases same : c = delimiter
      · rw [same, pieces_delimiter] at member
        rcases List.mem_cons.mp member with rfl | later
        · cases byte
        · exact List.mem_cons_of_mem c (ih later byte)
      · rw [pieces_cons same] at member
        generalize pieces delimiter rest = more at ih member
        cases more with
        | nil =>
            rw [List.mem_singleton.mp member, List.mem_singleton] at byte
            exact byte ▸ List.mem_cons_self
        | cons first more =>
            rcases List.mem_cons.mp member with rfl | later
            · rcases List.mem_cons.mp byte with rfl | byte
              · exact List.mem_cons_self
              · exact List.mem_cons_of_mem c (ih List.mem_cons_self byte)
            · exact List.mem_cons_of_mem c (ih (List.mem_cons_of_mem first later) byte)

theorem splitLines_newline (rest : List UInt8) :
    splitLines (Stream.newline :: rest) = [] :: splitLines rest := pieces_delimiter _ rest

theorem splitLines_cons {b : UInt8} (other : b ≠ Stream.newline) (rest : List UInt8) :
    splitLines (b :: rest) =
      match splitLines rest with
      | [] => [[b]]
      | line :: lines => (b :: line) :: lines := pieces_cons other rest

theorem splitLines_line {line : List UInt8} (plain : Stream.newline ∉ line) (rest : List UInt8) :
    splitLines (line ++ Stream.newline :: rest) = line :: splitLines rest := pieces_piece plain rest

theorem splitLines_last {line : List UInt8} (plain : Stream.newline ∉ line) (some_ : line ≠ []) :
    splitLines line = [line] := pieces_last plain some_

theorem splitLines_eq_nil_iff {text : List UInt8} : splitLines text = [] ↔ text = [] := by
  cases text with
  | nil => exact iff_of_true rfl rfl
  | cons b rest =>
      refine iff_of_false (fun same => ?_) (List.cons_ne_nil b rest)
      unfold splitLines pieces at same
      split at same
      next => cases same
      next => split at same <;> cases same

/-- Lines of which each ends with its newline. -/
theorem splitLines_flatMap {lines : List (List UInt8)}
    (plain : ∀ line ∈ lines, Stream.newline ∉ line) (rest : List UInt8) :
    splitLines (lines.flatMap (· ++ [Stream.newline]) ++ rest) = lines ++ splitLines rest := by
  induction lines with
  | nil => rfl
  | cons line lines ih =>
      rw [List.forall_mem_cons] at plain
      rw [List.flatMap_cons, List.append_assoc, List.append_assoc, List.singleton_append,
        splitLines_line plain.1, ih plain.2, List.cons_append]

theorem splitLines_plain (text : List UInt8) :
    ∀ line ∈ splitLines text, Stream.newline ∉ line := pieces_plain _ text

/-- A text that is empty or ends with a newline. -/
def Ended (text : List UInt8) : Prop := text = [] ∨ ∃ start, text = start ++ [Stream.newline]

theorem Ended.append {a b : List UInt8} (one : Ended a) (two : Ended b) : Ended (a ++ b) := by
  rcases two with rfl | ⟨start, rfl⟩
  · rw [List.append_nil]
    exact one
  · exact .inr ⟨a ++ start, (List.append_assoc a start _).symm⟩

theorem Ended.flatten {texts : List (List UInt8)} (all : ∀ text ∈ texts, Ended text) :
    Ended texts.flatten := by
  induction texts with
  | nil => exact .inl rfl
  | cons text texts ih =>
      rw [List.forall_mem_cons] at all
      exact all.1.append (ih all.2)

theorem Ended.of_cons {b : UInt8} {rest : List UInt8} (some_ : rest ≠ [])
    (ended : Ended (b :: rest)) : Ended rest := by
  obtain ⟨start, same⟩ := ended.resolve_left (List.cons_ne_nil b rest)
  cases start with
  | nil =>
      rw [List.nil_append, List.cons.injEq] at same
      exact absurd same.2 some_
  | cons c start =>
      rw [List.cons_append, List.cons.injEq] at same
      exact .inr ⟨start, same.2⟩

/-- A text that ends with a newline is its lines, each with its newline. -/
theorem splitLines_ended {text : List UInt8} (ended : Ended text) :
    (splitLines text).flatMap (· ++ [Stream.newline]) = text := by
  induction text with
  | nil => rfl
  | cons b rest ih =>
      by_cases same : b = Stream.newline
      · rw [same, splitLines_newline, List.flatMap_cons]
        by_cases last : rest = []
        · rw [last]
          rfl
        · rw [ih (ended.of_cons last)]
          rfl
      · have some_ : rest ≠ [] := by
          rintro rfl
          obtain ⟨start, last⟩ := ended.resolve_left (List.cons_ne_nil b [])
          cases start with
          | nil => exact same (List.cons.inj last).1
          | cons c start => simp at last
        have behind := ih (ended.of_cons some_)
        have lines := mt splitLines_eq_nil_iff.mp some_
        rw [splitLines_cons same]
        generalize splitLines rest = all at behind lines
        cases all with
        | nil => exact absurd rfl lines
        | cons line lines =>
            rw [← behind]
            rfl

theorem splitLines_append {a : List UInt8} (ended : Ended a) (b : List UInt8) :
    splitLines (a ++ b) = splitLines a ++ splitLines b := by
  have whole := splitLines_flatMap (splitLines_plain a) b
  rwa [splitLines_ended ended] at whole

theorem splitLines_flatten {texts : List (List UInt8)} (all : ∀ text ∈ texts, Ended text) :
    splitLines texts.flatten = texts.flatMap splitLines := by
  induction texts with
  | nil => rfl
  | cons text texts ih =>
      rw [List.forall_mem_cons] at all
      rw [List.flatten_cons, splitLines_append all.1, ih all.2, List.flatMap_cons]

theorem newline_not_mem_takeWhile (text : List UInt8) :
    Stream.newline ∉ text.takeWhile (· ≠ Stream.newline) := by
  intro member
  have other := List.mem_takeWhile_imp member
  simp at other

/-- A text with a newline is its first line, the newline and the rest. -/
theorem takeWhile_newline {text : List UInt8} (member : Stream.newline ∈ text) :
    text = text.takeWhile (· ≠ Stream.newline) ++ Stream.newline ::
      text.drop ((text.takeWhile (· ≠ Stream.newline)).length + 1) := by
  induction text with
  | nil => cases member
  | cons b text ih =>
      by_cases same : b = Stream.newline
      · subst b
        simp
      · have later := (List.mem_cons.mp member).resolve_left (Ne.symm same)
        have first : (b :: text).takeWhile (· ≠ Stream.newline) =
            b :: text.takeWhile (· ≠ Stream.newline) := List.takeWhile_cons_of_pos (by simp [same])
        rw [first, List.cons_append, List.length_cons, List.drop_succ_cons, ← ih later]

theorem takeWhile_no_newline {text : List UInt8} (absent : Stream.newline ∉ text) :
    text.takeWhile (· ≠ Stream.newline) = text := by
  refine List.takeWhile_eq_self_iff.mpr fun b member => ?_
  exact decide_eq_true fun same => absent (same ▸ member)

namespace Stream

section
variable {π : Type} {d : Disk π} {s : Stream π}

/-- An open on a stream that is open. -/
theorem openFile_open [DecidableEq π] (isOpen : s.isOpen = true) (d : Disk π) (path : π)
    (mode : Openmode) (granted : Bool) :
    s.openFile d path mode granted = ({ s with fail := true }, d) := if_pos isOpen

theorem openFile_granted [DecidableEq π] {path : π} {mode : Openmode} (closed : s.isOpen = false)
    (valid : mode.valid = true) (there : mode.mustExist = true → (d path).isSome = true) :
    s.openFile d path mode true =
      (⟨some path, mode,
          if mode.ate then (if mode.truncates then [] else (d path).getD []).length else 0,
          false, false, false⟩,
        Function.update d path (some (if mode.truncates then [] else (d path).getD []))) := by
  have granted : (mode.valid && true && (!mode.mustExist || (d path).isSome)) = true := by
    cases must : mode.mustExist with
    | true => simp [valid, there must]
    | false => simp [valid]
  rw [openFile, if_neg (by simp [closed])]
  exact if_pos granted

theorem openFile_absent [DecidableEq π] {path : π} {mode : Openmode} (closed : s.isOpen = false)
    (must : mode.mustExist = true) (absent : d path = none) (granted : Bool) :
    s.openFile d path mode granted = ({ s with fail := true }, d) := by
  rw [openFile, if_neg (by simp [closed]), if_neg (by simp [must, absent])]

theorem openFile_closed [DecidableEq π] (closed : s.isOpen = false) (d : Disk π) (path : π)
    (mode : Openmode) (granted : Bool) :
    s.openFile d path mode granted = ({ s with fail := true }, d) ∨
      ∃ content position, position ≤ content.length ∧ s.openFile d path mode granted =
        (⟨some path, mode, position, false, false, false⟩,
          Function.update d path (some content)) := by
  unfold openFile
  rw [if_neg (by simp [closed])]
  split
  next =>
    refine .inr ⟨_, _, ?_, rfl⟩
    split
    next => exact Nat.le_refl _
    next => exact Nat.zero_le _
  next => exact .inl rfl

theorem write_broken [DecidableEq π] (broken : s.good = false) (d : Disk π) (bytes : List UInt8) :
    s.write d bytes = (s, d) := if_pos (.inl broken)

theorem write_nil [DecidableEq π] (s : Stream π) (d : Disk π) : s.write d [] = (s, d) :=
  if_pos (.inr rfl)

theorem write_written [DecidableEq π] {path : π} {bytes : List UInt8} (good : s.good = true)
    (some_ : bytes ≠ []) (target : s.target = some path) (writable : s.mode.writable = true)
    (d : Disk π) : s.write d bytes =
      ({ s with position := s.writePosition d + bytes.length },
        d.write path (s.writePosition d) bytes) := by
  unfold write
  rw [if_neg (by simp [good, some_]), target]
  exact if_pos writable

theorem write_refused [DecidableEq π] {bytes : List UInt8} (good : s.good = true)
    (some_ : bytes ≠ []) (refuses : s.isOpen = false ∨ s.mode.writable = false) (d : Disk π) :
    s.write d bytes = ({ s with bad := true }, d) := by
  unfold write
  rw [if_neg (by simp [good, some_])]
  cases target : s.target with
  | none => rfl
  | some path =>
      have writable : s.mode.writable = false :=
        refuses.resolve_left (by simp [isOpen, target])
      exact if_neg (by simp [writable])

theorem write_target [DecidableEq π] (s : Stream π) (d : Disk π) (bytes : List UInt8) :
    (s.write d bytes).1.target = s.target := by
  unfold write
  split
  next => rfl
  next =>
    split
    next => rfl
    next => split <;> rfl

/-- A write sets no flag back. -/
theorem good_of_write [DecidableEq π] {bytes : List UInt8}
    (good : (s.write d bytes).1.good = true) : s.good = true := by
  unfold write at good
  split at good
  next => exact good
  next open_ => simpa using (not_or.mp open_).1

theorem content_write [DecidableEq π] {path : π} {bytes : List UInt8}
    (target : s.target = some path) (some_ : bytes ≠ []) (d : Disk π) (position : Nat) :
    s.content (d.write path position bytes) = overwrite (s.content d) position bytes := by
  unfold content Disk.write
  rw [if_neg some_, target]
  simp

/-- A write leaves the position inside the file. -/
theorem write_within [DecidableEq π] {bytes : List UInt8}
    (within : s.position ≤ (s.content d).length) :
    (s.write d bytes).1.position ≤ ((s.write d bytes).1.content (s.write d bytes).2).length := by
  by_cases some_ : bytes = []
  · rw [some_, write_nil]
    exact within
  cases good : s.good with
  | false =>
      rw [write_broken good]
      exact within
  | true =>
      by_cases refuses : s.isOpen = false ∨ s.mode.writable = false
      · rw [write_refused good some_ refuses]
        exact within
      · rw [not_or, Bool.not_eq_false, Bool.not_eq_false] at refuses
        obtain ⟨path, target⟩ := Option.isSome_iff_exists.mp refuses.1
        rw [write_written good some_ target refuses.2]
        change _ ≤ (s.content (d.write path (s.writePosition d) bytes)).length
        rw [content_write target some_]
        exact le_overwrite _ _ _

theorem le_writePosition (within : s.position ≤ (s.content d).length) :
    s.position ≤ s.writePosition d := by
  unfold writePosition
  split
  next => exact within
  next => exact Nat.le_refl _

/-- A stream that writes behind what a file holds. -/
structure AtEnd (s : Stream π) (d : Disk π) (path : π) : Prop where
  good : s.good = true
  target : s.target = some path
  writable : s.mode.writable = true
  present : (d path).isSome = true
  behind : s.writePosition d = (s.content d).length

theorem AtEnd.write [DecidableEq π] {path : π} (atEnd : AtEnd s d path) (bytes : List UInt8) :
    AtEnd (s.write d bytes).1 (s.write d bytes).2 path ∧
      ((s.write d bytes).2 path).getD [] = (d path).getD [] ++ bytes := by
  by_cases empty : bytes = []
  · rw [empty, write_nil, List.append_nil]
    exact ⟨atEnd, rfl⟩
  have content : s.content d = (d path).getD [] := by
    rw [Stream.content, atEnd.target]
    rfl
  have after : s.content (d.write path (s.writePosition d) bytes) = s.content d ++ bytes := by
    rw [content_write atEnd.target empty, atEnd.behind, overwrite_end]
  rw [write_written atEnd.good empty atEnd.target atEnd.writable]
  constructor
  · refine ⟨atEnd.good, atEnd.target, atEnd.writable, ?_, ?_⟩
    · simp [Disk.write, empty]
    change (if s.mode.app then (s.content (d.write path (s.writePosition d) bytes)).length
      else s.writePosition d + bytes.length) =
        (s.content (d.write path (s.writePosition d) bytes)).length
    rw [after, List.length_append, atEnd.behind]
    exact ite_self _
  · rw [← content, ← after, Stream.content, atEnd.target]
    rfl

theorem not_good_of_fail (fail : s.fail = true) : s.good = false := by
  unfold good
  rw [fail]
  simp

theorem not_failed_of_good (good : s.good = true) : ¬ s.failed = true := by
  unfold Stream.good at good
  unfold failed
  grind

/-- A seek of a stream that has failed leaves it where it is. -/
theorem seekg_failed (failed : s.failed = true) (offset : Nat) :
    s.seekg offset = { s with eof := false } := if_pos failed

theorem seekg_far (works : ¬ s.failed = true) {offset : Nat} (far : 2 ^ 63 ≤ offset) :
    s.seekg offset = { s with eof := false, fail := true } := by
  rw [seekg, if_neg works, if_neg (by omega)]

theorem seekg_works (works : ¬ s.failed = true) (isOpen : s.isOpen = true) {offset : Nat}
    (small : offset < 2 ^ 63) : s.seekg offset = { s with eof := false, position := offset } := by
  rw [seekg, if_neg works, if_pos ⟨isOpen, small⟩]

theorem unread_advance (d : Disk π) (s : Stream π) (k : Nat) (eof fail : Bool) :
    ({ s with position := s.position + k, eof, fail } : Stream π).unread d =
      (s.unread d).drop k := by
  unfold unread content
  dsimp only
  cases s.mode.input with
  | true => rw [if_pos rfl, if_pos rfl, List.drop_drop]
  | false => rw [if_neg Bool.false_ne_true, if_neg Bool.false_ne_true, List.drop_nil]

theorem getline_not_good (broken : s.good = false) (d : Disk π) :
    s.getline d = ({ s with fail := true }, none) := if_neg (by simp [broken])

theorem getline_end (good : s.good = true) (last : s.unread d = []) :
    s.getline d = ({ s with eof := true, fail := true }, none) := by
  rw [getline, if_pos good]
  dsimp only
  rw [if_pos last]

theorem getline_newline (good : s.good = true) (member : newline ∈ s.unread d) :
    s.getline d =
      ({ s with position :=
          s.position + ((s.unread d).takeWhile (· ≠ newline)).length + 1 },
        some ((s.unread d).takeWhile (· ≠ newline))) := by
  have some_ : s.unread d ≠ [] := List.ne_nil_of_mem member
  rw [getline, if_pos good]
  dsimp only
  rw [if_neg some_, if_pos member]

theorem getline_last (good : s.good = true) (some_ : s.unread d ≠ [])
    (absent : newline ∉ s.unread d) :
    s.getline d = ({ s with position := s.position + (s.unread d).length, eof := true },
      some (s.unread d)) := by
  rw [getline, if_pos good]
  dsimp only
  rw [if_neg some_, if_neg absent, takeWhile_no_newline absent]

theorem getlines_of_none {t : Stream π} {fuel : Nat} (line : s.getline d = (t, none)) :
    getlines d (fuel + 1) s = (t, []) := by
  rw [getlines, line]

theorem getlines_of_some {t : Stream π} {line : List UInt8} {fuel : Nat}
    (got : s.getline d = (t, some line)) :
    getlines d (fuel + 1) s = ((getlines d fuel t).1, line :: (getlines d fuel t).2) := by
  rw [getlines, got]

/-- The loop reads all lines and ends at the end of the file. The induction is on the bound of
its turns, each of which takes a byte at least. -/
theorem getlines_good {fuel : Nat} (good : s.good = true) (enough : (s.unread d).length < fuel) :
    getlines d fuel s =
      ({ s with position := s.position + (s.unread d).length, eof := true, fail := true },
        splitLines (s.unread d)) := by
  induction fuel generalizing s with
  | zero => exact absurd enough (Nat.not_lt_zero _)
  | succ fuel ih =>
      by_cases last : s.unread d = []
      · rw [getlines_of_none (getline_end good last), last]
        rfl
      by_cases member : newline ∈ s.unread d
      · have split := takeWhile_newline member
        have plain := newline_not_mem_takeWhile (s.unread d)
        rw [getlines_of_some (getline_newline good member)]
        generalize (s.unread d).takeWhile (· ≠ newline) = line at split plain ⊢
        generalize behind : (s.unread d).drop (line.length + 1) = rest at split
        have unread : ({ s with position := s.position + line.length + 1 } : Stream π).unread d =
            rest := (unread_advance d s (line.length + 1) s.eof s.fail).trans behind
        have total : (s.unread d).length = line.length + 1 + rest.length := by
          rw [split, List.length_append, List.length_cons]
          omega
        have next := @ih { s with position := s.position + line.length + 1 } good
          (by rw [unread]; omega)
        rw [next, unread, total, split, splitLines_line plain]
        simp only [Nat.add_assoc]
      · have after : ({ s with position := s.position + (s.unread d).length, eof := true } :
            Stream π).good = false := by simp [Stream.good]
        rw [getlines_of_some (getline_last good last member), splitLines_last member last]
        cases fuel with
        | zero =>
            have positive := List.length_pos_iff.mpr last
            omega
        | succ fuel => rw [getlines_of_none (getline_not_good after d)]

theorem getlines_not_good {fuel : Nat} (broken : s.good = false) (d : Disk π) :
    getlines d (fuel + 1) s = ({ s with fail := true }, []) :=
  getlines_of_none (getline_not_good broken d)

end

end Stream

end CppToolkit.Fstream
