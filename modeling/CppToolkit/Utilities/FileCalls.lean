import CppToolkit.Library.Fstream
import CppToolkit.Library.Machine
import CppToolkit.Utilities.Converter
import CppToolkit.Utilities.File

/-! The class `File`: a stream, the path it was last told, and a mode that nothing stores to. -/
namespace CppToolkit.Utilities.Files
open Fstream Machine

/-- What the system answers to an open: `thrown` is an exception of `create_directories`. -/
inductive Access where
  | granted
  | denied
  | thrown (what : String)
  deriving DecidableEq, Repr

structure File where
  stream : Stream (List UInt8)
  filePath : List UInt8
  openmode : Openmode
  deriving DecidableEq, Repr

namespace File

def initial : File := ⟨.closed, [], .none⟩

/-- The number of a mode in the messages. -/
def modeValue (m : Openmode) : Nat :=
  m.app.toNat + 2 * m.ate.toNat + 4 * m.binary.toNat + 8 * m.input.toNat + 16 * m.output.toNat +
    32 * m.trunc.toNat

def wrongOpenmode (f : File) (action : String) : String :=
  "cannot " ++ action ++ " file by wrong openmode : " ++ toString (modeValue f.openmode) ++ " -> " ++
    Converter.text f.filePath

def unopened (f : File) (action : String) : String :=
  "cannot " ++ action ++ " file by unopened condition : " ++ Converter.text f.filePath

/-- `open` from `stream_.open` on, where the system lets the file be opened or not. -/
def openStream (f : File) (d : Disk (List UInt8)) (path : List UInt8) (mode : Openmode)
    (granted : Bool) : (File × Disk (List UInt8)) × Outcome :=
  let opened := f.stream.openFile d path mode granted
  let after := ({ f with stream := opened.1 }, opened.2)
  if opened.1.isOpen then (after, .returned (.ok ()))
  else if opened.2 path = none then
    (after, .returned (.error ("there is no file : " ++ Converter.text path)))
  else (after, .returned (.error ("cannot open file : " ++ Converter.text path)))

/-- `open`. The path is stored whether the file can be opened or not; the mode is not stored. -/
def openPath (f : File) (d : Disk (List UInt8)) (path : List UInt8) (mode : Openmode)
    (access : Access) : (File × Disk (List UInt8)) × Outcome :=
  let f := { f with filePath := path }
  match access with
  | .thrown what => ((f, d), .thrown what)
  | .granted => f.openStream d path mode true
  | .denied => f.openStream d path mode false

/-- The three overloads of `write_bytes`. -/
def writeBytes (f : File) (d : Disk (List UInt8)) (bytes : List UInt8) :
    (File × Disk (List UInt8)) × Except String Unit :=
  if f.openmode.input then ((f, d), .error (f.wrongOpenmode "write"))
  else if f.stream.isOpen = false then ((f, d), .error (f.unopened "write"))
  else
    let written := f.stream.write d (Utilities.File.writeBytes bytes)
    (({ f with stream := written.1 }, written.2), .ok ())

/-- The text of `write_lines` but for the end. -/
def concatenated (lines : List (List UInt8)) (appendNewline : Bool) : List UInt8 :=
  lines.foldl (fun a b =>
    if appendNewline = false then a ++ b
    else a ++ (if a = [] then [] else [Stream.newline]) ++ b) []

/-- The two overloads of `write_lines`. -/
def writeLines (f : File) (d : Disk (List UInt8)) (lines : List (List UInt8))
    (appendNewline : Bool) : (File × Disk (List UInt8)) × Except String Unit :=
  if f.openmode.input then ((f, d), .error (f.wrongOpenmode "write"))
  else if f.stream.isOpen = false then ((f, d), .error (f.unopened "write"))
  else
    let written := f.stream.write d (concatenated lines appendNewline)
    let ended := written.1.write written.2 (if appendNewline then [Stream.newline] else [])
    (({ f with stream := ended.1 }, ended.2), .ok ())

/-- `read_bytes()`. -/
def readBytes (f : File) (d : Disk (List UInt8)) : File × Except String (List UInt8) :=
  if f.openmode.output then (f, .error (f.wrongOpenmode "read"))
  else if f.stream.isOpen = false then (f, .error (f.unopened "read"))
  else
    let extracted := (f.stream.seekg 0).extract d
    ({ f with stream := extracted.1 }, .ok extracted.2)

/-- `read_bytes(index, size)`; the exception is that of a vector of this size. -/
def readBytesAt (f : File) (d : Disk (List UInt8)) (index size : UInt64) :
    File × Except String (Except String (List UInt8)) :=
  if f.openmode.output then (f, .ok (.error (f.wrongOpenmode "read")))
  else if f.stream.isOpen = false then (f, .ok (.error (f.unopened "read")))
  else
    let stream := f.stream.seekg index.toNat
    if stream.failed then
      ({ f with stream }, .ok (.error ("failed to seek position: " ++ toString index.toNat ++
        " in file: " ++ Converter.text f.filePath)))
    else if size.toNat < 2 ^ 63 then
      let buffer := stream.read d size.toNat
      ({ f with stream := buffer.1 }, .ok (.ok buffer.2))
    else ({ f with stream }, .error "std::length_error")

def readLines (f : File) (d : Disk (List UInt8)) (includeNewLine : Bool) :
    File × Except String (List (List UInt8)) :=
  if f.openmode.output then (f, .error (f.wrongOpenmode "read"))
  else if f.stream.isOpen = false then (f, .error (f.unopened "read"))
  else
    let stream := f.stream.seekg 0
    -- every turn of the loop takes a byte at least
    let fileLines := Stream.getlines d ((stream.content d).length + 1) stream
    ({ f with stream := fileLines.1 },
      .ok (fileLines.2.map fun line => if includeNewLine then line ++ [Stream.newline] else line))

def close (f : File) : File :=
  if f.stream.isOpen = false then f else { f with stream := f.stream.close, filePath := [] }

section
variable {f : File} {d : Disk (List UInt8)}

/-- What an `open` comes to: it throws, it fails on a stream that is open and yet returns true, it
is refused, or it opens the file. -/
inductive Opened (f : File) (d : Disk (List UInt8)) (path : List UInt8) (mode : Openmode) :
    (File × Disk (List UInt8)) × Outcome → Prop
  | thrown (what : String) : Opened f d path mode ((f, d), .thrown what)
  | again (isOpen : f.stream.isOpen = true) :
      Opened f d path mode
        (({ f with stream := { f.stream with fail := true } }, d), .returned (.ok ()))
  | refused (closed : f.stream.isOpen = false) (message : String) :
      Opened f d path mode
        (({ f with stream := { f.stream with fail := true } }, d), .returned (.error message))
  | opened (closed : f.stream.isOpen = false) (content : List UInt8) (position : Nat)
      (within : position ≤ content.length) :
      Opened f d path mode
        (({ f with stream := ⟨some path, mode, position, false, false, false⟩ },
          Function.update d path (some content)), .returned (.ok ()))

theorem openStream_opened (f : File) (d : Disk (List UInt8)) (path : List UInt8) (mode : Openmode)
    (granted : Bool) : Opened f d path mode (f.openStream d path mode granted) := by
  have kept : ({ f.stream with fail := true } : Stream (List UInt8)).isOpen = f.stream.isOpen := rfl
  unfold openStream
  cases isOpen : f.stream.isOpen with
  | true =>
      rw [Stream.openFile_open isOpen]
      dsimp only
      rw [kept, isOpen, if_pos rfl]
      exact .again isOpen
  | false =>
      rcases Stream.openFile_closed isOpen d path mode granted with
        refused | ⟨content, position, within, opened⟩
      · rw [refused]
        dsimp only
        rw [kept, isOpen, if_neg Bool.false_ne_true]
        split
        next => exact .refused isOpen _
        next => exact .refused isOpen _
      · rw [opened]
        exact .opened isOpen content position within

theorem openPath_opened (f : File) (d : Disk (List UInt8)) (path : List UInt8) (mode : Openmode)
    (access : Access) :
    Opened { f with filePath := path } d path mode (f.openPath d path mode access) := by
  cases access with
  | thrown what => exact .thrown what
  | granted => exact openStream_opened _ d path mode true
  | denied => exact openStream_opened _ d path mode false

/-- With the mode that is never stored, only the stream decides. -/
theorem mayWrite (openmode : f.openmode = .none) : ¬ f.openmode.input = true := by
  rw [openmode]
  exact Bool.false_ne_true

theorem writeBytes_open (openmode : f.openmode = .none) (isOpen : f.stream.isOpen = true)
    (bytes : List UInt8) : f.writeBytes d bytes =
      (({ f with stream := (f.stream.write d (Utilities.File.writeBytes bytes)).1 },
        (f.stream.write d (Utilities.File.writeBytes bytes)).2), .ok ()) := by
  unfold writeBytes
  rw [if_neg (mayWrite openmode), if_neg (by simp [isOpen])]

theorem writeBytes_closed (openmode : f.openmode = .none) (closed : f.stream.isOpen = false)
    (bytes : List UInt8) : f.writeBytes d bytes = ((f, d), .error (f.unopened "write")) := by
  unfold writeBytes
  rw [if_neg (mayWrite openmode), if_pos closed]

end

end File
end CppToolkit.Utilities.Files
