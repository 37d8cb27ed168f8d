import CppToolkit.Utilities.Logger
import CppToolkit.Utilities.TextConversions

/-! Log entries with the four kinds of text, and what `convert_log` makes of them for the console,
the file and the database. -/
namespace CppToolkit.Utilities.LogQueue
open Codes Unicode

/-- The text that an overload of `write` is given. -/
inductive Message where
  | string (value : List UInt8)
  | wstring (value : List UInt32)
  | u16string (value : List UInt16)
  | u32string (value : List UInt32)
  deriving DecidableEq, Repr

/-- Times as `fmt` writes them, and objects of strings as `boost::json` does. -/
structure Formats (τ : Type) where
  datetime : τ → List UInt8
  milliseconds : τ → τ → List UInt8
  serialize : List (List UInt8 × List UInt8) → List UInt8

/-- `Log` and its subclasses. -/
structure Entry (τ : Type) where
  logType : LogTypes
  logMessage : Message
  timePoint : τ
  startTimeFlag : Option τ
  endTimeFlag : τ

def literal (text : String) : List UInt8 := utf8.encodeAll text.toList

def messageTypes : LogTypes → Option (List UInt8)
  | .none => none
  | .exception => some (literal "EXCEPTION")
  | .error => some (literal "ERROR")
  | .information => some (literal "INFORMATION")
  | .debug => some (literal "DEBUG")
  | .sequence => some (literal "SEQUENCE")
  | .parameter => some (literal "PARAMETER")
  | .packet => some (literal "PACKET")

/-- The message in UTF-8. -/
def Message.toString : Message → Option (List UInt8)
  | .string value => some value
  | .wstring value => Converter.toStringWide value
  | .u16string value => Converter.toString16 value
  | .u32string value => Converter.toString32 value

/-- The comparison of the enumerators. -/
def atMost (type mode : LogTypes) : Bool := type.value ≤ mode.value

section
variable {τ : Type} (f : Formats τ)

namespace Entry

def timeStamp (e : Entry τ) (start : τ) : List UInt8 :=
  literal "[" ++ f.milliseconds start e.endTimeFlag ++ literal " ms]"

def createJson (e : Entry τ) (message : List UInt8) : List UInt8 :=
  let timeStamp := match e.startTimeFlag with
    | none => []
    | some start => [(literal "time_stamp", e.timeStamp f start)]
  let messageType := match messageTypes e.logType with
    | none => []
    | some name => [(literal "message_type", name)]
  f.serialize (timeStamp ++ (literal "datetime", f.datetime e.timePoint) :: messageType ++
    [(literal "message", message)])

def createMessage (e : Entry τ) (message : List UInt8) : List UInt8 :=
  let datetime := literal "[" ++ f.datetime e.timePoint ++ literal "]"
  let result := match messageTypes e.logType with
    | none => datetime ++ message
    | some name => datetime ++ literal "[" ++ name ++ literal "] " ++ message
  match e.startTimeFlag with
  | none => result
  | some start => result ++ literal " " ++ e.timeStamp f start

def toJson (e : Entry τ) : Option (List UInt8) := e.logMessage.toString.map (e.createJson f)

def toString (e : Entry τ) : Option (List UInt8) :=
  e.logMessage.toString.map fun message => e.createMessage f message ++ literal "\n"

end Entry

structure Converted where
  consoleMessages : List (List UInt8)
  fileMessages : List (List UInt8)
  databaseMessages : List (List UInt8)
  deriving DecidableEq, Repr

variable (consoleMode fileMode : LogTypes)

/-- One turn of the loop of `convert_log`. -/
def convert (result : Converted) (message : Entry τ) : Option Converted := do
  let tempJson ← message.toJson f
  let tempString ← message.toString f
  let database := result.databaseMessages ++ [tempJson]
  let console :=
    if atMost message.logType consoleMode then result.consoleMessages ++ [tempString]
    else result.consoleMessages
  let file :=
    if atMost message.logType fileMode then result.fileMessages ++ [tempString]
    else result.fileMessages
  some ⟨console, file, database⟩

def convertLog (messages : List (Entry τ)) : Option Converted :=
  messages.foldlM (convert f consoleMode fileMode) ⟨[], [], []⟩

/-- A message as it is read: what the conversion stops at is left out. -/
def Message.content : Message → List UInt8
  | .string value => value
  | .wstring value => utf8.encodeAll
      ((utf16.decodeAll (Converter.convertFromWide value)).takeWhile (· ≠ Char.ofNat 0))
  | .u16string value => utf8.encodeAll ((utf16.decodeAll value).takeWhile (· ≠ Char.ofNat 0))
  | .u32string value => utf8.encodeAll ((utf32.decodeAll value).takeWhile (· ≠ Char.ofNat 0))

/-- Every message can be converted. -/
theorem Message.toString_eq (message : Message) : message.toString = some message.content := by
  cases message with
  | string value => rfl
  | wstring value => exact Converter.toString16_eq _
  | u16string value => exact Converter.toString16_eq value
  | u32string value => exact Converter.toString32_eq value

/-- The line of an entry. -/
def Entry.line (e : Entry τ) : List UInt8 :=
  e.createMessage f e.logMessage.content ++ literal "\n"

/-- The object of an entry. -/
def Entry.json (e : Entry τ) : List UInt8 := e.createJson f e.logMessage.content

/-- Every message for the database, and for the console and the file those of a type up to the
mode, all in order. -/
def separated (messages : List (Entry τ)) : Converted where
  consoleMessages := (messages.filter (atMost ·.logType consoleMode)).map (·.line f)
  fileMessages := (messages.filter (atMost ·.logType fileMode)).map (·.line f)
  databaseMessages := messages.map (·.json f)

theorem convert_eq (result : Converted) (message : Entry τ) :
    convert f consoleMode fileMode result message =
      some ⟨result.consoleMessages ++ (separated f consoleMode fileMode [message]).consoleMessages,
        result.fileMessages ++ (separated f consoleMode fileMode [message]).fileMessages,
        result.databaseMessages ++
          (separated f consoleMode fileMode [message]).databaseMessages⟩ := by
  unfold convert Entry.toJson Entry.toString
  rw [message.logMessage.toString_eq]
  simp only [Option.map_some, Option.bind_eq_bind, Option.bind_some, separated]
  cases console : atMost message.logType consoleMode <;>
    cases file : atMost message.logType fileMode <;> simp [console, file, Entry.line, Entry.json]

theorem foldlM_convert (result : Converted) (messages : List (Entry τ)) :
    messages.foldlM (convert f consoleMode fileMode) result =
      some ⟨result.consoleMessages ++ (separated f consoleMode fileMode messages).consoleMessages,
        result.fileMessages ++ (separated f consoleMode fileMode messages).fileMessages,
        result.databaseMessages ++
          (separated f consoleMode fileMode messages).databaseMessages⟩ := by
  induction messages generalizing result with
  | nil => simp [separated]
  | cons message messages ih =>
      rw [List.foldlM_cons, convert_eq, Option.bind_eq_bind, Option.bind_some, ih]
      simp only [separated, List.append_assoc, ← List.map_append, ← List.filter_append,
        List.singleton_append]

theorem convertLog_eq (messages : List (Entry τ)) :
    convertLog f consoleMode fileMode messages = some (separated f consoleMode fileMode messages) :=
  foldlM_convert f consoleMode fileMode ⟨[], [], []⟩ messages

end

end CppToolkit.Utilities.LogQueue
