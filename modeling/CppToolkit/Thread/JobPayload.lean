import CppToolkit.Thread.Backups

/-! The payload of a job on its way from the constructor to the callback, with or without a file
in between. -/
namespace CppToolkit.Thread
open Memory Words

/-- The constructors that take data for a callback, each with what it is given. -/
inductive Payload where
  | condition (value : Bool)
  | number (value : Int32)
  | bytes (value : List UInt8)
  deriving DecidableEq

/-- Which of the callbacks is set. -/
inductive CallbackForm where
  | callback2
  | callback3
  | callback4
  deriving DecidableEq, Repr

namespace Payload

def form : Payload → CallbackForm
  | .condition _ => .callback2
  | .number _ => .callback3
  | .bytes _ => .callback4

/-- `data_[index] = value`. -/
def storeAt (data : List UInt8) (index : Nat) (value : UInt8) : Checked (List UInt8) :=
  if index < data.length then .ok (data.set index value) else .error .writeOverrun

/-- `(condition >> (i * 8)) & 0xFF` -/
def byteOf (value : Int32) (i : Nat) : UInt8 :=
  ((value >>> Int32.ofNat (i * 8)) &&& 0xFF).toUInt32.toUInt8

/-- What the constructor makes of `data_`. `reserve` leaves its size at zero. -/
def construct : Payload → Checked (List UInt8)
  | .condition value => .ok [if value then 1 else 0]
  | .number value => (List.range 4).foldlM (fun data i => storeAt data i (byteOf value i)) []
  | .bytes value => .ok value

/-- The branch of `work` for the callback: what it is called with. -/
def decode (data : List UInt8) : CallbackForm → Checked Payload
  | .callback2 => do
      let read ← readRange data 0 1
      .ok (.condition (read = [1]))
  | .callback3 => do
      let read ← readRange data 0 4
      .ok (.number (UInt32.ofNat (leValue read)).toInt32)
  | .callback4 => .ok (.bytes data)

end Payload

namespace Backups

def constructed (s : Backups) (job : Job) (payload : Payload) : Checked Backups :=
  payload.construct.map fun data => s.setJob job ⟨data, none⟩

/-- A save to a folder under some name, or none. -/
def saved (s : Backups) (job : Job) : Option (List UInt8 × List UInt8) → Backups
  | none => s
  | some (folder, guid) => s.save job folder guid true

/-- What `work` calls the callback with. The file is read as a whole. -/
def calls (s : Backups) (job : Job) (form : CallbackForm) : Checked (List Payload) :=
  match s.load job true .complete with
  | .error _ => .ok []
  | .ok data => (Payload.decode data form).map fun payload => [payload]

/-- The callback is called once with the payload, and no access is out of range. -/
def Delivers (s : Backups) (job : Job) (payload : Payload)
    (save : Option (List UInt8 × List UInt8)) : Prop :=
  (s.constructed job payload >>= fun s => (s.saved job save).calls job payload.form) =
    .ok [payload]

section
variable {s : Backups} {job : Job} {data : List UInt8}

theorem jobs_setJob (own : JobData) : (s.setJob job own).jobs job = own := Function.update_self ..

theorem load_kept : (s.setJob job ⟨data, none⟩).load job true .complete = .ok data := by
  unfold load
  rw [jobs_setJob]

theorem load_stored {path : BackupPath} {file : BackupFile} (stored : s.disk path = some file) :
    (s.setJob job ⟨data, some path⟩).load job true .complete = .ok file.content := by
  have there : (s.setJob job ⟨data, some path⟩).disk path = some file := stored
  unfold load
  rw [jobs_setJob]
  dsimp only
  rw [there]
  rfl

/-- What `work` finds in `data_`. -/
def transported (job : Job) (data : List UInt8) (save : Option (List UInt8 × List UInt8)) :
    List UInt8 :=
  if save.isSome ∧ priorityExtension job.priority ≠ none then Utilities.File.writeBytes data
  else data

/-- What comes back from a file is what `write_bytes` has written. -/
theorem load_save (folder guid : List UInt8) :
    ((s.setJob job ⟨data, none⟩).save job folder guid true).load job true .complete =
      .ok (transported job data (some (folder, guid))) := by
  unfold save
  rw [jobs_setJob]
  dsimp only
  split
  next empty =>
    rw [load_kept, empty, transported]
    split <;> rfl
  next =>
  split
  next noName =>
    rw [load_kept, transported, if_neg fun given => given.2 noName]
  next extension named =>
    have both : (some (folder, guid)).isSome ∧ priorityExtension job.priority ≠ none :=
      ⟨rfl, by rw [named]; exact nofun⟩
    rw [if_pos rfl, load_stored (Function.update_self ..), transported, if_pos both]

theorem calls_saved {form : CallbackForm} (save : Option (List UInt8 × List UInt8)) :
    ((s.setJob job ⟨data, none⟩).saved job save).calls job form =
      (Payload.decode (transported job data save) form).map fun payload => [payload] := by
  cases save with
  | none =>
      rw [saved, calls, load_kept]
      rfl
  | some names =>
      rw [saved, calls, load_save]

/-- The `int32_t` form writes its first byte behind the end of `data_`. -/
theorem construct_number (value : Int32) :
    (Payload.number value).construct = .error .writeOverrun := rfl

theorem writeBytes_singleton (b : UInt8) : Utilities.File.writeBytes [b] = [b] :=
  Utilities.File.writeBytes_eq_iff.mpr (show 1 < 2 ^ 32 by decide)

theorem transported_singleton (b : UInt8) (save : Option (List UInt8 × List UInt8)) :
    transported job [b] save = [b] := by
  rw [transported, writeBytes_singleton, ite_self]

theorem decode_condition (value : Bool) :
    Payload.decode [if value then 1 else 0] .callback2 = .ok (.condition value) := by
  cases value <;> rfl

theorem transported_eq_iff (save : Option (List UInt8 × List UInt8)) :
    transported job data save = data ↔
      (save.isSome → priorityExtension job.priority ≠ none → data.length < 2 ^ 32) := by
  unfold transported
  split
  next both =>
    rw [Utilities.File.writeBytes_eq_iff]
    exact ⟨fun short _ _ => short, fun short => short both.1 both.2⟩
  next never => exact iff_of_true rfl fun given named => absurd ⟨given, named⟩ never

/-- What the payload must be like for the detour that it takes. -/
def Carried (job : Job) (save : Option (List UInt8 × List UInt8)) : Payload → Prop
  | .condition _ => True
  | .number _ => False
  | .bytes value =>
      save.isSome → priorityExtension job.priority ≠ none → value.length < 2 ^ 32

/-- A job hands its payload to its callback exactly if it has no `int32_t` payload and a byte
vector that goes through a file is shorter than `2 ^ 32`. -/
theorem delivers_iff (s : Backups) (job : Job) (payload : Payload)
    (save : Option (List UInt8 × List UInt8)) :
    s.Delivers job payload save ↔ Carried job save payload := by
  unfold Delivers constructed
  cases payload with
  | condition value =>
      refine iff_of_true ?_ trivial
      change ((s.setJob job ⟨_, none⟩).saved job save).calls job _ = _
      rw [calls_saved, transported_singleton, Payload.form, decode_condition]
      rfl
  | number value =>
      rw [construct_number]
      exact iff_of_false nofun not_false
  | bytes value =>
      change ((s.setJob job ⟨value, none⟩).saved job save).calls job _ = _ ↔ _
      rw [calls_saved, Carried, ← transported_eq_iff save]
      change Except.ok [Payload.bytes (transported job value save)] = _ ↔ _
      simp

end

/-- A job with the number 7 writes out of range before there is anything to work. -/
theorem number_overruns :
    (initial (fun _ => []) (fun _ => none)).constructed ⟨0, .normal⟩ (.number 7) =
        .error .writeOverrun ∧
      ¬(initial (fun _ => []) (fun _ => none)).Delivers ⟨0, .normal⟩ (.number 7) none :=
  ⟨rfl, nofun⟩

end Backups

end CppToolkit.Thread
