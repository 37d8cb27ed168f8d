import CppToolkit.Network.FileTransfer
import CppToolkit.Network.PipelineRoundTrip

/-! The packets of a file transfer: what `send_files` and its jobs write, `received_file`
reads, and each of them reaches the receiver unchanged. -/
namespace CppToolkit.Network
open Words Memory Utilities Combiner Bag

theorem startData_eq (guid : Guid) (fileCount : Nat) :
    startData guid fileCount =
      fields [guid, [FileModes.start.code], leWord sizeBytes fileCount] := by
  simp only [startData, append_eq, fields_cons, Converter.toArray, List.nil_append, List.append_assoc]
  rw [fields, List.flatMap_nil, List.append_nil]

theorem fileData_eq (guid : Guid) (index : Nat) (file : FileInformation) :
    fileData guid index file = fields [guid, leWord sizeBytes index, file.1, file.2] := by
  simp only [fileData, append_eq, fields_cons, Converter.toArray, List.nil_append, List.append_assoc]
  rw [fields, List.flatMap_nil, List.append_nil]

theorem failureData_eq (guid fileIndex fileMessage : List UInt8) :
    failureData guid fileIndex fileMessage =
      fields [guid, [FileModes.failure.code], fileIndex, fileMessage] := by
  simp only [failureData, append_eq, fields_cons, List.nil_append, List.append_assoc]
  rw [fields, List.flatMap_nil, List.append_nil]

theorem successData_eq (guid fileIndex fileMessage sourceData : List UInt8) :
    successData guid fileIndex fileMessage sourceData =
      fields [guid, [FileModes.success.code], fileIndex, fileMessage, sourceData] := by
  simp only [successData, append_eq, fields_cons, List.nil_append, List.append_assoc]
  rw [fields, List.flatMap_nil, List.append_nil]

theorem fields_ne_nil (v : List UInt8) (vs : List (List UInt8)) : fields (v :: vs) ≠ [] := by
  rw [fields_cons]
  exact List.append_ne_nil_of_left_ne_nil (field_ne_nil v) _

theorem copyToSize_word {n : Nat} (fits : n < 2 ^ 64) :
    FilePacket.copyToSize (leWord sizeBytes n) = .ok n := by
  have length : (leWord sizeBytes n).length = sizeBytes := leWord_length _ _
  rw [FilePacket.copyToSize, copyInto_ok (Nat.le_of_eq length) (by omega), ok_bind, List.drop_zero,
    List.take_length, leValue_leWord fits]

theorem read_startData {guid : Guid} {fileCount : Nat} (fits : fileCount < 2 ^ 64)
    (small : (startData guid fileCount).length < 2 ^ 63) :
    FilePacket.read (startData guid fileCount) =
      .ok (.start (Converter.toString guid) fileCount) := by
  rw [startData_eq] at small ⊢
  have small := lt_sizeMax small
  have first := divide_fields [] guid _ small
  have second := divide_fields [guid] [FileModes.start.code] _ small
  have third := divide_fields [guid, [FileModes.start.code]] (leWord sizeBytes fileCount) [] small
  have zero : (fields []).length = 0 := rfl
  rw [zero] at first
  simp only [List.nil_append, List.cons_append] at first second third
  simp only [FilePacket.read, first, second, third, ok_bind, copyToSize_word fits,
    FilePacket.firstByte, if_pos]

theorem read_failureData {guid fileMessage : List UInt8} {index : Nat} (fits : index < 2 ^ 64)
    (small : (failureData guid (leWord sizeBytes index) fileMessage).length < 2 ^ 63) :
    FilePacket.read (failureData guid (leWord sizeBytes index) fileMessage) =
      .ok (.failure (Converter.toString guid) index (Converter.toString fileMessage)) := by
  rw [failureData_eq] at small ⊢
  have small := lt_sizeMax small
  have first := divide_fields [] guid _ small
  have second := divide_fields [guid] [FileModes.failure.code] _ small
  have third := divide_fields [guid, [FileModes.failure.code]] (leWord sizeBytes index) _ small
  have fourth := divide_fields [guid, [FileModes.failure.code], leWord sizeBytes index] fileMessage []
    small
  have zero : (fields []).length = 0 := rfl
  have other : FileModes.failure.code ≠ FileModes.start.code := by decide
  rw [zero] at first
  simp only [List.nil_append, List.cons_append] at first second third fourth
  simp only [FilePacket.read, first, second, third, ok_bind, copyToSize_word fits,
    FilePacket.firstByte, if_neg other, FilePacket.readMessage, fourth, if_pos]

theorem read_successData {guid fileMessage sourceData : List UInt8} {index : Nat}
    (fits : index < 2 ^ 64)
    (small : (successData guid (leWord sizeBytes index) fileMessage sourceData).length < 2 ^ 63) :
    FilePacket.read (successData guid (leWord sizeBytes index) fileMessage sourceData) =
      .ok (.success (Converter.toString guid) index (Converter.toString fileMessage) sourceData) := by
  rw [successData_eq] at small ⊢
  have small := lt_sizeMax small
  have first := divide_fields [] guid _ small
  have second := divide_fields [guid] [FileModes.success.code] _ small
  have third := divide_fields [guid, [FileModes.success.code]] (leWord sizeBytes index) _ small
  have fourth := divide_fields [guid, [FileModes.success.code], leWord sizeBytes index] fileMessage _
    small
  have fifth := divide_fields
    [guid, [FileModes.success.code], leWord sizeBytes index, fileMessage] sourceData [] small
  have zero : (fields []).length = 0 := rfl
  have start : FileModes.success.code ≠ FileModes.start.code := by decide
  have failure : FileModes.success.code ≠ FileModes.failure.code := by decide
  rw [zero] at first
  simp only [List.nil_append, List.cons_append] at first second third fourth fifth
  simp only [FilePacket.read, first, second, third, ok_bind, copyToSize_word fits,
    FilePacket.firstByte, if_neg start, FilePacket.readMessage, fourth, if_neg failure, fifth]

/-- The packet that a `FileSendingJob` sends for a file, unless `File::open` throws. -/
def reportData (disk : List UInt8 → Opened) (guid : Guid) (index : Nat) (file : FileInformation) :
    Option (List UInt8) :=
  match disk (Converter.toString file.1) with
  | .thrown _ => none
  | .failed => some (failureData guid (leWord sizeBytes index) file.2)
  | .read sourceData => some (successData guid (leWord sizeBytes index) file.2 sourceData)

theorem reportData_ne_nil {disk : List UInt8 → Opened} {guid : Guid} {index : Nat}
    {file : FileInformation} {data : List UInt8}
    (reports : reportData disk guid index file = some data) : data ≠ [] := by
  unfold reportData at reports
  split at reports
  next => cases reports
  next =>
    cases reports
    rw [failureData_eq]
    exact fields_ne_nil _ _
  next =>
    cases reports
    rw [successData_eq]
    exact fields_ne_nil _ _

theorem fileSendingWork_fileData (h : DataHandler) {disk : List UInt8 → Opened} {guid : Guid}
    {index : Nat} {file : FileInformation} (small : (fileData guid index file).length < 2 ^ 63)
    {data : List UInt8} (reports : reportData disk guid index file = some data) :
    h.fileSendingWork disk (fileData guid index file) = .ok (.ofPush (h.send .file data)) := by
  rw [fileData_eq] at small ⊢
  have small := lt_sizeMax small
  have first := divide_fields [] guid _ small
  have second := divide_fields [guid] (leWord sizeBytes index) _ small
  have third := divide_fields [guid, leWord sizeBytes index] file.1 _ small
  have fourth := divide_fields [guid, leWord sizeBytes index, file.1] file.2 [] small
  have zero : (fields []).length = 0 := rfl
  rw [zero] at first
  simp only [List.nil_append, List.cons_append] at first second third fourth
  simp only [DataHandler.fileSendingWork, if_neg (fields_ne_nil _ _), first, second, third, fourth,
    ok_bind]
  unfold reportData at reports
  cases opened : disk (Converter.toString file.1) with
  | thrown what =>
      rw [opened] at reports
      cases reports
  | failed =>
      rw [opened] at reports
      cases reports
      rfl
  | read sourceData =>
      rw [opened] at reports
      cases reports
      rfl

theorem fileData_inj {guid : Guid} {i j : Nat} {file other : FileInformation}
    (same : fileData guid i file = fileData guid j other)
    (small : (fileData guid i file).length < 2 ^ 63) :
    leWord sizeBytes i = leWord sizeBytes j ∧ file = other := by
  simp only [fileData_eq, fields_cons] at same small
  obtain ⟨_, same⟩ := field_append_inj same (lt_sizeMax small)
  rw [List.length_append] at small
  obtain ⟨index, same⟩ := field_append_inj same (lt_sizeMax (by omega))
  rw [List.length_append] at small
  obtain ⟨path, same⟩ := field_append_inj same (lt_sizeMax (by omega))
  rw [List.length_append] at small
  obtain ⟨message, _⟩ := field_append_inj same (lt_sizeMax (by omega))
  exact ⟨index, Prod.ext path message⟩

/-- What a report packet makes `received_file` read. -/
theorem read_reportData {disk : List UInt8 → Opened} {guid : Guid} {index : Nat}
    {file : FileInformation} {data : List UInt8} (fits : index < 2 ^ 64)
    (reports : reportData disk guid index file = some data) (small : data.length < 2 ^ 63) :
    FilePacket.read data =
        .ok (.failure (Converter.toString guid) index (Converter.toString file.2)) ∨
      ∃ sourceData, FilePacket.read data =
        .ok (.success (Converter.toString guid) index (Converter.toString file.2) sourceData) := by
  unfold reportData at reports
  split at reports
  next => cases reports
  next =>
    cases reports
    exact .inl (read_failureData fits small)
  next sourceData _ =>
    cases reports
    exact .inr ⟨sourceData, read_successData fits small⟩

end CppToolkit.Network
