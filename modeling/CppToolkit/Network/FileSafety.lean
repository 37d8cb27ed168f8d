import CppToolkit.Network.NetworkSession
import CppToolkit.Network.NetworkClient

/-! Which file payloads `received_file` processes without leaving its buffers. -/
namespace CppToolkit.Network
open Memory Utilities

/-- The payload is empty, which is rejected, or the fields that are read lie inside it. -/
def FilePacket.Contained (data : List UInt8) : Prop := data = [] ∨ ∃ code, Bounded data code

theorem FileManager.report_fault {m : FileManager} {guid : Guid} {outcome : FileOutcome}
    {fault : Fault} (failed : m.report guid outcome = .error fault) : fault = .nullPointer := by
  unfold FileManager.report at failed
  split at failed
  next => cases failed
  next recorded _ =>
    rcases error_of_bind failed with failed | ⟨pushed, failed⟩
    · unfold FileManager.checkCondition at failed
      split at failed
      next => cases failed
      next =>
        split at failed
        next => cases failed
        next =>
          split at failed <;> cases failed
          rfl
    · cases failed

namespace Peer

theorem managed_inRange {p : Peer} {result : Checked (FileManager × Except String (Option Job))}
    (pointer : ∀ fault, result = .error fault → fault = .nullPointer) :
    InRange (p.managed result) := by
  intro fault failed
  rcases error_of_bind failed with failed | ⟨⟨fileManager, reply⟩, failed⟩
  · rw [pointer fault failed]
    rfl
  · dsimp only at failed
    split at failed <;> cases failed

theorem saveFile_inRange (w : World) (caller : Caller) (p : Peer)
    (guid message fileData : List UInt8) : InRange (p.saveFile w caller guid message fileData) := by
  have stored : ∀ p : Peer, ∀ path, InRange (p.managed (p.fileManager.success guid message path)) :=
    fun p path => managed_inRange fun _ failed => FileManager.report_fault failed
  unfold saveFile
  dsimp only
  split
  next => exact inRange_ok _
  next => exact managed_inRange fun _ failed => FileManager.report_fault failed
  next path _ =>
    split
    next => exact stored _ _
    next =>
      split
      next => exact inRange_ok _
      next => exact inRange_map_iff.mpr (stored _ _)

theorem handleFilePacket_inRange (w : World) (caller : Caller) (p : Peer) (packet : FilePacket) :
    InRange (p.handleFilePacket w caller packet) := by
  cases packet with
  | start => exact inRange_ok _
  | failure => exact managed_inRange fun _ failed => FileManager.report_fault failed
  | success => exact saveFile_inRange w caller p _ _ _

theorem handleFile_inRange_iff (w : World) (caller : Caller) (p : Peer) {data : List UInt8}
    (small : data.length < 2 ^ 63) :
    InRange (p.handleFile w caller data) ↔ FilePacket.Contained data := by
  unfold handleFile
  by_cases empty : data = []
  · rw [if_pos empty]
    constructor
    · intro _
      exact .inl empty
    · intro _
      exact inRange_ok _
  · rw [if_neg empty, inRange_bind_iff (fun _ failed => FilePacket.read_fault failed)
      (handleFilePacket_inRange w caller p), FilePacket.read_safe_iff small]
    exact ⟨.inr, fun contained => contained.resolve_left empty⟩

end Peer

theorem confirmedOnly_inRange_iff {P : Type} {peer : P → Peer} {withPeer : P → Peer → P}
    {expire : P → Handling P Effect} {message : String}
    {body : Peer → Checked (Handling Peer Effect)} {s : P} :
    InRange (confirmedOnly peer withPeer expire message body s) ↔
      (peer s).condition ≠ .confirmed ∨ InRange (body (peer s)) := by
  unfold confirmedOnly
  by_cases confirmed : (peer s).condition = .confirmed
  · rw [if_neg (not_not_intro confirmed), inRange_map_iff]
    exact ⟨.inr, fun inside => inside.resolve_left (not_not_intro confirmed)⟩
  · rw [if_pos confirmed]
    constructor
    · intro _
      exact .inl confirmed
    · intro _
      exact inRange_ok _

/-- On both peers a file payload is processed inside its buffers exactly if the peer is
not confirmed, the payload is empty, or its fields lie inside it. -/
theorem receivedFile_inRange_iff (w : World) (session : NetworkSession) (client : NetworkClient)
    (payload : ByteVector) :
    (InRange (session.receivedFile w payload.val) ↔
      session.condition ≠ .confirmed ∨ FilePacket.Contained payload.val) ∧
    (InRange (client.receivedFile w payload.val) ↔
      client.condition ≠ .confirmed ∨ FilePacket.Contained payload.val) := by
  constructor
  · rw [NetworkSession.receivedFile, NetworkSession.expireFirst, confirmedOnly_inRange_iff,
      Peer.handleFile_inRange_iff w _ _ payload.property]
  · rw [NetworkClient.receivedFile, NetworkClient.expireFirst, confirmedOnly_inRange_iff,
      Peer.handleFile_inRange_iff w _ _ payload.property]

/-- A payload of one byte has no fields, and `file_mode[0]` is read all the same. -/
theorem receivedFile_overreads :
    ¬ ∀ (w : World) (session : NetworkSession) (client : NetworkClient) (payload : ByteVector),
      session.condition = .confirmed → client.condition = .confirmed →
      InRange (session.receivedFile w payload.val) ∧
        InRange (client.receivedFile w payload.val) := by
  intro inside
  have byte := (inside .empty ⟨.connected, none⟩ ⟨.connected, none⟩ ⟨[0], by decide⟩ rfl rfl).1
  exact absurd (byte .readOutOfRange rfl) (by decide)

end CppToolkit.Network
