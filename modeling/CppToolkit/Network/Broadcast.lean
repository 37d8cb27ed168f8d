import CppToolkit.Library.Visits
import CppToolkit.Network.FileTransferPackets
import CppToolkit.Network.NetworkServer

/-! The functions of the server that send to its sessions: which of them are called. -/
namespace CppToolkit.Network
open Memory Utilities Visits

/-- What an application hands to `send_binary`, `send_message` or `send_files`. -/
inductive Content where
  | binary (binary message : List UInt8)
  | message (message : List UInt8)
  | files (files : List FileInformation)
  deriving DecidableEq, Repr

/-- The jobs that a call of a session has pushed, and its reply. -/
abbrev Sent := List Job × Except String Unit

def sentJob : Except String Job → Sent
  | .ok job => ([job], .ok ())
  | .error what => ([], .error what)

/-- The send function of a session; `guid` is the one that a call of `send_files` gets. -/
def DataHandler.sendContent (h : DataHandler) (guid : Guid) : Content → Sent
  | .binary binary message => sentJob (h.sendBinary binary message)
  | .message message => sentJob (h.sendMessage message)
  | .files files => h.sendFiles guid files

/-- A session that has a condition, a socket and a pool to send with. -/
def DataHandler.Ready (h : DataHandler) : Prop :=
  h.condition = .confirmed ∧ h.socket ≠ none ∧ h.threadPool = some false

instance (h : DataHandler) : Decidable h.Ready := inferInstanceAs (Decidable (_ ∧ _))

/-- There is something to send: an empty message makes a packet without data. -/
def Content.HasData : Content → Prop
  | .message text => text ≠ []
  | _ => True

instance : ∀ content : Content, Decidable content.HasData
  | .binary _ _ => isTrue trivial
  | .message text => inferInstanceAs (Decidable (text ≠ []))
  | .files _ => isTrue trivial

namespace NetworkServer

/-- The body of the loop over `sessions_`; `send` is the call of a session. -/
def visit (s : NetworkServer) (send : Nat → DataHandler → Sent) (id subId : List UInt8)
    (position : Nat) : Option Nat → Option (Sent × Except String Unit)
  | none => none
  | some session =>
      let object := (s.objects session).toDataHandler
      if id = [] then
        let sent := send position object
        some (sent, sent.2)
      else if id ≠ object.id then none
      else if subId ≠ [] ∧ subId ≠ object.subId then none
      else
        let sent := send position object
        some (sent, sent.2)

/-- The calls of the sessions with their positions, and the reply. -/
abbrev Broadcast := List (Nat × Sent) × Except String Unit

def sendBinary (s : NetworkServer) (binary message id subId : List UInt8) : Broadcast :=
  visits (s.visit (fun _ h => sentJob (h.sendBinary binary message)) id subId) 0 s.sessions

def sendMessage (s : NetworkServer) (message id subId : List UInt8) : Broadcast :=
  visits (s.visit (fun _ h => sentJob (h.sendMessage message)) id subId) 0 s.sessions

/-- `guids` are what `Generator::guid` returns in the sessions. -/
def sendFiles (s : NetworkServer) (guids : Nat → Guid) (files : List FileInformation)
    (id subId : List UInt8) : Broadcast :=
  visits (s.visit (fun position h => h.sendFiles (guids position) files) id subId) 0 s.sessions

def sendContent (s : NetworkServer) (guids : Nat → Guid) (id subId : List UInt8) :
    Content → Broadcast
  | .binary binary message => s.sendBinary binary message id subId
  | .message message => s.sendMessage message id subId
  | .files files => s.sendFiles guids files id subId

/-- An empty id matches every session, an empty sub id every sub id. -/
def Matches (id subId : List UInt8) (h : DataHandler) : Prop :=
  id = [] ∨ id = h.id ∧ (subId = [] ∨ subId = h.subId)

instance (id subId : List UInt8) (h : DataHandler) : Decidable (Matches id subId h) :=
  inferInstanceAs (Decidable (_ ∨ _))

/-- Every confirmed session that matches is called. -/
def Reaches (s : NetworkServer) (guids : Nat → Guid) (id subId : List UInt8) (content : Content) :
    Prop :=
  ∀ front session back, s.sessions = front ++ some session :: back →
    Matches id subId (s.objects session).toDataHandler →
    (s.objects session).condition = .confirmed →
      (front.length, (s.objects session).sendContent (guids front.length) content) ∈
        (s.sendContent guids id subId content).1

/-- A session that matches and cannot send stands before a confirmed one that matches. -/
def Blocked (s : NetworkServer) (id subId : List UInt8) (content : Content) : Prop :=
  ∃ front session back, s.sessions = front ++ some session :: back ∧
    Matches id subId (s.objects session).toDataHandler ∧
    (s.objects session).condition = .confirmed ∧
      ∃ other, some other ∈ front ∧ Matches id subId (s.objects other).toDataHandler ∧
        ¬ ((s.objects other).Ready ∧ content.HasData)

end NetworkServer

namespace DataHandler

variable {h : DataHandler}

theorem push_ready (pooled : h.threadPool = some false) (job : Job) : h.push job = .ok job := by
  rw [push, pooled]

/-- A confirmed handler sends exactly if it has a socket, an open pool and data. -/
theorem send_ok_iff {mode : DataModes} {data : List UInt8} :
    (∃ job, h.send mode data = .ok job) ↔
      h.socket ≠ none ∧ h.threadPool = some false ∧ data ≠ [] := by
  unfold send
  split
  next missing =>
    refine iff_of_false ?_ fun ready => ready.1 missing
    rintro ⟨job, sent⟩
    cases sent
  next socket =>
  split
  next missing =>
    refine iff_of_false ?_ fun ready => ?_
    · rintro ⟨job, sent⟩
      cases sent
    · cases missing.symm.trans ready.2.1
  next pool =>
  split
  next empty =>
    refine iff_of_false ?_ fun ready => ready.2.2 empty
    rintro ⟨job, sent⟩
    cases sent
  next some_ =>
  have pushes : ∀ job, (∃ pushed, h.push job = .ok pushed) ↔ h.threadPool = some false := by
    intro job
    unfold push
    split
    next missing => exact absurd missing pool
    next locked =>
      refine iff_of_false ?_ fun open_ => ?_
      · rintro ⟨pushed, accepted⟩
        cases accepted
      · cases locked.symm.trans open_
    next open_ => exact iff_of_true ⟨job, rfl⟩ open_
  have only : h.threadPool = some false ↔
      h.socket ≠ none ∧ h.threadPool = some false ∧ data ≠ [] :=
    ⟨fun open_ => ⟨socket, open_, some_⟩, fun ready => ready.2.1⟩
  split
  next => exact (pushes _).trans only
  next => exact (pushes _).trans only

theorem sentJob_fails_iff {sent : Except String Job} :
    (∃ what, (sentJob sent).2 = .error what) ↔ ¬ ∃ job, sent = .ok job := by
  cases sent with
  | error what =>
      refine iff_of_true ⟨what, rfl⟩ ?_
      rintro ⟨job, same⟩
      cases same
  | ok job =>
      refine iff_of_false ?_ (not_not_intro ⟨job, rfl⟩)
      rintro ⟨what, same⟩
      cases same

theorem pushFiles_ready (pooled : h.threadPool = some false) (guid : Guid)
    (files : List FileInformation) : ∀ index, (h.pushFiles guid index files).2 = .ok () := by
  induction files with
  | nil => exact fun _ => rfl
  | cons file rest ih =>
      intro index
      rw [pushFiles, push_ready pooled]
      exact ih (index + 1)

theorem startData_ne_nil (guid : Guid) (fileCount : Nat) : startData guid fileCount ≠ [] := by
  rw [startData_eq]
  exact fields_ne_nil _ _

theorem sendFiles_fails_iff (guid : Guid) (files : List FileInformation) :
    (∃ what, (h.sendFiles guid files).2 = .error what) ↔ ¬ h.Ready := by
  unfold sendFiles
  split
  next other => exact iff_of_true ⟨_, rfl⟩ fun ready => other ready.1
  next confirmed =>
  have confirmed := Decidable.not_not.mp confirmed
  have sends := @send_ok_iff h .file (startData guid files.length)
  cases sent : h.send .file (startData guid files.length) with
  | error what =>
      refine iff_of_true ⟨what, rfl⟩ fun ready => ?_
      obtain ⟨job, sent'⟩ := sends.mpr ⟨ready.2.1, ready.2.2, startData_ne_nil _ _⟩
      cases sent.symm.trans sent'
  | ok job =>
      obtain ⟨socket, pooled, _⟩ := sends.mp ⟨job, sent⟩
      refine iff_of_false ?_ (not_not_intro ⟨confirmed, socket, pooled⟩)
      rintro ⟨what, failed⟩
      cases (pushFiles_ready pooled guid files 0).symm.trans failed

theorem confirmed_ok_iff {mode : DataModes} {data : List UInt8} :
    (∃ job, (if h.condition ≠ .confirmed then .error h.notConfirmed else h.send mode data) =
      Except.ok job) ↔ h.Ready ∧ data ≠ [] := by
  split
  next other =>
    refine iff_of_false ?_ fun ready => other ready.1.1
    rintro ⟨job, sent⟩
    cases sent
  next confirmed =>
    rw [send_ok_iff]
    exact ⟨fun ⟨socket, pooled, some_⟩ => ⟨⟨Decidable.not_not.mp confirmed, socket, pooled⟩, some_⟩,
      fun ⟨ready, some_⟩ => ⟨ready.2.1, ready.2.2, some_⟩⟩

/-- The three functions of a session fail under one condition. -/
theorem sendContent_fails_iff (guid : Guid) (content : Content) :
    (∃ what, (h.sendContent guid content).2 = .error what) ↔ ¬ (h.Ready ∧ content.HasData) := by
  cases content with
  | binary binary message =>
      refine sentJob_fails_iff.trans (not_congr (confirmed_ok_iff.trans (and_congr_right fun _ => ?_)))
      refine iff_of_true ?_ trivial
      rw [Combiner.append_eq, Combiner.append_eq]
      exact List.append_ne_nil_of_right_ne_nil _ (Combiner.field_ne_nil binary)
  | message message => exact sentJob_fails_iff.trans (not_congr confirmed_ok_iff)
  | files files =>
      exact (sendFiles_fails_iff guid files).trans (not_congr ⟨fun ready => ⟨ready, trivial⟩, And.left⟩)

end DataHandler

namespace NetworkServer
variable {s : NetworkServer} {guids : Nat → Guid} {id subId : List UInt8} {content : Content}

/-- The three loops differ in the function of the session alone. -/
theorem sendContent_eq (s : NetworkServer) (guids : Nat → Guid) (id subId : List UInt8)
    (content : Content) : s.sendContent guids id subId content =
      visits (s.visit (fun position h => h.sendContent (guids position) content) id subId) 0
        s.sessions := by
  cases content <;> rfl

theorem visit_match (send : Nat → DataHandler → Sent) {position session : Nat}
    (matched : Matches id subId (s.objects session).toDataHandler) :
    s.visit send id subId position (some session) =
      some (send position (s.objects session).toDataHandler,
        (send position (s.objects session).toDataHandler).2) := by
  unfold visit
  dsimp only
  split
  next => rfl
  next given =>
    obtain ⟨same, sub⟩ := matched.resolve_left given
    rw [if_neg (not_not_intro same), if_neg fun other => sub.elim other.1 other.2]

theorem visit_other (send : Nat → DataHandler → Sent) {position session : Nat}
    (other : ¬ Matches id subId (s.objects session).toDataHandler) :
    s.visit send id subId position (some session) = none := by
  unfold visit
  dsimp only
  split
  next all => exact absurd (.inl all) other
  next given =>
  split
  next => rfl
  next same =>
  have same := Decidable.not_not.mp same
  refine if_pos ⟨fun any => other (.inr ⟨same, .inl any⟩), fun sub => other (.inr ⟨same, .inr sub⟩)⟩

/-- A session makes the loop return if it matches and cannot send. -/
theorem visit_fails_iff (position : Nat) (entry : Option Nat) :
    (∃ sent what, s.visit (fun position h => h.sendContent (guids position) content) id subId
      position entry = some (sent, .error what)) ↔
        ∃ session, entry = some session ∧ Matches id subId (s.objects session).toDataHandler ∧
          ¬ ((s.objects session).Ready ∧ content.HasData) := by
  cases entry with
  | none =>
      refine iff_of_false ?_ ?_
      · rintro ⟨sent, what, failed⟩
        cases failed
      · rintro ⟨session, same, _⟩
        cases same
  | some session =>
      by_cases matched : Matches id subId (s.objects session).toDataHandler
      · rw [visit_match _ matched]
        have fails := DataHandler.sendContent_fails_iff (h := (s.objects session).toDataHandler)
          (guids position) content
        constructor
        · rintro ⟨sent, what, same⟩
          obtain ⟨rfl, failed⟩ := Prod.mk.inj (Option.some.inj same)
          exact ⟨session, rfl, matched, fails.mp ⟨what, failed⟩⟩
        · rintro ⟨_, same, _, refuses⟩
          cases same
          obtain ⟨what, failed⟩ := fails.mpr refuses
          exact ⟨_, what, congrArg some (Prod.ext rfl failed)⟩
      · rw [visit_other _ matched]
        refine iff_of_false ?_ ?_
        · rintro ⟨sent, what, failed⟩
          cases failed
        · rintro ⟨_, same, matched', _⟩
          cases same
          exact matched matched'

/-- A session that matches is called exactly if none before it makes the loop return. -/
theorem called_iff {front back : List (Option Nat)} {session : Nat}
    (stored : s.sessions = front ++ some session :: back)
    (matched : Matches id subId (s.objects session).toDataHandler) :
    (front.length, (s.objects session).sendContent (guids front.length) content) ∈
        (s.sendContent guids id subId content).1 ↔
      ∀ other, some other ∈ front → Matches id subId (s.objects other).toDataHandler →
        (s.objects other).Ready ∧ content.HasData := by
  rw [sendContent_eq, stored, mem_visits_iff visit_fails_iff (visit_match _ matched)]
  constructor
  · intro passes other member matched
    by_contra refuses
    exact passes _ member ⟨other, rfl, matched, refuses⟩
  · rintro passes _ member ⟨other, rfl, matched, refuses⟩
    exact refuses (passes other member matched)

/-- The server calls every confirmed session that matches if and only if no session that
matches and cannot send stands before one of them in `sessions_`. -/
theorem broadcast_reaches_iff (s : NetworkServer) (guids : Nat → Guid) (id subId : List UInt8)
    (content : Content) : Reaches s guids id subId content ↔ ¬ Blocked s id subId content := by
  constructor
  · rintro reaches ⟨front, session, back, stored, matched, confirmed, other, member, match_, refuses⟩
    exact refuses ((called_iff stored matched).mp (reaches front session back stored matched confirmed)
      other member match_)
  · intro free front session back stored matched confirmed
    refine (called_iff stored matched).mpr fun other member match_ => ?_
    by_contra refuses
    exact free ⟨front, session, back, stored, matched, confirmed, other, member, match_, refuses⟩

/-- A client that has not answered yet, and one that is confirmed. -/
def waitingFirst : NetworkServer :=
  .running [some 0, some 1] (fun n =>
    { toNetworkSession :=
        { toPeer := { Peer.connected with
            toDataHandler := { DataHandler.connected with
              condition := if n = 0 then .waiting else .confirmed } }
          receivedConnectionCallback := none }
      receivedFilesCallback := false }) true fun _ => []

theorem broadcast_ends_at_waiting :
    ¬ ∀ (s : NetworkServer) (guids : Nat → Guid) (id subId : List UInt8) (content : Content),
      Reaches s guids id subId content := by
  intro reaches
  have called := reaches waitingFirst (fun _ => []) [] [] (.message [104, 105]) [some 0] 1 [] rfl
    (.inl rfl) rfl
  have only : (waitingFirst.sendContent (fun _ => []) [] [] (.message [104, 105])).1 =
      [(0, [], .error "cannot send binary due to connect condition on : not confirmed")] := by
    decide +kernel
  rw [only] at called
  cases List.mem_singleton.mp called

end NetworkServer
end CppToolkit.Network
