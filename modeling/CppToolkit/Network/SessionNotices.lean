import CppToolkit.Network.LostConnection

/-! The notices by which a session tells its server of the connection: what each event queues,
and what the session has come to by then. -/
namespace CppToolkit.Network
open Memory Utilities

/-- A notice that is put into the pool of the session. -/
def Effect.queued : Effect → Option (List UInt8)
  | .push (.receivedConnectionJob text) => some text
  | _ => none

/-- A notice that the session gives to the server itself. -/
def Effect.direct : Effect → Option (List UInt8)
  | .sessionCallback text => some text
  | _ => none

namespace NetworkSession

/-- The session answered so, with these fields, and then had the condition it speaks of. -/
def Announces (w : World) (subId : List UInt8) (condition : ConnectConditions)
    (text : List UInt8) : Prop :=
  ∃ t : NetworkSession, ∃ accepted, text = t.connectionMessage w accepted ∧ t.subId = subId ∧
    condition = if accepted then .confirmed else .expired

/-- What an event leaves of a session with a running pool. -/
structure Answering (w : World) (s : NetworkSession) (h : Handling NetworkSession Effect) :
    Prop where
  pool : h.peer.threadPool = some false
  subId : h.peer.subId = s.subId
  queued : ∀ e ∈ h.effects, ∀ text, e.queued = some text →
    Announces w s.subId h.peer.condition text
  direct : ∀ e ∈ h.effects, e.direct = none
  expires : s.condition ≠ .expired → h.peer.condition = .expired →
    ∃ e ∈ h.effects, ∃ t : NetworkSession, e.queued = some (t.connectionMessage w false)
  advances : h.peer.condition = s.condition ∨ h.peer.condition = .expired ∨
    s.condition = .waiting ∧ h.peer.condition = .confirmed

section
variable {w : World} {s : NetworkSession} {h : Handling NetworkSession Effect}

theorem send_silent {handler : DataHandler} {mode : DataModes} {data : List UInt8} {e : Effect}
    (member : e ∈ pushed (handler.send mode data)) : e.queued = none ∧ e.direct = none := by
  cases sent : handler.send mode data with
  | error what =>
      rw [sent] at member
      cases member
  | ok job =>
      rw [sent] at member
      rw [List.mem_singleton.mp member, (DataHandler.send_eq_ok sent).2]
      split <;> exact ⟨rfl, rfl⟩

theorem createKey_subId (w : World) (s : NetworkSession) : (s.createKey w).subId = s.subId := by
  unfold createKey
  split <;> rfl

theorem createKey_threadPool (w : World) (s : NetworkSession) :
    (s.createKey w).threadPool = s.threadPool := by
  unfold createKey
  split <;> rfl

/-- With a pool an answer queues its notice and then its packet. -/
theorem responseConnection_running (pool : s.threadPool = some false) (accepted : Bool) :
    s.responseConnection w accepted =
      ⟨s.createKey w,
        .push (.receivedConnectionJob ((s.createKey w).connectionMessage w accepted)) ::
          pushed ((s.createKey w).send .connection ((s.createKey w).connectionMessage w accepted)),
        pushReply ((s.createKey w).send .connection ((s.createKey w).connectionMessage w accepted))⟩ := by
  have running := (createKey_threadPool w s).trans pool
  unfold responseConnection
  dsimp only
  rw [running]
  dsimp only
  rw [DataHandler.push_running running]
  rfl

theorem Answering.nothing (pool : s.threadPool = some false) (reply : Reply) :
    Answering w s ⟨s, [], reply⟩ where
  pool := pool
  subId := rfl
  queued := fun _ member => by cases member
  direct := fun _ member => by cases member
  expires := fun live expired => absurd expired live
  advances := .inl rfl

theorem Answering.body {p : Handling Peer Effect} (pool : s.threadPool = some false)
    (confined : s.toPeer.Confined p) :
    Answering w s (p.map fun p => { s with toPeer := p }) where
  pool := (congrArg DataHandler.threadPool confined.base).trans pool
  subId := congrArg DataHandler.subId confined.base
  queued := by
    intro e member text queued
    have ofBody := confined.effects e member
    cases e with
    | push job =>
        cases job with
        | checkConditionCallback => cases queued
        | _ => cases ofBody
    | _ => cases queued
  direct := by
    intro e member
    have ofBody := confined.effects e member
    cases e with
    | sessionCallback => cases ofBody
    | _ => rfl
  expires := fun live expired =>
    absurd ((congrArg DataHandler.condition confined.base).symm.trans expired) live
  advances := .inl (congrArg DataHandler.condition confined.base)

/-- The answer of a session that has come to the condition it speaks of. -/
theorem Answering.answer {t : NetworkSession} (pool : t.threadPool = some false)
    (subId : t.subId = s.subId) {accepted : Bool}
    (condition : t.condition = if accepted then .confirmed else .expired)
    (before : s.condition = .waiting ∨ accepted = false) :
    Answering w s (t.responseConnection w accepted) := by
  have same := createKey_condition w t
  have sub := (createKey_subId w t).trans subId
  rw [responseConnection_running pool]
  refine ⟨(createKey_threadPool w t).trans pool, sub, ?_, ?_, ?_, ?_⟩
  · intro e member text queued
    rcases List.mem_cons.mp member with rfl | answer
    · cases queued
      exact ⟨_, accepted, rfl, sub, same.trans condition⟩
    · cases (send_silent answer).1.symm.trans queued
  · intro e member
    rcases List.mem_cons.mp member with rfl | answer
    · rfl
    · exact (send_silent answer).2
  · intro live expired
    refine ⟨_, List.mem_cons_self, t.createKey w, ?_⟩
    cases accepted with
    | false => rfl
    | true => cases (same.trans condition).symm.trans expired
  · dsimp only
    rw [same, condition]
    cases accepted with
    | false => exact .inr (.inl rfl)
    | true =>
        rcases before with waiting | other
        · exact .inr (.inr ⟨waiting, rfl⟩)
        · cases other

/-- A second answer of the same kind. -/
theorem Answering.andThen {next : NetworkSession → Handling NetworkSession Effect}
    (first : Answering w s h)
    (rest : Answering w h.peer (next h.peer))
    (same : (next h.peer).peer.condition = h.peer.condition) : Answering w s (h.andThen next) := by
  unfold Handling.andThen
  split
  next => exact first
  next =>
    refine ⟨rest.pool, rest.subId.trans first.subId, ?_, ?_, ?_, ?_⟩
    · intro e member text queued
      rcases List.mem_append.mp member with before | after
      · exact same ▸ first.queued e before text queued
      · exact first.subId ▸ rest.queued e after text queued
    · intro e member
      exact (List.mem_append.mp member).elim (first.direct e) (rest.direct e)
    · intro live expired
      obtain ⟨e, member, told⟩ := first.expires live (same ▸ expired)
      exact ⟨e, List.mem_append_left _ member, told⟩
    · exact same ▸ first.advances

theorem Answering.expired (pool : s.threadPool = some false) (byItself : Bool) :
    Answering w s (s.setCondition w .expired byItself) := by
  by_cases already : s.condition = .expired
  · rw [setCondition, DataHandler.setCondition, if_pos already]
    exact .nothing pool done
  · rw [setCondition_expires already, disconnected]
    have first : Answering w s (({ s with condition := .expired } : NetworkSession).responseConnection
      w false) := @Answering.answer w s { s with condition := .expired } pool rfl false rfl (.inr rfl)
    exact first.andThen (.nothing first.pool done) rfl

theorem Answering.receivedConnection (pool : s.threadPool = some false) (data : List UInt8) :
    Answering w s (s.receivedConnection w data) := by
  unfold NetworkSession.receivedConnection
  split
  next => exact .nothing pool _
  next waiting =>
  have waiting := Decidable.not_not.mp waiting
  split
  next => exact .nothing pool _
  next =>
  split
  next => exact .nothing pool _
  next message parsed =>
  split
  next => exact .nothing pool _
  next id found =>
    let named : NetworkSession := { s with id := cString id }
    have renamed : ∀ {h}, Answering w named h → Answering w s h :=
      fun kept => ⟨kept.pool, kept.subId, kept.queued, kept.direct, kept.expires, kept.advances⟩
    have pool : named.threadPool = some false := pool
    dsimp only
    split
    next => exact renamed (.nothing pool _)
    next key keyed =>
      split
      next =>
        rw [setCondition_live w _ (by decide)]
        exact renamed (@Answering.answer w named { named with condition := .confirmed } pool rfl
          true rfl (.inl waiting))
      next =>
        have first : Answering w named (named.setCondition w .expired false) := .expired pool false
        have gone := (setCondition_inert w named .expired false).condition
        refine renamed (first.andThen (.answer first.pool rfl gone (.inr rfl)) ?_)
        exact (responseConnection_inert w _ false).condition
  next => exact .nothing pool _

theorem Answering.expireFirst {what : String} {body : Peer → Checked (Handling Peer Effect)}
    (pool : s.threadPool = some false)
    (confined : ∀ h, body s.toPeer = .ok h → s.toPeer.Confined h)
    (handled : s.expireFirst w what body = .ok h) : Answering w s h := by
  rcases confirmedOnly_cases handled with ⟨_, rfl⟩ | ⟨_, inner, ended, rfl⟩
  · have first : Answering w s (s.setCondition w .expired false) := .expired pool false
    exact first.andThen (.nothing first.pool _) rfl
  · exact .body pool (confined inner ended)

/-- What happens to a session with a running pool, up to its stop. -/
theorem process_answering {e : Event} (pool : s.threadPool = some false) (live : e ≠ .stop)
    (handled : s.process w e = .ok h) : Answering w s h := by
  cases e with
  | packet mode data =>
      simp only [process, onReceivedData] at handled
      split at handled
      next =>
        cases handled
        exact .nothing pool _
      next =>
        cases handled
        exact .receivedConnection pool data
      next => exact .expireFirst pool (fun _ => Peer.handleBinary_confined) handled
      next => exact .expireFirst pool (fun _ => Peer.handleMessage_confined) handled
      next => exact .expireFirst pool (fun _ => Peer.handleFile_confined) handled
  | readError =>
      cases handled
      exact .expired pool false
  | stop => exact absurd rfl live

end
end NetworkSession

end CppToolkit.Network
