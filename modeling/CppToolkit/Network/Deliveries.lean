import CppToolkit.Network.Messages
import CppToolkit.Network.Shipments
import CppToolkit.Network.SendOrder

/-! Any number of calls of `send_message` and `send_binary` while the jobs of their packets run
in any order on both peers: what was accepted is delivered once. -/
namespace CppToolkit.Network
open Memory Utilities Bag Machine

namespace Call

def mode : Call → DataModes
  | .message _ => .message
  | .binary _ _ => .binary

def data : Call → List UInt8
  | .message text => Converter.toArray text
  | .binary data text => Combiner.append (Combiner.append [] (Converter.toArray text)) data

def cargo (call : Call) : Shipment := ⟨call.mode, call.data⟩

/-- What the application of the other side is told: the handlers cut a text that begins with a
byte order mark, and leave out an empty binary. -/
def told (caller : Caller) : Call → List Effect
  | .message text => [.messageCallback caller (Converter.toString text)]
  | .binary data text =>
      if data = [] then [] else [.binaryCallback caller (Converter.toString text) data]

/-- The call with its own text and binary. -/
def verbatim (caller : Caller) : Call → Effect
  | .message text => .messageCallback caller text
  | .binary data text => .binaryCallback caller text data

/-- Its text has no byte order mark, and its binary is not empty. -/
def Intact : Call → Prop
  | .message text => ¬ Converter.hasByteOrderMark text
  | .binary data text => data ≠ [] ∧ ¬ Converter.hasByteOrderMark text

/-- These are the calls that are told as they were made. -/
theorem told_verbatim_iff {caller : Caller} {call : Call} :
    call.told caller = [call.verbatim caller] ↔ call.Intact := by
  cases call with
  | message text =>
      rw [told, verbatim, Intact, ← toString_eq_self_iff, List.singleton_inj]
      exact ⟨fun same => (Effect.messageCallback.inj same).2, fun same => congrArg _ same⟩
  | binary data text =>
      rw [told, verbatim, Intact, ← toString_eq_self_iff]
      split
      next none_ =>
        exact iff_of_false (List.cons_ne_nil _ _).symm fun intact => intact.1 none_
      next some_ =>
        rw [List.singleton_inj, and_iff_right some_]
        exact ⟨fun same => (Effect.binaryCallback.inj same).2.1, fun same => by rw [same]⟩

/-- Every session and every client that answers makes of this call of `received_data` what the
application is to be told. -/
def Tells (arrival : UInt8 × List UInt8) (call : Call) : Prop :=
  (∀ w, ∀ s : NetworkSession, s.toPeer.Answers →
    ∃ h, s.onReceivedData w arrival.1 arrival.2 = .ok h ∧ h.effects = call.told s.caller) ∧
  ∀ w, ∀ c : NetworkClient, c.toPeer.Answers →
    ∃ h, c.onReceivedData w arrival.1 arrival.2 = .ok h ∧ h.effects = call.told none

theorem send_accepted {h : DataHandler} {call : Call} {job : Job} (sent : call.send h = .ok job) :
    call.data ≠ [] ∧ job = .encryptMessage call.cargo.packet := by
  cases call with
  | message text => exact sendMessage_job sent
  | binary data text =>
      refine ⟨?_, sendBinary_job sent⟩
      rw [Call.data, Combiner.append_eq]
      exact List.append_ne_nil_of_right_ne_nil _ (Combiner.field_ne_nil _)

/-- Both peers leave a packet of the application to the handler that they share. -/
theorem tells_of_handled (call : Call) (mode : DataModes) (data : List UInt8) (what : String)
    (body : Caller → Peer → Checked (Handling Peer Effect))
    (session : ∀ w, ∀ s : NetworkSession,
      s.onReceivedData w mode.code data = s.expireFirst w what (body s.caller))
    (client : ∀ w, ∀ c : NetworkClient, c.condition ≠ .expired →
      c.onReceivedData w mode.code data = c.expireFirst what (body none))
    (handled : ∀ caller, ∀ p : Peer, p.Answers →
      ∃ h, body caller p = .ok h ∧ h.effects = call.told caller) :
    call.Tells (mode.code, data) := by
  constructor
  · intro w s answers
    obtain ⟨h, taken, told⟩ := handled s.caller s.toPeer answers
    rw [session, s.expireFirst_confirmed answers.1, taken]
    exact ⟨_, rfl, told⟩
  · intro w c answers
    have live : c.condition ≠ .expired := by
      rw [answers.1]
      decide
    obtain ⟨h, taken, told⟩ := handled none c.toPeer answers
    rw [client w c live, c.expireFirst_confirmed answers.1, taken]
    exact ⟨_, rfl, told⟩

theorem tells_arrival {call : Call} (some_ : call.data ≠ [])
    (fits : call.cargo.packet.length < 2 ^ 63) : call.Tells call.cargo.arrival := by
  cases call with
  | message text =>
      exact tells_of_handled _ .message text "normal" (fun caller p => p.handleMessage caller text)
        (fun _ _ => rfl) (fun _ _ live => if_neg live) (tells_message some_ fits).2
  | binary data text =>
      obtain ⟨found, work, handled⟩ := @tells_binary text data fits
      have same : found = (Call.binary data text).data := by
        have work' := @DataHandler.receivingWork_packet .binary _ some_ fits
        cases work.symm.trans work'
        rfl
      subst same
      exact tells_of_handled _ .binary _ "binary"
        (fun caller p => p.handleBinary caller (Call.binary data text).data)
        (fun _ _ => rfl) (fun _ _ live => if_neg live) handled

end Call

/-- The packets on their way, and the calls that returned success so far. -/
structure Traffic where
  link : Link
  accepted : List Call
  deriving DecidableEq, Repr

namespace Traffic

inductive Action where
  | call (call : Call)
  | link (action : Link.Action)
  deriving DecidableEq, Repr

def initial : Traffic := ⟨⟨[], [], [], []⟩, []⟩

/-- A call that returns success has pushed the first job of its packet. -/
def step (c : Codecs) (sender receiver : DataHandler) (t : Traffic) : Action → Option Traffic
  | .call call =>
      match call.send sender with
      | .ok job => some
          { link := { t.link with sending := t.link.sending ++ [job] }
            accepted := t.accepted ++ [call] }
      | .error _ => some t
  | .link action =>
      (t.link.step c sender receiver action).map fun link => { t with link }

/-- The packet of a call is one that the codecs can carry. -/
def Action.Fits (c : Codecs) (sender : DataHandler) : Action → Prop
  | .call made => made.cargo.Fits c sender
  | .link _ => True

def Action.ofLink : Action → Bool
  | .call _ => false
  | .link _ => true

/-- What holds of every state a run comes to; `taken` counts the steps of the link. -/
structure Delivering (c : Codecs) (sender receiver : DataHandler) (taken : Nat) (t : Traffic) :
    Prop where
  accounted : t.link.Accounted Call.cargo c sender receiver t.accepted
  tells : ∀ call ∈ t.accepted, call.Tells call.cargo.arrival
  counted : t.link.ahead + taken = 7 * t.accepted.length

section
variable {c : Codecs} {sender receiver : DataHandler}

theorem initial_delivering : Delivering c sender receiver 0 initial where
  accounted := Link.accounted_nil _ _ _ _
  tells := fun _ member => by cases member
  counted := rfl

variable (matched : Matched c sender receiver)
  {paired : c.lz4.Stream → c.lz4.StreamDecode → Prop} (faithful : c.lz4.Faithful paired)
include matched faithful

theorem Delivering.step {taken : Nat} {t u : Traffic}
    (delivering : Delivering c sender receiver taken t)
    {a : Action} (fits : a.Fits c sender) (stepped : Traffic.step c sender receiver t a = some u) :
    Delivering c sender receiver (taken + if a.ofLink then 1 else 0) u := by
  obtain ⟨accounted, tells, counted⟩ := delivering
  cases a with
  | call call =>
      unfold Traffic.step at stepped
      dsimp only at stepped
      split at stepped
      next job sent =>
        cases stepped
        obtain ⟨some_, rfl⟩ := Call.send_accepted sent
        refine ⟨accounted.push (matched.starts faithful some_ fits), ?_, ?_⟩
        · intro other member
          rcases List.mem_append.mp member with old | new
          · exact tells other old
          · rw [List.mem_singleton.mp new]
            exact Call.tells_arrival some_ fits.1
        · simp only [Link.ahead, sum_ahead_concat, Job.ahead, List.length_append,
            List.length_singleton, Action.ofLink, Bool.false_eq_true, if_false] at counted ⊢
          omega
      next =>
        cases stepped
        exact ⟨accounted, tells, counted⟩
  | link action =>
      obtain ⟨link, moved, rfl⟩ := Option.map_eq_some_iff.mp stepped
      obtain ⟨kept, less⟩ := accounted.step matched.receiverPool moved
      refine ⟨kept, tells, ?_⟩
      simp only [Action.ofLink, if_true]
      omega

/-- Induction on the steps. -/
theorem Delivering.run {taken : Nat} {t u : Traffic}
    (delivering : Delivering c sender receiver taken t)
    {actions : List Action} (fits : ∀ a ∈ actions, a.Fits c sender)
    (ran : Machine.run (Traffic.step c sender receiver) t actions = some u) :
    Delivering c sender receiver (taken + actions.countP Action.ofLink) u := by
  induction actions generalizing taken t with
  | nil =>
      cases ran
      exact delivering
  | cons a rest ih =>
      rw [List.forall_mem_cons] at fits
      obtain ⟨v, stepped, ran⟩ := run_cons.mp ran
      have last := ih (delivering.step matched faithful fits.1 stepped) fits.2 ran
      rw [List.countP_cons, Nat.add_comm (rest.countP _), ← Nat.add_assoc]
      exact last

end

/-- Two calls; the jobs of the second packet run first. -/
def secondFirst : List Action :=
  [.call (.message [104, 105]), .call (.binary [7] [65]), .link (.sender 1), .link (.sender 1),
    .link (.sender 1), .link .deliver, .link (.receiver 0), .link (.receiver 0), .link (.receiver 0)]

end Traffic
end CppToolkit.Network
