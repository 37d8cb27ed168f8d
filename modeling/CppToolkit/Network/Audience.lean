import CppToolkit.Network.Broadcast
import CppToolkit.Network.Deliveries

/-! What the clients are told of the broadcasts of a server, while sessions come and go and their
handshakes end. -/
namespace CppToolkit.Network
open Memory Utilities Bag Machine Visits

/-- What the handshake of a session has set so far. -/
structure Standing where
  condition : ConnectConditions
  id : List UInt8
  subId : List UInt8
  deriving DecidableEq, Repr

def ServerSession.standing (s : ServerSession) (standing : Standing) : ServerSession :=
  { s with condition := standing.condition, id := standing.id, subId := standing.subId }

def Call.content : Call → Content
  | .message text => .message text
  | .binary data text => .binary data text

/-- What a call of a session has pushed, and whether it was accepted. -/
def Traffic.collect (t : Traffic) (call : Call) (sent : Sent) : Traffic where
  link := { t.link with sending := t.link.sending ++ sent.1 }
  accepted := match sent.2 with
    | .ok () => t.accepted ++ [call]
    | .error _ => t.accepted

theorem Traffic.collect_error (t : Traffic) (call : Call) (what : String) :
    t.collect call (sentJob (.error what)) = t := by
  unfold collect sentJob
  dsimp only
  rw [List.append_nil]

/-- The server with these pointers in `sessions_`, whose handshakes have come so far. -/
def NetworkServer.now (s : NetworkServer) (sessions : List (Option Nat))
    (standing : Nat → Standing) : NetworkServer :=
  { s with sessions, objects := fun session => (s.objects session).standing (standing session) }

/-- `sessions_`, the handshakes, and every session with the traffic to its client. -/
structure Audience where
  sessions : List (Option Nat)
  standing : Nat → Standing
  traffic : Nat → Traffic

namespace Audience

inductive Action where
  | sessions (sessions : List (Option Nat))
  | standing (session : Nat) (standing : Standing)
  | broadcast (call : Call) (id subId : List UInt8)
  | link (session : Nat) (action : Link.Action)
  deriving DecidableEq, Repr

section
variable (server : NetworkServer) (call : Call) (id subId : List UInt8)

/-- The session is called, or passed over. -/
def visit (traffic : Nat → Traffic) (session : Nat) : (Nat → Traffic) × Except String Unit :=
  match server.visit (fun _ h => sentJob (call.send h)) id subId 0 (some session) with
  | none => (traffic, .ok ())
  | some (sent, reply) =>
      (Function.update traffic session ((traffic session).collect call sent), reply)

/-- `send_message` and `send_binary` of the server. -/
def broadcast (traffic : Nat → Traffic) : (Nat → Traffic) × Except String Unit :=
  walk (unlessNull (visit server call id subId)) server.sessions traffic

/-- The call of a session is accepted: it matches, and it and the sessions before it that match
can send. -/
def reaches (session : Nat) : List Nat → Bool
  | [] => false
  | other :: rest =>
      if NetworkServer.Matches id subId (server.objects other).toDataHandler then
        if (server.objects other).Ready ∧ call.content.HasData then
          if other = session then true else reaches session rest
        else false
      else reaches session rest

end

section
variable (server : NetworkServer) (c : Codecs) (clients : Nat → DataHandler)

def initial : Audience where
  sessions := []
  standing := fun session =>
    ⟨(server.objects session).condition, (server.objects session).id, (server.objects session).subId⟩
  traffic := fun _ => .initial

def step (a : Audience) : Action → Option Audience
  | .sessions sessions => some { a with sessions }
  | .standing session standing =>
      some { a with standing := Function.update a.standing session standing }
  | .broadcast call id subId =>
      let now := server.now a.sessions a.standing
      some { a with traffic := (broadcast now call id subId a.traffic).1 }
  | .link session action =>
      let t := a.traffic session
      let sender := (server.now a.sessions a.standing).objects session
      (t.link.step c sender.toDataHandler (clients session) action).map fun link =>
        { a with traffic := Function.update a.traffic session { t with link } }

/-- The calls of a run that the session has accepted. -/
def addressed (session : Nat) :
    List (Option Nat) → (Nat → Standing) → List Action → List Call
  | _, _, [] => []
  | _, standing, .sessions sessions :: rest => addressed session sessions standing rest
  | sessions, standing, .standing other new :: rest =>
      addressed session sessions (Function.update standing other new) rest
  | sessions, standing, .broadcast call id subId :: rest =>
      let later := addressed session sessions standing rest
      if reaches (server.now sessions standing) call id subId session sessions.reduceOption then
        call :: later
      else later
  | sessions, standing, .link _ _ :: rest => addressed session sessions standing rest

/-- The session once its handshake has ended well. -/
def confirmed (session : Nat) : DataHandler :=
  ((server.objects session).standing ⟨.confirmed, [], []⟩).toDataHandler

/-- The steps that leave a session and its client connected. -/
def Action.Allowed (session : Nat) : Action → Prop
  | .sessions pointers => pointers.reduceOption.Nodup
  | .standing other new => other = session → new.condition ≠ .expired
  | .broadcast call _ _ => call.cargo.Fits c (confirmed server session)
  | .link _ _ => True

end

section
variable {server : NetworkServer} {call : Call} {id subId : List UInt8} {session : Nat}

theorem send_ok_iff {h : DataHandler} :
    (∃ job, call.send h = .ok job) ↔ h.Ready ∧ call.content.HasData := by
  have fails := @DataHandler.sentJob_fails_iff (call.send h)
  have same : h.sendContent [] call.content = sentJob (call.send h) := by
    cases call <;> rfl
  rw [← same, DataHandler.sendContent_fails_iff] at fails
  exact (not_iff_not.mp fails).symm

theorem reaches_iff {sessions : List Nat} :
    reaches server call id subId session sessions = true ↔ ∃ front back,
      sessions = front ++ session :: back ∧
      NetworkServer.Matches id subId (server.objects session).toDataHandler ∧
      ∀ other ∈ session :: front,
        NetworkServer.Matches id subId (server.objects other).toDataHandler →
          (server.objects other).Ready ∧ call.content.HasData := by
  induction sessions with
  | nil =>
      refine iff_of_false Bool.false_ne_true ?_
      rintro ⟨front, back, split, _⟩
      cases front <;> cases split
  | cons other rest ih =>
      rw [reaches]
      constructor
      · intro reached
        split at reached
        next matched =>
          split at reached
          next sends =>
            split at reached
            next same =>
              subst same
              refine ⟨[], rest, rfl, matched, fun x member _ => ?_⟩
              exact List.mem_singleton.mp member ▸ sends
            next =>
              obtain ⟨front, back, rfl, own, all⟩ := ih.mp reached
              refine ⟨other :: front, back, rfl, own, ?_⟩
              simp only [List.forall_mem_cons] at all ⊢
              exact ⟨all.1, fun _ => sends, all.2⟩
          next => cases reached
        next passed =>
          obtain ⟨front, back, rfl, own, all⟩ := ih.mp reached
          refine ⟨other :: front, back, rfl, own, ?_⟩
          simp only [List.forall_mem_cons] at all ⊢
          exact ⟨all.1, fun matched => absurd matched passed, all.2⟩
      · rintro ⟨front, back, split, own, all⟩
        cases front with
        | nil =>
            cases split
            rw [if_pos own, if_pos (all _ List.mem_cons_self own), if_pos rfl]
        | cons x front =>
            cases split
            simp only [List.forall_mem_cons] at all
            have later := ih.mpr ⟨front, back, rfl, own, List.forall_mem_cons.mpr ⟨all.1, all.2.2⟩⟩
            split
            next matched =>
              rw [if_pos (all.2.1 matched), later]
              split <;> rfl
            next => exact later

/-- The loop: induction on the sessions. -/
theorem walk_traffic {sessions : List Nat} (distinct : sessions.Nodup) (traffic : Nat → Traffic) :
    (walk (visit server call id subId) sessions traffic).1 session =
      if reaches server call id subId session sessions then
        (traffic session).collect call (sentJob (call.send (server.objects session).toDataHandler))
      else traffic session := by
  induction sessions generalizing traffic with
  | nil => rfl
  | cons other rest ih =>
      obtain ⟨new, distinct⟩ := List.nodup_cons.mp distinct
      rw [reaches]
      by_cases matched : NetworkServer.Matches id subId (server.objects other).toDataHandler
      · have called : server.visit (fun _ h => sentJob (call.send h)) id subId 0 (some other) = _ :=
          NetworkServer.visit_match _ matched
        have sends := @send_ok_iff call (server.objects other).toDataHandler
        rw [if_pos matched]
        cases sent : call.send (server.objects other).toDataHandler with
        | error what =>
            have refuses : ¬ ((server.objects other).Ready ∧ call.content.HasData) := by
              rw [← sends, sent]
              rintro ⟨job, same⟩
              cases same
            have halts : visit server call id subId traffic other = (traffic, .error what) := by
              rw [visit, called, sent]
              exact Prod.ext (Function.update_eq_self_iff.mpr (Traffic.collect_error ..)) rfl
            rw [walk_cons_of_error halts, if_neg refuses]
            rfl
        | ok job =>
            rw [if_pos (sends.mp ⟨job, sent⟩)]
            let t := (traffic other).collect call (sentJob (.ok job))
            have passes : visit server call id subId traffic other =
                (Function.update traffic other t, .ok ()) := by
              rw [visit, called, sent]
              rfl
            rw [walk_cons_of_ok passes, ih distinct]
            by_cases same : other = session
            · subst same
              have gone : reaches server call id subId other rest = false :=
                Bool.eq_false_iff.mpr fun reached => by
                  obtain ⟨front, back, rfl, _⟩ := reaches_iff.mp reached
                  exact new (List.mem_append_right _ List.mem_cons_self)
              rw [gone, if_pos rfl, if_neg Bool.false_ne_true, if_pos rfl, Function.update_self, sent]
            · rw [if_neg same, Function.update_of_ne (Ne.symm same)]
      · have passed : server.visit (fun _ h => sentJob (call.send h)) id subId 0 (some other) = none :=
          NetworkServer.visit_other _ matched
        rw [if_neg matched, walk_cons_of_ok (by rw [visit, passed]), ih distinct]

theorem broadcast_traffic (distinct : server.sessions.reduceOption.Nodup)
    (traffic : Nat → Traffic) :
    (broadcast server call id subId traffic).1 session =
      if reaches server call id subId session server.sessions.reduceOption then
        (traffic session).collect call (sentJob (call.send (server.objects session).toDataHandler))
      else traffic session := by
  rw [broadcast, walk_unlessNull]
  exact walk_traffic distinct traffic

/-- The reply is that of the function of the server, which makes the same calls. -/
theorem broadcast_reply (server : NetworkServer) (guids : Nat → Guid) (traffic : Nat → Traffic) :
    (broadcast server call id subId traffic).2 =
      (server.sendContent guids id subId call.content).2 := by
  have content : server.sendContent guids id subId call.content =
      visits (server.visit (fun _ h => sentJob (call.send h)) id subId) 0 server.sessions := by
    cases call <;> rfl
  rw [content, broadcast]
  generalize server.sessions = sessions, 0 = position
  induction sessions generalizing traffic position with
  | nil => rfl
  | cons entry rest ih =>
      have first : server.visit (fun _ h => sentJob (call.send h)) id subId position entry =
          server.visit (fun _ h => sentJob (call.send h)) id subId 0 entry := by
        cases entry <;> rfl
      rw [visits, first]
      cases visited : server.visit (fun _ h => sentJob (call.send h)) id subId 0 entry with
      | none =>
          have passes : unlessNull (visit server call id subId) traffic entry =
              (traffic, .ok ()) := by
            cases entry with
            | none => rfl
            | some session => rw [unlessNull, visit, visited]
          rw [walk_cons_of_ok passes]
          exact ih _ _
      | some called =>
          obtain ⟨sent, reply⟩ := called
          cases entry with
          | none => cases visited
          | some session =>
              have does : unlessNull (visit server call id subId) traffic (some session) =
                  (Function.update traffic session ((traffic session).collect call sent),
                    reply) := by
                rw [unlessNull, visit, visited]
              cases reply with
              | error what => rw [walk_cons_of_error does]
              | ok =>
                  rw [walk_cons_of_ok does]
                  exact ih _ _

end

/-- A session that is not expired does its jobs alike, wherever its handshake is. -/
theorem work_standing (c : Codecs) (s : ServerSession) {old new : Standing}
    (live : old.condition ≠ .expired) (live' : new.condition ≠ .expired) (job : Job) :
    (s.standing old).toDataHandler.work c job = (s.standing new).toDataHandler.work c job := by
  have alive : ∀ body, (s.standing old).toDataHandler.alive body =
      (s.standing new).toDataHandler.alive body := by
    intro body
    unfold DataHandler.alive
    rw [if_neg (show (s.standing old).condition ≠ .expired from live),
      if_neg (show (s.standing new).condition ≠ .expired from live')]
    rfl
  cases job with
  | encryptMessage data => exact congrArg some (alive _)
  | compressMessage data => exact congrArg some (alive _)
  | sendingJob data => rfl
  | decompressMessage data => exact congrArg some (alive _)
  | decryptMessage data => exact congrArg some (alive _)
  | receivingJob data => rfl
  | _ => rfl

theorem step_standing (c : Codecs) (s : ServerSession) (receiver : DataHandler)
    {old new : Standing} (live : old.condition ≠ .expired) (live' : new.condition ≠ .expired)
    (l : Link) (action : Link.Action) :
    l.step c (s.standing old).toDataHandler receiver action =
      l.step c (s.standing new).toDataHandler receiver action := by
  cases action with
  | sender position =>
      refine congrArg (Option.bind _) (funext fun ⟨job, rest⟩ => ?_)
      simp only [Link.workStep, work_standing c s live live']
  | deliver => rfl
  | receiver position => rfl

section
variable {server : NetworkServer} {c : Codecs} {clients : Nat → DataHandler} {session : Nat}

/-- A session that can send sends the same as the confirmed one. -/
theorem send_confirmed {call : Call} {standing : Standing} {job : Job}
    (sent : call.send ((server.objects session).standing standing).toDataHandler = .ok job) :
    call.send (confirmed server session) = .ok job := by
  obtain ⟨ready, some_⟩ := send_ok_iff.mp ⟨job, sent⟩
  obtain ⟨job', sent'⟩ := send_ok_iff.mpr
    ⟨show (confirmed server session).Ready from ⟨rfl, ready.2⟩, some_⟩
  rw [sent', (Call.send_accepted sent).2, (Call.send_accepted sent').2]

/-- What one session sees of a step of the server. -/
theorem step_projects {a b : Audience} {act : Action} (allowed : act.Allowed server c session)
    (distinct : a.sessions.reduceOption.Nodup) (live : (a.standing session).condition ≠ .expired)
    (stepped : a.step server c clients act = some b) :
    (∃ actions new,
      run (Traffic.step c (confirmed server session) (clients session)) (a.traffic session) actions =
        some (b.traffic session) ∧
      (∀ x ∈ actions, x.Fits c (confirmed server session)) ∧
      (b.traffic session).accepted = (a.traffic session).accepted ++ new ∧
      ∀ rest, addressed server session a.sessions a.standing (act :: rest) =
        new ++ addressed server session b.sessions b.standing rest) ∧
    b.sessions.reduceOption.Nodup ∧ (b.standing session).condition ≠ .expired := by
  cases act with
  | sessions pointers =>
      cases stepped
      exact ⟨⟨[], [], rfl, fun _ member => (by cases member), (List.append_nil _).symm,
        fun _ => rfl⟩, allowed, live⟩
  | standing other new =>
      cases stepped
      refine ⟨⟨[], [], rfl, fun _ member => (by cases member), (List.append_nil _).symm,
        fun _ => rfl⟩, distinct, ?_⟩
      dsimp only
      by_cases same : session = other
      · subst same
        rw [Function.update_self]
        exact allowed rfl
      · rw [Function.update_of_ne same]
        exact live
  | broadcast call id subId =>
      cases stepped
      refine ⟨?_, distinct, live⟩
      have told := @broadcast_traffic (server.now a.sessions a.standing) call id subId session
        distinct a.traffic
      dsimp only
      by_cases reached : reaches (server.now a.sessions a.standing) call id subId session
          (server.now a.sessions a.standing).sessions.reduceOption = true
      · obtain ⟨_, _, _, matched, sends⟩ := reaches_iff.mp reached
        obtain ⟨job, sent⟩ := send_ok_iff.mpr (sends _ List.mem_cons_self matched)
        refine ⟨[.call call], [call], run_single ?_, ?_, ?_, fun rest => if_pos reached⟩
        · rw [told, if_pos reached, sent]
          simp only [Traffic.step, send_confirmed sent]
          rfl
        · intro x member
          rw [List.mem_singleton.mp member]
          exact allowed
        · rw [told, if_pos reached, sent]
          rfl
      · refine ⟨[], [], ?_, fun _ member => (by cases member), ?_, fun rest => if_neg reached⟩
        · rw [told, if_neg reached]
          rfl
        · rw [told, if_neg reached, List.append_nil]
  | link other action =>
      obtain ⟨link, moved, rfl⟩ := Option.map_eq_some_iff.mp stepped
      refine ⟨?_, distinct, live⟩
      dsimp only at moved ⊢
      by_cases same : session = other
      · subst same
        have moved' : (a.traffic session).link.step c (confirmed server session) (clients session)
            action = some link :=
          (step_standing c (server.objects session) _ (fun other => (by cases other)) live _ _).trans
            moved
        refine ⟨[.link action], [], run_single ?_, ?_, ?_, fun _ => rfl⟩
        · rw [Function.update_self]
          exact congrArg (Option.map _) moved'
        · intro x member
          rw [List.mem_singleton.mp member]
          trivial
        · rw [Function.update_self, List.append_nil]
      · refine ⟨[], [], ?_, fun _ member => (by cases member), ?_, fun _ => rfl⟩
        · rw [Function.update_of_ne same]
          rfl
        · rw [Function.update_of_ne same, List.append_nil]

/-- What one session sees of a run. -/
theorem run_projects {a b : Audience} {actions : List Action}
    (allowed : ∀ x ∈ actions, x.Allowed server c session)
    (distinct : a.sessions.reduceOption.Nodup) (live : (a.standing session).condition ≠ .expired)
    (ran : run (step server c clients) a actions = some b) :
    ∃ seen, run (Traffic.step c (confirmed server session) (clients session)) (a.traffic session)
        seen = some (b.traffic session) ∧
      (∀ x ∈ seen, x.Fits c (confirmed server session)) ∧
      (b.traffic session).accepted = (a.traffic session).accepted ++
        addressed server session a.sessions a.standing actions := by
  induction actions generalizing a with
  | nil =>
      cases ran
      exact ⟨[], rfl, fun _ member => (by cases member), (List.append_nil _).symm⟩
  | cons act rest ih =>
      rw [List.forall_mem_cons] at allowed
      obtain ⟨next, stepped, ran⟩ := run_cons.mp ran
      obtain ⟨⟨first, new, one, fits, accepted, split⟩, distinct, live⟩ :=
        step_projects allowed.1 distinct live stepped
      obtain ⟨later, two, fits', accepted'⟩ := ih allowed.2 distinct live ran
      refine ⟨first ++ later, run_append.mpr ⟨_, one, two⟩, ?_, ?_⟩
      · intro x member
        exact (List.mem_append.mp member).elim (fits x) (fits' x)
      · rw [accepted', accepted, split, List.append_assoc]

end

/-- Two sessions of which the first one has not been answered yet. -/
def pair : NetworkServer :=
  .running [] (fun _ =>
    { toNetworkSession :=
        { toPeer := { Peer.connected with
            toDataHandler := { DataHandler.connected with condition := .waiting } }
          receivedConnectionCallback := none }
      receivedFilesCallback := false }) true fun _ => []

/-- The first broadcast ends at the session that still waits. -/
def lateHandshake : List Action :=
  [.sessions [some 0, none, some 1], .standing 1 ⟨.confirmed, [7], []⟩,
    .broadcast (.message [104]) [] [], .standing 0 ⟨.confirmed, [7], []⟩,
    .broadcast (.message [105]) [7] [], .link 1 (.sender 0), .link 1 (.sender 0),
    .link 1 (.sender 0), .link 1 .deliver, .link 1 (.receiver 0), .link 1 (.receiver 0),
    .link 1 (.receiver 0)]

example : addressed pair 1 [] (initial pair).standing lateHandshake = [.message [105]] := by
  decide +kernel

end Audience
end CppToolkit.Network
