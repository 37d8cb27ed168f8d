import CppToolkit.Library.Bag
import CppToolkit.Network.Handshake

/-! How often a peer tells its application between one start and the next that the
connection is lost. -/
namespace CppToolkit.Network
open Memory Utilities Machine Bag

/-- What the JSON library promises: two objects that end in different conditions have
different texts. -/
def World.Tells (w : World) : Prop :=
  ∀ front back, w.serialize (front ++ [("condition", .bool true)]) ≠
    w.serialize (back ++ [("condition", .bool false)])

namespace NetworkSession

/-- The callback is told that the connection is lost, by a job or by a call. -/
def Lost (w : World) (e : Effect) : Prop :=
  ∃ t : NetworkSession, e = .push (.receivedConnectionJob (t.connectionMessage w false)) ∨
    e = .sessionCallback (t.connectionMessage w false)

/-- A `Connection` packet that comes to the comparison of the registered key and fails. -/
def Refuses (w : World) (s : NetworkSession) : Event → Prop
  | .packet mode data => DataModes.ofCode mode = some .connection ∧ s.condition = .waiting ∧
      data ≠ [] ∧ ∃ message id key, w.parse (Converter.toString data) = .ok message ∧
        message "id" = some (.string id) ∧ message "registered_key" = some key ∧
          s.accepts key = false
  | _ => False

/-- What an event tells the callback. -/
structure Reported (w : World) (s : NetworkSession) (e : Event)
    (h : Handling NetworkSession Effect) : Prop where
  waiting : h.peer.condition = .waiting → s.condition = .waiting ∧ h.peer.threadPool = s.threadPool
  lost : (∃ e ∈ h.effects, Lost w e) → s.condition ≠ .expired ∧ h.peer.condition = .expired
  once : AtMostOne (Lost w) h.effects ↔ ¬ Refuses w s e

section
variable {w : World} {s : NetworkSession} {e : Event} {h : Handling NetworkSession Effect}

theorem not_lost_of_body {e : Effect} (ofBody : e.ofBody = true) : ¬ Lost w e := by
  rintro ⟨t, rfl | rfl⟩ <;> cases ofBody

theorem not_lost_of_packet {e : Effect} {packet : List UInt8} (sent : e.packet = some packet) :
    ¬ Lost w e := by
  rintro ⟨t, rfl | rfl⟩ <;> cases sent

theorem atMostOne_pushed (P : Effect → Prop) (push : Except String Job) : AtMostOne P (pushed push) := by
  cases push with
  | error what => exact List.Pairwise.nil
  | ok job => exact atMostOne_singleton P _

/-- What `send` pushes is no notification. -/
theorem send_not_lost {handler : DataHandler} {data : List UInt8} {mode : DataModes} {e : Effect}
    (member : e ∈ pushed (handler.send mode data)) : ¬ Lost w e := by
  cases sent : handler.send mode data with
  | error what =>
      rw [sent] at member
      cases member
  | ok job =>
      rw [sent] at member
      rw [List.mem_singleton.mp member, (DataHandler.send_eq_ok sent).2]
      split <;> exact not_lost_of_packet rfl

theorem connectionMessage_apart (tells : w.Tells) (s t : NetworkSession) :
    s.connectionMessage w true ≠ t.connectionMessage w false :=
  tells
    [("id", .string s.id), ("sub_id", .string s.subId), ("key", .string s.key),
      ("iv", .string s.iv), ("encrypt_mode", .bool s.encryptMode)]
    [("id", .string t.id), ("sub_id", .string t.subId), ("key", .string t.key),
      ("iv", .string t.iv), ("encrypt_mode", .bool t.encryptMode)]

theorem responseConnection_accepts (tells : w.Tells) :
    ∀ e ∈ (s.responseConnection w true).effects, ¬ Lost w e := by
  have apart := connectionMessage_apart tells (s.createKey w)
  unfold responseConnection
  dsimp only
  split
  next =>
    intro e member
    rcases List.mem_append.mp member with job | answer
    · cases push : (s.createKey w).toDataHandler.push
        (.receivedConnectionJob ((s.createKey w).connectionMessage w true)) with
      | error what =>
          rw [push] at job
          cases job
      | ok pushed =>
          rw [push, DataHandler.push_eq_ok push] at job
          rw [List.mem_singleton.mp job]
          rintro ⟨t, same | same⟩
          · exact apart t (Job.receivedConnectionJob.inj (Effect.push.inj same))
          · cases same
    · exact send_not_lost answer
  next =>
    split
    next => exact fun _ member => (by cases member)
    next =>
      intro e member
      rw [List.mem_singleton.mp member]
      rintro ⟨t, same | same⟩
      · cases same
      · exact apart t (Effect.sessionCallback.inj same)

theorem responseConnection_refuses :
    AtMostOne (Lost w) (s.responseConnection w false).effects := by
  unfold responseConnection
  dsimp only
  split
  next =>
    refine atMostOne_append.mpr ⟨atMostOne_pushed _ _, atMostOne_pushed _ _, ?_⟩
    rintro ⟨_, e, answer, lost⟩
    exact send_not_lost answer lost
  next =>
    split
    next => exact List.Pairwise.nil
    next => exact atMostOne_singleton _ _

/-- With a pool the refusal queues a notification, and no exception follows. -/
theorem responseConnection_pooled (pooled : s.threadPool = some false) :
    (∃ e ∈ (s.responseConnection w false).effects, Lost w e) ∧
      ∃ result, (s.responseConnection w false).reply = .ok result := by
  have kept : (s.createKey w).threadPool = some false := by
    unfold createKey
    split <;> exact pooled
  have accepted : (s.createKey w).push
      (.receivedConnectionJob ((s.createKey w).connectionMessage w false)) =
        .ok (.receivedConnectionJob ((s.createKey w).connectionMessage w false)) := by
    rw [DataHandler.push, kept]
  unfold responseConnection
  dsimp only
  rw [kept]
  dsimp only
  refine ⟨⟨_, ?_, s.createKey w, .inl rfl⟩, ?_⟩
  · rw [accepted]
    exact List.mem_append_left _ (List.mem_singleton_self _)
  · cases (s.createKey w).send .connection ((s.createKey w).connectionMessage w false) with
    | error what => exact ⟨_, rfl⟩
    | ok job => exact ⟨_, rfl⟩

/-- Nobody is told anything, and nothing is refused. -/
theorem Reported.quiet (waiting : h.peer.condition = .waiting →
      s.condition = .waiting ∧ h.peer.threadPool = s.threadPool)
    (none_ : ∀ e ∈ h.effects, ¬ Lost w e) (accepted : ¬ Refuses w s e) : Reported w s e h where
  waiting := waiting
  lost := fun ⟨e, member, lost⟩ => absurd lost (none_ e member)
  once := ⟨fun _ => accepted, fun _ => atMostOne_of_none none_⟩

/-- A session that expires tells the callback once. -/
theorem expires_reported {byItself : Bool} (expired : h.peer.condition = .expired)
    (same : h.effects = (s.setCondition w .expired byItself).effects)
    (accepted : ¬ Refuses w s e) : Reported w s e h := by
  refine ⟨fun waiting => ?_, ?_, ?_⟩
  · rw [expired] at waiting
    cases waiting
  · rintro ⟨e, member, _⟩
    refine ⟨fun before => ?_, expired⟩
    rw [same, setCondition, DataHandler.setCondition, if_pos before] at member
    cases member
  · refine ⟨fun _ => accepted, fun _ => ?_⟩
    rw [same, setCondition, DataHandler.setCondition]
    split
    next => exact List.Pairwise.nil
    next =>
      rw [if_pos rfl]
      unfold disconnected
      rw [Handling.andThen_nothing _ fun _ => rfl]
      exact responseConnection_refuses

/-- The same with more to do behind the setter. -/
theorem expires_reported_then {byItself : Bool}
    {last : NetworkSession → Handling NetworkSession Effect}
    (kept : ∀ s, (last s).peer.condition = s.condition) (none_ : ∀ s, (last s).effects = [])
    (accepted : ¬ Refuses w s e) :
    Reported w s e ((s.setCondition w .expired byItself).andThen last) := by
  refine expires_reported ?_ (Handling.andThen_nothing _ none_) accepted
  exact Handling.andThen_peer (I := fun s => s.condition = .expired)
    (setCondition_inert w s .expired byItself).condition fun t same => (kept t).trans same

theorem setCondition_expires {byItself : Bool} (live : s.condition ≠ .expired) :
    s.setCondition w .expired byItself = disconnected w byItself { s with condition := .expired } := by
  rw [setCondition, DataHandler.setCondition, if_neg live, if_pos rfl]

/-- The refusal tells the callback twice: the setter does, and the handler does. -/
theorem refusal_tells_twice (live : s.condition ≠ .expired) (pooled : s.threadPool = some false) :
    ¬ AtMostOne (Lost w)
      ((s.setCondition w .expired false).andThen fun s => s.responseConnection w false).effects := by
  have kept : ∀ {t : NetworkSession}, t.threadPool = some false →
      (t.responseConnection w false).peer.threadPool = some false := by
    intro t pooled
    rw [responseConnection_peer, createKey]
    split <;> exact pooled
  rw [setCondition_expires live, disconnected]
  have pooled : ({ s with condition := .expired } : NetworkSession).threadPool = some false := pooled
  generalize ({ s with condition := .expired } : NetworkSession) = t at pooled ⊢
  obtain ⟨first, result, replied⟩ := responseConnection_pooled (w := w) pooled
  obtain ⟨second, _⟩ := responseConnection_pooled (w := w) (kept pooled)
  have effects : (((t.responseConnection w false).andThen fun s => ⟨s, [], done⟩).andThen
      fun s => s.responseConnection w false).effects = (t.responseConnection w false).effects ++
        ((t.responseConnection w false).peer.responseConnection w false).effects := by
    simp only [Handling.andThen, replied, done, List.append_nil]
  rw [effects, atMostOne_append]
  exact fun once => once.2.2 ⟨first, second⟩

/-- A session that takes the key. -/
theorem accepts_reported (tells : w.Tells) (kept : ¬ Refuses w s e) (id : List UInt8) :
    Reported w s e (({ s with id }.setCondition w .confirmed false).andThen
      fun s => s.responseConnection w true) := by
  have silent := setCondition_inert w { s with id } .confirmed false
  refine .quiet (fun again => ?_) ?_ kept
  · have confirmed := silent.andThen fun t (same : t.condition = .confirmed) =>
      same ▸ responseConnection_inert w t true
    rw [confirmed.condition] at again
    cases again
  · refine Handling.andThen_effects (I := fun e => ¬ Lost w e) ?_ (responseConnection_accepts tells)
    rw [setCondition_live w _ (by decide)]
    exact fun _ member => by cases member

/-- A session that waits, with its pool, and refuses the key. -/
theorem refuses_reported (waiting : s.condition = .waiting) (pooled : s.threadPool = some false)
    (refused : Refuses w s e) (id : List UInt8) :
    Reported w s e (({ s with id }.setCondition w .expired false).andThen
      fun s => s.responseConnection w false) := by
  have live : s.condition ≠ .expired := by
    rw [waiting]
    decide
  have twice := @refusal_tells_twice w { s with id } live pooled
  have expired := (setCondition_inert w { s with id } .expired false).andThen
    fun t (same : t.condition = .expired) => same ▸ responseConnection_inert w t false
  refine ⟨fun again => ?_, fun _ => ⟨live, expired.condition⟩,
    fun once => absurd once twice, fun accepted => absurd refused accepted⟩
  rw [expired.condition] at again
  cases again

theorem receivedConnection_reported (tells : w.Tells)
    (pooled : s.condition = .waiting → s.threadPool = some false) {mode : UInt8} {data : List UInt8}
    (known : DataModes.ofCode mode = some .connection) :
    Reported w s (.packet mode data) (s.receivedConnection w data) := by
  have nothing : ∀ {reply : Reply}, ¬ Refuses w s (.packet mode data) →
      Reported w s (.packet mode data) ⟨s, [], reply⟩ := fun accepted =>
    .quiet (fun waiting => ⟨waiting, rfl⟩) (fun _ member => by cases member) accepted
  unfold receivedConnection
  split
  next other => exact nothing fun refused => other refused.2.1
  next waiting =>
  have waiting := Decidable.not_not.mp waiting
  split
  next empty => exact nothing fun refused => refused.2.2.1 empty
  next some_ =>
  split
  next failed =>
    refine nothing ?_
    rintro ⟨_, _, _, message, id, key, parsed, _⟩
    cases failed.symm.trans parsed
  next message parsed =>
  split
  next missing =>
    refine nothing ?_
    rintro ⟨_, _, _, _, id, key, parsed', found, _⟩
    cases parsed.symm.trans parsed'
    cases missing.symm.trans found
  next id found =>
    dsimp only
    split
    next missing =>
      refine .quiet (fun waiting => ⟨waiting, rfl⟩) (fun _ member => by cases member) ?_
      rintro ⟨_, _, _, _, _, key, parsed', _, keyed, _⟩
      cases parsed.symm.trans parsed'
      cases missing.symm.trans keyed
    next key keyed =>
      split
      next accepted =>
        refine accepts_reported tells ?_ _
        rintro ⟨_, _, _, _, _, _, parsed', _, keyed', wrong⟩
        cases parsed.symm.trans parsed'
        cases keyed.symm.trans keyed'
        exact Bool.false_ne_true (wrong.symm.trans accepted)
      next wrong =>
        have refused : Refuses w s (.packet mode data) :=
          ⟨known, waiting, some_, message, id, key, parsed, found, keyed, eq_false_of_ne_true wrong⟩
        exact refuses_reported waiting (pooled waiting) refused _
  next value other found =>
    refine nothing ?_
    rintro ⟨_, _, _, _, id, _, parsed', found', _⟩
    cases parsed.symm.trans parsed'
    cases found.symm.trans found'
    exact other id rfl

/-- A handler of application packets tells the callback of a stranger that it expels. -/
theorem expireFirst_reported {what : String} {body : Peer → Checked (Handling Peer Effect)}
    (confined : ∀ h, body s.toPeer = .ok h → s.toPeer.Confined h) (accepted : ¬ Refuses w s e)
    (handled : s.expireFirst w what body = .ok h) : Reported w s e h := by
  rcases confirmedOnly_cases handled with ⟨_, rfl⟩ | ⟨_, inner, ended, rfl⟩
  · exact expires_reported_then (fun _ => rfl) (fun _ => rfl) accepted
  · have confined := confined inner ended
    refine .quiet (fun waiting => ?_) (fun e member => not_lost_of_body (confined.effects e member))
      accepted
    have same : inner.peer.condition = s.condition := congrArg DataHandler.condition confined.base
    exact ⟨same.symm.trans waiting, congrArg DataHandler.threadPool confined.base⟩

theorem process_reported (tells : w.Tells)
    (pooled : s.condition = .waiting → s.threadPool = some false)
    (handled : s.process w e = .ok h) : Reported w s e h := by
  cases e with
  | packet mode data =>
      have foreign : DataModes.ofCode mode ≠ some .connection → ¬ Refuses w s (.packet mode data) :=
        fun other refused => other refused.1
      simp only [process, onReceivedData] at handled
      split at handled
      next unknown =>
        cases handled
        refine .quiet (fun waiting => ⟨waiting, rfl⟩) (fun _ member => by cases member) (foreign ?_)
        rw [unknown]
        decide
      next known =>
        cases handled
        exact receivedConnection_reported tells pooled known
      next binary =>
        refine expireFirst_reported (fun _ => Peer.handleBinary_confined) (foreign ?_) handled
        rw [binary]
        decide
      next message =>
        refine expireFirst_reported (fun _ => Peer.handleMessage_confined) (foreign ?_) handled
        rw [message]
        decide
      next file =>
        refine expireFirst_reported (fun _ => Peer.handleFile_confined) (foreign ?_) handled
        rw [file]
        decide
  | readError =>
      cases handled
      exact expires_reported (setCondition_inert w s .expired false).condition rfl id
  | stop =>
      cases handled
      exact expires_reported_then (fun _ => rfl) (fun _ => rfl) id

end

end NetworkSession

namespace SessionRun
open NetworkSession

/-- Everything that the events of a run have caused. -/
def effects (r : SessionRun) : List Effect := r.history.flatMap fun p => p.handling.effects

/-- A session that is not expired has told nobody, and one that waits has its pool. -/
structure Untold (w : World) (r : SessionRun) : Prop where
  silent : r.session.condition ≠ .expired → ∀ e ∈ r.effects, ¬ Lost w e
  pooled : r.session.condition = .waiting → r.session.threadPool = some false

section
variable {w : World} {r t : SessionRun} {e : Event}

theorem step_reported (tells : w.Tells) (untold : Untold w r) (stepped : step w r e = some t) :
    ∃ h, Reported w r.session e h ∧ t.session = h.peer ∧ t.effects = r.effects ++ h.effects ∧
      (r.session.condition = .expired → h.peer.condition = .expired) := by
  obtain ⟨h, processed, rfl⟩ := step_eq_some_iff.mp stepped
  refine ⟨h, process_reported tells untold.pooled processed, rfl, ?_,
    (process_guarded w r.session processed).expired⟩
  rw [effects, List.flatMap_append]
  exact congrArg _ (List.append_nil _)

theorem step_untold (tells : w.Tells) (untold : Untold w r) (stepped : step w r e = some t) :
    Untold w t := by
  obtain ⟨h, reported, session, effects, expired⟩ := step_reported tells untold stepped
  refine ⟨fun live e member => ?_, fun waiting => ?_⟩
  · rw [session] at live
    rw [effects] at member
    rcases List.mem_append.mp member with old | new
    · exact untold.silent (fun before => live (expired before)) e old
    · exact fun lost => live (reported.lost ⟨e, new, lost⟩).2
  · rw [session] at waiting ⊢
    obtain ⟨before, same⟩ := reported.waiting waiting
    exact same.trans (untold.pooled before)

/-- A step tells a second time exactly where it refuses a key. -/
theorem step_once_iff (tells : w.Tells) (untold : Untold w r) (stepped : step w r e = some t) :
    AtMostOne (Lost w) t.effects ↔ AtMostOne (Lost w) r.effects ∧ ¬ Refuses w r.session e := by
  obtain ⟨h, reported, _, effects, _⟩ := step_reported tells untold stepped
  rw [effects, atMostOne_append_of_silent fun new => untold.silent (reported.lost new).1,
    reported.once]

theorem started_untold (w : World) (s : NetworkSession) (connectedSocket : Option Bool)
    (socketBufferSize : Nat) : Untold w ⟨s.start w connectedSocket socketBufferSize, []⟩ := by
  refine ⟨fun _ _ member => (by cases member), fun waiting => ?_⟩
  have none_ := (setCondition_inert w s .none false).condition
  cases connectedSocket with
  | none =>
      change (s.setCondition w .none false).peer.condition = _ at waiting
      rw [none_] at waiting
      cases waiting
  | some isOpen =>
      cases isOpen with
      | false =>
          change (s.setCondition w .none false).peer.condition = _ at waiting
          rw [none_] at waiting
          cases waiting
      | true => rfl

end

end SessionRun

/-- The callback of a client is called with `false`, or a job is queued that does. -/
def Effect.tellsLost : Effect → Bool
  | .clientCallback condition _ => !condition
  | .push (.connectionJob condition _) => !condition
  | _ => false

namespace NetworkClient

/-- `awaited` is whether a `wait_stop` waits for the `stop`. -/
inductive Event where
  | packet (mode : UInt8) (data : List UInt8)
  | readError
  | stop (awaited : Bool)
  deriving DecidableEq, Repr

def process (w : World) (c : NetworkClient) : Event → Checked (Handling NetworkClient Effect)
  | .packet mode data => c.onReceivedData w mode data
  | .readError => .ok (c.setCondition .expired false)
  | .stop awaited => .ok (c.stop awaited)

/-- The fields of an answer, up to the condition. -/
structure Answer (message : String → Option Json) : Prop where
  id : ∃ value, message "id" = some (.string value)
  subId : ∃ value, message "sub_id" = some (.string value)
  key : message "key" ≠ none
  iv : message "iv" ≠ none
  encryptMode : message "encrypt_mode" ≠ none

/-- A `Connection` packet that turns a waiting client away, whose callback returns when it
is told. -/
def TurnedAway (w : World) (c : NetworkClient) : Event → Prop
  | .packet mode data => DataModes.ofCode mode = some .connection ∧ c.condition = .waiting ∧
      data ≠ [] ∧ (∃ message, w.parse (Converter.toString data) = .ok message ∧
        Answer message ∧ message "condition" = some (.bool false)) ∧
      ∃ callback reply, c.receivedConnectionCallback = some callback ∧
        callback false false = .ok reply
  | _ => False

/-- What an event tells the callback. -/
structure Reported (w : World) (c : NetworkClient) (e : Event)
    (h : Handling NetworkClient Effect) : Prop where
  waiting : h.peer.condition = .waiting → c.condition = .waiting ∧ h.peer.threadPool = c.threadPool
  expired : c.condition = .expired → h.peer.condition = .expired
  lost : (∃ e ∈ h.effects, e.tellsLost = true) → c.condition ≠ .expired ∧ h.peer.condition = .expired
  once : AtMostOne (·.tellsLost = true) h.effects ↔ ¬ TurnedAway w c e

section
variable {w : World} {c : NetworkClient} {e : Event} {h : Handling NetworkClient Effect}

theorem tellsLost_of_body {e : Effect} (ofBody : e.ofBody = true) : e.tellsLost = false := by
  cases e with
  | push job =>
      cases job with
      | connectionJob => cases ofBody
      | _ => rfl
  | clientCallback => cases ofBody
  | _ => rfl

/-- The client as the callback finds it. -/
def lostClient (c : NetworkClient) : NetworkClient :=
  { c with condition := .expired, key := [], iv := [] }

theorem setCondition_unset {byItself : Bool} (live : c.condition ≠ .expired)
    (unset : c.receivedConnectionCallback = none) :
    c.setCondition .expired byItself = ⟨c.lostClient, [], done⟩ := by
  obtain ⟨peer, stored⟩ := c
  cases unset
  rw [setCondition, DataHandler.setCondition, if_neg live]
  rfl

theorem setCondition_set {byItself : Bool} {callback : Bool → Bool → Reply}
    (live : c.condition ≠ .expired) (set : c.receivedConnectionCallback = some callback) :
    c.setCondition .expired byItself =
      ⟨c.lostClient, [.clientCallback false byItself],
        (callback false byItself).bind fun _ => done⟩ := by
  obtain ⟨peer, stored⟩ := c
  cases set
  rw [setCondition, DataHandler.setCondition, if_neg live, if_pos rfl, disconnected]
  dsimp only
  cases called : callback false byItself with
  | error what => simp only [Handling.andThen, Except.bind, lostClient]
  | ok reply => simp only [Handling.andThen, Except.bind, lostClient, List.append_nil]

theorem setCondition_once (c : NetworkClient) (byItself : Bool) :
    AtMostOne (·.tellsLost = true) (c.setCondition .expired byItself).effects := by
  by_cases expired : c.condition = .expired
  · rw [setCondition, DataHandler.setCondition, if_pos expired]
    exact List.Pairwise.nil
  · cases set : c.receivedConnectionCallback with
    | none =>
        rw [setCondition_unset expired set]
        exact List.Pairwise.nil
    | some callback =>
        rw [setCondition_set expired set]
        exact atMostOne_singleton _ _

theorem Reported.quiet (waiting : h.peer.condition = .waiting →
      c.condition = .waiting ∧ h.peer.threadPool = c.threadPool)
    (expired : c.condition = .expired → h.peer.condition = .expired)
    (none_ : ∀ e ∈ h.effects, ¬ e.tellsLost = true) (kept : ¬ TurnedAway w c e) :
    Reported w c e h where
  waiting := waiting
  expired := expired
  lost := fun ⟨e, member, lost⟩ => absurd lost (none_ e member)
  once := ⟨fun _ => kept, fun _ => atMostOne_of_none none_⟩

/-- A client that expires tells the callback once. -/
theorem expires_reported {byItself : Bool} (expired : h.peer.condition = .expired)
    (same : h.effects = (c.setCondition .expired byItself).effects)
    (kept : ¬ TurnedAway w c e) : Reported w c e h := by
  refine ⟨fun waiting => ?_, fun _ => expired, ?_, fun _ => kept, fun _ => ?_⟩
  · rw [expired] at waiting
    cases waiting
  · rintro ⟨e, member, _⟩
    refine ⟨fun before => ?_, expired⟩
    rw [same, setCondition, DataHandler.setCondition, if_pos before] at member
    cases member
  · rw [same]
    exact setCondition_once c byItself

theorem expires_reported_then {byItself : Bool}
    {last : NetworkClient → Handling NetworkClient Effect}
    (kept : ∀ c, (last c).peer.condition = c.condition) (none_ : ∀ c, (last c).effects = [])
    (stays : ¬ TurnedAway w c e) :
    Reported w c e ((c.setCondition .expired byItself).andThen last) := by
  refine expires_reported ?_ (Handling.andThen_nothing _ none_) stays
  exact Handling.andThen_peer (I := fun c => c.condition = .expired)
    (c.setCondition_condition .expired byItself) fun t same => (kept t).trans same

theorem pushConnectionJob_tells {condition : Bool} {e : Effect}
    (member : e ∈ c.pushConnectionJob condition) : e.tellsLost = !condition := by
  unfold pushConnectionJob at member
  split at member
  next => cases member
  next =>
    cases push : c.push (.connectionJob condition true) with
    | error what =>
        rw [push] at member
        cases member
    | ok job =>
        rw [push, DataHandler.push_eq_ok push] at member
        rw [List.mem_singleton.mp member]
        rfl

theorem pushConnectionJob_unset (unset : c.receivedConnectionCallback = none) (condition : Bool) :
    c.pushConnectionJob condition = [] := by
  rw [pushConnectionJob, unset]
  rfl

theorem pushConnectionJob_set {callback : Bool → Bool → Reply} (pooled : c.threadPool = some false)
    (set : c.receivedConnectionCallback = some callback) (condition : Bool) :
    c.pushConnectionJob condition = [.push (.connectionJob condition true)] := by
  rw [pushConnectionJob, set, DataHandler.push, pooled]
  rfl

/-- What a client that is turned away does behind the setter. -/
def turnedAway (c : NetworkClient) : Handling NetworkClient Effect :=
  let c := { c with key := [], iv := [] }
  ⟨c, c.pushConnectionJob false, refuse "connection has expired by server"⟩

/-- The last field of an answer, for a client that waits with its pool. -/
structure Concluded (c : NetworkClient) (message : String → Option Json)
    (h : Handling NetworkClient Effect) : Prop where
  ended : h.peer.condition ≠ .waiting ∨ h.peer = c
  lost : (∃ e ∈ h.effects, e.tellsLost = true) → h.peer.condition = .expired
  once : AtMostOne (·.tellsLost = true) h.effects ↔
    ¬ (message "condition" = some (.bool false) ∧ ∃ callback reply,
      c.receivedConnectionCallback = some callback ∧ callback false false = .ok reply)

/-- A field that is not there or no Boolean ends the handler. -/
theorem concluded_nothing {message : String → Option Json} {reply : Reply}
    (other : message "condition" ≠ some (.bool false)) : Concluded c message ⟨c, [], reply⟩ :=
  ⟨.inr rfl, fun ⟨_, member, _⟩ => (by cases member), fun _ refused => other refused.1,
    fun _ => List.Pairwise.nil⟩

theorem concluded_confirmed {message : String → Option Json}
    (found : message "condition" = some (.bool true)) :
    Concluded c message ((c.setCondition .confirmed false).andThen
      fun c => ⟨c, c.pushConnectionJob true, done⟩) := by
  have confirmed : ((c.setCondition .confirmed false).andThen
      fun c => ⟨c, c.pushConnectionJob true, done⟩).peer.condition = .confirmed :=
    Handling.andThen_peer (I := fun c : NetworkClient => c.condition = .confirmed)
      (c.setCondition_condition .confirmed false) fun _ same => same
  have silent : ∀ e ∈ ((c.setCondition .confirmed false).andThen
      fun c => ⟨c, c.pushConnectionJob true, done⟩).effects, ¬ Effect.tellsLost e = true := by
    refine Handling.andThen_effects (I := fun e : Effect => ¬ e.tellsLost = true) ?_
      fun e member lost => ?_
    · rw [setCondition_live c (by decide)]
      exact fun _ member => by cases member
    · rw [pushConnectionJob_tells member] at lost
      cases lost
  refine ⟨.inl ?_, fun ⟨e, member, lost⟩ => absurd lost (silent e member), fun _ refused => ?_,
    fun _ => atMostOne_of_none silent⟩
  · rw [confirmed]
    decide
  · cases found.symm.trans refused.1

/-- The callback is told by the setter, and, if it returns, by a job. -/
theorem concluded_expired {message : String → Option Json} (live : c.condition ≠ .expired)
    (pooled : c.threadPool = some false) (found : message "condition" = some (.bool false)) :
    Concluded c message ((c.setCondition .expired false).andThen turnedAway) := by
  have ended : ((c.setCondition .expired false).andThen turnedAway).peer.condition = .expired :=
    Handling.andThen_peer (I := fun c : NetworkClient => c.condition = .expired)
      (c.setCondition_condition .expired false) fun _ same => same
  have gone : ((c.setCondition .expired false).andThen turnedAway).peer.condition ≠ .waiting := by
    rw [ended]
    decide
  refine ⟨.inl gone, fun _ => ended, ?_⟩
  cases set : c.receivedConnectionCallback with
  | none =>
      have effects : ((c.setCondition .expired false).andThen turnedAway).effects = [] := by
        rw [setCondition_unset live set]
        exact pushConnectionJob_unset set false
      rw [effects]
      refine ⟨fun _ refused => ?_, fun _ => List.Pairwise.nil⟩
      obtain ⟨_, callback, _, other, _⟩ := refused
      cases other
  | some callback =>
      rw [setCondition_set live set]
      cases called : callback false false with
      | error what =>
          refine ⟨fun _ refused => ?_, fun _ => atMostOne_singleton _ _⟩
          obtain ⟨_, other, reply, same, returned⟩ := refused
          cases same
          cases called.symm.trans returned
      | ok reply =>
          have effects : (Handling.andThen
              ⟨c.lostClient, [.clientCallback false false], (Except.ok reply).bind fun _ => done⟩
              turnedAway).effects =
                [.clientCallback false false, .push (.connectionJob false true)] :=
            congrArg (List.cons _) (pushConnectionJob_set pooled set false)
          rw [effects]
          refine ⟨fun once => ?_, fun kept => absurd ⟨found, callback, reply, rfl, called⟩ kept⟩
          exact absurd ⟨rfl, rfl⟩ (List.rel_of_pairwise_cons once (List.mem_singleton_self _))

theorem conclude_concluded (waiting : c.condition = .waiting) (pooled : c.threadPool = some false)
    (message : String → Option Json) : Concluded c message (c.conclude message) := by
  unfold conclude
  split
  next missing =>
    refine concluded_nothing fun refused => ?_
    cases missing.symm.trans refused
  next found => exact concluded_confirmed found
  next found =>
    refine concluded_expired ?_ pooled found
    rw [waiting]
    decide
  next value accepts refuses found =>
    refine concluded_nothing fun refused => ?_
    cases found.symm.trans refused
    exact refuses rfl

/-- What reading an answer leaves alone. -/
structure Alike (c d : NetworkClient) : Prop where
  condition : d.condition = c.condition
  threadPool : d.threadPool = c.threadPool
  callback : d.receivedConnectionCallback = c.receivedConnectionCallback

theorem Alike.trans {d f : NetworkClient} (first : Alike c d) (second : Alike d f) : Alike c f :=
  ⟨second.condition.trans first.condition, second.threadPool.trans first.threadPool,
    second.callback.trans first.callback⟩

theorem storeString_cases (message : String → Option Json) (name : String)
    (store : NetworkClient → List UInt8 → NetworkClient)
    (next : NetworkClient → Handling NetworkClient Effect) :
    (∃ what, (storeString message name store c).andThen next = ⟨c, [], .error what⟩ ∧
        ¬ ∃ value, message name = some (.string value)) ∨
      ∃ value, message name = some (.string value) ∧
        (storeString message name store c).andThen next = next (store c value) := by
  unfold storeString
  split
  next missing =>
    refine .inl ⟨_, rfl, ?_⟩
    rintro ⟨value, found⟩
    cases missing.symm.trans found
  next value found => exact .inr ⟨value, found, rfl⟩
  next other found =>
    refine .inl ⟨_, rfl, ?_⟩
    rintro ⟨value, found'⟩
    cases found.symm.trans found'
    exact other value rfl

theorem storeIf_cases (message : String → Option Json) (name : String)
    (store : NetworkClient → Json → NetworkClient)
    (next : NetworkClient → Handling NetworkClient Effect) :
    (∃ what, (storeIf message name store c).andThen next = ⟨c, [], .error what⟩ ∧
        message name = none) ∨
      ∃ value, message name = some value ∧
        (storeIf message name store c).andThen next = next (store c value) := by
  unfold storeIf
  split
  next missing => exact .inl ⟨_, rfl, missing⟩
  next value found => exact .inr ⟨value, found, rfl⟩

theorem storeKey_alike (value : Json) : Alike c (c.storeKey value) := by
  cases value <;> exact ⟨rfl, rfl, rfl⟩

theorem storeIv_alike (value : Json) : Alike c (c.storeIv value) := by
  cases value <;> exact ⟨rfl, rfl, rfl⟩

theorem storeEncryptMode_alike (value : Json) : Alike c (c.storeEncryptMode value) := by
  cases value <;> exact ⟨rfl, rfl, rfl⟩

/-- A waiting client stops with an exception at the first field that is not there, or it
comes to the condition. -/
theorem receivedConnection_cases {data : List UInt8} {message : String → Option Json}
    (waiting : c.condition = .waiting) (some_ : data ≠ [])
    (parsed : w.parse (Converter.toString data) = .ok message) :
    (∃ d what, Alike c d ∧ c.receivedConnection w data = ⟨d, [], .error what⟩ ∧ ¬ Answer message) ∨
      ∃ d, Alike c d ∧ c.receivedConnection w data = d.conclude message ∧ Answer message := by
  rw [receivedConnection, if_neg (not_not_intro waiting), if_neg some_, parsed]
  dsimp only
  rcases storeString_cases message "id" _ _ with ⟨what, stops, missing⟩ | ⟨id, idFound, goes⟩
  · exact .inl ⟨_, what, ⟨rfl, rfl, rfl⟩, stops, fun answer => missing answer.id⟩
  rw [goes]
  rcases storeString_cases message "sub_id" _ _ with ⟨what, stops, missing⟩ | ⟨subId, subIdFound, goes⟩
  · have read : Alike c { c with serverId := id } := ⟨rfl, rfl, rfl⟩
    exact .inl ⟨_, what, read, stops, fun answer => missing answer.subId⟩
  rw [goes]
  have read : Alike c { c with serverId := id, subId := cString subId } := ⟨rfl, rfl, rfl⟩
  rcases storeIf_cases message "key" _ _ with ⟨what, stops, missing⟩ | ⟨key, keyFound, goes⟩
  · exact .inl ⟨_, what, read, stops, fun answer => answer.key missing⟩
  rw [goes]
  have read := read.trans (storeKey_alike key)
  rcases storeIf_cases message "iv" _ _ with ⟨what, stops, missing⟩ | ⟨iv, ivFound, goes⟩
  · exact .inl ⟨_, what, read, stops, fun answer => answer.iv missing⟩
  rw [goes]
  have read := read.trans (storeIv_alike iv)
  rcases storeIf_cases message "encrypt_mode" _ _ with ⟨what, stops, missing⟩ | ⟨mode, modeFound, goes⟩
  · exact .inl ⟨_, what, read, stops, fun answer => answer.encryptMode missing⟩
  rw [goes]
  refine .inr ⟨_, read.trans (storeEncryptMode_alike mode), rfl, ⟨id, idFound⟩, ⟨subId, subIdFound⟩,
    ?_, ?_, ?_⟩
  · rw [keyFound]
    exact Option.some_ne_none _
  · rw [ivFound]
    exact Option.some_ne_none _
  · rw [modeFound]
    exact Option.some_ne_none _

theorem receivedConnection_reported (pooled : c.condition = .waiting → c.threadPool = some false)
    {mode : UInt8} {data : List UInt8} (known : DataModes.ofCode mode = some .connection) :
    Reported w c (.packet mode data) (c.receivedConnection w data) := by
  have nothing : ∀ {d : NetworkClient} {reply : Reply}, Alike c d →
      ¬ TurnedAway w c (.packet mode data) → Reported w c (.packet mode data) ⟨d, [], reply⟩ := by
    intro d reply alike kept
    exact .quiet (fun waiting => ⟨alike.condition.symm.trans waiting, alike.threadPool⟩)
      alike.condition.trans (fun _ member => (by cases member)) kept
  by_cases waiting : c.condition = .waiting
  swap
  · rw [receivedConnection, if_pos waiting]
    exact nothing ⟨rfl, rfl, rfl⟩ fun turned => waiting turned.2.1
  by_cases empty : data = []
  · rw [receivedConnection, if_neg (not_not_intro waiting), if_pos empty]
    exact nothing ⟨rfl, rfl, rfl⟩ fun turned => turned.2.2.1 empty
  cases parsed : w.parse (Converter.toString data) with
  | error what =>
      rw [receivedConnection, if_neg (not_not_intro waiting), if_neg empty, parsed]
      refine nothing ⟨rfl, rfl, rfl⟩ ?_
      rintro ⟨_, _, _, ⟨message, parsed', _⟩, _⟩
      cases parsed.symm.trans parsed'
  | ok message =>
      have live : c.condition ≠ .expired := by
        rw [waiting]
        decide
      rcases receivedConnection_cases waiting empty parsed with
        ⟨d, what, alike, stops, missing⟩ | ⟨d, alike, concludes, answer⟩
      · rw [stops]
        refine nothing alike ?_
        rintro ⟨_, _, _, ⟨other, parsed', answer, _⟩, _⟩
        cases parsed.symm.trans parsed'
        exact missing answer
      · rw [concludes]
        have concluded := conclude_concluded (alike.condition.trans waiting)
          (alike.threadPool.trans (pooled waiting)) message
        refine ⟨fun again => ⟨waiting, ?_⟩, fun expired => absurd expired live,
          fun lost => ⟨live, concluded.lost lost⟩, concluded.once.trans (not_congr ?_)⟩
        · rw [concluded.ended.resolve_left fun gone => gone again]
          exact alike.threadPool
        · rw [alike.callback]
          constructor
          · rintro ⟨refused, called⟩
            exact ⟨known, waiting, empty, ⟨message, parsed, answer, refused⟩, called⟩
          · rintro ⟨_, _, _, ⟨other, parsed', _, refused⟩, called⟩
            cases parsed.symm.trans parsed'
            exact ⟨refused, called⟩

theorem expireFirst_reported {what : String} {body : Peer → Checked (Handling Peer Effect)}
    (confined : ∀ h, body c.toPeer = .ok h → c.toPeer.Confined h) (kept : ¬ TurnedAway w c e)
    (handled : c.expireFirst what body = .ok h) : Reported w c e h := by
  rcases confirmedOnly_cases handled with ⟨_, rfl⟩ | ⟨_, inner, ended, rfl⟩
  · exact expires_reported_then (fun _ => rfl) (fun _ => rfl) kept
  · have confined := confined inner ended
    have same : inner.peer.condition = c.condition := congrArg DataHandler.condition confined.base
    refine .quiet (fun waiting => ⟨same.symm.trans waiting, ?_⟩) same.trans ?_ kept
    · exact congrArg DataHandler.threadPool confined.base
    · intro e member lost
      exact Bool.false_ne_true ((tellsLost_of_body (confined.effects e member)).symm.trans lost)

theorem process_reported (pooled : c.condition = .waiting → c.threadPool = some false)
    (handled : c.process w e = .ok h) : Reported w c e h := by
  cases e with
  | packet mode data =>
      have foreign : DataModes.ofCode mode ≠ some .connection →
          ¬ TurnedAway w c (.packet mode data) := fun other turned => other turned.1
      simp only [process, onReceivedData] at handled
      split at handled
      next expired =>
        cases handled
        refine .quiet (fun waiting => ⟨waiting, rfl⟩) id (fun _ member => by cases member) ?_
        rintro ⟨_, waiting, _⟩
        cases expired.symm.trans waiting
      next =>
      split at handled
      next unknown =>
        cases handled
        refine .quiet (fun waiting => ⟨waiting, rfl⟩) id (fun _ member => by cases member) (foreign ?_)
        rw [unknown]
        decide
      next known =>
        cases handled
        exact receivedConnection_reported pooled known
      next binary =>
        refine expireFirst_reported (fun _ => Peer.handleBinary_confined) (foreign ?_) handled
        rw [binary]
        decide
      next message =>
        refine expireFirst_reported (fun _ => Peer.handleMessage_confined) (foreign ?_) handled
        rw [message]
        decide
      next file =>
        refine expireFirst_reported (fun _ => Peer.handleFile_confined) (foreign ?_) handled
        rw [file]
        decide
  | readError =>
      cases handled
      exact expires_reported (c.setCondition_condition .expired false) rfl id
  | stop awaited =>
      cases handled
      unfold stop
      split
      next => exact .quiet (fun waiting => ⟨waiting, rfl⟩) id (fun _ member => by cases member) id
      next => cases awaited <;> exact expires_reported_then (fun _ => rfl) (fun _ => rfl) id

end

end NetworkClient

/-- A client with everything that has been caused since its start. -/
structure ClientRun where
  client : NetworkClient
  effects : List Effect

namespace ClientRun
open NetworkClient

/-- A fault leaves no next state. -/
def step (w : World) (r : ClientRun) (e : Event) : Option ClientRun :=
  match r.client.process w e with
  | .error _ => none
  | .ok h => some ⟨h.peer, r.effects ++ h.effects⟩

structure Untold (r : ClientRun) : Prop where
  silent : r.client.condition ≠ .expired → ∀ e ∈ r.effects, ¬ e.tellsLost = true
  pooled : r.client.condition = .waiting → r.client.threadPool = some false

section
variable {w : World} {r t : ClientRun} {e : Event}

theorem step_reported (untold : Untold r) (stepped : step w r e = some t) :
    ∃ h, Reported w r.client e h ∧ t = ⟨h.peer, r.effects ++ h.effects⟩ := by
  unfold step at stepped
  split at stepped
  next => cases stepped
  next h processed =>
    cases stepped
    exact ⟨h, process_reported untold.pooled processed, rfl⟩

theorem step_untold (untold : Untold r) (stepped : step w r e = some t) : Untold t := by
  obtain ⟨h, reported, rfl⟩ := step_reported untold stepped
  refine ⟨fun live e member => ?_, fun waiting => ?_⟩
  · rcases List.mem_append.mp member with old | new
    · exact untold.silent (fun before => live (reported.expired before)) e old
    · exact fun lost => live (reported.lost ⟨e, new, lost⟩).2
  · obtain ⟨before, same⟩ := reported.waiting waiting
    exact same.trans (untold.pooled before)

/-- A step tells a second time exactly where the client is turned away. -/
theorem step_once_iff (untold : Untold r) (stepped : step w r e = some t) :
    AtMostOne (·.tellsLost = true) t.effects ↔
      AtMostOne (·.tellsLost = true) r.effects ∧ ¬ TurnedAway w r.client e := by
  obtain ⟨h, reported, rfl⟩ := step_reported untold stepped
  rw [atMostOne_append_of_silent fun new => untold.silent (reported.lost new).1, reported.once]

theorem started_untold (w : World) (c : NetworkClient) (connects : Bool) (socketBufferSize : Nat) :
    Untold ⟨(c.start w connects socketBufferSize).1, []⟩ := by
  refine ⟨fun _ _ member => (by cases member), fun waiting => ?_⟩
  cases connects with
  | false =>
      change (c.destroy.setCondition .none false).peer.condition = _ at waiting
      rw [setCondition_condition] at waiting
      cases waiting
  | true =>
      change (NetworkClient.setCondition _ .waiting false).peer.threadPool = some false
      rw [setCondition_live _ (by decide)]

end

end ClientRun

/-- The texts of the JSON library, for strings that need no escapes. -/
def renderField : String × Json → List UInt8
  | (name, .string value) => Handshake.ascii ("\"" ++ name ++ "\":\"") ++ value ++ [34]
  | (name, .bool value) =>
      Handshake.ascii ("\"" ++ name ++ "\":" ++ if value then "true" else "false")
  | (name, .other) => Handshake.ascii ("\"" ++ name ++ "\":null")

def renderFields : List (String × Json) → List UInt8
  | [] => []
  | [field] => renderField field
  | field :: next :: rest => renderField field ++ 44 :: renderFields (next :: rest)

def renderText (fields : List (String × Json)) : List UInt8 := 123 :: renderFields fields ++ [125]

def requestFields : List (String × Json) :=
  [("id", .string [97]), ("sub_id", .string [98]), ("registered_key", .string [107]),
    ("condition", .bool true)]

def answerFields (condition : Bool) : List (String × Json) :=
  [("id", .string [97]), ("sub_id", .string [99]), ("key", .string Cipher.sampleKey),
    ("iv", .string Cipher.sampleIv), ("encrypt_mode", .bool true), ("condition", .bool condition)]

def renderedTexts : List (List (String × Json) × List UInt8) :=
  [requestFields, answerFields true, answerFields false].map fun fields => (fields, renderText fields)

def renderedWorld : World :=
  { Handshake.knownTexts renderedTexts (Cipher.sampleKey, Cipher.sampleIv) with
    serialize := renderText }

theorem renderFields_last (front : List (String × Json)) (last : String × Json) :
    ∃ before, renderFields (front ++ [last]) = before ++ renderField last := by
  induction front with
  | nil => exact ⟨[], rfl⟩
  | cons field rest ih =>
      obtain ⟨before, ends⟩ := ih
      cases rest with
      | nil => exact ⟨renderField field ++ [44], (List.append_assoc _ [44] _).symm⟩
      | cons next rest =>
          refine ⟨renderField field ++ 44 :: before, ?_⟩
          rw [List.append_assoc]
          exact congrArg (fun text => renderField field ++ 44 :: text) ends

/-- The texts differ in the third last byte. -/
theorem renderedWorld_tells : renderedWorld.Tells := by
  intro front back same
  obtain ⟨one, first⟩ := renderFields_last front ("condition", .bool true)
  obtain ⟨two, second⟩ := renderFields_last back ("condition", .bool false)
  change renderText _ = renderText _ at same
  unfold renderText at same
  rw [first, second] at same
  have accepts : renderField ("condition", .bool true) =
      Handshake.ascii "\"condition\":t" ++ [114, 117, 101] := by decide
  have refuses : renderField ("condition", .bool false) =
      Handshake.ascii "\"condition\":fa" ++ [108, 115, 101] := by decide
  have regroup : ∀ before middle ending : List UInt8, 123 :: (before ++ (middle ++ ending)) ++ [125] =
      (123 :: (before ++ middle)) ++ (ending ++ [125]) := by simp
  rw [accepts, refuses, regroup, regroup] at same
  cases List.append_inj_right' same rfl

/-- The text of an object that both sides know, as the library reads it. -/
theorem renderedWorld_parse {data : List UInt8} {fields : List (String × Json)}
    {text : List UInt8} (known : renderedTexts.find? (·.2 = data) = some (fields, text)) :
    renderedWorld.parse data = .ok fun name => (fields.find? (·.1 = name)).map Prod.snd :=
  @Handshake.knownTexts_parse _ (Cipher.sampleKey, Cipher.sampleIv) _ _ known

theorem request_known : renderedTexts.find?
    (·.2 = Converter.toString (renderedWorld.serialize requestFields)) =
      some (requestFields, renderText requestFields) := by
  decide +kernel

theorem answer_known : ∀ condition, renderedTexts.find?
    (·.2 = Converter.toString (renderedWorld.serialize (answerFields condition))) =
      some (answerFields condition, renderText (answerFields condition)) := by
  decide +kernel

def sessionEvents : List NetworkSession.Event :=
  [.packet 3 (renderedWorld.serialize requestFields), .readError, .stop]

def clientEvents : List NetworkClient.Event :=
  [.packet 3 (renderedWorld.serialize (answerFields true)), .readError, .stop false]

end CppToolkit.Network
