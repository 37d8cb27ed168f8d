import CppToolkit.Network.Authentication
import CppToolkit.Network.NetworkClient
import Mathlib.Data.List.TakeWhile

/-! Connection payloads in `Waiting`: which key lets a session in, and what is left of a payload
that is no good. -/
namespace CppToolkit.Network
open Utilities

theorem cString_eq_self_iff {value : List UInt8} : cString value = value ↔ 0 ∉ value := by
  rw [cString, List.takeWhile_eq_self_iff]
  constructor
  · intro each member
    exact absurd (each 0 member) (by decide)
  · intro absent b member
    exact decide_eq_true fun zero => absent (zero ▸ member)

namespace NetworkSession

/-- The payload is JSON with an id and a registered key, both of them strings. -/
def Presents (w : World) (data id value : List UInt8) : Prop :=
  data ≠ [] ∧ ∃ message, w.parse (Converter.toString data) = .ok message ∧
    message "id" = some (.string id) ∧ message "registered_key" = some (.string value)

section
variable {w : World} {s : NetworkSession} {data id value : List UInt8}

/-- The handler compares the server key with the string up to its first zero byte. -/
theorem receivedConnection_confirms_iff (waiting : s.condition = .waiting)
    (presents : Presents w data id value) :
    (s.receivedConnection w data).peer.condition = .confirmed ↔ cString value = s.registeredKey := by
  obtain ⟨some_, message, parsed, idField, keyField⟩ := presents
  have handled : s.receivedConnection w data =
      if cString value = s.registeredKey then
        (NetworkSession.setCondition w { s with id := cString id } .confirmed false).andThen
          fun s => s.responseConnection w true
      else
        (NetworkSession.setCondition w { s with id := cString id } .expired false).andThen
          fun s => s.responseConnection w false := by
    rw [receivedConnection, if_neg (not_not_intro waiting), if_neg some_, parsed]
    dsimp only
    rw [idField, keyField]
    simp only [accepts, decide_eq_true_eq]
  have answers : ∀ {condition accepted} {h : Handling NetworkSession Effect},
      Inert condition h → Inert condition (h.andThen fun s => s.responseConnection w accepted) :=
    fun inert => inert.andThen fun t same => same ▸ responseConnection_inert w t _
  rw [handled]
  split
  next same =>
    exact ⟨fun _ => same, fun _ => (answers (setCondition_inert w _ .confirmed false)).condition⟩
  next other =>
    constructor
    · intro confirmed
      rw [(answers (setCondition_inert w _ .expired false)).condition] at confirmed
      cases confirmed
    · intro same
      exact absurd same other

/-- A session lets in exactly the server key, byte for byte, if and only if the presented string
has no zero byte, or is not the server key and does not begin with it and a zero byte. -/
theorem registered_key_exact_iff (waiting : s.condition = .waiting)
    (presents : Presents w data id value) :
    ((s.receivedConnection w data).peer.condition = .confirmed ↔ value = s.registeredKey) ↔
      0 ∉ value ∨ s.registeredKey ≠ value ∧ s.registeredKey ≠ cString value := by
  rw [receivedConnection_confirms_iff waiting presents, ← cString_eq_self_iff]
  constructor
  · intro exact_
    by_cases plain : cString value = value
    · exact .inl plain
    · refine .inr ⟨fun same => ?_, fun same => ?_⟩
      · exact plain ((exact_.mpr same.symm).trans same)
      · exact plain (same.symm.trans (exact_.mp same.symm).symm)
  · rintro (plain | ⟨other, cut⟩)
    · rw [plain]
    · exact ⟨fun same => absurd same.symm cut, fun same => absurd same.symm other⟩

end

/-- The key 8, presented as it is. -/
theorem registered_key_exact_iff_plain :
    let w := { SessionRun.oneClient with
      parse := fun _ => .ok fun field =>
        if field = "id" then some (.string [7]) else some (.string [8]) }
    let s := SessionRun.listener.start w (some true) 1024
    (s.receivedConnection w [1]).peer.condition = .confirmed ↔ [8] = s.registeredKey := by
  intro w s
  have presents : Presents w [1] [7] [8] :=
    ⟨List.cons_ne_nil _ _, _, rfl, if_pos rfl, if_neg (by decide)⟩
  exact (registered_key_exact_iff rfl presents).mpr (.inl (by decide))

/-- The key 8, presented as 8, 0, 9. -/
theorem registered_key_not_exact :
    let s := SessionRun.listener.start SessionRun.oneClient (some true) 1024
    s.condition = .waiting ∧ Presents SessionRun.oneClient [1] [7] [8, 0, 9] ∧
      ¬ ((s.receivedConnection SessionRun.oneClient [1]).peer.condition = .confirmed ↔
        [8, 0, 9] = s.registeredKey) := by
  intro s
  have presents : Presents SessionRun.oneClient [1] [7] [8, 0, 9] :=
    ⟨List.cons_ne_nil _ _, _, rfl, if_pos rfl, if_neg (by decide)⟩
  have confirmed : (s.receivedConnection SessionRun.oneClient [1]).peer.condition = .confirmed :=
    (receivedConnection_confirms_iff rfl presents).mpr rfl
  refine ⟨rfl, presents, fun same => ?_⟩
  exact absurd (same.mp confirmed) (by decide)

end NetworkSession

def Json.isString : Json → Bool
  | .string _ => true
  | _ => false

def Json.isBool : Json → Bool
  | .bool _ => true
  | _ => false

/-- One `at(name)` of a handler: the values that it takes without an exception, and what it
stores of them. -/
structure Access (P : Type) where
  name : String
  takes : Json → Bool
  store : P → Json → P

namespace Access
variable {P : Type}

/-- `at(name).as_string()`. -/
def ofString (name : String) (store : P → List UInt8 → P) : Access P where
  name := name
  takes := Json.isString
  store := fun p value =>
    match value with
    | .string text => store p text
    | _ => p

/-- An access that asks for the type itself, and so throws for a missing field only. -/
def ofAny (name : String) (store : P → Json → P) : Access P := ⟨name, fun _ => true, store⟩

def passes (message : String → Option Json) (a : Access P) : Bool := (message a.name).any a.takes

/-- The peer after the accesses before the first one that throws. -/
def left (message : String → Option Json) : List (Access P) → P → P
  | [], p => p
  | a :: rest, p =>
      match message a.name with
      | none => p
      | some value => if a.takes value then left message rest (a.store p value) else p

/-- What the stores keep is kept wherever the accesses end. -/
theorem left_keeps {message : String → Option Json} {accesses : List (Access P)} {I : P → Prop}
    (keeps : ∀ a ∈ accesses, ∀ p value, I p → I (a.store p value)) {p : P} (held : I p) :
    I (left message accesses p) := by
  induction accesses generalizing p with
  | nil => exact held
  | cons a rest ih =>
      unfold left
      split
      next => exact held
      next value _ =>
        split
        next =>
          exact ih (fun b member => keeps b (List.mem_cons_of_mem _ member))
            (keeps a List.mem_cons_self p value held)
        next => exact held

end Access

/-- A non-empty payload that is no JSON, or in which an access finds no field or a value that it
does not take. -/
def Malformed {P : Type} (w : World) (accesses : List (Access P)) (data : List UInt8) : Prop :=
  data ≠ [] ∧ ∀ message, w.parse (Converter.toString data) = .ok message →
    ∃ a ∈ accesses, a.passes message = false

/-- The peer that a malformed payload leaves. -/
def leftBy {P : Type} (w : World) (accesses : List (Access P)) (data : List UInt8) (p : P) : P :=
  match w.parse (Converter.toString data) with
  | .error _ => p
  | .ok message => Access.left message accesses p

/-- The accesses of `NetworkSession::received_connection`, in their order. -/
def NetworkSession.accesses : List (Access NetworkSession) :=
  [.ofString "id" fun s value => { s with id := cString value },
    .ofAny "registered_key" fun s _ => s]

/-- The accesses of `NetworkClient::received_connection`, in their order. -/
def NetworkClient.accesses : List (Access NetworkClient) :=
  [.ofString "id" fun c value => { c with serverId := value },
    .ofString "sub_id" fun c value => { c with subId := cString value },
    .ofAny "key" storeKey, .ofAny "iv" storeIv, .ofAny "encrypt_mode" storeEncryptMode,
    ⟨"condition", Json.isBool, fun c _ => c⟩]

/-- With a field that an access does not take, the handler throws where the accesses end. -/
def Throws {P : Type} (message : String → Option Json) (accesses : List (Access P)) (p : P)
    (h : Handling P Effect) : Prop :=
  (∃ a ∈ accesses, a.passes message = false) →
    ∃ what, h = ⟨Access.left message accesses p, [], .error what⟩

section
variable {P : Type} {message : String → Option Json}

/-- The first access throws, or the rest of the handler does. -/
theorem throws_cons {a : Access P} {rest : List (Access P)} {p : P} {h : Handling P Effect}
    (fails : a.passes message = false → ∃ what, h = ⟨p, [], .error what⟩)
    (goes_on : ∀ value, message a.name = some value → a.takes value = true →
      Throws message rest (a.store p value) h) : Throws message (a :: rest) p h := by
  rintro ⟨b, member, bad⟩
  cases found : message a.name with
  | none =>
      obtain ⟨what, same⟩ := fails (by rw [Access.passes, found]; rfl)
      exact ⟨what, by rw [same, Access.left, found]⟩
  | some value =>
      cases taken : a.takes value with
      | false =>
          obtain ⟨what, same⟩ := fails (by rw [Access.passes, found]; exact taken)
          refine ⟨what, ?_⟩
          simp only [same, Access.left, found, taken, Bool.false_eq_true, if_false]
      | true =>
          have inside : b ∈ rest := by
            refine (List.mem_cons.mp member).resolve_left ?_
            rintro rfl
            rw [Access.passes, found, Option.any_some, taken] at bad
            cases bad
          obtain ⟨what, same⟩ := goes_on value found taken ⟨b, inside, bad⟩
          refine ⟨what, ?_⟩
          simp only [same, Access.left, found, taken, if_true]

theorem throws_nil {p : P} {h : Handling P Effect} : Throws message [] p h := by
  rintro ⟨a, member, _⟩
  cases member

end

section
variable {message : String → Option Json} {name : String} {c : NetworkClient}
  {next : NetworkClient → Handling NetworkClient Effect} {rest : List (Access NetworkClient)}

theorem NetworkClient.storeString_throws {store : NetworkClient → List UInt8 → NetworkClient}
    (later : ∀ c, Throws message rest c (next c)) :
    Throws message (.ofString name store :: rest) c ((storeString message name store c).andThen next) := by
  apply throws_cons
  · intro bad
    unfold storeString
    split
    next => exact ⟨_, rfl⟩
    next found =>
      rw [Access.passes, Access.ofString, found] at bad
      cases bad
    next => exact ⟨_, rfl⟩
  · intro value found taken
    cases value with
    | string text =>
        have stored : storeString message name store c = ⟨store c text, [], done⟩ := by
          rw [storeString, show message name = some (.string text) from found]
        rw [stored]
        exact later (store c text)
    | _ => cases taken

theorem NetworkClient.storeIf_throws {store : NetworkClient → Json → NetworkClient}
    (later : ∀ c, Throws message rest c (next c)) :
    Throws message (.ofAny name store :: rest) c ((storeIf message name store c).andThen next) := by
  apply throws_cons
  · intro bad
    unfold storeIf
    split
    next => exact ⟨_, rfl⟩
    next found =>
      rw [Access.passes, Access.ofAny, found] at bad
      cases bad
  · intro value found _
    have stored : storeIf message name store c = ⟨store c value, [], done⟩ := by
      rw [storeIf, show message name = some value from found]
    rw [stored]
    exact later (store c value)

theorem NetworkClient.conclude_throws :
    Throws message [⟨"condition", Json.isBool, fun c _ => c⟩] c (c.conclude message) := by
  apply throws_cons
  · intro bad
    unfold conclude
    split
    next => exact ⟨_, rfl⟩
    next found =>
      rw [Access.passes, found] at bad
      cases bad
    next found =>
      rw [Access.passes, found] at bad
      cases bad
    next => exact ⟨_, rfl⟩
  · exact fun _ _ _ => throws_nil

end

theorem NetworkClient.receivedConnection_throws {w : World} {c : NetworkClient} {data : List UInt8}
    (waiting : c.condition = .waiting) (malformed : Malformed w accesses data) :
    ∃ what, c.receivedConnection w data = ⟨leftBy w accesses data c, [], .error what⟩ := by
  obtain ⟨some_, bad⟩ := malformed
  rw [receivedConnection, if_neg (not_not_intro waiting), if_neg some_]
  unfold leftBy
  cases parsed : w.parse (Converter.toString data) with
  | error what => exact ⟨what, rfl⟩
  | ok message =>
      have chain : Throws message accesses c _ :=
        storeString_throws fun c => storeString_throws fun c => storeIf_throws fun c =>
          storeIf_throws fun c => storeIf_throws fun c => conclude_throws
      exact chain (bad message parsed)

theorem NetworkSession.receivedConnection_throws {w : World} {s : NetworkSession} {data : List UInt8}
    (waiting : s.condition = .waiting) (malformed : Malformed w accesses data) :
    ∃ what, s.receivedConnection w data = ⟨leftBy w accesses data s, [], .error what⟩ := by
  obtain ⟨some_, bad⟩ := malformed
  rw [receivedConnection, if_neg (not_not_intro waiting), if_neg some_]
  unfold leftBy
  cases parsed : w.parse (Converter.toString data) with
  | error what => exact ⟨what, rfl⟩
  | ok message =>
      refine (?_ : Throws message accesses s _) (bad message parsed)
      dsimp only
      apply throws_cons
      · intro bad
        split
        next => exact ⟨_, rfl⟩
        next found =>
          rw [Access.passes, Access.ofString, found] at bad
          cases bad
        next => exact ⟨_, rfl⟩
      intro value found taken
      cases value with
      | string id =>
          rw [show message "id" = some (.string id) from found]
          dsimp only
          apply throws_cons
          · intro bad
            split
            next => exact ⟨_, rfl⟩
            next found =>
              rw [Access.passes, Access.ofAny, found] at bad
              cases bad
          · exact fun _ _ _ => throws_nil
      | _ => cases taken

/-- A session stores no more than the id, a client no more than its five fields. -/
theorem NetworkSession.leftBy_id (w : World) (data : List UInt8) (s : NetworkSession) :
    ∃ id, leftBy w accesses data s = { s with id := id } := by
  have keeps : ∀ a ∈ accesses, ∀ (t : NetworkSession) value,
      (∃ id, t = { s with id := id }) → ∃ id, a.store t value = { s with id := id } := by
    rintro a member t value ⟨id, rfl⟩
    rcases List.mem_cons.mp member with rfl | member
    · cases value with
      | string text => exact ⟨cString text, rfl⟩
      | _ => exact ⟨id, rfl⟩
    · rw [List.mem_singleton.mp member]
      exact ⟨id, rfl⟩
  unfold leftBy
  split
  next => exact ⟨s.id, rfl⟩
  next => exact Access.left_keeps keeps ⟨s.id, rfl⟩

/-- The fields that a client takes from the answer of the server. -/
def NetworkClient.SameBut (c d : NetworkClient) : Prop :=
  ∃ serverId subId key iv encryptMode, d = { c with serverId, subId, key, iv, encryptMode }

theorem NetworkClient.leftBy_sameBut (w : World) (data : List UInt8) (c : NetworkClient) :
    c.SameBut (leftBy w accesses data c) := by
  have keeps : ∀ a ∈ accesses, ∀ d value, c.SameBut d → c.SameBut (a.store d value) := by
    rintro a member d value ⟨serverId, subId, key, iv, encryptMode, rfl⟩
    simp only [accesses, List.mem_cons, List.not_mem_nil, or_false] at member
    rcases member with rfl | rfl | rfl | rfl | rfl | rfl <;> cases value <;>
      exact ⟨_, _, _, _, _, rfl⟩
  unfold leftBy
  split
  next => exact ⟨_, _, _, _, _, rfl⟩
  next => exact Access.left_keeps keeps ⟨_, _, _, _, _, rfl⟩

/-- A malformed payload in `Waiting` ends in an exception with nothing sent and no callback called.
The peer keeps what was stored before the access that throws, in the order of the accesses, and is
otherwise as it was. -/
theorem malformed_leaves_prefix (w : World) (data : List UInt8) :
    (∀ s : NetworkSession, s.condition = .waiting → Malformed w NetworkSession.accesses data →
      (∃ what, s.receivedConnection w data =
        ⟨leftBy w NetworkSession.accesses data s, [], .error what⟩) ∧
      ∃ id, leftBy w NetworkSession.accesses data s = { s with id := id }) ∧
    ∀ c : NetworkClient, c.condition = .waiting → Malformed w NetworkClient.accesses data →
      (∃ what, c.receivedConnection w data =
        ⟨leftBy w NetworkClient.accesses data c, [], .error what⟩) ∧
      ∃ serverId subId key iv encryptMode, leftBy w NetworkClient.accesses data c =
        { c with serverId, subId, key, iv, encryptMode } := by
  refine ⟨fun s waiting malformed => ?_, fun c waiting malformed => ?_⟩
  · exact ⟨s.receivedConnection_throws waiting malformed, s.leftBy_id w data⟩
  · exact ⟨c.receivedConnection_throws waiting malformed, c.leftBy_sameBut w data⟩

/-- JSON that has an id and nothing else. -/
def idOnly : World where
  parse := fun _ => .ok fun field => if field = "id" then some (.string [7]) else none
  serialize := fun _ => []
  createKey := fun _ => ([], [])
  saveTempPath := fun _ _ => .ok none

theorem idOnly_malformed_session : Malformed idOnly NetworkSession.accesses [1] := by
  refine ⟨List.cons_ne_nil _ _, ?_⟩
  rintro message ⟨⟩
  exact ⟨_, List.mem_cons_of_mem _ List.mem_cons_self, rfl⟩

theorem idOnly_malformed_client : Malformed idOnly NetworkClient.accesses [1] := by
  refine ⟨List.cons_ne_nil _ _, ?_⟩
  rintro message ⟨⟩
  exact ⟨_, List.mem_cons_of_mem _ List.mem_cons_self, rfl⟩

/-- A session and a client that wait. -/
def waitingSession : NetworkSession := SessionRun.listener.start idOnly (some true) 1024

def waitingClient : NetworkClient where
  toPeer := { Peer.connected with toDataHandler := { DataHandler.connected with condition := .waiting } }
  receivedConnectionCallback := none

theorem malformed_leaves_prefix_id :
    (∃ what, waitingSession.receivedConnection idOnly [1] =
      ⟨{ waitingSession with id := [7] }, [], .error what⟩) ∧
    ∃ what, waitingClient.receivedConnection idOnly [1] =
      ⟨{ waitingClient with serverId := [7] }, [], .error what⟩ := by
  obtain ⟨session, client⟩ := malformed_leaves_prefix idOnly [1]
  exact ⟨(session waitingSession rfl idOnly_malformed_session).1,
    (client waitingClient rfl idOnly_malformed_client).1⟩

/-- What a payload must not touch when it fails. -/
def Peer.identity (p : Peer) :
    List UInt8 × List UInt8 × List UInt8 × List UInt8 × List UInt8 × Bool × ConnectConditions :=
  (p.id, p.subId, p.serverId, p.key, p.iv, p.encryptMode, p.condition)

/-- The id is stored before the missing field is looked for, on both peers. -/
theorem malformed_leaves_traces :
    (¬ ∀ w data (s : NetworkSession) what, s.condition = .waiting →
      (s.receivedConnection w data).reply = .error what →
        (s.receivedConnection w data).peer.identity = s.identity) ∧
    ¬ ∀ w data (c : NetworkClient) what, c.condition = .waiting →
      (c.receivedConnection w data).reply = .error what →
        (c.receivedConnection w data).peer.identity = c.identity := by
  constructor
  · intro traceless
    have id : ([7] : List UInt8) = [] := congrArg Prod.fst (traceless idOnly [1] waitingSession _ rfl rfl)
    cases id
  · intro traceless
    have serverId : ([7] : List UInt8) = [] :=
      congrArg (fun i => i.2.2.1) (traceless idOnly [1] waitingClient _ rfl rfl)
    cases serverId

end CppToolkit.Network
