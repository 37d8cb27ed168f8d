import CppToolkit.Library.Relay
import CppToolkit.Network.Pipeline
import CppToolkit.Network.SocketSends

/-! The stages a packet passes through: one queue of a pool for each job of the pipeline,
and the wire between the two pools. -/
namespace CppToolkit.Network
open Memory Utilities Thread

inductive Stage where
  | encrypt
  | compress
  | send
  | wire
  | decompress
  | decrypt
  | receive
  deriving DecidableEq, Repr

namespace Stage

def rank : Stage → Nat
  | .encrypt => 0
  | .compress => 1
  | .send => 2
  | .wire => 3
  | .decompress => 4
  | .decrypt => 5
  | .receive => 6

theorem rank_inj {one two : Stage} (same : one.rank = two.rank) : one = two := by
  cases one <;> cases two <;> first | rfl | cases same

theorem rank_le_receive (stage : Stage) : stage.rank ≤ Stage.receive.rank := by
  cases stage <;> decide

/-- The job of a stage; on the wire there is a frame. -/
def job : Stage → List UInt8 → Option Job
  | .encrypt, data => some (.encryptMessage data)
  | .compress, data => some (.compressMessage data)
  | .send, data => some (.sendingJob data)
  | .wire, _ => none
  | .decompress, data => some (.decompressMessage data)
  | .decrypt, data => some (.decryptMessage data)
  | .receive, data => some (.receivingJob data)

def ofJob : Job → Option (Stage × List UInt8)
  | .encryptMessage data => some (.encrypt, data)
  | .compressMessage data => some (.compress, data)
  | .sendingJob data => some (.send, data)
  | .decompressMessage data => some (.decompress, data)
  | .decryptMessage data => some (.decrypt, data)
  | .receivingJob data => some (.receive, data)
  | _ => none

/-- The stage whose jobs are in this queue of the sender. -/
def ofSender : JobPriorities → Option Stage
  | .normal => some .encrypt
  | .high => some .compress
  | .top => some .send
  | _ => none

/-- The stage whose jobs are in this queue of the receiver. -/
def ofReceiver : JobPriorities → Option Stage
  | .low => some .decompress
  | .normal => some .decrypt
  | .high => some .receive
  | _ => none

theorem ofSender_apart (one two : JobPriorities) (stage : Stage)
    (first : ofSender one = some stage) (second : ofSender two = some stage) : one = two := by
  cases one <;> cases first <;> cases two <;> first | rfl | cases second

theorem ofJob_job {stage : Stage} {data : List UInt8} {job : Job}
    (is : stage.job data = some job) : ofJob job = some (stage, data) := by
  cases stage <;> cases is <;> rfl

/-- Every stage of a side is the queue of the priority of its jobs. -/
theorem job_priority {stage : Stage} {data : List UInt8} {job : Job}
    (is : stage.job data = some job) :
    ofSender job.priority = some stage ∧ stage.rank < Stage.wire.rank ∨
      ofReceiver job.priority = some stage ∧ Stage.wire.rank < stage.rank := by
  cases stage <;> cases is <;>
    first | exact .inl ⟨rfl, by decide⟩ | exact .inr ⟨rfl, by decide⟩

/-- The stages that worker `i` serves, in the order of its priorities. -/
def served (side : JobPriorities → Option Stage) (workers : List (List JobPriorities)) (i : Nat) :
    List Nat :=
  (((workers[i]?).getD []).filterMap side).map rank

theorem mem_served {side : JobPriorities → Option Stage} {workers : List (List JobPriorities)}
    {i : Nat} {stage : Stage} (member : stage.rank ∈ served side workers i) :
    ∃ list priority, workers[i]? = some list ∧ priority ∈ list ∧ side priority = some stage := by
  obtain ⟨other, inside, same⟩ := List.mem_map.mp member
  cases rank_inj same
  obtain ⟨priority, listed, found⟩ := List.mem_filterMap.mp inside
  cases at_ : workers[i]? with
  | none =>
      rw [at_] at listed
      cases listed
  | some list =>
      rw [at_] at listed
      exact ⟨list, priority, rfl, listed, found⟩

end Stage

/-- What a packet has become at a stage; `call` is the number of its call. -/
structure Parcel where
  stage : Stage
  data : List UInt8
  call : Nat
  deriving DecidableEq, Repr

namespace Parcel

def rank (p : Parcel) : Nat := p.stage.rank

/-- The parcel of a pushed job. -/
def ofJob (job : Job) (call : Nat) : Option Parcel :=
  (Stage.ofJob job).map fun (stage, data) => ⟨stage, data, call⟩

def work (c : Codecs) (h : DataHandler) (p : Parcel) : Option (Checked Worked) :=
  (p.stage.job p.data).bind (h.work c)

/-- What a job leaves behind: the job it pushed, or the frame it wrote. -/
def next (p : Parcel) : Worked → Option Parcel
  | .pushed job => ofJob job p.call
  | .written packet => some ⟨.wire, packet, p.call⟩
  | _ => none

section
variable {c : Codecs} {h : DataHandler} {p q : Parcel} {data : List UInt8} {job : Job}

theorem alive_inv {body : Checked Worked} {worked : Worked} (does : h.alive body = .ok worked) :
    (∃ what, worked = .refused what) ∨ body = .ok worked := by
  unfold DataHandler.alive at does
  split at does
  next =>
    cases does
    exact .inl ⟨_, rfl⟩
  next =>
    split at does
    next =>
      cases does
      exact .inl ⟨_, rfl⟩
    next => exact .inr does

theorem next_ofPush (is : p.next (.ofPush (h.push job)) = some q) : ofJob job p.call = some q := by
  cases push : h.push job with
  | error what =>
      rw [push] at is
      cases is
  | ok job' =>
      rw [push, DataHandler.push_eq_ok push] at is
      exact is

theorem next_pushCoded {next : List UInt8 → Job} {coded : Encryptor.Coded}
    (is : p.next (h.pushCoded data next coded) = some q) :
    ∃ data', ofJob (next data') p.call = some q := by
  cases coded with
  | error what => cases is
  | ok buffer => exact ⟨_, next_ofPush is⟩

/-- With encryption or without, the packet goes on in the same job. -/
theorem next_codedOrRaw {next : List UInt8 → Job} {coded : Encryptor.Coded} {worked : Worked}
    (does : (if h.encryptMode then Except.ok (h.pushCoded data next coded)
      else .ok (.ofPush (h.push (next data)))) = (.ok worked : Checked Worked))
    (is : p.next worked = some q) : ∃ data', ofJob (next data') p.call = some q := by
  split at does
  next =>
    cases does
    exact next_pushCoded is
  next =>
    cases does
    exact ⟨data, next_ofPush is⟩

theorem ofPush_not_received {push : Except String Job} {mode : UInt8} :
    Worked.ofPush push ≠ .received mode data := by
  cases push <;> exact nofun

theorem pushCoded_not_received {next : List UInt8 → Job} {coded : Encryptor.Coded} {mode : UInt8}
    {raw : List UInt8} :
    h.pushCoded raw next coded ≠ .received mode data := by
  cases coded with
  | error what => exact nofun
  | ok buffer => exact ofPush_not_received

/-- Only the last stage calls `received_data`. -/
theorem received_stage {mode : UInt8} (does : p.work c h = some (.ok (.received mode data))) :
    p.stage = .receive := by
  obtain ⟨stage, raw, call⟩ := p
  have coded : ∀ {body : Checked Worked}, h.alive body = .ok (.received mode data) →
      body = .ok (.received mode data) := fun does => (alive_inv does).resolve_left nofun
  cases stage with
  | encrypt =>
      have body := coded (Option.some.inj does)
      split at body
      next => exact absurd (Except.ok.inj body) pushCoded_not_received
      next => exact absurd (Except.ok.inj body) ofPush_not_received
  | compress => exact absurd (Except.ok.inj (coded (Option.some.inj does))) ofPush_not_received
  | send =>
      change some (Except.ok (h.sendPacket raw)) = _ at does
      unfold DataHandler.sendPacket at does
      split at does
      next => cases does
      next => split at does <;> cases does
  | wire => cases does
  | decompress =>
      obtain ⟨buffer, _, same⟩ := bind_eq_ok.mp (coded (Option.some.inj does))
      exact absurd (Except.ok.inj same) ofPush_not_received
  | decrypt =>
      have body := coded (Option.some.inj does)
      split at body
      next => exact absurd (Except.ok.inj body) pushCoded_not_received
      next => exact absurd (Except.ok.inj body) ofPush_not_received
  | receive => rfl

/-- The last stage pushes nothing and writes nothing. -/
theorem next_receivingWork {worked : Worked} (does : receivingWork data = .ok worked) :
    p.next worked = none := by
  unfold receivingWork at does
  split at does
  next =>
    cases does
    rfl
  next =>
    obtain ⟨⟨modeData, index⟩, _, does⟩ := bind_eq_ok.mp does
    obtain ⟨⟨arrayData, _⟩, _, does⟩ := bind_eq_ok.mp does
    dsimp only at does
    split at does
    next =>
      split at does <;> cases does <;> rfl
    next =>
      cases does
      rfl

/-- What a stage leaves behind is at the next one. -/
theorem work_next {worked : Worked} (does : p.work c h = some (.ok worked))
    (is : p.next worked = some q) : q.rank = p.rank + 1 ∧ q.call = p.call := by
  have refused : ∀ {worked : Worked}, (∃ what, worked = .refused what) → p.next worked ≠ some q := by
    rintro _ ⟨what, rfl⟩ is
    cases is
  obtain ⟨stage, data, call⟩ := p
  cases stage with
  | encrypt =>
      rcases alive_inv (Option.some.inj does) with what | body
      · exact absurd is (refused what)
      · obtain ⟨_, same⟩ := next_codedOrRaw body is
        cases same
        exact ⟨rfl, rfl⟩
  | compress =>
      rcases alive_inv (Option.some.inj does) with what | body
      · exact absurd is (refused what)
      · cases body
        cases next_ofPush is
        exact ⟨rfl, rfl⟩
  | send =>
      change some (Except.ok (h.sendPacket data)) = _ at does
      cases does
      unfold DataHandler.sendPacket at is
      split at is
      next => cases is
      next =>
        split at is
        next => cases is
        next =>
          cases is
          exact ⟨rfl, rfl⟩
  | wire => cases does
  | decompress =>
      rcases alive_inv (Option.some.inj does) with what | body
      · exact absurd is (refused what)
      · obtain ⟨buffer, _, same⟩ := bind_eq_ok.mp body
        cases same
        cases next_ofPush is
        exact ⟨rfl, rfl⟩
  | decrypt =>
      rcases alive_inv (Option.some.inj does) with what | body
      · exact absurd is (refused what)
      · obtain ⟨_, same⟩ := next_codedOrRaw body is
        cases same
        exact ⟨rfl, rfl⟩
  | receive =>
      have none_ := next_receivingWork (p := ⟨.receive, data, call⟩) (Option.some.inj does)
      rw [none_] at is
      cases is

end

end Parcel

/-- The queues of a pool hold the parcels of its side of the relay, by their names. -/
def Matches {ω : Type} (side : JobPriorities → Option Stage) (name : Parcel → Nat)
    (s : Relay ω Parcel) (pool : JobPool) : Prop :=
  ∀ priority, pool.jobQueues priority =
    ((side priority).map fun stage => (s.queued.filter (·.stage = stage)).map name).getD []

section
variable {ω : Type} {side : JobPriorities → Option Stage} {name : Parcel → Nat}
  {s t : Relay ω Parcel} {pool : JobPool}

theorem Matches.queue (matched : Matches side name s pool) {priority : JobPriorities} {stage : Stage}
    (is : side priority = some stage) :
    pool.jobQueues priority = (s.queued.filter (·.stage = stage)).map name := by
  rw [matched priority, is]
  rfl

theorem enter_other {p : Parcel} {stage : Stage} (other : p.stage ≠ stage) :
    (s.enter p).queued.filter (·.stage = stage) = s.queued.filter (·.stage = stage) := by
  have unlisted : [p].filter (·.stage = stage) = [] := by
    refine List.filter_cons_of_neg ?_
    rw [decide_eq_true_eq]
    exact other
  rw [Relay.enter, List.filter_append, unlisted, List.append_nil]

/-- A push is an insertion into the queue of the job. -/
theorem Matches.insert (matched : Matches side name s pool)
    (apart : ∀ one two stage, side one = some stage → side two = some stage → one = two)
    {p : Parcel} {priority : JobPriorities} (is : side priority = some p.stage) :
    Matches side name (s.enter p) (pool.insert ⟨name p, priority⟩) := by
  intro other
  by_cases same : other = priority
  · subst same
    have here : [p].filter (fun q => q.stage = p.stage) = [p] :=
      List.filter_cons_of_pos (decide_eq_true rfl)
    rw [JobPool.insert, JobPool.setQueue_self, matched.queue is, is, Relay.enter, Option.map_some,
      Option.getD_some, List.filter_append, here, List.map_append]
    rfl
  · rw [JobPool.insert, JobPool.setQueue_ne _ _ same, matched other]
    cases found : side other with
    | none => rfl
    | some stage =>
        have outside : p.stage ≠ stage := fun here =>
          same (apart other priority p.stage (here ▸ found) is)
        rw [Option.map_some, Option.map_some, Option.getD_some, Option.getD_some,
          enter_other outside]

/-- A parcel of the other side, or on the wire, is in none of the queues. -/
theorem Matches.elsewhere (matched : Matches side name s pool) {p : Parcel}
    (outside : ∀ priority, side priority ≠ some p.stage) : Matches side name (s.enter p) pool := by
  intro priority
  rw [matched priority]
  cases found : side priority with
  | none => rfl
  | some stage =>
      have other : p.stage ≠ stage := fun here => outside priority (here ▸ found)
      rw [Option.map_some, Option.map_some, Option.getD_some, Option.getD_some, enter_other other]

/-- Without its first parcel, the queue of a stage is what was behind it. -/
theorem eraseP_stage {p : Parcel} {queued : List Parcel}
    (found : queued.find? (fun q => q.rank = p.rank) = some p) :
    queued.filter (·.stage = p.stage) =
      p :: (queued.eraseP (fun q => q.rank = p.rank)).filter (·.stage = p.stage) := by
  obtain ⟨before, after, split, left, others⟩ := Relay.find?_split found
  have none_ : before.filter (·.stage = p.stage) = [] := by
    refine List.filter_eq_nil_iff.mpr ?_
    intro q member
    rw [decide_eq_true_eq]
    intro same
    exact of_decide_eq_false (others q member) (congrArg Stage.rank same)
  have first : (p :: after).filter (·.stage = p.stage) = p :: after.filter (·.stage = p.stage) :=
    List.filter_cons_of_pos (decide_eq_true rfl)
  rw [left, split, List.filter_append, List.filter_append, none_, first, List.nil_append,
    List.nil_append]

theorem eraseP_other {p : Parcel} {queued : List Parcel}
    (found : queued.find? (fun q => q.rank = p.rank) = some p) {stage : Stage}
    (other : p.stage ≠ stage) :
    (queued.eraseP (fun q => q.rank = p.rank)).filter (·.stage = stage) =
      queued.filter (·.stage = stage) := by
  obtain ⟨before, after, split, left, _⟩ := Relay.find?_split found
  have unlisted : (p :: after).filter (·.stage = stage) = after.filter (·.stage = stage) := by
    refine List.filter_cons_of_neg ?_
    rw [decide_eq_true_eq]
    exact other
  rw [left, split, List.filter_append, List.filter_append, unlisted]

/-- `pop` returns the parcel that an empty hand takes. -/
theorem Matches.pop (matched : Matches side name s pool) {list : List JobPriorities} {p : Parcel}
    (found : ((list.filterMap side).map Stage.rank).findSome?
      (fun k => s.queued.find? fun q => q.rank = k) = some p) :
    ∃ priority, side priority = some p.stage ∧
      pool.pop list = some (⟨name p, priority⟩, pool.setQueue priority
        (((s.queued.eraseP fun q => q.rank = p.rank).filter (·.stage = p.stage)).map name)) := by
  induction list with
  | nil => cases found
  | cons priority rest ih =>
      cases is : side priority with
      | none =>
          rw [List.filterMap_cons_none is] at found
          have empty : pool.jobQueues priority = [] := by
            rw [matched priority, is]
            rfl
          rw [JobPool.pop, empty]
          exact ih found
      | some stage =>
          rw [List.filterMap_cons_some is, List.map_cons, List.findSome?_cons] at found
          cases front : s.queued.find? (fun q => q.rank = stage.rank) with
          | none =>
              rw [front] at found
              have empty : pool.jobQueues priority = [] := by
                rw [matched.queue is, List.map_eq_nil_iff, List.filter_eq_nil_iff]
                intro q member
                rw [decide_eq_true_eq]
                intro same
                exact List.find?_eq_none.mp front q member
                  (decide_eq_true (congrArg Stage.rank same))
              rw [JobPool.pop, empty]
              exact ih found
          | some q =>
              rw [front] at found
              cases found
              have here := List.find?_some front
              rw [decide_eq_true_eq] at here
              cases Stage.rank_inj here
              refine ⟨priority, is, ?_⟩
              have queue := matched.queue is
              rw [eraseP_stage front, List.map_cons] at queue
              rw [JobPool.pop, queue]

/-- A pop takes from the pool what the hand takes from the relay. -/
theorem Matches.take [DecidableEq ω] (matched : Matches side name s pool)
    (apart : ∀ one two stage, side one = some stage → side two = some stage → one = two)
    {workers : List (List JobPriorities)} {i : Nat} {hand : ω}
    (taken : s.take Parcel.rank hand (Stage.served side workers i) = some t) :
    ∃ p priority after, side priority = some p.stage ∧
      pool.pop ((workers[i]?).getD []) = some (⟨name p, priority⟩, after) ∧
      t.held = (hand, p) :: s.held ∧ Matches side name t after := by
  unfold Relay.take at taken
  split at taken
  next => cases taken
  next =>
    obtain ⟨p, found, same⟩ := Option.map_eq_some_iff.mp taken
    subst same
    obtain ⟨priority, is, popped⟩ := matched.pop found
    have first : s.queued.find? (fun q => q.rank = p.rank) = some p := by
      obtain ⟨k, _, front⟩ := List.exists_of_findSome?_eq_some found
      have here := List.find?_some front
      rw [decide_eq_true_eq] at here
      rwa [← here] at front
    refine ⟨p, priority, _, is, popped, rfl, ?_⟩
    intro other
    by_cases same : other = priority
    · rw [same, JobPool.setQueue_self, is]
      rfl
    · rw [JobPool.setQueue_ne _ _ same, matched other]
      cases there : side other with
      | none => rfl
      | some stage =>
          have different : p.stage ≠ stage := fun here =>
            same (apart other priority p.stage (here ▸ there) is)
          exact congrArg (List.map name) (eraseP_other first different).symm

end

end CppToolkit.Network
