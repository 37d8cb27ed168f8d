import CppToolkit.Library.Machine
import CppToolkit.Network.PipelineRoundTrip
import CppToolkit.Network.Stages
import Mathlib.Logic.Relation

/-! The calls of `send_message` and `send_binary` of one thread, and their packets on the
way through the pool to the socket. -/
namespace CppToolkit.Network
open Memory Utilities Thread Machine

inductive Call where
  | message (message : List UInt8)
  | binary (binary message : List UInt8)
  deriving DecidableEq, Repr

def Call.send (h : DataHandler) : Call → Except String Job
  | .message text => h.sendMessage text
  | .binary data text => h.sendBinary data text

/-- The calls so far, and what has become of their packets. Nothing leaves the wire. -/
structure Dispatch where
  calls : List Call
  relay : Relay Nat Parcel

namespace Dispatch

inductive Action where
  | call (call : Call)
  | take (worker : Nat)
  | work (worker : Nat)
  deriving DecidableEq, Repr

def initial : Dispatch := ⟨[], .empty⟩

/-- The frames on the socket, in the order in which they were written. -/
def frames (s : Dispatch) : List Parcel := s.relay.queued.filter (·.stage = .wire)

/-- The push at the end of an accepted call. -/
def pushed (s : Dispatch) : Except String Job → Relay Nat Parcel
  | .error _ => s.relay
  | .ok job => ((Parcel.ofJob job s.calls.length).map s.relay.enter).getD s.relay

/-- The job in the hand of a worker, from its pop to its push. -/
def workStep (c : Codecs) (h : DataHandler) (relay : Relay Nat Parcel) (worker : Nat)
    (parcel : Parcel) : Option (Relay Nat Parcel) :=
  match parcel.work c h with
  | some (.ok worked) =>
      let rest := relay.release worker
      some (((parcel.next worked).map rest.enter).getD rest)
  | _ => none

def step (c : Codecs) (h : DataHandler) (workers : List (List JobPriorities)) (s : Dispatch) :
    Action → Option Dispatch
  | .call call => some ⟨s.calls ++ [call], s.pushed (call.send h)⟩
  | .take worker =>
      (s.relay.take Parcel.rank worker (Stage.served Stage.ofSender workers worker)).map
        fun relay => { s with relay }
  | .work worker =>
      (s.relay.holds worker).bind fun parcel =>
        (workStep c h s.relay worker parcel).map fun relay => { s with relay }

/-- The worker passes on a packet while another one has an earlier packet in its hand, at
the same stage. -/
def overtakes (s : Dispatch) : Action → Bool
  | .work worker =>
      (s.relay.holds worker).any fun parcel => parcel.stage ≠ .send &&
        s.relay.held.any fun other => other.2.stage = parcel.stage && other.2.call < parcel.call
  | _ => false

/-- What a call comes to at some stage. -/
inductive OfCall (c : Codecs) (h : DataHandler) (call : Call) : Parcel → Prop
  | pushed {job : Job} {number : Nat} {parcel : Parcel} : call.send h = .ok job →
      Parcel.ofJob job number = some parcel → OfCall c h call parcel
  | worked {parcel next : Parcel} {worked : Worked} : OfCall c h call parcel →
      parcel.work c h = some (.ok worked) → parcel.next worked = some next → OfCall c h call next

/-- The first worker alone has the `SendingJob`s. -/
def sender (rank : Nat) : Option Nat := if rank = Stage.send.rank then some 0 else none

/-- Every packet is that of its call, at one place, and a worker has one job in its hand. -/
structure Placed (c : Codecs) (h : DataHandler) (s : Dispatch) : Prop where
  known : ∀ p ∈ s.relay.items, ∃ call, s.calls[p.call]? = some call ∧ OfCall c h call p
  once : (s.relay.items.map Parcel.call).Nodup
  manned : s.relay.Manned Parcel.rank sender

/-- No packet is ahead of one of an earlier call. -/
def InCallOrder (s : Dispatch) : Prop :=
  ∀ one two, one < two → s.relay.InOrder Parcel.rank (·.call = one) (·.call = two)

section
variable {c : Codecs} {h : DataHandler} {s t : Dispatch} {workers : List (List JobPriorities)}

theorem initial_placed : (initial : Dispatch).Placed c h where
  known := fun _ member => nomatch member
  once := .nil
  manned := Relay.manned_empty

theorem initial_inCallOrder : (initial : Dispatch).InCallOrder := fun _ _ _ => Relay.inOrder_empty

theorem Placed.call_lt (placed : s.Placed c h) {p : Parcel} (member : p ∈ s.relay.items) :
    p.call < s.calls.length := by
  obtain ⟨call, found, _⟩ := placed.known p member
  exact (List.getElem?_eq_some_iff.mp found).1

/-- An accepted call pushes a job of the first stage. -/
theorem send_parcel {call : Call} {job : Job} (sent : call.send h = .ok job) {number : Nat}
    {p : Parcel} (parcel : Parcel.ofJob job number = some p) : p.rank = 0 ∧ p.call = number := by
  have encrypts : ∃ data, job = .encryptMessage data := by
    cases call with
    | message text =>
        simp only [Call.send, DataHandler.sendMessage] at sent
        split at sent
        next => cases sent
        next => exact ⟨_, (DataHandler.send_eq_ok sent).2⟩
    | binary data text =>
        simp only [Call.send, DataHandler.sendBinary] at sent
        split at sent
        next => cases sent
        next => exact ⟨_, (DataHandler.send_eq_ok sent).2⟩
  obtain ⟨data, rfl⟩ := encrypts
  cases parcel
  exact ⟨rfl, rfl⟩

/-- What a step does to the relay. -/
inductive Moves (c : Codecs) (h : DataHandler) (workers : List (List JobPriorities)) (s : Dispatch) :
    Action → Dispatch → Prop
  | refused {call : Call} : Moves c h workers s (.call call) ⟨s.calls ++ [call], s.relay⟩
  | called {call : Call} {p : Parcel} : p.rank = 0 → p.call = s.calls.length → OfCall c h call p →
      Moves c h workers s (.call call) ⟨s.calls ++ [call], s.relay.enter p⟩
  | taken {worker : Nat} {p : Parcel} {relay : Relay Nat Parcel} :
      s.relay.Takes Parcel.rank worker (Stage.served Stage.ofSender workers worker) p relay →
      Moves c h workers s (.take worker) { s with relay }
  | dropped {worker : Nat} {p : Parcel} : s.relay.holds worker = some p →
      Moves c h workers s (.work worker) { s with relay := s.relay.release worker }
  | passed {worker : Nat} {p next : Parcel} {worked : Worked} : s.relay.holds worker = some p →
      p.work c h = some (.ok worked) → p.next worked = some next →
      Moves c h workers s (.work worker) { s with relay := (s.relay.release worker).enter next }

theorem step_moves {a : Action} (stepped : step c h workers s a = some t) :
    Moves c h workers s a t := by
  cases a with
  | call call =>
      cases stepped
      unfold pushed
      split
      next => exact .refused
      next job sent =>
        cases parcel : Parcel.ofJob job s.calls.length with
        | none => exact .refused
        | some p =>
            obtain ⟨rank, number⟩ := send_parcel sent parcel
            exact .called rank number (.pushed sent parcel)
  | take worker =>
      obtain ⟨relay, taken, same⟩ := Option.map_eq_some_iff.mp stepped
      subst same
      obtain ⟨p, takes⟩ := Relay.take_takes taken
      exact .taken takes
  | work worker =>
      obtain ⟨p, holds, stepped⟩ := Option.bind_eq_some_iff.mp stepped
      obtain ⟨relay, worked, same⟩ := Option.map_eq_some_iff.mp stepped
      subst same
      unfold workStep at worked
      split at worked
      next what does =>
        cases worked
        cases next : p.next what with
        | none => exact .dropped holds
        | some q => exact .passed holds does next
      next => cases worked

theorem passed_calls {worker : Nat} {p next : Parcel} (holds : s.relay.holds worker = some p)
    (same : next.call = p.call) :
    (((s.relay.release worker).enter next).items.map Parcel.call).Perm
      (s.relay.items.map Parcel.call) := by
  have entered := (Relay.items_enter (s.relay.release worker) next).map Parcel.call
  have released := (Relay.items_release holds).map Parcel.call
  rw [List.map_cons, same] at entered
  exact entered.trans released.symm

theorem Placed.known_call (placed : s.Placed c h) (call : Call) {p : Parcel}
    (member : p ∈ s.relay.items) :
    ∃ call', (s.calls ++ [call])[p.call]? = some call' ∧ OfCall c h call' p := by
  obtain ⟨call', found, of_⟩ := placed.known p member
  exact ⟨call', (List.getElem?_append_left (placed.call_lt member)).trans found, of_⟩

theorem served_send (first : FirstSends workers) {worker other : Nat} {p : Parcel}
    (served : p.rank ∈ Stage.served Stage.ofSender workers worker)
    (only : sender p.rank = some other) : worker = other := by
  unfold sender at only
  split at only
  next send =>
    cases only
    obtain ⟨list, priority, found, listed, top⟩ := Stage.mem_served served
    rw [Stage.rank_inj send] at top
    cases priority <;> cases top
    exact first worker list found listed
  next => cases only

theorem Placed.moves (placed : s.Placed c h) (first : FirstSends workers) {a : Action}
    (moves : Moves c h workers s a t) : t.Placed c h := by
  cases moves with
  | @refused call =>
      exact ⟨fun p member => placed.known_call call member, placed.once, placed.manned⟩
  | @called call p rank number of_ =>
      have entered := Relay.items_enter s.relay p
      refine ⟨?_, ?_, placed.manned.enter p⟩
      · intro q member
        rcases List.mem_cons.mp (entered.mem_iff.mp member) with rfl | old
        · refine ⟨call, ?_, of_⟩
          rw [number]
          exact List.getElem?_concat_length
        · exact placed.known_call call old
      · refine ((entered.map Parcel.call).nodup_iff).mpr (List.nodup_cons.mpr ⟨?_, placed.once⟩)
        intro listed
        obtain ⟨q, member, same⟩ := List.mem_map.mp listed
        have less := placed.call_lt member
        rw [same, number] at less
        exact Nat.lt_irrefl _ less
  | @taken worker p relay takes =>
      exact ⟨fun q member => placed.known q (takes.items.mem_iff.mp member),
        ((takes.items.map Parcel.call).nodup_iff).mpr placed.once,
        takes.manned placed.manned fun other => served_send first takes.wanted⟩
  | @dropped worker p holds =>
      refine ⟨fun q member => placed.known q (Relay.release_items member), ?_,
        placed.manned.release worker⟩
      have all := (((Relay.items_release holds).map Parcel.call).nodup_iff).mp placed.once
      exact (List.nodup_cons.mp all).2
  | @passed worker p next what holds does leaves =>
      have same := (Parcel.work_next does leaves).2
      refine ⟨?_, ((passed_calls holds same).nodup_iff).mpr placed.once,
        (placed.manned.release worker).enter next⟩
      · intro q member
        rcases List.mem_cons.mp ((Relay.items_enter _ next).mem_iff.mp member) with rfl | old
        · obtain ⟨call, found, of_⟩ := placed.known p
            (Relay.mem_items.mpr (.inr ⟨_, Relay.holds_mem holds, rfl⟩))
          exact ⟨call, same ▸ found, of_.worked does leaves⟩
        · exact placed.known q (Relay.release_items old)

/-- The hands of the `SendingJob`s are one hand. -/
theorem Placed.waits (placed : s.Placed c h) {worker : Nat} {p : Parcel}
    (holds : s.relay.holds worker = some p) (stays : s.overtakes (.work worker) = false)
    {held : Nat × Parcel} (member : held ∈ s.relay.held) (earlier : held.2.call < p.call) :
    held.2.rank ≠ p.rank := by
  intro same
  have stage := Stage.rank_inj same
  by_cases send : p.stage = .send
  · have alone : sender p.rank = some 0 := if_pos (congrArg Stage.rank send)
    rw [placed.manned.same holds alone member same] at earlier
    exact Nat.lt_irrefl _ earlier
  · simp only [overtakes, holds, Option.any_some, Bool.and_eq_false_iff, List.any_eq_false,
      decide_eq_false_iff_not, not_not, send, false_or, Bool.and_eq_true, decide_eq_true_eq] at stays
    exact stays held member ⟨stage, earlier⟩

theorem InCallOrder.moves (ordered : s.InCallOrder) (placed : s.Placed c h) {a : Action}
    (stays : s.overtakes a = false) (moves : Moves c h workers s a t) : t.InCallOrder := by
  intro one two less
  have before := ordered one two less
  cases moves with
  | refused => exact before
  | @called call p rank number of_ =>
      refine before.enter ?_ ?_
      · intro here q member there
        have known := placed.call_lt member
        rw [← number, there, here] at known
        exact absurd known (Nat.lt_asymm less)
      · intro _ q _ _
        rw [rank]
        exact Nat.zero_le _
  | taken takes => exact takes.inOrder before
  | dropped holds => exact before.release _
  | @passed worker p next what holds does leaves =>
      obtain ⟨rank, same⟩ := Parcel.work_next does leaves
      refine before.pass holds rank ⟨fun here => same ▸ here, fun there => same ▸ there⟩ ?_
      intro there held member here
      exact placed.waits holds stays member (by rw [here, there]; exact less)

/-- In order of the calls, and each at most once. -/
theorem frames_sorted (placed : s.Placed c h) (ordered : s.InCallOrder) :
    s.frames.Pairwise fun a b => a.call < b.call := by
  have once : (s.relay.queued.map Parcel.call).Nodup := by
    have all := placed.once
    rw [Relay.items, List.map_append] at all
    exact (List.nodup_append.mp all).1
  have pairs : s.relay.queued.Pairwise fun a b =>
      a.stage = .wire → b.stage = .wire → a.call < b.call := by
    rw [List.pairwise_iff_forall_sublist]
    intro a b inside onWire onWire'
    have different := List.pairwise_iff_forall_sublist.mp (List.pairwise_map.mp once) inside
    refine Nat.lt_of_le_of_ne (Nat.le_of_not_lt fun later => ?_) different
    have pair := List.pairwise_iff_forall_sublist.mp (ordered b.call a.call later).queued inside
    have behind := pair.1 rfl rfl
    rw [Parcel.rank, Parcel.rank, onWire, onWire'] at behind
    exact Nat.lt_irrefl _ behind
  rw [frames, List.pairwise_filter]
  exact pairs.imp fun order onWire onWire' =>
    order (of_decide_eq_true onWire) (of_decide_eq_true onWire')

theorem Placed.step (placed : s.Placed c h) (first : FirstSends workers) {a : Action}
    (stepped : Dispatch.step c h workers s a = some t) : t.Placed c h :=
  placed.moves first (step_moves stepped)

end

/-- What one step does to the queues of the pool. -/
inductive PoolStep (workers : List (List JobPriorities)) (pool : JobPool) : JobPool → Prop
  | stays : PoolStep workers pool pool
  | push (job : Thread.Job) : PoolStep workers pool (pool.insert job)
  | pop {after : JobPool} (worker : Nat) (job : Thread.Job) :
      pool.pop ((workers[worker]?).getD []) = some (job, after) → PoolStep workers pool after

section
variable {c : Codecs} {h : DataHandler} {s t : Dispatch} {workers : List (List JobPriorities)}
  {name : Parcel → Nat} {pool : JobPool}

theorem enter_pool {relay : Relay Nat Parcel} (matched : Matches Stage.ofSender name relay pool)
    (p : Parcel) :
    ∃ after, PoolStep workers pool after ∧ Matches Stage.ofSender name (relay.enter p) after := by
  by_cases inside : ∃ priority, Stage.ofSender priority = some p.stage
  · obtain ⟨priority, is⟩ := inside
    exact ⟨_, .push _, matched.insert Stage.ofSender_apart is⟩
  · exact ⟨pool, .stays, matched.elsewhere fun priority is => inside ⟨priority, is⟩⟩

/-- The queues of the relay are those of a pool that takes part in the run. -/
theorem step_pool (matched : Matches Stage.ofSender name s.relay pool) {a : Action}
    (stepped : step c h workers s a = some t) :
    ∃ after, PoolStep workers pool after ∧ Matches Stage.ofSender name t.relay after := by
  cases a with
  | take worker =>
      obtain ⟨relay, taken, same⟩ := Option.map_eq_some_iff.mp stepped
      subst same
      obtain ⟨p, priority, after, _, popped, _, matches_⟩ := matched.take Stage.ofSender_apart taken
      exact ⟨after, .pop worker _ popped, matches_⟩
  | call call =>
      cases step_moves stepped with
      | refused => exact ⟨pool, .stays, matched⟩
      | called => exact enter_pool matched _
  | work worker =>
      cases step_moves stepped with
      | dropped => exact ⟨pool, .stays, matched⟩
      | @passed _ p next => exact @enter_pool _ _ _ (s.relay.release worker) matched next

/-- The runs of the queues beside a run of the packets. -/
theorem run_pool {actions : List Action}
    (ran : run (step c h workers) initial actions = some s) :
    ∃ pool, Relation.ReflTransGen (PoolStep workers) .empty pool ∧
      Matches Stage.ofSender name s.relay pool := by
  refine run_keeps (I := fun s => ∃ pool, Relation.ReflTransGen (PoolStep workers) .empty pool ∧
    Matches Stage.ofSender name s.relay pool) ?_ ⟨.empty, .refl, ?_⟩ ran
  · rintro s a t ⟨pool, reached, matched⟩ stepped
    obtain ⟨after, moved, matches_⟩ := step_pool matched stepped
    exact ⟨after, reached.tail moved, matches_⟩
  · intro priority
    cases Stage.ofSender priority <;> rfl

end

/-- Whatever the workers do, each frame is that of one call and no call has two frames; where
no job is overtaken by one of a later call in another hand, the frames are in the order of
the calls. -/
theorem frames_in_call_order (c : Codecs) (h : DataHandler) {high normal low : Nat}
    {actions : List Action} {s : Dispatch}
    (ran : run (step c h (createThreadPool high normal low)) initial actions = some s) :
    (∀ frame ∈ s.frames, ∃ call, s.calls[frame.call]? = some call ∧ OfCall c h call frame) ∧
      (s.frames.map Parcel.call).Nodup ∧
      (Along (step c h (createThreadPool high normal low)) (fun s a => s.overtakes a = false)
        initial actions → s.frames.Pairwise fun a b => a.call < b.call) := by
  have first := createThreadPool_firstSends high normal low
  have placed : s.Placed c h := run_keeps (fun _ _ _ held stepped => held.step first stepped)
    initial_placed ran
  have shown : ∀ {frame}, frame ∈ s.frames → frame ∈ s.relay.items := fun member =>
    Relay.mem_items.mpr (.inl (List.mem_of_mem_filter member))
  refine ⟨fun frame member => placed.known frame (shown member), ?_, ?_⟩
  · have all := placed.once
    rw [Relay.items, List.map_append] at all
    exact (List.nodup_append.mp all).1.sublist (List.filter_sublist.map Parcel.call)
  · intro along
    have both := run_invariant (I := fun s => s.Placed c h ∧ s.InCallOrder)
      (fun _ _ _ held stays stepped => ⟨held.1.step first stepped,
        held.2.moves held.1 stays (step_moves stepped)⟩)
      ⟨initial_placed, initial_inCallOrder⟩ along ran
    exact frames_sorted both.1 both.2

/-- Two messages, one behind the other. -/
def oneByOne : List Action :=
  [.call (.message [104, 105]), .call (.message [106]), .take 2, .take 3, .work 2, .work 3,
    .take 1, .work 1, .take 1, .take 0, .work 0, .work 1, .take 0, .work 0]

theorem frames_in_call_order_two :
    ∃ s, run (step Link.sampleCodecs .connected (createThreadPool 1 1 1)) initial oneByOne = some s ∧
      s.frames.length = 2 ∧ s.frames.Pairwise fun a b => a.call < b.call := by
  have frames : (run (step Link.sampleCodecs .connected (createThreadPool 1 1 1)) initial
      oneByOne).map (fun s => s.frames.length) = some 2 := by decide +kernel
  obtain ⟨s, ran, two⟩ := Option.map_eq_some_iff.mp frames
  exact ⟨s, ran, two, (frames_in_call_order Link.sampleCodecs .connected ran).2.2
    (by decide +kernel)⟩

/-- The worker that has the first message in its hand is slow. -/
def overtaken : List Action :=
  [.call (.message [104, 105]), .call (.message [106]), .take 2, .take 3, .work 3, .take 1, .work 1,
    .take 0, .work 0, .work 2, .take 1, .work 1, .take 0, .work 0]

theorem frames_out_of_call_order :
    ¬ ∀ high normal low actions s, 0 < high → 0 < normal → 0 < low →
      run (step Link.sampleCodecs .connected (createThreadPool high normal low)) initial actions =
        some s → s.frames.Pairwise fun a b => a.call < b.call := by
  intro always
  have frames : (run (step Link.sampleCodecs .connected (createThreadPool 1 1 1)) initial
      overtaken).map (fun s => s.frames.map Parcel.call) = some [1, 0] := by decide +kernel
  obtain ⟨s, ran, calls⟩ := Option.map_eq_some_iff.mp frames
  have ordered := always 1 1 1 overtaken s Nat.one_pos Nat.one_pos Nat.one_pos ran
  have pairs : (s.frames.map Parcel.call).Pairwise (· < ·) := List.pairwise_map.mpr ordered
  rw [calls] at pairs
  revert pairs
  decide

end Dispatch
end CppToolkit.Network
