import CppToolkit.Network.SendingJob
import CppToolkit.Thread.Ownership

/-! The pool of a `DataHandler` and its socket. Nothing but the lists of priorities that
the workers get keeps the sends of two `SendingJob`s apart. -/
namespace CppToolkit.Network
open Words
open Thread (JobPriorities JobPool ThreadPool ThreadWorker Phase Owner)

/-- How far `working` is: before a send, or at its return. -/
inductive Sending where
  | start
  | length
  | data (rest : List UInt8)
  | finish
  | done (result : Except String Unit)

def Sending.returned : Sending → Bool
  | .done _ => true
  | _ => false

def Sending.succeeded : Sending → Bool
  | .done (.ok ()) => true
  | _ => false

def Sending.failed : Sending → Bool
  | .done (.error _) => true
  | _ => false

theorem Sending.succeeded_of_returned {sending : Sending} (returned : sending.returned = true)
    (fine : sending.failed = false) : sending = .done (.ok ()) := by
  cases sending with
  | done result =>
      cases result with
      | error what => cases fine
      | ok done => rfl
  | _ => cases returned

theorem Sending.not_succeeded {sending : Sending} (going : sending.returned = false) :
    sending.succeeded = false := by
  cases sending with
  | done result => cases going
  | _ => rfl

/-- A socket that gives one answer. -/
def Transfers.always (answer : Except String Nat) : Transfers :=
  ⟨answer, answer, fun _ _ => answer, answer⟩

namespace SendingJob

/-- The tests before the first send. -/
def enter (job : SendingJob) : Sending :=
  if job.data = [] then .done (.error "cannot send to empty data")
  else if !job.socket then .done (.error "cannot send on null socket")
  else .start

/-- The return of `working` behind a send that failed, or the next send. -/
def goOn (written : Written) (next : Sending) : List UInt8 × Sending :=
  match written.result with
  | .ok () => (written.bytes, next)
  | .error what => (written.bytes, .done (.error what))

/-- One call of `socket_->send`: the bytes it took, and what follows. -/
def send (job : SendingJob) : Sending → Except String Nat → Option (List UInt8 × Sending)
  | .start, answer => some (goOn (job.sendStart (.always answer)) .length)
  | .length, answer => some (goOn (sendLength job.data.length (.always answer)) (.data job.data))
  | .data _, .error what => some ([], .done (.error what))
  | .data rest, .ok answer =>
      let sent := min answer (min job.bufferSize rest.length)
      if sent = 0 then
        some ([], .done (.error
          ("cannot send data: sent [0] / total [" ++ toString job.data.length ++ "] bytes")))
      else
        some (rest.take sent, if rest.drop sent = [] then .finish else .data (rest.drop sent))
  | .finish, answer => some (goOn (job.sendEnd (.always answer)) (.done (.ok ())))
  | .done _, _ => none

/-- The sends of one call of `working`, with the bytes they wrote. -/
inductive Sends (job : SendingJob) : Sending → List UInt8 → Sending → Prop
  | refl (sending : Sending) : Sends job sending [] sending
  | step {sending next last : Sending} {bytes rest : List UInt8} (answer : Except String Nat) :
      job.send sending answer = some (bytes, next) → Sends job next rest last →
      Sends job sending (bytes ++ rest) last

theorem Sends.trans {job : SendingJob} {sending next last : Sending} {bytes rest : List UInt8}
    (first : job.Sends sending bytes next) (second : job.Sends next rest last) :
    job.Sends sending (bytes ++ rest) last := by
  induction first with
  | refl => exact second
  | step answer sent _ ih =>
      rw [List.append_assoc]
      exact .step answer sent (ih second)

theorem Sends.single {job : SendingJob} {sending next : Sending} {bytes : List UInt8}
    (answer : Except String Nat) (sent : job.send sending answer = some (bytes, next)) :
    job.Sends sending bytes next := by
  have one := Sends.step answer sent (.refl next)
  rwa [List.append_nil] at one

/-- The bytes still to be written before the frame is whole. -/
def unsent (job : SendingJob) : Sending → List UInt8
  | .start => job.frame
  | .length => leWord lengthSize job.data.length ++ job.data ++ job.endCode
  | .data rest => rest ++ job.endCode
  | .finish => job.endCode
  | .done _ => []

theorem sendWhole_ok {bytes : List UInt8} {answer : Except String Nat} {failure : String}
    (whole : (sendWhole bytes answer failure).result = .ok ()) :
    (sendWhole bytes answer failure).bytes = bytes := by
  unfold sendWhole at whole ⊢
  split
  next => cases whole
  next sent =>
    split
    next short =>
      dsimp only at whole
      rw [if_pos short] at whole
      cases whole
    next => rfl

theorem goOn_unsent (job : SendingJob) {bytes out : List UInt8} {answer : Except String Nat}
    {failure : String} {next last : Sending}
    (went : goOn (sendWhole bytes answer failure) next = (out, last)) :
    (∃ what, last = .done (.error what)) ∨
      out ++ job.unsent last = bytes ++ job.unsent next := by
  unfold goOn at went
  split at went
  next whole =>
    cases went
    rw [sendWhole_ok whole]
    exact .inr rfl
  next what failed =>
    cases went
    exact .inl ⟨what, rfl⟩

/-- A send that does not fail takes its bytes from what is left of the frame. -/
theorem send_unsent {job : SendingJob} {sending next : Sending} {answer : Except String Nat}
    {out : List UInt8} (sent : job.send sending answer = some (out, next)) :
    (∃ what, next = .done (.error what)) ∨ out ++ job.unsent next = job.unsent sending := by
  cases sending with
  | start =>
      refine (goOn_unsent job (Option.some.inj sent)).imp id fun same => same.trans ?_
      simp only [unsent, frame, List.append_assoc]
  | length =>
      refine (goOn_unsent job (Option.some.inj sent)).imp id fun same => same.trans ?_
      simp only [unsent, List.append_assoc]
  | data rest =>
      cases answer with
      | error what =>
          cases sent
          exact .inl ⟨what, rfl⟩
      | ok count =>
          simp only [send] at sent
          split at sent <;> cases sent
          · exact .inl ⟨_, rfl⟩
          · right
            split
            next all =>
              have whole := List.take_append_drop (min count (min job.bufferSize rest.length)) rest
              rw [all, List.append_nil] at whole
              rw [whole]
              rfl
            next => rw [unsent, unsent, ← List.append_assoc, List.take_append_drop]
  | finish =>
      refine (goOn_unsent job (Option.some.inj sent)).imp id fun same => same.trans ?_
      simp only [unsent, List.append_nil]
  | done result => cases sent

/-- The chunk loop is a run of sends. -/
theorem sends_data (job : SendingJob) (net : Transfers) (turn : Nat) (rest : List UInt8)
    (some_ : rest ≠ []) :
    let written := sendData job.bufferSize job.data.length net turn rest
    job.Sends (.data rest) (goOn written .finish).1 (goOn written .finish).2 := by
  intro written
  simp only [written]
  fun_induction sendData job.bufferSize job.data.length net turn rest with
  | case1 => exact absurd rfl some_
  | case2 turn rest nonempty temp what answered => exact .single (.error what) rfl
  | case3 turn rest nonempty temp answer answered sent nothing =>
      exact .single (.ok answer) (if_pos nothing)
  | case4 turn rest nonempty temp answer answered sent some more ih =>
      have one : job.send (.data rest) (.ok answer) = _ := if_neg some
      by_cases all : rest.drop sent = []
      · rw [if_pos all] at one
        have last : more = ⟨[], .ok ()⟩ := by
          simp only [more, all]
          rw [sendData, if_pos rfl]
        rw [last, List.append_nil]
        exact .single (.ok answer) one
      · rw [if_neg all] at one
        have both := (Sends.single (.ok answer) one).trans (ih all)
        unfold goOn at both ⊢
        cases result : more.result with
        | ok done =>
            rw [result] at both
            exact both
        | error what =>
            rw [result] at both
            exact both

/-- The sends of one statement and, unless it failed, of what follows it. -/
theorem sends_andThen {job : SendingJob} {sending mid : Sending} {first next : Written}
    (one : job.Sends sending (goOn first mid).1 (goOn first mid).2)
    (two : job.Sends mid next.bytes (.done next.result)) :
    job.Sends sending (first.andThen next).bytes (.done (first.andThen next).result) := by
  unfold goOn at one
  unfold Written.andThen
  cases result : first.result with
  | ok done =>
      rw [result] at one
      exact one.trans two
  | error what =>
      rw [result] at one
      exact one

/-- `working` is one of the runs of sends, for every behaviour of the socket. -/
theorem sends_working (job : SendingJob) (net : Transfers) :
    job.Sends job.enter (job.working net).bytes (.done (job.working net).result) := by
  unfold enter working
  by_cases empty : job.data = []
  · rw [if_pos empty, if_pos empty]
    exact .refl _
  by_cases null : (!job.socket) = true
  · rw [if_neg empty, if_neg empty, if_pos null, if_pos null]
    exact .refl _
  rw [if_neg empty, if_neg empty, if_neg null, if_neg null]
  refine sends_andThen (.single net.start rfl) ?_
  refine sends_andThen (.single net.length rfl) ?_
  refine sends_andThen (sends_data job net 0 job.data empty) ?_
  have last : job.Sends .finish (goOn (job.sendEnd net) (.done (.ok ()))).1
      (goOn (job.sendEnd net) (.done (.ok ()))).2 := .single net.finish rfl
  unfold goOn at last
  cases result : (job.sendEnd net).result with
  | ok done =>
      rw [result] at last
      exact last
  | error what =>
      rw [result] at last
      exact last

end SendingJob

/-- The workers of `create_thread_pool`, by their lists of priorities. -/
def createThreadPool (highPriorityCount normalPriorityCount lowPriorityCount : Nat) :
    List (List JobPriorities) :=
  [JobPriorities.top] :: (List.replicate highPriorityCount [JobPriorities.high] ++
    List.replicate normalPriorityCount [JobPriorities.normal, JobPriorities.high] ++
    List.replicate lowPriorityCount [JobPriorities.low, JobPriorities.high, JobPriorities.normal])

/-- `NetworkClient::start` adds a worker for its main job. -/
def clientThreadPool (highPriorityCount normalPriorityCount lowPriorityCount : Nat) :
    List (List JobPriorities) :=
  createThreadPool highPriorityCount normalPriorityCount lowPriorityCount ++ [[.longTerm]]

/-- Only the first list has the priority of a `SendingJob`. -/
def FirstSends (workers : List (List JobPriorities)) : Prop :=
  ∀ i list, workers[i]? = some list → JobPriorities.top ∈ list → i = 0

theorem firstSends_cons {first : List JobPriorities} {others : List (List JobPriorities)}
    (none_ : ∀ list ∈ others, JobPriorities.top ∉ list) : FirstSends (first :: others) := by
  intro i list found listed
  cases i with
  | zero => rfl
  | succ i =>
      rw [List.getElem?_cons_succ] at found
      exact absurd listed (none_ list (List.mem_of_getElem? found))

theorem createThreadPool_others (high normal low : Nat) :
    ∀ list ∈ List.replicate high [JobPriorities.high] ++ List.replicate normal [.normal, .high] ++
      List.replicate low [.low, .high, .normal], JobPriorities.top ∉ list := by
  intro list member
  rcases List.mem_append.mp member with member | member
  · rcases List.mem_append.mp member with member | member
    · rw [List.eq_of_mem_replicate member]
      decide
    · rw [List.eq_of_mem_replicate member]
      decide
  · rw [List.eq_of_mem_replicate member]
    decide

theorem createThreadPool_firstSends (high normal low : Nat) :
    FirstSends (createThreadPool high normal low) :=
  firstSends_cons (createThreadPool_others high normal low)

theorem clientThreadPool_firstSends (high normal low : Nat) :
    FirstSends (clientThreadPool high normal low) := by
  refine firstSends_cons ?_
  intro list member
  rcases List.mem_append.mp member with member | member
  · exact createThreadPool_others high normal low list member
  · rw [List.mem_singleton.mp member]
    decide

/-- The pool of a handler and its socket. `sendings` is how far the `SendingJob` of each
worker is, `finished` the jobs whose `working` returned true, in order. -/
structure SocketPool where
  pool : ThreadPool
  sendings : Nat → Option Sending
  wire : List UInt8
  finished : List Thread.Job
  failed : Bool

namespace SocketPool

inductive Action where
  | pool (action : Thread.Action)
  | send (worker : Nat) (answer : Except String Nat)

/-- Before any packet is sent. -/
def fresh (workers : List (List JobPriorities)) : SocketPool :=
  ⟨.started workers, fun _ => none, [], [], false⟩

/-- A `SendingJob` pushes nothing, and its `work` returns behind its last send. -/
def enabled (s : SocketPool) : Thread.Action → Bool
  | .worker i =>
      match (s.pool.workers i).phase with
      | .running job none => job.priority ≠ .top || (s.sendings i).any Sending.returned
      | _ => true
  | .push i _ => (s.sendings i).isNone
  | _ => true

section
variable (jobs : Nat → SendingJob)

/-- `work` of a popped `SendingJob` begins, or that of a running one has returned. -/
def nextSendings (s : SocketPool) : Thread.Action → Nat → Option Sending
  | .worker i =>
      match (s.pool.workers i).phase with
      | .popped (some job) =>
          if job.priority = .top then Function.update s.sendings i (some (jobs job.id).enter)
          else s.sendings
      | .running _ none => Function.update s.sendings i none
      | _ => s.sendings
  | _ => s.sendings

/-- One send of the job that worker `i` runs. -/
def sendStep (s : SocketPool) (i : Nat) (job : Thread.Job) (sending : Sending)
    (answer : Except String Nat) : Option SocketPool :=
  ((jobs job.id).send sending answer).map fun (bytes, next) =>
    { s with
      sendings := Function.update s.sendings i (some next)
      wire := s.wire ++ bytes
      finished := if next.succeeded then s.finished ++ [job] else s.finished
      failed := s.failed || next.failed }

def step (s : SocketPool) : Action → Option SocketPool
  | .pool a =>
      if s.enabled a then
        (s.pool.step a).map fun pool => { s with pool, sendings := s.nextSendings jobs a }
      else none
  | .send i answer =>
      match (s.pool.workers i).phase, s.sendings i with
      | .running job _, some sending => s.sendStep jobs i job sending answer
      | _, _ => none

end

/-- The `SendingJob` of worker `i` has entered `working` and is not behind its last send. -/
def Inside (s : SocketPool) (i : Nat) : Prop :=
  ∃ sending, s.sendings i = some sending ∧ sending.returned = false

/-- Only worker 0 ever has a job of the priority of the `SendingJob`s, and it is running
while it sends. -/
structure Lone (s : SocketPool) : Prop where
  listed : ∀ i, JobPriorities.top ∈ (s.pool.workers i).priorities → i = 0
  held : ∀ i job, (s.pool.workers i).phase.job = some job → job.priority = .top → i = 0
  sending : ∀ i sending, s.sendings i = some sending →
    ∃ job push, (s.pool.workers i).phase = .running job push ∧ job.priority = .top

theorem Lone.zero {s : SocketPool} (lone : s.Lone) {i : Nat} {sending : Sending}
    (sends : s.sendings i = some sending) : i = 0 := by
  obtain ⟨job, push, running, top⟩ := lone.sending i sending sends
  exact lone.held i job (by rw [running]; rfl) top

theorem fresh_lone {workers : List (List JobPriorities)} (first : FirstSends workers) :
    (fresh workers).Lone := by
  refine ⟨?_, ?_, nofun⟩
  · intro i listed
    change JobPriorities.top ∈ ((ThreadPool.started workers).workers i).priorities at listed
    cases found : workers[i]? with
    | none =>
        simp only [ThreadPool.started, found, Option.map_none, Option.getD_none] at listed
        cases listed
    | some list =>
        simp only [ThreadPool.started, found, Option.map_some, Option.getD_some] at listed
        exact first i list found listed
  · intro i job has
    rcases ThreadPool.started_worker workers i with ⟨_, list, is⟩ | ⟨_, is⟩
    · rw [fresh, is] at has
      cases has
    · rw [fresh, is] at has
      cases has

section
variable {jobs : Nat → SendingJob} {s t : SocketPool}

/-- The two ways in which a step of the pool changes who sends. -/
theorem nextSendings_cases (jobs : Nat → SendingJob) (s : SocketPool) (a : Thread.Action) :
    (s.nextSendings jobs a = s.sendings ∧
      ∀ i job, a = .worker i → (s.pool.workers i).phase ≠ .running job none) ∨
    (∃ i job, a = .worker i ∧ (s.pool.workers i).phase = .popped (some job) ∧
      job.priority = .top ∧
      s.nextSendings jobs a = Function.update s.sendings i (some (jobs job.id).enter)) ∨
    ∃ i job, a = .worker i ∧ (s.pool.workers i).phase = .running job none ∧
      s.nextSendings jobs a = Function.update s.sendings i none := by
  cases a with
  | worker i =>
      have returns : ∀ {phase : Phase}, (s.pool.workers i).phase = phase →
          (∀ job, phase ≠ .running job none) → ∀ k job, Thread.Action.worker i = .worker k →
            (s.pool.workers k).phase ≠ .running job none := by
        intro phase at_ goes k job same
        cases same
        rw [at_]
        exact goes job
      simp only [nextSendings]
      split
      next job popped =>
        split
        next top => exact .inr (.inl ⟨i, job, rfl, popped, top, rfl⟩)
        next => exact .inl ⟨rfl, returns popped nofun⟩
      next job running => exact .inr (.inr ⟨i, job, rfl, running, rfl⟩)
      next other => exact .inl ⟨rfl, returns rfl other⟩
  | _ => exact .inl ⟨rfl, nofun⟩

theorem popped_runs {s t : ThreadPool} {i : Nat} {job : Thread.Job}
    (popped : (s.workers i).phase = .popped (some job)) (stepped : s.step (.worker i) = some t) :
    (t.workers i).phase = .running job none := by
  simp only [ThreadPool.step, ThreadPool.workerStep, popped] at stepped
  cases stepped
  rw [ThreadPool.setPhase_self]

theorem Lone.pool (lone : s.Lone) {a : Thread.Action} {pool : ThreadPool}
    (stepped : s.pool.step a = some pool) :
    Lone { s with pool, sendings := s.nextSendings jobs a } := by
  have moved := ThreadPool.step_inv stepped
  refine ⟨?_, ?_, ?_⟩
  · intro i listed
    exact lone.listed i (moved.priorities i listed)
  · intro i job has top
    rcases moved.job has with had | listed
    · exact lone.held i job had top
    · exact lone.listed i (top ▸ listed)
  · intro i sending sends
    change s.nextSendings jobs a i = some sending at sends
    have goes : s.sendings i = some sending →
        (∀ job, a = .worker i → (s.pool.workers i).phase ≠ .running job none) →
        ∃ job push, (pool.workers i).phase = .running job push ∧ job.priority = .top := by
      intro was inside
      obtain ⟨job, push, running, top⟩ := lone.sending i sending was
      obtain ⟨push', still⟩ := moved.running running fun mine none_ =>
        inside job mine (none_ ▸ running)
      exact ⟨job, push', still, top⟩
    rcases nextSendings_cases jobs s a with ⟨same, inside⟩ | ⟨k, job, rfl, popped, top, same⟩ |
      ⟨k, job, rfl, running, same⟩
    · rw [same] at sends
      exact goes sends (inside i)
    · by_cases here : i = k
      · subst i
        exact ⟨job, none, popped_runs popped stepped, top⟩
      · rw [same, Function.update_of_ne here] at sends
        refine goes sends fun _ mine => ?_
        cases mine
        exact absurd rfl here
    · by_cases here : i = k
      · rw [same, here, Function.update_self] at sends
        cases sends
      · rw [same, Function.update_of_ne here] at sends
        refine goes sends fun _ mine => ?_
        cases mine
        exact absurd rfl here

theorem Lone.send (lone : s.Lone) {i : Nat} {job : Thread.Job} {sending : Sending}
    {answer : Except String Nat} (sends : s.sendings i = some sending)
    (stepped : s.sendStep jobs i job sending answer = some t) : t.Lone := by
  obtain ⟨⟨bytes, next⟩, _, same⟩ := Option.map_eq_some_iff.mp stepped
  subst same
  refine ⟨lone.listed, lone.held, ?_⟩
  intro k sending' now
  by_cases here : k = i
  · subst k
    exact lone.sending i sending sends
  · exact lone.sending k sending' ((Function.update_of_ne here _ _).symm.trans now)

/-- The bytes on the wire are the frames of the finished jobs and the part that the job
which is sending has written of its own. -/
def Framed (jobs : Nat → SendingJob) (s : SocketPool) : Prop :=
  ∃ part, s.wire = s.finished.flatMap (fun job => (jobs job.id).frame) ++ part ∧
    ((∀ i, ¬ s.Inside i) → part = []) ∧
    ∀ i sending job push, s.sendings i = some sending → sending.returned = false →
      (s.pool.workers i).phase = .running job push →
      part ++ (jobs job.id).unsent sending = (jobs job.id).frame

theorem enter_unsent (job : SendingJob) (inside : job.enter.returned = false) :
    job.unsent job.enter = job.frame := by
  unfold SendingJob.enter at inside ⊢
  split
  next empty =>
    rw [if_pos empty] at inside
    cases inside
  next some_ =>
    split
    next null =>
      rw [if_neg some_, if_pos null] at inside
      cases inside
    next => rfl

theorem Framed.pool (lone : s.Lone) (framed : s.Framed jobs) {a : Thread.Action}
    {pool : ThreadPool} (enabled : s.enabled a = true) (stepped : s.pool.step a = some pool) :
    Framed jobs { s with pool, sendings := s.nextSendings jobs a } := by
  obtain ⟨part, wire, outside, inside⟩ := framed
  have moved := ThreadPool.step_inv stepped
  -- the job of a worker that goes on sending is the one it had
  have kept : ∀ {i sending job push}, s.sendings i = some sending → sending.returned = false →
      (∀ job, a = .worker i → (s.pool.workers i).phase ≠ .running job none) →
      (pool.workers i).phase = .running job push →
      part ++ (jobs job.id).unsent sending = (jobs job.id).frame := by
    intro i sending job push was going goes now
    obtain ⟨job', push', running, _⟩ := lone.sending i sending was
    obtain ⟨push'', still⟩ := moved.running running fun mine none_ =>
      goes job' mine (none_ ▸ running)
    cases now.symm.trans still
    exact inside i sending job push' was going running
  rcases nextSendings_cases jobs s a with ⟨same, goes⟩ | ⟨k, job, rfl, popped, top, same⟩ |
    ⟨k, job, rfl, running, same⟩
  · refine ⟨part, wire, ?_, ?_⟩
    · intro nobody
      refine outside fun i sends => nobody i ?_
      rw [Inside, same]
      exact sends
    · intro i sending job push sends going now
      rw [same] at sends
      exact kept sends going (goes i) now
  · have alone : ∀ i sending, s.sendings i ≠ some sending := by
      intro i sending sends
      have here : i = k := (lone.zero sends).trans
        (lone.held k job (by rw [popped]; rfl) top).symm
      obtain ⟨job', push, running, _⟩ := lone.sending i sending sends
      rw [here, popped] at running
      cases running
    have empty : part = [] := outside fun i ⟨sending, sends, _⟩ => alone i sending sends
    refine ⟨part, wire, fun _ => empty, ?_⟩
    intro i sending job' push sends going now
    change s.nextSendings jobs (.worker k) i = some sending at sends
    rw [same] at sends
    by_cases here : i = k
    · subst i
      rw [Function.update_self] at sends
      cases sends
      cases now.symm.trans (popped_runs popped stepped)
      rw [empty, List.nil_append]
      exact enter_unsent (jobs job.id) going
    · rw [Function.update_of_ne here] at sends
      exact absurd sends (alone i sending)
  · have out : ¬ s.Inside k := by
      rintro ⟨sending, sends, going⟩
      obtain ⟨job', push, running', top⟩ := lone.sending k sending sends
      cases running.symm.trans running'
      simp only [SocketPool.enabled, running, top, sends, Option.any_some, going] at enabled
      cases enabled
    have others : ∀ i, i ≠ k → s.nextSendings jobs (.worker k) i = s.sendings i := by
      intro i other
      rw [same, Function.update_of_ne other]
    refine ⟨part, wire, ?_, ?_⟩
    · intro nobody
      refine outside fun i sends => ?_
      by_cases here : i = k
      · exact out (here ▸ sends)
      · refine nobody i ?_
        obtain ⟨sending, was, going⟩ := sends
        exact ⟨sending, (others i here).trans was, going⟩
    · intro i sending job' push sends going now
      change s.nextSendings jobs (.worker k) i = some sending at sends
      by_cases here : i = k
      · rw [same, here, Function.update_self] at sends
        cases sends
      · rw [others i here] at sends
        refine kept sends going (fun _ mine => ?_) now
        cases mine
        exact absurd rfl here

theorem Framed.send (lone : s.Lone) (framed : s.Framed jobs) {i : Nat} {job : Thread.Job}
    {push : Option Thread.Push} {sending : Sending} {answer : Except String Nat}
    (running : (s.pool.workers i).phase = .running job push)
    (sends : s.sendings i = some sending)
    (stepped : s.sendStep jobs i job sending answer = some t) (fine : t.failed = false) :
    t.Framed jobs := by
  obtain ⟨part, wire, _, inside⟩ := framed
  obtain ⟨⟨bytes, next⟩, sent, same⟩ := Option.map_eq_some_iff.mp stepped
  subst same
  have fine : next.failed = false := (Bool.or_eq_false_iff.mp fine).2
  have going : sending.returned = false := by
    cases sending with
    | done result => cases sent
    | _ => rfl
  have before := inside i sending job push sends going running
  have whole : bytes ++ (jobs job.id).unsent next = (jobs job.id).unsent sending := by
    rcases SendingJob.send_unsent sent with ⟨what, failed⟩ | whole
    · subst failed
      cases fine
    · exact whole
  have only : ∀ {k sending'}, Function.update s.sendings i (some next) k = some sending' →
      k = i ∧ sending' = next := by
    intro k sending' now
    by_cases here : k = i
    · subst k
      rw [Function.update_self] at now
      exact ⟨rfl, (Option.some.inj now).symm⟩
    · rw [Function.update_of_ne here] at now
      exact absurd ((lone.zero now).trans (lone.zero sends).symm) here
  cases returned : next.returned with
  | false =>
      refine ⟨part ++ bytes, ?_, ?_, ?_⟩
      · dsimp only
        rw [wire, Sending.not_succeeded returned, if_neg Bool.false_ne_true, List.append_assoc]
      · intro nobody
        exact absurd ⟨next, Function.update_self _ _ _, returned⟩ (nobody i)
      · intro k sending' job' push' now _ running'
        obtain ⟨rfl, rfl⟩ := only now
        cases running.symm.trans running'
        rw [List.append_assoc, whole]
        exact before
  | true =>
      obtain rfl := Sending.succeeded_of_returned returned fine
      refine ⟨[], ?_, fun _ => rfl, ?_⟩
      · have frame : part ++ bytes = (jobs job.id).frame := by
          have last : bytes = (jobs job.id).unsent sending := by
            rw [← whole]
            exact (List.append_nil bytes).symm
          rw [last, before]
        have ended : (Sending.done (.ok ())).succeeded = true := rfl
        dsimp only
        rw [wire, ended, if_pos rfl, List.append_assoc, frame, List.append_nil,
          List.flatMap_append, List.flatMap_singleton]
      · intro k sending' job' push' now going'
        obtain ⟨rfl, rfl⟩ := only now
        cases going'

/-- While no send has failed, the wire is framed. -/
structure Kept (jobs : Nat → SendingJob) (s : SocketPool) : Prop where
  lone : s.Lone
  framed : s.failed = false → s.Framed jobs

theorem kept_step {a : Action} (kept : s.Kept jobs) (stepped : s.step jobs a = some t) :
    t.Kept jobs := by
  cases a with
  | pool a =>
      simp only [step] at stepped
      split at stepped
      next enabled =>
        obtain ⟨pool, moved, same⟩ := Option.map_eq_some_iff.mp stepped
        subst same
        exact ⟨kept.lone.pool moved, fun fine => (kept.framed fine).pool kept.lone enabled moved⟩
      next => cases stepped
  | send i answer =>
      simp only [step] at stepped
      split at stepped
      next job push sending running sends =>
        refine ⟨kept.lone.send sends stepped, fun fine => ?_⟩
        have before : s.failed = false := by
          obtain ⟨⟨bytes, next⟩, _, same⟩ := Option.map_eq_some_iff.mp stepped
          subst same
          exact (Bool.or_eq_false_iff.mp fine).1
        exact (kept.framed before).send kept.lone running sends stepped fine
      next => cases stepped

end

/-- For every choice of the worker counts: at most one `SendingJob` is inside its sends, and
while no send has failed the wire holds whole frames and what the current job has written. -/
theorem frames_never_interleave (jobs : Nat → SendingJob) {workers : List (List JobPriorities)}
    {high normal low : Nat} (created : workers = createThreadPool high normal low ∨
      workers = clientThreadPool high normal low) {actions : List Action} {s : SocketPool}
    (ran : Machine.run (step jobs) (fresh workers) actions = some s) :
    (∀ i k, s.Inside i → s.Inside k → i = k) ∧
      (s.failed = false → s.Framed jobs) := by
  have first : FirstSends workers := by
    rcases created with rfl | rfl
    · exact createThreadPool_firstSends high normal low
    · exact clientThreadPool_firstSends high normal low
  have start : (fresh workers).Kept jobs := by
    refine ⟨fresh_lone first, fun _ => ⟨[], rfl, fun _ => rfl, ?_⟩⟩
    intro i sending job push sends
    cases sends
  have kept := Machine.run_keeps (fun _ _ _ held stepped => kept_step held stepped) start ran
  refine ⟨?_, kept.framed⟩
  rintro i k ⟨_, one, _⟩ ⟨_, two, _⟩
  exact (kept.lone.zero one).trans (kept.lone.zero two).symm

/-- A packet is pushed, and its job has written the start code and the length. -/
def sendingOne : List Action :=
  Action.pool (.call 0 (.push .top)) :: List.replicate 2 (Action.pool (.caller 0)) ++
    List.replicate 8 (Action.pool (.worker 0)) ++ [Action.send 0 (.ok 1), Action.send 0 (.ok 8)]

def onePacket (_ : Nat) : SendingJob := ⟨true, [1], [7], [2], 1024⟩

theorem frames_never_interleave_one :
    ∃ s, Machine.run (step onePacket) (fresh (createThreadPool 1 1 1)) sendingOne = some s ∧
      s.wire = 1 :: leWord lengthSize 1 ∧ s.Framed onePacket := by
  refine ⟨_, rfl, rfl, ?_⟩
  exact (@frames_never_interleave onePacket (createThreadPool 1 1 1) 1 1 1 (.inl rfl)
    sendingOne _ rfl).2 rfl

end SocketPool
end CppToolkit.Network
