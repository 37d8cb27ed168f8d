import CppToolkit.Library.Bag
import CppToolkit.Library.Futures
import CppToolkit.Library.Machine

/-! `start`, `wait_stop` and `stop` of the server and of the client in any order, from any
threads: the promise between a call that waits and a call that stops, and what the object
owns in the end. -/
namespace CppToolkit.Network
open Machine Bag Futures

/-- A thread that waits in `wait_stop`, without limit for 0 seconds. -/
structure Waiter where
  promise : Nat
  seconds : Nat
  deriving DecidableEq, Repr

structure StopSignal where
  promises : Promises
  promiseStatus : Option Nat
  futureStatus : Option Nat
  pending : List Waiter

def StopSignal.initial : StopSignal := ⟨.empty, none, none, []⟩

/-- What a server or a client owns, and how it lets go of it: `L` is what its own thread
may still bring in while it does. -/
class Owner (R : Type) (L : outParam Type) where
  running : R → Bool
  release : L → R → R
  Released : R → Prop
  Quiet : L → R → Prop
  released_iff : ∀ late r, Released (release late r) ↔ Quiet late r
  running_owns : ∀ r, running r = true → ¬ Released r

/-- A server or a client with its threads in `wait_stop`. -/
structure Life (R : Type) where
  resources : R
  signal : StopSignal

namespace Life
variable {R L : Type} [Owner R L]
open Owner

/-- `wait_stop` up to the line that waits. The future of `get_future` is always valid. -/
def waitStop (l : Life R) (seconds : Nat) : Life R × Except FutureError Bool :=
  if running l.resources then
    let (promises, p) := match l.signal.promiseStatus with
      | none => (l.signal.promises.make, l.signal.promises.made)
      | some p => (l.signal.promises, p)
    match promises.getFuture p with
    | .error what =>
        ({ l with signal := { l.signal with promises, promiseStatus := some p } }, .error what)
    | .ok promises =>
        ({ l with signal := ⟨promises, some p, some p, l.signal.pending ++ [⟨p, seconds⟩]⟩ }, .ok true)
  else (l, .ok false)

/-- `wait_stop` returns, with the value or because the time is over. -/
def endWait (l : Life R) (position : Nat) (late : L) : Option (Life R) :=
  (takeAt l.signal.pending position).bind fun (waiter, pending) =>
    if (l.signal.promises.states waiter.promise).satisfied ∨ waiter.seconds ≠ 0 then
      some ⟨release late l.resources, { l.signal with pending }⟩
    else none

def stop (l : Life R) (late : L) : Life R × Except FutureError Bool :=
  if running l.resources then
    match l.signal.promiseStatus, l.signal.futureStatus with
    | some p, some _ =>
        match l.signal.promises.setValue p with
        | .error what => (l, .error what)
        | .ok promises =>
            ({ l with signal := { l.signal with promises, promiseStatus := none } }, .ok true)
    | _, _ => ({ l with resources := release late l.resources }, .ok true)
  else (l, .ok false)

end Life

/-- `stopped`: a `stop` has returned true since the last `start`. `threw`: a call has thrown
a `std::future_error`. -/
structure Observed (R : Type) extends Life R where
  stopped : Bool
  threw : Bool

/-- The calls that server and client have in common. -/
inductive LifeCall (L : Type) where
  | waitStop (seconds : Nat)
  | endWait (position : Nat) (late : L)
  | stop (late : L)
  deriving DecidableEq, Repr

namespace Observed
variable {R L : Type} [Owner R L]
open Owner

def hasThrown : Except FutureError Bool → Bool
  | .error _ => true
  | .ok _ => false

def succeeded : Except FutureError Bool → Bool
  | .ok reply => reply
  | .error _ => false

def call (o : Observed R) : LifeCall L → Option (Observed R)
  | .waitStop seconds =>
      let (life, reply) := o.toLife.waitStop seconds
      some { o with toLife := life, threw := o.threw || hasThrown reply }
  | .endWait position late => (o.toLife.endWait position late).map fun life => { o with toLife := life }
  | .stop late =>
      let (life, reply) := o.toLife.stop late
      some ⟨life, o.stopped || succeeded reply, o.threw || hasThrown reply⟩

/-- No call has thrown, and once a `stop` has returned true and nobody waits any more, the
object has let go of everything. -/
def Safe (o : Observed R) : Prop :=
  o.threw = false ∧ (o.stopped = true → o.signal.pending = [] → Released o.resources)

/-- A running object is waited for only without a promise, stopped with a promise only while
somebody waits, and lets go for the last time only while nothing comes in. -/
def Allowed (o : Observed R) : LifeCall L → Prop
  | .waitStop _ => running o.resources = true → o.signal.promiseStatus = none
  | .endWait position late =>
      o.stopped = true → o.signal.pending.eraseIdx position = [] → Quiet late o.resources
  | .stop late => running o.resources = true →
      if o.signal.promiseStatus = none then o.signal.pending = [] → Quiet late o.resources
      else o.signal.pending ≠ []

instance (o : Observed R) [∀ (late : L) (r : R), Decidable (Quiet late r)] :
    ∀ c, Decidable (o.Allowed c)
  | .waitStop _ => inferInstanceAs (Decidable (_ → _))
  | .endWait _ _ => inferInstanceAs (Decidable (_ → _ → _))
  | .stop _ => inferInstanceAs (Decidable (_ → ite _ _ _))

end Observed

/-- The promise of the object has given its future away, and no value has been set. -/
structure StopSignal.Linked (s : StopSignal) : Prop where
  retrieved : ∀ p, s.promiseStatus = some p → (s.promises.states p).retrieved = true
  unset : ∀ p, s.promiseStatus = some p → (s.promises.states p).satisfied = false
  valid : s.promiseStatus ≠ none → s.futureStatus ≠ none

theorem StopSignal.Linked.free {s : StopSignal} (none_ : s.promiseStatus = none) : s.Linked := by
  refine ⟨fun p some_ => ?_, fun p some_ => ?_, fun some_ => absurd none_ some_⟩
  · cases none_.symm.trans some_
  · cases none_.symm.trans some_

namespace Life
variable {R L : Type} [Owner R L] {l : Life R}
open Owner

theorem waitStop_idle (idle : running l.resources = false) (seconds : Nat) :
    l.waitStop seconds = (l, .ok false) := by
  rw [waitStop, idle]
  rfl

/-- Without a promise `wait_stop` makes one. -/
theorem waitStop_waits (runs : running l.resources = true) (none_ : l.signal.promiseStatus = none)
    (seconds : Nat) :
    ∃ promises p, l.waitStop seconds =
      ({ l with signal := ⟨promises, some p, some p, l.signal.pending ++ [⟨p, seconds⟩]⟩ }, .ok true) ∧
        (promises.states p).retrieved = true ∧ (promises.states p).satisfied = false := by
  refine ⟨l.signal.promises.make.update l.signal.promises.made ⟨true, false⟩,
    l.signal.promises.made, ?_, ?_, ?_⟩
  · rw [waitStop, if_pos runs, none_]
    dsimp only
    rw [Promises.make_getFuture]
  · rw [Promises.update_self]
  · rw [Promises.update_self]

/-- The future of a promise is given away once. -/
theorem waitStop_throws (runs : running l.resources = true) {p : Nat} (linked : l.signal.Linked)
    (promised : l.signal.promiseStatus = some p) (seconds : Nat) :
    l.waitStop seconds = (l, .error .futureAlreadyRetrieved) := by
  obtain ⟨resources, promises, promiseStatus, futureStatus, pending⟩ := l
  cases promised
  rw [waitStop, if_pos runs]
  dsimp only
  rw [Promises.getFuture_again (linked.retrieved p rfl)]

theorem stop_idle (idle : running l.resources = false) (late : L) : l.stop late = (l, .ok false) := by
  rw [stop, idle]
  rfl

theorem stop_releases (runs : running l.resources = true) (none_ : l.signal.promiseStatus = none)
    (late : L) : l.stop late = ({ l with resources := release late l.resources }, .ok true) := by
  rw [stop, if_pos runs, none_]

theorem stop_signals (runs : running l.resources = true) {p : Nat} (linked : l.signal.Linked)
    (promised : l.signal.promiseStatus = some p) (late : L) :
    ∃ promises, l.stop late =
      ({ l with signal := { l.signal with promises, promiseStatus := none } }, .ok true) := by
  have valid := linked.valid (by rw [promised]; exact Option.some_ne_none p)
  obtain ⟨state, future⟩ := Option.ne_none_iff_exists'.mp valid
  refine ⟨l.signal.promises.update p { l.signal.promises.states p with satisfied := true }, ?_⟩
  rw [stop, if_pos runs, promised, future]
  dsimp only
  rw [Promises.setValue_once (linked.unset p promised)]

/-- `stop` does not throw. -/
theorem stop_linked (linked : l.signal.Linked) (late : L) :
    ∃ life reply, l.stop late = (life, .ok reply) ∧ life.signal.Linked := by
  cases runs : running l.resources with
  | false => exact ⟨l, false, stop_idle runs late, linked⟩
  | true =>
      cases promised : l.signal.promiseStatus with
      | none => exact ⟨_, true, stop_releases runs promised late, linked⟩
      | some p =>
          obtain ⟨promises, signals⟩ := stop_signals runs linked promised late
          exact ⟨_, true, signals, .free rfl⟩

theorem endWait_ends {position : Nat} {late : L} {t : Life R} (ended : l.endWait position late = some t) :
    t = ⟨release late l.resources,
      { l.signal with pending := l.signal.pending.eraseIdx position }⟩ := by
  obtain ⟨⟨waiter, pending⟩, taken, goes⟩ := Option.bind_eq_some_iff.mp ended
  obtain ⟨_, _, same⟩ := Option.map_eq_some_iff.mp taken
  obtain ⟨_, rfl⟩ := Prod.mk.inj same
  dsimp only at goes
  split at goes
  next => exact (Option.some.inj goes).symm
  next => cases goes

end Life

namespace Observed
variable {R L : Type} [Owner R L] {o t : Observed R}
open Owner

/-- What a call comes to, for an object whose promise has been linked to a future. -/
inductive Called (o : Observed R) : LifeCall L → Observed R → Prop
  | idleWait {seconds : Nat} (idle : running o.resources = false) : Called o (.waitStop seconds) o
  | waits {seconds p : Nat} {promises : Promises} (runs : running o.resources = true)
      (none_ : o.signal.promiseStatus = none) (retrieved : (promises.states p).retrieved = true)
      (unset : (promises.states p).satisfied = false) : Called o (.waitStop seconds)
        { o with signal := ⟨promises, some p, some p, o.signal.pending ++ [⟨p, seconds⟩]⟩ }
  | throws {seconds : Nat} (runs : running o.resources = true)
      (promised : o.signal.promiseStatus ≠ none) :
        Called o (.waitStop seconds) { o with threw := true }
  | ends {position : Nat} {late : L} : Called o (.endWait position late)
      { o with
        resources := release late o.resources
        signal := { o.signal with pending := o.signal.pending.eraseIdx position } }
  | idleStop {late : L} (idle : running o.resources = false) : Called o (.stop late) o
  | releases {late : L} (runs : running o.resources = true)
      (none_ : o.signal.promiseStatus = none) :
        Called o (.stop late) { o with resources := release late o.resources, stopped := true }
  | signals {late : L} {promises : Promises} (runs : running o.resources = true)
      (promised : o.signal.promiseStatus ≠ none) : Called o (.stop late)
        { o with signal := { o.signal with promises, promiseStatus := none }, stopped := true }

theorem called_of_call {c : LifeCall L} (linked : o.signal.Linked) (called : o.call c = some t) :
    Called o c t := by
  obtain ⟨⟨resources, signal⟩, stopped, threw⟩ := o
  cases c with
  | waitStop seconds =>
      cases runs : running resources with
      | false =>
          rw [call, Life.waitStop_idle runs] at called
          cases called
          rw [hasThrown, Bool.or_false]
          exact .idleWait runs
      | true =>
          cases promised : signal.promiseStatus with
          | none =>
              obtain ⟨promises, p, waits, retrieved, unset⟩ :=
                Life.waitStop_waits (l := ⟨resources, signal⟩) runs promised seconds
              rw [call, waits] at called
              cases called
              rw [hasThrown, Bool.or_false]
              exact .waits runs promised retrieved unset
          | some p =>
              rw [call, Life.waitStop_throws (l := ⟨resources, signal⟩) runs linked promised] at called
              cases called
              rw [hasThrown, Bool.or_true]
              exact .throws runs (promised.trans_ne (Option.some_ne_none p))
  | endWait position late =>
      obtain ⟨life, ended, rfl⟩ := Option.map_eq_some_iff.mp called
      cases Life.endWait_ends ended
      exact .ends
  | stop late =>
      cases runs : running resources with
      | false =>
          rw [call, Life.stop_idle runs] at called
          cases called
          rw [hasThrown, succeeded, Bool.or_false, Bool.or_false]
          exact .idleStop runs
      | true =>
          cases promised : signal.promiseStatus with
          | none =>
              rw [call, Life.stop_releases (l := ⟨resources, signal⟩) runs promised] at called
              cases called
              rw [hasThrown, succeeded, Bool.or_false, Bool.or_true]
              exact .releases runs promised
          | some p =>
              obtain ⟨promises, signals⟩ :=
                Life.stop_signals (l := ⟨resources, signal⟩) runs linked promised late
              rw [call, signals] at called
              cases called
              rw [hasThrown, succeeded, Bool.or_false, Bool.or_true]
              exact .signals runs (promised.trans_ne (Option.some_ne_none p))

/-- What a call does to the promise, whoever makes it. -/
theorem Called.linked {c : LifeCall L} (linked : o.signal.Linked) (called : Called o c t) :
    t.signal.Linked := by
  cases called with
  | idleWait idle => exact linked
  | @waits seconds p promises runs none_ retrieved unset =>
      refine ⟨fun q some_ => ?_, fun q some_ => ?_, fun _ => Option.some_ne_none p⟩
      · cases some_
        exact retrieved
      · cases some_
        exact unset
  | throws runs promised => exact linked
  | ends => exact ⟨linked.retrieved, linked.unset, linked.valid⟩
  | idleStop idle => exact linked
  | releases runs none_ => exact linked
  | signals runs promised => exact .free rfl

/-- A call breaks the property exactly where it is not allowed. -/
theorem Called.safe_iff {c : LifeCall L} (safe : o.Safe) (called : Called o c t) :
    t.Safe ↔ o.Allowed c := by
  cases called with
  | idleWait idle => exact iff_of_true safe fun runs => (by cases idle.symm.trans runs)
  | waits runs none_ retrieved unset =>
      refine iff_of_true ⟨safe.1, fun _ empty => ?_⟩ fun _ => none_
      exact absurd empty (List.append_ne_nil_of_right_ne_nil _ (List.cons_ne_nil _ _))
  | throws runs promised =>
      exact iff_of_false (fun thrown => (by cases thrown.1)) fun allowed => promised (allowed runs)
  | @ends position late =>
      exact (and_iff_right safe.1).trans
        (forall₂_congr fun _ _ => released_iff late o.resources)
  | idleStop idle => exact iff_of_true safe fun runs => (by cases idle.symm.trans runs)
  | @releases late runs none_ =>
      have allowed : o.Allowed (.stop late) ↔ (o.signal.pending = [] → Quiet late o.resources) := by
        rw [Allowed, if_pos none_]
        exact forall_prop_of_true runs
      rw [allowed]
      exact (and_iff_right safe.1).trans ((forall_prop_of_true rfl).trans
        (forall_congr' fun _ => released_iff late o.resources))
  | @signals late promises runs promised =>
      have allowed : o.Allowed (.stop late) ↔ o.signal.pending ≠ [] := by
        rw [Allowed, if_neg promised]
        exact forall_prop_of_true runs
      rw [allowed]
      refine (and_iff_right safe.1).trans ((forall_prop_of_true rfl).trans ?_)
      exact forall_congr' fun _ => iff_false_intro (running_owns _ runs)

end Observed

/-- What a server owns. -/
structure ServerResources where
  sessions : List Nat
  ioContext : Bool
  acceptor : Bool
  threadPool : Bool
  deriving DecidableEq, Repr

namespace ServerResources

/-- Without io context, acceptor and pool. -/
def closed (sessions : List Nat) : ServerResources := ⟨sessions, false, false, false⟩

/-- A connection can be accepted. -/
def accepting (r : ServerResources) : Bool := r.ioContext && r.acceptor

/-- `drop_sessions` and `destroy_io_context`, with the sessions accepted in between. -/
def release (late : List Nat) (r : ServerResources) : ServerResources :=
  closed (if r.accepting then late else [])

def Released (r : ServerResources) : Prop :=
  r.sessions = [] ∧ r.ioContext = false ∧ r.acceptor = false ∧ r.threadPool = false

instance (r : ServerResources) : Decidable r.Released := inferInstanceAs (Decidable (_ ∧ _))

/-- Nothing is accepted in between. -/
def Quiet (late : List Nat) (r : ServerResources) : Prop := r.accepting = true → late = []

instance (late : List Nat) (r : ServerResources) : Decidable (Quiet late r) :=
  inferInstanceAs (Decidable (_ → _))

theorem released_iff (late : List Nat) (r : ServerResources) :
    (release late r).Released ↔ Quiet late r := by
  have rest : (release late r).Released ↔ (if r.accepting then late else []) = [] :=
    and_iff_left ⟨rfl, rfl, rfl⟩
  rw [rest, ite_eq_right_iff]
  exact Iff.rfl

instance : Owner ServerResources (List Nat) where
  running := ioContext
  release := release
  Released := Released
  Quiet := Quiet
  released_iff := released_iff
  running_owns := fun _ runs released => Bool.false_ne_true (released.2.1.symm.trans runs)

end ServerResources

/-- What a client owns. -/
structure ClientResources where
  socket : Bool
  ioContext : Bool
  threadPool : Bool
  deriving DecidableEq, Repr

namespace ClientResources

/-- `destroy_socket` and `destroy_io_context`. -/
def release : ClientResources := ⟨false, false, false⟩

instance : Owner ClientResources Unit where
  running := ioContext
  release := fun _ _ => release
  Released := fun r => r = release
  Quiet := fun _ _ => True
  released_iff := fun _ _ => iff_of_true rfl trivial
  running_owns := by
    rintro _ runs rfl
    cases runs

end ClientResources

namespace Observed
open Owner

inductive ServerAction where
  | start (opens : Bool) (late : List Nat)
  | call (call : LifeCall (List Nat))
  | accept (session : Nat)
  | erase (erased : List Nat)
  | runThrows
  deriving DecidableEq, Repr

/-- `NetworkServer::start`, given whether `create_io_context` opens the acceptor. The
sessions of a server that was only signalled are still there. -/
def startServer (l : Life ServerResources) (opens : Bool) (late : List Nat) :
    Life ServerResources × Except FutureError Bool :=
  match l.stop late with
  | (l, .error what) => (l, .error what)
  | (l, .ok _) =>
      if opens then
        ({ l with resources := ⟨l.resources.sessions, true, true, true⟩ }, .ok true)
      else
        match Life.stop { l with resources := .closed l.resources.sessions } [] with
        | (l, .error what) => (l, .error what)
        | (l, .ok _) => (l, .ok false)

/-- `run` that ends with an exception resets the io context. -/
def serverStep (o : Observed ServerResources) : ServerAction → Option (Observed ServerResources)
  | .start opens late =>
      let (life, reply) := startServer o.toLife opens late
      some ⟨life, false, o.threw || hasThrown reply⟩
  | .call c => o.call c
  | .accept session =>
      if o.resources.accepting then
        some { o with resources := { o.resources with
          sessions := o.resources.sessions ++ [session] } }
      else none
  | .erase erased =>
      some { o with resources := { o.resources with
        sessions := o.resources.sessions.filter (· ∉ erased) } }
  | .runThrows => some { o with resources := { o.resources with ioContext := false } }

def freshServer : Observed ServerResources := ⟨⟨.closed [], .initial⟩, false, false⟩

def ServerAllowed (o : Observed ServerResources) : ServerAction → Prop
  | .call c => o.Allowed c
  | _ => True

instance (late : List Nat) (r : ServerResources) : Decidable (Quiet late r) :=
  inferInstanceAs (Decidable (ServerResources.Quiet late r))

instance (o : Observed ServerResources) : ∀ a, Decidable (ServerAllowed o a)
  | .call c => inferInstanceAs (Decidable (o.Allowed c))
  | .start _ _ => isTrue trivial
  | .accept _ => isTrue trivial
  | .erase _ => isTrue trivial
  | .runThrows => isTrue trivial

inductive ClientAction where
  | start (connects : Bool)
  | call (call : LifeCall Unit)
  deriving DecidableEq, Repr

/-- `NetworkClient::start` does not look at the promise. -/
def clientStep (o : Observed ClientResources) : ClientAction → Option (Observed ClientResources)
  | .start connects =>
      some { o with
        resources := if connects then ⟨true, true, true⟩ else .release
        stopped := false }
  | .call c => o.call c

def freshClient : Observed ClientResources := ⟨⟨.release, .initial⟩, false, false⟩

def ClientAllowed (o : Observed ClientResources) : ClientAction → Prop
  | .call c => o.Allowed c
  | .start _ => True

instance (late : Unit) (r : ClientResources) : Decidable (Quiet late r) := isTrue trivial

instance (o : Observed ClientResources) : ∀ a, Decidable (ClientAllowed o a)
  | .call c => inferInstanceAs (Decidable (o.Allowed c))
  | .start _ => isTrue trivial

section
variable {o t : Observed ServerResources}

theorem startServer_linked {l : Life ServerResources} (linked : l.signal.Linked) (opens : Bool)
    (late : List Nat) : ∃ life reply, startServer l opens late = (life, .ok reply) ∧
      life.signal.Linked := by
  obtain ⟨life, reply, stopped, linked⟩ := Life.stop_linked linked late
  have idle : ∀ l : Life ServerResources,
      (⟨.closed l.resources.sessions, l.signal⟩ : Life ServerResources).stop [] =
        (⟨.closed l.resources.sessions, l.signal⟩, .ok false) :=
    fun _ => Life.stop_idle rfl []
  rw [startServer, stopped]
  cases opens with
  | true => exact ⟨_, _, rfl, linked⟩
  | false =>
      dsimp only
      rw [if_neg Bool.false_ne_true, idle]
      exact ⟨_, _, rfl, linked⟩

theorem serverStep_linked {a : ServerAction} (linked : o.signal.Linked)
    (stepped : serverStep o a = some t) : t.signal.Linked := by
  cases a with
  | start opens late =>
      obtain ⟨life, reply, started, linked⟩ := startServer_linked linked opens late
      rw [serverStep, started] at stepped
      cases stepped
      exact linked
  | call c => exact (called_of_call linked stepped).linked linked
  | accept session =>
      rw [serverStep] at stepped
      split at stepped <;> cases stepped
      exact linked
  | erase erased =>
      cases stepped
      exact linked
  | runThrows =>
      cases stepped
      exact linked

theorem serverStep_safe_iff {a : ServerAction} (linked : o.signal.Linked) (safe : o.Safe)
    (stepped : serverStep o a = some t) : t.Safe ↔ ServerAllowed o a := by
  have kept : ∀ r : ServerResources, (ServerResources.Released o.resources → r.Released) →
      (Safe { o with resources := r } ↔ True) := fun r still =>
    iff_true_intro ⟨safe.1, fun stopped free => still (safe.2 stopped free)⟩
  cases a with
  | start opens late =>
      obtain ⟨life, reply, started, _⟩ := startServer_linked linked opens late
      rw [serverStep, started] at stepped
      cases stepped
      refine iff_true_intro ⟨?_, fun stopped => (by cases stopped)⟩
      rw [hasThrown, Bool.or_false]
      exact safe.1
  | call c => exact (called_of_call linked stepped).safe_iff safe
  | accept session =>
      rw [serverStep] at stepped
      split at stepped <;> cases stepped
      next accepts =>
      refine kept _ fun released => ?_
      rw [ServerResources.accepting, released.2.1] at accepts
      cases accepts
  | erase erased =>
      cases stepped
      refine kept _ fun released => ⟨?_, released.2⟩
      rw [released.1]
      rfl
  | runThrows =>
      cases stepped
      exact kept _ fun released => ⟨released.1, rfl, released.2.2⟩

end

section
variable {o t : Observed ClientResources} {a : ClientAction}

theorem clientStep_linked (linked : o.signal.Linked) (stepped : clientStep o a = some t) :
    t.signal.Linked := by
  cases a with
  | start connects =>
      cases stepped
      exact linked
  | call c => exact (called_of_call linked stepped).linked linked

theorem clientStep_safe_iff (linked : o.signal.Linked) (safe : o.Safe)
    (stepped : clientStep o a = some t) : t.Safe ↔ ClientAllowed o a := by
  cases a with
  | start connects =>
      cases stepped
      exact iff_true_intro ⟨safe.1, fun stopped => (by cases stopped)⟩
  | call c => exact (called_of_call linked stepped).safe_iff safe

end

/-- In every state of every run of a server or a client no call has thrown, and a `stop`
that has returned true has left nothing once nobody waits any more, if and only if the calls
of the run are made while they are allowed. -/
theorem stop_releases_iff (serverActions : List ServerAction) (server : Observed ServerResources)
    (served : run serverStep freshServer serverActions = some server)
    (clientActions : List ClientAction) (client : Observed ClientResources)
    (connected : run clientStep freshClient clientActions = some client) :
    (Throughout serverStep Safe freshServer serverActions ↔
        Along serverStep ServerAllowed freshServer serverActions) ∧
      (Throughout clientStep Safe freshClient clientActions ↔
        Along clientStep ClientAllowed freshClient clientActions) := by
  constructor
  · exact throughout_iff (I := fun o => o.signal.Linked)
      (fun _ _ _ linked stepped => serverStep_linked linked stepped)
      (fun _ _ _ linked safe stepped => serverStep_safe_iff linked safe stepped)
      (.free rfl) ⟨rfl, fun stopped => (by cases stopped)⟩ served
  · exact throughout_iff (I := fun o => o.signal.Linked)
      (fun _ _ _ linked stepped => clientStep_linked linked stepped)
      (fun _ _ _ linked safe stepped => clientStep_safe_iff linked safe stepped)
      (.free rfl) ⟨rfl, fun stopped => (by cases stopped)⟩ connected

/-- A server and a client that are started, waited for and stopped, twice. -/
def twiceServer : List ServerAction :=
  [.start true [], .accept 7, .call (.waitStop 0), .call (.stop []), .call (.endWait 0 []),
    .start true [], .accept 8, .call (.waitStop 5), .call (.stop []), .call (.endWait 0 [])]

def twiceClient : List ClientAction :=
  [.start true, .call (.waitStop 0), .call (.stop ()), .call (.endWait 0 ()),
    .start true, .call (.waitStop 5), .call (.stop ()), .call (.endWait 0 ())]

theorem stop_releases_iff_twice :
    Throughout serverStep Safe freshServer twiceServer ∧
      Throughout clientStep Safe freshClient twiceClient := by
  have served : (run serverStep freshServer twiceServer).isSome = true := by decide +kernel
  have connected : (run clientStep freshClient twiceClient).isSome = true := by decide +kernel
  obtain ⟨o, served⟩ := Option.isSome_iff_exists.mp served
  obtain ⟨t, connected⟩ := Option.isSome_iff_exists.mp connected
  obtain ⟨server, client⟩ := stop_releases_iff _ o served _ t connected
  exact ⟨server.mpr (by decide +kernel), client.mpr (by decide +kernel)⟩

/-- A wait that ends by time-out leaves its promise, which the next start does not look at. -/
def timedOutServer : List ServerAction :=
  [.start true [], .call (.waitStop 1), .call (.endWait 0 []), .start true [], .accept 7]

def timedOutClient : List ClientAction :=
  [.start true, .call (.waitStop 1), .call (.endWait 0 ()), .start true]

/-- The next `stop` only sets the value, and the next `wait_stop` throws. -/
theorem timed_out_wait_breaks_stop :
    ((¬ ∀ actions o, run serverStep freshServer actions = some o →
        o.stopped = true → o.signal.pending = [] → Released o.resources) ∧
      ¬ ∀ actions o, run serverStep freshServer actions = some o → o.threw = false) ∧
    (¬ ∀ actions o, run clientStep freshClient actions = some o →
        o.stopped = true → o.signal.pending = [] → Released o.resources) ∧
      ¬ ∀ actions o, run clientStep freshClient actions = some o → o.threw = false := by
  refine ⟨⟨fun releases => ?_, fun returns => ?_⟩, fun releases => ?_, fun returns => ?_⟩
  · have left : (run serverStep freshServer (timedOutServer ++ [.call (.stop [])])).map
        (fun o => (o.stopped, o.signal.pending, o.resources)) =
          some (true, [], ⟨[7], true, true, true⟩) := by decide +kernel
    obtain ⟨o, ran, same⟩ := Option.map_eq_some_iff.mp left
    obtain ⟨stopped, rest⟩ := Prod.mk.inj same
    obtain ⟨free, owned⟩ := Prod.mk.inj rest
    have released := releases _ o ran stopped free
    rw [owned] at released
    cases released.1
  · have throws : (run serverStep freshServer (timedOutServer ++ [.call (.waitStop 1)])).map
        (fun o => o.threw) = some true := by decide +kernel
    obtain ⟨o, ran, threw⟩ := Option.map_eq_some_iff.mp throws
    exact Bool.false_ne_true ((returns _ o ran).symm.trans threw)
  · have left : (run clientStep freshClient (timedOutClient ++ [.call (.stop ())])).map
        (fun o => (o.stopped, o.signal.pending, o.resources)) =
          some (true, [], ⟨true, true, true⟩) := by decide +kernel
    obtain ⟨o, ran, same⟩ := Option.map_eq_some_iff.mp left
    obtain ⟨stopped, rest⟩ := Prod.mk.inj same
    obtain ⟨free, owned⟩ := Prod.mk.inj rest
    have released := releases _ o ran stopped free
    rw [owned] at released
    cases released
  · have throws : (run clientStep freshClient (timedOutClient ++ [.call (.waitStop 1)])).map
        (fun o => o.threw) = some true := by decide +kernel
    obtain ⟨o, ran, threw⟩ := Option.map_eq_some_iff.mp throws
    exact Bool.false_ne_true ((returns _ o ran).symm.trans threw)

end Observed
end CppToolkit.Network
