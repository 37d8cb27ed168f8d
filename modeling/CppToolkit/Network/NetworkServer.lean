import CppToolkit.Network.NetworkSession
import CppToolkit.Thread.ThreadPool

/-! The server with its sessions: the functions that lock `NetworkServer::mutex_`, the jobs
that call them, and the pools that are stopped while the mutex is held. -/
namespace CppToolkit.Network
open Thread

inductive PoolId where
  | server
  | session (session : Nat)
  deriving DecidableEq, Repr

inductive Party where
  | worker (pool : PoolId) (worker : Nat)
  | application (thread : Nat)
  deriving DecidableEq, Repr

/-- The callbacks through which a session calls its server. -/
inductive Callback where
  | connection
  | message
  | binary
  | file
  | files
  deriving DecidableEq, Repr

/-- The handlers that test the condition of their session first. -/
def Callback.tested : Callback → Bool
  | .message => true
  | .binary => true
  | .file => true
  | _ => false

/-- A session of a server. -/
structure ServerSession extends NetworkSession where
  receivedFilesCallback : Bool

namespace ServerSession

def isSet (s : ServerSession) : Callback → Bool
  | .connection => s.receivedConnectionCallback.isSome
  | .message => s.receivedMessageCallback.isSome
  | .binary => s.receivedBinaryCallback.isSome
  | .file => s.receivedFileCallback.isSome
  | .files => s.receivedFilesCallback

/-- The setters of the callbacks with a null pointer. -/
def unset (s : ServerSession) : Callback → ServerSession
  | .connection => { s with receivedConnectionCallback := none }
  | .message => { s with receivedMessageCallback := none }
  | .binary => { s with receivedBinaryCallback := none }
  | .file => { s with receivedFileCallback := none }
  | .files => { s with receivedFilesCallback := false }

end ServerSession

/-- A call of a function that locks `mutex_`: `send` is any of `send_binary`, `send_message`
and `send_files`, `eraseExpired` the part of `received_connection_handler` for a lost
connection, `dropSessionsOf` is `drop_sessions` with an id. -/
inductive ServerCall where
  | send
  | eraseExpired
  | dropSession (id subId : List UInt8)
  | dropSessionsOf (id : List UInt8)
  | dropSessions
  | destroyIoContext
  deriving DecidableEq, Repr

/-- What the jobs do: the callback that a job of a session comes to and how often the
application sends in it, the condition that a job of the server reports and how often the
application sends when it hears of that. -/
structure ServerJobs where
  callback : Nat → Thread.Job → Callback
  sends : Nat → Thread.Job → Nat
  condition : Thread.Job → Bool
  serverSends : Thread.Job → Nat

/-- Where a thread is: in a job, before and behind the test of the condition, between calls
of the server, at the lock of `mutex_`, or behind it. `left` are the calls that follow. -/
inductive Doing where
  | job (job : Thread.Job)
  | handling (job : Thread.Job)
  | calls (left : List ServerCall)
  | waiting (call : ServerCall) (left : List ServerCall)
  | inside (left : List ServerCall)
  deriving DecidableEq, Repr

/-- What the thread that holds `mutex_` does before it unlocks it. In `returns` it is in a
call of a pool. -/
inductive Duty where
  | unset (session : Nat) (callback : Callback)
  | expire (session : Nat)
  | leaveFiles (session : Nat)
  | push (pool : PoolId) (priority : JobPriorities)
  | destroyThreadPool (pool : PoolId)
  | returns (pool : PoolId)
  | reset (pool : PoolId)
  | destroySocket (session : Nat)
  | lock
  | erase (kept left : List (Option Nat))
  deriving DecidableEq, Repr

/-- `NetworkSession::stop`, which is also all that the destructor does. -/
def Duty.stop (session : Nat) : List Duty :=
  [.expire session, .leaveFiles session, .destroyThreadPool (.session session),
    .destroySocket session]

/-- The pushes that a change of the condition makes. -/
def Duty.pushes (session : Nat) : Effect → List Duty
  | .push job => [.push (.session session) job.priority]
  | .sessionCallback _ => [.push .server .normal]
  | _ => []

/-- `sessions` are the pointers of `sessions_`, null or to one of `objects`, `threadPool`
whether `thread_pool_` is set. The holder of `mutex_` is caller 0 of every pool. -/
structure NetworkServer where
  mutex : Option Party
  duties : List Duty
  sessions : List (Option Nat)
  objects : Nat → ServerSession
  threadPool : Bool
  pools : PoolId → ThreadPool
  doing : Party → Doing

namespace NetworkServer

inductive Action where
  | pool (pool : PoolId) (action : Thread.Action)
  | session (session : Nat) (id subId : List UInt8) (condition : ConnectConditions)
  | call (thread : Nat) (call : ServerCall)
  | go (party : Party)
  | duty
  deriving DecidableEq, Repr

/-- A server with running pools, whose threads have not called it yet. -/
def running (sessions : List (Option Nat)) (objects : Nat → ServerSession) (threadPool : Bool)
    (workers : PoolId → List (List JobPriorities)) : NetworkServer where
  mutex := none
  duties := []
  sessions := sessions
  objects := objects
  threadPool := threadPool
  pools := fun pool => .started (workers pool)
  doing := fun _ => .calls []

def setPool (s : NetworkServer) (pool : PoolId) (p : ThreadPool) : NetworkServer :=
  { s with pools := Function.update s.pools pool p }

def setObject (s : NetworkServer) (session : Nat) (object : ServerSession) : NetworkServer :=
  { s with objects := Function.update s.objects session object }

def setDoing (s : NetworkServer) (party : Party) (doing : Doing) : NetworkServer :=
  { s with doing := Function.update s.doing party doing }

def poolStep (s : NetworkServer) (pool : PoolId) (action : Thread.Action) : Option NetworkServer :=
  ((s.pools pool).step action).map (s.setPool pool)

/-- The test of the condition lets the job pass. -/
def admits (jobs : ServerJobs) (s : NetworkServer) (job : Thread.Job) : PoolId → Bool
  | .server => true
  | .session n => !(jobs.callback n job).tested || (s.objects n).condition = .confirmed

/-- The calls that a job makes, given the callbacks that are set when it comes to them. The
callback for a connection only pushes a job of the server. -/
def callsOf (jobs : ServerJobs) (s : NetworkServer) (job : Thread.Job) : PoolId → List ServerCall
  | .server =>
      (if jobs.condition job then [] else [.eraseExpired]) ++
        List.replicate (jobs.serverSends job) .send
  | .session n =>
      if jobs.callback n job = .connection then []
      else if (s.objects n).isSet (jobs.callback n job) then
        List.replicate (jobs.sends n job) .send
      else []

/-- A step inside a pool: a worker in a call of the server does nothing else, and its job
ends behind its last call. Any other thread may push. -/
def inPool (s : NetworkServer) (pool : PoolId) : Thread.Action → Option NetworkServer
  | .worker i =>
      match ((s.pools pool).workers i).phase with
      | .popped (some job) =>
          (s.poolStep pool (.worker i)).map fun t => t.setDoing (.worker pool i) (.job job)
      | .running _ none =>
          if s.doing (.worker pool i) = .calls [] then s.poolStep pool (.worker i) else none
      | _ => s.poolStep pool (.worker i)
  | .push i priority =>
      match s.doing (.worker pool i) with
      | .job _ => s.poolStep pool (.push i priority)
      | .handling _ => s.poolStep pool (.push i priority)
      | .calls _ => s.poolStep pool (.push i priority)
      | _ => none
  | .call (j + 1) (.push priority) => s.poolStep pool (.call (j + 1) (.push priority))
  | .caller (j + 1) => s.poolStep pool (.caller (j + 1))
  | _ => none

/-- The sessions are taken out of `sessions_`; those that match are destroyed. -/
def drop (s : NetworkServer) (matched : ServerSession → Bool) : NetworkServer :=
  let all := s.sessions.reduceOption
  { s with
    sessions := (all.filter fun n => ¬ matched (s.objects n)).map some
    duties := (all.filter fun n => matched (s.objects n)).flatMap Duty.stop }

/-- The functions behind the lock. -/
def enter (s : NetworkServer) : ServerCall → NetworkServer
  | .send => { s with duties := [] }
  | .eraseExpired => { s with duties := [.erase [] s.sessions] }
  | .dropSession id subId => s.drop fun session => session.id = id ∧ session.subId = subId
  | .dropSessionsOf id => s.drop fun session => session.id = id
  | .dropSessions =>
      let all := s.sessions.reduceOption
      let detached (n : Nat) : List Duty :=
        [.unset n .connection, .unset n .message, .unset n .binary, .unset n .file, .unset n .files]
      -- The pointers are released at the end, and the destructors stop the sessions again.
      { s with
        sessions := []
        duties := (all.flatMap fun n => detached n ++ Duty.stop n) ++ all.flatMap Duty.stop }
  | .destroyIoContext =>
      { s with duties := (if s.threadPool then [.lock] else []) ++ [.destroyThreadPool .server] }

/-- The thread of a worker that is in a job, and not in a push, or one of the application. -/
def ready (s : NetworkServer) : Party → Bool
  | .worker pool i =>
      match ((s.pools pool).workers i).phase with
      | .running _ none => true
      | _ => false
  | .application _ => true

/-- A thread goes on to its callback, to its next call, or behind the lock. -/
def goStep (jobs : ServerJobs) (s : NetworkServer) (party : Party) : Option NetworkServer :=
  if s.ready party then
    match s.doing party, party with
    | .job job, .worker pool _ =>
        some (s.setDoing party (if s.admits jobs job pool then .handling job else .calls []))
    | .handling job, .worker pool _ => some (s.setDoing party (.calls (s.callsOf jobs job pool)))
    | .calls (call :: left), _ => some (s.setDoing party (.waiting call left))
    | .waiting call left, _ =>
        if s.mutex = none then
          some ({ s.enter call with mutex := some party }.setDoing party (.inside left))
        else none
    | _, _ => none
  else none

/-- `thread_pool_` of the server or of a session is set. -/
def hasPool (s : NetworkServer) : PoolId → Bool
  | .server => s.threadPool
  | .session n => (s.objects n).threadPool.isSome

def resetPool (s : NetworkServer) : PoolId → NetworkServer
  | .server => { s with threadPool := false }
  | .session n => s.setObject n { s.objects n with threadPool := none }

/-- The holder's next step, `rest` is what it does then. -/
def perform (w : World) (s : NetworkServer) (rest : List Duty) : Duty → Option NetworkServer
  | .unset n callback =>
      some { s.setObject n ((s.objects n).unset callback) with duties := rest }
  | .expire n =>
      let h := (s.objects n).toNetworkSession.setCondition w .expired true
      some { s.setObject n { s.objects n with toNetworkSession := h.peer } with
        duties := h.effects.flatMap (Duty.pushes n) ++ rest }
  | .leaveFiles n =>
      let fileManager := { (s.objects n).fileManager with threadPool := none }
      some { s.setObject n { s.objects n with fileManager } with duties := rest }
  | .push pool priority =>
      if s.hasPool pool then
        (s.poolStep pool (.call 0 (.push priority))).map fun t =>
          { t with duties := .returns pool :: rest }
      else some { s with duties := rest }
  | .destroyThreadPool pool =>
      if s.hasPool pool then
        (s.poolStep pool (.call 0 (.stop true))).map fun t =>
          { t with duties := .returns pool :: .reset pool :: rest }
      else some { s with duties := rest }
  | .returns pool =>
      match (s.pools pool).callers 0 with
      | some _ => s.poolStep pool (.caller 0)
      | none => some { s with duties := rest }
  | .reset pool => some { s.resetPool pool with duties := rest }
  | .destroySocket n =>
      some { s.setObject n { s.objects n with socket := none } with duties := rest }
  | .lock =>
      let p := s.pools .server
      some { s.setPool .server { p with jobPool := p.jobPool.lock true } with duties := rest }
  | .erase kept [] => some { s with sessions := kept, duties := rest }
  | .erase kept (none :: left) =>
      some { s with sessions := kept ++ left, duties := .erase kept left :: rest }
  | .erase kept (some n :: left) =>
      if (s.objects n).condition ≠ .expired then
        some { s with duties := .erase (kept ++ [some n]) left :: rest }
      else
        some { s with
          sessions := kept ++ none :: left
          duties := Duty.stop n ++ .erase kept (none :: left) :: rest }

/-- The unlock, behind the last duty. -/
def unlock (s : NetworkServer) (holder : Party) : NetworkServer :=
  match s.doing holder with
  | .inside left => { s with mutex := none }.setDoing holder (.calls left)
  | _ => { s with mutex := none }

def dutyStep (w : World) (s : NetworkServer) : Option NetworkServer :=
  match s.mutex, s.duties with
  | none, _ => none
  | some holder, [] => some (s.unlock holder)
  | some _, duty :: rest => s.perform w rest duty

/-- `session` is what the jobs of a session and its reader make of it meanwhile. -/
def step (w : World) (jobs : ServerJobs) (s : NetworkServer) : Action → Option NetworkServer
  | .pool pool action => s.inPool pool action
  | .session n id subId condition =>
      some (s.setObject n { s.objects n with id, subId, condition })
  | .call thread call =>
      if s.doing (.application thread) = .calls [] then
        some (s.setDoing (.application thread) (.calls [call]))
      else none
  | .go party => s.goStep jobs party
  | .duty => s.dutyStep w

end NetworkServer
end CppToolkit.Network
