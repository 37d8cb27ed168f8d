import CppToolkit.Library.Machine
import CppToolkit.Network.Authentication
import CppToolkit.Network.NetworkServer
import CppToolkit.Network.SocketSends
import CppToolkit.Thread.PoolSteps

/-! Who waits for whom while a server drops its sessions or shuts down. -/
namespace CppToolkit.Network
open Thread Machine

namespace NetworkServer

/-- The holder of `mutex_` waits for the thread of worker `i`. -/
def joins (s : NetworkServer) (pool : PoolId) (i : Nat) : Bool :=
  match (s.pools pool).callers 0 with
  | some (.joining _ j _) => j = i
  | _ => false

/-- A thread holds `mutex_` and waits for a worker whose job waits for `mutex_`. -/
def Deadlocked (s : NetworkServer) : Prop :=
  ∃ holder pool i call left, s.mutex = some holder ∧ s.joins pool i = true ∧
    s.doing (.worker pool i) = .waiting call left

/-- Behind the test of the condition, no call of the server is to come. -/
def quiet (jobs : ServerJobs) (s : NetworkServer) (pool : PoolId) : Doing → Bool
  | .job _ => true
  | .handling job => s.callsOf jobs job pool = []
  | .calls left => left = []
  | _ => false

/-- The holder of `mutex_` does not begin to join a worker that is in a callback with calls
of the server to come, and the worker that it joins does not pass the test into one. -/
def calm (jobs : ServerJobs) (s : NetworkServer) : Action → Bool
  | .duty =>
      match s.duties with
      | .returns pool :: _ =>
          match (s.pools pool).callers 0 with
          | some (.halting _ i _) => s.quiet jobs pool (s.doing (.worker pool i))
          | _ => true
      | _ => true
  | .go (.worker pool i) =>
      match s.doing (.worker pool i) with
      | .job job => !(s.joins pool i && s.admits jobs job pool) || s.callsOf jobs job pool = []
      | _ => true
  | _ => true

/-- The worker that is joined makes no call of the server any more. -/
def Kept (jobs : ServerJobs) (s : NetworkServer) : Prop :=
  ∀ pool i, s.joins pool i = true → s.quiet jobs pool (s.doing (.worker pool i)) = true

section
variable {w : World} {jobs : ServerJobs} {s t : NetworkServer}

theorem Kept.not_deadlocked (kept : s.Kept jobs) : ¬ s.Deadlocked := by
  rintro ⟨holder, pool, i, call, left, _, joined, waits⟩
  have quiet := kept pool i joined
  rw [waits] at quiet
  cases quiet

/-- The callbacks that are set were set before. -/
def Fewer (s t : NetworkServer) : Prop :=
  ∀ n callback, (t.objects n).isSet callback = true → (s.objects n).isSet callback = true

theorem Fewer.of_eq (same : t.objects = s.objects) : s.Fewer t := by
  intro n callback
  rw [same]
  exact id

/-- Without a callback, a job has fewer calls. -/
theorem Fewer.callsOf (fewer : s.Fewer t) {job : Thread.Job} {pool : PoolId}
    (none_ : s.callsOf jobs job pool = []) : t.callsOf jobs job pool = [] := by
  cases pool with
  | server => exact none_
  | session n =>
      unfold NetworkServer.callsOf at none_ ⊢
      dsimp only at none_ ⊢
      split
      next => rfl
      next other =>
        split
        next set_ =>
          rw [if_neg other, if_pos (fewer n _ set_)] at none_
          exact none_
        next => rfl

theorem Fewer.quiet (fewer : s.Fewer t) {pool : PoolId} {doing : Doing}
    (quiet : s.quiet jobs pool doing = true) : t.quiet jobs pool doing = true := by
  cases doing with
  | handling job => exact decide_eq_true (fewer.callsOf (of_decide_eq_true quiet))
  | _ => exact quiet

/-- A step that begins no join and gives no joined worker a call. -/
theorem Kept.mono (kept : s.Kept jobs) (fewer : s.Fewer t)
    (joins : ∀ pool i, t.joins pool i = true → s.joins pool i = true)
    (doing : ∀ pool i, s.joins pool i = true → t.doing (.worker pool i) = s.doing (.worker pool i) ∨
      t.quiet jobs pool (t.doing (.worker pool i)) = true) : t.Kept jobs := by
  intro pool i joined
  have before := joins pool i joined
  rcases doing pool i before with same | quiet
  · rw [same]
    exact fewer.quiet (kept pool i before)
  · exact quiet

theorem joins_of_callers (same : ∀ pool, (t.pools pool).callers 0 = (s.pools pool).callers 0)
    (pool : PoolId) (i : Nat) (joined : t.joins pool i = true) : s.joins pool i = true := by
  unfold NetworkServer.joins at joined ⊢
  rwa [same] at joined

theorem Kept.rest (kept : s.Kept jobs) (objects : t.objects = s.objects) (pools : t.pools = s.pools)
    (doing : t.doing = s.doing) : t.Kept jobs :=
  kept.mono (.of_eq objects) (joins_of_callers fun _ => by rw [pools])
    fun _ _ _ => .inl (congrFun doing _)

theorem entered_rest (s : NetworkServer) (call : ServerCall) :
    (s.enter call).objects = s.objects ∧ (s.enter call).pools = s.pools ∧
      (s.enter call).doing = s.doing := by
  cases call <;> exact ⟨rfl, rfl, rfl⟩

@[simp] theorem setPool_self (s : NetworkServer) (pool : PoolId) (p : ThreadPool) :
    (s.setPool pool p).pools pool = p := Function.update_self _ _ _

theorem setPool_ne (s : NetworkServer) {pool other : PoolId} (p : ThreadPool)
    (different : other ≠ pool) : (s.setPool pool p).pools other = s.pools other :=
  Function.update_of_ne different _ _

theorem setPool_callers {pool : PoolId} {p : ThreadPool}
    (same : p.callers 0 = (s.pools pool).callers 0) (other : PoolId) :
    ((s.setPool pool p).pools other).callers 0 = (s.pools other).callers 0 := by
  by_cases here : other = pool
  · rw [here, setPool_self, same]
  · rw [setPool_ne s p here]

theorem poolStep_callers {pool : PoolId} {action : Thread.Action}
    (stepped : s.poolStep pool action = some t) (apart : action ≠ .caller 0)
    (uncalled : ∀ call, action ≠ .call 0 call) (other : PoolId) :
    (t.pools other).callers 0 = (s.pools other).callers 0 := by
  obtain ⟨p, moved, same⟩ := Option.map_eq_some_iff.mp stepped
  subst same
  exact setPool_callers ((ThreadPool.step_inv moved).callers_ne apart uncalled) other

theorem poolStep_rest {pool : PoolId} {action : Thread.Action}
    (stepped : s.poolStep pool action = some t) :
    t.objects = s.objects ∧ t.doing = s.doing := by
  obtain ⟨p, _, same⟩ := Option.map_eq_some_iff.mp stepped
  subst same
  exact ⟨rfl, rfl⟩

theorem Kept.poolStep (kept : s.Kept jobs) {pool : PoolId} {action : Thread.Action}
    (stepped : s.poolStep pool action = some t) (apart : action ≠ .caller 0)
    (uncalled : ∀ call, action ≠ .call 0 call) : t.Kept jobs := by
  obtain ⟨objects, doing⟩ := poolStep_rest stepped
  exact kept.mono (.of_eq objects) (joins_of_callers (poolStep_callers stepped apart uncalled))
    fun pool i _ => .inl (congrFun doing _)

/-- A worker that begins a job has not come to its calls. -/
theorem Kept.setDoing (kept : s.Kept jobs) (party : Party) {doing : Doing}
    (quiet : ∀ pool i, party = .worker pool i → s.joins pool i = true →
      s.quiet jobs pool doing = true) : (s.setDoing party doing).Kept jobs := by
  refine kept.mono (.of_eq rfl) (joins_of_callers fun _ => rfl) ?_
  intro pool i joined
  by_cases here : Party.worker pool i = party
  · right
    change NetworkServer.quiet jobs s pool (Function.update s.doing party doing _) = true
    rw [here, Function.update_self]
    exact quiet pool i here.symm joined
  · exact .inl (Function.update_of_ne here _ _)

theorem Kept.inPool (kept : s.Kept jobs) {pool : PoolId} {action : Thread.Action}
    (stepped : s.inPool pool action = some t) : t.Kept jobs := by
  cases action with
  | worker i =>
      unfold NetworkServer.inPool at stepped
      dsimp only at stepped
      split at stepped
      next job popped =>
        obtain ⟨u, moved, same⟩ := Option.map_eq_some_iff.mp stepped
        subst same
        exact (kept.poolStep moved nofun nofun).setDoing _ fun _ _ _ _ => rfl
      next =>
        split at stepped
        next => exact kept.poolStep stepped nofun nofun
        next => cases stepped
      next => exact kept.poolStep stepped nofun nofun
  | push i priority =>
      unfold NetworkServer.inPool at stepped
      dsimp only at stepped
      split at stepped
      next => exact kept.poolStep stepped nofun nofun
      next => exact kept.poolStep stepped nofun nofun
      next => exact kept.poolStep stepped nofun nofun
      next => cases stepped
  | call j call =>
      cases j with
      | zero => cases stepped
      | succ j =>
          cases call with
          | push priority => exact kept.poolStep stepped nofun nofun
          | _ => cases stepped
  | caller j =>
      cases j with
      | zero => cases stepped
      | succ j => exact kept.poolStep stepped nofun nofun

theorem Kept.go (kept : s.Kept jobs) {party : Party} (allowed : s.calm jobs (.go party) = true)
    (stepped : s.goStep jobs party = some t) : t.Kept jobs := by
  unfold goStep at stepped
  split at stepped
  next =>
    split at stepped
    next job pool worker at_ =>
      cases stepped
      refine kept.setDoing _ ?_
      intro other j same joined
      cases same
      split
      next admitted =>
        unfold calm at allowed
        simp only [at_, joined, admitted, Bool.and_self, Bool.not_true, Bool.false_or] at allowed
        exact allowed
      next => rfl
    next job pool worker at_ =>
      cases stepped
      refine kept.setDoing _ ?_
      intro other j same joined
      cases same
      have quiet := kept _ _ joined
      rwa [at_] at quiet
    next _ call left at_ =>
      cases stepped
      refine kept.setDoing _ ?_
      intro pool i same joined
      cases same
      have quiet := kept pool i joined
      rw [at_] at quiet
      cases quiet
    next call left _ at_ =>
      split at stepped
      next =>
        cases stepped
        obtain ⟨objects, pools, doing⟩ := entered_rest s call
        have entered : ∀ me, { s.enter call with mutex := some me }.Kept jobs := fun _ =>
          kept.rest objects pools doing
        refine (entered _).setDoing _ ?_
        intro pool i same joined
        cases same
        have quiet := entered _ pool i joined
        change NetworkServer.quiet jobs _ pool ((s.enter call).doing _) = true at quiet
        rw [doing, at_] at quiet
        cases quiet
      next => cases stepped
    next => cases stepped
  next => cases stepped

theorem response_isSet (session : ServerSession) (callback : Callback) :
    { session with
      toNetworkSession := (session.toNetworkSession.responseConnection w false).peer }.isSet
        callback = session.isSet callback := by
  have created : { session with toNetworkSession := session.toNetworkSession.createKey w }.isSet
      callback = session.isSet callback := by
    unfold NetworkSession.createKey
    split <;> cases callback <;> rfl
  unfold NetworkSession.responseConnection
  dsimp only
  split
  next => exact created
  next => split <;> exact created

theorem disconnected_isSet (session : ServerSession) (callback : Callback) :
    { session with
      toNetworkSession := (NetworkSession.disconnected w true session.toNetworkSession).peer }.isSet
        callback = session.isSet callback := by
  unfold NetworkSession.disconnected Handling.andThen
  split <;> exact response_isSet session callback

/-- A change of the condition leaves the callbacks as they are. -/
theorem expire_isSet (session : ServerSession) (callback : Callback) :
    { session with
      toNetworkSession := (session.toNetworkSession.setCondition w .expired true).peer }.isSet
        callback = session.isSet callback := by
  unfold NetworkSession.setCondition DataHandler.setCondition
  split
  next => rfl
  next =>
    rw [if_pos rfl]
    have changed : { session with condition := .expired }.isSet callback = session.isSet callback := by
      cases callback <;> rfl
    exact (disconnected_isSet { session with condition := .expired } callback).trans changed

theorem unset_isSet {session : ServerSession} {callback other : Callback}
    (set_ : (session.unset callback).isSet other = true) : session.isSet other = true := by
  cases callback <;> cases other <;> first | exact set_ | cases set_

theorem Fewer.setObject {n : Nat} {object : ServerSession}
    (less : ∀ callback, object.isSet callback = true → (s.objects n).isSet callback = true) :
    s.Fewer (s.setObject n object) := by
  intro m callback set_
  change (Function.update s.objects n object m).isSet callback = true at set_
  by_cases here : m = n
  · rw [here, Function.update_self] at set_
    rw [here]
    exact less callback set_
  · rwa [Function.update_of_ne here] at set_

/-- A duty that is not a step of a call in a pool sets no callback and calls no pool. -/
structure Aside (s t : NetworkServer) : Prop where
  fewer : s.Fewer t
  doing : t.doing = s.doing
  callers : ∀ pool, (t.pools pool).callers 0 = (s.pools pool).callers 0

theorem Aside.setObject {n : Nat} {object : ServerSession} {duties : List Duty}
    (less : ∀ callback, object.isSet callback = true → (s.objects n).isSet callback = true) :
    s.Aside { s.setObject n object with duties := duties } :=
  ⟨Fewer.setObject less, rfl, fun _ => rfl⟩

/-- The holder begins a call of a pool, or takes its next step in it. -/
inductive InCall (s : NetworkServer) : Duty → NetworkServer → Prop where
  | begins {duty : Duty} {pool : PoolId} {call : Thread.Call} {u : NetworkServer}
      (duties : List Duty) : s.poolStep pool (.call 0 call) = some u →
      InCall s duty { u with duties }
  | goes {pool : PoolId} {t : NetworkServer} : s.poolStep pool (.caller 0) = some t →
      InCall s (.returns pool) t

/-- A call of a pool, if there is one. -/
theorem begins_cases {pool : PoolId} {call : Thread.Call} {duties rest : List Duty} {duty : Duty}
    (performed : (if s.hasPool pool then
        (s.poolStep pool (.call 0 call)).map fun u => { u with duties := duties }
      else some { s with duties := rest }) = some t) : s.Aside t ∨ s.InCall duty t := by
  split at performed
  next =>
    obtain ⟨u, moved, same⟩ := Option.map_eq_some_iff.mp performed
    subst same
    exact .inr (.begins duties moved)
  next =>
    cases performed
    exact .inl ⟨.of_eq rfl, rfl, fun _ => rfl⟩

theorem perform_cases {rest : List Duty} {duty : Duty} (performed : s.perform w rest duty = some t) :
    s.Aside t ∨ s.InCall duty t := by
  cases duty with
  | unset n callback =>
      cases performed
      exact .inl (.setObject fun _ => unset_isSet)
  | expire n =>
      cases performed
      exact .inl (.setObject fun callback set_ => expire_isSet (s.objects n) callback ▸ set_)
  | leaveFiles n =>
      cases performed
      exact .inl (.setObject fun callback => by cases callback <;> exact id)
  | push pool priority => exact begins_cases performed
  | destroyThreadPool pool => exact begins_cases performed
  | returns pool =>
      unfold perform at performed
      dsimp only at performed
      split at performed
      next => exact .inr (.goes performed)
      next =>
        cases performed
        exact .inl ⟨.of_eq rfl, rfl, fun _ => rfl⟩
  | reset pool =>
      cases performed
      cases pool with
      | server => exact .inl ⟨.of_eq rfl, rfl, fun _ => rfl⟩
      | session n => exact .inl (.setObject fun callback => by cases callback <;> exact id)
  | destroySocket n =>
      cases performed
      exact .inl (.setObject fun callback => by cases callback <;> exact id)
  | lock =>
      cases performed
      refine .inl ⟨.of_eq rfl, rfl, ?_⟩
      exact @setPool_callers s .server { s.pools .server with
        jobPool := (s.pools .server).jobPool.lock true } rfl
  | erase kept left =>
      cases left with
      | nil =>
          cases performed
          exact .inl ⟨.of_eq rfl, rfl, fun _ => rfl⟩
      | cons session left =>
          cases session with
          | none =>
              cases performed
              exact .inl ⟨.of_eq rfl, rfl, fun _ => rfl⟩
          | some n =>
              unfold perform at performed
              dsimp only at performed
              split at performed
              next =>
                cases performed
                exact .inl ⟨.of_eq rfl, rfl, fun _ => rfl⟩
              next =>
                cases performed
                exact .inl ⟨.of_eq rfl, rfl, fun _ => rfl⟩

/-- The steps of caller 0 in one pool leave the others alone. -/
theorem poolStep_joins {pool other : PoolId} {action : Thread.Action} {i : Nat}
    (stepped : s.poolStep pool action = some t) (joined : t.joins other i = true)
    (unjoined : s.joins other i ≠ true) :
    other = pool ∧ ∃ p loop left, (s.pools pool).step action = some p ∧
      p.callers 0 = some (.joining loop i left) := by
  obtain ⟨p, moved, same⟩ := Option.map_eq_some_iff.mp stepped
  subst same
  by_cases here : other = pool
  · subst here
    refine ⟨rfl, p, ?_⟩
    unfold NetworkServer.joins at joined
    rw [setPool_self] at joined
    split at joined
    next loop j left calls =>
      rw [of_decide_eq_true joined] at calls
      exact ⟨loop, left, moved, calls⟩
    next => cases joined
  · unfold NetworkServer.joins at joined unjoined
    rw [setPool_ne s p here] at joined
    exact absurd joined unjoined

theorem InCall.rest {duty : Duty} (inCall : s.InCall duty t) :
    t.objects = s.objects ∧ t.doing = s.doing := by
  cases inCall with
  | begins duties called => exact ⟨(poolStep_rest called).1, (poolStep_rest called).2⟩
  | goes stepped => exact poolStep_rest stepped

/-- The holder begins a join only behind `halting`. -/
theorem InCall.joins {duty : Duty} (inCall : s.InCall duty t) {pool : PoolId} {i : Nat}
    (joined : t.joins pool i = true) : s.joins pool i = true ∨
      duty = .returns pool ∧ ∃ loop left, (s.pools pool).callers 0 = some (.halting loop i left) := by
  by_cases before : s.joins pool i = true
  · exact .inl before
  · right
    cases inCall with
    | begins duties called =>
        obtain ⟨rfl, p, loop, left, moved, joining⟩ := poolStep_joins called joined before
        cases ThreadPool.step_inv moved with
        | call j call idle =>
            rw [ThreadPool.setCaller_self] at joining
            exact absurd (Option.some.inj joining) (ThreadPool.beginCall_not_joining _ _)
    | goes stepped =>
        obtain ⟨rfl, p, loop, left, moved, joining⟩ := poolStep_joins stepped joined before
        cases ThreadPool.step_inv moved with
        | caller j op u op' called step =>
            rw [ThreadPool.setCaller_self] at joining
            rw [step.from_halting joining] at called
            exact ⟨rfl, loop, left, called⟩

theorem Kept.duty (kept : s.Kept jobs) (allowed : s.calm jobs .duty = true)
    (stepped : s.dutyStep w = some t) : t.Kept jobs := by
  unfold dutyStep at stepped
  split at stepped
  next => cases stepped
  next holder _ _ =>
    cases stepped
    unfold unlock
    split
    next left inside =>
      have free : { s with mutex := none }.Kept jobs := kept.rest rfl rfl rfl
      refine free.setDoing _ ?_
      intro pool i same joined
      have quiet := kept pool i joined
      rw [← same, inside] at quiet
      cases quiet
    next => exact kept.rest rfl rfl rfl
  next holder duty rest held duties =>
    rcases perform_cases stepped with aside | inCall
    · exact kept.mono aside.fewer (joins_of_callers aside.callers)
        fun pool i _ => .inl (congrFun aside.doing _)
    · obtain ⟨objects, doing⟩ := inCall.rest
      intro pool i joined
      rw [doing]
      apply (Fewer.of_eq objects).quiet
      rcases inCall.joins joined with before | ⟨rfl, loop, left, halting⟩
      · exact kept pool i before
      · unfold calm at allowed
        simp only [duties, halting] at allowed
        exact allowed

theorem Kept.step (kept : s.Kept jobs) {a : Action} (allowed : s.calm jobs a = true)
    (stepped : NetworkServer.step w jobs s a = some t) : t.Kept jobs := by
  cases a with
  | pool pool action => exact kept.inPool stepped
  | session n id subId condition =>
      cases stepped
      refine kept.mono (Fewer.setObject ?_) (joins_of_callers fun _ => rfl) fun _ _ _ => .inl rfl
      intro callback
      cases callback <;> exact fun set_ => set_
  | call thread call =>
      simp only [NetworkServer.step] at stepped
      split at stepped <;> cases stepped
      exact kept.setDoing _ nofun
  | go party => exact kept.go allowed stepped
  | duty => exact kept.duty allowed stepped

end

theorem running_kept (jobs : ServerJobs) (sessions : List (Option Nat))
    (objects : Nat → ServerSession) (threadPool : Bool)
    (workers : PoolId → List (List JobPriorities)) :
    (running sessions objects threadPool workers).Kept jobs := nofun

/-- Whatever the sessions, the pools and their jobs: a thread that begins to join only workers
without further calls of the server, and whose worker then begins none, is never waited for by
the worker that it joins. -/
theorem no_join_deadlock (w : World) (jobs : ServerJobs) (sessions : List (Option Nat))
    (objects : Nat → ServerSession) (threadPool : Bool)
    (workers : PoolId → List (List JobPriorities)) {actions : List Action} {t : NetworkServer}
    (ran : run (step w jobs) (running sessions objects threadPool workers) actions = some t)
    (along : Along (step w jobs) (fun s a => s.calm jobs a = true)
      (running sessions objects threadPool workers) actions) : ¬ t.Deadlocked :=
  (run_invariant (fun _ _ _ held allowed stepped => Kept.step held allowed stepped)
    (running_kept jobs sessions objects threadPool workers) along ran).not_deadlocked

/-- One confirmed session, whose jobs answer each message once. -/
def sampleObjects (_ : Nat) : ServerSession where
  toPeer := { Peer.connected with
    toDataHandler := { DataHandler.connected with id := [97], subId := [98] }
    receivedMessageCallback := some fun _ _ => done }
  receivedConnectionCallback := some fun _ => done
  receivedFilesCallback := true

def sampleJobs : ServerJobs where
  callback := fun _ _ => .message
  sends := fun _ _ => 1
  condition := fun _ => true
  serverSends := fun _ => 0

def sampleWorkers : PoolId → List (List JobPriorities)
  | .server => [[.high], [.normal], [.low], [.longTerm]]
  | .session _ => createThreadPool 1 1 1

def sampleServer : NetworkServer := running [some 0] sampleObjects true sampleWorkers

/-- A message comes, and its job is about to call `send_binary` in the callback. -/
def answering : List Action :=
  Action.pool (.session 0) (.call 1 (.push .high)) ::
    List.replicate 2 (Action.pool (.session 0) (.caller 1)) ++
    List.replicate 8 (Action.pool (.session 0) (.worker 1)) ++
    List.replicate 3 (Action.go (.worker (.session 0) 1))

/-- The client is lost and its session dropped, up to the join of the second worker. -/
def dropping : List Action :=
  Action.session 0 [97] [98] .expired :: Action.call 0 (.dropSession [97] [98]) ::
    List.replicate 2 (Action.go (.application 0)) ++ List.replicate 8 Action.duty ++
    List.replicate 6 (Action.pool (.session 0) (.worker 0)) ++ List.replicate 3 Action.duty

/-- The callback has returned when the session is dropped. -/
theorem no_join_deadlock_dropped :
    ∃ t, run (step SessionRun.oneClient sampleJobs) sampleServer (answering ++
        [.go (.worker (.session 0) 1), .duty, .pool (.session 0) (.worker 1)] ++ dropping) = some t ∧
      t.joins (.session 0) 1 = true ∧ ¬ t.Deadlocked := by
  have joins : (run (step SessionRun.oneClient sampleJobs) sampleServer (answering ++
      [.go (.worker (.session 0) 1), .duty, .pool (.session 0) (.worker 1)] ++ dropping)).map
        (fun t => t.joins (.session 0) 1) = some true := by decide +kernel
  obtain ⟨t, ran, joined⟩ := Option.map_eq_some_iff.mp joins
  exact ⟨t, ran, joined, no_join_deadlock SessionRun.oneClient sampleJobs [some 0] sampleObjects
    true sampleWorkers ran (by decide +kernel)⟩

theorem drop_deadlocks :
    ¬ ∀ actions t, run (step SessionRun.oneClient sampleJobs) sampleServer actions = some t →
      ¬ t.Deadlocked := by
  intro never
  have ended : (run (step SessionRun.oneClient sampleJobs) sampleServer
      (answering ++ dropping)).map (fun t => (t.mutex, t.joins (.session 0) 1,
        t.doing (.worker (.session 0) 1))) =
          some (some (.application 0), true, .waiting .send []) := by decide +kernel
  obtain ⟨t, ran, same⟩ := Option.map_eq_some_iff.mp ended
  obtain ⟨holder, rest⟩ := Prod.mk.inj same
  obtain ⟨joined, waits⟩ := Prod.mk.inj rest
  exact never _ t ran ⟨.application 0, .session 0, 1, .send, [], holder, joined, waits⟩

end NetworkServer
end CppToolkit.Network
