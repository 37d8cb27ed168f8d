import CppToolkit.Network.Registry
import Mathlib.Data.List.Sort

/-! Every session that is accepted is in the registry until it has expired, and an expired one
is only there while the server is still to hear of it. -/
namespace CppToolkit.Network
open Utilities Machine Bag

namespace Registry

section
variable {w : World} {o : ServerOptions} {r : Registry}

theorem Later.refl (s : NetworkSession) : Later s s := ⟨rfl, .inl rfl⟩

theorem Later.expired {s t : NetworkSession} (later : Later s t) (expired : s.condition = .expired) :
    t.condition = .expired := by
  rcases later.condition with same | gone | ⟨waiting, _⟩
  · exact same.trans expired
  · exact gone
  · cases expired.symm.trans waiting

theorem Later.genuine {s t : NetworkSession} (later : Later s t) {text : List UInt8}
    (genuine : Genuine w s text) : Genuine w t text := by
  obtain ⟨u, accepted, same, sub, came⟩ := genuine
  refine ⟨u, accepted, same, sub.trans later.subId.symm, ?_⟩
  rcases came with expired | ⟨yes, confirmed⟩
  · exact .inl (later.expired expired)
  · rcases later.condition with same | gone | ⟨waiting, _⟩
    · exact .inr ⟨yes, same.trans confirmed⟩
    · exact .inl gone
    · cases confirmed.symm.trans waiting

theorem genuine_of_announces {s : NetworkSession} {text : List UInt8}
    (announces : NetworkSession.Announces w s.subId s.condition text) : Genuine w s text := by
  obtain ⟨t, accepted, same, sub, condition⟩ := announces
  refine ⟨t, accepted, same, sub, ?_⟩
  cases accepted with
  | false => exact .inl condition
  | true => exact .inr ⟨rfl, condition⟩

theorem initial_sound (w : World) (o : ServerOptions) : Sound w (initial o) where
  sorted := .nil
  bounded := fun _ member => by cases member
  pools := fun _ member => by cases member
  gone := fun _ below => absurd below (Nat.not_lt_zero _)
  genuine := fun _ member => by cases member
  conserved := .nil
  strangers := fun _ member => by cases member
  told := fun _ member => by cases member

/-- What waits after some sessions have caused something: what waited before and what they gave to
the pool or to the server. -/
theorem mem_notify {caused : List (Nat × List Effect)} {notice : ConnectionNotice}
    (member : notice ∈ (r.notify caused).queued) : notice ∈ r.queued ∨ ∃ c ∈ caused, c.1 = notice.1 ∧
      ∃ e ∈ c.2, e.queued = some notice.2 ∨ e.direct = some notice.2 := by
  refine (List.mem_append.mp member).imp_right fun new => ?_
  rcases List.mem_append.mp new with job | direct
  · obtain ⟨c, causes, found⟩ := List.mem_flatMap.mp job
    obtain ⟨text, listed, rfl⟩ := List.mem_map.mp found
    obtain ⟨e, effect, queued⟩ := List.mem_filterMap.mp listed
    exact ⟨c, causes, rfl, e, effect, .inl queued⟩
  · obtain ⟨c, causes, found⟩ := List.mem_flatMap.mp direct
    obtain ⟨text, listed, rfl⟩ := List.mem_map.mp found
    obtain ⟨e, effect, direct⟩ := List.mem_filterMap.mp listed
    exact ⟨c, causes, rfl, e, effect, .inr direct⟩

/-- The notices among these effects speak of what the session has come to. -/
def Speaking (w : World) (s : NetworkSession) (effects : List Effect) : Prop :=
  ∀ e ∈ effects, ∀ text, e.queued = some text ∨ e.direct = some text →
    NetworkSession.Announces w s.subId s.condition text

/-- Some sessions go on, some leave expired, and what they cause is genuine. -/
theorem Sound.notify (sound : Sound w r) {sessions : List Nat} {objects : Nat → NetworkSession}
    {caused : List (Nat × List Effect)} (fewer : sessions.Sublist r.sessions)
    (later : ∀ n, Later (r.objects n) (objects n))
    (pools : ∀ n ∈ sessions, (objects n).threadPool = some false)
    (leaves : ∀ n ∈ r.sessions, n ∉ sessions → (objects n).condition = .expired)
    (speaks : ∀ c ∈ caused, c.1 < r.accepted ∧ Speaking w (objects c.1) c.2) :
    Sound w ({ r with sessions, objects }.notify caused) where
  sorted := sound.sorted.sublist fewer
  bounded := fun n member => sound.bounded n (fewer.subset member)
  pools := pools
  gone := by
    intro n below absent
    by_cases before : n ∈ r.sessions
    · exact leaves n before absent
    · exact (later n).expired (sound.gone n below before)
  genuine := by
    intro notice member
    rcases mem_notify member with old | ⟨c, causes, same, e, effect, told⟩
    · obtain ⟨below, before⟩ := sound.genuine notice old
      exact ⟨below, (later _).genuine before⟩
    · obtain ⟨below, all⟩ := speaks c causes
      rw [← same]
      exact ⟨below, genuine_of_announces (all e effect _ told)⟩
  conserved := by
    refine List.perm_iff_count.mpr fun x => ?_
    have same := sound.conserved.count_eq x
    simp only [Registry.notify, List.count_append] at same ⊢
    omega
  strangers := fun notice lost member => sound.strangers notice lost (fewer.subset member)
  told := sound.told

theorem Announced.notify (announced : Announced w r) {sessions : List Nat}
    {objects : Nat → NetworkSession} {caused : List (Nat × List Effect)}
    (fewer : sessions.Sublist r.sessions)
    (expires : ∀ n ∈ sessions, (r.objects n).condition ≠ .expired →
      (objects n).condition = .expired → ∃ c ∈ caused, c.1 = n ∧
        ∃ e ∈ c.2, ∃ t : NetworkSession, e.queued = some (t.connectionMessage w false)) :
    Announced w ({ r with sessions, objects }.notify caused) := by
  intro n member expired
  by_cases before : (r.objects n).condition = .expired
  · obtain ⟨t, pending⟩ := announced n (fewer.subset member) before
    refine ⟨t, ?_⟩
    rcases pending with job | notice | handled
    · exact .inl (List.mem_append_left _ job)
    · exact .inr (.inl (List.mem_append_left _ notice))
    · exact .inr (.inr handled)
  · obtain ⟨c, caused_, rfl, e, effect, t, queued⟩ := expires n member before expired
    refine ⟨t, .inl (List.mem_append_right _ (List.mem_flatMap.mpr ⟨c, caused_, ?_⟩))⟩
    exact List.mem_map_of_mem (List.mem_filterMap.mpr ⟨e, effect, queued⟩)

theorem stop_expired (w : World) (s : NetworkSession) : (s.stop w).peer.condition = .expired :=
  @Handling.andThen_peer _ _ (fun t : NetworkSession => t.condition = .expired) _ _
    (NetworkSession.setCondition_inert w s .expired true).condition fun _ same => same

/-- A session with a pool is stopped. -/
theorem stop_later {s : NetworkSession} (pool : s.threadPool = some false) :
    Later s (s.stop w).peer ∧ Speaking w (s.stop w).peer (s.stop w).effects := by
  have first : NetworkSession.Answering w s (s.setCondition w .expired true) := .expired pool true
  have gone := (NetworkSession.setCondition_inert w s .expired true).condition
  have subId : (s.stop w).peer.subId = s.subId :=
    @Handling.andThen_peer _ _ (fun t : NetworkSession => t.subId = s.subId) _ _ first.subId
      fun _ same => same
  refine ⟨⟨subId, .inr (.inl (stop_expired w s))⟩, ?_⟩
  intro e member text told
  rw [NetworkSession.stop, Handling.andThen_nothing _ fun _ => rfl] at member
  rcases told with queued | direct
  · have announces := first.queued e member text queued
    rw [gone] at announces
    rw [subId, stop_expired]
    exact announces
  · cases (first.direct e member).symm.trans direct

/-- So does a session that goes on after an event. -/
theorem answering_speaks {s : NetworkSession} {h : Handling NetworkSession Effect}
    (answering : NetworkSession.Answering w s h) : Speaking w h.peer h.effects := by
  intro e effect text told
  rcases told with queued | direct
  · rw [answering.subId]
    exact answering.queued e effect text queued
  · cases (answering.direct e effect).symm.trans direct

section
variable {leaves : NetworkSession → Bool} {n : Nat}

theorem mem_gone : n ∈ r.sessions.filter (fun n => leaves (r.objects n)) ↔
    n ∈ r.sessions ∧ leaves (r.objects n) = true := List.mem_filter

/-- A session that stays has not been touched. -/
theorem retire_stays (member : n ∈ (r.retire w leaves).sessions) :
    n ∈ r.sessions ∧ leaves (r.objects n) = false ∧
      (r.retire w leaves).objects n = r.objects n := by
  obtain ⟨member, stays⟩ := List.mem_filter.mp member
  have stays : leaves (r.objects n) = false := by
    rw [← Bool.not_eq_true']
    exact stays
  refine ⟨member, stays, if_neg fun gone => ?_⟩
  rw [(mem_gone.mp gone).2] at stays
  cases stays

end

theorem Sound.retire (sound : Sound w r) (leaves : NetworkSession → Bool) :
    Sound w (r.retire w leaves) := by
  refine sound.notify List.filter_sublist ?_ ?_ ?_ ?_
  · intro n
    split
    next gone => exact (stop_later (sound.pools n (mem_gone.mp gone).1)).1
    next => exact .refl _
  · intro n member
    obtain ⟨member, _, same⟩ := @retire_stays w r leaves n member
    exact (congrArg (fun s => s.threadPool) same).trans (sound.pools n member)
  · intro n member absent
    have gone : n ∈ r.sessions.filter fun n => leaves (r.objects n) := by
      refine mem_gone.mpr ⟨member, ?_⟩
      by_contra stays
      exact absent (List.mem_filter.mpr ⟨member, by rw [eq_false_of_ne_true stays]; rfl⟩)
    rw [if_pos gone]
    exact stop_expired w _
  · intro c member
    obtain ⟨n, gone, rfl⟩ := List.mem_map.mp member
    obtain ⟨member, _⟩ := mem_gone.mp gone
    refine ⟨sound.bounded n member, ?_⟩
    rw [if_pos gone]
    exact (stop_later (sound.pools n member)).2

theorem Announced.retire (announced : Announced w r) (leaves : NetworkSession → Bool) :
    Announced w (r.retire w leaves) := by
  refine announced.notify List.filter_sublist ?_
  intro n member live expired
  obtain ⟨_, _, same⟩ := @retire_stays w r leaves n member
  exact absurd ((congrArg (fun s => s.condition) same).symm.trans expired) live

section
variable {n : Nat} {e : NetworkSession.Event} {h : Handling NetworkSession Effect}

theorem Sound.event (sound : Sound w r) (member : n ∈ r.sessions) (live : e ≠ .stop)
    (handled : (r.objects n).process w e = .ok h) :
    Sound w ({ r with objects := Function.update r.objects n h.peer }.notify [(n, h.effects)]) := by
  have answering := NetworkSession.process_answering (sound.pools n member) live handled
  refine @Sound.notify w r sound r.sessions (Function.update r.objects n h.peer) [(n, h.effects)]
    (.refl _) ?_ ?_ (fun m before absent => absurd before absent) ?_
  · intro m
    by_cases same : m = n
    · subst same
      rw [Function.update_self]
      exact ⟨answering.subId, answering.advances⟩
    · rw [Function.update_of_ne same]
      exact .refl _
  · intro m other
    by_cases same : m = n
    · subst same
      rw [Function.update_self]
      exact answering.pool
    · rw [Function.update_of_ne same]
      exact sound.pools m other
  · intro c caused
    rw [List.mem_singleton.mp caused, Function.update_self]
    exact ⟨sound.bounded n member, answering_speaks answering⟩

theorem Announced.event (announced : Announced w r) (pool : (r.objects n).threadPool = some false)
    (live : e ≠ .stop) (handled : (r.objects n).process w e = .ok h) :
    Announced w
      ({ r with objects := Function.update r.objects n h.peer }.notify [(n, h.effects)]) := by
  have answering := NetworkSession.process_answering pool live handled
  refine @Announced.notify w r announced r.sessions (Function.update r.objects n h.peer)
    [(n, h.effects)] (.refl _) ?_
  intro m _ before expired
  by_cases same : m = n
  · subst same
    rw [Function.update_self] at expired
    exact ⟨_, List.mem_singleton_self _, rfl, answering.expires before expired⟩
  · rw [Function.update_of_ne same] at expired
    exact absurd expired before

end

theorem start_running (w : World) (s : NetworkSession) (size : Nat) :
    (s.start w (some true) size).threadPool = some false ∧
      (s.start w (some true) size).condition = .waiting := by
  refine ⟨rfl, ?_⟩
  exact (NetworkSession.setCondition_inert w _ .waiting false).condition

theorem Sound.accept (sound : Sound w r) {s : NetworkSession} (pool : s.threadPool = some false) :
    Sound w { r with
      accepted := r.accepted + 1
      objects := Function.update r.objects r.accepted s
      sessions := r.sessions ++ [r.accepted] } where
  sorted := List.pairwise_append.mpr ⟨sound.sorted, List.pairwise_singleton _ _, fun n member m new => by
    rw [List.mem_singleton.mp new]
    exact sound.bounded n member⟩
  bounded := by
    intro n member
    rcases List.mem_append.mp member with old | new
    · exact Nat.lt_succ_of_lt (sound.bounded n old)
    · rw [List.mem_singleton.mp new]
      exact Nat.lt_succ_self _
  pools := by
    intro n member
    rcases List.mem_append.mp member with old | new
    · dsimp only
      rw [Function.update_of_ne (Nat.ne_of_lt (sound.bounded n old))]
      exact sound.pools n old
    · rw [List.mem_singleton.mp new]
      dsimp only
      rw [Function.update_self]
      exact pool
  gone := by
    intro n below absent
    rw [List.mem_append, not_or, List.mem_singleton] at absent
    dsimp only
    rw [Function.update_of_ne absent.2]
    exact sound.gone n (by dsimp only at below; omega) absent.1
  genuine := by
    intro notice member
    obtain ⟨below, genuine⟩ := sound.genuine notice member
    refine ⟨Nat.lt_succ_of_lt below, ?_⟩
    dsimp only
    rw [Function.update_of_ne (Nat.ne_of_lt below)]
    exact genuine
  conserved := sound.conserved
  strangers := by
    intro notice lost member
    rcases List.mem_append.mp member with old | new
    · exact sound.strangers notice lost old
    · have queued := sound.conserved.mem_iff.mp (List.mem_append_right _ (List.mem_append_right _
        (List.mem_append_right _ lost)))
      exact absurd (List.mem_singleton.mp new) (Nat.ne_of_lt (sound.genuine notice queued).1)
  told := sound.told

theorem Announced.accept (announced : Announced w r) (sound : Sound w r) {s : NetworkSession}
    (waiting : s.condition = .waiting) :
    Announced w { r with
      accepted := r.accepted + 1
      objects := Function.update r.objects r.accepted s
      sessions := r.sessions ++ [r.accepted] } := by
  intro n member expired
  rcases List.mem_append.mp member with old | new
  · dsimp only at expired
    rw [Function.update_of_ne (Nat.ne_of_lt (sound.bounded n old))] at expired
    exact announced n old expired
  · rw [List.mem_singleton.mp new] at expired
    dsimp only at expired
    rw [Function.update_self, waiting] at expired
    cases expired

section
variable {position : Nat} {notice : ConnectionNotice} {rest : List ConnectionNotice}

theorem Sound.deliver (sound : Sound w r) (taken : takeAt r.jobs position = some (notice, rest)) :
    Sound w { r with jobs := rest, notices := r.notices ++ [notice] } :=
  { sound with
    conserved := by
      dsimp only
      rw [List.append_assoc r.notices]
      exact (perm_passed (takeAt_perm taken) r.notices _).trans sound.conserved }

theorem Announced.deliver (announced : Announced w r)
    (taken : takeAt r.jobs position = some (notice, rest)) :
    Announced w { r with jobs := rest, notices := r.notices ++ [notice] } := by
  intro n member expired
  obtain ⟨t, pending⟩ := announced n member expired
  refine ⟨t, ?_⟩
  rcases pending with job | waits | handled
  · rcases List.mem_cons.mp ((takeAt_perm taken).mem_iff.mp job) with rfl | other
    · exact .inr (.inl (List.mem_append_right _ (List.mem_singleton_self _)))
    · exact .inl other
  · exact .inr (.inl (List.mem_append_left _ waits))
  · exact .inr (.inr handled)

theorem Sound.lose (sound : Sound w r) (taken : takeAt r.jobs position = some (notice, rest))
    (stranger : notice.1 ∉ r.sessions) :
    Sound w { r with jobs := rest, lost := r.lost ++ [notice] } :=
  { sound with
    conserved := by
      have last := perm_passed (takeAt_perm taken) (r.notices ++ (r.handled ++ r.lost)) []
      simp only [List.append_assoc, List.append_nil] at last
      exact last.trans sound.conserved
    strangers := by
      intro other lost
      rcases List.mem_append.mp lost with old | new
      · exact sound.strangers other old
      · rw [List.mem_singleton.mp new]
        exact stranger }

/-- A notice of a session that is kept is not lost. -/
theorem Announced.lose (announced : Announced w r)
    (taken : takeAt r.jobs position = some (notice, rest)) (stranger : notice.1 ∉ r.sessions) :
    Announced w { r with jobs := rest, lost := r.lost ++ [notice] } := by
  intro n member expired
  obtain ⟨t, pending⟩ := announced n member expired
  refine ⟨t, pending.imp_left fun job => ?_⟩
  rcases List.mem_cons.mp ((takeAt_perm taken).mem_iff.mp job) with rfl | other
  · exact absurd member stranger
  · exact other

theorem Sound.taken (sound : Sound w r) (taken : takeAt r.notices position = some (notice, rest)) :
    Sound w { r with notices := rest, handled := r.handled ++ [notice] } :=
  { sound with
    conserved := by
      dsimp only
      rw [List.append_assoc r.handled]
      exact ((perm_passed (takeAt_perm taken) r.handled _).append_left r.jobs).trans sound.conserved
    told := by
      intro entry told
      obtain ⟨other, handled, found⟩ := sound.told entry told
      exact ⟨other, List.mem_append_left _ handled, found⟩ }

/-- What the handler reads in the text of an answer. -/
theorem announcement_connectionMessage (faithful : w.Faithful) (t : NetworkSession)
    (accepted : Bool) {message : String → Option Json}
    (parsed : w.parse (Converter.toString (t.connectionMessage w accepted)) = .ok message) :
    announcement w (t.connectionMessage w accepted) =
      some (cString t.id, cString t.subId, accepted) := by
  have plain := parsed
  rw [NetworkSession.connectionMessage, faithful.plain] at plain
  have reads := faithful.reads _ _ plain
  unfold announcement
  rw [parsed]
  simp only [reads]
  rfl

theorem entry_of_announcement (faithful : w.Faithful) {t : NetworkSession} {accepted : Bool}
    {entry : List UInt8 × List UInt8 × Bool}
    (found : announcement w (t.connectionMessage w accepted) = some entry) :
    entry = (cString t.id, cString t.subId, accepted) := by
  cases parsed : w.parse (Converter.toString (t.connectionMessage w accepted)) with
  | error what =>
      unfold announcement at found
      rw [parsed] at found
      cases found
  | ok message =>
      rw [announcement_connectionMessage faithful t accepted parsed] at found
      exact (Option.some.inj found).symm

/-- No session waits for a notice that does not tell of a lost connection. -/
theorem Announced.taken (faithful : w.Faithful) (announced : Announced w r)
    (taken : takeAt r.notices position = some (notice, rest))
    (silent : ∀ id subId, announcement w notice.2 ≠ some (id, subId, false)) :
    Announced w { r with notices := rest, handled := r.handled ++ [notice] } := by
  intro n member expired
  obtain ⟨t, pending⟩ := announced n member expired
  refine ⟨t, ?_⟩
  rcases pending with job | waits | ⟨handled, unread⟩
  · exact .inl job
  · rcases List.mem_cons.mp ((takeAt_perm taken).mem_iff.mp waits) with rfl | other
    · refine .inr (.inr ⟨List.mem_append_right _ (List.mem_singleton_self _), ?_⟩)
      rintro ⟨message, parsed⟩
      exact silent _ _ (announcement_connectionMessage faithful t false parsed)
    · exact .inr (.inl other)
  · exact .inr (.inr ⟨List.mem_append_left _ handled, unread⟩)

theorem told_kept (sound : Sound w r) (announced : Announced w r)
    {entry : List UInt8 × List UInt8 × Bool}
    (found : ∃ notice ∈ r.handled, announcement w notice.2 = some entry) :
    Sound w { r with told := r.told ++ [entry] } ∧
      Announced w { r with told := r.told ++ [entry] } := by
  refine ⟨{ sound with told := ?_ }, announced⟩
  intro other member
  rcases List.mem_append.mp member with old | new
  · exact sound.told other old
  · rw [List.mem_singleton.mp new]
    exact found

theorem handler_kept (faithful : w.Faithful) (sound : Sound w r) (announced : Announced w r)
    (taken : takeAt r.notices position = some (notice, rest)) :
    let t := { r with notices := rest, handled := r.handled ++ [notice] }.receivedConnectionHandler
      w o notice.2
    Sound w t ∧ Announced w t := by
  have moved := sound.taken taken
  unfold receivedConnectionHandler
  cases found : announcement w notice.2 with
  | none => exact ⟨moved, announced.taken faithful taken fun _ _ same => by cases found.symm.trans same⟩
  | some entry =>
      obtain ⟨id, subId, condition⟩ := entry
      let s : Registry := { r with notices := rest, handled := r.handled ++ [notice] }
      have handled : notice ∈ s.handled := List.mem_append_right _ (List.mem_singleton_self _)
      have kept : ∀ t : Registry, t.handled = s.handled → Sound w t → Announced w t →
          let u := if o.receivedConnectionCallback then
            { t with told := t.told ++ [(id, subId, condition)] } else t
          Sound w u ∧ Announced w u := by
        intro t same sound announced
        dsimp only
        split
        next => exact told_kept sound announced ⟨notice, same ▸ handled, found⟩
        next => exact ⟨sound, announced⟩
      cases condition with
      | true =>
          refine kept s rfl moved (announced.taken faithful taken fun _ _ same => ?_)
          cases found.symm.trans same
      | false =>
          refine kept (s.retire w fun s => s.condition = .expired) rfl (moved.retire _) ?_
          intro n member expired
          obtain ⟨_, stays, same⟩ := @retire_stays w s _ n member
          rw [same] at expired
          exact absurd expired (of_decide_eq_false stays)

end

theorem step_kept (faithful : w.Faithful) {a : Action} {t : Registry}
    (kept : Sound w r ∧ Announced w r) (stepped : r.step w o a = some t) :
    Sound w t ∧ Announced w t := by
  obtain ⟨sound, announced⟩ := kept
  cases a with
  | accept guid isOpen =>
      unfold step at stepped
      dsimp only at stepped
      split at stepped
      next =>
        split at stepped
        next =>
          cases stepped
          obtain ⟨pool, waiting⟩ := start_running w (o.session guid) o.bufferSize
          exact ⟨sound.accept pool, announced.accept sound waiting⟩
        next =>
          cases stepped
          exact ⟨{ sound with }, announced⟩
      next => cases stepped
  | acceptFails =>
      unfold step at stepped
      dsimp only at stepped
      split at stepped
      next =>
        cases stepped
        exact ⟨{ sound with }, announced⟩
      next => cases stepped
  | event n e =>
      unfold step at stepped
      dsimp only at stepped
      split at stepped
      next allowed =>
        split at stepped
        next => cases stepped
        next h handled =>
          cases stepped
          exact ⟨sound.event allowed.1 allowed.2 handled,
            announced.event (sound.pools n allowed.1) allowed.2 handled⟩
      next => cases stepped
  | deliver position =>
      obtain ⟨⟨notice, rest⟩, taken, rfl⟩ := Option.map_eq_some_iff.mp stepped
      exact ⟨sound.deliver taken, announced.deliver taken⟩
  | lose position =>
      obtain ⟨⟨notice, rest⟩, taken, stepped⟩ := Option.bind_eq_some_iff.mp stepped
      dsimp only at stepped
      split at stepped
      next => cases stepped
      next stranger =>
        cases stepped
        exact ⟨sound.lose taken stranger, announced.lose taken stranger⟩
  | handle position =>
      obtain ⟨⟨notice, rest⟩, taken, rfl⟩ := Option.map_eq_some_iff.mp stepped
      exact handler_kept faithful sound announced taken
  | dropSession id subId =>
      cases stepped
      exact ⟨sound.retire _, announced.retire _⟩
  | dropSessions id =>
      cases stepped
      exact ⟨sound.retire _, announced.retire _⟩

theorem reached_kept (faithful : w.Faithful) {actions : List Action}
    (ran : run (step w o) (initial o) actions = some r) : Sound w r ∧ Announced w r :=
  run_keeps (fun _ _ _ kept stepped => step_kept faithful kept stepped)
    ⟨initial_sound w o, fun _ member => by cases member⟩ ran

/-- What a step puts on its way to the server speaks of what the session has come to by then. -/
def Spoken (w : World) (r : Registry) (notice : ConnectionNotice) : Prop :=
  NetworkSession.Announces w (r.objects notice.1).subId (r.objects notice.1).condition notice.2

section
variable {n : Nat} {notice : ConnectionNotice} {t : Registry}

theorem event_spoken (sound : Sound w r) {e : NetworkSession.Event}
    {h : Handling NetworkSession Effect} (member : n ∈ r.sessions) (live : e ≠ .stop)
    (handled : (r.objects n).process w e = .ok h)
    (waits : notice ∈
      ({ r with objects := Function.update r.objects n h.peer }.notify [(n, h.effects)]).queued) :
    notice ∈ r.queued ∨ Spoken w
      ({ r with objects := Function.update r.objects n h.peer }.notify [(n, h.effects)]) notice := by
  refine (mem_notify waits).imp_right ?_
  rintro ⟨c, caused, same, e, effect, told⟩
  cases List.mem_singleton.mp caused
  have speaks := answering_speaks
    (NetworkSession.process_answering (sound.pools n member) live handled)
  change NetworkSession.Announces w (Function.update r.objects n h.peer notice.1).subId
    (Function.update r.objects n h.peer notice.1).condition notice.2
  rw [← same, Function.update_self]
  exact speaks e effect _ told

theorem retire_spoken (sound : Sound w r) {leaves : NetworkSession → Bool}
    (waits : notice ∈ (r.retire w leaves).queued) :
    notice ∈ r.queued ∨ Spoken w (r.retire w leaves) notice := by
  refine (mem_notify waits).imp_right ?_
  rintro ⟨c, caused, same, e, effect, told⟩
  obtain ⟨n, gone, rfl⟩ := List.mem_map.mp caused
  have speaks := (@stop_later w _ (sound.pools n (mem_gone.mp gone).1)).2
  have stopped : (r.retire w leaves).objects n = ((r.objects n).stop w).peer := if_pos gone
  rw [Spoken, ← same, stopped]
  exact speaks e effect _ told

/-- The handler of a notice retires sessions, or causes nothing. -/
theorem handler_moves (r : Registry) (text : List UInt8) :
    let t := r.receivedConnectionHandler w o text
    (t.queued = r.queued ∧ t.objects = r.objects) ∨
      ∃ leaves, t.queued = (r.retire w leaves).queued ∧ t.objects = (r.retire w leaves).objects := by
  unfold receivedConnectionHandler
  split
  next => exact .inl ⟨rfl, rfl⟩
  next entry _ =>
    obtain ⟨id, subId, condition⟩ := entry
    cases condition with
    | true =>
        dsimp only
        rw [if_pos rfl]
        split <;> exact .inl ⟨rfl, rfl⟩
    | false =>
        dsimp only
        rw [if_neg Bool.false_ne_true]
        refine .inr ⟨fun s => s.condition = .expired, ?_⟩
        split <;> exact ⟨rfl, rfl⟩

theorem step_spoken {a : Action} (sound : Sound w r) (stepped : r.step w o a = some t)
    (waits : notice ∈ t.queued) : notice ∈ r.queued ∨ Spoken w t notice := by
  cases a with
  | accept guid isOpen =>
      unfold step at stepped
      dsimp only at stepped
      split at stepped
      next =>
        split at stepped <;> cases stepped <;> exact .inl waits
      next => cases stepped
  | acceptFails =>
      unfold step at stepped
      dsimp only at stepped
      split at stepped <;> cases stepped
      exact .inl waits
  | event n e =>
      unfold step at stepped
      dsimp only at stepped
      split at stepped
      next allowed =>
        split at stepped
        next => cases stepped
        next h handled =>
          cases stepped
          exact event_spoken sound allowed.1 allowed.2 handled waits
      next => cases stepped
  | deliver position =>
      obtain ⟨⟨notice, rest⟩, taken, rfl⟩ := Option.map_eq_some_iff.mp stepped
      exact .inl waits
  | lose position =>
      obtain ⟨⟨notice, rest⟩, taken, stepped⟩ := Option.bind_eq_some_iff.mp stepped
      dsimp only at stepped
      split at stepped <;> cases stepped
      exact .inl waits
  | handle position =>
      obtain ⟨⟨taken, rest⟩, found, rfl⟩ := Option.map_eq_some_iff.mp stepped
      have moved := sound.taken found
      rcases @handler_moves w o { r with notices := rest, handled := r.handled ++ [taken] } taken.2 with
        ⟨queued, _⟩ | ⟨leaves, queued, objects⟩
      · rw [queued] at waits
        exact .inl waits
      · rw [queued] at waits
        rw [Spoken, objects]
        exact retire_spoken moved waits
  | dropSession id subId =>
      cases stepped
      exact retire_spoken sound waits
  | dropSessions id =>
      cases stepped
      exact retire_spoken sound waits

end

/-- After some beginning of the run the session was confirmed. -/
def WasConfirmed (w : World) (o : ServerOptions) (actions : List Action) (n : Nat) : Prop :=
  ∃ before after mid, actions = before ++ after ∧
    run (step w o) (initial o) before = some mid ∧ (mid.objects n).condition = .confirmed

theorem WasConfirmed.later {actions : List Action} {n : Nat} (was : WasConfirmed w o actions n)
    (a : Action) : WasConfirmed w o (actions ++ [a]) n := by
  obtain ⟨before, after, mid, rfl, ran, confirmed⟩ := was
  exact ⟨before, after ++ [a], mid, List.append_assoc .., ran, confirmed⟩

/-- A notice of an acceptance comes from a session that was confirmed. -/
theorem queued_confirmed (faithful : w.Faithful) {actions : List Action}
    (ran : run (step w o) (initial o) actions = some r) :
    ∀ notice ∈ r.queued, ∃ t : NetworkSession, ∃ accepted, notice.2 = t.connectionMessage w accepted ∧
      (accepted = true → WasConfirmed w o actions notice.1) := by
  refine run_history (I := fun actions r => ∀ notice ∈ r.queued, ∃ t : NetworkSession, ∃ accepted,
    notice.2 = t.connectionMessage w accepted ∧
      (accepted = true → WasConfirmed w o actions notice.1)) ?_ (fun _ member => by cases member) ran
  intro actions r a t ran held stepped notice waits
  have sound := (reached_kept faithful ran).1
  rcases step_spoken sound stepped waits with before | ⟨u, accepted, text, -, condition⟩
  · obtain ⟨u, accepted, text, was⟩ := held notice before
    exact ⟨u, accepted, text, fun yes => (was yes).later a⟩
  · refine ⟨u, accepted, text, ?_⟩
    rintro rfl
    refine ⟨actions ++ [a], [], t, (List.append_nil _).symm, ?_, condition⟩
    exact run_append.mpr ⟨r, ran, run_single stepped⟩

end

/-- The notice of a session that is lost before its handshake, and its text. -/
def lostTexts : List (List (String × Json) × List UInt8) :=
  [([("id", .string (Handshake.ascii "unauthorized_client")), ("sub_id", .string [99]),
      ("key", .string []), ("iv", .string []), ("encrypt_mode", .bool false),
      ("condition", .bool false)],
    Handshake.ascii ("\x7b\"id\":\"unauthorized_client\",\"sub_id\":\"c\",\"key\":\"\"," ++
      "\"iv\":\"\",\"encrypt_mode\":false,\"condition\":false\x7d"))]

def sampleOptions : ServerOptions where
  id := [115]
  encryptMode := false
  registeredKey := [107]
  bufferSize := 1024
  receivedConnectionCallback := true
  receivedBinaryCallback := none
  receivedMessageCallback := none
  receivedFileCallback := none

end Registry
end CppToolkit.Network
