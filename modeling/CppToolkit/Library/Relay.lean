import Mathlib.Data.List.Nodup
import Mathlib.Data.List.Perm.Basic
import Mathlib.Tactic.Common

/-! Items that pass through stages, numbered by rank. Each stage has a queue, first in,
first out, and any number of hands work at what they took from the queues. -/
namespace CppToolkit

/-- `queued` holds the queues of all stages, in the order in which the items came. -/
structure Relay (ω α : Type*) where
  queued : List α
  held : List (ω × α)

namespace Relay

variable {ω α : Type*}

def empty : Relay ω α := ⟨[], []⟩

def items (s : Relay ω α) : List α := s.queued ++ s.held.map Prod.snd

/-- At the end of the queue of its stage. -/
def enter (s : Relay ω α) (a : α) : Relay ω α := { s with queued := s.queued ++ [a] }

section
variable [DecidableEq ω]

def holds (s : Relay ω α) (hand : ω) : Option α := (s.held.find? (·.1 = hand)).map Prod.snd

def release (s : Relay ω α) (hand : ω) : Relay ω α :=
  { s with held := s.held.eraseP (·.1 = hand) }

/-- An empty hand takes the first item of the first of the stages that has one. -/
def take (rank : α → Nat) (s : Relay ω α) (hand : ω) (stages : List Nat) : Option (Relay ω α) :=
  if (s.holds hand).isSome then none
  else
    (stages.findSome? fun k => s.queued.find? (rank · = k)).map fun a =>
      ⟨s.queued.eraseP (rank · = rank a), (hand, a) :: s.held⟩

end

/-- No `second` item is ahead of a `first` one: not at a later stage, not in front of it in
a queue, and not in a hand while it is still queued for that stage. -/
structure InOrder (rank : α → Nat) (first second : α → Prop) (s : Relay ω α) : Prop where
  queued : s.queued.Pairwise fun a b =>
    (second a → first b → rank a < rank b) ∧ (first a → second b → rank b ≤ rank a)
  behind : ∀ a ∈ s.queued, ∀ h ∈ s.held, first a → second h.2 → rank h.2 < rank a
  ahead : ∀ b ∈ s.queued, ∀ h ∈ s.held, first h.2 → second b → rank b ≤ rank h.2
  hands : ∀ h ∈ s.held, ∀ g ∈ s.held, first h.2 → second g.2 → rank g.2 ≤ rank h.2

section
variable {rank : α → Nat} {first second : α → Prop} {s t : Relay ω α}

theorem inOrder_empty : InOrder rank first second (empty : Relay ω α) where
  queued := .nil
  behind := fun _ member => nomatch member
  ahead := fun _ member => nomatch member
  hands := fun _ member => nomatch member

theorem mem_items {a : α} : a ∈ s.items ↔ a ∈ s.queued ∨ ∃ h ∈ s.held, h.2 = a := by
  rw [items, List.mem_append, List.mem_map]

theorem items_enter (s : Relay ω α) (a : α) : (s.enter a).items.Perm (a :: s.items) := by
  rw [items, enter, List.append_assoc]
  exact List.perm_middle

/-- A new item comes in behind the `first` ones or before all `second` ones. -/
theorem InOrder.enter (ordered : s.InOrder rank first second) {a : α}
    (before : first a → ∀ b ∈ s.items, second b → rank b < rank a)
    (behind : second a → ∀ b ∈ s.items, first b → rank a ≤ rank b) :
    (s.enter a).InOrder rank first second := by
  have queued : ∀ {b}, b ∈ s.queued → b ∈ s.items := fun member => mem_items.mpr (.inl member)
  have held : ∀ {h}, h ∈ s.held → h.2 ∈ s.items := fun member => mem_items.mpr (.inr ⟨_, member, rfl⟩)
  have last : ∀ {b}, b ∈ (s.enter a).queued → b ∈ s.queued ∨ b = a := by
    intro b member
    rw [Relay.enter, List.mem_append, List.mem_singleton] at member
    exact member
  refine ⟨?_, ?_, ?_, ordered.hands⟩
  · refine List.pairwise_append.mpr ⟨ordered.queued, List.pairwise_singleton _ _, ?_⟩
    intro b member c single
    rw [List.mem_singleton.mp single]
    exact ⟨fun two one => before one b (queued member) two,
      fun one two => behind two b (queued member) one⟩
  · intro b member h inside one two
    rcases last member with old | rfl
    · exact ordered.behind b old h inside one two
    · exact before one h.2 (held inside) two
  · intro b member h inside one two
    rcases last member with old | rfl
    · exact ordered.ahead b old h inside one two
    · exact behind two h.2 (held inside) one

/-- Every hand holds one item, and some stages have only one hand. -/
structure Manned (rank : α → Nat) (only : Nat → Option ω) (s : Relay ω α) : Prop where
  once : (s.held.map Prod.fst).Nodup
  only : ∀ h ∈ s.held, ∀ hand, only (rank h.2) = some hand → h.1 = hand

theorem manned_empty {only : Nat → Option ω} : Manned rank only (empty : Relay ω α) :=
  ⟨.nil, fun _ member => nomatch member⟩

theorem Manned.enter {only : Nat → Option ω} (manned : s.Manned rank only) (a : α) :
    (s.enter a).Manned rank only := ⟨manned.once, manned.only⟩

/-- What an empty hand takes: an item of one of the stages, and the first of its own. -/
structure Takes (rank : α → Nat) (s : Relay ω α) (hand : ω) (stages : List Nat) (a : α)
    (t : Relay ω α) : Prop where
  free : ∀ h ∈ s.held, h.1 ≠ hand
  wanted : rank a ∈ stages
  queued : ∃ before after, s.queued = before ++ a :: after ∧ t.queued = before ++ after ∧
    ∀ b ∈ before, rank b ≠ rank a
  held : t.held = (hand, a) :: s.held

section
variable {hand : ω} {a : α} {stages : List Nat}

theorem Takes.mem (takes : s.Takes rank hand stages a t) : a ∈ s.queued := by
  obtain ⟨before, after, split, _⟩ := takes.queued
  rw [split]
  exact List.mem_append_right _ List.mem_cons_self

theorem Takes.items (takes : s.Takes rank hand stages a t) : t.items.Perm s.items := by
  obtain ⟨before, after, split, left, _⟩ := takes.queued
  rw [Relay.items, Relay.items, takes.held, split, left, List.map_cons]
  simp only [List.append_assoc, List.cons_append]
  exact List.perm_middle.append_left before

theorem Takes.old (takes : s.Takes rank hand stages a t) {b : α} (member : b ∈ t.queued) :
    b ∈ s.queued := by
  obtain ⟨before, after, split, left, _⟩ := takes.queued
  rw [left] at member
  rw [split]
  exact ((List.sublist_cons_self a after).append_left before).subset member

theorem Takes.manned {only : Nat → Option ω} (takes : s.Takes rank hand stages a t)
    (manned : s.Manned rank only) (served : ∀ other, only (rank a) = some other → hand = other) :
    t.Manned rank only := by
  refine ⟨?_, ?_⟩
  · rw [takes.held, List.map_cons, List.nodup_cons]
    refine ⟨fun listed => ?_, manned.once⟩
    obtain ⟨h, member, same⟩ := List.mem_map.mp listed
    exact takes.free h member same
  · intro h member
    rw [takes.held, List.mem_cons] at member
    rcases member with rfl | old
    · exact served
    · exact manned.only h old

/-- Of what is left in the queue, nothing that was in front of the taken item has its stage. -/
theorem Takes.others (takes : s.Takes rank hand stages a t)
    (ordered : s.InOrder rank first second) {b : α} (member : b ∈ t.queued) :
    (first a → second b → rank b ≤ rank a) ∧ (second a → first b → rank a < rank b) := by
  obtain ⟨before, after, split, left, others⟩ := takes.queued
  have pairs := ordered.queued
  rw [split, List.pairwise_append] at pairs
  rw [left] at member
  rcases List.mem_append.mp member with early | late
  · have pair := pairs.2.2 b early a List.mem_cons_self
    exact ⟨fun one two => Nat.le_of_lt (pair.1 two one),
      fun two one => Nat.lt_of_le_of_ne (pair.2 one two) (others b early).symm⟩
  · have pair := (List.pairwise_cons.mp pairs.2.1).1 b late
    exact ⟨fun one two => pair.2 one two, fun two one => pair.1 two one⟩

theorem Takes.inOrder (takes : s.Takes rank hand stages a t)
    (ordered : s.InOrder rank first second) : t.InOrder rank first second := by
  have held : ∀ {h}, h ∈ t.held → h = (hand, a) ∨ h ∈ s.held := by
    intro h member
    rw [takes.held, List.mem_cons] at member
    exact member
  refine ⟨?_, ?_, ?_, ?_⟩
  · obtain ⟨before, after, split, left, _⟩ := takes.queued
    rw [left]
    have pairs := ordered.queued
    rw [split] at pairs
    exact pairs.sublist ((List.sublist_cons_self a after).append_left before)
  · intro b member h inside one two
    rcases held inside with rfl | old
    · exact (takes.others ordered member).2 two one
    · exact ordered.behind b (takes.old member) h old one two
  · intro b member h inside one two
    rcases held inside with rfl | old
    · exact (takes.others ordered member).1 one two
    · exact ordered.ahead b (takes.old member) h old one two
  · intro h inside g other one two
    rcases held inside with rfl | old
    · rcases held other with rfl | old'
      · exact Nat.le_refl _
      · exact Nat.le_of_lt (ordered.behind a takes.mem g old' one two)
    · rcases held other with rfl | old'
      · exact ordered.ahead a takes.mem h old one two
      · exact ordered.hands h old g old' one two

end

/-- The first element with a property, and the list without it. -/
theorem find?_split {β : Type*} {p : β → Bool} {l : List β} {x : β} (found : l.find? p = some x) :
    ∃ before after, l = before ++ x :: after ∧ l.eraseP p = before ++ after ∧
      ∀ y ∈ before, p y = false := by
  obtain ⟨here, before, after, split, others⟩ := List.find?_eq_some_iff_append.mp found
  have others : ∀ y ∈ before, ¬ p y = true := by
    intro y member
    have not_ := others y member
    rwa [Bool.not_eq_true', ← Bool.not_eq_true] at not_
  refine ⟨before, after, split, ?_, fun y member => eq_false_of_ne_true (others y member)⟩
  rw [split, List.eraseP_append_right _ others, List.eraseP_cons_of_pos here]

variable [DecidableEq ω] {hand : ω} {a b : α} {stages : List Nat}

theorem holds_mem (holds : s.holds hand = some a) : (hand, a) ∈ s.held := by
  obtain ⟨⟨other, item⟩, found, same⟩ := Option.map_eq_some_iff.mp holds
  have here := List.find?_some found
  rw [decide_eq_true_eq] at here
  cases here
  cases same
  exact List.mem_of_find?_eq_some found

theorem not_holds (holds : s.holds hand = none) : ∀ h ∈ s.held, h.1 ≠ hand := by
  intro h member same
  have none_ := List.find?_eq_none.mp (Option.map_eq_none_iff.mp holds) h member
  exact none_ (decide_eq_true same)

theorem items_release (holds : s.holds hand = some a) :
    s.items.Perm (a :: (s.release hand).items) := by
  obtain ⟨⟨other, item⟩, found, same⟩ := Option.map_eq_some_iff.mp holds
  cases same
  obtain ⟨before, after, split, left, _⟩ := find?_split found
  have released : (s.release hand).held = before ++ after := left
  rw [items, items, released, split]
  simp only [List.map_append, List.map_cons, ← List.append_assoc]
  exact List.perm_middle

theorem release_held {h : ω × α} (member : h ∈ (s.release hand).held) : h ∈ s.held :=
  List.eraseP_sublist.mem member

theorem release_items {b : α} (member : b ∈ (s.release hand).items) : b ∈ s.items := by
  rcases mem_items.mp member with queued | ⟨h, held, same⟩
  · exact mem_items.mpr (.inl queued)
  · exact mem_items.mpr (.inr ⟨h, release_held held, same⟩)

theorem Manned.release {only : Nat → Option ω} (manned : s.Manned rank only) (hand : ω) :
    (s.release hand).Manned rank only :=
  ⟨manned.once.sublist (List.eraseP_sublist.map Prod.fst),
    fun h member => manned.only h (release_held member)⟩

/-- Where a stage has one hand, nothing else is held at it. -/
theorem Manned.same {only : Nat → Option ω} (manned : s.Manned rank only)
    (holds : s.holds hand = some a) {one : ω} (alone : only (rank a) = some one) {h : ω × α}
    (member : h ∈ s.held) (stage : rank h.2 = rank a) : h = (hand, a) := by
  have mine := manned.only _ (holds_mem holds) one alone
  have its := manned.only h member one (stage ▸ alone)
  exact List.inj_on_of_nodup_map manned.once member (holds_mem holds) (its.trans mine.symm)

theorem InOrder.release (ordered : s.InOrder rank first second) (hand : ω) :
    (s.release hand).InOrder rank first second where
  queued := ordered.queued
  behind := fun a member h held => ordered.behind a member h (release_held held)
  ahead := fun b member h held => ordered.ahead b member h (release_held held)
  hands := fun h held g other => ordered.hands h (release_held held) g (release_held other)

theorem take_takes (taken : s.take rank hand stages = some t) : ∃ a, s.Takes rank hand stages a t := by
  unfold take at taken
  split at taken
  next => cases taken
  next free =>
    obtain ⟨a, found, same⟩ := Option.map_eq_some_iff.mp taken
    subst same
    obtain ⟨k, wanted, found⟩ := List.exists_of_findSome?_eq_some found
    have here := List.find?_some found
    rw [decide_eq_true_eq] at here
    subst here
    obtain ⟨before, after, split, left, others⟩ := find?_split found
    have empty := not_holds (Option.not_isSome_iff_eq_none.mp free)
    refine ⟨a, empty, wanted, ⟨before, after, split, left, ?_⟩, rfl⟩
    exact fun b member => of_decide_eq_false (others b member)

/-- A hand passes its item on to the next stage: no `second` one while a `first` one is in
a hand of the same stage. -/
theorem InOrder.pass (ordered : s.InOrder rank first second) (holds : s.holds hand = some a)
    (next : rank b = rank a + 1) (kept : (first b → first a) ∧ (second b → second a))
    (waits : second a → ∀ h ∈ s.held, first h.2 → rank h.2 ≠ rank a) :
    ((s.release hand).enter b).InOrder rank first second := by
  have inside := holds_mem holds
  refine (ordered.release hand).enter ?_ ?_
  · intro one c member two
    rw [next, Nat.lt_succ_iff]
    rcases mem_items.mp (release_items member) with queued | ⟨h, held, rfl⟩
    · exact ordered.ahead c queued (hand, a) inside (kept.1 one) two
    · exact ordered.hands (hand, a) inside h held (kept.1 one) two
  · intro two c member one
    rw [next, Nat.succ_le_iff]
    rcases mem_items.mp (release_items member) with queued | ⟨h, held, rfl⟩
    · exact ordered.behind c queued (hand, a) inside one (kept.2 two)
    · refine Nat.lt_of_le_of_ne (ordered.hands h held (hand, a) inside one (kept.2 two)) ?_
      exact (waits (kept.2 two) h held one).symm

end

end Relay
end CppToolkit
