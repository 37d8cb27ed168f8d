import Mathlib.Data.List.Range
import Mathlib.Data.List.Perm.Basic

/-! A queue with keys. What is accepted gets a ticket, in order, and is from then on
queued, taken or dropped. -/
namespace CppToolkit

structure Entry (α : Type*) where
  ticket : Nat
  item : α

/-- The item with ticket `n` is the `n`-th of `accepted`. -/
structure PriorityFifo (α : Type*) where
  closed : Bool
  accepted : List α
  queued : List (Entry α)
  taken : List (Entry α)
  dropped : List (Entry α)

namespace PriorityFifo

variable {κ α : Type*} (key : α → κ)

def empty : PriorityFifo α := ⟨false, [], [], [], []⟩

def offer (s : PriorityFifo α) (item : α) : PriorityFifo α :=
  { s with
    accepted := s.accepted ++ [item]
    queued := s.queued ++ [⟨s.accepted.length, item⟩] }

/-- The queued entries of one key, oldest first. -/
def ofKey [DecidableEq κ] (s : PriorityFifo α) (k : κ) : List (Entry α) :=
  s.queued.filter fun e => key e.item = k

/-- The oldest entry of the first of the keys that has one. -/
def oldest [DecidableEq κ] (s : PriorityFifo α) (keys : List κ) : Option (Entry α) :=
  keys.findSome? fun k => (s.ofKey key k).head?

def take (s : PriorityFifo α) (e : Entry α) : PriorityFifo α :=
  { s with
    queued := s.queued.eraseP fun q => q.ticket = e.ticket
    taken := s.taken ++ [e] }

def drop (s : PriorityFifo α) (gone : Entry α → Bool) : PriorityFifo α :=
  { s with
    queued := s.queued.filter fun q => !gone q
    dropped := s.dropped ++ s.queued.filter gone }

def close (s : PriorityFifo α) (closed : Bool) : PriorityFifo α := { s with closed }

/-- All entries, wherever they are. -/
def entries (s : PriorityFifo α) : List (Entry α) := s.queued ++ s.taken ++ s.dropped

/-- Each ticket is in one place, once; the queue is in order, and the entries of one key
are taken in order. -/
structure Sound (s : PriorityFifo α) : Prop where
  known : ∀ e ∈ s.entries, s.accepted[e.ticket]? = some e.item
  once : (s.entries.map Entry.ticket).Perm (List.range s.accepted.length)
  sorted : s.queued.Pairwise fun a b => a.ticket < b.ticket
  order : s.taken.Pairwise fun a b => key a.item = key b.item → a.ticket < b.ticket
  ahead : ∀ e ∈ s.taken, ∀ q ∈ s.queued, key e.item = key q.item → e.ticket < q.ticket

section
variable {key} {s : PriorityFifo α}

theorem sound_empty : Sound key (empty : PriorityFifo α) where
  known := fun _ member => nomatch member
  once := .refl _
  sorted := .nil
  order := .nil
  ahead := fun _ member => nomatch member

theorem mem_ofKey [DecidableEq κ] {k : κ} {e : Entry α} :
    e ∈ s.ofKey key k ↔ e ∈ s.queued ∧ key e.item = k := by
  rw [ofKey, List.mem_filter, decide_eq_true_eq]

theorem oldest_none [DecidableEq κ] {keys : List κ} :
    s.oldest key keys = none ↔ ∀ k ∈ keys, ∀ q ∈ s.queued, key q.item ≠ k := by
  rw [oldest, List.findSome?_eq_none_iff]
  refine forall_congr' fun k => imp_congr_right fun _ => ?_
  rw [List.head?_eq_none_iff, List.eq_nil_iff_forall_not_mem]
  refine forall_congr' fun q => ?_
  rw [mem_ofKey, not_and]

/-- The oldest queued entry of a key, behind keys that have none. -/
structure Oldest (s : PriorityFifo α) (key : α → κ) (keys : List κ) (e : Entry α) : Prop where
  queued : e ∈ s.queued
  first : ∃ before after, keys = before ++ key e.item :: after ∧
    ∀ k ∈ before, ∀ q ∈ s.queued, key q.item ≠ k
  least : ∀ q ∈ s.queued, key q.item = key e.item → e.ticket ≤ q.ticket

theorem oldest_some [DecidableEq κ] (sorted : s.queued.Pairwise fun a b => a.ticket < b.ticket)
    {keys : List κ} {e : Entry α} (found : s.oldest key keys = some e) : s.Oldest key keys e := by
  obtain ⟨before, k, after, rfl, head, empty⟩ := List.findSome?_eq_some_iff.mp found
  obtain ⟨rest, same⟩ := List.head?_eq_some_iff.mp head
  have member : e ∈ s.ofKey key k := by
    rw [same]
    exact List.mem_cons_self
  obtain ⟨queued, rfl⟩ := mem_ofKey.mp member
  refine ⟨queued, ⟨before, after, rfl, ?_⟩, ?_⟩
  · intro k' earlier q inside equal
    have none_ := List.head?_eq_none_iff.mp (empty k' earlier)
    have some_ : q ∈ s.ofKey key k' := mem_ofKey.mpr ⟨inside, equal⟩
    rw [none_] at some_
    cases some_
  · intro q inside equal
    have ordered : (s.ofKey key (key e.item)).Pairwise fun a b => a.ticket < b.ticket :=
      sorted.filter _
    have listed : q ∈ s.ofKey key (key e.item) := mem_ofKey.mpr ⟨inside, equal⟩
    rw [same] at ordered listed
    rcases List.mem_cons.mp listed with rfl | behind
    · exact Nat.le_refl _
    · exact Nat.le_of_lt ((List.pairwise_cons.mp ordered).1 q behind)

/-- What keeps all entries and what was accepted keeps every ticket in one place. -/
theorem Sound.rearranged (sound : s.Sound key) {t : PriorityFifo α} (accepted : t.accepted = s.accepted)
    (perm : t.entries.Perm s.entries) (sorted : t.queued.Pairwise fun a b => a.ticket < b.ticket)
    (order : t.taken.Pairwise fun a b => key a.item = key b.item → a.ticket < b.ticket)
    (ahead : ∀ e ∈ t.taken, ∀ q ∈ t.queued, key e.item = key q.item → e.ticket < q.ticket) :
    t.Sound key := by
  refine ⟨?_, ?_, sorted, order, ahead⟩
  · intro e member
    rw [accepted]
    exact sound.known e (perm.mem_iff.mp member)
  · rw [accepted]
    exact (perm.map Entry.ticket).trans sound.once

theorem Sound.ticket_lt (sound : s.Sound key) {e : Entry α} (member : e ∈ s.entries) :
    e.ticket < s.accepted.length :=
  List.mem_range.mp (sound.once.mem_iff.mp (List.mem_map_of_mem member))

theorem Sound.offer (sound : s.Sound key) (item : α) : (s.offer item).Sound key := by
  have old : ∀ {e}, e ∈ s.entries → e.ticket < s.accepted.length := sound.ticket_lt
  have perm : (s.offer item).entries.Perm (⟨s.accepted.length, item⟩ :: s.entries) := by
    simp only [entries, PriorityFifo.offer, List.append_assoc, List.singleton_append]
    exact List.perm_middle
  refine ⟨?_, ?_, ?_, sound.order, ?_⟩
  · intro e member
    rcases List.mem_cons.mp (perm.mem_iff.mp member) with rfl | member
    · exact List.getElem?_concat_length
    · exact (List.getElem?_append_left (old member)).trans (sound.known e member)
  · have length : (s.offer item).accepted.length = s.accepted.length + 1 := List.length_append
    rw [length, List.range_succ]
    refine (perm.map Entry.ticket).trans ?_
    exact (sound.once.cons _).trans (List.perm_append_singleton _ _).symm
  · refine List.pairwise_append.mpr ⟨sound.sorted, List.pairwise_singleton _ _, ?_⟩
    intro a member b single
    rw [List.mem_singleton.mp single]
    exact old (List.mem_append_left _ (List.mem_append_left _ member))
  · intro e taken q queued equal
    rcases List.mem_append.mp queued with queued | new
    · exact sound.ahead e taken q queued equal
    · rw [List.mem_singleton.mp new]
      exact old (List.mem_append_left _ (List.mem_append_right _ taken))

/-- A taken entry leaves the queue between the older and the younger ones. -/
theorem take_queued (sorted : s.queued.Pairwise fun a b => a.ticket < b.ticket) {e : Entry α}
    (member : e ∈ s.queued) :
    ∃ before after, s.queued = before ++ e :: after ∧ (s.take e).queued = before ++ after := by
  obtain ⟨before, after, split⟩ := List.append_of_mem member
  refine ⟨before, after, split, ?_⟩
  rw [split, List.pairwise_append] at sorted
  have older : ∀ b ∈ before, ¬ decide (b.ticket = e.ticket) = true := by
    intro b inside
    rw [decide_eq_true_eq]
    exact Nat.ne_of_lt (sorted.2.2 b inside e List.mem_cons_self)
  have here : decide (e.ticket = e.ticket) = true := decide_eq_true rfl
  change s.queued.eraseP _ = _
  rw [split, List.eraseP_append_right _ older]
  exact congrArg (before ++ ·) (List.eraseP_cons_of_pos here)

/-- The entries of its key behind the oldest one stay. -/
theorem take_ofKey [DecidableEq κ] (sorted : s.queued.Pairwise fun a b => a.ticket < b.ticket)
    {k : κ} {e : Entry α} {rest : List (Entry α)} (oldest : s.ofKey key k = e :: rest) :
    (s.take e).ofKey key k = rest := by
  have member : e ∈ s.ofKey key k := by
    rw [oldest]
    exact List.mem_cons_self
  have same : decide (key e.item = k) = true := decide_eq_true (mem_ofKey.mp member).2
  obtain ⟨before, after, split, left⟩ := take_queued sorted (mem_ofKey.mp member).1
  rw [split, List.pairwise_append] at sorted
  rw [ofKey, split, List.filter_append, List.filter_cons, if_pos same] at oldest
  rw [ofKey, left, List.filter_append]
  cases earlier : before.filter fun q => decide (key q.item = k) with
  | nil =>
      rw [earlier] at oldest
      exact (List.cons.inj oldest).2
  | cons b others =>
      rw [earlier] at oldest
      have first : b ∈ before.filter fun q => decide (key q.item = k) := by
        rw [earlier]
        exact List.mem_cons_self
      have less := sorted.2.2 b (List.mem_filter.mp first).1 e List.mem_cons_self
      rw [(List.cons.inj oldest).1] at less
      exact absurd less (Nat.lt_irrefl _)

theorem take_ofKey_ne [DecidableEq κ] (sorted : s.queued.Pairwise fun a b => a.ticket < b.ticket)
    {k : κ} {e : Entry α} (member : e ∈ s.queued) (other : key e.item ≠ k) :
    (s.take e).ofKey key k = s.ofKey key k := by
  obtain ⟨before, after, split, left⟩ := take_queued sorted member
  have unlisted : ¬ decide (key e.item = k) = true := by
    rw [decide_eq_true_eq]
    exact other
  rw [ofKey, ofKey, left, split, List.filter_append, List.filter_append, List.filter_cons,
    if_neg unlisted]

theorem Sound.take (sound : s.Sound key) {keys : List κ} {e : Entry α}
    (oldest : s.Oldest key keys e) : (s.take e).Sound key := by
  obtain ⟨before, after, split, left⟩ := take_queued sound.sorted oldest.queued
  have fewer : ∀ {q}, q ∈ (s.take e).queued → q ∈ s.queued := by
    intro q member
    rw [left] at member
    rw [split]
    exact ((List.sublist_cons_self e after).append_left before).subset member
  refine sound.rearranged rfl ?_ ?_ ?_ ?_
  · have taken : (s.take e).taken = s.taken ++ [e] := rfl
    have dropped : (s.take e).dropped = s.dropped := rfl
    rw [entries, entries, left, taken, dropped, split]
    simp only [List.append_assoc, List.cons_append, List.nil_append]
    refine List.Perm.append_left before ?_
    rw [← List.append_assoc]
    exact List.perm_middle.trans (by rw [List.append_assoc])
  · exact sound.sorted.sublist List.eraseP_sublist
  · refine List.pairwise_append.mpr ⟨sound.order, List.pairwise_singleton _ _, ?_⟩
    intro a taken b single
    rw [List.mem_singleton.mp single]
    exact sound.ahead a taken e oldest.queued
  · intro a taken q queued equal
    rcases List.mem_append.mp taken with taken | new
    · exact sound.ahead a taken q (fewer queued) equal
    · rw [List.mem_singleton.mp new] at equal ⊢
      refine Nat.lt_of_le_of_ne (oldest.least q (fewer queued) equal.symm) ?_
      have sorted := sound.sorted
      rw [split, List.pairwise_append] at sorted
      rw [left] at queued
      rcases List.mem_append.mp queued with early | late
      · exact (Nat.ne_of_lt (sorted.2.2 q early e List.mem_cons_self)).symm
      · exact Nat.ne_of_lt ((List.pairwise_cons.mp sorted.2.1).1 q late)

theorem Sound.drop (sound : s.Sound key) (gone : Entry α → Bool) : (s.drop gone).Sound key := by
  refine sound.rearranged rfl ?_ (sound.sorted.filter _) sound.order ?_
  · simp only [entries, PriorityFifo.drop, ← List.append_assoc]
    refine List.perm_append_comm.trans ?_
    simp only [← List.append_assoc]
    exact ((List.filter_append_perm gone s.queued).append_right _).append_right _
  · intro e taken q queued
    exact sound.ahead e taken q (List.mem_filter.mp queued).1

theorem Sound.close (sound : s.Sound key) (closed : Bool) : (s.close closed).Sound key :=
  ⟨sound.known, sound.once, sound.sorted, sound.order, sound.ahead⟩

/-- What is accepted is queued, taken or dropped. -/
theorem Sound.balance (sound : s.Sound key) :
    s.queued.length + s.taken.length + s.dropped.length = s.accepted.length := by
  have same := sound.once.length_eq
  rw [List.length_map, List.length_range, entries, List.length_append, List.length_append] at same
  exact same

end

end PriorityFifo
end CppToolkit
