import CppToolkit.Utilities.Combiner

/-! Successive calls of `divide` on one buffer, each from the cursor of the one before. -/
namespace CppToolkit.Utilities.Combiner
open Words Memory

/-- The results of `count` calls from `index` on, and the cursor after the last. -/
def divideTimes (source : List UInt8) (index : Nat) : Nat → Checked (List (List UInt8) × Nat)
  | 0 => .ok ([], index)
  | count + 1 => do
      let (first, index) ← divide source index
      let (rest, index) ← divideTimes source index count
      .ok (first :: rest, index)

section
variable {source : List UInt8} {index next last count : Nat} {first : List UInt8}
  {rest : List (List UInt8)}

@[simp] theorem divideTimes_zero : divideTimes source index 0 = .ok ([], index) := rfl

theorem divideTimes_succ (divided : divide source index = .ok (first, next))
    (remaining : divideTimes source next count = .ok (rest, last)) :
    divideTimes source index (count + 1) = .ok (first :: rest, last) := by
  rw [divideTimes, divided, ok_bind]
  change (divideTimes source next count >>= _) = _
  rw [remaining, ok_bind]

theorem divideTimes_succ_ok {results : List (List UInt8)}
    (calls : divideTimes source index (count + 1) = .ok (results, last)) :
    ∃ first next rest, divide source index = .ok (first, next) ∧
      divideTimes source next count = .ok (rest, last) ∧ results = first :: rest := by
  rw [divideTimes] at calls
  obtain ⟨⟨first, next⟩, divided, calls⟩ := bind_eq_ok.mp calls
  obtain ⟨⟨rest, behind⟩, remaining, calls⟩ := bind_eq_ok.mp calls
  obtain ⟨rfl, rfl⟩ := Prod.mk.inj (Except.ok.inj calls)
  exact ⟨first, next, rest, divided, remaining, rfl⟩

end

theorem foldl_append (p : List UInt8) (vs : List (List UInt8)) :
    vs.foldl append p = p ++ fields vs := by
  induction vs generalizing p with
  | nil => exact (List.append_nil p).symm
  | cons v vs ih => rw [List.foldl_cons, ih, append_eq, fields_cons, List.append_assoc]

/-- Fields between arbitrary bytes are divided off in order. -/
theorem divideTimes_fields (p : List UInt8) (vs : List (List UInt8)) (s : List UInt8)
    (small : (p ++ fields vs ++ s).length < sizeMax) :
    divideTimes (p ++ fields vs ++ s) p.length vs.length = .ok (vs, (p ++ fields vs).length) := by
  induction vs generalizing p with
  | nil =>
      rw [show fields [] = [] from rfl, List.append_nil]
      rfl
  | cons v vs ih =>
      have split : p ++ fields (v :: vs) = (p ++ field v) ++ fields vs := by
        rw [fields_cons, List.append_assoc]
      rw [split] at small ⊢
      have rest := ih (p ++ field v) small
      rw [List.append_assoc (p ++ field v)] at small
      have first := divide_field p v (fields vs ++ s) small
      rw [← List.append_assoc, Nat.add_assoc, ← field_length, ← List.length_append] at first
      exact divideTimes_succ first rest

/-- What `append` adds to a buffer, one vector after the other, is divided off again from the end
of the buffer on, whatever stands before and behind. -/
theorem divideTimes_append (p : List UInt8) (vs : List (List UInt8)) (s : List UInt8)
    (small : (vs.foldl append p ++ s).length < sizeMax) :
    divideTimes (vs.foldl append p ++ s) p.length vs.length =
      .ok (vs, (vs.foldl append p).length) := by
  rw [foldl_append] at small ⊢
  exact divideTimes_fields p vs s small

/-- An empty vector between two others, behind one byte and before another. -/
theorem divideTimes_append_three :
    divideTimes ([[1, 2], [], [3]].foldl append [9] ++ [8]) 1 3 = .ok ([[1, 2], [], [3]], 28) :=
  divideTimes_append [9] [[1, 2], [], [3]] [8] (by decide)

/-- What follows a run of calls is one more call. -/
theorem divideTimes_snoc {source : List UInt8} {count : Nat} :
    ∀ {index middle last : Nat} {front results : List (List UInt8)},
      divideTimes source index count = .ok (front, middle) →
      divideTimes source index (count + 1) = .ok (results, last) →
      ∃ field, divide source middle = .ok (field, last) ∧ results = front ++ [field] := by
  induction count with
  | zero =>
      intro index middle last front results before calls
      cases before
      obtain ⟨field, next, rest, divided, remaining, rfl⟩ := divideTimes_succ_ok calls
      cases remaining
      exact ⟨field, divided, rfl⟩
  | succ count ih =>
      intro index middle last front results before calls
      obtain ⟨first, next, rest, divided, remaining, rfl⟩ := divideTimes_succ_ok before
      obtain ⟨_, _, more, again, remaining', rfl⟩ := divideTimes_succ_ok calls
      cases divided.symm.trans again
      obtain ⟨field, divided, rfl⟩ := ih remaining remaining'
      exact ⟨field, divided, rfl⟩

/-- The length word at `index` is there and declares more bytes than are left behind it. -/
def Oversized (source : List UInt8) (index : Nat) : Prop :=
  index + 8 ≤ source.length ∧ source.length < index + 8 + wordAt source index

instance (source : List UInt8) (index : Nat) : Decidable (Oversized source index) :=
  inferInstanceAs (Decidable (_ ∧ _))

/-- Neither a field of at least one byte nor a word that leads past the range of `size_t`. -/
def Idle (source : List UInt8) (index : Nat) : Prop := ¬ Whole source index ∧ ¬ Wraps source index

/-- An oversized word behind leading fields is followed, in steps of eight bytes, by idle words
only, and is one itself. -/
def Settled (source : List UInt8) : Prop :=
  ∀ vs, fields vs <+: source → Oversized source (fields vs).length →
    ∀ steps, Idle source ((fields vs).length + 8 * steps)

/-- Once a call meets an oversized word, every later call returns an empty vector. -/
def NeverResumes (source : List UInt8) : Prop :=
  ∀ count results index, divideTimes source 0 count = .ok (results, index) →
    Oversized source index → ∀ later, ∃ first next,
      divideTimes source index (later + 1) = .ok (first :: List.replicate later [], next)

section
variable {source : List UInt8} {index next : Nat} {v : List UInt8}

theorem drop_word (fits : index + 8 ≤ source.length) :
    source.drop index = leWord sizeBytes (wordAt source index) ++ source.drop (index + 8) := by
  have taken : ((source.drop index).take sizeBytes).length = sizeBytes := by
    rw [List.length_take, List.length_drop]
    simp only [sizeBytes]
    omega
  have word := leWord_leValue ((source.drop index).take sizeBytes)
  rw [taken] at word
  rw [wordAt, word, ← List.drop_drop]
  exact (List.take_append_drop sizeBytes _).symm

theorem divide_idle (small : source.length < 2 ^ 63) (inside : index ≤ source.length)
    (idle : Idle source index) :
    divide source index = .ok ([], if source.length < index + 8 then index else index + 8) := by
  rw [divide_eq small inside, if_neg idle.2, fieldAt, after, if_neg idle.1, if_neg idle.1]

/-- Where the word fits, `divide` takes off exactly what `append` adds. -/
theorem divide_takes_field (small : source.length < 2 ^ 63) (fits : index + 8 ≤ source.length)
    (sized : ¬ Oversized source index) (divided : divide source index = .ok (v, next)) :
    source.drop index = field v ++ source.drop next ∧ next = index + (field v).length := by
  have behind : index + 8 + wordAt source index ≤ source.length :=
    Nat.le_of_not_lt fun beyond => sized ⟨fits, beyond⟩
  have size : sizeMax = 2 ^ 64 := rfl
  have word := drop_word fits
  by_cases zero : wordAt source index = 0
  · rw [divide_skipped (lt_sizeMax small) fits (by omega) (.inl zero)] at divided
    obtain ⟨rfl, rfl⟩ := Prod.mk.inj (Except.ok.inj divided)
    rw [zero] at word
    exact ⟨word, rfl⟩
  · rw [divide_complete (lt_sizeMax small) zero behind] at divided
    obtain ⟨rfl, rfl⟩ := Prod.mk.inj (Except.ok.inj divided)
    have length : ((source.drop (index + 8)).take (wordAt source index)).reverse.length =
        wordAt source index := by
      rw [List.length_reverse, List.length_take, List.length_drop]
      omega
    have payload := List.take_append_drop (wordAt source index) (source.drop (index + 8))
    rw [List.drop_drop] at payload
    refine ⟨?_, by rw [field_length, length, Nat.add_assoc]⟩
    rw [word, field, length, List.reverse_reverse, List.append_assoc, payload]

/-- The cursor is behind leading fields, or behind words that followed an oversized one. -/
def Reached (source : List UInt8) (index : Nat) : Prop :=
  ∃ vs steps, fields vs <+: source ∧ index = (fields vs).length + 8 * steps ∧
    (steps = 0 ∨ Oversized source (fields vs).length)

theorem reached_zero (source : List UInt8) : Reached source 0 :=
  ⟨[], 0, List.nil_prefix, rfl, .inl rfl⟩

theorem fields_snoc_prefix {vs : List (List UInt8)} (front : fields vs <+: source)
    (behind : field v <+: source.drop (fields vs).length) : fields (vs ++ [v]) <+: source := by
  obtain ⟨rest, rfl⟩ := front
  obtain ⟨more, same⟩ := behind
  rw [List.drop_left] at same
  subst same
  have last : fields [v] = field v := List.append_nil _
  rw [fields_append, last, ← List.append_assoc]
  exact List.prefix_append _ _

theorem reached_divide (small : source.length < 2 ^ 63) (settled : Settled source)
    (inside : index ≤ source.length) (reached : Reached source index)
    (divided : divide source index = .ok (v, next)) : next ≤ source.length ∧ Reached source next := by
  have after_ : next = after source index := by
    rw [divide_eq small inside] at divided
    split at divided
    next => cases divided
    next => exact (Prod.mk.inj (Except.ok.inj divided)).2.symm
  refine ⟨after_ ▸ after_le inside, ?_⟩
  obtain ⟨vs, steps, front, rfl, first⟩ := reached
  by_cases truncated : source.length < (fields vs).length + 8 * steps + 8
  · rw [divide_truncated small inside truncated] at divided
    cases divided
    exact ⟨vs, steps, front, rfl, first⟩
  have fits := Nat.le_of_not_lt truncated
  by_cases oversized : Oversized source (fields vs).length
  · rw [divide_idle small inside (settled vs front oversized steps), if_neg truncated] at divided
    obtain ⟨_, rfl⟩ := Prod.mk.inj (Except.ok.inj divided)
    exact ⟨vs, steps + 1, front, by omega, .inr oversized⟩
  · obtain rfl : steps = 0 := first.resolve_right oversized
    obtain ⟨taken, rfl⟩ := divide_takes_field small fits oversized divided
    refine ⟨vs ++ [v], 0, fields_snoc_prefix front ⟨_, taken.symm⟩, ?_, .inl rfl⟩
    have last : fields [v] = field v := List.append_nil _
    rw [fields_append, List.length_append, last]
    rfl

theorem reached_divideTimes (small : source.length < 2 ^ 63) (settled : Settled source) {count : Nat}
    {results : List (List UInt8)} (inside : index ≤ source.length) (reached : Reached source index)
    (calls : divideTimes source index count = .ok (results, next)) :
    next ≤ source.length ∧ Reached source next := by
  induction count generalizing index results with
  | zero =>
      cases calls
      exact ⟨inside, reached⟩
  | succ count ih =>
      obtain ⟨first, middle, rest, divided, remaining, _⟩ := divideTimes_succ_ok calls
      obtain ⟨inside, reached⟩ := reached_divide small settled inside reached divided
      exact ih inside reached remaining

/-- From idle words on, every call returns an empty vector. -/
theorem divideTimes_idle (small : source.length < 2 ^ 63) (inside : index ≤ source.length)
    (idle : ∀ steps, Idle source (index + 8 * steps)) (count : Nat) :
    ∃ next, divideTimes source index count = .ok (List.replicate count [], next) := by
  induction count generalizing index with
  | zero => exact ⟨index, rfl⟩
  | succ count ih =>
      have divided := divide_idle small inside (idle 0)
      by_cases truncated : source.length < index + 8
      · rw [if_pos truncated] at divided
        obtain ⟨next, rest⟩ := ih inside idle
        exact ⟨next, divideTimes_succ divided rest⟩
      · rw [if_neg truncated] at divided
        have idle' : ∀ steps, Idle source (index + 8 + 8 * steps) := fun steps => by
          have later := idle (steps + 1)
          rw [Nat.mul_add, Nat.add_comm (8 * steps), ← Nat.add_assoc] at later
          exact later
        obtain ⟨next, rest⟩ := ih (Nat.le_of_not_lt truncated) idle'
        exact ⟨next, divideTimes_succ divided rest⟩

end

theorem divideTimes_words {source : List UInt8} {index count : Nat} (small : source.length < 2 ^ 63)
    (fits : index + 8 * count ≤ source.length) (idle : ∀ steps < count, Idle source (index + 8 * steps)) :
    divideTimes source index count = .ok (List.replicate count [], index + 8 * count) := by
  induction count generalizing index with
  | zero => rfl
  | succ count ih =>
      have first : Idle source index := idle 0 (Nat.succ_pos count)
      have divided := divide_idle small (by omega) first
      rw [if_neg (by omega)] at divided
      have idle' : ∀ steps < count, Idle source (index + 8 + 8 * steps) := fun steps below => by
        have later := idle (steps + 1) (Nat.succ_lt_succ below)
        rw [Nat.mul_add, Nat.add_comm (8 * steps), ← Nat.add_assoc] at later
        exact later
      rw [divideTimes_succ divided (ih (by omega) idle'), Nat.add_assoc, Nat.mul_add, Nat.add_comm 8]
      rfl

theorem whole_result {source : List UInt8} {index next : Nat} (small : source.length < 2 ^ 63)
    (whole : Whole source index) : divide source index ≠ .ok ([], next) := by
  intro divided
  rw [divide_complete (lt_sizeMax small) whole.1 whole.2] at divided
  have lengths := congrArg List.length (Prod.mk.inj (Except.ok.inj divided)).1
  have fits := whole.2
  rw [List.length_reverse, List.length_take, List.length_drop, Nat.min_eq_left (by omega)] at lengths
  exact whole.1 lengths

/-- The words from an oversized one on are idle if no later call returns a byte. -/
theorem idle_of_exhausted {source : List UInt8} {index : Nat} (small : source.length < 2 ^ 63)
    (oversized : Oversized source index)
    (exhausted : ∀ later, ∃ first next,
      divideTimes source index (later + 1) = .ok (first :: List.replicate later [], next))
    (steps : Nat) : Idle source (index + 8 * steps) := by
  induction steps using Nat.strong_induction_on with
  | _ steps before =>
      by_cases truncated : source.length < index + 8 * steps + 8
      · constructor
        · intro whole
          have := whole.2
          omega
        · intro wraps
          have := wraps.1
          omega
      have words := divideTimes_words small (by omega) before
      obtain ⟨first, next, calls⟩ := exhausted steps
      obtain ⟨field, divided, results⟩ := divideTimes_snoc words calls
      constructor
      · intro whole
        cases steps with
        | zero =>
            have beyond := oversized.2
            have fits : index + 8 + wordAt source index ≤ source.length := whole.2
            omega
        | succ steps =>
            rw [List.replicate_succ', ← List.cons_append] at results
            obtain ⟨_, same⟩ := List.append_inj_right' results rfl
            exact whole_result small whole divided
      · intro wraps
        rw [divide_wraps small wraps.1 wraps.2] at divided
        cases divided

theorem neverResumes_iff (source : ByteVector) : NeverResumes source.val ↔ Settled source.val := by
  obtain ⟨source, small⟩ := source
  dsimp only
  constructor
  · intro never vs front oversized
    obtain ⟨rest, rfl⟩ := front
    have calls := divideTimes_fields [] vs rest (lt_sizeMax small)
    rw [List.nil_append] at calls
    have inside : (fields vs).length ≤ (fields vs ++ rest).length := by
      rw [List.length_append]
      omega
    exact idle_of_exhausted small oversized (never _ _ _ calls oversized)
  · intro settled count results index calls oversized later
    obtain ⟨inside, vs, steps, front, rfl, first⟩ :=
      reached_divideTimes small settled (Nat.zero_le _) (reached_zero source) calls
    have start : Oversized source (fields vs).length := by
      rcases first with rfl | start
      · exact oversized
      · exact start
    have idle := settled vs front start
    have idle' : ∀ more, Idle source ((fields vs).length + 8 * steps + 8 * more) := fun more => by
      rw [Nat.add_assoc, ← Nat.mul_add]
      exact idle (steps + more)
    obtain ⟨next, empty⟩ := divideTimes_idle small inside idle' (later + 1)
    exact ⟨[], next, empty⟩

end CppToolkit.Utilities.Combiner
