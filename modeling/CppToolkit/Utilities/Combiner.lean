import CppToolkit.Library.Memory

/-! Length-prefixed fields: eight bytes of size, then the payload in reverse. -/
namespace CppToolkit.Utilities.Combiner
open Words Memory

/-- `sizeof(size_t)`. -/
def sizeBytes : Nat := 8

def append (result source : List UInt8) : List UInt8 :=
  let temp := source.length
  let result := result ++ leWord sizeBytes temp
  if temp = 0 then result else result ++ source.reverse

/-- The field at `index` and the cursor after it. A length word that makes
`index + temp` wrap passes the size test and reaches the copy with a bad range. -/
def divide (source : List UInt8) (index : Nat) : Checked (List UInt8 × Nat) :=
  if source = [] then .ok ([], index)
  else if source.length < addSize index sizeBytes then .ok ([], index)
  else do
    let word ← readRange source index sizeBytes
    let temp := leValue word
    let index := addSize index sizeBytes
    if temp = 0 ∨ source.length < addSize index temp then .ok ([], index)
    else do
      let range ← readRange source index temp
      .ok (range.reverse, addSize index temp)

/-- The bytes `append` adds for one field. -/
def field (v : List UInt8) : List UInt8 := leWord sizeBytes v.length ++ v.reverse

theorem append_eq (result v : List UInt8) : append result v = result ++ field v := by
  unfold append field
  by_cases empty : v.length = 0
  · rw [List.length_eq_zero_iff] at empty
    subst v
    simp
  · simp [empty, List.append_assoc]

@[simp] theorem field_length (v : List UInt8) : (field v).length = 8 + v.length := by
  simp [field, sizeBytes]

theorem field_ne_nil (v : List UInt8) : field v ≠ [] := by
  intro empty
  have := congrArg List.length empty
  simp at this

/-- The length word at `index`, as far as the source reaches. -/
def wordAt (source : List UInt8) (index : Nat) : Nat :=
  leValue ((source.drop index).take sizeBytes)

theorem wordAt_lt (source : List UInt8) (index : Nat) : wordAt source index < sizeMax := by
  have bound := leValue_lt ((source.drop index).take sizeBytes)
  have short : ((source.drop index).take sizeBytes).length ≤ 8 := by
    rw [List.length_take]
    exact Nat.min_le_left _ _
  exact Nat.lt_of_lt_of_le bound (Nat.pow_le_pow_right (by decide) short)

theorem divide_truncated {source : List UInt8} {index : Nat} (small : source.length < 2 ^ 63)
    (inside : index ≤ source.length) (truncated : source.length < index + 8) :
    divide source index = .ok ([], index) := by
  have plain : addSize index sizeBytes = index + 8 :=
    addSize_of_lt (by simp only [sizeBytes, sizeMax]; omega)
  unfold divide
  by_cases empty : source = []
  · rw [if_pos empty]
  · rw [if_neg empty, plain, if_pos truncated]

/-- Past the size test, `divide` is decided by the length word alone. -/
theorem divide_word {source : List UInt8} {index : Nat} (small : source.length < sizeMax)
    (fits : index + 8 ≤ source.length) :
    divide source index =
      if wordAt source index = 0 ∨ source.length < addSize (index + 8) (wordAt source index) then
        .ok ([], index + 8)
      else (readRange source (index + 8) (wordAt source index)).map
        fun range => (range.reverse, addSize (index + 8) (wordAt source index)) := by
  have plain : addSize index sizeBytes = index + 8 :=
    addSize_of_lt (Nat.lt_of_le_of_lt fits small)
  have nonempty : source ≠ [] := by
    rintro rfl
    simp at fits
  have read : readRange source index sizeBytes = .ok ((source.drop index).take sizeBytes) :=
    readRange_ok fits
  unfold divide
  rw [if_neg nonempty, plain, if_neg (by omega), read]
  simp only [bind, Except.bind, wordAt]
  apply if_congr Iff.rfl rfl
  cases readRange source (index + 8) (leValue ((source.drop index).take sizeBytes)) <;> rfl

theorem divide_skipped {source : List UInt8} {index : Nat} (small : source.length < sizeMax)
    (fits : index + 8 ≤ source.length) (plain : index + 8 + wordAt source index < sizeMax)
    (skipped : wordAt source index = 0 ∨ source.length < index + 8 + wordAt source index) :
    divide source index = .ok ([], index + 8) := by
  rw [divide_word small fits, addSize_of_lt plain, if_pos skipped]

theorem divide_complete {source : List UInt8} {index : Nat} (small : source.length < sizeMax)
    (positive : wordAt source index ≠ 0)
    (complete : index + 8 + wordAt source index ≤ source.length) :
    divide source index = .ok (((source.drop (index + 8)).take (wordAt source index)).reverse,
      index + 8 + wordAt source index) := by
  have plain : addSize (index + 8) (wordAt source index) = index + 8 + wordAt source index :=
    addSize_of_lt (Nat.lt_of_le_of_lt complete small)
  rw [divide_word small (by omega), plain, if_neg (by omega), readRange_ok complete]
  rfl

/-- The sum of the offset and the length in the word leaves the range of `size_t`. -/
theorem addSize_wraps {source : List UInt8} {index : Nat} (small : source.length < 2 ^ 63)
    (fits : index + 8 ≤ source.length) (wraps : sizeMax ≤ index + 8 + wordAt source index) :
    addSize (index + 8) (wordAt source index) = index + 8 + wordAt source index - sizeMax := by
  have word := wordAt_lt source index
  have size : sizeMax = 2 ^ 64 := rfl
  unfold addSize
  rw [Nat.mod_eq_sub_mod wraps, Nat.mod_eq_of_lt (by omega)]

theorem divide_wraps {source : List UInt8} {index : Nat} (small : source.length < 2 ^ 63)
    (fits : index + 8 ≤ source.length) (wraps : sizeMax ≤ index + 8 + wordAt source index) :
    divide source index = .error .readOutOfRange := by
  have word := wordAt_lt source index
  have size : sizeMax = 2 ^ 64 := rfl
  rw [divide_word (lt_sizeMax small) fits, addSize_wraps small fits wraps, if_neg (by omega),
    readRange, if_neg (by omega)]
  rfl

/-- A whole field of at least one byte lies at `index`. -/
def Whole (source : List UInt8) (index : Nat) : Prop :=
  wordAt source index ≠ 0 ∧ index + 8 + wordAt source index ≤ source.length

instance (source : List UInt8) (index : Nat) : Decidable (Whole source index) :=
  inferInstanceAs (Decidable (_ ∧ _))

/-- The length word at `index` is there and leads past the range of `size_t`. -/
def Wraps (source : List UInt8) (index : Nat) : Prop :=
  index + 8 ≤ source.length ∧ sizeMax ≤ index + 8 + wordAt source index

instance (source : List UInt8) (index : Nat) : Decidable (Wraps source index) :=
  inferInstanceAs (Decidable (_ ∧ _))

/-- The bytes of the field at `index`; empty when the field is not whole. -/
def fieldAt (source : List UInt8) (index : Nat) : List UInt8 :=
  if Whole source index then
    ((source.drop (index + 8)).take (wordAt source index)).reverse
  else []

/-- The cursor behind the field at `index`; an unusable field costs its length word. -/
def after (source : List UInt8) (index : Nat) : Nat :=
  if Whole source index then index + 8 + wordAt source index
  else if source.length < index + 8 then index
  else index + 8

theorem after_le {source : List UInt8} {index : Nat} (inside : index ≤ source.length) :
    after source index ≤ source.length := by
  unfold after
  split
  next whole => exact whole.2
  next =>
    split
    next => exact inside
    next fits => exact Nat.le_of_not_lt fits

/-- `divide` is the field and the cursor behind it, except where the cursor wraps. -/
theorem divide_eq {source : List UInt8} {index : Nat} (small : source.length < 2 ^ 63)
    (inside : index ≤ source.length) :
    divide source index =
      if Wraps source index then .error .readOutOfRange
      else .ok (fieldAt source index, after source index) := by
  by_cases truncated : source.length < index + 8
  · have partly : ¬ Whole source index := fun whole => by
      have := whole.2
      omega
    have plain : ¬ Wraps source index := fun wraps => Nat.not_le.mpr truncated wraps.1
    rw [if_neg plain, fieldAt, after, if_neg partly, if_neg partly, if_pos truncated]
    exact divide_truncated small inside truncated
  have fits := Nat.le_of_not_lt truncated
  by_cases beyond : sizeMax ≤ index + 8 + wordAt source index
  · rw [if_pos ⟨fits, beyond⟩]
    exact divide_wraps small fits beyond
  rw [if_neg fun wraps => beyond wraps.2]
  by_cases whole : Whole source index
  · rw [fieldAt, after, if_pos whole, if_pos whole]
    exact divide_complete (lt_sizeMax small) whole.1 whole.2
  · rw [fieldAt, after, if_neg whole, if_neg whole, if_neg truncated]
    apply divide_skipped (lt_sizeMax small) fits (Nat.not_le.mp beyond)
    by_cases zero : wordAt source index = 0
    · exact .inl zero
    · exact .inr (Nat.not_le.mp fun le => whole ⟨zero, le⟩)

theorem readRange_fault {data : List UInt8} {offset count : Nat} {fault : Fault}
    (failed : readRange data offset count = .error fault) : fault = .readOutOfRange := by
  unfold readRange at failed
  split at failed <;> cases failed
  rfl

/-- Whatever the cursor, `divide` can only fail in a read. -/
theorem divide_fault {source : List UInt8} {index : Nat} {fault : Fault}
    (failed : divide source index = .error fault) : fault = .readOutOfRange := by
  unfold divide at failed
  split at failed
  next => cases failed
  split at failed
  next => cases failed
  rcases error_of_bind failed with failed | ⟨word, failed⟩
  · exact readRange_fault failed
  dsimp only at failed
  split at failed
  next => cases failed
  rcases error_of_bind failed with failed | ⟨range, failed⟩
  · exact readRange_fault failed
  · cases failed

theorem wordAt_field (front v back : List UInt8) (small : v.length < sizeMax) :
    wordAt (front ++ field v ++ back) front.length = v.length := by
  have taken : ((front ++ field v ++ back).drop front.length).take sizeBytes =
      leWord sizeBytes v.length := by
    rw [List.append_assoc, List.drop_left, field, List.append_assoc,
      List.take_left' (leWord_length _ _)]
  rw [wordAt, taken, leValue_leWord small]

/-- A field written by `append` is read back, and the cursor lands behind it. -/
theorem divide_field (front v back : List UInt8)
    (small : (front ++ field v ++ back).length < sizeMax) :
    divide (front ++ field v ++ back) front.length = .ok (v, front.length + 8 + v.length) := by
  have total : (front ++ field v ++ back).length =
      front.length + (8 + v.length) + back.length := by
    simp only [List.length_append, field_length]
  have word := wordAt_field front v back (by omega)
  by_cases empty : v.length = 0
  · rw [divide_skipped small (by omega) (by omega)
      (.inl (word.trans empty)), List.length_eq_zero_iff.mp empty]
    rfl
  · rw [divide_complete small (by rw [word]; exact empty) (by rw [word]; omega), word]
    have payload : ((front ++ field v ++ back).drop (front.length + 8)).take v.length =
        v.reverse := by
      have word : (leWord sizeBytes v.length).length = 8 := leWord_length _ _
      rw [List.append_assoc, ← List.drop_drop, List.drop_left, field, List.append_assoc,
        List.drop_left' word, List.take_left' v.length_reverse]
    rw [payload, List.reverse_reverse]

/-- The first field of a buffer and what is behind it are determined by the buffer. -/
theorem field_append_inj {v w back back' : List UInt8} (same : field v ++ back = field w ++ back')
    (small : (field v ++ back).length < sizeMax) : v = w ∧ back = back' := by
  have first := divide_field [] v back small
  have second := divide_field [] w back' (same ▸ small)
  rw [List.nil_append] at first second
  rw [same, second] at first
  cases first
  exact ⟨rfl, List.append_cancel_left same⟩

/-- Fields appended one behind the other. -/
def fields (vs : List (List UInt8)) : List UInt8 := vs.flatMap field

theorem fields_append (vs ws : List (List UInt8)) : fields (vs ++ ws) = fields vs ++ fields ws :=
  List.flatMap_append

theorem fields_cons (v : List UInt8) (vs : List (List UInt8)) :
    fields (v :: vs) = field v ++ fields vs := List.flatMap_cons

/-- Behind the fields before it, a field is divided off and the cursor is behind it. -/
theorem divide_fields (front : List (List UInt8)) (v : List UInt8) (back : List (List UInt8))
    (small : (fields (front ++ v :: back)).length < sizeMax) :
    divide (fields (front ++ v :: back)) (fields front).length =
      .ok (v, (fields (front ++ [v])).length) := by
  have split : fields (front ++ v :: back) = fields front ++ field v ++ fields back := by
    rw [fields_append, fields_cons, List.append_assoc]
  have behind : (fields (front ++ [v])).length = (fields front).length + 8 + v.length := by
    have last : fields [v] = field v := List.append_nil _
    rw [fields_append, List.length_append, Nat.add_assoc, ← field_length, last]
  rw [split] at small ⊢
  rw [divide_field _ _ _ small, behind]

end CppToolkit.Utilities.Combiner
