import CppToolkit.Library.Hunt

/-! Frames in a stream, scanned one item at a time: a start code, a length field, as many items
as the field says and an end code. What does not continue a frame is dropped. -/
namespace CppToolkit.Scanner
open Hunt (advance)
variable {α : Type*}

/-- How the frames of a stream look. -/
structure Format (α : Type*) where
  startCode : List α
  width : Nat
  value : List α → Nat
  endCode : List α
  starts : startCode ≠ []
  measured : 0 < width
  ends : endCode ≠ []

inductive State (α : Type*) where
  | hunting (matched : Nat)
  | measuring (field : List α)
  | filling (remained : Nat) (received : List α)
  | closing (matched : Nat) (received : List α)
  deriving DecidableEq, Repr

namespace Format
variable (F : Format α)

def fill (remained : Nat) (received : List α) : State α :=
  if remained = 0 then .closing 0 received else .filling remained received

/-- A frame with the given length field. -/
def frame (field payload : List α) : List α := F.startCode ++ (field ++ (payload ++ F.endCode))

/-- The payloads are those of whole frames that stand in the stream one behind the other, with
anything before, between and behind them. -/
inductive Carved : List (List α) → List α → Prop
  | junk (stream : List α) : Carved [] stream
  | frame {payloads : List (List α)} {rest : List α} (junk field payload : List α) :
      field.length = F.width → F.value field = payload.length → Carved payloads rest →
      Carved (payload :: payloads) (junk ++ (F.frame field payload ++ rest))

/-- The part of a frame that stands at the end of the items read since the last frame. -/
def Begun : State α → List α → Prop
  | .hunting m, seen => m < F.startCode.length ∧ F.startCode.take m <:+ seen
  | .measuring field, seen => field.length < F.width ∧ F.startCode ++ field <:+ seen
  | .filling remained received, seen => 0 < remained ∧ ∃ field, field.length = F.width ∧
      F.value field = received.length + remained ∧ F.startCode ++ (field ++ received) <:+ seen
  | .closing m received, seen => m < F.endCode.length ∧ ∃ field, field.length = F.width ∧
      F.value field = received.length ∧
      F.startCode ++ (field ++ (received ++ F.endCode.take m)) <:+ seen

section
variable {F}

theorem take_concat {code : List α} {m : Nat} {b : α} (same : code[m]? = some b) :
    code.take (m + 1) = code.take m ++ [b] := by
  rw [List.take_add_one, same]
  rfl

theorem drop_eq_cons {code rest : List α} {m : Nat} {b : α} (left : code.drop m = b :: rest) :
    code[m]? = some b ∧ code.drop (m + 1) = rest ∧ (m + 1 = code.length ↔ rest = []) := by
  have next : code.drop (m + 1) = rest := by
    rw [← List.drop_drop, left, List.drop_one, List.tail_cons]
  refine ⟨?_, next, ?_⟩
  · have first := @List.getElem?_drop _ code m 0
    rw [left] at first
    exact first.symm
  · have size := congrArg List.length left
    rw [List.length_drop, List.length_cons] at size
    rw [← List.length_eq_zero_iff]
    omega

theorem begun_hunting_zero (seen : List α) : F.Begun (.hunting 0) seen :=
  ⟨List.length_pos_iff.mpr F.starts, List.nil_suffix⟩

theorem begun_fill {remained : Nat} {field received seen : List α} (size : field.length = F.width)
    (value : F.value field = received.length + remained)
    (stands : F.startCode ++ (field ++ received) <:+ seen) :
    F.Begun (fill remained received) seen := by
  unfold fill
  split
  next all =>
    subst remained
    refine ⟨List.length_pos_iff.mpr F.ends, field, size, value, ?_⟩
    rw [List.take_zero, List.append_nil]
    exact stands
  next more => exact ⟨Nat.pos_of_ne_zero more, field, size, value, stands⟩

end

variable [DecidableEq α]

/-- One more item, and the payload of the frame that it ends. -/
def step : State α → α → State α × Option (List α)
  | .hunting m, b =>
      let n := advance F.startCode m b
      (if n = F.startCode.length then .measuring [] else .hunting n, none)
  | .measuring field, b =>
      let field := field ++ [b]
      (if field.length = F.width then fill (F.value field) [] else .measuring field, none)
  | .filling remained received, b => (fill (remained - 1) (received ++ [b]), none)
  | .closing m received, b =>
      if F.endCode[m]? = some b then
        if m + 1 = F.endCode.length then (.hunting 0, some received)
        else (.closing (m + 1) received, none)
      else (.hunting 0, none)

/-- The state after a stream and the payloads found in it. -/
def scan : State α → List α → State α × List (List α)
  | s, [] => (s, [])
  | s, b :: rest =>
      ((scan (F.step s b).1 rest).1, (F.step s b).2.toList ++ (scan (F.step s b).1 rest).2)

section
variable {F}

@[simp] theorem scan_nil (s : State α) : F.scan s [] = (s, []) := rfl

theorem scan_cons (s : State α) (b : α) (rest : List α) :
    F.scan s (b :: rest) =
      ((F.scan (F.step s b).1 rest).1, (F.step s b).2.toList ++ (F.scan (F.step s b).1 rest).2) :=
  rfl

theorem scan_append (s : State α) (first rest : List α) :
    F.scan s (first ++ rest) =
      ((F.scan (F.scan s first).1 rest).1,
        (F.scan s first).2 ++ (F.scan (F.scan s first).1 rest).2) := by
  induction first generalizing s with
  | nil => rfl
  | cons b first ih => rw [List.cons_append, scan_cons, scan_cons, ih, List.append_assoc]

/-- A stream that finds nothing leaves what is found behind it. -/
theorem scan_silent {s t : State α} {first : List α} (silent : F.scan s first = (t, []))
    (rest : List α) : F.scan s (first ++ rest) = F.scan t rest := by
  rw [scan_append, silent]
  rfl

theorem begun_hunting {m : Nat} {seen : List α} (begun : F.Begun (.hunting m) seen) (b : α) :
    F.Begun (F.step (.hunting m) b).1 (seen ++ [b]) := by
  obtain ⟨partly, stands⟩ := begun
  simp only [step]
  by_cases same : F.startCode[m]? = some b
  · have longer : _ ++ [b] <:+ seen ++ [b] := List.suffix_append_self_iff.mpr stands
    rw [← take_concat same] at longer
    rw [Hunt.advance_of_eq same]
    split
    next all =>
      rw [all, List.take_length] at longer
      refine ⟨F.measured, ?_⟩
      rw [List.append_nil]
      exact longer
    next more => exact ⟨by omega, longer⟩
  · rw [Hunt.advance_of_ne same, if_neg (Ne.symm (Nat.ne_of_gt (List.length_pos_iff.mpr F.starts)))]
    exact begun_hunting_zero _

theorem begun_measuring {field seen : List α} (begun : F.Begun (.measuring field) seen) (b : α) :
    F.Begun (F.step (.measuring field) b).1 (seen ++ [b]) := by
  obtain ⟨short, stands⟩ := begun
  have longer : _ ++ [b] <:+ seen ++ [b] := List.suffix_append_self_iff.mpr stands
  rw [List.append_assoc] at longer
  simp only [step]
  split
  next whole =>
    refine begun_fill whole (Nat.zero_add _).symm ?_
    rw [List.append_nil]
    exact longer
  next more =>
    refine ⟨?_, longer⟩
    rw [List.length_append, List.length_singleton] at more ⊢
    omega

theorem begun_filling {remained : Nat} {received seen : List α}
    (begun : F.Begun (.filling remained received) seen) (b : α) :
    F.Begun (F.step (.filling remained received) b).1 (seen ++ [b]) := by
  obtain ⟨more, field, size, value, stands⟩ := begun
  refine begun_fill size ?_ ?_
  · rw [value, List.length_append, List.length_singleton]
    omega
  · have longer : _ ++ [b] <:+ seen ++ [b] := List.suffix_append_self_iff.mpr stands
    simpa only [List.append_assoc] using longer

/-- The item that ends the frame, or one more item of it, or one that breaks it. -/
theorem begun_closing {m : Nat} {received seen : List α}
    (begun : F.Begun (.closing m received) seen) (b : α) :
    (F.step (.closing m received) b = (.hunting 0, some received) ∧
      ∃ before field, field.length = F.width ∧ F.value field = received.length ∧
        seen ++ [b] = before ++ F.frame field received) ∨
    ((F.step (.closing m received) b).2 = none ∧
      F.Begun (F.step (.closing m received) b).1 (seen ++ [b])) := by
  obtain ⟨partly, field, size, value, stands⟩ := begun
  simp only [step]
  by_cases same : F.endCode[m]? = some b
  · have longer : _ ++ [b] <:+ seen ++ [b] := List.suffix_append_self_iff.mpr stands
    simp only [List.append_assoc] at longer
    rw [← take_concat same] at longer
    rw [if_pos same]
    by_cases last : m + 1 = F.endCode.length
    · rw [last, List.take_length] at longer
      obtain ⟨before, whole⟩ := longer
      rw [if_pos last]
      exact .inl ⟨rfl, before, field, size, value, whole.symm⟩
    · rw [if_neg last]
      exact .inr ⟨rfl, by omega, field, size, value, longer⟩
  · rw [if_neg same]
    exact .inr ⟨rfl, begun_hunting_zero _⟩

/-- One item keeps what is known of the items since the last frame. -/
theorem step_begun {s : State α} {seen : List α} (begun : F.Begun s seen) (b : α) :
    (∃ payload, F.step s b = (.hunting 0, some payload) ∧
      ∃ before field, field.length = F.width ∧ F.value field = payload.length ∧
        seen ++ [b] = before ++ F.frame field payload) ∨
    ((F.step s b).2 = none ∧ F.Begun (F.step s b).1 (seen ++ [b])) := by
  cases s with
  | hunting m => exact .inr ⟨rfl, begun_hunting begun b⟩
  | measuring field => exact .inr ⟨rfl, begun_measuring begun b⟩
  | filling remained received => exact .inr ⟨rfl, begun_filling begun b⟩
  | closing m received =>
      rcases begun_closing begun b with ⟨stepped, whole⟩ | kept
      · exact .inl ⟨received, stepped, whole⟩
      · exact .inr kept

/-- Induction on the stream; the items since the last frame are carried along. -/
theorem scan_carved {s : State α} {seen : List α} (begun : F.Begun s seen) (stream : List α) :
    F.Carved (F.scan s stream).2 (seen ++ stream) := by
  induction stream generalizing s seen with
  | nil => exact .junk _
  | cons b rest ih =>
      rw [scan_cons, ← List.singleton_append, ← List.append_assoc]
      rcases step_begun begun b with
        ⟨payload, stepped, before, field, size, value, whole⟩ | ⟨silent, kept⟩
      · have later := ih (begun_hunting_zero [])
        rw [stepped, whole, List.append_assoc]
        exact .frame before field payload size value later
      · rw [silent]
        exact ih kept

/-- What is found from the start of a stream are whole frames of it. -/
theorem scan_sound (stream : List α) : F.Carved (F.scan (.hunting 0) stream).2 stream :=
  scan_carved (begun_hunting_zero []) stream

/-- Items of a length field that is not complete, or completes it. -/
theorem scan_measuring (bytes : List α) :
    ∀ (field : List α), field.length < F.width → field.length + bytes.length ≤ F.width →
      F.scan (.measuring field) bytes =
        (if (field ++ bytes).length = F.width then fill (F.value (field ++ bytes)) []
          else .measuring (field ++ bytes), []) := by
  induction bytes with
  | nil =>
      intro field short _
      rw [List.append_nil, if_neg (Nat.ne_of_lt short)]
      rfl
  | cons b rest ih =>
      intro field short room
      rw [List.length_cons] at room
      have one : (field ++ [b]).length = field.length + 1 := by
        rw [List.length_append, List.length_singleton]
      by_cases last : rest = []
      · subst rest
        simp only [scan_cons, step, scan_nil]
        rfl
      · have some_ := List.length_pos_iff.mpr last
        have more : ¬ (field ++ [b]).length = F.width := by omega
        have next := ih (field ++ [b]) (by omega) (by omega)
        rw [List.append_assoc, List.singleton_append] at next
        rw [scan_cons]
        simp only [step, if_neg more, next]
        rfl

/-- Items of the payload, at most as many as are still to come. -/
theorem scan_filling (bytes : List α) :
    ∀ {remained : Nat} (received : List α), 0 < remained → bytes.length ≤ remained →
      F.scan (.filling remained received) bytes =
        (fill (remained - bytes.length) (received ++ bytes), []) := by
  induction bytes with
  | nil =>
      intro remained received more _
      rw [List.append_nil, List.length_nil, Nat.sub_zero, fill, if_neg (Nat.ne_of_gt more)]
      rfl
  | cons b rest ih =>
      intro remained received more room
      rw [List.length_cons] at room
      rw [scan_cons]
      simp only [step]
      by_cases last : remained - 1 = 0
      · have none_ : rest = [] := List.length_eq_zero_iff.mp (by omega)
        subst rest
        simp only [scan_nil, List.length_singleton, Option.toList_none, List.append_nil]
      · have next := @ih (remained - 1) (received ++ [b]) (by omega) (by omega)
        rw [fill, if_neg last, next, List.length_cons, Nat.sub_sub, Nat.add_comm 1 rest.length,
          List.append_assoc, List.singleton_append]
        rfl

/-- The rest of a start code. -/
theorem scan_startCode (todo : List α) :
    ∀ {m : Nat}, F.startCode.drop m = todo → todo ≠ [] →
      F.scan (.hunting m) todo = (.measuring [], []) := by
  induction todo with
  | nil => exact fun _ some_ => absurd rfl some_
  | cons b rest ih =>
      intro m left _
      obtain ⟨same, next, last⟩ := drop_eq_cons left
      rw [scan_cons]
      simp only [step, Hunt.advance_of_eq same]
      by_cases empty : rest = []
      · rw [if_pos (last.mpr empty), empty]
        rfl
      · rw [if_neg (mt last.mp empty), ih next empty]
        rfl

/-- The rest of an end code. -/
theorem scan_endCode (todo : List α) (received : List α) :
    ∀ {m : Nat}, F.endCode.drop m = todo → todo ≠ [] →
      F.scan (.closing m received) todo = (.hunting 0, [received]) := by
  induction todo with
  | nil => exact fun _ some_ => absurd rfl some_
  | cons b rest ih =>
      intro m left _
      obtain ⟨same, next, last⟩ := drop_eq_cons left
      rw [scan_cons]
      simp only [step, if_pos same]
      by_cases empty : rest = []
      · rw [if_pos (last.mpr empty), empty]
        rfl
      · rw [if_neg (mt last.mp empty), ih next empty]
        rfl

/-- A whole frame is found and leaves the scan where it was. -/
theorem scan_frame {field payload : List α} (size : field.length = F.width)
    (value : F.value field = payload.length) :
    F.scan (.hunting 0) (F.frame field payload) = (.hunting 0, [payload]) := by
  have begins := scan_startCode F.startCode (m := 0) rfl F.starts
  have measures := scan_measuring field [] F.measured (Nat.le_of_eq (Nat.zero_add _ |>.trans size))
  rw [List.nil_append, if_pos size, value] at measures
  have ends := scan_endCode F.endCode payload (m := 0) rfl F.ends
  rw [frame, scan_silent begins, scan_silent measures]
  by_cases empty : payload = []
  · subst empty
    exact ends
  · have more := List.length_pos_iff.mpr empty
    have fills := @scan_filling _ F _ payload payload.length [] more (Nat.le_refl _)
    rw [Nat.sub_self, List.nil_append] at fills
    rw [fill, if_neg (Nat.ne_of_gt more), scan_silent fills]
    exact ends

end

end Format
end CppToolkit.Scanner
