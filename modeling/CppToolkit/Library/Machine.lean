import Mathlib.Algebra.Order.Ring.Int
import Mathlib.Data.List.Basic
import Mathlib.Data.List.Induction
import Mathlib.Tactic.Common

/-! Labelled step functions, their finite runs, and the induction that carries an
invariant along a run. A step that is not enabled returns `none`. -/
namespace CppToolkit.Machine

variable {σ α : Type*}

def run (step : σ → α → Option σ) : σ → List α → Option σ
  | s, [] => some s
  | s, a :: rest => (step s a).bind fun t => run step t rest

/-- Every step the run takes is taken in a state where `ok` allows it. -/
def Along (step : σ → α → Option σ) (ok : σ → α → Prop) : σ → List α → Prop
  | _, [] => True
  | s, a :: rest => ok s a ∧ ∀ t, step s a = some t → Along step ok t rest

/-- The property holds in every state that the run comes to. -/
def Throughout (step : σ → α → Option σ) (P : σ → Prop) : σ → List α → Prop
  | s, [] => P s
  | s, a :: rest => P s ∧ ∀ t, step s a = some t → Throughout step P t rest

@[simp] theorem run_nil (step : σ → α → Option σ) (s : σ) : run step s [] = some s := rfl

theorem run_cons {step : σ → α → Option σ} {s u : σ} {a : α} {rest : List α} :
    run step s (a :: rest) = some u ↔ ∃ t, step s a = some t ∧ run step t rest = some u := by
  simp only [run, Option.bind_eq_some_iff]

theorem run_single {step : σ → α → Option σ} {s t : σ} {a : α} (stepped : step s a = some t) :
    run step s [a] = some t :=
  run_cons.mpr ⟨t, stepped, rfl⟩

theorem run_append {step : σ → α → Option σ} {s u : σ} {first rest : List α} :
    run step s (first ++ rest) = some u ↔
      ∃ t, run step s first = some t ∧ run step t rest = some u := by
  induction first generalizing s with
  | nil => simp
  | cons a first ih =>
      simp only [List.cons_append, run_cons, ih]
      constructor
      · rintro ⟨v, stepped, t, one, two⟩
        exact ⟨t, ⟨v, stepped, one⟩, two⟩
      · rintro ⟨t, ⟨v, stepped, one⟩, two⟩
        exact ⟨v, stepped, t, one, two⟩

theorem Along.cons {step : σ → α → Option σ} {ok : σ → α → Prop} {s t : σ} {a : α} {rest : List α}
    (stepped : step s a = some t) (allowed : ok s a) (along : Along step ok t rest) :
    Along step ok s (a :: rest) := by
  refine ⟨allowed, ?_⟩
  intro u reached
  rw [stepped] at reached
  cases reached
  exact along

/-- A run on given states can be followed. -/
instance decidableAlong (step : σ → α → Option σ) (ok : σ → α → Prop) [∀ s a, Decidable (ok s a)] :
    ∀ s as, Decidable (Along step ok s as)
  | _, [] => isTrue trivial
  | s, a :: rest =>
      match next : step s a with
      | none => decidable_of_iff (ok s a) ⟨fun allowed => ⟨allowed, fun t stepped => by
          rw [next] at stepped
          cases stepped⟩, And.left⟩
      | some t =>
          have := decidableAlong step ok t rest
          decidable_of_iff (ok s a ∧ Along step ok t rest) ⟨fun both => ⟨both.1, fun u stepped => by
            rw [next] at stepped
            cases stepped
            exact both.2⟩, fun along => ⟨along.1, along.2 t next⟩⟩

/-- A run whose steps are all allowed. -/
def Runs (step : σ → α → Option σ) (ok : σ → α → Prop) (s : σ) (as : List α) (t : σ) : Prop :=
  run step s as = some t ∧ Along step ok s as

theorem Runs.nil (step : σ → α → Option σ) (ok : σ → α → Prop) (s : σ) : Runs step ok s [] s :=
  ⟨rfl, trivial⟩

theorem Runs.cons {step : σ → α → Option σ} {ok : σ → α → Prop} {s t u : σ} {a : α} {rest : List α}
    (stepped : step s a = some t) (allowed : ok s a) (runs : Runs step ok t rest u) :
    Runs step ok s (a :: rest) u :=
  ⟨run_cons.mpr ⟨t, stepped, runs.1⟩, .cons stepped allowed runs.2⟩

theorem Runs.append {step : σ → α → Option σ} {ok : σ → α → Prop} {s t u : σ} {first rest : List α}
    (one : Runs step ok s first t) (two : Runs step ok t rest u) :
    Runs step ok s (first ++ rest) u := by
  induction first generalizing s with
  | nil =>
      cases one.1
      exact two
  | cons a first ih =>
      obtain ⟨v, stepped, ran⟩ := run_cons.mp one.1
      exact .cons stepped one.2.1 (ih ⟨ran, one.2.2 v stepped⟩)

theorem Along.mono {step : σ → α → Option σ} {ok ok' : σ → α → Prop}
    (weaker : ∀ s a, ok s a → ok' s a) {s : σ} {as : List α} (along : Along step ok s as) :
    Along step ok' s as := by
  induction as generalizing s with
  | nil => trivial
  | cons a rest ih => exact ⟨weaker s a along.1, fun t stepped => ih (along.2 t stepped)⟩

/-- Two conditions that agree wherever an invariant holds agree along every run. -/
theorem along_iff {step : σ → α → Option σ} {ok ok' : σ → α → Prop} {I : σ → Prop}
    (keeps : ∀ s a t, I s → step s a = some t → I t)
    (same : ∀ s a, I s → (ok s a ↔ ok' s a)) {s : σ} {as : List α} (start : I s) :
    Along step ok s as ↔ Along step ok' s as := by
  induction as generalizing s with
  | nil => exact Iff.rfl
  | cons a rest ih =>
      exact and_congr (same s a start)
        (forall₂_congr fun t stepped => ih (keeps s a t start stepped))

theorem Along.and {step : σ → α → Option σ} {ok : σ → α → Prop} {allowed : α → Prop} {s : σ}
    {as : List α} (along : Along step ok s as) (all : ∀ a ∈ as, allowed a) :
    Along step (fun s a => allowed a ∧ ok s a) s as := by
  induction as generalizing s with
  | nil => trivial
  | cons a rest ih =>
      rw [List.forall_mem_cons] at all
      exact ⟨⟨all.1, along.1⟩, fun t stepped => ih (along.2 t stepped) all.2⟩

/-- The induction over runs: what every allowed step keeps, every allowed run keeps. -/
theorem run_invariant {step : σ → α → Option σ} {ok : σ → α → Prop} {I : σ → Prop}
    (keeps : ∀ s a t, I s → ok s a → step s a = some t → I t)
    {s u : σ} {as : List α} (start : I s) (along : Along step ok s as)
    (ran : run step s as = some u) : I u := by
  induction as generalizing s with
  | nil =>
      cases ran
      exact start
  | cons a rest ih =>
      obtain ⟨t, stepped, ran⟩ := run_cons.mp ran
      exact ih (keeps s a t start along.1 stepped) (along.2 t stepped) ran

theorem along_true (step : σ → α → Option σ) (s : σ) (as : List α) :
    Along step (fun _ _ => True) s as := by
  induction as generalizing s with
  | nil => trivial
  | cons a rest ih => exact ⟨trivial, fun t _ => ih t⟩

/-- An invariant that every step keeps holds after every run. -/
theorem run_keeps {step : σ → α → Option σ} {I : σ → Prop}
    (keeps : ∀ s a t, I s → step s a = some t → I t)
    {s u : σ} {as : List α} (start : I s) (ran : run step s as = some u) : I u :=
  run_invariant (fun s a t held _ stepped => keeps s a t held stepped) start
    (along_true step s as) ran

/-- A property that holds after a step exactly if it did before and the step was allowed
holds after a run exactly if it did before and every step was. -/
theorem run_iff {step : σ → α → Option σ} {ok : σ → α → Prop} {I J : σ → Prop}
    (keeps : ∀ s a t, I s → step s a = some t → I t)
    (exact : ∀ s a t, I s → step s a = some t → (J t ↔ J s ∧ ok s a))
    {s u : σ} {as : List α} (start : I s) (ran : run step s as = some u) :
    J u ↔ J s ∧ Along step ok s as := by
  induction as generalizing s with
  | nil =>
      cases ran
      exact (and_iff_left trivial).symm
  | cons a rest ih =>
      obtain ⟨t, stepped, ran⟩ := run_cons.mp ran
      rw [ih (keeps s a t start stepped) ran, exact s a t start stepped]
      constructor
      · rintro ⟨⟨held, allowed⟩, along⟩
        exact ⟨held, .cons stepped allowed along⟩
      · rintro ⟨held, allowed, along⟩
        exact ⟨⟨held, allowed⟩, along t stepped⟩

/-- Where every action is enabled, the run is a fold. -/
theorem run_total (f : σ → α → σ) (s : σ) (as : List α) :
    run (fun s a => some (f s a)) s as = some (as.foldl f s) := by
  induction as generalizing s with
  | nil => rfl
  | cons a rest ih => exact ih (f s a)

/-- A property that an allowed step keeps and any other step breaks holds throughout a run
exactly if all its steps are allowed. -/
theorem throughout_iff {step : σ → α → Option σ} {ok : σ → α → Prop} {I P : σ → Prop}
    (keeps : ∀ s a t, I s → step s a = some t → I t)
    (exact : ∀ s a t, I s → P s → step s a = some t → (P t ↔ ok s a))
    {s u : σ} {as : List α} (start : I s) (held : P s) (ran : run step s as = some u) :
    Throughout step P s as ↔ Along step ok s as := by
  induction as generalizing s with
  | nil => exact iff_of_true held trivial
  | cons a rest ih =>
      obtain ⟨t, stepped, ran⟩ := run_cons.mp ran
      have kept := keeps s a t start stepped
      have broken := exact s a t start held stepped
      constructor
      · rintro ⟨_, through⟩
        have through := through t stepped
        have held : P t := by cases rest with
          | nil => exact through
          | cons => exact through.1
        exact .cons stepped (broken.mp held) ((ih kept held ran).mp through)
      · rintro ⟨allowed, along⟩
        refine ⟨held, fun v other => ?_⟩
        rw [stepped] at other
        cases other
        exact (ih kept (broken.mpr allowed) ran).mpr (along t stepped)

/-- Where every allowed step is matched by a run of another machine, every run is. -/
theorem run_simulated {ρ β : Type*} {step : σ → α → Option σ} {other : ρ → β → Option ρ}
    {R : σ → ρ → Prop} {allowed : α → Prop}
    (simulates : ∀ s r a t, R s r → allowed a → step s a = some t →
      ∃ bs u, run other r bs = some u ∧ R t u)
    {s t : σ} {r : ρ} {as : List α} (start : R s r) (all : ∀ a ∈ as, allowed a)
    (ran : run step s as = some t) : ∃ bs u, run other r bs = some u ∧ R t u := by
  induction as generalizing s r with
  | nil =>
      cases ran
      exact ⟨[], r, rfl, start⟩
  | cons a rest ih =>
      rw [List.forall_mem_cons] at all
      obtain ⟨v, stepped, ran⟩ := run_cons.mp ran
      obtain ⟨first, w, one, related⟩ := simulates s r a v start all.1 stepped
      obtain ⟨later, u, two, last⟩ := ih related all.2 ran
      exact ⟨first ++ later, u, run_append.mpr ⟨w, one, two⟩, last⟩

/-- Where every allowed step is enabled and keeps the invariant, an allowed run exists
and keeps it. -/
theorem run_progress {step : σ → α → Option σ} {ok : σ → α → Prop} {I : σ → Prop}
    (moves : ∀ s a, I s → ok s a → ∃ t, step s a = some t ∧ I t) {s : σ} {as : List α}
    (start : I s) (along : Along step ok s as) : ∃ u, run step s as = some u ∧ I u := by
  induction as generalizing s with
  | nil => exact ⟨s, rfl, start⟩
  | cons a rest ih =>
      obtain ⟨t, stepped, held⟩ := moves s a start along.1
      obtain ⟨u, ran, last⟩ := ih held (along.2 t stepped)
      exact ⟨u, run_cons.mpr ⟨t, stepped, ran⟩, last⟩

/-- The induction over runs with the actions so far. -/
theorem run_history {step : σ → α → Option σ} {I : List α → σ → Prop} {first : σ}
    (keeps : ∀ as s a t, run step first as = some s → I as s → step s a = some t → I (as ++ [a]) t)
    (start : I [] first) {u : σ} {as : List α} (ran : run step first as = some u) : I as u := by
  induction as using List.reverseRecOn generalizing u with
  | nil =>
      cases ran
      exact start
  | append_singleton as a ih =>
      obtain ⟨s, before, last⟩ := run_append.mp ran
      obtain ⟨t, stepped, same⟩ := run_cons.mp last
      cases same
      exact keeps as s a _ before (ih before) stepped

/-- What the steps of a run put out, one behind the other. -/
def outputs {β : Type*} (step : σ → α → Option σ) (out : σ → α → List β) : σ → List α → List β
  | _, [] => []
  | s, a :: rest =>
      out s a ++ match step s a with
        | none => []
        | some t => outputs step out t rest

theorem outputs_cons {β : Type*} {step : σ → α → Option σ} (out : σ → α → List β) {s t : σ} {a : α}
    (stepped : step s a = some t) (rest : List α) :
    outputs step out s (a :: rest) = out s a ++ outputs step out t rest := by
  rw [outputs, stepped]

/-- The induction over runs with what was put out so far. -/
theorem run_outputs {β : Type*} {step : σ → α → Option σ} {out : σ → α → List β}
    {I : List β → σ → Prop}
    (keeps : ∀ before s a t, I before s → step s a = some t → I (before ++ out s a) t)
    {before : List β} {s u : σ} {as : List α} (start : I before s) (ran : run step s as = some u) :
    I (before ++ outputs step out s as) u := by
  induction as generalizing before s with
  | nil =>
      cases ran
      rw [outputs, List.append_nil]
      exact start
  | cons a rest ih =>
      obtain ⟨t, stepped, ran⟩ := run_cons.mp ran
      rw [outputs_cons out stepped, ← List.append_assoc]
      exact ih (keeps before s a t start stepped) ran

end CppToolkit.Machine
