import Mathlib.Logic.Basic

/-!
# Runs of a labelled step relation

A `Runs` is a finite run with the labels of its steps, in order. What one step
keeps, a run keeps; what one step of a second system matches, a run of it
matches.

* `Runs.labelled`, `Runs.invariant`: the induction over a run.
* `Simulates` and `Simulates.runs`: a step simulation gives every run of the
  one system a run of the other with the same labels.
* `Runs.acquired`: where a condition was acquired that holds at the end.
* `Recording`: the same steps with a history variable.
-/

namespace Effects

variable {State Label : Type}

inductive Runs (step : State → Label → State → Prop) (start : State) :
    List Label → State → Prop where
  | refl : Runs step start [] start
  | snoc {labels : List Label} {label : Label} {s s' : State} (run : Runs step start labels s)
      (h : step s label s') : Runs step start (labels ++ [label]) s'

namespace Runs

variable {step : State → Label → State → Prop} {start s s' : State} {labels more : List Label}

theorem trans (run : Runs step start labels s) (rest : Runs step s more s') :
    Runs step start (labels ++ more) s' := by
  induction rest with
  | refl => rwa [List.append_nil]
  | @snoc more label s₁ s₂ rest h ih =>
    rw [← List.append_assoc]
    exact ih.snoc h

theorem single {label : Label} (h : step s label s') : Runs step s [label] s' :=
  Runs.snoc .refl h

/-- What one step keeps of a state and of the labels before it, every run keeps. -/
theorem labelled {I : List Label → State → Prop} (run : Runs step start labels s)
    (init : I [] start)
    (keep : ∀ labels s label s', I labels s → step s label s' → I (labels ++ [label]) s') :
    I labels s := by
  induction run with
  | refl => exact init
  | snoc _ h ih => exact keep _ _ _ _ ih h

/-- What one step keeps, every run keeps. -/
theorem invariant {I : State → Prop} (run : Runs step start labels s) (init : I start)
    (keep : ∀ s label s', I s → step s label s' → I s') : I s :=
  @labelled _ _ _ _ _ _ (fun _ s => I s) run init fun _ s label s' => keep s label s'

/-- A reflexive and transitive relation that every step is in, every run is in. -/
theorem related {R : State → State → Prop} (run : Runs step start labels s) (refl : ∀ s, R s s)
    (trans : ∀ s₁ s₂ s₃, R s₁ s₂ → R s₂ s₃ → R s₁ s₃)
    (steps : ∀ s label s', step s label s' → R s s') : R start s := by
  induction run with
  | refl => exact refl _
  | snoc _ h ih => exact trans _ _ _ ih (steps _ _ _ h)

theorem mono {other : State → Label → State → Prop} (run : Runs step start labels s)
    (h : ∀ s label s', step s label s' → other s label s') : Runs other start labels s := by
  induction run with
  | refl => exact .refl
  | snoc _ hs ih => exact ih.snoc (h _ _ _ hs)

/-- The steps that keep a condition. -/
def Within (P : State → Prop) (step : State → Label → State → Prop) (s : State) (label : Label)
    (s' : State) : Prop :=
  step s label s' ∧ P s ∧ P s'

/-- A condition that holds at the end and not at the start was acquired by one step, and every
step after it kept it. -/
theorem acquired {P : State → Prop} (run : Runs step start labels s) (fresh : ¬P start)
    (held : P s) : ∃ before label after s₁ s₂, labels = before ++ label :: after ∧
      Runs step start before s₁ ∧ ¬P s₁ ∧ step s₁ label s₂ ∧ P s₂ ∧
        Runs (Within P step) s₂ after s := by
  induction run with
  | refl => exact absurd held fresh
  | @snoc labels last s s' run h ih =>
    by_cases earlier : P s
    · obtain ⟨before, label, after, s₁, s₂, rfl, first, lacks, taken, has, rest⟩ := ih earlier
      exact ⟨before, label, after ++ [last], s₁, s₂, by simp, first, lacks, taken, has,
        rest.snoc ⟨h, earlier, held⟩⟩
    · exact ⟨labels, last, [], s, s', rfl, run, earlier, h, held, .refl⟩

end Runs

/-- The same steps, with a history that each of them is entered in. -/
def Recording {History : Type} (step : State → Label → State → Prop)
    (enter : History → State → Label → State → History) (s : State × History) (label : Label)
    (s' : State × History) : Prop :=
  step s.1 label s'.1 ∧ s'.2 = enter s.2 s.1 label s'.1

/-- Every step from related states is matched by a step with the same label. -/
def Simulates {Abstract : Type} (R : State → Abstract → Prop)
    (step : State → Label → State → Prop) (astep : Abstract → Label → Abstract → Prop) : Prop :=
  ∀ s a label s', R s a → step s label s' → ∃ a', astep a label a' ∧ R s' a'

theorem Simulates.runs {Abstract : Type} {R : State → Abstract → Prop}
    {step : State → Label → State → Prop} {astep : Abstract → Label → Abstract → Prop}
    (simulates : Simulates R step astep) {start s : State} {a : Abstract} {labels : List Label}
    (init : R start a) (run : Runs step start labels s) :
    ∃ a', Runs astep a labels a' ∧ R s a' := by
  induction run with
  | refl => exact ⟨a, .refl, init⟩
  | snoc _ h ih =>
    obtain ⟨a₁, arun, related⟩ := ih
    obtain ⟨a₂, taken, related'⟩ := simulates _ _ _ _ related h
    exact ⟨a₂, arun.snoc taken, related'⟩

end Effects
