import Mathlib.Data.List.Nodup

/-!
# Runs that draw random tokens

A run is a list of events, some of which draw a token. The tokens are fresh when
no event draws one that another event drew, nor the empty one. `Fresh.run` is
the induction over such a run: what every event keeps, given the tokens drawn
before it and one that is new to them, holds after every run.
-/

namespace Effects

variable {Event State Token : Type} {tokenOf : Event → Option Token} {blank : Token}

/-- No token repeats another, and none is blank. -/
def Fresh (tokenOf : Event → Option Token) (blank : Token) (events : List Event) : Prop :=
  (events.filterMap tokenOf).Nodup ∧ blank ∉ events.filterMap tokenOf

instance [DecidableEq Token] {events : List Event} : Decidable (Fresh tokenOf blank events) :=
  inferInstanceAs (Decidable (_ ∧ _))

namespace Fresh

/-- The tokens known after a run, the last one drawn first. -/
def drawn (tokenOf : Event → Option Token) (used : List Token) (events : List Event) :
    List Token :=
  events.foldl (fun used event => (tokenOf event).toList ++ used) used

theorem mem_drawn {used : List Token} {events : List Event} {token : Token} :
    token ∈ drawn tokenOf used events ↔ token ∈ events.filterMap tokenOf ∨ token ∈ used := by
  induction events generalizing used with
  | nil => simp [drawn]
  | cons event rest ih =>
    have hd : drawn tokenOf used (event :: rest) =
      drawn tokenOf ((tokenOf event).toList ++ used) rest := rfl
    rw [hd, ih, List.mem_append, Option.mem_toList]
    cases ht : tokenOf event with
    | none => simp [ht]
    | some t =>
      rw [List.filterMap_cons_some ht, List.mem_cons, Option.some.injEq]
      constructor
      · rintro (h | rfl | h)
        · exact .inl (.inr h)
        · exact .inl (.inl rfl)
        · exact .inr h
      · rintro ((rfl | h) | h)
        · exact .inr (.inl rfl)
        · exact .inl h
        · exact .inr (.inr h)

theorem cons {event : Event} {rest : List Event} (h : Fresh tokenOf blank (event :: rest)) :
    Fresh tokenOf blank rest ∧ tokenOf event ≠ some blank ∧
      ∀ token, tokenOf event = some token → token ∉ rest.filterMap tokenOf := by
  obtain ⟨hd, he⟩ := h
  cases ht : tokenOf event with
  | none =>
    rw [List.filterMap_cons_none ht] at hd he
    exact ⟨⟨hd, he⟩, by simp, by simp⟩
  | some token =>
    rw [List.filterMap_cons_some ht] at hd he
    obtain ⟨hn, hd⟩ := List.nodup_cons.mp hd
    obtain ⟨hne, he⟩ := not_or.mp (List.mem_cons.not.mp he)
    refine ⟨⟨hd, he⟩, fun h => hne (Option.some.inj h).symm, ?_⟩
    rintro _ ⟨rfl⟩
    exact hn

/-- A run in two parts: both are fresh, and the second draws nothing that the
first drew. -/
theorem append {before after : List Event} (h : Fresh tokenOf blank (before ++ after)) :
    Fresh tokenOf blank before ∧ Fresh tokenOf blank after ∧
      ∀ token ∈ after.filterMap tokenOf, token ∉ before.filterMap tokenOf := by
  obtain ⟨hd, he⟩ := h
  rw [List.filterMap_append] at hd he
  obtain ⟨hb, ha, hne⟩ := List.nodup_append.mp hd
  rw [List.mem_append, not_or] at he
  exact ⟨⟨hb, he.1⟩, ⟨ha, he.2⟩, fun token h h' => hne token h' token h rfl⟩

/-- The induction over a fresh run. -/
theorem run {step : State → Event → State} {P : State → List Token → Prop}
    {events : List Event} {state : State} {used : List Token}
    (hf : Fresh tokenOf blank events) (hu : ∀ token ∈ events.filterMap tokenOf, token ∉ used)
    (hstep : ∀ state used event, P state used → tokenOf event ≠ some blank →
      (∀ token, tokenOf event = some token → token ∉ used) →
        P (step state event) ((tokenOf event).toList ++ used))
    (h : P state used) :
    P (events.foldl step state) (drawn tokenOf used events) := by
  induction events generalizing state used with
  | nil => exact h
  | cons event rest ih =>
    obtain ⟨hrest, hne, hn⟩ := hf.cons
    have hs := hstep state used event h hne fun token ht =>
      hu token (List.mem_filterMap.mpr ⟨event, by simp, ht⟩)
    refine ih hrest (fun token hm => ?_) hs
    rw [List.mem_append, Option.mem_toList]
    rintro (ht | hused)
    · exact hn token ht hm
    · obtain ⟨e, he, ht⟩ := List.mem_filterMap.mp hm
      exact hu token (List.mem_filterMap.mpr ⟨e, List.mem_cons_of_mem _ he, ht⟩) hused

theorem drawn_append {used : List Token} {before after : List Event} :
    drawn tokenOf used (before ++ after) = drawn tokenOf (drawn tokenOf used before) after :=
  List.foldl_append ..

/-- The induction over the second part of a fresh run. -/
theorem run_after {step : State → Event → State} {P : State → List Token → Prop}
    {before after : List Event} {state : State} (hf : Fresh tokenOf blank (before ++ after))
    (hstep : ∀ state used event, P state used → tokenOf event ≠ some blank →
      (∀ token, tokenOf event = some token → token ∉ used) →
        P (step state event) ((tokenOf event).toList ++ used))
    (h : P state (drawn tokenOf [] before)) :
    P (after.foldl step state) (drawn tokenOf [] (before ++ after)) := by
  obtain ⟨-, ha, hn⟩ := hf.append
  rw [drawn_append]
  refine ha.run (fun token hm hd => ?_) hstep h
  rcases mem_drawn.mp hd with hd | hd
  · exact hn token hm hd
  · simp at hd

end Fresh

end Effects
