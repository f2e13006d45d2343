import Mathlib.Logic.Function.Basic

/-!
# Programs that call an environment

A `Program` is a tree of calls to an environment: each node names an operation
and continues with the answer. The tree says what a process asks for, and a
`Semantics` says what the environment may do. Everything a process cannot
control (a failing write, the time, a crash) is a choice of the environment, so
that "for every pattern of failures and every crash point" is "for every list
of choices".

* `Program.run`: one execution. The list of choices is the environment's side;
  the execution crashes where the list ends.
* `Program.wp`: what must hold before, so that a postcondition holds after and
  a crash condition holds at every call.
* `wp_run`: the soundness of the second for the first.
* `Uses`: which operations a program can call at all, and `wp_of_uses`: what
  every one of them keeps, the program keeps at every crash point.
* `wp_seqExcept`: the rule of sequences for programs that may end with an error.
-/

namespace Effects

/-- A process as a tree of calls. `Ans op` is the type of the answer to `op`. -/
inductive Program (Op : Type) (Ans : Op → Type) (α : Type) : Type where
  | pure (value : α)
  | call (op : Op) (next : Ans op → Program Op Ans α)

variable {Op : Type} {Ans : Op → Type} {Env State α β : Type}

namespace Program

def bind : Program Op Ans α → (α → Program Op Ans β) → Program Op Ans β
  | .pure value, next => next value
  | .call op rest, next => .call op fun answer => (rest answer).bind next

instance : Monad (Program Op Ans) where
  pure := .pure
  bind := bind

theorem bind_eq (program : Program Op Ans α) (next : α → Program Op Ans β) :
    program >>= next = program.bind next := rfl

theorem bind_pure (program : Program Op Ans α) : program.bind .pure = program := by
  induction program with
  | pure value => rfl
  | call op rest ih => exact congrArg (Program.call op) (funext ih)

theorem bind_assoc {γ : Type} (program : Program Op Ans α) (first : α → Program Op Ans β)
    (second : β → Program Op Ans γ) :
    (program.bind first).bind second = program.bind fun value => (first value).bind second := by
  induction program with
  | pure value => rfl
  | call op rest ih => exact congrArg (Program.call op) (funext ih)

instance : LawfulMonad (Program Op Ans) :=
  LawfulMonad.mk' _ bind_pure (fun _ _ => rfl) bind_assoc

end Program

/-- One call, whose answer is the result. -/
def perform (op : Op) : Program Op Ans (Ans op) := .call op .pure

/-- What the environment does with a call: its answer and the next state, both
fixed by the choice it makes. -/
structure Semantics (Op : Type) (Ans : Op → Type) (Env State : Type) where
  exec : (op : Op) → Env → State → Ans op × State

/-- How an execution ends. A finished one leaves the choices it did not use. -/
inductive Outcome (Env State α : Type) : Type where
  | done (value : α) (state : State) (unused : List Env)
  | crashed (state : State)

/-- The state an execution leaves behind, finished or not. -/
def Outcome.state : Outcome Env State α → State
  | .done _ state _ => state
  | .crashed state => state

/-- The result of a finished execution. -/
def Outcome.value? : Outcome Env State α → Option α
  | .done value _ _ => some value
  | .crashed _ => none

theorem Outcome.eq_done {outcome : Outcome Env State α} {value : α}
    (h : outcome.value? = some value) :
    ∃ unused, outcome = .done value outcome.state unused := by
  cases outcome with
  | done other state unused =>
    cases h
    exact ⟨unused, rfl⟩
  | crashed state => cases h

namespace Program

variable (M : Semantics Op Ans Env State)

/-- One execution under a list of choices. It crashes before the first call that
the list has no choice for. -/
def run : Program Op Ans α → List Env → State → Outcome Env State α
  | .pure value, choices, state => .done value state choices
  | .call _ _, [], state => .crashed state
  | .call op next, choice :: choices, state =>
      (next (M.exec op choice state).1).run choices (M.exec op choice state).2

/-- `wp M A I p Q s`: from `s`, while every choice satisfies `A`, the program `p`
can only finish in states that satisfy `Q` and only crash in states that
satisfy `I`. -/
def wp (A : Env → Prop) (I : State → Prop) :
    Program Op Ans α → (α → State → Prop) → State → Prop
  | .pure value, Q, state => Q value state
  | .call op next, Q, state =>
      I state ∧ ∀ choice, A choice →
        (next (M.exec op choice state).1).wp A I Q (M.exec op choice state).2

end Program

/-! ## Rules -/

section Rules

variable {M : Semantics Op Ans Env State} {A : Env → Prop} {I J : State → Prop}
variable {Q R : α → State → Prop} {state : State}

open Program

@[simp]
theorem wp_pure {value : α} : (Pure.pure value : Program Op Ans α).wp M A I Q state ↔ Q value state :=
  Iff.rfl

theorem wp_bind {program : Program Op Ans α} {next : α → Program Op Ans β}
    {Q : β → State → Prop} :
    (program >>= next).wp M A I Q state ↔
      program.wp M A I (fun value state => (next value).wp M A I Q state) state := by
  rw [bind_eq]
  induction program generalizing state with
  | pure value => exact Iff.rfl
  | call op rest ih =>
    exact and_congr_right fun _ => forall_congr' fun choice => imp_congr_right fun _ => ih _

theorem wp_mono {program : Program Op Ans α} (hp : program.wp M A I Q state)
    (hq : ∀ value state, Q value state → R value state) : program.wp M A I R state := by
  induction program generalizing state with
  | pure value => exact hq value state hp
  | call op rest ih => exact ⟨hp.1, fun choice ha => ih _ (hp.2 choice ha)⟩

/-- Both the postcondition and the crash condition may be weakened. -/
theorem wp_weaken {program : Program Op Ans α} (hp : program.wp M A I Q state)
    (hi : ∀ state, I state → J state) (hq : ∀ value state, Q value state → R value state) :
    program.wp M A J R state := by
  induction program generalizing state with
  | pure value => exact hq value state hp
  | call op rest ih => exact ⟨hi state hp.1, fun choice ha => ih _ (hp.2 choice ha)⟩

theorem wp_and {program : Program Op Ans α} (hq : program.wp M A I Q state)
    (hr : program.wp M A J R state) :
    program.wp M A (fun state => I state ∧ J state)
      (fun value state => Q value state ∧ R value state) state := by
  induction program generalizing state with
  | pure value => exact ⟨hq, hr⟩
  | call op rest ih =>
    exact ⟨⟨hq.1, hr.1⟩, fun choice ha => ih _ (hq.2 choice ha) (hr.2 choice ha)⟩

/-- Sequencing with the specification of the first part. -/
theorem wp_seq {program : Program Op Ans α} {next : α → Program Op Ans β}
    {Q : β → State → Prop} (hp : program.wp M A I R state)
    (hn : ∀ value state, R value state → (next value).wp M A I Q state) :
    (program >>= next).wp M A I Q state :=
  wp_bind.mpr (wp_mono hp hn)

/-- What `wp` promises of one execution. -/
theorem wp_run {program : Program Op Ans α} (hp : program.wp M A I Q state)
    {choices : List Env} (ha : ∀ choice ∈ choices, A choice) :
    match program.run M choices state with
    | .done value state _ => Q value state
    | .crashed state => I state := by
  induction program generalizing state choices with
  | pure value => exact hp
  | call op rest ih =>
    cases choices with
    | nil => exact hp.1
    | cons choice choices =>
      exact ih _ (hp.2 choice (ha choice (by simp))) fun c hc => ha c (by simp [hc])

theorem wp_run_done {program : Program Op Ans α} (hp : program.wp M A I Q state)
    {choices unused : List Env} (ha : ∀ choice ∈ choices, A choice) {value : α} {final : State}
    (hr : program.run M choices state = .done value final unused) : Q value final := by
  have h := wp_run hp ha
  rwa [hr] at h

theorem wp_run_crashed {program : Program Op Ans α} (hp : program.wp M A I Q state)
    {choices : List Env} (ha : ∀ choice ∈ choices, A choice) {final : State}
    (hr : program.run M choices state = .crashed final) : I final := by
  have h := wp_run hp ha
  rwa [hr] at h

/-- An execution of two parts: the second goes on with the choices that are left. -/
theorem run_bind {program : Program Op Ans α} {next : α → Program Op Ans β} {choices : List Env}
    {value : α} {middle : State} {unused : List Env}
    (h : program.run M choices state = .done value middle unused) :
    (program >>= next).run M choices state = (next value).run M unused middle := by
  rw [bind_eq]
  induction program generalizing state choices with
  | pure other =>
    cases h
    rfl
  | call op rest ih =>
    cases choices with
    | nil => cases h
    | cons choice choices => exact ih _ h

/-- An execution that crashes in the first part. -/
theorem run_bind_crashed {program : Program Op Ans α} {next : α → Program Op Ans β}
    {choices : List Env} {final : State} (h : program.run M choices state = .crashed final) :
    (program >>= next).run M choices state = .crashed final := by
  rw [bind_eq]
  induction program generalizing state choices with
  | pure other => cases h
  | call op rest ih =>
    cases choices with
    | nil =>
      cases h
      rfl
    | cons choice choices => exact ih _ h

end Rules

/-! ## Which operations a program calls -/

/-- Every call the program can make, under any answers, is `allowed`. -/
def Uses (allowed : Op → Prop) : Program Op Ans α → Prop
  | .pure _ => True
  | .call op next => allowed op ∧ ∀ answer, Uses allowed (next answer)

/-- The program makes this call under some answers. -/
def Program.Calls (op : Op) : Program Op Ans α → Prop
  | .pure _ => False
  | .call other next => other = op ∨ ∃ answer, (next answer).Calls op

section Uses

variable {allowed : Op → Prop}

@[simp]
theorem uses_pure {value : α} : Uses allowed (Pure.pure value : Program Op Ans α) := trivial

@[simp]
theorem uses_perform {op : Op} : Uses allowed (perform op : Program Op Ans (Ans op)) ↔ allowed op :=
  ⟨fun h => h.1, fun h => ⟨h, fun _ => trivial⟩⟩

theorem Uses.bind {program : Program Op Ans α} {next : α → Program Op Ans β}
    (hp : Uses allowed program) (hn : ∀ value, Uses allowed (next value)) :
    Uses allowed (program >>= next) := by
  rw [Program.bind_eq]
  induction program with
  | pure value => exact hn value
  | call op rest ih => exact ⟨hp.1, fun answer => ih answer (hp.2 answer)⟩

theorem Uses.mono {other : Op → Prop} {program : Program Op Ans α} (hp : Uses allowed program)
    (h : ∀ op, allowed op → other op) : Uses other program := by
  induction program with
  | pure value => trivial
  | call op rest ih => exact ⟨h op hp.1, fun answer => ih answer (hp.2 answer)⟩

theorem Uses.of_calls {program : Program Op Ans α} {op : Op} (hp : Uses allowed program)
    (calls : program.Calls op) : allowed op := by
  induction program with
  | pure value => cases calls
  | call other next ih =>
    rcases calls with same | ⟨answer, later⟩
    · exact same ▸ hp.1
    · exact ih answer (hp.2 answer) later

theorem Uses.bindExcept {ε : Type} {program : ExceptT ε (Program Op Ans) α}
    {next : α → ExceptT ε (Program Op Ans) β} (hp : Uses allowed program.run)
    (hn : ∀ value, Uses allowed (next value).run) : Uses allowed (program >>= next).run := by
  refine @Uses.bind _ _ _ _ allowed program.run _ hp fun result => ?_
  cases result with
  | ok value => exact hn value
  | error error => trivial

theorem Uses.liftExcept {ε : Type} {program : Program Op Ans α} (hp : Uses allowed program) :
    Uses allowed (ExceptT.lift program : ExceptT ε (Program Op Ans) α).run :=
  Uses.bind hp fun _ => trivial

/-- A condition that every allowed operation keeps holds at every crash point
and at the end. -/
theorem wp_of_uses {M : Semantics Op Ans Env State} {A : Env → Prop} {J : State → Prop}
    {program : Program Op Ans α} {state : State} (hu : Uses allowed program)
    (keep : ∀ op, allowed op → ∀ choice, A choice → ∀ state, J state →
      J (M.exec op choice state).2)
    (h : J state) : program.wp M A J (fun _ state => J state) state := by
  induction program generalizing state with
  | pure value => exact h
  | call op rest ih =>
    exact ⟨h, fun choice ha => ih _ (hu.2 _) (keep op hu.1 choice ha state h)⟩

end Uses

/-! ## Programs that may end with an error -/

section Except

variable {M : Semantics Op Ans Env State} {A : Env → Prop} {ε : Type}

/-- What the rest of a program owes: an error of the first part ends the whole. -/
def afterExcept (Q : Except ε β → State → Prop) (next : α → State → Prop) :
    Except ε α → State → Prop
  | .ok value, state => next value state
  | .error error, state => Q (.error error) state

theorem wp_bindExcept {I : State → Prop} {program : ExceptT ε (Program Op Ans) α}
    {next : α → ExceptT ε (Program Op Ans) β} {Q : Except ε β → State → Prop} {state : State} :
    (program >>= next).run.wp M A I Q state ↔
      program.run.wp M A I
        (afterExcept Q fun value state => (next value).run.wp M A I Q state) state := by
  refine (@wp_bind _ _ _ _ _ _ M A I state program.run _ Q).trans ?_
  have pointwise : ∀ result state, afterExcept Q
      (fun value state => (next value).run.wp M A I Q state) result state ↔
      (ExceptT.bindCont next result).wp M A I Q state := by
    intro result state
    cases result <;> exact Iff.rfl
  exact ⟨fun h => wp_mono h fun result state => (pointwise result state).mpr,
    fun h => wp_mono h fun result state => (pointwise result state).mp⟩

/-- Sequencing with the specification of the first part: its errors end the whole. -/
theorem wp_seqExcept {I : State → Prop} {program : ExceptT ε (Program Op Ans) α}
    {next : α → ExceptT ε (Program Op Ans) β} {R : Except ε α → State → Prop}
    {Q : Except ε β → State → Prop} {state : State}
    (hp : program.run.wp M A I R state)
    (he : ∀ error state, R (.error error) state → Q (.error error) state)
    (hn : ∀ value state, R (.ok value) state → (next value).run.wp M A I Q state) :
    (program >>= next).run.wp M A I Q state := by
  refine @wp_seq _ _ _ _ _ _ M A I _ state program.run _ Q hp fun result state' hr => ?_
  cases result with
  | ok value => exact hn value state' hr
  | error error => exact he error state' hr

end Except

end Effects
