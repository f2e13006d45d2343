import Fwos.Effects.Program
import Fwos.Effects.Runs
import Mathlib.Logic.Relation

/-!
# Programs that run among others

Several threads work on one state, each a `Program`, and their calls come in any
order. A thread is verified alone: what it relies on is how the others may change
the state between two of its calls, and what it guarantees is what each of its
own calls may change.

* `Program.guarded`: from a state, under a rely, every call keeps the guarantee
  and the program can only finish in states with a postcondition.
* `Pool`: the threads and what each has still to do. What is no thread may move the
  state, a thread may be killed at any call, and a disaster may strike all of them.
* `running_began`: a call that is running has begun in the run.
* `pool_lawful`: in every run of a pool whose threads are verified each alone,
  and whose guarantees are what the others rely on, every call keeps its
  guarantee and every result has its postcondition.
-/

namespace Effects

variable {Op : Type} {Ans : Op → Type} {Env State α β ε : Type}

/-- From the state, with changes by `R` before every call, every call of the program changes
the state by `G`, and the program can only finish in states that satisfy `Q`. -/
def Program.guarded (M : Semantics Op Ans Env State) (A : Env → Prop) (R G : State → State → Prop) :
    Program Op Ans α → (α → State → Prop) → State → Prop
  | .pure value, Q, state => Q value state
  | .call op next, Q, state =>
      ∀ found, R state found → ∀ choice, A choice →
        G found (M.exec op choice found).2 ∧
          (next (M.exec op choice found).1).guarded M A R G Q (M.exec op choice found).2

section Rules

variable {M : Semantics Op Ans Env State} {A : Env → Prop} {R G : State → State → Prop}
variable {state : State}

@[simp]
theorem guarded_pure {Q : α → State → Prop} {value : α} :
    (Pure.pure value : Program Op Ans α).guarded M A R G Q state ↔ Q value state := Iff.rfl

theorem guarded_bind {program : Program Op Ans α} {next : α → Program Op Ans β}
    {Q : β → State → Prop} :
    (program >>= next).guarded M A R G Q state ↔
      program.guarded M A R G (fun value state => (next value).guarded M A R G Q state) state := by
  rw [Program.bind_eq]
  induction program generalizing state with
  | pure value => exact Iff.rfl
  | call op rest ih =>
    exact forall_congr' fun found => imp_congr_right fun _ => forall_congr' fun choice =>
      imp_congr_right fun _ => and_congr_right fun _ => ih _

theorem guarded_mono {program : Program Op Ans α} {Q Q' : α → State → Prop}
    (h : program.guarded M A R G Q state) (hq : ∀ value state, Q value state → Q' value state) :
    program.guarded M A R G Q' state := by
  induction program generalizing state with
  | pure value => exact hq value state h
  | call op rest ih =>
    intro found relied choice allowed
    obtain ⟨kept, after⟩ := h found relied choice allowed
    exact ⟨kept, ih _ after⟩

/-- A program may rely on more and guarantee less. -/
theorem guarded_weaken {program : Program Op Ans α} {Q : α → State → Prop}
    {R' G' : State → State → Prop} (h : program.guarded M A R G Q state)
    (hr : ∀ s s', R' s s' → R s s') (hg : ∀ s s', G s s' → G' s s') :
    program.guarded M A R' G' Q state := by
  induction program generalizing state with
  | pure value => exact h
  | call op rest ih =>
    intro found relied choice allowed
    obtain ⟨kept, after⟩ := h found (hr _ _ relied) choice allowed
    exact ⟨hg _ _ kept, ih _ after⟩

/-- Sequencing with the specification of the first part. -/
theorem guarded_seq {program : Program Op Ans α} {next : α → Program Op Ans β}
    {P : α → State → Prop} {Q : β → State → Prop} (hp : program.guarded M A R G P state)
    (hn : ∀ value state, P value state → (next value).guarded M A R G Q state) :
    (program >>= next).guarded M A R G Q state :=
  guarded_bind.mpr (guarded_mono hp hn)

/-- The same for a program that may end with an error: its errors end the whole. -/
theorem guarded_seqExcept {program : ExceptT ε (Program Op Ans) α}
    {next : α → ExceptT ε (Program Op Ans) β} {P : Except ε α → State → Prop}
    {Q : Except ε β → State → Prop} (hp : program.run.guarded M A R G P state)
    (he : ∀ error state, P (.error error) state → Q (.error error) state)
    (hn : ∀ value state, P (.ok value) state → (next value).run.guarded M A R G Q state) :
    (program >>= next).run.guarded M A R G Q state := by
  refine @guarded_seq _ _ _ _ _ _ M A R G state program.run _ P Q hp fun result state' h => ?_
  cases result with
  | ok value => exact hn value state' h
  | error error => exact he error state' h

/-- A program that runs alone: each of its calls keeps the guarantee. -/
theorem guarded_run {program : Program Op Ans α} {Q : α → State → Prop}
    (h : program.guarded M A R G Q state) (refl : ∀ s, R s s) {choices : List Env}
    (allowed : ∀ choice ∈ choices, A choice) :
    Relation.ReflTransGen G state (program.run M choices state).state ∧
      ∀ value, (program.run M choices state).value? = some value →
        Q value (program.run M choices state).state := by
  induction program generalizing state choices with
  | pure value =>
    refine ⟨.refl, fun other done => ?_⟩
    cases done
    exact h
  | call op rest ih =>
    cases choices with
    | nil => exact ⟨.refl, fun _ done => nomatch done⟩
    | cons choice choices =>
      obtain ⟨kept, after⟩ := h state (refl state) choice (allowed choice List.mem_cons_self)
      have rest := ih _ after fun other member => allowed other (List.mem_cons_of_mem _ member)
      exact ⟨.head kept rest.1, rest.2⟩

end Rules

/-! ## Threads -/

/-- A call that a thread is in: the state it began in, and what is left to do. -/
structure Running (Op : Type) (Ans : Op → Type) (State Call α : Type) where
  call : Call
  start : State
  rest : Program Op Ans α

structure Pool (Op : Type) (Ans : Op → Type) (State Thread Call α : Type) where
  state : State
  running : Thread → Option (Running Op Ans State Call α) := fun _ => none

inductive Happened (State Thread Call α : Type) where
  | began (thread : Thread) (call : Call)
  | called (thread : Thread)
  | returned (call : Call) (start : State) (value : α)
  | killed (thread : Thread)
  | moved
  | disaster

variable {Thread Call : Type} [DecidableEq Thread]

namespace Pool

/-- One step of some thread, or of what kills them. -/
inductive Step (M : Semantics Op Ans Env State) (A : Env → Prop) (code : Call → Program Op Ans α)
    (may : Thread → Call → Prop) (moves loss : State → State → Prop) :
    Pool Op Ans State Thread Call α → Happened State Thread Call α →
      Pool Op Ans State Thread Call α → Prop where
  | began {pool : Pool Op Ans State Thread Call α} {thread : Thread} {call : Call}
      (idle : pool.running thread = none) (allowed : may thread call) :
      Step M A code may moves loss pool (.began thread call)
        { pool with
          running := Function.update pool.running thread
            (some ⟨call, pool.state, code call⟩) }
  | called {pool : Pool Op Ans State Thread Call α} {thread : Thread} {call : Call} {start : State}
      {op : Op} {next : Ans op → Program Op Ans α} {choice : Env} (allowed : A choice)
      (turn : pool.running thread = some ⟨call, start, .call op next⟩) :
      Step M A code may moves loss pool (.called thread)
        { state := (M.exec op choice pool.state).2
          running := Function.update pool.running thread
            (some ⟨call, start, next (M.exec op choice pool.state).1⟩) }
  | returned {pool : Pool Op Ans State Thread Call α} {thread : Thread} {call : Call}
      {start : State} {value : α} (turn : pool.running thread = some ⟨call, start, .pure value⟩) :
      Step M A code may moves loss pool (.returned call start value)
        { pool with running := Function.update pool.running thread none }
  | killed {pool : Pool Op Ans State Thread Call α} {thread : Thread} :
      Step M A code may moves loss pool (.killed thread)
        { pool with running := Function.update pool.running thread none }
  | moved {pool : Pool Op Ans State Thread Call α} {left : State} (taken : moves pool.state left) :
      Step M A code may moves loss pool .moved { pool with state := left }
  | disaster {pool : Pool Op Ans State Thread Call α} {left : State} (lost : loss pool.state left) :
      Step M A code may moves loss pool .disaster { state := left }

end Pool

/-- A call that a thread is in it has begun. -/
theorem running_began {M : Semantics Op Ans Env State} {A : Env → Prop}
    {code : Call → Program Op Ans α} {may : Thread → Call → Prop}
    {moves loss : State → State → Prop} {state : State} {pool : Pool Op Ans State Thread Call α}
    {events : List (Happened State Thread Call α)}
    (run : Runs (Pool.Step M A code may moves loss) { state := state } events pool) :
    ∀ thread running, pool.running thread = some running →
      .began thread running.call ∈ events := by
  refine @Runs.labelled _ _ _ _ _ _ (fun (events : List (Happened State Thread Call α))
    (pool : Pool Op Ans State Thread Call α) => ∀ thread running,
      pool.running thread = some running → .began thread running.call ∈ events) run nofun ?_
  intro events pool event pool' ih step
  -- A thread that the step leaves alone began its call before.
  have old (other : Thread) (left : Option (Running Op Ans State Call α))
      (mine : ∀ running, left = some running → .began other running.call ∈ events ++ [event])
      (thread : Thread) (running : Running Op Ans State Call α)
      (turn : Function.update pool.running other left thread = some running) :
      .began thread running.call ∈ events ++ [event] := by
    by_cases same : thread = other
    · subst same
      exact mine running ((Function.update_self thread left pool.running).symm.trans turn)
    · have theirs := (Function.update_of_ne same left pool.running).symm.trans turn
      exact List.mem_append_left _ (ih thread running theirs)
  cases step with
  | @began thread call =>
    refine old thread _ fun running begun => ?_
    cases begun
    exact List.mem_append_right _ (List.mem_singleton_self _)
  | @called thread call start op next choice allowed turn =>
    refine old thread _ fun running left => ?_
    cases left
    have before := ih thread _ turn
    exact List.mem_append_left _ before
  | returned => exact old _ none nofun
  | killed => exact old _ none nofun
  | moved => exact fun thread running turn => List.mem_append_left _ (ih thread running turn)
  | disaster => exact nofun

/-! ## A thread that goes on alone -/

/-- What a program has still to do after these calls, and the state they leave. -/
def Program.ahead (M : Semantics Op Ans Env State) :
    Program Op Ans α → List Env → State → Program Op Ans α × State
  | .call op next, choice :: choices, state =>
      (next (M.exec op choice state).1).ahead M choices (M.exec op choice state).2
  | program, _, state => (program, state)

/-- The operation that a program calls next. -/
def Program.op? : Program Op Ans α → Option Op
  | .pure _ => none
  | .call op _ => some op

theorem Program.op?_eq_some {program : Program Op Ans α} {op : Op} :
    program.op? = some op ↔ ∃ next, program = .call op next := by
  cases program with
  | pure value => exact ⟨nofun, nofun⟩
  | call op next =>
    refine ⟨fun same => ?_, fun ⟨_, same⟩ => ?_⟩
    · cases same
      exact ⟨next, rfl⟩
    · cases same
      rfl

/-- What a program has come to that calls nothing any more. -/
def Program.result? : Program Op Ans α → Option α
  | .pure value => some value
  | .call _ _ => none

theorem Program.result?_eq_some {program : Program Op Ans α} {value : α} :
    program.result? = some value ↔ program = .pure value := by
  cases program with
  | pure other => rw [result?, Option.some_inj, pure.injEq]
  | call op next => exact ⟨nofun, nofun⟩

theorem Program.ahead_nil {M : Semantics Op Ans Env State} {program : Program Op Ans α}
    {state : State} : program.ahead M [] state = (program, state) := by
  cases program <;> rfl

section Alone

variable {M : Semantics Op Ans Env State} {A : Env → Prop} {code : Call → Program Op Ans α}
  {may : Thread → Call → Prop} {moves loss : State → State → Prop}
  {pool : Pool Op Ans State Thread Call α} {program : Program Op Ans α} {thread : Thread}
  {call : Call} {start : State}

theorem called_alone (choice : Env) (allowed : A choice) (unfinished : program.op?.isSome = true)
    (turn : pool.running thread = some ⟨call, start, program⟩) :
    Pool.Step M A code may moves loss pool (.called thread)
      { state := (program.ahead M [choice] pool.state).2
        running := Function.update pool.running thread
          (some ⟨call, start, (program.ahead M [choice] pool.state).1⟩) } := by
  cases program with
  | pure value => cases unfinished
  | call op next =>
    rw [Program.ahead, Program.ahead_nil]
    exact .called allowed turn

/-- The pool goes on by the calls of one thread. -/
theorem runs_alone (choices : List Env) (allowed : ∀ choice ∈ choices, A choice)
    (turn : pool.running thread = some ⟨call, start, program⟩) :
    ∃ events pool', Runs (Pool.Step M A code may moves loss) pool events pool' ∧
      (∀ event ∈ events, event = .called thread) ∧
      pool'.state = (program.ahead M choices pool.state).2 ∧
      pool'.running thread = some ⟨call, start, (program.ahead M choices pool.state).1⟩ := by
  induction choices generalizing program pool with
  | nil =>
    rw [Program.ahead_nil]
    exact ⟨[], pool, .refl, nofun, rfl, turn⟩
  | cons choice choices ih =>
    cases program with
    | pure value => exact ⟨[], pool, .refl, nofun, rfl, turn⟩
    | call op next =>
      have first : Pool.Step M A code may moves loss pool (.called thread) _ :=
        .called (allowed choice List.mem_cons_self) turn
      have later : Pool.running
          { state := (M.exec op choice pool.state).2
            running := Function.update pool.running thread
              (some ⟨call, start, next (M.exec op choice pool.state).1⟩) } thread =
          some ⟨call, start, next (M.exec op choice pool.state).1⟩ := Function.update_self ..
      obtain ⟨events, pool', run, calls, state, rest⟩ :=
        ih (fun other member => allowed other (List.mem_cons_of_mem _ member)) later
      refine ⟨.called thread :: events, pool', (Runs.single first).trans run, ?_, state, rest⟩
      intro event member
      rcases List.mem_cons.mp member with rfl | later
      · rfl
      · exact calls event later

end Alone

/-! ## Threads that are verified each alone -/

section Sound

variable (M : Semantics Op Ans Env State) (A : Env → Prop) (code : Call → Program Op Ans α)
  (may : Thread → Call → Prop) (moves loss : State → State → Prop)
  (rely : Thread → State → State → Prop) (guarantee : Call → State → State → Prop)
  (post : Call → State → α → State → Prop)

/-- Each thread is verified alone, and no other thread does what it does not rely on. -/
structure Verified : Prop where
  refl : ∀ thread state, rely thread state state
  trans : ∀ thread s s' s'', rely thread s s' → rely thread s' s'' → rely thread s s''
  others : ∀ thread other call s s', other ≠ thread → may other call → guarantee call s s' →
    rely thread s s'
  moved : ∀ thread s s', moves s s' → rely thread s s'
  verified : ∀ thread call start, may thread call →
    (code call).guarded M A (rely thread) (guarantee call) (post call start) start

/-- What the verification says of one step. -/
def Lawful (pool : Pool Op Ans State Thread Call α) (event : Happened State Thread Call α)
    (pool' : Pool Op Ans State Thread Call α) : Prop :=
  match event with
  | .began _ _ | .killed _ => pool'.state = pool.state
  | .called thread => ∃ running, pool.running thread = some running ∧ may thread running.call ∧
      guarantee running.call pool.state pool'.state
  | .returned call start value => pool'.state = pool.state ∧
      ∃ thread last, may thread call ∧ post call start value last ∧ rely thread last pool.state
  | .moved => moves pool.state pool'.state
  | .disaster => loss pool.state pool'.state

/-- What each thread has still to do is verified from the state that its last call left. -/
def Sound (pool : Pool Op Ans State Thread Call α) : Prop :=
  ∀ thread running, pool.running thread = some running → may thread running.call ∧
    ∃ last, rely thread last pool.state ∧
      running.rest.guarded M A (rely thread) (guarantee running.call)
        (post running.call running.start) last

end Sound

section Sound

variable {M : Semantics Op Ans Env State} {A : Env → Prop} {code : Call → Program Op Ans α}
  {may : Thread → Call → Prop} {moves loss : State → State → Prop}
  {rely : Thread → State → State → Prop} {guarantee : Call → State → State → Prop}
  {post : Call → State → α → State → Prop}
  {pool pool' : Pool Op Ans State Thread Call α} {event : Happened State Thread Call α}

/-- One thread goes on in a state that the others may find. -/
theorem sound_update (verified : Verified M A code may moves rely guarantee post)
    (sound : Sound M A may rely guarantee post pool) {thread : Thread} {state : State}
    {left : Option (Running Op Ans State Call α)}
    (found : ∀ other, other ≠ thread → rely other pool.state state)
    (mine : ∀ running, left = some running → may thread running.call ∧
      ∃ last, rely thread last state ∧
        running.rest.guarded M A (rely thread) (guarantee running.call)
          (post running.call running.start) last) :
    Sound M A may rely guarantee post
      { state := state, running := Function.update pool.running thread left } := by
  intro other running turn
  by_cases same : other = thread
  · subst same
    exact mine running ((Function.update_self other left pool.running).symm.trans turn)
  · have theirs := (Function.update_of_ne same left pool.running).symm.trans turn
    obtain ⟨allowed, last, relied, rest⟩ := sound other running theirs
    exact ⟨allowed, last, verified.trans other _ _ _ relied (found other same), rest⟩

theorem sound_step (verified : Verified M A code may moves rely guarantee post)
    (sound : Sound M A may rely guarantee post pool)
    (step : Pool.Step M A code may moves loss pool event pool') :
    Lawful may moves loss rely guarantee post pool event pool' ∧
      Sound M A may rely guarantee post pool' := by
  cases step with
  | @began thread call idle allowed =>
    refine ⟨rfl, sound_update verified sound (fun other _ => verified.refl other _) ?_⟩
    intro running begun
    cases begun
    exact ⟨allowed, pool.state, verified.refl thread _, verified.verified thread call _ allowed⟩
  | @called thread call start op next choice allowed turn =>
    obtain ⟨mine, last, relied, rest⟩ := sound thread _ turn
    obtain ⟨kept, after⟩ := rest pool.state relied choice allowed
    refine ⟨⟨_, turn, mine, kept⟩, sound_update verified sound ?_ ?_⟩
    · intro other differs
      exact verified.others other thread call _ _ (Ne.symm differs) mine kept
    · intro running left
      cases left
      exact ⟨mine, _, verified.refl thread _, after⟩
  | @returned thread call start value turn =>
    obtain ⟨mine, last, relied, finished⟩ := sound thread _ turn
    refine ⟨⟨rfl, thread, last, mine, finished, relied⟩,
      sound_update verified sound (fun other _ => verified.refl other _) ?_⟩
    intro running left
    cases left
  | @killed thread =>
    refine ⟨rfl, sound_update verified sound (fun other _ => verified.refl other _) ?_⟩
    intro running left
    cases left
  | moved moves =>
    refine ⟨moves, fun other running theirs => ?_⟩
    obtain ⟨allowed, last, relied, rest⟩ := sound other running theirs
    exact ⟨allowed, last, verified.trans other _ _ _ relied (verified.moved other _ _ moves), rest⟩
  | disaster lost =>
    refine ⟨lost, fun other running turn => ?_⟩
    cases turn

/-- A step between sound pools that keeps to the law. -/
structure LawfulStep (M : Semantics Op Ans Env State) (A : Env → Prop)
    (code : Call → Program Op Ans α) (may : Thread → Call → Prop)
    (moves loss : State → State → Prop) (rely : Thread → State → State → Prop)
    (guarantee : Call → State → State → Prop) (post : Call → State → α → State → Prop)
    (pool : Pool Op Ans State Thread Call α) (event : Happened State Thread Call α)
    (pool' : Pool Op Ans State Thread Call α) : Prop where
  step : Pool.Step M A code may moves loss pool event pool'
  lawful : Lawful may moves loss rely guarantee post pool event pool'
  sound : Sound M A may rely guarantee post pool

/-- Every step of every interleaving keeps to the law. -/
theorem pool_lawful (verified : Verified M A code may moves rely guarantee post) {state : State}
    {events : List (Happened State Thread Call α)}
    (run : Runs (Pool.Step M A code may moves loss) { state := state } events pool) :
    Runs (LawfulStep M A code may moves loss rely guarantee post) { state := state } events pool ∧
      Sound M A may rely guarantee post pool := by
  induction run with
  | refl =>
    refine ⟨.refl, fun thread running turn => ?_⟩
    cases turn
  | snoc _ step ih =>
    obtain ⟨lawful, sound'⟩ := sound_step verified ih.2 step
    exact ⟨ih.1.snoc ⟨step, lawful, ih.2⟩, sound'⟩

end Sound

end Effects
