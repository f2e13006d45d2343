import Fwos.Netd.Spec

/-!
# What netd reads

Specifications of the functions that only look at the files: what their answers
say about the core. Any of them may fail, and none changes anything.
-/

namespace Fwos

open Effects

variable {I : Core → Prop} {c : Core}

/-- The core is unchanged, whatever the error says. -/
abbrev Kept {ε : Type} (c : Core) : ε → Core → Prop := fun _ c' => c = c'

theorem Steps.check {α : Type} {result : Except String α} :
    Steps I (Kept c) (Fwos.check result) c fun value c' => c = c' ∧ result = .ok value := by
  cases result with
  | ok value => exact Spec.pure ⟨rfl, rfl⟩
  | error error => exact Spec.pure (Eq.refl c)

theorem Steps.parse {α : Type} {raw : Raw α} {context : String} :
    Steps I (Kept c) (Fwos.parse raw context) c fun value c' => c = c' ∧ raw = .parsed value := by
  cases raw with
  | parsed value => exact Spec.pure ⟨rfl, rfl⟩
  | garbled bytes => exact Spec.pure (Eq.refl c)

theorem Steps.readFile {file : File} {context : String} (hc : file.inCore = true) (hI : I c) :
    Steps I (Kept c) (Fwos.readFile file context) c
      fun content c' => c = c' ∧ c.get file = some content := by
  refine Spec.bind (Spec.fsRead hc hI) ?_
  rintro answer _ ⟨rfl, hr⟩
  generalize hg : c.get file = stored at hr
  cases hr with
  | absent => exact Spec.pure rfl
  | content => exact Spec.pure ⟨rfl, rfl⟩
  | failed => exact Spec.pure rfl

theorem Steps.readOptional {file : File} {context : String} (hc : file.inCore = true) (hI : I c) :
    Steps I (Kept c) (Fwos.readOptional file context) c
      fun content c' => c = c' ∧ c.get file = content := by
  refine Spec.bind (Spec.fsRead hc hI) ?_
  rintro answer _ ⟨rfl, hr⟩
  generalize hg : c.get file = stored at hr
  cases hr with
  | absent => exact Spec.pure ⟨rfl, rfl⟩
  | content => exact Spec.pure ⟨rfl, rfl⟩
  | failed => exact Spec.pure rfl

/-- The state that desired.toml holds, as the Accepted one. -/
def Core.Accepts (c : Core) (state : DesiredState) : Prop :=
  ∃ raw, c.desired = some (.parsed raw) ∧ state = numbered raw

theorem Steps.acceptedDesired (hI : I c) :
    Steps I (Kept c) Fwos.acceptedDesired c fun state c' => c = c' ∧ c.Accepts state := by
  refine (Steps.readFile rfl hI).bind ?_
  rintro content _ ⟨rfl, hd⟩
  refine Steps.parse.bind ?_
  rintro raw _ ⟨rfl, rfl⟩
  exact Steps.pure ⟨rfl, raw, hd, rfl⟩

/-! ## The journal -/

/-- The journal cannot be one that awaits confirmation. -/
def Core.NotPending (c : Core) : Prop :=
  c.applyOperation = none ∨
    ∃ operation, c.applyOperation = some (.parsed operation) ∧
      operation.phase ≠ .pendingConfirmation

theorem Steps.pendingOperation (hI : I c) :
    Steps I (Kept c) Fwos.pendingOperation c fun operation c' => c = c' ∧
      match operation with
      | none => c.NotPending
      | some operation => c.applyOperation = some (.parsed operation) ∧
          operation.phase = .pendingConfirmation := by
  refine (Steps.readOptional rfl hI).bind ?_
  rintro content _ ⟨rfl, hg⟩
  cases content with
  | none => exact Steps.pure ⟨rfl, .inl hg⟩
  | some raw =>
    refine Steps.parse.bind ?_
    rintro operation _ ⟨rfl, rfl⟩
    refine Steps.pure ⟨rfl, ?_⟩
    cases hp : decide (operation.phase = .pendingConfirmation) with
    | true =>
      rw [if_pos (of_decide_eq_true hp)]
      exact ⟨hg, of_decide_eq_true hp⟩
    | false =>
      rw [if_neg (of_decide_eq_false hp)]
      exact .inr ⟨operation, hg, of_decide_eq_false hp⟩

/-- The journal is none that must be recovered before anything else. -/
def Core.NotApplying (c : Core) : Prop :=
  c.applyOperation = none ∨
    ∃ operation, c.applyOperation = some (.parsed operation) ∧ operation.phase ≠ .applying

theorem Spec.operationRequiresRecovery (hI : I c) :
    Spec I Fwos.operationRequiresRecovery c fun required c' => c = c' ∧
      (required = false → c.NotApplying) ∧ (required = true → c.applyOperation ≠ none) := by
  refine Spec.bind (Spec.pathExists rfl hI) ?_
  rintro present _ ⟨rfl, rfl⟩
  cases hg : c.get .applyOperation with
  | none => exact Spec.pure ⟨rfl, fun _ => .inl hg, nofun⟩
  | some raw =>
    refine Spec.bind (Spec.fsRead rfl hI) ?_
    rintro answer _ ⟨rfl, hr⟩
    have hne : c.applyOperation ≠ none := by
      rw [show c.applyOperation = some raw from hg]
      nofun
    rw [hg] at hr
    cases hr with
    | failed => exact Spec.pure ⟨rfl, nofun, fun _ => hne⟩
    | content =>
      cases raw with
      | garbled bytes => exact Spec.pure ⟨rfl, nofun, fun _ => hne⟩
      | parsed operation =>
        refine Spec.pure ⟨rfl, fun hp => .inr ⟨operation, hg, ?_⟩, fun _ => hne⟩
        simpa using hp

/-- No recovery is pending. -/
structure Core.Clear (c : Core) : Prop where
  recoveryRequired : c.recoveryRequired = false
  notApplying : c.NotApplying
  applyPrevious : c.applyPrevious = none

theorem Spec.recoveryPending (hI : I c) :
    Spec I Fwos.recoveryPending c fun pending c' => c = c' ∧ (pending = false → c.Clear) := by
  refine Spec.bind (Spec.loadRecovery hI) ?_
  rintro required _ ⟨rfl, rfl⟩
  cases hf : c.recoveryRequired with
  | true => exact Spec.pure ⟨rfl, nofun⟩
  | false =>
    refine Spec.bind (Spec.operationRequiresRecovery hI) ?_
    rintro required _ ⟨rfl, hn, -⟩
    cases required with
    | true => exact Spec.pure ⟨rfl, nofun⟩
    | false =>
      refine (Spec.pathExists rfl hI).mono ?_
      rintro present _ ⟨rfl, rfl⟩
      refine ⟨rfl, fun hp => ⟨hf, hn rfl, ?_⟩⟩
      simpa [Core.get] using hp

theorem Spec.confirmationPending (hI : I c) :
    Spec I Fwos.confirmationPending c fun pending c' => c = c' ∧
      (pending = false → c.NotPending) := by
  refine Spec.bind (Steps.pendingOperation hI).run ?_
  rintro (error | operation) c' h
  · obtain rfl : c = c' := h
    exact Spec.pure ⟨rfl, nofun⟩
  · obtain ⟨rfl, hm⟩ := h
    cases operation with
    | none => exact Spec.pure ⟨rfl, fun _ => hm⟩
    | some operation => exact Spec.pure ⟨rfl, nofun⟩

/-- Nothing is in flight: a journal is at most one of an accepted apply. -/
structure Core.Idle (c : Core) : Prop where
  recoveryRequired : c.recoveryRequired = false
  applyPrevious : c.applyPrevious = none
  journal : c.applyOperation = none ∨
    ∃ operation, c.applyOperation = some (.parsed operation) ∧ operation.phase = .accepted

theorem Core.Clear.idle (h : c.Clear) (hp : c.NotPending) : c.Idle := by
  refine ⟨h.recoveryRequired, h.applyPrevious, ?_⟩
  rcases h.notApplying with hn | ⟨operation, ho, ha⟩
  · exact .inl hn
  · rcases hp with hn | ⟨other, ho', hp⟩
    · exact .inl hn
    · obtain rfl : operation = other := by simpa [ho] using ho'
      refine .inr ⟨operation, ho, ?_⟩
      cases hc : operation.phase <;> simp_all

theorem Spec.applyBusy (hI : I c) :
    Spec I Fwos.applyBusy c fun busy c' => c = c' ∧ (busy = false → c.Idle) := by
  refine Spec.bind (Spec.recoveryPending hI) ?_
  rintro pending _ ⟨rfl, hc⟩
  cases pending with
  | true => exact Spec.pure ⟨rfl, nofun⟩
  | false =>
    refine (Spec.confirmationPending hI).mono ?_
    rintro busy _ ⟨rfl, hp⟩
    exact ⟨rfl, fun hb => (hc rfl).idle (hp hb)⟩

/-- The target is the one that the markers on disk name. -/
inductive Core.Targets (c : Core) : RecoveryTarget → Prop where
  | journal {operation : ApplyOperation} (ho : c.applyOperation = some (.parsed operation))
      (hp : operation.phase ≠ .accepted) :
      c.Targets { operation := operation, marker := .applyOperation, restorePredecessor := true }
  | legacy {accepted : DesiredState} (hn : c.applyOperation = none)
      (ha : c.applyPrevious = some (.parsed accepted)) :
      c.Targets {
        operation := { accepted := accepted, previousAccepted := none }
        marker := .applyPrevious, restorePredecessor := false }

theorem Steps.readRecoveryTarget (hI : I c) :
    Steps I (Kept c) Fwos.readRecoveryTarget c fun target c' => c = c' ∧ c.Targets target := by
  refine Steps.bind (Steps.monadLift (Spec.pathExists rfl hI)) ?_
  rintro present _ ⟨rfl, rfl⟩
  cases hg : c.get .applyOperation with
  | some raw =>
    refine (Steps.readFile rfl hI).bind ?_
    rintro content _ ⟨rfl, hc⟩
    refine Steps.parse.bind ?_
    rintro operation _ ⟨rfl, rfl⟩
    cases ha : decide (operation.phase = .accepted) with
    | true =>
      rw [if_pos (of_decide_eq_true ha)]
      exact Steps.throw rfl
    | false =>
      rw [if_neg (of_decide_eq_false ha)]
      exact Steps.pure ⟨rfl, .journal hc (of_decide_eq_false ha)⟩
  | none =>
    refine (Steps.readFile rfl hI).bind ?_
    rintro content _ ⟨rfl, hc⟩
    refine Steps.parse.bind ?_
    rintro accepted _ ⟨rfl, rfl⟩
    exact Steps.pure ⟨rfl, .legacy hg hc⟩

end Fwos
