import Fwos.Netd.Restore

/-!
# What an apply leaves

The core after an attempt at a new Accepted network, whatever fails on the way:
the network is as it was (`Core.Kept`), or the attempt is in flight and its
journal holds what a recovery restores (`Core.InFlight`), or it is Accepted
(`Core.Moved`).

* `Spec.prepareApply`: the attempt is about the Accepted network of an idle core.
* `Spec.restoreFailedApply`: a failed attempt is undone, or stays in flight
  behind the guard.
* `Spec.applyDesiredRequest`: the whole request.
-/

namespace Fwos

open Effects

variable {I : Core → Prop} {c : Core}

/-! ## Handlers -/

theorem Spec.handlerReply {handler : Handler Reply} {E Q : Reply → Core → Prop}
    (h : Steps I E handler c Q) :
    Spec I (Handler.reply handler) c fun reply c' => Q reply c' ∨ E reply c' := by
  refine Spec.bind h.run ?_
  rintro (reply | reply) c' h
  · exact Spec.pure (.inr h)
  · exact Spec.pure (.inl h)

theorem Steps.orReply {α : Type} {program : Netd α} {reply : String → Reply}
    {F : String → Core → Prop} {E : Reply → Core → Prop} {Q : α → Core → Prop}
    (h : Steps I F program c Q) (hE : ∀ error c', F error c' → E (reply error) c') :
    Steps I E (Fwos.orReply program reply) c Q := by
  refine Spec.bind h.run ?_
  rintro (error | value) c' h
  · exact Spec.pure (hE error c' h)
  · exact Spec.pure h

/-! ## The checks -/

/-- The attempt is at a network after the Accepted one of this core. -/
structure Attempt.From (attempt : Attempt) (c : Core) : Prop where
  idle : c.Idle
  current : c.Accepts attempt.current
  revision : attempt.proposed.revision = attempt.current.revision + 1
  oldPredecessor : c.previousAccepted = attempt.oldPredecessor
  oldAttribution : c.applyAttribution = attempt.oldAttribution

/-- The attempt is at the network of this request, which passed its checks. -/
structure Attempt.Asks [Base64] (attempt : Attempt) (input : Except String DesiredState)
    (baseRevision : Option Nat) (actor : Option Principal) (draftVersion : Option String) :
    Prop where
  network : ∃ asked, input = .ok asked ∧ validate asked = .ok () ∧
    attempt.proposed = { asked with revision := attempt.current.revision + 1 }
  base : baseRevision.getD attempt.current.revision = attempt.current.revision
  actor : attempt.actor = actor
  draftVersion : attempt.draftVersion = draftVersion

/-- No check changes anything, and no refusal says that the apply was accepted. -/
def Refused (c : Core) (reply : Reply) (c' : Core) : Prop := reply.ok = false ∧ c = c'

theorem Steps.checkProposed [Base64] {proposed : DesiredState} (hI : I c) :
    Steps I (Kept c) (Fwos.checkProposed proposed) c
      fun _ c' => c = c' ∧ validate proposed = .ok () := by
  refine Steps.seq Steps.check (fun _ => id) (fun _ _ h => h) ?_
  rintro ⟨⟩ _ ⟨rfl, hvalid⟩
  have asks : Uses Silent (do nftCheck (← nftRules proposed) : Netd Unit).run :=
    Uses.bindExcept (Uses.liftExcept uses_nftRules) fun _ => uses_ask silent_nftCheck
  exact Steps.silent asks hI (fun _ => rfl) fun _ => ⟨rfl, hvalid⟩

theorem Steps.prepareApply [Base64] {input : Except String DesiredState}
    {baseRevision : Option Nat} {actor : Option Principal} {draftVersion : Option String}
    (hI : I c) :
    Steps I (Refused c) (Fwos.prepareApply input baseRevision actor draftVersion) c
      fun attempt c' => c = c' ∧ attempt.From c ∧
        attempt.Asks input baseRevision actor draftVersion := by
  refine Steps.bind (Steps.monadLift (Spec.applyBusy hI)) ?_
  rintro busy _ ⟨rfl, hidle⟩
  cases busy with
  | true => exact Steps.throw ⟨rfl, rfl⟩
  | false =>
    refine Steps.bind (Steps.orReply (Steps.acceptedDesired hI) fun _ _ h => ⟨rfl, h⟩) ?_
    rintro current _ ⟨rfl, hcurrent⟩
    dsimp only
    split
    · exact Steps.throw ⟨rfl, rfl⟩
    next hbase =>
    refine Steps.bind (Steps.orReply Steps.check fun _ _ h => ⟨rfl, h⟩) ?_
    rintro proposed _ ⟨rfl, hinput⟩
    refine Steps.bind (Steps.orReply (Steps.checkProposed hI) fun _ _ h => ⟨rfl, h⟩) ?_
    rintro ⟨⟩ _ ⟨rfl, hvalid⟩
    split
    · exact Steps.throw ⟨rfl, rfl⟩
    next next hnext =>
      refine Steps.bind (R := fun _ c' => c = c') (Steps.orReply (F := Kept c)
        (Steps.silent (uses_ask silent_captureFootprint) hI (fun _ => rfl) fun _ => rfl)
        fun _ _ h => ⟨rfl, h⟩) ?_
      rintro ⟨⟩ _ rfl
      refine Steps.bind (Steps.orReply (Steps.readOptional rfl hI) fun _ _ h => ⟨rfl, h⟩) ?_
      rintro predecessor _ ⟨rfl, hp⟩
      refine Steps.bind (Steps.orReply (Steps.readOptional rfl hI) fun _ _ h => ⟨rfl, h⟩) ?_
      rintro attribution _ ⟨rfl, ha⟩
      refine Steps.bind (R := fun _ c' => c = c') (Steps.monadLift
        (Spec.silent uses_pathExists hI fun _ => rfl)) ?_
      rintro lanReady _ rfl
      obtain rfl : current.revision + 1 = next := by
        unfold checkedAdd at hnext
        split at hnext
        · exact Option.some.inj hnext
        · cases hnext
      exact Steps.pure ⟨rfl, ⟨hidle rfl, hcurrent, rfl, hp, ha⟩,
        ⟨proposed, hinput, hvalid, rfl⟩, by simpa using hbase, rfl, rfl⟩

/-! ## Undoing -/

theorem Spec.failure_quiet {α : Type} {context : String} {program : Netd α}
    (hu : Uses Quiet program.run) (hI : ∀ live, I { c with live := live }) :
    Spec I (Fwos.failure context program) c fun _ c' => ∃ live, c' = { c with live := live } := by
  refine (Spec.failure (E := fun _ c' => ∃ live, c' = { c with live := live })
    (Q := fun _ c' => ∃ live, c' = { c with live := live })
    (Steps.quiet hu hI (fun _ live => ⟨live, rfl⟩) fun _ live => ⟨live, rfl⟩)).mono ?_
  rintro failures c' (⟨-, -, h⟩ | ⟨-, -, h⟩) <;> exact h

/-- The cores that the undoing of an attempt passes through. -/
inductive Core.Undoing (c : Core) (attempt : Attempt) : Core → Prop where
  | kept : c.Undoing attempt c
  | reworked {c' : Core} (h : c.guarded.Reworked true c') : c.Undoing attempt c'
  | cleared (live : Live) : c.Undoing attempt ((c.undone attempt live).without .applyOperation)
  | reopened (live : Live) : c.Undoing attempt
      { (c.undone attempt live).without .applyOperation with recoveryRequired := false }

theorem uses_apply [Base64] {state : DesiredState} : Uses Quiet (apply state).run := by
  refine Uses.bindExcept uses_check fun _ => ?_
  refine Uses.bindExcept (Uses.liftExcept (uses_ask fun _ w => ⟨w.live, rfl⟩)) fun live => ?_
  exact Uses.bindExcept uses_programState fun _ => trivial

theorem Attempt.undo_spec [Base64] {attempt : Attempt} :
    Spec (c.Undoing attempt) attempt.undo c fun failures c' =>
      c.guarded.Reworked true c' ∧
        (failures = [] → ∃ live, c.undone attempt live = c') := by
  have any (desired : Option (Raw DesiredState)) (previous : Option (Raw DesiredState))
      (actors : Option (Raw ApplyAttribution)) (live : Live) :
      c.guarded.Reworked true { c.guarded with
        desired := desired, previousAccepted := previous, applyAttribution := actors
        live := live } := .intro desired previous actors live nofun
  have guarded (live : Live) : c.Undoing attempt { c.guarded with live := live } :=
    .reworked (any _ _ _ live)
  refine Spec.bind (R := fun _ c' => c.guarded = c') ?_ ?_
  · refine (Spec.failure (E := Kept c.guarded) (Q := fun _ c' => c.guarded = c')
      (Steps.requireRecoveryGuard .kept (guarded c.live))).mono ?_
    rintro failures c' (⟨-, _, hg⟩ | ⟨-, _, hg⟩) <;> exact hg
  rintro guard _ rfl
  refine Spec.bind (Spec.failure_silent uses_setLanServicesReady (guarded c.live)) ?_
  rintro suspend _ rfl
  refine Spec.bind (Spec.failure_quiet uses_apply guarded) ?_
  rintro live _ ⟨live₁, rfl⟩
  refine Spec.bind (Spec.failure_quiet uses_network guarded) ?_
  rintro routes _ ⟨live₂, rfl⟩
  refine Spec.bind (Spec.removeTentativeState (guarded live₂)
    (Q := fun _ c' => ∃ live, c' = { c.guarded with live := live }) fun _ live => ⟨live, rfl⟩) ?_
  rintro tentative _ ⟨live₃, rfl⟩
  refine Spec.bind (@Spec.failure_durableRestore _ _ _ .desired
    (some (.parsed attempt.current)) rfl (guarded live₃)) ?_
  intro durable c₁ h₁
  obtain ⟨desired, rfl, hd⟩ : ∃ desired, { c.guarded with live := live₃, desired := desired } = c₁ ∧
      (durable = [] → desired = some (.parsed attempt.current)) := by
    rcases h₁ with rfl | ⟨hf, rfl⟩
    · exact ⟨_, rfl, fun _ => rfl⟩
    · exact ⟨_, rfl, fun h => absurd h hf⟩
  refine Spec.bind (@Spec.failure_durableRestore _ _ _ .previousAccepted
    attempt.oldPredecessor rfl (.reworked (any _ _ _ _))) ?_
  intro predecessor c₂ h₂
  obtain ⟨previous, rfl, hp⟩ : ∃ previous, { c.guarded with
        live := live₃, desired := desired, previousAccepted := previous } = c₂ ∧
      (predecessor = [] → previous = attempt.oldPredecessor) := by
    rcases h₂ with rfl | ⟨hf, rfl⟩
    · exact ⟨_, rfl, fun _ => rfl⟩
    · exact ⟨_, rfl, fun h => absurd h hf⟩
  refine Spec.bind (@Spec.failure_durableRestore _ _ _ .applyAttribution
    attempt.oldAttribution rfl (.reworked (any _ _ _ _))) ?_
  intro actors c₃ h₃
  obtain ⟨attribution, rfl, ha⟩ : ∃ attribution, { c.guarded with
        live := live₃, desired := desired, previousAccepted := previous
        applyAttribution := attribution } = c₃ ∧
      (actors = [] → attribution = attempt.oldAttribution) := by
    rcases h₃ with rfl | ⟨hf, rfl⟩
    · exact ⟨_, rfl, fun _ => rfl⟩
    · exact ⟨_, rfl, fun h => absurd h hf⟩
  refine Spec.pure ⟨any _ _ _ _, fun h => ⟨live₃, ?_⟩⟩
  simp only [List.append_eq_nil_iff] at h
  rw [hd h.1.1.2, hp h.1.2, ha h.2]
  rfl

theorem uses_resumeLanServices {attempt : Attempt} : Uses Silent attempt.resumeLanServices := by
  refine Uses.bind uses_setLanServicesReady fun result => ?_
  rcases result with _ | (_ | _)
  · trivial
  · trivial
  · exact Uses.bind (uses_ask silent_waitLanServices) fun result => by cases result <;> trivial

/-- What a failed attempt leaves: the network as it was, or the guard before a recovery. -/
inductive Core.FailedApply (c : Core) (attempt : Attempt) : Reply → Core → Prop where
  | restored {error : String} (live : Live) : c.FailedApply attempt (attempt.restoredReply error)
      { (c.undone attempt live).without .applyOperation with recoveryRequired := false }
  | guarded {error : String} {failures : List String} {c' : Core}
      (h : c.guarded.Reworked true c') :
      c.FailedApply attempt (attempt.recoveryReply error failures) c'
  | cleared {error : String} {failures : List String} (live : Live) :
      c.FailedApply attempt (attempt.recoveryReply error failures)
        ((c.undone attempt live).without .applyOperation)

theorem Spec.restoreFailedApply [Base64] {attempt : Attempt} {error : String} :
    Spec (c.Undoing attempt) (Fwos.restoreFailedApply attempt error) c
      (c.FailedApply attempt) := by
  refine Spec.bind Attempt.undo_spec ?_
  rintro failures c₁ ⟨hr, hundone⟩
  refine Spec.bind (R := fun failures' c' => c₁ = c' ∧ (failures' = [] → failures = [])) ?_ ?_
  · cases failures with
    | nil => exact Spec.silent uses_resumeLanServices (.reworked hr) fun _ => ⟨rfl, fun _ => rfl⟩
    | cons failure failures => exact Spec.pure ⟨rfl, id⟩
  rintro resumed _ ⟨rfl, hresumed⟩
  refine Spec.bind (R := fun failures' c' =>
      (failures' = [] ∧ ∃ live, c' =
        { (c.undone attempt live).without .applyOperation with recoveryRequired := false }) ∨
      (failures' ≠ [] ∧ (c.guarded.Reworked true c' ∨
        ∃ live, c' = (c.undone attempt live).without .applyOperation))) ?_ ?_
  · cases resumed with
    | cons failure rest => exact Spec.pure (.inr ⟨nofun, .inl hr⟩)
    | nil =>
      obtain ⟨live, rfl⟩ := hundone (hresumed rfl)
      have finish := @Spec.failure _ _ _ "complete recovery" _ _ _
        (@Steps.finishRecovery (c.Undoing attempt) (c.undone attempt live) attempt.current
          .applyOperation rfl (.reworked hr) (.reworked hr) (.cleared live) (.cleared live))
      refine finish.mono ?_
      rintro failures' c' (⟨hf, -, rfl⟩ | ⟨hf, -, rfl | rfl⟩)
      · exact .inl ⟨hf, live, rfl⟩
      · exact .inr ⟨hf, .inl hr⟩
      · exact .inr ⟨hf, .inr ⟨live, rfl⟩⟩
  rintro failures' c' (⟨rfl, live, rfl⟩ | ⟨hf, h⟩)
  · exact Spec.pure (.restored live)
  · have hne : failures'.isEmpty = false := by simpa using hf
    simp only [hne, Bool.false_eq_true, if_false]
    rcases h with h | ⟨live, rfl⟩
    · refine Spec.bind (R := fun _ c'' => c' = c'') (Spec.storeRecovery (.reworked h) ?_) ?_
      · cases h
        rfl
      · rintro ⟨⟩ _ rfl
        exact Spec.pure (.guarded h)
    · refine Spec.bind (R := fun _ c'' => (c.undone attempt live).without .applyOperation = c'')
        (Spec.storeRecovery (.cleared live) rfl) ?_
      rintro ⟨⟩ _ rfl
      exact Spec.pure (.cleared live)

/-! ## The three ways an attempt can stand -/

theorem complete_revision {live : Live} {state : DesiredState} :
    (complete live state).revision = state.revision := by
  unfold complete mergeLanPrefixAddr
  split
  · rfl
  · split <;> rfl

theorem numbered_eq {state : DesiredState} (h : state.revision ≠ 0) : numbered state = state :=
  if_neg h

/-- What no attempt touches. -/
structure Core.Frame (c c' : Core) : Prop where
  applyPrevious : c'.applyPrevious = c.applyPrevious
  preUpdateAccepted : c'.preUpdateAccepted = c.preUpdateAccepted
  bootstrapped : c'.bootstrapped = c.bootstrapped
  restorePreUpdate : c'.restorePreUpdate = c.restorePreUpdate
  boot : c'.boot = c.boot

theorem Core.Frame.refl : c.Frame c := ⟨rfl, rfl, rfl, rfl, rfl⟩

theorem Core.Frame.trans {c₁ c₂ : Core} (h : c.Frame c₁) (h' : c₁.Frame c₂) : c.Frame c₂ where
  applyPrevious := h'.applyPrevious.trans h.applyPrevious
  preUpdateAccepted := h'.preUpdateAccepted.trans h.preUpdateAccepted
  bootstrapped := h'.bootstrapped.trans h.bootstrapped
  restorePreUpdate := h'.restorePreUpdate.trans h.restorePreUpdate
  boot := h'.boot.trans h.boot

/-- The Accepted network and its records are as they were. -/
structure Core.Unchanged (c : Core) (attempt : Attempt) (c' : Core) : Prop extends
    Core.Frame c c' where
  desired : c'.desired = c.desired ∨ c'.desired = some (.parsed attempt.current)
  previousAccepted : c'.previousAccepted = c.previousAccepted
  applyAttribution : c'.applyAttribution = c.applyAttribution
  journal : c'.applyOperation = none ∨ c'.applyOperation = c.applyOperation

/-- The journals of an attempt that is not Accepted. -/
inductive Attempt.Writes (attempt : Attempt) : ApplyOperation → Prop where
  | applying : attempt.Writes (attempt.journal .applying)
  | pending {proposed : DesiredState} {id : String} {now expires : Nat} (live : Live)
      (hp : proposed = complete live attempt.proposed) :
      attempt.Writes ({ attempt with proposed := proposed }.pendingJournal id now expires)

/-- The journal holds what a recovery restores. While the state only awaits its confirmation, the
Accepted network is as it was. -/
structure Core.InFlight (c : Core) (attempt : Attempt) (operation : ApplyOperation) (c' : Core) :
    Prop extends Core.Frame c c' where
  journal : c'.applyOperation = some (.parsed operation)
  writes : attempt.Writes operation
  pending : operation.phase = .pendingConfirmation → c'.recoveryRequired = false →
    c'.desired = c.desired ∧ c'.previousAccepted = c.previousAccepted ∧
      c'.applyAttribution = c.applyAttribution ∧ c'.journalBoot = c'.boot

/-- The proposed state is Accepted, with the receipts of its record. -/
structure Core.Moved (c : Core) (attempt : Attempt) (c' : Core) : Prop extends
    Core.Frame c c' where
  desired : c'.desired = some (.parsed (complete c.live attempt.proposed))
  previousAccepted : c'.previousAccepted = some (.parsed attempt.current)
  applyAttribution : ∃ receipts, acceptedDraftReceipts attempt.oldAttribution
      attempt.current.revision attempt.actor attempt.draftVersion
      (complete c.live attempt.proposed).revision = .ok receipts ∧
    c'.applyAttribution = some (.parsed {
      revision := (complete c.live attempt.proposed).revision
      applying := attempt.actor, draftReceipts := receipts })
  journal : c'.applyOperation = none ∨
    c'.applyOperation = some (.parsed (attempt.journal .accepted))

/-- The cores that an attempt passes through. -/
inductive Core.Attempted (c : Core) (attempt : Attempt) (immediate : Bool) : Core → Prop where
  | unchanged {c' : Core} (h : c.Unchanged attempt c') : c.Attempted attempt immediate c'
  | inFlight {c' : Core} {operation : ApplyOperation} (h : c.InFlight attempt operation c') :
      c.Attempted attempt immediate c'
  | moved {c' : Core} (hi : immediate = true) (h : c.Moved attempt c') :
      c.Attempted attempt immediate c'

/-- How an attempt ends, with the word of its reply. -/
inductive Core.Ended (c : Core) (attempt : Attempt) (immediate : Bool) : Reply → Core → Prop where
  | unchanged {reply : Reply} {c' : Core} (hr : reply.ok = false) (h : c.Unchanged attempt c') :
      c.Ended attempt immediate reply c'
  | inFlight {reply : Reply} {c' : Core} {operation : ApplyOperation} (hr : reply.ok = false)
      (hf : c'.recoveryRequired = true) (h : c.InFlight attempt operation c') :
      c.Ended attempt immediate reply c'
  | pending {reply : Reply} {c' : Core} {operation : ApplyOperation} {now : Nat}
      (hi : immediate = false) (ho : reply.ok = true ∧ reply.outcome = some .pendingConfirmation)
      (hr : reply.revision = some attempt.proposed.revision)
      (hp : operation.phase = .pendingConfirmation) (hf : c'.recoveryRequired = false)
      (since : c.clock ≤ now) (till : now ≤ c'.clock)
      (hd : operation.deadlineBootNs = some (min (now + 120_000_000_000) (2 ^ 64 - 1)))
      (h : c.InFlight attempt operation c') : c.Ended attempt immediate reply c'
  | moved {reply : Reply} {c' : Core} (hi : immediate = true)
      (ho : reply.ok = true ∧ reply.outcome = some .accepted)
      (hr : reply.revision = some (complete c.live attempt.proposed).revision)
      (hf : c'.recoveryRequired = false) (h : c.Moved attempt c') :
      c.Ended attempt immediate reply c'
  | indeterminate {reply : Reply} {c' : Core} (hi : immediate = true) (hr : reply.ok = false)
      (ho : reply.restoration = some .required) (hf : c'.recoveryRequired = true)
      (h : c.Moved attempt c') :
      c.Ended attempt immediate reply c'

/-- The core once the journal is written. -/
def Core.journaled (c : Core) (operation : ApplyOperation) : Core :=
  { c with applyOperation := some (.parsed operation), journalBoot := c.boot }

theorem Core.Unchanged.refl {attempt : Attempt} : c.Unchanged attempt c :=
  ⟨.refl, .inl rfl, rfl, rfl, .inr rfl⟩

namespace AttemptsLemmas

variable {attempt : Attempt} {operation : ApplyOperation} {immediate : Bool}

theorem inFlight_reworked {c₁ c₂ : Core} (h : c.InFlight attempt operation c₁)
    (hr : c₁.guarded.Reworked true c₂) : c.InFlight attempt operation c₂ := by
  cases hr
  exact ⟨h.toFrame.trans ⟨rfl, rfl, rfl, rfl, rfl⟩, h.journal, h.writes, nofun⟩

theorem unchanged_undone {proposed : DesiredState} {c₁ : Core} (hfrom : attempt.From c)
    (h : c.InFlight attempt operation c₁) (live : Live) (flag : Bool) :
    c.Unchanged attempt
      { (c₁.undone { attempt with proposed := proposed } live).without .applyOperation with
        recoveryRequired := flag } :=
  ⟨h.toFrame.trans ⟨rfl, rfl, rfl, rfl, rfl⟩, .inr rfl, hfrom.oldPredecessor.symm,
    hfrom.oldAttribution.symm, .inl rfl⟩

theorem attempted_undoing {proposed : DesiredState} {c₁ c₂ : Core} (hfrom : attempt.From c)
    (h : c.InFlight attempt operation c₁)
    (hu : c₁.Undoing { attempt with proposed := proposed } c₂) : c.Attempted attempt immediate c₂ := by
  cases hu with
  | kept => exact .inFlight h
  | reworked hr => exact .inFlight (inFlight_reworked h hr)
  | cleared live => exact .unchanged (unchanged_undone hfrom h live true)
  | reopened live => exact .unchanged (unchanged_undone hfrom h live false)

theorem ended_failedApply {proposed : DesiredState} {reply : Reply} {c₁ c₂ : Core}
    (hfrom : attempt.From c) (h : c.InFlight attempt operation c₁)
    (hf : c₁.FailedApply { attempt with proposed := proposed } reply c₂) :
    c.Ended attempt immediate reply c₂ := by
  cases hf with
  | restored live => exact .unchanged rfl (unchanged_undone hfrom h live false)
  | guarded hr => exact .inFlight rfl hr.recoveryRequired (inFlight_reworked h hr)
  | cleared live => exact .unchanged rfl (unchanged_undone hfrom h live true)

theorem inFlight_journaled (hw : attempt.Writes operation) :
    c.InFlight attempt operation (c.journaled operation) :=
  ⟨⟨rfl, rfl, rfl, rfl, rfl⟩, rfl, hw, fun _ _ => ⟨rfl, rfl, rfl, rfl⟩⟩

theorem inFlight_guarded {c₁ : Core} (h : c.InFlight attempt operation c₁) :
    c.InFlight attempt operation c₁.guarded :=
  ⟨h.toFrame.trans ⟨rfl, rfl, rfl, rfl, rfl⟩, h.journal, h.writes, nofun⟩

theorem unchanged_guarded {c₁ : Core} (h : c.Unchanged attempt c₁) :
    c.Unchanged attempt c₁.guarded :=
  ⟨h.toFrame.trans ⟨rfl, rfl, rfl, rfl, rfl⟩, h.desired, h.previousAccepted, h.applyAttribution,
    h.journal⟩

theorem moved_guarded {c₁ : Core} (h : c.Moved attempt c₁) : c.Moved attempt c₁.guarded :=
  ⟨h.toFrame.trans ⟨rfl, rfl, rfl, rfl, rfl⟩, h.desired, h.previousAccepted, h.applyAttribution,
    h.journal⟩

theorem moved_cleared {c₁ : Core} (h : c.Moved attempt c₁) :
    c.Moved attempt (c₁.without .applyOperation) :=
  ⟨h.toFrame.trans ⟨rfl, rfl, rfl, rfl, rfl⟩, h.desired, h.previousAccepted, h.applyAttribution,
    .inl rfl⟩

/-- The journal of the attempt, with nothing else changed yet. -/
abbrev applyingCore (c : Core) (attempt : Attempt) : Core :=
  c.journaled (attempt.journal .applying)

theorem Attempt.retainAccepted_spec [Base64] :
    Steps (c.Attempted attempt immediate) (c.Ended attempt immediate) attempt.retainAccepted c
      fun _ c' => applyingCore c attempt = c' := by
  have kept : c.Unchanged attempt c := Core.Unchanged.refl
  have flying : c.InFlight attempt (attempt.journal .applying) (applyingCore c attempt) :=
    inFlight_journaled .applying
  refine Steps.bind (Steps.outcome (E := fun _ c' => c = c' ∨ applyingCore c attempt = c')
    (Q := fun _ c' => applyingCore c attempt = c')
    (Steps.durableWrite (.unchanged kept) (fun _ => .inl rfl) (fun _ => .inr rfl) rfl)) ?_
  rintro (cause | ⟨⟩) c₁ h
  · have hI : c.Attempted attempt immediate c₁ ∧ c.Attempted attempt immediate c₁.guarded := by
      rcases h with rfl | rfl
      · exact ⟨.unchanged kept, .unchanged (unchanged_guarded kept)⟩
      · exact ⟨.inFlight flying, .inFlight (inFlight_guarded flying)⟩
    refine Steps.bind (Steps.monadLift (Spec.operationRequiresRecovery hI.1)) ?_
    rintro required _ ⟨rfl, hclear, -⟩
    cases required with
    | true =>
      refine Steps.bind (Steps.attemptGuard hI.1 hI.2) ?_
      rintro guard _ rfl
      refine Steps.throw ?_
      rcases h with rfl | rfl
      · exact .unchanged rfl (unchanged_guarded kept)
      · exact .inFlight rfl rfl (inFlight_guarded flying)
    | false =>
      refine Steps.throw ?_
      rcases h with rfl | rfl
      · exact .unchanged rfl kept
      · rcases hclear rfl with hn | ⟨operation, ho, hp⟩
        · cases hn
        · obtain rfl : attempt.journal .applying = operation := by
            simpa [applyingCore, Core.journaled] using ho
          exact absurd rfl hp
  · exact Steps.pure h

/-- The journal of an attempt that changed nothing is dropped, or the attempt needs a recovery. -/
theorem Attempt.clearJournal_spec [Base64] {error : String} :
    Steps (c.Attempted attempt immediate) (c.Ended attempt immediate) (attempt.clearJournal error)
      (applyingCore c attempt) fun failures c' =>
        (failures = [] ∧ (applyingCore c attempt).without .applyOperation = c') ∨
          (failures ≠ [] ∧ applyingCore c attempt = c') := by
  have flying : c.InFlight attempt (attempt.journal .applying) (applyingCore c attempt) :=
    inFlight_journaled .applying
  have cleared : c.Unchanged attempt ((applyingCore c attempt).without .applyOperation) :=
    ⟨⟨rfl, rfl, rfl, rfl, rfl⟩, .inl rfl, rfl, rfl, .inl rfl⟩
  refine Steps.bind (Steps.outcome
    (E := fun _ c' => applyingCore c attempt = c' ∨
      (applyingCore c attempt).without .applyOperation = c')
    (Q := fun _ c' => (applyingCore c attempt).without .applyOperation = c')
    (Steps.durableRemove rfl (.inFlight flying) (fun _ => .inl rfl) (fun _ => .inr rfl) rfl)) ?_
  rintro (cause | ⟨⟩) c₁ h
  · rcases h with rfl | rfl
    · refine Steps.bind (Steps.monadLift (Spec.operationRequiresRecovery (.inFlight flying))) ?_
      rintro required _ ⟨rfl, hclear, -⟩
      cases required with
      | true => exact Steps.pure (.inr ⟨nofun, rfl⟩)
      | false =>
        rcases hclear rfl with hn | ⟨operation, ho, hp⟩
        · cases hn
        · obtain rfl : attempt.journal .applying = operation := by
            simpa [applyingCore, Core.journaled] using ho
          exact absurd rfl hp
    · refine Steps.bind (Steps.monadLift (Spec.operationRequiresRecovery (.unchanged cleared))) ?_
      rintro required _ ⟨rfl, -, hneeds⟩
      cases required with
      | true => exact absurd rfl (hneeds rfl)
      | false => exact Steps.throw (.unchanged rfl cleared)
  · exact Steps.pure (.inl ⟨rfl, h⟩)

theorem Attempt.suspendLanServices_spec [Base64] :
    Steps (c.Attempted attempt immediate) (c.Ended attempt immediate) attempt.suspendLanServices
      (applyingCore c attempt) fun _ c' => applyingCore c attempt = c' := by
  have flying : c.InFlight attempt (attempt.journal .applying) (applyingCore c attempt) :=
    inFlight_journaled .applying
  have cleared : c.Unchanged attempt ((applyingCore c attempt).without .applyOperation) :=
    ⟨⟨rfl, rfl, rfl, rfl, rfl⟩, .inl rfl, rfl, rfl, .inl rfl⟩
  refine Steps.bind (R := fun _ c' => applyingCore c attempt = c') (Steps.lift
    (Spec.silent uses_setLanServicesReady (.inFlight flying) fun _ => rfl)) ?_
  rintro (cause | generation) _ rfl
  · refine Steps.bind (R := fun _ c' => applyingCore c attempt = c') (Steps.monadLift
      (Spec.failure_silent uses_setLanServicesReady (.inFlight flying))) ?_
    rintro failures _ rfl
    refine Steps.bind (R := fun failures c' =>
        (failures = [] ∧ (applyingCore c attempt).without .applyOperation = c') ∨
          (failures ≠ [] ∧ applyingCore c attempt = c')) ?_ ?_
    · cases failures with
      | nil => exact clearJournal_spec
      | cons failure failures => exact Steps.pure (.inr ⟨nofun, rfl⟩)
    rintro failures c₁ (⟨rfl, rfl⟩ | ⟨hf, rfl⟩)
    · exact Steps.throw (.unchanged rfl cleared)
    · have hne : failures.isEmpty = false := by simpa using hf
      simp only [hne, Bool.false_eq_true, if_false]
      refine Steps.bind (R := fun _ c' => (applyingCore c attempt).guarded = c') (Steps.monadLift
        ((Spec.failure (E := Kept (applyingCore c attempt).guarded)
          (Q := fun _ c' => (applyingCore c attempt).guarded = c')
          (Steps.requireRecoveryGuard (.inFlight flying)
            (.inFlight (inFlight_guarded flying)))).mono ?_)) ?_
      · rintro _ _ (⟨-, _, h⟩ | ⟨-, _, h⟩) <;> exact h
      · rintro guard _ rfl
        exact Steps.throw (.inFlight rfl rfl (inFlight_guarded flying))
  · exact Steps.pure rfl

/-- While the journal says so, the attempt is in flight whatever the files hold. -/
theorem inFlight_applying {desired previous : Option (Raw DesiredState)}
    {actors : Option (Raw ApplyAttribution)} {live : Live} {clock : Nat} {flag : Bool} :
    c.InFlight attempt (attempt.journal .applying) { applyingCore c attempt with
      desired := desired, previousAccepted := previous, applyAttribution := actors
      live := live, clock := clock, recoveryRequired := flag } :=
  ⟨⟨rfl, rfl, rfl, rfl, rfl⟩, rfl, .applying, nofun⟩

/-- A step whose failure is undone. -/
theorem Attempt.orRestore_spec [Base64] {α : Type} {program : Netd α} {context : String → String}
    {proposed : DesiredState} {c₁ : Core} {F : String → Core → Prop} {Q : α → Core → Prop}
    (hfrom : attempt.From c) (hp : Steps (c.Attempted attempt immediate) F program c₁ Q)
    (hF : ∀ error c', F error c' → ∃ operation, c.InFlight attempt operation c') :
    Steps (c.Attempted attempt immediate) (c.Ended attempt immediate)
      ({ attempt with proposed := proposed }.orRestore program context) c₁ Q := by
  refine Steps.bind (Steps.outcome hp) ?_
  rintro (error | value) c₂ h
  · obtain ⟨operation, hflying⟩ := hF error c₂ h
    refine Steps.bind (R := fun reply c' => c.Ended attempt immediate reply c') ?_
      fun reply c' h => Steps.throw h
    refine Steps.monadLift (Spec.weaken Spec.restoreFailedApply ?_ ?_)
    · exact fun c' hu => attempted_undoing hfrom hflying hu
    · exact fun reply c' hf => ended_failedApply hfrom hflying hf
  · exact Steps.pure h

/-- The record of an immediate apply. -/
def attributionOf (attempt : Attempt) (revision : Nat) (receipts : List DraftReceipt) :
    ApplyAttribution :=
  { revision := revision, applying := attempt.actor, draftReceipts := receipts }

/-- The core once the proposed state is programmed and, without a confirmation, stored. -/
inductive Programmed (c : Core) (attempt : Attempt) (proposed : DesiredState) :
    Bool → Core → Prop where
  | stored {receipts : List DraftReceipt} (live : Live)
      (hr : acceptedDraftReceipts attempt.oldAttribution attempt.current.revision attempt.actor
        attempt.draftVersion proposed.revision = .ok receipts) :
      Programmed c attempt proposed true { applyingCore c attempt with
        desired := some (.parsed proposed), previousAccepted := some (.parsed attempt.current)
        applyAttribution := some (.parsed (attributionOf attempt proposed.revision receipts))
        live := live }
  | live (live : Live) :
      Programmed c attempt proposed false { applyingCore c attempt with live := live }

theorem Attempt.program_spec [Base64] :
    Steps (c.Attempted attempt immediate) (fun _ c' => c.InFlight attempt (attempt.journal .applying) c')
      (attempt.program immediate) (applyingCore c attempt) fun proposed c' =>
        proposed = complete c.live attempt.proposed ∧
          Programmed c attempt proposed immediate c' := by
  have moved (live : Live) : c.InFlight attempt (attempt.journal .applying)
      { applyingCore c attempt with live := live } := inFlight_applying
  refine Steps.bind (R := fun proposed c' => proposed = complete c.live attempt.proposed ∧
      ∃ live, c' = { applyingCore c attempt with live := live })
    (Steps.apply (fun live => .inFlight (moved live)) (fun _ => moved)
      fun _ live => ⟨rfl, live, rfl⟩) ?_
  rintro proposed _ ⟨hp, live, rfl⟩
  refine Steps.bind (R := fun _ c' => ∃ live, c' = { applyingCore c attempt with live := live })
    (Steps.network (.inFlight (moved live)) (fun _ => moved) fun live => ⟨live, rfl⟩) ?_
  rintro ⟨⟩ _ ⟨live, rfl⟩
  refine Steps.bind (R := fun _ c' => c' = { applyingCore c attempt with live := live })
    (Steps.silent uses_publishLanServices (.inFlight (moved live)) (fun _ => moved live)
      fun _ => rfl) ?_
  rintro ⟨⟩ _ rfl
  cases immediate with
  | false => exact Steps.pure ⟨hp, .live live⟩
  | true =>
    refine Steps.seq Steps.check (fun _ => id) (fun _ c' h => h ▸ moved live) ?_
    rintro receipts _ ⟨rfl, hr⟩
    refine Steps.bind (Steps.durableWrite (.inFlight (moved live)) (fun _ => moved live)
      (fun _ => inFlight_applying) (Q := fun _ c' => c' = { applyingCore c attempt with
        desired := some (.parsed proposed), live := live }) rfl) ?_
    rintro ⟨⟩ _ rfl
    refine Steps.bind (Steps.durableWrite (.inFlight inFlight_applying)
      (fun _ => inFlight_applying) (fun _ => inFlight_applying)
      (Q := fun _ c' => c' = { applyingCore c attempt with
        desired := some (.parsed proposed), previousAccepted := some (.parsed attempt.current)
        live := live }) rfl) ?_
    rintro ⟨⟩ _ rfl
    refine Steps.bind (Steps.durableWrite (.inFlight inFlight_applying)
      (fun _ => inFlight_applying) (fun _ => inFlight_applying)
      (Q := fun _ c' => Programmed c attempt proposed true c') (.stored live hr)) ?_
    rintro ⟨⟩ c' h
    exact Steps.pure ⟨hp, h⟩

/-- The durable write of the phase decides. -/
theorem Attempt.accept_spec [Base64] {proposed : DesiredState} {c₁ : Core} (hfrom : attempt.From c)
    (hp : proposed = complete c.live attempt.proposed) (h : Programmed c attempt proposed true c₁) :
    Steps (c.Attempted attempt true) (c.Ended attempt true)
      ({ attempt with proposed := proposed }.accept) c₁ (c.Ended attempt true) := by
  obtain ⟨receipts, live, hr⟩ : ∃ receipts live, acceptedDraftReceipts attempt.oldAttribution
      attempt.current.revision attempt.actor attempt.draftVersion proposed.revision =
        .ok receipts ∧ c₁ = { applyingCore c attempt with
          desired := some (.parsed proposed), previousAccepted := some (.parsed attempt.current)
          applyAttribution := some (.parsed (attributionOf attempt proposed.revision receipts))
          live := live } := by
    cases h with
    | stored live hr => exact ⟨_, live, hr, rfl⟩
  obtain ⟨hr, rfl⟩ := hr
  subst hp
  have moved (journal : Option (Raw ApplyOperation))
      (hj : journal = none ∨ journal = some (.parsed (attempt.journal .accepted)))
      (flag : Bool) : c.Moved attempt { applyingCore c attempt with
        desired := some (.parsed (complete c.live attempt.proposed))
        previousAccepted := some (.parsed attempt.current)
        applyAttribution := some (.parsed
          (attributionOf attempt (complete c.live attempt.proposed).revision receipts))
        live := live, applyOperation := journal, recoveryRequired := flag } :=
    ⟨⟨rfl, rfl, rfl, rfl, rfl⟩, rfl, rfl, ⟨receipts, hr, rfl⟩, hj⟩
  have flying (flag : Bool) : c.InFlight attempt (attempt.journal .applying)
      { applyingCore c attempt with
        desired := some (.parsed (complete c.live attempt.proposed))
        previousAccepted := some (.parsed attempt.current)
        applyAttribution := some (.parsed
          (attributionOf attempt (complete c.live attempt.proposed).revision receipts))
        live := live, recoveryRequired := flag } := inFlight_applying
  refine Steps.bind (Steps.outcome
    (E := fun _ c' => c.InFlight attempt (attempt.journal .applying) c' ∨ c.Moved attempt c')
    (Q := fun _ c' => c' = { applyingCore c attempt with
      desired := some (.parsed (complete c.live attempt.proposed))
      previousAccepted := some (.parsed attempt.current)
      applyAttribution := some (.parsed
        (attributionOf attempt (complete c.live attempt.proposed).revision receipts))
      live := live, applyOperation := some (.parsed (attempt.journal .accepted)) })
    (Steps.durableWrite (.inFlight (flying _)) (fun _ => .inl (flying _))
      (fun _ => .inr (moved _ (.inr rfl) _)) rfl)) ?_
  rintro (error | ⟨⟩) c₂ h₂
  · have hI : c.Attempted attempt true c₂ ∧ c.Attempted attempt true c₂.guarded := by
      rcases h₂ with h₂ | h₂
      · exact ⟨.inFlight h₂, .inFlight (inFlight_guarded h₂)⟩
      · exact ⟨.moved rfl h₂, .moved rfl (moved_guarded h₂)⟩
    refine Steps.bind (Steps.attemptGuard hI.1 hI.2) ?_
    rintro guard _ rfl
    refine Steps.pure ?_
    rcases h₂ with h₂ | h₂
    · exact .inFlight rfl rfl (inFlight_guarded h₂)
    · exact .indeterminate rfl rfl rfl rfl (moved_guarded h₂)
  · obtain rfl : c₂ = _ := h₂
    have stored := moved _ (.inr rfl) c.recoveryRequired
    have hf := hfrom.idle.recoveryRequired
    refine Steps.bind (R := fun _ c' => c.Moved attempt c' ∧ c'.recoveryRequired = false)
      (Steps.lift ((Steps.durableRemove
        (E := fun _ c' => c.Moved attempt c' ∧ c'.recoveryRequired = false)
        (Q := fun _ c' => c.Moved attempt c' ∧ c'.recoveryRequired = false) rfl
        (.moved rfl stored) (fun _ => ⟨stored, hf⟩) (fun _ => ⟨moved_cleared stored, hf⟩)
        ⟨moved_cleared stored, hf⟩).run.mono ?_)) ?_
    · rintro (_ | _) c' h' <;> exact h'
    · rintro result c' ⟨hm, hf⟩
      exact Steps.pure (.moved rfl ⟨rfl, rfl⟩ rfl hf hm)

theorem Attempt.awaitConfirmation_spec [Base64] {proposed : DesiredState} {c₁ : Core}
    (hfrom : attempt.From c) (hp : proposed = complete c.live attempt.proposed)
    (h : Programmed c attempt proposed false c₁) :
    Steps (c.Attempted attempt false) (c.Ended attempt false)
      ({ attempt with proposed := proposed }.awaitConfirmation) c₁ (c.Ended attempt false) := by
  obtain ⟨live, rfl⟩ : ∃ live, c₁ = { applyingCore c attempt with live := live } := by
    cases h with
    | live live => exact ⟨live, rfl⟩
  have flying (clock : Nat) : c.InFlight attempt (attempt.journal .applying)
      { applyingCore c attempt with live := live, clock := clock } := inFlight_applying
  refine Steps.bind (Attempt.orRestore_spec hfrom (F := fun _ c' =>
      c.InFlight attempt (attempt.journal .applying) c')
    (Q := fun _ c' => c' = { applyingCore c attempt with live := live })
    (Steps.silent (uses_ask silent_randomToken) (.inFlight (flying _)) (fun _ => flying _)
      fun _ => rfl) fun _ _ h => ⟨_, h⟩) ?_
  rintro id _ rfl
  refine Steps.bind (Attempt.orRestore_spec hfrom (F := fun _ c' =>
      c.InFlight attempt (attempt.journal .applying) c')
    (Q := fun now c' => c.clock ≤ now ∧
      c' = { applyingCore c attempt with live := live, clock := now })
    (Steps.bootTimeNs (.inFlight (flying _)) (fun _ clock _ => flying clock)
      fun _ since => ⟨since, rfl⟩) fun _ _ h => ⟨_, h⟩) ?_
  rintro now _ ⟨since, rfl⟩
  refine Steps.bind (R := fun _ c' =>
      c' = { applyingCore c attempt with live := live, clock := now })
    (Steps.monadLift (Spec.silent (uses_ask silent_unixMs) (.inFlight (flying _))
      fun _ => rfl)) ?_
  rintro unixMs _ rfl
  have hw : attempt.Writes ({ attempt with proposed := proposed }.pendingJournal id now
      (unixMs + 120_000)) := .pending c.live hp
  have waiting : c.InFlight attempt ({ attempt with proposed := proposed }.pendingJournal id now
      (unixMs + 120_000)) (Core.journaled { applyingCore c attempt with
        live := live, clock := now } ({ attempt with proposed := proposed }.pendingJournal id now
          (unixMs + 120_000))) :=
    ⟨⟨rfl, rfl, rfl, rfl, rfl⟩, rfl, hw, fun _ _ => ⟨rfl, rfl, rfl, rfl⟩⟩
  refine Steps.bind (Attempt.orRestore_spec hfrom
    (F := fun _ c' => ∃ operation, c.InFlight attempt operation c')
    (Q := fun _ c' => c' = Core.journaled { applyingCore c attempt with
        live := live, clock := now } ({ attempt with proposed := proposed }.pendingJournal id now
          (unixMs + 120_000)))
    (Steps.durableWrite (.inFlight (flying _)) (fun _ => ⟨_, flying _⟩)
      (fun _ => ⟨_, waiting⟩) rfl) fun _ _ h => h) ?_
  rintro ⟨⟩ _ rfl
  exact Steps.pure
    (.pending rfl ⟨rfl, rfl⟩ (by rw [hp, complete_revision]) rfl hfrom.idle.recoveryRequired since le_rfl rfl waiting)

theorem Attempt.execute_spec [Base64] {intent : ApplyIntent} (hfrom : attempt.From c) :
    Steps
      (c.Attempted attempt (!attempt.current.applyConfirmation || intent == .recoveryRestore))
      (c.Ended attempt (!attempt.current.applyConfirmation || intent == .recoveryRestore))
      (attempt.execute intent) c
      (c.Ended attempt (!attempt.current.applyConfirmation || intent == .recoveryRestore)) := by
  refine Steps.bind Attempt.retainAccepted_spec ?_
  rintro ⟨⟩ _ rfl
  refine Steps.bind Attempt.suspendLanServices_spec ?_
  rintro ⟨⟩ _ rfl
  dsimp only
  refine Steps.bind (@Attempt.orRestore_spec _ _ _ _ _ _ _ attempt.proposed _ _ _ hfrom
    Attempt.program_spec fun _ _ h => ⟨_, h⟩) ?_
  rintro proposed c₁ ⟨hp, h⟩
  cases himmediate : !attempt.current.applyConfirmation || intent == .recoveryRestore with
  | true =>
    rw [himmediate] at h
    simp only [if_true]
    exact Attempt.accept_spec hfrom hp h
  | false =>
    rw [himmediate] at h
    simp only [Bool.false_eq_true, if_false]
    exact Attempt.awaitConfirmation_spec hfrom hp h

end AttemptsLemmas

open AttemptsLemmas

/-- How a request to apply ends: refused, or with what the attempt leaves. -/
inductive Core.Requested [Base64] (c : Core) (input : Except String DesiredState)
    (baseRevision : Option Nat) (actor : Option Principal) (draftVersion : Option String)
    (immediate : DesiredState → Bool) : Reply → Core → Prop where
  | refused {reply : Reply} (hr : reply.ok = false) :
      c.Requested input baseRevision actor draftVersion immediate reply c
  | attempted {reply : Reply} {c' : Core} {attempt : Attempt} (hfrom : attempt.From c)
      (ha : attempt.Asks input baseRevision actor draftVersion)
      (h : c.Ended attempt (immediate attempt.current) reply c') :
      c.Requested input baseRevision actor draftVersion immediate reply c'

theorem Spec.applyDesiredRequest [Base64] {input : Except String DesiredState}
    {baseRevision : Option Nat} {actor : Option Principal} {draftVersion : Option String}
    {intent : ApplyIntent} :
    Spec (fun c' => c = c' ∨ ∃ attempt : Attempt, attempt.From c ∧
        attempt.Asks input baseRevision actor draftVersion ∧
        c.Attempted attempt
          (!attempt.current.applyConfirmation || intent == .recoveryRestore) c')
      (Fwos.applyDesiredRequest input baseRevision actor draftVersion intent) c
      (c.Requested input baseRevision actor draftVersion fun current =>
        !current.applyConfirmation || intent == .recoveryRestore) := by
  refine (Spec.handlerReply (E := c.Requested input baseRevision actor draftVersion _)
    (Q := c.Requested input baseRevision actor draftVersion _) ?_).mono fun _ _ h => h.elim id id
  refine Steps.seq (Steps.prepareApply (.inl rfl)) (fun _ => id) ?_ ?_
  · rintro reply _ ⟨hr, rfl⟩
    exact .refused hr
  · rintro attempt _ ⟨rfl, hfrom, ha⟩
    refine (Attempt.execute_spec hfrom).weaken ?_ ?_ ?_
    · exact fun c' h => .inr ⟨attempt, hfrom, ha, h⟩
    · exact fun _ _ h => .attempted hfrom ha h
    · exact fun _ _ h => .attempted hfrom ha h

end Fwos
