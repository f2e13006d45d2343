import Fwos.Netd.Ledger

/-!
# The files of an account

netd keeps a ledger in three files, which an apply in flight changes one after
another, and in the journal that says which of them count. A process that waits
for its next turn holds an account, whatever failed before.

* `Core.Stores`: the files hold a ledger; it is what a next start finds.
  `Core.Holds`: so does a process that waits, with the proposal it would accept.
* `Spec.turnAccount`: what a turn does to the account it was taken from, also
  where the process crashes.
-/

namespace Fwos

open Effects

/-! ## An ordinary start -/

/-- No host update asks for another network, and none is left over from an earlier format. -/
structure Core.Ordinary (c : Core) : Prop where
  bootstrapped : c.bootstrapped = true
  restorePreUpdate : c.restorePreUpdate = false
  applyPrevious : c.applyPrevious = none

namespace AccountsLemmas

variable {c : Core}

theorem ordinary_congr {c' : Core} (h : c.Ordinary) (hb : c'.bootstrapped = c.bootstrapped)
    (hr : c'.restorePreUpdate = c.restorePreUpdate) (hp : c'.applyPrevious = c.applyPrevious) :
    c'.Ordinary :=
  ⟨hb.trans h.bootstrapped, hr.trans h.restorePreUpdate, hp.trans h.applyPrevious⟩

theorem ordinary_frame {c' : Core} (h : c.Ordinary) (hf : c.Frame c') : c'.Ordinary :=
  ordinary_congr h hf.bootstrapped hf.restorePreUpdate hf.applyPrevious

theorem accepts_unique {left right : DesiredState} (hl : c.Accepts left) (hr : c.Accepts right) :
    left = right := by
  obtain ⟨raw, hd, rfl⟩ := hl
  obtain ⟨raw', hd', rfl⟩ := hr
  cases hd.symm.trans hd'
  rfl

theorem accepts_ne_zero {state : DesiredState} (h : c.Accepts state) : state.revision ≠ 0 := by
  obtain ⟨raw, -, rfl⟩ := h
  unfold numbered
  split
  · exact one_ne_zero
  · assumption

theorem accepts_congr {c' : Core} {state : DesiredState} (h : c.Accepts state)
    (hd : c'.desired = c.desired ∨ c'.desired = some (.parsed state)) : c'.Accepts state := by
  rcases hd with hd | hd
  · obtain ⟨raw, hr, rfl⟩ := h
    exact ⟨raw, hd.trans hr, rfl⟩
  · exact ⟨state, hd, (numbered_eq (accepts_ne_zero h)).symm⟩

theorem marker_injective {left right : Bool} (h : marker left = marker right) : left = right := by
  cases left <;> cases right <;> first | rfl | cases h

end AccountsLemmas

open AccountsLemmas

/-! ## The ledger of the files -/

/-- The stored files are the ledger. -/
structure Core.SettledAt (c : Core) (ledger : Ledger) : Prop extends Core.Ordinary c where
  journal : c.applyOperation = none ∨
    ∃ operation, c.applyOperation = some (.parsed operation) ∧ operation.phase = .accepted
  network : c.Accepts ledger.network
  predecessor : c.previousAccepted = ledger.predecessor
  attribution : c.applyAttribution = ledger.attribution

/-- The journal has the ledger, whatever the other files hold. -/
structure Core.AwaitingAt (c : Core) (operation : ApplyOperation) (ledger : Ledger) : Prop
    extends Core.Ordinary c where
  journal : c.applyOperation = some (.parsed operation)
  phase : operation.phase ≠ .accepted
  network : operation.accepted = ledger.network
  predecessor : operation.previousAccepted = ledger.predecessor
  attribution : operation.previousAttribution = ledger.attribution
  numbered : ledger.network.revision ≠ 0
  proposed : ∀ state, operation.proposed = some state →
    state.revision = ledger.network.revision + 1

inductive Core.Stores (c : Core) (ledger : Ledger) : Prop where
  | settled (h : c.SettledAt ledger)
  | awaiting {operation : ApplyOperation} (h : c.AwaitingAt operation ledger)

/-- The ledger that counts: the stored files, or what the journal keeps of them. -/
def Core.ledger (c : Core) : Option Ledger :=
  let stored := match c.desired with
    | some (.parsed raw) => some {
        network := numbered raw, predecessor := c.previousAccepted
        attribution := c.applyAttribution }
    | _ => none
  match c.applyOperation with
  | some (.parsed operation) =>
      if operation.phase = .accepted then stored else some {
        network := operation.accepted, predecessor := operation.previousAccepted
        attribution := operation.previousAttribution }
  | _ => stored

def ApplyOperation.proposal (operation : ApplyOperation) : Option Proposal :=
  operation.proposed.map fun network => {
    network := network, confirmationId := operation.confirmationId
    deadline := operation.deadlineBootNs, applying := operation.applying
    draftVersion := operation.draftVersion }

/-- The proposal that a confirmation would accept. -/
def Core.proposal (c : Core) : Option Proposal :=
  match c.recoveryRequired, c.applyOperation with
  | false, some (.parsed operation) =>
      if operation.phase = .pendingConfirmation then operation.proposal else none
  | _, _ => none

/-- What holds between two turns. While a confirmation is awaited, no file but the journal has
changed, and not since another boot. -/
structure Core.Holds (c : Core) (ledger : Ledger) (pending : Option Proposal) : Prop where
  stores : c.Stores ledger
  proposal : c.proposal = pending
  untouched : ∀ operation, c.applyOperation = some (.parsed operation) →
    operation.phase = .pendingConfirmation → c.recoveryRequired = false →
      c.Accepts ledger.network ∧ c.previousAccepted = ledger.predecessor ∧
        c.applyAttribution = ledger.attribution ∧ c.journalBoot = c.boot

variable {c c' : Core} {ledger next : Ledger} {operation : ApplyOperation} {live : Live}

theorem Core.Stores.ordinary (h : c.Stores ledger) : c.Ordinary := by
  cases h with
  | settled h => exact h.toOrdinary
  | awaiting h => exact h.toOrdinary

theorem Core.Stores.ledger_eq (h : c.Stores ledger) : c.ledger = some ledger := by
  cases h with
  | settled h =>
    obtain ⟨raw, stored, same⟩ := h.network
    have files : ledger = {
        network := numbered raw, predecessor := c.previousAccepted
        attribution := c.applyAttribution } := by
      rw [← same, h.predecessor, h.attribution]
    unfold Core.ledger
    rcases h.journal with hj | ⟨operation, hj, hp⟩
    · rw [hj, stored]
      exact congrArg some files.symm
    · rw [hj, stored]
      exact (if_pos hp).trans (congrArg some files.symm)
  | @awaiting operation h =>
    have kept : ledger = {
        network := operation.accepted, predecessor := operation.previousAccepted
        attribution := operation.previousAttribution } := by
      rw [h.network, h.predecessor, h.attribution]
    unfold Core.ledger
    rw [h.journal]
    exact (if_neg h.phase).trans (congrArg some kept.symm)

theorem Core.proposal_required (h : c.recoveryRequired = true) : c.proposal = none := by
  simp [Core.proposal, h]

theorem Core.SettledAt.proposal (h : c.SettledAt ledger) : c.proposal = none := by
  unfold Core.proposal
  rcases h.journal with hj | ⟨operation, hj, hp⟩
  · rw [hj]
    split <;> simp_all
  · rw [hj]
    split <;> simp_all

theorem Core.SettledAt.holds (h : c.SettledAt ledger) : c.Holds ledger none := by
  refine ⟨.settled h, h.proposal, fun operation hj hp _ => ?_⟩
  rcases h.journal with hn | ⟨other, ho, ha⟩
  · cases hn.symm.trans hj
  · cases ho.symm.trans hj
    exact absurd (hp.symm.trans ha) nofun

/-- Behind the guard the files are all that counts. -/
theorem Core.Stores.holds (h : c.Stores ledger) (required : c.recoveryRequired = true) :
    c.Holds ledger none :=
  ⟨h, Core.proposal_required required, fun _ _ _ clear => nomatch required.symm.trans clear⟩

/-- The files and the memory that a ledger and a proposal depend on. -/
structure Core.Alike (c c' : Core) : Prop where
  desired : c'.desired = c.desired
  previousAccepted : c'.previousAccepted = c.previousAccepted
  applyAttribution : c'.applyAttribution = c.applyAttribution
  journal : c'.applyOperation = c.applyOperation
  bootstrapped : c'.bootstrapped = c.bootstrapped
  restorePreUpdate : c'.restorePreUpdate = c.restorePreUpdate
  applyPrevious : c'.applyPrevious = c.applyPrevious

theorem Core.Alike.settledAt (same : c.Alike c') (h : c.SettledAt ledger) : c'.SettledAt ledger :=
  ⟨ordinary_congr h.toOrdinary same.bootstrapped same.restorePreUpdate same.applyPrevious,
    same.journal ▸ h.journal, accepts_congr h.network (.inl same.desired),
    same.previousAccepted.trans h.predecessor, same.applyAttribution.trans h.attribution⟩

theorem Core.AwaitingAt.of_journal (h : c.AwaitingAt operation ledger) (ordinary : c'.Ordinary)
    (journal : c'.applyOperation = c.applyOperation) : c'.AwaitingAt operation ledger :=
  ⟨ordinary, journal.trans h.journal, h.phase, h.network, h.predecessor, h.attribution, h.numbered,
    h.proposed⟩

theorem Core.Alike.stores (same : c.Alike c') (h : c.Stores ledger) : c'.Stores ledger := by
  cases h with
  | settled h => exact .settled (same.settledAt h)
  | awaiting h =>
    exact .awaiting (h.of_journal (ordinary_congr h.toOrdinary same.bootstrapped
      same.restorePreUpdate same.applyPrevious) same.journal)

theorem Core.Alike.holds {pending : Option Proposal} (same : c.Alike c')
    (required : c'.recoveryRequired = c.recoveryRequired) (boot : c'.boot = c.boot)
    (journalBoot : c'.journalBoot = c.journalBoot) (h : c.Holds ledger pending) :
    c'.Holds ledger pending := by
  refine ⟨same.stores h.stores, ?_, fun operation journal phase clear => ?_⟩
  · unfold Core.proposal
    rw [required, same.journal]
    exact h.proposal
  · obtain ⟨network, predecessor, attribution, here⟩ :=
      h.untouched operation (same.journal.symm.trans journal) phase (required.symm.trans clear)
    refine ⟨accepts_congr network (.inl same.desired), same.previousAccepted.trans predecessor,
      same.applyAttribution.trans attribution, ?_⟩
    rw [journalBoot, boot]
    exact here

theorem Core.SettledAt.of_idle (h : c.Stores ledger) (idle : c.Idle) : c.SettledAt ledger := by
  cases h with
  | settled h => exact h
  | awaiting h =>
    rcases idle.journal with hj | ⟨operation, hj, hp⟩
    · cases hj.symm.trans h.journal
    · cases hj.symm.trans h.journal
      exact absurd hp h.phase

/-- Where no recovery is pending, the three files are the ledger. -/
theorem Core.Holds.exact {pending : Option Proposal} (h : c.Holds ledger pending)
    (clear : c.Clear) : c.Accepts ledger.network ∧ c.previousAccepted = ledger.predecessor ∧
      c.applyAttribution = ledger.attribution := by
  cases h.stores with
  | settled settled => exact ⟨settled.network, settled.predecessor, settled.attribution⟩
  | @awaiting operation awaiting =>
    have phase : operation.phase = .pendingConfirmation := by
      rcases clear.notApplying with hn | ⟨other, ho, hp⟩
      · cases hn.symm.trans awaiting.journal
      · cases awaiting.journal.symm.trans ho
        have := awaiting.phase
        cases hphase : operation.phase <;> simp_all
    obtain ⟨network, predecessor, attribution, -⟩ :=
      h.untouched operation awaiting.journal phase clear.recoveryRequired
    exact ⟨network, predecessor, attribution⟩

/-- The journal of a proposal is the account's. -/
theorem Core.Holds.awaiting {pending : Option Proposal} (h : c.Holds ledger pending)
    (journal : c.applyOperation = some (.parsed operation))
    (phase : operation.phase = .pendingConfirmation) : c.AwaitingAt operation ledger := by
  cases h.stores with
  | settled settled =>
    rcases settled.journal with hn | ⟨other, ho, ha⟩
    · cases hn.symm.trans journal
    · cases ho.symm.trans journal
      cases phase.symm.trans ha
  | awaiting awaiting =>
    cases awaiting.journal.symm.trans journal
    exact awaiting

theorem Core.Holds.aside {pending : Option Proposal} (h : c.Holds ledger pending)
    (ha : c.Aside c') : c'.Holds ledger pending := by
  obtain ⟨live, preserved, rfl⟩ := ha
  exact @Core.Alike.holds c { c with live := live, preUpdateAccepted := preserved } _ _
    ⟨rfl, rfl, rfl, rfl, rfl, rfl, rfl⟩ rfl rfl rfl h

/-! ## Recovery -/

theorem Core.SettledAt.not_targets {target : RecoveryTarget} (h : c.SettledAt ledger)
    (ht : c.Targets target) : False := by
  cases ht with
  | journal ho hp =>
    rcases h.journal with hj | ⟨operation, hj, ha⟩
    · cases hj.symm.trans ho
    · cases hj.symm.trans ho
      exact hp ha
  | legacy hn ha => cases h.applyPrevious.symm.trans ha

theorem Core.AwaitingAt.target {target : RecoveryTarget} (h : c.AwaitingAt operation ledger)
    (ht : c.Targets target) : target = {
      operation := operation, marker := .applyOperation, restorePredecessor := true } := by
  cases ht with
  | journal ho hp =>
    cases h.journal.symm.trans ho
    rfl
  | legacy hn ha => cases h.applyPrevious.symm.trans ha

/-- A finished restoration stores the ledger of the journal, with the live addresses. -/
theorem Core.AwaitingAt.recovered {target : RecoveryTarget} {after : Live} {flag : Bool}
    (h : c.AwaitingAt operation ledger) (ht : c.Targets target) :
    Core.SettledAt { c.recovered target after with recoveryRequired := flag }
      (ledger.recovered c.live) := by
  obtain rfl := h.target ht
  have network : Core.Accepts { c.recovered {
      operation := operation, marker := .applyOperation, restorePredecessor := true } after with
        recoveryRequired := flag } (complete c.live ledger.network) := by
    refine ⟨complete c.live ledger.network, ?_, ?_⟩
    · rw [← h.network]
      rfl
    · exact (numbered_eq (by rw [complete_revision]; exact h.numbered)).symm
  exact ⟨ordinary_congr h.toOrdinary rfl rfl rfl, .inl rfl, network, h.predecessor, h.attribution⟩

theorem Core.guarded_alike : c.Alike c.guarded := ⟨rfl, rfl, rfl, rfl, rfl, rfl, rfl⟩

theorem Core.AwaitingAt.recovering (h : c.AwaitingAt operation ledger) (hr : c.Recovering c') :
    c'.AwaitingAt operation ledger ∨ c'.SettledAt (ledger.recovered c.live) := by
  cases hr with
  | unchanged => exact .inl h
  | guarded => exact .inl (h.of_journal (ordinary_congr h.toOrdinary rfl rfl rfl) rfl)
  | reworked ht hrw =>
    obtain rfl := h.target ht
    cases hrw
    exact .inl (h.of_journal (ordinary_congr h.toOrdinary rfl rfl rfl) rfl)
  | finished ht after => exact .inr (h.recovered ht)

theorem Core.SettledAt.recovering (h : c.SettledAt ledger) (hr : c.Recovering c') :
    c'.SettledAt ledger ∧ c'.clock = c.clock := by
  cases hr with
  | unchanged => exact ⟨h, rfl⟩
  | guarded => exact ⟨Core.guarded_alike.settledAt h, rfl⟩
  | reworked ht => exact (h.not_targets ht).elim
  | finished ht => exact (h.not_targets ht).elim

theorem Core.SettledAt.recoveredAs {revision : Nat} (h : c.SettledAt ledger)
    (hr : c.Recovered revision c') :
    c'.SettledAt ledger ∧ c'.clock = c.clock ∧ revision = ledger.network.revision := by
  cases hr with
  | reopened hf ho hp ha =>
    exact ⟨⟨ordinary_congr h.toOrdinary rfl rfl rfl, h.journal, h.network, h.predecessor,
      h.attribution⟩, rfl, congrArg DesiredState.revision (accepts_unique ha h.network)⟩
  | restored ht => exact (h.not_targets ht).elim

/-- What a recovery that succeeds leaves: the same ledger, with the live addresses if an apply was
in flight. -/
theorem Core.Stores.recovered {revision : Nat} (h : c.Stores ledger)
    (hr : c.Recovered revision c') : revision = ledger.network.revision ∧
      (c'.SettledAt ledger ∨ c'.SettledAt (ledger.recovered c.live)) := by
  cases h with
  | settled h =>
    obtain ⟨settled, -, same⟩ := h.recoveredAs hr
    exact ⟨same, .inl settled⟩
  | awaiting h =>
    cases hr with
    | reopened hf ho => cases ho.symm.trans h.journal
    | restored ht after =>
      refine ⟨?_, .inr (h.recovered ht)⟩
      rw [complete_revision, h.target ht, h.network]

/-! ## Attempts -/

section Attempts

variable {attempt : Attempt} {immediate : Bool}

theorem Core.SettledAt.unchanged (h : c.SettledAt ledger) (hfrom : attempt.From c)
    (hu : c.Unchanged attempt c') : c'.SettledAt ledger := by
  have desired := hu.desired
  rw [← accepts_unique h.network hfrom.current] at desired
  refine ⟨ordinary_frame h.toOrdinary hu.toFrame, ?_, accepts_congr h.network desired,
    hu.previousAccepted.trans h.predecessor, hu.applyAttribution.trans h.attribution⟩
  rcases hu.journal with hj | hj
  · exact .inl hj
  · exact hj ▸ h.journal

theorem Core.SettledAt.inFlight (h : c.SettledAt ledger) (hfrom : attempt.From c)
    (hi : c.InFlight attempt operation c') : c'.AwaitingAt operation ledger := by
  have current := accepts_unique hfrom.current h.network
  have retained : operation.accepted = attempt.current ∧ operation.phase ≠ .accepted ∧
      operation.previousAccepted = attempt.oldPredecessor ∧
      operation.previousAttribution = attempt.oldAttribution ∧
      ∀ state, operation.proposed = some state →
        state.revision = attempt.current.revision + 1 := by
    cases hi.writes with
    | applying => exact ⟨rfl, nofun, rfl, rfl, nofun⟩
    | pending live hp =>
      refine ⟨rfl, nofun, rfl, rfl, fun state hs => ?_⟩
      cases hs
      exact (hp ▸ complete_revision).trans hfrom.revision
  obtain ⟨accepted, phase, predecessor, attribution, proposed⟩ := retained
  exact ⟨ordinary_frame h.toOrdinary hi.toFrame, hi.journal, phase, accepted.trans current,
    predecessor.trans (hfrom.oldPredecessor.symm.trans h.predecessor),
    attribution.trans (hfrom.oldAttribution.symm.trans h.attribution),
    accepts_ne_zero h.network, current ▸ proposed⟩

theorem Core.SettledAt.inFlight_holds (h : c.SettledAt ledger) (hfrom : attempt.From c)
    (hi : c.InFlight attempt operation c') : c'.Holds ledger c'.proposal := by
  have awaiting := h.inFlight hfrom hi
  refine ⟨.awaiting awaiting, rfl, fun other journal phase clear => ?_⟩
  cases awaiting.journal.symm.trans journal
  obtain ⟨desired, predecessor, attribution, here⟩ := hi.pending phase clear
  exact ⟨accepts_congr h.network (.inl desired), predecessor.trans h.predecessor,
    attribution.trans h.attribution, here⟩

theorem Core.SettledAt.moved [Base64] {input : Except String DesiredState}
    {baseRevision : Option Nat} {actor : Option Principal} {draftVersion : Option String}
    {asked : DesiredState} (h : c.SettledAt ledger) (hfrom : attempt.From c)
    (ha : attempt.Asks input baseRevision actor draftVersion)
    (network : attempt.proposed = { asked with revision := attempt.current.revision + 1 })
    (hm : c.Moved attempt c') :
    ∃ next, c'.SettledAt next ∧
      ledger.Accepts (ledger.successor c.live asked) actor none draftVersion next := by
  have current := accepts_unique hfrom.current h.network
  have proposed : complete c.live attempt.proposed = ledger.successor c.live asked := by
    rw [network, current]
    rfl
  have revision : (ledger.successor c.live asked).revision = ledger.network.revision + 1 :=
    complete_revision
  obtain ⟨receipts, granted, attribution⟩ := hm.applyAttribution
  rw [proposed, ← hfrom.oldAttribution, h.attribution, current, ha.actor, ha.draftVersion]
    at granted
  rw [proposed, ha.actor] at attribution
  have stored := hm.desired
  rw [proposed] at stored
  have before := hm.previousAccepted
  rw [current] at before
  refine ⟨{ network := ledger.successor c.live asked, predecessor := c'.previousAccepted
            attribution := c'.applyAttribution }, ?_, rfl, revision, before, receipts, granted,
    attribution⟩
  refine ⟨ordinary_frame h.toOrdinary hm.toFrame, hm.journal.imp_right fun hj => ⟨_, hj, rfl⟩,
    ⟨_, stored, (numbered_eq ?_).symm⟩, rfl, rfl⟩
  rw [revision]
  exact Nat.succ_ne_zero _

end Attempts

/-! ## The acceptance of a proposal -/

/-- The core while the proposal of its journal is accepted: the journal decides. -/
inductive Core.Confirming (c : Core) (operation : ApplyOperation) (ledger : Ledger)
    (proposed : DesiredState) (confirming : Principal) : Core → Prop where
  | awaiting {c' : Core} (h : c'.AwaitingAt operation ledger) :
      c.Confirming operation ledger proposed confirming c'
  | accepted {c' : Core} {next : Ledger} (h : c'.SettledAt next)
      (accepts : ledger.Accepts proposed operation.applying (some confirming)
        operation.draftVersion next) (clock : c'.clock = c.clock)
      (journal : c'.applyOperation ≠ none) :
      c.Confirming operation ledger proposed confirming c'

theorem Steps.acceptAccount {proposed : DesiredState} {revision : Nat} {confirming : Principal}
    (h : c.AwaitingAt operation ledger) (hp : operation.proposed = some proposed)
    (hr : revision = proposed.revision) :
    Steps (c.Confirming operation ledger proposed confirming)
      (fun _ => c.Confirming operation ledger proposed confirming)
      (Fwos.acceptPending operation proposed revision confirming) c fun _ c' =>
        ∃ next, c'.SettledAt next ∧ ledger.Accepts proposed operation.applying (some confirming)
          operation.draftVersion next ∧ c'.clock = c.clock := by
  subst hr
  have moved (desired previous : Option (Raw DesiredState))
      (attribution : Option (Raw ApplyAttribution)) :
      c.Confirming operation ledger proposed confirming { c with
        desired := desired, previousAccepted := previous, applyAttribution := attribution } :=
    .awaiting (h.of_journal (ordinary_congr h.toOrdinary rfl rfl rfl) rfl)
  refine Steps.seq Steps.check (fun _ => id) (fun _ c' hk => hk ▸ moved _ _ _) ?_
  rintro receipts _ ⟨rfl, granted⟩
  let record : ApplyAttribution := {
    revision := proposed.revision, applying := operation.applying, confirming := some confirming
    draftReceipts := receipts }
  refine Steps.bind (Steps.durableWrite (moved _ _ _) (fun _ => moved _ _ _)
    (fun _ => moved _ _ _) (Q := fun _ c' => c' = { c with
      applyAttribution := some (.parsed record) }) rfl) ?_
  rintro ⟨⟩ _ rfl
  refine Steps.bind (Steps.durableWrite (moved _ _ _) (fun _ => moved _ _ _)
    (fun _ => moved _ _ _) (Q := fun _ c' => c' = { c with
      desired := some (.parsed proposed), applyAttribution := some (.parsed record) }) rfl) ?_
  rintro ⟨⟩ _ rfl
  refine Steps.bind (Steps.durableWrite (moved _ _ _) (fun _ => moved _ _ _)
    (fun _ => moved _ _ _) (Q := fun _ c' => c' = { c with
      desired := some (.parsed proposed)
      previousAccepted := some (.parsed operation.accepted)
      applyAttribution := some (.parsed record) }) rfl) ?_
  rintro ⟨⟩ _ rfl
  have revision : proposed.revision = ledger.network.revision + 1 := h.proposed proposed hp
  rw [h.attribution, h.network] at granted
  have settled : Core.SettledAt (Core.journaled { c with
      desired := some (.parsed proposed)
      previousAccepted := some (.parsed operation.accepted)
      applyAttribution := some (.parsed record) } (acceptedJournal operation)) {
        network := proposed, predecessor := some (.parsed ledger.network)
        attribution := some (.parsed record) } := by
    refine ⟨ordinary_congr h.toOrdinary rfl rfl rfl, .inr ⟨_, rfl, rfl⟩, ⟨proposed, rfl, ?_⟩, ?_,
      rfl⟩
    · exact (numbered_eq (revision ▸ Nat.succ_ne_zero _)).symm
    · rw [← h.network]
      rfl
  have accepts : ledger.Accepts proposed operation.applying (some confirming)
      operation.draftVersion {
        network := proposed, predecessor := some (.parsed ledger.network)
        attribution := some (.parsed record) } := ⟨rfl, revision, rfl, receipts, granted, rfl⟩
  exact Steps.durableWrite (moved _ _ _) (fun _ => moved _ _ _)
    (fun _ => .accepted settled accepts rfl nofun) ⟨_, settled, accepts, rfl⟩

/-- An operation that has not expired is read before its deadline. -/
theorem Spec.expiredAt {I : Core → Prop} (hI : ∀ clock, I { c with clock := clock }) :
    Spec I (Fwos.expired operation) c fun passed c' => ∃ clock, c.clock ≤ clock ∧
      c' = { c with clock := clock } ∧ (passed = false →
        ∃ deadline, operation.deadlineBootNs = some deadline ∧ clock < deadline) := by
  have read : Steps I
      (fun (_ : String) c' => ∃ clock, c.clock ≤ clock ∧ c' = { c with clock := clock })
      (pendingExpired operation) c fun passed c' => ∃ clock, c.clock ≤ clock ∧
        c' = { c with clock := clock } ∧ (passed = false →
          ∃ deadline, operation.deadlineBootNs = some deadline ∧ clock < deadline) := by
    unfold pendingExpired
    cases operation.deadlineBootNs with
    | none => exact Steps.throw ⟨c.clock, le_rfl, rfl⟩
    | some deadline =>
      refine Steps.bind (R := fun now c' => c.clock ≤ now ∧ c' = { c with clock := now })
        (Steps.bootTimeNs (hI _) (fun _ clock since => ⟨clock, since, rfl⟩)
          fun clock since => ⟨since, rfl⟩) ?_
      rintro now _ ⟨since, rfl⟩
      refine Steps.pure ⟨now, since, rfl, fun early => ⟨deadline, rfl, ?_⟩⟩
      simpa using early
  refine Spec.bind read.run ?_
  rintro (error | passed) c' h
  · obtain ⟨clock, since, rfl⟩ : ∃ clock, c.clock ≤ clock ∧ c' = { c with clock := clock } := h
    exact Spec.pure ⟨clock, since, rfl, nofun⟩
  · exact Spec.pure h

theorem Core.Holds.at_clock {pending : Option Proposal} {clock : Nat} (h : c.Holds ledger pending) :
    Core.Holds { c with clock := clock } ledger pending :=
  @Core.Alike.holds c { c with clock := clock } _ _ ⟨rfl, rfl, rfl, rfl, rfl, rfl, rfl⟩ rfl rfl
    rfl h

/-! ## What a turn makes of an account -/

/-- What a reply to a request says about the ledger before and after it, and the proposal. -/
structure Reply.Truthful (reply : Reply) (before after : Ledger) (pending : Option Proposal) :
    Prop where
  accepted : reply.ok = true → reply.outcome = some .accepted →
    before.Succeeds after ∧ reply.revision = some after.network.revision
  awaited : reply.ok = true → reply.outcome = some .pendingConfirmation →
    before.Keeps after ∧ ∃ proposal, pending = some proposal ∧
      reply.revision = some proposal.network.revision
  restored : reply.ok = true → reply.outcome = some .restored →
    before.Keeps after ∧ reply.revision = some after.network.revision
  kept : ¬ (reply.ok = true ∧ reply.outcome = some .accepted) →
    reply.restoration ≠ some .required → before.Keeps after

/-- The core holds what the turn may make of the account; `P` says how. The time that the turn
read lies before its end if the clock never goes back. -/
inductive Core.Becomes [Base64] (P : Core → Ledger → Option Proposal → Prop) (account : Account)
    (turn : Turn) (c' : Core) : Prop where
  | intro {now : Nat} {ledger : Ledger} {pending : Option Proposal} (since : account.clock ≤ now)
      (till : account.clock ≤ c'.clock → now ≤ c'.clock)
      (turned : account.Turned now turn ledger pending) (holds : P c' ledger pending)

/-- What a crash leaves. -/
abbrev Left (c : Core) (ledger : Ledger) (_ : Option Proposal) : Prop := c.Stores ledger

/-- What a request leaves that was answered so. -/
abbrev Says (before : Ledger) (reply : Reply) (c : Core) (ledger : Ledger)
    (pending : Option Proposal) : Prop :=
  c.Holds ledger pending ∧ reply.Truthful before ledger pending

/-- What a recovery leaves. -/
abbrev HoldsOn (before : Ledger) (c : Core) (ledger : Ledger) (pending : Option Proposal) : Prop :=
  c.Holds ledger pending ∧ before.Keeps ledger

/-- A reply that reports no success, of a request that keeps the network. -/
theorem Reply.truthful_kept {reply : Reply} {before after : Ledger} {pending : Option Proposal}
    (h : reply.ok = false) (kept : before.Keeps after) : reply.Truthful before after pending :=
  ⟨fun ok => (nomatch h.symm.trans ok), fun ok => (nomatch h.symm.trans ok),
    fun ok => (nomatch h.symm.trans ok), fun _ _ => kept⟩

theorem Reply.truthful_required {reply : Reply} {before after : Ledger}
    {pending : Option Proposal} (h : reply.ok = false)
    (required : reply.restoration = some .required) : reply.Truthful before after pending :=
  ⟨fun ok => (nomatch h.symm.trans ok), fun ok => (nomatch h.symm.trans ok),
    fun ok => (nomatch h.symm.trans ok), fun _ other => absurd required other⟩

theorem Reply.truthful_accepted {reply : Reply} {before after : Ledger}
    {pending : Option Proposal} (h : reply.ok = true ∧ reply.outcome = some .accepted)
    (succeeds : before.Succeeds after) (revision : reply.revision = some after.network.revision) :
    reply.Truthful before after pending :=
  ⟨fun _ _ => ⟨succeeds, revision⟩, fun _ other => (nomatch h.2.symm.trans other),
    fun _ other => (nomatch h.2.symm.trans other), fun other => absurd h other⟩

theorem Reply.truthful_restored {reply : Reply} {before after : Ledger}
    {pending : Option Proposal} (h : reply.ok = true ∧ reply.outcome = some .restored)
    (kept : before.Keeps after) (revision : reply.revision = some before.network.revision) :
    reply.Truthful before after pending :=
  ⟨fun _ other => (nomatch h.2.symm.trans other), fun _ other => (nomatch h.2.symm.trans other),
    fun _ _ => ⟨kept, kept.network.revision ▸ revision⟩, fun _ _ => kept⟩

section Turns

variable [Base64] {account : Account} {turn : Turn} {reply : Reply}
variable {P R : Core → Ledger → Option Proposal → Prop}

/-- A turn that reads no time that counts. -/
theorem Core.Becomes.untimed {ledger : Ledger} {pending : Option Proposal}
    (turned : account.Turned account.clock turn ledger pending) (holds : P c' ledger pending) :
    Core.Becomes P account turn c' :=
  .intro le_rfl id turned holds

theorem Core.Becomes.mono (h : Core.Becomes P account turn c')
    (imp : ∀ ledger pending, P c' ledger pending → R c' ledger pending) :
    Core.Becomes R account turn c' := by
  cases h with
  | intro since till turned holds => exact .intro since till turned (imp _ _ holds)

theorem Core.Becomes.left (h : Core.Becomes Core.Holds account turn c') :
    Core.Becomes Left account turn c' := h.mono fun _ _ holds => holds.stores

/-- The account itself, as it is. -/
theorem Core.Becomes.kept (h : c'.Holds account.ledger account.pending) :
    Core.Becomes Core.Holds account turn c' := .untimed .kept h

theorem Core.Becomes.stored (h : c'.Stores account.ledger) :
    Core.Becomes Left account turn c' := .untimed .kept h

theorem Core.Becomes.refused (h : c'.Holds account.ledger account.pending)
    (hr : reply.ok = false) : Core.Becomes (Says account.ledger reply) account turn c' :=
  .untimed .kept ⟨h, Reply.truthful_kept hr (.refl _)⟩

/-- The account without its proposal. -/
theorem Core.Becomes.abandoned (resolves : turn.Resolves) (h : c'.Holds account.ledger none) :
    Core.Becomes (HoldsOn account.ledger) account turn c' :=
  .untimed (.abandoned resolves) ⟨h, .refl _⟩

theorem Core.Becomes.recovered (resolves : turn.Resolves) (live : Live)
    (h : c'.SettledAt (account.ledger.recovered live)) :
    Core.Becomes (HoldsOn account.ledger) account turn c' :=
  .untimed (.recovered resolves live) ⟨h.holds, Ledger.keeps_recovered⟩

theorem Core.Becomes.held (h : Core.Becomes (HoldsOn account.ledger) account turn c') :
    Core.Becomes Core.Holds account turn c' := h.mono fun _ _ holds => holds.1

/-- A recovery that is reported as a failure of the request. -/
theorem Core.Becomes.failed (h : Core.Becomes (HoldsOn account.ledger) account turn c')
    (hr : reply.ok = false) : Core.Becomes (Says account.ledger reply) account turn c' :=
  h.mono fun _ _ holds => ⟨holds.1, Reply.truthful_kept hr holds.2⟩

/-- What a turn may do where it applies a network. -/
structure Account.Allows (account : Account) (turn : Turn) (input : Except String DesiredState)
    (applying : Option Principal) (draftVersion : Option String) (immediate : Bool) : Prop where
  accept : immediate = true → account.pending = none → ∀ asked live next, input = .ok asked →
    validate asked = .ok () →
    account.ledger.Accepts (account.ledger.successor live asked) applying none draftVersion next →
      account.Turned account.clock turn next none
  propose : immediate = false → account.pending = none → ∀ asked live id now, input = .ok asked →
    validate asked = .ok () →
      account.Turned now turn account.ledger (some {
        network := account.ledger.successor live asked, confirmationId := some id
        deadline := some (min (now + confirmationWindow) (2 ^ 64 - 1))
        applying := applying, draftVersion := draftVersion })

section Apply

variable {input : Except String DesiredState} {baseRevision : Option Nat}
variable {actor : Option Principal} {draftVersion : Option String} {attempt : Attempt}
variable {immediate : Bool}

theorem Core.Becomes.attempted (h : c.Holds account.ledger account.pending)
    (hfrom : attempt.From c) (asks : attempt.Asks input baseRevision actor draftVersion)
    (allows : account.Allows turn input actor draftVersion immediate)
    (ha : c.Attempted attempt immediate c') : Core.Becomes Left account turn c' := by
  have settled := Core.SettledAt.of_idle h.stores hfrom.idle
  have idle : account.pending = none := h.proposal.symm.trans settled.proposal
  cases ha with
  | unchanged hu => exact .stored (.settled (settled.unchanged hfrom hu))
  | inFlight hi => exact .stored (.awaiting (settled.inFlight hfrom hi))
  | moved hi hm =>
    obtain ⟨asked, given, valid, network⟩ := asks.network
    obtain ⟨next, stored, accepts⟩ := settled.moved hfrom asks network hm
    exact .untimed (allows.accept hi idle asked c.live next given valid accepts) (.settled stored)

theorem Core.Becomes.ended (h : c.Holds account.ledger account.pending)
    (clock : c.clock = account.clock) (hfrom : attempt.From c)
    (asks : attempt.Asks input baseRevision actor draftVersion)
    (allows : account.Allows turn input actor draftVersion immediate)
    (he : c.Ended attempt immediate reply c') :
    Core.Becomes (Says account.ledger reply) account turn c' := by
  have settled := Core.SettledAt.of_idle h.stores hfrom.idle
  have idle : account.pending = none := h.proposal.symm.trans settled.proposal
  obtain ⟨asked, given, valid, network⟩ := asks.network
  have proposed (live : Live) :
      complete live attempt.proposed = account.ledger.successor live asked := by
    rw [network, accepts_unique hfrom.current settled.network]
    rfl
  cases he with
  | unchanged hr hu => exact .refused (idle ▸ (settled.unchanged hfrom hu).holds) hr
  | inFlight hr required hi =>
    exact .refused (idle ▸ (Core.Stores.awaiting (settled.inFlight hfrom hi)).holds required) hr
  | @pending operation now hi ho hr phase clear since till due flying =>
    have holds := settled.inFlight_holds hfrom flying
    have journal : c'.proposal = operation.proposal := by
      unfold Core.proposal
      rw [clear, flying.journal]
      exact if_pos phase
    obtain ⟨live, id, proposal⟩ : ∃ live id, operation.proposal = some {
        network := account.ledger.successor live asked, confirmationId := some id
        deadline := some (min (now + confirmationWindow) (2 ^ 64 - 1))
        applying := actor, draftVersion := draftVersion } := by
      cases flying.writes with
      | applying => cases phase
      | @pending network id read expires live hp =>
        refine ⟨live, id, ?_⟩
        rw [proposed live] at hp
        rw [← asks.actor, ← asks.draftVersion]
        have deadline : min (read + 120_000_000_000) (2 ^ 64 - 1) =
            min (now + confirmationWindow) (2 ^ 64 - 1) := Option.some.inj due
        rw [← deadline, ← hp]
        rfl
    rw [journal, proposal] at holds
    refine .intro (clock ▸ since) (fun _ => till)
      (allows.propose hi idle asked live id now given valid) ⟨holds, ?_⟩
    have revision : reply.revision = some (account.ledger.successor live asked).revision := by
      rw [hr, ← proposed live, complete_revision]
    exact ⟨fun _ other => (nomatch ho.2.symm.trans other),
      fun _ _ => ⟨.refl _, _, rfl, revision⟩, fun _ other => (nomatch ho.2.symm.trans other),
      fun _ _ => .refl _⟩
  | moved hi ho hr _ hm =>
    obtain ⟨next, stored, accepts⟩ := settled.moved hfrom asks network hm
    refine .untimed (allows.accept hi idle asked c.live next given valid accepts)
      ⟨stored.holds, Reply.truthful_accepted ho accepts.succeeds ?_⟩
    rw [hr, proposed c.live, accepts.becomes]
  | indeterminate hi hr ho _ hm =>
    obtain ⟨next, stored, accepts⟩ := settled.moved hfrom asks network hm
    exact .untimed (allows.accept hi idle asked c.live next given valid accepts)
      ⟨stored.holds, Reply.truthful_required hr ho⟩

theorem Spec.applyAccount {intent : ApplyIntent} (h : c.Holds account.ledger account.pending)
    (clock : c.clock = account.clock)
    (allows : baseRevision.getD account.ledger.network.revision = account.ledger.network.revision →
      account.Allows turn input actor draftVersion
        (!account.ledger.network.applyConfirmation || intent == .recoveryRestore)) :
    Spec (Core.Becomes Left account turn)
      (Fwos.applyDesiredRequest input baseRevision actor draftVersion intent) c
      fun reply => Core.Becomes (Says account.ledger reply) account turn := by
  have allowed {attempt : Attempt} (hfrom : attempt.From c)
      (asks : attempt.Asks input baseRevision actor draftVersion) :
      account.Allows turn input actor draftVersion
        (!attempt.current.applyConfirmation || intent == .recoveryRestore) := by
    have current : attempt.current = account.ledger.network :=
      accepts_unique hfrom.current (Core.SettledAt.of_idle h.stores hfrom.idle).network
    rw [current]
    exact allows (current ▸ asks.base)
  refine Spec.weaken Spec.applyDesiredRequest ?_ ?_
  · rintro c' (rfl | ⟨attempt, hfrom, asks, ha⟩)
    · exact .stored h.stores
    · exact Core.Becomes.attempted h hfrom asks (allowed hfrom asks) ha
  · intro reply c' hr
    cases hr with
    | refused hr => exact .refused h hr
    | attempted hfrom asks he => exact Core.Becomes.ended h clock hfrom asks (allowed hfrom asks) he

end Apply

/-! ## Confirmations -/

/-- A recovery during a turn that may give up a proposal. -/
theorem Steps.recoverAccount (h : c.Stores account.ledger) (resolves : turn.Resolves) :
    Steps (Core.Becomes Left account turn)
      (fun _ => Core.Becomes (HoldsOn account.ledger) account turn) Fwos.recoverInterruptedApply c
      fun revision c' => Core.Becomes (HoldsOn account.ledger) account turn c' ∧
        revision = account.ledger.network.revision := by
  have recovering {c' : Core} (hr : c.Recovering c') :
      c'.Stores account.ledger ∨ c'.SettledAt (account.ledger.recovered c.live) := by
    cases h with
    | settled h => exact .inl (.settled (h.recovering hr).1)
    | awaiting h => exact (h.recovering hr).imp_left .awaiting
  refine Steps.weaken Steps.recoverInterruptedApply ?_ ?_ ?_
  · intro c' hr
    rcases recovering hr with h' | h'
    · exact .stored h'
    · exact (Core.Becomes.recovered resolves c.live h').held.left
  · rintro _ c' ⟨hr, required⟩
    rcases recovering hr with h' | h'
    · exact .abandoned resolves (h'.holds required)
    · exact .recovered resolves c.live h'
  · intro revision c' hr
    obtain ⟨same, h' | h'⟩ := h.recovered hr
    · exact ⟨.abandoned resolves h'.holds, same⟩
    · exact ⟨.recovered resolves c.live h', same⟩

/-- Once the next revision is Accepted, a recovery fails and changes nothing more. -/
theorem Steps.recoverAccepted (h : c.SettledAt next) (journal : c.applyOperation ≠ none)
    (becomes : ∀ c' : Core, c'.SettledAt next → c'.clock = c.clock →
      Core.Becomes P account turn c') (left : ∀ c', Core.Becomes P account turn c' →
        Core.Becomes Left account turn c') :
    Steps (Core.Becomes Left account turn) (fun _ => Core.Becomes P account turn)
      Fwos.recoverInterruptedApply c fun _ _ => False := by
  refine Steps.weaken Steps.recoverInterruptedApply ?_ ?_ ?_
  · intro c' hr
    obtain ⟨settled, same⟩ := h.recovering hr
    exact left c' (becomes c' settled same)
  · rintro _ c' ⟨hr, -⟩
    obtain ⟨settled, same⟩ := h.recovering hr
    exact becomes c' settled same
  · intro _ c' hr
    cases hr with
    | reopened hf ho => exact journal ho
    | restored ht => exact h.not_targets ht

/-- The proposal of a journal that is confirmed in time becomes Accepted. -/
theorem Steps.acceptedAccount {proposed : DesiredState} {revision : Nat} {confirming : Principal}
    (ready : c.AwaitingAt operation account.ledger) (since : account.clock ≤ c.clock)
    (hp : operation.proposed = some proposed) (hr : revision = proposed.revision)
    (resolves : turn.Resolves)
    (turned : ∀ next, account.ledger.Accepts proposed operation.applying (some confirming)
      operation.draftVersion next → account.Turned c.clock turn next none) :
    Steps (Core.Becomes Left account turn)
      (fun reply => Core.Becomes (Says account.ledger reply) account turn) (do
      match ← outcomeOf (Fwos.acceptPending operation proposed revision confirming) with
      | .error error =>
          let recovery ← outcomeOf Fwos.recoverInterruptedApply
          return { failed error with
            restoration := some (restorationOf recovery), recoveryError := errorOf recovery }
      | .ok () =>
          let _ ← outcomeOf (Fwos.durableRemove .applyOperation)
          return {
            ok := true, outcome := some .accepted, status := some .accepted
            revision := some revision, applying := operation.applying
            confirming := some confirming } : Handler Reply) c
      fun reply => Core.Becomes (Says account.ledger reply) account turn := by
  have accepted {next : Ledger} {P : Core → Ledger → Option Proposal → Prop}
      (accepts : account.ledger.Accepts proposed operation.applying (some confirming)
        operation.draftVersion next) (c' : Core) (here : c'.clock = c.clock)
      (holds : P c' next none) : Core.Becomes P account turn c' :=
    .intro since (fun _ => here.ge) (turned next accepts) holds
  have left (c' : Core) (hc : c.Confirming operation account.ledger proposed confirming c') :
      Core.Becomes Left account turn c' := by
    cases hc with
    | awaiting h' => exact .stored (.awaiting h')
    | accepted stored accepts here => exact accepted accepts c' here (.settled stored)
  refine Steps.bind (Steps.outcome ((Steps.acceptAccount ready hp hr).weaken left
    (fun _ _ => id) fun _ _ => id)) ?_
  rintro (error | ⟨⟩) c₁ h₁
  · cases (show c.Confirming operation account.ledger proposed confirming c₁ from h₁) with
    | awaiting h' =>
      refine Steps.bind (Steps.outcome (Steps.recoverAccount (.awaiting h') resolves)) ?_
      rintro (error | restored) c' hr
      · exact Steps.pure (hr.failed rfl)
      · exact Steps.pure (hr.1.failed rfl)
    | @accepted next stored accepts here journal =>
      -- Reported as failed after its effect: the next revision is Accepted.
      refine Steps.bind (Steps.outcome (Steps.recoverAccepted (P := fun c' ledger pending =>
        c'.Holds ledger pending ∧ ledger = next ∧ pending = none) stored journal
          (fun c' stored' same => accepted accepts c' (same.trans here) ⟨stored'.holds, rfl, rfl⟩)
          fun _ h => h.mono fun _ _ holds => holds.1.stores)) ?_
      rintro (error | restored) c' hr
      · exact Steps.pure (hr.mono fun _ _ holds => ⟨holds.1, Reply.truthful_required rfl rfl⟩)
      · exact hr.elim
  · obtain ⟨next, stored, accepts, here⟩ : ∃ next, c₁.SettledAt next ∧
        account.ledger.Accepts proposed operation.applying (some confirming)
          operation.draftVersion next ∧ c₁.clock = c.clock := h₁
    have cleared : (c₁.without .applyOperation).SettledAt next :=
      ⟨ordinary_congr stored.toOrdinary rfl rfl rfl, .inl rfl, stored.network,
        stored.predecessor, stored.attribution⟩
    have truthful {reply : Reply} (ho : reply.ok = true ∧ reply.outcome = some .accepted)
        (hv : reply.revision = some revision) : reply.Truthful account.ledger next none :=
      Reply.truthful_accepted ho accepts.succeeds (by rw [hv, hr, accepts.becomes])
    refine Steps.bind (Steps.outcome
      (E := fun _ c' => c'.SettledAt next ∧ c'.clock = c.clock)
      (Q := fun _ c' => c'.SettledAt next ∧ c'.clock = c.clock)
      (Steps.durableRemove rfl (accepted accepts c₁ here (.settled stored))
        (fun _ => ⟨stored, here⟩) (fun _ => ⟨cleared, here⟩) ⟨cleared, here⟩)) ?_
    rintro (error | ⟨⟩) c' ⟨stored', same⟩ <;>
      exact Steps.pure (accepted accepts c' same ⟨stored'.holds, truthful ⟨rfl, rfl⟩ rfl⟩)

theorem Steps.confirmAccount {revision : Nat} {confirmationId : String} {confirming : Principal}
    (h : c.Holds account.ledger account.pending) (clock : c.clock = account.clock)
    (journal : c.applyOperation = some (.parsed operation))
    (phase : operation.phase = .pendingConfirmation) (clear : c.recoveryRequired = false)
    (hturn : turn = .request
      (.confirmApply (some revision) (some confirmationId) (some confirming))) :
    Steps (Core.Becomes Left account turn)
      (fun reply => Core.Becomes (Says account.ledger reply) account turn)
      (Fwos.confirmPending operation revision confirmationId confirming) c
      fun reply => Core.Becomes (Says account.ledger reply) account turn := by
  have awaiting := h.awaiting journal phase
  have resolves : turn.Resolves := hturn ▸ trivial
  have pending : account.pending = operation.proposal := by
    rw [← h.proposal, Core.proposal, clear, journal]
    exact if_pos phase
  unfold Fwos.confirmPending
  cases hp : operation.proposed with
  | none =>
    have guarded : c.guarded.Holds account.ledger none :=
      (Core.guarded_alike.stores h.stores).holds rfl
    refine Steps.bind (Steps.attemptGuard (.stored h.stores) (.stored guarded.stores)) ?_
    rintro _ _ rfl
    exact Steps.pure ((Core.Becomes.abandoned resolves guarded).failed rfl)
  | some proposed =>
    dsimp only
    split
    · exact Steps.throw (.refused h rfl)
    next hmatch =>
    obtain ⟨hrevision, hid⟩ : revision = proposed.revision ∧
        operation.confirmationId = some confirmationId := by
      simpa only [Bool.or_eq_true, bne_iff_ne, not_or, not_not] using hmatch
    refine Steps.bind (Steps.monadLift (Spec.expiredAt fun _ => .stored h.at_clock.stores)) ?_
    rintro passed _ ⟨now, since, rfl, hearly⟩
    cases passed with
    | true =>
      refine Steps.bind (Steps.outcome (Steps.recoverAccount h.at_clock.stores resolves)) ?_
      rintro (error | restored) c' hr
      · exact Steps.throw (hr.failed rfl)
      · exact Steps.throw (hr.1.failed rfl)
    | false =>
      obtain ⟨deadline, due, early⟩ := hearly rfl
      have ready : Core.AwaitingAt { c with clock := now } operation account.ledger :=
        awaiting.of_journal (ordinary_congr awaiting.toOrdinary rfl rfl rfl) rfl
      refine Steps.acceptedAccount ready (clock ▸ since) hp hrevision resolves fun next accepts => ?_
      have proposal : account.pending = some {
          network := proposed, confirmationId := some confirmationId
          deadline := some deadline, applying := operation.applying
          draftVersion := operation.draftVersion } := by
        rw [pending, ApplyOperation.proposal, hp, hid, due]
        rfl
      rw [hturn, hrevision]
      exact .confirmed proposal rfl early accepts

theorem Spec.confirmAccounts {revision : Option Nat} {confirmationId : Option String}
    {confirming : Option Principal} (h : c.Holds account.ledger account.pending)
    (clock : c.clock = account.clock)
    (hturn : turn = .request (.confirmApply revision confirmationId confirming)) :
    Spec (Core.Becomes Left account turn)
      (Fwos.confirmApply revision confirmationId confirming) c
      fun reply => Core.Becomes (Says account.ledger reply) account turn := by
  have left : Core.Becomes Left account turn c := .stored h.stores
  refine (Spec.handlerReply (E := fun reply => Core.Becomes (Says account.ledger reply) account turn)
    (Q := fun reply => Core.Becomes (Says account.ledger reply) account turn) ?_).mono
    fun _ _ h => h.elim id id
  rcases revision with _ | revision
  · exact Steps.throw (.refused h rfl)
  rcases confirmationId with _ | confirmationId
  · exact Steps.throw (.refused h rfl)
  rcases confirming with _ | confirming
  · exact Steps.throw (.refused h rfl)
  refine Steps.bind (Steps.monadLift (Spec.recoveryPending left)) ?_
  rintro pending _ ⟨rfl, hclear⟩
  cases pending with
  | true => exact Steps.throw (.refused h rfl)
  | false =>
    refine Steps.bind (Steps.orReply (Steps.pendingOperation left) fun _ _ hk => hk ▸ .refused h rfl) ?_
    rintro (_ | operation) _ ⟨rfl, ho⟩
    · exact Steps.throw (.refused h rfl)
    · obtain ⟨journal, phase⟩ := ho
      exact Steps.confirmAccount h clock journal phase (hclear rfl).recoveryRequired hturn

theorem Spec.expireAccount (h : c.Holds account.ledger account.pending) (hturn : turn = .expire) :
    Spec (Core.Becomes Left account turn) Fwos.expirePendingConfirmation c
      fun _ => Core.Becomes Core.Holds account turn := by
  have left : Core.Becomes Left account turn c := .stored h.stores
  have resolves : turn.Resolves := hturn ▸ trivial
  refine Spec.bind (Steps.pendingOperation left).run ?_
  rintro (error | operation) c₁ h₁
  · obtain rfl : c = c₁ := h₁
    have guarded : c.guarded.Holds account.ledger none :=
      (Core.guarded_alike.stores h.stores).holds rfl
    refine Spec.bind (R := fun _ c' => c.guarded = c') ?_ ?_
    · refine (Steps.requireRecoveryGuard left (.stored guarded.stores)).run.mono ?_
      rintro (_ | _) c' hg <;> exact hg
    · rintro _ _ rfl
      exact Spec.pure (Core.Becomes.abandoned resolves guarded).held
  · obtain ⟨rfl, -⟩ := h₁
    cases operation with
    | none => exact Spec.pure (.kept h)
    | some operation =>
      refine Spec.bind (Spec.expiredAt fun _ => .stored h.at_clock.stores) ?_
      rintro passed _ ⟨now, since, rfl, -⟩
      cases passed with
      | false => exact Spec.pure (.kept h.at_clock)
      | true =>
        refine Spec.bind (Steps.recoverAccount h.at_clock.stores resolves).run ?_
        rintro (error | revision) c' hr
        · exact Spec.pure hr.held
        · exact Spec.pure hr.1.held

/-! ## Requests to apply -/

theorem Spec.applyDesiredAccount {desired : Except String DesiredState}
    {baseRevision : Option Nat} {applying : Option Principal} {draftVersion : Option String}
    (h : c.Holds account.ledger account.pending) (clock : c.clock = account.clock)
    (hturn : turn = .request (.applyDesired desired baseRevision applying draftVersion)) :
    Spec (Core.Becomes Left account turn)
      (Fwos.applyDesired desired baseRevision applying draftVersion) c
      fun reply => Core.Becomes (Says account.ledger reply) account turn := by
  have left : Core.Becomes Left account turn c := .stored h.stores
  refine (Spec.handlerReply (E := fun reply => Core.Becomes (Says account.ledger reply) account turn)
    (Q := fun reply => Core.Becomes (Says account.ledger reply) account turn) ?_).mono
    fun _ _ h => h.elim id id
  refine Steps.bind (R := fun _ c' => c = c')
    (Steps.monadLift (Spec.silent uses_pathExists left fun _ => rfl)) ?_
  rintro present _ rfl
  cases present with
  | false => exact Steps.throw (.refused h rfl)
  | true =>
    rcases baseRevision with _ | base
    · exact Steps.throw (.refused h rfl)
    · refine Steps.monadLift (Spec.applyAccount h clock fun same => ?_)
      obtain rfl : base = account.ledger.network.revision := same
      subst hturn
      refine ⟨?_, ?_⟩
      · intro immediate idle asked live next given valid accepts
        subst given
        refine .applied idle ?_ valid accepts
        simpa using immediate
      · intro immediate idle asked live id now given valid
        subst given
        refine .proposed live idle ?_ valid
        simpa using immediate

/-- A restoration is an apply of the predecessor that needs no confirmation. -/
theorem Spec.restoreAccount {applying : Option Principal}
    (h : c.Holds account.ledger account.pending) (clock : c.clock = account.clock)
    (hturn : turn = .request (.restorePrevious applying)) :
    Spec (Core.Becomes Left account turn) (Fwos.restorePreviousRequest applying) c
      fun reply => Core.Becomes (Says account.ledger reply) account turn := by
  have left : Core.Becomes Left account turn c := .stored h.stores
  have resolves : turn.Resolves := hturn ▸ trivial
  refine (Spec.handlerReply (E := fun reply => Core.Becomes (Says account.ledger reply) account turn)
    (Q := fun reply => Core.Becomes (Says account.ledger reply) account turn) ?_).mono
    fun _ _ h => h.elim id id
  refine Steps.bind (R := fun _ c' => c = c')
    (Steps.monadLift (Spec.silent uses_pathExists left fun _ => rfl)) ?_
  rintro present _ rfl
  cases present with
  | false => exact Steps.throw (.refused h rfl)
  | true =>
    refine Steps.bind (Steps.monadLift (Spec.recoveryPending left)) ?_
    rintro pending _ ⟨rfl, hclear⟩
    cases pending with
    | true =>
      refine Steps.bind (Steps.outcome (Steps.recoverAccount h.stores resolves)) ?_
      rintro (error | revision) c' hr
      · exact Steps.throw (hr.failed rfl)
      · obtain ⟨held, rfl⟩ := hr
        exact Steps.throw (held.mono fun ledger pending holds =>
          ⟨holds.1, Reply.truthful_restored ⟨rfl, rfl⟩ holds.2 rfl⟩)
    | false =>
      refine Steps.bind (Steps.monadLift (Spec.confirmationPending left)) ?_
      rintro pending _ ⟨rfl, hpending⟩
      cases pending with
      | true => exact Steps.throw (.refused h rfl)
      | false =>
        have settled := Core.SettledAt.of_idle h.stores ((hclear rfl).idle (hpending rfl))
        refine Steps.bind (Steps.orReply (Steps.acceptedDesired left) fun _ _ hk => hk ▸ .refused h rfl) ?_
        rintro current _ ⟨rfl, haccepts⟩
        have hcurrent := accepts_unique haccepts settled.network
        refine Steps.bind (Steps.monadLift (Spec.fsRead rfl left)) ?_
        rintro answer _ ⟨rfl, hr⟩
        have apply (previous : DesiredState)
            (retained : account.ledger.predecessor = some (.parsed previous)) :
            Steps (Core.Becomes Left account turn)
              (fun reply => Core.Becomes (Says account.ledger reply) account turn) (do
                if previous.revision == 0 || previous.revision ≥ current.revision then
                  throw ((failed
                    "previous Accepted network revision is not older than the current revision").withRevision
                      current.revision)
                Fwos.applyDesiredRequest (.ok previous) (some current.revision) applying none
                  .recoveryRestore : Handler Reply) c
              fun reply => Core.Becomes (Says account.ledger reply) account turn := by
          split
          · exact Steps.throw (.refused h rfl)
          next older =>
          simp only [Bool.or_eq_true, beq_iff_eq, decide_eq_true_eq, not_or, not_le, hcurrent]
            at older
          refine Steps.monadLift (Spec.applyAccount h clock fun _ => ⟨?_, ?_⟩)
          · intro _ idle asked live next given valid accepts
            cases given
            subst hturn
            exact .restored idle retained older.1 older.2 valid accepts
          · intro immediate
            simp at immediate
        generalize hg : c.get .previousAccepted = stored at hr
        cases hr with
        | absent => exact Steps.throw (.refused h rfl)
        | failed => exact Steps.throw (.refused h rfl)
        | content =>
          refine Steps.bind (Steps.orReply Steps.parse fun _ _ hk => hk ▸ .refused h rfl) ?_
          rintro previous _ ⟨rfl, rfl⟩
          exact apply previous (settled.predecessor.symm.trans hg)

/-! ## Every turn -/

/-- A request that may change the Accepted network is answered with a reply that says so. -/
theorem Spec.requestAccount {cmd : Request} (h : c.Holds account.ledger account.pending)
    (clock : c.clock = account.clock) (hw : (Turn.request cmd).Writes) :
    Spec (Core.Becomes Left account (.request cmd)) (handleCmd cmd) c fun answer c' =>
      ∃ reply, answer = .reply reply ∧
        Core.Becomes (Says account.ledger reply) account (.request cmd) c' := by
  cases cmd with
  | confirmApply revision confirmationId confirming =>
    exact Spec.bind (Spec.confirmAccounts h clock rfl) fun reply _ h => Spec.pure ⟨reply, rfl, h⟩
  | restorePrevious applying =>
    exact Spec.bind (Spec.restoreAccount h clock rfl) fun reply _ h => Spec.pure ⟨reply, rfl, h⟩
  | applyDesired desired baseRevision applying draftVersion =>
    exact Spec.bind (Spec.applyDesiredAccount h clock rfl) fun reply _ h =>
      Spec.pure ⟨reply, rfl, h⟩
  | _ => exact hw.elim

theorem Spec.turnAccount (h : c.Holds account.ledger account.pending)
    (clock : c.clock = account.clock) :
    Spec (Core.Becomes Left account turn) turn.program c
      fun _ => Core.Becomes Core.Holds account turn := by
  have other (hw : ¬ turn.Writes) : Spec (Core.Becomes Left account turn) turn.program c
      fun _ => Core.Becomes Core.Holds account turn :=
    (Spec.turn_other h.stores.ordinary.bootstrapped hw).weaken
      (fun _ ha => .stored (h.aside ha).stores) fun _ _ ha => .kept (h.aside ha)
  cases turn with
  | request cmd =>
    by_cases hw : (Turn.request cmd).Writes
    · refine Spec.bind (Spec.requestAccount h clock hw) ?_
      rintro _ c' ⟨reply, -, becomes⟩
      exact Spec.pure (becomes.mono fun _ _ holds => holds.1)
    · exact other hw
  | expire => exact Spec.expireAccount h rfl
  | refreshExposure => exact other id
  | followIpv6 prefixChanged => exact other id

end Turns

end Fwos
