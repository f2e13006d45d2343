import Fwos.Netd.Processes

/-!
# The drafts that became Accepted

Which drafts became Accepted is told from the requests of a run and from what
became of the Accepted revision, not from what netd keeps in its files.

* `Chronicle`: the drafts so far, and the one that a confirmation would accept.
  It was named by the request after which netd began to wait, and a later
  request does not replace it.
* `Account.Chronicled`: the ledger's record is exactly that of these drafts.
  `chronicled_step` keeps it, `chronicled_run` has it along every run.
* `draft_receipts_exact`: what `was_draft_accepted` answers after any run.
-/

namespace Fwos

open Effects AccountsLemmas ProcessesLemmas ReceiptsLemmas

/-! ## A chronicle -/

/-- Who asks for a network, and the draft that it is. A restored network is of no draft. -/
def Turn.draft? : Turn → Option Acceptance
  | .request (.applyDesired _ _ applying draftVersion) => some ⟨applying, draftVersion⟩
  | .request (.restorePrevious applying) => some ⟨applying, none⟩
  | _ => none

/-- The process waits for the confirmation of a proposal. -/
def Process.waits (process : Process) : Bool :=
  process.running && process.world.proposal.isSome

/-- The revision of the Accepted network. -/
def Process.revision (process : Process) : Option Nat :=
  process.world.ledger.map (·.network.revision)

structure Chronicle where
  /-- What a confirmation would accept. -/
  asking : Option Acceptance
  accepted : List Acceptance

/-- What is asked for while netd waits: what it already waited for, or what a request named. -/
def Chronicle.asks (chronicle : Chronicle) (named : Option Acceptance) (waited waits : Bool) :
    Option Acceptance :=
  if waits then (if waited then chronicle.asking else named) else none

/-- With another Accepted revision, what a request named is accepted, and else what was asked. -/
def Chronicle.accepts (chronicle : Chronicle) (named : Option Acceptance) (changed : Bool) :
    List Acceptance :=
  if changed then chronicle.accepted ++ (named.or chronicle.asking).toList
  else chronicle.accepted

def Chronicle.enter (chronicle : Chronicle) (process : Process) (happening : Happening)
    (process' : Process) : Chronicle :=
  let named := happening.turn?.bind Turn.draft?
  { asking := chronicle.asks named process.waits process'.waits
    accepted := chronicle.accepts named (process.revision != process'.revision) }

/-- The account's record is that of the drafts that became Accepted, and its proposal is of the
draft that is asked for. -/
structure Account.Chronicled (account : Account) (chronicle : Chronicle) : Prop where
  recorded : Recorded account.ledger.attribution account.ledger.network.revision
    chronicle.accepted
  asked : ∀ proposal, account.pending = some proposal →
    chronicle.asking = some ⟨proposal.applying, proposal.draftVersion⟩

theorem Account.Chronicled.idle {account : Account} {chronicle : Chronicle}
    (pending : account.pending = none) (recorded : Recorded account.ledger.attribution
      account.ledger.network.revision chronicle.accepted) : account.Chronicled chronicle := by
  refine ⟨recorded, fun proposal awaited => ?_⟩
  rw [pending] at awaited
  cases awaited

namespace DraftHistoryLemmas

theorem waits_eq {process : Process} {account : Account} (h : process.Holds account) :
    process.waits = account.pending.isSome := by
  cases h with
  | running clock h =>
    show (true && _) = _
    rw [h.proposal, Bool.true_and]
  | stopped clock h pending =>
    rw [pending]
    rfl

theorem revision_eq {process : Process} {account : Account} (h : process.Holds account) :
    process.revision = some account.ledger.network.revision := by
  rw [Process.revision, h.ledger_eq]
  rfl

/-! ## One turn -/

variable {chronicle : Chronicle} {named : Option Acceptance} {ledger next : Ledger}

theorem recorded_keeps (kept : ledger.Keeps next)
    (recorded : Recorded ledger.attribution ledger.network.revision chronicle.accepted) :
    Recorded next.attribution next.network.revision
      (chronicle.accepts named (ledger.network.revision != next.network.revision)) := by
  rw [kept.attribution, kept.network.revision, bne_self_eq_false]
  exact recorded

/-- The record of the next revision is that of one more draft. -/
theorem recorded_accepts {network : DesiredState} {applying confirming : Option Principal}
    {draftVersion : Option String}
    (h : ledger.Accepts network applying confirming draftVersion next)
    (draft : named.or chronicle.asking = some ⟨applying, draftVersion⟩)
    (recorded : Recorded ledger.attribution ledger.network.revision chronicle.accepted) :
    Recorded next.attribution next.network.revision
      (chronicle.accepts named (ledger.network.revision != next.network.revision)) := by
  have later : next.network.revision = ledger.network.revision + 1 := h.succeeds.revision
  have changed : (ledger.network.revision != next.network.revision) = true :=
    bne_iff_ne.mpr (later ▸ Nat.ne_add_one _)
  rw [Chronicle.accepts, if_pos changed, draft]
  obtain ⟨receipts, carried, attribution⟩ := h.attribution
  rw [attribution, h.becomes]
  exact recorded.next (h.revision ▸ Nat.le_succ _) carried confirming

section Turned

variable [Base64] {account account' : Account} {now : Nat} {turn : Turn}
variable {pending : Option Proposal} {happening : Happening}

theorem recorded_turned (h : account.Turned now turn ledger pending)
    (chronicled : account.Chronicled chronicle) :
    Recorded ledger.attribution ledger.network.revision (chronicle.accepts turn.draft?
      (account.ledger.network.revision != ledger.network.revision)) := by
  have recorded := chronicled.recorded
  cases h with
  | kept => exact recorded_keeps (.refl _) recorded
  | abandoned => exact recorded_keeps (.refl _) recorded
  | recovered => exact recorded_keeps Ledger.keeps_recovered recorded
  | applied _ _ _ h => exact recorded_accepts h rfl recorded
  | proposed => exact recorded_keeps (.refl _) recorded
  | restored _ _ _ _ _ h => exact recorded_accepts h rfl recorded
  | confirmed awaited _ _ h => exact recorded_accepts h (chronicled.asked _ awaited) recorded

theorem asked_turned (h : account.Turned now turn ledger pending)
    (chronicled : account.Chronicled chronicle) (proposal : Proposal)
    (awaited : pending = some proposal) :
    chronicle.asks turn.draft? account.pending.isSome pending.isSome =
      some ⟨proposal.applying, proposal.draftVersion⟩ := by
  cases h with
  | kept =>
    rw [awaited]
    exact chronicled.asked proposal awaited
  | abandoned => cases awaited
  | recovered => cases awaited
  | applied => cases awaited
  | proposed live idle =>
    cases awaited
    rw [idle]
    rfl
  | restored => cases awaited
  | confirmed => cases awaited

/-- What happens to netd is entered in the chronicle as it is in the record. -/
theorem chronicled_step (h : account.Step happening account')
    (chronicled : account.Chronicled chronicle) :
    account'.Chronicled {
      asking := chronicle.asks (happening.turn?.bind Turn.draft?) account.pending.isSome
        account'.pending.isSome
      accepted := chronicle.accepts (happening.turn?.bind Turn.draft?)
        (account.ledger.network.revision != account'.ledger.network.revision) } := by
  cases h with
  | turn _ _ h => exact ⟨recorded_turned h chronicled, asked_turned h chronicled⟩
  | crash _ _ h => exact .idle rfl (recorded_turned h chronicled)
  | stop => exact .idle rfl (recorded_keeps (.refl _) chronicled.recorded)
  | kept => exact .idle rfl (recorded_keeps (.refl _) chronicled.recorded)
  | recovered => exact .idle rfl (recorded_keeps Ledger.keeps_recovered chronicled.recorded)

end Turned

/-! ## Runs -/

variable [Base64] {start : World} {raw : DesiredState} {before : List Acceptance}
variable {labels : List Happening} {process : Process}

/-- Along every run, netd's record is the chronicle's. -/
theorem chronicled_run (opens : start.Opens raw)
    (legacy : Legacy start.applyAttribution (numbered raw).revision before)
    (run : Runs (Recording Process.Step Chronicle.enter) (⟨start, true⟩, ⟨none, before⟩) labels
      (process, chronicle)) :
    ∃ account, process.Holds account ∧ account.Chronicled chronicle := by
  refine @Runs.invariant _ _ _ _ _ _ (fun s => ∃ account, s.1.Holds account ∧
    account.Chronicled s.2) run ⟨_, opens.holds, .idle rfl (recorded_legacy legacy)⟩ ?_
  intro ⟨first, entered⟩ happening ⟨second, entered'⟩ ⟨account, holds, chronicled⟩ ⟨step, same⟩
  obtain ⟨account', taken, holds'⟩ := process_simulates _ _ _ _ holds step
  have next := chronicled_step taken chronicled
  refine ⟨account', holds', ?_⟩
  rw [show entered' = entered.enter first happening second from same, Chronicle.enter,
    waits_eq holds, waits_eq holds', revision_eq holds, revision_eq holds']
  exact next

end DraftHistoryLemmas

open DraftHistoryLemmas

/-- Of the owners of drafts, each has exactly the latest of its own drafts that became Accepted. -/
theorem draft_receipts_exact [Base64] {start : World} {raw : DesiredState}
    (opens : start.Opens raw) {before : List Acceptance}
    (legacy : Legacy start.applyAttribution (numbered raw).revision before)
    {labels : List Happening} {w : World} {chronicle : Chronicle}
    (run : Runs (Recording Process.Step Chronicle.enter) (⟨start, true⟩, ⟨none, before⟩) labels
      (⟨w, true⟩, chronicle)) {ledger : Ledger} (accepted : w.ledger = some ledger)
    (owner : Principal) (version : String) :
    (∀ choices w' unused, (wasDraftAccepted (some ledger.network.revision) (some version)
      (some owner)).run.run semantics choices w = .done (.ok true) w' unused →
        latestDraft chronicle.accepted owner = some version) ∧
    (w.Clear → Answered 6
      (wasDraftAccepted (some ledger.network.revision) (some version) (some owner)).run w
      (.ok (decide (latestDraft chronicle.accepted owner = some version)))) := by
  obtain ⟨account, holds, chronicled⟩ := chronicled_run opens legacy run
  cases holds.ledger_eq.symm.trans accepted
  cases holds with
  | running clock held =>
    refine ⟨fun choices w' unused answered => ?_, fun clear => ?_⟩
    · obtain ⟨clear, -, -, -, found⟩ :=
        wp_run_done (Spec.wasDraftAccepted w rfl) (fun _ _ => trivial) answered rfl
      rw [(held.exact clear).2.2] at found
      exact chronicled.recorded.recordMatches_iff.mp found
    · obtain ⟨network, -, attribution⟩ := held.exact clear
      have latest : recordMatches w.applyAttribution account.ledger.network.revision owner version =
          decide (latestDraft chronicle.accepted owner = some version) := by
        rw [attribution, Bool.eq_iff_iff, decide_eq_true_iff]
        exact chronicled.recorded.recordMatches_iff
      exact latest ▸ Answered.wasDraftAccepted clear network

namespace Receipts

open Processes (opened guarded proposed confirmation confirmed)

def ben : Principal := { source := "local", subject := "2", username := "ben" }

def secondTurn : Turn :=
  .request (.applyDesired (.ok network) (some 2) (some ben) (some "second"))

/-- After the confirmation of the first draft, another owner applies a second one. -/
def carriedOver : Effects.Outcome Choice World Unit :=
  letI := noKeys
  secondTurn.program.run semantics (List.replicate 80 {}) confirmed.state

def asked : Chronicle :=
  (⟨none, []⟩ : Chronicle).enter ⟨opened, true⟩ (.turn draftTurn) ⟨proposed.state, true⟩

def received : Chronicle :=
  asked.enter ⟨proposed.state, true⟩ (.turn (.request confirmation)) ⟨confirmed.state, true⟩

def chronicle : Chronicle :=
  received.enter ⟨confirmed.state, true⟩ (.turn secondTurn) ⟨carriedOver.state, true⟩

/-- The second draft became Accepted at once, and nothing is left in flight. -/
theorem carriedOver_accepted : carriedOver.value? = some () ∧
    carriedOver.state.ledger.map (·.network.revision) = some 3 ∧
    carriedOver.state.recoveryRequired = false ∧ carriedOver.state.applyOperation = none ∧
    carriedOver.state.applyPrevious = none ∧
    chronicle.accepted = [⟨some admin, some "draft"⟩, ⟨some ben, some "second"⟩] := by
  decide +kernel

theorem carriedOver_run :
    letI := noKeys
    Runs (Recording Process.Step Chronicle.enter) (⟨opened, true⟩, ⟨none, []⟩)
      [.turn draftTurn, .turn (.request confirmation), .turn secondTurn]
      (⟨carriedOver.state, true⟩, chronicle) := by
  let _ : Base64 := noKeys
  obtain ⟨unused, hr⟩ := Outcome.eq_done carriedOver_accepted.1
  have first : Runs (Recording Process.Step Chronicle.enter) (⟨opened, true⟩, ⟨none, []⟩)
      [.turn draftTurn] (⟨proposed.state, true⟩, asked) :=
    .single ⟨Processes.proposed_step, rfl⟩
  have second : Runs (Recording Process.Step Chronicle.enter) (⟨opened, true⟩, ⟨none, []⟩)
      [.turn draftTurn, .turn (.request confirmation)] (⟨confirmed.state, true⟩, received) :=
    first.snoc ⟨Processes.confirmed_step, rfl⟩
  exact second.snoc ⟨.turn hr, rfl⟩

/-- The first owner's draft was confirmed, and its receipt is carried by the record of the second
draft. -/
theorem draft_receipts_carried :
    Answered 6 (wasDraftAccepted (some 3) (some "draft") (some admin)).run carriedOver.state
      (.ok true) ∧
    Answered 6 (wasDraftAccepted (some 3) (some "second") (some ben)).run carriedOver.state
      (.ok true) ∧
    Answered 6 (wasDraftAccepted (some 3) (some "draft") (some ben)).run carriedOver.state
      (.ok false) := by
  let _ : Base64 := noKeys
  obtain ⟨-, current, required, idle, previous, history⟩ := carriedOver_accepted
  obtain ⟨ledger, accepted, revision⟩ := Option.map_eq_some_iff.mp current
  have clear : carriedOver.state.Clear := ⟨required, .inl idle, previous⟩
  have answers (owner : Principal) (version : String) :=
    (draft_receipts_exact Processes.opened_opens (.absent rfl) carriedOver_run accepted owner
      version).2 clear
  rw [revision, history] at answers
  refine ⟨?_, ?_, ?_⟩
  · exact answers admin "draft"
  · exact answers ben "second"
  · exact answers ben "draft"

end Receipts

end Fwos
