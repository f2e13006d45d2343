import Fwos.Effects.Runs
import Fwos.Netd.Turns

/-!
# The ledger

What netd is for, without its files: it keeps one Accepted network, the network
before it and the record of who applied it, and it may hold one proposal that
awaits its confirmation.

* `Ledger` and `Account`: the Accepted network with its records, and the
  proposal.
* `Account.Turned`: what a turn may do to an account. `Account.Step`: the same
  with crashes, stops and starts, after which no proposal is left.
* `leads_run`, `older_run`: revisions never decrease along a run, and a revision
  is one network for life, up to the addresses that a completion adds.
-/

namespace Fwos

open Effects

/-! ## Added addresses -/

structure Iface.Gains (old new : Iface) : Prop where
  same : { new with addresses := old.addresses } = old
  addresses : old.addresses ⊆ new.addresses

/-- The same network, but for addresses that were added to its interfaces. -/
structure DesiredState.Gains (old new : DesiredState) : Prop where
  same : { new with interfaces := old.interfaces } = old
  interfaces : List.Forall₂ Iface.Gains old.interfaces new.interfaces

namespace LedgerLemmas

theorem iface_gains_refl (iface : Iface) : iface.Gains iface := ⟨rfl, List.Subset.refl _⟩

theorem iface_gains_trans {a b c : Iface} (first : a.Gains b) (second : b.Gains c) :
    a.Gains c := by
  refine ⟨?_, List.Subset.trans first.addresses second.addresses⟩
  rw [← first.same, ← second.same]

theorem forall₂_trans {α : Type} {R : α → α → Prop} (trans : ∀ a b c, R a b → R b c → R a c)
    {first second third : List α} (h : List.Forall₂ R first second)
    (h' : List.Forall₂ R second third) : List.Forall₂ R first third := by
  induction h generalizing third with
  | nil => exact h'
  | cons head _ ih =>
    cases h' with
    | cons head' tail' => exact .cons (trans _ _ _ head head') (ih tail')

end LedgerLemmas

open LedgerLemmas

theorem DesiredState.Gains.refl (state : DesiredState) : state.Gains state :=
  ⟨rfl, List.forall₂_same.mpr fun iface _ => iface_gains_refl iface⟩

theorem DesiredState.Gains.trans {a b c : DesiredState} (first : a.Gains b) (second : b.Gains c) :
    a.Gains c := by
  have interfaces : List.Forall₂ Iface.Gains a.interfaces c.interfaces :=
    @forall₂_trans _ Iface.Gains (fun _ _ _ => iface_gains_trans) _ _ _ first.interfaces
      second.interfaces
  refine ⟨?_, interfaces⟩
  rw [← first.same, ← second.same]

theorem DesiredState.Gains.revision {old new : DesiredState} (h : old.Gains new) :
    new.revision = old.revision := by
  have fields := congrArg DesiredState.revision h.same
  exact fields

theorem DesiredState.Extends.gains {old new : DesiredState} (h : old.Extends new) :
    old.Gains new :=
  ⟨h.same, h.interfaces.imp fun _ _ iface => ⟨iface.same, iface.addresses⟩⟩

theorem fillAddresses_gains {captured : Option (List String)} {iface : Iface} :
    iface.Gains (fillAddresses captured iface) := by
  unfold fillAddresses
  split
  · split
    next h =>
      simp only [Bool.and_eq_true, List.isEmpty_iff] at h
      exact ⟨rfl, by simp [h.2]⟩
    · exact iface_gains_refl iface
  · exact iface_gains_refl iface

/-- A completion adds addresses and changes nothing else. -/
theorem complete_gains {live : Live} {state : DesiredState} : state.Gains (complete live state) := by
  have filled : state.Gains (fillLive live state) := by
    refine ⟨rfl, ?_⟩
    rw [fillLive, List.forall₂_map_right_iff, List.forall₂_same]
    exact fun _ _ => fillAddresses_gains
  exact filled.trans mergeLanPrefixAddr_extends.gains

/-! ## The account -/

/-- The Accepted network, what is kept of the one before it, and the record of its apply. -/
structure Ledger where
  network : DesiredState
  predecessor : Option (Raw DesiredState)
  attribution : Option (Raw ApplyAttribution)
deriving DecidableEq

/-- A network that is live and not Accepted. -/
structure Proposal where
  network : DesiredState
  confirmationId : Option String
  /-- CLOCK_BOOTTIME, in nanoseconds. -/
  deadline : Option Nat
  applying : Option Principal
  draftVersion : Option String
deriving DecidableEq

structure Account where
  ledger : Ledger
  pending : Option Proposal
  clock : Nat

/-- What is proposed to follow this ledger where a network is asked for. -/
def Ledger.successor (ledger : Ledger) (live : Live) (asked : DesiredState) : DesiredState :=
  complete live { asked with revision := ledger.network.revision + 1 }

/-- The same network as it is programmed again, with the addresses that are live. -/
def Ledger.recovered (ledger : Ledger) (live : Live) : Ledger :=
  { ledger with network := complete live ledger.network }

/-- The ledger once this network is Accepted, with a receipt of its draft. -/
structure Ledger.Accepts (ledger : Ledger) (network : DesiredState)
    (applying confirming : Option Principal) (draftVersion : Option String) (next : Ledger) :
    Prop where
  becomes : next.network = network
  revision : network.revision = ledger.network.revision + 1
  predecessor : next.predecessor = some (.parsed ledger.network)
  attribution : ∃ receipts, acceptedDraftReceipts ledger.attribution ledger.network.revision
      applying draftVersion network.revision = .ok receipts ∧
    next.attribution = some (.parsed {
      revision := network.revision, applying := applying, confirming := confirming
      draftReceipts := receipts })

/-- How long a confirmation is awaited, in nanoseconds. -/
def confirmationWindow : Nat := 120_000_000_000

/-- The turns that may give up a proposal or program the Accepted network again. -/
def Turn.Resolves : Turn → Prop
  | .request (.confirmApply ..) | .request (.restorePrevious ..) | .expire => True
  | _ => False

/-- What a turn may make of an account, and `now` a time that it reads. -/
inductive Account.Turned [Base64] (account : Account) (now : Nat) :
    Turn → Ledger → Option Proposal → Prop where
  | kept {turn : Turn} : account.Turned now turn account.ledger account.pending
  | abandoned {turn : Turn} (h : turn.Resolves) : account.Turned now turn account.ledger none
  | recovered {turn : Turn} (h : turn.Resolves) (live : Live) :
      account.Turned now turn (account.ledger.recovered live) none
  | applied {asked : DesiredState} {applying : Option Principal} {draftVersion : Option String}
      {live : Live} {next : Ledger} (idle : account.pending = none)
      (off : account.ledger.network.applyConfirmation = false) (valid : validate asked = .ok ())
      (h : account.ledger.Accepts (account.ledger.successor live asked) applying none draftVersion
        next) :
      account.Turned now (.request (.applyDesired (.ok asked)
        (some account.ledger.network.revision) applying draftVersion)) next none
  | proposed {asked : DesiredState} {applying : Option Principal} {draftVersion : Option String}
      {id : String} (live : Live) (idle : account.pending = none)
      (on : account.ledger.network.applyConfirmation = true) (valid : validate asked = .ok ()) :
      account.Turned now (.request (.applyDesired (.ok asked)
        (some account.ledger.network.revision) applying draftVersion)) account.ledger
        (some {
          network := account.ledger.successor live asked, confirmationId := some id
          deadline := some (min (now + confirmationWindow) (2 ^ 64 - 1))
          applying := applying, draftVersion := draftVersion })
  | restored {previous : DesiredState} {applying : Option Principal} {live : Live} {next : Ledger}
      (idle : account.pending = none)
      (retained : account.ledger.predecessor = some (.parsed previous))
      (numbered : previous.revision ≠ 0)
      (older : previous.revision < account.ledger.network.revision)
      (valid : validate previous = .ok ())
      (h : account.ledger.Accepts (account.ledger.successor live previous) applying none none
        next) :
      account.Turned now (.request (.restorePrevious applying)) next none
  | confirmed {proposal : Proposal} {confirming : Principal} {deadline : Nat} {next : Ledger}
      (awaited : account.pending = some proposal) (due : proposal.deadline = some deadline)
      (early : now < deadline)
      (h : account.ledger.Accepts proposal.network proposal.applying (some confirming)
        proposal.draftVersion next) :
      account.Turned now (.request (.confirmApply (some proposal.network.revision)
        proposal.confirmationId (some confirming))) next none

/-- What becomes of a process: a turn, a crash during a turn, an orderly end, and a start, which
may fail or crash too. -/
inductive Happening where
  | turn (turn : Turn)
  | crash (turn : Turn)
  | stop
  | start

/-- The turn that a happening is about. -/
def Happening.turn? : Happening → Option Turn
  | .turn taken | .crash taken => some taken
  | .stop | .start => none

inductive Account.Step [Base64] (account : Account) : Happening → Account → Prop where
  | turn {turn : Turn} {ledger : Ledger} {pending : Option Proposal} {now clock : Nat}
      (since : account.clock ≤ now) (till : now ≤ clock)
      (h : account.Turned now turn ledger pending) :
      account.Step (.turn turn) { ledger := ledger, pending := pending, clock := clock }
  | crash {turn : Turn} {ledger : Ledger} {pending : Option Proposal} {now clock : Nat}
      (since : account.clock ≤ now) (till : now ≤ clock)
      (h : account.Turned now turn ledger pending) :
      account.Step (.crash turn) { ledger := ledger, pending := none, clock := clock }
  | stop : account.Step .stop { account with pending := none }
  /-- Another boot counts from zero. -/
  | kept {clock : Nat} :
      account.Step .start { ledger := account.ledger, pending := none, clock := clock }
  | recovered {clock : Nat} (live : Live) :
      account.Step .start
        { ledger := account.ledger.recovered live, pending := none, clock := clock }

/-! ## One network for life -/

/-- The same network with the same records; addresses may have been added. -/
structure Ledger.Keeps (ledger next : Ledger) : Prop where
  network : ledger.network.Gains next.network
  predecessor : next.predecessor = ledger.predecessor
  attribution : next.attribution = ledger.attribution

/-- The same revision of the same network, or a later revision. -/
inductive Ledger.Leads (ledger next : Ledger) : Prop where
  | same (h : ledger.Keeps next)
  | later (h : ledger.network.revision < next.network.revision)

/-- The predecessor, if it can be read, is an older revision. -/
def Ledger.Older (ledger : Ledger) : Prop :=
  ∀ previous, ledger.predecessor = some (.parsed previous) →
    previous.revision < ledger.network.revision

/-- The next revision, in place of the current one. -/
structure Ledger.Succeeds (ledger next : Ledger) : Prop where
  revision : next.network.revision = ledger.network.revision + 1
  predecessor : next.predecessor = some (.parsed ledger.network)

theorem Ledger.Keeps.refl (ledger : Ledger) : ledger.Keeps ledger := ⟨.refl _, rfl, rfl⟩

theorem Ledger.Keeps.trans {a b c : Ledger} (first : a.Keeps b) (second : b.Keeps c) :
    a.Keeps c :=
  ⟨first.network.trans second.network, second.predecessor.trans first.predecessor,
    second.attribution.trans first.attribution⟩

theorem Ledger.keeps_recovered {ledger : Ledger} {live : Live} :
    ledger.Keeps (ledger.recovered live) :=
  ⟨complete_gains, rfl, rfl⟩

theorem Ledger.Leads.refl (ledger : Ledger) : ledger.Leads ledger := .same (.refl _)

theorem Ledger.Leads.trans (a b c : Ledger) (first : a.Leads b) (second : b.Leads c) :
    a.Leads c := by
  cases first with
  | same kept =>
    cases second with
    | same kept' => exact .same (kept.trans kept')
    | later h' => exact .later (kept.network.revision ▸ h')
  | later h =>
    cases second with
    | same kept => exact .later (kept.network.revision ▸ h)
    | later h' => exact .later (h.trans h')

theorem Ledger.Accepts.succeeds {ledger next : Ledger} {network : DesiredState}
    {applying confirming : Option Principal} {draftVersion : Option String}
    (h : ledger.Accepts network applying confirming draftVersion next) : ledger.Succeeds next :=
  ⟨h.becomes ▸ h.revision, h.predecessor⟩

/-- What a step does to the Accepted network. -/
inductive Ledger.Follows (ledger next : Ledger) : Prop where
  | same (h : next = ledger)
  | recovered (live : Live) (h : next = ledger.recovered live)
  | succeeded (h : ledger.Succeeds next)

theorem Ledger.Follows.leads {ledger next : Ledger} (h : ledger.Follows next) :
    ledger.Leads next := by
  cases h with
  | same h => exact h ▸ .refl ledger
  | recovered live h => exact h ▸ .same Ledger.keeps_recovered
  | succeeded h => exact .later (h.revision ▸ Nat.lt_succ_self _)

theorem Ledger.Older.follows {ledger next : Ledger} (older : ledger.Older)
    (h : ledger.Follows next) : next.Older := by
  intro previous retained
  cases h with
  | same h =>
    subst h
    exact older previous retained
  | recovered live h =>
    subst h
    show previous.revision < (complete live ledger.network).revision
    rw [complete_revision]
    exact older previous retained
  | succeeded h =>
    obtain rfl : ledger.network = previous := by
      rw [h.predecessor] at retained
      cases retained
      rfl
    exact h.revision ▸ Nat.lt_succ_self _

/-- A step to another revision is one to the next. -/
theorem Ledger.Follows.succeeds {ledger next : Ledger} (h : ledger.Follows next)
    (changed : next.network.revision ≠ ledger.network.revision) : ledger.Succeeds next := by
  cases h with
  | same h => exact absurd (congrArg (·.network.revision) h) changed
  | recovered live h => exact absurd (h ▸ complete_revision) changed
  | succeeded h => exact h

section Runs

variable [Base64] {account account' : Account} {happening : Happening} {labels : List Happening}

theorem Account.Turned.follows {now : Nat} {turn : Turn} {ledger : Ledger}
    {pending : Option Proposal} (h : account.Turned now turn ledger pending) :
    account.ledger.Follows ledger := by
  cases h with
  | kept => exact .same rfl
  | abandoned => exact .same rfl
  | recovered _ live => exact .recovered live rfl
  | applied _ _ _ h => exact .succeeded h.succeeds
  | proposed => exact .same rfl
  | restored _ _ _ _ _ h => exact .succeeded h.succeeds
  | confirmed _ _ _ h => exact .succeeded h.succeeds

theorem Account.Step.follows (h : account.Step happening account') :
    account.ledger.Follows account'.ledger := by
  cases h with
  | turn _ _ h => exact h.follows
  | crash _ _ h => exact h.follows
  | stop => exact .same rfl
  | kept => exact .same rfl
  | recovered live => exact .recovered live rfl

/-- Revisions never decrease, and a revision is one network for life. -/
theorem leads_run (run : Runs Account.Step account labels account') :
    account.ledger.Leads account'.ledger :=
  @Runs.related _ _ _ _ _ _ (fun a b => a.ledger.Leads b.ledger) run (fun _ => .refl _)
    (fun _ _ _ => Ledger.Leads.trans _ _ _) fun _ _ _ h => h.follows.leads

theorem older_run (run : Runs Account.Step account labels account')
    (older : account.ledger.Older) : account'.ledger.Older :=
  @Runs.invariant _ _ _ _ _ _ (fun a => a.ledger.Older) run older
    fun _ _ _ older h => older.follows h.follows

/-! ## The awaited confirmation -/

/-- Where a proposal is from that is still there, what its turn did. -/
structure Account.Proposes (account : Account) (turn : Turn) (account' : Account)
    (proposal : Proposal) : Prop where
  idle : account.pending = none
  same : account'.ledger = account.ledger
  on : account.ledger.network.applyConfirmation = true
  asked : ∃ asked applying draftVersion live,
    turn = .request (.applyDesired (.ok asked) (some account.ledger.network.revision) applying
      draftVersion) ∧ validate asked = .ok () ∧ proposal.applying = applying ∧
      proposal.draftVersion = draftVersion ∧
      proposal.network = account.ledger.successor live asked
  due : ∃ now, account.clock ≤ now ∧ now ≤ account'.clock ∧
    proposal.deadline = some (min (now + confirmationWindow) (2 ^ 64 - 1))

/-- A step that makes a proposal is an apply. -/
theorem Account.Step.proposes {proposal : Proposal} (h : account.Step happening account')
    (fresh : account.pending ≠ some proposal) (awaited : account'.pending = some proposal) :
    ∃ turn, happening = .turn turn ∧ account.Proposes turn account' proposal := by
  cases h with
  | @turn turn ledger pending now clock since till h =>
    refine ⟨turn, rfl, ?_⟩
    cases h with
    | kept => exact absurd awaited fresh
    | abandoned => cases awaited
    | recovered => cases awaited
    | applied => cases awaited
    | proposed live idle on valid =>
      cases awaited
      exact ⟨idle, rfl, on, ⟨_, _, _, live, rfl, valid, rfl, rfl, rfl⟩, now, since, till, rfl⟩
    | restored => cases awaited
    | confirmed => cases awaited
  | crash => cases awaited
  | stop => cases awaited
  | kept => cases awaited
  | recovered => cases awaited

/-- A step that leaves a proposal awaited is a turn, and the ledger is as it was. -/
theorem Account.Step.awaits {proposal : Proposal} (h : account.Step happening account')
    (before : account.pending = some proposal) (after : account'.pending = some proposal) :
    (∃ turn, happening = .turn turn) ∧ account'.ledger = account.ledger := by
  cases h with
  | @turn turn ledger pending now clock since till h =>
    refine ⟨⟨turn, rfl⟩, ?_⟩
    cases h with
    | kept => rfl
    | abandoned => rfl
    | recovered => cases after
    | applied idle => cases idle.symm.trans before
    | proposed => rfl
    | restored idle => cases idle.symm.trans before
    | confirmed => cases after
  | crash => cases after
  | stop => cases after
  | kept => cases after
  | recovered => cases after

/-- The Accepted network changes to one that was asked for only by an apply where no confirmation
is required, by a restoration, or by the confirmation of the proposal. -/
inductive Account.Changes (account : Account) (turn : Turn) (next : Ledger) : Prop where
  | applied {asked : DesiredState} {applying : Option Principal} {draftVersion : Option String}
      (live : Live) (idle : account.pending = none)
      (off : account.ledger.network.applyConfirmation = false)
      (request : turn = .request (.applyDesired (.ok asked)
        (some account.ledger.network.revision) applying draftVersion))
      (valid : validate asked = .ok ())
      (becomes : next.network = account.ledger.successor live asked)
  | restored {previous : DesiredState} {applying : Option Principal} (live : Live)
      (idle : account.pending = none) (request : turn = .request (.restorePrevious applying))
      (retained : account.ledger.predecessor = some (.parsed previous))
      (older : previous.revision < account.ledger.network.revision)
      (valid : validate previous = .ok ())
      (becomes : next.network = account.ledger.successor live previous)
  | confirmed {proposal : Proposal} {confirming : Principal} {deadline now : Nat}
      (awaited : account.pending = some proposal)
      (request : turn = .request (.confirmApply (some proposal.network.revision)
        proposal.confirmationId (some confirming)))
      (since : account.clock ≤ now) (due : proposal.deadline = some deadline)
      (early : now < deadline) (becomes : next.network = proposal.network)

theorem Account.Turned.changes {now : Nat} {turn : Turn} {ledger : Ledger}
    {pending : Option Proposal} (h : account.Turned now turn ledger pending)
    (since : account.clock ≤ now)
    (changed : ledger.network.revision ≠ account.ledger.network.revision) :
    account.Changes turn ledger := by
  cases h with
  | kept => exact absurd rfl changed
  | abandoned => exact absurd rfl changed
  | recovered _ live => exact absurd complete_revision changed
  | @applied _ _ _ live _ idle off valid h => exact .applied live idle off rfl valid h.becomes
  | proposed => exact absurd rfl changed
  | @restored _ _ live _ idle retained _ older valid h =>
    exact .restored live idle rfl retained older valid h.becomes
  | confirmed awaited due early h => exact .confirmed awaited rfl since due early h.becomes

theorem Account.Step.changes (h : account.Step happening account')
    (changed : account'.ledger.network.revision ≠ account.ledger.network.revision) :
    ∃ turn, happening.turn? = some turn ∧ account.Changes turn account'.ledger := by
  cases h with
  | turn since _ h => exact ⟨_, rfl, h.changes since changed⟩
  | crash since _ h => exact ⟨_, rfl, h.changes since changed⟩
  | stop => exact absurd rfl changed
  | kept => exact absurd rfl changed
  | recovered live => exact absurd complete_revision changed

end Runs

end Fwos
