import Fwos.Netd.Accounts
import Fwos.Netd.Receipts

/-!
# Runs of netd

A process takes one turn after another until it crashes or stops, and the next
one starts on the files it left. Any effect may fail and any point may be the
last.

* `Process.Step`: one turn, crash, stop or start of netd's own programs.
* `ledger_refined`: every run of them is a run of the abstract ledger, and
  where no recovery is pending the three files are that ledger exactly.
* `one_network_for_life`, `accepted_changes`, `replies_truthful`: what follows
  for the Accepted network of a run.
-/

namespace Fwos

open Effects AccountsLemmas

variable {c c' : Core} {ledger : Ledger}

/-! ## A start -/

theorem numbered_complete_comm {live : Live} {raw : DesiredState} :
    numbered (complete live raw) = complete live (numbered raw) := by
  unfold numbered
  rw [complete_revision]
  split
  · unfold complete mergeLanPrefixAddr fillLive
    dsimp only [lanServicePrefix, captureIface, captureNames, exposesUi]
    split
    · rfl
    · split <;> rfl
  · rfl

theorem Core.SettledAt.resumed (h : c.SettledAt ledger) (hr : c.Resumed c') :
    c'.SettledAt ledger ∨ c'.SettledAt (ledger.recovered c.live) := by
  have ordinary := ordinary_frame h.toOrdinary hr.toFrame
  have journal : c'.applyOperation = none ∨
      ∃ operation, c'.applyOperation = some (.parsed operation) ∧ operation.phase = .accepted := by
    rcases hr.journal with hj | hj
    · exact .inl hj
    · exact hj ▸ h.journal
  have predecessor := hr.previousAccepted.trans h.predecessor
  have attribution := hr.applyAttribution.trans h.attribution
  rcases hr.desired with hd | ⟨raw, before, after⟩
  · exact .inl ⟨ordinary, journal, accepts_congr h.network (.inl hd), predecessor, attribution⟩
  · refine .inr ⟨ordinary, journal, ⟨_, after, ?_⟩, predecessor, attribution⟩
    have network : ledger.network = numbered raw :=
      accepts_unique h.network ⟨raw, before, rfl⟩
    show complete c.live ledger.network = _
    rw [network, numbered_complete_comm]

/-- What a start leaves, wherever it ends: the ledger it found, or the same with the live
addresses. -/
theorem Core.Stores.starting (h : c.Stores ledger) (hs : c.Starting c') :
    c'.Stores ledger ∨ c'.Stores (ledger.recovered c.live) := by
  cases hs with
  | unchanged => exact .inl h
  | recovering hr =>
    have guarded : c.guarded.Stores ledger := Core.guarded_alike.stores h
    cases guarded with
    | settled settled => exact .inl (.settled (settled.recovering hr).1)
    | awaiting awaiting => exact (awaiting.recovering hr).imp .awaiting .settled
  | resuming idle hr =>
    exact ((Core.SettledAt.of_idle h idle).resumed hr).imp .settled .settled

theorem Core.Stores.started (h : c.Stores ledger) (hs : c.Started c') :
    c'.Holds ledger none ∨ c'.Holds (ledger.recovered c.live) none := by
  have guarded : c.guarded.Stores ledger := Core.guarded_alike.stores h
  cases hs with
  | recovered hr => exact (guarded.recovered hr).2.imp Core.SettledAt.holds Core.SettledAt.holds
  | guarded hr required =>
    refine (Core.Stores.starting h (.recovering hr)).imp ?_ ?_
    · exact fun stores => stores.holds required
    · exact fun stores => stores.holds required
  | resumed idle hr =>
    exact ((Core.SettledAt.of_idle h idle).resumed hr).imp Core.SettledAt.holds
      Core.SettledAt.holds

theorem stores_restarted {w w' : World} (h : w.Stores ledger) (hw : w.Restarted w') :
    w'.Stores ledger :=
  Core.Alike.stores ⟨hw.files .desired, hw.files .previousAccepted, hw.files .applyAttribution,
    hw.files .applyOperation, marker_injective (hw.files .bootstrapped),
    marker_injective (hw.files .restorePreUpdate), hw.files .applyPrevious⟩ h

/-! ## Processes -/

/-- The world, and whether a process of netd answers requests in it. -/
structure Process where
  world : World
  running : Bool

inductive Process.Step [Base64] : Process → Happening → Process → Prop where
  | turn {w w' : World} {turn : Turn} {choices unused : List Choice}
      (hr : turn.program.run semantics choices w = .done () w' unused) :
      Process.Step ⟨w, true⟩ (.turn turn) ⟨w', true⟩
  | crash {w w' : World} {turn : Turn} {choices : List Choice}
      (hr : turn.program.run semantics choices w = .crashed w') :
      Process.Step ⟨w, true⟩ (.crash turn) ⟨w', false⟩
  | stop {w : World} : Process.Step ⟨w, true⟩ .stop ⟨w, false⟩
  | started {w w' w'' : World} {choices unused : List Choice} (hw : w.Restarted w')
      (hr : startup.run.run semantics choices w' = .done (.ok ()) w'' unused) :
      Process.Step ⟨w, false⟩ .start ⟨w'', true⟩
  | failed {w w' w'' : World} {choices unused : List Choice} {error : String}
      (hw : w.Restarted w')
      (hr : startup.run.run semantics choices w' = .done (.error error) w'' unused) :
      Process.Step ⟨w, false⟩ .start ⟨w'', false⟩
  | crashed {w w' w'' : World} {choices : List Choice} (hw : w.Restarted w')
      (hr : startup.run.run semantics choices w' = .crashed w'') :
      Process.Step ⟨w, false⟩ .start ⟨w'', false⟩

/-- The process holds this account, or its files hold the ledger for the next one. -/
inductive Process.Holds : Process → Account → Prop where
  | running {w : World} {account : Account} (clock : w.clock = account.clock)
      (h : w.Holds account.ledger account.pending) : Process.Holds ⟨w, true⟩ account
  | stopped {w : World} {account : Account} (clock : w.clock = account.clock)
      (h : w.Stores account.ledger) (pending : account.pending = none) :
      Process.Holds ⟨w, false⟩ account

/-! ## The clock -/

theorem clock_set {w : World} {file : File} {content : Option (Content file)} :
    (w.set file content).clock = w.clock := by
  cases file <;> cases content <;> rfl

theorem clock_effect {fault : Option Fault} {w changed : World} (h : changed.clock = w.clock) :
    (effect fault w changed).2.clock = w.clock := by
  unfold effect
  split <;> first | rfl | exact h

/-- No operation turns the clock back. -/
theorem exec_clock {op : Op} {choice : Choice} {w : World} :
    w.clock ≤ (exec op choice w).2.clock := by
  cases op with
  | bootTimeNs =>
    simp only [exec]
    split <;> exact Nat.le_add_right ..
  | write file content => exact (clock_effect clock_set).ge
  | remove file =>
    simp only [exec]
    split
    · exact (clock_effect clock_set).ge
    · exact le_rfl
  | nftApply script =>
    simp only [exec]
    split
    · exact (@clock_effect choice.nftFault w (w.install script) rfl).ge
    · exact le_rfl
  | read file =>
    simp only [exec]
    split <;> exact le_rfl
  | nftCheck script =>
    simp only [exec]
    split <;> exact le_rfl
  | ifaceCidrs nic =>
    simp only [exec]
    split <;> exact le_rfl
  | randomToken =>
    simp only [exec]
    split <;> exact le_rfl
  | _ => exact le_rfl

theorem uses_any {α : Type} {program : Prog α} : Uses (fun _ => True) program := by
  induction program with
  | pure value => trivial
  | call op next ih => exact ⟨trivial, ih⟩

/-- What a program does it does at a later time. -/
theorem Spec.later {α : Type} {I : Core → Prop} {program : Prog α} {Q : α → Core → Prop}
    (h : Spec I program c Q) :
    Spec (fun c' => I c' ∧ c.clock ≤ c'.clock) program c
      fun value c' => Q value c' ∧ c.clock ≤ c'.clock := by
  rintro w rfl
  have later : program.wp semantics (fun _ => True) (fun w' : World => w.clock ≤ w'.clock)
      (fun _ w' => w.clock ≤ w'.clock) w :=
    wp_of_uses uses_any (fun _ _ _ _ _ since => since.trans exec_clock) le_rfl
  exact wp_and (h w rfl) later

/-! ## The simulation -/

theorem Core.Becomes.exists [Base64] {P : Core → Ledger → Option Proposal → Prop}
    {account : Account} {turn : Turn} (h : Core.Becomes P account turn c')
    (later : account.clock ≤ c'.clock) : ∃ now ledger pending, account.clock ≤ now ∧
      now ≤ c'.clock ∧ account.Turned now turn ledger pending ∧ P c' ledger pending := by
  cases h with
  | intro since till turned holds => exact ⟨_, _, _, since, till later, turned, holds⟩

/-- Every step of netd is a step of the ledger. -/
theorem process_simulates [Base64] :
    Simulates Process.Holds Process.Step Account.Step := by
  intro process account happening process' holds step
  cases step with
  | turn hr =>
    cases holds with
    | running clock h =>
      obtain ⟨becomes, later⟩ :=
        wp_run_done ((Spec.turnAccount h clock).later _ rfl) (fun _ _ => trivial) hr
      obtain ⟨now, ledger, pending, since, till, turned, held⟩ := becomes.exists (clock ▸ later)
      exact ⟨_, .turn since till turned, .running rfl held⟩
  | crash hr =>
    cases holds with
    | running clock h =>
      obtain ⟨becomes, later⟩ :=
        wp_run_crashed ((Spec.turnAccount h clock).later _ rfl) (fun _ _ => trivial) hr
      obtain ⟨now, ledger, pending, since, till, turned, left⟩ := becomes.exists (clock ▸ later)
      exact ⟨_, .crash since till turned, .stopped rfl left rfl⟩
  | stop =>
    cases holds with
    | running clock h => exact ⟨_, .stop, .stopped clock h.stores rfl⟩
  | started hw hr =>
    cases holds with
    | stopped clock h =>
      have stores := stores_restarted h hw
      have spec := Steps.startup stores.ordinary.bootstrapped stores.ordinary.restorePreUpdate
        hw.recoveryRequired
      rcases stores.started (wp_run_done (spec _ rfl) (fun _ _ => trivial) hr) with held | held
      · exact ⟨_, .kept, .running rfl held⟩
      · exact ⟨_, .recovered _, .running rfl held⟩
  | failed hw hr =>
    cases holds with
    | stopped clock h =>
      have stores := stores_restarted h hw
      have spec := Steps.startup stores.ordinary.bootstrapped stores.ordinary.restorePreUpdate
        hw.recoveryRequired
      rcases stores.starting (wp_run_done (spec _ rfl) (fun _ _ => trivial) hr) with left | left
      · exact ⟨_, .kept, .stopped rfl left rfl⟩
      · exact ⟨_, .recovered _, .stopped rfl left rfl⟩
  | crashed hw hr =>
    cases holds with
    | stopped clock h =>
      have stores := stores_restarted h hw
      have spec := Steps.startup stores.ordinary.bootstrapped stores.ordinary.restorePreUpdate
        hw.recoveryRequired
      rcases stores.starting (wp_run_crashed (spec _ rfl) (fun _ _ => trivial) hr) with left | left
      · exact ⟨_, .kept, .stopped rfl left rfl⟩
      · exact ⟨_, .recovered _, .stopped rfl left rfl⟩

/-! ## Runs -/

/-- An Accepted network that nothing is in flight from, and no Host update asks to replace. -/
structure World.Opens (w : World) (raw : DesiredState) : Prop extends Core.Ordinary w.toCore where
  journal : w.applyOperation = none
  network : w.desired = some (.parsed raw)

/-- The account that a run begins with. -/
def World.account (w : World) (raw : DesiredState) : Account where
  ledger := {
    network := numbered raw, predecessor := w.previousAccepted
    attribution := w.applyAttribution }
  pending := none
  clock := w.clock

theorem World.Opens.holds {w : World} {raw : DesiredState} (h : w.Opens raw) :
    Process.Holds ⟨w, true⟩ (w.account raw) :=
  .running rfl (Core.SettledAt.holds ⟨h.toOrdinary, .inl h.journal, ⟨raw, h.network, rfl⟩, rfl,
    rfl⟩)

theorem Process.Holds.ledger_eq {process : Process} {account : Account}
    (h : process.Holds account) : process.world.ledger = some account.ledger := by
  cases h with
  | running clock h => exact h.stores.ledger_eq
  | stopped clock h => exact h.ledger_eq

namespace ProcessesLemmas

theorem clock_eq {process : Process} {account : Account} (h : process.Holds account) :
    process.world.clock = account.clock := by
  cases h with
  | running clock => exact clock
  | stopped clock => exact clock

theorem proposal_eq {process : Process} {account : Account} (h : process.Holds account)
    (running : process.running = true) : process.world.proposal = account.pending := by
  cases h with
  | running clock h => exact h.proposal
  | stopped => cases running

theorem running_of_turn [Base64] {process process' : Process} {happening : Happening}
    {turn : Turn} (h : Process.Step process happening process')
    (about : happening.turn? = some turn) : process.running = true := by
  cases h with
  | turn => rfl
  | crash => rfl
  | stop => cases about
  | started => cases about
  | failed => cases about
  | crashed => cases about

/-- The process has this proposal. -/
def Awaits (proposal : Proposal) (process : Process) : Prop :=
  process.running = true ∧ process.world.proposal = some proposal

theorem awaits_iff {process : Process} {account : Account} {proposal : Proposal} (h : process.Holds account) :
    Awaits proposal process ↔ account.pending = some proposal := by
  cases h with
  | running clock h => exact ⟨fun awaits => h.proposal ▸ awaits.2, fun pending =>
      ⟨rfl, h.proposal.trans pending⟩⟩
  | stopped clock h pending =>
    exact ⟨fun awaits => (nomatch awaits.1), fun some => (nomatch pending.symm.trans some)⟩

end ProcessesLemmas

open ProcessesLemmas

namespace Processes

open Receipts (noKeys admin draftTurn)

/-- A network whose changes await a confirmation. -/
def guarded : DesiredState := { Receipts.network with applyConfirmation := true }

def opened : World := { desired := some (.parsed guarded), bootstrapped := true }

theorem opened_opens : opened.Opens guarded := ⟨⟨rfl, rfl, rfl⟩, rfl, rfl⟩

/-- A draft is applied, and nothing fails. -/
def proposed : Effects.Outcome Choice World Unit :=
  letI := noKeys
  draftTurn.program.run semantics (List.replicate 80 {}) opened

def confirmation : Request := .confirmApply (some 2) (some "token") (some admin)

/-- Then it is confirmed. -/
def confirmed : Effects.Outcome Choice World Unit :=
  letI := noKeys
  (Turn.request confirmation).program.run semantics (List.replicate 80 {}) proposed.state

/-- What the confirmation is answered. -/
def answered : Effects.Outcome Choice World Answer :=
  letI := noKeys
  (handleCmd confirmation).run semantics (List.replicate 80 {}) proposed.state

theorem proposed_step :
    letI := noKeys
    Process.Step ⟨opened, true⟩ (.turn draftTurn) ⟨proposed.state, true⟩ := by
  let _ : Base64 := noKeys
  obtain ⟨unused, hr⟩ := Outcome.eq_done (show proposed.value? = some () by decide +kernel)
  exact .turn hr

theorem confirmed_step :
    letI := noKeys
    Process.Step ⟨proposed.state, true⟩ (.turn (.request confirmation))
      ⟨confirmed.state, true⟩ := by
  let _ : Base64 := noKeys
  obtain ⟨unused, hr⟩ := Outcome.eq_done (show confirmed.value? = some () by decide +kernel)
  exact .turn hr

theorem proposed_ledger : proposed.state.ledger = some (opened.account guarded).ledger := by
  decide +kernel

end Processes

variable {start : World} {raw : DesiredState} {labels : List Happening}
variable {process process' : Process} {happening : Happening}

/-- Every run of netd, whatever fails and wherever it crashes, is a run of the ledger. Where a
process waits with no recovery pending, the three files are the ledger exactly. -/
theorem ledger_refined [Base64] (opens : start.Opens raw)
    (run : Runs Process.Step ⟨start, true⟩ labels process) :
    ∃ account, Runs Account.Step (start.account raw) labels account ∧
      process.world.ledger = some account.ledger ∧
      (process.running = true → process.world.proposal = account.pending ∧
        (process.world.Clear → process.world.Accepts account.ledger.network ∧
          process.world.previousAccepted = account.ledger.predecessor ∧
          process.world.applyAttribution = account.ledger.attribution)) := by
  obtain ⟨account, arun, holds⟩ := process_simulates.runs opens.holds run
  refine ⟨account, arun, holds.ledger_eq, fun running => ?_⟩
  cases holds with
  | running clock h => exact ⟨h.proposal, h.exact⟩
  | stopped => cases running

theorem ledger_refined_confirmed :
    letI := Receipts.noKeys
    ∃ account, Runs Account.Step (Processes.opened.account Processes.guarded)
        [.turn Receipts.draftTurn, .turn (.request Processes.confirmation)] account ∧
      Processes.confirmed.state.ledger = some account.ledger ∧
      Processes.confirmed.state.Accepts account.ledger.network := by
  let _ : Base64 := Receipts.noKeys
  obtain ⟨account, run, ledger, exact⟩ := ledger_refined Processes.opened_opens
    (.snoc (.single Processes.proposed_step) Processes.confirmed_step)
  have clear : Processes.confirmed.state.Clear :=
    ⟨by decide +kernel, .inl (by decide +kernel), by decide +kernel⟩
  exact ⟨account, run, ledger, ((exact rfl).2 clear).1⟩

/-- Along every run the Accepted revision never decreases, and as long as it is the same so is the
network, but for addresses that were added, with its predecessor and its record. A predecessor is
always an older revision. -/
theorem one_network_for_life [Base64] (opens : start.Opens raw)
    (older : ∀ previous, start.previousAccepted = some (.parsed previous) →
      previous.revision < (numbered raw).revision)
    (run : Runs Process.Step ⟨start, true⟩ labels process) {more : List Happening}
    (rest : Runs Process.Step process more process') {before after : Ledger}
    (hbefore : process.world.ledger = some before) (hafter : process'.world.ledger = some after) :
    before.Leads after ∧ before.Older ∧ after.Older := by
  obtain ⟨account, arun, holds⟩ := process_simulates.runs opens.holds run
  obtain ⟨account', arest, holds'⟩ := process_simulates.runs holds rest
  cases holds.ledger_eq.symm.trans hbefore
  cases holds'.ledger_eq.symm.trans hafter
  have first := older_run arun older
  exact ⟨leads_run arest, first, older_run arest first⟩

theorem one_network_for_life_confirmed :
    ∃ after, Processes.confirmed.state.ledger = some after ∧
      (Processes.opened.account Processes.guarded).ledger.Leads after ∧ after.Older := by
  let _ : Base64 := Receipts.noKeys
  obtain ⟨after, h⟩ := Option.isSome_iff_exists.mp
    (show Processes.confirmed.state.ledger.isSome = true by decide +kernel)
  obtain ⟨leads, -, older⟩ := one_network_for_life Processes.opened_opens nofun
    (.single Processes.proposed_step) (.single Processes.confirmed_step)
    Processes.proposed_ledger h
  exact ⟨after, h, leads, older⟩

/-! ## Accepted changes -/

/-- The proposal was asked for in the life of this process, of the ledger that is still Accepted,
by an apply that named its revision; `now` is when its time began. -/
inductive ProposedSince [Base64] (start : Process) :
    List Happening → Process → Ledger → Proposal → Prop where
  | intro {before after : List Happening} {first second process : Process} {ledger : Ledger}
      {proposal : Proposal} {asked : DesiredState} {live : Live} {now : Nat}
      (opening : Runs Process.Step start before first)
      (asks : Process.Step first (.turn (.request (.applyDesired (.ok asked)
        (some ledger.network.revision) proposal.applying proposal.draftVersion))) second)
      (rest : Runs Process.Step second after process)
      (alive : ∀ happening ∈ after, ∃ turn, happening = .turn turn)
      (same : first.world.ledger = some ledger) (valid : validate asked = .ok ())
      (network : proposal.network = ledger.successor live asked)
      (since : first.world.clock ≤ now) (till : now ≤ second.world.clock)
      (due : proposal.deadline = some (min (now + confirmationWindow) (2 ^ 64 - 1))) :
      ProposedSince start (before ++ .turn (.request (.applyDesired (.ok asked)
        (some ledger.network.revision) proposal.applying proposal.draftVersion)) :: after)
        process ledger proposal

/-- The turns that make another revision the Accepted one. -/
inductive Process.Accepts [Base64] (start : Process) (labels : List Happening) (process : Process)
    (ledger next : Ledger) : Turn → Prop where
  | applied {asked : DesiredState} {applying : Option Principal} {draftVersion : Option String}
      (live : Live) (idle : process.world.proposal = none)
      (off : ledger.network.applyConfirmation = false) (valid : validate asked = .ok ())
      (becomes : next.network = ledger.successor live asked) :
      Process.Accepts start labels process ledger next (.request (.applyDesired (.ok asked)
        (some ledger.network.revision) applying draftVersion))
  | restored {previous : DesiredState} {applying : Option Principal} (live : Live)
      (idle : process.world.proposal = none)
      (retained : ledger.predecessor = some (.parsed previous))
      (older : previous.revision < ledger.network.revision) (valid : validate previous = .ok ())
      (becomes : next.network = ledger.successor live previous) :
      Process.Accepts start labels process ledger next (.request (.restorePrevious applying))
  | confirmed {proposal : Proposal} {confirming : Principal} {deadline now : Nat}
      (awaited : process.world.proposal = some proposal)
      (proposed : ProposedSince start labels process ledger proposal)
      (since : process.world.clock ≤ now) (due : proposal.deadline = some deadline)
      (early : now < deadline) (becomes : next.network = proposal.network) :
      Process.Accepts start labels process ledger next (.request (.confirmApply
        (some proposal.network.revision) proposal.confirmationId (some confirming)))

namespace ProcessesLemmas

/-- As long as a proposal is awaited, there are only turns, and the ledger stays. -/
theorem awaited_run [Base64] {first : Process} {account : Account} {proposal : Proposal}
    (holds : first.Holds account)
    (run : Runs (Runs.Within (Awaits proposal) Process.Step) first labels process) :
    (∃ account', process.Holds account' ∧ account'.ledger = account.ledger) ∧
      ∀ happening ∈ labels, ∃ turn, happening = .turn turn := by
  induction run with
  | refl => exact ⟨⟨account, holds, rfl⟩, fun _ mem => absurd mem List.not_mem_nil⟩
  | @snoc labels label second third run h ih =>
    obtain ⟨⟨account₁, holds₁, same₁⟩, turns⟩ := ih
    obtain ⟨step, before, after⟩ := h
    obtain ⟨account₂, taken, holds₂⟩ := process_simulates _ _ _ _ holds₁ step
    obtain ⟨turn, same₂⟩ := taken.awaits ((awaits_iff holds₁).mp before)
      ((awaits_iff holds₂).mp after)
    refine ⟨⟨account₂, holds₂, same₂.trans same₁⟩, fun happening mem => ?_⟩
    rcases List.mem_append.mp mem with mem | mem
    · exact turns happening mem
    · obtain rfl := List.mem_singleton.mp mem
      exact turn

theorem proposed_since [Base64] (opens : start.Opens raw)
    (run : Runs Process.Step ⟨start, true⟩ labels process) {account : Account}
    {proposal : Proposal} (holds : process.Holds account)
    (awaited : account.pending = some proposal) :
    ProposedSince ⟨start, true⟩ labels process account.ledger proposal := by
  have fresh : ¬ Awaits proposal ⟨start, true⟩ :=
    fun awaits => nomatch (awaits_iff opens.holds).mp awaits
  obtain ⟨before, label, after, first, second, rfl, opening, lacks, taken, awaits, rest⟩ :=
    run.acquired fresh ((awaits_iff holds).mpr awaited)
  obtain ⟨account₁, -, holds₁⟩ := process_simulates.runs opens.holds opening
  obtain ⟨account₂, step, holds₂⟩ := process_simulates _ _ _ _ holds₁ taken
  obtain ⟨turn, rfl, proposes⟩ := step.proposes
    (fun pending => lacks ((awaits_iff holds₁).mpr pending)) ((awaits_iff holds₂).mp awaits)
  obtain ⟨⟨account', holds', same⟩, turns⟩ := awaited_run holds₂ rest
  have ledger : account₁.ledger = account.ledger := by
    have kept := holds'.ledger_eq.symm.trans holds.ledger_eq
    exact proposes.same.symm.trans (same.symm.trans (Option.some.inj kept))
  obtain ⟨asked, applying, draftVersion, live, rfl, valid, rfl, rfl, network⟩ := proposes.asked
  obtain ⟨now, since, till, due⟩ := proposes.due
  rw [ledger] at taken network ⊢
  exact .intro opening taken (rest.mono fun _ _ _ h => h.1) turns
    (holds₁.ledger_eq.trans (congrArg some ledger)) valid network (clock_eq holds₁ ▸ since)
    (clock_eq holds₂ ▸ till) due

end ProcessesLemmas

open ProcessesLemmas

/-- Whatever happens to netd, the Accepted network gets another revision only by a turn that
applies a network to the current revision while no confirmation is required, restores the
predecessor, or confirms in time, by its id and revision, the pending proposal, which was made
since the process started. It is then the network that was asked for, at the next revision. -/
theorem accepted_changes [Base64] (opens : start.Opens raw)
    (run : Runs Process.Step ⟨start, true⟩ labels process)
    (h : Process.Step process happening process') {ledger next : Ledger}
    (before : process.world.ledger = some ledger) (after : process'.world.ledger = some next)
    (changed : next.network.revision ≠ ledger.network.revision) :
    ledger.Succeeds next ∧ ∃ turn, happening.turn? = some turn ∧
      Process.Accepts ⟨start, true⟩ labels process ledger next turn := by
  obtain ⟨account, -, holds⟩ := process_simulates.runs opens.holds run
  obtain ⟨account', step, holds'⟩ := process_simulates _ _ _ _ holds h
  cases holds.ledger_eq.symm.trans before
  cases holds'.ledger_eq.symm.trans after
  refine ⟨step.follows.succeeds changed, ?_⟩
  obtain ⟨turn, about, changes⟩ := step.changes changed
  have pending := proposal_eq holds (running_of_turn h about)
  refine ⟨turn, about, ?_⟩
  cases changes with
  | applied live idle off request valid becomes =>
    subst request
    exact .applied live (pending.trans idle) off valid becomes
  | restored live idle request retained older valid becomes =>
    subst request
    exact .restored live (pending.trans idle) retained older valid becomes
  | confirmed awaited request since due early becomes =>
    subst request
    exact .confirmed (pending.trans awaited) (proposed_since opens run holds awaited)
      (clock_eq holds ▸ since) due early becomes

theorem accepted_changes_confirmed :
    letI := Receipts.noKeys
    ∃ next turn, Processes.confirmed.state.ledger = some next ∧
      (Processes.opened.account Processes.guarded).ledger.Succeeds next ∧
      Process.Accepts ⟨Processes.opened, true⟩ [.turn Receipts.draftTurn]
        ⟨Processes.proposed.state, true⟩ (Processes.opened.account Processes.guarded).ledger next
        turn := by
  let _ : Base64 := Receipts.noKeys
  obtain ⟨next, h, revision⟩ := Option.map_eq_some_iff.mp
    (show Processes.confirmed.state.ledger.map (·.network.revision) = some 2 by decide +kernel)
  have changed : next.network.revision ≠
      (Processes.opened.account Processes.guarded).ledger.network.revision := by
    rw [revision]
    decide
  obtain ⟨succeeds, turn, -, accepts⟩ := accepted_changes Processes.opened_opens
    (.single Processes.proposed_step) Processes.confirmed_step Processes.proposed_ledger h changed
  exact ⟨next, turn, h, succeeds, accepts⟩

/-! ## Replies -/

/-- The reply to a request that may change the Accepted network says what became of it: accepted
is the next revision, one that awaits confirmation leaves the network and is the proposal, and
nothing but a restoration that is still required hides a change. -/
theorem replies_truthful [Base64] {w w' : World} (opens : start.Opens raw)
    (run : Runs Process.Step ⟨start, true⟩ labels ⟨w, true⟩) {cmd : Request}
    (writes : (Turn.request cmd).Writes) {answer : Answer} {choices unused : List Choice}
    (h : (handleCmd cmd).run semantics choices w = .done answer w' unused) :
    ∃ reply before after, answer = .reply reply ∧ w.ledger = some before ∧
      w'.ledger = some after ∧ reply.Truthful before after w'.proposal := by
  obtain ⟨account, -, holds⟩ := process_simulates.runs opens.holds run
  cases holds with
  | running clock held =>
    obtain ⟨reply, same, becomes⟩ :=
      wp_run_done (Spec.requestAccount held clock writes _ rfl) (fun _ _ => trivial) h
    cases becomes with
    | intro since till turned holds =>
      refine ⟨reply, _, _, same, held.stores.ledger_eq, holds.1.stores.ledger_eq, ?_⟩
      rw [holds.1.proposal]
      exact holds.2

theorem replies_truthful_confirmed :
    ∃ reply before after, Processes.answered.value? = some (.reply reply) ∧
      Processes.proposed.state.ledger = some before ∧
      Processes.answered.state.ledger = some after ∧
      Reply.Truthful reply before after Processes.answered.state.proposal := by
  let _ : Base64 := Receipts.noKeys
  obtain ⟨answer, h⟩ := Option.isSome_iff_exists.mp
    (show Processes.answered.value?.isSome = true by decide +kernel)
  obtain ⟨unused, hr⟩ := Effects.Outcome.eq_done h
  have writes : (Turn.request Processes.confirmation).Writes := trivial
  obtain ⟨reply, before, after, rfl, ledger, ledger', truthful⟩ :=
    replies_truthful Processes.opened_opens (.single Processes.proposed_step) writes hr
  exact ⟨reply, before, after, h, ledger, ledger', truthful⟩

end Fwos
