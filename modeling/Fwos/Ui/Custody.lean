import Fwos.Effects.Interference
import Fwos.Ui.Handlers

/-!
# Edits and drafts among others

Several administrators edit one network, each in several requests, while netd
takes requests from elsewhere, expires confirmations, crashes and starts again, and
answers get lost. Under its owner's lock a request is verified alone
(`Effects.Interference`).

* `Relies`, `Call.Does`: what a request relies on and what it guarantees. A handler
  without a lock changes no draft and asks for no edit (`Lockless`).
* `no_update_lost`: what becomes Accepted by an edit of a section is the edit that a
  request began with, of the network it replaces, never of an older one.
* `draft_custody`: a draft changes only at its owner's requests, is replaced only
  by one that names its version, and is removed only once netd has accepted it.
-/

namespace Fwos

open Effects Rust AccountsLemmas ReceiptsLemmas TurnsLemmas

/-! ## What netd answers -/

/-- The record of the Accepted network has the receipt of this draft. -/
def Ledger.Credits (ledger : Ledger) (owner : Principal) (version : String) : Prop :=
  recordMatches ledger.attribution ledger.network.revision owner version = true

section Answers

variable {c : Core}

theorem Spec.getDesiredAnswer [Base64] :
    Spec (fun _ => True) (handleCmd .getDesired) c fun answer c' => c = c' ∧
      ∃ result, answer = .desired result ∧
        ∀ state, result = .ok state → c.Clear ∧ c.Accepts state := by
  have read : Steps (fun _ => True) (Kept c) Fwos.getDesired c
      fun state c' => c = c' ∧ c.Clear ∧ c.Accepts state := by
    refine Steps.bind (Steps.monadLift (Spec.recoveryPending trivial)) ?_
    rintro pending _ ⟨rfl, clear⟩
    cases pending with
    | true => exact Steps.throw rfl
    | false =>
      refine Steps.mono (Steps.acceptedDesired trivial) ?_
      rintro state _ ⟨rfl, accepts⟩
      exact ⟨rfl, clear rfl, accepts⟩
  refine Spec.bind read.run ?_
  rintro (error | state) c' h
  · obtain rfl : c = c' := h
    exact Spec.pure ⟨rfl, _, rfl, nofun⟩
  · obtain ⟨rfl, clear, accepts⟩ := h
    refine Spec.pure ⟨rfl, _, rfl, fun other same => ?_⟩
    cases same
    exact ⟨clear, accepts⟩

/-- A program that changes nothing leaves the core that its specification speaks of. -/
theorem Spec.unchanged {α : Type} {I : Core → Prop} {program : Prog α} {Q : α → Core → Prop}
    (hu : Uses Silent program) (h : Spec I program c Q) :
    Spec I program c fun value c' => c = c' ∧ Q value c' := by
  rintro w rfl
  have same : program.wp semantics (fun _ => True) (fun w' => w'.toCore = w.toCore)
      (fun _ w' => w'.toCore = w.toCore) w :=
    wp_of_uses hu (fun op silent choice _ w' kept => (silent choice w').trans kept) rfl
  exact wp_weaken (wp_and same (h w rfl)) (fun _ held => held.2) fun _ _ held =>
    ⟨held.1.symm, held.2⟩

theorem Spec.wasDraftAcceptedAnswer [Base64] {revision : Nat} {version : String}
    {owner : Principal} :
    Spec (fun _ => True)
      (handleCmd (.wasDraftAccepted (some revision) (some version) (some owner))) c
      fun answer c' => c = c' ∧ (answer = .accepted (.ok true) → c.Clear ∧ ∃ state,
        c.Accepts state ∧ state.revision = revision ∧
          recordMatches c.applyAttribution revision owner version = true) := by
  refine Spec.bind (Spec.unchanged uses_wasDraftAccepted Spec.wasDraftAccepted) ?_
  rintro result _ ⟨rfl, found⟩
  refine Spec.pure ⟨rfl, fun same => found ?_⟩
  cases same
  rfl

/-- A successful apply is one that is accepted or awaits its confirmation. -/
theorem Spec.applyDesiredDecided [Base64] {desired : Except String DesiredState}
    {baseRevision : Option Nat} {applying : Option Principal} {draftVersion : Option String} :
    Spec (fun _ => True) (handleCmd (.applyDesired desired baseRevision applying draftVersion)) c
      fun answer _ => ∃ reply, answer = .reply reply ∧ (reply.ok = true →
        reply.outcome = some .accepted ∨ reply.outcome = some .pendingConfirmation) := by
  have refuses {reply : Reply} (h : reply.ok = false) : reply.ok = true →
      reply.outcome = some .accepted ∨ reply.outcome = some .pendingConfirmation :=
    fun ok => nomatch h.symm.trans ok
  refine Spec.bind (R := fun reply _ => reply.ok = true →
    reply.outcome = some .accepted ∨ reply.outcome = some .pendingConfirmation) ?_
    fun reply _ h => Spec.pure ⟨reply, rfl, h⟩
  refine (Spec.handlerReply (E := fun reply _ => reply.ok = true →
    reply.outcome = some .accepted ∨ reply.outcome = some .pendingConfirmation)
    (Q := fun reply _ => reply.ok = true →
      reply.outcome = some .accepted ∨ reply.outcome = some .pendingConfirmation) ?_).mono
    fun _ _ h => h.elim id id
  refine Steps.bind (R := fun _ c' => c = c')
    (Steps.monadLift (Spec.silent uses_pathExists trivial fun _ => rfl)) ?_
  rintro present _ rfl
  cases present with
  | false => exact Steps.throw (refuses rfl)
  | true =>
    rcases baseRevision with _ | base
    · exact Steps.throw (refuses rfl)
    · refine Steps.monadLift (Spec.weaken Spec.applyDesiredRequest (fun _ _ => trivial) ?_)
      intro reply c' requested
      cases requested with
      | refused h => exact refuses h
      | attempted _ _ ended =>
        cases ended with
        | unchanged h => exact refuses h
        | inFlight h => exact refuses h
        | pending _ h => exact fun _ => .inr h.2
        | moved _ h => exact fun _ => .inl h.2
        | indeterminate _ h => exact refuses h

/-- An accepted apply of a draft leaves its receipt. -/
theorem Account.Turned.credits [Base64] {account : Account} {now : Nat}
    {desired : Except String DesiredState} {baseRevision : Option Nat} {owner : Principal}
    {version : String} {ledger : Ledger} {pending : Option Proposal}
    (h : account.Turned now
      (.request (.applyDesired desired baseRevision (some owner) (some version))) ledger pending)
    (succeeds : account.ledger.Succeeds ledger) : ledger.Credits owner version := by
  have moved : ledger.network.revision ≠ account.ledger.network.revision := by
    rw [succeeds.revision]
    exact Nat.succ_ne_self _
  cases h with
  | kept => exact absurd rfl moved
  | abandoned => exact absurd rfl moved
  | recovered _ live => exact absurd complete_revision moved
  | proposed => exact absurd rfl moved
  | applied _ _ _ accepts =>
    obtain ⟨receipts, granted, attribution⟩ := accepts.attribution
    obtain ⟨before, rfl⟩ : ∃ before, receipts = upsertDraft before (some owner) (some version)
        (account.ledger.successor _ _).revision := by
      unfold acceptedDraftReceipts at granted
      split at granted
      · exact ⟨_, (Except.ok.inj granted).symm⟩
      · cases granted
      · exact ⟨_, (Except.ok.inj granted).symm⟩
    -- The receipt of this draft is the last that was entered.
    unfold Ledger.Credits recordMatches
    rw [attribution, accepts.becomes]
    simp [receiptMatches, upsertDraft, upsertDraftReceipt, sameOwner]

end Answers

/-! ## What becomes of the appliance -/

namespace Appliance

variable {s s' : Appliance} {ledger ledger' : Ledger}

/-- The ledger that netd holds. -/
def Has (s : Appliance) (ledger : Ledger) : Prop := s.process.world.ledger = some ledger

/-- What the ledger of netd is from here on is on record. -/
def watched (s : Appliance) : Appliance := { s with ledgers := s.process.world.ledger.toList }

theorem exists_has (s : Appliance) : ∃ ledger, s.Has ledger := by
  obtain ⟨account, holds⟩ := s.held
  exact ⟨account.ledger, holds.ledger_eq⟩

theorem Has.unique (h : s.Has ledger) (h' : s.Has ledger') : ledger = ledger' :=
  Option.some.inj (h.symm.trans h')

/-- The ledgers only grow, and netd's own leads on. -/
structure Goes (s s' : Appliance) : Prop where
  ledgers : s.ledgers ⊆ s'.ledgers
  leads : ∀ ledger ledger', s.Has ledger → s'.Has ledger' → ledger.Leads ledger'

theorem Goes.refl (s : Appliance) : s.Goes s := by
  refine ⟨List.Subset.refl _, fun ledger ledger' has has' => ?_⟩
  rw [has.unique has']
  exact .refl _

theorem Goes.trans {s'' : Appliance} (first : s.Goes s') (second : s'.Goes s'') : s.Goes s'' := by
  refine ⟨List.Subset.trans first.ledgers second.ledgers, fun ledger ledger'' has has'' => ?_⟩
  obtain ⟨ledger', has'⟩ := exists_has s'
  exact Ledger.Leads.trans _ _ _ (first.leads _ _ has has') (second.leads _ _ has' has'')

/-- An appliance with the same netd. -/
theorem Goes.of_same (process : s'.process = s.process) (ledgers : s'.ledgers = s.ledgers) :
    s.Goes s' := by
  refine ⟨ledgers ▸ List.Subset.refl _, fun ledger ledger' has has' => ?_⟩
  have same : s.Has ledger' := by
    show s.process.world.ledger = _
    rw [← process]
    exact has'
  rw [has.unique same]
  exact .refl _

section After

variable [Base64] {happening : Happening} {process : Process}
  {step : Process.Step s.process happening process}

theorem after_goes : s.Goes (s.after step) := by
  refine ⟨List.subset_append_left _ _, fun ledger ledger' has has' => ?_⟩
  obtain ⟨account, holds⟩ := s.held
  obtain ⟨account', taken, holds'⟩ := process_simulates _ _ _ _ holds step
  cases holds.ledger_eq.symm.trans has
  cases holds'.ledger_eq.symm.trans has'
  exact taken.follows.leads

theorem after_has (has : (s.after step).Has ledger) : ledger ∈ (s.after step).ledgers := by
  refine List.mem_append_right _ ?_
  rw [show process.world.ledger = some ledger from has]
  exact List.mem_singleton_self _

end After

/-- What becomes of a request that netd may take. -/
inductive Served [Base64] (s : Appliance) (cmd : Request) : Except String Answer → Appliance → Prop
    where
  | refused (error : String) : Served s cmd (.error error) s
  | answered {answer : Answer} {w : World} {choices unused : List Fwos.Choice}
      (running : s.process.running = true)
      (run : (handleCmd cmd).run Fwos.semantics choices s.process.world = .done answer w unused)
      (step : Process.Step s.process (.turn (.request cmd)) ⟨w, true⟩) :
      Served s cmd (.ok answer) (s.after step)
  | crashed {w : World} (error : String)
      (step : Process.Step s.process (.crash (.request cmd)) ⟨w, false⟩) :
      Served s cmd (.error error) (s.after step)

theorem serve_served [Base64] {cmd : Request} {choices : List Fwos.Choice} :
    s.Served cmd (s.serve cmd choices).1 (s.serve cmd choices).2 := by
  unfold serve
  split
  · exact .refused _
  next running =>
    split
    next outcome => exact .answered running outcome (turn_step running outcome)
    next outcome => exact .crashed _ (crash_step running outcome)

/-- The account of a process that runs, and what its core holds. -/
theorem held_running (running : s.process.running = true) : ∃ account : Account,
    s.process.world.clock = account.clock ∧
      s.process.world.Holds account.ledger account.pending := by
  obtain ⟨account, holds⟩ := s.held
  generalize s.process = process at running holds
  cases holds with
  | running clock h => exact ⟨account, clock, h⟩
  | stopped => cases running

section Served

variable [Base64] {cmd : Request} {answer : Except String Answer}

theorem Served.goes (h : s.Served cmd answer s') : s.Goes s' := by
  cases h with
  | refused => exact .refl s
  | answered => exact after_goes
  | crashed => exact after_goes

theorem Served.kept (h : s.Served cmd answer s') : s'.drafts = s.drafts ∧ s'.sent = s.sent := by
  cases h <;> exact ⟨rfl, rfl⟩

theorem Served.taken (h : s.Served cmd answer s') : s'.process = s.process ∨
    ∃ happening, happening.turn? = some (.request cmd) ∧
      Process.Step s.process happening s'.process := by
  cases h with
  | refused => exact .inl rfl
  | answered _ _ step => exact .inr ⟨_, rfl, step⟩
  | crashed _ step => exact .inr ⟨_, rfl, step⟩

/-- netd answers the network of its ledger. -/
theorem Served.desired {state : DesiredState}
    (h : s.Served .getDesired (.ok (.desired (.ok state))) s') :
    ∃ ledger, s'.Has ledger ∧ state = ledger.network := by
  cases h with
  | answered running run step =>
    obtain ⟨account, -, held⟩ := held_running running
    obtain ⟨same, result, shape, read⟩ :=
      wp_run_done (Spec.getDesiredAnswer _ rfl) (fun _ _ => trivial) run
    cases shape
    obtain ⟨clear, accepts⟩ := read state rfl
    have network := (held.exact clear).1
    exact ⟨account.ledger, (congrArg Core.ledger same).symm.trans held.stores.ledger_eq,
      accepts_unique accepts network⟩

/-- A receipt that netd finds is one of its ledger. -/
theorem Served.draftAccepted {revision : Nat} {version : String} {owner : Principal}
    (h : s.Served (.wasDraftAccepted (some revision) (some version) (some owner))
      (.ok (.accepted (.ok true))) s') : ∃ ledger ∈ s'.ledgers, ledger.Credits owner version := by
  cases h with
  | answered running run step =>
    obtain ⟨account, -, held⟩ := held_running running
    obtain ⟨same, found⟩ :=
      wp_run_done (Spec.wasDraftAcceptedAnswer _ rfl) (fun _ _ => trivial) run
    obtain ⟨clear, state, accepts, rfl, credits⟩ := found rfl
    obtain ⟨network, -, attribution⟩ := held.exact clear
    have ledger := (congrArg Core.ledger same).symm.trans held.stores.ledger_eq
    refine ⟨account.ledger, after_has ledger, ?_⟩
    rw [accepts_unique accepts network, attribution] at credits
    exact credits

/-- What netd says is accepted has its receipt. -/
theorem Served.credited {desired : Except String DesiredState} {baseRevision : Option Nat}
    {version : String} {owner : Principal} {reply : Answer}
    (h : s.Served (.applyDesired desired baseRevision (some owner) (some version)) (.ok reply) s')
    (ok : (Handlers.replyOf reply).ok = true)
    (final : (Handlers.replyOf reply).outcome ≠ some .pendingConfirmation) :
    ∃ ledger ∈ s'.ledgers, ledger.Credits owner version := by
  cases h with
  | answered running run step =>
    obtain ⟨account, clock, held⟩ := held_running running
    obtain ⟨reply, rfl, decided⟩ :=
      wp_run_done (Spec.applyDesiredDecided _ rfl) (fun _ _ => trivial) run
    have writes : (Turn.request (.applyDesired desired baseRevision (some owner)
        (some version))).Writes := trivial
    obtain ⟨_, shape, becomes⟩ :=
      wp_run_done (Spec.requestAccount held clock writes _ rfl) (fun _ _ => trivial) run
    cases shape
    -- It does not await a confirmation, so it is the next revision, with the receipt.
    have outcome := (decided ok).resolve_right final
    cases becomes with
    | @intro now ledger pending since till turned holds =>
      have succeeds := (holds.2.accepted ok outcome).1
      exact ⟨ledger, after_has holds.1.stores.ledger_eq, turned.credits succeeds⟩

end Served

end Appliance

/-! ## What a request relies on and what it does -/

namespace Handlers

/-- The network is the one of this ledger, but for addresses that were added since it was read;
or an older revision. -/
def ReadOf (read : DesiredState) (ledger : Ledger) : Prop :=
  read.Gains ledger.network ∨ read.revision < ledger.network.revision

/-- What was once read of netd's ledger. -/
def Read (read : DesiredState) (s : Appliance) : Prop := ∀ ledger, s.Has ledger → ReadOf read ledger

theorem Read.goes {read : DesiredState} {s s' : Appliance} (h : Read read s) (goes : s.Goes s') :
    Read read s' := by
  intro ledger' has'
  obtain ⟨ledger, has⟩ := s.exists_has
  cases goes.leads ledger ledger' has has' with
  | same kept =>
    -- The revision is the same network for life.
    have revision := kept.network.revision
    exact (h ledger has).imp (fun gains => gains.trans kept.network) fun older => revision ▸ older
  | later later =>
    refine .inr ?_
    rcases h ledger has with gains | older
    · exact gains.revision ▸ later
    · exact older.trans later

/-- Some ledger that netd had has the receipt of this draft. -/
def Credited (owner : Principal) (version : String) (s : Appliance) : Prop :=
  ∃ ledger ∈ s.ledgers, ledger.Credits owner version

/-- What the others may do while a request has the lock of this path. -/
structure Relies (path : String) (s s' : Appliance) : Prop extends s.Goes s' where
  draft : s'.drafts path = s.drafts path

theorem Relies.refl {path : String} (s : Appliance) : Relies path s s := ⟨.refl s, rfl⟩

theorem Relies.trans {path : String} {s s' s'' : Appliance} (first : Relies path s s')
    (second : Relies path s' s'') : Relies path s s'' :=
  ⟨first.toGoes.trans second.toGoes, second.draft.trans first.draft⟩

/-- What the others leave true. -/
def Stable (path : String) (K : Appliance → Prop) : Prop :=
  ∀ s s', Relies path s s' → K s → K s'

theorem Stable.and {path : String} {K J : Appliance → Prop} (first : Stable path K)
    (second : Stable path J) :
    Stable path fun s => K s ∧ J s :=
  fun s s' relied h => ⟨first s s' relied h.1, second s s' relied h.2⟩

namespace CustodyLemmas

variable {path : String}

theorem stable_true : Stable path fun _ => True := fun _ _ _ _ => trivial

theorem stable_draft {draft : Option (Raw Draft)} : Stable path fun s => s.drafts path = draft :=
  fun _ _ relied h => relied.draft.trans h

theorem stable_credited {owner : Principal} {version : String} :
    Stable path (Credited owner version) :=
  fun _ _ relied ⟨ledger, mem, credits⟩ => ⟨ledger, relied.ledgers mem, credits⟩

end CustodyLemmas

/-- The edits that a request may apply, and the revision it names. -/
def Locked.Applies : Locked → Nat → Edit → Prop
  | .edit base change, baseRevision, other => base = baseRevision ∧ change = other
  | .configure base enabled, baseRevision, other =>
      base = baseRevision ∧ other = .applyConfirmation enabled
  | _, _, _ => False

/-- The version of the draft that a request replaces. -/
def Locked.replaces : Locked → Option String
  | .save change => change.version
  | .reconcile request => some request.version
  | _ => none

/-- What a request may ask netd for: only to look, to make an edit of the network it has read
Accepted, or to make the draft it names Accepted. -/
inductive Call.Sends (call : Call) (s : Appliance) : Request → Prop where
  | looks {cmd : Request} (h : ¬ (Turn.request cmd).Writes) : call.Sends s cmd
  | edits {read edited : DesiredState} {edit : Edit}
      (applies : call.locked.Applies read.revision edit) (was : Read read s)
      (h : edit.apply read = .ok edited) :
      call.Sends s (.applyDesired (.ok edited) (some read.revision) (some call.owner) none)
  | draft {draft : Draft} (named : call.locked = .apply ⟨draft.baseRevision, draft.version⟩)
      (stored : s.drafts (draftPath call.owner) = some (.parsed draft)) :
      call.Sends s (.applyDesired (.ok draft.desired) (some draft.baseRevision) (some call.owner)
        (some draft.version))

/-- What a request may make of its owner's draft. -/
inductive Call.Leaves (call : Call) (s : Appliance) : Option (Raw Draft) → Prop where
  | kept : call.Leaves s (s.drafts (draftPath call.owner))
  | written {draft : Draft} (fresh : s.drafts (draftPath call.owner) = none) :
      call.Leaves s (some (.parsed draft))
  | replaced {draft old : Draft} (stored : s.drafts (draftPath call.owner) = some (.parsed old))
      (named : call.locked.replaces = some old.version) : call.Leaves s (some (.parsed draft))
  | removed {old : Draft} (stored : s.drafts (draftPath call.owner) = some (.parsed old))
      (credited : Credited call.owner old.version s) : call.Leaves s none

/-- What one call of a request may do. -/
structure Call.Does [Base64] (call : Call) (s s' : Appliance) : Prop extends s.Goes s' where
  others : ∀ path, path ≠ draftPath call.owner → s'.drafts path = s.drafts path
  draft : call.Leaves s (s'.drafts (draftPath call.owner))
  sent : ∀ cmd ∈ s'.sent, cmd ∈ s.sent ∨ call.Sends s cmd
  taken : s'.process = s.process ∨ ∃ cmd happening, call.Sends s cmd ∧
    happening.turn? = some (.request cmd) ∧ Process.Step s.process happening s'.process

/-- A draft that the response says is pending is stored. -/
def Call.Responds (call : Call) (response : HttpResponse) (s : Appliance) : Prop :=
  ∀ baseRevision version encrypted, response.body = .pending baseRevision version encrypted →
    ∃ draft : Draft, s.drafts (draftPath call.owner) = some (.parsed draft) ∧
      draft.version = version ∧ draft.baseRevision = baseRevision

/-- An edited network is the edit of one that netd had Accepted. -/
def Edited (baseRevision : Nat) (edit : Edit) (edited : DesiredState) (s : Appliance) : Prop :=
  ∃ read, Read read s ∧ read.revision = baseRevision ∧ edit.apply read = .ok edited

theorem stable_edited {path : String} {baseRevision : Nat} {edit : Edit} {edited : DesiredState} :
    Stable path (Edited baseRevision edit edited) :=
  fun _ _ relied ⟨read, was, h⟩ => ⟨read, was.goes relied.toGoes, h⟩

/-! ## Responses that say nothing of a stored draft -/

section Plain

variable {call : Call} {s : Appliance}

def Body.isPending : Body → Bool
  | .pending .. => true
  | _ => false

theorem plain_responds {response : HttpResponse} (plain : response.body.isPending = false) :
    call.Responds response s := by
  intro baseRevision version encrypted pending
  rw [pending] at plain
  cases plain

theorem selectedRoute_plain {desired : DesiredState} {original : StaticRoute}
    {next : Nat → DesiredState} {response : HttpResponse}
    (h : (selectedRoute desired original >>= fun index => pure (next index)) = .error response) :
    call.Responds response s := by
  unfold selectedRoute at h
  split at h
  · cases h
  · cases h
    exact plain_responds rfl

theorem orBadRequest_plain {α : Type} {result : Except String α} {response : HttpResponse}
    (h : orBadRequest result = .error response) : call.Responds response s := by
  cases result with
  | ok value => cases h
  | error error =>
    cases h
    exact plain_responds rfl

theorem edit_plain {desired : DesiredState} {edit : Edit} {response : HttpResponse}
    (h : edit.apply desired = .error response) : call.Responds response s := by
  cases edit with
  | changeRoute original route => exact selectedRoute_plain h
  | removeRoute original => exact selectedRoute_plain h
  | wireguard tunnels => exact orBadRequest_plain h
  | qdiscs updates => exact orBadRequest_plain h
  | ipv6 settings => exact orBadRequest_plain h
  | _ => cases h

theorem refused_plain {α : Type} {result : Except Refusal α} {response : HttpResponse}
    (h : refused result = .error response) : call.Responds response s := by
  cases result with
  | ok value => cases h
  | error error =>
    cases h
    exact plain_responds rfl

theorem importChecks_plain {imported : DesiredState} {baseRevision : Nat}
    {existing : Option Draft} {accepted : DesiredState} {token : Except String String}
    {response : HttpResponse}
    (h : importChecks imported baseRevision existing accepted token = .error response) :
    call.Responds response s := by
  cases existing with
  | some old =>
    cases h
    exact plain_responds rfl
  | none =>
    cases same : baseRevision == accepted.revision with
    | false =>
      rw [importChecks, same] at h
      cases h
      exact plain_responds rfl
    | true =>
      rw [importChecks, same] at h
      cases token with
      | ok version => cases h
      | error error =>
        cases h
        exact plain_responds rfl

end Plain

/-! ## The draft that a request names -/

theorem savedDraft_named {change : DraftChange} {old draft : Draft}
    {snapshot : Except String DesiredState} {token : Except String String}
    (h : savedDraft change (some old) snapshot token = .ok draft) :
    change.version = some old.version := by
  simp only [savedDraft, bind_eq_ok, draftedContent] at h
  obtain ⟨content, drafted, -⟩ := h
  split at drafted
  next same => exact same
  · cases drafted

theorem reconciledDraft_named {request : DraftReconciliation} {old draft : Draft}
    {snapshot : Except String DesiredState} {token : Except String String}
    (h : reconciledDraft request (some old) snapshot token = .ok draft) :
    request.version = old.version := by
  simp only [reconciledDraft, bind_eq_ok, okOr, ensure_eq_ok, Except.ok.injEq, Bool.and_eq_true,
    beq_iff_eq] at h
  obtain ⟨_, rfl, _, ⟨-, same⟩, -⟩ := h
  exact same

theorem importChecks_none {imported : DesiredState} {baseRevision : Nat} {existing : Option Draft}
    {accepted : DesiredState} {token : Except String String} {draft : Draft}
    (h : importChecks imported baseRevision existing accepted token = .ok draft) :
    existing = none := by
  simp only [importChecks, bind_eq_ok, ensure_eq_ok] at h
  obtain ⟨_, none, -⟩ := h
  exact Option.isNone_iff_eq_none.mp none

/-! ## Requests that netd may take late -/

/-- A request to apply a network that is of no draft. -/
def AppliesEdit : Request → Prop
  | .applyDesired _ _ _ none => True
  | _ => False

/-- A request that edits the network asks for the edit that a call has begun with, of a network
that netd had Accepted. -/
inductive Apt (began : Call → Prop) (s : Appliance) : Request → Prop where
  | other {cmd : Request} (h : ¬ AppliesEdit cmd) : Apt began s cmd
  | edits {call : Call} {read edited : DesiredState} {edit : Edit} (mine : began call)
      (applies : call.locked.Applies read.revision edit) (was : Read read s)
      (h : edit.apply read = .ok edited) :
      Apt began s (.applyDesired (.ok edited) (some read.revision) (some call.owner) none)

theorem Call.Sends.apt {call : Call} {began : Call → Prop} {s : Appliance} {cmd : Request}
    (h : call.Sends s cmd) (mine : began call) : Apt began s cmd := by
  cases h with
  | looks looks =>
    refine .other fun edits => looks ?_
    cases cmd with
    | applyDesired => trivial
    | _ => cases edits
  | edits applies was h => exact .edits mine applies was h
  | draft => exact .other id

theorem Apt.goes {began more : Call → Prop} {s s' : Appliance} {cmd : Request}
    (h : Apt began s cmd) (goes : s.Goes s') (grows : ∀ call, began call → more call) :
    Apt more s' cmd := by
  cases h with
  | other h => exact .other h
  | edits mine applies was h => exact .edits (grows _ mine) applies (was.goes goes) h

/-- The requests that have a lock, by the draft that it is for. -/
abbrev Serving := Pool Op Ans Appliance String Call HttpResponse

abbrev Serving.Event := Happened Appliance String Call HttpResponse

/-- A call that has begun in these events. -/
def Serving.Began (events : List Serving.Event) (call : Call) : Prop :=
  ∃ path, .began path call ∈ events

def SentApt (events : List Serving.Event) (s : Appliance) : Prop :=
  ∀ cmd ∈ s.sent, Apt (Serving.Began events) s cmd

theorem sentApt_goes {events : List Serving.Event} {event : Serving.Event} {s s' : Appliance} (apt : SentApt events s)
    (goes : s.Goes s')
    (sent : ∀ cmd ∈ s'.sent, cmd ∈ s.sent ∨ Apt (Serving.Began events) s cmd) :
    SentApt (events ++ [event]) s' := by
  intro cmd mem
  have before : Apt (Serving.Began events) s cmd := (sent cmd mem).elim (apt cmd) id
  exact before.goes goes fun call ⟨path, began⟩ => ⟨path, List.mem_append_left _ began⟩

/-! ## Without a lock -/

/-- What only looks, or asks netd for anything but an edit. -/
def Lockless : Op → Prop
  | .bootstrapExists => True
  | .netdCmd cmd => ¬ AppliesEdit cmd
  | _ => False

section Lockless

variable {α : Type} {authentication : Option Authentication}

theorem checked_lockless {result : Except HttpResponse α} :
    Uses Lockless (checked result).run := trivial

theorem signedIn_lockless : Uses Lockless (signedIn authentication).run := by
  cases authentication with
  | none => trivial
  | some authentication => trivial

theorem operatorSession_lockless : Uses Lockless (operatorSession authentication).run := by
  refine Uses.bindExcept signedIn_lockless fun owner => ?_
  refine Uses.bindExcept (Uses.liftExcept ⟨trivial, fun _ => trivial⟩) fun present => ?_
  cases present with
  | false => trivial
  | true => trivial

theorem validated_lockless {imported : DesiredState} : Uses Lockless (validated imported).run := by
  refine Uses.bindExcept (Uses.liftExcept ⟨id, fun _ => trivial⟩) fun answer => ?_
  rcases answer with error | answer
  · trivial
  · cases answer with
    | result result =>
      cases result with
      | ok valid => trivial
      | error error => trivial
    | _ => trivial

theorem entering_lockless {entering : Handling Call} (h : Entering entering) :
    Uses Lockless entering.run := by
  cases h with
  | change =>
    exact .bindExcept operatorSession_lockless fun _ => .bindExcept checked_lockless fun _ => trivial
  | draft =>
    exact .bindExcept operatorSession_lockless fun _ => .bindExcept checked_lockless fun _ => trivial
  | status => exact .bindExcept operatorSession_lockless fun _ => trivial
  | setting =>
    exact .bindExcept signedIn_lockless fun _ => .bindExcept checked_lockless fun _ => trivial
  | imported =>
    refine .bindExcept operatorSession_lockless fun _ => ?_
    refine .bindExcept checked_lockless fun _ => .bindExcept checked_lockless fun _ => ?_
    exact .bindExcept validated_lockless fun _ => trivial

theorem confirmApply_lockless {confirmation : Option Confirmation} :
    Uses Lockless (confirmApply authentication confirmation).run := by
  refine .bindExcept signedIn_lockless fun _ => .bindExcept checked_lockless fun _ => ?_
  refine .liftExcept ⟨id, fun answer => ?_⟩
  cases answer with
  | ok answer => trivial
  | error error => trivial

theorem Unlocked.lockless {op : Op} (h : Unlocked op) : Lockless op := by
  cases h with
  | entering h calls => exact (entering_lockless h).of_calls calls
  | confirming calls => exact confirmApply_lockless.of_calls calls

end Lockless

/-! ## What one call does -/

variable [Base64] {call : Call} {s s' : Appliance}

theorem Call.Does.same : call.Does s s :=
  ⟨.refl s, fun _ _ => rfl, .kept, fun _ mem => .inl mem, .inl rfl⟩

/-- A request to netd, whatever becomes of it. -/
theorem netd_does {cmd : Request} {choice : Choice} (sends : call.Sends s cmd) :
    call.Does s (exec (.netdCmd cmd) choice s).2 := by
  obtain ⟨fault, served, token⟩ := choice
  cases served with
  | now choices lost =>
    show call.Does s (s.serve cmd choices).2
    have served := @Appliance.serve_served s _ cmd choices
    obtain ⟨drafts, sent⟩ := served.kept
    refine ⟨served.goes, fun path _ => congrFun drafts path, ?_, fun other mem => ?_, ?_⟩
    · rw [congrFun drafts]
      exact .kept
    · exact .inl (sent ▸ mem)
    · rcases served.taken with same | ⟨happening, about, step⟩
      · exact .inl same
      · exact .inr ⟨cmd, happening, sends, about, step⟩
  | later error =>
    -- The sender stops waiting: the request is left among those that were sent.
    refine ⟨.of_same rfl rfl, fun _ _ => rfl, .kept, fun other mem => ?_, .inl rfl⟩
    rcases List.mem_append.mp mem with mem | mem
    · exact .inl mem
    · obtain rfl := List.mem_singleton.mp mem
      exact .inr sends
  | never error => exact .same

/-- A change of the owner's draft, which may fail before or after it happens. -/
theorem draft_does {choice : Choice} {left : Option (Raw Draft)} (leaves : call.Leaves s left) :
    call.Does s (choice.after s (s.setDraft (draftPath call.owner) left)) := by
  have changes : call.Does s (s.setDraft (draftPath call.owner) left) := by
    refine ⟨.of_same rfl rfl, fun path other => Function.update_of_ne other _ _, ?_,
      fun _ mem => .inl mem, .inl rfl⟩
    show call.Leaves s (Function.update s.drafts (draftPath call.owner) left _)
    rw [Function.update_self]
    exact leaves
  unfold Choice.after
  split
  · exact .same
  · exact changes
  · exact changes

theorem netd_relies {cmd : Request} {choice : Choice} {path : String} :
    Relies path s (exec (.netdCmd cmd) choice s).2 := by
  obtain ⟨fault, served, token⟩ := choice
  cases served with
  | now choices lost =>
    have served := @Appliance.serve_served s _ cmd choices
    exact ⟨served.goes, congrFun served.kept.1 path⟩
  | later error => exact ⟨.of_same rfl rfl, rfl⟩
  | never error => exact .refl s

/-- What netd answered, if it did, it answered here. -/
theorem netd_served {cmd : Request} {choice : Choice} {answer : Answer}
    (h : (exec (.netdCmd cmd) choice s).1 = .ok answer) :
    s.Served cmd (.ok answer) (exec (.netdCmd cmd) choice s).2 := by
  obtain ⟨fault, served, token⟩ := choice
  cases served with
  | now choices lost =>
    have served := @Appliance.serve_served s _ cmd choices
    cases lost with
    | none =>
      have same : (s.serve cmd choices).1 = .ok answer := h
      rw [same] at served
      exact served
    | some error => cases h
  | later error => cases h
  | never error => cases h

/-! ## Programs under the lock -/

/-- From every state with `K` the program does only what the request may do, beside what it
relies on, and finishes in states with `Q`. -/
def Under (call : Call) {α : Type} (K : Appliance → Prop) (program : Prog α)
    (Q : α → Appliance → Prop) : Prop :=
  ∀ s, K s → program.guarded semantics (fun _ => True) (Relies (draftPath call.owner)) call.Does Q s

/-- How a program ends that may fail. -/
abbrev EndsIn {ε α : Type} (E : ε → Appliance → Prop) (Q : α → Appliance → Prop) :
    Except ε α → Appliance → Prop
  | .ok value, s => Q value s
  | .error error, s => E error s

/-- Errors say nothing. -/
abbrev Silently {α : Type} (Q : α → Appliance → Prop) : Except String α → Appliance → Prop :=
  EndsIn (fun _ _ => True) Q

/-- A handler may end early with its response. -/
abbrev Call.Ends (call : Call) {α : Type} (Q : α → Appliance → Prop) :
    Except HttpResponse α → Appliance → Prop :=
  EndsIn call.Responds Q

open CustodyLemmas

namespace Under

variable {α β ε : Type} {K : Appliance → Prop} {R Q : α → Appliance → Prop}
  {S : β → Appliance → Prop} {E : ε → Appliance → Prop}

theorem pure {value : α} (h : ∀ s, K s → Q value s) :
    Under call K (Pure.pure value : Prog α) Q := h

theorem bind {program : Prog α} {next : α → Prog β} (first : Under call K program R)
    (rest : ∀ value, Under call (R value) (next value) S) : Under call K (program >>= next) S :=
  fun s hk => guarded_seq (first s hk) fun value s' => rest value s'

theorem mono {program : Prog α} (h : Under call K program R)
    (imp : ∀ value s, R value s → Q value s) :
    Under call K program Q :=
  fun s hk => guarded_mono (h s hk) imp

theorem before {program : Prog α} {J : Appliance → Prop} (h : Under call K program Q)
    (imp : ∀ s, J s → K s) : Under call J program Q :=
  fun s hj => h s (imp s hj)

/-- One operation, from the state in which it finds what it knows. -/
theorem ask {op : Op} {Q : Ans op → Appliance → Prop} (stable : Stable (draftPath call.owner) K)
    (h : ∀ s, K s → ∀ choice, call.Does s (exec op choice s).2 ∧
      Q (exec op choice s).1 (exec op choice s).2) : Under call K (Handlers.ask op) Q :=
  fun s hk found relied choice _ => h found (stable s found relied hk) choice

/-- An operation that changes nothing. -/
theorem look {op : Op} {Q : Ans op → Prop} (stable : Stable (draftPath call.owner) K)
    (same : ∀ s choice, (exec op choice s).2 = s)
    (h : ∀ s, K s → ∀ choice, Q (exec op choice s).1) :
    Under call K (Handlers.ask op) fun answer s => K s ∧ Q answer := by
  refine ask stable fun s hk choice => ?_
  rw [same]
  exact ⟨.same, hk, h s hk choice⟩

/-- A request to netd that does not count. -/
theorem netd {cmd : Request} {Q : Except String Answer → Appliance → Prop}
    (stable : Stable (draftPath call.owner) K) (sends : ∀ s, K s → call.Sends s cmd)
    (h : ∀ (s s' : Appliance) (answer : Answer), s.Served cmd (.ok answer) s' → Q (.ok answer) s')
    (error : ∀ error s, Q (.error error) s) :
    Under call K (Handlers.ask (.netdCmd cmd)) fun answer s => K s ∧ Q answer s := by
  refine ask stable fun s hk choice => ⟨netd_does (sends s hk), stable s _ netd_relies hk, ?_⟩
  cases outcome : (exec (.netdCmd cmd) choice s).1 with
  | error text => exact error text _
  | ok answer => exact h s _ answer (netd_served outcome)

theorem seq {program : ExceptT ε (Program Op Ans) α} {next : α → ExceptT ε (Program Op Ans) β}
    (first : Under call K program.run (EndsIn E R))
    (rest : ∀ value, Under call (R value) (next value).run (EndsIn E S)) :
    Under call K (program >>= next).run (EndsIn E S) :=
  fun s hk => guarded_seqExcept (first s hk) (fun _ _ h => h) fun value s' => rest value s'

theorem lift {program : Prog α} (h : Under call K program Q) :
    Under call K (ExceptT.lift program : ExceptT ε (Program Op Ans) α).run (EndsIn E Q) :=
  bind h fun _ => pure fun _ hq => hq

theorem throw {error : ε} (h : ∀ s, K s → E error s) :
    Under call K (MonadExcept.throw error : ExceptT ε (Program Op Ans) α).run (EndsIn E Q) := h

theorem done {value : α} (h : ∀ s, K s → Q value s) :
    Under call K (Pure.pure value : ExceptT ε (Program Op Ans) α).run (EndsIn E Q) := h

theorem orBadGateway_ends {program : Erring α} {E : String → Appliance → Prop}
    {F : HttpResponse → Appliance → Prop} (h : Under call K program.run (EndsIn E Q))
    (ends : ∀ error s, E error s → F (errorResponse 502 error) s) :
    Under call K (orBadGateway program).run (EndsIn F Q) := by
  refine bind h fun result => ?_
  cases result with
  | ok value => exact pure fun _ hq => hq
  | error error => exact pure (ends error)

theorem orBadGateway {program : Erring α} {E : String → Appliance → Prop}
    (h : Under call K program.run (EndsIn E Q)) :
    Under call K (orBadGateway program).run (call.Ends Q) :=
  orBadGateway_ends h fun _ _ _ => plain_responds rfl

theorem checked {result : Except HttpResponse α}
    (plain : ∀ response s, result = .error response → call.Responds response s) :
    Under call K (checked result).run (call.Ends fun value s => K s ∧ result = .ok value) := by
  cases result with
  | ok value => exact pure fun _ hk => ⟨hk, rfl⟩
  | error response => exact pure fun s _ => plain response s rfl

end Under

/-! ## The parts of the handlers -/

section Parts

variable {K : Appliance → Prop}

theorem completeDesired_under (stable : Stable (draftPath call.owner) K) :
    Under call K completeDesired.run
      (EndsIn (fun _ => K) fun state s => K s ∧ Read state s) := by
  have asked := @Under.netd _ call K .getDesired
    (fun answer s => ∀ state, answer = .ok (.desired (.ok state)) → Read state s) stable
    (fun _ _ => .looks id) ?_ (fun _ _ _ => nofun)
  · refine Under.bind asked fun answer => ?_
    rcases answer with error | answer
    · exact Under.pure fun _ h => h.1
    · cases answer with
      | desired result =>
        cases result with
        | error error => exact Under.pure fun _ h => h.1
        | ok state => exact Under.pure fun s h => ⟨h.1, h.2 state rfl⟩
      | _ => exact Under.pure fun _ h => h.1
  · rintro s s' answer served state same
    cases same
    obtain ⟨ledger, has, rfl⟩ := served.desired
    intro ledger' has'
    rw [has.unique has']
    exact .inl (.refl _)

theorem acceptedSnapshot_under (stable : Stable (draftPath call.owner) K) :
    Under call K acceptedSnapshotForDrafting fun _ => K := by
  refine Under.bind (Under.look (Q := fun _ => True) stable (fun _ _ => rfl)
    fun _ _ _ => trivial) fun answer => ?_
  rcases answer with error | content
  · exact Under.pure fun _ h => h.1
  · cases content <;> exact Under.pure fun _ h => h.1

theorem snapshot_under :
    Under call (fun _ => True) acceptedSnapshotForDrafting (Silently fun _ _ => True) := by
  refine (acceptedSnapshot_under stable_true).mono fun result _ _ => ?_
  cases result with
  | ok state => exact trivial
  | error error => exact trivial

theorem readDraft_under :
    Under call (fun _ => True) (readDraft (draftPath call.owner)).run
      (Silently fun draft s => s.drafts (draftPath call.owner) = draft.map .parsed) := by
  have asked := @Under.ask _ call (fun _ => True) (.readDraft (draftPath call.owner))
    (fun answer s => answer = .error .notFound ∧ s.drafts (draftPath call.owner) = none ∨
      (∃ error, answer = .error (.failed error)) ∨
      ∃ raw, answer = .ok raw ∧ s.drafts (draftPath call.owner) = some raw) stable_true ?_
  · refine Under.bind asked fun answer s h => ?_
    rcases h with ⟨rfl, none⟩ | ⟨error, rfl⟩ | ⟨raw, rfl, some⟩
    · exact none
    · exact trivial
    · cases raw with
      | parsed draft => exact some
      | garbled bytes => exact trivial
  · intro s _ choice
    refine ⟨.same, ?_⟩
    show (readRaw _ _ = _ ∧ s.drafts _ = _) ∨ _
    cases stored : s.drafts (draftPath call.owner) with
    | none => exact .inl ⟨rfl, rfl⟩
    | some raw =>
      cases fault : choice.fault with
      | none =>
        refine .inr (.inr ⟨raw, ?_, stored⟩)
        show readRaw _ _ = _
        rw [stored, fault]
        rfl
      | some fault' =>
        refine .inr (.inl ⟨fault'.error, ?_⟩)
        show readRaw _ _ = _
        rw [stored, fault]
        rfl

theorem removeDraft_under {draft : Draft} :
    Under call (fun s => s.drafts (draftPath call.owner) = some (.parsed draft) ∧
        Credited call.owner draft.version s) (removeDraft (draftPath call.owner)).run
      (Silently fun _ s => s.drafts (draftPath call.owner) = none) := by
  refine Under.ask (stable_draft.and stable_credited) fun s h choice => ?_
  have there : (s.drafts (draftPath call.owner)).isSome = true := by
    rw [h.1]
    rfl
  have taken : exec (.removeDraft (draftPath call.owner)) choice s =
      (choice.result, choice.after s (s.setDraft (draftPath call.owner) none)) := if_pos there
  rw [taken]
  refine ⟨draft_does (.removed h.1 h.2), ?_⟩
  unfold Choice.result Choice.after
  cases choice.fault with
  | none => exact Function.update_self _ _ _
  | some fault => exact trivial

theorem wasAccepted_under {version : String} {revision : Nat}
    (stable : Stable (draftPath call.owner) K) :
    Under call K (wasAccepted call.owner version revision) fun accepted s =>
      K s ∧ (accepted = true → Credited call.owner version s) := by
  have asked := @Under.netd _ call K
    (.wasDraftAccepted (some revision) (some version) (some call.owner))
    (fun answer s => answer = .ok (.accepted (.ok true)) → Credited call.owner version s) stable
    (fun _ _ => .looks id) ?_ (fun _ _ => nofun)
  · refine Under.bind asked fun answer => ?_
    rcases answer with error | answer
    · exact Under.pure fun _ h => ⟨h.1, nofun⟩
    · cases answer with
      | accepted result =>
        cases result with
        | error error => exact Under.pure fun _ h => ⟨h.1, nofun⟩
        | ok accepted => exact Under.pure fun _ h => ⟨h.1, fun yes => h.2 (by rw [yes])⟩
      | _ => exact Under.pure fun _ h => ⟨h.1, nofun⟩
  · rintro s s' answer served same
    cases same
    exact served.draftAccepted

theorem confirmedDraft_under {draft : Draft} {snapshot : Option DesiredState}
    (stable : Stable (draftPath call.owner) K) :
    Under call K (confirmedDraft call.owner draft snapshot) fun confirmed s =>
      K s ∧ (confirmed = true → Credited call.owner draft.version s ∧
        ∃ accepted, snapshot = some accepted ∧ accepted.revision ≠ draft.baseRevision) := by
  cases snapshot with
  | none => exact Under.pure fun _ hk => ⟨hk, nofun⟩
  | some snapshot =>
    unfold confirmedDraft
    dsimp only
    split
    · exact Under.pure fun _ hk => ⟨hk, nofun⟩
    next differs =>
      refine Under.bind (completeDesired_under stable) fun result => ?_
      rcases result with error | state
      · exact Under.pure fun _ hk => ⟨hk, nofun⟩
      · dsimp only
        split
        · exact Under.pure fun _ h => ⟨h.1, nofun⟩
        · refine ((wasAccepted_under stable).before fun _ h => h.1).mono fun confirmed s h => ?_
          exact ⟨h.1, fun yes => ⟨h.2 yes, snapshot, rfl, differs⟩⟩

/-- The draft that is there, unless it was accepted. -/
theorem readDraftReconciled_under {snapshot : Option DesiredState} :
    Under call (fun _ => True) (readDraftReconciled call.owner snapshot).run
      (Silently fun draft s => s.drafts (draftPath call.owner) = draft.map .parsed) := by
  refine Under.seq readDraft_under fun draft => ?_
  rcases draft with _ | draft
  · exact Under.done fun _ h => h
  · refine Under.seq (Under.lift (confirmedDraft_under stable_draft)) fun confirmed => ?_
    cases confirmed with
    | false => exact Under.done fun _ h => h.1
    | true =>
      refine Under.seq (removeDraft_under.before fun _ h => ⟨h.1, (h.2 rfl).1⟩) fun _ => ?_
      exact Under.done fun _ h => h

theorem withoutDraft_under :
    Under call (fun _ => True) (withoutDraft call.owner).run (call.Ends fun _ _ => True) := by
  refine Under.seq (Under.lift (acceptedSnapshot_under stable_true)) fun snapshot => ?_
  refine Under.seq (Under.orBadGateway readDraftReconciled_under) fun draft => ?_
  rcases draft with _ | draft
  · exact Under.done fun _ _ => trivial
  · exact Under.throw fun _ _ => plain_responds rfl

theorem editedDesired_under {baseRevision : Nat} {edit : Edit} :
    Under call (fun _ => True) (editedDesired call.owner baseRevision edit).run
      (call.Ends fun edited => Edited baseRevision edit edited) := by
  refine Under.seq withoutDraft_under fun _ => ?_
  refine Under.seq (Under.orBadGateway (completeDesired_under stable_true)) fun read => ?_
  dsimp only
  split
  · exact Under.throw fun _ _ => plain_responds rfl
  next same =>
    have plain : ∀ response s, edit.apply read = .error response → call.Responds response s :=
      fun _ _ => edit_plain
    refine (Under.checked plain).mono fun result s h => ?_
    rcases result with response | edited
    · exact h
    · exact ⟨read, h.1.2, not_not.mp same, h.2⟩

/-- A request that is submitted claims nothing of a draft. -/
theorem submit_under {K : Appliance → Prop} {cmd : Request} {status : Reply → Nat}
    {unavailable : String → String} (stable : Stable (draftPath call.owner) K)
    (sends : ∀ s, K s → call.Sends s cmd) :
    Under call K (submit cmd status unavailable) call.Responds := by
  refine Under.bind (Under.netd (Q := fun _ _ => True) stable sends (fun _ _ _ _ => trivial)
    fun _ _ => trivial) fun answer => ?_
  rcases answer with error | answer
  · exact Under.pure fun _ _ => plain_responds rfl
  · exact Under.pure fun _ _ => plain_responds rfl

theorem applyEdited_under {baseRevision : Nat} {edit : Edit} {edited : DesiredState}
    {status : Reply → Nat} {unavailable : String → String}
    (applies : call.locked.Applies baseRevision edit) :
    Under call (Edited baseRevision edit edited)
      (submit (.applyDesired (.ok edited) (some baseRevision) (some call.owner) none) status
        unavailable) call.Responds := by
  refine submit_under stable_edited fun s h => ?_
  obtain ⟨read, was, rfl, h⟩ := h
  exact .edits applies was h

/-! ## The handlers -/

theorem draftStatus_under :
    Under call (fun _ => True) (draftStatus call.owner).run (call.Ends call.Responds) := by
  refine Under.seq (Under.orBadGateway snapshot_under) fun accepted => ?_
  refine Under.seq (Under.orBadGateway readDraftReconciled_under) fun draft => ?_
  rcases draft with _ | draft
  · exact Under.done fun _ _ => plain_responds rfl
  · exact Under.done fun _ _ => plain_responds rfl

/-- A draft is stored where there was none, or in place of the one that the request names. -/
theorem storeDraft_under {existing : Option Draft} {made : Except HttpResponse Draft}
    {encrypted : Option Bool}
    (plain : ∀ response s, made = .error response → call.Responds response s)
    (named : ∀ draft old, made = .ok draft → existing = some old →
      call.locked.replaces = some old.version) :
    Under call (fun s => s.drafts (draftPath call.owner) = existing.map .parsed)
      (storeDraft call.owner made encrypted).run (call.Ends call.Responds) := by
  refine Under.seq (Under.checked plain) fun draft => ?_
  have stable : Stable (draftPath call.owner) fun s =>
      s.drafts (draftPath call.owner) = existing.map .parsed ∧ made = .ok draft :=
    stable_draft.and fun _ _ _ h => h
  have written : Under call (fun s => s.drafts (draftPath call.owner) = existing.map .parsed ∧
      made = .ok draft) (ask (.writeDraft (draftPath call.owner) draft))
      (Silently fun _ s => s.drafts (draftPath call.owner) = some (.parsed draft)) := by
    refine Under.ask stable fun s h choice => ⟨draft_does ?_, ?_⟩
    · rcases existing with _ | old
      · exact .written h.1
      · exact .replaced h.1 (named draft old h.2 rfl)
    · show Silently _ choice.result _
      unfold exec Choice.result Choice.after
      cases choice.fault with
      | none => exact Function.update_self _ _ _
      | some fault => exact trivial
  refine Under.seq (Under.orBadGateway written) fun _ => Under.done ?_
  rintro s stored baseRevision version other ⟨⟩
  exact ⟨draft, stored, rfl, rfl⟩

theorem redraft_under {make : Option Draft → Except String DesiredState → Except String String →
      Except Refusal Draft}
    (named : ∀ old snapshot token draft, make (some old) snapshot token = .ok draft →
      call.locked.replaces = some old.version) :
    Under call (fun _ => True) (redraft call.owner make).run (call.Ends call.Responds) := by
  refine Under.seq (Under.lift (acceptedSnapshot_under stable_true)) fun snapshot => ?_
  refine Under.seq (Under.orBadGateway readDraftReconciled_under) fun existing => ?_
  refine Under.seq (Under.lift (Under.look (Q := fun _ => True) stable_draft (fun _ _ => rfl)
    fun _ _ _ => trivial)) fun token => ?_
  refine (storeDraft_under (fun _ _ => refused_plain) ?_).before fun _ h => h.1
  rintro draft old made rfl
  cases outcome : make (some old) snapshot token with
  | ok other => exact named old snapshot token other outcome
  | error error =>
    rw [outcome] at made
    cases made

theorem importDraft_under {imported : DesiredState} {baseRevision : Nat} {encrypted : Bool} :
    Under call (fun _ => True) (importDraft call.owner imported baseRevision encrypted).run
      (call.Ends call.Responds) := by
  refine Under.seq (Under.orBadGateway snapshot_under) fun accepted => ?_
  refine Under.seq (Under.orBadGateway readDraftReconciled_under) fun existing => ?_
  refine Under.seq (Under.lift (Under.look (Q := fun _ => True) stable_draft (fun _ _ => rfl)
    fun _ _ _ => trivial)) fun token => ?_
  refine (storeDraft_under (fun _ _ => importChecks_plain) ?_).before fun _ h => h.1
  rintro draft old made rfl
  cases importChecks_none made

theorem referredDraft_under {reference : DraftReference} :
    Under call (fun _ => True) (referredDraft call.owner reference).run
      (call.Ends fun draft s => s.drafts (draftPath call.owner) = some (.parsed draft) ∧
        reference = ⟨draft.baseRevision, draft.version⟩) := by
  refine Under.seq (Under.lift (acceptedSnapshot_under stable_true)) fun snapshot => ?_
  refine Under.seq (Under.orBadGateway readDraftReconciled_under) fun draft => ?_
  rcases draft with _ | draft
  · exact Under.throw fun _ _ => plain_responds rfl
  · dsimp only
    split
    · exact Under.throw fun _ _ => plain_responds rfl
    next same =>
      obtain ⟨base, version⟩ := not_or.mp same
      refine Under.seq (Under.orBadGateway (completeDesired_under stable_draft)) fun accepted => ?_
      split
      · exact Under.throw fun _ _ => plain_responds rfl
      · refine Under.done fun s h => ⟨h.1, ?_⟩
        rw [not_not.mp base, not_not.mp version]

theorem finishDraft_under {draft : Draft} {answer : Answer} :
    Under call (fun s => s.drafts (draftPath call.owner) = some (.parsed draft) ∧
      Credited call.owner draft.version s) (finishDraft call.owner answer) call.Responds := by
  refine Under.bind removeDraft_under fun result => ?_
  rcases result with error | ⟨⟩
  · exact Under.pure fun _ _ => plain_responds rfl
  · exact Under.pure fun _ _ => plain_responds rfl

/-- Where netd says that a draft is accepted, it has its receipt. -/
theorem applyAsked_under {reference : DraftReference} {draft : Draft}
    (named : call.locked = .apply reference) :
    Under call (fun s => s.drafts (draftPath call.owner) = some (.parsed draft) ∧
        reference = ⟨draft.baseRevision, draft.version⟩)
      (ask (.netdCmd (.applyDesired (.ok draft.desired) (some draft.baseRevision)
        (some call.owner) (some draft.version))))
      fun answer s => s.drafts (draftPath call.owner) = some (.parsed draft) ∧
        ∀ reply, answer = .ok reply → (replyOf reply).ok = true →
          (replyOf reply).outcome ≠ some .pendingConfirmation →
            Credited call.owner draft.version s := by
  have stable : Stable (draftPath call.owner) fun s =>
      s.drafts (draftPath call.owner) = some (.parsed draft) ∧
        reference = ⟨draft.baseRevision, draft.version⟩ :=
    stable_draft.and fun _ _ _ h => h
  have sends (s : Appliance) (h : s.drafts (draftPath call.owner) = some (.parsed draft) ∧
      reference = ⟨draft.baseRevision, draft.version⟩) :
      call.Sends s (.applyDesired (.ok draft.desired) (some draft.baseRevision) (some call.owner)
        (some draft.version)) :=
    .draft (named.trans (congrArg _ h.2)) h.1
  have asked := Under.netd (Q := fun answer s => ∀ reply, answer = .ok reply →
    (replyOf reply).ok = true → (replyOf reply).outcome ≠ some .pendingConfirmation →
      Credited call.owner draft.version s) stable sends
    (fun _ _ reply served other same ok final => ?_) (fun _ _ _ same => nomatch same)
  · exact asked.mono fun _ _ h => ⟨h.1.1, h.2⟩
  · cases same
    exact served.credited ok final

theorem applyDraft_under {reference : DraftReference} (named : call.locked = .apply reference) :
    Under call (fun _ => True) (applyDraft call.owner reference).run
      (call.Ends call.Responds) := by
  refine Under.seq referredDraft_under fun draft => ?_
  refine Under.seq (Under.lift (applyAsked_under named)) fun answer => ?_
  rcases answer with error | reply
  · exact Under.done fun _ _ => plain_responds rfl
  · dsimp only
    split
    · exact Under.done fun _ _ => plain_responds rfl
    next ok =>
      split
      · exact Under.done fun _ _ => plain_responds rfl
      next final =>
        have accepted : (replyOf reply).ok = true := by simpa using ok
        exact (Under.lift finishDraft_under).before fun s h =>
          ⟨h.1, h.2 reply rfl accepted final⟩

/-- However the handling ends, the request ends with its response. -/
theorem Under.program {P : HttpResponse → Appliance → Prop}
    (handled : Under call K (call.locked.handling call.owner).run (EndsIn P P)) :
    Under call K call.program P := by
  refine Under.bind handled fun result => ?_
  cases result with
  | ok response => exact Under.pure fun _ h => h
  | error response => exact Under.pure fun _ h => h

/-- Under its owner's lock a request does only what it may do, whatever the others do. -/
theorem program_under : Under call (fun _ => True) call.program call.Responds := by
  have handled : Under call (fun _ => True) (call.locked.handling call.owner).run
      (call.Ends call.Responds) := by
    obtain ⟨owner, locked⟩ := call
    cases locked with
    | status => exact draftStatus_under
    | save change => exact redraft_under fun _ _ _ _ made => savedDraft_named made
    | apply reference => exact applyDraft_under rfl
    | reconcile request =>
      exact redraft_under fun _ _ _ _ made => congrArg some (reconciledDraft_named made)
    | importDesired imported baseRevision encrypted => exact importDraft_under
    | edit baseRevision change =>
      exact Under.seq editedDesired_under fun _ => Under.lift (applyEdited_under ⟨rfl, rfl⟩)
    | configure baseRevision enabled =>
      exact Under.seq editedDesired_under fun _ => Under.lift (applyEdited_under ⟨rfl, rfl⟩)
  exact Under.program handled

end Parts

/-! ## Requests among others -/

/-- It leaves every draft, and what it leaves for netd to take is no edit. -/
theorem Lockless.kept {op : Op} {choice : Choice} (h : Lockless op) :
    (∀ path, Relies path s (exec op choice s).2) ∧
      ∀ cmd ∈ (exec op choice s).2.sent, cmd ∈ s.sent ∨ ¬ AppliesEdit cmd := by
  cases op with
  | bootstrapExists => exact ⟨fun _ => .refl s, fun _ mem => .inl mem⟩
  | netdCmd cmd =>
    refine ⟨fun _ => netd_relies, fun other mem => ?_⟩
    obtain ⟨fault, served, token⟩ := choice
    cases served with
    | now choices lost =>
      have sent := (@Appliance.serve_served s _ cmd choices).kept.2
      exact .inl (sent ▸ mem)
    | later error =>
      rcases List.mem_append.mp mem with mem | mem
      · exact .inl mem
      · obtain rfl := List.mem_singleton.mp mem
        exact .inr h
    | never error => exact .inl mem
  | readDesired => cases h
  | readDraft => cases h
  | removeDraft => cases h
  | writeDraft => cases h
  | randomToken => cases h

/-- The lock is the one of the owner's draft. -/
def HasLock (path : String) (call : Call) : Prop := path = draftPath call.owner

/-- What changes the appliance while nobody who has a lock makes a call: netd takes a turn, crashes,
ends or starts, or a handler without a lock makes a call. -/
inductive Moves (s : Appliance) : Appliance → Prop where
  | netd {happening : Happening} {process : Process}
      (step : Process.Step s.process happening process) : Moves s (s.after step)
  | unlocked {op : Op} (h : Unlocked op) (choice : Choice) : Moves s (exec op choice s).2

theorem Moves.relies (h : Moves s s') (path : String) : Relies path s s' := by
  cases h with
  | netd => exact ⟨Appliance.after_goes, rfl⟩
  | unlocked h choice => exact h.lockless.kept.1 path

/-- The UI is killed with all its requests. -/
def Restarted (s s' : Appliance) : Prop := s' = s

abbrev Serving.Step : Serving → Serving.Event → Serving → Prop :=
  Pool.Step semantics (fun _ => True) Call.program HasLock Moves Restarted

theorem handlers_verified :
    Verified semantics (fun _ => True) Call.program HasLock Moves Relies
      (fun call => call.Does) (fun call _ response s => call.Responds response s) where
  refl _ s := .refl s
  trans _ _ _ _ := .trans
  others path _ call _ _ differs mine does :=
    ⟨does.toGoes, does.others path fun same => differs (mine.trans same.symm)⟩
  moved path _ _ moves := moves.relies path
  verified _ call start mine := by
    obtain rfl := mine
    exact program_under start trivial

/-! ## Edits -/

/-- netd may take this request: its sender asks, or no longer waits. -/
def Serving.Asks (pool : Serving) (cmd : Request) : Prop :=
  cmd ∈ pool.state.sent ∨ ∃ path running next, pool.running path = some running ∧
    running.rest = .call (.netdCmd cmd) next

section Pools

variable {start : Appliance} {events : List Serving.Event} {pool pool' : Serving}

theorem sentApt_step {event : Serving.Event}
    (begun : ∀ thread running, pool.running thread = some running →
      .began thread running.call ∈ events)
    (lawful : Lawful HasLock Moves Restarted Relies (fun call => call.Does)
      (fun call _ response s => call.Responds response s) pool event pool')
    (apt : SentApt events pool.state) : SentApt (events ++ [event]) pool'.state := by
  have same (left : pool'.state = pool.state) : SentApt (events ++ [event]) pool'.state := by
    rw [left]
    exact sentApt_goes apt (.refl _) fun _ mem => .inl mem
  cases event with
  | began thread call => exact same lawful
  | called thread =>
    obtain ⟨running, turn, -, does⟩ := lawful
    refine sentApt_goes apt does.toGoes fun cmd mem => (does.sent cmd mem).imp_right fun sends => ?_
    exact sends.apt ⟨thread, begun thread running turn⟩
  | returned call begun response => exact same lawful.1
  | killed thread => exact same lawful
  | moved =>
    have moves : Moves pool.state pool'.state := lawful
    refine sentApt_goes apt (moves.relies "").toGoes fun cmd mem => ?_
    generalize pool'.state = left at moves mem
    cases moves with
    | netd => exact .inl mem
    | unlocked h choice => exact (h.lockless.kept.2 cmd mem).imp_right .other
  | disaster => exact same lawful

theorem sentApt_run (init : SentApt [] start)
    (run : Runs (LawfulStep semantics (fun _ => True) Call.program HasLock Moves Restarted Relies
      (fun call => call.Does) (fun call _ response s => call.Responds response s))
      { state := start } events pool) : SentApt events pool.state := by
  induction run with
  | refl => exact init
  | snoc before step ih =>
    have begun := running_began (before.mono fun _ _ _ h => h.step)
    exact sentApt_step begun step.lawful ih

theorem asks_apt (idle : start.sent = []) (run : Runs Serving.Step { state := start } events pool)
    {cmd : Request} (asks : pool.Asks cmd) : Apt (Serving.Began events) pool.state cmd := by
  obtain ⟨lawful, sound⟩ := pool_lawful handlers_verified run
  have init : SentApt [] start := by
    intro cmd mem
    rw [idle] at mem
    cases mem
  have apt : SentApt events pool.state := sentApt_run init lawful
  rcases asks with mem | ⟨path, running, next, turn, rest⟩
  · exact apt cmd mem
  · -- The sender may stop to wait: then the request is one that it may send.
    obtain ⟨-, last, relied, verified⟩ := sound path running turn
    rw [rest] at verified
    obtain ⟨does, -⟩ := verified pool.state relied { served := .later "" } trivial
    rcases does.sent cmd (List.mem_append_right _ (List.mem_singleton_self _)) with mem | sends
    · exact apt cmd mem
    · exact sends.apt ⟨path, running_began run path running turn⟩

end Pools

end Handlers

/-! ## What netd has Accepted or proposed -/

/-- A network that is Accepted or proposed. -/
def Ledger.Names (ledger : Ledger) (pending : Option Proposal) (network : DesiredState) : Prop :=
  ledger.network = network ∨ ∃ proposal, pending = some proposal ∧ proposal.network = network

def Process.Names (process : Process) (network : DesiredState) : Prop :=
  process.world.ledger.map (·.network) = some network ∨
    ∃ proposal, (process.running = true ∧ process.world.proposal = some proposal) ∧
      proposal.network = network

section Names

variable {process : Process} {account account' : Account} {network asked : DesiredState}
  {baseRevision : Option Nat} {applying : Option Principal} {version : Option String}

theorem names_iff (holds : process.Holds account) :
    process.Names network ↔ account.ledger.Names account.pending network := by
  unfold Process.Names Ledger.Names
  rw [holds.ledger_eq, Option.map_some, Option.some.injEq]
  exact or_congr_right (exists_congr fun _ =>
    and_congr_left' (ProcessesLemmas.awaits_iff holds))

variable [Base64]

/-- What an apply names anew is what was asked for, at the next revision. -/
theorem Account.Turned.names {now : Nat} {ledger : Ledger} {pending : Option Proposal}
    (h : account.Turned now
      (.request (.applyDesired (.ok asked) baseRevision applying version)) ledger pending)
    (named : ledger.Names pending network) :
    account.ledger.Names account.pending network ∨
      baseRevision = some account.ledger.network.revision ∧
        ∃ live, network = account.ledger.successor live asked := by
  cases h with
  | kept => exact .inl named
  | abandoned resolves => cases resolves
  | recovered resolves => cases resolves
  | @applied _ _ _ live _ idle off valid accepts =>
    refine .inr ⟨rfl, live, ?_⟩
    rcases named with same | ⟨proposal, awaited, -⟩
    · exact same.symm.trans accepts.becomes
    · cases awaited
  | proposed live =>
    rcases named with same | ⟨proposal, awaited, same⟩
    · exact .inl (.inl same)
    · cases awaited
      exact .inr ⟨rfl, live, same.symm⟩

theorem Account.Step.names {happening : Happening} (h : account.Step happening account')
    (about : happening.turn? =
      some (.request (.applyDesired (.ok asked) baseRevision applying version)))
    (named : account'.ledger.Names account'.pending network) :
    account.ledger.Names account.pending network ∨
      baseRevision = some account.ledger.network.revision ∧
        ∃ live, network = account.ledger.successor live asked := by
  cases h with
  | turn _ _ h =>
    cases about
    exact h.names named
  | crash _ _ h =>
    cases about
    refine h.names ?_
    rcases named with same | ⟨proposal, awaited, -⟩
    · exact .inl same
    · cases awaited
  | stop => cases about
  | kept => cases about
  | recovered => cases about

end Names

namespace Handlers

/-! ## One administrator alone -/

namespace Alone

open Receipts (noKeys admin)

theorem fresh_opens : Receipts.fresh.Opens Receipts.network := ⟨⟨rfl, rfl, rfl⟩, rfl, rfl⟩

def appliance : Appliance where
  process := ⟨Receipts.fresh, true⟩
  held := ⟨_, fresh_opens.holds⟩
  ledgers := Receipts.fresh.ledger.toList

def begun (call : Call) : Serving where
  state := appliance
  running := Function.update (fun _ => none) (draftPath call.owner)
    (some ⟨call, appliance, call.program⟩)

/-- A request after some of its calls. -/
def ahead (call : Call) (choices : List Choice) : Prog HttpResponse × Appliance :=
  letI := noKeys
  call.program.ahead semantics choices appliance

theorem ahead_runs (call : Call) (choices : List Choice) :
    letI := noKeys
    ∃ events pool, Runs Serving.Step { state := appliance } events pool ∧
      (∀ other, Serving.Began events other → other = call) ∧
      pool.state = (ahead call choices).2 ∧
      pool.running (draftPath call.owner) = some ⟨call, appliance, (ahead call choices).1⟩ := by
  let _ : Base64 := noKeys
  have first : Serving.Step { state := appliance } (.began (draftPath call.owner) call)
      (begun call) := .began rfl rfl
  have turn : (begun call).running (draftPath call.owner) =
      some ⟨call, appliance, call.program⟩ := by
    simp only [begun, Function.update_self]
  obtain ⟨events, pool, run, calls, rest⟩ := runs_alone choices (fun _ _ => trivial) turn
  refine ⟨_, pool, (Runs.single first).trans run, ?_, rest⟩
  rintro other ⟨path, mem⟩
  rcases List.mem_cons.mp mem with same | later
  · cases same
    rfl
  · cases calls _ later

def saving : Call := ⟨admin, .save { firewall := some [], baseRevision := 1 }⟩

/-- What the next call of the request leaves. -/
def saved (s : Appliance) : Appliance :=
  letI := noKeys
  ((ahead saving [{}, {}, {}]).1.ahead semantics [{}] s).2

def route : StaticRoute := { dest := "198.51.100.0/24", via := "192.168.1.2" }

def editing : Call := ⟨admin, .edit 1 (.addRoute route)⟩

/-- Until the network is read of netd and the edit is made. -/
def editChoices : List Choice := [{}, {}, { served := .now (List.replicate 8 {}) none }]

def routed : DesiredState := { numbered Receipts.network with routes := [route] }

def editRequest : Request := .applyDesired (.ok routed) (some 1) (some admin) none

/-- netd takes the edit. -/
def edited : Effects.Outcome Fwos.Choice World Unit :=
  letI := noKeys
  (Turn.request editRequest).program.run Fwos.semantics (List.replicate 80 {})
    (ahead editing editChoices).2.process.world

theorem editing_op : (ahead editing editChoices).1.op? = some (.netdCmd editRequest) := by
  rfl

theorem edited_step :
    letI := noKeys
    Process.Step (ahead editing editChoices).2.process (.turn (.request editRequest))
      ⟨edited.state, true⟩ := by
  let _ : Base64 := noKeys
  obtain ⟨unused, hr⟩ := Outcome.eq_done (show edited.value? = some () by decide +kernel)
  have running : (ahead editing editChoices).2.process.running = true := by decide +kernel
  rw [show (ahead editing editChoices).2.process =
    ⟨(ahead editing editChoices).2.process.world, true⟩ from by rw [← running]]
  exact .turn hr

theorem edited_network : ∃ network, edited.state.ledger.map (·.network) = some network ∧
    network.revision = 2 ∧ network.routes = [route] := by
  obtain ⟨ledger, same, edits⟩ := Option.map_eq_some_iff.mp
    (show edited.state.ledger.map (fun ledger => (ledger.network.revision, ledger.network.routes)) =
      some (2, [route]) by decide +kernel)
  obtain ⟨revision, routes⟩ := Prod.mk.inj edits
  exact ⟨ledger.network, by rw [same]; rfl, revision, routes⟩

theorem editing_names {network : DesiredState}
    (h : (ahead editing editChoices).2.process.Names network) : network.revision = 1 := by
  rcases h with same | ⟨proposal, ⟨-, awaited⟩, -⟩
  · have revision : (ahead editing editChoices).2.process.world.ledger.map (·.network.revision) =
        some 1 := by decide +kernel
    rw [show (fun ledger : Ledger => ledger.network.revision) =
      DesiredState.revision ∘ Ledger.network from rfl, ← Option.map_map, same] at revision
    exact Option.some.inj revision
  · have idle : (ahead editing editChoices).2.process.world.proposal.isSome = false := by
      decide +kernel
    rw [awaited] at idle
    cases idle

end Alone

/-! ## Edits and drafts among others -/

section Edits

variable [Base64] {start : Appliance} {events : List Serving.Event} {pool pool' : Serving}

/-- No update is lost, whatever the interleaving, whoever is killed and whichever answers are lost:
where netd takes the edit of a section, at once or after its sender has given up, and has a new
network Accepted or proposed by it, this is the edit that a call of this administrator has begun
with, of the network that netd has Accepted, at the next revision. -/
theorem no_update_lost (idle : start.sent = [])
    (run : Runs Serving.Step { state := start } events pool) {asked network : DesiredState}
    {baseRevision : Nat} {applying : Option Principal}
    (asks : pool.Asks (.applyDesired (.ok asked) (some baseRevision) applying none))
    {happening : Happening} {process : Process}
    (step : Process.Step pool.state.process happening process)
    (about : happening.turn? =
      some (.request (.applyDesired (.ok asked) (some baseRevision) applying none)))
    (named : process.Names network) (fresh : ¬ pool.state.process.Names network) :
    ∃ call edit ledger read live, Serving.Began events call ∧ applying = some call.owner ∧
      call.locked.Applies baseRevision edit ∧ pool.state.Has ledger ∧
      read.Gains ledger.network ∧ edit.apply read = .ok asked ∧
      network = ledger.successor live asked := by
  obtain ⟨account, holds⟩ := pool.state.held
  obtain ⟨account', taken, holds'⟩ := process_simulates _ _ _ _ holds step
  rcases taken.names about ((names_iff holds').mp named) with old | ⟨same, live, made⟩
  · exact absurd ((names_iff holds).mpr old) fresh
  · cases asks_apt idle run asks with
    | other h => exact absurd trivial h
    | @edits call read _ edit mine applies was edited =>
      -- netd compares the revision it was asked with: an older network is out.
      have current : read.revision = account.ledger.network.revision := Option.some.inj same
      have gains : read.Gains account.ledger.network :=
        (was _ holds.ledger_eq).resolve_right current.not_lt
      exact ⟨call, edit, account.ledger, read, live, mine, rfl, applies, holds.ledger_eq, gains,
        edited, made⟩

end Edits

theorem no_update_lost_routed :
    letI := Receipts.noKeys
    ∃ network ledger read live,
      Alone.edited.state.ledger.map (·.network) = some network ∧
      (Alone.ahead Alone.editing Alone.editChoices).2.Has ledger ∧ read.Gains ledger.network ∧
      Edit.apply read (.addRoute Alone.route) = .ok Alone.routed ∧
      network = ledger.successor live Alone.routed ∧ network.routes = [Alone.route] := by
  let _ : Base64 := Receipts.noKeys
  obtain ⟨events, pool, run, only, state, turn⟩ :=
    Alone.ahead_runs Alone.editing Alone.editChoices
  obtain ⟨next, rest⟩ := Program.op?_eq_some.mp Alone.editing_op
  rw [rest] at turn
  have asks : pool.Asks Alone.editRequest := .inr ⟨_, _, next, turn, rfl⟩
  have step := Alone.edited_step
  rw [← state] at step
  obtain ⟨network, named, revision, routes⟩ := Alone.edited_network
  have fresh : ¬ pool.state.process.Names network := by
    rw [state]
    intro old
    cases (Alone.editing_names old).symm.trans revision
  obtain ⟨call, edit, ledger, read, live, began, -, applies, has, gains, made, becomes⟩ :=
    no_update_lost rfl run asks step rfl (.inl named) fresh
  -- The only call of this run is the administrator's, with this edit.
  obtain rfl := only call began
  obtain ⟨-, rfl⟩ := applies
  rw [state] at has
  exact ⟨network, ledger, read, live, named, has, gains, made, becomes, routes⟩

section Drafts

variable [Base64] {start : Appliance} {events : List Serving.Event} {pool pool' : Serving}

/-- A draft that a response says is pending is stored when the response is given. -/
theorem pending_stored (run : Runs Serving.Step { state := start } events pool) {call : Call}
    {begun : Appliance} {response : HttpResponse}
    (step : Serving.Step pool (.returned call begun response) pool') :
    call.Responds response pool'.state := by
  obtain ⟨-, sound⟩ := pool_lawful handlers_verified run
  obtain ⟨same, path, last, mine, responds, relied⟩ := (sound_step handlers_verified sound step).1
  intro baseRevision version encrypted pending
  obtain ⟨draft, stored, named⟩ := responds baseRevision version encrypted pending
  refine ⟨draft, ?_, named⟩
  rw [same, ← show path = draftPath call.owner from mine, relied.draft,
    show path = draftPath call.owner from mine]
  exact stored

/-- A draft changes only at a request of its owner: it is written where there is none, replaced by
a request that names its version, and removed only if netd has had its receipt since the start. -/
theorem draft_custody (run : Runs Serving.Step { state := start.watched } events pool)
    {event : Serving.Event} (step : Serving.Step pool event pool') {path : String}
    (changed : pool'.state.drafts path ≠ pool.state.drafts path) :
    ∃ running, event = .called path ∧ pool.running path = some running ∧
      path = draftPath running.call.owner ∧
      (∀ owner, path = draftPath owner → sameOwner owner running.call.owner = true) ∧
      running.call.Leaves pool.state (pool'.state.drafts path) := by
  obtain ⟨-, sound⟩ := pool_lawful handlers_verified run
  have lawful := (sound_step handlers_verified sound step).1
  have moved (same : pool'.state = pool.state) : False :=
    changed (congrArg (fun s : Appliance => s.drafts path) same)
  cases event with
  | began thread call => exact (moved lawful).elim
  | called thread =>
    obtain ⟨running, turn, mine, does⟩ := lawful
    -- A request changes no draft but its owner's, whose lock it has.
    have same : path = draftPath running.call.owner :=
      by_contra fun other => changed (does.others path other)
    obtain rfl : thread = path := Eq.trans mine same.symm
    refine ⟨running, rfl, turn, mine, fun owner its => draftPath_owner (its.symm.trans mine), ?_⟩
    rw [same]
    exact does.draft
  | returned call begun response => exact (moved lawful.1).elim
  | killed thread => exact (moved lawful).elim
  | moved =>
    have moves : Moves pool.state pool'.state := lawful
    exact absurd (moves.relies path).draft changed
  | disaster => exact (moved lawful).elim

end Drafts

theorem draft_custody_saved :
    letI := Receipts.noKeys
    ∃ (pool pool' : Serving) (running : Running Op Ans Appliance Call HttpResponse),
      pool.running (draftPath Receipts.admin) = some running ∧
      running.call.Leaves pool.state (pool'.state.drafts (draftPath Receipts.admin)) ∧
      (pool'.state.drafts (draftPath Receipts.admin)).isSome = true := by
  let _ : Base64 := Receipts.noKeys
  obtain ⟨events, pool, run, -, state, turn⟩ := Alone.ahead_runs Alone.saving [{}, {}, {}]
  have unfinished : (Alone.ahead Alone.saving [{}, {}, {}]).1.op?.isSome = true := by
    decide +kernel
  have step : Serving.Step pool (.called (draftPath Receipts.admin)) _ :=
    called_alone {} trivial unfinished turn
  have before : (pool.state.drafts (draftPath Receipts.admin)).isSome = false := by
    rw [state]
    decide +kernel
  have after : ((Alone.saved pool.state).drafts (draftPath Receipts.admin)).isSome = true := by
    rw [state]
    decide +kernel
  have changed : (Alone.saved pool.state).drafts (draftPath Receipts.admin) ≠
      pool.state.drafts (draftPath Receipts.admin) := by
    intro same
    rw [same, before] at after
    cases after
  have watched : Runs Serving.Step { state := Alone.appliance.watched } events pool := run
  obtain ⟨running, -, called, -, -, leaves⟩ := draft_custody watched step changed
  exact ⟨pool, _, running, called, leaves, after⟩

end Handlers

end Fwos
