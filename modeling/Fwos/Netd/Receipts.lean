import Fwos.Netd.Turns

/-!
# Draft receipts

The record of the Accepted network has a receipt for each owner: the draft of
that owner that became Accepted last.

* `Exact`: the receipts of a list of accepted applies; `Recorded`: those that a
  record of netd carries.
* `Recorded.next`: what the record of the next apply carries.
* `Spec.wasDraftAccepted` and `Answered.wasDraftAccepted`: what netd answers
  from the record it finds.
-/

namespace Fwos

open Effects

/-! ## The accepted applies -/

/-- What became Accepted: who applied it, and the draft it was. -/
structure Acceptance where
  applying : Option Principal
  draftVersion : Option String
deriving DecidableEq, Repr

/-- The draft version, if the draft is this owner's. -/
def Acceptance.draftOf (acceptance : Acceptance) (owner : Principal) : Option String :=
  match acceptance.applying, acceptance.draftVersion with
  | some actor, some version => if sameOwner actor owner then some version else none
  | _, _ => none

/-- The most recent draft of an owner. -/
def latestDraft (history : List Acceptance) (owner : Principal) : Option String :=
  history.reverse.findSome? (·.draftOf owner)

theorem latestDraft_concat {history : List Acceptance} {acceptance : Acceptance}
    {owner : Principal} : latestDraft (history ++ [acceptance]) owner =
      (acceptance.draftOf owner).or (latestDraft history owner) := by
  rw [latestDraft, List.reverse_append, List.reverse_singleton, List.singleton_append,
    List.findSome?_cons]
  cases acceptance.draftOf owner <;> rfl

theorem sameOwner_iff {left right : Principal} :
    sameOwner left right = true ↔ left.source = right.source ∧ left.subject = right.subject := by
  simp [sameOwner]

/-! ## Receipts -/

/-- Each owner has exactly the receipt of the latest draft. -/
structure Exact (receipts : List DraftReceipt) (revision : Nat) (history : List Acceptance) :
    Prop where
  revisions : ∀ receipt ∈ receipts, receipt.acceptedRevision ≤ revision
  versions : ∀ owner version, (∃ receipt ∈ receipts, sameOwner receipt.owner owner = true ∧
    receipt.version = version) ↔ latestDraft history owner = some version

theorem exact_nil {revision : Nat} : Exact [] revision [] :=
  ⟨by simp, fun owner version => by simp [latestDraft]⟩

theorem Exact.upsertDraft {receipts : List DraftReceipt} {revision next : Nat}
    {history : List Acceptance} (h : Exact receipts revision history) (hn : revision ≤ next)
    (acceptance : Acceptance) :
    Exact (upsertDraft receipts acceptance.applying acceptance.draftVersion next) next
      (history ++ [acceptance]) := by
  obtain ⟨applying, draftVersion⟩ := acceptance
  have untouched (hnone : ∀ owner, Acceptance.draftOf ⟨applying, draftVersion⟩ owner = none) :
      Exact receipts next (history ++ [⟨applying, draftVersion⟩]) := by
    refine ⟨fun receipt hr => (h.revisions receipt hr).trans hn, fun owner version => ?_⟩
    rw [h.versions, latestDraft_concat, hnone]
    rfl
  rcases applying with _ | actor
  · exact untouched fun _ => rfl
  rcases draftVersion with _ | version
  · exact untouched fun _ => rfl
  refine ⟨?_, fun owner wanted => ?_⟩
  · intro receipt hr
    rcases List.mem_append.mp hr with hr | hr
    · exact (h.revisions receipt (List.mem_of_mem_filter hr)).trans hn
    · obtain rfl := List.mem_singleton.mp hr
      exact le_rfl
  · rw [latestDraft_concat]
    simp only [Fwos.upsertDraft, upsertDraftReceipt, List.mem_append, List.mem_filter,
      List.mem_singleton, Acceptance.draftOf]
    cases hs : sameOwner actor owner with
    | true =>
      have replaced : ∀ receipt : DraftReceipt, sameOwner receipt.owner owner = true →
          sameOwner receipt.owner actor = true := by
        intro receipt hr
        rw [sameOwner_iff] at hr hs ⊢
        exact ⟨hr.1.trans hs.1.symm, hr.2.trans hs.2.symm⟩
      simp only [if_true, Option.some_or, Option.some.injEq]
      constructor
      · rintro ⟨receipt, ⟨-, hne⟩ | rfl, ho, hv⟩
        · simp [replaced receipt ho] at hne
        · exact hv
      · rintro rfl
        exact ⟨_, .inr rfl, hs, rfl⟩
    | false =>
      have kept : ∀ receipt : DraftReceipt, sameOwner receipt.owner owner = true →
          sameOwner receipt.owner actor = false := by
        intro receipt hr
        rw [Bool.eq_false_iff] at hs ⊢
        rw [Ne, sameOwner_iff] at hs ⊢
        rw [sameOwner_iff] at hr
        exact fun ha => hs ⟨ha.1.symm.trans hr.1, ha.2.symm.trans hr.2⟩
      simp only [Bool.false_eq_true, if_false, Option.none_or]
      rw [← h.versions]
      constructor
      · rintro ⟨receipt, ⟨hr, -⟩ | rfl, ho, hv⟩
        · exact ⟨receipt, hr, ho, hv⟩
        · cases hs.symm.trans ho
      · rintro ⟨receipt, hr, ho, hv⟩
        exact ⟨receipt, .inl ⟨hr, by simp [kept receipt ho]⟩, ho, hv⟩

/-! ## The record -/

/-- The receipts that the next record takes over. -/
def carried (attribution : Option (Raw ApplyAttribution)) (revision : Nat) : List DraftReceipt :=
  match attribution with
  | some (.parsed prior) => carriedReceipts prior revision
  | _ => []

/-- The record carries the receipts of these applies. -/
structure Recorded (attribution : Option (Raw ApplyAttribution)) (revision : Nat)
    (history : List Acceptance) : Prop where
  exact : Exact (carried attribution revision) revision history
  /-- A legacy record has its draft, and no receipts. -/
  legacy : ∀ record, attribution = some (.parsed record) →
    record.draftVersion = none ∨ record.draftReceipts = []

theorem Recorded.next {attribution : Option (Raw ApplyAttribution)} {revision next : Nat}
    {history : List Acceptance} {applying : Option Principal} {draftVersion : Option String}
    {receipts : List DraftReceipt} (h : Recorded attribution revision history)
    (hn : revision ≤ next)
    (hr : acceptedDraftReceipts attribution revision applying draftVersion next = .ok receipts)
    (confirming : Option Principal) :
    Recorded (some (.parsed {
        revision := next, applying := applying, confirming := confirming
        draftReceipts := receipts })) next (history ++ [⟨applying, draftVersion⟩]) := by
  have upserted : receipts = upsertDraft (carried attribution revision) applying draftVersion next := by
    cases attribution with
    | none => exact (Except.ok.inj hr).symm
    | some raw =>
      cases raw with
      | parsed prior => exact (Except.ok.inj hr).symm
      | garbled bytes => cases hr
  refine ⟨?_, ?_⟩
  · have same : carried (some (.parsed {
        revision := next, applying := applying, confirming := confirming
        draftReceipts := receipts })) next = receipts := by
      simp only [carried, carriedReceipts, bne_self_eq_false, Bool.false_eq_true, if_false]
      cases applying <;> rfl
    rw [same, upserted]
    exact h.exact.upsertDraft hn ⟨applying, draftVersion⟩
  · rintro record h
    obtain rfl : _ = record := by simpa using h
    exact .inl rfl

theorem receiptMatches_iff {record : ApplyAttribution} {revision : Nat} {owner : Principal}
    {version : String} (hl : record.draftVersion = none ∨ record.draftReceipts = [])
    (hb : ∀ receipt ∈ upsertDraft record.draftReceipts record.applying record.draftVersion revision,
      receipt.acceptedRevision ≤ revision) :
    receiptMatches record revision owner version = true ↔
      ∃ receipt ∈ upsertDraft record.draftReceipts record.applying record.draftVersion revision,
        sameOwner receipt.owner owner = true ∧ receipt.version = version := by
  rcases hl with hl | hl
  · have same : upsertDraft record.draftReceipts record.applying record.draftVersion revision =
        record.draftReceipts := by
      rw [hl]
      cases record.applying <;> rfl
    rw [same] at hb ⊢
    simp only [receiptMatches, hl, Bool.or_eq_true, List.any_eq_true, Bool.and_eq_true,
      beq_iff_eq, decide_eq_true_eq, reduceCtorEq, false_and, or_false]
    exact ⟨fun ⟨receipt, hr, ⟨ho, hv⟩, _⟩ => ⟨receipt, hr, ho, hv⟩,
      fun ⟨receipt, hr, ho, hv⟩ => ⟨receipt, hr, ⟨ho, hv⟩, hb receipt hr⟩⟩
  · cases ha : record.applying with
    | none => simp [receiptMatches, upsertDraft, hl, ha]
    | some actor =>
      cases hd : record.draftVersion with
      | none => simp [receiptMatches, upsertDraft, hl, ha, hd]
      | some draft =>
        simp only [receiptMatches, upsertDraft, upsertDraftReceipt, hl, ha, hd, List.any_nil,
          Bool.false_or, Bool.and_eq_true, beq_iff_eq, Option.some.injEq, Option.any_some,
          List.filter_nil, List.nil_append, List.mem_singleton]
        constructor
        · rintro ⟨rfl, ho⟩
          exact ⟨_, rfl, ho, rfl⟩
        · rintro ⟨receipt, rfl, ho, hv⟩
          exact ⟨hv, ho⟩

/-- What netd finds in the record of a revision. -/
def recordMatches (attribution : Option (Raw ApplyAttribution)) (revision : Nat)
    (owner : Principal) (version : String) : Bool :=
  match attribution with
  | some (.parsed record) =>
      record.revision == revision && receiptMatches record revision owner version
  | _ => false

theorem Recorded.recordMatches_iff {attribution : Option (Raw ApplyAttribution)} {revision : Nat}
    {history : List Acceptance} (h : Recorded attribution revision history) {owner : Principal}
    {version : String} :
    recordMatches attribution revision owner version = true ↔
      latestDraft history owner = some version := by
  rw [← h.exact.versions]
  have bounded := h.exact.revisions
  rcases attribution with _ | (record | bytes)
  · simp [recordMatches, carried]
  · simp only [recordMatches, carried, carriedReceipts, Bool.and_eq_true, beq_iff_eq] at bounded ⊢
    by_cases hrev : record.revision = revision
    · simp only [hrev, bne_self_eq_false, Bool.false_eq_true, if_false, true_and] at bounded ⊢
      exact receiptMatches_iff (h.legacy record rfl) bounded
    · simp [hrev]
  · simp [recordMatches, carried]

/-! ## The first record -/

/-- The drafts behind the record that a run starts with: none, or the one of a legacy record. -/
inductive Legacy (attribution : Option (Raw ApplyAttribution)) (revision : Nat) :
    List Acceptance → Prop where
  | absent (h : attribution = none) : Legacy attribution revision []
  | record {record : ApplyAttribution} (h : attribution = some (.parsed record))
      (hr : record.draftReceipts = []) :
      Legacy attribution revision
        (if record.revision = revision then [⟨record.applying, record.draftVersion⟩] else [])

namespace ReceiptsLemmas

theorem recorded_legacy {attribution : Option (Raw ApplyAttribution)} {revision : Nat}
    {before : List Acceptance} (h : Legacy attribution revision before) :
    Recorded attribution revision before := by
  cases h with
  | absent h =>
    subst h
    exact ⟨exact_nil, nofun⟩
  | @record record h hr =>
    subst h
    refine ⟨?_, fun other ho => ?_⟩
    · by_cases hrev : record.revision = revision
      · have first := (@exact_nil revision).upsertDraft le_rfl
          ⟨record.applying, record.draftVersion⟩
        simpa [carried, carriedReceipts, hrev, hr] using first
      · simpa [carried, carriedReceipts, hrev] using exact_nil
    · cases ho
      exact .inr hr

/-! ## The answer -/

theorem Spec.acceptedAttribution {I : Core → Prop} {c : Core} {revision : Nat} (hI : I c) :
    Spec I (Fwos.acceptedAttribution revision) c fun record c' => c = c' ∧
      ∀ found, record = some found →
        c.applyAttribution = some (.parsed found) ∧ found.revision = revision := by
  refine Spec.bind (Spec.fsRead rfl hI) ?_
  rintro answer _ ⟨rfl, hr⟩
  generalize hg : c.get .applyAttribution = stored at hr
  cases hr with
  | absent => exact Spec.pure ⟨rfl, nofun⟩
  | failed => exact Spec.pure ⟨rfl, nofun⟩
  | @content raw =>
    cases raw with
    | garbled bytes => exact Spec.pure ⟨rfl, nofun⟩
    | parsed record =>
      refine Spec.pure ⟨rfl, fun found hf => ?_⟩
      split at hf
      next hrev =>
        cases hf
        exact ⟨hg, hrev⟩
      · cases hf

/-- Whatever fails, no draft is said to be accepted that the record does not have. -/
theorem Spec.wasDraftAccepted {c : Core} {revision : Nat} {version : String} {owner : Principal} :
    Spec (fun _ => True)
      (Fwos.wasDraftAccepted (some revision) (some version) (some owner)).run c
      fun answer _ => answer = .ok true → c.Clear ∧ ∃ state, c.Accepts state ∧
        state.revision = revision ∧
          recordMatches c.applyAttribution revision owner version = true := by
  refine (Steps.run (E := fun _ _ => True) (Q := fun answer _ => answer = true → c.Clear ∧
    ∃ state, c.Accepts state ∧ state.revision = revision ∧
      recordMatches c.applyAttribution revision owner version = true) ?_).mono ?_
  · refine Steps.bind (Steps.monadLift (Spec.recoveryPending trivial)) ?_
    rintro pending _ ⟨rfl, hclear⟩
    cases pending with
    | true => exact Steps.throw trivial
    | false =>
      refine Steps.seq Steps.check (fun _ => id) (fun _ _ _ => trivial) ?_
      rintro revision _ ⟨rfl, ⟨⟩⟩
      refine Steps.seq Steps.check (fun _ => id) (fun _ _ _ => trivial) ?_
      rintro version _ ⟨rfl, ⟨⟩⟩
      refine Steps.seq Steps.check (fun _ => id) (fun _ _ _ => trivial) ?_
      rintro owner _ ⟨rfl, ⟨⟩⟩
      refine Steps.seq (Steps.acceptedDesired trivial) (fun _ => id) (fun _ _ _ => trivial) ?_
      rintro accepted _ ⟨rfl, hs⟩
      split
      · exact Steps.pure nofun
      next hrevision =>
      obtain rfl : accepted.revision = revision := by simpa using hrevision
      refine Steps.bind (Steps.monadLift (Spec.acceptedAttribution trivial)) ?_
      rintro (_ | record) _ ⟨rfl, hr⟩
      · exact Steps.pure nofun
      · obtain ⟨hrecord, hrev⟩ := hr record rfl
        refine Steps.pure fun hm => ⟨hclear rfl, accepted, hs, rfl, ?_⟩
        simp [recordMatches, hrecord, hrev, hm]
  · rintro (error | answer) c' h hanswer
    · cases hanswer
    · exact h (Except.ok.inj hanswer)
end ReceiptsLemmas

/-- Where no effect fails, the program finishes with this value after at most so many calls, and
nothing has changed. -/
def Answered {α : Type} (calls : Nat) (program : Prog α) (w : World) (value : α) : Prop :=
  ∀ choices : List Choice, (∀ choice ∈ choices, choice.fault = none) → calls ≤ choices.length →
    ∃ unused, unused <:+ choices ∧ choices.length ≤ unused.length + calls ∧
      program.run semantics choices w = .done value w unused

namespace ReceiptsLemmas

section Answered

variable {α β : Type} {w : World} {m n : Nat}

theorem Answered.pure {value : α} : Answered n (Pure.pure value : Prog α) w value :=
  fun choices _ _ => ⟨choices, List.suffix_rfl, Nat.le_add_right .., rfl⟩

theorem Answered.ask {op : Op} {value : Ans op}
    (h : ∀ choice : Choice, choice.fault = none → exec op choice w = (value, w)) :
    Answered 1 (Fwos.ask op) w value := by
  intro choices hf hl
  cases choices with
  | nil => cases hl
  | cons choice choices =>
    have hop := h choice (hf choice List.mem_cons_self)
    refine ⟨choices, List.suffix_cons .., le_rfl, ?_⟩
    simp only [Fwos.ask, perform, Program.run, semantics, hop]

theorem Answered.bind {program : Prog α} {next : α → Prog β} {first : α} {value : β}
    (hp : Answered m program w first) (hn : Answered n (next first) w value) :
    Answered (m + n) (program >>= next) w value := by
  intro choices hf hl
  obtain ⟨middle, hs, hlen, hr⟩ := hp choices hf (by omega)
  obtain ⟨unused, hs', hlen', hr'⟩ := hn middle (fun choice hc => hf choice (hs.subset hc))
    (by omega)
  exact ⟨unused, hs'.trans hs, by omega, (run_bind hr).trans hr'⟩

theorem Answered.bindExcept {program : Netd α} {next : α → Netd β} {first : α}
    {value : Except String β} (hp : Answered m program.run w (.ok first))
    (hn : Answered n (next first).run w value) : Answered (m + n) (program >>= next).run w value :=
  Answered.bind hp hn

theorem Answered.liftExcept {program : Prog α} {value : α} (hp : Answered n program w value) :
    Answered n (ExceptT.lift program : Netd α).run w (.ok value) :=
  Answered.bind hp (n := 0) Answered.pure

theorem Answered.check {result : Except String α} {value : α} (h : result = .ok value) :
    Answered 0 (Fwos.check result).run w (.ok value) := by
  subst h
  exact Answered.pure

theorem Answered.pathExists {file : File} :
    Answered 1 (Fwos.pathExists file) w (w.get file).isSome := Answered.ask fun _ _ => rfl

theorem Answered.fsRead {file : File} {content : Content file} (h : w.get file = some content) :
    Answered 1 (Fwos.fsRead file) w (.ok content) :=
  Answered.ask fun choice hf => by simp only [exec, h, hf]

theorem Answered.fsRead_absent {file : File} (h : w.get file = none) :
    Answered 1 (Fwos.fsRead file) w (.error .notFound) :=
  Answered.ask fun choice _ => by simp only [exec, h]

theorem Answered.recoveryPending (hc : w.Clear) : Answered 4 Fwos.recoveryPending w false := by
  have rest : Answered 1 (Fwos.pathExists .applyPrevious) w false := by
    have h : (w.get .applyPrevious).isSome = false := by simp [World.get, hc.applyPrevious]
    exact h ▸ Answered.pathExists
  have required : Answered 2 Fwos.operationRequiresRecovery w false := by
    refine Answered.bind (m := 1) (n := 1) Answered.pathExists ?_
    rcases hc.notApplying with hn | ⟨operation, ho, hp⟩
    · simp only [World.get, hn]
      exact Answered.pure
    · simp only [World.get, ho]
      refine Answered.bind (n := 0) (Answered.fsRead ho) ?_
      have hne : (operation.phase == .applying) = false := by simpa using hp
      exact hne ▸ Answered.pure
  have flag : Answered 1 (Fwos.ask .loadRecovery) w false :=
    Answered.ask fun _ _ => by simp only [exec, hc.recoveryRequired]
  exact Answered.bind (n := 3) flag (Answered.bind (n := 1) required rest)

theorem Answered.acceptedDesired {state : DesiredState} (h : w.Accepts state) :
    Answered 1 Fwos.acceptedDesired.run w (.ok state) := by
  obtain ⟨raw, hd, rfl⟩ := h
  have read : Answered 1 (Fwos.readFile .desired "read Accepted Desired state").run w
      (.ok (.parsed raw)) := Answered.bind (n := 0) (Answered.fsRead hd) Answered.pure
  exact Answered.bindExcept (n := 0) read
    (Answered.bindExcept (m := 0) (n := 0) (Answered.check rfl) Answered.pure)

theorem Answered.acceptedAttribution {revision : Nat} : Answered 1 (Fwos.acceptedAttribution revision) w
    (match w.applyAttribution with
      | some (.parsed record) => if record.revision = revision then some record else none
      | _ => none) := by
  cases ha : w.applyAttribution with
  | none => exact Answered.bind (n := 0) (Answered.fsRead_absent ha) Answered.pure
  | some raw =>
    refine Answered.bind (n := 0) (Answered.fsRead ha) ?_
    cases raw with
    | garbled bytes => exact Answered.pure
    | parsed record => exact Answered.pure

theorem Answered.wasDraftAccepted {state : DesiredState} {version : String} {owner : Principal}
    (hc : w.Clear) (ha : w.Accepts state) :
    Answered 6 (Fwos.wasDraftAccepted (some state.revision) (some version) (some owner)).run w
      (.ok (recordMatches w.applyAttribution state.revision owner version)) := by
  refine Answered.bindExcept (m := 4) (n := 2)
    (Answered.liftExcept (Answered.recoveryPending hc)) ?_
  simp only [Bool.false_eq_true, if_false]
  refine Answered.bindExcept (m := 0) (n := 2) (Answered.check rfl) ?_
  refine Answered.bindExcept (m := 0) (n := 2) (Answered.check rfl) ?_
  refine Answered.bindExcept (m := 0) (n := 2) (Answered.check rfl) ?_
  refine Answered.bindExcept (m := 1) (n := 1) (Answered.acceptedDesired ha) ?_
  simp only [bne_self_eq_false, Bool.false_eq_true, if_false]
  refine Answered.bindExcept (n := 0) (Answered.liftExcept Answered.acceptedAttribution) ?_
  rcases w.applyAttribution with _ | (record | bytes)
  · exact Answered.pure
  · by_cases hrev : record.revision = state.revision
    · simp only [hrev, if_true, recordMatches, BEq.rfl, Bool.true_and]
      exact Answered.pure
    · have hne : (record.revision == state.revision) = false := by simpa using hrev
      simp only [hrev, if_false, recordMatches, hne, Bool.false_and]
      exact Answered.pure
  · exact Answered.pure

end Answered

end ReceiptsLemmas

/-! ## A draft -/

namespace Receipts

@[reducible]
def noKeys : Base64 := ⟨fun _ => none⟩

def admin : Principal := { source := "local", subject := "1", username := "admin" }

def network : DesiredState := {
  interfaces := [
    { name := "enp1s0", role := some "wan", dhcp := true },
    { name := "enp2s0", role := some "lan", addresses := ["192.168.1.1/24"] }]
  uiExposure := ["enp2s0"] }

def fresh : World := { desired := some (.parsed network), bootstrapped := true }

def draftTurn : Turn :=
  .request (.applyDesired (.ok network) (some 1) (some admin) (some "draft"))

end Receipts

end Fwos
