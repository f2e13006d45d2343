import Fwos.Update.Controller
import Mathlib.Algebra.Group.Nat.Even

/-!
# Manual rollback

A call of `manual_rollback_step` queues the rollback deployment for the next boot,
or takes a queued rollback back. `bootc rollback` swaps the boot order and discards
a staged deployment, or it fails without effect. File operations succeed here.

* `Reported`: what a sequence of calls leaves, and what the next boot tells.
* `manual_rollback_reported`: it holds after every sequence, for deployments that
  can be told apart.
-/

namespace Fwos.Update

open Rust

/-- What a call meets. -/
structure RollbackCall where
  statusFails : Bool := false
  healthFinished : Bool
  rollbackFails : Bool := false

namespace Host

/-- `bootc rollback` needs a deployment to roll back to. -/
def bootcRollback (host : Host) (fails : Bool) : Except String Host :=
  if fails || host.deployments.rollback.isEmpty then .error "bootc rollback failed"
  else .ok { host with deployments := host.deployments.rolledBack }

/-- The deployments before, and whether the rollback returns from an unaccepted
update. -/
def manualRollbackStep (host : Host) (call : RollbackCall) :
    Except String (Deployments × Bool) × Host :=
  -- An answer without a booted deployment is a failure of `bootc status`.
  if call.statusFails || host.deployments.booted.isEmpty then
    (.error "bootc status unavailable", host)
  else
    let before := host.deployments
    let pending := readPending host.pending
    match Update.manualRollback (pendingIsThisBoot pending before.booted.image)
        call.healthFinished with
    | .error error => (.error error, host)
    | .ok kind =>
        if before.rollbackQueued then
          if host.manualRollback.isNone then
            (.error ("the queued Host image rollback was not requested manually and cannot be " ++
              "cancelled"), host)
          else
            match host.bootcRollback call.rollbackFails with
            | .error error => (.error error, host)
            | .ok host => (.ok (before, false), { host with manualRollback := none })
        else
          let host := { host with manualRollback := some ⟨before.booted, before.rollback⟩ }
          match host.bootcRollback call.rollbackFails with
          | .error error => (.error error, { host with manualRollback := none })
          | .ok host =>
              let host := if kind = .image then { host with pending := none } else host
              (.ok (before, kind = .unacceptedUpdate), host)

/-- The calls in order, and how many of them succeeded. -/
def rollbackCalls (host : Host) : List RollbackCall → Host × Nat
  | [] => (host, 0)
  | call :: rest =>
      let (result, after) := host.manualRollbackStep call
      let (last, successes) := after.rollbackCalls rest
      (last, successes + if result.isOk then 1 else 0)

/-- The booted deployment is that of an update which has not been accepted. -/
def isUnaccepted (host : Host) : Bool :=
  pendingIsThisBoot (readPending host.pending) host.deployments.booted.image

/-- At the next boot: the outcome of the recorded rollback. -/
def bootOutcome (host : Host) (next : Deployments) (preUpdateNetwork : Bool) :
    Option UpdateOutcome :=
  host.manualRollback.bind fun record => manualRollbackOutcome record next preUpdateNetwork

end Host

/-- Which of the two deployments has booted next. -/
def nextBoot (before : Deployments) (rollback : Bool) : Deployments :=
  if rollback then { booted := before.rollback, rollback := before.booted }
  else { booted := before.booted, rollback := before.rollback }

/-- What a sequence of calls leaves. -/
structure Reported (host : Host) (calls : List RollbackCall) : Prop where
  /-- A call that fails has changed nothing. -/
  refused : ∀ front call back, calls = front ++ call :: back →
    ∀ error after, (host.rollbackCalls front).1.manualRollbackStep call = (.error error, after) →
      after = (host.rollbackCalls front).1
  cancelled : Even (host.rollbackCalls calls).2 →
    (host.rollbackCalls calls).1.deployments.rollbackQueued = false ∧
      (host.rollbackCalls calls).1.manualRollback = none ∧
      (host.isUnaccepted = true → (host.rollbackCalls calls).1.pending = host.pending) ∧
      ∀ next preUpdateNetwork,
        (host.rollbackCalls calls).1.bootOutcome next preUpdateNetwork = none
  queued : Odd (host.rollbackCalls calls).2 →
    (host.rollbackCalls calls).1.deployments.rollbackQueued = true ∧
      (host.rollbackCalls calls).1.manualRollback =
        some ⟨host.deployments.booted, host.deployments.rollback⟩ ∧
      ∀ rollback preUpdateNetwork,
        (host.rollbackCalls calls).1.bootOutcome
            (nextBoot (host.rollbackCalls calls).1.deployments rollback) preUpdateNetwork =
          if rollback then some (.manual host.deployments.booted.image
            host.deployments.rollback.image preUpdateNetwork)
          else none

/-! ## One call -/

namespace Host

/-- The rollback that is queued has a record, which names the two deployments. -/
def RecordsQueued (host : Host) : Prop :=
  host.manualRollback =
    if host.deployments.rollbackQueued then some ⟨host.deployments.booted, host.deployments.rollback⟩
    else none

def queueRollback (host : Host) : Host :=
  { host with
    deployments := host.deployments.rolledBack
    manualRollback := some ⟨host.deployments.booted, host.deployments.rollback⟩
    pending := if host.isUnaccepted then host.pending else none }

def cancelQueued (host : Host) : Host :=
  { host with deployments := host.deployments.rolledBack, manualRollback := none }

theorem bootcRollback_eq_ok {host after : Host} {fails : Bool}
    (h : host.bootcRollback fails = .ok after) :
    host.deployments.rollback.isEmpty = false ∧
      after = { host with deployments := host.deployments.rolledBack } := by
  unfold bootcRollback at h
  split at h
  next => cases h
  next takes =>
    cases h
    rw [Bool.not_eq_true, Bool.or_eq_false_iff] at takes
    exact ⟨takes.2, rfl⟩

theorem manualRollback_kind {unaccepted healthFinished : Bool} {kind : ManualRollback}
    (h : Update.manualRollback unaccepted healthFinished = .ok kind) :
    kind = if unaccepted then .unacceptedUpdate else .image := by
  unfold Update.manualRollback at h
  split at h <;> cases h <;> rfl

/-- All that a call can do: nothing, or queue a rollback, or take the queued one back. -/
theorem manualRollbackStep_cases {host after : Host} {call : RollbackCall}
    {result : Except String (Deployments × Bool)} (records : host.RecordsQueued)
    (h : host.manualRollbackStep call = (result, after)) :
    (result.isOk = false ∧ after = host) ∨
      (result.isOk = true ∧ host.deployments.rollbackQueued = false ∧
        host.deployments.booted.isEmpty = false ∧ host.deployments.rollback.isEmpty = false ∧
        after = host.queueRollback) ∨
      (result.isOk = true ∧ host.deployments.rollbackQueued = true ∧ after = host.cancelQueued) := by
  unfold RecordsQueued at records
  unfold manualRollbackStep at h
  simp only at h
  split at h
  next =>
    cases h
    exact .inl ⟨rfl, rfl⟩
  next answered =>
    rw [Bool.not_eq_true, Bool.or_eq_false_iff] at answered
    split at h
    next =>
      cases h
      exact .inl ⟨rfl, rfl⟩
    next kind allowed =>
      have kindOf := manualRollback_kind allowed
      split at h
      next queued =>
        split at h
        next =>
          cases h
          exact .inl ⟨rfl, rfl⟩
        next =>
          split at h
          next =>
            cases h
            exact .inl ⟨rfl, rfl⟩
          next swapped rolled =>
            cases h
            rw [(bootcRollback_eq_ok rolled).2]
            exact .inr (.inr ⟨rfl, queued, rfl⟩)
      next idle =>
        rw [Bool.not_eq_true] at idle
        rw [idle, if_neg (by simp)] at records
        split at h
        next =>
          -- The record that was written for nothing is withdrawn.
          cases h
          refine .inl ⟨rfl, ?_⟩
          rw [← records]
        next swapped rolled =>
          cases h
          obtain ⟨target, rfl⟩ := bootcRollback_eq_ok rolled
          refine .inr (.inl ⟨rfl, idle, answered.2, target, ?_⟩)
          rw [kindOf, queueRollback, isUnaccepted]
          cases pendingIsThisBoot (readPending host.pending) host.deployments.booted.image <;> rfl

end Host

/-! ## Sequences of calls -/

/-- What holds after so many calls have succeeded. -/
structure Follows (start host : Host) (successes : Nat) : Prop where
  booted : host.deployments.booted = start.deployments.booted
  rollback : host.deployments.rollback = start.deployments.rollback
  queued : host.deployments.rollbackQueued = decide (Odd successes)
  records : host.RecordsQueued
  pending : start.isUnaccepted = true → host.pending = start.pending
  known : host.deployments.rollbackQueued = true →
    start.deployments.booted.isEmpty = false ∧ start.deployments.rollback.isEmpty = false

theorem Follows.step {start host after : Host} {successes : Nat} {call : RollbackCall}
    {result : Except String (Deployments × Bool)} (f : Follows start host successes)
    (h : host.manualRollbackStep call = (result, after)) :
    Follows start after (successes + if result.isOk then 1 else 0) := by
  rcases Host.manualRollbackStep_cases f.records h with ⟨failed, rfl⟩ |
    ⟨ok, idle, booted, target, rfl⟩ | ⟨ok, queued, rfl⟩
  · rw [failed]
    exact f
  · have parity := f.queued
    rw [idle, eq_comm, decide_eq_false_iff_not] at parity
    have odd : Odd (successes + 1) := (Nat.not_odd_iff_even.mp parity).add_one
    rw [ok, if_pos rfl]
    exact {
      booted := f.booted
      rollback := f.rollback
      queued := by
        rw [decide_eq_true odd]
        simp [Host.queueRollback, Deployments.rolledBack, idle]
      records := by
        unfold Host.RecordsQueued
        simp [Host.queueRollback, Deployments.rolledBack, idle]
      pending := fun unaccepted => by
        have same := f.pending unaccepted
        have still : host.isUnaccepted = true := by
          unfold Host.isUnaccepted at unaccepted ⊢
          rw [same, f.booted]
          exact unaccepted
        simp [Host.queueRollback, still, same]
      known := fun _ => by
        rw [← f.booted, ← f.rollback]
        exact ⟨booted, target⟩ }
  · have parity := f.queued
    rw [queued, eq_comm, decide_eq_true_eq] at parity
    have even : ¬ Odd (successes + 1) := Nat.not_odd_iff_even.mpr parity.add_one
    rw [ok, if_pos rfl]
    exact {
      booted := f.booted
      rollback := f.rollback
      queued := by
        rw [decide_eq_false even]
        simp [Host.cancelQueued, Deployments.rolledBack, queued]
      records := by
        unfold Host.RecordsQueued
        simp [Host.cancelQueued, Deployments.rolledBack, queued]
      pending := f.pending
      known := by simp [Host.cancelQueued, Deployments.rolledBack, queued] }

theorem Follows.calls {start host : Host} {successes : Nat} (f : Follows start host successes)
    (calls : List RollbackCall) :
    Follows start (host.rollbackCalls calls).1 (successes + (host.rollbackCalls calls).2) := by
  induction calls generalizing host successes with
  | nil => exact f
  | cons call rest ih =>
      rcases stepped : host.manualRollbackStep call with ⟨result, after⟩
      have next := ih (f.step stepped)
      rw [Nat.add_assoc, Nat.add_comm (if result.isOk = true then 1 else 0)] at next
      simpa [Host.rollbackCalls, stepped] using next

/-! ## The next boot -/

namespace DeploymentId

/-- A deployment that exists is known by its digest, or by a reference that is not empty
without its transport. -/
def Known (self : DeploymentId) : Prop := self.isEmpty = false → self.matchesId self = true

theorem matchesId_comm (self other : DeploymentId) :
    self.matchesId other = other.matchesId self := by
  have images : pendingIsThisBoot self.image other.image =
      pendingIsThisBoot other.image self.image := by
    unfold pendingIsThisBoot
    simp only
    rw [BEq.comm, Bool.and_comm (!(norm self.image).isEmpty)]
  unfold matchesId
  rw [Bool.and_comm, BEq.comm, images]

end DeploymentId

theorem bootOutcome_recorded {host : Host} {next : Deployments} {booted rollback : DeploymentId}
    {preUpdateNetwork : Bool} (recorded : host.manualRollback = some ⟨booted, rollback⟩) :
    host.bootOutcome next preUpdateNetwork =
      if rollback.matchesId next.booted && booted.matchesId next.rollback then
        some (.manual booted.image rollback.image preUpdateNetwork)
      else none := by
  rw [Host.bootOutcome, recorded]
  rfl

/-- A manual rollback of deployments that can be told apart is reported exactly if it
happened. -/
theorem manual_rollback_reported {host : Host}
    (idle : host.deployments.rollbackQueued = false) (unrecorded : host.manualRollback = none)
    (apart : host.deployments.booted.matchesId host.deployments.rollback = false)
    (bootedKnown : host.deployments.booted.Known)
    (rollbackKnown : host.deployments.rollback.Known) (calls : List RollbackCall) :
    Reported host calls := by
  have start : Follows host host 0 := {
    booted := rfl
    rollback := rfl
    queued := by rw [idle]; rfl
    records := by rw [Host.RecordsQueued, idle, unrecorded]; rfl
    pending := fun _ => rfl
    known := by simp [idle] }
  have last := start.calls calls
  rw [Nat.zero_add] at last
  refine ⟨fun front call back _ error after stepped => ?_, fun even => ?_, fun odd => ?_⟩
  · have reached := start.calls front
    rcases Host.manualRollbackStep_cases reached.records stepped with ⟨-, same⟩ | ⟨ok, -⟩ | ⟨ok, -⟩
    · exact same
    · cases ok
    · cases ok
  · have queued := last.queued
    rw [decide_eq_false (Nat.not_odd_iff_even.mpr even)] at queued
    have recorded := last.records
    rw [Host.RecordsQueued, queued, if_neg (by simp)] at recorded
    refine ⟨queued, recorded, last.pending, fun next preUpdateNetwork => ?_⟩
    rw [Host.bootOutcome, recorded]
    rfl
  · have queued := last.queued
    rw [decide_eq_true odd] at queued
    have recorded := last.records
    rw [Host.RecordsQueued, queued, if_pos rfl, last.booted, last.rollback] at recorded
    obtain ⟨booted, target⟩ := last.known queued
    refine ⟨queued, recorded, fun rollback preUpdateNetwork => ?_⟩
    rw [bootOutcome_recorded recorded, nextBoot, last.booted, last.rollback]
    cases rollback with
    | true => simp [bootedKnown booted, rollbackKnown target]
    | false =>
        rw [DeploymentId.matchesId_comm] at apart
        simp [apart]

/-- An update boot that health has not finished with refuses the first call. -/
theorem manual_rollback_reported_pulls :
    Reported
      { deployments := ⟨⟨"reg/fwos:next", "sha256:b"⟩, {}, ⟨"reg/fwos:next", "sha256:a"⟩, false⟩
        pending := some "docker://reg/fwos:next" }
      [⟨false, false, false⟩, ⟨false, true, false⟩, ⟨false, true, false⟩, ⟨true, true, false⟩,
        ⟨false, true, false⟩] :=
  manual_rollback_reported rfl rfl (by decide) (fun _ => by decide) (fun _ => by decide) _

/-- A reference of which nothing is left without its transport matches no deployment: the
rollback from it happens and is not reported. -/
theorem manual_rollback_reported_no_reference :
    ∃ host : Host, host.deployments.rollbackQueued = false ∧ host.manualRollback = none ∧
      host.deployments.booted.matchesId host.deployments.rollback = false ∧
      ¬ Reported host [⟨false, true, false⟩] := by
  refine ⟨{ deployments := ⟨⟨"docker://", ""⟩, {}, ⟨"reg/fwos:1", "sha256:a"⟩, false⟩ },
    rfl, rfl, by decide, fun reported => ?_⟩
  obtain ⟨-, -, outcome⟩ := reported.queued (by decide)
  exact absurd (outcome true false) (by decide)

end Fwos.Update
