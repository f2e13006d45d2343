import Fwos.Update.Host

/-!
# The steps of the Host update controller

`stage`, `manual_rollback_step` and `record_staged_for_health` of `update.rs`, one
call of the system at a time: an `Activity` is the call that comes next, with what
the function has read so far. A crash of the controller may come before any of
them, and a request of another thread may run between any two.
-/

namespace Fwos.Update

open Rust

/-- What bootc reports and the records in `/var`. -/
structure Host where
  deployments : Deployments := {}
  pending : Option String := none
  updateRecord : Option UpdateRecord := none
  manualRollback : Option ManualRollbackRecord := none
  outcome : Option UpdateOutcome := none
deriving DecidableEq, Repr

/-- What a call does that the controller cannot know before. -/
structure StepChoice where
  fails : Bool := false
  /-- The call took effect although it reports a failure. -/
  published : Bool := false
  /-- The deployment that `bootc switch` stages. -/
  staged : DeploymentId := {}
  /-- What a failing write of the health-pending record leaves in the file. -/
  left : String := ""
  healthFinished : Bool := false
deriving DecidableEq, Repr

/-- The next call. -/
inductive Activity where
  -- `stage`
  | resolvable (image : String)
  | preservePreUpdate (image : String)
  | statusBefore (image : String)
  | bootcSwitch (image : String) (before : DeploymentId)
  | statusAfter (image : String) (before : DeploymentId)
  | writeUpdateRecord (record : UpdateRecord)
  -- `write_pending`: `fs::write` opens the file, which empties it, and writes it.
  | openPending (image : String)
  | writePending (image : String)
  -- `record_staged_for_health`
  | statusStaged
  -- `manual_rollback_step`
  | rollbackStatus
  | cancelRollback
  | removeManualRollback
  | writeManualRollback (record : ManualRollbackRecord) (kind : ManualRollback)
  | bootcRollback (kind : ManualRollback)
  | withdrawManualRollback (error : String)
  | removePending
deriving DecidableEq, Repr

/-- What a call leads to. -/
inductive Progress where
  | next (activity : Activity)
  | finished (result : Except String Unit)

namespace Host

/-- What the record of a staged update says when its durable write fails. -/
def afterDurable (host : Host) (choice : StepChoice) (changed : Host) : Host :=
  if choice.fails && !choice.published then host else changed

def step (host : Host) (choice : StepChoice) : Activity → Host × Progress
  | .resolvable image =>
      if choice.fails then (host, .finished (.error "no DNS resolver learned from any WAN"))
      else (host, .next (.preservePreUpdate image))
  | .preservePreUpdate image =>
      if choice.fails then
        (host, .finished (.error "could not preserve the Accepted network before the update"))
      else (host, .next (.statusBefore image))
  | .statusBefore image =>
      if choice.fails then (host, .finished (.error "bootc status unavailable"))
      else (host, .next (.bootcSwitch image host.deployments.booted))
  | .bootcSwitch image before =>
      if choice.fails then (host, .finished (.error "bootc switch failed"))
      else ({ host with deployments := { host.deployments with staged := choice.staged } },
        .next (.statusAfter image before))
  | .statusAfter image before =>
      if choice.fails then (host, .finished (.error "bootc status unavailable"))
      else if host.deployments.staged.isEmpty then
        (host, .finished (.error s!"no deployment was staged; {image} may already be active"))
      else (host, .next (.writeUpdateRecord ⟨before, host.deployments.staged⟩))
  | .writeUpdateRecord record =>
      (host.afterDurable choice { host with updateRecord := some record },
        if choice.fails then .finished (.error "persist Host update record")
        else .next (.openPending record.update.image))
  | .openPending image =>
      if choice.fails then (host, .finished (.error "write health-pending"))
      else ({ host with pending := some "" }, .next (.writePending image))
  | .writePending image =>
      if choice.fails then
        ({ host with pending := some choice.left }, .finished (.error "write health-pending"))
      else ({ host with pending := some (pendingText image) }, .finished (.ok ()))
  | .statusStaged =>
      -- `bootc_images` reads a failed status as no deployment.
      if choice.fails then (host, .finished (.ok ())) else
      match missingPendingRecord (readPending host.pending) host.deployments.staged.image with
      | some image => (host, .next (.openPending image))
      | none => (host, .finished (.ok ()))
  | .rollbackStatus =>
      if choice.fails then (host, .finished (.error "bootc status unavailable")) else
      let before := host.deployments
      match Update.manualRollback
          (pendingIsThisBoot (readPending host.pending) before.booted.image)
          choice.healthFinished with
      | .error error => (host, .finished (.error error))
      | .ok kind =>
          if before.rollbackQueued then
            if host.manualRollback.isNone then
              (host, .finished (.error ("the queued Host image rollback was not requested " ++
                "manually and cannot be cancelled")))
            else (host, .next .cancelRollback)
          else (host, .next (.writeManualRollback ⟨before.booted, before.rollback⟩ kind))
  | .cancelRollback =>
      if choice.fails || host.deployments.rollback.isEmpty then
        (host, .finished (.error "bootc rollback failed"))
      else ({ host with deployments := host.deployments.rolledBack }, .next .removeManualRollback)
  | .removeManualRollback =>
      (host.afterDurable choice { host with manualRollback := none },
        .finished (if choice.fails then .error "remove rollback record" else .ok ()))
  | .writeManualRollback record kind =>
      (host.afterDurable choice { host with manualRollback := some record },
        if choice.fails then .finished (.error "persist rollback record")
        else .next (.bootcRollback kind))
  | .bootcRollback kind =>
      if choice.fails || host.deployments.rollback.isEmpty then
        (host, .next (.withdrawManualRollback "bootc rollback failed"))
      else
        ({ host with deployments := host.deployments.rolledBack },
          match kind with
          | .image => .next .removePending
          | .unacceptedUpdate => .finished (.ok ()))
  | .withdrawManualRollback error =>
      (host.afterDurable choice { host with manualRollback := none }, .finished (.error error))
  | .removePending =>
      (host.afterDurable choice { host with pending := none }, .finished (.ok ()))

/-- An operation that nothing interrupts, as far as its list of choices goes. -/
def complete (host : Host) : List StepChoice → Activity → Host × Option (Except String Unit)
  | [], _ => (host, none)
  | choice :: rest, activity =>
      match host.step choice activity with
      | (host, .next activity) => host.complete rest activity
      | (host, .finished result) => (host, some result)

/-! ## At boot -/

/-- `accept_update` and `clear_pending`. -/
def accept (host : Host) : Host :=
  { host with
    updateRecord := none, pending := none
    outcome := some (.accepted host.deployments.booted.image) }

/-- What `run_health` changes. -/
def afterHealth (host : Host) : HealthDecision → Host
  | .accepted => host.accept
  | .rolledBack reason =>
      { host with
        deployments := host.deployments.rolledBack, pending := none
        outcome := some (.rolledBack host.deployments.booted.image reason) }
  | .cleared => { host with pending := none }
  | .nothing | .undecided => host

def returned (host : Host) : Bool :=
  match host.updateRecord with
  | some record => returnedFromUpdate record host.deployments
  | none => false

/-- `run_restore_check`, and whether it asks netd to restore the pre-update
network. -/
def restoreCheck (host : Host) : Host × Bool :=
  let outcome := (host.manualRollback.bind fun record =>
    manualRollbackOutcome record host.deployments host.returned).or host.outcome
  ({ host with
    manualRollback := none, outcome := outcome
    updateRecord := if host.returned then none else host.updateRecord }, host.returned)

end Host

end Fwos.Update
