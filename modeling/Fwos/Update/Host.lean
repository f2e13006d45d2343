import Fwos.Rust.Text

/-!
# Host updates: deployments and records

The data of the Host update program (`update.rs`): what `bootc status` reports,
the records a staged update leaves in `/var`, and the decisions taken from them.
Every operation is given with what it reads; the order in which the controller
performs them is in `Fwos.Update.Controller`.
-/

namespace Fwos.Update

open Rust

/-! ## Deployments -/

/-- One bootc deployment. An empty image means that there is none. -/
structure DeploymentId where
  image : String := ""
  digest : String := ""
deriving DecidableEq, Repr

structure Deployments where
  booted : DeploymentId := {}
  staged : DeploymentId := {}
  rollback : DeploymentId := {}
  rollbackQueued : Bool := false
deriving DecidableEq, Repr

/-- The image reference without its transport and without a digest. -/
def norm (s : String) : String :=
  let s := if startsWith s "docker://" then String.ofList (s.toList.drop 9) else s
  ((split s '@').head?).getD s

def pendingIsThisBoot (pending booted : String) : Bool :=
  let pending := norm pending
  let booted := norm booted
  !pending.isEmpty && !booted.isEmpty && pending == booted

namespace DeploymentId

/-- The digest tells two pulls of a tag apart where both are known. -/
def matchesId (self other : DeploymentId) : Bool :=
  if !self.digest.isEmpty && !other.digest.isEmpty then self.digest == other.digest
  else pendingIsThisBoot self.image other.image

def isEmpty (self : DeploymentId) : Bool := self.image.isEmpty

end DeploymentId

/-- What `bootc rollback` does: it swaps the boot order and discards a staged
deployment. -/
def Deployments.rolledBack (deployments : Deployments) : Deployments :=
  { deployments with staged := {}, rollbackQueued := !deployments.rollbackQueued }

/-! ## Records -/

/-- A staged Host update: the Release it replaces and the Release it stages. -/
structure UpdateRecord where
  previous : DeploymentId
  update : DeploymentId
deriving DecidableEq, Repr

/-- The previous Release is booted and the update is its rollback deployment. -/
def returnedFromUpdate (record : UpdateRecord) (deployments : Deployments) : Bool :=
  record.previous.matchesId deployments.booted && record.update.matchesId deployments.rollback

structure ManualRollbackRecord where
  fromId : DeploymentId
  toId : DeploymentId
deriving DecidableEq, Repr

/-- The text of a health-pending record. -/
def pendingText (image : String) : String := image ++ "\n"

/-- `read_pending_at`: no record reads as the empty one. -/
def readPending (file : Option String) : String := (file.map trim).getD ""

theorem readPending_pendingText (image : String) :
    readPending (some (pendingText image)) = trim image := by
  rw [readPending, pendingText]
  show trim (image ++ "\n") = trim image
  rw [trim, trim, String.toList_append]
  exact congrArg String.ofList (trimChars_append_whitespace (by decide))

def missingPendingRecord (pending staged : String) : Option String :=
  if pending.isEmpty && !staged.isEmpty then some staged else none

inductive UpdateOutcome where
  | accepted (release : String)
  | rolledBack (release reason : String)
  | manual (release target : String) (preUpdateNetwork : Bool)
deriving DecidableEq, Repr

/-- At boot: the outcome of a manual rollback that took effect. -/
def manualRollbackOutcome (record : ManualRollbackRecord) (deployments : Deployments)
    (preUpdateNetwork : Bool) : Option UpdateOutcome :=
  if record.toId.matchesId deployments.booted && record.fromId.matchesId deployments.rollback then
    some (.manual record.fromId.image record.toId.image preUpdateNetwork)
  else none

/-! ## Appliance health -/

inductive ApplianceHealth where
  | ok
  | defaultTargetNotReached
  | fwdMissing
  | mgmtMissing
  | netdNotRunning
  | desiredStateNotRestored (reason : String)
  | uiNotRunning
deriving DecidableEq, Repr

def ApplianceHealth.describe : ApplianceHealth → String
  | .ok => "ok"
  | .defaultTargetNotReached => "default target not reached"
  | .fwdMissing => "fwd missing"
  | .mgmtMissing => "mgmt missing"
  | .netdNotRunning => "netd not running"
  | .desiredStateNotRestored reason => s!"Desired state not restored: {reason}"
  | .uiNotRunning => "UI not running"

inductive NetdRestoration where
  | notRunning
  | unrestored (reason : String)
  | restored
deriving DecidableEq, Repr

structure HealthChecks where
  defaultTarget : Bool
  fwd : Bool
  mgmt : Bool
  netd : NetdRestoration
  ui : Bool
deriving DecidableEq, Repr

def assessHealth (checks : HealthChecks) : ApplianceHealth :=
  if !checks.defaultTarget then .defaultTargetNotReached else
  if !checks.fwd then .fwdMissing else
  if !checks.mgmt then .mgmtMissing else
  match checks.netd with
  | .notRunning => .netdNotRunning
  | .unrestored reason => .desiredStateNotRestored reason
  | .restored => if !checks.ui then .uiNotRunning else .ok

def shouldAutoRollback (pendingThisBoot hasRollback : Bool) (health : ApplianceHealth) : Bool :=
  pendingThisBoot && hasRollback && health != .ok

/-- What one turn of the health loop reads. A failed `bootc status` reads as no
deployment at all. -/
structure Poll where
  deployments : Deployments
  checks : HealthChecks
  deadlinePassed : Bool
deriving DecidableEq, Repr

/-- What `run_health` does at last. -/
inductive HealthDecision where
  /-- It exits and has changed nothing. -/
  | nothing
  | accepted
  | rolledBack (reason : String)
  /-- There is nothing to roll back to: the boot is only no longer checked. -/
  | cleared
  /-- The loop is still running. -/
  | undecided
deriving DecidableEq, Repr

/-- `run_health` for the pending record it has read. -/
def healthLoop (pending : String) : List Poll → HealthDecision
  | [] => .undecided
  | poll :: rest =>
      let booted := poll.deployments.booted.image
      if !booted.isEmpty && !pendingIsThisBoot pending booted then .nothing else
      let thisBoot := pendingIsThisBoot pending booted
      let hasRollback := !poll.deployments.rollback.isEmpty
      let health := assessHealth poll.checks
      if thisBoot && health == .ok then .accepted else
      if poll.deadlinePassed then
        if shouldAutoRollback thisBoot hasRollback health then .rolledBack health.describe
        else if thisBoot then .cleared
        else .nothing
      else healthLoop pending rest

def runHealth (file : Option String) (polls : List Poll) : HealthDecision :=
  let pending := readPending file
  if pending.isEmpty then .nothing else healthLoop pending polls

/-! ## Manual rollback -/

inductive ManualRollback where
  | image
  | unacceptedUpdate
deriving DecidableEq, Repr

/-- Appliance health owns the rollback of an update boot until it has finished. -/
def manualRollback (updateBootPending healthFinished : Bool) : Except String ManualRollback :=
  match updateBootPending, healthFinished with
  | true, false => .error ("appliance health has not finished checking this Host update boot " ++
      "and rolls it back automatically if it fails; try again when it has finished (within " ++
      "180 seconds)")
  | true, true => .ok .unacceptedUpdate
  | false, _ => .ok .image

/-! ## The operation of the controller -/

inductive Operation where
  | idle
  | staging (image : String) (before : Deployments)
  | failed (image error : String)
deriving DecidableEq, Repr

/-- `idle`: everything but status waits for a running stage. -/
def Operation.checkIdle : Operation → Except String Unit
  | .staging image _ => .error s!"Host update staging of {image} is already in progress"
  | _ => .ok ()

def Operation.isStaging : Operation → Bool
  | .staging _ _ => true
  | _ => false

def beginStaging (op : Operation) (image : String) (before : Deployments) :
    Except String Operation := do
  op.checkIdle
  return .staging image before

def finishStaging (image : String) : Except String Unit → Operation
  | .ok () => .idle
  | .error error => .failed image error

/-- `host_image::valid_reference`. -/
def validReference (image : String) : Bool :=
  !image.isEmpty && decide (image.utf8ByteSize ≤ 512) && !startsWith image "-" &&
    !image.toList.any fun c => isWhitespace c || c.val < 32 || (127 ≤ c.val && c.val < 160)

end Fwos.Update
