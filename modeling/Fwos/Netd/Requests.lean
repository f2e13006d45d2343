import Fwos.Netd.Bootstrap

/-!
# Requests and startup

Everything netd runs: its startup, the requests of its socket, and what its main
loop does between them. An `Event` is one of these; between two events netd
waits for the next request.
-/

namespace Fwos

open Effects Rust

variable [Base64]

/-! ## Restoring an earlier network -/

/-- A request that changes nothing before its state is read. -/
def restorePreviousRequest (actor : Option Principal) : Prog Reply :=
  Handler.reply do
    if !(← pathExists .bootstrapped) then
      throw (rejected "complete Bootstrap before restoring Desired state")
    if ← recoveryPending then
      match ← outcomeOf recoverInterruptedApply with
      | .ok revision =>
          throw {
            ok := true, outcome := some .restored, restoration := some .restored
            revision := some revision }
      | .error error => throw { failed error with restoration := some .required }
    if ← confirmationPending then throw (rejected "Apply confirmation is pending")
    let current ← orReply acceptedDesired failed
    let previous ← match ← fsRead .previousAccepted with
      | .ok raw => orReply (parse raw "parse previous Accepted network revision") fun error =>
          (failed error).withRevision current.revision
      | .error .notFound =>
          throw ((rejected "no previous Accepted network revision is available").withRevision
            current.revision)
      | .error (.failed error) =>
          throw ((failed s!"read previous Accepted network revision: {error}").withRevision
            current.revision)
    if previous.revision == 0 || previous.revision ≥ current.revision then
      throw ((failed
        "previous Accepted network revision is not older than the current revision").withRevision
          current.revision)
    -- A manual restoration is a new Accepted revision, not a file copy.
    applyDesiredRequest (.ok previous) (some current.revision) actor none .recoveryRestore

/-- `saturating_add` on `u64`. -/
def saturatingAdd (a b : Nat) : Nat := min (a + b) (2 ^ 64 - 1)

def readPreUpdateAccepted : Netd DesiredState := do
  let raw ← readFile .preUpdateAccepted "read pre-update Accepted Desired state"
  parse raw "parse pre-update Accepted Desired state"

/-- Keep the Accepted revision for a rollback of the Host image. -/
def preserve : Netd Nat := do
  let accepted ← acceptedDesired
  persistAt .preUpdateAccepted (.parsed accepted)
  durableRemove .networkRestoration
  return accepted.revision

def preservePreUpdate : Prog Reply :=
  Handler.reply do
    if !(← pathExists .bootstrapped) then
      throw { error := some "complete Bootstrap before a Host update" }
    if ← recoveryPending then
      throw { error := some "Accepted Desired state needs recovery before a Host update" }
    let revision ← orReply preserve fun error => { error := some error }
    return { ok := true, revision := some revision }

def discardPreUpdate : Prog Reply :=
  Handler.reply do
    orReply (durableRemove .preUpdateAccepted) fun error => { error := some error }
    return { ok := true }

def stage : Netd Unit := do
  let preserved ← readPreUpdateAccepted
  persistAt .applyPrevious
    (.parsed { preserved with revision := saturatingAdd preserved.revision 1 })

/-- The preserved revision becomes the target of a recovery where the Accepted
state that the failed Release left cannot be read. -/
def stageUnreadableAcceptedRestoration : Prog Bool := do
  match ← acceptedDesired.run with
  | .ok _ => return false
  | .error _ =>
      if ← pathExists .applyOperation then return false
      if ← pathExists .applyPrevious then return false
      match ← stage.run with
      | .ok () => return true
      | .error _ => return false

/-- The reply of the apply as an outcome of the restoration. -/
def restorationOfReply (reply : Reply) : NetworkRestoration :=
  match reply.revision, reply.ok with
  | some revision, true => .restored revision
  | _, _ => .failed (reply.error.getD "apply of the pre-update network failed")

def restorePreUpdate (restoredAtRecovery : Bool) : Prog NetworkRestoration := do
  match ← readPreUpdateAccepted.run with
  | .error error => return .failed error
  | .ok preserved =>
      if ← recoveryPending then
        return .failed "Accepted Desired state needs recovery from the Appliance console"
      match ← acceptedDesired.run with
      | .error error => return .failed error
      | .ok current =>
          if preserved.SameNetwork current then
            return if restoredAtRecovery then .restored current.revision
              else .unchanged current.revision
          let reply ← applyDesiredRequest (.ok preserved) (some current.revision) none none
            .recoveryRestore
          return restorationOfReply reply

/-- The preserved network is dropped unless its restoration failed. -/
def dropPreserved (restoration : NetworkRestoration) : Prog Unit :=
  match restoration with
  | .failed _ => return ()
  | _ => do
      let _ ← (durableRemove .preUpdateAccepted).run
      return ()

def recordRestoration (restoration : NetworkRestoration) : Netd Unit := do
  durableWrite .networkRestoration restoration
  durableRemove .restorePreUpdate

def finishPreUpdateRestoration (restoredAtRecovery : Bool) : Prog Unit := do
  let restoration ← restorePreUpdate restoredAtRecovery
  dropPreserved restoration
  let _ ← (recordRestoration restoration).run
  return ()

/-! ## Requests that only read -/

structure PendingStatus where
  revision : Nat
  confirmationId : Option String
  baseRevision : Nat
  applying : Option Principal
  expiresAtUnixMs : Option Nat
  acceptedReview : DesiredState
  proposedReview : DesiredState
deriving DecidableEq, Repr

structure ConfirmationStatus where
  enabled : Bool
  acceptedRevision : Nat
  pending : Option PendingStatus
  lastAccepted : Option ApplyAttribution
deriving DecidableEq, Repr

def pendingStatus (operation : ApplyOperation) : Except String PendingStatus :=
  match operation.proposed with
  | none => .error "pending Apply revision is missing"
  | some proposed => .ok {
      revision := proposed.revision
      confirmationId := operation.confirmationId
      baseRevision := operation.accepted.revision
      applying := operation.applying
      expiresAtUnixMs := operation.expiresAtUnixMs
      acceptedReview := operation.accepted
      proposedReview := proposed }

def applyConfirmationStatus : Netd ConfirmationStatus := do
  let accepted ← acceptedDesired
  let pending ← match ← pendingOperation with
    | none => pure none
    | some operation => some <$> check (pendingStatus operation)
  let lastAccepted ← acceptedAttribution accepted.revision
  return {
    enabled := accepted.applyConfirmation, acceptedRevision := accepted.revision
    pending := pending, lastAccepted := lastAccepted }

/-- Some receipt, or the record itself, is of this draft. -/
def receiptMatches (record : ApplyAttribution) (acceptedRevision : Nat) (owner : Principal)
    (version : String) : Bool :=
  (record.draftReceipts.any fun receipt =>
      sameOwner receipt.owner owner && receipt.version == version &&
        receipt.acceptedRevision ≤ acceptedRevision) ||
    (record.draftVersion == some version && record.applying.any (sameOwner · owner))

def wasDraftAccepted (revision : Option Nat) (draftVersion : Option String)
    (owner : Option Principal) : Netd Bool := do
  if ← recoveryPending then throw "Accepted Desired state is unavailable during recovery"
  let revision ← check (okOr revision "Accepted revision is required")
  let version ← check (okOr draftVersion "draft version is required")
  let owner ← check (okOr owner "draft owner is required")
  let accepted ← acceptedDesired
  if accepted.revision != revision then return false
  match ← acceptedAttribution revision with
  | none => return false
  | some record => return receiptMatches record accepted.revision owner version

def getDesired : Netd DesiredState := do
  if ← recoveryPending then
    throw "the previous Desired state apply needs recovery before Accepted state is available"
  acceptedDesired

def validateDesiredRequest (input : Except String DesiredState) : Netd Unit := do
  let proposed ← check (input.mapError fun error => s!"invalid complete Desired state: {error}")
  checkProposed proposed

def parseLanServicesResult (result generation : String) : Option (Except String Unit) :=
  match splitOnce (trim result) ' ' with
  | none => none
  | some (observed, status) =>
      if observed != generation then none
      else if status == "ok" then some (.ok ())
      else some (.error s!"Host LAN service reconciliation failed: {status}")

def acceptedStateRestored (bootstrapped recoveryRequired : Bool)
    (lanReady lanResult : Option String) : Except String Unit := do
  ensure bootstrapped "Bootstrap has not completed"
  ensure (!recoveryRequired) "Accepted Desired state needs recovery"
  let generation ← okOr (nonEmpty (lanReady.map trim)) "LAN services are not ready"
  (lanResult.bind (parseLanServicesResult · generation)).getD
    (.error "LAN services are starting")

def restorationStatus : Netd Nat := do
  let ready ← fsRead .lanServicesReady
  let result ← fsRead .lanServicesResult
  check (acceptedStateRestored (← pathExists .bootstrapped) (← recoveryPending)
    ready.toOption result.toOption)
  return (← acceptedDesired).revision

/-! ## Startup -/

def programHostPull : Netd Unit := do
  nftApply [.destroy "ip" "fwos-pull"]
  nftApply hostPullNft

def applyInterrupted : Prog Bool := do
  if !(← pathExists .bootstrapped) then return false
  if ← operationRequiresRecovery then return true
  if ← confirmationPending then return true
  pathExists .applyPrevious

/-- A start without an apply in flight: the stored state is applied and stored
as it was completed. -/
def resumeAccepted : Netd Unit := do
  let raw ← readFile .desired "read /var/lib/fwos/desired.toml"
  let state ← parse raw "parse /var/lib/fwos/desired.toml"
  let state ← apply state
  persist state
  if ← pathExists .bootstrapped then
    if !(← recoveryPending) then
      let _ ← setLanServicesReady true
  if ← pathExists .applyOperation then
    if !(← operationRequiresRecovery) then
      let _ ← attempt (durableRemove .applyOperation)

def firstBoot : Netd Unit := do
  programFirstBootNft "" []
  if let some opt ← loadOpt then applyOpt opt

def restorePreUpdateRequested : Prog Bool := do
  if !(← pathExists .bootstrapped) then return false
  pathExists .restorePreUpdate

def startup : Netd Unit := do
  let restore ← restorePreUpdateRequested
  let restoredAtRecovery ← if restore then stageUnreadableAcceptedRestoration else pure false
  let interrupted ← applyInterrupted
  if interrupted then requireRecoveryGuard
  programHostPull
  if !(← pathExists .bootstrapped) then recoverIncompleteBootstrap
  if interrupted then
    let _ ← attempt recoverInterruptedApply
  else if ← pathExists .desired then resumeAccepted
  else firstBoot
  if restore then finishPreUpdateRestoration restoredAtRecovery

/-! ## Between requests -/

/-- The exposed addresses of the first-boot selection changed. -/
def refreshBootstrapExposure : Netd Unit := do
  if ← pathExists .desired then return ()
  if ← pathExists .bootstrapped then return ()
  if let some opt ← loadOpt then
    let cidrs ← ExceptT.mk (ask (.ifaceCidrs opt.nic))
    programFirstBootNft opt.nic cidrs

/-- The state that IPv6 follows: one that awaits confirmation is live. -/
def followedState : Netd (Option DesiredState) := do
  match ← pendingOperation with
  | some operation => return operation.proposed
  | none => return some (← acceptedDesired)

/-- `Ipv6Runtime::refresh`, which publishes the LAN services again when the
delegated prefix changed. -/
def refreshIpv6 (prefixChanged : Bool) : Netd Unit := do
  if !(← pathExists .bootstrapped) then return ()
  if ← recoveryPending then return ()
  if let some state ← followedState then
    network (.followIpv6 state)
    if prefixChanged then
      network (.lanServices state true)
      let _ ← setLanServicesReady true

/-! ## Events -/

inductive Request where
  /-- A request answered from the live network alone. -/
  | inspect
  | opt (selection : Except String FirstBootOpt)
  | bootstrapApply (adminSubject : Option String) (desired : Option (Except String DesiredState))
  | getDesired
  | getApplyConfirmation
  | restorationStatus
  | preservePreUpdate
  | discardPreUpdate
  | validateDesired (desired : Except String DesiredState)
  | wasDraftAccepted (revision : Option Nat) (draftVersion : Option String)
      (owner : Option Principal)
  | confirmApply (revision : Option Nat) (confirmationId : Option String)
      (confirming : Option Principal)
  | restorePrevious (applying : Option Principal)
  | applyDesired (desired : Except String DesiredState) (baseRevision : Option Nat)
      (applying : Option Principal) (draftVersion : Option String)

inductive Answer where
  | none
  | reply (reply : Reply)
  | result (result : Except String Unit)
  | desired (result : Except String DesiredState)
  | confirmation (result : Except String ConfirmationStatus)
  | revision (result : Except String Nat)
  | accepted (result : Except String Bool)
  | bootstrap (result : Except BootstrapFailure Unit)

def applyDesired (desired : Except String DesiredState) (baseRevision : Option Nat)
    (applying : Option Principal) (draftVersion : Option String) : Prog Reply :=
  Handler.reply do
    if !(← pathExists .bootstrapped) then
      throw (rejected "complete Bootstrap before applying Desired state")
    let some base := baseRevision | throw (rejected "base_revision is required")
    applyDesiredRequest desired (some base) applying draftVersion .ordinary

/-- The request is one that netd knows, with the fields it reads of it. -/
def handleCmd : Request → Prog Answer
  | .inspect => return .none
  | .opt selection => return .result (← (do applyAndPersistOpt (← check selection) : Netd Unit).run)
  | .bootstrapApply adminSubject desired =>
      return .bootstrap (← (bootstrapApply adminSubject desired).run)
  | .getDesired => return .desired (← Fwos.getDesired.run)
  | .getApplyConfirmation => return .confirmation (← applyConfirmationStatus.run)
  | .restorationStatus => return .revision (← Fwos.restorationStatus.run)
  | .preservePreUpdate => return .reply (← Fwos.preservePreUpdate)
  | .discardPreUpdate => return .reply (← Fwos.discardPreUpdate)
  | .validateDesired desired => return .result (← (validateDesiredRequest desired).run)
  | .wasDraftAccepted revision draftVersion owner =>
      return .accepted (← (Fwos.wasDraftAccepted revision draftVersion owner).run)
  | .confirmApply revision confirmationId confirming =>
      return .reply (← Fwos.confirmApply revision confirmationId confirming)
  | .restorePrevious applying => return .reply (← restorePreviousRequest applying)
  | .applyDesired desired baseRevision applying draftVersion =>
      return .reply (← Fwos.applyDesired desired baseRevision applying draftVersion)

end Fwos
