import Fwos.Netd.Apply

/-!
# The apply transaction

`apply_desired_request` with its failure path `restore_failed_apply`, and the
confirmation that may end it (`confirm_apply`, `expire_pending_confirmation`).
-/

namespace Fwos

open Effects

variable [Base64]

/-! ## Replies -/

inductive Outcome where
  | accepted
  | pendingConfirmation
  | restored
  | rejected
  | busy
  | failed
  | indeterminate
  | recoveryRequired
deriving DecidableEq, Repr

inductive Restoration where
  | unchanged
  | restored
  | required
  | failed
deriving DecidableEq, Repr

/-- The JSON object that netd answers an apply with. -/
structure Reply where
  ok : Bool := false
  outcome : Option Outcome := none
  status : Option Outcome := none
  restoration : Option Restoration := none
  applied : Option Bool := none
  accepted : Option Bool := none
  revision : Option Nat := none
  baseRevision : Option Nat := none
  predecessorRevision : Option Nat := none
  applying : Option Principal := none
  confirming : Option Principal := none
  expiresAtUnixMs : Option Nat := none
  error : Option String := none
  recoveryError : Option String := none
  cleanupError : Option String := none
deriving DecidableEq, Repr

def rejected (error : String) : Reply := { outcome := some .rejected, error := some error }

def failed (error : String) : Reply := { outcome := some .failed, error := some error }

def Reply.withRevision (reply : Reply) (revision : Nat) : Reply :=
  { reply with revision := some revision }

/-- A request handler, which may end with a reply at any point. -/
abbrev Handler (α : Type) := ExceptT Reply (Program Op Ans) α

def Handler.reply (handler : Handler Reply) : Prog Reply := do
  match ← handler.run with
  | .ok reply => return reply
  | .error reply => return reply

def orReply {α : Type} (program : Netd α) (reply : String → Reply) : Handler α :=
  ExceptT.mk do
    match ← program.run with
    | .ok value => return .ok value
    | .error error => return .error (reply error)

def outcomeOf {α : Type} (program : Netd α) : Handler (Except String α) := ExceptT.lift program.run

/-- A step that is taken whatever failed before; what it adds to the failures. -/
def failure {α : Type} (context : String) (program : Netd α) : Prog (List String) := do
  match ← program.run with
  | .ok _ => return []
  | .error cause => return [s!"{context}: {cause}"]

/-- A step that is only taken while nothing has failed. -/
def unlessFailed {m : Type → Type} [Monad m] (failures : List String) (step : m (List String)) :
    m (List String) :=
  if failures.isEmpty then step else pure failures

/-! ## One attempt -/

/-- The variables of `apply_desired_request` once the proposed state is checked. -/
structure Attempt where
  current : DesiredState
  proposed : DesiredState
  base : Nat
  actor : Option Principal
  draftVersion : Option String
  oldPredecessor : Option (Raw DesiredState)
  oldAttribution : Option (Raw ApplyAttribution)
  lanReadyBefore : Bool

namespace Attempt

/-- One record retains the recovery target and its manual predecessor. -/
def journal (attempt : Attempt) (phase : ApplyPhase) : ApplyOperation := {
  phase := phase
  accepted := attempt.current
  previousAccepted := attempt.oldPredecessor
  previousAttribution := attempt.oldAttribution
  applying := attempt.actor
  draftVersion := attempt.draftVersion }

def undo (attempt : Attempt) : Prog (List String) := do
  let guard ← failure "block forwarding during recovery" requireRecoveryGuard
  let suspend ← failure "suspend tentative LAN services" (setLanServicesReady false)
  let live ← failure "restore live Accepted state" (apply attempt.current)
  let routes ← failure "remove tentative routes"
    (removeStaleRoutes attempt.proposed attempt.current)
  let tentative ← ask (.removeTentativeState attempt.current attempt.proposed)
  let durable ← failure "restore durable Accepted state" (persist attempt.current)
  let predecessor ← failure "restore retained predecessor"
    (durableRestore .previousAccepted attempt.oldPredecessor)
  let actors ← failure "restore prior Apply actors" (restoreAttribution attempt.oldAttribution)
  return guard ++ suspend ++ live ++ routes ++ tentative ++ durable ++ predecessor ++ actors

def resumeLanServices (attempt : Attempt) : Prog (List String) := do
  match ← (setLanServicesReady attempt.lanReadyBefore).run with
  | .ok (some generation) => failure "restore Host LAN services" (waitLanServices generation)
  | .ok none => return []
  | .error cause => return [s!"restore LAN service readiness: {cause}"]

def failedReply (attempt : Attempt) (error : String) : Reply :=
  { failed error with
    applied := some false, accepted := some false, revision := some attempt.current.revision }

def restoredReply (attempt : Attempt) (error : String) : Reply :=
  { attempt.failedReply error with
    status := some .restored, restoration := some .restored }

def recoveryReply (attempt : Attempt) (error : String) (failures : List String) : Reply :=
  { attempt.failedReply error with
    status := some .recoveryRequired, restoration := some .failed
    recoveryError := some ("; ".intercalate failures) }

end Attempt

def restoreFailedApply (attempt : Attempt) (error : String) : Prog Reply := do
  let failures ← attempt.undo
  let failures ← unlessFailed failures attempt.resumeLanServices
  let failures ← unlessFailed failures
    (failure "complete recovery" (finishRecovery attempt.current .applyOperation))
  if failures.isEmpty then return attempt.restoredReply error
  ask (.storeRecovery true)
  return attempt.recoveryReply error failures

namespace Attempt

/-- A failure before anything was programmed. -/
def unstarted (attempt : Attempt) (restoration : Restoration) (error : String) : Reply :=
  { failed error with
    restoration := some restoration, revision := some attempt.current.revision }

def retainAccepted (attempt : Attempt) : Handler Unit := do
  match ← outcomeOf (durableWrite .applyOperation (.parsed (attempt.journal .applying))) with
  | .ok () => return ()
  | .error cause =>
      let error := s!"could not retain Accepted Desired state before apply: {cause}"
      if ← operationRequiresRecovery then
        let guard ← outcomeOf requireRecoveryGuard
        throw { attempt.unstarted .required error with
          recoveryError := some s!"forwarding guard: {guardText guard}" }
      throw (attempt.unstarted .unchanged error)

/-- Drop the journal of an attempt that changed nothing. -/
def clearJournal (attempt : Attempt) (error : String) : Handler (List String) := do
  match ← outcomeOf (durableRemove .applyOperation) with
  | .ok () => return []
  | .error cause =>
      if ← operationRequiresRecovery then return [s!"clear in-flight operation: {cause}"]
      throw { attempt.unstarted .unchanged error with cleanupError := some cause }

/-- Tentative configuration files must not start a service. -/
def suspendLanServices (attempt : Attempt) : Handler Unit := do
  match ← outcomeOf (setLanServicesReady false) with
  | .ok _ => return ()
  | .error cause =>
      let error := s!"could not suspend LAN service activation: {cause}"
      let failures ← failure "restore LAN service readiness"
        (setLanServicesReady attempt.lanReadyBefore)
      let failures ← unlessFailed failures (attempt.clearJournal error)
      if failures.isEmpty then throw (attempt.unstarted .unchanged error)
      let guard ← failure "block forwarding" requireRecoveryGuard
      throw { attempt.unstarted .required error with
        recoveryError := some ("; ".intercalate (failures ++ guard)) }

/-- Program the proposed state and, without a confirmation, write it as Accepted. -/
def program (attempt : Attempt) (immediate : Bool) : Netd DesiredState := do
  let proposed ← apply attempt.proposed
  removeStaleRoutes attempt.current proposed
  publishLanServices "LAN service generation was not published"
  if immediate then
    let receipts ← check (acceptedDraftReceipts attempt.oldAttribution attempt.current.revision
      attempt.actor attempt.draftVersion proposed.revision)
    persist proposed
    persistAt .previousAccepted (.parsed attempt.current)
    writeAttribution {
      revision := proposed.revision, applying := attempt.actor, draftReceipts := receipts }
  return proposed

/-- The journal of a state that is live but not Accepted. -/
def pendingJournal (attempt : Attempt) (id : String) (now expires : Nat) : ApplyOperation :=
  { attempt.journal .pendingConfirmation with
    proposed := some attempt.proposed
    confirmationId := some id
    deadlineBootNs := some (min (now + 120_000_000_000) (2 ^ 64 - 1))
    expiresAtUnixMs := some expires }

def orRestore {α : Type} (attempt : Attempt) (program : Netd α) (context : String → String) :
    Handler α := do
  match ← outcomeOf program with
  | .ok value => return value
  | .error error => throw (← restoreFailedApply attempt (context error))

def awaitConfirmation (attempt : Attempt) : Handler Reply := do
  let id ← attempt.orRestore randomToken fun error => error
  let now ← attempt.orRestore bootTimeNs fun error => error
  let expires := (← ask .unixMs) + 120_000
  attempt.orRestore
    (durableWrite .applyOperation (.parsed (attempt.pendingJournal id now expires)))
    fun error => s!"retain pending Apply confirmation: {error}"
  return {
    ok := true, outcome := some .pendingConfirmation, status := some .pendingConfirmation
    applied := some true, accepted := some false, revision := some attempt.proposed.revision
    baseRevision := some attempt.base, applying := attempt.actor
    expiresAtUnixMs := some expires }

/-- The durable write of this phase accepts the proposed state; the removal
after it is only cleanup. -/
def accept (attempt : Attempt) : Handler Reply := do
  match ← outcomeOf (durableWrite .applyOperation (.parsed (attempt.journal .accepted))) with
  | .error error =>
      let guard ← outcomeOf requireRecoveryGuard
      return {
        outcome := some .indeterminate, restoration := some .required
        error := some s!"durably accept Desired state: {error}; reboot to resolve the operation"
        recoveryError := some s!"forwarding guard: {guardText guard}" }
  | .ok () =>
      let _ ← outcomeOf (durableRemove .applyOperation)
      return {
        ok := true, outcome := some .accepted, status := some .accepted
        applied := some true, accepted := some true, revision := some attempt.proposed.revision
        baseRevision := some attempt.base
        predecessorRevision := some attempt.current.revision, applying := attempt.actor }

def execute (attempt : Attempt) (intent : ApplyIntent) : Handler Reply := do
  attempt.retainAccepted
  attempt.suspendLanServices
  let immediate := !attempt.current.applyConfirmation || intent == .recoveryRestore
  let proposed ← attempt.orRestore (attempt.program immediate) fun error => error
  let attempt := { attempt with proposed := proposed }
  if immediate then attempt.accept else attempt.awaitConfirmation

end Attempt

/-- `checked_add` on `u64`. -/
def checkedAdd (a b : Nat) : Option Nat := if a + b < 2 ^ 64 then some (a + b) else none

/-- The checks of `apply_desired_request`, none of which changes anything. -/
def prepareApply (input : Except String DesiredState) (baseRevision : Option Nat)
    (actor : Option Principal) (draftVersion : Option String) : Handler Attempt := do
  if ← applyBusy then
    throw {
      outcome := some .busy
      error := some "another Desired state apply or recovery is in progress" }
  let current ← orReply acceptedDesired failed
  let base := baseRevision.getD current.revision
  if base != current.revision then
    throw ((rejected "Accepted Desired state changed; reload before applying").withRevision
      current.revision)
  let proposed ← orReply (check input) fun error =>
    (rejected s!"invalid complete Desired state: {error}").withRevision current.revision
  orReply (checkProposed proposed) fun error => (rejected error).withRevision current.revision
  match checkedAdd current.revision 1 with
  | none => throw (rejected "revision limit reached")
  | some nextRevision =>
      let proposed := { proposed with revision := nextRevision }
      orReply (ExceptT.mk (ask (.captureFootprint current proposed))) fun error =>
        { failed s!"could not inspect live network before apply: {error}" with
          restoration := some .unchanged, revision := some current.revision }
      let oldPredecessor ← orReply
        (readOptional .previousAccepted "read retained predecessor") fun error =>
          (failed error).withRevision current.revision
      let oldAttribution ← orReply
        (readOptional .applyAttribution "read prior Apply actors") failed
      let lanReadyBefore ← pathExists .lanServicesReady
      return {
        current := current, proposed := proposed, base := base, actor := actor
        draftVersion := draftVersion, oldPredecessor := oldPredecessor
        oldAttribution := oldAttribution, lanReadyBefore := lanReadyBefore }

def applyDesiredRequest (input : Except String DesiredState) (baseRevision : Option Nat)
    (actor : Option Principal) (draftVersion : Option String) (intent : ApplyIntent) :
    Prog Reply :=
  Handler.reply do
    let attempt ← prepareApply input baseRevision actor draftVersion
    attempt.execute intent

/-! ## Confirmation -/

def pendingExpired (operation : ApplyOperation) : Netd Bool :=
  match operation.deadlineBootNs with
  | none => throw "pending Apply deadline is missing"
  | some deadline => do return (← bootTimeNs) ≥ deadline

/-- `pending_expired(..).unwrap_or(true)`. -/
def expired (operation : ApplyOperation) : Prog Bool := do
  match ← (pendingExpired operation).run with
  | .ok passed => return passed
  | .error _ => return true

def expirePendingConfirmation : Prog Unit := do
  match ← pendingOperation.run with
  | .error _ =>
      let _ ← requireRecoveryGuard.run
      return ()
  | .ok none => return ()
  | .ok (some operation) =>
      if ← expired operation then
        let _ ← recoverInterruptedApply.run
        return ()

/-- The journal of a confirmed apply: nothing is proposed any more. -/
def acceptedJournal (operation : ApplyOperation) : ApplyOperation := {
  phase := .accepted
  accepted := operation.accepted
  previousAccepted := operation.previousAccepted
  previousAttribution := operation.previousAttribution
  applying := operation.applying
  draftVersion := operation.draftVersion }

def acceptPending (operation : ApplyOperation) (proposed : DesiredState) (revision : Nat)
    (confirming : Principal) : Netd Unit := do
  let receipts ← check (acceptedDraftReceipts operation.previousAttribution
    operation.accepted.revision operation.applying operation.draftVersion revision)
  writeAttribution {
    revision := revision, applying := operation.applying, confirming := some confirming
    draftReceipts := receipts }
  persist proposed
  persistAt .previousAccepted (.parsed operation.accepted)
  durableWrite .applyOperation (.parsed (acceptedJournal operation))

/-- The word a reply has for the recovery it attempted. -/
def restorationOf {α : Type} : Except String α → Restoration
  | .ok _ => .restored
  | .error _ => .required

def errorOf {α : Type} : Except String α → Option String
  | .ok _ => none
  | .error error => some error

def confirmPending (operation : ApplyOperation) (revision : Nat) (confirmationId : String)
    (confirming : Principal) : Handler Reply := do
  match operation.proposed with
  | none =>
      let _ ← outcomeOf requireRecoveryGuard
      return failed "pending Apply revision is missing"
  | some proposed =>
      if revision != proposed.revision || operation.confirmationId != some confirmationId then
        throw (rejected "pending Apply operation changed")
      if ← expired operation then
        let recovered ← outcomeOf recoverInterruptedApply
        throw { rejected "Apply confirmation expired" with
          restoration := some (restorationOf recovered) }
      match ← outcomeOf (acceptPending operation proposed revision confirming) with
      | .error error =>
          let recovery ← outcomeOf recoverInterruptedApply
          return { failed error with
            restoration := some (restorationOf recovery), recoveryError := errorOf recovery }
      | .ok () =>
          let _ ← outcomeOf (durableRemove .applyOperation)
          return {
            ok := true, outcome := some .accepted, status := some .accepted
            revision := some revision, applying := operation.applying
            confirming := some confirming }

def confirmApply (revision : Option Nat) (confirmationId : Option String)
    (confirming : Option Principal) : Prog Reply :=
  Handler.reply do
    let some revision := revision | throw (rejected "pending revision is required")
    let some confirmationId := confirmationId
      | throw (rejected "Apply confirmation ID is required")
    let some confirming := confirming
      | throw (rejected "current administrator identity is required")
    if ← recoveryPending then throw (rejected "Apply recovery is in progress")
    match ← orReply pendingOperation failed with
    | none => throw (rejected "no Apply confirmation is pending")
    | some operation => confirmPending operation revision confirmationId confirming

end Fwos
