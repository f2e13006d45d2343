import Fwos.Netd.World

/-!
# The journal of an apply

What netd reads before it decides anything: the Accepted network, the journal of
an apply in flight, the record of who applied what, and from these whether a
recovery is pending and what it would restore.
-/

namespace Fwos

open Effects

/-! ## The Accepted network -/

/-- A state without a revision counts as the first. -/
def numbered (state : DesiredState) : DesiredState :=
  if state.revision = 0 then { state with revision := 1 } else state

def acceptedDesired : Netd DesiredState := do
  let raw ← readFile .desired "read Accepted Desired state"
  let state ← parse raw "parse Accepted Desired state"
  return numbered state

def persistAt (file : File) (content : Content file) : Netd Unit := durableWrite file content

def persist (state : DesiredState) : Netd Unit := persistAt .desired (.parsed state)

/-! ## Draft receipts -/

def sameOwner (left right : Principal) : Bool :=
  left.source == right.source && left.subject == right.subject

def upsertDraftReceipt (receipts : List DraftReceipt) (receipt : DraftReceipt) :
    List DraftReceipt :=
  receipts.filter (!sameOwner ·.owner receipt.owner) ++ [receipt]

/-- The receipt of a draft, where both its owner and its version are known. -/
def upsertDraft (receipts : List DraftReceipt) (owner : Option Principal)
    (version : Option String) (revision : Nat) : List DraftReceipt :=
  match owner, version with
  | some owner, some version =>
      upsertDraftReceipt receipts
        { owner := owner, version := version, acceptedRevision := revision }
  | _, _ => receipts

/-- The receipts that a prior record carries over; none from another revision. -/
def carriedReceipts (prior : ApplyAttribution) (acceptedRevision : Nat) : List DraftReceipt :=
  if prior.revision != acceptedRevision then []
  else upsertDraft prior.draftReceipts prior.applying prior.draftVersion prior.revision

def acceptedDraftReceipts (previous : Option (Raw ApplyAttribution)) (acceptedRevision : Nat)
    (applying : Option Principal) (draftVersion : Option String) (nextRevision : Nat) :
    Except String (List DraftReceipt) := do
  let receipts ← match previous with
    | some (.parsed prior) => .ok (carriedReceipts prior acceptedRevision)
    | some (.garbled _) => .error "parse prior Apply actors: invalid content"
    | none => .ok []
  return upsertDraft receipts applying draftVersion nextRevision

def acceptedAttribution (revision : Nat) : Prog (Option ApplyAttribution) := do
  match ← fsRead .applyAttribution with
  | .ok (.parsed record) => return if record.revision = revision then some record else none
  | _ => return none

def writeAttribution (record : ApplyAttribution) : Netd Unit :=
  durableWrite .applyAttribution (.parsed record)

def restoreAttribution (previous : Option (Raw ApplyAttribution)) : Netd Unit :=
  durableRestore .applyAttribution previous

/-! ## An apply in flight -/

def pendingOperation : Netd (Option ApplyOperation) := do
  match ← readOptional .applyOperation "read Apply confirmation" with
  | none => return none
  | some raw =>
      let operation ← parse raw "parse Apply confirmation"
      return if operation.phase = .pendingConfirmation then some operation else none

def operationRequiresRecovery : Prog Bool := do
  if !(← pathExists .applyOperation) then return false
  match ← fsRead .applyOperation with
  | .ok (.parsed operation) => return operation.phase == .applying
  | _ => return true

def recoveryPending : Prog Bool := do
  if ← ask .loadRecovery then return true
  if ← operationRequiresRecovery then return true
  pathExists .applyPrevious

/-- `matches!(pending_operation(), Ok(Some(_)) | Err(_))`. -/
def confirmationPending : Prog Bool := do
  match ← pendingOperation.run with
  | .ok none => return false
  | _ => return true

def applyBusy : Prog Bool := do
  if ← recoveryPending then return true
  confirmationPending

structure RecoveryTarget where
  operation : ApplyOperation
  /-- The file that marks the apply as in flight. -/
  marker : File
  restorePredecessor : Bool

def readRecoveryTarget : Netd RecoveryTarget := do
  if ← pathExists .applyOperation then
    let raw ← readFile .applyOperation "read in-flight apply operation"
    let operation ← parse raw "parse in-flight apply operation"
    if operation.phase = .accepted then
      throw "apply operation is already Accepted; reboot to finish an indeterminate commit"
    return { operation := operation, marker := .applyOperation, restorePredecessor := true }
  let raw ← readFile .applyPrevious "read legacy in-flight Accepted recovery target"
  let accepted ← parse raw "parse legacy in-flight Accepted recovery target"
  return {
    operation := { accepted := accepted, previousAccepted := none }
    marker := .applyPrevious
    restorePredecessor := false }

end Fwos
