import Fwos.Netd.Transaction

/-!
# Bootstrap

`bootstrap_apply`: the first Desired state is programmed and ownership recorded
in one durable marker, for the administrator and the hostname that the request
is bound to. Before the marker a failure removes every trace of the attempt.
-/

namespace Fwos

open Effects Rust

variable [Base64]

inductive BootstrapFailure where
  | incomplete (error : String)
  | owned (error : String)
  | indeterminate (error : String)
deriving DecidableEq, Repr

abbrev Bootstrap (α : Type) := ExceptT BootstrapFailure (Program Op Ans) α

/-- `impl From<String> for BootstrapFailure`. -/
def incomplete {α : Type} (program : Netd α) : Bootstrap α :=
  ExceptT.mk do
    match ← program.run with
    | .ok value => return .ok value
    | .error error => return .error (.incomplete error)

def outcome {α : Type} (program : Netd α) : Bootstrap (Except String α) := ExceptT.lift program.run

/-- `identity::tentative_first_administrator_subject`. -/
def tentativeFirstAdministratorSubject : Prog (Option String) := do
  match ← fsRead .identity with
  | .ok (.parsed config) =>
      return config.check.toOption.bind (·.firstLocalAdministratorSubject)
  | _ => return none

def durableHostname : Prog (Option String) := do
  match ← fsRead .hostname with
  | .ok name => return some (trim name)
  | .error _ => return none

/-- `apply_opt`. -/
def applyOpt (opt : FirstBootOpt) : Netd Unit := do
  network (.requireTrafficNic opt.nic)
  if let some prev ← loadOpt then
    if prev != opt then teardownOpt prev
  network (.selectOpt opt)
  let addrs ← ExceptT.mk (ask (.ifaceCidrs opt.nic))
  programFirstBootNft opt.nic addrs

def applyAndPersistOpt (opt : FirstBootOpt) : Netd Unit := do
  if ← pathExists .bootstrapped then throw "already bootstrapped"
  applyOpt opt
  durableWrite .opt (.parsed opt)

def removeAll (files : List File) : Netd Unit := files.forM durableRemove

def recoverIncompleteBootstrap : Netd Unit := do
  if ← pathExists .bootstrapped then return ()
  let attempt ← match ← readOptional .bootstrapAttempt "read Bootstrap attempt" with
    | some raw => some <$> parse raw "parse Bootstrap attempt"
    | none => pure none
  if let some vlanLinks := attempt then
    network (.undoBootstrap vlanLinks)
    nftApply [.flushRuleset]
    nftApply hostPullNft
  removeAll [.desired, .identity, .hostname, .bootstrapAttempt]
  if attempt.isSome then
    match ← loadOpt with
    | some opt => applyOpt opt
    | none => programFirstBootNft "" []

def failBootstrapAttempt (error : String) : Prog String := do
  match ← recoverIncompleteBootstrap.run with
  | .ok () => return error
  | .error recovery => return s!"{error}; Bootstrap recovery failed: {recovery}"

def commitBootstrapMarker : Bootstrap Unit := do
  match ← outcome (durableWrite .bootstrapped ()) with
  | .ok () => return ()
  | .error error =>
      -- The rename may have happened: confirm it, or remove the visible marker.
      if ← pathExists .bootstrapped then
        if ← ask .syncDirectory then return ()
      match ← outcome (durableRemove .bootstrapped) with
      | .ok () => throw (.incomplete s!"Bootstrap marker was not durable: {error}")
      | .error cleanup => throw (.indeterminate
          s!"Bootstrap marker durability is uncertain: {error}; cleanup: {cleanup}")

/-- The request's state, after every check of `bootstrap_apply_inner` on it. -/
def checkBootstrap (desired : Option (Except String DesiredState)) :
    Except String DesiredState := do
  let state ← okOr desired "missing Bootstrap Desired state"
  let state ← state.mapError fun error => s!"invalid Bootstrap Desired state: {error}"
  validate state
  forM state.interfaces fun iface =>
    BootstrapValues.interface iface.name iface.parent iface.vlan iface.addresses
  BootstrapValues.addressing state.lanPrefix state.dhcpPool state.wanPd
  lanServicesMatchInterface state
  return state

/-- The administrator and the hostname are still those of the request. -/
def checkOwner (adminSubject hostname administratorError hostnameError : String) :
    Bootstrap Unit := do
  if (← tentativeFirstAdministratorSubject) != some adminSubject then
    throw (.incomplete administratorError)
  if (← durableHostname) != some hostname then
    throw (.incomplete hostnameError)

def bootstrapApplyInner (adminSubject : Option String)
    (desired : Option (Except String DesiredState)) : Bootstrap Unit := do
  let adminSubject ← incomplete
    (check (okOr adminSubject "missing Bootstrap administrator binding"))
  let state ← incomplete (check (checkBootstrap desired))
  if (← tentativeFirstAdministratorSubject) != some adminSubject then
    throw (.incomplete "Bootstrap administrator changed before apply")
  let hostname ← incomplete (check (okOr state.hostname "missing Bootstrap hostname"))
  if (← durableHostname) != some hostname then
    throw (.incomplete "Bootstrap hostname is not durable")
  incomplete (durableWrite .bootstrapAttempt
    (.parsed ((state.interfaces.filter (·.vlan.isSome)).map (·.name))))
  let state ← incomplete (apply state)
  incomplete (persist state)
  checkOwner adminSubject hostname "Bootstrap administrator changed during apply"
    "Bootstrap hostname changed during apply"
  commitBootstrapMarker
  incomplete (network (.lanServices state true))
  let _ ← incomplete (setLanServicesReady true)
  let _ ← outcome (durableRemove .opt)
  let _ ← outcome (durableRemove .bootstrapAttempt)
  return ()

def bootstrapApply (adminSubject : Option String)
    (desired : Option (Except String DesiredState)) : Bootstrap Unit := do
  if ← pathExists .bootstrapped then throw (.owned "already bootstrapped")
  match ← ExceptT.lift (bootstrapApplyInner adminSubject desired).run with
  | .ok () => return ()
  | .error (.incomplete error) =>
      if ← pathExists .bootstrapped then
        throw (.owned s!"Bootstrap ownership is recorded; {error}")
      throw (.incomplete (← failBootstrapAttempt error))
  | .error other => throw other

end Fwos
