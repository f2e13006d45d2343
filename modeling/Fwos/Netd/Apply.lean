import Fwos.Netd.Journal

/-!
# Applying and restoring a Desired state

The apply transaction of netd: a journal is written, the proposed state is
programmed, and it becomes Accepted by a durable write of the journal or by a
later confirmation. Whatever goes wrong before, the state in the journal is
programmed again, behind a guard that forwards nothing.
-/

namespace Fwos

open Effects Rust

variable [Base64]

/-- Go on after a failure, with its text. -/
def attempt {α : Type} (program : Netd α) : Netd (Except String α) := ExceptT.lift program.run

/-! ## First-boot selection -/

/-- The addresses of Bootstrap HTTPS: RFC 1918 and IPv6 ULA. -/
def bootstrapExposeIps (cidrs : List String) : List String :=
  (exposeIps cidrs).filter fun ip =>
    match parseIp ip with
    | some (.v4 address) =>
        let (a, b, _, _) := octets address
        a == 10 || (a == 172 && 16 ≤ b && b ≤ 31) || (a == 192 && b == 168)
    | some (.v6 address) => address >>> 121 == 0x7e
    | none => false

def firstBootTable (family nic target : String) (ips : List String) : List Nft.Command :=
  if ips.isEmpty then [] else [.add {
    family := family, name := "fwos-first-boot"
    chains := [
      { name := "prerouting", type := "nat", hook := "prerouting", priority := "dstnat"
        policy := .accept
        rules := ips.map fun ip =>
          s!"iifname \"{nic}\" {family} daddr {ip} tcp dport 443 dnat {family} to {target}" },
      { name := "forward", type := "filter", hook := "forward", priority := "filter"
        policy := .accept
        rules := [s!"iifname \"{nic}\" oifname \"{fwdMgmtVeth}\" tcp dport 443 accept"] }] }]

def firstBootNft (nic : String) (ips : List String) : List Nft.Command :=
  [.add {
    family := "inet", name := "fwos-first-boot"
    chains := [{
      name := "forward", type := "filter", hook := "forward", priority := "filter"
      policy := .accept
      rules := (ips.map fun ip =>
        let family := if containsChar ip ':' then "ip6" else "ip"
        s!"iifname \"{nic}\" oifname \"{fwdMgmtVeth}\" tcp dport 443 ct status dnat ct original {family} daddr {ip} accept")
        ++ [s!"oifname \"{fwdMgmtVeth}\" tcp dport 443 drop"] }] }] ++
    firstBootTable "ip" nic mgmtFwdIp (ips.filter (!containsChar · ':')) ++
    firstBootTable "ip6" nic mgmtFwdIp6 (ips.filter (containsChar · ':'))

def programFirstBootNft (nic : String) (cidrs : List String) : Netd Unit :=
  nftApply ([.destroy "ip" "fwos-first-boot", .destroy "ip6" "fwos-first-boot",
    .destroy "inet" "fwos-first-boot"] ++ firstBootNft nic (bootstrapExposeIps cidrs))

def loadOpt : Prog (Option FirstBootOpt) := do
  match ← fsRead .opt with
  | .ok (.parsed opt) => return some opt
  | _ => return none

def teardownOpt (opt : FirstBootOpt) : Netd Unit := do
  network (.teardownOpt opt)
  programFirstBootNft "" []

def suspendOpt : Netd Unit := do
  if let some opt ← loadOpt then teardownOpt opt
  nftApply [.destroy "inet" "fwos-first-boot"]

def discardOpt : Netd Unit := do
  suspendOpt
  durableRemove .opt

/-! ## Programming a state -/

def nftRules (state : DesiredState) : Prog (List Nft.Command) := do
  return nftRulesWithRecoveryGuard state (← ask .loadRecovery)

def programNft (state : DesiredState) : Netd Unit := do
  nftApply (← nftRules state)

/-- The commands of `apply` for a completed state. -/
def programState (completed : DesiredState) (live : Live) : Netd Unit := do
  if ← pathExists .bootstrapped then discardOpt else suspendOpt
  network (.links completed live)
  network (.vlans completed)
  network (.wanIpv6 completed)
  network (.wg completed)
  network (.routes completed)
  network (.qdiscs completed)
  network (.lanServices completed (← pathExists .bootstrapped))
  programNft completed

/-- Completes the state with the live addresses, programs the completed state
and returns it, where the source changes it in place. -/
def apply (state : DesiredState) : Netd DesiredState := do
  check (validate state)
  let live ← ask .captureIpv4
  let completed := complete live state
  programState completed live
  return completed

/-- Every check a proposed complete state passes before any apply mutates. -/
def checkProposed (proposed : DesiredState) : Netd Unit := do
  check (validate proposed)
  nftCheck (← nftRules proposed)

def removeStaleRoutes (previous proposed : DesiredState) : Netd Unit :=
  network (.staleRoutes previous proposed)

def setLanServicesReady (ready : Bool) : Netd (Option String) := do
  let generation ← if ready then some <$> randomToken else pure none
  let result ← attempt (durableRestore .lanServicesReady generation)
  -- The directory may fail to synchronise after the rename or the unlink:
  -- what counts is the exact generation.
  let observed ← readOptional .lanServicesReady "inspect LAN service readiness"
  if observed = generation then return generation
  match result with
  | .error error => throw error
  | .ok () => throw "LAN service readiness did not reach requested state"

/-! ## The recovery guard -/

/-- The ruleset without any authority: nothing but loopback. -/
def recoveryRuleset : List Nft.Command :=
  [.flushRuleset] ++ hostPullNft ++ [.add {
    family := "inet", name := "fwos-recovery"
    chains := [
      { name := "input", type := "filter", hook := "input", priority := "filter", policy := .drop
        rules := ["iifname \"lo\" accept"] },
      { name := "forward", type := "filter", hook := "forward", priority := "filter"
        policy := .drop, rules := [] }] }]

/-- Install the input policy of the state to restore with nothing forwarded. -/
def guardRestored : Netd Unit := do
  let target ← readRecoveryTarget
  nftApply (← nftRules target.operation.accepted)

def requireRecoveryGuard : Netd Unit := do
  ask (.storeRecovery true)
  match ← attempt guardRestored with
  | .ok () => return ()
  | .error _ => nftApply recoveryRuleset

/-- What the guard reports in an error text. -/
def guardText : Except String Unit → String
  | .ok () => "Ok(())"
  | .error error => s!"Err({error})"

def reopenRestoredForwarding (previous : DesiredState) : Netd Unit := do
  match ← attempt (nftApply (nftRulesWithRecoveryGuard previous false)) with
  | .ok () => ask (.storeRecovery false)
  | .error error =>
      let guard ← attempt requireRecoveryGuard
      throw s!"reopen restored forwarding: {error}; guard: {guardText guard}"

def finishRecovery (previous : DesiredState) (marker : File) : Netd Unit := do
  match ← attempt (durableRemove marker) with
  | .ok () => reopenRestoredForwarding previous
  | .error error =>
      let guard ← attempt requireRecoveryGuard
      throw s!"complete interrupted apply recovery: {error}; guard: {guardText guard}"

/-! ## Recovery from the journal -/

/-- Only the guarded last step of a recovery is left. -/
def recoveryUnfinished : Prog Bool := do
  if !(← ask .loadRecovery) then return false
  if ← pathExists .applyOperation then return false
  return !(← pathExists .applyPrevious)

/-- Publish a generation of LAN services and wait for the Host. -/
def publishLanServices (missing : String) : Netd Unit := do
  match ← setLanServicesReady true with
  | some generation => waitLanServices generation
  | none => throw missing

/-- The state that may be live instead of the Accepted one. -/
def tentativeState (operation : ApplyOperation) : Netd (Option DesiredState) :=
  match operation.proposed with
  | some proposed => pure (some proposed)
  | none => Except.toOption <$> attempt acceptedDesired

def removeTentativeRoutes (tentative : Option DesiredState) (previous : DesiredState) : Netd Unit :=
  match tentative with
  | some tentative => removeStaleRoutes tentative previous
  | none => pure ()

def restorePredecessor (target : RecoveryTarget) : Netd Unit :=
  if target.restorePredecessor then do
    durableRestore .previousAccepted target.operation.previousAccepted
    restoreAttribution target.operation.previousAttribution
  else pure ()

def restoreTarget (target : RecoveryTarget) : Netd DesiredState := do
  let tentative ← tentativeState target.operation
  let _ ← setLanServicesReady false
  let previous ← apply target.operation.accepted
  removeTentativeRoutes tentative previous
  persist previous
  restorePredecessor target
  publishLanServices "LAN service generation was not published during recovery"
  return previous

def recoverInterruptedApply : Netd Nat := do
  if ← recoveryUnfinished then
    let previous ← acceptedDesired
    reopenRestoredForwarding previous
    return previous.revision
  requireRecoveryGuard
  let target ← readRecoveryTarget
  let previous ← restoreTarget target
  finishRecovery previous target.marker
  return previous.revision

end Fwos
