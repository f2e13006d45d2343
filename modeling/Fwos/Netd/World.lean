import Fwos.Complete
import Fwos.Effects.Program
import Fwos.Identity
import Fwos.Ruleset

/-!
# The world of netd

What netd keeps in files and in memory, and the operations it performs on it.
Everything else it talks to (the `ip`, `tc`, `wg` and `nft` commands, the clock,
the source of randomness, the Host's LAN services) is the environment, whose
part in each operation is a `Choice`.

* `Core`: the files and the memory that decide the Accepted network. `World`
  adds the files and the ruleset that no such decision depends on.
* `Op`, `Choice`, `exec`: the operations, with a failure before or after the
  effect wherever the source handles one.
* `Netd`: programs over these operations that may fail with an error text.

Files hold what they parse to (`Raw`): a text of the program's own making reads
back as the value that was written.
-/

namespace Fwos

open Effects

/-! ## Files -/

/-- The content of a file: the value it parses to, or bytes that do not parse. -/
inductive Raw (α : Type) : Type where
  | parsed (value : α)
  | garbled (bytes : List UInt8)
deriving DecidableEq, Repr

structure DraftReceipt where
  owner : Principal
  version : String
  acceptedRevision : Nat
deriving DecidableEq, Repr

structure ApplyAttribution where
  revision : Nat
  applying : Option Principal := none
  confirming : Option Principal := none
  draftVersion : Option String := none
  draftReceipts : List DraftReceipt := []
deriving DecidableEq, Repr

inductive ApplyPhase where
  | applying
  | pendingConfirmation
  | accepted
deriving DecidableEq, Repr

inductive ApplyIntent where
  | ordinary
  | recoveryRestore
deriving DecidableEq, Repr

/-- The journal of an apply. -/
structure ApplyOperation where
  phase : ApplyPhase := .applying
  accepted : DesiredState
  previousAccepted : Option (Raw DesiredState)
  previousAttribution : Option (Raw ApplyAttribution) := none
  proposed : Option DesiredState := none
  confirmationId : Option String := none
  applying : Option Principal := none
  draftVersion : Option String := none
  deadlineBootNs : Option Nat := none
  expiresAtUnixMs : Option Nat := none
deriving DecidableEq, Repr

inductive NetworkRestoration where
  | restored (revision : Nat)
  | unchanged (revision : Nat)
  | failed (error : String)
deriving DecidableEq, Repr

structure FirstBootOpt where
  nic : String
  mode : String
  cidr : Option String := none
deriving DecidableEq, Repr

inductive File where
  | desired
  | applyOperation
  | applyPrevious
  | applyAttribution
  | previousAccepted
  | preUpdateAccepted
  | bootstrapped
  | restorePreUpdate
  | networkRestoration
  | lanServicesReady
  | lanServicesResult
  | opt
  | bootstrapAttempt
  | identity
  | hostname
deriving DecidableEq, Repr

abbrev Content : File → Type
  | .desired | .applyPrevious | .previousAccepted | .preUpdateAccepted => Raw DesiredState
  | .applyOperation => Raw ApplyOperation
  | .applyAttribution => Raw ApplyAttribution
  | .bootstrapped | .restorePreUpdate => Unit
  | .networkRestoration => NetworkRestoration
  | .lanServicesReady | .lanServicesResult | .hostname => String
  | .opt => Raw FirstBootOpt
  -- The VLAN links of the attempt.
  | .bootstrapAttempt => Raw (List String)
  | .identity => Raw IdentityConfiguration

/-- What decides the Accepted network. -/
structure Core where
  desired : Option (Raw DesiredState) := none
  applyOperation : Option (Raw ApplyOperation) := none
  applyPrevious : Option (Raw DesiredState) := none
  applyAttribution : Option (Raw ApplyAttribution) := none
  previousAccepted : Option (Raw DesiredState) := none
  preUpdateAccepted : Option (Raw DesiredState) := none
  bootstrapped : Bool := false
  restorePreUpdate : Bool := false
  /-- `RECOVERY_REQUIRED`, which a new process finds clear. -/
  recoveryRequired : Bool := false
  /-- The live addresses of the interfaces. -/
  live : Live := fun _ => none
  /-- CLOCK_BOOTTIME in nanoseconds, and the boot it counts from. -/
  clock : Nat := 0
  boot : Nat := 0
  /-- The boot in which the journal was last written. -/
  journalBoot : Nat := 0

/-- A ruleset that nft was given, and the world it was given in. -/
structure Install where
  script : List Nft.Command
  tables : List Nft.Table
  core : Core

structure World extends Core where
  networkRestoration : Option NetworkRestoration := none
  lanServicesReady : Option String := none
  lanServicesResult : Option String := none
  opt : Option (Raw FirstBootOpt) := none
  bootstrapAttempt : Option (Raw (List String)) := none
  identity : Option (Raw IdentityConfiguration) := none
  hostname : Option String := none
  /-- The tables of nft, and how they came about. -/
  tables : List Nft.Table := []
  installs : List Install := []

def marker (present : Bool) : Option Unit := if present then some () else none

def World.get (w : World) : (file : File) → Option (Content file)
  | .desired => w.desired
  | .applyOperation => w.applyOperation
  | .applyPrevious => w.applyPrevious
  | .applyAttribution => w.applyAttribution
  | .previousAccepted => w.previousAccepted
  | .preUpdateAccepted => w.preUpdateAccepted
  | .bootstrapped => marker w.bootstrapped
  | .restorePreUpdate => marker w.restorePreUpdate
  | .networkRestoration => w.networkRestoration
  | .lanServicesReady => w.lanServicesReady
  | .lanServicesResult => w.lanServicesResult
  | .opt => w.opt
  | .bootstrapAttempt => w.bootstrapAttempt
  | .identity => w.identity
  | .hostname => w.hostname

def World.set (w : World) : (file : File) → Option (Content file) → World
  | .desired, content => { w with desired := content }
  | .applyOperation, some content =>
      { w with applyOperation := some content, journalBoot := w.boot }
  | .applyOperation, none => { w with applyOperation := none }
  | .applyPrevious, content => { w with applyPrevious := content }
  | .applyAttribution, content => { w with applyAttribution := content }
  | .previousAccepted, content => { w with previousAccepted := content }
  | .preUpdateAccepted, content => { w with preUpdateAccepted := content }
  | .bootstrapped, content => { w with bootstrapped := content.isSome }
  | .restorePreUpdate, content => { w with restorePreUpdate := content.isSome }
  | .networkRestoration, content => { w with networkRestoration := content }
  | .lanServicesReady, content => { w with lanServicesReady := content }
  | .lanServicesResult, content => { w with lanServicesResult := content }
  | .opt, content => { w with opt := content }
  | .bootstrapAttempt, content => { w with bootstrapAttempt := content }
  | .identity, content => { w with identity := content }
  | .hostname, content => { w with hostname := content }

/-! ## Operations -/

/-- The commands on the Forwarding netns (`ip`, `tc`, `wg`, sysctls, the
configuration of Kea and Unbound) of one part of the source. netd decides
nothing by their effect but by whether they fail. -/
inductive Task where
  /-- `link set up` and the addresses of the Traffic NICs, in `apply`. -/
  | links (state : DesiredState) (live : Live)
  | vlans (state : DesiredState)
  | wanIpv6 (state : DesiredState)
  | wg (state : DesiredState)
  | routes (state : DesiredState)
  | qdiscs (state : DesiredState)
  | lanServices (state : DesiredState) (publish : Bool)
  | staleRoutes (previous proposed : DesiredState)
  /-- `traffic_nic_names` knows the NIC. -/
  | requireTrafficNic (nic : String)
  /-- `teardown_opt` and `apply_opt` up to the ruleset. -/
  | teardownOpt (opt : FirstBootOpt)
  | selectOpt (opt : FirstBootOpt)
  /-- `recover_incomplete_bootstrap` up to the ruleset. -/
  | undoBootstrap (vlanLinks : List String)
  /-- `Ipv6Runtime::refresh` with the state it follows. -/
  | followIpv6 (state : DesiredState)

inductive ReadError where
  | notFound
  | failed (error : String)
deriving DecidableEq, Repr

/-- The text that Rust formats an `io::Error` with. -/
def ReadError.text : ReadError → String
  | .notFound => "No such file or directory (os error 2)"
  | .failed error => error

inductive Op where
  | exists (file : File)
  | read (file : File)
  /-- `durable::write` and `durable::remove`. -/
  | write (file : File) (content : Content file)
  | remove (file : File)
  | loadRecovery
  | storeRecovery (required : Bool)
  | nftApply (script : List Nft.Command)
  | nftCheck (script : List Nft.Command)
  /-- `capture_ipv4` of every interface. -/
  | captureIpv4
  /-- `iface_cidrs`. -/
  | ifaceCidrs (nic : String)
  | network (task : Task)
  /-- `RollbackFootprint::capture` and `remove_tentative_state`. -/
  | captureFootprint (current proposed : DesiredState)
  | removeTentativeState (current proposed : DesiredState)
  | bootTimeNs
  | unixMs
  | randomToken
  /-- `wait_lan_services`: what the Host reports for this generation in time. -/
  | waitLanServices (generation : String)
  /-- `sync_all` of the directory of the Bootstrap marker. -/
  | syncDirectory

abbrev Ans : Op → Type
  | .exists _ | .loadRecovery | .syncDirectory => Bool
  | .read file => Except ReadError (Content file)
  | .storeRecovery _ => Unit
  | .write _ _ | .remove _ | .nftApply _ | .nftCheck _ | .network _ | .captureFootprint _ _
  | .waitLanServices _ => Except String Unit
  | .captureIpv4 => Live
  | .ifaceCidrs _ => Except String (List String)
  | .removeTentativeState _ _ => List String
  | .bootTimeNs => Except String Nat
  | .unixMs => Nat
  | .randomToken => Except String String

/-- A failure that is reported although the effect may have happened. -/
inductive Fault where
  | before (error : String)
  | after (error : String)
deriving DecidableEq, Repr

def Fault.error : Fault → String
  | .before error | .after error => error

/-- The environment's part in one operation. -/
structure Choice where
  fault : Option Fault := none
  nftFault : Option Fault := none
  /-- Whether nft takes a script. -/
  nft : List Nft.Command → Bool := fun _ => true
  /-- The live addresses after commands on the Forwarding netns. -/
  live : Live := fun _ => none
  cidrs : List String := []
  failures : List String := []
  elapsed : Nat := 0
  unixMs : Nat := 0
  token : String := "token"

def Choice.result (choice : Choice) : Except String Unit :=
  match choice.fault with
  | none => .ok ()
  | some fault => .error fault.error

/-- An effect that may fail before it happens or be reported as failed after. -/
def effect (fault : Option Fault) (w changed : World) : Except String Unit × World :=
  match fault with
  | none => (.ok (), changed)
  | some (.before error) => (.error error, w)
  | some (.after error) => (.error error, changed)

def World.install (w : World) (script : List Nft.Command) : World :=
  { w with
    tables := Nft.runScript script w.tables
    installs := w.installs ++ [⟨script, w.tables, w.toCore⟩] }

def exec (op : Op) (choice : Choice) (w : World) : Ans op × World :=
  match op with
  | .exists file => ((w.get file).isSome, w)
  | .read file =>
      match w.get file, choice.fault with
      | none, _ => (.error .notFound, w)
      | some content, none => (.ok content, w)
      | some _, some fault => (.error (.failed fault.error), w)
  | .write file content => effect choice.fault w (w.set file (some content))
  | .remove file =>
      -- A file that is not there needs no effect and no synchronisation.
      if (w.get file).isSome then effect choice.fault w (w.set file none) else (.ok (), w)
  | .loadRecovery => (w.recoveryRequired, w)
  | .storeRecovery required => ((), { w with recoveryRequired := required })
  | .nftApply script =>
      if choice.nft script then effect choice.nftFault w (w.install script)
      else (.error "nft -f failed (exit status: 1)", w)
  | .nftCheck script =>
      if choice.nft script then (choice.result, w)
      else (.error "invalid complete Desired state firewall rules", w)
  | .captureIpv4 => (w.live, w)
  | .ifaceCidrs _ =>
      match choice.fault with
      | none => (.ok choice.cidrs, w)
      | some fault => (.error fault.error, w)
  | .network _ => (choice.result, { w with live := choice.live })
  | .captureFootprint _ _ => (choice.result, w)
  | .removeTentativeState _ _ => (choice.failures, { w with live := choice.live })
  | .bootTimeNs =>
      let now := w.clock + choice.elapsed
      match choice.fault with
      | none => (.ok now, { w with clock := now })
      | some fault => (.error fault.error, { w with clock := now })
  | .unixMs => (choice.unixMs, w)
  | .randomToken =>
      match choice.fault with
      | none => (.ok choice.token, w)
      | some fault => (.error fault.error, w)
  | .waitLanServices _ => (choice.result, w)
  | .syncDirectory => (choice.fault.isNone, w)

def semantics : Semantics Op Ans Choice World := ⟨exec⟩

/-! ## Programs -/

abbrev Prog (α : Type) := Program Op Ans α

/-- A program that returns `Result<α, String>`. -/
abbrev Netd (α : Type) := ExceptT String (Program Op Ans) α

def ask (op : Op) : Prog (Ans op) := perform op

def pathExists (file : File) : Prog Bool := ask (.exists file)

def fsRead (file : File) : Prog (Except ReadError (Content file)) := ask (.read file)

def durableWrite (file : File) (content : Content file) : Netd Unit :=
  ExceptT.mk (ask (.write file content))

def durableRemove (file : File) : Netd Unit := ExceptT.mk (ask (.remove file))

def nftApply (script : List Nft.Command) : Netd Unit := ExceptT.mk (ask (.nftApply script))

def nftCheck (script : List Nft.Command) : Netd Unit := ExceptT.mk (ask (.nftCheck script))

def network (task : Task) : Netd Unit := ExceptT.mk (ask (.network task))

def randomToken : Netd String := ExceptT.mk (ask .randomToken)

def bootTimeNs : Netd Nat := ExceptT.mk (ask .bootTimeNs)

def waitLanServices (generation : String) : Netd Unit :=
  ExceptT.mk (ask (.waitLanServices generation))

/-- A pure check inside a program. -/
def check {α : Type} (result : Except String α) : Netd α := ExceptT.mk (pure result)

/-- `fs::read(path).map_err(|error| format!("{context}: {error}"))`. -/
def readFile (file : File) (context : String) : Netd (Content file) :=
  ExceptT.mk do
    match ← fsRead file with
    | .ok content => return .ok content
    | .error error => return .error s!"{context}: {error.text}"

/-- The parsers of serde_json and toml. -/
def parse {α : Type} (raw : Raw α) (context : String) : Netd α :=
  check (match raw with
    | .parsed value => .ok value
    | .garbled _ => .error s!"{context}: invalid content")

/-- `fs::read` of a file that may be absent. -/
def readOptional (file : File) (context : String) : Netd (Option (Content file)) :=
  ExceptT.mk do
    match ← fsRead file with
    | .ok content => return .ok (some content)
    | .error .notFound => return .ok none
    | .error (.failed error) => return .error s!"{context}: {error}"

/-- `durable::write` or `durable::remove`, as the content is there or not. -/
def durableRestore (file : File) (content : Option (Content file)) : Netd Unit :=
  match content with
  | some content => durableWrite file content
  | none => durableRemove file

end Fwos
