import Fwos.Identity.Sessions
import Fwos.Netd.Processes
import Fwos.Rust.Hex
import Fwos.Ui.ReconcileEcho

/-!
# The handlers of the UI

The signed-in requests that edit the network (`ui.rs`), as programs over netd's
socket, the stored network and the owner's draft file. What a handler does with a
draft it does under the owner's lock; before it takes the lock it changes nothing.

* `Appliance`: netd with what it holds, the private drafts, and the requests
  whose sender no longer waits for netd, which may still take them.
* `Edit`: the edits of one section of the network, and `editedDesired`, which
  applies one to the network that netd answers.
* `Locked`: what is done under the lock, for each handler.
* `Entering`: what a handler does before it has the lock.
-/

namespace Fwos

open Effects Rust

/-! ## The appliance -/

structure Appliance where
  process : Process
  held : ∃ account, process.Holds account
  /-- The private drafts, by their path. -/
  drafts : String → Option (Raw Draft) := fun _ => none
  /-- Requests to netd whose sender no longer waits. -/
  sent : List Request := []
  /-- What the ledger of netd has been. No code reads it. -/
  ledgers : List Ledger := []

namespace Appliance

variable [Base64] {s : Appliance} {w : World} {cmd : Request} {choices unused : List Choice}

/-- A request that netd answers is a turn. -/
theorem turn_step {answer : Answer} (running : s.process.running = true)
    (h : (handleCmd cmd).run semantics choices s.process.world = .done answer w unused) :
    Process.Step s.process (.turn (.request cmd)) ⟨w, true⟩ := by
  rw [show s.process = ⟨s.process.world, true⟩ from by rw [← running]]
  exact .turn ((run_bind h).trans rfl)

theorem crash_step (running : s.process.running = true)
    (h : (handleCmd cmd).run semantics choices s.process.world = .crashed w) :
    Process.Step s.process (.crash (.request cmd)) ⟨w, false⟩ := by
  rw [show s.process = ⟨s.process.world, true⟩ from by rw [← running]]
  exact .crash (run_bind_crashed h)

/-- What a process of netd holds it holds after every step. -/
theorem held_step {process process' : Process} {happening : Happening}
    (held : ∃ account, process.Holds account) (step : Process.Step process happening process') :
    ∃ account, process'.Holds account := by
  obtain ⟨account, holds⟩ := held
  obtain ⟨account', _, holds'⟩ := process_simulates _ _ _ _ holds step
  exact ⟨account', holds'⟩

/-- The appliance after a step of netd. -/
def after (s : Appliance) {happening : Happening} {process : Process}
    (step : Process.Step s.process happening process) : Appliance :=
  { s with
    process := process, held := held_step s.held step
    ledgers := s.ledgers ++ process.world.ledger.toList }

/-- netd takes a request at once, if it runs. -/
def serve (s : Appliance) (cmd : Request) (choices : List Choice) :
    Except String Answer × Appliance :=
  match running : s.process.running with
  | false => (.error "connect /var/lib/fwos/netd.sock: Connection refused (os error 111)", s)
  | true =>
      match outcome : (handleCmd cmd).run semantics choices s.process.world with
      | .done answer _ _ => (.ok answer, s.after (turn_step running outcome))
      | .crashed _ =>
          (.error ("parse /var/lib/fwos/netd.sock reply: " ++
              "EOF while parsing a value at line 1 column 0"),
            s.after (crash_step running outcome))

def setDraft (s : Appliance) (path : String) (draft : Option (Raw Draft)) : Appliance :=
  { s with drafts := Function.update s.drafts path draft }

end Appliance

/-- `Path::join` with a relative path. -/
def joinPath (directory component : String) : String :=
  if directory.toList.getLast? = some '/' then directory ++ component
  else directory ++ "/" ++ component

def hexComponent (value : String) : String := hexText value.toUTF8.toList

def draftPath (principal : Principal) : String :=
  joinPath (joinPath "/var/lib/fwos/drafts" (hexComponent principal.source))
    (hexComponent principal.subject ++ ".json")

namespace HandlersLemmas

theorem hexComponent_injective : Function.Injective hexComponent := by
  intro a b h
  exact String.toByteArray_inj.mp (byteList_injective (hexText_injective h))

theorem separator_notMem {value rest : String} (h : '/' ∉ rest.toList) : '/' ∉ (hexComponent value ++ rest).toList := by
  rw [String.toList_append, List.mem_append]
  rintro (mem | mem)
  · cases hexText_digits mem
  · exact h mem

theorem separator_notMem_hex {value : String} : '/' ∉ (hexComponent value).toList :=
  fun mem => nomatch hexText_digits mem

/-- The directory of a source, and the separator after it unless it has no name. -/
theorem draftPath_toList (owner : Principal) : (draftPath owner).toList =
    "/var/lib/fwos/drafts/".toList ++ ((hexComponent owner.source).toList ++
      ((if (hexComponent owner.source).toList = [] then [] else ['/']) ++
        (hexComponent owner.subject ++ ".json").toList)) := by
  have directory : joinPath "/var/lib/fwos/drafts" (hexComponent owner.source) =
      "/var/lib/fwos/drafts/" ++ hexComponent owner.source := rfl
  have last : ("/var/lib/fwos/drafts/" ++ hexComponent owner.source).toList.getLast? = some '/' ↔
      (hexComponent owner.source).toList = [] := by
    rw [String.toList_append, List.getLast?_append]
    refine ⟨fun same => ?_, fun none => by rw [none]; rfl⟩
    by_contra some
    obtain ⟨c, found⟩ := Option.isSome_iff_exists.mp (List.getLast?_isSome.mpr some)
    rw [found, Option.some_or, Option.some.injEq] at same
    exact separator_notMem_hex (same ▸ List.mem_of_getLast? found)
  rw [draftPath, directory, joinPath]
  by_cases none : (hexComponent owner.source).toList = []
  · rw [if_pos (last.mpr none), if_pos none]
    simp only [String.toList_append, List.append_assoc, List.nil_append]
  · rw [if_neg (mt last.mp none), if_neg none]
    simp only [String.toList_append, List.append_assoc]
    rfl

/-- A separator that is in no part, and not after an empty one, tells the parts apart. -/
theorem separated_inj {a b c d : List Char} (first : '/' ∉ a) (left : '/' ∉ c) (right : '/' ∉ d)
    (same : a ++ ((if a = [] then [] else ['/']) ++ c) =
      b ++ ((if b = [] then [] else ['/']) ++ d)) : a = b ∧ c = d := by
  by_cases empty : a = []
  · subst empty
    by_cases none : b = []
    · subst none
      exact ⟨rfl, same⟩
    · rw [if_neg none] at same
      have there : '/' ∈ c := by
        rw [show c = b ++ (['/'] ++ d) from same]
        exact List.mem_append_right _ List.mem_cons_self
      exact absurd there left
  · rw [if_neg empty] at same
    by_cases none : b = []
    · subst none
      have there : '/' ∈ d := by
        rw [show d = a ++ (['/'] ++ c) from same.symm]
        exact List.mem_append_right _ List.mem_cons_self
      exact absurd there right
    · rw [if_neg none] at same
      obtain ⟨parts, -, rest⟩ := (List.append_cons_inj_of_notMem first left).mp same
      exact ⟨parts, rest⟩

end HandlersLemmas

open HandlersLemmas

/-- Two owners have one draft file only if they are the same. -/
theorem draftPath_owner {left right : Principal} (h : draftPath left = draftPath right) :
    sameOwner left right = true := by
  have file (owner : Principal) : '/' ∉ (hexComponent owner.subject ++ ".json").toList :=
    separator_notMem (by decide)
  have same := congrArg String.toList h
  rw [draftPath_toList, draftPath_toList, List.append_cancel_left_eq] at same
  rw [sameOwner, Bool.and_eq_true, beq_iff_eq, beq_iff_eq]
  have parts := separated_inj separator_notMem_hex (file left) (file right) same
  refine ⟨hexComponent_injective (String.toList_injective parts.1), ?_⟩
  rw [String.toList_append, String.toList_append, List.append_cancel_right_eq] at parts
  exact hexComponent_injective (String.toList_injective parts.2)
namespace Handlers

/-! ## The calls -/

inductive Op where
  /-- `Path::new(BOOTSTRAP).exists()`. -/
  | bootstrapExists
  /-- The stored network, which may be a tentative one. -/
  | readDesired
  | readDraft (path : String)
  /-- `durable::remove`. -/
  | removeDraft (path : String)
  | writeDraft (path : String) (draft : Draft)
  | netdCmd (cmd : Request)
  | randomToken

abbrev Ans : Op → Type
  | .bootstrapExists => Bool
  | .readDesired => Except ReadError (Raw DesiredState)
  | .readDraft _ => Except ReadError (Raw Draft)
  | .removeDraft _ | .writeDraft .. => Except String Unit
  | .netdCmd _ => Except String Answer
  | .randomToken => Except String String

/-- What becomes of a request to netd. -/
inductive Served where
  /-- netd takes it, and the answer may be lost. -/
  | now (choices : List Fwos.Choice) (lost : Option String)
  /-- The sender stops waiting before netd takes it. -/
  | later (error : String)
  | never (error : String)

structure Choice where
  fault : Option Fault := none
  served : Served := .now [] none
  token : String := "token"

def Choice.result (choice : Choice) : Except String Unit :=
  match choice.fault with
  | none => .ok ()
  | some fault => .error fault.error

def Choice.after (choice : Choice) (s changed : Appliance) : Appliance :=
  match choice.fault with
  | some (.before _) => s
  | none | some (.after _) => changed

/-- A file as it is read. -/
def readRaw {α : Type} (file : Option α) (fault : Option Fault) : Except ReadError α :=
  match file, fault with
  | none, _ => .error .notFound
  | some content, none => .ok content
  | some _, some fault => .error (.failed fault.error)

def orLost (answer : Except String Answer) (lost : Option String) : Except String Answer :=
  match lost with
  | none => answer
  | some error => .error error

def exec [Base64] (op : Op) (choice : Choice) (s : Appliance) : Ans op × Appliance :=
  match op with
  | .bootstrapExists => (s.process.world.bootstrapped, s)
  | .readDesired => (readRaw s.process.world.desired choice.fault, s)
  | .readDraft path => (readRaw (s.drafts path) choice.fault, s)
  | .removeDraft path =>
      -- There is nothing to do where there is no file.
      if (s.drafts path).isSome then (choice.result, choice.after s (s.setDraft path none))
      else (.ok (), s)
  | .writeDraft path draft =>
      (choice.result, choice.after s (s.setDraft path (some (.parsed draft))))
  | .netdCmd cmd =>
      match choice.served with
      -- An answer is lost only once netd has taken the request.
      | .now choices lost => (orLost (s.serve cmd choices).1 lost, (s.serve cmd choices).2)
      | .later error => (.error error, { s with sent := s.sent ++ [cmd] })
      | .never error => (.error error, s)
  | .randomToken =>
      (match choice.fault with
        | none => .ok choice.token
        | some fault => .error fault.error, s)

def semantics [Base64] : Semantics Op Ans Choice Appliance := ⟨exec⟩

abbrev Prog (α : Type) := Program Op Ans α

/-- A program that returns `Result<α, String>`. -/
abbrev Erring (α : Type) := ExceptT String (Program Op Ans) α

def ask (op : Op) : Prog (Ans op) := perform op

/-! ## Responses -/

structure RedactedWg where
  name : String
  listenPort : Option Nat
  addresses : List String
  privateKeySet : Bool
deriving DecidableEq, Repr

def redactedWireguard (tunnels : List Wg) : List RedactedWg :=
  tunnels.map fun tunnel => {
    name := tunnel.name, listenPort := tunnel.listenPort, addresses := tunnel.addresses
    privateKeySet := !tunnel.privateKey.isEmpty }

structure DraftStatus where
  baseRevision : Nat
  acceptedRevision : Nat
  stale : Bool
  version : String
  sections : List String
  routes : List StaticRoute
  interfaces : List Iface
  uiExposure : List String
  lanPrefix : Option String
  dhcpPool : Option String
  wanPd : Option String
  firewall : List String
  wireguard : List RedactedWg
  qdiscs : List Qdisc
  ipv6 : List WanIpv6
  hostname : Option String
  applyConfirmation : Bool
deriving DecidableEq, Repr

/-- The JSON object of a response. -/
inductive Body where
  | error (error : String)
  | rejected (error : String) (revision : Option Nat) (stale : Bool)
  | indeterminate (error : String)
  /-- netd's answer, passed on. -/
  | answer (answer : Answer)
  | draft (status : DraftStatus)
  | noDraft (acceptedRevision : Nat)
  | pending (baseRevision : Nat) (version : String) (encrypted : Option Bool)
  /-- Accepted, but the draft could not be removed. -/
  | cleanupFailed (answer : Answer) (warning : String)

structure HttpResponse where
  status : Nat
  body : Body

def errorResponse (status : Nat) (error : String) : HttpResponse := ⟨status, .error error⟩

def conflict (error : String) (revision : Option Nat) : HttpResponse :=
  ⟨409, .rejected error revision false⟩

/-- A handler, which may end with a response at any point. -/
abbrev Handling (α : Type) := ExceptT HttpResponse (Program Op Ans) α

def Handling.response (handling : Handling HttpResponse) : Prog HttpResponse := do
  match ← handling.run with
  | .ok response => return response
  | .error response => return response

/-- Bad Gateway with the error. -/
def orBadGateway {α : Type} (program : Erring α) : Handling α :=
  ExceptT.mk do
    match ← program.run with
    | .ok value => return .ok value
    | .error error => return .error (errorResponse 502 error)

/-- A pure part of a handler. -/
def checked {α : Type} (result : Except HttpResponse α) : Handling α := ExceptT.mk (pure result)

def refused {α : Type} (result : Except Refusal α) : Except HttpResponse α :=
  result.mapError fun refusal => errorResponse refusal.1 refusal.2

/-! ## Reading -/

def completeDesired : Erring DesiredState :=
  ExceptT.mk do
    match ← ask (.netdCmd .getDesired) with
    | .ok (.desired result) => return result
    | .ok _ => return .error "decode Desired state: invalid type"
    | .error error => return .error error

/-- netd is the only writer and applies from the same atomic Accepted file. A draft may begin
from the last durable Accepted snapshot even while netd is busy. -/
def acceptedSnapshotForDrafting : Prog (Except String DesiredState) := do
  match ← ask .readDesired with
  | .ok (.parsed state) => return .ok (numbered state)
  | .ok (.garbled _) => return .error "Accepted Desired state is invalid"
  | .error _ => return .error "Accepted Desired state is unavailable"

def readDraft (path : String) : Erring (Option Draft) :=
  ExceptT.mk do
    match ← ask (.readDraft path) with
    | .ok (.parsed draft) => return .ok (some draft)
    | .ok (.garbled _) => return .error "saved Draft Desired state is invalid"
    | .error .notFound => return .ok none
    | .error (.failed _) => return .error "saved Draft Desired state is unavailable"

def removeDraft (path : String) : Erring Unit := ExceptT.mk (ask (.removeDraft path))

/-- netd has the receipt of exactly this draft. -/
def wasAccepted (owner : Principal) (version : String) (revision : Nat) : Prog Bool := do
  match ← ask (.netdCmd (.wasDraftAccepted (some revision) (some version) (some owner))) with
  | .ok (.accepted (.ok accepted)) => return accepted
  | _ => return false

/-- Whether a draft is one that was accepted. A newer stored revision may be tentative: what counts
is what netd answers. -/
def confirmedDraft (owner : Principal) (draft : Draft) (snapshot : Option DesiredState) :
    Prog Bool :=
  match snapshot with
  | none => return false
  | some snapshot =>
      if snapshot.revision = draft.baseRevision then return false
      else do
        match ← completeDesired.run with
        | .error _ => return false
        | .ok stable =>
            if stable.revision ≠ snapshot.revision then return false
            else wasAccepted owner draft.version stable.revision

def readDraftReconciled (owner : Principal) (snapshot : Option DesiredState) :
    Erring (Option Draft) := do
  match ← readDraft (draftPath owner) with
  | none => return none
  | some draft =>
      if ← confirmedDraft owner draft snapshot then
        removeDraft (draftPath owner)
        return none
      else return some draft

/-! ## Edits of one section -/

/-- The edits that are applied without a draft. -/
inductive Edit where
  | routes (routes : List StaticRoute)
  | addRoute (route : StaticRoute)
  | changeRoute (original route : StaticRoute)
  | removeRoute (original : StaticRoute)
  | interfaces (interfaces : List Iface) (uiExposure : List String)
  | lanServices (services : LanServices)
  | firewall (rules : List String)
  | wireguard (tunnels : List WgInput)
  | qdiscs (qdiscs : List Qdisc)
  | ipv6 (settings : Ipv6Settings)
  | applyConfirmation (enabled : Bool)

/-- The index of the only route that equals this one. -/
def selectedRoute (desired : DesiredState) (original : StaticRoute) : Except HttpResponse Nat :=
  match desired.routes.zipIdx.filterMap fun (existing, index) =>
      if existing = original then some index else none with
  | [index] => .ok index
  | _ => .error (conflict "Selected Accepted route changed; reload before applying"
      (some desired.revision))

/-- A bad value is rejected. -/
def orBadRequest {α : Type} (result : Except String α) : Except HttpResponse α :=
  result.mapError fun error => ⟨400, .rejected error none false⟩

def Edit.apply (desired : DesiredState) : Edit → Except HttpResponse DesiredState
  | .routes given => .ok { desired with routes := given }
  | .addRoute route => .ok { desired with routes := desired.routes ++ [route] }
  | .changeRoute original route => do
      let index ← selectedRoute desired original
      return { desired with routes := desired.routes.set index route }
  | .removeRoute original => do
      let index ← selectedRoute desired original
      return { desired with routes := desired.routes.eraseIdx index }
  | .interfaces given exposure => .ok (storeInterfaceSection desired given exposure)
  | .lanServices services => .ok (storeLanServices desired services)
  | .firewall rules => .ok { desired with nftExtra := rules }
  | .wireguard tunnels => orBadRequest (storeWireguard desired tunnels desired.wireguard)
  | .qdiscs updates => orBadRequest (storeQdiscs desired updates)
  | .ipv6 settings => orBadRequest (storeIpv6 desired settings)
  | .applyConfirmation enabled => .ok { desired with applyConfirmation := enabled }

/-- No private draft is in the way of an edit. -/
def withoutDraft (owner : Principal) : Handling Unit := do
  let snapshot ← ExceptT.lift acceptedSnapshotForDrafting
  match ← orBadGateway (readDraftReconciled owner snapshot.toOption) with
  | some _ => throw (conflict
      "Private pending draft exists; review and apply or reconcile it first" none)
  | none => return ()

def editedDesired (owner : Principal) (baseRevision : Nat) (edit : Edit) :
    Handling DesiredState := do
  withoutDraft owner
  let desired ← orBadGateway completeDesired
  if desired.revision ≠ baseRevision then
    throw (conflict "Accepted Desired state changed; reload before applying"
      (some desired.revision))
  checked (edit.apply desired)

def replyOf : Answer → Reply
  | .reply reply => reply
  | _ => {}

def submitStatus (reply : Reply) : Nat :=
  if reply.ok then 200
  else if reply.outcome = some .rejected then 400
  else if reply.outcome = some .busy then 409
  else 502

def configureStatus (reply : Reply) : Nat :=
  if reply.ok then 200
  else if reply.outcome = some .rejected ∨ reply.outcome = some .busy then 409
  else 502

/-- What is asked of netd, and how its answer is passed on. -/
def submit (cmd : Request) (status : Reply → Nat) (unavailable : String → String) :
    Prog HttpResponse := do
  match ← ask (.netdCmd cmd) with
  | .error error => return ⟨502, .indeterminate (unavailable error)⟩
  | .ok answer => return ⟨status (replyOf answer), .answer answer⟩

def submitDesiredApply (desired : DesiredState) (baseRevision : Nat) (actor : Principal) :
    Prog HttpResponse :=
  submit (.applyDesired (.ok desired) (some baseRevision) (some actor) none) submitStatus
    fun error => s!"netd apply outcome unavailable: {error}"

/-! ## Under the lock -/

structure DraftReference where
  baseRevision : Nat
  version : String
deriving DecidableEq, Repr

/-- What a handler does once it holds the owner's lock. -/
inductive Locked where
  | status
  | save (change : DraftChange)
  | apply (reference : DraftReference)
  | reconcile (request : DraftReconciliation)
  /-- A decoded network that netd has validated. -/
  | importDesired (imported : DesiredState) (baseRevision : Nat) (encrypted : Bool)
  | edit (baseRevision : Nat) (edit : Edit)
  | configure (baseRevision : Nat) (enabled : Bool)

def DraftStatus.of (draft : Draft) (acceptedRevision : Nat) : DraftStatus := {
  baseRevision := draft.baseRevision, acceptedRevision := acceptedRevision
  stale := draft.baseRevision != acceptedRevision, version := draft.version
  sections := effectiveSections draft, routes := draft.desired.routes
  interfaces := draft.desired.interfaces, uiExposure := draft.desired.uiExposure
  lanPrefix := draft.desired.lanPrefix, dhcpPool := draft.desired.dhcpPool
  wanPd := draft.desired.wanPd, firewall := draft.desired.nftExtra
  wireguard := redactedWireguard draft.desired.wireguard, qdiscs := draft.desired.qdiscs
  ipv6 := wanIpv6Settings draft.desired, hostname := draft.desired.hostname
  applyConfirmation := draft.desired.applyConfirmation }

def draftStatus (owner : Principal) : Handling HttpResponse := do
  let accepted ← orBadGateway (ExceptT.mk acceptedSnapshotForDrafting)
  match ← orBadGateway (readDraftReconciled owner (some accepted)) with
  | some draft => return ⟨200, .draft (.of draft accepted.revision)⟩
  | none => return ⟨200, .noDraft accepted.revision⟩

/-- Where a draft was made, it is written. -/
def storeDraft (owner : Principal) (made : Except HttpResponse Draft) (encrypted : Option Bool) :
    Handling HttpResponse := do
  let draft ← checked made
  orBadGateway (ExceptT.mk (ask (.writeDraft (draftPath owner) draft)))
  return ⟨200, .pending draft.baseRevision draft.version encrypted⟩

/-- A draft that is made from the one that is there. The version is drawn first: the checks do not
depend on it. -/
def redraft (owner : Principal)
    (make : Option Draft → Except String DesiredState → Except String String →
      Except Refusal Draft) : Handling HttpResponse := do
  let snapshot ← ExceptT.lift acceptedSnapshotForDrafting
  let existing ← orBadGateway (readDraftReconciled owner snapshot.toOption)
  let token ← ExceptT.lift (ask .randomToken)
  storeDraft owner (refused (make existing snapshot token)) none

def saveDraft (owner : Principal) (change : DraftChange) : Handling HttpResponse :=
  redraft owner (savedDraft change)

def reconcileDraft (owner : Principal) (request : DraftReconciliation) : Handling HttpResponse :=
  redraft owner (reconciledDraft request)

/-- The draft that a request refers to, where the network it began from is Accepted. -/
def referredDraft (owner : Principal) (reference : DraftReference) : Handling Draft := do
  let snapshot ← ExceptT.lift acceptedSnapshotForDrafting
  match ← orBadGateway (readDraftReconciled owner snapshot.toOption) with
  | none => throw (errorResponse 404 "no private pending draft")
  | some draft =>
      if draft.baseRevision ≠ reference.baseRevision ∨ draft.version ≠ reference.version then
        throw (conflict "Draft changed; review it again" none)
      let accepted ← orBadGateway completeDesired
      if accepted.revision ≠ draft.baseRevision then
        throw ⟨409, .rejected
          "Accepted Desired state changed; private draft retained for reconciliation"
          (some accepted.revision) true⟩
      return draft

def applyStatus (draft : Draft) (reply : Reply) : Nat :=
  if reply.revision.any (· ≠ draft.baseRevision) then 409 else submitStatus reply

/-- An accepted draft is removed. -/
def finishDraft (owner : Principal) (answer : Answer) : Prog HttpResponse := do
  match ← ask (.removeDraft (draftPath owner)) with
  | .ok () => return ⟨200, .answer answer⟩
  | .error error =>
      return ⟨200, .cleanupFailed answer
        s!"Accepted, but private draft cleanup failed: {error}"⟩

def applyDraft (owner : Principal) (reference : DraftReference) : Handling HttpResponse := do
  let draft ← referredDraft owner reference
  match ← ExceptT.lift (ask (.netdCmd (.applyDesired (.ok draft.desired) (some draft.baseRevision)
      (some owner) (some draft.version)))) with
  | .error error =>
      return ⟨502, .indeterminate s!"netd apply outcome unavailable; draft retained: {error}"⟩
  | .ok answer =>
      if !(replyOf answer).ok then return ⟨applyStatus draft (replyOf answer), .answer answer⟩
      if (replyOf answer).outcome = some .pendingConfirmation then return ⟨200, .answer answer⟩
      ExceptT.lift (finishDraft owner answer)

/-- The draft of a validated import, where there is none yet. -/
def importChecks (imported : DesiredState) (baseRevision : Nat) (existing : Option Draft)
    (accepted : DesiredState) (token : Except String String) : Except HttpResponse Draft := do
  ensure existing.isNone (conflict
    "Private pending draft exists; review and apply or reconcile it before importing" none)
  ensure (baseRevision == accepted.revision)
    (conflict "Accepted Desired state changed; reload before importing" (some accepted.revision))
  let version ← token.mapError (errorResponse 502)
  return importedDraft imported accepted.revision version

def importDraft (owner : Principal) (imported : DesiredState) (baseRevision : Nat)
    (encrypted : Bool) : Handling HttpResponse := do
  let accepted ← orBadGateway (ExceptT.mk acceptedSnapshotForDrafting)
  let existing ← orBadGateway (readDraftReconciled owner (some accepted))
  let token ← ExceptT.lift (ask .randomToken)
  storeDraft owner (importChecks imported baseRevision existing accepted token) (some encrypted)

def applyEdit (owner : Principal) (baseRevision : Nat) (edit : Edit) : Handling HttpResponse := do
  let desired ← editedDesired owner baseRevision edit
  ExceptT.lift (submitDesiredApply desired baseRevision owner)

def applySetting (owner : Principal) (baseRevision : Nat) (enabled : Bool) :
    Handling HttpResponse := do
  let desired ← editedDesired owner baseRevision (.applyConfirmation enabled)
  ExceptT.lift (submit (.applyDesired (.ok desired) (some baseRevision) (some owner) none)
    configureStatus fun error => error)

def Locked.handling (owner : Principal) : Locked → Handling HttpResponse
  | .status => draftStatus owner
  | .save change => saveDraft owner change
  | .apply reference => applyDraft owner reference
  | .reconcile request => reconcileDraft owner request
  | .importDesired imported baseRevision encrypted =>
      importDraft owner imported baseRevision encrypted
  | .edit baseRevision change => applyEdit owner baseRevision change
  | .configure baseRevision enabled => applySetting owner baseRevision enabled

/-- A request that has the lock of this owner. -/
structure Call where
  owner : Principal
  locked : Locked

/-- A handler that takes the lock once it has read its request. -/
def underLock (entering : Handling Call) : Handling HttpResponse := do
  let call ← entering
  call.locked.handling call.owner

def Call.program (call : Call) : Prog HttpResponse := (call.locked.handling call.owner).response

/-! ## The handlers -/

/-- A change of a section, of the network with this revision. -/
structure Based (α : Type) where
  baseRevision : Nat
  value : α

def signedIn (authentication : Option Authentication) : Handling Principal :=
  match authentication with
  | none => throw (errorResponse 401 "sign in required")
  | some authentication => return authentication.principal

def operatorSession (authentication : Option Authentication) : Handling Principal := do
  let owner ← signedIn authentication
  if !(← ExceptT.lift (ask .bootstrapExists)) then
    throw (errorResponse 409 "complete Bootstrap first")
  return owner

/-- A change that is applied without a draft, until it has the lock. -/
def sectionChange {α : Type} (what : String) (edit : α → Edit)
    (authentication : Option Authentication) (change : Except String (Based α)) :
    Handling Call := do
  let owner ← operatorSession authentication
  let change ← checked (orBadRequest (change.mapError fun error => s!"invalid {what}: {error}"))
  return ⟨owner, .edit change.baseRevision (edit change.value)⟩

def sectionHandler {α : Type} (what : String) (edit : α → Edit)
    (authentication : Option Authentication) (change : Except String (Based α)) :
    Handling HttpResponse :=
  underLock (sectionChange what edit authentication change)

def applyRoutes := sectionHandler "route change" Edit.routes

inductive StandaloneRouteChange where
  | add (route : StaticRoute)
  | change (original route : StaticRoute)
  | remove (original : StaticRoute)

def StandaloneRouteChange.edit : StandaloneRouteChange → Edit
  | .add route => .addRoute route
  | .change original route => .changeRoute original route
  | .remove original => .removeRoute original

def saveAndApplyRoute := sectionHandler "standalone route change" StandaloneRouteChange.edit

def applyInterfaces := sectionHandler "interface change" fun change : List Iface × List String =>
  Edit.interfaces change.1 change.2

def applyLanServices := sectionHandler "LAN service change" Edit.lanServices

def applyFirewall := sectionHandler "firewall policy" Edit.firewall

def applyWireguard := sectionHandler "WireGuard change" Edit.wireguard

def applyQdiscs := sectionHandler "qdisc change" Edit.qdiscs

def applyIpv6 := sectionHandler "IPv6 change" Edit.ipv6

/-- A request about the owner's draft, until it has the lock; a body that does not decode is
none. -/
def draftRequest {α : Type} (invalid : String) (locked : α → Locked)
    (authentication : Option Authentication) (body : Option α) : Handling Call := do
  let owner ← operatorSession authentication
  let body ← checked (okOr body (errorResponse 400 invalid))
  return ⟨owner, locked body⟩

def draftHandler {α : Type} (invalid : String) (locked : α → Locked)
    (authentication : Option Authentication) (body : Option α) : Handling HttpResponse :=
  underLock (draftRequest invalid locked authentication body)

def saveDraftRequest := draftHandler "invalid draft change" Locked.save

def applyDraftRequest := draftHandler "invalid draft reference" Locked.apply

def reconcileDraftRequest := draftHandler "invalid reconciliation" Locked.reconcile

def statusRequest (authentication : Option Authentication) : Handling Call := do
  let owner ← operatorSession authentication
  return ⟨owner, .status⟩

def draftStatusRequest (authentication : Option Authentication) : Handling HttpResponse :=
  underLock (statusRequest authentication)

/-- `configure_apply_confirmation` does not look for Bootstrap. -/
def settingChange (authentication : Option Authentication) (setting : Option (Based Bool)) :
    Handling Call := do
  let owner ← signedIn authentication
  let setting ← checked (okOr setting (errorResponse 400 "invalid Apply confirmation setting"))
  return ⟨owner, .configure setting.baseRevision setting.value⟩

def configureApplyConfirmation (authentication : Option Authentication)
    (setting : Option (Based Bool)) : Handling HttpResponse :=
  underLock (settingChange authentication setting)

structure Confirmation where
  revision : Nat
  confirmationId : String

def confirmStatus (reply : Reply) : Nat :=
  if reply.ok then 200 else if reply.outcome = some .rejected then 409 else 502

/-- `confirm_apply`, which needs no lock. -/
def confirmApply (authentication : Option Authentication) (confirmation : Option Confirmation) :
    Handling HttpResponse := do
  let confirming ← signedIn authentication
  let confirmation ← checked (okOr confirmation
    (errorResponse 400 "pending revision and confirmation ID are required"))
  ExceptT.lift (submit (.confirmApply (some confirmation.revision)
    (some confirmation.confirmationId) (some confirming)) confirmStatus fun error => error)

structure ImportRequest where
  baseRevision : Nat
  /-- `decode_network_import`. -/
  decoded : Except String DesiredState
  encrypted : Bool

/-- The same checks netd runs before an apply. -/
def validated (imported : DesiredState) : Handling Unit := do
  match ← ExceptT.lift (ask (.netdCmd (.validateDesired (.ok imported)))) with
  | .error error => throw (errorResponse 502 error)
  | .ok (.result (.ok ())) => return ()
  | .ok (.result (.error error)) => throw ⟨400, .rejected error none false⟩
  | .ok _ => throw ⟨400, .rejected "imported Desired state is invalid" none false⟩

def importRequest (authentication : Option Authentication) (request : Option ImportRequest) :
    Handling Call := do
  let owner ← operatorSession authentication
  let request ← checked (okOr request (errorResponse 400 "invalid network import"))
  let imported ← checked (orBadRequest request.decoded)
  validated imported
  return ⟨owner, .importDesired imported request.baseRevision request.encrypted⟩

def importDesired (authentication : Option Authentication) (request : Option ImportRequest) :
    Handling HttpResponse :=
  underLock (importRequest authentication request)

/-- The part of a handler that reads its request, before it has the lock. -/
inductive Entering : Handling Call → Prop where
  | change {α : Type} {what : String} {edit : α → Edit} {authentication : Option Authentication}
      {change : Except String (Based α)} : Entering (sectionChange what edit authentication change)
  | draft {α : Type} {invalid : String} {locked : α → Locked}
      {authentication : Option Authentication} {body : Option α} :
      Entering (draftRequest invalid locked authentication body)
  | status {authentication : Option Authentication} : Entering (statusRequest authentication)
  | setting {authentication : Option Authentication} {setting : Option (Based Bool)} :
      Entering (settingChange authentication setting)
  | imported {authentication : Option Authentication} {request : Option ImportRequest} :
      Entering (importRequest authentication request)

/-- What a handler calls that does not hold a lock. -/
inductive Unlocked (op : Op) : Prop where
  | entering {entering : Handling Call} (h : Entering entering) (calls : entering.run.Calls op)
  | confirming {authentication : Option Authentication} {confirmation : Option Confirmation}
      (calls : (confirmApply authentication confirmation).run.Calls op)

end Handlers

end Fwos
