import Fwos.Complete

/-!
# Private drafts

An administrator edits the network in a private draft (`ui.rs`): the draft holds
the whole network it proposes, the revision of the Accepted network it began
from, and the names of the sections it proposes. `save_draft` stores the sections
of one request in it. When another network was accepted meanwhile,
`reconcile_draft` starts again from that network and stores the reviewed values
of the recorded sections only.

The draft's file is an `Option Draft`. What a request meets outside the draft
(the stored Accepted network, the answers of netd, the file system) is a
`DraftEnv`.
-/

namespace Fwos

open Rust

/-! ## Requests -/

structure LanServices where
  lanPrefix : String := ""
  dhcpPool : String := ""
  wanPd : String := ""
deriving DecidableEq, Repr

structure WgInput where
  name : String
  privateKey : String := ""
  listenPort : Option Nat := none
  addresses : List String := []
  routeTo : String := ""
  routeVia : String := ""
deriving DecidableEq, Repr

structure WanIpv6 where
  name : String
  /-- "static", "slaac", or "dhcpv6". -/
  ipv6 : String
  requestPd : Bool := false
deriving DecidableEq, Repr

structure Ipv6Settings where
  wans : List WanIpv6
deriving DecidableEq, Repr

/-- The optional sections of a request. -/
structure SectionValues where
  routes : Option (List StaticRoute) := none
  interfaces : Option (List Iface) := none
  uiExposure : Option (List String) := none
  services : Option LanServices := none
  firewall : Option (List String) := none
  wireguard : Option (List WgInput) := none
  qdiscs : Option (List Qdisc) := none
  ipv6 : Option Ipv6Settings := none
deriving DecidableEq, Repr

structure DraftChange extends SectionValues where
  baseRevision : Nat
  version : Option String := none
deriving DecidableEq, Repr

structure DraftReconciliation extends SectionValues where
  baseRevision : Nat
  version : String
  acceptedRevision : Nat
deriving DecidableEq, Repr

structure Draft where
  baseRevision : Nat
  version : String
  desired : DesiredState
  /-- Sections this draft proposes. Empty means a route draft written before
  interface editing existed. -/
  sections : List String := []
  /-- WireGuard tunnels this draft edited. Empty in a draft written before
  tunnel tracking existed, which then carries every tunnel. -/
  wireguardEdits : List String := []
deriving DecidableEq, Repr

def effectiveSections (draft : Draft) : List String :=
  if draft.sections.isEmpty then ["routes"] else draft.sections

def rememberSection (sections : List String) (name : String) : List String :=
  if sections.contains name then sections else sections ++ [name]

/-! ## Interfaces -/

/-- `ipv4_network_prefix`: the network of an address with its prefix length. -/
def ipv4NetworkPrefix (cidr : String) : Option String :=
  (ipv4Prefix cidr).map fun (network, bits) => s!"{displayIpv4 network}/{bits}"

def dhcpPoolInside (lanPrefix pool : String) : Bool :=
  let network : Option (Ipv4Addr × Nat) := do
    let (address, bits) ← splitOnce lanPrefix '/'
    let address ← parseIpv4 address
    let bits ← parseU8 bits
    if bits ≤ 32 then some (address, bits) else none
  match network with
  | none => false
  | some (base, bits) =>
      let (first, last) := (splitOnce pool '-').getD (pool, pool)
      match parseIpv4 (trim first), parseIpv4 (trim last) with
      | some first, some last =>
          let mask := prefixMask 32 bits
          first &&& mask == base &&& mask && last &&& mask == base &&& mask
      | _, _ => false

/-- The address of the first LAN that the LAN prefix follows: the one with the
prefix's own host, or the first IPv4 address. -/
def lanAddress (lanPrefix : Option String) (addresses : List String) : Option String :=
  let matched := (lanPrefix.bind firstV4Host).bind fun host =>
    addresses.find? fun address => startsWith address s!"{host}/"
  matched <|> addresses.find? fun address =>
    (splitOnce address '/').any fun (ip, _) => (parseIpv4 ip).isSome

def syncLanPrefixFromFirstLan (state : DesiredState) : DesiredState :=
  match state.interfaces.find? Iface.isLan with
  | none => state
  | some lan =>
      match (lanAddress state.lanPrefix lan.addresses).bind ipv4NetworkPrefix with
      | none => state
      | some lanPrefix =>
          if state.lanPrefix = some lanPrefix then state
          else { state with
            lanPrefix := some lanPrefix
            dhcpPool :=
              if state.dhcpPool.any fun pool => !dhcpPoolInside lanPrefix pool then none
              else state.dhcpPool }

/-- The IPv6 page owns WAN acquisition; an interface edit keeps it while the
interface stays a WAN and clears it otherwise. -/
def keepAcquisition (previous : List Iface) (iface : Iface) : Iface :=
  let before := previous.find? (·.name == iface.name)
  if iface.isWan then
    { iface with ipv6 := before.bind (·.ipv6), requestPd := before.any (·.requestPd) }
  else { iface with ipv6 := none, requestPd := false }

def storeInterfaceSection (desired : DesiredState) (interfaces : List Iface)
    (uiExposure : List String) : DesiredState :=
  syncLanPrefixFromFirstLan { desired with
    interfaces := interfaces.map (keepAcquisition desired.interfaces)
    uiExposure := uiExposure }

/-! ## The other sections -/

def blankToNone (value : String) : Option String :=
  let value := trim value
  if value.isEmpty then none else some value

def storeLanServices (desired : DesiredState) (services : LanServices) : DesiredState :=
  { desired with
    lanPrefix := blankToNone services.lanPrefix
    dhcpPool := blankToNone services.dhcpPool
    wanPd := blankToNone services.wanPd }

/-- The route that a tunnel asks for. -/
def tunnelRoute (tunnel : WgInput) : Except String (Option StaticRoute) :=
  let routeTo := trim tunnel.routeTo
  let routeVia := trim tunnel.routeVia
  if routeTo.isEmpty != routeVia.isEmpty then
    .error s!"WireGuard {tunnel.name} route needs both a destination and a next hop"
  else if !routeTo.isEmpty then
    .ok (some { dest := routeTo, via := routeVia, dev := some tunnel.name })
  else .ok none

def mergeTunnel (tunnel : WgInput) (existing : Wg) : Wg :=
  { existing with
    privateKey :=
      if (trim tunnel.privateKey).isEmpty then existing.privateKey else tunnel.privateKey
    listenPort := tunnel.listenPort <|> existing.listenPort
    addresses := if tunnel.addresses.isEmpty then existing.addresses else tunnel.addresses }

def storeTunnel (next : List Wg) (tunnel : WgInput) : List Wg :=
  if next.any (·.name == tunnel.name) then
    modifyFirst (·.name == tunnel.name) (mergeTunnel tunnel) next
  else
    next ++ [{ name := tunnel.name, privateKey := tunnel.privateKey
               listenPort := tunnel.listenPort, addresses := tunnel.addresses }]

/-- A tunnel's route takes the place of the one with its destination and device. -/
def storeRoute (routes : List StaticRoute) (route : StaticRoute) : List StaticRoute :=
  routes.filter (fun existing => !(existing.dest == route.dest && existing.dev == route.dev)) ++
    [route]

/-- The tunnels with their routes, or the first error. -/
def storeTunnels (next : List Wg) :
    List WgInput → Except String (List Wg × List StaticRoute)
  | [] => .ok (next, [])
  | tunnel :: tunnels => do
      let route ← tunnelRoute tunnel
      let (next, routes) ← storeTunnels (storeTunnel next tunnel) tunnels
      return (next, route.toList ++ routes)

def storeWireguard (desired : DesiredState) (tunnels : List WgInput) (preserved : List Wg) :
    Except String DesiredState := do
  let (next, tunnelRoutes) ← storeTunnels preserved tunnels
  return { desired with wireguard := next, routes := tunnelRoutes.foldl storeRoute desired.routes }

def storeQdisc (qdiscs : List Qdisc) (update : Qdisc) : List Qdisc :=
  if qdiscs.any (·.dev == update.dev) then
    modifyFirst (·.dev == update.dev) ({ · with kind := update.kind }) qdiscs
  else qdiscs ++ [update]

def storeQdiscs (desired : DesiredState) (updates : List Qdisc) : Except String DesiredState := do
  forM updates fun update =>
    ensure (!((trim update.dev).isEmpty || (trim update.kind).isEmpty))
      "qdisc needs an interface and a kind"
  return { desired with qdiscs := updates.foldl storeQdisc desired.qdiscs }

def acquire (wan : WanIpv6) (iface : Iface) : Iface :=
  { iface with
    ipv6 := if wan.ipv6 == "static" || wan.ipv6 == "" then none else some wan.ipv6
    requestPd := wan.requestPd }

def storeWan (desired : DesiredState) (wan : WanIpv6) : Except String DesiredState :=
  let isIt := fun iface : Iface => iface.name == wan.name && iface.isWan
  if desired.interfaces.any isIt then
    .ok { desired with interfaces := modifyFirst isIt (acquire wan) desired.interfaces }
  else .error s!"{wan.name} is not a WAN"

def storeIpv6 (desired : DesiredState) (settings : Ipv6Settings) : Except String DesiredState :=
  settings.wans.foldlM storeWan desired

/-! ## Saving -/

/-- A section of the request is stored and remembered. -/
def save {α : Type} (name : String) (value : Option α)
    (store : DesiredState → α → Except String DesiredState) (state : DesiredState × List String) :
    Except String (DesiredState × List String) :=
  match value with
  | some value => do
      let desired ← store state.1 value
      return (desired, rememberSection state.2 name)
  | none => .ok state

/-- The two values of the interface section, which come together. -/
def SectionValues.both (values : SectionValues) : Option (List Iface × List String) :=
  values.interfaces.bind fun interfaces =>
    values.uiExposure.map fun uiExposure => (interfaces, uiExposure)

def addsRoute (tunnels : List WgInput) : Bool :=
  tunnels.any fun tunnel => !(trim tunnel.routeTo).isEmpty && !(trim tunnel.routeVia).isEmpty

def applyDraftSections (desired : DesiredState) (sections : List String) (values : SectionValues) :
    Except String (DesiredState × List String) := do
  ensure (values != {}) "invalid draft change"
  let state ← save "routes" values.routes
    (fun desired routes => .ok { desired with routes := routes }) (desired, sections)
  ensure (values.interfaces.isSome == values.uiExposure.isSome)
    "interfaces and ui_exposure are saved together"
  let state ← save "interfaces" values.both
    (fun desired both => .ok (storeInterfaceSection desired both.1 both.2)) state
  let state ← save "services" values.services
    (fun desired services => .ok (storeLanServices desired services)) state
  let state ← save "firewall" values.firewall
    (fun desired firewall => .ok { desired with nftExtra := firewall }) state
  let state ← save "wireguard" values.wireguard
    (fun desired wireguard => storeWireguard desired wireguard desired.wireguard) state
  let state :=
    if addsRoute (values.wireguard.getD []) then (state.1, rememberSection state.2 "routes")
    else state
  let state ← save "qdiscs" values.qdiscs storeQdiscs state
  save "ipv6" values.ipv6 storeIpv6 state

/-! ## Reconciling -/

def editedTunnel (draft : Draft) (name : String) : Bool :=
  draft.wireguardEdits.isEmpty || draft.wireguardEdits.contains name

def carryTunnel (accepted : List Wg) (tunnel : Wg) : List Wg :=
  if accepted.any (·.name == tunnel.name) then
    modifyFirst (·.name == tunnel.name) (fun _ => tunnel) accepted
  else accepted ++ [tunnel]

/-- Carry only the tunnels this draft edited onto a newer Accepted state, so a
reconciled draft keeps its stored key without reverting other tunnels. -/
def carryWireguardEdits (accepted : DesiredState) (draft : Draft) : DesiredState :=
  { accepted with
    wireguard := (draft.desired.wireguard.filter fun tunnel => editedTunnel draft tunnel.name).foldl
      carryTunnel accepted.wireguard }

/-- A recorded section takes its reviewed value, which the request must have. -/
def review {α : Type} (sections : List String) (name : String) (value : Option α) (error : String)
    (store : DesiredState → α → Except String DesiredState) (desired : DesiredState) :
    Except String DesiredState :=
  if sections.contains name then
    match value with
    | some value => store desired value
    | none => .error error
  else .ok desired

def applyReviewedSections (desired : DesiredState) (sections : List String)
    (values : SectionValues) : Except String DesiredState := do
  let desired ← review sections "routes" values.routes
    "Draft routes changed; review them again"
    (fun desired routes => .ok { desired with routes := routes }) desired
  let desired ← review sections "interfaces" values.both
    "Draft interfaces changed; review them again"
    (fun desired both => .ok (storeInterfaceSection desired both.1 both.2)) desired
  let desired ← review sections "services" values.services
    "Draft LAN services changed; review them again"
    (fun desired services => .ok (storeLanServices desired services)) desired
  let desired ← review sections "firewall" values.firewall
    "Draft firewall policy changed; review it again"
    (fun desired firewall => .ok { desired with nftExtra := firewall }) desired
  let desired ← review sections "wireguard" values.wireguard
    "Draft WireGuard changed; review it again"
    (fun desired wireguard => storeWireguard desired wireguard desired.wireguard) desired
  let desired ← review sections "qdiscs" values.qdiscs
    "Draft qdiscs changed; review them again" storeQdiscs desired
  -- After interfaces: this section owns WAN IPv6 acquisition.
  review sections "ipv6" values.ipv6
    "Draft IPv6 settings changed; review them again" storeIpv6 desired

def reconciledDesired (previous : Draft) (accepted : DesiredState) (request : SectionValues) :
    Except String DesiredState :=
  let sections := effectiveSections previous
  -- An import proposes the whole network, so reviewing it against a newer
  -- base carries it, with any edits saved on top, instead of merging.
  if sections.contains "import" then
    .ok { previous.desired with revision := accepted.revision }
  else if sections.contains "wireguard" then
    applyReviewedSections (carryWireguardEdits accepted previous) sections
      { request with
        wireguard := request.wireguard.map (·.filter fun tunnel =>
          editedTunnel previous tunnel.name) }
  else applyReviewedSections accepted sections request

/-! ## The draft file -/

/-- What a request meets outside the draft. -/
structure DraftEnv where
  signedIn : Bool := true
  bootstrapped : Bool := true
  /-- The error of reading the draft file. -/
  unreadable : Option String := none
  /-- The revision in the stored Accepted network, when that can be read. -/
  stored : Option Nat
  /-- The revision that netd reports as stable, when it answers. -/
  stable : Option Nat
  /-- netd has the receipt of this draft's version. -/
  receipt : Bool := false
  /-- Whether the removed draft file is gone, and the error of removing it. -/
  removed : Bool × Option String := (true, none)
  token : Except String String
  /-- Whether the new draft file is there, and the error of writing it. -/
  written : Bool × Option String := (true, none)

/-- The Accepted networks by their revision. -/
abbrev AcceptedNetworks := Nat → DesiredState

/-- A state stored without a revision has the first one. -/
def acceptedSnapshotForDrafting (accepted : AcceptedNetworks) (env : DraftEnv) :
    Except String DesiredState :=
  match env.stored with
  | none => .error "Accepted Desired state is unavailable"
  | some revision =>
      let revision := if revision = 0 then 1 else revision
      .ok { accepted revision with revision := revision }

/-- Read the draft, and drop it once netd has accepted exactly this version. Answers
the draft file after it too. -/
def readDraftReconciled (file : Option Draft) (snapshot : Option DesiredState) (env : DraftEnv) :
    Except String (Option Draft) × Option Draft :=
  match env.unreadable, file, snapshot with
  | some error, _, _ => (.error error, file)
  | none, none, _ => (.ok none, file)
  | none, some draft, none => (.ok (some draft), file)
  | none, some draft, some snapshot =>
      if snapshot.revision = draft.baseRevision then (.ok (some draft), file)
      else if env.stable ≠ some snapshot.revision then (.ok (some draft), file)
      else if !env.receipt then (.ok (some draft), file)
      else
        let file := if env.removed.1 then none else file
        match env.removed.2 with
        | some error => (.error error, file)
        | none => (.ok none, file)

/-- A refused request: the HTTP status and the error. -/
abbrev Refusal := Nat × String

/-- The reply to a stored draft: its base revision and its version. -/
abbrev DraftReply := Except Refusal (Nat × String)

def writeDraft (file : Option Draft) (draft : Draft) (env : DraftEnv) :
    DraftReply × Option Draft :=
  let file := if env.written.1 then some draft else file
  match env.written.2 with
  | some error => (.error (502, error), file)
  | none => (.ok (draft.baseRevision, draft.version), file)

/-- What the change edits: the base revision, the network, the sections and the edited tunnels of
the draft it names, or of a new draft. -/
def draftedContent (change : DraftChange) (existing : Option Draft)
    (snapshot : Except String DesiredState) :
    Except Refusal (Nat × DesiredState × List String × List String) :=
  match existing with
  | some draft =>
      if change.version = some draft.version then
        .ok (draft.baseRevision, draft.desired, effectiveSections draft, draft.wireguardEdits)
      else .error (409, "Draft changed; review it again")
  | none =>
      if change.version.isSome then
        .error (409, "Draft no longer exists; reload before saving")
      else match snapshot with
        | .ok desired => .ok (desired.revision, desired, [], [])
        | .error error => .error (502, error)

/-- The draft that `save_draft` writes. -/
def savedDraft (change : DraftChange) (existing : Option Draft)
    (snapshot : Except String DesiredState) (token : Except String String) :
    Except Refusal Draft := do
  let (baseRevision, desired, sections, wireguardEdits) ← draftedContent change existing snapshot
  ensure (change.baseRevision == baseRevision) (409, "Draft base changed; reload before saving")
  let wireguardEdits := ((change.wireguard.getD []).map (·.name)).foldl rememberSection
    wireguardEdits
  let (desired, sections) ← (applyDraftSections desired sections change.toSectionValues).mapError
    fun error => (400, error)
  let version ← token.mapError fun error => (502, error)
  return { baseRevision, version, desired, sections, wireguardEdits }

/-- The draft that `reconcile_draft` writes. -/
def reconciledDraft (request : DraftReconciliation) (existing : Option Draft)
    (snapshot : Except String DesiredState) (token : Except String String) :
    Except Refusal Draft := do
  let previous ← okOr existing (404, "no private pending draft")
  ensure (request.baseRevision == previous.baseRevision && request.version == previous.version)
    (409, "Draft changed; review it again")
  let accepted ← snapshot.mapError fun error => (502, error)
  ensure
    (request.acceptedRevision == accepted.revision && request.baseRevision != accepted.revision)
    (409, "Accepted revision changed; review reconciliation again")
  let desired ← (reconciledDesired previous accepted request.toSectionValues).mapError
    fun error => (409, error)
  let version ← token.mapError fun error => (502, error)
  return {
    baseRevision := desired.revision, version, desired
    sections := effectiveSections previous, wireguardEdits := previous.wireguardEdits }

/-- A private draft proposing the imported network in full on the Accepted base. -/
def importedDraft (desired : DesiredState) (baseRevision : Nat) (version : String) : Draft := {
  baseRevision, version
  desired := { desired with revision := baseRevision }
  sections := ["import"]
  wireguardEdits := desired.wireguard.map (·.name) }

/-- The draft that `import_desired` writes for a network that netd validated. -/
def importDraft (imported : DesiredState) (baseRevision : Nat) (existing : Option Draft)
    (accepted : DesiredState) (token : Except String String) : Except Refusal Draft := do
  ensure existing.isNone
    (409, "Private pending draft exists; review and apply or reconcile it before importing")
  ensure (baseRevision == accepted.revision)
    (409, "Accepted Desired state changed; reload before importing")
  let version ← token.mapError fun error => (502, error)
  return importedDraft imported accepted.revision version

/-- Write the draft that was made, if it was. -/
def writeMade (file : Option Draft) (env : DraftEnv) :
    Except Refusal Draft → DraftReply × Option Draft
  | .error refusal => (.error refusal, file)
  | .ok draft => writeDraft file draft env

/-- What every change of the draft does, under the owner's draft lock: read the draft, and write
the one made from it. -/
def changeDraft (file : Option Draft) (snapshot : Except String DesiredState) (env : DraftEnv)
    (make : Option Draft → Except Refusal Draft) : DraftReply × Option Draft :=
  let (existing, file) := readDraftReconciled file snapshot.toOption env
  match existing with
  | .error error => (.error (502, error), file)
  | .ok existing => writeMade file env (make existing)

inductive DraftRequest where
  /-- A body that does not decode is none. -/
  | save (change : Option DraftChange)
  | reconcile (request : Option DraftReconciliation)
  /-- A decoded network that netd has validated. -/
  | importDesired (imported : DesiredState) (baseRevision : Nat)
deriving DecidableEq, Repr

def DraftRequest.handle (accepted : AcceptedNetworks) (file : Option Draft) (env : DraftEnv)
    (request : DraftRequest) : DraftReply × Option Draft :=
  let snapshot := acceptedSnapshotForDrafting accepted env
  if !env.signedIn then (.error (401, "sign in required"), file)
  else if !env.bootstrapped then (.error (409, "complete Bootstrap first"), file)
  else match request with
    | save none => (.error (400, "invalid draft change"), file)
    | save (some change) =>
        changeDraft file snapshot env fun existing => savedDraft change existing snapshot env.token
    | reconcile none => (.error (400, "invalid reconciliation"), file)
    | reconcile (some request) =>
        changeDraft file snapshot env fun existing =>
          reconciledDraft request existing snapshot env.token
    | importDesired imported baseRevision =>
        match snapshot with
        | .error error => (.error (502, error), file)
        | .ok base =>
            changeDraft file snapshot env fun existing =>
              importDraft imported baseRevision existing base env.token

end Fwos
