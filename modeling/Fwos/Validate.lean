import Fwos.Desired

/-!
# Validation of a Desired state

netd's `validate`: every check that stands between a proposed Desired state and
the Forwarding netns, in the order of the sources. The base64 decoder of the
WireGuard keys is a third-party crate and a parameter here.

The checks are independent of each other, so `validate_iff` splits an accepted
state into the facts each check established.
-/

namespace Fwos

open Rust

/-- The base64 engine that decodes WireGuard private keys. -/
class Base64 where
  decode : String → Option (List UInt8)

/-! ## Interfaces and LAN services -/

/-- The parent link and the tag that an interface occupies. -/
def l2Key (iface : Iface) : String × Option Nat :=
  let tagged := if iface.vlan.isSome then
    ((rsplitOnce iface.name '.').map Prod.fst).getD iface.name else iface.name
  (iface.parent.getD tagged, iface.vlan)

def exposesUi (state : DesiredState) (name : String) : Bool := state.uiExposure.contains name

def lanL2 (state : DesiredState) : Option Iface := state.interfaces.find? Iface.isLan

/-- The network of an IPv4 CIDR and its prefix length. -/
def ipv4Prefix (text : String) : Option (Ipv4Addr × Nat) := do
  let (address, bits) ← splitOnce text '/'
  let address ← parseIpv4 address
  let bits ← parseU8 bits
  if bits > 32 then none else some (address &&& prefixMask 32 bits, bits)

def lanInterfacePrefixes (iface : Iface) : List (Ipv4Addr × Nat) :=
  iface.addresses.filterMap ipv4Prefix

/-- `split_pool`: the two ends of a pool, without its spaces. -/
def splitPool (pool : String) : String × String :=
  let p := String.ofList (pool.toList.filter (· != ' '))
  (splitOnce p '-').getD (p, p)

/-- The four octets of a dotted text; parts that are no octet are passed over. -/
def dottedOctets (text : String) : Option (Nat × Nat × Nat × Nat) :=
  match (split text '.').filterMap parseU8 with
  | [a, b, c, d] => some (a, b, c, d)
  | _ => none

def prefixFromPool (pool : String) : Option String :=
  (dottedOctets (splitPool pool).1).map fun (a, b, c, _) => s!"{a}.{b}.{c}.0/24"

/-- `split('/').next()`, which a Rust split always has. -/
def beforeSlash (text : String) : String := ((split text '/').head?).getD ""

def firstV4Host (cidr : String) : Option String :=
  (dottedOctets (beforeSlash cidr)).map fun (a, b, c, d) =>
    s!"{a}.{b}.{c}.{if d = 0 then 1 else d}"

/-- The prefix that LAN services use, and the text of the error when the LAN
interface is not in it. -/
def expectedLanPrefix (state : DesiredState) : Option (Option (Ipv4Addr × Nat) × String) :=
  match nonEmpty state.lanPrefix with
  | some text => some (ipv4Prefix text, "LAN prefix does not match a LAN interface address")
  | none =>
      (nonEmpty state.dhcpPool).map fun pool =>
        ((prefixFromPool pool).bind ipv4Prefix, "DHCP pool does not match a LAN interface address")

def lanServicesMatchInterface (state : DesiredState) : Except String Unit :=
  forM (lanL2 state) fun lan =>
    let prefixes := lanInterfacePrefixes lan
    if prefixes.isEmpty then .ok ()
    else forM (expectedLanPrefix state) fun (expected, error) =>
      ensure (expected.any prefixes.contains) error

/-! ## IPv6 -/

def staticLanPrefix (state : DesiredState) : Option String := nonEmpty state.wanPd

def validateIpv6Iface (iface : Iface) : Except String Unit := do
  forM iface.ipv6 fun mode => do
    ensure iface.isWan s!"IPv6 acquisition on {iface.name} is for only a WAN"
    ensure (mode == "slaac" || mode == "dhcpv6") s!"unsupported IPv6 mode {mode} on {iface.name}"
  ensure (!iface.requestPd || iface.isWan)
    s!"prefix delegation on {iface.name} is requested by only a WAN"

def validateIpv6 (state : DesiredState) : Except String Unit := do
  forM state.interfaces validateIpv6Iface
  let requesting := state.interfaces.countP (·.requestPd)
  ensure (requesting ≤ 1) "only one WAN can request prefix delegation"
  ensure (requesting != 1 || (staticLanPrefix state).isNone)
    "choose a static routed IPv6 prefix or prefix delegation, not both"

/-! ## Firewall policy -/

def policyChar (c : Char) : Bool :=
  c.isAlphanum || c == ' ' || c == '"' || c == '.' || c == '/' || c == ':' || c == '-' || c == '_'

def forbiddenWords : List String :=
  ["flush", "table", "chain", "hook", "policy", "dnat", "snat", "masquerade", "redirect",
    "include", "define", "jump", "goto"]

def policyIifname (rule : String) : Option String := do
  let parts := splitWhitespace rule
  let pos ← parts.findIdx? (· == "iifname")
  let name ← parts[pos + 1]?
  return trimMatches name '"'

/-- The interface a rule names, and whether an accept may name it. -/
def validatePolicyIface (state : DesiredState) (rule verdict : String) : Except String Unit :=
  match policyIifname rule with
  | some name => do
      let iface ← okOr (state.interfaces.find? (·.name == name))
        s!"firewall policy uses unknown interface {name}"
      ensure (!(verdict == "accept" && iface.isWan)) "firewall policy must not accept WAN input"
      ensure (!(verdict == "accept" && !(iface.isLan || iface.isMgmt)))
        "firewall accept must name a LAN or Management NIC"
  | none => ensure (verdict != "accept") "firewall accept must name a LAN or Management NIC"

def validatePolicyRule (state : DesiredState) (rule : String) : Except String Unit := do
  let rule := trim rule
  ensure (!rule.isEmpty && rule.toList.all policyChar) "invalid firewall policy"
  ensure (!(splitBy rule fun c => !c.isAlphanum).any fun token =>
      forbiddenWords.contains (toAsciiLowercase token)) "invalid firewall policy"
  let verdict := ((splitWhitespace rule).getLast?).getD ""
  ensure (verdict == "accept" || verdict == "drop" || verdict == "reject")
    "firewall policy needs a drop, reject, or accept verdict"
  -- A verdict alone would match all input, including LAN DHCP and DNS.
  ensure ((splitWhitespace rule).length ≥ 2)
    "firewall policy needs an interface, source, or protocol match"
  validatePolicyIface state rule verdict

def validatePolicy (state : DesiredState) : Except String Unit :=
  forM state.nftExtra (validatePolicyRule state)

/-! ## WireGuard and queueing disciplines -/

/-- One tunnel; `seen` holds the names of the tunnels before it. -/
def validateWg [Base64] (seen : List String) (wg : Wg) : Except String (List String) := do
  ensure (!seen.contains wg.name) s!"duplicate WireGuard {wg.name}"
  ensure (wg.listenPort != some 0) s!"WireGuard {wg.name} needs a usable listen port"
  BootstrapValues.interface wg.name none none wg.addresses
  let key ← okOr (Base64.decode wg.privateKey) s!"WireGuard {wg.name} has an invalid private key"
  ensure (key.length == 32) s!"WireGuard {wg.name} has an invalid private key"
  return wg.name :: seen

def validateWireguard [Base64] (state : DesiredState) : Except String Unit := do
  let _ ← state.wireguard.foldlM validateWg []

/-- A device that a qdisc or a route may name. -/
def knownDev (state : DesiredState) (dev : String) : Bool :=
  state.interfaces.any (·.name == dev) || state.wireguard.any (·.name == dev)

def validateQdisc (state : DesiredState) (qdisc : Qdisc) : Except String Unit :=
  ensure (knownDev state qdisc.dev &&
      ["fq_codel", "fq", "pfifo", "bfifo", "sfq", "cake"].contains qdisc.kind)
    s!"unsupported qdisc {qdisc.kind} on {qdisc.dev}"

/-! ## Static routes -/

/-- Whether an address is the network of its prefix. -/
def canonical (address : IpAddr) (bits : Nat) : Bool :=
  match address with
  | .v4 ip => ip &&& prefixMask 32 bits == ip
  | .v6 ip => ip &&& prefixMask 128 bits == ip

def gatewayInCidr (gateway : IpAddr) (text : String) : Bool :=
  match splitOnce text '/' with
  | none => false
  | some (address, bits) =>
      match parseIp address, parseU8 bits with
      | some address, some bits =>
          gateway != address &&
            match gateway, address with
            | .v4 gateway, .v4 address =>
                bits ≤ 32 && gateway &&& prefixMask 32 bits == address &&& prefixMask 32 bits
            | .v6 gateway, .v6 address =>
                bits ≤ 128 && gateway &&& prefixMask 128 bits == address &&& prefixMask 128 bits
            | _, _ => false
      | _, _ => false

def managementGateway (state : DesiredState) (gateway : IpAddr) (device : Option String) : Bool :=
  state.interfaces.any fun iface =>
    iface.isMgmt && (device == some iface.name || iface.addresses.any (gatewayInCidr gateway))

/-- The address that the LAN prefix gives its interface. -/
def lanServiceAddress (state : DesiredState) : Option String := do
  let text ← state.lanPrefix
  let host ← firstV4Host text
  let (_, bits) ← splitOnce text '/'
  return s!"{host}/{bits}"

def onLink (gateway : IpAddr) (device : Option String) (name : String)
    (addresses : List String) : Bool :=
  device.all (· == name) && addresses.any (gatewayInCidr gateway)

def routeNextHopOnLink (state : DesiredState) (gateway : IpAddr) (device : Option String) : Bool :=
  let service := fun (iface : Iface) =>
    if (lanL2 state).any (·.name == iface.name) then (lanServiceAddress state).toList else []
  state.interfaces.any (fun iface => !iface.isMgmt &&
      onLink gateway device iface.name (iface.addresses ++ service iface)) ||
    state.wireguard.any fun tunnel => onLink gateway device tunnel.name tunnel.addresses

/-- The destination of a route; `seen` holds the destinations before it. -/
def routeDestination (seen : List (IpAddr × Nat)) (dest : String) :
    Except String (IpAddr × Nat) := do
  let (address, bits) ← okOr (splitOnce dest '/') s!"route destination {dest} must be a CIDR prefix"
  let destination ← okOr (parseIp address) s!"invalid route destination {dest}"
  let bits ← okOr (parseU8 bits) s!"invalid route destination {dest}"
  ensure (bits ≤ if destination.isIpv4 then 32 else 128) s!"invalid route destination {dest}"
  ensure (canonical destination bits && !seen.contains (destination, bits))
    s!"invalid or duplicate route destination {dest}"
  return (destination, bits)

def linkLocal : IpAddr → Bool
  | .v4 _ => false
  | .v6 address => isUnicastLinkLocal address

def validateRoute (state : DesiredState) (seen : List (IpAddr × Nat)) (route : StaticRoute) :
    Except String (List (IpAddr × Nat)) := do
  let (destination, bits) ← routeDestination seen route.dest
  let gateway ← okOr (parseIp route.via) s!"invalid route next hop {route.via}"
  ensure (destination.isIpv4 == gateway.isIpv4 && !gateway.isUnspecified && !gateway.isMulticast)
    s!"route {route.dest} needs a usable next hop of the same IP family"
  ensure (!(linkLocal gateway && route.dev.isNone))
    s!"route {route.dest} needs an interface for a link-local next hop"
  forM route.dev fun dev =>
    ensure (knownDev state dev) s!"route {route.dest} uses unknown interface {dev}"
  ensure (!managementGateway state gateway route.dev) "Management NIC has no gateway"
  ensure (routeNextHopOnLink state gateway route.dev)
    s!"route {route.dest} next hop {route.via} needs a configured on-link interface address"
  return (destination, bits) :: seen

def validateRoutes (state : DesiredState) : Except String Unit := do
  let _ ← state.routes.foldlM (validateRoute state) []

/-! ## Roles -/

def validateMgmtIface (iface : Iface) : Except String Unit := do
  ensure (iface.vlan.isNone && iface.parent.isNone && !containsChar iface.name '.')
    "Management NIC owns the whole parent"
  ensure (!iface.dhcp) "Management NIC is on-link static; no DHCP"
  ensure (!iface.addresses.isEmpty) "Management NIC needs an on-link static prefix"

def validateRole (iface : Iface) : Except String Unit := do
  ensure (iface.placement != "mgmt") "placement=mgmt is not a contract; use roles and ui_exposure"
  forM iface.role fun role =>
    ensure (["wan", "lan", "unused", "stick", "mgmt"].contains role) s!"unknown role {role}"
  if iface.isMgmt then validateMgmtIface iface

def wans (state : DesiredState) : List Iface := state.interfaces.filter Iface.isWan
def lans (state : DesiredState) : List Iface := state.interfaces.filter Iface.isLan
def mgmts (state : DesiredState) : List Iface := state.interfaces.filter Iface.isMgmt

def validateZones (state : DesiredState) : Except String Unit := do
  ensure (!(wans state).isEmpty) "need at least one WAN"
  ensure (!(lans state).isEmpty) "need at least one LAN"
  ensure ((wans state).all fun wan => (lans state).all fun lan => l2Key wan != l2Key lan)
    "WAN and LAN must not share the same parent and tag"
  let mgmtParents := (mgmts state).map fun iface => (l2Key iface).1
  ensure ((wans state ++ lans state).all fun iface => !mgmtParents.contains (l2Key iface).1)
    "WAN or LAN must not share a parent with a Management NIC"

def validateExposed (state : DesiredState) (name : String) : Except String Unit := do
  let iface ← okOr (state.interfaces.find? (·.name == name))
    s!"ui_exposure {name} is not an interface"
  ensure (!iface.isWan) "ui_exposure cannot include a WAN"

def validateExposure (state : DesiredState) : Except String Unit := do
  ensure (!state.uiExposure.isEmpty) "ui_exposure must not be empty"
  forM state.uiExposure (validateExposed state)
  forM (mgmts state) fun mgmt =>
    ensure (exposesUi state mgmt.name) "Management NIC must be in ui_exposure"

/-! ## The whole check -/

def validateIface (iface : Iface) : Except String Unit :=
  BootstrapValues.interface iface.name iface.parent iface.vlan iface.addresses

def validate [Base64] (state : DesiredState) : Except String Unit := do
  forM state.interfaces validateIface
  BootstrapValues.addressing state.lanPrefix state.dhcpPool state.wanPd
  lanServicesMatchInterface state
  validateIpv6 state
  validatePolicy state
  validateWireguard state
  forM state.qdiscs (validateQdisc state)
  validateRoutes state
  forM state.interfaces validateRole
  validateZones state
  validateExposure state

/-- What each check of `validate` established about an accepted state. -/
structure Accepts [Base64] (state : DesiredState) : Prop where
  interfaces : ∀ iface ∈ state.interfaces, validateIface iface = .ok ()
  addressing : BootstrapValues.addressing state.lanPrefix state.dhcpPool state.wanPd = .ok ()
  lanServices : lanServicesMatchInterface state = .ok ()
  ipv6 : validateIpv6 state = .ok ()
  policy : ∀ rule ∈ state.nftExtra, validatePolicyRule state rule = .ok ()
  wireguard : validateWireguard state = .ok ()
  qdiscs : ∀ qdisc ∈ state.qdiscs, validateQdisc state qdisc = .ok ()
  routes : validateRoutes state = .ok ()
  roles : ∀ iface ∈ state.interfaces, validateRole iface = .ok ()
  zones : validateZones state = .ok ()
  exposure : validateExposure state = .ok ()

theorem validate_iff [Base64] {state : DesiredState} {u : Unit} :
    validate state = .ok u ↔ Accepts state := by
  simp only [validate, validatePolicy, bind_eq_ok, forM_eq_ok]
  constructor
  · rintro ⟨_, h1, _, h2, _, h3, _, h4, _, h5, _, h6, _, h7, _, h8, _, h9, _, h10, h11⟩
    exact ⟨h1, h2, h3, h4, h5, h6, h7, h8, h9, h10, h11⟩
  · intro h
    exact ⟨(), h.interfaces, (), h.addressing, (), h.lanServices, (), h.ipv6, (), h.policy,
      (), h.wireguard, (), h.qdiscs, (), h.routes, (), h.roles, (), h.zones, h.exposure⟩

end Fwos
