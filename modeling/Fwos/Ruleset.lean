import Fwos.Validate
import Fwos.Nft.Read

/-!
# The generated ruleset

`nft_rules_with_recovery_guard` and the constant tables beside it, as the chains
and the rule texts they write, and what the matches in these texts mean.

* `nftRulesWithRecoveryGuard`: the whole ruleset of a Desired state.
* `Matches`: a meaning of the rule texts, documented for the generated matches
  and free for every other one, as an operator's rule may hold any.
-/

namespace Fwos

open Rust Nft

def fwdMgmtVeth : String := "f0mgmt"
def mgmtFwdIp : String := "169.254.127.6"
def mgmtFwdIp6 : String := "fd53:1:1::6"

/-! ## Exposure of the management UI -/

/-- `ui_exposure`: the exposed interfaces, each the first entry of its name, with
their addresses. -/
def uiExposure (state : DesiredState) : List (String × List String) :=
  state.uiExposure.filterMap fun name =>
    (state.interfaces.find? fun iface => iface.name == name && !iface.isWan).map fun iface =>
      (iface.name, iface.addresses)

/-- Loopback, unspecified, multicast and broadcast addresses and the plumbing
between the host and the management netns are not operator reachability. -/
def exposeAllowed (ip : String) : Bool :=
  match parseIpv4 ip with
  | some v4 =>
      let (a, b, c, _) := octets v4
      !(a == 127 || v4 == 0 || (224 ≤ a && a ≤ 239) || v4 == BitVec.allOnes 32) &&
        !(a == 169 && b == 254 && c == 127)
  | none =>
      match parseIpv6 ip with
      | some v6 => !(v6 == 1 || v6 == 0 || IpAddr.isMulticast (.v6 v6))
      | none => false

/-- The exposed addresses of an interface, each once. -/
def exposeIps (cidrs : List String) : List String :=
  cidrs.foldl (fun out cidr =>
    let ip := beforeSlash cidr
    if exposeAllowed ip && !out.contains ip then out ++ [ip] else out) []

/-! ## Chains -/

def icmpv6Types : List String :=
  ["nd-neighbor-solicit", "nd-neighbor-advert", "nd-router-advert", "packet-too-big",
    "destination-unreachable", "time-exceeded", "parameter-problem"]

/-- The input rules of one WAN. Neighbor discovery, RA and DHCPv6 replies to a
multicast Solicit are not conntrack replies. -/
def wanInputRules (wan : String) : List String := [
  s!"iifname \"{wan}\" ct state established,related accept",
  s!"iifname \"{wan}\" icmpv6 type \x7b nd-neighbor-solicit, nd-neighbor-advert, nd-router-advert, packet-too-big, destination-unreachable, time-exceeded, parameter-problem \x7d accept",
  s!"iifname \"{wan}\" ip6 saddr fe80::/10 udp sport 547 udp dport 546 accept",
  s!"iifname \"{wan}\" drop"]

def wanNames (state : DesiredState) : List String := (wans state).map (·.name)

def inputRules (state : DesiredState) : List String :=
  ["iifname \"lo\" accept"] ++ state.nftExtra ++ (wanNames state).flatMap wanInputRules

def inputChain (state : DesiredState) : Chain := {
  name := "input", type := "filter", hook := "input", priority := "filter", policy := .accept
  rules := inputRules state }

def exposureForwardRule (name : String) : String :=
  s!"iifname \"{name}\" oifname \"{fwdMgmtVeth}\" tcp dport 443 accept"

def mgmtForwardRules (mgmt : String) : List String :=
  [s!"iifname \"{mgmt}\" drop", s!"oifname \"{mgmt}\" drop"]

def forwardRules (state : DesiredState) (recoveryRequired : Bool) : List String :=
  (if recoveryRequired then ["drop"] else []) ++
    ["ct state established,related accept",
      -- Host-netns pulls and DNATed UI replies arrive from mgmt on this veth.
      s!"iifname \"{fwdMgmtVeth}\" accept"] ++
    (uiExposure state).map (exposureForwardRule ·.1) ++
    (mgmts state).flatMap (mgmtForwardRules ·.name) ++
    (wanNames state).map fun wan => s!"oifname \"{wan}\" accept"

def forwardChain (state : DesiredState) (recoveryRequired : Bool) : Chain := {
  name := "forward", type := "filter", hook := "forward", priority := "filter", policy := .drop
  rules := forwardRules state recoveryRequired }

/-- The DNAT rule of an exposed interface that has no address yet. -/
def dnatAnyRule (name : String) : String :=
  s!"iifname \"{name}\" tcp dport 443 dnat ip to {mgmtFwdIp}"

def dnatRule (name ip : String) : String :=
  if containsChar ip ':' then
    s!"iifname \"{name}\" ip6 daddr {ip} tcp dport 443 dnat ip6 to {mgmtFwdIp6}"
  else s!"iifname \"{name}\" ip daddr {ip} tcp dport 443 dnat ip to {mgmtFwdIp}"

def dnatRules (name : String) (addrs : List String) : List String :=
  let ips := exposeIps addrs
  if ips.isEmpty then [dnatAnyRule name] else ips.map (dnatRule name)

def preroutingChain (state : DesiredState) : Chain := {
  name := "prerouting", type := "nat", hook := "prerouting", priority := "dstnat", policy := .accept
  rules := (uiExposure state).flatMap fun (name, addrs) => dnatRules name addrs }

/-- NAT44 only: IPv6 LAN-to-WAN stays routed. -/
def postroutingChain (state : DesiredState) : Chain := {
  name := "postrouting", type := "nat", hook := "postrouting", priority := "srcnat"
  policy := .accept
  rules := (wanNames state).map fun wan => s!"oifname \"{wan}\" meta nfproto ipv4 masquerade" }

def v4Wan (state : DesiredState) : Bool :=
  (wans state).any fun wan => wan.addresses.any (containsChar · '.')

/-! ## Scripts -/

def hostPullNft : List Command := [.add {
  family := "ip", name := "fwos-pull"
  chains := [{
    name := "postrouting", type := "nat", hook := "postrouting", priority := "srcnat"
    policy := .accept, rules := ["ip saddr 169.254.127.0/30 masquerade"] }] }]

def nftRulesWithRecoveryGuard (state : DesiredState) (recoveryRequired : Bool) : List Command :=
  [.flushRuleset] ++ hostPullNft ++ [.add {
    family := "inet", name := "fwos"
    chains := [inputChain state, forwardChain state recoveryRequired] ++
      (if (uiExposure state).isEmpty then [] else [preroutingChain state]) ++
      (if v4Wan state then [postroutingChain state] else []) }]

/-! ## What the generated matches mean -/

inductive CtState where
  | new
  | established
  | related
  | invalid
  | untracked
deriving DecidableEq, Repr

inductive Transport where
  | tcp (sport dport : Nat)
  | udp (sport dport : Nat)
  /-- The type by its name in nft. -/
  | icmpv6 (type : String)
  | other
deriving DecidableEq, Repr

structure Packet where
  iifname : String
  oifname : String := ""
  ct : CtState := .new
  saddr : IpAddr
  daddr : IpAddr
  transport : Transport
deriving DecidableEq, Repr

namespace Packet

def isReply (p : Packet) : Bool := p.ct == .established || p.ct == .related

def isListedIcmpv6 (p : Packet) : Bool :=
  match p.transport with
  | .icmpv6 type => icmpv6Types.contains type
  | _ => false

/-- UDP from fe80::/10 port 547 to port 546. -/
def isDhcpv6Reply (p : Packet) : Bool :=
  (match p.saddr with
    | .v4 _ => false
    | .v6 address => isUnicastLinkLocal address) && p.transport == .udp 547 546

def isHttps (p : Packet) : Bool :=
  match p.transport with
  | .tcp _ dport => dport == 443
  | _ => false

end Packet

def establishedTokens : List Token :=
  [.word "ct", .word "state", .word "established", .mark ',', .word "related"]

def icmpv6Tokens : List Token :=
  [.word "icmpv6", .word "type", .mark '\x7b'] ++
    (icmpv6Types.map Token.word).intersperse (.mark ',') ++ [.mark '\x7d']

def dhcpv6Tokens : List Token :=
  ["ip6", "saddr", "fe80::/10", "udp", "sport", "547", "udp", "dport", "546"].map .word

def httpsTokens : List Token := ["tcp", "dport", "443"].map .word

def daddrTokens (family ip : String) : List Token :=
  [.word family, .word "daddr", .word ip] ++ httpsTokens

/-- A meaning of the matches in rule texts: what nft documents for the generated
ones, anything for the others. -/
structure Matches where
  holds : List Token → Packet → Bool
  established : ∀ p, holds establishedTokens p = p.isReply
  icmpv6 : ∀ p, holds icmpv6Tokens p = p.isListedIcmpv6
  dhcpv6 : ∀ p, holds dhcpv6Tokens p = p.isDhcpv6Reply
  https : ∀ p, holds httpsTokens p = p.isHttps
  daddr4 : ∀ ip address p, parseIpv4 ip = some address →
    holds (daddrTokens "ip" ip) p = (p.daddr == .v4 address && p.isHttps)
  daddr6 : ∀ ip address p, parseIpv6 ip = some address →
    holds (daddrTokens "ip6" ip) p = (p.daddr == .v6 address && p.isHttps)

def Matches.reading (M : Matches) : Reading Packet := ⟨Packet.iifname, Packet.oifname, M.holds⟩

/-- The meaning in which every undocumented match holds. -/
def lenientHolds (tokens : List Token) (p : Packet) : Bool :=
  if tokens = establishedTokens then p.isReply
  else if tokens = icmpv6Tokens then p.isListedIcmpv6
  else if tokens = dhcpv6Tokens then p.isDhcpv6Reply
  else if tokens = httpsTokens then p.isHttps
  else match tokens with
    | .word family :: .word _ :: .word ip :: rest =>
        if tokens = daddrTokens family ip ∧ rest = httpsTokens then
          if family = "ip" then
            match parseIpv4 ip with
            | some address => p.daddr == .v4 address && p.isHttps
            | none => true
          else if family = "ip6" then
            match parseIpv6 ip with
            | some address => p.daddr == .v6 address && p.isHttps
            | none => true
          else true
        else true
    | _ => true

def lenient : Matches where
  holds := lenientHolds
  established _ := rfl
  icmpv6 _ := rfl
  dhcpv6 _ := rfl
  https _ := rfl
  daddr4 ip address p h := by
    have h1 : daddrTokens "ip" ip ≠ establishedTokens := by simp [daddrTokens, establishedTokens]
    have h2 : daddrTokens "ip" ip ≠ icmpv6Tokens := by simp [daddrTokens, icmpv6Tokens]
    have h3 : daddrTokens "ip" ip ≠ dhcpv6Tokens := by simp [daddrTokens, dhcpv6Tokens]
    have h4 : daddrTokens "ip" ip ≠ httpsTokens := by simp [daddrTokens, httpsTokens]
    simp only [lenientHolds, h1, h2, h3, h4, if_false]
    simp [daddrTokens, h]
  daddr6 ip address p h := by
    have h1 : daddrTokens "ip6" ip ≠ establishedTokens := by simp [daddrTokens, establishedTokens]
    have h2 : daddrTokens "ip6" ip ≠ icmpv6Tokens := by simp [daddrTokens, icmpv6Tokens]
    have h3 : daddrTokens "ip6" ip ≠ dhcpv6Tokens := by simp [daddrTokens, dhcpv6Tokens]
    have h4 : daddrTokens "ip6" ip ≠ httpsTokens := by simp [daddrTokens, httpsTokens]
    simp only [lenientHolds, h1, h2, h3, h4, if_false]
    simp [daddrTokens, h]

end Fwos
