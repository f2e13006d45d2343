import Fwos.Rust.Ip
import Fwos.Rust.Result

/-!
# The Desired state

The complete Desired state that clients propose as JSON and netd stores as
TOML (`desired.rs`), and the pure value checks that the HTTPS Bootstrap
boundary shares with netd (`bootstrap_values.rs`).

Revisions and the other unsigned integers are naturals; where the sources rely
on their width, the operation says so.
-/

namespace Fwos

open Rust

structure Iface where
  name : String
  placement : String := ""
  role : Option String := none
  addresses : List String := []
  vlan : Option Nat := none
  parent : Option String := none
  dhcp : Bool := false
  /-- WAN IPv6 acquisition: "slaac" or "dhcpv6". -/
  ipv6 : Option String := none
  /-- Request a DHCPv6 delegated prefix on this WAN for the LAN. -/
  requestPd : Bool := false
deriving DecidableEq, Repr

structure Wg where
  name : String
  privateKey : String
  listenPort : Option Nat := none
  addresses : List String := []
deriving DecidableEq, Repr

structure StaticRoute where
  /-- The destination, `to` in the source. -/
  dest : String
  via : String
  dev : Option String := none
deriving DecidableEq, Repr

structure Qdisc where
  dev : String
  kind : String
deriving DecidableEq, Repr

structure DesiredState where
  revision : Nat := 1
  interfaces : List Iface := []
  wireguard : List Wg := []
  routes : List StaticRoute := []
  nftExtra : List String := []
  qdiscs : List Qdisc := []
  hostname : Option String := none
  lanPrefix : Option String := none
  dhcpPool : Option String := none
  wanPd : Option String := none
  uiExposure : List String := []
  applyConfirmation : Bool := false
deriving DecidableEq, Repr

namespace Iface

def hasRole (iface : Iface) (role : String) : Bool := iface.role == some role

def isWan (iface : Iface) : Bool := iface.hasRole "wan"
def isLan (iface : Iface) : Bool := iface.hasRole "lan"
def isMgmt (iface : Iface) : Bool := iface.hasRole "mgmt"

end Iface

/-- Rust's `Option::filter(|value| !value.is_empty())` on an optional text. -/
def nonEmpty (value : Option String) : Option String := value.filter (! ·.isEmpty)

/-- Two states with the same content; the revision only numbers it. -/
def DesiredState.SameNetwork (left right : DesiredState) : Prop :=
  { left with revision := 0 } = { right with revision := 0 }

instance (left right : DesiredState) : Decidable (left.SameNetwork right) :=
  inferInstanceAs (Decidable (_ = _))

namespace BootstrapValues

def interfaceName (name : String) : Bool :=
  !name.isEmpty && name.utf8ByteSize ≤ 15 &&
    name.toList.all fun c => c.isAlphanum || c == '_' || c == '-' || c == '.'

/-- `cidr`: an address and a prefix length that fits its family. -/
def cidr (value : String) : Option (IpAddr × Nat) := do
  let (ip, len) ← splitOnce value '/'
  let ip ← parseIp ip
  let len ← parseU8 len
  if len > (if ip.isIpv4 then 32 else 128) then none else some (ip, len)

def interface (name : String) (parent : Option String) (vlan : Option Nat)
    (addresses : List String) : Except String Unit := do
  ensure (interfaceName name) s!"invalid interface name {name}"
  forM parent fun parent => do
    ensure (interfaceName parent && parent != name) s!"invalid parent for interface {name}"
    ensure vlan.isSome s!"interface {name} has parent without VLAN"
  forM vlan fun vid => do
    ensure (1 ≤ vid && vid ≤ 4094) s!"VLAN ID {vid} is outside 1-4094"
    ensure (parent.isSome || containsChar name '.') s!"VLAN interface {name} needs a parent"
  forM addresses fun address =>
    ensure (cidr address).isSome s!"invalid interface address {address}"

structure DelegatedLan where
  addressCidr : String
  subnetCidr : String
  poolStart : String
  poolEnd : String
deriving DecidableEq, Repr

/-- Place the LAN in the first /64 of a delegated IPv6 prefix. -/
def delegatedLan (text : String) : Option DelegatedLan :=
  match cidr text with
  | some (.v6 address, len) =>
      if len > 64 then none
      else
        let subnet := address &&& prefixMask 128 len &&& (BitVec.allOnes 128 <<< 64)
        some {
          addressCidr := s!"{displayIpv6 (subnet ||| 1)}/64"
          subnetCidr := s!"{displayIpv6 subnet}/64"
          poolStart := displayIpv6 (subnet ||| 0x100)
          poolEnd := displayIpv6 (subnet ||| 0x1ff) }
  | _ => none

/-- The LAN prefix, which must leave room for hosts. -/
def lanNetwork (lanPrefix : Option String) : Except String (Option (Ipv4Addr × Nat)) :=
  match nonEmpty lanPrefix with
  | some value =>
      match cidr value with
      | some (.v4 ip, len) =>
          if 1 ≤ len ∧ len ≤ 30 then .ok (some (ip, len))
          else .error "invalid lan_prefix IPv4 CIDR"
      | _ => .error "invalid lan_prefix IPv4 CIDR"
  | none => .ok none

/-- The first and last address of a DHCP pool. -/
def poolBounds (pool : String) : Except String (Ipv4Addr × Ipv4Addr) := do
  let (first, last) := (splitOnce pool '-').getD (pool, pool)
  let first ← okOr (parseIpv4 (trim first)) "invalid dhcp_pool start"
  let last ← okOr (parseIpv4 (trim last)) "invalid dhcp_pool end"
  return (first, last)

def poolInside (lan : Option (Ipv4Addr × Nat)) (pool : String) : Except String Unit := do
  let (first, last) ← poolBounds pool
  ensure (first.toNat ≤ last.toNat) "dhcp_pool start exceeds end"
  let (base, len) := lan.getD (first, 24)
  let mask := prefixMask 32 len
  ensure (first &&& mask == base &&& mask && last &&& mask == base &&& mask)
    "dhcp_pool is outside lan_prefix"

def addressing (lanPrefix dhcpPool wanPd : Option String) : Except String Unit := do
  let lan ← lanNetwork lanPrefix
  forM (nonEmpty dhcpPool) (poolInside lan)
  forM (nonEmpty wanPd) fun pd => ensure (delegatedLan pd).isSome "invalid wan_pd IPv6 prefix"

example : (delegatedLan "fd53:0001:0001:00ff:0000:0000:0000:0000/56").map (·.poolEnd) =
    some "fd53:1:1::1ff" := by decide +kernel

example : addressing (some "192.168.1.0/31") none none = .error "invalid lan_prefix IPv4 CIDR" := by
  decide +kernel

end BootstrapValues

end Fwos
