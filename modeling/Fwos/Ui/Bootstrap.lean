import Fwos.Identity.Store
import Fwos.Netd.Bootstrap
import Fwos.Revalidate

/-!
# The two Bootstrap validators

The UI checks a Bootstrap request (`ui.rs`), writes the hostname and the first
administrator, and only then sends netd the Desired state it builds from the
request. netd checks that state on its own.

* `bootstrapChecks`: every check of the UI on the content of a request.
* `validate_desired_iff`: what netd's `validate` asks of an accepted request beyond
  those checks.
* `checkBootstrap_eq_ok`: netd's Bootstrap rejects what `validate` rejects and no more.
-/

namespace Fwos

open Rust

structure BootIface where
  name : String
  placement : String := ""
  role : Option String := none
  addresses : List String := []
  vlan : Option Nat := none
  parent : Option String := none
  dhcp : Bool := false
deriving DecidableEq, Repr

/-- The body of a request, `Bootstrap` in the source. -/
structure BootstrapRequest where
  hostname : String
  admin : String
  password : String
  interfaces : List BootIface := []
  uiExposure : List String := []
  lanPrefix : String := ""
  dhcpPool : String := ""
  wanPd : String := ""
deriving DecidableEq, Repr

namespace BootIface

def hasRole (iface : BootIface) (role : String) : Bool := iface.role == some role

/-- The interface as it passes through JSON; the fields it does not have are absent. -/
def desired (iface : BootIface) : Iface := {
  name := iface.name, placement := iface.placement, role := iface.role
  addresses := iface.addresses, vlan := iface.vlan, parent := iface.parent, dhcp := iface.dhcp }

end BootIface

/-! ## The checks of the UI -/

def validHostname (name : String) : Bool :=
  match name.toList with
  | [] => false
  | first :: _ =>
      first.isAlphanum && name.utf8ByteSize ≤ 253 &&
        name.toList.all (fun c => c.isAlphanum || c == '-' || c == '.') &&
        !startsWith name "-" && name.toList.getLast? != some '-'

def bootL2Key (iface : BootIface) : String × Option Nat :=
  let tagged := if iface.vlan.isSome then
    ((rsplitOnce iface.name '.').map Prod.fst).getD iface.name else iface.name
  (iface.parent.getD tagged, iface.vlan)

def validateBootMgmt (iface : BootIface) : Except String Unit := do
  ensure (iface.vlan.isNone && iface.parent.isNone) "Management NIC owns the whole parent"
  ensure (!iface.dhcp) "Management NIC is on-link static; no DHCP"
  ensure (!iface.addresses.isEmpty) "Management NIC needs an on-link static prefix"

def validateBootIface (iface : BootIface) : Except String Unit := do
  BootstrapValues.interface iface.name iface.parent iface.vlan iface.addresses
  ensure (!(trim iface.name).isEmpty) "missing NIC name"
  ensure (iface.placement != "mgmt") "placement=mgmt is not a contract; use roles and ui_exposure"
  ensure (iface.placement.isEmpty || iface.placement == "fwd")
    "placement is not a contract; use roles and ui_exposure"
  forM iface.role fun role =>
    ensure (["wan", "lan", "unused", "stick", "mgmt"].contains role) s!"unknown role {role}"
  if iface.hasRole "mgmt" then validateBootMgmt iface

namespace BootstrapRequest

def wans (req : BootstrapRequest) : List BootIface := req.interfaces.filter (·.hasRole "wan")
def lans (req : BootstrapRequest) : List BootIface := req.interfaces.filter (·.hasRole "lan")
def mgmts (req : BootstrapRequest) : List BootIface := req.interfaces.filter (·.hasRole "mgmt")

end BootstrapRequest

def validateBootZones (req : BootstrapRequest) : Except String Unit := do
  ensure (!req.wans.isEmpty) "need at least one WAN"
  ensure (!req.lans.isEmpty) "need at least one LAN"
  ensure (req.wans.all fun wan => req.lans.all fun lan => bootL2Key wan != bootL2Key lan)
    "WAN and LAN must not share the same parent and tag"
  let mgmtParents := req.mgmts.map fun iface => (bootL2Key iface).1
  ensure ((req.wans ++ req.lans).all fun iface => !mgmtParents.contains (bootL2Key iface).1)
    "WAN or LAN must not share a parent with a Management NIC"

def validateBootExposed (req : BootstrapRequest) (name : String) : Except String Unit := do
  let iface ← okOr (req.interfaces.find? (·.name == name))
    s!"ui_exposure {name} is not an interface"
  ensure (!iface.hasRole "wan") "ui_exposure cannot include a WAN"

def validateBootExposure (req : BootstrapRequest) : Except String Unit := do
  ensure (!req.uiExposure.isEmpty) "ui_exposure must not be empty"
  forM req.uiExposure (validateBootExposed req)
  forM req.mgmts fun mgmt =>
    ensure (req.uiExposure.contains mgmt.name) "Management NIC must be in ui_exposure"

def validateBootstrap (req : BootstrapRequest) : Except String Unit := do
  forM req.interfaces validateBootIface
  validateBootZones req
  validateBootExposure req
  BootstrapValues.addressing (some (trim req.lanPrefix)) (some (trim req.dhcpPool))
    (some (trim req.wanPd))

/-- The checks of `bootstrap` on the content of the request, before it writes anything. -/
def bootstrapChecks (req : BootstrapRequest) : Except String Unit := do
  ensure (validHostname (trim req.hostname)) "invalid hostname"
  ensure (validUsername (trim req.admin)) "invalid admin"
  ensure (validPassword req.password)
    "password must contain 1–511 bytes without ASCII control characters"
  ensure (!req.interfaces.isEmpty) "missing interfaces"
  validateBootstrap req

/-- The Desired state that `bootstrap` sends to netd; empty services are left out. -/
def BootstrapRequest.desired (req : BootstrapRequest) : DesiredState := {
  hostname := some (trim req.hostname)
  interfaces := req.interfaces.map BootIface.desired
  uiExposure := req.uiExposure
  lanPrefix := nonEmpty (some (trim req.lanPrefix))
  dhcpPool := nonEmpty (some (trim req.dhcpPool))
  wanPd := nonEmpty (some (trim req.wanPd)) }

/-- No Management NIC is named like a VLAN of another interface. -/
def mgmtNamesWhole (req : BootstrapRequest) : Bool :=
  req.mgmts.all fun mgmt => !containsChar mgmt.name '.'

namespace BootstrapLemmas

variable {req : BootstrapRequest}

theorem filter_desired (role : String) :
    req.desired.interfaces.filter (·.hasRole role) =
      (req.interfaces.filter (·.hasRole role)).map BootIface.desired := by
  rw [BootstrapRequest.desired, List.filter_map]
  rfl

theorem l2Key_desired {iface : BootIface} : l2Key iface.desired = bootL2Key iface := rfl

theorem wans_desired : wans req.desired = req.wans.map BootIface.desired := filter_desired "wan"
theorem lans_desired : lans req.desired = req.lans.map BootIface.desired := filter_desired "lan"
theorem mgmts_desired : mgmts req.desired = req.mgmts.map BootIface.desired := filter_desired "mgmt"

theorem validateZones_desired : validateZones req.desired = validateBootZones req := by
  simp only [validateZones, validateBootZones, wans_desired, lans_desired, mgmts_desired,
    ← List.map_append, List.isEmpty_map, List.all_map, List.map_map, Function.comp_def,
    l2Key_desired]

theorem validateExposed_desired {name : String} :
    validateExposed req.desired name = validateBootExposed req name := by
  simp only [validateExposed, validateBootExposed, BootstrapRequest.desired, List.find?_map]
  have hname : ((fun iface : Iface => iface.name == name) ∘ BootIface.desired) =
      fun iface : BootIface => iface.name == name := rfl
  rw [hname]
  cases req.interfaces.find? (·.name == name) <;> rfl

theorem validateExposure_desired :
    validateExposure req.desired = .ok () ↔ validateBootExposure req = .ok () := by
  simp only [validateExposure, validateBootExposure, mgmts_desired, validateExposed_desired,
    bind_eq_ok, forM_eq_ok, List.forall_mem_map]
  rfl

theorem nonEmpty_nonEmpty (value : Option String) : nonEmpty (nonEmpty value) = nonEmpty value := by
  simp [nonEmpty]

theorem addressing_nonEmpty (lanPrefix dhcpPool wanPd : Option String) :
    BootstrapValues.addressing (nonEmpty lanPrefix) (nonEmpty dhcpPool) (nonEmpty wanPd) =
      BootstrapValues.addressing lanPrefix dhcpPool wanPd := by
  simp only [BootstrapValues.addressing, BootstrapValues.lanNetwork, nonEmpty_nonEmpty]

theorem addressing_desired :
    BootstrapValues.addressing req.desired.lanPrefix req.desired.dhcpPool req.desired.wanPd =
      BootstrapValues.addressing (some (trim req.lanPrefix)) (some (trim req.dhcpPool))
        (some (trim req.wanPd)) := by
  simp only [BootstrapRequest.desired, addressing_nonEmpty]

theorem validateIpv6_desired : validateIpv6 req.desired = .ok () := by
  have hcount : req.desired.interfaces.countP (·.requestPd) = 0 := by
    simp [BootstrapRequest.desired, BootIface.desired, List.countP_map, Function.comp_def]
  simp only [validateIpv6, bind_eq_ok, forM_eq_ok, ensure_eq_ok, hcount]
  refine ⟨(), fun iface hi => ?_, (), rfl, rfl⟩
  obtain ⟨boot, -, rfl⟩ := List.mem_map.mp hi
  rfl

/-- On an interface the UI accepted, netd only asks for a whole name of a Management NIC. -/
theorem validateRole_desired {iface : BootIface} (h : validateBootIface iface = .ok ()) :
    validateRole iface.desired = .ok () ↔
      (iface.hasRole "mgmt" = true → containsChar iface.name '.' = false) := by
  simp only [validateBootIface, bind_eq_ok, option_forM_eq_ok, ensure_eq_ok] at h
  obtain ⟨-, -, -, -, -, hplacement, -, -, -, hrole, hmgmt⟩ := h
  have hm : iface.desired.isMgmt = iface.hasRole "mgmt" := rfl
  simp only [validateRole, bind_eq_ok, option_forM_eq_ok, ensure_eq_ok, hm]
  cases hr : iface.hasRole "mgmt" with
  | false =>
    simp only [Bool.false_eq_true, if_false, false_implies, iff_true]
    exact ⟨(), hplacement, (), hrole, rfl⟩
  | true =>
    simp only [hr, if_true, validateBootMgmt, bind_eq_ok, ensure_eq_ok, Bool.and_eq_true,
      Bool.not_eq_true'] at hmgmt
    obtain ⟨-, ⟨hvlan, hparent⟩, -, hdhcp, haddrs⟩ := hmgmt
    simp only [if_true, true_implies, validateMgmtIface, bind_eq_ok, ensure_eq_ok,
      Bool.and_eq_true, Bool.not_eq_true']
    constructor
    · rintro ⟨-, -, -, -, -, ⟨-, hname⟩, -⟩
      exact hname
    · intro hname
      exact ⟨(), hplacement, (), hrole, (), ⟨⟨hvlan, hparent⟩, hname⟩, (), hdhcp, haddrs⟩

theorem validateWireguard_desired [Base64] : validateWireguard req.desired = .ok () := by
  have hnone : req.desired.wireguard = [] := rfl
  rw [validateWireguard, hnone]
  rfl

theorem validateRoutes_desired : validateRoutes req.desired = .ok () := by
  have hnone : req.desired.routes = [] := rfl
  rw [validateRoutes, hnone]
  rfl

end BootstrapLemmas

open BootstrapLemmas

/-- netd accepts the state of a request that the UI accepted exactly if its LAN
services match the LAN interface and no Management NIC has a dot in its name. -/
theorem validate_desired_iff [Base64] {req : BootstrapRequest} (h : bootstrapChecks req = .ok ()) :
    validate req.desired = .ok () ↔
      lanServicesMatchInterface req.desired = .ok () ∧ mgmtNamesWhole req = true := by
  simp only [bootstrapChecks, validateBootstrap, bind_eq_ok, forM_eq_ok] at h
  obtain ⟨-, -, -, -, -, -, -, -, -, hifaces, _, hzones, _, hexposure, haddr⟩ := h
  have hroles : (∀ iface ∈ req.desired.interfaces, validateRole iface = .ok ()) ↔
      mgmtNamesWhole req = true := by
    simp only [mgmtNamesWhole, BootstrapRequest.mgmts, List.all_filter, List.all_eq_true,
      BootstrapRequest.desired, List.forall_mem_map]
    refine forall₂_congr fun iface hi => ?_
    rw [validateRole_desired (hifaces iface hi)]
    cases iface.hasRole "mgmt" <;> simp
  rw [validate_iff]
  constructor
  · intro ha
    exact ⟨ha.lanServices, hroles.mp ha.roles⟩
  · rintro ⟨hlan, hnames⟩
    refine {
      interfaces := List.forall_mem_map.mpr fun iface hi => ?_
      addressing := addressing_desired.trans haddr
      lanServices := hlan
      ipv6 := validateIpv6_desired
      policy := fun rule hr => absurd hr List.not_mem_nil
      wireguard := validateWireguard_desired
      qdiscs := fun qdisc hq => absurd hq List.not_mem_nil
      routes := validateRoutes_desired
      roles := hroles.mpr hnames
      zones := validateZones_desired.trans hzones
      exposure := validateExposure_desired.mpr hexposure }
    have hiface := hifaces iface hi
    simp only [validateBootIface, bind_eq_ok] at hiface
    obtain ⟨_, hvalues, -⟩ := hiface
    exact hvalues

/-- netd's Bootstrap repeats checks of `validate`, so its verdict on a state is the same. -/
theorem checkBootstrap_eq_ok [Base64] {state : DesiredState} :
    checkBootstrap (some (.ok state)) = .ok state ↔ validate state = .ok () := by
  constructor
  · intro h
    simp only [checkBootstrap, bind_eq_ok, okOr_eq_ok, Option.some.injEq] at h
    obtain ⟨_, rfl, state', hs, _, hv, -⟩ := h
    obtain rfl : state = state' := by simpa [Except.mapError] using hs
    exact hv
  · intro h
    have ha := validate_iff.mp h
    simp only [checkBootstrap, bind_eq_ok, okOr_eq_ok, Option.some.injEq]
    exact ⟨_, rfl, state, rfl, (), h, (), forM_eq_ok.mpr ha.interfaces, (), ha.addressing, (),
      ha.lanServices, rfl⟩

namespace Ui.Bootstrap

def request : BootstrapRequest := {
  hostname := "fwos", admin := "admin", password := "hunter2"
  interfaces := [
    { name := "enp1s0", role := some "lan", addresses := ["192.168.1.1/24"] },
    { name := "enp2s0", role := some "wan", dhcp := true },
    { name := "enp3s0", role := some "mgmt", addresses := ["10.0.2.15/24"] }]
  uiExposure := ["enp1s0", "enp3s0"]
  lanPrefix := " 192.168.1.0/24" }

/-- The UI accepts a LAN prefix that none of the LAN's addresses is in; netd rejects it. -/
theorem other_prefix_rejected :
    bootstrapChecks { request with lanPrefix := "10.1.0.0/24" } = .ok () ∧
      (@validate Revalidate.noKeys (BootstrapRequest.desired
        { request with lanPrefix := "10.1.0.0/24" })) =
        .error "LAN prefix does not match a LAN interface address" := by
  decide +kernel

theorem validate_request :
    letI := Revalidate.noKeys
    validate request.desired = .ok () :=
  letI := Revalidate.noKeys
  (validate_desired_iff (by decide +kernel)).mpr (by decide +kernel)

end Ui.Bootstrap

end Fwos
