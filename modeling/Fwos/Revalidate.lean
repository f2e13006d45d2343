import Fwos.Complete

/-!
# Whether a completed state is accepted again

`apply` validates a state, completes it and persists the result, and the next
start validates what was persisted. Each check but one is indifferent to the
addresses that a completion adds (`Accepts.extends_iff`). The check of the LAN
services is not: it holds again exactly if the live addresses copied into the
first LAN are in the network of its services, or the service address can join
them (`validate_complete_iff`).
-/

namespace Fwos

open Rust

/-! ## Checks that do not read interface addresses -/

def Iface.bare (iface : Iface) : Iface := { iface with addresses := [] }

def DesiredState.bare (state : DesiredState) : DesiredState :=
  { state with interfaces := state.interfaces.map Iface.bare }

namespace RevalidateLemmas

variable {state old new : DesiredState}

theorem extends_bare (h : old.Extends new) : new.bare = old.bare := by
  have hi : ∀ {old new : List Iface}, List.Forall₂ Iface.Extends old new →
      new.map Iface.bare = old.map Iface.bare := by
    intro old new hf
    induction hf with
    | nil => rfl
    | cons hab _ ih =>
      simp only [List.map_cons, ih, List.cons.injEq, and_true]
      rw [← hab.same]
      rfl
  rw [← h.same]
  simp [DesiredState.bare, hi h.interfaces]

@[simp] theorem bare_isWan {iface : Iface} : iface.bare.isWan = iface.isWan := rfl
@[simp] theorem bare_isLan {iface : Iface} : iface.bare.isLan = iface.isLan := rfl
@[simp] theorem bare_isMgmt {iface : Iface} : iface.bare.isMgmt = iface.isMgmt := rfl
@[simp] theorem bare_name {iface : Iface} : iface.bare.name = iface.name := rfl
@[simp] theorem bare_requestPd {iface : Iface} : iface.bare.requestPd = iface.requestPd := rfl
@[simp] theorem bare_l2Key {iface : Iface} : l2Key iface.bare = l2Key iface := rfl

theorem find_bare (p : Iface → Bool) (hp : ∀ iface : Iface, p iface.bare = p iface) :
    state.bare.interfaces.find? p = (state.interfaces.find? p).map Iface.bare := by
  simp only [DesiredState.bare, List.find?_map]
  congr 2
  exact funext hp

theorem filter_bare (p : Iface → Bool) (hp : ∀ iface : Iface, p iface.bare = p iface) :
    state.bare.interfaces.filter p = (state.interfaces.filter p).map Iface.bare := by
  simp only [DesiredState.bare, List.filter_map]
  congr 2
  exact funext hp

theorem validateIpv6_bare : validateIpv6 state.bare = .ok () ↔ validateIpv6 state = .ok () := by
  have hc : state.bare.interfaces.countP (·.requestPd) = state.interfaces.countP (·.requestPd) := by
    simp only [DesiredState.bare, List.countP_map]
    rfl
  have hs : staticLanPrefix state.bare = staticLanPrefix state := rfl
  simp only [validateIpv6, bind_eq_ok, forM_eq_ok, hc, hs]
  simp only [DesiredState.bare, List.forall_mem_map]
  rfl

theorem validatePolicyRule_bare {rule : String} :
    validatePolicyRule state.bare rule = validatePolicyRule state rule := by
  have hi : ∀ rule verdict,
      validatePolicyIface state.bare rule verdict = validatePolicyIface state rule verdict := by
    intro rule verdict
    unfold validatePolicyIface
    split
    next name _ =>
      rw [find_bare _ fun _ => rfl]
      cases state.interfaces.find? (·.name == name) <;> rfl
    · rfl
  simp only [validatePolicyRule, hi]

theorem knownDev_bare {dev : String} : knownDev state.bare dev = knownDev state dev := by
  simp only [knownDev, DesiredState.bare, List.any_map]
  rfl

theorem validateZones_bare : validateZones state.bare = validateZones state := by
  simp only [validateZones, wans, lans, mgmts]
  rw [filter_bare _ fun _ => rfl, filter_bare _ fun _ => rfl, filter_bare _ fun _ => rfl]
  simp only [List.isEmpty_map, List.all_map, List.map_map, ← List.map_append]
  rfl

theorem validateExposure_bare :
    validateExposure state.bare = .ok () ↔ validateExposure state = .ok () := by
  have he : ∀ name, validateExposed state.bare name = validateExposed state name := by
    intro name
    unfold validateExposed
    rw [find_bare _ fun _ => rfl]
    cases state.interfaces.find? (·.name == name) <;> rfl
  simp only [validateExposure, mgmts, he, bind_eq_ok, forM_eq_ok]
  rw [filter_bare _ fun _ => rfl]
  simp only [List.forall_mem_map]
  rfl

/-! ## Routes -/

theorem lanL2_extends (h : old.Extends new) :
    (lanL2 new).map Iface.bare = (lanL2 old).map Iface.bare := by
  rw [lanL2, lanL2, ← find_bare _ fun _ => rfl, ← find_bare _ fun _ => rfl, extends_bare h]

theorem exists_extends (h : old.Extends new) {iface : Iface} (hi : iface ∈ old.interfaces) :
    ∃ iface' ∈ new.interfaces, iface.Extends iface' := by
  have hf := h.interfaces
  generalize old.interfaces = olds, new.interfaces = news at hf hi
  induction hf with
  | nil => cases hi
  | cons hab _ ih =>
    rcases List.mem_cons.mp hi with rfl | hi
    · exact ⟨_, List.mem_cons_self, hab⟩
    · obtain ⟨iface', hi', he⟩ := ih hi
      exact ⟨iface', List.mem_cons_of_mem _ hi', he⟩

theorem exists_extended (h : old.Extends new) {iface' : Iface} (hi : iface' ∈ new.interfaces) :
    ∃ iface ∈ old.interfaces, iface.Extends iface' := by
  have hf := h.interfaces
  generalize old.interfaces = olds, new.interfaces = news at hf hi
  induction hf with
  | nil => cases hi
  | cons hab _ ih =>
    rcases List.mem_cons.mp hi with rfl | hi
    · exact ⟨_, List.mem_cons_self, hab⟩
    · obtain ⟨iface, hi', he⟩ := ih hi
      exact ⟨iface, List.mem_cons_of_mem _ hi', he⟩

theorem managementGateway_extends (h : old.Extends new) {gateway : IpAddr} {dev : Option String}
    (hg : managementGateway old gateway dev = false) : managementGateway new gateway dev = false := by
  simp only [managementGateway, List.any_eq_false, Bool.and_eq_true, not_and] at hg ⊢
  intro iface' hi' hm
  obtain ⟨iface, hi, he⟩ := exists_extended h hi'
  have hm' : iface.isMgmt = true := by rw [← he.same]; exact hm
  rw [he.mgmt hm']
  exact hg iface hi hm'

theorem routeNextHopOnLink_extends (h : old.Extends new) {gateway : IpAddr} {dev : Option String}
    (hg : routeNextHopOnLink old gateway dev = true) : routeNextHopOnLink new gateway dev = true := by
  have hlan : ∀ name, (lanL2 new).any (·.name == name) = (lanL2 old).any (·.name == name) := by
    intro name
    have := congrArg (Option.any (·.name == name)) (lanL2_extends h)
    rwa [Option.any_map, Option.any_map] at this
  have haddr : lanServiceAddress new = lanServiceAddress old := by
    rw [← h.same]
    rfl
  have hwg : new.wireguard = old.wireguard := by
    rw [← h.same]
  simp only [routeNextHopOnLink, Bool.or_eq_true, List.any_eq_true, hlan, haddr, hwg] at hg ⊢
  refine hg.imp_left ?_
  rintro ⟨iface, hi, hon⟩
  obtain ⟨iface', hi', he⟩ := exists_extends h hi
  refine ⟨iface', hi', ?_⟩
  have hname : iface'.name = iface.name := by rw [← he.same]
  have hmgmt : iface'.isMgmt = iface.isMgmt := by rw [← he.same]; rfl
  simp only [onLink, hname, hmgmt, Bool.and_eq_true, List.any_eq_true, List.mem_append] at hon ⊢
  obtain ⟨hm, hd, address, hmem, hgw⟩ := hon
  exact ⟨hm, hd, address, hmem.imp_left (he.addresses ·), hgw⟩

theorem validateRoute_extends (h : old.Extends new) {seen seen' : List (IpAddr × Nat)}
    {route : StaticRoute} (hr : validateRoute old seen route = .ok seen') :
    validateRoute new seen route = .ok seen' := by
  have hk : ∀ dev, knownDev new dev = knownDev old dev := fun dev => by
    rw [← knownDev_bare, extends_bare h, knownDev_bare]
  simp only [validateRoute, bind_eq_ok, ensure_eq_ok, Bool.not_eq_true'] at hr ⊢
  obtain ⟨dest, hdest, gateway, hgw, u1, h1, u2, h2, u3, h3, u4, h4, u5, h5, hs⟩ := hr
  exact ⟨dest, hdest, gateway, hgw, u1, h1, u2, h2, u3, by simpa only [hk] using h3, u4,
    managementGateway_extends h h4, u5, routeNextHopOnLink_extends h h5, hs⟩

theorem validateRoutes_extends (h : old.Extends new) (hr : validateRoutes old = .ok ()) :
    validateRoutes new = .ok () := by
  have hroutes : new.routes = old.routes := by rw [← h.same]
  have fold : ∀ {routes : List StaticRoute} {seen seen' : List (IpAddr × Nat)},
      routes.foldlM (validateRoute old) seen = .ok seen' →
        routes.foldlM (validateRoute new) seen = .ok seen' := by
    intro routes
    induction routes with
    | nil => exact id
    | cons route routes ih =>
      intro seen seen' hf
      rw [List.foldlM_cons, bind_eq_ok] at hf ⊢
      obtain ⟨mid, hm, hf⟩ := hf
      exact ⟨mid, validateRoute_extends h hm, ih hf⟩
  simp only [validateRoutes, bind_eq_ok, hroutes] at hr ⊢
  obtain ⟨seen, hf, hu⟩ := hr
  exact ⟨seen, fold hf, hu⟩

/-! ## Interfaces and roles -/

theorem validateIface_extends {iface iface' : Iface} (he : iface.Extends iface')
    (hi : validateIface iface = .ok ())
    (ha : ∀ a ∈ iface'.addresses, (BootstrapValues.cidr a).isSome = true) :
    validateIface iface' = .ok () := by
  have hn : iface'.name = iface.name := by rw [← he.same]
  have hp : iface'.parent = iface.parent := by rw [← he.same]
  have hv : iface'.vlan = iface.vlan := by rw [← he.same]
  simp only [validateIface, BootstrapValues.interface, bind_eq_ok, forM_eq_ok, ensure_eq_ok,
    hn, hp, hv] at hi ⊢
  obtain ⟨u1, h1, u2, h2, u3, h3, -⟩ := hi
  exact ⟨u1, h1, u2, h2, u3, h3, ha⟩

theorem validateRole_extends {iface iface' : Iface} (he : iface.Extends iface')
    (hi : validateRole iface = .ok ()) : validateRole iface' = .ok () := by
  by_cases hm : iface.isMgmt = true
  · rwa [he.mgmt hm]
  · have hm' : iface'.isMgmt = iface.isMgmt := by rw [← he.same]; rfl
    have hp : iface'.placement = iface.placement := by rw [← he.same]
    have hr : iface'.role = iface.role := by rw [← he.same]
    have hf : iface.isMgmt = false := by simpa using hm
    simpa only [validateRole, hm', hp, hr, hf, Bool.false_eq_true, if_false] using hi

end RevalidateLemmas

open RevalidateLemmas

/-- Among the states that extend an accepted one with well-formed addresses, only
the check of the LAN services decides. -/
theorem Accepts.extends_iff [Base64] {old new : DesiredState} (ha : Accepts old)
    (h : old.Extends new)
    (haddr : ∀ iface ∈ new.interfaces, ∀ a ∈ iface.addresses,
      (BootstrapValues.cidr a).isSome = true) :
    Accepts new ↔ lanServicesMatchInterface new = .ok () := by
  refine ⟨fun hn => hn.lanServices, fun hl => ?_⟩
  have hb := extends_bare h
  refine {
    interfaces := fun iface' hi' => ?_
    addressing := ?_
    lanServices := hl
    ipv6 := ?_
    policy := fun rule hr => ?_
    wireguard := ?_
    qdiscs := fun qdisc hq => ?_
    routes := validateRoutes_extends h ha.routes
    roles := fun iface' hi' => ?_
    zones := ?_
    exposure := ?_ }
  · obtain ⟨iface, hi, he⟩ := exists_extended h hi'
    exact validateIface_extends he (ha.interfaces iface hi) (haddr iface' hi')
  · have := ha.addressing
    rwa [← h.same] at this
  · rw [← validateIpv6_bare, hb, validateIpv6_bare]
    exact ha.ipv6
  · rw [← validatePolicyRule_bare, hb, validatePolicyRule_bare]
    exact ha.policy rule (by rwa [← h.same])
  · have := ha.wireguard
    rwa [← h.same] at this
  · have hq' : qdisc ∈ old.qdiscs := by rwa [← h.same]
    have := ha.qdiscs qdisc hq'
    unfold validateQdisc at this ⊢
    rwa [← knownDev_bare, hb, knownDev_bare]
  · obtain ⟨iface, hi, he⟩ := exists_extended h hi'
    exact validateRole_extends he (ha.roles iface hi)
  · rw [← validateZones_bare, hb, validateZones_bare]
    exact ha.zones
  · rw [← validateExposure_bare, hb, validateExposure_bare]
    exact ha.exposure

/-- An accepted state has a LAN. -/
theorem Accepts.exists_lan [Base64] {state : DesiredState} (ha : Accepts state) :
    ∃ lan, lanL2 state = some lan := by
  have hz := ha.zones
  simp only [validateZones, bind_eq_ok, ensure_eq_ok, Bool.not_eq_true',
    List.isEmpty_eq_false_iff] at hz
  obtain ⟨-, -, -, hlans, -⟩ := hz
  obtain ⟨lan, hmem⟩ := List.exists_mem_of_ne_nil _ hlans
  obtain ⟨hmem, hl⟩ := List.mem_filter.mp hmem
  exact Option.isSome_iff_exists.mp (List.find?_isSome.mpr ⟨lan, hmem, hl⟩)

/-! ## The LAN services -/

/-- The addresses that the first LAN takes from the live ones. -/
def liveLanAddresses (live : Live) (state : DesiredState) : List String :=
  match lanL2 state with
  | some lan => if lan.addresses.isEmpty then (captureIface state live lan).getD [] else []
  | none => []

/-- The first LAN takes live addresses, a LAN prefix or pool is configured, no
live address is in its network, and the service address is not added: there is
none, or a live address has that host with another length. -/
def liveLanOutside (live : Live) (state : DesiredState) : Bool :=
  let addrs := liveLanAddresses live state
  !addrs.isEmpty &&
    (expectedLanPrefix state).any (fun (expected, _) =>
      !expected.any (addrs.filterMap ipv4Prefix).contains) &&
    ((lanServicePrefix state).bind firstV4Host).all fun host =>
      addrs.any fun a => startsWith a s!"{host}/"

namespace RevalidateLemmas

/-- A CIDR text whose address is IPv4. -/
structure IsIpv4Cidr (text : String) (a b c d n : Nat) : Prop where
  parts : ∃ front rest, splitOnce text '/' = some (front, rest) ∧ IsDotted front.toList a b c d ∧
    parseU8 rest = some n
  le : n ≤ 32

theorem ipv4Prefix_eq_some {text : String} {p : Ipv4Addr × Nat} :
    ipv4Prefix text = some p ↔
      ∃ a b c d n, IsIpv4Cidr text a b c d n ∧ p = (octetsToV4 a b c d &&& prefixMask 32 n, n) := by
  simp only [ipv4Prefix, Option.bind_eq_bind, Option.bind_eq_some_iff, Prod.exists,
    Option.ite_none_left_eq_some, Option.some.injEq, parseIpv4_eq_some]
  constructor
  · rintro ⟨front, rest, hs, ip, ⟨a, b, c, d, hd, rfl⟩, n, hn, hle, rfl⟩
    exact ⟨a, b, c, d, n, ⟨⟨front, rest, hs, hd, hn⟩, by omega⟩, rfl⟩
  · rintro ⟨a, b, c, d, n, ⟨⟨front, rest, hs, hd, hn⟩, hle⟩, rfl⟩
    exact ⟨front, rest, hs, _, ⟨a, b, c, d, hd, rfl⟩, n, hn, by omega, rfl⟩

theorem cidr_eq_v4 {text : String} {ip : Ipv4Addr} {n : Nat} :
    BootstrapValues.cidr text = some (.v4 ip, n) ↔
      ∃ a b c d, IsIpv4Cidr text a b c d n ∧ ip = octetsToV4 a b c d := by
  simp only [BootstrapValues.cidr, Option.bind_eq_bind, Option.bind_eq_some_iff, Prod.exists,
    Option.ite_none_left_eq_some, Option.some.injEq, Prod.mk.injEq]
  constructor
  · rintro ⟨front, rest, hs, _, hip, n, hn, hle, rfl, rfl⟩
    obtain ⟨a, b, c, d, hd, rfl⟩ := parseIpv4_eq_some.mp (parseIp_eq_v4.mp hip)
    simp only [IpAddr.isIpv4, if_true] at hle
    exact ⟨a, b, c, d, ⟨⟨front, rest, hs, hd, hn⟩, by omega⟩, rfl⟩
  · rintro ⟨a, b, c, d, ⟨⟨front, rest, hs, hd, hn⟩, hle⟩, rfl⟩
    exact ⟨front, rest, hs, _, parseIp_eq_v4.mpr (parseIpv4_eq_some.mpr ⟨a, b, c, d, hd, rfl⟩), n, hn,
      by simp only [IpAddr.isIpv4, if_true]; omega, rfl, rfl⟩

theorem cidr_of_ipv4Prefix {text : String} (h : (ipv4Prefix text).isSome = true) :
    (BootstrapValues.cidr text).isSome = true := by
  obtain ⟨p, hp⟩ := Option.isSome_iff_exists.mp h
  obtain ⟨a, b, c, d, n, hc, -⟩ := ipv4Prefix_eq_some.mp hp
  rw [cidr_eq_v4.mpr ⟨a, b, c, d, hc, rfl⟩]
  rfl

/-- The parts of a CIDR text around its only slash. -/
theorem IsIpv4Cidr.split {text : String} {a b c d n : Nat} (h : IsIpv4Cidr text a b c d n) :
    ∃ front rest : String, split text '/' = [front, rest] ∧ IsDotted front.toList a b c d ∧
      parseU8 rest = some n := by
  obtain ⟨front, rest, hs, hd, hn⟩ := h.parts
  obtain ⟨ht, -⟩ := splitOnce_eq_some.mp hs
  have hfront : ∀ x ∈ front.toList, (x == '/') = false := fun x hx => by
    rw [beq_eq_false_iff_ne]
    rintro rfl
    exact hd.not_mem (by decide) (by decide) hx
  have hrest : ∀ x ∈ rest.toList, (x == '/') = false := fun x hx => by
    rw [beq_eq_false_iff_ne]
    rintro rfl
    exact not_mem_of_parseUnsigned hn (by decide) (by decide) hx
  refine ⟨front, rest, ?_, hd, hn⟩
  simp [Rust.split, splitBy, ht, splitChars_append hfront, splitChars_of_not_mem hrest]

/-- The service address of a LAN prefix is in that prefix. -/
theorem serviceAddress_prefix {text host : String} {a b c d n : Nat}
    (h : IsIpv4Cidr text a b c d n) (hn : n ≤ 30) (hh : firstV4Host text = some host) :
    ipv4Prefix s!"{host}/{prefixLength text}" =
      some (octetsToV4 a b c d &&& prefixMask 32 n, n) := by
  obtain ⟨front, rest, hs, hd, hr⟩ := h.split
  have hlt := hd.lt
  have hhost : host = s!"{a}.{b}.{c}.{if d = 0 then 1 else d}" := by
    simp only [firstV4Host, beforeSlash, hs, List.head?_cons, Option.getD_some, dottedOctets,
      hd.split, Option.map_some, Option.some.injEq] at hh
    exact hh.symm
  have hlen : prefixLength text = rest := by simp [prefixLength, hs]
  have hdot : IsDotted host.toList a b c (if d = 0 then 1 else d) := by
    rw [hhost]
    exact isDotted_display hlt.1 hlt.2.1 hlt.2.2.1 (by split <;> omega)
  rw [ipv4Prefix_eq_some]
  refine ⟨a, b, c, _, n, ⟨⟨host, rest, ?_, hdot, hr⟩, by omega⟩, ?_⟩
  · rw [hlen, splitOnce_eq_some]
    exact ⟨by simp; rfl, hdot.not_mem (by decide) (by decide)⟩
  · split
    next h0 => rw [h0, mask_lowest_bit (d := 0) rfl (by omega)]
    · rfl

theorem dottedOctets_lt {text : String} {a b c d : Nat}
    (h : dottedOctets text = some (a, b, c, d)) : a < 256 ∧ b < 256 ∧ c < 256 ∧ d < 256 := by
  have hlt : ∀ x ∈ (Rust.split text '.').filterMap parseU8, x < 256 := by
    intro x hx
    obtain ⟨t, -, ht⟩ := List.mem_filterMap.mp hx
    have := (parseUnsigned_eq_some.mp ht).2.2.2
    omega
  unfold dottedOctets at h
  split at h
  next w x y z hl =>
    simp only [Option.some.injEq, Prod.mk.injEq] at h
    obtain ⟨rfl, rfl, rfl, rfl⟩ := h
    rw [hl] at hlt
    exact ⟨hlt _ (by simp), hlt _ (by simp), hlt _ (by simp), hlt _ (by simp)⟩
  · cases h

/-- The host of a prefix is dotted. -/
theorem firstV4Host_dotted {text host : String} (h : firstV4Host text = some host) :
    ∃ a b c d, IsDotted host.toList a b c d := by
  simp only [firstV4Host, Option.map_eq_some_iff, Prod.exists] at h
  obtain ⟨a, b, c, d, octets, rfl⟩ := h
  obtain ⟨ha, hb, hc, hd⟩ := dottedOctets_lt octets
  have hlast : (if d = 0 then 1 else d) < 256 := by split <;> omega
  exact ⟨a, b, c, _, isDotted_display ha hb hc hlast⟩

/-- A pool implies the network of its first address, with 24 bits. -/
theorem prefixFromPool_isIpv4Cidr {pool text : String} (h : prefixFromPool pool = some text) :
    ∃ a b c, IsIpv4Cidr text a b c 0 24 := by
  simp only [prefixFromPool, Option.map_eq_some_iff, Prod.exists] at h
  obtain ⟨a, b, c, d, ho, rfl⟩ := h
  obtain ⟨ha, hb, hc, -⟩ := dottedOctets_lt ho
  have hd : IsDotted (s!"{a}.{b}.{c}.{0}").toList a b c 0 :=
    isDotted_display ha hb hc (by omega)
  refine ⟨a, b, c, ⟨_, "24", splitOnce_eq_some.mpr ⟨?_, ?_⟩, hd, by decide⟩, by omega⟩
  · simp
    rfl
  · exact hd.not_mem (by decide) (by decide)

/-- What an accepted address configuration says about the service address: it is
in the network that the LAN services expect. -/
theorem serviceHost_expected {state : DesiredState} {text host : String}
    (haddr : BootstrapValues.addressing state.lanPrefix state.dhcpPool state.wanPd = .ok ())
    (ht : lanServicePrefix state = some text) (hh : firstV4Host text = some host) :
    ∃ p error, expectedLanPrefix state = some (some p, error) ∧
      ipv4Prefix s!"{host}/{prefixLength text}" = some p := by
  simp only [BootstrapValues.addressing, bind_eq_ok] at haddr
  obtain ⟨lan, hlan, -⟩ := haddr
  cases hp : state.lanPrefix with
  | some configured =>
    obtain rfl : configured = text := by simpa [lanServicePrefix, hp] using ht
    by_cases hne : configured.isEmpty = true
    · obtain rfl : configured = "" := by simpa using hne
      simp [show firstV4Host "" = none by decide] at hh
    · have hnon : nonEmpty state.lanPrefix = some configured := by
        simp [nonEmpty, hp, Option.filter, hne]
      simp only [BootstrapValues.lanNetwork, hnon] at hlan
      split at hlan
      next ip n hc =>
        split at hlan
        next hle =>
          obtain ⟨a, b, c, d, h4, rfl⟩ := cidr_eq_v4.mp hc
          have hpre := ipv4Prefix_eq_some.mpr ⟨a, b, c, d, n, h4, rfl⟩
          have he : expectedLanPrefix state =
              some (ipv4Prefix configured, "LAN prefix does not match a LAN interface address") := by
            simp only [expectedLanPrefix, hnon]
          exact ⟨_, _, by rw [he, hpre], serviceAddress_prefix h4 hle.2 hh⟩
        · cases hlan
      · cases hlan
  | none =>
    have ht' : state.dhcpPool.bind prefixFromPool = some text := by
      simpa [lanServicePrefix, hp] using ht
    obtain ⟨pool, hpool, htext⟩ := Option.bind_eq_some_iff.mp ht'
    have hne : pool.isEmpty = false := by
      by_contra hc
      obtain rfl : pool = "" := by simpa using hc
      simp [show prefixFromPool "" = none by decide] at htext
    have hnon : nonEmpty state.dhcpPool = some pool := by
      simp [nonEmpty, hpool, Option.filter, hne]
    obtain ⟨a, b, c, h4⟩ := prefixFromPool_isIpv4Cidr htext
    have hpre := ipv4Prefix_eq_some.mpr ⟨a, b, c, 0, 24, h4, rfl⟩
    have hnone : nonEmpty state.lanPrefix = none := by rw [hp]; rfl
    have he : expectedLanPrefix state = some ((prefixFromPool pool).bind ipv4Prefix,
        "DHCP pool does not match a LAN interface address") := by
      simp only [expectedLanPrefix, hnone, hnon, Option.map_some]
    exact ⟨_, _, by rw [he, htext, Option.bind_some, hpre], serviceAddress_prefix h4 (by omega) hh⟩

theorem find_modifyFirst {α : Type} {p : α → Bool} {change : α → α}
    (hc : ∀ a, p a = true → p (change a) = true) (list : List α) :
    (modifyFirst p change list).find? p = (list.find? p).map change := by
  induction list with
  | nil => rfl
  | cons a rest ih =>
    by_cases h : p a = true
    · simp [modifyFirst, h, hc a h]
    · simp [modifyFirst, h, ih]

theorem fillAddresses_isLan {captured : Option (List String)} {iface : Iface} :
    (fillAddresses captured iface).isLan = iface.isLan := by
  unfold fillAddresses
  split
  · split <;> rfl
  · rfl

theorem addServiceAddress_isLan {host length : String} {iface : Iface} :
    (addServiceAddress host length iface).isLan = iface.isLan := by
  unfold addServiceAddress
  dsimp only
  split <;> rfl

theorem lanL2_fillLive {live : Live} {state : DesiredState} :
    lanL2 (fillLive live state) =
      (lanL2 state).map fun lan => fillAddresses (captureIface state live lan) lan := by
  simp only [lanL2, fillLive, List.find?_map]
  congr 2
  exact funext fun _ => fillAddresses_isLan

theorem lanServices_iff {state : DesiredState} {lan : Iface} (hl : lanL2 state = some lan) :
    lanServicesMatchInterface state = .ok () ↔
      ∀ expected error, expectedLanPrefix state = some (expected, error) →
        lanInterfacePrefixes lan = [] ∨ ∃ p, expected = some p ∧ p ∈ lanInterfacePrefixes lan := by
  simp only [lanServicesMatchInterface, hl, option_forM_eq_ok, Option.some.injEq, forall_eq']
  split
  next h =>
    simp only [List.isEmpty_iff] at h
    simp [h]
  next h =>
    simp only [List.isEmpty_iff] at h
    simp only [option_forM_eq_ok, ensure_eq_ok, Prod.forall, h, false_or, Option.any_eq_true,
      List.contains_iff_mem]

/-- Adding the service address leaves a LAN that is in the expected network, unless
it already has that host address with another length. -/
theorem lanServices_merge {state : DesiredState} {lan : Iface} {p : Ipv4Addr × Nat}
    {text host error : String} (hl : lanL2 state = some lan)
    (ht : lanServicePrefix state = some text) (hh : firstV4Host text = some host)
    (he : expectedLanPrefix state = some (some p, error))
    (hp : ipv4Prefix s!"{host}/{prefixLength text}" = some p) :
    lanServicesMatchInterface (mergeLanPrefixAddr state) = .ok () ↔
      (lan.addresses.any (fun a => startsWith a s!"{host}/") = true →
        lanInterfacePrefixes lan = [] ∨ p ∈ lanInterfacePrefixes lan) := by
  have hmerge : mergeLanPrefixAddr state = { state with
      interfaces :=
        modifyFirst Iface.isLan (addServiceAddress host (prefixLength text)) state.interfaces } := by
    simp only [mergeLanPrefixAddr, ht, hh]
  have hl' : lanL2 (mergeLanPrefixAddr state) =
      some (addServiceAddress host (prefixLength text) lan) := by
    rw [hmerge, lanL2, find_modifyFirst fun a ha => addServiceAddress_isLan.trans ha]
    rw [lanL2] at hl
    rw [hl, Option.map_some]
  have he' : expectedLanPrefix (mergeLanPrefixAddr state) = some (some p, error) := by
    rw [hmerge]
    exact he
  rw [lanServices_iff hl', he']
  simp only [Option.some.injEq, Prod.mk.injEq, and_imp, forall_apply_eq_imp_iff, forall_eq',
    exists_eq_left']
  have hany : (lan.addresses.any fun a => a == s!"{host}/{prefixLength text}" ||
      startsWith a s!"{host}/") = lan.addresses.any fun a => startsWith a s!"{host}/" := by
    congr 1
    funext a
    rw [Bool.or_eq_right_iff_imp]
    intro ha
    rw [beq_iff_eq.mp ha, startsWith_iff]
    exact ⟨(prefixLength text).toList, by simp; rfl⟩
  unfold addServiceAddress
  simp only [hany]
  split
  next h => simp [h]
  next h =>
    refine iff_of_true (.inr ?_) fun hc => absurd hc h
    simp [lanInterfacePrefixes, hp]

theorem expectedLanPrefix_fillLive {live : Live} {state : DesiredState} :
    expectedLanPrefix (fillLive live state) = expectedLanPrefix state := rfl

theorem lanServicePrefix_fillLive {live : Live} {state : DesiredState} :
    lanServicePrefix (fillLive live state) = lanServicePrefix state := rfl

/-- What the first LAN has after the live addresses were copied: its own addresses,
or the live ones in place of none. -/
theorem fillAddresses_lan (live : Live) {state : DesiredState} {lan : Iface}
    (hl : lanL2 state = some lan) :
    (liveLanAddresses live state = [] →
      fillAddresses (captureIface state live lan) lan = lan) ∧
    (liveLanAddresses live state ≠ [] →
      (fillAddresses (captureIface state live lan) lan).addresses = liveLanAddresses live state) := by
  simp only [liveLanAddresses, hl, fillAddresses]
  cases captureIface state live lan with
  | none => simp
  | some addrs =>
    by_cases h : lan.addresses.isEmpty = true
    · by_cases ha : addrs = []
      · simp [ha]
      · simp [h, ha]
    · simp [h]

theorem mem_fillAddresses {captured : Option (List String)} {iface : Iface} {a : String}
    (h : a ∈ (fillAddresses captured iface).addresses) :
    a ∈ iface.addresses ∨ ∃ addrs, captured = some addrs ∧ a ∈ addrs := by
  unfold fillAddresses at h
  split at h
  next addrs =>
    split at h
    · exact .inr ⟨addrs, rfl, h⟩
    · exact .inl h
  · exact .inl h

/-- Where the addresses of a completed state come from: the live ones, the state
itself, or the service address. -/
theorem mem_complete {live : Live} {state : DesiredState} {iface : Iface} {a : String}
    (hi : iface ∈ (complete live state).interfaces) (ha : a ∈ iface.addresses) :
    (∃ old ∈ state.interfaces, a ∈ old.addresses) ∨
    (∃ name addrs, live name = some addrs ∧ a ∈ addrs) ∨
    (∃ text host, lanServicePrefix state = some text ∧ firstV4Host text = some host ∧
      a = s!"{host}/{prefixLength text}") := by
  have hfill : ∀ iface ∈ (fillLive live state).interfaces, a ∈ iface.addresses →
      (∃ old ∈ state.interfaces, a ∈ old.addresses) ∨
        ∃ name addrs, live name = some addrs ∧ a ∈ addrs := by
    intro iface hi ha
    obtain ⟨old, hold, rfl⟩ := List.mem_map.mp hi
    rcases mem_fillAddresses ha with ha | ⟨addrs, hc, ha⟩
    · exact .inl ⟨old, hold, ha⟩
    · unfold captureIface at hc
      split at hc
      · exact .inr ⟨old.name, addrs, hc, ha⟩
      · cases hc
  simp only [complete, mergeLanPrefixAddr, lanServicePrefix_fillLive] at hi
  split at hi
  · exact (hfill iface hi ha).imp_right .inl
  next text ht =>
    split at hi
    · exact (hfill iface hi ha).imp_right .inl
    next host hh =>
      rcases mem_modifyFirst hi with hi | ⟨lan, hlan, -, rfl⟩
      · exact (hfill iface hi ha).imp_right .inl
      · unfold addServiceAddress at ha
        dsimp only at ha
        split at ha
        · exact (hfill lan hlan ha).imp_right .inl
        · rcases List.mem_append.mp ha with ha | ha
          · exact (hfill lan hlan ha).imp_right .inl
          · exact .inr (.inr ⟨text, host, ht, hh, by simpa using ha⟩)

theorem lanServices_complete {live : Live} {state : DesiredState} {lan : Iface}
    (hl : lanL2 state = some lan)
    (haddr : BootstrapValues.addressing state.lanPrefix state.dhcpPool state.wanPd = .ok ())
    (hs : lanServicesMatchInterface state = .ok ())
    (hlive : ∀ name addrs, live name = some addrs → ∀ a ∈ addrs, (ipv4Prefix a).isSome = true) :
    lanServicesMatchInterface (complete live state) = .ok () ↔ liveLanOutside live state = false := by
  have hl' : lanL2 (fillLive live state) =
      some (fillAddresses (captureIface state live lan) lan) := by
    rw [lanL2_fillLive, hl, Option.map_some]
  obtain ⟨hkeep, hfill⟩ := fillAddresses_lan live hl
  have hlive' : ∀ a ∈ liveLanAddresses live state, (ipv4Prefix a).isSome = true := by
    intro a ha
    simp only [liveLanAddresses, hl, captureIface] at ha
    split at ha
    · split at ha
      · cases hc : live lan.name with
        | none => simp [hc] at ha
        | some addrs => exact hlive lan.name addrs hc a (by simpa [hc] using ha)
      · simp at ha
    · simp at ha
  rw [lanServices_iff hl] at hs
  have hne : liveLanAddresses live state ≠ [] →
      (liveLanAddresses live state).filterMap ipv4Prefix ≠ [] := by
    intro hne hnil
    obtain ⟨a, ha⟩ := List.exists_mem_of_ne_nil _ hne
    obtain ⟨p, hp⟩ := Option.isSome_iff_exists.mp (hlive' a ha)
    have := List.mem_filterMap.mpr ⟨a, ha, hp⟩
    simp [hnil] at this
  cases hh : (lanServicePrefix state).bind firstV4Host with
  | some host =>
    -- The service address is added unless the LAN has its host address.
    obtain ⟨text, ht, hh'⟩ := Option.bind_eq_some_iff.mp hh
    obtain ⟨p, error, he, hp⟩ := serviceHost_expected haddr ht hh'
    rw [complete, lanServices_merge hl' ht hh' he hp]
    by_cases hnil : liveLanAddresses live state = []
    · refine iff_of_true (fun _ => ?_) (by simp [liveLanOutside, hnil])
      rw [hkeep hnil]
      simpa using hs _ _ he
    · simp only [lanInterfacePrefixes, hfill hnil, hne hnil, false_or]
      simp [liveLanOutside, hnil, he, hh]
      grind
  | none =>
    -- Nothing is added: the copied addresses alone decide.
    have hmerge : complete live state = fillLive live state := by
      cases ht : lanServicePrefix state with
      | none => simp only [complete, mergeLanPrefixAddr, lanServicePrefix_fillLive, ht]
      | some text =>
        rw [ht, Option.bind_some] at hh
        simp only [complete, mergeLanPrefixAddr, lanServicePrefix_fillLive, ht, hh]
    rw [hmerge, lanServices_iff hl']
    by_cases hnil : liveLanAddresses live state = []
    · refine iff_of_true ?_ (by simp [liveLanOutside, hnil])
      rw [hkeep hnil]
      exact hs
    · simp only [lanInterfacePrefixes, hfill hnil, hne hnil, false_or, expectedLanPrefix_fillLive]
      cases he : expectedLanPrefix state with
      | none => simp [liveLanOutside, he]
      | some check =>
        obtain ⟨expected, error⟩ := check
        cases expected with
        | none => simp [liveLanOutside, he, hnil, hh]
        | some p =>
          obtain ⟨net, len⟩ := p
          simp [liveLanOutside, he, hnil, hh]

end RevalidateLemmas

open RevalidateLemmas

/-- An accepted state that `apply` completed is accepted again exactly if the live
addresses copied into its LAN do not leave the LAN services behind. -/
theorem validate_complete_iff [Base64] {live : Live} {state : DesiredState}
    (hv : validate state = .ok ())
    (hlive : ∀ name addrs, live name = some addrs → ∀ a ∈ addrs, (ipv4Prefix a).isSome = true) :
    validate (complete live state) = .ok () ↔ liveLanOutside live state = false := by
  have ha := validate_iff.mp hv
  have hmgmt : ∀ iface ∈ state.interfaces, iface.isMgmt = true → iface.addresses ≠ [] := by
    intro iface hi hm
    have hr := ha.roles iface hi
    simp only [validateRole, hm, if_true, validateMgmtIface, bind_eq_ok, ensure_eq_ok,
      Bool.not_eq_true', List.isEmpty_eq_false_iff] at hr
    obtain ⟨-, -, -, -, -, -, -, -, hne⟩ := hr
    exact hne
  have haddr : ∀ iface ∈ (complete live state).interfaces, ∀ a ∈ iface.addresses,
      (BootstrapValues.cidr a).isSome = true := by
    intro iface hi a hmem
    rcases mem_complete hi hmem with ⟨old, hold, hmem⟩ | ⟨name, addrs, hl, hmem⟩ |
      ⟨text, host, ht, hh, rfl⟩
    · have hold := ha.interfaces old hold
      simp only [validateIface, BootstrapValues.interface, bind_eq_ok, forM_eq_ok,
        ensure_eq_ok] at hold
      obtain ⟨-, -, -, -, -, -, hall⟩ := hold
      exact hall a hmem
    · exact cidr_of_ipv4Prefix (hlive name addrs hl a hmem)
    · obtain ⟨p, error, -, hp⟩ := serviceHost_expected ha.addressing ht hh
      exact cidr_of_ipv4Prefix (by rw [hp]; rfl)
  obtain ⟨lan, hlan⟩ := ha.exists_lan
  rw [validate_iff, ha.extends_iff (complete_extends hmgmt) haddr]
  exact lanServices_complete hlan ha.addressing ha.lanServices hlive

/-! ## A live address with another prefix length -/

namespace Revalidate

/-- A gateway whose LAN lists no address and serves 192.168.1.0/24. -/
def unaddressedLan : DesiredState := {
  interfaces := [
    { name := "enp1s0", role := some "wan", addresses := ["203.0.113.2/24"] },
    { name := "enp2s0", role := some "lan" }]
  lanPrefix := some "192.168.1.0/24"
  uiExposure := ["enp2s0"] }

def liveOn (name address : String) : Live := fun other => some (if other = name then [address] else [])

/-- No WireGuard key is decoded in these states. -/
@[reducible]
def noKeys : Base64 := ⟨fun _ => none⟩

/-- The LAN is live with the service address and another length. The service
address is then not added, and the state fails the check it has passed. -/
theorem completed_state_rejected :
    (@validate noKeys unaddressedLan).isOk = true ∧
    (ipv4Prefix "192.168.1.1/16").isSome = true ∧
    @validate noKeys (complete (liveOn "enp2s0" "192.168.1.1/16") unaddressedLan) =
      .error "LAN prefix does not match a LAN interface address" := by
  decide +kernel

theorem validate_complete_iff_service :
    letI := noKeys
    validate (complete (liveOn "enp2s0" "10.9.0.1/16") unaddressedLan) = .ok () :=
  letI := noKeys
  (validate_complete_iff (by decide +kernel) (by
    intro name addrs h a ha
    simp only [liveOn, Option.some.injEq] at h
    subst h
    split at ha
    · obtain rfl : a = "10.9.0.1/16" := by simpa using ha
      decide +kernel
    · simp at ha)).mpr (by decide +kernel)

end Revalidate

end Fwos
