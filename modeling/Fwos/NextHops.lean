import Fwos.Addresses
import Fwos.LanAddress

/-!
# Next hops and the addresses that apply configures

A static route is accepted if its next hop is on the link of a configured address.
`route_next_hop_on_link` derives the address of the LAN by itself, from the LAN
prefix alone. What `apply` configures is derived elsewhere: by
`merge_lan_prefix_addr` from the LAN prefix or the DHCP pool, and by
`desired_addresses` from the routed IPv6 prefix.

* `OnListedLink`: the next hop judged against the list of `apply`.
* `NextHopsAgree`: when the two judge alike.
* `next_hop_on_link_iff`: exactly then.
-/

namespace Fwos

open Rust

/-! ## The list of `apply` -/

/-- Whether the network of a CIDR has an address. -/
def cidrContains (text : String) (address : IpAddr) : Bool :=
  match BootstrapValues.cidr text, address with
  | some (.v4 own, bits), .v4 address =>
      address &&& prefixMask 32 bits == own &&& prefixMask 32 bits
  | some (.v6 own, bits), .v6 address =>
      address &&& prefixMask 128 bits == own &&& prefixMask 128 bits
  | _, _ => false

def cidrAddress (text : String) : Option IpAddr := (BootstrapValues.cidr text).map Prod.fst

/-- The state without its Management NICs. -/
def withoutMgmt (state : DesiredState) : DesiredState :=
  { state with interfaces := state.interfaces.filter (!·.isMgmt) }

/-- The pairs that `apply` configures on links other than Management NICs, those of
one device if one is given. -/
def trafficAddresses (files : PdFiles) (state : DesiredState) (device : Option String) :
    List (String × String) :=
  (desiredAddresses files (withoutMgmt (mergeLanPrefixAddr state))).filter fun entry =>
    device.all (· == entry.1)

/-- The next hop is in a listed network and is not itself a listed address. -/
structure OnListedLink (files : PdFiles) (state : DesiredState) (gateway : IpAddr)
    (device : Option String) : Prop where
  contained : ∃ entry ∈ trafficAddresses files state device, cidrContains entry.2 gateway = true
  notOwn : ∀ entry ∈ trafficAddresses files state device, cidrAddress entry.2 ≠ some gateway

/-! ## The condition -/

/-- The CIDRs written in the state for the links a next hop may be on. -/
def configuredCidrs (state : DesiredState) (device : Option String) : List String :=
  (state.interfaces.filter fun iface => !iface.isMgmt && device.all (· == iface.name)).flatMap
      (·.addresses) ++
    (state.wireguard.filter fun wg => device.all (· == wg.name)).flatMap (·.addresses)

/-- The LAN, if a next hop may be on it. -/
def nextHopLan (state : DesiredState) (device : Option String) : Option Iface :=
  (lanL2 state).filter fun lan => device.all (· == lan.name)

/-- The CIDRs written in the state, and what the LAN prefix gives the LAN. -/
def judgedCidrs (state : DesiredState) (device : Option String) : List String :=
  configuredCidrs state device ++
    ((nextHopLan state device).bind fun _ => lanServiceAddress state).toList

/-- What `apply` adds to the LAN. -/
def addedCidrs (state : DesiredState) (lan : Iface) : List String :=
  (mergedAddress state lan).toList ++ ((staticLanPrefix state).bind pdLanAddr).toList

/-- The next hop is an address of the appliance on the links it may be on. -/
def ownAddress (state : DesiredState) (gateway : IpAddr) (device : Option String) : Bool :=
  (configuredCidrs state device).any (cidrAddress · == some gateway) ||
    (nextHopLan state device).any fun lan =>
      (addedCidrs state lan).any (cidrAddress · == some gateway)

/-- Validation reads a LAN prefix with one slash, and no pool. -/
def serviceJudged (state : DesiredState) : Bool :=
  state.lanPrefix.any fun text => (split text '/').length == 2

/-- The addresses of the LAN that only one of the two derives: the service address
of a pool or of a prefix that validation does not read, that of a prefix whose host the
LAN lists already, and the one in the routed IPv6 prefix. -/
def derivedByOne (state : DesiredState) (lan : Iface) : List String :=
  let service := do
    let text ← lanServicePrefix state
    let host ← firstV4Host text
    if serviceJudged state == listsHost host lan then some s!"{host}/{prefixLength text}" else none
  service.toList ++ ((staticLanPrefix state).bind pdLanAddr).toList

/-- When validation and the list of `apply` judge a next hop alike. -/
structure NextHopsAgree (state : DesiredState) (gateway : IpAddr) (device : Option String) :
    Prop where
  /-- An address of the appliance is on the link of no other address. -/
  own : ownAddress state gateway device = true →
    ∀ cidr ∈ judgedCidrs state device, gatewayInCidr gateway cidr = false
  /-- Any other next hop that no written CIDR has is not on the link of an address that
  only one of the two derives. -/
  derived : ownAddress state gateway device = false →
    (∀ cidr ∈ configuredCidrs state device, gatewayInCidr gateway cidr = false) →
    ∀ lan, nextHopLan state device = some lan →
      ∀ cidr ∈ derivedByOne state lan, gatewayInCidr gateway cidr = false

namespace NextHopLemmas

open RevalidateLemmas

theorem gatewayInCidr_iff {gateway : IpAddr} {text : String} :
    gatewayInCidr gateway text = true ↔
      cidrContains text gateway = true ∧ cidrAddress text ≠ some gateway := by
  unfold gatewayInCidr cidrContains cidrAddress BootstrapValues.cidr
  cases hs : splitOnce text '/' with
  | none => simp
  | some parts =>
    obtain ⟨front, bits⟩ := parts
    cases ha : parseIp front with
    | none => simp [ha]
    | some address =>
      cases hb : parseU8 bits with
      | none => simp [ha, hb]
      | some length =>
        cases gateway <;> cases address <;> simp [ha, hb, IpAddr.isIpv4, ne_comm] <;> grind

/-- A gateway is of the family of a CIDR that has it on its link. -/
theorem gatewayInCidr_family {gateway : IpAddr} {text front bits : String}
    (h : gatewayInCidr gateway text = true) (hs : splitOnce text '/' = some (front, bits)) :
    ∃ address length, parseIp front = some address ∧ parseU8 bits = some length ∧
      address.isIpv4 = gateway.isIpv4 := by
  unfold gatewayInCidr at h
  rw [hs] at h
  dsimp only at h
  split at h
  next address length ha hb =>
    refine ⟨address, length, ha, hb, ?_⟩
    cases gateway <;> cases address <;> simp_all [IpAddr.isIpv4]
  · cases h

theorem splitOnce_service {text host bits : String} (h : firstV4Host text = some host) :
    splitOnce s!"{host}/{bits}" '/' = some (host, bits) := by
  obtain ⟨a, b, c, d, hd⟩ := firstV4Host_dotted h
  exact splitOnce_eq_some.mpr ⟨by simp; rfl, hd.not_mem (by decide) (by decide)⟩

theorem service_isIpv4 {text host bits : String} {gateway : IpAddr}
    (h : firstV4Host text = some host) (hg : gatewayInCidr gateway s!"{host}/{bits}" = true) :
    gateway.isIpv4 = true := by
  obtain ⟨address, length, ha, -, hf⟩ := gatewayInCidr_family hg (splitOnce_service h)
  obtain ⟨a, b, c, d, hd⟩ := firstV4Host_dotted h
  have hcolon := colon_mem_iff ha
  rw [← hf, ← Bool.not_eq_false, ← hcolon]
  exact hd.not_mem (by decide) (by decide)

theorem pdLanAddr_isIpv6 {pd cidr : String} {gateway : IpAddr} (h : pdLanAddr pd = some cidr)
    (hg : gatewayInCidr gateway cidr = true) : gateway.isIpv4 = false := by
  unfold pdLanAddr BootstrapValues.delegatedLan at h
  obtain ⟨lan, hl, rfl⟩ := Option.map_eq_some_iff.mp h
  split at hl
  · split at hl
    · cases hl
    · obtain rfl := Option.some.inj hl
      have hc := (gatewayInCidr_iff.mp hg).1
      unfold cidrContains at hc
      rw [LanAddressLemmas.cidr_display] at hc
      cases gateway with
      | v4 ip => simp at hc
      | v6 ip => rfl
  · cases hl

/-! ## What validation derives -/

/-- The service address that validation reads is the one `apply` derives, where the
LAN prefix has exactly one slash. -/
theorem service_judged {state : DesiredState} {text host : String} {gateway : IpAddr}
    (ht : lanServicePrefix state = some text) (hh : firstV4Host text = some host) :
    (lanServiceAddress state).any (gatewayInCidr gateway) = true ↔
      serviceJudged state = true ∧
        gatewayInCidr gateway s!"{host}/{prefixLength text}" = true := by
  cases hp : state.lanPrefix with
  | none => simp [lanServiceAddress, serviceJudged, hp]
  | some lanText =>
    obtain rfl : lanText = text := by simpa [lanServicePrefix, hp] using ht
    cases hs : splitOnce lanText '/' with
    | none =>
      simp [lanServiceAddress, serviceJudged, hp, hh, hs, split_of_not_mem (splitOnce_eq_none.mp hs)]
    | some parts =>
      obtain ⟨front, bits⟩ := parts
      have hj : lanServiceAddress state = some s!"{host}/{bits}" := by
        simp [lanServiceAddress, hp, hh, hs]
      rw [hj, Option.any_some]
      cases hb : splitOnce bits '/' with
      | none =>
        have hsplit := split_of_splitOnce hs
        rw [split_of_not_mem (splitOnce_eq_none.mp hb)] at hsplit
        simp [serviceJudged, hp, hsplit, prefixLength]
      | some more =>
        -- A second slash is no part of a number, so the address that validation reads is none.
        obtain ⟨front', rest⟩ := more
        have hslash : '/' ∈ bits.toList := by
          rw [(splitOnce_eq_some.mp hb).1]
          simp
        have hcount : serviceJudged state = false := by
          have hne : split rest '/' ≠ [] := by simp [split, splitBy, splitChars_ne_nil]
          simp [serviceJudged, hp, split_of_splitOnce hs, split_of_splitOnce hb, hne]
        refine iff_of_false (fun hg => ?_) (by simp [hcount])
        obtain ⟨-, length, -, hlen, -⟩ := gatewayInCidr_family hg (splitOnce_service hh)
        exact not_mem_of_parseUnsigned hlen (by decide) (by decide) hslash

theorem exists_addedCidrs {state : DesiredState} {lan : Iface} {text host : String}
    {q : String → Bool} (ht : lanServicePrefix state = some text)
    (hh : firstV4Host text = some host) :
    (∃ cidr ∈ addedCidrs state lan, q cidr = true) ↔
      (listsHost host lan = false ∧ q s!"{host}/{prefixLength text}" = true) ∨
        ((staticLanPrefix state).bind pdLanAddr).any q = true := by
  have hmerged : mergedAddress state lan =
      if listsHost host lan then none else some s!"{host}/{prefixLength text}" := by
    simp [mergedAddress, ht, hh]
  simp only [addedCidrs, hmerged, List.mem_append, or_and_right, exists_or, Option.mem_toList,
    Option.any_eq_true]
  cases listsHost host lan <;> simp

theorem forall_derivedByOne {state : DesiredState} {lan : Iface} {text host : String}
    {q : String → Bool} (ht : lanServicePrefix state = some text)
    (hh : firstV4Host text = some host) :
    (∀ cidr ∈ derivedByOne state lan, q cidr = false) ↔
      (serviceJudged state = listsHost host lan → q s!"{host}/{prefixLength text}" = false) ∧
        ((staticLanPrefix state).bind pdLanAddr).any q = false := by
  simp only [derivedByOne, ht, hh, Option.bind_eq_bind, Option.bind_some, List.mem_append,
    or_imp, forall_and, Option.mem_toList, Option.any_eq_false]
  refine and_congr ?_ (by simp)
  cases serviceJudged state <;> cases listsHost host lan <;> simp

/-- The two derivations of the LAN's addresses agree on a gateway that no address
derived by only one of them has on its link. -/
theorem derived_agree {state : DesiredState} {gateway : IpAddr} {lan : Iface} :
    ((lanServiceAddress state).any (gatewayInCidr gateway) = true ↔
        ∃ cidr ∈ addedCidrs state lan, gatewayInCidr gateway cidr = true) ↔
      ∀ cidr ∈ derivedByOne state lan, gatewayInCidr gateway cidr = false := by
  cases hs : (lanServicePrefix state).bind firstV4Host with
  | none =>
    have hservice : lanServiceAddress state = none := by
      cases hp : state.lanPrefix with
      | none => simp [lanServiceAddress, hp]
      | some text =>
        have hh : firstV4Host text = none := by simpa [lanServicePrefix, hp] using hs
        simp [lanServiceAddress, hp, hh]
    have hmerged : mergedAddress state lan = none := by
      cases ht : lanServicePrefix state with
      | none => simp [mergedAddress, ht]
      | some text =>
        rw [ht, Option.bind_some] at hs
        simp [mergedAddress, ht, hs]
    have hone : derivedByOne state lan = ((staticLanPrefix state).bind pdLanAddr).toList := by
      cases ht : lanServicePrefix state with
      | none => simp [derivedByOne, ht]
      | some text =>
        rw [ht, Option.bind_some] at hs
        simp [derivedByOne, ht, hs]
    simp [hservice, addedCidrs, hmerged, hone]
  | some host =>
    obtain ⟨text, ht, hh⟩ := Option.bind_eq_some_iff.mp hs
    rw [service_judged ht hh, exists_addedCidrs ht hh, forall_derivedByOne ht hh]
    -- The service address is of IPv4, the one in the routed prefix of IPv6.
    have hfamily : gatewayInCidr gateway s!"{host}/{prefixLength text}" = true →
        ((staticLanPrefix state).bind pdLanAddr).any (gatewayInCidr gateway) = false := by
      intro hg
      rw [Bool.eq_false_iff]
      intro hp
      obtain ⟨cidr, hb, hcidr⟩ := (Option.any_eq_true ..).mp hp
      obtain ⟨pd, -, hpd⟩ := Option.bind_eq_some_iff.mp hb
      have h4 := service_isIpv4 hh hg
      rw [pdLanAddr_isIpv6 hpd hcidr] at h4
      cases h4
    cases hj : serviceJudged state <;> cases hl : listsHost host lan <;>
      cases hc : gatewayInCidr gateway s!"{host}/{prefixLength text}" <;>
      cases hp : ((staticLanPrefix state).bind pdLanAddr).any (gatewayInCidr gateway) <;>
      simp_all

/-! ## What is listed -/

theorem find_withoutMgmt {p : Iface → Bool} (hp : ∀ iface : Iface, p iface = true → iface.isMgmt = false)
    {state : DesiredState} :
    (withoutMgmt state).interfaces.find? p = state.interfaces.find? p := by
  rw [withoutMgmt, List.find?_filter]
  congr 1
  funext iface
  cases h : p iface with
  | false => simp
  | true => simp [hp iface h]

theorem filter_modifyFirst {α : Type} {p q : α → Bool} {change : α → α}
    (hp : ∀ a, p a = true → q a = true) (hc : ∀ a, q (change a) = q a) (list : List α) :
    (modifyFirst p change list).filter q = modifyFirst p change (list.filter q) := by
  induction list with
  | nil => rfl
  | cons a rest ih =>
    by_cases h : p a = true
    · simp [modifyFirst, h, hc, hp a h]
    · by_cases hq : q a = true
      · simp [modifyFirst, h, hq, ih]
      · simp [modifyFirst, h, hq, ih]

theorem isMgmt_of_hasRole {iface : Iface} (h : iface.isLan = true ∨ iface.isWan = true) :
    iface.isMgmt = false := by
  simp only [Iface.isLan, Iface.isWan, Iface.isMgmt, Iface.hasRole, beq_iff_eq,
    beq_eq_false_iff_ne] at h ⊢
  rcases h with h | h <;> simp [h]

theorem withoutMgmt_merge {state : DesiredState} :
    withoutMgmt (mergeLanPrefixAddr state) = mergeLanPrefixAddr (withoutMgmt state) := by
  have hfilter : (modifyFirst Iface.isLan (withMerged state) state.interfaces).filter
      (fun iface => !iface.isMgmt) = modifyFirst Iface.isLan (withMerged state)
        (state.interfaces.filter fun iface => !iface.isMgmt) := by
    apply filter_modifyFirst
    · intro lan h
      simp [isMgmt_of_hasRole (.inl h)]
    · exact fun _ => rfl
  rw [mergeLanPrefixAddr_eq, mergeLanPrefixAddr_eq, withoutMgmt]
  simp only [hfilter]
  rfl

theorem routedAddress_withoutMgmt {files : PdFiles} {state : DesiredState}
    (hfiles : acquiredPrefix files state = none) :
    routedAddress files (withoutMgmt state) =
      (lanL2 state).bind fun lan =>
        ((staticLanPrefix state).bind pdLanAddr).map fun pd => (lan.name, pd) := by
  have hlan : lanL2 (withoutMgmt state) = lanL2 state :=
    find_withoutMgmt fun _ h => isMgmt_of_hasRole (.inl h)
  have hacquired : acquiredPrefix files (withoutMgmt state) = none := by
    rw [← hfiles, acquiredPrefix, acquiredPrefix, find_withoutMgmt]
    exact fun _ h => isMgmt_of_hasRole (.inr (Bool.and_eq_true .. |>.mp h).2)
  simp only [routedAddress, hlan, routedLanPrefix, hacquired]
  cases lanL2 state with
  | none => rfl
  | some lan =>
    have hstatic : staticLanPrefix (withoutMgmt state) = staticLanPrefix state := rfl
    cases hp : staticLanPrefix state <;> simp [hstatic, hp, Option.map_eq_bind]

/-- The CIDRs that `apply` configures where a next hop may be. -/
theorem mem_trafficAddresses {files : PdFiles} {state : DesiredState} {device : Option String}
    (hfiles : acquiredPrefix files state = none) (cidr : String) :
    (∃ name, (name, cidr) ∈ trafficAddresses files state device) ↔
      cidr ∈ configuredCidrs state device ∨
        ∃ lan, nextHopLan state device = some lan ∧ cidr ∈ addedCidrs state lan := by
  have hlan : lanL2 (withoutMgmt state) = lanL2 state :=
    find_withoutMgmt fun _ h => isMgmt_of_hasRole (.inl h)
  have hmerged : ∀ lan, mergedAddress (withoutMgmt state) lan = mergedAddress state lan :=
    fun _ => rfl
  simp only [trafficAddresses, List.mem_filter, withoutMgmt_merge, mem_desiredAddresses_merge,
    hlan, hmerged]
  simp only [desiredAddresses, routedAddress_withoutMgmt hfiles]
  simp only [configuredCidrs, nextHopLan, addedCidrs, withoutMgmt, List.mem_append, List.mem_flatMap, List.mem_filter, List.mem_map,
    Option.mem_toList, Option.filter_eq_some_iff, Option.bind_eq_some_iff, Option.map_eq_some_iff,
    Prod.mk.injEq, Bool.and_eq_true]
  constructor
  · rintro ⟨name, ((⟨iface, ⟨hi, hm⟩, c, hc, rfl, rfl⟩ | ⟨wg, hw, c, hc, rfl, rfl⟩) |
      ⟨lan, hl, c, ⟨pd, hp, hc⟩, rfl, rfl⟩) | ⟨lan, hl, c, hc, rfl, rfl⟩, hd⟩
    · exact .inl (.inl ⟨iface, ⟨hi, hm, hd⟩, hc⟩)
    · exact .inl (.inr ⟨wg, ⟨hw, hd⟩, hc⟩)
    · exact .inr ⟨lan, ⟨hl, hd⟩, .inr ⟨pd, hp, hc⟩⟩
    · exact .inr ⟨lan, ⟨hl, hd⟩, .inl hc⟩
  · rintro ((⟨iface, ⟨hi, hm, hd⟩, hc⟩ | ⟨wg, ⟨hw, hd⟩, hc⟩) |
      ⟨lan, ⟨hl, hd⟩, hc | ⟨pd, hp, hc⟩⟩)
    · exact ⟨_, .inl (.inl (.inl ⟨iface, ⟨hi, hm⟩, cidr, hc, rfl, rfl⟩)), hd⟩
    · exact ⟨_, .inl (.inl (.inr ⟨wg, hw, cidr, hc, rfl, rfl⟩)), hd⟩
    · exact ⟨_, .inr ⟨lan, hl, cidr, hc, rfl, rfl⟩, hd⟩
    · exact ⟨_, .inl (.inr ⟨lan, hl, cidr, ⟨pd, hp, hc⟩, rfl, rfl⟩), hd⟩

/-- The CIDRs that validation judges a next hop by. -/
theorem routeNextHopOnLink_iff {state : DesiredState} {gateway : IpAddr} {device : Option String} :
    routeNextHopOnLink state gateway device = true ↔
      ∃ cidr ∈ judgedCidrs state device, gatewayInCidr gateway cidr = true := by
  have hservice : ∀ (iface : Iface) (cidr : String),
      cidr ∈ (if (lanL2 state).any (·.name == iface.name) then (lanServiceAddress state).toList
        else []) ↔
      (∃ lan, lanL2 state = some lan ∧ lan.name = iface.name) ∧ lanServiceAddress state = some cidr := by
    intro iface cidr
    by_cases h : (lanL2 state).any (·.name == iface.name) = true
    · obtain ⟨lan, hl, hn⟩ := (Option.any_eq_true ..).mp h
      simp only [h, if_true, Option.mem_toList]
      exact (and_iff_right ⟨lan, hl, beq_iff_eq.mp hn⟩).symm
    · refine iff_of_false (by simp [h]) ?_
      rintro ⟨⟨lan, hl, hn⟩, -⟩
      simp [hl, hn] at h
  simp only [routeNextHopOnLink, judgedCidrs, configuredCidrs, nextHopLan, onLink, Bool.or_eq_true,
    List.any_eq_true, Bool.and_eq_true, List.mem_append, List.mem_flatMap, List.mem_filter,
    Option.mem_toList, Option.bind_eq_some_iff, Option.filter_eq_some_iff, hservice]
  constructor
  · rintro (⟨iface, hi, hm, hd, cidr, hc | ⟨⟨lan, hl, hn⟩, hc⟩, hg⟩ | ⟨wg, hw, hd, cidr, hc, hg⟩)
    · exact ⟨cidr, .inl (.inl ⟨iface, ⟨hi, hm, hd⟩, hc⟩), hg⟩
    · exact ⟨cidr, .inr ⟨lan, ⟨hl, hn ▸ hd⟩, hc⟩, hg⟩
    · exact ⟨cidr, .inl (.inr ⟨wg, ⟨hw, hd⟩, hc⟩), hg⟩
  · rintro ⟨cidr, (⟨iface, ⟨hi, hm, hd⟩, hc⟩ | ⟨wg, ⟨hw, hd⟩, hc⟩) | ⟨lan, ⟨hl, hd⟩, hc⟩, hg⟩
    · exact .inl ⟨iface, hi, hm, hd, cidr, .inl hc, hg⟩
    · exact .inr ⟨wg, hw, hd, cidr, hc, hg⟩
    · have hlan : lan.isLan = true := List.find?_some hl
      exact .inl ⟨lan, List.mem_of_find?_eq_some hl, by simp [isMgmt_of_hasRole (.inl hlan)], hd,
        cidr, .inr ⟨⟨lan, hl, rfl⟩, hc⟩, hg⟩

end NextHopLemmas

open NextHopLemmas

/-- With no prefix delegated by DHCPv6, validation judges a next hop as the list of
`apply` does exactly if the two derivations of the LAN's addresses do not differ on it,
and it is on no other link if it is an address of the appliance. -/
theorem next_hop_on_link_iff {files : PdFiles} {state : DesiredState}
    (hfiles : acquiredPrefix files state = none) (gateway : IpAddr) (device : Option String) :
    (routeNextHopOnLink state gateway device = true ↔ OnListedLink files state gateway device) ↔
      NextHopsAgree state gateway device := by
  have hlisted : ∀ q : String → Bool,
      (∃ entry ∈ trafficAddresses files state device, q entry.2 = true) ↔
        (∃ cidr ∈ configuredCidrs state device, q cidr = true) ∨
          ∃ lan, nextHopLan state device = some lan ∧ ∃ cidr ∈ addedCidrs state lan, q cidr = true := by
    intro q
    have hmem := @mem_trafficAddresses files state device hfiles
    constructor
    · rintro ⟨⟨name, cidr⟩, he, hq⟩
      rcases (hmem cidr).mp ⟨name, he⟩ with hc | ⟨lan, hl, hc⟩
      · exact .inl ⟨cidr, hc, hq⟩
      · exact .inr ⟨lan, hl, cidr, hc, hq⟩
    · rintro (⟨cidr, hc, hq⟩ | ⟨lan, hl, cidr, hc, hq⟩)
      · obtain ⟨name, he⟩ := (hmem cidr).mpr (.inl hc)
        exact ⟨_, he, hq⟩
      · obtain ⟨name, he⟩ := (hmem cidr).mpr (.inr ⟨lan, hl, hc⟩)
        exact ⟨_, he, hq⟩
  have hown : ownAddress state gateway device = true ↔
      ∃ entry ∈ trafficAddresses files state device, cidrAddress entry.2 = some gateway := by
    have := hlisted (cidrAddress · == some gateway)
    simp only [beq_iff_eq] at this
    rw [this]
    simp [ownAddress, Option.any_eq_true]
  rw [routeNextHopOnLink_iff]
  cases ho : ownAddress state gateway device with
  | true =>
    -- The list refuses an address of its own, so validation has to refuse it too.
    obtain ⟨entry, he, ha⟩ := hown.mp ho
    have hno : ¬OnListedLink files state gateway device := fun h => h.notOwn entry he ha
    have hagree : NextHopsAgree state gateway device ↔
        ∀ cidr ∈ judgedCidrs state device, gatewayInCidr gateway cidr = false :=
      ⟨fun h => h.own ho, fun h => ⟨fun _ => h, fun hn => absurd hn (by simp [ho])⟩⟩
    rw [hagree, iff_false_right hno]
    simp
  | false =>
    have hlist : OnListedLink files state gateway device ↔
        (∃ cidr ∈ configuredCidrs state device, gatewayInCidr gateway cidr = true) ∨
          ∃ lan, nextHopLan state device = some lan ∧
            ∃ cidr ∈ addedCidrs state lan, gatewayInCidr gateway cidr = true := by
      have hnot : ∀ entry ∈ trafficAddresses files state device,
          cidrAddress entry.2 ≠ some gateway := fun entry he ha => by
        simp [hown.mpr ⟨entry, he, ha⟩] at ho
      rw [← hlisted]
      constructor
      · rintro ⟨⟨entry, he, hc⟩, -⟩
        exact ⟨entry, he, gatewayInCidr_iff.mpr ⟨hc, hnot entry he⟩⟩
      · rintro ⟨entry, he, hg⟩
        exact ⟨⟨entry, he, (gatewayInCidr_iff.mp hg).1⟩, hnot⟩
    have hagree : NextHopsAgree state gateway device ↔
        ((∀ cidr ∈ configuredCidrs state device, gatewayInCidr gateway cidr = false) →
          ∀ lan, nextHopLan state device = some lan →
            ∀ cidr ∈ derivedByOne state lan, gatewayInCidr gateway cidr = false) :=
      ⟨fun h => h.derived ho, fun h => ⟨fun hn => absurd hn (by simp [ho]), fun _ => h⟩⟩
    rw [hlist, hagree]
    by_cases hc : ∃ cidr ∈ configuredCidrs state device, gatewayInCidr gateway cidr = true
    · have hj : ∃ cidr ∈ judgedCidrs state device, gatewayInCidr gateway cidr = true := by
        obtain ⟨cidr, hm, hg⟩ := hc
        exact ⟨cidr, List.mem_append_left _ hm, hg⟩
      refine iff_of_true (iff_of_true hj (.inl hc)) fun hn => ?_
      obtain ⟨cidr, hm, hg⟩ := hc
      simp [hn cidr hm] at hg
    · have hn : ∀ cidr ∈ configuredCidrs state device, gatewayInCidr gateway cidr = false :=
        fun cidr hm => Bool.eq_false_iff.mpr fun hg => hc ⟨cidr, hm, hg⟩
      rw [imp_iff_right hn]
      simp only [hc, false_or, judgedCidrs, List.mem_append, or_and_right, exists_or]
      cases hl : nextHopLan state device with
      | none => simp
      | some lan =>
        have hone := @derived_agree state gateway lan
        simpa [Option.any_eq_true] using hone

namespace NextHops

/-- A LAN without addresses of its own, which takes the service address of its pool. -/
def pooled : DesiredState := {
  interfaces := [
    { name := "enp1s0", role := some "wan", addresses := ["198.51.100.2/24"] },
    { name := "enp2s0", role := some "lan" }]
  dhcpPool := some "192.168.1.100-192.168.1.200"
  uiExposure := ["enp2s0"] }

/-- A router on the LAN. -/
def router : IpAddr := .v4 0xc0a80107

/-- The state is accepted and `apply` gives its LAN 192.168.1.1/24, but a next hop on
that link is not. -/
theorem pool_next_hop_refused :
    (@validate Revalidate.noKeys pooled).isOk = true ∧
      acquiredPrefix (fun _ => none) pooled = none ∧
      ¬(routeNextHopOnLink pooled router none = true ↔
        OnListedLink (fun _ => none) pooled router none) := by
  refine ⟨by decide +kernel, rfl, fun h => ?_⟩
  have hlisted : OnListedLink (fun _ => none) pooled router none :=
    ⟨⟨("enp2s0", "192.168.1.1/24"), by decide +kernel, by decide +kernel⟩, by decide +kernel⟩
  exact absurd (h.mpr hlisted) (by decide +kernel)

theorem next_hop_pooled :
    (routeNextHopOnLink pooled router none = true ↔
      OnListedLink (fun _ => none) pooled router none) ↔ NextHopsAgree pooled router none :=
  next_hop_on_link_iff rfl router none

end NextHops

end Fwos
