import Fwos.Revalidate
import Fwos.Rust.Ipv6Text

/-!
# The appliance's own LAN addresses

The LAN services take the host that is written in the LAN prefix, or the first one
if its last octet is zero, and the first address of the first /64 of the routed
IPv6 prefix. `addressing` looks at the prefix lengths only.

* `lan_address_usable_iff`: the accepted values with which both addresses can serve
  hosts.
-/

namespace Fwos

open Rust

/-- An address in a network that is neither its first nor its last one. -/
structure UsableV4 (address network : Ipv4Addr) (length : Nat) : Prop where
  inside : address &&& prefixMask 32 length = network
  notNetwork : address ≠ network
  notBroadcast : address ≠ network ||| ~~~prefixMask 32 length

/-- A unicast address other than ::, ::1 and fe80::/10. -/
structure UsableV6 (address : Ipv6Addr) : Prop where
  specified : (IpAddr.v6 address).isUnspecified = false
  notLoopback : address ≠ 1
  notLinkLocal : isUnicastLinkLocal address = false
  unicast : (IpAddr.v6 address).isMulticast = false

/-- The addresses that the LAN services give the LAN interface can serve hosts. -/
structure LanAddressUsable (state : DesiredState) : Prop where
  v4 : ∀ text, lanServicePrefix state = some text → ∀ host, firstV4Host text = some host →
    ∃ address network length, parseIpv4 host = some address ∧
      ipv4Prefix text = some (network, length) ∧ UsableV4 address network length
  v6 : ∀ pd, state.wanPd = some pd → ∀ lan, BootstrapValues.delegatedLan pd = some lan →
    ∃ address, BootstrapValues.cidr lan.addressCidr = some (.v6 address, 64) ∧ UsableV6 address

/-- The LAN prefix ends in a zero octet, or is written with the address of a host. -/
def lanHostWritten (lanPrefix : Option String) : Bool :=
  match (nonEmpty lanPrefix).bind BootstrapValues.cidr with
  | some (.v4 ip, length) =>
      let mask := prefixMask 32 length
      ip.toNat % 256 == 0 || (ip != ip &&& mask && ip != ip &&& mask ||| ~~~mask)
  | _ => true

/-- The network of the routed prefix is not ::, nor in fe80::/10 or ff00::/8. -/
def routedNetworkUsable (wanPd : Option String) : Bool :=
  match (nonEmpty wanPd).bind BootstrapValues.cidr with
  | some (.v6 ip, length) =>
      let network := ip &&& prefixMask 128 length
      network != 0 && !isUnicastLinkLocal network && !(IpAddr.v6 network).isMulticast
  | _ => true

namespace LanAddressLemmas

open RevalidateLemmas

/-! ## IPv4 -/

theorem getLsbD_prefixMask {width length i : Nat} :
    (prefixMask width length).getLsbD i = (decide (i < width) && decide (width ≤ i + length)) := by
  unfold prefixMask
  split
  next h =>
    subst h
    simp
  · rw [Bool.eq_iff_iff]
    simp only [BitVec.getLsbD_shiftLeft, BitVec.getLsbD_allOnes, Bool.and_eq_true,
      Bool.not_eq_true', decide_eq_true_eq, decide_eq_false_iff_not]
    omega

/-- A bit that is free in a prefix. -/
theorem prefixMask_free {width length i : Nat} (h : i + length < width) :
    (prefixMask width length).getLsbD i = false := by
  rw [getLsbD_prefixMask]
  simp only [Bool.and_eq_false_iff, decide_eq_false_iff_not]
  omega

/-- An odd address is no network, and one whose second bit is clear is no broadcast
address. -/
theorem usable_first_host {a b c length : Nat} (h : length ≤ 30) :
    UsableV4 (octetsToV4 a b c 1) (octetsToV4 a b c 0 &&& prefixMask 32 length) length := by
  have hlow : (octetsToV4 a b c 1).getLsbD 0 = true := by
    simp only [octetsToV4, BitVec.getLsbD_ofNat, Nat.testBit_zero, Bool.and_eq_true,
      decide_eq_true_eq]
    omega
  have hsecond : (octetsToV4 a b c 1).getLsbD 1 = false := by
    simp only [octetsToV4, BitVec.getLsbD_ofNat, Nat.testBit_succ, Nat.testBit_zero,
      Bool.and_eq_false_iff, decide_eq_false_iff_not]
    omega
  refine ⟨mask_lowest_bit (d := 0) rfl (by omega), fun heq => ?_, fun heq => ?_⟩
  · have hbit := congrArg (BitVec.getLsbD · 0) heq
    rw [hlow, BitVec.getLsbD_and, prefixMask_free (by omega), Bool.and_false] at hbit
    cases hbit
  · have hbit := congrArg (BitVec.getLsbD · 1) heq
    rw [hsecond, BitVec.getLsbD_or, BitVec.getLsbD_not, prefixMask_free (by omega)] at hbit
    simp at hbit

theorem toNat_octetsToV4_mod {a b c d : Nat} (hd : d < 256) :
    (octetsToV4 a b c d).toNat % 256 = d := by
  rw [octetsToV4, BitVec.toNat_ofNat]
  omega

theorem usable_written_iff {a b c d length : Nat} (hd : d < 256) (h : length ≤ 30) :
    UsableV4 (octetsToV4 a b c (if d = 0 then 1 else d))
        (octetsToV4 a b c d &&& prefixMask 32 length) length ↔
      d = 0 ∨ (octetsToV4 a b c d ≠ octetsToV4 a b c d &&& prefixMask 32 length ∧
        octetsToV4 a b c d ≠
          octetsToV4 a b c d &&& prefixMask 32 length ||| ~~~prefixMask 32 length) := by
  by_cases h0 : d = 0
  · subst h0
    simpa using usable_first_host h
  · simp only [h0, if_false, false_or]
    exact ⟨fun hu => ⟨hu.notNetwork, hu.notBroadcast⟩, fun hu => ⟨rfl, hu.1, hu.2⟩⟩

theorem firstV4Host_eq {text : String} {a b c d n : Nat} (h : IsIpv4Cidr text a b c d n) :
    firstV4Host text = some s!"{a}.{b}.{c}.{if d = 0 then 1 else d}" := by
  obtain ⟨front, rest, hs, hd, -⟩ := h.split
  simp [firstV4Host, beforeSlash, hs, dottedOctets, hd.split]

theorem IsIpv4Cidr.lt {text : String} {a b c d n : Nat} (h : IsIpv4Cidr text a b c d n) :
    a < 256 ∧ b < 256 ∧ c < 256 ∧ d < 256 := by
  obtain ⟨front, rest, -, hd, -⟩ := h.split
  exact hd.lt

/-- The host of an IPv4 prefix, as an address. -/
theorem usable_host_iff {text : String} {a b c d n : Nat} (h : IsIpv4Cidr text a b c d n)
    (hn : n ≤ 30) :
    (∀ host, firstV4Host text = some host →
      ∃ address network length, parseIpv4 host = some address ∧
        ipv4Prefix text = some (network, length) ∧ UsableV4 address network length) ↔
      d = 0 ∨ (octetsToV4 a b c d ≠ octetsToV4 a b c d &&& prefixMask 32 n ∧
        octetsToV4 a b c d ≠ octetsToV4 a b c d &&& prefixMask 32 n ||| ~~~prefixMask 32 n) := by
  obtain ⟨ha, hb, hc, hd⟩ := IsIpv4Cidr.lt h
  have hhost := firstV4Host_eq h
  have hnetwork := ipv4Prefix_eq_some.mpr ⟨a, b, c, d, n, h, rfl⟩
  have hparse : parseIpv4 s!"{a}.{b}.{c}.{if d = 0 then 1 else d}" =
      some (octetsToV4 a b c (if d = 0 then 1 else d)) :=
    parseIpv4_eq_some.mpr ⟨a, b, c, _, isDotted_display ha hb hc (by split <;> omega), rfl⟩
  rw [← usable_written_iff hd hn]
  constructor
  · intro hu
    obtain ⟨address, network, length, hp, ht, hu⟩ := hu _ hhost
    obtain rfl := Option.some.inj (hparse.symm.trans hp)
    obtain ⟨rfl, rfl⟩ := Prod.mk.inj (Option.some.inj (hnetwork.symm.trans ht))
    exact hu
  · intro hu host hh
    obtain rfl := Option.some.inj (hhost.symm.trans hh)
    exact ⟨_, _, _, hparse, hnetwork, hu⟩

theorem usable_v4_iff {state : DesiredState}
    (haddr : BootstrapValues.addressing state.lanPrefix state.dhcpPool state.wanPd = .ok ()) :
    (∀ text, lanServicePrefix state = some text → ∀ host, firstV4Host text = some host →
      ∃ address network length, parseIpv4 host = some address ∧
        ipv4Prefix text = some (network, length) ∧ UsableV4 address network length) ↔
      lanHostWritten state.lanPrefix = true := by
  simp only [BootstrapValues.addressing, bind_eq_ok] at haddr
  obtain ⟨lan, hlan, -⟩ := haddr
  cases hp : state.lanPrefix with
  | none =>
    -- The network of the pool ends in a zero octet.
    refine ⟨fun _ => rfl, fun _ text ht => ?_⟩
    have ht' : state.dhcpPool.bind prefixFromPool = some text := by
      simpa [lanServicePrefix, hp] using ht
    obtain ⟨pool, -, htext⟩ := Option.bind_eq_some_iff.mp ht'
    obtain ⟨a, b, c, h4⟩ := prefixFromPool_isIpv4Cidr htext
    exact (usable_host_iff h4 (by omega)).mpr (.inl rfl)
  | some configured =>
    have htext : ∀ text, lanServicePrefix state = some text ↔ configured = text := by
      simp [lanServicePrefix, hp]
    simp only [htext, forall_eq']
    by_cases hempty : configured.isEmpty = true
    · obtain rfl : configured = "" := by simpa using hempty
      refine ⟨fun _ => rfl, fun _ host hh => ?_⟩
      rw [show firstV4Host "" = none by decide] at hh
      cases hh
    · have hnon : nonEmpty state.lanPrefix = some configured := by
        simp [nonEmpty, hp, Option.filter, hempty]
      simp only [BootstrapValues.lanNetwork, hnon] at hlan
      split at hlan
      next ip n hc =>
        split at hlan
        next hle =>
          obtain ⟨a, b, c, d, h4, rfl⟩ := cidr_eq_v4.mp hc
          obtain ⟨-, -, -, hd⟩ := IsIpv4Cidr.lt h4
          rw [hp] at hnon
          have hmod : (octetsToV4 a b c d).toNat % 256 = d := toNat_octetsToV4_mod hd
          rw [usable_host_iff h4 hle.2]
          simp [lanHostWritten, hnon, hc, hmod]
        · cases hlan
      · cases hlan

/-! ## IPv6 -/

theorem prefixMask_first_subnet {length : Nat} (h : length ≤ 64) :
    prefixMask 128 length &&& BitVec.allOnes 128 <<< 64 = prefixMask 128 length := by
  refine BitVec.eq_of_getLsbD_eq fun i hi => ?_
  rw [Bool.eq_iff_iff]
  simp only [BitVec.getLsbD_and, getLsbD_prefixMask, BitVec.getLsbD_shiftLeft,
    BitVec.getLsbD_allOnes, Bool.and_eq_true, Bool.not_eq_true', decide_eq_true_eq,
    decide_eq_false_iff_not]
  omega

theorem cidr_display (address : Ipv6Addr) :
    BootstrapValues.cidr s!"{displayIpv6 address}/64" = some (.v6 address, 64) := by
  have hslash : '/' ∉ (displayIpv6 address).toList := fun hm => by
    have := parseIpv6_chars (parseIpv6_displayIpv6 address) _ hm
    exact absurd this (by decide)
  have hsplit : splitOnce s!"{displayIpv6 address}/64" '/' =
      some (displayIpv6 address, "64") :=
    splitOnce_eq_some.mpr ⟨by simp; rfl, hslash⟩
  have h64 : parseU8 "64" = some 64 := by decide
  simp [BootstrapValues.cidr, hsplit, parseIp_displayIpv6, h64, IpAddr.isIpv4]

/-- The lowest bit of a network of at most 64 bits is free. -/
theorem usable_first_address_iff {ip : Ipv6Addr} {length : Nat} (h : length ≤ 64) :
    UsableV6 (ip &&& prefixMask 128 length ||| 1) ↔
      ip &&& prefixMask 128 length ≠ 0 ∧
        isUnicastLinkLocal (ip &&& prefixMask 128 length) = false ∧
        (IpAddr.v6 (ip &&& prefixMask 128 length)).isMulticast = false := by
  have hlow : (ip &&& prefixMask 128 length).getLsbD 0 = false := by
    rw [BitVec.getLsbD_and, prefixMask_free (by omega), Bool.and_false]
  generalize ip &&& prefixMask 128 length = network at *
  have hlocal : isUnicastLinkLocal (network ||| 1) = isUnicastLinkLocal network := by
    have hone : (1 : Ipv6Addr) >>> 118 = 0#128 := rfl
    rw [isUnicastLinkLocal, BitVec.ushiftRight_or_distrib, hone, BitVec.or_zero]
    rfl
  have hmulti : (IpAddr.v6 (network ||| 1)).isMulticast = (IpAddr.v6 network).isMulticast := by
    have hone : (1 : Ipv6Addr) >>> 120 = 0#128 := rfl
    simp only [IpAddr.isMulticast]
    rw [BitVec.ushiftRight_or_distrib, hone, BitVec.or_zero]
  have hloop : network ||| 1 = 1 ↔ network = 0 := by
    refine ⟨fun heq => BitVec.eq_of_getLsbD_eq fun i hi => ?_, fun heq => by rw [heq]; rfl⟩
    have hbit := congrArg (BitVec.getLsbD · i) heq
    cases i with
    | zero =>
      rw [hlow]
      rfl
    | succ i => simpa [BitVec.getLsbD_or, -BitVec.getLsbD_eq_getElem] using hbit
  have hspecified : (IpAddr.v6 (network ||| 1)).isUnspecified = false := by
    simp only [IpAddr.isUnspecified, beq_eq_false_iff_ne]
    intro heq
    have hbit := congrArg (BitVec.getLsbD · 0) heq
    simp at hbit
  constructor
  · intro hu
    exact ⟨fun h0 => hu.notLoopback (hloop.mpr h0), hlocal.symm.trans hu.notLinkLocal,
      hmulti.symm.trans hu.unicast⟩
  · rintro ⟨h0, hl, hm⟩
    exact ⟨hspecified, fun h1 => h0 (hloop.mp h1), hlocal.trans hl, hmulti.trans hm⟩

theorem usable_v6_iff {state : DesiredState}
    (haddr : BootstrapValues.addressing state.lanPrefix state.dhcpPool state.wanPd = .ok ()) :
    (∀ pd, state.wanPd = some pd → ∀ lan, BootstrapValues.delegatedLan pd = some lan →
      ∃ address, BootstrapValues.cidr lan.addressCidr = some (.v6 address, 64) ∧
        UsableV6 address) ↔
      routedNetworkUsable state.wanPd = true := by
  simp only [BootstrapValues.addressing, bind_eq_ok, option_forM_eq_ok, ensure_eq_ok] at haddr
  obtain ⟨-, -, -, -, hpd⟩ := haddr
  cases hp : state.wanPd with
  | none => simp [routedNetworkUsable, nonEmpty]
  | some pd =>
    simp only [Option.some.injEq, forall_eq']
    by_cases hempty : pd.isEmpty = true
    · obtain rfl : pd = "" := by simpa using hempty
      refine ⟨fun _ => rfl, fun _ lan hl => ?_⟩
      rw [show BootstrapValues.delegatedLan "" = none by decide] at hl
      cases hl
    · have hnon : nonEmpty (some pd) = some pd := by
        simp [nonEmpty, Option.filter, hempty]
      have hsome := hpd pd (hp ▸ hnon)
      simp only [routedNetworkUsable, hnon, Option.bind_some]
      unfold BootstrapValues.delegatedLan at hsome ⊢
      split at hsome
      next ip length hc =>
        split at hsome
        · cases hsome
        next hlen =>
          have hle : length ≤ 64 := by omega
          simp only [hc, hlen, if_false, BitVec.and_assoc, prefixMask_first_subnet hle,
            Option.some.injEq, forall_eq', cidr_display, Prod.mk.injEq, IpAddr.v6.injEq,
            and_true, exists_eq_left', usable_first_address_iff hle, Bool.and_eq_true,
            bne_iff_ne, ne_eq, Bool.not_eq_true', and_assoc]
      · cases hsome

end LanAddressLemmas

open LanAddressLemmas

/-- The LAN addresses of accepted values can serve hosts exactly if the LAN prefix
does not name its own network or broadcast address by a last octet other than zero,
and the routed prefix is a global unicast one. -/
theorem lan_address_usable_iff {state : DesiredState}
    (h : BootstrapValues.addressing state.lanPrefix state.dhcpPool state.wanPd = .ok ()) :
    LanAddressUsable state ↔
      lanHostWritten state.lanPrefix = true ∧ routedNetworkUsable state.wanPd = true := by
  rw [← usable_v4_iff h, ← usable_v6_iff h]
  exact ⟨fun hu => ⟨hu.v4, hu.v6⟩, fun hu => ⟨hu.1, hu.2⟩⟩

namespace LanAddress

/-- A state with only the address configuration. -/
def addressed (lanPrefix dhcpPool wanPd : Option String) : DesiredState :=
  { lanPrefix := lanPrefix, dhcpPool := dhcpPool, wanPd := wanPd }

theorem broadcast_not_usable :
    BootstrapValues.addressing (some "192.168.1.255/24") none none = .ok () ∧
      firstV4Host "192.168.1.255/24" = some "192.168.1.255" ∧
      ¬LanAddressUsable (addressed (some "192.168.1.255/24") none none) := by
  refine ⟨by decide +kernel, by decide +kernel, fun hu => ?_⟩
  obtain ⟨address, network, length, hp, hn, hu⟩ :=
    hu.v4 "192.168.1.255/24" rfl "192.168.1.255" (by decide +kernel)
  obtain rfl : 0xc0a801ff = address :=
    Option.some.inj ((by decide +kernel : parseIpv4 "192.168.1.255" = some 0xc0a801ff).symm.trans hp)
  obtain ⟨rfl, rfl⟩ := Prod.mk.inj (Option.some.inj
    ((by decide +kernel : ipv4Prefix "192.168.1.255/24" = some (0xc0a80100, 24)).symm.trans hn))
  exact hu.notBroadcast (by decide +kernel)

theorem usable_addressed :
    LanAddressUsable
        (addressed (some "192.168.1.0/24") (some "192.168.1.10-192.168.1.99") (some "fd53:1:2::/56")) ∧
      ¬LanAddressUsable (addressed (some "192.168.1.4/30") none none) ∧
      ¬LanAddressUsable (addressed none none (some "fe80::/64")) :=
  ⟨(lan_address_usable_iff (by decide +kernel)).mpr (by decide +kernel),
    fun hu => absurd ((lan_address_usable_iff (by decide +kernel)).mp hu) (by decide +kernel),
    fun hu => absurd ((lan_address_usable_iff (by decide +kernel)).mp hu) (by decide +kernel)⟩

end LanAddress

end Fwos
