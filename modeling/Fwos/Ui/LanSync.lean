import Fwos.LanServices
import Fwos.NextHops
import Fwos.Ui.Draft

/-!
# The LAN prefix after an interface edit

`store_interface_section` lets the LAN prefix follow an address of the first LAN,
and drops a pool that is then outside of it. netd checks both with functions of its
own.

* `Followed`: the network that the LAN prefix follows.
* `storeInterfaceSection_valid_iff`: the edits after which both checks still pass.
-/

namespace Fwos

open Rust

/-- netd accepts the LAN prefix and the pool. -/
def LanValuesPass (state : DesiredState) : Prop :=
  BootstrapValues.addressing state.lanPrefix state.dhcpPool state.wanPd = .ok () ∧
    lanServicesMatchInterface state = .ok ()

/-- The address of the first LAN that a LAN prefix follows. -/
def followedAddress (lanPrefix : Option String) (interfaces : List Iface) : Option String :=
  (interfaces.find? Iface.isLan).bind fun lan => lanAddress lanPrefix lan.addresses

/-- Its network and prefix length. -/
def followedNetwork (lanPrefix : Option String) (interfaces : List Iface) :
    Option (Ipv4Addr × Nat) :=
  (followedAddress lanPrefix interfaces).bind ipv4Prefix

namespace LanSyncLemmas

open RevalidateLemmas LanProgram NextHopLemmas

/-! ## The text of a network -/

theorem isDotted_displayIpv4 (address : Ipv4Addr) :
    ∃ a b c d, IsDotted (displayIpv4 address).toList a b c d ∧ octetsToV4 a b c d = address := by
  have hlt := address.isLt
  refine ⟨address.toNat / 16777216, address.toNat / 65536 % 256, address.toNat / 256 % 256,
    address.toNat % 256, isDotted_display (by omega) (by omega) (by omega) (by omega), ?_⟩
  apply BitVec.eq_of_toNat_eq
  rw [octetsToV4, BitVec.toNat_ofNat]
  omega

def networkText (network : Ipv4Addr) (bits : Nat) : String := s!"{displayIpv4 network}/{bits}"

theorem isIpv4Cidr_networkText {network : Ipv4Addr} {bits : Nat} (hb : bits ≤ 32) :
    ∃ a b c d, IsIpv4Cidr (networkText network bits) a b c d bits ∧
      octetsToV4 a b c d = network := by
  obtain ⟨a, b, c, d, dotted, value⟩ := isDotted_displayIpv4 network
  refine ⟨a, b, c, d, ⟨⟨displayIpv4 network, toString bits, ?_, dotted, ?_⟩, hb⟩, value⟩
  · refine splitOnce_eq_some.mpr ⟨?_, dotted.not_mem (by decide) (by decide)⟩
    simp [networkText]
    rfl
  · have octet := (@isOctet_toDigits bits (by omega)).parseU8
    rwa [← toList_toString, String.ofList_toList] at octet

theorem ipv4Prefix_networkText {network : Ipv4Addr} {bits : Nat} (hb : bits ≤ 32) :
    ipv4Prefix (networkText network bits) = some (network &&& prefixMask 32 bits, bits) := by
  obtain ⟨a, b, c, d, h4, value⟩ := @isIpv4Cidr_networkText network bits hb
  exact ipv4Prefix_eq_some.mpr ⟨a, b, c, d, bits, h4, by rw [value]⟩

theorem cidr_networkText {network : Ipv4Addr} {bits : Nat} (hb : bits ≤ 32) :
    BootstrapValues.cidr (networkText network bits) = some (.v4 network, bits) := by
  obtain ⟨a, b, c, d, h4, value⟩ := @isIpv4Cidr_networkText network bits hb
  exact cidr_eq_v4.mpr ⟨a, b, c, d, h4, value.symm⟩

theorem nonEmpty_networkText {network : Ipv4Addr} {bits : Nat} (small : bits ≤ 32) :
    nonEmpty (some (networkText network bits)) = some (networkText network bits) := by
  have notEmpty : networkText network bits ≠ "" := by
    intro empty
    obtain ⟨a, b, c, d, ⟨⟨front, rest, split, -⟩, -⟩, -⟩ :=
      @isIpv4Cidr_networkText network bits small
    rw [empty] at split
    cases split
  simp [nonEmpty, Option.filter, notEmpty]

theorem lanNetwork_networkText {network : Ipv4Addr} {bits : Nat} (hb : bits ≤ 32) :
    BootstrapValues.lanNetwork (some (networkText network bits)) =
      if 1 ≤ bits ∧ bits ≤ 30 then .ok (some (network, bits))
      else .error "invalid lan_prefix IPv4 CIDR" := by
  simp only [BootstrapValues.lanNetwork, nonEmpty_networkText hb, cidr_networkText hb]

theorem mask_network {address : Ipv4Addr} {bits : Nat} :
    address &&& prefixMask 32 bits &&& prefixMask 32 bits = address &&& prefixMask 32 bits := by
  rw [BitVec.and_assoc, BitVec.and_self]

theorem ipv4Prefix_masked {text : String} {network : Ipv4Addr} {bits : Nat}
    (h : ipv4Prefix text = some (network, bits)) :
    bits ≤ 32 ∧ network &&& prefixMask 32 bits = network := by
  obtain ⟨a, b, c, d, n, h4, same⟩ := ipv4Prefix_eq_some.mp h
  obtain ⟨rfl, rfl⟩ := Prod.mk.inj same
  exact ⟨h4.le, mask_network⟩

/-! ## The address that is followed -/

theorem ipv4Prefix_of_front {text front rest : String} {ip : Ipv4Addr}
    (split : splitOnce text '/' = some (front, rest)) (front4 : parseIpv4 front = some ip)
    (wellFormed : (BootstrapValues.cidr text).isSome = true) : (ipv4Prefix text).isSome = true := by
  obtain ⟨⟨address, bits⟩, known⟩ := Option.isSome_iff_exists.mp wellFormed
  have address4 : parseIp front = some (.v4 ip) := parseIp_eq_v4.mpr front4
  simp only [BootstrapValues.cidr, split, address4, Option.bind_eq_bind, Option.bind_some,
    Option.bind_eq_some_iff, Option.ite_none_left_eq_some] at known
  obtain ⟨length, parsed, small, -⟩ := known
  simp [ipv4Prefix, split, front4, parsed, show ¬ length > 32 from small]

/-- It is one of the LAN's, and an IPv4 prefix. -/
theorem lanAddress_spec {lanPrefix : Option String} {addresses : List String} {address : String}
    (wellFormed : ∀ a ∈ addresses, (BootstrapValues.cidr a).isSome = true)
    (h : lanAddress lanPrefix addresses = some address) :
    address ∈ addresses ∧ (ipv4Prefix address).isSome = true := by
  simp only [lanAddress, Option.orElse_eq_orElse, Option.orElse_eq_or, Option.or_eq_some_iff] at h
  rcases h with matched | ⟨-, first⟩
  · obtain ⟨host, hosted, found⟩ := Option.bind_eq_some_iff.mp matched
    obtain ⟨text, -, hostOf⟩ := Option.bind_eq_some_iff.mp hosted
    have mem := List.mem_of_find?_eq_some found
    have starts := List.find?_some found
    obtain ⟨a, b, c, d, dotted⟩ := firstV4Host_dotted hostOf
    obtain ⟨rest, whole⟩ := startsWith_iff.mp starts
    have split : splitOnce address '/' = some (host, String.ofList rest) := by
      refine splitOnce_eq_some.mpr ⟨?_, dotted.not_mem (by decide) (by decide)⟩
      rw [whole]
      simp
      rfl
    exact ⟨mem, ipv4Prefix_of_front split (parseIpv4_eq_some.mpr ⟨a, b, c, d, dotted, rfl⟩)
      (wellFormed address mem)⟩
  · have mem := List.mem_of_find?_eq_some first
    have reads := List.find?_some first
    obtain ⟨⟨front, rest⟩, split, front4⟩ := (Option.any_eq_true _ _).mp reads
    obtain ⟨ip, parsed⟩ := Option.isSome_iff_exists.mp front4
    exact ⟨mem, ipv4Prefix_of_front split parsed (wellFormed address mem)⟩

/-- Without one, the LAN has no IPv4 prefix. -/
theorem lanAddress_none {lanPrefix : Option String} {addresses : List String}
    (h : lanAddress lanPrefix addresses = none) : addresses.filterMap ipv4Prefix = [] := by
  simp only [lanAddress, Option.orElse_eq_orElse, Option.orElse_eq_or, Option.or_eq_none_iff] at h
  rw [List.filterMap_eq_nil_iff]
  intro address mem
  have unread := List.find?_eq_none.mp h.2 address mem
  cases known : ipv4Prefix address with
  | none => rfl
  | some network =>
      obtain ⟨a, b, c, d, n, ⟨⟨front, rest, split, dotted, -⟩, -⟩, -⟩ := ipv4Prefix_eq_some.mp known
      refine absurd ?_ unread
      rw [split]
      simp [parseIpv4_eq_some.mpr ⟨a, b, c, d, dotted, rfl⟩]

/-! ## The pool -/

theorem poolInside_eq_ok {lan : Option (Ipv4Addr × Nat)} {pool : String} :
    BootstrapValues.poolInside lan pool = .ok () ↔
      ∃ first last, BootstrapValues.poolBounds pool = .ok (first, last) ∧
        first.toNat ≤ last.toNat ∧
        first &&& prefixMask 32 (lan.getD (first, 24)).2 =
          (lan.getD (first, 24)).1 &&& prefixMask 32 (lan.getD (first, 24)).2 ∧
        last &&& prefixMask 32 (lan.getD (first, 24)).2 =
          (lan.getD (first, 24)).1 &&& prefixMask 32 (lan.getD (first, 24)).2 := by
  simp only [BootstrapValues.poolInside, bind_eq_ok, ensure_eq_ok, decide_eq_true_eq,
    Bool.and_eq_true, beq_iff_eq, Prod.exists, exists_const]

theorem dhcpPoolInside_networkText {network : Ipv4Addr} {bits : Nat} (hb : bits ≤ 32)
    {pool : String} :
    dhcpPoolInside (networkText network bits) pool = true ↔
      ∃ first last, BootstrapValues.poolBounds pool = .ok (first, last) ∧
        first &&& prefixMask 32 bits = network &&& prefixMask 32 bits ∧
        last &&& prefixMask 32 bits = network &&& prefixMask 32 bits := by
  obtain ⟨a, b, c, d, ⟨⟨front, rest, split, dotted, length⟩, -⟩, value⟩ :=
    @isIpv4Cidr_networkText network bits hb
  have read : parseIpv4 front = some network := parseIpv4_eq_some.mpr ⟨a, b, c, d, dotted, value.symm⟩
  simp only [dhcpPoolInside, split, read, length, Option.bind_eq_bind, Option.bind_some, if_pos hb,
    poolBounds_eq_ok, poolEnds]
  cases parseIpv4 (trim ((splitOnce pool '-').getD (pool, pool)).1) with
  | none => simp
  | some first =>
      cases parseIpv4 (trim ((splitOnce pool '-').getD (pool, pool)).2) with
      | none => simp
      | some last => simp

/-- The pool that is kept passes with the new prefix. -/
theorem pool_kept {network : Ipv4Addr} {bits : Nat} (hb : bits ≤ 32)
    {lan : Option (Ipv4Addr × Nat)} {pool : String}
    (before : BootstrapValues.poolInside lan pool = .ok ())
    (kept : dhcpPoolInside (networkText network bits) pool = true) :
    BootstrapValues.poolInside (some (network, bits)) pool = .ok () := by
  obtain ⟨first, last, bounds, order, -⟩ := poolInside_eq_ok.mp before
  obtain ⟨first', last', bounds', inside⟩ := (dhcpPoolInside_networkText hb).mp kept
  rw [bounds] at bounds'
  cases bounds'
  exact poolInside_eq_ok.mpr ⟨first, last, bounds, order, inside⟩

/-! ## The two checks -/

theorem addressing_eq_ok {lanPrefix dhcpPool wanPd : Option String} :
    BootstrapValues.addressing lanPrefix dhcpPool wanPd = .ok () ↔
      ∃ lan, BootstrapValues.lanNetwork lanPrefix = .ok lan ∧
        (∀ pool, nonEmpty dhcpPool = some pool → BootstrapValues.poolInside lan pool = .ok ()) ∧
        ∀ pd, nonEmpty wanPd = some pd → (BootstrapValues.delegatedLan pd).isSome = true := by
  simp only [BootstrapValues.addressing, bind_eq_ok, option_forM_eq_ok, ensure_eq_ok, exists_const]

/-- A pool is kept with the prefix that follows, or left out. -/
def poolFollowing (text : String) (pool : Option String) : Option String :=
  if pool.any fun pool => !dhcpPoolInside text pool then none else pool

/-- With the prefix of a network, the values pass if hosts fit in it. -/
theorem addressing_following {desired : DesiredState} {network : Ipv4Addr} {bits : Nat}
    (hb : bits ≤ 32)
    (before : BootstrapValues.addressing desired.lanPrefix desired.dhcpPool desired.wanPd = .ok ()) :
    BootstrapValues.addressing (some (networkText network bits))
        (poolFollowing (networkText network bits) desired.dhcpPool) desired.wanPd = .ok () ↔
      1 ≤ bits ∧ bits ≤ 30 := by
  obtain ⟨lan, -, pools, delegated⟩ := addressing_eq_ok.mp before
  rw [addressing_eq_ok, lanNetwork_networkText hb]
  constructor
  · rintro ⟨lan', hlan', -⟩
    split at hlan'
    next room => exact room
    next => cases hlan'
  · intro room
    rw [if_pos room]
    refine ⟨_, rfl, fun pool named => ?_, delegated⟩
    unfold poolFollowing at named
    split at named
    next => cases named
    next inside =>
      have stored : desired.dhcpPool = some pool := (Option.filter_eq_some_iff.mp named).1
      refine pool_kept hb (pools pool named) ?_
      simpa [stored] using inside

theorem lanServices_following {state : DesiredState} {lan : Iface} {network : Ipv4Addr}
    {bits : Nat} (hl : lanL2 state = some lan)
    (followed : (network, bits) ∈ lanInterfacePrefixes lan)
    (hp : state.lanPrefix = some (networkText network bits)) :
    lanServicesMatchInterface state = .ok () := by
  obtain ⟨address, -, known⟩ := List.mem_filterMap.mp followed
  obtain ⟨hb, masked⟩ := ipv4Prefix_masked known
  rw [lanServices_iff hl]
  intro expected error expects
  simp only [expectedLanPrefix, hp, nonEmpty_networkText hb, Option.some.injEq,
    Prod.mk.injEq] at expects
  obtain ⟨rfl, -⟩ := expects
  exact .inr ⟨(network, bits), by rw [ipv4Prefix_networkText hb, masked], followed⟩

theorem lanServices_without {state : DesiredState} {lan : Iface} (hl : lanL2 state = some lan)
    (bare : lanInterfacePrefixes lan = []) : lanServicesMatchInterface state = .ok () :=
  (lanServices_iff hl).mpr fun _ _ _ => .inl bare

theorem pass_following {state new : DesiredState} {lan : Iface} {network : Ipv4Addr} {bits : Nat}
    (before : BootstrapValues.addressing state.lanPrefix state.dhcpPool state.wanPd = .ok ())
    (hl : lanL2 new = some lan) (followed : (network, bits) ∈ lanInterfacePrefixes lan)
    (hp : new.lanPrefix = some (networkText network bits))
    (hd : new.dhcpPool = poolFollowing (networkText network bits) state.dhcpPool)
    (hw : new.wanPd = state.wanPd) : LanValuesPass new ↔ 1 ≤ bits ∧ bits ≤ 30 := by
  obtain ⟨address, -, known⟩ := List.mem_filterMap.mp followed
  rw [LanValuesPass, and_iff_left (lanServices_following hl followed hp), hp, hd, hw]
  exact addressing_following (ipv4Prefix_masked known).1 before

theorem sync_followed {state : DesiredState} {lan : Iface} {text : String}
    (isLan : state.interfaces.find? Iface.isLan = some lan)
    (follows : (lanAddress state.lanPrefix lan.addresses).bind ipv4NetworkPrefix = some text) :
    syncLanPrefixFromFirstLan state =
      if state.lanPrefix = some text then state
      else { state with
        lanPrefix := some text
        dhcpPool := poolFollowing text state.dhcpPool } := by
  rw [syncLanPrefixFromFirstLan, isLan]
  dsimp only
  rw [follows]
  rfl

theorem sync_unfollowed {state : DesiredState}
    (nothing : followedAddress state.lanPrefix state.interfaces = none) :
    syncLanPrefixFromFirstLan state = state ∧ lanServicesMatchInterface state = .ok () := by
  unfold syncLanPrefixFromFirstLan
  cases isLan : state.interfaces.find? Iface.isLan with
  | none =>
      refine ⟨rfl, ?_⟩
      rw [lanServicesMatchInterface, lanL2, isLan]
      rfl
  | some lan =>
      have bare : lanAddress state.lanPrefix lan.addresses = none := by
        simpa [followedAddress, isLan] using nothing
      dsimp only
      rw [bare]
      exact ⟨rfl, lanServices_without isLan (lanAddress_none bare)⟩

theorem sync_pass_iff {state : DesiredState}
    (before : BootstrapValues.addressing state.lanPrefix state.dhcpPool state.wanPd = .ok ())
    (wellFormed : ∀ iface ∈ state.interfaces, ∀ a ∈ iface.addresses,
      (BootstrapValues.cidr a).isSome = true) :
    LanValuesPass (syncLanPrefixFromFirstLan state) ↔
      ∀ network bits, followedNetwork state.lanPrefix state.interfaces = some (network, bits) →
        1 ≤ bits ∧ bits ≤ 30 := by
  cases followed : followedAddress state.lanPrefix state.interfaces with
  | none =>
      obtain ⟨same, matched⟩ := sync_unfollowed followed
      rw [same]
      simp [LanValuesPass, before, matched, followedNetwork, followed]
  | some address =>
      obtain ⟨lan, isLan, follows⟩ := Option.bind_eq_some_iff.mp followed
      obtain ⟨mem, reads⟩ :=
        lanAddress_spec (wellFormed lan (List.mem_of_find?_eq_some isLan)) follows
      obtain ⟨⟨network, bits⟩, known⟩ := Option.isSome_iff_exists.mp reads
      have listed : (network, bits) ∈ lanInterfacePrefixes lan :=
        List.mem_filterMap.mpr ⟨address, mem, known⟩
      have hb := (ipv4Prefix_masked known).1
      have text : (lanAddress state.lanPrefix lan.addresses).bind ipv4NetworkPrefix =
          some (networkText network bits) := by
        rw [follows, Option.bind_some, ipv4NetworkPrefix, known]
        rfl
      have target : followedNetwork state.lanPrefix state.interfaces = some (network, bits) := by
        rw [followedNetwork, followed, Option.bind_some, known]
      have hasRoom : (∀ network' bits', some (network, bits) = some (network', bits') →
          1 ≤ bits' ∧ bits' ≤ 30) ↔ 1 ≤ bits ∧ bits ≤ 30 := by simp
      rw [sync_followed isLan text, target, hasRoom]
      split
      next same =>
        have room : 1 ≤ bits ∧ bits ≤ 30 := by
          obtain ⟨lan', hlan', -⟩ := addressing_eq_ok.mp before
          rw [same, lanNetwork_networkText hb] at hlan'
          split at hlan'
          next room => exact room
          next => cases hlan'
        exact iff_of_true ⟨before, lanServices_following isLan listed same⟩ room
      next => exact pass_following before isLan listed rfl rfl rfl

theorem find_keepAcquisition (previous interfaces : List Iface) :
    (interfaces.map (keepAcquisition previous)).find? Iface.isLan =
      (interfaces.find? Iface.isLan).map (keepAcquisition previous) := by
  rw [List.find?_map]
  congr 2
  funext iface
  simp only [Function.comp_apply, keepAcquisition]
  split <;> rfl

theorem keepAcquisition_addresses (previous : List Iface) (iface : Iface) :
    (keepAcquisition previous iface).addresses = iface.addresses := by
  simp only [keepAcquisition]
  split <;> rfl

end LanSyncLemmas

open LanSyncLemmas

/-- After an interface edit netd still accepts the LAN prefix and the pool exactly if
the address that the prefix follows leaves room for hosts. -/
theorem storeInterfaceSection_valid_iff {desired : DesiredState} {interfaces : List Iface}
    {uiExposure : List String} (before : LanValuesPass desired)
    (wellFormed : ∀ iface ∈ interfaces, ∀ a ∈ iface.addresses,
      (BootstrapValues.cidr a).isSome = true) :
    LanValuesPass (storeInterfaceSection desired interfaces uiExposure) ↔
      ∀ network bits, followedNetwork desired.lanPrefix interfaces = some (network, bits) →
        1 ≤ bits ∧ bits ≤ 30 := by
  have kept : followedNetwork desired.lanPrefix
      (interfaces.map (keepAcquisition desired.interfaces)) =
      followedNetwork desired.lanPrefix interfaces := by
    rw [followedNetwork, followedAddress, find_keepAcquisition, Option.bind_map]
    simp only [Function.comp_def, keepAcquisition_addresses]
    rfl
  rw [← kept]
  refine sync_pass_iff before.1 fun iface mem a ha => ?_
  obtain ⟨given, old, rfl⟩ := List.mem_map.mp mem
  rw [keepAcquisition_addresses] at ha
  exact wellFormed given old a ha

namespace LanSync

/-- A LAN with this address serves 192.168.1.0/24. -/
def edited : DesiredState := {
  interfaces := [{ name := "enp2s0", role := some "lan", addresses := ["192.168.1.1/24"] }]
  lanPrefix := some "192.168.1.0/24"
  dhcpPool := some "192.168.1.20-192.168.1.40"
  uiExposure := ["enp2s0"]
}

def lanAt (address : String) : List Iface :=
  [{ name := "enp2s0", role := some "lan", addresses := [address] }]

theorem edit_of_mask_passes :
    LanValuesPass (storeInterfaceSection edited (lanAt "192.168.1.1/25") ["enp2s0"]) :=
  (storeInterfaceSection_valid_iff (by unfold LanValuesPass; decide +kernel)
    (by decide +kernel)).mpr fun network bits follows => by
      have known : followedNetwork edited.lanPrefix (lanAt "192.168.1.1/25") =
          some (0xc0a80100, 25) := by decide +kernel
      rw [known] at follows
      cases follows
      decide

/-- The prefix that follows a host address is one that netd refuses. -/
theorem edit_to_host_fails :
    LanValuesPass edited ∧
      (storeInterfaceSection edited (lanAt "192.168.1.1/32") ["enp2s0"]).lanPrefix =
        some "192.168.1.1/32" ∧
      ¬ LanValuesPass (storeInterfaceSection edited (lanAt "192.168.1.1/32") ["enp2s0"]) := by
  unfold LanValuesPass
  decide +kernel

end LanSync

end Fwos
