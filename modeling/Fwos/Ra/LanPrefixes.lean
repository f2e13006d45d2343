import Fwos.Delegated
import Fwos.Lists.Upsert
import Fwos.Ra.Advertiser

/-!
# The prefixes that are advertised on the LANs

`lan_ipv6` collects the /64s that are routed onto LAN links: the one derived from the
routed prefix and those of the addresses of LAN interfaces. `Ipv6Runtime::refresh` groups
them by device for the advertiser (`netd.rs`). `lan_ipv6` compares the text of a prefix
length, where `validate` parses it as a number.

* `Routed`: the device and network of a /64 that a Desired state routes onto a LAN.
* `lan_prefixes_exact`: the prefixes are distinct, they are the routed ones exactly if
  what is not written `/64` is routed anyway, and each is passed on once.
-/

namespace Fwos.Ra

open Rust RevalidateLemmas BootstrapValues Lists

/-! ## Collecting -/

structure LanIpv6 where
  source : String
  prefixes : List (String × Ipv6Addr)
  note : String
deriving DecidableEq, Repr

/-- The network of an address of a LAN interface, if it is advertised. -/
def interfaceNetwork (text : String) : Option Ipv6Addr := do
  let (address, bits) ← splitOnce text '/'
  let address ← parseIpv6 address
  if bits != "64" || isUnicastLinkLocal address || (IpAddr.v6 address).isMulticast then none
  else some (address &&& BitVec.allOnes 128 <<< 64)

/-- The prefixes and the source after an address of a LAN interface. -/
def addInterfacePrefix (dev : String) (found : List (String × Ipv6Addr) × String) (text : String) :
    List (String × Ipv6Addr) × String :=
  match interfaceNetwork text with
  | none => found
  | some network =>
      if found.1.any fun known => known.1 == dev && known.2 == network then found
      else (found.1 ++ [(dev, network)], if found.2 == "none" then "interface" else found.2)

/-- The LAN's /64 in the routed prefix. -/
def delegatedPrefix (state : DesiredState) (delegated : Option String) :
    Option (String × Ipv6Addr) := do
  let lan ← lanL2 state
  let pd ← delegated.bind delegatedLan
  let (network, _) ← splitOnce pd.subnetCidr '/'
  return (lan.name, ← parseIpv6 network)

def startPrefixes (state : DesiredState) (delegated : Option String) :
    List (String × Ipv6Addr) × String :=
  match delegatedPrefix state delegated with
  | some pair => ([pair], if (staticLanPrefix state).isSome then "static" else "delegated")
  | none => ([], "none")

def lanIpv6 (state : DesiredState) (delegated : Option String) : LanIpv6 :=
  let (prefixes, source) := (state.interfaces.filter Iface.isLan).foldl
    (fun found iface => iface.addresses.foldl (addInterfacePrefix iface.name) found)
    (startPrefixes state delegated)
  let note :=
    if prefixes.isEmpty then
      "No delegated or routed IPv6 prefix: the LAN has no global IPv6 and IPv6 is not " ++
        "forwarded. There is no NAT66, NPTv6, or NAT64."
    else "IPv6 from the LAN is routed to the WAN without translation."
  { source, prefixes, note }

/-! ## Grouping -/

/-- The entry of a new device; Kea serves the first LAN if a prefix is routed to it. -/
def newLan (state : DesiredState) (delegated : Option String) (pair : String × Ipv6Addr) : Lan :=
  { dev := pair.1
    prefixes := [pair.2]
    managed := delegated.isSome && (lanL2 state).any (·.name == pair.1) }

def groupLans (state : DesiredState) (delegated : Option String)
    (prefixes : List (String × Ipv6Addr)) : List Lan :=
  prefixes.foldl (fun lans pair =>
    upsert (·.dev == pair.1) (fun lan => { lan with prefixes := lan.prefixes ++ [pair.2] })
      (newLan state delegated pair) lans) []

/-- What `refresh` passes to the advertiser. -/
def advertisedLans (files : PdFiles) (state : DesiredState) : List Lan :=
  let delegated := routedLanPrefix files state
  groupLans state delegated (lanIpv6 state delegated).prefixes

/-! ## What is routed -/

/-- The /64 that the routed prefix gives the first LAN. -/
def DelegatedTo (state : DesiredState) (delegated : Option String) (pair : String × Ipv6Addr) :
    Prop :=
  ∃ lan pd, lanL2 state = some lan ∧ delegated.bind delegatedLan = some pd ∧
    cidr pd.subnetCidr = some (.v6 pair.2, 64) ∧ pair.1 = lan.name

/-- The /64 of this address of a LAN interface, neither link-local nor multicast. -/
def OnInterface (state : DesiredState) (pair : String × Ipv6Addr) (text : String) : Prop :=
  ∃ iface ∈ state.interfaces, iface.isLan = true ∧ iface.name = pair.1 ∧ text ∈ iface.addresses ∧
    ∃ address, cidr text = some (.v6 address, 64) ∧ isUnicastLinkLocal address = false ∧
      (IpAddr.v6 address).isMulticast = false ∧ pair.2 = address &&& prefixMask 128 64

def Routed (state : DesiredState) (delegated : Option String) (pair : String × Ipv6Addr) : Prop :=
  DelegatedTo state delegated pair ∨ ∃ text, OnInterface state pair text

/-- The prefix length is written as these two digits. -/
def written64 (text : String) : Bool := (splitOnce text '/').any (·.2 == "64")

/-- A /64 whose length is written otherwise is routed onto the device by something else. -/
def RoutedAsWritten (state : DesiredState) (delegated : Option String) : Prop :=
  ∀ pair text, OnInterface state pair text → written64 text = false →
    DelegatedTo state delegated pair ∨ ∃ other, OnInterface state pair other ∧ written64 other = true

/-- One entry for each device, all pairs once, and Kea on the first LAN with a usable
routed prefix. -/
structure Grouped (files : PdFiles) (state : DesiredState) (lans : List Lan) : Prop where
  devices : (lans.map (·.dev)).Nodup
  pairs : (lans.flatMap fun lan => lan.prefixes.map (lan.dev, ·)).Perm
    (lanIpv6 state (routedLanPrefix files state)).prefixes
  managed : ∀ lan ∈ lans, lan.managed = true ↔
    (lanL2 state).any (·.name == lan.dev) = true ∧
      ∃ pd, (routedLanPrefix files state).bind delegatedLan = some pd

namespace LanPrefixLemmas

open DelegatedLemmas

/-! ## Collecting -/

theorem interfaceNetwork_eq_some {text : String} {network : Ipv6Addr} :
    interfaceNetwork text = some network ↔ written64 text = true ∧
      ∃ address, cidr text = some (.v6 address, 64) ∧ isUnicastLinkLocal address = false ∧
        (IpAddr.v6 address).isMulticast = false ∧ network = address &&& prefixMask 128 64 := by
  have sixtyFour : parseU8 "64" = some 64 := by decide
  simp only [cidr_eq_v6, interfaceNetwork, written64, Option.bind_eq_bind,
    Option.bind_eq_some_iff, Prod.exists, Option.any_eq_true, beq_iff_eq]
  constructor
  · rintro ⟨ip, bits, split, address, parsed, h⟩
    split at h
    · cases h
    next kept =>
      simp only [Bool.or_eq_true, bne_iff_ne, ne_eq, not_or, not_not, Bool.not_eq_true] at kept
      obtain ⟨⟨rfl, notLocal⟩, unicast⟩ := kept
      exact ⟨⟨ip, "64", split, rfl⟩, address, ⟨ip, "64", split, parsed, sixtyFour, by decide⟩,
        notLocal, unicast, (Option.some.inj h).symm⟩
  · rintro ⟨⟨ip, bits, split, rfl⟩, address, ⟨ip', bits', split', parsed, -, -⟩, notLocal,
      unicast, rfl⟩
    obtain ⟨rfl, rfl⟩ := Prod.mk.inj (Option.some.inj (split.symm.trans split'))
    refine ⟨ip, "64", split, address, parsed, ?_⟩
    rw [notLocal, unicast]
    rfl

theorem addInterfacePrefix_spec (dev : String) (found : List (String × Ipv6Addr) × String)
    (text : String) :
    (found.1.Nodup → (addInterfacePrefix dev found text).1.Nodup) ∧
    ∀ pair, pair ∈ (addInterfacePrefix dev found text).1 ↔
      pair ∈ found.1 ∨ dev = pair.1 ∧ interfaceNetwork text = some pair.2 := by
  unfold addInterfacePrefix
  cases read : interfaceNetwork text with
  | none => exact ⟨id, fun pair => by simp⟩
  | some network =>
      have known : (found.1.any fun known => known.1 == dev && known.2 == network) = true ↔
          (dev, network) ∈ found.1 := by
        simp only [List.any_eq_true, Bool.and_eq_true, beq_iff_eq]
        constructor
        · rintro ⟨pair, mem, rfl, rfl⟩
          exact mem
        · intro mem
          exact ⟨_, mem, rfl, rfl⟩
      have same (pair : String × Ipv6Addr) :
          dev = pair.1 ∧ some network = some pair.2 ↔ pair = (dev, network) := by
        rw [Option.some.injEq, Prod.ext_iff]
        exact and_congr eq_comm eq_comm
      dsimp only
      simp only [same]
      split
      next there =>
        refine ⟨id, fun pair => (or_iff_left_of_imp ?_).symm⟩
        rintro rfl
        exact known.mp there
      next missing =>
        refine ⟨fun distinct => ?_, fun pair => by rw [List.mem_append, List.mem_singleton]⟩
        have added := distinct.concat (mt known.mpr missing)
        rw [List.concat_eq_append] at added
        exact added

/-- All addresses of the LAN interfaces, with their devices. -/
def lanTexts (state : DesiredState) : List (String × String) :=
  (state.interfaces.filter Iface.isLan).flatMap fun iface => iface.addresses.map (iface.name, ·)

theorem prefixes_eq (state : DesiredState) (delegated : Option String) :
    (lanIpv6 state delegated).prefixes = ((lanTexts state).foldl
      (fun found text => addInterfacePrefix text.1 found text.2)
      (startPrefixes state delegated)).1 := by
  rw [lanTexts, List.foldl_flatMap]
  simp only [List.foldl_map]
  rfl

theorem foldl_addInterfacePrefix (texts : List (String × String))
    (found : List (String × Ipv6Addr) × String) :
    let result := texts.foldl (fun found text => addInterfacePrefix text.1 found text.2) found
    (found.1.Nodup → result.1.Nodup) ∧ ∀ pair, pair ∈ result.1 ↔
      pair ∈ found.1 ∨ ∃ text, (pair.1, text) ∈ texts ∧ interfaceNetwork text = some pair.2 := by
  induction texts generalizing found with
  | nil => exact ⟨id, fun pair => by simp⟩
  | cons text texts ih =>
      obtain ⟨distinct, mem⟩ := ih (addInterfacePrefix text.1 found text.2)
      obtain ⟨distinct', mem'⟩ := addInterfacePrefix_spec text.1 found text.2
      refine ⟨distinct ∘ distinct', fun pair => ?_⟩
      rw [List.foldl_cons, mem, mem', or_assoc]
      refine or_congr_right ⟨?_, ?_⟩
      · rintro (⟨dev, network⟩ | ⟨other, later, network⟩)
        · exact ⟨text.2, by rw [← dev]; exact List.mem_cons_self, network⟩
        · exact ⟨other, List.mem_cons_of_mem _ later, network⟩
      · rintro ⟨other, listed, network⟩
        rcases List.mem_cons.mp listed with same | later
        · rw [← same]
          exact .inl ⟨rfl, network⟩
        · exact .inr ⟨other, later, network⟩

theorem delegatedPrefix_eq_some {state : DesiredState} {delegated : Option String}
    {pair : String × Ipv6Addr} :
    delegatedPrefix state delegated = some pair ↔ DelegatedTo state delegated pair := by
  simp only [delegatedPrefix, DelegatedTo, Option.bind_eq_bind, Option.bind_eq_some_iff,
    Prod.exists]
  constructor
  · rintro ⟨lan, first, pd, ⟨text, found, placed⟩, ip, bits, split, network, parsed, ⟨⟩⟩
    obtain ⟨subnet, whole, -⟩ := exists_subnet placed
    obtain ⟨ip', bits', split', parsed', -⟩ := cidr_eq_v6.mp whole
    obtain ⟨rfl, -⟩ := Prod.mk.inj (Option.some.inj (split.symm.trans split'))
    obtain rfl := Option.some.inj (parsed.symm.trans parsed')
    exact ⟨lan, pd, first, ⟨text, found, placed⟩, whole, rfl⟩
  · rintro ⟨lan, pd, first, placed, whole, name⟩
    obtain ⟨ip, bits, split, parsed, -⟩ := cidr_eq_v6.mp whole
    refine ⟨lan, first, pd, placed, ip, bits, split, pair.2, parsed, ?_⟩
    rw [← name]
    rfl

theorem mem_lanTexts {state : DesiredState} {dev text : String} :
    (dev, text) ∈ lanTexts state ↔
      ∃ iface ∈ state.interfaces, iface.isLan = true ∧ iface.name = dev ∧ text ∈ iface.addresses := by
  simp only [lanTexts, List.mem_flatMap, List.mem_filter, List.mem_map, Prod.mk.injEq, and_assoc]
  refine exists_congr fun iface => and_congr_right fun _ => and_congr_right fun _ => ?_
  constructor
  · rintro ⟨text', mem, same, rfl⟩
    exact ⟨same, mem⟩
  · rintro ⟨same, mem⟩
    exact ⟨text, mem, same, rfl⟩

theorem onInterface_iff {state : DesiredState} {pair : String × Ipv6Addr} {text : String} :
    OnInterface state pair text ∧ written64 text = true ↔
      (pair.1, text) ∈ lanTexts state ∧ interfaceNetwork text = some pair.2 := by
  rw [mem_lanTexts, interfaceNetwork_eq_some]
  constructor
  · rintro ⟨⟨iface, mem, lan, name, listed, network⟩, written⟩
    exact ⟨⟨iface, mem, lan, name, listed⟩, written, network⟩
  · rintro ⟨⟨iface, mem, lan, name, listed⟩, written, network⟩
    exact ⟨⟨iface, mem, lan, name, listed, network⟩, written⟩

/-- What is collected. -/
theorem mem_prefixes {state : DesiredState} {delegated : Option String}
    {pair : String × Ipv6Addr} :
    pair ∈ (lanIpv6 state delegated).prefixes ↔
      DelegatedTo state delegated pair ∨
        ∃ text, OnInterface state pair text ∧ written64 text = true := by
  have start : pair ∈ (startPrefixes state delegated).1 ↔ DelegatedTo state delegated pair := by
    rw [← delegatedPrefix_eq_some, startPrefixes]
    cases delegatedPrefix state delegated with
    | none => simp
    | some first => simp [eq_comm]
  rw [prefixes_eq, (foldl_addInterfacePrefix _ _).2, start]
  simp only [onInterface_iff]

theorem prefixes_nodup (state : DesiredState) (delegated : Option String) :
    (lanIpv6 state delegated).prefixes.Nodup := by
  rw [prefixes_eq]
  refine (foldl_addInterfacePrefix _ _).1 ?_
  rw [startPrefixes]
  split
  · exact List.nodup_singleton _
  · exact List.nodup_nil

theorem prefixes_masked {state : DesiredState} {delegated : Option String}
    {pair : String × Ipv6Addr} (mem : pair ∈ (lanIpv6 state delegated).prefixes) :
    pair.2 &&& prefixMask 128 64 = pair.2 := by
  rcases mem_prefixes.mp mem with ⟨lan, pd, -, placed, whole, -⟩ | ⟨text, ⟨iface, -, -, -, -,
    address, -, -, -, network⟩, -⟩
  · obtain ⟨text, -, placed⟩ := Option.bind_eq_some_iff.mp placed
    obtain ⟨subnet, whole', masked⟩ := exists_subnet placed
    cases whole.symm.trans whole'
    exact masked
  · rw [network, BitVec.and_assoc, BitVec.and_self]

theorem prefixes_exact_iff (state : DesiredState) (delegated : Option String) :
    (∀ pair, pair ∈ (lanIpv6 state delegated).prefixes ↔ Routed state delegated pair) ↔
      RoutedAsWritten state delegated := by
  simp only [mem_prefixes]
  constructor
  · intro all pair text found _
    exact (all pair).mpr (.inr ⟨text, found⟩)
  · intro written pair
    refine or_congr_right' fun other => ⟨fun ⟨text, found, _⟩ => ⟨text, found⟩, ?_⟩
    rintro ⟨text, found⟩
    cases digits : written64 text with
    | true => exact ⟨text, found, digits⟩
    | false => exact (written pair text found digits).resolve_left other

/-! ## Grouping -/

variable {state : DesiredState} {delegated : Option String}

/-- An entry's pairs. -/
def lanPairs (lan : Lan) : List (String × Ipv6Addr) := lan.prefixes.map (lan.dev, ·)

theorem upsert_pairs (lans : List Lan) (pair : String × Ipv6Addr) :
    ((upsert (·.dev == pair.1) (fun lan => { lan with prefixes := lan.prefixes ++ [pair.2] })
      (newLan state delegated pair) lans).flatMap lanPairs).Perm
      (lans.flatMap lanPairs ++ [pair]) := by
  rcases @upsert_cases _ (fun lan : Lan => lan.dev == pair.1)
    (fun lan => { lan with prefixes := lan.prefixes ++ [pair.2] }) (newLan state delegated pair)
    lans with ⟨front, lan, back, rfl, hits, same⟩ | ⟨-, same⟩
  · have dev : lan.dev = pair.1 := beq_iff_eq.mp hits
    have added : lanPairs { lan with prefixes := lan.prefixes ++ [pair.2] } =
        lanPairs lan ++ [pair] := by
      rw [lanPairs, List.map_append, List.map_singleton]
      dsimp only
      rw [dev, lanPairs, dev]
    rw [same, List.flatMap_append, List.flatMap_append, List.flatMap_cons, List.flatMap_cons, added,
      List.append_assoc, List.append_assoc, List.append_assoc]
    exact ((List.perm_append_comm.append_left _).append_left _)
  · rw [same, List.flatMap_append]
    exact .refl _

theorem groupLans_pairs (prefixes : List (String × Ipv6Addr)) :
    ((groupLans state delegated prefixes).flatMap lanPairs).Perm prefixes := by
  have kept (lans : List Lan) : ((prefixes.foldl (fun lans pair =>
      upsert (·.dev == pair.1) (fun lan => { lan with prefixes := lan.prefixes ++ [pair.2] })
        (newLan state delegated pair) lans) lans).flatMap lanPairs).Perm
      (lans.flatMap lanPairs ++ prefixes) := by
    induction prefixes generalizing lans with
    | nil => rw [List.append_nil]; exact .refl _
    | cons pair prefixes ih =>
        refine (ih _).trans (((upsert_pairs lans pair).append_right prefixes).trans ?_)
        rw [List.append_assoc]
        exact .refl _
  exact kept []

/-- Kea's mark of each entry is that of its device. -/
def marked (state : DesiredState) (delegated : Option String) (lan : Lan) : Prop :=
  lan.managed = (delegated.isSome && (lanL2 state).any (·.name == lan.dev))

theorem groupLans_entries (prefixes : List (String × Ipv6Addr)) :
    ((groupLans state delegated prefixes).map (·.dev)).Nodup ∧
      ∀ lan ∈ groupLans state delegated prefixes, marked state delegated lan := by
  have overlay : Overlay Lan.dev (prefixes.map Prod.fst) [] (groupLans state delegated prefixes) :=
    Overlay.foldl fun lans pair mem =>
      Overlay.upsert (List.mem_map_of_mem mem) (fun _ same => same) rfl
  have extends_ : Extends (fun _ _ => False) (marked state delegated) []
      (groupLans state delegated prefixes) :=
    Extends.foldl (.rest nofun) fun lans pair _ h =>
      h.upsert (fun _ _ h _ => h) (fun _ h _ => h) rfl
  exact ⟨overlay.distinct List.nodup_nil, extends_.forall_mem (fun _ _ h => h.elim) fun _ h => h⟩

/-- An accepted state's prefix gives a LAN. -/
theorem exists_delegatedLan [Base64] (accepted : Accepts state) (files : PdFiles) {text : String}
    (h : routedLanPrefix files state = some text) : ∃ pd, delegatedLan text = some pd := by
  rw [routedLanPrefix, Option.orElse_eq_some] at h
  rcases h with static | ⟨-, acquired⟩
  · have addressing := accepted.addressing
    simp only [BootstrapValues.addressing, bind_eq_ok, option_forM_eq_ok, ensure_eq_ok] at addressing
    obtain ⟨-, -, -, -, placed⟩ := addressing
    exact Option.isSome_iff_exists.mp (placed text static)
  · simp only [acquiredPrefix, Option.bind_eq_bind, Option.bind_eq_some_iff,
      Option.map_eq_some_iff] at acquired
    obtain ⟨wan, -, raw, -, pd, placed, rfl⟩ := acquired
    exact ⟨pd, placed⟩

theorem grouped [Base64] (accepted : Accepts state) (files : PdFiles) :
    Grouped files state (advertisedLans files state) := by
  have entries := @groupLans_entries state (routedLanPrefix files state)
    (lanIpv6 state (routedLanPrefix files state)).prefixes
  refine ⟨entries.1, groupLans_pairs _, fun lan mem => ?_⟩
  rw [entries.2 lan mem, Bool.and_eq_true, and_comm]
  refine and_congr_right fun _ => ?_
  cases routed : routedLanPrefix files state with
  | none => simp
  | some text => exact iff_of_true rfl (exists_delegatedLan accepted files routed)

end LanPrefixLemmas

open LanPrefixLemmas

/-- The prefixes of an accepted state are distinct /64s, grouped by device with each passed
on once. They are the routed ones exactly if every LAN address whose length of 64 is not
written so shares its network with the delegated prefix or with an address that is. -/
theorem lan_prefixes_exact [Base64] {state : DesiredState} (accepted : validate state = .ok ())
    (delegated : Option String) (files : PdFiles) :
    (lanIpv6 state delegated).prefixes.Nodup ∧
    (∀ pair ∈ (lanIpv6 state delegated).prefixes, pair.2 &&& prefixMask 128 64 = pair.2) ∧
    ((∀ pair, pair ∈ (lanIpv6 state delegated).prefixes ↔ Routed state delegated pair) ↔
      RoutedAsWritten state delegated) ∧
    Grouped files state (advertisedLans files state) :=
  ⟨prefixes_nodup state delegated, fun _ => prefixes_masked, prefixes_exact_iff state delegated,
    grouped (validate_iff.mp accepted) files⟩

namespace LanPrefixes

/-- A LAN with one address of this length. -/
def lanWith (length : String) : DesiredState where
  interfaces := [
    { name := "enp1s0", role := some "wan", addresses := ["203.0.113.2/24"] },
    { name := "enp2s0", role := some "lan", addresses := [s!"2001:db8:30::1/{length}"] }]
  uiExposure := ["enp2s0"]

theorem lan_prefixes_exact_plain :
    (lanIpv6 (lanWith "64") none).prefixes.Nodup ∧
    ∀ pair, pair ∈ (lanIpv6 (lanWith "64") none).prefixes ↔
      Routed (lanWith "64") none pair := by
  have exact := @lan_prefixes_exact Revalidate.noKeys (lanWith "64") (by decide +kernel) none
    fun _ => none
  refine ⟨exact.1, exact.2.2.1.mpr ?_⟩
  rintro pair text ⟨iface, mem, lan, name, listed, -⟩ padded
  fin_cases mem
  · cases lan
  · obtain rfl := List.mem_singleton.mp listed
    exact absurd padded (by decide)

/-- With a leading zero the same address is accepted and not advertised. -/
theorem padded_length_not_advertised :
    @validate Revalidate.noKeys (lanWith "064") = .ok () ∧
    Routed (lanWith "064") none ("enp2s0", 0x20010db8003000000000000000000000) ∧
    (lanIpv6 (lanWith "064") none).prefixes = [] ∧
    (lanIpv6 (lanWith "64") none).prefixes = [("enp2s0", 0x20010db8003000000000000000000000)] := by
  refine ⟨by decide +kernel, .inr ⟨"2001:db8:30::1/064", _, List.mem_cons_of_mem _
    List.mem_cons_self, rfl, rfl, List.mem_singleton.mpr (by decide +kernel),
    0x20010db8003000000000000000000001, by decide +kernel, by decide, by decide, by decide⟩,
    by decide +kernel, by decide +kernel⟩

end LanPrefixes

end Fwos.Ra
