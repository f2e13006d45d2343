import Fwos.Revalidate

/-!
# The addresses that a Desired state asks for

netd's `desired_addresses` lists the pairs of a device and a CIDR that `apply`
configures: those of the interfaces, those of the tunnels, and the LAN address in
the prefix routed to the LAN. That prefix is the static one of the state or the one
a DHCPv6 client left in its file.

`mem_desiredAddresses_merge` says what `merge_lan_prefix_addr` adds to the list.
-/

namespace Fwos

open Rust RevalidateLemmas

/-- The delegated prefix that a DHCPv6 client left in the file of its device. -/
abbrev PdFiles := String → Option String

def acquiredPrefix (files : PdFiles) (state : DesiredState) : Option String := do
  let wan ← state.interfaces.find? fun iface => iface.requestPd && iface.isWan
  let raw ← files wan.name
  let text := trim raw
  (BootstrapValues.delegatedLan text).map fun _ => text

/-- The IPv6 prefix routed to the LAN; a static one comes first. -/
def routedLanPrefix (files : PdFiles) (state : DesiredState) : Option String :=
  staticLanPrefix state <|> acquiredPrefix files state

def pdLanAddr (pd : String) : Option String :=
  (BootstrapValues.delegatedLan pd).map (·.addressCidr)

/-- The LAN address in the routed prefix. -/
def routedAddress (files : PdFiles) (state : DesiredState) : Option (String × String) := do
  let lan ← lanL2 state
  let pd ← (routedLanPrefix files state).bind pdLanAddr
  return (lan.name, pd)

/-- The devices and CIDRs that `apply` configures. -/
def desiredAddresses (files : PdFiles) (state : DesiredState) : List (String × String) :=
  state.interfaces.flatMap (fun iface => iface.addresses.map fun cidr => (iface.name, cidr)) ++
    state.wireguard.flatMap (fun wg => wg.addresses.map fun cidr => (wg.name, cidr)) ++
    (routedAddress files state).toList

/-- Whether the LAN lists a host address, with any prefix length. -/
def listsHost (host : String) (lan : Iface) : Bool :=
  lan.addresses.any (startsWith · s!"{host}/")

/-- The address that `merge_lan_prefix_addr` adds to the LAN. -/
def mergedAddress (state : DesiredState) (lan : Iface) : Option String := do
  let text ← lanServicePrefix state
  let host ← firstV4Host text
  if listsHost host lan then none else some s!"{host}/{prefixLength text}"

/-- The LAN after the merge. -/
def withMerged (state : DesiredState) (lan : Iface) : Iface :=
  { lan with addresses := lan.addresses ++ (mergedAddress state lan).toList }

namespace AddressesLemmas

theorem addServiceAddress_eq (host length : String) (lan : Iface) :
    addServiceAddress host length lan =
      if listsHost host lan then lan
      else { lan with addresses := lan.addresses ++ [s!"{host}/{length}"] } := by
  have hlead : ∀ a : String, a = s!"{host}/{length}" → startsWith a s!"{host}/" = true := by
    rintro _ rfl
    exact startsWith_iff.mpr ⟨length.toList, by simp; rfl⟩
  have hany : (lan.addresses.any fun a => a == s!"{host}/{length}" || startsWith a s!"{host}/") =
      listsHost host lan := by
    rw [listsHost, Bool.eq_iff_iff]
    simp only [List.any_eq_true, Bool.or_eq_true, beq_iff_eq]
    exact exists_congr fun a => and_congr_right fun _ => or_iff_right_of_imp (hlead a)
  simp only [addServiceAddress, hany]

theorem modifyFirst_id {α : Type} {p : α → Bool} {change : α → α} {list : List α}
    (h : ∀ a, list.find? p = some a → change a = a) : modifyFirst p change list = list := by
  induction list with
  | nil => rfl
  | cons a rest ih =>
    unfold modifyFirst
    split
    next hp => rw [h a (by simp [hp])]
    next hp => rw [ih fun x hx => h x (by simpa [hp] using hx)]

/-- A change of the first element that matches, seen through what one element gives. -/
theorem mem_flatMap_modifyFirst {α β : Type} {p : α → Bool} {change : α → α}
    (f extra : α → List β) (hc : ∀ a b, b ∈ f (change a) ↔ b ∈ f a ∨ b ∈ extra a)
    (list : List α) (b : β) :
    b ∈ (modifyFirst p change list).flatMap f ↔
      b ∈ list.flatMap f ∨ ∃ a, list.find? p = some a ∧ b ∈ extra a := by
  induction list with
  | nil => simp [modifyFirst]
  | cons a rest ih =>
    by_cases hp : p a = true
    · simp only [modifyFirst, hp, if_true, List.flatMap_cons, List.mem_append, hc,
        List.find?_cons_of_pos, Option.some.injEq, exists_eq_left']
      tauto
    · simp only [modifyFirst, hp, if_false, List.flatMap_cons, List.mem_append, ih,
        List.find?_cons_of_neg, Bool.false_eq_true, not_false_eq_true]
      tauto

theorem routedAddress_bare {files : PdFiles} {state : DesiredState} :
    routedAddress files state.bare = routedAddress files state := by
  have hlan : lanL2 state.bare = (lanL2 state).map Iface.bare := find_bare _ fun _ => rfl
  have hacquired : acquiredPrefix files state.bare = acquiredPrefix files state := by
    simp only [acquiredPrefix]
    rw [find_bare _ fun _ => rfl]
    cases state.interfaces.find? fun iface => iface.requestPd && iface.isWan <;> rfl
  simp only [routedAddress, routedLanPrefix, hlan, hacquired]
  cases lanL2 state <;> rfl

end AddressesLemmas

open AddressesLemmas

/-- The merge changes the first LAN, to which it adds one address at most. -/
theorem mergeLanPrefixAddr_eq (state : DesiredState) :
    mergeLanPrefixAddr state =
      { state with interfaces := modifyFirst Iface.isLan (withMerged state) state.interfaces } := by
  unfold mergeLanPrefixAddr
  cases ht : lanServicePrefix state with
  | none =>
    rw [modifyFirst_id fun lan _ => by simp [withMerged, mergedAddress, ht]]
  | some text =>
    cases hh : firstV4Host text with
    | none =>
      rw [modifyFirst_id fun lan _ => by simp [withMerged, mergedAddress, ht, hh]]
      simp [hh]
    | some host =>
      have hchange : addServiceAddress host (prefixLength text) = withMerged state := by
        funext lan
        simp only [addServiceAddress_eq, withMerged, mergedAddress, ht, hh, Option.bind_eq_bind,
          Option.bind_some]
        split <;> simp
      simp only [hh, hchange]

/-- The pairs listed after the merge: those of the state and the merged address. -/
theorem mem_desiredAddresses_merge (files : PdFiles) (state : DesiredState)
    (entry : String × String) :
    entry ∈ desiredAddresses files (mergeLanPrefixAddr state) ↔
      entry ∈ desiredAddresses files state ∨
        ∃ lan, lanL2 state = some lan ∧ ∃ cidr, mergedAddress state lan = some cidr ∧
          entry = (lan.name, cidr) := by
  have hrouted : routedAddress files (mergeLanPrefixAddr state) = routedAddress files state := by
    rw [← routedAddress_bare, extends_bare mergeLanPrefixAddr_extends, routedAddress_bare]
  have hmerged : entry ∈ (mergeLanPrefixAddr state).interfaces.flatMap
        (fun iface => iface.addresses.map fun cidr => (iface.name, cidr)) ↔
      entry ∈ state.interfaces.flatMap
          (fun iface => iface.addresses.map fun cidr => (iface.name, cidr)) ∨
        ∃ lan, lanL2 state = some lan ∧
          entry ∈ (mergedAddress state lan).toList.map fun cidr => (lan.name, cidr) := by
    rw [mergeLanPrefixAddr_eq]
    exact mem_flatMap_modifyFirst _
      (fun lan => (mergedAddress state lan).toList.map fun cidr => (lan.name, cidr))
      (fun lan entry => by simp only [withMerged, List.map_append, List.mem_append]) _ _
  have hwg : (mergeLanPrefixAddr state).wireguard = state.wireguard := by
    rw [mergeLanPrefixAddr_eq]
  simp only [desiredAddresses, List.mem_append, hmerged, hwg, hrouted]
  simp only [List.mem_map, Option.mem_toList, eq_comm (a := entry)]
  exact (or_congr_left or_right_comm).trans or_right_comm

end Fwos
