import Fwos.Validate
import Mathlib.Data.List.Forall2

/-!
# What `apply` adds to a Desired state

Before it programs the Forwarding netns, netd's `apply` completes the state it
was given: an interface that lists no addresses takes the live ones, and the
first LAN takes the address of its prefix (`merge_lan_prefix_addr`). The callers
persist the completed state and validate it again at the next start.

* `complete` is that completion, for any live addresses.
* `Extends` says all that it can change.
-/

namespace Fwos

open Rust

/-- What `capture_ipv4` answers for an interface; nothing where it fails. -/
abbrev Live := String → Option (List String)

/-- The interfaces whose live addresses are captured: those of the Traffic NICs
that are a LAN or exposed, by name. -/
def captureNames (state : DesiredState) : List String :=
  (state.interfaces.filter fun iface =>
    iface.vlan.isNone && (exposesUi state iface.name || iface.isLan)).map (·.name)

/-- One interface takes its captured addresses if it lists none. -/
def fillAddresses (captured : Option (List String)) (iface : Iface) : Iface :=
  match captured with
  | some addrs =>
      if !addrs.isEmpty && iface.addresses.isEmpty then { iface with addresses := addrs } else iface
  | none => iface

def captureIface (state : DesiredState) (live : Live) (iface : Iface) : Option (List String) :=
  if (captureNames state).contains iface.name then live iface.name else none

def fillLive (live : Live) (state : DesiredState) : DesiredState :=
  { state with
    interfaces := state.interfaces.map fun iface =>
      fillAddresses (captureIface state live iface) iface }

/-- The prefix of the LAN services, configured or implied by the pool. -/
def lanServicePrefix (state : DesiredState) : Option String :=
  state.lanPrefix <|> state.dhcpPool.bind prefixFromPool

/-- `prefix.split('/').nth(1).unwrap_or("24")`. -/
def prefixLength (text : String) : String := ((split text '/')[1]?).getD "24"

/-- The LAN interface takes the service address unless it has that host address. -/
def addServiceAddress (host length : String) (iface : Iface) : Iface :=
  let cidr := s!"{host}/{length}"
  if iface.addresses.any fun a => a == cidr || startsWith a s!"{host}/" then iface
  else { iface with addresses := iface.addresses ++ [cidr] }

/-- `iter_mut().find(p)` and a change of what was found. -/
def modifyFirst {α : Type} (p : α → Bool) (change : α → α) : List α → List α
  | [] => []
  | a :: rest => if p a then change a :: rest else a :: modifyFirst p change rest

def mergeLanPrefixAddr (state : DesiredState) : DesiredState :=
  match lanServicePrefix state with
  | none => state
  | some text =>
      match firstV4Host text with
      | none => state
      | some host =>
          { state with
            interfaces :=
              modifyFirst Iface.isLan (addServiceAddress host (prefixLength text)) state.interfaces }

/-- The state that `apply` leaves, which is then persisted. -/
def complete (live : Live) (state : DesiredState) : DesiredState :=
  mergeLanPrefixAddr (fillLive live state)

/-! ## All that a completion can change -/

/-- Only addresses were added, and none to a Management NIC. -/
structure Iface.Extends (old new : Iface) : Prop where
  same : { new with addresses := old.addresses } = old
  addresses : old.addresses ⊆ new.addresses
  mgmt : old.isMgmt = true → new = old

structure DesiredState.Extends (old new : DesiredState) : Prop where
  same : { new with interfaces := old.interfaces } = old
  interfaces : List.Forall₂ Iface.Extends old.interfaces new.interfaces

theorem Iface.Extends.refl (iface : Iface) : iface.Extends iface :=
  ⟨rfl, List.Subset.refl _, fun _ => rfl⟩

theorem fillAddresses_extends {captured : Option (List String)} {iface : Iface}
    (hm : iface.isMgmt = true → iface.addresses ≠ []) :
    iface.Extends (fillAddresses captured iface) := by
  unfold fillAddresses
  split
  · split
    next h =>
      simp only [Bool.and_eq_true, List.isEmpty_iff] at h
      exact ⟨rfl, by simp [h.2], fun hi => absurd h.2 (hm hi)⟩
    · exact .refl iface
  · exact .refl iface

theorem addServiceAddress_extends {host length : String} {iface : Iface} (hl : iface.isLan = true) :
    iface.Extends (addServiceAddress host length iface) := by
  unfold addServiceAddress
  dsimp only
  split
  · exact .refl iface
  · refine ⟨rfl, List.subset_append_left .., fun hm => ?_⟩
    simp only [Iface.isMgmt, Iface.isLan, Iface.hasRole, beq_iff_eq] at hm hl
    simp [hm] at hl

theorem modifyFirst_forall₂ {α : Type} {R : α → α → Prop} {p : α → Bool} {change : α → α}
    (hr : ∀ a, R a a) (hc : ∀ a, p a = true → R a (change a)) (list : List α) :
    List.Forall₂ R list (modifyFirst p change list) := by
  induction list with
  | nil => exact .nil
  | cons a rest ih =>
    unfold modifyFirst
    split
    next h => exact .cons (hc a h) (List.forall₂_same.mpr fun x _ => hr x)
    · exact .cons (hr a) ih

theorem map_modifyFirst {α β : Type} {p : α → Bool} {change : α → α} {f : α → β}
    (h : ∀ a, f (change a) = f a) (list : List α) :
    (modifyFirst p change list).map f = list.map f := by
  induction list with
  | nil => rfl
  | cons a rest ih =>
    unfold modifyFirst
    split
    · simp [h]
    · simp [ih]

theorem mem_modifyFirst {α : Type} {p : α → Bool} {change : α → α} {list : List α} {a : α}
    (h : a ∈ modifyFirst p change list) : a ∈ list ∨ ∃ b ∈ list, p b = true ∧ a = change b := by
  induction list with
  | nil => simp [modifyFirst] at h
  | cons b rest ih =>
    unfold modifyFirst at h
    split at h
    next hp =>
      rcases List.mem_cons.mp h with rfl | hr
      · exact .inr ⟨b, by simp, hp, rfl⟩
      · exact .inl (by simp [hr])
    · rcases List.mem_cons.mp h with rfl | hr
      · exact .inl (by simp)
      · rcases ih hr with hm | ⟨c, hm, hc⟩
        · exact .inl (by simp [hm])
        · exact .inr ⟨c, by simp [hm], hc⟩

theorem Iface.Extends.trans {a b c : Iface} (hab : a.Extends b) (hbc : b.Extends c) :
    a.Extends c := by
  refine ⟨?_, List.Subset.trans hab.addresses hbc.addresses, fun hm => ?_⟩
  · rw [← hab.same, ← hbc.same]
  · obtain rfl := hab.mgmt hm
    exact hbc.mgmt hm

theorem DesiredState.Extends.trans {a b c : DesiredState} (hab : a.Extends b)
    (hbc : b.Extends c) : a.Extends c := by
  refine ⟨?_, ?_⟩
  · rw [← hab.same, ← hbc.same]
  · have trans : ∀ {l m n : List Iface}, List.Forall₂ Iface.Extends l m →
        List.Forall₂ Iface.Extends m n → List.Forall₂ Iface.Extends l n := by
      intro l m n hlm
      induction hlm generalizing n with
      | nil => exact id
      | cons h _ ih =>
        intro hmn
        cases hmn with
        | cons h' hrest => exact .cons (h.trans h') (ih hrest)
    exact trans hab.interfaces hbc.interfaces

theorem fillLive_extends {live : Live} {state : DesiredState}
    (hm : ∀ iface ∈ state.interfaces, iface.isMgmt = true → iface.addresses ≠ []) :
    state.Extends (fillLive live state) := by
  refine ⟨rfl, ?_⟩
  rw [fillLive, List.forall₂_map_right_iff, List.forall₂_same]
  exact fun iface hi => fillAddresses_extends (hm iface hi)

theorem mergeLanPrefixAddr_extends {state : DesiredState} :
    state.Extends (mergeLanPrefixAddr state) := by
  have refl : state.Extends state :=
    ⟨rfl, List.forall₂_same.mpr fun iface _ => .refl iface⟩
  unfold mergeLanPrefixAddr
  split
  · exact refl
  · split
    · exact refl
    · exact ⟨rfl, modifyFirst_forall₂ .refl (fun _ h => addServiceAddress_extends h) _⟩

/-- A completion of an accepted state only adds addresses. -/
theorem complete_extends {live : Live} {state : DesiredState}
    (hm : ∀ iface ∈ state.interfaces, iface.isMgmt = true → iface.addresses ≠ []) :
    state.Extends (complete live state) :=
  (fillLive_extends hm).trans mergeLanPrefixAddr_extends

end Fwos
