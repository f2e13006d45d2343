import Fwos.Revalidate

/-!
# The links that carry the roles

`apply` finds the Traffic NICs of a state in the Forwarding netns and creates its
VLANs in order, each on a parent that may be a VLAN of the state itself. `validate`
keeps the roles apart by the name of the parent and the tag alone.

* `createLinks`: the links of a fresh netns once the VLANs are programmed.
* `roles_separated_iff`: the accepted states whose roles are also apart on these
  links.
-/

namespace Fwos

open Rust

/-- A Traffic NIC, or a tag on another link. -/
inductive Link where
  | nic (name : String)
  | tagged (parent : Link) (vid : Nat)
deriving DecidableEq, Repr

/-- The links of the Forwarding netns by their names. -/
abbrev Links := List (String × Link)

/-- The link itself and the links below it. -/
def Link.carriers : Link → List Link
  | .nic name => [.nic name]
  | .tagged parent vid => .tagged parent vid :: parent.carriers

/-- The parent of a VLAN interface, given or derived from its name. -/
def vlanParent (iface : Iface) : String :=
  iface.parent.getD (((rsplitOnce iface.name '.').map Prod.fst).getD iface.name)

/-- One interface of `program_vlans`; a link that exists is left as it is. -/
def programVlan (links : Links) (iface : Iface) : Option Links :=
  match iface.vlan with
  | none => some links
  | some vid =>
      if (links.lookup iface.name).isSome then some links
      else (links.lookup (vlanParent iface)).map fun parent =>
        (iface.name, .tagged parent vid) :: links

def programVlans (links : Links) (state : DesiredState) : Option Links :=
  state.interfaces.foldlM programVlan links

/-- The links that `apply` leaves where there were only the Traffic NICs before:
`require_in_fwd` of each interface without a VLAN, then `program_vlans`. -/
def createLinks (nics : List String) (state : DesiredState) : Option Links :=
  if state.interfaces.all fun iface => iface.vlan.isSome || nics.contains iface.name then
    programVlans (nics.map fun name => (name, .nic name)) state
  else none

/-- No WAN and LAN are the same link, and neither is carried by a Management NIC. -/
structure RolesSeparated (links : Links) (state : DesiredState) : Prop where
  wanLan : ∀ wan ∈ wans state, ∀ lan ∈ lans state,
    links.lookup wan.name ≠ links.lookup lan.name
  mgmt : ∀ iface ∈ wans state ++ lans state, ∀ mgmt ∈ mgmts state, ∀ link carrier,
    links.lookup iface.name = some link → links.lookup mgmt.name = some carrier →
    carrier ∉ link.carriers

/-! ## What the names of a state say about its links -/

def firstVlan (interfaces : List Iface) (name : String) : Option Iface :=
  interfaces.find? fun iface => iface.vlan.isSome && iface.name == name

/-- The interface that a name is created for. -/
def createdVlan (nics : List String) (state : DesiredState) (name : String) : Option Iface :=
  if nics.contains name then none else firstVlan state.interfaces name

/-- VLANs of different names that are the same tags on the same link. -/
inductive Twin (nics : List String) (state : DesiredState) : String → String → Prop
  | same {a b : String} {x y : Iface} :
      createdVlan nics state a = some x → createdVlan nics state b = some y → a ≠ b →
      l2Key x = l2Key y → Twin nics state a b
  | above {a b : String} {x y : Iface} :
      createdVlan nics state a = some x → createdVlan nics state b = some y →
      x.vlan = y.vlan → Twin nics state (vlanParent x) (vlanParent y) → Twin nics state a b

/-- The first name lies on the second by way of any number of created VLANs. -/
inductive LiesOn (nics : List String) (state : DesiredState) : String → String → Prop
  | refl (name : String) : LiesOn nics state name name
  | step {name base : String} {x : Iface} :
      createdVlan nics state name = some x → LiesOn nics state (vlanParent x) base →
      LiesOn nics state name base

/-- No WAN shares its name with a LAN or is its twin, neither shares its name with a
Management NIC, and no VLAN of another role on a Management NIC carries them. -/
structure RolesUnstacked (nics : List String) (state : DesiredState) : Prop where
  names : ∀ wan ∈ wans state, ∀ lan ∈ lans state, wan.name ≠ lan.name
  twins : ∀ wan ∈ wans state, ∀ lan ∈ lans state, ¬Twin nics state wan.name lan.name
  mgmtNames : ∀ iface ∈ wans state ++ lans state, ∀ mgmt ∈ mgmts state, iface.name ≠ mgmt.name
  mgmt : ∀ iface ∈ wans state ++ lans state, ∀ mgmt ∈ mgmts state, ∀ other,
    createdVlan nics state other.name = some other → vlanParent other = mgmt.name →
    other.isWan = false → other.isLan = false → ¬LiesOn nics state iface.name other.name

namespace LinksLemmas

variable {nics : List String} {state : DesiredState} {links links' : Links}
  {done : List Iface} {iface : Iface} {name : String}

/-! ## Programming the VLANs -/

/-- The links after the interfaces `done`. -/
structure Programmed (nics : List String) (done : List Iface) (links : Links) : Prop where
  nic : ∀ name ∈ nics, links.lookup name = some (.nic name)
  absent : ∀ name ∉ nics, firstVlan done name = none → links.lookup name = none
  vlan : ∀ name ∉ nics, ∀ iface, firstVlan done name = some iface → ∃ parent vid,
    iface.vlan = some vid ∧ links.lookup (vlanParent iface) = some parent ∧
      links.lookup name = some (.tagged parent vid)

theorem lookup_nics (name : String) :
    (nics.map fun name => (name, Link.nic name)).lookup name =
      if name ∈ nics then some (.nic name) else none := by
  induction nics with
  | nil => rfl
  | cons first nics ih =>
    rw [List.map_cons, List.lookup_cons, ih]
    by_cases h : name = first
    · simp [h]
    · simp [h, beq_eq_false_iff_ne.mpr h]

theorem programmed_nics : Programmed nics [] (nics.map fun name => (name, .nic name)) where
  nic name hn := by rw [lookup_nics, if_pos hn]
  absent name hn _ := by rw [lookup_nics, if_neg hn]
  vlan name _ iface h := by cases h

theorem firstVlan_append :
    firstVlan (done ++ [iface]) name =
      (firstVlan done name).or
        (if iface.vlan.isSome && iface.name == name then some iface else none) := by
  rw [firstVlan, List.find?_append, List.find?_singleton]
  rfl

theorem programVlan_programmed (h : Programmed nics done links)
    (hp : programVlan links iface = some links') : Programmed nics (done ++ [iface]) links' := by
  cases hv : iface.vlan with
  | none =>
    have hfirst : ∀ name, firstVlan (done ++ [iface]) name = firstVlan done name := fun name => by
      simp [firstVlan_append, hv]
    simp only [programVlan, hv, Option.some.injEq] at hp
    subst hp
    exact ⟨h.nic, fun name hn hf => h.absent name hn (hfirst name ▸ hf),
      fun name hn x hf => h.vlan name hn x (hfirst name ▸ hf)⟩
  | some vid =>
    simp only [programVlan, hv] at hp
    split at hp
    next hexists =>
      obtain rfl : links = links' := Option.some.inj hp
      have hfirst : ∀ name ∉ nics, firstVlan (done ++ [iface]) name = firstVlan done name := by
        intro name hn
        rw [firstVlan_append]
        by_cases hname : iface.name = name
        · cases hf : firstVlan done name with
          | some x => rfl
          | none =>
            rw [hname, h.absent name hn hf] at hexists
            cases hexists
        · simp [hname]
      exact ⟨h.nic, fun name hn hf => h.absent name hn (hfirst name hn ▸ hf),
        fun name hn x hf => h.vlan name hn x (hfirst name hn ▸ hf)⟩
    next hnew =>
      obtain ⟨parent, hparent, rfl⟩ := Option.map_eq_some_iff.mp hp
      have hnone : links.lookup iface.name = none := Option.not_isSome_iff_eq_none.mp hnew
      -- What was there keeps its link.
      have hkeep : ∀ name link, links.lookup name = some link →
          List.lookup name ((iface.name, Link.tagged parent vid) :: links) = some link := by
        intro name link hl
        have hne : (name == iface.name) = false := by
          rw [beq_eq_false_iff_ne]
          rintro rfl
          rw [hnone] at hl
          cases hl
        rw [List.lookup_cons, hne]
        exact hl
      refine ⟨fun name hn => hkeep _ _ (h.nic name hn), fun name hn hf => ?_, fun name hn x hf => ?_⟩
      · rw [firstVlan_append, Option.or_eq_none_iff] at hf
        have hne : iface.name ≠ name := by simpa [hv] using hf.2
        rw [List.lookup_cons, beq_eq_false_iff_ne.mpr (Ne.symm hne)]
        exact h.absent name hn hf.1
      · rw [firstVlan_append] at hf
        cases hd : firstVlan done name with
        | some y =>
          obtain rfl : y = x := by simpa [hd] using hf
          obtain ⟨parent', vid', hvid, hp', hl⟩ := h.vlan name hn y hd
          exact ⟨parent', vid', hvid, hkeep _ _ hp', hkeep _ _ hl⟩
        | none =>
          rw [hd, Option.none_or] at hf
          split at hf
          next hname =>
            obtain rfl : iface = x := Option.some.inj hf
            simp only [Bool.and_eq_true, beq_iff_eq] at hname
            refine ⟨parent, vid, hv, hkeep _ _ hparent, ?_⟩
            rw [← hname.2, List.lookup_cons, beq_self_eq_true]
          · cases hf

theorem foldlM_programmed {interfaces : List Iface} (h : Programmed nics done links)
    (hp : interfaces.foldlM programVlan links = some links') :
    Programmed nics (done ++ interfaces) links' := by
  induction interfaces generalizing done links with
  | nil =>
    obtain rfl : links = links' := by simpa using hp
    rwa [List.append_nil]
  | cons iface interfaces ih =>
    obtain ⟨mid, hmid, hp⟩ := Option.bind_eq_some_iff.mp hp
    have := ih (programVlan_programmed h hmid) hp
    rwa [List.append_assoc, List.singleton_append] at this

theorem createLinks_programmed (h : createLinks nics state = some links) :
    Programmed nics state.interfaces links := by
  unfold createLinks at h
  split at h
  · exact foldlM_programmed programmed_nics h
  · cases h

/-! ## Names and links -/

theorem createdVlan_eq_some {x : Iface} (h : createdVlan nics state name = some x) :
    name ∉ nics ∧ firstVlan state.interfaces name = some x ∧ x ∈ state.interfaces ∧
      x.name = name ∧ x.vlan.isSome = true := by
  unfold createdVlan at h
  split at h
  · cases h
  next hn =>
    have hfind := List.find?_some h
    simp only [Bool.and_eq_true, beq_iff_eq] at hfind
    exact ⟨by simpa using hn, h, List.mem_of_find?_eq_some h, hfind.2, hfind.1⟩

theorem l2Key_vlan {x : Iface} (h : x.vlan.isSome = true) : l2Key x = (vlanParent x, x.vlan) := by
  simp [l2Key, vlanParent, h]

theorem Programmed.lookup_created (h : Programmed nics state.interfaces links) {x : Iface}
    (hx : createdVlan nics state name = some x) : ∃ parent vid, x.vlan = some vid ∧
      links.lookup (vlanParent x) = some parent ∧
      links.lookup name = some (.tagged parent vid) := by
  obtain ⟨hn, hf, -⟩ := createdVlan_eq_some hx
  exact h.vlan name hn x hf

/-- A link is the NIC of its name, or was created for it. -/
theorem Programmed.lookup_cases (h : Programmed nics state.interfaces links) {link : Link}
    (hl : links.lookup name = some link) :
    (name ∈ nics ∧ link = .nic name) ∨
      ∃ x parent vid, createdVlan nics state name = some x ∧ x.vlan = some vid ∧
        links.lookup (vlanParent x) = some parent ∧ link = .tagged parent vid := by
  by_cases hn : name ∈ nics
  · exact .inl ⟨hn, Option.some.inj (hl.symm.trans (h.nic name hn))⟩
  · cases hf : firstVlan state.interfaces name with
    | none =>
      rw [h.absent name hn hf] at hl
      cases hl
    | some x =>
      have hx : createdVlan nics state name = some x := by
        rw [createdVlan, if_neg (by simpa using hn), hf]
      obtain ⟨parent, vid, hv, hp, hlink⟩ := h.lookup_created hx
      exact .inr ⟨x, parent, vid, hx, hv, hp, Option.some.inj (hl.symm.trans hlink)⟩

theorem twin_of_same_link (h : Programmed nics state.interfaces links) {a b : String} {link : Link}
    (ha : links.lookup a = some link) (hb : links.lookup b = some link) :
    a = b ∨ Twin nics state a b := by
  induction link generalizing a b with
  | nic name =>
    obtain ⟨-, hname⟩ | ⟨_, _, _, _, _, _, hlink⟩ := h.lookup_cases ha
    · obtain ⟨-, hname'⟩ | ⟨_, _, _, _, _, _, hlink⟩ := h.lookup_cases hb
      · exact .inl ((Link.nic.inj hname).symm.trans (Link.nic.inj hname'))
      · cases hlink
    · cases hlink
  | tagged parent vid ih =>
    obtain ⟨-, hname⟩ | ⟨x, _, _, hx, hvx, hpx, hlink⟩ := h.lookup_cases ha
    · cases hname
    obtain ⟨-, hname⟩ | ⟨y, _, _, hy, hvy, hpy, hlink'⟩ := h.lookup_cases hb
    · cases hname
    obtain ⟨rfl, rfl⟩ := Link.tagged.inj hlink
    obtain ⟨rfl, rfl⟩ := Link.tagged.inj hlink'
    refine or_iff_not_imp_left.mpr fun hne => ?_
    rcases ih hpx hpy with hparent | htwin
    · refine .same hx hy hne ?_
      rw [l2Key_vlan (by simp [hvx]), l2Key_vlan (by simp [hvy]), hparent, hvx, hvy]
    · exact .above hx hy (hvx.trans hvy.symm) htwin

theorem same_link_of_twin (h : Programmed nics state.interfaces links) {a b : String}
    (ht : Twin nics state a b) : links.lookup a = links.lookup b := by
  induction ht with
  | same hx hy _ hkey =>
    obtain ⟨parent, vid, hvx, hpx, hlx⟩ := h.lookup_created hx
    obtain ⟨parent', vid', hvy, hpy, hly⟩ := h.lookup_created hy
    rw [l2Key_vlan (by simp [hvx]), l2Key_vlan (by simp [hvy]), hvx, hvy] at hkey
    obtain ⟨hparent, hvid⟩ := Prod.mk.inj hkey
    rw [← hparent, hpx] at hpy
    rw [hlx, hly, Option.some.inj hvid, Option.some.inj hpy]
  | above hx hy hv _ ih =>
    obtain ⟨parent, vid, hvx, hpx, hlx⟩ := h.lookup_created hx
    obtain ⟨parent', vid', hvy, hpy, hly⟩ := h.lookup_created hy
    rw [hvx, hvy] at hv
    rw [hpx, hpy] at ih
    rw [hlx, hly, Option.some.inj hv, Option.some.inj ih]

theorem mem_carriers_iff (h : Programmed nics state.interfaces links) {base : String}
    (hbase : base ∈ nics) {link : Link} (hl : links.lookup name = some link) :
    Link.nic base ∈ link.carriers ↔ LiesOn nics state name base := by
  constructor
  · intro hm
    induction link generalizing name with
    | nic other =>
      obtain ⟨-, hname⟩ | ⟨_, _, _, _, _, _, hlink⟩ := h.lookup_cases hl
      · have hbase : Link.nic base = .nic other := by simpa [Link.carriers] using hm
        obtain rfl := Link.nic.inj (hbase.trans hname)
        exact .refl _
      · cases hlink
    | tagged parent vid ih =>
      obtain ⟨-, hname⟩ | ⟨x, _, _, hx, -, hpx, hlink⟩ := h.lookup_cases hl
      · cases hname
      · obtain ⟨rfl, rfl⟩ := Link.tagged.inj hlink
        exact .step hx (ih hpx (by simpa [Link.carriers] using hm))
  · intro ho
    induction ho generalizing link with
    | refl name =>
      rw [h.nic name hbase] at hl
      obtain rfl := Option.some.inj hl
      simp [Link.carriers]
    | step hx _ ih =>
      obtain ⟨parent, vid, -, hp, hlink⟩ := h.lookup_created hx
      obtain rfl := Option.some.inj (hlink.symm.trans hl)
      exact List.mem_cons_of_mem _ (ih hbase hp)

/-- What lies on a name is that name, or lies on a VLAN directly on it. -/
theorem liesOn_iff {base : String} :
    LiesOn nics state name base ↔
      name = base ∨ ∃ other, createdVlan nics state other.name = some other ∧
        vlanParent other = base ∧ LiesOn nics state name other.name := by
  constructor
  · intro h
    induction h with
    | refl => exact .inl rfl
    | step hx _ ih =>
      obtain ⟨-, -, -, rfl, -⟩ := createdVlan_eq_some hx
      rcases ih with hbase | ⟨other, ho, hp, hon⟩
      · exact .inr ⟨_, hx, hbase, .refl _⟩
      · exact .inr ⟨other, ho, hp, .step hx hon⟩
  · rintro (rfl | ⟨other, ho, rfl, hon⟩)
    · exact .refl _
    · generalize hb : other.name = middle at hon
      induction hon with
      | refl => exact .step (hb ▸ ho) (.refl _)
      | step hx _ ih => exact .step hx (ih hb)

/-- Every interface has the link of its name. -/
theorem exists_link (hl : createLinks nics state = some links) (hi : iface ∈ state.interfaces) :
    ∃ link, links.lookup iface.name = some link := by
  have hp := createLinks_programmed hl
  by_cases hn : iface.name ∈ nics
  · exact ⟨_, hp.nic _ hn⟩
  · unfold createLinks at hl
    split at hl
    next hall =>
      have hvlan : iface.vlan.isSome = true := by
        simpa [hn] using List.all_eq_true.mp hall iface hi
      cases hf : firstVlan state.interfaces iface.name with
      | none => simpa [hvlan] using List.find?_eq_none.mp hf iface hi
      | some x =>
        obtain ⟨parent, vid, -, -, hlink⟩ := hp.vlan _ hn x hf
        exact ⟨_, hlink⟩
    · cases hl

/-! ## Accepted states -/

theorem mgmt_nic [Base64] (ha : Accepts state) (hl : createLinks nics state = some links)
    {mgmt : Iface} (hm : mgmt ∈ mgmts state) : mgmt.name ∈ nics := by
  obtain ⟨hmem, hrole⟩ := List.mem_filter.mp hm
  have hvalid := ha.roles mgmt hmem
  simp only [validateRole, bind_eq_ok, hrole, if_true, validateMgmtIface, ensure_eq_ok,
    Bool.and_eq_true] at hvalid
  obtain ⟨-, -, -, -, -, ⟨⟨hvlan, -⟩, -⟩, -⟩ := hvalid
  unfold createLinks at hl
  split at hl
  next hall =>
    have := List.all_eq_true.mp hall mgmt hmem
    cases hv : mgmt.vlan with
    | none => simpa [hv] using this
    | some vid => simp [hv] at hvlan
  · cases hl

/-- The zones check of an accepted state on a VLAN directly on a Management NIC. -/
theorem not_direct [Base64] (ha : Accepts state) {iface mgmt : Iface}
    (hi : iface ∈ wans state ++ lans state) (hm : mgmt ∈ mgmts state)
    (hv : iface.vlan.isSome = true) : vlanParent iface ≠ mgmt.name := by
  have hzones := ha.zones
  simp only [validateZones, bind_eq_ok, ensure_eq_ok, List.all_eq_true, Bool.not_eq_true',
    List.contains_eq_mem, decide_eq_false_iff_not, List.mem_map, not_exists, not_and] at hzones
  obtain ⟨-, -, -, -, -, -, hparents⟩ := hzones
  have hvalid := ha.roles mgmt (List.mem_filter.mp hm).1
  simp only [validateRole, bind_eq_ok, (List.mem_filter.mp hm).2, if_true, validateMgmtIface,
    ensure_eq_ok, Bool.and_eq_true] at hvalid
  obtain ⟨-, -, -, -, -, ⟨⟨hvlan, hparent⟩, -⟩, -⟩ := hvalid
  have hkey : (l2Key mgmt).1 = mgmt.name := by
    simp only [Option.isNone_iff_eq_none] at hvlan hparent
    simp [l2Key, hvlan, hparent]
  have := hparents iface hi mgmt hm
  rw [hkey, l2Key_vlan hv] at this
  exact fun heq => this heq.symm

end LinksLemmas

open LinksLemmas

/-- The roles of an accepted state are apart on the links it creates exactly if the
VLANs that the check passes over keep them apart. -/
theorem roles_separated_iff [Base64] {nics : List String} {state : DesiredState} {links : Links}
    (hv : validate state = .ok ()) (hl : createLinks nics state = some links) :
    RolesSeparated links state ↔ RolesUnstacked nics state := by
  have ha := validate_iff.mp hv
  have hp := createLinks_programmed hl
  have hmem : ∀ iface ∈ wans state ++ lans state, iface ∈ state.interfaces := fun iface hi =>
    (List.mem_append.mp hi).elim List.mem_of_mem_filter List.mem_of_mem_filter
  constructor
  · intro hs
    refine ⟨fun wan hw lan hl' heq => ?_, fun wan hw lan hl' ht => ?_, fun iface hi mgmt hm heq => ?_,
      fun iface hi mgmt hm other ho hparent _ _ hon => ?_⟩
    · exact hs.wanLan wan hw lan hl' (by rw [heq])
    · exact hs.wanLan wan hw lan hl' (same_link_of_twin hp ht)
    · have hnic := hp.nic _ (mgmt_nic ha hl hm)
      exact hs.mgmt iface hi mgmt hm _ _ (by rw [heq]; exact hnic) hnic (by simp [Link.carriers])
    · have hbase := mgmt_nic ha hl hm
      obtain ⟨link, hlink⟩ := exists_link hl (hmem iface hi)
      have hlies : LiesOn nics state iface.name mgmt.name :=
        liesOn_iff.mpr (.inr ⟨other, ho, hparent, hon⟩)
      exact hs.mgmt iface hi mgmt hm _ _ hlink (hp.nic _ hbase)
        ((mem_carriers_iff hp hbase hlink).mpr hlies)
  · intro hu
    refine ⟨fun wan hw lan hl' heq => ?_, fun iface hi mgmt hm link carrier hlink hcarrier hin => ?_⟩
    · obtain ⟨link, hlink⟩ := exists_link hl (hmem wan (List.mem_append_left _ hw))
      rcases twin_of_same_link hp hlink (heq ▸ hlink) with hname | htwin
      · exact hu.names wan hw lan hl' hname
      · exact hu.twins wan hw lan hl' htwin
    · have hbase := mgmt_nic ha hl hm
      obtain rfl := Option.some.inj (hcarrier.symm.trans (hp.nic _ hbase))
      rcases liesOn_iff.mp ((mem_carriers_iff hp hbase hlink).mp hin) with
        hname | ⟨other, ho, hparent, hon⟩
      · exact hu.mgmtNames iface hi mgmt hm hname
      · -- The check has seen that a WAN or LAN is not directly on the NIC.
        obtain ⟨-, -, hother, -, hvlan⟩ := createdVlan_eq_some ho
        have hrole : other ∉ wans state ++ lans state := fun h =>
          not_direct ha h hm hvlan hparent
        simp only [wans, lans, List.mem_append, List.mem_filter, hother, true_and, not_or,
          Bool.not_eq_true] at hrole
        exact hu.mgmt iface hi mgmt hm other ho hparent hrole.1 hrole.2 hon

namespace Links

/-- A WAN on a VLAN of no role, which is on the Management NIC. -/
def stacked : DesiredState := {
  interfaces := [
    { name := "enp1s0", role := some "lan" },
    { name := "enp3s0", role := some "mgmt", addresses := ["10.0.2.15/24"] },
    { name := "vl10", role := some "unused", vlan := some 10, parent := some "enp3s0" },
    { name := "wan20", role := some "wan", vlan := some 20, parent := some "vl10" }]
  uiExposure := ["enp1s0", "enp3s0"] }

def stackedLinks : Links := [
  ("wan20", .tagged (.tagged (.nic "enp3s0") 10) 20), ("vl10", .tagged (.nic "enp3s0") 10),
  ("enp1s0", .nic "enp1s0"), ("enp3s0", .nic "enp3s0")]

/-- The state is accepted, its links are created, and the Management NIC carries the WAN. -/
theorem stacked_wan_carried :
    (@validate Revalidate.noKeys stacked).isOk = true ∧
      createLinks ["enp1s0", "enp3s0"] stacked = some stackedLinks ∧
      ¬RolesSeparated stackedLinks stacked := by
  refine ⟨by decide +kernel, by decide +kernel, fun hs => ?_⟩
  exact hs.mgmt { name := "wan20", role := some "wan", vlan := some 20, parent := some "vl10" }
    (by decide +kernel) { name := "enp3s0", role := some "mgmt", addresses := ["10.0.2.15/24"] }
    (by decide +kernel) _ _ rfl rfl (by decide +kernel)

theorem stacked_not_unstacked : ¬RolesUnstacked ["enp1s0", "enp3s0"] stacked := fun hu =>
  let _ := Revalidate.noKeys
  have hs : RolesSeparated stackedLinks stacked :=
    (roles_separated_iff (by decide +kernel) (by decide +kernel)).mpr hu
  hs.mgmt { name := "wan20", role := some "wan", vlan := some 20, parent := some "vl10" }
    (by decide +kernel) { name := "enp3s0", role := some "mgmt", addresses := ["10.0.2.15/24"] }
    (by decide +kernel) _ _ rfl rfl (by decide +kernel)

end Links

end Fwos
