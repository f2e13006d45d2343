import Fwos.Ui.LanSync
import Fwos.Ui.TunnelEdits

/-!
# Reconciling onto an unchanged network

A client may send a draft back as `draft_status` shows it, and the newer Accepted
network may be the old one. Reconciling then stores the recorded sections again, each
once and in a fixed order, where the saves stored them one after another.

* `Traced`: what saves leave of the network that they began from.
* `rederived`: the draft's network, but for the values that an interface save left in
  fields of another section: these are as one such save leaves them.
* `reconcile_echo`: reconciling yields exactly this network.
-/

namespace Fwos

open Rust Lists

/-! ## The draft as it is shown -/

def wanIpv6Setting (iface : Iface) : WanIpv6 :=
  { name := iface.name, ipv6 := iface.ipv6.getD "static", requestPd := iface.requestPd }

def wanIpv6Settings (desired : DesiredState) : List WanIpv6 :=
  (desired.interfaces.filter Iface.isWan).map wanIpv6Setting

/-- A tunnel without its key. -/
def redactedTunnel (tunnel : Wg) : WgInput :=
  { name := tunnel.name, listenPort := tunnel.listenPort, addresses := tunnel.addresses }

def redactedWireguard (tunnels : List Wg) : List WgInput := tunnels.map redactedTunnel

/-- The values that `draft_status` shows, as the sections of a request. -/
def shownSections (desired : DesiredState) : SectionValues := {
  routes := some desired.routes
  interfaces := some desired.interfaces
  uiExposure := some desired.uiExposure
  services := some {
    lanPrefix := desired.lanPrefix.getD ""
    dhcpPool := desired.dhcpPool.getD ""
    wanPd := desired.wanPd.getD "" }
  firewall := some desired.nftExtra
  wireguard := some (redactedWireguard desired.wireguard)
  qdiscs := some desired.qdiscs
  ipv6 := some ⟨wanIpv6Settings desired⟩ }

def echo (draft : Draft) (acceptedRevision : Nat) : DraftReconciliation :=
  { shownSections draft.desired with
    baseRevision := draft.baseRevision, version := draft.version, acceptedRevision }

/-- The draft's network, but what one interface save on the base leaves of it in the fields of the
sections that the draft does not record. -/
def rederived (base : DesiredState) (draft : Draft) (revision : Nat) : DesiredState :=
  let once := storeInterfaceSection base draft.desired.interfaces draft.desired.uiExposure
  let saved (other : String) := "interfaces" ∈ draft.sections ∧ other ∉ draft.sections
  { draft.desired with
    revision
    interfaces := if saved "ipv6" then once.interfaces else draft.desired.interfaces
    lanPrefix := if saved "services" then once.lanPrefix else draft.desired.lanPrefix
    dhcpPool := if saved "services" then once.dhcpPool else draft.desired.dhcpPool }

/-! ## What saves leave of the network -/

/-- What the IPv6 section does not change of an interface. -/
def Iface.fixed (iface : Iface) : Iface := if iface.isWan then iface.withoutAcquisition else iface

/-- The mode of an interface with a static address is none. -/
def Iface.ModeStored (iface : Iface) : Prop := iface.ipv6 ≠ some "static" ∧ iface.ipv6 ≠ some ""

def Qdisc.Named (qdisc : Qdisc) : Prop :=
  (trim qdisc.dev).isEmpty = false ∧ (trim qdisc.kind).isEmpty = false

/-- A value as `store_lan_services` stores it. -/
def TrimmedValue (value : Option String) : Prop := blankToNone (value.getD "") = value

/-- What the stores of the sections need of the network that a draft began from. -/
structure Regular (base : DesiredState) : Prop where
  tunnels : (base.wireguard.map (·.name)).Nodup
  qdiscs : ∀ qdisc ∈ base.qdiscs, qdisc.Named
  modes : ∀ iface ∈ base.interfaces, iface.ModeStored

structure Traced (base : DesiredState) (sections : List String) (desired : DesiredState) :
    Prop where
  fixed : "interfaces" ∉ sections →
    desired.interfaces.map Iface.fixed = base.interfaces.map Iface.fixed
  cleared : "interfaces" ∈ sections →
    desired.interfaces.map Iface.fixed = desired.interfaces.map Iface.withoutAcquisition
  modes : ∀ iface ∈ desired.interfaces, iface.ModeStored
  services : "services" ∈ sections → TrimmedValue desired.lanPrefix ∧
    TrimmedValue desired.dhcpPool ∧ TrimmedValue desired.wanPd
  qdiscs : Extends (fun old new => old.dev = new.dev ∧ new.Named) Qdisc.Named
    base.qdiscs desired.qdiscs
  devs : (base.qdiscs.map (·.dev)).Nodup → (desired.qdiscs.map (·.dev)).Nodup

namespace EchoLemmas

open CoverageLemmas SavedLemmas TunnelEdits LanSyncLemmas LanProgram RevalidateLemmas

/-! ## Values of the LAN services -/

theorem blankToNone_blank {text : String} (h : (trim text).isEmpty = true) :
    blankToNone text = none := if_pos h

theorem blankToNone_text {text : String} (h : (trim text).isEmpty = false) :
    blankToNone text = some (trim text) := if_neg (by simp [h])

theorem trimmed_none : TrimmedValue none := blankToNone_blank (by decide)

theorem trimmed_blankToNone (text : String) : TrimmedValue (blankToNone text) := by
  cases blank : (trim text).isEmpty with
  | true =>
      rw [blankToNone_blank blank]
      exact trimmed_none
  | false =>
      rw [blankToNone_text blank, TrimmedValue, Option.getD_some,
        blankToNone_text (by rw [trim_trim, blank]), trim_trim]

theorem trimmed_networkText {network : Ipv4Addr} {bits : Nat} (hb : bits ≤ 32) :
    TrimmedValue (some (networkText network bits)) := by
  have chars : (networkText network bits).toList =
      (displayIpv4 network).toList ++ '/' :: Nat.toDigits 10 bits := by
    rw [← toList_toString]
    simp [networkText]
    rfl
  obtain ⟨a, b, c, d, dotted, -⟩ := isDotted_displayIpv4 network
  have dark : ∀ c ∈ (networkText network bits).toList, isWhitespace c = false := by
    intro c mem
    by_contra white
    rw [Bool.not_eq_false] at white
    have digit := not_isDigit_of_isWhitespace white
    rw [chars, List.mem_append, List.mem_cons] at mem
    rcases mem with mem | rfl | mem
    · refine dotted.not_mem digit ?_ mem
      rintro rfl
      exact absurd white (by decide)
    · exact absurd white (by decide)
    · exact (@isOctet_toDigits bits (by omega)).not_mem digit mem
  have notEmpty : (trim (networkText network bits)).isEmpty = false := by
    rw [trim_eq_self dark]
    by_contra empty
    rw [Bool.not_eq_false, String.isEmpty_iff] at empty
    rw [empty] at chars
    simp at chars
  rw [TrimmedValue, Option.getD_some, blankToNone_text notEmpty, trim_eq_self dark]

/-- Only the prefix and the pool follow the first LAN. -/
theorem sync_eq (state : DesiredState) :
    ∃ lanPrefix dhcpPool, syncLanPrefixFromFirstLan state = { state with lanPrefix, dhcpPool } ∧
      (TrimmedValue state.lanPrefix → TrimmedValue lanPrefix) ∧
      (TrimmedValue state.dhcpPool → TrimmedValue dhcpPool) := by
  unfold syncLanPrefixFromFirstLan
  split
  next => exact ⟨_, _, rfl, id, id⟩
  next lan _ =>
    split
    next => exact ⟨_, _, rfl, id, id⟩
    next text follows =>
      split
      next => exact ⟨_, _, rfl, id, id⟩
      next =>
        refine ⟨_, _, rfl, fun _ => ?_, fun pool => ?_⟩
        · obtain ⟨address, -, network⟩ := Option.bind_eq_some_iff.mp follows
          obtain ⟨⟨base, bits⟩, known, rfl⟩ := Option.map_eq_some_iff.mp network
          exact trimmed_networkText (ipv4Prefix_masked known).1
        · split
          · exact trimmed_none
          · exact pool

/-! ## Interfaces -/

theorem fixed_keepAcquisition (previous : List Iface) (iface : Iface) :
    (keepAcquisition previous iface).fixed = iface.withoutAcquisition := by
  unfold keepAcquisition
  dsimp only
  split
  next wan => exact if_pos wan
  next other => exact if_neg other

theorem withoutAcquisition_keepAcquisition (previous : List Iface) (iface : Iface) :
    (keepAcquisition previous iface).withoutAcquisition = iface.withoutAcquisition := by
  unfold keepAcquisition
  dsimp only
  split <;> rfl

theorem keepAcquisition_modeStored {previous : List Iface}
    (h : ∀ iface ∈ previous, iface.ModeStored) (iface : Iface) :
    (keepAcquisition previous iface).ModeStored := by
  unfold keepAcquisition
  dsimp only
  split
  next =>
    cases found : previous.find? (·.name == iface.name) with
    | none => exact ⟨nofun, nofun⟩
    | some before => exact h before (List.mem_of_find?_eq_some found)
  next => exact ⟨nofun, nofun⟩

theorem acquire_modeStored (wan : WanIpv6) (iface : Iface) : (acquire wan iface).ModeStored := by
  unfold acquire Iface.ModeStored
  dsimp only
  split
  next => exact ⟨nofun, nofun⟩
  next other =>
    rw [Bool.or_eq_true, beq_iff_eq, beq_iff_eq, not_or] at other
    exact ⟨fun same => other.1 (Option.some.inj same), fun same => other.2 (Option.some.inj same)⟩

theorem map_fixed_modifyFirst {p : Iface → Bool} {wan : WanIpv6} {interfaces : List Iface}
    (wans : ∀ iface, p iface = true → iface.isWan = true) :
    (modifyFirst p (acquire wan) interfaces).map Iface.fixed = interfaces.map Iface.fixed := by
  induction interfaces with
  | nil => rfl
  | cons iface interfaces ih =>
      unfold modifyFirst
      split
      next hit =>
        have isWan := wans iface hit
        have same : (acquire wan iface).fixed = iface.fixed := by
          unfold Iface.fixed
          rw [if_pos isWan, if_pos (show (acquire wan iface).isWan = true from isWan)]
          rfl
        rw [List.map_cons, List.map_cons, same]
      next => rw [List.map_cons, List.map_cons, ih]

/-! ## What each save keeps -/

variable {base desired desired' : DesiredState} {sections : List String}

/-- A save of a section that has none of the traced fields. -/
theorem traced_frame (h : Traced base sections desired) {sections' : List String}
    (interfaces : desired'.interfaces = desired.interfaces)
    (lanPrefix : desired'.lanPrefix = desired.lanPrefix)
    (dhcpPool : desired'.dhcpPool = desired.dhcpPool) (wanPd : desired'.wanPd = desired.wanPd)
    (qdiscs : desired'.qdiscs = desired.qdiscs)
    (hi : "interfaces" ∈ sections' ↔ "interfaces" ∈ sections)
    (hs : "services" ∈ sections' ↔ "services" ∈ sections) : Traced base sections' desired' where
  fixed other := by rw [interfaces]; exact h.fixed fun mem => other (hi.mpr mem)
  cleared mem := by rw [interfaces]; exact h.cleared (hi.mp mem)
  modes := by rw [interfaces]; exact h.modes
  services mem := by rw [lanPrefix, dhcpPool, wanPd]; exact h.services (hs.mp mem)
  qdiscs := by rw [qdiscs]; exact h.qdiscs
  devs := by rw [qdiscs]; exact h.devs

theorem mem_rememberSection_ne {name other : String} (h : other ≠ name) :
    other ∈ rememberSection sections name ↔ other ∈ sections := by
  rw [mem_rememberSection_iff, or_iff_left h]

theorem traced_refl (regular : Regular base) : Traced base [] base where
  fixed _ := rfl
  cleared := nofun
  modes := regular.modes
  services := nofun
  qdiscs := .refl fun qdisc mem => ⟨rfl, regular.qdiscs qdisc mem⟩
  devs := id

theorem traced_interfaces (h : Traced base sections desired) (interfaces : List Iface)
    (uiExposure : List String) : Traced base (rememberSection sections "interfaces")
      (storeInterfaceSection desired interfaces uiExposure) := by
  unfold storeInterfaceSection
  obtain ⟨lanPrefix, dhcpPool, same, followed, pool⟩ := sync_eq { desired with
    interfaces := interfaces.map (keepAcquisition desired.interfaces), uiExposure }
  rw [same]
  refine ⟨fun other => absurd (mem_rememberSection ..) other, fun _ => ?_, fun iface mem => ?_,
    fun mem => ?_, h.qdiscs, h.devs⟩
  · show (interfaces.map _).map _ = (interfaces.map _).map _
    rw [List.map_map, List.map_map]
    exact List.map_congr_left fun iface _ => (fixed_keepAcquisition _ iface).trans
      (withoutAcquisition_keepAcquisition _ iface).symm
  · obtain ⟨given, -, rfl⟩ := List.mem_map.mp mem
    exact keepAcquisition_modeStored h.modes given
  · obtain ⟨hp, hd, hw⟩ := h.services ((mem_rememberSection_ne (by decide)).mp mem)
    exact ⟨followed hp, pool hd, hw⟩

theorem traced_services (h : Traced base sections desired) (services : LanServices) :
    Traced base (rememberSection sections "services") (storeLanServices desired services) :=
  have keeps (lanPrefix dhcpPool wanPd : Option String) (hp : TrimmedValue lanPrefix)
      (hd : TrimmedValue dhcpPool) (hw : TrimmedValue wanPd) :
      Traced base (rememberSection sections "services")
        { desired with lanPrefix, dhcpPool, wanPd } :=
    { fixed := fun other => h.fixed fun mem => other ((mem_rememberSection_ne (by decide)).mpr mem)
      cleared := fun mem => h.cleared ((mem_rememberSection_ne (by decide)).mp mem)
      modes := h.modes
      services := fun _ => ⟨hp, hd, hw⟩
      qdiscs := h.qdiscs
      devs := h.devs }
  keeps _ _ _ (trimmed_blankToNone services.lanPrefix) (trimmed_blankToNone services.dhcpPool)
    (trimmed_blankToNone services.wanPd)

theorem traced_wireguard (h : Traced base sections desired) {tunnels : List WgInput}
    (stored : storeWireguard desired tunnels desired.wireguard = .ok desired') :
    Traced base (if addsRoute tunnels then
      rememberSection (rememberSection sections "wireguard") "routes"
      else rememberSection sections "wireguard") desired' := by
  obtain ⟨next, rfl⟩ := storeWireguard_eq_ok stored
  have known {name : String} (wireguard : name ≠ "wireguard") (routes : name ≠ "routes") :
      name ∈ (if addsRoute tunnels then
        rememberSection (rememberSection sections "wireguard") "routes"
        else rememberSection sections "wireguard") ↔ name ∈ sections := by
    split
    · rw [mem_rememberSection_ne routes, mem_rememberSection_ne wireguard]
    · exact mem_rememberSection_ne wireguard
  exact traced_frame h rfl rfl rfl rfl rfl (known (by decide) (by decide)) (known (by decide) (by decide))

theorem storeQdisc_eq (qdiscs : List Qdisc) (update : Qdisc) :
    storeQdisc qdiscs update = upsert (fun existing => existing.dev == update.dev)
      ({ · with kind := update.kind }) update qdiscs := upsert_eq

theorem traced_qdiscs (h : Traced base sections desired) {updates : List Qdisc}
    (stored : storeQdiscs desired updates = .ok desired') :
    Traced base (rememberSection sections "qdiscs") desired' := by
  simp only [storeQdiscs, bind_eq_ok, pure_eq_ok, forM_eq_ok, ensure_eq_ok, Bool.not_eq_true',
    Bool.or_eq_false_iff] at stored
  obtain ⟨-, named, rfl⟩ := stored
  exact {
    fixed other := h.fixed fun mem => other ((mem_rememberSection_ne (by decide)).mpr mem)
    cleared mem := h.cleared ((mem_rememberSection_ne (by decide)).mp mem)
    modes := h.modes
    services mem := h.services ((mem_rememberSection_ne (by decide)).mp mem)
    qdiscs := h.qdiscs.foldl fun list update mem kept => by
      rw [storeQdisc_eq]
      exact kept.upsert (fun _ _ same _ => ⟨same.1, same.2.1, (named update mem).2⟩)
        (fun _ old _ => ⟨old.1, (named update mem).2⟩) (named update mem)
    devs := fun distinct => by
      have overlay : Overlay (·.dev) (updates.map (·.dev)) desired.qdiscs
          (updates.foldl storeQdisc desired.qdiscs) := .foldl fun list update mem => by
        rw [storeQdisc_eq]
        exact .upsert (List.mem_map_of_mem mem) (fun _ same => same) rfl
      exact overlay.distinct (h.devs distinct) }

theorem storeWan_eq_ok {wan : WanIpv6} :
    storeWan desired wan = .ok desired' ↔
      desired.interfaces.any (fun iface => iface.name == wan.name && iface.isWan) = true ∧
        desired' = { desired with
          interfaces := modifyFirst (fun iface => iface.name == wan.name && iface.isWan)
            (acquire wan) desired.interfaces } := by
  unfold storeWan
  dsimp only
  split
  next known =>
    rw [Except.ok.injEq, and_iff_right known]
    exact eq_comm
  next unknown => exact iff_of_false nofun fun h => unknown h.1

theorem traced_storeWan (h : Traced base sections desired) {wan : WanIpv6}
    (stored : storeWan desired wan = .ok desired') : Traced base sections desired' := by
  obtain ⟨-, rfl⟩ := storeWan_eq_ok.mp stored
  have wans : ∀ iface : Iface, (iface.name == wan.name && iface.isWan) = true →
      iface.isWan = true := fun iface hit => (Bool.and_eq_true_iff.mp hit).2
  refine ⟨fun other => (map_fixed_modifyFirst wans).trans (h.fixed other), fun mem => ?_,
    fun iface mem => ?_, h.services, h.qdiscs, h.devs⟩
  · exact (map_fixed_modifyFirst wans).trans
      ((h.cleared mem).trans map_withoutAcquisition_modifyFirst.symm)
  · rcases mem_modifyFirst mem with mem | ⟨old, -, -, rfl⟩
    · exact h.modes iface mem
    · exact acquire_modeStored wan old

theorem traced_ipv6 (h : Traced base sections desired) {settings : Ipv6Settings}
    (stored : storeIpv6 desired settings = .ok desired') :
    Traced base (rememberSection sections "ipv6") desired' := by
  have fold : ∀ (wans : List WanIpv6) (desired : DesiredState), Traced base sections desired →
      wans.foldlM storeWan desired = .ok desired' → Traced base sections desired' := by
    intro wans
    induction wans with
    | nil =>
        intro desired h stored
        cases stored
        exact h
    | cons wan wans ih =>
        intro desired h stored
        rw [List.foldlM_cons, bind_eq_ok] at stored
        obtain ⟨next, first, rest⟩ := stored
        exact ih next (traced_storeWan h first) rest
  exact traced_frame (fold settings.wans desired h stored) rfl rfl rfl rfl rfl
    (mem_rememberSection_ne (by decide)) (mem_rememberSection_ne (by decide))

theorem traced_save (h : Traced base sections desired) {values : SectionValues}
    {after : DesiredState × List String}
    (stored : applyDraftSections desired sections values = .ok after) :
    Traced base after.2 after.1 := by
  have other {d : DesiredState} {s : List String} (h : Traced base s d) {d' : DesiredState}
      {name : String} (hi : "interfaces" ≠ name) (hs : "services" ≠ name)
      (interfaces : d'.interfaces = d.interfaces) (lanPrefix : d'.lanPrefix = d.lanPrefix)
      (dhcpPool : d'.dhcpPool = d.dhcpPool) (wanPd : d'.wanPd = d.wanPd)
      (qdiscs : d'.qdiscs = d.qdiscs) : Traced base (rememberSection s name) d' :=
    traced_frame h interfaces lanPrefix dhcpPool wanPd qdiscs (mem_rememberSection_ne hi)
      (mem_rememberSection_ne hs)
  refine applyDraftSections_keeps (P := fun state => Traced base state.2 state.1) stored h
    ?_ ?_ ?_ ?_ ?_ ?_ ?_
  · exact fun d s r h => other h (by decide) (by decide) rfl rfl rfl rfl rfl
  · exact fun d s i u h => traced_interfaces h i u
  · exact fun d s v h => traced_services h v
  · exact fun d s r h => other h (by decide) (by decide) rfl rfl rfl rfl rfl
  · exact fun d s tunnels d' _ stored h => traced_wireguard h stored
  · exact fun d s updates d' stored h => traced_qdiscs h stored
  · exact fun d s settings d' stored h => traced_ipv6 h stored

section

variable {changes : List DraftChange} {draft : Draft}

theorem saved_traced (saved : Saved base changes draft) (regular : Regular base) :
    Traced base draft.sections draft.desired :=
  saved.rule (P := fun _ desired sections _ => Traced base sections desired) (traced_refl regular)
    fun _ _ _ _ _ _ h stored => traced_save h stored

theorem saved_edits (saved : Saved base changes draft) :
    Edits draft.sections base draft.desired := by
  refine saved.rule (P := fun _ desired sections _ => Edits sections base desired) .refl
    fun changes desired sections edits change after h stored => ?_
  have recorded := applyDraftSections_recorded stored
  exact (h.mono recorded.sections).trans recorded.edits

/-- The tunnels of the base come first, and only the edited ones are others than its own. -/
theorem saved_tunnels (saved : Saved base changes draft) :
    Extends (fun old new => old.name = new.name ∧ (new.name ∈ draft.wireguardEdits ∨ old = new))
      (fun new => new.name ∈ draft.wireguardEdits) base.wireguard draft.desired.wireguard := by
  refine saved.rule (P := fun _ desired _ edits =>
      Extends (fun old new : Wg => old.name = new.name ∧ (new.name ∈ edits ∨ old = new))
        (fun new => new.name ∈ edits) base.wireguard desired.wireguard)
    (.refl fun _ _ => ⟨rfl, .inr rfl⟩) fun changes desired sections edits change after h stored => ?_
  have known {name : String} (mem : name ∈ edits) : name ∈ rememberTunnels edits change :=
    mem_rememberTunnels.mpr (.inl mem)
  have start : Extends (fun old new : Wg =>
      old.name = new.name ∧ (new.name ∈ rememberTunnels edits change ∨ old = new))
      (fun new => new.name ∈ rememberTunnels edits change) base.wireguard desired.wireguard :=
    h.mono (fun old new same => ⟨same.1, same.2.imp_left known⟩) fun new => known
  rw [applyDraftSections_tunnels stored]
  refine start.foldl fun list input mem kept => ?_
  have told : input.name ∈ rememberTunnels edits change :=
    mem_rememberTunnels.mpr (.inr (List.mem_map_of_mem mem))
  rw [storeTunnel_eq]
  refine kept.upsert (fun old new same hit => ?_) (fun new _ hit => ?_) told
  · rw [mergeTunnel_name]
    exact ⟨same.1, .inl (by rw [beq_iff_eq.mp hit]; exact told)⟩
  · rw [mergeTunnel_name, beq_iff_eq.mp hit]
    exact told

theorem saved_tunnels_distinct (saved : Saved base changes draft) (regular : Regular base) :
    (draft.desired.wireguard.map (·.name)).Nodup := by
  refine saved.rule (P := fun _ desired _ _ => (desired.wireguard.map (·.name)).Nodup)
    regular.tunnels fun changes desired sections edits change after distinct stored => ?_
  rw [applyDraftSections_tunnels stored]
  have overlay : Overlay (·.name) ((change.wireguard.getD []).map (·.name)) desired.wireguard
      ((change.wireguard.getD []).foldl storeTunnel desired.wireguard) :=
    .foldl fun _ input mem => overlay_storeTunnel (List.mem_map_of_mem mem)
  exact overlay.distinct distinct

end

/-! ## Storing what is shown -/

theorem apart_of_nodup {α : Type} {key : α → String} {list : List α} (edited : α → Bool)
    (distinct : (list.map key).Nodup) :
    list.Pairwise fun b a => edited a = true → (key b == key a) = false :=
  (List.pairwise_map.mp distinct).imp fun other _ => beq_false_of_ne other

/-- The edited tunnels, carried onto those of the base, are the draft's. -/
theorem carried_tunnels {changes : List DraftChange} {draft : Draft}
    (saved : Saved base changes draft) (regular : Regular base) :
    (draft.desired.wireguard.filter fun tunnel => editedTunnel draft tunnel.name).foldl carryTunnel
      base.wireguard = draft.desired.wireguard := by
  have remembered {name : String} (mem : name ∈ draft.wireguardEdits) :
      editedTunnel draft name = true := by
    rw [editedTunnel, Bool.or_eq_true, List.contains_iff_mem]
    exact .inr mem
  have stores : carryTunnel = fun accepted (tunnel : Wg) =>
      upsert (fun existing => existing.name == tunnel.name) (fun _ => tunnel) tunnel accepted := by
    funext accepted tunnel
    exact carryTunnel_eq accepted tunnel
  have extended : Extends (fun old new : Wg => (editedTunnel draft new.name = true ∧
      (old.name == new.name) = true ∧ new = new) ∨ (editedTunnel draft new.name = false ∧ old = new))
      (fun new => editedTunnel draft new.name = true ∧ new = new) base.wireguard
      draft.desired.wireguard := by
    refine (saved_tunnels saved).mono (fun old new same => ?_) fun new mem => ⟨remembered mem, rfl⟩
    cases edited : editedTunnel draft new.name with
    | true => exact .inl ⟨rfl, beq_iff_eq.mpr same.1, rfl⟩
    | false =>
        refine .inr ⟨rfl, same.2.resolve_left fun mem => ?_⟩
        rw [remembered mem] at edited
        cases edited
  have carried := @foldl_upsert_eq Wg Wg (fun tunnel existing => existing.name == tunnel.name)
    (fun tunnel _ => tunnel) id (fun tunnel => editedTunnel draft tunnel.name) id _ _ extended
    (apart_of_nodup _ (saved_tunnels_distinct saved regular))
  rw [List.map_id] at carried
  rw [stores]
  exact carried

theorem mergeTunnel_redacted (tunnel : Wg) :
    mergeTunnel (redactedTunnel tunnel) tunnel = tunnel := by
  have key : (trim (redactedTunnel tunnel).privateKey).isEmpty = true := by
    show (trim "").isEmpty = true
    decide
  have port : ((redactedTunnel tunnel).listenPort <|> tunnel.listenPort) = tunnel.listenPort := by
    cases h : tunnel.listenPort <;> simp [redactedTunnel, h]
  have addresses : (if (redactedTunnel tunnel).addresses.isEmpty then tunnel.addresses
      else (redactedTunnel tunnel).addresses) = tunnel.addresses := ite_self _
  rw [mergeTunnel, if_pos key, port, addresses]

theorem storeTunnels_redacted (tunnels next : List Wg) :
    storeTunnels next (redactedWireguard tunnels) =
      .ok ((redactedWireguard tunnels).foldl storeTunnel next, []) := by
  induction tunnels generalizing next with
  | nil => rfl
  | cons tunnel tunnels ih =>
      have route : tunnelRoute (redactedTunnel tunnel) = .ok none := by
        have blank : (trim "").isEmpty = true := by decide
        simp [tunnelRoute, redactedTunnel, blank]
      have rest := ih (storeTunnel next (redactedTunnel tunnel))
      simp only [redactedWireguard] at rest
      simp only [redactedWireguard, List.map_cons, storeTunnels, route, rest, List.foldl_cons]
      rfl

/-- Tunnels without their keys, stored again, change nothing. -/
theorem storeWireguard_shown (edited : Wg → Bool)
    (distinct : (desired.wireguard.map (·.name)).Nodup) :
    storeWireguard desired (redactedWireguard (desired.wireguard.filter edited)) desired.wireguard =
      .ok desired := by
  have stores : storeTunnel = fun next (tunnel : WgInput) =>
      upsert (fun existing => existing.name == tunnel.name) (mergeTunnel tunnel)
        { name := tunnel.name, privateKey := tunnel.privateKey, listenPort := tunnel.listenPort,
          addresses := tunnel.addresses } next := by
    funext next tunnel
    exact storeTunnel_eq next tunnel
  have stored : (redactedWireguard (desired.wireguard.filter edited)).foldl storeTunnel
      desired.wireguard = desired.wireguard := by
    rw [stores, redactedWireguard]
    refine foldl_upsert_eq (.refl fun tunnel _ => ?_) (apart_of_nodup edited distinct)
    cases edited tunnel with
    | true => exact .inl ⟨rfl, beq_self_eq_true tunnel.name, mergeTunnel_redacted tunnel⟩
    | false => exact .inr ⟨rfl, rfl⟩
  simp only [storeWireguard, storeTunnels_redacted, stored]
  rfl

theorem storeQdiscs_shown {state : DesiredState} (h : Traced base sections desired)
    (same : state.qdiscs = base.qdiscs) (distinct : (base.qdiscs.map (·.dev)).Nodup) :
    storeQdiscs state desired.qdiscs = .ok { state with qdiscs := desired.qdiscs } := by
  have named : ∀ qdisc ∈ desired.qdiscs, qdisc.Named :=
    h.qdiscs.forall_mem (fun _ _ same => same.2) fun _ new => new
  have stores : storeQdisc = fun qdiscs (update : Qdisc) => upsert
      (fun existing => existing.dev == update.dev) ({ · with kind := update.kind }) update qdiscs := by
    funext qdiscs update
    exact storeQdisc_eq qdiscs update
  have extended : Extends (fun old new : Qdisc => (true = true ∧ (old.dev == new.dev) = true ∧
      { old with kind := new.kind } = new) ∨ (true = false ∧ old = new))
      (fun new => true = true ∧ new = new) base.qdiscs desired.qdiscs :=
    h.qdiscs.mono (fun old new same => .inl ⟨rfl, beq_iff_eq.mpr same.1, by rw [same.1]⟩)
      fun new _ => ⟨rfl, rfl⟩
  have stored := @foldl_upsert_eq Qdisc Qdisc (fun update existing => existing.dev == update.dev)
    (fun update existing => { existing with kind := update.kind }) id (fun _ => true) id _ _ extended
    (apart_of_nodup _ (h.devs distinct))
  rw [List.map_id, List.filter_true] at stored
  have whole : desired.qdiscs.foldl storeQdisc state.qdiscs = desired.qdiscs := by
    rw [stores, same]
    exact stored
  simp only [storeQdiscs, bind_eq_ok, pure_eq_ok, forM_eq_ok, ensure_eq_ok, Bool.not_eq_true',
    Bool.or_eq_false_iff]
  exact ⟨(), named, by rw [whole]⟩

/-! ## The WANs -/

theorem isWan_fixed (iface : Iface) : iface.fixed.isWan = iface.isWan := by
  unfold Iface.fixed
  split <;> rfl

theorem withoutAcquisition_fixed (iface : Iface) :
    iface.fixed.withoutAcquisition = iface.withoutAcquisition := by
  unfold Iface.fixed
  split <;> rfl

theorem any_withoutAcquisition (interfaces : List Iface) (wan : WanIpv6) :
    interfaces.any (fun iface => iface.name == wan.name && iface.isWan) =
      (interfaces.map Iface.withoutAcquisition).any
        fun iface => iface.name == wan.name && iface.isWan := by
  rw [List.any_map]
  rfl

/-- A WAN takes the acquisition that is shown of one with the same settings otherwise. -/
theorem acquire_shown {old new : Iface} (same : new.fixed = old.fixed) (mode : new.ModeStored) :
    (new.isWan = true ∧ (old.name == new.name && old.isWan) = true ∧
      acquire (wanIpv6Setting new) old = new) ∨ (new.isWan = false ∧ old = new) := by
  have role : new.isWan = old.isWan := by rw [← isWan_fixed new, same, isWan_fixed]
  cases wan : new.isWan with
  | false =>
      refine .inr ⟨rfl, ?_⟩
      rw [Iface.fixed, Iface.fixed, ← role, if_neg (by simp [wan]), if_neg (by simp [wan])] at same
      exact same.symm
  | true =>
      rw [Iface.fixed, Iface.fixed, ← role, if_pos wan, if_pos wan] at same
      have name : old.name = new.name :=
        show old.withoutAcquisition.name = new.withoutAcquisition.name by rw [same]
      refine .inl ⟨rfl, by rw [name, ← role, wan, beq_self_eq_true]; rfl, ?_⟩
      have shown : (if (new.ipv6.getD "static" == "static" || new.ipv6.getD "static" == "") = true
          then none else some (new.ipv6.getD "static")) = new.ipv6 := by
        cases known : new.ipv6 with
        | none => rfl
        | some value =>
            have named : value ≠ "static" ∧ value ≠ "" := by
              constructor
              · rintro rfl
                exact mode.1 known
              · rintro rfl
                exact mode.2 known
            simp [named]
      have acquired : acquire (wanIpv6Setting new) old =
          { old.withoutAcquisition with ipv6 := new.ipv6, requestPd := new.requestPd } := by
        rw [acquire, wanIpv6Setting, shown]
        rfl
      rw [acquired, ← same]
      rfl

theorem any_modifyFirst_acquire {p : Iface → Bool} {wan other : WanIpv6}
    {interfaces : List Iface} :
    (modifyFirst p (acquire wan) interfaces).any
        (fun iface => iface.name == other.name && iface.isWan) =
      interfaces.any fun iface => iface.name == other.name && iface.isWan := by
  rw [any_withoutAcquisition, map_withoutAcquisition_modifyFirst, ← any_withoutAcquisition]

theorem foldlM_storeWan (wans : List WanIpv6) (state : DesiredState)
    (known : ∀ wan ∈ wans,
      state.interfaces.any (fun iface => iface.name == wan.name && iface.isWan) = true) :
    wans.foldlM storeWan state = .ok { state with
      interfaces := wans.foldl (fun interfaces wan =>
        upsert (fun iface => iface.name == wan.name && iface.isWan) (acquire wan)
          { name := wan.name } interfaces) state.interfaces } := by
  induction wans generalizing state with
  | nil => rfl
  | cons wan wans ih =>
      have first := known wan List.mem_cons_self
      have upserted := @upsert_eq _ (fun iface : Iface => iface.name == wan.name && iface.isWan)
        (acquire wan) { name := wan.name } state.interfaces
      rw [if_pos first] at upserted
      have stored := storeWan_eq_ok.mpr ⟨first, rfl⟩
      rw [List.foldlM_cons, stored, List.foldl_cons, ← upserted]
      refine ih _ fun other mem => ?_
      exact any_modifyFirst_acquire.trans (known other (List.mem_cons_of_mem _ mem))

theorem storeIpv6_shown {state : DesiredState}
    (same : desired.interfaces.map Iface.fixed = state.interfaces.map Iface.fixed)
    (modes : ∀ iface ∈ desired.interfaces, iface.ModeStored)
    (distinct : ((desired.interfaces.filter Iface.isWan).map (·.name)).Nodup) :
    storeIpv6 state ⟨wanIpv6Settings desired⟩ = .ok { state with
      interfaces := desired.interfaces } := by
  have bare : desired.interfaces.map Iface.withoutAcquisition =
      state.interfaces.map Iface.withoutAcquisition := by
    have projected := congrArg (List.map Iface.withoutAcquisition) same
    simpa only [List.map_map, Function.comp_def, withoutAcquisition_fixed] using projected
  have known : ∀ wan ∈ wanIpv6Settings desired,
      state.interfaces.any (fun iface => iface.name == wan.name && iface.isWan) = true := by
    intro wan mem
    obtain ⟨iface, among, rfl⟩ := List.mem_map.mp mem
    obtain ⟨among, isWan⟩ := List.mem_filter.mp among
    rw [any_withoutAcquisition, ← bare, ← any_withoutAcquisition]
    exact List.any_eq_true.mpr ⟨iface, among, by simp [wanIpv6Setting, isWan]⟩
  have apart : desired.interfaces.Pairwise fun b a => a.isWan = true →
      (b.name == (wanIpv6Setting a).name && b.isWan) = false := by
    refine (List.pairwise_filter.mp (List.pairwise_map.mp distinct)).imp fun {b a} other isWan => ?_
    cases wan : b.isWan with
    | false => exact Bool.and_false _
    | true =>
        rw [Bool.and_true]
        exact beq_false_of_ne (other wan isWan)
  have stored := @foldl_upsert_eq Iface WanIpv6
    (fun wan iface => iface.name == wan.name && iface.isWan) acquire (fun wan => { name := wan.name })
    Iface.isWan wanIpv6Setting _ _
    (.of_map_eq same fun old new mem same => acquire_shown same (modes new mem)) apart
  rw [storeIpv6, foldlM_storeWan _ _ known]
  exact congrArg _ (by rw [wanIpv6Settings, stored])

/-! ## Reconciling -/

theorem review_to {α : Type} {name error : String} {value : Option α} {given : α}
    {store : DesiredState → α → Except String DesiredState} (same : value = some given)
    (recorded : name ∈ sections → store desired given = .ok desired')
    (other : name ∉ sections → desired' = desired) :
    review sections name value error store desired = .ok desired' := by
  unfold review
  split
  next mem =>
    rw [same]
    exact recorded (List.contains_iff_mem.mp mem)
  next missing => rw [other fun mem => missing (List.contains_iff_mem.mpr mem)]

/-- An interface save does not look at the revision, the tunnels or the routes, and leaves
them. -/
theorem storeInterfaceSection_frame (base : DesiredState) (revision : Nat) (wireguard : List Wg)
    (routes : List StaticRoute) (interfaces : List Iface) (uiExposure : List String) :
    storeInterfaceSection { base with revision, wireguard, routes } interfaces uiExposure =
      { base with
        revision, wireguard, routes, uiExposure
        interfaces := (storeInterfaceSection base interfaces uiExposure).interfaces
        lanPrefix := (storeInterfaceSection base interfaces uiExposure).lanPrefix
        dhcpPool := (storeInterfaceSection base interfaces uiExposure).dhcpPool } := by
  unfold storeInterfaceSection syncLanPrefixFromFirstLan
  dsimp only
  split
  · rfl
  · split
    · rfl
    · split <;> rfl

theorem storeInterfaceSection_interfaces (base : DesiredState) (interfaces : List Iface)
    (uiExposure : List String) : (storeInterfaceSection base interfaces uiExposure).interfaces =
      interfaces.map (keepAcquisition base.interfaces) := by
  unfold storeInterfaceSection
  obtain ⟨lanPrefix, dhcpPool, same, -⟩ := sync_eq { base with
    interfaces := interfaces.map (keepAcquisition base.interfaces), uiExposure }
  rw [same]

variable {changes : List DraftChange} {draft : Draft}

/-- The interfaces, prefix and pool before the sections that come after the interfaces. -/
def interfacesOnce (base : DesiredState) (draft : Draft) : DesiredState :=
  if "interfaces" ∈ draft.sections then
    storeInterfaceSection base draft.desired.interfaces draft.desired.uiExposure
  else base

theorem interfacesOnce_fixed (traced : Traced base draft.sections draft.desired) :
    draft.desired.interfaces.map Iface.fixed =
      (interfacesOnce base draft).interfaces.map Iface.fixed := by
  unfold interfacesOnce
  split
  next mem =>
    rw [storeInterfaceSection_interfaces, List.map_map, traced.cleared mem]
    exact (List.map_congr_left fun iface _ => fixed_keepAcquisition _ iface).symm
  next other => exact traced.fixed other

/-- What the later sections leave of these are the rederived ones. -/
theorem rederived_interfaces (edits : Edits draft.sections base draft.desired) (revision : Nat)
    (other : "ipv6" ∉ draft.sections) :
    (rederived base draft revision).interfaces = (interfacesOnce base draft).interfaces := by
  unfold rederived interfacesOnce
  dsimp only
  by_cases mem : "interfaces" ∈ draft.sections
  · rw [if_pos ⟨mem, other⟩, if_pos mem]
  · rw [if_neg fun saved => mem saved.1, if_neg mem]
    exact edits.interfaces.resolve_right fun h => h.elim mem fun h => other h.1

theorem rederived_lanPrefix (edits : Edits draft.sections base draft.desired) (revision : Nat)
    (other : "services" ∉ draft.sections) :
    (rederived base draft revision).lanPrefix = (interfacesOnce base draft).lanPrefix := by
  unfold rederived interfacesOnce
  dsimp only
  by_cases mem : "interfaces" ∈ draft.sections
  · rw [if_pos ⟨mem, other⟩, if_pos mem]
  · rw [if_neg fun saved => mem saved.1, if_neg mem]
    exact edits.lanPrefix.resolve_right fun h => h.elim mem other

theorem rederived_dhcpPool (edits : Edits draft.sections base draft.desired) (revision : Nat)
    (other : "services" ∉ draft.sections) :
    (rederived base draft revision).dhcpPool = (interfacesOnce base draft).dhcpPool := by
  unfold rederived interfacesOnce
  dsimp only
  by_cases mem : "interfaces" ∈ draft.sections
  · rw [if_pos ⟨mem, other⟩, if_pos mem]
  · rw [if_neg fun saved => mem saved.1, if_neg mem]
    exact edits.dhcpPool.resolve_right fun h => h.elim mem other

theorem reviewed_shown (saved : Saved base changes draft) (regular : Regular base) (revision : Nat)
    (edited : Wg → Bool)
    (devs : "qdiscs" ∈ draft.sections → (base.qdiscs.map (·.dev)).Nodup)
    (wans : "ipv6" ∈ draft.sections →
      ((draft.desired.interfaces.filter Iface.isWan).map (·.name)).Nodup) :
    applyReviewedSections { base with revision, wireguard := draft.desired.wireguard } draft.sections
      { shownSections draft.desired with
        wireguard := some (redactedWireguard (draft.desired.wireguard.filter edited)) } =
      .ok (rederived base draft revision) := by
  have traced := saved_traced saved regular
  have edits := saved_edits saved
  simp only [applyReviewedSections, bind_eq_ok]
  let once := interfacesOnce base draft
  let result := rederived base draft revision
  let start : DesiredState :=
    { base with revision, wireguard := draft.desired.wireguard, routes := draft.desired.routes }
  let afterInterfaces : DesiredState := { start with
    interfaces := once.interfaces, uiExposure := draft.desired.uiExposure
    lanPrefix := once.lanPrefix, dhcpPool := once.dhcpPool }
  let afterServices : DesiredState := { afterInterfaces with
    lanPrefix := result.lanPrefix, dhcpPool := result.dhcpPool, wanPd := draft.desired.wanPd }
  let afterFirewall : DesiredState := { afterServices with nftExtra := draft.desired.nftExtra }
  let afterQdiscs : DesiredState := { afterFirewall with qdiscs := draft.desired.qdiscs }
  have last : { afterQdiscs with interfaces := result.interfaces } = result := by
    simp only [afterQdiscs, afterFirewall, afterServices, afterInterfaces, start,
      ← edits.hostname, ← edits.applyConfirmation]
    rfl
  refine ⟨start, review_to rfl (fun _ => rfl) fun other => ?_,
    afterInterfaces, review_to rfl (fun mem => ?_) fun other => ?_,
    afterServices, review_to rfl (fun mem => ?_) fun other => ?_,
    afterFirewall, review_to rfl (fun _ => rfl) fun other => ?_,
    afterFirewall, review_to rfl (fun _ => ?_) fun _ => rfl,
    afterQdiscs, review_to rfl (fun mem => ?_) fun other => ?_,
    review_to rfl (fun mem => ?_) fun other => ?_⟩
  · simp only [start, edits.routes.resolve_right other]
  · refine congrArg Except.ok ((storeInterfaceSection_frame ..).trans ?_)
    simp only [afterInterfaces, once, interfacesOnce, if_pos mem]
    rfl
  · simp only [afterInterfaces, once, interfacesOnce, if_neg other,
      edits.uiExposure.resolve_right other]
    rfl
  · obtain ⟨hp, hd, hw⟩ := traced.services mem
    unfold TrimmedValue at hp hd hw
    have lanPrefix : result.lanPrefix = draft.desired.lanPrefix := if_neg fun h => h.2 mem
    have dhcpPool : result.dhcpPool = draft.desired.dhcpPool := if_neg fun h => h.2 mem
    refine congrArg Except.ok ?_
    rw [storeLanServices, hp, hd, hw, ← lanPrefix, ← dhcpPool]
  · simp only [afterServices, result, rederived_lanPrefix edits revision other,
      rederived_dhcpPool edits revision other, edits.wanPd.resolve_right other]
    rfl
  · simp only [afterFirewall, edits.nftExtra.resolve_right other]
    rfl
  · exact storeWireguard_shown edited (saved_tunnels_distinct saved regular)
  · exact storeQdiscs_shown traced rfl (devs mem)
  · simp only [afterQdiscs, edits.qdiscs.resolve_right other]
    rfl
  · have interfaces : result.interfaces = draft.desired.interfaces := if_neg fun h => h.2 mem
    have stored := @storeIpv6_shown _ afterQdiscs (interfacesOnce_fixed traced) traced.modes
      (wans mem)
    rw [← interfaces, last] at stored
    exact stored
  · have interfaces : result.interfaces = once.interfaces := rederived_interfaces edits revision other
    rw [interfaces] at last
    exact last.symm

theorem reconciledDesired_shown (saved : Saved base changes draft) (regular : Regular base)
    (revision : Nat) (devs : "qdiscs" ∈ draft.sections → (base.qdiscs.map (·.dev)).Nodup)
    (wans : "ipv6" ∈ draft.sections →
      ((draft.desired.interfaces.filter Iface.isWan).map (·.name)).Nodup) :
    reconciledDesired draft { base with revision } (shownSections draft.desired) =
      .ok (rederived base draft revision) := by
  have imports := import_not_mem saved
  unfold reconciledDesired
  dsimp only
  rw [saved.effectiveSections, if_neg fun found => imports (List.contains_iff_mem.mp found)]
  split
  next recorded =>
    have carried : carryWireguardEdits { base with revision } draft =
        { base with revision, wireguard := draft.desired.wireguard } := by
      rw [carryWireguardEdits, carried_tunnels saved regular]
    have shown : (shownSections draft.desired).wireguard.map
        (·.filter fun tunnel => editedTunnel draft tunnel.name) =
        some (redactedWireguard (draft.desired.wireguard.filter fun tunnel =>
          editedTunnel draft tunnel.name)) := by
      rw [redactedWireguard, shownSections, Option.map_some, redactedWireguard, List.filter_map]
      rfl
    rw [carried, shown]
    exact reviewed_shown saved regular revision _ devs wans
  next missing =>
    have other : draft.desired.wireguard = base.wireguard :=
      (saved_edits saved).wireguard.resolve_right fun mem =>
        missing (List.contains_iff_mem.mpr mem)
    have reviewed := reviewed_shown saved regular revision (fun _ => true) devs wans
    rw [List.filter_true] at reviewed
    rw [← other]
    exact reviewed

/-! ## Accepted networks -/

theorem trim_interfaceName {name : String} (h : BootstrapValues.interfaceName name = true) :
    (trim name).isEmpty = false := by
  simp only [BootstrapValues.interfaceName, Bool.and_eq_true, Bool.not_eq_true', Bool.or_eq_true,
    List.all_eq_true, beq_iff_eq] at h
  obtain ⟨⟨notEmpty, -⟩, chars⟩ := h
  rw [trim_eq_self fun c mem => ?_, notEmpty]
  by_contra white
  rw [Bool.not_eq_false] at white
  rcases chars c mem with ((alphanum | rfl) | rfl) | rfl
  · rw [not_isAlphanum_of_isWhitespace white] at alphanum
    cases alphanum
  all_goals exact absurd white (by decide)

theorem interface_name {name : String} {parent : Option String} {vlan : Option Nat}
    {addresses : List String} (h : BootstrapValues.interface name parent vlan addresses = .ok ()) :
    BootstrapValues.interfaceName name = true := by
  simp only [BootstrapValues.interface, bind_eq_ok, ensure_eq_ok] at h
  obtain ⟨-, named, -⟩ := h
  exact named

theorem tunnel_name [Base64] {tunnels : List Wg} {seen last : List String}
    (h : tunnels.foldlM validateWg seen = .ok last) :
    ∀ tunnel ∈ tunnels, BootstrapValues.interfaceName tunnel.name = true := by
  induction tunnels generalizing seen with
  | nil => exact nofun
  | cons tunnel tunnels ih =>
      rw [List.foldlM_cons, bind_eq_ok] at h
      obtain ⟨next, first, rest⟩ := h
      intro other mem
      rcases List.mem_cons.mp mem with rfl | mem
      · simp only [validateWg, bind_eq_ok] at first
        obtain ⟨-, -, -, -, ⟨⟩, named, -⟩ := first
        exact interface_name named
      · exact ih rest other mem

/-- The networks that netd accepts are regular. -/
theorem regular_of_accepts [Base64] (h : Accepts base) : Regular base where
  tunnels := accepted_tunnels_distinct h.wireguard
  qdiscs qdisc mem := by
    have accepted := h.qdiscs qdisc mem
    simp only [validateQdisc, knownDev, ensure_eq_ok, Bool.and_eq_true, Bool.or_eq_true,
      List.any_eq_true, beq_iff_eq, List.contains_iff_mem] at accepted
    obtain ⟨known, kind⟩ := accepted
    have tunnels := h.wireguard
    simp only [validateWireguard, bind_eq_ok] at tunnels
    obtain ⟨last, fold, -⟩ := tunnels
    constructor
    · rcases known with ⟨iface, among, same⟩ | ⟨tunnel, among, same⟩
      · rw [← same]
        exact trim_interfaceName (interface_name (h.interfaces iface among))
      · rw [← same]
        exact trim_interfaceName (tunnel_name fold tunnel among)
    · have kinds : ∀ kind ∈ ["fq_codel", "fq", "pfifo", "bfifo", "sfq", "cake"],
          (trim kind).isEmpty = false := by decide
      exact kinds qdisc.kind kind
  modes iface mem := by
    have accepted := h.ipv6
    simp only [validateIpv6, bind_eq_ok, forM_eq_ok] at accepted
    obtain ⟨-, each, -⟩ := accepted
    have accepted := each iface mem
    simp only [validateIpv6Iface, bind_eq_ok, option_forM_eq_ok, ensure_eq_ok, Bool.or_eq_true,
      beq_iff_eq] at accepted
    obtain ⟨-, mode, -⟩ := accepted
    constructor
    · intro known
      obtain ⟨-, -, named⟩ := mode "static" known
      exact absurd named (by decide)
    · intro known
      obtain ⟨-, -, named⟩ := mode "" known
      exact absurd named (by decide)

end EchoLemmas

open CoverageLemmas EchoLemmas

/-- Reconciling onto the same network with another revision, with the values that the
draft shows, succeeds and rederives the draft's network. -/
theorem reconcile_echo {base : DesiredState} {changes : List DraftChange} {draft : Draft}
    (regular : Regular base) (saved : Saved base changes draft) {revision : Nat}
    (newer : revision ≠ base.revision)
    (devs : "qdiscs" ∈ draft.sections → (base.qdiscs.map (·.dev)).Nodup)
    (wans : "ipv6" ∈ draft.sections →
      ((draft.desired.interfaces.filter Iface.isWan).map (·.name)).Nodup) (token : String) :
    reconciledDraft (echo draft revision) (some draft) (.ok { base with revision }) (.ok token) =
      .ok { draft with
        baseRevision := revision, version := token, desired := rederived base draft revision } := by
  have desired := reconciledDesired_shown saved regular revision devs wans
  have began := saved.baseRevision
  simp only [reconciledDraft, bind_eq_ok, pure_eq_ok, mapError_eq_ok, okOr_eq_ok, ensure_eq_ok]
  refine ⟨draft, rfl, (), by simp [echo], _, rfl, (), ?_, _, desired, token, rfl, ?_⟩
  · simp [echo, began, newer.symm]
  · rw [saved.effectiveSections]
    rfl

namespace ReconcileEcho

/-- A network with a WAN and a LAN. -/
def echoed : DesiredState := {
  interfaces := [{ name := "enp1s0", role := some "wan", ipv6 := some "slaac" },
    { name := "enp2s0", role := some "lan", addresses := ["192.168.1.1/24"] }]
  wireguard := [{ name := "wg0", privateKey := "key" }]
  lanPrefix := some "192.168.1.0/24"
  dhcpPool := some "192.168.1.20-192.168.1.40" }

/-- The same with another role of the WAN and another address of the LAN. -/
def interfacesWith (role address : String) : List Iface :=
  [{ name := "enp1s0", role := some role },
    { name := "enp2s0", role := some "lan", addresses := [address] }]

def interfacesSaved (interfaces : List Iface) (version : Option String) : DraftChange :=
  { baseRevision := 1, version, interfaces := some interfaces, uiExposure := some [] }

/-- A save of the interfaces, the services, a tunnel and the acquisition of the WAN. -/
def moving : DraftChange := { interfacesSaved (interfacesWith "wan" "10.0.0.1/24") none with
  services := some { lanPrefix := "10.0.0.0/24", dhcpPool := " 10.0.0.9 " }
  wireguard := some [{ name := "wg0", listenPort := some 51820 }]
  ipv6 := some ⟨[{ name := "enp1s0", ipv6 := "dhcpv6", requestPd := true }]⟩ }

def moved : Draft := {
  baseRevision := 1, version := "v1"
  sections := ["interfaces", "services", "wireguard", "ipv6"], wireguardEdits := ["wg0"]
  desired := {
    interfaces := [
      { name := "enp1s0", role := some "wan", ipv6 := some "dhcpv6", requestPd := true },
      { name := "enp2s0", role := some "lan", addresses := ["10.0.0.1/24"] }]
    wireguard := [{ name := "wg0", privateKey := "key", listenPort := some 51820 }]
    lanPrefix := some "10.0.0.0/24", dhcpPool := some "10.0.0.9" } }

/-- A draft of these saves whose echo does not give its network. -/
def EchoDiffers (base : DesiredState) (changes : List DraftChange) : Prop :=
  ∃ draft, Saved base changes draft ∧
    (reconciledDraft (echo draft 2) (some draft) (.ok { base with revision := 2 })
      (.ok "v2")).map (·.desired) ≠ .ok { draft.desired with revision := 2 }

/-- The draft of interface saves only. -/
def interfacesDraft (desired : DesiredState) : Draft :=
  { baseRevision := 1, version := "v1", desired, sections := ["interfaces"] }

theorem savedAgain {base : DesiredState} {first again : DraftChange} {previous draft : Draft}
    (h : savedDraft first none (.ok base) (.ok "v1") = .ok previous)
    (ha : savedDraft again (some previous) (.ok base) (.ok "v1") = .ok draft) :
    Saved base [first, again] draft := .next (.first h) ha

def doubled : List Iface :=
  [{ name := "enp1s0", role := some "wan" }, { name := "enp1s0", role := some "wan" }]

end ReconcileEcho

open ReconcileEcho

theorem reconcile_echo_moved :
    reconciledDraft (echo moved 2) (some moved) (.ok { echoed with revision := 2 }) (.ok "v2") =
      .ok { moved with
        baseRevision := 2, version := "v2", desired := { moved.desired with revision := 2 } } := by
  have regular : Regular echoed := ⟨by decide, nofun, by unfold Iface.ModeStored; decide⟩
  have stored : savedDraft moving none (.ok echoed) (.ok "v1") = .ok moved := by decide +kernel
  have same : rederived echoed moved 2 = { moved.desired with revision := 2 } := by decide +kernel
  rw [← same]
  exact reconcile_echo regular (.first stored) (by decide) (by decide) (by decide) "v2"

/-- The pool that a moved LAN lost comes back, as does the acquisition of an interface that
was no WAN for a time. Two qdiscs on one device become alike, and so do two WANs of one
name. -/
theorem reconcile_echo_differs :
    EchoDiffers echoed [interfacesSaved (interfacesWith "wan" "10.0.0.1/24") none,
      interfacesSaved (interfacesWith "wan" "192.168.1.1/24") (some "v1")] ∧
    EchoDiffers echoed [interfacesSaved (interfacesWith "mgmt" "192.168.1.1/24") none,
      interfacesSaved (interfacesWith "wan" "192.168.1.1/24") (some "v1")] ∧
    EchoDiffers { qdiscs := [⟨"enp1s0", "fq"⟩, ⟨"enp1s0", "cake"⟩] }
      [{ baseRevision := 1, qdiscs := some [] }] ∧
    EchoDiffers {} [{ interfacesSaved doubled none with
      ipv6 := some ⟨[{ name := "enp1s0", ipv6 := "slaac" }]⟩ }] := by
  refine ⟨?_, ?_, ?_, ?_⟩
  · have away : savedDraft (interfacesSaved (interfacesWith "wan" "10.0.0.1/24") none) none
        (.ok echoed) (.ok "v1") = .ok (interfacesDraft { echoed with
          interfaces := [{ name := "enp1s0", role := some "wan", ipv6 := some "slaac" },
            { name := "enp2s0", role := some "lan", addresses := ["10.0.0.1/24"] }]
          lanPrefix := some "10.0.0.0/24", dhcpPool := none }) := by decide +kernel
    exact ⟨interfacesDraft { echoed with dhcpPool := none }, savedAgain away (by decide +kernel),
      by decide +kernel⟩
  · have away : savedDraft (interfacesSaved (interfacesWith "mgmt" "192.168.1.1/24") none) none
        (.ok echoed) (.ok "v1") = .ok (interfacesDraft { echoed with
          interfaces := interfacesWith "mgmt" "192.168.1.1/24" }) := by decide +kernel
    exact ⟨interfacesDraft { echoed with interfaces := interfacesWith "wan" "192.168.1.1/24" },
      savedAgain away (by decide +kernel), by decide +kernel⟩
  · have stored : savedDraft { baseRevision := 1, qdiscs := some [] } none
        (.ok { qdiscs := [⟨"enp1s0", "fq"⟩, ⟨"enp1s0", "cake"⟩] }) (.ok "v1") = .ok {
          baseRevision := 1, version := "v1", sections := ["qdiscs"]
          desired := { qdiscs := [⟨"enp1s0", "fq"⟩, ⟨"enp1s0", "cake"⟩] } } := by decide +kernel
    exact ⟨_, .first stored, by decide +kernel⟩
  · have stored : savedDraft { interfacesSaved doubled none with
        ipv6 := some ⟨[{ name := "enp1s0", ipv6 := "slaac" }]⟩ } none (.ok {}) (.ok "v1") = .ok {
          baseRevision := 1, version := "v1", sections := ["interfaces", "ipv6"]
          desired := { interfaces := [
            { name := "enp1s0", role := some "wan", ipv6 := some "slaac" },
            { name := "enp1s0", role := some "wan" }] } } := by decide +kernel
    exact ⟨_, .first stored, by decide +kernel⟩

end Fwos
