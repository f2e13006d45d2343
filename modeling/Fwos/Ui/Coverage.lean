import Fwos.Ui.Draft

/-!
# Drafts record what they edit

A draft may differ from the Accepted network it began from only in the fields of
the sections it records. Each operation on the draft is first put between the
network before and after it (`Within`), and what it records along with it
(`Recorded`).

* `applyDraftSections_recorded`: saving records every section it edits, and
  forgets none.
* `reconciledDesired_within_iff`: reconciling does so exactly when the reviewed
  tunnels leave the routes of the new base alone, or the draft records routes.
* `drafts_covered`: the runs whose reconciliations all do keep every edit
  recorded.
-/

namespace Fwos

open Rust

/-! ## The fields of the sections -/

def Iface.withoutAcquisition (iface : Iface) : Iface :=
  { iface with ipv6 := none, requestPd := false }

/-- Revision aside, the networks differ only in the fields of these sections. -/
structure Within (sections : List String) (base desired : DesiredState) : Prop where
  routes : desired.routes = base.routes ∨ "routes" ∈ sections
  interfaces : desired.interfaces = base.interfaces ∨ "interfaces" ∈ sections ∨
    "ipv6" ∈ sections ∧ desired.interfaces.map Iface.withoutAcquisition =
      base.interfaces.map Iface.withoutAcquisition
  uiExposure : desired.uiExposure = base.uiExposure ∨ "interfaces" ∈ sections
  lanPrefix : desired.lanPrefix = base.lanPrefix ∨ "interfaces" ∈ sections ∨ "services" ∈ sections
  dhcpPool : desired.dhcpPool = base.dhcpPool ∨ "interfaces" ∈ sections ∨ "services" ∈ sections
  wanPd : desired.wanPd = base.wanPd ∨ "services" ∈ sections
  nftExtra : desired.nftExtra = base.nftExtra ∨ "firewall" ∈ sections
  wireguard : desired.wireguard = base.wireguard ∨ "wireguard" ∈ sections
  qdiscs : desired.qdiscs = base.qdiscs ∨ "qdiscs" ∈ sections
  hostname : desired.hostname = base.hostname
  applyConfirmation : desired.applyConfirmation = base.applyConfirmation

/-- Every edit of the draft is in a section it records. An import proposes every field. -/
def Draft.Covered (accepted : AcceptedNetworks) (draft : Draft) : Prop :=
  "import" ∈ effectiveSections draft ∨
    Within (effectiveSections draft) (accepted draft.baseRevision) draft.desired

section

variable {sections sections' : List String} {base desired desired' : DesiredState}

theorem Within.refl : Within sections base base :=
  ⟨.inl rfl, .inl rfl, .inl rfl, .inl rfl, .inl rfl, .inl rfl, .inl rfl, .inl rfl, .inl rfl, rfl,
    rfl⟩

theorem Within.mono (h : Within sections base desired) (hs : sections ⊆ sections') :
    Within sections' base desired where
  routes := h.routes.imp_right (hs ·)
  interfaces := h.interfaces.imp_right (.imp (hs ·) (.imp_left (hs ·)))
  uiExposure := h.uiExposure.imp_right (hs ·)
  lanPrefix := h.lanPrefix.imp_right (.imp (hs ·) (hs ·))
  dhcpPool := h.dhcpPool.imp_right (.imp (hs ·) (hs ·))
  wanPd := h.wanPd.imp_right (hs ·)
  nftExtra := h.nftExtra.imp_right (hs ·)
  wireguard := h.wireguard.imp_right (hs ·)
  qdiscs := h.qdiscs.imp_right (hs ·)
  hostname := h.hostname
  applyConfirmation := h.applyConfirmation

theorem CoverageLemmas.eq_trans_or {α : Type} {a b c : α} {p : Prop} (h : b = a ∨ p)
    (h' : c = b ∨ p) : c = a ∨ p := by
  rcases h with rfl | h
  · exact h'
  · exact .inr h

theorem Within.trans (h : Within sections base desired) (h' : Within sections desired desired') :
    Within sections base desired' where
  routes := CoverageLemmas.eq_trans_or h.routes h'.routes
  interfaces := by
    rcases h.interfaces with hi | hi | ⟨hs, hi⟩
    · rw [← hi]
      exact h'.interfaces
    · exact .inr (.inl hi)
    · rcases h'.interfaces with hi' | hi' | ⟨-, hi'⟩
      · rw [hi']
        exact .inr (.inr ⟨hs, hi⟩)
      · exact .inr (.inl hi')
      · exact .inr (.inr ⟨hs, hi'.trans hi⟩)
  uiExposure := CoverageLemmas.eq_trans_or h.uiExposure h'.uiExposure
  lanPrefix := CoverageLemmas.eq_trans_or h.lanPrefix h'.lanPrefix
  dhcpPool := CoverageLemmas.eq_trans_or h.dhcpPool h'.dhcpPool
  wanPd := CoverageLemmas.eq_trans_or h.wanPd h'.wanPd
  nftExtra := CoverageLemmas.eq_trans_or h.nftExtra h'.nftExtra
  wireguard := CoverageLemmas.eq_trans_or h.wireguard h'.wireguard
  qdiscs := CoverageLemmas.eq_trans_or h.qdiscs h'.qdiscs
  hostname := h'.hostname.trans h.hostname
  applyConfirmation := h'.applyConfirmation.trans h.applyConfirmation

/-- An edit of the network within these sections; the revision stays. -/
structure Edits (sections : List String) (base desired : DesiredState) : Prop extends
    Within sections base desired where
  revision : desired.revision = base.revision

theorem Edits.refl : Edits sections base base := ⟨.refl, rfl⟩

theorem Edits.mono (h : Edits sections base desired) (hs : sections ⊆ sections') :
    Edits sections' base desired := ⟨h.toWithin.mono hs, h.revision⟩

theorem Edits.trans (h : Edits sections base desired) (h' : Edits sections desired desired') :
    Edits sections base desired' :=
  ⟨h.toWithin.trans h'.toWithin, h'.revision.trans h.revision⟩

end

namespace CoverageLemmas

variable {sections : List String} {base desired desired' : DesiredState}

/-! ## What each section stores -/

theorem edits_routes {routes : List StaticRoute} (hs : "routes" ∈ sections) :
    Edits sections desired { desired with routes := routes } :=
  { (Edits.refl : Edits sections desired desired) with routes := .inr hs }

theorem edits_nftExtra {rules : List String} (hs : "firewall" ∈ sections) :
    Edits sections desired { desired with nftExtra := rules } :=
  { (Edits.refl : Edits sections desired desired) with nftExtra := .inr hs }

theorem edits_wireguard {tunnels : List Wg} (hs : "wireguard" ∈ sections) :
    Edits sections desired { desired with wireguard := tunnels } :=
  { (Edits.refl : Edits sections desired desired) with wireguard := .inr hs }

theorem storeLanServices_edits {services : LanServices} (hs : "services" ∈ sections) :
    Edits sections desired (storeLanServices desired services) :=
  have hw (lanPrefix dhcpPool wanPd : Option String) : Edits sections desired
      { desired with lanPrefix := lanPrefix, dhcpPool := dhcpPool, wanPd := wanPd } :=
    { (Edits.refl : Edits sections desired desired) with
      lanPrefix := .inr (.inr hs), dhcpPool := .inr (.inr hs), wanPd := .inr hs }
  hw _ _ _

theorem syncLanPrefixFromFirstLan_edits (hs : "interfaces" ∈ sections) :
    Edits sections desired (syncLanPrefixFromFirstLan desired) := by
  unfold syncLanPrefixFromFirstLan
  split
  · exact .refl
  · split
    · exact .refl
    · split
      · exact .refl
      · exact { (Edits.refl : Edits sections desired desired) with
          lanPrefix := .inr (.inl hs), dhcpPool := .inr (.inl hs) }

theorem storeInterfaceSection_edits {interfaces : List Iface} {uiExposure : List String}
    (hs : "interfaces" ∈ sections) :
    Edits sections desired (storeInterfaceSection desired interfaces uiExposure) := by
  refine Edits.trans ?_ (syncLanPrefixFromFirstLan_edits hs)
  exact { (Edits.refl : Edits sections desired desired) with
    interfaces := .inr (.inl hs), uiExposure := .inr hs }

theorem storeQdiscs_edits {updates : List Qdisc} (hs : "qdiscs" ∈ sections)
    (h : storeQdiscs desired updates = .ok desired') : Edits sections desired desired' := by
  simp only [storeQdiscs, bind_eq_ok, pure_eq_ok] at h
  obtain ⟨-, -, rfl⟩ := h
  exact { (Edits.refl : Edits sections desired desired) with qdiscs := .inr hs }

theorem map_withoutAcquisition_modifyFirst {p : Iface → Bool} {wan : WanIpv6}
    {interfaces : List Iface} :
    (modifyFirst p (acquire wan) interfaces).map Iface.withoutAcquisition =
      interfaces.map Iface.withoutAcquisition := by
  induction interfaces with
  | nil => rfl
  | cons iface interfaces ih =>
    unfold modifyFirst
    split
    · rfl
    · simp only [List.map_cons, ih]

theorem storeWan_edits {wan : WanIpv6} (hs : "ipv6" ∈ sections)
    (h : storeWan desired wan = .ok desired') : Edits sections desired desired' := by
  unfold storeWan at h
  dsimp only at h
  split at h
  · obtain rfl := Except.ok.inj h
    exact { (Edits.refl : Edits sections desired desired) with
      interfaces := .inr (.inr ⟨hs, map_withoutAcquisition_modifyFirst⟩) }
  · cases h

theorem storeIpv6_edits {settings : Ipv6Settings} (hs : "ipv6" ∈ sections)
    (h : storeIpv6 desired settings = .ok desired') : Edits sections desired desired' := by
  have fold : ∀ (wans : List WanIpv6) (desired : DesiredState),
      wans.foldlM storeWan desired = .ok desired' → Edits sections desired desired' := by
    intro wans
    induction wans with
    | nil =>
      intro desired h
      obtain rfl := Except.ok.inj h
      exact .refl
    | cons wan wans ih =>
      intro desired h
      rw [List.foldlM_cons, bind_eq_ok] at h
      obtain ⟨next, hw, hr⟩ := h
      exact (storeWan_edits hs hw).trans (ih next hr)
  exact fold settings.wans desired h

/-! ## The routes of the tunnels -/

end CoverageLemmas

/-- The route of a tunnel that `store_wireguard` accepts. -/
def askedRoute (tunnel : WgInput) : Option StaticRoute := (tunnelRoute tunnel).toOption.join

def askedRoutes (tunnels : List WgInput) : List StaticRoute := tunnels.filterMap askedRoute

namespace CoverageLemmas

variable {sections : List String} {desired desired' : DesiredState}

theorem storeTunnels_routes {next next' : List Wg} {tunnels : List WgInput}
    {routes : List StaticRoute} (h : storeTunnels next tunnels = .ok (next', routes)) :
    routes = askedRoutes tunnels := by
  induction tunnels generalizing next next' routes with
  | nil =>
    simp only [storeTunnels, Except.ok.injEq, Prod.mk.injEq] at h
    exact h.2.symm
  | cons tunnel tunnels ih =>
    simp only [storeTunnels, bind_eq_ok, pure_eq_ok, Prod.mk.injEq, Prod.exists] at h
    obtain ⟨route, hr, last, rest, ht, -, rfl⟩ := h
    have ha : askedRoute tunnel = route := by simp [askedRoute, hr, Except.toOption]
    obtain rfl : rest = askedRoutes tunnels := ih ht
    rw [askedRoutes, askedRoutes, List.filterMap_cons, ha]
    cases route <;> rfl

theorem storeWireguard_eq_ok {tunnels : List WgInput} {preserved : List Wg}
    (h : storeWireguard desired tunnels preserved = .ok desired') :
    ∃ next, desired' = { desired with
      wireguard := next, routes := (askedRoutes tunnels).foldl storeRoute desired.routes } := by
  simp only [storeWireguard, bind_eq_ok, pure_eq_ok, Prod.exists] at h
  obtain ⟨next, routes, ht, rfl⟩ := h
  exact ⟨next, by rw [storeTunnels_routes ht]⟩

theorem askedRoute_eq_some {tunnel : WgInput} {route : StaticRoute}
    (h : askedRoute tunnel = some route) :
    (trim tunnel.routeTo).isEmpty = false ∧ (trim tunnel.routeVia).isEmpty = false := by
  unfold askedRoute tunnelRoute at h
  cases hto : (trim tunnel.routeTo).isEmpty <;> cases hvia : (trim tunnel.routeVia).isEmpty <;>
    simp [hto, hvia, Except.toOption] at h ⊢

/-- Tunnels that ask for no route leave the routes. -/
theorem storeWireguard_edits {tunnels : List WgInput} {preserved : List Wg}
    (hs : "wireguard" ∈ sections)
    (hr : "routes" ∈ sections ∨
      (askedRoutes tunnels).foldl storeRoute desired.routes = desired.routes)
    (h : storeWireguard desired tunnels preserved = .ok desired') :
    Edits sections desired desired' := by
  obtain ⟨next, rfl⟩ := storeWireguard_eq_ok h
  exact { (Edits.refl : Edits sections desired desired) with
    routes := hr.symm, wireguard := .inr hs }

/-! ## Saving -/

/-- A step of saving: no section is forgotten, and what it edits is recorded. -/
structure Recorded (before after : DesiredState × List String) : Prop where
  sections : before.2 ⊆ after.2
  edits : Edits after.2 before.1 after.1

theorem Recorded.refl (state : DesiredState × List String) : Recorded state state :=
  ⟨List.Subset.refl _, .refl⟩

theorem Recorded.trans {a b c : DesiredState × List String} (h : Recorded a b)
    (h' : Recorded b c) : Recorded a c :=
  ⟨List.Subset.trans h.sections h'.sections, (h.edits.mono h'.sections).trans h'.edits⟩

theorem mem_rememberSection (sections : List String) (name : String) :
    name ∈ rememberSection sections name := by
  unfold rememberSection
  split
  next h => exact List.contains_iff_mem.mp h
  · simp

theorem subset_rememberSection (sections : List String) (name : String) :
    sections ⊆ rememberSection sections name := by
  unfold rememberSection
  split
  · exact List.Subset.refl _
  · exact List.subset_append_left ..

theorem save_recorded {α : Type} {name : String} {value : Option α}
    {store : DesiredState → α → Except String DesiredState}
    {state after : DesiredState × List String}
    (h : save name value store state = .ok after)
    (hw : ∀ {sections desired' a}, name ∈ sections → store state.1 a = .ok desired' →
      Edits sections state.1 desired') : Recorded state after := by
  cases value with
  | none =>
    obtain rfl := Except.ok.inj h
    exact .refl _
  | some value =>
    simp only [save, bind_eq_ok, pure_eq_ok] at h
    obtain ⟨desired', hs, rfl⟩ := h
    exact ⟨subset_rememberSection .., hw (mem_rememberSection ..) hs⟩

theorem askedRoutes_eq_nil {tunnels : List WgInput} (h : addsRoute tunnels = false) :
    askedRoutes tunnels = [] := by
  rw [askedRoutes, List.filterMap_eq_nil_iff]
  intro tunnel ht
  refine Option.eq_none_iff_forall_ne_some.mpr fun route hr => ?_
  obtain ⟨hto, hvia⟩ := askedRoute_eq_some hr
  refine Bool.eq_false_iff.mp h (List.any_eq_true.mpr ⟨tunnel, ht, ?_⟩)
  simp [hto, hvia]

/-- Both ways of recording the tunnels' routes together: the section of the tunnels, and the one
of the routes if a tunnel asks for one. -/
theorem save_wireguard_recorded {value : Option (List WgInput)}
    {state after : DesiredState × List String}
    (h : save "wireguard" value
      (fun desired wireguard => storeWireguard desired wireguard desired.wireguard) state =
        .ok after) :
    Recorded state (if addsRoute (value.getD []) then (after.1, rememberSection after.2 "routes")
      else after) := by
  cases value with
  | none =>
    obtain rfl := Except.ok.inj h
    exact .refl _
  | some tunnels =>
    simp only [save, bind_eq_ok, pure_eq_ok] at h
    obtain ⟨desired', hs, rfl⟩ := h
    have hw := mem_rememberSection state.2 "wireguard"
    have hsub := subset_rememberSection state.2 "wireguard"
    rw [Option.getD_some]
    split
    · refine ⟨List.Subset.trans hsub (subset_rememberSection ..), ?_⟩
      exact storeWireguard_edits (subset_rememberSection _ _ hw) (.inl (mem_rememberSection ..)) hs
    next hadds =>
      rw [Bool.not_eq_true] at hadds
      exact ⟨hsub, storeWireguard_edits hw (.inr (by rw [askedRoutes_eq_nil hadds]; rfl)) hs⟩

/-- Saving records every section that it edits. -/
theorem applyDraftSections_recorded {values : SectionValues} {after : DesiredState × List String}
    (h : applyDraftSections desired sections values = .ok after) :
    Recorded (desired, sections) after := by
  simp only [applyDraftSections, bind_eq_ok] at h
  obtain ⟨-, -, routes, hr, -, -, interfaces, hi, services, hs, firewall, hf, wireguard, hw,
    qdiscs, hq, h6⟩ := h
  have recorded_routes : Recorded (desired, sections) routes :=
    save_recorded hr (fun hn ho => by cases ho; exact edits_routes hn)
  have recorded_interfaces : Recorded routes interfaces :=
    save_recorded hi (fun hn ho => by cases ho; exact storeInterfaceSection_edits hn)
  have recorded_services : Recorded interfaces services :=
    save_recorded hs (fun hn ho => by cases ho; exact storeLanServices_edits hn)
  have recorded_firewall : Recorded services firewall :=
    save_recorded hf (fun hn ho => by cases ho; exact edits_nftExtra hn)
  exact recorded_routes.trans <| recorded_interfaces.trans <| recorded_services.trans <|
    recorded_firewall.trans <| (save_wireguard_recorded hw).trans <|
    (save_recorded hq storeQdiscs_edits).trans (save_recorded h6 storeIpv6_edits)

/-! ## Reconciling -/

theorem review_edits {α : Type} {S : List String} {name error : String} {value : Option α}
    {store : DesiredState → α → Except String DesiredState}
    (h : review sections name value error store desired = .ok desired')
    (hw : ∀ {a}, name ∈ sections → store desired a = .ok desired' → Edits S desired desired') :
    Edits S desired desired' := by
  unfold review at h
  split at h
  next hn =>
    cases value with
    | some a => exact hw (List.contains_iff_mem.mp hn) h
    | none => cases h
  · obtain rfl := Except.ok.inj h
    exact .refl

def earlySections : List String := ["routes", "interfaces", "services", "firewall"]
def lateSections : List String := ["qdiscs", "ipv6"]

theorem review_wireguard {value : Option (List WgInput)} {error : String}
    (h : review sections "wireguard" value error
      (fun desired wireguard => storeWireguard desired wireguard desired.wireguard) desired =
        .ok desired') :
    ("wireguard" ∉ sections ∧ desired' = desired) ∨
      ("wireguard" ∈ sections ∧ ∃ next, desired' = { desired with
        wireguard := next
        routes := (askedRoutes (value.getD [])).foldl storeRoute desired.routes }) := by
  unfold review at h
  split at h
  next hn =>
    cases value with
    | some tunnels => exact .inr ⟨List.contains_iff_mem.mp hn, storeWireguard_eq_ok h⟩
    | none => cases h
  next hn => exact .inl ⟨fun hm => hn (List.contains_iff_mem.mpr hm), (Except.ok.inj h).symm⟩

/-- The recorded sections, before and after the one of the tunnels. -/
theorem applyReviewedSections_eq_ok {values : SectionValues}
    (h : applyReviewedSections desired sections values = .ok desired') :
    ∃ before after, Edits (sections.filter (earlySections.contains ·)) desired before ∧
      (("wireguard" ∉ sections ∧ after = before) ∨
        ("wireguard" ∈ sections ∧ ∃ next, after = { before with
          wireguard := next
          routes := (askedRoutes (values.wireguard.getD [])).foldl storeRoute before.routes })) ∧
      Edits (sections.filter (lateSections.contains ·)) after desired' := by
  simp only [applyReviewedSections, bind_eq_ok] at h
  obtain ⟨routes, hr, interfaces, hi, services, hs, before, hf, after, hw, qdiscs, hq, h6⟩ := h
  have early {name : String} (hn : name ∈ sections) (he : earlySections.contains name = true) :
      name ∈ sections.filter (earlySections.contains ·) := List.mem_filter.mpr ⟨hn, he⟩
  have late {name : String} (hn : name ∈ sections) (he : lateSections.contains name = true) :
      name ∈ sections.filter (lateSections.contains ·) := List.mem_filter.mpr ⟨hn, he⟩
  refine ⟨before, after, ?_, review_wireguard hw, ?_⟩
  · refine (review_edits hr fun hn ho => ?_).trans <| (review_edits hi fun hn ho => ?_).trans <|
      (review_edits hs fun hn ho => ?_).trans (review_edits hf fun hn ho => ?_)
    · cases ho
      exact edits_routes (early hn rfl)
    · cases ho
      exact storeInterfaceSection_edits (early hn rfl)
    · cases ho
      exact storeLanServices_edits (early hn rfl)
    · cases ho
      exact edits_nftExtra (early hn rfl)
  · exact (review_edits hq fun hn ho => storeQdiscs_edits (late hn rfl) ho).trans
      (review_edits h6 fun hn ho => storeIpv6_edits (late hn rfl) ho)

theorem applyReviewedSections_edits {values : SectionValues}
    (hr : "wireguard" ∈ sections → "routes" ∈ sections ∨
      (askedRoutes (values.wireguard.getD [])).foldl storeRoute desired.routes = desired.routes)
    (h : applyReviewedSections desired sections values = .ok desired') :
    Edits sections desired desired' := by
  obtain ⟨before, after, hb, hw, ha⟩ := applyReviewedSections_eq_ok h
  have hb := hb.mono (List.filter_subset_self _)
  have hw : Edits sections before after := by
    rcases hw with ⟨-, rfl⟩ | ⟨hn, next, rfl⟩
    · exact .refl
    · refine { (Edits.refl : Edits sections before before) with
        routes := ?_, wireguard := .inr hn }
      rcases hr hn with hr | hr
      · exact .inr hr
      · rcases hb.routes with hb | hb
        · exact .inl (by rw [hb]; exact hr)
        · exact .inr hb
  exact hb.trans (hw.trans (ha.mono (List.filter_subset_self _)))

theorem applyReviewedSections_revision {values : SectionValues}
    (h : applyReviewedSections desired sections values = .ok desired') :
    desired'.revision = desired.revision := by
  obtain ⟨before, after, hb, hw, ha⟩ := applyReviewedSections_eq_ok h
  rcases hw with ⟨-, rfl⟩ | ⟨-, next, rfl⟩
  · exact ha.revision.trans hb.revision
  · exact ha.revision.trans hb.revision

/-- Without the section of the routes, only the tunnels change them. -/
theorem applyReviewedSections_routes {values : SectionValues} (hr : "routes" ∉ sections)
    (hw : "wireguard" ∈ sections)
    (h : applyReviewedSections desired sections values = .ok desired') :
    desired'.routes = (askedRoutes (values.wireguard.getD [])).foldl storeRoute desired.routes := by
  obtain ⟨before, after, hb, ht, ha⟩ := applyReviewedSections_eq_ok h
  have before_routes : before.routes = desired.routes :=
    hb.routes.resolve_right fun hm => hr (List.mem_of_mem_filter hm)
  have after_routes : desired'.routes = after.routes :=
    ha.routes.resolve_right fun hm => hr (List.mem_of_mem_filter hm)
  rcases ht with ⟨hn, -⟩ | ⟨-, next, rfl⟩
  · exact absurd hw hn
  · rw [after_routes, ← before_routes]

end CoverageLemmas

open CoverageLemmas

/-- The reviewed tunnels that the draft edited. -/
def reviewedTunnels (previous : Draft) (values : SectionValues) : List WgInput :=
  (values.wireguard.getD []).filter fun tunnel => editedTunnel previous tunnel.name

/-- A draft that records tunnels but no routes is reviewed with tunnels whose routes the new base
has already. -/
def RoutesReviewed (previous : Draft) (base : DesiredState) (values : SectionValues) : Prop :=
  "wireguard" ∈ effectiveSections previous →
    "import" ∈ effectiveSections previous ∨ "routes" ∈ effectiveSections previous ∨
      (askedRoutes (reviewedTunnels previous values)).foldl storeRoute base.routes = base.routes

theorem reconciledDesired_revision {previous : Draft} {base desired : DesiredState}
    {values : SectionValues} (h : reconciledDesired previous base values = .ok desired) :
    desired.revision = base.revision := by
  unfold reconciledDesired at h
  dsimp only at h
  split_ifs at h
  · cases h
    rfl
  · have carried := applyReviewedSections_revision h
    exact carried
  · exact applyReviewedSections_revision h

/-- It is enough that no reviewed tunnel has a route. -/
theorem routesReviewed_of_addsRoute {previous : Draft} {base : DesiredState}
    {values : SectionValues} (h : addsRoute (values.wireguard.getD []) = false) :
    RoutesReviewed previous base values := by
  have hnone : askedRoutes (reviewedTunnels previous values) = [] := by
    refine List.eq_nil_iff_forall_not_mem.mpr fun route hr => ?_
    obtain ⟨tunnel, ht, hroute⟩ := List.mem_filterMap.mp hr
    have hmem : route ∈ askedRoutes (values.wireguard.getD []) :=
      List.mem_filterMap.mpr ⟨tunnel, List.mem_of_mem_filter ht, hroute⟩
    rw [askedRoutes_eq_nil h] at hmem
    exact List.not_mem_nil hmem
  intro _
  rw [hnone]
  exact .inr (.inr rfl)

/-- A reconciled draft records its edits exactly when its tunnels' routes were. -/
theorem reconciledDesired_within_iff {previous : Draft} {base desired : DesiredState}
    {values : SectionValues} (h : reconciledDesired previous base values = .ok desired) :
    ("import" ∈ effectiveSections previous ∨ Within (effectiveSections previous) base desired) ↔
      RoutesReviewed previous base values := by
  unfold reconciledDesired at h
  dsimp only at h
  split at h
  next hi =>
    have hi := List.contains_iff_mem.mp hi
    exact ⟨fun _ _ => .inl hi, fun _ => .inl hi⟩
  next hi =>
    rw [Bool.not_eq_true, ← Bool.not_eq_true, List.contains_iff_mem] at hi
    split at h
    next hw =>
      have hw := List.contains_iff_mem.mp hw
      have hv : ((values.wireguard.map (·.filter fun tunnel =>
          editedTunnel previous tunnel.name)).getD []) = reviewedTunnels previous values := by
        cases hv : values.wireguard <;> simp [reviewedTunnels, hv]
      constructor
      · rintro (hm | hwithin) -
        · exact absurd hm hi
        · rcases hwithin.routes with hr | hr
          · by_cases hm : "routes" ∈ effectiveSections previous
            · exact .inr (.inl hm)
            · rw [applyReviewedSections_routes hm hw h, hv] at hr
              exact .inr (.inr hr)
          · exact .inr (.inl hr)
      · intro hreviewed
        refine .inr (Edits.toWithin ?_)
        refine (edits_wireguard hw).trans (applyReviewedSections_edits (fun _ => ?_) h)
        rw [hv]
        exact (hreviewed hw).resolve_left hi
    next hw =>
      have hw : "wireguard" ∉ effectiveSections previous := fun hm =>
        hw (List.contains_iff_mem.mpr hm)
      exact ⟨fun _ hm => absurd hm hw, fun _ =>
        .inr (applyReviewedSections_edits (fun hm => absurd hm hw) h).toWithin⟩

/-! ## Runs -/

abbrev DraftEvent := DraftEnv × DraftRequest

def stepDraft (accepted : AcceptedNetworks) (file : Option Draft) (event : DraftEvent) :
    Option Draft :=
  (event.2.handle accepted file event.1).2

/-- The draft file after these requests, in this order. -/
def runDrafts (accepted : AcceptedNetworks) (file : Option Draft) (events : List DraftEvent) :
    Option Draft :=
  events.foldl (stepDraft accepted) file

/-- What the request does, if it reconciles, is reviewed with the routes of its tunnels. -/
def StepReviewed (accepted : AcceptedNetworks) (file : Option Draft) (event : DraftEvent) : Prop :=
  match event.2 with
  | .reconcile (some request) =>
      ∀ previous base, file = some previous →
        acceptedSnapshotForDrafting accepted event.1 = .ok base →
        RoutesReviewed previous base request.toSectionValues
  | _ => True

def RunReviewed (accepted : AcceptedNetworks) : Option Draft → List DraftEvent → Prop
  | _, [] => True
  | file, event :: events =>
      StepReviewed accepted file event ∧ RunReviewed accepted (stepDraft accepted file event) events

namespace CoverageLemmas

variable {accepted : AcceptedNetworks} {file : Option Draft}

/-- The draft is read, cannot be read, or was accepted. -/
theorem readDraftReconciled_cases (file : Option Draft) (snapshot : Option DesiredState)
    (env : DraftEnv) :
    readDraftReconciled file snapshot env = (.ok file, file) ∨
      ∃ result after, readDraftReconciled file snapshot env = (result, after) ∧
        (after = file ∨ env.receipt = true ∧ after = none) ∧
        ((∃ error, result = .error error) ∨ env.receipt = true ∧ result = .ok none) := by
  unfold readDraftReconciled
  split
  · exact .inr ⟨_, _, rfl, .inl rfl, .inl ⟨_, rfl⟩⟩
  · exact .inl rfl
  · exact .inl rfl
  · split_ifs with h1 h2 hreceipt
    · exact .inl rfl
    · exact .inl rfl
    · exact .inl rfl
    all_goals
      simp only [Bool.not_eq_true', Bool.not_eq_false] at hreceipt
      cases hr : env.removed.2 with
      | some error =>
        exact .inr ⟨_, _, rfl, by simp [hreceipt], .inl ⟨error, rfl⟩⟩
      | none => exact .inr ⟨_, _, rfl, by simp [hreceipt], .inr ⟨hreceipt, rfl⟩⟩

theorem writeMade_cases {env : DraftEnv} (made : Except Refusal Draft) :
    (writeMade file env made).2 = file ∨
      ∃ draft, made = .ok draft ∧ (writeMade file env made).2 = some draft := by
  cases made with
  | error refusal => exact .inl rfl
  | ok draft =>
    have hw : (writeDraft file draft env).2 = if env.written.1 then some draft else file := by
      unfold writeDraft
      cases env.written.2 <;> rfl
    simp only [writeMade, hw]
    split
    · exact .inr ⟨draft, rfl, rfl⟩
    · exact .inl rfl

/-- The file keeps its draft, loses it when netd has its receipt, or gets a new one. -/
theorem changeDraft_cases (file : Option Draft) (snapshot : Except String DesiredState)
    (env : DraftEnv) (make : Option Draft → Except Refusal Draft) :
    (changeDraft file snapshot env make).2 = file ∨
      env.receipt = true ∧ (changeDraft file snapshot env make).2 = none ∨
      ∃ existing draft, make existing = .ok draft ∧
        (existing = file ∨ env.receipt = true ∧ existing = none) ∧
        (changeDraft file snapshot env make).2 = some draft := by
  rcases readDraftReconciled_cases file snapshot.toOption env with
    hr | ⟨result, after, hr, ha, hresult⟩
  · simp only [changeDraft, hr]
    rcases writeMade_cases (make file) with hw | ⟨draft, hm, hw⟩
    · exact .inl hw
    · exact .inr (.inr ⟨file, draft, hm, .inl rfl, hw⟩)
  · rcases hresult with ⟨error, rfl⟩ | ⟨hreceipt, rfl⟩
    · simp only [changeDraft, hr]
      exact ha.imp_right .inl
    · simp only [changeDraft, hr]
      rcases writeMade_cases (make none) with hw | ⟨draft, hm, hw⟩
      · rw [hw]
        exact ha.imp_right .inl
      · exact .inr (.inr ⟨none, draft, hm, .inr ⟨hreceipt, rfl⟩, hw⟩)

/-- The snapshot is an Accepted network, with its revision. -/
theorem snapshot_within {env : DraftEnv} {base : DesiredState} {sections : List String}
    (h : acceptedSnapshotForDrafting accepted env = .ok base) :
    Within sections (accepted base.revision) base := by
  unfold acceptedSnapshotForDrafting at h
  split at h
  · cases h
  · obtain rfl := Except.ok.inj h
    exact { (Within.refl : Within sections (accepted _) (accepted _)) with }

theorem subset_effectiveSections (draft : Draft) : draft.sections ⊆ effectiveSections draft := by
  unfold effectiveSections
  split
  next h => simp [List.isEmpty_iff.mp h]
  · exact List.Subset.refl _

theorem mapError_eq_ok {α ε ε' : Type} {f : ε → ε'} {x : Except ε α} {a : α} :
    x.mapError f = .ok a ↔ x = .ok a := by
  cases x <;> simp [Except.mapError]

/-! ## The drafts that requests write -/

/-- What a request finds: a covered draft or none, and an Accepted network. -/
structure Found (accepted : AcceptedNetworks) (existing : Option Draft)
    (snapshot : Except String DesiredState) : Prop where
  draft : ∀ draft, existing = some draft → draft.Covered accepted
  snapshot : ∀ base, snapshot = .ok base → Within [] (accepted base.revision) base

theorem Draft.covered_of_within {draft : Draft} {sections : List String}
    (hs : sections ⊆ draft.sections)
    (h : "import" ∈ sections ∨ Within sections (accepted draft.baseRevision) draft.desired) :
    draft.Covered accepted :=
  have hs := List.Subset.trans hs (subset_effectiveSections draft)
  h.imp (hs ·) (·.mono hs)

theorem draftedContent_keeps {change : DraftChange} {existing : Option Draft}
    {snapshot : Except String DesiredState} {revision : Nat} {desired : DesiredState}
    {sections edits : List String}
    (h : draftedContent change existing snapshot = .ok (revision, desired, sections, edits))
    (previous : Draft) (hp : existing = some previous) :
    effectiveSections previous ⊆ sections := by
  subst hp
  unfold draftedContent at h
  dsimp only at h
  split at h
  · simp only [Except.ok.injEq, Prod.mk.injEq] at h
    obtain ⟨rfl, rfl, rfl, rfl⟩ := h
    exact List.Subset.refl _
  · cases h

theorem draftedContent_covered {change : DraftChange} {existing : Option Draft}
    {snapshot : Except String DesiredState} {revision : Nat} {desired : DesiredState}
    {sections edits : List String} (hf : Found accepted existing snapshot)
    (h : draftedContent change existing snapshot = .ok (revision, desired, sections, edits)) :
    "import" ∈ sections ∨ Within sections (accepted revision) desired := by
  unfold draftedContent at h
  cases existing with
  | some previous =>
    dsimp only at h
    split at h
    · simp only [Except.ok.injEq, Prod.mk.injEq] at h
      obtain ⟨rfl, rfl, rfl, rfl⟩ := h
      exact hf.draft previous rfl
    · cases h
  | none =>
    dsimp only at h
    split at h
    · cases h
    · cases snapshot with
      | error error => cases h
      | ok base =>
        simp only [Except.ok.injEq, Prod.mk.injEq] at h
        obtain ⟨rfl, rfl, rfl, rfl⟩ := h
        exact .inr (hf.snapshot base rfl)

theorem savedDraft_keeps {change : DraftChange} {existing : Option Draft}
    {snapshot : Except String DesiredState} {token : Except String String} {draft : Draft}
    (h : savedDraft change existing snapshot token = .ok draft) (previous : Draft)
    (hp : existing = some previous) : effectiveSections previous ⊆ effectiveSections draft := by
  simp only [savedDraft, bind_eq_ok, pure_eq_ok, mapError_eq_ok, Prod.exists] at h
  obtain ⟨revision, desired, sections, edits, hc, -, -, desired', sections', hs, version, -, hd⟩ :=
    h
  have hsub : sections' ⊆ effectiveSections draft := by
    have := subset_effectiveSections draft
    rwa [← hd] at this ⊢
  exact List.Subset.trans (List.Subset.trans (draftedContent_keeps hc previous hp)
    (applyDraftSections_recorded hs).sections) hsub

theorem savedDraft_covered {change : DraftChange} {existing : Option Draft}
    {snapshot : Except String DesiredState} {token : Except String String} {draft : Draft}
    (hf : Found accepted existing snapshot)
    (h : savedDraft change existing snapshot token = .ok draft) :
    draft.Covered accepted := by
  simp only [savedDraft, bind_eq_ok, pure_eq_ok, mapError_eq_ok, Prod.exists] at h
  obtain ⟨revision, desired, sections, edits, hc, -, -, desired', sections', hs, version, -, rfl⟩ :=
    h
  have recorded := applyDraftSections_recorded hs
  refine Draft.covered_of_within (List.Subset.refl _) ?_
  exact (draftedContent_covered hf hc).imp (recorded.sections ·) fun hw =>
    (hw.mono recorded.sections).trans recorded.edits.toWithin

theorem reconciledDraft_covered {request : DraftReconciliation} {existing : Option Draft}
    {snapshot : Except String DesiredState} {token : Except String String} {draft : Draft}
    (hf : Found accepted existing snapshot)
    (hr : ∀ previous base, existing = some previous → snapshot = .ok base →
      RoutesReviewed previous base request.toSectionValues)
    (h : reconciledDraft request existing snapshot token = .ok draft) :
    draft.Covered accepted := by
  simp only [reconciledDraft, bind_eq_ok, pure_eq_ok, mapError_eq_ok, okOr_eq_ok] at h
  obtain ⟨previous, hp, -, -, base, hb, -, -, desired, hd, version, -, rfl⟩ := h
  have hrevision := reconciledDesired_revision hd
  refine Draft.covered_of_within (List.Subset.refl _) ?_
  dsimp only
  rw [hrevision]
  refine ((reconciledDesired_within_iff hd).mpr (hr previous base hp hb)).imp_right fun hw => ?_
  exact ((hf.snapshot base hb).mono (List.nil_subset _)).trans hw

theorem reconciledDraft_keeps {request : DraftReconciliation} {existing : Option Draft}
    {snapshot : Except String DesiredState} {token : Except String String} {draft : Draft}
    (h : reconciledDraft request existing snapshot token = .ok draft) :
    ∃ previous, existing = some previous ∧
      effectiveSections previous ⊆ effectiveSections draft := by
  simp only [reconciledDraft, bind_eq_ok, pure_eq_ok, mapError_eq_ok, okOr_eq_ok] at h
  obtain ⟨previous, hp, -, -, base, hb, -, -, desired, hd, version, -, rfl⟩ := h
  refine ⟨previous, hp, fun name hn => subset_effectiveSections _ hn⟩

theorem importDraft_covered {imported base : DesiredState} {revision : Nat}
    {existing : Option Draft} {token : Except String String} {draft : Draft}
    (h : importDraft imported revision existing base token = .ok draft) :
    existing = none ∧ draft.Covered accepted := by
  simp only [importDraft, bind_eq_ok, pure_eq_ok, mapError_eq_ok, ensure_eq_ok,
    Option.isNone_iff_eq_none] at h
  obtain ⟨-, he, -, -, version, -, rfl⟩ := h
  exact ⟨he, .inl (by simp [importedDraft, effectiveSections])⟩

theorem Found.of_handle {env : DraftEnv} {existing : Option Draft}
    (hc : ∀ draft, file = some draft → draft.Covered accepted)
    (he : existing = file ∨ env.receipt = true ∧ existing = none) :
    Found accepted existing (acceptedSnapshotForDrafting accepted env) where
  draft draft hd := by
    rcases he with rfl | ⟨-, rfl⟩
    · exact hc draft hd
    · cases hd
  snapshot _ hb := snapshot_within hb

/-- One reviewed request keeps every edit recorded. -/
theorem stepDraft_covered {event : DraftEvent}
    (hc : ∀ draft, file = some draft → draft.Covered accepted)
    (hr : StepReviewed accepted file event) :
    ∀ draft, stepDraft accepted file event = some draft → draft.Covered accepted := by
  obtain ⟨env, request⟩ := event
  have change (snapshot : Except String DesiredState) (make : Option Draft → Except Refusal Draft)
      (hm : ∀ existing draft, (existing = file ∨ env.receipt = true ∧ existing = none) →
        make existing = .ok draft → draft.Covered accepted) :
      ∀ draft, (changeDraft file snapshot env make).2 = some draft → draft.Covered accepted := by
    intro draft hd
    rcases changeDraft_cases file snapshot env make with
      hf | ⟨-, hf⟩ | ⟨existing, made, hmade, he, hf⟩
    · exact hc draft (hf.symm.trans hd)
    · cases hf.symm.trans hd
    · obtain rfl := Option.some.inj (hf.symm.trans hd)
      exact hm existing made he hmade
  unfold stepDraft DraftRequest.handle
  dsimp only
  split_ifs
  · exact hc
  · exact hc
  · cases request with
    | save body =>
      cases body with
      | none => exact hc
      | some body =>
        exact change _ _ fun existing draft he hmade =>
          savedDraft_covered (Found.of_handle hc he) hmade
    | reconcile body =>
      cases body with
      | none => exact hc
      | some body =>
        refine change _ _ fun existing draft he hmade =>
          reconciledDraft_covered (Found.of_handle hc he) (fun previous base hp hb => ?_) hmade
        rcases he with rfl | ⟨-, rfl⟩
        · exact hr previous base hp hb
        · cases hp
    | importDesired imported revision =>
      cases hsnapshot : acceptedSnapshotForDrafting accepted env with
      | error error => exact hc
      | ok base => exact change _ _ fun existing draft he hmade => (importDraft_covered hmade).2

/-- A draft that netd has not accepted stays, with every section it records. -/
theorem stepDraft_keeps {event : DraftEvent} (hreceipt : event.1.receipt = false) {previous : Draft}
    (hp : file = some previous) :
    ∃ draft, stepDraft accepted file event = some draft ∧
      effectiveSections previous ⊆ effectiveSections draft := by
  obtain ⟨env, request⟩ := event
  have kept : ∃ draft, file = some draft ∧ effectiveSections previous ⊆ effectiveSections draft :=
    ⟨previous, hp, List.Subset.refl _⟩
  have change (snapshot : Except String DesiredState) (make : Option Draft → Except Refusal Draft)
      (hm : ∀ draft, make file = .ok draft →
        effectiveSections previous ⊆ effectiveSections draft) :
      ∃ draft, (changeDraft file snapshot env make).2 = some draft ∧
        effectiveSections previous ⊆ effectiveSections draft := by
    rcases changeDraft_cases file snapshot env make with
      hf | ⟨hr, -⟩ | ⟨existing, made, hmade, rfl | ⟨hr, -⟩, hf⟩
    · rwa [hf]
    · cases hreceipt.symm.trans hr
    · exact ⟨made, hf, hm made hmade⟩
    · cases hreceipt.symm.trans hr
  unfold stepDraft DraftRequest.handle
  dsimp only
  split_ifs
  · exact kept
  · exact kept
  · cases request with
    | save body =>
      cases body with
      | none => exact kept
      | some body => exact change _ _ fun draft hmade => savedDraft_keeps hmade previous hp
    | reconcile body =>
      cases body with
      | none => exact kept
      | some body =>
        refine change _ _ fun draft hmade => ?_
        obtain ⟨found, hfound, hkeeps⟩ := reconciledDraft_keeps hmade
        obtain rfl := Option.some.inj (hp.symm.trans hfound)
        exact hkeeps
    | importDesired imported revision =>
      cases hsnapshot : acceptedSnapshotForDrafting accepted env with
      | error error => exact kept
      | ok base =>
        refine change _ _ fun draft hmade => ?_
        have fresh := (@importDraft_covered accepted _ _ _ _ _ _ hmade).1
        cases hp.symm.trans fresh

theorem runDrafts_covered (events : List DraftEvent) :
    ∀ {start : Option Draft}, (∀ draft, start = some draft → draft.Covered accepted) →
      RunReviewed accepted start events →
      ∀ draft, runDrafts accepted start events = some draft → draft.Covered accepted := by
  induction events with
  | nil => exact fun hc _ => hc
  | cons event events ih => exact fun hc hr => ih (stepDraft_covered hc hr.1) hr.2

end CoverageLemmas

/-- In every run whose reconciliations are all reviewed with the routes of their tunnels, the draft
differs from the Accepted network of its base revision only in sections that it records, from a
draft of which that is true, or none. No request forgets a recorded section. A reconciliation that
is not so reviewed makes a draft with an edit that it does not record. -/
theorem drafts_covered (accepted : AcceptedNetworks) {start : Option Draft}
    (hs : ∀ draft, start = some draft → draft.Covered accepted) :
    (∀ events, RunReviewed accepted start events →
      ∀ draft, runDrafts accepted start events = some draft → draft.Covered accepted) ∧
    (∀ events event previous, event.1.receipt = false →
      runDrafts accepted start events = some previous →
      ∃ draft, stepDraft accepted (runDrafts accepted start events) event = some draft ∧
        effectiveSections previous ⊆ effectiveSections draft) ∧
    (∀ previous base values desired, reconciledDesired previous base values = .ok desired →
      ¬RoutesReviewed previous base values →
      ¬("import" ∈ effectiveSections previous ∨
        Within (effectiveSections previous) base desired)) :=
  ⟨fun events => runDrafts_covered events hs,
    fun _ _ _ hreceipt hp => stepDraft_keeps hreceipt hp,
    fun _ _ _ _ h hr hw => hr ((reconciledDesired_within_iff h).mp hw)⟩

namespace CoverageExample

/-- The network, and the next one with another host name. -/
def networks : AcceptedNetworks := fun revision =>
  { revision, hostname := some (if revision = 1 then "gate" else "door")
    interfaces := [{ name := "enp1s0", role := some "wan", addresses := ["203.0.113.2/24"] }] }

def tunnel : WgInput := { name := "wg0", privateKey := "key", addresses := ["10.9.0.1/24"] }

def routed : WgInput := { tunnel with routeTo := "10.20.0.0/16", routeVia := "10.9.0.2" }

def env (revision : Nat) (token : String) : DraftEnv :=
  { stored := some revision, stable := some revision, token := .ok token }

/-- A draft with a tunnel, reconciled with this tunnel after the next network was accepted. -/
def events (reviewed : WgInput) : List DraftEvent := [
  (env 1 "v1", .save (some { baseRevision := 1, wireguard := some [tunnel] })),
  (env 2 "v2", .reconcile (some {
    baseRevision := 1, version := "v1", acceptedRevision := 2, wireguard := some [reviewed] }))]

def reconciled (routes : List StaticRoute) : Draft := {
  baseRevision := 2, version := "v2", sections := ["wireguard"], wireguardEdits := ["wg0"]
  desired := { networks 2 with
    wireguard := [{ name := "wg0", privateKey := "key", addresses := ["10.9.0.1/24"] }]
    routes := routes } }

end CoverageExample

open CoverageExample in
theorem reconciled_tunnel_covered : (reconciled []).Covered networks := by
  have run : runDrafts networks none (events tunnel) = some (reconciled []) := by decide +kernel
  refine (@drafts_covered networks none nofun).1 (events tunnel) ⟨trivial, ?_, trivial⟩ _ run
  exact fun previous base _ _ => routesReviewed_of_addsRoute (by decide +kernel)

open CoverageExample in
/-- A reconciliation that reviews a tunnel with a route leaves a route that the draft does not
record. -/
theorem reconciled_route_unrecorded :
    ¬∀ (accepted : AcceptedNetworks) (events : List DraftEvent) (draft : Draft),
      runDrafts accepted none events = some draft → draft.Covered accepted := by
  intro h
  have run : runDrafts networks none (events routed) =
      some (reconciled [{ dest := "10.20.0.0/16", via := "10.9.0.2", dev := some "wg0" }]) := by
    decide +kernel
  rcases h networks (events routed) _ run with himport | hwithin
  · simp [reconciled, effectiveSections] at himport
  · rcases hwithin.routes with hroutes | hroutes
    · simp [reconciled, networks] at hroutes
    · simp [reconciled, effectiveSections] at hroutes

end Fwos
