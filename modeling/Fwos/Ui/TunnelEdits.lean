import Fwos.Ui.SavedDraft

/-!
# The tunnels of a reconciled draft

A draft remembers which tunnels its saves have named. Reconciling carries only these
onto a newer Accepted network. An empty list of them is that of a draft written before
they were remembered, which carries every tunnel; but a save with an empty list of
tunnels leaves the same.

* `Untouched`: the other tunnels are the Accepted ones, and the edited ones keep the
  key that the draft has stored.
* `reconcile_untouched_iff`: the sequences of saves after which every reconciliation
  is so.
-/

namespace Fwos

open Rust CoverageLemmas SavedLemmas Lists

/-- The tunnels that the saves name. -/
def namedTunnels (changes : List DraftChange) : List String :=
  changes.flatMap fun change => (change.wireguard.getD []).map (·.name)

/-- What a reconciliation leaves of the tunnels of the Accepted network. -/
structure Untouched (changes : List DraftChange) (draft : Draft) (accepted : DesiredState)
    (request : DraftReconciliation) (reconciled : DesiredState) : Prop where
  others : reconciled.wireguard.filter (fun tunnel => !(namedTunnels changes).contains tunnel.name) =
    accepted.wireguard.filter fun tunnel => !(namedTunnels changes).contains tunnel.name
  present : ∀ tunnel ∈ accepted.wireguard, ∃ kept ∈ reconciled.wireguard, kept.name = tunnel.name
  named : ∀ name ∈ namedTunnels changes, ∃ tunnel ∈ reconciled.wireguard, tunnel.name = name
  distinct : (accepted.wireguard.map (·.name)).Nodup → (reconciled.wireguard.map (·.name)).Nodup
  keys : (accepted.wireguard.map (·.name)).Nodup → ∀ tunnel ∈ reconciled.wireguard,
    tunnel.name ∈ namedTunnels changes →
    (∀ input ∈ request.wireguard.getD [], input.name = tunnel.name →
      (trim input.privateKey).isEmpty = true) →
    ∃ stored ∈ draft.desired.wireguard, stored.name = tunnel.name ∧
      tunnel.privateKey = stored.privateKey

/-- No save has a list of tunnels, or some save names a tunnel. -/
def TunnelsTold (changes : List DraftChange) : Prop :=
  (∀ change ∈ changes, change.wireguard = none) ∨ namedTunnels changes ≠ []

namespace TunnelEdits

/-! ## Storing tunnels -/

theorem upsert_eq {α : Type} {hit : α → Bool} {merge : α → α} {fresh : α} {list : List α} :
    (if list.any hit then modifyFirst hit merge list else list ++ [fresh]) =
      upsert hit merge fresh list := by
  induction list with
  | nil => rfl
  | cons a list ih =>
      rw [upsert, List.any_cons, modifyFirst]
      cases hits : hit a with
      | true => rfl
      | false =>
          rw [Bool.false_or, if_neg Bool.false_ne_true, if_neg Bool.false_ne_true, ← ih]
          cases list.any hit <;> rfl

theorem storeTunnel_eq (next : List Wg) (tunnel : WgInput) :
    storeTunnel next tunnel = upsert (fun existing => existing.name == tunnel.name)
      (mergeTunnel tunnel)
      { name := tunnel.name, privateKey := tunnel.privateKey, listenPort := tunnel.listenPort,
        addresses := tunnel.addresses } next := upsert_eq

theorem carryTunnel_eq (accepted : List Wg) (tunnel : Wg) :
    carryTunnel accepted tunnel = upsert (fun existing => existing.name == tunnel.name)
      (fun _ => tunnel) tunnel accepted := upsert_eq

theorem mergeTunnel_name (tunnel : WgInput) (existing : Wg) :
    (mergeTunnel tunnel existing).name = existing.name := by
  simp only [mergeTunnel]

theorem overlay_storeTunnel {names : List String} {next : List Wg} {tunnel : WgInput}
    (mem : tunnel.name ∈ names) : Overlay (·.name) names next (storeTunnel next tunnel) := by
  rw [storeTunnel_eq]
  exact .upsert mem (fun existing same => (mergeTunnel_name tunnel existing).trans same) rfl

theorem overlay_carryTunnel {names : List String} {accepted : List Wg} {tunnel : Wg}
    (mem : tunnel.name ∈ names) : Overlay (·.name) names accepted (carryTunnel accepted tunnel) := by
  rw [carryTunnel_eq]
  exact .upsert mem (fun _ _ => rfl) rfl

theorem mem_foldl_storeTunnel {tunnels : List WgInput} {next : List Wg} {tunnel : WgInput}
    (mem : tunnel ∈ tunnels) :
    ∃ stored ∈ tunnels.foldl storeTunnel next, stored.name = tunnel.name := by
  refine Overlay.exists_foldl (fun _ input hi => overlay_storeTunnel (List.mem_map_of_mem hi))
    (fun list input => ?_) mem
  rw [storeTunnel_eq]
  exact Overlay.exists_upsert (fun existing same => (mergeTunnel_name input existing).trans same) rfl

theorem mem_foldl_carryTunnel_self {tunnels accepted : List Wg} {tunnel : Wg}
    (mem : tunnel ∈ tunnels) :
    ∃ carried ∈ tunnels.foldl carryTunnel accepted, carried.name = tunnel.name := by
  refine Overlay.exists_foldl (fun _ edited he => overlay_carryTunnel (List.mem_map_of_mem he))
    (fun list edited => ?_) mem
  rw [carryTunnel_eq]
  exact Overlay.exists_upsert (fun _ _ => rfl) rfl

/-- Blank keys of known tunnels keep the keys. -/
theorem key_of_mem_foldl_storeTunnel {tunnels : List WgInput} {next : List Wg} {tunnel : Wg}
    (known : ∀ input ∈ tunnels, ∃ existing ∈ next, existing.name = input.name)
    (mem : tunnel ∈ tunnels.foldl storeTunnel next)
    (blank : ∀ input ∈ tunnels, input.name = tunnel.name →
      (trim input.privateKey).isEmpty = true) :
    ∃ existing ∈ next, existing.name = tunnel.name ∧ existing.privateKey = tunnel.privateKey := by
  induction tunnels generalizing next with
  | nil => exact ⟨tunnel, mem, rfl, rfl⟩
  | cons input tunnels ih =>
      have overlay : Overlay (·.name) [input.name] next (storeTunnel next input) :=
        overlay_storeTunnel (List.mem_singleton_self _)
      have known' : ∀ other ∈ tunnels,
          ∃ existing ∈ storeTunnel next input, existing.name = other.name := by
        intro other hother
        obtain ⟨existing, found, named⟩ := known other (List.mem_cons_of_mem _ hother)
        obtain ⟨kept, hkept, same⟩ :=
          List.mem_map.mp (overlay.present (List.mem_map_of_mem found))
        exact ⟨kept, hkept, same.trans named⟩
      obtain ⟨stored, found, named, key⟩ :=
        ih known' mem fun other hother => blank other (List.mem_cons_of_mem _ hother)
      rw [storeTunnel_eq] at found
      rcases @upsert_cases _ (fun existing : Wg => existing.name == input.name) (mergeTunnel input)
        { name := input.name, privateKey := input.privateKey, listenPort := input.listenPort,
          addresses := input.addresses } next with
        ⟨front, existing, back, rfl, hits, same⟩ | ⟨misses, -⟩
      · rw [same, List.mem_append, List.mem_cons] at found
        rcases found with found | rfl | found
        · exact ⟨stored, List.mem_append_left _ found, named, key⟩
        · have hname : existing.name = input.name := by simpa using hits
          rw [mergeTunnel_name] at named
          have hblank := blank input List.mem_cons_self (hname.symm.trans named)
          refine ⟨existing, by simp, named, ?_⟩
          rw [← key, mergeTunnel, if_pos hblank]
        · exact ⟨stored, by simp [found], named, key⟩
      · obtain ⟨existing, found', named'⟩ := known input List.mem_cons_self
        have hmiss := misses existing found'
        simp [named'] at hmiss

/-- Where the names are distinct, a carried tunnel takes the place of the one it names. -/
theorem mem_foldl_carryTunnel {tunnels accepted : List Wg} {tunnel : Wg}
    (distinct : (accepted.map (·.name)).Nodup) (mem : tunnel ∈ tunnels.foldl carryTunnel accepted) :
    tunnel ∈ tunnels ∨ (tunnel ∈ accepted ∧ tunnel.name ∉ tunnels.map (·.name)) := by
  induction tunnels generalizing accepted with
  | nil => exact .inr ⟨mem, List.not_mem_nil⟩
  | cons carried tunnels ih =>
      have overlay : Overlay (·.name) [carried.name] accepted (carryTunnel accepted carried) :=
        overlay_carryTunnel (List.mem_singleton_self _)
      rcases ih (overlay.distinct distinct) mem with mem | ⟨mem, other⟩
      · exact .inl (List.mem_cons_of_mem _ mem)
      · rw [carryTunnel_eq] at mem
        rcases Overlay.mem_upsert distinct mem with ⟨-, -, -, rfl⟩ | ⟨-, rfl⟩ | ⟨mem, apart⟩
        · exact .inl List.mem_cons_self
        · exact .inl List.mem_cons_self
        · refine .inr ⟨mem, fun named => ?_⟩
          rw [List.map_cons, List.mem_cons] at named
          exact named.elim apart other

/-! ## What a saved draft remembers -/

section

variable {base : DesiredState} {changes : List DraftChange} {draft : Draft}

theorem namedTunnels_append (change : DraftChange) :
    namedTunnels (changes ++ [change]) =
      namedTunnels changes ++ (change.wireguard.getD []).map (·.name) := by
  simp [namedTunnels]

theorem mem_rememberTunnels {edits : List String} {change : DraftChange} {name : String} :
    name ∈ rememberTunnels edits change ↔
      name ∈ edits ∨ name ∈ (change.wireguard.getD []).map (·.name) :=
  mem_foldl_rememberSection

theorem mem_wireguardEdits (saved : Saved base changes draft) {name : String} :
    name ∈ draft.wireguardEdits ↔ name ∈ namedTunnels changes := by
  refine saved.rule (P := fun changes _ _ edits => name ∈ edits ↔ name ∈ namedTunnels changes)
    Iff.rfl fun changes desired sections edits change after known _ => ?_
  rw [mem_rememberTunnels, known, namedTunnels_append, List.mem_append]

theorem import_not_mem (saved : Saved base changes draft) : "import" ∉ draft.sections := by
  refine saved.rule (P := fun _ _ sections _ => "import" ∉ sections) List.not_mem_nil
    fun changes desired sections edits change after other stored => ?_
  rw [mem_applyDraftSections stored]
  exact fun mem => mem.elim other (not_stores_import _)

theorem wireguard_mem_iff (saved : Saved base changes draft) :
    "wireguard" ∈ draft.sections ↔ ∃ change ∈ changes, change.wireguard.isSome = true := by
  refine saved.rule (P := fun changes _ sections _ => "wireguard" ∈ sections ↔
      ∃ change ∈ changes, change.wireguard.isSome = true) (by simp)
    fun changes desired sections edits change after known stored => ?_
  rw [mem_applyDraftSections stored, stores_wireguard, known]
  constructor
  · rintro (⟨other, mem, told⟩ | told)
    · exact ⟨other, List.mem_append_left _ mem, told⟩
    · exact ⟨change, List.mem_append_right _ (List.mem_singleton_self _), told⟩
  · rintro ⟨other, mem, told⟩
    rcases List.mem_append.mp mem with mem | mem
    · exact .inl ⟨other, mem, told⟩
    · rw [List.mem_singleton.mp mem] at told
      exact .inr told

/-- Every edited tunnel is in the draft. -/
theorem exists_edited (saved : Saved base changes draft) :
    ∀ name ∈ draft.wireguardEdits, ∃ tunnel ∈ draft.desired.wireguard, tunnel.name = name := by
  refine saved.rule (P := fun _ desired _ edits => ∀ name ∈ edits,
      ∃ tunnel ∈ desired.wireguard, tunnel.name = name) nofun
    fun changes desired sections edits change after known stored name mem => ?_
  rw [applyDraftSections_tunnels stored]
  rcases mem_rememberTunnels.mp mem with mem | mem
  · obtain ⟨tunnel, found, rfl⟩ := known name mem
    have kept : Overlay (·.name) ((change.wireguard.getD []).map (·.name)) desired.wireguard
        ((change.wireguard.getD []).foldl storeTunnel desired.wireguard) :=
      .foldl fun _ u hu => overlay_storeTunnel (List.mem_map_of_mem hu)
    exact List.mem_map.mp (kept.present (List.mem_map_of_mem found))
  · obtain ⟨input, told, rfl⟩ := List.mem_map.mp mem
    exact mem_foldl_storeTunnel told

end

/-! ## Reconciling -/

section

variable {desired desired' : DesiredState} {sections : List String} {values : SectionValues}

theorem review_tunnels {α : Type} {name error : String} {value : Option α} {S : List String}
    {store : DesiredState → α → Except String DesiredState}
    (h : review sections name value error store desired = .ok desired')
    (edits : ∀ a, store desired a = .ok desired' → Edits S desired desired')
    (other : "wireguard" ∉ S) : desired'.wireguard = desired.wireguard :=
  (review_edits h fun _ => edits _).wireguard.resolve_right other

theorem applyReviewedSections_tunnels
    (h : applyReviewedSections desired sections values = .ok desired') :
    desired'.wireguard =
      if "wireguard" ∈ sections then (values.wireguard.getD []).foldl storeTunnel desired.wireguard
      else desired.wireguard := by
  simp only [applyReviewedSections, bind_eq_ok] at h
  obtain ⟨routes, hr, interfaces, hi, services, hs, firewall, hf, wireguard, hw, qdiscs, hq, h6⟩ := h
  have early : firewall.wireguard = desired.wireguard := by
    have afterFirewall := review_tunnels (S := ["firewall"]) hf
      (fun _ stored => by cases stored; exact edits_nftExtra (by simp)) (by simp)
    have afterServices := review_tunnels (S := ["services"]) hs
      (fun _ stored => by cases stored; exact storeLanServices_edits (by simp)) (by simp)
    have afterInterfaces := review_tunnels (S := ["interfaces"]) hi
      (fun _ stored => by cases stored; exact storeInterfaceSection_edits (by simp)) (by simp)
    have afterRoutes := review_tunnels (S := ["routes"]) hr
      (fun _ stored => by cases stored; exact edits_routes (by simp)) (by simp)
    rw [afterFirewall, afterServices, afterInterfaces, afterRoutes]
  have afterIpv6 := review_tunnels (S := ["ipv6"]) h6
    (fun _ stored => storeIpv6_edits (by simp) stored) (by simp)
  have afterQdiscs := review_tunnels (S := ["qdiscs"]) hq
    (fun _ stored => storeQdiscs_edits (by simp) stored) (by simp)
  rw [afterIpv6, afterQdiscs, ← early]
  unfold review at hw
  split at hw
  next recorded =>
    rw [if_pos (List.contains_iff_mem.mp recorded)]
    cases value : values.wireguard with
    | none =>
        rw [value] at hw
        cases hw
    | some tunnels =>
        rw [value] at hw
        exact storeWireguard_tunnels hw
  next recorded =>
    cases hw
    rw [if_neg fun mem => recorded (List.contains_iff_mem.mpr mem)]

theorem reconciledDesired_tunnels {draft : Draft} {accepted reconciled : DesiredState}
    (imports : "import" ∉ effectiveSections draft)
    (h : reconciledDesired draft accepted values = .ok reconciled) :
    reconciled.wireguard =
      if "wireguard" ∈ effectiveSections draft then
        (reviewedTunnels draft values).foldl storeTunnel
          (carryWireguardEdits accepted draft).wireguard
      else accepted.wireguard := by
  unfold reconciledDesired at h
  dsimp only at h
  rw [if_neg fun found => imports (List.contains_iff_mem.mp found)] at h
  split at h
  next recorded =>
    have mem := List.contains_iff_mem.mp recorded
    have reviewed : ((values.wireguard.map (·.filter fun tunnel =>
        editedTunnel draft tunnel.name)).getD []) = reviewedTunnels draft values := by
      cases value : values.wireguard <;> simp [reviewedTunnels, value]
    rw [applyReviewedSections_tunnels h, if_pos mem, if_pos mem, reviewed]
  next recorded =>
    have other : "wireguard" ∉ effectiveSections draft := fun mem =>
      recorded (List.contains_iff_mem.mpr mem)
    rw [applyReviewedSections_tunnels h, if_neg other, if_neg other]

end

end TunnelEdits

open TunnelEdits

variable {base : DesiredState} {changes : List DraftChange} {draft : Draft}

theorem editedTunnel_iff (saved : Saved base changes draft) (told : namedTunnels changes ≠ [])
    {name : String} : editedTunnel draft name = true ↔ name ∈ namedTunnels changes := by
  have some : draft.wireguardEdits ≠ [] := fun none => by
    obtain ⟨name, mem⟩ := List.exists_mem_of_ne_nil _ told
    have := (mem_wireguardEdits saved).mpr mem
    rw [none] at this
    cases this
  rw [editedTunnel, Bool.or_eq_true, List.contains_iff_mem, mem_wireguardEdits saved]
  exact or_iff_right fun empty => some (List.isEmpty_iff.mp empty)

/-- Where a save has named a tunnel, the reconciled tunnels come from the Accepted ones by
stores under the names that saves have told. -/
theorem untouched_of_named (saved : Saved base changes draft) (told : namedTunnels changes ≠ [])
    {accepted reconciled : DesiredState} {request : DraftReconciliation}
    (same : reconciled.wireguard = (reviewedTunnels draft request.toSectionValues).foldl storeTunnel
      (carryWireguardEdits accepted draft).wireguard) :
    Untouched changes draft accepted request reconciled := by
  have reviewed {input : WgInput} (mem : input ∈ reviewedTunnels draft request.toSectionValues) :
      input ∈ request.wireguard.getD [] ∧ input.name ∈ namedTunnels changes := by
    obtain ⟨mem, edited⟩ := List.mem_filter.mp mem
    exact ⟨mem, (editedTunnel_iff saved told).mp edited⟩
  have carried : Overlay (·.name) (namedTunnels changes) accepted.wireguard
      (carryWireguardEdits accepted draft).wireguard :=
    .foldl fun _ tunnel mem =>
      overlay_carryTunnel ((editedTunnel_iff saved told).mp (List.mem_filter.mp mem).2)
  have stored : Overlay (·.name) (namedTunnels changes)
      (carryWireguardEdits accepted draft).wireguard reconciled.wireguard := by
    rw [same]
    exact .foldl fun _ input mem => overlay_storeTunnel (reviewed mem).2
  have overlay := carried.trans stored
  -- The edited tunnels of the draft have been carried.
  have inDraft {name : String} (named : name ∈ namedTunnels changes) :
      ∃ edited ∈ draft.desired.wireguard.filter (fun tunnel => editedTunnel draft tunnel.name),
        edited.name = name := by
    obtain ⟨edited, found, rfl⟩ := exists_edited saved name ((mem_wireguardEdits saved).mpr named)
    exact ⟨edited, List.mem_filter.mpr ⟨found, (editedTunnel_iff saved told).mpr named⟩, rfl⟩
  have known : ∀ input ∈ reviewedTunnels draft request.toSectionValues,
      ∃ existing ∈ (carryWireguardEdits accepted draft).wireguard, existing.name = input.name := by
    intro input told'
    obtain ⟨edited, mem, same⟩ := inDraft (reviewed told').2
    obtain ⟨carried, found, name⟩ := mem_foldl_carryTunnel_self mem
    exact ⟨carried, found, name.trans same⟩
  refine ⟨overlay.others (fun name => !(namedTunnels changes).contains name) (by simp),
    fun tunnel mem => List.mem_map.mp (overlay.present (List.mem_map_of_mem mem)),
    fun name named => ?_, overlay.distinct, fun distinct tunnel mem named blank => ?_⟩
  · obtain ⟨edited, mem, rfl⟩ := inDraft named
    obtain ⟨carried, found, name⟩ := mem_foldl_carryTunnel_self mem
    exact List.mem_map.mp (stored.present (name ▸ List.mem_map_of_mem found))
  rw [same] at mem
  obtain ⟨existing, found, name, key⟩ := key_of_mem_foldl_storeTunnel known mem
    fun input told' => blank input (reviewed told').1
  rcases mem_foldl_carryTunnel distinct found with found | ⟨-, other⟩
  · exact ⟨existing, List.mem_of_mem_filter found, name, key.symm⟩
  · obtain ⟨edited, mem, same⟩ := inDraft (name ▸ named)
    exact absurd (List.mem_map.mpr ⟨edited, mem, same⟩) other

theorem reconciledDraft_eq_ok {request : DraftReconciliation} {accepted : DesiredState}
    {token : Except String String} {reconciled : Draft}
    (h : reconciledDraft request (some draft) (.ok accepted) token = .ok reconciled) :
    reconciledDesired draft accepted request.toSectionValues = .ok reconciled.desired := by
  simp only [reconciledDraft, bind_eq_ok, pure_eq_ok, mapError_eq_ok, okOr_eq_ok,
    Option.some.injEq] at h
  obtain ⟨previous, rfl, -, -, base, hb, -, -, desired, hd, version, -, rfl⟩ := h
  cases hb
  exact hd

theorem untouched_of_told (saved : Saved base changes draft) (told : TunnelsTold changes)
    {accepted : DesiredState} {request : DraftReconciliation} {reconciled : DesiredState}
    (h : reconciledDesired draft accepted request.toSectionValues = .ok reconciled) :
    Untouched changes draft accepted request reconciled := by
  have tunnels := reconciledDesired_tunnels
    (by rw [saved.effectiveSections]; exact import_not_mem saved) h
  rw [saved.effectiveSections] at tunnels
  by_cases recorded : "wireguard" ∈ draft.sections
  · rw [if_pos recorded] at tunnels
    refine untouched_of_named saved (told.resolve_left fun none => ?_) tunnels
    obtain ⟨change, mem, some⟩ := (wireguard_mem_iff saved).mp recorded
    rw [none change mem] at some
    cases some
  · rw [if_neg recorded] at tunnels
    -- A save that names a tunnel records the section.
    have unnamed {name : String} : name ∉ namedTunnels changes := by
      intro named
      obtain ⟨change, mem, input⟩ := List.mem_flatMap.mp named
      refine recorded ((wireguard_mem_iff saved).mpr ⟨change, mem, ?_⟩)
      cases value : change.wireguard with
      | none =>
          rw [value] at input
          cases input
      | some inputs => rfl
    exact ⟨by rw [tunnels], fun tunnel mem => ⟨tunnel, tunnels ▸ mem, rfl⟩,
      fun name named => absurd named unnamed, fun distinct => tunnels ▸ distinct,
      fun _ tunnel _ named => absurd named unnamed⟩

/-- The tunnels of a network that netd accepts have distinct names. -/
theorem accepted_tunnels_distinct [Base64] {state : DesiredState}
    (h : validateWireguard state = .ok ()) : (state.wireguard.map (·.name)).Nodup := by
  have fold : ∀ (tunnels : List Wg) (seen last : List String), seen.Nodup →
      tunnels.foldlM validateWg seen = .ok last → (tunnels.map (·.name) ++ seen).Nodup := by
    intro tunnels
    induction tunnels with
    | nil => exact fun _ _ distinct _ => distinct
    | cons tunnel tunnels ih =>
        intro seen last distinct h
        rw [List.foldlM_cons, bind_eq_ok] at h
        obtain ⟨next, first, h⟩ := h
        simp only [validateWg, bind_eq_ok, ensure_eq_ok, pure_eq_ok, Bool.not_eq_true',
          ← Bool.not_eq_true, List.contains_iff_mem] at first
        obtain ⟨-, fresh, -, -, -, -, -, -, -, -, rfl⟩ := first
        have rest := ih (tunnel.name :: seen) last (List.nodup_cons.mpr ⟨fresh, distinct⟩) h
        rw [List.map_cons, List.cons_append]
        exact List.nodup_middle.mp rest
  simp only [validateWireguard, bind_eq_ok] at h
  obtain ⟨last, h, -⟩ := h
  simpa using fold state.wireguard [] last List.nodup_nil h

/-! ## A list of no tunnels -/

/-- Reviewed values that every network takes, with a tunnel of their own. -/
def ownTunnel : SectionValues := {
  routes := some [], interfaces := some [], uiExposure := some [], services := some {}
  firewall := some [], wireguard := some [{ name := "wg0", privateKey := "key" }]
  qdiscs := some [], ipv6 := some ⟨[]⟩ }

theorem review_total {α : Type} {sections : List String} {name error : String} {value : Option α}
    {given : α} {store : DesiredState → α → Except String DesiredState} (same : value = some given)
    (total : ∀ desired, ∃ stored, store desired given = .ok stored) (desired : DesiredState) :
    ∃ stored, review sections name value error store desired = .ok stored := by
  unfold review
  rw [same]
  split
  · exact total desired
  · exact ⟨desired, rfl⟩

theorem bind_total {α β : Type} {first : Except String α} {next : α → Except String β}
    (h : ∃ value, first = .ok value) (hn : ∀ value, ∃ result, next value = .ok result) :
    ∃ result, first >>= next = .ok result := by
  obtain ⟨value, rfl⟩ := h
  exact hn value

theorem storeWireguard_total (desired : DesiredState) :
    ∃ stored, storeWireguard desired [{ name := "wg0", privateKey := "key" }] desired.wireguard =
      .ok stored := by
  have route : tunnelRoute { name := "wg0", privateKey := "key" } = .ok none := by decide
  simp only [storeWireguard, storeTunnels, route]
  exact ⟨_, rfl⟩

theorem exists_reviewed (desired : DesiredState) (sections : List String) :
    ∃ stored, applyReviewedSections desired sections ownTunnel = .ok stored := by
  unfold applyReviewedSections
  refine bind_total ?_ fun routes => ?_
  · exact review_total rfl (fun _ => by exact ⟨_, rfl⟩) desired
  refine bind_total ?_ fun interfaces => ?_
  · exact review_total rfl (fun _ => by exact ⟨_, rfl⟩) routes
  refine bind_total ?_ fun services => ?_
  · exact review_total rfl (fun _ => by exact ⟨_, rfl⟩) interfaces
  refine bind_total ?_ fun firewall => ?_
  · exact review_total rfl (fun _ => by exact ⟨_, rfl⟩) services
  refine bind_total ?_ fun wireguard => ?_
  · exact review_total rfl storeWireguard_total firewall
  refine bind_total ?_ fun qdiscs => ?_
  · exact review_total rfl (fun _ => by exact ⟨_, rfl⟩) wireguard
  exact review_total rfl (fun _ => by exact ⟨_, rfl⟩) qdiscs

/-- After saves with only empty lists of tunnels the draft is taken for one that carries
every tunnel. -/
theorem exists_touched (saved : Saved base changes draft) (told : ¬ TunnelsTold changes) :
    ∃ accepted request token reconciled,
      reconciledDraft request (some draft) (.ok accepted) token = .ok reconciled ∧
        ¬ Untouched changes draft accepted request reconciled.desired := by
  rw [TunnelsTold, not_or, not_not] at told
  obtain ⟨lists, unnamed⟩ := told
  have recorded : "wireguard" ∈ effectiveSections draft := by
    rw [saved.effectiveSections, wireguard_mem_iff saved]
    by_contra silent
    refine lists fun change mem => Option.not_isSome_iff_eq_none.mp fun told => ?_
    exact silent ⟨change, mem, told⟩
  have imports : "import" ∉ effectiveSections draft := by
    rw [saved.effectiveSections]
    exact import_not_mem saved
  have all : ∀ name, editedTunnel draft name = true := by
    have empty : draft.wireguardEdits = [] := List.eq_nil_iff_forall_not_mem.mpr fun name mem => by
      have := (mem_wireguardEdits saved).mp mem
      rw [unnamed] at this
      cases this
    intro name
    rw [editedTunnel, empty]
    rfl
  have reviewed : ownTunnel.wireguard.map (·.filter fun tunnel => editedTunnel draft tunnel.name) =
      ownTunnel.wireguard := by
    simp [ownTunnel, all]
  -- The Accepted network has no tunnel.
  let accepted : DesiredState := { revision := draft.baseRevision + 1 }
  let request : DraftReconciliation := { ownTunnel with
    baseRevision := draft.baseRevision, version := draft.version
    acceptedRevision := draft.baseRevision + 1 }
  obtain ⟨reconciled, h⟩ := exists_reviewed (carryWireguardEdits accepted draft)
    (effectiveSections draft)
  have hd : reconciledDesired draft accepted ownTunnel = .ok reconciled := by
    unfold reconciledDesired
    dsimp only
    rw [if_neg fun found => imports (List.contains_iff_mem.mp found),
      if_pos (List.contains_iff_mem.mpr recorded), reviewed]
    exact h
  have made : reconciledDraft request (some draft) (.ok accepted) (.ok "") = .ok {
      baseRevision := reconciled.revision, version := "", desired := reconciled
      sections := effectiveSections draft, wireguardEdits := draft.wireguardEdits } := by
    simp only [reconciledDraft, bind_eq_ok, pure_eq_ok, mapError_eq_ok, okOr_eq_ok, ensure_eq_ok]
    exact ⟨draft, rfl, (), by simp [request], accepted, rfl, (), by simp [request, accepted],
      reconciled, hd, "", rfl, rfl⟩
  refine ⟨accepted, request, .ok "", _, made, fun untouched => ?_⟩
  have others : reconciled.wireguard = [] := by
    have kept := untouched.others
    rw [unnamed] at kept
    simpa [accepted] using kept
  have tunnels := reconciledDesired_tunnels imports hd
  rw [if_pos recorded, others] at tunnels
  obtain ⟨stored, found, -⟩ := @mem_foldl_storeTunnel (reviewedTunnels draft ownTunnel)
    (carryWireguardEdits accepted draft).wireguard { name := "wg0", privateKey := "key" }
    (by simp [reviewedTunnels, ownTunnel, all])
  rw [← tunnels] at found
  cases found

/-- The tunnels are left alone in every reconciliation exactly if no save had a list of
tunnels or some save named a tunnel. -/
theorem reconcile_untouched_iff (saved : Saved base changes draft) :
    (∀ accepted request token reconciled,
      reconciledDraft request (some draft) (.ok accepted) token = .ok reconciled →
        Untouched changes draft accepted request reconciled.desired) ↔ TunnelsTold changes := by
  constructor
  · intro all
    by_contra told
    obtain ⟨accepted, request, token, reconciled, h, touched⟩ := exists_touched saved told
    exact touched (all accepted request token reconciled h)
  · intro told accepted request token reconciled h
    exact untouched_of_told saved told (reconciledDraft_eq_ok h)

namespace TunnelEdits

/-- A network with two tunnels. -/
def tunnelled (revision : Nat) (key₀ key₁ : String) : DesiredState :=
  { revision, wireguard := [{ name := "wg0", privateKey := key₀ },
    { name := "wg1", privateKey := key₁ }] }

def tunnelsSaved (tunnels : List WgInput) : DraftChange :=
  { baseRevision := 1, wireguard := some tunnels }

def tunnelsDraft (key₀ : String) (edits : List String) : Draft :=
  { baseRevision := 1, version := "v1", desired := tunnelled 1 key₀ "old"
    sections := ["wireguard"], wireguardEdits := edits }

/-- The tunnels as the draft shows them. -/
def tunnelsReviewed : DraftReconciliation :=
  { baseRevision := 1, version := "v1", acceptedRevision := 2
    wireguard := some [{ name := "wg0" }, { name := "wg1" }] }

def tunnelsReconciled (key₀ key₁ : String) (edits : List String) : Draft :=
  { baseRevision := 2, version := "v2", desired := tunnelled 2 key₀ key₁
    sections := ["wireguard"], wireguardEdits := edits }

end TunnelEdits

/-- The key of the tunnel that no save has named was rotated. -/
theorem reconcile_untouched_edited :
    Untouched [tunnelsSaved [{ name := "wg0", privateKey := "new" }]] (tunnelsDraft "new" ["wg0"])
      (tunnelled 2 "first" "rotated") tunnelsReviewed
      (tunnelsReconciled "new" "rotated" ["wg0"]).desired := by
  have stored : savedDraft (tunnelsSaved [{ name := "wg0", privateKey := "new" }]) none
      (.ok (tunnelled 1 "first" "old")) (.ok "v1") = .ok (tunnelsDraft "new" ["wg0"]) := by
    decide +kernel
  have made : reconciledDraft tunnelsReviewed (some (tunnelsDraft "new" ["wg0"]))
      (.ok (tunnelled 2 "first" "rotated")) (.ok "v2") =
        .ok (tunnelsReconciled "new" "rotated" ["wg0"]) := by decide +kernel
  have told : TunnelsTold [tunnelsSaved [{ name := "wg0", privateKey := "new" }]] :=
    .inr (by decide)
  exact (reconcile_untouched_iff (.first stored)).mpr told _ _ _ _ made

/-- A save of no tunnels, after which the reconciliation reverts the rotated key. -/
theorem reconcile_reverts_rotated_key :
    ∃ draft reconciled : Draft, Saved (tunnelled 1 "first" "old") [tunnelsSaved []] draft ∧
      reconciledDraft tunnelsReviewed (some draft) (.ok (tunnelled 2 "first" "rotated"))
        (.ok "v2") = .ok reconciled ∧
      reconciled.desired.wireguard = (tunnelled 1 "first" "old").wireguard ∧
      ¬ Untouched [tunnelsSaved []] draft (tunnelled 2 "first" "rotated") tunnelsReviewed
        reconciled.desired := by
  have stored : savedDraft (tunnelsSaved []) none (.ok (tunnelled 1 "first" "old")) (.ok "v1") =
      .ok (tunnelsDraft "first" []) := by decide +kernel
  have made : reconciledDraft tunnelsReviewed (some (tunnelsDraft "first" []))
      (.ok (tunnelled 2 "first" "rotated")) (.ok "v2") =
        .ok (tunnelsReconciled "first" "old" []) := by decide +kernel
  refine ⟨_, _, .first stored, made, rfl, fun untouched => ?_⟩
  exact absurd untouched.others (by decide)

end Fwos
