import Fwos.Ui.Coverage
import Fwos.Lists.Upsert

/-!
# Drafts that only saves have made

`Saved base changes draft`: the draft that these saves have made of the Accepted network
`base`, each of them with success.

* `Saved.rule`: what every save keeps holds of such a draft.
* `saved_of_runDrafts`: the drafts of the runs of save requests are such drafts.
-/

namespace Fwos

open Rust CoverageLemmas

inductive Saved (base : DesiredState) : List DraftChange → Draft → Prop
  | first {change : DraftChange} {token : Except String String} {draft : Draft}
      (h : savedDraft change none (.ok base) token = .ok draft) : Saved base [change] draft
  /-- A later save edits the draft, whatever is Accepted then. -/
  | next {changes : List DraftChange} {previous draft : Draft} {change : DraftChange}
      {snapshot : Except String DesiredState} {token : Except String String}
      (h : Saved base changes previous)
      (hs : savedDraft change (some previous) snapshot token = .ok draft) :
      Saved base (changes ++ [change]) draft

/-- The edited tunnels that are remembered along with those of a change. -/
def rememberTunnels (edits : List String) (change : DraftChange) : List String :=
  ((change.wireguard.getD []).map (·.name)).foldl rememberSection edits

/-- The request stores this section; a tunnel with a route stores the routes too. -/
def SectionValues.Stores (values : SectionValues) (name : String) : Prop :=
  (values.routes.isSome = true ∧ name = "routes") ∨
  (values.both.isSome = true ∧ name = "interfaces") ∨
  (values.services.isSome = true ∧ name = "services") ∨
  (values.firewall.isSome = true ∧ name = "firewall") ∨
  (values.wireguard.isSome = true ∧ name = "wireguard") ∨
  (addsRoute (values.wireguard.getD []) = true ∧ name = "routes") ∨
  (values.qdiscs.isSome = true ∧ name = "qdiscs") ∨
  (values.ipv6.isSome = true ∧ name = "ipv6")

namespace SavedLemmas

/-! ## The sections of a save -/

theorem mem_rememberSection_iff {sections : List String} {name other : String} :
    other ∈ rememberSection sections name ↔ other ∈ sections ∨ other = name := by
  unfold rememberSection
  split
  next known =>
    refine ⟨.inl, fun mem => mem.elim id fun same => ?_⟩
    rw [same]
    exact List.contains_iff_mem.mp known
  next => rw [List.mem_append, List.mem_singleton]

theorem mem_foldl_rememberSection {names sections : List String} {other : String} :
    other ∈ names.foldl rememberSection sections ↔ other ∈ sections ∨ other ∈ names := by
  induction names generalizing sections with
  | nil => simp
  | cons name names ih => rw [List.foldl_cons, ih, mem_rememberSection_iff, List.mem_cons, or_assoc]

section

variable {α : Type} {name : String} {value : Option α}
  {store : DesiredState → α → Except String DesiredState} {state after : DesiredState × List String}

theorem save_sections (h : save name value store state = .ok after) {other : String} :
    other ∈ after.2 ↔ other ∈ state.2 ∨ (value.isSome = true ∧ other = name) := by
  cases value with
  | none =>
      cases h
      simp
  | some value =>
      simp only [save, bind_eq_ok, pure_eq_ok] at h
      obtain ⟨desired, -, rfl⟩ := h
      rw [mem_rememberSection_iff]
      simp

/-- A save of a section keeps what its store keeps. -/
theorem save_keeps {P : DesiredState × List String → Prop}
    (h : save name value store state = .ok after) (start : P state)
    (keeps : ∀ a desired, value = some a → store state.1 a = .ok desired →
      P (desired, rememberSection state.2 name)) : P after := by
  cases value with
  | none =>
      cases h
      exact start
  | some a =>
      simp only [save, bind_eq_ok, pure_eq_ok] at h
      obtain ⟨desired, stored, rfl⟩ := h
      exact keeps a desired rfl stored

end

variable {desired : DesiredState} {sections : List String} {values : SectionValues}
  {after : DesiredState × List String}

theorem mem_applyDraftSections (h : applyDraftSections desired sections values = .ok after)
    {name : String} : name ∈ after.2 ↔ name ∈ sections ∨ values.Stores name := by
  simp only [applyDraftSections, bind_eq_ok] at h
  obtain ⟨-, -, routes, hr, -, -, interfaces, hi, services, hs, firewall, hf, wireguard, hw,
    qdiscs, hq, h6⟩ := h
  have tunnels : name ∈ (if addsRoute (values.wireguard.getD []) then
        (wireguard.1, rememberSection wireguard.2 "routes") else wireguard).2 ↔
      name ∈ wireguard.2 ∨ (addsRoute (values.wireguard.getD []) = true ∧ name = "routes") := by
    split
    next adds => simp [mem_rememberSection_iff, adds]
    next adds => simp [adds]
  rw [save_sections h6, save_sections hq, tunnels, save_sections hw, save_sections hf,
    save_sections hs, save_sections hi, save_sections hr, SectionValues.Stores]
  simp only [or_assoc]

/-- A save stores some section. -/
theorem exists_stores (h : applyDraftSections desired sections values = .ok after) :
    ∃ name, values.Stores name := by
  simp only [applyDraftSections, bind_eq_ok, ensure_eq_ok] at h
  obtain ⟨-, proposes, -, -, -, together, -⟩ := h
  by_contra nothing
  have unset {α : Type} {value : Option α} (name : String)
      (stores : value.isSome = true → values.Stores name) : value = none := by
    cases value with
    | none => rfl
    | some a => exact absurd ⟨name, stores rfl⟩ nothing
  have both : values.both = none := unset "interfaces" fun h => .inr (.inl ⟨h, rfl⟩)
  have neither : values.interfaces = none ∧ values.uiExposure = none := by
    rw [SectionValues.both] at both
    cases hi : values.interfaces <;> cases hu : values.uiExposure <;>
      simp [hi, hu] at both together ⊢
  have routes : values.routes = none := unset "routes" fun h => .inl ⟨h, rfl⟩
  have services : values.services = none := unset "services" fun h => .inr (.inr (.inl ⟨h, rfl⟩))
  have firewall : values.firewall = none :=
    unset "firewall" fun h => .inr (.inr (.inr (.inl ⟨h, rfl⟩)))
  have wireguard : values.wireguard = none :=
    unset "wireguard" fun h => .inr (.inr (.inr (.inr (.inl ⟨h, rfl⟩))))
  have qdiscs : values.qdiscs = none :=
    unset "qdiscs" fun h => .inr (.inr (.inr (.inr (.inr (.inr (.inl ⟨h, rfl⟩))))))
  have ipv6 : values.ipv6 = none :=
    unset "ipv6" fun h => .inr (.inr (.inr (.inr (.inr (.inr (.inr ⟨h, rfl⟩))))))
  refine bne_iff_ne.mp proposes ?_
  obtain ⟨interfaces, uiExposure⟩ := neither
  cases values
  simp only at routes interfaces uiExposure services firewall wireguard qdiscs ipv6
  subst routes interfaces uiExposure services firewall wireguard qdiscs ipv6
  rfl

/-- No save records an import. -/
theorem not_stores_import (values : SectionValues) : ¬ values.Stores "import" := by
  simp [SectionValues.Stores]

theorem stores_wireguard {values : SectionValues} :
    values.Stores "wireguard" ↔ values.wireguard.isSome = true := by
  simp [SectionValues.Stores]

/-! ## The tunnels of a save -/

theorem storeTunnels_tunnels {next next' : List Wg} {tunnels : List WgInput}
    {routes : List StaticRoute} (h : storeTunnels next tunnels = .ok (next', routes)) :
    next' = tunnels.foldl storeTunnel next := by
  induction tunnels generalizing next next' routes with
  | nil =>
      simp only [storeTunnels, Except.ok.injEq, Prod.mk.injEq] at h
      exact h.1.symm
  | cons tunnel tunnels ih =>
      simp only [storeTunnels, bind_eq_ok, pure_eq_ok, Prod.mk.injEq, Prod.exists] at h
      obtain ⟨route, -, last, rest, ht, rfl, -⟩ := h
      exact ih ht

theorem storeWireguard_tunnels {tunnels : List WgInput} {preserved : List Wg}
    {desired' : DesiredState} (h : storeWireguard desired tunnels preserved = .ok desired') :
    desired'.wireguard = tunnels.foldl storeTunnel preserved := by
  simp only [storeWireguard, bind_eq_ok, pure_eq_ok, Prod.exists] at h
  obtain ⟨next, routes, ht, rfl⟩ := h
  exact storeTunnels_tunnels ht

theorem save_tunnels {α : Type} {name : String} {value : Option α} {S : List String}
    {store : DesiredState → α → Except String DesiredState}
    {state after : DesiredState × List String} (h : save name value store state = .ok after)
    (edits : ∀ a desired, store state.1 a = .ok desired → Edits S state.1 desired)
    (other : "wireguard" ∉ S) : after.1.wireguard = state.1.wireguard := by
  refine save_keeps (P := fun state' => state'.1.wireguard = state.1.wireguard) h rfl ?_
  exact fun a desired _ stored => (edits a desired stored).wireguard.resolve_right other

/-- Only the section of the tunnels changes them. -/
theorem applyDraftSections_tunnels (h : applyDraftSections desired sections values = .ok after) :
    after.1.wireguard = (values.wireguard.getD []).foldl storeTunnel desired.wireguard := by
  simp only [applyDraftSections, bind_eq_ok] at h
  obtain ⟨-, -, routes, hr, -, -, interfaces, hi, services, hs, firewall, hf, wireguard, hw,
    qdiscs, hq, h6⟩ := h
  have early : firewall.1.wireguard = desired.wireguard := by
    have afterFirewall := save_tunnels (S := ["firewall"]) hf
      (fun _ _ stored => by cases stored; exact edits_nftExtra (by simp)) (by simp)
    have afterServices := save_tunnels (S := ["services"]) hs
      (fun _ _ stored => by cases stored; exact storeLanServices_edits (by simp)) (by simp)
    have afterInterfaces := save_tunnels (S := ["interfaces"]) hi
      (fun _ _ stored => by cases stored; exact storeInterfaceSection_edits (by simp)) (by simp)
    have afterRoutes := save_tunnels (S := ["routes"]) hr
      (fun _ _ stored => by cases stored; exact edits_routes (by simp)) (by simp)
    rw [afterFirewall, afterServices, afterInterfaces, afterRoutes]
  have stored : wireguard.1.wireguard =
      (values.wireguard.getD []).foldl storeTunnel firewall.1.wireguard := by
    cases value : values.wireguard with
    | none =>
        rw [value] at hw
        cases hw
        rfl
    | some tunnels =>
        rw [value] at hw
        simp only [save, bind_eq_ok, pure_eq_ok] at hw
        obtain ⟨desired, stored, rfl⟩ := hw
        exact storeWireguard_tunnels stored
  have afterIpv6 := save_tunnels (S := ["ipv6"]) h6
    (fun _ _ stored => storeIpv6_edits (by simp) stored) (by simp)
  have afterQdiscs := save_tunnels (S := ["qdiscs"]) hq
    (fun _ _ stored => storeQdiscs_edits (by simp) stored) (by simp)
  rw [afterIpv6, afterQdiscs, ← early, ← stored]
  split <;> rfl

/-! ## What every save keeps -/

/-- A rule for all sections: each store keeps `P`. -/
theorem applyDraftSections_keeps {P : DesiredState × List String → Prop}
    (h : applyDraftSections desired sections values = .ok after) (start : P (desired, sections))
    (routes : ∀ d s r, P (d, s) → P ({ d with routes := r }, rememberSection s "routes"))
    (interfaces : ∀ d s i u, P (d, s) →
      P (storeInterfaceSection d i u, rememberSection s "interfaces"))
    (services : ∀ d s v, P (d, s) → P (storeLanServices d v, rememberSection s "services"))
    (firewall : ∀ d s r, P (d, s) → P ({ d with nftExtra := r }, rememberSection s "firewall"))
    (wireguard : ∀ d s tunnels d', values.wireguard = some tunnels →
      storeWireguard d tunnels d.wireguard = .ok d' → P (d, s) →
      P (d', if addsRoute tunnels then rememberSection (rememberSection s "wireguard") "routes"
        else rememberSection s "wireguard"))
    (qdiscs : ∀ d s updates d', storeQdiscs d updates = .ok d' → P (d, s) →
      P (d', rememberSection s "qdiscs"))
    (ipv6 : ∀ d s settings d', storeIpv6 d settings = .ok d' → P (d, s) →
      P (d', rememberSection s "ipv6")) : P after := by
  simp only [applyDraftSections, bind_eq_ok] at h
  obtain ⟨-, -, afterRoutes, hr, -, -, afterInterfaces, hi, afterServices, hs, afterFirewall, hf,
    afterTunnels, hw, afterQdiscs, hq, h6⟩ := h
  have keptRoutes : P afterRoutes := save_keeps hr start fun a d _ stored => by
    cases stored
    exact routes desired sections a start
  have keptInterfaces : P afterInterfaces := save_keeps hi keptRoutes fun a d _ stored => by
    cases stored
    exact interfaces _ _ _ _ keptRoutes
  have keptServices : P afterServices := save_keeps hs keptInterfaces fun a d _ stored => by
    cases stored
    exact services _ _ _ keptInterfaces
  have keptFirewall : P afterFirewall := save_keeps hf keptServices fun a d _ stored => by
    cases stored
    exact firewall _ _ _ keptServices
  have keptTunnels : P (if addsRoute (values.wireguard.getD []) then
      (afterTunnels.1, rememberSection afterTunnels.2 "routes") else afterTunnels) := by
    cases value : values.wireguard with
    | none =>
        rw [value] at hw
        cases hw
        exact keptFirewall
    | some tunnels =>
        rw [value] at hw
        simp only [save, bind_eq_ok, pure_eq_ok] at hw
        obtain ⟨d', stored, rfl⟩ := hw
        have kept := wireguard _ _ tunnels d' value stored keptFirewall
        rw [Option.getD_some]
        split
        next adds => rwa [if_pos adds] at kept
        next adds => rwa [if_neg adds] at kept
  have keptQdiscs : P afterQdiscs := save_keeps hq keptTunnels fun a d _ stored =>
    qdiscs _ _ a d stored keptTunnels
  exact save_keeps h6 keptQdiscs fun a d _ stored => ipv6 _ _ a d stored keptQdiscs

theorem effectiveSections_of_ne_nil {draft : Draft} (h : draft.sections ≠ []) :
    effectiveSections draft = draft.sections := by
  unfold effectiveSections
  rw [if_neg (by simpa using h)]

theorem savedDraft_eq_ok {change : DraftChange} {existing : Option Draft}
    {snapshot : Except String DesiredState} {token : Except String String} {draft : Draft}
    (h : savedDraft change existing snapshot token = .ok draft) :
    ∃ desired sections edits after, draftedContent change existing snapshot =
        .ok (change.baseRevision, desired, sections, edits) ∧
      applyDraftSections desired sections change.toSectionValues = .ok after ∧
      draft.baseRevision = change.baseRevision ∧ draft.desired = after.1 ∧
      draft.sections = after.2 ∧ draft.wireguardEdits = rememberTunnels edits change := by
  simp only [savedDraft, bind_eq_ok, pure_eq_ok, mapError_eq_ok, ensure_eq_ok, beq_iff_eq,
    Prod.exists] at h
  obtain ⟨revision, desired, sections, edits, content, -, rfl, desired', sections', stored, version,
    -, rfl⟩ := h
  exact ⟨desired, sections, edits, (desired', sections'), content, stored, rfl, rfl, rfl, rfl⟩

end SavedLemmas

open SavedLemmas

variable {base : DesiredState} {changes : List DraftChange} {draft : Draft}

theorem Saved.sections_ne_nil (h : Saved base changes draft) : draft.sections ≠ [] := by
  have nonempty {change : DraftChange} {existing : Option Draft}
      {snapshot : Except String DesiredState} {token : Except String String} {draft : Draft}
      (hs : savedDraft change existing snapshot token = .ok draft) : draft.sections ≠ [] := by
    obtain ⟨desired, sections, edits, after, -, stored, -, -, same, -⟩ := savedDraft_eq_ok hs
    obtain ⟨name, stores⟩ := exists_stores stored
    rw [same]
    exact List.ne_nil_of_mem ((mem_applyDraftSections stored).mpr (.inr stores))
  cases h with
  | first hs => exact nonempty hs
  | next _ hs => exact nonempty hs

theorem Saved.effectiveSections (h : Saved base changes draft) :
    effectiveSections draft = draft.sections := effectiveSections_of_ne_nil h.sections_ne_nil

/-- What holds of the base and is kept by every save holds of the draft. -/
theorem Saved.rule {P : List DraftChange → DesiredState → List String → List String → Prop}
    (h : Saved base changes draft) (start : P [] base [] [])
    (step : ∀ changes desired sections edits change after, P changes desired sections edits →
      applyDraftSections desired sections change.toSectionValues = .ok after →
      P (changes ++ [change]) after.1 after.2 (rememberTunnels edits change)) :
    P changes draft.desired draft.sections draft.wireguardEdits := by
  induction h with
  | first hs =>
      obtain ⟨desired, sections, edits, after, content, stored, -, same, recorded, edited⟩ :=
        savedDraft_eq_ok hs
      unfold draftedContent at content
      split at content
      next => nomatch ‹none = some _›
      next =>
        split at content
        · cases content
        · simp only [Except.ok.injEq, Prod.mk.injEq] at content
          obtain ⟨-, rfl, rfl, rfl⟩ := content
          rw [same, recorded, edited]
          exact step [] _ _ _ _ _ start stored
  | next hp hs ih =>
      obtain ⟨desired, sections, edits, after, content, stored, -, same, recorded, edited⟩ :=
        savedDraft_eq_ok hs
      unfold draftedContent at content
      dsimp only at content
      split at content
      · simp only [Except.ok.injEq, Prod.mk.injEq] at content
        obtain ⟨-, rfl, rfl, rfl⟩ := content
        rw [same, recorded, edited]
        rw [← hp.effectiveSections] at ih
        exact step _ _ _ _ _ _ ih stored
      · cases content

theorem Saved.baseRevision (h : Saved base changes draft) : draft.baseRevision = base.revision := by
  induction h with
  | first hs =>
      obtain ⟨desired, sections, edits, after, content, -, revision, -⟩ := savedDraft_eq_ok hs
      unfold draftedContent at content
      split at content
      next => nomatch ‹none = some _›
      next =>
        split at content
        · cases content
        · simp only [Except.ok.injEq, Prod.mk.injEq] at content
          rw [revision, ← content.1]
  | next _ hs ih =>
      obtain ⟨desired, sections, edits, after, content, -, revision, -⟩ := savedDraft_eq_ok hs
      unfold draftedContent at content
      dsimp only at content
      split at content
      · simp only [Except.ok.injEq, Prod.mk.injEq] at content
        rw [revision, ← content.1, ih]
      · cases content

/-! ## Runs of save requests -/

/-- The draft comes from saves among these requests, on a network that was Accepted at one
of them. -/
def SavedFrom (accepted : AcceptedNetworks) (events : List DraftEvent) (draft : Draft) : Prop :=
  ∃ env base changes, acceptedSnapshotForDrafting accepted env = .ok base ∧
    Saved base changes draft ∧ ∀ change ∈ changes, ∃ env, (env, .save (some change)) ∈ events

theorem savedDraft_savedFrom {accepted : AcceptedNetworks} {events : List DraftEvent}
    {env : DraftEnv} {change : DraftChange} {existing : Option Draft}
    (mem : (env, .save (some change)) ∈ events)
    (known : ∀ previous, existing = some previous → SavedFrom accepted events previous)
    (h : savedDraft change existing (acceptedSnapshotForDrafting accepted env) env.token =
      .ok draft) : SavedFrom accepted events draft := by
  cases existing with
  | some previous =>
      obtain ⟨env', base, changes, snapshot, saved, among⟩ := known previous rfl
      refine ⟨env', base, changes ++ [change], snapshot, saved.next h, fun other found => ?_⟩
      rcases List.mem_append.mp found with found | found
      · exact among other found
      · rw [List.mem_singleton.mp found]
        exact ⟨env, mem⟩
  | none =>
      cases snapshot : acceptedSnapshotForDrafting accepted env with
      | error error =>
          obtain ⟨desired, sections, edits, after, content, -⟩ := savedDraft_eq_ok h
          unfold draftedContent at content
          rw [snapshot] at content
          dsimp only at content
          split at content <;> cases content
      | ok base =>
          rw [snapshot] at h
          refine ⟨env, base, [change], snapshot, .first h, fun other found => ?_⟩
          rw [List.mem_singleton.mp found]
          exact ⟨env, mem⟩

/-- A run of save requests leaves no draft or one that saves have made. -/
theorem saved_of_runDrafts {accepted : AcceptedNetworks} {events : List DraftEvent}
    (saves : ∀ event ∈ events, ∃ body, event.2 = .save body)
    (h : runDrafts accepted none events = some draft) : SavedFrom accepted events draft := by
  have step : ∀ front event back, events = front ++ event :: back → ∀ file,
      (∀ previous, file = some previous → SavedFrom accepted events previous) →
      ∀ made, stepDraft accepted file event = some made → SavedFrom accepted events made := by
    intro front event back whole file known made stepped
    have mem : event ∈ events := by rw [whole]; simp
    obtain ⟨env, request⟩ := event
    obtain ⟨body, rfl⟩ := saves _ mem
    unfold stepDraft DraftRequest.handle at stepped
    dsimp only at stepped
    split_ifs at stepped
    · exact known made stepped
    · exact known made stepped
    · cases body with
      | none => exact known made stepped
      | some change =>
          rcases changeDraft_cases file (acceptedSnapshotForDrafting accepted env) env
            (fun existing => savedDraft change existing
              (acceptedSnapshotForDrafting accepted env) env.token) with
            same | ⟨-, gone⟩ | ⟨existing, draft, hmade, found_as, written⟩
          · exact known made (same.symm.trans stepped)
          · cases gone.symm.trans stepped
          · obtain rfl := Option.some.inj (written.symm.trans stepped)
            refine savedDraft_savedFrom mem (fun previous found => ?_) hmade
            rcases found_as with rfl | ⟨-, rfl⟩
            · exact known previous found
            · cases found
  have run : ∀ back front file, events = front ++ back →
      (∀ previous, file = some previous → SavedFrom accepted events previous) →
      ∀ made, runDrafts accepted file back = some made → SavedFrom accepted events made := by
    intro back
    induction back with
    | nil => exact fun front file _ known made h => known made h
    | cons event back ih =>
        intro front file whole known made h
        exact ih (front ++ [event]) _ (by simp [whole]) (step front event back whole file known)
          made h
  exact run events [] none rfl nofun draft h

end Fwos
