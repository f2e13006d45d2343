import Fwos.Exposure

/-!
# Forwarding between the roles

The forward chain drops by default, accepts what leaves by a WAN wherever it came
from, and closes each Management NIC before that.

* `forward_verdict_eq`: the verdict of the chain as a decision about the packet.
* `mgmt_isolated`: a Management NIC reaches only the UI, and only the management
  netns reaches it.
* `wan_forward_closed_iff`: what comes in by a WAN is kept from every interface
  only under the recovery guard, as it may leave by a WAN again.
-/

namespace Nft

variable {Packet : Type} {R : Reading Packet} {p : Packet}

theorem firstVerdict_append {front rest : List Rule} :
    firstVerdict R (front ++ rest) p = (firstVerdict R front p).or (firstVerdict R rest p) :=
  List.findSome?_append

/-- Rules with one verdict give it to what any of them matches. -/
theorem firstVerdict_uniform {rules : List Rule} {verdict : Verdict}
    (h : ∀ rule ∈ rules, rule.verdict = some verdict) :
    firstVerdict R rules p = if rules.any (·.matches R p) then some verdict else none := by
  induction rules with
  | nil => rfl
  | cons rule rules ih =>
    simp only [List.mem_cons, forall_eq_or_imp] at h
    rw [firstVerdict, List.findSome?_cons, List.any_cons]
    cases hm : rule.matches R p with
    | true => simp [h.1]
    | false => simpa [firstVerdict] using ih h.2

end Nft

namespace Fwos

open Rust Nft

/-- What the forward chain does with a packet. -/
def forwardDecision (state : DesiredState) (recoveryRequired : Bool) (p : Packet) : Verdict :=
  if recoveryRequired then .drop
  else if p.isReply then .accept
  else if p.iifname = fwdMgmtVeth then .accept
  else if p.iifname ∈ (uiExposure state).map (·.1) ∧ p.oifname = fwdMgmtVeth ∧ p.isHttps = true then
    .accept
  else if p.iifname ∈ (mgmts state).map (·.name) ∨ p.oifname ∈ (mgmts state).map (·.name) then .drop
  else if p.oifname ∈ wanNames state then .accept
  else .drop

/-- No new connection that comes in by a WAN is forwarded. -/
def WanForwardClosed (state : DesiredState) (recoveryRequired : Bool) : Prop :=
  ∀ (M : Matches) (p : Packet), p.iifname ∈ wanNames state → p.isReply = false →
    (forwardChain state recoveryRequired).verdict M.reading p = some .drop

/-- New connections of a Management NIC go to the UI, and those to it come from the
management netns. -/
def MgmtIsolated (state : DesiredState) (recoveryRequired : Bool) : Prop :=
  ∀ (M : Matches) (p : Packet), ∀ mgmt ∈ mgmts state, mgmt.name ≠ fwdMgmtVeth →
    p.isReply = false →
    (forwardChain state recoveryRequired).verdict M.reading p = some .accept →
    (p.iifname = mgmt.name →
      p.oifname = fwdMgmtVeth ∧ p.isHttps = true ∧ mgmt.name ∈ state.uiExposure) ∧
    (p.oifname = mgmt.name → p.iifname = fwdMgmtVeth)

namespace ForwardingLemmas

open RulesetReadingLemmas ExposureLemmas

variable {M : Matches} {p : Packet} {state : DesiredState} {guard : Bool}

theorem matches_acceptRest {others : List Token} (h : others.isEmpty = false) :
    (acceptRest others).matches M.reading p = M.holds others p := by
  simp [Rule.matches, acceptRest, Matches.reading, h]

theorem matches_dropRest : dropRest.matches M.reading p = true := rfl

theorem matches_acceptAll : (acceptRest []).matches M.reading p = true := rfl

theorem matches_exposureForward {name : String} :
    (exposureForward name).matches M.reading p =
      (name == p.iifname && fwdMgmtVeth == p.oifname && p.isHttps) := by
  rw [exposureForward, matches_onInput, ← M.https]
  simp [Rule.matches, NameMatch.holds, Matches.reading, httpsTokens, Bool.and_assoc]

theorem firstVerdict_head :
    firstVerdict M.reading
      [acceptRest establishedTokens, onInput fwdMgmtVeth (acceptRest [])] p =
      if p.isReply = true ∨ p.iifname = fwdMgmtVeth then some .accept else none := by
  have hestablished := @matches_acceptRest M p establishedTokens rfl
  rw [@firstVerdict_uniform _ _ _ _ .accept (by simp [acceptRest, onInput, Rule.append])]
  simp only [List.any_cons, List.any_nil, Bool.or_false, hestablished, M.established,
    matches_onInput, matches_acceptAll, Bool.and_true, Bool.or_eq_true, beq_iff_eq,
    eq_comm (a := fwdMgmtVeth)]

theorem firstVerdict_exposures :
    firstVerdict M.reading ((uiExposure state).map (exposureForward ·.1)) p =
      if p.iifname ∈ (uiExposure state).map (·.1) ∧ p.oifname = fwdMgmtVeth ∧ p.isHttps = true
      then some .accept else none := by
  rw [@firstVerdict_uniform _ _ _ _ .accept
    (by simp only [List.forall_mem_map]; exact fun _ _ => rfl)]
  refine if_congr ?_ rfl rfl
  simp only [List.any_map, List.any_eq_true, Function.comp_apply, matches_exposureForward,
    Bool.and_eq_true, beq_iff_eq, List.mem_map]
  constructor
  · rintro ⟨exposed, he, ⟨hn, ho⟩, hp⟩
    exact ⟨⟨exposed, he, hn⟩, ho.symm, hp⟩
  · rintro ⟨⟨exposed, he, hn⟩, ho, hp⟩
    exact ⟨exposed, he, ⟨hn, ho.symm⟩, hp⟩

theorem mgmtForward_drops {mgmt : String} {rule : Rule} (h : rule ∈ mgmtForward mgmt) :
    rule.verdict = some .drop := by
  simp only [mgmtForward, List.mem_cons, List.not_mem_nil, or_false] at h
  rcases h with rfl | rfl <;> rfl

theorem firstVerdict_mgmts :
    firstVerdict M.reading ((mgmts state).flatMap (mgmtForward ·.name)) p =
      if p.iifname ∈ (mgmts state).map (·.name) ∨ p.oifname ∈ (mgmts state).map (·.name)
      then some .drop else none := by
  have hdrops : ∀ rule ∈ (mgmts state).flatMap (mgmtForward ·.name), rule.verdict = some .drop := by
    intro rule hr
    obtain ⟨mgmt, -, hr⟩ := List.mem_flatMap.mp hr
    exact mgmtForward_drops hr
  rw [firstVerdict_uniform hdrops]
  refine if_congr ?_ rfl rfl
  simp only [List.any_flatMap, List.any_eq_true, mgmtForward, List.any_cons, List.any_nil,
    Bool.or_false, Bool.or_eq_true, matches_onInput, matches_onOutput, matches_dropRest,
    Bool.and_true, beq_iff_eq, List.mem_map]
  constructor
  · rintro ⟨mgmt, hm, h | h⟩
    · exact .inl ⟨mgmt, hm, h⟩
    · exact .inr ⟨mgmt, hm, h⟩
  · rintro (⟨mgmt, hm, h⟩ | ⟨mgmt, hm, h⟩)
    · exact ⟨mgmt, hm, .inl h⟩
    · exact ⟨mgmt, hm, .inr h⟩

theorem firstVerdict_wans :
    firstVerdict M.reading ((wanNames state).map fun wan => onOutput wan (acceptRest [])) p =
      if p.oifname ∈ wanNames state then some .accept else none := by
  rw [@firstVerdict_uniform _ _ _ _ .accept
    (by simp only [List.forall_mem_map]; exact fun _ _ => rfl)]
  refine if_congr ?_ rfl rfl
  simp only [List.any_map, List.any_eq_true, Function.comp_apply, matches_onOutput,
    matches_acceptAll, Bool.and_true, beq_iff_eq]
  exact ⟨fun ⟨wan, hw, h⟩ => h ▸ hw, fun h => ⟨_, h, rfl⟩⟩

theorem mem_uiExposure_names {name : String} (h : name ∈ (uiExposure state).map (·.1)) :
    name ∈ state.uiExposure := by
  simp only [uiExposure, List.mem_map, List.mem_filterMap, Option.map_eq_some_iff] at h
  obtain ⟨_, ⟨exposed, he, iface, hf, rfl⟩, rfl⟩ := h
  have hn := List.find?_some hf
  simp only [Bool.and_eq_true, beq_iff_eq] at hn
  exact hn.1 ▸ he

theorem exists_wan [Base64] (ha : Accepts state) : ∃ wan, wan ∈ wanNames state := by
  have zones := ha.zones
  simp only [validateZones, bind_eq_ok, ensure_eq_ok] at zones
  obtain ⟨-, hwans, -⟩ := zones
  obtain ⟨iface, hi⟩ := List.exists_mem_of_ne_nil (wans state) (by simpa using hwans)
  exact ⟨iface.name, List.mem_map_of_mem hi⟩

theorem mgmt_exposed [Base64] (ha : Accepts state) {name : String}
    (h : name ∈ (mgmts state).map (·.name)) : name ∈ (uiExposure state).map (·.1) := by
  obtain ⟨mgmt, hm, rfl⟩ := List.mem_map.mp h
  have exposure := ha.exposure
  simp only [validateExposure, bind_eq_ok, forM_eq_ok, ensure_eq_ok, exposesUi,
    List.contains_eq_mem, decide_eq_true_eq] at exposure
  obtain ⟨-, -, -, -, hexposed⟩ := exposure
  have hmgmt : mgmt.name == mgmt.name && !mgmt.isWan := by
    have hrole := (List.mem_filter.mp hm).2
    simp only [Iface.isMgmt, Iface.hasRole, beq_iff_eq] at hrole
    simp [Iface.isWan, Iface.hasRole, hrole]
  cases hf : state.interfaces.find? fun iface => iface.name == mgmt.name && !iface.isWan with
  | none => exact absurd hmgmt (List.find?_eq_none.mp hf mgmt (List.mem_of_mem_filter hm))
  | some iface =>
    have hn := List.find?_some hf
    simp only [Bool.and_eq_true, beq_iff_eq] at hn
    simp only [uiExposure, List.mem_map, List.mem_filterMap, Option.map_eq_some_iff]
    exact ⟨_, ⟨mgmt.name, hexposed mgmt hm, iface, hf, rfl⟩, hn.1⟩

end ForwardingLemmas

open ForwardingLemmas ExposureLemmas RulesetReadingLemmas

theorem forward_verdict_eq [Base64] {state : DesiredState} (ha : Accepts state) {guard : Bool}
    {M : Matches} {p : Packet} :
    (forwardChain state guard).verdict M.reading p = some (forwardDecision state guard p) := by
  rw [forward_verdict ha, forwardReading]
  simp only [firstVerdict_append, firstVerdict_head, firstVerdict_exposures, firstVerdict_mgmts,
    firstVerdict_wans, forwardDecision]
  cases guard with
  | true => rfl
  | false =>
    have hnone : firstVerdict M.reading [] p = none := rfl
    simp only [Bool.false_eq_true, if_false, hnone, Option.none_or]
    split_ifs <;> simp_all

/-- A Management NIC of an accepted state does not forward. -/
theorem mgmt_isolated [Base64] {state : DesiredState} (hv : validate state = .ok ())
    (guard : Bool) : MgmtIsolated state guard := by
  intro M p mgmt hm hveth hnew haccept
  rw [forward_verdict_eq (validate_iff.mp hv), Option.some.injEq] at haccept
  have hname : mgmt.name ∈ (mgmts state).map (·.name) := List.mem_map_of_mem hm
  unfold forwardDecision at haccept
  simp only [hnew, Bool.false_eq_true, if_false] at haccept
  split_ifs at haccept with hguard hin hexposed hmgmt hwan
  · exact ⟨fun h => absurd (h.symm.trans hin) hveth, fun _ => hin⟩
  · refine ⟨fun h => ⟨hexposed.2.1, hexposed.2.2, ?_⟩, fun h => ?_⟩
    · exact h ▸ mem_uiExposure_names hexposed.1
    · exact absurd (h.symm.trans hexposed.2.1) hveth
  · exact ⟨fun h => absurd (.inl (h ▸ hname)) hmgmt, fun h => absurd (.inr (h ▸ hname)) hmgmt⟩

/-- Without the guard, a WAN forwards: to itself, or to the UI where an exposed
Management NIC shares its name. -/
theorem exists_wan_forward [Base64] {state : DesiredState} (ha : Accepts state) :
    ∃ wan ∈ wanNames state, ∃ p : Packet, p.iifname = wan ∧ p.isReply = false ∧
      forwardDecision state false p = .accept := by
  obtain ⟨wan, hw⟩ := exists_wan ha
  refine ⟨wan, hw, ?_⟩
  let hairpin : Packet := {
    iifname := wan, oifname := wan, saddr := .v4 0, daddr := .v4 0, transport := .other }
  by_cases hm : wan ∈ (mgmts state).map (·.name)
  · let https : Packet := { hairpin with oifname := fwdMgmtVeth, transport := .tcp 40000 443 }
    refine ⟨https, rfl, rfl, ?_⟩
    have he : https.iifname ∈ (uiExposure state).map (·.1) := mgmt_exposed ha hm
    simp [forwardDecision, https, hairpin, Packet.isReply, Packet.isHttps, he]
  · refine ⟨hairpin, rfl, rfl, ?_⟩
    simp [forwardDecision, hairpin, Packet.isReply, hm, hw]

/-- Without the guard, some new connection that comes in by a WAN is forwarded. -/
theorem wan_forward_closed_iff [Base64] {state : DesiredState} (hv : validate state = .ok ())
    (guard : Bool) : WanForwardClosed state guard ↔ guard = true := by
  have ha := validate_iff.mp hv
  constructor
  · intro closed
    by_contra hguard
    obtain rfl : guard = false := by simpa using hguard
    obtain ⟨wan, hw, p, hp, hnew, haccept⟩ := exists_wan_forward ha
    have hdrop := closed lenient p (hp ▸ hw) hnew
    rw [forward_verdict_eq ha, haccept] at hdrop
    cases hdrop
  · rintro rfl M p - -
    rw [forward_verdict_eq ha]
    rfl

namespace Forwarding

/-- Two WANs, and a Management NIC that a third WAN shares its name with. -/
def twoWans : DesiredState := {
  interfaces := [
    { name := "enp1s0", role := some "wan" },
    { name := "enp9s0", role := some "wan" },
    { name := "enp2s0", role := some "lan" },
    { name := "enp3s0", role := some "mgmt", addresses := ["10.0.2.15/24"] },
    { name := "enp3s0", role := some "wan", vlan := some 7, parent := some "enp4s0" }]
  uiExposure := ["enp2s0", "enp3s0"] }

/-- The state is accepted, and a new connection from one WAN to the other is too. -/
theorem wan_to_wan_forwarded :
    (@validate Revalidate.noKeys twoWans).isOk = true ∧ "enp1s0" ∈ wanNames twoWans ∧
      (forwardChain twoWans false).verdict lenient.reading
        { iifname := "enp1s0", oifname := "enp9s0", saddr := .v4 0xc6336401
          daddr := .v4 0xcb007107, transport := .tcp 40000 25 } = some .accept := by
  decide +kernel

theorem wan_forward_closed_twoWans :
    WanForwardClosed twoWans true ∧ ¬WanForwardClosed twoWans false := by
  let _ := Revalidate.noKeys
  have hv : validate twoWans = .ok () := by decide +kernel
  exact ⟨(wan_forward_closed_iff hv true).mpr rfl, fun h =>
    Bool.noConfusion ((wan_forward_closed_iff hv false).mp h)⟩

theorem mgmt_isolated_twoWans : MgmtIsolated twoWans false :=
  letI := Revalidate.noKeys
  mgmt_isolated (by decide +kernel) false

end Forwarding

end Fwos
