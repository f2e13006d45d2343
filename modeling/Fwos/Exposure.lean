import Fwos.Revalidate
import Fwos.RulesetReading

/-!
# The management UI and the WANs

The generated ruleset opens the way to the management netns for the exposed
interfaces by name. `validate` rejects an exposed name whose first entry is a
WAN, while the rules are written per role over all entries. `hidden_iff` says
when a connection from a WAN stays out: no WAN shares its name with an exposed
interface or with the veth to the management netns.
-/

namespace Fwos

open Rust Nft

/-- A new connection from a WAN is neither sent to the management addresses nor
accepted toward them, guarded or not. -/
def ManagementHidden (state : DesiredState) : Prop :=
  ∀ (M : Matches) (recoveryRequired : Bool) (p : Packet),
    p.iifname ∈ wanNames state → p.ct = .new →
      (∀ target, (preroutingChain state).verdict M.reading p ≠ some (.dnat target)) ∧
      (p.oifname = fwdMgmtVeth →
        (forwardChain state recoveryRequired).verdict M.reading p ≠ some .accept)

/-- No WAN is named like an exposed interface or like the veth. -/
def wansApart (state : DesiredState) : Bool :=
  (wanNames state).all fun wan =>
    wan != fwdMgmtVeth && !((uiExposure state).map (·.1)).contains wan

namespace ExposureLemmas

open RulesetReadingLemmas

variable {M : Matches} {p : Packet} {name : String} {rest : Rule}

theorem matches_onInput :
    (onInput name rest).matches M.reading p =
      (name == p.iifname && rest.matches M.reading p) := by
  simp [onInput, Rule.append, Rule.addName, Rule.matches, NameMatch.holds, Matches.reading,
    Bool.and_assoc]

theorem matches_onOutput :
    (onOutput name rest).matches M.reading p =
      (name == p.oifname && rest.matches M.reading p) := by
  simp only [onOutput, Rule.append, Rule.addName, Rule.matches, NameMatch.holds, Matches.reading]
  cases h : name == p.oifname <;> simp [h]

/-- A first verdict is the verdict of a matching rule. -/
theorem exists_of_firstVerdict {rules : List Rule} {verdict : Verdict}
    (h : firstVerdict M.reading rules p = some verdict) :
    ∃ rule ∈ rules, rule.matches M.reading p = true ∧ rule.verdict = some verdict := by
  obtain ⟨rule, hr, hv⟩ := List.exists_of_findSome?_eq_some h
  split at hv
  next hm => exact ⟨rule, hr, hm, hv⟩
  · cases hv

theorem firstVerdict_isSome {rules : List Rule} {rule : Rule} (hr : rule ∈ rules)
    (hm : rule.matches M.reading p = true) (hv : rule.verdict.isSome = true) :
    (firstVerdict M.reading rules p).isSome = true := by
  rw [firstVerdict, List.findSome?_isSome_iff]
  exact ⟨rule, hr, by simpa [hm] using hv⟩

theorem mem_preroutingReading {state : DesiredState} {rule : Rule}
    (h : rule ∈ preroutingReading state) :
    ∃ name ∈ (uiExposure state).map (·.1), ∃ family target others,
      rule = onInput name (dnatRest family target others) := by
  obtain ⟨⟨name, addrs⟩, he, hr⟩ := List.mem_flatMap.mp h
  refine ⟨name, List.mem_map.mpr ⟨_, he, rfl⟩, ?_⟩
  unfold dnatReading at hr
  dsimp only at hr
  split at hr
  · exact ⟨_, _, _, by simpa using hr⟩
  · obtain ⟨ip, -, rfl⟩ := List.mem_map.mp hr
    unfold dnatTo
    split
    · exact ⟨_, _, _, rfl⟩
    · exact ⟨_, _, _, rfl⟩

theorem prerouting_verdict [Base64] {state : DesiredState} (ha : Accepts state) :
    (preroutingChain state).verdict M.reading p =
      some (match firstVerdict M.reading (preroutingReading state) p with
        | none | some .ret => .accept
        | some verdict => verdict) := by
  rw [Chain.verdict, readRules_of_reads (prerouting_reads ha)]
  rfl

theorem forward_verdict [Base64] {state : DesiredState} (ha : Accepts state) (guard : Bool) :
    (forwardChain state guard).verdict M.reading p =
      some (match firstVerdict M.reading (forwardReading state guard) p with
        | none | some .ret => .drop
        | some verdict => verdict) := by
  rw [Chain.verdict, forwardChain, readRules_of_reads (forward_reads ha guard)]
  rfl

/-- What a rule of the forward chain that accepts has matched. -/
theorem forward_accepts {state : DesiredState} {guard : Bool} {rule : Rule}
    (hr : rule ∈ forwardReading state guard) (hm : rule.matches M.reading p = true)
    (hv : rule.verdict = some .accept) :
    p.isReply = true ∨ p.iifname = fwdMgmtVeth ∨
      p.iifname ∈ (uiExposure state).map (·.1) ∨ p.oifname ∈ wanNames state := by
  simp only [forwardReading, List.mem_append, List.mem_cons, List.not_mem_nil, or_false,
    List.mem_map, List.mem_flatMap] at hr
  rcases hr with (((hr | hr | hr) | ⟨exposed, he, rfl⟩) | ⟨mgmt, -, hr⟩) | ⟨wan, hw, rfl⟩
  · split at hr
    · obtain rfl : rule = dropRest := by simpa using hr
      cases hv
    · cases hr
  · subst hr
    have : M.holds establishedTokens p = true := by
      simpa [Rule.matches, acceptRest, Matches.reading, establishedTokens] using hm
    exact .inl (by rwa [M.established] at this)
  · subst hr
    rw [matches_onInput, Bool.and_eq_true, beq_iff_eq] at hm
    exact .inr (.inl hm.1.symm)
  · rw [exposureForward, matches_onInput, Bool.and_eq_true, beq_iff_eq] at hm
    exact .inr (.inr (.inl (List.mem_map.mpr ⟨exposed, he, hm.1⟩)))
  · simp only [mgmtForward, List.mem_cons, List.not_mem_nil, or_false] at hr
    rcases hr with rfl | rfl <;> cases hv
  · rw [matches_onOutput, Bool.and_eq_true, beq_iff_eq] at hm
    exact .inr (.inr (.inr (hm.1 ▸ hw)))

/-- An HTTPS connection to the first exposed address, or to any address if there is
none, matches a DNAT rule. -/
theorem exists_dnat_rule {state : DesiredState} {name : String} {addrs : List String}
    (hmem : (name, addrs) ∈ uiExposure state) :
    ∃ rule ∈ preroutingReading state, ∃ daddr, rule.matches lenient.reading
      { iifname := name, saddr := .v4 0, daddr := daddr, transport := .tcp 40000 443 } = true := by
  have hin : ∀ rule ∈ dnatReading name addrs, rule ∈ preroutingReading state :=
    fun rule hr => List.mem_flatMap.mpr ⟨_, hmem, hr⟩
  have hmatch : ∀ {family target others daddr}, lenientHolds others
      { iifname := name, saddr := .v4 0, daddr := daddr, transport := .tcp 40000 443 } = true →
      (onInput name (dnatRest family target others)).matches lenient.reading
        { iifname := name, saddr := .v4 0, daddr := daddr, transport := .tcp 40000 443 } = true := by
    intro family target others daddr h
    rw [matches_onInput, beq_self_eq_true, Bool.true_and]
    simp only [Rule.matches, dnatRest, Matches.reading, lenient, List.all_nil, Bool.true_and, h,
      Bool.or_true]
  unfold dnatReading at hin
  dsimp only at hin
  split at hin
  · refine ⟨_, hin _ (List.mem_singleton.mpr rfl), .v4 0, hmatch ?_⟩
    exact lenient.https
      { iifname := name, saddr := .v4 0, daddr := .v4 0, transport := .tcp 40000 443 }
  next hne =>
    obtain ⟨ip, hip⟩ := List.exists_mem_of_ne_nil _ fun h => hne (List.isEmpty_iff.mpr h)
    refine ⟨_, hin _ (List.mem_map.mpr ⟨ip, hip, rfl⟩), ?_⟩
    have hallowed := exposeIps_allowed hip
    unfold exposeAllowed at hallowed
    unfold dnatTo
    split at hallowed
    next v4 hv4 =>
      have hcolon : containsChar ip ':' = false := by
        obtain ⟨a, b, c, d, hd, -⟩ := parseIpv4_eq_some.mp hv4
        simpa [containsChar] using hd.not_mem (x := ':') (by decide) (by decide)
      rw [hcolon]
      refine ⟨.v4 v4, hmatch ?_⟩
      change lenient.holds (daddrTokens "ip" ip) _ = true
      rw [lenient.daddr4 ip v4 _ hv4]
      simp [Packet.isHttps]
    next hv4 =>
      split at hallowed
      next v6 hv6 =>
        split
        · refine ⟨.v6 v6, hmatch ?_⟩
          change lenient.holds (daddrTokens "ip6" ip) _ = true
          rw [lenient.daddr6 ip v6 _ hv6]
          simp [Packet.isHttps]
        · refine ⟨.v4 0, hmatch ?_⟩
          have h1 : daddrTokens "ip" ip ≠ establishedTokens := by
            simp [daddrTokens, establishedTokens]
          have h2 : daddrTokens "ip" ip ≠ icmpv6Tokens := by simp [daddrTokens, icmpv6Tokens]
          have h3 : daddrTokens "ip" ip ≠ dhcpv6Tokens := by simp [daddrTokens, dhcpv6Tokens]
          have h4 : daddrTokens "ip" ip ≠ httpsTokens := by simp [daddrTokens, httpsTokens]
          simp only [lenientHolds, h1, h2, h3, h4, if_false]
          simp [daddrTokens, hv4]
      · cases hallowed

/-- An HTTPS connection from an exposed name is sent to the management netns. -/
theorem exists_dnat [Base64] {state : DesiredState} (ha : Accepts state) {name : String}
    (he : name ∈ (uiExposure state).map (·.1)) :
    ∃ p : Packet, p.iifname = name ∧ p.ct = .new ∧ ∃ target,
      (preroutingChain state).verdict lenient.reading p = some (.dnat target) := by
  obtain ⟨⟨name, addrs⟩, hmem, rfl⟩ := List.mem_map.mp he
  obtain ⟨rule, hr, daddr, hm⟩ := exists_dnat_rule hmem
  let p : Packet := { iifname := name, saddr := .v4 0, daddr := daddr, transport := .tcp 40000 443 }
  refine ⟨p, rfl, rfl, ?_⟩
  rw [prerouting_verdict ha]
  have hdnat : ∀ rule ∈ preroutingReading state, ∃ target, rule.verdict = some (.dnat target) := by
    intro rule hr
    obtain ⟨name, -, family, target, others, rfl⟩ := mem_preroutingReading hr
    exact ⟨_, rfl⟩
  obtain ⟨target, hv⟩ := hdnat rule hr
  obtain ⟨first, hfirst⟩ := Option.isSome_iff_exists.mp
    (firstVerdict_isSome hr hm (by rw [hv]; rfl))
  obtain ⟨other, hother, -, hov⟩ := exists_of_firstVerdict hfirst
  obtain ⟨target', ht⟩ := hdnat other hother
  rw [ht] at hov
  refine ⟨target', ?_⟩
  rw [hfirst, ← Option.some.inj hov]

end ExposureLemmas

open ExposureLemmas RulesetReadingLemmas

/-- The management UI is hidden from the WANs of an accepted state exactly if no WAN
has the name of an exposed interface or of the veth. -/
theorem hidden_iff [Base64] {state : DesiredState} (hv : validate state = .ok ()) :
    ManagementHidden state ↔ wansApart state = true := by
  have ha := validate_iff.mp hv
  constructor
  · intro hidden
    by_contra hapart
    obtain ⟨wan, hw, hname⟩ : ∃ wan ∈ wanNames state,
        wan = fwdMgmtVeth ∨ wan ∈ (uiExposure state).map (·.1) := by
      simpa [wansApart, or_iff_not_imp_left] using hapart
    rcases hname with rfl | he
    · let p : Packet := {
        iifname := fwdMgmtVeth, oifname := fwdMgmtVeth, saddr := .v4 0, daddr := .v4 0
        transport := .other }
      apply (hidden lenient false p hw rfl).2 rfl
      rw [forward_verdict ha]
      have hfirst : firstVerdict lenient.reading (forwardReading state false) p = some .accept := by
        have hreply : (acceptRest establishedTokens).matches lenient.reading p = false := rfl
        have hveth : (onInput fwdMgmtVeth (acceptRest [])).matches lenient.reading p = true := rfl
        simp only [forwardReading, Bool.false_eq_true, if_false, List.nil_append, List.append_assoc,
          List.cons_append, firstVerdict, List.findSome?_cons, hreply, hveth, if_true]
        rfl
      rw [hfirst]
    · obtain ⟨p, rfl, hnew, target, hdnat⟩ := exists_dnat ha he
      exact (hidden lenient false p hw hnew).1 target hdnat
  · intro hapart M guard p hw hnew
    have hp := List.all_eq_true.mp hapart _ hw
    simp only [Bool.and_eq_true, bne_iff_ne, Bool.not_eq_true', List.contains_eq_mem,
      decide_eq_false_iff_not] at hp
    constructor
    · intro target hdnat
      rw [prerouting_verdict ha] at hdnat
      cases hf : firstVerdict M.reading (preroutingReading state) p with
      | none => simp [hf] at hdnat
      | some verdict =>
        obtain ⟨rule, hr, hm, -⟩ := exists_of_firstVerdict hf
        obtain ⟨name, hname, family, target, others, rfl⟩ := mem_preroutingReading hr
        rw [matches_onInput, Bool.and_eq_true, beq_iff_eq] at hm
        exact hp.2 (hm.1 ▸ hname)
    · intro ho haccept
      rw [forward_verdict ha] at haccept
      cases hf : firstVerdict M.reading (forwardReading state guard) p with
      | none => simp [hf] at haccept
      | some verdict =>
        obtain ⟨rule, hr, hm, hverdict⟩ := exists_of_firstVerdict hf
        obtain rfl : verdict = .accept := by
          rw [hf] at haccept
          cases verdict <;> simp_all
        rcases forward_accepts hr hm hverdict with h | h | h | h
        · simp [Packet.isReply, hnew] at h
        · exact hp.1 h
        · exact hp.2 h
        · have := List.all_eq_true.mp hapart _ h
          simp [ho] at this

namespace Exposure

/-- The name of an exposed LAN and of a VLAN WAN on another parent. -/
def sharedName : DesiredState := {
  interfaces := [
    { name := "enp1s0", role := some "lan", addresses := ["192.168.1.1/24"] },
    { name := "enp1s0", role := some "wan", vlan := some 100, parent := some "enp9s0" }]
  uiExposure := ["enp1s0"] }

/-- The state is accepted, and a new HTTPS connection from its WAN is sent to the
management address. -/
theorem shared_name_reached :
    (@validate Revalidate.noKeys sharedName).isOk = true ∧ "enp1s0" ∈ wanNames sharedName ∧
      (preroutingChain sharedName).verdict lenient.reading
        { iifname := "enp1s0", saddr := .v4 0xc6336401, daddr := .v4 0xc0a80101
          transport := .tcp 40000 443 } =
        some (.dnat [.word "ip", .word "to", .word "169.254.127.6"]) := by
  decide +kernel

def separateNames : DesiredState := {
  interfaces := [
    { name := "enp1s0", role := some "lan", addresses := ["192.168.1.1/24"] },
    { name := "enp9s0", role := some "wan" }]
  uiExposure := ["enp1s0"] }

theorem hidden_separate_names : ManagementHidden separateNames :=
  letI := Revalidate.noKeys
  (hidden_iff (by decide +kernel)).mpr (by decide +kernel)

end Exposure

end Fwos
