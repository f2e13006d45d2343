import Fwos.Netd.Apply
import Fwos.RulesetReading
import Fwos.Rust.Ipv6Text

/-!
# The first-boot ruleset

Before an appliance is bootstrapped, its UI is offered on one NIC. The prerouting
chains of `first_boot_nft` send the connections to the offered addresses on to the
management netns, and a guard in a table of its own drops what reaches the veth by
any other way. The tables share their hooks: a packet that one base chain drops is
gone, and an accept ends the chain it stands in.

* `bootstrap_ui_reachable`: what passes the hooks, for every NIC and its addresses.
-/

namespace Fwos

open Rust Nft RulesetReadingLemmas

/-! ## Packets of tracked connections -/

/-- A packet with what conntrack knows of its connection. -/
structure TrackedPacket extends Packet where
  /-- The connection was DNATed. -/
  dnat : Bool
  /-- The destination before any NAT. -/
  original : IpAddr
deriving DecidableEq, Repr

def originalTokens (family ip : String) : List Token :=
  httpsTokens ++ ["ct", "status", "dnat", "ct", "original", family, "daddr", ip].map .word

/-- A meaning of the matches in the first-boot rules, as nft documents them. -/
structure TrackedMatches where
  holds : List Token → TrackedPacket → Bool
  https : ∀ p, holds httpsTokens p = p.isHttps
  daddr4 : ∀ ip address p, parseIpv4 ip = some address →
    holds (daddrTokens "ip" ip) p = (p.daddr == .v4 address && p.isHttps)
  daddr6 : ∀ ip address p, parseIpv6 ip = some address →
    holds (daddrTokens "ip6" ip) p = (p.daddr == .v6 address && p.isHttps)
  original4 : ∀ ip address p, parseIpv4 ip = some address →
    holds (originalTokens "ip" ip) p = (p.isHttps && p.dnat && p.original == .v4 address)
  original6 : ∀ ip address p, parseIpv6 ip = some address →
    holds (originalTokens "ip6" ip) p = (p.isHttps && p.dnat && p.original == .v6 address)

def TrackedMatches.reading (M : TrackedMatches) : Reading TrackedPacket :=
  ⟨(·.iifname), (·.oifname), M.holds⟩

/-! ## Hooks -/

/-- The tables of its own family and of `inet` see a packet. -/
def seesPacket (table : Table) (p : Packet) : Bool :=
  table.family == "inet" || table.family == (if p.daddr.isIpv4 then "ip" else "ip6")

/-- Every base chain of the forward hook that sees the packet lets it through. -/
def PassesForward (R : Reading TrackedPacket) (tables : List Table) (p : TrackedPacket) : Prop :=
  ∀ table ∈ tables, seesPacket table p.toPacket = true → ∀ chain ∈ table.chains,
    chain.hook = "forward" → chain.verdict R p = some .accept

/-- A prerouting chain that sees the packet changes its destination. -/
def Dnats (R : Reading TrackedPacket) (tables : List Table) (p : TrackedPacket)
    (target : List Token) : Prop :=
  ∃ table ∈ tables, seesPacket table p.toPacket = true ∧ ∃ chain ∈ table.chains,
    chain.hook = "prerouting" ∧ chain.verdict R p = some (.dnat target)

/-! ## What is offered -/

/-- RFC 1918 and IPv6 unique local addresses. -/
def isPrivate : IpAddr → Bool
  | .v4 address => address >>> 24 == 0x0a || address >>> 20 == 0xac1 || address >>> 16 == 0xc0a8
  | .v6 address => address >>> 121 == 0x7e

/-- The private addresses of a list of CIDRs. -/
def Offered (cidrs : List String) (address : IpAddr) : Prop :=
  isPrivate address = true ∧ ∃ cidr ∈ cidrs, parseIp (beforeSlash cidr) = some address

/-- The tables that `program_first_boot_nft` leaves. -/
def firstBootTables (nic : String) (cidrs : List String) : List Table :=
  runScript (firstBootNft nic (bootstrapExposeIps cidrs)) []

/-- The management netns in the family of an address. -/
def mgmtTarget (address : IpAddr) : List Token :=
  if address.isIpv4 then [.word "ip", .word "to", .word mgmtFwdIp]
  else [.word "ip6", .word "to", .word mgmtFwdIp6]

namespace FirstBootLemmas

/-! ## The offered addresses -/

theorem mem_exposed {ip added : String} {out : List String} :
    ip ∈ (if exposeAllowed added && !out.contains added then out ++ [added] else out) ↔
      ip ∈ out ∨ exposeAllowed ip = true ∧ added = ip := by
  by_cases he : added = ip
  · subst he
    cases ha : exposeAllowed added with
    | false => simp
    | true => by_cases hm : added ∈ out <;> simp [hm]
  · have hne : ip ≠ added := Ne.symm he
    split <;> simp [he, hne]

theorem mem_exposeIps {cidrs : List String} {ip : String} :
    ip ∈ exposeIps cidrs ↔ exposeAllowed ip = true ∧ ∃ cidr ∈ cidrs, beforeSlash cidr = ip := by
  have fold : ∀ (cidrs out : List String),
      ip ∈ cidrs.foldl (fun out cidr =>
        let ip := beforeSlash cidr
        if exposeAllowed ip && !out.contains ip then out ++ [ip] else out) out ↔
      ip ∈ out ∨ exposeAllowed ip = true ∧ ∃ cidr ∈ cidrs, beforeSlash cidr = ip := by
    intro cidrs
    induction cidrs with
    | nil => simp
    | cons cidr cidrs ih =>
      intro out
      rw [List.foldl_cons, ih, mem_exposed, or_assoc, ← and_or_left]
      simp
  have := fold cidrs []
  simp only [List.not_mem_nil, false_or] at this
  exact this

theorem isPrivate_v4 {address : Ipv4Addr} :
    isPrivate (.v4 address) = true ↔
      (octets address).1 = 10 ∨
      ((octets address).1 = 172 ∧ 16 ≤ (octets address).2.1 ∧ (octets address).2.1 ≤ 31) ∨
      ((octets address).1 = 192 ∧ (octets address).2.1 = 168) := by
  simp only [isPrivate, octets, Bool.or_eq_true, beq_iff_eq, ← BitVec.toNat_inj,
    BitVec.toNat_ushiftRight, Nat.shiftRight_eq_div_pow, BitVec.ofNat_eq_ofNat, BitVec.toNat_ofNat]
  have := address.isLt
  omega

theorem parseIpv6_of_parseIp {text : String} {address : Ipv6Addr}
    (h : parseIp text = some (.v6 address)) :
    parseIpv4 text = none ∧ parseIpv6 text = some address := by
  refine ⟨?_, ?_⟩
  · cases hv : parseIpv4 text with
    | none => rfl
    | some v4 =>
      rw [parseIp_eq_v4.mpr hv] at h
      cases h
  · unfold parseIp parseAll at h
    split at h
    next value hr =>
      obtain rfl := Option.some.inj h
      split at hr
      · cases hr
      · obtain ⟨⟨read, rest⟩, h6, heq⟩ := Option.map_eq_some_iff.mp hr
        obtain ⟨hread, rfl⟩ := Prod.mk.inj heq
        obtain rfl : read = address := by simpa using hread
        rw [parseIpv6, h6]
        rfl
    · cases h

/-- A private address is one that may be exposed. -/
theorem exposeAllowed_of_isPrivate {ip : String} {address : IpAddr} (hp : parseIp ip = some address)
    (h : isPrivate address = true) : exposeAllowed ip = true := by
  unfold exposeAllowed
  cases address with
  | v4 address =>
    rw [isPrivate_v4] at h
    rw [parseIp_eq_v4.mp hp]
    have hzero : (address == 0) = false := beq_eq_false_iff_ne.mpr fun he => by
      subst he
      revert h
      decide
    have hones : (address == BitVec.allOnes 32) = false := beq_eq_false_iff_ne.mpr fun he => by
      subst he
      revert h
      decide
    obtain ⟨a, b, c, d⟩ := octets address
    simp only [hzero, hones, Bool.or_false, Bool.and_eq_true, Bool.not_eq_true',
      Bool.or_eq_false_iff, Bool.and_eq_false_iff, beq_eq_false_iff_ne, decide_eq_false_iff_not] at h ⊢
    omega
  | v6 address =>
    obtain ⟨h4, h6⟩ := parseIpv6_of_parseIp hp
    have hshift : address.toNat / 2 ^ 121 = 0x7e := by
      have := congrArg BitVec.toNat (beq_iff_eq.mp h)
      simpa [Nat.shiftRight_eq_div_pow] using this
    have hone : (address == 1) = false := beq_eq_false_iff_ne.mpr fun he => by
      subst he
      simp at hshift
    have hzero : (address == 0) = false := beq_eq_false_iff_ne.mpr fun he => by
      subst he
      simp at hshift
    have hmulticast : IpAddr.isMulticast (.v6 address) = false :=
      beq_eq_false_iff_ne.mpr fun he => by
        have := congrArg BitVec.toNat he
        simp only [BitVec.toNat_ushiftRight, Nat.shiftRight_eq_div_pow, BitVec.ofNat_eq_ofNat,
          BitVec.toNat_ofNat] at this
        omega
    simp only [h4, h6, hone, hzero, hmulticast]
    rfl

theorem mem_bootstrapExposeIps {cidrs : List String} {ip : String} :
    ip ∈ bootstrapExposeIps cidrs ↔
      (∃ address, parseIp ip = some address ∧ isPrivate address = true) ∧
        ∃ cidr ∈ cidrs, beforeSlash cidr = ip := by
  have hfilter : ip ∈ bootstrapExposeIps cidrs ↔ ip ∈ exposeIps cidrs ∧
      ∃ address, parseIp ip = some address ∧ isPrivate address = true := by
    rw [bootstrapExposeIps, List.mem_filter]
    refine and_congr_right fun _ => ?_
    split
    next address hp => simp [isPrivate_v4, hp, or_assoc, and_assoc]
    next address hp => simp [isPrivate, hp]
    next hp => simp [hp]
  rw [hfilter, mem_exposeIps]
  constructor
  · rintro ⟨⟨-, hc⟩, hp⟩
    exact ⟨hp, hc⟩
  · rintro ⟨⟨address, hp, hl⟩, hc⟩
    exact ⟨⟨exposeAllowed_of_isPrivate hp hl, hc⟩, address, hp, hl⟩

/-! ## How nft reads the rules -/

/-- The guard rule of one address. -/
def guardAccept (nic ip : String) : Rule :=
  onInput nic {
    oifname := [⟨fwdMgmtVeth, false⟩]
    others := originalTokens (if containsChar ip ':' then "ip6" else "ip") ip
    verdict := some .accept }

def guardDrop : Rule := onOutput fwdMgmtVeth { others := httpsTokens, verdict := some .drop }

theorem rest_original {family ip : String} (hw : IsPlainWord ip)
    (hf : family = "ip" ∨ family = "ip6") :
    ReadsRest ('"' :: ((s!" oifname \"{fwdMgmtVeth}\" tcp dport 443 ct status dnat ct original {family} daddr ").toList ++
        (ip.toList ++ ' ' :: "accept".toList)))
      { oifname := [⟨fwdMgmtVeth, false⟩], others := originalTokens family ip
        verdict := some .accept } := by
  have hr := readsRest_word_after
    (s!" oifname \"{fwdMgmtVeth}\" tcp dport 443 ct status dnat ct original {family} daddr ").toList
    "accept".toList
    ([.word "oifname", .quoted fwdMgmtVeth] ++ httpsTokens ++
      ["ct", "status", "dnat", "ct", "original", family, "daddr"].map .word) acceptTokens
    { oifname := [⟨fwdMgmtVeth, false⟩]
      others := httpsTokens ++ ["ct", "status", "dnat", "ct", "original", family, "daddr"].map .word }
    (acceptRest []) hw (by rcases hf with rfl | rfl <;> decide +kernel)
    (by rcases hf with rfl | rfl <;> decide +kernel) rfl (by decide +kernel) (by decide +kernel)
  exact hr

theorem guardAccept_reads {nic ip : String} (hn : '"' ∉ nic.toList) (hw : IsPlainWord ip) :
    Reads (let family := if containsChar ip ':' then "ip6" else "ip"
        s!"iifname \"{nic}\" oifname \"{fwdMgmtVeth}\" tcp dport 443 ct status dnat ct original {family} daddr {ip} accept")
      (guardAccept nic ip) := by
  have hf : (if containsChar ip ':' then "ip6" else "ip") = "ip" ∨
      (if containsChar ip ':' then "ip6" else "ip") = "ip6" := by
    split
    · exact .inr rfl
    · exact .inl rfl
  generalize hfam : (if containsChar ip ':' then "ip6" else "ip") = family at hf
  simp only [guardAccept, hfam]
  refine reads_name false
    (s!"\" oifname \"{fwdMgmtVeth}\" tcp dport 443 ct status dnat ct original {family} daddr " ++
      (ip ++ " accept"))
    (by simp only [String.append_assoc]; rfl) hn ?_
  have hr := rest_original hw hf
  simp only [String.toList_append] at hr ⊢
  exact hr

theorem guardDrop_reads :
    Reads s!"oifname \"{fwdMgmtVeth}\" tcp dport 443 drop" guardDrop :=
  ⟨.word "oifname" :: .quoted "f0mgmt" :: (httpsTokens ++ [.word "drop"]), by decide +kernel,
    by decide, rfl⟩

/-! ## What the rules match -/

section

variable {M : TrackedMatches} {p : TrackedPacket} {ip : String} {address : IpAddr}

theorem containsChar_colon (hp : parseIp ip = some address) :
    containsChar ip ':' = !address.isIpv4 := by
  have := colon_mem_iff hp
  rw [Bool.eq_iff_iff, Bool.not_eq_true', ← this]
  simp [containsChar]

theorem holds_original (hp : parseIp ip = some address) :
    M.holds (originalTokens (if containsChar ip ':' then "ip6" else "ip") ip) p =
      (p.isHttps && p.dnat && p.original == address) := by
  rw [containsChar_colon hp]
  cases address with
  | v4 address => exact M.original4 ip address p (parseIp_eq_v4.mp hp)
  | v6 address => exact M.original6 ip address p (parseIpv6_of_parseIp hp).2

theorem guardAccept_matches {nic : String} (hp : parseIp ip = some address) :
    (guardAccept nic ip).matches M.reading p =
      (nic == p.iifname && fwdMgmtVeth == p.oifname &&
        (p.isHttps && p.dnat && p.original == address)) := by
  have hempty : ∀ family, (originalTokens family ip).isEmpty = false := fun _ => rfl
  simp [guardAccept, onInput, Rule.append, Rule.addName, Rule.matches, NameMatch.holds,
    TrackedMatches.reading, hempty, holds_original hp]

theorem guardDrop_matches :
    guardDrop.matches M.reading p = (fwdMgmtVeth == p.oifname && p.isHttps) := by
  have hempty : httpsTokens.isEmpty = false := rfl
  simp [guardDrop, onOutput, Rule.append, Rule.addName, Rule.matches, NameMatch.holds,
    TrackedMatches.reading, hempty, M.https]

theorem dnatTo_eq {nic : String} (hp : parseIp ip = some address) :
    dnatTo nic ip = onInput nic {
      others := daddrTokens (if address.isIpv4 then "ip" else "ip6") ip
      verdict := some (.dnat (mgmtTarget address)) } := by
  rw [dnatTo, containsChar_colon hp]
  cases address <;> rfl

theorem dnatTo_matches {nic : String} (hp : parseIp ip = some address) :
    (dnatTo nic ip).matches M.reading p =
      (nic == p.iifname && (p.daddr == address && p.isHttps)) := by
  have hdaddr : M.holds (daddrTokens (if address.isIpv4 then "ip" else "ip6") ip) p =
      (p.daddr == address && p.isHttps) := by
    cases address with
    | v4 address => exact M.daddr4 ip address p (parseIp_eq_v4.mp hp)
    | v6 address => exact M.daddr6 ip address p (parseIpv6_of_parseIp hp).2
  have hempty : ∀ family, (daddrTokens family ip).isEmpty = false := fun _ => rfl
  simp [dnatTo_eq hp, onInput, Rule.append, Rule.addName, Rule.matches, NameMatch.holds,
    TrackedMatches.reading, hempty, hdaddr]

/-- Where every rule has one verdict, a packet gets it if some rule matches. -/
theorem firstVerdict_uniform {α : Type} {R : Reading α} {rules : List Rule} {q : α}
    {verdict : Verdict} (h : ∀ rule ∈ rules, rule.verdict = some verdict) :
    firstVerdict R rules q = if rules.any (·.matches R q) then some verdict else none := by
  induction rules with
  | nil => rfl
  | cons rule rules ih =>
    simp only [List.mem_cons, forall_eq_or_imp] at h
    simp only [firstVerdict] at ih
    simp only [firstVerdict, List.findSome?_cons, h.1, ih h.2, List.any_cons]
    by_cases hm : rule.matches R q = true <;> simp [hm]

theorem firstVerdict_append {α : Type} {R : Reading α} {front rules : List Rule} {q : α} :
    firstVerdict R (front ++ rules) q = (firstVerdict R front q).or (firstVerdict R rules q) :=
  List.findSome?_append

end

/-! ## The tables -/

def guardChain (nic : String) (ips : List String) : Chain := {
  name := "forward", type := "filter", hook := "forward", priority := "filter", policy := .accept
  rules := (ips.map fun ip =>
    let family := if containsChar ip ':' then "ip6" else "ip"
    s!"iifname \"{nic}\" oifname \"{fwdMgmtVeth}\" tcp dport 443 ct status dnat ct original {family} daddr {ip} accept")
    ++ [s!"oifname \"{fwdMgmtVeth}\" tcp dport 443 drop"] }

def natChain (family nic target : String) (ips : List String) : Chain := {
  name := "prerouting", type := "nat", hook := "prerouting", priority := "dstnat", policy := .accept
  rules := ips.map fun ip =>
    s!"iifname \"{nic}\" {family} daddr {ip} tcp dport 443 dnat {family} to {target}" }

def openChain (nic : String) : Chain := {
  name := "forward", type := "filter", hook := "forward", priority := "filter", policy := .accept
  rules := [exposureForwardRule nic] }

theorem mem_firstBootTable {family nic target : String} {ips : List String} {command : Command} :
    command ∈ firstBootTable family nic target ips ↔
      ips ≠ [] ∧ command =
        .add ⟨family, "fwos-first-boot", [natChain family nic target ips, openChain nic]⟩ := by
  unfold firstBootTable
  split
  next h => simp [List.isEmpty_iff.mp h]
  next h =>
    rw [List.mem_singleton]
    exact (and_iff_right (mt List.isEmpty_iff.mpr h)).symm

theorem runScript_adds {script : List Command} {tables : List Table}
    (h : ∀ command ∈ script, ∃ table, command = .add table) (table : Table) :
    table ∈ runScript script tables ↔ table ∈ tables ∨ .add table ∈ script := by
  induction script generalizing tables with
  | nil => simp [runScript]
  | cons command script ih =>
    simp only [List.mem_cons, forall_eq_or_imp] at h
    obtain ⟨⟨first, rfl⟩, hrest⟩ := h
    have hrun : runScript (.add first :: script) tables = runScript script (tables ++ [first]) := rfl
    rw [hrun, ih hrest]
    simp [or_assoc]

theorem mem_firstBootTables {nic : String} {cidrs : List String} {table : Table} :
    table ∈ firstBootTables nic cidrs ↔
      table = ⟨"inet", "fwos-first-boot", [guardChain nic (bootstrapExposeIps cidrs)]⟩ ∨
      ((bootstrapExposeIps cidrs).filter (!containsChar · ':') ≠ [] ∧
        table = ⟨"ip", "fwos-first-boot",
          [natChain "ip" nic mgmtFwdIp ((bootstrapExposeIps cidrs).filter (!containsChar · ':')),
            openChain nic]⟩) ∨
      ((bootstrapExposeIps cidrs).filter (containsChar · ':') ≠ [] ∧
        table = ⟨"ip6", "fwos-first-boot",
          [natChain "ip6" nic mgmtFwdIp6 ((bootstrapExposeIps cidrs).filter (containsChar · ':')),
            openChain nic]⟩) := by
  have hscript : ∀ command, command ∈ firstBootNft nic (bootstrapExposeIps cidrs) ↔
      command = .add ⟨"inet", "fwos-first-boot", [guardChain nic (bootstrapExposeIps cidrs)]⟩ ∨
      command ∈ firstBootTable "ip" nic mgmtFwdIp
        ((bootstrapExposeIps cidrs).filter (!containsChar · ':')) ∨
      command ∈ firstBootTable "ip6" nic mgmtFwdIp6
        ((bootstrapExposeIps cidrs).filter (containsChar · ':')) := by
    intro command
    rw [firstBootNft, List.mem_append, List.mem_append, List.mem_singleton, or_assoc]
    rfl
  rw [firstBootTables, runScript_adds]
  · simp only [List.not_mem_nil, false_or, hscript, mem_firstBootTable, Command.add.injEq]
  · intro command hc
    rcases (hscript command).mp hc with rfl | hc | hc
    · exact ⟨_, rfl⟩
    · exact ⟨_, (mem_firstBootTable.mp hc).2⟩
    · exact ⟨_, (mem_firstBootTable.mp hc).2⟩

/-! ## The verdicts -/

section

variable {R : Reading TrackedPacket} {p : TrackedPacket} {nic : String}

theorem openChain_verdict (hn : '"' ∉ nic.toList) : (openChain nic).verdict R p = some .accept := by
  have hr : readRules [exposureForwardRule nic] = some [exposureForward nic] :=
    readRules_of_reads (.cons (exposureForward_reads hn) .nil)
  have hfirst : firstVerdict R [exposureForward nic] p =
      if [exposureForward nic].any (·.matches R p) then some .accept else none :=
    firstVerdict_uniform (by simp [exposureForward, onInput, Rule.append])
  rw [Chain.verdict, openChain, hr, Option.map_some, hfirst]
  cases [exposureForward nic].any (·.matches R p) <;> rfl

theorem guardChain_verdict (hn : '"' ∉ nic.toList) {ips : List String}
    (hw : ∀ ip ∈ ips, IsPlainWord ip) :
    (guardChain nic ips).verdict R p = some (
      if (ips.map (guardAccept nic)).any (·.matches R p) then .accept
      else if guardDrop.matches R p then .drop else .accept) := by
  have hr : readRules (guardChain nic ips).rules = some (ips.map (guardAccept nic) ++ [guardDrop]) :=
    readRules_of_reads (List.rel_append
      (forall₂_map fun ip hip => guardAccept_reads hn (hw ip hip)) (.cons guardDrop_reads .nil))
  have haccept : firstVerdict R (ips.map (guardAccept nic)) p =
      if (ips.map (guardAccept nic)).any (·.matches R p) then some .accept else none :=
    firstVerdict_uniform (by simp [guardAccept, onInput, Rule.append])
  have hdrop : firstVerdict R [guardDrop] p =
      if [guardDrop].any (·.matches R p) then some .drop else none :=
    firstVerdict_uniform (by simp [guardDrop, onOutput, Rule.append])
  rw [Chain.verdict, hr, Option.map_some, firstVerdict_append, haccept, hdrop]
  cases (ips.map (guardAccept nic)).any (·.matches R p) <;> cases hd : guardDrop.matches R p <;>
    simp [hd, guardChain]

theorem natChain_verdict (hn : '"' ∉ nic.toList) {family target : String} {ips : List String}
    (hw : ∀ ip ∈ ips, IsPlainWord ip)
    (hf : ∀ ip ∈ ips, dnatRule nic ip =
      s!"iifname \"{nic}\" {family} daddr {ip} tcp dport 443 dnat {family} to {target}")
    (hv : ∀ ip ∈ ips, (dnatTo nic ip).verdict =
      some (.dnat [.word family, .word "to", .word target])) :
    (natChain family nic target ips).verdict R p = some (
      if (ips.map (dnatTo nic)).any (·.matches R p) then
        .dnat [.word family, .word "to", .word target]
      else .accept) := by
  have hr : readRules (natChain family nic target ips).rules = some (ips.map (dnatTo nic)) :=
    readRules_of_reads (forall₂_map fun ip hip => hf ip hip ▸ dnat_reads hn (hw ip hip))
  have hfirst : firstVerdict R (ips.map (dnatTo nic)) p =
      if (ips.map (dnatTo nic)).any (·.matches R p) then
        some (.dnat [.word family, .word "to", .word target]) else none :=
    firstVerdict_uniform (by simpa using hv)
  rw [Chain.verdict, hr, Option.map_some, hfirst]
  cases (ips.map (dnatTo nic)).any (·.matches R p) <;> rfl

end

/-! ## The offered packets -/

section

variable {M : TrackedMatches} {p : TrackedPacket} {nic : String} {cidrs : List String}

theorem exists_parse {ip : String} (h : ip ∈ bootstrapExposeIps cidrs) :
    IsPlainWord ip ∧ ∃ address, parseIp ip = some address ∧ Offered cidrs address := by
  obtain ⟨⟨address, hp, hl⟩, cidr, hc, rfl⟩ := mem_bootstrapExposeIps.mp h
  exact ⟨plainWord_of_exposeAllowed (exposeAllowed_of_isPrivate hp hl), address, hp, hl, cidr, hc, hp⟩

theorem exists_ip {address : IpAddr} (h : Offered cidrs address) :
    ∃ ip ∈ bootstrapExposeIps cidrs, parseIp ip = some address := by
  obtain ⟨hl, cidr, hc, hp⟩ := h
  exact ⟨_, mem_bootstrapExposeIps.mpr ⟨⟨address, hp, hl⟩, cidr, hc, rfl⟩, hp⟩

theorem guardAccept_any (ho : p.oifname = fwdMgmtVeth) (hh : p.isHttps = true) :
    ((bootstrapExposeIps cidrs).map (guardAccept nic)).any (·.matches M.reading p) = true ↔
      p.iifname = nic ∧ p.dnat = true ∧ Offered cidrs p.original := by
  simp only [List.any_map, List.any_eq_true, Function.comp_def]
  constructor
  · rintro ⟨ip, hip, hm⟩
    obtain ⟨-, address, hp, hoff⟩ := exists_parse hip
    simp only [guardAccept_matches hp, Bool.and_eq_true, beq_iff_eq] at hm
    obtain ⟨⟨hn, -⟩, ⟨-, hd⟩, hor⟩ := hm
    exact ⟨hn.symm, hd, hor ▸ hoff⟩
  · rintro ⟨hn, hd, hoff⟩
    obtain ⟨ip, hip, hp⟩ := exists_ip hoff
    refine ⟨ip, hip, ?_⟩
    simp [guardAccept_matches hp, hn, ho, hh, hd]

theorem dnatTo_any {ips : List String} (hips : ∀ ip ∈ ips, ip ∈ bootstrapExposeIps cidrs) :
    (ips.map (dnatTo nic)).any (·.matches M.reading p) = true ↔
      p.isHttps = true ∧ p.iifname = nic ∧ ∃ ip ∈ ips, parseIp ip = some p.daddr := by
  simp only [List.any_map, List.any_eq_true, Function.comp_def]
  constructor
  · rintro ⟨ip, hip, hm⟩
    obtain ⟨-, address, hp, -⟩ := exists_parse (hips ip hip)
    simp only [dnatTo_matches hp, Bool.and_eq_true, beq_iff_eq] at hm
    exact ⟨hm.2.2, hm.1.symm, ip, hip, hm.2.1 ▸ hp⟩
  · rintro ⟨hh, hn, ip, hip, hp⟩
    exact ⟨ip, hip, by simp [dnatTo_matches hp, hn, hh]⟩

theorem mem_family {address : IpAddr} {ip : String} (hp : parseIp ip = some address)
    (hip : ip ∈ bootstrapExposeIps cidrs) :
    (ip ∈ (bootstrapExposeIps cidrs).filter (!containsChar · ':') ↔ address.isIpv4 = true) ∧
      (ip ∈ (bootstrapExposeIps cidrs).filter (containsChar · ':') ↔ address.isIpv4 = false) := by
  simp [List.mem_filter, hip, containsChar_colon hp]

theorem natChain4_verdict (hn : '"' ∉ nic.toList) :
    (natChain "ip" nic mgmtFwdIp
        ((bootstrapExposeIps cidrs).filter (!containsChar · ':'))).verdict M.reading p = some (
      if (((bootstrapExposeIps cidrs).filter (!containsChar · ':')).map (dnatTo nic)).any
          (·.matches M.reading p) then .dnat [.word "ip", .word "to", .word mgmtFwdIp]
      else .accept) := by
  have hcolon : ∀ ip ∈ (bootstrapExposeIps cidrs).filter (!containsChar · ':'),
      containsChar ip ':' = false := fun ip hip => by simpa using (List.mem_filter.mp hip).2
  refine natChain_verdict hn ?_ ?_ ?_
  · exact fun ip hip => (exists_parse (List.mem_of_mem_filter hip)).1
  · intro ip hip
    simp only [dnatRule, hcolon ip hip, Bool.false_eq_true, if_false, ← String.toList_inj]
    simp
    rfl
  · exact fun ip hip => by simp only [dnatTo, hcolon ip hip, Bool.false_eq_true, if_false]; rfl

theorem natChain6_verdict (hn : '"' ∉ nic.toList) :
    (natChain "ip6" nic mgmtFwdIp6
        ((bootstrapExposeIps cidrs).filter (containsChar · ':'))).verdict M.reading p = some (
      if (((bootstrapExposeIps cidrs).filter (containsChar · ':')).map (dnatTo nic)).any
          (·.matches M.reading p) then .dnat [.word "ip6", .word "to", .word mgmtFwdIp6]
      else .accept) := by
  have hcolon : ∀ ip ∈ (bootstrapExposeIps cidrs).filter (containsChar · ':'),
      containsChar ip ':' = true := fun ip hip => (List.mem_filter.mp hip).2
  refine natChain_verdict hn ?_ ?_ ?_
  · exact fun ip hip => (exists_parse (List.mem_of_mem_filter hip)).1
  · intro ip hip
    simp only [dnatRule, hcolon ip hip, if_true, ← String.toList_inj]
    simp
    rfl
  · exact fun ip hip => by simp only [dnatTo, hcolon ip hip, if_true]; rfl

/-- What passes the guard and the open chains. -/
theorem passesForward_iff (hn : '"' ∉ nic.toList) (ho : p.oifname = fwdMgmtVeth)
    (hh : p.isHttps = true) :
    PassesForward M.reading (firstBootTables nic cidrs) p ↔
      p.iifname = nic ∧ p.dnat = true ∧ Offered cidrs p.original := by
  have hguard := guardChain_verdict (R := M.reading) (p := p) hn
    fun ip hip => (@exists_parse cidrs ip hip).1
  rw [← @guardAccept_any M p nic cidrs ho hh]
  constructor
  · intro h
    have hv := h _ (mem_firstBootTables.mpr (.inl rfl)) rfl _ (List.mem_singleton.mpr rfl) rfl
    rw [hguard] at hv
    split at hv
    next hany => exact hany
    · simp [guardDrop_matches, ho, hh] at hv
  · intro h table ht _ chain hc hhook
    rcases mem_firstBootTables.mp ht with rfl | ⟨-, rfl⟩ | ⟨-, rfl⟩
    · obtain rfl := List.mem_singleton.mp hc
      rw [hguard, h]
      rfl
    · rcases List.mem_pair.mp hc with rfl | rfl
      · simp [natChain] at hhook
      · exact openChain_verdict hn
    · rcases List.mem_pair.mp hc with rfl | rfl
      · simp [natChain] at hhook
      · exact openChain_verdict hn

/-- What the prerouting chains of the two families send on. -/
theorem dnats_iff (hn : '"' ∉ nic.toList) {target : List Token} :
    Dnats M.reading (firstBootTables nic cidrs) p target ↔
      p.isHttps = true ∧ p.iifname = nic ∧ Offered cidrs p.daddr ∧ target = mgmtTarget p.daddr := by
  constructor
  · rintro ⟨table, ht, -, chain, hc, hhook, hv⟩
    rcases mem_firstBootTables.mp ht with rfl | ⟨-, rfl⟩ | ⟨-, rfl⟩
    · obtain rfl := List.mem_singleton.mp hc
      simp [guardChain] at hhook
    · rcases List.mem_pair.mp hc with rfl | rfl
      · rw [natChain4_verdict hn] at hv
        split at hv
        next hany =>
          obtain ⟨hh, hi, ip, hip, hp⟩ := (dnatTo_any fun ip => List.mem_of_mem_filter).mp hany
          obtain ⟨-, address, hp', hoff⟩ := exists_parse (List.mem_of_mem_filter hip)
          obtain rfl : p.daddr = address := Option.some.inj (hp.symm.trans hp')
          have h4 := (mem_family hp (List.mem_of_mem_filter hip)).1.mp hip
          refine ⟨hh, hi, hoff, ?_⟩
          rw [mgmtTarget, h4]
          simpa [eq_comm] using hv
        · cases hv
      · simp [openChain] at hhook
    · rcases List.mem_pair.mp hc with rfl | rfl
      · rw [natChain6_verdict hn] at hv
        split at hv
        next hany =>
          obtain ⟨hh, hi, ip, hip, hp⟩ := (dnatTo_any fun ip => List.mem_of_mem_filter).mp hany
          obtain ⟨-, address, hp', hoff⟩ := exists_parse (List.mem_of_mem_filter hip)
          obtain rfl : p.daddr = address := Option.some.inj (hp.symm.trans hp')
          have h6 := (mem_family hp (List.mem_of_mem_filter hip)).2.mp hip
          refine ⟨hh, hi, hoff, ?_⟩
          rw [mgmtTarget, h6]
          simpa [eq_comm] using hv
        · cases hv
      · simp [openChain] at hhook
  · rintro ⟨hh, hi, hoff, rfl⟩
    obtain ⟨ip, hip, hp⟩ := exists_ip hoff
    cases hf : p.daddr.isIpv4 with
    | true =>
      have hm := (mem_family hp hip).1.mpr hf
      refine ⟨_, mem_firstBootTables.mpr (.inr (.inl ⟨List.ne_nil_of_mem hm, rfl⟩)),
        by simp [seesPacket, hf], _, List.mem_cons_self, rfl, ?_⟩
      have hany := (dnatTo_any (M := M) fun ip => List.mem_of_mem_filter).mpr
        ⟨hh, hi, ip, hm, hp⟩
      rw [natChain4_verdict hn, hany, mgmtTarget, hf]
      rfl
    | false =>
      have hm := (mem_family hp hip).2.mpr hf
      refine ⟨_, mem_firstBootTables.mpr (.inr (.inr ⟨List.ne_nil_of_mem hm, rfl⟩)),
        by simp [seesPacket, hf], _, List.mem_cons_self, rfl, ?_⟩
      have hany := (dnatTo_any (M := M) fun ip => List.mem_of_mem_filter).mpr
        ⟨hh, hi, ip, hm, hp⟩
      rw [natChain6_verdict hn, hany, mgmtTarget, hf]
      rfl

end

end FirstBootLemmas

open FirstBootLemmas

/-- For a NIC, whose name has no quotation mark, and its addresses, the UI port is
reached through the veth exactly by the connections that arrived on the NIC and were
DNATed from one of its private addresses, and exactly the packets to the UI port of such
an address on the NIC are DNATed. -/
theorem bootstrap_ui_reachable (M : TrackedMatches) {nic : String} (hn : '"' ∉ nic.toList)
    (cidrs : List String) (p : TrackedPacket) :
    (p.oifname = fwdMgmtVeth → p.isHttps = true →
      (PassesForward M.reading (firstBootTables nic cidrs) p ↔
        p.iifname = nic ∧ p.dnat = true ∧ Offered cidrs p.original)) ∧
    ∀ target, Dnats M.reading (firstBootTables nic cidrs) p target ↔
      p.isHttps = true ∧ p.iifname = nic ∧ Offered cidrs p.daddr ∧ target = mgmtTarget p.daddr :=
  ⟨passesForward_iff hn, fun _ => dnats_iff hn⟩

namespace FirstBoot

/-- The matches of the guard beside those of `lenient`. -/
def trackedHolds (tokens : List Token) (p : TrackedPacket) : Bool :=
  match tokens with
  | [_, _, _, .word "ct", .word "status", .word "dnat", .word "ct", .word "original",
      .word family, _, .word ip] =>
      p.isHttps && p.dnat && some p.original ==
        if family = "ip" then (parseIpv4 ip).map .v4 else (parseIpv6 ip).map .v6
  | _ => lenientHolds tokens p.toPacket

def tracked : TrackedMatches where
  holds := trackedHolds
  https _ := rfl
  daddr4 ip address p h := lenient.daddr4 ip address p.toPacket h
  daddr6 ip address p h := lenient.daddr6 ip address p.toPacket h
  original4 ip address p h := by
    change (p.isHttps && p.dnat && some p.original == (parseIpv4 ip).map .v4) = _
    rw [h]
    rfl
  original6 ip address p h := by
    change (p.isHttps && p.dnat && some p.original == (parseIpv6 ip).map .v6) = _
    rw [h]
    rfl

/-- A packet that arrived on the NIC for its RFC 1918 address, sent on to the veth. -/
def offeredPacket : TrackedPacket := {
  iifname := "enp1s0", oifname := fwdMgmtVeth, saddr := .v4 0xc0a80109, daddr := .v4 0xa9fe7f06
  transport := .tcp 40000 443, dnat := true, original := .v4 0xc0a80101 }

theorem bootstrap_ui_reachable_enp1s0 :
    PassesForward tracked.reading
        (firstBootTables "enp1s0" ["203.0.113.10/24", "192.168.1.1/24", "fd53:1:1::9/64"])
        offeredPacket ∧
      ¬PassesForward tracked.reading (firstBootTables "enp1s0" ["203.0.113.10/24"])
        offeredPacket := by
  refine ⟨((bootstrap_ui_reachable tracked (by decide) _ offeredPacket).1 rfl rfl).mpr
    ⟨rfl, rfl, rfl, "192.168.1.1/24", by decide, by decide +kernel⟩, fun h => ?_⟩
  obtain ⟨-, -, -, cidr, hc, hp⟩ :=
    ((bootstrap_ui_reachable tracked (by decide) _ offeredPacket).1 rfl rfl).mp h
  obtain rfl := List.mem_singleton.mp hc
  exact absurd hp (by decide +kernel)

end FirstBoot

end Fwos
