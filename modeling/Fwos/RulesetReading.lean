import Fwos.Ruleset

/-!
# How nft reads the generated rules

Each rule text of `Ruleset` is one rule, whatever interface names and addresses
it was written with, as long as the names have no quotation mark and the
addresses are addresses. So a whole chain is the list of these rules, except
for the operator's own rules in the input chain.
-/

namespace Fwos

open Rust Nft

namespace RulesetReadingLemmas

/-! ## The rules -/

def onInput (name : String) (rest : Rule) : Rule := (({} : Rule).addName false false name).append rest
def onOutput (name : String) (rest : Rule) : Rule := (({} : Rule).addName true false name).append rest

def acceptRest (others : List Token) : Rule := { others := others, verdict := some .accept }
def dropRest : Rule := { verdict := some .drop }

def exposureForward (name : String) : Rule :=
  onInput name { oifname := [⟨fwdMgmtVeth, false⟩], others := httpsTokens, verdict := some .accept }

def mgmtForward (mgmt : String) : List Rule := [onInput mgmt dropRest, onOutput mgmt dropRest]

def dnatRest (family target : String) (others : List Token) : Rule := {
  others := others
  verdict := some (.dnat [.word family, .word "to", .word target]) }

/-! ## Their texts -/

def acceptTokens : List Token := [.word "accept"]
def dnatTokens (family target : String) : List Token :=
  [.word "dnat", .word family, .word "to", .word target]

theorem readsRest_of_tokens {text : List Char} {rest : Rule} (tokens : List Token)
    (h : text.head? = some '"' ∧ scan .start (text.tail ++ ['\n']) = some (.start, [tokens]) ∧
      readRule tokens = some rest) : ReadsRest text rest :=
  ⟨h.1, tokens, h.2⟩

theorem reads_of_tokens {line : List Char} {rule : Rule} (tokens : List Token)
    (h : scan .start ([' ', ' ', ' ', ' '] ++ line ++ ['\n']) = some (.start, [tokens]) ∧
      tokens ≠ [] ∧ readRule tokens = some rule) : Reads (.ofList line) rule := by
  refine ⟨tokens, ?_, h.2⟩
  rw [String.toList_ofList, String.toList_ofList]
  exact h.1

theorem rest_drop : ReadsRest "\" drop".toList dropRest := by
  rw [String.toList_ofList]
  exact readsRest_of_tokens [.word "drop"] ⟨rfl, rfl, rfl⟩

theorem rest_accept : ReadsRest "\" accept".toList (acceptRest []) := by
  rw [String.toList_ofList]
  exact readsRest_of_tokens [.word "accept"] ⟨rfl, rfl, rfl⟩

theorem rest_exposureForward :
    ReadsRest "\" oifname \"f0mgmt\" tcp dport 443 accept".toList
      { oifname := [⟨fwdMgmtVeth, false⟩], others := httpsTokens, verdict := some .accept } := by
  rw [String.toList_ofList]
  exact readsRest_of_tokens (.word "oifname" :: .quoted "f0mgmt" :: (httpsTokens ++ acceptTokens))
    ⟨rfl, rfl, rfl⟩

theorem rest_dnatAny :
    ReadsRest "\" tcp dport 443 dnat ip to 169.254.127.6".toList
      (dnatRest "ip" mgmtFwdIp httpsTokens) := by
  rw [String.toList_ofList]
  exact readsRest_of_tokens (httpsTokens ++ dnatTokens "ip" mgmtFwdIp) ⟨rfl, rfl, rfl⟩

theorem exposureForward_reads {name : String} (hn : '"' ∉ name.toList) :
    Reads (exposureForwardRule name) (exposureForward name) :=
  reads_name false _ (by simp only [exposureForwardRule, String.append_assoc]; rfl) hn
    rest_exposureForward

theorem mgmtForward_reads {mgmt : String} (hn : '"' ∉ mgmt.toList) :
    List.Forall₂ Reads (mgmtForwardRules mgmt) (mgmtForward mgmt) :=
  .cons (reads_name false _ (by simp only [String.append_assoc]; rfl) hn rest_drop) <|
  .cons (reads_name true _ (by simp only [String.append_assoc]; rfl) hn rest_drop) .nil

theorem wanForward_reads {wan : String} (hn : '"' ∉ wan.toList) :
    Reads s!"oifname \"{wan}\" accept" (onOutput wan (acceptRest [])) :=
  reads_name true _ (by simp only [String.append_assoc]; rfl) hn rest_accept

theorem dnatAny_reads {name : String} (hn : '"' ∉ name.toList) :
    Reads (dnatAnyRule name) (onInput name (dnatRest "ip" mgmtFwdIp httpsTokens)) :=
  reads_name false _ (by simp only [dnatAnyRule, String.append_assoc]; rfl) hn
    rest_dnatAny

theorem isWordChar_of_isIpChar {c : Char} (h : isIpChar c = true) : isWordChar c = true := by
  have hr : (46 ≤ c.toNat ∧ c.toNat ≤ 58) ∨ (65 ≤ c.toNat ∧ c.toNat ≤ 70) ∨
      (97 ≤ c.toNat ∧ c.toNat ≤ 102) := by
    simp only [isIpChar, Bool.or_eq_true, beq_iff_eq] at h
    rcases h with (h | rfl) | rfl
    · have h0 : '0'.toNat = 48 := rfl
      have ha : 'a'.toNat = 97 := rfl
      have hf : 'f'.toNat = 102 := rfl
      have hA : 'A'.toNat = 65 := rfl
      have hF : 'F'.toNat = 70 := rfl
      have hd := isDigit_iff (c := c)
      unfold digitValue at h
      by_cases hdig : c.isDigit = true
      · have := hd.mp hdig
        omega
      · simp only [hdig, Bool.false_eq_true, if_false, ha, hf, hA, hF] at h
        split_ifs at h <;> first | omega | simp_all
    · decide
    · decide
  have hne : ∀ x : Char, ¬((46 ≤ x.toNat ∧ x.toNat ≤ 58) ∨ (65 ≤ x.toNat ∧ x.toNat ≤ 70) ∨
      (97 ≤ x.toNat ∧ x.toNat ≤ 102)) → c ≠ x := by
    rintro x hx rfl
    exact hx hr
  simp only [isWordChar, isMark, Bool.and_eq_true, Bool.not_eq_true', Bool.or_eq_false_iff,
    beq_eq_false_iff_ne, bne_iff_ne, decide_eq_true_eq]
  refine ⟨⟨⟨⟨⟨⟨⟨by omega, by omega⟩, ⟨?_, ?_⟩, ?_⟩, ?_⟩, ?_⟩, ?_⟩, ?_⟩, ?_⟩ <;>
    exact hne _ (by decide)

/-- The text of an address is no word of its own meaning to nft. -/
theorem plainWord_of_ipChars {ip : String} (hne : ip.toList ≠ [])
    (h : ∀ c ∈ ip.toList, isIpChar c = true) : IsPlainWord ip := by
  have hkey : ∀ key : String, (key.toList.all isIpChar) = false → (ip == key) = false := by
    intro key hk
    rw [beq_eq_false_iff_ne]
    rintro rfl
    simp [List.all_eq_true.mpr h] at hk
  refine ⟨hne, fun c hc => isWordChar_of_isIpChar (h c hc), ?_, ?_⟩
  · simp [verdictWord, List.lookup, hkey "accept" (by decide), hkey "drop" (by decide),
      hkey "reject" (by decide), hkey "return" (by decide), hkey "queue" (by decide),
      hkey "masquerade" (by decide)]
  · simp only [List.mem_cons, List.not_mem_nil, or_false, not_or]
    exact ⟨beq_eq_false_iff_ne.mp (hkey _ (by decide)),
      beq_eq_false_iff_ne.mp (hkey _ (by decide)), beq_eq_false_iff_ne.mp (hkey _ (by decide)),
      beq_eq_false_iff_ne.mp (hkey _ (by decide)), beq_eq_false_iff_ne.mp (hkey _ (by decide)),
      beq_eq_false_iff_ne.mp (hkey _ (by decide))⟩

def dnatTo (name ip : String) : Rule :=
  if containsChar ip ':' then onInput name (dnatRest "ip6" mgmtFwdIp6 (daddrTokens "ip6" ip))
  else onInput name (dnatRest "ip" mgmtFwdIp (daddrTokens "ip" ip))

theorem dnat_reads {name ip : String} (hn : '"' ∉ name.toList) (hw : IsPlainWord ip) :
    Reads (dnatRule name ip) (dnatTo name ip) := by
  unfold dnatRule dnatTo
  split
  · refine reads_name false
      ("\" ip6 daddr " ++ (ip ++ " tcp dport 443 dnat ip6 to fd53:1:1::6"))
      (by simp only [String.append_assoc]; rfl) hn ?_
    have hr := readsRest_word " ip6 daddr ".toList "tcp dport 443 dnat ip6 to fd53:1:1::6".toList
      [.word "ip6", .word "daddr"] (httpsTokens ++ dnatTokens "ip6" mgmtFwdIp6) [.word "ip6", .word "daddr"] (dnatRest "ip6" mgmtFwdIp6 httpsTokens) hw
      (by rw [String.toList_ofList]; rfl) rfl
      (by rw [String.toList_ofList]; rfl) rfl
    rw [String.toList_append, String.toList_append]
    exact hr
  · refine reads_name false
      ("\" ip daddr " ++ (ip ++ " tcp dport 443 dnat ip to 169.254.127.6"))
      (by simp only [String.append_assoc]; rfl) hn ?_
    have hr := readsRest_word " ip daddr ".toList "tcp dport 443 dnat ip to 169.254.127.6".toList
      [.word "ip", .word "daddr"] (httpsTokens ++ dnatTokens "ip" mgmtFwdIp) [.word "ip", .word "daddr"] (dnatRest "ip" mgmtFwdIp httpsTokens) hw
      (by rw [String.toList_ofList]; rfl) rfl
      (by rw [String.toList_ofList]; rfl) rfl
    rw [String.toList_append, String.toList_append]
    exact hr

/-! ## Whole chains -/

theorem forall₂_flatMap {α β γ : Type} {R : β → γ → Prop} {f : α → List β} {g : α → List γ}
    {list : List α} (h : ∀ a ∈ list, List.Forall₂ R (f a) (g a)) :
    List.Forall₂ R (list.flatMap f) (list.flatMap g) := by
  induction list with
  | nil => exact .nil
  | cons a list ih =>
    simp only [List.mem_cons, forall_eq_or_imp] at h
    exact List.rel_append h.1 (ih h.2)

theorem forall₂_map {α β γ : Type} {R : β → γ → Prop} {f : α → β} {g : α → γ} {list : List α}
    (h : ∀ a ∈ list, R (f a) (g a)) : List.Forall₂ R (list.map f) (list.map g) := by
  rw [List.forall₂_map_left_iff, List.forall₂_map_right_iff, List.forall₂_same]
  exact h

theorem quote_not_mem {name : String} (h : BootstrapValues.interfaceName name = true) :
    '"' ∉ name.toList := by
  intro hm
  simp only [BootstrapValues.interfaceName, Bool.and_eq_true, List.all_eq_true] at h
  exact absurd (h.2 _ hm) (by decide)

theorem name_of_accepts [Base64] {state : DesiredState} (ha : Accepts state) {iface : Iface}
    (hi : iface ∈ state.interfaces) : '"' ∉ iface.name.toList := by
  have := ha.interfaces iface hi
  simp only [validateIface, BootstrapValues.interface, bind_eq_ok, ensure_eq_ok] at this
  obtain ⟨-, hn, -⟩ := this
  exact quote_not_mem hn

theorem name_of_wan [Base64] {state : DesiredState} (ha : Accepts state) {wan : String}
    (hw : wan ∈ wanNames state) : '"' ∉ wan.toList := by
  obtain ⟨iface, hi, rfl⟩ := List.mem_map.mp hw
  exact name_of_accepts ha (List.mem_of_mem_filter hi)

theorem mem_uiExposure {state : DesiredState} {name : String} {addrs : List String} :
    (name, addrs) ∈ uiExposure state →
      ∃ iface ∈ state.interfaces, iface.name = name ∧ iface.addresses = addrs := by
  intro h
  simp only [uiExposure, List.mem_filterMap, Option.map_eq_some_iff, Prod.mk.injEq] at h
  obtain ⟨_, -, iface, hf, hn, ha⟩ := h
  exact ⟨iface, List.mem_of_find?_eq_some hf, hn, ha⟩

theorem exposeIps_allowed {cidrs : List String} {ip : String} (h : ip ∈ exposeIps cidrs) :
    exposeAllowed ip = true := by
  have fold : ∀ (cidrs out : List String), (∀ ip ∈ out, exposeAllowed ip = true) →
      ∀ ip ∈ cidrs.foldl (fun out cidr =>
        let ip := beforeSlash cidr
        if exposeAllowed ip && !out.contains ip then out ++ [ip] else out) out,
        exposeAllowed ip = true := by
    intro cidrs
    induction cidrs with
    | nil => exact fun out h => h
    | cons cidr cidrs ih =>
      intro out hout
      refine ih _ fun ip hip => ?_
      dsimp only at hip
      split at hip
      next hc =>
        rcases List.mem_append.mp hip with hip | hip
        · exact hout ip hip
        · obtain rfl : ip = beforeSlash cidr := by simpa using hip
          simp only [Bool.and_eq_true] at hc
          exact hc.1
      · exact hout ip hip
  exact fold cidrs [] (by simp) ip h

theorem plainWord_of_exposeAllowed {ip : String} (h : exposeAllowed ip = true) : IsPlainWord ip := by
  have hne : ip.toList ≠ [] := by
    intro hnil
    obtain rfl : ip = "" := String.toList_eq_nil_iff.mp hnil
    exact Bool.noConfusion (h.symm.trans (rfl : exposeAllowed "" = false))
  unfold exposeAllowed at h
  split at h
  next hv4 => exact plainWord_of_ipChars hne (parseIpv4_chars hv4)
  · split at h
    next hv6 => exact plainWord_of_ipChars hne (parseIpv6_chars hv6)
    · cases h

def forwardReading (state : DesiredState) (recoveryRequired : Bool) : List Rule :=
  (if recoveryRequired then [dropRest] else []) ++
    [acceptRest establishedTokens, onInput fwdMgmtVeth (acceptRest [])] ++
    (uiExposure state).map (exposureForward ·.1) ++
    (mgmts state).flatMap (mgmtForward ·.name) ++
    (wanNames state).map fun wan => onOutput wan (acceptRest [])

def dnatReading (name : String) (addrs : List String) : List Rule :=
  let ips := exposeIps addrs
  if ips.isEmpty then [onInput name (dnatRest "ip" mgmtFwdIp httpsTokens)]
  else ips.map (dnatTo name)

def preroutingReading (state : DesiredState) : List Rule :=
  (uiExposure state).flatMap fun (name, addrs) => dnatReading name addrs

theorem drop_reads : Reads "drop" dropRest :=
  reads_of_tokens [.word "drop"] ⟨rfl, by decide, rfl⟩

theorem established_reads :
    Reads "ct state established,related accept" (acceptRest establishedTokens) :=
  reads_of_tokens (establishedTokens ++ acceptTokens) ⟨rfl, by decide, rfl⟩

theorem veth_reads :
    Reads s!"iifname \"{fwdMgmtVeth}\" accept" (onInput fwdMgmtVeth (acceptRest [])) :=
  ⟨[.word "iifname", .quoted "f0mgmt", .word "accept"], rfl, by decide,
    rfl⟩

theorem forward_reads [Base64] {state : DesiredState} (ha : Accepts state) (guard : Bool) :
    List.Forall₂ Reads (forwardRules state guard) (forwardReading state guard) := by
  unfold forwardRules forwardReading
  refine List.rel_append (List.rel_append (List.rel_append (List.rel_append ?_ ?_) ?_) ?_) ?_
  · cases guard
    · exact .nil
    · exact .cons drop_reads .nil
  · exact .cons established_reads (.cons veth_reads .nil)
  · refine forall₂_map fun exposed he => ?_
    obtain ⟨name, addrs⟩ := exposed
    obtain ⟨iface, hi, hn, -⟩ := mem_uiExposure he
    exact exposureForward_reads (hn ▸ name_of_accepts ha hi)
  · exact forall₂_flatMap fun mgmt hm =>
      mgmtForward_reads (name_of_accepts ha (List.mem_of_mem_filter hm))
  · exact forall₂_map fun wan hw => wanForward_reads (name_of_wan ha hw)

theorem prerouting_reads [Base64] {state : DesiredState} (ha : Accepts state) :
    List.Forall₂ Reads (preroutingChain state).rules (preroutingReading state) := by
  refine forall₂_flatMap ?_
  rintro ⟨name, addrs⟩ he
  obtain ⟨iface, hi, rfl, -⟩ := mem_uiExposure he
  have hn := name_of_accepts ha hi
  unfold dnatRules dnatReading
  dsimp only
  split
  · exact .cons (dnatAny_reads hn) .nil
  · exact forall₂_map fun ip hip => dnat_reads hn (plainWord_of_exposeAllowed (exposeIps_allowed hip))

end RulesetReadingLemmas

open RulesetReadingLemmas

theorem readRules_of_reads {lines : List String} {rules : List Rule}
    (h : List.Forall₂ Reads lines rules) : readRules lines = some rules := by
  have hnil : readRules [] = some [] := rfl
  have happend : readRules ([] ++ lines) = _ := readRules_append h
  simpa [hnil] using happend

end Fwos
