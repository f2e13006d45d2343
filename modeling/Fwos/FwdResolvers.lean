import Fwos.Delegated
import Fwos.Ra.Listener
import Fwos.Rust.Lines

/-!
# The resolvers that the Forwarding netns publishes

netd merges the `nameserver` lines of DHCPv6 leases with the resolvers of Router
Advertisements and publishes what is well formed (`fwd_resolvers.rs`).

* `Names`: a line that consists of the word `nameserver` and an address that can be used.
* `resolv_conf_published`: the published text lists the first three distinct addresses that
  lines name, or says that there is none, and publishing it again changes nothing.
-/

namespace Fwos.FwdResolvers

open Rust

/-- glibc reads at most three. -/
def maxNameservers : Nat := 3

/-- A character of the interface of a scoped address. -/
def isScopeChar (c : Char) : Bool := c.isAlphanum || c == '.' || c == '_' || c == '-'

/-- An address, or a link-local IPv6 address scoped to its interface. -/
def nameserver (word : String) : Option String :=
  match parseIp word with
  | some (.v6 address) => if isUnicastLinkLocal address then none else some word
  | some (.v4 _) => some word
  | none => do
      let (address, interface) ← splitOnce word '%'
      let usable := isUnicastLinkLocal (← parseIpv6 address) && !interface.isEmpty &&
        interface.toList.all isScopeChar
      if usable then some word else none

/-- The servers after one more line. -/
def addServer (servers : List String) (line : String) : List String :=
  match splitWhitespace line with
  | first :: words =>
      if first != "nameserver" then servers
      else
        match words.head?.bind nameserver with
        | none => servers
        | some server =>
            if words.tail.isEmpty && !servers.contains server then servers ++ [server] else servers
  | [] => servers

def noResolver : String := "# No WAN resolver learned in the Forwarding netns\n"

def serverLine (server : String) : String := s!"nameserver {server}\n"

def resolvConf (learned : String) : String :=
  let servers := (lines learned).foldl addServer []
  if servers.isEmpty then noResolver
  else String.join ((servers.take maxNameservers).map serverLine)

def hasResolver (conf : String) : Bool := (lines conf).any (startsWith · "nameserver ")

/-- netd's `learned_resolvers`, from the lease files of the WANs and the listener. -/
def learnedResolvers (leases : String → Option String) (wans : List String)
    (rdnss : Ra.RdnssListener) (now : Ra.Instant) : String :=
  resolvConf (String.join (wans.map fun wan =>
    (leases wan).getD "" ++ String.join ((rdnss.servers wan now).map serverLine)))

/-! ## What is published -/

/-- An address; a link-local IPv6 one with its interface. -/
def WellFormed (word : String) : Prop :=
  (∃ address, parseIpv4 word = some address) ∨
  (∃ address, parseIpv6 word = some address ∧ isUnicastLinkLocal address = false) ∨
  ∃ address interface server, splitOnce word '%' = some (address, interface) ∧
    parseIpv6 address = some server ∧ isUnicastLinkLocal server = true ∧
    interface ≠ "" ∧ ∀ c ∈ interface.toList, isScopeChar c = true

def Names (line server : String) : Prop :=
  splitWhitespace line = ["nameserver", server] ∧ WellFormed server

/-- The server that a line names. -/
def lineServer (line : String) : Option String :=
  match splitWhitespace line with
  | [first, second] => if first = "nameserver" then nameserver second else none
  | _ => none

/-- The servers that are named, each at its first line. -/
def namedServers (text : String) : List String := ((lines text).filterMap lineServer).eraseDups

namespace FwdResolversLemmas

open DelegatedLemmas

/-! ## One word -/

theorem parseIp_percent {word : String} (mem : '%' ∈ word.toList) : parseIp word = none := by
  cases parsed : parseIp word with
  | none => rfl
  | some address =>
      have chars : isIpChar '%' = true := by
        cases address with
        | v4 ip => exact parseIpv4_chars (parseIp_eq_v4.mp parsed) '%' mem
        | v6 ip => exact parseIpv6_chars (parseIp_eq_v6.mp parsed) '%' mem
      exact absurd chars (by decide)

theorem nameserver_eq_some {word server : String} :
    nameserver word = some server ↔ server = word ∧ WellFormed word := by
  have v4 : (∃ address, parseIpv4 word = some address) ↔
      ∃ address, parseIp word = some (.v4 address) := exists_congr fun _ => parseIp_eq_v4.symm
  have v6 : (∃ address, parseIpv6 word = some address ∧ isUnicastLinkLocal address = false) ↔
      ∃ address, parseIp word = some (.v6 address) ∧ isUnicastLinkLocal address = false :=
    exists_congr fun _ => and_congr_left' parseIp_eq_v6.symm
  have percent {front interface : String} (split : splitOnce word '%' = some (front, interface)) :
      parseIp word = none := parseIp_percent (by
    rw [(splitOnce_eq_some.mp split).1]
    exact List.mem_append_right _ List.mem_cons_self)
  rw [WellFormed, v4, v6, nameserver]
  rcases parsed : parseIp word with _ | ⟨address | address⟩
  · simp only [Option.bind_eq_bind, Option.bind_eq_some_iff, Prod.exists]
    constructor
    · rintro ⟨front, interface, split, address, server, usable⟩
      rw [Option.ite_none_right_eq_some, Bool.and_eq_true, Bool.and_eq_true, Bool.not_eq_true',
        List.all_eq_true, Option.some.injEq] at usable
      obtain ⟨⟨⟨localAddress, nonempty⟩, allowed⟩, rfl⟩ := usable
      refine ⟨rfl, .inr (.inr ⟨front, interface, address, split, server, localAddress, ?_, allowed⟩)⟩
      rintro rfl
      cases nonempty
    · rintro ⟨rfl, ⟨_, ⟨⟩⟩ | ⟨_, ⟨⟩, -⟩ | ⟨front, interface, address, split, server, localAddress,
        nonempty, allowed⟩⟩
      refine ⟨front, interface, split, address, server, if_pos ?_⟩
      rw [localAddress, List.all_eq_true.mpr allowed]
      simp [nonempty]
  · simp only [Option.some.injEq]
    exact ⟨fun same => ⟨same.symm, .inl ⟨address, rfl⟩⟩, fun h => h.1.symm⟩
  · dsimp only
    rw [Option.ite_none_left_eq_some, Option.some.injEq, Bool.not_eq_true]
    constructor
    · rintro ⟨global, rfl⟩
      exact ⟨rfl, .inr (.inl ⟨address, rfl, global⟩)⟩
    · rintro ⟨rfl, ⟨_, ⟨⟩⟩ | ⟨other, same, global⟩ | ⟨front, interface, _, split, -⟩⟩
      · cases same
        exact ⟨global, rfl⟩
      · rw [percent split] at parsed
        cases parsed

theorem lineServer_eq_some {line server : String} :
    lineServer line = some server ↔ Names line server := by
  unfold lineServer Names
  split
  next first second words =>
    rw [Option.ite_none_right_eq_some, nameserver_eq_some]
    constructor
    · rintro ⟨rfl, rfl, formed⟩
      exact ⟨words, formed⟩
    · rintro ⟨whole, formed⟩
      rw [words] at whole
      obtain ⟨rfl, rest⟩ := List.cons.inj whole
      obtain ⟨rfl, -⟩ := List.cons.inj rest
      exact ⟨rfl, rfl, formed⟩
  next other =>
    refine iff_of_false (fun h => by cases h) ?_
    rintro ⟨whole, -⟩
    exact other _ _ whole

/-! ## All lines -/

theorem addServer_eq (servers : List String) (line : String) : addServer servers line =
    match lineServer line with
    | none => servers
    | some server => if server ∈ servers then servers else servers ++ [server] := by
  unfold addServer lineServer
  rcases splitWhitespace line with _ | ⟨first, _ | ⟨second, _ | ⟨third, rest⟩⟩⟩
  · rfl
  · simp
  · by_cases same : first = "nameserver"
    · subst same
      cases found : nameserver second with
      | none => simp [found]
      | some server =>
          by_cases known : server ∈ servers
          · simp [found, known]
          · simp [found, known]
    · simp [same]
  · by_cases same : first = "nameserver"
    · subst same
      cases found : nameserver second <;> simp [found]
    · simp [same]

theorem eraseDups_concat (texts : List String) (text : String) : (texts ++ [text]).eraseDups =
    if text ∈ texts then texts.eraseDups else texts.eraseDups ++ [text] := by
  rw [List.eraseDups_append]
  split
  next known => simp [known, List.removeAll]
  next fresh => simp [fresh, List.removeAll, List.eraseDups_cons]

theorem foldl_addServer (texts : List String) :
    texts.foldl addServer [] = (texts.filterMap lineServer).eraseDups := by
  induction texts using List.reverseRecOn with
  | nil => rfl
  | append_singleton texts line ih =>
      rw [List.foldl_append, List.foldl_cons, List.foldl_nil, ih, addServer_eq,
        List.filterMap_append]
      cases found : lineServer line with
      | none => simp [found]
      | some server =>
          have last : [line].filterMap lineServer = [server] := by simp [found]
          rw [last, eraseDups_concat]
          simp only [List.mem_eraseDups]

theorem eraseDups_nodup (texts : List String) : texts.eraseDups.Nodup := by
  induction texts using List.reverseRecOn with
  | nil => exact List.nodup_nil
  | append_singleton texts text ih =>
      rw [eraseDups_concat]
      split
      · exact ih
      next fresh =>
        have added := ih.concat (mt List.mem_eraseDups.mp fresh)
        rw [List.concat_eq_append] at added
        exact added

theorem eraseDups_eq_self {texts : List String} (distinct : texts.Nodup) :
    texts.eraseDups = texts := by
  induction texts using List.reverseRecOn with
  | nil => rfl
  | append_singleton texts text ih =>
      obtain ⟨front, -, apart⟩ := List.nodup_append.mp distinct
      have fresh : text ∉ texts := fun mem => apart text mem text List.mem_cons_self rfl
      rw [eraseDups_concat, if_neg fresh, ih front]

theorem resolvConf_eq (learned : String) : resolvConf learned =
    if namedServers learned = [] then noResolver
    else String.join (((namedServers learned).take maxNameservers).map serverLine) := by
  rw [resolvConf, foldl_addServer, ← namedServers]
  simp only [List.isEmpty_iff]

/-! ## Reading what is published -/

/-- A server that is named is a word. -/
theorem word_of_named {text server : String} (mem : server ∈ namedServers text) :
    WellFormed server ∧ server.toList ≠ [] ∧ ∀ c ∈ server.toList, isWhitespace c = false := by
  obtain ⟨line, -, named⟩ := List.mem_filterMap.mp (List.mem_eraseDups.mp mem)
  obtain ⟨words, formed⟩ := lineServer_eq_some.mp named
  refine ⟨formed, @splitWhitespace_words line server ?_⟩
  rw [words]
  exact List.mem_cons_of_mem _ List.mem_cons_self

theorem names_printed {server : String} (formed : WellFormed server)
    (nonempty : server.toList ≠ []) (dark : ∀ c ∈ server.toList, isWhitespace c = false) :
    Names ("nameserver " ++ server) server := by
  have text : "nameserver " ++ server =
      String.ofList ("nameserver".toList ++ ' ' :: server.toList) := by
    rw [← String.toList_inj, String.toList_ofList, String.toList_append]
    rfl
  have plain : ("nameserver".toList.all fun c => !isWhitespace c) = true := by decide
  have words := @splitWhitespace_pair "nameserver".toList server.toList (by decide) nonempty
    (fun c mem => by simpa using List.all_eq_true.mp plain c mem) dark
  rw [← text, String.ofList_toList, String.ofList_toList] at words
  exact ⟨words, formed⟩

theorem lines_printed {servers : List String}
    (dark : ∀ server ∈ servers, ∀ c ∈ server.toList, isWhitespace c = false) :
    lines (String.join (servers.map serverLine)) = servers.map ("nameserver " ++ ·) := by
  induction servers with
  | nil => exact lines_empty
  | cons server servers ih =>
      obtain ⟨first, rest⟩ := List.forall_mem_cons.mp dark
      have absent (c : Char) (white : isWhitespace c = true)
          (other : c ∉ "nameserver ".toList) : c ∉ ("nameserver " ++ server).toList := by
        rw [String.toList_append, List.mem_append]
        rintro (mem | mem)
        · exact other mem
        · rw [first c mem] at white
          cases white
      rw [List.map_cons, List.map_cons, String.join_cons, ← ih rest]
      exact lines_append (absent '\n' (by decide) (by decide)) (absent '\r' (by decide) (by decide)) _

/-- What is published names itself. -/
theorem namedServers_printed {servers : List String} (distinct : servers.Nodup)
    (words : ∀ server ∈ servers, WellFormed server ∧ server.toList ≠ [] ∧
      ∀ c ∈ server.toList, isWhitespace c = false) :
    namedServers (String.join (servers.map serverLine)) = servers := by
  have named : (servers.map ("nameserver " ++ ·)).filterMap lineServer = servers := by
    rw [List.filterMap_map]
    refine (List.filterMap_congr fun server mem => ?_).trans List.filterMap_some
    obtain ⟨formed, nonempty, dark⟩ := words server mem
    exact lineServer_eq_some.mpr (names_printed formed nonempty dark)
  rw [namedServers, lines_printed fun server mem => (words server mem).2.2, named,
    eraseDups_eq_self distinct]

theorem namedServers_noResolver : namedServers noResolver = [] := by decide +kernel

theorem namedServers_eq_nil {text : String} :
    namedServers text = [] ↔ ∀ line ∈ lines text, ∀ server, ¬Names line server := by
  have empty : namedServers text = [] ↔ (lines text).filterMap lineServer = [] := by
    rw [List.eq_nil_iff_forall_not_mem, List.eq_nil_iff_forall_not_mem]
    exact forall_congr' fun server => not_congr List.mem_eraseDups
  rw [empty, List.filterMap_eq_nil_iff]
  refine forall_congr' fun line => forall_congr' fun _ => ?_
  simp only [← lineServer_eq_some]
  exact Option.eq_none_iff_forall_ne_some

theorem hasResolver_printed {servers : List String}
    (dark : ∀ server ∈ servers, ∀ c ∈ server.toList, isWhitespace c = false) :
    hasResolver (String.join (servers.map serverLine)) = !servers.isEmpty := by
  have all : ∀ server, startsWith ("nameserver " ++ server) "nameserver " = true := fun server =>
    startsWith_iff.mpr ⟨server.toList, String.toList_append⟩
  rw [hasResolver, lines_printed dark, List.any_map]
  cases servers with
  | nil => rfl
  | cons server servers =>
      rw [List.any_cons, Function.comp_apply, all]
      rfl

theorem join_ne_noResolver {servers : List String} (some_ : servers ≠ [])
    (dark : ∀ server ∈ servers, ∀ c ∈ server.toList, isWhitespace c = false) :
    String.join (servers.map serverLine) ≠ noResolver := by
  intro same
  have resolves := hasResolver_printed dark
  have comment : hasResolver noResolver = false := by decide +kernel
  rw [same, comment] at resolves
  cases servers with
  | nil => exact some_ rfl
  | cons server servers => cases resolves

/-- What the listener answers for an interface is published. -/
theorem wellFormed_resolverText {dev : String} (named : BootstrapValues.interfaceName dev = true)
    (server : Ipv6Addr) : WellFormed (Ra.RdnssListener.resolverText dev server) := by
  rw [BootstrapValues.interfaceName, Bool.and_eq_true, Bool.and_eq_true, List.all_eq_true] at named
  obtain ⟨⟨nonempty, -⟩, chars⟩ := named
  unfold Ra.RdnssListener.resolverText
  split
  next localAddress =>
    refine .inr (.inr ⟨displayIpv6 server, dev, server, splitOnce_eq_some.mpr
      ⟨Ra.ListenerLemmas.toList_withScope server, Ra.ListenerLemmas.percent_not_mem server⟩,
      parseIpv6_displayIpv6 server, localAddress, ?_, fun c mem => ?_⟩)
    · rintro rfl
      cases nonempty
    · have allowed := chars c mem
      simp only [Bool.or_eq_true, isScopeChar] at allowed ⊢
      tauto
  next global =>
    exact .inr (.inl ⟨server, parseIpv6_displayIpv6 server, Bool.eq_false_iff.mpr global⟩)

end FwdResolversLemmas

open FwdResolversLemmas

/-- Either the comment or at most three distinct well-formed servers, the first that lines
name in the order of their first lines. -/
theorem resolv_conf_published (learned : String) :
    let servers := (namedServers learned).take maxNameservers
    (∀ line server, lineServer line = some server ↔ Names line server) ∧
    resolvConf learned =
      (if servers = [] then noResolver else String.join (servers.map serverLine)) ∧
    servers.length ≤ 3 ∧ servers.Nodup ∧ (∀ server ∈ servers, WellFormed server) ∧
    (resolvConf learned = noResolver ↔ ∀ line ∈ lines learned, ∀ server, ¬Names line server) ∧
    (hasResolver (resolvConf learned) = true ↔ resolvConf learned ≠ noResolver) ∧
    resolvConf (resolvConf learned) = resolvConf learned := by
  intro servers
  have words (server : String) (mem : server ∈ servers) :=
    word_of_named (List.mem_of_mem_take mem)
  have dark : ∀ server ∈ servers, ∀ c ∈ server.toList, isWhitespace c = false :=
    fun server mem => (words server mem).2.2
  have distinct : servers.Nodup := (eraseDups_nodup _).sublist (List.take_sublist ..)
  have none_iff : servers = [] ↔ namedServers learned = [] := by
    rw [List.take_eq_nil_iff, or_iff_right (by decide)]
  have conf : resolvConf learned =
      if servers = [] then noResolver else String.join (servers.map serverLine) := by
    rw [resolvConf_eq]
    simp only [none_iff]
    rfl
  refine ⟨fun _ _ => lineServer_eq_some, conf, List.length_take_le _ _, distinct,
    fun server mem => (words server mem).1, ?_⟩
  by_cases empty : servers = []
  · rw [if_pos empty] at conf
    rw [← namedServers_eq_nil, ← none_iff, conf]
    refine ⟨iff_of_true rfl empty, iff_of_false (by decide +kernel) fun other => other rfl, ?_⟩
    rw [resolvConf_eq, if_pos namedServers_noResolver]
  · rw [if_neg empty] at conf
    have other := join_ne_noResolver empty dark
    rw [← namedServers_eq_nil, ← none_iff, conf]
    refine ⟨iff_of_false other empty, iff_of_true ?_ other, ?_⟩
    · rw [hasResolver_printed dark]
      simpa using empty
    · rw [resolvConf_eq, namedServers_printed distinct words, if_neg empty,
        List.take_of_length_le (List.length_take_le _ _)]

example : resolvConf "nameserver fe80::1%wan0\nnameserver fe80::2\nnameserver fe80::3%a;b\n" =
    "nameserver fe80::1%wan0\n" := by decide +kernel

end Fwos.FwdResolvers
