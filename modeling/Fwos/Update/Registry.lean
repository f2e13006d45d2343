import Fwos.FwdResolvers
import Fwos.Toml.Read
import Fwos.Update.Host

/-!
# Local registries

A Host update takes its image from a registry. `local_registry_host` finds the registries
that are reached by plain HTTP, and `allow_insecure_local_registry` writes a drop-in for
them (`update.rs`). The host is split on its last colon, and copied into the drop-in as it
is.

* `Reference`: image references with a host name or a bracketed IPv6 literal.
* `local_registries_exact`: the references whose host is found exactly if it is local, and
  the accepted ones for which the drop-in names exactly that host.
-/

namespace Fwos.Update

open Rust

/-! ## References -/

/-- `strip_prefix`. -/
def withoutLead (text lead : String) : String :=
  if startsWith text lead then String.ofList (text.toList.drop lead.toList.length) else text

def trimStartMatches (text : String) (c : Char) : String :=
  String.ofList (text.toList.dropWhile (· == c))

def trimEndMatches (text : String) (c : Char) : String :=
  String.ofList (text.toList.reverse.dropWhile (· == c)).reverse

/-- The host without the port and the brackets. -/
def hostName (host : String) : String :=
  let name := ((rsplitOnce host ':').map (·.1)).getD host
  trimEndMatches (trimStartMatches name '[') ']'

def localRegistryHost (image : String) : Option String :=
  let host := beforeSlash (withoutLead image "docker://")
  if host.isEmpty then none
  else
    let name := hostName host
    if name == "localhost" || (parseIp name).isSome then some host else none

/-- Docker Hub if the reference names no host. -/
def registryHost (image : String) : String :=
  match splitOnce (withoutLead image "docker://") '/' with
  | some (host, _) =>
      if containsChar host '.' || containsChar host ':' || host == "localhost" then host
      else "docker.io"
  | none => "docker.io"

def resolvable (image : String) (published : Option String) : Except String Unit :=
  if (localRegistryHost image).isSome || published.any FwdResolvers.hasResolver then .ok ()
  else .error ("no DNS resolver learned from any WAN, so the registry name " ++
    s!"{registryHost image} cannot be resolved")

/-! ## The drop-in -/

def registriesDropIn : String := "/etc/containers/registries.conf.d/fwos-update.conf"

def dropInBody (host : String) : String :=
  s!"[[registry]]\nlocation = \"{host}\"\ninsecure = true\n"

/-- What is written, with the results of creating the directory and of writing. -/
def allowInsecureLocalRegistry (image : String) (create write : Except String Unit) :
    Option String × Except String Unit :=
  match localRegistryHost image with
  | none => (none, .ok ())
  | some host =>
      match create with
      | .error error => (none, .error s!"create /etc/containers/registries.conf.d: {error}")
      | .ok () =>
          (some (dropInBody host), write.mapError fun error => s!"write {registriesDropIn}: {error}")

/-! ## What is local -/

def isNameChar (c : Char) : Bool := c != '/' && c != ':' && c != '[' && c != ']'

/-- A host name, or a bracketed IPv6 literal. -/
inductive ReferenceHost where
  | name (text : String) (nonempty : text ≠ "") (plain : text.toList.all isNameChar = true)
  | literal (text : String) (address : Ipv6Addr) (parsed : parseIpv6 text = some address)

namespace ReferenceHost

def text : ReferenceHost → String
  | name text _ _ => text
  | literal text _ _ => "[" ++ text ++ "]"

def isLocal : ReferenceHost → Bool
  | name text _ _ => text == "localhost" || (parseIpv4 text).isSome
  | literal .. => true

end ReferenceHost

/-- A decimal port. -/
structure Port where
  digits : String
  nonempty : digits ≠ ""
  decimal : digits.toList.all Char.isDigit = true

/-- `[docker://]host[:port]/path`. -/
structure Reference where
  transport : Bool
  host : ReferenceHost
  port : Option Port
  path : String

namespace Reference

def authority (r : Reference) : String :=
  match r.port with
  | some port => r.host.text ++ ":" ++ port.digits
  | none => r.host.text

def text (r : Reference) : String :=
  (if r.transport then "docker://" else "") ++ r.authority ++ "/" ++ r.path

/-- An IPv6 literal without a port, whose text before its last colon is no address. -/
def Misread (r : Reference) : Prop :=
  r.port = none ∧ ∃ text address parsed, r.host = .literal text address parsed ∧
    ((rsplitOnce text ':').bind fun parts => parseIp parts.1) = none

end Reference

/-- The drop-in that is written for this host, read as TOML. -/
def isInsecureRegistry (table : Toml.Table) : Bool :=
  table.name == "registry".toList && table.entries.contains ("insecure".toList, .boolean true)

/-- What is written names this host, and no other. -/
def DropInExact (image : String) : Prop :=
  ∀ body, (allowInsecureLocalRegistry image (.ok ()) (.ok ())).1 = some body →
    ∃ host tables table, localRegistryHost image = some host ∧
      Toml.readTables body = some tables ∧ tables.filter isInsecureRegistry = [table] ∧
      table.entries.filter (·.1 == "location".toList) = [("location".toList, .string host.toList)]

namespace RegistryLemmas

/-! ## The drop-in -/

theorem readLine_location (host : List Char) :
    Toml.readLine ("location = ".toList ++ '"' :: (host ++ ['"'])) =
      (Toml.readBasic (host ++ ['"'])).bind fun read =>
        if Toml.endsLine read.2 then some (.entry "location".toList (.string read.1)) else none := by
  have value : Toml.readLine ("location = ".toList ++ '"' :: (host ++ ['"'])) =
      (Toml.readValue ('"' :: (host ++ ['"']))).bind fun read =>
        if Toml.endsLine read.2 then some (.entry "location".toList read.1) else none := rfl
  rw [value, Toml.readValue, Option.bind_map]
  rfl

theorem toList_dropInBody (host : String) : (dropInBody host).toList =
    "[[registry]]".toList ++ '\n' :: (("location = ".toList ++ '"' :: (host.toList ++ ['"'])) ++
      '\n' :: ("insecure = true".toList ++ ['\n'])) := by
  have parts : dropInBody host =
      "[[registry]]\nlocation = \"" ++ host ++ "\"\ninsecure = true\n" := rfl
  have lead : "[[registry]]\nlocation = \"".toList =
      "[[registry]]".toList ++ '\n' :: ("location = ".toList ++ ['"']) := by decide
  have last : "\"\ninsecure = true\n".toList =
      '"' :: '\n' :: ("insecure = true".toList ++ ['\n']) := by decide
  rw [parts, String.toList_append, String.toList_append, lead, last]
  simp only [List.append_assoc, List.cons_append, List.nil_append]

theorem splitChars_body {host : String} (one : '\n' ∉ host.toList) :
    splitChars (· == '\n') (dropInBody host).toList =
      ["[[registry]]".toList, "location = ".toList ++ '"' :: (host.toList ++ ['"']),
        "insecure = true".toList, []] := by
  have apart {line : List Char} (h : '\n' ∉ line) : ∀ c ∈ line, (c == '\n') = false :=
    fun c mem => beq_false_of_ne fun same => h (same ▸ mem)
  have middle : '\n' ∉ "location = ".toList ++ '"' :: (host.toList ++ ['"']) := by
    rw [List.mem_append, List.mem_cons, List.mem_append]
    rintro (mem | quote | mem | quote)
    · exact absurd mem (by decide)
    · exact absurd quote (by decide)
    · exact one mem
    · exact absurd quote (by decide)
  rw [toList_dropInBody, splitChars_append (apart (by decide)) (beq_self_eq_true '\n'),
    splitChars_append (apart middle) (beq_self_eq_true '\n'),
    splitChars_append (apart (by decide)) (beq_self_eq_true '\n')]
  rfl

theorem readTables_body {host : String} (one : '\n' ∉ host.toList) :
    Toml.readTables (dropInBody host) =
      (Toml.readBasic (host.toList ++ ['"'])).bind fun read =>
        if Toml.endsLine read.2 then some [{
          name := "registry".toList
          entries := [("location".toList, .string read.1), ("insecure".toList, .boolean true)] }]
        else none := by
  have first : Toml.addLine [] "[[registry]]".toList =
      some [{ name := "registry".toList }] := by decide
  have second : Toml.addLine [{ name := "registry".toList }]
      ("location = ".toList ++ '"' :: (host.toList ++ ['"'])) =
      (Toml.readBasic (host.toList ++ ['"'])).bind fun read =>
        if Toml.endsLine read.2 then some [{
          name := "registry".toList, entries := [("location".toList, .string read.1)] }]
        else none := by
    rw [Toml.addLine, readLine_location]
    cases Toml.readBasic (host.toList ++ ['"']) with
    | none => rfl
    | some read =>
        rw [Option.bind_some, Option.bind_some]
        split <;> rfl
  rw [Toml.readTables, splitChars_body one, List.foldlM_cons, first, Option.bind_eq_bind,
    Option.bind_some, List.foldlM_cons, second]
  cases Toml.readBasic (host.toList ++ ['"']) with
  | none => rfl
  | some read =>
      rw [Option.bind_some, Option.bind_some]
      split <;> rfl

theorem readTables_iff {host : String} (one : '\n' ∉ host.toList) :
    (∃ tables table, Toml.readTables (dropInBody host) = some tables ∧
      tables.filter isInsecureRegistry = [table] ∧
      table.entries.filter (·.1 == "location".toList) =
        [("location".toList, .string host.toList)]) ↔
      ∀ c ∈ host.toList, Toml.isPlain c = true := by
  rw [readTables_body one]
  constructor
  · rintro ⟨tables, table, read, only, located⟩
    obtain ⟨⟨text, rest⟩, basic, found⟩ := Option.bind_eq_some_iff.mp read
    rw [Option.ite_none_right_eq_some] at found
    obtain ⟨-, ⟨⟩⟩ := found
    obtain ⟨rfl, -⟩ := List.cons.inj (only.symm.trans (by rfl))
    obtain ⟨same, -⟩ := List.cons.inj located
    obtain ⟨-, same⟩ := Prod.mk.inj same
    obtain rfl := Toml.Value.string.inj same
    exact Toml.readBasic_eq_self basic
  · intro plain
    rw [Toml.readBasic_plain plain]
    exact ⟨_, _, rfl, rfl, rfl⟩

/-! ## The characters of a host -/

theorem beforeSlash_eq {front rest : List Char} (h : '/' ∉ front) :
    beforeSlash (String.ofList (front ++ '/' :: rest)) = String.ofList front := by
  have first : splitOnce (String.ofList (front ++ '/' :: rest)) '/' =
      some (String.ofList front, String.ofList rest) :=
    splitOnce_eq_some.mpr (by simpa using h)
  rw [beforeSlash, split_of_splitOnce first]
  rfl

theorem mem_beforeSlash {text : String} {c : Char} (mem : c ∈ (beforeSlash text).toList) :
    c ∈ text.toList := by
  cases found : splitOnce text '/' with
  | none =>
      rw [beforeSlash, split_of_not_mem (splitOnce_eq_none.mp found)] at mem
      exact mem
  | some parts =>
      rw [beforeSlash, split_of_splitOnce found] at mem
      rw [(splitOnce_eq_some.mp found).1]
      exact List.mem_append_left _ mem

theorem mem_withoutLead {text lead : String} {c : Char} (mem : c ∈ (withoutLead text lead).toList) :
    c ∈ text.toList := by
  unfold withoutLead at mem
  split at mem
  · rw [String.toList_ofList] at mem
    exact List.mem_of_mem_drop mem
  · exact mem

theorem localRegistryHost_eq_some {image host : String} (h : localRegistryHost image = some host) :
    host = beforeSlash (withoutLead image "docker://") := by
  unfold localRegistryHost at h
  dsimp only at h
  split at h
  · cases h
  · split at h
    · exact (Option.some.inj h).symm
    · cases h

theorem printed_of_not_control {c : Char}
    (h : (isWhitespace c = false ∧ decide (c.val < 32) = false) ∧
      ¬(decide (127 ≤ c.val) = true ∧ decide (c.val < 160) = true)) :
    0x20 ≤ c.toNat ∧ c.toNat ≠ 0x7f := by
  obtain ⟨⟨-, low⟩, delete⟩ := h
  refine ⟨Nat.not_lt.mp fun below => of_decide_eq_false low (UInt32.lt_iff_toNat_lt.mpr below),
    fun same => ?_⟩
  have val : c.val = 127 := UInt32.toNat_inj.mp same
  rw [val] at delete
  exact absurd delete (by decide)

theorem dropInExact_iff {image : String} (valid : validReference image = true) :
    DropInExact image ↔
      ∀ host, localRegistryHost image = some host → '"' ∉ host.toList ∧ '\\' ∉ host.toList := by
  unfold DropInExact allowInsecureLocalRegistry
  cases found : localRegistryHost image with
  | none => exact iff_of_true (fun _ h => by cases h) fun _ h => by cases h
  | some host =>
      have printed : ∀ c ∈ host.toList, 0x20 ≤ c.toNat ∧ c.toNat ≠ 0x7f := by
        rw [localRegistryHost_eq_some found]
        intro c mem
        simp only [validReference, Bool.and_eq_true, Bool.not_eq_true', List.any_eq_false,
          Bool.or_eq_true, not_or, Bool.not_eq_true] at valid
        exact printed_of_not_control (valid.2 c (mem_withoutLead (mem_beforeSlash mem)))
      have one : '\n' ∉ host.toList := fun mem => absurd (printed '\n' mem).1 (by decide)
      have plain : (∀ c ∈ host.toList, Toml.isPlain c = true) ↔
          '"' ∉ host.toList ∧ '\\' ∉ host.toList := by
        constructor
        · intro plain
          exact ⟨fun mem => absurd (plain '"' mem) (by decide),
            fun mem => absurd (plain '\\' mem) (by decide)⟩
        · rintro ⟨noQuote, noBackslash⟩ c mem
          have quote : c ≠ '"' := fun same => noQuote (same ▸ mem)
          have backslash : c ≠ '\\' := fun same => noBackslash (same ▸ mem)
          obtain ⟨low, delete⟩ := printed c mem
          have tomlControl : Toml.isControl c = false := by
            rw [Toml.isControl, decide_eq_false (Nat.not_lt.mpr low), Bool.false_and,
              Bool.false_or]
            exact beq_eq_false_iff_ne.mpr delete
          simp [Toml.isPlain, tomlControl, quote, backslash]
      constructor
      · rintro named host' ⟨⟩
        obtain ⟨_, tables, table, ⟨⟩, read, only, located⟩ := named (dropInBody host) rfl
        exact plain.mp ((readTables_iff one).mp ⟨tables, table, read, only, located⟩)
      · rintro clean body ⟨⟩
        obtain ⟨tables, table, read⟩ := (readTables_iff one).mpr (plain.mpr (clean host rfl))
        exact ⟨host, tables, table, rfl, read⟩

/-! ## Splitting at the last colon -/

theorem rsplitOnce_eq_some {text front back : String} {sep : Char} :
    rsplitOnce text sep = some (front, back) ↔
      text.toList = front.toList ++ sep :: back.toList ∧ sep ∉ back.toList := by
  simp only [rsplitOnce, Option.map_eq_some_iff, Prod.exists, splitOnceChars_eq_some,
    Prod.mk.injEq]
  constructor
  · rintro ⟨last, first, ⟨whole, fresh⟩, rfl, rfl⟩
    have forward := congrArg List.reverse whole
    rw [List.reverse_reverse, List.reverse_append, List.reverse_cons, List.append_assoc] at forward
    exact ⟨by simpa using forward, by simpa using fresh⟩
  · rintro ⟨whole, fresh⟩
    exact ⟨back.toList.reverse, front.toList.reverse, by simp [whole, fresh], by simp, by simp⟩

theorem rsplitOnce_eq_none {text : String} {sep : Char} (h : sep ∉ text.toList) :
    rsplitOnce text sep = none := by
  rw [rsplitOnce, splitOnceChars_of_not_mem (by simpa using h), Option.map_none]

theorem trimStartMatches_eq_self {text : String} {c : Char} (h : c ∉ text.toList) :
    trimStartMatches text c = text := by
  have kept : text.toList.dropWhile (· == c) = text.toList := by
    cases chars : text.toList with
    | nil => rfl
    | cons x rest =>
        rw [chars, List.mem_cons, not_or] at h
        exact List.dropWhile_cons_of_neg (by simpa using Ne.symm h.1)
  rw [trimStartMatches, kept, String.ofList_toList]

theorem trimEndMatches_eq_self {text : String} {c : Char} (h : c ∉ text.toList) :
    trimEndMatches text c = text := by
  have kept := @trimStartMatches_eq_self (String.ofList text.toList.reverse) c
    (by simpa using h)
  rw [trimStartMatches, String.toList_ofList] at kept
  rw [trimEndMatches, ← String.toList_inj, String.toList_ofList, String.ofList_inj.mp kept,
    List.reverse_reverse]

/-! ## The characters of authorities -/

theorem not_mem_of_all {text : String} {p : Char → Bool} (all : text.toList.all p = true) {c : Char}
    (h : p c = false) : c ∉ text.toList := fun mem => by
  rw [List.all_eq_true.mp all c mem] at h
  cases h

theorem not_mem_literal {text : String} {address : Ipv6Addr} (parsed : parseIpv6 text = some address)
    {c : Char} (h : isIpChar c = false) : c ∉ text.toList :=
  not_mem_of_all (List.all_eq_true.mpr (parseIpv6_chars parsed)) h

theorem hostName_of_port {name : String} {port : Port} :
    hostName (name ++ ":" ++ port.digits) = trimEndMatches (trimStartMatches name '[') ']' := by
  have digits : ':' ∉ port.digits.toList := not_mem_of_all port.decimal (by decide)
  have found : rsplitOnce (name ++ ":" ++ port.digits) ':' = some (name, port.digits) :=
    rsplitOnce_eq_some.mpr ⟨by simp, digits⟩
  rw [hostName, found]
  rfl

/-! ## The host of a reference -/

theorem toList_literal (text : String) : ("[" ++ text ++ "]").toList = '[' :: (text.toList ++ [']']) := by
  simp

theorem slash_not_mem_host (host : ReferenceHost) : '/' ∉ host.text.toList := by
  cases host with
  | name text nonempty plain => exact not_mem_of_all plain (by decide)
  | literal text address parsed =>
      rw [ReferenceHost.text, toList_literal, List.mem_cons, List.mem_append, List.mem_singleton]
      rintro (mem | mem | mem)
      · exact absurd mem (by decide)
      · exact not_mem_literal parsed (by decide) mem
      · exact absurd mem (by decide)

theorem toList_authority (r : Reference) : r.authority.toList =
    r.host.text.toList ++ (r.port.map fun port => ':' :: port.digits.toList).getD [] := by
  unfold Reference.authority
  cases r.port <;> simp

theorem slash_not_mem_authority (r : Reference) : '/' ∉ r.authority.toList := by
  rw [toList_authority, List.mem_append]
  rintro (mem | mem)
  · exact slash_not_mem_host r.host mem
  · cases found : r.port with
    | none =>
        rw [found] at mem
        cases mem
    | some port =>
        rw [found, Option.map_some, Option.getD_some, List.mem_cons] at mem
        rcases mem with mem | mem
        · exact absurd mem (by decide)
        · exact not_mem_of_all port.decimal (by decide) mem

theorem host_ne_nil (host : ReferenceHost) : host.text.toList ≠ [] := by
  cases host with
  | name text nonempty plain =>
      exact fun empty => nonempty (String.toList_inj.mp empty)
  | literal text address parsed =>
      rw [ReferenceHost.text, toList_literal]
      exact List.cons_ne_nil _ _

/-- No authority is the first part of a transport. -/
theorem authority_ne_transport (r : Reference) : r.authority.toList ≠ "docker:".toList := by
  rw [toList_authority]
  intro same
  cases found : r.port with
  | none =>
      rw [found, Option.map_none, Option.getD_none, List.append_nil] at same
      cases host : r.host with
      | name text nonempty plain =>
          rw [host, ReferenceHost.text] at same
          exact not_mem_of_all plain (c := ':') (by decide) (by rw [same]; decide)
      | literal text address parsed =>
          rw [host, ReferenceHost.text, toList_literal] at same
          exact absurd (List.cons.inj same).1 (by decide)
  | some port =>
      rw [found, Option.map_some, Option.getD_some] at same
      have nonempty : port.digits.toList ≠ [] := fun empty =>
        port.nonempty (String.toList_inj.mp empty)
      have last := congrArg List.getLast? same
      rw [List.getLast?_append, List.getLast?_cons, List.getLast?_eq_some_getLast nonempty] at last
      have digit := List.all_eq_true.mp port.decimal _ (List.getLast_mem nonempty)
      have colon : port.digits.toList.getLast nonempty = ':' := by
        simpa using last
      rw [colon] at digit
      exact absurd digit (by decide)

theorem withoutLead_text (r : Reference) :
    withoutLead r.text "docker://" = String.ofList (r.authority.toList ++ '/' :: r.path.toList) := by
  have rest : (r.authority ++ "/" ++ r.path).toList = r.authority.toList ++ '/' :: r.path.toList := by
    simp
  unfold withoutLead Reference.text
  cases r.transport with
  | true =>
      have whole : ("docker://" ++ r.authority ++ "/" ++ r.path).toList =
          "docker://".toList ++ (r.authority.toList ++ '/' :: r.path.toList) := by
        rw [← rest]
        simp only [String.toList_append, List.append_assoc]
      rw [if_pos rfl, if_pos (startsWith_iff.mpr ⟨_, whole⟩), whole, List.drop_left]
  | false =>
      have whole : ((if false = true then "docker://" else "") ++ r.authority ++ "/" ++
          r.path).toList = r.authority.toList ++ '/' :: r.path.toList := by
        rw [← rest]
        simp
      rw [if_neg fun begins => ?_, ← whole, String.ofList_toList]
      obtain ⟨more, same⟩ := startsWith_iff.mp begins
      rw [whole] at same
      have apart := (splitOnceChars_append (slash_not_mem_authority r) r.path.toList).symm.trans
        (congrArg (splitOnceChars '/') same)
      have first : splitOnceChars '/' ("docker://".toList ++ more) =
          some ("docker:".toList, '/' :: more) :=
        @splitOnceChars_append '/' "docker:".toList (by decide) ('/' :: more)
      rw [first] at apart
      exact authority_ne_transport r (Prod.mk.inj (Option.some.inj apart)).1

theorem localRegistryHost_text (r : Reference) : localRegistryHost r.text =
    if hostName r.authority == "localhost" || (parseIp (hostName r.authority)).isSome then
      some r.authority else none := by
  have host : beforeSlash (withoutLead r.text "docker://") = r.authority := by
    rw [withoutLead_text, beforeSlash_eq (slash_not_mem_authority r), String.ofList_toList]
  have nonempty : r.authority.isEmpty = false := by
    refine Bool.eq_false_iff.mpr fun empty => host_ne_nil r.host ?_
    have chars := toList_authority r
    rw [String.isEmpty_iff.mp empty] at chars
    exact (List.append_eq_nil_iff.mp chars.symm).1
  rw [localRegistryHost, host]
  dsimp only
  rw [nonempty, if_neg Bool.false_ne_true]

/-! ## Hosts that are local -/

theorem trim_plain {text : String} (first : '[' ∉ text.toList) (last : ']' ∉ text.toList) :
    trimEndMatches (trimStartMatches text '[') ']' = text := by
  rw [trimStartMatches_eq_self first, trimEndMatches_eq_self last]

theorem trim_brackets {text : String} (first : '[' ∉ text.toList) (last : ']' ∉ text.toList) :
    trimEndMatches (trimStartMatches ("[" ++ text ++ "]") '[') ']' = text := by
  have front : trimStartMatches ("[" ++ text ++ "]") '[' = text ++ "]" := by
    have rest := @trimStartMatches_eq_self (text ++ "]") '[' (by simpa using first)
    rw [trimStartMatches, toList_literal, List.dropWhile_cons_of_pos (by decide)]
    rw [trimStartMatches, String.toList_append] at rest
    exact rest
  have back := trimEndMatches_eq_self last
  rw [trimEndMatches] at back
  rw [front, trimEndMatches, String.toList_append, List.reverse_append]
  have bracket : "]".toList.reverse = [']'] := rfl
  rw [bracket, List.singleton_append, List.dropWhile_cons_of_pos (by decide)]
  exact back

theorem parseIp_isSome_of_no_colon {text : String} (h : ':' ∉ text.toList) :
    (parseIp text).isSome = (parseIpv4 text).isSome := by
  rcases parsed : parseIp text with _ | ⟨address | address⟩
  · cases v4 : parseIpv4 text with
    | none => rfl
    | some address =>
        rw [parseIp_eq_v4.mpr v4] at parsed
        cases parsed
  · rw [parseIp_eq_v4.mp parsed]
    rfl
  · exact absurd ((colon_mem_iff parsed).mpr rfl) h

theorem localhost_isIpChar {text : String} (chars : ∀ c ∈ text.toList, isIpChar c = true) :
    (text == "localhost") = false := by
  refine beq_false_of_ne ?_
  rintro rfl
  exact absurd (chars 'l' (by decide)) (by decide)

/-- The text of an IPv6 address has a colon. -/
theorem exists_lastColon {text : String} {address : Ipv6Addr}
    (parsed : parseIpv6 text = some address) :
    ∃ front back, rsplitOnce text ':' = some (front, back) := by
  have colon := (colon_mem_iff (DelegatedLemmas.parseIp_eq_v6.mpr parsed)).mpr rfl
  cases found : rsplitOnce text ':' with
  | some parts => exact ⟨parts.1, parts.2, rfl⟩
  | none =>
      rw [rsplitOnce, Option.map_eq_none_iff] at found
      obtain ⟨front, rest, whole, fresh⟩ :=
        List.eq_append_cons_of_mem (List.mem_reverse.mpr colon)
      rw [whole, splitOnceChars_append fresh] at found
      cases found

theorem localRegistryHost_iff (r : Reference) :
    localRegistryHost r.text = (if r.host.isLocal then some r.authority else none) ↔
      ¬r.Misread := by
  rw [localRegistryHost_text]
  cases host : r.host with
  | name text nonempty plain =>
      have first : '[' ∉ text.toList := not_mem_of_all plain (by decide)
      have last : ']' ∉ text.toList := not_mem_of_all plain (by decide)
      have colon : ':' ∉ text.toList := not_mem_of_all plain (by decide)
      have name : hostName r.authority = text := by
        unfold Reference.authority
        rw [host, ReferenceHost.text]
        cases r.port with
        | some port => exact hostName_of_port.trans (trim_plain first last)
        | none =>
            rw [hostName, rsplitOnce_eq_none colon]
            exact trim_plain first last
      rw [name, parseIp_isSome_of_no_colon colon]
      refine iff_of_true rfl ?_
      rintro ⟨-, other, address, parsed, same, -⟩
      rw [host] at same
      cases same
  | literal text address parsed =>
      have first : '[' ∉ text.toList := not_mem_literal parsed (by decide)
      have last : ']' ∉ text.toList := not_mem_literal parsed (by decide)
      cases port : r.port with
      | some port' =>
          have name : hostName r.authority = text := by
            unfold Reference.authority
            rw [host, ReferenceHost.text, port]
            exact hostName_of_port.trans (trim_brackets first last)
          rw [name, DelegatedLemmas.parseIp_eq_v6.mpr parsed]
          refine iff_of_true (by simp [ReferenceHost.isLocal]) ?_
          rintro ⟨none, -⟩
          rw [port] at none
          cases none
      | none =>
          obtain ⟨front, back, split⟩ := exists_lastColon parsed
          obtain ⟨whole, fresh⟩ := rsplitOnce_eq_some.mp split
          have chars : ∀ c ∈ front.toList, isIpChar c = true := fun c mem =>
            parseIpv6_chars parsed c (by rw [whole]; exact List.mem_append_left _ mem)
          have name : hostName r.authority = front := by
            have split' : rsplitOnce ("[" ++ text ++ "]") ':' = some ("[" ++ front, back ++ "]") := by
              refine rsplitOnce_eq_some.mpr ⟨by simp [whole], ?_⟩
              simpa using fresh
            have trimmed : trimStartMatches ("[" ++ front) '[' = front := by
              have rest := @trimStartMatches_eq_self front '[' fun mem => first (by
                rw [whole]
                exact List.mem_append_left _ mem)
              rw [trimStartMatches] at rest
              rw [trimStartMatches, String.toList_append]
              exact rest
            unfold Reference.authority
            rw [host, ReferenceHost.text, port, hostName]
            dsimp only
            rw [split', Option.map_some, Option.getD_some, trimmed]
            exact trimEndMatches_eq_self fun mem => last (by
              rw [whole]
              exact List.mem_append_left _ mem)
          have misread : r.Misread ↔ parseIp front = none := by
            constructor
            · rintro ⟨-, other, address', parsed', same, none⟩
              rw [host] at same
              cases same
              rw [split] at none
              exact none
            · intro none
              refine ⟨port, text, address, parsed, host, ?_⟩
              rw [split]
              exact none
          rw [name, localhost_isIpChar chars, misread, Bool.false_or]
          cases parseIp front <;> simp [ReferenceHost.isLocal]

end RegistryLemmas

open RegistryLemmas

/-- A local host is found, and no other host name, exactly if it is not an IPv6 literal
without a port that is cut at its last colon. The drop-in of an accepted reference names its
host exactly if that has no quote and no backslash. -/
theorem local_registries_exact (r : Reference) {image : String}
    (valid : validReference image = true) :
    (localRegistryHost r.text = (if r.host.isLocal then some r.authority else none) ↔
      ¬r.Misread) ∧
    (DropInExact image ↔
      ∀ host, localRegistryHost image = some host → '"' ∉ host.toList ∧ '\\' ∉ host.toList) :=
  ⟨localRegistryHost_iff r, dropInExact_iff valid⟩

/-- With its port, 10.0.2.2:5000. -/
def localReference : Reference where
  transport := false
  host := .name "10.0.2.2" (by decide) (by decide)
  port := some ⟨"5000", by decide, by decide⟩
  path := "fwos:next"

theorem local_registries_exact_port :
    localRegistryHost localReference.text = some "10.0.2.2:5000" ∧
      DropInExact localReference.text := by
  have exact := @local_registries_exact localReference localReference.text (by decide +kernel)
  have found : localRegistryHost localReference.text = some "10.0.2.2:5000" :=
    exact.1.mpr fun misread => by cases misread.1
  refine ⟨found, exact.2.mpr fun host same => ?_⟩
  cases found.symm.trans same
  decide

/-- An IPv6 literal without a port is not found, and a quote ends the location. -/
theorem local_registry_missed :
    parseIpv6 "::1" = some 1 ∧ localRegistryHost "[::1]/fwos:next" = none ∧
    validReference "localhost:\"/fwos:next" = true ∧
    (allowInsecureLocalRegistry "localhost:\"/fwos:next" (.ok ()) (.ok ())).1 =
      some (dropInBody "localhost:\"") ∧
    Toml.readTables (dropInBody "localhost:\"") = none := by
  decide +kernel

end Fwos.Update
