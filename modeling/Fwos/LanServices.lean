import Fwos.LanAddress
import Fwos.Addresses
import Fwos.Netd.World

/-!
# The LAN services

`program_lan_services` gives the LAN its service addresses and writes the
configuration of its DHCP servers and of its resolver. The prefix and the pool are
read here by other functions than those that accepted them.

* `LanProgram.Generated`: generation cannot fail by itself, and the pool that is
  written is the one that was checked.
* `generated_iff`: the accepted states of which this holds.
-/

namespace Fwos

open Effects Rust

/-! ## Files and commands -/

/-- The values in `kea-dhcp4.conf`. -/
structure Dhcp4Conf where
  dev : String
  subnet : String
  poolStart : String
  poolEnd : String
  router : String
deriving DecidableEq, Repr

/-- The values in `kea-dhcp6.conf`. -/
structure Dhcp6Conf where
  dev : String
  subnet : String
  poolStart : String
  poolEnd : String
deriving DecidableEq, Repr

/-- The values in `unbound.conf`. -/
structure UnboundConf where
  interface : String
  accessControl : String
deriving DecidableEq, Repr

structure LanServiceFiles where
  dhcp4 : Option Dhcp4Conf := none
  dhcp6 : Option Dhcp6Conf := none
  unbound : Option UnboundConf := none
deriving DecidableEq, Repr

inductive LanServiceConf where
  | dhcp4 (conf : Dhcp4Conf)
  | dhcp6 (conf : Dhcp6Conf)
  | unbound (conf : UnboundConf)

inductive LanServiceFile where
  | dhcp4
  | dhcp6
  | unbound

namespace LanServiceFiles

def write (files : LanServiceFiles) : LanServiceConf → LanServiceFiles
  | .dhcp4 conf => { files with dhcp4 := some conf }
  | .dhcp6 conf => { files with dhcp6 := some conf }
  | .unbound conf => { files with unbound := some conf }

def remove (files : LanServiceFiles) : LanServiceFile → LanServiceFiles
  | .dhcp4 => { files with dhcp4 := none }
  | .dhcp6 => { files with dhcp6 := none }
  | .unbound => { files with unbound := none }

end LanServiceFiles

inductive LanCommand where
  /-- The files that the DHCPv6 clients leave; a file that is not there reads as none. -/
  | pdFiles
  | addrAdd (dev cidr : String)
  | addrDel (dev cidr : String)
  | createDir (path : String)
  | write (conf : LanServiceConf)
  | remove (file : LanServiceFile)
  /-- `set_lan_services_ready(true)`. -/
  | ready

abbrev LanCommand.Ans : LanCommand → Type
  | .pdFiles => PdFiles
  | _ => Except String Unit

/-- The kernel keys an address by its device, the address and the prefix length. -/
structure LanAddressKey where
  dev : String
  ip : IpAddr
  bits : Nat
deriving DecidableEq, Repr

/-- The key that `ip` reads from a CIDR. -/
def lanAddressKey (dev cidr : String) : Option LanAddressKey :=
  (BootstrapValues.cidr cidr).map fun (ip, bits) => ⟨dev, ip, bits⟩

structure LanHost where
  pdFiles : PdFiles
  /-- The addresses that are live. -/
  addresses : List LanAddressKey := []
  files : LanServiceFiles := {}

namespace LanHost

/-- An address that exists is no error, and stays one address. -/
def addrAdd (host : LanHost) (dev cidr : String) : LanHost :=
  match lanAddressKey dev cidr with
  | some key => { host with addresses := host.addresses.insert key }
  | none => host

def addrDel (host : LanHost) (dev cidr : String) : LanHost :=
  { host with addresses := host.addresses.filter fun key => lanAddressKey dev cidr != some key }

/-- The effect of a command that does not fail. -/
def after (host : LanHost) : LanCommand → LanHost
  | .addrAdd dev cidr => host.addrAdd dev cidr
  | .addrDel dev cidr => host.addrDel dev cidr
  | .write conf => { host with files := host.files.write conf }
  | .remove file => { host with files := host.files.remove file }
  | .pdFiles | .createDir _ | .ready => host

def answer (host : LanHost) (result : Except String Unit) : (command : LanCommand) → command.Ans
  | .pdFiles => host.pdFiles
  | .addrAdd _ _ | .addrDel _ _ | .createDir _ | .write _ | .remove _ | .ready => result

/-- Each command may fail, before or after its effect. -/
def exec (command : LanCommand) (fault : Option Fault) (host : LanHost) :
    command.Ans × LanHost :=
  match fault with
  | none => (host.answer (.ok ()) command, host.after command)
  | some (.before error) => (host.answer (.error error) command, host)
  | some (.after error) => (host.answer (.error error) command, host.after command)

def semantics : Semantics LanCommand LanCommand.Ans (Option Fault) LanHost := ⟨exec⟩

end LanHost

namespace LanProgram

/-- Functions that return `Result<α, String>`. -/
abbrev Steps (α : Type) := ExceptT String (Program LanCommand LanCommand.Ans) α

def pdFiles : Steps PdFiles := ExceptT.lift (perform LanCommand.pdFiles)

def addAddr (dev cidr : String) : Steps Unit := ExceptT.mk (perform (LanCommand.addrAdd dev cidr))

def delAddr (dev cidr : String) : Steps Unit := ExceptT.mk (perform (LanCommand.addrDel dev cidr))

def createDir (path : String) : Steps Unit := ExceptT.mk (perform (LanCommand.createDir path))

def write (conf : LanServiceConf) : Steps Unit := ExceptT.mk (perform (LanCommand.write conf))

def remove (file : LanServiceFile) : Steps Unit := ExceptT.mk (perform (LanCommand.remove file))

def setReady : Steps Unit := ExceptT.mk (perform LanCommand.ready)

/-! ## The source's functions -/

def removeLanServiceConfigs : Steps Unit := do
  remove .dhcp4
  remove .dhcp6
  remove .unbound

def pdSubnet64 (pd : String) : Option String := (BootstrapValues.delegatedLan pd).map (·.subnetCidr)

def pdPool (pd : String) : Option (String × String) :=
  (BootstrapValues.delegatedLan pd).map fun lan => (lan.poolStart, lan.poolEnd)

def keaDhcp6Conf (lan pd : String) : Option Dhcp6Conf := do
  let subnet ← pdSubnet64 pd
  let (first, last) ← pdPool pd
  return { dev := lan, subnet := subnet, poolStart := first, poolEnd := last }

def writeKeaDhcp6 (lan : String) (delegated : Option String) : Steps Unit :=
  match delegated.bind (keaDhcp6Conf lan) with
  | some conf => write (.dhcp6 conf)
  | none => remove .dhcp6

def keaDhcp4Conf (lan text pool host : String) : Dhcp4Conf := {
  dev := lan
  subnet := text
  poolStart := (splitPool pool).1
  poolEnd := (splitPool pool).2
  router := host
}

/-- The IPv6 address of the LAN, in the prefix that is routed to it. -/
def programRouted (lan : String) (delegated : Option String) : Steps Unit :=
  match delegated.bind pdLanAddr with
  | some v6 => addAddr lan v6
  | none => pure ()

/-- The IPv4 address of the LAN services. -/
def programService (lan : String) (text : Option String) : Steps (Option String) :=
  match text with
  | some text => do
      let host ← ExceptT.mk (pure (okOr (firstV4Host text) "lan_prefix has no v4 host"))
      addAddr lan s!"{host}/{prefixLength text}"
      return some host
  | none => return none

def writeDhcp4 (lan : String) (text host pool : Option String) : Steps Unit :=
  match text, host, pool with
  | some text, some host, some pool => do
      write (.dhcp4 (keaDhcp4Conf lan text pool host))
      write (.unbound { interface := host, accessControl := text })
  | _, _, _ => do
      remove .dhcp4
      remove .unbound

def programLanServices (state : DesiredState) (publish : Bool) : Steps Unit :=
  match lanL2 state with
  | none => if publish then removeLanServiceConfigs else pure ()
  | some lan => do
      let delegated := routedLanPrefix (← pdFiles) state
      programRouted lan.name delegated
      let host ← programService lan.name (lanServicePrefix state)
      if publish then do
        createDir "/var/lib/fwos/kea"
        createDir "/var/lib/fwos/unbound"
        writeDhcp4 lan.name (lanServicePrefix state) host state.dhcpPool
        writeKeaDhcp6 lan.name delegated
      else pure ()

/-! ## Runs in which no command fails -/

/-- If no command fails, the steps can only end so. -/
def Ends {α : Type} (steps : Steps α) (host : LanHost) (Q : Except String α → LanHost → Prop) :
    Prop :=
  steps.run.wp LanHost.semantics (· = none) (fun _ => True) Q host

section Ends

variable {α β : Type} {host : LanHost}

theorem calm_call {command : LanCommand}
    {next : command.Ans → Program LanCommand LanCommand.Ans α} {Q : α → LanHost → Prop} :
    (Program.call command next).wp LanHost.semantics (· = none) (fun _ => True) Q host ↔
      (next (host.answer (.ok ()) command)).wp LanHost.semantics (· = none) (fun _ => True) Q
        (host.after command) := by
  constructor
  · intro h
    exact h.2 none rfl
  · intro h
    refine ⟨trivial, fun fault calm => ?_⟩
    subst calm
    exact h

theorem ends_bind {steps : Steps α} {next : α → Steps β} {Q : Except String β → LanHost → Prop} :
    Ends (steps >>= next) host Q ↔
      Ends steps host (afterExcept Q fun value host => Ends (next value) host Q) :=
  wp_bindExcept

variable {Q : Except String Unit → LanHost → Prop}

theorem ends_pdFiles {Q : Except String PdFiles → LanHost → Prop} :
    Ends pdFiles host Q ↔ Q (.ok host.pdFiles) host := calm_call

theorem ends_addAddr {dev cidr : String} :
    Ends (addAddr dev cidr) host Q ↔ Q (.ok ()) (host.addrAdd dev cidr) := calm_call

theorem ends_createDir {path : String} : Ends (createDir path) host Q ↔ Q (.ok ()) host := calm_call

theorem ends_write {conf : LanServiceConf} :
    Ends (write conf) host Q ↔ Q (.ok ()) { host with files := host.files.write conf } := calm_call

theorem ends_remove {file : LanServiceFile} :
    Ends (remove file) host Q ↔ Q (.ok ()) { host with files := host.files.remove file } := calm_call

end Ends

/-! ## What is written -/

/-- The DHCPv4 configuration that the state leads to. -/
def dhcp4Written (state : DesiredState) (lan : String) : Option Dhcp4Conf := do
  let text ← lanServicePrefix state
  let host ← firstV4Host text
  let pool ← state.dhcpPool
  return keaDhcp4Conf lan text pool host

theorem ends_programRouted {lan : String} {delegated : Option String} {host : LanHost}
    {Q : Except String Unit → LanHost → Prop}
    (h : ∀ after, after.files = host.files → Q (.ok ()) after) :
    Ends (programRouted lan delegated) host Q := by
  unfold programRouted
  split
  · refine ends_addAddr.mpr (h _ ?_)
    unfold LanHost.addrAdd
    split <;> rfl
  · exact h host rfl

theorem ends_programService {lan : String} {text : Option String} {before : LanHost}
    {Q : Except String (Option String) → LanHost → Prop}
    (serves : ∀ t, text = some t → (firstV4Host t).isSome = true)
    (h : ∀ after, Q (.ok (text.bind firstV4Host)) after) :
    Ends (programService lan text) before Q := by
  cases text with
  | none => exact h before
  | some text =>
      obtain ⟨host, hs⟩ := Option.isSome_iff_exists.mp (serves text rfl)
      rw [Option.bind_some, hs] at h
      unfold programService
      dsimp only
      rw [hs]
      exact ends_bind.mpr (ends_bind.mpr (ends_addAddr.mpr (h _)))

theorem ends_programService_fails {lan text : String} {before : LanHost}
    {Q : Except String (Option String) → LanHost → Prop} (hn : firstV4Host text = none)
    (h : ∀ after, Q (.error "lan_prefix has no v4 host") after) :
    Ends (programService lan (some text)) before Q := by
  unfold programService
  dsimp only
  rw [hn]
  exact h before

theorem ends_writeDhcp4 {lan : String} {text host pool : Option String} {before : LanHost}
    {Q : Except String Unit → LanHost → Prop}
    (h : ∀ after, after.files.dhcp4 = (do
        let text ← text
        let host ← host
        let pool ← pool
        return keaDhcp4Conf lan text pool host) → Q (.ok ()) after) :
    Ends (writeDhcp4 lan text host pool) before Q := by
  unfold writeDhcp4
  split
  next => exact ends_bind.mpr (ends_write.mpr (ends_write.mpr (h _ rfl)))
  next missing =>
    refine ends_bind.mpr (ends_remove.mpr (ends_remove.mpr (h _ ?_)))
    cases text with
    | none => rfl
    | some text =>
        cases host with
        | none => rfl
        | some host =>
            cases pool with
            | none => rfl
            | some pool => exact absurd rfl (missing text host pool rfl rfl)

theorem ends_writeKeaDhcp6 {lan : String} {delegated : Option String} {before : LanHost}
    {Q : Except String Unit → LanHost → Prop}
    (h : ∀ after, after.files.dhcp4 = before.files.dhcp4 → Q (.ok ()) after) :
    Ends (writeKeaDhcp6 lan delegated) before Q := by
  unfold writeKeaDhcp6
  split
  · exact ends_write.mpr (h _ rfl)
  · exact ends_remove.mpr (h _ rfl)

theorem ends_publish {state : DesiredState} {lan : String} {host delegated : Option String}
    {publish : Bool} {before : LanHost} {Q : Except String Unit → LanHost → Prop}
    (h : ∀ after, (publish = true → after.files.dhcp4 = (do
        let text ← lanServicePrefix state
        let host ← host
        let pool ← state.dhcpPool
        return keaDhcp4Conf lan text pool host)) → Q (.ok ()) after) :
    Ends (if publish then do
        createDir "/var/lib/fwos/kea"
        createDir "/var/lib/fwos/unbound"
        writeDhcp4 lan (lanServicePrefix state) host state.dhcpPool
        writeKeaDhcp6 lan delegated
      else pure ()) before Q := by
  split
  next =>
    refine ends_bind.mpr (ends_createDir.mpr (ends_bind.mpr (ends_createDir.mpr ?_)))
    refine ends_bind.mpr (ends_writeDhcp4 fun middle written => ?_)
    exact ends_writeKeaDhcp6 fun after same => h after fun _ => same.trans written
  next silent => exact h before fun loud => absurd loud silent

/-- Generation succeeds where the prefix has a host. -/
theorem ends_programLanServices {state : DesiredState} {lan : Iface} {publish : Bool}
    {host : LanHost} {Q : Except String Unit → LanHost → Prop} (hl : lanL2 state = some lan)
    (serves : ∀ text, lanServicePrefix state = some text → (firstV4Host text).isSome = true)
    (h : ∀ after, (publish = true → after.files.dhcp4 = dhcp4Written state lan.name) →
      Q (.ok ()) after) :
    Ends (programLanServices state publish) host Q := by
  unfold programLanServices
  rw [hl]
  refine ends_bind.mpr (ends_pdFiles.mpr (ends_bind.mpr (ends_programRouted fun routed _ => ?_)))
  refine ends_bind.mpr (ends_programService serves fun middle => ?_)
  refine ends_publish fun after written => h after fun loud => ?_
  rw [written loud, dhcp4Written]
  cases lanServicePrefix state with
  | none => rfl
  | some text =>
      simp only [Option.bind_eq_bind, Option.bind_some]

/-- It fails where the prefix has none, whatever the commands do. -/
theorem ends_programLanServices_fails {state : DesiredState} {lan : Iface} {publish : Bool}
    {host : LanHost} {text : String} (hl : lanL2 state = some lan)
    (ht : lanServicePrefix state = some text) (hn : firstV4Host text = none) :
    Ends (programLanServices state publish) host fun result _ =>
      result = .error "lan_prefix has no v4 host" := by
  unfold programLanServices
  rw [hl]
  refine ends_bind.mpr (ends_pdFiles.mpr (ends_bind.mpr (ends_programRouted fun routed _ => ?_)))
  rw [ht]
  exact ends_bind.mpr (ends_programService_fails hn fun after => rfl)

/-- There is a run in which no command fails, and it ends in only one way. -/
theorem Ends.both {α : Type} {steps : Steps α} {host : LanHost}
    {Q R : Except String α → LanHost → Prop} (hq : Ends steps host Q) (hr : Ends steps host R) :
    ∃ result after, Q result after ∧ R result after := by
  unfold Ends at hq hr
  generalize steps.run = program at hq hr
  induction program generalizing host with
  | pure result => exact ⟨result, host, hq, hr⟩
  | call command next ih => exact ih _ (hq.2 none rfl) (hr.2 none rfl)

/-! ## What was checked and what is written -/

/-- A pool that is more than white space. -/
def namedPool (state : DesiredState) : Option String :=
  state.dhcpPool.filter fun pool => !(trim pool).isEmpty

/-- The configuration holds a pool exactly if the state names one; and then the pool
is that of the two addresses which `addressing` reads, in the subnet it is written with. -/
structure PoolWritten (state : DesiredState) (conf : Option Dhcp4Conf) : Prop where
  named : conf.isSome = (namedPool state).isSome
  checked : ∀ written, conf = some written → ∀ pool, state.dhcpPool = some pool →
    ∃ first last network bits, BootstrapValues.poolBounds pool = .ok (first, last) ∧
      parseIpv4 written.poolStart = some first ∧ parseIpv4 written.poolEnd = some last ∧
      ipv4Prefix written.subnet = some (network, bits) ∧
      first &&& prefixMask 32 bits = network ∧ last &&& prefixMask 32 bits = network

/-- Generation fails only with a command, and writes the pool. -/
def Generated (state : DesiredState) : Prop :=
  ∀ host publish, Ends (programLanServices state publish) host fun result after =>
    result = .ok () ∧ (publish = true → PoolWritten state after.files.dhcp4)

theorem generated_iff_written {state : DesiredState} {lan : Iface} (hl : lanL2 state = some lan) :
    Generated state ↔
      (∀ text, lanServicePrefix state = some text → (firstV4Host text).isSome = true) ∧
        PoolWritten state (dhcp4Written state lan.name) := by
  constructor
  · intro generated
    have serves : ∀ text, lanServicePrefix state = some text →
        (firstV4Host text).isSome = true := by
      intro text ht
      cases hn : firstV4Host text with
      | some service => rfl
      | none =>
          obtain ⟨result, -, ⟨rfl, -⟩, failed⟩ :=
            (generated ⟨fun _ => none, [], {}⟩ true).both (ends_programLanServices_fails hl ht hn)
          cases failed
    refine ⟨serves, ?_⟩
    obtain ⟨-, after, ⟨-, written⟩, same⟩ :=
      (generated ⟨fun _ => none, [], {}⟩ true).both
        (ends_programLanServices (Q := fun _ after =>
          after.files.dhcp4 = dhcp4Written state lan.name) hl serves fun after h => h rfl)
    rw [← same]
    exact written rfl
  · rintro ⟨serves, written⟩ host publish
    exact ends_programLanServices hl serves fun after same =>
      ⟨rfl, fun loud => by rw [same loud]; exact written⟩

/-! ## Texts of pools -/

def withoutSpaces (text : String) : String := String.ofList (text.toList.filter (· != ' '))

/-- The two ends of a pool, as `addressing` separates them. -/
def poolEnds (pool : String) : String × String := (splitOnce pool '-').getD (pool, pool)

/-- The only white space in the text is spaces. -/
def SpacesOnly (text : String) : Prop := ∀ c ∈ text.toList, isWhitespace c = true → c = ' '

instance (text : String) : Decidable (SpacesOnly text) :=
  decidable_of_iff ((text.toList.all fun c => !isWhitespace c || c == ' ') = true) (by
    simp [SpacesOnly, or_iff_not_imp_left])

theorem splitPool_eq (pool : String) :
    splitPool pool = (withoutSpaces (poolEnds pool).1, withoutSpaces (poolEnds pool).2) := by
  show (splitOnce (withoutSpaces pool) '-').getD (withoutSpaces pool, withoutSpaces pool) = _
  unfold poolEnds
  cases hs : splitOnce pool '-' with
  | none =>
      have absent : splitOnce (withoutSpaces pool) '-' = none := by
        rw [splitOnce_eq_none] at hs ⊢
        rw [withoutSpaces, String.toList_ofList]
        exact fun mem => hs (List.mem_filter.mp mem).1
      rw [absent]
      rfl
  | some ends =>
      obtain ⟨front, rest⟩ := ends
      obtain ⟨whole, before⟩ := splitOnce_eq_some.mp hs
      have cut : splitOnce (withoutSpaces pool) '-' =
          some (withoutSpaces front, withoutSpaces rest) := by
        refine splitOnce_eq_some.mpr ⟨?_, ?_⟩
        · simp [withoutSpaces, whole, List.filter_append]
        · rw [withoutSpaces, String.toList_ofList]
          exact fun mem => before (List.mem_filter.mp mem).1
      rw [cut]
      rfl

theorem mem_poolEnds {pool : String} {c : Char} (mem : c ∈ pool.toList) (hc : c ≠ '-') :
    c ∈ (poolEnds pool).1.toList ∨ c ∈ (poolEnds pool).2.toList := by
  unfold poolEnds
  cases hs : splitOnce pool '-' with
  | none => exact .inl mem
  | some ends =>
      obtain ⟨whole, -⟩ := splitOnce_eq_some.mp hs
      rw [whole, List.mem_append, List.mem_cons] at mem
      rcases mem with front | same | rest
      · exact .inl front
      · exact absurd same hc
      · exact .inr rest

theorem poolEnds_mem {pool : String} {c : Char}
    (mem : c ∈ (poolEnds pool).1.toList ∨ c ∈ (poolEnds pool).2.toList) : c ∈ pool.toList := by
  unfold poolEnds at mem
  cases hs : splitOnce pool '-' with
  | none =>
      rw [hs] at mem
      exact mem.elim id id
  | some ends =>
      obtain ⟨whole, -⟩ := splitOnce_eq_some.mp hs
      rw [hs] at mem
      rw [whole, List.mem_append, List.mem_cons]
      exact mem.imp id .inr

theorem not_whitespace_of_parse {text : String} {ip : Ipv4Addr} (h : parseIpv4 text = some ip)
    {c : Char} (mem : c ∈ text.toList) : isWhitespace c = false := by
  obtain ⟨a, b, d, e, dotted, -⟩ := parseIpv4_eq_some.mp h
  by_contra hc
  rw [Bool.not_eq_false] at hc
  refine dotted.not_mem (not_isDigit_of_isWhitespace hc) ?_ mem
  rintro rfl
  exact absurd hc (by decide)

/-- With spaces only, leaving them out is the same as trimming. -/
theorem withoutSpaces_eq_trim {part : String} {ip : Ipv4Addr}
    (h : parseIpv4 (trim part) = some ip) (spaces : SpacesOnly part) :
    withoutSpaces part = trim part := by
  obtain ⟨lead, trail, whole, hlead, htrail⟩ := trimChars_eq part.toList
  have gone : ∀ ws : List Char, (∀ c ∈ ws, isWhitespace c = true) → (∀ c ∈ ws, c ∈ part.toList) →
      ws.filter (· != ' ') = [] := by
    intro ws white inside
    rw [List.filter_eq_nil_iff]
    intro c mem
    simpa using spaces c (inside c mem) (white c mem)
  have kept : (trimChars part.toList).filter (· != ' ') = trimChars part.toList := by
    rw [List.filter_eq_self]
    intro c mem
    have dark := not_whitespace_of_parse h (c := c) (by simpa [trim] using mem)
    rw [bne_iff_ne]
    rintro rfl
    exact absurd dark (by decide)
  rw [withoutSpaces, trim, whole, List.filter_append, List.filter_append, kept,
    gone lead hlead (fun c mem => by rw [whole]; simp [mem]),
    gone trail htrail (fun c mem => by rw [whole]; simp [mem]), ← whole]
  simp

theorem spacesOnly_of_parse {part : String} {ip : Ipv4Addr}
    (h : parseIpv4 (withoutSpaces part) = some ip) : SpacesOnly part := by
  intro c mem white
  by_contra other
  have dark := not_whitespace_of_parse h (c := c) (by simp [withoutSpaces, mem, other])
  rw [white] at dark
  cases dark

/-! ## Accepted values -/

open RevalidateLemmas LanAddressLemmas

theorem poolBounds_eq_ok {pool : String} {first last : Ipv4Addr} :
    BootstrapValues.poolBounds pool = .ok (first, last) ↔
      parseIpv4 (trim (poolEnds pool).1) = some first ∧
        parseIpv4 (trim (poolEnds pool).2) = some last := by
  simp only [BootstrapValues.poolBounds, bind_eq_ok, okOr_eq_ok, pure_eq_ok, Prod.mk.injEq]
  constructor
  · rintro ⟨_, hf, _, hl, rfl, rfl⟩
    exact ⟨hf, hl⟩
  · rintro ⟨hf, hl⟩
    exact ⟨first, hf, last, hl, rfl, rfl⟩

/-- A pool that was accepted is more than white space. -/
theorem pool_not_blank {pool : String} {bounds : Ipv4Addr × Ipv4Addr}
    (h : BootstrapValues.poolBounds pool = .ok bounds) : (trim pool).isEmpty = false := by
  obtain ⟨first, last⟩ := bounds
  obtain ⟨hf, -⟩ := poolBounds_eq_ok.mp h
  by_contra blank
  rw [Bool.not_eq_false, String.isEmpty_iff] at blank
  obtain ⟨lead, trail, whole, hlead, htrail⟩ := trimChars_eq pool.toList
  have nothing : trimChars pool.toList = [] := by
    simpa [trim] using congrArg String.toList blank
  rw [nothing, List.nil_append] at whole
  have noDash : splitOnce pool '-' = none := by
    rw [splitOnce_eq_none, whole, List.mem_append]
    rintro (mem | mem)
    · exact absurd (hlead _ mem) (by decide)
    · exact absurd (htrail _ mem) (by decide)
  have unread : parseIpv4 "" = none := by decide
  rw [poolEnds, noDash, Option.getD_none, blank, unread] at hf
  cases hf

/-- A configured prefix that was accepted, unless it is the empty text. -/
theorem configured_isIpv4Cidr {configured : String} {lan : Option (Ipv4Addr × Nat)}
    (hlan : BootstrapValues.lanNetwork (some configured) = .ok lan) (hne : configured ≠ "") :
    ∃ a b c d n, IsIpv4Cidr configured a b c d n ∧ lan = some (octetsToV4 a b c d, n) := by
  have hnon : nonEmpty (some configured) = some configured := by
    simp [nonEmpty, Option.filter, hne]
  simp only [BootstrapValues.lanNetwork, hnon] at hlan
  split at hlan
  next ip n hc =>
    split at hlan
    next =>
      obtain ⟨a, b, c, d, h4, rfl⟩ := cidr_eq_v4.mp hc
      cases hlan
      exact ⟨a, b, c, d, n, h4, rfl⟩
    next => cases hlan
  next => cases hlan

theorem mask_last_octet {a b c d : Nat} (hd : d < 256) :
    octetsToV4 a b c d &&& prefixMask 32 24 = octetsToV4 a b c 0 &&& prefixMask 32 24 := by
  refine BitVec.eq_of_getLsbD_eq fun i hi => ?_
  by_cases free : i + 24 < 32
  · rw [BitVec.getLsbD_and, BitVec.getLsbD_and, prefixMask_free free, Bool.and_false, Bool.and_false]
  · -- The bits from the eighth on are those of the other octets.
    have same : ∀ e < 256, (octetsToV4 a b c e).getLsbD i =
        (decide (i < 32) && ((a * 256 + b) * 256 + c).testBit (i - 8)) := by
      intro e he
      have shifted : (((a * 256 + b) * 256 + c) * 256 + e) / 2 ^ 8 = (a * 256 + b) * 256 + c := by
        omega
      have bit : ((((a * 256 + b) * 256 + c) * 256 + e) / 2 ^ 8).testBit (i - 8) =
          (((a * 256 + b) * 256 + c) * 256 + e).testBit (i - 8 + 8) := Nat.testBit_div_two_pow _ _
      rw [shifted, Nat.sub_add_cancel (by omega)] at bit
      rw [octetsToV4, BitVec.getLsbD_ofNat, bit]
    rw [BitVec.getLsbD_and, BitVec.getLsbD_and, same d hd, same 0 (by omega)]

/-- The prefix that a pool implies is the network of its first address. -/
theorem prefixFromPool_of_parse {pool : String} {first : Ipv4Addr}
    (h : parseIpv4 (splitPool pool).1 = some first) :
    ∃ text, prefixFromPool pool = some text ∧
      ipv4Prefix text = some (first &&& prefixMask 32 24, 24) := by
  obtain ⟨a, b, c, d, dotted, rfl⟩ := parseIpv4_eq_some.mp h
  obtain ⟨ha, hb, hc, hd⟩ := dotted.lt
  refine ⟨s!"{a}.{b}.{c}.0/24", ?_, ?_⟩
  · simp [prefixFromPool, dottedOctets, dotted.split]
  · rw [mask_last_octet hd]
    have front : IsDotted (s!"{a}.{b}.{c}.{0}").toList a b c 0 :=
      isDotted_display ha hb hc (by omega)
    refine ipv4Prefix_eq_some.mpr ⟨a, b, c, 0, 24, ⟨⟨_, "24", ?_, front, by decide⟩, by omega⟩, rfl⟩
    refine splitOnce_eq_some.mpr ⟨?_, front.not_mem (by decide) (by decide)⟩
    simp
    rfl

/-- The subnet that is written holds the addresses that were checked. -/
theorem subnet_of_accepted {state : DesiredState} {text pool : String} {first last : Ipv4Addr}
    {lan : Option (Ipv4Addr × Nat)}
    (hlan : BootstrapValues.lanNetwork state.lanPrefix = .ok lan)
    (inside : BootstrapValues.poolInside lan pool = .ok ())
    (bounds : BootstrapValues.poolBounds pool = .ok (first, last))
    (ht : lanServicePrefix state = some text) (hne : text ≠ "") (hpool : state.dhcpPool = some pool)
    (hstart : parseIpv4 (splitPool pool).1 = some first) :
    ∃ network bits, ipv4Prefix text = some (network, bits) ∧
      first &&& prefixMask 32 bits = network ∧ last &&& prefixMask 32 bits = network := by
  simp only [BootstrapValues.poolInside, bounds, bind_eq_ok, Except.ok.injEq, exists_eq_left',
    ensure_eq_ok, Bool.and_eq_true, beq_iff_eq] at inside
  obtain ⟨-, -, hfirst, hlast⟩ := inside
  cases hp : state.lanPrefix with
  | none =>
      rw [hp] at hlan
      cases hlan
      obtain ⟨implied, himplied, network⟩ := prefixFromPool_of_parse hstart
      obtain rfl : implied = text := by
        simpa [lanServicePrefix, hp, hpool, himplied] using ht
      exact ⟨_, 24, network, rfl, hlast⟩
  | some configured =>
      obtain rfl : configured = text := by simpa [lanServicePrefix, hp] using ht
      rw [hp] at hlan
      obtain ⟨a, b, c, d, n, h4, rfl⟩ := configured_isIpv4Cidr hlan hne
      exact ⟨_, n, ipv4Prefix_eq_some.mpr ⟨a, b, c, d, n, h4, rfl⟩, hfirst, hlast⟩

/-- The texts that `addressing` and the generation read alike: no prefix is the empty
text, nor is a pool where a prefix is configured, and the white space in a pool is
spaces. -/
structure ReadAlike (state : DesiredState) : Prop where
  prefixNamed : state.lanPrefix ≠ some ""
  poolNamed : state.dhcpPool = some "" → state.lanPrefix = none
  spaces : ∀ pool, state.dhcpPool = some pool → SpacesOnly pool

theorem serves_of_accepted {state : DesiredState} {lan : Option (Ipv4Addr × Nat)}
    (hlan : BootstrapValues.lanNetwork state.lanPrefix = .ok lan) {text : String}
    (ht : lanServicePrefix state = some text) (hne : text ≠ "") :
    (firstV4Host text).isSome = true := by
  have h4 : ∃ a b c d n, IsIpv4Cidr text a b c d n := by
    cases hp : state.lanPrefix with
    | none =>
        have fromPool : state.dhcpPool.bind prefixFromPool = some text := by
          simpa [lanServicePrefix, hp] using ht
        obtain ⟨pool, -, htext⟩ := Option.bind_eq_some_iff.mp fromPool
        obtain ⟨a, b, c, h4⟩ := prefixFromPool_isIpv4Cidr htext
        exact ⟨a, b, c, 0, 24, h4⟩
    | some configured =>
        obtain rfl : configured = text := by simpa [lanServicePrefix, hp] using ht
        rw [hp] at hlan
        obtain ⟨a, b, c, d, n, h4, -⟩ := configured_isIpv4Cidr hlan hne
        exact ⟨a, b, c, d, n, h4⟩
  obtain ⟨a, b, c, d, n, h4⟩ := h4
  rw [firstV4Host_eq h4]
  rfl

theorem prefix_named {state : DesiredState} (alike : state.lanPrefix ≠ some "") {text : String}
    (ht : lanServicePrefix state = some text) : text ≠ "" := by
  rintro rfl
  cases hp : state.lanPrefix with
  | some configured =>
      obtain rfl : configured = "" := by simpa [lanServicePrefix, hp] using ht
      exact alike hp
  | none =>
      have fromPool : state.dhcpPool.bind prefixFromPool = some "" := by
        simpa [lanServicePrefix, hp] using ht
      obtain ⟨pool, -, htext⟩ := Option.bind_eq_some_iff.mp fromPool
      obtain ⟨a, b, c, h4⟩ := prefixFromPool_isIpv4Cidr htext
      obtain ⟨front, rest, hs, -⟩ := h4.parts
      cases hs

/-- A pool that was accepted, as the generation reads it. -/
theorem poolWritten_of_accepted {state : DesiredState} {lan : Option (Ipv4Addr × Nat)}
    {dev pool : String} (hlan : BootstrapValues.lanNetwork state.lanPrefix = .ok lan)
    (inside : BootstrapValues.poolInside lan pool = .ok ()) (hpool : state.dhcpPool = some pool)
    (alike : ReadAlike state) : PoolWritten state (dhcp4Written state dev) := by
  have accepted := inside
  rw [BootstrapValues.poolInside, bind_eq_ok] at accepted
  obtain ⟨⟨first, last⟩, bounds, -⟩ := accepted
  obtain ⟨hfirst, hlast⟩ := poolBounds_eq_ok.mp bounds
  have spaces := alike.spaces pool hpool
  have hstart : parseIpv4 (splitPool pool).1 = some first := by
    rw [splitPool_eq, withoutSpaces_eq_trim hfirst fun c mem => spaces c (poolEnds_mem (.inl mem))]
    exact hfirst
  have hend : parseIpv4 (splitPool pool).2 = some last := by
    rw [splitPool_eq, withoutSpaces_eq_trim hlast fun c mem => spaces c (poolEnds_mem (.inr mem))]
    exact hlast
  obtain ⟨text, ht⟩ : ∃ text, lanServicePrefix state = some text := by
    cases hp : state.lanPrefix with
    | some configured => exact ⟨configured, by simp [lanServicePrefix, hp]⟩
    | none =>
        obtain ⟨implied, himplied, -⟩ := prefixFromPool_of_parse hstart
        exact ⟨implied, by simp [lanServicePrefix, hp, hpool, himplied]⟩
  have hne := prefix_named alike.prefixNamed ht
  obtain ⟨host, hh⟩ := Option.isSome_iff_exists.mp (serves_of_accepted hlan ht hne)
  have conf : dhcp4Written state dev = some (keaDhcp4Conf dev text pool host) := by
    simp [dhcp4Written, ht, hh, hpool]
  rw [conf]
  refine ⟨?_, fun written same other hother => ?_⟩
  · simp [namedPool, hpool, Option.filter, pool_not_blank bounds]
  · obtain rfl := Option.some.inj same
    obtain rfl := Option.some.inj (hpool.symm.trans hother)
    obtain ⟨network, bits, subnet, inFirst, inLast⟩ :=
      subnet_of_accepted hlan inside bounds ht hne hpool hstart
    exact ⟨first, last, network, bits, bounds, hstart, hend, subnet, inFirst, inLast⟩

theorem poolWritten_of_alike {state : DesiredState} {dev : String}
    (haddr : BootstrapValues.addressing state.lanPrefix state.dhcpPool state.wanPd = .ok ())
    (alike : ReadAlike state) : PoolWritten state (dhcp4Written state dev) := by
  simp only [BootstrapValues.addressing, bind_eq_ok, option_forM_eq_ok] at haddr
  obtain ⟨lan, hlan, _, hpool, -⟩ := haddr
  cases hp : state.dhcpPool with
  | none =>
      have nothing : dhcp4Written state dev = none := by
        cases hs : (lanServicePrefix state).bind firstV4Host <;>
          simp [dhcp4Written, hp]
      rw [nothing]
      exact ⟨by simp [namedPool, hp], by simp⟩
  | some pool =>
      by_cases blank : pool = ""
      · subst blank
        have nothing : dhcp4Written state dev = none := by
          simp [dhcp4Written, lanServicePrefix, alike.poolNamed hp, hp,
            show prefixFromPool "" = none by decide]
        rw [nothing]
        refine ⟨?_, by simp⟩
        rw [namedPool, hp]
        decide
      · have named : nonEmpty state.dhcpPool = some pool := by
          simp [nonEmpty, hp, Option.filter, blank]
        exact poolWritten_of_accepted hlan (hpool pool named) hp alike

theorem alike_of_written {state : DesiredState} {dev : String}
    (haddr : BootstrapValues.addressing state.lanPrefix state.dhcpPool state.wanPd = .ok ())
    (serves : ∀ text, lanServicePrefix state = some text → (firstV4Host text).isSome = true)
    (written : PoolWritten state (dhcp4Written state dev)) : ReadAlike state := by
  simp only [BootstrapValues.addressing, bind_eq_ok, option_forM_eq_ok] at haddr
  obtain ⟨lan, hlan, _, hpool, -⟩ := haddr
  have prefixNamed : state.lanPrefix ≠ some "" := by
    intro empty
    have host := serves "" (by simp [lanServicePrefix, empty])
    exact absurd host (by decide)
  refine ⟨prefixNamed, fun empty => ?_, fun pool hp c mem white => ?_⟩
  · by_contra configured
    obtain ⟨text, hp⟩ := Option.ne_none_iff_exists'.mp configured
    have ht : lanServicePrefix state = some text := by simp [lanServicePrefix, hp]
    obtain ⟨host, hh⟩ := Option.isSome_iff_exists.mp (serves text ht)
    have named := written.named
    have blank : namedPool state = none := by
      rw [namedPool, empty]
      decide
    rw [blank] at named
    simp [dhcp4Written, ht, hh, empty] at named
  · have nonblank : pool ≠ "" := by
      rintro rfl
      cases mem
    have accepted : nonEmpty state.dhcpPool = some pool := by
      simp [nonEmpty, hp, Option.filter, nonblank]
    have inside := hpool pool accepted
    rw [BootstrapValues.poolInside, bind_eq_ok] at inside
    obtain ⟨bounds, hbounds, -⟩ := inside
    have named := written.named
    have isNamed : (namedPool state).isSome = true := by
      simp [namedPool, hp, Option.filter, pool_not_blank hbounds]
    rw [isNamed] at named
    obtain ⟨conf, hconf⟩ := Option.isSome_iff_exists.mp named
    have readFrom : conf.poolStart = (splitPool pool).1 ∧ conf.poolEnd = (splitPool pool).2 := by
      simp only [dhcp4Written, hp, Option.bind_eq_bind, Option.bind_eq_some_iff] at hconf
      obtain ⟨text, -, host, -, pool', same, conf'⟩ := hconf
      cases same
      cases conf'
      exact ⟨rfl, rfl⟩
    obtain ⟨first, last, -, -, -, hstart, hend, -⟩ := written.checked conf hconf pool hp
    rw [readFrom.1, splitPool_eq] at hstart
    rw [readFrom.2, splitPool_eq] at hend
    have notDash : c ≠ '-' := by
      rintro rfl
      exact absurd white (by decide)
    rcases mem_poolEnds mem notDash with front | rest
    · exact spacesOnly_of_parse hstart c front white
    · exact spacesOnly_of_parse hend c rest white

/-- The services of an accepted state are generated exactly if both sides read its
texts alike. -/
theorem generated_iff [Base64] {state : DesiredState} (h : validate state = .ok ()) :
    Generated state ↔ ReadAlike state := by
  have accepted := validate_iff.mp h
  obtain ⟨lan, hl⟩ := accepted.exists_lan
  rw [generated_iff_written hl]
  constructor
  · rintro ⟨serves, written⟩
    exact alike_of_written accepted.addressing serves written
  · intro alike
    have addressed := accepted.addressing
    simp only [BootstrapValues.addressing, bind_eq_ok] at addressed
    obtain ⟨network, hlan, -⟩ := addressed
    exact ⟨fun text ht => serves_of_accepted hlan ht (prefix_named alike.prefixNamed ht),
      poolWritten_of_alike accepted.addressing alike⟩

/-- A gateway with this prefix and pool. -/
def serving (lanPrefix dhcpPool : Option String) : DesiredState := {
  interfaces := [
    { name := "enp1s0", role := some "wan", addresses := ["203.0.113.2/24"] },
    { name := "enp2s0", role := some "lan" }]
  lanPrefix := lanPrefix
  dhcpPool := dhcpPool
  uiExposure := ["enp2s0"]
}

theorem generated_serving :
    Generated (serving (some "192.168.1.0/24") (some "192.168.1.10 - 192.168.1.99")) :=
  letI := Revalidate.noKeys
  (generated_iff (by decide +kernel)).mpr ⟨by decide, by decide, fun pool same => by
    cases same
    decide +kernel⟩

/-- An empty prefix is accepted as none, and then fails as one without a host. An empty
pool is written, and one with a tab is not. -/
theorem accepted_not_generated :
    (@validate Revalidate.noKeys (serving (some "") none) = .ok () ∧
      ¬ Generated (serving (some "") none)) ∧
    (@validate Revalidate.noKeys (serving (some "192.168.1.0/24") (some "")) = .ok () ∧
      ¬ Generated (serving (some "192.168.1.0/24") (some ""))) ∧
    (@validate Revalidate.noKeys (serving none (some "192.168.1.10\t-192.168.1.99")) = .ok () ∧
      ¬ Generated (serving none (some "192.168.1.10\t-192.168.1.99"))) := by
  refine ⟨⟨by decide +kernel, fun generated => ?_⟩, ⟨by decide +kernel, fun generated => ?_⟩,
    ⟨by decide +kernel, fun generated => ?_⟩⟩
  · obtain ⟨serves, -⟩ := (generated_iff_written rfl).mp generated
    exact absurd (serves "" rfl) (by decide)
  · obtain ⟨-, written⟩ := (generated_iff_written rfl).mp generated
    exact absurd written.named (by decide)
  · obtain ⟨-, written⟩ := (generated_iff_written rfl).mp generated
    exact absurd written.named (by decide)

end LanProgram

end Fwos
