import Fwos.LanServices

/-!
# Following the routed prefix onto the LAN

`Ipv6Runtime::refresh` compares the prefix that is routed to the LAN with the one it
observed before. Where they differ it removes the LAN address it observed and
programs the LAN services anew; and it remembers an observation only when that has
succeeded. Applies change the network and add addresses in between.

* `FollowRun.Clean`: the LAN has the address in the current prefix, and no other that
  was derived before.
* `refresh_clean`: a run reaches only such states if its refreshes meet `Followed`.
-/

namespace Fwos

open Effects Rust RevalidateLemmas

namespace Ipv6Runtime

open LanProgram

/-! ## The refresh -/

/-- The routed prefix, and the address of the LAN in it. -/
abbrev Observed := Option String × Option (String × String)

/-- The removal of an address that is no longer the LAN's. A failure is only logged. -/
def removePrevious (previous address : Option (String × String)) : Steps Unit :=
  match previous.filter (some · != address) with
  | some (dev, cidr) => ExceptT.mk do
      let _ ← (delAddr dev cidr).run
      return .ok ()
  | none => pure ()

/-- The refresh after it has read the prefix. -/
def follow (observed : Option Observed) (state : DesiredState) (files : PdFiles) :
    Steps Observed := do
  let delegated := routedLanPrefix files state
  let address := routedAddress files state
  match observed with
  | some (previous, previousAddress) =>
      if previous != delegated then do
        removePrevious previousAddress address
        programLanServices state true
        setReady
        return (delegated, address)
      else return (delegated, address)
  | none => return (delegated, address)

/-- An error ends the refresh before it has remembered what it observed. -/
def refresh (observed : Option Observed) (state : DesiredState) : Steps Observed := do
  follow observed state (← pdFiles)

end Ipv6Runtime

/-! ## Runs -/

def addressKey (address : Option (String × String)) : Option LanAddressKey :=
  address.bind fun (dev, cidr) => lanAddressKey dev cidr

/-- A run of refreshes and applies, with the history that the results speak of. -/
structure FollowRun where
  host : LanHost
  /-- The live network, Accepted or awaiting its confirmation. -/
  state : DesiredState
  observed : Option Ipv6Runtime.Observed := none
  /-- The LAN addresses that applies and refreshes have derived. -/
  derived : List LanAddressKey := []
  /-- Those derived since the last refresh that ran to its end: by applies, and by
  refreshes that failed after they had added one. -/
  loose : List LanAddressKey := []

inductive FollowEvent where
  /-- The DHCPv6 clients write or remove their files, between two refreshes. -/
  | files (files : PdFiles)
  | apply (state : DesiredState)
  /-- A refresh that finds a network to follow; each of its commands may fail. -/
  | refresh (faults : List (Option Fault))

namespace FollowRun

def delegated (run : FollowRun) : Option String := routedLanPrefix run.host.pdFiles run.state

def address (run : FollowRun) : Option (String × String) :=
  routedAddress run.host.pdFiles run.state

/-- The LAN address derived from the current prefix. -/
def current (run : FollowRun) : Option LanAddressKey := addressKey run.address

/-- The LAN address that was observed last. -/
def old (run : FollowRun) : Option LanAddressKey := addressKey (run.observed.bind Prod.snd)

/-- The prefix is another than the one observed. -/
def changed (run : FollowRun) : Bool := run.observed.any fun observed => observed.1 != run.delegated

/-- An apply adds the address of the prefix that is current then. -/
def apply (run : FollowRun) (state : DesiredState) : FollowRun :=
  let run := { run with state := state }
  match run.address with
  | some (dev, cidr) =>
      { run with
        host := run.host.addrAdd dev cidr
        derived := run.current.toList ++ run.derived
        loose := run.current.toList ++ run.loose }
  | none => run

/-- The run after a refresh, and whether the refresh ran to its end. -/
def refresh (run : FollowRun) (faults : List (Option Fault)) : Option (FollowRun × Bool) :=
  match (Ipv6Runtime.refresh run.observed run.state).run.run LanHost.semantics faults run.host with
  | .done (.ok observed) host _ =>
      some ({ run with
        host := host
        observed := some observed
        derived := run.current.toList ++ run.derived
        loose := [] }, true)
  | .done (.error _) host _ =>
      some ({ run with
        host := host
        derived := run.current.toList ++ run.derived
        loose := (run.current.filter (host.addresses.contains ·)).toList ++ run.loose }, false)
  | .crashed _ => none

def step (run : FollowRun) : FollowEvent → Option FollowRun
  | .files files => some { run with host := { run.host with pdFiles := files } }
  | .apply state => some (run.apply state)
  | .refresh faults => (run.refresh faults).map Prod.fst

def steps (run : FollowRun) (events : List FollowEvent) : Option FollowRun := events.foldlM step run

/-- Nothing has been derived yet. -/
structure Fresh (run : FollowRun) : Prop where
  observed : run.observed = none
  derived : run.derived = []
  loose : run.loose = []

/-- The address in the current prefix is live, and no other that has been derived. -/
structure Clean (run : FollowRun) : Prop where
  live : ∀ dev cidr, run.address = some (dev, cidr) →
    ∃ key ∈ run.host.addresses, lanAddressKey dev cidr = some key
  alone : ∀ key ∈ run.derived, key ∈ run.host.addresses → run.current = some key

/-- What a refresh relies on to leave the LAN clean. -/
structure Followed (run : FollowRun) (faults : List (Option Fault)) : Prop where
  /-- Without a change of the prefix nothing is programmed: where no address was
  observed, an apply has added it. -/
  added : run.changed = false → run.old = none → ∀ key, run.current = some key → key ∈ run.loose
  /-- Nor is anything removed: the LAN is the one observed, and no refresh that failed
  since has taken its address away. -/
  stays : run.changed = false → ∀ key, run.old = some key →
    run.current = some key ∧ key ∈ run.host.addresses
  /-- The address observed is the only one that is removed. -/
  between : ∀ key ∈ run.loose,
    run.current = some key ∨ (run.changed = true ∧ run.old = some key)
  /-- Its removal, after the prefix has been read, takes effect. -/
  removed : run.changed = true → ∀ key, run.old = some key → run.current ≠ some key →
    key ∈ run.host.addresses → ∀ error, faults[1]? ≠ some (some (.before error))

/-- The refreshes that run to their end are `Followed`. -/
def Meets : FollowRun → List FollowEvent → Prop
  | _, [] => True
  | run, event :: rest =>
      (∀ faults after, event = .refresh faults → run.refresh faults = some (after, true) →
        run.Followed faults) ∧
      ∀ next, run.step event = some next → next.Meets rest

end FollowRun

/-! ## What the services may change -/

/-- No address has gone, and those that are new are IPv4 addresses or the one routed. -/
structure Grows (routed : Option LanAddressKey) (before after : LanHost) : Prop where
  files : after.pdFiles = before.pdFiles
  keeps : ∀ key ∈ before.addresses, key ∈ after.addresses
  adds : ∀ key ∈ after.addresses, key.ip.isIpv4 = false →
    key ∈ before.addresses ∨ routed = some key

namespace Grows

variable {routed : Option LanAddressKey} {before host : LanHost} {command : LanCommand}

theorem refl : Grows routed host host := ⟨rfl, fun _ mem => mem, fun _ mem _ => .inl mem⟩

/-- The commands that keep it. -/
def Allowed (routed : Option LanAddressKey) : LanCommand → Prop
  | .addrAdd dev cidr => ∀ key, lanAddressKey dev cidr = some key →
      key.ip.isIpv4 = true ∨ routed = some key
  | .addrDel _ _ => False
  | .pdFiles | .createDir _ | .write _ | .remove _ | .ready => True

theorem after (h : Grows routed before host) (allowed : Allowed routed command) :
    Grows routed before (host.after command) := by
  cases command with
  | addrDel dev cidr => cases allowed
  | addrAdd dev cidr =>
      show Grows routed before (host.addrAdd dev cidr)
      unfold LanHost.addrAdd
      split
      next key parsed =>
        refine ⟨h.files, fun other mem => ?_, fun other mem six => ?_⟩
        · exact List.mem_insert_of_mem (h.keeps other mem)
        · rcases List.mem_insert_iff.mp mem with rfl | mem
          · rcases allowed other parsed with four | same
            · rw [six] at four
              cases four
            · exact .inr same
          · exact h.adds other mem six
      next => exact h
  | pdFiles => exact h
  | createDir path => exact h
  | write conf => exact ⟨h.files, h.keeps, h.adds⟩
  | remove file => exact ⟨h.files, h.keeps, h.adds⟩
  | ready => exact h

theorem exec (h : Grows routed before host) (allowed : Allowed routed command)
    (fault : Option Fault) : Grows routed before (LanHost.exec command fault host).2 := by
  unfold LanHost.exec
  split
  · exact h.after allowed
  · exact h
  · exact h.after allowed

end Grows

namespace LanProgram

open Grows

variable {routed : Option LanAddressKey}

theorem uses_addAddr {dev cidr : String} (h : Allowed routed (.addrAdd dev cidr)) :
    Uses (Allowed routed) (addAddr dev cidr).run := uses_perform.mpr h

theorem uses_write {conf : LanServiceConf} : Uses (Allowed routed) (write conf).run :=
  uses_perform.mpr trivial

theorem uses_remove {file : LanServiceFile} : Uses (Allowed routed) (remove file).run :=
  uses_perform.mpr trivial

theorem uses_createDir {path : String} : Uses (Allowed routed) (createDir path).run :=
  uses_perform.mpr trivial

theorem uses_setReady : Uses (Allowed routed) setReady.run := uses_perform.mpr trivial

theorem uses_writeDhcp4 {lan : String} {text host pool : Option String} :
    Uses (Allowed routed) (writeDhcp4 lan text host pool).run := by
  unfold writeDhcp4
  split
  · exact uses_write.bindExcept fun _ => uses_write
  · exact uses_remove.bindExcept fun _ => uses_remove

theorem uses_writeKeaDhcp6 {lan : String} {delegated : Option String} :
    Uses (Allowed routed) (writeKeaDhcp6 lan delegated).run := by
  unfold writeKeaDhcp6
  split
  · exact uses_write
  · exact uses_remove

theorem uses_removeLanServiceConfigs : Uses (Allowed routed) removeLanServiceConfigs.run :=
  uses_remove.bindExcept fun _ => uses_remove.bindExcept fun _ => uses_remove

theorem allowed_service {lan host length : String} {text : String}
    (h : firstV4Host text = some host) :
    Allowed routed (.addrAdd lan s!"{host}/{length}") := by
  obtain ⟨a, b, c, d, dotted⟩ := firstV4Host_dotted h
  have cut : splitOnce s!"{host}/{length}" '/' = some (host, length) :=
    splitOnce_eq_some.mpr ⟨by simp; rfl, dotted.not_mem (by decide) (by decide)⟩
  intro key parsed
  refine .inl ?_
  simp only [lanAddressKey, BootstrapValues.cidr, cut, Option.map_eq_some_iff,
    Option.bind_eq_bind, Option.bind_some, Option.bind_eq_some_iff] at parsed
  obtain ⟨⟨ip, bits⟩, ⟨address, read, len, -, fits⟩, rfl⟩ := parsed
  rw [Option.ite_none_left_eq_some] at fits
  obtain ⟨-, same⟩ := fits
  cases same
  have colon := (colon_mem_iff read).not
  rw [Bool.not_eq_false] at colon
  exact colon.mp (dotted.not_mem (by decide) (by decide))

theorem uses_programService {lan : String} {text : Option String} :
    Uses (Allowed routed) (programService lan text).run := by
  unfold programService
  split
  next text =>
    cases serves : firstV4Host text with
    | none => trivial
    | some host =>
        exact (uses_addAddr (allowed_service serves)).bindExcept fun _ => trivial
  · trivial

theorem wp_allowed {α : Type} {steps : Steps α} {before host : LanHost}
    (uses : Uses (Allowed routed) steps.run) (grown : Grows routed before host) :
    steps.run.wp LanHost.semantics (fun _ => True) (fun _ => True)
      (fun _ after => Grows routed before after ∧
        ∀ key ∈ host.addresses, key ∈ after.addresses) host := by
  have kept : ∀ command, Allowed routed command → ∀ fault : Option Fault, True → ∀ state : LanHost,
      (Grows routed before state ∧ Grows routed host state) →
        Grows routed before (LanHost.semantics.exec command fault state).2 ∧
          Grows routed host (LanHost.semantics.exec command fault state).2 :=
    fun command allowed fault _ state grows =>
      ⟨grows.1.exec allowed fault, grows.2.exec allowed fault⟩
  exact wp_weaken (wp_of_uses uses kept ⟨grown, .refl⟩) (fun _ _ => trivial)
    fun _ after grows => ⟨grows.1, grows.2.keeps⟩

theorem wp_programRouted {lan : String} {delegated : Option String} {host : LanHost}
    (same : routed = (delegated.bind pdLanAddr).bind (lanAddressKey lan)) :
    (programRouted lan delegated).run.wp LanHost.semantics (fun _ => True) (fun _ => True)
      (fun result after => Grows routed host after ∧
        (result = .ok () → ∀ key, routed = some key → key ∈ after.addresses)) host := by
  unfold programRouted
  split
  next cidr routes =>
    rw [routes, Option.bind_some] at same
    have allowed : Allowed routed (.addrAdd lan cidr) := fun key parsed =>
      .inr (same.trans parsed)
    refine ⟨trivial, fun fault _ => ⟨Grows.refl.exec allowed fault, fun done key live => ?_⟩⟩
    rw [same] at live
    -- Only an addition without a fault is reported as done.
    cases fault with
    | none =>
        show key ∈ (host.addrAdd lan cidr).addresses
        rw [LanHost.addrAdd, live]
        exact List.mem_insert_self
    | some fault => cases fault <;> cases done
  next unrouted =>
    rw [unrouted, Option.bind_none] at same
    refine ⟨.refl, fun _ key live => ?_⟩
    rw [same] at live
    cases live

/-- What programming the services adds, and that it has added the routed address where
it succeeds. -/
theorem wp_programLanServices {state : DesiredState} {host : LanHost}
    (same : routed = addressKey (routedAddress host.pdFiles state)) :
    (programLanServices state true).run.wp LanHost.semantics (fun _ => True) (fun _ => True)
      (fun result after => Grows routed host after ∧
        (result = .ok () → ∀ key, routed = some key → key ∈ after.addresses)) host := by
  unfold programLanServices
  cases found : lanL2 state with
  | none =>
      have nothing : routed = none := by simp [same, addressKey, routedAddress, found]
      refine wp_mono (wp_allowed uses_removeLanServiceConfigs .refl) fun _ after grows =>
        ⟨grows.1, fun _ key live => ?_⟩
      rw [nothing] at live
      cases live
  | some lan =>
      have route : routed =
          ((routedLanPrefix host.pdFiles state).bind pdLanAddr).bind (lanAddressKey lan.name) := by
        rw [same, addressKey, routedAddress, found]
        cases (routedLanPrefix host.pdFiles state).bind pdLanAddr <;> rfl
      refine ⟨trivial, fun fault _ => ?_⟩
      have read : LanHost.semantics.exec .pdFiles fault host = (host.pdFiles, host) := by
        rcases fault with _ | ⟨_ | _⟩ <;> rfl
      rw [read]
      refine wp_seqExcept (wp_programRouted route) (fun _ after grows => ⟨grows.1, fun failed => ?_⟩)
        fun _ after grows => ?_
      · cases failed
      refine wp_mono (wp_allowed ?_ grows.1) fun _ last kept =>
        ⟨kept.1, fun _ key live => kept.2 key (grows.2 rfl key live)⟩
      refine uses_programService.bindExcept fun host => ?_
      exact uses_createDir.bindExcept fun _ => uses_createDir.bindExcept fun _ =>
        uses_writeDhcp4.bindExcept fun _ => uses_writeKeaDhcp6

end LanProgram

/-! ## One refresh -/

namespace FollowRun

open Ipv6Runtime LanProgram

variable {run : FollowRun} {faults : List (Option Fault)}

/-- The removal of the address observed, as far as it took effect. -/
structure Removes (run : FollowRun) (faults : List (Option Fault)) (middle : LanHost) : Prop where
  files : middle.pdFiles = run.host.pdFiles
  shrinks : ∀ key ∈ middle.addresses, key ∈ run.host.addresses
  keeps : ∀ key ∈ run.host.addresses, run.old ≠ some key → key ∈ middle.addresses
  gone : run.current ≠ run.old → (∀ error, faults[1]? ≠ some (some (.before error))) →
    ∀ key, run.old = some key → key ∉ middle.addresses

/-- The first command of a refresh reads the prefix, whatever becomes of it. -/
theorem run_refresh {value : Except String Observed} {after : LanHost}
    {unused : List (Option Fault)}
    (h : (Ipv6Runtime.refresh run.observed run.state).run.run LanHost.semantics faults run.host =
      .done value after unused) :
    ∃ fault rest, faults = fault :: rest ∧
      (follow run.observed run.state run.host.pdFiles).run.run LanHost.semantics rest run.host =
        .done value after unused := by
  cases faults with
  | nil => cases h
  | cons fault rest =>
      refine ⟨fault, rest, rfl, ?_⟩
      rcases fault with _ | ⟨_ | _⟩ <;> exact h

theorem removes_none {address : Option (String × String)}
    (observed : run.observed.bind Prod.snd = address)
    (same : address.filter (some · != run.address) = none) : Removes run faults run.host := by
  refine ⟨rfl, fun _ mem => mem, fun _ mem _ => mem, fun moved _ key was => ?_⟩
  cases address with
  | none => simp [old, observed, addressKey] at was
  | some pair =>
      rw [Option.filter_eq_none_iff] at same
      have pairs : some pair = run.address := by simpa using same pair rfl
      exact absurd (by rw [current, old, observed, ← pairs]) moved

theorem removes_exec {dev cidr : String} {fault fault' : Option Fault}
    {rest : List (Option Fault)} (observed : run.observed.bind Prod.snd = some (dev, cidr))
    (same : faults = fault :: fault' :: rest) :
    Removes run faults (LanHost.exec (.addrDel dev cidr) fault' run.host).2 := by
  have was : run.old = lanAddressKey dev cidr := by rw [old, observed]; rfl
  have deleted : Removes run faults (run.host.addrDel dev cidr) := by
    refine ⟨rfl, fun _ mem => (List.mem_filter.mp mem).1, fun key mem other => ?_,
      fun _ _ key known mem => ?_⟩
    · refine List.mem_filter.mpr ⟨mem, ?_⟩
      rw [was] at other
      exact bne_iff_ne.mpr other
    · have other := (List.mem_filter.mp mem).2
      rw [was] at known
      simp [known] at other
  rcases fault' with _ | error | error
  · exact deleted
  · refine ⟨rfl, fun _ mem => mem, fun _ mem _ => mem, fun _ effect => ?_⟩
    exact absurd (by rw [same]; rfl) (effect error)
  · exact deleted

/-- The rest of a refresh that has met another prefix. -/
theorem wp_follow {state : DesiredState} {host : LanHost} {routed : Option LanAddressKey}
    {observed : Observed} (same : routed = addressKey (routedAddress host.pdFiles state)) :
    (do programLanServices state true; setReady; return observed : Steps Observed).run.wp
      LanHost.semantics (fun _ => True) (fun _ => True)
      (fun result after => Grows routed host after ∧ ∀ value, result = .ok value →
        value = observed ∧ ∀ key, routed = some key → key ∈ after.addresses) host := by
  refine wp_seqExcept (wp_programLanServices same) (fun _ after grows => ⟨grows.1, nofun⟩)
    fun _ middle grows => ?_
  refine wp_seqExcept (wp_allowed uses_setReady grows.1) (fun _ after kept => ⟨kept.1, nofun⟩)
    fun _ after kept => ?_
  refine ⟨kept.1, fun value result => ?_⟩
  cases result
  exact ⟨rfl, fun key live => kept.2 key (grows.2 rfl key live)⟩

/-- All that a refresh can do. -/
theorem refresh_cases {value : Except String Observed} {after : LanHost}
    {unused : List (Option Fault)}
    (h : (Ipv6Runtime.refresh run.observed run.state).run.run LanHost.semantics faults run.host =
      .done value after unused) :
    (run.changed = false ∧ value = .ok (run.delegated, run.address) ∧ after = run.host) ∨
      (run.changed = true ∧ ∃ middle, Removes run faults middle ∧
        Grows run.current middle after ∧
        ∀ observed, value = .ok observed → observed = (run.delegated, run.address) ∧
          ∀ key, run.current = some key → key ∈ after.addresses) := by
  obtain ⟨fault, rest, hf, h⟩ := run_refresh h
  unfold follow at h
  cases before : run.observed with
  | none =>
      rw [before] at h
      cases h
      exact .inl ⟨by simp [changed, before], rfl, rfl⟩
  | some observed =>
      obtain ⟨previous, previousAddress⟩ := observed
      have address : run.observed.bind Prod.snd = previousAddress := by rw [before]; rfl
      rw [before] at h
      simp only at h
      split at h
      next differs =>
        refine .inr ⟨by simpa [changed, before, delegated] using differs, ?_⟩
        unfold removePrevious at h
        split at h
        next dev cidr stale =>
          obtain ⟨rfl, -⟩ := Option.filter_eq_some_iff.mp stale
          cases rest with
          | nil => cases h
          | cons fault' rest =>
              have removes := removes_exec address hf
              have same : run.current = addressKey (routedAddress
                  (LanHost.exec (.addrDel dev cidr) fault' run.host).2.pdFiles run.state) := by
                rw [removes.files]
                rfl
              exact ⟨_, removes, wp_run_done (wp_follow same) (fun _ _ => trivial) h⟩
        next kept =>
          exact ⟨_, removes_none address kept,
            wp_run_done (wp_follow rfl) (fun _ _ => trivial) h⟩
      next same =>
        cases h
        exact .inl ⟨by simpa [changed, before, delegated] using same, rfl, rfl⟩

/-! ## Runs -/

/-- Where the derived addresses are that are live. -/
structure Tracked (run : FollowRun) : Prop where
  six : ∀ key ∈ run.derived, key.ip.isIpv4 = false
  known : ∀ key ∈ run.derived, key ∈ run.host.addresses → run.old = some key ∨ key ∈ run.loose
  held : ∀ key ∈ run.loose, key ∈ run.host.addresses ∨ run.old = some key

theorem pdLanAddr_key {pd cidr dev : String} (h : pdLanAddr pd = some cidr) :
    ∃ key, lanAddressKey dev cidr = some key ∧ key.ip.isIpv4 = false := by
  obtain ⟨lan, placed, rfl⟩ := Option.map_eq_some_iff.mp h
  unfold BootstrapValues.delegatedLan at placed
  split at placed
  next address length _ =>
    split at placed
    next => cases placed
    next =>
      cases placed
      rw [lanAddressKey, LanAddressLemmas.cidr_display]
      exact ⟨_, rfl, rfl⟩
  next => cases placed

theorem address_key {dev cidr : String} (h : run.address = some (dev, cidr)) :
    ∃ key, lanAddressKey dev cidr = some key ∧ run.current = some key ∧
      key.ip.isIpv4 = false := by
  have placed := h
  rw [address, routedAddress] at placed
  simp only [Option.bind_eq_bind, Option.bind_eq_some_iff] at placed
  obtain ⟨lan, -, text, ⟨pd, -, prefixed⟩, same⟩ := placed
  cases same
  obtain ⟨key, parsed, six⟩ := @pdLanAddr_key _ _ lan.name prefixed
  exact ⟨key, parsed, by rw [current, h]; exact parsed, six⟩

theorem current_six {key : LanAddressKey} (h : run.current = some key) :
    key.ip.isIpv4 = false := by
  rw [current, addressKey, Option.bind_eq_some_iff] at h
  obtain ⟨⟨dev, cidr⟩, placed, parsed⟩ := h
  obtain ⟨other, parsed', -, six⟩ := address_key placed
  obtain rfl : key = other := Option.some.inj (parsed.symm.trans parsed')
  exact six

theorem Fresh.tracked (fresh : run.Fresh) : run.Tracked where
  six := by simp [fresh.derived]
  known := by simp [fresh.derived]
  held := by simp [fresh.loose]

theorem Tracked.apply (tracked : run.Tracked) (state : DesiredState) :
    (run.apply state).Tracked := by
  unfold FollowRun.apply
  dsimp only
  split
  next dev cidr placed =>
    obtain ⟨key, parsed, now, six⟩ := address_key placed
    have added : (run.host.addrAdd dev cidr).addresses = run.host.addresses.insert key := by
      rw [LanHost.addrAdd, parsed]
    rw [now]
    refine ⟨fun other mem => ?_, fun other mem live => ?_, fun other mem => ?_⟩
    · rcases List.mem_cons.mp mem with rfl | mem
      · exact six
      · exact tracked.six other mem
    · rcases List.mem_cons.mp mem with rfl | mem
      · exact .inr List.mem_cons_self
      · rw [added, List.mem_insert_iff] at live
        rcases live with rfl | live
        · exact .inr List.mem_cons_self
        · exact (tracked.known other mem live).imp_right (List.mem_cons_of_mem _)
    · rw [added, List.mem_insert_iff]
      rcases List.mem_cons.mp mem with rfl | mem
      · exact .inl (.inl rfl)
      · exact (tracked.held other mem).imp_left .inr
  next => exact ⟨tracked.six, tracked.known, tracked.held⟩

/-- What a finished refresh has derived. -/
theorem mem_derived {key : LanAddressKey} (mem : key ∈ run.current.toList ++ run.derived) :
    run.current = some key ∨ key ∈ run.derived :=
  (List.mem_append.mp mem).imp_left fun now => Option.mem_toList.mp now

theorem Tracked.six_derived (tracked : run.Tracked) {key : LanAddressKey}
    (mem : key ∈ run.current.toList ++ run.derived) : key.ip.isIpv4 = false :=
  (mem_derived mem).elim current_six (tracked.six key)

/-- An address that is live after the services are programmed. -/
theorem Tracked.after_grows (tracked : run.Tracked) {middle after : LanHost}
    (removes : Removes run faults middle) (grows : Grows run.current middle after)
    {key : LanAddressKey} (mem : key ∈ run.current.toList ++ run.derived)
    (live : key ∈ after.addresses) :
    run.current = some key ∨
      (key ∈ middle.addresses ∧ (run.old = some key ∨ key ∈ run.loose)) := by
  rcases mem_derived mem with now | mem
  · exact .inl now
  · rcases grows.adds key live (tracked.six key mem) with before | now
    · exact .inr ⟨before, tracked.known key mem (removes.shrinks key before)⟩
    · exact .inl now

/-- A refresh that fails loses track of no address. -/
theorem Tracked.refresh_failed (tracked : run.Tracked) {after : FollowRun}
    (h : run.refresh faults = some (after, false)) : after.Tracked := by
  unfold FollowRun.refresh at h
  split at h
  next => cases h
  next error host unused ended =>
    cases h
    rcases refresh_cases ended with ⟨-, ok, -⟩ | ⟨-, middle, removes, grows, -⟩
    · cases ok
    · refine ⟨fun key mem => tracked.six_derived mem, fun key mem live => ?_, fun key mem => ?_⟩
      · rcases tracked.after_grows removes grows mem live with now | ⟨-, known⟩
        · refine .inr (List.mem_append_left _ ?_)
          simp [now, live]
        · exact known.imp_right fun loose => List.mem_append_right _ loose
      · rcases List.mem_append.mp mem with now | loose
        · obtain ⟨-, live⟩ := Option.filter_eq_some_iff.mp (Option.mem_toList.mp now)
          exact .inl (by simpa using live)
        · rcases tracked.held key loose with live | was
          · by_cases was : run.old = some key
            · exact .inr was
            · exact .inl (grows.keeps key (removes.keeps key live was))
          · exact .inr was
  next => cases h

theorem Clean.tracked (clean : run.Clean) (six : ∀ key ∈ run.derived, key.ip.isIpv4 = false)
    (remembered : run.old = run.current) (none : run.loose = []) : run.Tracked where
  six := six
  known := fun key mem live => .inl (remembered.trans (clean.alone key mem live))
  held := by simp [none]

/-- A refresh that has run to its end remembers the address that is current. -/
theorem refresh_done {after : FollowRun} (h : run.refresh faults = some (after, true)) :
    ∃ host unused, (Ipv6Runtime.refresh run.observed run.state).run.run LanHost.semantics faults
        run.host = .done (.ok (run.delegated, run.address)) host unused ∧
      host.pdFiles = run.host.pdFiles ∧
      after = { run with
        host := host
        observed := some (run.delegated, run.address)
        derived := run.current.toList ++ run.derived
        loose := [] } := by
  unfold FollowRun.refresh at h
  split at h
  next observed host unused ended =>
    cases h
    rcases refresh_cases ended with ⟨-, ok, rfl⟩ | ⟨-, middle, removes, grows, ok⟩
    · cases ok
      exact ⟨_, _, ended, rfl, rfl⟩
    · obtain ⟨rfl, -⟩ := ok observed rfl
      exact ⟨_, _, ended, grows.files.trans removes.files, rfl⟩
  next => cases h
  next => cases h

/-- A refresh that is `Followed` and runs to its end leaves the LAN clean. -/
theorem Tracked.refresh_followed (tracked : run.Tracked) (followed : run.Followed faults)
    {after : FollowRun} (h : run.refresh faults = some (after, true)) :
    after.Clean ∧ after.Tracked := by
  obtain ⟨host, unused, ended, files, rfl⟩ := refresh_done h
  have address : routedAddress host.pdFiles run.state = run.address := by rw [files]; rfl
  have clean : (∀ key, run.current = some key → key ∈ host.addresses) ∧
      ∀ key ∈ run.current.toList ++ run.derived, key ∈ host.addresses → run.current = some key := by
    rcases refresh_cases ended with ⟨same, -, rfl⟩ | ⟨differs, middle, removes, grows, ok⟩
    · refine ⟨fun key now => ?_, fun key mem live => ?_⟩
      · cases was : run.old with
        | none =>
            have loose := followed.added same was key now
            exact (tracked.held key loose).resolve_right (by rw [was]; nofun)
        | some seen =>
            obtain ⟨still, live⟩ := followed.stays same seen was
            obtain rfl : key = seen := Option.some.inj (now.symm.trans still)
            exact live
      · rcases mem_derived mem with now | mem
        · exact now
        · rcases tracked.known key mem live with was | loose
          · exact (followed.stays same key was).1
          · refine (followed.between key loose).resolve_right fun ⟨differs, _⟩ => ?_
            rw [same] at differs
            cases differs
    · refine ⟨(ok _ rfl).2, fun key mem live => ?_⟩
      rcases tracked.after_grows removes grows mem live with now | ⟨before, known⟩
      · exact now
      · by_contra other
        have was : run.old = some key := by
          rcases known with was | loose
          · exact was
          · exact ((followed.between key loose).resolve_left other).2
        have moved : run.current ≠ run.old := by
          rw [was]
          exact other
        exact removes.gone moved
          (followed.removed differs key was other (removes.shrinks key before)) key was before
  have now : addressKey (routedAddress host.pdFiles run.state) = run.current := by
    rw [address]
    rfl
  have cleaned : Clean { run with
      host := host
      observed := some (run.delegated, run.address)
      derived := run.current.toList ++ run.derived
      loose := [] } := by
    refine ⟨fun dev cidr placed => ?_, fun key mem live => now.trans (clean.2 key mem live)⟩
    obtain ⟨key, parsed, current, -⟩ := address_key (address.symm.trans placed)
    exact ⟨key, clean.1 key current, parsed⟩
  exact ⟨cleaned, cleaned.tracked (fun key mem => tracked.six_derived mem) now.symm rfl⟩

theorem Tracked.step (tracked : run.Tracked) {event : FollowEvent} {next : FollowRun}
    (h : run.step event = some next)
    (meets : ∀ faults after, event = .refresh faults → run.refresh faults = some (after, true) →
      run.Followed faults) : next.Tracked := by
  cases event with
  | files files =>
      cases h
      exact ⟨tracked.six, tracked.known, tracked.held⟩
  | apply state =>
      cases h
      exact tracked.apply state
  | refresh faults =>
      obtain ⟨⟨after, ended⟩, hr, rfl⟩ := Option.map_eq_some_iff.mp h
      cases ended with
      | true => exact (tracked.refresh_followed (meets faults after rfl hr) hr).2
      | false => exact tracked.refresh_failed hr

theorem Tracked.steps {events : List FollowEvent} {reached : FollowRun} (tracked : run.Tracked)
    (h : run.steps events = some reached) (meets : run.Meets events) : reached.Tracked := by
  induction events generalizing run with
  | nil =>
      cases h
      exact tracked
  | cons event rest ih =>
      rw [FollowRun.steps, List.foldlM_cons, Option.bind_eq_bind, Option.bind_eq_some_iff] at h
      obtain ⟨next, first, h⟩ := h
      exact ih (tracked.step first meets.1) h (meets.2 next first)

/-- After each refresh that runs to its end the LAN has the address in the current prefix
and no other, in a run whose refreshes are `Followed`. -/
theorem refresh_clean {start reached after : FollowRun} {events : List FollowEvent}
    {faults : List (Option Fault)} (fresh : start.Fresh) (h : start.steps events = some reached)
    (meets : start.Meets events) (followed : reached.Followed faults)
    (ended : reached.refresh faults = some (after, true)) : after.Clean :=
  ((fresh.tracked.steps h meets).refresh_followed followed ended).1

/-! ## Runs in which the LAN is clean and runs in which it is not -/

/-- A gateway whose WAN asks for a prefix. -/
def gateway (lan : String) : DesiredState := {
  interfaces := [
    { name := "enp1s0", role := some "wan", addresses := ["203.0.113.2/24"],
      ipv6 := some "dhcpv6", requestPd := true },
    { name := lan, role := some "lan", addresses := ["192.168.1.1/24"] }]
  lanPrefix := some "192.168.1.0/24"
  dhcpPool := some "192.168.1.10-192.168.1.99"
  uiExposure := [lan]
}

def delegation (text : String) : PdFiles := fun dev => if dev = "enp1s0" then some text else none

def started : FollowRun :=
  { host := { pdFiles := delegation "2001:db8:1::/56\n" }, state := gateway "enp2s0" }

/-- The first refresh after a single apply. -/
theorem Followed.first (fresh : run.observed = none) (loose : run.loose = run.current.toList) :
    run.Followed faults where
  added := fun _ _ key now => by simp [loose, now]
  stays := fun _ key was => by simp [old, fresh, addressKey] at was
  between := fun key mem => .inl (by simpa [loose] using mem)
  removed := fun differs => by simp [changed, fresh] at differs

/-- A new prefix, without an apply in between and without a failure. -/
theorem Followed.calm (differs : run.changed = true) (loose : run.loose = [])
    (calm : ∀ fault ∈ faults, fault = none) : run.Followed faults where
  added := fun same => absurd differs (by simp [same])
  stays := fun same => absurd differs (by simp [same])
  between := by simp [loose]
  removed := fun _ _ _ _ _ _ failed => nomatch calm _ (List.mem_of_getElem? failed)

theorem exists_ended (h : (run.refresh faults).any (·.2) = true) :
    ∃ after, run.refresh faults = some (after, true) := by
  obtain ⟨⟨after, ended⟩, hr, rfl⟩ := (Option.any_eq_true _ _).mp h
  exact ⟨after, hr⟩

def prefixChanges : List FollowEvent :=
  [.apply (gateway "enp2s0"), .refresh [none], .files (delegation "2001:db8:2::/56\n")]

theorem refresh_clean_prefix_changes :
    ∃ reached after, started.steps prefixChanges = some reached ∧
      reached.refresh (List.replicate 12 none) = some (after, true) ∧ after.Clean := by
  obtain ⟨reached, h⟩ := Option.isSome_iff_exists.mp
    (show (started.steps prefixChanges).isSome = true by decide +kernel)
  have finds : (started.steps prefixChanges).any (fun reached =>
      reached.changed && reached.loose.isEmpty &&
        (reached.refresh (List.replicate 12 none)).any (·.2)) = true := by decide +kernel
  rw [h, Option.any_some] at finds
  simp only [Bool.and_eq_true, List.isEmpty_iff] at finds
  obtain ⟨⟨differs, loose⟩, ends⟩ := finds
  obtain ⟨after, ended⟩ := exists_ended ends
  have meets : started.Meets prefixChanges := by
    refine ⟨fun _ _ other => (nomatch other), fun applied first => ?_⟩
    cases first
    refine ⟨fun faults _ _ _ => .first rfl (by decide +kernel), fun next _ => ?_⟩
    exact ⟨fun _ _ other => (nomatch other), fun _ _ => trivial⟩
  exact ⟨reached, after, h, ended,
    refresh_clean ⟨rfl, rfl, rfl⟩ h meets (.calm differs loose (by simp)) ended⟩

/-- The LAN moves to another interface while the prefix stays. -/
def lanMoves : List FollowEvent :=
  [.apply (gateway "enp2s0"), .refresh [none], .apply (gateway "enp3s0")]

/-- The prefix changes, a refresh fails after it has removed the address, and the prefix
returns. -/
def prefixReturns : List FollowEvent :=
  [.apply (gateway "enp2s0"), .refresh [none], .files (delegation "2001:db8:2::/56\n"),
    .refresh [none, none, none, some (.before "RTNETLINK answers: No buffer space available")],
    .files (delegation "2001:db8:1::/56\n")]

/-- The address that the first refresh observed stays live beside the current one; and the
current one is missing where the prefix has returned. -/
theorem refresh_not_clean :
    (∃ reached after key, started.steps lanMoves = some reached ∧
      reached.refresh [none] = some (after, true) ∧ reached.old = some key ∧
      key ∈ after.host.addresses ∧ after.current ≠ some key ∧ ¬ after.Clean) ∧
    ∃ reached after key, started.steps prefixReturns = some reached ∧
      reached.refresh [none] = some (after, true) ∧ after.current = some key ∧
      key ∉ after.host.addresses ∧ ¬ after.Clean := by
  constructor
  · have left : (started.steps lanMoves).any (fun reached =>
        (reached.refresh [none]).any fun (after, ended) => ended && reached.old.any fun key =>
          after.derived.contains key && after.host.addresses.contains key &&
            after.current != some key) = true := by
      decide +kernel
    obtain ⟨reached, h, left⟩ := (Option.any_eq_true _ _).mp left
    obtain ⟨⟨after, ended⟩, hr, left⟩ := (Option.any_eq_true _ _).mp left
    rw [Bool.and_eq_true] at left
    obtain ⟨rfl, left⟩ := left
    obtain ⟨key, was, left⟩ := (Option.any_eq_true _ _).mp left
    rw [Bool.and_eq_true, Bool.and_eq_true, List.contains_iff_mem, List.contains_iff_mem,
      bne_iff_ne] at left
    obtain ⟨⟨derived, live⟩, other⟩ := left
    exact ⟨reached, after, key, h, hr, was, live, other, fun clean =>
      other (clean.alone key derived live)⟩
  · have missing : (started.steps prefixReturns).any (fun reached =>
        (reached.refresh [none]).any fun (after, ended) => ended && after.current.any fun key =>
          !after.host.addresses.contains key) = true := by decide +kernel
    obtain ⟨reached, h, missing⟩ := (Option.any_eq_true _ _).mp missing
    obtain ⟨⟨after, ended⟩, hr, missing⟩ := (Option.any_eq_true _ _).mp missing
    rw [Bool.and_eq_true] at missing
    obtain ⟨rfl, missing⟩ := missing
    obtain ⟨key, now, missing⟩ := (Option.any_eq_true _ _).mp missing
    rw [Bool.not_eq_true', ← Bool.not_eq_true, List.contains_iff_mem] at missing
    refine ⟨reached, after, key, h, hr, now, missing, fun clean => ?_⟩
    obtain ⟨⟨dev, cidr⟩, placed, parsed⟩ := Option.bind_eq_some_iff.mp now
    obtain ⟨other, live, same⟩ := clean.live dev cidr placed
    obtain rfl : key = other := Option.some.inj (parsed.symm.trans same)
    exact missing live

end FollowRun

end Fwos
