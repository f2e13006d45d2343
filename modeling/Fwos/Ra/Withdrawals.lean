import Fwos.Ra.Advertiser

/-!
# Which LANs are advertised

`Advertiser::configure` keeps the links whose LAN is the first requested entry of their
device, withdraws what the other links advertised, and opens the rest (`ra.rs`). The pass
that opens links goes on to the next entry of a device when an open fails.

* `Announces`: what a host reads from an advertisement.
* `Tracked`: the links follow the request, and what is no longer advertised is withdrawn.
* `configure_tracks_iff`: a call does so exactly if no open of a device succeeds for
  another LAN than its first entry.
-/

namespace Fwos.Ra

open Rust

/-! ## Configuring -/

/-- A requested LAN, and what opening its link gives if it is tried. -/
structure Requested where
  lan : Lan
  answer : Except String Opened

inductive Action where
  | send (message : Message)
  | tryOpen (request : Requested)
  | log (line : String)

/-- The loop that opens links, on the links and actions so far. -/
def Advertiser.openLan (state : Advertiser × List Action) (request : Requested) :
    Advertiser × List Action :=
  let (advertiser, actions) := state
  let dev := request.lan.dev
  if advertiser.links.any (·.lan.dev == dev) then state
  else
    let actions := actions ++ [.tryOpen request]
    match request.answer with
    | .ok answer =>
        ({ links := advertiser.links ++ [.opened request.lan answer]
           failed := advertiser.failed.filter (· != dev) }, actions)
    | .error error =>
        if advertiser.failed.contains dev then (advertiser, actions)
        else
          ({ advertiser with failed := advertiser.failed ++ [dev] },
            actions ++ [.log s!"netd: {error}"])

/-- The first of these LANs that is on the link's device is the link's. -/
def Link.unchanged (lans : List Requested) (link : Link) : Bool :=
  (lans.find? (·.lan.dev == link.lan.dev)).any (·.lan == link.lan)

def Advertiser.configure (advertiser : Advertiser) (now : Instant) (lans : List Requested) :
    Advertiser × List Action :=
  let lans := lans.filter fun request => !request.lan.prefixes.isEmpty
  let kept := advertiser.links.filter (·.unchanged lans)
  let withdrawn := advertiser.links.filter (!·.unchanged lans)
  lans.foldl openLan
    ({ advertiser with links := kept }, withdrawn.map fun link => .send (link.send now true).2)

inductive Event where
  | configure (now : Instant) (lans : List Requested)
  | poll (round : Round)

def Advertiser.step (advertiser : Advertiser) : Event → Advertiser
  | .configure now lans => (advertiser.configure now lans).1
  | .poll round => (advertiser.poll round.now round.received).1

def Advertiser.run (events : List Event) : Advertiser := events.foldl step {}

/-! ## What a host reads from an advertisement -/

structure PrefixInformation where
  network : Ipv6Addr
  valid : Nat
  preferred : Nat
deriving DecidableEq, Repr

def NdOption.prefixInformation (option : NdOption) : Option PrefixInformation :=
  if option.type = 3 ∧ option.units = 4 then
    some {
      network := ipv6FromOctets ((option.bytes.drop 16).take 16)
      valid := fromBeBytes ((option.bytes.drop 4).take 4)
      preferred := fromBeBytes ((option.bytes.drop 8).take 4) }
  else none

/-- A whole packet, with this router lifetime and these prefixes. -/
def Announces (packet : Bytes) (lifetime : Nat) (prefixes : List PrefixInformation) : Prop :=
  ∃ header options, packet = packetOf header options ⟨[], .inl (by decide)⟩ ∧
    fromBeBytes ((header.bytes.drop 6).take 2) = lifetime ∧
    options.filterMap NdOption.prefixInformation = prefixes

namespace AdvertiserLemmas

theorem toBeBytes_length (width value : Nat) : (toBeBytes width value).length = width := by
  induction width generalizing value with
  | zero => rfl
  | succ width ih => rw [toBeBytes, List.length_append, ih, List.length_singleton]

theorem fromBeBytes_toBeBytes (width value : Nat) :
    fromBeBytes (toBeBytes width value) = value % 256 ^ width := by
  induction width generalizing value with
  | zero => rw [Nat.pow_zero, Nat.mod_one]; rfl
  | succ width ih =>
      have high := ih (value / 256)
      rw [fromBeBytes] at high ⊢
      rw [toBeBytes, List.foldl_append, high, Nat.pow_succ', Nat.mod_mul, List.foldl_cons,
        List.foldl_nil, UInt8.toNat_ofNat']
      omega

theorem ipv6FromOctets_toBeBytes (address : Ipv6Addr) :
    ipv6FromOctets (toBeBytes 16 address.toNat) = address := by
  have small : address.toNat < 256 ^ 16 := address.isLt
  rw [ipv6FromOctets, fromBeBytes_toBeBytes, Nat.mod_eq_of_lt small, BitVec.ofNat_toNat,
    BitVec.setWidth_eq]

/-- The source link-layer address. -/
def macOption (mac : Mac) : NdOption where
  type := 1
  units := 1
  body := mac.bytes
  length := by rw [mac.length]; decide

def prefixOption (valid preferred : Nat) (network : Ipv6Addr) : NdOption where
  type := 3
  units := 4
  body := [64, 0x80 ||| 0x40] ++ (toBeBytes 4 valid ++ (toBeBytes 4 preferred ++
    (List.replicate 4 0 ++ toBeBytes 16 network.toNat)))
  length := by
    simp only [List.length_append, List.length_cons, List.length_nil, List.length_replicate,
      toBeBytes_length]
    decide

theorem take_drop_append {front part rest : Bytes} {first length : Nat} (before : front.length = first)
    (whole : part.length = length) : ((front ++ (part ++ rest)).drop first).take length = part := by
  rw [List.drop_left' before, List.take_left' whole]

theorem prefixInformation_prefixOption (valid preferred : Nat) (network : Ipv6Addr) :
    (prefixOption valid preferred network).prefixInformation =
      some ⟨network, valid % 256 ^ 4, preferred % 256 ^ 4⟩ := by
  have first : ((prefixOption valid preferred network).bytes.drop 4).take 4 = toBeBytes 4 valid :=
    @take_drop_append [3, 4, 64, 0x80 ||| 0x40] _ _ 4 4 rfl (toBeBytes_length 4 valid)
  have second : ((prefixOption valid preferred network).bytes.drop 8).take 4 =
      toBeBytes 4 preferred :=
    @take_drop_append ([3, 4, 64, 0x80 ||| 0x40] ++ toBeBytes 4 valid) _ _ 8 4
      (by rw [List.length_append, toBeBytes_length]; rfl) (toBeBytes_length 4 preferred)
  have last : ((prefixOption valid preferred network).bytes.drop 16).take 16 =
      toBeBytes 16 network.toNat := by
    have whole := @take_drop_append ([3, 4, 64, 0x80 ||| 0x40] ++ toBeBytes 4 valid ++
      toBeBytes 4 preferred ++ List.replicate 4 0) (toBeBytes 16 network.toNat) [] 16 16
      (by simp only [List.length_append, toBeBytes_length, List.length_replicate]; rfl)
      (toBeBytes_length 16 network.toNat)
    rw [List.append_nil, List.append_assoc, List.append_assoc, List.append_assoc] at whole
    exact whole
  rw [NdOption.prefixInformation, if_pos ⟨rfl, rfl⟩, first, second, last,
    ipv6FromOctets_toBeBytes, fromBeBytes_toBeBytes, fromBeBytes_toBeBytes]

theorem foldl_append_flatMap (f : Ipv6Addr → Bytes) (packet : Bytes) (prefixes : List Ipv6Addr) :
    prefixes.foldl (fun packet network => packet ++ f network) packet =
      packet ++ prefixes.flatMap f := by
  induction prefixes generalizing packet with
  | nil => simp
  | cons network prefixes ih => rw [List.foldl_cons, ih, List.flatMap_cons, List.append_assoc]

def advertisementHeader (managed : Bool) (lifetime : Nat) : Header where
  bytes := [routerAdvert, 0, 0, 0, 64, if managed then 0x80 else 0] ++
    (toBeBytes 2 lifetime ++ List.replicate 8 0)
  type := rfl
  length := by
    simp only [List.length_append, List.length_cons, List.length_nil, List.length_replicate,
      toBeBytes_length]

def advertisementOptions (prefixes : List Ipv6Addr) (mac : Option Mac) (valid preferred : Nat) :
    List NdOption :=
  (mac.map macOption).toList ++ prefixes.map (prefixOption valid preferred)

theorem advertisement_eq (prefixes : List Ipv6Addr) (managed : Bool) (mac : Option Mac)
    (withdraw : Bool) : Advertiser.advertisement prefixes managed mac withdraw =
      packetOf (advertisementHeader managed (if withdraw then 0 else routerLifetime))
        (advertisementOptions prefixes mac (if withdraw then 0 else validLifetime)
          (if withdraw then 0 else preferredLifetime)) ⟨[], .inl (by decide)⟩ := by
  have step (valid preferred : Nat) : (fun packet (network : Ipv6Addr) =>
      packet ++ [3, 4, 64, 0x80 ||| 0x40] ++ toBeBytes 4 valid ++ toBeBytes 4 preferred ++
        List.replicate 4 0 ++ toBeBytes 16 network.toNat) =
      fun packet network => packet ++ (prefixOption valid preferred network).bytes := by
    funext packet network
    simp only [List.append_assoc]
    rfl
  unfold Advertiser.advertisement packetOf advertisementOptions
  dsimp only
  rw [step, foldl_append_flatMap, List.append_nil, List.flatMap_append, List.flatMap_map,
    List.append_assoc (List.cons _ _)]
  cases mac with
  | none => rfl
  | some mac =>
      have linkLayer : (Option.map macOption (some mac)).toList.flatMap NdOption.bytes =
          [1, 1] ++ mac.bytes := by
        simp [macOption, NdOption.bytes]
      rw [linkLayer, advertisementHeader]
      simp only [List.append_assoc]

/-- A withdrawal names the same prefixes, with all lifetimes zero. -/
theorem advertisement_announces (prefixes : List Ipv6Addr) (managed : Bool) (mac : Option Mac)
    (withdraw : Bool) :
    Announces (Advertiser.advertisement prefixes managed mac withdraw)
      (if withdraw then 0 else routerLifetime)
      (prefixes.map fun network =>
        ⟨network, if withdraw then 0 else validLifetime,
          if withdraw then 0 else preferredLifetime⟩) := by
  refine ⟨_, _, advertisement_eq prefixes managed mac withdraw, ?_, ?_⟩
  · have lifetime := @take_drop_append [routerAdvert, 0, 0, 0, 64, if managed then 0x80 else 0]
      (toBeBytes 2 (if withdraw then 0 else routerLifetime)) (List.replicate 8 0) 6 2 rfl
      (toBeBytes_length 2 _)
    rw [advertisementHeader, lifetime, fromBeBytes_toBeBytes]
    cases withdraw <;> decide
  · have linkLayer : (mac.map macOption).toList.filterMap NdOption.prefixInformation = [] := by
      cases mac <;> rfl
    have small : ∀ value ∈ [0, validLifetime, preferredLifetime], value % 256 ^ 4 = value := by
      decide
    rw [advertisementOptions, List.filterMap_append, linkLayer, List.nil_append,
      List.filterMap_map, ← List.filterMap_eq_map]
    refine congrArg (fun read => prefixes.filterMap read) (funext fun network => ?_)
    rw [Function.comp_apply, prefixInformation_prefixOption, small, small]
    · rfl
    · cases withdraw <;> simp
    · cases withdraw <;> simp

end AdvertiserLemmas

/-! ## Links that follow the request -/

/-- The LAN of the first entry with prefixes for a device. -/
def firstLan (lans : List Requested) (dev : String) : Option Lan :=
  (lans.find? fun request => request.lan.dev == dev && !request.lan.prefixes.isEmpty).map (·.lan)

/-- On the link's device, to all nodes: no default router, and no lifetime for any prefix. -/
structure Withdraws (link : Link) (message : Message) : Prop where
  dev : message.dev = link.lan.dev
  destination : message.destination = allNodes
  announces : Announces message.packet 0 (link.lan.prefixes.map fun network => ⟨network, 0, 0⟩)

structure Tracked (before : Advertiser) (lans : List Requested) (after : Advertiser)
    (actions : List Action) : Prop where
  distinct : (after.links.map (·.lan.dev)).Nodup
  first : ∀ link ∈ after.links, firstLan lans link.lan.dev = some link.lan
  linked : ∀ dev lan, firstLan lans dev = some lan →
    (∃ link ∈ after.links, link.lan.dev = dev) ∨ ∃ error, .tryOpen ⟨lan, .error error⟩ ∈ actions
  kept : ∀ link ∈ before.links, firstLan lans link.lan.dev = some link.lan → link ∈ after.links
  schedule : ∀ link ∈ before.links, ∀ other ∈ after.links, other.lan = link.lan → other = link
  withdrawn : ∃ messages later, actions = messages.map .send ++ later ∧
    (before.links.filter fun link => link ∉ after.links).Forall₂ Withdraws messages ∧
    ∀ message, .send message ∉ later

/-- On a device without an unchanged link the first entry that opens has the LAN of the
first entry. -/
def FirstOpens (before : Advertiser) (lans : List Requested) : Prop :=
  ∀ dev, (∀ link ∈ before.links, link.lan.dev = dev → firstLan lans dev ≠ some link.lan) →
    ∀ request, lans.find? (fun request => request.lan.dev == dev &&
        !request.lan.prefixes.isEmpty && request.answer.isOk) = some request →
      firstLan lans dev = some request.lan

namespace AdvertiserLemmas

open Advertiser

/-! ## Opening -/

/-- A device with a link is passed by; on another the open succeeds or fails. -/
theorem openLan_cases (state : Advertiser × List Action) (request : Requested) :
    ((∃ link ∈ state.1.links, link.lan.dev = request.lan.dev) ∧ openLan state request = state) ∨
    ((∀ link ∈ state.1.links, link.lan.dev ≠ request.lan.dev) ∧
      ((∃ answer, request.answer = .ok answer ∧
          (openLan state request).1.links = state.1.links ++ [.opened request.lan answer] ∧
          (openLan state request).2 = state.2 ++ [.tryOpen request]) ∨
        ∃ error, request.answer = .error error ∧
          (openLan state request).1.links = state.1.links ∧
          ∃ logged : List String, (openLan state request).2 =
            state.2 ++ .tryOpen request :: logged.map .log)) := by
  by_cases known : ∃ link ∈ state.1.links, link.lan.dev = request.lan.dev
  · refine .inl ⟨known, ?_⟩
    obtain ⟨link, mem, same⟩ := known
    have found : state.1.links.any (·.lan.dev == request.lan.dev) = true := by
      rw [List.any_eq_true]
      exact ⟨link, mem, beq_iff_eq.mpr same⟩
    rw [openLan]
    exact if_pos found
  · have fresh : ∀ link ∈ state.1.links, link.lan.dev ≠ request.lan.dev :=
      fun link mem same => known ⟨link, mem, same⟩
    have passes : ¬(state.1.links.any (·.lan.dev == request.lan.dev)) = true := by
      rw [List.any_eq_true]
      rintro ⟨link, mem, same⟩
      exact fresh link mem (beq_iff_eq.mp same)
    refine .inr ⟨fresh, ?_⟩
    rw [openLan]
    dsimp only
    rw [if_neg passes]
    cases answer : request.answer with
    | ok opened => exact .inl ⟨opened, rfl, rfl, rfl⟩
    | error error =>
        refine .inr ⟨error, rfl, ?_⟩
        dsimp only
        split
        · exact ⟨rfl, [], rfl⟩
        · refine ⟨rfl, [s!"netd: {error}"], ?_⟩
          rw [List.append_assoc]
          rfl

structure Opens (requests : List Requested) (state result : Advertiser × List Action) : Prop where
  links : ∀ link, link ∈ result.1.links ↔ link ∈ state.1.links ∨
    (∀ known ∈ state.1.links, known.lan.dev ≠ link.lan.dev) ∧ ∃ request answer,
      requests.find? (fun request => request.lan.dev == link.lan.dev && request.answer.isOk) =
        some request ∧
      request.answer = .ok answer ∧ link = .opened request.lan answer
  distinct : (state.1.links.map (·.lan.dev)).Nodup → (result.1.links.map (·.lan.dev)).Nodup
  actions : ∃ later, result.2 = state.2 ++ later ∧ (∀ message, .send message ∉ later) ∧
    ∀ request ∈ requests, (∃ link ∈ result.1.links, link.lan.dev = request.lan.dev) ∨
      .tryOpen request ∈ later ∧ ∃ error, request.answer = .error error

section

variable {request : Requested} {requests : List Requested} {state result : Advertiser × List Action}

theorem Opens.known (rest : Opens requests state result)
    (known : ∃ link ∈ state.1.links, link.lan.dev = request.lan.dev) :
    Opens (request :: requests) state result := by
  obtain ⟨links, distinct, later, actions, silent, tried⟩ := rest
  obtain ⟨first, mem, dev⟩ := known
  refine ⟨fun link => ?_, distinct, later, actions, silent, ?_⟩
  · refine (links link).trans (or_congr_right (and_congr_right fun fresh => ?_))
    rw [List.find?_cons_of_neg]
    intro hit
    exact fresh first mem (dev.trans (beq_iff_eq.mp (Bool.and_eq_true_iff.mp hit).1))
  · exact List.forall_mem_cons.mpr ⟨.inl ⟨first, (links first).mpr (.inl mem), dev⟩, tried⟩

theorem Opens.opened {next : Advertiser × List Action} (rest : Opens requests next result)
    (fresh : ∀ link ∈ state.1.links, link.lan.dev ≠ request.lan.dev) {answer : Opened}
    (ok : request.answer = .ok answer)
    (added : next.1.links = state.1.links ++ [.opened request.lan answer])
    (acted : next.2 = state.2 ++ [.tryOpen request]) :
    Opens (request :: requests) state result := by
  obtain ⟨links, distinct, later, actions, silent, tried⟩ := rest
  rw [added] at links distinct
  refine ⟨fun link => ?_, fun start => distinct ?_, .tryOpen request :: later, ?_, ?_, ?_⟩
  · rw [links link, List.mem_append, List.mem_singleton, or_assoc]
    refine or_congr_right ?_
    by_cases same : request.lan.dev = link.lan.dev
    · have first : (request :: requests).find? (fun request =>
          request.lan.dev == link.lan.dev && request.answer.isOk) = some request := by
        rw [List.find?_cons_of_pos]
        rw [same, ok, beq_self_eq_true]
        rfl
      rw [first, or_iff_left fun taken => taken.1 (.opened request.lan answer)
        (List.mem_append_right _ List.mem_cons_self) same]
      constructor
      · intro new
        exact ⟨fun known mem => same ▸ fresh known mem, request, answer, rfl, ok, new⟩
      · rintro ⟨-, _, other, ⟨⟩, ok', rfl⟩
        obtain rfl := Except.ok.inj (ok.symm.trans ok')
        rfl
    · have other : link ≠ .opened request.lan answer := by
        rintro rfl
        exact same rfl
      rw [or_iff_right other, List.find?_cons_of_neg]
      · refine and_congr_left fun _ => ⟨fun apart known mem => ?_, fun apart known mem => ?_⟩
        · exact apart known (List.mem_append_left _ mem)
        · rcases List.mem_append.mp mem with mem | mem
          · exact apart known mem
          · rw [List.mem_singleton.mp mem]
            exact same
      · intro hit
        exact same (beq_iff_eq.mp (Bool.and_eq_true_iff.mp hit).1)
  · rw [List.map_append, List.map_singleton]
    refine List.nodup_append.mpr ⟨start, List.nodup_singleton _, ?_⟩
    rintro dev mem _ last rfl
    obtain ⟨link, present, rfl⟩ := List.mem_map.mp mem
    exact fresh link present (List.mem_singleton.mp last)
  · rw [actions, acted, List.append_assoc, List.singleton_append]
  · intro message mem
    cases mem with
    | tail _ mem => exact silent message mem
  · refine List.forall_mem_cons.mpr ⟨.inl ⟨.opened request.lan answer, ?_, rfl⟩, ?_⟩
    · exact (links _).mpr (.inl (List.mem_append_right _ List.mem_cons_self))
    · intro other mem
      exact (tried other mem).imp_right (And.imp_left (List.mem_cons_of_mem _))

theorem Opens.failed {next : Advertiser × List Action} (rest : Opens requests next result)
    {error : String} (failed : request.answer = .error error)
    (same : next.1.links = state.1.links) {logged : List String}
    (acted : next.2 = state.2 ++ .tryOpen request :: logged.map .log) :
    Opens (request :: requests) state result := by
  obtain ⟨links, distinct, later, actions, silent, tried⟩ := rest
  rw [same] at links distinct
  refine ⟨fun link => ?_, distinct, .tryOpen request :: (logged.map .log ++ later), ?_, ?_, ?_⟩
  · rw [links link, List.find?_cons_of_neg]
    rw [failed]
    simp [Except.isOk, Except.toBool]
  · rw [actions, acted, List.append_assoc, List.cons_append]
  · intro message mem
    cases mem with
    | tail _ mem =>
        rcases List.mem_append.mp mem with mem | mem
        · obtain ⟨line, -, h⟩ := List.mem_map.mp mem
          cases h
        · exact silent message mem
  · refine List.forall_mem_cons.mpr ⟨.inr ⟨List.mem_cons_self, error, failed⟩, ?_⟩
    intro other mem
    exact (tried other mem).imp_right (And.imp_left fun mem =>
      List.mem_cons_of_mem _ (List.mem_append_right _ mem))

end

theorem opens (requests : List Requested) (state : Advertiser × List Action) :
    Opens requests state (requests.foldl openLan state) := by
  induction requests generalizing state with
  | nil =>
      refine ⟨fun link => ⟨.inl, fun h => h.elim id ?_⟩, id, [], ?_, ?_, ?_⟩
      · rintro ⟨-, request, answer, found, -⟩
        cases found
      · exact (List.append_nil _).symm
      · intro message mem
        cases mem
      · intro request mem
        cases mem
  | cons request requests ih =>
      have rest := ih (openLan state request)
      rw [List.foldl_cons]
      rcases openLan_cases state request with ⟨known, same⟩ | ⟨fresh, opened | failed⟩
      · rw [same] at rest ⊢
        exact rest.known known
      · obtain ⟨answer, ok, added, acted⟩ := opened
        exact rest.opened fresh ok added acted
      · obtain ⟨error, failed, same, logged, acted⟩ := failed
        exact rest.failed failed same acted

/-! ## One call -/

theorem find?_requested (lans : List Requested) (p : Requested → Bool) :
    (lans.filter fun request => !request.lan.prefixes.isEmpty).find? p =
      lans.find? fun request => !request.lan.prefixes.isEmpty && p request := by
  rw [List.find?_filter]
  congr 1
  funext request
  rw [Bool.decide_and, Bool.decide_eq_true, Bool.decide_eq_true]

theorem firstLan_eq (lans : List Requested) (dev : String) : firstLan lans dev =
    ((lans.filter fun request => !request.lan.prefixes.isEmpty).find? (·.lan.dev == dev)).map
      (·.lan) := by
  rw [find?_requested, firstLan]
  congr 2
  funext request
  exact Bool.and_comm _ _

theorem unchanged_iff {lans : List Requested} {link : Link} :
    link.unchanged (lans.filter fun request => !request.lan.prefixes.isEmpty) = true ↔
      firstLan lans link.lan.dev = some link.lan := by
  rw [firstLan_eq, Link.unchanged, Option.any_eq_true, Option.map_eq_some_iff]
  simp only [beq_iff_eq]

theorem withdraws_send (link : Link) (now : Instant) : Withdraws link (link.send now true).2 :=
  ⟨rfl, rfl, advertisement_announces link.lan.prefixes link.lan.managed link.mac true⟩

/-- What `configure` does, with the two passes apart. -/
theorem configure_spec (before : Advertiser) (now : Instant) (lans : List Requested) :
    Opens (lans.filter fun request => !request.lan.prefixes.isEmpty)
      ({ before with links := before.links.filter fun link =>
          link.unchanged (lans.filter fun request => !request.lan.prefixes.isEmpty) },
        ((before.links.filter fun link =>
          !link.unchanged (lans.filter fun request => !request.lan.prefixes.isEmpty)).map
            fun link => (link.send now true).2).map .send)
      (before.configure now lans) := by
  rw [List.map_map]
  exact opens _ _

theorem distinct_configure {before : Advertiser} (distinct : (before.links.map (·.lan.dev)).Nodup)
    (now : Instant) (lans : List Requested) :
    ((before.configure now lans).1.links.map (·.lan.dev)).Nodup :=
  (configure_spec before now lans).distinct (distinct.sublist (List.filter_sublist.map _))

theorem mem_kept {before : Advertiser} {lans : List Requested} {link : Link} :
    link ∈ before.links.filter (fun link =>
        link.unchanged (lans.filter fun request => !request.lan.prefixes.isEmpty)) ↔
      link ∈ before.links ∧ firstLan lans link.lan.dev = some link.lan := by
  rw [List.mem_filter, unchanged_iff]

/-- A link of a device without an unchanged one is the first entry that opens. -/
theorem mem_configure (before : Advertiser) (now : Instant) (lans : List Requested) (link : Link) :
    link ∈ (before.configure now lans).1.links ↔
      (link ∈ before.links ∧ firstLan lans link.lan.dev = some link.lan) ∨
      (∀ known ∈ before.links, known.lan.dev = link.lan.dev →
        firstLan lans link.lan.dev ≠ some known.lan) ∧
      ∃ request answer, lans.find? (fun request => request.lan.dev == link.lan.dev &&
          !request.lan.prefixes.isEmpty && request.answer.isOk) = some request ∧
        request.answer = .ok answer ∧ link = .opened request.lan answer := by
  have order : (fun request : Requested => !request.lan.prefixes.isEmpty &&
      (request.lan.dev == link.lan.dev && request.answer.isOk)) =
      fun request => request.lan.dev == link.lan.dev && !request.lan.prefixes.isEmpty &&
        request.answer.isOk := by
    funext request
    rw [← Bool.and_assoc, Bool.and_comm (!request.lan.prefixes.isEmpty)]
  rw [(configure_spec before now lans).links link, mem_kept, find?_requested, order]
  refine or_congr_right (and_congr_left fun _ => ⟨fun apart known mem same first => ?_,
    fun apart known kept same => ?_⟩)
  · rw [← same] at first
    exact apart known (mem_kept.mpr ⟨mem, first⟩) same
  · obtain ⟨mem, first⟩ := mem_kept.mp kept
    rw [same] at first
    exact apart known mem same first

theorem firstOpens_of_tracked {before : Advertiser} {now : Instant} {lans : List Requested}
    (tracked : Tracked before lans (before.configure now lans).1 (before.configure now lans).2) :
    FirstOpens before lans := by
  intro dev apart request found
  have hit := List.find?_some found
  rw [Bool.and_eq_true, Bool.and_eq_true, beq_iff_eq] at hit
  obtain ⟨⟨rfl, -⟩, opens⟩ := hit
  cases answered : request.answer with
  | error error =>
      rw [answered] at opens
      cases opens
  | ok answer =>
      exact tracked.first (.opened request.lan answer) ((mem_configure before now lans _).mpr
        (.inr ⟨apart, request, answer, found, answered, rfl⟩))

theorem first_of_firstOpens {before : Advertiser} {now : Instant} {lans : List Requested}
    (opens : FirstOpens before lans) {link : Link}
    (mem : link ∈ (before.configure now lans).1.links) :
    firstLan lans link.lan.dev = some link.lan := by
  rcases (mem_configure before now lans link).mp mem with ⟨-, first⟩ | ⟨apart, request, answer,
    found, -, rfl⟩
  · exact first
  · exact opens request.lan.dev apart request found

theorem linked_configure (before : Advertiser) (now : Instant) (lans : List Requested)
    {dev : String} {lan : Lan} (first : firstLan lans dev = some lan) :
    (∃ link ∈ (before.configure now lans).1.links, link.lan.dev = dev) ∨
      ∃ error, .tryOpen ⟨lan, .error error⟩ ∈ (before.configure now lans).2 := by
  rw [firstLan_eq] at first
  obtain ⟨request, found, rfl⟩ := Option.map_eq_some_iff.mp first
  have hit := List.find?_some found
  have dev_eq : request.lan.dev = dev := beq_iff_eq.mp hit
  obtain ⟨later, actions, -, tried⟩ := (configure_spec before now lans).actions
  refine (tried request (List.mem_of_find?_eq_some found)).imp ?_ ?_
  · rintro ⟨link, mem, same⟩
    exact ⟨link, mem, same.trans dev_eq⟩
  · rintro ⟨mem, error, failed⟩
    refine ⟨error, ?_⟩
    rw [actions, ← failed]
    exact List.mem_append_right _ mem

theorem tracked_of_firstOpens {before : Advertiser}
    (distinct : (before.links.map (·.lan.dev)).Nodup) {now : Instant} {lans : List Requested}
    (opens : FirstOpens before lans) :
    Tracked before lans (before.configure now lans).1 (before.configure now lans).2 := by
  have after := distinct_configure distinct now lans
  have kept : ∀ link ∈ before.links, firstLan lans link.lan.dev = some link.lan →
      link ∈ (before.configure now lans).1.links := fun link mem first =>
    (mem_configure before now lans link).mpr (.inl ⟨mem, first⟩)
  refine ⟨after, fun link => first_of_firstOpens opens, fun dev lan =>
    linked_configure before now lans, kept, ?_, ?_⟩
  · intro link mem other present same
    have first := first_of_firstOpens opens present
    rw [same] at first
    exact List.inj_on_of_nodup_map after present (kept link mem first) (by rw [same])
  · obtain ⟨later, actions, silent, -⟩ := (configure_spec before now lans).actions
    refine ⟨_, later, actions, ?_, silent⟩
    have dropped : (before.links.filter fun link => link ∉ (before.configure now lans).1.links) =
        before.links.filter fun link =>
          !link.unchanged (lans.filter fun request => !request.lan.prefixes.isEmpty) := by
      refine List.filter_congr fun link mem => ?_
      rw [Bool.eq_iff_iff, decide_eq_true_eq, Bool.not_eq_true', Bool.eq_false_iff, ne_eq,
        unchanged_iff]
      exact not_congr ⟨first_of_firstOpens opens, kept link mem⟩
    rw [dropped, List.forall₂_map_right_iff]
    exact List.forall₂_same.mpr fun link _ => withdraws_send link now

/-! ## Runs -/

theorem distinct_step {advertiser : Advertiser}
    (distinct : (advertiser.links.map (·.lan.dev)).Nodup) (event : Event) :
    ((advertiser.step event).links.map (·.lan.dev)).Nodup := by
  cases event with
  | configure now lans => exact distinct_configure distinct now lans
  | poll round =>
      have polled := polls_eq advertiser [round]
      rw [Advertiser.polls, List.foldl_cons, List.foldl_nil] at polled
      rw [Advertiser.step, polled, List.map_map]
      simp only [Function.comp_def, lan_after]
      exact distinct

theorem distinct_run (events : List Event) :
    ((Advertiser.run events).links.map (·.lan.dev)).Nodup := by
  have kept (advertiser : Advertiser) (distinct : (advertiser.links.map (·.lan.dev)).Nodup) :
      ((events.foldl Advertiser.step advertiser).links.map (·.lan.dev)).Nodup := by
    induction events generalizing advertiser with
    | nil => exact distinct
    | cons event events ih => exact ih _ (distinct_step distinct event)
  exact kept {} List.nodup_nil

end AdvertiserLemmas

open AdvertiserLemmas

/-- After every run of calls and polls, a call follows the request and withdraws the rest
exactly if on no device the open of a later entry with another LAN succeeds after that of
the first has failed. -/
theorem configure_tracks_iff (events : List Event) (now : Instant) (lans : List Requested) :
    Tracked (.run events) lans ((Advertiser.run events).configure now lans).1
        ((Advertiser.run events).configure now lans).2 ↔
      FirstOpens (.run events) lans :=
  ⟨firstOpens_of_tracked, tracked_of_firstOpens (distinct_run events)⟩

/-- Two entries for one device, of which the first does not open. -/
def secondOpens : List Requested :=
  [⟨routedLan, .error "RA link eth1 is missing"⟩,
   ⟨{ routedLan with prefixes := [0x20010db8000200000000000000000000] }, .ok ⟨2, none, 0⟩⟩]

/-- The link has the LAN of the second entry. -/
theorem configure_second_opens :
    ¬Tracked (.run []) secondOpens ((Advertiser.run []).configure 0 secondOpens).1
      ((Advertiser.run []).configure 0 secondOpens).2 := by
  intro tracked
  have first := tracked.first (.opened
    { routedLan with prefixes := [0x20010db8000200000000000000000000] } ⟨2, none, 0⟩)
    (by decide)
  exact absurd first (by decide)

end Fwos.Ra
