import Fwos.Lists.Latest
import Fwos.RouterAdvertisement
import Fwos.Rust.Ipv6Text

/-!
# The resolvers that WANs announce

`RdnssListener` keeps what the Router Advertisements on each configured WAN announce
(`ra.rs`). Its state is one list for all WANs, which announcements edit and which is
only filtered by time when it is read.

* `Heard`: the announcements on one WAN since it was last outside the configured list.
* `rdnss_last_announcement_wins`: after every run the listener answers with the latest
  announcements, as far as they have not expired.
-/

namespace Fwos.Ra

open Rust Lists

/-- A time, or a duration, in nanoseconds. -/
abbrev Instant := Nat

def second : Nat := 1000000000

/-! ## The listener -/

structure Learned where
  dev : String
  server : Ipv6Addr
  expires : Instant
deriving DecidableEq, Repr

structure RdnssListener where
  /-- The WANs with an open socket. -/
  links : List String := []
  learned : List Learned := []
  /-- WANs whose socket failed; logged once until they open again. -/
  failed : List String := []
deriving DecidableEq, Repr

namespace RdnssListener

/-- A requested WAN, and whether its socket opens if it is tried. -/
def openLink (listener : RdnssListener) (wan : String × Bool) : RdnssListener :=
  if listener.links.contains wan.1 then listener
  else if wan.2 then
    { listener with
      failed := listener.failed.filter (· != wan.1)
      links := listener.links ++ [wan.1] }
  else if listener.failed.contains wan.1 then listener
  else { listener with failed := listener.failed ++ [wan.1] }

def configure (listener : RdnssListener) (wans : List (String × Bool)) : RdnssListener :=
  wans.foldl openLink { listener with
    links := listener.links.filter fun dev => (wans.map (·.1)).contains dev
    learned := listener.learned.filter fun learned => (wans.map (·.1)).contains learned.dev }

/-- One server of an advertisement, with its lifetime in seconds. -/
def announce (dev : String) (now : Instant) (learned : List Learned) (server : Ipv6Addr × Nat) :
    List Learned :=
  let learned := learned.filter fun known => !(known.dev == dev && known.server == server.1)
  if server.2 > 0 then
    learned ++ [{ dev, server := server.1, expires := now + second * server.2 }]
  else learned

def learn (listener : RdnssListener) (dev : String) (packet : Bytes) (now : Instant) :
    Option RdnssListener := do
  let servers ← rdnssServers packet
  return { listener with learned := servers.foldl (announce dev now) listener.learned }

/-- The packets that wait on each WAN's socket are read first, then learned. -/
def poll (listener : RdnssListener) (now : Instant) (waiting : String → List Bytes) :
    Option RdnssListener :=
  (listener.links.flatMap fun dev => (waiting dev).map (dev, ·)).foldlM
    (fun listener received => listener.learn received.1 received.2 now) listener

/-- As a resolv.conf address. -/
def resolverText (dev : String) (server : Ipv6Addr) : String :=
  if isUnicastLinkLocal server then s!"{displayIpv6 server}%{dev}" else displayIpv6 server

def servers (listener : RdnssListener) (dev : String) (now : Instant) : List String :=
  (listener.learned.filter fun learned => learned.dev == dev && learned.expires > now).map
    fun learned => resolverText dev learned.server

end RdnssListener

/-! ## Runs -/

inductive ListenerEvent where
  | configure (wans : List (String × Bool))
  | poll (now : Instant) (waiting : String → List Bytes)

def RdnssListener.step (listener : RdnssListener) : ListenerEvent → Option RdnssListener
  | .configure wans => some (listener.configure wans)
  | .poll now waiting => listener.poll now waiting

def RdnssListener.run (events : List ListenerEvent) : Option RdnssListener :=
  events.foldlM RdnssListener.step {}

/-! ## What is announced on a WAN -/

structure Announcement where
  server : Ipv6Addr
  /-- In seconds. -/
  lifetime : Nat
  time : Instant
deriving DecidableEq, Repr

/-- A WAN: whether a socket listens on it, and the announcements since it was last outside
the configured list. -/
structure Heard where
  listening : Bool := false
  announcements : List Announcement := []

open Classical in
/-- The servers of the options of a Router Advertisement, with their lifetimes; no other
packet announces any. -/
noncomputable def announced (packet : Bytes) : List (Ipv6Addr × Nat) :=
  if advertises : ∃ options header tail, packet = packetOf header options tail then
    advertises.choose.flatMap NdOption.servers
  else []

noncomputable def announcedBy (packet : Bytes) (now : Instant) : List Announcement :=
  (announced packet).map fun server => { server := server.1, lifetime := server.2, time := now }

noncomputable def Heard.step (wan : String) (heard : Heard) : ListenerEvent → Heard
  | .configure wans =>
      if (wans.map (·.1)).contains wan then
        { heard with listening := heard.listening || wans.contains (wan, true) }
      else {}
  | .poll now waiting =>
      if heard.listening then
        { heard with
          announcements :=
            heard.announcements ++ (waiting wan).flatMap fun packet => announcedBy packet now }
      else heard

noncomputable def Heard.after (wan : String) (events : List ListenerEvent) : Heard :=
  events.foldl (Heard.step wan) {}

/-- fe80::/10. -/
abbrev LinkLocal (server : Ipv6Addr) : Prop :=
  0xfe80 * 2 ^ 112 ≤ server.toNat ∧ server.toNat < 0xfec0 * 2 ^ 112

/-- A link-local address is no address without its link. -/
def scopedText (wan : String) (server : Ipv6Addr) : String :=
  if LinkLocal server then displayIpv6 server ++ "%" ++ wan else displayIpv6 server

/-- An announcement with a lifetime that has not passed. -/
def Announcement.live (now : Instant) (announcement : Announcement) : Bool :=
  announcement.lifetime != 0 && announcement.time + second * announcement.lifetime > now

namespace ListenerLemmas

open RaLemmas RdnssListener

/-! ## What a packet announces -/

theorem rdnssServers_eq (packet : Bytes) : rdnssServers packet = some (announced packet) := by
  rw [announced]
  split
  next advertises =>
    obtain ⟨header, tail, same⟩ := advertises.choose_spec
    rw [← rdnssServers_packetOf header _ tail, ← same]
  next other =>
    exact rdnssServers_other fun header options tail same => other ⟨options, header, tail, same⟩

theorem announced_packetOf (header : Header) (options : List NdOption) (tail : Tail) :
    announced (packetOf header options tail) = options.flatMap NdOption.servers := by
  have read := rdnssServers_eq (packetOf header options tail)
  rw [rdnssServers_packetOf] at read
  exact (Option.some.inj read).symm

theorem isUnicastLinkLocal_iff (server : Ipv6Addr) :
    isUnicastLinkLocal server = true ↔ LinkLocal server := by
  rw [isUnicastLinkLocal, beq_iff_eq, ← BitVec.toNat_inj, BitVec.toNat_ushiftRight,
    Nat.shiftRight_eq_div_pow]
  show server.toNat / 2 ^ 118 = 0x3fa ↔ _
  rw [LinkLocal]
  omega

theorem resolverText_eq (wan : String) (server : Ipv6Addr) :
    resolverText wan server = scopedText wan server := by
  rw [resolverText, scopedText]
  by_cases linkLocal : LinkLocal server
  · rw [if_pos ((isUnicastLinkLocal_iff server).mpr linkLocal), if_pos linkLocal]
    rfl
  · rw [if_neg (mt (isUnicastLinkLocal_iff server).mp linkLocal), if_neg linkLocal]

/-! ## The table of one WAN -/

def toLearned (wan : String) (announcement : Announcement) : Learned :=
  { dev := wan, server := announcement.server
    expires := announcement.time + second * announcement.lifetime }

/-- What the announcements leave: the latest ones with a lifetime. -/
abbrev table (announcements : List Announcement) : List Announcement :=
  announcements.foldl (replace (·.server) (·.lifetime != 0)) []

/-! ## One WAN's part of the state -/

variable {wan : String}

def heardOn (wan : String) (learned : List Learned) : List Learned :=
  learned.filter fun known => known.dev == wan

theorem heardOn_announce {now : Instant} {learned : List Learned} {heard : List Announcement}
    (h : heardOn wan learned = (table heard).map (toLearned wan)) (server : Ipv6Addr × Nat) :
    heardOn wan (announce wan now learned server) =
      (table (heard ++ [{ server := server.1, lifetime := server.2, time := now }])).map
        (toLearned wan) := by
  have others : heardOn wan (learned.filter fun known =>
      !(known.dev == wan && known.server == server.1)) =
      (heardOn wan learned).filter fun known => known.server != server.1 := by
    rw [heardOn, heardOn, List.filter_filter, List.filter_filter]
    refine List.filter_congr fun known _ => ?_
    cases known.dev == wan <;> simp [bne]
  have mapped := @map_replace _ _ _ _ (fun a : Announcement => a.server) (·.lifetime != 0)
    (toLearned wan) Learned.server fun _ => rfl
  rw [table, List.foldl_append, List.foldl_cons, List.foldl_nil, mapped, ← h, ← others, announce]
  dsimp only
  by_cases positive : server.2 > 0
  · have nonzero : (server.2 != 0) = true := by simpa using Nat.ne_of_gt positive
    rw [if_pos positive, if_pos nonzero, heardOn, List.filter_append]
    congr 1
    exact List.filter_cons_of_pos (beq_self_eq_true wan)
  · have zero : (server.2 != 0) = false := by simpa using positive
    rw [if_neg positive, if_neg (by simp [zero]), List.append_nil]

theorem heardOn_announce_other {dev : String} (other : dev ≠ wan) {now : Instant}
    {learned : List Learned} (server : Ipv6Addr × Nat) :
    heardOn wan (announce dev now learned server) = heardOn wan learned := by
  have others : heardOn wan (learned.filter fun known =>
      !(known.dev == dev && known.server == server.1)) = heardOn wan learned := by
    rw [heardOn, heardOn, List.filter_filter]
    refine List.filter_congr fun known _ => ?_
    by_cases same : known.dev = wan
    · simp [same, other.symm]
    · simp [same]
  unfold announce
  split
  · have apart : (dev == wan) = false := beq_false_of_ne other
    rw [heardOn, List.filter_append, ← heardOn, others, List.filter_cons_of_neg (by simp [apart]),
      List.filter_nil, List.append_nil]
  · exact others

theorem heardOn_foldl {now : Instant} {learned : List Learned} {heard : List Announcement}
    (h : heardOn wan learned = (table heard).map (toLearned wan))
    (servers : List (Ipv6Addr × Nat)) :
    heardOn wan (servers.foldl (announce wan now) learned) =
      (table (heard ++ servers.map fun server =>
        { server := server.1, lifetime := server.2, time := now })).map (toLearned wan) := by
  induction servers generalizing learned heard with
  | nil => simpa using h
  | cons server servers ih =>
      rw [List.foldl_cons, ih (heardOn_announce h server), List.append_assoc]
      rfl

theorem heardOn_foldl_other {dev : String} (other : dev ≠ wan) {now : Instant}
    {learned : List Learned} (servers : List (Ipv6Addr × Nat)) :
    heardOn wan (servers.foldl (announce dev now) learned) = heardOn wan learned := by
  induction servers generalizing learned with
  | nil => rfl
  | cons server servers ih => rw [List.foldl_cons, ih, heardOn_announce_other other]

/-- A packet on this WAN adds its announcements, and one on another none. -/
theorem heardOn_learn {listener : RdnssListener} {heard : List Announcement}
    (h : heardOn wan listener.learned = (table heard).map (toLearned wan)) (dev : String)
    (packet : Bytes) (now : Instant) :
    ∃ learned, listener.learn dev packet now = some { listener with learned } ∧
      heardOn wan learned = (table (heard ++ if dev = wan then announcedBy packet now else [])).map
        (toLearned wan) := by
  refine ⟨(announced packet).foldl (announce dev now) listener.learned, ?_, ?_⟩
  · rw [learn, rdnssServers_eq]
    rfl
  split
  next same =>
    subst same
    exact heardOn_foldl h (announced packet)
  next other =>
    rw [heardOn_foldl_other other, List.append_nil]
    exact h

/-! ## What each event does -/

structure Tracks (wan : String) (listener : RdnssListener) (heard : Heard) : Prop where
  listening : wan ∈ listener.links ↔ heard.listening = true
  learned : heardOn wan listener.learned = (table heard.announcements).map (toLearned wan)

theorem heardOn_learnAll {now : Instant} (received : List (String × Bytes))
    (listener : RdnssListener) : ∃ learned,
      received.foldlM (fun listener received => listener.learn received.1 received.2 now) listener =
        some { listener with learned } ∧
      ∀ wan heard, heardOn wan listener.learned = (table heard).map (toLearned wan) →
        heardOn wan learned = (table (heard ++ received.flatMap fun received =>
          if received.1 = wan then announcedBy received.2 now else [])).map (toLearned wan) := by
  induction received generalizing listener with
  | nil => exact ⟨listener.learned, rfl, fun wan heard h => by simpa using h⟩
  | cons first received ih =>
      have learns : listener.learn first.1 first.2 now = some { listener with
          learned := (announced first.2).foldl (announce first.1 now) listener.learned } := by
        rw [learn, rdnssServers_eq]
        rfl
      obtain ⟨learned, run, kept⟩ := ih { listener with
        learned := (announced first.2).foldl (announce first.1 now) listener.learned }
      refine ⟨learned, by rw [List.foldlM_cons, learns]; exact run, fun wan heard h => ?_⟩
      obtain ⟨learned', learns', step⟩ := heardOn_learn h first.1 first.2 now
      obtain rfl : learned' = (announced first.2).foldl (announce first.1 now) listener.learned :=
        congrArg RdnssListener.learned (Option.some.inj (learns'.symm.trans learns))
      rw [kept wan _ step, List.flatMap_cons, List.append_assoc]

/-- Of all packets those on this WAN. -/
theorem flatMap_links {links : List String} (distinct : links.Nodup)
    (waiting : String → List Bytes) (now : Instant) (wan : String) :
    ((links.flatMap fun dev => (waiting dev).map (dev, ·)).flatMap fun received =>
        if received.1 = wan then announcedBy received.2 now else []) =
      if wan ∈ links then (waiting wan).flatMap fun packet => announcedBy packet now else [] := by
  induction links with
  | nil => rfl
  | cons dev links ih =>
      obtain ⟨fresh, distinct⟩ := List.nodup_cons.mp distinct
      rw [List.flatMap_cons, List.flatMap_append, ih distinct, List.flatMap_map]
      dsimp only
      by_cases same : dev = wan
      · subst same
        rw [if_neg fresh, if_pos List.mem_cons_self, List.append_nil]
        simp only [if_true]
      · have missing : (waiting dev).flatMap (fun packet =>
            if dev = wan then announcedBy packet now else []) = [] := by
          simp [same]
        have elsewhere : wan ∈ dev :: links ↔ wan ∈ links := by
          rw [List.mem_cons, or_iff_right fun found => same found.symm]
        rw [missing, List.nil_append, if_congr elsewhere rfl rfl]

theorem openLink_spec (listener : RdnssListener) (first : String × Bool) :
    (openLink listener first).learned = listener.learned ∧
      (listener.links.Nodup → (openLink listener first).links.Nodup) ∧
      ∀ wan, wan ∈ (openLink listener first).links ↔
        wan ∈ listener.links ∨ (wan, true) = first := by
  obtain ⟨dev, opens⟩ := first
  unfold openLink
  by_cases listed : dev ∈ listener.links
  · rw [if_pos (List.contains_iff_mem.mpr listed)]
    refine ⟨rfl, id, fun wan => ⟨.inl, fun h => h.elim id fun same => ?_⟩⟩
    rw [(Prod.mk.inj same).1]
    exact listed
  · rw [if_neg (mt List.contains_iff_mem.mp listed)]
    cases opens with
    | true =>
        rw [if_pos rfl]
        refine ⟨rfl, fun distinct => ?_, fun wan => ?_⟩
        · have added := distinct.concat listed
          rw [List.concat_eq_append] at added
          exact added
        · simp
    | false =>
        rw [if_neg Bool.false_ne_true]
        have closed : ∀ wan, (wan, true) ≠ (dev, false) := fun wan same =>
          Bool.noConfusion (Prod.mk.inj same).2
        split
        · exact ⟨rfl, id, fun wan => (or_iff_left (closed wan)).symm⟩
        · exact ⟨rfl, id, fun wan => (or_iff_left (closed wan)).symm⟩

theorem openLinks (wans : List (String × Bool)) (listener : RdnssListener) :
    (wans.foldl openLink listener).learned = listener.learned ∧
      (listener.links.Nodup → (wans.foldl openLink listener).links.Nodup) ∧
      ∀ wan, wan ∈ (wans.foldl openLink listener).links ↔
        wan ∈ listener.links ∨ (wan, true) ∈ wans := by
  induction wans generalizing listener with
  | nil => exact ⟨rfl, id, fun wan => by simp⟩
  | cons first wans ih =>
      obtain ⟨learned, distinct, links⟩ := ih (openLink listener first)
      have step := openLink_spec listener first
      refine ⟨learned.trans step.1, fun start => distinct (step.2.1 start), fun wan => ?_⟩
      rw [List.foldl_cons, links, step.2.2, List.mem_cons, or_assoc]

theorem tracks_configure {listener : RdnssListener} {heard : Heard}
    (h : Tracks wan listener heard) (wans : List (String × Bool)) :
    Tracks wan (listener.configure wans) (heard.step wan (.configure wans)) := by
  obtain ⟨learned, -, links⟩ := openLinks wans { listener with
    links := listener.links.filter fun dev => (wans.map (·.1)).contains dev
    learned := listener.learned.filter fun learned => (wans.map (·.1)).contains learned.dev }
  have kept : heardOn wan (listener.configure wans).learned =
      if (wans.map (·.1)).contains wan then heardOn wan listener.learned else [] := by
    rw [configure, learned, heardOn, List.filter_filter]
    split
    next named =>
      refine List.filter_congr fun known _ => ?_
      by_cases same : known.dev = wan
      · rw [same, named, Bool.and_true]
      · rw [beq_false_of_ne same, Bool.false_and]
    next other =>
      refine List.filter_eq_nil_iff.mpr fun known _ hit => ?_
      obtain ⟨same, named⟩ := Bool.and_eq_true_iff.mp hit
      rw [beq_iff_eq.mp same] at named
      exact other named
  have listed : wan ∈ (listener.configure wans).links ↔
      (wans.map (·.1)).contains wan = true ∧
        (wan ∈ listener.links ∨ (wan, true) ∈ wans) := by
    have named (mem : (wan, true) ∈ wans) : (wans.map (·.1)).contains wan = true :=
      List.contains_iff_mem.mpr (List.mem_map_of_mem mem)
    rw [configure, links, List.mem_filter]
    constructor
    · rintro (⟨mem, named⟩ | mem)
      · exact ⟨named, .inl mem⟩
      · exact ⟨named mem, .inr mem⟩
    · rintro ⟨named, mem | mem⟩
      · exact .inl ⟨mem, named⟩
      · exact .inr mem
  unfold Heard.step
  dsimp only
  split
  next named =>
    refine ⟨?_, ?_⟩
    · rw [listed, and_iff_right named, h.listening, Bool.or_eq_true, List.contains_iff_mem]
    · rw [kept, if_pos named]
      exact h.learned
  next other =>
    refine ⟨?_, ?_⟩
    · exact iff_of_false (fun mem => other (listed.mp mem).1) Bool.false_ne_true
    · rw [kept, if_neg other]
      rfl

theorem poll_spec {listener : RdnssListener} (distinct : listener.links.Nodup) (now : Instant)
    (waiting : String → List Bytes) :
    ∃ learned, listener.poll now waiting = some { listener with learned } ∧
      ∀ wan heard, Tracks wan listener heard →
        Tracks wan { listener with learned } (heard.step wan (.poll now waiting)) := by
  obtain ⟨learned, read, kept⟩ := @heardOn_learnAll now
    (listener.links.flatMap fun dev => (waiting dev).map (dev, ·)) listener
  refine ⟨learned, read, fun wan heard h => ?_⟩
  have added := kept wan heard.announcements h.learned
  rw [flatMap_links distinct] at added
  unfold Heard.step
  dsimp only
  split
  next listens =>
    rw [if_pos (h.listening.mpr listens)] at added
    exact ⟨h.listening, added⟩
  next closed =>
    rw [if_neg fun mem => closed (h.listening.mp mem), List.append_nil] at added
    exact ⟨h.listening, added⟩

/-- Every run has a result, which tracks what each WAN announced. -/
theorem run_tracks (events : List ListenerEvent) (listener : RdnssListener)
    (distinct : listener.links.Nodup) (heard : String → Heard)
    (h : ∀ wan, Tracks wan listener (heard wan)) :
    ∃ last, events.foldlM RdnssListener.step listener = some last ∧
      ∀ wan, Tracks wan last (events.foldl (Heard.step wan) (heard wan)) := by
  induction events generalizing listener heard with
  | nil => exact ⟨listener, rfl, h⟩
  | cons event events ih =>
      cases event with
      | configure wans =>
          have links := openLinks wans { listener with
            links := listener.links.filter fun dev => (wans.map (·.1)).contains dev
            learned := listener.learned.filter fun known => (wans.map (·.1)).contains known.dev }
          exact ih (listener.configure wans) (links.2.1 (distinct.filter _))
            (fun wan => (heard wan).step wan (.configure wans))
            fun wan => tracks_configure (h wan) wans
      | poll now waiting =>
          obtain ⟨learned, read, kept⟩ := poll_spec distinct now waiting
          obtain ⟨last, run, tracks⟩ := ih { listener with learned } distinct
            (fun wan => (heard wan).step wan (.poll now waiting)) fun wan => kept wan _ (h wan)
          refine ⟨last, ?_, tracks⟩
          rw [List.foldlM_cons, RdnssListener.step, read]
          exact run

/-! ## The texts of resolvers -/

theorem percent_not_mem (server : Ipv6Addr) : '%' ∉ (displayIpv6 server).toList := fun mem =>
  absurd (parseIpv6_chars (parseIpv6_displayIpv6 server) '%' mem) (by decide)

theorem displayIpv6_injective {server other : Ipv6Addr}
    (h : displayIpv6 server = displayIpv6 other) : server = other := by
  have read := parseIpv6_displayIpv6 server
  rw [h, parseIpv6_displayIpv6] at read
  exact (Option.some.inj read).symm

theorem toList_withScope (server : Ipv6Addr) : (displayIpv6 server ++ "%" ++ wan).toList =
    (displayIpv6 server).toList ++ '%' :: wan.toList := by
  simp

theorem scopedText_injective {server other : Ipv6Addr}
    (h : scopedText wan server = scopedText wan other) : server = other := by
  have unscoped (server : Ipv6Addr) (other : List Char) :
      other ++ '%' :: wan.toList ≠ (displayIpv6 server).toList := fun same =>
    percent_not_mem server (same ▸ List.mem_append_right _ List.mem_cons_self)
  have chars := congrArg String.toList h
  unfold scopedText at chars
  split at chars <;> split at chars
  · rw [toList_withScope, toList_withScope] at chars
    exact displayIpv6_injective (String.toList_inj.mp (List.append_cancel_right chars))
  · rw [toList_withScope] at chars
    exact absurd chars (unscoped other _)
  · rw [toList_withScope] at chars
    exact absurd chars.symm (unscoped server _)
  · exact displayIpv6_injective (String.toList_inj.mp chars)

theorem servers_eq {listener : RdnssListener} {heard : Heard} (h : Tracks wan listener heard)
    (now : Instant) : listener.servers wan now =
      ((latest (·.server) heard.announcements).filter (·.live now)).map
        fun announcement => scopedText wan announcement.server := by
  have table_eq : table heard.announcements =
      (latest (·.server) heard.announcements).filter (·.lifetime != 0) := foldl_replace ..
  have unexpired : listener.learned.filter
      (fun learned => learned.dev == wan && decide (learned.expires > now)) =
      (heardOn wan listener.learned).filter fun learned => learned.expires > now := by
    rw [heardOn, List.filter_filter]
    exact List.filter_congr fun _ _ => Bool.and_comm ..
  have current : (fun announcement : Announcement =>
      decide ((toLearned wan announcement).expires > now) && announcement.lifetime != 0) =
      Announcement.live now := by
    funext announcement
    simp only [Announcement.live, toLearned]
    exact Bool.and_comm _ _
  rw [servers, unexpired, h.learned, table_eq, List.filter_map, List.filter_filter, List.map_map]
  simp only [Function.comp_def, current, ← resolverText_eq]
  rfl

end ListenerLemmas

/-- The same event without what arrives on other WANs. -/
def ListenerEvent.only (wan : String) : ListenerEvent → ListenerEvent
  | .configure wans => .configure (wans.filter (·.1 == wan))
  | .poll now waiting => .poll now fun dev => if dev = wan then waiting dev else []

namespace ListenerLemmas

variable {wan : String}

theorem step_only (heard : Heard) (event : ListenerEvent) :
    heard.step wan (event.only wan) = heard.step wan event := by
  cases event with
  | configure wans =>
      have named : ((wans.filter (·.1 == wan)).map (·.1)).contains wan =
          (wans.map (·.1)).contains wan := by
        rw [Bool.eq_iff_iff, List.contains_iff_mem, List.contains_iff_mem]
        simp
      have opens : (wans.filter (·.1 == wan)).contains (wan, true) = wans.contains (wan, true) := by
        rw [Bool.eq_iff_iff, List.contains_iff_mem, List.contains_iff_mem]
        simp
      simp only [ListenerEvent.only, Heard.step, named, opens]
  | poll now waiting => simp only [ListenerEvent.only, Heard.step, if_true]

theorem after_only (events : List ListenerEvent) :
    Heard.after wan (events.map (·.only wan)) = Heard.after wan events := by
  rw [Heard.after, Heard.after, List.foldl_map]
  congr 1
  funext heard event
  exact step_only heard event

theorem exists_run (events : List ListenerEvent) : ∃ listener,
    RdnssListener.run events = some listener ∧
      ∀ wan, Tracks wan listener (Heard.after wan events) :=
  run_tracks events {} List.nodup_nil (fun _ => {}) fun _ => ⟨by simp, rfl⟩

end ListenerLemmas

open ListenerLemmas

/-- A Router Advertisement announces the servers of its options, however its bytes are read
as options. Every run has a result. It answers with the servers whose latest announcement
on the WAN, since that was last outside the configured list, has a lifetime that has not
passed, in the order of these announcements and each once, with the WAN exactly where they
are link-local. What arrives on other WANs, and whether these are configured, does not
matter. -/
theorem rdnss_last_announcement_wins (events : List ListenerEvent) :
    (∀ header options tail, announced (packetOf header options tail) =
      options.flatMap NdOption.servers) ∧
    ∃ listener, RdnssListener.run events = some listener ∧ ∀ wan now,
      listener.servers wan now =
        ((latest (·.server) (Heard.after wan events).announcements).filter (·.live now)).map
          (fun announcement => scopedText wan announcement.server) ∧
      (listener.servers wan now).Nodup ∧
      ∃ alone, RdnssListener.run (events.map (·.only wan)) = some alone ∧
        alone.servers wan now = listener.servers wan now := by
  obtain ⟨listener, run, tracks⟩ := exists_run events
  refine ⟨announced_packetOf, listener, run, fun wan now => ?_⟩
  have answers := servers_eq (tracks wan) now
  obtain ⟨alone, runAlone, tracksAlone⟩ := exists_run (events.map (·.only wan))
  have same := servers_eq (tracksAlone wan) now
  rw [after_only, ← answers] at same
  refine ⟨answers, ?_, alone, runAlone, same⟩
  have distinct : ((latest (·.server) (Heard.after wan events).announcements).map
      (·.server)).Nodup := latest_nodup
  have kept := distinct.sublist
    ((List.filter_sublist (p := Announcement.live now)).map Announcement.server)
  have texts := kept.map (f := scopedText wan) fun _ _ => scopedText_injective
  rw [List.map_map] at texts
  rw [answers]
  exact texts

end Fwos.Ra
