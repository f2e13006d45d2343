import Fwos.Ra.Listener

/-!
# When Router Advertisements are sent

`Advertiser` advertises each LAN that has a routed /64 and answers Router Solicitations
(`ra.rs`). Reading a solicitation consumes it, whether or not the last advertisement is
long enough ago for an answer.

* `Link.answered`: a solicitation is followed by an advertisement as soon as one may be sent.
* `advertisements_limited_answers_exact`: advertisements keep their gap, and a solicitation
  that comes too early is answered only by the schedule, or by luck of another one.
-/

namespace Fwos.Ra

open Rust

def routerLifetime : Nat := 1800
def validLifetime : Nat := 3600
def preferredLifetime : Nat := 1800
def unsolicitedInterval : Instant := second * 30
def initialInterval : Instant := second
def initialAdvertisements : Nat := 3
def minSolicitedGap : Instant := second
def routerSolicit : UInt8 := 133

/-- The last bytes of a number, the highest first. -/
def toBeBytes : Nat → Nat → Bytes
  | 0, _ => []
  | width + 1, value => toBeBytes width (value / 256) ++ [UInt8.ofNat value]

structure Mac where
  bytes : Bytes
  length : bytes.length = 6
deriving DecidableEq, Repr

/-- One LAN link and the /64 prefixes routed onto it. -/
structure Lan where
  dev : String
  prefixes : List Ipv6Addr
  /-- Kea DHCPv6 serves addresses on this link. -/
  managed : Bool
deriving DecidableEq, Repr

/-- Without the ICMPv6 checksum, which the kernel fills. -/
def Advertiser.advertisement (prefixes : List Ipv6Addr) (managed : Bool) (mac : Option Mac)
    (withdraw : Bool) : Bytes :=
  let packet := [routerAdvert, 0, 0, 0, 64, if managed then 0x80 else 0] ++
    toBeBytes 2 (if withdraw then 0 else routerLifetime) ++ List.replicate 8 0
  let packet := match mac with
    | some mac => packet ++ [1, 1] ++ mac.bytes
    | none => packet
  let valid := if withdraw then 0 else validLifetime
  let preferred := if withdraw then 0 else preferredLifetime
  prefixes.foldl (fun packet network =>
    packet ++ [3, 4, 64, 0x80 ||| 0x40] ++ toBeBytes 4 valid ++ toBeBytes 4 preferred ++
      List.replicate 4 0 ++ toBeBytes 16 network.toNat) packet

/-- What is handed to `sendto` on the socket of a device. -/
structure Message where
  dev : String
  destination : Ipv6Addr
  scopeId : Nat
  packet : Bytes
deriving DecidableEq, Repr

/-- All nodes, ff02::1. -/
def allNodes : Ipv6Addr := 0xff020000000000000000000000000001

structure Link where
  lan : Lan
  ifindex : Nat
  mac : Option Mac
  initialLeft : Nat
  nextUnsolicited : Instant
  lastSent : Option Instant
deriving DecidableEq, Repr

/-- What the system answers when a link opens. -/
structure Opened where
  ifindex : Nat
  mac : Option Mac
  now : Instant
deriving DecidableEq, Repr

namespace Link

/-- `Link::open` once its socket is set up. -/
def opened (lan : Lan) (answer : Opened) : Link :=
  { lan
    ifindex := answer.ifindex
    mac := answer.mac
    initialLeft := initialAdvertisements
    nextUnsolicited := answer.now
    lastSent := none }

def send (link : Link) (now : Instant) (withdraw : Bool) : Link × Message :=
  let message : Message :=
    { dev := link.lan.dev
      destination := allNodes
      scopeId := link.ifindex
      packet := Advertiser.advertisement link.lan.prefixes link.lan.managed link.mac withdraw }
  let initialLeft := if link.initialLeft > 0 then link.initialLeft - 1 else link.initialLeft
  let interval := if initialLeft > 0 then initialInterval else unsolicitedInterval
  ({ link with lastSent := some now, initialLeft, nextUnsolicited := now + interval }, message)

/-- Reads what waits on the socket; whether a solicitation was among it. -/
def solicited (received : List Bytes) : Bool :=
  received.any fun packet => packet.head? == some routerSolicit

/-- At least the gap after the last advertisement. -/
def due (link : Link) (now : Instant) : Bool :=
  link.lastSent.all fun sent => now - sent ≥ minSolicitedGap

def sends (link : Link) (now : Instant) (received : List Bytes) : Bool :=
  (solicited received && link.due now) || now ≥ link.nextUnsolicited

/-- One turn of the loop of `poll`. -/
def poll (link : Link) (now : Instant) (received : List Bytes) : Link × Option Message :=
  if link.sends now received then
    let (link, message) := link.send now false
    (link, some message)
  else (link, none)

end Link

structure Advertiser where
  links : List Link := []
  /-- LANs whose socket failed; logged once until they open again. -/
  failed : List String := []
deriving DecidableEq, Repr

def Advertiser.poll (advertiser : Advertiser) (now : Instant) (received : String → List Bytes) :
    Advertiser × List Message :=
  let polled := advertiser.links.map fun link => link.poll now (received link.lan.dev)
  ({ advertiser with links := polled.map (·.1) }, polled.filterMap (·.2))

/-! ## Polls of one link -/

structure Poll where
  now : Instant
  received : List Bytes

namespace Link

def step (link : Link) (p : Poll) : Link := (link.poll p.now p.received).1

def after (link : Link) (polls : List Poll) : Link := polls.foldl step link

/-- The times at which advertisements are sent. -/
def advertised (link : Link) : List Poll → List Instant
  | [] => []
  | p :: polls =>
      (if (link.poll p.now p.received).2.isSome then [p.now] else []) ++
        (link.step p).advertised polls

/-- The first poll that is at least the gap after the last advertisement sends one. -/
def firstDueSends (link : Link) : List Poll → Bool
  | [] => true
  | p :: polls =>
      if link.due p.now then (link.poll p.now p.received).2.isSome
      else (link.step p).firstDueSends polls

/-- An advertisement follows this poll's solicitation, now or at the first later poll at
which one may be sent. -/
def answered (link : Link) (p : Poll) (later : List Poll) : Bool :=
  (link.poll p.now p.received).2.isSome || (link.step p).firstDueSends later

/-- The poll comes when an answer may be sent, or while the initial advertisements last; or
the first later poll a gap after the last advertisement reads a solicitation itself, or
comes when the schedule has one. -/
def Answerable (link : Link) (p : Poll) (later : List Poll) : Prop :=
  ∀ sent, link.lastSent = some sent → sent + minSolicitedGap ≤ p.now ∨ link.initialLeft > 0 ∨
    ∀ next, later.find? (fun p => sent + minSolicitedGap ≤ p.now) = some next →
      solicited next.received ∨ sent + unsolicitedInterval ≤ next.now

end Link

/-- What one poll of the advertiser reads on each device. -/
structure Round where
  now : Instant
  received : String → List Bytes

def Round.on (round : Round) (dev : String) : Poll := ⟨round.now, round.received dev⟩

def Advertiser.polls (advertiser : Advertiser) (rounds : List Round) : Advertiser :=
  rounds.foldl (fun advertiser round => (advertiser.poll round.now round.received).1) advertiser

namespace AdvertiserLemmas

open Link

theorem lan_step (link : Link) (p : Poll) : (link.step p).lan = link.lan := by
  unfold step Link.poll
  split <;> rfl

theorem lan_after (link : Link) (polls : List Poll) : (link.after polls).lan = link.lan := by
  induction polls generalizing link with
  | nil => rfl
  | cons p polls ih => exact (ih (link.step p)).trans (lan_step link p)

/-- Each link of the advertiser goes its own way. -/
theorem polls_eq (advertiser : Advertiser) (rounds : List Round) :
    advertiser.polls rounds = { advertiser with
      links := advertiser.links.map fun link => link.after (rounds.map (·.on link.lan.dev)) } := by
  induction rounds generalizing advertiser with
  | nil =>
      have same : advertiser.links.map (fun link => link.after []) = advertiser.links :=
        List.map_id _
      show advertiser = { advertiser with links := advertiser.links.map fun link => link.after [] }
      rw [same]
  | cons round rounds ih =>
      have first : (advertiser.poll round.now round.received).1 = { advertiser with
          links := advertiser.links.map fun link => link.step (round.on link.lan.dev) } := by
        rw [Advertiser.poll, List.map_map]
        rfl
      rw [Advertiser.polls, List.foldl_cons, ← Advertiser.polls, ih, first, List.map_map]
      congr 1
      refine List.map_congr_left fun link _ => ?_
      rw [Function.comp_apply, lan_step]
      rfl

/-- The next advertisement of the schedule follows the last one. -/
def Scheduled (link : Link) : Prop :=
  ∀ sent, link.lastSent = some sent → link.nextUnsolicited =
    sent + if link.initialLeft > 0 then initialInterval else unsolicitedInterval

theorem scheduled_opened (lan : Lan) (answer : Opened) : Scheduled (opened lan answer) := by
  intro sent h
  cases h

theorem scheduled_send (link : Link) (now : Instant) (withdraw : Bool) :
    Scheduled (link.send now withdraw).1 := by
  intro sent h
  obtain rfl : now = sent := Option.some.inj h
  rfl

theorem poll_message {link : Link} {p : Poll} :
    (link.poll p.now p.received).2.isSome = link.sends p.now p.received := by
  unfold Link.poll
  split
  next h => rw [h]; rfl
  next h => rw [Bool.eq_false_iff.mpr h]; rfl

theorem step_of_sends {link : Link} {p : Poll} (h : link.sends p.now p.received = true) :
    link.step p = (link.send p.now false).1 := by
  rw [step, Link.poll, if_pos h]

theorem step_of_not_sends {link : Link} {p : Poll} (h : link.sends p.now p.received = false) :
    link.step p = link := by
  rw [step, Link.poll, if_neg (by rw [h]; exact Bool.false_ne_true)]

theorem scheduled_step {link : Link} (h : Scheduled link) (p : Poll) : Scheduled (link.step p) := by
  cases sends : link.sends p.now p.received with
  | true => rw [step_of_sends sends]; exact scheduled_send link p.now false
  | false => rw [step_of_not_sends sends]; exact h

theorem scheduled_after {link : Link} (h : Scheduled link) (polls : List Poll) :
    Scheduled (link.after polls) := by
  induction polls generalizing link with
  | nil => exact h
  | cons p polls ih => exact ih (scheduled_step h p)

theorem le_sub_iff_add_le {gap now sent : Nat} (positive : 0 < gap) :
    gap ≤ now - sent ↔ sent + gap ≤ now := by
  omega

theorem minSolicitedGap_pos : 0 < minSolicitedGap := by decide

theorem due_iff {link : Link} {now sent : Instant} (last : link.lastSent = some sent) :
    link.due now = true ↔ sent + minSolicitedGap ≤ now := by
  rw [due, last, Option.all_some, decide_eq_true_eq]
  exact le_sub_iff_add_le minSolicitedGap_pos

theorem gap_le_interval (left : Nat) :
    minSolicitedGap ≤ if left > 0 then initialInterval else unsolicitedInterval := by
  split
  · exact Nat.le_refl second
  · exact Nat.le_mul_of_pos_right second (by decide)

/-- The schedule is never earlier than the gap. -/
theorem due_of_sends {link : Link} (h : Scheduled link) {now : Instant} {received : List Bytes}
    (sends : link.sends now received = true) : link.due now = true := by
  rw [Link.sends, Bool.or_eq_true, Bool.and_eq_true, decide_eq_true_eq] at sends
  rcases sends with ⟨-, due⟩ | scheduled
  · exact due
  · cases last : link.lastSent with
    | none => rw [due, last]; rfl
    | some sent =>
        rw [h sent last] at scheduled
        rw [due_iff last]
        exact (Nat.add_le_add_left (gap_le_interval link.initialLeft) sent).trans scheduled

/-! ## The gap -/

theorem gap_of_mem_advertised {link : Link} (h : Scheduled link) {sent : Instant}
    (last : link.lastSent = some sent) {polls : List Poll} {time : Instant}
    (mem : time ∈ link.advertised polls) : sent + minSolicitedGap ≤ time := by
  induction polls generalizing link sent with
  | nil => cases mem
  | cons p polls ih =>
      rw [advertised, poll_message] at mem
      cases sends : link.sends p.now p.received with
      | true =>
          have now := (due_iff last).mp (due_of_sends h sends)
          rw [sends, step_of_sends sends] at mem
          rcases List.mem_append.mp mem with first | later
          · obtain rfl := List.mem_singleton.mp first
            exact now
          · have gap := ih (scheduled_send link p.now false) rfl later
            exact now.trans ((Nat.le_add_right _ _).trans gap)
      | false =>
          rw [sends, step_of_not_sends sends] at mem
          exact ih h last mem

theorem advertised_gap {link : Link} (h : Scheduled link) (polls : List Poll) :
    (link.advertised polls).Pairwise fun earlier later => earlier + minSolicitedGap ≤ later := by
  induction polls generalizing link with
  | nil => exact List.Pairwise.nil
  | cons p polls ih =>
      rw [advertised, poll_message]
      cases sends : link.sends p.now p.received with
      | true =>
          rw [step_of_sends sends]
          have next := scheduled_send link p.now false
          exact List.pairwise_cons.mpr ⟨fun time mem => gap_of_mem_advertised next rfl mem, ih next⟩
      | false =>
          rw [step_of_not_sends sends]
          exact ih h

/-! ## Answers -/

/-- Until the gap has passed nothing changes, so that the first poll after it decides. -/
theorem firstDueSends_iff {link : Link} (h : Scheduled link) {sent : Instant}
    (last : link.lastSent = some sent) (polls : List Poll) :
    link.firstDueSends polls = true ↔
      ∀ next, polls.find? (fun p => sent + minSolicitedGap ≤ p.now) = some next →
        link.sends next.now next.received := by
  induction polls with
  | nil => exact iff_of_true rfl fun _ found => by cases found
  | cons p polls ih =>
      rw [firstDueSends, poll_message]
      cases due : link.due p.now with
      | true =>
          have first : (p :: polls).find? (fun p => sent + minSolicitedGap ≤ p.now) = some p :=
            List.find?_cons_of_pos (decide_eq_true ((due_iff last).mp due))
          rw [if_pos rfl, first]
          constructor
          · intro sends next found
            obtain rfl : p = next := Option.some.inj found
            exact sends
          · intro sends
            exact sends p rfl
      | false =>
          have early : ¬sent + minSolicitedGap ≤ p.now := fun late => by
            rw [(due_iff last).mpr late] at due
            exact Bool.noConfusion due
          have waits : link.sends p.now p.received = false := by
            refine Bool.eq_false_iff.mpr fun sends => ?_
            rw [due_of_sends h sends] at due
            exact Bool.noConfusion due
          have rest : (p :: polls).find? (fun p => sent + minSolicitedGap ≤ p.now) =
              polls.find? fun p => sent + minSolicitedGap ≤ p.now :=
            List.find?_cons_of_neg fun late => early (of_decide_eq_true late)
          rw [if_neg Bool.false_ne_true, rest, step_of_not_sends waits]
          exact ih

theorem gap_of_find? {sent : Instant} {polls : List Poll} {next : Poll}
    (found : polls.find? (fun p => sent + minSolicitedGap ≤ p.now) = some next) :
    sent + minSolicitedGap ≤ next.now := by
  have passed := List.find?_some found
  exact of_decide_eq_true passed

/-- Once the gap has passed, a scheduled link sends if its schedule or a solicitation says so. -/
theorem sends_iff {link : Link} (h : Scheduled link) {sent : Instant}
    (last : link.lastSent = some sent) {p : Poll} (late : sent + minSolicitedGap ≤ p.now) :
    link.sends p.now p.received = true ↔
      link.initialLeft > 0 ∨ solicited p.received = true ∨ sent + unsolicitedInterval ≤ p.now := by
  have next := h sent last
  rw [Link.sends, (due_iff last).mpr late, Bool.and_true, Bool.or_eq_true, decide_eq_true_eq, next]
  by_cases initial : link.initialLeft > 0
  · rw [if_pos initial]
    exact iff_of_true (.inr late) (.inl initial)
  · rw [if_neg initial, or_iff_right initial]

theorem answered_iff {link : Link} (h : Scheduled link) {p : Poll}
    (read : solicited p.received = true) (later : List Poll) :
    link.answered p later = true ↔ link.Answerable p later := by
  unfold answered Answerable
  rw [poll_message, Bool.or_eq_true]
  cases last : link.lastSent with
  | none =>
      have due : link.due p.now = true := by rw [due, last]; rfl
      have sends : link.sends p.now p.received = true := by
        rw [Link.sends, read, due]
        rfl
      exact iff_of_true (.inl sends) fun _ same => by cases same
  | some sent =>
      by_cases late : sent + minSolicitedGap ≤ p.now
      · have sends := (sends_iff h last late).mpr (.inr (.inl read))
        refine iff_of_true (.inl sends) fun sent' same => ?_
        obtain rfl := Option.some.inj same
        exact .inl late
      · have waits : link.sends p.now p.received = false := by
          refine Bool.eq_false_iff.mpr fun sends => late ?_
          exact (due_iff last).mp (due_of_sends h sends)
        rw [waits, or_iff_right Bool.false_ne_true, step_of_not_sends waits,
          firstDueSends_iff h last]
        constructor
        · intro sends sent' same
          obtain rfl := Option.some.inj same
          refine .inr ?_
          by_cases initial : link.initialLeft > 0
          · exact .inl initial
          · refine .inr fun next found => ?_
            exact ((sends_iff h last (gap_of_find? found)).mp (sends next found)).resolve_left initial
        · intro answerable next found
          rw [sends_iff h last (gap_of_find? found)]
          rcases answerable sent rfl with now | initial | answers
          · exact absurd now late
          · exact .inl initial
          · exact .inr (answers next found)

end AdvertiserLemmas

open AdvertiserLemmas

/-- In every sequence of polls of an open link two advertisements are at least the gap apart.
A solicitation is answered exactly if the gap had passed when it was read, if an initial
advertisement was still to come, or if the first poll after the gap sends for another
reason. -/
theorem advertisements_limited_answers_exact (lan : Lan) (answer : Opened) (polls : List Poll) :
    ((Link.opened lan answer).advertised polls).Pairwise
      (fun earlier later => earlier + minSolicitedGap ≤ later) ∧
    ∀ before p later, polls = before ++ p :: later → Link.solicited p.received = true →
      (((Link.opened lan answer).after before).answered p later = true ↔
        ((Link.opened lan answer).after before).Answerable p later) := by
  have start := scheduled_opened lan answer
  refine ⟨advertised_gap start polls, fun before p later _ read => ?_⟩
  exact answered_iff (scheduled_after start before) read later

/-- Three seconds of initial advertisements, and a solicitation right after the last. -/
def earlySolicitation : List Poll :=
  [⟨0, []⟩, ⟨second, []⟩, ⟨second * 2, []⟩, ⟨second * 2 + 1, [[133, 0, 0, 0]]⟩, ⟨second * 4, []⟩]

def routedLan : Lan := ⟨"eth1", [0x20010db8000100000000000000000000], false⟩

/-- A solicitation two seconds after the last advertisement is answered. -/
theorem late_solicitation_answerable :
    ((Link.opened routedLan ⟨2, none, 0⟩).after (earlySolicitation.take 3)).Answerable
      ⟨second * 4, [[133, 0, 0, 0]]⟩ [] :=
  ((advertisements_limited_answers_exact routedLan ⟨2, none, 0⟩
    (earlySolicitation.take 3 ++ [⟨second * 4, [[133, 0, 0, 0]]⟩])).2 (earlySolicitation.take 3)
      ⟨second * 4, [[133, 0, 0, 0]]⟩ [] rfl rfl).mp (by decide)

/-- It is read and never answered. -/
theorem early_solicitation_lost :
    earlySolicitation = earlySolicitation.take 3 ++ ⟨second * 2 + 1, [[133, 0, 0, 0]]⟩ ::
      earlySolicitation.drop 4 ∧
    Link.solicited [[133, 0, 0, 0]] = true ∧
    ((Link.opened routedLan ⟨2, none, 0⟩).after (earlySolicitation.take 3)).answered
      ⟨second * 2 + 1, [[133, 0, 0, 0]]⟩ (earlySolicitation.drop 4) = false ∧
    (Link.opened routedLan ⟨2, none, 0⟩).advertised earlySolicitation = [0, second, second * 2] := by
  refine ⟨rfl, rfl, ?_, ?_⟩
  · decide
  · decide

end Fwos.Ra
