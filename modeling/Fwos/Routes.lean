import Fwos.Revalidate
import Fwos.Rust.Ipv6Text

/-!
# Static routes

netd installs the routes of the new network and then removes those of the old one
whose destination text the new one does not list. The kernel keeps its routes by
the destination itself.

* `program_routes_eq`, `remove_stale_routes_eq`: what the two leave of a table.
* `routes_converge_iff`: the pairs of accepted networks between which the table
  always comes to hold exactly the routes of the network it is programmed for.
-/

namespace Fwos

open Rust

/-! ## The kernel's table -/

structure NextHop where
  via : IpAddr
  dev : String
deriving DecidableEq, Repr

abbrev Destination := IpAddr × Nat

/-- The static routes of the kernel. -/
abbrev RouteTable := Destination → Option NextHop

/-- The arguments of an `ip route` command, with its family flag. -/
structure RouteArgs where
  v6 : Bool
  dest : String
  via : String
  dev : Option String
deriving DecidableEq, Repr

inductive IpError where
  | noSuchProcess
  | failed (error : String)
deriving DecidableEq, Repr

/-- The destination and the next hop, both of the family of the command. -/
def RouteArgs.parse (args : RouteArgs) : Except IpError (Destination × IpAddr) := do
  let (destination, bits) ← okOr (BootstrapValues.cidr args.dest) (.failed "invalid prefix")
  let via ← okOr (parseIp args.via) (.failed "invalid address")
  ensure (destination.isIpv4 == !args.v6 && via.isIpv4 == !args.v6) (.failed "wrong family")
  return ((destination, bits), via)

/-- `ip route replace`; without a device the kernel picks the one of the next hop. -/
def routeReplace (device : IpAddr → String) (args : RouteArgs) (table : RouteTable) :
    Except IpError RouteTable := do
  let (destination, via) ← args.parse
  return Function.update table destination (some ⟨via, args.dev.getD (device via)⟩)

/-- `ip route del` of the route with that next hop, and that device if one is given. -/
def routeDel (args : RouteArgs) (table : RouteTable) : Except IpError RouteTable := do
  let (destination, via) ← args.parse
  match table destination with
  | some hop =>
      if hop.via == via && args.dev.all (· == hop.dev) then
        return Function.update table destination none
      else throw .noSuchProcess
  | none => throw .noSuchProcess

/-! ## What netd runs -/

def routeArgs (route : StaticRoute) : RouteArgs := {
  v6 := containsChar route.dest ':', dest := route.dest, via := route.via, dev := route.dev }

namespace RouteTable

def programRoutes (device : IpAddr → String) (routes : List StaticRoute) (table : RouteTable) :
    Except IpError RouteTable :=
  routes.foldlM (fun table route => routeReplace device (routeArgs route) table) table

/-- A failed apply may stop before a later proposed route was installed. -/
def removeStaleRoute (proposed : List StaticRoute) (table : RouteTable) (old : StaticRoute) :
    Except IpError RouteTable :=
  if proposed.any (·.dest == old.dest) then .ok table
  else match routeDel (routeArgs old) table with
    | .error .noSuchProcess => .ok table
    | other => other

def removeStaleRoutes (previous proposed : List StaticRoute) (table : RouteTable) :
    Except IpError RouteTable :=
  previous.foldlM (removeStaleRoute proposed) table

end RouteTable

/-! ## Convergence -/

/-- The route that a table entry was installed for. -/
structure StaticRoute.Installed (route : StaticRoute) (destination : Destination) (hop : NextHop) :
    Prop where
  dest : BootstrapValues.cidr route.dest = some destination
  via : parseIp route.via = some hop.via
  dev : ∀ dev, route.dev = some dev → hop.dev = dev

/-- The table holds these routes and no other. -/
structure Exactly (routes : List StaticRoute) (table : RouteTable) : Prop where
  only : ∀ destination hop, table destination = some hop →
    ∃ route ∈ routes, route.Installed destination hop
  all : ∀ route ∈ routes, ∃ destination hop,
    table destination = some hop ∧ route.Installed destination hop

/-- Programming the new network leaves its routes, and so does programming the old
one again after a part of the new one. -/
structure RoutesConverge (device : IpAddr → String) (old new : List StaticRoute) : Prop where
  forward : ∀ table, Exactly old table → ∃ table', Exactly new table' ∧
    (RouteTable.programRoutes device new table >>=
      RouteTable.removeStaleRoutes old new) = .ok table'
  back : ∀ table count, Exactly old table → ∃ table', Exactly old table' ∧
    (RouteTable.programRoutes device (new.take count) table >>=
      RouteTable.programRoutes device old >>= RouteTable.removeStaleRoutes new old) = .ok table'

/-- The next hop under which a route is installed. -/
def installedHop (device : IpAddr → String) (route : StaticRoute) : Option NextHop :=
  (parseIp route.via).map fun via => ⟨via, route.dev.getD (device via)⟩

/-- One destination in two spellings, by the same next hop and device. -/
def respelled (device : IpAddr → String) (old new : StaticRoute) : Bool :=
  old.dest != new.dest && BootstrapValues.cidr old.dest == BootstrapValues.cidr new.dest &&
    (installedHop device new).any fun hop =>
      parseIp old.via == some hop.via && old.dev.all (· == hop.dev)

def respells (device : IpAddr → String) (old new : List StaticRoute) : Bool :=
  old.any fun a => new.any fun b => respelled device a b || respelled device b a

namespace RouteLemmas

/-! ## Accepted routes -/

/-- The destination and the next hop of a route, of one family. -/
structure Parsed (route : StaticRoute) (destination : Destination) (via : IpAddr) : Prop where
  destEq : BootstrapValues.cidr route.dest = some destination
  viaEq : parseIp route.via = some via
  family : destination.1.isIpv4 = via.isIpv4

/-- Routes with distinct destinations. -/
structure WellFormed (routes : List StaticRoute) : Prop where
  parsed : ∀ route ∈ routes, ∃ destination via, Parsed route destination via
  distinct : (routes.map fun route => BootstrapValues.cidr route.dest).Nodup

theorem routeDestination_eq_ok {seen : List Destination} {dest : String} {destination : Destination}
    (h : routeDestination seen dest = .ok destination) :
    BootstrapValues.cidr dest = some destination ∧ destination ∉ seen := by
  simp only [routeDestination, bind_eq_ok, okOr_eq_ok, ensure_eq_ok, pure_eq_ok, Prod.exists,
    Bool.and_eq_true, Bool.not_eq_true', List.contains_eq_mem, decide_eq_false_iff_not] at h
  obtain ⟨address, bits, hs, ip, hip, len, hlen, -, hle, -, hseen, rfl⟩ := h
  refine ⟨?_, hseen.2⟩
  have hle' : ¬ len > if ip.isIpv4 = true then 32 else 128 := by simpa using hle
  simp [BootstrapValues.cidr, hs, hip, hlen, hle']

theorem wellFormed_of_fold {state : DesiredState} {routes : List StaticRoute}
    {seen seen' : List Destination} (h : routes.foldlM (validateRoute state) seen = .ok seen') :
    WellFormed routes ∧ ∀ route ∈ routes, ∀ destination ∈ seen,
      BootstrapValues.cidr route.dest ≠ some destination := by
  induction routes generalizing seen with
  | nil => exact ⟨⟨by simp, List.nodup_nil⟩, by simp⟩
  | cons route routes ih =>
    rw [List.foldlM_cons, bind_eq_ok] at h
    obtain ⟨mid, hmid, h⟩ := h
    obtain ⟨hwf, hnot⟩ := ih h
    simp only [validateRoute, bind_eq_ok, okOr_eq_ok, ensure_eq_ok, pure_eq_ok, Bool.and_eq_true,
      beq_iff_eq] at hmid
    obtain ⟨⟨destination, bits⟩, hdest, via, hvia, -, ⟨⟨hfamily, -⟩, -⟩, hmid⟩ := hmid
    obtain ⟨hcidr, hseen⟩ := routeDestination_eq_ok hdest
    obtain rfl : (destination, bits) :: seen = mid := by
      obtain ⟨-, -, -, -, -, -, -, -, hmid⟩ := hmid
      exact hmid
    refine ⟨⟨?_, ?_⟩, ?_⟩
    · simp only [List.mem_cons, forall_eq_or_imp]
      exact ⟨⟨_, _, hcidr, hvia, hfamily⟩, hwf.parsed⟩
    · refine List.nodup_cons.mpr ⟨fun hm => ?_, hwf.distinct⟩
      obtain ⟨other, ho, heq⟩ := List.mem_map.mp hm
      exact hnot other ho _ List.mem_cons_self (heq.trans hcidr)
    · simp only [List.mem_cons, forall_eq_or_imp]
      refine ⟨fun d hd heq => ?_, fun other ho d hd => hnot other ho d (List.mem_cons_of_mem _ hd)⟩
      rw [hcidr, Option.some.injEq] at heq
      exact hseen (heq ▸ hd)

theorem wellFormed_of_accepts [Base64] {state : DesiredState} (ha : Accepts state) :
    WellFormed state.routes := by
  have := ha.routes
  simp only [validateRoutes, bind_eq_ok] at this
  obtain ⟨seen, h, -⟩ := this
  exact (wellFormed_of_fold h).1

/-- One destination, one route. -/
theorem WellFormed.eq_of_destination {routes : List StaticRoute} (h : WellFormed routes)
    {a b : StaticRoute} (ha : a ∈ routes) (hb : b ∈ routes)
    (heq : BootstrapValues.cidr a.dest = BootstrapValues.cidr b.dest) : a = b :=
  List.inj_on_of_nodup_map h.distinct ha hb heq

theorem WellFormed.sublist {routes part : List StaticRoute} (h : WellFormed routes)
    (hs : part.Sublist routes) : WellFormed part :=
  ⟨fun route hr => h.parsed route (hs.subset hr), h.distinct.sublist (hs.map _)⟩

/-! ## One command -/

variable {device : IpAddr → String} {route : StaticRoute} {destination : Destination}
  {via : IpAddr} {table table' : RouteTable} {hop : NextHop}

theorem parse_routeArgs (h : Parsed route destination via) :
    (routeArgs route).parse = .ok (destination, via) := by
  have hcidr := h.destEq
  simp only [BootstrapValues.cidr, Option.bind_eq_bind, Option.bind_eq_some_iff, Prod.exists,
    Option.ite_none_left_eq_some, Option.some.injEq] at hcidr
  obtain ⟨front, rest, hs, ip, hip, len, hlen, -, rfl⟩ := hcidr
  obtain ⟨htext, -⟩ := splitOnce_eq_some.mp hs
  have hcolon : containsChar route.dest ':' = !ip.isIpv4 := by
    have hrest : ':' ∉ rest.toList := not_mem_of_parseUnsigned hlen (by decide) (by decide)
    rw [containsChar, htext, Bool.eq_iff_iff]
    simp [hrest, colon_mem_iff hip]
  have hfamily : ip.isIpv4 = via.isIpv4 := h.family
  simp [RouteArgs.parse, routeArgs, h.destEq, h.viaEq, hcolon, hfamily, okOr, ensure, bind,
    Except.bind, pure, Except.pure]

theorem routeReplace_eq (h : Parsed route destination via) :
    routeReplace device (routeArgs route) table =
      .ok (Function.update table destination (installedHop device route)) := by
  rw [routeReplace, parse_routeArgs h, installedHop, h.viaEq]
  rfl

theorem routeDel_none (h : Parsed route destination via) (hd : table destination = none) :
    routeDel (routeArgs route) table = .error .noSuchProcess := by
  rw [routeDel, parse_routeArgs h]
  simp [bind, Except.bind, hd, throw, throwThe, MonadExceptOf.throw]

theorem routeDel_some (h : Parsed route destination via) (hd : table destination = some hop) :
    routeDel (routeArgs route) table =
      if hop.via == via && route.dev.all (· == hop.dev) then
        .ok (Function.update table destination none)
      else .error .noSuchProcess := by
  rw [routeDel, parse_routeArgs h]
  simp only [bind, Except.bind, hd]
  rfl

/-- Removing a stale route leaves every entry that was not installed for it. -/
theorem removeStaleRoute_spec {proposed : List StaticRoute} (h : Parsed route destination via)
    (table : RouteTable) :
    ∃ table', RouteTable.removeStaleRoute proposed table route = .ok table' ∧
      ∀ d hop, table' d = some hop ↔ table d = some hop ∧
        ((∀ new ∈ proposed, new.dest ≠ route.dest) → ¬route.Installed d hop) := by
  have hinstalled : ∀ d hop, route.Installed d hop →
      d = destination ∧ hop.via = via ∧ route.dev.all (· == hop.dev) = true := by
    intro d hop hi
    refine ⟨Option.some.inj (hi.dest.symm.trans h.destEq),
      Option.some.inj (hi.via.symm.trans h.viaEq), ?_⟩
    cases hdev : route.dev with
    | none => rfl
    | some dev => simp [hi.dev dev hdev]
  unfold RouteTable.removeStaleRoute
  split
  next hlisted =>
    refine ⟨table, rfl, fun d hop => ⟨fun hd => ⟨hd, fun hstale => ?_⟩, And.left⟩⟩
    obtain ⟨new, hn, heq⟩ := List.any_eq_true.mp hlisted
    exact absurd (beq_iff_eq.mp heq) (hstale new hn)
  next hstale =>
    have hstale' : ∀ new ∈ proposed, new.dest ≠ route.dest := by simpa using hstale
    cases hd : table destination with
    | none =>
      rw [routeDel_none h hd]
      refine ⟨table, rfl, fun d hop => ⟨fun ht => ⟨ht, fun _ hi => ?_⟩, And.left⟩⟩
      rw [(hinstalled d hop hi).1, hd] at ht
      cases ht
    | some current =>
      rw [routeDel_some h hd]
      by_cases hmatch : (current.via == via && route.dev.all (· == current.dev)) = true
      · rw [if_pos hmatch]
        simp only [Bool.and_eq_true, beq_iff_eq] at hmatch
        refine ⟨_, rfl, fun d hop => ?_⟩
        by_cases hdest : d = destination
        · subst hdest
          rw [Function.update_self]
          refine ⟨nofun, fun ⟨ht, hn⟩ => absurd ?_ (hn hstale')⟩
          obtain rfl := Option.some.inj (hd.symm.trans ht)
          refine ⟨h.destEq, hmatch.1 ▸ h.viaEq, fun dev hdev => ?_⟩
          have hall := hmatch.2
          rw [hdev] at hall
          exact (beq_iff_eq.mp hall).symm
        · rw [Function.update_of_ne hdest]
          exact ⟨fun ht => ⟨ht, fun _ hi => hdest (hinstalled d hop hi).1⟩, And.left⟩
      · rw [if_neg hmatch]
        refine ⟨table, rfl, fun d hop => ⟨fun ht => ⟨ht, fun _ hi => hmatch ?_⟩, And.left⟩⟩
        obtain ⟨rfl, hvia, hdev⟩ := hinstalled d hop hi
        obtain rfl := Option.some.inj (hd.symm.trans ht)
        simp [hvia, hdev]

/-! ## Whole lists -/

/-- Each route gets its entry, and the other entries stay. -/
theorem program_routes_eq {routes : List StaticRoute} (hw : WellFormed routes)
    (device : IpAddr → String) (table : RouteTable) :
    ∃ table', RouteTable.programRoutes device routes table = .ok table' ∧
      (∀ route ∈ routes, ∀ d, BootstrapValues.cidr route.dest = some d →
        table' d = installedHop device route) ∧
      ∀ d, (∀ route ∈ routes, BootstrapValues.cidr route.dest ≠ some d) → table' d = table d := by
  induction routes generalizing table with
  | nil => exact ⟨table, rfl, by simp, fun _ _ => rfl⟩
  | cons route routes ih =>
    obtain ⟨destination, via, hp⟩ := hw.parsed route List.mem_cons_self
    obtain ⟨table', hrun, hin, hout⟩ := ih (hw.sublist (List.sublist_cons_self _ _))
      (Function.update table destination (installedHop device route))
    have hhead : ∀ other ∈ routes, BootstrapValues.cidr other.dest ≠ some destination := by
      intro other ho heq
      refine (List.nodup_cons.mp hw.distinct).1 (List.mem_map.mpr ⟨other, ho, ?_⟩)
      exact heq.trans hp.destEq.symm
    refine ⟨table', ?_, ?_, ?_⟩
    · rw [RouteTable.programRoutes, List.foldlM_cons, routeReplace_eq hp]
      exact hrun
    · simp only [List.mem_cons, forall_eq_or_imp]
      refine ⟨fun d hd => ?_, hin⟩
      obtain rfl := Option.some.inj (hp.destEq.symm.trans hd)
      rw [hout _ hhead, Function.update_self]
    · simp only [List.mem_cons, forall_eq_or_imp]
      intro d hd
      have hne : d ≠ destination := fun heq => hd.1 (heq ▸ hp.destEq)
      rw [hout d hd.2, Function.update_of_ne hne]

/-- The entries that are left are those that were installed for no stale route. -/
theorem remove_stale_routes_eq {previous : List StaticRoute} (hw : WellFormed previous)
    (proposed : List StaticRoute) (table : RouteTable) :
    ∃ table', RouteTable.removeStaleRoutes previous proposed table = .ok table' ∧
      ∀ d hop, table' d = some hop ↔ table d = some hop ∧ ∀ old ∈ previous,
        (∀ new ∈ proposed, new.dest ≠ old.dest) → ¬old.Installed d hop := by
  induction previous generalizing table with
  | nil => exact ⟨table, rfl, by simp⟩
  | cons old previous ih =>
    obtain ⟨destination, via, hp⟩ := hw.parsed old List.mem_cons_self
    obtain ⟨mid, hmid, hhead⟩ := @removeStaleRoute_spec _ _ _ proposed hp table
    obtain ⟨table', hrun, htail⟩ := ih (hw.sublist (List.sublist_cons_self _ _)) mid
    refine ⟨table', ?_, fun d hop => ?_⟩
    · rw [RouteTable.removeStaleRoutes, List.foldlM_cons, hmid]
      exact hrun
    · rw [htail, hhead, List.forall_mem_cons, and_assoc]

/-! ## Entries and spellings -/

theorem installedHop_installed (hw : Parsed route destination via) {d : Destination}
    (hd : BootstrapValues.cidr route.dest = some d) :
    ∃ hop, installedHop device route = some hop ∧ route.Installed d hop := by
  refine ⟨⟨via, route.dev.getD (device via)⟩, by rw [installedHop, hw.viaEq]; rfl, hd, hw.viaEq, ?_⟩
  intro dev hdev
  simp [hdev]

theorem respelled_iff {old new : StaticRoute} {d : Destination} {hop : NextHop}
    (hd : BootstrapValues.cidr new.dest = some d) (hh : installedHop device new = some hop) :
    respelled device old new = true ↔ old.dest ≠ new.dest ∧ old.Installed d hop := by
  have hdev : old.dev.all (· == hop.dev) = true ↔ ∀ dev, old.dev = some dev → hop.dev = dev := by
    cases old.dev with
    | none => simp
    | some dev =>
      simp only [Option.all_some, beq_iff_eq, Option.some.injEq, forall_eq']
      exact eq_comm
  simp only [respelled, hd, hh, Option.any_some, Bool.and_eq_true, bne_iff_ne, beq_iff_eq, hdev]
  exact ⟨fun ⟨⟨h1, h2⟩, h3, h4⟩ => ⟨h1, h2, h3, h4⟩,
    fun ⟨h1, h2⟩ => ⟨⟨h1, h2.dest⟩, h2.via, h2.dev⟩⟩

theorem not_respells {old new : List StaticRoute} (h : respells device old new = false) :
    ∀ a ∈ old, ∀ b ∈ new, respelled device a b = false ∧ respelled device b a = false := by
  simpa [respells] using h

/-- Removing the stale routes of `previous` leaves the routes just programmed, and
entries installed for neither are those that were there before. -/
theorem exactly_after {previous proposed : List StaticRoute} {before after : RouteTable}
    (hwf : WellFormed proposed)
    (hin : ∀ route ∈ proposed, ∀ d, BootstrapValues.cidr route.dest = some d →
      before d = installedHop device route)
    (hafter : ∀ d hop, after d = some hop ↔ before d = some hop ∧ ∀ old ∈ previous,
      (∀ new ∈ proposed, new.dest ≠ old.dest) → ¬old.Installed d hop)
    (hrest : ∀ d hop, before d = some hop →
      (∀ route ∈ proposed, BootstrapValues.cidr route.dest ≠ some d) →
      ∃ old ∈ previous, old.Installed d hop)
    (hspell : ∀ old ∈ previous, ∀ new ∈ proposed, respelled device old new = false) :
    Exactly proposed after := by
  refine ⟨fun d hop hd => ?_, fun route hr => ?_⟩
  · obtain ⟨hbefore, hnot⟩ := (hafter d hop).mp hd
    by_cases hlisted : ∃ route ∈ proposed, BootstrapValues.cidr route.dest = some d
    · obtain ⟨route, hr, hdest⟩ := hlisted
      obtain ⟨destination, via, hp⟩ := hwf.parsed route hr
      obtain ⟨hop', hhop, hi⟩ := @installedHop_installed device _ _ _ hp d hdest
      rw [hin route hr d hdest, hhop, Option.some.injEq] at hbefore
      exact ⟨route, hr, hbefore ▸ hi⟩
    · have hlisted' : ∀ route ∈ proposed, BootstrapValues.cidr route.dest ≠ some d :=
        fun route hr hdest => hlisted ⟨route, hr, hdest⟩
      obtain ⟨old, ho, hi⟩ := hrest d hop hbefore hlisted'
      exact absurd hi (hnot old ho fun new hn heq => hlisted' new hn (heq ▸ hi.dest))
  · obtain ⟨destination, via, hp⟩ := hwf.parsed route hr
    obtain ⟨hop, hhop, hi⟩ := @installedHop_installed device _ _ _ hp _ hp.destEq
    refine ⟨destination, hop, (hafter _ _).mpr ⟨?_, fun old ho hstale hold => ?_⟩, hi⟩
    · rw [hin route hr _ hp.destEq, hhop]
    · have hrespelled := (respelled_iff hp.destEq hhop).mpr ⟨(hstale route hr).symm, hold⟩
      rw [hspell old ho route hr] at hrespelled
      cases hrespelled

/-- A table of exactly these routes. -/
theorem exists_exactly {routes : List StaticRoute} (hw : WellFormed routes) :
    ∃ table, Exactly routes table := by
  obtain ⟨table, -, hin, hout⟩ := program_routes_eq hw (fun _ => "") fun _ => none
  refine ⟨table, @exactly_after (fun _ => "") [] routes table table hw hin ?_ ?_ ?_⟩
  · simp
  · intro d hop hd hnot
    rw [hout d hnot] at hd
    cases hd
  · simp

/-- A respelled route of the new network is removed after it was installed. -/
theorem removed_of_respelled {previous proposed : List StaticRoute} {before after : RouteTable}
    (hwf : WellFormed proposed)
    (hin : ∀ route ∈ proposed, ∀ d, BootstrapValues.cidr route.dest = some d →
      before d = installedHop device route)
    (hafter : ∀ d hop, after d = some hop ↔ before d = some hop ∧ ∀ old ∈ previous,
      (∀ new ∈ proposed, new.dest ≠ old.dest) → ¬old.Installed d hop)
    {old new : StaticRoute} (ho : old ∈ previous) (hn : new ∈ proposed)
    (hs : respelled device old new = true) : ¬Exactly proposed after := by
  intro hexact
  obtain ⟨destination, via, hp⟩ := hwf.parsed new hn
  obtain ⟨hop, hhop, -⟩ := @installedHop_installed device _ _ _ hp _ hp.destEq
  obtain ⟨hne, hi⟩ := (respelled_iff hp.destEq hhop).mp hs
  obtain ⟨d, hop', hd, hi'⟩ := hexact.all new hn
  obtain rfl := Option.some.inj (hp.destEq.symm.trans hi'.dest)
  obtain ⟨hbefore, hnot⟩ := (hafter _ _).mp hd
  rw [hin new hn _ hp.destEq, hhop, Option.some.injEq] at hbefore
  refine hnot old ho (fun other hother heq => ?_) (hbefore ▸ hi)
  -- Another route with the old spelling would have the same destination.
  have hsame := hwf.eq_of_destination hother hn (by rw [heq, hi.dest, hp.destEq])
  exact hne (heq ▸ hsame ▸ rfl)

end RouteLemmas

open RouteLemmas

/-- The routes of two accepted networks converge, in both directions, exactly if no
destination is spelled in two ways with the same next hop and device. -/
theorem routes_converge_iff [Base64] (device : IpAddr → String) {old new : DesiredState}
    (ho : validate old = .ok ()) (hn : validate new = .ok ()) :
    RoutesConverge device old.routes new.routes ↔
      respells device old.routes new.routes = false := by
  have hold := wellFormed_of_accepts (validate_iff.mp ho)
  have hnew := wellFormed_of_accepts (validate_iff.mp hn)
  generalize old.routes = old at *
  generalize new.routes = new at *
  constructor
  · intro hc
    by_contra hs
    simp only [respells, Bool.not_eq_false, List.any_eq_true, Bool.or_eq_true] at hs
    obtain ⟨a, ha, b, hb, hs⟩ := hs
    obtain ⟨table, hexact⟩ := exists_exactly hold
    rcases hs with hs | hs
    · obtain ⟨after, hexact', hrun⟩ := hc.forward table hexact
      obtain ⟨before, hbefore, hin, -⟩ := program_routes_eq hnew device table
      obtain ⟨after', hafter', hspec⟩ := remove_stale_routes_eq hold new before
      rw [hbefore] at hrun
      obtain rfl := Except.ok.inj (hafter'.symm.trans hrun)
      exact removed_of_respelled hnew hin hspec ha hb hs hexact'
    · obtain ⟨after, hexact', hrun⟩ := hc.back table 0 hexact
      obtain ⟨before, hbefore, hin, -⟩ := program_routes_eq hold device table
      obtain ⟨after', hafter', hspec⟩ := remove_stale_routes_eq hnew old before
      have hzero : RouteTable.programRoutes device (new.take 0) table = .ok table := rfl
      rw [hzero] at hrun
      change (RouteTable.programRoutes device old table >>=
        RouteTable.removeStaleRoutes new old) = _ at hrun
      rw [hbefore] at hrun
      obtain rfl := Except.ok.inj (hafter'.symm.trans hrun)
      exact removed_of_respelled hold hin hspec hb ha hs hexact'
  · intro hs
    refine ⟨fun table hexact => ?_, fun table count hexact => ?_⟩
    · obtain ⟨before, hbefore, hin, hout⟩ := program_routes_eq hnew device table
      obtain ⟨after, hafter, hspec⟩ := remove_stale_routes_eq hold new before
      refine ⟨after, exactly_after hnew hin hspec (fun d hop hd hnot => ?_)
        fun a ha b hb => (not_respells hs a ha b hb).1, by rw [hbefore]; exact hafter⟩
      rw [hout d hnot] at hd
      exact hexact.only d hop hd
    · obtain ⟨partly, hpartly, hinPart, houtPart⟩ :=
        program_routes_eq (hnew.sublist (List.take_sublist count new)) device table
      obtain ⟨before, hbefore, hin, hout⟩ := program_routes_eq hold device partly
      obtain ⟨after, hafter, hspec⟩ := remove_stale_routes_eq hnew old before
      refine ⟨after, exactly_after hold hin hspec (fun d hop hd hnot => ?_)
        fun b hb a ha => (not_respells hs a ha b hb).2, ?_⟩
      · rw [hout d hnot] at hd
        by_cases hlisted : ∃ route ∈ new.take count, BootstrapValues.cidr route.dest = some d
        · obtain ⟨route, hr, hdest⟩ := hlisted
          have hmem := List.mem_of_mem_take hr
          obtain ⟨destination, via, hp⟩ := hnew.parsed route hmem
          obtain ⟨hop', hhop, hi⟩ := @installedHop_installed device _ _ _ hp d hdest
          rw [hinPart route hr d hdest, hhop, Option.some.injEq] at hd
          exact ⟨route, hmem, hd ▸ hi⟩
        · rw [houtPart d fun route hr hdest => hlisted ⟨route, hr, hdest⟩] at hd
          obtain ⟨a, ha, hi⟩ := hexact.only d hop hd
          exact absurd hi.dest (hnot a ha)
      · rw [hpartly]
        change (RouteTable.programRoutes device old partly >>=
          RouteTable.removeStaleRoutes new old) = _
        rw [hbefore]
        exact hafter

namespace Routes

/-- One route over the WAN, with the destination spelled as given. -/
def routed (dest : String) : DesiredState := {
  interfaces := [
    { name := "enp1s0", role := some "lan" },
    { name := "enp2s0", role := some "wan", addresses := ["2001:db8:1::1/64"] }]
  routes := [{ dest := dest, via := "2001:db8:1::2" }]
  uiExposure := ["enp1s0"] }

def onWan : IpAddr → String := fun _ => "enp2s0"

def destination : Destination := (.v6 0x20010db8000200000000000000000000, 48)

/-- Both networks are accepted; after the change of the spelling the table has no route. -/
theorem respelled_route_lost :
    (@validate Revalidate.noKeys (routed "2001:db8:2::/48")).isOk = true ∧
      (@validate Revalidate.noKeys (routed "2001:0db8:2::/48")).isOk = true ∧
      ¬RoutesConverge onWan (routed "2001:db8:2::/48").routes
        (routed "2001:0db8:2::/48").routes := by
  refine ⟨by decide +kernel, by decide +kernel, fun hc => ?_⟩
  let table : RouteTable := fun d => if d = destination then
    some ⟨.v6 0x20010db8000100000000000000000002, "enp2s0"⟩ else none
  have hexact : Exactly (routed "2001:db8:2::/48").routes table := by
    refine ⟨fun d hop hd => ?_, fun route hr => ?_⟩
    · obtain ⟨rfl, rfl⟩ : d = destination ∧
          ⟨.v6 0x20010db8000100000000000000000002, "enp2s0"⟩ = hop := by
        simpa [table, ite_eq_iff] using hd
      exact ⟨_, List.mem_cons_self, by decide +kernel, by decide +kernel, nofun⟩
    · obtain rfl := List.mem_singleton.mp hr
      exact ⟨destination, _, if_pos rfl, by decide +kernel, by decide +kernel, nofun⟩
  obtain ⟨after, hafter, hrun⟩ := hc.forward table hexact
  have hnone : ((RouteTable.programRoutes onWan (routed "2001:0db8:2::/48").routes table >>=
      RouteTable.removeStaleRoutes (routed "2001:db8:2::/48").routes
        (routed "2001:0db8:2::/48").routes).toOption.bind (· destination)) = none := by
    decide +kernel
  rw [hrun] at hnone
  obtain ⟨d, hop, hd, hi⟩ := hafter.all _ List.mem_cons_self
  have hdest : BootstrapValues.cidr "2001:0db8:2::/48" = some destination := by decide +kernel
  obtain rfl := Option.some.inj (hdest.symm.trans hi.dest)
  cases hd.symm.trans hnone

theorem routed_converge :
    RoutesConverge onWan (routed "2001:db8:2::/48").routes (routed "2001:db8:3::/48").routes :=
  let _ := Revalidate.noKeys
  (routes_converge_iff onWan (by decide +kernel) (by decide +kernel)).mpr (by decide +kernel)

end Routes

end Fwos
