import Fwos.Lists.Latest
import Fwos.Ui.TunnelEdits

/-!
# Overlaying tunnels

`store_wireguard` folds a list of edits over the tunnels. The routes that the edits ask
for are collected meanwhile and replaced in the state after the last edit.

* `Overlaid`: what a list of edits leaves of the tunnels and of the routes.
* `storeWireguard_overlays`: every list of edits with a half route leaves the state, and
  every other one overlays it.
-/

namespace Fwos

open Rust CoverageLemmas SavedLemmas TunnelEdits Lists

/-- `store_wireguard` in the state that it is given; `storeWireguard` is its result. -/
def storeWireguardIn (tunnels : List WgInput) (preserved : List Wg) :
    ExceptT String (StateM DesiredState) Unit := do
  let (next, tunnelRoutes) ← storeTunnels preserved tunnels
  modify fun desired => { desired with wireguard := next }
  tunnelRoutes.forM fun route =>
    modify fun desired => { desired with routes := storeRoute desired.routes route }

/-! ## What the edits ask for -/

/-- Only one of the destination and the next hop is given. -/
def halfRoute (edit : WgInput) : Bool :=
  (trim edit.routeTo).isEmpty != (trim edit.routeVia).isEmpty

def halfRouteError (edit : WgInput) : String :=
  s!"WireGuard {edit.name} route needs both a destination and a next hop"

def editsOf (tunnels : List WgInput) (name : String) : List WgInput :=
  tunnels.filter fun edit => edit.name == name

/-- The last key that is not blank. -/
def givenKey (edits : List WgInput) : Option String :=
  ((edits.map (·.privateKey)).filter fun key => !(trim key).isEmpty).getLast?

def givenPort (edits : List WgInput) : Option Nat := (edits.filterMap (·.listenPort)).getLast?

/-- The last list of addresses that is not empty. -/
def givenAddresses (edits : List WgInput) : Option (List String) :=
  ((edits.map (·.addresses)).filter fun addresses => !addresses.isEmpty).getLast?

/-- A tunnel after the edits of its name. -/
def edited (edits : List WgInput) (tunnel : Wg) : Wg :=
  { tunnel with
    privateKey := (givenKey edits).getD tunnel.privateKey
    listenPort := givenPort edits <|> tunnel.listenPort
    addresses := (givenAddresses edits).getD tunnel.addresses }

def newTunnel (edit : WgInput) : Wg :=
  { name := edit.name, privateKey := edit.privateKey, listenPort := edit.listenPort
    addresses := edit.addresses }

/-- The route by the tunnel, if its destination and its next hop are given. -/
def givenRoute (edit : WgInput) : Option StaticRoute :=
  if (trim edit.routeTo).isEmpty || (trim edit.routeVia).isEmpty then none
  else some { dest := trim edit.routeTo, via := trim edit.routeVia, dev := some edit.name }

def givenRoutes (tunnels : List WgInput) : List StaticRoute := tunnels.filterMap givenRoute

def routeKey (route : StaticRoute) : String × Option String := (route.dest, route.dev)

/-- The pairs of a destination and a tunnel that are edited. -/
def editedKeys (tunnels : List WgInput) : List (String × Option String) :=
  (givenRoutes tunnels).map routeKey

/-- What the edits leave: the tunnels in their places with what was given last for each,
after them the new ones in the order in which they are named first, and one route for
each edited pair, the last one given. -/
structure Overlaid (tunnels : List WgInput) (preserved : List Wg) (before after : DesiredState) :
    Prop where
  distinct : (after.wireguard.map (·.name)).Nodup
  stored : ∃ new, after.wireguard =
      preserved.map (fun tunnel => edited (editsOf tunnels tunnel.name) tunnel) ++ new ∧
    new.map (·.name) = newNames (·.name) (·.name) tunnels preserved ∧
    ∀ tunnel ∈ new, ∃ first later, editsOf tunnels tunnel.name = first :: later ∧
      tunnel = edited later (newTunnel first)
  replaced : ∀ key ∈ editedKeys tunnels, ∃ route,
    after.routes.filter (routeKey · = key) = [route] ∧
      ((givenRoutes tunnels).filter (routeKey · = key)).getLast? = some route
  others : after.routes.filter (routeKey · ∉ editedKeys tunnels) =
    before.routes.filter (routeKey · ∉ editedKeys tunnels)
  rest : after = { before with wireguard := after.wireguard, routes := after.routes }

namespace TunnelOverlay

/-! ## The edits -/

theorem tunnelRoute_of_half {edit : WgInput} (half : halfRoute edit = true) :
    tunnelRoute edit = .error (halfRouteError edit) := by
  rw [halfRoute] at half
  rw [tunnelRoute]
  exact if_pos half

theorem tunnelRoute_of_whole {edit : WgInput} (whole : ¬ halfRoute edit = true) :
    tunnelRoute edit = .ok (givenRoute edit) := by
  have both : (trim edit.routeTo).isEmpty = (trim edit.routeVia).isEmpty := by
    simpa [halfRoute] using whole
  rw [halfRoute] at whole
  rw [givenRoute, tunnelRoute, if_neg whole, ← both, Bool.or_self]
  split
  next given => rw [if_neg (by simpa using given)]
  next blank => rw [if_pos (by simpa using blank)]

theorem storeTunnels_half {tunnels : List WgInput} {edit : WgInput} {next : List Wg}
    (first : tunnels.find? halfRoute = some edit) :
    storeTunnels next tunnels = .error (halfRouteError edit) := by
  induction tunnels generalizing next with
  | nil => cases first
  | cons tunnel tunnels ih =>
      rw [storeTunnels]
      by_cases half : halfRoute tunnel = true
      · rw [List.find?_cons_of_pos half] at first
        cases first
        rw [tunnelRoute_of_half half]
        rfl
      · rw [List.find?_cons_of_neg half] at first
        rw [tunnelRoute_of_whole half, ih first]
        rfl

theorem storeTunnels_whole {tunnels : List WgInput} {next : List Wg}
    (whole : tunnels.find? halfRoute = none) :
    storeTunnels next tunnels = .ok (tunnels.foldl storeTunnel next, givenRoutes tunnels) := by
  induction tunnels generalizing next with
  | nil => rfl
  | cons tunnel tunnels ih =>
      obtain ⟨first, later⟩ := List.forall_mem_cons.mp (List.find?_eq_none.mp whole)
      rw [storeTunnels, tunnelRoute_of_whole first, ih (List.find?_eq_none.mpr later), givenRoutes,
        givenRoutes, List.filterMap_cons]
      cases givenRoute tunnel <;> rfl

/-! ## The tunnels -/

theorem foldl_storeTunnel (tunnels : List WgInput) (next : List Wg) :
    tunnels.foldl storeTunnel next =
      upsertAll (·.name) (·.name) mergeTunnel newTunnel tunnels next := by
  have step : storeTunnel = fun next tunnel => upsert (fun existing => existing.name == tunnel.name)
      (mergeTunnel tunnel) (newTunnel tunnel) next := by
    funext next tunnel
    exact storeTunnel_eq next tunnel
  rw [step]
  rfl

theorem givenKey_concat (edits : List WgInput) (edit : WgInput) :
    givenKey (edits ++ [edit]) =
      if (trim edit.privateKey).isEmpty then givenKey edits else some edit.privateKey := by
  rw [givenKey, List.map_append, List.filter_append, List.getLast?_append]
  cases blank : (trim edit.privateKey).isEmpty <;> simp [blank, givenKey]

theorem givenPort_concat (edits : List WgInput) (edit : WgInput) :
    givenPort (edits ++ [edit]) = (edit.listenPort <|> givenPort edits) := by
  rw [givenPort, List.filterMap_append, List.getLast?_append]
  cases given : edit.listenPort <;> simp [given, givenPort]

theorem givenAddresses_concat (edits : List WgInput) (edit : WgInput) :
    givenAddresses (edits ++ [edit]) =
      if edit.addresses.isEmpty then givenAddresses edits else some edit.addresses := by
  rw [givenAddresses, List.map_append, List.filter_append, List.getLast?_append]
  cases empty : edit.addresses.isEmpty <;> simp [empty, givenAddresses]

/-- One more edit is merged into what the former ones made. -/
theorem edited_concat (edits : List WgInput) (edit : WgInput) (tunnel : Wg) :
    edited (edits ++ [edit]) tunnel = mergeTunnel edit (edited edits tunnel) := by
  rw [edited, givenKey_concat, givenPort_concat, givenAddresses_concat, mergeTunnel, edited]
  congr 1
  · split <;> rfl
  · cases edit.listenPort <;> rfl
  · split <;> rfl

theorem mergeAll_eq (edits : List WgInput) (tunnel : Wg) :
    mergeAll mergeTunnel edits tunnel = edited edits tunnel := by
  induction edits using List.reverseRecOn with
  | nil => rfl
  | append_singleton edits edit ih =>
      rw [edited_concat, ← ih, mergeAll, List.foldl_append]
      rfl

theorem created_eq_some {tunnels : List WgInput} {name : String} {tunnel : Wg}
    (h : created (·.name) mergeTunnel newTunnel tunnels name = some tunnel) :
    tunnel.name = name ∧ ∃ first later, editsOf tunnels name = first :: later ∧
      tunnel = edited later (newTunnel first) := by
  rw [created, ← editsOf] at h
  split at h
  next => cases h
  next first later edits =>
    obtain rfl := Option.some.inj h
    rw [mergeAll_eq]
    have named : first ∈ editsOf tunnels name := edits ▸ List.mem_cons_self
    have same : first.name = name := by simpa using (List.mem_filter.mp named).2
    exact ⟨same, first, later, edits, rfl⟩

theorem exists_created {tunnels : List WgInput} {name : String}
    (named : name ∈ tunnels.map (·.name)) :
    ∃ tunnel, created (·.name) mergeTunnel newTunnel tunnels name = some tunnel := by
  obtain ⟨edit, mem, same⟩ := List.mem_map.mp named
  have found : edit ∈ tunnels.filter fun edit => edit.name == name :=
    List.mem_filter.mpr ⟨mem, by simpa using same⟩
  rw [created]
  split
  next none => exact absurd (none ▸ found) List.not_mem_nil
  next first later _ => exact ⟨_, rfl⟩

theorem created_names {tunnels : List WgInput} {names : List String}
    (named : ∀ name ∈ names, name ∈ tunnels.map (·.name)) :
    (names.filterMap (created (·.name) mergeTunnel newTunnel tunnels)).map (·.name) = names := by
  induction names with
  | nil => rfl
  | cons name names ih =>
      obtain ⟨tunnel, made⟩ := exists_created (named name List.mem_cons_self)
      rw [List.filterMap_cons, made, List.map_cons, (created_eq_some made).1,
        ih fun name mem => named name (List.mem_cons_of_mem _ mem)]

/-! ## The routes -/

theorem foldl_storeRoute (asked routes : List StaticRoute) :
    asked.foldl storeRoute routes =
      routes.filter (routeKey · ∉ asked.map routeKey) ++ latest routeKey asked := by
  have step : storeRoute = replace routeKey fun _ => true := by
    funext routes route
    rw [storeRoute, replace, if_pos rfl]
    congr 1
    refine List.filter_congr fun existing _ => ?_
    rw [Bool.eq_iff_iff]
    simp [routeKey]
    tauto
  rw [step, foldl_replace, List.filter_true]
  congr 1
  refine List.filter_congr fun route _ => ?_
  rw [Bool.eq_iff_iff]
  simp

theorem latest_key (asked : List StaticRoute) (key : String × Option String) :
    (latest routeKey asked).filter (routeKey · = key) =
      (asked.filter (routeKey · = key)).getLast?.toList := filter_latest

/-- Of a pair that is asked for, the last route remains. -/
theorem replaced_foldl {asked routes : List StaticRoute} {key : String × Option String}
    (mem : key ∈ asked.map routeKey) :
    ∃ route, (asked.foldl storeRoute routes).filter (routeKey · = key) = [route] ∧
      (asked.filter (routeKey · = key)).getLast? = some route := by
  have gone : (routes.filter (routeKey · ∉ asked.map routeKey)).filter (routeKey · = key) = [] :=
    List.filter_eq_nil_iff.mpr fun route former same => by
      have other := of_decide_eq_true (List.mem_filter.mp former).2
      exact other (of_decide_eq_true same ▸ mem)
  obtain ⟨route, asks, same⟩ := List.mem_map.mp mem
  have found : route ∈ asked.filter (routeKey · = key) :=
    List.mem_filter.mpr ⟨asks, decide_eq_true same⟩
  refine ⟨_, ?_, List.getLast?_eq_some_getLast (List.ne_nil_of_mem found)⟩
  rw [foldl_storeRoute, List.filter_append, gone, latest_key,
    List.getLast?_eq_some_getLast (List.ne_nil_of_mem found)]
  rfl

theorem others_foldl (asked routes : List StaticRoute) :
    (asked.foldl storeRoute routes).filter (routeKey · ∉ asked.map routeKey) =
      routes.filter (routeKey · ∉ asked.map routeKey) := by
  have gone : (latest routeKey asked).filter (routeKey · ∉ asked.map routeKey) = [] :=
    List.filter_eq_nil_iff.mpr fun route mem other =>
      of_decide_eq_true other (List.mem_map_of_mem (latest_sublist.subset mem))
  rw [foldl_storeRoute, List.filter_append, gone, List.append_nil, List.filter_filter]
  simp only [Bool.and_self]

/-! ## The state -/

variable {tunnels : List WgInput} {preserved : List Wg} {desired : DesiredState}

theorem forM_storeRoute (routes : List StaticRoute) (desired : DesiredState) :
    (routes.forM fun route => modify fun desired : DesiredState =>
      { desired with routes := storeRoute desired.routes route } :
        ExceptT String (StateM DesiredState) Unit).run.run desired =
      (.ok (), { desired with routes := routes.foldl storeRoute desired.routes }) := by
  induction routes generalizing desired with
  | nil => rfl
  | cons route routes ih => exact ih { desired with routes := storeRoute desired.routes route }

/-- `storeWireguard` gives the state that is left if the edits are stored. -/
theorem storeWireguardIn_run : (storeWireguardIn tunnels preserved).run.run desired =
    match storeWireguard desired tunnels preserved with
    | .ok after => (.ok (), after)
    | .error error => (.error error, desired) := by
  rw [storeWireguardIn, storeWireguard]
  cases storeTunnels preserved tunnels with
  | error error => rfl
  | ok stored => exact forM_storeRoute stored.2 { desired with wireguard := stored.1 }

theorem overlaid (distinct : (preserved.map (·.name)).Nodup) :
    Overlaid tunnels preserved desired { desired with
      wireguard := tunnels.foldl storeTunnel preserved
      routes := (givenRoutes tunnels).foldl storeRoute desired.routes } where
  distinct := (Overlay.foldl fun _ tunnel mem =>
    overlay_storeTunnel (List.mem_map_of_mem (f := (·.name)) mem)).distinct distinct
  stored := by
    refine ⟨(newNames (·.name) (·.name) tunnels preserved).filterMap
      (created (·.name) mergeTunnel newTunnel tunnels), ?_, ?_, fun tunnel mem => ?_⟩
    · have stored := @upsertAll_eq _ _ _ _ Wg.name WgInput.name mergeTunnel newTunnel
        mergeTunnel_name (fun _ => rfl) tunnels preserved distinct
      simp only [mergeAll_eq] at stored
      exact (foldl_storeTunnel tunnels preserved).trans stored
    · exact created_names fun name mem => (mem_newNames.mp mem).1
    · obtain ⟨name, -, made⟩ := List.mem_filterMap.mp mem
      obtain ⟨rfl, made⟩ := created_eq_some made
      exact made
  replaced := fun key mem => replaced_foldl mem
  others := others_foldl (givenRoutes tunnels) desired.routes
  rest := rfl

end TunnelOverlay

open TunnelOverlay

/-- The tunnels that are preserved are those of the state wherever it is called. An edit
with half a route leaves the state; the first one is named. -/
theorem storeWireguard_overlays {preserved : List Wg} (distinct : (preserved.map (·.name)).Nodup)
    (tunnels : List WgInput) (desired : DesiredState) :
    match tunnels.find? halfRoute with
    | some edit =>
        (storeWireguardIn tunnels preserved).run.run desired =
          (.error (halfRouteError edit), desired)
    | none => ∃ after, (storeWireguardIn tunnels preserved).run.run desired = (.ok (), after) ∧
        Overlaid tunnels preserved desired after := by
  cases found : tunnels.find? halfRoute with
  | some edit =>
      show (storeWireguardIn tunnels preserved).run.run desired = _
      rw [storeWireguardIn, storeTunnels_half found]
      rfl
  | none =>
      refine ⟨_, ?_, overlaid distinct⟩
      rw [storeWireguardIn, storeTunnels_whole found]
      exact forM_storeRoute (givenRoutes tunnels) _

namespace TunnelOverlay

def overlayState : DesiredState := {
  revision := 1
  wireguard := [{ name := "wg0", privateKey := "old", listenPort := some 51820 },
    { name := "wg1", privateKey := "other" }]
  routes := [{ dest := "198.51.100.0/24", via := "10.13.13.2", dev := some "wg0" },
    { dest := "192.0.2.0/24", via := "10.13.14.2", dev := some "wg1" }] }

/-- Two edits of a tunnel, and two of a new one. -/
def overlayEdits : List WgInput :=
  [{ name := "wg0", privateKey := "new", routeTo := "198.51.100.0/24", routeVia := "10.13.13.3" },
    { name := "wg2", privateKey := "fresh", listenPort := some 51821 },
    { name := "wg0", routeTo := " 198.51.100.0/24", routeVia := "10.13.13.4" },
    { name := "wg2", addresses := ["10.13.15.1/24"] }]

end TunnelOverlay

theorem storeWireguard_overlays_repeated :
    ∃ after, (storeWireguardIn overlayEdits overlayState.wireguard).run.run overlayState =
      (.ok (), after) ∧ Overlaid overlayEdits overlayState.wireguard overlayState after ∧
        after.routes.filter (routeKey · = ("198.51.100.0/24", some "wg0")) =
          [{ dest := "198.51.100.0/24", via := "10.13.13.4", dev := some "wg0" }] := by
  have whole : overlayEdits.find? halfRoute = none := by decide +kernel
  have overlays := @storeWireguard_overlays overlayState.wireguard (by decide) overlayEdits
    overlayState
  rw [whole] at overlays
  obtain ⟨after, stored, overlaid⟩ := overlays
  obtain ⟨route, only, last⟩ :=
    overlaid.replaced ("198.51.100.0/24", some "wg0") (by decide +kernel)
  have given : ((givenRoutes overlayEdits).filter
      (routeKey · = ("198.51.100.0/24", some "wg0"))).getLast? =
        some { dest := "198.51.100.0/24", via := "10.13.13.4", dev := some "wg0" } := by
    decide +kernel
  obtain rfl := Option.some.inj (last.symm.trans given)
  exact ⟨after, stored, overlaid, only⟩

end Fwos
