import Sarena.DataPlane.FramePanic

namespace Sarena.Soft

open Lib

/-!
# Soft data plane — the route table

The routes lie in groups, one for each destination, in a hash map.  What the table stands for
is a map from a destination and a next hop to a route.

* `Route.key`, `dumpRoutes` — the key of a route, and `dump_routes`;
* `TableSound` — groups are not empty, hold routes of their own destination, and no next hop
  twice; `TableSound.step` — every step keeps this;
* `RouteSystem`, `RouteStep` — the data plane beside the map of the routes added last and not
  removed;
* `Holds`, `Holds.step` — the routes in the groups are those of the map;
* `routeTable_refines_map` — in every run, dumping the table lists the map.
-/

/-- What a route is added and removed by. -/
def Route.key (r : Route) : IpNet × NextHop := (r.destination, r.nextHop)

/-- `SoftDataplane::dump_routes`. -/
def dumpRoutes (s : State) : List Route := s.routes.flatMap (·.2)

/-! ### One group -/

section

variable {route r : Route} {group : List Route}

theorem upsertRoute_ne_nil (route : Route) (group : List Route) : upsertRoute route group ≠ [] := by
  cases group with
  | nil => exact List.cons_ne_nil _ _
  | cons r rest =>
    rw [upsertRoute]
    split
    next => exact List.cons_ne_nil _ _
    next => exact List.cons_ne_nil _ _

/-- In a group without a next hop twice, the new route takes the place of the one with its
    next hop. -/
theorem mem_upsertRoute (h : (group.map Route.nextHop).Nodup) :
    r ∈ upsertRoute route group ↔ r = route ∨ (r ∈ group ∧ r.nextHop ≠ route.nextHop) := by
  induction group with
  | nil => simp [upsertRoute]
  | cons r' rest ih =>
    rw [List.map_cons, List.nodup_cons] at h
    rw [upsertRoute]
    split
    next hsame =>
      -- The rest has no route with this next hop.
      have hrest : r ∈ rest → r.nextHop ≠ route.nextHop := by
        intro hmem heq
        exact h.1 (hsame ▸ heq ▸ List.mem_map_of_mem hmem)
      rw [List.mem_cons, List.mem_cons]
      refine or_congr_right ⟨fun hmem => ⟨.inr hmem, hrest hmem⟩, ?_⟩
      rintro ⟨rfl | hmem, hne⟩
      · exact absurd hsame hne
      · exact hmem
    next hne =>
      rw [List.mem_cons, ih h.2, List.mem_cons]
      constructor
      · rintro (rfl | rfl | ⟨hmem, hr⟩)
        · exact .inr ⟨.inl rfl, hne⟩
        · exact .inl rfl
        · exact .inr ⟨.inr hmem, hr⟩
      · rintro (rfl | ⟨rfl | hmem, hr⟩)
        · exact .inr (.inl rfl)
        · exact .inl rfl
        · exact .inr (.inr ⟨hmem, hr⟩)

theorem nodup_upsertRoute (h : (group.map Route.nextHop).Nodup) :
    ((upsertRoute route group).map Route.nextHop).Nodup := by
  induction group with
  | nil => simp [upsertRoute]
  | cons r rest ih =>
    rw [List.map_cons, List.nodup_cons] at h
    rw [upsertRoute]
    split
    next hsame =>
      rw [List.map_cons, List.nodup_cons, ← hsame]
      exact h
    next hne =>
      rw [List.map_cons, List.nodup_cons]
      refine ⟨fun hmem => ?_, ih h.2⟩
      obtain ⟨r', hr', heq⟩ := List.mem_map.mp hmem
      rcases (mem_upsertRoute h.2).mp hr' with rfl | ⟨hold, -⟩
      · exact hne heq.symm
      · exact h.1 (heq ▸ List.mem_map_of_mem hold)

end

/-! ### The groups -/

/-- What holds of the groups of the table. -/
structure TableSound (routes : List (IpNet × List Route)) : Prop where
  /-- A destination has one group. -/
  keys : (routes.map Prod.fst).Nodup
  nonempty : ∀ d group, (d, group) ∈ routes → group ≠ []
  /-- A group holds routes of its own destination. -/
  under : ∀ d group r, (d, group) ∈ routes → r ∈ group → r.destination = d
  /-- A group holds no next hop twice. -/
  hops : ∀ d group, (d, group) ∈ routes → (group.map Route.nextHop).Nodup

variable {hash : FlowTuple → BitVec 64} {localNode : NodeId} {s t : State} {e : SoftEvent}
  {routes routes' : List (IpNet × List Route)} {d : IpNet} {group : List Route} {route : Route}

theorem tableSound_nil : TableSound [] :=
  ⟨List.nodup_nil, nofun, nofun, nofun⟩

/-- The order of iteration does not matter. -/
theorem TableSound.perm (h : TableSound routes) (hperm : routes'.Perm routes) :
    TableSound routes' where
  keys := (hperm.map Prod.fst).nodup_iff.mpr h.keys
  nonempty d group hmem := h.nonempty d group (hperm.mem_iff.mp hmem)
  under d group r hmem := h.under d group r (hperm.mem_iff.mp hmem)
  hops d group hmem := h.hops d group (hperm.mem_iff.mp hmem)

/-- A destination has one group. -/
theorem TableSound.group_unique (h : TableSound routes) {group' : List Route}
    (hmem : (d, group) ∈ routes) (hmem' : (d, group') ∈ routes) : group = group' := by
  have hsame := List.inj_on_of_nodup_map h.keys hmem hmem' rfl
  exact congrArg Prod.snd hsame

/-- The group of a destination, which is empty when there is none. -/
def groupOf (routes : List (IpNet × List Route)) (d : IpNet) : List Route :=
  ((routes.find? (·.1 = d)).map (·.2)).getD []

theorem groupOf_cases (routes : List (IpNet × List Route)) (d : IpNet) :
    (d, groupOf routes d) ∈ routes ∨
      (groupOf routes d = [] ∧ ∀ group, (d, group) ∉ routes) := by
  unfold groupOf
  cases hfind : routes.find? (·.1 = d) with
  | some found =>
    have hd : found.1 = d := by simpa using List.find?_some hfind
    left
    have hmem := List.mem_of_find?_eq_some hfind
    rw [← hd]
    exact hmem
  | none =>
    right
    refine ⟨rfl, fun group hmem => ?_⟩
    have hnot := List.find?_eq_none.mp hfind _ hmem
    simp at hnot

theorem TableSound.mem_groupOf (h : TableSound routes) {r : Route} :
    r ∈ groupOf routes d ↔ ∃ group, (d, group) ∈ routes ∧ r ∈ group := by
  rcases groupOf_cases routes d with hmem | ⟨hnil, hnot⟩
  · constructor
    · exact fun hr => ⟨_, hmem, hr⟩
    · rintro ⟨group, hgroup, hr⟩
      rwa [h.group_unique hmem hgroup]
  · rw [hnil]
    refine iff_of_false List.not_mem_nil ?_
    rintro ⟨group, hgroup, -⟩
    exact hnot group hgroup

theorem TableSound.hops_groupOf (h : TableSound routes) (d : IpNet) :
    ((groupOf routes d).map Route.nextHop).Nodup := by
  rcases groupOf_cases routes d with hmem | ⟨hnil, -⟩
  · exact h.hops _ _ hmem
  · rw [hnil]
    exact List.nodup_nil

/-! ### Adding and removing -/

/-- **Adding** changes the group of the route's destination. -/
theorem mem_addRoute {p : IpNet × List Route} :
    p ∈ (addRoute s route).routes ↔ (p.1 ≠ route.destination ∧ p ∈ s.routes) ∨
      p = (route.destination, upsertRoute route (groupOf s.routes route.destination)) := by
  rw [addRoute, List.mem_append, List.mem_filter, List.mem_singleton, decide_eq_true_iff,
    and_comm (a := p ∈ s.routes)]
  rfl

/-- One round of `remove_route` over the groups. -/
def shrink (d : IpNet) (nextHop : NextHop) (p : IpNet × List Route) : IpNet × List Route :=
  if p.1 = d then (p.1, p.2.filter fun r => r.nextHop ≠ nextHop) else p

theorem removeRoute_routes (s : State) (d : IpNet) (nextHop : NextHop) :
    (removeRoute s d nextHop).routes =
      (s.routes.map (shrink d nextHop)).filter fun p => !(p.1 == d && p.2.isEmpty) := rfl

theorem fst_shrink (d : IpNet) (nextHop : NextHop) (p : IpNet × List Route) :
    (shrink d nextHop p).1 = p.1 := by
  unfold shrink
  split
  next => rfl
  next => rfl

/-- **Removing** shrinks the group of the destination, and drops it when it gets empty. -/
theorem mem_removeRoute {nextHop : NextHop} {d' : IpNet} {group : List Route} :
    (d', group) ∈ (removeRoute s d nextHop).routes ↔ (d' ≠ d ∧ (d', group) ∈ s.routes) ∨
      (d' = d ∧ group ≠ [] ∧ ∃ old, (d, old) ∈ s.routes ∧
        group = old.filter fun r => r.nextHop ≠ nextHop) := by
  rw [removeRoute_routes, List.mem_filter, List.mem_map]
  by_cases hd : d' = d
  · subst hd
    simp only [shrink, ne_eq, not_true_eq_false, false_and, true_and, false_or, beq_self_eq_true,
      Bool.true_and, Bool.not_eq_true', List.isEmpty_eq_false_iff]
    rw [and_comm]
    refine and_congr_right fun _ => ?_
    constructor
    · rintro ⟨⟨net, old⟩, hold, heq⟩
      split at heq
      next hnet =>
        obtain ⟨rfl, rfl⟩ := Prod.mk.inj heq
        exact ⟨old, hold, rfl⟩
      next hnet => exact absurd (congrArg Prod.fst heq) hnet
    · rintro ⟨old, hold, rfl⟩
      exact ⟨(d', old), hold, if_pos rfl⟩
  · have hkeep : (!((d' == d) && group.isEmpty)) = true := by
      rw [beq_false_of_ne hd]
      rfl
    simp only [hkeep, and_true, hd, ne_eq, not_false_eq_true, true_and, false_and, or_false]
    constructor
    · rintro ⟨p, hp, heq⟩
      have hfst : p.1 ≠ d := by
        rw [← fst_shrink d nextHop p, heq]
        exact hd
      rwa [← heq, shrink, if_neg hfst]
    · intro hmem
      exact ⟨(d', group), hmem, if_neg hd⟩

theorem TableSound.add (h : TableSound s.routes) (route : Route) :
    TableSound (addRoute s route).routes where
  keys := by
    rw [addRoute, List.map_append, List.nodup_append]
    refine ⟨h.keys.sublist (List.filter_sublist.map _), List.nodup_singleton _, ?_⟩
    rintro d hd _ hd' rfl
    obtain ⟨p, hp, rfl⟩ := List.mem_map.mp hd
    have hne := (List.mem_filter.mp hp).2
    rw [decide_eq_true_iff] at hne
    exact hne (List.mem_singleton.mp hd')
  nonempty d group hmem := by
    rcases mem_addRoute.mp hmem with ⟨-, hold⟩ | hnew
    · exact h.nonempty d group hold
    · obtain ⟨rfl, rfl⟩ := Prod.mk.inj hnew
      exact upsertRoute_ne_nil _ _
  under d group r hmem hr := by
    rcases mem_addRoute.mp hmem with ⟨-, hold⟩ | hnew
    · exact h.under d group r hold hr
    · obtain ⟨rfl, rfl⟩ := Prod.mk.inj hnew
      rcases (mem_upsertRoute (h.hops_groupOf _)).mp hr with rfl | ⟨hr, -⟩
      · rfl
      · obtain ⟨group, hgroup, hr⟩ := h.mem_groupOf.mp hr
        exact h.under _ group r hgroup hr
  hops d group hmem := by
    rcases mem_addRoute.mp hmem with ⟨-, hold⟩ | hnew
    · exact h.hops d group hold
    · obtain ⟨rfl, rfl⟩ := Prod.mk.inj hnew
      exact nodup_upsertRoute (h.hops_groupOf _)

theorem TableSound.remove (h : TableSound s.routes) (d : IpNet) (nextHop : NextHop) :
    TableSound (removeRoute s d nextHop).routes where
  keys := by
    have hfst : (s.routes.map (shrink d nextHop)).map Prod.fst = s.routes.map Prod.fst := by
      rw [List.map_map]
      exact List.map_congr_left fun p _ => fst_shrink d nextHop p
    rw [removeRoute_routes]
    refine List.Nodup.sublist (List.filter_sublist.map _) ?_
    rw [hfst]
    exact h.keys
  nonempty d' group hmem := by
    rcases mem_removeRoute.mp hmem with ⟨-, hold⟩ | ⟨-, hne, -⟩
    · exact h.nonempty d' group hold
    · exact hne
  under d' group r hmem hr := by
    rcases mem_removeRoute.mp hmem with ⟨-, hold⟩ | ⟨rfl, -, old, hold, rfl⟩
    · exact h.under d' group r hold hr
    · exact h.under d' old r hold (List.mem_of_mem_filter hr)
  hops d' group hmem := by
    rcases mem_removeRoute.mp hmem with ⟨-, hold⟩ | ⟨rfl, -, old, hold, rfl⟩
    · exact h.hops d' group hold
    · exact (h.hops d' old hold).sublist (List.filter_sublist.map _)

/-- A flush leaves the routes alone. -/
theorem flushConntrack_routes (s : State) (endpoint : EndpointId) :
    (flushConntrack s endpoint).routes = s.routes := by
  have hremove : ∀ (s : State) key, (removeFlow s key).routes = s.routes := by
    intro s key
    unfold removeFlow
    split
    next => rfl
    next => rfl
  have hfold : ∀ (keys : List FlowTuple) (s : State),
      (keys.foldl removeFlow s).routes = s.routes := by
    intro keys
    induction keys with
    | nil => exact fun _ => rfl
    | cons key rest ih => exact fun s => (ih (removeFlow s key)).trans (hremove s key)
  unfold flushConntrack
  split
  next => rfl
  next => exact hfold _ s

/-- The events that are not about routes leave the groups as they are. -/
theorem apply_routes (hadd : ∀ route, e ≠ .addRoute route)
    (hremove : ∀ d nextHop, e ≠ .removeRoute d nextHop) :
    (apply hash localNode s e).routes = s.routes := by
  cases e with
  | frame now frame =>
    rw [apply, decide]
    split
    next => rfl
    next => rfl
    next => exact translate_routes
  | flushConntrack endpoint => exact flushConntrack_routes s endpoint
  | addRoute route => exact absurd rfl (hadd route)
  | removeRoute d nextHop => exact absurd rfl (hremove d nextHop)
  | _ => rfl

/-- **Step.** -/
theorem TableSound.step (h : TableSound s.routes) (hstep : Step hash localNode s e t) :
    TableSound t.routes := by
  obtain ⟨routes, hperm, rfl⟩ := hstep
  refine TableSound.perm ?_ hperm
  cases e with
  | addRoute route => exact h.add route
  | removeRoute d nextHop => exact h.remove d nextHop
  | _ =>
    rw [apply_routes (fun _ h => by cases h) (fun _ _ h => by cases h)]
    exact h

/-! ### The map that the table stands for -/

/-- The routes added last and not removed, by destination and next hop. -/
abbrev RouteMap := KeyMap (IpNet × NextHop) Route

/-- What an event does to that map. -/
def RouteMap.after (m : RouteMap) : SoftEvent → RouteMap
  | .addRoute route => m.insert route.key route
  | .removeRoute d nextHop => m.remove (d, nextHop)
  | _ => m

/-- The data plane, and the map that its calls ask for. -/
structure RouteSystem where
  state : State
  asked : RouteMap

/-- A step of the data plane, noted in the map. -/
def RouteStep (hash : FlowTuple → BitVec 64) (localNode : NodeId) (s : RouteSystem)
    (e : SoftEvent) (t : RouteSystem) : Prop :=
  Step hash localNode s.state e t.state ∧ t.asked = s.asked.after e

/-- The routes are those of the map, each under its own key. -/
def Holds (m : RouteMap) (rs : List Route) : Prop :=
  ∀ k r, m k = some r ↔ r.key = k ∧ r ∈ rs

/-- The routes after an addition: the new one, and the others but for the one of its key. -/
theorem mem_dumpRoutes_add (h : TableSound s.routes) {r : Route} :
    r ∈ dumpRoutes (addRoute s route) ↔ r = route ∨ (r ∈ dumpRoutes s ∧ r.key ≠ route.key) := by
  rw [dumpRoutes, dumpRoutes, List.mem_flatMap, List.mem_flatMap]
  constructor
  · rintro ⟨⟨d, group⟩, hmem, hr⟩
    rcases mem_addRoute.mp hmem with ⟨hne, hold⟩ | hnew
    · refine .inr ⟨⟨_, hold, hr⟩, fun hkey => hne ?_⟩
      rw [← h.under d group r hold hr]
      exact congrArg Prod.fst hkey
    · obtain ⟨rfl, rfl⟩ := Prod.mk.inj hnew
      rcases (mem_upsertRoute (h.hops_groupOf _)).mp hr with rfl | ⟨hr, hne⟩
      · exact .inl rfl
      · obtain ⟨group, hgroup, hr⟩ := h.mem_groupOf.mp hr
        exact .inr ⟨⟨_, hgroup, hr⟩, fun hkey => hne (congrArg Prod.snd hkey)⟩
  · rintro (rfl | ⟨⟨⟨d, group⟩, hold, hr⟩, hkey⟩)
    · exact ⟨_, mem_addRoute.mpr (.inr rfl), (mem_upsertRoute (h.hops_groupOf _)).mpr (.inl rfl)⟩
    · by_cases hd : d = route.destination
      · -- The route was in the group that changes, under another next hop.
        subst hd
        have hne : r.nextHop ≠ route.nextHop := by
          intro heq
          exact hkey (Prod.ext (h.under _ group r hold hr) heq)
        exact ⟨_, mem_addRoute.mpr (.inr rfl), (mem_upsertRoute (h.hops_groupOf _)).mpr
          (.inr ⟨h.mem_groupOf.mpr ⟨group, hold, hr⟩, hne⟩)⟩
      · exact ⟨_, mem_addRoute.mpr (.inl ⟨hd, hold⟩), hr⟩

/-- The routes after a removal. -/
theorem mem_dumpRoutes_remove (h : TableSound s.routes) {nextHop : NextHop} {r : Route} :
    r ∈ dumpRoutes (removeRoute s d nextHop) ↔ r ∈ dumpRoutes s ∧ r.key ≠ (d, nextHop) := by
  rw [dumpRoutes, dumpRoutes, List.mem_flatMap, List.mem_flatMap]
  constructor
  · rintro ⟨⟨d', group⟩, hmem, hr⟩
    rcases mem_removeRoute.mp hmem with ⟨hne, hold⟩ | ⟨rfl, -, old, hold, rfl⟩
    · refine ⟨⟨_, hold, hr⟩, fun hkey => hne ?_⟩
      rw [← h.under d' group r hold hr]
      exact congrArg Prod.fst hkey
    · obtain ⟨hr, hne⟩ := List.mem_filter.mp hr
      rw [decide_eq_true_iff] at hne
      exact ⟨⟨_, hold, hr⟩, fun hkey => hne (congrArg Prod.snd hkey)⟩
  · rintro ⟨⟨⟨d', group⟩, hold, hr⟩, hkey⟩
    by_cases hd : d' = d
    · subst hd
      have hne : r.nextHop ≠ nextHop := by
        intro heq
        exact hkey (Prod.ext (h.under _ group r hold hr) heq)
      have hkept : r ∈ group.filter fun r => r.nextHop ≠ nextHop :=
        List.mem_filter.mpr ⟨hr, decide_eq_true hne⟩
      exact ⟨_, mem_removeRoute.mpr (.inr ⟨rfl, List.ne_nil_of_mem hkept, group, hold, rfl⟩), hkept⟩
    · exact ⟨_, mem_removeRoute.mpr (.inl ⟨hd, hold⟩), hr⟩

theorem Holds.add {m : RouteMap} (h : Holds m (dumpRoutes s)) (hs : TableSound s.routes)
    (route : Route) : Holds (m.insert route.key route) (dumpRoutes (addRoute s route)) := by
  intro k r
  rw [KeyMap.insert_apply, mem_dumpRoutes_add hs]
  split_ifs with hk
  · subst hk
    rw [Option.some.injEq, eq_comm]
    constructor
    · rintro rfl
      exact ⟨rfl, .inl rfl⟩
    · rintro ⟨hkey, rfl | ⟨-, hne⟩⟩
      · rfl
      · exact absurd hkey hne
  · rw [h k r]
    constructor
    · rintro ⟨rfl, hr⟩
      exact ⟨rfl, .inr ⟨hr, hk⟩⟩
    · rintro ⟨rfl, rfl | ⟨hr, -⟩⟩
      · exact absurd rfl hk
      · exact ⟨rfl, hr⟩

theorem Holds.remove {m : RouteMap} (h : Holds m (dumpRoutes s)) (hs : TableSound s.routes)
    (d : IpNet) (nextHop : NextHop) :
    Holds (m.remove (d, nextHop)) (dumpRoutes (removeRoute s d nextHop)) := by
  intro k r
  rw [KeyMap.remove_apply, mem_dumpRoutes_remove hs]
  split_ifs with hk
  · subst hk
    refine iff_of_false nofun ?_
    rintro ⟨hkey, -, hne⟩
    exact hne hkey
  · rw [h k r]
    constructor
    · rintro ⟨rfl, hr⟩
      exact ⟨rfl, hr, hk⟩
    · rintro ⟨rfl, hr, -⟩
      exact ⟨rfl, hr⟩

/-- **Step.** -/
theorem Holds.step {s t : RouteSystem} (h : Holds s.asked (dumpRoutes s.state))
    (hs : TableSound s.state.routes) (hstep : RouteStep hash localNode s e t) :
    Holds t.asked (dumpRoutes t.state) := by
  obtain ⟨⟨routes, hperm, hstate⟩, hasked⟩ := hstep
  -- Another order of the groups is another order of the routes.
  have hdump : ∀ r, r ∈ dumpRoutes t.state ↔ r ∈ dumpRoutes (apply hash localNode s.state e) := by
    intro r
    rw [hstate]
    exact (hperm.flatMap_right _).mem_iff
  suffices hnew : Holds t.asked (dumpRoutes (apply hash localNode s.state e)) from
    fun k r => (hnew k r).trans (and_congr_right fun _ => (hdump r).symm)
  rw [hasked]
  cases e with
  | addRoute route => exact h.add hs route
  | removeRoute d nextHop => exact h.remove hs d nextHop
  | _ =>
    rw [dumpRoutes, apply_routes (fun _ h => by cases h) (fun _ _ h => by cases h)]
    exact h

/-- No key is dumped twice. -/
theorem TableSound.nodup_keys (h : TableSound s.routes) : ((dumpRoutes s).map Route.key).Nodup := by
  rw [dumpRoutes, List.map_flatMap, List.nodup_flatMap]
  constructor
  · rintro ⟨d, group⟩ hmem
    refine List.Nodup.of_map Prod.snd ?_
    rw [List.map_map]
    exact h.hops d group hmem
  · -- Two groups have different destinations, and so do their routes.
    have hkeys : s.routes.Pairwise fun p q => p.1 ≠ q.1 := List.pairwise_map.mp h.keys
    refine hkeys.imp_of_mem ?_
    rintro ⟨d, group⟩ ⟨d', group'⟩ hmem hmem' hne k hk hk'
    obtain ⟨r, hr, rfl⟩ := List.mem_map.mp hk
    obtain ⟨r', hr', hkey⟩ := List.mem_map.mp hk'
    apply hne
    show d = d'
    rw [← h.under d group r hmem hr, ← h.under d' group' r' hmem' hr']
    exact (congrArg Prod.fst hkey).symm

/-- **The route table is a map.** In every run of the data plane the table has no two routes
    of one destination and next hop, no empty group, and every route under its own destination;
    and dumping it lists, once each, exactly the routes that were added last for their
    destination and next hop and not removed since. -/
theorem routeTable_refines_map {s : RouteSystem}
    (run : Run (RouteStep hash localNode) ⟨State.default, KeyMap.empty⟩ s) :
    TableSound s.state.routes ∧ ((dumpRoutes s.state).map Route.key).Nodup ∧
      ∀ k r, s.asked k = some r ↔ r.key = k ∧ r ∈ dumpRoutes s.state := by
  have hinv : TableSound s.state.routes ∧ Holds s.asked (dumpRoutes s.state) := by
    refine run.invariant (J := fun s => TableSound s.state.routes ∧
      Holds s.asked (dumpRoutes s.state)) ⟨tableSound_nil, fun k r => ?_⟩ ?_
    · exact iff_of_false nofun fun h => nomatch h.2
    · rintro s e t hstep ⟨hs, hholds⟩
      exact ⟨hs.step hstep.1, hholds.step hs hstep⟩
  exact ⟨hinv.1, hinv.1.nodup_keys, hinv.2⟩

end Sarena.Soft
