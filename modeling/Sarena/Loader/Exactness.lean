import Sarena.Lib.Run
import Sarena.Loader.AddRemove

namespace Sarena.Loader

open Lib

/-!
# Loader — what reconcile leaves pinned

A reconcile removes what it can list, and it lists an endpoint only when all its required
hooks are pinned.  The pins of an endpoint whose add failed half way, or whose detach did,
are not found; and the maps of a stale endpoint are unpinned although a desired endpoint
on the same link has just pinned them.

* `Step` — calls of the loader whose backend calls may fail, on a set of pins;
* `Exact` — nothing is pinned but for the desired endpoints, and all that is;
* `Reconcilable` — the leftovers are those of fully attached endpoints, and no such
  endpoint has the link of a desired one;
* `exact_always_iff` — in every run, the reconciles that leave exactly the desired pins are
  those that start from reconcilable pins; `half_added_endpoint_stays` — one that does not.
-/

/-- An endpoint on a network interface. -/
abbrev IfaceEndpoint := { endpoint : LoaderEndpoint // IsIfaceName endpoint.link }

/-- A call of the loader, with what it returned. -/
inductive LoaderEvent
  | add (endpoint : IfaceEndpoint) (result : Except LoaderError Unit)
  | remove (endpoint : IfaceEndpoint) (result : Except LoaderError Unit)
  | reconcile (desired : List IfaceEndpoint)
      (result : Except LoaderError (List (LoaderEndpointKind × String × LoaderError)))

/-- A call runs to its end; any of its backend calls may fail. -/
def Step (root : PinRoot) (s : Backend) : LoaderEvent → Backend → Prop
  | .add endpoint result, t =>
    ∃ tr, Exec Backend.sem (addLoaderEndpoint root endpoint.val).run s tr (.pure result) t
  | .remove endpoint result, t =>
    ∃ tr, Exec Backend.sem (removeLoaderEndpoint root endpoint.val).run s tr (.pure result) t
  | .reconcile desired result, t =>
    ∃ tr, Exec Backend.sem (reconcile root (desired.map Subtype.val)).run s tr (.pure result) t

/-! ### Exactness, and the condition for it -/

/-- Some desired endpoint has this kind and link. -/
def Desired (desired : List IfaceEndpoint) (endpoint : LoaderEndpointKind × String) : Prop :=
  ∃ e ∈ desired, e.val.key = endpoint

/-- Nothing is pinned but for the desired endpoints, and all that is. -/
structure Exact (root : PinRoot) (desired : List IfaceEndpoint) (pins : Finset Path) : Prop where
  /-- Every link pin belongs to a desired endpoint. -/
  links : ∀ p ∈ pins, root.linksDir <+: p →
    ∃ e ∈ desired, root.endpointLinkDir e.val.kind e.val.link <+: p
  /-- Every map pin is a global map's or belongs to a desired endpoint. -/
  maps : ∀ p ∈ pins, root.globalsDir <+: p →
    p ∈ root.globalPins ∨ ∃ e ∈ desired, p ∈ root.mapPins e.val.key
  /-- Every desired endpoint has its map pins. -/
  hasMaps : ∀ e ∈ desired, ∀ p ∈ root.mapPins e.val.key, p ∈ pins
  /-- Every desired endpoint has the pins of its required hooks. -/
  hasHooks : ∀ e ∈ desired, ∀ hook ∈ e.val.kind.hooks, hook.required = true →
    root.linkPin e.val.kind e.val.link hook ∈ pins

/-- All required hooks of the endpoint are pinned. -/
def Attached (root : PinRoot) (pins : Finset Path) (endpoint : LoaderEndpointKind × String) :
    Prop :=
  IsIfaceName endpoint.2 ∧ ∀ hook ∈ endpoint.1.hooks, hook.required = true →
    root.linkPin endpoint.1 endpoint.2 hook ∈ pins

/-- The pins from which a reconcile is exact. -/
structure Reconcilable (root : PinRoot) (desired : List IfaceEndpoint) (pins : Finset Path) :
    Prop where
  /-- A link pin is that of a desired or of a fully attached endpoint. -/
  links : ∀ kind link, IsIfaceName link → ∀ hook ∈ kind.hooks, root.linkPin kind link hook ∈ pins →
    Desired desired (kind, link) ∨ Attached root pins (kind, link)
  /-- A map pin is that of a desired or of a fully attached endpoint. -/
  maps : ∀ map link, IsIfaceName link → root.perEndpointMapDir map link ∈ pins →
    ∃ kind : LoaderEndpointKind, map ∈ kind.perEndpointMapNames ∧
      (Desired desired (kind, link) ∨ Attached root pins (kind, link))
  /-- A fully attached endpoint on the link of a desired one is desired itself. -/
  shared : ∀ kind kind' link, Attached root pins (kind, link) → Desired desired (kind', link) →
    Desired desired (kind, link)

/-! ### The pins of the layout -/

/-- A pin of the layout. -/
inductive InLayout (root : PinRoot) : Path → Prop
  | global (map : GlobalMap) : InLayout root (root.globalMapDir map)
  | map (map : EndpointMap) (link : String) (h : IsIfaceName link) :
      InLayout root (root.perEndpointMapDir map link)
  | program (kind : LoaderEndpointKind) (link : String) (h : IsIfaceName link) (hook : HookSpec)
      (hhook : hook ∈ kind.hooks) : InLayout root (root.linkPin kind link hook)

variable {root : PinRoot} {desired : List IfaceEndpoint} {pins added after : Finset Path}
  {kind kind' : LoaderEndpointKind} {link link' : String} {hook hook' : HookSpec}
  {map : EndpointMap}

theorem mem_mapPins {p : Path} {endpoint : LoaderEndpointKind × String} :
    p ∈ root.mapPins endpoint ↔
      ∃ map ∈ endpoint.1.perEndpointMapNames, root.perEndpointMapDir map endpoint.2 = p := by
  rw [PinRoot.mapPins, List.mem_map]

/-- Links and globals are different directories. -/
theorem links_ne_globals {p q : List String} :
    root.root ++ "links" :: p ≠ root.root ++ "globals" :: q := by
  intro h
  exact absurd (List.cons.inj (List.append_cancel_left h)).1 (by decide)

theorem linkPin_ne_mapDir (h : IsIfaceName link) (h' : IsIfaceName link')
    (hhook : hook ∈ kind.hooks) :
    root.linkPin kind link hook ≠ root.perEndpointMapDir map link' := by
  rw [linkPin_eq h hhook, perEndpointMapDir_eq h']
  exact links_ne_globals

theorem takes_linkPin_iff (h : IsIfaceName link) (h' : IsIfaceName link')
    (hhook : hook ∈ kind'.hooks) :
    root.Takes (kind, link) (root.linkPin kind' link' hook) ↔ (kind, link) = (kind', link') := by
  rw [PinRoot.Takes, endpointLinkDir_isPrefix_linkPin h h' hhook, Prod.mk.injEq]
  constructor
  · rintro (heq | hmem)
    · exact heq
    · obtain ⟨map, -, heq⟩ := mem_mapPins.mp hmem
      exact absurd heq.symm (linkPin_ne_mapDir h' h hhook)
  · exact .inl

theorem takes_mapDir_iff (h : IsIfaceName link) (h' : IsIfaceName link') :
    root.Takes (kind, link) (root.perEndpointMapDir map link') ↔
      map ∈ kind.perEndpointMapNames ∧ link = link' := by
  rw [PinRoot.Takes, mem_mapPins]
  constructor
  · rintro (hunder | ⟨map', hmap, heq⟩)
    · rw [perEndpointMapDir_eq h'] at hunder
      exact absurd hunder (not_endpointLinkDir_isPrefix h kind _)
    · obtain ⟨rfl, hlink⟩ := perEndpointMapDir_inj h h' heq
      exact ⟨hmap, hlink⟩
  · rintro ⟨hmap, rfl⟩
    exact .inr ⟨map, hmap, rfl⟩

/-- The pins made for an endpoint are pins of the layout. -/
theorem inLayout_of_mem_endpointPins (h : IsIfaceName link) {p : Path}
    (hp : p ∈ root.endpointPins (kind, link)) : InLayout root p := by
  rw [PinRoot.endpointPins, List.mem_append, List.mem_append] at hp
  rcases hp with (hp | hp) | hp
  · obtain ⟨map, -, rfl⟩ := List.mem_map.mp hp
    exact .global map
  · obtain ⟨map, -, rfl⟩ := mem_mapPins.mp hp
    exact .map map link h
  · obtain ⟨hook, hhook, rfl⟩ := List.mem_map.mp hp
    exact .program kind link h hook hhook

/-- A link pin made for an endpoint is the endpoint's own. -/
theorem linkPin_mem_endpointPins (h : IsIfaceName link) (h' : IsIfaceName link')
    (hhook : hook ∈ kind.hooks) :
    root.linkPin kind link hook ∈ root.endpointPins (kind', link') ↔
      (kind', link') = (kind, link) := by
  rw [PinRoot.endpointPins, List.mem_append, List.mem_append]
  constructor
  · rintro ((hp | hp) | hp)
    · obtain ⟨map, -, heq⟩ := List.mem_map.mp hp
      rw [linkPin_eq h hhook, globalMapDir_eq] at heq
      exact absurd heq.symm links_ne_globals
    · obtain ⟨map, -, heq⟩ := mem_mapPins.mp hp
      exact absurd heq.symm (linkPin_ne_mapDir h h' hhook)
    · obtain ⟨hook', hhook', heq⟩ := List.mem_map.mp hp
      rw [← takes_linkPin_iff h' h hhook, ← heq]
      exact (takes_linkPin_iff h' h' hhook').mpr rfl
  · intro heq
    obtain ⟨rfl, rfl⟩ := Prod.mk.inj heq
    exact .inr (List.mem_map_of_mem hhook)

/-- A map pin made for an endpoint is the endpoint's own. -/
theorem mapDir_mem_endpointPins (h : IsIfaceName link) (h' : IsIfaceName link') :
    root.perEndpointMapDir map link ∈ root.endpointPins (kind', link') ↔
      map ∈ kind'.perEndpointMapNames ∧ link' = link := by
  rw [PinRoot.endpointPins, List.mem_append, List.mem_append]
  constructor
  · rintro ((hp | hp) | hp)
    · obtain ⟨global, -, heq⟩ := List.mem_map.mp hp
      exact absurd heq.symm (perEndpointMapDir_ne_globalMapDir h map global)
    · exact (takes_mapDir_iff h' h).mp (.inr hp)
    · obtain ⟨hook, hhook, heq⟩ := List.mem_map.mp hp
      exact absurd heq (linkPin_ne_mapDir h' h hhook)
  · rintro ⟨hmap, rfl⟩
    exact .inl (.inr (mem_mapPins.mpr ⟨map, hmap, rfl⟩))

/-- Among pins of the layout, what is listed is what is attached. -/
theorem listed_iff_attached (hlayout : ∀ p ∈ pins, InLayout root p) :
    Listed root pins (kind, link) ↔ Attached root pins (kind, link) := by
  have hrel : ∀ rel program, root.linksDir ++ rel ∈ pins →
      matchRel rel = some ((kind, link), program) →
      IsIfaceName link ∧ rel = [kind.kindStr, link, program] := by
    intro rel program hmem hmatch
    have hin := hlayout _ hmem
    rw [linksDir_eq, List.append_assoc, List.singleton_append] at hin
    generalize hp : root.root ++ "links" :: rel = p at hin
    cases hin with
    | global map =>
      rw [globalMapDir_eq] at hp
      exact absurd hp links_ne_globals
    | map map link' h =>
      rw [perEndpointMapDir_eq h] at hp
      exact absurd hp links_ne_globals
    | program kind' link' h hook hhook =>
      rw [linkPin_eq h hhook] at hp
      obtain rfl := (List.cons.inj (List.append_cancel_left hp)).2
      obtain ⟨rfl, rfl, rfl⟩ := (matchRel_eq_some hhook).mp hmatch
      exact ⟨h, rfl⟩
  constructor
  · intro hlisted
    obtain ⟨rel, program, hmem, hmatch⟩ := hlisted.found
    have hlink := (hrel rel program hmem hmatch).1
    refine ⟨hlink, fun hook hhook hrequired => ?_⟩
    obtain ⟨rel, hmem, hmatch⟩ := hlisted.hooks hook hhook hrequired
    rw [(hrel rel _ hmem hmatch).2, linksDir_eq, List.append_assoc] at hmem
    rw [linkPin_eq hlink hhook]
    exact hmem
  · rintro ⟨hlink, hhooks⟩
    have hfound : ∀ hook ∈ kind.hooks, ∃ rel, root.linksDir ++ rel ∈ pins ∧
        matchRel rel = some ((kind, link), hook.programName) := by
      intro hook hhook
      refine ⟨[kind.kindStr, link, hook.programName], ?_,
        (matchRel_eq_some hhook).mpr ⟨rfl, rfl, rfl⟩⟩
      have hmem := hhooks hook hhook (LoaderEndpointKind.required_of_mem hhook)
      rw [linkPin_eq hlink hhook] at hmem
      rw [linksDir_eq, List.append_assoc]
      exact hmem
    -- Every kind has a hook, so an endpoint with all of them is found.
    obtain ⟨hook, hhook⟩ : ∃ hook, hook ∈ kind.hooks := by
      cases kind <;> exact ⟨_, List.mem_cons_self⟩
    obtain ⟨rel, hrel⟩ := hfound hook hhook
    exact ⟨⟨rel, _, hrel⟩, fun hook hhook _ => hfound hook hhook⟩

/-! ### One reconcile -/

/-- The pins after the desired endpoints have been added. -/
def Added (root : PinRoot) (desired : List LoaderEndpoint) (pins added : Finset Path) : Prop :=
  ∀ p, p ∈ added ↔ p ∈ pins ∨ ∃ e ∈ desired, p ∈ root.endpointPins e.key

/-- The pins after the endpoints that are listed and not desired have been detached. -/
def Detached (root : PinRoot) (desired : List LoaderEndpoint) (added pins : Finset Path) : Prop :=
  ∀ p, p ∈ pins ↔ p ∈ added ∧
    ∀ endpoint, Listed root added endpoint → endpoint ∉ desired.map LoaderEndpoint.key →
      ¬ root.Takes endpoint p

/-- **Reconcile.** A reconcile that returns without an error has added every desired
    endpoint, and has then detached every listed endpoint that is not desired. -/
theorem reconcile_ends (desired : List LoaderEndpoint) (s : Backend) :
    EndsOk (fun errors t => errors = [] → ∃ added, Added root desired s.pins added ∧
        Detached root desired added t.pins)
      (reconcile root desired) s := by
  have hadds := collectErrors_ends LoaderEndpoint.key
    (R := fun items s t => Added root items s.pins t.pins)
    (fun e s => addLoaderEndpoint_ends root e s) ?_ ?_ desired s
  rotate_left
  · intro s p
    simp
  · intro e rest s t u ht hu p
    rw [hu p, ht p]
    simp only [List.mem_cons, exists_eq_or_imp, or_assoc]
  refine Prog.guards_try _ (Prog.guards_lift hadds) fun addErrors t ht => ?_
  refine Prog.guards_try _ (listLoaderEndpoints_ends t) ?_
  rintro existing u ⟨hpins, hlisted⟩
  refine Prog.guards_try (fun stale v => v.pins = t.pins ∧ ∀ e, e ∈ stale ↔
    Listed root t.pins e ∧ e ∉ desired.map LoaderEndpoint.key) ?_ ?_
  · refine ⟨trivial, fun order v h => ⟨(congrArg Backend.pins h.2).trans hpins, fun e => ?_⟩⟩
    rw [h.1.mem_iff, List.mem_filter, hlisted]
    simp only [Bool.not_eq_true', ← Bool.not_eq_true, List.contains_iff_mem]
  rintro stale v ⟨hv, hstale⟩
  have hdetaches := collectErrors_ends id
    (R := fun items s t => ∀ p, p ∈ t.pins ↔ p ∈ s.pins ∧ ∀ e ∈ items, ¬ root.Takes e p)
    (fun e s => detachLoaderEndpoint_ends root e.1 e.2 s) ?_ ?_ stale v
  rotate_left
  · intro s p
    simp
  · intro e rest s t u ht hu p
    rw [hu p, ht p, List.forall_mem_cons, and_assoc]
  refine Prog.guards_try _ (Prog.guards_lift hdetaches) fun detachErrors w hw => ?_
  refine Prog.guards_try (fun _ x => x.pins = w.pins)
    (call_ends fun _ _ h => congrArg Backend.pins h.2) fun infos x hx => ?_
  -- The last loop is about the `lxc_map` only.
  refine Prog.guards_try (fun _ y => y.pins = w.pins) ?_ ?_
  · have hround : ∀ ip s, EndsOk (fun _ (t : Backend) => t.pins = s.pins)
        (if ip ∈ wantedIps desired then pure () else call (.removeEndpointInfo ip)) s := by
      intro ip s
      split_ifs
      · exact rfl
      · refine call_ends fun _ t h => ?_
        rw [show t = s.removeInfo ip from h]
        rfl
    refine (Prog.guards_forM (R := fun _ (s t : Backend) => t.pins = s.pins) hround (fun _ => rfl)
      (fun _ _ _ _ _ ht hu => hu.trans ht) _ x).imp fun r y hy => ?_
    cases r with
    | ok _ => exact Eq.trans hy hx
    | error _ => trivial
  intro _ y hy hnone
  rw [List.append_eq_nil_iff] at hnone
  refine ⟨t.pins, ht hnone.1, fun p => ?_⟩
  rw [hy, hw hnone.2 p, hv]
  simp only [hstale, and_imp]

theorem mem_keys_iff (endpoint : LoaderEndpointKind × String) :
    endpoint ∈ (desired.map Subtype.val).map LoaderEndpoint.key ↔ Desired desired endpoint := by
  rw [List.map_map, List.mem_map]
  rfl

/-- What the desired endpoints add to the pins. -/
theorem mem_added (hadded : Added root (desired.map Subtype.val) pins added) (p : Path) :
    p ∈ added ↔ p ∈ pins ∨ ∃ kind link, IsIfaceName link ∧ Desired desired (kind, link) ∧
      p ∈ root.endpointPins (kind, link) := by
  rw [hadded p]
  refine or_congr_right ⟨?_, ?_⟩
  · rintro ⟨_, hmem, hp⟩
    obtain ⟨e, he, rfl⟩ := List.mem_map.mp hmem
    exact ⟨e.val.kind, e.val.link, e.property, ⟨e, he, rfl⟩, hp⟩
  · rintro ⟨kind, link, -, ⟨e, he, hkey⟩, hp⟩
    exact ⟨e.val, List.mem_map_of_mem he, hkey ▸ hp⟩

theorem linkPin_mem_added (hadded : Added root (desired.map Subtype.val) pins added)
    (h : IsIfaceName link) (hhook : hook ∈ kind.hooks) :
    root.linkPin kind link hook ∈ added ↔
      root.linkPin kind link hook ∈ pins ∨ Desired desired (kind, link) := by
  rw [mem_added hadded]
  refine or_congr_right ⟨?_, ?_⟩
  · rintro ⟨kind', link', h', hdesired, hp⟩
    rw [← (linkPin_mem_endpointPins h h' hhook).mp hp]
    exact hdesired
  · intro hdesired
    exact ⟨kind, link, h, hdesired, (linkPin_mem_endpointPins h h hhook).mpr rfl⟩

theorem mapDir_mem_added (hadded : Added root (desired.map Subtype.val) pins added)
    (h : IsIfaceName link) :
    root.perEndpointMapDir map link ∈ added ↔ root.perEndpointMapDir map link ∈ pins ∨
      ∃ kind : LoaderEndpointKind, map ∈ kind.perEndpointMapNames ∧
        Desired desired (kind, link) := by
  rw [mem_added hadded]
  refine or_congr_right ⟨?_, ?_⟩
  · rintro ⟨kind, link', h', hdesired, hp⟩
    obtain ⟨hmap, rfl⟩ := (mapDir_mem_endpointPins h h').mp hp
    exact ⟨kind, hmap, hdesired⟩
  · rintro ⟨kind, hmap, hdesired⟩
    exact ⟨kind, link, h, hdesired, (mapDir_mem_endpointPins h h).mpr ⟨hmap, rfl⟩⟩

/-- Adding the desired endpoints attaches no other one. -/
theorem attached_added (hadded : Added root (desired.map Subtype.val) pins added)
    (hnot : ¬ Desired desired (kind, link)) :
    Attached root added (kind, link) ↔ Attached root pins (kind, link) := by
  refine and_congr_right fun h => forall_congr' fun hook => ?_
  refine forall_congr' fun hhook => imp_congr_right fun _ => ?_
  rw [linkPin_mem_added hadded h hhook, or_iff_left hnot]

/-- What the detached endpoints take with them. -/
theorem mem_detached (hlayout : ∀ p ∈ added, InLayout root p)
    (hadded : Added root (desired.map Subtype.val) pins added)
    (hafter : Detached root (desired.map Subtype.val) added after) (p : Path) :
    p ∈ after ↔ p ∈ added ∧ ∀ kind link, Attached root pins (kind, link) →
      ¬ Desired desired (kind, link) → ¬ root.Takes (kind, link) p := by
  rw [hafter p]
  refine and_congr_right fun _ => ⟨fun h kind link hattached hnot => ?_, ?_⟩
  · refine h _ ?_ fun hmem => hnot ((mem_keys_iff _).mp hmem)
    rw [listed_iff_attached hlayout, attached_added hadded hnot]
    exact hattached
  · rintro h ⟨kind, link⟩ hlisted hmem
    have hnot : ¬ Desired desired (kind, link) :=
      fun hdesired => hmem ((mem_keys_iff _).mpr hdesired)
    rw [listed_iff_attached hlayout, attached_added hadded hnot] at hlisted
    exact h kind link hlisted hnot

/-- The link pins after a reconcile. -/
theorem linkPin_mem_after (hlayout : ∀ p ∈ added, InLayout root p)
    (hadded : Added root (desired.map Subtype.val) pins added)
    (hafter : Detached root (desired.map Subtype.val) added after) (h : IsIfaceName link)
    (hhook : hook ∈ kind.hooks) :
    root.linkPin kind link hook ∈ after ↔ Desired desired (kind, link) ∨
      (root.linkPin kind link hook ∈ pins ∧ ¬ Attached root pins (kind, link)) := by
  rw [mem_detached hlayout hadded hafter, linkPin_mem_added hadded h hhook]
  constructor
  · rintro ⟨hpin | hdesired, htakes⟩
    · by_cases hdesired : Desired desired (kind, link)
      · exact .inl hdesired
      · refine .inr ⟨hpin, fun hattached => ?_⟩
        exact htakes kind link hattached hdesired ((takes_linkPin_iff h h hhook).mpr rfl)
    · exact .inl hdesired
  · intro hcases
    refine ⟨hcases.symm.imp_left And.left, fun kind' link' hattached hnot htakes => ?_⟩
    rw [takes_linkPin_iff hattached.1 h hhook] at htakes
    rw [htakes] at hattached hnot
    rcases hcases with hdesired | hpin
    · exact hnot hdesired
    · exact hpin.2 hattached

/-- The map pins after a reconcile. -/
theorem mapDir_mem_after (hlayout : ∀ p ∈ added, InLayout root p)
    (hadded : Added root (desired.map Subtype.val) pins added)
    (hafter : Detached root (desired.map Subtype.val) added after) (h : IsIfaceName link) :
    root.perEndpointMapDir map link ∈ after ↔
      (root.perEndpointMapDir map link ∈ pins ∨
        ∃ kind : LoaderEndpointKind, map ∈ kind.perEndpointMapNames ∧
          Desired desired (kind, link)) ∧
      ∀ kind : LoaderEndpointKind, map ∈ kind.perEndpointMapNames →
        Attached root pins (kind, link) → Desired desired (kind, link) := by
  rw [mem_detached hlayout hadded hafter, mapDir_mem_added hadded h]
  refine and_congr_right fun _ => ⟨fun htakes kind hmap hattached => ?_, ?_⟩
  · by_contra hnot
    exact htakes kind link hattached hnot ((takes_mapDir_iff h h).mpr ⟨hmap, rfl⟩)
  · intro hshared kind link' hattached hnot htakes
    obtain ⟨hmap, rfl⟩ := (takes_mapDir_iff hattached.1 h).mp htakes
    exact hnot (hshared kind hmap hattached)

/-- Which pins lie below the directory of the links: the link pins. -/
theorem linksDir_isPrefix_iff {p : Path} (hin : InLayout root p) :
    root.linksDir <+: p ↔ ∃ kind link hook, IsIfaceName link ∧
      hook ∈ LoaderEndpointKind.hooks kind ∧ p = root.linkPin kind link hook := by
  constructor
  · intro hbelow
    rw [linksDir_eq] at hbelow
    obtain ⟨rest, hrest⟩ := hbelow
    rw [List.append_assoc] at hrest
    cases hin with
    | global map =>
      rw [globalMapDir_eq] at hrest
      exact absurd hrest links_ne_globals
    | map map link h =>
      rw [perEndpointMapDir_eq h] at hrest
      exact absurd hrest links_ne_globals
    | program kind link h hook hhook => exact ⟨kind, link, hook, h, hhook, rfl⟩
  · rintro ⟨kind, link, hook, h, hhook, rfl⟩
    rw [linksDir_eq, linkPin_eq h hhook, List.prefix_append_right_inj]
    exact List.cons_prefix_cons.mpr ⟨rfl, List.nil_prefix⟩

theorem globalsDir_isPrefix_mapDir (h : IsIfaceName link) :
    root.globalsDir <+: root.perEndpointMapDir map link := by
  rw [globalsDir_eq, perEndpointMapDir_eq h, List.prefix_append_right_inj]
  exact List.cons_prefix_cons.mpr ⟨rfl, List.nil_prefix⟩

theorem not_globalsDir_isPrefix_linkPin (h : IsIfaceName link) (hhook : hook ∈ kind.hooks) :
    ¬ root.globalsDir <+: root.linkPin kind link hook := by
  rw [globalsDir_eq, linkPin_eq h hhook]
  rintro ⟨rest, hrest⟩
  rw [List.append_assoc] at hrest
  exact links_ne_globals hrest.symm

/-- Adding the desired endpoints keeps to the layout. -/
theorem inLayout_added (hlayout : ∀ p ∈ pins, InLayout root p)
    (hadded : Added root (desired.map Subtype.val) pins added) : ∀ p ∈ added, InLayout root p := by
  intro p hp
  rcases (mem_added hadded p).mp hp with hp | ⟨kind, link, h, -, hp⟩
  · exact hlayout p hp
  · exact inLayout_of_mem_endpointPins h hp

/-- A reconcile that is exact started from reconcilable pins. -/
theorem reconcilable_of_exact (hadds : ∀ p ∈ added, InLayout root p)
    (hadded : Added root (desired.map Subtype.val) pins added)
    (hafter : Detached root (desired.map Subtype.val) added after)
    (hexact : Exact root desired after) : Reconcilable root desired pins where
  links kind link h hook hhook hpin := by
    by_contra hcontra
    obtain ⟨hdesired, hattached⟩ := not_or.mp hcontra
    have hstays := (linkPin_mem_after hadds hadded hafter h hhook).mpr (.inr ⟨hpin, hattached⟩)
    have hbelow : root.linksDir <+: root.linkPin kind link hook :=
      (linksDir_isPrefix_iff (.program kind link h hook hhook)).mpr
        ⟨kind, link, hook, h, hhook, rfl⟩
    obtain ⟨e, he, hunder⟩ := hexact.links _ hstays hbelow
    obtain ⟨hkind, hlink⟩ := (endpointLinkDir_isPrefix_linkPin e.property h hhook).mp hunder
    exact hdesired ⟨e, he, Prod.ext hkind hlink⟩
  maps map link h hpin := by
    by_cases hstays : root.perEndpointMapDir map link ∈ after
    · rcases hexact.maps _ hstays (globalsDir_isPrefix_mapDir h) with hglobal | ⟨e, he, hmem⟩
      · obtain ⟨global, -, heq⟩ := List.mem_map.mp hglobal
        exact absurd heq.symm (perEndpointMapDir_ne_globalMapDir h map global)
      · obtain ⟨hmap, hlink⟩ := (takes_mapDir_iff e.property h).mp (.inr hmem)
        exact ⟨e.val.kind, hmap, .inl ⟨e, he, Prod.ext rfl hlink⟩⟩
    · rw [mapDir_mem_after hadds hadded hafter h] at hstays
      by_contra hcontra
      push Not at hcontra
      exact hstays ⟨.inl hpin, fun kind hmap hattached => absurd hattached (hcontra kind hmap).2⟩
  shared := by
    rintro kind kind' link hattached ⟨e, he, hkey⟩
    -- The calls map of the desired endpoint would go with the stale one.
    obtain ⟨rfl, rfl⟩ := Prod.mk.inj hkey
    have hmem := hexact.hasMaps e he _ (mem_mapPins.mpr ⟨_, e.val.kind.callsMap_mem, rfl⟩)
    have hafter' := (mapDir_mem_after hadds hadded hafter hattached.1).mp hmem
    exact hafter'.2 kind kind.callsMap_mem hattached

/-- A reconcile that starts from reconcilable pins is exact. -/
theorem exact_of_reconcilable (hadds : ∀ p ∈ added, InLayout root p)
    (hadded : Added root (desired.map Subtype.val) pins added)
    (hafter : Detached root (desired.map Subtype.val) added after)
    (hready : Reconcilable root desired pins) : Exact root desired after where
  links p hp hbelow := by
    have hin := hadds p ((mem_detached hadds hadded hafter p).mp hp).1
    obtain ⟨kind, link, hook, h, hhook, rfl⟩ := (linksDir_isPrefix_iff hin).mp hbelow
    have hdesired : Desired desired (kind, link) := by
      rcases (linkPin_mem_after hadds hadded hafter h hhook).mp hp with hdesired | ⟨hpin, hnot⟩
      · exact hdesired
      · exact (hready.links kind link h hook hhook hpin).resolve_right hnot
    obtain ⟨e, he, hkey⟩ := hdesired
    obtain ⟨rfl, rfl⟩ := Prod.mk.inj hkey
    exact ⟨e, he, (endpointLinkDir_isPrefix_linkPin h h hhook).mpr ⟨rfl, rfl⟩⟩
  maps p hp hbelow := by
    have hin := hadds p ((mem_detached hadds hadded hafter p).mp hp).1
    cases hin with
    | global map =>
      refine .inl (List.mem_map_of_mem ?_)
      cases map <;> decide
    | map map link h =>
      obtain ⟨hfrom, hshared⟩ := (mapDir_mem_after hadds hadded hafter h).mp hp
      obtain ⟨kind, hmap, e, he, hkey⟩ : ∃ kind : LoaderEndpointKind,
          map ∈ kind.perEndpointMapNames ∧ Desired desired (kind, link) := by
        rcases hfrom with hpin | hdesired
        · obtain ⟨kind, hmap, hdesired | hattached⟩ := hready.maps map link h hpin
          · exact ⟨kind, hmap, hdesired⟩
          · exact ⟨kind, hmap, hshared kind hmap hattached⟩
        · exact hdesired
      exact .inr ⟨e, he, hkey ▸ mem_mapPins.mpr ⟨map, hmap, rfl⟩⟩
    | program kind link h hook hhook =>
      exact absurd hbelow (not_globalsDir_isPrefix_linkPin h hhook)
  hasMaps e he p hp := by
    obtain ⟨map, hmap, rfl⟩ := mem_mapPins.mp hp
    refine (mapDir_mem_after hadds hadded hafter e.property).mpr
      ⟨.inr ⟨e.val.kind, hmap, e, he, rfl⟩, fun kind _ hattached => ?_⟩
    exact hready.shared kind e.val.kind e.val.link hattached ⟨e, he, rfl⟩
  hasHooks e he hook hhook _ :=
    (linkPin_mem_after hadds hadded hafter e.property hhook).mpr (.inl ⟨e, he, rfl⟩)

/-- **One reconcile** is exact if and only if it starts from reconcilable pins. -/
theorem exact_iff_reconcilable (hlayout : ∀ p ∈ pins, InLayout root p)
    (hadded : Added root (desired.map Subtype.val) pins added)
    (hafter : Detached root (desired.map Subtype.val) added after) :
    Exact root desired after ↔ Reconcilable root desired pins := by
  have hadds := inLayout_added hlayout hadded
  exact ⟨reconcilable_of_exact hadds hadded hafter, exact_of_reconcilable hadds hadded hafter⟩

/-! ### Runs -/

/-- The calls of a detach. -/
theorem detachLoaderEndpoint_uses {allowed : ∀ β : Type, BackendOp β → Prop}
    (hstop : ∀ link, allowed _ (.stopLogging link)) (hdir : ∀ dir, allowed _ (.removePinDir dir))
    (hunpin : ∀ path, allowed _ (.unpinMap path)) (kind : LoaderEndpointKind) (link : String) :
    (detachLoaderEndpoint root kind link).run.Uses allowed := by
  refine Prog.uses_try ⟨hstop _, fun _ => trivial⟩ fun _ => ?_
  refine Prog.uses_try ⟨hdir _, fun _ => trivial⟩ fun _ => ?_
  exact Prog.uses_forM fun _ _ => ⟨hunpin _, fun _ => trivial⟩

theorem attachHooks_uses (h : IsIfaceName link) (resolved : Link) {hooks : List HookSpec}
    (hhooks : ∀ hook ∈ hooks, hook ∈ kind.hooks) :
    (attachHooks resolved (root.endpointLinkDir kind link) hooks).Uses
      (PinsOnly (InLayout root)) := by
  induction hooks with
  | nil => trivial
  | cons hook rest ih =>
    rw [attachHooks, Prog.perform_bind]
    refine ⟨.program kind link h hook (hhooks hook List.mem_cons_self), fun result => ?_⟩
    refine Prog.uses_bind (ih fun hook hh => hhooks hook (List.mem_cons_of_mem _ hh)) ?_
    intro failures
    cases result <;> trivial

/-- Adding an endpoint makes only pins of the layout. -/
theorem addLoaderEndpoint_uses (endpoint : LoaderEndpoint) (h : IsIfaceName endpoint.link) :
    (addLoaderEndpoint root endpoint).run.Uses (PinsOnly (InLayout root)) := by
  refine Prog.uses_try ⟨trivial, fun _ => trivial⟩ fun resolved => ?_
  refine Prog.uses_try ⟨?_, fun _ => trivial⟩ fun _ => ?_
  · intro entry hentry
    have hpin := List.mem_map_of_mem (f := Prod.snd) hentry
    rw [map_snd_instanceMaps] at hpin
    exact inLayout_of_mem_endpointPins h (List.mem_append_left _ hpin)
  refine Prog.uses_try ?_ fun _ => ?_
  · cases endpoint with
    | container persist =>
      exact Prog.uses_try ⟨trivial, fun _ => trivial⟩ fun _ => ⟨trivial, fun _ => trivial⟩
    | host _ => trivial
    | netDev _ => trivial
    | overlay _ => trivial
    | wireguard _ => trivial
  refine Prog.uses_try ?_ fun failures => ?_
  · exact Prog.uses_bind (attachHooks_uses h resolved fun _ hh => hh) fun _ => trivial
  · by_cases hnone : failures = []
    · rw [if_neg (not_not.mpr hnone)]
      trivial
    · rw [if_pos hnone]
      trivial

theorem collectErrors_uses {α : Type} {key : α → LoaderEndpointKind × String}
    {handle : α → LoaderM Unit} {allowed : ∀ β : Type, BackendOp β → Prop} {items : List α}
    (h : ∀ a ∈ items, (handle a).run.Uses allowed) :
    (collectErrors key handle items).Uses allowed := by
  induction items with
  | nil => trivial
  | cons a rest ih =>
    refine Prog.uses_bind (h a List.mem_cons_self) fun result => ?_
    refine Prog.uses_bind (ih fun b hb => h b (List.mem_cons_of_mem _ hb)) fun errors => ?_
    cases result <;> trivial

/-- A reconcile makes only pins of the layout. -/
theorem reconcile_uses (desired : List IfaceEndpoint) :
    (reconcile root (desired.map Subtype.val)).run.Uses (PinsOnly (InLayout root)) := by
  have hadds : (collectErrors LoaderEndpoint.key (addLoaderEndpoint root)
      (desired.map Subtype.val)).Uses (PinsOnly (InLayout root)) := by
    refine collectErrors_uses fun endpoint hmem => ?_
    obtain ⟨e, -, rfl⟩ := List.mem_map.mp hmem
    exact addLoaderEndpoint_uses e.val e.property
  refine Prog.uses_try (Prog.uses_bind hadds fun _ => trivial) fun _ => ?_
  refine Prog.uses_try ?_ fun _ => ?_
  · exact Prog.uses_try ⟨trivial, fun _ => trivial⟩ fun _ => ⟨trivial, fun _ => trivial⟩
  refine Prog.uses_try ⟨trivial, fun _ => trivial⟩ fun stale => ?_
  refine Prog.uses_try (Prog.uses_bind (collectErrors_uses fun endpoint _ => ?_)
    fun _ => trivial) fun _ => ?_
  · exact detachLoaderEndpoint_uses (fun _ => trivial) (fun _ => trivial) (fun _ => trivial) _ _
  refine Prog.uses_try ⟨trivial, fun _ => trivial⟩ fun infos => ?_
  refine Prog.uses_try (Prog.uses_forM fun ip _ => ?_) fun _ => trivial
  split_ifs
  · trivial
  · exact ⟨trivial, fun _ => trivial⟩

/-- **Step.** A call makes only pins of the layout. -/
theorem Step.keep {e : LoaderEvent} {s t : Backend} (h : Step root s e t)
    (hs : s.Knows (InLayout root)) : t.Knows (InLayout root) := by
  have hkeep : ∀ {α : Type} {p q : Prog BackendOp α} {tr : List (Answered BackendOp)},
      p.Uses (PinsOnly (InLayout root)) → Exec Backend.sem p s tr q t → t.Knows (InLayout root) :=
    fun hp hexec => hp.exec (Backend.Knows (InLayout root))
      (fun _ _ _ _ _ hop hsem hs => hop.keep hsem hs) hexec hs
  cases e with
  | add endpoint result =>
    obtain ⟨tr, hexec⟩ := h
    exact hkeep (addLoaderEndpoint_uses endpoint.val endpoint.property) hexec
  | remove endpoint result =>
    obtain ⟨tr, hexec⟩ := h
    refine hkeep (Prog.uses_try ?_ fun _ => detachLoaderEndpoint_uses (fun _ => trivial)
      (fun _ => trivial) (fun _ => trivial) _ _) hexec
    cases endpoint.val with
    | container persist => exact Prog.uses_forM fun _ _ => ⟨trivial, fun _ => trivial⟩
    | host _ => trivial
    | netDev _ => trivial
    | overlay _ => trivial
    | wireguard _ => trivial
  | reconcile desired result =>
    obtain ⟨tr, hexec⟩ := h
    exact hkeep (reconcile_uses desired) hexec

/-- **Reconcile is exact** in those runs, from nothing pinned, whose reconciles without an
    error start from reconcilable pins, and in no other run. -/
theorem exact_always_iff {s : Backend} (run : Run (Step root) Backend.empty s) :
    (run.EachStep fun _ e t => ∀ desired, e = .reconcile desired (.ok []) →
      Exact root desired t.pins) ↔
    run.EachStep fun s e _ => ∀ desired, e = .reconcile desired (.ok []) →
      Reconcilable root desired s.pins := by
  refine Run.eachStep_iff_of_invariant (J := Backend.Knows (InLayout root)) ?_ ?_ ?_ run
  · intro p hp
    exact absurd hp (Finset.notMem_empty p)
  · exact fun s e t h hs => h.keep hs
  · intro s e t h hs
    refine forall_congr' fun desired => imp_congr_right fun he => ?_
    obtain ⟨tr, hexec⟩ : ∃ tr, Exec Backend.sem
        (reconcile root (desired.map Subtype.val)).run s tr (.pure (.ok [])) t := by
      rw [he] at h
      exact h
    obtain ⟨added, hadded, hafter⟩ := ((reconcile_ends _ s).exec hexec) rfl
    exact exact_iff_reconcilable hs hadded hafter

/-! ### A reconcile that leaves a program attached -/

/-- A root on the BPF file system. -/
def bpfRoot : PinRoot := ⟨["bpf"]⟩

/-- A container on `lxc1`. -/
def lxcEndpoint : IfaceEndpoint := ⟨.container { id := 1, hostIfaceName := "lxc1" }, by decide⟩

/-- What is left when the second hook of `lxcEndpoint` fails to attach. -/
def halfAdded : Backend where
  pins := {["bpf", "globals", "lxc_map"], ["bpf", "globals", "metrics_map"],
    ["bpf", "globals", "calls_map_lxc1"], ["bpf", "globals", "endpoint_config_lxc1"],
    ["bpf", "links", "container", "lxc1", "from_container"]}
  endpointInfos := []

/-- A failed add followed by a reconcile in which nothing is desired: no call of the
    reconcile fails, and the program stays attached. -/
theorem half_added_endpoint_stays :
    ∃ (s : Backend) (run : Run (Step bpfRoot) Backend.empty s),
      ¬ run.EachStep fun _ e t => ∀ desired, e = .reconcile desired (.ok []) →
        Exact bpfRoot desired t.pins := by
  have hadd : Step bpfRoot Backend.empty (.add lxcEndpoint
      (.error (.hooksFailed [⟨"to_container", "no such device"⟩]))) halfAdded :=
    ⟨_, .step _ _ _ (Except.ok ⟨"lxc1", 7⟩) _ _ _ _ (by exact ⟨rfl, rfl⟩) <|
      .step _ _ _ (Except.ok ()) _ _ _ _ (by exact rfl) <|
      .step _ _ _ (Except.ok ()) _ _ _ _ (by exact rfl) <|
      .step _ _ _ (Except.ok ()) _ _ _ _ (by exact rfl) <|
      .step _ _ _ (Except.ok ()) _ _ _ _ (by exact rfl) <|
      .step _ _ _ (Except.error (.backend "no such device")) _ _ _ _ (by exact rfl) (.refl _ _)⟩
  have hlist : ∀ rel, rel ∈ [["container", "lxc1", "from_container"]] ↔
      bpfRoot.linksDir ++ rel ∈ halfAdded.pins := by
    intro rel
    rw [show bpfRoot.linksDir = ["bpf", "links"] by decide]
    simp [halfAdded]
  -- One of the two hooks is missing, so the endpoint is not listed and not detached.
  have hreconcile : Step bpfRoot halfAdded (.reconcile [] (.ok [])) halfAdded :=
    ⟨_, .step _ _ _ (Except.ok _) _ _ _ _ (by exact ⟨hlist, rfl⟩) <|
      .step _ _ _ [] _ _ _ _ (by exact ⟨by decide, rfl⟩) <|
      .step _ _ _ [] _ _ _ _ (by exact ⟨by decide, rfl⟩) <|
      .step _ _ _ (Except.ok []) _ _ _ _ (by exact ⟨.nil, rfl⟩) (.refl _ _)⟩
  refine ⟨_, .snoc _ (.snoc _ .nil _ _ hadd) _ _ hreconcile, fun hall => ?_⟩
  have hexact := hall.2 [] rfl
  have hpin : ["bpf", "links", "container", "lxc1", "from_container"] ∈ halfAdded.pins := by decide
  obtain ⟨e, he, -⟩ := hexact.links _ hpin (by decide)
  cases he

end Sarena.Loader
