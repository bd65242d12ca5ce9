import Sarena.Loader.Exactness

namespace Sarena.Loader

open Lib

/-!
# Loader — remove undoes add

What adding and then removing an endpoint leaves of it, and of the others.  The layout
decides it: what is pinned for an endpoint on one link, or removed with it, is never a pin
of an endpoint on another link.

* `Gone`, `Untouched` — what is left of an endpoint, what another one keeps;
* `PinRoot.Takes.disjoint` — what goes with an endpoint goes with no other one;
* `add_remove_untouched` — the endpoint is gone, the others are untouched.
-/

/-- Nothing of the endpoint is left. -/
structure Gone (root : PinRoot) (endpoint : LoaderEndpoint) (s : ConfiguredBackend) : Prop where
  /-- Neither a program of it nor a map of it is pinned. -/
  pins : ∀ path ∈ s.1.pins, ¬ root.Takes endpoint.key path
  /-- No `lxc_map` entry has an address of it. -/
  infos : ∀ entry ∈ s.1.endpointInfos, entry.1 ∉ endpoint.ips

/-- What the endpoint has is what it had. -/
structure Untouched (root : PinRoot) (endpoint : LoaderEndpoint) (s t : ConfiguredBackend) :
    Prop where
  pins : ∀ path, root.Takes endpoint.key path → (path ∈ t.1.pins ↔ path ∈ s.1.pins)
  config : t.2 endpoint.link = s.2 endpoint.link
  infos : t.1.endpointInfos.filter (·.1 ∈ endpoint.ips) =
    s.1.endpointInfos.filter (·.1 ∈ endpoint.ips)

section

variable {root : PinRoot} {kind kind' : LoaderEndpointKind} {link link' : String} {path : Path}

/-- The directories of two links have no pin in common. -/
theorem endpointLinkDir_disjoint (h : IsIfaceName link) (h' : IsIfaceName link')
    (hne : link ≠ link') (hpath : root.endpointLinkDir kind link <+: path) :
    ¬ root.endpointLinkDir kind' link' <+: path := by
  intro hpath'
  rw [endpointLinkDir_eq h] at hpath
  rw [endpointLinkDir_eq h'] at hpath'
  have heq := (List.prefix_of_prefix_length_le hpath hpath' (by simp)).eq_of_length (by simp)
  simp only [List.append_cancel_left_eq, List.cons.injEq] at heq
  exact hne heq.2.2.1

/-- What goes with an endpoint on one link does not go with one on another. -/
theorem PinRoot.Takes.disjoint (h : IsIfaceName link) (h' : IsIfaceName link') (hne : link ≠ link')
    (hpath : root.Takes (kind, link) path) : ¬ root.Takes (kind', link') path := by
  rcases hpath with hunder | hmap
  · rintro (hunder' | hmap')
    · exact endpointLinkDir_disjoint h h' hne hunder hunder'
    · obtain ⟨map, -, rfl⟩ := mem_mapPins.mp hmap'
      rw [perEndpointMapDir_eq h'] at hunder
      exact not_endpointLinkDir_isPrefix h _ _ hunder
  · obtain ⟨map, -, rfl⟩ := mem_mapPins.mp hmap
    exact fun htakes => hne ((takes_mapDir_iff h' h).mp htakes).2.symm

/-- What goes with an endpoint on one link is not pinned for one on another. -/
theorem PinRoot.Takes.not_mem_endpointPins (h : IsIfaceName link) (h' : IsIfaceName link')
    (hne : link ≠ link') (hpath : root.Takes (kind, link) path) :
    path ∉ root.endpointPins (kind', link') := by
  intro hmem
  have hown : path ∈ root.globalPins ∨ root.Takes (kind', link') path := by
    rw [PinRoot.endpointPins, List.mem_append, List.mem_append, or_assoc] at hmem
    refine hmem.imp_right fun hmem => ?_
    rcases hmem with hmap | hlink
    · exact .inr hmap
    · obtain ⟨hook, hhook, rfl⟩ := List.mem_map.mp hlink
      exact (takes_linkPin_iff h' h' hhook).mpr rfl
  rcases hown with hglobal | htakes
  · obtain ⟨global, -, rfl⟩ := List.mem_map.mp hglobal
    rcases hpath with hunder | hmap
    · rw [globalMapDir_eq] at hunder
      exact not_endpointLinkDir_isPrefix h _ _ hunder
    · obtain ⟨map, -, heq⟩ := mem_mapPins.mp hmap
      exact perEndpointMapDir_ne_globalMapDir h map global heq
  · exact hpath.disjoint h h' hne htakes

end

section

variable {root : PinRoot} {e e' : IfaceEndpoint} {s t : ConfiguredBackend} {link : Link}

/-- Removing an endpoint leaves nothing of it. -/
theorem gone_removed (endpoint : LoaderEndpoint) (s : ConfiguredBackend) :
    Gone root endpoint (removed root endpoint s) where
  pins _ hpath := (Finset.mem_filter.mp hpath).2
  infos _ hentry := of_decide_eq_true (List.mem_filter.mp hentry).2

/-- Removing an endpoint leaves those on other links and with other addresses alone. -/
theorem untouched_removed (hne : e'.val.link ≠ e.val.link)
    (hips : ∀ ip ∈ e'.val.ips, ip ∉ e.val.ips) :
    Untouched root e'.val s (removed root e.val s) where
  pins path hpath := by
    have hnot : ¬ root.Takes e.val.key path := hpath.disjoint e'.property e.property hne
    exact Finset.mem_filter.trans (and_iff_left hnot)
  config := by
    refine if_neg fun hmem => ?_
    obtain ⟨map, -, heq⟩ := mem_mapPins.mp hmem
    exact hne (perEndpointMapDir_inj e.property e'.property heq).2.symm
  infos := filter_infos_disjoint hips _

/-- So does adding it. -/
theorem untouched_added (hne : e'.val.link ≠ e.val.link)
    (hips : ∀ ip ∈ e'.val.ips, ip ∉ e.val.ips) :
    Untouched root e'.val s (added root e.val link s) where
  pins path hpath := by
    have hnot : path ∉ root.endpointPins e.val.key :=
      hpath.not_mem_endpointPins e'.property e.property hne
    rw [added, Finset.mem_union, List.mem_toFinset, or_iff_left hnot]
  config := by
    show e.val.fillConfigs s.2 e'.val.link = _
    generalize e.val = endpoint at hne
    cases endpoint with
    | container persist => exact KeyMap.insert_of_ne _ _ hne
    | host _ => rfl
    | netDev _ => rfl
    | overlay _ => rfl
    | wireguard _ => rfl
  infos := by
    show (e.val.fillInfos link s.1.endpointInfos).filter _ = _
    generalize e.val = endpoint at hips
    cases endpoint with
    | container persist =>
      have hnew : (insertedInfos persist.ips (LoaderEndpoint.info persist link)).filter
          (·.1 ∈ e'.val.ips) = [] := by
        rw [List.filter_eq_nil_iff]
        rintro ⟨ip, info⟩ hmem
        rw [mem_insertedInfos] at hmem
        exact fun hown => hips ip (of_decide_eq_true hown) hmem.1
      rw [LoaderEndpoint.fillInfos, List.filter_append, hnew, List.nil_append]
      exact filter_infos_disjoint hips _
    | host _ => rfl
    | netDev _ => rfl
    | overlay _ => rfl
    | wireguard _ => rfl

theorem Untouched.trans {endpoint : LoaderEndpoint} {u : ConfiguredBackend}
    (h : Untouched root endpoint s t) (h' : Untouched root endpoint t u) :
    Untouched root endpoint s u where
  pins path hpath := (h'.pins path hpath).trans (h.pins path hpath)
  config := h'.config.trans h.config
  infos := h'.infos.trans h.infos

/-- **Adding and then removing an endpoint**, without an error, leaves nothing of it, and
    leaves every endpoint on another link and with other addresses as it was. -/
theorem add_remove_untouched {u : ConfiguredBackend} {tr tr' : List (Answered BackendOp)}
    (hadd : Exec (configured root) (addLoaderEndpoint root e.val).run s tr (.pure (.ok ())) t)
    (hremove : Exec (configured root) (removeLoaderEndpoint root e.val).run t tr'
      (.pure (.ok ())) u) :
    Gone root e.val u ∧ ∀ e' : IfaceEndpoint, e'.val.link ≠ e.val.link →
      (∀ ip ∈ e'.val.ips, ip ∉ e.val.ips) → Untouched root e'.val s u := by
  obtain ⟨link, -, ht⟩ := (addLoaderEndpoint_ok root e.val s []).exec (hadd.observed [])
  have hu := (removeLoaderEndpoint_ok root e.val t []).exec (hremove.observed [])
  obtain rfl : t = _ := congrArg Prod.fst ht
  obtain rfl : u = _ := congrArg Prod.fst hu
  refine ⟨gone_removed _ _, fun e' hne hips => ?_⟩
  exact (untouched_added hne hips).trans (untouched_removed hne hips)

/-- A container on `lxc1` with one address. -/
def webEndpoint : IfaceEndpoint :=
  ⟨.container { id := 1, hostIfaceName := "lxc1", ipv4 := some 9 }, by decide⟩

/-- A container on `lxc2` with another address. -/
def dbEndpoint : IfaceEndpoint :=
  ⟨.container { id := 2, hostIfaceName := "lxc2", ipv4 := some 10 }, by decide⟩

/-- A container is added beside another one and removed, without an error. -/
theorem add_remove_untouched_web : ∃ tr₀ s tr t tr' u,
    Exec (configured bpfRoot) (addLoaderEndpoint bpfRoot dbEndpoint.val).run
      (Backend.empty, .empty) tr₀ (.pure (.ok ())) s ∧
    (∃ info, (IpAddr.v4 10, info) ∈ s.1.endpointInfos) ∧
    Exec (configured bpfRoot) (addLoaderEndpoint bpfRoot webEndpoint.val).run s tr
      (.pure (.ok ())) t ∧
    Exec (configured bpfRoot) (removeLoaderEndpoint bpfRoot webEndpoint.val).run t tr'
      (.pure (.ok ())) u ∧
    Gone bpfRoot webEndpoint.val u ∧ ∀ e' : IfaceEndpoint, e'.val.link ≠ "lxc1" →
      (∀ ip ∈ e'.val.ips, ip ∉ [IpAddr.v4 9]) → Untouched bpfRoot e'.val s u := by
  obtain ⟨tr₀, _, s, hfirst, -⟩ := exists_ok bpfRoot
    (addLoaderEndpoint_succeeds dbEndpoint.val) (Backend.empty, .empty)
  obtain ⟨link, -, hs⟩ :=
    (addLoaderEndpoint_ok bpfRoot dbEndpoint.val _ []).exec (hfirst.observed [])
  have hinfo : ∃ info, (IpAddr.v4 10, info) ∈ s.1.endpointInfos := by
    rw [show s = _ from congrArg Prod.fst hs]
    exact ⟨_, List.mem_append_left _ (mem_insertedInfos.mpr ⟨List.mem_singleton_self _, rfl⟩)⟩
  obtain ⟨tr, _, t, hadd, -⟩ := exists_ok bpfRoot (addLoaderEndpoint_succeeds webEndpoint.val) s
  obtain ⟨tr', _, u, hremove, -⟩ := exists_ok bpfRoot
    (removeLoaderEndpoint_succeeds webEndpoint.val) t
  exact ⟨tr₀, s, tr, t, tr', u, hfirst, hinfo, hadd, hremove, add_remove_untouched hadd hremove⟩

end

end Sarena.Loader
