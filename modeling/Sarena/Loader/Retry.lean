import Sarena.Lib.Run
import Sarena.Loader.Exactness

namespace Sarena.Loader

open Lib

/-!
# Loader — retries converge

An attempt to add or to remove an endpoint may stop at any of its calls.  Whatever it got
through, the update that a success comes to absorbs it: a pin it made is one of those that
are made again, an entry it wrote is overwritten, what it removed would have been removed.

* `Attempt` — one attempt, whatever its calls answer;
* `Absorbs` — calls that an update absorbs;
* `Attempt.absorbed` — an update absorbs the attempts to do it;
* `retry_converges` — after any failed attempts, one without a failed call leaves what it
  would have left at first.
-/

/-- The methods that are retried. -/
inductive Method
  | add
  | remove
  deriving DecidableEq, Repr

/-- The method of the loader. -/
def Method.run (root : PinRoot) : Method → LoaderEndpoint → LoaderM Unit
  | add => addLoaderEndpoint root
  | remove => removeLoaderEndpoint root

/-- What the method comes to, on a link that resolves to `link`. -/
def Method.update (root : PinRoot) (endpoint : LoaderEndpoint) (link : Link) :
    Method → ConfiguredBackend → ConfiguredBackend
  | add => added root endpoint link
  | remove => removed root endpoint

/-- An attempt runs to its end; any of its calls may fail. -/
def Attempt (root : PinRoot) (method : Method) (endpoint : LoaderEndpoint) (s : ConfiguredBackend)
    (result : Except LoaderError Unit) (t : ConfiguredBackend) : Prop :=
  ∃ tr, Exec (configured root) (method.run root endpoint).run s tr (.pure result) t

/-- The update absorbs whatever the call does. -/
def Absorbs (root : PinRoot) (f : ConfiguredBackend → ConfiguredBackend) (β : Type)
    (op : BackendOp β) : Prop :=
  ∀ s b t, configured root β op s b t → f t = f s

/-! ### What the updates absorb -/

section

variable {root : PinRoot} {endpoint : LoaderEndpoint} {persist : EndpointPersist} {link : Link}
  {s : ConfiguredBackend}

/-- A pin of the endpoint is made again. -/
theorem added_pin {paths : List Path} (h : ∀ p ∈ paths, p ∈ root.endpointPins endpoint.key) :
    added root endpoint link (s.1.pin paths, s.2) = added root endpoint link s := by
  have hsub : paths.toFinset ⊆ (root.endpointPins endpoint.key).toFinset :=
    fun p hp => List.mem_toFinset.mpr (h p (List.mem_toFinset.mp hp))
  refine Prod.ext (Backend.ext ?_ rfl) rfl
  show s.1.pins ∪ paths.toFinset ∪ _ = s.1.pins ∪ _
  rw [Finset.union_assoc, Finset.union_eq_right.mpr hsub]

/-- The configuration is written again. -/
theorem added_insertConfig (config : EndpointConfig) :
    added root (.container persist) link (s.1, s.2.insert persist.hostIfaceName config) =
      added root (.container persist) link s :=
  Prod.ext rfl (KeyMap.insert_insert _ _ _ _)

/-- The entries of the endpoint are written again. -/
theorem added_insertInfos (info : EndpointInfo) :
    added root (.container persist) link (persist.ips.foldl (Backend.insertInfo · info) s.1, s.2) =
      added root (.container persist) link s := by
  refine Prod.ext (Backend.ext ?_ ?_) rfl
  · exact congrArg (· ∪ _) (pins_insertInfos info persist.ips s.1)
  · show _ ++ List.filter _ (persist.ips.foldl (Backend.insertInfo · info) s.1).endpointInfos = _
    rw [endpointInfos_insertInfos, List.filter_append, filter_insertedInfos, List.nil_append,
      List.filter_filter]
    simp only [Bool.and_self]
    rfl

/-- An entry of the endpoint would have been removed. -/
theorem removed_removeInfo {ip : IpAddr} (h : ip ∈ endpoint.ips) :
    removed root endpoint (s.1.removeInfo ip, s.2) = removed root endpoint s := by
  refine Prod.ext (Backend.ext rfl ?_) rfl
  show (s.1.endpointInfos.filter _).filter _ = s.1.endpointInfos.filter _
  rw [filter_infos_cons]
  refine List.filter_congr fun entry _ => ?_
  simp only [List.mem_cons, not_or, decide_eq_decide]
  exact and_iff_right_of_imp fun hnot heq => hnot (heq ▸ h)

/-- The programs of the endpoint would have been removed. -/
theorem removed_removeDir :
    removed root endpoint (s.1.removeDir (root.endpointLinkDir endpoint.kind endpoint.link), s.2) =
      removed root endpoint s := by
  refine Prod.ext (Backend.ext ?_ rfl) rfl
  show (s.1.pins.filter _).filter _ = s.1.pins.filter _
  rw [Finset.filter_filter]
  refine Finset.filter_congr fun p _ => and_iff_right_of_imp fun hnot hunder => hnot (.inl hunder)

/-- A map of the endpoint would have been removed. -/
theorem removed_unpin {path : Path} (h : path ∈ root.mapPins endpoint.key) :
    removed root endpoint (s.1.unpin path, s.2.forget root [path]) = removed root endpoint s := by
  refine Prod.ext (Backend.ext ?_ rfl) ?_
  · ext p
    show p ∈ (s.1.pins.erase path).filter _ ↔ p ∈ s.1.pins.filter _
    rw [Finset.mem_filter, Finset.mem_filter, Finset.mem_erase]
    refine and_congr_left fun hnot => and_iff_right ?_
    rintro rfl
    exact hnot (.inr h)
  · funext link
    show (if _ then none else if _ then none else _) = if _ then none else _
    split_ifs with hmem hpath
    · rfl
    · rw [List.mem_singleton.mp hpath] at hmem
      exact absurd h hmem
    · rfl

end

/-! ### Attempts -/

section

variable {root : PinRoot} {method : Method} {endpoint : LoaderEndpoint} {link : Link}
  {s t u : ConfiguredBackend}

/-- A call that fails changes nothing, so only its success counts. -/
theorem absorbs_of_ok {α : Type} {op : BackendOp (Except LoaderError α)}
    {f : ConfiguredBackend → ConfiguredBackend}
    (herror : ∀ e s t, configured root _ op s (.error e) t → t = s)
    (hok : ∀ a s t, configured root _ op s (.ok a) t → f t = f s) : Absorbs root f _ op := by
  intro s b t h
  cases b with
  | ok a => exact hok a s t h
  | error e => rw [herror e s t h]

/-- A program of absorbed calls is absorbed. -/
theorem keeps_of_absorbs {α : Type} {p : Prog BackendOp α}
    {f : ConfiguredBackend → ConfiguredBackend} (hp : p.Uses (Absorbs root f))
    (ht : f t = f s) : p.Keeps (configured root) (fun t => f t = f s) (fun _ _ => True) t :=
  hp.keeps _ (fun _ _ _ _ _ hop hsem hs => (hop _ _ _ hsem).trans hs) ht

theorem attachHooks_absorbs (resolved : Link) {hooks : List HookSpec}
    (hhooks : ∀ hook ∈ hooks, hook ∈ endpoint.kind.hooks) :
    (attachHooks resolved (root.endpointLinkDir endpoint.kind endpoint.link) hooks).Uses
      (Absorbs root (added root endpoint link)) := by
  induction hooks with
  | nil => trivial
  | cons hook rest ih =>
    rw [attachHooks, Prog.perform_bind]
    refine ⟨absorbs_of_ok (fun _ _ _ h => Prod.ext h.1 h.2) ?_, fun result => ?_⟩
    · rintro _ s ⟨t, configs⟩ ⟨rfl, rfl⟩
      refine added_pin fun p hp => ?_
      rw [List.mem_singleton.mp hp, PinRoot.endpointPins, List.mem_append]
      exact .inr (List.mem_map_of_mem (hhooks hook List.mem_cons_self))
    · refine Prog.uses_bind (ih fun hook hh => hhooks hook (List.mem_cons_of_mem _ hh)) ?_
      intro failures
      cases result <;> trivial

theorem fillMaps_absorbs {resolved : Link} (hname : resolved.ifname = endpoint.link) :
    (fillMaps endpoint resolved).run.Uses (Absorbs root (added root endpoint link)) := by
  cases endpoint with
  | container persist =>
    have hset : Absorbs root (added root (.container persist) link) _
        (.setEndpointConfig resolved.ifname (LoaderEndpoint.config persist)) := by
      refine absorbs_of_ok (fun _ _ _ h => Prod.ext h.1 h.2) ?_
      rintro _ s ⟨t, configs⟩ ⟨rfl, rfl⟩
      show added root _ link (s.1, s.2.insert resolved.ifname _) = _
      rw [hname]
      exact added_insertConfig _
    have hinsert : Absorbs root (added root (.container persist) link) _
        (.upsertEndpointInfo persist (LoaderEndpoint.info persist resolved)) := by
      refine absorbs_of_ok (fun _ _ _ h => Prod.ext h.1 h.2) ?_
      rintro _ s ⟨t, configs⟩ ⟨rfl, rfl⟩
      exact added_insertInfos _
    exact Prog.uses_try ⟨hset, fun _ => trivial⟩ fun _ => ⟨hinsert, fun _ => trivial⟩
  | host _ => trivial
  | netDev _ => trivial
  | overlay _ => trivial
  | wireguard _ => trivial

/-- **Step.** Adding an endpoint, on whatever link, is absorbed by its update. -/
theorem addLoaderEndpoint_absorbed (endpoint : LoaderEndpoint) (link : Link)
    (s : ConfiguredBackend) :
    (addLoaderEndpoint root endpoint).run.Keeps (configured root)
      (fun t => added root endpoint link t = added root endpoint link s) (fun _ _ => True) s := by
  refine ⟨rfl, fun result t ht => ?_⟩
  obtain ⟨t, configs⟩ := t
  cases result with
  | error e =>
    obtain ⟨rfl, rfl⟩ := ht
    exact ⟨rfl, trivial⟩
  | ok resolved =>
    obtain ⟨⟨hname, rfl⟩, rfl⟩ := ht
    -- The configuration is written under the name the link resolved to, which is its own.
    refine keeps_of_absorbs ?_ rfl
    refine Prog.uses_try ⟨absorbs_of_ok (fun _ _ _ h => Prod.ext h.1 h.2) ?_, fun _ => trivial⟩
      fun _ => ?_
    · rintro _ s ⟨t, configs⟩ ⟨rfl, rfl⟩
      refine added_pin fun p hp => ?_
      rw [map_snd_instanceMaps] at hp
      exact List.mem_append_left _ hp
    refine Prog.uses_try (fillMaps_absorbs hname) fun _ => ?_
    refine Prog.uses_try ?_ fun failures => ?_
    · exact Prog.uses_bind (attachHooks_absorbs resolved fun _ hh => hh) fun _ => trivial
    · by_cases hnone : failures = []
      · rw [if_neg (not_not.mpr hnone)]
        trivial
      · rw [if_pos hnone]
        trivial

theorem removeLoaderEndpoint_absorbs (endpoint : LoaderEndpoint) :
    (removeLoaderEndpoint root endpoint).run.Uses (Absorbs root (removed root endpoint)) := by
  refine Prog.uses_try ?_ fun _ => ?_
  · cases endpoint with
    | container persist =>
      refine Prog.uses_forM fun ip hip => ⟨absorbs_of_ok (fun _ _ _ h => Prod.ext h.1 h.2) ?_,
        fun _ => trivial⟩
      rintro _ s ⟨t, configs⟩ ⟨rfl, rfl⟩
      exact removed_removeInfo hip
    | host _ => trivial
    | netDev _ => trivial
    | overlay _ => trivial
    | wireguard _ => trivial
  refine Prog.uses_try ⟨fun s b t h => congrArg _ (Prod.ext h.1 h.2), fun _ => trivial⟩ fun _ => ?_
  refine Prog.uses_try ⟨absorbs_of_ok (fun _ _ _ h => Prod.ext h.1 h.2) ?_, fun _ => trivial⟩
    fun _ => ?_
  · rintro _ s ⟨t, configs⟩ ⟨rfl, rfl⟩
    exact removed_removeDir
  refine Prog.uses_forM fun map hmap => ⟨absorbs_of_ok (fun _ _ _ h => Prod.ext h.1 h.2) ?_,
    fun _ => trivial⟩
  rintro _ s ⟨t, configs⟩ ⟨rfl, rfl⟩
  exact removed_unpin (List.mem_map_of_mem hmap)

/-- **Step.** An update absorbs every attempt to do it. -/
theorem Attempt.absorbed {result : Except LoaderError Unit}
    (h : Attempt root method endpoint s result t) (link : Link) :
    method.update root endpoint link t = method.update root endpoint link s := by
  obtain ⟨tr, hexec⟩ := h
  cases method with
  | add => exact (Prog.Keeps.exec (addLoaderEndpoint_absorbed endpoint link s) hexec).inv
  | remove =>
    exact (removeLoaderEndpoint_absorbs endpoint).exec
      (fun t => removed root endpoint t = removed root endpoint s)
      (fun _ _ _ _ _ hop hsem hs => (hop _ _ _ hsem).trans hs) hexec rfl

/-- An attempt without a failed call is the update, on the link it resolved. -/
theorem exec_eq_update {tr : List (Answered BackendOp)} {result : Except LoaderError Unit}
    (h : Exec (configured root) (method.run root endpoint).run s tr (.pure result) t)
    (hcalm : ∀ call ∈ tr, ¬ Failed call) : result = .ok () ∧ ∃ link,
      t = method.update root endpoint link s ∧ (method = .add → resolvedLinks tr = [link]) := by
  cases method with
  | add =>
    obtain ⟨_, rfl⟩ := (addLoaderEndpoint_succeeds endpoint).exec h hcalm
    obtain ⟨link, -, ht⟩ := (addLoaderEndpoint_ok root endpoint s []).exec (h.observed [])
    exact ⟨rfl, link, congrArg Prod.fst ht, fun _ => congrArg Prod.snd ht⟩
  | remove =>
    obtain ⟨_, rfl⟩ := (removeLoaderEndpoint_succeeds endpoint).exec h hcalm
    have ht := (removeLoaderEndpoint_ok root endpoint s []).exec (h.observed [])
    exact ⟨rfl, ⟨endpoint.link, 0⟩, congrArg Prod.fst ht, nofun⟩

/-- **Retries converge.** After any attempts, whatever calls of them failed, an attempt none
    of whose calls fails returns `Ok` and leaves what a single such attempt leaves that
    resolves the link alike. -/
theorem retry_converges {t' : ConfiguredBackend} (run : Run (Attempt root method endpoint) s u)
    {tr tr' : List (Answered BackendOp)} {last single : Except LoaderError Unit}
    (hlast : Exec (configured root) (method.run root endpoint).run u tr (.pure last) t)
    (hcalm : ∀ call ∈ tr, ¬ Failed call)
    (hsingle : Exec (configured root) (method.run root endpoint).run s tr' (.pure single) t')
    (hcalm' : ∀ call ∈ tr', ¬ Failed call) (hlinks : resolvedLinks tr = resolvedLinks tr') :
    last = .ok () ∧ t = t' := by
  obtain ⟨hok, link, ht, hlink⟩ := exec_eq_update hlast hcalm
  obtain ⟨-, link', ht', hlink'⟩ := exec_eq_update hsingle hcalm'
  refine ⟨hok, ?_⟩
  -- The last attempt absorbs what the earlier ones left.
  have habsorbed : method.update root endpoint link u = method.update root endpoint link s :=
    run.invariant (J := fun v => method.update root endpoint link v =
      method.update root endpoint link s) rfl fun _ _ _ h hs => (h.absorbed link).trans hs
  have hsame : method.update root endpoint link s = method.update root endpoint link' s := by
    cases method with
    | add =>
      rw [hlink rfl, hlink' rfl] at hlinks
      rw [List.singleton_injective hlinks]
    | remove => rfl
  rw [ht, habsorbed, hsame, ht']

end

/-- From every backend `lxcEndpoint` can be added without a failed call. -/
theorem exists_add_lxc (s : ConfiguredBackend) : ∃ tr t, Exec (configured bpfRoot)
    (Method.add.run bpfRoot lxcEndpoint.val).run s tr (.pure (.ok ())) t ∧
      (∀ call ∈ tr, ¬ Failed call) ∧ resolvedLinks tr = [⟨"lxc1", 7⟩] := by
  obtain ⟨t, h⟩ : ∃ t, Exec Backend.sem (Method.add.run bpfRoot lxcEndpoint.val).run s.1 _
      (.pure (.ok ())) t :=
    ⟨_, .step _ _ _ (Except.ok ⟨"lxc1", 7⟩) _ _ _ _ (by exact ⟨rfl, rfl⟩) <|
      .step _ _ _ (Except.ok ()) _ _ _ _ (by exact rfl) <|
      .step _ _ _ (Except.ok ()) _ _ _ _ (by exact rfl) <|
      .step _ _ _ (Except.ok ()) _ _ _ _ (by exact rfl) <|
      .step _ _ _ (Except.ok ()) _ _ _ _ (by exact rfl) <|
      .step _ _ _ (Except.ok ()) _ _ _ _ (by exact rfl) (.refl _ _)⟩
  refine ⟨_, _, h.observed s.2, ?_, rfl⟩
  simp only [List.forall_mem_cons]
  exact ⟨id, id, id, id, id, id, by simp⟩

/-- The second hook fails to attach, and the next attempt leaves what the first would have. -/
theorem retry_converges_lxc : ∃ u t,
    Attempt bpfRoot .add lxcEndpoint.val (Backend.empty, .empty)
      (.error (.hooksFailed [⟨"to_container", "no such device"⟩])) u ∧
    Attempt bpfRoot .add lxcEndpoint.val u (.ok ()) t ∧
    Attempt bpfRoot .add lxcEndpoint.val (Backend.empty, .empty) (.ok ()) t := by
  have hfailed : ∃ u, Attempt bpfRoot .add lxcEndpoint.val (Backend.empty, .empty)
      (.error (.hooksFailed [⟨"to_container", "no such device"⟩])) u :=
    ⟨_, _, Exec.observed (.step _ _ _ (Except.ok ⟨"lxc1", 7⟩) _ _ _ _ (by exact ⟨rfl, rfl⟩) <|
      .step _ _ _ (Except.ok ()) _ _ _ _ (by exact rfl) <|
      .step _ _ _ (Except.ok ()) _ _ _ _ (by exact rfl) <|
      .step _ _ _ (Except.ok ()) _ _ _ _ (by exact rfl) <|
      .step _ _ _ (Except.ok ()) _ _ _ _ (by exact rfl) <|
      .step _ _ _ (Except.error (LoaderError.backend "no such device")) _ _ _ _
        (by exact rfl) (.refl _ _)) _⟩
  obtain ⟨u, hfailed⟩ := hfailed
  obtain ⟨tr, t, hlast, hcalm, hlink⟩ := exists_add_lxc u
  obtain ⟨tr', t', hsingle, hcalm', hlink'⟩ := exists_add_lxc (Backend.empty, .empty)
  obtain ⟨-, rfl⟩ := retry_converges (.snoc _ .nil _ u hfailed) hlast hcalm hsingle hcalm'
    (hlink.trans hlink'.symm)
  exact ⟨u, t, hfailed, ⟨tr, hlast⟩, ⟨tr', hsingle⟩⟩

end Sarena.Loader
