import Mathlib.Data.Finset.Preimage
import Sarena.Lib.KeyMap
import Sarena.Loader.Reconcile

namespace Sarena.Loader

open Lib

/-!
# Loader — what add and remove come to

`add_loader_endpoint` and `remove_loader_endpoint` on a backend with its pins, its `lxc_map`
and the configuration of every link.  Each of them, when it succeeds, comes to one update of
the whole backend, and it succeeds when none of its calls fails.

* `configured` — the calls on such a backend;
* `added`, `removed` — the two updates;
* `addLoaderEndpoint_ok`, `removeLoaderEndpoint_ok` — a success is the update;
* `addLoaderEndpoint_ends`, `detachLoaderEndpoint_ends` — what that is of the pins alone;
* `addLoaderEndpoint_succeeds`, `removeLoaderEndpoint_succeeds` — only a failed call keeps
  them from it; `exists_ok` — such an attempt exists from every backend.
-/

/-! ### The `lxc_map` -/

/-- The entries that `upsert_endpoint_info` leaves for the addresses of an endpoint. -/
def insertedInfos (ips : List IpAddr) (info : EndpointInfo) : List (IpAddr × EndpointInfo) :=
  (ips.foldl (Backend.insertInfo · info) .empty).endpointInfos

section

variable {ips : List IpAddr} {info : EndpointInfo}

/-- Taking out one address after the others. -/
theorem filter_infos_cons (infos : List (IpAddr × EndpointInfo)) (ip : IpAddr)
    (rest : List IpAddr) :
    (infos.filter fun entry => entry.1 ≠ ip).filter (fun entry => entry.1 ∉ rest) =
      infos.filter fun entry => entry.1 ∉ ip :: rest := by
  rw [List.filter_filter]
  refine List.filter_congr fun entry _ => ?_
  simp [Bool.and_comm]

/-- Taking out addresses leaves the entries of others. -/
theorem filter_infos_disjoint {ips ips' : List IpAddr} (h : ∀ ip ∈ ips', ip ∉ ips)
    (infos : List (IpAddr × EndpointInfo)) :
    (infos.filter fun entry => entry.1 ∉ ips).filter (·.1 ∈ ips') =
      infos.filter (·.1 ∈ ips') := by
  rw [List.filter_filter]
  refine List.filter_congr fun entry _ => ?_
  simpa using h entry.1

/-- Entries of other addresses stay behind the new ones. -/
theorem endpointInfos_insertInfos (ips : List IpAddr) (info : EndpointInfo) (s : Backend) :
    (ips.foldl (Backend.insertInfo · info) s).endpointInfos =
      insertedInfos ips info ++ s.endpointInfos.filter fun entry => entry.1 ∉ ips := by
  -- One address: the entry it gets is in front, unless a later insertion replaces it.
  have hone : ∀ ip (rest : List IpAddr) (s : Backend),
      (s.insertInfo info ip).endpointInfos.filter (fun entry => entry.1 ∉ rest) =
        [(ip, info)].filter (fun entry => entry.1 ∉ rest) ++
          s.endpointInfos.filter fun entry => entry.1 ∉ ip :: rest := by
    intro ip rest s
    rw [← filter_infos_cons, ← List.filter_append]
    rfl
  induction ips generalizing s with
  | nil => simp [insertedInfos, Backend.empty]
  | cons ip rest ih =>
    rw [insertedInfos, List.foldl_cons, List.foldl_cons, ih, ih, hone, hone]
    simp [Backend.empty]

theorem mem_insertedInfos {ip : IpAddr} {i : EndpointInfo} :
    (ip, i) ∈ insertedInfos ips info ↔ ip ∈ ips ∧ i = info := by
  induction ips with
  | nil => simp [insertedInfos, Backend.empty]
  | cons a rest ih =>
    rw [insertedInfos, List.foldl_cons, endpointInfos_insertInfos, List.mem_append, ih]
    simp only [Backend.insertInfo, Backend.removeInfo, Backend.empty, List.filter_nil,
      List.mem_filter, Prod.mk.injEq, List.mem_cons]
    by_cases hrest : ip ∈ rest
    · simp [hrest]
    · simp [hrest]

/-- Inserting again replaces what was inserted before. -/
theorem filter_insertedInfos (ips : List IpAddr) (info : EndpointInfo) :
    (insertedInfos ips info).filter (fun entry => entry.1 ∉ ips) = [] := by
  rw [List.filter_eq_nil_iff]
  rintro ⟨ip, i⟩ hmem
  simp [(mem_insertedInfos.mp hmem).1]

end

/-! ### The backend with its configurations -/

/-- The configurations of the links, which their pinned `endpoint_config` maps hold. -/
abbrev LinkConfigs := KeyMap String EndpointConfig

/-- The links whose `endpoint_config` map is not pinned at one of the paths keep their
    configuration. -/
def LinkConfigs.forget (root : PinRoot) (paths : List Path) (configs : LinkConfigs) :
    LinkConfigs :=
  fun link => if root.perEndpointMapDir .endpointConfigMap link ∈ paths then none else configs link

/-- What an answered call does to the configurations. -/
def noteConfig (root : PinRoot) (configs : LinkConfigs) : Answered BackendOp → LinkConfigs
  | ⟨.setEndpointConfig link config, .ok ()⟩ => configs.insert link config
  | ⟨.unpinMap path, .ok ()⟩ => configs.forget root [path]
  | _ => configs

/-- The pins, the `lxc_map` and the configurations. -/
abbrev ConfiguredBackend := Backend × LinkConfigs

/-- What a call may answer and leave behind: a call that fails changes nothing. -/
def configured (root : PinRoot) : Sem BackendOp ConfiguredBackend :=
  observed Backend.sem (noteConfig root)

/-- Collects the links that were resolved. -/
def noteLink (links : List Link) : Answered BackendOp → List Link
  | ⟨.resolveLink _, .ok link⟩ => links ++ [link]
  | _ => links

/-- The links that the calls of a trace resolved, in order. -/
def resolvedLinks (tr : List (Answered BackendOp)) : List Link := tr.foldl noteLink []

/-- The calls, with the resolved links noted beside the backend. -/
abbrev noted (root : PinRoot) : Sem BackendOp (ConfiguredBackend × List Link) :=
  observed (configured root) noteLink

/-! ### The two updates -/

namespace LoaderEndpoint

/-- The addresses of an endpoint: those of its container. -/
def ips : LoaderEndpoint → List IpAddr
  | container persist => persist.ips
  | _ => []

/-- The `lxc_map` entry that `write_container_maps` makes. -/
def info (persist : EndpointPersist) (link : Link) : EndpointInfo where
  endpointId := persist.id
  ifIndex := link.ifindex
  containerMac := persist.containerMac
  hostMac := persist.hostMac

/-- The configuration that `write_container_maps` makes. -/
def config (persist : EndpointPersist) : EndpointConfig where
  endpointId := persist.id
  hostMac := persist.hostMac
  ipv4 := persist.ipv4
  ipv6 := persist.ipv6

/-- The `lxc_map` once the maps of the endpoint are filled in. -/
def fillInfos (link : Link) (infos : List (IpAddr × EndpointInfo)) :
    LoaderEndpoint → List (IpAddr × EndpointInfo)
  | container persist => insertedInfos persist.ips (info persist link) ++
      infos.filter fun entry => entry.1 ∉ persist.ips
  | _ => infos

/-- The configurations once the maps of the endpoint are filled in. -/
def fillConfigs (configs : LinkConfigs) : LoaderEndpoint → LinkConfigs
  | container persist => configs.insert persist.hostIfaceName (config persist)
  | _ => configs

end LoaderEndpoint

/-- What adding the endpoint comes to, on a link that resolves to `link`. -/
def added (root : PinRoot) (endpoint : LoaderEndpoint) (link : Link) (s : ConfiguredBackend) :
    ConfiguredBackend :=
  (⟨s.1.pins ∪ (root.endpointPins endpoint.key).toFinset,
    endpoint.fillInfos link s.1.endpointInfos⟩, endpoint.fillConfigs s.2)

instance (root : PinRoot) (endpoint : LoaderEndpointKind × String) (path : Path) :
    Decidable (root.Takes endpoint path) :=
  inferInstanceAs (Decidable (_ ∨ _))

/-- What removing the endpoint comes to. -/
def removed (root : PinRoot) (endpoint : LoaderEndpoint) (s : ConfiguredBackend) :
    ConfiguredBackend :=
  (⟨s.1.pins.filter fun path => ¬ root.Takes endpoint.key path,
    s.1.endpointInfos.filter fun entry => entry.1 ∉ endpoint.ips⟩,
    s.2.forget root (root.mapPins endpoint.key))

/-! ### A success is the update -/

section

attribute [ext] Backend

variable {root : PinRoot} {s : ConfiguredBackend} {w : List Link}

/-- A method that, when it returns `Ok`, has done `f` to the backend. -/
def Does {α : Type} (root : PinRoot) (p : LoaderM α) (f : ConfiguredBackend → ConfiguredBackend)
    (s : ConfiguredBackend) (w : List Link) : Prop :=
  p.run.Guards (noted root) (fun _ _ _ => True)
    (Prog.orError (fun _ t => t = (f s, w)) fun _ _ => True) (s, w)

/-- A call that does `f` when it succeeds. -/
theorem does_call {α : Type} {op : BackendOp (Except LoaderError α)}
    {f : ConfiguredBackend → ConfiguredBackend}
    (h : ∀ a t, Backend.sem _ op s.1 (.ok a) t →
      ((t, noteConfig root s.2 ⟨op, .ok a⟩), noteLink w ⟨op, .ok a⟩) = (f s, w)) :
    Does root (call op) f s w := by
  refine ⟨trivial, fun b t hsem => ?_⟩
  obtain ⟨⟨t, configs⟩, links⟩ := t
  obtain ⟨⟨ht, hconfigs⟩, hlinks⟩ := hsem
  cases b with
  | ok a =>
    obtain rfl : configs = _ := hconfigs
    obtain rfl : links = _ := hlinks
    exact h a t ht
  | error e => trivial

theorem Does.bind {α β : Type} {p : LoaderM α} {q : α → LoaderM β}
    {f g : ConfiguredBackend → ConfiguredBackend} (hp : Does root p f s w)
    (hq : ∀ a, Does root (q a) g (f s) w) : Does root (p >>= q) (g ∘ f) s w := by
  refine Prog.guards_try _ hp ?_
  rintro a _ rfl
  exact hq a

/-- A method, by what it comes to. -/
theorem Does.congr {α : Type} {p : LoaderM α} {f g : ConfiguredBackend → ConfiguredBackend}
    (hp : Does root p f s w) (h : f s = g s) : Does root p g s w := by
  rw [Does, ← h]
  exact hp

/-- A loop of such methods. -/
theorem Does.forM {α : Type} {p : α → LoaderM PUnit}
    {f : α → ConfiguredBackend → ConfiguredBackend} (hp : ∀ a s, Does root (p a) (f a) s w)
    (xs : List α) (s : ConfiguredBackend) :
    Does root (xs.forM p) (fun s => xs.foldl (fun s a => f a s) s) s w := by
  induction xs generalizing s with
  | nil => exact rfl
  | cons a rest ih =>
    rw [List.forM_eq_forM, List.forM_cons]
    exact (hp a s).bind fun _ => ih (f a s)

/-- The pins of more than one step. -/
theorem pin_pin (s : Backend) (paths paths' : List Path) :
    (s.pin paths).pin paths' = s.pin (paths ++ paths') := by
  rw [Backend.pin, Backend.pin, Backend.pin, List.toFinset_append, Finset.union_assoc]

/-- When no hook fails, every one of them is pinned, and nothing else has happened. -/
theorem attachHooks_ok (resolved : Link) (linkDir : Path) (hooks : List HookSpec)
    (hrequired : ∀ hook ∈ hooks, hook.required = true) (s : ConfiguredBackend) (w : List Link) :
    (attachHooks resolved linkDir hooks).Guards (noted root) (fun _ _ _ => True)
      (fun failures t => failures = [] →
        t = ((s.1.pin (hooks.map fun hook => linkDir.join hook.programName), s.2), w))
      (s, w) := by
  induction hooks generalizing s with
  | nil =>
    intro _
    simp [Backend.pin]
  | cons hook rest ih =>
    rw [attachHooks, Prog.perform_bind]
    refine ⟨trivial, fun result t ht => ?_⟩
    obtain ⟨⟨t, configs⟩, links⟩ := t
    obtain ⟨⟨ht, hconfigs⟩, hlinks⟩ := ht
    cases result with
    | ok _ =>
      obtain rfl : t = _ := ht
      obtain rfl : configs = s.2 := hconfigs
      obtain rfl : links = w := hlinks
      refine Prog.guards_bind (ih (fun h hh => hrequired h (List.mem_cons_of_mem _ hh)) _) ?_
      intro failures u hu hnone
      rw [hu hnone, pin_pin]
      rfl
    | error e =>
      refine Prog.guards_bind (Prog.guards_true _ _) fun failures u _ hnone => ?_
      rw [if_pos (hrequired hook List.mem_cons_self)] at hnone
      cases hnone

/-- The maps of the endpoint are filled in. -/
theorem fillMaps_ok (endpoint : LoaderEndpoint) (link : Link) (hlink : link.ifname = endpoint.link)
    (s : ConfiguredBackend) (w : List Link) :
    Does root (fillMaps endpoint link)
      (fun s => (⟨s.1.pins, endpoint.fillInfos link s.1.endpointInfos⟩, endpoint.fillConfigs s.2))
      s w := by
  cases endpoint with
  | container persist =>
    have hset : ∀ s, Does root
        (call (.setEndpointConfig link.ifname (LoaderEndpoint.config persist)))
        (fun s => (s.1, s.2.insert link.ifname (LoaderEndpoint.config persist))) s w := by
      refine fun s => does_call ?_
      rintro _ _ rfl
      rfl
    have hinsert : ∀ s, Does root
        (call (.upsertEndpointInfo persist (LoaderEndpoint.info persist link)))
        (fun s => (persist.ips.foldl (Backend.insertInfo · (LoaderEndpoint.info persist link)) s.1,
          s.2)) s w := by
      refine fun s => does_call ?_
      rintro _ _ rfl
      rfl
    refine ((hset s).bind fun _ => hinsert _).congr (Prod.ext (Backend.ext ?_ ?_) ?_)
    · exact pins_insertInfos _ _ _
    · exact endpointInfos_insertInfos _ _ _
    · exact congrArg (s.2.insert · _) hlink
  | host _ => exact rfl
  | netDev _ => exact rfl
  | overlay _ => exact rfl
  | wireguard _ => exact rfl

/-- **Add.** An endpoint that is added without an error is added on its resolved link. -/
theorem addLoaderEndpoint_ok (root : PinRoot) (endpoint : LoaderEndpoint) (s : ConfiguredBackend)
    (w : List Link) :
    (addLoaderEndpoint root endpoint).run.Guards (noted root) (fun _ _ _ => True)
      (Prog.orError (fun _ t => ∃ link : Link, link.ifname = endpoint.link ∧
        t = (added root endpoint link s, w ++ [link])) fun _ _ => True) (s, w) := by
  refine Prog.guards_try (fun (link : Link) t => link.ifname = endpoint.link ∧ t = (s, w ++ [link]))
    ?_ ?_
  · refine ⟨trivial, fun result t ht => ?_⟩
    cases result with
    | ok link =>
      obtain ⟨⟨t, configs⟩, links⟩ := t
      obtain ⟨⟨⟨hname, ht⟩, hconfigs⟩, hlinks⟩ := ht
      exact ⟨hname, Prod.ext (Prod.ext ht hconfigs) hlinks⟩
    | error e => trivial
  rintro link _ ⟨hname, rfl⟩
  refine Prog.Guards.imp_try (R := fun _ t => t = (added root endpoint link s, w ++ [link]))
    (fun _ _ ht => ⟨link, hname, ht⟩) (fun _ _ h => h) ?_
  have hload : Does root (call (.loadInstance endpoint.link
      (instanceMaps root endpoint.kind endpoint.link)))
      (fun s => (s.1.pin (root.globalPins ++ root.mapPins endpoint.key), s.2)) s (w ++ [link]) := by
    refine does_call ?_
    rintro _ _ rfl
    rw [map_snd_instanceMaps]
    rfl
  refine Prog.guards_try _ hload ?_
  rintro _ _ rfl
  refine Prog.guards_try _ (fillMaps_ok endpoint link hname _ _) ?_
  rintro _ _ rfl
  refine Prog.guards_try _ (Prog.guards_lift (attachHooks_ok link _ _
    (fun _ h => LoaderEndpointKind.required_of_mem h) _ _)) fun failures t ht => ?_
  by_cases hnone : failures = []
  · rw [if_neg (not_not.mpr hnone)]
    refine (ht hnone).trans ?_
    refine Prod.ext (Prod.ext (Backend.ext ?_ rfl) rfl) rfl
    show s.1.pins ∪ _ ∪ _ = s.1.pins ∪ _
    rw [Finset.union_assoc, ← List.toFinset_append]
    rfl
  · rw [if_pos hnone]
    trivial

/-- The addresses of the endpoint leave the `lxc_map`. -/
theorem removeInfos_ok (endpoint : LoaderEndpoint) (s : ConfiguredBackend) (w : List Link) :
    Does root (removeInfos endpoint) (fun s =>
      ({ s.1 with endpointInfos := s.1.endpointInfos.filter fun entry => entry.1 ∉ endpoint.ips },
        s.2)) s w := by
  have hnone : ∀ s : ConfiguredBackend, s = (⟨s.1.pins,
      s.1.endpointInfos.filter fun entry => entry.1 ∉ ([] : List IpAddr)⟩, s.2) := by
    intro s
    simp
  cases endpoint with
  | container persist =>
    have hround : ∀ ip s, Does root (call (.removeEndpointInfo ip))
        (fun s => (s.1.removeInfo ip, s.2)) s w := by
      intro ip s
      refine does_call ?_
      rintro _ _ rfl
      rfl
    refine (Does.forM hround persist.ips s).congr ?_
    show List.foldl _ s persist.ips = ({ s.1 with
      endpointInfos := s.1.endpointInfos.filter fun entry => entry.1 ∉ persist.ips }, s.2)
    induction persist.ips generalizing s with
    | nil => exact hnone s
    | cons ip rest ih =>
      rw [List.foldl_cons, ih]
      exact Prod.ext (Backend.ext rfl (filter_infos_cons _ ip rest)) rfl
  | host _ => exact congrArg (·, w) (hnone s)
  | netDev _ => exact congrArg (·, w) (hnone s)
  | overlay _ => exact congrArg (·, w) (hnone s)
  | wireguard _ => exact congrArg (·, w) (hnone s)

/-- What unpinning maps one after the other comes to. -/
theorem foldl_unpin (root : PinRoot) (paths : List Path) (s : ConfiguredBackend) :
    paths.foldl (fun s path => (s.1.unpin path, s.2.forget root [path])) s =
      ({ s.1 with pins := s.1.pins.filter (· ∉ paths) }, s.2.forget root paths) := by
  induction paths generalizing s with
  | nil =>
    refine Prod.ext (Backend.ext ?_ rfl) ?_
    · simp
    · funext link
      simp [LinkConfigs.forget]
  | cons path rest ih =>
    rw [List.foldl_cons, ih]
    refine Prod.ext (Backend.ext ?_ rfl) ?_
    · ext p
      simp only [Backend.unpin, Finset.mem_filter, Finset.mem_erase, List.mem_cons, not_or]
      tauto
    · funext link
      simp only [LinkConfigs.forget, List.mem_cons, List.not_mem_nil, or_false]
      split_ifs <;> tauto

/-- **Detach.** -/
theorem detachLoaderEndpoint_ok (root : PinRoot) (kind : LoaderEndpointKind) (link : String)
    (s : ConfiguredBackend) (w : List Link) :
    Does root (detachLoaderEndpoint root kind link) (fun s =>
      ({ s.1 with pins := s.1.pins.filter fun path => ¬ root.Takes (kind, link) path },
        s.2.forget root (root.mapPins (kind, link)))) s w := by
  have hstop : Does root (perform' (.stopLogging link)) id s w := by
    refine ⟨trivial, ?_⟩
    rintro _ ⟨⟨t, configs⟩, links⟩ ⟨⟨ht, hconfigs⟩, hlinks⟩
    exact Prod.ext (Prod.ext ht hconfigs) hlinks
  have hdir : ∀ s, Does root (call (.removePinDir (root.endpointLinkDir kind link)))
      (fun s => (s.1.removeDir (root.endpointLinkDir kind link), s.2)) s w := by
    intro s
    refine does_call ?_
    rintro _ _ rfl
    rfl
  have hmap : ∀ map s, Does root (call (.unpinMap (root.perEndpointMapDir map link)))
      (fun s => (s.1.unpin (root.perEndpointMapDir map link),
        s.2.forget root [root.perEndpointMapDir map link])) s w := by
    intro map s
    refine does_call ?_
    rintro _ _ rfl
    rfl
  refine (hstop.bind fun _ => (hdir _).bind fun _ => Does.forM hmap _ _).congr ?_
  show kind.perEndpointMapNames.foldl _ (s.1.removeDir _, s.2) = _
  have hfold := foldl_unpin root (root.mapPins (kind, link))
    (s.1.removeDir (root.endpointLinkDir kind link), s.2)
  rw [PinRoot.mapPins, List.foldl_map] at hfold
  refine hfold.trans (Prod.ext (Backend.ext ?_ rfl) rfl)
  ext p
  simp only [Backend.removeDir, Finset.mem_filter, PinRoot.Takes, not_or, and_assoc]
  rfl

/-- **Remove.** -/
theorem removeLoaderEndpoint_ok (root : PinRoot) (endpoint : LoaderEndpoint)
    (s : ConfiguredBackend) (w : List Link) :
    Does root (removeLoaderEndpoint root endpoint) (removed root endpoint) s w :=
  (removeInfos_ok endpoint s w).bind fun _ => detachLoaderEndpoint_ok root _ _ _ _

end

/-! ### What that leaves pinned -/

section

variable {root : PinRoot} {s : Backend}

/-- What a program does to the whole backend it does to the pins and the `lxc_map`. -/
theorem ends_of_noted {α : Type} {p : Prog BackendOp α}
    {Q : α → ConfiguredBackend × List Link → Prop}
    (h : p.Guards (noted root) (fun _ _ _ => True) Q ((s, .empty), [])) :
    Ends (fun a t => ∃ configs links, Q a ((t, configs), links)) p s :=
  Prog.guards_iff_exec.mpr fun _ _ _ hx => ⟨_, _, h.exec ((hx.observed _).observed [])⟩

/-- An endpoint that is added without an error has all its pins. -/
theorem addLoaderEndpoint_ends (root : PinRoot) (endpoint : LoaderEndpoint) (s : Backend) :
    EndsOk (fun _ t => ∀ p, p ∈ t.pins ↔ p ∈ s.pins ∨ p ∈ root.endpointPins endpoint.key)
      (addLoaderEndpoint root endpoint) s := by
  refine (ends_of_noted (addLoaderEndpoint_ok root endpoint _ _)).imp fun result t ht => ?_
  cases result with
  | ok _ =>
    obtain ⟨configs, links, link, -, heq⟩ := ht
    obtain rfl : t = (added root endpoint link (s, .empty)).1 := congrArg (·.1.1) heq
    intro p
    exact Finset.mem_union.trans (or_congr_right List.mem_toFinset)
  | error e => trivial

/-- An endpoint that is detached without an error leaves none of its pins. -/
theorem detachLoaderEndpoint_ends (root : PinRoot) (kind : LoaderEndpointKind) (link : String)
    (s : Backend) :
    EndsOk (fun _ t => ∀ p, p ∈ t.pins ↔ p ∈ s.pins ∧ ¬ root.Takes (kind, link) p)
      (detachLoaderEndpoint root kind link) s := by
  refine (ends_of_noted (detachLoaderEndpoint_ok root kind link _ _)).imp fun result t ht => ?_
  cases result with
  | ok _ =>
    obtain ⟨configs, links, heq⟩ := ht
    intro p
    rw [show t.pins = _ from congrArg (·.1.1.pins) heq]
    exact Finset.mem_filter
  | error e => trivial

end

/-! ### Attempts without a failed call -/

/-- The call failed. -/
def Failed : Answered BackendOp → Prop
  | ⟨.resolveLink _, .error _⟩ => True
  | ⟨.loadInstance _ _, .error _⟩ => True
  | ⟨.ensureAttached _ _ _ _, .error _⟩ => True
  | ⟨.unpinMap _, .error _⟩ => True
  | ⟨.removePinDir _, .error _⟩ => True
  | ⟨.listPins _, .error _⟩ => True
  | ⟨.setEndpointConfig _ _, .error _⟩ => True
  | ⟨.upsertEndpointInfo _ _, .error _⟩ => True
  | ⟨.removeEndpointInfo _, .error _⟩ => True
  | ⟨.listEndpointInfos, .error _⟩ => True
  | _ => False

/-- The method returns `Ok` when none of its calls fails. -/
def Succeeds {α : Type} (p : LoaderM α) : Prop :=
  p.run.Guards (answering (¬ Failed ·) anyAnswer) (fun _ _ _ => True)
    (Prog.orError (fun _ _ => True) fun _ _ => False) ()

section

variable {root : PinRoot} {endpoint : LoaderEndpoint} {α β : Type}

theorem call_succeeds {op : BackendOp (Except LoaderError α)} (hop : ∀ e, Failed ⟨op, .error e⟩) :
    Succeeds (call op) := by
  refine ⟨trivial, fun b _ h => ?_⟩
  cases b with
  | ok a => trivial
  | error e => exact h.1 (hop e)

theorem Succeeds.bind {p : LoaderM α} {q : α → LoaderM β} (hp : Succeeds p)
    (hq : ∀ a, Succeeds (q a)) : Succeeds (p >>= q) :=
  Prog.guards_try (fun _ _ => True) hp fun a _ _ => hq a

theorem Succeeds.forM {p : α → LoaderM PUnit} (hp : ∀ a, Succeeds (p a)) (xs : List α) :
    Succeeds (xs.forM p) :=
  Prog.guards_forM (H := fun _ _ _ => True) (R := fun _ _ _ => True) (fun a _ => hp a)
    (fun _ => trivial) (fun _ _ _ _ _ _ _ => trivial) xs ()

/-- When no call fails, no hook does. -/
theorem attachHooks_succeeds (resolved : Link) (linkDir : Path) (hooks : List HookSpec) :
    (attachHooks resolved linkDir hooks).Guards (answering (¬ Failed ·) anyAnswer)
      (fun _ _ _ => True) (fun failures _ => failures = []) () := by
  induction hooks with
  | nil => exact rfl
  | cons hook rest ih =>
    rw [attachHooks, Prog.perform_bind]
    refine ⟨trivial, fun result _ h => ?_⟩
    refine Prog.guards_bind ih fun failures _ hnone => ?_
    cases result with
    | ok _ => exact hnone
    | error e => exact absurd trivial h.1

theorem addLoaderEndpoint_succeeds (endpoint : LoaderEndpoint) :
    Succeeds (addLoaderEndpoint root endpoint) := by
  refine Succeeds.bind (call_succeeds fun _ => trivial) fun resolved => ?_
  refine Succeeds.bind (call_succeeds fun _ => trivial) fun _ => ?_
  refine Succeeds.bind ?_ fun _ => ?_
  · cases endpoint with
    | container persist =>
      exact Succeeds.bind (call_succeeds fun _ => trivial)
        fun _ => call_succeeds fun _ => trivial
    | host _ => trivial
    | netDev _ => trivial
    | overlay _ => trivial
    | wireguard _ => trivial
  refine Prog.guards_try (fun failures _ => failures = [])
    (Prog.guards_lift (attachHooks_succeeds _ _ _)) ?_
  rintro _ _ rfl
  trivial

theorem detachLoaderEndpoint_succeeds (kind : LoaderEndpointKind) (link : String) :
    Succeeds (detachLoaderEndpoint root kind link) := by
  refine Succeeds.bind ⟨trivial, fun _ _ _ => trivial⟩ fun _ => ?_
  refine Succeeds.bind (call_succeeds fun _ => trivial) fun _ => ?_
  refine Succeeds.forM (fun map => ?_) _
  exact call_succeeds fun _ => trivial

theorem removeLoaderEndpoint_succeeds (endpoint : LoaderEndpoint) :
    Succeeds (removeLoaderEndpoint root endpoint) := by
  refine Succeeds.bind ?_ fun _ => detachLoaderEndpoint_succeeds _ _
  cases endpoint with
  | container persist =>
    refine Succeeds.forM (fun ip => ?_) _
    exact call_succeeds fun _ => trivial
  | host _ => trivial
  | netDev _ => trivial
  | overlay _ => trivial
  | wireguard _ => trivial

/-- An attempt none of whose calls fails returns `Ok`. -/
theorem Succeeds.exec {sem : Sem BackendOp σ} {p : LoaderM α} (hp : Succeeds p) {s t : σ}
    {tr : List (Answered BackendOp)} {result : Except LoaderError α}
    (h : Exec sem p.run s tr (.pure result) t) (hcalm : ∀ call ∈ tr, ¬ Failed call) :
    ∃ a, result = .ok a := by
  have hend := Prog.Guards.exec hp (Exec.answering h.any hcalm)
  cases result with
  | ok a => exact ⟨a, rfl⟩
  | error e => exact hend.elim

/-- Every call can succeed. -/
theorem exists_answer (op : BackendOp β) (s : Backend) :
    ∃ b t, ¬ Failed ⟨op, b⟩ ∧ Backend.sem β op s b t := by
  cases op with
  | resolveLink link => exact ⟨.ok ⟨link, 0⟩, s, id, rfl, rfl⟩
  | loadInstance link maps => exact ⟨.ok (), _, id, rfl⟩
  | ensureAttached programName hook link linkPinDir => exact ⟨.ok (), _, id, rfl⟩
  | unpinMap path => exact ⟨.ok (), _, id, rfl⟩
  | removePinDir dir => exact ⟨.ok (), _, id, rfl⟩
  | listPins dir =>
    let rels := s.pins.preimage (dir ++ ·) (List.append_right_injective dir).injOn
    refine ⟨.ok rels.toList, s, id, fun rel => ?_, rfl⟩
    rw [Finset.mem_toList, Finset.mem_preimage]
  | setEndpointConfig link config => exact ⟨.ok (), s, id, rfl⟩
  | upsertEndpointInfo endpoint info => exact ⟨.ok (), _, id, rfl⟩
  | removeEndpointInfo ip => exact ⟨.ok (), _, id, rfl⟩
  | listEndpointInfos => exact ⟨.ok s.endpointInfos, s, id, .refl _, rfl⟩
  | stopLogging link => exact ⟨(), s, id, rfl⟩
  | iterate items => exact ⟨items, s, id, .refl _, rfl⟩

/-- From every backend there is an attempt none of whose calls fails. -/
theorem exists_ok (root : PinRoot) {p : LoaderM α} (hp : Succeeds p) (s : ConfiguredBackend) :
    ∃ tr a t, Exec (configured root) p.run s tr (.pure (.ok a)) t ∧
      ∀ call ∈ tr, ¬ Failed call := by
  have htotal : ∀ (β : Type) (op : BackendOp β) (s : ConfiguredBackend), True →
      ∃ b t, answering (¬ Failed ·) (configured root) β op s b t ∧ True := by
    intro β op s _
    obtain ⟨b, t, hok, hsem⟩ := exists_answer op s.1
    exact ⟨b, (t, _), ⟨hok, hsem, rfl⟩, trivial⟩
  obtain ⟨tr, result, t, h, -⟩ := Exec.exists_pure (fun _ => True) htotal p.run trivial
  obtain ⟨hexec, hcalm⟩ := h.of_answering
  obtain ⟨a, rfl⟩ := hp.exec hexec hcalm
  exact ⟨tr, a, t, hexec, hcalm⟩

end

end Sarena.Loader
