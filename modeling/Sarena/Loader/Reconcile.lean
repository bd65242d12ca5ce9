import Mathlib.Data.Finset.Image
import Mathlib.Data.List.Dedup
import Sarena.Lib.Prog
import Sarena.Loader.Pin

namespace Sarena.Loader

open Lib

/-!
# Loader — add, remove and reconcile

The loader's methods as programs over the calls of `BpfBackend`.  A call may fail, and
then changes nothing; a call that succeeds acts on a set of pins and on the `lxc_map`.

* `addLoaderEndpoint`, `removeLoaderEndpoint`, `reconcile` — the methods;
* `Backend.sem` — what the calls may answer and do;
* `collectErrors_ends` — the loop rule of reconcile;
* `listLoaderEndpoints_ends` — what is listed is what is attached;
* `PinsOnly` — calls that create only known pins.
-/

/-! ### Errors and values of the backend -/

/-- `HookFailure`. -/
structure HookFailure where
  hookName : String
  error : String
  deriving DecidableEq, Repr

/-- The errors the loader sees and builds: `DataPlaneError::Partial`, or what a call of the
    backend failed with, as the text it displays. -/
inductive LoaderError
  | hooksFailed (failures : List HookFailure)
  | backend (message : String)
  deriving DecidableEq, Repr

/-- `Display` of an error. -/
def LoaderError.text : LoaderError → String
  | .hooksFailed failures => s!"{failures.length} required hook(s) failed to attach"
  | .backend message => message

/-- `LinkType`, as far as the loader reads it. -/
structure Link where
  ifname : String
  ifindex : UInt32
  deriving DecidableEq, Repr

/-- `EndpointConfig`. -/
structure EndpointConfig where
  endpointId : EndpointId
  hostMac : MacAddress
  ipv4 : Option Ipv4Addr
  ipv6 : Option Ipv6Addr
  deriving DecidableEq, Repr

/-- `EndpointInfo`. -/
structure EndpointInfo where
  endpointId : EndpointId
  ifIndex : UInt32
  containerMac : MacAddress
  hostMac : MacAddress
  deriving DecidableEq, Repr

/-- The calls of `BpfBackend`, and `iterate`: the order a hash set is gone through. -/
inductive BackendOp : Type → Type
  | resolveLink (link : String) : BackendOp (Except LoaderError Link)
  | loadInstance (link : String) (maps : List (String × Path)) : BackendOp (Except LoaderError Unit)
  | ensureAttached (programName : String) (hook : Hook) (link : Link) (linkPinDir : Path) :
      BackendOp (Except LoaderError Unit)
  | unpinMap (path : Path) : BackendOp (Except LoaderError Unit)
  | removePinDir (dir : Path) : BackendOp (Except LoaderError Unit)
  | listPins (dir : Path) : BackendOp (Except LoaderError (List Path))
  | setEndpointConfig (link : String) (config : EndpointConfig) :
      BackendOp (Except LoaderError Unit)
  | upsertEndpointInfo (endpoint : EndpointPersist) (info : EndpointInfo) :
      BackendOp (Except LoaderError Unit)
  | removeEndpointInfo (ip : IpAddr) : BackendOp (Except LoaderError Unit)
  | listEndpointInfos : BackendOp (Except LoaderError (List (IpAddr × EndpointInfo)))
  | stopLogging (link : String) : BackendOp Unit
  | iterate (items : List (LoaderEndpointKind × String)) :
      BackendOp (List (LoaderEndpointKind × String))

/-- A method of the loader. -/
abbrev LoaderM (α : Type) := ExceptT LoaderError (Prog BackendOp) α

/-- A call whose error the method returns (`?`). -/
def call {α : Type} (op : BackendOp (Except LoaderError α)) : LoaderM α := ExceptT.mk (perform op)

/-- A call that does not fail. -/
def perform' {α : Type} (op : BackendOp α) : LoaderM α := ExceptT.lift (perform op)

/-! ### The methods -/

/-- `global_map_pins`. -/
def globalMapPins (root : PinRoot) : List (String × Path) :=
  globalMaps.map fun map => (map.wireName, root.globalMapDir map)

/-- `write_container_maps`. -/
def writeContainerMaps (endpoint : EndpointPersist) (link : Link) : LoaderM Unit := do
  call (.setEndpointConfig link.ifname
    { endpointId := endpoint.id
      hostMac := endpoint.hostMac
      ipv4 := endpoint.ipv4
      ipv6 := endpoint.ipv6 })
  call (.upsertEndpointInfo endpoint
    { endpointId := endpoint.id
      ifIndex := link.ifindex
      containerMac := endpoint.containerMac
      hostMac := endpoint.hostMac })

/-- The maps of a container are filled in; other endpoints have nothing to fill in. -/
def fillMaps : LoaderEndpoint → Link → LoaderM Unit
  | .container persist, link => writeContainerMaps persist link
  | _, _ => pure ()

/-- The loop of `add_loader_endpoint` over the hooks: the failures of the required ones. -/
def attachHooks (resolved : Link) (linkDir : Path) :
    List HookSpec → Prog BackendOp (List HookFailure)
  | [] => pure []
  | hook :: rest => do
    let result ← perform (.ensureAttached hook.programName hook.hook resolved linkDir)
    let failures ← attachHooks resolved linkDir rest
    match result with
    | .ok () => return failures
    | .error e =>
      -- An optional hook that fails is logged only.
      return if hook.required then ⟨hook.programName, e.text⟩ :: failures else failures

/-- The maps an endpoint's instance is loaded with, by name. -/
def instanceMaps (root : PinRoot) (kind : LoaderEndpointKind) (link : String) :
    List (String × Path) :=
  globalMapPins root ++
    kind.perEndpointMapNames.map fun map => (map.wireName, root.perEndpointMapDir map link)

/-- `add_loader_endpoint`. -/
def addLoaderEndpoint (root : PinRoot) (endpoint : LoaderEndpoint) : LoaderM Unit := do
  let kind := endpoint.kind
  let link := endpoint.link
  let resolved ← call (.resolveLink link)
  call (.loadInstance link (instanceMaps root kind link))
  fillMaps endpoint resolved
  let failures ← ExceptT.lift
    (attachHooks resolved (root.endpointLinkDir kind link) kind.hooks)
  if failures ≠ [] then throw (.hooksFailed failures)

/-- `detach_loader_endpoint`. -/
def detachLoaderEndpoint (root : PinRoot) (kind : LoaderEndpointKind) (link : String) :
    LoaderM Unit := do
  perform' (.stopLogging link)
  call (.removePinDir (root.endpointLinkDir kind link))
  kind.perEndpointMapNames.forM fun map => call (.unpinMap (root.perEndpointMapDir map link))

/-- The `lxc_map` entries of a container are removed. -/
def removeInfos : LoaderEndpoint → LoaderM Unit
  | .container persist => persist.ips.forM fun ip => call (.removeEndpointInfo ip)
  | _ => pure ()

/-- `remove_loader_endpoint`. -/
def removeLoaderEndpoint (root : PinRoot) (endpoint : LoaderEndpoint) : LoaderM Unit := do
  removeInfos endpoint
  detachLoaderEndpoint root endpoint.kind endpoint.link

/-- The endpoints of which every required hook is among the pins found. -/
def attachedEndpoints (rels : List Path) : List (LoaderEndpointKind × String) :=
  let matched := rels.filterMap matchRel
  (matched.map Prod.fst).dedup.filter fun endpoint =>
    endpoint.1.hooks.all fun hook =>
      !hook.required || matched.contains (endpoint, hook.programName)

/-- `list_loader_endpoints`. -/
def listLoaderEndpoints (root : PinRoot) : LoaderM (List (LoaderEndpointKind × String)) := do
  let rels ← call (.listPins root.linksDir)
  perform' (.iterate (attachedEndpoints rels))

/-- A loop of `reconcile`: every item is handled, and the errors are collected. -/
def collectErrors {α : Type} (key : α → LoaderEndpointKind × String) (handle : α → LoaderM Unit) :
    List α → Prog BackendOp (List (LoaderEndpointKind × String × LoaderError))
  | [] => pure []
  | item :: rest => do
    let result ← (handle item).run
    let errors ← collectErrors key handle rest
    match result with
    | .ok () => return errors
    | .error e => return ((key item).1, (key item).2, e) :: errors

/-- The kind and the link of an endpoint. -/
def LoaderEndpoint.key (endpoint : LoaderEndpoint) : LoaderEndpointKind × String :=
  (endpoint.kind, endpoint.link)

/-- The addresses of the desired containers. -/
def wantedIps (desired : List LoaderEndpoint) : List IpAddr :=
  desired.flatMap fun
    | .container persist => persist.ips
    | _ => []

/-- `reconcile`. -/
def reconcile (root : PinRoot) (desired : List LoaderEndpoint) :
    LoaderM (List (LoaderEndpointKind × String × LoaderError)) := do
  let addErrors ← ExceptT.lift
    (collectErrors LoaderEndpoint.key (addLoaderEndpoint root) desired)
  let existing ← listLoaderEndpoints root
  let wanted := desired.map LoaderEndpoint.key
  let stale ← perform' (.iterate (existing.filter fun endpoint => !wanted.contains endpoint))
  let detachErrors ← ExceptT.lift
    (collectErrors id (fun endpoint => detachLoaderEndpoint root endpoint.1 endpoint.2) stale)
  let infos ← call .listEndpointInfos
  (infos.map Prod.fst).forM fun ip =>
    if ip ∈ wantedIps desired then pure () else call (.removeEndpointInfo ip)
  return addErrors ++ detachErrors

/-! ### The backend -/

/-- The backend: the pins that exist, and the `lxc_map`. -/
structure Backend where
  pins : Finset Path
  endpointInfos : List (IpAddr × EndpointInfo)

namespace Backend

/-- Nothing is pinned. -/
def empty : Backend := ⟨∅, []⟩

def pin (s : Backend) (paths : List Path) : Backend := { s with pins := s.pins ∪ paths.toFinset }

def unpin (s : Backend) (path : Path) : Backend := { s with pins := s.pins.erase path }

def removeDir (s : Backend) (dir : Path) : Backend :=
  { s with pins := s.pins.filter fun path => ¬ dir <+: path }

def removeInfo (s : Backend) (ip : IpAddr) : Backend :=
  { s with endpointInfos := s.endpointInfos.filter fun entry => entry.1 ≠ ip }

def insertInfo (s : Backend) (info : EndpointInfo) (ip : IpAddr) : Backend :=
  { s.removeInfo ip with endpointInfos := (ip, info) :: (s.removeInfo ip).endpointInfos }

/-- What a call may answer and leave behind: a call that fails changes nothing. -/
def sem : Sem BackendOp Backend
  | _, .resolveLink link, s, .ok resolved, t => resolved.ifname = link ∧ t = s
  | _, .resolveLink _, s, .error _, t => t = s
  | _, .loadInstance _ maps, s, .ok (), t => t = s.pin (maps.map Prod.snd)
  | _, .loadInstance _ _, s, .error _, t => t = s
  | _, .ensureAttached programName _ _ linkPinDir, s, .ok (), t =>
    t = s.pin [linkPinDir.join programName]
  | _, .ensureAttached _ _ _ _, s, .error _, t => t = s
  | _, .unpinMap path, s, .ok (), t => t = s.unpin path
  | _, .unpinMap _, s, .error _, t => t = s
  | _, .removePinDir dir, s, .ok (), t => t = s.removeDir dir
  | _, .removePinDir _, s, .error _, t => t = s
  | _, .listPins dir, s, .ok rels, t => (∀ rel, rel ∈ rels ↔ dir ++ rel ∈ s.pins) ∧ t = s
  | _, .listPins _, s, .error _, t => t = s
  | _, .setEndpointConfig _ _, s, _, t => t = s
  | _, .upsertEndpointInfo endpoint info, s, .ok (), t =>
    t = endpoint.ips.foldl (insertInfo · info) s
  | _, .upsertEndpointInfo _ _, s, .error _, t => t = s
  | _, .removeEndpointInfo ip, s, .ok (), t => t = s.removeInfo ip
  | _, .removeEndpointInfo _, s, .error _, t => t = s
  | _, .listEndpointInfos, s, .ok infos, t => infos.Perm s.endpointInfos ∧ t = s
  | _, .listEndpointInfos, s, .error _, t => t = s
  | _, .stopLogging _, s, (), t => t = s
  | _, .iterate items, s, order, t => order.Perm items ∧ t = s

end Backend

/-! ### What the methods do to the pins -/

/-- The program ends with `Q`, whatever its calls answer. -/
abbrev Ends {α : Type} (Q : α → Backend → Prop) (p : Prog BackendOp α) (s : Backend) : Prop :=
  p.Guards Backend.sem (fun _ _ _ => True) Q s

/-- The method, when it returns `Ok`, ends with `Q`. -/
abbrev EndsOk {α : Type} (Q : α → Backend → Prop) (p : LoaderM α) (s : Backend) : Prop :=
  Ends (Prog.orError Q fun _ _ => True) p.run s

namespace PinRoot

/-- The per-endpoint map pins of an endpoint. -/
def mapPins (root : PinRoot) (endpoint : LoaderEndpointKind × String) : List Path :=
  endpoint.1.perEndpointMapNames.map fun map => root.perEndpointMapDir map endpoint.2

/-- The link pins of an endpoint. -/
def linkPins (root : PinRoot) (endpoint : LoaderEndpointKind × String) : List Path :=
  endpoint.1.hooks.map (root.linkPin endpoint.1 endpoint.2)

/-- The pins of the maps that all endpoints share. -/
def globalPins (root : PinRoot) : List Path := globalMaps.map root.globalMapDir

/-- The pins `add_loader_endpoint` makes for an endpoint. -/
def endpointPins (root : PinRoot) (endpoint : LoaderEndpointKind × String) : List Path :=
  root.globalPins ++ root.mapPins endpoint ++ root.linkPins endpoint

/-- The pins `detach_loader_endpoint` removes for an endpoint. -/
def Takes (root : PinRoot) (endpoint : LoaderEndpointKind × String) (path : Path) : Prop :=
  root.endpointLinkDir endpoint.1 endpoint.2 <+: path ∨ path ∈ root.mapPins endpoint

end PinRoot

variable {root : PinRoot} {s t : Backend}

/-- An endpoint's instance is loaded with the maps all endpoints share and its own. -/
theorem map_snd_instanceMaps (root : PinRoot) (kind : LoaderEndpointKind) (link : String) :
    (instanceMaps root kind link).map Prod.snd = root.globalPins ++ root.mapPins (kind, link) := by
  rw [instanceMaps, List.map_append]
  simp only [globalMapPins, PinRoot.globalPins, PinRoot.mapPins, List.map_map]
  rfl

/-- A call that leaves the pins alone, whatever it answers. -/
theorem call_ends {α : Type} {op : BackendOp (Except LoaderError α)} {Q : α → Backend → Prop}
    (h : ∀ a t, Backend.sem _ op s (.ok a) t → Q a t) : EndsOk Q (call op) s := by
  refine ⟨trivial, fun b t hsem => ?_⟩
  cases b with
  | ok a => exact h a t hsem
  | error e => trivial

/-- Entries of the `lxc_map` are not pins. -/
theorem pins_insertInfos (info : EndpointInfo) (ips : List IpAddr) (s : Backend) :
    (ips.foldl (Backend.insertInfo · info) s).pins = s.pins := by
  induction ips generalizing s with
  | nil => rfl
  | cons ip rest ih => exact (ih _).trans rfl

/-- **Loop rule.** When no error is collected, every item was handled. -/
theorem collectErrors_ends {α : Type} {σ : Type*} {sem : Sem BackendOp σ}
    (key : α → LoaderEndpointKind × String) {handle : α → LoaderM Unit} {H : α → σ → σ → Prop}
    {R : List α → σ → σ → Prop}
    (hhandle : ∀ a s, (handle a).run.Guards sem (fun _ _ _ => True)
      (Prog.orError (fun _ => H a s) fun _ _ => True) s)
    (hnil : ∀ s, R [] s s) (hcons : ∀ a rest s t u, H a s t → R rest t u → R (a :: rest) s u)
    (items : List α) (s : σ) :
    (collectErrors key handle items).Guards sem (fun _ _ _ => True)
      (fun errors t => errors = [] → R items s t) s := by
  induction items generalizing s with
  | nil => exact fun _ => hnil s
  | cons a rest ih =>
    refine Prog.guards_bind (hhandle a s) fun result t ht => ?_
    refine Prog.guards_bind (ih t) fun errors u hu => ?_
    cases result with
    | ok _ => exact fun hnone => hcons a rest s t u ht (hu hnone)
    | error e =>
      intro hnone
      cases hnone

/-! ### The listing -/

/-- An endpoint as `list_loader_endpoints` finds it among the pins. -/
structure Listed (root : PinRoot) (pins : Finset Path) (endpoint : LoaderEndpointKind × String) :
    Prop where
  found : ∃ rel program, root.linksDir ++ rel ∈ pins ∧ matchRel rel = some (endpoint, program)
  hooks : ∀ hook ∈ endpoint.1.hooks, hook.required = true →
    ∃ rel, root.linksDir ++ rel ∈ pins ∧ matchRel rel = some (endpoint, hook.programName)

theorem mem_attachedEndpoints {pins : Finset Path} {rels : List Path}
    (hrels : ∀ rel, rel ∈ rels ↔ root.linksDir ++ rel ∈ pins)
    (endpoint : LoaderEndpointKind × String) :
    endpoint ∈ attachedEndpoints rels ↔ Listed root pins endpoint := by
  have hmatched : ∀ program, (endpoint, program) ∈ rels.filterMap matchRel ↔
      ∃ rel, root.linksDir ++ rel ∈ pins ∧ matchRel rel = some (endpoint, program) := by
    intro program
    rw [List.mem_filterMap]
    exact exists_congr fun rel => and_congr_left fun _ => hrels rel
  rw [attachedEndpoints, List.mem_filter, List.mem_dedup, List.mem_map]
  constructor
  · rintro ⟨⟨⟨_, program⟩, hmem, rfl⟩, hall⟩
    obtain ⟨rel, hrel⟩ := (hmatched program).mp hmem
    refine ⟨⟨rel, program, hrel⟩, fun hook hhook hrequired => ?_⟩
    have h := List.all_eq_true.mp hall hook hhook
    rw [hrequired, Bool.not_true, Bool.false_or, List.contains_iff_mem] at h
    exact (hmatched _).mp h
  · intro h
    obtain ⟨rel, program, hrel⟩ := h.found
    refine ⟨⟨(endpoint, program), (hmatched program).mpr ⟨rel, hrel⟩, rfl⟩, ?_⟩
    rw [List.all_eq_true]
    intro hook hhook
    by_cases hrequired : hook.required = true
    · rw [hrequired, Bool.not_true, Bool.false_or, List.contains_iff_mem]
      exact (hmatched _).mpr (h.hooks hook hhook hrequired)
    · rw [Bool.eq_false_iff.mpr hrequired, Bool.not_false, Bool.true_or]

/-- What is listed is what is attached, in some order, and the pins stay as they are. -/
theorem listLoaderEndpoints_ends (s : Backend) :
    EndsOk (fun existing t => t.pins = s.pins ∧ ∀ e, e ∈ existing ↔ Listed root s.pins e)
      (listLoaderEndpoints root) s := by
  refine Prog.guards_try (fun rels t => s = t ∧ ∀ rel, rel ∈ rels ↔ root.linksDir ++ rel ∈ s.pins)
    (call_ends fun _ _ h => ⟨h.2.symm, h.1⟩) ?_
  rintro rels _ ⟨rfl, hrels⟩
  refine ⟨trivial, fun order t h => ?_⟩
  refine ⟨congrArg Backend.pins h.2, fun e => ?_⟩
  rw [h.1.mem_iff, mem_attachedEndpoints hrels]

/-! ### The pins the methods can make -/

/-- The call pins nothing but what is known. -/
def PinsOnly (known : Path → Prop) : ∀ β : Type, BackendOp β → Prop
  | _, .loadInstance _ maps => ∀ entry ∈ maps, known entry.2
  | _, .ensureAttached programName _ _ linkPinDir => known (linkPinDir.join programName)
  | _, _ => True

variable {known : Path → Prop}

/-- Every pin is known. -/
def Backend.Knows (known : Path → Prop) (s : Backend) : Prop := ∀ p ∈ s.pins, known p

/-- **Step.** A call that pins only what is known leaves only known pins. -/
theorem PinsOnly.keep {β : Type} {op : BackendOp β} {b : β} (hop : PinsOnly known β op)
    (h : Backend.sem β op s b t) (hs : s.Knows known) : t.Knows known := by
  -- A call that fails, or is not about pins, leaves them as they are.
  have hsame : t.pins = s.pins → t.Knows known := by
    intro heq p hp
    rw [heq] at hp
    exact hs p hp
  cases op with
  | loadInstance link maps =>
    cases b with
    | error e => exact hsame (congrArg _ h)
    | ok _ =>
      intro p hp
      rw [show t = _ from h, Backend.pin, Finset.mem_union, List.mem_toFinset] at hp
      rcases hp with hp | hp
      · exact hs p hp
      · obtain ⟨entry, hentry, rfl⟩ := List.mem_map.mp hp
        exact hop entry hentry
  | ensureAttached programName hook link linkPinDir =>
    cases b with
    | error e => exact hsame (congrArg _ h)
    | ok _ =>
      intro p hp
      rw [show t = _ from h, Backend.pin, Finset.mem_union, List.mem_toFinset,
        List.mem_singleton] at hp
      rcases hp with hp | rfl
      · exact hs p hp
      · exact hop
  | unpinMap path =>
    cases b with
    | error e => exact hsame (congrArg _ h)
    | ok _ =>
      intro p hp
      rw [show t = _ from h] at hp
      exact hs p (Finset.mem_of_mem_erase hp)
  | removePinDir dir =>
    cases b with
    | error e => exact hsame (congrArg _ h)
    | ok _ =>
      intro p hp
      rw [show t = _ from h] at hp
      exact hs p (Finset.mem_filter.mp hp).1
  | upsertEndpointInfo endpoint info =>
    cases b with
    | error e => exact hsame (congrArg _ h)
    | ok _ => exact hsame ((congrArg _ h).trans (pins_insertInfos _ _ _))
  | resolveLink link => cases b with
    | error e => exact hsame (congrArg _ h)
    | ok _ => exact hsame (congrArg _ h.2)
  | listPins dir => cases b with
    | error e => exact hsame (congrArg _ h)
    | ok _ => exact hsame (congrArg _ h.2)
  | listEndpointInfos => cases b with
    | error e => exact hsame (congrArg _ h)
    | ok _ => exact hsame (congrArg _ h.2)
  | setEndpointConfig link config => exact hsame (congrArg _ h)
  | removeEndpointInfo ip => cases b with
    | error e => exact hsame (congrArg _ h)
    | ok _ => exact hsame (by rw [show t = s.removeInfo ip from h]; rfl)
  | stopLogging link => exact hsame (congrArg _ h)
  | iterate items => exact hsame (congrArg _ h.2)

end Sarena.Loader
