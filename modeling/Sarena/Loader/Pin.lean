import Mathlib.Data.List.Infix
import Sarena.Endpoint.Persist

namespace Sarena.Loader

/-!
# Loader — endpoints, their manifest and the pin layout

What the loader attaches for an endpoint is fixed by the endpoint's kind: the hooks and
the maps of its manifest.  Where that is pinned is fixed by the kind and the link:

* `<root>/links/<kind>/<link>/<prog_name>` — the program of a hook;
* `<root>/globals/<map_name>` — a map all endpoints share;
* `<root>/globals/<map_name>_<link>` — a map of one endpoint.

A link is the name of a network interface (`IsIfaceName`), so it is one component of a
path; under that reading the layout is injective, which is what `matchRel` inverts.
-/

/-! ### Paths -/

/-- A path below a fixed directory, as its components. -/
abbrev Path := List String

/-- `Path::components` of a relative path: empty parts and `.` are not components. -/
def components (s : String) : Path :=
  ((s.toList.splitOn '/').map String.ofList).filter fun part => part ≠ "" && part ≠ "."

/-- `Path::join` with a relative path. -/
def Path.join (p : Path) (s : String) : Path := p ++ components s

/-- `Path::parent`. -/
def Path.parent (p : Path) : Option Path := if p = [] then none else some p.dropLast

/-- `Path::file_name`. -/
def Path.fileName (p : Path) : Option String := p.getLast?.filter fun name => name ≠ ".."

/-- A string that is one component of a path. -/
def IsComponent (s : String) : Prop := s ≠ "" ∧ s ≠ "." ∧ '/' ∉ s.toList

/-- What the kernel checks of every interface name, as far as paths are concerned. -/
def IsIfaceName (s : String) : Prop := IsComponent s ∧ s ≠ ".."

instance (s : String) : Decidable (IsComponent s) := inferInstanceAs (Decidable (_ ∧ _ ∧ _))

instance (s : String) : Decidable (IsIfaceName s) := inferInstanceAs (Decidable (_ ∧ _))

theorem components_of_isComponent {s : String} (h : IsComponent s) : components s = [s] := by
  obtain ⟨hempty, hdot, hslash⟩ := h
  have hsplit : s.toList.splitOn '/' = [s.toList] := List.splitOn_eq_singleton hslash
  rw [components, hsplit, List.map_singleton, String.ofList_toList]
  simp [hempty, hdot]

theorem Path.join_of_isComponent {s : String} (h : IsComponent s) (p : Path) :
    p.join s = p ++ [s] := by
  rw [join, components_of_isComponent h]

/-! ### Manifest -/

/-- `Hook`. -/
inductive Hook
  | tcxIngress
  | tcxEgress
  deriving DecidableEq, Repr

/-- `HookSpec`. -/
structure HookSpec where
  hook : Hook
  programName : String
  required : Bool
  deriving DecidableEq, Repr

/-- `GlobalMap`. -/
inductive GlobalMap
  | lxcMap
  | metricsMap
  deriving DecidableEq, Repr

/-- `GlobalMap::wire_name`. -/
def GlobalMap.wireName : GlobalMap → String
  | .lxcMap => "lxc_map"
  | .metricsMap => "metrics_map"

/-- `EndpointMap`. -/
inductive EndpointMap
  | callsMap
  | endpointConfigMap
  deriving DecidableEq, Repr

/-- `EndpointMap::wire_name`. -/
def EndpointMap.wireName : EndpointMap → String
  | .callsMap => "calls_map"
  | .endpointConfigMap => "endpoint_config"

/-- `GLOBAL_MAPS`. -/
def globalMaps : List GlobalMap := [.lxcMap, .metricsMap]

/-- `LoaderEndpointKind`. -/
inductive LoaderEndpointKind
  | container
  | host
  | netDev
  | overlay
  | wireguard
  deriving DecidableEq, Repr

namespace LoaderEndpointKind

/-- `kind_str`. -/
def kindStr : LoaderEndpointKind → String
  | container => "container"
  | host => "host"
  | netDev => "netdev"
  | overlay => "overlay"
  | wireguard => "wireguard"

/-- `from_kind_str`. -/
def fromKindStr (s : String) : Option LoaderEndpointKind :=
  if s = "container" then some container
  else if s = "host" then some host
  else if s = "netdev" then some netDev
  else if s = "overlay" then some overlay
  else if s = "wireguard" then some wireguard
  else none

/-- `hooks`, from the `*_HOOKS` of the manifest. -/
def hooks : LoaderEndpointKind → List HookSpec
  | container => [⟨.tcxIngress, "from_container", true⟩, ⟨.tcxEgress, "to_container", true⟩]
  | host => [⟨.tcxEgress, "from_host", true⟩, ⟨.tcxIngress, "to_host", true⟩]
  | netDev => [⟨.tcxIngress, "from_netdev", true⟩, ⟨.tcxEgress, "to_netdev", true⟩]
  | overlay => [⟨.tcxIngress, "from_overlay", true⟩, ⟨.tcxEgress, "to_overlay", true⟩]
  | wireguard => [⟨.tcxIngress, "from_wireguard", true⟩, ⟨.tcxEgress, "to_wireguard", true⟩]

/-- `per_endpoint_map_names`, from the `*_PER_ENDPOINT_MAPS` of the manifest. -/
def perEndpointMapNames : LoaderEndpointKind → List EndpointMap
  | container => [.callsMap, .endpointConfigMap]
  | host => [.callsMap, .endpointConfigMap]
  | netDev => [.callsMap]
  | overlay => [.callsMap]
  | wireguard => [.callsMap]

theorem fromKindStr_eq_some {s : String} {kind : LoaderEndpointKind} :
    fromKindStr s = some kind ↔ s = kind.kindStr := by
  constructor
  · intro h
    unfold fromKindStr at h
    split_ifs at h with h1 h2 h3 h4 h5 <;> obtain rfl := Option.some.inj h <;> assumption
  · rintro rfl
    cases kind <;> decide

theorem kindStr_injective {kind kind' : LoaderEndpointKind} (h : kind.kindStr = kind'.kindStr) :
    kind = kind' := by
  have hparse := fromKindStr_eq_some.mpr h
  rw [fromKindStr_eq_some.mpr rfl] at hparse
  exact Option.some.inj hparse

/-- Every kind of endpoint has a calls map of its own. -/
theorem callsMap_mem (kind : LoaderEndpointKind) : .callsMap ∈ kind.perEndpointMapNames := by
  cases kind <;> decide

theorem isComponent_kindStr (kind : LoaderEndpointKind) : IsComponent kind.kindStr := by
  cases kind <;> decide

/-- The manifest has no optional hook. -/
theorem required_of_mem {kind : LoaderEndpointKind} {hook : HookSpec} (h : hook ∈ kind.hooks) :
    hook.required = true := by
  revert hook
  cases kind <;> decide

/-- A program name is one component of a path, and a file name. -/
theorem isIfaceName_programName {kind : LoaderEndpointKind} {hook : HookSpec}
    (h : hook ∈ kind.hooks) : IsIfaceName hook.programName := by
  revert hook
  cases kind <;> decide

end LoaderEndpointKind

/-- `LoaderEndpoint`. -/
inductive LoaderEndpoint
  | container (persist : EndpointPersist)
  | host (link : String)
  | netDev (link : String)
  | overlay (link : String)
  | wireguard (link : String)
  deriving DecidableEq, Repr

namespace LoaderEndpoint

/-- `LoaderEndpoint::kind`. -/
def kind : LoaderEndpoint → LoaderEndpointKind
  | container _ => .container
  | host _ => .host
  | netDev _ => .netDev
  | overlay _ => .overlay
  | wireguard _ => .wireguard

/-- `LoaderEndpoint::link`. -/
def link : LoaderEndpoint → String
  | container persist => persist.hostIfaceName
  | host link => link
  | netDev link => link
  | overlay link => link
  | wireguard link => link

end LoaderEndpoint

/-! ### Pin paths -/

/-- `PinRoot`. -/
structure PinRoot where
  root : Path
  deriving Repr

/-- `pin_subpath`. -/
def pinSubpath (kind : LoaderEndpointKind) (link : String) : Path :=
  (components kind.kindStr).join link

namespace PinRoot

def linksDir (root : PinRoot) : Path := root.root.join "links"

def globalsDir (root : PinRoot) : Path := root.root.join "globals"

def endpointLinkDir (root : PinRoot) (kind : LoaderEndpointKind) (link : String) : Path :=
  root.linksDir ++ pinSubpath kind link

def perEndpointMapDir (root : PinRoot) (map : EndpointMap) (link : String) : Path :=
  root.globalsDir.join s!"{map.wireName}_{link}"

def globalMapDir (root : PinRoot) (map : GlobalMap) : Path := root.globalsDir.join map.wireName

/-- `PinRoot::parse_pin_subpath`: what follows the link is not looked at. -/
def parsePinSubpath : Path → Option (LoaderEndpointKind × String)
  | kind :: link :: _ => (LoaderEndpointKind.fromKindStr kind).map (·, link)
  | _ => none

end PinRoot

/-- `match_pin`. -/
def matchPin (kind : LoaderEndpointKind) (filename : String) : Option HookSpec :=
  kind.hooks.find? fun hook => hook.programName == filename

/-- The endpoint and the program of a pin below the links directory, as one round of the
    loop in `list_loader_endpoints` reads them. -/
def matchRel (rel : Path) : Option ((LoaderEndpointKind × String) × String) := do
  let parent ← rel.parent
  let (kind, link) ← PinRoot.parsePinSubpath parent
  let filename ← rel.fileName
  let hook ← matchPin kind filename
  return ((kind, link), hook.programName)

/-! ### The layout is injective -/

variable {root : PinRoot} {kind kind' : LoaderEndpointKind} {map map' : EndpointMap}
  {link link' : String} {hook hook' : HookSpec}

/-- The pin of a hook's program. -/
def PinRoot.linkPin (root : PinRoot) (kind : LoaderEndpointKind) (link : String)
    (hook : HookSpec) : Path :=
  (root.endpointLinkDir kind link).join hook.programName

theorem linksDir_eq : root.linksDir = root.root ++ ["links"] :=
  Path.join_of_isComponent (by decide) _

theorem globalsDir_eq : root.globalsDir = root.root ++ ["globals"] :=
  Path.join_of_isComponent (by decide) _

theorem endpointLinkDir_eq (h : IsIfaceName link) (kind : LoaderEndpointKind) :
    root.endpointLinkDir kind link = root.root ++ ["links", kind.kindStr, link] := by
  rw [PinRoot.endpointLinkDir, linksDir_eq, pinSubpath,
    components_of_isComponent kind.isComponent_kindStr, Path.join_of_isComponent h.1,
    List.append_assoc]
  rfl

theorem linkPin_eq (h : IsIfaceName link) (hhook : hook ∈ kind.hooks) :
    root.linkPin kind link hook =
      root.root ++ ["links", kind.kindStr, link, hook.programName] := by
  rw [PinRoot.linkPin, endpointLinkDir_eq h,
    Path.join_of_isComponent (kind.isIfaceName_programName hhook).1, List.append_assoc]
  rfl

/-- The name of a map, an underscore and a link, character by character. -/
theorem toList_mapName (map : EndpointMap) (link : String) :
    (s!"{map.wireName}_{link}").toList = map.wireName.toList ++ '_' :: link.toList := by
  show (map.wireName ++ "_" ++ link).toList = _
  rw [String.toList_append, String.toList_append, List.append_assoc]
  rfl

theorem isComponent_mapName (h : IsIfaceName link) (map : EndpointMap) :
    IsComponent s!"{map.wireName}_{link}" := by
  have hlist := toList_mapName map link
  refine ⟨?_, ?_, ?_⟩
  · intro hempty
    rw [hempty] at hlist
    cases map <;> simp [EndpointMap.wireName] at hlist
  · intro hdot
    rw [hdot] at hlist
    cases map <;> simp [EndpointMap.wireName] at hlist
  · rw [hlist]
    intro hslash
    have hlink := h.1.2.2
    cases map <;> simp [EndpointMap.wireName, hlink] at hslash

theorem perEndpointMapDir_eq (h : IsIfaceName link) (map : EndpointMap) :
    root.perEndpointMapDir map link = root.root ++ ["globals", s!"{map.wireName}_{link}"] := by
  rw [PinRoot.perEndpointMapDir, globalsDir_eq,
    Path.join_of_isComponent (isComponent_mapName h map),
    List.append_assoc]
  rfl

theorem globalMapDir_eq (map : GlobalMap) :
    root.globalMapDir map = root.root ++ ["globals", map.wireName] := by
  have h : IsComponent map.wireName := by cases map <;> decide
  rw [PinRoot.globalMapDir, globalsDir_eq, Path.join_of_isComponent h, List.append_assoc]
  rfl

/-- A map pin determines its map and its link. -/
theorem perEndpointMapDir_inj (h : IsIfaceName link) (h' : IsIfaceName link')
    (heq : root.perEndpointMapDir map link = root.perEndpointMapDir map' link') :
    map = map' ∧ link = link' := by
  rw [perEndpointMapDir_eq h, perEndpointMapDir_eq h'] at heq
  have hname := congrArg String.toList (List.cons.inj (List.cons.inj
    (List.append_cancel_left heq)).2).1
  rw [toList_mapName, toList_mapName] at hname
  -- The two map names differ in their first letter.
  cases map <;> cases map' <;> simp [EndpointMap.wireName] at hname
  · exact ⟨rfl, String.toList_inj.mp hname⟩
  · exact ⟨rfl, String.toList_inj.mp hname⟩

/-- A map of one endpoint is pinned nowhere a global map is. -/
theorem perEndpointMapDir_ne_globalMapDir (h : IsIfaceName link) (map : EndpointMap)
    (global : GlobalMap) : root.perEndpointMapDir map link ≠ root.globalMapDir global := by
  intro heq
  rw [perEndpointMapDir_eq h, globalMapDir_eq] at heq
  have hname := congrArg String.toList (List.cons.inj (List.cons.inj
    (List.append_cancel_left heq)).2).1
  rw [toList_mapName] at hname
  cases map <;> cases global <;> simp [EndpointMap.wireName, GlobalMap.wireName] at hname

/-- Of the directories of endpoints, a program is pinned below its own only. -/
theorem endpointLinkDir_isPrefix_linkPin (h : IsIfaceName link) (h' : IsIfaceName link')
    (hhook : hook ∈ kind'.hooks) :
    root.endpointLinkDir kind link <+: root.linkPin kind' link' hook ↔
      kind = kind' ∧ link = link' := by
  rw [endpointLinkDir_eq h, linkPin_eq h' hhook, List.prefix_append_right_inj]
  simp only [List.cons_prefix_cons, true_and, List.nil_prefix, and_true]
  exact and_congr_left fun _ => ⟨LoaderEndpointKind.kindStr_injective, congrArg _⟩

/-- What is pinned below the globals directory is below no endpoint's directory. -/
theorem not_endpointLinkDir_isPrefix (h : IsIfaceName link) (kind : LoaderEndpointKind)
    (name : String) : ¬ root.endpointLinkDir kind link <+: root.root ++ ["globals", name] := by
  rw [endpointLinkDir_eq h, List.prefix_append_right_inj, List.cons_prefix_cons]
  intro hbelow
  exact absurd hbelow.1 (by decide)

/-- **Round trip.** The listing reads the pin of a hook back as its endpoint and program,
    and no other pin of the layout as that. -/
theorem matchRel_eq_some (hhook : hook ∈ kind.hooks) {program : String} :
    matchRel [kind.kindStr, link, hook.programName] = some ((kind', link'), program) ↔
      kind = kind' ∧ link = link' ∧ hook.programName = program := by
  have hname := (kind.isIfaceName_programName hhook).2
  have hfind : ∃ found, matchPin kind hook.programName = some found ∧
      found.programName = hook.programName := by
    have hsome : (matchPin kind hook.programName).isSome :=
      List.find?_isSome.mpr ⟨hook, hhook, beq_self_eq_true _⟩
    obtain ⟨found, hfound⟩ := Option.isSome_iff_exists.mp hsome
    have hbeq := List.find?_some (p := fun h : HookSpec => h.programName == hook.programName) hfound
    exact ⟨found, hfound, eq_of_beq hbeq⟩
  obtain ⟨found, hfound, hprogram⟩ := hfind
  have hmatch : matchRel [kind.kindStr, link, hook.programName] =
      some ((kind, link), hook.programName) := by
    have hfile : Path.fileName [kind.kindStr, link, hook.programName] = some hook.programName := by
      simp [Path.fileName, Option.filter, hname]
    simp [matchRel, Path.parent, PinRoot.parsePinSubpath, hfile,
      LoaderEndpointKind.fromKindStr_eq_some.mpr rfl, hfound, hprogram]
  rw [hmatch]
  simp only [Option.some.injEq, Prod.mk.injEq, and_assoc]

end Sarena.Loader
