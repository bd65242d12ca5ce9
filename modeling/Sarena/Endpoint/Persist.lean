import Sarena.Infra.Address

namespace Sarena

/-!
# Endpoint — the persisted data and the worker's state

`EndpointSpec` and `EndpointPersist` are what an endpoint writes to its state
directory; `EndpointState` is what its worker owns and publishes.  The errors are the
ones the modelled functions build or pass on.
-/

/-- `EndpointId`: a `u16`. -/
abbrev EndpointId := Fin 65536

-- Ids are written as numerals.
instance neZero_endpointIds : NeZero 65536 := ⟨by decide⟩

/-- `MIN_ID`, the first allocatable id. -/
def minId : EndpointId := 1

/-- `MAX_ID`, the last allocatable id. -/
def maxId : EndpointId := 4095

/-- An id the allocator hands out and the state directories are read for. -/
def EndpointId.Allocatable (id : EndpointId) : Prop := minId ≤ id ∧ id ≤ maxId

instance (id : EndpointId) : Decidable (EndpointId.Allocatable id) :=
  inferInstanceAs (Decidable (_ ∧ _))

/-- `Display` of an endpoint id. -/
def EndpointId.text (id : EndpointId) : String := Nat.repr id.val

/-- `EndpointSpec`. -/
structure EndpointSpec where
  containerName : Option String := none
  containerId : Option String := none
  dockerNetworkId : Option String := none
  dockerEndpoint : Option String := none
  hostIfaceName : String := ""
  hostIfaceIndex : UInt32 := 0
  containerMac : MacAddress := default
  hostMac : MacAddress := default
  ipv4 : Option Ipv4Addr := none
  ipv6 : Option Ipv6Addr := none
  k8sNs : Option String := none
  k8sPodName : Option String := none
  deriving DecidableEq, Repr, Inhabited

/-- `EndpointSpec::k8s_ns_and_pod_name`: the namespace and the pod name, when both are set. -/
def EndpointSpec.k8sNsAndPodName (spec : EndpointSpec) : Option String := do
  let ns ← spec.k8sNs
  let name ← spec.k8sPodName
  return s!"{ns}/{name}"

/-- `EndpointSpec::ips`: the IPv4 address, then the IPv6 address. -/
def EndpointSpec.ips (spec : EndpointSpec) : List IpAddr :=
  (spec.ipv4.map IpAddr.v4).toList ++ (spec.ipv6.map IpAddr.v6).toList

/-- `EndpointPersist`: an id with its spec. -/
structure EndpointPersist extends EndpointSpec where
  id : EndpointId
  deriving DecidableEq, Repr, Inhabited

/-! ### Errors -/

/-- `std::io::ErrorKind`, as far as the source tells kinds apart. -/
inductive IoErrorKind
  | notFound
  | other
  deriving DecidableEq, Repr

/-- `std::io::Error`. -/
structure IoError where
  kind : IoErrorKind
  message : String
  deriving DecidableEq, Repr

/-- `std::io::Result`. -/
abbrev IoResult (α : Type) := Except IoError α

/-- `DataPlaneError`; `loader` stands for the variants only the loader builds, with the
    text they display. -/
inductive DataPlaneError
  | actorGone
  | actorCancelled
  | jsonError (message : String)
  | fileError (error : IoError)
  | generalError (message : String)
  | loader (message : String)
  deriving DecidableEq, Repr

/-- `Display` of a data-plane error. -/
def DataPlaneError.text : DataPlaneError → String
  | .actorGone => "actor is no longer running"
  | .actorCancelled => "actor dropped the request before it completed"
  | .jsonError message => s!"json error: {message}"
  | .fileError error => s!"json error: {error.message}"
  | .generalError message => s!"general error: {message}"
  | .loader message => message

/-- `Res` of the data-plane crate. -/
abbrev Res (α : Type) := Except DataPlaneError α

/-! ### The worker's state -/

/-- `EndpointPhase`. -/
inductive EndpointPhase
  | created
  | regenerating
  | ready
  | failed (message : String)
  deriving DecidableEq, Repr

/-- `EndpointState`: what the worker owns and publishes; the generation is a `u64`. -/
structure EndpointState where
  persist : EndpointPersist
  phase : EndpointPhase := .created
  generation : UInt64 := 0
  deriving DecidableEq, Repr

/-- `EndpointState::id`. -/
def EndpointState.id (state : EndpointState) : EndpointId := state.persist.id

end Sarena
