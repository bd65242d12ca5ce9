import Sarena.Api.Client
import Sarena.Infra.MacAddress

namespace Sarena

open Lib

/-!
# CNI — the plugin

The commands ADD and DEL of the CNI plugin, as programs over the calls of the daemon's API and
of the network infrastructure.  What the infrastructure answers is left open.

* `InfraOp`, `NetlinkLink` — the namespaces and links that the plugin works on;
* `CniPlugin` — what other crates do for the plugin;
* `CniPlugin.setupVeth`, `CniPlugin.configureIface` — the two halves of the network set-up;
* `CniPlugin.add`, `CniPlugin.del` — the commands;
* `IpamLease.guarded` — a part of a command that gives its addresses back when it fails.
-/

/-! ### The infrastructure -/

/-- `InfraError`: a link that is not there, or any other error with its text. -/
inductive InfraError
  | linkNotFound (name : String)
  | other (text : String)
  deriving DecidableEq, Repr

/-- `InterfaceAddress`: an address with a prefix length of its family. -/
abbrev InterfaceAddress := IpNet

/-- `IpNet::from`. -/
def IpNet.ofAddr : IpAddr → IpNet
  | .v4 ip => .v4 ip 32
  | .v6 ip => .v6 ip 128

/-- `FromStr` of an interface address: a block, or an address with the longest prefix. -/
def InterfaceAddress.parse (text : IpText) (s : String) : Except InfraError InterfaceAddress :=
  match text.parseNet s with
  | some net => .ok net
  | none => match text.parseAddr s with
    | .ok ip => .ok (.ofAddr ip)
    | .error e => .error (.other e)

/-- `Display` of an interface address. -/
def InterfaceAddress.text (text : IpText) (addr : InterfaceAddress) : String :=
  s!"{text.showAddr addr.addr}/{addr.prefixLen}"

/-- `Route`, with the fields that the plugin sets. -/
structure Route where
  target : IpNet
  nexthop : Option IpAddr := none
  mtu : Option UInt32 := none
  deriving DecidableEq, Repr

/-- `sort_by_mask_narrowest_first`. -/
def sortByMaskNarrowestFirst (routes : List Route) : List Route :=
  routes.mergeSort fun a b => decide (b.target.prefixLen ≤ a.target.prefixLen)

/-- `NetlinkLink`, with the fields that the plugin reads. -/
structure NetlinkLink where
  name : String
  index : UInt32
  mac : MacAddress
  netns : Option String
  deriving DecidableEq, Repr

/-- `VethSpec`. -/
structure VethSpec where
  hostIfname : String
  hostMac : Option MacAddress
  peerIfname : String
  peerMac : Option MacAddress
  deriving DecidableEq, Repr

/-- The calls of the infrastructure, and the random numbers. -/
inductive InfraOp : Type → Type
  | openPath (path : String) : InfraOp (Except InfraError Unit)
  | deleteLinkInNs (netns name : String) : InfraOp (Except InfraError Unit)
  | generateRand : InfraOp MacAddress
  | createVeth (spec : VethSpec) : InfraOp (Except InfraError (NetlinkLink × NetlinkLink))
  | setNs (link : NetlinkLink) (target : String) : InfraOp (Except InfraError Unit)
  | rename (link : NetlinkLink) (name : String) : InfraOp (Except InfraError Unit)
  | setRpFilter (link : NetlinkLink) (value : UInt8) : InfraOp (Except InfraError Unit)
  | setMtu (link : NetlinkLink) (mtu : UInt32) : InfraOp (Except InfraError Unit)
  | setUp (link : NetlinkLink) : InfraOp (Except InfraError Unit)
  | addAddr (link : NetlinkLink) (addr : InterfaceAddress) : InfraOp (Except InfraError Unit)
  | addRoute (link : NetlinkLink) (route : Route) : InfraOp (Except InfraError Unit)

/-! ### Commands -/

/-- `Args`, with what the commands read of it: of its configuration, whether there is a previous
    result, and the daemon's endpoint. -/
structure CniArgs where
  containerId : Option String
  netns : Option String
  ifname : Option String
  prevResult : Bool := false
  daemonEndpoint : Option String := none
  deriving DecidableEq, Repr

/-- `ArgsSpec`. -/
structure ArgsSpec where
  k8sPodName : String
  k8sPodNamespace : String
  k8sPodUid : String
  deriving DecidableEq, Repr

/-- `Error` of the CNI library, with the two cases that the plugin makes. -/
inductive CniError
  | invalidNetworkConfig (message : String)
  | pluginNotAvailable (message : String)
  deriving DecidableEq, Repr

/-- The operations of a command. -/
abbrev CniOp (β : Type) := TransportOp β ⊕ InfraOp β

/-- A command, or a part of one. -/
abbrev CniCall (α : Type) := ExceptT CniError (Prog CniOp) α

namespace CniCall

variable {α : Type}

/-- A call of the daemon's API, under `map_err(|_| Error::PluginNotAvailable(message))?`. -/
def api (call : ClientCall α) (message : String) : CniCall α :=
  ExceptT.mk <| Except.mapError (fun _ => .pluginNotAvailable message) <$>
    call.run.mapOps fun _ => Sum.inl

/-- An operation of the infrastructure. -/
def op (e : InfraOp α) : CniCall α := ExceptT.lift (perform (.inr e))

/-- A fallible operation of the infrastructure, under `map_err(..)?`. -/
def infra (e : InfraOp (Except InfraError α)) (err : InfraError → CniError) : CniCall α := do
  let r ← op e
  ExceptT.mk (pure (r.mapError err))

/-- A result that was computed without any operation, under `map_err(..)?`. -/
def attempt {ε : Type} (r : Except ε α) (err : ε → CniError) : CniCall α :=
  ExceptT.mk (pure (r.mapError err))

/-- `let Some(a) = a else { return Err(e) }`. -/
def require (a : Option α) (e : CniError) : CniCall α :=
  match a with
  | some a => pure a
  | none => throw e

/-- `if !cond { return Err(e) }`. -/
def ensure (cond : Bool) (e : CniError) : CniCall Unit := if cond then pure () else throw e

end CniCall

/-- What other crates do for the plugin: the text of addresses, `FromStr` of the addresses of
    either family, `Debug` of a string, the hexadecimal text of a SHA-256 digest, and the client
    for a daemon's endpoint, unless it cannot be built. -/
structure CniPlugin where
  text : IpText
  parseIpv4 : String → Except String Ipv4Addr
  parseIpv6 : String → Except String Ipv6Addr
  debug : String → String
  sha256 : String → String
  client : Option String → Option ApiClient

/-- `IpamLease`. -/
structure IpamLease where
  ipv4 : Option ContainerAddressing
  ipv6 : Option ContainerAddressing

/-- `Drop for IpamLease`, for one family; an error is only logged. -/
def releaseLeased (client : ApiClient) : Option ContainerAddressing → Prog CniOp Unit
  | some addressing => do
    let _ ← (client.release addressing.ip addressing.pool).run.mapOps fun _ => Sum.inl
  | none => pure ()

/-- `body`, while the lease is held: it is kept when `body` succeeds, and dropped when it fails.
    The task that the drop spawns may be cut like any other part of the program. -/
def IpamLease.guarded {α : Type} (lease : IpamLease) (client : ApiClient) (body : CniCall α) :
    CniCall α :=
  ExceptT.mk do
    match ← body.run with
    | .ok a => return .ok a
    | .error e => do
      releaseLeased client lease.ipv4
      releaseLeased client lease.ipv6
      return .error e

/-! ### Names -/

/-- `IFNAMSIZ`. -/
def IFNAMSIZ : Nat := 16

/-- `HOST_INTERFACE_PREFIX`. -/
def HOST_INTERFACE_PREFIX : String := "lxc"

/-- `TEMPORARY_INTERFACE_PREFIX`. -/
def TEMPORARY_INTERFACE_PREFIX : String := "tmp"

/-- `truncate`, on characters: as many as fit into the number of bytes. -/
def truncate : Nat → List Char → List Char
  | _, [] => []
  | maxLen, c :: cs =>
    if c.utf8Size ≤ maxLen then c :: truncate (maxLen - c.utf8Size) cs else []

/-- `endpoint_to_ifname`. -/
def endpointToIfname (sha256 : String → String) (endpointId : String) : String :=
  let truncateLen := IFNAMSIZ - TEMPORARY_INTERFACE_PREFIX.utf8ByteSize - 1
  HOST_INTERFACE_PREFIX ++ String.ofList (truncate truncateLen (sha256 endpointId).toList)

/-- `endpoint_to_temp_ifname`. -/
def endpointToTempIfname (endpointId : String) : String :=
  TEMPORARY_INTERFACE_PREFIX ++ String.ofList (truncate 5 endpointId.toList)

/-! ### The result of ADD -/

/-- `Interface` of a CNI result, with the fields that are set. -/
structure CniInterface where
  name : String
  mac : String
  sandbox : Option String := none
  deriving DecidableEq, Repr

/-- `IpConfig`. -/
structure IpConfig where
  interface : Option Nat
  address : IpNet
  gateway : Option IpAddr
  deriving DecidableEq, Repr

/-- `types::Route`, with the fields that are set. -/
structure CniRoute where
  dst : IpNet
  mtu : Option UInt32
  gw : Option IpAddr
  deriving DecidableEq, Repr

/-- `CNIResult`, with the fields that are set. -/
structure CniResult where
  interfaces : List CniInterface
  ips : List IpConfig
  routes : List CniRoute
  deriving DecidableEq, Repr

/-- `convert_to_cni_routes`. -/
def convertToCniRoutes (routes : List Route) : List CniRoute :=
  routes.map fun r => ⟨r.target, r.mtu, r.nexthop⟩

/-- `IPV4_DEFAULT_ROUTE` and `IPV6_DEFAULT_ROUTE`, for the family of an address. -/
def defaultRoute : IpAddr → IpNet
  | .v4 _ => .v4 0 0
  | .v6 _ => .v6 0 0

/-- The part `ipv4_routes` and `ipv6_routes` share: a host route to the gateway, and a default
    route through it. -/
def gatewayRoutes (gateway : IpAddr) (linkMtu : UInt32) : List Route :=
  [{ target := .ofAddr gateway },
    { target := defaultRoute gateway, nexthop := some gateway, mtu := some linkMtu }]

/-- `ipv4_routes`. -/
def ipv4Routes (ip : Ipv4Addr) (linkMtu : UInt32) : List Route := gatewayRoutes (.v4 ip) linkMtu

/-- `ipv6_routes`. -/
def ipv6Routes (ip : Ipv6Addr) (linkMtu : UInt32) : List Route := gatewayRoutes (.v6 ip) linkMtu

/-- What `add` computes for one family. -/
structure FamilyConfig where
  routes : List Route
  endpointIp : InterfaceAddress
  pool : Option String
  gateway : IpAddr

namespace FamilyConfig

/-- The addressing of the endpoint. -/
def addressing (text : IpText) (f : FamilyConfig) : Addressing :=
  { ip := InterfaceAddress.text text f.endpointIp, pool := f.pool }

/-- The address in the result. -/
def ipConfig (f : FamilyConfig) : IpConfig := ⟨some 1, f.endpointIp, some f.gateway⟩

end FamilyConfig

namespace CniPlugin

open CniCall

variable (plugin : CniPlugin)

/-- `Display` of an infrastructure error. -/
def infraText : InfraError → String
  | .linkNotFound name => s!"link {plugin.debug name} not found"
  | .other text => text

/-- `infra_err`. -/
def infraErr (e : InfraError) : CniError := .invalidNetworkConfig (plugin.infraText e)

/-- `Netns::open_path` in either command. -/
def openNetns (netnsPath : String) : CniCall Unit :=
  infra (.openPath netnsPath) fun e =>
    .invalidNetworkConfig s!"could not open namespace {netnsPath}: {plugin.infraText e}"

/-- `setup_veth`. -/
def setupVeth (containerId ifname peerNetnsPath : String) (deviceMtu : UInt32) :
    CniCall (NetlinkLink × NetlinkLink) := do
  let endpointId := s!"{containerId}:{ifname}"
  let lxcIfname := endpointToIfname plugin.sha256 endpointId
  let tmpPeerIfname := endpointToTempIfname endpointId
  let hostMac ← op .generateRand
  let lxcMac ← op .generateRand
  let (host, peer) ← infra (.createVeth ⟨lxcIfname, some hostMac, tmpPeerIfname, some lxcMac⟩)
    fun e => .invalidNetworkConfig s!"could not create veth pair: {plugin.infraText e}"
  infra (.openPath peerNetnsPath) plugin.infraErr
  infra (.setNs peer peerNetnsPath) plugin.infraErr
  let peer := { peer with netns := some peerNetnsPath }
  infra (.rename peer ifname) fun e =>
    .invalidNetworkConfig s!"could not rename peer interface: {plugin.infraText e}"
  let peer := { peer with name := ifname }
  infra (.setRpFilter host 0) fun e =>
    .invalidNetworkConfig s!"could not disable rp filter: {plugin.infraText e}"
  infra (.setMtu host deviceMtu) plugin.infraErr
  infra (.setMtu peer deviceMtu) plugin.infraErr
  infra (.setUp host) plugin.infraErr
  return (host, peer)

/-- `configure_iface`. -/
def configureIface (peer : NetlinkLink) (addresses : List InterfaceAddress) (routes : List Route) :
    CniCall Unit := do
  infra (.setUp peer) plugin.infraErr
  addresses.forM fun addr => infra (.addAddr peer addr) plugin.infraErr
  (sortByMaskNarrowestFirst routes).forM fun r => infra (.addRoute peer r) fun e =>
    .invalidNetworkConfig s!"failed to add route: {plugin.infraText e}"

/-- The part of `add` that both families share, for a family that has the daemon's address and
    the container's. -/
def familyConfig {α : Type} (parse : String → Except String α) (family : String)
    (gatewayIp : α → IpAddr) (routes : α → UInt32 → List Route) (routeMtu : UInt32)
    (host : Option String) (container : Option ContainerAddressing) :
    CniCall (Option FamilyConfig) :=
  match host, container with
  | some host, some container => do
    let gateway ← attempt (parse host) fun e =>
      .pluginNotAvailable s!"could not parse host {family} address: {e}"
    let endpointIp ← attempt (InterfaceAddress.parse plugin.text container.ip) fun _ =>
      .pluginNotAvailable "could not parse interface address"
    return some {
      routes := routes gateway routeMtu
      endpointIp := endpointIp
      pool := container.pool
      gateway := gatewayIp gateway }
  | _, _ => return none

/-- `add` from the point on where it holds a lease of its addresses. -/
def attach (client : ApiClient) (containerId ifname netnsPath : String) (spec : ArgsSpec)
    (config : DaemonConfigurationResponse) (response : IpamAllocateResponse) :
    CniCall CniResult := do
  let hostAddressing := response.hostAddressing
  ensure (hostAddressing.ipv4.isSome || hostAddressing.ipv6.isSome)
    (.pluginNotAvailable "ipam should return valid host addressing")
  let (host, peer) ← plugin.setupVeth containerId ifname netnsPath config.deviceMtu
  let ipv4 ← plugin.familyConfig plugin.parseIpv4 "ipv4" .v4 ipv4Routes config.routeMtu
    hostAddressing.ipv4 response.ipv4
  let ipv6 ← plugin.familyConfig plugin.parseIpv6 "ipv6" .v6 ipv6Routes config.routeMtu
    hostAddressing.ipv6 response.ipv6
  let families := ipv4.toList ++ ipv6.toList
  plugin.configureIface peer (families.map (·.endpointIp)) (families.flatMap (·.routes))
  let _ ← api (client.create (attachmentId containerId ifname) {
    containerId := containerId
    containerMac := peer.mac.text
    containerIfaceName := ifname
    hostMac := host.mac.text
    hostIfaceName := host.name
    hostIfaceIndex := host.index
    k8sNamespace := spec.k8sPodNamespace
    k8sPodName := spec.k8sPodName
    k8sUid := spec.k8sPodUid
    ipv4 := ipv4.map (·.addressing plugin.text)
    ipv6 := ipv6.map (·.addressing plugin.text) }) "could not create endpoint"
  return {
    interfaces := [⟨host.name, host.mac.text, none⟩, ⟨ifname, peer.mac.text, some netnsPath⟩]
    ips := families.map (·.ipConfig)
    routes := families.flatMap fun f => convertToCniRoutes f.routes }

/-- The link that an earlier ADD may have left is deleted; it need not be there. -/
def deleteStaleLink (netnsPath ifname : String) : CniCall Unit := do
  match ← op (.deleteLinkInNs netnsPath ifname) with
  | .ok () => return
  | .error (.linkNotFound _) => return
  | .error e =>
    throw (.invalidNetworkConfig s!"could not delete link {ifname}: {plugin.infraText e}")

/-- `build_api_client`. -/
def buildApiClient (args : CniArgs) : CniCall ApiClient :=
  require (plugin.client args.daemonEndpoint) (.pluginNotAvailable "DaemonDown")

/-- `add`. -/
def add (args : CniArgs) (spec : ArgsSpec) : CniCall CniResult := do
  let netnsPath ← require args.netns (.invalidNetworkConfig "missing CNI_NETNS")
  let ifname ← require args.ifname (.invalidNetworkConfig "missing CNI_IFNAME")
  let containerId ← require args.containerId (.invalidNetworkConfig "missing CNI_CONTAINERID")
  ensure (!args.prevResult) (.invalidNetworkConfig "chaining is currently not supported")
  plugin.openNetns netnsPath
  plugin.deleteStaleLink netnsPath ifname
  let client ← plugin.buildApiClient args
  let config ← api client.getConfig "could not read config"
  let podName := s!"{spec.k8sPodNamespace}/{spec.k8sPodName}"
  let response ← api (client.allocate none (some podName) none true) "could not allocate ip"
  ensure (response.ipv4.isSome || response.ipv6.isSome)
    (.pluginNotAvailable "ipam should return valid addressing")
  IpamLease.guarded ⟨response.ipv4, response.ipv6⟩ client
    (plugin.attach client containerId ifname netnsPath spec config response)

/-- `del`. -/
def del (args : CniArgs) : CniCall Unit := do
  let netnsPath ← require args.netns (.invalidNetworkConfig "missing CNI_NETNS")
  let ifname ← require args.ifname (.invalidNetworkConfig "missing CNI_IFNAME")
  let containerId ← require args.containerId (.invalidNetworkConfig "missing CNI_CONTAINERID")
  let client ← plugin.buildApiClient args
  api (client.delete (attachmentId containerId ifname)) "could not delete endpoint"
  plugin.openNetns netnsPath
  -- Whether the link could be deleted is only logged.
  let _ ← op (.deleteLinkInNs netnsPath ifname)
  return

end CniPlugin

end Sarena
