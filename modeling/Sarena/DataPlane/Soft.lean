import Mathlib.Data.List.AList
import Sarena.DataPlane.Frame
import Sarena.Lib.KeyMap
import Sarena.Lib.Run

namespace Sarena.Soft

open Lib

/-!
# Soft data plane — tables, frames and table updates

The state of `SoftDataplane`: routes, interfaces, endpoints, tunnels, services, and the
conntrack table with its reply index.  A frame is translated by the conntrack table or by
a service, rewritten, and forwarded along a route.

* `State`, `translate`, `rewritten`, `forward`, `decide` — `SoftDataplane::decide`;
* `SoftEvent`, `Step` — frames and table updates in any order;
* `TableStep`, `Step.tables` — everything a step can do to the conntrack table and its
  reply index: translate a flow, see a reply, flush, or nothing.

The hash that routes and backends are chosen by is a parameter: `DefaultHasher` is a fixed
function of the flow.  Arithmetic is checked, as in a debug build.
-/

abbrev NodeId := BitVec 32
abbrev InterfaceId := BitVec 32
abbrev EndpointId := BitVec 32

structure Interface where
  id : InterfaceId
  mac : Option MacAddress

structure Endpoint where
  id : EndpointId
  addresses : List IpAddr

inductive NextHop
  | local (interface : InterfaceId)
  | remote (node : NodeId)
  | gateway (address : IpAddr)
  | blackhole
  deriving DecidableEq

structure Route where
  destination : IpNet
  nextHop : NextHop
  weight : BitVec 8

/-- `Tunnel`, with the VNI of its only kind. -/
structure Tunnel where
  localNode : NodeId
  remoteNode : NodeId
  vni : BitVec 32
  remoteAddress : IpAddr

structure ServiceFrontend where
  address : IpAddr
  port : Port
  protocol : IpProto
  deriving DecidableEq

/-- `Nat`. -/
inductive NatRule
  | source (address : IpAddr)
  | destination (address : IpAddr) (port : Option Port)
  | masquerade
  deriving DecidableEq

structure ServiceBackend where
  endpoint : EndpointId
  port : Port
  nat : NatRule
  deriving DecidableEq

structure Service where
  frontend : ServiceFrontend
  backends : List ServiceBackend

inductive ConnectionState
  | new
  | established
  | closing
  | closed
  deriving DecidableEq

structure ConntrackEntry where
  original : FlowTuple
  reply : FlowTuple
  state : ConnectionState
  lastSeen : Nat

/-- `State`.  The routes are listed in the order in which the map iterates over them. -/
structure State where
  interfaces : KeyMap InterfaceId Interface
  endpoints : KeyMap EndpointId Endpoint
  routes : List (IpNet × List Route)
  tunnels : KeyMap (NodeId × NodeId) Tunnel
  services : KeyMap ServiceFrontend Service
  conntrack : AList fun _ : FlowTuple => ConntrackEntry
  conntrackReplyIndex : KeyMap FlowTuple FlowTuple

/-- `State::default`. -/
def State.default : State where
  interfaces := .empty
  endpoints := .empty
  routes := []
  tunnels := .empty
  services := .empty
  conntrack := ∅
  conntrackReplyIndex := .empty

inductive Decision
  | deliver (interface : InterfaceId) (frame : Frame)
  | encapsulate (remoteAddr : IpAddr) (vni : BitVec 32) (frame : Frame)
  | drop

/-! ### Routes -/

/-- `r.weight.max(1)`. -/
def Route.effectiveWeight (r : Route) : Nat := max r.weight.toNat 1

/-- `routes.iter().map(|r| u32::from(r.weight.max(1))).sum()`. -/
def sumWeights (sum : Nat) : List Route → Checked Nat
  | [] => pure sum
  | r :: rest => do sumWeights (← Checked.addU32 sum r.effectiveWeight) rest

/-- The loop of `select_route`: the route whose share of the weights holds `target`. -/
def pickRoute (target : Nat) : List Route → Checked (Option Route)
  | [] => pure none
  | r :: rest =>
    if target < r.effectiveWeight then pure (some r)
    else do pickRoute (← Checked.sub target r.effectiveWeight) rest

/-- `select_route`. -/
def selectRoute (hash : FlowTuple → BitVec 64) (routes : List Route) (flow : FlowTuple) :
    Checked (Option Route) :=
  if routes.isEmpty then pure none
  else do
    let totalWeight ← sumWeights 0 routes
    let target ← Checked.rem (hash flow).toNat totalWeight
    let picked ← pickRoute target routes
    return picked.or routes.getLast?

/-- The loop of `lookup_route`: the first group, in iteration order, among those of the
    longest prefix that contains the destination. -/
def bestGroup (routes : List (IpNet × List Route)) (dst : IpAddr) : Option (Nat × List Route) :=
  routes.foldl (fun best (net, group) =>
    if net.contains dst && best.all (fun b => decide (b.1 < net.prefixLen)) then
      some (net.prefixLen, group)
    else best) none

/-- `lookup_route`. -/
def lookupRoute (hash : FlowTuple → BitVec 64) (routes : List (IpNet × List Route)) (dst : IpAddr)
    (flow : FlowTuple) : Checked (Option Route) :=
  match bestGroup routes dst with
  | none => pure none
  | some (_, group) => selectRoute hash group flow

/-- `SoftDataplane::forward`. -/
def forward (hash : FlowTuple → BitVec 64) (localNode : NodeId) (s : State) (frame : Frame) :
    Checked Decision := do
  let ip? ← parseIpv4 frame
  match ip? with
  | none => return .drop
  | some ip =>
    let flow ← flowOf frame ip ((ipProtoFromByte ip.protocol).getD .icmp)
    let route? ← lookupRoute hash s.routes (.v4 ip.dst) flow
    match route? with
    | none => return .drop
    | some route =>
      match route.nextHop with
      | .local ifaceId =>
        match (s.interfaces ifaceId).bind (·.mac) with
        | some mac =>
          let out ← frame.copyFromSlice 0 6 (mac.octets.toList.map (·.toBitVec))
          return .deliver ifaceId out
        | none => return .deliver ifaceId frame
      | .remote nodeId =>
        match s.tunnels (localNode, nodeId) with
        | some tunnel => return .encapsulate tunnel.remoteAddress tunnel.vni frame
        | none => return .drop
      | .gateway _ => return .drop
      | .blackhole => return .drop

/-! ### Translation -/

/-- `select_backend`. -/
def selectBackend (hash : FlowTuple → BitVec 64) (backends : List ServiceBackend)
    (flow : FlowTuple) : Option ServiceBackend :=
  if backends.isEmpty then none else backends[(hash flow).toNat % backends.length]?

/-- What the tables make of a frame: a new source, a new destination, or neither. -/
inductive Translation
  | keep
  | source (address : Ipv4Addr) (port : Port)
  | destination (address : Ipv4Addr) (port : Port)
  | drop

/-- The frontend that a frame is addressed to. -/
def FlowTuple.frontend (wire : FlowTuple) : ServiceFrontend where
  address := wire.dst
  port := wire.dstPort
  protocol := wire.protocol

/-- The 5-tuple of the replies to a flow that is translated to a backend. -/
def FlowTuple.reply (wire : FlowTuple) (address : Ipv4Addr) (port : Port) : FlowTuple where
  src := .v4 address
  srcPort := port
  dst := wire.src
  dstPort := wire.srcPort
  protocol := wire.protocol

/-- The entry of a flow after one more reply. -/
def ConntrackEntry.touch (entry : ConntrackEntry) (now : Nat) : ConntrackEntry :=
  { entry with
    lastSeen := now
    state := if entry.state = .new then .established else entry.state }

/-- The translation steps of `SoftDataplane::decide`, on the tables alone. -/
def translate (hash : FlowTuple → BitVec 64) (now : Nat) (s : State) (wire : FlowTuple) :
    Translation × State :=
  match s.conntrackReplyIndex wire with
  | some original =>
    -- 1. Return traffic for a flow we already NAT'd?
    match s.conntrack.lookup original with
    | some entry =>
      let s := { s with conntrack := s.conntrack.insert original (entry.touch now) }
      match entry.original.dst with
      | .v4 frontendAddr => (.source frontendAddr entry.original.dstPort, s)
      | .v6 _ => (.keep, s)
    | none => (.keep, s)
  | none =>
    -- 2. New traffic to a known service frontend?
    match s.services wire.frontend with
    | none => (.keep, s)
    | some service =>
      match selectBackend hash service.backends wire with
      | none => (.drop, s)
      | some backend =>
        match backend.nat with
        | .destination (.v4 backendAddr) port =>
          let backendPort := port.getD backend.port
          let reply := wire.reply backendAddr backendPort
          (.destination backendAddr backendPort,
            { s with
              conntrack := s.conntrack.insert wire
                { original := wire, reply, state := .new, lastSeen := now }
              conntrackReplyIndex := s.conntrackReplyIndex.insert reply wire })
        | _ => (.drop, s)

/-- The frame that `SoftDataplane::decide` forwards, if it forwards one. -/
def rewritten (frame : Frame) (ihl : Nat) : Translation → Checked (Option Frame)
  | .keep => pure (some frame)
  | .source address port => some <$> rewriteIpv4 frame ihl (some address) none (some port) none
  | .destination address port =>
    some <$> rewriteIpv4 frame ihl none (some address) none (some port)
  | .drop => pure none

/-- `SoftDataplane::decide`.  The tables are updated before the frame is rewritten, so they
    are updated even when rewriting panics. -/
def decide (hash : FlowTuple → BitVec 64) (localNode : NodeId) (now : Nat) (s : State)
    (frame : Frame) : Checked Decision × State :=
  match parseWire frame with
  | .error p => (.error p, s)
  | .ok none => (.ok .drop, s)
  | .ok (some (ip, wire)) =>
    let (translation, s') := translate hash now s wire
    (do
      let frame? ← rewritten frame ip.ihl translation
      match frame? with
      | none => return .drop
      | some frame => forward hash localNode s' frame, s')

/-! ### Table updates -/

/-- One round of the removal loop of `flush_conntrack`. -/
def removeFlow (s : State) (key : FlowTuple) : State :=
  match s.conntrack.lookup key with
  | some entry =>
    { s with
      conntrack := s.conntrack.erase key
      conntrackReplyIndex := s.conntrackReplyIndex.remove entry.reply }
  | none => s

/-- The entries that `flush_conntrack` removes for an endpoint. -/
def stale (ep : Endpoint) (entry : ConntrackEntry) : Bool :=
  ep.addresses.contains entry.original.src || ep.addresses.contains entry.reply.src

/-- `SoftDataplane::flush_conntrack`. -/
def flushConntrack (s : State) (endpoint : EndpointId) : State :=
  match s.endpoints endpoint with
  | none => s
  | some ep =>
    let keys := ((s.conntrack.entries.map (·.2)).filter (stale ep)).map (·.original)
    keys.foldl removeFlow s

/-- `match group.iter_mut().find(…) { Some(existing) => *existing = route, None => push }` -/
def upsertRoute (route : Route) : List Route → List Route
  | [] => [route]
  | r :: rest =>
    if r.nextHop = route.nextHop then route :: rest else r :: upsertRoute route rest

/-- `SoftDataplane::add_route`. -/
def addRoute (s : State) (route : Route) : State :=
  let others := s.routes.filter (·.1 ≠ route.destination)
  let group := ((s.routes.find? (·.1 = route.destination)).map (·.2)).getD []
  { s with routes := others ++ [(route.destination, upsertRoute route group)] }

/-- `SoftDataplane::remove_route`. -/
def removeRoute (s : State) (destination : IpNet) (nextHop : NextHop) : State :=
  let shrink := fun (net, group) =>
    if net = destination then (net, group.filter fun r => r.nextHop ≠ nextHop) else (net, group)
  { s with
    routes := (s.routes.map shrink).filter fun (net, group) =>
      !(net == destination && group.isEmpty) }

/-- A frame arrives, or a table is updated. -/
inductive SoftEvent
  | frame (now : Nat) (frame : Frame)
  | addService (service : Service)
  | removeService (frontend : ServiceFrontend)
  | flushConntrack (endpoint : EndpointId)
  | addEndpoint (endpoint : Endpoint)
  | removeEndpoint (id : EndpointId)
  | addInterface (interface : Interface)
  | removeInterface (id : InterfaceId)
  | addRoute (route : Route)
  | removeRoute (destination : IpNet) (nextHop : NextHop)
  | addTunnel (tunnel : Tunnel)
  | removeTunnel (localNode remoteNode : NodeId)

/-- The tables after an event. -/
def apply (hash : FlowTuple → BitVec 64) (localNode : NodeId) (s : State) : SoftEvent → State
  | .frame now frame => (decide hash localNode now s frame).2
  | .addService service => { s with services := s.services.insert service.frontend service }
  | .removeService frontend => { s with services := s.services.remove frontend }
  | .flushConntrack endpoint => Soft.flushConntrack s endpoint
  | .addEndpoint endpoint => { s with endpoints := s.endpoints.insert endpoint.id endpoint }
  | .removeEndpoint id => { s with endpoints := s.endpoints.remove id }
  | .addInterface interface => { s with interfaces := s.interfaces.insert interface.id interface }
  | .removeInterface id => { s with interfaces := s.interfaces.remove id }
  | .addRoute route => Soft.addRoute s route
  | .removeRoute destination nextHop => Soft.removeRoute s destination nextHop
  | .addTunnel tunnel =>
    { s with tunnels := s.tunnels.insert (tunnel.localNode, tunnel.remoteNode) tunnel }
  | .removeTunnel localNode remoteNode =>
    { s with tunnels := s.tunnels.remove (localNode, remoteNode) }

/-- A step: an event, after which the map of routes may be iterated in any order. -/
def Step (hash : FlowTuple → BitVec 64) (localNode : NodeId) (s : State) (e : SoftEvent)
    (t : State) : Prop :=
  ∃ routes, routes.Perm (apply hash localNode s e).routes ∧
    t = { apply hash localNode s e with routes }

/-! ### What a frame does to the tables -/

/-- The address and port that a backend is reached at, when its translation is handled. -/
def ServiceBackend.target (backend : ServiceBackend) : Option (Ipv4Addr × Port) :=
  match backend.nat with
  | .destination (.v4 address) port => some (address, port.getD backend.port)
  | _ => none

/-- The backend that the services choose for a frame. -/
def chosen (hash : FlowTuple → BitVec 64) (s : State) (wire : FlowTuple) : Option ServiceBackend :=
  (s.services wire.frontend).bind fun service => selectBackend hash service.backends wire

/-- The backend address and port that the services choose for a frame. -/
def targetOf (hash : FlowTuple → BitVec 64) (s : State) (wire : FlowTuple) :
    Option (Ipv4Addr × Port) :=
  (chosen hash s wire).bind ServiceBackend.target

/-- The flow that a frame belongs to and the backend address and port it is translated to,
    when it takes the forward path and is translated. -/
def dnatOf (hash : FlowTuple → BitVec 64) (s : State) (frame : Frame) :
    Option (FlowTuple × Ipv4Addr × Port) :=
  (wireOf frame).bind fun wire =>
    if (s.conntrackReplyIndex wire).isSome then none else (targetOf hash s wire).map (wire, ·)

/-- The tables after a flow has been translated to a backend. -/
def record (s : State) (now : Nat) (wire reply : FlowTuple) : State :=
  { s with
    conntrack := s.conntrack.insert wire { original := wire, reply, state := .new, lastSeen := now }
    conntrackReplyIndex := s.conntrackReplyIndex.insert reply wire }

/-- The tables after a reply to a flow. -/
def touched (s : State) (now : Nat) (original : FlowTuple) (entry : ConntrackEntry) : State :=
  { s with conntrack := s.conntrack.insert original (entry.touch now) }

variable {hash : FlowTuple → BitVec 64} {localNode : NodeId} {s t : State} {e : SoftEvent}

theorem translate_of_reply {now : Nat} {wire original : FlowTuple} {entry : ConntrackEntry}
    (hindex : s.conntrackReplyIndex wire = some original)
    (hentry : s.conntrack.lookup original = some entry) :
    translate hash now s wire =
      (match entry.original.dst with
        | .v4 frontendAddr => .source frontendAddr entry.original.dstPort
        | .v6 _ => .keep, touched s now original entry) := by
  rw [translate, hindex]
  simp only [hentry]
  cases entry.original.dst with
  | v4 _ => rfl
  | v6 _ => rfl

theorem translate_of_dangling {now : Nat} {wire original : FlowTuple}
    (hindex : s.conntrackReplyIndex wire = some original)
    (hentry : s.conntrack.lookup original = none) : translate hash now s wire = (.keep, s) := by
  rw [translate, hindex]
  simp only [hentry]

theorem translate_of_target {now : Nat} {wire : FlowTuple} {address : Ipv4Addr} {port : Port}
    (hindex : s.conntrackReplyIndex wire = none)
    (htarget : targetOf hash s wire = some (address, port)) :
    translate hash now s wire =
      (.destination address port, record s now wire (wire.reply address port)) := by
  rw [targetOf, chosen, Option.bind_eq_some_iff] at htarget
  obtain ⟨⟨endpoint, backendPort, nat⟩, hchosen, htarget⟩ := htarget
  obtain ⟨service, hservice, hselect⟩ := Option.bind_eq_some_iff.mp hchosen
  rw [translate, hindex]
  simp only [hservice, hselect]
  cases nat with
  | destination backendAddr port =>
    cases backendAddr with
    | v4 backendAddr =>
      cases htarget
      rfl
    | v6 _ => cases htarget
  | _ => cases htarget

theorem translate_of_no_target (now : Nat) {wire : FlowTuple}
    (hindex : s.conntrackReplyIndex wire = none) (htarget : targetOf hash s wire = none) :
    (translate hash now s wire).2 = s ∧
      ((translate hash now s wire).1 = .keep ∨ (translate hash now s wire).1 = .drop) := by
  rw [translate, hindex]
  cases hservice : s.services wire.frontend with
  | none => exact ⟨rfl, .inl rfl⟩
  | some service =>
    rw [targetOf, chosen, hservice, Option.bind_some] at htarget
    dsimp only
    cases hselect : selectBackend hash service.backends wire with
    | none => exact ⟨rfl, .inr rfl⟩
    | some backend =>
      rw [hselect, Option.bind_some] at htarget
      obtain ⟨endpoint, backendPort, nat⟩ := backend
      cases nat with
      | destination backendAddr port =>
        cases backendAddr with
        | v4 _ => cases htarget
        | v6 _ => exact ⟨rfl, .inr rfl⟩
      | _ => exact ⟨rfl, .inr rfl⟩

theorem dnatOf_eq_some {frame : Frame} {wire : FlowTuple} {address : Ipv4Addr} {port : Port} :
    dnatOf hash s frame = some (wire, address, port) ↔
      wireOf frame = some wire ∧ s.conntrackReplyIndex wire = none ∧
        targetOf hash s wire = some (address, port) := by
  rw [dnatOf, Option.bind_eq_some_iff]
  constructor
  · rintro ⟨wire', hwire, h⟩
    split_ifs at h with hindex
    obtain ⟨_, htarget, ⟨⟩⟩ := Option.map_eq_some_iff.mp h
    exact ⟨hwire, Option.not_isSome_iff_eq_none.mp hindex, htarget⟩
  · rintro ⟨hwire, hindex, htarget⟩
    refine ⟨wire, hwire, ?_⟩
    rw [hindex, if_neg nofun, htarget]
    rfl

/-- **A translated frame** records its flow. -/
theorem decide_of_dnat {now : Nat} {frame : Frame} {wire : FlowTuple} {address : Ipv4Addr}
    {port : Port} (h : dnatOf hash s frame = some (wire, address, port)) :
    (decide hash localNode now s frame).2 = record s now wire (wire.reply address port) := by
  obtain ⟨hwire, hindex, htarget⟩ := dnatOf_eq_some.mp h
  rw [decide, parseWire_eq, hwire]
  show (translate hash now s wire).2 = _
  rw [translate_of_target hindex htarget]

/-- **A frame that is not translated** to a backend touches the entry it is a reply to, if
    it is one. -/
theorem decide_of_not_dnat {now : Nat} {frame : Frame} (h : dnatOf hash s frame = none) :
    (decide hash localNode now s frame).2 = s ∨
      ∃ wire original entry, wireOf frame = some wire ∧
        s.conntrackReplyIndex wire = some original ∧ s.conntrack.lookup original = some entry ∧
        (decide hash localNode now s frame).2 = touched s now original entry := by
  rw [decide, parseWire_eq]
  cases hwire : wireOf frame with
  | none => exact .inl rfl
  | some wire =>
    show (translate hash now s wire).2 = s ∨ ∃ wire' original entry, some wire = some wire' ∧
      _ ∧ _ ∧ (translate hash now s wire).2 = _
    cases hindex : s.conntrackReplyIndex wire with
    | some original =>
      cases hentry : s.conntrack.lookup original with
      | none =>
        left
        rw [translate_of_dangling hindex hentry]
      | some entry =>
        right
        refine ⟨wire, original, entry, rfl, hindex, hentry, ?_⟩
        rw [translate_of_reply hindex hentry]
    | none =>
      left
      rw [dnatOf, hwire, Option.bind_some, hindex, if_neg nofun, Option.map_eq_none_iff] at h
      exact (translate_of_no_target _ hindex h).1

/-! ### What a flush does to the tables -/

/-- Every entry lies under its own flow. -/
def Keyed (s : State) : Prop :=
  ∀ o entry, s.conntrack.lookup o = some entry → entry.original = o

theorem removeFlow_conntrack {key o : FlowTuple} {entry : ConntrackEntry} :
    (removeFlow s key).conntrack.lookup o = some entry ↔
      o ≠ key ∧ s.conntrack.lookup o = some entry := by
  rw [removeFlow]
  by_cases ho : o = key
  · rw [ho]
    refine iff_of_false ?_ fun h => h.1 rfl
    cases hkey : s.conntrack.lookup key with
    | none =>
      dsimp only
      rw [hkey]
      nofun
    | some old =>
      show ¬ (s.conntrack.erase key).lookup key = some entry
      rw [AList.lookup_erase]
      nofun
  · cases s.conntrack.lookup key with
    | none => exact (and_iff_right ho).symm
    | some old =>
      show (s.conntrack.erase key).lookup o = some entry ↔ _
      rw [AList.lookup_erase_ne ho]
      exact (and_iff_right ho).symm

theorem removeFlow_index {key r o : FlowTuple} :
    (removeFlow s key).conntrackReplyIndex r = some o ↔
      s.conntrackReplyIndex r = some o ∧
        ∀ entry, s.conntrack.lookup key = some entry → entry.reply ≠ r := by
  rw [removeFlow]
  cases s.conntrack.lookup key with
  | none =>
    refine (and_iff_left ?_).symm
    intro _ h
    cases h
  | some old =>
    show s.conntrackReplyIndex.remove old.reply r = some o ↔ _
    rw [KeyMap.remove_apply]
    by_cases hr : r = old.reply
    · rw [if_pos hr]
      refine iff_of_false ?_ fun h => h.2 old rfl hr.symm
      intro h
      cases h
    · rw [if_neg hr]
      refine (and_iff_left ?_).symm
      rintro _ ⟨⟩ h
      exact hr h.symm

theorem foldl_removeFlow_conntrack (keys : List FlowTuple) {s : State} {o : FlowTuple}
    {entry : ConntrackEntry} :
    (keys.foldl removeFlow s).conntrack.lookup o = some entry ↔
      o ∉ keys ∧ s.conntrack.lookup o = some entry := by
  induction keys generalizing s with
  | nil => exact (and_iff_right List.not_mem_nil).symm
  | cons key keys ih =>
    rw [List.foldl_cons, ih, removeFlow_conntrack, List.mem_cons, not_or, and_assoc]
    exact and_left_comm

theorem foldl_removeFlow_index (keys : List FlowTuple) {s : State} {r o : FlowTuple} :
    (keys.foldl removeFlow s).conntrackReplyIndex r = some o ↔
      s.conntrackReplyIndex r = some o ∧
        ∀ key ∈ keys, ∀ entry, s.conntrack.lookup key = some entry → entry.reply ≠ r := by
  induction keys generalizing s with
  | nil => exact (and_iff_left nofun).symm
  | cons key keys ih =>
    rw [List.foldl_cons, ih, removeFlow_index, List.forall_mem_cons, and_assoc]
    refine and_congr_right fun _ => and_congr_right fun hkey => ?_
    -- The key itself is gone, so it can be left out of the rest.
    constructor
    · intro h q hq entry hentry
      by_cases hqk : q = key
      · exact hkey entry (hqk ▸ hentry)
      · exact h q hq entry (removeFlow_conntrack.mpr ⟨hqk, hentry⟩)
    · intro h q hq entry hentry
      exact h q hq entry (removeFlow_conntrack.mp hentry).2

/-- The entries that a flush for an endpoint removes. -/
def Flushes (s : State) (endpoint : EndpointId) (entry : ConntrackEntry) : Prop :=
  ∃ ep, s.endpoints endpoint = some ep ∧ stale ep entry = true

theorem mem_stale_keys (hkeyed : Keyed s) {ep : Endpoint} {o : FlowTuple} :
    o ∈ ((s.conntrack.entries.map (·.2)).filter (stale ep)).map (·.original) ↔
      ∃ entry, s.conntrack.lookup o = some entry ∧ stale ep entry = true := by
  simp only [List.mem_map, List.mem_filter]
  constructor
  · rintro ⟨_, ⟨⟨⟨k, entry⟩, hmem, rfl⟩, hstale⟩, rfl⟩
    have hlookup : s.conntrack.lookup k = some entry := AList.mem_lookup_iff.mpr hmem
    rw [hkeyed k entry hlookup]
    exact ⟨entry, hlookup, hstale⟩
  · rintro ⟨entry, hlookup, hstale⟩
    exact ⟨entry, ⟨⟨⟨o, entry⟩, AList.mem_lookup_iff.mp hlookup, rfl⟩, hstale⟩,
      hkeyed o entry hlookup⟩

/-- **Flushing** removes the stale entries and no others. -/
theorem flushConntrack_conntrack (hkeyed : Keyed s) {endpoint : EndpointId} {o : FlowTuple}
    {entry : ConntrackEntry} :
    (flushConntrack s endpoint).conntrack.lookup o = some entry ↔
      s.conntrack.lookup o = some entry ∧ ¬ Flushes s endpoint entry := by
  rw [flushConntrack]
  cases hep : s.endpoints endpoint with
  | none =>
    refine (and_iff_left ?_).symm
    rintro ⟨ep, h, _⟩
    rw [hep] at h
    cases h
  | some ep =>
    show (List.foldl removeFlow s _).conntrack.lookup o = _ ↔ _
    rw [foldl_removeFlow_conntrack, mem_stale_keys hkeyed, and_comm]
    refine and_congr_right fun hentry => ?_
    simp only [Flushes, hep, hentry, Option.some.injEq, exists_eq_left']

/-- Flushing removes the reply tuples of the stale entries from the index, and no others. -/
theorem flushConntrack_index (hkeyed : Keyed s) {endpoint : EndpointId} {r o : FlowTuple} :
    (flushConntrack s endpoint).conntrackReplyIndex r = some o ↔
      s.conntrackReplyIndex r = some o ∧
        ∀ q entry, s.conntrack.lookup q = some entry → Flushes s endpoint entry →
          entry.reply ≠ r := by
  rw [flushConntrack]
  cases hep : s.endpoints endpoint with
  | none =>
    refine (and_iff_left ?_).symm
    rintro _ _ _ ⟨ep, h, _⟩
    rw [hep] at h
    cases h
  | some ep =>
    show (List.foldl removeFlow s _).conntrackReplyIndex r = _ ↔ _
    rw [foldl_removeFlow_index]
    refine and_congr_right fun _ => ?_
    simp only [mem_stale_keys hkeyed, Flushes, hep, Option.some.injEq, exists_eq_left']
    constructor
    · intro h q entry hentry hstale
      exact h q ⟨entry, hentry, hstale⟩ entry hentry
    · rintro h q ⟨entry, hentry, hstale⟩ entry' hentry'
      obtain rfl : entry = entry' := Option.some.inj (hentry.symm.trans hentry')
      exact h q entry hentry hstale

/-! ### What a step does to the tables -/

/-- Everything that a step can do to the conntrack table and its reply index. -/
inductive TableStep (hash : FlowTuple → BitVec 64) (s : State) : SoftEvent → State → Prop
  | dnat {now : Nat} {frame : Frame} {wire : FlowTuple} {address : Ipv4Addr} {port : Port}
      {t : State} (h : dnatOf hash s frame = some (wire, address, port))
      (hconntrack : t.conntrack = s.conntrack.insert wire
        { original := wire, reply := wire.reply address port, state := .new, lastSeen := now })
      (hindex : t.conntrackReplyIndex =
        s.conntrackReplyIndex.insert (wire.reply address port) wire) :
      TableStep hash s (.frame now frame) t
  | reply {now : Nat} {frame : Frame} {wire original : FlowTuple} {entry : ConntrackEntry}
      {t : State} (h : dnatOf hash s frame = none) (hwire : wireOf frame = some wire)
      (horiginal : s.conntrackReplyIndex wire = some original)
      (hentry : s.conntrack.lookup original = some entry)
      (hconntrack : t.conntrack = s.conntrack.insert original (entry.touch now))
      (hindex : t.conntrackReplyIndex = s.conntrackReplyIndex) :
      TableStep hash s (.frame now frame) t
  | flush {endpoint : EndpointId} {t : State}
      (hconntrack : t.conntrack = (flushConntrack s endpoint).conntrack)
      (hindex : t.conntrackReplyIndex = (flushConntrack s endpoint).conntrackReplyIndex) :
      TableStep hash s (.flushConntrack endpoint) t
  | other {e : SoftEvent} {t : State}
      (h : ∀ now frame, e = .frame now frame → dnatOf hash s frame = none)
      (hflush : ∀ endpoint, e ≠ .flushConntrack endpoint)
      (hconntrack : t.conntrack = s.conntrack)
      (hindex : t.conntrackReplyIndex = s.conntrackReplyIndex) : TableStep hash s e t

theorem lookup_insert_eq_some {l : AList fun _ : FlowTuple => ConntrackEntry} {k o : FlowTuple}
    {new entry : ConntrackEntry} :
    (l.insert k new).lookup o = some entry ↔
      (o = k ∧ new = entry) ∨ (o ≠ k ∧ l.lookup o = some entry) := by
  by_cases ho : o = k
  · rw [ho, AList.lookup_insert, Option.some.injEq]
    simp
  · rw [AList.lookup_insert_ne ho]
    simp [ho]

/-- A reply changes nothing about the reply tuples of the entries. -/
theorem lookup_touch_reply {l : AList fun _ : FlowTuple => ConntrackEntry} {now : Nat}
    {original : FlowTuple} {old : ConntrackEntry} (hold : l.lookup original = some old)
    (o : FlowTuple) :
    ((l.insert original (old.touch now)).lookup o).map (·.reply) =
      (l.lookup o).map (·.reply) := by
  by_cases ho : o = original
  · rw [ho, AList.lookup_insert, hold]
    rfl
  · rw [AList.lookup_insert_ne ho]

/-- **Step inversion.** -/
theorem Step.tables (h : Step hash localNode s e t) : TableStep hash s e t := by
  obtain ⟨routes, -, rfl⟩ := h
  cases e with
  | frame now frame =>
    cases hdnat : dnatOf hash s frame with
    | some found =>
      obtain ⟨wire, address, port⟩ := found
      have hd : apply hash localNode s (.frame now frame) = _ := decide_of_dnat hdnat
      rw [hd]
      exact .dnat hdnat rfl rfl
    | none =>
      rcases decide_of_not_dnat hdnat with hd | ⟨wire, original, entry, hwire, hindex, hentry, hd⟩
      · have hd : apply hash localNode s (.frame now frame) = s := hd
        rw [hd]
        refine .other ?_ nofun rfl rfl
        rintro _ _ ⟨⟩
        exact hdnat
      · have hd : apply hash localNode s (.frame now frame) = _ := hd
        rw [hd]
        exact .reply hdnat hwire hindex hentry rfl rfl
  | flushConntrack endpoint => exact .flush rfl rfl
  | _ => exact .other nofun nofun rfl rfl

/-- What the step of a translated frame does. -/
theorem TableStep.of_dnat {now : Nat} {frame : Frame} {wire : FlowTuple} {address : Ipv4Addr}
    {port : Port} (h : TableStep hash s (.frame now frame) t)
    (hdnat : dnatOf hash s frame = some (wire, address, port)) :
    t.conntrack = s.conntrack.insert wire
        { original := wire, reply := wire.reply address port, state := .new, lastSeen := now } ∧
      t.conntrackReplyIndex = s.conntrackReplyIndex.insert (wire.reply address port) wire := by
  cases h with
  | dnat h hconntrack hindex =>
    cases hdnat.symm.trans h
    exact ⟨hconntrack, hindex⟩
  | reply h => cases hdnat.symm.trans h
  | other h => cases hdnat.symm.trans (h _ _ rfl)

/-- **Where an entry comes from.** An entry after a step was there before it, and is still
    established if it was, or it is the new entry of a translated frame. -/
theorem TableStep.entry (h : TableStep hash s e t) (hkeyed : Keyed s) {o : FlowTuple}
    {entry : ConntrackEntry} (hentry : t.conntrack.lookup o = some entry) :
    (∃ old, s.conntrack.lookup o = some old ∧ old.reply = entry.reply ∧
        (old.state = .established → entry.state = .established)) ∨
      ∃ now frame address port, e = .frame now frame ∧
        dnatOf hash s frame = some (o, address, port) ∧ entry.state = .new ∧
        entry.reply = o.reply address port := by
  cases h with
  | dnat hdnat hconntrack _ =>
    rw [hconntrack, lookup_insert_eq_some] at hentry
    obtain ⟨rfl, rfl⟩ | ⟨-, hentry⟩ := hentry
    · exact .inr ⟨_, _, _, _, rfl, hdnat, rfl, rfl⟩
    · exact .inl ⟨entry, hentry, rfl, id⟩
  | reply _ _ _ hold hconntrack _ =>
    rw [hconntrack, lookup_insert_eq_some] at hentry
    obtain ⟨rfl, rfl⟩ | ⟨-, hentry⟩ := hentry
    · refine .inl ⟨_, hold, rfl, fun hstate => ?_⟩
      rw [ConntrackEntry.touch, hstate]
      rfl
    · exact .inl ⟨entry, hentry, rfl, id⟩
  | flush hconntrack _ =>
    rw [hconntrack, flushConntrack_conntrack hkeyed] at hentry
    exact .inl ⟨entry, hentry.1, rfl, id⟩
  | other _ _ hconntrack _ =>
    rw [hconntrack] at hentry
    exact .inl ⟨entry, hentry, rfl, id⟩

/-- The step that an event takes, the routes in the order they are in. -/
theorem step_apply (hash : FlowTuple → BitVec 64) (localNode : NodeId) (s : State)
    (e : SoftEvent) : Step hash localNode s e (apply hash localNode s e) :=
  ⟨_, .refl _, rfl⟩

/-- The step of a translated frame. -/
theorem step_of_dnat (localNode : NodeId) (now : Nat) {frame : Frame} {wire : FlowTuple}
    {address : Ipv4Addr} {port : Port} (h : dnatOf hash s frame = some (wire, address, port)) :
    Step hash localNode s (.frame now frame) (record s now wire (wire.reply address port)) := by
  have hstep := step_apply hash localNode s (.frame now frame)
  rwa [apply, decide_of_dnat h] at hstep

/-- The step of a reply. -/
theorem step_of_reply (hash : FlowTuple → BitVec 64) (localNode : NodeId) (now : Nat)
    {frame : Frame} {wire original : FlowTuple} {entry : ConntrackEntry}
    (hwire : wireOf frame = some wire) (hindex : s.conntrackReplyIndex wire = some original)
    (hentry : s.conntrack.lookup original = some entry) :
    Step hash localNode s (.frame now frame) (touched s now original entry) := by
  have hstep := step_apply hash localNode s (.frame now frame)
  have hdecide : (decide hash localNode now s frame).2 = touched s now original entry := by
    rw [decide, parseWire_eq, hwire]
    show (translate hash now s wire).2 = _
    rw [translate_of_reply hindex hentry]
  rwa [apply, hdecide] at hstep

/-- Entries stay under their own flows. -/
theorem Keyed.step (h : Step hash localNode s e t) (hs : Keyed s) : Keyed t := by
  intro o entry hentry
  cases h.tables with
  | dnat h hconntrack _ =>
    rw [hconntrack, lookup_insert_eq_some] at hentry
    obtain ⟨rfl, rfl⟩ | ⟨-, hentry⟩ := hentry
    · rfl
    · exact hs o entry hentry
  | reply h hwire hindex hold hconntrack _ =>
    rw [hconntrack, lookup_insert_eq_some] at hentry
    obtain ⟨rfl, rfl⟩ | ⟨-, hentry⟩ := hentry
    · have h := hs o _ hold
      exact h
    · exact hs o entry hentry
  | flush hconntrack _ =>
    rw [hconntrack, flushConntrack_conntrack hs] at hentry
    exact hs o entry hentry.1
  | other _ _ hconntrack _ =>
    rw [hconntrack] at hentry
    exact hs o entry hentry

theorem keyed_default : Keyed State.default := fun _ _ h => nomatch h

end Sarena.Soft
