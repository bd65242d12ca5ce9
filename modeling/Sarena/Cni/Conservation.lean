import Sarena.Api.AtMostOnce
import Sarena.Cni.Plugin

namespace Sarena

open Lib

/-!
# CNI — conservation of addresses

ADD allocates the addresses of its container, and DEL is where they should be given back.  DEL
only asks the daemon to delete the endpoint, and the daemon does nothing about it.  This file
finds the sequences of successful ADD and DEL commands that conserve addresses.

* `CniOp.sem` — the operations of a command, over a network that may lose answers;
* `CniOp.Quiet`, `quiet_sem` — the operations that leave the IPAM service as it is;
* `add_spec` — a successful ADD takes at least one address and gives none back;
* `del_quiet` — no part of DEL touches the IPAM service;
* `CniSystem`, `CniSystem.Conserved` — commands in any order, and the law of conservation;
* `conserved_always_iff` — the runs that conserve addresses are those without a DEL of a
  container that was added.
-/

/-! ### Requests that do not concern the addresses -/

/-- The request does not go to the IPAM service. -/
def ApiRequest.NoIpam : ApiRequest → Prop
  | .allocate .. => False
  | .allocateIp .. => False
  | .releaseIp .. => False
  | _ => True

/-- The operations of the endpoint service. -/
def ServiceOp.Manages : ∀ β : Type, ServiceOp β → Prop
  | _, .inl _ => False
  | _, .inr _ => True

theorem ApiServer.handle_manages (server : ApiServer) {request : ApiRequest}
    (h : request.NoIpam) : (server.handle request).run.Uses ServiceOp.Manages := by
  cases request with
  | createEndpoint attachmentId ep =>
    refine Prog.uses_try ?_ fun _ => trivial
    have hcall : ((create server.text ep).run.mapOps fun _ => Sum.inr).Uses ServiceOp.Manages :=
      Prog.uses_mapOps (f := fun _ => Sum.inr) (fun _ _ _ => trivial) (Prog.uses_any _)
    show Prog.Uses _ (_ <$> _)
    rw [map_eq_pure_bind]
    exact Prog.uses_bind hcall fun _ => trivial
  | allocate family owner pool expiration => exact h.elim
  | allocateIp ip owner pool => exact h.elim
  | releaseIp ip pool => exact h.elim
  | _ => trivial

theorem ApiServer.serves_ipam {server : ApiServer} {request : ApiRequest}
    (hrequest : request.NoIpam) {s t : DaemonSystem} {answer : Option (Response request.Reply)}
    (h : server.Serves request s answer t) : t.ipam = s.ipam := by
  obtain ⟨tr, r, hx, -⟩ := h
  refine Prog.Uses.exec (·.ipam = s.ipam) (server.handle_manages hrequest) ?_ hx rfl
  intro β op s' b t' hop hsem hs
  cases op with
  | inl op => exact hop.elim
  | inr op =>
    obtain ⟨m, fs, -, rfl⟩ := hsem
    exact hs

/-! ### Commands over a network -/

/-- The meaning of a command's operations.  The infrastructure answers anything. -/
def CniOp.sem (server : ApiServer) : Sem CniOp Network
  | _, .inl op, n, b, t => Network.sem server _ op n b t
  | _, .inr _, n, _, t => t = n

/-- The attempt is one of a request that does not go to the IPAM service. -/
def TransportOp.NoIpam : ∀ β : Type, TransportOp β → Prop
  | _, .send request => request.NoIpam

/-- The operations that leave the IPAM service as it is. -/
def CniOp.Quiet : ∀ β : Type, CniOp β → Prop
  | _, .inl op => TransportOp.NoIpam _ op
  | _, .inr _ => True

/-- Between the states nothing happened to the IPAM service. -/
structure SameIpam (n t : Network) : Prop where
  ipam : t.server.ipam = n.server.ipam
  regular : n.server.Regular → t.server.Regular

theorem SameIpam.refl (n : Network) : SameIpam n n := ⟨rfl, id⟩

theorem SameIpam.trans {n t u : Network} (h : SameIpam n t) (h' : SameIpam t u) : SameIpam n u :=
  ⟨h'.ipam.trans h.ipam, fun hn => h'.regular (h.regular hn)⟩

/-- What one attempt of any request does to the server. -/
theorem Network.sem_cases {server : ApiServer} {request : ApiRequest} {n t : Network}
    {b : Except TransportError (Response request.Reply)}
    (h : Network.sem server _ (.send request) n b t) :
    t.server = n.server ∨ ∃ answer, server.Serves request n.server answer t.server := by
  obtain ⟨-, h⟩ := h
  split at h
  · obtain ⟨answer, hserves, -⟩ := h
    exact .inr ⟨answer, hserves⟩
  · obtain ⟨⟨answer, hserves⟩, -⟩ := h
    exact .inr ⟨answer, hserves⟩
  · exact .inl h.1

/-- **Step.** A quiet operation does nothing to the IPAM service. -/
theorem quiet_sem {server : ApiServer} {β : Type} {op : CniOp β} {n t : Network} {b : β}
    (hop : CniOp.Quiet β op) (h : CniOp.sem server β op n b t) : SameIpam n t := by
  cases op with
  | inl op =>
    cases op with
    | send request =>
      have h : Network.sem server _ (.send request) n b t := h
      obtain hsame | ⟨answer, hserves⟩ := Network.sem_cases h
      · exact ⟨congrArg DaemonSystem.ipam hsame, fun hn => hsame ▸ hn⟩
      · exact ⟨ApiServer.serves_ipam hop hserves, DaemonSystem.regular_serves hserves⟩
  | inr op =>
    obtain rfl : t = n := h
    exact .refl t

/-- Any operation, in any state. -/
abbrev anyCniOp : ∀ β : Type, CniOp β → Network → Prop := fun _ _ _ => True

/-- A quiet part of a command. -/
theorem quiet_guards {server : ApiServer} {α : Type} {p : CniCall α} {n t : Network}
    (hp : p.run.Uses CniOp.Quiet) (h : SameIpam n t) :
    p.run.Guards (CniOp.sem server) anyCniOp
      (Prog.orError (fun _ u => SameIpam n u) fun _ _ => True) t := by
  have hsame : p.run.Guards (CniOp.sem server) anyCniOp (fun _ => SameIpam n) t :=
    Prog.Uses.guards (SameIpam n) hp
      (fun β op s b t hop hsem hs => hs.trans (quiet_sem hop hsem)) h
  refine hsame.imp fun r u hu => ?_
  cases r with
  | ok a => exact hu
  | error e => trivial

namespace CniCall

variable {α : Type}

/-- A call of the API inside a command. -/
theorem guards_api {server : ApiServer} {call : ClientCall α}
    {Q : Except TransportError α → Network → Prop} {n : Network}
    (h : call.run.Guards (Network.sem server) (fun _ _ _ => True) Q n) (message : String) :
    (api call message).run.Guards (CniOp.sem server) anyCniOp
      (fun r t => ∃ r', r = r'.mapError (fun _ => .pluginNotAvailable message) ∧ Q r' t) n := by
  have hcall : (call.run.mapOps fun _ => Sum.inl).Guards (CniOp.sem server) anyCniOp
      (fun r t => Q r t ∧ True) n :=
    Prog.guards_mapOps (f := fun _ => Sum.inl) id (fun _ => True)
      (fun β op s b t hsem => ⟨hsem, fun _ => trivial⟩) (fun _ _ _ h => h) h trivial
  unfold api
  exact Prog.guards_map (hcall.imp fun r t hQ => ⟨r, rfl, hQ.1⟩)

theorem quiet_op (e : InfraOp α) : (op e).run.Uses CniOp.Quiet := ⟨trivial, fun _ => trivial⟩

theorem quiet_infra (e : InfraOp (Except InfraError α)) (err : InfraError → CniError) :
    (infra e err).run.Uses CniOp.Quiet := ⟨trivial, fun _ => trivial⟩

theorem quiet_require (a : Option α) (e : CniError) : (require a e).run.Uses CniOp.Quiet := by
  cases a with
  | some a => trivial
  | none => trivial

theorem quiet_ensure (cond : Bool) (e : CniError) : (ensure cond e).run.Uses CniOp.Quiet := by
  cases cond with
  | true => trivial
  | false => trivial

/-- A call whose requests do not concern the addresses. -/
theorem quiet_api {call : ClientCall α}
    (h : call.run.Uses TransportOp.NoIpam) (message : String) :
    (api call message).run.Uses CniOp.Quiet := by
  have hcall : (call.run.mapOps fun _ => Sum.inl).Uses CniOp.Quiet :=
    Prog.uses_mapOps (f := fun _ => Sum.inl) (fun _ _ hop => hop) h
  show Prog.Uses _ (_ <$> _)
  rw [map_eq_pure_bind]
  exact Prog.uses_bind hcall fun _ => trivial

end CniCall

namespace ApiClient

variable (c : ApiClient) {request : ApiRequest}

/-- A call sends its own request only. -/
theorem sendLoop_noIpam (h : request.NoIpam) (retries : Nat) :
    (c.sendLoop request retries).run.Uses TransportOp.NoIpam := by
  have htry : (c.trySend request).run.Uses TransportOp.NoIpam := by
    unfold trySend
    cases c.request (request.path c.encodeQuery) with
    | error e => trivial
    | ok _ =>
      refine ⟨h, fun b => ?_⟩
      cases b with
      | error e => trivial
      | ok resp =>
        show Prog.Uses _ (ExceptT.run (if resp.isSuccess then _ else _))
        split
        · trivial
        · trivial
  induction retries with
  | zero => exact htry
  | succ retries ih =>
    rw [sendLoop]
    -- The request is sent again only after an error that may pass.
    refine Prog.uses_try (Prog.uses_bind htry fun _ => trivial) fun r => ?_
    cases r with
    | ok resp => trivial
    | error e =>
      show Prog.Uses _ (ExceptT.run (if e.isRetryable then _ else _))
      split
      · exact ih
      · trivial

theorem apiData_noIpam (h : request.NoIpam) :
    (c.apiData request).run.Uses TransportOp.NoIpam := by
  refine Prog.uses_try (c.sendLoop_noIpam h _) fun resp => ?_
  rw [fromSlice]
  split
  · trivial
  · trivial

theorem getConfig_noIpam : c.getConfig.run.Uses TransportOp.NoIpam := by
  have hrequest : ApiRequest.getConfig.NoIpam := trivial
  exact c.apiData_noIpam hrequest

theorem create_noIpam (attachmentId : String) (ep : EndpointCreateRequest) :
    (c.create attachmentId ep).run.Uses TransportOp.NoIpam := by
  have hrequest : (ApiRequest.createEndpoint attachmentId ep).NoIpam := trivial
  exact c.apiData_noIpam hrequest

theorem delete_noIpam (attachmentId : String) :
    (c.delete attachmentId).run.Uses TransportOp.NoIpam := by
  have hrequest : (ApiRequest.deleteEndpoint attachmentId).NoIpam := trivial
  exact Prog.uses_try (c.sendLoop_noIpam hrequest _) fun _ => trivial

end ApiClient

/-! ### The commands -/

namespace CniPlugin

open CniCall ApiClient DefaultIpamService IpamState

variable {plugin : CniPlugin} {server : ApiServer}

theorem openNetns_quiet (netnsPath : String) :
    (plugin.openNetns netnsPath).run.Uses CniOp.Quiet := quiet_infra _ _

theorem setupVeth_quiet (containerId ifname peerNetnsPath : String) (deviceMtu : UInt32) :
    (plugin.setupVeth containerId ifname peerNetnsPath deviceMtu).run.Uses CniOp.Quiet := by
  unfold setupVeth
  refine Prog.uses_try (quiet_op _) fun hostMac => ?_
  refine Prog.uses_try (quiet_op _) fun lxcMac => ?_
  refine Prog.uses_try (quiet_infra _ _) fun pair => ?_
  refine Prog.uses_try (quiet_infra _ _) fun _ => ?_
  refine Prog.uses_try (quiet_infra _ _) fun _ => ?_
  refine Prog.uses_try (quiet_infra _ _) fun _ => ?_
  refine Prog.uses_try (quiet_infra _ _) fun _ => ?_
  refine Prog.uses_try (quiet_infra _ _) fun _ => ?_
  refine Prog.uses_try (quiet_infra _ _) fun _ => ?_
  exact Prog.uses_try (quiet_infra _ _) fun _ => trivial

theorem configureIface_quiet (peer : NetlinkLink) (addresses : List InterfaceAddress)
    (routes : List Route) :
    (plugin.configureIface peer addresses routes).run.Uses CniOp.Quiet := by
  unfold configureIface
  refine Prog.uses_try (quiet_infra _ _) fun _ => ?_
  refine Prog.uses_try (Prog.uses_forM fun _ _ => quiet_infra _ _) fun _ => ?_
  exact Prog.uses_forM fun _ _ => quiet_infra _ _

theorem familyConfig_quiet {α : Type} (parse : String → Except String α) (family : String)
    (gatewayIp : α → IpAddr) (routes : α → UInt32 → List Route) (routeMtu : UInt32)
    (host : Option String) (container : Option ContainerAddressing) :
    (plugin.familyConfig parse family gatewayIp routes routeMtu host container).run.Uses
      CniOp.Quiet := by
  have hattempt : ∀ {ε β : Type} (r : Except ε β) (err : ε → CniError),
      (attempt r err).run.Uses CniOp.Quiet := fun r err => trivial
  unfold familyConfig
  split
  · refine Prog.uses_try (hattempt _ _) fun gateway => ?_
    exact Prog.uses_try (hattempt _ _) fun endpointIp => trivial
  · trivial

/-- From its lease on, ADD leaves the IPAM service alone. -/
theorem attach_quiet (client : ApiClient) (containerId ifname netnsPath : String) (spec : ArgsSpec)
    (config : DaemonConfigurationResponse) (response : IpamAllocateResponse) :
    (plugin.attach client containerId ifname netnsPath spec config response).run.Uses
      CniOp.Quiet := by
  unfold attach
  refine Prog.uses_try (quiet_ensure _ _) fun _ => ?_
  refine Prog.uses_try (setupVeth_quiet _ _ _ _) fun links => ?_
  refine Prog.uses_try (familyConfig_quiet _ _ _ _ _ _ _) fun ipv4 => ?_
  refine Prog.uses_try (familyConfig_quiet _ _ _ _ _ _ _) fun ipv6 => ?_
  refine Prog.uses_try (configureIface_quiet _ _ _) fun _ => ?_
  refine Prog.uses_try (quiet_api (client.create_noIpam _ _) _) fun _ => trivial

theorem deleteStaleLink_quiet (netnsPath ifname : String) :
    (plugin.deleteStaleLink netnsPath ifname).run.Uses CniOp.Quiet := by
  unfold deleteStaleLink
  refine Prog.uses_try (quiet_op _) fun r => ?_
  split
  · trivial
  · trivial
  · trivial

/-- **DEL gives no address back.** No part of it touches the IPAM service. -/
theorem del_quiet (args : CniArgs) : (plugin.del args).run.Uses CniOp.Quiet := by
  unfold del
  refine Prog.uses_try (quiet_require _ _) fun netnsPath => ?_
  refine Prog.uses_try (quiet_require _ _) fun ifname => ?_
  refine Prog.uses_try (quiet_require _ _) fun containerId => ?_
  refine Prog.uses_try (quiet_require _ _) fun client => ?_
  refine Prog.uses_try (quiet_api (client.delete_noIpam _) _) fun _ => ?_
  refine Prog.uses_try (openNetns_quiet _) fun _ => ?_
  exact Prog.uses_try (quiet_op _) fun _ => trivial

/-- What a successful ADD does to the addresses: none is given back, and one is new. -/
structure Added (n t : Network) : Prop where
  regular : t.server.Regular
  mono : ∀ ip, n.server.ipam.holds ip = true → t.server.ipam.holds ip = true
  new : ∃ ip, n.server.ipam.holds ip = false ∧ t.server.ipam.holds ip = true

theorem Added.of_same {n t u : Network} (h : Added n t) (h' : SameIpam t u) : Added n u where
  regular := h'.regular h.regular
  mono := by
    rw [h'.ipam]
    exact h.mono
  new := by
    rw [h'.ipam]
    exact h.new

/-- Every client call keeps the server regular. -/
theorem regular_call {α : Type} (call : ClientCall α) {n : Network} (hn : n.server.Regular) :
    call.run.Guards (Network.sem server) Network.anyOp (fun _ t => t.server.Regular) n := by
  refine Prog.guards_iff_exec.mpr fun tr a t hx => ?_
  refine hx.invariant (fun n => n.server.Regular) (fun β op n b t hsem hn => ?_) hn
  cases op with
  | send request =>
    obtain hsame | ⟨answer, hserves⟩ := Network.sem_cases hsem
    · rw [hsame]
      exact hn
    · exact DaemonSystem.regular_serves hserves hn

/-- The allocation of an ADD: when its response names an address, there is a new one. -/
theorem allocate_added {client : ApiClient} {owner : String} {n t : Network}
    {v : IpamAllocateResponse} (hn : n.server.Regular) {tr : List (Answered TransportOp)}
    (hx : Exec (Network.sem server) (client.allocate none (some owner) none true).run n tr
      (.pure (.ok v)) t) (hv : (v.ipv4.isSome || v.ipv6.isSome) = true) : Added n t := by
  obtain ⟨⟨-, hgave⟩, hreports⟩ := (allocate_spec server hn.excludedIps).exec hx
  obtain ⟨h4, h6⟩ := hreports v rfl
  refine ⟨(regular_call _ hn).exec hx, fun ip hip => ?_, ?_⟩
  · obtain ⟨ips, hgave, -⟩ := hgave ip.family
    rw [holds] at hip ⊢
    rw [hgave.held, hip, Bool.true_or]
  · have hserved : ∃ f, serves n.server.ipam (parseFamily none) f = true := by
      rw [h4, h6, Bool.or_eq_true] at hv
      obtain h | h := hv
      · exact ⟨.ipv4, h⟩
      · exact ⟨.ipv6, h⟩
    -- The family that the response names was served, so its list of new addresses is not empty.
    obtain ⟨f, hf⟩ := hserved
    obtain ⟨ips, hgave, hlength⟩ := hgave f
    rw [if_pos hf] at hlength
    obtain ⟨ip, hip⟩ := List.exists_mem_of_length_pos (by omega : 0 < ips.length)
    have hheld : t.server.ipam.held f ip = true := by
      rw [hgave.held, decide_eq_true hip, Bool.or_true]
    have hfamily := family_of_held hheld
    refine ⟨ip, ?_, ?_⟩
    · rw [holds, hfamily]
      exact hgave.fresh ip hip
    · rw [holds, hfamily]
      exact hheld

/-- **ADD.** When it succeeds, it has taken at least one address and given none back. -/
theorem add_spec (args : CniArgs) (spec : ArgsSpec) {n : Network} (hn : n.server.Regular) :
    (plugin.add args spec).run.Guards (CniOp.sem server) anyCniOp
      (Prog.orError (fun _ t => Added n t) fun _ _ => True) n := by
  unfold add
  refine Prog.guards_try _ (quiet_guards (quiet_require _ _) (.refl n)) fun netnsPath t h => ?_
  refine Prog.guards_try _ (quiet_guards (quiet_require _ _) h) fun ifname t h => ?_
  refine Prog.guards_try _ (quiet_guards (quiet_require _ _) h) fun containerId t h => ?_
  refine Prog.guards_try _ (quiet_guards (quiet_ensure _ _) h) fun _ t h => ?_
  refine Prog.guards_try _ (quiet_guards (openNetns_quiet _) h) fun _ t h => ?_
  refine Prog.guards_try _ (quiet_guards (deleteStaleLink_quiet _ _) h) fun _ t h => ?_
  refine Prog.guards_try _ (quiet_guards (quiet_require _ _) h) fun client t h => ?_
  refine Prog.guards_try _ (quiet_guards (quiet_api client.getConfig_noIpam _) h)
    fun config t h => ?_
  -- The allocation is the one call of ADD that is not quiet.
  refine Prog.guards_try (fun v u => (v.ipv4.isSome || v.ipv6.isSome) = true → Added n u) ?_ ?_
  · have hcall : (client.allocate none (some s!"{spec.k8sPodNamespace}/{spec.k8sPodName}") none
        true).run.Guards (Network.sem server) (fun _ _ _ => True)
        (fun r u => ∀ v, r = .ok v → (v.ipv4.isSome || v.ipv6.isSome) = true → Added n u) t := by
      refine Prog.guards_iff_exec.mpr fun tr r u hx v hr hv => ?_
      rw [hr] at hx
      obtain ⟨hregular, hmono, hnew⟩ := allocate_added (h.regular hn) hx hv
      rw [h.ipam] at hmono hnew
      exact ⟨hregular, hmono, hnew⟩
    refine Prog.Guards.imp ?_ (guards_api hcall _)
    rintro _ u ⟨r, rfl, hQ⟩
    cases r with
    | ok v => exact hQ v rfl
    | error e => trivial
  · intro response t h
    refine Prog.guards_try (fun _ u => Added n u) ?_ fun _ t h => ?_
    · cases hv : response.ipv4.isSome || response.ipv6.isSome with
      | true => exact h hv
      | false => trivial
    · -- On success the lease is kept.
      refine Prog.guards_bind (quiet_guards (attach_quiet _ _ _ _ _ _ _) (.refl t)) fun r u hu => ?_
      cases r with
      | ok result => exact h.of_same hu
      | error e =>
        refine Prog.guards_bind (Prog.guards_true _ _) fun _ _ _ => ?_
        exact Prog.guards_bind (Prog.guards_true _ _) fun _ _ _ => trivial

/-- An ADD that succeeds names its container. -/
theorem containerId_of_add {args : CniArgs} {spec : ArgsSpec} {n t : Network}
    {tr : List (Answered CniOp)} {result : CniResult}
    (hx : Exec (CniOp.sem server) (plugin.add args spec).run n tr (.pure (.ok result)) t) :
    args.containerId.isSome = true := by
  cases hc : args.containerId with
  | some c => rfl
  | none =>
    have hguards : (plugin.add args spec).run.Guards (CniOp.sem server) anyCniOp
        (Prog.orError (fun _ _ => False) fun _ _ => True) n := by
      unfold add
      refine Prog.guards_try _ (quiet_guards (quiet_require _ _) (.refl n)) fun netnsPath t h => ?_
      refine Prog.guards_try _ (quiet_guards (quiet_require _ _) h) fun ifname t h => ?_
      rw [hc]
      trivial
    exact (hguards.exec hx).elim

end CniPlugin

/-! ### Commands in any order -/

/-- The daemon, the containers that were added and not deleted since, and the containers that
    addresses were allocated for. -/
structure CniSystem where
  server : DaemonSystem
  added : Set String
  allocatedFor : Set (String × IpAddr)

/-- A command that succeeds, with what becomes of the attempts of its requests. -/
inductive CniEvent
  | add (args : CniArgs) (spec : ArgsSpec) (deliveries : ApiRequest → Nat → Delivery)
  | del (args : CniArgs) (deliveries : ApiRequest → Nat → Delivery)

namespace CniSystem

/-- A daemon after its first start; no container was added. -/
def start (subnets : IpamSubnets) : CniSystem := ⟨.start subnets, ∅, ∅⟩

/-- A successful command, from its start to its return.  The addresses that become held during
    an ADD are allocated for its container. -/
def Step (plugin : CniPlugin) (server : ApiServer) (s : CniSystem) : CniEvent → CniSystem → Prop
  | .add args spec deliveries, t => ∃ tr result n,
      Exec (CniOp.sem server) (plugin.add args spec).run ⟨s.server, deliveries⟩ tr
        (.pure (.ok result)) n ∧
      t = ⟨n.server, {c | c ∈ s.added ∨ args.containerId = some c},
        {p | p ∈ s.allocatedFor ∨ (args.containerId = some p.1 ∧
          s.server.ipam.holds p.2 = false ∧ n.server.ipam.holds p.2 = true)}⟩
  | .del args deliveries, t => ∃ tr n,
      Exec (CniOp.sem server) (plugin.del args).run ⟨s.server, deliveries⟩ tr (.pure (.ok ())) n ∧
      t = ⟨n.server, {c | c ∈ s.added ∧ args.containerId ≠ some c}, s.allocatedFor⟩

/-- **Conservation.** An address is held exactly when a container that it was allocated for has
    been added and not deleted since. -/
def Conserved (s : CniSystem) : Prop :=
  ∀ ip, s.server.ipam.holds ip = true ↔ ∃ c ∈ s.added, (c, ip) ∈ s.allocatedFor

/-- The condition on a command: it is no DEL of a container that was added. -/
def Spares (s : CniSystem) : CniEvent → Prop
  | .add .. => True
  | .del args _ => ∀ c, args.containerId = some c → c ∉ s.added

/-- What holds between commands, as long as addresses are conserved: an address was allocated for
    one container at most, which is still added, and every added container has one. -/
structure Settled (s : CniSystem) : Prop where
  regular : s.server.Regular
  owner : ∀ c ip, (c, ip) ∈ s.allocatedFor → c ∈ s.added
  address : ∀ c ∈ s.added, ∃ ip, (c, ip) ∈ s.allocatedFor
  unique : ∀ c c' ip, (c, ip) ∈ s.allocatedFor → (c', ip) ∈ s.allocatedFor → c = c'

variable {plugin : CniPlugin} {server : ApiServer} {s t : CniSystem}

/-- **Step**, for ADD: the new addresses belong to the new container. -/
theorem add_step {args : CniArgs} {spec : ArgsSpec} {deliveries : ApiRequest → Nat → Delivery}
    (h : Step plugin server s (.add args spec deliveries) t) (hs : s.Settled)
    (hconserved : s.Conserved) : t.Settled ∧ t.Conserved := by
  obtain ⟨tr, result, n, hx, rfl⟩ := h
  obtain ⟨hregular, hmono, hnew⟩ := (CniPlugin.add_spec args spec hs.regular).exec hx
  -- What was allocated for a container before is held, so it is none of the new addresses.
  have hold : ∀ c ip, (c, ip) ∈ s.allocatedFor → s.server.ipam.holds ip = true :=
    fun c ip hc => (hconserved ip).mpr ⟨c, hs.owner c ip hc, hc⟩
  constructor
  · refine ⟨hregular, fun c ip hc => ?_, fun c hc => ?_, fun c c' ip hc hc' => ?_⟩
    · obtain hc | ⟨hc, -⟩ := hc
      · exact .inl (hs.owner c ip hc)
      · exact .inr hc
    · obtain hc | hc := hc
      · obtain ⟨ip, hip⟩ := hs.address c hc
        exact ⟨ip, .inl hip⟩
      · obtain ⟨ip, hip⟩ := hnew
        exact ⟨ip, .inr ⟨hc, hip⟩⟩
    · obtain hc | ⟨hc, hfree, -⟩ := hc
      · obtain hc' | ⟨-, hfree, -⟩ := hc'
        · exact hs.unique c c' ip hc hc'
        · cases (hold c ip hc).symm.trans hfree
      · obtain hc' | ⟨hc', -⟩ := hc'
        · cases (hold c' ip hc').symm.trans hfree
        · exact Option.some.inj (hc.symm.trans hc')
  · intro ip
    constructor
    · intro hheld
      cases hfree : s.server.ipam.holds ip with
      | true =>
        obtain ⟨c, hc, hip⟩ := (hconserved ip).mp hfree
        exact ⟨c, .inl hc, .inl hip⟩
      | false =>
        obtain ⟨c, hc⟩ := Option.isSome_iff_exists.mp (CniPlugin.containerId_of_add hx)
        exact ⟨c, .inr hc, .inr ⟨hc, hfree, hheld⟩⟩
    · rintro ⟨c, -, hip | ⟨-, -, hheld⟩⟩
      · exact hmono ip (hold c ip hip)
      · exact hheld

/-- **Step**, for DEL: addresses stay conserved exactly when its container was not added. -/
theorem del_step {args : CniArgs} {deliveries : ApiRequest → Nat → Delivery}
    (h : Step plugin server s (.del args deliveries) t) (hs : s.Settled)
    (hconserved : s.Conserved) : t.Conserved ↔ Spares s (.del args deliveries) := by
  obtain ⟨tr, n, hx, rfl⟩ := h
  have hsame := (quiet_guards (CniPlugin.del_quiet args) (.refl _)).exec hx
  have hipam : n.server.ipam = s.server.ipam := hsame.ipam
  constructor
  · intro ht c hc hadded
    -- Its address is still held, and was allocated for no other container.
    obtain ⟨ip, hip⟩ := hs.address c hadded
    have hheld := (hconserved ip).mpr ⟨c, hadded, hip⟩
    rw [← hipam] at hheld
    obtain ⟨c', ⟨-, hne⟩, hip'⟩ := (ht ip).mp hheld
    rw [hs.unique c' c ip hip' hip] at hne
    exact hne hc
  · intro hspares ip
    show n.server.ipam.holds ip = true ↔ _
    rw [hipam, hconserved ip]
    constructor
    · rintro ⟨c, hc, hip⟩
      exact ⟨c, ⟨hc, fun heq => hspares c heq hc⟩, hip⟩
    · rintro ⟨c, ⟨hc, -⟩, hip⟩
      exact ⟨c, hc, hip⟩

/-- A DEL that spares the added containers changes nothing of what is settled. -/
theorem settled_del {args : CniArgs} {deliveries : ApiRequest → Nat → Delivery}
    (h : Step plugin server s (.del args deliveries) t) (hs : s.Settled)
    (hspares : Spares s (.del args deliveries)) : t.Settled := by
  obtain ⟨tr, n, hx, rfl⟩ := h
  have hsame := (quiet_guards (CniPlugin.del_quiet args) (.refl _)).exec hx
  refine ⟨hsame.regular hs.regular, fun c ip hip => ?_, fun c hc => hs.address c hc.1, hs.unique⟩
  have hadded := hs.owner c ip hip
  exact ⟨hadded, fun heq => hspares c heq hadded⟩

/-- **An ADD and a DEL after it leak an address**, also when both are of one container. -/
theorem add_del_leaks {args args' : CniArgs} {spec : ArgsSpec} {u : CniSystem}
    {deliveries deliveries' : ApiRequest → Nat → Delivery} (hs : s.server.Regular)
    (hadd : Step plugin server s (.add args spec deliveries) t)
    (hdel : Step plugin server t (.del args' deliveries') u) :
    ∃ ip, s.server.ipam.holds ip = false ∧ u.server.ipam.holds ip = true := by
  obtain ⟨tr, result, n, hx, rfl⟩ := hadd
  obtain ⟨tr', n', hx', rfl⟩ := hdel
  obtain ⟨ip, hfree, hheld⟩ := ((CniPlugin.add_spec args spec hs).exec hx).new
  refine ⟨ip, hfree, ?_⟩
  have hsame := (quiet_guards (CniPlugin.del_quiet args') (.refl _)).exec hx'
  show n'.server.ipam.holds ip = true
  rw [hsame.ipam]
  exact hheld

theorem settled_start (subnets : IpamSubnets) : (start subnets).Settled where
  regular := ⟨rfl, DaemonSystem.indexed_of_new rfl⟩
  owner _ _ h := h.elim
  address _ h := h.elim
  unique _ _ _ h := h.elim

theorem conserved_start (subnets : IpamSubnets) : (start subnets).Conserved := by
  intro ip
  refine iff_of_false ?_ fun ⟨c, hc, _⟩ => hc
  show ¬ (DefaultIpamService.new subnets).holds ip = true
  rw [DefaultIpamService.holds_new]
  exact Bool.false_ne_true

/-- **Conservation of addresses.** Over every sequence of successful ADD and DEL commands,
    whatever becomes of the attempts of their requests: addresses are conserved throughout
    exactly when no DEL of the sequence is one of a container that was added and not deleted
    since. -/
theorem conserved_always_iff (plugin : CniPlugin) (server : ApiServer) (subnets : IpamSubnets)
    {s : CniSystem} (run : Run (Step plugin server) (start subnets) s) :
    run.Always Conserved ↔ run.EachStep fun s e _ => Spares s e := by
  refine Run.always_iff_eachStep (conserved_start subnets) (settled_start subnets) ?_ ?_ run
  · intro s e t h hconserved hs ht
    cases e with
    | add args spec deliveries => exact (add_step h hs hconserved).1
    | del args deliveries => exact settled_del h hs ((del_step h hs hconserved).mp ht)
  · intro s e t h hconserved hs
    cases e with
    | add args spec deliveries => exact iff_of_true (add_step h hs hconserved).2 trivial
    | del args deliveries => exact del_step h hs hconserved

end CniSystem

/-! ### A pod that comes and goes -/

namespace CniCall

variable {server : ApiServer} {α : Type} {n t : Network}

theorem api_exec {call : ClientCall α} {v : α} {tr : List (Answered TransportOp)}
    (hx : Exec (Network.sem server) call.run n tr (.pure (.ok v)) t) (message : String) :
    ∃ tr, Exec (CniOp.sem server) (api call message).run n tr (.pure (.ok v)) t := by
  have hcall : ∃ tr, Exec (CniOp.sem server) (call.run.mapOps fun _ => Sum.inl) (id n) tr
      ((Prog.pure (.ok v)).mapOps fun _ => Sum.inl) (id t) :=
    hx.mapOps (f := fun _ => Sum.inl) id fun β op s b t hsem => hsem
  obtain ⟨tr, hcall⟩ := hcall
  show ∃ tr, Exec _ (_ <$> _) _ tr _ _
  rw [map_eq_pure_bind]
  exact ⟨_, Exec.bind hcall (.refl _ _)⟩

theorem infra_exec (server : ApiServer) (e : InfraOp (Except InfraError α))
    (err : InfraError → CniError) (a : α) (n : Network) :
    Exec (CniOp.sem server) (infra e err).run n [⟨Sum.inr e, Except.ok a⟩] (.pure (.ok a)) n :=
  .step _ _ _ (Except.ok a) n [] _ _ rfl (.refl _ _)

theorem forM_exec {f : α → CniCall PUnit}
    (hf : ∀ a, ∃ tr, Exec (CniOp.sem server) (f a).run n tr (.pure (.ok ())) n) (xs : List α) :
    ∃ tr, Exec (CniOp.sem server) (xs.forM f).run n tr (.pure (.ok ())) n := by
  induction xs with
  | nil => exact ⟨[], .refl _ _⟩
  | cons a rest ih =>
    obtain ⟨_, ha⟩ := hf a
    obtain ⟨_, hrest⟩ := ih
    rw [List.forM_eq_forM, List.forM_cons]
    exact ⟨_, Exec.bind_ok ha hrest⟩

end CniCall

namespace CniPlugin

open CniCall

variable {server : ApiServer} {n : Network}

/-- The infrastructure makes a pair of links. -/
theorem setupVeth_exec (plugin : CniPlugin) (server : ApiServer)
    (containerId ifname peerNetnsPath : String) (deviceMtu : UInt32) (host peer : NetlinkLink)
    (n : Network) :
    ∃ tr, Exec (CniOp.sem server)
      (plugin.setupVeth containerId ifname peerNetnsPath deviceMtu).run n tr
      (.pure (.ok (host, { peer with netns := some peerNetnsPath, name := ifname }))) n := by
  unfold setupVeth
  exact ⟨_, .step _ _ _ host.mac n _ _ _ rfl <| .step _ _ _ peer.mac n _ _ _ rfl <|
    .step _ _ _ (Except.ok (host, peer)) n _ _ _ rfl <|
    .step _ _ _ (Except.ok ()) n _ _ _ rfl <| .step _ _ _ (Except.ok ()) n _ _ _ rfl <|
    .step _ _ _ (Except.ok ()) n _ _ _ rfl <| .step _ _ _ (Except.ok ()) n _ _ _ rfl <|
    .step _ _ _ (Except.ok ()) n _ _ _ rfl <| .step _ _ _ (Except.ok ()) n _ _ _ rfl <|
    .step _ _ _ (Except.ok ()) n _ _ _ rfl (.refl _ _)⟩

theorem configureIface_exec (plugin : CniPlugin) (server : ApiServer) (peer : NetlinkLink)
    (addresses : List InterfaceAddress) (routes : List Route) (n : Network) :
    ∃ tr, Exec (CniOp.sem server) (plugin.configureIface peer addresses routes).run n tr
      (.pure (.ok ())) n := by
  obtain ⟨_, haddresses⟩ := forM_exec (fun addr => ⟨_, infra_exec server (.addAddr peer addr)
    plugin.infraErr () n⟩) addresses
  obtain ⟨_, hroutes⟩ := forM_exec (fun r => ⟨_, infra_exec server (.addRoute peer r)
    (fun e => .invalidNetworkConfig s!"failed to add route: {plugin.infraText e}") () n⟩)
    (sortByMaskNarrowestFirst routes)
  unfold configureIface
  exact ⟨_, Exec.bind_ok (infra_exec server _ _ () n) <| Exec.bind_ok haddresses hroutes⟩

end CniPlugin

namespace CniSystem

open CniCall CniPlugin DaemonSystem ApiClient

/-- The text of the addresses of one pod. -/
def cniText : IpText where
  parseNet s := if s = "10.0.10.1/32" then some (.v4 0x0a000a01 32) else none
  parseAddr := podText.parseAddr
  showAddr ip := if ip = .v4 0x0a000005 then "10.0.0.5" else podText.showAddr ip

/-- The daemon, with the gateway of its default set-up. -/
def cniServer : ApiServer := { podServer with text := cniText, gatewayIp := .v4 0x0a000005 }

/-- The plugin of one pod. -/
def cniPlugin : CniPlugin where
  text := cniText
  parseIpv4 s := if s = "10.0.0.5" then .ok 0x0a000005 else .error "invalid IPv4 address syntax"
  parseIpv6 _ := .error "invalid IPv6 address syntax"
  debug := String.quote
  sha256 _ := "a2b67b1a8f5a5ad0e2b0b0e8c5a4d1f0"
  client _ := some podClient

/-- The arguments of the pod's commands. -/
def cniArgs : CniArgs where
  containerId := some "container"
  netns := some "/run/netns/pod"
  ifname := some "eth0"

/-- The pod. -/
def cniSpec : ArgsSpec := ⟨"pod", "default", "uid"⟩

/-- Every attempt is answered. -/
def allDelivered : ApiRequest → Nat → Delivery := fun _ _ => .delivered

/-- DEL succeeds in any state. -/
theorem del_exec (s : CniSystem) :
    ∃ t, Step cniPlugin cniServer s (.del cniArgs allDelivered) t := by
  have hserves : cniServer.Serves (.deleteEndpoint (attachmentId "container" "eth0")) s.server
      (some ⟨204, .text ""⟩) s.server := ⟨[], .ok .noContent, .refl _ _, rfl⟩
  obtain ⟨_, hdelete⟩ := noBody_exec (c := podClient) (n := ⟨s.server, allDelivered⟩) rfl hserves
    rfl rfl
  obtain ⟨_, hdelete⟩ := api_exec hdelete "could not delete endpoint"
  have hdel : ∃ tr n, Exec (CniOp.sem cniServer) (cniPlugin.del cniArgs).run
      ⟨s.server, allDelivered⟩ tr (.pure (.ok ())) n := by
    unfold del
    exact ⟨_, _, Exec.bind_ok (a := "/run/netns/pod") (.refl _ _) <|
      Exec.bind_ok (a := "eth0") (.refl _ _) <| Exec.bind_ok (a := "container") (.refl _ _) <|
      Exec.bind_ok (a := podClient) (.refl _ _) <| Exec.bind_ok hdelete <|
      Exec.bind_ok (infra_exec cniServer _ _ () _) <|
      .step _ _ _ (Except.ok ()) _ [] _ _ rfl (.refl _ _)⟩
  obtain ⟨tr, n, hx⟩ := hdel
  exact ⟨_, tr, n, hx, rfl⟩

/-- What the allocation of the pod answers. -/
def podResponse : IpamAllocateResponse where
  hostAddressing := ⟨some "10.0.0.5", none⟩
  ipv4 := some ⟨"10.0.10.1", some POOL_DEFAULT⟩
  ipv6 := none

/-- The fresh daemon gives the pod `10.0.10.1`. -/
theorem allocate_served : ∃ ipam,
    cniServer.Serves (.allocate none (some "default/pod") none true) (.start initSubnets)
      (some ⟨200, .json "{}" podResponse⟩)
      { DaemonSystem.start initSubnets with ipam := ipam } := by
  let s : DaemonSystem := .start initSubnets
  have hfirst : (s.ipam.allocateNextFamily cniServer.text .ipv4 "default/pod" POOL_DEFAULT
      [0]).map Prod.fst = some (.ok ⟨podAddress, POOL_DEFAULT⟩) := by
    decide +kernel
  obtain ⟨⟨r, ipam⟩, hfirst, rfl⟩ := Option.map_eq_some_iff.mp hfirst
  exact ⟨ipam, _, .ok podResponse, .step _ _ _ false s _ _ _ ⟨s.ipam, ⟨rfl, rfl⟩, rfl⟩ <|
    .step _ _ _ true s _ _ _ ⟨s.ipam, ⟨rfl, rfl⟩, rfl⟩ <|
    .step _ _ _ (Except.ok ⟨podAddress, POOL_DEFAULT⟩) _ [] _ _
      ⟨ipam, ⟨[0], by exact hfirst⟩, rfl⟩ (.refl _ _), rfl⟩

/-- The links of the pod. -/
def podLinks : NetlinkLink × NetlinkLink :=
  (⟨"lxc0", 7, .ofBytes 2 0 0 0 0 2, none⟩,
    ⟨"eth0", 8, .ofBytes 2 0 0 0 0 1, some "/run/netns/pod"⟩)

/-- What the pod is given of IPv4. -/
def podFamily : FamilyConfig where
  routes := ipv4Routes 0x0a000005 1500
  endpointIp := .v4 0x0a000a01 32
  pool := some POOL_DEFAULT
  gateway := .v4 0x0a000005

/-- The endpoint of the pod. -/
def cniEndpoint : EndpointCreateRequest where
  containerId := "container"
  containerMac := podLinks.2.mac.text
  containerIfaceName := "eth0"
  hostMac := podLinks.1.mac.text
  hostIfaceName := podLinks.1.name
  hostIfaceIndex := podLinks.1.index
  k8sNamespace := "default"
  k8sPodName := "pod"
  k8sUid := "uid"
  ipv4 := some (podFamily.addressing cniText)
  ipv6 := none

/-- A daemon that knows no endpoint creates the one of the pod. -/
theorem create_served (ipam : IpamState) : ∃ t,
    cniServer.Serves (.createEndpoint (attachmentId "container" "eth0") cniEndpoint)
      { DaemonSystem.start initSubnets with ipam := ipam }
      (some ⟨200, .json "{}" EndpointCreateResponse.mk⟩) t := by
  let p : EndpointPersist := createPersist cniEndpoint 1 podLinks.1.mac podLinks.2.mac
    (some 0x0a000a01) none
  have hacceptable : Acceptable cniServer.text cniEndpoint .new p := {
    unknown := rfl
    ipv4 := by decide
    ipv6 := rfl
    unusedIpv4 := fun _ _ => rfl
    unusedIpv6 := fun _ _ => rfl
    hostMac := by decide
    containerMac := by decide
    rest := rfl
    free := by decide
    absent := rfl }
  obtain ⟨_, after, -, hworker⟩ := CrashSystem.first_regenerate_exec { persist := p }
  obtain ⟨_, hcreate⟩ := create_exec hacceptable hworker
  let s : DaemonSystem := { DaemonSystem.start initSubnets with ipam := ipam }
  have hserves := ApiServer.serves_create (s := s) (attachmentId "container" "eth0") hcreate
  exact ⟨_, hserves⟩

/-- The answers of the daemon are read as the configuration of the pod. -/
theorem podFamily_exec (n : Network) : Exec (CniOp.sem cniServer) (cniPlugin.familyConfig
    cniPlugin.parseIpv4 "ipv4" .v4 ipv4Routes 1500 podResponse.hostAddressing.ipv4
    podResponse.ipv4).run n [] (.pure (.ok (some podFamily))) n := by
  have hrun : (cniPlugin.familyConfig cniPlugin.parseIpv4 "ipv4" .v4 ipv4Routes 1500
      podResponse.hostAddressing.ipv4 podResponse.ipv4).run = .pure (.ok (some podFamily)) := by
    rfl
  rw [hrun]
  exact .refl _ _

/-- With its address, the pod is set up. -/
theorem attach_exec (ipam : IpamState) {deliveries : ApiRequest → Nat → Delivery}
    (hdelivered : deliveries (.createEndpoint (attachmentId "container" "eth0") cniEndpoint) 0 =
      .delivered) :
    ∃ tr result n, Exec (CniOp.sem cniServer) (cniPlugin.attach podClient "container" "eth0"
      "/run/netns/pod" cniSpec ⟨1500, 1500⟩ podResponse).run
      ⟨{ DaemonSystem.start initSubnets with ipam := ipam }, deliveries⟩ tr
      (.pure (.ok result)) n := by
  obtain ⟨t, hcreate⟩ := create_served ipam
  let n : Network := ⟨{ DaemonSystem.start initSubnets with ipam := ipam }, deliveries⟩
  obtain ⟨_, hcreate⟩ := apiData_exec (c := podClient) (n := n) rfl hcreate hdelivered
  obtain ⟨_, hcreate⟩ := api_exec hcreate "could not create endpoint"
  obtain ⟨_, hlinks⟩ := setupVeth_exec cniPlugin cniServer "container" "eth0" "/run/netns/pod" 1500
    podLinks.1 podLinks.2 n
  obtain ⟨_, hconfigure⟩ := configureIface_exec cniPlugin cniServer podLinks.2
    [podFamily.endpointIp] podFamily.routes n
  unfold attach
  exact ⟨_, _, _, Exec.bind_ok (a := ()) (.refl _ _) <| Exec.bind_ok hlinks <|
    Exec.bind_ok (podFamily_exec n) <| Exec.bind_ok (a := none) (.refl _ _) <|
    Exec.bind_ok hconfigure <| Exec.bind_ok hcreate (.refl _ _)⟩

/-- ADD of the pod succeeds on a fresh daemon. -/
theorem add_exec : ∃ t, Step cniPlugin cniServer (start initSubnets)
    (.add cniArgs cniSpec allDelivered) t := by
  let s : DaemonSystem := .start initSubnets
  have hconfig : cniServer.Serves .getConfig s
      (some ⟨200, .json "{}" (DaemonConfigurationResponse.mk 1500 1500)⟩) s :=
    ⟨[], .ok (DaemonConfigurationResponse.mk 1500 1500), .refl _ _, rfl⟩
  obtain ⟨_, hconfig⟩ := apiData_exec (c := podClient) (n := ⟨s, allDelivered⟩) rfl hconfig rfl
  obtain ⟨_, hconfig⟩ := api_exec hconfig "could not read config"
  -- Every call uses up one delivery of its own request and leaves the others alone.
  obtain ⟨ipam, hallocate⟩ := allocate_served
  let asked := Network.shift allDelivered .getConfig
  obtain ⟨_, hallocate⟩ := apiData_exec (c := podClient) (n := ⟨s, asked⟩) rfl hallocate rfl
  obtain ⟨_, hallocate⟩ := api_exec hallocate "could not allocate ip"
  let given := Network.shift asked (.allocate none (some "default/pod") none true)
  obtain ⟨_, result, n, hattach⟩ := attach_exec ipam (show given _ 0 = _ from rfl)
  have hadd : ∃ tr, Exec (CniOp.sem cniServer) (cniPlugin.add cniArgs cniSpec).run
      ⟨s, allDelivered⟩ tr (.pure (.ok result)) n := by
    unfold add
    exact ⟨_, Exec.bind_ok (a := "/run/netns/pod") (.refl _ _) <|
      Exec.bind_ok (a := "eth0") (.refl _ _) <| Exec.bind_ok (a := "container") (.refl _ _) <|
      Exec.bind_ok (a := ()) (.refl _ _) <| Exec.bind_ok (infra_exec cniServer _ _ () _) <|
      Exec.bind_ok (a := ()) (.step _ _ _ (Except.ok ()) _ [] _ _ rfl (.refl _ _)) <|
      Exec.bind_ok (a := podClient) (.refl _ _) <| Exec.bind_ok hconfig <|
      Exec.bind_ok hallocate <| Exec.bind_ok (a := ()) (.refl _ _) <|
      Exec.bind hattach (.refl _ _)⟩
  obtain ⟨tr, hx⟩ := hadd
  exact ⟨_, tr, result, n, hx, rfl⟩

/-- **A deleted pod keeps its address.** One pod is added to a fresh daemon and deleted again; the
    address that it was given stays held. -/
theorem deleted_pod_keeps_address : ¬ ∀ (plugin : CniPlugin) (server : ApiServer)
    (subnets : IpamSubnets) (s : CniSystem) (run : Run (Step plugin server) (start subnets) s),
    run.Always Conserved := by
  intro hall
  obtain ⟨s, hadd⟩ := add_exec
  obtain ⟨t, hdel⟩ := del_exec s
  have hadded : "container" ∈ s.added := by
    obtain ⟨tr, result, n, -, rfl⟩ := hadd
    exact .inr rfl
  obtain ⟨hsettled, hconserved⟩ := add_step hadd (settled_start _) (conserved_start _)
  let run : Run (Step cniPlugin cniServer) (start initSubnets) t :=
    (Run.nil.snoc _ _ _ hadd).snoc _ _ _ hdel
  have hlast := (hall cniPlugin cniServer initSubnets t run).last
  exact (del_step hdel hsettled hconserved).mp hlast "container" rfl hadded

end CniSystem

end Sarena
