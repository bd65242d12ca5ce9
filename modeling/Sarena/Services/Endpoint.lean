import Sarena.Endpoint.Manager

namespace Sarena

open Lib

/-!
# Services — creating an endpoint

`DefaultEndpointService::create` as a program over the manager's critical sections.  It
fails in two ways: with an `EndpointError`, or by a panic of its handler where a MAC
address does not parse; both end the program, so they share the error side of its
`ExceptT`.

* `create` — the request handler; the duplicate checks, the id allocation and the
  insertion are separate operations;
* `parseIp`, `parseIpv4`, `parseIpv6` — the addresses of a request.
-/

/-- `Addressing` of a request. -/
structure Addressing where
  ip : String
  pool : Option String := none
  deriving DecidableEq, Repr

/-- `EndpointCreateRequest`. -/
structure EndpointCreateRequest where
  containerId : String
  containerMac : String
  containerIfaceName : String
  hostMac : String
  hostIfaceName : String
  hostIfaceIndex : UInt32
  k8sNamespace : String
  k8sPodName : String
  k8sUid : String
  ipv4 : Option Addressing
  ipv6 : Option Addressing
  deriving DecidableEq, Repr

/-- `EndpointError`. -/
inductive EndpointError
  | genericError (message : String)
  | dataPlaneError (error : DataPlaneError)
  deriving DecidableEq, Repr

/-- Why a handler did not succeed: it returned an error, or it panicked. -/
inductive HandlerFailure
  | error (error : EndpointError)
  | panicked (message : String)
  deriving DecidableEq, Repr

/-- A handler over the operations `E`. -/
abbrev Handler (E : Type → Type) (α : Type) := ExceptT HandlerFailure (Prog E) α

namespace Handler

variable {E : Type → Type} {α : Type}

/-- One atomic operation. -/
def op (e : E α) : Handler E α := ExceptT.lift (perform e)

/-- A result that was computed without any operation, under `?`. -/
def attempt (r : Except EndpointError α) : Handler E α :=
  ExceptT.mk (pure (r.mapError .error))

/-- `Option::expect`. -/
def expect (a : Option α) (message : String) : Handler E α :=
  match a with
  | some a => pure a
  | none => throw (.panicked message)

/-- `if !cond { return Err(GenericError(message)) }`. -/
def ensure (cond : Bool) (message : String) : Handler E Unit :=
  if cond then pure () else throw (.error (.genericError message))

section

variable {σ : Type} {sem : Sem E σ} {ok : ∀ β : Type, E β → σ → Prop}
  {R : α → σ → Prop} {X : HandlerFailure → σ → Prop} {s : σ}

theorem guards_op {e : E α} (hok : ok α e s) (h : ∀ b t, sem α e s b t → R b t) :
    (op e).run.Guards sem ok (Prog.orError R X) s :=
  ⟨hok, h⟩

theorem guards_attempt {r : Except EndpointError α} (h : ∀ a, r = .ok a → R a s)
    (hX : ∀ e, X (.error e) s) :
    (attempt r : Handler E α).run.Guards sem ok (Prog.orError R X) s := by
  cases r with
  | ok a => exact h a rfl
  | error e => exact hX e

theorem guards_expect {a : Option α} {message : String} (h : ∀ b, a = some b → R b s)
    (hX : X (.panicked message) s) :
    (expect a message : Handler E α).run.Guards sem ok (Prog.orError R X) s := by
  cases a with
  | some b => exact h b rfl
  | none => exact hX

theorem guards_ensure {cond : Bool} {message : String} {R : Unit → σ → Prop}
    (h : cond = true → R () s) (hX : X (.error (.genericError message)) s) :
    (ensure cond message : Handler E Unit).run.Guards sem ok (Prog.orError R X) s := by
  cases cond with
  | true => exact h rfl
  | false => exact hX

end

end Handler

/-! ### The addresses of a request -/

/-- The part `parse_ipv4` and `parse_ipv6` share: the address of a CIDR block, or a bare
    address. -/
def parseIp (text : IpText) (ip : String) : Except EndpointError IpAddr :=
  match text.parseNet ip with
  | some net => .ok net.addr
  | none => (text.parseAddr ip).mapError fun e =>
      .genericError s!"error parsing ip address {ip}: {e}"

/-- `parse_ipv4`. -/
def parseIpv4 (text : IpText) (addr : Option Addressing) : Except EndpointError (Option Ipv4Addr) :=
  match addr with
  | none => .ok none
  | some addr => do
    match ← parseIp text addr.ip with
    | .v4 ip => .ok (some ip)
    | .v6 _ => .error (.genericError "error parsing ipv4 address")

/-- `parse_ipv6`. -/
def parseIpv6 (text : IpText) (addr : Option Addressing) : Except EndpointError (Option Ipv6Addr) :=
  match addr with
  | none => .ok none
  | some addr => do
    match ← parseIp text addr.ip with
    | .v4 _ => .error (.genericError "error parsing ipv6 address")
    | .v6 ip => .ok (some ip)

/-! ### The handler -/

open Handler

/-- `if let Some(ip) = ip && lookup(ip).is_some() { return Err(..) }`. -/
def checkUnused {α : Type} (ip : Option α) (lookup : α → ManagerOp (Option EndpointId))
    (message : α → String) : Handler ManagerOp Unit :=
  match ip with
  | none => pure ()
  | some ip => do
    let owner ← op (lookup ip)
    ensure owner.isNone (message ip)

/-- The `EndpointPersist` that a request is turned into. -/
def createPersist (request : EndpointCreateRequest) (id : EndpointId) (hostMac : MacAddress)
    (containerMac : MacAddress) (ipv4 : Option Ipv4Addr) (ipv6 : Option Ipv6Addr) :
    EndpointPersist where
  id := id
  containerId := some request.containerId
  hostIfaceName := request.hostIfaceName
  hostIfaceIndex := request.hostIfaceIndex
  containerMac := containerMac
  hostMac := hostMac
  ipv4 := ipv4
  ipv6 := ipv6
  k8sNs := some request.k8sNamespace
  k8sPodName := some request.k8sPodName

/-- `add_endpoint(..)?` and the commit of the lease.  When the insertion is refused the
    lease is dropped on the way out. -/
def addLeased (endpoint : EndpointPersist) : Handler ManagerOp Endpoint := do
  match ← op (.addEndpoint endpoint) with
  | .ok ep => do
    op (.commitLease endpoint.id)
    return ep
  | .error e => do
    op (.dropLease endpoint.id)
    throw (.error (.dataPlaneError e))

/-- `DefaultEndpointService::create`, up to the insertion of the endpoint. -/
def createEndpoint (text : IpText) (request : EndpointCreateRequest) :
    Handler ManagerOp Endpoint := do
  let known ← op (.lookupContainerId request.containerId)
  ensure known.isNone s!"endpoint for container {request.containerId} already exists"
  let ipv4 ← attempt (parseIpv4 text request.ipv4)
  let ipv6 ← attempt (parseIpv6 text request.ipv6)
  checkUnused ipv4 .lookupIpv4 fun ip => s!"Ipv4 {text.showAddr (.v4 ip)} is already in use"
  checkUnused ipv6 .lookupIpv6 fun ip => s!"Ipv6 {text.showAddr (.v6 ip)} is already in use"
  let hostMac ← expect (MacAddress.parse request.hostMac) "parse host mac"
  let containerMac ← expect (MacAddress.parse request.containerMac) "parse container mac"
  let lease ← op .allocateNewId
  let id ← attempt (lease.mapError .dataPlaneError)
  addLeased (createPersist request id hostMac containerMac ipv4 ipv6)

/-- `DefaultEndpointService::create`. -/
def create (text : IpText) (request : EndpointCreateRequest) : Handler ManagerOp Unit := do
  let ep ← createEndpoint text request
  let regenerated ← op (.regenerate ep)
  attempt (regenerated.mapError .dataPlaneError)

/-! ### Requests that are accepted -/

/-- In the state `m` the request can be turned into `endpoint`: nothing it names is known, it
    parses, and the endpoint's id is free. -/
structure Acceptable (text : IpText) (request : EndpointCreateRequest) (m : EndpointManager)
    (endpoint : EndpointPersist) : Prop where
  unknown : m.inner.containerId request.containerId = none
  ipv4 : parseIpv4 text request.ipv4 = .ok endpoint.ipv4
  ipv6 : parseIpv6 text request.ipv6 = .ok endpoint.ipv6
  unusedIpv4 : ∀ ip, endpoint.ipv4 = some ip → m.inner.ipv4 ip = none
  unusedIpv6 : ∀ ip, endpoint.ipv6 = some ip → m.inner.ipv6 ip = none
  hostMac : MacAddress.parse request.hostMac = some endpoint.hostMac
  containerMac : MacAddress.parse request.containerMac = some endpoint.containerMac
  rest : endpoint = createPersist request endpoint.id endpoint.hostMac endpoint.containerMac
    endpoint.ipv4 endpoint.ipv6
  free : endpoint.id ∈ m.idAllocator.ids
  absent : m.inner.endpoints endpoint.id = none

/-- The manager after an accepted request. -/
def EndpointManager.accept (m : EndpointManager) (endpoint : EndpointPersist) : EndpointManager :=
  (EndpointManager.addEndpoint
    { m with idAllocator := { m.idAllocator with ids := m.idAllocator.ids.erase endpoint.id } }
    endpoint).2

/-- The operations that `create` makes before it regenerates. -/
def ManagerOp.Inserts : ∀ β : Type, ManagerOp β → Prop
  | _, .regenerate _ => False
  | _, _ => True

section

variable {σ : Type} {sem : Sem ManagerOp σ} {put : EndpointManager → σ}

private theorem checkUnused_exec {α : Type} {ip : Option α}
    {lookup : α → ManagerOp (Option EndpointId)} {s : σ}
    (h : ∀ a, ip = some a → sem _ (lookup a) s none s) (message : α → String) :
    ∃ tr, Exec sem (checkUnused ip lookup message).run s tr (.pure (.ok ())) s := by
  cases ip with
  | none => exact ⟨_, .refl _ _⟩
  | some a => exact ⟨_, .step _ _ _ none s _ _ _ (h a rfl) (.refl _ _)⟩

/-- **An acceptable request is accepted**, on any state that a manager is put into. -/
theorem createEndpoint_exec {text : IpText} {request : EndpointCreateRequest} {m : EndpointManager}
    {endpoint : EndpointPersist}
    (hput : ∀ (β : Type) (op : ManagerOp β) m b m', ManagerOp.Inserts β op →
      EndpointManager.sem β op m b m' → sem β op (put m) b (put m'))
    (h : Acceptable text request m endpoint) :
    ∃ tr, Exec sem (createEndpoint text request).run (put m) tr (.pure (.ok (.new endpoint)))
      (put (m.accept endpoint)) := by
  let leased : EndpointManager :=
    { m with idAllocator := { m.idAllocator with ids := m.idAllocator.ids.erase endpoint.id } }
  -- One execution for each call of the handler, chained at the end.
  have hunknown : Exec sem (Handler.op (.lookupContainerId request.containerId)).run (put m) _
      (.pure (.ok none)) (put m) :=
    .step _ _ _ none _ [] _ _ (hput _ _ _ _ _ trivial ⟨h.unknown.symm, rfl⟩) (.refl _ _)
  obtain ⟨_, hipv4⟩ := checkUnused_exec (fun ip hip => hput _ (.lookupIpv4 ip) _ _ _ trivial
    ⟨(h.unusedIpv4 ip hip).symm, rfl⟩)
    fun ip => s!"Ipv4 {text.showAddr (.v4 ip)} is already in use"
  obtain ⟨_, hipv6⟩ := checkUnused_exec (fun ip hip => hput _ (.lookupIpv6 ip) _ _ _ trivial
    ⟨(h.unusedIpv6 ip hip).symm, rfl⟩)
    fun ip => s!"Ipv6 {text.showAddr (.v6 ip)} is already in use"
  have hlease : Exec sem (Handler.op .allocateNewId).run (put m) _ (.pure (.ok (.ok endpoint.id)))
      (put leased) :=
    .step _ _ _ (Except.ok endpoint.id) _ [] _ _
      (hput _ _ _ _ _ trivial ⟨_, ⟨h.free, rfl⟩, rfl⟩) (.refl _ _)
  have hadd : ∃ tr, Exec sem (addLeased (createPersist request endpoint.id endpoint.hostMac
      endpoint.containerMac endpoint.ipv4 endpoint.ipv6)).run (put leased) tr
      (.pure (.ok (.new endpoint))) (put (m.accept endpoint)) := by
    rw [← h.rest]
    have hok : (leased.addEndpoint endpoint).1 = .ok (.new endpoint) := by
      rw [EndpointManager.addEndpoint, if_neg (by simp [leased, h.absent])]
    exact ⟨_, .step _ _ _ (Except.ok (.new endpoint)) (put (m.accept endpoint)) _ _ _
        (hput _ _ _ _ _ trivial ⟨hok.symm, rfl⟩) <|
      .step _ _ _ () _ _ _ _ (hput _ (.commitLease endpoint.id) _ _ _ trivial rfl) (.refl _ _)⟩
  obtain ⟨_, hadd⟩ := hadd
  unfold createEndpoint
  refine ⟨_, Exec.bind_ok hunknown <| Exec.bind_ok (.refl _ _) <| Exec.bind_ok
    (a := endpoint.ipv4) (by rw [h.ipv4]; exact .refl _ _) <| Exec.bind_ok
    (a := endpoint.ipv6) (by rw [h.ipv6]; exact .refl _ _) <| Exec.bind_ok hipv4 <|
    Exec.bind_ok hipv6 <| Exec.bind_ok (a := endpoint.hostMac)
    (by rw [h.hostMac]; exact .refl _ _) <| Exec.bind_ok (a := endpoint.containerMac)
    (by rw [h.containerMac]; exact .refl _ _) <| Exec.bind_ok hlease <|
    Exec.bind_ok (.refl _ _) hadd⟩

end

end Sarena
