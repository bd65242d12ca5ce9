import Sarena.Api.Server

namespace Sarena

open Lib

/-!
# API — the client

`ApiClient` sends a request through its transport, turns a status that is not a success into
an error, and tries again after errors that may be transient.  The transport is where requests
and answers get lost.

* `ApiClient.trySend`, `ApiClient.sendAndCheck` — one attempt, and the retry loop around it;
* `ApiClient.allocate`, `ApiClient.create`, … — the client's methods;
* `Delivery`, `Network` — what becomes of each attempt of each request: it is answered, or its
  answer is lost, after the server carried it out or without that;
* `ApiClient.trySend_rule`, `ApiClient.trySend_spec` — everything that one attempt can do.
-/

/-! ### Errors and paths -/

/-- `TransportError`. -/
inductive TransportError
  | networkError (message : String)
  | http (message : String)
  | invalidUri (message : String)
  | json (message : String)
  | invalidHost (host : String)
  | invalidScheme (scheme : String)
  | resourceNotExist (endpoint : String)
  | unexpectedStatus (endpoint : String) (status : Nat) (body : String)
  | timeout
  deriving DecidableEq, Repr

/-- `StatusCode::is_server_error`. -/
def isServerError (status : Nat) : Bool := decide (500 ≤ status ∧ status < 600)

/-- `is_retryable`. -/
def TransportError.isRetryable : TransportError → Bool
  | .networkError _ => true
  | .unexpectedStatus _ status _ => isServerError status
  | _ => false

/-- `status_error`. -/
def statusError {α : Type} (endpoint : String) (resp : Response α) : TransportError :=
  if resp.status = 404 then .resourceNotExist endpoint
  else .unexpectedStatus endpoint resp.status resp.body.lossy

section

variable {α : Type} {resp : Response α}

/-- A server error is no success. -/
theorem isSuccess_of_serverError (h : isServerError resp.status = true) :
    resp.isSuccess = false := by
  have hge : 500 ≤ resp.status := (of_decide_eq_true h : _ ∧ _).1
  refine decide_eq_false fun hsuccess => ?_
  have hlt : resp.status < 300 := hsuccess.2
  omega

/-- A server error may pass. -/
theorem isRetryable_statusError (endpoint : String) (h : isServerError resp.status = true) :
    (statusError endpoint resp).isRetryable = true := by
  have hge : 500 ≤ resp.status := (of_decide_eq_true h : _ ∧ _).1
  have hne : resp.status ≠ 404 := by omega
  rw [statusError, if_neg hne]
  exact h

end

/-- `PathBuilder`. -/
structure PathBuilder where
  path : String
  query : List (String × String) := []

/-- `PathBuilder::query_opt`. -/
def PathBuilder.queryOpt (b : PathBuilder) (key : String) (value : Option String) : PathBuilder :=
  { b with query := b.query ++ (value.map (key, ·)).toList }

/-- `PathBuilder::build`; `encode` is the form encoding of the pairs. -/
def PathBuilder.build (encode : List (String × String) → String) (b : PathBuilder) : String :=
  let query := encode b.query
  if query.isEmpty then b.path else s!"{b.path}?{query}"

/-- `endpoint_path`. -/
def endpointPath (attachmentId : String) : String := s!"/endpoint/{attachmentId}"

/-- `attachment_id`. -/
def attachmentId (containerId ifName : String) : String :=
  s!"cni-attachment-id:{containerId}:{ifName}"

/-- The endpoint of the server that a request goes to. -/
def ApiRequest.path (encode : List (String × String) → String) : ApiRequest → String
  | .getConfig => "/daemon/config"
  | .getHealth => "/daemon/health"
  | .getDebuginfo => "/daemon/debuginfo"
  | .allocate family owner pool _ =>
    ((((PathBuilder.mk "/ipam" []).queryOpt "family" family).queryOpt "owner" owner).queryOpt
      "pool" pool).build encode
  | .allocateIp ip owner pool =>
    (((PathBuilder.mk s!"/ipam/{ip}" []).queryOpt "owner" owner).queryOpt "pool" pool).build encode
  | .releaseIp ip pool => ((PathBuilder.mk s!"/ipam/{ip}" []).queryOpt "pool" pool).build encode
  | .createEndpoint attachmentId _ => endpointPath attachmentId
  | .deleteEndpoint attachmentId => endpointPath attachmentId
  | .endpointHealth attachmentId => s!"{endpointPath attachmentId}/health"

/-! ### The retry loop -/

/-- The transport. -/
inductive TransportOp : Type → Type
  | send (request : ApiRequest) : TransportOp (Except TransportError (Response request.Reply))

/-- A call of the client. -/
abbrev ClientCall (α : Type) := ExceptT TransportError (Prog TransportOp) α

/-- `RetryPolicy`, without the wait between two attempts. -/
structure RetryPolicy where
  maxAttempts : UInt32
  deriving DecidableEq, Repr

/-- `RetryPolicy::default`. -/
instance : Inhabited RetryPolicy := ⟨⟨3⟩⟩

/-- `ApiClient`, with what other crates do for it: the form encoding of a query, whether a
    request can be built for a path, and the text of the error for a body that is not the JSON
    of a reply. -/
structure ApiClient where
  retry : RetryPolicy
  encodeQuery : List (String × String) → String
  request : String → Except TransportError Unit
  jsonError : String → String

namespace ApiClient

variable (c : ApiClient)

/-- `ApiClientInner::try_send`. -/
def trySend (request : ApiRequest) : ClientCall (Response request.Reply) := do
  ExceptT.mk (pure (c.request (request.path c.encodeQuery)))
  let resp ← ExceptT.mk (perform (.send request))
  if resp.isSuccess then return resp
  else throw (statusError (request.path c.encodeQuery) resp)

/-- The loop of `send_and_check`, with the number of attempts that may follow the next one. -/
def sendLoop (request : ApiRequest) : Nat → ClientCall (Response request.Reply)
  | 0 => c.trySend request
  | retries + 1 => do
    match ← ExceptT.lift (c.trySend request).run with
    | .ok resp => return resp
    | .error e => if e.isRetryable then sendLoop request retries else throw e

/-- The number of attempts that a call may make: at least one. -/
def attempts : Nat := max c.retry.maxAttempts.toNat 1

/-- `ApiClientInner::send_and_check`. -/
def sendAndCheck (request : ApiRequest) : ClientCall (Response request.Reply) :=
  c.sendLoop request (c.attempts - 1)

/-- `serde_json::from_slice` of a response. -/
def fromSlice {α : Type} (resp : Response α) : ClientCall α :=
  match resp.body with
  | .json _ value => pure value
  | .text text => throw (.json (c.jsonError text))

/-- `get_api_data`, `put_api_data` and `put_api_data_with_headers`: the reply is the body. -/
def apiData (request : ApiRequest) : ClientCall request.Reply := do
  let resp ← c.sendAndCheck request
  c.fromSlice resp

/-- `delete_api_data_no_body`: the body is not looked at. -/
def noBody (request : ApiRequest) : ClientCall Unit := do
  let _ ← c.sendAndCheck request

/-! ### The methods -/

/-- `DaemonClient::get_config`. -/
def getConfig : ClientCall DaemonConfigurationResponse := c.apiData .getConfig

/-- `DaemonClient::health`. -/
def health : ClientCall Unit := c.noBody .getHealth

/-- `DaemonClient::debuginfo`. -/
def debuginfo : ClientCall SarenaVersion := c.apiData .getDebuginfo

/-- `IpamClient::allocate`. -/
def allocate (family owner pool : Option String) (expiration : Bool) :
    ClientCall IpamAllocateResponse :=
  c.apiData (.allocate family owner pool expiration)

/-- `IpamClient::allocate_ip`. -/
def allocateIp (ip : String) (owner pool : Option String) : ClientCall Unit :=
  c.apiData (.allocateIp ip owner pool)

/-- `IpamClient::release`. -/
def release (ip : String) (pool : Option String) : ClientCall Unit := c.noBody (.releaseIp ip pool)

/-- `EndpointClient::create`. -/
def create (attachmentId : String) (ep : EndpointCreateRequest) :
    ClientCall EndpointCreateResponse :=
  c.apiData (.createEndpoint attachmentId ep)

/-- `EndpointClient::delete`. -/
def delete (attachmentId : String) : ClientCall Unit := c.noBody (.deleteEndpoint attachmentId)

/-- `EndpointClient::health`. -/
def endpointHealth (attachmentId : String) : ClientCall EndpointHealthStatus :=
  c.apiData (.endpointHealth attachmentId)

end ApiClient

/-! ### What a call sends -/

/-- The attempt is one of a request that `P` allows. -/
def TransportOp.Sends (P : ApiRequest → Prop) : ∀ β : Type, TransportOp β → Prop
  | _, .send request => P request

namespace ApiClient

variable (c : ApiClient) {P : ApiRequest → Prop} {request : ApiRequest}

/-- A call sends its own request, any number of times. -/
theorem sendLoop_sends (h : P request) (retries : Nat) :
    (c.sendLoop request retries).run.Uses (TransportOp.Sends P) := by
  have htry : (c.trySend request).run.Uses (TransportOp.Sends P) := by
    unfold trySend
    cases c.request (request.path c.encodeQuery) with
    | error e => trivial
    | ok _ =>
      refine ⟨h, fun b => ?_⟩
      cases b with
      | error e => trivial
      | ok resp =>
        show Prog.Uses _ (ExceptT.run (if resp.isSuccess then _ else _))
        split
        · trivial
        · trivial
  induction retries with
  | zero => exact htry
  | succ retries ih =>
    rw [sendLoop]
    refine Prog.uses_try (Prog.uses_bind htry fun _ => trivial) fun r => ?_
    cases r with
    | ok resp => trivial
    | error e =>
      show Prog.Uses _ (ExceptT.run (if e.isRetryable then _ else _))
      split
      · exact ih
      · trivial

theorem apiData_sends (h : P request) :
    (c.apiData request).run.Uses (TransportOp.Sends P) := by
  refine Prog.uses_try (c.sendLoop_sends h _) fun resp => ?_
  rw [fromSlice]
  split
  · trivial
  · trivial

theorem noBody_sends (h : P request) :
    (c.noBody request).run.Uses (TransportOp.Sends P) :=
  Prog.uses_try (c.sendLoop_sends h _) fun _ => trivial

end ApiClient

/-! ### Lost answers -/

/-- What the client sees instead of an answer: an error of the transport, or a server error. -/
inductive Failure
  | network (message : String)
  | answered (status : Nat) (body : String) (h : isServerError status = true)

/-- What becomes of an attempt: it is answered, or the answer is lost, after the request was
    `executed` or without that. -/
inductive Delivery
  | delivered
  | lost (executed : Bool) (failure : Failure)

/-- The server carries the request out. -/
def Delivery.executes : Delivery → Bool
  | .delivered => true
  | .lost executed _ => executed

/-- The server, and what becomes of the next attempts of each request. -/
structure Network where
  server : DaemonSystem
  deliveries : ApiRequest → Nat → Delivery

namespace Network

/-- What the transport answers when an answer is lost. -/
def failed {α : Type} : Failure → Except TransportError (Response α)
  | .network message => .error (.networkError message)
  | .answered status body _ => .ok ⟨status, .text body⟩

/-- The transport's answer, where the server gave `answer` or closed the connection. -/
def Answered {α : Type} (answer : Option (Response α)) (b : Except TransportError (Response α)) :
    Prop :=
  match answer with
  | some resp => b = .ok resp
  | none => ∃ message, b = .error (.networkError message)

/-- One attempt of `request` is over. -/
def shift (deliveries : ApiRequest → Nat → Delivery) (request : ApiRequest) :
    ApiRequest → Nat → Delivery :=
  fun r i => if r = request then deliveries r (i + 1) else deliveries r i

/-- The meaning of an attempt. -/
def sem (server : ApiServer) : Sem TransportOp Network
  | _, .send request, n, b, t => t.deliveries = shift n.deliveries request ∧
      match n.deliveries request 0 with
      | .delivered => ∃ answer, server.Serves request n.server answer t.server ∧ Answered answer b
      | .lost true failure =>
        (∃ answer, server.Serves request n.server answer t.server) ∧ b = failed failure
      | .lost false failure => t.server = n.server ∧ b = failed failure

/-- Any attempt, in any state. -/
abbrev anyOp : ∀ β : Type, TransportOp β → Network → Prop := fun _ _ _ => True

end Network

/-! ### One attempt -/

namespace ApiClient

open Network

variable {c : ApiClient} {server : ApiServer} {request : ApiRequest} {n : Network}

/-- What an attempt that is sent does to the server, and what the client sees. -/
inductive Attempt (server : ApiServer) (request : ApiRequest) (path : String) (n : Network) :
    Except TransportError (Response request.Reply) → DaemonSystem → Prop
  | accepted (resp : Response request.Reply) (t : DaemonSystem)
      (hdelivered : n.deliveries request 0 = .delivered)
      (hserves : server.Serves request n.server (some resp) t) (hsuccess : resp.isSuccess = true) :
      Attempt server request path n (.ok resp) t
  | rejected (resp : Response request.Reply) (t : DaemonSystem)
      (hdelivered : n.deliveries request 0 = .delivered)
      (hserves : server.Serves request n.server (some resp) t) (hfails : resp.isSuccess = false) :
      Attempt server request path n (.error (statusError path resp)) t
  | closed (message : String) (t : DaemonSystem)
      (hdelivered : n.deliveries request 0 = .delivered)
      (hserves : server.Serves request n.server none t) :
      Attempt server request path n (.error (.networkError message)) t
  | executed (failure : Failure) (answer : Option (Response request.Reply)) (t : DaemonSystem)
      (e : TransportError) (hlost : n.deliveries request 0 = .lost true failure)
      (hserves : server.Serves request n.server answer t) (hretry : e.isRetryable = true) :
      Attempt server request path n (.error e) t
  | unexecuted (failure : Failure) (e : TransportError)
      (hlost : n.deliveries request 0 = .lost false failure) (hretry : e.isRetryable = true) :
      Attempt server request path n (.error e) n.server

/-- A lost answer is an error after which the client tries again. -/
theorem failed_retryable {α : Type} (failure : Failure) (path : String) :
    (∃ e, failed (α := α) failure = .error e ∧ e.isRetryable = true) ∨
      ∃ resp, failed (α := α) failure = .ok resp ∧ resp.isSuccess = false ∧
        (statusError path resp).isRetryable = true := by
  cases failure with
  | network message => exact .inl ⟨_, rfl, rfl⟩
  | answered status body h =>
    exact .inr ⟨_, rfl, isSuccess_of_serverError h, isRetryable_statusError path h⟩

/-- The check of the status, on an answer that got through. -/
theorem attempt_answered {b : Except TransportError (Response request.Reply)} {path : String}
    {answer : Option (Response request.Reply)} {t : DaemonSystem}
    (hdelivered : n.deliveries request 0 = .delivered)
    (hserves : server.Serves request n.server answer t) (hanswer : Answered answer b) :
    Attempt server request path n (b.bind fun resp =>
      if resp.isSuccess then .ok resp else .error (statusError path resp)) t := by
  cases answer with
  | none =>
    obtain ⟨message, rfl⟩ := hanswer
    exact .closed message t hdelivered hserves
  | some resp =>
    obtain rfl : b = .ok resp := hanswer
    show Attempt server request path n (if resp.isSuccess then _ else _) t
    by_cases hsuccess : resp.isSuccess = true
    · rw [if_pos hsuccess]
      exact .accepted resp t hdelivered hserves hsuccess
    · rw [if_neg hsuccess]
      exact .rejected resp t hdelivered hserves (Bool.not_eq_true _ ▸ hsuccess)

/-- The check of the status, where the answer was lost. -/
theorem check_failed {α : Type} (failure : Failure) (path : String) :
    ∃ e, ((failed (α := α) failure).bind fun resp =>
      if resp.isSuccess then .ok resp else .error (statusError path resp)) = .error e ∧
        e.isRetryable = true := by
  obtain ⟨e, hfailed, hretry⟩ | ⟨resp, hfailed, hfails, hretry⟩ := failed_retryable failure path
  · exact ⟨e, by rw [hfailed]; rfl, hretry⟩
  · refine ⟨statusError path resp, ?_, hretry⟩
    rw [hfailed]
    show (if resp.isSuccess then _ else _) = _
    rw [hfails]
    rfl

/-- **Rule of an attempt**, whatever the transport does: the request cannot be built and nothing
    is sent, or it is sent and the status of the answer is checked. -/
theorem trySend_rule {σ : Type*} {sem : Sem TransportOp σ}
    {Q : Except TransportError (Response request.Reply) → σ → Prop} {s : σ}
    (hbuild : ∀ e, c.request (request.path c.encodeQuery) = .error e → Q (.error e) s)
    (hsend : c.request (request.path c.encodeQuery) = .ok () →
      ∀ b t, sem _ (.send request) s b t → Q (b.bind fun resp =>
        if resp.isSuccess then .ok resp
        else .error (statusError (request.path c.encodeQuery) resp)) t) :
    (c.trySend request).run.Guards sem (fun _ _ _ => True) Q s := by
  unfold trySend
  cases hrequest : c.request (request.path c.encodeQuery) with
  | error e => exact hbuild e hrequest
  | ok _ =>
    refine ⟨trivial, fun b t h => ?_⟩
    have hchecked := hsend hrequest b t h
    cases b with
    | error e => exact hchecked
    | ok resp =>
      rw [Except.bind] at hchecked
      show Prog.Guards _ _ _ (ExceptT.run (if resp.isSuccess then _ else _)) t
      by_cases hsuccess : resp.isSuccess = true
      · rw [if_pos hsuccess] at hchecked ⊢
        exact hchecked
      · rw [if_neg hsuccess] at hchecked ⊢
        exact hchecked

/-- **One attempt.** The request cannot be built and nothing is sent, or it is sent and one of
    the outcomes of `Attempt` follows. -/
theorem trySend_spec : (c.trySend request).run.Guards (Network.sem server) anyOp
    (fun r t => (∃ e, c.request (request.path c.encodeQuery) = .error e ∧ r = .error e ∧ t = n) ∨
      (c.request (request.path c.encodeQuery) = .ok () ∧
        t.deliveries = shift n.deliveries request ∧
        Attempt server request (request.path c.encodeQuery) n r t.server)) n := by
  refine trySend_rule (fun e hbuild => .inl ⟨e, hbuild, rfl, rfl⟩) ?_
  rintro hbuild b t ⟨hshift, h⟩
  refine .inr ⟨hbuild, hshift, ?_⟩
  cases hdelivery : n.deliveries request 0 with
  | delivered =>
    rw [hdelivery] at h
    obtain ⟨answer, hserves, hanswer⟩ := h
    exact attempt_answered hdelivery hserves hanswer
  | lost executed failure =>
    rw [hdelivery] at h
    obtain ⟨e, hcheck, hretry⟩ := check_failed failure (request.path c.encodeQuery)
    cases executed with
    | true =>
      obtain ⟨⟨answer, hserves⟩, rfl⟩ := h
      rw [hcheck]
      exact .executed failure answer _ e hdelivery hserves hretry
    | false =>
      obtain ⟨hsame, rfl⟩ := h
      rw [hcheck, hsame]
      exact .unexecuted failure e hdelivery hretry

end ApiClient

end Sarena
