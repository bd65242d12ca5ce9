import Sarena.Daemon.Restart

namespace Sarena

open Lib

/-!
# API — the server

The HTTP API of the daemon: every request is served by a handler, which calls one of the
services and turns its result into a response.

* `ApiRequest`, `Response` — what travels between client and server, one level above the bytes;
* `ApiServer.handle` — the handlers, as programs over the critical sections of the services;
* `ApiServer.intoResponse` — the response that a handler's value is turned into;
* `ApiServer.Serves` — a request is carried out, and answered unless the handler panics;
* `ApiServer.Step` — one request, or a restart of the daemon.
-/

/-! ### Requests and responses -/

/-- `DaemonConfigurationResponse`. -/
structure DaemonConfigurationResponse where
  deviceMtu : UInt32
  routeMtu : UInt32
  deriving DecidableEq, Repr

/-- `SarenaVersion`, the one field of `DaemonDebugInfoResponse`. -/
structure SarenaVersion where
  version : String
  gitHash : String
  buildDate : String
  os : String
  arch : String
  deriving DecidableEq, Repr

/-- `EndpointHealthStatus`. -/
inductive EndpointHealthStatus
  | ok
  | failure
  deriving DecidableEq, Repr

/-- `EndpointCreateResponse`. -/
structure EndpointCreateResponse where
  deriving DecidableEq, Repr

/-- The requests that a client can make, with what their paths, queries, headers and bodies
    carry. -/
inductive ApiRequest
  | getConfig
  | getHealth
  | getDebuginfo
  | allocate (family owner pool : Option String) (expiration : Bool)
  | allocateIp (ip : String) (owner pool : Option String)
  | releaseIp (ip : String) (pool : Option String)
  | createEndpoint (attachmentId : String) (ep : EndpointCreateRequest)
  | deleteEndpoint (attachmentId : String)
  | endpointHealth (attachmentId : String)
  deriving DecidableEq, Repr

/-- `ApiStatus`. -/
inductive ApiStatus
  | ok
  | noContent
  deriving DecidableEq, Repr

namespace ApiRequest

/-- What the client gets out of the answer to a request. -/
def Reply : ApiRequest → Type
  | .getConfig => DaemonConfigurationResponse
  | .getHealth => Unit
  | .getDebuginfo => SarenaVersion
  | .allocate .. => IpamAllocateResponse
  | .allocateIp .. => Unit
  | .releaseIp .. => Unit
  | .createEndpoint .. => EndpointCreateResponse
  | .deleteEndpoint _ => Unit
  | .endpointHealth _ => EndpointHealthStatus

/-- What the handler of a request returns when it succeeds. -/
def Handled : ApiRequest → Type
  | .getHealth => ApiStatus
  | .allocateIp .. => ApiStatus
  | .releaseIp .. => ApiStatus
  | .deleteEndpoint _ => ApiStatus
  | request => request.Reply

/-- The handler's value, as the client is to get it: a status carries nothing. -/
def value : (request : ApiRequest) → request.Handled → request.Reply
  | .getConfig, v => v
  | .getHealth, _ => ()
  | .getDebuginfo, v => v
  | .allocate .., v => v
  | .allocateIp .., _ => ()
  | .releaseIp .., _ => ()
  | .createEndpoint .., v => v
  | .deleteEndpoint _, _ => ()
  | .endpointHealth _, v => v

end ApiRequest

/-- A body: the JSON text of a value, or any other text. -/
inductive Body (α : Type)
  | json (text : String) (value : α)
  | text (text : String)

/-- The bytes of a body, as text. -/
def Body.lossy {α : Type} : Body α → String
  | .json bytes _ => bytes
  | .text bytes => bytes

/-- `Response<Bytes>`. -/
structure Response (α : Type) where
  status : Nat
  body : Body α

/-- `StatusCode::is_success`. -/
def Response.isSuccess {α : Type} (resp : Response α) : Bool :=
  decide (200 ≤ resp.status ∧ resp.status < 300)

/-! ### Errors -/

/-- `ErrorCode`. -/
inductive ErrorCode
  | notFound
  | badRequest
  | internal
  | notImplemented
  deriving DecidableEq, Repr

/-- `ApiError`. -/
inductive ApiError
  | notFound (message : String)
  | badRequest (message : String)
  | internal (message : String)
  | notImplemented (message : String)
  deriving DecidableEq, Repr

/-- `ApiError::code`. -/
def ApiError.code : ApiError → ErrorCode
  | .notFound _ => .notFound
  | .badRequest _ => .badRequest
  | .internal _ => .internal
  | .notImplemented _ => .notImplemented

/-- `ApiError::message`. -/
def ApiError.message : ApiError → String
  | .notFound message | .badRequest message | .internal message | .notImplemented message => message

/-- `ApiError::status`. -/
def ApiError.status : ApiError → Nat
  | .notFound _ => 404
  | .badRequest _ => 400
  | .internal _ => 500
  | .notImplemented _ => 501

/-- `Display` of an IPAM error; `debug` is `Debug` of a string. -/
def IpamError.text (debug : String → String) : IpamError → String
  | .ipv4Disabled => "IPv4 is disabled"
  | .ipv6Disabled => "IPv6 is disabled"
  | .excludedError ip owner => s!"IP {ip} is excluded, owned by {owner}"
  | .poolRequiredForAllocate ip owner =>
    s!"unable to restore IP {ip} for {debug owner}: pool name must be provided"
  | .poolRequiredForRelease ip => s!"no IPAM pool provided for IP release of {ip}"
  | .rangeFull => "range is full"
  | .alreadyAllocated => "provided IP is already allocated"
  | .mismatchedNetwork => "the provided network does not match the current range"
  | .notInRange validRange =>
    s!"provided IP is not in the valid range. The range of valid IPs is {validRange}"
  | .poolDeterminationUnavailable owner =>
    s!"unable to determine IPAM pool for owner {debug owner}: " ++
      "automatic pool determination is not implemented"

/-- `Display` of an endpoint error. -/
def EndpointError.text : EndpointError → String
  | .genericError message => s!"general error: {message}"
  | .dataPlaneError error => s!"DataPlane error: {error.text}"

/-- `From<IpamError> for ApiError`. -/
def ApiError.ofIpam (debug : String → String) (e : IpamError) : ApiError :=
  match e with
  | .excludedError .. | .poolRequiredForAllocate .. | .poolRequiredForRelease _
  | .alreadyAllocated | .notInRange _ => .badRequest (e.text debug)
  | .poolDeterminationUnavailable _ => .notImplemented (e.text debug)
  | .ipv4Disabled | .ipv6Disabled | .rangeFull | .mismatchedNetwork => .internal (e.text debug)

/-- `From<EndpointError> for ApiError`. -/
def ApiError.ofEndpoint (e : EndpointError) : ApiError := .internal e.text

/-- Why a handler did not succeed: with an error, or by a panic of its task. -/
inductive ApiFailure
  | error (error : ApiError)
  | panicked (message : String)
  deriving DecidableEq, Repr

/-! ### The services -/

/-- The critical sections of the IPAM service and of the endpoint manager. -/
abbrev ServiceOp (β : Type) := IpamOp β ⊕ ManagerOp β

/-- What they do to the daemon. -/
def DaemonSystem.serviceSem (text : IpText) : Sem ServiceOp DaemonSystem
  | _, .inl op, s, b, t =>
      ∃ ipam, IpamState.sem text _ op s.ipam b ipam ∧ t = { s with ipam := ipam }
  | _, .inr op, s, b, t => ∃ m fs, createSem _ op (s.manager, s.fs) b (m, fs) ∧
      t = { s with fs := fs, manager := m }

/-- A handler. -/
abbrev ApiCall (α : Type) := ExceptT ApiFailure (Prog ServiceOp) α

/-- What the server is set up with, and the formats of other crates: the text of addresses,
    `Debug` of a string, and the JSON text of replies and errors. -/
structure ApiServer where
  text : IpText
  gatewayIp : IpAddr
  version : SarenaVersion
  debug : String → String
  replyJson : (request : ApiRequest) → request.Reply → String
  errorJson : ErrorCode → String → String

namespace ApiServer

variable (server : ApiServer)

/-- `IntoResponse for ApiError`. -/
def errorResponse {α : Type} (e : ApiError) : Response α :=
  ⟨e.status, .text (server.errorJson e.code e.message)⟩

/-- `IntoResponse for Json`. -/
def jsonResponse (request : ApiRequest) (reply : request.Reply) : Response request.Reply :=
  ⟨200, .json (server.replyJson request reply) reply⟩

/-- `IntoResponse for ApiStatus`: no body. -/
def statusResponse {α : Type} : ApiStatus → Response α
  | .ok => ⟨200, .text ""⟩
  | .noContent => ⟨204, .text ""⟩

/-- The response for what a handler returns. -/
def intoResponse : (request : ApiRequest) → request.Handled → Response request.Reply
  | .getConfig, v => server.jsonResponse .getConfig v
  | .getHealth, v => statusResponse v
  | .getDebuginfo, v => server.jsonResponse .getDebuginfo v
  | .allocate family owner pool expiration, v =>
    server.jsonResponse (.allocate family owner pool expiration) v
  | .allocateIp .., v => statusResponse v
  | .releaseIp .., v => statusResponse v
  | .createEndpoint attachmentId ep, v => server.jsonResponse (.createEndpoint attachmentId ep) v
  | .deleteEndpoint _, v => statusResponse v
  | .endpointHealth attachmentId, v => server.jsonResponse (.endpointHealth attachmentId) v

/-- A call of the IPAM service, under `?`. -/
def ipam {α : Type} (call : IpamCall α) : ApiCall α :=
  ExceptT.mk <| Except.mapError (fun e => .error (.ofIpam server.debug e)) <$>
    call.run.mapOps fun _ => Sum.inl

/-- A call of the endpoint service, under `?`. -/
def endpoint {α : Type} (call : Handler ManagerOp α) : ApiCall α :=
  ExceptT.mk <| Except.mapError (fun
    | .error e => .error (.ofEndpoint e)
    | .panicked message => .panicked message) <$> call.run.mapOps fun _ => Sum.inr

/-- The address in a path, or a bad request. -/
def pathIp (ip : String) : ApiCall IpAddr :=
  match server.text.parseAddr ip with
  | .ok ip => pure ip
  | .error _ => throw (.error (.badRequest s!"Invalid IP address: {ip}"))

/-- The handlers, by the request that is routed to them. -/
def handle : (request : ApiRequest) → ApiCall request.Handled
  | .getConfig => pure (DaemonConfigurationResponse.mk 1500 1500)
  | .getHealth => pure ApiStatus.ok
  | .getDebuginfo => pure server.version
  | .allocate family owner pool expiration => server.ipam
    (DefaultIpamService.allocate server.text server.gatewayIp family owner pool expiration)
  | .allocateIp ip owner pool => do
    let ip ← server.pathIp ip
    server.ipam (DefaultIpamService.allocateIpCall server.text ip owner pool)
    return ApiStatus.ok
  | .releaseIp ip pool => do
    let ip ← server.pathIp ip
    server.ipam (DefaultIpamService.release server.text ip pool)
    return ApiStatus.noContent
  | .createEndpoint _ ep => do
    endpoint (create server.text ep)
    return EndpointCreateResponse.mk
  -- `DefaultEndpointService::delete` and `health` only log the attachment.
  | .deleteEndpoint _ => pure ApiStatus.noContent
  | .endpointHealth _ => pure EndpointHealthStatus.ok

/-- The response that a client would see; there is none when the handler panicked. -/
def respond (request : ApiRequest) :
    Except ApiFailure request.Handled → Option (Response request.Reply)
  | .ok v => some (server.intoResponse request v)
  | .error (.error e) => some (server.errorResponse e)
  | .error (.panicked _) => none

/-- The request is carried out from `s` to `t`. -/
def Serves (request : ApiRequest) (s : DaemonSystem) (answer : Option (Response request.Reply))
    (t : DaemonSystem) : Prop :=
  ∃ tr r, Exec (DaemonSystem.serviceSem server.text) (server.handle request).run s tr (.pure r) t ∧
    answer = server.respond request r

/-- What happens to the server: a request, or a restart. -/
inductive Event
  | request (request : ApiRequest)
  | restart

/-- The steps of the server. -/
def Step (subnets : IpamSubnets) (s : DaemonSystem) : Event → DaemonSystem → Prop
  | .request request, t => ∃ answer, server.Serves request s answer t
  | .restart, t => DaemonSystem.Restart subnets s t

end ApiServer

end Sarena
