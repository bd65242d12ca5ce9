import Sarena.Api.Client

namespace Sarena

open Lib

/-!
# API — client and server on the wire

Every route pairs a handler's response with a client method that decodes it.  This file finds
the routes where the two agree.

* `ApiClient.call` — the client's method for a request;
* `ApiClient.Decodes` — the method, once it is answered, returns the given value;
* `decodes_iff` — the method returns what the handler did, on every route but one.
-/

namespace ApiClient

variable (c : ApiClient)

/-- The client's method for a request. -/
def call : (request : ApiRequest) → ClientCall request.Reply
  | .getConfig => c.getConfig
  | .getHealth => c.health
  | .getDebuginfo => c.debuginfo
  | .allocate family owner pool expiration => c.allocate family owner pool expiration
  | .allocateIp ip owner pool => c.allocateIp ip owner pool
  | .releaseIp ip pool => c.release ip pool
  | .createEndpoint attachmentId ep => c.create attachmentId ep
  | .deleteEndpoint attachmentId => c.delete attachmentId
  | .endpointHealth attachmentId => c.endpointHealth attachmentId

/-- Answered with the response, the client's method returns `r` at once. -/
def Returns (request : ApiRequest) (resp : Response request.Reply)
    (r : Except TransportError request.Reply) : Prop :=
  Exec anyAnswer (c.call request).run () [⟨TransportOp.send request, Except.ok resp⟩] (.pure r) ()

variable {c}

/-- A method returns one thing only. -/
theorem Returns.unique {request : ApiRequest} {resp : Response request.Reply}
    {r r' : Except TransportError request.Reply} (h : c.Returns request resp r)
    (h' : c.Returns request resp r') : r = r' :=
  Exec.answer_unique h h'

/-- An attempt that is answered with success is the last one. -/
theorem sendAndCheck_ok {request : ApiRequest} {resp : Response request.Reply}
    (hbuild : c.request (request.path c.encodeQuery) = .ok ()) (hsuccess : resp.isSuccess = true) :
    Exec anyAnswer (c.sendAndCheck request).run () [⟨TransportOp.send request, Except.ok resp⟩]
      (.pure (.ok resp)) () := by
  have htry : Exec anyAnswer (c.trySend request).run ()
      [⟨TransportOp.send request, Except.ok resp⟩] (.pure (.ok resp)) () := by
    unfold trySend
    rw [hbuild]
    refine .step _ _ _ (Except.ok resp) () _ _ _ trivial ?_
    show Exec anyAnswer (ExceptT.run (if resp.isSuccess then _ else _)) () [] _ ()
    rw [if_pos hsuccess]
    exact .refl _ _
  unfold sendAndCheck
  cases c.attempts - 1 with
  | zero => exact htry
  | succ retries =>
    rw [sendLoop, ← List.append_nil [_]]
    refine Exec.bind_ok (a := .ok resp) ?_ (.refl _ _)
    rw [← List.append_nil [_]]
    exact Exec.bind htry (.refl _ _)

/-- A method that decodes the body. -/
theorem apiData_returns {request : ApiRequest} {resp : Response request.Reply}
    (hbuild : c.request (request.path c.encodeQuery) = .ok ()) (hsuccess : resp.isSuccess = true) :
    Exec anyAnswer (c.apiData request).run () [⟨TransportOp.send request, Except.ok resp⟩]
      (c.fromSlice resp).run () := by
  unfold apiData
  rw [← List.append_nil [_]]
  exact Exec.bind_ok (sendAndCheck_ok hbuild hsuccess) (.refl _ _)

/-- A method that does not look at the body. -/
theorem noBody_returns {request : ApiRequest} {resp : Response request.Reply}
    (hbuild : c.request (request.path c.encodeQuery) = .ok ()) (hsuccess : resp.isSuccess = true) :
    Exec anyAnswer (c.noBody request).run () [⟨TransportOp.send request, Except.ok resp⟩]
      (.pure (.ok ())) () := by
  unfold noBody
  rw [← List.append_nil [_]]
  exact Exec.bind_ok (sendAndCheck_ok hbuild hsuccess) (.refl _ _)

/-- The client's method returns what the handler returned. -/
def Agrees (server : ApiServer) (c : ApiClient) (request : ApiRequest) (v : request.Handled) :
    Prop :=
  c.Returns request (server.intoResponse request v) (.ok (request.value v))

/-- **Client and server agree on every route but one.** When the handler succeeded, the client
    gets its value, except on the route that allocates a given address: its response has no
    body, and the client tries to decode one. -/
theorem agrees_iff (server : ApiServer) (c : ApiClient) (request : ApiRequest)
    (hbuild : c.request (request.path c.encodeQuery) = .ok ()) (s t : DaemonSystem)
    (tr : List (Answered ServiceOp)) (v : request.Handled)
    (_hserved : Exec (DaemonSystem.serviceSem server.text) (server.handle request).run s tr
      (.pure (.ok v)) t) :
    Agrees server c request v ↔ ∀ ip owner pool, request ≠ .allocateIp ip owner pool := by
  cases request with
  | getConfig => exact iff_of_true (apiData_returns hbuild rfl) nofun
  | getHealth => cases v <;> exact iff_of_true (noBody_returns hbuild rfl) nofun
  | getDebuginfo => exact iff_of_true (apiData_returns hbuild rfl) nofun
  | allocate family owner pool expiration =>
    exact iff_of_true (apiData_returns hbuild rfl) nofun
  | allocateIp ip owner pool =>
    refine iff_of_false (fun hagrees => ?_) fun hne => hne ip owner pool rfl
    -- The client decodes the empty body, whatever the status.
    have herror : c.Returns (.allocateIp ip owner pool) (server.intoResponse _ v)
        (.error (.json (c.jsonError ""))) := by
      cases v <;> exact apiData_returns hbuild rfl
    cases hagrees.unique herror
  | releaseIp ip pool => cases v <;> exact iff_of_true (noBody_returns hbuild rfl) nofun
  | createEndpoint attachmentId ep => exact iff_of_true (apiData_returns hbuild rfl) nofun
  | deleteEndpoint attachmentId =>
    cases v <;> exact iff_of_true (noBody_returns hbuild rfl) nofun
  | endpointHealth attachmentId => exact iff_of_true (apiData_returns hbuild rfl) nofun

open DaemonSystem in
/-- The default set-up of the server. -/
def podServer : ApiServer where
  text := podText
  gatewayIp := podAddress
  version := ⟨"0.1.0", "", "", "linux", "x86_64"⟩
  debug := String.quote
  replyJson _ _ := "{}"
  errorJson _ message := message

/-- The default set-up of the client; every request can be built. -/
def podClient : ApiClient where
  retry := default
  encodeQuery pairs := "&".intercalate (pairs.map fun p => p.1 ++ "=" ++ p.2)
  request _ := .ok ()
  jsonError _ := "EOF while parsing a value"

theorem config_agrees : Agrees podServer podClient .getConfig ⟨1500, 1500⟩ :=
  (agrees_iff podServer podClient .getConfig rfl (.start DaemonSystem.initSubnets)
    (.start DaemonSystem.initSubnets) [] ⟨1500, 1500⟩ (.refl _ _)).mpr nofun

/-- **An allocated address is reported as an error.** The handler allocates `10.0.10.1`, and the
    client fails to decode its response. -/
theorem allocateIp_disagrees : ¬ ∀ (server : ApiServer) (c : ApiClient) (request : ApiRequest)
    (s t : DaemonSystem) (tr : List (Answered ServiceOp)) (v : request.Handled),
    c.request (request.path c.encodeQuery) = .ok () →
    Exec (DaemonSystem.serviceSem server.text) (server.handle request).run s tr (.pure (.ok v)) t →
    Agrees server c request v := by
  intro hall
  let s : DaemonSystem := .start DaemonSystem.initSubnets
  let ipam := (s.ipam.allocateIp podServer.text DaemonSystem.podAddress "" POOL_DEFAULT).2
  have hok : (s.ipam.allocateIp podServer.text DaemonSystem.podAddress "" POOL_DEFAULT).1 =
      .ok ⟨DaemonSystem.podAddress, POOL_DEFAULT⟩ := by
    decide
  have hserved : ∃ tr, Exec (DaemonSystem.serviceSem podServer.text)
      (podServer.handle (.allocateIp "10.0.10.1" none none)).run s tr (.pure (.ok ApiStatus.ok))
      { s with ipam := ipam } := by
    refine ⟨_, .step _ _ _ (Except.ok ⟨DaemonSystem.podAddress, POOL_DEFAULT⟩) _ _ _ _ ?_
      (.refl _ _)⟩
    exact ⟨ipam, Prod.ext hok.symm rfl, rfl⟩
  obtain ⟨tr, hserved⟩ := hserved
  have hagrees := hall podServer podClient (.allocateIp "10.0.10.1" none none) s _ tr ApiStatus.ok
    rfl hserved
  have herror : podClient.Returns (.allocateIp "10.0.10.1" none none)
      (podServer.intoResponse _ ApiStatus.ok) (.error (.json (podClient.jsonError ""))) :=
    apiData_returns rfl rfl
  cases hagrees.unique herror

end ApiClient

end Sarena
