import Sarena.Api.Client

namespace Sarena

open Lib

/-!
# API — requests that are tried again

The client repeats every request, whatever it does to the server, until an attempt is answered
or no attempt is left.

* `serves_total` — the server carries out every request, in every state;
* `ApiClient.pattern` — what becomes of the attempts of one call;
* `ApiClient.Tried` — one attempt, also when its request cannot be built;
* `ApiClient.sendLoop_rule_of` — the rule for the loop: what holds of the last attempt and is
  carried back over every attempt before it holds of the call.
-/

/-! ### Every request is carried out -/

/-- Every critical section of the IPAM service has an outcome. -/
theorem IpamState.sem_total (text : IpText) {β : Type} (op : IpamOp β) (s : IpamState) :
    ∃ b t, IpamState.sem text β op s b t := by
  cases op with
  | ipv6Configured => exact ⟨_, _, rfl, rfl⟩
  | ipv4Configured => exact ⟨_, _, rfl, rfl⟩
  | allocateNextFamily family owner pool =>
    have hdraws : s.free family < (List.replicate (s.free family + 1) 0).length := by
      rw [List.length_replicate]
      exact Nat.lt_succ_self _
    have hsome := allocateNextFamily_isSome text family owner pool _ s hdraws
    obtain ⟨⟨b, t⟩, heq⟩ := Option.isSome_iff_exists.mp hsome
    exact ⟨b, t, _, heq⟩
  | allocateIp ip owner pool => exact ⟨_, _, rfl⟩
  | releaseIp ip pool => exact ⟨_, _, rfl⟩
  | excludeIp ip owner pool => exact ⟨(), _, rfl⟩

/-- Every operation of the endpoint service has an outcome: the worker may be gone before it
    regenerates. -/
theorem createSem_total {β : Type} (op : ManagerOp β) (s : EndpointManager × Fs) :
    ∃ b t, createSem β op s b t := by
  cases op with
  | regenerate ep =>
    exact ⟨.error .actorGone, s, [], _, .refl _ _, .inl ⟨rfl, rfl⟩⟩
  | allocateNewId =>
    by_cases hids : s.1.idAllocator.ids = ∅
    · exact ⟨.error (.generalError "no more EndpointId's available"), s, ⟨⟨hids, rfl⟩, rfl, rfl⟩,
      rfl⟩
    · obtain ⟨id, hid⟩ := Finset.nonempty_iff_ne_empty.mpr hids
      exact ⟨.ok id, (_, s.2), ⟨_, ⟨hid, rfl⟩, rfl⟩, rfl⟩
  | lookupContainerId id => exact ⟨_, s, ⟨rfl, rfl⟩, rfl⟩
  | lookupIpv4 ip => exact ⟨_, s, ⟨rfl, rfl⟩, rfl⟩
  | lookupIpv6 ip => exact ⟨_, s, ⟨rfl, rfl⟩, rfl⟩
  | commitLease id => exact ⟨(), s, rfl, rfl⟩
  | dropLease id => exact ⟨(), (_, s.2), rfl, rfl⟩
  | addEndpoint persist => exact ⟨_, (_, s.2), ⟨rfl, rfl⟩, rfl⟩
  | takeEndpoint id => exact ⟨_, (_, s.2), ⟨rfl, rfl⟩, rfl⟩
  | shutdown ep => exact ⟨(), s, rfl, rfl⟩
  | waitForShutdown ep timeout => exact ⟨.ok (), s, rfl, rfl⟩
  | removeLoaderEndpoint persist => exact ⟨.ok (), s, rfl, rfl⟩
  | releaseId id => exact ⟨_, (_, s.2), ⟨rfl, rfl⟩, rfl⟩

theorem DaemonSystem.serviceSem_total (text : IpText) {β : Type} (op : ServiceOp β)
    (s : DaemonSystem) : ∃ b t, DaemonSystem.serviceSem text β op s b t := by
  cases op with
  | inl op =>
    obtain ⟨b, ipam, h⟩ := IpamState.sem_total text op s.ipam
    exact ⟨b, _, ipam, h, rfl⟩
  | inr op =>
    obtain ⟨b, ⟨m, fs⟩, h⟩ := createSem_total op (s.manager, s.fs)
    exact ⟨b, _, m, fs, h, rfl⟩

/-- A call of the IPAM service inside a handler. -/
theorem ApiServer.guards_ipam (server : ApiServer) {α : Type} {call : IpamCall α}
    {Q : Except IpamError α → IpamState → Prop} {s : DaemonSystem}
    (h : call.run.Guards (IpamState.sem server.text) (fun _ _ _ => True) Q s.ipam) :
    (server.ipam call).run.Guards (DaemonSystem.serviceSem server.text) (fun _ _ _ => True)
      (fun r t => ∃ r', r = r'.mapError (fun e => .error (.ofIpam server.debug e)) ∧ Q r' t.ipam)
      s := by
  unfold ApiServer.ipam
  refine Prog.guards_map (Prog.Guards.imp (fun r t hQ => ⟨r, rfl, hQ.1⟩)
    (Prog.guards_mapOps DaemonSystem.ipam (fun _ => True) (fun β op s b t hsem => ?_)
      (fun _ _ _ h => h) h trivial))
  obtain ⟨ipam, hsem, rfl⟩ := hsem
  exact ⟨hsem, fun _ => trivial⟩

/-- **The server is total.** -/
theorem ApiServer.serves_total (server : ApiServer) (request : ApiRequest) (s : DaemonSystem) :
    ∃ answer t, server.Serves request s answer t := by
  obtain ⟨tr, r, t, hx, -⟩ := Exec.exists_pure (fun _ => True)
    (fun β op s _ => by
      obtain ⟨b, t, h⟩ := DaemonSystem.serviceSem_total server.text op s
      exact ⟨b, t, h, trivial⟩) (server.handle request).run (s := s) trivial
  exact ⟨_, t, tr, r, hx, rfl⟩

namespace Network

/-- An attempt that the server carries out: what the client sees of its answer. -/
theorem sem_executes {server : ApiServer} {request : ApiRequest} {n : Network}
    {answer : Option (Response request.Reply)} {t : DaemonSystem}
    (hserves : server.Serves request n.server answer t)
    (hexecutes : (n.deliveries request 0).executes = true) :
    ∃ b, Network.sem server _ (.send request) n b ⟨t, shift n.deliveries request⟩ := by
  cases hdelivery : n.deliveries request 0 with
  | delivered =>
    have hanswered : ∃ b, Answered answer b := by
      cases answer with
      | none => exact ⟨_, "connection closed", rfl⟩
      | some resp => exact ⟨_, rfl⟩
    obtain ⟨b, hb⟩ := hanswered
    refine ⟨b, rfl, ?_⟩
    rw [hdelivery]
    exact ⟨answer, hserves, hb⟩
  | lost executed failure =>
    rw [hdelivery] at hexecutes
    obtain rfl : executed = true := hexecutes
    refine ⟨failed failure, rfl, ?_⟩
    rw [hdelivery]
    exact ⟨⟨answer, hserves⟩, rfl⟩

/-- An attempt that does not reach the server. -/
theorem sem_unexecuted (server : ApiServer) {request : ApiRequest} {n : Network}
    (hlost : (n.deliveries request 0).executes = false) :
    ∃ b, Network.sem server _ (.send request) n b ⟨n.server, shift n.deliveries request⟩ := by
  cases hdelivery : n.deliveries request 0 with
  | delivered =>
    rw [hdelivery] at hlost
    cases hlost
  | lost executed failure =>
    rw [hdelivery] at hlost
    obtain rfl : executed = false := hlost
    refine ⟨failed failure, rfl, ?_⟩
    rw [hdelivery]
    exact ⟨rfl, rfl⟩

theorem sem_total (server : ApiServer) {β : Type} (op : TransportOp β) (n : Network) :
    ∃ b t, Network.sem server β op n b t := by
  cases op with
  | send request =>
    cases hexecutes : (n.deliveries request 0).executes with
    | true =>
      obtain ⟨answer, t, hserves⟩ := server.serves_total request n.server
      obtain ⟨b, h⟩ := sem_executes hserves hexecutes
      exact ⟨b, _, h⟩
    | false =>
      obtain ⟨b, h⟩ := sem_unexecuted server hexecutes
      exact ⟨b, _, h⟩

end Network

namespace ApiClient

open Network

variable {c : ApiClient} {server : ApiServer} {request : ApiRequest} {n : Network}

/-- Every call of the client comes to an end. -/
theorem call_total {α : Type} (server : ApiServer) (call : ClientCall α) (n : Network) :
    ∃ tr r t, Exec (Network.sem server) call.run n tr (.pure r) t := by
  obtain ⟨tr, r, t, hx, -⟩ := Exec.exists_pure (fun _ => True)
    (fun β op n _ => by
      obtain ⟨b, t, h⟩ := Network.sem_total server op n
      exact ⟨b, t, h, trivial⟩) call.run (s := n) trivial
  exact ⟨tr, r, t, hx⟩

/-! ### The attempts of a call -/

/-- What becomes of the next attempts of a request. -/
def pattern (deliveries : ApiRequest → Nat → Delivery) (request : ApiRequest) (attempts : Nat) :
    List Delivery :=
  (List.range attempts).map (deliveries request)

/-- The pattern is that of the first attempt, followed by the pattern after it. -/
theorem pattern_succ (deliveries : ApiRequest → Nat → Delivery) (request : ApiRequest)
    (attempts : Nat) : pattern deliveries request (attempts + 1) =
      deliveries request 0 :: pattern (shift deliveries request) request attempts := by
  have hshift : shift deliveries request request = deliveries request ∘ Nat.succ := by
    funext i
    rw [shift, if_pos rfl]
    rfl
  rw [pattern, pattern, List.range_succ_eq_map, List.map_cons, List.map_map, hshift]

theorem attempts_pos : c.attempts - 1 + 1 = c.attempts :=
  Nat.sub_add_cancel (le_max_right _ _)

/-- The request can be built. -/
def Built (c : ApiClient) (request : ApiRequest) : Prop :=
  c.request (request.path c.encodeQuery) = .ok ()

/-- One attempt: the request cannot be built, or it is sent. -/
def Tried (c : ApiClient) (server : ApiServer) (request : ApiRequest) (n : Network)
    (r : Except TransportError (Response request.Reply)) (t : Network) : Prop :=
  (¬ c.Built request ∧ (∃ e, r = .error e) ∧ n = t) ∨
    (c.Built request ∧ t.deliveries = shift n.deliveries request ∧
      Attempt server request (request.path c.encodeQuery) n r t.server)

theorem trySend_tried : (c.trySend request).run.Guards (Network.sem server) anyOp
    (fun r t => Tried c server request n r t) n := by
  refine Prog.Guards.imp (fun r t h => ?_) trySend_spec
  obtain ⟨e, hbuild, rfl, rfl⟩ | ⟨hbuild, hshift, hattempt⟩ := h
  · refine .inl ⟨fun hbuilt => ?_, ⟨e, rfl⟩, rfl⟩
    rw [Built, hbuild] at hbuilt
    cases hbuilt
  · exact .inr ⟨hbuild, hshift, hattempt⟩

/-- **Loop rule**, whatever the transport does.  By induction on the number of attempts that may
    follow. -/
theorem sendLoop_rule_of {σ : Type*} {sem : Sem TransportOp σ}
    {T : σ → Except TransportError (Response request.Reply) → σ → Prop}
    {P : Nat → σ → Except TransportError (Response request.Reply) → σ → Prop}
    (htry : ∀ s, (c.trySend request).run.Guards sem (fun _ _ _ => True) (T s) s)
    (hstop : ∀ retries s r t, T s r t →
      (∀ e, r = .error e → retries = 0 ∨ e.isRetryable = false) → P retries s r t)
    (hagain : ∀ retries s e t r u, T s (.error e) t →
      e.isRetryable = true → P retries t r u → P (retries + 1) s r u) (retries : Nat) (s : σ) :
    (c.sendLoop request retries).run.Guards sem (fun _ _ _ => True) (P retries s) s := by
  induction retries generalizing s with
  | zero =>
    exact (htry s).imp fun r t h => hstop 0 s r t h fun _ _ => .inl rfl
  | succ retries ih =>
    rw [sendLoop, ExceptT.run_bind]
    -- The error of an attempt is caught, so the loop sees the result as a value.
    refine Prog.guards_bind (R := fun r t => ∃ r', r = .ok r' ∧ T s r' t) ?_ ?_
    · refine Prog.guards_map ((htry s).imp fun r t h => ⟨r, rfl, h⟩)
    · rintro _ t ⟨r, rfl, htried⟩
      cases r with
      | ok resp => exact hstop _ s _ t htried fun e he => by cases he
      | error e =>
        show Prog.Guards _ _ _ (ExceptT.run (if e.isRetryable then _ else _)) t
        cases hretry : e.isRetryable with
        | true =>
          rw [if_pos rfl]
          exact (ih t).imp fun r u h => hagain retries s e t r u htried hretry h
        | false =>
          rw [if_neg Bool.false_ne_true]
          refine hstop _ s _ t htried fun e' he => .inr ?_
          obtain rfl := Except.error.inj he
          exact hretry

/-- **Loop rule** over the network. -/
theorem sendLoop_rule
    {P : Nat → Network → Except TransportError (Response request.Reply) → Network → Prop}
    (hstop : ∀ retries n r t, Tried c server request n r t →
      (∀ e, r = .error e → retries = 0 ∨ e.isRetryable = false) → P retries n r t)
    (hagain : ∀ retries n e t r u, Tried c server request n (.error e) t →
      e.isRetryable = true → P retries t r u → P (retries + 1) n r u) (retries : Nat)
    (n : Network) :
    (c.sendLoop request retries).run.Guards (Network.sem server) anyOp (P retries n) n :=
  sendLoop_rule_of (fun _ => trySend_tried) hstop hagain retries n

/-- An attempt that is sent, and the check of its status. -/
theorem trySend_exec (hbuilt : c.Built request)
    {b : Except TransportError (Response request.Reply)} {t : Network}
    (h : Network.sem server _ (.send request) n b t) :
    ∃ tr, Exec (Network.sem server) (c.trySend request).run n tr (.pure (b.bind fun resp =>
      if resp.isSuccess then .ok resp else .error (statusError (request.path c.encodeQuery) resp)))
      t := by
  unfold trySend
  rw [show c.request (request.path c.encodeQuery) = .ok () from hbuilt]
  cases b with
  | error e => exact ⟨_, .step _ _ _ (Except.error e) t [] _ _ h (.refl _ _)⟩
  | ok resp =>
    refine ⟨_, .step _ _ _ (Except.ok resp) t [] _ _ h ?_⟩
    show Exec _ (ExceptT.run (if resp.isSuccess then _ else _)) t []
      (.pure (if resp.isSuccess then _ else _)) t
    by_cases hsuccess : resp.isSuccess = true
    · rw [if_pos hsuccess, if_pos hsuccess]
      exact .refl _ _
    · rw [if_neg hsuccess, if_neg hsuccess]
      exact .refl _ _

/-- A loop whose first attempt is answered with success. -/
theorem sendLoop_ok (hbuilt : c.Built request) {resp : Response request.Reply} {t : DaemonSystem}
    (hserves : server.Serves request n.server (some resp) t) (hsuccess : resp.isSuccess = true)
    (hdelivered : n.deliveries request 0 = .delivered) (retries : Nat) :
    ∃ tr, Exec (Network.sem server) (c.sendLoop request retries).run n tr (.pure (.ok resp))
      ⟨t, shift n.deliveries request⟩ := by
  have hsem : Network.sem server _ (.send request) n (.ok resp)
      ⟨t, shift n.deliveries request⟩ := by
    refine ⟨rfl, ?_⟩
    rw [hdelivered]
    exact ⟨some resp, hserves, rfl⟩
  obtain ⟨tr, hx⟩ := trySend_exec hbuilt hsem
  rw [Except.bind, if_pos hsuccess] at hx
  cases retries with
  | zero => exact ⟨tr, hx⟩
  | succ retries => exact ⟨_, Exec.bind_ok (Exec.lift hx) (.refl _ _)⟩

/-- A call that is answered at once with the JSON of a value returns the value. -/
theorem apiData_exec (hbuilt : c.Built request) {text : String} {v : request.Reply}
    {t : DaemonSystem} (hserves : server.Serves request n.server (some ⟨200, .json text v⟩) t)
    (hdelivered : n.deliveries request 0 = .delivered) :
    ∃ tr, Exec (Network.sem server) (c.apiData request).run n tr (.pure (.ok v))
      ⟨t, shift n.deliveries request⟩ := by
  obtain ⟨tr, hx⟩ := sendLoop_ok hbuilt hserves rfl hdelivered (c.attempts - 1)
  exact ⟨_, Exec.bind_ok hx (.refl _ _)⟩

/-- A call that does not look at the body returns when it is answered with success. -/
theorem noBody_exec (hbuilt : c.Built request) {resp : Response request.Reply} {t : DaemonSystem}
    (hserves : server.Serves request n.server (some resp) t) (hsuccess : resp.isSuccess = true)
    (hdelivered : n.deliveries request 0 = .delivered) :
    ∃ tr, Exec (Network.sem server) (c.noBody request).run n tr (.pure (.ok ()))
      ⟨t, shift n.deliveries request⟩ := by
  obtain ⟨tr, hx⟩ := sendLoop_ok hbuilt hserves hsuccess hdelivered (c.attempts - 1)
  exact ⟨_, Exec.bind_ok hx (.refl _ _)⟩

end ApiClient

end Sarena
