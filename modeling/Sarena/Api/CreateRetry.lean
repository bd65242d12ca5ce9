import Sarena.Api.Retry

namespace Sarena

open Lib

/-!
# API — creates that are tried again

A create that is tried again finds the endpoint of its first attempt and fails, and so does one
whose endpoint was inserted but not regenerated: nothing takes the endpoint out again.

* `EndpointManager.hasContainer`, `Indexed` — the endpoints of a container, and that the manager
  finds them;
* `CreateAttempt` — what became of an attempt that the server carried out, read off its trace;
* `Network.notedSem` — the attempts of a call, each with what became of it; `exec_noted_iff` —
  noting changes nothing;
* `create_attempt` — what one attempt does to the server;
* `create_leaves_iff` — the creates that leave no endpoint when they fail.
-/

/-! ### Endpoints and their index -/

namespace EndpointManager

/-- The manager has an endpoint for the container. -/
def hasContainer (m : EndpointManager) (containerId : String) : Prop :=
  ∃ i p, m.persists i = some p ∧ p.containerId = some containerId

/-- The manager finds the containers of its endpoints. -/
def Indexed (m : EndpointManager) : Prop :=
  ∀ c, m.hasContainer c → m.inner.containerId c ≠ none

variable {m m' : EndpointManager}

theorem hasContainer_congr (h : m'.inner = m.inner) (c : String) :
    m'.hasContainer c ↔ m.hasContainer c := by
  have hpersists : m'.persists = m.persists := by
    funext i
    rw [persists, persists, h]
  rw [hasContainer, hasContainer, hpersists]

theorem hasContainer_publish (m : EndpointManager) (id : EndpointId) (phase : EndpointPhase)
    (generation : UInt64) (c : String) :
    (m.publish id phase generation).hasContainer c ↔ m.hasContainer c := by
  rw [hasContainer, hasContainer, persists_publish]

theorem containerId_publish (m : EndpointManager) (id : EndpointId) (phase : EndpointPhase)
    (generation : UInt64) (c : String) :
    (m.publish id phase generation).inner.containerId c = m.inner.containerId c :=
  congrFun (lookup_publish m id phase generation) (.containerId c)

end EndpointManager

/-! ### What became of an attempt -/

/-- An attempt to create that the server carried out: the manager took the endpoint in, its worker
    answered that it was regenerated, and the answer to the request got through. -/
structure CreateAttempt where
  inserted : Bool := false
  regenerated : Bool := false
  delivered : Bool
  deriving DecidableEq, Repr

namespace CreateAttempt

/-- Takes one answered call of the manager into account. -/
def note (a : CreateAttempt) : Answered ManagerOp → CreateAttempt
  | ⟨.addEndpoint _, .ok _⟩ => { a with inserted := true }
  | ⟨.regenerate _, .ok _⟩ => { a with regenerated := true }
  | _ => a

/-- The same for a call of any service. -/
def noteService (a : CreateAttempt) : Answered ServiceOp → CreateAttempt
  | ⟨.inl _, _⟩ => a
  | ⟨.inr op, b⟩ => a.note ⟨op, b⟩

/-- What became of an attempt, by its trace at the server. -/
def ofTrace (delivered : Bool) (tr : List (Answered ServiceOp)) : CreateAttempt :=
  tr.foldl noteService { delivered }

theorem delivered_note (a : CreateAttempt) {β : Type} (op : ManagerOp β) (b : β) :
    (a.note ⟨op, b⟩).delivered = a.delivered := by
  cases op with
  | addEndpoint persist => cases b <;> rfl
  | regenerate ep => cases b <;> rfl
  | _ => rfl

theorem delivered_ofTrace (delivered : Bool) (tr : List (Answered ServiceOp)) :
    (ofTrace delivered tr).delivered = delivered := by
  have hnote : ∀ (a : CreateAttempt) call, (a.noteService call).delivered = a.delivered := by
    rintro a ⟨op, b⟩
    cases op with
    | inl op => rfl
    | inr op => exact a.delivered_note op b
  have hfold : ∀ a : CreateAttempt, (tr.foldl noteService a).delivered = a.delivered := by
    induction tr with
    | nil => exact fun _ => rfl
    | cons call tr ih => exact fun a => (ih _).trans (hnote a call)
  exact hfold _

/-- An endpoint that was taken in was regenerated, and the client was told so. -/
def Settled (a : CreateAttempt) : Prop :=
  a.inserted = true → a.regenerated = true ∧ a.delivered = true

end CreateAttempt

/-- The request is carried out from `s` to `t` by the calls `tr`. -/
def ApiServer.ServesBy (server : ApiServer) (request : ApiRequest) (s : DaemonSystem)
    (tr : List (Answered ServiceOp)) (answer : Option (Response request.Reply))
    (t : DaemonSystem) : Prop :=
  ∃ r, Exec (DaemonSystem.serviceSem server.text) (server.handle request).run s tr (.pure r) t ∧
    answer = server.respond request r

namespace Network

/-- The meaning of an attempt, where what becomes of those that are carried out is noted. -/
def notedSem (server : ApiServer) : Sem TransportOp (Network × List CreateAttempt)
  | _, .send request, (n, log), b, (t, log') => t.deliveries = shift n.deliveries request ∧
      match n.deliveries request 0 with
      | .delivered => ∃ tr answer, server.ServesBy request n.server tr answer t.server ∧
          Answered answer b ∧ log' = log ++ [.ofTrace true tr]
      | .lost true failure => (∃ tr answer, server.ServesBy request n.server tr answer t.server ∧
          log' = log ++ [.ofTrace false tr]) ∧ b = failed failure
      | .lost false failure => t.server = n.server ∧ b = failed failure ∧ log' = log

variable {server : ApiServer}

theorem sem_of_noted {β : Type} {op : TransportOp β} {s t : Network × List CreateAttempt} {b : β}
    (h : notedSem server β op s b t) : Network.sem server β op s.1 b t.1 := by
  obtain ⟨n, log⟩ := s
  obtain ⟨t, log'⟩ := t
  cases op with
  | send request =>
    obtain ⟨hshift, h⟩ := h
    refine ⟨hshift, ?_⟩
    cases hdelivery : n.deliveries request 0 with
    | delivered =>
      simp only [hdelivery] at h ⊢
      obtain ⟨tr, answer, hserves, hanswer, -⟩ := h
      exact ⟨answer, ⟨tr, hserves⟩, hanswer⟩
    | lost executed failure =>
      simp only [hdelivery] at h ⊢
      cases executed with
      | true =>
        obtain ⟨⟨tr, answer, hserves, -⟩, hb⟩ := h
        exact ⟨⟨answer, tr, hserves⟩, hb⟩
      | false => exact ⟨h.1, h.2.1⟩

theorem noted_of_sem {β : Type} {op : TransportOp β} {n t : Network} {b : β}
    (h : Network.sem server β op n b t) (log : List CreateAttempt) :
    ∃ log', notedSem server β op (n, log) b (t, log') := by
  cases op with
  | send request =>
    obtain ⟨hshift, h⟩ := h
    unfold notedSem
    cases hdelivery : n.deliveries request 0 with
    | delivered =>
      simp only [hdelivery] at h ⊢
      obtain ⟨answer, ⟨tr, hserves⟩, hanswer⟩ := h
      exact ⟨_, hshift, tr, answer, hserves, hanswer, rfl⟩
    | lost executed failure =>
      simp only [hdelivery] at h ⊢
      cases executed with
      | true =>
        obtain ⟨⟨answer, tr, hserves⟩, hb⟩ := h
        exact ⟨_, hshift, ⟨tr, answer, hserves, rfl⟩, hb⟩
      | false => exact ⟨log, hshift, h.1, h.2, rfl⟩

/-- **Noting changes nothing.** The executions of a call are those of which some log of attempts
    is noted. -/
theorem exec_noted_iff {α : Type} {p q : Prog TransportOp α} {n t : Network}
    {tr : List (Lib.Answered TransportOp)} (log : List CreateAttempt) :
    Exec (Network.sem server) p n tr q t ↔
      ∃ log', Exec (notedSem server) p (n, log) tr q (t, log') := by
  constructor
  · intro h
    exact h.beside (fun _ _ _ _ _ log h => noted_of_sem h log) log
  · rintro ⟨log', h⟩
    exact h.map Prod.fst fun _ _ _ _ _ h => sem_of_noted h

end Network

/-! ### One attempt at the server -/

section

open Handler EndpointManager

variable {text : IpText} {request : EndpointCreateRequest} {m : EndpointManager}
  {a : CreateAttempt}

/-- The endpoint service, with what becomes of an attempt noted beside it. -/
abbrev attemptSem : Sem ManagerOp ((EndpointManager × Fs) × CreateAttempt) :=
  observed createSem CreateAttempt.note

/-- Any operation of the service. -/
abbrev anyManagerOp :
    ∀ β : Type, ManagerOp β → (EndpointManager × Fs) × CreateAttempt → Prop := fun _ _ _ => True

/-- So far there is no endpoint more. -/
def Without (m : EndpointManager) (a : CreateAttempt)
    (t : (EndpointManager × Fs) × CreateAttempt) : Prop :=
  t.1.1.inner = m.inner ∧ t.2 = a

/-- The endpoint of the container has been taken in. -/
structure TakenIn (m : EndpointManager) (a : CreateAttempt) (containerId : String)
    (t : (EndpointManager × Fs) × CreateAttempt) : Prop where
  unknown : m.inner.containerId containerId = none
  has : t.1.1.hasContainer containerId
  found : t.1.1.inner.containerId containerId ≠ none
  noted : t.2 = { a with inserted := true }

/-- A lookup before the insertion. -/
theorem guards_lookup {op : ManagerOp (Option EndpointId)} {index : Option EndpointId}
    {t : (EndpointManager × Fs) × CreateAttempt} (ht : Without m a t)
    (h : ∀ b u, attemptSem _ op t b u → b = index ∧ u.1.1 = t.1.1 ∧ u.2 = t.2) :
    (Handler.op op).run.Guards attemptSem anyManagerOp
      (Prog.orError (fun b u => b = index ∧ Without m a u) fun _ => Without m a) t := by
  refine guards_op trivial fun b u hu => ?_
  obtain ⟨hb, hm, hnote⟩ := h b u hu
  exact ⟨hb, (congrArg EndpointManager.inner hm).trans ht.1, hnote.trans ht.2⟩

theorem checkUnused_without {α : Type} {ip : Option α} {lookup : α → ManagerOp (Option EndpointId)}
    {message : α → String} (index : EndpointManager → α → Option EndpointId)
    (h : ∀ a t b u, attemptSem _ (lookup a) t b u →
      b = index t.1.1 a ∧ u.1.1 = t.1.1 ∧ u.2 = t.2)
    {t : (EndpointManager × Fs) × CreateAttempt} (ht : Without m a t) :
    (checkUnused ip lookup message).run.Guards attemptSem anyManagerOp
      (Prog.orError (fun _ => Without m a) fun _ => Without m a) t := by
  cases ip with
  | none => exact ht
  | some ip =>
    refine Prog.guards_try _ (guards_lookup ht fun b u hu => h ip t b u hu) ?_
    rintro b u ⟨-, hu⟩
    exact guards_ensure (fun _ => hu) hu

/-- The insertion under a lease. -/
theorem addLeased_attempt {endpoint : EndpointPersist}
    (hcontainer : endpoint.containerId = some request.containerId)
    (hunknown : m.inner.containerId request.containerId = none)
    {t : (EndpointManager × Fs) × CreateAttempt} (ht : Without m a t) :
    (addLeased endpoint).run.Guards attemptSem anyManagerOp
      (Prog.orError (fun _ => TakenIn m a request.containerId) fun _ => Without m a) t := by
  obtain ⟨⟨leased, fs⟩, a'⟩ := t
  obtain ⟨hinner, rfl⟩ := ht
  replace hinner : leased.inner = m.inner := hinner
  unfold addLeased
  refine Prog.guards_try (fun b u => b = (leased.addEndpoint endpoint).1 ∧
    u.1.1 = (leased.addEndpoint endpoint).2 ∧ u.2 = a'.note ⟨.addEndpoint endpoint, b⟩)
    (guards_op trivial fun b u h => ⟨h.1.1.1, h.1.1.2, h.2⟩) ?_
  rintro _ u ⟨rfl, hm, hnote⟩
  -- Where the id is in use the insertion is refused, and the lease is given back.
  by_cases habsent : leased.inner.endpoints endpoint.id = none
  · have hok : (leased.addEndpoint endpoint).1 = .ok (.new endpoint) := by
      rw [EndpointManager.addEndpoint, if_neg (by simp [habsent])]
    rw [hok] at hnote ⊢
    refine Prog.guards_try (fun _ => TakenIn m a' request.containerId)
      (guards_op trivial fun _ v hv => ?_) fun _ _ h => h
    obtain ⟨⟨hv, -⟩, hvnote⟩ := hv
    have hvm : v.1.1 = (leased.addEndpoint endpoint).2 := (show v.1.1 = u.1.1 from hv).trans hm
    refine ⟨hunknown, ?_, ?_, hvnote.trans hnote⟩
    · rw [hvm, hasContainer, persists_addEndpoint leased endpoint habsent]
      exact ⟨endpoint.id, endpoint, KeyMap.insert_self _ _ _, hcontainer⟩
    · rw [hvm]
      exact (lookup_addEndpoint_ne_none leased endpoint habsent
        (k := .containerId request.containerId) rfl).mpr (.inl hcontainer)
  · obtain ⟨e, herror⟩ : ∃ e, (leased.addEndpoint endpoint).1 = .error e := by
      rw [EndpointManager.addEndpoint, if_pos (Option.isSome_iff_ne_none.mpr habsent)]
      exact ⟨_, rfl⟩
    rw [herror] at hnote ⊢
    rw [addEndpoint_of_some habsent] at hm
    refine Prog.guards_try (fun _ => Without m a') (guards_op trivial fun _ v hv => ?_)
      fun _ _ h => h
    obtain ⟨⟨hv, -⟩, hvnote⟩ := hv
    refine ⟨?_, hvnote.trans hnote⟩
    rw [show v.1.1 = (u.1.1.releaseId endpoint.id).2 from hv, inner_releaseId, hm]
    exact hinner

/-- **`create` up to the insertion.** It takes the endpoint in only where its container is
    unknown, and otherwise leaves the manager with the same endpoints. -/
theorem createEndpoint_attempt (fs : Fs) :
    (createEndpoint text request).run.Guards attemptSem anyManagerOp
      (Prog.orError (fun _ => TakenIn m a request.containerId) fun _ => Without m a)
      ((m, fs), a) := by
  have hstart : Without m a ((m, fs), a) := ⟨rfl, rfl⟩
  have hlookup : ∀ b u, attemptSem _ (.lookupContainerId request.containerId) ((m, fs), a) b u →
      b = m.inner.containerId request.containerId ∧ u.1.1 = m ∧ u.2 = a :=
    fun _ _ h => ⟨h.1.1.1, h.1.1.2, h.2⟩
  have hipv4 : ∀ ip t b u, attemptSem _ (.lookupIpv4 ip) t b u →
      b = t.1.1.inner.ipv4 ip ∧ u.1.1 = t.1.1 ∧ u.2 = t.2 :=
    fun _ _ _ _ h => ⟨h.1.1.1, h.1.1.2, h.2⟩
  have hipv6 : ∀ ip t b u, attemptSem _ (.lookupIpv6 ip) t b u →
      b = t.1.1.inner.ipv6 ip ∧ u.1.1 = t.1.1 ∧ u.2 = t.2 :=
    fun _ _ _ _ h => ⟨h.1.1.1, h.1.1.2, h.2⟩
  -- Each of the checks can end the call, and none changes the endpoints.
  unfold createEndpoint
  refine Prog.guards_try _ (guards_lookup hstart hlookup) ?_
  rintro _ t ⟨rfl, ht⟩
  refine Prog.guards_try (fun _ t => m.inner.containerId request.containerId = none ∧
    Without m a t) (guards_ensure (fun h => ⟨Option.isNone_iff_eq_none.mp h, ht⟩) ht) ?_
  rintro _ t ⟨hunknown, ht⟩
  refine Prog.guards_try (fun _ => Without m a) (guards_attempt (fun _ _ => ht) fun _ => ht) ?_
  rintro ipv4 t ht
  refine Prog.guards_try (fun _ => Without m a) (guards_attempt (fun _ _ => ht) fun _ => ht) ?_
  rintro ipv6 t ht
  refine Prog.guards_try _ (checkUnused_without (fun m => m.inner.ipv4) hipv4 ht) ?_
  rintro _ t ht
  refine Prog.guards_try _ (checkUnused_without (fun m => m.inner.ipv6) hipv6 ht) ?_
  rintro _ t ht
  refine Prog.guards_try (fun _ => Without m a) (guards_expect (fun _ _ => ht) ht) ?_
  rintro hostMac t ht
  refine Prog.guards_try (fun _ => Without m a) (guards_expect (fun _ _ => ht) ht) ?_
  rintro containerMac t ht
  refine Prog.guards_try (fun _ => Without m a) (guards_op trivial fun b u h => ?_) ?_
  · obtain ⟨⟨hlease, -⟩, hnote⟩ := h
    refine ⟨?_, hnote.trans ht.2⟩
    cases b with
    | ok id =>
      obtain ⟨cache, -, heq⟩ := hlease
      rw [heq]
      exact ht.1
    | error e =>
      rw [hlease.2.1]
      exact ht.1
  rintro lease t ht
  refine Prog.guards_try (fun _ => Without m a) (guards_attempt (fun _ _ => ht) fun _ => ht) ?_
  rintro id t ht
  exact addLeased_attempt rfl hunknown ht

/-- What `create` returns, and what it leaves. -/
def Created (m : EndpointManager) (a : CreateAttempt) (containerId : String)
    (r : Except HandlerFailure Unit) (t : (EndpointManager × Fs) × CreateAttempt) : Prop :=
  ((∃ f, r = .error f) ∧ Without m a t) ∨
    ∃ regenerated, m.inner.containerId containerId = none ∧ t.1.1.hasContainer containerId ∧
      t.1.1.inner.containerId containerId ≠ none ∧
      t.2 = { a with inserted := true, regenerated } ∧
      if regenerated then r = .ok () else ∃ e, r = .error (.error e)

/-- **`create`.** It returns `Ok` exactly when the endpoint is taken in and regenerated. -/
theorem create_created (hregenerated : a.regenerated = false) (fs : Fs) :
    (create text request).run.Guards attemptSem anyManagerOp (Created m a request.containerId)
      ((m, fs), a) := by
  unfold create
  rw [ExceptT.run_bind]
  refine Prog.guards_bind (createEndpoint_attempt fs) fun r t ht => ?_
  cases r with
  | error f => exact .inl ⟨⟨f, rfl⟩, ht⟩
  | ok ep =>
    -- Whatever the regeneration answers, the endpoint stays.
    refine ⟨trivial, fun b u hu => ?_⟩
    obtain ⟨⟨tr, q, -, hwork⟩, hnote⟩ := hu
    have hstays : u.1.1.hasContainer request.containerId ∧
        u.1.1.inner.containerId request.containerId ≠ none := by
      obtain ⟨-, heq⟩ | ⟨after, -, -, heq⟩ | ⟨after, e, -, -, heq⟩ := hwork
      · rw [heq]
        exact ⟨ht.has, ht.found⟩
      · rw [heq, hasContainer_publish, containerId_publish]
        exact ⟨ht.has, ht.found⟩
      · rw [heq]
        exact ⟨ht.has, ht.found⟩
    rw [ht.noted] at hnote
    cases b with
    | ok _ => exact .inr ⟨true, ht.unknown, hstays.1, hstays.2, hnote, rfl⟩
    | error e =>
      refine .inr ⟨false, ht.unknown, hstays.1, hstays.2, hnote.trans ?_, ⟨_, rfl⟩⟩
      rw [← hregenerated]
      rfl

end

namespace ApiServer

variable {server : ApiServer} {attachmentId : String} {ep : EndpointCreateRequest}
  {s t : DaemonSystem}

/-- A call of the endpoint service inside a handler. -/
theorem guards_endpoint (server : ApiServer) {α : Type} {call : Handler ManagerOp α}
    {Q : Except HandlerFailure α → (EndpointManager × Fs) × CreateAttempt → Prop}
    {s : DaemonSystem} {a : CreateAttempt}
    (h : call.run.Guards attemptSem anyManagerOp Q ((s.manager, s.fs), a)) :
    (endpoint call).run.Guards
      (observed (DaemonSystem.serviceSem server.text) CreateAttempt.noteService)
      (fun _ _ _ => True)
      (fun r t => ∃ r', r = r'.mapError (fun
        | .error e => .error (.ofEndpoint e)
        | .panicked message => .panicked message) ∧ Q r' ((t.1.manager, t.1.fs), t.2)) (s, a) := by
  unfold endpoint
  refine Prog.guards_map (Prog.Guards.imp (fun r t hQ => ⟨r, rfl, hQ.1⟩)
    (Prog.guards_mapOps (fun t : DaemonSystem × CreateAttempt => ((t.1.manager, t.1.fs), t.2))
      (fun _ => True) (fun β op s b t hsem => ?_) (fun _ _ _ h => h) h trivial))
  obtain ⟨⟨m, fs, hsem, heq⟩, hnote⟩ := hsem
  rw [heq]
  exact ⟨⟨hsem, hnote⟩, fun _ => trivial⟩

/-- What an attempt to create does to the manager, by what became of it. -/
def Attempted (m : EndpointManager) (containerId : String) (a : CreateAttempt)
    (m' : EndpointManager) : Prop :=
  if a.inserted then m.inner.containerId containerId = none ∧ m'.hasContainer containerId ∧
    m'.inner.containerId containerId ≠ none
  else m'.inner = m.inner

/-- **One attempt.** Its answer is a success exactly when the endpoint was taken in and
    regenerated. -/
theorem create_attempt {tr : List (Answered ServiceOp)} (delivered : Bool)
    {answer : Option (Response (ApiRequest.createEndpoint attachmentId ep).Reply)}
    (h : server.ServesBy (.createEndpoint attachmentId ep) s tr answer t) :
    Attempted s.manager ep.containerId (.ofTrace delivered tr) t.manager ∧
      if (CreateAttempt.ofTrace delivered tr).inserted ∧
          (CreateAttempt.ofTrace delivered tr).regenerated then
        ∃ text v, answer = some ⟨200, .json text v⟩
      else ∀ resp, answer = some resp → resp.isSuccess = false := by
  obtain ⟨r, hx, rfl⟩ := h
  have hguards : (server.handle (.createEndpoint attachmentId ep)).run.Guards
      (observed (DaemonSystem.serviceSem server.text) CreateAttempt.noteService)
      (fun _ _ _ => True) (fun r t => ∃ r', Created s.manager { delivered } ep.containerId r'
        ((t.1.manager, t.1.fs), t.2) ∧ r = (r'.mapError fun
        | .error e => .error (.ofEndpoint e)
        | .panicked message => .panicked message).map fun _ => EndpointCreateResponse.mk)
      (s, { delivered }) := by
    refine Prog.guards_bind (server.guards_endpoint (create_created rfl s.fs)) ?_
    rintro _ t ⟨r, rfl, hQ⟩
    cases r with
    | ok v => exact ⟨.ok v, hQ, rfl⟩
    | error e => exact ⟨.error e, hQ, rfl⟩
  -- The trace of the attempt is noted call by call beside the execution.
  obtain ⟨r', hcreated, rfl⟩ := hguards.exec (hx.observed ({ delivered } : CreateAttempt))
  replace hcreated : Created s.manager { delivered } ep.containerId r'
    ((t.manager, t.fs), .ofTrace delivered tr) := hcreated
  obtain ⟨⟨f, rfl⟩, hinner, hnote⟩ | ⟨regenerated, hunknown, hhas, hfound, hnote, hr⟩ := hcreated
  · rw [show CreateAttempt.ofTrace delivered tr = { delivered } from hnote]
    refine ⟨hinner, ?_⟩
    rintro resp hresp
    cases f with
    | error e =>
      obtain rfl := Option.some.inj hresp
      rfl
    | panicked message => cases hresp
  · rw [show CreateAttempt.ofTrace delivered tr = _ from hnote]
    refine ⟨⟨hunknown, hhas, hfound⟩, ?_⟩
    cases regenerated with
    | true =>
      obtain rfl : r' = .ok () := hr
      exact ⟨_, _, rfl⟩
    | false =>
      obtain ⟨e, rfl⟩ := hr
      rintro resp hresp
      obtain rfl := Option.some.inj hresp
      rfl

/-- An execution of the endpoint service's create, on its route. -/
theorem serves_create (attachmentId : String) {r : Except HandlerFailure Unit}
    {tr : List (Answered ManagerOp)} {m : EndpointManager} {fs : Fs}
    (hx : Exec createSem (create server.text ep).run (s.manager, s.fs) tr (.pure r) (m, fs)) :
    server.Serves (.createEndpoint attachmentId ep) s
      (server.respond (.createEndpoint attachmentId ep) ((r.mapError fun
        | .error e => .error (.ofEndpoint e)
        | .panicked message => .panicked message).map fun _ => EndpointCreateResponse.mk))
      { s with fs := fs, manager := m } := by
  have hservice : ∃ tr, Exec (DaemonSystem.serviceSem server.text)
      ((create server.text ep).run.mapOps fun _ => Sum.inr) s tr (.pure r)
      { s with fs := fs, manager := m } :=
    hx.mapOps (fun t : EndpointManager × Fs => { s with fs := t.2, manager := t.1 })
      fun β op u b t hsem => ⟨t.1, t.2, hsem, rfl⟩
  obtain ⟨tr, hservice⟩ := hservice
  have hcall : Exec (DaemonSystem.serviceSem server.text)
      (ApiServer.endpoint (create server.text ep)).run s tr (.pure (r.mapError fun
        | .error e => .error (.ofEndpoint e)
        | .panicked message => .panicked message)) { s with fs := fs, manager := m } := by
    show Exec _ (_ <$> _) _ _ _ _
    rw [map_eq_pure_bind, ← List.append_nil tr]
    exact Exec.bind hservice (.refl _ _)
  cases r with
  | ok _ => exact ⟨_, _, Exec.bind_ok hcall (.refl _ _), rfl⟩
  | error e => exact ⟨_, _, Exec.bind_error hcall, rfl⟩

end ApiServer

/-! ### The attempts of a call -/

namespace ApiClient

open Network ApiServer

variable {c : ApiClient} {server : ApiServer} {attachmentId : String} {ep : EndpointCreateRequest}
  {s t u : Network × List CreateAttempt}

/-- The server has an endpoint for the container, and finds it. -/
def Known (containerId : String) (n : Network) : Prop :=
  n.server.manager.hasContainer containerId ∧ n.server.manager.inner.containerId containerId ≠ none

/-- What some attempts of a create have done: none took the endpoint in and the call fails, or one
    did where the container was unknown, and then the call succeeds exactly when the attempt is
    settled. -/
inductive CreateRounds {α : Type} (containerId : String) (s : Network × List CreateAttempt) :
    Except TransportError (Response α) → Network × List CreateAttempt → Prop
  | without (e : TransportError) (t : Network × List CreateAttempt) (log : List CreateAttempt)
      (hlog : t.2 = s.2 ++ log) (hnot : ∀ a ∈ log, a.inserted = false)
      (hinner : t.1.server.manager.inner = s.1.server.manager.inner) :
      CreateRounds containerId s (.error e) t
  | settled (text : String) (v : α) (t : Network × List CreateAttempt) (log : List CreateAttempt)
      (hlog : t.2 = s.2 ++ log) (hsettled : ∀ a ∈ log, a.Settled)
      (hunknown : s.1.server.manager.inner.containerId containerId = none)
      (hknown : Known containerId t.1) :
      CreateRounds containerId s (.ok ⟨200, .json text v⟩) t
  | unsettled (e : TransportError) (t : Network × List CreateAttempt) (log : List CreateAttempt)
      (hlog : t.2 = s.2 ++ log) (hunsettled : ∃ a ∈ log, ¬ a.Settled)
      (hunknown : s.1.server.manager.inner.containerId containerId = none)
      (hknown : Known containerId t.1) :
      CreateRounds containerId s (.error e) t

theorem settled_of_not_inserted {a : CreateAttempt} (h : a.inserted = false) : a.Settled := by
  intro hinserted
  rw [h] at hinserted
  cases hinserted

/-- One attempt that fails after the server carried it out. -/
theorem createRounds_error {α : Type} {containerId : String} {e : TransportError}
    {a : CreateAttempt} (hlog : t.2 = s.2 ++ [a])
    (hattempted : Attempted s.1.server.manager containerId a t.1.server.manager)
    (hunsettled : a.inserted = true → ¬ a.Settled) :
    CreateRounds (α := α) containerId s (.error e) t := by
  cases hinserted : a.inserted with
  | false =>
    rw [Attempted, hinserted, if_neg Bool.false_ne_true] at hattempted
    exact .without e t [a] hlog (by simpa using hinserted) hattempted
  | true =>
    rw [Attempted, if_pos hinserted] at hattempted
    exact .unsettled e t [a] hlog ⟨a, List.mem_singleton_self a, hunsettled hinserted⟩
      hattempted.1 hattempted.2

/-- The check of the status fails an answer that is no success. -/
theorem check_error {α : Type} {answer : Option (Response α)}
    {b : Except TransportError (Response α)} (path : String) (hanswer : Network.Answered answer b)
    (hfails : ∀ resp, answer = some resp → resp.isSuccess = false) :
    ∃ e, (b.bind fun resp => if resp.isSuccess then .ok resp else .error (statusError path resp))
      = .error e := by
  cases answer with
  | none =>
    obtain ⟨message, rfl⟩ := hanswer
    exact ⟨_, rfl⟩
  | some resp =>
    obtain rfl : b = .ok resp := hanswer
    refine ⟨statusError path resp, ?_⟩
    show (if resp.isSuccess then _ else _) = _
    rw [hfails resp rfl]
    rfl

/-- **Step.** One attempt. -/
theorem trySend_rounds (s : Network × List CreateAttempt) :
    (c.trySend (.createEndpoint attachmentId ep)).run.Guards (notedSem server)
      (fun _ _ _ => True) (CreateRounds ep.containerId s) s := by
  refine trySend_rule (fun e _ => .without e s [] (List.append_nil _).symm
    (fun _ h => absurd h List.not_mem_nil) rfl) ?_
  obtain ⟨n, log⟩ := s
  rintro - b ⟨t, log'⟩ ⟨-, h⟩
  cases hdelivery : n.deliveries (.createEndpoint attachmentId ep) 0 with
  | delivered =>
    simp only [hdelivery] at h
    obtain ⟨tr, answer, hserves, hanswer, hlog⟩ := h
    obtain ⟨hattempted, hsuccess⟩ := create_attempt true hserves
    by_cases hok : (CreateAttempt.ofTrace true tr).inserted ∧
        (CreateAttempt.ofTrace true tr).regenerated
    · -- The endpoint is in and regenerated, and so the client sees a success.
      rw [if_pos hok] at hsuccess
      obtain ⟨text, v, rfl⟩ := hsuccess
      obtain rfl : b = .ok ⟨200, .json text v⟩ := hanswer
      rw [Attempted, if_pos hok.1] at hattempted
      refine .settled text v _ [_] hlog (fun a ha => ?_) hattempted.1 hattempted.2
      obtain rfl := List.mem_singleton.mp ha
      exact fun _ => ⟨hok.2, CreateAttempt.delivered_ofTrace true tr⟩
    · rw [if_neg hok] at hsuccess
      obtain ⟨e, he⟩ := check_error
        (ApiRequest.path c.encodeQuery (.createEndpoint attachmentId ep)) hanswer hsuccess
      rw [he]
      exact createRounds_error hlog hattempted
        fun hinserted hsettled => hok ⟨hinserted, (hsettled hinserted).1⟩
  | lost executed failure =>
    simp only [hdelivery] at h
    obtain ⟨e, he, -⟩ := check_failed
      (α := (ApiRequest.createEndpoint attachmentId ep).Reply) failure
      (ApiRequest.path c.encodeQuery (.createEndpoint attachmentId ep))
    cases executed with
    | true =>
      obtain ⟨⟨tr, answer, hserves, hlog⟩, rfl⟩ := h
      rw [he]
      refine createRounds_error hlog (create_attempt false hserves).1 fun hinserted hsettled => ?_
      have hdelivered := (hsettled hinserted).2
      rw [CreateAttempt.delivered_ofTrace] at hdelivered
      cases hdelivered
    | false =>
      obtain ⟨hsame, rfl, hlog⟩ := h
      rw [he]
      refine .without e _ [] (hlog.trans (List.append_nil _).symm)
        (fun _ h => absurd h List.not_mem_nil) ?_
      rw [show t.server = n.server from hsame]

/-- **A create that is tried again.** What a failed attempt took in is there for the attempts that
    follow: they take in nothing, and fail. -/
theorem CreateRounds.trans {α : Type} {containerId : String} {e : TransportError}
    {r : Except TransportError (Response α)}
    (hfirst : CreateRounds (α := α) containerId s (.error e) t)
    (hrest : CreateRounds containerId t r u) : CreateRounds containerId s r u := by
  have hunknown_of : t.1.server.manager.inner = s.1.server.manager.inner →
      t.1.server.manager.inner.containerId containerId = none →
      s.1.server.manager.inner.containerId containerId = none := fun heq h => heq ▸ h
  cases hfirst with
  | without _ _ log hlog hnot hinner =>
    cases hrest with
    | without e' _ log' hlog' hnot' hinner' =>
      refine .without e' u (log ++ log') (by rw [hlog', hlog, List.append_assoc]) ?_
        (hinner'.trans hinner)
      exact fun a ha => (List.mem_append.mp ha).elim (hnot a) (hnot' a)
    | settled text v _ log' hlog' hsettled hunknown hknown =>
      refine .settled text v u (log ++ log') (by rw [hlog', hlog, List.append_assoc]) ?_
        (hunknown_of hinner hunknown) hknown
      exact fun a ha => (List.mem_append.mp ha).elim
        (fun ha => settled_of_not_inserted (hnot a ha)) (hsettled a)
    | unsettled e' _ log' hlog' hunsettled hunknown hknown =>
      obtain ⟨a, ha, hunsettled⟩ := hunsettled
      exact .unsettled e' u (log ++ log') (by rw [hlog', hlog, List.append_assoc])
        ⟨a, List.mem_append_right _ ha, hunsettled⟩ (hunknown_of hinner hunknown) hknown
  | unsettled _ _ log hlog hunsettled hunknown hknown =>
    -- The container is known now, which leaves only the first kind of rounds.
    cases hrest with
    | without e' _ log' hlog' hnot' hinner' =>
      obtain ⟨a, ha, hunsettled⟩ := hunsettled
      refine .unsettled e' u (log ++ log') (by rw [hlog', hlog, List.append_assoc])
        ⟨a, List.mem_append_left _ ha, hunsettled⟩ hunknown ⟨?_, ?_⟩
      · rw [EndpointManager.hasContainer_congr hinner']
        exact hknown.1
      · rw [hinner']
        exact hknown.2
    | settled _ _ _ _ _ _ hunknown' _ => exact absurd hunknown' hknown.2
    | unsettled _ _ _ _ _ hunknown' _ => exact absurd hunknown' hknown.2

/-- **Loop.** All attempts of a call. -/
theorem sendLoop_rounds (retries : Nat) (s : Network × List CreateAttempt) :
    (c.sendLoop (.createEndpoint attachmentId ep) retries).run.Guards (notedSem server)
      (fun _ _ _ => True) (CreateRounds ep.containerId s) s := by
  refine sendLoop_rule_of (P := fun _ s r t => CreateRounds ep.containerId s r t) trySend_rounds
    ?_ ?_ retries s
  · exact fun _ _ _ _ h _ => h
  · exact fun _ _ _ _ _ _ hfirst _ hrest => hfirst.trans hrest

/-- A call that returns `Err` leaves no endpoint for the container. -/
def LeavesNothing {α : Type} (containerId : String) (r : Except TransportError α) (t : Network) :
    Prop :=
  ∀ e, r = .error e → ¬ t.server.manager.hasContainer containerId

/-- **Creates that fail.** An execution of the call leaves no endpoint for its container if it
    returns `Err`, exactly when there was none before and every attempt that took the endpoint in
    is settled. -/
theorem create_leaves_iff {n t : Network} (hindexed : n.server.manager.Indexed)
    {tr : List (Lib.Answered TransportOp)} {r : Except TransportError EndpointCreateResponse}
    {log : List CreateAttempt}
    (h : Exec (notedSem server) (c.create attachmentId ep).run (n, []) tr (.pure r) (t, log)) :
    LeavesNothing ep.containerId r t ↔
      ¬ n.server.manager.hasContainer ep.containerId ∧ ∀ a ∈ log, a.Settled := by
  have hguards : (c.create attachmentId ep).run.Guards (notedSem server) (fun _ _ _ => True)
      (fun r t => LeavesNothing ep.containerId r t.1 ↔
        ¬ n.server.manager.hasContainer ep.containerId ∧ ∀ a ∈ t.2, a.Settled) (n, []) := by
    refine Prog.guards_bind (sendLoop_rounds (c.attempts - 1) (n, [])) fun r t hrounds => ?_
    have herror : ∀ {e : TransportError}, LeavesNothing (α := EndpointCreateResponse)
        ep.containerId (.error e) t.1 ↔ ¬ t.1.server.manager.hasContainer ep.containerId :=
      ⟨fun h => h _ rfl, fun h _ _ => h⟩
    cases hrounds with
    | without e _ log hlog hnot hinner =>
      rw [List.nil_append] at hlog
      refine herror.trans ?_
      rw [EndpointManager.hasContainer_congr hinner, hlog]
      exact (and_iff_left fun a ha => settled_of_not_inserted (hnot a ha)).symm
    | settled text v _ log hlog hsettled hunknown hknown =>
      rw [List.nil_append] at hlog
      refine iff_of_true (fun _ he => nomatch he) ⟨fun hhas => hindexed _ hhas hunknown, ?_⟩
      rw [hlog]
      exact hsettled
    | unsettled e _ log hlog hunsettled hunknown hknown =>
      rw [List.nil_append] at hlog
      obtain ⟨a, ha, hunsettled⟩ := hunsettled
      refine herror.trans (iff_of_false (not_not.mpr hknown.1) fun hall => hunsettled ?_)
      rw [hlog] at hall
      exact hall.2 a ha
  exact hguards.exec h

end ApiClient

end Sarena
