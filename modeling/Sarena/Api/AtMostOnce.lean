import Sarena.Api.AllocateRetry
import Sarena.Api.CreateRetry
import Sarena.Api.Wire

namespace Sarena

open Lib

/-!
# API — effects of calls that are tried again

Requests carry nothing that would let the server recognise a second attempt.  An allocation that
is tried again allocates again, and a create that is tried again finds the endpoint of its first
attempt and fails.  This file finds the calls whose effects do not give this away.

* `DaemonSystem.Regular` — what every server keeps: no address is excluded, and the manager finds
  the containers of its endpoints;
* `at_most_once_iff` — both kinds of calls, on every server that can be reached.
-/

/-! ### The index of endpoints -/

namespace EndpointManager

variable {m m' : EndpointManager}

theorem Indexed.of_eq (hpersists : m'.persists = m.persists)
    (hlookup : m'.inner.lookup = m.inner.lookup) (h : m.Indexed) : m'.Indexed := by
  intro c hc
  have hfound : m.inner.lookup (.containerId c) ≠ none := by
    refine h c ?_
    rw [hasContainer, ← hpersists]
    exact hc
  rw [← hlookup] at hfound
  exact hfound

theorem Indexed.addEndpoint (h : m.Indexed) (p : EndpointPersist) :
    (m.addEndpoint p).2.Indexed := by
  by_cases hfree : m.inner.endpoints p.id = none
  · intro c hc
    apply (lookup_addEndpoint_ne_none m p hfree (k := .containerId c) rfl).mpr
    obtain ⟨i, q, hq, hcq⟩ := hc
    rw [persists_addEndpoint m p hfree, KeyMap.insert_apply] at hq
    split at hq
    · obtain rfl := Option.some.inj hq
      exact .inl hcq
    · exact .inr (h c ⟨i, q, hq, hcq⟩)
  · rw [addEndpoint_of_some hfree]
    exact h

theorem Indexed.takeEndpoint (h : m.Indexed) (id : EndpointId) :
    (m.takeEndpoint id).2.Indexed := by
  intro c hc
  obtain ⟨i, q, hq, hcq⟩ := hc
  refine h c ⟨i, q, ?_, hcq⟩
  rw [persists, endpoints_takeEndpoint, KeyMap.remove_apply] at hq
  split at hq
  · cases hq
  · exact hq

end EndpointManager

open EndpointManager

theorem indexed_createSem {β : Type} {op : ManagerOp β} {s t : EndpointManager × Fs} {b : β}
    (h : createSem β op s b t) (hs : s.1.Indexed) : t.1.Indexed := by
  cases op with
  | regenerate ep =>
    obtain ⟨tr, q, -, ⟨-, heq⟩ | ⟨after, -, -, heq⟩ | ⟨after, e, -, -, heq⟩⟩ := h
    · rw [heq]
      exact hs
    · rw [heq]
      exact hs.of_eq (persists_publish _ _ _ _) (lookup_publish _ _ _ _)
    · rw [heq]
      exact hs
  | addEndpoint persist =>
    -- Only insertions and removals touch the index; each keeps it complete by its own lemma.
    rw [h.1.2]
    exact hs.addEndpoint persist
  | takeEndpoint id =>
    rw [h.1.2]
    exact hs.takeEndpoint id
  | allocateNewId =>
    cases b with
    | ok id =>
      obtain ⟨⟨cache, -, heq⟩, -⟩ := h
      rw [heq]
      exact hs
    | error e =>
      rw [h.1.2.1]
      exact hs
  | dropLease id =>
    rw [show t.1 = _ from h.1]
    exact hs
  | releaseId id =>
    rw [h.1.2]
    exact hs
  | lookupContainerId id =>
    rw [h.1.2]
    exact hs
  | lookupIpv4 ip =>
    rw [h.1.2]
    exact hs
  | lookupIpv6 ip =>
    rw [h.1.2]
    exact hs
  | _ =>
    rw [show t.1 = s.1 from h.1]
    exact hs

/-! ### Servers -/

/-- The operations of the handlers: none of them excludes an address. -/
def IpamOp.Serving : ∀ β : Type, IpamOp β → Prop
  | _, .excludeIp _ _ _ => False
  | _, _ => True

theorem excludedIps_serving {text : IpText} {β : Type} {op : IpamOp β} {s t : IpamState} {b : β}
    (hop : IpamOp.Serving β op) (h : IpamState.sem text β op s b t) :
    t.excludedIps = s.excludedIps := by
  cases op with
  | ipv6Configured => rw [h.2]
  | ipv4Configured => rw [h.2]
  | allocateNextFamily family owner pool =>
    obtain ⟨randoms, h⟩ := h
    exact (IpamState.frame_allocateNextFamily h).excludedIps
  | allocateIp ip owner pool =>
    rw [show t = _ from congrArg Prod.snd h]
    exact (IpamState.frame_allocateIp text s ip owner pool).excludedIps
  | releaseIp ip pool =>
    rw [show t = _ from congrArg Prod.snd h]
    exact (IpamState.frame_releaseIpLocked text s ip pool).excludedIps
  | excludeIp ip owner pool => exact hop.elim

namespace DefaultIpamService

theorem allocateNextFamily_serving (family : Family) (owner pool : String) :
    (allocateNextFamily family owner pool).run.Uses IpamOp.Serving := by
  rw [allocateNextFamily]
  split
  · trivial
  · exact ⟨trivial, fun _ => trivial⟩

theorem releaseIp_serving (text : IpText) (ip : IpAddr) (pool : String) :
    (releaseIp text ip pool).run.Uses IpamOp.Serving := by
  rw [releaseIp]
  split
  · trivial
  · exact ⟨trivial, fun _ => trivial⟩

theorem allocateIp_serving (text : IpText) (ip : IpAddr) (owner pool : String) :
    (allocateIp text ip owner pool).run.Uses IpamOp.Serving := by
  rw [allocateIp]
  split
  · trivial
  · exact ⟨trivial, fun _ => trivial⟩

theorem allocateNext_serving (text : IpText) (family : Option Family) (owner pool : String) :
    (allocateNext text family owner pool).run.Uses IpamOp.Serving := by
  unfold allocateNext
  refine Prog.uses_try ⟨trivial, fun _ => trivial⟩ fun ipv6Configured => ?_
  refine Prog.uses_try ⟨trivial, fun _ => trivial⟩ fun ipv4Configured => ?_
  refine Prog.uses_try ?_ fun ipv6Result => ?_
  · rw [allocateWanted]
    split
    · rw [map_eq_pure_bind]
      exact Prog.uses_try (allocateNextFamily_serving _ _ _) fun _ => trivial
    · trivial
  · split
    · refine Prog.uses_try (Prog.uses_bind (allocateNextFamily_serving _ _ _) fun _ => trivial)
        fun r => ?_
      cases r with
      | ok result => trivial
      | error e =>
        refine Prog.uses_try ?_ fun _ => trivial
        cases ipv6Result with
        | none => trivial
        | some result =>
          exact Prog.uses_try (Prog.uses_bind (releaseIp_serving _ _ _) fun _ => trivial)
            fun _ => trivial
    · trivial

end DefaultIpamService

/-- The operations of the handlers on the services. -/
def ServiceOp.Serving : ∀ β : Type, ServiceOp β → Prop
  | _, .inl op => IpamOp.Serving _ op
  | _, .inr _ => True

namespace ApiServer

variable {server : ApiServer}

theorem ipam_serving {α : Type} {call : IpamCall α} (h : call.run.Uses IpamOp.Serving) :
    (server.ipam call).run.Uses ServiceOp.Serving := by
  have hcall : (call.run.mapOps fun _ => Sum.inl).Uses ServiceOp.Serving :=
    Prog.uses_mapOps (f := fun _ => Sum.inl) (fun _ _ hop => hop) h
  show Prog.Uses _ (_ <$> _)
  rw [map_eq_pure_bind]
  exact Prog.uses_bind hcall fun _ => trivial

theorem endpoint_serving {α : Type} (call : Handler ManagerOp α) :
    (endpoint call).run.Uses ServiceOp.Serving := by
  show Prog.Uses _ (_ <$> _)
  rw [map_eq_pure_bind]
  exact Prog.uses_bind (Prog.uses_mapOps (fun _ _ _ => trivial) (Prog.uses_any call.run))
    fun _ => trivial

theorem handle_serving (request : ApiRequest) :
    (server.handle request).run.Uses ServiceOp.Serving := by
  have hpath : ∀ ip, (server.pathIp ip).run.Uses ServiceOp.Serving := by
    intro ip
    rw [pathIp]
    split
    · trivial
    · trivial
  cases request with
  | allocate family owner pool expiration =>
    refine ipam_serving ?_
    unfold DefaultIpamService.allocate
    exact Prog.uses_try (DefaultIpamService.allocateNext_serving _ _ _ _) fun _ => trivial
  | allocateIp ip owner pool =>
    refine Prog.uses_try (hpath ip) fun ip => Prog.uses_try (ipam_serving ?_) fun _ => trivial
    unfold DefaultIpamService.allocateIpCall
    exact Prog.uses_try (DefaultIpamService.allocateIp_serving _ _ _ _) fun _ => trivial
  | releaseIp ip pool =>
    refine Prog.uses_try (hpath ip) fun ip => Prog.uses_try (ipam_serving ?_) fun _ => trivial
    exact DefaultIpamService.releaseIp_serving _ _ _
  | createEndpoint attachmentId ep =>
    exact Prog.uses_try (endpoint_serving _) fun _ => trivial
  | _ => trivial

end ApiServer

/-- What every server keeps: no address is excluded, and containers are found. -/
structure DaemonSystem.Regular (s : DaemonSystem) : Prop where
  excludedIps : s.ipam.excludedIps = .empty
  indexed : s.manager.Indexed

namespace DaemonSystem

theorem regular_serviceSem {text : IpText} {β : Type} {op : ServiceOp β} {s t : DaemonSystem}
    {b : β} (hop : ServiceOp.Serving β op) (h : serviceSem text β op s b t) (hs : s.Regular) :
    t.Regular := by
  cases op with
  | inl op =>
    obtain ⟨ipam, h, rfl⟩ := h
    exact ⟨(excludedIps_serving hop h).trans hs.excludedIps, hs.indexed⟩
  | inr op =>
    obtain ⟨m, fs, h, rfl⟩ := h
    exact ⟨hs.excludedIps, indexed_createSem h hs.indexed⟩

theorem regular_serves {server : ApiServer} {request : ApiRequest} {s t : DaemonSystem}
    {answer : Option (Response request.Reply)} (h : server.Serves request s answer t)
    (hs : s.Regular) : t.Regular := by
  obtain ⟨tr, r, hx, -⟩ := h
  exact Prog.Uses.exec Regular (ApiServer.handle_serving request)
    (fun _ _ _ _ _ hop h => regular_serviceSem hop h) hx hs

theorem indexed_of_new {m : EndpointManager} (h : m.inner = .new) : m.Indexed := by
  rintro c ⟨i, p, hp, -⟩
  rw [persists, h] at hp
  cases hp

/-- Every server that can be reached is regular. -/
theorem regular_of_run {server : ApiServer} {subnets : IpamSubnets} {s : DaemonSystem}
    (run : Run (server.Step subnets) (start subnets) s) : s.Regular := by
  refine run.invariant (J := Regular) ⟨rfl, indexed_of_new rfl⟩ fun s event t h hs => ?_
  cases event with
  | request request =>
    obtain ⟨answer, h⟩ := h
    exact regular_serves h hs
  | restart =>
    obtain ⟨tr, restored, toClean, fs, m, hx, rfl⟩ := h
    obtain ⟨hinner, -⟩ := hx.invariant
      (fun s => s.2.inner = .new ∧ s.2.idAllocator.leased = ∅) (fun β op s b t hop hs => by
        obtain ⟨hinner, hleased⟩ := inner_restoreSem hop hs.2
        exact ⟨hinner.trans hs.1, hleased⟩) ⟨rfl, rfl⟩
    exact ⟨rfl, indexed_of_new hinner⟩

end DaemonSystem

/-! ### Both kinds of calls -/

namespace ApiClient

open Network

/-- **Effects under retries.** On every server that can be reached, whatever becomes of the
    attempts: an allocation that returns `Ok` leaves exactly one new address in every requested
    family exactly when it cannot succeed, or every named family is configured and no attempt is
    carried out and lost before the first answer, or no family serves it; and an execution of a
    create leaves no endpoint for its container if it returns `Err`, exactly when there was none
    and every attempt that took the endpoint in also regenerated it and was answered. -/
theorem at_most_once_iff (server : ApiServer) (c : ApiClient) (subnets : IpamSubnets)
    {s : DaemonSystem} (run : Run (server.Step subnets) (.start subnets) s)
    (deliveries : ApiRequest → Nat → Delivery) (family owner pool : Option String)
    (expiration : Bool) (attachmentId : String) (ep : EndpointCreateRequest) :
    (AllocatesOnce c server family owner pool expiration ⟨s, deliveries⟩ ↔
      (CanSucceed c (.allocate family owner pool expiration)
          (DefaultIpamService.parseFamily family) (pool.getD POOL_DEFAULT)
          (pattern deliveries (.allocate family owner pool expiration) c.attempts) s.ipam →
        (∀ f, DefaultIpamService.parseFamily family = some f → s.ipam.configured f = true) ∧
          (wasted (pattern deliveries (.allocate family owner pool expiration) c.attempts) = 0 ∨
            ∀ f, DefaultIpamService.serves s.ipam (DefaultIpamService.parseFamily family) f
              = false))) ∧
      (∀ tr r t, Exec (Network.sem server) (c.create attachmentId ep).run ⟨s, deliveries⟩ tr
          (.pure r) t ↔
        ∃ log, Exec (notedSem server) (c.create attachmentId ep).run (⟨s, deliveries⟩, []) tr
          (.pure r) (t, log)) ∧
      ∀ tr r t log, Exec (notedSem server) (c.create attachmentId ep).run (⟨s, deliveries⟩, []) tr
          (.pure r) (t, log) →
        (LeavesNothing ep.containerId r t ↔
          ¬ s.manager.hasContainer ep.containerId ∧ ∀ a ∈ log, a.Settled) := by
  have hregular := DaemonSystem.regular_of_run run
  refine ⟨allocatesOnce_iff (n := ⟨s, deliveries⟩) hregular.excludedIps, ?_, ?_⟩
  · exact fun tr r t => exec_noted_iff []
  · exact fun tr r t log h => create_leaves_iff (n := ⟨s, deliveries⟩) hregular.indexed h

/-- The first answer to every request is lost, after the request was carried out. -/
def firstLost (_ : ApiRequest) : Nat → Delivery
  | 0 => .lost true (.network "connection reset by peer")
  | _ + 1 => .delivered

/-- **One call takes two addresses.** The first attempt of an allocation is carried out and its
    answer is lost, and the second one is answered. -/
theorem lost_answer_allocates_twice : ¬ ∀ (server : ApiServer) (c : ApiClient)
    (subnets : IpamSubnets) (s : DaemonSystem) (_run : Run (server.Step subnets) (.start subnets) s)
    (deliveries : ApiRequest → Nat → Delivery) (family owner pool : Option String)
    (expiration : Bool) (attachmentId : String) (ep : EndpointCreateRequest),
    AllocatesOnce c server family owner pool expiration ⟨s, deliveries⟩ ∧
      ∀ tr r t, Exec (Network.sem server) (c.create attachmentId ep).run ⟨s, deliveries⟩ tr
        (.pure r) t → LeavesNothing ep.containerId r t := by
  intro hall
  let s : DaemonSystem := .start DaemonSystem.initSubnets
  have honce := (hall podServer podClient DaemonSystem.initSubnets s .nil firstLost none none none
    true "" (DaemonSystem.requestFor DaemonSystem.podAddress "10.0.10.1")).1
  have hroom : Room s.ipam none POOL_DEFAULT 1 := by
    intro f hf
    cases f with
    | ipv4 => exact ⟨POOL_DEFAULT_ne, by decide +kernel⟩
    | ipv6 => cases hf
  have hcond := (allocatesOnce_iff (n := ⟨s, firstLost⟩) rfl).mp honce ⟨rfl, rfl, hroom⟩
  obtain hzero | hnone := hcond.2
  · cases hzero
  · cases hnone .ipv4

end ApiClient

end Sarena
