import Sarena.Endpoint.CrashSafety
import Sarena.Endpoint.RestoreOld
import Sarena.Ipam.Uniqueness

namespace Sarena

open Lib

/-!
# Daemon — addresses across a restart

`init_daemon` restores the endpoints of the daemon's earlier life and then sets up its
services.  Of a restored endpoint only the id is reserved: it is not added to the manager's
indexes, and the IPAM starts without any address allocated.  This file finds out exactly when
a live endpoint's address can be given away after a restart.

* `DaemonSystem`, `DaemonSystem.Call`, `DaemonSystem.Restart` — the services of one life of the
  daemon, and what the next life starts with;
* `DaemonSystem.Guarded` — whatever is called before the next restart, no call gives away the
  address of a restored endpoint;
* `guarded_always_iff` — the runs that are guarded throughout are exactly those in which no
  restart finds an endpoint with an address on the disk.
-/

/-- The disk, the endpoint manager and the IPAM service, and the endpoints that the last restart
    reported as restored and that have not been deleted since. -/
structure DaemonSystem where
  fs : Fs
  manager : EndpointManager
  ipam : IpamState
  restored : List EndpointPersist

/-- The calls of the services, with their results.  A create that is still in progress when its
    handler is dropped has no result. -/
inductive DaemonCall
  | ipam (request : IpamRequest) (result : Except IpamError (List IpAddr))
  | create (request : EndpointCreateRequest) (result : Option (Except HandlerFailure Unit))
  | delete (id : EndpointId) (timeout : Option Nat)

/-- A call, or a restart of the daemon. -/
inductive DaemonEvent
  | call (call : DaemonCall)
  | restart

/-- The manager's operations together with the disk: a regeneration is carried out by the worker
    of the endpoint, which may be gone before it answers. -/
def createSem : Sem ManagerOp (EndpointManager × Fs)
  | _, .regenerate ep, s, b, t => ∃ tr q,
      Exec diskSem (regenerate.runFrom ep.status) s.2 tr q t.2 ∧
      ((b = .error .actorGone ∧ t.1 = s.1) ∨
        (∃ after, q = .pure (b, after) ∧ b = .ok () ∧
          t.1 = s.1.publish ep.id after.phase after.generation) ∨
        (∃ after e, q = .pure (b, after) ∧ b = .error e ∧ t.1 = s.1))
  | _, op, s, b, t => EndpointManager.sem _ op s.1 b t.1 ∧ t.2 = s.2

/-- The result of a program, once it has returned. -/
def returned {E : Type → Type} {α : Type} : Prog E α → Option α
  | .pure a => some a
  | .op _ _ => none

namespace DaemonSystem

/-- The subnets of the daemon: `10.0.10.0/24` for IPv4, and nothing for IPv6. -/
def initSubnets : IpamSubnets := .ipv4Only 0x0a000a00 24

/-- The daemon after its first start, on an empty state directory. -/
def start (subnets : IpamSubnets) : DaemonSystem :=
  ⟨.empty, .new, DefaultIpamService.new subnets, []⟩

/-- One call of a service. -/
def Call (text : IpText) (s : DaemonSystem) : DaemonCall → DaemonSystem → Prop
  | .ipam request result, t => ∃ tr ipam,
      Exec (IpamState.sem text) (request.run text).run s.ipam tr (.pure result) ipam ∧
      t = { s with ipam := ipam }
  | .create request result, t => ∃ tr q m fs,
      Exec createSem (create text request).run (s.manager, s.fs) tr q (m, fs) ∧
      result = returned q ∧ t = { s with fs := fs, manager := m }
  | .delete id timeout, t => ∃ tr result m,
      Exec EndpointManager.sem (deleteEndpoint id timeout) s.manager tr (.pure result) m ∧
      t = { s with manager := m, restored := s.restored.filter (·.id ≠ id) }

/-- `init_daemon` up to `setup_services`, when it succeeds. -/
def Restart (subnets : IpamSubnets) (s t : DaemonSystem) : Prop :=
  ∃ tr restored toClean fs m,
    Exec (restoreSem diskSem) restoreOldEndpoints.run (s.fs, .new) tr
      (.pure (.ok (restored, toClean))) (fs, m) ∧
    t = ⟨fs, m, DefaultIpamService.new subnets, restored⟩

/-- The steps of the system. -/
def Step (text : IpText) (subnets : IpamSubnets) (s : DaemonSystem) :
    DaemonEvent → DaemonSystem → Prop
  | .call call, t => Call text s call t
  | .restart, t => Restart subnets s t

/-- The addresses that a request names. -/
def requested (text : IpText) (request : EndpointCreateRequest) : List IpAddr :=
  ((parseIpv4 text request.ipv4).toOption.join.map IpAddr.v4).toList ++
    ((parseIpv6 text request.ipv6).toOption.join.map IpAddr.v6).toList

/-- The addresses that a call gives away: those an allocation returns, and those an accepted
    create names. -/
def given (text : IpText) : DaemonCall → List IpAddr
  | .ipam _ (.ok ips) => ips
  | .create request (some (.ok ())) => requested text request
  | _ => []

/-- The call gives away no address of an endpoint that was restored and not deleted since. -/
def NoClash (text : IpText) (s : DaemonSystem) (call : DaemonCall) : Prop :=
  ∀ ip ∈ given text call, ∀ p ∈ s.restored, ip ∉ p.ips

/-- Whatever is called until the next restart, no call clashes. -/
def Guarded (text : IpText) (s : DaemonSystem) : Prop :=
  ∀ t, ∀ run : Run (Call text) s t, run.EachStep fun s call _ => NoClash text s call

/-- The condition on the state before a step: when it is a restart, no endpoint with an address
    would be restored. -/
def NothingToLose (s : DaemonSystem) : DaemonEvent → Prop
  | .restart => ∀ i kind p, EndpointId.Allocatable i → Chosen i (view i s.fs) kind p → p.ips = []
  | .call _ => True

/-! ### The disk -/

variable {text : IpText} {subnets : IpamSubnets} {s t : DaemonSystem}

theorem listed_createSem {β : Type} {op : ManagerOp β} {s t : EndpointManager × Fs} {b : β}
    (h : createSem β op s b t) (hs : s.2.Listed) : t.2.Listed := by
  cases op with
  | regenerate ep =>
    obtain ⟨tr, q, hx, -⟩ := h
    exact hx.invariant Fs.Listed (fun _ _ _ _ _ hop hfs => hfs.step hop) hs
  | _ => exact h.2 ▸ hs

/-- **Step lemma**: the disk stays one of finitely many directories. -/
theorem listed_step {e : DaemonEvent} (h : Step text subnets s e t) (hs : s.fs.Listed) :
    t.fs.Listed := by
  cases e with
  | call call =>
    cases call with
    | ipam request result =>
      obtain ⟨tr, ipam, -, rfl⟩ := h
      exact hs
    | create request result =>
      obtain ⟨tr, q, m, fs, hx, -, rfl⟩ := h
      exact hx.invariant (·.2.Listed) (fun _ _ _ _ _ hop => listed_createSem hop) hs
    | delete id timeout =>
      obtain ⟨tr, result, m, -, rfl⟩ := h
      exact hs
  | restart =>
    obtain ⟨tr, restored, toClean, fs, m, hx, rfl⟩ := h
    have hdisk := fun β op fs b fs' (h : diskSem β op fs b fs') (hfs : fs.Listed) => hfs.step h
    exact hx.invariant (·.1.Listed) (fun _ _ _ _ _ hop => listed_restoreSem hdisk hop) hs

/-! ### What calls give away -/

/-- Endpoints without addresses have none that could be given away. -/
theorem guarded_of_no_address (h : ∀ p ∈ s.restored, p.ips = []) : Guarded text s := by
  intro t run
  refine run.eachStep_of_invariant (J := fun s : DaemonSystem => ∀ p ∈ s.restored, p.ips = []) h
    ?_ ?_
  · intro s call t hcall hs
    cases call with
    | ipam request result =>
      obtain ⟨tr, ipam, -, rfl⟩ := hcall
      exact hs
    | create request result =>
      obtain ⟨tr, q, m, fs, -, -, rfl⟩ := hcall
      exact hs
    | delete id timeout =>
      obtain ⟨tr, result, m, -, rfl⟩ := hcall
      exact fun p hp => hs p (List.mem_of_mem_filter hp)
  · intro s call t _ hs ip _ p hp hip
    rw [hs p hp] at hip
    cases hip

/-- A create request that names one address. -/
def requestFor (ip : IpAddr) (name : String) : EndpointCreateRequest where
  containerId := "container"
  containerMac := "02:00:00:00:00:01"
  containerIfaceName := "eth0"
  hostMac := "02:00:00:00:00:02"
  hostIfaceName := "lxc0"
  hostIfaceIndex := 7
  k8sNamespace := "default"
  k8sPodName := "pod"
  k8sUid := "uid"
  ipv4 := match ip with
    | .v4 _ => some { ip := name }
    | .v6 _ => none
  ipv6 := match ip with
    | .v4 _ => none
    | .v6 _ => some { ip := name }

/-- The endpoint it is turned into. -/
def endpointFor (ip : IpAddr) (name : String) (id : EndpointId) : EndpointPersist :=
  createPersist (requestFor ip name) id (.ofBytes 2 0 0 0 0 2) (.ofBytes 2 0 0 0 0 1)
    (match ip with
      | .v4 a => some a
      | .v6 _ => none)
    (match ip with
      | .v4 _ => none
      | .v6 a => some a)

theorem requested_requestFor {ip : IpAddr} {name : String} (h : parseIp text name = .ok ip) :
    requested text (requestFor ip name) = [ip] := by
  cases ip with
  | v4 a =>
    have h4 : parseIpv4 text (requestFor (.v4 a) name).ipv4 = .ok (some a) := by
      simp [parseIpv4, requestFor, h, bind, Except.bind]
    rw [requested, h4]
    rfl
  | v6 a =>
    have h6 : parseIpv6 text (requestFor (.v6 a) name).ipv6 = .ok (some a) := by
      simp [parseIpv6, requestFor, h, bind, Except.bind]
    rw [requested, h6]
    rfl

/-- A manager that knows no container and no address accepts the request. -/
theorem acceptable_requestFor {ip : IpAddr} {name : String} (h : parseIp text name = .ok ip)
    {m : EndpointManager} (hinner : m.inner = .new) {id : EndpointId}
    (hfree : id ∈ m.idAllocator.ids) :
    Acceptable text (requestFor ip name) m (endpointFor ip name id) where
  unknown := by rw [hinner]; rfl
  ipv4 := by
    cases ip with
    | v4 a => simp [parseIpv4, requestFor, endpointFor, createPersist, h, bind, Except.bind]
    | v6 a => rfl
  ipv6 := by
    cases ip with
    | v4 a => rfl
    | v6 a => simp [parseIpv6, requestFor, endpointFor, createPersist, h, bind, Except.bind]
  unusedIpv4 _ _ := by rw [hinner]; rfl
  unusedIpv6 _ _ := by rw [hinner]; rfl
  hostMac := by
    show MacAddress.parse "02:00:00:00:00:02" = some (.ofBytes 2 0 0 0 0 2)
    decide
  containerMac := by
    show MacAddress.parse "02:00:00:00:00:01" = some (.ofBytes 2 0 0 0 0 1)
    decide
  rest := rfl
  free := hfree
  absent := by rw [hinner]; rfl

/-- Up to its insertion a create leaves the disk alone. -/
theorem createSem_inserts (fs : Fs) (β : Type) (op : ManagerOp β) (m : EndpointManager) (b : β)
    (m' : EndpointManager) (hop : ManagerOp.Inserts β op) (h : EndpointManager.sem β op m b m') :
    createSem β op (m, fs) b (m', fs) := by
  cases op with
  | regenerate ep => exact hop.elim
  | _ => exact ⟨h, rfl⟩

/-- A create of an acceptable request can answer `Ok`. -/
theorem create_exec {request : EndpointCreateRequest} {m : EndpointManager}
    {endpoint : EndpointPersist} (h : Acceptable text request m endpoint) {fs fs' : Fs}
    {tr : List (Answered WorkerOp)} {after : EndpointState}
    (hworker : Exec diskSem (regenerate.runFrom { persist := endpoint }) fs tr
      (.pure (.ok (), after)) fs') :
    ∃ tr, Exec createSem (create text request).run (m, fs) tr (.pure (.ok ()))
      ((m.accept endpoint).publish endpoint.id after.phase after.generation, fs') := by
  have hinsert : ∃ tr, Exec createSem (createEndpoint text request).run (m, fs) tr
      (.pure (.ok (.new endpoint))) (m.accept endpoint, fs) :=
    createEndpoint_exec (createSem_inserts fs) h
  obtain ⟨_, hinsert⟩ := hinsert
  refine ⟨_, Exec.bind_ok hinsert <| .step _ _ _ (Except.ok ()) _ [] _ _ ?_ (.refl _ _)⟩
  exact ⟨tr, _, hworker, .inr (.inl ⟨after, rfl, rfl, rfl⟩)⟩

/-- The manager after a restart and the deletion of an endpoint that was only restored. -/
theorem delete_restored_exec {m : EndpointManager} (hinner : m.inner = .new)
    (hleased : m.idAllocator.leased = ∅) (id : EndpointId) :
    ∃ tr result m', Exec EndpointManager.sem (deleteEndpoint id none) m tr (.pure result) m' ∧
      m'.inner = .new ∧ id ∈ m'.idAllocator.ids := by
  refine ⟨_, _, _, .step _ _ _ none (m.takeEndpoint id).2 _ _ _ ?_ <|
    .step _ _ _ ((m.takeEndpoint id).2.releaseId id).1 ((m.takeEndpoint id).2.releaseId id).2
      _ _ _ ?_ (.refl _ _), ?_, ?_⟩
  · exact ⟨by rw [EndpointManager.takeEndpoint, hinner]; rfl, rfl⟩
  · exact ⟨rfl, rfl⟩
  · rw [EndpointManager.inner_releaseId, EndpointManager.takeEndpoint, hinner]
    simp only [EndpointManagerInner.removeReferences, EndpointManagerInner.removeId,
      EndpointManagerInner.new, KeyMap.remove_eq_self (KeyMap.empty_apply id)]
    congr 1
  · rw [EndpointManager.ids_releaseId (m := (m.takeEndpoint id).2) hleased]
    exact Finset.mem_insert_self id _

/-- A restart leaves the manager without endpoints and without leases. -/
theorem restart_manager (h : Restart subnets s t) :
    t.manager.inner = .new ∧ t.manager.idAllocator.leased = ∅ := by
  obtain ⟨tr, restored, toClean, fs, m, hx, rfl⟩ := h
  exact hx.invariant (fun s => s.2.inner = .new ∧ s.2.idAllocator.leased = ∅)
    (fun β op s b t hop hs => by
      obtain ⟨hinner, hleased⟩ := inner_restoreSem hop hs.2
      exact ⟨hinner.trans hs.1, hleased⟩) ⟨rfl, rfl⟩

/-- After a restart an id can be given back, and an endpoint with any address created. -/
theorem exists_created (hlisted : s.fs.Listed) (h : Restart subnets s t) {ip : IpAddr}
    {name : String} (hname : parseIp text name = .ok ip) (id : EndpointId) :
    ∃ deleted created, Call text t (.delete id none) deleted ∧
      deleted.restored = t.restored.filter (·.id ≠ id) ∧
      Call text deleted (.create (requestFor ip name) (some (.ok ()))) created := by
  have hstep : Step text subnets s .restart t := h
  obtain ⟨hinner, hleased⟩ := restart_manager h
  obtain ⟨_, result, m', hdelete, hinner', hfree⟩ := delete_restored_exec hinner hleased id
  obtain ⟨_, after, fs', hworker⟩ :=
    regenerate_ok (listed_step hstep hlisted) { persist := endpointFor ip name id }
  obtain ⟨_, hcreate⟩ := create_exec (acceptable_requestFor hname hinner' hfree) hworker
  let deleted : DaemonSystem :=
    { t with manager := m', restored := t.restored.filter (·.id ≠ id) }
  exact ⟨deleted, _, ⟨_, _, _, hdelete, rfl⟩, rfl, _, _, _, _, hcreate, rfl, rfl⟩

/-- **A restored address is not protected.** After a restart that restores an endpoint with an
    address, another endpoint can be created with this address. -/
theorem not_guarded (htext : ∀ ip, ∃ name, parseIp text name = .ok ip) (hlisted : s.fs.Listed)
    (h : Restart subnets s t) {p : EndpointPersist} (hp : p ∈ t.restored) {ip : IpAddr}
    (hip : ip ∈ p.ips) : ¬ Guarded text t := by
  -- All ids may be taken, so another restored endpoint is deleted first.
  obtain ⟨id, hid⟩ : ∃ id : EndpointId, p.id ≠ id := by
    by_cases h1 : p.id = 1
    · exact ⟨2, by rw [h1]; decide⟩
    · exact ⟨1, h1⟩
  obtain ⟨name, hname⟩ := htext ip
  obtain ⟨deleted, created, hdeleted, hrestored, hcreated⟩ := exists_created hlisted h hname id
  intro hguarded
  have hclash := hguarded created ((Run.nil.snoc _ _ _ hdeleted).snoc _ _ _ hcreated)
  refine hclash.2 ip ?_ p (hrestored ▸ List.mem_filter.mpr ⟨hp, decide_eq_true hid⟩) hip
  rw [given, requested_requestFor hname]
  exact List.mem_singleton_self ip

/-! ### Which restarts are safe -/

/-- **Step.** A step keeps the restored addresses guarded exactly when it meets the condition. -/
theorem step_iff (htext : ∀ ip, ∃ name, parseIp text name = .ok ip) {e : DaemonEvent}
    (h : Step text subnets s e t) (hlisted : s.fs.Listed) (hs : Guarded text s) :
    Guarded text t ↔ NothingToLose s e := by
  cases e with
  | call call =>
    refine iff_of_true (fun u run => ?_) trivial
    have hrun := hs u ((Run.nil.snoc s call t h).append run)
    exact ((Run.eachStep_append _ run).mp hrun).2
  | restart =>
    have hrestored : ∀ p, p ∈ t.restored ↔
        EndpointId.Allocatable p.id ∧ ∃ kind, Chosen p.id (view p.id s.fs) kind p := by
      obtain ⟨tr, restored, toClean, fs, m, hx, rfl⟩ := h
      have hfree : ∀ i, EndpointId.Allocatable i → i ∈ EndpointManager.new.idAllocator.ids :=
        fun i hi => Finset.mem_Icc.mpr hi
      exact (restored_iff_chosen s.fs hfree).exec hx
    constructor
    · rintro hguarded i kind p halloc hchosen
      obtain rfl := readable_id hchosen.readable
      refine List.eq_nil_iff_forall_not_mem.mpr fun ip hip => ?_
      exact not_guarded htext hlisted h ((hrestored p).mpr ⟨halloc, kind, hchosen⟩) hip hguarded
    · intro hnone
      refine guarded_of_no_address fun p hp => ?_
      obtain ⟨halloc, kind, hchosen⟩ := (hrestored p).mp hp
      exact hnone p.id kind p halloc hchosen

/-- **Restarts and addresses.** Over every run of allocations, creates, deletions and restarts:
    no call after a restart can give away the address of a restored endpoint exactly when no
    restart of the run finds an endpoint with an address on the disk.  Every address has a
    text that parses to it. -/
theorem guarded_always_iff (htext : ∀ ip, ∃ name, parseIp text name = .ok ip)
    (run : Run (Step text subnets) (start subnets) s) :
    run.Always (Guarded text) ↔ run.EachStep fun s e _ => NothingToLose s e := by
  refine Run.always_iff_eachStep (J := fun s : DaemonSystem => s.fs.Listed) ?_ Fs.listed_empty
    (fun s e t h _ hs _ => listed_step h hs) (fun s e t h hg hs => step_iff htext h hs hg) run
  exact guarded_of_no_address fun p hp => nomatch hp

/-! ### A pod that takes over an address -/

/-- The address `10.0.10.1`. -/
def podAddress : IpAddr := .v4 0x0a000a01

/-- The usual text for `podAddress`, and for every address its family and its number by the
    length. -/
def podText : IpText where
  parseNet _ := none
  parseAddr name := match name.toList with
    | '4' :: digits => .ok (.v4 (BitVec.ofNat 32 digits.length))
    | '6' :: digits => .ok (.v6 (BitVec.ofNat 128 digits.length))
    | _ => if name = "10.0.10.1" then .ok podAddress else .error "invalid IP address syntax"
  showAddr ip := if ip = podAddress then "10.0.10.1" else match ip with
    | .v4 a => String.ofList ('4' :: List.replicate a.toNat 'x')
    | .v6 a => String.ofList ('6' :: List.replicate a.toNat 'x')

theorem podText_names (ip : IpAddr) : ∃ name, parseIp podText name = .ok ip := by
  cases ip with
  | v4 a =>
    refine ⟨String.ofList ('4' :: List.replicate a.toNat 'x'), ?_⟩
    simp [parseIp, podText, Except.mapError]
  | v6 a =>
    refine ⟨String.ofList ('6' :: List.replicate a.toNat 'x'), ?_⟩
    simp [parseIp, podText, Except.mapError]

/-- A pod is created, and the daemon restarts and restores its endpoint. -/
theorem exists_restarted {request : EndpointCreateRequest} {p : EndpointPersist}
    (h : Acceptable podText request .new p) (halloc : EndpointId.Allocatable p.id) :
    ∃ created restarted : DaemonSystem, created.fs = CrashSystem.oneDir p .current ∧
      Call podText (start initSubnets) (.create request (some (.ok ()))) created ∧
      Restart initSubnets created restarted ∧ p ∈ restarted.restored := by
  obtain ⟨_, after, -, hworker⟩ := CrashSystem.first_regenerate_exec { persist := p }
  obtain ⟨_, hcreate⟩ := create_exec h hworker
  obtain ⟨created, hfs, hcreated⟩ : ∃ created : DaemonSystem,
      created.fs = CrashSystem.oneDir p .current ∧
      Call podText (start initSubnets) (.create request (some (.ok ()))) created :=
    ⟨_, rfl, _, _, _, _, hcreate, rfl, rfl⟩
  have hlisted : Fs.Listed (CrashSystem.oneDir p .current) := Fs.listed_empty.insert _ _
  obtain ⟨tr, r, t, hx⟩ := restoreOldEndpoints_exec hlisted .new
  have hread : readable p.id (view p.id (CrashSystem.oneDir p .current)) .current = some p := by
    rw [readable, view, CrashSystem.oneDir, KeyMap.insert_self]
    exact CrashSystem.content_stateDir p
  have hrestored : p ∈ r.1 :=
    ((restored_iff_chosen _ fun i hi => Finset.mem_Icc.mpr hi).exec hx p).mpr
      ⟨halloc, .current, chosen_current hread⟩
  rw [← hfs] at hx
  exact ⟨created, ⟨t.1, t.2, DefaultIpamService.new initSubnets, r.1⟩, hfs, hcreated,
    ⟨tr, r.1, r.2, t.1, t.2, hx, rfl⟩, hrestored⟩

/-- Nothing else can be restored from its directory. -/
theorem eq_of_chosen_oneDir {p q : EndpointPersist} {i : EndpointId} {kind : DirKind}
    (h : Chosen i (view i (CrashSystem.oneDir p .current)) kind q) : q = p := by
  have hread := h.readable
  rw [readable, view, CrashSystem.oneDir, KeyMap.insert_apply] at hread
  split at hread
  · rw [Option.bind_some, content, CrashSystem.stateDir, KeyMap.insert_self] at hread
    change (if p.id = i then some p else none) = some q at hread
    split at hread
    · exact (Option.some.inj hread).symm
    · cases hread
  · cases hread

/-- A request that names no address. -/
def bareRequest : EndpointCreateRequest :=
  { requestFor podAddress "10.0.10.1" with ipv4 := none }

/-- The endpoint that it is turned into. -/
def bareEndpoint : EndpointPersist :=
  createPersist bareRequest 1 (.ofBytes 2 0 0 0 0 2) (.ofBytes 2 0 0 0 0 1) none none

theorem acceptable_bareRequest : Acceptable podText bareRequest .new bareEndpoint where
  unknown := rfl
  ipv4 := rfl
  ipv6 := rfl
  unusedIpv4 _ _ := rfl
  unusedIpv6 _ _ := rfl
  hostMac := by
    show MacAddress.parse "02:00:00:00:00:02" = some (.ofBytes 2 0 0 0 0 2)
    decide
  containerMac := by
    show MacAddress.parse "02:00:00:00:00:01" = some (.ofBytes 2 0 0 0 0 1)
    decide
  rest := rfl
  free := by decide
  absent := rfl

/-- A pod without addresses is restored and deleted, and then one with an address is created. -/
theorem bare_restart_guarded : ∃ s t : DaemonSystem,
    ∃ before : Run (Step podText initSubnets) (start initSubnets) s,
    ∃ after : Run (Step podText initSubnets) s t,
      bareEndpoint ∈ s.restored ∧ after.length = 2 ∧
      (before.append after).Always (Guarded podText) := by
  obtain ⟨created, restarted, hfs, hcreated, hrestart, hrestored⟩ :=
    exists_restarted acceptable_bareRequest (by decide)
  have hlisted : created.fs.Listed := hfs ▸ Fs.listed_empty.insert _ _
  have hname : parseIp podText "10.0.10.1" = .ok podAddress := by decide
  obtain ⟨deleted, t, hdeleted, -, hcall⟩ := exists_created hlisted hrestart hname 1
  let before : Run (Step podText initSubnets) (start initSubnets) restarted :=
    (Run.nil.snoc _ (.call (.create bareRequest (some (.ok ())))) created hcreated).snoc _
      .restart _ (by exact hrestart)
  let after : Run (Step podText initSubnets) restarted t :=
    (Run.nil.snoc _ (.call (.delete 1 none)) deleted hdeleted).snoc _
      (.call (.create (requestFor podAddress "10.0.10.1") (some (.ok ())))) t (by exact hcall)
  refine ⟨restarted, t, before, after, hrestored, rfl, (guarded_always_iff podText_names _).mpr ?_⟩
  refine (Run.eachStep_append before after).mpr
    ⟨⟨⟨trivial, trivial⟩, fun i kind p _ hchosen => ?_⟩, ⟨trivial, trivial⟩, trivial⟩
  rw [hfs] at hchosen
  rw [eq_of_chosen_oneDir hchosen]
  rfl

/-- **A live pod's address is given away.** A pod is created with `10.0.10.1`, the daemon
    restarts and restores it, and then a second pod can be created with this address. -/
theorem address_given_away : ¬ ∀ (s : DaemonSystem)
    (run : Run (Step podText initSubnets) (start initSubnets) s), run.Always (Guarded podText) := by
  intro hall
  let p := endpointFor podAddress "10.0.10.1" 1
  have hname : parseIp podText "10.0.10.1" = .ok podAddress := by decide
  have hacceptable : Acceptable podText (requestFor podAddress "10.0.10.1") .new p :=
    acceptable_requestFor hname rfl (by decide)
  obtain ⟨created, restarted, hfs, hcreated, hrestart, hrestored⟩ :=
    exists_restarted hacceptable (by decide)
  have hlisted : created.fs.Listed := hfs ▸ Fs.listed_empty.insert _ _
  have hmem : podAddress ∈ p.ips := by decide
  let run : Run (Step podText initSubnets) (start initSubnets) restarted :=
    (Run.nil.snoc _ (.call (.create (requestFor podAddress "10.0.10.1") (some (.ok ())))) created
      hcreated).snoc _ .restart _ (by exact hrestart)
  exact not_guarded podText_names hlisted hrestart hrestored hmem (hall _ run).last

end DaemonSystem

end Sarena
