import Sarena.Endpoint.IdAllocator
import Sarena.Lib.KeyMap
import Sarena.Lib.Prog

namespace Sarena

open Lib

/-!
# Endpoint — the endpoint manager

`EndpointManagerInner` is the state behind the manager's lock: the endpoints by id and
six secondary indexes.  Every function that takes the lock once is one atomic operation
of `ManagerOp`; functions that take it several times, or await in between, are programs
over these operations (`deleteEndpoint` here, the endpoint service's create elsewhere).

* `EndpointManagerInner.lookup` — the secondary indexes as one map on `IndexKey`;
* `lookup_updateReferences`, `lookup_removeReferences`, `lookup_removeAll` — what each
  index operation does to it;
* `ManagerOp`, `EndpointManager.sem` — the critical sections and their effects.
-/

/-- `Endpoint`: the handle to a worker, with the state the worker last published. -/
structure Endpoint where
  id : EndpointId
  isHost : Bool
  status : EndpointState
  deriving DecidableEq, Repr

/-- `Endpoint::new`. -/
def Endpoint.new (persist : EndpointPersist) : Endpoint :=
  { id := persist.id, isHost := false, status := { persist := persist } }

/-- `EndpointManagerInner`. -/
structure EndpointManagerInner where
  endpoints : KeyMap EndpointId Endpoint
  containerName : KeyMap String EndpointId
  containerId : KeyMap String EndpointId
  dockerEndpoint : KeyMap String EndpointId
  ipv4 : KeyMap Ipv4Addr EndpointId
  ipv6 : KeyMap Ipv6Addr EndpointId
  podName : KeyMap String EndpointId

namespace EndpointManagerInner

/-- `EndpointManagerInner::new`. -/
def new : EndpointManagerInner where
  endpoints := .empty
  containerName := .empty
  containerId := .empty
  dockerEndpoint := .empty
  ipv4 := .empty
  ipv6 := .empty
  podName := .empty

/-- `EndpointManagerInner::add_endpoint`. -/
def addEndpoint (inner : EndpointManagerInner) (ep : Endpoint) : EndpointManagerInner :=
  { inner with endpoints := inner.endpoints.insert ep.id ep }

/-- `EndpointManagerInner::remove_id`. -/
def removeId (inner : EndpointManagerInner) (id : EndpointId) :
    Option Endpoint × EndpointManagerInner :=
  (inner.endpoints id, { inner with endpoints := inner.endpoints.remove id })

/-- `EndpointManagerInner::remove_all`: of the indexes only `container_name` is cleared. -/
def removeAll (inner : EndpointManagerInner) : EndpointManagerInner :=
  { inner with endpoints := .empty, containerName := .empty }

/-- `EndpointManagerInner::update_references`: old entries of the id are dropped from
    `container_name` only, and `docker_endpoint` is keyed by the container id. -/
def updateReferences (inner : EndpointManagerInner) (id : EndpointId)
    (endpoint : EndpointPersist) : EndpointManagerInner :=
  { inner with
    containerName := (inner.containerName.retain (fun _ auxId => auxId ≠ id)).insertIfSome
      endpoint.containerName id
    containerId := inner.containerId.insertIfSome endpoint.containerId id
    dockerEndpoint := inner.dockerEndpoint.insertIfSome endpoint.containerId id
    ipv4 := inner.ipv4.insertIfSome endpoint.ipv4 id
    ipv6 := inner.ipv6.insertIfSome endpoint.ipv6 id
    podName := inner.podName.insertIfSome endpoint.k8sNsAndPodName id }

/-- `EndpointManagerInner::remove_references`: only `container_name` is cleaned. -/
def removeReferences (inner : EndpointManagerInner) (id : EndpointId) : EndpointManagerInner :=
  { inner with containerName := inner.containerName.retain (fun _ auxId => auxId ≠ id) }

end EndpointManagerInner

/-! ### The secondary indexes as one map -/

/-- A key of one of the six secondary indexes. -/
inductive IndexKey
  | containerName (name : String)
  | containerId (id : String)
  | dockerEndpoint (id : String)
  | ipv4 (ip : Ipv4Addr)
  | ipv6 (ip : Ipv6Addr)
  | podName (name : String)
  deriving DecidableEq, Repr

/-- The one index that `remove_references` and `remove_all` clean. -/
def IndexKey.isContainerName : IndexKey → Bool
  | .containerName _ => true
  | _ => false

namespace EndpointPersist

/-- The persisted data carries the key. -/
def carries (p : EndpointPersist) : IndexKey → Prop
  | .containerName name => p.containerName = some name
  | .containerId id => p.containerId = some id
  | .dockerEndpoint id => p.dockerEndpoint = some id
  | .ipv4 ip => p.ipv4 = some ip
  | .ipv6 ip => p.ipv6 = some ip
  | .podName name => p.k8sNsAndPodName = some name

/-- `update_references` inserts the key for this data.  The only index where this differs
    from carrying it is `docker_endpoint`, whose key is read from the container id. -/
def inserts (p : EndpointPersist) : IndexKey → Prop
  | .dockerEndpoint id => p.containerId = some id
  | k => p.carries k

instance (p : EndpointPersist) (k : IndexKey) : Decidable (p.carries k) := by
  cases k <;> exact inferInstanceAs (Decidable (_ = _))

instance (p : EndpointPersist) (k : IndexKey) : Decidable (p.inserts k) := by
  cases k <;> exact inferInstanceAs (Decidable (_ = _))

/-- The data carries every key inserted for it when its docker endpoint is its container
    id, or it has no container id. -/
theorem inserts_carried_iff (p : EndpointPersist) :
    (∀ k, p.inserts k → p.carries k) ↔
      ∀ c, p.containerId = some c → p.dockerEndpoint = some c := by
  constructor
  · exact fun h c hc => h (.dockerEndpoint c) hc
  · intro h k hk
    cases k with
    | dockerEndpoint id => exact h id hk
    | _ => exact hk

end EndpointPersist

namespace EndpointManagerInner

/-- The lookup functions, as one map over all indexes. -/
def lookup (inner : EndpointManagerInner) : KeyMap IndexKey EndpointId
  | .containerName name => inner.containerName name
  | .containerId id => inner.containerId id
  | .dockerEndpoint id => inner.dockerEndpoint id
  | .ipv4 ip => inner.ipv4 ip
  | .ipv6 ip => inner.ipv6 ip
  | .podName name => inner.podName name

@[simp] theorem lookup_new (k : IndexKey) : new.lookup k = none := by
  cases k <;> rfl

@[simp] theorem lookup_addEndpoint (inner : EndpointManagerInner) (ep : Endpoint) :
    (inner.addEndpoint ep).lookup = inner.lookup := by
  funext k
  cases k <;> rfl

@[simp] theorem lookup_removeId (inner : EndpointManagerInner) (id : EndpointId) :
    (inner.removeId id).2.lookup = inner.lookup := by
  funext k
  cases k <;> rfl

/-- **`update_references`.** A key yields `id` when it is inserted for the new data or was
    kept; keys of other endpoints that are not inserted are as before. -/
theorem lookup_updateReferences (inner : EndpointManagerInner) (id : EndpointId)
    (p : EndpointPersist) (k : IndexKey) (i : EndpointId) :
    (inner.updateReferences id p).lookup k = some i ↔
      (p.inserts k ∧ i = id) ∨
        (¬ p.inserts k ∧ inner.lookup k = some i ∧ (k.isContainerName = true → i ≠ id)) := by
  cases k <;>
    simp only [lookup, updateReferences, KeyMap.insertIfSome_apply, EndpointPersist.inserts,
      EndpointPersist.carries, IndexKey.isContainerName]
  case containerName name =>
    by_cases h : p.containerName = some name
    · simp [h, eq_comm]
    · simp [h, KeyMap.retain_eq_some]
  all_goals
    split
    · simp_all [eq_comm]
    · simp_all

/-- **`remove_references`.** Only container names stop yielding `id`. -/
theorem lookup_removeReferences (inner : EndpointManagerInner) (id : EndpointId) (k : IndexKey)
    (i : EndpointId) :
    (inner.removeReferences id).lookup k = some i ↔
      inner.lookup k = some i ∧ (k.isContainerName = true → i ≠ id) := by
  cases k <;> simp [lookup, removeReferences, IndexKey.isContainerName, KeyMap.retain_eq_some]

/-- **`remove_all`.** Only the container names are emptied. -/
theorem lookup_removeAll (inner : EndpointManagerInner) (k : IndexKey) (i : EndpointId) :
    inner.removeAll.lookup k = some i ↔ inner.lookup k = some i ∧ k.isContainerName = false := by
  cases k <;> simp [lookup, removeAll, IndexKey.isContainerName]

@[simp] theorem endpoints_updateReferences (inner : EndpointManagerInner) (id : EndpointId)
    (p : EndpointPersist) : (inner.updateReferences id p).endpoints = inner.endpoints := rfl

@[simp] theorem endpoints_addEndpoint (inner : EndpointManagerInner) (ep : Endpoint) :
    (inner.addEndpoint ep).endpoints = inner.endpoints.insert ep.id ep := rfl

@[simp] theorem endpoints_removeReferences (inner : EndpointManagerInner) (id : EndpointId) :
    (inner.removeReferences id).endpoints = inner.endpoints := rfl

end EndpointManagerInner

/-! ### The manager's critical sections -/

/-- `EndpointManager`: the locked state and the id allocator. -/
structure EndpointManager where
  inner : EndpointManagerInner
  idAllocator : IdCache

namespace EndpointManager

/-- `EndpointManager::new`. -/
def new : EndpointManager := ⟨.new, IdAllocator.new⟩

/-- `EndpointManager::add_endpoint`: one critical section. -/
def addEndpoint (m : EndpointManager) (persist : EndpointPersist) :
    Res Endpoint × EndpointManager :=
  if (m.inner.endpoints persist.id).isSome then
    (.error (.generalError ("endpoint " ++ persist.id.text ++ " already exists")), m)
  else
    (.ok (.new persist), { m with
      inner := (m.inner.addEndpoint (.new persist)).updateReferences persist.id persist })

/-- The critical section that `delete_endpoint` starts with: the references and the
    endpoint of the id are removed. -/
def takeEndpoint (m : EndpointManager) (id : EndpointId) : Option Endpoint × EndpointManager :=
  let (ep, inner) := (m.inner.removeReferences id).removeId id
  (ep, { m with inner := inner })

/-- `EndpointManager::remove_all`. -/
def removeAll (m : EndpointManager) : EndpointManager := { m with inner := m.inner.removeAll }

/-- `EndpointManager::release_id`. -/
def releaseId (m : EndpointManager) (id : EndpointId) : Res Unit × EndpointManager :=
  let (result, cache) := IdAllocator.release m.idAllocator id
  (result, { m with idAllocator := cache })

/-- `EndpointManager::allocate_new_id`: any free id, or an error when there is none. -/
def AllocateNewId (m : EndpointManager) : Res EndpointId → EndpointManager → Prop
  | .ok id, m' => ∃ cache, m.idAllocator.AllocateId (some id) cache ∧
      m' = { m with idAllocator := cache }
  | .error e, m' => m.idAllocator.AllocateId none m.idAllocator ∧ m' = m ∧
      e = .generalError "no more EndpointId's available"

/-- `EndpointManager::allocate_reuse_id`. -/
def allocateReuseId (m : EndpointManager) (id : EndpointId) : Res EndpointId × EndpointManager :=
  match IdAllocator.reuse m.idAllocator id with
  | (.ok _, cache) => (.ok id, { m with idAllocator := cache })
  | (.error e, cache) => (.error (.generalError ("unable to reuse EndpointId: " ++ e.text)),
      { m with idAllocator := cache })

/-- What a worker's `publish` shows of it through the handle in the map: a new phase and
    generation.  Nothing in the worker changes the persisted data. -/
def publish (m : EndpointManager) (id : EndpointId) (phase : EndpointPhase)
    (generation : UInt64) : EndpointManager :=
  match m.inner.endpoints id with
  | some ep =>
    let status := { ep.status with phase := phase, generation := generation }
    { m with inner := { m.inner with
        endpoints := m.inner.endpoints.insert id { ep with status := status } } }
  | none => m

end EndpointManager

/-! ### What the critical sections do to the endpoints and the ids -/

namespace EndpointManager

/-- The persisted data of the endpoints, without what their workers publish. -/
def persists (m : EndpointManager) : KeyMap EndpointId EndpointPersist :=
  fun i => (m.inner.endpoints i).map (·.status.persist)

theorem persists_eq_some {m : EndpointManager} {i : EndpointId} {p : EndpointPersist} :
    m.persists i = some p ↔ ∃ ep, m.inner.endpoints i = some ep ∧ ep.status.persist = p := by
  rw [persists, Option.map_eq_some_iff]

theorem persists_eq_none {m : EndpointManager} {i : EndpointId} :
    m.persists i = none ↔ m.inner.endpoints i = none := by
  rw [persists, Option.map_eq_none_iff]

@[simp] theorem persists_publish (m : EndpointManager) (id : EndpointId)
    (phase : EndpointPhase) (generation : UInt64) :
    (m.publish id phase generation).persists = m.persists := by
  funext i
  unfold publish persists
  cases h : m.inner.endpoints id with
  | none => rfl
  | some ep =>
    by_cases hi : i = id
    · subst hi
      simp [h]
    · simp [KeyMap.insert_apply, hi]

@[simp] theorem lookup_publish (m : EndpointManager) (id : EndpointId)
    (phase : EndpointPhase) (generation : UInt64) :
    (m.publish id phase generation).inner.lookup = m.inner.lookup := by
  funext k
  unfold publish
  cases m.inner.endpoints id <;> cases k <;> rfl

/-- After `add_endpoint` an id that had no endpoint has the new one. -/
theorem endpoints_addEndpoint (m : EndpointManager) (persist : EndpointPersist)
    (i : EndpointId) :
    (m.addEndpoint persist).2.inner.endpoints i =
      if i = persist.id ∧ m.inner.endpoints persist.id = none then some (.new persist)
      else m.inner.endpoints i := by
  unfold addEndpoint
  cases h : m.inner.endpoints persist.id with
  | some ep => simp
  | none =>
    rw [Option.isSome_none, if_neg Bool.false_ne_true]
    simp [KeyMap.insert_apply, Endpoint.new]

/-- `add_endpoint` on an id that has an endpoint changes nothing. -/
theorem addEndpoint_of_some {m : EndpointManager} {persist : EndpointPersist}
    (h : m.inner.endpoints persist.id ≠ none) : (m.addEndpoint persist).2 = m := by
  rw [addEndpoint, if_pos (Option.isSome_iff_ne_none.mpr h)]

theorem persists_addEndpoint (m : EndpointManager) (persist : EndpointPersist)
    (h : m.inner.endpoints persist.id = none) :
    (m.addEndpoint persist).2.persists = m.persists.insert persist.id persist := by
  funext i
  rw [persists, endpoints_addEndpoint, KeyMap.insert_apply]
  by_cases hi : i = persist.id
  · rw [if_pos ⟨hi, h⟩, if_pos hi]
    rfl
  · rw [if_neg (fun hand => hi hand.1), if_neg hi]
    rfl

/-- After `add_endpoint` the keys found are those found before and those inserted. -/
theorem lookup_addEndpoint_ne_none (m : EndpointManager) (persist : EndpointPersist)
    (h : m.inner.endpoints persist.id = none) {k : IndexKey} (hk : k.isContainerName = false) :
    (m.addEndpoint persist).2.inner.lookup k ≠ none ↔
      persist.inserts k ∨ m.inner.lookup k ≠ none := by
  rw [addEndpoint, if_neg (by simp [h])]
  simp only [Option.ne_none_iff_exists', EndpointManagerInner.lookup_updateReferences,
    EndpointManagerInner.lookup_addEndpoint, hk, Bool.false_eq_true, false_imp_iff, and_true]
  constructor
  · rintro ⟨i, ⟨hins, _⟩ | ⟨_, hi⟩⟩
    · exact .inl hins
    · exact .inr ⟨i, hi⟩
  · intro hor
    by_cases hins : persist.inserts k
    · exact ⟨_, .inl ⟨hins, rfl⟩⟩
    · obtain ⟨i, hi⟩ := hor.resolve_left hins
      exact ⟨i, .inr ⟨hins, hi⟩⟩

@[simp] theorem idAllocator_addEndpoint (m : EndpointManager) (persist : EndpointPersist) :
    (m.addEndpoint persist).2.idAllocator = m.idAllocator := by
  unfold addEndpoint
  split <;> rfl

@[simp] theorem endpoints_takeEndpoint (m : EndpointManager) (id : EndpointId) :
    (m.takeEndpoint id).2.inner.endpoints = m.inner.endpoints.remove id := rfl

@[simp] theorem idAllocator_takeEndpoint (m : EndpointManager) (id : EndpointId) :
    (m.takeEndpoint id).2.idAllocator = m.idAllocator := rfl

@[simp] theorem inner_releaseId (m : EndpointManager) (id : EndpointId) :
    (m.releaseId id).2.inner = m.inner := rfl

@[simp] theorem leased_releaseId (m : EndpointManager) (id : EndpointId) :
    (m.releaseId id).2.idAllocator.leased = m.idAllocator.leased :=
  IdAllocator.release_leased m.idAllocator id

/-- Reusing an allocatable id that is free succeeds. -/
theorem allocateReuseId_ok {m : EndpointManager} {id : EndpointId}
    (halloc : EndpointId.Allocatable id) (hfree : id ∈ m.idAllocator.ids) :
    (m.allocateReuseId id).1 = .ok id := by
  have hok : (IdAllocator.reuse m.idAllocator id).1 = .ok () := by
    rw [IdAllocator.reuse, if_neg (not_lt.mpr halloc.1), if_neg (not_lt.mpr halloc.2), if_neg]
    rw [IdCache.remove, decide_eq_true hfree]
    rintro ⟨⟩
  unfold allocateReuseId
  split
  next => rfl
  next e _ heq =>
    rw [heq] at hok
    cases hok

/-- Reusing an id leaves the other free ids free, and the endpoints as they are. -/
theorem ids_allocateReuseId (m : EndpointManager) {id i : EndpointId} (hi : i ≠ id)
    (hfree : i ∈ m.idAllocator.ids) : i ∈ (m.allocateReuseId id).2.idAllocator.ids := by
  have hids : i ∈ (IdAllocator.reuse m.idAllocator id).2.ids := by
    rw [IdAllocator.reuse_ids]
    split
    · exact Finset.mem_erase.mpr ⟨hi, hfree⟩
    · exact hfree
  unfold allocateReuseId
  split
  next _ _ heq =>
    rw [heq] at hids
    exact hids
  next _ _ heq =>
    rw [heq] at hids
    exact hids

@[simp] theorem inner_allocateReuseId (m : EndpointManager) (id : EndpointId) :
    (m.allocateReuseId id).2.inner = m.inner := by
  unfold allocateReuseId
  split <;> rfl

theorem leased_allocateReuseId {m : EndpointManager} (h : m.idAllocator.leased = ∅)
    (id : EndpointId) : (m.allocateReuseId id).2.idAllocator.leased = ∅ := by
  have hleased := IdAllocator.reuse_leased m.idAllocator id h
  unfold allocateReuseId
  split
  next _ _ heq =>
    rw [heq] at hleased
    exact hleased
  next _ _ heq =>
    rw [heq] at hleased
    exact hleased

/-- With nothing leased, releasing an id makes it free. -/
theorem ids_releaseId {m : EndpointManager} (h : m.idAllocator.leased = ∅) (id : EndpointId) :
    (m.releaseId id).2.idAllocator.ids = insert id m.idAllocator.ids :=
  IdAllocator.release_ids m.idAllocator id h

end EndpointManager

/-! ### Atomic operations -/

/-- The atomic operations on the manager, the workers and the loader that the endpoint
    service and `delete_endpoint` are made of. -/
inductive ManagerOp : Type → Type
  | lookupContainerId (id : String) : ManagerOp (Option EndpointId)
  | lookupIpv4 (ip : Ipv4Addr) : ManagerOp (Option EndpointId)
  | lookupIpv6 (ip : Ipv6Addr) : ManagerOp (Option EndpointId)
  | allocateNewId : ManagerOp (Res EndpointId)
  | commitLease (id : EndpointId) : ManagerOp Unit
  | dropLease (id : EndpointId) : ManagerOp Unit
  | addEndpoint (persist : EndpointPersist) : ManagerOp (Res Endpoint)
  | regenerate (ep : Endpoint) : ManagerOp (Res Unit)
  | takeEndpoint (id : EndpointId) : ManagerOp (Option Endpoint)
  | shutdown (ep : Endpoint) : ManagerOp Unit
  | waitForShutdown (ep : Endpoint) (timeout : Option Nat) : ManagerOp (Res Unit)
  | removeLoaderEndpoint (persist : EndpointPersist) : ManagerOp (Res Unit)
  | releaseId (id : EndpointId) : ManagerOp (Res Unit)

/-- The operations on the manager's own state.  What the workers and the loader answer is
    left open; of a regeneration the manager only sees what the worker publishes. -/
def EndpointManager.sem : Sem ManagerOp EndpointManager
  | _, .lookupContainerId id, m, b, m' => b = m.inner.containerId id ∧ m' = m
  | _, .lookupIpv4 ip, m, b, m' => b = m.inner.ipv4 ip ∧ m' = m
  | _, .lookupIpv6 ip, m, b, m' => b = m.inner.ipv6 ip ∧ m' = m
  | _, .allocateNewId, m, b, m' => m.AllocateNewId b m'
  | _, .commitLease _, m, _, m' => m' = m
  | _, .dropLease id, m, _, m' => m' = (m.releaseId id).2
  | _, .addEndpoint persist, m, b, m' =>
      b = (m.addEndpoint persist).1 ∧ m' = (m.addEndpoint persist).2
  | _, .regenerate ep, m, _, m' => ∃ phase generation, m' = m.publish ep.id phase generation
  | _, .takeEndpoint id, m, b, m' => b = (m.takeEndpoint id).1 ∧ m' = (m.takeEndpoint id).2
  | _, .shutdown _, m, _, m' => m' = m
  | _, .waitForShutdown _ _, m, _, m' => m' = m
  | _, .removeLoaderEndpoint _, m, _, m' => m' = m
  | _, .releaseId id, m, b, m' => b = (m.releaseId id).1 ∧ m' = (m.releaseId id).2

/-- The part of `delete_endpoint` that deals with the endpoint it took: stop the worker,
    wait for it, then remove the endpoint from the loader.  The host endpoint is attached
    by `setup`, not by its worker, so it is not removed. -/
def shutdownEndpoint (ep : Endpoint) (timeout : Option Nat) : Prog ManagerOp (Res Unit) := do
  perform (.shutdown ep)
  let drained ← perform (.waitForShutdown ep timeout)
  let removed ← (if ep.isHost then pure (.ok ())
    else perform (.removeLoaderEndpoint ep.status.persist) : Prog ManagerOp (Res Unit))
  return drained *> removed

/-- `EndpointManager::delete_endpoint`.  The worker is always waited for; without a timeout
    the wait is unbounded.  The id is released last, also when nothing was removed. -/
def deleteEndpoint (id : EndpointId) (timeout : Option Nat) : Prog ManagerOp (Res Unit) := do
  let ep ← perform (.takeEndpoint id)
  let shutdownResult ← ep.elim (pure (.ok ())) (shutdownEndpoint · timeout)
  let _ ← perform (.releaseId id)
  return shutdownResult

/-- The operations that only wait for a worker or the loader. -/
def ManagerOp.Awaits : ∀ β : Type, ManagerOp β → Prop
  | _, .shutdown _ => True
  | _, .waitForShutdown _ _ => True
  | _, .removeLoaderEndpoint _ => True
  | _, _ => False

namespace EndpointManager

/-- Waiting leaves the manager as it is. -/
theorem sem_awaits {β : Type} {op : ManagerOp β} {m m' : EndpointManager} {b : β}
    (hop : ManagerOp.Awaits β op) (h : sem β op m b m') : m' = m := by
  cases op <;> simp only [ManagerOp.Awaits] at hop
  all_goals exact h

end EndpointManager

/-- Between its two critical sections `delete_endpoint` only waits. -/
theorem shutdownEndpoint_awaits (ep : Option Endpoint) (timeout : Option Nat) :
    (ep.elim (pure (.ok ())) (shutdownEndpoint · timeout)).Uses ManagerOp.Awaits := by
  cases ep with
  | none => trivial
  | some ep =>
    simp only [Option.elim, shutdownEndpoint, Prog.perform_bind, Prog.Uses]
    refine ⟨trivial, fun _ => ⟨trivial, fun drained => Prog.uses_bind ?_ fun _ => trivial⟩⟩
    cases ep.isHost with
    | true => exact trivial
    | false => exact ⟨trivial, fun _ => trivial⟩

/-- **`delete_endpoint`, undisturbed.** Whatever the worker and the loader answer, the
    endpoint and its references are taken out and the id is released. -/
theorem deleteEndpoint_exec {id : EndpointId} {timeout : Option Nat} {m m' : EndpointManager}
    {tr : List (Answered ManagerOp)} {result : Res Unit}
    (h : Exec EndpointManager.sem (deleteEndpoint id timeout) m tr (.pure result) m') :
    m' = ((m.takeEndpoint id).2.releaseId id).2 := by
  unfold deleteEndpoint at h
  rw [Prog.perform_bind, Exec.op_pure_iff] at h
  obtain ⟨ep, m₁, tr', rfl, htake, rest⟩ := h
  rw [Exec.bind_pure_iff] at rest
  obtain ⟨tr₁, tr₂, r, m₂, rfl, hshutdown, hrelease⟩ := rest
  have hm₂ : m₂ = m₁ := Prog.Uses.exec (fun t => t = m₁) (shutdownEndpoint_awaits ep timeout)
    (fun β op s b t hop hsem hs => (EndpointManager.sem_awaits hop hsem).trans hs) hshutdown rfl
  rw [Prog.perform_bind, Exec.op_pure_iff] at hrelease
  obtain ⟨b, m₃, tr₃, rfl, hb, hend⟩ := hrelease
  obtain ⟨-, -, rfl⟩ := Exec.pure_iff.mp hend
  rw [hb.2, hm₂, htake.2]

end Sarena
