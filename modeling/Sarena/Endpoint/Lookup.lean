import Sarena.Endpoint.Manager

namespace Sarena

open Lib

/-!
# Endpoint — looking endpoints up

`EndpointManager::lookup` finds an endpoint by any of its identifiers, each through an index
of its own.  `add_endpoint` fills these indexes in; the key of `docker_endpoint` it reads
from the container id.

* `EndpointIdentification`, `EndpointManager.lookup` — the identifiers and their lookups;
* `lookup_addEndpoint` — what every index yields after `add_endpoint`;
* `Indexable` — the data and the state for which that is right;
* `found_by_its_keys_iff` — a new endpoint is found by exactly the identifiers it carries if
  and only if it is indexable.
-/

/-- `EndpointIdentification`. -/
inductive EndpointIdentification
  | containerId (id : String)
  | containerName (name : String)
  | dockerEndpoint (endpoint : String)
  | ipv4 (ip : Ipv4Addr)
  | ipv6 (ip : Ipv6Addr)
  | localId (id : EndpointId)
  | podName (name : String)
  deriving DecidableEq, Repr

/-- The persisted data carries the identifier. -/
def EndpointPersist.identifiedBy (p : EndpointPersist) : EndpointIdentification → Prop
  | .containerId id => p.containerId = some id
  | .containerName name => p.containerName = some name
  | .dockerEndpoint endpoint => p.dockerEndpoint = some endpoint
  | .ipv4 ip => p.ipv4 = some ip
  | .ipv6 ip => p.ipv6 = some ip
  | .localId id => p.id = id
  | .podName name => p.k8sNsAndPodName = some name

namespace EndpointManager

/-- `EndpointManager::lookup`.  A local id is taken at its word. -/
def lookup (m : EndpointManager) : EndpointIdentification → Option EndpointId
  | .containerId id => m.inner.lookup (.containerId id)
  | .containerName name => m.inner.lookup (.containerName name)
  | .dockerEndpoint endpoint => m.inner.lookup (.dockerEndpoint endpoint)
  | .ipv4 ip => m.inner.lookup (.ipv4 ip)
  | .ipv6 ip => m.inner.lookup (.ipv6 ip)
  | .localId id => some id
  | .podName name => m.inner.lookup (.podName name)

variable {m : EndpointManager} {p : EndpointPersist}

/-! ### What `add_endpoint` does to the indexes -/

/-- An identifier is a local id, or is looked up in the index it is a key of. -/
theorem lookup_cases (k : EndpointIdentification) :
    (∃ id, k = .localId id) ∨ ∃ j : IndexKey,
      (∀ m : EndpointManager, m.lookup k = m.inner.lookup j) ∧
        ∀ p : EndpointPersist, p.identifiedBy k ↔ p.carries j := by
  cases k with
  | localId id => exact .inl ⟨id, rfl⟩
  | containerId id => exact .inr ⟨.containerId id, fun _ => rfl, fun _ => Iff.rfl⟩
  | containerName name => exact .inr ⟨.containerName name, fun _ => rfl, fun _ => Iff.rfl⟩
  | dockerEndpoint id => exact .inr ⟨.dockerEndpoint id, fun _ => rfl, fun _ => Iff.rfl⟩
  | ipv4 ip => exact .inr ⟨.ipv4 ip, fun _ => rfl, fun _ => Iff.rfl⟩
  | ipv6 ip => exact .inr ⟨.ipv6 ip, fun _ => rfl, fun _ => Iff.rfl⟩
  | podName name => exact .inr ⟨.podName name, fun _ => rfl, fun _ => Iff.rfl⟩

/-- After `add_endpoint` an inserted key yields the new id; of the other keys only container
    names that yielded that id before are affected, and yield nothing. -/
theorem lookup_addEndpoint (h : m.inner.endpoints p.id = none) (k : IndexKey) :
    (m.addEndpoint p).2.inner.lookup k =
      if p.inserts k then some p.id
      else if k.isContainerName = true ∧ m.inner.lookup k = some p.id then none
      else m.inner.lookup k := by
  have hyields : ∀ i, (m.addEndpoint p).2.inner.lookup k = some i ↔
      (p.inserts k ∧ i = p.id) ∨ (¬ p.inserts k ∧ m.inner.lookup k = some i ∧
        (k.isContainerName = true → i ≠ p.id)) := by
    intro i
    rw [addEndpoint, if_neg (by simp [h])]
    exact EndpointManagerInner.lookup_updateReferences _ p.id p k i
  by_cases hins : p.inserts k
  · rw [if_pos hins]
    exact (hyields _).mpr (.inl ⟨hins, rfl⟩)
  rw [if_neg hins]
  by_cases hstale : k.isContainerName = true ∧ m.inner.lookup k = some p.id
  · rw [if_pos hstale, Option.eq_none_iff_forall_ne_some]
    intro i hi
    obtain ⟨hins', -⟩ | ⟨-, hlook, hne⟩ := (hyields i).mp hi
    · exact hins hins'
    · exact hne hstale.1 (Option.some.inj (hlook.symm.trans hstale.2))
  · rw [if_neg hstale]
    ext i
    rw [hyields]
    constructor
    · rintro (⟨hins', -⟩ | ⟨-, hlook, -⟩)
      · exact absurd hins' hins
      · exact hlook
    · intro hlook
      refine .inr ⟨hins, hlook, ?_⟩
      rintro hname rfl
      exact hstale ⟨hname, hlook⟩

/-! ### When that is right -/

/-- Between `m` and `m'` the endpoint `p` became known by each of its identifiers, and what
    any other identifier yields did not change. -/
structure FoundByItsKeys (m m' : EndpointManager) (p : EndpointPersist) : Prop where
  complete : ∀ k, p.identifiedBy k → m'.lookup k = some p.id
  frame : ∀ k, ¬ p.identifiedBy k → m'.lookup k = m.lookup k

/-- The data and the state for which `add_endpoint` fills its indexes in right. -/
structure Indexable (m : EndpointManager) (p : EndpointPersist) : Prop where
  /-- The docker endpoint is the container id, or `docker_endpoint` yields the new id for
      both of them anyway. -/
  dockerEndpoint : ∀ c, p.dockerEndpoint = some c ∨ p.containerId = some c →
    p.dockerEndpoint = p.containerId ∨ m.inner.dockerEndpoint c = some p.id
  /-- No other container name yields the new id. -/
  containerName : ∀ name, p.containerName ≠ some name → m.inner.containerName name ≠ some p.id

/-- The index of a key: what `Indexable` says about it makes it right. -/
theorem Indexable.index (h : m.inner.endpoints p.id = none) (hm : Indexable m p) (k : IndexKey) :
    (p.carries k → (m.addEndpoint p).2.inner.lookup k = some p.id) ∧
      (¬ p.carries k → (m.addEndpoint p).2.inner.lookup k = m.inner.lookup k) := by
  rw [lookup_addEndpoint h]
  cases k with
  | dockerEndpoint c =>
    have hname : ¬ (IndexKey.isContainerName (.dockerEndpoint c) = true ∧
        m.inner.lookup (.dockerEndpoint c) = some p.id) := fun hand => nomatch hand.1
    rw [if_neg hname]
    by_cases hins : p.inserts (.dockerEndpoint c)
    · rw [if_pos hins]
      refine ⟨fun _ => rfl, fun hc => ?_⟩
      have hstale := (hm.dockerEndpoint c (.inr hins)).resolve_left fun heq => hc (heq.trans hins)
      exact hstale.symm
    · rw [if_neg hins]
      refine ⟨fun hc => ?_, fun _ => rfl⟩
      exact (hm.dockerEndpoint c (.inl hc)).resolve_left fun heq => hins (heq.symm.trans hc)
  | containerName name =>
    refine ⟨fun hc => if_pos hc, fun hc => ?_⟩
    rw [if_neg (show ¬ p.inserts (.containerName name) from hc)]
    exact if_neg fun hand => hm.containerName name hc hand.2
  | _ =>
    refine ⟨fun hc => if_pos hc, fun hc => (if_neg hc).trans ?_⟩
    exact if_neg fun hand => nomatch hand.1

/-- **Index completeness and frame.** A new endpoint is found by each identifier it carries,
    and the other lookups are as before, if and only if the endpoint is indexable. -/
theorem found_by_its_keys_iff (h : m.inner.endpoints p.id = none) :
    FoundByItsKeys m (m.addEndpoint p).2 p ↔ Indexable m p := by
  constructor
  · rintro ⟨hcomplete, hframe⟩
    constructor
    · intro c hc
      by_contra hcontra
      obtain ⟨hdiff, hstale⟩ := not_or.mp hcontra
      have hlook := lookup_addEndpoint h (.dockerEndpoint c)
      by_cases hdocker : p.dockerEndpoint = some c
      · -- The docker endpoint is carried, but it is not the key that is inserted.
        have hins : ¬ p.inserts (.dockerEndpoint c) := fun hins => hdiff (hdocker.trans hins.symm)
        rw [if_neg hins, if_neg (fun hand => nomatch hand.1)] at hlook
        exact hstale (hlook.symm.trans (hcomplete (.dockerEndpoint c) hdocker))
      · -- The container id is inserted, but it is not carried as a docker endpoint.
        have hins : p.inserts (.dockerEndpoint c) := hc.resolve_left hdocker
        rw [if_pos hins] at hlook
        exact hstale ((hframe (.dockerEndpoint c) hdocker).symm.trans hlook)
    · intro name hname hstale
      have hlook := lookup_addEndpoint h (.containerName name)
      rw [if_neg (show ¬ p.inserts (.containerName name) from hname), if_pos ⟨rfl, hstale⟩] at hlook
      have hnone := (hframe (.containerName name) hname).symm.trans hlook
      cases hstale.symm.trans hnone
  · intro hm
    constructor
    · intro k hk
      obtain ⟨id, rfl⟩ | ⟨j, hlookup, hcarries⟩ := lookup_cases k
      · exact congrArg some (Eq.symm hk)
      · rw [hlookup]
        exact (hm.index h j).1 ((hcarries p).mp hk)
    · intro k hk
      obtain ⟨id, rfl⟩ | ⟨j, hlookup, hcarries⟩ := lookup_cases k
      · rfl
      · rw [hlookup, hlookup]
        exact (hm.index h j).2 fun hc => hk ((hcarries p).mpr hc)

/-- A container whose docker endpoint is its container id. -/
def webEndpoint : EndpointPersist :=
  { id := 1, containerName := some "web", containerId := some "c1", dockerEndpoint := some "c1" }

theorem found_by_its_keys_web : EndpointManager.new.inner.endpoints webEndpoint.id = none ∧
    (FoundByItsKeys .new (EndpointManager.new.addEndpoint webEndpoint).2 webEndpoint ↔
      Indexable .new webEndpoint) :=
  ⟨rfl, found_by_its_keys_iff rfl⟩

/-- A container with a docker endpoint of its own. -/
def dockerEndpoint : EndpointPersist :=
  { id := 1, containerId := some "c1", dockerEndpoint := some "ep1" }

/-- **A docker endpoint that is not found.** Nothing else uses the keys of the endpoint, and
    after `add_endpoint` it is not found by its docker endpoint. -/
theorem docker_endpoint_not_found :
    EndpointManager.new.inner.endpoints dockerEndpoint.id = none ∧
      (∀ i ep k, EndpointManager.new.inner.endpoints i = some ep →
        dockerEndpoint.identifiedBy k → ¬ ep.status.persist.identifiedBy k) ∧
      ¬ FoundByItsKeys .new (EndpointManager.new.addEndpoint dockerEndpoint).2 dockerEndpoint := by
  refine ⟨rfl, ?_, fun h => ?_⟩
  · intro i ep k hep
    cases hep
  · exact absurd (h.complete (.dockerEndpoint "ep1") rfl) (by decide)

end EndpointManager

end Sarena
