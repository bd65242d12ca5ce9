import Sarena.Services.CreateUniqueness

namespace Sarena

open Lib Handler

/-!
# Services — a create that fails

`create` leases an id, inserts the endpoint, commits the lease and has the endpoint
regenerated.  A refused insertion drops the lease again; a failed regeneration undoes
nothing.

* `creating` — the manager's operations, with an insertion that may fail for any reason;
* `CreateOutcomes` — which steps of a create failed, read off its trace;
* `createEndpoint_atomic`, `create_atomic` — each part, by its outcomes;
* `unchanged_iff_undone` — a create that fails leaves the manager as it was exactly when its
  outcomes are such that there is nothing to undo but the lease.
-/

/-- The manager's operations when nobody else uses it.  An insertion may also be refused where
    the id is unknown (a poisoned lock); a refused insertion changes nothing. -/
def creating : Sem ManagerOp EndpointManager
  | _, .addEndpoint persist, m, b, m' =>
    EndpointManager.sem _ (.addEndpoint persist) m b m' ∨ ((∃ e, b = .error e) ∧ m' = m)
  | _, op, m, b, m' => EndpointManager.sem _ op m b m'

/-- What the steps of a create had for outcomes. -/
structure CreateOutcomes where
  /-- The id that was leased. -/
  leased : Option EndpointId := none
  /-- The insertion was refused. -/
  refused : Bool := false
  /-- The worker answered an error, or did not answer. -/
  regenerationFailed : Bool := false
  deriving DecidableEq, Repr

/-- Takes one answered call of a create into account. -/
def CreateOutcomes.note (o : CreateOutcomes) : Answered ManagerOp → CreateOutcomes
  | ⟨.allocateNewId, .ok id⟩ => { o with leased := some id }
  | ⟨.addEndpoint _, .error _⟩ => { o with refused := true }
  | ⟨.regenerate _, .error _⟩ => { o with regenerationFailed := true }
  | _ => o

namespace EndpointManager

/-- The endpoints, every index and the free ids are as before. -/
structure Unchanged (m m' : EndpointManager) : Prop where
  endpoints : m'.inner.endpoints = m.inner.endpoints
  lookup : m'.inner.lookup = m.inner.lookup
  ids : m'.idAllocator.ids = m.idAllocator.ids

/-- The outcomes after which there is nothing to undo but the lease, and the lease can be
    dropped: no regeneration failed, and the leased id of a refused insertion was not among
    the ids the allocator does not take back. -/
def Undone (m : EndpointManager) (o : CreateOutcomes) : Prop :=
  o.regenerationFailed = false ∧
    (o.refused = true → ∀ id, o.leased = some id → id ∉ m.idAllocator.leased)

/-- Publishing adds no endpoint and removes none. -/
theorem endpoints_publish_eq_none (m : EndpointManager) (id i : EndpointId)
    (phase : EndpointPhase) (generation : UInt64) :
    (m.publish id phase generation).inner.endpoints i = none ↔ m.inner.endpoints i = none := by
  rw [← persists_eq_none, persists_publish, persists_eq_none]

/-- The manager once the id is leased. -/
def lease (m : EndpointManager) (id : EndpointId) : EndpointManager :=
  { m with idAllocator := { m.idAllocator with ids := m.idAllocator.ids.erase id } }

/-- A dropped lease gives the id back, unless the allocator does not take it. -/
theorem unchanged_releaseId_lease {m : EndpointManager} {id : EndpointId}
    (hfree : id ∈ m.idAllocator.ids) :
    m.Unchanged ((m.lease id).releaseId id).2 ↔ id ∉ m.idAllocator.leased := by
  have hids : ((m.lease id).releaseId id).2.idAllocator.ids =
      if id ∉ m.idAllocator.leased then insert id (m.idAllocator.ids.erase id)
      else m.idAllocator.ids.erase id := by
    show (IdAllocator.release _ id).2.ids = _
    rw [IdAllocator.release_snd, IdCache.insert]
    by_cases hleased : id ∈ m.idAllocator.leased <;> simp [hleased, lease]
  by_cases hleased : id ∈ m.idAllocator.leased
  · rw [if_neg (not_not.mpr hleased)] at hids
    refine iff_of_false (fun h => ?_) (not_not.mpr hleased)
    exact Finset.erase_eq_self.mp (hids.symm.trans h.ids) hfree
  · rw [if_pos hleased, Finset.insert_erase hfree] at hids
    exact iff_of_true ⟨rfl, rfl, hids⟩ hleased

end EndpointManager

section

variable {m : EndpointManager}

/-- A create in the state `m` that fails has left `m` alone exactly when its outcomes are
    such; one that panics promises nothing. -/
def Atomic (m : EndpointManager) : HandlerFailure → EndpointManager × CreateOutcomes → Prop
  | .error _, (m', o) => m.Unchanged m' ↔ m.Undone o
  | .panicked _, _ => True

/-- A part of a create that fails before it leases an id. -/
theorem atomic_start (m : EndpointManager) (f : HandlerFailure) : Atomic m f (m, {}) := by
  cases f with
  | error e => exact iff_of_true ⟨rfl, rfl, rfl⟩ ⟨rfl, fun h => nomatch h⟩
  | panicked message => trivial

/-- A lookup leaves everything as it is. -/
theorem checkUnused_atomic {α : Type} {ip : Option α} {lookup : α → ManagerOp (Option EndpointId)}
    {message : α → String}
    (h : ∀ a b t, observed creating CreateOutcomes.note _ (lookup a) (m, {}) b t → t = (m, {})) :
    (checkUnused ip lookup message).run.Guards (observed creating CreateOutcomes.note)
      (fun _ _ _ => True) (Prog.orError (fun _ t => t = (m, {})) (Atomic m)) (m, {}) := by
  cases ip with
  | none => exact rfl
  | some a =>
    refine Prog.guards_try (fun _ t => t = (m, {})) (guards_op trivial fun b t ht => h a b t ht) ?_
    rintro b _ rfl
    exact guards_ensure (fun _ => rfl) (atomic_start m _)

/-- What the insertion of an endpoint with a leased id leaves. -/
def Inserted (m : EndpointManager) (ep : Endpoint) (t : EndpointManager × CreateOutcomes) : Prop :=
  m.inner.endpoints ep.id = none ∧ t.1.inner.endpoints ep.id ≠ none

theorem addLeased_atomic {endpoint : EndpointPersist}
    (hfree : endpoint.id ∈ m.idAllocator.ids) :
    (addLeased endpoint).run.Guards (observed creating CreateOutcomes.note) (fun _ _ _ => True)
      (Prog.orError (Inserted m) (Atomic m))
      (m.lease endpoint.id, { leased := some endpoint.id }) := by
  refine Prog.guards_try (Prog.orError (Inserted m) fun _ t =>
    t = (m.lease endpoint.id, { leased := some endpoint.id, refused := true })) ?_ ?_
  · refine guards_op trivial fun r t ht => ?_
    obtain ⟨t, o⟩ := t
    obtain ⟨hadd | ⟨⟨e, rfl⟩, hsame⟩, hnote⟩ := ht
    · by_cases hknown : m.inner.endpoints endpoint.id = none
      · have hok : ((m.lease endpoint.id).addEndpoint endpoint).1 = .ok (.new endpoint) := by
          rw [EndpointManager.addEndpoint, if_neg (by simp [EndpointManager.lease, hknown])]
        obtain rfl : r = .ok (.new endpoint) := hadd.1.trans hok
        refine ⟨hknown, ?_⟩
        rw [show t = _ from hadd.2, EndpointManager.endpoints_addEndpoint,
          if_pos ⟨rfl, hknown⟩]
        exact Option.some_ne_none _
      · -- The id was free and has an endpoint all the same: the insertion is refused.
        have hadded : (m.lease endpoint.id).addEndpoint endpoint = (.error (.generalError
            ("endpoint " ++ endpoint.id.text ++ " already exists")), m.lease endpoint.id) := by
          have hsome : ((m.lease endpoint.id).inner.endpoints endpoint.id).isSome = true :=
            Option.isSome_iff_ne_none.mpr hknown
          rw [EndpointManager.addEndpoint, if_pos hsome]
        rw [EndpointManager.sem, hadded] at hadd
        obtain ⟨rfl, ht⟩ := hadd
        exact Prod.ext ht hnote
    · exact Prod.ext hsame hnote
  · intro r t ht
    cases r with
    | ok ep =>
      refine Prog.guards_try (fun _ => Inserted m ep) (guards_op trivial fun _ u hu => ?_)
        fun _ _ h => h
      rw [Inserted, show u.1 = t.1 from hu.1]
      exact ht
    | error e =>
      obtain rfl : t = _ := ht
      refine Prog.guards_try (fun _ u => u = (((m.lease endpoint.id).releaseId endpoint.id).2,
        { leased := some endpoint.id, refused := true }))
        (guards_op trivial fun _ u hu => Prod.ext hu.1 hu.2) ?_
      rintro _ _ rfl
      refine (EndpointManager.unchanged_releaseId_lease hfree).trans ?_
      simp [EndpointManager.Undone]

/-- The handler up to the insertion. -/
theorem createEndpoint_atomic (text : IpText) (request : EndpointCreateRequest)
    (m : EndpointManager) :
    (createEndpoint text request).run.Guards (observed creating CreateOutcomes.note)
      (fun _ _ _ => True) (Prog.orError (Inserted m) (Atomic m)) (m, {}) := by
  unfold createEndpoint
  refine Prog.guards_try (fun _ t => t = (m, {}))
    (guards_op trivial fun _ _ h => Prod.ext h.1.2 h.2) ?_
  rintro known _ rfl
  refine Prog.guards_try (fun _ t => t = (m, {}))
    (guards_ensure (fun _ => rfl) (atomic_start m _)) ?_
  rintro _ _ rfl
  refine Prog.guards_try (fun _ t => t = (m, {}))
    (guards_attempt (fun _ _ => rfl) fun _ => atomic_start m _) ?_
  rintro ipv4 _ rfl
  refine Prog.guards_try (fun _ t => t = (m, {}))
    (guards_attempt (fun _ _ => rfl) fun _ => atomic_start m _) ?_
  rintro ipv6 _ rfl
  refine Prog.guards_try _ (checkUnused_atomic fun _ _ _ h => Prod.ext h.1.2 h.2) ?_
  rintro _ _ rfl
  refine Prog.guards_try _ (checkUnused_atomic fun _ _ _ h => Prod.ext h.1.2 h.2) ?_
  rintro _ _ rfl
  refine Prog.guards_try (fun _ t => t = (m, {}))
    (guards_expect (fun _ _ => rfl) (atomic_start m _)) ?_
  rintro hostMac _ rfl
  refine Prog.guards_try (fun _ t => t = (m, {}))
    (guards_expect (fun _ _ => rfl) (atomic_start m _)) ?_
  rintro containerMac _ rfl
  -- From here on there is a lease to account for.
  refine Prog.guards_try (Prog.orError (fun id t =>
    id ∈ m.idAllocator.ids ∧ t = (m.lease id, { leased := some id })) fun _ t => t = (m, {}))
    (guards_op trivial fun r t ht => ?_) ?_
  · obtain ⟨t, o⟩ := t
    cases r with
    | ok id =>
      obtain ⟨⟨cache, ⟨hfree, rfl⟩, ht⟩, hnote⟩ := ht
      exact ⟨hfree, Prod.ext ht hnote⟩
    | error e => exact Prod.ext ht.1.2.1 ht.2
  intro r t ht
  cases r with
  | ok id =>
    obtain ⟨hfree, rfl⟩ := ht
    exact addLeased_atomic hfree
  | error e =>
    obtain rfl : t = _ := ht
    exact atomic_start m (.error (.dataPlaneError e))

/-- **A create and its failures.** -/
theorem create_atomic (text : IpText) (request : EndpointCreateRequest) (m : EndpointManager) :
    (create text request).run.Guards (observed creating CreateOutcomes.note) (fun _ _ _ => True)
      (Prog.orError (fun _ _ => True) (Atomic m)) (m, {}) := by
  refine Prog.guards_try _ (createEndpoint_atomic text request m) ?_
  rintro ep t ⟨habsent, hpresent⟩
  refine Prog.guards_try (fun r t => ∀ e, r = .error e → t.2.regenerationFailed = true ∧
    t.1.inner.endpoints ep.id ≠ none) (guards_op trivial fun r u hu => ?_) ?_
  · rintro e rfl
    obtain ⟨⟨phase, generation, hpublish⟩, hnote⟩ := hu
    refine ⟨congrArg CreateOutcomes.regenerationFailed hnote, ?_⟩
    rw [hpublish, Ne, EndpointManager.endpoints_publish_eq_none]
    exact hpresent
  intro r u hu
  cases r with
  | ok a => trivial
  | error e =>
    -- The endpoint stays, and its regeneration has failed.
    obtain ⟨hfailed, hstays⟩ := hu e rfl
    refine iff_of_false (fun h => hstays ?_) fun h => ?_
    · rw [h.endpoints]
      exact habsent
    · have hnone := h.1
      rw [hfailed] at hnone
      cases hnone

/-- **Atomicity.** Whatever the allocation, the insertion and the regeneration answer, a
    create that returns an error has left the endpoints, the indexes and the free ids as they
    were exactly when no regeneration failed and a refused insertion gives back its id. -/
theorem unchanged_iff_undone {text : IpText} {request : EndpointCreateRequest}
    {m m' : EndpointManager} {tr : List (Answered ManagerOp)} {e : EndpointError}
    (h : Exec creating (create text request).run m tr (.pure (.error (.error e))) m') :
    m.Unchanged m' ↔ m.Undone (tr.foldl CreateOutcomes.note {}) := by
  have hend := (create_atomic text request m).exec (h.observed ({} : CreateOutcomes))
  exact hend

/-! ### A create that is not undone -/

/-- A create for a container that has an endpoint is refused. -/
theorem create_of_known {text : IpText} {request : EndpointCreateRequest}
    (hknown : m.inner.containerId request.containerId ≠ none) :
    (create text request).run.Guards creating (fun _ _ _ => True)
      (fun r _ => r = .error (.error (.genericError
        s!"endpoint for container {request.containerId} already exists"))) m := by
  refine ⟨trivial, fun b t ht => ?_⟩
  obtain ⟨rfl, rfl⟩ := ht
  have hsome : (t.inner.containerId request.containerId).isNone = false :=
    Option.isNone_eq_false_iff.mpr (Option.isSome_iff_ne_none.mpr hknown)
  show Prog.Guards _ _ _ (((ensure (t.inner.containerId request.containerId).isNone _ >>= _) >>= _ :
    Handler ManagerOp Unit).run) t
  rw [hsome]
  exact rfl

/-- What `requestC1` is turned into. -/
private def endpointC1 : EndpointPersist :=
  createPersist CreateSystem.requestC1 1 (.ofBytes 2 0 0 0 0 2) (.ofBytes 2 0 0 0 0 1) none none

/-- An accepted request whose worker is gone before it regenerates. -/
private theorem create_actorGone : ∃ tr, Exec creating
    (create CreateSystem.noText CreateSystem.requestC1).run .new tr
    (.pure (.error (.error (.dataPlaneError .actorGone))))
    ((EndpointManager.new.accept endpointC1).publish 1 .created 0) := by
  have hacceptable : Acceptable CreateSystem.noText CreateSystem.requestC1 .new endpointC1 := {
    unknown := rfl
    ipv4 := rfl
    ipv6 := rfl
    unusedIpv4 := fun _ h => nomatch h
    unusedIpv6 := fun _ h => nomatch h
    hostMac := by decide
    containerMac := by decide
    rest := rfl
    free := Finset.mem_Icc.mpr (by decide)
    absent := rfl }
  have hput : ∀ (β : Type) (op : ManagerOp β) m b m', ManagerOp.Inserts β op →
      EndpointManager.sem β op m b m' → creating β op m b m' := by
    intro β op m b m' _ h
    cases op with
    | addEndpoint persist => exact .inl h
    | _ => exact h
  obtain ⟨tr, hx⟩ : ∃ tr, Exec creating
      (createEndpoint CreateSystem.noText CreateSystem.requestC1).run .new tr
      (.pure (.ok (.new endpointC1))) (EndpointManager.new.accept endpointC1) :=
    createEndpoint_exec hput hacceptable
  have hregenerate : Exec creating (Handler.op (.regenerate (.new endpointC1))).run
      (EndpointManager.new.accept endpointC1) _ (.pure (.ok (.error .actorGone)))
      ((EndpointManager.new.accept endpointC1).publish 1 .created 0) :=
    .step _ _ _ (Except.error .actorGone) _ [] _ _ ⟨_, _, rfl⟩ (.refl _ _)
  exact ⟨_, Exec.bind_ok hx (Exec.bind_ok hregenerate (.refl _ _))⟩

/-- **A create that fails and stays.** The worker is gone when it is asked to regenerate: the
    create fails, the endpoint, its container id and its id stay taken, and the same request
    is refused from then on. -/
theorem failed_create_stays : ∃ tr m',
    Exec creating (create CreateSystem.noText CreateSystem.requestC1).run .new tr
      (.pure (.error (.error (.dataPlaneError .actorGone)))) m' ∧
    ¬ EndpointManager.Unchanged .new m' ∧
    ∀ tr' r m'', Exec creating (create CreateSystem.noText CreateSystem.requestC1).run m' tr'
      (.pure r) m'' → r = .error (.error (.genericError
        "endpoint for container c1 already exists")) := by
  obtain ⟨tr, hx⟩ := create_actorGone
  refine ⟨tr, _, hx, fun h => ?_, fun tr' r m'' hretry => ?_⟩
  · have hlookup := congrFun h.lookup (.containerId "c1")
    exact absurd hlookup (by decide)
  · exact (create_of_known (by decide)).exec hretry

/-- The same run, through the condition. -/
theorem failed_create_not_undone : ∃ tr e m',
    Exec creating (create CreateSystem.noText CreateSystem.requestC1).run .new tr
      (.pure (.error (.error e))) m' ∧
    (EndpointManager.Unchanged .new m' ↔
      EndpointManager.new.Undone (tr.foldl CreateOutcomes.note {})) := by
  obtain ⟨tr, hx⟩ := create_actorGone
  exact ⟨tr, _, _, hx, unchanged_iff_undone hx⟩

end

end Sarena
