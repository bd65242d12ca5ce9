import Sarena.Endpoint.Manager
import Sarena.Lib.Run

namespace Sarena

open Lib

/-!
# Endpoint — live ids and the free set

An id is live while it is a key of `endpoints` or an uncommitted lease holds it.  The
allocator's `leased` set, which should protect leased ids, is never filled, and
`delete_endpoint` releases its id whatever has become of it since its first critical
section.  So live ids do become free; this file finds the steps that free them.

* `IdSystem`, `IdSystem.Step` — the manager, the leases and the deletions in flight, one
  atomic section at a time, in any interleaving;
* `IdSystem.LiveTaken` — no live id is free;
* `IdSystem.Safe` — the condition on the state before a step under which it frees no
  live id;
* `liveTaken_always_iff` — the runs in which live ids are never free are exactly those
  whose steps are all safe.
-/

/-- The state shared by the clients: the manager, the ids of the leases that are neither
    committed nor dropped, and the `delete_endpoint` calls, each with what is left of it. -/
structure IdSystem where
  manager : EndpointManager
  leases : List EndpointId
  deletes : List (Prog ManagerOp (Res Unit))

/-- One client's operation, or the next atomic section of a deletion in flight. -/
inductive IdEvent
  | allocateNewId (result : Res EndpointId)
  | allocateReuseId (id : EndpointId)
  | commitLease (id : EndpointId)
  | dropLease (id : EndpointId)
  | addEndpoint (persist : EndpointPersist)
  | deleteEndpoint (id : EndpointId) (timeout : Option Nat)
  | deleteStep (i : Nat)

namespace IdSystem

/-- The manager at its start, without leases or deletions. -/
def new : IdSystem := ⟨.new, [], []⟩

/-- The steps of the system. -/
def Step (s : IdSystem) : IdEvent → IdSystem → Prop
  | .allocateNewId result, t => ∃ m', s.manager.AllocateNewId result m' ∧
      t = { s with manager := m', leases := result.toOption.toList ++ s.leases }
  | .allocateReuseId id, t =>
      t = { s with
        manager := (s.manager.allocateReuseId id).2
        leases := (s.manager.allocateReuseId id).1.toOption.toList ++ s.leases }
  | .commitLease id, t => id ∈ s.leases ∧ t = { s with leases := s.leases.erase id }
  | .dropLease id, t => id ∈ s.leases ∧
      t = { s with manager := (s.manager.releaseId id).2, leases := s.leases.erase id }
  | .addEndpoint persist, t => t = { s with manager := (s.manager.addEndpoint persist).2 }
  | .deleteEndpoint id timeout, t =>
      t = { s with deletes := s.deletes ++ [Sarena.deleteEndpoint id timeout] }
  | .deleteStep i, t => ∃ (β : Type) (op : ManagerOp β) (k : β → Prog ManagerOp (Res Unit))
      (b : β) (m' : EndpointManager), s.deletes[i]? = some (.op op k) ∧
        EndpointManager.sem β op s.manager b m' ∧
        t = { s with manager := m', deletes := s.deletes.set i (k b) }

/-- The id is a key of `endpoints`, or an undropped uncommitted lease holds it. -/
def Live (s : IdSystem) (id : EndpointId) : Prop :=
  s.manager.inner.endpoints id ≠ none ∨ id ∈ s.leases

/-- The id is in the allocator's free set. -/
def Free (s : IdSystem) (id : EndpointId) : Prop := id ∈ s.manager.idAllocator.ids

/-- No live id is free. -/
def LiveTaken (s : IdSystem) : Prop := ∀ id, s.Live id → ¬ s.Free id

/-- The id that the next section of a deletion releases, if it is the last section. -/
def nextRelease : Prog ManagerOp (Res Unit) → Option EndpointId
  | .op (.releaseId id) _ => some id
  | _ => none

/-- The condition on the state before a step under which it frees no live id and makes no
    free id live.  Of a deletion only the last section, the release, can go wrong. -/
def Safe (s : IdSystem) : IdEvent → Prop
  | .allocateReuseId id => maxId < id → ¬ s.Free id
  | .dropLease id => s.manager.inner.endpoints id = none ∧ id ∉ s.leases.erase id
  | .addEndpoint persist => ¬ s.Free persist.id
  | .deleteStep i => ∀ id, s.deletes[i]?.bind nextRelease = some id → ¬ s.Live id
  | _ => True

/-- The operations a deletion is made of. -/
def DeleteOp : ∀ β : Type, ManagerOp β → Prop
  | _, .takeEndpoint _ => True
  | _, .releaseId _ => True
  | β, op => ManagerOp.Awaits β op

theorem deleteEndpoint_uses (id : EndpointId) (timeout : Option Nat) :
    (Sarena.deleteEndpoint id timeout).Uses DeleteOp := by
  unfold Sarena.deleteEndpoint
  rw [Prog.perform_bind]
  refine ⟨trivial, fun ep => Prog.uses_bind ?_ ?_⟩
  · refine Prog.Uses.mono ?_ (shutdownEndpoint_awaits ep timeout)
    intro β op hop
    cases op <;> trivial
  · exact fun _ => ⟨trivial, fun _ => trivial⟩

/-- What every step keeps: nothing is ever leased in the allocator's own account, and the
    deletions in flight are deletions. -/
structure Inv (s : IdSystem) : Prop where
  leased : s.manager.idAllocator.leased = ∅
  deletes : ∀ p ∈ s.deletes, p.Uses DeleteOp

variable {s t : IdSystem}

/-- What is left of a deletion after one of its sections is a deletion. -/
private theorem deletes_set (h : ∀ p ∈ s.deletes, p.Uses DeleteOp) {i : Nat} {β : Type}
    {op : ManagerOp β} {k : β → Prog ManagerOp (Res Unit)} (hi : s.deletes[i]? = some (.op op k))
    (b : β) : ∀ p ∈ s.deletes.set i (k b), p.Uses DeleteOp := by
  intro p hp
  rcases List.mem_or_eq_of_mem_set hp with hp | rfl
  · exact h p hp
  · exact (h _ (List.mem_of_getElem? hi)).2 b

/-- A deletion's section keeps the allocator's account of leases empty. -/
private theorem sem_leased {β : Type} {op : ManagerOp β} {m m' : EndpointManager} {b : β}
    (hop : DeleteOp β op) (h : EndpointManager.sem β op m b m')
    (hm : m.idAllocator.leased = ∅) : m'.idAllocator.leased = ∅ := by
  cases op <;> simp only [DeleteOp, ManagerOp.Awaits] at hop
  case takeEndpoint id => rw [show m' = _ from h.2]; exact hm
  case releaseId id =>
    rw [show m' = _ from h.2, EndpointManager.leased_releaseId, hm]
  all_goals rw [show m' = m from h, hm]

/-- **Step lemma** for the invariant. -/
theorem Inv.step {e : IdEvent} (h : Step s e t) (hs : Inv s) : Inv t := by
  cases e with
  | allocateNewId result =>
    obtain ⟨m', hm', rfl⟩ := h
    refine ⟨?_, hs.deletes⟩
    cases result with
    | error err => rw [hm'.2.1]; exact hs.leased
    | ok id => obtain ⟨cache, ⟨_, rfl⟩, rfl⟩ := hm'; exact hs.leased
  | allocateReuseId id =>
    rw [show t = _ from h]
    refine ⟨?_, hs.deletes⟩
    have := IdAllocator.reuse_leased s.manager.idAllocator id hs.leased
    unfold EndpointManager.allocateReuseId
    split <;> simp_all
  | commitLease id => obtain ⟨_, rfl⟩ := h; exact ⟨hs.leased, hs.deletes⟩
  | dropLease id =>
    obtain ⟨_, rfl⟩ := h
    exact ⟨(EndpointManager.leased_releaseId _ _).trans hs.leased, hs.deletes⟩
  | addEndpoint persist =>
    rw [show t = _ from h]
    exact ⟨by rw [EndpointManager.idAllocator_addEndpoint]; exact hs.leased, hs.deletes⟩
  | deleteEndpoint id timeout =>
    rw [show t = _ from h]
    refine ⟨hs.leased, fun p hp => ?_⟩
    rcases List.mem_append.mp hp with hp | hp
    · exact hs.deletes p hp
    · rw [List.mem_singleton.mp hp]
      exact deleteEndpoint_uses id timeout
  | deleteStep i =>
    obtain ⟨β, op, k, b, m', hi, hsem, rfl⟩ := h
    have hop : DeleteOp β op := (hs.deletes _ (List.mem_of_getElem? hi)).1
    exact ⟨sem_leased hop hsem hs.leased, deletes_set hs.deletes hi b⟩

/-! ### Which steps keep live ids taken -/

/-- A step after which no more ids are live or free than before. -/
private theorem LiveTaken.of_le (hs : LiveTaken s) (hlive : ∀ i, t.Live i → s.Live i)
    (hfree : ∀ i, t.Free i → s.Free i) : LiveTaken t :=
  fun i hi hf => hs i (hlive i hi) (hfree i hf)

/-- A step that frees one id and makes none live. -/
private theorem LiveTaken.release_iff (hs : LiveTaken s) (id : EndpointId)
    (hlive : ∀ i, t.Live i → s.Live i) (hfree : ∀ i, t.Free i ↔ i = id ∨ s.Free i) :
    LiveTaken t ↔ ¬ t.Live id := by
  constructor
  · exact fun h hlive' => h id hlive' ((hfree id).mpr (.inl rfl))
  · intro h i hi hf
    obtain rfl | hf := (hfree i).mp hf
    · exact h hi
    · exact hs i (hlive i hi) hf

/-- A step that makes one id live and frees none. -/
private theorem LiveTaken.acquire_iff (hs : LiveTaken s) (id : EndpointId)
    (hlive : ∀ i, t.Live i ↔ i = id ∨ s.Live i) (hfree : ∀ i, t.Free i → s.Free i) :
    LiveTaken t ↔ ¬ t.Free id := by
  constructor
  · exact fun h => h id ((hlive id).mpr (.inl rfl))
  · intro h i hi hf
    obtain rfl | hi := (hlive i).mp hi
    · exact h hf
    · exact hs i hi (hfree i hf)

private theorem allocateNewId_keeps (hs : LiveTaken s) {result : Res EndpointId}
    (h : Step s (.allocateNewId result) t) : LiveTaken t := by
  obtain ⟨m', hm', rfl⟩ := h
  cases result with
  | error err =>
    obtain ⟨-, rfl, -⟩ := hm'
    exact hs
  | ok id =>
    obtain ⟨cache, ⟨_, rfl⟩, rfl⟩ := hm'
    refine (hs.acquire_iff id ?_ ?_).mpr (Finset.notMem_erase id _)
    · intro i
      simp only [Live, Except.toOption, Option.toList_some, List.singleton_append, List.mem_cons]
      tauto
    · exact fun i hi => Finset.mem_of_mem_erase hi

/-- Which ids `allocate_reuse_id` accepts, and what it leaves free. -/
private theorem allocateReuseId_cases (m : EndpointManager) (id : EndpointId) :
    (maxId < id ∧ m.allocateReuseId id = (.ok id, m)) ∨
    (¬ maxId < id ∧ id ∈ m.idAllocator.ids ∧ (m.allocateReuseId id).1 = .ok id ∧
      (m.allocateReuseId id).2.inner = m.inner ∧
      (m.allocateReuseId id).2.idAllocator.ids = m.idAllocator.ids.erase id) ∨
    (¬ maxId < id ∧ (∃ e, (m.allocateReuseId id).1 = .error e) ∧
      (m.allocateReuseId id).2.inner = m.inner ∧
      (m.allocateReuseId id).2.idAllocator.ids ⊆ m.idAllocator.ids) := by
  unfold EndpointManager.allocateReuseId IdAllocator.reuse IdCache.remove
  by_cases hmin : id < minId
  · have hmax : ¬ maxId < id := by
      simp only [minId, maxId, Fin.lt_def] at hmin ⊢
      omega
    simp [hmin, hmax]
  · by_cases hmax : maxId < id
    · simp [hmin, hmax]
    · by_cases hid : id ∈ m.idAllocator.ids
      · simp [hmin, hmax, hid]
      · simp [hmin, hmax, hid]

private theorem allocateReuseId_iff (hs : LiveTaken s) {id : EndpointId}
    (h : Step s (.allocateReuseId id) t) : LiveTaken t ↔ (maxId < id → ¬ s.Free id) := by
  rw [show t = _ from h]
  obtain ⟨hmax, heq⟩ | ⟨hmax, hid, hok, hinner, hids⟩ | ⟨hmax, ⟨e, herr⟩, hinner, hids⟩ :=
    allocateReuseId_cases s.manager id
  · rw [heq]
    refine (hs.acquire_iff id ?_ ?_).trans (Iff.intro (fun h _ => h) fun h => h hmax)
    case refine_2 => exact fun i hi => hi
    intro i
    simp only [Live, Except.toOption, Option.toList_some, List.singleton_append, List.mem_cons]
    tauto
  · refine iff_of_true ?_ fun h => absurd h hmax
    refine (hs.acquire_iff id ?_ ?_).mpr ?_
    · intro i
      simp only [Live, hok, hinner, Except.toOption, Option.toList_some, List.singleton_append,
        List.mem_cons]
      tauto
    · intro i hi
      simp only [Free, hids] at hi
      exact Finset.mem_of_mem_erase hi
    · simp only [Free, hids]
      exact Finset.notMem_erase id _
  · refine iff_of_true (hs.of_le ?_ fun i hi => hids hi) fun h => absurd h hmax
    intro i hi
    simpa only [Live, herr, hinner, Except.toOption, Option.toList_none, List.nil_append] using hi

/-- Releasing an id makes it free and leaves the others as they are. -/
private theorem free_release (hinv : Inv s) (id : EndpointId) {leases : List EndpointId}
    {deletes : List (Prog ManagerOp (Res Unit))} (i : EndpointId) :
    Free ⟨(s.manager.releaseId id).2, leases, deletes⟩ i ↔ i = id ∨ s.Free i := by
  simp only [Free, EndpointManager.ids_releaseId hinv.leased, Finset.mem_insert]

private theorem dropLease_iff (hs : LiveTaken s) (hinv : Inv s) {id : EndpointId}
    (h : Step s (.dropLease id) t) :
    LiveTaken t ↔ s.manager.inner.endpoints id = none ∧ id ∉ s.leases.erase id := by
  obtain ⟨_, rfl⟩ := h
  refine (hs.release_iff id ?_ (free_release hinv id)).trans ?_
  · rintro i (hi | hi)
    · exact .inl hi
    · exact .inr (List.mem_of_mem_erase hi)
  · simp [Live]

private theorem addEndpoint_iff (hs : LiveTaken s) {persist : EndpointPersist}
    (h : Step s (.addEndpoint persist) t) : LiveTaken t ↔ ¬ s.Free persist.id := by
  rw [show t = _ from h]
  refine (hs.acquire_iff persist.id ?_ ?_).trans ?_
  · intro i
    simp only [Live, EndpointManager.endpoints_addEndpoint]
    by_cases hi : i = persist.id
    · subst hi
      by_cases hfree : s.manager.inner.endpoints persist.id = none <;> simp [hfree]
    · simp [hi]
  · intro i hi
    simpa [Free] using hi
  · simp [Free]

private theorem deleteStep_iff (hs : LiveTaken s) (hinv : Inv s) {i : Nat}
    (h : Step s (.deleteStep i) t) :
    LiveTaken t ↔ ∀ id, s.deletes[i]?.bind nextRelease = some id → ¬ s.Live id := by
  obtain ⟨β, op, k, b, m', hi, hsem, rfl⟩ := h
  have hop : DeleteOp β op := (hinv.deletes _ (List.mem_of_getElem? hi)).1
  rw [hi, Option.bind_some]
  cases op with
  | releaseId id =>
    -- The id is free from here on: that is right exactly when its endpoint is not live.
    rw [show m' = _ from hsem.2]
    refine (hs.release_iff id ?_ (free_release hinv id)).trans ?_
    · exact fun i hi => hi
    constructor
    · intro h id' heq
      cases heq
      exact h
    · exact fun h => h id rfl
  | takeEndpoint id =>
    rw [show m' = _ from hsem.2]
    -- Taking an endpoint out of the map leaves fewer live ones.
    refine iff_of_true (hs.of_le ?_ fun i hi => hi) nofun
    rintro i (hi | hi)
    · refine .inl fun hnone => hi ?_
      rw [EndpointManager.endpoints_takeEndpoint, KeyMap.remove_apply, hnone, ite_self]
    · exact .inr hi
  | shutdown ep =>
    rw [show m' = s.manager from hsem]
    exact iff_of_true hs nofun
  | waitForShutdown ep timeout =>
    rw [show m' = s.manager from hsem]
    exact iff_of_true hs nofun
  | removeLoaderEndpoint persist =>
    rw [show m' = s.manager from hsem]
    exact iff_of_true hs nofun
  | _ => exact hop.elim

/-- **Step.** From a state whose live ids are taken, a step keeps them taken exactly when
    it is safe. -/
theorem step_iff {e : IdEvent} (h : Step s e t) (hs : LiveTaken s) (hinv : Inv s) :
    LiveTaken t ↔ Safe s e := by
  cases e with
  | allocateNewId result => exact iff_of_true (allocateNewId_keeps hs h) trivial
  | allocateReuseId id => exact allocateReuseId_iff hs h
  | commitLease id =>
    obtain ⟨_, rfl⟩ := h
    refine iff_of_true (hs.of_le ?_ fun i hi => hi) trivial
    rintro i (hi | hi)
    · exact .inl hi
    · exact .inr (List.mem_of_mem_erase hi)
  | dropLease id => exact dropLease_iff hs hinv h
  | addEndpoint persist => exact addEndpoint_iff hs h
  | deleteEndpoint id timeout => rw [show t = _ from h]; exact iff_of_true hs trivial
  | deleteStep i => exact deleteStep_iff hs hinv h

/-! ### Runs -/

theorem inv_new : Inv new := ⟨rfl, fun _ hp => nomatch hp⟩

theorem liveTaken_new : LiveTaken new := by
  rintro id (h | h)
  · exact absurd rfl h
  · cases h

/-- **Exact condition.** In a run of the clients, no live id is free in any state exactly
    when every step of the run is safe. -/
theorem liveTaken_always_iff {s : IdSystem} (run : Run Step new s) :
    run.Always LiveTaken ↔ run.EachStep (fun s e _ => Safe s e) :=
  Run.always_iff_eachStep liveTaken_new inv_new (fun _ _ _ h _ hinv _ => hinv.step h)
    (fun _ _ _ h hs hinv => step_iff h hs hinv) run

/-- The data of an endpoint with id 1. -/
def onePersist : EndpointPersist := { id := 1 }

/-- What is left of a deletion of id 1 that took `ep` out. -/
def oneTaken (ep : Option Endpoint) : Prog ManagerOp (Res Unit) := do
  let shutdownResult ← ep.elim (pure (.ok ())) (shutdownEndpoint · none)
  let _ ← perform (.releaseId 1)
  return shutdownResult

theorem inv_run {s : IdSystem} (run : Run Step new s) : Inv s :=
  run.invariant inv_new fun _ _ _ h hs => hs.step h

/-- **Deleting twice, first half.** One deletion of endpoint 1 takes it out, a second one
    finds nothing. -/
private theorem both_taken : ∃ s, ∃ _ : Run Step new s,
    s.deletes = [oneTaken (some (.new onePersist)), oneTaken none] := by
  have r1 := (.nil : Run Step new new).snoc _ (.allocateNewId (.ok 1)) _
    ⟨_, ⟨_, ⟨Finset.mem_Icc.mpr (by decide), rfl⟩, rfl⟩, rfl⟩
  have r2 := r1.snoc _ (.addEndpoint onePersist) _ rfl
  have r3 := r2.snoc _ (.commitLease 1) _ ⟨List.mem_singleton.mpr rfl, rfl⟩
  have r4 := r3.snoc _ (.deleteEndpoint 1 none) _ rfl
  have r5 := r4.snoc _ (.deleteEndpoint 1 none) _ rfl
  have r6 := r5.snoc _ (.deleteStep 0) _ ⟨_, .takeEndpoint 1, _, _, _, rfl, ⟨rfl, rfl⟩, rfl⟩
  have r7 := r6.snoc _ (.deleteStep 1) _ ⟨_, .takeEndpoint 1, _, _, _, rfl, ⟨rfl, rfl⟩, rfl⟩
  exact ⟨_, r7, rfl⟩

/-- **Deleting twice.** The second deletion releases the id, a client leases it, and then
    the first deletion, done with waiting, releases it under the client's hands. -/
theorem leased_id_freed_by_delete :
    ∃ s, ∃ _ : Run Step new s, 1 ∈ s.leases ∧ s.Free 1 ∧ ¬ LiveTaken s := by
  obtain ⟨⟨m, leases, deletes⟩, r, rfl⟩ := both_taken
  have hfree : ∀ s, Run Step new s → 1 ∈ (s.manager.releaseId 1).2.idAllocator.ids := by
    intro s r
    rw [EndpointManager.ids_releaseId (inv_run r).leased]
    exact Finset.mem_insert_self _ _
  have r1 := r.snoc _ (.deleteStep 1) _ ⟨_, .releaseId 1, _, _, _, rfl, ⟨rfl, rfl⟩, rfl⟩
  have r2 := r1.snoc _ (.allocateNewId (.ok 1)) _ ⟨_, ⟨_, ⟨hfree _ r, rfl⟩, rfl⟩, rfl⟩
  have r3 := r2.snoc _ (.deleteStep 0) _ ⟨_, .shutdown _, _, (), _, rfl, rfl, rfl⟩
  have r4 := r3.snoc _ (.deleteStep 0) _ ⟨_, .waitForShutdown _ _, _, .ok (), _, rfl, rfl, rfl⟩
  have r5 := r4.snoc _ (.deleteStep 0) _ ⟨_, .removeLoaderEndpoint _, _, .ok (), _, rfl, rfl, rfl⟩
  have r6 := r5.snoc _ (.deleteStep 0) _ ⟨_, .releaseId 1, _, _, _, rfl, ⟨rfl, rfl⟩, rfl⟩
  have hlast := hfree _ r5
  exact ⟨_, r6, List.mem_cons_self, hlast, fun h => h 1 (.inr List.mem_cons_self) hlast⟩

end IdSystem

end Sarena
