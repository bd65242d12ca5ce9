import Sarena.Endpoint.IdAllocator
import Sarena.Lib.Run

namespace Sarena

open Lib

/-!
# Endpoint — leases of ids

The allocator together with who holds its ids.  An id that is allocated or reused comes in
an `IdLease`: dropping the lease releases the id, committing it leaves the id with the
caller, who releases it later.

* `LeaseSystem`, `LeaseSystem.Step` — the operations on the allocator and on its leases;
* `Holder` — the callers stay in the valid range and release only what they hold;
* `partition_always_iff` — then free and held ids stay a partition of the valid range in the
  runs in which no id is released while its lease is alive, and in no other;
* `allocates_in_range_iff` — without that discipline, the runs in which no other id can be
  allocated are those in which no other id is released.
-/

/-- The allocator, the ids in live leases, and the ids held after a commit. -/
structure LeaseSystem where
  cache : IdCache
  leases : List EndpointId
  committed : List EndpointId

/-- An operation on the allocator or on a lease. -/
inductive LeaseEvent
  | allocate (result : Option EndpointId)
  | reuse (id : EndpointId)
  | commitLease (id : EndpointId)
  | dropLease (id : EndpointId)
  | release (id : EndpointId)

namespace LeaseSystem

/-- A new allocator, of which nothing is held. -/
def new : LeaseSystem := ⟨IdAllocator.new, [], []⟩

/-- The operations.  A lease that is dropped does not look at what its release answers. -/
def Step (s : LeaseSystem) : LeaseEvent → LeaseSystem → Prop
  | .allocate result, t => ∃ cache, s.cache.AllocateId result cache ∧
      t = { s with cache := cache, leases := result.toList ++ s.leases }
  | .reuse id, t =>
      t = { s with
        cache := (IdAllocator.reuse s.cache id).2
        leases := if (IdAllocator.reuse s.cache id).1.isOk then id :: s.leases else s.leases }
  | .commitLease id, t => id ∈ s.leases ∧
      t = { s with leases := s.leases.erase id, committed := id :: s.committed }
  | .dropLease id, t => id ∈ s.leases ∧
      t = { s with cache := (IdAllocator.release s.cache id).2, leases := s.leases.erase id }
  | .release id, t =>
      t = { s with
        cache := (IdAllocator.release s.cache id).2
        committed := s.committed.erase id }

/-- The ids that are held, in a lease or after a commit. -/
def held (s : LeaseSystem) : List EndpointId := s.leases ++ s.committed

/-- The caller stays in the valid range, and releases only an id that is held. -/
def Holder (s : LeaseSystem) : LeaseEvent → Prop
  | .reuse id => EndpointId.Allocatable id
  | .release id => id ∈ s.held
  | _ => True

/-- A step of callers that release only what is held. -/
def HolderStep (s : LeaseSystem) (e : LeaseEvent) (t : LeaseSystem) : Prop :=
  s.Holder e ∧ Step s e t

/-- The operation releases no id whose lease is alive. -/
def SparesLeases (s : LeaseSystem) : LeaseEvent → Prop
  | .release id => id ∉ s.leases
  | _ => True

/-- The free ids and the held ids are a partition of the valid range. -/
structure Partition (s : LeaseSystem) : Prop where
  /-- No id is held twice. -/
  nodup : s.held.Nodup
  /-- No held id is free. -/
  taken : ∀ id ∈ s.held, id ∉ s.cache.ids
  /-- Every id of the valid range is free or held, and no other id is. -/
  range : ∀ id, id ∈ s.cache.ids ∨ id ∈ s.held ↔ EndpointId.Allocatable id

/-- Whatever `allocate` may return is in the valid range. -/
def AllocatesInRange (s : LeaseSystem) : Prop :=
  ∀ id cache, s.cache.AllocateId (some id) cache → EndpointId.Allocatable id

/-- The operation releases only an id of the valid range. -/
def ReleasesInRange : LeaseEvent → Prop
  | .dropLease id => EndpointId.Allocatable id
  | .release id => EndpointId.Allocatable id
  | _ => True

variable {s t : LeaseSystem}

/-! ### What the operations do to the two accounts -/

/-- Nothing is ever leased in the allocator's own account. -/
theorem Step.leased {e : LeaseEvent} (h : Step s e t) (hs : s.cache.leased = ∅) :
    t.cache.leased = ∅ := by
  cases e with
  | allocate result =>
    obtain ⟨cache, hcache, rfl⟩ := h
    cases result with
    | none => rw [hcache.2]; exact hs
    | some id => rw [hcache.2]; exact hs
  | reuse id =>
    rw [show t = _ from h]
    exact IdAllocator.reuse_leased s.cache id hs
  | commitLease id =>
    rw [h.2]
    exact hs
  | dropLease id =>
    rw [h.2]
    exact (IdAllocator.release_leased s.cache id).trans hs
  | release id =>
    rw [show t = _ from h]
    exact (IdAllocator.release_leased s.cache id).trans hs

/-- Taking a free id out of the free set and holding it. -/
theorem Partition.take (hs : s.Partition) {id : EndpointId} (hid : id ∈ s.cache.ids)
    (hids : t.cache.ids = s.cache.ids.erase id) (hheld : t.held.Perm (id :: s.held)) :
    t.Partition where
  nodup := by
    rw [hheld.nodup_iff, List.nodup_cons]
    exact ⟨fun hmem => hs.taken id hmem hid, hs.nodup⟩
  taken i hi := by
    rw [hids, Finset.mem_erase, not_and]
    intro hne
    exact hs.taken i (List.mem_of_ne_of_mem hne (hheld.mem_iff.mp hi))
  range i := by
    rw [hids, Finset.mem_erase, hheld.mem_iff, List.mem_cons, ← hs.range i]
    by_cases hi : i = id
    · subst hi
      simp [hid]
    · simp [hi]

/-- Giving a held id back to the free set. -/
theorem Partition.giveBack (hs : s.Partition) {id : EndpointId}
    (hids : t.cache.ids = insert id s.cache.ids) (hheld : s.held.Perm (id :: t.held)) :
    t.Partition where
  nodup := (List.nodup_cons.mp (hheld.nodup_iff.mp hs.nodup)).2
  taken i hi := by
    rw [hids, Finset.mem_insert, not_or]
    refine ⟨?_, hs.taken i (hheld.mem_iff.mpr (List.mem_cons_of_mem _ hi))⟩
    rintro rfl
    exact (List.nodup_cons.mp (hheld.nodup_iff.mp hs.nodup)).1 hi
  range i := by
    rw [hids, Finset.mem_insert, ← hs.range i, hheld.mem_iff, List.mem_cons]
    tauto

/-- Moving a held id from one account to the other. -/
theorem Partition.move (hs : s.Partition) (hids : t.cache = s.cache)
    (hheld : t.held.Perm s.held) : t.Partition where
  nodup := hheld.nodup_iff.mpr hs.nodup
  taken i hi := by
    rw [hids]
    exact hs.taken i (hheld.mem_iff.mp hi)
  range i := by
    rw [hids, hheld.mem_iff]
    exact hs.range i

/-! ### The partition -/

/-- An id that is held and in no lease was left to its holder by a commit. -/
theorem mem_committed_of_held {id : EndpointId} (hheld : id ∈ s.held) (hlease : id ∉ s.leases) :
    id ∈ s.committed :=
  (List.mem_append.mp hheld).resolve_left hlease

/-- A released id is free afterwards, but its lease holds it. -/
theorem Step.not_partition {id : EndpointId} (h : Step s (.release id) t)
    (hleased : s.cache.leased = ∅) (hlease : id ∈ s.leases) : ¬ t.Partition := by
  obtain rfl : t = _ := h
  intro ht
  refine ht.taken id (List.mem_append_left _ hlease) ?_
  rw [IdAllocator.release_ids s.cache id hleased]
  exact Finset.mem_insert_self _ _

/-- **Step.** A step that releases no id of a live lease keeps the partition. -/
theorem Partition.step {e : LeaseEvent} (h : HolderStep s e t) (hspares : s.SparesLeases e)
    (hleased : s.cache.leased = ∅) (hs : s.Partition) : t.Partition := by
  obtain ⟨hholder, h⟩ := h
  cases e with
  | allocate result =>
    obtain ⟨cache, hcache, rfl⟩ := h
    cases result with
    | none => exact hs.move hcache.2 (.refl _)
    | some id => exact hs.take hcache.1 (congrArg IdCache.ids hcache.2) (.refl _)
  | reuse id =>
    obtain rfl : t = _ := h
    have hrange : EndpointId.Allocatable id := hholder
    have hids := IdAllocator.reuse_ids s.cache id
    rw [if_pos hrange] at hids
    by_cases hfree : id ∈ s.cache.ids
    · refine hs.take hfree hids ?_
      simp only [held, IdAllocator.reuse_isOk _ hrange, hfree, decide_true, if_true]
      exact .refl _
    · -- A refused id was not free, and the cache is as it was.
      have hheld : ∀ l : List EndpointId, (if (IdAllocator.reuse s.cache id).1.isOk then id :: l
          else l) = l := by
        intro l
        rw [IdAllocator.reuse_isOk _ hrange, decide_eq_false hfree, if_neg Bool.false_ne_true]
      rw [Finset.erase_eq_of_notMem hfree] at hids
      exact { nodup := by rw [held, hheld]; exact hs.nodup
              taken := by rw [held, hheld, hids]; exact hs.taken
              range := by rw [held, hheld, hids]; exact hs.range }
  | commitLease id =>
    obtain ⟨hmem, rfl⟩ := h
    refine hs.move rfl ?_
    exact List.perm_middle.trans ((List.perm_cons_erase hmem).symm.append_right _)
  | dropLease id =>
    obtain ⟨hmem, rfl⟩ := h
    exact hs.giveBack (IdAllocator.release_ids s.cache id hleased)
      ((List.perm_cons_erase hmem).append_right _)
  | release id =>
    obtain rfl : t = _ := h
    refine hs.giveBack (IdAllocator.release_ids s.cache id hleased) ?_
    have hmem : id ∈ s.committed := mem_committed_of_held hholder hspares
    exact ((List.perm_cons_erase hmem).append_left _).trans List.perm_middle

/-- **Step.** A step keeps the partition exactly when it releases no id of a live lease. -/
theorem Partition.step_iff {e : LeaseEvent} (h : HolderStep s e t) (hleased : s.cache.leased = ∅)
    (hs : s.Partition) : t.Partition ↔ s.SparesLeases e := by
  refine ⟨fun ht => ?_, fun hspares => hs.step h hspares hleased⟩
  cases e with
  | release id => exact fun hlease => h.2.not_partition hleased hlease ht
  | _ => trivial

theorem leased_new : new.cache.leased = ∅ := rfl

theorem mem_ids_new (id : EndpointId) : id ∈ new.cache.ids ↔ EndpointId.Allocatable id :=
  Finset.mem_Icc

theorem partition_new : new.Partition where
  nodup := List.nodup_nil
  taken _ h := absurd h List.not_mem_nil
  range id := by
    rw [mem_ids_new]
    exact or_iff_left List.not_mem_nil

/-- **Allocation.** In every run an allocation fails only when no id is free. -/
theorem allocate_none_always {s : LeaseSystem} (run : Run HolderStep new s) :
    run.EachStep fun s e _ => e = .allocate none → s.cache.ids = ∅ := by
  refine run.eachStep_of_invariant (J := fun _ => True) trivial (fun _ _ _ _ _ => trivial) ?_
  rintro s e t ⟨-, h⟩ - rfl
  obtain ⟨cache, hcache, -⟩ := h
  exact hcache.1

/-- **Mutual exclusion.** The runs in which the free ids and the held ids are, in every state,
    a partition of the valid range, and an allocation fails only when no id is free, are
    exactly those in which no id is released while its lease is alive. -/
theorem partition_always_iff {s : LeaseSystem} (run : Run HolderStep new s) :
    (run.Always Partition ∧ run.EachStep fun s e _ => e = .allocate none → s.cache.ids = ∅)
      ↔ run.EachStep fun s e _ => s.SparesLeases e := by
  rw [and_iff_left (allocate_none_always run)]
  refine Run.always_iff_eachStep (J := fun s => s.cache.leased = ∅) partition_new leased_new
    ?_ ?_ run
  · exact fun s e t h _ hs _ => h.2.leased hs
  · exact fun s e t h hs hleased => hs.step_iff h hleased

/-- **A lease is no guard.** An id is allocated, and released while its lease is alive:
    nothing entered it into the allocator's leased ids, so it is free and held at once. -/
theorem leased_id_is_freed :
    ∃ (s : LeaseSystem) (run : Run HolderStep new s), ¬ run.Always Partition := by
  have hfree : (1 : EndpointId) ∈ new.cache.ids := (mem_ids_new 1).mpr (by decide)
  have hallocate : HolderStep new (.allocate (some 1)) ⟨⟨new.cache.ids.erase 1, ∅⟩, [1], []⟩ :=
    ⟨trivial, _, ⟨hfree, rfl⟩, rfl⟩
  have hrelease : HolderStep ⟨⟨new.cache.ids.erase 1, ∅⟩, [1], []⟩ (.release 1) _ :=
    ⟨List.mem_cons_self, rfl⟩
  refine ⟨_, .snoc _ (.snoc _ .nil _ _ hallocate) _ _ hrelease, fun hall => ?_⟩
  exact hrelease.2.not_partition rfl List.mem_cons_self hall.2

/-! ### The range -/

theorem allocatesInRange_iff : s.AllocatesInRange ↔ ∀ id ∈ s.cache.ids, EndpointId.Allocatable id :=
  ⟨fun h id hid => h id _ ⟨hid, rfl⟩, fun h id _ hid => h id hid.1⟩

/-- Releasing an id keeps what is free in range exactly when the id is. -/
theorem allocatesInRange_release (hleased : s.cache.leased = ∅) (hs : s.AllocatesInRange)
    {id : EndpointId} (hcache : t.cache = (IdAllocator.release s.cache id).2) :
    t.AllocatesInRange ↔ EndpointId.Allocatable id := by
  rw [allocatesInRange_iff] at hs ⊢
  rw [hcache, IdAllocator.release_ids s.cache id hleased, Finset.forall_mem_insert]
  exact and_iff_left hs

/-- **Step.** A step keeps what is free in range exactly when it releases no other id. -/
theorem allocatesInRange_step {e : LeaseEvent} (h : Step s e t) (hleased : s.cache.leased = ∅)
    (hs : s.AllocatesInRange) : t.AllocatesInRange ↔ ReleasesInRange e := by
  have hfewer : t.cache.ids ⊆ s.cache.ids → t.AllocatesInRange := by
    intro hsub
    rw [allocatesInRange_iff] at hs ⊢
    exact fun id hid => hs id (hsub hid)
  cases e with
  | allocate result =>
    refine iff_of_true (hfewer ?_) trivial
    obtain ⟨cache, hcache, rfl⟩ := h
    cases result with
    | none => exact (congrArg IdCache.ids hcache.2).le
    | some id => exact (congrArg IdCache.ids hcache.2).trans_subset (Finset.erase_subset _ _)
  | reuse id =>
    refine iff_of_true (hfewer ?_) trivial
    rw [show t = _ from h]
    show (IdAllocator.reuse s.cache id).2.ids ⊆ s.cache.ids
    rw [IdAllocator.reuse_ids]
    split
    · exact Finset.erase_subset _ _
    · exact subset_rfl
  | commitLease id =>
    refine iff_of_true (hfewer ?_) trivial
    rw [h.2]
  | dropLease id => exact allocatesInRange_release hleased hs (congrArg cache h.2)
  | release id => exact allocatesInRange_release hleased hs (congrArg cache h)

/-- **Range closure.** The runs in which only ids of the valid range can be allocated, in
    every state, are exactly those in which no lease with another id is dropped and no other
    id is released. -/
theorem allocates_in_range_iff {s : LeaseSystem} (run : Run Step new s) :
    run.Always AllocatesInRange ↔ run.EachStep fun _ e _ => ReleasesInRange e := by
  refine Run.always_iff_eachStep (J := fun s => s.cache.leased = ∅) ?_ leased_new ?_ ?_ run
  · rw [allocatesInRange_iff]
    exact fun id hid => (mem_ids_new id).mp hid
  · exact fun s e t h _ hs _ => h.leased hs
  · exact fun s e t h hs hleased => allocatesInRange_step h hleased hs

/-- An id above the range is reused, its lease is dropped, and it is allocated. -/
private theorem allocates_above {cache : IdCache} (hleased : cache.leased = ∅) {id : EndpointId}
    (hmax : maxId < id) :
    ∃ (s : LeaseSystem) (run : Run Step ⟨cache, [], []⟩ s), ¬ run.EachStep fun _ e _ =>
      ∀ id, e = .allocate (some id) → EndpointId.Allocatable id := by
  have hmin : ¬ id < minId := not_lt.mpr ((show minId ≤ maxId by decide).trans hmax.le)
  have haccepted : IdAllocator.reuse cache id = (.ok (), cache) := by
    rw [IdAllocator.reuse, if_neg hmin, if_pos hmax]
  have hreuse : Step ⟨cache, [], []⟩ (.reuse id) ⟨cache, [id], []⟩ := by
    simp only [Step, haccepted]
    rfl
  have hdrop : Step ⟨cache, [id], []⟩ (.dropLease id)
      ⟨(IdAllocator.release cache id).2, [], []⟩ :=
    ⟨List.mem_cons_self, by rw [List.erase_cons_head]⟩
  have hfree : id ∈ (IdAllocator.release cache id).2.ids := by
    rw [IdAllocator.release_ids _ _ hleased]
    exact Finset.mem_insert_self _ _
  refine ⟨_, .snoc _ (.snoc _ (.snoc _ .nil _ _ hreuse) _ _ hdrop) (.allocate (some id)) _
    ⟨_, ⟨hfree, rfl⟩, rfl⟩, fun hall => ?_⟩
  exact absurd (hall.2 id rfl).2 (not_le.mpr hmax)

/-- **An id above the range.** `reuse` accepts 4096 without taking it from anywhere; dropping
    the lease puts it into the free set, and `allocate` returns it. -/
theorem reused_id_is_allocated :
    ∃ (s : LeaseSystem) (run : Run Step new s), ¬ run.EachStep fun _ e _ =>
      ∀ id, e = .allocate (some id) → EndpointId.Allocatable id :=
  allocates_above leased_new (show maxId < 4096 by decide)

end LeaseSystem

end Sarena
