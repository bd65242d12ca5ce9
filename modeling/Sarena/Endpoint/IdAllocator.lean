import Sarena.Endpoint.Persist
import Mathlib.Data.Finset.Basic
import Mathlib.Order.Interval.Finset.Fin

namespace Sarena

/-!
# Endpoint — the id allocator

`IdCache` holds the free ids and a set of leased ids.  `HashSet::iter().next()` yields
an unspecified member, so allocation is a relation: any free id may be the one.

The `leased` set is only ever removed from: nothing inserts into it, so it stays empty
(`release_leased`, `reuse_leased`) and the guard of `IdCache.insert` never refuses an id
on its account (`release_ids`).
-/

/-- `IdCache`: the ids available and the ids currently leased. -/
structure IdCache where
  ids : Finset EndpointId
  leased : Finset EndpointId
  deriving DecidableEq

namespace IdCache

/-- `IdCache::new`. -/
def new (min max : EndpointId) : IdCache := ⟨Finset.Icc min max, ∅⟩

/-- `IdCache::allocate_id`: `none` when nothing is free, otherwise any free id. -/
def AllocateId (cache : IdCache) : Option EndpointId → IdCache → Prop
  | none, cache' => cache.ids = ∅ ∧ cache' = cache
  | some id, cache' => id ∈ cache.ids ∧ cache' = { cache with ids := cache.ids.erase id }

/-- `IdCache::insert`: whether the id was neither leased nor free, and the cache after. -/
def insert (cache : IdCache) (id : EndpointId) : Bool × IdCache :=
  if id ∉ cache.leased then
    (decide (id ∉ cache.ids), { cache with ids := Insert.insert id cache.ids })
  else (false, cache)

/-- `IdCache::remove`: whether the id was free, and the cache after. -/
def remove (cache : IdCache) (id : EndpointId) : Bool × IdCache :=
  (decide (id ∈ cache.ids), { ids := cache.ids.erase id, leased := cache.leased.erase id })

end IdCache

/-! ### `IdAllocator` -/

namespace IdAllocator

/-- `IdAllocator::new`: the ids from `MIN_ID` to `MAX_ID` are free. -/
def new : IdCache := .new minId maxId

/-- `IdAllocator::reuse`: ids above `MAX_ID` are accepted without touching the cache. -/
def reuse (cache : IdCache) (id : EndpointId) : Res Unit × IdCache :=
  if id < minId then
    (.error (.generalError ("unable to reuse EndpointId: " ++ id.text ++ " < " ++ minId.text)),
      cache)
  else if maxId < id then (.ok (), cache)
  else if (cache.remove id).1 = false then
    (.error (.generalError ("EndpointId " ++ id.text ++ " is already in use")), (cache.remove id).2)
  else (.ok (), (cache.remove id).2)

/-- `IdAllocator::release`. -/
def release (cache : IdCache) (id : EndpointId) : Res Unit × IdCache :=
  if (cache.insert id).1 = false then
    (.error (.generalError ("unable to release EndpointId " ++ id.text)), (cache.insert id).2)
  else (.ok (), (cache.insert id).2)

theorem release_snd (cache : IdCache) (id : EndpointId) :
    (release cache id).2 = (cache.insert id).2 := by
  unfold release
  split <;> rfl

/-- With nothing leased, releasing an id makes it free. -/
theorem release_ids (cache : IdCache) (id : EndpointId) (h : cache.leased = ∅) :
    (release cache id).2.ids = Insert.insert id cache.ids := by
  rw [release_snd, IdCache.insert, if_pos (by simp [h])]

@[simp] theorem release_leased (cache : IdCache) (id : EndpointId) :
    (release cache id).2.leased = cache.leased := by
  rw [release_snd, IdCache.insert]
  split <;> rfl

/-- Reusing an allocatable id leaves it taken; any other id leaves the cache as it is. -/
theorem reuse_ids (cache : IdCache) (id : EndpointId) :
    (reuse cache id).2.ids
      = if EndpointId.Allocatable id then cache.ids.erase id else cache.ids := by
  unfold reuse
  by_cases hmin : id < minId
  · have hnot : ¬ EndpointId.Allocatable id := fun h => absurd h.1 (not_le.mpr hmin)
    rw [if_pos hmin, if_neg hnot]
  · rw [if_neg hmin]
    by_cases hmax : maxId < id
    · have hnot : ¬ EndpointId.Allocatable id := fun h => absurd h.2 (not_le.mpr hmax)
      rw [if_pos hmax, if_neg hnot]
    · have hin : EndpointId.Allocatable id := ⟨not_lt.mp hmin, not_lt.mp hmax⟩
      rw [if_neg hmax, if_pos hin]
      split <;> rfl

/-- Reusing an allocatable id succeeds exactly when the id is free. -/
theorem reuse_isOk (cache : IdCache) {id : EndpointId} (h : EndpointId.Allocatable id) :
    (reuse cache id).1.isOk = decide (id ∈ cache.ids) := by
  rw [reuse, if_neg (not_lt.mpr h.1), if_neg (not_lt.mpr h.2), IdCache.remove]
  by_cases hfree : id ∈ cache.ids
  · simp [hfree, Except.isOk, Except.toBool]
  · simp [hfree, Except.isOk, Except.toBool]

/-- Reusing an id never makes another one leased. -/
theorem reuse_leased (cache : IdCache) (id : EndpointId) (h : cache.leased = ∅) :
    (reuse cache id).2.leased = ∅ := by
  unfold reuse IdCache.remove
  split
  · exact h
  · split
    · exact h
    · split <;> simp [h]

end IdAllocator

end Sarena
