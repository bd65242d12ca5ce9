import Sarena.Endpoint.Manager
import Sarena.Lib.Run

namespace Sarena

open Lib

/-!
# Endpoint — soundness of the lookup indexes

An index entry is sound when the endpoint it yields exists and carries the key it was
found under.  `remove_references` and `remove_all` clean one index of six, and
`update_references` keys the docker index by the container id, so soundness is lost as
soon as one of these matters.  This file finds out exactly when.

* `IndexSound` — every entry of every index is sound;
* `ManagerCall`, `ManagerCall.Step` — the calls that change the manager, each atomic;
* `ManagerCall.Safe` — the condition, on the state before a call, under which the call
  touches no entry it leaves behind;
* `indexSound_always_iff` — the runs with sound indexes throughout are exactly those
  whose calls are all safe.
-/

/-- Every index entry yields an endpoint that exists and carries the key. -/
def IndexSound (inner : EndpointManagerInner) : Prop :=
  ∀ k id, inner.lookup k = some id →
    ∃ ep, inner.endpoints id = some ep ∧ ep.status.persist.carries k

/-- A call that changes the manager.  `persistUpdate` is an endpoint taking on new
    persisted data and handing it to `update_references`; `updateReferences` is that
    function on its own. -/
inductive ManagerCall
  | addEndpoint (persist : EndpointPersist)
  | deleteEndpoint (id : EndpointId) (timeout : Option Nat)
  | updateReferences (id : EndpointId) (persist : EndpointPersist)
  | persistUpdate (id : EndpointId) (persist : EndpointPersist)
  | removeAll

namespace EndpointManagerInner

/-- The endpoint of the id, if there is one, now has the given persisted data. -/
def setPersist (inner : EndpointManagerInner) (id : EndpointId) (p : EndpointPersist) :
    EndpointManagerInner :=
  { inner with endpoints := fun i =>
      if i = id then
        (inner.endpoints id).map (fun ep => { ep with status := { ep.status with persist := p } })
      else inner.endpoints i }

@[simp] theorem lookup_setPersist (inner : EndpointManagerInner) (id : EndpointId)
    (p : EndpointPersist) : (inner.setPersist id p).lookup = inner.lookup := by
  funext k
  cases k <;> rfl

end EndpointManagerInner

namespace ManagerCall

/-- One call, from its start to its return. -/
def Step (m : EndpointManager) : ManagerCall → EndpointManager → Prop
  | .addEndpoint persist, m' => m' = (m.addEndpoint persist).2
  | .deleteEndpoint id timeout, m' =>
      ∃ result tr, Exec EndpointManager.sem (Sarena.deleteEndpoint id timeout) m tr
        (.pure result) m'
  | .updateReferences id persist, m' =>
      m' = { m with inner := m.inner.updateReferences id persist }
  | .persistUpdate id persist, m' =>
      m' = { m with inner := (m.inner.setPersist id persist).updateReferences id persist }
  | .removeAll, m' => m' = m.removeAll

/-- The condition on the state before a call under which it leaves no stale entry. -/
def Safe (m : EndpointManager) : ManagerCall → Prop
  | .addEndpoint persist => m.inner.endpoints persist.id = none →
      ∀ c, persist.containerId = some c → persist.dockerEndpoint = some c
  | .deleteEndpoint id _ => ∀ k, k.isContainerName = false → m.inner.lookup k ≠ some id
  | .updateReferences id persist => ∀ k, persist.inserts k →
      ∃ ep, m.inner.endpoints id = some ep ∧ ep.status.persist.carries k
  | .persistUpdate id persist =>
      (∀ k, persist.inserts k → m.inner.endpoints id ≠ none ∧ persist.carries k) ∧
        ∀ k, k.isContainerName = false → m.inner.lookup k = some id → persist.carries k
  | .removeAll => ∀ k, k.isContainerName = false → m.inner.lookup k = none

end ManagerCall

/-! ### Each call keeps soundness exactly when it is safe -/

namespace IndexSound

variable {m : EndpointManager}

private theorem updateReferences_iff {inner : EndpointManagerInner} (id : EndpointId)
    (p : EndpointPersist) (hs : ∀ k i, ¬ p.inserts k → inner.lookup k = some i →
      (k.isContainerName = true → i ≠ id) →
      ∃ ep, inner.endpoints i = some ep ∧ ep.status.persist.carries k) :
    IndexSound (inner.updateReferences id p) ↔
      ∀ k, p.inserts k → ∃ ep, inner.endpoints id = some ep ∧ ep.status.persist.carries k := by
  constructor
  · intro h k hk
    exact h k id ((EndpointManagerInner.lookup_updateReferences inner id p k id).mpr
      (.inl ⟨hk, rfl⟩))
  · intro h k i hki
    obtain ⟨hk, rfl⟩ | ⟨hk, hold, hname⟩ :=
      (EndpointManagerInner.lookup_updateReferences inner id p k i).mp hki
    · exact h k hk
    · exact hs k i hk hold hname

private theorem addEndpoint_iff (hs : IndexSound m.inner) (p : EndpointPersist) :
    IndexSound (m.addEndpoint p).2.inner ↔ ManagerCall.Safe m (.addEndpoint p) := by
  unfold EndpointManager.addEndpoint
  show _ ↔ (m.inner.endpoints p.id = none → ∀ c, p.containerId = some c → p.dockerEndpoint = some c)
  cases hfree : m.inner.endpoints p.id with
  | some ep => simp [hs]
  | none =>
    have hnew : (m.inner.addEndpoint (.new p)).endpoints p.id = some (.new p) :=
      KeyMap.insert_self _ _ _
    rw [Option.isSome_none, if_neg Bool.false_ne_true, updateReferences_iff]
    · rw [hnew, ← EndpointPersist.inserts_carried_iff]
      simp [Endpoint.new]
    · -- No old entry yields the new id: it would be sound, and the id had no endpoint.
      intro k i _ hk _
      rw [EndpointManagerInner.lookup_addEndpoint] at hk
      obtain ⟨ep, hep, hcar⟩ := hs k i hk
      have hne : i ≠ p.id := by
        rintro rfl
        rw [hfree] at hep
        cases hep
      exact ⟨ep, by rw [← hep]; exact KeyMap.insert_of_ne _ _ hne, hcar⟩

private theorem deleteEndpoint_iff (hs : IndexSound m.inner) (id : EndpointId) :
    IndexSound ((m.inner.removeReferences id).removeId id).2 ↔
      ∀ k, k.isContainerName = false → m.inner.lookup k ≠ some id := by
  have hgone : ((m.inner.removeReferences id).removeId id).2.endpoints id = none := by
    simp [EndpointManagerInner.removeId]
  constructor
  · intro h k hk hlook
    obtain ⟨ep, hep, _⟩ := h k id (by
      rw [EndpointManagerInner.lookup_removeId, EndpointManagerInner.lookup_removeReferences]
      exact ⟨hlook, by simp [hk]⟩)
    rw [hgone] at hep
    cases hep
  · intro h k i hki
    rw [EndpointManagerInner.lookup_removeId,
      EndpointManagerInner.lookup_removeReferences] at hki
    obtain ⟨hlook, hname⟩ := hki
    have hne : i ≠ id := by
      cases hk : k.isContainerName with
      | true => exact hname hk
      | false => rintro rfl; exact h k hk hlook
    obtain ⟨ep, hep, hcar⟩ := hs k i hlook
    exact ⟨ep, by simpa [EndpointManagerInner.removeId, KeyMap.remove_apply, hne] using hep, hcar⟩

private theorem persistUpdate_iff (hs : IndexSound m.inner) (id : EndpointId)
    (p : EndpointPersist) :
    IndexSound ((m.inner.setPersist id p).updateReferences id p) ↔
      ManagerCall.Safe m (.persistUpdate id p) := by
  have hself : ∀ k, (∃ ep, (m.inner.setPersist id p).endpoints id = some ep ∧
      ep.status.persist.carries k) ↔ m.inner.endpoints id ≠ none ∧ p.carries k := by
    intro k
    cases h : m.inner.endpoints id <;> simp [EndpointManagerInner.setPersist, h]
  have hother : ∀ i, i ≠ id → (m.inner.setPersist id p).endpoints i = m.inner.endpoints i :=
    fun i hi => if_neg hi
  constructor
  · intro h
    refine ⟨fun k hk => (hself k).mp (h k id ?_), fun k hname hlook => ?_⟩
    · rw [EndpointManagerInner.lookup_updateReferences]
      exact .inl ⟨hk, rfl⟩
    · refine ((hself k).mp (h k id ?_)).2
      rw [EndpointManagerInner.lookup_updateReferences,
        EndpointManagerInner.lookup_setPersist]
      by_cases hk : p.inserts k
      · exact .inl ⟨hk, rfl⟩
      · exact .inr ⟨hk, hlook, by simp [hname]⟩
  · rintro ⟨hins, hkept⟩ k i hki
    rw [EndpointManagerInner.lookup_updateReferences,
      EndpointManagerInner.lookup_setPersist] at hki
    obtain ⟨hk, rfl⟩ | ⟨_, hlook, hname⟩ := hki
    · exact (hself k).mpr (hins k hk)
    · obtain ⟨ep, hep, hcar⟩ := hs k i hlook
      by_cases hi : i = id
      · subst hi
        have hk : k.isContainerName = false := by
          cases h : k.isContainerName with
          | false => rfl
          | true => exact absurd rfl (hname h)
        exact (hself k).mpr ⟨by simp [hep], hkept k hk hlook⟩
      · exact ⟨ep, (hother i hi).trans hep, hcar⟩

private theorem removeAll_iff (m : EndpointManager) :
    IndexSound m.removeAll.inner ↔ ManagerCall.Safe m .removeAll := by
  constructor
  · intro h k hk
    cases hlook : m.inner.lookup k with
    | none => rfl
    | some i =>
      obtain ⟨ep, hep, _⟩ :=
        h k i ((EndpointManagerInner.lookup_removeAll m.inner k i).mpr ⟨hlook, hk⟩)
      cases hep
  · intro h k i hki
    obtain ⟨hlook, hk⟩ := (EndpointManagerInner.lookup_removeAll m.inner k i).mp hki
    rw [h k hk] at hlook
    cases hlook

/-- **Step.** From sound indexes, a call leads to sound indexes exactly when it is safe. -/
theorem step_iff {call : ManagerCall} {m' : EndpointManager} (h : ManagerCall.Step m call m')
    (hs : IndexSound m.inner) : IndexSound m'.inner ↔ ManagerCall.Safe m call := by
  cases call with
  | addEndpoint p => rw [show m' = _ from h]; exact addEndpoint_iff hs p
  | deleteEndpoint id timeout =>
    obtain ⟨result, tr, hx⟩ := h
    rw [deleteEndpoint_exec hx]
    exact deleteEndpoint_iff hs id
  | updateReferences id p =>
    rw [show m' = _ from h]
    exact updateReferences_iff id p fun k i _ hlook _ => hs k i hlook
  | persistUpdate id p => rw [show m' = _ from h]; exact persistUpdate_iff hs id p
  | removeAll => rw [show m' = _ from h]; exact removeAll_iff m

end IndexSound

/-! ### Runs -/

/-- **Exact condition.** In a run of the manager, every entry of every index is sound in
    every state exactly when every call of the run is safe. -/
theorem indexSound_always_iff {m : EndpointManager}
    (run : Run ManagerCall.Step EndpointManager.new m) :
    run.Always (fun m => IndexSound m.inner) ↔
      run.EachStep (fun m call _ => ManagerCall.Safe m call) := by
  refine Run.always_iff_eachStep ?_ trivial (fun _ _ _ _ _ _ _ => trivial) ?_ run
  · intro k id hk
    rw [show EndpointManager.new.inner = EndpointManagerInner.new from rfl,
      EndpointManagerInner.lookup_new] at hk
    cases hk
  · exact fun _ _ _ h hs _ => IndexSound.step_iff h hs

/-- A pod's data as a create request gives it, without a docker endpoint. -/
def podPersist : EndpointPersist :=
  { id := 1, containerId := some "c1", ipv4 := some 0x0A000001 }

/-- **Stale entries.** After one endpoint is added and deleted again, its container id
    and its IPv4 address still yield its id, though the id has no endpoint. -/
theorem deleted_endpoint_still_indexed :
    ∃ m, ∃ _ : Run ManagerCall.Step EndpointManager.new m,
      m.inner.endpoints 1 = none ∧ m.inner.lookup (.containerId "c1") = some 1 ∧
        m.inner.lookup (.ipv4 0x0A000001) = some 1 ∧ ¬ IndexSound m.inner := by
  have hdelete : Exec EndpointManager.sem (deleteEndpoint 1 none)
      (EndpointManager.new.addEndpoint podPersist).2 _ (.pure (.ok ())) _ :=
    .step _ _ _ _ _ _ _ _ ⟨rfl, rfl⟩ (.step _ _ _ () _ _ _ _ rfl (.step _ _ _ (.ok ()) _ _ _ _ rfl
      (.step _ _ _ (.ok ()) _ _ _ _ rfl (.step _ _ _ _ _ _ _ _ ⟨rfl, rfl⟩ (.refl _ _)))))
  have hadd : ManagerCall.Step .new (.addEndpoint podPersist)
      (EndpointManager.new.addEndpoint podPersist).2 := rfl
  have hdel : ManagerCall.Step (EndpointManager.new.addEndpoint podPersist).2
      (.deleteEndpoint 1 none) _ := ⟨_, _, hdelete⟩
  refine ⟨_, .snoc _ (.snoc _ .nil _ _ hadd) _ _ hdel, rfl, rfl, rfl, fun h => ?_⟩
  obtain ⟨ep, hep, _⟩ := h (.containerId "c1") 1 rfl
  cases hep

end Sarena
