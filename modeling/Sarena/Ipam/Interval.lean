import Mathlib.Data.Set.Insert
import Sarena.Ipam.HostScope
import Sarena.Lib.Run

namespace Sarena

open Lib

/-!
# IPAM — the host-scope allocator as a set over an interval

What the allocator is for: a set of held addresses that grows and shrinks inside a fixed
interval of the block.  This file states that set machine in its own terms and shows that
every run of `HostScopeAllocator` is a run of it.

* `blockSize`, `Assignable` — the interval of a block;
* `IntervalStep` — the set machine, with the result of every call;
* `HostScopeAllocator.refines_interval` — every call of every run answers and changes the
  held addresses as the set machine does.
-/

/-- The size of a block: its addresses, at most `2 ^ 16` of them for IPv6, and none for the
    prefix lengths 0 and 1. -/
def blockSize (n : IpNet) : Nat :=
  if n.prefixLen ≤ 1 then 0
  else
    match n.family with
    | .ipv4 => 2 ^ n.hostBits
    | .ipv6 => min (2 ^ n.hostBits) (2 ^ 16)

/-- The interval of a block: without its first address and the last of its size when there
    are more than two. -/
def Assignable (n : IpNet) (ip : IpAddr) : Prop :=
  ip.family = n.family ∧
    if blockSize n > 2 then
      n.networkNat + 1 ≤ ip.toU128 ∧ ip.toU128 ≤ n.networkNat + blockSize n - 2
    else n.networkNat ≤ ip.toU128 ∧ ip.toU128 < n.networkNat + blockSize n

/-- A call of the allocator with its result. -/
inductive HostScopeEvent
  | allocate (ip : IpAddr) (result : Except IpamError IpAddr)
  | allocateNext (result : Except IpamError IpAddr)
  | release (ip : IpAddr)
  | forEach (visited : List IpAddr)

/-- The set machine of a block: `held` are the addresses in use. -/
def IntervalStep (text : IpText) (n : IpNet) (held : Set IpAddr) :
    HostScopeEvent → Set IpAddr → Prop
  | .allocate ip result, held' =>
      (result = .ok ip ↔ Assignable n ip ∧ ip ∉ held) ∧
        (result = .error (.notInRange (n.display text)) ↔ ¬ Assignable n ip) ∧
        (result = .error .alreadyAllocated ↔ ip ∈ held) ∧
        (held' = insert ip held ∧ result = .ok ip ∨ held' = held ∧ result ≠ .ok ip)
  | .allocateNext result, held' =>
      (result = .error .rangeFull ↔ ∀ ip, Assignable n ip → ip ∈ held) ∧
        (result = .error .rangeFull ∧ held' = held ∨
          ∃ ip, result = .ok ip ∧ Assignable n ip ∧ ip ∉ held ∧ held' = insert ip held)
  | .release ip, held' => held' = held \ {ip}
  | .forEach visited, held' =>
      held' = held ∧ visited.Nodup ∧ ∀ ip, ip ∈ visited ↔ ip ∈ held

/-! ### The interval -/

/-- The code computes the size of the block. -/
theorem HostScopeAllocator.size_eq (n : IpNet) : size n = blockSize n := by
  have hhost : n.hostBits = n.maxPrefixLen - n.prefixLen := rfl
  have hlen : n.prefixLen ≤ n.maxPrefixLen := by
    cases n with
    | v4 ip len => exact Nat.le_of_lt_succ len.isLt
    | v6 ip len => exact Nat.le_of_lt_succ len.isLt
  have hfam : (n.family = .ipv4 ∧ n.maxPrefixLen = 32) ∨
      (n.family = .ipv6 ∧ n.maxPrefixLen = 128) := by
    cases n with
    | v4 ip len => exact .inl ⟨rfl, rfl⟩
    | v6 ip len => exact .inr ⟨rfl, rfl⟩
  rw [size, blockSize]
  by_cases h : n.prefixLen ≤ 1
  · rw [if_pos (by omega), if_pos h]
  rw [if_neg (by omega), if_neg h]
  obtain ⟨hf, hmax⟩ | ⟨hf, hmax⟩ := hfam
  · rw [hf, if_neg (by omega)]
  · rw [hf]
    by_cases hcap : 16 ≤ n.hostBits
    · rw [if_pos ⟨hmax, hcap⟩]
      exact (min_eq_right (Nat.pow_le_pow_right (by decide) hcap)).symm
    · rw [if_neg (by omega)]
      exact (min_eq_left (Nat.pow_le_pow_right (by decide) (by omega))).symm

/-- The addresses of the interval lie inside the block, and are of its family. -/
theorem Assignable.contains {n : IpNet} {ip : IpAddr} (h : Assignable n ip) :
    n.contains ip = true := by
  have hsize := HostScopeAllocator.size_le n
  rw [HostScopeAllocator.size_eq] at hsize
  rw [IpNet.contains_iff, IpNet.broadcastNat]
  refine ⟨h.1, ?_⟩
  have hrange := h.2
  split at hrange <;> omega

/-- More than two addresses: the interval leaves out the block's first and last one. -/
theorem Assignable.ne_ends {n : IpNet} {ip : IpAddr} (h : Assignable n ip)
    (hsize : blockSize n > 2) : ip.toU128 ≠ n.networkNat ∧ ip.toU128 ≠ n.broadcastNat := by
  have hle := HostScopeAllocator.size_le n
  rw [HostScopeAllocator.size_eq] at hle
  have hrange := h.2
  rw [if_pos hsize] at hrange
  rw [IpNet.broadcastNat]
  omega

namespace HostScopeAllocator

/-- The held addresses. -/
def heldSet (a : HostScopeAllocator) : Set IpAddr := {ip | a.has ip = true}

theorem mem_heldSet {a : HostScopeAllocator} {ip : IpAddr} :
    ip ∈ a.heldSet ↔ a.has ip = true := Iff.rfl

variable (a : HostScopeAllocator)

/-- The numbered addresses are those of the interval. -/
theorem assignable_iff (ip : IpAddr) :
    Assignable a.net ip ↔ ∃ offset, a.contains ip = some offset := by
  have hbase := a.base_eq
  have hmax := a.max_eq
  rw [firstAddress, size_eq, IpNet.toU128_network] at hbase
  rw [capacity, size_eq] at hmax
  have hend := a.range_bounds.2
  have hspace := a.net.networkNat_add_le
  have hrange : ∀ num, (if blockSize a.net > 2 then
      a.net.networkNat + 1 ≤ num ∧ num ≤ a.net.networkNat + blockSize a.net - 2
      else a.net.networkNat ≤ num ∧ num < a.net.networkNat + blockSize a.net) ↔
        a.base ≤ num ∧ num - a.base < a.max := by
    intro num
    by_cases hsize : blockSize a.net > 2
    · rw [if_pos hsize] at hbase hmax ⊢
      omega
    · rw [if_neg hsize] at hbase hmax ⊢
      omega
  rw [Assignable, hrange]
  constructor
  · rintro ⟨hfam, hge, hlt⟩
    refine ⟨ip.toU128 - a.base, a.contains_eq_some.mpr ⟨hlt, ?_⟩⟩
    rw [offsetToIp, Nat.add_sub_cancel' hge, a.net.ofNat_toU128 hfam]
  · rintro ⟨offset, hoffset⟩
    obtain ⟨hlt, rfl⟩ := a.contains_eq_some.mp hoffset
    have hnum : (offsetToIp a.base offset a.net).toU128 = a.base + offset :=
      a.net.toU128_ofNat (by omega)
    rw [hnum, Nat.add_sub_cancel_left]
    exact ⟨IpNet.family_ofNat _ _, by omega, hlt⟩

@[simp] theorem heldSet_new (cidr : IpNet) : (new cidr).heldSet = ∅ := by
  ext ip
  rw [mem_heldSet, has_new]
  exact iff_of_false Bool.false_ne_true (Set.notMem_empty ip)

/-- Held addresses are of the interval. -/
theorem assignable_of_has {ip : IpAddr} (h : a.has ip = true) : Assignable a.net ip := by
  rw [assignable_iff]
  rw [has] at h
  split at h
  next offset hoffset => exact ⟨offset, hoffset⟩
  next => cases h

/-- Taking an address inserts it. -/
theorem heldSet_took {a a' : HostScopeAllocator} {ip : IpAddr} (h : a.Took ip a') :
    a'.heldSet = insert ip a.heldSet := by
  ext j
  rw [mem_heldSet, h.has, Bool.or_eq_true, decide_eq_true_iff, Set.mem_insert_iff, or_comm]
  rfl

/-- The result of `allocate`, case by case. -/
theorem allocate_result (text : IpText) (ip : IpAddr) :
    (Assignable a.net ip ∧ a.has ip = false ∧
      ∃ a', a.allocate text ip = (.ok ip, a') ∧ a.Took ip a') ∨
      (Assignable a.net ip ∧ a.has ip = true ∧ a.allocate text ip = (.error .alreadyAllocated, a)) ∨
      (¬ Assignable a.net ip ∧ a.has ip = false ∧
        a.allocate text ip = (.error (.notInRange (a.net.display text)), a)) := by
  rw [assignable_iff, allocate]
  cases hoffset : a.contains ip with
  | none => exact .inr (.inr ⟨by rintro ⟨_, ⟨⟩⟩, by rw [has, hoffset], rfl⟩)
  | some offset =>
    have hlt : offset < a.alloc.max := a.alloc_max ▸ (a.contains_eq_some.mp hoffset).1
    have hhas : a.has ip = a.alloc.has offset := by rw [has, hoffset]
    obtain ⟨b', heq, htaken⟩ | ⟨heq, hused⟩ := a.alloc.allocate_cases offset
    · simp only [heq, if_true]
      exact .inl ⟨⟨offset, rfl⟩, hhas.trans htaken.free, _, rfl, a.took_withAlloc hoffset htaken⟩
    · simp only [heq, Bool.false_eq_true, if_false]
      exact .inr (.inl ⟨⟨offset, rfl⟩, hhas.trans (hused hlt), rfl⟩)

/-- No address is free exactly when the whole interval is held. -/
theorem free_eq_zero_iff : a.free = 0 ↔ ∀ ip, Assignable a.net ip → a.has ip = true := by
  have hmax := a.alloc_max
  have hle := a.alloc.count_le
  have hfree : a.free = 0 ↔ a.alloc.count = a.alloc.max := by
    rw [free, AllocationBitmap.free]
    omega
  rw [hfree]
  constructor
  · intro hfull ip hip
    obtain ⟨offset, hoffset⟩ := (a.assignable_iff ip).mp hip
    rw [has, hoffset, ← Bool.not_eq_false]
    intro hnot
    have hlt := a.alloc.count_lt_of_free (hmax ▸ (a.contains_eq_some.mp hoffset).1) hnot
    omega
  · intro hall
    by_contra hne
    obtain ⟨offset, hlt, hnot⟩ := a.alloc.exists_free (by omega)
    have hoffset := a.contains_offsetToIp (hmax ▸ hlt)
    have hhas := hall _ ((a.assignable_iff _).mpr ⟨offset, hoffset⟩)
    rw [has, hoffset] at hhas
    exact Bool.false_ne_true (hnot.symm.trans hhas)

/-! ### Runs of the allocator -/

/-- One call of the allocator; the draw of `allocate_next` is left open. -/
def Step (text : IpText) (a : HostScopeAllocator) : HostScopeEvent → HostScopeAllocator → Prop
  | .allocate ip result, a' => a.allocate text ip = (result, a')
  | .allocateNext result, a' => ∃ random, a.allocateNext random = (result, a')
  | .release ip, a' => a' = a.release ip
  | .forEach visited, a' => visited = a.forEach ∧ a' = a

variable {a} {text : IpText}

/-- No call changes the block. -/
theorem Step.net {e : HostScopeEvent} {a' : HostScopeAllocator} (h : Step text a e a') :
    a'.net = a.net := by
  cases e with
  | allocate ip result =>
    have := a.net_allocate text ip
    rwa [show a.allocate text ip = _ from h] at this
  | allocateNext result =>
    obtain ⟨random, h⟩ := h
    have := a.net_allocateNext random
    rwa [h] at this
  | release ip =>
    rw [show a' = _ from h]
    exact a.net_release ip
  | forEach visited => rw [h.2]

/-- **Step.** Every call is one of the set machine. -/
theorem Step.interval {e : HostScopeEvent} {a' : HostScopeAllocator} (h : Step text a e a') :
    IntervalStep text a.net a.heldSet e a'.heldSet := by
  cases e with
  | allocate ip result =>
    obtain ⟨hin, hnot, a₁, heq, htook⟩ | ⟨hin, hheld, heq⟩ | ⟨hout, hnot, heq⟩ :=
      a.allocate_result text ip
    all_goals
      obtain ⟨rfl, rfl⟩ := Prod.mk.inj (heq.symm.trans h)
      simp only [IntervalStep, mem_heldSet]
    · simp [hin, hnot, heldSet_took htook]
    · simp [hin, hheld]
    · simp [hout, hnot]
  | allocateNext result =>
    obtain ⟨random, h⟩ := h
    have hfree := a.free_eq_zero_iff
    obtain ⟨ip, a₁, heq, htook⟩ | ⟨heq, hfull⟩ := a.allocateNext_cases random
    · obtain ⟨rfl, rfl⟩ := Prod.mk.inj (heq.symm.trans h)
      have hnew : a₁.has ip = true := by rw [htook.has, decide_eq_true rfl, Bool.or_true]
      have hin : Assignable a.net ip := htook.net ▸ a₁.assignable_of_has hnew
      have hnot : ip ∉ a.heldSet := by
        rw [mem_heldSet, htook.free]
        exact Bool.false_ne_true
      refine ⟨iff_of_false nofun fun hall => hnot (hall ip hin), .inr ⟨ip, rfl, hin, hnot, ?_⟩⟩
      exact heldSet_took htook
    · obtain ⟨rfl, rfl⟩ := Prod.mk.inj (heq.symm.trans h)
      exact ⟨iff_of_true rfl (hfree.mp hfull), .inl ⟨rfl, rfl⟩⟩
  | release ip =>
    rw [show a' = _ from h]
    show (a.release ip).heldSet = a.heldSet \ {ip}
    ext j
    rw [mem_heldSet, has_release, Bool.and_eq_true, decide_eq_true_iff]
    rfl
  | forEach visited =>
    obtain ⟨rfl, rfl⟩ := h
    exact ⟨rfl, a'.forEach_nodup, a'.mem_forEach⟩

/-- **Refinement.** From the empty allocator of any block, every call of every run answers
    and changes the held addresses as the set machine over the block's interval does; the
    interval lies inside the block and leaves out its ends when it has more than two
    addresses. -/
theorem refines_interval (text : IpText) (cidr : IpNet) :
    (new cidr).heldSet = ∅ ∧
      (∀ a (run : Run (Step text) (new cidr) a),
        run.EachStep fun s e t => IntervalStep text cidr s.heldSet e t.heldSet) ∧
      ∀ ip, Assignable cidr ip → cidr.contains ip = true ∧ ip.family = cidr.family ∧
        (blockSize cidr > 2 → ip.toU128 ≠ cidr.networkNat ∧ ip.toU128 ≠ cidr.broadcastNat) := by
  refine ⟨heldSet_new cidr, fun a run => ?_, fun ip hip => ⟨hip.contains, hip.1, hip.ne_ends⟩⟩
  refine Run.eachStep_of_invariant (J := fun a => a.net = cidr) rfl ?_ ?_ run
  · exact fun s e t h hs => h.net.trans hs
  · rintro s e t h rfl
    exact h.interval

end HostScopeAllocator

end Sarena
