import Sarena.Ipam.Interval
import Sarena.Ipam.Service
import Sarena.Lib.Bytes

namespace Sarena

open Lib

/-!
# IPAM — the arithmetic of the host-scope allocator

The functions of the allocator once more, with every shift, addition, subtraction and
multiplication checked at the width of the source's types: `u32` for prefix lengths, `u64` for
the size of a block, `usize` for offsets and `u128` for addresses.

* `HostScopeAllocator.NoFault` — none of them faults, for a block and every allocator of it;
* `no_fault_iff` — this holds of every block but the IPv6 block of prefix length 0, where
  `count_ips_in_cidr` shifts by the full width.
-/

/-! ### The bitmap -/

namespace AllocationBitmap

/-- The inner loop of `for_each`, with the counter of its positions checked. -/
def visitBitsChecked (word : BitVec 64) (bit : Nat) : Checked (List Nat) :=
  if _h : word.toNat = 0 then pure []
  else do
    let next ← Checked.add 64 bit 1
    let rest ← visitBitsChecked (word >>> 1) next
    return if word &&& 1 == 1 then bit :: rest else rest
termination_by word.toNat
decreasing_by
  rw [BitVec.toNat_ushiftRight, Nat.shiftRight_eq_div_pow]
  omega

/-- `AllocationBitmap::for_each`, checked. -/
def forEachChecked {α : Type} (b : AllocationBitmap) (f : Nat → Checked α) :
    Checked (List α) := do
  let visited ← (List.range ((b.max + 63) / 64)).mapM fun wordIdx => do
    let bits ← visitBitsChecked (b.words[wordIdx]?.getD 0) 0
    bits.mapM fun bit => do
      let start ← Checked.mul 64 wordIdx 64
      let offset ← Checked.add 64 start bit
      f offset
  return visited.flatten

/-- A word whose bits lie below position 64 when it is shifted to `bit` is gone through with
    a counter that never passes 64. -/
theorem visitBitsChecked_eq (word : BitVec 64) (bit : Nat) (h : word.toNat * 2 ^ bit < 2 ^ 64) :
    visitBitsChecked word bit = .ok (visitBits word bit) := by
  induction word, bit using visitBitsChecked.induct with
  | case1 word bit hzero =>
    rw [visitBitsChecked, visitBits, dif_pos hzero, dif_pos hzero]
    rfl
  | case2 word bit hne ih =>
    have hbit : 2 ^ bit < 2 ^ 64 := Nat.lt_of_le_of_lt (Nat.le_mul_of_pos_left _ (by omega)) h
    have hlt : bit < 64 := (Nat.pow_lt_pow_iff_right (by decide)).mp hbit
    have hshift : (word >>> 1).toNat * 2 ^ (bit + 1) < 2 ^ 64 := by
      rw [BitVec.toNat_ushiftRight, Nat.shiftRight_eq_div_pow, Nat.pow_one, Nat.pow_succ',
        ← Nat.mul_assoc]
      exact Nat.lt_of_le_of_lt (Nat.mul_le_mul_right _ (Nat.div_mul_le_self _ 2)) h
    rw [visitBitsChecked, visitBits, dif_neg hne, dif_neg hne, Checked.add_ok (by omega)]
    show (do
      let rest ← visitBitsChecked (word >>> 1) (bit + 1)
      return if word &&& 1 == 1 then bit :: rest else rest) = _
    rw [ih (bit + 1) hshift]
    show Except.ok _ = _
    split <;> rfl

/-- `for_each` visits its offsets without a fault, when its function has none on them. -/
theorem forEachChecked_eq {α : Type} (b : AllocationBitmap) (hmax : b.max < 2 ^ 64)
    {f : Nat → Checked α} {g : Nat → α}
    (hf : ∀ offset, b.has offset = true → f offset = .ok (g offset)) :
    b.forEachChecked f = .ok (b.forEach.map g) := by
  have hword : ∀ wordIdx ∈ List.range ((b.max + 63) / 64), (do
      let bits ← visitBitsChecked (b.words[wordIdx]?.getD 0) 0
      bits.mapM fun bit => do
        let start ← Checked.mul 64 wordIdx 64
        let offset ← Checked.add 64 start bit
        f offset) = .ok (((visitBits (b.words[wordIdx]?.getD 0) 0).map
          fun bit => wordIdx * 64 + bit).map g) := by
    intro wordIdx hmem
    have hlt := List.mem_range.mp hmem
    rw [visitBitsChecked_eq _ _ (by rw [Nat.pow_zero, Nat.mul_one]; exact BitVec.isLt _)]
    rw [List.map_map]
    apply Checked.mapM_ok
    intro bit hbit
    -- A visited bit is a used offset, and those lie below `max`.
    have hhas : b.has (wordIdx * 64 + bit) = true := by
      rw [← b.mem_forEach, forEach]
      exact List.mem_flatMap.mpr ⟨wordIdx, hmem, List.mem_map.mpr ⟨bit, hbit, rfl⟩⟩
    have hbound := has_lt hhas
    rw [Checked.mul_ok (by omega)]
    show (Checked.add 64 (wordIdx * 64) bit >>= f) = _
    rw [Checked.add_ok (by omega)]
    exact hf _ hhas
  rw [forEachChecked, Checked.mapM_ok hword]
  show Except.ok _ = _
  rw [forEach, List.map_flatMap, List.flatMap]

end AllocationBitmap

/-! ### The allocator -/

namespace HostScopeAllocator

/-- `HostScopeAllocator::size`, checked. -/
def sizeChecked (n : IpNet) : Checked Nat := do
  let hostBits ← Checked.sub n.maxPrefixLen n.prefixLen
  if (n.maxPrefixLen = 32 ∧ hostBits ≥ 31) ∨ (n.maxPrefixLen = 128 ∧ hostBits ≥ 127) then
    return 0
  if n.maxPrefixLen = 128 ∧ hostBits ≥ 16 then Checked.shl 64 1 16
  else Checked.shl 64 1 hostBits

/-- `HostScopeAllocator::new`, checked: the base and the number of addresses. -/
def newChecked (cidr : IpNet) : Checked (Nat × Nat) := do
  let size ← sizeChecked cidr
  let max ← if size > 2 then Checked.sub size 2 else pure size
  let base ← if size > 2 then Checked.add 128 cidr.network.toU128 1 else pure cidr.network.toU128
  return (base, max)

/-- `HostScopeAllocator::contains`, checked: `checked_sub` and `try_from` do not fault. -/
def containsChecked (a : HostScopeAllocator) (ip : IpAddr) : Checked (Option Nat) :=
  if !a.net.contains ip then pure none
  else
    match Checked.sub ip.toU128 a.base with
    | .error _ => pure none
    | .ok offset => pure (if offset < 2 ^ 64 ∧ offset < a.max then some offset else none)

/-- `offset_to_ip`, checked. -/
def offsetToIpChecked (base offset : Nat) (net : IpNet) : Checked IpAddr := do
  let value ← Checked.add 128 base offset
  return net.ofNat value

/-- `count_ips_in_cidr`. -/
def countIpsInCidr (n : IpNet) : Checked Nat := do
  if n.prefixLen = n.maxPrefixLen then return 0
  let hostBits ← Checked.sub n.maxPrefixLen n.prefixLen
  let size ← Checked.shl 128 1 hostBits
  Checked.sub size 2

/-- `HostScopeAllocator::dump`. -/
def dump (text : IpText) (a : HostScopeAllocator) :
    Checked (HashMap String (HashMap String String) × String) := do
  let ips ← a.alloc.forEachChecked fun offset => offsetToIpChecked a.base offset a.net
  let alloc := ips.foldl (fun alloc ip => alloc.insert (text.showAddr ip) "")
    (∅ : HashMap String String)
  let maxIps ← countIpsInCidr a.net
  let status := s!"{alloc.entries.length}/{maxIps} allocated from {a.net.display text}"
  return (AList.singleton POOL_DEFAULT alloc, status)

/-! ### Which blocks fault -/

/-- No step of the arithmetic faults: in making the allocator of the block, and for every
    allocator of the block in testing containment, in converting its offsets to addresses,
    in counting the block's addresses and in the dump. -/
structure NoFault (text : IpText) (n : IpNet) : Prop where
  size : (sizeChecked n).Returns fun _ => True
  new : (newChecked n).Returns fun _ => True
  contains : ∀ a : HostScopeAllocator, a.net = n →
    ∀ ip, (containsChecked a ip).Returns fun _ => True
  offsetToIp : ∀ a : HostScopeAllocator, a.net = n → ∀ offset, offset < a.max →
    (offsetToIpChecked a.base offset a.net).Returns fun _ => True
  count : (countIpsInCidr n).Returns fun _ => True
  dump : ∀ a : HostScopeAllocator, a.net = n → (dump text a).Returns fun _ => True

/-- The widths of the two families. -/
theorem width_cases (n : IpNet) : (n.family = .ipv4 ∧ n.maxPrefixLen = 32) ∨
    (n.family = .ipv6 ∧ n.maxPrefixLen = 128) := by
  cases n with
  | v4 ip len => exact .inl ⟨rfl, rfl⟩
  | v6 ip len => exact .inr ⟨rfl, rfl⟩

theorem prefixLen_le (n : IpNet) : n.prefixLen ≤ n.maxPrefixLen := by
  cases n with
  | v4 ip len => exact Nat.le_of_lt_succ len.isLt
  | v6 ip len => exact Nat.le_of_lt_succ len.isLt

theorem sizeChecked_eq (n : IpNet) : sizeChecked n = .ok (size n) := by
  have hwidth := width_cases n
  have hhost : n.hostBits = n.maxPrefixLen - n.prefixLen := rfl
  rw [sizeChecked, Checked.sub_ok (prefixLen_le n), size, ← hhost]
  show (if _ then _ else _) = _
  split
  · rfl
  · show (if _ then _ else _) = _
    split
    · rfl
    · have hpow : 1 * 2 ^ n.hostBits < 2 ^ 64 := by
        rw [Nat.one_mul]
        exact Nat.pow_lt_pow_right (by decide) (by omega)
      rw [Checked.shl_ok (by omega) hpow, Nat.one_mul]

/-- An address is a number of 128 bits. -/
theorem networkNat_lt (n : IpNet) : n.networkNat + 2 ^ n.hostBits ≤ 2 ^ 128 := by
  have hwidth := width_cases n
  have hpow : 2 ^ n.maxPrefixLen ≤ 2 ^ 128 := Nat.pow_le_pow_right (by decide) (by omega)
  exact Nat.le_trans n.networkNat_add_le hpow

theorem newChecked_eq (n : IpNet) : newChecked n = .ok (firstAddress n, capacity n) := by
  have hsize := size_le n
  have hspace := networkNat_lt n
  have hnet := n.toU128_network
  rw [newChecked, sizeChecked_eq, firstAddress, capacity]
  show (do
    let max ← if size n > 2 then Checked.sub (size n) 2 else pure (size n)
    let base ← if size n > 2 then Checked.add 128 n.network.toU128 1 else pure n.network.toU128
    return (base, max)) = _
  split
  next h =>
    rw [Checked.sub_ok (by omega), Checked.add_ok (by omega)]
    rfl
  next => rfl

variable (a : HostScopeAllocator)

theorem containsChecked_eq (ip : IpAddr) : containsChecked a ip = .ok (a.contains ip) := by
  rw [containsChecked, contains]
  split
  · rfl
  · split
    next h =>
      rw [Checked.sub] at h
      split at h
      · cases h
      next hlt =>
        rw [if_pos (by omega)]
        rfl
    next offset h =>
      rw [Checked.sub] at h
      split at h
      next hle =>
        obtain rfl := Except.ok.inj h
        rw [if_neg (show ¬ ip.toU128 < a.base by omega)]
        rfl
      · cases h

theorem offsetToIpChecked_eq {offset : Nat} (h : offset < a.max) :
    offsetToIpChecked a.base offset a.net = .ok (offsetToIp a.base offset a.net) := by
  have hend := a.range_bounds.2
  have hspace := networkNat_lt a.net
  rw [offsetToIpChecked, Checked.add_ok (by omega)]
  rfl

/-- **The count of the addresses.** It shifts by the full width for the shortest prefix of
    IPv6, and for no other. -/
theorem countIpsInCidr_returns (n : IpNet) :
    (countIpsInCidr n).Returns (fun _ => True) ↔ ¬ (n.family = .ipv6 ∧ n.prefixLen = 0) := by
  have hwidth := width_cases n
  have hle := prefixLen_le n
  rw [countIpsInCidr]
  by_cases hfull : n.prefixLen = n.maxPrefixLen
  · rw [if_pos hfull]
    refine iff_of_true ⟨0, rfl, trivial⟩ ?_
    rintro ⟨-, hzero⟩
    omega
  rw [if_neg hfull, Checked.sub_ok hle]
  show (Checked.shl 128 1 (n.maxPrefixLen - n.prefixLen) >>= fun size => Checked.sub size 2).Returns
    _ ↔ _
  -- One is shifted by the host bits, which are too many only for the whole of IPv6.
  by_cases hhost : n.maxPrefixLen - n.prefixLen < 128
  · have hpow : 1 * 2 ^ (n.maxPrefixLen - n.prefixLen) < 2 ^ 128 := by
      rw [Nat.one_mul]
      exact Nat.pow_lt_pow_right (by decide) hhost
    have htwo : 2 ^ 1 ≤ 2 ^ (n.maxPrefixLen - n.prefixLen) :=
      Nat.pow_le_pow_right (by decide) (by omega)
    rw [Checked.shl_ok hhost hpow]
    refine iff_of_true ⟨_, Checked.sub_ok (by omega), trivial⟩ ?_
    rintro ⟨hfam, hzero⟩
    rw [hfam] at hwidth
    simp only [reduceCtorEq, true_and, false_and, false_or] at hwidth
    omega
  · refine iff_of_false ?_ ?_
    · rw [Checked.shl, if_neg hhost]
      rintro ⟨_, h, -⟩
      cases h
    · rw [not_not]
      obtain ⟨-, hmax⟩ | ⟨hfam, hmax⟩ := hwidth
      · omega
      · exact ⟨hfam, by omega⟩

/-- **The dump.** It faults exactly when counting the addresses of the block does; its keys
    are the texts of the held addresses. -/
theorem dump_eq (text : IpText) :
    dump text a = (countIpsInCidr a.net).map fun maxIps =>
      let alloc := a.forEach.foldl (fun alloc ip => alloc.insert (text.showAddr ip) "")
        (∅ : HashMap String String)
      (AList.singleton POOL_DEFAULT alloc,
        s!"{alloc.entries.length}/{maxIps} allocated from {a.net.display text}") := by
  have hips : a.alloc.forEachChecked (fun offset => offsetToIpChecked a.base offset a.net) =
      .ok a.forEach := by
    refine a.alloc.forEachChecked_eq (a.alloc_max ▸ a.max_lt_usize) fun offset hhas => ?_
    exact a.offsetToIpChecked_eq (a.alloc_max ▸ AllocationBitmap.has_lt hhas)
  rw [dump, hips]
  show (countIpsInCidr a.net >>= _) = _
  cases countIpsInCidr a.net <;> rfl

/-- **Exact condition.** The arithmetic of the allocator is free of faults for every block
    but the IPv6 block of prefix length 0. -/
theorem no_fault_iff (text : IpText) (n : IpNet) :
    NoFault text n ↔ ¬ (n.family = .ipv6 ∧ n.prefixLen = 0) := by
  rw [← countIpsInCidr_returns]
  constructor
  · exact NoFault.count
  · intro hcount
    refine ⟨⟨_, sizeChecked_eq n, trivial⟩, ⟨_, newChecked_eq n, trivial⟩, ?_, ?_, hcount, ?_⟩
    · intro a _ ip
      exact ⟨_, a.containsChecked_eq ip, trivial⟩
    · intro a _ offset hlt
      exact ⟨_, a.offsetToIpChecked_eq hlt, trivial⟩
    · rintro a rfl
      obtain ⟨maxIps, hcount, -⟩ := hcount
      rw [dump_eq, hcount]
      exact ⟨_, rfl, trivial⟩

/-- A text that names every address as the one of all zeros. -/
def unspecifiedText : IpText where
  parseNet _ := none
  parseAddr _ := .error "invalid IP address syntax"
  showAddr _ := "::"

/-- **The default route of IPv6.** Dumping the allocator of `::/0` shifts `1` by 128 bits. -/
theorem default_route_faults :
    dump unspecifiedText (new (.v6 0 0)) = .error .arithmeticOverflow ∧
      ¬ NoFault unspecifiedText (.v6 0 0) := by
  constructor
  · rw [dump_eq]
    rfl
  · intro h
    obtain ⟨_, hcount, -⟩ := h.count
    cases hcount

end HostScopeAllocator

end Sarena
