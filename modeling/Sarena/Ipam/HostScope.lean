import Mathlib.Algebra.Order.Ring.Nat
import Mathlib.Tactic.NormNum.Pow
import Sarena.Infra.Address
import Sarena.Ipam.Bitmap

namespace Sarena

/-!
# IPAM — the host-scope allocator

`HostScopeAllocator` hands out the addresses of one CIDR block.  It numbers the addresses
it may hand out from `base` on, and keeps the numbers in use in an `AllocationBitmap`.

* `HostScopeAllocator.contains_eq_some` — which address has which number;
* `HostScopeAllocator.Took` — an allocation, as a step on the set of held addresses;
* `allocate_cases`, `allocateNext_cases`, `has_release` — what the operations do to that set.
-/

/-- `IpamError`. -/
inductive IpamError
  | ipv4Disabled
  | ipv6Disabled
  | excludedError (ip owner : String)
  | poolRequiredForAllocate (ip owner : String)
  | poolRequiredForRelease (ip : String)
  | rangeFull
  | alreadyAllocated
  | mismatchedNetwork
  | notInRange (validRange : String)
  | poolDeterminationUnavailable (owner : String)
  deriving DecidableEq, Repr

/-- The two address families. -/
inductive Family
  | ipv4
  | ipv6
  deriving DecidableEq, Repr

/-- The family of an address. -/
def IpAddr.family : IpAddr → Family
  | .v4 _ => .ipv4
  | .v6 _ => .ipv6

namespace IpNet

/-- The family of a block. -/
def family : IpNet → Family
  | .v4 _ _ => .ipv4
  | .v6 _ _ => .ipv6

/-- `Display` of `IpNet`. -/
def display (text : IpText) (n : IpNet) : String :=
  text.showAddr n.addr ++ "/" ++ toString n.prefixLen

@[simp] theorem family_ofNat (n : IpNet) (value : Nat) : (n.ofNat value).family = n.family := by
  cases n <;> rfl

theorem toU128_lt (n : IpNet) : n.addr.toU128 < 2 ^ n.maxPrefixLen := by
  cases n with
  | v4 ip len => exact ip.isLt
  | v6 ip len => exact ip.isLt

theorem hostBits_le (n : IpNet) : n.hostBits ≤ n.maxPrefixLen := Nat.sub_le _ _

/-- The block ends inside the address space. -/
theorem networkNat_add_le (n : IpNet) : n.networkNat + 2 ^ n.hostBits ≤ 2 ^ n.maxPrefixLen := by
  -- Both numbers are multiples of the block's size, and the first address is the smaller.
  obtain ⟨k, hk⟩ : 2 ^ n.hostBits ∣ 2 ^ n.maxPrefixLen := Nat.pow_dvd_pow 2 n.hostBits_le
  have hpos : 0 < 2 ^ n.hostBits := Nat.two_pow_pos _
  have hlt := n.toU128_lt
  have hnet : n.networkNat = 2 ^ n.hostBits * (n.addr.toU128 / 2 ^ n.hostBits) := by
    have hdiv := Nat.div_add_mod n.addr.toU128 (2 ^ n.hostBits)
    rw [networkNat]
    omega
  have hquot : n.addr.toU128 / 2 ^ n.hostBits + 1 ≤ k := by
    rw [hk] at hlt
    exact Nat.div_lt_of_lt_mul hlt
  calc n.networkNat + 2 ^ n.hostBits
      = 2 ^ n.hostBits * (n.addr.toU128 / 2 ^ n.hostBits + 1) := by rw [hnet, Nat.mul_succ]
    _ ≤ 2 ^ n.hostBits * k := Nat.mul_le_mul_left _ hquot
    _ = 2 ^ n.maxPrefixLen := hk.symm

theorem toU128_ofNat (n : IpNet) {value : Nat} (h : value < 2 ^ n.maxPrefixLen) :
    (n.ofNat value).toU128 = value := by
  cases n with
  | v4 ip len => exact (BitVec.toNat_ofNat value 32).trans (Nat.mod_eq_of_lt h)
  | v6 ip len => exact (BitVec.toNat_ofNat value 128).trans (Nat.mod_eq_of_lt h)

/-- An address of the block's family is the one with its number. -/
theorem ofNat_toU128 (n : IpNet) {ip : IpAddr} (h : ip.family = n.family) :
    n.ofNat ip.toU128 = ip := by
  cases n <;> cases ip
  · simp [ofNat, IpAddr.toU128]
  · cases h
  · cases h
  · simp [ofNat, IpAddr.toU128]

theorem contains_iff (n : IpNet) (ip : IpAddr) :
    n.contains ip = true ↔
      ip.family = n.family ∧ n.networkNat ≤ ip.toU128 ∧ ip.toU128 ≤ n.broadcastNat := by
  cases n <;> cases ip <;> simp [contains, IpAddr.family, family, IpAddr.toU128]

@[simp] theorem toU128_network (n : IpNet) : n.network.toU128 = n.networkNat := by
  have hle := n.networkNat_add_le
  have hpos : 0 < 2 ^ n.hostBits := Nat.two_pow_pos _
  exact n.toU128_ofNat (by omega)

end IpNet

/-! ### The allocator -/

/-- `HostScopeAllocator::size`: the block's addresses, capped for IPv6 and zero for the two
    shortest prefixes. -/
def HostScopeAllocator.size (n : IpNet) : Nat :=
  if (n.maxPrefixLen = 32 ∧ n.hostBits ≥ 31) ∨ (n.maxPrefixLen = 128 ∧ n.hostBits ≥ 127) then 0
  else if n.maxPrefixLen = 128 ∧ n.hostBits ≥ 16 then 2 ^ 16
  else 2 ^ n.hostBits

/-- The first address that `HostScopeAllocator::new` may hand out, as a number. -/
def HostScopeAllocator.firstAddress (cidr : IpNet) : Nat :=
  if size cidr > 2 then cidr.network.toU128 + 1 else cidr.network.toU128

/-- How many addresses `HostScopeAllocator::new` may hand out. -/
def HostScopeAllocator.capacity (cidr : IpNet) : Nat :=
  if size cidr > 2 then size cidr - 2 else size cidr

/-- `HostScopeAllocator`.  Its fields never part from the block it was made for. -/
structure HostScopeAllocator where
  net : IpNet
  base : Nat
  max : Nat
  alloc : AllocationBitmap
  base_eq : base = HostScopeAllocator.firstAddress net
  max_eq : max = HostScopeAllocator.capacity net
  alloc_max : alloc.max = max

/-- `offset_to_ip`. -/
def offsetToIp (base offset : Nat) (net : IpNet) : IpAddr := net.ofNat (base + offset)

namespace HostScopeAllocator

/-- `HostScopeAllocator::new`. -/
def new (cidr : IpNet) : HostScopeAllocator where
  net := cidr
  base := firstAddress cidr
  max := capacity cidr
  alloc := .new (capacity cidr)
  base_eq := rfl
  max_eq := rfl
  alloc_max := rfl

/-- `HostScopeAllocator::contains`: the offset of an address that may be handed out. -/
def contains (a : HostScopeAllocator) (ip : IpAddr) : Option Nat :=
  if !a.net.contains ip then none
  else if ip.toU128 < a.base then none
  else
    let offset := ip.toU128 - a.base
    if offset < 2 ^ 64 ∧ offset < a.max then some offset else none

/-- The allocator with another bitmap of its size. -/
def withAlloc (a : HostScopeAllocator) (alloc : AllocationBitmap) (h : alloc.max = a.alloc.max) :
    HostScopeAllocator :=
  { a with alloc := alloc, alloc_max := h.trans a.alloc_max }

/-- `HostScopeAllocator::allocate`. -/
def allocate (text : IpText) (a : HostScopeAllocator) (ip : IpAddr) :
    Except IpamError IpAddr × HostScopeAllocator :=
  match a.contains ip with
  | none => (.error (.notInRange (a.net.display text)), a)
  | some offset =>
    let a' := a.withAlloc (a.alloc.allocate offset).2 (a.alloc.max_allocate offset)
    if (a.alloc.allocate offset).1 then (.ok ip, a') else (.error .alreadyAllocated, a')

/-- `HostScopeAllocator::allocate_next`, with the draw of the bitmap. -/
def allocateNext (a : HostScopeAllocator) (random : Nat) :
    Except IpamError IpAddr × HostScopeAllocator :=
  let a' := a.withAlloc (a.alloc.allocateNext random).2 (a.alloc.max_allocateNext random)
  match (a.alloc.allocateNext random).1 with
  | some offset => (.ok (offsetToIp a.base offset a.net), a')
  | none => (.error .rangeFull, a')

/-- `HostScopeAllocator::release`. -/
def release (a : HostScopeAllocator) (ip : IpAddr) : HostScopeAllocator :=
  match a.contains ip with
  | some offset => a.withAlloc (a.alloc.release offset) (a.alloc.max_release offset)
  | none => a

/-- `HostScopeAllocator::for_each`: the addresses it calls its function with, in order. -/
def forEach (a : HostScopeAllocator) : List IpAddr :=
  a.alloc.forEach.map fun offset => offsetToIp a.base offset a.net

/-- The address is in use. -/
def has (a : HostScopeAllocator) (ip : IpAddr) : Bool :=
  match a.contains ip with
  | some offset => a.alloc.has offset
  | none => false

/-- The number of addresses that may still be handed out. -/
def free (a : HostScopeAllocator) : Nat := a.alloc.free

/-! ### Addresses and their numbers -/

theorem size_le (n : IpNet) : size n ≤ 2 ^ n.hostBits := by
  unfold size
  split
  · exact Nat.zero_le _
  · split
    next h => exact Nat.pow_le_pow_right (by decide) h.2
    next => exact Nat.le_refl _

theorem size_lt_usize (n : IpNet) : size n < 2 ^ 64 := by
  unfold size
  split
  · decide
  · split
    · decide
    · next h₁ h₂ =>
      have hmax : n.maxPrefixLen = 32 ∨ n.maxPrefixLen = 128 := by
        cases n
        · exact .inl rfl
        · exact .inr rfl
      exact Nat.pow_lt_pow_right (by decide) (by omega)

variable (a : HostScopeAllocator)

theorem max_lt_usize : a.max < 2 ^ 64 := by
  have := size_lt_usize a.net
  rw [a.max_eq, capacity]
  split <;> omega

/-- The addresses that may be handed out lie inside the block. -/
theorem range_bounds : a.net.networkNat ≤ a.base ∧
    (0 < a.max → a.base + a.max ≤ a.net.networkNat + 2 ^ a.net.hostBits) := by
  have hle := size_le a.net
  rw [a.base_eq, a.max_eq, firstAddress, capacity, IpNet.toU128_network]
  split <;> omega

/-- **Numbering.** The address with an offset below `max` is the one of the block's family
    that lies that far behind `base`. -/
theorem contains_eq_some {ip : IpAddr} {offset : Nat} :
    a.contains ip = some offset ↔ offset < a.max ∧ ip = offsetToIp a.base offset a.net := by
  obtain ⟨hbase, hend⟩ := a.range_bounds
  have hspace := a.net.networkNat_add_le
  have husize := a.max_lt_usize
  rw [contains]
  constructor
  · intro h
    split at h
    · cases h
    next hin =>
      rw [Bool.not_eq_true', Bool.not_eq_false, IpNet.contains_iff] at hin
      split at h
      · cases h
      next hge =>
        rw [Option.ite_none_right_eq_some] at h
        obtain ⟨hlt, hoffset⟩ := h
        obtain rfl := Option.some.inj hoffset
        refine ⟨hlt.2, ?_⟩
        rw [offsetToIp, show a.base + (ip.toU128 - a.base) = ip.toU128 by omega,
          a.net.ofNat_toU128 hin.1]
  · rintro ⟨hlt, rfl⟩
    have hnum : (offsetToIp a.base offset a.net).toU128 = a.base + offset :=
      a.net.toU128_ofNat (by omega)
    have hin : a.net.contains (offsetToIp a.base offset a.net) = true := by
      rw [IpNet.contains_iff, hnum, IpNet.broadcastNat]
      exact ⟨IpNet.family_ofNat _ _, by omega, by omega⟩
    rw [hin, hnum, Bool.not_true, if_neg Bool.false_ne_true, if_neg (by omega),
      Nat.add_sub_cancel_left, if_pos ⟨by omega, hlt⟩]

theorem contains_offsetToIp {offset : Nat} (h : offset < a.max) :
    a.contains (offsetToIp a.base offset a.net) = some offset :=
  a.contains_eq_some.mpr ⟨h, rfl⟩

/-- Two addresses with one number are one. -/
theorem contains_injective {ip ip' : IpAddr} {offset : Nat} (h : a.contains ip = some offset)
    (h' : a.contains ip' = some offset) : ip = ip' :=
  (a.contains_eq_some.mp h).2.trans (a.contains_eq_some.mp h').2.symm

/-- Only addresses of the block's family are held. -/
theorem family_of_has {ip : IpAddr} (h : a.has ip = true) : ip.family = a.net.family := by
  rw [has] at h
  split at h
  next offset hoffset =>
    rw [(a.contains_eq_some.mp hoffset).2]
    exact IpNet.family_ofNat _ _
  · cases h

/-! ### The operations on the set of held addresses -/

/-- `a'` is the allocator after a free address of `a` was handed out. -/
structure Took (a : HostScopeAllocator) (ip : IpAddr) (a' : HostScopeAllocator) : Prop where
  free : a.has ip = false
  family : ip.family = a.net.family
  net : a'.net = a.net
  count : a.free = a'.free + 1
  has : ∀ j, a'.has j = (a.has j || decide (j = ip))

@[simp] theorem net_withAlloc (alloc : AllocationBitmap) (h : alloc.max = a.alloc.max) :
    (a.withAlloc alloc h).net = a.net := rfl

@[simp] theorem contains_withAlloc (alloc : AllocationBitmap) (h : alloc.max = a.alloc.max)
    (ip : IpAddr) : (a.withAlloc alloc h).contains ip = a.contains ip := rfl

@[simp] theorem withAlloc_self (h : a.alloc.max = a.alloc.max) : a.withAlloc a.alloc h = a := rfl

/-- Putting a free offset to use hands out its address. -/
theorem took_withAlloc {ip : IpAddr} {offset : Nat} (hoffset : a.contains ip = some offset)
    {alloc : AllocationBitmap} (h : AllocationBitmap.Taken a.alloc offset alloc) :
    a.Took ip (a.withAlloc alloc h.max) where
  free := by rw [has, hoffset]; exact h.free
  family := by
    rw [(a.contains_eq_some.mp hoffset).2]
    exact IpNet.family_ofNat _ _
  net := rfl
  count := by
    have hmax := h.max
    have hcount := h.count
    have hle := alloc.count_le
    show a.alloc.max - a.alloc.count = alloc.max - alloc.count + 1
    omega
  has j := by
    have hiff : ∀ o, a.contains j = some o → (o = offset ↔ j = ip) := by
      intro o ho
      constructor
      · rintro rfl
        exact a.contains_injective ho hoffset
      · rintro rfl
        exact Option.some.inj (ho.symm.trans hoffset)
    rw [has, has, contains_withAlloc]
    cases hj : a.contains j with
    | some o =>
      show alloc.has o = (a.alloc.has o || _)
      rw [h.has, decide_eq_decide.mpr (hiff o hj)]
    | none =>
      have hne : j ≠ ip := by
        rintro rfl
        cases hj.symm.trans hoffset
      rw [decide_eq_false hne]
      rfl

/-- **`allocate`.** It hands out the address, or refuses and changes nothing. -/
theorem allocate_cases (text : IpText) (ip : IpAddr) :
    (∃ a', a.allocate text ip = (.ok ip, a') ∧ a.Took ip a') ∨
      ∃ e, a.allocate text ip = (.error e, a) := by
  rw [allocate]
  cases hoffset : a.contains ip with
  | none => exact .inr ⟨_, rfl⟩
  | some offset =>
    obtain ⟨b', heq, htaken⟩ | ⟨heq, -⟩ := a.alloc.allocate_cases offset
    · simp only [heq, if_true]
      exact .inl ⟨_, rfl, a.took_withAlloc hoffset htaken⟩
    · simp only [heq, Bool.false_eq_true, if_false]
      exact .inr ⟨_, rfl⟩

/-- **`allocate_next`.** It hands out some free address, or none is left and it changes
    nothing. -/
theorem allocateNext_cases (random : Nat) :
    (∃ ip a', a.allocateNext random = (.ok ip, a') ∧ a.Took ip a') ∨
      (a.allocateNext random = (.error .rangeFull, a) ∧ a.free = 0) := by
  rw [allocateNext]
  obtain ⟨next, b', heq, htaken⟩ | ⟨heq, hfull⟩ := a.alloc.allocateNext_cases random
  · have hlt : next < a.max := a.alloc_max ▸ htaken.lt
    simp only [heq]
    exact .inl ⟨_, _, rfl, a.took_withAlloc (a.contains_offsetToIp hlt) htaken⟩
  · simp only [heq]
    refine .inr ⟨rfl, ?_⟩
    rw [free, AllocationBitmap.free, hfull, Nat.sub_self]

@[simp] theorem net_release (ip : IpAddr) : (a.release ip).net = a.net := by
  rw [release]
  split <;> rfl

@[simp] theorem net_allocate (text : IpText) (ip : IpAddr) :
    (a.allocate text ip).2.net = a.net := by
  obtain ⟨a', heq, htook⟩ | ⟨e, heq⟩ := a.allocate_cases text ip
  · rw [heq]
    exact htook.net
  · rw [heq]

@[simp] theorem net_allocateNext (random : Nat) : (a.allocateNext random).2.net = a.net := by
  obtain ⟨ip, a', heq, htook⟩ | ⟨heq, -⟩ := a.allocateNext_cases random
  · rw [heq]
    exact htook.net
  · rw [heq]

/-- Releasing a held address makes one more address free. -/
theorem free_release {a : HostScopeAllocator} {ip : IpAddr} (h : a.has ip = true) :
    (a.release ip).free = a.free + 1 := by
  rw [has] at h
  rw [release]
  cases hoffset : a.contains ip with
  | none => simp [hoffset] at h
  | some offset =>
    rw [hoffset] at h
    have hcount := AllocationBitmap.count_release h
    have hle := a.alloc.count_le
    have hmax := a.alloc.max_release offset
    show (a.alloc.release offset).max - (a.alloc.release offset).count =
      a.alloc.max - a.alloc.count + 1
    omega

/-- **`release`.** It frees exactly its address. -/
theorem has_release (ip j : IpAddr) : (a.release ip).has j = (a.has j && decide (j ≠ ip)) := by
  rw [release]
  cases hoffset : a.contains ip with
  | none =>
    show a.has j = _
    by_cases hj : j = ip
    · rw [hj, has, hoffset]
      rfl
    · rw [decide_eq_true hj, Bool.and_true]
  | some offset =>
    show (a.withAlloc _ _).has j = _
    rw [has, has, contains_withAlloc]
    cases hj : a.contains j with
    | none => rfl
    | some o =>
      have hiff : o ≠ offset ↔ j ≠ ip := by
        rw [not_iff_not]
        constructor
        · rintro rfl
          exact a.contains_injective hj hoffset
        · rintro rfl
          exact Option.some.inj (hj.symm.trans hoffset)
      show (a.alloc.release offset).has o = (a.alloc.has o && _)
      rw [AllocationBitmap.has_release, decide_eq_decide.mpr hiff]

/-- **`for_each`.** It visits exactly the held addresses. -/
theorem mem_forEach (ip : IpAddr) : ip ∈ a.forEach ↔ a.has ip = true := by
  rw [forEach, List.mem_map, has]
  constructor
  · rintro ⟨offset, hmem, rfl⟩
    have hhas := (a.alloc.mem_forEach offset).mp hmem
    rw [a.contains_offsetToIp (a.alloc_max ▸ AllocationBitmap.has_lt hhas)]
    exact hhas
  · intro h
    cases hoffset : a.contains ip with
    | none => simp [hoffset] at h
    | some offset =>
      rw [hoffset] at h
      exact ⟨offset, (a.alloc.mem_forEach offset).mpr h, (a.contains_eq_some.mp hoffset).2.symm⟩

/-- `for_each` visits no address twice. -/
theorem forEach_nodup : a.forEach.Nodup := by
  have hsorted := a.alloc.forEach_sorted
  rw [forEach, List.Nodup, List.pairwise_map]
  refine hsorted.imp_of_mem fun {i j} hi hj hij heq => ?_
  have hlt : ∀ {k}, k ∈ a.alloc.forEach → k < a.max := fun hk =>
    a.alloc_max ▸ AllocationBitmap.has_lt ((a.alloc.mem_forEach _).mp hk)
  have hi' := a.contains_offsetToIp (hlt hi)
  rw [heq, a.contains_offsetToIp (hlt hj)] at hi'
  exact absurd (Option.some.inj hi') (by omega)

@[simp] theorem has_new (cidr : IpNet) (ip : IpAddr) : (new cidr).has ip = false := by
  rw [has]
  split
  · exact AllocationBitmap.has_new _ _
  · rfl

end HostScopeAllocator

end Sarena
