import Sarena.Ipam.HostScope
import Sarena.Lib.KeyMap
import Sarena.Lib.Prog

namespace Sarena

open Lib

/-!
# IPAM — the service

`DefaultIpamService` keeps one allocator per configured family, the owners of the addresses
and the excluded addresses behind one lock.  Every stretch under the lock is one operation
of `IpamOp`; `allocateNext`, which takes the lock several times, is a program over them.

* `IpamState` — what the lock guards;
* `IpamState.allocateNextFamily_cases` — the loop of `allocate_next_family` ends, and hands
  out one free address or finds none;
* `allocateNext_spec` — a call that is not disturbed allocates in every family it asks
  for, or leaves every allocator as it was.
-/

/-- `POOL_DEFAULT`. -/
def POOL_DEFAULT : String := "default"

theorem POOL_DEFAULT_ne : POOL_DEFAULT ≠ "" := by decide

/-- The error for a family that is not configured. -/
def Family.disabled : Family → IpamError
  | .ipv4 => .ipv4Disabled
  | .ipv6 => .ipv6Disabled

/-- `AllocationResult`. -/
structure AllocationResult where
  ip : IpAddr
  ipPoolName : String
  deriving DecidableEq, Repr

/-- The subnets that the service is made for, each of the family its argument is named
    after, as the daemon configures them. -/
structure IpamSubnets where
  ipv4 : Option IpNet
  ipv6 : Option IpNet
  ipv4_family : ∀ n, ipv4 = some n → n.family = .ipv4
  ipv6_family : ∀ n, ipv6 = some n → n.family = .ipv6

/-- The subnets of a service for IPv4 alone. -/
def IpamSubnets.ipv4Only (addr : Ipv4Addr) (prefixLen : Fin 33) : IpamSubnets where
  ipv4 := some (.v4 addr prefixLen)
  ipv6 := none
  ipv4_family _ h := Option.some.inj h ▸ rfl
  ipv6_family _ h := nomatch h

/-- `State`: the owners are kept by pool and address; the two subnets are of the families
    that their fields are named after, as the daemon configures them. -/
structure IpamState where
  ipv4Allocator : Option HostScopeAllocator
  ipv6Allocator : Option HostScopeAllocator
  owner : KeyMap (String × String) String
  excludedIps : KeyMap String String
  ipv4_family : ∀ a, ipv4Allocator = some a → a.net.family = .ipv4
  ipv6_family : ∀ a, ipv6Allocator = some a → a.net.family = .ipv6

namespace IpamState

/-- The allocator of a family. -/
def allocator (s : IpamState) : Family → Option HostScopeAllocator
  | .ipv4 => s.ipv4Allocator
  | .ipv6 => s.ipv6Allocator

theorem family_of_allocator {s : IpamState} {f : Family} {a : HostScopeAllocator}
    (h : s.allocator f = some a) : a.net.family = f := by
  cases f with
  | ipv4 => exact s.ipv4_family a h
  | ipv6 => exact s.ipv6_family a h

/-- The state with another allocator for a family. -/
def withAllocator (s : IpamState) (f : Family) (a : HostScopeAllocator) (h : a.net.family = f) :
    IpamState :=
  match f with
  | .ipv4 => { s with
      ipv4Allocator := some a
      ipv4_family := fun _ ha => Option.some.inj ha ▸ h }
  | .ipv6 => { s with
      ipv6Allocator := some a
      ipv6_family := fun _ ha => Option.some.inj ha ▸ h }

/-- `State::register_ip_owner`. -/
def registerIpOwner (text : IpText) (s : IpamState) (ip : IpAddr) (owner pool : String) :
    IpamState :=
  { s with owner := s.owner.insert (pool, text.showAddr ip) owner }

/-- `State::get_ip_owner`. -/
def getIpOwner (s : IpamState) (ip pool : String) : String := (s.owner (pool, ip)).getD ""

/-- `State::release_ip_owner`. -/
def releaseIpOwner (text : IpText) (s : IpamState) (ip : IpAddr) (pool : String) :
    String × IpamState :=
  ((s.owner (pool, text.showAddr ip)).getD "",
    { s with owner := s.owner.remove (pool, text.showAddr ip) })

/-- `State::release_ip_locked`. -/
def releaseIpLocked (text : IpText) (s : IpamState) (ip : IpAddr) (pool : String) :
    Except IpamError Unit × IpamState :=
  match h : s.allocator ip.family with
  | none => (.error ip.family.disabled, s)
  | some a =>
    let s := s.withAllocator ip.family (a.release ip)
      ((congrArg IpNet.family (a.net_release ip)).trans (family_of_allocator h))
    (.ok (), (s.releaseIpOwner text ip pool).2)

/-- The key of an address in `excluded_ips`. -/
def excludedKey (text : IpText) (pool : String) (ip : IpAddr) : String :=
  pool ++ ":" ++ text.showAddr ip

/-- The locked part of `DefaultIpamService::exclude_ip`. -/
def excludeIp (text : IpText) (s : IpamState) (ip : IpAddr) (owner pool : String) : IpamState :=
  { s with excludedIps := s.excludedIps.insert (excludedKey text pool ip) owner }

/-- The locked part of `DefaultIpamService::allocate_ip`. -/
def allocateIp (text : IpText) (s : IpamState) (ip : IpAddr) (owner pool : String) :
    Except IpamError AllocationResult × IpamState :=
  match s.excludedIps (excludedKey text pool ip) with
  | some ownedBy => (.error (.excludedError (text.showAddr ip) ownedBy), s)
  | none =>
    match h : s.allocator ip.family with
    | none => (.error ip.family.disabled, s)
    | some a =>
      let s := s.withAllocator ip.family (a.allocate text ip).2
        ((congrArg IpNet.family (a.net_allocate text ip)).trans (family_of_allocator h))
      match (a.allocate text ip).1 with
      | .error e => (.error e, s)
      | .ok ip => (.ok ⟨ip, POOL_DEFAULT⟩, s.registerIpOwner text ip owner pool)

/-- The locked loop of `DefaultIpamService::allocate_next_family`, with one draw of the
    bitmap for each turn of it; `none` when the draws end before the loop does. -/
def allocateNextFamily (text : IpText) (family : Family) (owner pool : String) :
    List Nat → IpamState → Option (Except IpamError AllocationResult × IpamState)
  | [], _ => none
  | random :: randoms, s =>
    match h : s.allocator family with
    | none => some (.error family.disabled, s)
    | some a =>
      let s := s.withAllocator family (a.allocateNext random).2
        ((congrArg IpNet.family (a.net_allocateNext random)).trans (family_of_allocator h))
      match (a.allocateNext random).1 with
      | .error e => some (.error e, s)
      | .ok ip =>
        if (s.excludedIps (excludedKey text pool ip)).isNone then
          some (.ok ⟨ip, POOL_DEFAULT⟩, s.registerIpOwner text ip owner pool)
        else
          -- The excluded address stays allocated, so the next turn finds another one.
          allocateNextFamily text family owner pool randoms
            (s.registerIpOwner text ip (owner ++ " (excluded)") pool)

/-! ### Held and free addresses -/

/-- The family is configured. -/
def configured (s : IpamState) (f : Family) : Bool := (s.allocator f).isSome

/-- The address is held by the allocator of the family. -/
def held (s : IpamState) (f : Family) (ip : IpAddr) : Bool :=
  (s.allocator f).any (·.has ip)

/-- The number of addresses that the family can still hand out. -/
def free (s : IpamState) (f : Family) : Nat :=
  ((s.allocator f).map (·.free)).getD 0

@[simp] theorem allocator_registerIpOwner (text : IpText) (s : IpamState) (ip : IpAddr)
    (owner pool : String) : (s.registerIpOwner text ip owner pool).allocator = s.allocator := by
  funext f
  cases f <;> rfl

@[simp] theorem held_registerIpOwner (text : IpText) (s : IpamState) (f : Family) (ip j : IpAddr)
    (owner pool : String) : (s.registerIpOwner text ip owner pool).held f j = s.held f j := by
  rw [held, allocator_registerIpOwner, held]

theorem owner_registerIpOwner (text : IpText) (s : IpamState) (ip : IpAddr)
    (owner pool : String) :
    (s.registerIpOwner text ip owner pool).owner = s.owner.insert (pool, text.showAddr ip) owner :=
  rfl

theorem owner_releaseIpOwner (text : IpText) (s : IpamState) (ip : IpAddr) (pool : String) :
    (s.releaseIpOwner text ip pool).2.owner = s.owner.remove (pool, text.showAddr ip) := rfl

@[simp] theorem allocator_releaseIpOwner (text : IpText) (s : IpamState) (ip : IpAddr)
    (pool : String) : (s.releaseIpOwner text ip pool).2.allocator = s.allocator := by
  funext f
  cases f <;> rfl

theorem allocator_withAllocator (s : IpamState) (f : Family) (a : HostScopeAllocator)
    (h : a.net.family = f) (g : Family) :
    (s.withAllocator f a h).allocator g = if g = f then some a else s.allocator g := by
  cases f <;> cases g <;> rfl

@[simp] theorem excludedIps_withAllocator (s : IpamState) (f : Family) (a : HostScopeAllocator)
    (h : a.net.family = f) : (s.withAllocator f a h).excludedIps = s.excludedIps := by
  cases f <;> rfl

@[simp] theorem owner_withAllocator (s : IpamState) (f : Family) (a : HostScopeAllocator)
    (h : a.net.family = f) : (s.withAllocator f a h).owner = s.owner := by
  cases f <;> rfl

theorem held_eq {s : IpamState} {f : Family} {a : HostScopeAllocator} (h : s.allocator f = some a)
    (ip : IpAddr) : s.held f ip = a.has ip := by
  rw [held, h, Option.any_some]

theorem free_eq {s : IpamState} {f : Family} {a : HostScopeAllocator}
    (h : s.allocator f = some a) : s.free f = a.free := by
  rw [free, h]
  rfl

/-- A held address is one of the family that holds it. -/
theorem family_of_held {s : IpamState} {f : Family} {ip : IpAddr} (h : s.held f ip = true) :
    ip.family = f := by
  rw [held, Option.any_eq_true] at h
  obtain ⟨a, ha, hhas⟩ := h
  rw [a.family_of_has hhas, family_of_allocator ha]

/-! ### One allocation -/

/-- The family's allocator holds the same addresses in both states. -/
structure Unmoved (s : IpamState) (f : Family) (t : IpamState) : Prop where
  held : ∀ ip, t.held f ip = s.held f ip
  free : t.free f = s.free f

/-- Between the states the family's allocator handed out one free address. -/
structure Took (s : IpamState) (f : Family) (ip : IpAddr) (t : IpamState) : Prop where
  family : ip.family = f
  free : s.held f ip = false
  count : s.free f = t.free f + 1
  held : ∀ j, t.held f j = (s.held f j || decide (j = ip))

theorem Unmoved.rfl' (s : IpamState) (f : Family) : Unmoved s f s := ⟨fun _ => rfl, rfl⟩

theorem unmoved_of_allocator {s t : IpamState} {f : Family} (h : t.allocator f = s.allocator f) :
    Unmoved s f t where
  held ip := by rw [held, h, held]
  free := by rw [free, h, free]

theorem Unmoved.trans {s t u : IpamState} {f : Family} (h : Unmoved s f t) (h' : Unmoved t f u) :
    Unmoved s f u :=
  ⟨fun ip => (h'.held ip).trans (h.held ip), h'.free.trans h.free⟩

theorem Took.of_unmoved {s t u : IpamState} {f : Family} {ip : IpAddr} (h : Took s f ip t)
    (h' : Unmoved t f u) : Took s f ip u where
  family := h.family
  free := h.free
  count := by rw [h'.free, h.count]
  held j := (h'.held j).trans (h.held j)

theorem Unmoved.took {s t u : IpamState} {f : Family} {ip : IpAddr} (h : Unmoved s f t)
    (h' : Took t f ip u) : Took s f ip u where
  family := h'.family
  free := (h.held ip).symm.trans h'.free
  count := h.free.symm.trans h'.count
  held j := by rw [h'.held, h.held]

/-- An allocator that took an address, put back into the state. -/
theorem took_withAllocator {s : IpamState} {f : Family} {a a' : HostScopeAllocator} {ip : IpAddr}
    (ha : s.allocator f = some a) (h : a.Took ip a') (hf : a'.net.family = f) :
    Took s f ip (s.withAllocator f a' hf) := by
  have ha' : (s.withAllocator f a' hf).allocator f = some a' := by
    rw [allocator_withAllocator, if_pos rfl]
  refine ⟨h.family.trans (family_of_allocator ha), ?_, ?_, fun j => ?_⟩
  · rw [held_eq ha]
    exact h.free
  · rw [free_eq ha, free_eq ha']
    exact h.count
  · rw [held_eq ha, held_eq ha']
    exact h.has j

/-- What one critical section leaves as it was: the other family, which families are
    configured and with which blocks, and the exclusions. -/
structure Frame (s : IpamState) (f : Family) (t : IpamState) : Prop where
  other : ∀ g, g ≠ f → t.allocator g = s.allocator g
  configured : ∀ g, t.configured g = s.configured g
  net : ∀ g, (t.allocator g).map (·.net) = (s.allocator g).map (·.net)
  excludedIps : t.excludedIps = s.excludedIps

theorem Frame.rfl' (s : IpamState) (f : Family) : Frame s f s :=
  ⟨fun _ _ => rfl, fun _ => rfl, fun _ => rfl, rfl⟩

theorem Frame.trans {s t u : IpamState} {f : Family} (h : Frame s f t) (h' : Frame t f u) :
    Frame s f u :=
  ⟨fun g hg => (h'.other g hg).trans (h.other g hg),
    fun g => (h'.configured g).trans (h.configured g), fun g => (h'.net g).trans (h.net g),
    h'.excludedIps.trans h.excludedIps⟩

theorem frame_withAllocator {s : IpamState} {f : Family} {a a' : HostScopeAllocator}
    (ha : s.allocator f = some a) (hnet : a'.net = a.net) (hf : a'.net.family = f) :
    Frame s f (s.withAllocator f a' hf) where
  other g hg := by rw [allocator_withAllocator, if_neg hg]
  configured g := by
    rw [configured, configured, allocator_withAllocator]
    split
    next h =>
      rw [h, ha]
      rfl
    next => rfl
  net g := by
    rw [allocator_withAllocator]
    split
    next h =>
      rw [h, ha]
      exact congrArg some hnet
    next => rfl
  excludedIps := excludedIps_withAllocator s f a' hf

theorem frame_registerIpOwner (text : IpText) (s : IpamState) (f : Family) (ip : IpAddr)
    (owner pool : String) : Frame s f (s.registerIpOwner text ip owner pool) where
  other g _ := by rw [allocator_registerIpOwner]
  configured g := by rw [configured, configured, allocator_registerIpOwner]
  net g := by rw [allocator_registerIpOwner]
  excludedIps := rfl

theorem unmoved_registerIpOwner (text : IpText) (s : IpamState) (f : Family) (ip : IpAddr)
    (owner pool : String) : Unmoved s f (s.registerIpOwner text ip owner pool) :=
  unmoved_of_allocator (by rw [allocator_registerIpOwner])

/-- One turn of the loop: the family is not configured, its range is full, or it took one
    address and either returns it or goes around again. -/
theorem allocateNextFamily_turn (text : IpText) (f : Family) (owner pool : String) (random : Nat)
    (randoms : List Nat) (s : IpamState) :
    (s.configured f = false ∧
      allocateNextFamily text f owner pool (random :: randoms) s = some (.error f.disabled, s)) ∨
    (s.configured f = true ∧ s.free f = 0 ∧ ∃ t, Frame s f t ∧ Unmoved s f t ∧ t.owner = s.owner ∧
      allocateNextFamily text f owner pool (random :: randoms) s = some (.error .rangeFull, t)) ∨
    ∃ ip t, Frame s f t ∧ Took s f ip t ∧ t.owner = s.owner ∧
      allocateNextFamily text f owner pool (random :: randoms) s =
        if (s.excludedIps (excludedKey text pool ip)).isNone then
          some (.ok ⟨ip, POOL_DEFAULT⟩, t.registerIpOwner text ip owner pool)
        else allocateNextFamily text f owner pool randoms
          (t.registerIpOwner text ip (owner ++ " (excluded)") pool) := by
  rw [allocateNextFamily]
  split
  next h => exact .inl ⟨by rw [configured, h]; rfl, rfl⟩
  next a ha =>
    have hconf : s.configured f = true := by
      rw [configured, ha]
      rfl
    have hfam : (a.allocateNext random).2.net.family = f :=
      (congrArg IpNet.family (a.net_allocateNext random)).trans (family_of_allocator ha)
    -- The allocator took one address, or it is full and only its free count is read.
    obtain ⟨ip, a', heq, htook⟩ | ⟨heq, hfree⟩ := a.allocateNext_cases random
    · refine .inr (.inr ⟨ip, s.withAllocator f (a.allocateNext random).2 hfam,
        frame_withAllocator ha (a.net_allocateNext random) hfam,
        took_withAllocator ha (by rw [heq]; exact htook) hfam, owner_withAllocator _ _ _ _, ?_⟩)
      rw [show (a.allocateNext random).1 = .ok ip by rw [heq]]
      simp only [excludedIps_withAllocator]
    · refine .inr (.inl ⟨hconf, (free_eq ha).trans hfree,
        s.withAllocator f (a.allocateNext random).2 hfam,
        frame_withAllocator ha (a.net_allocateNext random) hfam, ?_,
        owner_withAllocator _ _ _ _, ?_⟩)
      · have ha' : (s.withAllocator f (a.allocateNext random).2 hfam).allocator f = some a := by
          rw [allocator_withAllocator, if_pos rfl, heq]
        exact unmoved_of_allocator (ha'.trans ha.symm)
      · rw [show (a.allocateNext random).1 = .error .rangeFull by rw [heq]]

/-- **The loop ends.** One draw more than there are free addresses is enough. -/
theorem allocateNextFamily_isSome (text : IpText) (f : Family) (owner pool : String)
    (randoms : List Nat) (s : IpamState) (h : s.free f < randoms.length) :
    (allocateNextFamily text f owner pool randoms s).isSome = true := by
  induction randoms generalizing s with
  | nil => exact absurd h (Nat.not_lt_zero _)
  | cons random randoms ih =>
    obtain ⟨-, heq⟩ | ⟨-, -, t, -, -, -, heq⟩ | ⟨ip, t, -, htook, -, heq⟩ :=
      allocateNextFamily_turn text f owner pool random randoms s
    · rw [heq]
      rfl
    · rw [heq]
      rfl
    · rw [heq]
      split
      · rfl
      · have hcount := htook.count
        have hfree := (unmoved_registerIpOwner text t f ip (owner ++ " (excluded)") pool).free
        rw [List.length_cons] at h
        exact ih _ (by omega)

/-- **`allocate_next_family`, nothing excluded.** It hands out one free address of its
    family, or changes nothing because there is none. -/
theorem allocateNextFamily_cases {text : IpText} {f : Family} {owner pool : String}
    {randoms : List Nat} {s t : IpamState} {r : Except IpamError AllocationResult}
    (h : allocateNextFamily text f owner pool randoms s = some (r, t))
    (hexcl : s.excludedIps = .empty) (hconf : s.configured f = true) :
    Frame s f t ∧ ((∃ ip, r = .ok ⟨ip, POOL_DEFAULT⟩ ∧ Took s f ip t) ∨
      (r = .error .rangeFull ∧ s.free f = 0 ∧ Unmoved s f t)) := by
  cases randoms with
  | nil => cases h
  | cons random randoms =>
    obtain ⟨hnot, -⟩ | ⟨-, hfree, t', hframe, hsame, -, heq⟩ | ⟨ip, t', hframe, htook, -, heq⟩ :=
      allocateNextFamily_turn text f owner pool random randoms s
    · rw [hconf] at hnot
      cases hnot
    · obtain ⟨rfl, rfl⟩ := Prod.mk.inj (Option.some.inj (heq.symm.trans h))
      exact ⟨hframe, .inr ⟨rfl, hfree, hsame⟩⟩
    · rw [hexcl, KeyMap.empty_apply, Option.isNone_none, if_pos rfl] at heq
      obtain ⟨rfl, rfl⟩ := Prod.mk.inj (Option.some.inj (heq.symm.trans h))
      exact ⟨hframe.trans (frame_registerIpOwner text t' f ip owner pool), .inl ⟨ip, rfl,
        htook.of_unmoved (unmoved_registerIpOwner text t' f ip owner pool)⟩⟩

/-! ### Any exclusions -/

/-- The address is held by the allocator of its family. -/
def holds (s : IpamState) (ip : IpAddr) : Bool := s.held ip.family ip

@[simp] theorem holds_registerIpOwner (text : IpText) (s : IpamState) (ip j : IpAddr)
    (owner pool : String) : (s.registerIpOwner text ip owner pool).holds j = s.holds j :=
  held_registerIpOwner text s j.family ip j owner pool

/-- Between the states a free address was taken and nothing given back; `ip` is the one that
    is handed out, if any. -/
structure Gained (s : IpamState) (ip : Option IpAddr) (t : IpamState) : Prop where
  mono : ∀ j, s.holds j = true → t.holds j = true
  new : ∀ j, ip = some j → s.holds j = false ∧ t.holds j = true

theorem gained_of_allocator {s t : IpamState} (h : t.allocator = s.allocator) :
    Gained s none t where
  mono j hj := by rwa [holds, held, h]
  new := nofun

/-- A family that took an address, and another that is as it was. -/
theorem Took.gained {s t : IpamState} {f : Family} {ip : IpAddr} (h : Took s f ip t)
    (hframe : Frame s f t) : Gained s (some ip) t where
  mono j hj := by
    rw [holds] at hj ⊢
    by_cases hf : j.family = f
    · rw [hf] at hj ⊢
      rw [h.held, hj, Bool.true_or]
    · rwa [IpamState.held, hframe.other _ hf]
  new j hj := by
    obtain rfl := Option.some.inj hj
    rw [holds, holds, h.family]
    exact ⟨h.free, by rw [h.held, decide_eq_true rfl, Bool.or_true]⟩

theorem Unmoved.gained {s t : IpamState} {f : Family} (h : Unmoved s f t) (hframe : Frame s f t) :
    Gained s none t where
  mono j hj := by
    rw [holds] at hj ⊢
    by_cases hf : j.family = f
    · rw [hf] at hj ⊢
      rwa [h.held]
    · rwa [IpamState.held, hframe.other _ hf]
  new := nofun

/-- More was gained before. -/
theorem Gained.trans {s t u : IpamState} {ip ip' : Option IpAddr} (h : Gained s ip t)
    (h' : Gained t ip' u) : Gained s ip' u where
  mono j hj := h'.mono j (h.mono j hj)
  new j hj := by
    refine ⟨?_, (h'.new j hj).2⟩
    rw [← Bool.not_eq_true]
    exact fun hs => Bool.false_ne_true ((h'.new j hj).1.symm.trans (h.mono j hs))

/-- Only what lies outside the allocators was changed after. -/
theorem Gained.of_allocator {s t u : IpamState} {ip : Option IpAddr} (h : Gained s ip t)
    (h' : u.allocator = t.allocator) : Gained s ip u where
  mono j hj := by
    rw [holds, held, h']
    exact h.mono j hj
  new j hj := by
    rw [holds, holds, held, held, h']
    exact h.new j hj

/-- The address that a call hands out. -/
def handedOut : Except IpamError AllocationResult → Option IpAddr
  | .ok result => some result.ip
  | .error _ => none

/-- **`allocate_next_family`, whatever is excluded.** It hands out an address that was free
    before and gives nothing back. -/
theorem allocateNextFamily_gained {text : IpText} {f : Family} {owner pool : String}
    {randoms : List Nat} {s t : IpamState} {r : Except IpamError AllocationResult}
    (h : allocateNextFamily text f owner pool randoms s = some (r, t)) :
    Gained s (handedOut r) t ∧ ∀ result, r = .ok result → result.ipPoolName = POOL_DEFAULT := by
  induction randoms generalizing s with
  | nil => cases h
  | cons random randoms ih =>
    obtain ⟨-, heq⟩ | ⟨-, -, t', hframe, hsame, -, heq⟩ | ⟨ip, t', hframe, htook, -, heq⟩ :=
      allocateNextFamily_turn text f owner pool random randoms s
    · obtain ⟨rfl, rfl⟩ := Prod.mk.inj (Option.some.inj (heq.symm.trans h))
      exact ⟨gained_of_allocator rfl, nofun⟩
    · obtain ⟨rfl, rfl⟩ := Prod.mk.inj (Option.some.inj (heq.symm.trans h))
      exact ⟨hsame.gained hframe, nofun⟩
    · rw [heq] at h
      have hgained := htook.gained hframe
      split at h
      · obtain ⟨rfl, rfl⟩ := Prod.mk.inj (Option.some.inj h)
        refine ⟨hgained.of_allocator (allocator_registerIpOwner text t' ip owner pool), ?_⟩
        rintro result ⟨⟩
        rfl
      · obtain ⟨hrest, hpool⟩ := ih h
        exact ⟨(hgained.of_allocator (allocator_registerIpOwner text t' ip _ pool)).trans hrest,
          hpool⟩

/-- **`allocate_ip`, case by case.** It refuses and changes nothing that is read later, or it
    takes its address and registers the owner. -/
theorem allocateIp_cases (text : IpText) (s : IpamState) (ip : IpAddr) (owner pool : String) :
    (∃ e t, s.allocateIp text ip owner pool = (.error e, t) ∧ Frame s ip.family t ∧
      Unmoved s ip.family t ∧ t.owner = s.owner) ∨
    ∃ t, s.allocateIp text ip owner pool =
        (.ok ⟨ip, POOL_DEFAULT⟩, t.registerIpOwner text ip owner pool) ∧
      Frame s ip.family t ∧ Took s ip.family ip t ∧ t.owner = s.owner := by
  rw [allocateIp]
  split
  · exact .inl ⟨_, s, rfl, Frame.rfl' s _, Unmoved.rfl' s _, rfl⟩
  · split
    · exact .inl ⟨_, s, rfl, Frame.rfl' s _, Unmoved.rfl' s _, rfl⟩
    next a ha =>
      have hfam : (a.allocate text ip).2.net.family = ip.family :=
        (congrArg IpNet.family (a.net_allocate text ip)).trans (family_of_allocator ha)
      have hframe := frame_withAllocator ha (a.net_allocate text ip) hfam
      have howner := owner_withAllocator s ip.family (a.allocate text ip).2 hfam
      obtain ⟨a', heq, htook⟩ | ⟨e, heq⟩ := a.allocate_cases text ip
      · have htaken := took_withAllocator ha (by rw [heq]; exact htook) hfam
        simp only [heq] at htaken hframe howner ⊢
        exact .inr ⟨_, rfl, hframe, htaken, howner⟩
      · have hsame :
            Unmoved s ip.family (s.withAllocator ip.family (a.allocate text ip).2 hfam) := by
          apply unmoved_of_allocator
          rw [allocator_withAllocator, if_pos rfl, heq]
          exact ha.symm
        simp only [heq] at hsame hframe howner ⊢
        exact .inl ⟨e, _, rfl, hframe, hsame, howner⟩

/-- **`allocate_ip`.** It hands out its address, which was free, or changes no allocator. -/
theorem allocateIp_gained (text : IpText) (s : IpamState) (ip : IpAddr) (owner pool : String) :
    Gained s (handedOut (s.allocateIp text ip owner pool).1) (s.allocateIp text ip owner pool).2 ∧
      ∀ result, (s.allocateIp text ip owner pool).1 = .ok result → result = ⟨ip, POOL_DEFAULT⟩ := by
  obtain ⟨e, t, heq, hframe, hsame, -⟩ | ⟨t, heq, hframe, htook, -⟩ :=
    allocateIp_cases text s ip owner pool
  · rw [heq]
    exact ⟨hsame.gained hframe, nofun⟩
  · rw [heq]
    refine ⟨(htook.gained hframe).of_allocator (allocator_registerIpOwner text _ ip owner pool), ?_⟩
    rintro result ⟨⟩
    rfl

/-- **`release_ip_locked`, whatever its address.** That address alone is free afterwards. -/
theorem holds_releaseIpLocked (text : IpText) (s : IpamState) (ip : IpAddr) (pool : String)
    (j : IpAddr) : (s.releaseIpLocked text ip pool).2.holds j = (s.holds j && decide (j ≠ ip)) := by
  rw [releaseIpLocked]
  split
  next hnone =>
    by_cases hj : j = ip
    · rw [hj, holds, held, hnone]
      rfl
    · rw [decide_eq_true hj, Bool.and_true]
  next a ha =>
    have hnet : (a.release ip).net.family = ip.family :=
      (congrArg IpNet.family (a.net_release ip)).trans (family_of_allocator ha)
    show ((s.withAllocator ip.family (a.release ip) hnet).releaseIpOwner text ip pool).2.holds j = _
    rw [holds, holds, held, allocator_releaseIpOwner, allocator_withAllocator]
    by_cases hf : j.family = ip.family
    · rw [if_pos hf, hf, held_eq ha, Option.any_some, a.has_release]
    · have hj : j ≠ ip := fun h => hf (congrArg IpAddr.family h)
      rw [if_neg hf, decide_eq_true hj, Bool.and_true]
      rfl

/-- Releasing a held address succeeds. -/
theorem releaseIpLocked_ok (text : IpText) {s : IpamState} {ip : IpAddr} (pool : String)
    (h : s.holds ip = true) : (s.releaseIpLocked text ip pool).1 = .ok () := by
  rw [releaseIpLocked]
  split
  next hnone =>
    rw [holds, held, hnone] at h
    cases h
  next => rfl

/-- A held address is of a family that is configured. -/
theorem configured_of_holds {s : IpamState} {ip : IpAddr} (h : s.holds ip = true) :
    s.configured ip.family = true := by
  rw [holds, held, Option.any_eq_true] at h
  obtain ⟨a, ha, -⟩ := h
  rw [configured, ha]
  rfl

theorem owner_releaseIpLocked (text : IpText) {s : IpamState} {ip : IpAddr} (pool : String)
    (hconf : s.configured ip.family = true) :
    (s.releaseIpLocked text ip pool).2.owner = s.owner.remove (pool, text.showAddr ip) := by
  rw [releaseIpLocked]
  split
  next hnone =>
    rw [configured, hnone] at hconf
    cases hconf
  next a ha => rw [owner_releaseIpOwner, owner_withAllocator]

/-! ### What a critical section leaves alone -/

theorem frame_releaseIpOwner (text : IpText) (s : IpamState) (f : Family) (ip : IpAddr)
    (pool : String) : Frame s f (s.releaseIpOwner text ip pool).2 where
  other g _ := by rw [allocator_releaseIpOwner]
  configured g := by rw [configured, configured, allocator_releaseIpOwner]
  net g := by rw [allocator_releaseIpOwner]
  excludedIps := rfl

theorem frame_releaseIpLocked (text : IpText) (s : IpamState) (ip : IpAddr) (pool : String) :
    Frame s ip.family (s.releaseIpLocked text ip pool).2 := by
  rw [releaseIpLocked]
  split
  · exact Frame.rfl' s _
  next a ha =>
    exact (frame_withAllocator ha (a.net_release ip) _).trans
      (frame_releaseIpOwner text _ _ ip pool)

theorem frame_allocateIp (text : IpText) (s : IpamState) (ip : IpAddr) (owner pool : String) :
    Frame s ip.family (s.allocateIp text ip owner pool).2 := by
  obtain ⟨e, t, heq, hframe, -⟩ | ⟨t, heq, hframe, -⟩ := allocateIp_cases text s ip owner pool
  · rw [heq]
    exact hframe
  · rw [heq]
    exact hframe.trans (frame_registerIpOwner text t _ ip owner pool)

theorem frame_allocateNextFamily {text : IpText} {f : Family} {owner pool : String}
    {randoms : List Nat} {s t : IpamState} {r : Except IpamError AllocationResult}
    (h : allocateNextFamily text f owner pool randoms s = some (r, t)) : Frame s f t := by
  induction randoms generalizing s with
  | nil => cases h
  | cons random randoms ih =>
    obtain ⟨-, heq⟩ | ⟨-, -, t', hframe, -, -, heq⟩ | ⟨ip, t', hframe, -, -, heq⟩ :=
      allocateNextFamily_turn text f owner pool random randoms s
    · obtain ⟨rfl, rfl⟩ := Prod.mk.inj (Option.some.inj (heq.symm.trans h))
      exact Frame.rfl' s f
    · obtain ⟨rfl, rfl⟩ := Prod.mk.inj (Option.some.inj (heq.symm.trans h))
      exact hframe
    · rw [heq] at h
      split at h
      · obtain ⟨rfl, rfl⟩ := Prod.mk.inj (Option.some.inj h)
        exact hframe.trans (frame_registerIpOwner text t' f ip owner pool)
      · exact (hframe.trans (frame_registerIpOwner text t' f ip _ pool)).trans (ih h)

/-! ### One allocation, nothing excluded -/

/-- **`release_ip_locked`** of an address just taken puts the family back. -/
theorem releaseIpLocked_took {text : IpText} {s t : IpamState} {f : Family} {ip : IpAddr}
    {pool : String} (h : Took s f ip t) (hconf : t.configured f = true) :
    Frame t f (t.releaseIpLocked text ip pool).2 ∧
      Unmoved s f (t.releaseIpLocked text ip pool).2 := by
  obtain ⟨a, ha⟩ := Option.isSome_iff_exists.mp hconf
  have hfam := h.family
  subst hfam
  have hnet : (a.release ip).net.family = ip.family :=
    (congrArg IpNet.family (a.net_release ip)).trans (family_of_allocator ha)
  have heq : (t.releaseIpLocked text ip pool).2 =
      ((t.withAllocator ip.family (a.release ip) hnet).releaseIpOwner text ip pool).2 := by
    rw [releaseIpLocked]
    split
    next hnone => cases ha.symm.trans hnone
    next a' ha' =>
      obtain rfl := Option.some.inj (ha.symm.trans ha')
      rfl
  have hnew : (t.releaseIpLocked text ip pool).2.allocator ip.family = some (a.release ip) := by
    rw [heq, allocator_releaseIpOwner, allocator_withAllocator, if_pos rfl]
  have hhas : a.has ip = true := by
    rw [← held_eq ha, h.held, decide_eq_true rfl, Bool.or_true]
  refine ⟨frame_releaseIpLocked text t ip pool, ⟨fun j => ?_, ?_⟩⟩
  · rw [held_eq hnew, a.has_release, ← held_eq ha, h.held]
    by_cases hj : j = ip
    · rw [hj, h.free]
      simp
    · simp [hj]
  · rw [free_eq hnew, HostScopeAllocator.free_release hhas, h.count, free_eq ha]

end IpamState

/-! ### The service -/

/-- `HostAddressing`. -/
structure HostAddressing where
  ipv4 : Option String
  ipv6 : Option String
  deriving DecidableEq, Repr

/-- `ContainerAddressing`. -/
structure ContainerAddressing where
  ip : String
  pool : Option String
  deriving DecidableEq, Repr

/-- `IpamAllocateResponse`. -/
structure IpamAllocateResponse where
  hostAddressing : HostAddressing
  ipv4 : Option ContainerAddressing
  ipv6 : Option ContainerAddressing
  deriving DecidableEq, Repr

/-- The critical sections of the service. -/
inductive IpamOp : Type → Type
  | ipv6Configured : IpamOp Bool
  | ipv4Configured : IpamOp Bool
  | allocateNextFamily (family : Family) (owner pool : String) :
      IpamOp (Except IpamError AllocationResult)
  | allocateIp (ip : IpAddr) (owner pool : String) : IpamOp (Except IpamError AllocationResult)
  | releaseIp (ip : IpAddr) (pool : String) : IpamOp (Except IpamError Unit)
  | excludeIp (ip : IpAddr) (owner pool : String) : IpamOp Unit

/-- The effects of the critical sections; the draws of the bitmap are left open. -/
def IpamState.sem (text : IpText) : Sem IpamOp IpamState
  | _, .ipv6Configured, s, b, t => b = s.ipv6Allocator.isSome ∧ t = s
  | _, .ipv4Configured, s, b, t => b = s.ipv4Allocator.isSome ∧ t = s
  | _, .allocateNextFamily family owner pool, s, b, t =>
      ∃ randoms, s.allocateNextFamily text family owner pool randoms = some (b, t)
  | _, .allocateIp ip owner pool, s, b, t => (b, t) = s.allocateIp text ip owner pool
  | _, .releaseIp ip pool, s, b, t => (b, t) = s.releaseIpLocked text ip pool
  | _, .excludeIp ip owner pool, s, _, t => t = s.excludeIp text ip owner pool

/-- No critical section changes the block of a family. -/
theorem IpamState.sem_net {text : IpText} {β : Type} {op : IpamOp β} {s t : IpamState} {b : β}
    (h : IpamState.sem text β op s b t) (f : Family) :
    (t.allocator f).map (·.net) = (s.allocator f).map (·.net) := by
  cases op with
  | ipv6Configured => rw [h.2]
  | ipv4Configured => rw [h.2]
  | allocateNextFamily family owner pool =>
    obtain ⟨randoms, h⟩ := h
    exact (frame_allocateNextFamily h).net f
  | allocateIp ip owner pool =>
    rw [show t = _ from congrArg Prod.snd h]
    exact (frame_allocateIp text s ip owner pool).net f
  | releaseIp ip pool =>
    rw [show t = _ from congrArg Prod.snd h]
    exact (frame_releaseIpLocked text s ip pool).net f
  | excludeIp ip owner pool =>
    rw [show t = _ from h]
    cases f <;> rfl

/-- A call of the service. -/
abbrev IpamCall (α : Type) := ExceptT IpamError (Prog IpamOp) α

namespace DefaultIpamService

/-- `DefaultIpamService::new`: nothing is allocated, owned or excluded. -/
def new (subnets : IpamSubnets) : IpamState where
  ipv4Allocator := subnets.ipv4.map .new
  ipv6Allocator := subnets.ipv6.map .new
  owner := .empty
  excludedIps := .empty
  ipv4_family a ha := by
    obtain ⟨n, hn, rfl⟩ := Option.map_eq_some_iff.mp ha
    exact subnets.ipv4_family n hn
  ipv6_family a ha := by
    obtain ⟨n, hn, rfl⟩ := Option.map_eq_some_iff.mp ha
    exact subnets.ipv6_family n hn

/-- A service that starts holds no address. -/
theorem holds_new (subnets : IpamSubnets) (ip : IpAddr) : (new subnets).holds ip = false := by
  rw [← Bool.not_eq_true, IpamState.holds, IpamState.held, Option.any_eq_true]
  rintro ⟨a, ha, hhas⟩
  have hnew : ∃ n, a = .new n := by
    cases hf : ip.family <;>
      · rw [hf] at ha
        obtain ⟨n, -, rfl⟩ := Option.map_eq_some_iff.mp ha
        exact ⟨n, rfl⟩
  obtain ⟨n, rfl⟩ := hnew
  rw [HostScopeAllocator.has_new] at hhas
  cases hhas

/-- `DefaultIpamService::allocate_next_family`. -/
def allocateNextFamily (family : Family) (owner pool : String) : IpamCall AllocationResult :=
  if pool = "" then throw (.poolDeterminationUnavailable owner)
  else ExceptT.mk (perform (.allocateNextFamily family owner pool))

/-- `DefaultIpamService::release_ip`. -/
def releaseIp (text : IpText) (ip : IpAddr) (pool : String) : IpamCall Unit :=
  if pool = "" then throw (.poolRequiredForRelease (text.showAddr ip))
  else ExceptT.mk (perform (.releaseIp ip pool))

/-- `DefaultIpamService::allocate_ip`. -/
def allocateIp (text : IpText) (ip : IpAddr) (owner pool : String) : IpamCall AllocationResult :=
  if pool = "" then throw (.poolRequiredForAllocate (text.showAddr ip) owner)
  else ExceptT.mk (perform (.allocateIp ip owner pool))

/-- `matches!(family, None | Some(f))`. -/
def wants (family : Option Family) (f : Family) : Bool := family = none ∨ family = some f

/-- `if wanted { Some(self.allocate_next_family(..)?) } else { None }`. -/
def allocateWanted (wanted : Bool) (family : Family) (owner pool : String) :
    IpamCall (Option AllocationResult) :=
  if wanted then some <$> allocateNextFamily family owner pool else pure none

/-- `if let Some(result) = result { let _ = self.release_ip(..) }`. -/
def giveBack (text : IpText) : Option AllocationResult → IpamCall Unit
  | some result => do
    let _ ← ExceptT.lift (releaseIp text result.ip result.ipPoolName).run
  | none => pure ()

/-- `DefaultIpamService::allocate_next`: IPv6 first; its address is given back when there
    is none for IPv4. -/
def allocateNext (text : IpText) (family : Option Family) (owner pool : String) :
    IpamCall (Option AllocationResult × Option AllocationResult) := do
  let ipv6Configured ← ExceptT.lift (perform .ipv6Configured)
  let ipv4Configured ← ExceptT.lift (perform .ipv4Configured)
  let ipv6Result ← allocateWanted (wants family .ipv6 && ipv6Configured) .ipv6 owner pool
  if wants family .ipv4 && ipv4Configured then
    match ← ExceptT.lift (allocateNextFamily .ipv4 owner pool).run with
    | .ok result => return (some result, ipv6Result)
    | .error err => do
      giveBack text ipv6Result
      throw err
  else return (none, ipv6Result)

/-- The family that a request names; any other text stands for both. -/
def parseFamily : Option String → Option Family
  | some "ipv4" => some .ipv4
  | some "ipv6" => some .ipv6
  | _ => none

/-- `DefaultIpamService::allocate`. -/
def allocate (text : IpText) (gatewayIp : IpAddr) (family owner pool : Option String)
    (_expiration : Bool) : IpamCall IpamAllocateResponse := do
  let owner := owner.getD ""
  let pool := pool.getD POOL_DEFAULT
  let (ipv4, ipv6) ← allocateNext text (parseFamily family) owner pool
  return {
    hostAddressing := { ipv4 := some (text.showAddr gatewayIp), ipv6 := none }
    ipv4 := ipv4.map fun result => ⟨text.showAddr result.ip, some result.ipPoolName⟩
    ipv6 := ipv6.map fun result => ⟨text.showAddr result.ip, some result.ipPoolName⟩ }

/-- `IpamService::allocate_ip` of the service. -/
def allocateIpCall (text : IpText) (ip : IpAddr) (owner pool : Option String) : IpamCall Unit := do
  let _ ← allocateIp text ip (owner.getD "") (pool.getD POOL_DEFAULT)

/-- `IpamService::release` of the service. -/
def release (text : IpText) (ip : IpAddr) (pool : Option String) : IpamCall Unit :=
  releaseIp text ip (pool.getD POOL_DEFAULT)

/-! ### A call that is not disturbed -/

open IpamState

/-- Between the states no family was configured and no address excluded. -/
structure Stable (s t : IpamState) : Prop where
  configured : ∀ f, t.configured f = s.configured f
  excludedIps : t.excludedIps = s.excludedIps

/-- A request for `family` is served by the allocator of `f`. -/
def serves (s : IpamState) (family : Option Family) (f : Family) : Bool :=
  wants family f && s.configured f

/-- Why the allocation in one family is refused. -/
def RefusedBy (s : IpamState) (f : Family) (owner pool : String) (e : IpamError) : Prop :=
  (pool = "" ∧ e = .poolDeterminationUnavailable owner) ∨
    (pool ≠ "" ∧ e = .rangeFull ∧ s.free f = 0)

/-- The outcome of a call for the family `f`, which is asked for an address when it is
    `served`. -/
structure Outcome (s : IpamState) (f : Family) (served : Bool) (pool : String)
    (result : Option AllocationResult) (t : IpamState) : Prop where
  took : served = true → pool ≠ "" ∧ ∃ ip, result = some ⟨ip, POOL_DEFAULT⟩ ∧ Took s f ip t
  left : served = false → result = none ∧ Unmoved s f t

theorem Outcome.of_unmoved {s t u : IpamState} {f : Family} {served : Bool} {pool : String}
    {result : Option AllocationResult} (h : Outcome s f served pool result t)
    (h' : Unmoved t f u) : Outcome s f served pool result u where
  took hs := by
    obtain ⟨hpool, ip, hip, htook⟩ := h.took hs
    exact ⟨hpool, ip, hip, htook.of_unmoved h'⟩
  left hs := ⟨(h.left hs).1, (h.left hs).2.trans h'⟩

/-- What a call that is not disturbed leaves behind: an address taken in every family it
    asks for, or, when one of them refuses, every family as it was. -/
def Spec (s : IpamState) (family : Option Family) (owner pool : String) :
    Except IpamError (Option AllocationResult × Option AllocationResult) → IpamState → Prop :=
  Prog.orError
    (fun r t => Stable s t ∧ Outcome s .ipv4 (serves s family .ipv4) pool r.1 t ∧
      Outcome s .ipv6 (serves s family .ipv6) pool r.2 t)
    fun e t => Stable s t ∧ (∀ f, Unmoved s f t) ∧
      ∃ f, serves s family f = true ∧ RefusedBy s f owner pool e

/-- Any operation, in any state. -/
abbrev anyOp : ∀ β : Type, IpamOp β → IpamState → Prop := fun _ _ _ => True

theorem stable_of_frame {s t : IpamState} {f : Family} (h : Frame s f t) : Stable s t :=
  ⟨h.configured, h.excludedIps⟩

theorem Stable.trans {s t u : IpamState} (h : Stable s t) (h' : Stable t u) : Stable s u :=
  ⟨fun f => (h'.configured f).trans (h.configured f), h'.excludedIps.trans h.excludedIps⟩

/-- One family, with nothing excluded. -/
theorem allocateNextFamily_spec (text : IpText) {s : IpamState} (hexcl : s.excludedIps = .empty)
    {f : Family} (hconf : s.configured f = true) (owner pool : String) :
    (allocateNextFamily f owner pool).run.Guards (sem text) anyOp
      (Prog.orError
        (fun r t => Frame s f t ∧ pool ≠ "" ∧ r.ipPoolName = POOL_DEFAULT ∧ Took s f r.ip t)
        (fun e t => Frame s f t ∧ Unmoved s f t ∧ RefusedBy s f owner pool e)) s := by
  rw [allocateNextFamily]
  by_cases hpool : pool = ""
  · rw [if_pos hpool]
    exact ⟨Frame.rfl' s f, Unmoved.rfl' s f, .inl ⟨hpool, rfl⟩⟩
  · rw [if_neg hpool]
    refine ⟨trivial, fun b t h => ?_⟩
    obtain ⟨randoms, h⟩ := h
    obtain ⟨hframe, ⟨ip, rfl, htook⟩ | ⟨rfl, hfree, hsame⟩⟩ :=
      allocateNextFamily_cases h hexcl hconf
    · exact ⟨hframe, hpool, rfl, htook⟩
    · exact ⟨hframe, hsame, .inr ⟨hpool, rfl, hfree⟩⟩

/-- The first half of `allocate_next`: IPv6, when it is served. -/
theorem allocateIpv6_spec (text : IpText) {s : IpamState} (hexcl : s.excludedIps = .empty)
    {served : Bool} (hconf : served = true → s.configured .ipv6 = true) (owner pool : String) :
    (allocateWanted served .ipv6 owner pool).run.Guards (sem text) anyOp
      (Prog.orError
        (fun r t => Frame s .ipv6 t ∧ Outcome s .ipv6 served pool r t)
        (fun e t => Frame s .ipv6 t ∧ Unmoved s .ipv6 t ∧ served = true ∧
          RefusedBy s .ipv6 owner pool e)) s := by
  cases served with
  | false => exact ⟨Frame.rfl' s _, nofun, fun _ => ⟨rfl, Unmoved.rfl' s _⟩⟩
  | true =>
    rw [allocateWanted, if_pos rfl, map_eq_pure_bind]
    refine Prog.guards_try (fun r t => Frame s .ipv6 t ∧ pool ≠ "" ∧
      r.ipPoolName = POOL_DEFAULT ∧ Took s .ipv6 r.ip t) (Prog.Guards.imp_try
        (fun _ _ h => h) (fun _ _ h => ⟨h.1, h.2.1, rfl, h.2.2⟩)
        (allocateNextFamily_spec text hexcl (hconf rfl) owner pool)) ?_
    rintro ⟨ip, name⟩ t ⟨hframe, hpool, rfl, htook⟩
    exact ⟨hframe, fun _ => ⟨hpool, ip, rfl, htook⟩, nofun⟩

/-- Giving back what IPv6 took since `s`. -/
theorem giveBack_spec (text : IpText) {s u : IpamState} {served : Bool} {pool : String}
    {result : Option AllocationResult} (h : Outcome s .ipv6 served pool result u)
    (hconf : served = true → u.configured .ipv6 = true) :
    (giveBack text result).run.Guards (sem text) anyOp
      (Prog.orError (fun _ v => Frame u .ipv6 v ∧ Unmoved s .ipv6 v) fun _ _ => False) u := by
  cases served with
  | false =>
    obtain ⟨rfl, hsame⟩ := h.left rfl
    exact ⟨Frame.rfl' u _, hsame⟩
  | true =>
    obtain ⟨-, ip, rfl, htook⟩ := h.took rfl
    refine Prog.guards_try (fun _ v => Frame u .ipv6 v ∧ Unmoved s .ipv6 v) ?_ fun _ v hv => hv
    refine Prog.guards_lift ?_
    rw [releaseIp, if_neg POOL_DEFAULT_ne]
    refine ⟨trivial, fun b v hv => ?_⟩
    have hv : v = (u.releaseIpLocked text ip POOL_DEFAULT).2 := congrArg Prod.snd hv
    rw [hv]
    exact releaseIpLocked_took htook (hconf rfl)

/-- **Rule of `allocate_next`.** What it reads first is what the state says.  `A` holds after the
    part for IPv6; a refusal for IPv4 is followed by the rollback. -/
theorem guards_allocateNext {text : IpText} {s : IpamState} {family : Option Family}
    {owner pool : String} {A : Option AllocationResult → IpamState → Prop}
    {Q : Option AllocationResult × Option AllocationResult → IpamState → Prop}
    {X : IpamError → IpamState → Prop}
    (h6 : (allocateWanted (serves s family .ipv6) .ipv6 owner pool).run.Guards (sem text) anyOp
      (Prog.orError A X) s)
    (hskip : ∀ r t, A r t → serves s family .ipv4 = false → Q (none, r) t)
    (h4 : ∀ r t, A r t → serves s family .ipv4 = true →
      (allocateNextFamily .ipv4 owner pool).run.Guards (sem text) anyOp
        (Prog.orError (fun result u => Q (some result, r) u) fun e u =>
          (giveBack text r).run.Guards (sem text) anyOp (Prog.orError (fun _ v => X e v) X) u) t) :
    (allocateNext text family owner pool).run.Guards (sem text) anyOp (Prog.orError Q X) s := by
  unfold allocateNext
  refine Prog.guards_try (fun b t => b = s.configured .ipv6 ∧ s = t)
    (Prog.guards_lift ⟨trivial, fun b t h => ⟨h.1, h.2.symm⟩⟩) ?_
  rintro _ _ ⟨rfl, rfl⟩
  refine Prog.guards_try (fun b t => b = s.configured .ipv4 ∧ s = t)
    (Prog.guards_lift ⟨trivial, fun b t h => ⟨h.1, h.2.symm⟩⟩) ?_
  rintro _ _ ⟨rfl, rfl⟩
  refine Prog.guards_try A h6 fun r t hr => ?_
  cases hserves : serves s family .ipv4 with
  | false =>
    rw [show (wants family .ipv4 && s.configured .ipv4) = false from hserves]
    exact hskip r t hr hserves
  | true =>
    rw [show (wants family .ipv4 && s.configured .ipv4) = true from hserves, if_pos rfl]
    refine Prog.guards_try _ (Prog.guards_lift (h4 r t hr hserves)) ?_
    rintro (e | result) u hu
    · exact Prog.guards_try (fun _ v => X e v) hu fun _ v hv => hv
    · exact hu

/-- A family that is served is configured. -/
theorem configured_of_serves {s : IpamState} {family : Option Family} {f : Family}
    (h : serves s family f = true) : s.configured f = true :=
  (Bool.and_eq_true_iff.mp h).2

/-- **`allocate_next` is atomic over the families.** With nothing excluded and nobody in
    between, it takes an address in every family it asks for or leaves them all alone. -/
theorem allocateNext_spec (text : IpText) {s : IpamState} (hexcl : s.excludedIps = .empty)
    (family : Option Family) (owner pool : String) :
    (allocateNext text family owner pool).run.Guards (sem text) anyOp
      (Spec s family owner pool) s := by
  unfold Spec
  refine guards_allocateNext (A := fun r t => Frame s .ipv6 t ∧
    Outcome s .ipv6 (serves s family .ipv6) pool r t) ?_ ?_ ?_
  · refine Prog.Guards.imp_try (fun _ _ h => h) (fun e t h => ?_)
      (allocateIpv6_spec text hexcl configured_of_serves owner pool)
    obtain ⟨hframe, hsame, hserves, href⟩ := h
    refine ⟨stable_of_frame hframe, fun f => ?_, .ipv6, hserves, href⟩
    cases f with
    | ipv6 => exact hsame
    | ipv4 => exact unmoved_of_allocator (hframe.other .ipv4 (by decide))
  · rintro r t ⟨hframe, h6⟩ hserves
    have h4t := unmoved_of_allocator (hframe.other .ipv4 (by decide))
    rw [hserves]
    exact ⟨stable_of_frame hframe, ⟨nofun, fun _ => ⟨rfl, h4t⟩⟩, h6⟩
  · rintro r t ⟨hframe, h6⟩ hserves
    have h4t : t.allocator .ipv4 = s.allocator .ipv4 := hframe.other .ipv4 (by decide)
    have hconf : t.configured .ipv4 = true :=
      (hframe.configured .ipv4).trans (configured_of_serves hserves)
    have hexclt : t.excludedIps = .empty := hframe.excludedIps.trans hexcl
    refine Prog.Guards.imp_try (fun result u hu => ?_) (fun e u hu => ?_)
      (allocateNextFamily_spec text hexclt hconf owner pool)
    · obtain ⟨ip, name⟩ := result
      obtain ⟨hframe', hpool, rfl, htook⟩ := hu
      have h6u : u.allocator .ipv6 = t.allocator .ipv6 := hframe'.other .ipv6 (by decide)
      rw [hserves]
      refine ⟨(stable_of_frame hframe).trans (stable_of_frame hframe'), ⟨fun _ => ?_, nofun⟩, ?_⟩
      · exact ⟨hpool, ip, rfl, (unmoved_of_allocator h4t).took htook⟩
      · exact h6.of_unmoved (unmoved_of_allocator h6u)
    · -- No IPv4 address: what IPv6 took goes back.
      obtain ⟨hframe', hsame, href⟩ := hu
      have h6u := h6.of_unmoved (unmoved_of_allocator (hframe'.other .ipv6 (by decide)))
      have hconfu : ∀ f, u.configured f = s.configured f := fun f =>
        (hframe'.configured f).trans (hframe.configured f)
      refine Prog.Guards.imp_try (fun _ v hv => ?_) (fun _ _ hv => hv.elim)
        (giveBack_spec text h6u fun hs => (hconfu .ipv6).trans (configured_of_serves hs))
      refine ⟨((stable_of_frame hframe).trans (stable_of_frame hframe')).trans
        (stable_of_frame hv.1), fun f => ?_, .ipv4, hserves, ?_⟩
      · cases f with
        | ipv6 => exact hv.2
        | ipv4 =>
          have h4v := hv.1.other .ipv4 (by decide)
          exact ((unmoved_of_allocator h4t).trans hsame).trans (unmoved_of_allocator h4v)
      · rw [RefusedBy, free, h4t] at href
        exact href

end DefaultIpamService

end Sarena
