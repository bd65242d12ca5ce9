import Mathlib.Data.Set.Card
import Sarena.Ipam.OwnerMap
import Sarena.Ipam.Uniqueness

namespace Sarena

open Lib

/-!
# IPAM — allocating around exclusions

`allocate_next_family` draws free addresses until one is not excluded; an excluded address
that it draws stays taken.  Nothing in the loop bounds its turns, so this file counts the
addresses that are still free.  Whether an address is excluded is decided by a text built of
pool and address, and the second half finds out which pairs share it.

* `IpamState.freeSet`, `ncard_freeSet` — the free addresses of a family, and their number;
* `IpamState.allocateNextFamily_complete` — the loop ends within one turn more than that, and
  succeeds exactly when an address is available;
* `Overlaps` — two pairs of pool and address with the same key;
* `ExclusionLedger.precise_always_iff` — exclusions concern exactly their own pair and those
  that overlap with it.
-/

/-! ### Free addresses -/

namespace HostScopeAllocator

variable (a : HostScopeAllocator)

/-- The addresses that may be handed out are as many as the bitmap counts. -/
theorem ncard_free : {ip | Assignable a.net ip ∧ a.has ip = false}.ncard = a.free := by
  -- The free addresses are those of the offsets whose bit is clear.
  have hset : {ip | Assignable a.net ip ∧ a.has ip = false} =
      (fun offset => Sarena.offsetToIp a.base offset a.net) ''
        ↑(Finset.range a.alloc.max \ usedBelow a.alloc.max a.alloc.words) := by
    ext ip
    simp only [Set.mem_ofPred_eq, Set.mem_image, Finset.mem_coe, Finset.mem_sdiff, Finset.mem_range,
      mem_usedBelow, not_and, Bool.not_eq_true, a.assignable_iff]
    constructor
    · rintro ⟨⟨offset, hoffset⟩, hfree⟩
      rw [has, hoffset] at hfree
      obtain ⟨hlt, rfl⟩ := a.contains_eq_some.mp hoffset
      refine ⟨offset, ⟨a.alloc_max.symm ▸ hlt, fun _ => ?_⟩, rfl⟩
      exact (a.alloc.has_eq offset).symm.trans hfree
    · rintro ⟨offset, ⟨hlt, hfree⟩, rfl⟩
      have hoffset := a.contains_offsetToIp (a.alloc_max ▸ hlt)
      refine ⟨⟨offset, hoffset⟩, ?_⟩
      rw [has, hoffset]
      exact (a.alloc.has_eq offset).trans (hfree hlt)
  have hinj : Set.InjOn (fun offset => Sarena.offsetToIp a.base offset a.net)
      ↑(Finset.range a.alloc.max \ usedBelow a.alloc.max a.alloc.words) := by
    intro i hi j hj heq
    have hlt : ∀ {k}, k ∈ Finset.range a.alloc.max \ usedBelow a.alloc.max a.alloc.words →
        k < a.max := fun hk => a.alloc_max ▸ Finset.mem_range.mp (Finset.mem_sdiff.mp hk).1
    have hoffset := a.contains_offsetToIp (hlt (Finset.mem_coe.mp hi))
    rw [show Sarena.offsetToIp a.base i a.net = Sarena.offsetToIp a.base j a.net from heq,
      a.contains_offsetToIp (hlt (Finset.mem_coe.mp hj))] at hoffset
    exact (Option.some.inj hoffset).symm
  have hsub : usedBelow a.alloc.max a.alloc.words ⊆ Finset.range a.alloc.max :=
    Finset.filter_subset _ _
  rw [hset, hinj.ncard_image, Set.ncard_coe_finset, free, AllocationBitmap.free,
    a.alloc.count_eq, Finset.card_sdiff_of_subset hsub, Finset.card_range]

/-- Any free address can be the one that `allocate_next` hands out. -/
theorem exists_allocateNext {ip : IpAddr} (hin : Assignable a.net ip) (hfree : a.has ip = false) :
    ∃ random, (a.allocateNext random).1 = .ok ip := by
  obtain ⟨offset, hoffset⟩ := (a.assignable_iff ip).mp hin
  obtain ⟨hlt, heq⟩ := a.contains_eq_some.mp hoffset
  rw [has, hoffset] at hfree
  obtain ⟨random, hnext⟩ := a.alloc.exists_allocateNext (a.alloc_max ▸ hlt) hfree
  refine ⟨random, ?_⟩
  rw [allocateNext, hnext, heq]

end HostScopeAllocator

namespace IpamState

/-- The address is one that the family may hand out, and free. -/
def IsFree (s : IpamState) (f : Family) (ip : IpAddr) : Prop :=
  ∃ n, (s.allocator f).map (·.net) = some n ∧ Assignable n ip ∧ s.held f ip = false

/-- The free addresses of a family. -/
def freeSet (s : IpamState) (f : Family) : Set IpAddr := {ip | s.IsFree f ip}

/-- The pool and the address have an entry in `excluded_ips`. -/
def Excluded (text : IpText) (s : IpamState) (pool : String) (ip : IpAddr) : Prop :=
  s.excludedIps (excludedKey text pool ip) ≠ none

variable {text : IpText} {s t : IpamState} {f : Family}

theorem isFree_iff {a : HostScopeAllocator} (ha : s.allocator f = some a) (ip : IpAddr) :
    s.IsFree f ip ↔ Assignable a.net ip ∧ a.has ip = false := by
  unfold IsFree
  rw [ha, held_eq ha]
  simp only [Option.map_some, Option.some.injEq, exists_eq_left']

/-- The free addresses of a family that is configured are as many as its bitmap counts. -/
theorem ncard_freeSet (hconf : s.configured f = true) : (s.freeSet f).ncard = s.free f := by
  obtain ⟨a, ha⟩ := Option.isSome_iff_exists.mp hconf
  rw [free_eq ha, ← a.ncard_free]
  congr 1
  ext ip
  exact isFree_iff ha ip

/-- A full range has no free address. -/
theorem not_isFree_of_free (h : s.free f = 0) (ip : IpAddr) : ¬ s.IsFree f ip := by
  intro hip
  obtain ⟨n, hn, -⟩ := id hip
  obtain ⟨a, ha, -⟩ := Option.map_eq_some_iff.mp hn
  obtain ⟨hin, hfree⟩ := (isFree_iff ha ip).mp hip
  rw [free_eq ha] at h
  rw [a.free_eq_zero_iff.mp h ip hin] at hfree
  cases hfree

/-! ### The loop -/

/-- What a call of `allocate_next_family` for a configured family makes of the free
    addresses, when it answers `r`. -/
structure Drew (text : IpText) (s : IpamState) (f : Family) (pool : String)
    (r : Except IpamError AllocationResult) (t : IpamState) : Prop where
  frame : Frame s f t
  kept : ∀ ip, s.held f ip = true → t.held f ip = true
  taken : ∀ ip, t.held f ip = true → s.held f ip = true ∨
    (s.IsFree f ip ∧ (s.Excluded text pool ip ∨ handedOut r = some ip))
  ok : ∀ result, r = .ok result → result.ipPoolName = POOL_DEFAULT ∧ s.IsFree f result.ip ∧
    ¬ s.Excluded text pool result.ip ∧ t.held f result.ip = true
  full : ∀ e, r = .error e → e = .rangeFull ∧ ∀ ip, s.IsFree f ip → t.held f ip = true

/-- Taking an address keeps the others free. -/
theorem Took.isFree {ip : IpAddr} (h : Took s f ip t) (hframe : Frame s f t) (j : IpAddr) :
    t.IsFree f j ↔ s.IsFree f j ∧ j ≠ ip := by
  unfold IsFree
  rw [hframe.net, h.held, Bool.or_eq_false_iff, decide_eq_false_iff_not]
  constructor
  · rintro ⟨n, hn, hin, hfree, hne⟩
    exact ⟨⟨n, hn, hin, hfree⟩, hne⟩
  · rintro ⟨⟨n, hn, hin, hfree⟩, hne⟩
    exact ⟨n, hn, hin, hfree, hne⟩

/-- The address taken was free. -/
theorem Took.isFree_self {ip : IpAddr} (h : Took s f ip t) (hframe : Frame s f t) :
    s.IsFree f ip := by
  obtain ⟨n, hn, hin⟩ := h.assignable hframe
  exact ⟨n, hn, hin, h.free⟩

/-- A turn that finds the range full. -/
theorem Drew.full_range {pool : String} (hframe : Frame s f t) (hsame : Unmoved s f t)
    (hfree : s.free f = 0) : Drew text s f pool (.error .rangeFull) t := by
  refine ⟨hframe, fun ip hip => ?_, fun ip hip => .inl ?_, nofun, ?_⟩
  · rwa [hsame.held]
  · rwa [hsame.held] at hip
  · rintro e ⟨⟩
    exact ⟨rfl, fun ip hip => absurd hip (not_isFree_of_free hfree ip)⟩

/-- A turn that takes an address without an exclusion, and hands it out. -/
theorem Drew.granted {pool : String} {ip : IpAddr} (hframe : Frame s f t) (htook : Took s f ip t)
    (hnot : ¬ s.Excluded text pool ip) : Drew text s f pool (.ok ⟨ip, POOL_DEFAULT⟩) t := by
  have hself := htook.isFree_self hframe
  refine ⟨hframe, fun j hj => ?_, fun j hj => ?_, ?_, nofun⟩
  · rw [htook.held, hj, Bool.true_or]
  · rw [htook.held, Bool.or_eq_true, decide_eq_true_iff] at hj
    rcases hj with hj | rfl
    · exact .inl hj
    · exact .inr ⟨hself, .inr rfl⟩
  · rintro result ⟨⟩
    refine ⟨rfl, hself, hnot, ?_⟩
    rw [htook.held, decide_eq_true rfl, Bool.or_true]

/-- A turn that takes an excluded address: it joins the ones taken, and the loop goes
    around from there. -/
theorem Drew.skip {pool : String} {ip : IpAddr} {u : IpamState}
    {r : Except IpamError AllocationResult} (hframe : Frame s f u) (htook : Took s f ip u)
    (hexcl : s.Excluded text pool ip) (hrest : Drew text u f pool r t) :
    Drew text s f pool r t := by
  have hkey : ∀ j, u.Excluded text pool j ↔ s.Excluded text pool j := by
    intro j
    unfold Excluded
    rw [hframe.excludedIps]
  refine ⟨hframe.trans hrest.frame, fun j hj => ?_, fun j hj => ?_, ?_, ?_⟩
  · apply hrest.kept
    rw [htook.held, hj, Bool.true_or]
  · obtain hj | ⟨hj, hwhy⟩ := hrest.taken j hj
    · rw [htook.held, Bool.or_eq_true, decide_eq_true_iff] at hj
      rcases hj with hj | rfl
      · exact .inl hj
      · exact .inr ⟨htook.isFree_self hframe, .inl hexcl⟩
    · rw [hkey] at hwhy
      exact .inr ⟨((htook.isFree hframe j).mp hj).1, hwhy⟩
  · intro result hr
    obtain ⟨hname, hfree, hnot, hheld⟩ := hrest.ok result hr
    rw [hkey] at hnot
    exact ⟨hname, ((htook.isFree hframe _).mp hfree).1, hnot, hheld⟩
  · intro e he
    obtain ⟨hfull, hall⟩ := hrest.full e he
    refine ⟨hfull, fun j hj => ?_⟩
    by_cases hji : j = ip
    · rw [hji]
      apply hrest.kept
      rw [htook.held, decide_eq_true rfl, Bool.or_true]
    · exact hall j ((htook.isFree hframe j).mpr ⟨hj, hji⟩)

theorem allocateNextFamily_drew {owner pool : String} {randoms : List Nat}
    {r : Except IpamError AllocationResult}
    (h : allocateNextFamily text f owner pool randoms s = some (r, t))
    (hconf : s.configured f = true) : Drew text s f pool r t := by
  induction randoms generalizing s with
  | nil => cases h
  | cons random randoms ih =>
    obtain ⟨hnot, -⟩ | ⟨-, hfree, t', hframe, hsame, -, heq⟩ | ⟨ip, t', hframe, htook, -, heq⟩ :=
      allocateNextFamily_turn text f owner pool random randoms s
    · rw [hconf] at hnot
      cases hnot
    · obtain ⟨rfl, rfl⟩ := Prod.mk.inj (Option.some.inj (heq.symm.trans h))
      exact .full_range hframe hsame hfree
    · -- Either way the owner is recorded, which moves no address.
      have hframe' := fun owner' => hframe.trans (frame_registerIpOwner text t' f ip owner' pool)
      have htook' := fun owner' =>
        htook.of_unmoved (unmoved_registerIpOwner text t' f ip owner' pool)
      rw [heq] at h
      split at h
      next hnone =>
        obtain ⟨rfl, rfl⟩ := Prod.mk.inj (Option.some.inj h)
        exact .granted (hframe' owner) (htook' owner)
          (not_not.mpr (Option.isNone_iff_eq_none.mp hnone))
      next hsome =>
        have hexcl : s.Excluded text pool ip := fun hnone => hsome (by rw [hnone]; rfl)
        exact .skip (hframe' _) (htook' _) hexcl (ih h (by rw [(hframe' _).configured, hconf]))

/-- A call that answers `r` for a configured family, as its caller sees it. -/
structure Completed (text : IpText) (s : IpamState) (f : Family) (pool : String)
    (r : Except IpamError AllocationResult) (t : IpamState) : Prop where
  ok_iff : (∃ ip, r = .ok ⟨ip, POOL_DEFAULT⟩ ∧ s.IsFree f ip ∧ ¬ s.Excluded text pool ip ∧
    t.held f ip = true) ↔ ∃ ip, s.IsFree f ip ∧ ¬ s.Excluded text pool ip
  full : (¬ ∃ ip, s.IsFree f ip ∧ ¬ s.Excluded text pool ip) → r = .error .rangeFull ∧
    ∀ ip, t.held f ip = true ↔ s.held f ip = true ∨ (s.IsFree f ip ∧ s.Excluded text pool ip)
  kept : ∀ ip, s.held f ip = true → t.held f ip = true
  other : ∀ g, g ≠ f → t.allocator g = s.allocator g

theorem Drew.completed {pool : String} {r : Except IpamError AllocationResult}
    (h : Drew text s f pool r t) : Completed text s f pool r t := by
  cases r with
  | ok result =>
    obtain ⟨ip, name⟩ := result
    obtain ⟨rfl, hfree, hnot, hheld⟩ := h.ok _ rfl
    refine ⟨iff_of_true ⟨ip, rfl, hfree, hnot, hheld⟩ ⟨ip, hfree, hnot⟩, ?_, h.kept, h.frame.other⟩
    exact fun hnone => absurd ⟨ip, hfree, hnot⟩ hnone
  | error e =>
    obtain ⟨rfl, hall⟩ := h.full e rfl
    -- All free addresses were taken, and none was handed out, so each was excluded.
    have hexcl : ∀ ip, s.IsFree f ip → s.Excluded text pool ip := by
      intro ip hip
      obtain hheld | ⟨-, hexcl | hout⟩ := h.taken ip (hall ip hip)
      · obtain ⟨n, -, -, hfree⟩ := hip
        rw [hheld] at hfree
        cases hfree
      · exact hexcl
      · cases hout
    refine ⟨iff_of_false ?_ ?_, fun _ => ⟨rfl, fun ip => ⟨fun hip => ?_, ?_⟩⟩, h.kept,
      h.frame.other⟩
    · rintro ⟨ip, hr, -⟩
      cases hr
    · rintro ⟨ip, hip, hnot⟩
      exact hnot (hexcl ip hip)
    · obtain hheld | ⟨hfree, -⟩ := h.taken ip hip
      · exact .inl hheld
      · exact .inr ⟨hfree, hexcl ip hfree⟩
    · rintro (hheld | ⟨hfree, -⟩)
      · exact h.kept ip hheld
      · exact hall ip hfree

/-- **Termination and completeness.** For a configured family and a pool, whatever is held
    and excluded and wherever the searches of the bitmap start, the loop ends within one turn
    more than there are free addresses; it hands out a free address that is not excluded when
    there is one, and otherwise takes exactly the excluded ones and finds the range full. -/
theorem allocateNextFamily_complete (text : IpText) {s : IpamState} {f : Family}
    (hconf : s.configured f = true) (owner : String) {pool : String} (hpool : pool ≠ "") :
    (∀ randoms : List Nat, randoms.length = (s.freeSet f).ncard + 1 →
      ∃ r t, s.allocateNextFamily text f owner pool randoms = some (r, t)) ∧
    ∀ tr r t, Exec (sem text) (DefaultIpamService.allocateNextFamily f owner pool).run s tr
      (.pure r) t → Completed text s f pool r t := by
  constructor
  · intro randoms hlen
    rw [ncard_freeSet hconf] at hlen
    have hsome := allocateNextFamily_isSome text f owner pool randoms s (by omega)
    obtain ⟨⟨r, t⟩, heq⟩ := Option.isSome_iff_exists.mp hsome
    exact ⟨r, t, heq⟩
  · intro tr r t hx
    rw [DefaultIpamService.allocateNextFamily, if_neg hpool] at hx
    obtain ⟨b, u, tr', rfl, ⟨randoms, h⟩, hend⟩ := Exec.op_pure_iff.mp hx
    obtain ⟨-, hr, rfl⟩ := Exec.pure_iff.mp hend
    obtain rfl := Prog.pure.inj hr
    exact (allocateNextFamily_drew h hconf).completed

/-- What a call hands out was not excluded. -/
theorem allocateNextFamily_not_excluded {owner pool : String} {randoms : List Nat}
    {result : AllocationResult}
    (h : allocateNextFamily text f owner pool randoms s = some (.ok result, t)) :
    ¬ s.Excluded text pool result.ip := by
  cases hconf : s.configured f with
  | true => exact ((allocateNextFamily_drew h hconf).ok result rfl).2.2.1
  | false =>
    cases randoms with
    | nil => cases h
    | cons random randoms =>
      obtain ⟨-, heq⟩ | ⟨hyes, -⟩ | ⟨ip, t', hframe, htook, -⟩ :=
        allocateNextFamily_turn text f owner pool random randoms s
      · cases heq.symm.trans h
      · rw [hconf] at hyes
        cases hyes
      · obtain ⟨n, hn, -⟩ := htook.isFree_self hframe
        obtain ⟨a, ha, -⟩ := Option.map_eq_some_iff.mp hn
        rw [configured, ha] at hconf
        cases hconf

/-- Any free address can be the one that a turn of the loop draws. -/
theorem allocateNextFamily_draw {ip : IpAddr} (h : s.IsFree f ip) (owner pool : String) :
    ∃ random t, Frame s f t ∧ Took s f ip t ∧ t.owner = s.owner ∧ ∀ randoms,
      allocateNextFamily text f owner pool (random :: randoms) s =
        if (s.excludedIps (excludedKey text pool ip)).isNone then
          some (.ok ⟨ip, POOL_DEFAULT⟩, t.registerIpOwner text ip owner pool)
        else allocateNextFamily text f owner pool randoms
          (t.registerIpOwner text ip (owner ++ " (excluded)") pool) := by
  obtain ⟨n, hn, -⟩ := id h
  obtain ⟨a, ha, -⟩ := Option.map_eq_some_iff.mp hn
  obtain ⟨hin, hfree⟩ := (isFree_iff ha ip).mp h
  -- The search of the bitmap can begin at the offset of the address.
  obtain ⟨random, hdraw⟩ := a.exists_allocateNext hin hfree
  have hfam : (a.allocateNext random).2.net.family = f :=
    (congrArg IpNet.family (a.net_allocateNext random)).trans (family_of_allocator ha)
  refine ⟨random, s.withAllocator f (a.allocateNext random).2 hfam,
    frame_withAllocator ha (a.net_allocateNext random) hfam, ?_, owner_withAllocator _ _ _ _,
    fun randoms => ?_⟩
  · obtain ⟨j, a', heq, htook⟩ | ⟨heq, -⟩ := a.allocateNext_cases random
    · rw [heq] at hdraw
      obtain rfl := Except.ok.inj hdraw
      exact took_withAllocator ha (by rw [heq]; exact htook) hfam
    · rw [heq] at hdraw
      cases hdraw
  · rw [allocateNextFamily]
    split
    next hnone => cases ha.symm.trans hnone
    next a' ha' =>
      obtain rfl := Option.some.inj (ha.symm.trans ha')
      rw [hdraw]
      simp only [excludedIps_withAllocator]

/-- A call that its draws lead to an answer. -/
theorem exec_allocateNextFamily {owner pool : String} {randoms : List Nat}
    {r : Except IpamError AllocationResult} (hpool : pool ≠ "")
    (h : allocateNextFamily text f owner pool randoms s = some (r, t)) :
    ∃ tr, Exec (sem text) (DefaultIpamService.allocateNextFamily f owner pool).run s tr
      (.pure r) t := by
  rw [DefaultIpamService.allocateNextFamily, if_neg hpool]
  exact ⟨_, .step _ _ _ r t [] _ _ ⟨randoms, h⟩ (.refl _ _)⟩

/-- A service with two free addresses, the first of them excluded for the gateway. -/
def gatewayExcluded : IpamState :=
  (DefaultIpamService.new (.ipv4Only 0x0a000000 30)).excludeIp IpamLedger.plainText
    IpamLedger.address "gateway" POOL_DEFAULT

theorem gatewayExcluded_isFree {ip : IpAddr} (h : Assignable (.v4 0x0a000000 30) ip) :
    gatewayExcluded.IsFree .ipv4 ip := by
  have ha : gatewayExcluded.allocator .ipv4 = some (.new (.v4 0x0a000000 30)) := rfl
  rw [isFree_iff ha]
  exact ⟨h, HostScopeAllocator.has_new _ ip⟩

theorem gatewayExcluded_isNone (ip : IpAddr) :
    (gatewayExcluded.excludedIps (excludedKey IpamLedger.plainText POOL_DEFAULT ip)).isNone = true ↔
      ip ≠ IpamLedger.address := by
  have hkey : excludedKey IpamLedger.plainText POOL_DEFAULT ip =
      excludedKey IpamLedger.plainText POOL_DEFAULT IpamLedger.address ↔
        ip = IpamLedger.address := by
    rw [excludedKey, excludedKey, String.append_right_inj, IpamLedger.plainText_injective.eq_iff]
  show (KeyMap.insert _ _ _ _).isNone = true ↔ _
  rw [KeyMap.insert_apply]
  split
  next heq => exact iff_of_false Bool.false_ne_true (not_not.mpr (hkey.mp heq))
  next hne => exact iff_of_true rfl (mt hkey.mpr hne)

/-- The first turn draws the excluded address and takes it, the second hands out the other. -/
theorem gateway_complete :
    ∃ randoms t, gatewayExcluded.allocateNextFamily IpamLedger.plainText .ipv4 "pod-a"
        POOL_DEFAULT randoms = some (.ok ⟨.v4 0x0a000002, POOL_DEFAULT⟩, t) ∧
      t.held .ipv4 IpamLedger.address = true ∧
      Completed IpamLedger.plainText gatewayExcluded .ipv4 POOL_DEFAULT
        (.ok ⟨.v4 0x0a000002, POOL_DEFAULT⟩) t := by
  obtain ⟨hends, hcompleted⟩ := allocateNextFamily_complete IpamLedger.plainText
    (s := gatewayExcluded) (f := .ipv4) rfl "pod-a" POOL_DEFAULT_ne
  have hgate : gatewayExcluded.IsFree .ipv4 IpamLedger.address :=
    gatewayExcluded_isFree ⟨rfl, by decide⟩
  have hnext : gatewayExcluded.IsFree .ipv4 (.v4 0x0a000002) :=
    gatewayExcluded_isFree ⟨rfl, by decide⟩
  obtain ⟨first, u, hframe, htook, -, hfirst⟩ :=
    @allocateNextFamily_draw IpamLedger.plainText _ _ _ hgate "pod-a" POOL_DEFAULT
  have hexcl := mt (gatewayExcluded_isNone IpamLedger.address).mp (not_not.mpr rfl)
  -- Registering the owner moves neither the bitmap nor the exclusions.
  have hleft : (u.registerIpOwner IpamLedger.plainText IpamLedger.address
      ("pod-a" ++ " (excluded)") POOL_DEFAULT).IsFree .ipv4 (.v4 0x0a000002) :=
    (htook.isFree hframe _).mpr ⟨hnext, by decide⟩
  obtain ⟨second, t, hframe', htook', -, hsecond⟩ :=
    @allocateNextFamily_draw IpamLedger.plainText _ _ _ hleft "pod-a" POOL_DEFAULT
  have hkey : ((u.registerIpOwner IpamLedger.plainText IpamLedger.address
      ("pod-a" ++ " (excluded)") POOL_DEFAULT).excludedIps
      (excludedKey IpamLedger.plainText POOL_DEFAULT (.v4 0x0a000002))).isNone = true := by
    show (u.excludedIps _).isNone = true
    rw [hframe.excludedIps]
    exact (gatewayExcluded_isNone _).mpr (by decide)
  -- Two free addresses: three draws are enough, and the third is not made.
  obtain ⟨r, v, h⟩ := hends [first, second, 0] (by rw [ncard_freeSet rfl]; rfl)
  have hrun := (hfirst [second, 0]).trans (if_neg hexcl)
  rw [hsecond, if_pos hkey] at hrun
  obtain ⟨rfl, rfl⟩ := Prod.mk.inj (Option.some.inj (h.symm.trans hrun))
  obtain ⟨tr, hx⟩ := exec_allocateNextFamily POOL_DEFAULT_ne h
  refine ⟨_, _, h, ?_, hcompleted tr _ _ hx⟩
  show t.held .ipv4 IpamLedger.address = true
  rw [htook'.held, Bool.or_eq_true]
  left
  show u.held .ipv4 IpamLedger.address = true
  rw [htook.held, decide_eq_true rfl, Bool.or_true]

/-! ### The key of an exclusion -/

/-- Two pairs of pool and address that are written alike: one pool goes on after a colon with
    what the address of the other pair begins with. -/
def Overlaps (text : IpText) (p q : String × IpAddr) : Prop :=
  ∃ g, (p.1 = q.1 ++ ":" ++ g ∧ text.showAddr q.2 = g ++ ":" ++ text.showAddr p.2) ∨
    (q.1 = p.1 ++ ":" ++ g ∧ text.showAddr p.2 = g ++ ":" ++ text.showAddr q.2)

/-- The longer of two texts that go on alike after a colon. -/
private theorem colon_split {a b x y : String} {l : List Char} (hb : b.toList = a.toList ++ l)
    (hx : ':' :: x.toList = l ++ ':' :: y.toList) :
    (a = b ∧ x = y) ∨ ∃ g, b = a ++ ":" ++ g ∧ x = g ++ ":" ++ y := by
  cases l with
  | nil =>
    rw [List.append_nil] at hb
    exact .inl ⟨(String.toList_inj.mp hb).symm, String.toList_inj.mp (List.cons.inj hx).2⟩
  | cons c g =>
    obtain ⟨rfl, hx⟩ := List.cons.inj hx
    refine .inr ⟨String.ofList g, String.toList_inj.mp ?_, String.toList_inj.mp ?_⟩
    · simpa using hb
    · simpa using hx

/-- Two texts around a colon that read the same. -/
theorem append_colon_eq_iff (a b x y : String) :
    a ++ ":" ++ x = b ++ ":" ++ y ↔ (a = b ∧ x = y) ∨
      ∃ g, (a = b ++ ":" ++ g ∧ y = g ++ ":" ++ x) ∨ (b = a ++ ":" ++ g ∧ x = g ++ ":" ++ y) := by
  constructor
  · intro h
    have hlist : a.toList ++ ':' :: x.toList = b.toList ++ ':' :: y.toList := by
      simpa using congrArg String.toList h
    obtain ⟨l, hb, hx⟩ | ⟨l, ha, hy⟩ := List.append_eq_append_iff.mp hlist
    · obtain heq | ⟨g, hg⟩ := colon_split hb hx
      · exact .inl heq
      · exact .inr ⟨g, .inr hg⟩
    · obtain ⟨rfl, rfl⟩ | ⟨g, hg⟩ := colon_split ha hy
      · exact .inl ⟨rfl, rfl⟩
      · exact .inr ⟨g, .inl hg⟩
  · rintro (⟨rfl, rfl⟩ | ⟨g, ⟨rfl, rfl⟩ | ⟨rfl, rfl⟩⟩)
    · rfl
    · simp only [String.append_assoc]
    · simp only [String.append_assoc]

/-- **The key.** It tells apart all pairs but those that overlap. -/
theorem excludedKey_eq_iff (hinj : Function.Injective text.showAddr) (p q : String × IpAddr) :
    excludedKey text p.1 p.2 = excludedKey text q.1 q.2 ↔ p = q ∨ Overlaps text p q := by
  unfold excludedKey Overlaps
  rw [append_colon_eq_iff, hinj.eq_iff, Prod.ext_iff]

end IpamState

/-! ### Exclusions in every run -/

/-- The service, and the pairs of pool and address that `exclude_ip` was called with. -/
structure ExclusionLedger where
  ipam : IpamState
  excluded : List (String × IpAddr)

namespace ExclusionLedger

open IpamState DefaultIpamService

/-- The pairs excluded after a critical section. -/
def excludedAfter (l : List (String × IpAddr)) : ∀ β : Type, IpamOp β → List (String × IpAddr)
  | _, .excludeIp ip _ pool => (pool, ip) :: l
  | _, _ => l

/-- The service when it starts. -/
def start (subnets : IpamSubnets) : ExclusionLedger := ⟨DefaultIpamService.new subnets, []⟩

/-- One critical section of any call; every interleaving of calls is a run of these. -/
def Step (text : IpText) (s : ExclusionLedger) (e : Answered IpamOp) (t : ExclusionLedger) : Prop :=
  IpamState.sem text e.β e.op s.ipam e.answer t.ipam ∧
    t.excluded = excludedAfter s.excluded e.β e.op

/-- `allocate_ip` fails with the excluded error. -/
def Refuses (text : IpText) (s : IpamState) (owner pool : String) (ip : IpAddr) : Prop :=
  ∃ ownedBy tr t, Exec (sem text) (DefaultIpamService.allocateIp text ip owner pool).run s tr
    (.pure (.error (.excludedError (text.showAddr ip) ownedBy))) t

/-- No call of `allocate_next` hands out the address. -/
def Skips (text : IpText) (s : IpamState) (pool : String) (ip : IpAddr) : Prop :=
  ∀ family owner tr r t,
    Exec (sem text) (DefaultIpamService.allocateNext text family owner pool).run
    s tr (.pure (.ok r)) t → ip ∉ IpamRequest.addresses r

/-- The exclusions concern the pair exactly when `exclude_ip` was called with it: `allocate_ip`
    refuses it, and `allocate_next` skips it while it is free. -/
def Precise (text : IpText) (s : ExclusionLedger) (pool : String) (ip : IpAddr) : Prop :=
  (∀ owner, Refuses text s.ipam owner pool ip ↔ (pool, ip) ∈ s.excluded) ∧
    (s.ipam.IsFree ip.family ip → (Skips text s.ipam pool ip ↔ (pool, ip) ∈ s.excluded))

variable {text : IpText}

/-- `allocate_ip` fails with the excluded error exactly when it finds the key. -/
theorem allocateIp_excluded (s : IpamState) (owner pool ownedBy : String) (ip : IpAddr) :
    (s.allocateIp text ip owner pool).1 = .error (.excludedError (text.showAddr ip) ownedBy) ↔
      s.excludedIps (excludedKey text pool ip) = some ownedBy := by
  rw [IpamState.allocateIp]
  split
  next other h => simp only [h, Except.error.injEq, IpamError.excludedError.injEq, true_and,
    Option.some.injEq]
  next h =>
    rw [h]
    refine iff_of_false ?_ (Option.some_ne_none _).symm
    split
    next => cases ip.family <;> rintro ⟨⟩
    next a ha =>
      -- The allocator itself refuses an address for other reasons.
      obtain ⟨-, -, a', heq, -⟩ | ⟨-, -, heq⟩ | ⟨-, -, heq⟩ := a.allocate_result text ip
      · simp only [heq]
        rintro ⟨⟩
      · simp only [heq]
        rintro ⟨⟩
      · simp only [heq]
        rintro ⟨⟩

theorem refuses_iff {s : IpamState} {pool : String} (hpool : pool ≠ "") (owner : String)
    (ip : IpAddr) : Refuses text s owner pool ip ↔ s.Excluded text pool ip := by
  unfold Refuses Excluded
  rw [DefaultIpamService.allocateIp, if_neg hpool, ← Option.isSome_iff_ne_none,
    Option.isSome_iff_exists]
  simp only [← allocateIp_excluded s owner pool _ ip]
  constructor
  · rintro ⟨ownedBy, tr, t, hx⟩
    obtain ⟨b, u, tr', rfl, hb, hend⟩ := Exec.op_pure_iff.mp hx
    obtain ⟨-, hr, -⟩ := Exec.pure_iff.mp hend
    refine ⟨ownedBy, ?_⟩
    rw [Prog.pure.inj hr]
    exact (congrArg Prod.fst hb).symm
  · rintro ⟨ownedBy, h⟩
    refine ⟨ownedBy, _, (s.allocateIp text ip owner pool).2, .step _ _ _ _ _ [] _ _ ?_ (.refl _ _)⟩
    exact Prod.ext h.symm rfl

/-- What `allocate_next` hands out was not excluded. -/
theorem allocateNext_not_excluded (s : IpamState) (family : Option Family) (owner pool : String) :
    (DefaultIpamService.allocateNext text family owner pool).run.Guards (sem text) anyOp
      (Prog.orError (fun r _ => ∀ ip ∈ IpamRequest.addresses r, ¬ s.Excluded text pool ip)
        fun _ _ => True) s := by
  have hfamily : ∀ f (u : IpamState), u.excludedIps = s.excludedIps →
      (DefaultIpamService.allocateNextFamily f owner pool).run.Guards (sem text) anyOp
        (Prog.orError
          (fun r t => t.excludedIps = s.excludedIps ∧ ¬ s.Excluded text pool r.ip)
          fun _ _ => True) u := by
    intro f u hu
    rw [DefaultIpamService.allocateNextFamily]
    split
    · trivial
    · refine ⟨trivial, fun b t h => ?_⟩
      obtain ⟨randoms, h⟩ := h
      cases b with
      | error e => trivial
      | ok r =>
        have hnot := allocateNextFamily_not_excluded h
        unfold Excluded at hnot
        rw [hu] at hnot
        exact ⟨(frame_allocateNextFamily h).excludedIps.trans hu, hnot⟩
  refine guards_allocateNext (A := fun r t => t.excludedIps = s.excludedIps ∧
    ∀ ip ∈ (r.map AllocationResult.ip).toList, ¬ s.Excluded text pool ip) ?_ ?_ ?_
  · rw [allocateWanted]
    split
    · rw [map_eq_pure_bind]
      refine Prog.guards_try _ (hfamily .ipv6 s rfl) ?_
      rintro r t ⟨ht, hnot⟩
      refine ⟨ht, fun ip hip => ?_⟩
      rw [List.mem_singleton.mp hip]
      exact hnot
    · exact ⟨rfl, by rintro _ ⟨⟩⟩
  · rintro ipv6Result t ⟨-, hnot6⟩ -
    exact hnot6
  · rintro ipv6Result t ⟨ht, hnot6⟩ -
    refine Prog.Guards.imp_try (fun r u hu => ?_) (fun e u _ => ?_) (hfamily .ipv4 t ht)
    · intro ip hip
      rcases List.mem_cons.mp (show ip ∈ r.ip :: (ipv6Result.map (·.ip)).toList from hip)
        with rfl | hip
      · exact hu.2
      · exact hnot6 ip hip
    · exact Prog.Guards.imp (fun r _ _ => by cases r <;> trivial) (Prog.guards_true _ _)

/-- An allocation in one family, as a call of `allocate_next` for it. -/
theorem exec_allocateNext {s t : IpamState} {f : Family} (hconf : s.configured f = true)
    {owner pool : String} {tr : List (Answered IpamOp)} {result : AllocationResult}
    (h : Exec (sem text) (DefaultIpamService.allocateNextFamily f owner pool).run s tr
      (.pure (.ok result)) t) :
    ∃ tr r, Exec (sem text) (DefaultIpamService.allocateNext text (some f) owner pool).run s tr
      (.pure (.ok r)) t ∧ result.ip ∈ IpamRequest.addresses r := by
  have h6 : Exec (sem text) (perform .ipv6Configured) s _ (.pure (s.configured .ipv6)) s :=
    .perform ⟨rfl, rfl⟩
  have h4 : Exec (sem text) (perform .ipv4Configured) s _ (.pure (s.configured .ipv4)) s :=
    .perform ⟨rfl, rfl⟩
  cases f with
  | ipv6 =>
    have hwanted : ∃ tr, Exec (sem text) (allocateWanted (wants (some .ipv6) .ipv6 &&
        s.configured .ipv6) .ipv6 owner pool).run s tr (.pure (.ok (some result))) t := by
      rw [hconf]
      exact ⟨_, Exec.bind_ok h (.refl _ _)⟩
    obtain ⟨tr', hwanted⟩ := hwanted
    exact ⟨_, _, Exec.bind_ok (.lift h6) (Exec.bind_ok (.lift h4)
      (Exec.bind_ok hwanted (.refl _ _))), List.mem_singleton.mpr rfl⟩
  | ipv4 =>
    have hwanted : Exec (sem text) (allocateWanted (wants (some .ipv4) .ipv6 &&
        s.configured .ipv6) .ipv6 owner pool).run s [] (.pure (.ok none)) s := .refl _ _
    rw [hconf] at h4
    exact ⟨_, _, Exec.bind_ok (.lift h6) (Exec.bind_ok (.lift h4) (Exec.bind_ok hwanted
      (Exec.bind_ok (.lift h) (.refl _ _)))), List.mem_singleton.mpr rfl⟩

/-- `allocate_next` skips a free address exactly when it finds the key. -/
theorem skips_iff {s : IpamState} {pool : String} (hpool : pool ≠ "") {ip : IpAddr}
    (hfree : s.IsFree ip.family ip) : Skips text s pool ip ↔ s.Excluded text pool ip := by
  constructor
  · intro hskips
    by_contra hnot
    obtain ⟨random, t, -, -, -, hdraw⟩ := allocateNextFamily_draw hfree "" pool
    have hconf : s.configured ip.family = true := by
      obtain ⟨n, hn, -⟩ := hfree
      obtain ⟨a, ha, -⟩ := Option.map_eq_some_iff.mp hn
      rw [configured, ha]
      rfl
    have hok := hdraw []
    rw [if_pos (Option.isNone_iff_eq_none.mpr (not_not.mp hnot))] at hok
    obtain ⟨tr, hx⟩ := exec_allocateNextFamily hpool hok
    obtain ⟨tr', r, hx', hmem⟩ := exec_allocateNext hconf hx
    exact hskips _ _ _ _ _ hx' hmem
  · intro hexcl family owner tr r t hx hmem
    exact (allocateNext_not_excluded s family owner pool).exec hx ip hmem hexcl

/-! ### The invariant -/

/-- The keys are those of the pairs that `exclude_ip` was called with. -/
def Keyed (text : IpText) (s : ExclusionLedger) : Prop :=
  ∀ key, s.ipam.excludedIps key ≠ none ↔ ∃ p ∈ s.excluded, excludedKey text p.1 p.2 = key

theorem keyed_start (text : IpText) (subnets : IpamSubnets) : Keyed text (start subnets) := by
  intro key
  refine iff_of_false (fun h => h rfl) ?_
  rintro ⟨p, hp, -⟩
  cases hp

/-- **Step.** Only `exclude_ip` adds a key, that of its own pair. -/
theorem keyed_step {s t : ExclusionLedger} {e : Answered IpamOp} (h : Step text s e t)
    (hs : Keyed text s) : Keyed text t := by
  obtain ⟨op, b⟩ := e
  obtain ⟨hsem, hexcl⟩ := h
  intro key
  cases op with
  | excludeIp ip owner pool =>
    rw [hexcl, show t.ipam = _ from hsem]
    show s.ipam.excludedIps.insert _ _ key ≠ none ↔ ∃ p ∈ (pool, ip) :: s.excluded, _
    -- The new key is that of the new pair; the others stay.
    rw [KeyMap.insert_apply, List.exists_mem_cons_iff, ← hs key]
    by_cases hkey : key = excludedKey text pool ip
    · rw [if_pos hkey]
      exact iff_of_true nofun (.inl hkey.symm)
    · rw [if_neg hkey]
      exact ⟨.inr, fun h => h.resolve_left fun heq => hkey heq.symm⟩
  | ipv6Configured =>
    rw [hexcl, hsem.2]
    exact hs key
  | ipv4Configured =>
    rw [hexcl, hsem.2]
    exact hs key
  | allocateNextFamily f owner pool =>
    obtain ⟨randoms, hsem⟩ := hsem
    rw [hexcl, (frame_allocateNextFamily hsem).excludedIps]
    exact hs key
  | allocateIp ip owner pool =>
    rw [hexcl, show t.ipam = _ from congrArg Prod.snd hsem,
      (frame_allocateIp text s.ipam ip owner pool).excludedIps]
    exact hs key
  | releaseIp ip pool =>
    rw [hexcl, show t.ipam = _ from congrArg Prod.snd hsem,
      (frame_releaseIpLocked text s.ipam ip pool).excludedIps]
    exact hs key

/-- Where the keys are those of the pairs, a pair is excluded when it is one of them or
    overlaps with one. -/
theorem excluded_iff (hinj : Function.Injective text.showAddr) {s : ExclusionLedger}
    (hs : Keyed text s) (pool : String) (ip : IpAddr) : s.ipam.Excluded text pool ip ↔
      (pool, ip) ∈ s.excluded ∨ ∃ p ∈ s.excluded, Overlaps text p (pool, ip) := by
  unfold Excluded
  rw [hs]
  have hkey := fun p => excludedKey_eq_iff hinj p (pool, ip)
  constructor
  · rintro ⟨p, hp, heq⟩
    obtain rfl | hover := (hkey p).mp heq
    · exact .inl hp
    · exact .inr ⟨p, hp, hover⟩
  · rintro (hmem | ⟨p, hp, hover⟩)
    · exact ⟨_, hmem, rfl⟩
    · exact ⟨p, hp, (hkey p).mpr (.inr hover)⟩

/-- **Exact condition.** In every state of every run, whatever calls interleave in it, the
    exclusions concern a pair of pool and address precisely, exactly when the pair itself was
    excluded or none that was excluded overlaps with it. -/
theorem precise_always_iff (hinj : Function.Injective text.showAddr) (subnets : IpamSubnets)
    {s : ExclusionLedger} (run : Run (Step text) (start subnets) s) :
    run.Always fun s => ∀ pool ip, pool ≠ "" → (Precise text s pool ip ↔
      (pool, ip) ∈ s.excluded ∨ ∀ p ∈ s.excluded, ¬ Overlaps text p (pool, ip)) := by
  refine Run.Always.mono ?_ (run.always_of_invariant (keyed_start text subnets)
    fun s a t h => keyed_step h)
  intro s hs pool ip hpool
  have hexcl := excluded_iff hinj hs pool ip
  have hprecise : Precise text s pool ip ↔
      (s.ipam.Excluded text pool ip ↔ (pool, ip) ∈ s.excluded) := by
    unfold Precise
    simp only [refuses_iff hpool]
    constructor
    · exact fun h => h.1 ""
    · exact fun h => ⟨fun _ => h, fun hfree => (skips_iff hpool hfree).trans h⟩
  rw [hprecise, hexcl]
  constructor
  · intro h
    by_cases hmem : (pool, ip) ∈ s.excluded
    · exact .inl hmem
    · exact .inr fun p hp hover => hmem (h.mp (.inr ⟨p, hp, hover⟩))
  · rintro (hmem | hnone)
    · exact iff_of_true (.inl hmem) hmem
    · exact ⟨fun h => h.resolve_right fun ⟨p, hp, hover⟩ => hnone p hp hover, .inl⟩

/-- One call of `exclude_ip`, from the start. -/
theorem exclude_step (text : IpText) (subnets : IpamSubnets) (ip : IpAddr) (owner pool : String) :
    Step text (start subnets) ⟨.excludeIp ip owner pool, ()⟩
      ⟨(start subnets).ipam.excludeIp text ip owner pool, [(pool, ip)]⟩ :=
  ⟨rfl, rfl⟩

/-- A single exclusion concerns its own pair precisely. -/
theorem one_exclusion_precise :
    ∃ s, ∃ _ : Run (Step IpamLedger.plainText) (start IpamLedger.oneAddress) s,
      Precise IpamLedger.plainText s "custom" IpamLedger.address := by
  have hrun := Run.nil.snoc _ _ _
    (exclude_step IpamLedger.plainText IpamLedger.oneAddress IpamLedger.address "node" "custom")
  have hiff := (precise_always_iff IpamLedger.plainText_injective IpamLedger.oneAddress hrun).last
  refine ⟨_, hrun, (hiff "custom" IpamLedger.address (by decide)).mpr (.inl ?_)⟩
  exact List.mem_singleton.mpr rfl

/-- The address `1:2::3`. -/
def longAddress : IpAddr := .v6 0x00010002000000000000000000000003

/-- The address `2::3`. -/
def shortAddress : IpAddr := .v6 0x00020000000000000000000000000003

/-- The usual texts for the two addresses above, and other texts for the others. -/
def colonName (ip : IpAddr) : String :=
  if ip = longAddress then "1:2::3"
  else if ip = shortAddress then "2::3"
  else String.ofList (IpamLedger.unaryText ip)

/-- Distinct texts for distinct addresses. -/
def colonText : IpText where
  parseNet _ := none
  parseAddr _ := .error "invalid IP address syntax"
  showAddr := colonName

/-- A name for one address that no other one has. -/
private theorem injective_named {f : IpAddr → String} (hf : Function.Injective f) {ip : IpAddr}
    {name : String} (hname : ∀ j, f j ≠ name) :
    Function.Injective fun j => if j = ip then name else f j := by
  intro i j h
  have h : (if i = ip then name else f i) = if j = ip then name else f j := h
  split at h <;> split at h
  next hi hj => rw [hi, hj]
  next => exact absurd h.symm (hname j)
  next => exact absurd h (hname i)
  next => exact hf h

theorem colonText_injective : Function.Injective colonText.showAddr := by
  have hunary : ∀ (ip : IpAddr) (name : List Char), name.head? ≠ some '4' → name.head? ≠ some '6' →
      String.ofList (IpamLedger.unaryText ip) ≠ String.ofList name := by
    intro ip name h4 h6 heq
    rw [← String.ofList_injective heq] at h4 h6
    cases ip with
    | v4 a => exact h4 rfl
    | v6 a => exact h6 rfl
  have hrest : Function.Injective fun ip => String.ofList (IpamLedger.unaryText ip) :=
    fun i j h => IpamLedger.unaryText_injective (String.ofList_injective h)
  have hshort : Function.Injective fun ip =>
      if ip = shortAddress then "2::3" else String.ofList (IpamLedger.unaryText ip) :=
    injective_named hrest fun j => hunary j ['2', ':', ':', '3'] (by decide) (by decide)
  refine injective_named hshort fun j => ?_
  split
  · decide
  · exact hunary j ['1', ':', '2', ':', ':', '3'] (by decide) (by decide)

/-- The two pairs have one key. -/
theorem colon_key : excludedKey colonText "pool:1" shortAddress =
    excludedKey colonText "pool" longAddress := by
  have hshort : colonText.showAddr shortAddress = "2::3" := by
    show colonName shortAddress = _
    rw [colonName, if_neg (by decide), if_pos rfl]
  have hlong : colonText.showAddr longAddress = "1:2::3" := by
    show colonName longAddress = _
    rw [colonName, if_pos rfl]
  rw [excludedKey, excludedKey, hshort, hlong]
  decide

/-- **The colon.** After `exclude_ip(1:2::3)` for the pool `pool`, the address `2::3` is refused
    to the pool `pool:1`, which it was never excluded for. -/
theorem colon_pool_refused :
    Function.Injective colonText.showAddr ∧
      ∃ s, ∃ _ : Run (Step colonText) (start IpamLedger.oneAddress) s,
        ("pool:1", shortAddress) ∉ s.excluded ∧
          Refuses colonText s.ipam "pod-a" "pool:1" shortAddress ∧
          ¬ Precise colonText s "pool:1" shortAddress := by
  have hrun := Run.nil.snoc _ _ _
    (exclude_step colonText IpamLedger.oneAddress longAddress "node" "pool")
  have hnot : ("pool:1", shortAddress) ∉ [("pool", longAddress)] := by decide
  have hrefuses : Refuses colonText ((start IpamLedger.oneAddress).ipam.excludeIp colonText
      longAddress "node" "pool") "pod-a" "pool:1" shortAddress := by
    refine (refuses_iff (by decide) _ _).mpr ?_
    have hself := KeyMap.insert_self (start IpamLedger.oneAddress).ipam.excludedIps
      (excludedKey colonText "pool" longAddress) "node"
    unfold Excluded
    rw [colon_key]
    exact fun hnone => Option.some_ne_none _ (hself.symm.trans hnone)
  exact ⟨colonText_injective, _, hrun, hnot, hrefuses, fun h => hnot ((h.1 "pod-a").mp hrefuses)⟩

end ExclusionLedger

end Sarena
