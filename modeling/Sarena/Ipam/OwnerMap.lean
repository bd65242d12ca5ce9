import Sarena.Ipam.Interval
import Sarena.Ipam.Service

namespace Sarena

open Lib

/-!
# IPAM — the owner map and the allocators

An allocation registers the owner under the pool that the caller named, but its result
always names the default pool, and that is the pool a release looks the owner up in.  This
file finds out exactly which runs of calls keep the owner map and the allocators consistent.

* `IpamState.Consistent` — an address is held when it has an owner in exactly one pool;
* `IpamState.Clean` — the invariant: besides, an address that is free has no owner at all;
* `IpamLedger`, `IpamLedger.Step` — sequences of calls, with the results to release by;
* `IpamLedger.consistent_always_iff` — the runs that stay consistent are exactly those in
  which every release finds its owner in the pool of the result, and no allocation of
  another pool is rolled back.
-/

namespace IpamState

/-- An address is held by its family's allocator exactly when it has an owner entry in
    exactly one pool. -/
def Consistent (text : IpText) (s : IpamState) : Prop :=
  ∀ ip, s.holds ip = true ↔ ∃! pool, s.owner (pool, text.showAddr ip) ≠ none

/-- A held address has one owner entry, and a free one has none. -/
structure Clean (text : IpText) (s : IpamState) : Prop where
  held : ∀ ip, s.holds ip = true → ∃ pool, ∀ q, s.owner (q, text.showAddr ip) ≠ none ↔ q = pool
  free : ∀ ip, s.holds ip = false → ∀ q, s.owner (q, text.showAddr ip) = none

/-- Some address of the family is free, and not excluded for the pool. -/
def available (text : IpText) (s : IpamState) (f : Family) (pool : String) : Prop :=
  ∃ n ip, (s.allocator f).map (·.net) = some n ∧ Assignable n ip ∧ s.held f ip = false ∧
    s.excludedIps (excludedKey text pool ip) = none

variable {text : IpText} {s t : IpamState}

theorem Clean.consistent (h : Clean text s) : Consistent text s := by
  intro ip
  constructor
  · intro hheld
    obtain ⟨pool, hpool⟩ := h.held ip hheld
    exact ⟨pool, (hpool pool).mpr rfl, fun q hq => (hpool q).mp hq⟩
  · rintro ⟨pool, hpool, -⟩
    rw [← Bool.not_eq_false]
    exact fun hfree => hpool (h.free ip hfree pool)

/-- The only pool with an owner entry of a held address. -/
theorem Clean.pool_eq (h : Clean text s) {ip : IpAddr} (hheld : s.holds ip = true) {p q : String}
    (hp : s.owner (p, text.showAddr ip) ≠ none) (hq : s.owner (q, text.showAddr ip) ≠ none) :
    p = q := by
  obtain ⟨pool, hpool⟩ := h.held ip hheld
  rw [(hpool p).mp hp, (hpool q).mp hq]

/-- Taking a free address and registering its owner. -/
theorem Clean.register (hinj : Function.Injective text.showAddr) (h : Clean text s) {ip : IpAddr}
    {pool owner : String} (hfree : s.holds ip = false)
    (hholds : ∀ j, t.holds j = (s.holds j || decide (j = ip)))
    (howner : t.owner = s.owner.insert (pool, text.showAddr ip) owner) : Clean text t := by
  have hother : ∀ j, j ≠ ip → ∀ q, t.owner (q, text.showAddr j) = s.owner (q, text.showAddr j) := by
    intro j hj q
    rw [howner, KeyMap.insert_of_ne]
    exact fun heq => hj (hinj (congrArg Prod.snd heq))
  have hself : ∀ q, t.owner (q, text.showAddr ip) ≠ none ↔ q = pool := by
    intro q
    rw [howner, KeyMap.insert_apply]
    by_cases hq : q = pool
    · rw [if_pos (by rw [hq])]
      exact iff_of_true nofun hq
    · rw [if_neg (fun heq => hq (congrArg Prod.fst heq)), h.free ip hfree]
      exact iff_of_false (fun hne => hne rfl) hq
  constructor
  · intro j hj
    by_cases hji : j = ip
    · rw [hji]
      exact ⟨pool, hself⟩
    · rw [hholds, decide_eq_false hji, Bool.or_false] at hj
      obtain ⟨p, hp⟩ := h.held j hj
      exact ⟨p, fun q => by rw [hother j hji]; exact hp q⟩
  · intro j hj q
    rw [hholds, Bool.or_eq_false_iff, decide_eq_false_iff_not] at hj
    rw [hother j hj.2]
    exact h.free j hj.1 q

/-- **Release.** From a clean state, releasing a held address leaves a clean state when its
    owner entry is in the pool, and an inconsistent one when it is not. -/
theorem Clean.release (hinj : Function.Injective text.showAddr) (h : Clean text s) {ip : IpAddr}
    {pool : String} (hheld : s.holds ip = true)
    (hholds : ∀ j, t.holds j = (s.holds j && decide (j ≠ ip)))
    (howner : t.owner = s.owner.remove (pool, text.showAddr ip)) :
    (s.owner (pool, text.showAddr ip) ≠ none → Clean text t) ∧
      (s.owner (pool, text.showAddr ip) = none → ¬ Consistent text t) := by
  constructor
  · intro hpool
    -- The one entry of the address goes with it.
    have hself : ∀ q, t.owner (q, text.showAddr ip) = none := by
      intro q
      rw [howner, KeyMap.remove_apply]
      split
      · rfl
      next hne =>
        by_contra hq
        exact hne (by rw [h.pool_eq hheld hq hpool])
    have hother : ∀ j, j ≠ ip →
        ∀ q, t.owner (q, text.showAddr j) = s.owner (q, text.showAddr j) := by
      intro j hj q
      rw [howner, KeyMap.remove_of_ne]
      exact fun heq => hj (hinj (congrArg Prod.snd heq))
    constructor
    · intro j hj
      rw [hholds, Bool.and_eq_true, decide_eq_true_iff] at hj
      obtain ⟨p, hp⟩ := h.held j hj.1
      exact ⟨p, fun q => by rw [hother j hj.2]; exact hp q⟩
    · intro j hj q
      by_cases hji : j = ip
      · rw [hji]
        exact hself q
      · rw [hholds, decide_eq_true hji, Bool.and_true] at hj
        rw [hother j hji]
        exact h.free j hj q
  · -- The entry of the other pool outlives the address.
    intro hnone hcons
    obtain ⟨p, hp⟩ := h.held ip hheld
    have hself : ∀ q, t.owner (q, text.showAddr ip) = s.owner (q, text.showAddr ip) := by
      intro q
      rw [howner, KeyMap.remove_eq_self hnone]
    have hfree : t.holds ip = true := (hcons ip).mpr
      ⟨p, fun heq => (hp p).mpr rfl ((hself p).symm.trans heq),
        fun q hq => (hp q).mp fun heq => hq ((hself q).trans heq)⟩
    rw [hholds, decide_eq_false (not_not.mpr rfl), Bool.and_false] at hfree
    cases hfree

/-! ### The operations on a clean state -/

/-- An allocator that took an address, as the whole state sees it. -/
theorem Took.holds {f : Family} {ip : IpAddr} (h : Took s f ip t) (hframe : Frame s f t)
    (j : IpAddr) : t.holds j = (s.holds j || decide (j = ip)) := by
  rw [IpamState.holds, IpamState.holds]
  by_cases hf : j.family = f
  · rw [hf, h.held]
  · have hj : j ≠ ip := fun heq => hf (heq ▸ h.family)
    rw [decide_eq_false hj, Bool.or_false, IpamState.held, IpamState.held, hframe.other _ hf]

theorem Unmoved.holds {f : Family} (h : Unmoved s f t) (hframe : Frame s f t) (j : IpAddr) :
    t.holds j = s.holds j := by
  rw [IpamState.holds, IpamState.holds]
  by_cases hf : j.family = f
  · rw [hf, h.held]
  · rw [IpamState.held, IpamState.held, hframe.other _ hf]

/-- A clean state depends on the held addresses and the owners only. -/
theorem Clean.congr (h : Clean text s) (hholds : ∀ j, t.holds j = s.holds j)
    (howner : t.owner = s.owner) : Clean text t where
  held ip hip := by
    rw [howner]
    exact h.held ip (hholds ip ▸ hip)
  free ip hip := by
    rw [howner]
    exact h.free ip (hholds ip ▸ hip)

/-- Availability reads one family's allocator and the exclusions. -/
theorem available_of_allocator {f : Family} {pool : String} (h : t.allocator f = s.allocator f)
    (hexcl : t.excludedIps = s.excludedIps) :
    available text t f pool ↔ available text s f pool := by
  unfold available held
  rw [h, hexcl]

/-- Nothing is available in a range that is full. -/
theorem not_available_of_free {f : Family} (h : s.free f = 0) (pool : String) :
    ¬ available text s f pool := by
  rintro ⟨n, ip, hn, hin, hfree, -⟩
  obtain ⟨a, ha, rfl⟩ := Option.map_eq_some_iff.mp hn
  rw [free_eq ha] at h
  rw [held_eq ha, a.free_eq_zero_iff.mp h ip hin] at hfree
  cases hfree

/-- Taking an excluded address leaves the available ones as they were. -/
theorem available_of_took {f : Family} {ip : IpAddr} {pool : String} (h : Took s f ip t)
    (hframe : Frame s f t) (hexcl : s.excludedIps (excludedKey text pool ip) ≠ none) :
    available text t f pool ↔ available text s f pool := by
  constructor
  · rintro ⟨n, j, hn, hin, hfree, hnone⟩
    rw [h.held, Bool.or_eq_false_iff] at hfree
    exact ⟨n, j, (hframe.net f).symm.trans hn, hin, hfree.1, by rwa [← hframe.excludedIps]⟩
  · rintro ⟨n, j, hn, hin, hfree, hnone⟩
    refine ⟨n, j, (hframe.net f).trans hn, hin, ?_, by rwa [hframe.excludedIps]⟩
    have hj : j ≠ ip := by
      rintro rfl
      exact hexcl hnone
    rw [h.held, hfree, decide_eq_false hj]
    rfl

/-- An address that was taken is one of the block, as its allocator now holds it. -/
theorem Took.assignable {f : Family} {ip : IpAddr} (h : Took s f ip t) (hframe : Frame s f t) :
    ∃ n, (s.allocator f).map (·.net) = some n ∧ Assignable n ip := by
  have hnew : t.held f ip = true := by rw [h.held, decide_eq_true rfl, Bool.or_true]
  rw [IpamState.held, Option.any_eq_true] at hnew
  obtain ⟨a, ha, hhas⟩ := hnew
  refine ⟨a.net, ?_, a.assignable_of_has hhas⟩
  rw [← hframe.net, ha]
  rfl

/-- An address that was taken had been available, unless it is excluded. -/
theorem available_before_took {f : Family} {ip : IpAddr} {pool : String} (h : Took s f ip t)
    (hframe : Frame s f t) (hexcl : s.excludedIps (excludedKey text pool ip) = none) :
    available text s f pool := by
  obtain ⟨n, hn, hin⟩ := h.assignable hframe
  exact ⟨n, ip, hn, hin, h.free, hexcl⟩

/-- Registering an owner removes none. -/
theorem owner_registerIpOwner_ne_none {k : String × String} (h : s.owner k ≠ none) (ip : IpAddr)
    (owner pool : String) : (s.registerIpOwner text ip owner pool).owner k ≠ none := by
  rw [owner_registerIpOwner, KeyMap.insert_apply]
  split
  · exact nofun
  · exact h

/-- **`allocate_next_family` on a clean state.** The state stays clean, owners are only
    added, and it succeeds exactly when an address is available; its owner is then in the
    pool that the caller named. -/
theorem allocateNextFamily_clean (hinj : Function.Injective text.showAddr) {f : Family}
    {owner pool : String} {randoms : List Nat} {r : Except IpamError AllocationResult}
    (h : allocateNextFamily text f owner pool randoms s = some (r, t)) (hs : Clean text s) :
    Clean text t ∧ Frame s f t ∧ (∀ k, s.owner k ≠ none → t.owner k ≠ none) ∧
      (∀ result, r = .ok result → available text s f pool ∧
        t.owner (pool, text.showAddr result.ip) ≠ none) ∧
      ∀ e, r = .error e → ¬ available text s f pool := by
  induction randoms generalizing s with
  | nil => cases h
  | cons random randoms ih =>
    obtain ⟨hconf, heq⟩ | ⟨-, hfree, t', hframe, hsame, howner, heq⟩ |
      ⟨ip, t', hframe, htook, howner, heq⟩ :=
      allocateNextFamily_turn text f owner pool random randoms s
    · obtain ⟨rfl, rfl⟩ := Prod.mk.inj (Option.some.inj (heq.symm.trans h))
      refine ⟨hs, Frame.rfl' s f, fun _ hk => hk, by rintro _ ⟨⟩, fun e _ => ?_⟩
      rintro ⟨n, ip, hn, -⟩
      obtain ⟨a, ha, -⟩ := Option.map_eq_some_iff.mp hn
      rw [configured, ha] at hconf
      cases hconf
    · obtain ⟨rfl, rfl⟩ := Prod.mk.inj (Option.some.inj (heq.symm.trans h))
      refine ⟨hs.congr (hsame.holds hframe) howner, hframe, fun k hk => by rwa [howner],
        by rintro _ ⟨⟩,
        fun e _ => not_available_of_free hfree pool⟩
    · have hfree : s.holds ip = false := by
        rw [holds, htook.family]
        exact htook.free
      have hclean : ∀ owner', Clean text (t'.registerIpOwner text ip owner' pool) := by
        intro owner'
        have hregister := owner_registerIpOwner text t' ip owner' pool
        rw [howner] at hregister
        refine hs.register hinj hfree (fun j => ?_) hregister
        rw [holds_registerIpOwner]
        exact htook.holds hframe j
      have hframe' := fun owner' => hframe.trans (frame_registerIpOwner text t' f ip owner' pool)
      have howners : ∀ owner' k, s.owner k ≠ none →
          (t'.registerIpOwner text ip owner' pool).owner k ≠ none :=
        fun owner' k hk => owner_registerIpOwner_ne_none (by rwa [howner]) ip owner' pool
      rw [heq] at h
      split at h
      next hnone =>
        obtain ⟨rfl, rfl⟩ := Prod.mk.inj (Option.some.inj h)
        refine ⟨hclean owner, hframe' owner, howners owner, ?_, by rintro _ ⟨⟩⟩
        rintro result ⟨⟩
        refine ⟨available_before_took htook hframe (Option.isNone_iff_eq_none.mp hnone), ?_⟩
        rw [owner_registerIpOwner, KeyMap.insert_self]
        exact Option.some_ne_none _
      next hsome =>
        -- The excluded address stays taken; what is available is the same for the next turn.
        obtain ⟨hc, hf, ho, hok, herr⟩ := ih h (hclean _)
        have hexcl : s.excludedIps (excludedKey text pool ip) ≠ none :=
          fun hn => hsome (by rw [hn]; rfl)
        have hregister : available text
            (t'.registerIpOwner text ip (owner ++ " (excluded)") pool) f pool ↔
              available text t' f pool :=
          available_of_allocator (by rw [allocator_registerIpOwner]) rfl
        have hav := hregister.trans (available_of_took htook hframe hexcl)
        refine ⟨hc, (hframe' _).trans hf, fun k hk => ho k (howners _ k hk),
          fun result hr => ⟨hav.mp (hok result hr).1, (hok result hr).2⟩,
          fun e he => fun h => herr e he (hav.mpr h)⟩

/-- **`allocate_ip` on a clean state.** -/
theorem allocateIp_clean (hinj : Function.Injective text.showAddr) (hs : Clean text s)
    (ip : IpAddr) (owner pool : String) : Clean text (s.allocateIp text ip owner pool).2 := by
  obtain ⟨e, t, heq, hframe, hsame, howner⟩ | ⟨t, heq, hframe, htook, howner⟩ :=
    allocateIp_cases text s ip owner pool
  · rw [heq]
    exact hs.congr (hsame.holds hframe) howner
  · rw [heq]
    refine hs.register hinj htook.free (fun j => ?_) (congrArg (KeyMap.insert · _ _) howner)
    rw [holds_registerIpOwner]
    exact htook.holds hframe j

/-- **`release_ip_locked` on a clean state.** -/
theorem releaseIpLocked_clean (hinj : Function.Injective text.showAddr) (hs : Clean text s)
    (ip : IpAddr) (pool : String) :
    (s.holds ip = false → Clean text (s.releaseIpLocked text ip pool).2) ∧
      (s.holds ip = true →
        (s.owner (pool, text.showAddr ip) ≠ none → Clean text (s.releaseIpLocked text ip pool).2) ∧
        (s.owner (pool, text.showAddr ip) = none →
          ¬ Consistent text (s.releaseIpLocked text ip pool).2)) := by
  have hholds := holds_releaseIpLocked text s ip pool
  refine ⟨fun hfree => ?_, fun hheld => hs.release hinj hheld hholds
    (owner_releaseIpLocked text pool (configured_of_holds hheld))⟩
  refine hs.congr (fun j => ?_) ?_
  · rw [hholds]
    by_cases hj : j = ip
    · rw [hj, hfree]
      rfl
    · rw [decide_eq_true hj, Bool.and_true]
  · rw [releaseIpLocked]
    split
    · rfl
    · rw [owner_releaseIpOwner, owner_withAllocator, KeyMap.remove_eq_self (hs.free ip hfree pool)]

end IpamState

/-! ### Whole calls -/

/-- The service, and the results its calls have returned so far. -/
structure IpamLedger where
  ipam : IpamState
  results : List AllocationResult

/-- A whole call of the service. -/
inductive IpamLedgerEvent
  | allocateIp (ip : IpAddr) (owner pool : String)
  | allocateNext (family : Option Family) (owner pool : String)
  | release (result : AllocationResult)
  | exclude (ip : IpAddr) (owner pool : String)

namespace IpamLedger

open IpamState DefaultIpamService

/-- The service when it starts. -/
def start (subnets : IpamSubnets) : IpamLedger := ⟨DefaultIpamService.new subnets, []⟩

/-- The results in an answer of `allocate_next`. -/
def resultsOf : Except IpamError (Option AllocationResult × Option AllocationResult) →
    List AllocationResult
  | .ok (ipv4, ipv6) => ipv4.toList ++ ipv6.toList
  | .error _ => []

/-- A call runs to its end; a release uses a result that a call has returned. -/
def Step (text : IpText) (s : IpamLedger) : IpamLedgerEvent → IpamLedger → Prop
  | .allocateIp ip owner pool, t => ∃ tr r ipam,
      Exec (sem text) (DefaultIpamService.allocateIp text ip owner pool).run s.ipam tr (.pure r)
          ipam ∧
        t = ⟨ipam, (r.toOption).toList ++ s.results⟩
  | .allocateNext family owner pool, t => ∃ tr r ipam,
      Exec (sem text) (DefaultIpamService.allocateNext text family owner pool).run s.ipam tr
        (.pure r) ipam ∧
        t = ⟨ipam, resultsOf r ++ s.results⟩
  | .release result, t => result ∈ s.results ∧ ∃ tr r ipam,
      Exec (sem text) (releaseIp text result.ip result.ipPoolName).run s.ipam tr (.pure r) ipam ∧
        t = ⟨ipam, s.results⟩
  | .exclude ip owner pool, t => t = { s with ipam := s.ipam.excludeIp text ip owner pool }

/-- The owner map and the allocators are consistent. -/
def Consistent (text : IpText) (s : IpamLedger) : Prop := s.ipam.Consistent text

/-- After a release its address is free, and no pool has an owner for it. -/
def Released (text : IpText) : IpamLedgerEvent → IpamLedger → Prop
  | .release result, t => t.ipam.holds result.ip = false ∧
      ∀ pool, t.ipam.owner (pool, text.showAddr result.ip) = none
  | _, _ => True

/-- An allocation in both families that takes an IPv6 address and finds none for IPv4. -/
def RollsBack (text : IpText) (s : IpamState) (family : Option Family) (pool : String) : Prop :=
  pool ≠ "" ∧ serves s family .ipv6 = true ∧ serves s family .ipv4 = true ∧
    s.available text .ipv6 pool ∧ ¬ s.available text .ipv4 pool

/-- The condition on the state before a call: a release finds the owner of a held address in
    the pool that the result names, and no allocation of another pool than the default one
    is rolled back. -/
def PoolKept (text : IpText) (s : IpamLedger) : IpamLedgerEvent → Prop
  | .release result => s.ipam.holds result.ip = true →
      s.ipam.owner (result.ipPoolName, text.showAddr result.ip) ≠ none
  | .allocateNext family _ pool => RollsBack text s.ipam family pool → pool = POOL_DEFAULT
  | _ => True

/-! ### Which calls keep a clean state -/

variable {text : IpText} {s t : IpamState}

/-- What allocating in one family makes of a clean state. -/
structure Grew (text : IpText) (s : IpamState) (f : Family) (t : IpamState) : Prop where
  clean : Clean text t
  frame : Frame s f t
  owners : ∀ k, s.owner k ≠ none → t.owner k ≠ none
  mono : ∀ ip, s.holds ip = true → t.holds ip = true

/-- The result of an allocation: its owner is registered under the pool of the call. -/
structure Registered (text : IpText) (pool : String) (result : AllocationResult) (t : IpamState) :
    Prop where
  name : result.ipPoolName = POOL_DEFAULT
  owner : t.owner (pool, text.showAddr result.ip) ≠ none
  held : t.holds result.ip = true

theorem allocateNextFamily_grew (hinj : Function.Injective text.showAddr) (hs : Clean text s)
    (f : Family) (owner pool : String) :
    (DefaultIpamService.allocateNextFamily f owner pool).run.Guards (sem text) anyOp
      (Prog.orError
        (fun r t => Grew text s f t ∧ pool ≠ "" ∧ available text s f pool ∧
          Registered text pool r t)
        (fun _ t => Grew text s f t ∧ (pool ≠ "" → ¬ available text s f pool))) s := by
  rw [DefaultIpamService.allocateNextFamily]
  split
  next hpool =>
    exact ⟨⟨hs, Frame.rfl' s f, fun _ h => h, fun _ h => h⟩, fun hne => absurd hpool hne⟩
  next hpool =>
    refine ⟨trivial, fun b t h => ?_⟩
    obtain ⟨randoms, h⟩ := h
    obtain ⟨hclean, hframe, howners, hok, herr⟩ := allocateNextFamily_clean hinj h hs
    obtain ⟨hgained, hname⟩ := allocateNextFamily_gained h
    have hgrew : Grew text s f t := ⟨hclean, hframe, howners, hgained.mono⟩
    cases b with
    | ok r =>
      exact ⟨hgrew, hpool, (hok r rfl).1, hname r rfl, (hok r rfl).2, (hgained.new r.ip rfl).2⟩
    | error e => exact ⟨hgrew, fun _ => herr e rfl⟩

/-- The IPv6 part of `allocate_next`. -/
theorem allocateWanted_grew (hinj : Function.Injective text.showAddr) (hs : Clean text s)
    (wanted : Bool) (f : Family) (owner pool : String) :
    (allocateWanted wanted f owner pool).run.Guards (sem text) anyOp
      (Prog.orError
        (fun r t => Grew text s f t ∧ ((wanted = false ∧ r = none) ∨
          (wanted = true ∧ pool ≠ "" ∧ available text s f pool ∧
            ∃ result, r = some result ∧ Registered text pool result t)))
        (fun _ t => Grew text s f t ∧ (pool ≠ "" → ¬ available text s f pool))) s := by
  cases wanted with
  | false =>
    exact ⟨⟨hs, Frame.rfl' s f, fun _ h => h, fun _ h => h⟩, .inl ⟨rfl, rfl⟩⟩
  | true =>
    rw [allocateWanted, if_pos rfl, map_eq_pure_bind]
    refine Prog.guards_try _ (allocateNextFamily_grew hinj hs f owner pool) ?_
    rintro r t ⟨hgrew, hpool, hav, hreg⟩
    exact ⟨hgrew, .inr ⟨rfl, hpool, hav, r, rfl, hreg⟩⟩

/-- The result of the IPv6 part names the default pool. -/
theorem name_of_registered {P P' : Prop} {pool : String} {r : Option AllocationResult}
    (h : (P ∧ r = none) ∨
      (P' ∧ pool ≠ "" ∧ available text s .ipv6 pool ∧
        ∃ result, r = some result ∧ Registered text pool result t)) :
    ∀ result, r = some result → result.ipPoolName = POOL_DEFAULT := by
  rintro result rfl
  obtain ⟨-, hnone⟩ | ⟨-, -, -, result', heq, hreg⟩ := h
  · cases hnone
  · obtain rfl := Option.some.inj heq
    exact hreg.name

/-- A call leaves a clean state when `C` holds, and an inconsistent one when it does not. -/
def Verdict (text : IpText) (C : Prop) (t : IpamState) : Prop :=
  (C → Clean text t) ∧ (¬ C → ¬ t.Consistent text)

theorem verdict_of_clean {C : Prop} (h : Clean text t) (hC : C) : Verdict text C t :=
  ⟨fun _ => h, fun hnot => absurd hC hnot⟩

/-- Giving an address back under the default pool. -/
theorem giveBack_verdict (hinj : Function.Injective text.showAddr) (hs : Clean text s)
    {pool : String} {result : AllocationResult} (h : Registered text pool result s) :
    (giveBack text (some result)).run.Guards (sem text) anyOp
      (Prog.orError (fun _ t => Verdict text (pool = POOL_DEFAULT) t) fun _ _ => False) s := by
  refine Prog.guards_try (fun _ t => Verdict text (pool = POOL_DEFAULT) t) (Prog.guards_lift ?_)
    fun _ _ h => h
  rw [releaseIp, h.name, if_neg POOL_DEFAULT_ne]
  refine ⟨trivial, fun b t hb => ?_⟩
  obtain ⟨hkept, hlost⟩ := (releaseIpLocked_clean hinj hs result.ip POOL_DEFAULT).2 h.held
  rw [show t = _ from congrArg Prod.snd hb]
  refine ⟨?_, fun hne => hlost ?_⟩
  · rintro rfl
    exact hkept h.owner
  · by_contra hown
    exact hne (hs.pool_eq h.held h.owner hown)

/-- **`allocate_next` on a clean state.** It leaves a clean state unless it is rolled back
    with another pool than the default one; then the state is inconsistent. -/
theorem allocateNext_verdict (hinj : Function.Injective text.showAddr) (hs : Clean text s)
    (family : Option Family) (owner pool : String) :
    (allocateNext text family owner pool).run.Guards (sem text) anyOp
      (fun r t => Verdict text (RollsBack text s family pool → pool = POOL_DEFAULT) t ∧
        ∀ result ∈ resultsOf r, result.ipPoolName = POOL_DEFAULT) s := by
  suffices h : (allocateNext text family owner pool).run.Guards (sem text) anyOp
      (Prog.orError
        (fun r t => Verdict text (RollsBack text s family pool → pool = POOL_DEFAULT) t ∧
          ∀ result ∈ resultsOf (.ok r), result.ipPoolName = POOL_DEFAULT)
        fun _ t => Verdict text (RollsBack text s family pool → pool = POOL_DEFAULT) t) s by
    refine Prog.Guards.imp ?_ h
    rintro (_ | _) t h
    · exact ⟨h, nofun⟩
    · exact h
  refine guards_allocateNext (A := fun r t => Grew text s .ipv6 t ∧
    ((serves s family .ipv6 = false ∧ r = none) ∨
      (serves s family .ipv6 = true ∧ pool ≠ "" ∧ available text s .ipv6 pool ∧
        ∃ result, r = some result ∧ Registered text pool result t))) ?_ ?_ ?_
  · refine Prog.Guards.imp_try (fun _ _ h => h) (fun e t h => ?_)
      (allocateWanted_grew hinj hs _ .ipv6 owner pool)
    exact verdict_of_clean h.1.clean fun hroll => absurd hroll.2.2.2.1 (h.2 hroll.1)
  · rintro ipv6Result t ⟨hgrew, h6⟩ hserves
    refine ⟨verdict_of_clean hgrew.clean fun hroll => ?_, fun result hmem => ?_⟩
    · rw [hroll.2.2.1] at hserves
      cases hserves
    · exact name_of_registered h6 result (by simpa [resultsOf] using hmem)
  · rintro ipv6Result t ⟨hgrew, h6⟩ hserves
    -- The part for IPv6 leaves the addresses of IPv4 alone.
    have hav4 : available text t .ipv4 pool ↔ available text s .ipv4 pool :=
      available_of_allocator (hgrew.frame.other .ipv4 (by decide)) hgrew.frame.excludedIps
    refine Prog.Guards.imp_try (fun result u hu => ?_) (fun e u hu => ?_)
      (allocateNextFamily_grew hinj hgrew.clean .ipv4 owner pool)
    · obtain ⟨hgrew', hpool, hav, hreg⟩ := hu
      refine ⟨verdict_of_clean hgrew'.clean fun hroll => absurd (hav4.mp hav) hroll.2.2.2.2, ?_⟩
      intro result' hmem
      rcases List.mem_cons.mp (show result' ∈ result :: ipv6Result.toList from hmem) with rfl | hmem
      · exact hreg.name
      · exact name_of_registered h6 result' (Option.mem_toList.mp hmem)
    · obtain ⟨hgrew', hnot⟩ := hu
      obtain ⟨hserves6, rfl⟩ | ⟨hserves6, hpool, hav6, result, rfl, hreg⟩ := h6
      · refine verdict_of_clean hgrew'.clean fun hroll => ?_
        rw [hroll.2.1] at hserves6
        cases hserves6
      · -- The IPv6 address is given back: this is the rolled back allocation.
        have hroll : RollsBack text s family pool :=
          ⟨hpool, hserves6, hserves, hav6, fun hav => hnot hpool (hav4.mpr hav)⟩
        have hreg' : Registered text pool result u :=
          ⟨hreg.name, hgrew'.owners _ hreg.owner, hgrew'.mono _ hreg.held⟩
        refine Prog.Guards.imp_try (fun _ v hv => ?_) (fun _ _ hv => hv.elim)
          (giveBack_verdict hinj hgrew'.clean hreg')
        exact ⟨fun hC => hv.1 (hC hroll), fun hC => hv.2 fun hp => hC fun _ => hp⟩

/-! ### Runs -/

/-- What every step out of a consistent state keeps. -/
structure Inv (text : IpText) (s : IpamLedger) : Prop where
  clean : s.ipam.Clean text
  results : ∀ result ∈ s.results, result.ipPoolName = POOL_DEFAULT

theorem inv_start (text : IpText) (subnets : IpamSubnets) : Inv text (start subnets) where
  clean := by
    refine ⟨fun ip h => ?_, fun _ _ _ => rfl⟩
    rw [show (start subnets).ipam.holds ip = false from holds_new subnets ip] at h
    cases h
  results _ h := nomatch h

/-- **Step.** Out of a clean state a call leads to a clean one when it keeps the pool, and
    to an inconsistent one when it does not. -/
theorem step_verdict (hinj : Function.Injective text.showAddr) {s t : IpamLedger}
    {e : IpamLedgerEvent} (h : Step text s e t) (hs : Inv text s) :
    (PoolKept text s e → Inv text t) ∧ (¬ PoolKept text s e → ¬ Consistent text t) := by
  cases e with
  | allocateIp ip owner pool =>
    obtain ⟨tr, r, ipam, hx, rfl⟩ := h
    have hg : (DefaultIpamService.allocateIp text ip owner pool).run.Guards (sem text) anyOp
        (fun r t => Clean text t ∧ ∀ result, r = .ok result → result.ipPoolName = POOL_DEFAULT)
        s.ipam := by
      rw [DefaultIpamService.allocateIp]
      split
      · exact ⟨hs.clean, nofun⟩
      · refine ⟨trivial, fun b t hb => ?_⟩
        have hb : (b, t) = s.ipam.allocateIp text ip owner pool := hb
        have hclean := allocateIp_clean hinj hs.clean ip owner pool
        rw [← hb] at hclean
        refine ⟨hclean, fun result hr => ?_⟩
        rw [(allocateIp_gained text s.ipam ip owner pool).2 result (by rw [← hb, hr])]
    obtain ⟨hclean, hname⟩ := hg.exec hx
    refine ⟨fun _ => ⟨hclean, fun result hmem => ?_⟩, fun hnot => absurd trivial hnot⟩
    rcases List.mem_append.mp hmem with hmem | hmem
    · cases r with
      | ok r =>
        rw [List.mem_singleton.mp (show result ∈ [r] from hmem)]
        exact hname r rfl
      | error e => cases hmem
    · exact hs.results result hmem
  | allocateNext family owner pool =>
    obtain ⟨tr, r, ipam, hx, rfl⟩ := h
    obtain ⟨⟨hkept, hlost⟩, hname⟩ := (allocateNext_verdict hinj hs.clean family owner pool).exec hx
    refine ⟨fun hC => ⟨hkept hC, fun result hmem => ?_⟩, hlost⟩
    rcases List.mem_append.mp hmem with hmem | hmem
    · exact hname result hmem
    · exact hs.results result hmem
  | release result =>
    obtain ⟨hmem, tr, r, ipam, hx, rfl⟩ := h
    have hname := hs.results result hmem
    rw [releaseIp, hname, if_neg POOL_DEFAULT_ne] at hx
    obtain ⟨b, v, tr', rfl, hb, hend⟩ := Exec.op_pure_iff.mp hx
    obtain ⟨-, -, rfl⟩ := Exec.pure_iff.mp hend
    obtain ⟨hfree, hheld⟩ := releaseIpLocked_clean hinj hs.clean result.ip POOL_DEFAULT
    rw [← show ipam = _ from congrArg Prod.snd hb] at hfree hheld
    refine ⟨fun hC => ⟨?_, hs.results⟩, fun hnot => ?_⟩
    · cases hh : s.ipam.holds result.ip with
      | false => exact hfree hh
      | true => exact (hheld hh).1 (hname ▸ hC hh)
    · by_cases hh : s.ipam.holds result.ip = true
      · refine (hheld hh).2 (by_contra fun hne => hnot fun _ => ?_)
        rwa [hname]
      · exact absurd (fun h => absurd h hh) hnot
  | exclude ip owner pool =>
    rw [show t = _ from h]
    have hall : ∀ f, (s.ipam.excludeIp text ip owner pool).allocator f = s.ipam.allocator f := by
      intro f
      cases f <;> rfl
    refine ⟨fun _ => ⟨hs.clean.congr (fun j => ?_) rfl, hs.results⟩,
      fun hnot => absurd trivial hnot⟩
    rw [holds, holds, IpamState.held, IpamState.held, hall]

/-- After a release that keeps the pool its address is free and has no owner. -/
theorem released_of_step {s t : IpamLedger} {e : IpamLedgerEvent} (h : Step text s e t)
    (hs : Inv text s) (ht : Inv text t) : Released text e t := by
  cases e with
  | release result =>
    obtain ⟨hmem, tr, r, ipam, hx, rfl⟩ := h
    rw [releaseIp, hs.results result hmem, if_neg POOL_DEFAULT_ne] at hx
    obtain ⟨b, v, tr', rfl, hb, hend⟩ := Exec.op_pure_iff.mp hx
    obtain ⟨-, -, rfl⟩ := Exec.pure_iff.mp hend
    have hfree : ipam.holds result.ip = false := by
      rw [show ipam = _ from congrArg Prod.snd hb, holds_releaseIpLocked,
        decide_eq_false (not_not.mpr rfl), Bool.and_false]
    exact ⟨hfree, ht.clean.free result.ip hfree⟩
  | _ => trivial

/-- **Exact condition.** In a run of calls from the start, the owner map and the allocators
    are consistent in every state, and every release frees its address and its owner entry,
    exactly when every step keeps the pool. -/
theorem consistent_always_iff {text : IpText} (hinj : Function.Injective text.showAddr)
    (subnets : IpamSubnets) {s : IpamLedger} (run : Run (Step text) (start subnets) s) :
    (run.Always (Consistent text) ∧ run.EachStep fun _ e t => Released text e t) ↔
      run.EachStep fun s e _ => PoolKept text s e := by
  have hinit := inv_start text subnets
  have hiff : run.Always (Consistent text) ↔ run.EachStep fun s e _ => PoolKept text s e := by
    have hcons : Consistent text (start subnets) := hinit.clean.consistent
    refine Run.always_iff_eachStep hcons hinit ?_ ?_ run
    · intro s e t h _ hs hcons
      by_contra hnot
      exact (step_verdict hinj h hs).2 (fun hC => hnot ((step_verdict hinj h hs).1 hC)) hcons
    · intro s e t h _ hs
      obtain ⟨hkept, hlost⟩ := step_verdict hinj h hs
      exact ⟨fun hcons => by_contra fun hC => hlost hC hcons, fun hC => (hkept hC).clean.consistent⟩
  refine ⟨fun h => hiff.mp h.1, fun hC => ⟨hiff.mpr hC, ?_⟩⟩
  refine Run.eachStep_of_eachStep hinit (fun s e t h hC hs => (step_verdict hinj h hs).1 hC) ?_ run
    hC
  exact fun s e t h hC hs => released_of_step h hs ((step_verdict hinj h hs).1 hC)

/-- The address `10.0.0.1`. -/
def address : IpAddr := .v4 0x0a000001

/-- A text for an address: its family, and its number by the length. -/
def unaryText : IpAddr → List Char
  | .v4 a => '4' :: List.replicate a.toNat 'x'
  | .v6 a => '6' :: List.replicate a.toNat 'x'

/-- Distinct texts for distinct addresses, with the usual one for `address`. -/
def plainText : IpText where
  parseNet _ := none
  parseAddr _ := .error "invalid IP address syntax"
  showAddr ip := if ip = address then "10.0.0.1" else String.ofList (unaryText ip)

theorem unaryText_injective : Function.Injective unaryText := by
  intro i j h
  cases i <;> cases j <;> obtain ⟨hc, htail⟩ := List.cons.inj h
  · have hlen := congrArg List.length htail
    rw [List.length_replicate, List.length_replicate] at hlen
    rw [BitVec.eq_of_toNat_eq hlen]
  · cases hc
  · cases hc
  · have hlen := congrArg List.length htail
    rw [List.length_replicate, List.length_replicate] at hlen
    rw [BitVec.eq_of_toNat_eq hlen]

theorem plainText_injective : Function.Injective plainText.showAddr := by
  have hne : ∀ ip, String.ofList (unaryText ip) ≠ "10.0.0.1" := by
    intro ip h
    have hchars : unaryText ip = ['1', '0', '.', '0', '.', '0', '.', '1'] :=
      String.ofList_injective h
    cases ip with
    | v4 a => exact absurd (List.cons.inj hchars).1 (by decide)
    | v6 a => exact absurd (List.cons.inj hchars).1 (by decide)
  intro i j h
  have h : (if i = address then "10.0.0.1" else String.ofList (unaryText i)) =
      if j = address then "10.0.0.1" else String.ofList (unaryText j) := h
  split at h <;> split at h
  next hi hj => rw [hi, hj]
  next => exact absurd h.symm (hne j)
  next => exact absurd h (hne i)
  next => exact unaryText_injective (String.ofList_injective h)

/-- The block `10.0.0.1/32` for IPv4, and nothing for IPv6. -/
def oneAddress : IpamSubnets := .ipv4Only 0x0a000001 32

/-- The service after the only address was allocated under a pool, and the call's step. -/
theorem allocateIp_oneAddress (pool : String) (hpool : pool ≠ "") :
    Step plainText (start oneAddress) (.allocateIp address "pod-a" pool)
      ⟨((start oneAddress).ipam.allocateIp plainText address "pod-a" pool).2,
        [⟨address, POOL_DEFAULT⟩]⟩ := by
  have hx : ∃ tr, Exec (sem plainText)
      (DefaultIpamService.allocateIp plainText address "pod-a" pool).run (start oneAddress).ipam tr
      (.pure (.ok ⟨address, POOL_DEFAULT⟩))
      ((start oneAddress).ipam.allocateIp plainText address "pod-a" pool).2 := by
    rw [DefaultIpamService.allocateIp, if_neg hpool]
    exact ⟨_, .step _ _ _ _ _ [] _ _ rfl (.refl _ _)⟩
  obtain ⟨tr, hx⟩ := hx
  exact ⟨tr, _, _, hx, rfl⟩

/-- The release of the only address by the result of its allocation. -/
theorem release_oneAddress (ipam : IpamState) :
    Step plainText ⟨ipam, [⟨address, POOL_DEFAULT⟩]⟩ (.release ⟨address, POOL_DEFAULT⟩)
      ⟨(ipam.releaseIpLocked plainText address POOL_DEFAULT).2, [⟨address, POOL_DEFAULT⟩]⟩ := by
  have hx : ∃ tr, Exec (sem plainText) (releaseIp plainText address POOL_DEFAULT).run ipam tr
      (.pure (ipam.releaseIpLocked plainText address POOL_DEFAULT).1)
      (ipam.releaseIpLocked plainText address POOL_DEFAULT).2 := by
    rw [releaseIp, if_neg POOL_DEFAULT_ne]
    exact ⟨_, .step _ _ _ _ _ [] _ _ rfl (.refl _ _)⟩
  obtain ⟨tr, hx⟩ := hx
  exact ⟨List.mem_singleton.mpr rfl, tr, _, _, hx, rfl⟩

/-- The default pool throughout: the address is free at the end, and without an owner. -/
theorem default_pool_consistent :
    ∃ s, ∃ run : Run (Step plainText) (start oneAddress) s,
      run.Always (Consistent plainText) ∧ run.EachStep fun _ e t => Released plainText e t := by
  have hallocate := allocateIp_oneAddress POOL_DEFAULT POOL_DEFAULT_ne
  refine ⟨_, (Run.nil.snoc _ _ _ hallocate).snoc _ _ _ (release_oneAddress _), ?_⟩
  refine (consistent_always_iff plainText_injective oneAddress _).mpr ⟨⟨trivial, trivial⟩, ?_⟩
  intro _
  exact Option.some_ne_none "pod-a"

/-- **Another pool.** An address allocated under the pool `custom` and released by its own
    result is free, but `custom` still has its owner. -/
theorem custom_pool_inconsistent :
    ∃ s, ∃ _ : Run (Step plainText) (start oneAddress) s, ¬ Consistent plainText s := by
  have hallocate := allocateIp_oneAddress "custom" (by decide)
  have hrelease := release_oneAddress
    ((start oneAddress).ipam.allocateIp plainText address "pod-a" "custom").2
  refine ⟨_, (Run.nil.snoc _ _ _ hallocate).snoc _ _ _ hrelease, ?_⟩
  have hinv := (step_verdict plainText_injective hallocate (inv_start _ oneAddress)).1 trivial
  refine (step_verdict plainText_injective hrelease hinv).2 fun hkept => ?_
  exact hkept rfl rfl

end IpamLedger

end Sarena
