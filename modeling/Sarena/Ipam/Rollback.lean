import Sarena.Ipam.Exclusion

namespace Sarena

open Lib

/-!
# IPAM — the rollback of `allocate_next`

A call for both families allocates for IPv6 first and gives that address back when there is
none for IPv4.  The owner was registered under the pool of the call, but the address is given
back under the pool that its result names.  This file finds out when a call that fails has
left everything as it was.

* `IpamState.NonePending` — no free address is excluded for the pool;
* `IpamState.exec_rollback`, `allocateNext_failed` — what a call that fails leaves behind;
* `IpamState.allocateNext_atomic_iff` — the exact condition.
-/

namespace IpamState

open DefaultIpamService

variable {text : IpText} {s t : IpamState}

/-- No free address is excluded for the pool. -/
def NonePending (text : IpText) (s : IpamState) (pool : String) : Prop :=
  ∀ f ip, s.IsFree f ip → ¬ s.Excluded text pool ip

/-- Both families hold the same addresses, and the owner map is the same. -/
structure Unchanged (s t : IpamState) : Prop where
  held : ∀ f ip, t.held f ip = s.held f ip
  owner : t.owner = s.owner

/-- What the owner map is after the address was registered under the pool of a call and given
    back under the default pool. -/
def rolledBack (text : IpText) (s : IpamState) (owner pool : String) (ip : IpAddr) :
    KeyMap (String × String) String :=
  (s.owner.insert (pool, text.showAddr ip) owner).remove (POOL_DEFAULT, text.showAddr ip)

/-- The free addresses of a family whose allocator did not change. -/
theorem isFree_of_allocator {f : Family} (h : t.allocator f = s.allocator f) (ip : IpAddr) :
    t.IsFree f ip ↔ s.IsFree f ip := by
  unfold IsFree held
  rw [h]

theorem excluded_of_frame {f : Family} (h : Frame s f t) (pool : String) (ip : IpAddr) :
    t.Excluded text pool ip ↔ s.Excluded text pool ip := by
  unfold Excluded
  rw [h.excludedIps]

/-- **One family, nothing pending.** The call takes the first address that it draws. -/
theorem allocateNextFamily_first {f : Family} {owner pool : String} {randoms : List Nat}
    {r : Except IpamError AllocationResult}
    (h : allocateNextFamily text f owner pool randoms s = some (r, t))
    (hconf : s.configured f = true) (hpending : ∀ ip, s.IsFree f ip → ¬ s.Excluded text pool ip) :
    Frame s f t ∧
      ((∃ ip, r = .ok ⟨ip, POOL_DEFAULT⟩ ∧ s.IsFree f ip ∧ Took s f ip t ∧
        t.owner = s.owner.insert (pool, text.showAddr ip) owner) ∨
      (r = .error .rangeFull ∧ (∀ ip, ¬ s.IsFree f ip) ∧ Unmoved s f t ∧ t.owner = s.owner)) := by
  cases randoms with
  | nil => cases h
  | cons random randoms =>
    obtain ⟨hnot, -⟩ | ⟨-, hfree, t', hframe, hsame, howner, heq⟩ |
      ⟨ip, t', hframe, htook, howner, heq⟩ :=
      allocateNextFamily_turn text f owner pool random randoms s
    · rw [hconf] at hnot
      cases hnot
    · obtain ⟨rfl, rfl⟩ := Prod.mk.inj (Option.some.inj (heq.symm.trans h))
      exact ⟨hframe, .inr ⟨rfl, not_isFree_of_free hfree, hsame, howner⟩⟩
    · have hfree := htook.isFree_self hframe
      have hnone := not_not.mp (hpending ip hfree)
      rw [if_pos (Option.isNone_iff_eq_none.mpr hnone)] at heq
      obtain ⟨rfl, rfl⟩ := Prod.mk.inj (Option.some.inj (heq.symm.trans h))
      refine ⟨hframe.trans (frame_registerIpOwner text t' f ip owner pool), .inl ⟨ip, rfl, hfree,
        htook.of_unmoved (unmoved_registerIpOwner text t' f ip owner pool), ?_⟩⟩
      rw [owner_registerIpOwner, howner]

/-- The last part of a rollback: the IPv6 address goes back under the default pool. -/
theorem exec_giveBack (text : IpText) {s : IpamState} {ip : IpAddr} (h : s.holds ip = true) :
    ∃ tr t, Exec (sem text) (giveBack text (some ⟨ip, POOL_DEFAULT⟩)).run s tr (.pure (.ok ())) t ∧
      t.owner = s.owner.remove (POOL_DEFAULT, text.showAddr ip) := by
  have hrel : ∃ tr, Exec (sem text) (releaseIp text ip POOL_DEFAULT).run s tr
      (.pure (s.releaseIpLocked text ip POOL_DEFAULT).1)
      (s.releaseIpLocked text ip POOL_DEFAULT).2 := by
    rw [releaseIp, if_neg POOL_DEFAULT_ne]
    exact ⟨_, .perform rfl⟩
  obtain ⟨tr, hrel⟩ := hrel
  exact ⟨_, _, Exec.bind_ok (.lift hrel) (.refl _ _),
    owner_releaseIpLocked text POOL_DEFAULT (configured_of_holds h)⟩

/-- **A rollback.** When no IPv4 address is free, any free IPv6 address can be the one that is
    taken and given back. -/
theorem exec_rollback {family : Option Family} {pool : String} (hpool : pool ≠ "")
    (hpending : NonePending text s pool) (h6 : serves s family .ipv6 = true)
    (h4 : serves s family .ipv4 = true) (hfull : ∀ ip, ¬ s.IsFree .ipv4 ip) (owner : String)
    {ip : IpAddr} (hip : s.IsFree .ipv6 ip) :
    ∃ tr t, Exec (sem text) (allocateNext text family owner pool).run s tr
      (.pure (.error .rangeFull)) t ∧ t.owner = rolledBack text s owner pool ip := by
  have hread6 : Exec (sem text) (perform .ipv6Configured) s _ (.pure (s.configured .ipv6)) s :=
    .perform ⟨rfl, rfl⟩
  have hread4 : Exec (sem text) (perform .ipv4Configured) s _ (.pure (s.configured .ipv4)) s :=
    .perform ⟨rfl, rfl⟩
  -- IPv6 draws the address.
  obtain ⟨random, u, hframe, htook, howner, hdraw⟩ := allocateNextFamily_draw hip owner pool
  have hok := hdraw []
  rw [if_pos (Option.isNone_iff_eq_none.mpr (not_not.mp (hpending .ipv6 ip hip)))] at hok
  obtain ⟨tr6, hx6⟩ := exec_allocateNextFamily hpool hok
  have hwanted : ∃ tr, Exec (sem text) (allocateWanted (wants family .ipv6 && s.configured .ipv6)
      .ipv6 owner pool).run s tr (.pure (.ok (some ⟨ip, POOL_DEFAULT⟩)))
        (u.registerIpOwner text ip owner pool) := by
    rw [show (wants family .ipv6 && s.configured .ipv6) = true from h6]
    exact ⟨_, Exec.bind_ok hx6 (.refl _ _)⟩
  obtain ⟨trw, hwanted⟩ := hwanted
  -- IPv4 has nothing to draw.
  have hconf4 : s.configured .ipv4 = true := (Bool.and_eq_true_iff.mp h4).2
  obtain ⟨v, hv⟩ : ∃ v, v = u.registerIpOwner text ip owner pool := ⟨_, rfl⟩
  rw [← hv] at hwanted
  have hframev : Frame s .ipv6 v := by
    rw [hv]
    exact hframe.trans (frame_registerIpOwner text u .ipv6 ip owner pool)
  have hfree4 := fun j => isFree_of_allocator (hframev.other .ipv4 (by decide)) j
  have hconfv : v.configured .ipv4 = true := (hframev.configured .ipv4).trans hconf4
  have hsome := allocateNextFamily_isSome text .ipv4 owner pool
    (List.replicate (v.free .ipv4 + 1) 0)
    v (by rw [List.length_replicate]; exact Nat.lt_succ_self _)
  obtain ⟨⟨r, w⟩, hr⟩ := Option.isSome_iff_exists.mp hsome
  obtain ⟨tr4, hx4⟩ := exec_allocateNextFamily hpool hr
  obtain ⟨hframew, ⟨j, -, hj, -⟩ | ⟨rfl, -, -, hownerw⟩⟩ := allocateNextFamily_first hr hconfv
    fun j hj => absurd ((hfree4 j).mp hj) (hfull j)
  · exact absurd ((hfree4 j).mp hj) (hfull j)
  -- The IPv6 address is still held, and goes back.
  have hheld : w.holds ip = true := by
    rw [holds, htook.family, held, hframew.other .ipv6 (by decide), hv, allocator_registerIpOwner]
    show u.held .ipv6 ip = true
    rw [htook.held, decide_eq_true rfl, Bool.or_true]
  obtain ⟨trg, t, hgive, ht⟩ := exec_giveBack text hheld
  refine ⟨_ ++ (_ ++ (trw ++ (tr4 ++ (trg ++ [])))), t, Exec.bind_ok (.lift hread6)
    (Exec.bind_ok (.lift hread4) (Exec.bind_ok hwanted ?_)), ?_⟩
  · rw [show (wants family .ipv4 && s.configured .ipv4) = true from h4, if_pos rfl]
    exact Exec.bind_ok (.lift hx4) (Exec.bind_ok hgive (.refl _ _))
  · rw [ht, hownerw, hv, owner_registerIpOwner, howner, rolledBack]

/-- The call of one family took the address of its result, and registered the owner. -/
def Drawn (text : IpText) (s : IpamState) (f : Family) (owner pool : String)
    (r : AllocationResult) (t : IpamState) : Prop :=
  Frame s f t ∧ r.ipPoolName = POOL_DEFAULT ∧ s.IsFree f r.ip ∧ Took s f r.ip t ∧
    t.owner = s.owner.insert (pool, text.showAddr r.ip) owner

/-- A call of one family, nothing pending, as a whole. -/
theorem allocateNextFamily_pending {f : Family} (hconf : s.configured f = true) (owner : String)
    {pool : String} (hpool : pool ≠ "")
    (hpending : ∀ ip, s.IsFree f ip → ¬ s.Excluded text pool ip) :
    (DefaultIpamService.allocateNextFamily f owner pool).run.Guards (sem text) anyOp
      (Prog.orError
        (Drawn text s f owner pool)
        (fun _ t => Frame s f t ∧ (∀ ip, ¬ s.IsFree f ip) ∧ Unmoved s f t ∧
          t.owner = s.owner)) s := by
  rw [DefaultIpamService.allocateNextFamily, if_neg hpool]
  refine ⟨trivial, fun b t h => ?_⟩
  obtain ⟨randoms, h⟩ := h
  obtain ⟨hframe, ⟨ip, rfl, hfree, htook, howner⟩ | ⟨rfl, hfull, hsame, howner⟩⟩ :=
    allocateNextFamily_first h hconf hpending
  · exact ⟨hframe, rfl, hfree, htook, howner⟩
  · exact ⟨hframe, hfull, hsame, howner⟩

/-- What a call that failed leaves behind. -/
structure Failed (text : IpText) (s : IpamState) (family : Option Family) (owner pool : String)
    (t : IpamState) : Prop where
  held : ∀ f ip, t.held f ip = s.held f ip
  owner : t.owner = s.owner ∨ (serves s family .ipv6 = true ∧ serves s family .ipv4 = true ∧
    (∀ ip, ¬ s.IsFree .ipv4 ip) ∧
      ∃ ip, s.IsFree .ipv6 ip ∧ t.owner = rolledBack text s owner pool ip)

/-- The address that IPv6 took, or nothing when IPv6 is not served. -/
def TookIpv6 (text : IpText) (s : IpamState) (served : Bool) (owner pool : String)
    (r : Option AllocationResult) (t : IpamState) : Prop :=
  Frame s .ipv6 t ∧ ((r = none ∧ Unmoved s .ipv6 t ∧ t.owner = s.owner) ∨
    (served = true ∧ ∃ ip, r = some ⟨ip, POOL_DEFAULT⟩ ∧ s.IsFree .ipv6 ip ∧ Took s .ipv6 ip t ∧
      t.owner = s.owner.insert (pool, text.showAddr ip) owner))

theorem allocateWanted_pending {served : Bool} (hconf : served = true → s.configured .ipv6 = true)
    (owner : String) {pool : String} (hpool : pool ≠ "") (hpending : NonePending text s pool) :
    (allocateWanted served .ipv6 owner pool).run.Guards (sem text) anyOp
      (Prog.orError (TookIpv6 text s served owner pool)
        (fun _ t => Frame s .ipv6 t ∧ Unmoved s .ipv6 t ∧ t.owner = s.owner)) s := by
  cases served with
  | false => exact ⟨Frame.rfl' s _, .inl ⟨rfl, Unmoved.rfl' s _, rfl⟩⟩
  | true =>
    rw [allocateWanted, if_pos rfl, map_eq_pure_bind]
    refine Prog.guards_try (Drawn text s .ipv6 owner pool) (Prog.Guards.imp_try
      (fun _ _ h => h) (fun _ _ h => ⟨h.1, h.2.2.1, h.2.2.2⟩)
      (allocateNextFamily_pending (hconf rfl) owner hpool (hpending .ipv6))) ?_
    rintro ⟨ip, name⟩ t ⟨hframe, rfl, hfree, htook, howner⟩
    exact ⟨hframe, .inr ⟨rfl, ip, rfl, hfree, htook, howner⟩⟩

/-- Giving back what IPv6 took since `s`. -/
theorem giveBack_owner {u : IpamState} {ip : IpAddr} (htook : Took s .ipv6 ip u)
    (hconf : u.configured .ipv6 = true) :
    (giveBack text (some ⟨ip, POOL_DEFAULT⟩)).run.Guards (sem text) anyOp
      (Prog.orError (fun _ v => Frame u .ipv6 v ∧ Unmoved s .ipv6 v ∧
        v.owner = u.owner.remove (POOL_DEFAULT, text.showAddr ip)) fun _ _ => False) u := by
  refine Prog.guards_try (fun _ v => Frame u .ipv6 v ∧ Unmoved s .ipv6 v ∧
    v.owner = u.owner.remove (POOL_DEFAULT, text.showAddr ip)) ?_ fun _ v hv => hv
  refine Prog.guards_lift ?_
  rw [releaseIp, if_neg POOL_DEFAULT_ne]
  refine ⟨trivial, fun b v hv => ?_⟩
  obtain rfl : v = (u.releaseIpLocked text ip POOL_DEFAULT).2 := congrArg Prod.snd hv
  obtain ⟨hframe, hsame⟩ := releaseIpLocked_took htook hconf
  exact ⟨hframe, hsame, owner_releaseIpLocked text POOL_DEFAULT (htook.family.symm ▸ hconf)⟩

/-- **A call that fails** leaves the held addresses as they were, and the owners as they were
    or as after a rollback. -/
theorem allocateNext_failed {pool : String} (hpool : pool ≠ "") (hpending : NonePending text s pool)
    (family : Option Family) (owner : String) :
    (allocateNext text family owner pool).run.Guards (sem text) anyOp
      (Prog.orError (fun _ _ => True) fun _ t => Failed text s family owner pool t) s := by
  refine guards_allocateNext (A := TookIpv6 text s (serves s family .ipv6) owner pool)
    ?_ (fun _ _ _ _ => trivial) ?_
  · refine Prog.Guards.imp_try (fun _ _ h => h) (fun e t h => ?_)
      (allocateWanted_pending configured_of_serves owner hpool hpending)
    obtain ⟨hframe, hsame, howner⟩ := h
    refine ⟨fun f ip => ?_, .inl howner⟩
    cases f with
    | ipv6 => exact hsame.held ip
    | ipv4 => rw [IpamState.held, hframe.other .ipv4 (by decide), IpamState.held]
  · rintro ipv6Result t ⟨hframe, h6⟩ hserves
    have h4t : t.allocator .ipv4 = s.allocator .ipv4 := hframe.other .ipv4 (by decide)
    have hconf : t.configured .ipv4 = true :=
      (hframe.configured .ipv4).trans (configured_of_serves hserves)
    have hpending4 : ∀ ip, t.IsFree .ipv4 ip → ¬ t.Excluded text pool ip := by
      intro ip hip
      rw [excluded_of_frame hframe]
      exact hpending .ipv4 ip ((isFree_of_allocator h4t ip).mp hip)
    refine Prog.Guards.imp_try (fun _ _ _ => trivial) (fun e u hu => ?_)
      (allocateNextFamily_pending hconf owner hpool hpending4)
    obtain ⟨hframe', hfull, hsame, howner⟩ := hu
    have hheld4 : ∀ ip, u.held .ipv4 ip = s.held .ipv4 ip := by
      intro ip
      rw [hsame.held, held, h4t, held]
    obtain ⟨rfl, hsame6, howner6⟩ | ⟨hserves6, ip, rfl, hfree, htook, howner6⟩ := h6
    · -- IPv6 took nothing, so nothing is given back.
      refine ⟨fun f ip => ?_, .inl (howner.trans howner6)⟩
      cases f with
      | ipv4 => exact hheld4 ip
      | ipv6 =>
        rw [IpamState.held, hframe'.other .ipv6 (by decide)]
        exact hsame6.held ip
    · have htook' := htook.of_unmoved (unmoved_of_allocator (hframe'.other .ipv6 (by decide)))
      have hconf6 : u.configured .ipv6 = true := by
        rw [hframe'.configured, hframe.configured, configured_of_serves hserves6]
      refine Prog.Guards.imp_try (fun _ v hv => ?_) (fun _ _ hv => hv.elim)
        (giveBack_owner htook' hconf6)
      obtain ⟨hframev, hsamev, hownerv⟩ := hv
      refine ⟨fun f j => ?_, .inr ⟨hserves6, hserves, fun j hj => ?_, ip, hfree, ?_⟩⟩
      · cases f with
        | ipv6 => exact hsamev.held j
        | ipv4 =>
          rw [IpamState.held, hframev.other .ipv4 (by decide)]
          exact hheld4 j
      · exact hfull j ((isFree_of_allocator h4t j).mpr hj)
      · rw [hownerv, howner, howner6, rolledBack]

/-- A call that fails leaves the held addresses and the owner map as they were. -/
def Atomic (text : IpText) (s : IpamState) (family : Option Family) (owner pool : String) : Prop :=
  ∀ tr e t, Exec (sem text) (allocateNext text family owner pool).run s tr (.pure (.error e)) t →
    Unchanged s t

/-- **Exact condition.** With no exclusion pending for the pool, every failing call leaves the
    held addresses and the owner map as they were, exactly when a rollback, where it can
    happen, only touches owner entries that end up as they were: the default pool has none for
    the IPv6 address, and the pool of the call is the default one or had this owner already. -/
theorem allocateNext_atomic_iff (text : IpText) {s : IpamState} {pool : String} (hpool : pool ≠ "")
    (hpending : NonePending text s pool) (family : Option Family) (owner : String) :
    Atomic text s family owner pool ↔
    (serves s family .ipv6 = true → serves s family .ipv4 = true → (∀ ip, ¬ s.IsFree .ipv4 ip) →
      ∀ ip, s.IsFree .ipv6 ip → s.owner (POOL_DEFAULT, text.showAddr ip) = none ∧
        (pool = POOL_DEFAULT ∨ s.owner (pool, text.showAddr ip) = some owner)) := by
  have hcancel : ∀ ip, rolledBack text s owner pool ip = s.owner ↔
      s.owner (POOL_DEFAULT, text.showAddr ip) = none ∧
        (pool = POOL_DEFAULT ∨ s.owner (pool, text.showAddr ip) = some owner) := by
    intro ip
    rw [rolledBack, KeyMap.remove_insert_eq_iff, Prod.mk.injEq]
    simp only [and_true]
  constructor
  · intro hall h6 h4 hfull ip hip
    obtain ⟨tr, t, hx, howner⟩ := exec_rollback hpool hpending h6 h4 hfull owner hip
    exact (hcancel ip).mp (howner.symm.trans (hall tr _ t hx).owner)
  · intro hcond tr e t hx
    have hfailed : Failed text s family owner pool t :=
      (allocateNext_failed hpool hpending family owner).exec hx
    refine ⟨hfailed.held, ?_⟩
    obtain howner | ⟨h6, h4, hfull, ip, hip, howner⟩ := hfailed.owner
    · exact howner
    · rw [howner]
      exact (hcancel ip).mpr (hcond h6 h4 hfull ip hip)

/-- One address for each family. -/
def twoAddresses : IpamSubnets where
  ipv4 := some (.v4 0x0a000001 32)
  ipv6 := some (.v6 0xfd000000000000000000000000000001 128)
  ipv4_family _ h := Option.some.inj h ▸ rfl
  ipv6_family _ h := Option.some.inj h ▸ rfl

/-- Both families configured, and the only IPv4 address held. -/
def ipv4Full : IpamState :=
  ((DefaultIpamService.new twoAddresses).allocateIp IpamLedger.plainText IpamLedger.address "pod-a"
    POOL_DEFAULT).2

theorem ipv4Full_nonePending (pool : String) : NonePending IpamLedger.plainText ipv4Full pool :=
  fun _ _ _ h => h rfl

/-- Under the default pool nothing stays behind. -/
theorem default_pool_atomic :
    Atomic IpamLedger.plainText ipv4Full none "pod-b" POOL_DEFAULT := by
  refine (allocateNext_atomic_iff IpamLedger.plainText POOL_DEFAULT_ne (ipv4Full_nonePending _) none
    "pod-b").mpr fun _ _ _ ip hip => ⟨?_, .inl rfl⟩
  have hne : ip ≠ IpamLedger.address := by
    rintro rfl
    obtain ⟨n, hn, hin, -⟩ := hip
    obtain rfl : n = .v6 0xfd000000000000000000000000000001 128 := (Option.some.inj hn).symm
    exact absurd hin.1 (by decide)
  show KeyMap.insert _ _ _ _ = none
  rw [KeyMap.insert_of_ne]
  · rfl
  · exact fun heq => hne (IpamLedger.plainText_injective (congrArg Prod.snd heq))

/-- **Another pool.** The call for both families fails, as IPv4 is full, and the owner of the
    IPv6 address that was given back stays in the pool `custom`. -/
theorem custom_pool_not_atomic :
    ¬ Atomic IpamLedger.plainText ipv4Full none "pod-b" "custom" := by
  intro hall
  -- `fd00::1` is the IPv6 address that the call takes and gives back.
  have hfree : ipv4Full.IsFree .ipv6 (.v6 0xfd000000000000000000000000000001) := by
    refine ⟨.v6 0xfd000000000000000000000000000001 128, rfl, ?_, by decide⟩
    exact
      ((HostScopeAllocator.new (.v6 0xfd000000000000000000000000000001 128)).assignable_iff _).mpr
      ⟨0, by decide⟩
  obtain ⟨tr, t, hx, howner⟩ := exec_rollback (by decide) (ipv4Full_nonePending "custom")
    (show serves ipv4Full none .ipv6 = true by decide) (by decide) (not_isFree_of_free (by decide))
    "pod-b" hfree
  have hcancel := howner.symm.trans (hall tr _ t hx).owner
  rw [rolledBack, KeyMap.remove_insert_eq_iff] at hcancel
  obtain ⟨-, hkey | hold⟩ := hcancel
  · exact absurd (congrArg Prod.fst hkey) (by decide)
  · cases hold

end IpamState

end Sarena
