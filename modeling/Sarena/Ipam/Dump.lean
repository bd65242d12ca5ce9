import Sarena.Ipam.Arithmetic
import Sarena.Ipam.OwnerMap
import Sarena.Ipam.Uniqueness

namespace Sarena

open Lib

/-!
# IPAM — the dump

`dump` joins two structures that are kept apart: the addresses come from the bitmaps of the
allocators, offset by offset, and their owners from the owner map.  This file shows what ties
the two together when all calls use the default pool, whatever the order of their critical
sections.

* `DefaultIpamService.dump` — the dump, with the arithmetic of the allocators checked;
* `IpamState.owner_allocateNextFamily` — which owners an allocation leaves in the map;
* `DumpSystem.Step` — calls in progress, with the owner given at each latest allocation;
* `DumpSystem.dump_exact` — in every state the dump lists the held addresses with these
  owners.
-/

namespace DefaultIpamService

/-- What `dump` does for one family. -/
def dumpFamily (text : IpText) (s : IpamState) (label : String) :
    Option HostScopeAllocator → Checked (HashMap String String × String)
  | none => return (∅, "")
  | some allocator => do
    let (allocPerPool, status) ← allocator.dump text
    let out := allocPerPool.entries.foldl (fun out entry =>
      let pool := entry.1
      entry.2.keys.foldl (fun out ip =>
        let owner := s.getIpOwner ip pool
        let ipPrefix := if pool = POOL_DEFAULT then "" else s!"{pool}/"
        out.insert (ipPrefix ++ ip) owner) out) (∅ : HashMap String String)
    return (out, s!"{label}: {status}")

/-- `DefaultIpamService::dump`. -/
def dump (text : IpText) (s : IpamState) :
    Checked (HashMap String String × HashMap String String × String) := do
  let (allocv4, st4) ← dumpFamily text s "IPv4" s.ipv4Allocator
  let (allocv6, st6) ← dumpFamily text s "IPv6" s.ipv6Allocator
  let status := s!"{st4}, {st6}"
  let status := if status.isEmpty then "Not running" else status
  return (allocv4, allocv6, status)

/-- The dump of a family fails only for the block whose addresses are not counted. -/
theorem dumpFamily_returns (text : IpText) (s : IpamState) (label : String)
    (a : HostScopeAllocator) : (∃ r, dumpFamily text s label (some a) = .ok r) ↔
      ¬ (a.net.family = .ipv6 ∧ a.net.prefixLen = 0) := by
  rw [← HostScopeAllocator.countIpsInCidr_returns, dumpFamily, HostScopeAllocator.dump_eq]
  cases HostScopeAllocator.countIpsInCidr a.net with
  | error p => exact iff_of_false nofun nofun
  | ok maxIps => exact iff_of_true ⟨_, rfl⟩ ⟨maxIps, rfl, trivial⟩

/-- The keys of the inner map of `HostScopeAllocator::dump`. -/
theorem mem_dump_keys (text : IpText) (l : List IpAddr) (key : String) :
    key ∈ (l.foldl (fun alloc ip => alloc.insert (text.showAddr ip) "")
      (∅ : HashMap String String)).keys ↔ key ∈ l.map text.showAddr := by
  have hlookup := HashMap.lookup_foldl_insert text.showAddr (fun _ => "") l ∅ key
  rw [← AList.mem_keys, ← AList.lookup_isSome, hlookup]
  split
  next h => exact iff_of_true rfl h
  next h => exact iff_of_false nofun h

/-- **The dump of a family.** Its keys are the texts of the held addresses, and the values
    are read from the owner map under the default pool. -/
theorem lookup_dumpFamily {text : IpText} {s : IpamState} {label : String} {a : HostScopeAllocator}
    {out : HashMap String String} {status : String}
    (h : dumpFamily text s label (some a) = .ok (out, status)) (key : String) :
    out.lookup key =
      if key ∈ a.forEach.map text.showAddr then some (s.getIpOwner key POOL_DEFAULT) else none := by
  rw [dumpFamily, HostScopeAllocator.dump_eq] at h
  cases hcount : HostScopeAllocator.countIpsInCidr a.net with
  | error p =>
    rw [hcount] at h
    cases h
  | ok maxIps =>
    rw [hcount] at h
    obtain rfl := (congrArg Prod.fst (Except.ok.inj h)).symm
    -- One pool is dumped, and its prefix is empty.
    have hfold := HashMap.lookup_foldl_insert (fun ip => "" ++ ip)
      (fun ip => s.getIpOwner ip POOL_DEFAULT)
      (a.forEach.foldl (fun alloc ip => alloc.insert (text.showAddr ip) "")
        (∅ : HashMap String String)).keys ∅ key
    simp only [String.empty_append, List.map_id', mem_dump_keys] at hfold
    exact hfold

/-- The dump is that of the two families. -/
theorem dump_parts {text : IpText} {s : IpamState} {allocv4 allocv6 : HashMap String String}
    {status : String} (h : dump text s = .ok (allocv4, allocv6, status)) :
    (∃ st4, dumpFamily text s "IPv4" s.ipv4Allocator = .ok (allocv4, st4)) ∧
      ∃ st6, dumpFamily text s "IPv6" s.ipv6Allocator = .ok (allocv6, st6) := by
  rw [dump] at h
  cases h4 : dumpFamily text s "IPv4" s.ipv4Allocator with
  | error p =>
    rw [h4] at h
    cases h
  | ok r4 =>
    rw [h4] at h
    cases h6 : dumpFamily text s "IPv6" s.ipv6Allocator with
    | error p =>
      rw [h6] at h
      cases h
    | ok r6 =>
      rw [h6] at h
      obtain ⟨rfl, hrest⟩ := Prod.mk.inj (Except.ok.inj h)
      obtain ⟨rfl, -⟩ := Prod.mk.inj hrest
      exact ⟨⟨_, rfl⟩, _, rfl⟩

/-- The dump fails exactly for an IPv6 block of prefix length 0. -/
theorem dump_returns (text : IpText) (s : IpamState) : (∃ r, dump text s = .ok r) ↔
    ∀ n, (s.allocator .ipv6).map (·.net) = some n → n.prefixLen ≠ 0 := by
  have h4 : ∃ r, dumpFamily text s "IPv4" s.ipv4Allocator = .ok r := by
    cases ha : s.ipv4Allocator with
    | none => exact ⟨_, rfl⟩
    | some a =>
      rw [dumpFamily_returns, s.ipv4_family a ha]
      exact fun h => Family.noConfusion h.1
  have h6 : (∃ r, dumpFamily text s "IPv6" s.ipv6Allocator = .ok r) ↔
      ∀ n, s.ipv6Allocator.map (·.net) = some n → n.prefixLen ≠ 0 := by
    cases ha : s.ipv6Allocator with
    | none => exact iff_of_true ⟨_, rfl⟩ nofun
    | some a =>
      rw [dumpFamily_returns, s.ipv6_family a ha]
      simp only [true_and, Option.map_some, Option.some.injEq, forall_eq', ne_eq]
  obtain ⟨r4, h4⟩ := h4
  show _ ↔ ∀ n, s.ipv6Allocator.map (·.net) = some n → n.prefixLen ≠ 0
  rw [← h6, dump, h4]
  cases dumpFamily text s "IPv6" s.ipv6Allocator with
  | error p => exact iff_of_false nofun nofun
  | ok r6 => exact iff_of_true ⟨_, rfl⟩ ⟨r6, rfl⟩

end DefaultIpamService

/-! ### The owners that an allocation leaves -/

namespace IpamState

variable {text : IpText} {s t : IpamState}

/-- The owner of an address after a registration for `ip`. -/
theorem owner_register (hinj : Function.Injective text.showAddr) (s : IpamState)
    (ip j : IpAddr) (owner pool : String) :
    (s.registerIpOwner text ip owner pool).owner (pool, text.showAddr j) =
      if j = ip then some owner else s.owner (pool, text.showAddr j) := by
  rw [owner_registerIpOwner, KeyMap.insert_apply]
  by_cases hj : j = ip
  · rw [if_pos hj, if_pos (by rw [hj])]
  · rw [if_neg hj, if_neg]
    exact fun heq => hj (hinj (congrArg Prod.snd heq))

/-- **`allocate_next_family`.** The address that is handed out gets the owner, every other
    address that was taken is excluded and marked so, and no other owner changes. -/
theorem owner_allocateNextFamily (hinj : Function.Injective text.showAddr) {f : Family}
    {owner pool : String} {randoms : List Nat} {r : Except IpamError AllocationResult}
    (h : allocateNextFamily text f owner pool randoms s = some (r, t)) (j : IpAddr) :
    t.owner (pool, text.showAddr j) =
      if handedOut r = some j then some owner
      else if s.holds j = false ∧ t.holds j = true then some (owner ++ " (excluded)")
      else s.owner (pool, text.showAddr j) := by
  induction randoms generalizing s with
  | nil => cases h
  | cons random randoms ih =>
    obtain ⟨-, heq⟩ | ⟨-, -, t', hframe, hsame, howner, heq⟩ |
      ⟨ip, t', hframe, htook, howner, heq⟩ :=
      allocateNextFamily_turn text f owner pool random randoms s
    · obtain ⟨rfl, rfl⟩ := Prod.mk.inj (Option.some.inj (heq.symm.trans h))
      rw [if_neg nofun, if_neg]
      rintro ⟨hfree, hheld⟩
      rw [hfree] at hheld
      cases hheld
    · obtain ⟨rfl, rfl⟩ := Prod.mk.inj (Option.some.inj (heq.symm.trans h))
      rw [if_neg nofun, if_neg, howner]
      rintro ⟨hfree, hheld⟩
      rw [hsame.holds hframe, hfree] at hheld
      cases hheld
    · have hfree : s.holds ip = false := by
        rw [holds, htook.family]
        exact htook.free
      rw [heq] at h
      split at h
      · obtain ⟨rfl, rfl⟩ := Prod.mk.inj (Option.some.inj h)
        rw [owner_register hinj, howner, holds_registerIpOwner, htook.holds hframe]
        -- The new entry is that of the address itself.
        by_cases hj : j = ip
        · rw [if_pos hj, if_pos (by rw [hj]; rfl)]
        · have hnot : handedOut (.ok ⟨ip, POOL_DEFAULT⟩) ≠ some j :=
            fun heq => hj (Option.some.inj heq).symm
          rw [if_neg hj, if_neg hnot, if_neg]
          rintro ⟨hfree, hheld⟩
          rw [hfree, decide_eq_false hj] at hheld
          cases hheld
      · -- The excluded address stays taken, and no later turn can hand it out.
        obtain ⟨hgained, -⟩ := allocateNextFamily_gained h
        have hstep := ih h
        rw [holds_registerIpOwner, owner_register hinj, howner, htook.holds hframe] at hstep
        have hnew : (t'.registerIpOwner text ip (owner ++ " (excluded)") pool).holds ip = true := by
          rw [holds_registerIpOwner, htook.holds hframe, decide_eq_true rfl, Bool.or_true]
        by_cases hj : j = ip
        · subst hj
          have hnot : handedOut r ≠ some j := by
            intro hout
            rw [(hgained.new j hout).1] at hnew
            cases hnew
          rw [hstep, if_neg hnot, if_neg hnot, decide_eq_true rfl, Bool.or_true, if_pos rfl,
            if_neg (fun h => Bool.false_ne_true h.1.symm), if_pos ⟨hfree, hgained.mono j hnew⟩]
        · rw [hstep, if_neg hj, decide_eq_false hj, Bool.or_false]

end IpamState

/-! ### Calls that use the default pool -/

/-- The pool that a call is for. -/
def IpamRequest.pool : IpamRequest → String
  | .allocate _ _ pool _ => pool.getD POOL_DEFAULT
  | .allocateIp _ _ pool => pool.getD POOL_DEFAULT
  | .release _ pool => pool.getD POOL_DEFAULT
  | .exclude _ _ pool => pool

/-- The service, the owner given to each address at its latest allocation, and what is left
    of the calls in progress. -/
structure DumpSystem where
  ipam : IpamState
  given : KeyMap IpAddr String
  calls : List (Prog IpamOp (Except IpamError (List IpAddr)))

/-- A call begins, or a call in progress runs its next critical section. -/
inductive DumpEvent
  | call (request : IpamRequest)
  | step (i : Nat)

namespace DumpSystem

open IpamState DefaultIpamService

/-- The owners given after a critical section that leads from `s` to `t`: an allocation gives
    its owner to the address that it hands out, and the excluded marker to any other address
    that it takes. -/
def givenAfter (s t : IpamState) (given : KeyMap IpAddr String) :
    ∀ β : Type, IpamOp β → β → KeyMap IpAddr String
  | _, .allocateNextFamily _ owner _, b => fun ip =>
      if handedOut b = some ip then some owner
      else if s.holds ip = false ∧ t.holds ip = true then some (owner ++ " (excluded)")
      else given ip
  | _, .allocateIp _ owner _, b => given.insertIfSome (handedOut b) owner
  | _, _, _ => given

/-- The service when it starts. -/
def start (subnets : IpamSubnets) : DumpSystem := ⟨DefaultIpamService.new subnets, .empty, []⟩

/-- The steps of the system.  Anybody may release any address. -/
def Step (text : IpText) (s : DumpSystem) : DumpEvent → DumpSystem → Prop
  | .call request, t =>
      request.pool = POOL_DEFAULT ∧ t = { s with calls := s.calls ++ [(request.run text).run] }
  | .step i, t => ∃ (β : Type) (op : IpamOp β)
      (k : β → Prog IpamOp (Except IpamError (List IpAddr))) (b : β) (ipam : IpamState),
      s.calls[i]? = some (.op op k) ∧ IpamState.sem text β op s.ipam b ipam ∧
        t = ⟨ipam, givenAfter s.ipam ipam s.given β op b, s.calls.set i (k b)⟩

/-- What a dump lists of a family: the held addresses, each with the owner given to it. -/
structure Lists (text : IpText) (s : DumpSystem) (f : Family) (out : HashMap String String) :
    Prop where
  keys : ∀ key, key ∈ out ↔ ∃ ip, ip.family = f ∧ s.ipam.holds ip = true ∧ text.showAddr ip = key
  owners : ∀ ip, ip.family = f → s.ipam.holds ip = true →
    out.lookup (text.showAddr ip) = s.given ip

/-- The critical section names the default pool. -/
def InDefault : ∀ β : Type, IpamOp β → Unit → Prop
  | _, .allocateNextFamily _ _ pool, _ => pool = POOL_DEFAULT
  | _, .allocateIp _ _ pool, _ => pool = POOL_DEFAULT
  | _, .releaseIp _ pool, _ => pool = POOL_DEFAULT
  | _, .excludeIp _ _ pool, _ => pool = POOL_DEFAULT
  | _, _, _ => True

/-- The results of an allocation name the default pool. -/
def NamesDefault : Sem IpamOp Unit := fun β op _ b _ =>
  match β, op, b with
  | _, .allocateNextFamily _ _ _, b => ∀ r, b = .ok r → r.ipPoolName = POOL_DEFAULT
  | _, _, _ => True

/-- What is left of a call names only the default pool. -/
def Defaults {α : Type} (p : Prog IpamOp α) : Prop :=
  p.Guards NamesDefault InDefault (fun _ _ => True) ()

variable {text : IpText}

/-- An allocation in one family, with a result that names the default pool. -/
theorem allocateNextFamily_defaults (f : Family) (owner : String) :
    (DefaultIpamService.allocateNextFamily f owner POOL_DEFAULT).run.Guards NamesDefault InDefault
      (Prog.orError (fun r _ => r.ipPoolName = POOL_DEFAULT) fun _ _ => True) () := by
  rw [DefaultIpamService.allocateNextFamily, if_neg POOL_DEFAULT_ne]
  refine ⟨rfl, fun b t h => ?_⟩
  cases b with
  | ok r => exact h r rfl
  | error e => trivial

/-- **A call under the default pool** never names another one. -/
theorem run_defaults (text : IpText) (request : IpamRequest) (h : request.pool = POOL_DEFAULT) :
    Defaults (request.run text).run := by
  suffices h : (request.run text).run.Guards NamesDefault InDefault
      (Prog.orError (fun _ _ => True) fun _ _ => True) () from
    Prog.Guards.imp (fun _ _ _ => trivial) h
  cases request with
  | allocate family owner pool expiration =>
    rw [IpamRequest.run, show pool.getD POOL_DEFAULT = POOL_DEFAULT from h]
    refine Prog.guards_try (fun _ _ => True) ?_ fun _ _ _ => trivial
    unfold DefaultIpamService.allocateNext
    refine Prog.guards_try (fun _ _ => True) (Prog.guards_lift ⟨trivial, fun _ _ _ => trivial⟩) ?_
    intro ipv6Configured _ _
    refine Prog.guards_try (fun _ _ => True) (Prog.guards_lift ⟨trivial, fun _ _ _ => trivial⟩) ?_
    intro ipv4Configured _ _
    refine Prog.guards_try (fun r _ => ∀ result, r = some result → result.ipPoolName = POOL_DEFAULT)
      ?_ ?_
    · rw [allocateWanted]
      split
      · rw [map_eq_pure_bind]
        refine Prog.guards_try _ (allocateNextFamily_defaults .ipv6 (owner.getD "")) ?_
        rintro r _ hr result ⟨⟩
        exact hr
      · rintro _ ⟨⟩
    intro ipv6Result _ hname
    split
    · refine Prog.guards_try _ (Prog.guards_lift
        (allocateNextFamily_defaults .ipv4 (owner.getD ""))) ?_
      rintro (err | r) _ -
      · -- The rollback releases under the pool that the IPv6 result names.
        refine Prog.guards_try (fun _ _ => True) ?_ fun _ _ _ => trivial
        cases ipv6Result with
        | none => trivial
        | some result =>
          refine Prog.guards_try (fun _ _ => True) (Prog.guards_lift ?_) fun _ _ _ => trivial
          rw [hname result rfl, releaseIp, if_neg POOL_DEFAULT_ne]
          exact ⟨rfl, fun _ _ _ => trivial⟩
      · trivial
    · trivial
  | allocateIp ip owner pool =>
    rw [IpamRequest.run, show pool.getD POOL_DEFAULT = POOL_DEFAULT from h]
    refine Prog.guards_try (fun _ _ => True) ?_ fun _ _ _ => trivial
    -- The other calls are one critical section each, under the pool of the request.
    rw [DefaultIpamService.allocateIp, if_neg POOL_DEFAULT_ne]
    refine ⟨rfl, fun b _ _ => ?_⟩
    cases b <;> trivial
  | release ip pool =>
    refine Prog.guards_try (fun _ _ => True) ?_ fun _ _ _ => trivial
    rw [DefaultIpamService.release, show pool.getD POOL_DEFAULT = POOL_DEFAULT from h, releaseIp,
      if_neg POOL_DEFAULT_ne]
    refine ⟨rfl, fun b _ _ => ?_⟩
    cases b <;> trivial
  | exclude ip owner pool =>
    exact Prog.guards_try (fun _ _ => True) (Prog.guards_lift ⟨h, fun _ _ _ => trivial⟩)
      fun _ _ _ => trivial

/-- The results of the service name the default pool. -/
theorem sem_namesDefault {β : Type} {op : IpamOp β} {s t : IpamState} {b : β}
    (h : IpamState.sem text β op s b t) : NamesDefault β op () b () := by
  cases op with
  | allocateNextFamily f owner pool =>
    obtain ⟨randoms, h⟩ := h
    exact (allocateNextFamily_gained h).2
  | _ => trivial

/-! ### The invariant -/

/-- Every held address has in the default pool the owner given to it. -/
def Tied (text : IpText) (ipam : IpamState) (given : KeyMap IpAddr String) : Prop :=
  ∀ ip, ipam.holds ip = true →
    ∃ owner, given ip = some owner ∧ ipam.owner (POOL_DEFAULT, text.showAddr ip) = some owner

/-- **Step.** A critical section that names the default pool keeps the owners tied. -/
theorem sem_tied (hinj : Function.Injective text.showAddr) {β : Type} {op : IpamOp β}
    {s t : IpamState} {b : β} {given : KeyMap IpAddr String}
    (h : IpamState.sem text β op s b t) (hok : InDefault β op ()) (hs : Tied text s given) :
    Tied text t (givenAfter s t given β op b) := by
  cases op with
  | ipv6Configured =>
    rw [h.2]
    exact hs
  | ipv4Configured =>
    rw [h.2]
    exact hs
  | allocateNextFamily f owner pool =>
    obtain ⟨randoms, h⟩ := h
    obtain rfl : pool = POOL_DEFAULT := hok
    intro ip hheld
    have howner := owner_allocateNextFamily hinj h ip
    show ∃ o, (if handedOut b = some ip then some owner
      else if s.holds ip = false ∧ t.holds ip = true then some (owner ++ " (excluded)")
      else given ip) = some o ∧ _
    rw [howner]
    -- Handed out, taken and excluded, or held before: each has its owner registered.
    split
    · exact ⟨_, rfl, rfl⟩
    · split
      · exact ⟨_, rfl, rfl⟩
      next hold =>
        rw [not_and'] at hold
        exact hs ip (Bool.not_eq_false _ ▸ hold hheld)
  | allocateIp ip owner pool =>
    obtain rfl : pool = POOL_DEFAULT := hok
    have h : (b, t) = s.allocateIp text ip owner POOL_DEFAULT := h
    obtain ⟨e, t', heq, hframe, hsame, howner⟩ | ⟨t', heq, hframe, htook, howner⟩ :=
      allocateIp_cases text s ip owner POOL_DEFAULT
    · obtain ⟨rfl, rfl⟩ := Prod.mk.inj (h.trans heq)
      intro j hj
      rw [hsame.holds hframe] at hj
      rw [howner]
      exact hs j hj
    · obtain ⟨rfl, rfl⟩ := Prod.mk.inj (h.trans heq)
      intro j hj
      rw [holds_registerIpOwner, htook.holds hframe, Bool.or_eq_true, decide_eq_true_iff] at hj
      show ∃ o, given.insertIfSome (some ip) owner j = some o ∧ _
      -- Distinct addresses print as distinct texts, so no other entry is overwritten.
      rw [owner_register hinj, howner, KeyMap.insertIfSome_apply]
      by_cases hji : j = ip
      · rw [if_pos (by rw [hji]), if_pos hji]
        exact ⟨owner, rfl, rfl⟩
      · rw [if_neg (fun heq => hji (Option.some.inj heq).symm), if_neg hji]
        exact hs j (hj.resolve_right hji)
  | releaseIp ip pool =>
    obtain rfl : pool = POOL_DEFAULT := hok
    intro j hj
    rw [show t = _ from congrArg Prod.snd h, holds_releaseIpLocked, Bool.and_eq_true,
      decide_eq_true_iff] at hj
    -- An address that is still held is not the one that was released.
    obtain ⟨owner, hgiven, howner⟩ := hs j hj.1
    refine ⟨owner, hgiven, ?_⟩
    rw [show t = _ from congrArg Prod.snd h, releaseIpLocked]
    split
    · exact howner
    · rw [owner_releaseIpOwner, owner_withAllocator, KeyMap.remove_of_ne]
      · exact howner
      · exact fun heq => hj.2 (hinj (congrArg Prod.snd heq))
  | excludeIp ip owner pool =>
    rw [show t = _ from h]
    intro j hj
    refine hs j ?_
    rw [holds, held] at hj ⊢
    cases hf : j.family <;> rw [hf] at hj <;> exact hj

/-- **The join.** Where the owners are tied, the dump of a family lists it. -/
theorem lists_of_dumpFamily {s : DumpSystem} (hs : Tied text s.ipam s.given) {f : Family}
    {label status : String} {out : HashMap String String}
    (h : dumpFamily text s.ipam label (s.ipam.allocator f) = .ok (out, status)) :
    Lists text s f out := by
  cases ha : s.ipam.allocator f with
  | none =>
    rw [ha] at h
    obtain rfl := (congrArg Prod.fst (Except.ok.inj h)).symm
    -- A family that is not configured holds nothing, and its dump is empty.
    have hnone : ∀ ip, ip.family = f → s.ipam.holds ip ≠ true := by
      intro ip hf hheld
      rw [holds, hf, held, ha] at hheld
      cases hheld
    refine ⟨fun key => iff_of_false (AList.notMem_empty key) ?_, ?_⟩
    · rintro ⟨ip, hf, hheld, -⟩
      exact hnone ip hf hheld
    · intro ip hf hheld
      exact absurd hheld (hnone ip hf)
  | some a =>
    rw [ha] at h
    -- The walk over the bitmap yields exactly the held addresses.
    have hheld : ∀ ip, ip.family = f ∧ s.ipam.holds ip = true ↔ ip ∈ a.forEach := by
      intro ip
      rw [a.mem_forEach, ← held_eq ha]
      constructor
      · rintro ⟨hf, hheld⟩
        rwa [holds, hf] at hheld
      · intro hheld
        have hf := family_of_held hheld
        exact ⟨hf, by rwa [holds, hf]⟩
    constructor
    · intro key
      rw [← AList.lookup_isSome, lookup_dumpFamily h]
      simp only [← and_assoc, hheld, List.mem_map]
      split
      next hmem => exact iff_of_true rfl hmem
      next hmem => exact iff_of_false Bool.false_ne_true hmem
    · intro ip hf hip
      obtain ⟨owner, hgiven, howner⟩ := hs ip hip
      have hmem := List.mem_map_of_mem (f := text.showAddr) ((hheld ip).mp ⟨hf, hip⟩)
      rw [lookup_dumpFamily h, if_pos hmem, IpamState.getIpOwner, howner, hgiven]
      rfl

/-- What every step keeps. -/
structure Inv (text : IpText) (subnets : IpamSubnets) (s : DumpSystem) : Prop where
  tied : Tied text s.ipam s.given
  calls : ∀ p ∈ s.calls, Defaults p
  net : (s.ipam.allocator .ipv6).map (·.net) = subnets.ipv6

theorem inv_start (text : IpText) (subnets : IpamSubnets) : Inv text subnets (start subnets) where
  tied ip h := by
    rw [show (start subnets).ipam.holds ip = false from holds_new subnets ip] at h
    cases h
  calls _ h := nomatch h
  net := by
    show (subnets.ipv6.map HostScopeAllocator.new).map (·.net) = _
    rw [Option.map_map]
    exact Option.map_id_fun' ▸ rfl

theorem inv_step (hinj : Function.Injective text.showAddr) {subnets : IpamSubnets}
    {s t : DumpSystem} {e : DumpEvent} (h : Step text s e t) (hs : Inv text subnets s) :
    Inv text subnets t := by
  cases e with
  | call request =>
    obtain ⟨hpool, rfl⟩ := h
    refine ⟨hs.tied, fun p hp => ?_, hs.net⟩
    rcases List.mem_append.mp hp with hp | hp
    · exact hs.calls p hp
    · rw [List.mem_singleton.mp hp]
      exact run_defaults text request hpool
  | step i =>
    obtain ⟨β, op, k, b, ipam, hi, hsem, rfl⟩ := h
    have hop : Defaults (.op op k) := hs.calls _ (List.mem_of_getElem? hi)
    refine ⟨sem_tied hinj hsem hop.1 hs.tied, fun p hp => ?_, (sem_net hsem _).trans hs.net⟩
    rcases List.mem_or_eq_of_mem_set hp with hp | rfl
    · exact hs.calls p hp
    · exact hop.2 b () (sem_namesDefault hsem)

/-- **Exactness.** In every run of calls under the default pool, however their critical
    sections interleave, the dump returns unless the IPv6 block has prefix length 0, and
    what it returns lists the held addresses of each family with the owners given to them. -/
theorem dump_exact {text : IpText} (hinj : Function.Injective text.showAddr)
    (subnets : IpamSubnets) {s : DumpSystem} (run : Run (Step text) (start subnets) s) :
    run.Always fun s =>
      ((∃ r, DefaultIpamService.dump text s.ipam = .ok r) ↔
        ∀ n, subnets.ipv6 = some n → n.prefixLen ≠ 0) ∧
      ∀ allocv4 allocv6 status,
        DefaultIpamService.dump text s.ipam = .ok (allocv4, allocv6, status) →
          Lists text s .ipv4 allocv4 ∧ Lists text s .ipv6 allocv6 := by
  refine Run.Always.mono ?_ (run.always_of_invariant (inv_start text subnets)
    fun s a t h => inv_step hinj h)
  intro s hs
  constructor
  · rw [dump_returns, hs.net]
  · intro allocv4 allocv6 status h
    obtain ⟨⟨st4, h4⟩, st6, h6⟩ := dump_parts h
    exact ⟨lists_of_dumpFamily hs.tied h4, lists_of_dumpFamily hs.tied h6⟩

/-- The service with one address, after `allocate_ip` for `pod-a`. -/
def allocated : IpamState :=
  ((DefaultIpamService.new IpamLedger.oneAddress).allocateIp IpamLedger.plainText
    IpamLedger.address "pod-a" POOL_DEFAULT).2

/-- The only address of the service, allocated for `pod-a`, is dumped with its owner. -/
theorem one_address_dumped :
    ∃ s, ∃ _ : Run (Step IpamLedger.plainText) (start IpamLedger.oneAddress) s,
      ∃ allocv4 allocv6 status,
        DefaultIpamService.dump IpamLedger.plainText s.ipam = .ok (allocv4, allocv6, status) ∧
          Lists IpamLedger.plainText s .ipv4 allocv4 ∧
          allocv4.lookup "10.0.0.1" = some "pod-a" := by
  let request := IpamRequest.allocateIp IpamLedger.address (some "pod-a") none
  have hcall : Step IpamLedger.plainText (start IpamLedger.oneAddress) (.call request)
      ⟨(start IpamLedger.oneAddress).ipam, .empty, [(request.run IpamLedger.plainText).run]⟩ :=
    ⟨rfl, rfl⟩
  have hstep : Step IpamLedger.plainText
      ⟨(start IpamLedger.oneAddress).ipam, .empty, [(request.run IpamLedger.plainText).run]⟩
      (.step 0) ⟨allocated, KeyMap.empty.insert IpamLedger.address "pod-a",
        [.pure (.ok [IpamLedger.address])]⟩ := by
    refine ⟨_, .allocateIp IpamLedger.address "pod-a" POOL_DEFAULT, _,
      Except.ok ⟨IpamLedger.address, POOL_DEFAULT⟩, allocated, rfl, ?_, rfl⟩
    rfl
  have hrun := (Run.nil.snoc _ _ _ hcall).snoc _ _ _ hstep
  obtain ⟨hreturns, hexact⟩ := (dump_exact IpamLedger.plainText_injective
    IpamLedger.oneAddress hrun).last
  obtain ⟨⟨allocv4, allocv6, status⟩, hdump⟩ := hreturns.mpr nofun
  have hlists := (hexact allocv4 allocv6 status hdump).1
  refine ⟨_, hrun, allocv4, allocv6, status, hdump, hlists, ?_⟩
  exact hlists.owners IpamLedger.address rfl (by decide)

end DumpSystem

end Sarena
