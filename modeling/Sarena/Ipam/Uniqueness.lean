import Mathlib.Data.List.Perm.Basic
import Sarena.Ipam.Service
import Sarena.Lib.Run

namespace Sarena

open Lib

/-!
# IPAM — concurrent clients and uniqueness

Any number of clients call the service at once; their calls interleave between critical
sections.  A client may release an address that a call returned to it and that it has not
released since.  This file shows that no address is ever held by two clients.

* `IpamSystem`, `IpamSystem.Step` — the clients' calls, one critical section at a time;
* `IpamRequest.run_takes` — what a call has taken at each of its steps, and that it returns
  exactly that;
* `IpamSystem.Inv` — the addresses that calls in progress have taken and those that clients
  hold are all different, and all held by their allocators;
* `IpamSystem.holding_unique` — the clients' addresses are different in every state.
-/

/-- The calls of the service. -/
inductive IpamRequest
  | allocate (family owner pool : Option String) (expiration : Bool)
  | allocateIp (ip : IpAddr) (owner pool : Option String)
  | release (ip : IpAddr) (pool : Option String)
  | exclude (ip : IpAddr) (owner pool : String)

namespace IpamRequest

/-- The addresses of an answer of `allocate_next`. -/
def addresses (r : Option AllocationResult × Option AllocationResult) : List IpAddr :=
  (r.1.map (·.ip)).toList ++ (r.2.map (·.ip)).toList

/-- A call, with the addresses that it returns to its client. -/
def run (text : IpText) : IpamRequest → IpamCall (List IpAddr)
  | .allocate family owner pool _ => do
    let r ← DefaultIpamService.allocateNext text (DefaultIpamService.parseFamily family)
      (owner.getD "") (pool.getD POOL_DEFAULT)
    return addresses r
  | .allocateIp ip owner pool => do
    let r ← DefaultIpamService.allocateIp text ip (owner.getD "") (pool.getD POOL_DEFAULT)
    return [r.ip]
  | .release ip pool => do
    DefaultIpamService.release text ip pool
    return []
  | .exclude ip owner pool => do
    ExceptT.lift (perform (.excludeIp ip owner pool))
    return []

/-- The address that a client hands over with a call. -/
def handed : IpamRequest → List IpAddr
  | .release ip _ => [ip]
  | _ => []

/-- The addresses that are the client's after a call: those returned, or, when the call
    failed, the one handed over with it. -/
def result (request : IpamRequest) : Except IpamError (List IpAddr) → List IpAddr
  | .ok l => l
  | .error _ => request.handed

end IpamRequest

/-- A call in progress: what is left of it, and what it has taken and not given back. -/
structure IpamThread where
  client : Nat
  request : IpamRequest
  rest : Prog IpamOp (Except IpamError (List IpAddr))
  takes : List IpAddr

/-- The service, the calls in progress, and the addresses that clients hold. -/
structure IpamSystem where
  ipam : IpamState
  threads : List IpamThread
  holding : List (Nat × IpAddr)

/-- A client calls, a call in progress runs its next critical section, or it returns. -/
inductive IpamEvent
  | call (client : Nat) (request : IpamRequest)
  | step (i : Nat)
  | finish (i : Nat)

namespace IpamSystem

/-- What a call has taken after one more critical section. -/
def takesAfter (l : List IpAddr) : ∀ β : Type, IpamOp β → β → List IpAddr
  | _, .allocateNextFamily _ _ _, b => (IpamState.handedOut b).toList ++ l
  | _, .allocateIp _ _ _, b => (IpamState.handedOut b).toList ++ l
  | _, .releaseIp ip _, _ => l.erase ip
  | _, _, _ => l

/-- The service in the state `ipam`, with nobody calling. -/
def start (ipam : IpamState) : IpamSystem := ⟨ipam, [], []⟩

/-- The steps of the system.  A client releases only what it holds. -/
def Step (text : IpText) (s : IpamSystem) : IpamEvent → IpamSystem → Prop
  | .call client request, t =>
      (∀ ip ∈ request.handed, (client, ip) ∈ s.holding) ∧
        t = { s with
          threads := s.threads ++ [⟨client, request, (request.run text).run, request.handed⟩]
          holding := s.holding.diff (request.handed.map (client, ·)) }
  | .step i, t => ∃ (th : IpamThread) (β : Type) (op : IpamOp β)
      (k : β → Prog IpamOp (Except IpamError (List IpAddr))) (b : β) (ipam : IpamState),
      s.threads[i]? = some th ∧ th.rest = .op op k ∧ IpamState.sem text β op s.ipam b ipam ∧
        t = { s with
          ipam := ipam
          threads := s.threads.set i
            { th with rest := k b, takes := takesAfter th.takes β op b } }
  | .finish i, t => ∃ (th : IpamThread) (r : Except IpamError (List IpAddr)),
      s.threads[i]? = some th ∧ th.rest = .pure r ∧
        t = { s with
          threads := s.threads.eraseIdx i
          holding := (th.request.result r).map (th.client, ·) ++ s.holding }

/-- No address is held twice, by two clients or by one. -/
def Unique (s : IpamSystem) : Prop := (s.holding.map Prod.snd).Nodup

/-! ### What a call has taken -/

/-- What a call takes with one critical section: an allocation names the default pool, and
    the release of an address that it has taken succeeds. -/
def TakeSem : Sem IpamOp (List IpAddr) := fun β op l b l' =>
  l' = takesAfter l β op b ∧
    match β, op, b with
    | _, .allocateNextFamily _ _ _, b => ∀ r, b = .ok r → r.ipPoolName = POOL_DEFAULT
    | _, .allocateIp ip _ _, b => ∀ r, b = .ok r → r.ip = ip
    | _, .releaseIp _ _, b => b = .ok ()
    | _, _, _ => True

/-- A call releases only what it has taken. -/
def TakeOk : ∀ β : Type, IpamOp β → List IpAddr → Prop
  | _, .releaseIp ip _, l => ip ∈ l
  | _, _, _ => True

end IpamSystem

open IpamSystem

/-- A call that takes `l` on its way to `R`, and has given all back when it fails. -/
def Takes {α : Type} (p : IpamCall α) (R : α → List IpAddr → Prop) (X : List IpAddr → Prop)
    (l : List IpAddr) : Prop :=
  p.run.Guards TakeSem TakeOk (Prog.orError R fun _ => X) l

namespace IpamRequest

theorem allocateNextFamily_takes (f : Family) (owner pool : String) (l : List IpAddr) :
    Takes (DefaultIpamService.allocateNextFamily f owner pool)
      (fun r l' => r.ipPoolName = POOL_DEFAULT ∧ l' = r.ip :: l) (· = l) l := by
  rw [Takes, DefaultIpamService.allocateNextFamily]
  split
  · rfl
  · refine ⟨trivial, fun b l' h => ?_⟩
    obtain ⟨rfl, hpool⟩ := h
    cases b with
    | ok r => exact ⟨hpool r rfl, rfl⟩
    | error e => rfl

theorem allocateWanted_takes (wanted : Bool) (f : Family) (owner pool : String) :
    Takes (DefaultIpamService.allocateWanted wanted f owner pool)
      (fun r l' => (∀ result, r = some result → result.ipPoolName = POOL_DEFAULT) ∧
        l' = (r.map (·.ip)).toList) (· = []) [] := by
  cases wanted with
  | false => exact ⟨nofun, rfl⟩
  | true =>
    rw [Takes, DefaultIpamService.allocateWanted, if_pos rfl, map_eq_pure_bind]
    refine Prog.guards_try _ (allocateNextFamily_takes f owner pool []) ?_
    rintro r l ⟨hpool, rfl⟩
    refine ⟨?_, rfl⟩
    rintro result ⟨⟩
    exact hpool

theorem giveBack_takes (text : IpText) (result : Option AllocationResult)
    (h : ∀ r, result = some r → r.ipPoolName = POOL_DEFAULT) (X : List IpAddr → Prop) :
    Takes (DefaultIpamService.giveBack text result) (fun _ l' => l' = []) X
      (result.map (·.ip)).toList := by
  cases result with
  | none => exact rfl
  | some r =>
    refine Prog.guards_try (fun _ l' => l' = []) (Prog.guards_lift ?_) fun _ _ h => h
    rw [DefaultIpamService.releaseIp, if_neg (h r rfl ▸ POOL_DEFAULT_ne)]
    refine ⟨List.mem_singleton.mpr rfl, fun b l' hb => ?_⟩
    exact hb.1.trans (List.erase_cons_head ..)

/-- **`allocate_next`** returns what it took; when it fails it has given everything back. -/
theorem allocateNext_takes (text : IpText) (family : Option Family) (owner pool : String) :
    Takes (DefaultIpamService.allocateNext text family owner pool)
      (fun r l' => l' = addresses r) (· = []) [] := by
  unfold Takes DefaultIpamService.allocateNext
  refine Prog.guards_try (fun _ l => l = []) (Prog.guards_lift ⟨trivial, fun _ _ h => h.1⟩) ?_
  rintro ipv6Configured _ rfl
  refine Prog.guards_try (fun _ l => l = []) (Prog.guards_lift ⟨trivial, fun _ _ h => h.1⟩) ?_
  rintro ipv4Configured _ rfl
  refine Prog.guards_try _ (allocateWanted_takes _ .ipv6 owner pool) ?_
  rintro ipv6Result _ ⟨hpool, rfl⟩
  split
  · refine Prog.guards_try _ (Prog.guards_lift (allocateNextFamily_takes .ipv4 owner pool _)) ?_
    rintro (err | r) l h
    · rw [show l = _ from h]
      refine Prog.guards_try _ (giveBack_takes text ipv6Result hpool (· = [])) ?_
      rintro _ _ rfl
      rfl
    · exact h.2
  · rfl

/-- **A call returns what it took.** Whatever a call hands to its client at its end is what
    it has taken on the way, or what the client handed over. -/
theorem run_takes (text : IpText) (request : IpamRequest) :
    (request.run text).run.Guards TakeSem TakeOk (fun r l => l = request.result r)
      request.handed := by
  suffices h : Takes (request.run text) (fun r l => l = r) (· = request.handed) request.handed by
    refine Prog.Guards.imp ?_ h
    rintro (_ | _) l h
    · exact h
    · exact h
  cases request with
  | allocate family owner pool expiration =>
    exact Prog.guards_try _ (allocateNext_takes text _ _ _) fun r l h => h
  | allocateIp ip owner pool =>
    refine Prog.guards_try (fun r l => l = [r.ip]) ?_ ?_
    · rw [DefaultIpamService.allocateIp]
      split
      · rfl
      · refine ⟨trivial, fun b l' h => ?_⟩
        obtain ⟨rfl, -⟩ := h
        cases b with
        | ok r => rfl
        | error e => rfl
    · rintro r _ rfl
      rfl
  | release ip pool =>
    refine Prog.guards_try (fun _ l => l = []) ?_ fun r l h => h
    rw [DefaultIpamService.release, DefaultIpamService.releaseIp]
    split
    · rfl
    · refine ⟨List.mem_singleton.mpr rfl, fun b l' h => ?_⟩
      obtain ⟨rfl, rfl⟩ := h
      exact List.erase_cons_head ..
  | exclude ip owner pool =>
    exact Prog.guards_try (fun _ l => l = []) (Prog.guards_lift ⟨trivial, fun _ _ h => h.1⟩)
      fun r l h => h

end IpamRequest

namespace IpamSystem

/-! ### The invariant -/

/-- The addresses that calls in progress have taken and those that clients hold. -/
def outstanding (s : IpamSystem) : List IpAddr :=
  s.threads.flatMap (·.takes) ++ s.holding.map Prod.snd

/-- What every step keeps. -/
structure Inv (s : IpamSystem) : Prop where
  nodup : s.outstanding.Nodup
  held : ∀ ip ∈ s.outstanding, s.ipam.holds ip = true
  threads : ∀ th ∈ s.threads,
    th.rest.Guards TakeSem TakeOk (fun r l => l = th.request.result r) th.takes

/-- The outstanding addresses, those of one thread in front. -/
theorem outstanding_perm {threads : List IpamThread} {i : Nat} {th : IpamThread}
    (hi : threads[i]? = some th) :
    List.Perm (threads.flatMap (·.takes)) (th.takes ++ (threads.eraseIdx i).flatMap (·.takes)) := by
  obtain ⟨hlt, rfl⟩ := List.getElem?_eq_some_iff.mp hi
  have hperm := List.getElem_cons_eraseIdx_perm hlt
  exact (hperm.symm.flatMap_right _).trans (List.Perm.of_eq List.flatMap_cons)

/-- A critical section on the service is one that `TakeSem` allows, and what it adds to the
    addresses taken was free before it. -/
theorem sem_takes {text : IpText} {β : Type} {op : IpamOp β} {ipam ipam' : IpamState} {b : β}
    {l : List IpAddr} (h : IpamState.sem text β op ipam b ipam') (hok : TakeOk β op l)
    (hheld : ∀ ip ∈ l, ipam.holds ip = true) :
    TakeSem β op l b (takesAfter l β op b) ∧
      ((∃ ip, ipam.Gained ip ipam' ∧ takesAfter l β op b = ip.toList ++ l) ∨
        ∃ ip ∈ l, takesAfter l β op b = l.erase ip ∧
          ∀ j, ipam'.holds j = (ipam.holds j && decide (j ≠ ip))) := by
  cases op with
  | allocateNextFamily f owner pool =>
    obtain ⟨randoms, h⟩ := h
    obtain ⟨hgained, hpool⟩ := IpamState.allocateNextFamily_gained h
    exact ⟨⟨rfl, hpool⟩, .inl ⟨_, hgained, rfl⟩⟩
  | allocateIp ip owner pool =>
    have hspec := IpamState.allocateIp_gained text ipam ip owner pool
    rw [← show (b, ipam') = ipam.allocateIp text ip owner pool from h] at hspec
    refine ⟨⟨rfl, fun r hr => ?_⟩, .inl ⟨_, hspec.1, rfl⟩⟩
    rw [hspec.2 r hr]
  -- The only critical section that gives an address back, and `hok` says that it was taken.
  | releaseIp ip pool =>
    have h : (b, ipam') = ipam.releaseIpLocked text ip pool := h
    refine ⟨⟨rfl, ?_⟩, .inr ⟨ip, hok, rfl, fun j => ?_⟩⟩
    · rw [← IpamState.releaseIpLocked_ok text pool (hheld ip hok), ← h]
    · rw [← IpamState.holds_releaseIpLocked text ipam ip pool j, ← h]
  | ipv6Configured =>
    exact ⟨⟨rfl, trivial⟩, .inl ⟨none, IpamState.gained_of_allocator (by rw [h.2]), rfl⟩⟩
  | ipv4Configured =>
    exact ⟨⟨rfl, trivial⟩, .inl ⟨none, IpamState.gained_of_allocator (by rw [h.2]), rfl⟩⟩
  | excludeIp ip owner pool =>
    refine ⟨⟨rfl, trivial⟩, .inl ⟨none, IpamState.gained_of_allocator ?_, rfl⟩⟩
    rw [show ipam' = _ from h]
    funext f
    cases f <;> rfl

/-- Adding a free address, or giving one back, keeps the addresses different and held. -/
theorem outstanding_step {ipam ipam' : IpamState} {l l' R : List IpAddr}
    (hnodup : (l ++ R).Nodup) (hheld : ∀ ip ∈ l ++ R, ipam.holds ip = true)
    (h : (∃ ip, ipam.Gained ip ipam' ∧ l' = ip.toList ++ l) ∨
      ∃ ip ∈ l, l' = l.erase ip ∧ ∀ j, ipam'.holds j = (ipam.holds j && decide (j ≠ ip))) :
    (l' ++ R).Nodup ∧ ∀ ip ∈ l' ++ R, ipam'.holds ip = true := by
  obtain ⟨ip, hgained, rfl⟩ | ⟨ip, hmem, rfl, hholds⟩ := h
  · cases ip with
    | none => exact ⟨hnodup, fun j hj => hgained.mono j (hheld j hj)⟩
    | some ip =>
      obtain ⟨hfree, hnew⟩ := hgained.new ip rfl
      refine ⟨List.nodup_cons.mpr ⟨fun hmem => ?_, hnodup⟩, fun j hj => ?_⟩
      · exact Bool.false_ne_true (hfree.symm.trans (hheld ip hmem))
      · rcases List.mem_cons.mp hj with rfl | hj
        · exact hnew
        · exact hgained.mono j (hheld j hj)
  · -- The address given back occurs once, so nothing that is left is that address.
    rw [← List.erase_append_left R hmem]
    refine ⟨hnodup.erase ip, fun j hj => ?_⟩
    obtain ⟨hne, hj⟩ := hnodup.mem_erase_iff.mp hj
    rw [hholds, hheld j hj, decide_eq_true hne, Bool.and_true]

variable {text : IpText} {s t : IpamSystem}

/-- The same addresses in another order. -/
theorem Inv.of_perm (hs : Inv s) (hipam : t.ipam = s.ipam)
    (hperm : t.outstanding.Perm s.outstanding)
    (hthreads : ∀ th ∈ t.threads,
      th.rest.Guards TakeSem TakeOk (fun r l => l = th.request.result r) th.takes) : Inv t where
  nodup := hperm.nodup_iff.mpr hs.nodup
  held ip hip := by
    rw [hipam]
    exact hs.held ip (hperm.mem_iff.mp hip)
  threads := hthreads

/-- Handing an address over with a call leaves the outstanding addresses the same. -/
theorem handed_perm {client : Nat} {request : IpamRequest} {holding : List (Nat × IpAddr)}
    (h : ∀ ip ∈ request.handed, (client, ip) ∈ holding) :
    List.Perm (request.handed ++ (holding.diff (request.handed.map (client, ·))).map Prod.snd)
      (holding.map Prod.snd) := by
  cases request with
  | release ip pool =>
    have hmem : (client, ip) ∈ holding := h ip (List.mem_singleton.mpr rfl)
    have hdiff : holding.diff [(client, ip)] = holding.erase (client, ip) := by
      rw [List.diff_cons, List.diff_nil]
    show List.Perm (ip :: (holding.diff [(client, ip)]).map Prod.snd) _
    rw [hdiff]
    exact ((List.perm_cons_erase hmem).map Prod.snd).symm
  | _ => exact .refl _

/-- **Step lemma** for the invariant. -/
theorem Inv.step {e : IpamEvent} (h : Step text s e t) (hs : Inv s) : Inv t := by
  cases e with
  | call client request =>
    obtain ⟨hown, rfl⟩ := h
    refine hs.of_perm rfl ?_ fun th hth => ?_
    · rw [outstanding, List.flatMap_append, List.flatMap_singleton, List.append_assoc]
      exact (handed_perm hown).append_left _
    · rcases List.mem_append.mp hth with hth | hth
      · exact hs.threads th hth
      · rw [List.mem_singleton.mp hth]
        exact request.run_takes text
  | step i =>
    obtain ⟨th, β, op, k, b, ipam, hi, hrest, hsem, rfl⟩ := h
    have hth := hs.threads th (List.mem_of_getElem? hi)
    rw [hrest] at hth
    -- All addresses but those of the thread that moves.
    have hperm : s.outstanding.Perm
        (th.takes ++ ((s.threads.eraseIdx i).flatMap (·.takes) ++ s.holding.map Prod.snd)) := by
      rw [← List.append_assoc]
      exact (outstanding_perm hi).append_right _
    have hheld := fun ip hip => hs.held ip (hperm.mem_iff.mpr hip)
    obtain ⟨htake, hcases⟩ :=
      sem_takes hsem hth.1 fun ip hip => hheld ip (List.mem_append_left _ hip)
    obtain ⟨hnodup, hheld'⟩ := outstanding_step (hperm.nodup_iff.mp hs.nodup) hheld hcases
    have hlt := (List.getElem?_eq_some_iff.mp hi).1
    have hset : (s.threads.set i { th with rest := k b, takes := takesAfter th.takes β op b })[i]? =
        some { th with rest := k b, takes := takesAfter th.takes β op b } := by
      rw [List.getElem?_set_self hlt]
    have hperm' := (outstanding_perm hset).append_right (s.holding.map Prod.snd)
    rw [List.eraseIdx_set_eq, List.append_assoc] at hperm'
    refine ⟨hperm'.nodup_iff.mpr hnodup, fun ip hip => hheld' ip (hperm'.mem_iff.mp hip), ?_⟩
    intro th' hth'
    rcases List.mem_or_eq_of_mem_set hth' with hth' | rfl
    · exact hs.threads th' hth'
    · exact hth.2 b _ htake
  | finish i =>
    obtain ⟨th, r, hi, hrest, rfl⟩ := h
    have hth := hs.threads th (List.mem_of_getElem? hi)
    rw [hrest] at hth
    refine hs.of_perm rfl ?_ fun th' hth' => hs.threads th' (List.mem_of_mem_eraseIdx hth')
    have hmap : ((th.request.result r).map (th.client, ·)).map Prod.snd = th.takes := by
      rw [List.map_map, show th.takes = _ from hth]
      exact List.map_id _
    rw [outstanding, List.map_append, hmap]
    refine (List.perm_append_comm_assoc _ _ _).trans ?_
    rw [← List.append_assoc]
    exact ((outstanding_perm hi).append_right _).symm

theorem inv_start (ipam : IpamState) : Inv (start ipam) where
  nodup := List.nodup_nil
  held _ h := nomatch h
  threads _ h := nomatch h

/-- **Uniqueness.** However the critical sections of the clients' calls interleave, from
    any state of the service, an address that one client holds is held by no other. -/
theorem holding_unique (text : IpText) (ipam : IpamState) {s : IpamSystem}
    (run : Run (Step text) (start ipam) s) : run.Always Unique := by
  have hinv := run.always_of_invariant (inv_start ipam) fun _ _ _ h hs => hs.step h
  exact hinv.mono fun s hs => (List.nodup_append.mp hs.nodup).2.1

end IpamSystem

end Sarena
