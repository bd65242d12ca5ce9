import Sarena.Services.Endpoint
import Sarena.Lib.Run

namespace Sarena

open Lib

/-!
# Services — concurrent creates and uniqueness

`create` looks up the container id, the IPv4 and the IPv6 address of a request in three
critical sections and inserts the endpoint in a fourth.  Another request can insert the
same key in between, and then two endpoints carry it.  This file finds out exactly when.

* `CreateSystem`, `CreateSystem.Step` — any number of creates, one critical section at a
  time, in any interleaving;
* `CreateSystem.Unique` — no two endpoints share a container id or an address;
* `CreateSystem.Fresh` — the condition on the state before a step: no endpoint with one
  of the request's keys was inserted since the request itself looked that key up;
* `unique_always_iff` — the runs that stay unique are exactly those in which every
  insertion is fresh.
-/

/-- The keys that `create` checks before it inserts. -/
def IndexKey.isChecked : IndexKey → Bool
  | .containerId _ => true
  | .ipv4 _ => true
  | .ipv6 _ => true
  | _ => false

/-- The key that an operation looked up without finding it. -/
def ManagerOp.missed : ∀ β : Type, ManagerOp β → β → Option IndexKey
  | _, .lookupContainerId id, b => if b.isNone then some (.containerId id) else none
  | _, .lookupIpv4 ip, b => if b.isNone then some (.ipv4 ip) else none
  | _, .lookupIpv6 ip, b => if b.isNone then some (.ipv6 ip) else none
  | _, _, _ => none

/-- A create request in progress: what is left of its handler, and the keys it looked up
    without finding them, each with the number of endpoints inserted until then. -/
structure CreateThread where
  rest : Prog ManagerOp (Except HandlerFailure Unit)
  checks : List (IndexKey × Nat) := []

/-- The manager, the create requests, and the endpoints inserted so far, in order. -/
structure CreateSystem where
  manager : EndpointManager
  threads : List CreateThread
  inserted : List EndpointPersist

/-- A new request, or the next critical section of one in progress. -/
inductive CreateEvent
  | call (request : EndpointCreateRequest)
  | step (i : Nat)

namespace CreateSystem

/-- The manager at its start, without requests. -/
def new : CreateSystem := ⟨.new, [], []⟩

/-- The endpoint that an operation inserts in this state. -/
def inserts (m : EndpointManager) : ∀ β : Type, ManagerOp β → Option EndpointPersist
  | _, .addEndpoint persist =>
      if m.inner.endpoints persist.id = none then some persist else none
  | _, _ => none

/-- The steps of the system. -/
def Step (text : IpText) (s : CreateSystem) : CreateEvent → CreateSystem → Prop
  | .call request, t =>
      t = { s with threads := s.threads ++ [{ rest := (create text request).run }] }
  | .step i, t => ∃ (th : CreateThread) (β : Type) (op : ManagerOp β)
      (k : β → Prog ManagerOp (Except HandlerFailure Unit)) (b : β) (m' : EndpointManager),
      s.threads[i]? = some th ∧ th.rest = .op op k ∧
        EndpointManager.sem β op s.manager b m' ∧
        t = { manager := m'
              threads := s.threads.set i
                { rest := k b
                  checks := th.checks ++
                    ((ManagerOp.missed β op b).map (·, s.inserted.length)).toList }
              inserted := s.inserted ++ (inserts s.manager β op).toList }

/-- No two endpoints carry the same container id, IPv4 or IPv6 address. -/
def Unique (s : CreateSystem) : Prop :=
  ∀ k : IndexKey, k.isChecked = true → ∀ i j ep ep',
    s.manager.inner.endpoints i = some ep → s.manager.inner.endpoints j = some ep' →
      ep.status.persist.carries k → ep'.status.persist.carries k → i = j

/-- The endpoint that the next critical section of a thread inserts. -/
def nextInsert (m : EndpointManager) : Prog ManagerOp (Except HandlerFailure Unit) →
    Option EndpointPersist
  | .op op _ => inserts m _ op
  | .pure _ => none

/-- The condition on the state before a step: when it inserts an endpoint, no endpoint
    inserted since the request looked up one of its keys carries that key. -/
def Fresh (s : CreateSystem) : CreateEvent → Prop
  | .call _ => True
  | .step i => ∀ th, s.threads[i]? = some th → ∀ p, nextInsert s.manager th.rest = some p →
      ∀ k n, (k, n) ∈ th.checks → p.carries k → ∀ q ∈ s.inserted.drop n, ¬ q.carries k

/-! ### A create looks up what it inserts -/

/-- What an answered operation adds to the keys a create has looked up without finding
    them.  Knowing more keys than these does no harm. -/
def LookedUp : Sem ManagerOp (IndexKey → Prop) := fun _ op K b K' =>
  (∀ k, K k → K' k) ∧ ∀ k, ManagerOp.missed _ op b = some k → K' k

/-- An operation a create may perform after it looked up `K`: it inserts only endpoints
    whose checked keys are all in `K`, and it deletes nothing. -/
def CreateOp : ∀ β : Type, ManagerOp β → (IndexKey → Prop) → Prop
  | _, .addEndpoint persist, K => ∀ k, k.isChecked = true → persist.carries k → K k
  | _, .takeEndpoint _, _ => False
  | _, .shutdown _, _ => False
  | _, .waitForShutdown _ _, _ => False
  | _, .removeLoaderEndpoint _, _ => False
  | _, .releaseId _, _ => False
  | _, _, _ => True

/-- A handler that guards its operations so, from `K` to `R`; when it fails, anything. -/
def Covers {α : Type} (p : Handler ManagerOp α) (R : α → (IndexKey → Prop) → Prop)
    (K : IndexKey → Prop) : Prop :=
  p.run.Guards LookedUp CreateOp (Prog.orError R fun _ _ => True) K

private theorem checkUnused_covers {α : Type} {ip : Option α} {key : α → IndexKey}
    {lookup : α → ManagerOp (Option EndpointId)} {message : α → String} {K : IndexKey → Prop}
    (hok : ∀ a K, CreateOp _ (lookup a) K)
    (hmiss : ∀ a, ManagerOp.missed _ (lookup a) none = some (key a)) :
    Covers (checkUnused ip lookup message)
      (fun _ K' => (∀ k, K k → K' k) ∧ ∀ a, ip = some a → K' (key a)) K := by
  cases ip with
  | none => exact ⟨fun _ h => h, nofun⟩
  | some a =>
    refine Prog.guards_try _ (Handler.guards_op (hok a K) fun b K' h => h) ?_
    rintro b K' ⟨hle, hnew⟩
    refine Handler.guards_ensure (fun hb => ⟨hle, ?_⟩) trivial
    rintro a' ⟨⟩
    obtain rfl := Option.isNone_iff_eq_none.mp hb
    exact hnew _ (hmiss a)

private theorem addLeased_covers {endpoint : EndpointPersist} {K : IndexKey → Prop}
    (h : ∀ k, k.isChecked = true → endpoint.carries k → K k) :
    Covers (addLeased endpoint) (fun _ _ => True) K := by
  refine Prog.guards_try (fun _ _ => True) (Handler.guards_op h fun _ _ _ => trivial) ?_
  intro b K' _
  cases b with
  | ok ep => exact ⟨trivial, fun _ _ _ => trivial⟩
  | error e => exact ⟨trivial, fun _ _ _ => trivial⟩

private theorem createEndpoint_covers (text : IpText) (request : EndpointCreateRequest)
    (K : IndexKey → Prop) : Covers (createEndpoint text request) (fun _ _ => True) K := by
  unfold createEndpoint
  refine Prog.guards_try _ (Handler.guards_op trivial fun b K h => h) ?_
  rintro known K ⟨-, hmiss⟩
  refine Prog.guards_try (fun _ K => K (.containerId request.containerId))
    (Handler.guards_ensure (fun h => hmiss _ (if_pos h)) trivial) ?_
  intro _ K hid
  refine Prog.guards_try (fun _ K => K (.containerId request.containerId))
    (Handler.guards_attempt (fun _ _ => hid) fun _ => trivial) ?_
  intro ipv4 K hid
  refine Prog.guards_try (fun _ K => K (.containerId request.containerId))
    (Handler.guards_attempt (fun _ _ => hid) fun _ => trivial) ?_
  intro ipv6 K hid
  refine Prog.guards_try _ (checkUnused_covers (fun _ _ => trivial) fun _ => rfl) ?_
  rintro _ K₁ ⟨hle₁, hipv4⟩
  refine Prog.guards_try _ (checkUnused_covers (fun _ _ => trivial) fun _ => rfl) ?_
  rintro _ K₂ ⟨hle₂, hipv6⟩
  -- All three kinds of keys are looked up by now, and nothing below forgets one.
  have hall : ∀ id hostMac containerMac k, k.isChecked = true →
      (createPersist request id hostMac containerMac ipv4 ipv6).carries k → K₂ k := by
    intro id hostMac containerMac k hk hcar
    cases k with
    | containerId c =>
      obtain rfl : request.containerId = c := Option.some.inj hcar
      exact hle₂ _ (hle₁ _ hid)
    | ipv4 ip => exact hle₂ _ (hipv4 ip hcar)
    | ipv6 ip => exact hipv6 ip hcar
    | containerName _ => cases hk
    | dockerEndpoint _ => cases hk
    | podName _ => cases hk
  refine Prog.guards_try (fun _ K => K = K₂) (Handler.guards_expect (fun _ _ => rfl) trivial) ?_
  rintro hostMac K rfl
  refine Prog.guards_try (fun _ K' => K' = K) (Handler.guards_expect (fun _ _ => rfl) trivial) ?_
  rintro containerMac K' rfl
  refine Prog.guards_try (fun _ K => ∀ k, K' k → K k)
    (Handler.guards_op trivial fun _ _ h => h.1) ?_
  rintro lease K hle
  refine Prog.guards_try (fun _ K' => K' = K)
    (Handler.guards_attempt (fun _ _ => rfl) fun _ => trivial) ?_
  rintro id K'' rfl
  exact addLeased_covers fun k hk hcar => hle k (hall id hostMac containerMac k hk hcar)

/-- Every key of the endpoint that `create` inserts was looked up and not found. -/
theorem create_covers (text : IpText) (request : EndpointCreateRequest)
    (K : IndexKey → Prop) : Covers (create text request) (fun _ _ => True) K := by
  unfold create
  refine Prog.guards_try (fun _ _ => True) (createEndpoint_covers text request K) ?_
  intro ep K _
  refine Prog.guards_try (fun _ _ => True) (Handler.guards_op trivial fun _ _ _ => trivial) ?_
  exact fun r K _ => Handler.guards_attempt (fun _ _ => trivial) fun _ => trivial

/-! ### What every step keeps -/

/-- The keys of `checks` that no endpoint inserted before their lookup carries. -/
def seen (inserted : List EndpointPersist) (checks : List (IndexKey × Nat)) (k : IndexKey) :
    Prop :=
  ∃ n, (k, n) ∈ checks ∧ n ≤ inserted.length ∧ ∀ q ∈ inserted.take n, ¬ q.carries k

theorem seen_append {inserted : List EndpointPersist} {checks : List (IndexKey × Nat)}
    {k : IndexKey} (h : seen inserted checks k) (l : List EndpointPersist)
    (c : List (IndexKey × Nat)) : seen (inserted ++ l) (checks ++ c) k := by
  obtain ⟨n, hn, hle, hq⟩ := h
  refine ⟨n, List.mem_append_left _ hn, ?_, ?_⟩
  · rw [List.length_append]
    omega
  · rwa [List.take_append_of_le_length hle]

/-- What is left of a create may go on with these keys looked up. -/
def RestOk (rest : Prog ManagerOp (Except HandlerFailure Unit)) (K : IndexKey → Prop) :
    Prop :=
  rest.Guards LookedUp CreateOp (Prog.orError (fun _ _ => True) fun _ _ => True) K

theorem RestOk.mono {rest : Prog ManagerOp (Except HandlerFailure Unit)}
    {K K' : IndexKey → Prop} (h : RestOk rest K) (hle : ∀ k, K k → K' k) :
    RestOk rest K' := by
  cases rest with
  | pure r => cases r <;> trivial
  | op e k =>
    refine ⟨?_, fun b K'' hb => h.2 b K'' ⟨fun k hk => hb.1 k (hle k hk), hb.2⟩⟩
    have hop := h.1
    cases e with
    | addEndpoint p => exact fun k hk hcar => hle k (hop k hk hcar)
    | _ => exact hop

/-- A thread is a create that has looked up the keys of its checks. -/
structure ThreadOk (inserted : List EndpointPersist) (th : CreateThread) : Prop where
  rest : RestOk th.rest (seen inserted th.checks)
  checked : ∀ k n, (k, n) ∈ th.checks → k.isChecked = true

/-- What every step keeps: the endpoints are those inserted, whatever was inserted is found
    by its checked keys, and every thread is a create. -/
structure Inv (s : CreateSystem) : Prop where
  stored : ∀ i p, s.manager.persists i = some p → p.id = i ∧ p ∈ s.inserted
  live : ∀ p ∈ s.inserted, s.manager.persists p.id = some p
  indexed : ∀ p ∈ s.inserted, ∀ k, k.isChecked = true → p.carries k →
    s.manager.inner.lookup k ≠ none
  threads : ∀ th ∈ s.threads, ThreadOk s.inserted th

variable {text : IpText} {s t : CreateSystem}

/-- A create's operation leaves the endpoints and the indexes as they are, or it inserts. -/
theorem sem_cases {β : Type} {op : ManagerOp β} {m m' : EndpointManager} {b : β}
    {K : IndexKey → Prop} (hop : CreateOp β op K) (h : EndpointManager.sem β op m b m') :
    (inserts m β op = none ∧ m'.persists = m.persists ∧ m'.inner.lookup = m.inner.lookup) ∨
      ∃ p, inserts m β op = some p ∧ m.inner.endpoints p.id = none ∧
        m' = (m.addEndpoint p).2 ∧ ∀ k, k.isChecked = true → p.carries k → K k := by
  cases op with
  | addEndpoint p =>
    by_cases hfree : m.inner.endpoints p.id = none
    · exact .inr ⟨p, if_pos hfree, hfree, h.2, hop⟩
    · rw [show m' = m from h.2.trans (EndpointManager.addEndpoint_of_some hfree)]
      exact .inl ⟨if_neg hfree, rfl, rfl⟩
  | regenerate ep =>
    obtain ⟨phase, generation, rfl⟩ := h
    exact .inl ⟨rfl, EndpointManager.persists_publish _ _ _ _,
      EndpointManager.lookup_publish _ _ _ _⟩
  | allocateNewId =>
    refine .inl ?_
    cases b with
    | ok id => obtain ⟨cache, -, rfl⟩ := h; exact ⟨rfl, rfl, rfl⟩
    | error e => rw [show m' = m from h.2.1]; exact ⟨rfl, rfl, rfl⟩
  | dropLease id => rw [show m' = _ from h]; exact .inl ⟨rfl, rfl, rfl⟩
  | commitLease id => rw [show m' = m from h]; exact .inl ⟨rfl, rfl, rfl⟩
  | lookupContainerId id => rw [show m' = m from h.2]; exact .inl ⟨rfl, rfl, rfl⟩
  | lookupIpv4 ip => rw [show m' = m from h.2]; exact .inl ⟨rfl, rfl, rfl⟩
  | lookupIpv6 ip => rw [show m' = m from h.2]; exact .inl ⟨rfl, rfl, rfl⟩
  | _ => exact hop.elim

/-- A key that an operation misses is one that the manager does not find. -/
theorem missed_lookup {β : Type} {op : ManagerOp β} {m m' : EndpointManager} {b : β}
    (h : EndpointManager.sem β op m b m') {k : IndexKey} (hk : ManagerOp.missed β op b = some k) :
    k.isChecked = true ∧ m.inner.lookup k = none := by
  cases op <;> simp only [ManagerOp.missed, Option.ite_none_right_eq_some, reduceCtorEq] at hk
  all_goals
    obtain ⟨hb, hk⟩ := hk
    obtain rfl := Option.some.inj hk
    exact ⟨rfl, h.1.symm.trans (Option.isNone_iff_eq_none.mp hb)⟩

/-- The endpoints inserted, the keys found and the threads after one insertion. -/
private theorem Inv.insert (hs : Inv s) {p : EndpointPersist}
    (hfree : s.manager.inner.endpoints p.id = none) {threads : List CreateThread}
    (hthreads : ∀ th ∈ threads, ThreadOk (s.inserted ++ [p]) th) :
    Inv ⟨(s.manager.addEndpoint p).2, threads, s.inserted ++ [p]⟩ where
  stored i q hq := by
    rw [EndpointManager.persists_addEndpoint _ _ hfree, KeyMap.insert_apply] at hq
    split at hq
    next hi =>
      obtain rfl := Option.some.inj hq
      exact ⟨hi.symm, List.mem_append_right _ List.mem_cons_self⟩
    next =>
      obtain ⟨hid, hmem⟩ := hs.stored i q hq
      exact ⟨hid, List.mem_append_left _ hmem⟩
  live q hq := by
    rw [EndpointManager.persists_addEndpoint _ _ hfree]
    rcases List.mem_append.mp hq with hq | hq
    · have hlive := hs.live q hq
      have hne : q.id ≠ p.id := by
        intro heq
        rw [heq, EndpointManager.persists_eq_none.mpr hfree] at hlive
        cases hlive
      rw [KeyMap.insert_of_ne _ _ hne, hlive]
    · rw [List.mem_singleton.mp hq, KeyMap.insert_self]
  indexed q hq k hk hcar := by
    -- `k` is a checked key, and a container name is not.
    have hname : k.isContainerName = false := by cases k <;> first | rfl | cases hk
    rw [EndpointManager.lookup_addEndpoint_ne_none _ _ hfree hname]
    rcases List.mem_append.mp hq with hq | hq
    · exact .inr (hs.indexed q hq k hk hcar)
    · rw [List.mem_singleton.mp hq] at hcar
      refine .inl ?_
      cases k <;> first | exact hcar | cases hk
  threads := hthreads

/-- The threads after one of them took a step. -/
private theorem threads_step (hs : Inv s) {i : Nat} {th : CreateThread} {β : Type}
    {op : ManagerOp β} {k : β → Prog ManagerOp (Except HandlerFailure Unit)} {b : β}
    {m' : EndpointManager} (hi : s.threads[i]? = some th) (hrest : th.rest = .op op k)
    (hsem : EndpointManager.sem β op s.manager b m') (l : List EndpointPersist) :
    ∀ th' ∈ s.threads.set i ⟨k b, th.checks ++
        ((ManagerOp.missed β op b).map (·, s.inserted.length)).toList⟩,
      ThreadOk (s.inserted ++ l) th' := by
  intro th' hth'
  rcases List.mem_or_eq_of_mem_set hth' with hth' | rfl
  · obtain ⟨hok, hchecked⟩ := hs.threads th' hth'
    refine ⟨hok.mono fun k hk => ?_, hchecked⟩
    have := seen_append hk l []
    rwa [List.append_nil] at this
  · -- A lookup that missed is remembered with the number of endpoints inserted by then: none of
    -- those carries the key.
    obtain ⟨hok, hchecked⟩ := hs.threads th (List.mem_of_getElem? hi)
    rw [hrest] at hok
    refine ⟨hok.2 b _ ⟨fun k hk => seen_append hk l _, fun key hkey => ?_⟩, fun key n hn => ?_⟩
    · obtain ⟨hchecked, hnone⟩ := missed_lookup hsem hkey
      refine ⟨s.inserted.length, ?_, ?_, ?_⟩
      · simp [hkey]
      · simp
      · intro q hq hcar
        rw [List.take_left] at hq
        exact hs.indexed q hq key hchecked hcar hnone
    · rcases List.mem_append.mp hn with hn | hn
      · exact hchecked key n hn
      · rw [Option.mem_toList, Option.map_eq_some_iff] at hn
        obtain ⟨_, hmiss, hpair⟩ := hn
        obtain ⟨rfl, -⟩ := Prod.mk.inj hpair
        exact (missed_lookup hsem hmiss).1

/-- **Step lemma** for the invariant. -/
theorem Inv.step {e : CreateEvent} (h : Step text s e t) (hs : Inv s) : Inv t := by
  cases e with
  | call request =>
    rw [show t = _ from h]
    refine ⟨hs.stored, hs.live, hs.indexed, fun th hth => ?_⟩
    rcases List.mem_append.mp hth with hth | hth
    · exact hs.threads th hth
    · rw [List.mem_singleton.mp hth]
      exact ⟨create_covers text request _, nofun⟩
  | step i =>
    obtain ⟨th, β, op, k, b, m', hi, hrest, hsem, rfl⟩ := h
    have hop := (hs.threads th (List.mem_of_getElem? hi)).rest
    rw [hrest] at hop
    obtain ⟨hins, hper, hlook⟩ | ⟨p, hins, hfree, rfl, _⟩ := sem_cases hop.1 hsem
    · have hthreads := threads_step hs hi hrest hsem []
      rw [List.append_nil] at hthreads
      rw [hins, Option.toList_none, List.append_nil]
      exact ⟨fun i p hp => hs.stored i p (hper ▸ hp), fun p hp => hper ▸ hs.live p hp,
        fun p hp k hk hcar => hlook ▸ hs.indexed p hp k hk hcar, hthreads⟩
    · rw [hins, Option.toList_some]
      exact hs.insert hfree (threads_step hs hi hrest hsem [p])

/-! ### Which steps keep the keys unique -/

/-- In terms of what was inserted: two entries with a checked key in common are one. -/
theorem unique_iff (hs : Inv s) :
    Unique s ↔ ∀ k : IndexKey, k.isChecked = true → ∀ p ∈ s.inserted, ∀ q ∈ s.inserted,
      p.carries k → q.carries k → p.id = q.id := by
  constructor
  · intro h k hk p hp q hq hcarp hcarq
    obtain ⟨ep, hep, rfl⟩ := EndpointManager.persists_eq_some.mp (hs.live p hp)
    obtain ⟨eq, heq, rfl⟩ := EndpointManager.persists_eq_some.mp (hs.live q hq)
    exact h k hk _ _ ep eq hep heq hcarp hcarq
  · intro h k hk i j ep ep' hi hj hcar hcar'
    obtain ⟨hid, hp⟩ := hs.stored i _ (EndpointManager.persists_eq_some.mpr ⟨ep, hi, rfl⟩)
    obtain ⟨hid', hp'⟩ := hs.stored j _ (EndpointManager.persists_eq_some.mpr ⟨ep', hj, rfl⟩)
    rw [← hid, ← hid']
    exact h k hk _ hp _ hp' hcar hcar'

/-- An insertion keeps the keys unique when no earlier entry carries one of its own. -/
private theorem unique_insert_iff (hs : Inv s) (hu : Unique s) {p : EndpointPersist}
    (hfree : s.manager.inner.endpoints p.id = none) {threads : List CreateThread}
    (hinv : Inv ⟨(s.manager.addEndpoint p).2, threads, s.inserted ++ [p]⟩) :
    Unique ⟨(s.manager.addEndpoint p).2, threads, s.inserted ++ [p]⟩ ↔
      ∀ k : IndexKey, k.isChecked = true → p.carries k → ∀ q ∈ s.inserted, ¬ q.carries k := by
  have hne : ∀ q ∈ s.inserted, q.id ≠ p.id := by
    intro q hq heq
    have hlive := hs.live q hq
    rw [heq, EndpointManager.persists_eq_none.mpr hfree] at hlive
    cases hlive
  rw [unique_iff hinv]
  constructor
  · intro h k hk hcar q hq hcarq
    exact hne q hq (h k hk q (List.mem_append_left _ hq) p
      (List.mem_append_right _ List.mem_cons_self) hcarq hcar)
  · intro h k hk q hq r hr hcarq hcarr
    rcases List.mem_append.mp hq with hq | hq <;> rcases List.mem_append.mp hr with hr | hr
    · exact (unique_iff hs).mp hu k hk q hq r hr hcarq hcarr
    · rw [List.mem_singleton.mp hr] at hcarr
      exact absurd hcarq (h k hk hcarr q hq)
    · rw [List.mem_singleton.mp hq] at hcarq
      exact absurd hcarr (h k hk hcarq r hr)
    · rw [List.mem_singleton.mp hq, List.mem_singleton.mp hr]

/-- **Step.** From a state with unique keys, a step keeps them unique exactly when what it
    inserts, if anything, is fresh. -/
theorem step_iff {e : CreateEvent} (h : Step text s e t) (hu : Unique s) (hs : Inv s) :
    Unique t ↔ Fresh s e := by
  have ht : Inv t := hs.step h
  cases e with
  | call request => rw [show t = _ from h]; exact iff_of_true hu trivial
  | step i =>
    obtain ⟨th, β, op, k, b, m', hi, hrest, hsem, rfl⟩ := h
    have hop := (hs.threads th (List.mem_of_getElem? hi)).rest
    rw [hrest] at hop
    have hnext : nextInsert s.manager th.rest = inserts s.manager β op := by rw [hrest]; rfl
    obtain ⟨hins, hper, hlook⟩ | ⟨p, hins, hfree, rfl, hcov⟩ := sem_cases hop.1 hsem
    · refine iff_of_true ?_ ?_
      · rw [unique_iff ht]
        simpa [hins] using (unique_iff hs).mp hu
      · rintro th' hth' p hp
        obtain rfl := Option.some.inj (hi.symm.trans hth')
        rw [hnext, hins] at hp
        cases hp
    · rw [hins, Option.toList_some] at ht ⊢
      rw [unique_insert_iff hs hu hfree ht]
      constructor
      · rintro h th' hth' p' hp' key n hn hcar q hq hcarq
        obtain rfl := Option.some.inj (hi.symm.trans hth')
        rw [hnext, hins] at hp'
        obtain rfl := Option.some.inj hp'
        exact h key ((hs.threads th (List.mem_of_getElem? hi)).checked key n hn) hcar q
          (List.mem_of_mem_drop hq) hcarq
      · intro h key hkey hcar q hq hcarq
        -- The request missed the key at `n`: before `n` nothing carries it, and after `n`
        -- nothing does because the insertion is fresh.
        obtain ⟨n, hn, hle, htake⟩ := hcov key hkey hcar
        have hdrop := h th hi p (hnext.trans hins) key n hn hcar
        rw [← List.take_append_drop n s.inserted] at hq
        rcases List.mem_append.mp hq with hq | hq
        · exact htake q hq hcarq
        · exact hdrop q hq hcarq

/-! ### Runs -/

theorem inv_new : Inv new where
  stored _ _ h := nomatch h
  live _ h := nomatch h
  indexed _ h := nomatch h
  threads _ h := nomatch h

/-- **Exact condition.** In a run of concurrent creates, container ids and addresses are
    unique in every state exactly when every insertion of the run is fresh. -/
theorem unique_always_iff (text : IpText) {s : CreateSystem} (run : Run (Step text) new s) :
    run.Always Unique ↔ run.EachStep (fun s e _ => Fresh s e) :=
  Run.always_iff_eachStep ((unique_iff inv_new).mpr fun _ _ _ h => nomatch h) inv_new
    (fun _ _ _ h _ hs _ => hs.step h) (fun _ _ _ h hu hs => step_iff h hu hs) run

/-- A request for container `c1` without addresses. -/
def requestC1 : EndpointCreateRequest where
  containerId := "c1"
  containerMac := "02:00:00:00:00:01"
  containerIfaceName := "eth0"
  hostMac := "02:00:00:00:00:02"
  hostIfaceName := "lxc1"
  hostIfaceIndex := 7
  k8sNamespace := "default"
  k8sPodName := "pod"
  k8sUid := "uid"
  ipv4 := none
  ipv6 := none

/-- No text is an address. -/
def noText : IpText := ⟨fun _ => none, fun _ => .error "invalid", fun _ => ""⟩

/-- **Two creates at once.** Both requests look the container up before either of them
    inserts, and both are accepted. -/
theorem two_endpoints_for_one_container :
    ∃ s, ∃ _ : Run (Step noText) new s, ∃ ep ep' : Endpoint,
      s.manager.inner.endpoints 1 = some ep ∧ s.manager.inner.endpoints 2 = some ep' ∧
        ep.status.persist.containerId = some "c1" ∧
        ep'.status.persist.containerId = some "c1" ∧ ¬ Unique s := by
  have r1 := (.nil : Run (Step noText) new new).snoc _ (.call requestC1) _ rfl
  have r2 := r1.snoc _ (.call requestC1) _ rfl
  have r3 := r2.snoc _ (.step 0) _
    ⟨_, _, .lookupContainerId "c1", _, none, _, rfl, rfl, ⟨rfl, rfl⟩, rfl⟩
  have r4 := r3.snoc _ (.step 1) _
    ⟨_, _, .lookupContainerId "c1", _, none, _, rfl, rfl, ⟨rfl, rfl⟩, rfl⟩
  have r5 := r4.snoc _ (.step 0) _ ⟨_, _, .allocateNewId, _, .ok 1, _, rfl, rfl,
    ⟨_, ⟨Finset.mem_Icc.mpr (by decide), rfl⟩, rfl⟩, rfl⟩
  have r6 := r5.snoc _ (.step 0) _ ⟨_, _, .addEndpoint _, _, _, _, rfl, rfl, ⟨rfl, rfl⟩, rfl⟩
  have r7 := r6.snoc _ (.step 1) _ ⟨_, _, .allocateNewId, _, .ok 2, _, rfl, rfl,
    ⟨_, ⟨Finset.mem_erase.mpr ⟨by decide, Finset.mem_Icc.mpr (by decide)⟩, rfl⟩, rfl⟩, rfl⟩
  have r8 := r7.snoc _ (.step 1) _ ⟨_, _, .addEndpoint _, _, _, _, rfl, rfl, ⟨rfl, rfl⟩, rfl⟩
  refine ⟨_, r8, _, _, rfl, rfl, rfl, rfl, fun h => ?_⟩
  exact absurd (h (.containerId "c1") rfl 1 2 _ _ rfl rfl rfl rfl) (by decide)

end CreateSystem

end Sarena
