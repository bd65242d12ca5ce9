import Sarena.Api.Retry

namespace Sarena

open Lib

/-!
# API — allocations that are tried again

An allocation whose answer is lost after the server carried it out is carried out again by the
next attempt, and the address of the first one is nobody's.  This file counts the addresses that
one call of the client takes.

* `IpamState.Gave` — the addresses that a family handed out between two states;
* `wasted` — the attempts of a pattern that are carried out and lost before the first answer;
* `allocate_serves` — what one attempt does, when the server carries it out;
* `allocate_spec` — a call succeeds exactly when it is answered while there is room, and then
  every family it asks for has handed out one address for every attempt carried out;
* `allocatesOnce_iff` — the calls that take exactly one address in every requested family.
-/

/-! ### Addresses handed out -/

namespace IpamState

/-- Between the states the family's allocator handed out these addresses, which were free. -/
structure Gave (s : IpamState) (f : Family) (ips : List IpAddr) (t : IpamState) : Prop where
  nodup : ips.Nodup
  fresh : ∀ ip ∈ ips, s.held f ip = false
  count : s.free f = t.free f + ips.length
  held : ∀ j, t.held f j = (s.held f j || decide (j ∈ ips))

variable {s t u : IpamState} {f : Family} {ip : IpAddr} {ips : List IpAddr}

theorem Unmoved.gave (h : Unmoved s f t) : Gave s f [] t where
  nodup := List.nodup_nil
  fresh := nofun
  count := h.free.symm
  held j := by rw [h.held, decide_eq_false List.not_mem_nil, Bool.or_false]

/-- One address, and those after it. -/
theorem Took.gave (h : Took s f ip t) (h' : Gave t f ips u) : Gave s f (ip :: ips) u where
  nodup := by
    refine List.nodup_cons.mpr ⟨fun hmem => ?_, h'.nodup⟩
    -- The address is held from here on, so it is not handed out again.
    have hheld := h'.fresh ip hmem
    rw [h.held, decide_eq_true rfl, Bool.or_true] at hheld
    cases hheld
  fresh j hj := by
    obtain rfl | hj := List.mem_cons.mp hj
    · exact h.free
    · have hheld := h'.fresh j hj
      rw [h.held, Bool.or_eq_false_iff] at hheld
      exact hheld.1
  count := by
    have hcount := h.count
    have hcount' := h'.count
    rw [List.length_cons]
    omega
  held j := by
    rw [h'.held, h.held, Bool.or_assoc, ← Bool.decide_or]
    congr 1
    rw [decide_eq_decide, List.mem_cons]

theorem Unmoved.gave_after (h : Unmoved s f t) (h' : Gave t f ips u) : Gave s f ips u where
  nodup := h'.nodup
  fresh j hj := (h.held j).symm.trans (h'.fresh j hj)
  count := h.free.symm.trans h'.count
  held j := by rw [h'.held, h.held]

/-- The new addresses are those handed out, so there is exactly one when one was. -/
theorem Gave.existsUnique_iff (h : Gave s f ips t) :
    (∃! ip, t.held f ip = true ∧ s.held f ip = false) ↔ ips.length = 1 := by
  have hnew : ∀ j, t.held f j = true ∧ s.held f j = false ↔ j ∈ ips := by
    intro j
    rw [h.held, Bool.or_eq_true, decide_eq_true_iff]
    constructor
    · rintro ⟨hor, hfree⟩
      exact hor.resolve_left (by rw [hfree]; exact Bool.false_ne_true)
    · intro hj
      exact ⟨.inr hj, h.fresh j hj⟩
  simp only [hnew]
  constructor
  · rintro ⟨ip, hip, hunique⟩
    have hsub : ips ⊆ [ip] := fun j hj => List.mem_singleton.mpr (hunique j hj)
    have hle : ips.length ≤ 1 := (h.nodup.subperm hsub).length_le
    have hpos : 0 < ips.length := List.length_pos_of_mem hip
    omega
  · intro hone
    obtain ⟨ip, rfl⟩ := List.length_eq_one_iff.mp hone
    exact ⟨ip, List.mem_cons_self, fun j hj => List.mem_singleton.mp hj⟩

end IpamState

/-! ### Patterns -/

/-- The attempt is answered. -/
def Delivery.isDelivered : Delivery → Bool
  | .delivered => true
  | .lost _ _ => false

/-- Some attempt is answered. -/
def answered (p : List Delivery) : Bool := p.any Delivery.isDelivered

/-- The number of attempts that are carried out and lost before the first one is answered. -/
def wasted (p : List Delivery) : Nat :=
  (p.takeWhile fun d => !d.isDelivered).countP Delivery.executes

@[simp] theorem wasted_delivered (p : List Delivery) : wasted (.delivered :: p) = 0 := rfl

@[simp] theorem wasted_executed (failure : Failure) (p : List Delivery) :
    wasted (.lost true failure :: p) = wasted p + 1 := List.countP_cons_of_pos rfl

@[simp] theorem wasted_unexecuted (failure : Failure) (p : List Delivery) :
    wasted (.lost false failure :: p) = wasted p := List.countP_cons_of_neg Bool.false_ne_true

@[simp] theorem answered_delivered (p : List Delivery) : answered (.delivered :: p) = true := rfl

@[simp] theorem answered_lost (executed : Bool) (failure : Failure) (p : List Delivery) :
    answered (.lost executed failure :: p) = answered p := rfl

/-! ### One attempt -/

open DefaultIpamService IpamState

/-- The family is requested: by its name, or because a request that names none asks for every
    configured family. -/
def requested (s : IpamState) (family : Option Family) (f : Family) : Prop :=
  family = some f ∨ (family = none ∧ s.configured f = true)

theorem requested_of_serves {s : IpamState} {family : Option Family} {f : Family}
    (h : serves s family f = true) : requested s family f := by
  obtain ⟨hwants, hconf⟩ := Bool.and_eq_true_iff.mp h
  obtain hnone | hsome := of_decide_eq_true hwants
  · exact .inr ⟨hnone, hconf⟩
  · exact .inl hsome

theorem serves_of_requested {s : IpamState} {family : Option Family} {f : Family}
    (h : requested s family f) (hconf : s.configured f = true) : serves s family f = true := by
  refine Bool.and_eq_true_iff.mpr ⟨decide_eq_true ?_, hconf⟩
  obtain hsome | ⟨hnone, -⟩ := h
  · exact .inr hsome
  · exact .inl hnone

/-- Every family that serves the request has more than `k` free addresses, and the pool has a
    name. -/
def Room (s : IpamState) (family : Option Family) (pool : String) (k : Nat) : Prop :=
  ∀ f, serves s family f = true → pool ≠ "" ∧ k < s.free f

theorem Room.le {s : IpamState} {family : Option Family} {pool : String} {k l : Nat}
    (h : Room s family pool k) (hle : l ≤ k) : Room s family pool l :=
  fun f hf => ⟨(h f hf).1, lt_of_le_of_lt hle (h f hf).2⟩

/-- What a call of `allocate` does to the families: those that serve it hand out one address, or
    all are left alone because one has none. -/
inductive Allocates (s : IpamState) (family : Option Family) (pool : String) :
    Bool → IpamState → Prop
  | took (t : IpamState) (hstable : Stable s t) (hroom : Room s family pool 0)
      (htook : ∀ f, if serves s family f then ∃ ip, Took s f ip t else Unmoved s f t) :
      Allocates s family pool true t
  | refused (t : IpamState) (hstable : Stable s t) (hroom : ¬ Room s family pool 0)
      (hsame : ∀ f, Unmoved s f t) : Allocates s family pool false t

theorem Allocates.stable {s t : IpamState} {family : Option Family} {pool : String}
    {success : Bool} (h : Allocates s family pool success t) : Stable s t := by
  cases h with
  | took _ hstable _ _ => exact hstable
  | refused _ hstable _ _ => exact hstable

theorem serves_congr {s t : IpamState} (h : Stable s t) (family : Option Family) (f : Family) :
    serves t family f = serves s family f := by
  rw [serves, serves, h.configured]

/-- After an allocation there is room for `k` more exactly when there was for one more. -/
theorem Allocates.room_iff {s t : IpamState} {family : Option Family} {pool : String}
    (h : Allocates s family pool true t) (k : Nat) :
    Room t family pool k ↔ Room s family pool (k + 1) := by
  cases h with
  | took _ hstable _ htook =>
    apply forall_congr'
    intro f
    rw [serves_congr hstable]
    refine imp_congr_right fun hf => and_congr_right fun _ => ?_
    have htook := htook f
    rw [if_pos hf] at htook
    obtain ⟨ip, htook⟩ := htook
    have hcount := htook.count
    omega

/-- A refused allocation leaves the room as it was: there is none. -/
theorem Allocates.no_room {s t : IpamState} {family : Option Family} {pool : String}
    (h : Allocates s family pool false t) (k : Nat) :
    ¬ Room s family pool k ∧ ¬ Room t family pool k := by
  cases h with
  | refused _ hstable hroom hsame =>
    refine ⟨fun h => hroom (h.le (Nat.zero_le k)), fun h => hroom fun f hf => ?_⟩
    have hlt := h f (by rwa [serves_congr hstable])
    rw [(hsame f).free] at hlt
    exact ⟨hlt.1, lt_of_le_of_lt (Nat.zero_le k) hlt.2⟩

/-- The addresses that an allocation and those after it hand out. -/
theorem Allocates.gave {s t u : IpamState} {family : Option Family} {pool : String} {k : Nat}
    (h : Allocates s family pool true t)
    (h' : ∀ f, ∃ ips, Gave t f ips u ∧ ips.length = if serves t family f then k else 0)
    (f : Family) : ∃ ips, Gave s f ips u ∧ ips.length = if serves s family f then k + 1 else 0 := by
  cases h with
  | took _ hstable _ htook =>
    obtain ⟨ips, hgave, hlength⟩ := h' f
    have htook := htook f
    rw [serves_congr hstable] at hlength
    split at htook
    next hf =>
      obtain ⟨ip, htook⟩ := htook
      rw [if_pos hf] at hlength ⊢
      exact ⟨ip :: ips, htook.gave hgave, congrArg (· + 1) hlength⟩
    next hf =>
      rw [if_neg hf] at hlength ⊢
      exact ⟨ips, htook.gave_after hgave, hlength⟩

/-- The response has an address for exactly the families that serve the request. -/
def Reports (s : IpamState) (family : Option Family) (v : IpamAllocateResponse) : Prop :=
  v.ipv4.isSome = serves s family .ipv4 ∧ v.ipv6.isSome = serves s family .ipv6

theorem reports_congr {s t : IpamState} (h : Stable s t) (family : Option Family)
    (v : IpamAllocateResponse) : Reports t family v ↔ Reports s family v := by
  rw [Reports, Reports, serves_congr h, serves_congr h]

/-- The error is answered with a server error. -/
def IpamError.Transient (e : IpamError) : Prop :=
  ∀ debug, isServerError (ApiError.ofIpam debug e).status = true

theorem isSome_of_outcome {s t : IpamState} {f : Family} {served : Bool} {pool : String}
    {result : Option AllocationResult} (h : Outcome s f served pool result t) :
    result.isSome = served := by
  cases served with
  | true =>
    obtain ⟨-, ip, rfl, -⟩ := h.took rfl
    rfl
  | false =>
    obtain ⟨rfl, -⟩ := h.left rfl
    rfl

/-- **`allocate` of the service**, undisturbed and with nothing excluded. -/
theorem allocate_allocates (text : IpText) (gatewayIp : IpAddr) {s : IpamState}
    (hexcl : s.excludedIps = .empty) (family owner pool : Option String) (expiration : Bool) :
    (DefaultIpamService.allocate text gatewayIp family owner pool expiration).run.Guards
      (IpamState.sem text) anyOp
      (Prog.orError
        (fun v t => Reports s (parseFamily family) v ∧
          Allocates s (parseFamily family) (pool.getD POOL_DEFAULT) true t)
        (fun e t => e.Transient ∧
          Allocates s (parseFamily family) (pool.getD POOL_DEFAULT) false t)) s := by
  unfold DefaultIpamService.allocate
  let done (r : Option AllocationResult × Option AllocationResult) (t : IpamState) : Prop :=
    (r.1.isSome = serves s (parseFamily family) .ipv4 ∧
      r.2.isSome = serves s (parseFamily family) .ipv6) ∧
      Allocates s (parseFamily family) (pool.getD POOL_DEFAULT) true t
  refine Prog.guards_try done ?_ fun r t h => ⟨⟨?_, ?_⟩, h.2⟩
  -- The response names an address of every family that was given one.
  rotate_left
  · exact (Option.isSome_map ..).trans h.1.1
  · exact (Option.isSome_map ..).trans h.1.2
  refine Prog.Guards.imp (fun r t h => ?_)
    (allocateNext_spec text hexcl (parseFamily family) (owner.getD "") (pool.getD POOL_DEFAULT))
  cases r with
  | ok r =>
    obtain ⟨hstable, h4, h6⟩ := h
    refine ⟨⟨isSome_of_outcome h4, isSome_of_outcome h6⟩,
      .took t hstable (fun f hf => ?_) fun f => ?_⟩
    · -- Room: the pool is named, and every served family had an address left.
      have hfamily : ∀ result, Outcome s f (serves s (parseFamily family) f)
          (pool.getD POOL_DEFAULT) result t → pool.getD POOL_DEFAULT ≠ "" ∧ 0 < s.free f := by
        intro result hout
        obtain ⟨hpool, ip, -, htook⟩ := hout.took hf
        have hcount := htook.count
        exact ⟨hpool, by omega⟩
      cases f with
      | ipv4 => exact hfamily _ h4
      | ipv6 => exact hfamily _ h6
    · have hfamily : ∀ result, Outcome s f (serves s (parseFamily family) f)
          (pool.getD POOL_DEFAULT) result t → if serves s (parseFamily family) f then
            ∃ ip, Took s f ip t else Unmoved s f t := by
        intro result hout
        cases hf : serves s (parseFamily family) f with
        | true =>
          obtain ⟨-, ip, -, htook⟩ := hout.took hf
          exact ⟨ip, htook⟩
        | false => exact (hout.left hf).2
      cases f with
      | ipv4 => exact hfamily _ h4
      | ipv6 => exact hfamily _ h6
  | error e =>
    -- It is refused for want of a pool, or because a range is full; either way there is no room.
    obtain ⟨hstable, hsame, f, hf, ⟨hpool, rfl⟩ | ⟨hpool, rfl, hfree⟩⟩ := h
    · exact ⟨fun _ => rfl, .refused t hstable (fun hroom => (hroom f hf).1 hpool) hsame⟩
    · refine ⟨fun _ => rfl, .refused t hstable (fun hroom => ?_) hsame⟩
      have hlt := (hroom f hf).2
      omega

/-- **One attempt of `allocate`**, when the server carries it out: it is answered with a value,
    or with a server error. -/
theorem allocate_serves {server : ApiServer} {family owner pool : Option String}
    {expiration : Bool} {s t : DaemonSystem}
    {answer : Option (Response (ApiRequest.allocate family owner pool expiration).Reply)}
    (hexcl : s.ipam.excludedIps = .empty)
    (h : server.Serves (.allocate family owner pool expiration) s answer t) :
    ∃ resp success, answer = some resp ∧
      Allocates s.ipam (parseFamily family) (pool.getD POOL_DEFAULT) success t.ipam ∧
      resp.isSuccess = success ∧
      if success then ∃ text v, resp.body = .json text v ∧ Reports s.ipam (parseFamily family) v
      else isServerError resp.status = true := by
  obtain ⟨tr, r, hx, rfl⟩ := h
  obtain ⟨r, rfl, h⟩ := (server.guards_ipam
    (allocate_allocates server.text server.gatewayIp hexcl family owner pool expiration)).exec hx
  cases r with
  | ok v => exact ⟨_, true, rfl, h.2, rfl, _, v, rfl, h.1⟩
  | error e =>
    obtain ⟨htransient, h⟩ := h
    have herror : isServerError (ApiError.ofIpam server.debug e).status = true := htransient _
    exact ⟨_, false, rfl, h, isSuccess_of_serverError herror, herror⟩

/-! ### One call -/

namespace ApiClient

open Network

variable {c : ApiClient} {server : ApiServer} {n : Network} {family owner pool : Option String}
  {expiration : Bool}

/-- One attempt of `allocate`, with what it does to the families. -/
inductive AllocateTried (c : ApiClient) (request : ApiRequest) (family : Option Family)
    (pool : String) (reports : IpamState → request.Reply → Prop) (n : Network) :
    Except TransportError (Response request.Reply) → Network → Prop
  | unbuilt (e : TransportError) (hbuilt : ¬ c.Built request) :
      AllocateTried c request family pool reports n (.error e) n
  | accepted (resp : Response request.Reply) (t : DaemonSystem) (hbuilt : c.Built request)
      (hdelivery : n.deliveries request 0 = .delivered)
      (hdone : Allocates n.server.ipam family pool true t.ipam)
      (hbody : ∃ text v, resp.body = .json text v ∧ reports n.server.ipam v) :
      AllocateTried c request family pool reports n (.ok resp) ⟨t, shift n.deliveries request⟩
  | refused (e : TransportError) (t : DaemonSystem)
      (hdelivery : n.deliveries request 0 = .delivered)
      (hdone : Allocates n.server.ipam family pool false t.ipam) (hretry : e.isRetryable = true) :
      AllocateTried c request family pool reports n (.error e) ⟨t, shift n.deliveries request⟩
  | executed (failure : Failure) (e : TransportError) (t : DaemonSystem) (success : Bool)
      (hdelivery : n.deliveries request 0 = .lost true failure)
      (hdone : Allocates n.server.ipam family pool success t.ipam) (hretry : e.isRetryable = true) :
      AllocateTried c request family pool reports n (.error e) ⟨t, shift n.deliveries request⟩
  | unexecuted (failure : Failure) (e : TransportError)
      (hdelivery : n.deliveries request 0 = .lost false failure) (hretry : e.isRetryable = true) :
      AllocateTried c request family pool reports n (.error e)
        ⟨n.server, shift n.deliveries request⟩

theorem allocate_tried {t : Network}
    {r : Except TransportError (Response (ApiRequest.allocate family owner pool expiration).Reply)}
    (hexcl : n.server.ipam.excludedIps = .empty)
    (h : Tried c server (.allocate family owner pool expiration) n r t) :
    AllocateTried c (.allocate family owner pool expiration) (parseFamily family)
      (pool.getD POOL_DEFAULT) (Reports · (parseFamily family)) n r t := by
  obtain ⟨hbuilt, ⟨e, rfl⟩, rfl⟩ | ⟨hbuilt, hshift, hattempt⟩ := h
  · exact .unbuilt e hbuilt
  obtain ⟨t, deliveries⟩ := t
  obtain rfl : deliveries = _ := hshift
  cases hattempt with
  | accepted resp _ hdelivery hserves hsuccess =>
    obtain ⟨resp', success, hresp, hdone, hok, hbody⟩ := allocate_serves hexcl hserves
    obtain rfl := Option.some.inj hresp
    obtain rfl : true = success := hsuccess.symm.trans hok
    exact .accepted resp t hbuilt hdelivery hdone hbody
  | rejected resp _ hdelivery hserves hfails =>
    obtain ⟨resp', success, hresp, hdone, hok, hstatus⟩ := allocate_serves hexcl hserves
    obtain rfl := Option.some.inj hresp
    obtain rfl : false = success := hfails.symm.trans hok
    exact .refused _ t hdelivery hdone (isRetryable_statusError _ hstatus)
  | closed message _ hdelivery hserves =>
    -- The handler does not panic, so there is an answer.
    obtain ⟨resp', success, hresp, -⟩ := allocate_serves hexcl hserves
    cases hresp
  | executed failure answer _ e hdelivery hserves hretry =>
    obtain ⟨resp', success, -, hdone, -⟩ := allocate_serves hexcl hserves
    exact .executed failure e t success hdelivery hdone hretry
  | unexecuted failure e hdelivery hretry => exact .unexecuted failure e hdelivery hretry

/-- A call of `allocate` can succeed: its request can be built, some attempt is answered, and
    there is room for this attempt and all that were carried out before it. -/
def CanSucceed (c : ApiClient) (request : ApiRequest) (family : Option Family) (pool : String)
    (p : List Delivery) (s : IpamState) : Prop :=
  c.Built request ∧ answered p = true ∧ Room s family pool (wasted p)

/-- What a call of `allocate` returns and does, when its attempts follow the pattern `p`. -/
def AllocateSpec {α : Type} (c : ApiClient) (request : ApiRequest) (family : Option Family)
    (pool : String) (p : List Delivery) (s t : IpamState) : Except TransportError α → Prop
  | .ok _ => CanSucceed c request family pool p s ∧
      ∀ f, ∃ ips, Gave s f ips t ∧ ips.length = if serves s family f then wasted p + 1 else 0
  | .error _ => ¬ CanSucceed c request family pool p s

/-- The body of a response to the client's call is the JSON of a value of this kind. -/
def HasJson {α : Type} (Q : α → Prop) (r : Except TransportError (Response α)) : Prop :=
  ∀ resp, r = .ok resp → ∃ text v, resp.body = .json text v ∧ Q v

/-- The last attempt of a call. -/
theorem allocate_last {retries : Nat} {t : Network}
    {request : ApiRequest} {family : Option Family} {pool : String}
    {reports : IpamState → request.Reply → Prop}
    {r : Except TransportError (Response request.Reply)}
    (h : AllocateTried c request family pool reports n r t)
    (hlast : ∀ e, r = .error e → retries = 0 ∨ e.isRetryable = false) :
    AllocateSpec c request family pool (pattern n.deliveries request (retries + 1))
      n.server.ipam t.server.ipam r ∧ HasJson (reports n.server.ipam) r := by
  rw [pattern_succ]
  -- Before the last attempt, an error that may pass is no end.
  have hzero : ∀ e, r = .error e → e.isRetryable = true → retries = 0 := by
    intro e he hretry
    refine (hlast e he).resolve_right ?_
    rw [hretry]
    exact nofun
  cases h with
  | unbuilt e hbuilt => exact ⟨fun hcan => hbuilt hcan.1, nofun⟩
  | accepted resp t hbuilt hdelivery hdone hbody =>
    rw [hdelivery]
    refine ⟨?_, fun resp' hresp => Except.ok.inj hresp ▸ hbody⟩
    have hnone : ∀ f, ∃ ips, Gave t.ipam f ips t.ipam ∧
        ips.length = if serves t.ipam family f then 0 else 0 :=
      fun f => ⟨[], (Unmoved.rfl' t.ipam f).gave, by rw [ite_self]; rfl⟩
    refine ⟨⟨hbuilt, rfl, ?_⟩, hdone.gave hnone⟩
    cases hdone with
    | took _ _ hroom _ => exact hroom
  | refused e t hdelivery hdone hretry =>
    rw [hdelivery]
    exact ⟨fun hcan => (hdone.no_room _).1 hcan.2.2, nofun⟩
  | executed failure e t success hdelivery hdone hretry =>
    rw [hzero e rfl hretry, hdelivery]
    exact ⟨fun hcan => Bool.false_ne_true hcan.2.1, nofun⟩
  | unexecuted failure e hdelivery hretry =>
    rw [hzero e rfl hretry, hdelivery]
    exact ⟨fun hcan => Bool.false_ne_true hcan.2.1, nofun⟩

/-- **Step.** An attempt that fails, before those that follow it. -/
theorem allocate_again {retries : Nat} {t u : Network} {e : TransportError}
    {request : ApiRequest} {family : Option Family} {pool : String}
    {reports : IpamState → request.Reply → Prop}
    {r : Except TransportError (Response request.Reply)}
    (h : AllocateTried c request family pool reports n (.error e) t)
    (ih : AllocateSpec c request family pool (pattern t.deliveries request (retries + 1))
      t.server.ipam u.server.ipam r) :
    AllocateSpec c request family pool (pattern n.deliveries request (retries + 2))
      n.server.ipam u.server.ipam r := by
  rw [pattern_succ]
  cases h with
  | unbuilt e hbuilt =>
    cases r with
    | ok resp => exact absurd ih.1.1 hbuilt
    | error e => exact fun hcan => hbuilt hcan.1
  | refused e t hdelivery hdone hretry =>
    rw [hdelivery]
    -- A refusal stays one: the following attempts find the same full ranges.
    cases r with
    | ok resp => exact absurd ih.1.2.2 (hdone.no_room _).2
    | error e => exact fun hcan => (hdone.no_room _).1 hcan.2.2
  | executed failure e t success hdelivery hdone hretry =>
    rw [hdelivery]
    cases success with
    | true =>
      -- The lost attempt handed out one address more.
      cases r with
      | ok resp =>
        obtain ⟨⟨hbuilt, hanswered, hroom⟩, hgave⟩ := ih
        rw [AllocateSpec, CanSucceed, wasted_executed]
        exact ⟨⟨hbuilt, hanswered, (hdone.room_iff _).mp hroom⟩, hdone.gave hgave⟩
      | error e =>
        rintro ⟨hbuilt, hanswered, hroom⟩
        rw [wasted_executed] at hroom
        exact ih ⟨hbuilt, hanswered, (hdone.room_iff _).mpr hroom⟩
    | false =>
      cases r with
      | ok resp => exact absurd ih.1.2.2 (hdone.no_room _).2
      | error e => exact fun hcan => (hdone.no_room _).1 hcan.2.2
  | unexecuted failure e hdelivery hretry =>
    rw [hdelivery]
    cases r with
    | ok resp =>
      rw [AllocateSpec, CanSucceed, wasted_unexecuted]
      exact ih
    | error e =>
      rw [AllocateSpec, CanSucceed, wasted_unexecuted]
      exact ih

theorem AllocateTried.stable {t : Network} {request : ApiRequest} {family : Option Family}
    {pool : String} {reports : IpamState → request.Reply → Prop}
    {r : Except TransportError (Response request.Reply)}
    (h : AllocateTried c request family pool reports n r t) :
    Stable n.server.ipam t.server.ipam := by
  cases h with
  | accepted resp t hbuilt hdelivery hdone hbody => exact hdone.stable
  | refused e t hdelivery hdone hretry => exact hdone.stable
  | executed failure e t success hdelivery hdone hretry => exact hdone.stable
  | _ => exact ⟨fun _ => rfl, rfl⟩

/-- What the loop of a call of `allocate` returns and does, on a server that excludes nothing. -/
def AllocateRounds (c : ApiClient) (family owner pool : Option String) (expiration : Bool)
    (retries : Nat) (n : Network)
    (r : Except TransportError (Response (ApiRequest.allocate family owner pool expiration).Reply))
    (t : Network) : Prop :=
  n.server.ipam.excludedIps = .empty →
    AllocateSpec c (.allocate family owner pool expiration) (parseFamily family)
      (pool.getD POOL_DEFAULT)
      (pattern n.deliveries (.allocate family owner pool expiration) (retries + 1))
      n.server.ipam t.server.ipam r ∧ HasJson (Reports n.server.ipam (parseFamily family)) r

/-- **The attempts of one call.** By the loop rule, from the last attempt back. -/
theorem allocate_loop (retries : Nat) (n : Network) :
    (c.sendLoop (.allocate family owner pool expiration) retries).run.Guards (Network.sem server)
      Network.anyOp (AllocateRounds c family owner pool expiration retries n) n := by
  refine sendLoop_rule (P := AllocateRounds c family owner pool expiration) ?_ ?_ retries n
  · intro retries n r t htried hlast hexcl
    exact allocate_last (allocate_tried hexcl htried) hlast
  · intro retries n e t r u htried hretry ih hexcl
    have htried := allocate_tried hexcl htried
    obtain ⟨hspec, hjson⟩ := ih (htried.stable.excludedIps.trans hexcl)
    refine ⟨allocate_again htried hspec, fun resp hresp => ?_⟩
    obtain ⟨text, v, hbody, hreports⟩ := hjson resp hresp
    exact ⟨text, v, hbody, (reports_congr htried.stable _ v).mp hreports⟩

/-- **One call of `allocate`.** It succeeds exactly when it can, and then every family that
    serves it has handed out one address for every attempt that was carried out. -/
theorem allocate_spec (server : ApiServer) (hexcl : n.server.ipam.excludedIps = .empty) :
    (c.allocate family owner pool expiration).run.Guards (Network.sem server) Network.anyOp
      (fun r t => AllocateSpec c (.allocate family owner pool expiration) (parseFamily family)
        (pool.getD POOL_DEFAULT)
        (pattern n.deliveries (.allocate family owner pool expiration) c.attempts)
        n.server.ipam t.server.ipam r ∧
          ∀ v, r = .ok v → Reports n.server.ipam (parseFamily family) v) n := by
  refine Prog.guards_bind (allocate_loop (c.attempts - 1) n) fun r t h => ?_
  have h := h hexcl
  rw [attempts_pos] at h
  cases r with
  | ok resp =>
    obtain ⟨hspec, hjson⟩ := h
    obtain ⟨text, v, hbody, hreports⟩ := hjson resp rfl
    show Prog.Guards _ _ _ (c.fromSlice resp).run t
    rw [fromSlice, hbody]
    refine ⟨hspec, fun v' hv => ?_⟩
    obtain rfl := Except.ok.inj hv
    exact hreports
  | error e => exact ⟨h.1, fun v hv => by cases hv⟩

/-! ### Exactly one address -/

/-- Whenever the call returns `Ok`, it leaves exactly one new address in every requested
    family. -/
def AllocatesOnce (c : ApiClient) (server : ApiServer) (family owner pool : Option String)
    (expiration : Bool) (n : Network) : Prop :=
  ∀ tr v t, Exec (Network.sem server) (c.allocate family owner pool expiration).run n tr
    (.pure (.ok v)) t → ∀ f, requested n.server.ipam (parseFamily family) f →
      ∃! ip, t.server.ipam.held f ip = true ∧ n.server.ipam.held f ip = false

/-- **Allocations that are tried again.** A call takes exactly one address in every requested
    family exactly when, if it can succeed, the family that it names is configured and no attempt
    is carried out and lost before the first answer, or no family serves it. -/
theorem allocatesOnce_iff (hexcl : n.server.ipam.excludedIps = .empty) :
    AllocatesOnce c server family owner pool expiration n ↔
      (CanSucceed c (.allocate family owner pool expiration) (parseFamily family)
          (pool.getD POOL_DEFAULT)
          (pattern n.deliveries (.allocate family owner pool expiration) c.attempts)
          n.server.ipam →
        (∀ f, parseFamily family = some f → n.server.ipam.configured f = true) ∧
          (wasted (pattern n.deliveries (.allocate family owner pool expiration) c.attempts) = 0 ∨
            ∀ f, serves n.server.ipam (parseFamily family) f = false)) := by
  constructor
  · intro honce hcan
    -- The call that can succeed does return, and then it has given what the specification says.
    obtain ⟨tr, r, t, hx⟩ := call_total server (c.allocate family owner pool expiration) n
    obtain ⟨hspec, -⟩ := (allocate_spec server hexcl).exec hx
    cases r with
    | error e => exact absurd hcan hspec
    | ok v =>
      obtain ⟨-, hgave⟩ := hspec
      have hlength : ∀ f, requested n.server.ipam (parseFamily family) f →
          serves n.server.ipam (parseFamily family) f = true ∧
            wasted (pattern n.deliveries (.allocate family owner pool expiration) c.attempts)
              = 0 := by
        intro f hf
        obtain ⟨ips, hgave, hlength⟩ := hgave f
        rw [hgave.existsUnique_iff.mp (honce tr v t hx f hf)] at hlength
        split at hlength
        next hserves => exact ⟨hserves, by omega⟩
        next => omega
      refine ⟨fun f hf => (Bool.and_eq_true_iff.mp (hlength f (.inl hf)).1).2, ?_⟩
      -- Where some family is served, an address more or less would show in it.
      by_cases hserved : ∃ f, serves n.server.ipam (parseFamily family) f = true
      · obtain ⟨f, hf⟩ := hserved
        exact .inl (hlength f (requested_of_serves hf)).2
      · refine .inr fun f => ?_
        rw [← Bool.not_eq_true]
        exact fun hf => hserved ⟨f, hf⟩
  · intro hcond tr v t hx f hf
    obtain ⟨⟨hcan, hgave⟩, -⟩ := (allocate_spec server hexcl).exec hx
    obtain ⟨hnamed, hwasted⟩ := hcond hcan
    have hconf : n.server.ipam.configured f = true := by
      obtain hsome | ⟨-, hconf⟩ := hf
      · exact hnamed f hsome
      · exact hconf
    have hserves := serves_of_requested hf hconf
    obtain ⟨ips, hgave, hlength⟩ := hgave f
    rw [if_pos hserves] at hlength
    refine hgave.existsUnique_iff.mpr ?_
    obtain hzero | hnone := hwasted
    · rw [hlength, hzero]
    · rw [hnone f] at hserves
      cases hserves

end ApiClient

end Sarena
