import Sarena.Ebpf.EndpointKey
import Sarena.Infra.MacAddress
import Sarena.Lib.KernelMap
import Sarena.Lib.Run
import Sarena.Loader.Reconcile

namespace Sarena.Loader

open Lib

/-!
# Loader — the `lxc_map` behind its keys

`LxcMap` keeps the entry of an address under the bytes of its key.  Any of its calls may fail,
also halfway through the addresses of an endpoint.

* `upsertEndpoint`, `removeEndpoint`, `getEndpoint`, `endpoints` — the methods;
* `LxcSpec` — what they do to the entries by address;
* `lxcMap_refines` — in every run the methods do that, and every key is that of an address.
-/

def LXC_MAP_NAME : String := "lxc_map"

/-- `DataPlaneError::MapAccess`. -/
structure MapAccess where
  map : String
  src : String
  deriving DecidableEq, Repr

/-- `access`. -/
def access (e : MapError) : MapAccess := ⟨LXC_MAP_NAME, e.message⟩

/-- A method of `LxcMap`. -/
abbrev LxcM (α : Type) := ExceptT MapAccess (Prog (MapOp EndpointKey EndpointInfo)) α

/-- A call whose error is `access`. -/
def lxcCall {α : Type} (op : MapOp EndpointKey EndpointInfo (Except MapError α)) : LxcM α :=
  ExceptT.mk (Except.mapError access <$> perform op)

namespace LxcMap

/-- `upsert_endpoint`. -/
def upsertEndpoint (ep : EndpointPersist) (info : EndpointInfo) : LxcM Unit :=
  ep.ips.forM fun ip => lxcCall (.insert (.ofIpAddr ip) info)

/-- `remove_key`. -/
def removeKey (key : EndpointKey) : LxcM Unit := ExceptT.mk do
  match ← perform (.remove key) with
  | .ok () => return .ok ()
  | .error e => return if e.keyNotFound then .ok () else .error (access e)

/-- `remove_endpoint`. -/
def removeEndpoint (ep : EndpointPersist) : LxcM Unit :=
  ep.ips.forM fun ip => removeKey (.ofIpAddr ip)

/-- `remove_endpoint_by_ip`. -/
def removeEndpointByIp (ip : IpAddr) : LxcM Unit := removeKey (.ofIpAddr ip)

/-- `get_endpoint`. -/
def getEndpoint (ip : IpAddr) : LxcM (Option EndpointInfo) := ExceptT.mk do
  match ← perform (.get (.ofIpAddr ip)) with
  | .ok info => return .ok (some info)
  | .error e => return if e.keyNotFound then .ok none else .error (access e)

/-- What `endpoints` makes of an item of the listing. -/
def entry (item : Except MapError (EndpointKey × EndpointInfo)) :
    Except MapAccess (IpAddr × EndpointInfo) := do
  let (key, info) ← item.mapError access
  let ip ← key.toIpAddr.mapError fun src => ⟨LXC_MAP_NAME, src⟩
  return (ip, info)

/-- `endpoints`: the first error, or the entries as a hash map. -/
def endpoints : LxcM (KeyMap IpAddr EndpointInfo) := ExceptT.mk do
  let items ← perform .iter
  return (items.mapM entry).map fun entries =>
    entries.foldl (fun m e => m.insert e.1 e.2) .empty

end LxcMap

/-! ### Runs -/

/-- A method with its result. -/
inductive LxcEvent
  | upsertEndpoint (ep : EndpointPersist) (info : EndpointInfo) (result : Except MapAccess Unit)
  | removeEndpoint (ep : EndpointPersist) (result : Except MapAccess Unit)
  | removeEndpointByIp (ip : IpAddr) (result : Except MapAccess Unit)
  | getEndpoint (ip : IpAddr) (result : Except MapAccess (Option EndpointInfo))
  | endpoints (result : Except MapAccess (KeyMap IpAddr EndpointInfo))

/-- The method, run to its end. -/
def Performs {α : Type} (p : LxcM α) (s : KeyMap EndpointKey EndpointInfo)
    (result : Except MapAccess α) (t : KeyMap EndpointKey EndpointInfo) : Prop :=
  ∃ tr, Exec MapOp.sem p.run s tr (.pure result) t

/-- The methods, one after the other. -/
def LxcStep (s : KeyMap EndpointKey EndpointInfo) :
    LxcEvent → KeyMap EndpointKey EndpointInfo → Prop
  | .upsertEndpoint ep info result, t => Performs (LxcMap.upsertEndpoint ep info) s result t
  | .removeEndpoint ep result, t => Performs (LxcMap.removeEndpoint ep) s result t
  | .removeEndpointByIp ip result, t => Performs (LxcMap.removeEndpointByIp ip) s result t
  | .getEndpoint ip result, t => Performs (LxcMap.getEndpoint ip) s result t
  | .endpoints result, t => Performs LxcMap.endpoints s result t

/-- **What the methods are for**, by address: an update that fails has dealt with the first
    addresses only, and what is looked up and listed is what is there. -/
def LxcSpec (s : KeyMap IpAddr EndpointInfo) : LxcEvent → KeyMap IpAddr EndpointInfo → Prop
  | .upsertEndpoint ep info result, t => ∃ done, done <+: ep.ips ∧
      (result = .ok () → done = ep.ips) ∧ t = done.foldl (fun m ip => m.insert ip info) s
  | .removeEndpoint ep result, t => ∃ done, done <+: ep.ips ∧
      (result = .ok () → done = ep.ips) ∧ t = done.foldl (fun m ip => m.remove ip) s
  | .removeEndpointByIp ip result, t => t = if result = .ok () then s.remove ip else s
  | .getEndpoint ip result, t => t = s ∧ ∀ info, result = .ok info → info = s ip
  | .endpoints result, t => t = s ∧ ∀ infos, result = .ok infos → infos = s

/-- The entries by address. -/
abbrev byAddress (m : KeyMap EndpointKey EndpointInfo) : KeyMap IpAddr EndpointInfo :=
  view EndpointKey.ofIpAddr m

/-! ### What each method does -/

section

variable {s t : KeyMap EndpointKey EndpointInfo} {ep : EndpointPersist} {info : EndpointInfo}

/-- The loop of `upsert_endpoint`. -/
theorem upsertEndpoint_ends (ep : EndpointPersist) (info : EndpointInfo)
    (s : KeyMap EndpointKey EndpointInfo) :
    (LxcMap.upsertEndpoint ep info).run.Guards MapOp.sem (fun _ _ _ => True)
      (fun r t => ∃ done, done <+: ep.ips ∧ (r = .ok ⟨⟩ → done = ep.ips) ∧
        t = done.foldl (fun m ip => m.insert (.ofIpAddr ip) info) s) s := by
  have hround : ∀ (ip : IpAddr) (s : KeyMap EndpointKey EndpointInfo),
      (lxcCall (.insert (.ofIpAddr ip) info)).run.Guards MapOp.sem (fun _ _ _ => True)
        (Prog.orError (fun _ t => t = s.insert (.ofIpAddr ip) info) fun _ t => t = s) s := by
    refine fun ip s => ⟨trivial, fun r t ht => ?_⟩
    cases r with
    | ok _ => exact ht
    | error e => exact ht
  exact Prog.guards_forM_prefix hround ep.ips s

/-- A key that is not found is as good as removed. -/
theorem removeKey_ends (key : EndpointKey) (s : KeyMap EndpointKey EndpointInfo) :
    (LxcMap.removeKey key).run.Guards MapOp.sem (fun _ _ _ => True)
      (Prog.orError (fun _ t => t = s.remove key) fun _ t => t = s) s := by
  refine ⟨trivial, fun r t ht => ?_⟩
  cases r with
  | ok _ => exact ht
  | error e =>
    obtain ⟨rfl, hfound⟩ := ht
    show Prog.orError _ _ (if e.keyNotFound then .ok () else .error (access e)) _
    by_cases hmissing : e.keyNotFound = true
    · rw [if_pos hmissing]
      exact (KeyMap.remove_eq_self (hfound hmissing)).symm
    · rw [if_neg hmissing]
      exact rfl

/-- The loop of `remove_endpoint`. -/
theorem removeEndpoint_ends (ep : EndpointPersist) (s : KeyMap EndpointKey EndpointInfo) :
    (LxcMap.removeEndpoint ep).run.Guards MapOp.sem (fun _ _ _ => True)
      (fun r t => ∃ done, done <+: ep.ips ∧ (r = .ok ⟨⟩ → done = ep.ips) ∧
        t = done.foldl (fun m ip => m.remove (.ofIpAddr ip)) s) s :=
  Prog.guards_forM_prefix (fun ip s => removeKey_ends (.ofIpAddr ip) s) ep.ips s

theorem getEndpoint_ends (ip : IpAddr) (s : KeyMap EndpointKey EndpointInfo) :
    (LxcMap.getEndpoint ip).run.Guards MapOp.sem (fun _ _ _ => True)
      (fun r t => t = s ∧ ∀ info, r = .ok info → info = byAddress s ip) s := by
  refine ⟨trivial, fun r t ht => ?_⟩
  cases r with
  | ok info =>
    obtain ⟨rfl, hget⟩ := ht
    exact ⟨rfl, fun _ h => (Except.ok.inj h).symm.trans hget.symm⟩
  | error e =>
    obtain ⟨rfl, hfound⟩ := ht
    refine ⟨rfl, fun info h => ?_⟩
    have hresult : (if e.keyNotFound then Except.ok none else .error (access e)) = .ok info := h
    by_cases hmissing : e.keyNotFound = true
    · rw [if_pos hmissing] at hresult
      exact (Except.ok.inj hresult).symm.trans (hfound hmissing).symm
    · rw [if_neg hmissing] at hresult
      cases hresult

theorem entry_eq_ok {item : Except MapError (EndpointKey × EndpointInfo)} {ip : IpAddr}
    {info : EndpointInfo} : LxcMap.entry item = .ok (ip, info) ↔
      ∃ key, item = .ok (key, info) ∧ key.toIpAddr = .ok ip := by
  cases item with
  | error e => simp [LxcMap.entry, Except.mapError, bind, Except.bind]
  | ok pair =>
    obtain ⟨key, info'⟩ := pair
    cases hip : key.toIpAddr <;>
      simp [LxcMap.entry, Except.mapError, bind, Except.bind, pure, Except.pure, hip, and_comm]

/-- Every item of a listing without an error is the entry of an address. -/
theorem mem_entries {items : List (Except MapError (EndpointKey × EndpointInfo))}
    {entries : List (IpAddr × EndpointInfo)} (hmap : items.mapM LxcMap.entry = .ok entries) :
    (∀ e, .error e ∉ items) ∧ ∀ ip info, (ip, info) ∈ entries ↔
      ∃ key, .ok (key, info) ∈ items ∧ key.toIpAddr = .ok ip := by
  have hall := mapM_eq_ok_iff.mp hmap
  clear hmap
  induction hall with
  | nil => simp
  | cons hitem _ ih =>
    obtain ⟨key, rfl, hkey⟩ := entry_eq_ok.mp hitem
    refine ⟨?_, fun ip info => ?_⟩
    · simpa using ih.1
    rw [List.mem_cons, ih.2]
    constructor
    · rintro (heq | ⟨key', hin, hkey'⟩)
      · obtain ⟨rfl, rfl⟩ := Prod.mk.inj heq
        exact ⟨key, List.mem_cons_self, hkey⟩
      · exact ⟨key', List.mem_cons_of_mem _ hin, hkey'⟩
    · rintro ⟨key', hin, hkey'⟩
      rcases List.mem_cons.mp hin with heq | hin
      · obtain ⟨rfl, rfl⟩ := Prod.mk.inj (Except.ok.inj heq)
        rw [hkey] at hkey'
        exact .inl (Prod.ext (Except.ok.inj hkey').symm rfl)
      · exact .inr ⟨key', hin, hkey'⟩

/-- What is listed is what is there. -/
theorem endpoints_ends (s : KeyMap EndpointKey EndpointInfo)
    (henc : Encoded EndpointKey.ofIpAddr s) :
    LxcMap.endpoints.run.Guards MapOp.sem (fun _ _ _ => True)
      (fun r t => t = s ∧ ∀ infos, r = .ok infos → infos = byAddress s) s := by
  refine ⟨trivial, fun items t ht => ?_⟩
  obtain ⟨rfl, hsound, hcomplete⟩ := ht
  refine ⟨rfl, fun infos h => ?_⟩
  have hresult : (items.mapM LxcMap.entry).map (fun entries =>
      entries.foldl (fun m e => m.insert e.1 e.2) KeyMap.empty) = .ok infos := h
  cases hentries : items.mapM LxcMap.entry with
  | error e =>
    rw [hentries] at hresult
    cases hresult
  | ok entries =>
    rw [hentries] at hresult
    obtain rfl := Except.ok.inj hresult
    obtain ⟨hnone, hmem⟩ := mem_entries hentries
    refine KeyMap.foldl_insert_eq fun ip info => ?_
    rw [hmem]
    constructor
    · rintro ⟨key, hitem, hkey⟩
      have hthere := hsound key info hitem
      obtain ⟨ip', rfl⟩ := henc key (by rw [hthere]; exact Option.some_ne_none info)
      rw [EndpointKey.toIpAddr_ofIpAddr] at hkey
      obtain rfl := Except.ok.inj hkey
      exact hthere
    · intro hthere
      exact ⟨.ofIpAddr ip, hcomplete hnone _ _ hthere, EndpointKey.toIpAddr_ofIpAddr ip⟩

/-- A prefix of insertions keeps the keys encoded. -/
theorem encoded_foldl_insert (hs : Encoded EndpointKey.ofIpAddr s) (done : List IpAddr) :
    Encoded EndpointKey.ofIpAddr (done.foldl (fun m ip => m.insert (.ofIpAddr ip) info) s) := by
  induction done generalizing s with
  | nil => exact hs
  | cons ip rest ih => exact ih (hs.insert ip info)

theorem encoded_foldl_remove (hs : Encoded EndpointKey.ofIpAddr s) (done : List IpAddr) :
    Encoded EndpointKey.ofIpAddr (done.foldl (fun m ip => m.remove (.ofIpAddr ip)) s) := by
  induction done generalizing s with
  | nil => exact hs
  | cons ip rest ih => exact ih (hs.remove _)

/-- **Step.** A method does to the entries by address what it is for, and keeps every key the
    key of an address. -/
theorem LxcStep.spec {e : LxcEvent} (h : LxcStep s e t) (hs : Encoded EndpointKey.ofIpAddr s) :
    LxcSpec (byAddress s) e (byAddress t) ∧ Encoded EndpointKey.ofIpAddr t := by
  have hinj := EndpointKey.ofIpAddr_injective
  cases e with
  | upsertEndpoint ep info result =>
    obtain ⟨tr, hexec⟩ := h
    obtain ⟨done, hprefix, hok, rfl⟩ := (upsertEndpoint_ends ep info s).exec hexec
    exact ⟨⟨done, hprefix, hok, view_foldl_insert hinj done info⟩, encoded_foldl_insert hs done⟩
  | removeEndpoint ep result =>
    obtain ⟨tr, hexec⟩ := h
    obtain ⟨done, hprefix, hok, rfl⟩ := (removeEndpoint_ends ep s).exec hexec
    exact ⟨⟨done, hprefix, hok, view_foldl_remove hinj done⟩, encoded_foldl_remove hs done⟩
  | removeEndpointByIp ip result =>
    obtain ⟨tr, hexec⟩ := h
    have hend := (removeKey_ends (.ofIpAddr ip) s).exec hexec
    cases result with
    | ok _ =>
      obtain rfl : t = s.remove (.ofIpAddr ip) := hend
      exact ⟨(view_remove hinj ip).trans (if_pos rfl).symm, hs.remove _⟩
    | error e =>
      obtain rfl : t = s := hend
      refine ⟨(if_neg ?_).symm, hs⟩
      intro hok
      cases hok
  | getEndpoint ip result =>
    obtain ⟨tr, hexec⟩ := h
    obtain ⟨rfl, hget⟩ := (getEndpoint_ends ip s).exec hexec
    exact ⟨⟨rfl, hget⟩, hs⟩
  | endpoints result =>
    obtain ⟨tr, hexec⟩ := h
    obtain ⟨rfl, hlist⟩ := (endpoints_ends s hs).exec hexec
    exact ⟨⟨rfl, hlist⟩, hs⟩

/-- **The `lxc_map` by address.**  In every run of the methods on an empty map, whatever calls
    fail, each method does what it is for to the entries by address; and every key there is ever
    in the map is the key of the one address it is read back as. -/
theorem lxcMap_refines {s : KeyMap EndpointKey EndpointInfo} (run : Run LxcStep KeyMap.empty s) :
    run.EachStep (fun s e t => LxcSpec (byAddress s) e (byAddress t)) ∧
      run.Always fun s => ∀ key, s key ≠ none →
        ∃ ip, key.toIpAddr = .ok ip ∧ key = .ofIpAddr ip := by
  have hkeep : ∀ s e t, LxcStep s e t → Encoded EndpointKey.ofIpAddr s →
      Encoded EndpointKey.ofIpAddr t := fun _ _ _ h hs => (h.spec hs).2
  refine ⟨run.eachStep_of_invariant encoded_empty hkeep fun _ _ _ h hs => (h.spec hs).1, ?_⟩
  refine (run.always_of_invariant encoded_empty hkeep).mono fun s hs key hkey => ?_
  obtain ⟨ip, rfl⟩ := hs key hkey
  exact ⟨ip, EndpointKey.toIpAddr_ofIpAddr ip, rfl⟩

end

end Sarena.Loader
