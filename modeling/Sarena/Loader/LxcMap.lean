import Sarena.Loader.Exactness

namespace Sarena.Loader

open Lib

/-!
# Loader — what reconcile leaves in the `lxc_map`

A reconcile adds the desired endpoints in order, so an address that several of them own
gets the entry of the last one; detaching stale endpoints leaves the `lxc_map` alone; and
the last loop takes out the addresses that nobody owns any more.

* `lastInfo` — the entry of the last endpoint that owns an address;
* `addedAll`, `mem_addedAll` — the `lxc_map` after the desired endpoints have been added;
* `LeavesInfos` — calls that are not about the `lxc_map`;
* `reconcile_lxcMap` — only owned addresses are left, and without an error all of them
  with the entries they should have.
-/

/-! ### Owners -/

/-- The `lxc_map` entry of an address for an endpoint on its resolved link, if it owns it. -/
def ownedInfo (ip : IpAddr) : LoaderEndpoint × Link → Option EndpointInfo
  | (.container persist, link) =>
    if ip ∈ persist.ips then some (LoaderEndpoint.info persist link) else none
  | _ => none

/-- The entry of the last endpoint that owns the address. -/
def lastInfo (resolved : List (LoaderEndpoint × Link)) (ip : IpAddr) : Option EndpointInfo :=
  (resolved.filterMap (ownedInfo ip)).getLast?

/-- The desired endpoints, added one after the other on the links they resolved to. -/
def addedAll (root : PinRoot) (resolved : List (LoaderEndpoint × Link)) (s : ConfiguredBackend) :
    ConfiguredBackend :=
  resolved.foldl (fun s pair => added root pair.1 pair.2 s) s

/-- The `lxc_map` of the desired endpoints on the links they resolved to. -/
structure LxcExact (desired : List LoaderEndpoint) (links : List Link)
    (infos : List (IpAddr × EndpointInfo)) : Prop where
  names : links.map Link.ifname = desired.map LoaderEndpoint.link
  /-- Its keys are the addresses of the desired endpoints. -/
  keys : ∀ ip, ip ∈ infos.map Prod.fst ↔ ∃ endpoint ∈ desired, ip ∈ endpoint.ips
  /-- Each has the entry of the last endpoint that owns it. -/
  entries : ∀ ip info, (ip, info) ∈ infos ↔ lastInfo (desired.zip links) ip = some info

section

variable {root : PinRoot} {endpoint : LoaderEndpoint} {link : Link}
  {resolved : List (LoaderEndpoint × Link)} {desired : List LoaderEndpoint} {links : List Link}
  {s : ConfiguredBackend} {ip : IpAddr} {info : EndpointInfo}

theorem ownedInfo_eq_none : ownedInfo ip (endpoint, link) = none ↔ ip ∉ endpoint.ips := by
  cases endpoint with
  | container persist => simp [ownedInfo, LoaderEndpoint.ips]
  | host _ => simp [ownedInfo, LoaderEndpoint.ips]
  | netDev _ => simp [ownedInfo, LoaderEndpoint.ips]
  | overlay _ => simp [ownedInfo, LoaderEndpoint.ips]
  | wireguard _ => simp [ownedInfo, LoaderEndpoint.ips]

theorem lastInfo_cons (pair : LoaderEndpoint × Link) :
    lastInfo (pair :: resolved) ip = (lastInfo resolved ip).or (ownedInfo ip pair) := by
  rw [lastInfo, lastInfo, List.filterMap_cons]
  cases ownedInfo ip pair with
  | none => rw [Option.or_none]
  | some info =>
    rw [List.getLast?_cons]
    cases (resolved.filterMap (ownedInfo ip)).getLast? <;> rfl

/-- An address has no last owner when nobody owns it. -/
theorem lastInfo_eq_none : lastInfo resolved ip = none ↔ ∀ pair ∈ resolved, ip ∉ pair.1.ips := by
  rw [lastInfo, List.getLast?_eq_none_iff, List.filterMap_eq_nil_iff]
  exact forall_congr' fun pair => imp_congr_right fun _ => ownedInfo_eq_none

/-- An endpoint replaces the entries of its addresses and leaves the others. -/
theorem mem_infos_added : (ip, info) ∈ (added root endpoint link s).1.endpointInfos ↔
    ownedInfo ip (endpoint, link) = some info ∨
      (ownedInfo ip (endpoint, link) = none ∧ (ip, info) ∈ s.1.endpointInfos) := by
  have hnothing : (ip, info) ∈ s.1.endpointInfos ↔
      (none : Option EndpointInfo) = some info ∨
        ((none : Option EndpointInfo) = none ∧ (ip, info) ∈ s.1.endpointInfos) := by
    simp
  cases endpoint with
  | container persist =>
    show (ip, info) ∈ _ ++ s.1.endpointInfos.filter _ ↔ _
    rw [List.mem_append, mem_insertedInfos, List.mem_filter, ownedInfo]
    by_cases hown : ip ∈ persist.ips
    · simp [hown, eq_comm]
    · simp [hown]
  | host _ => exact hnothing
  | netDev _ => exact hnothing
  | overlay _ => exact hnothing
  | wireguard _ => exact hnothing

/-- Adding one endpoint after the other leaves the last entry. -/
theorem mem_infos_addedAll : (ip, info) ∈ (addedAll root resolved s).1.endpointInfos ↔
    lastInfo resolved ip = some info ∨
      (lastInfo resolved ip = none ∧ (ip, info) ∈ s.1.endpointInfos) := by
  induction resolved generalizing s with
  | nil => simp [addedAll, lastInfo]
  | cons pair rest ih =>
    rw [addedAll, List.foldl_cons, ← addedAll, ih, lastInfo_cons]
    cases lastInfo rest ip with
    | none =>
      rw [mem_infos_added, Option.none_or]
      simp
    | some last => simp

/-! ### Calls that leave the `lxc_map` alone -/

/-- The `lxc_map` is the same, and no link has been resolved. -/
def SameInfos (s t : ConfiguredBackend × List Link) : Prop :=
  t.1.1.endpointInfos = s.1.1.endpointInfos ∧ t.2 = s.2

/-- The call lists or removes pins. -/
def LeavesInfos : ∀ β : Type, BackendOp β → Prop
  | _, .listPins _ => True
  | _, .iterate _ => True
  | _, .stopLogging _ => True
  | _, .removePinDir _ => True
  | _, .unpinMap _ => True
  | _, _ => False

/-- **Step.** Such a call leaves the `lxc_map` alone. -/
theorem LeavesInfos.same {β : Type} {op : BackendOp β} {b : β}
    {s t : ConfiguredBackend × List Link} (hop : LeavesInfos β op)
    (h : noted root β op s b t) : SameInfos s t := by
  obtain ⟨⟨hsem, -⟩, hlinks⟩ := h
  have hsame : t.1.1 = s.1.1 → t.2 = s.2 → SameInfos s t :=
    fun hback hlinks => ⟨congrArg Backend.endpointInfos hback, hlinks⟩
  cases op with
  | listPins dir => cases b with
    | ok rels => exact hsame hsem.2 hlinks
    | error e => exact hsame hsem hlinks
  | iterate items => exact hsame hsem.2 hlinks
  | stopLogging link => exact hsame hsem hlinks
  | removePinDir dir => cases b with
    | ok _ =>
      have hremoved : t.1.1 = s.1.1.removeDir dir := hsem
      refine ⟨?_, hlinks⟩
      rw [hremoved]
      rfl
    | error e => exact hsame hsem hlinks
  | unpinMap path => cases b with
    | ok _ =>
      have hunpinned : t.1.1 = s.1.1.unpin path := hsem
      refine ⟨?_, hlinks⟩
      rw [hunpinned]
      rfl
    | error e => exact hsame hsem hlinks
  | _ => exact hop.elim

/-- **Run.** A program of such calls leaves the `lxc_map` alone. -/
theorem same_of_leavesInfos {α : Type} {p : Prog BackendOp α} (hp : p.Uses LeavesInfos)
    (s : ConfiguredBackend × List Link) :
    p.Guards (noted root) (fun _ _ _ => True) (fun _ t => SameInfos s t) s := by
  refine hp.guards (SameInfos s) (fun _ _ t _ u hop hsem ht => ?_) ⟨rfl, rfl⟩
  obtain ⟨hinfos, hlinks⟩ := hop.same hsem
  exact ⟨hinfos.trans ht.1, hlinks.trans ht.2⟩

/-! ### Reconcile -/

/-- The entries of unwanted addresses among `ips` are gone, the others are left. -/
def Dropped (wanted ips : List IpAddr) (s t : ConfiguredBackend × List Link) : Prop :=
  (∀ entry, entry ∈ t.1.1.endpointInfos ↔
    entry ∈ s.1.1.endpointInfos ∧ (entry.1 ∈ ips → entry.1 ∈ wanted)) ∧ t.2 = s.2

/-- The last loop of a reconcile. -/
theorem dropUnwanted_ends (wanted ips : List IpAddr) (s : ConfiguredBackend × List Link) :
    (ips.forM fun ip => if ip ∈ wanted then pure () else call (.removeEndpointInfo ip)).run.Guards
      (noted root) (fun _ _ _ => True)
      (Prog.orError (fun _ t => Dropped wanted ips s t) fun _ _ => True) s := by
  have hround : ∀ ip s, (if ip ∈ wanted then pure ()
      else call (.removeEndpointInfo ip) : LoaderM Unit).run.Guards (noted root)
      (fun _ _ _ => True)
      (Prog.orError (fun _ t => Dropped wanted [ip] s t) fun _ _ => True) s := by
    intro ip s
    split_ifs with hwanted
    · refine ⟨fun entry => (and_iff_left fun hmem => ?_).symm, rfl⟩
      rw [List.mem_singleton.mp hmem]
      exact hwanted
    · refine ⟨trivial, fun result t ht => ?_⟩
      cases result with
      | error e => trivial
      | ok _ =>
        obtain ⟨⟨hsem, -⟩, hlinks⟩ := ht
        have hremoved : t.1.1 = s.1.1.removeInfo ip := hsem
        refine ⟨fun entry => ?_, hlinks⟩
        rw [hremoved, Backend.removeInfo, List.mem_filter, decide_eq_true_eq, List.mem_singleton]
        refine and_congr_right fun _ => ⟨fun hne heq => absurd heq hne, fun h heq => ?_⟩
        exact hwanted (heq ▸ h heq)
  refine Prog.guards_forM (R := Dropped wanted) hround (fun s => ?_) ?_ ips s
  · exact ⟨fun entry => (and_iff_left fun hmem => absurd hmem List.not_mem_nil).symm, rfl⟩
  · rintro ip rest s t u ⟨hs, hlinks⟩ ⟨ht, hlinks'⟩
    refine ⟨fun entry => ?_, hlinks'.trans hlinks⟩
    rw [ht, hs, and_assoc, List.mem_singleton, List.mem_cons, or_imp]

/-- The addresses the last loop keeps. -/
theorem mem_wantedIps : ip ∈ wantedIps desired ↔ ∃ endpoint ∈ desired, ip ∈ endpoint.ips := by
  rw [wantedIps, List.mem_flatMap]
  refine exists_congr fun endpoint => and_congr_right fun _ => ?_
  cases endpoint <;> rfl

/-- **Adding the desired endpoints** without an error is adding them on the links they
    resolve to, one after the other. -/
theorem addDesired_ends (desired : List LoaderEndpoint) (s : ConfiguredBackend × List Link) :
    (collectErrors LoaderEndpoint.key (addLoaderEndpoint root) desired).Guards (noted root)
      (fun _ _ _ => True) (fun errors t => errors = [] → ∃ links : List Link,
        links.map Link.ifname = desired.map LoaderEndpoint.link ∧
          t = (addedAll root (desired.zip links) s.1, s.2 ++ links)) s := by
  refine collectErrors_ends LoaderEndpoint.key
    (R := fun items s t => ∃ links : List Link,
      links.map Link.ifname = items.map LoaderEndpoint.link ∧
        t = (addedAll root (items.zip links) s.1, s.2 ++ links))
    (fun endpoint s => addLoaderEndpoint_ok root endpoint s.1 s.2) (fun s => ?_) ?_ desired s
  · exact ⟨[], rfl, Prod.ext rfl (List.append_nil _).symm⟩
  · rintro endpoint rest s _ _ ⟨link, hname, rfl⟩ ⟨links, hnames, rfl⟩
    refine ⟨link :: links, ?_, Prod.ext rfl ?_⟩
    · rw [List.map_cons, List.map_cons, hname, hnames]
    · rw [List.append_assoc]
      rfl

/-- The entries of the desired endpoints, once nothing else is left. -/
theorem lxcExact_of_dropped {infos : List (IpAddr × EndpointInfo)}
    (hnames : links.map Link.ifname = desired.map LoaderEndpoint.link)
    (hinfos : ∀ ip info, (ip, info) ∈ infos ↔
      (ip, info) ∈ (addedAll root (desired.zip links) s).1.endpointInfos ∧ ip ∈ wantedIps desired) :
    LxcExact desired links infos := by
  have hlength : links.length = desired.length := by
    simpa only [List.length_map] using congrArg List.length hnames
  -- An address is wanted when it has a last owner.
  have howner : ∀ ip, ip ∈ wantedIps desired ↔ lastInfo (desired.zip links) ip ≠ none := by
    intro ip
    rw [mem_wantedIps, Ne, lastInfo_eq_none]
    push Not
    constructor
    · rintro ⟨endpoint, hmem, hip⟩
      rw [← List.map_fst_zip hlength.ge, List.mem_map] at hmem
      obtain ⟨pair, hpair, rfl⟩ := hmem
      exact ⟨pair, hpair, hip⟩
    · rintro ⟨pair, hpair, hip⟩
      exact ⟨pair.1, (List.of_mem_zip hpair).1, hip⟩
  have hentries : ∀ ip info, (ip, info) ∈ infos ↔
      lastInfo (desired.zip links) ip = some info := by
    intro ip info
    rw [hinfos, mem_infos_addedAll, howner]
    cases lastInfo (desired.zip links) ip <;> simp
  refine ⟨hnames, fun ip => ?_, hentries⟩
  rw [← mem_wantedIps, howner, Option.ne_none_iff_exists', List.mem_map]
  constructor
  · rintro ⟨⟨_, info⟩, hmem, rfl⟩
    exact ⟨info, (hentries _ _).mp hmem⟩
  · rintro ⟨info, hlast⟩
    exact ⟨(ip, info), (hentries _ _).mpr hlast, rfl⟩

/-- **Reconcile.** -/
theorem reconcile_infos (desired : List LoaderEndpoint) (s : ConfiguredBackend) :
    (reconcile root desired).run.Guards (noted root) (fun _ _ _ => True)
      (Prog.orError (fun errors t =>
        (∀ ip ∈ t.1.1.endpointInfos.map Prod.fst, ∃ endpoint ∈ desired, ip ∈ endpoint.ips) ∧
          (errors = [] → LxcExact desired t.2 t.1.1.endpointInfos)) fun _ _ => True) (s, []) := by
  have hlist : (listLoaderEndpoints root).run.Uses LeavesInfos :=
    Prog.uses_try ⟨trivial, fun _ => trivial⟩ fun _ => ⟨trivial, fun _ => trivial⟩
  have hsame : ∀ {α : Type} {p : LoaderM α}, p.run.Uses LeavesInfos → ∀ s,
      p.run.Guards (noted root) (fun _ _ _ => True)
        (Prog.orError (fun _ t => SameInfos s t) fun _ _ => True) s := by
    intro α p hp s
    refine (same_of_leavesInfos hp s).imp fun result t ht => ?_
    cases result with
    | ok _ => exact ht
    | error _ => trivial
  refine Prog.guards_try _ (Prog.guards_lift (addDesired_ends desired (s, []))) ?_
  intro addErrors t ht
  -- Listing and detaching the stale endpoints are not about the `lxc_map`.
  refine Prog.guards_try _ (hsame hlist t) fun existing u hu => ?_
  refine Prog.guards_try (fun _ v => SameInfos u v) (hsame ?_ u) fun stale v hv => ?_
  · exact ⟨trivial, fun _ => trivial⟩
  refine Prog.guards_try _ (Prog.guards_lift (same_of_leavesInfos (collectErrors_uses
    fun endpoint _ => detachLoaderEndpoint_uses (fun _ => trivial) (fun _ => trivial)
      (fun _ => trivial) _ _) v)) ?_
  intro detachErrors w hw
  refine Prog.guards_try (fun infos x => infos.Perm w.1.1.endpointInfos ∧ SameInfos w x) ?_ ?_
  · refine ⟨trivial, fun result x hx => ?_⟩
    cases result with
    | ok infos =>
      obtain ⟨⟨⟨hperm, hsem⟩, -⟩, hlinks⟩ := hx
      exact ⟨hperm, congrArg Backend.endpointInfos hsem, hlinks⟩
    | error e => trivial
  rintro infos x ⟨hperm, hx⟩
  refine Prog.guards_try _ (dropUnwanted_ends (wantedIps desired) _ x) ?_
  rintro _ y ⟨hy, hlinks⟩
  have hthrough : SameInfos t x :=
    ⟨((hx.1.trans hw.1).trans hv.1).trans hu.1, ((hx.2.trans hw.2).trans hv.2).trans hu.2⟩
  -- Every entry was listed, so the loop has looked at all of them.
  have hleft : ∀ entry, entry ∈ y.1.1.endpointInfos ↔
      entry ∈ t.1.1.endpointInfos ∧ entry.1 ∈ wantedIps desired := by
    intro entry
    rw [hy, hthrough.1]
    refine and_congr_right fun hmem => imp_iff_right ?_
    rw [← hthrough.1, hx.1] at hmem
    exact List.mem_map_of_mem (hperm.mem_iff.mpr hmem)
  constructor
  · intro ip hip
    obtain ⟨entry, hentry, rfl⟩ := List.mem_map.mp hip
    exact mem_wantedIps.mp ((hleft entry).mp hentry).2
  · intro hnone
    obtain ⟨links, hnames, rfl⟩ := ht (List.append_eq_nil_iff.mp hnone).1
    rw [hlinks, hthrough.2]
    exact lxcExact_of_dropped hnames fun ip info => hleft (ip, info)

/-- **The `lxc_map` after a reconcile.**  Whatever its calls answer, when it returns `Ok`
    every address of the map is that of a desired container; and when it collected no error,
    the map has all those addresses, each with the entry of the last owner. -/
theorem reconcile_lxcMap {s t : Backend} {desired : List LoaderEndpoint}
    {tr : List (Answered BackendOp)} {errors : List (LoaderEndpointKind × String × LoaderError)}
    (h : Exec Backend.sem (reconcile root desired).run s tr (.pure (.ok errors)) t) :
    (∀ ip ∈ t.endpointInfos.map Prod.fst, ∃ endpoint ∈ desired, ip ∈ endpoint.ips) ∧
      (errors = [] → LxcExact desired (resolvedLinks tr) t.endpointInfos) :=
  (reconcile_infos desired (s, KeyMap.empty)).exec ((h.observed _).observed [])

theorem collectErrors_succeeds {α : Type} {key : α → LoaderEndpointKind × String}
    {handle : α → LoaderM Unit} (h : ∀ a, Succeeds (handle a)) (items : List α) :
    (collectErrors key handle items).Guards (answering (¬ Failed ·) anyAnswer) (fun _ _ _ => True)
      (fun errors _ => errors = []) () := by
  induction items with
  | nil => exact rfl
  | cons a rest ih =>
    refine Prog.guards_bind (h a) fun result _ hok => ?_
    refine Prog.guards_bind ih fun errors _ hnone => ?_
    cases result with
    | ok _ => exact hnone
    | error e => exact hok.elim

/-- When no call fails, a reconcile collects no error. -/
theorem reconcile_succeeds (desired : List LoaderEndpoint) :
    (reconcile root desired).run.Guards (answering (¬ Failed ·) anyAnswer) (fun _ _ _ => True)
      (Prog.orError (fun errors _ => errors = []) fun _ _ => False) () := by
  refine Prog.guards_try _ (Prog.guards_lift
    (collectErrors_succeeds (fun endpoint => addLoaderEndpoint_succeeds endpoint) desired)) ?_
  rintro _ _ rfl
  refine Prog.guards_try (fun _ _ => True) ?_ fun existing _ _ => ?_
  · refine Succeeds.bind (call_succeeds fun _ => trivial) fun _ => ?_
    exact ⟨trivial, fun _ _ _ => trivial⟩
  refine Prog.guards_try (fun _ _ => True) ⟨trivial, fun _ _ _ => trivial⟩ fun stale _ _ => ?_
  refine Prog.guards_try _ (Prog.guards_lift (collectErrors_succeeds
    (fun endpoint => detachLoaderEndpoint_succeeds endpoint.1 endpoint.2) stale)) ?_
  rintro _ _ rfl
  refine Prog.guards_try (fun _ _ => True) (call_succeeds fun _ => trivial) fun infos _ _ => ?_
  refine Prog.guards_try (fun _ _ => True) (Succeeds.forM (fun ip => ?_) _) fun _ _ _ => rfl
  split_ifs
  · trivial
  · exact call_succeeds fun _ => trivial

/-- From every backend there is a reconcile without an error. -/
theorem exists_reconcile (root : PinRoot) (desired : List LoaderEndpoint) (s : Backend) :
    ∃ tr t, Exec Backend.sem (reconcile root desired).run s tr (.pure (.ok [])) t := by
  have hsucceeds : Succeeds (reconcile root desired) :=
    (reconcile_succeeds desired).imp_try (fun _ _ _ => trivial) fun _ _ h => h
  obtain ⟨tr, errors, t, hexec, hcalm⟩ := exists_ok root hsucceeds (s, KeyMap.empty)
  obtain rfl := (reconcile_succeeds desired).exec (Exec.answering hexec.any hcalm)
  exact ⟨tr, t.1, hexec.map Prod.fst fun _ _ _ _ _ h => h.1⟩

end

/-- Two containers that own the same address. -/
def sharing : List LoaderEndpoint :=
  [.container { id := 1, hostIfaceName := "lxc1", ipv4 := some 9 },
    .container { id := 2, hostIfaceName := "lxc2", ipv4 := some 9 }]

/-- They are reconciled where an address of a container is left that is gone. -/
theorem reconcile_lxcMap_sharing : ∃ tr t,
    Exec Backend.sem (reconcile bpfRoot sharing).run
      ⟨∅, [(.v4 7, ⟨3, 4, default, default⟩)]⟩ tr (.pure (.ok [])) t ∧
    (∀ ip ∈ t.endpointInfos.map Prod.fst, ∃ endpoint ∈ sharing, ip ∈ endpoint.ips) ∧
    LxcExact sharing (resolvedLinks tr) t.endpointInfos := by
  obtain ⟨tr, t, hexec⟩ := exists_reconcile bpfRoot sharing
    ⟨∅, [(.v4 7, ⟨3, 4, default, default⟩)]⟩
  obtain ⟨howned, hexact⟩ := reconcile_lxcMap hexec
  exact ⟨tr, t, hexec, howned, hexact rfl⟩

/-- The address belongs to the second one. -/
example (link link' : Link) : lastInfo (sharing.zip [link, link']) (.v4 9) =
    some ⟨2, link'.ifindex, default, default⟩ := rfl

end Sarena.Loader
