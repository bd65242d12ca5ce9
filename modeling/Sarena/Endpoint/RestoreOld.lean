import Sarena.Endpoint.Manager
import Sarena.Endpoint.Restore

namespace Sarena

open Lib

/-!
# Endpoint — the endpoints of an earlier life

`restore_old_endpoints` reads the state directories that an earlier life of the daemon left
behind and reserves the id of each endpoint it finds.  The endpoints are only reported: none
of them is added to the manager.

* `restoreOldEndpoints` — the function, over the calls of `read_endpoints`, the pinned map,
  the loader and the id allocator;
* `restored_readable` — what it reports could be read from a state directory, whatever calls
  fail;
* `chosen_restored`, `restoreOldEndpoints_exec` — when no file-system call fails it reports
  the endpoint of every directory that `read_endpoints` prefers.
-/

/-- The calls of `restore_old_endpoints` itself. -/
inductive RestoreCall : Type → Type
  | iterate (endpoints : KeyMap EndpointId EndpointPersist) :
      RestoreCall (List (EndpointId × EndpointPersist))
  | openLxcMap : RestoreCall (Res Unit)
  | lxcEndpoints : RestoreCall (Res Unit)
  | listLoaderEndpoints : RestoreCall (Res Unit)
  | allocateReuseId (id : EndpointId) : RestoreCall (Res EndpointId)

/-- Its calls and those of `read_endpoints`. -/
abbrev RestoreOp (β : Type) := WorkerOp β ⊕ RestoreCall β

/-- Fallible code over these calls. -/
abbrev RestoreM (α : Type) := ExceptT DataPlaneError (Prog RestoreOp) α

namespace RestoreM

/-- The file-system calls of a function. -/
def fs {α : Type} (p : FsM α) : RestoreM α := ExceptT.mk (p.run.mapOps fun _ => Sum.inl)

/-- A call under `?`. -/
def call {α : Type} (op : RestoreCall (Res α)) : RestoreM α :=
  ExceptT.mk (perform (E := RestoreOp) (.inr op))

end RestoreM

/-- The loop of `restore_old_endpoints`.  A lease that it gets is committed at once. -/
def reuseIds : List (EndpointId × EndpointPersist) → Prog RestoreOp (List EndpointPersist)
  | [] => pure []
  | (id, endpoint) :: rest => do
    match ← perform (E := RestoreOp) (.inr (.allocateReuseId id)) with
    | .ok _ => do
      let restored ← reuseIds rest
      return endpoint :: restored
    | .error _ => reuseIds rest

/-- The part of `restore_old_endpoints` after its early return.  Nothing is ever put on the
    list of endpoints to clean. -/
def restoreListed (possibleEndpoints : List (EndpointId × EndpointPersist)) :
    RestoreM (List EndpointPersist × List EndpointPersist) := do
  RestoreM.call .openLxcMap
  RestoreM.call .lxcEndpoints
  RestoreM.call .listLoaderEndpoints
  let restored ← ExceptT.lift (reuseIds possibleEndpoints)
  return (restored, [])

/-- `EndpointManager::restore_old_endpoints`.  A `HashMap` yields its entries in an unspecified
    order. -/
def restoreOldEndpoints : RestoreM (List EndpointPersist × List EndpointPersist) := do
  let endpoints ← RestoreM.fs readEndpoints
  let possibleEndpoints ← ExceptT.lift (perform (E := RestoreOp) (.inr (.iterate endpoints)))
  if possibleEndpoints.isEmpty then return ([], [])
  else restoreListed possibleEndpoints

/-- The list has every entry of the map once. -/
structure Enumerates (endpoints : KeyMap EndpointId EndpointPersist)
    (l : List (EndpointId × EndpointPersist)) : Prop where
  nodup : (l.map (·.1)).Nodup
  mem : ∀ i p, (i, p) ∈ l ↔ endpoints i = some p

/-- What the calls do to the disk and to the manager.  The pinned map and the loader answer
    anything. -/
def restoreSem (disk : Sem WorkerOp Fs) : Sem RestoreOp (Fs × EndpointManager)
  | _, .inl op, s, b, t => disk _ op s.1 b t.1 ∧ t.2 = s.2
  | _, .inr (.iterate endpoints), s, b, t => Enumerates endpoints b ∧ t = s
  | _, .inr .openLxcMap, s, _, t => t = s
  | _, .inr .lxcEndpoints, s, _, t => t = s
  | _, .inr .listLoaderEndpoints, s, _, t => t = s
  | _, .inr (.allocateReuseId id), s, b, t => t.1 = s.1 ∧ (b, t.2) = s.2.allocateReuseId id

/-- Restoring leaves a disk of finitely many directories where its file-system calls do. -/
theorem listed_restoreSem {disk : Sem WorkerOp Fs}
    (hdisk : ∀ (β : Type) (op : WorkerOp β) fs b fs', disk β op fs b fs' → fs.Listed → fs'.Listed)
    {β : Type} {op : RestoreOp β} {s t : Fs × EndpointManager} {b : β}
    (h : restoreSem disk β op s b t) (hs : s.1.Listed) : t.1.Listed := by
  cases op with
  | inl op => exact hdisk _ _ _ _ _ h.1 hs
  | inr op =>
    cases op with
    | iterate endpoints => exact h.2 ▸ hs
    | allocateReuseId id => exact h.1 ▸ hs
    | openLxcMap => exact (show t = s from h) ▸ hs
    | lxcEndpoints => exact (show t = s from h) ▸ hs
    | listLoaderEndpoints => exact (show t = s from h) ▸ hs

/-- Restoring reserves ids, and nothing else in the manager. -/
theorem inner_restoreSem {disk : Sem WorkerOp Fs} {β : Type} {op : RestoreOp β}
    {s t : Fs × EndpointManager} {b : β} (h : restoreSem disk β op s b t)
    (hs : s.2.idAllocator.leased = ∅) :
    t.2.inner = s.2.inner ∧ t.2.idAllocator.leased = ∅ := by
  have hsame : t.2 = s.2 → t.2.inner = s.2.inner ∧ t.2.idAllocator.leased = ∅ := by
    intro heq
    rw [heq]
    exact ⟨rfl, hs⟩
  cases op with
  | inl op => exact hsame h.2
  | inr op =>
    cases op with
    | allocateReuseId id =>
      rw [show t.2 = _ from (Prod.ext_iff.mp h.2).2]
      exact ⟨EndpointManager.inner_allocateReuseId s.2 id,
        EndpointManager.leased_allocateReuseId hs id⟩
    | iterate endpoints => exact hsame (congrArg Prod.snd h.2)
    | openLxcMap => exact hsame (congrArg Prod.snd h)
    | lxcEndpoints => exact hsame (congrArg Prod.snd h)
    | listLoaderEndpoints => exact hsame (congrArg Prod.snd h)

/-! ### What is restored was on the disk -/

section

variable {start fs : Fs} {id : EndpointId}

/-- Every directory of `fs` is one of `start`, as it was. -/
def Fs.Within (fs start : Fs) : Prop := ∀ dir d, fs dir = some d → start dir = some d

theorem Fs.Within.refl (fs : Fs) : fs.Within fs := fun _ _ h => h

/-- The endpoint of an allocatable id can be read from one of its directories. -/
def OnDisk (start : Fs) (id : EndpointId) (p : EndpointPersist) : Prop :=
  EndpointId.Allocatable id ∧ ∃ k, readable id (view id start) k = some p

/-- Removing a directory, or failing to, leaves only what was there. -/
theorem within_removeDirAll {dir : String} {r : IoResult Unit} {fs' : Fs} (h : fs.Within start)
    (hop : faultySem _ (.removeDirAll dir) fs r fs') : fs'.Within start := by
  obtain (⟨-, -, rfl⟩ | ⟨-, -, rfl⟩) | ⟨-, rfl⟩ := hop
  · exact h
  · intro name d hd
    rw [KeyMap.remove_apply] at hd
    split at hd
    next => cases hd
    next => exact h name d hd
  · exact h

/-- What a call reads from a file was there from the start. -/
theorem within_readFile {dir file : String} {c : FileContents} {fs' : Fs} (h : fs.Within start)
    (hop : faultySem _ (.readFile dir file) fs (.ok c) fs') :
    ∃ d, start dir = some d ∧ d file = some c := by
  obtain ⟨⟨-, e, he, -⟩ | ⟨d, c', hd, hc, heq⟩, -⟩ | ⟨⟨e, he⟩, -⟩ := hop
  · cases he
  · obtain rfl := Except.ok.inj heq
    exact ⟨d, h dir d hd, hc⟩
  · cases he

theorem readEndpointDir_within (h : fs.Within start) (k : DirKind) :
    (readEndpointDir id (dirName id k)).run.Keeps faultySem (·.Within start)
      (fun r _ => ∀ p, r = .ok p → readable id (view id start) k = some p) fs := by
  refine ⟨h, fun b fs' hop => ?_⟩
  have hfs' : fs'.Within start := by
    obtain ⟨-, rfl⟩ | ⟨-, rfl⟩ := hop
    · exact h
    · exact h
  cases b with
  | error e => exact ⟨hfs', by rintro _ ⟨⟩⟩
  | ok contents =>
    cases contents with
    | other => exact ⟨hfs', by rintro _ ⟨⟩⟩
    | json persist =>
      obtain ⟨d, hd, hfile⟩ := within_readFile h hop
      show Prog.Keeps _ _ _ (if persist.id ≠ id then
        throw (.generalError _) else pure persist : FsM EndpointPersist).run fs'
      by_cases hid : persist.id = id
      · rw [if_neg (not_not.mpr hid)]
        refine ⟨hfs', fun p hp => ?_⟩
        obtain rfl := Except.ok.inj hp
        rw [readable, view, hd, Option.bind_some, content, hfile]
        simp only [if_pos hid]
      · rw [if_pos hid]
        exact ⟨hfs', by rintro _ ⟨⟩⟩

theorem chooseDir_within {l : List (DirKind × String)} (hl : ∀ c ∈ l, c.2 = dirName id c.1)
    (h : fs.Within start) (index : Nat) :
    (chooseDir id index l).Keeps faultySem (·.Within start)
      (fun r _ => ∀ c, r = some c → ∃ k, readable id (view id start) k = some c.1) fs := by
  induction l generalizing index fs with
  | nil => exact ⟨h, fun _ hc => nomatch hc⟩
  | cons c l ih =>
    obtain ⟨k, name⟩ := c
    obtain rfl : name = dirName id k := hl _ List.mem_cons_self
    refine Prog.keeps_bind (readEndpointDir_within h k) fun r fs' hfs' hr => ?_
    cases r with
    | ok p =>
      refine ⟨hfs', fun c hc => ?_⟩
      obtain rfl := Option.some.inj hc
      exact ⟨k, hr p rfl⟩
    | error e => exact ih (fun c hc => hl c (List.mem_cons_of_mem _ hc)) hfs' (index + 1)

theorem removeSuperseded_within (l : List (DirKind × String)) (h : fs.Within start) :
    (removeSuperseded l).Keeps faultySem (·.Within start) (fun _ _ => True) fs := by
  induction l generalizing fs with
  | nil => exact ⟨h, trivial⟩
  | cons c l ih => exact ⟨h, fun b fs' hop => ih (within_removeDirAll h hop)⟩

theorem restoreDir_within {l : List (DirKind × String)} (hl : ∀ c ∈ l, c.2 = dirName id c.1)
    (h : fs.Within start) :
    (restoreDir id l).Keeps faultySem (·.Within start)
      (fun r _ => ∀ p, r = some p → ∃ k, readable id (view id start) k = some p) fs := by
  have hsorted : ∀ c ∈ sortDirs l, c.2 = dirName id c.1 :=
    fun c hc => hl c ((perm_sortDirs l).mem_iff.mp hc)
  refine Prog.keeps_bind (chooseDir_within hsorted h 0) fun r fs' hfs' hr => ?_
  cases r with
  | none => exact ⟨hfs', fun _ hp => nomatch hp⟩
  | some c =>
    refine Prog.keeps_bind (removeSuperseded_within _ hfs') fun _ fs'' hfs'' _ => ?_
    refine ⟨hfs'', fun p hp => ?_⟩
    obtain rfl := Option.some.inj hp
    exact hr c rfl

theorem restoreDirs_within {dirs : List (EndpointId × List (DirKind × String))}
    (hown : NamesOwn dirs) (halloc : ∀ d ∈ dirs, EndpointId.Allocatable d.1) (h : fs.Within start)
    {m : KeyMap EndpointId EndpointPersist} (hm : ∀ i p, m i = some p → OnDisk start i p) :
    (restoreDirs m dirs).Keeps faultySem (·.Within start)
      (fun m' _ => ∀ i p, m' i = some p → OnDisk start i p) fs := by
  induction dirs generalizing m fs with
  | nil => exact ⟨h, hm⟩
  | cons d dirs ih =>
    have hown' : NamesOwn dirs := fun d hd => hown d (List.mem_cons_of_mem _ hd)
    have halloc' : ∀ d ∈ dirs, EndpointId.Allocatable d.1 :=
      fun d hd => halloc d (List.mem_cons_of_mem _ hd)
    refine Prog.keeps_bind (restoreDir_within (hown d List.mem_cons_self) h) ?_
    intro r fs' hfs' hr
    cases r with
    | none => exact ih hown' halloc' hfs' hm
    | some p =>
      refine ih hown' halloc' hfs' fun i q hq => ?_
      rw [KeyMap.insert_apply] at hq
      split at hq
      next hi =>
        rw [hi, ← Option.some.inj hq]
        exact ⟨halloc d List.mem_cons_self, hr p rfl⟩
      next => exact hm i q hq

theorem allocatable_groupDirs (names : List String) :
    ∀ d ∈ groupDirs names, EndpointId.Allocatable d.1 := by
  intro d hd
  obtain ⟨i, hi, rfl⟩ := List.mem_map.mp hd
  obtain ⟨⟨i, k, name⟩, hmem, rfl⟩ := List.mem_map.mp (List.mem_dedup.mp hi)
  exact (mem_parsedDirs.mp hmem).2.1

/-- Whatever calls fail, `read_endpoints` lists only what could be read from the disk. -/
theorem readEndpoints_within (fs : Fs) :
    readEndpoints.run.Keeps faultySem (·.Within fs)
      (fun r _ => ∀ m, r = .ok m → ∀ i p, m i = some p → OnDisk fs i p) fs := by
  refine ⟨Fs.Within.refl fs, fun b fs' hop => ?_⟩
  have hfs' : fs' = fs := by
    obtain ⟨-, rfl⟩ | ⟨-, rfl⟩ := hop
    · rfl
    · rfl
  subst hfs'
  have hdirs : ∀ dirs, NamesOwn dirs → (∀ d ∈ dirs, EndpointId.Allocatable d.1) →
      (FsM.result (restoreDirs .empty dirs)).run.Keeps faultySem (·.Within fs')
        (fun r _ => ∀ m, r = .ok m → ∀ i p, m i = some p → OnDisk fs' i p) fs' := by
    intro dirs hown halloc
    have hempty : ∀ i p, (KeyMap.empty : KeyMap EndpointId EndpointPersist) i = some p →
        OnDisk fs' i p := by
      intro i p h
      cases h
    refine Prog.keeps_bind (restoreDirs_within hown halloc (Fs.Within.refl fs') hempty) ?_
    intro m t ht hm
    refine ⟨ht, fun m' heq => ?_⟩
    rw [← Except.ok.inj heq]
    exact hm
  cases b with
  | ok entries => exact hdirs _ (namesOwn_groupDirs _) (allocatable_groupDirs _)
  | error e =>
    show Prog.Keeps _ _ _ ((if e.kind = .notFound then pure [] else throw (.fileError e) :
      FsM (List (EndpointId × List (DirKind × String)))) >>=
        fun dirs => FsM.result (restoreDirs .empty dirs)).run fs'
    by_cases he : e.kind = .notFound
    · rw [if_pos he]
      exact hdirs [] (fun _ h => nomatch h) (fun _ h => nomatch h)
    · rw [if_neg he]
      exact ⟨Fs.Within.refl fs', fun _ hm => nomatch hm⟩

end

/-! ### What is reported -/

section

variable {id : EndpointId} {p : EndpointPersist} {sem : Sem RestoreOp (Fs × EndpointManager)}

/-- The loop reports some of the endpoints it goes through, and leaves the disk alone. -/
theorem reuseIds_subset {disk : Sem WorkerOp Fs} {I : Fs → Prop}
    (l : List (EndpointId × EndpointPersist)) {s : Fs × EndpointManager} (hs : I s.1) :
    (reuseIds l).Keeps (restoreSem disk) (fun s => I s.1) (fun r _ => r ⊆ l.map (·.2)) s := by
  induction l generalizing s with
  | nil => exact ⟨hs, List.Subset.refl _⟩
  | cons e l ih =>
    refine ⟨hs, fun b t hop => ?_⟩
    have ht : I t.1 := by
      rw [show t.1 = s.1 from hop.1]
      exact hs
    cases b with
    | ok _ =>
      refine Prog.keeps_bind (p := reuseIds l) (ih ht) fun r u hu hr => ?_
      exact ⟨hu, List.cons_subset_cons _ hr⟩
    | error _ =>
      refine (ih ht).imp fun r u hr => ?_
      exact ⟨hr.1, List.subset_cons_of_subset _ hr.2⟩

/-- The loop reports an endpoint whose id is allocatable and free. -/
theorem reuseIds_reports (hsem : ∀ β op s b t, sem β op s b t → restoreSem diskSem β op s b t)
    (halloc : EndpointId.Allocatable id) {l : List (EndpointId × EndpointPersist)}
    (hnodup : (l.map (·.1)).Nodup) (hmem : (id, p) ∈ l) {s : Fs × EndpointManager}
    (hfree : id ∈ s.2.idAllocator.ids) :
    (reuseIds l).Guards sem (fun _ _ _ => True) (fun r _ => p ∈ r) s := by
  induction l generalizing s with
  | nil => cases hmem
  | cons e l ih =>
    obtain ⟨i, q⟩ := e
    obtain ⟨hi, hnodup⟩ := List.nodup_cons.mp hnodup
    refine ⟨trivial, fun b t hop => ?_⟩
    obtain ⟨hb, ht⟩ := Prod.ext_iff.mp (hsem _ _ _ _ _ hop).2
    rcases List.mem_cons.mp hmem with heq | hrest
    · -- It is this entry's turn, and the allocator gives the id away.
      obtain ⟨rfl, rfl⟩ := Prod.mk.inj heq
      obtain rfl : b = .ok id := hb.trans (EndpointManager.allocateReuseId_ok halloc hfree)
      refine Prog.guards_bind (p := reuseIds l) (Prog.guards_true _ t) fun r _ _ => ?_
      exact List.mem_cons_self
    · have hne : id ≠ i := by
        rintro rfl
        exact hi (List.mem_map.mpr ⟨_, hrest, rfl⟩)
      have hfree' : id ∈ t.2.idAllocator.ids := by
        rw [show t.2 = _ from ht]
        exact EndpointManager.ids_allocateReuseId s.2 hne hfree
      cases b with
      | ok _ =>
        refine Prog.guards_bind (p := reuseIds l) (ih hnodup hrest hfree') fun r _ hr => ?_
        exact List.mem_cons_of_mem _ hr
      | error _ => exact ih hnodup hrest hfree'

/-- A call under `?` that leaves the disk and the manager alone. -/
theorem guards_call {op : RestoreCall (Res Unit)} {s : Fs × EndpointManager}
    {ok : ∀ β : Type, RestoreOp β → Fs × EndpointManager → Prop}
    {X : DataPlaneError → Fs × EndpointManager → Prop} (hok : ok _ (.inr op) s)
    (hop : ∀ b t, sem _ (.inr op) s b t → t = s) (hX : ∀ e, X e s) :
    (RestoreM.call op).run.Guards sem ok (Prog.orError (fun _ t => t = s) X) s := by
  refine ⟨hok, fun b t ht => ?_⟩
  cases b with
  | ok _ => exact hop _ t ht
  | error e => exact hop _ t ht ▸ hX e

end

/-- **What is restored was on the disk.** Whatever calls fail, `restore_old_endpoints` leaves
    only directories that were there, and reports only endpoints that can be read from one of
    their state directories. -/
theorem restored_readable (fs : Fs) (m : EndpointManager) :
    restoreOldEndpoints.run.Guards (restoreSem faultySem) (fun _ _ s => s.1.Within fs)
      (Prog.orError (fun r s => s.1.Within fs ∧ ∀ p ∈ r.1, OnDisk fs p.id p)
        fun _ s => s.1.Within fs) (fs, m) := by
  have hread : (RestoreM.fs readEndpoints).run.Guards (restoreSem faultySem)
      (fun _ _ s => s.1.Within fs)
      (Prog.orError (fun endpoints s => s.1.Within fs ∧
        ∀ i p, endpoints i = some p → OnDisk fs i p) fun _ s => s.1.Within fs) (fs, m) := by
    have hwithin : readEndpoints.run.Guards faultySem (fun _ _ fs' => fs'.Within fs) _ fs :=
      readEndpoints_within fs
    refine (Prog.guards_mapOps Prod.fst (fun _ => True)
      (fun β op s b t h => ⟨h.1, fun _ => trivial⟩)
      (fun _ _ _ h => h) hwithin trivial).imp ?_
    rintro r t ⟨⟨ht, hr⟩, -⟩
    cases r with
    | ok endpoints => exact ⟨ht, hr endpoints rfl⟩
    | error e => exact ht
  refine Prog.guards_try _ hread ?_
  -- The calls between the reading and the ids leave the disk alone, whatever they answer.
  rintro endpoints s ⟨hs, hendpoints⟩
  refine Prog.guards_try (fun l t => t = s ∧ ∀ e ∈ l, OnDisk fs e.2.id e.2)
    (Prog.guards_lift ⟨hs, fun l t hop => ⟨hop.2, fun e he => ?_⟩⟩) ?_
  · have hdisk := hendpoints e.1 e.2 ((hop.1.mem e.1 e.2).mp he)
    obtain ⟨k, hk⟩ := hdisk.2
    rw [readable_id hk]
    exact hdisk
  rintro l _ ⟨rfl, hl⟩
  split
  · exact ⟨hs, fun p hp => by cases hp⟩
  refine Prog.guards_try _ (guards_call hs (fun _ _ h => h) fun _ => hs) ?_
  rintro _ _ rfl
  refine Prog.guards_try _ (guards_call hs (fun _ _ h => h) fun _ => hs) ?_
  rintro _ _ rfl
  refine Prog.guards_try _ (guards_call hs (fun _ _ h => h) fun _ => hs) ?_
  rintro _ u rfl
  refine Prog.guards_try _ (Prog.guards_lift (reuseIds_subset (I := (·.Within fs)) l hs)) ?_
  rintro r t ⟨ht, hr⟩
  refine ⟨ht, fun p hp => ?_⟩
  obtain ⟨e, he, rfl⟩ := List.mem_map.mp (hr hp)
  exact hl e he

/-! ### When no file-system call fails -/

/-- **`read_endpoints`, exactly.** It lists the endpoints of allocatable ids that it prefers. -/
theorem readEndpoints_exact (fs : Fs) :
    readEndpoints.run.Guards diskSem (fun _ _ _ => True)
      (Prog.orError (fun m _ => ∀ i p, m i = some p ↔
        EndpointId.Allocatable i ∧ ∃ kind, Chosen i (view i fs) kind p) fun _ _ => False) fs := by
  have hlists : ∀ i kind p, EndpointId.Allocatable i → Chosen i (view i fs) kind p →
      ∀ tr r t, Exec diskSem readEndpoints.run fs tr (.pure r) t →
        ∃ m, r = .ok m ∧ m i = some p := by
    intro i kind p halloc hchosen tr r t hx
    obtain ⟨-, m, hr, hm, -⟩ := (readEndpoints_keeps halloc hchosen).exec hx
    exact ⟨m, hr, hm⟩
  rw [Prog.guards_iff_exec]
  intro tr r t hx
  have hwithin := (readEndpoints_within fs).exec (hx.map id fun β op s b t h => .inl h)
  cases r with
  | error e =>
    -- Only listing the state directory could fail.
    have hok : readEndpoints.run.Guards diskSem (fun _ _ _ => True)
        (Prog.orError (fun _ _ => True) fun _ _ => False) fs := by
      refine ⟨trivial, fun b u hop => ?_⟩
      obtain ⟨⟨entries, rfl, -⟩, -⟩ := hop
      refine Prog.guards_bind (p := restoreDirs .empty (groupDirs (listedDirs entries)))
        (Prog.guards_true _ u) fun _ _ _ => trivial
    exact hok.exec hx
  | ok m =>
    intro i p
    constructor
    · intro hp
      obtain ⟨halloc, k, hk⟩ := hwithin.2 m rfl i p hp
      obtain ⟨kind, q, hchosen⟩ := Present.chosen ⟨k, by rw [hk]; nofun⟩
      obtain ⟨m', hm', hq⟩ := hlists i kind q halloc hchosen tr _ t hx
      obtain rfl := Except.ok.inj hm'
      obtain rfl := Option.some.inj (hp.symm.trans hq)
      exact ⟨halloc, kind, hchosen⟩
    · rintro ⟨halloc, kind, hchosen⟩
      obtain ⟨m', hm', hp⟩ := hlists i kind p halloc hchosen tr _ t hx
      obtain rfl := Except.ok.inj hm'
      exact hp

/-- The part of `restore_old_endpoints` that reads the disk leaves the manager alone. -/
theorem restoreFs_exact (fs : Fs) (m : EndpointManager) :
    (RestoreM.fs readEndpoints).run.Guards (restoreSem diskSem) (fun _ _ _ => True)
      (Prog.orError (fun endpoints s => s.2 = m ∧ ∀ i p, endpoints i = some p ↔
        EndpointId.Allocatable i ∧ ∃ kind, Chosen i (view i fs) kind p) fun _ _ => False)
      (fs, m) := by
  refine (Prog.guards_mapOps Prod.fst (·.2 = m) (fun β op s b t h => ⟨h.1, fun hs => ?_⟩)
    (fun _ _ _ h => h) (readEndpoints_exact fs) rfl).imp ?_
  · exact h.2.trans hs
  · rintro r t ⟨hr, ht⟩
    cases r with
    | ok endpoints => exact ⟨ht, hr⟩
    | error e => exact hr

/-- The loop reports every endpoint it goes through when all their ids are free. -/
theorem reuseIds_reports_all {l : List (EndpointId × EndpointPersist)}
    (hnodup : (l.map (·.1)).Nodup) (halloc : ∀ e ∈ l, EndpointId.Allocatable e.1)
    {s : Fs × EndpointManager} (hfree : ∀ e ∈ l, e.1 ∈ s.2.idAllocator.ids) :
    (reuseIds l).Guards (restoreSem diskSem) (fun _ _ _ => True)
      (fun r _ => ∀ p, p ∈ r ↔ p ∈ l.map (·.2)) s := by
  rw [Prog.guards_iff_exec]
  intro tr r t hx p
  constructor
  · intro hp
    exact ((reuseIds_subset (I := fun _ => True) l trivial).exec hx).2 hp
  · intro hp
    obtain ⟨⟨i, p⟩, he, rfl⟩ := List.mem_map.mp hp
    exact (reuseIds_reports (fun _ _ _ _ _ h => h) (halloc _ he) hnodup he (hfree _ he)).exec hx

/-- **What is preferred is restored.** When no file-system call fails and
    `restore_old_endpoints` succeeds, it reports exactly the endpoints that `read_endpoints`
    prefers. -/
theorem restored_iff_chosen (fs : Fs) {m : EndpointManager}
    (hfree : ∀ i, EndpointId.Allocatable i → i ∈ m.idAllocator.ids) :
    restoreOldEndpoints.run.Guards (restoreSem diskSem) (fun _ _ _ => True)
      (Prog.orError (fun r _ => ∀ p, p ∈ r.1 ↔
        EndpointId.Allocatable p.id ∧ ∃ kind, Chosen p.id (view p.id fs) kind p)
        fun _ _ => True) (fs, m) := by
  refine Prog.guards_try (fun endpoints s => s.2 = m ∧ ∀ i p, endpoints i = some p ↔
    EndpointId.Allocatable i ∧ ∃ kind, Chosen i (view i fs) kind p)
    ((restoreFs_exact fs m).imp fun r t hr => ?_) ?_
  · cases r with
    | ok endpoints => exact hr
    | error e => trivial
  rintro endpoints s ⟨rfl, hexact⟩
  refine Prog.guards_try (fun l t => Enumerates endpoints l ∧ t = s)
    (Prog.guards_lift ⟨trivial, fun l t hop => hop⟩) ?_
  rintro l _ ⟨hl, rfl⟩
  -- The values of the list are the endpoints that are preferred.
  have hmem : ∀ p, p ∈ l.map (·.2) ↔
      EndpointId.Allocatable p.id ∧ ∃ kind, Chosen p.id (view p.id fs) kind p := by
    intro p
    rw [List.mem_map]
    constructor
    · rintro ⟨⟨i, p⟩, he, rfl⟩
      obtain ⟨halloc, kind, hchosen⟩ := (hexact i p).mp ((hl.mem i p).mp he)
      obtain rfl := readable_id hchosen.readable
      exact ⟨halloc, kind, hchosen⟩
    · intro h
      exact ⟨(p.id, p), (hl.mem _ _).mpr ((hexact _ _).mpr h), rfl⟩
  have halloc : ∀ e ∈ l, EndpointId.Allocatable e.1 :=
    fun e he => ((hexact e.1 e.2).mp ((hl.mem e.1 e.2).mp he)).1
  split
  next hempty =>
    obtain rfl := List.isEmpty_iff.mp hempty
    exact hmem
  next =>
    refine Prog.guards_try _ (guards_call trivial (fun _ _ h => h) fun _ => trivial) ?_
    rintro _ _ rfl
    refine Prog.guards_try _ (guards_call trivial (fun _ _ h => h) fun _ => trivial) ?_
    rintro _ _ rfl
    refine Prog.guards_try _ (guards_call trivial (fun _ _ h => h) fun _ => trivial) ?_
    rintro _ u rfl
    refine Prog.guards_try _ (Prog.guards_lift (reuseIds_reports_all hl.nodup halloc
      fun e he => hfree _ (halloc e he))) fun r _ hr p => ?_
    exact (hr p).trans (hmem p)

/-- Every map from ids can be listed. -/
theorem exists_enumerates (endpoints : KeyMap EndpointId EndpointPersist) :
    ∃ l, Enumerates endpoints l := by
  let entry : EndpointId → Option (EndpointId × EndpointPersist) :=
    fun i => (endpoints i).map (i, ·)
  have hentry : ∀ i e, entry i = some e ↔ e.1 = i ∧ endpoints i = some e.2 := by
    intro i e
    rw [Option.map_eq_some_iff]
    constructor
    · rintro ⟨p, hp, rfl⟩
      exact ⟨rfl, hp⟩
    · rintro ⟨rfl, hp⟩
      exact ⟨e.2, hp, rfl⟩
  -- There are finitely many ids: list them all and keep those with an entry.
  refine ⟨(List.finRange _).filterMap entry, ?_, fun i p => ?_⟩
  · refine List.Nodup.map_on ?_ (List.Nodup.filterMap ?_ (List.nodup_finRange _))
    · intro e he e' he' heq
      obtain ⟨i, -, hi⟩ := List.mem_filterMap.mp he
      obtain ⟨j, -, hj⟩ := List.mem_filterMap.mp he'
      obtain ⟨rfl, hp⟩ := (hentry i e).mp hi
      obtain ⟨rfl, hq⟩ := (hentry j e').mp hj
      rw [← heq, hp] at hq
      exact Prod.ext heq (Option.some.inj hq)
    · intro i j e hi hj
      rw [← ((hentry i e).mp hi).1, ((hentry j e).mp hj).1]
  · rw [List.mem_filterMap]
    constructor
    · rintro ⟨j, -, hj⟩
      obtain ⟨rfl, hp⟩ := (hentry j (i, p)).mp hj
      exact hp
    · intro hp
      exact ⟨i, List.mem_finRange i, (hentry i (i, p)).mpr ⟨rfl, hp⟩⟩

/-- The calls when the pinned map and the loader answer as well. -/
def calmSem : Sem RestoreOp (Fs × EndpointManager)
  | _, .inr .openLxcMap, s, b, t => b = .ok () ∧ t = s
  | _, .inr .lxcEndpoints, s, b, t => b = .ok () ∧ t = s
  | _, .inr .listLoaderEndpoints, s, b, t => b = .ok () ∧ t = s
  | _, .inr (.iterate endpoints), s, b, t => restoreSem diskSem _ (.inr (.iterate endpoints)) s b t
  | _, .inr (.allocateReuseId id), s, b, t =>
      restoreSem diskSem _ (.inr (.allocateReuseId id)) s b t
  | _, .inl op, s, b, t => restoreSem diskSem _ (.inl op) s b t

theorem restoreSem_of_calm {β : Type} {op : RestoreOp β} {s t : Fs × EndpointManager} {b : β}
    (h : calmSem β op s b t) : restoreSem diskSem β op s b t := by
  cases op with
  | inl op => exact h
  | inr op =>
    cases op with
    | iterate endpoints => exact h
    | allocateReuseId id => exact h
    | openLxcMap => exact h.2
    | lxcEndpoints => exact h.2
    | listLoaderEndpoints => exact h.2

/-- Every call has an answer on a disk of finitely many directories. -/
theorem calmSem_total {β : Type} (op : RestoreOp β) {s : Fs × EndpointManager} (h : s.1.Listed) :
    ∃ b t, calmSem β op s b t ∧ t.1.Listed := by
  cases op with
  | inl op =>
    obtain ⟨b, fs', hop⟩ := diskSem_total h op
    exact ⟨b, (fs', s.2), ⟨hop, rfl⟩, h.step hop⟩
  | inr op =>
    cases op with
    | iterate endpoints =>
      obtain ⟨l, hl⟩ := exists_enumerates endpoints
      exact ⟨l, s, ⟨hl, rfl⟩, h⟩
    | allocateReuseId id => exact ⟨_, (s.1, (s.2.allocateReuseId id).2), ⟨rfl, rfl⟩, h⟩
    | openLxcMap => exact ⟨.ok (), s, ⟨rfl, rfl⟩, h⟩
    | lxcEndpoints => exact ⟨.ok (), s, ⟨rfl, rfl⟩, h⟩
    | listLoaderEndpoints => exact ⟨.ok (), s, ⟨rfl, rfl⟩, h⟩

/-- With such answers `restore_old_endpoints` does not fail. -/
theorem restoreOldEndpoints_calm (fs : Fs) (m : EndpointManager) :
    restoreOldEndpoints.run.Guards calmSem (fun _ _ _ => True)
      (Prog.orError (fun _ _ => True) fun _ _ => False) (fs, m) := by
  have hcall : ∀ (op : RestoreCall (Res Unit)) s, (∀ b t, calmSem _ (.inr op) s b t → b = .ok ()) →
      (RestoreM.call op).run.Guards calmSem (fun _ _ _ => True)
        (Prog.orError (fun _ _ => True) fun _ _ => False) s := by
    intro op s hop
    refine ⟨trivial, fun b t ht => ?_⟩
    rw [hop b t ht]
    trivial
  refine Prog.guards_try (fun _ _ => True) ?_ fun endpoints s _ => ?_
  · rw [Prog.guards_iff_exec]
    intro tr r t hx
    -- An error of the reading would contradict its exact result on a calm disk.
    have h := (restoreFs_exact fs m).exec (hx.map id fun β op s b t h => restoreSem_of_calm h)
    cases r with
    | ok endpoints => trivial
    | error e => exact h
  refine Prog.guards_try (fun _ _ => True) (Prog.guards_lift ⟨trivial, fun _ _ _ => trivial⟩) ?_
  intro l s _
  split
  · trivial
  refine Prog.guards_try (fun _ _ => True) (hcall _ s fun b t h => h.1) fun _ s _ => ?_
  refine Prog.guards_try (fun _ _ => True) (hcall _ s fun b t h => h.1) fun _ s _ => ?_
  refine Prog.guards_try (fun _ _ => True) (hcall _ s fun b t h => h.1) fun _ s _ => ?_
  exact Prog.guards_try (fun _ _ => True) (Prog.guards_lift (Prog.guards_true (reuseIds l) s))
    fun _ _ _ => trivial

/-- `restore_old_endpoints` can succeed from every disk. -/
theorem restoreOldEndpoints_exec {fs : Fs} (h : fs.Listed) (m : EndpointManager) :
    ∃ tr r t, Exec (restoreSem diskSem) restoreOldEndpoints.run (fs, m) tr (.pure (.ok r)) t := by
  have hlisted : (fun s : Fs × EndpointManager => s.1.Listed) (fs, m) := h
  obtain ⟨tr, r, t, hx, -⟩ := Exec.exists_pure _ (fun β op s hs => calmSem_total op hs)
    restoreOldEndpoints.run hlisted
  have hok := (restoreOldEndpoints_calm fs m).exec hx
  cases r with
  | ok r => exact ⟨tr, r, t, hx.map id fun β op s b t h => restoreSem_of_calm h⟩
  | error e => exact hok.elim

end Sarena
