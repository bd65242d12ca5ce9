import Sarena.Endpoint.Disk

namespace Sarena

open Lib

/-!
# Endpoint — restoring from disk

What `read_endpoints` does to the directories of one endpoint: it restores the endpoint
from the directory that is chosen, keeps this choice between any two calls, and leaves no
other directory of the endpoint.  The other endpoints' directories do not matter.

* `Candidates` — the directories of an endpoint, as `collect_endpoint_dirs` groups them;
* `restoreDir_keeps`, `restoreDirs_keeps` — one endpoint, and the loop over all;
* `readEndpoints_keeps` — the whole function.
-/

/-! ### Grouping the directory names -/

/-- The candidates of `id` are its directories, each once. -/
structure Candidates (id : EndpointId) (v : DirView) (l : List (DirKind × String)) : Prop where
  mem : ∀ k name, (k, name) ∈ l ↔ v k ≠ none ∧ name = dirName id k
  nodup : l.Nodup

/-- The names that are state directories, each with its id and kind. -/
theorem mem_parsedDirs {names : List String} {i : EndpointId} {k : DirKind} {name : String} :
    (i, k, name) ∈ parsedDirs names ↔
      name ∈ names ∧ EndpointId.Allocatable i ∧ name = dirName i k := by
  rw [parsedDirs, List.mem_filterMap]
  constructor
  · rintro ⟨n, hn, h⟩
    obtain ⟨⟨i', k'⟩, hparse, heq⟩ := Option.map_eq_some_iff.mp h
    simp only [Prod.mk.injEq] at heq
    obtain ⟨rfl, rfl, rfl⟩ := heq
    exact ⟨hn, parseDirName_eq_some.mp hparse⟩
  · rintro ⟨hn, hparse⟩
    refine ⟨name, hn, ?_⟩
    rw [parseDirName_eq_some.mpr hparse]
    rfl

theorem nodup_parsedDirs {names : List String} (h : names.Nodup) : (parsedDirs names).Nodup := by
  refine List.Nodup.filterMap ?_ h
  rintro a a' b ha ha'
  obtain ⟨_, -, rfl⟩ := Option.map_eq_some_iff.mp ha
  obtain ⟨_, -, heq⟩ := Option.map_eq_some_iff.mp ha'
  simp only [Prod.mk.injEq] at heq
  exact heq.2.2.symm

theorem map_fst_groupDirs (names : List String) :
    (groupDirs names).map (·.1) = ((parsedDirs names).map (·.1)).dedup := by
  unfold groupDirs
  rw [List.map_map]
  exact List.map_id _

theorem nodup_groupDirs (names : List String) : ((groupDirs names).map (·.1)).Nodup := by
  rw [map_fst_groupDirs]
  exact List.nodup_dedup _

/-- What is grouped under an id are its directories. -/
theorem candidates_of_mem_groupDirs {names : List String} {fs : Fs} (hnodup : names.Nodup)
    (hnames : ∀ n, n ∈ names ↔ fs n ≠ none) {i : EndpointId} {l : List (DirKind × String)}
    (h : (i, l) ∈ groupDirs names) : Candidates i (view i fs) l := by
  obtain ⟨i', hi', heq⟩ := List.mem_map.mp h
  simp only [Prod.mk.injEq] at heq
  obtain ⟨rfl, rfl⟩ := heq
  have halloc : EndpointId.Allocatable i' := by
    obtain ⟨⟨i, k, name⟩, hmem, rfl⟩ := List.mem_map.mp (List.mem_dedup.mp hi')
    exact (mem_parsedDirs.mp hmem).2.1
  constructor
  · intro k name
    rw [List.mem_map]
    constructor
    · rintro ⟨⟨i, x⟩, hx, rfl⟩
      obtain ⟨hmem, hi⟩ := List.mem_filter.mp hx
      obtain rfl : i = i' := of_decide_eq_true hi
      obtain ⟨hname, -, rfl⟩ := mem_parsedDirs.mp hmem
      exact ⟨(hnames _).mp hname, rfl⟩
    · rintro ⟨hk, rfl⟩
      refine ⟨(i', k, dirName i' k), List.mem_filter.mpr ⟨?_, decide_eq_true rfl⟩, rfl⟩
      exact mem_parsedDirs.mpr ⟨(hnames _).mpr hk, halloc, rfl⟩
  · refine List.Nodup.map_on ?_ ((nodup_parsedDirs hnodup).filter _)
    rintro ⟨i, x⟩ hx ⟨j, y⟩ hy hxy
    obtain rfl : i = i' := of_decide_eq_true (List.mem_filter.mp hx).2
    obtain rfl : j = i := of_decide_eq_true (List.mem_filter.mp hy).2
    rw [show x = y from hxy]

/-- An allocatable id with a directory is grouped. -/
theorem mem_groupDirs {names : List String} {i : EndpointId} (hi : EndpointId.Allocatable i)
    {k : DirKind} (hname : dirName i k ∈ names) : i ∈ (groupDirs names).map (·.1) := by
  rw [map_fst_groupDirs, List.mem_dedup, List.mem_map]
  exact ⟨(i, k, dirName i k), mem_parsedDirs.mpr ⟨hname, hi, rfl⟩, rfl⟩

/-! ### Reading and choosing -/

/-- Reading a file changes nothing, and finds the endpoint that is stored in it. -/
def ReadsFiles {σ : Type} (sem : Sem WorkerOp σ) (disk : σ → Fs) : Prop :=
  ∀ dir file s b t, sem _ (.readFile dir file) s b t →
    t = s ∧ ∀ p, b = .ok (.json p) ↔ ∃ d, disk s dir = some d ∧ d file = some (.json p)

theorem readsFiles_diskSem : ReadsFiles diskSem id := by
  rintro dir file fs b t ⟨⟨hnone, e, rfl, -⟩ | ⟨d, c, hd, hc, rfl⟩, rfl⟩
  · refine ⟨rfl, fun p => iff_of_false nofun ?_⟩
    rintro ⟨d, hd, hp⟩
    rw [hnone d hd] at hp
    cases hp
  · refine ⟨rfl, fun p => ?_⟩
    rw [Except.ok.injEq]
    constructor
    · rintro rfl
      exact ⟨d, hd, hc⟩
    · rintro ⟨d', hd', hp⟩
      obtain rfl := Option.some.inj (hd.symm.trans hd')
      exact Option.some.inj (hc.symm.trans hp)

section

variable {id : EndpointId} {σ : Type} {sem : Sem WorkerOp σ} {disk : σ → Fs}

/-- `read_endpoint_dir` reads what can be read, and changes nothing. -/
theorem readEndpointDir_reads (hread : ReadsFiles sem disk) (k : DirKind) (s : σ) :
    (readEndpointDir id (dirName id k)).run.Guards sem (fun _ _ t => t = s)
      (fun r t => t = s ∧ ∀ p, r = .ok p ↔ readable id (view id (disk s)) k = some p) s := by
  refine ⟨rfl, fun b t h => ?_⟩
  obtain ⟨rfl, hb⟩ := hread _ _ _ _ _ h
  have hreadable : ∀ p, readable id (view id (disk t)) k = some p ↔
      b = .ok (.json p) ∧ p.id = id := by
    intro p
    rw [hb, readable, Option.bind_eq_some_iff]
    simp only [content_eq_some, exists_and_right, ← and_assoc]
    exact Iff.rfl
  have hnone : (∀ p, b ≠ .ok (.json p)) → ∀ p, readable id (view id (disk t)) k ≠ some p :=
    fun hother p hp => hother p ((hreadable p).mp hp).1
  cases b with
  | error e =>
    have hother := hnone (by rintro _ ⟨⟩)
    exact ⟨rfl, fun p => iff_of_false (by rintro ⟨⟩) (hother p)⟩
  | ok contents =>
    cases contents with
    | other =>
      have hother := hnone (by rintro _ ⟨⟩)
      exact ⟨rfl, fun p => iff_of_false (by rintro ⟨⟩) (hother p)⟩
    | json persist =>
      show Prog.Guards _ _ _ (if persist.id ≠ id then
        throw (.generalError _) else pure persist : FsM EndpointPersist).run t
      by_cases hid : persist.id = id
      · rw [if_neg (not_not.mpr hid)]
        refine ⟨rfl, fun p => Iff.trans ?_ (hreadable p).symm⟩
        constructor
        · intro hp
          obtain rfl := Except.ok.inj hp
          exact ⟨rfl, hid⟩
        · rintro ⟨hp, -⟩
          obtain rfl := FileContents.json.inj (Except.ok.inj hp)
          rfl
      · rw [if_pos hid]
        refine ⟨rfl, fun p => iff_of_false (by rintro ⟨⟩) fun hp => ?_⟩
        obtain ⟨hp, hpid⟩ := (hreadable p).mp hp
        obtain rfl := FileContents.json.inj (Except.ok.inj hp)
        exact hid hpid

/-- What choosing among candidates, counted from `index`, finds: a readable one with none
    before it that can be read, or that none can be read. -/
def FirstReadable (id : EndpointId) (v : DirView) (l : List (DirKind × String)) (index : Nat) :
    Option (EndpointPersist × Nat) → Prop
  | some (p, n) => ∃ l₁ c l₂, l = l₁ ++ c :: l₂ ∧ n = index + l₁.length ∧
      readable id v c.1 = some p ∧ ∀ c' ∈ l₁, readable id v c'.1 = none
  | none => ∀ c ∈ l, readable id v c.1 = none

/-- The chosen candidate is readable, and those before it are not. -/
theorem chooseDir_reads (hread : ReadsFiles sem disk) {l : List (DirKind × String)}
    (hl : ∀ c ∈ l, c.2 = dirName id c.1) (index : Nat) (s : σ) :
    (chooseDir id index l).Guards sem (fun _ _ t => t = s)
      (fun r t => t = s ∧ FirstReadable id (view id (disk s)) l index r) s := by
  induction l generalizing index with
  | nil => exact ⟨rfl, fun _ h => nomatch h⟩
  | cons c l ih =>
    obtain ⟨k, name⟩ := c
    obtain rfl : name = dirName id k := hl _ List.mem_cons_self
    refine Prog.guards_bind (readEndpointDir_reads hread k s) ?_
    rintro r t ⟨rfl, hr⟩
    cases r with
    -- The first candidate that reads is chosen, with nothing before it.
    | ok p =>
      exact ⟨rfl, [], _, l, rfl, rfl, (hr p).mp rfl, fun _ h => nomatch h⟩
    | error e =>
      -- One that does not read joins the list of those before the chosen one.
      have hnone : readable id (view id (disk t)) k = none := by
        cases hk : readable id (view id (disk t)) k with
        | none => rfl
        | some p => exact absurd ((hr p).mpr hk) nofun
      refine Prog.Guards.imp ?_
        (ih (fun c hc => hl c (List.mem_cons_of_mem _ hc)) (index + 1))
      rintro r u ⟨rfl, hcases⟩
      refine ⟨rfl, ?_⟩
      match r, hcases with
      | some (p, n), ⟨l₁, c, l₂, hl, hn, hread, hbefore⟩ =>
        refine ⟨(k, dirName id k) :: l₁, c, l₂, by rw [hl]; rfl, ?_, hread, ?_⟩
        · rw [hn, List.length_cons]
          omega
        · exact List.forall_mem_cons.mpr ⟨hnone, hbefore⟩
      | none, hall => exact List.forall_mem_cons.mpr ⟨hnone, hall⟩

end

section

variable {id : EndpointId} {fs : Fs} {I : Fs → Prop}

/-- Choosing a directory keeps what holds of the disk. -/
theorem chooseDir_keeps (hI : I fs) {l : List (DirKind × String)}
    (hl : ∀ c ∈ l, c.2 = dirName id c.1) (index : Nat) :
    (chooseDir id index l).Keeps diskSem I
      (fun r fs' => fs = fs' ∧ FirstReadable id (view id fs) l index r) fs := by
  refine (chooseDir_reads readsFiles_diskSem hl index fs).mono (fun _ _ t ht => ?_) ?_
  · rw [ht]
    exact hI
  · rintro r t ⟨rfl, hr⟩
    exact ⟨hI, rfl, hr⟩

/-! ### One endpoint -/

variable {kind : DirKind} {p : EndpointPersist}

/-- Removing directories that were not chosen keeps the choice. -/
theorem removeSuperseded_keeps (h : Chosen id (view id fs) kind p) {l : List (DirKind × String)}
    (hl : ∀ c ∈ l, c.2 = dirName id c.1 ∧ c.1 ≠ kind) :
    (removeSuperseded l).Keeps diskSem (fun fs' => Chosen id (view id fs') kind p)
      (fun _ fs' => ∀ k, view id fs k = none ∨ k ∈ l.map (·.1) → view id fs' k = none) fs := by
  induction l generalizing fs with
  | nil => exact ⟨h, by simp⟩
  | cons c l ih =>
    obtain ⟨k, name⟩ := c
    obtain ⟨hname, hk⟩ : name = dirName id k ∧ k ≠ kind := hl _ List.mem_cons_self
    subst hname
    refine ⟨h, fun b t ht => ?_⟩
    have hview := (disk_removeDirAll ht).2
    have hchosen : Chosen id (view id t) kind p := by
      rw [hview]
      exact h.update_none hk
    refine Prog.Guards.imp ?_
      (ih hchosen fun c hc => hl c (List.mem_cons_of_mem _ hc))
    rintro _ fs' ⟨hfs', hgone⟩
    refine ⟨hfs', fun j hj => hgone j ?_⟩
    rw [hview, Function.update_apply]
    by_cases hjk : j = k
    · exact .inl (if_pos hjk)
    · rw [if_neg hjk]
      rw [List.map_cons, List.mem_cons] at hj
      tauto

theorem perm_sortDirs (l : List (DirKind × String)) : (sortDirs l).Perm l :=
  List.perm_insertionSort _ l

theorem pairwise_sortDirs (l : List (DirKind × String)) :
    (sortDirs l).Pairwise fun a b => a.1.rank ≤ b.1.rank := by
  have htotal : Std.Total fun a b : DirKind × String => a.1.rank ≤ b.1.rank :=
    ⟨fun a b => Nat.le_total _ _⟩
  have htrans : IsTrans (DirKind × String) fun a b => a.1.rank ≤ b.1.rank :=
    ⟨fun a b c => Nat.le_trans⟩
  exact List.pairwise_insertionSort _ l

theorem Candidates.perm {v : DirView} {l l' : List (DirKind × String)} (h : Candidates id v l)
    (hl : l'.Perm l) : Candidates id v l' where
  mem k name := hl.mem_iff.trans (h.mem k name)
  nodup := hl.nodup_iff.mpr h.nodup

/-- In preference order the first readable candidate is the chosen directory. -/
theorem eq_chosen_of_sorted {v : DirView} (h : Chosen id v kind p)
    {l₁ l₂ : List (DirKind × String)} {c : DirKind × String} {q : EndpointPersist}
    (hcand : Candidates id v (l₁ ++ c :: l₂))
    (hsorted : (l₁ ++ c :: l₂).Pairwise fun a b => a.1.rank ≤ b.1.rank)
    (hread : readable id v c.1 = some q) (hbefore : ∀ c' ∈ l₁, readable id v c'.1 = none) :
    c.1 = kind ∧ q = p := by
  have hkind : c.1 = kind := by
    have hmem : (kind, dirName id kind) ∈ l₁ ++ c :: l₂ :=
      (hcand.mem _ _).mpr ⟨readable_ne_none (by rw [h.readable]; nofun), rfl⟩
    rw [List.mem_append, List.mem_cons] at hmem
    obtain hmem | rfl | hmem := hmem
    · have hnone := hbefore _ hmem
      rw [h.readable] at hnone
      cases hnone
    · rfl
    · have hle := List.rel_of_pairwise_cons (List.pairwise_append.mp hsorted).2.1 hmem
      exact DirKind.rank_inj (le_antisymm hle (h.rank_le (by rw [hread]; nofun)))
  rw [hkind, h.readable] at hread
  exact ⟨hkind, Option.some.inj hread.symm⟩

/-- **Restoring one endpoint.** The endpoint is restored from the chosen directory, which
    stays chosen throughout; afterwards its other directories are gone. -/
theorem restoreDir_keeps (h : Chosen id (view id fs) kind p) {l : List (DirKind × String)}
    (hl : Candidates id (view id fs) l) :
    (restoreDir id l).Keeps diskSem (fun fs' => Chosen id (view id fs') kind p)
      (fun r fs' => r = some p ∧ ∀ k ≠ kind, view id fs' k = none) fs := by
  have hcand := hl.perm (perm_sortDirs l)
  have hsorted := pairwise_sortDirs l
  unfold restoreDir
  generalize sortDirs l = l' at hcand hsorted ⊢
  have hnames : ∀ c ∈ l', c.2 = dirName id c.1 := fun c hc => ((hcand.mem c.1 c.2).mp hc).2
  refine Prog.keeps_bind (chooseDir_keeps h hnames 0) ?_
  rintro r _ - ⟨rfl, hcases⟩
  match r, hcases with
  | none, hall =>
    -- The chosen directory is among the candidates.
    have hmem : (kind, dirName id kind) ∈ l' :=
      (hcand.mem _ _).mpr ⟨readable_ne_none (by rw [h.readable]; nofun), rfl⟩
    have hnone := hall _ hmem
    rw [h.readable] at hnone
    cases hnone
  | some (q, n), ⟨l₁, c, l₂, hl', hn, hread, hbefore⟩ =>
    subst hl'
    obtain ⟨rfl, rfl⟩ := eq_chosen_of_sorted h hcand hsorted hread hbefore
    have herase : (l₁ ++ c :: l₂).eraseIdx n = l₁ ++ l₂ := by
      rw [hn, Nat.zero_add, List.eraseIdx_append_of_length_le (le_refl _), Nat.sub_self]
      rfl
    have hperm : (l₁ ++ c :: l₂).Perm (c :: (l₁ ++ l₂)) := List.perm_middle
    have hother : ∀ c' ∈ l₁ ++ l₂, c'.2 = dirName id c'.1 ∧ c'.1 ≠ c.1 := by
      intro c' hc'
      have hname := hnames c' (hperm.mem_iff.mpr (List.mem_cons_of_mem _ hc'))
      refine ⟨hname, fun hkind => ?_⟩
      have hc := hnames c (hperm.mem_iff.mpr List.mem_cons_self)
      have heq : c' = c := Prod.ext hkind (by rw [hname, hkind, hc])
      exact (List.nodup_cons.mp (hperm.nodup_iff.mp hcand.nodup)).1 (heq ▸ hc')
    simp only [herase]
    refine Prog.keeps_bind (removeSuperseded_keeps h hother) fun _ fs' hchosen hgone => ?_
    refine ⟨hchosen, rfl, fun k hk => hgone k ?_⟩
    by_cases hnone : view id fs k = none
    · exact .inl hnone
    · have hmem := hperm.mem_iff.mp ((hcand.mem k _).mpr ⟨hnone, rfl⟩)
      rw [List.mem_cons] at hmem
      obtain rfl | hmem := hmem
      · exact absurd rfl hk
      · exact .inr (List.mem_map.mpr ⟨_, hmem, rfl⟩)

/-! ### The other endpoints -/

/-- Calls that restoring other endpoints makes: they read, and remove nothing of `id`. -/
def WorkerOp.Foreign (id : EndpointId) : ∀ β : Type, WorkerOp β → Prop
  | _, .removeDirAll dir => ∀ k, dir ≠ dirName id k
  | _, .readFile _ _ => True
  | _, _ => False

/-- Foreign calls leave the directories of `id`. -/
theorem view_foreign {β : Type} {op : WorkerOp β} {b : β} {fs fs' : Fs}
    (hop : WorkerOp.Foreign id β op) (h : diskSem β op fs b fs') : view id fs' = view id fs := by
  cases op <;> simp only [WorkerOp.Foreign] at hop
  case removeDirAll dir =>
    obtain ⟨-, -, rfl⟩ | ⟨-, -, rfl⟩ := h
    · rfl
    · funext k
      rw [view, KeyMap.remove_of_ne _ (hop k).symm, view]
  case readFile dir file => rw [h.2]

section

variable {allowed : ∀ β : Type, WorkerOp β → Prop}

theorem readEndpointDir_uses (i : EndpointId) {dir : String}
    (hdir : allowed _ (.readFile dir epConfigName)) :
    (readEndpointDir i dir).run.Uses allowed := by
  refine ⟨hdir, fun b => ?_⟩
  cases b with
  | error e => trivial
  | ok c =>
    cases c with
    | other => trivial
    | json persist =>
      show (if persist.id ≠ i then throw (.generalError _) else pure persist :
        FsM EndpointPersist).run.Uses _
      split <;> trivial

theorem chooseDir_uses (i : EndpointId) (index : Nat) {l : List (DirKind × String)}
    (hl : ∀ c ∈ l, allowed _ (.readFile c.2 epConfigName)) :
    (chooseDir i index l).Uses allowed := by
  induction l generalizing index with
  | nil => trivial
  | cons c l ih =>
    refine Prog.uses_bind (readEndpointDir_uses i (hl c List.mem_cons_self)) fun r => ?_
    cases r with
    | ok p => trivial
    | error e => exact ih (index + 1) fun c hc => hl c (List.mem_cons_of_mem _ hc)

theorem removeSuperseded_uses {l : List (DirKind × String)}
    (hl : ∀ c ∈ l, allowed _ (.removeDirAll c.2)) : (removeSuperseded l).Uses allowed := by
  induction l with
  | nil => trivial
  | cons c l ih =>
    refine ⟨hl c List.mem_cons_self, fun b => ?_⟩
    exact ih fun c hc => hl c (List.mem_cons_of_mem _ hc)

/-- Restoring an endpoint reads and removes its candidates only. -/
theorem restoreDir_uses (i : EndpointId) {l : List (DirKind × String)}
    (hread : ∀ c ∈ l, allowed _ (.readFile c.2 epConfigName))
    (hremove : ∀ c ∈ l, allowed _ (.removeDirAll c.2)) : (restoreDir i l).Uses allowed := by
  have hsorted : ∀ c ∈ sortDirs l, c ∈ l := fun c hc => (perm_sortDirs l).mem_iff.mp hc
  refine Prog.uses_bind (chooseDir_uses i 0 fun c hc => hread c (hsorted c hc)) fun r => ?_
  cases r with
  | none => trivial
  | some r =>
    refine Prog.uses_bind (removeSuperseded_uses fun c hc => ?_) fun _ => trivial
    exact hremove c (hsorted c (List.mem_of_mem_eraseIdx hc))

end

/-- The names grouped under each id are directories of that id. -/
def NamesOwn (dirs : List (EndpointId × List (DirKind × String))) : Prop :=
  ∀ d ∈ dirs, ∀ c ∈ d.2, c.2 = dirName d.1 c.1

/-- Restoring another endpoint leaves the directories of `id`. -/
theorem restoreDir_other {i : EndpointId} (hi : i ≠ id) {l : List (DirKind × String)}
    (hl : ∀ c ∈ l, c.2 = dirName i c.1) :
    (restoreDir i l).Keeps diskSem (fun fs' => view id fs' = view id fs) (fun _ _ => True) fs := by
  have huses : (restoreDir i l).Uses (WorkerOp.Foreign id) := by
    refine restoreDir_uses i (fun _ _ => trivial) fun c hc k heq => hi ?_
    exact (dirName_inj ((hl c hc).symm.trans heq)).1
  exact huses.keeps _ (fun β op s b t hop hsem hs => (view_foreign hop hsem).trans hs) rfl

/-- Restoring only other endpoints leaves the directories of `id` and its entry. -/
theorem restoreDirs_other {dirs : List (EndpointId × List (DirKind × String))}
    (hown : NamesOwn dirs) (hid : id ∉ dirs.map (·.1)) {v : DirView} (hv : view id fs = v)
    (m : KeyMap EndpointId EndpointPersist) :
    (restoreDirs m dirs).Keeps diskSem (fun fs' => view id fs' = v) (fun m' _ => m' id = m id)
      fs := by
  subst hv
  induction dirs generalizing m fs with
  | nil => exact ⟨rfl, rfl⟩
  | cons d dirs ih =>
    obtain ⟨i, l⟩ := d
    rw [List.map_cons, List.mem_cons, not_or] at hid
    obtain ⟨hi, hid⟩ := hid
    have htail : NamesOwn dirs := fun d hd => hown d (List.mem_cons_of_mem _ hd)
    refine Prog.keeps_bind (restoreDir_other (Ne.symm hi) (hown _ List.mem_cons_self)) ?_
    rintro r t ht -
    rw [← ht]
    cases r with
    | none => exact ih htail hid m
    | some q =>
      refine Prog.Guards.imp ?_ (ih htail hid (m.insert i q))
      rintro m' fs' ⟨hfs', hm'⟩
      exact ⟨hfs', hm'.trans (KeyMap.insert_of_ne m q hi)⟩

/-! ### All endpoints -/

/-- **Step.** The loop restores `id` from its chosen directory, wherever it comes among the
    endpoints. -/
theorem restoreDirs_keeps {dirs : List (EndpointId × List (DirKind × String))}
    (h : Chosen id (view id fs) kind p) (hown : NamesOwn dirs) (hnodup : (dirs.map (·.1)).Nodup)
    (hid : id ∈ dirs.map (·.1)) (hcand : ∀ l, (id, l) ∈ dirs → Candidates id (view id fs) l)
    (m : KeyMap EndpointId EndpointPersist) :
    (restoreDirs m dirs).Keeps diskSem (fun fs' => Chosen id (view id fs') kind p)
      (fun m' fs' => m' id = some p ∧ ∀ k ≠ kind, view id fs' k = none) fs := by
  induction dirs generalizing m fs with
  | nil => cases hid
  | cons d dirs ih =>
    obtain ⟨i, l⟩ := d
    have htail : NamesOwn dirs := fun d hd => hown d (List.mem_cons_of_mem _ hd)
    obtain ⟨hi, hnodup⟩ := List.nodup_cons.mp hnodup
    -- Each id comes once: its own turn establishes the result and no other turn touches its
    -- directories.
    by_cases hii : i = id
    · subst hii
      refine Prog.keeps_bind (restoreDir_keeps h (hcand l List.mem_cons_self)) ?_
      rintro _ t hchosen ⟨rfl, hgone⟩
      refine Prog.Guards.mono (fun β op s hs => ?_) ?_
        (restoreDirs_other htail hi rfl (m.insert i p))
      · have hview : view i s = view i t := hs
        simp only [hview, hchosen]
      · rintro m' fs' ⟨hfs', hm'⟩
        have hview : view i fs' = view i t := hfs'
        simp only [hview]
        exact ⟨hchosen, hm'.trans (KeyMap.insert_self m i p), hgone⟩
    · rw [List.map_cons, List.mem_cons] at hid
      have hkeeps : (restoreDir i l).Keeps diskSem (fun fs' => Chosen id (view id fs') kind p)
          (fun _ fs' => view id fs' = view id fs) fs := by
        refine Prog.Guards.mono (fun β op s hs => ?_) (fun r s hs => ?_)
          (restoreDir_other hii (hown _ List.mem_cons_self))
        · have hview : view id s = view id fs := hs
          simp only [hview, h]
        · have hview : view id s = view id fs := hs.1
          simp only [hview]
          exact ⟨h, trivial⟩
      refine Prog.keeps_bind hkeeps ?_
      rintro r t hchosen ht
      have hcand' : ∀ l, (id, l) ∈ dirs → Candidates id (view id t) l := by
        rw [ht]
        exact fun l hl => hcand l (List.mem_cons_of_mem _ hl)
      have hid' := hid.resolve_left (Ne.symm hii)
      cases r with
      | none => exact ih hchosen htail hnodup hid' hcand' m
      | some q => exact ih hchosen htail hnodup hid' hcand' (m.insert i q)

theorem namesOwn_groupDirs (names : List String) : NamesOwn (groupDirs names) := by
  rintro d hd c hc
  obtain ⟨i, -, rfl⟩ := List.mem_map.mp hd
  obtain ⟨⟨j, k, name⟩, hx, rfl⟩ := List.mem_map.mp hc
  obtain ⟨hmem, hj⟩ := List.mem_filter.mp hx
  obtain rfl : j = i := of_decide_eq_true hj
  exact (mem_parsedDirs.mp hmem).2.2

/-- **Restoring.** `read_endpoints` restores the endpoint from the chosen directory.  Between
    any two of its calls this directory stays the chosen one, and in the end it is the only
    one the endpoint has. -/
theorem readEndpoints_keeps (hid : EndpointId.Allocatable id)
    (h : Chosen id (view id fs) kind p) :
    readEndpoints.run.Keeps diskSem (fun fs' => Chosen id (view id fs') kind p)
      (fun r fs' => ∃ m, r = .ok m ∧ m id = some p ∧ ∀ k ≠ kind, view id fs' k = none) fs := by
  refine ⟨h, fun b t ht => ?_⟩
  obtain ⟨⟨entries, rfl, hnodup, hnames⟩, rfl⟩ := ht
  have hname : dirName id kind ∈ listedDirs entries :=
    (hnames _).mpr (readable_ne_none (by rw [h.readable]; nofun))
  show Prog.Keeps _ _ _ (FsM.result (restoreDirs .empty (groupDirs (listedDirs entries)))).run t
  refine Prog.keeps_bind (restoreDirs_keeps h (namesOwn_groupDirs _) (nodup_groupDirs _)
    (mem_groupDirs hid hname) (fun l => candidates_of_mem_groupDirs hnodup hnames) .empty) ?_
  rintro m fs' hchosen ⟨hm, hgone⟩
  exact ⟨hchosen, m, rfl, hm, hgone⟩

end

/-! ### What is restored belongs to its id -/

section

variable {σ : Type} {sem : Sem WorkerOp σ}

/-- Every entry is the state of the endpoint it is listed under. -/
def EntriesOwn (m : KeyMap EndpointId EndpointPersist) : Prop := ∀ i p, m i = some p → p.id = i

theorem entriesOwn_empty : EntriesOwn .empty := by
  intro i p h
  cases h

theorem EntriesOwn.insert {m : KeyMap EndpointId EndpointPersist} (h : EntriesOwn m)
    {p : EndpointPersist} {i : EndpointId} (hp : p.id = i) : EntriesOwn (m.insert i p) := by
  intro j q hq
  rw [KeyMap.insert_apply] at hq
  split at hq
  next hj => rw [hj, ← Option.some.inj hq, hp]
  next => exact h j q hq

theorem readEndpointDir_own (id : EndpointId) (dir : String) (s : σ) :
    (readEndpointDir id dir).run.Guards sem (fun _ _ _ => True)
      (fun r _ => ∀ p, r = .ok p → p.id = id) s := by
  refine ⟨trivial, fun b t _ => ?_⟩
  match b with
  | .error e =>
    intro p hp
    cases hp
  | .ok .other =>
    intro p hp
    cases hp
  | .ok (.json persist) =>
    show Prog.Guards _ _ _ (if persist.id ≠ id then
      throw (.generalError _) else pure persist : FsM EndpointPersist).run t
    by_cases hid : persist.id = id
    · rw [if_neg (not_not.mpr hid)]
      intro p hp
      cases hp
      exact hid
    · rw [if_pos hid]
      intro p hp
      cases hp

theorem chooseDir_own (id : EndpointId) (index : Nat) (l : List (DirKind × String)) (s : σ) :
    (chooseDir id index l).Guards sem (fun _ _ _ => True)
      (fun r _ => ∀ c, r = some c → c.1.id = id) s := by
  induction l generalizing index s with
  | nil =>
    intro c hc
    cases hc
  | cons c l ih =>
    refine Prog.guards_bind (readEndpointDir_own id c.2 s) fun r t ht => ?_
    cases r with
    | error e => exact ih (index + 1) t
    | ok p =>
      intro c hc
      cases hc
      exact ht p rfl

theorem restoreDir_own (id : EndpointId) (l : List (DirKind × String)) (s : σ) :
    (restoreDir id l).Guards sem (fun _ _ _ => True) (fun r _ => ∀ p, r = some p → p.id = id)
      s := by
  refine Prog.guards_bind (chooseDir_own id 0 _ s) fun r t ht => ?_
  cases r with
  | none =>
    intro p hp
    cases hp
  | some c =>
    refine Prog.guards_bind (Prog.guards_true _ t) fun _ u _ => ?_
    intro p hp
    cases hp
    exact ht c rfl

theorem restoreDirs_own {m : KeyMap EndpointId EndpointPersist} (hm : EntriesOwn m)
    (dirs : List (EndpointId × List (DirKind × String))) (s : σ) :
    (restoreDirs m dirs).Guards sem (fun _ _ _ => True) (fun m' _ => EntriesOwn m') s := by
  induction dirs generalizing m s with
  | nil => exact hm
  | cons d dirs ih =>
    refine Prog.guards_bind (restoreDir_own d.1 d.2 s) fun r t ht => ?_
    cases r with
    | none => exact ih hm t
    | some p => exact ih (hm.insert (ht p rfl)) t

/-- `read_endpoints` lists every entry under its own id, whatever its calls answer. -/
theorem readEndpoints_own (s : σ) :
    readEndpoints.run.Guards sem (fun _ _ _ => True)
      (fun r _ => ∀ m, r = .ok m → EntriesOwn m) s := by
  unfold readEndpoints
  rw [ExceptT.run_bind]
  refine Prog.guards_bind (Prog.guards_true collectEndpointDirs.run s) fun dirs t _ => ?_
  cases dirs with
  | error e =>
    intro m hm
    cases hm
  | ok dirs =>
    refine Prog.guards_bind (restoreDirs_own entriesOwn_empty dirs t) fun m u hm => ?_
    intro m' hm'
    cases hm'
    exact hm

end

end Sarena
