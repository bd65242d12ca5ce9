import Sarena.Endpoint.RestoreOld

namespace Sarena

open Lib

/-!
# Endpoint — what a restore selects and cleans

`read_endpoints` on a disk whose removals may fail, also halfway.  It removes the directories
of an endpoint that it does not prefer to the one it restores the endpoint from, and no
others; whatever becomes of the removals, a second restore selects the same.

* `cleaningSem` — such a disk; `LeftOf` — what a removal leaves of a directory;
* `Cleaned` — the removals of a trace, and what they did to the disk;
* `restoreDir_cleans`, `restoreDirs_cleans` — one endpoint, and the loop over all;
* `Cleaned.chosen_iff` — a disk that is cleaned so prefers what it preferred before;
* `readEndpoints_selects` — the whole function, in a state directory of directories only.
-/

/-! ### Removals that fail -/

/-- What is left of a directory: nothing, or the directory with some of its files. -/
def LeftOf (after before : Option StateDir) : Prop :=
  ∀ d', after = some d' → ∃ d, before = some d ∧ ∀ file, d' file = none ∨ d' file = d file

/-- The disk while `read_endpoints` runs.  A removal that fails may have taken some of the files
    before; a file that holds no endpoint may also fail to be read. -/
def cleaningSem : Sem WorkerOp Fs
  | _, .removeDirAll dir, fs, r, fs' =>
    diskSem _ (.removeDirAll dir) fs r fs' ∨ ((∃ e, r = .error e) ∧
      ∃ after, LeftOf after (fs dir) ∧ fs' = Function.update fs dir after)
  | _, .readFile dir file, fs, r, fs' =>
    diskSem _ (.readFile dir file) fs r fs' ∨ ((∃ e, r = .error e) ∧ fs' = fs ∧
      ∀ d p, fs dir = some d → d file ≠ some (.json p))
  | _, op, fs, r, fs' => diskSem _ op fs r fs'

/-- The removal that a call is, with its answer. -/
def removal : Answered WorkerOp → List (String × IoResult Unit)
  | ⟨.removeDirAll dir, r⟩ => [(dir, r)]
  | _ => []

/-- The removals of a trace. -/
def removals (tr : List (Answered WorkerOp)) : List (String × IoResult Unit) := tr.flatMap removal

/-- Takes one answered call into account. -/
def noteRemoval (w : List (String × IoResult Unit)) (a : Answered WorkerOp) :
    List (String × IoResult Unit) := w ++ removal a

theorem foldl_noteRemoval (tr : List (Answered WorkerOp)) (w : List (String × IoResult Unit)) :
    tr.foldl noteRemoval w = w ++ removals tr := by
  induction tr generalizing w with
  | nil => exact (List.append_nil w).symm
  | cons a tr ih =>
    rw [List.foldl_cons, ih, noteRemoval, List.append_assoc]
    rfl

/-- The disk, with the removals noted beside it. -/
abbrev notedSem : Sem WorkerOp (Fs × List (String × IoResult Unit)) :=
  observed cleaningSem noteRemoval

theorem readsFiles_notedSem : ReadsFiles notedSem Prod.fst := by
  rintro dir file s b t ⟨h | ⟨⟨e, rfl⟩, hfs, hnone⟩, hnote⟩
  · obtain ⟨hfs, hb⟩ := readsFiles_diskSem dir file s.1 b t.1 h
    exact ⟨Prod.ext hfs (hnote.trans (List.append_nil _)), hb⟩
  · refine ⟨Prod.ext hfs (hnote.trans (List.append_nil _)), fun p => iff_of_false nofun ?_⟩
    rintro ⟨d, hd, hp⟩
    exact hnone d p hd hp

section

variable {id : EndpointId} {fs fs' fs'' : Fs} {S S' : String → Prop}
  {calls calls' : List (String × IoResult Unit)}

theorem leftOf_none (before : Option StateDir) : LeftOf none before := fun _ h => nomatch h

theorem LeftOf.refl (o : Option StateDir) : LeftOf o o := fun d h => ⟨d, h, fun _ => .inr rfl⟩

theorem LeftOf.trans {o o' o'' : Option StateDir} (h' : LeftOf o'' o') (h : LeftOf o' o) :
    LeftOf o'' o := by
  intro d'' hd''
  obtain ⟨d', hd', hfiles'⟩ := h' d'' hd''
  obtain ⟨d, hd, hfiles⟩ := h d' hd'
  refine ⟨d, hd, fun file => ?_⟩
  obtain hnone | hsame := hfiles' file
  · exact .inl hnone
  · rw [hsame]
    exact hfiles file

/-- An endpoint that can be read from what is left could be read before. -/
theorem LeftOf.content {o o' : Option StateDir} (h : LeftOf o' o) {p : EndpointPersist}
    (hp : o'.bind (content id) = some p) : o.bind (content id) = some p := by
  obtain ⟨d', hd', hp⟩ := Option.bind_eq_some_iff.mp hp
  obtain ⟨hfile, hid⟩ := content_eq_some.mp hp
  obtain ⟨d, rfl, hfiles⟩ := h d' hd'
  obtain hnone | hsame := hfiles epConfigName
  · rw [hnone] at hfile
    cases hfile
  · exact content_eq_some.mpr ⟨hsame.symm.trans hfile, hid⟩

/-! ### The removals and what they leave -/

/-- The removals `calls` were made of exactly the directories `S`, and nothing else was done to
    the disk. -/
structure Cleaned (S : String → Prop) (fs fs' : Fs) (calls : List (String × IoResult Unit)) :
    Prop where
  removed : ∀ dir, dir ∈ calls.map Prod.fst ↔ S dir
  gone : ∀ dir, (dir, .ok ()) ∈ calls → fs' dir = none
  left : ∀ dir, LeftOf (fs' dir) (fs dir)
  untouched : ∀ dir, ¬ S dir → fs' dir = fs dir

theorem Cleaned.nil (fs : Fs) (h : ∀ dir, ¬ S dir) : Cleaned S fs fs [] where
  removed dir := iff_of_false (List.not_mem_nil) (h dir)
  gone _ h := absurd h List.not_mem_nil
  left _ := .refl _
  untouched _ _ := rfl

theorem Cleaned.congr (h : Cleaned S fs fs' calls) (hS : ∀ dir, S dir ↔ S' dir) :
    Cleaned S' fs fs' calls where
  removed dir := (h.removed dir).trans (hS dir)
  gone := h.gone
  left := h.left
  untouched dir hdir := h.untouched dir fun hs => hdir ((hS dir).mp hs)

/-- One cleaning after another. -/
theorem Cleaned.trans (h : Cleaned S fs fs' calls) (h' : Cleaned S' fs' fs'' calls') :
    Cleaned (fun dir => S dir ∨ S' dir) fs fs'' (calls ++ calls') where
  removed dir := by
    rw [List.map_append, List.mem_append, h.removed, h'.removed]
  gone dir hdir := by
    rcases List.mem_append.mp hdir with hdir | hdir
    · -- What is gone stays gone: nothing is left of nothing.
      cases hfs'' : fs'' dir with
      | none => rfl
      | some d =>
        obtain ⟨d', hd', -⟩ := h'.left dir d hfs''
        rw [h.gone dir hdir] at hd'
        cases hd'
    · exact h'.gone dir hdir
  left dir := (h'.left dir).trans (h.left dir)
  untouched dir hdir := by
    rw [not_or] at hdir
    rw [h'.untouched dir hdir.2, h.untouched dir hdir.1]

/-- One removal, whatever becomes of it. -/
theorem cleaned_removeDirAll {dir : String} {r : IoResult Unit}
    (h : cleaningSem _ (.removeDirAll dir) fs r fs') : Cleaned (· = dir) fs fs' [(dir, r)] := by
  have hleft : LeftOf (fs' dir) (fs dir) ∧ (r = .ok () → fs' dir = none) ∧
      ∀ n, n ≠ dir → fs' n = fs n := by
    obtain (⟨-, ⟨e, rfl, -⟩, rfl⟩ | ⟨-, rfl, rfl⟩) | ⟨⟨e, rfl⟩, after, hafter, rfl⟩ := h
    · exact ⟨.refl _, nofun, fun _ _ => rfl⟩
    · refine ⟨?_, fun _ => KeyMap.remove_self _ _, fun n hn => KeyMap.remove_of_ne _ hn⟩
      rw [KeyMap.remove_self]
      exact leftOf_none _
    · refine ⟨?_, nofun, fun n hn => Function.update_of_ne hn _ _⟩
      rw [Function.update_self]
      exact hafter
  obtain ⟨hleft, hgone, hsame⟩ := hleft
  constructor
  · simp
  · intro n hn
    obtain ⟨rfl, hr⟩ := Prod.mk.inj (List.mem_singleton.mp hn)
    exact hgone hr.symm
  · intro n
    by_cases hn : n = dir
    · rw [hn]
      exact hleft
    · rw [hsame n hn]
      exact .refl _
  · exact hsame

/-- Removing superseded directories, one after another. -/
theorem removeSuperseded_cleans (l : List (DirKind × String)) (fs : Fs)
    (w : List (String × IoResult Unit)) :
    (removeSuperseded l).Guards notedSem (fun _ _ _ => True)
      (fun _ t => ∃ calls, t.2 = w ++ calls ∧ Cleaned (· ∈ l.map Prod.snd) fs t.1 calls)
      (fs, w) := by
  induction l generalizing fs w with
  | nil => exact ⟨[], (List.append_nil w).symm, .nil fs fun _ => List.not_mem_nil⟩
  | cons c l ih =>
    refine ⟨trivial, fun r t ht => ?_⟩
    obtain ⟨t, w'⟩ := t
    obtain ⟨hremove, rfl⟩ := ht
    refine Prog.Guards.imp ?_ (ih t _)
    rintro _ u ⟨calls, hu, hcleaned⟩
    refine ⟨(c.2, r) :: calls, ?_, ?_⟩
    · rw [hu]
      exact List.append_assoc _ _ _
    · refine ((cleaned_removeDirAll hremove).trans hcleaned).congr fun dir => ?_
      rw [List.map_cons, List.mem_cons]

/-! ### One endpoint -/

/-- Two choices for an endpoint are the same. -/
theorem Chosen.unique {v : DirView} {k k' : DirKind} {p p' : EndpointPersist}
    (h : Chosen id v k p) (h' : Chosen id v k' p') : k = k' ∧ p = p' := by
  have hk : k = k' := DirKind.rank_inj (le_antisymm
    (h.rank_le (by rw [h'.readable]; nofun)) (h'.rank_le (by rw [h.readable]; nofun)))
  subst hk
  exact ⟨rfl, Option.some.inj (h.readable.symm.trans h'.readable)⟩

/-- A directory of the endpoint, other than the one it is restored from. -/
def SupersededOf (id : EndpointId) (fs : Fs) (dir : String) : Prop :=
  fs dir ≠ none ∧ ∃ k p, Chosen id (view id fs) k p ∧ ∃ k' ≠ k, dir = dirName id k'

theorem supersededOf_iff {kind : DirKind} {p : EndpointPersist}
    (h : Chosen id (view id fs) kind p) {dir : String} :
    SupersededOf id fs dir ↔ fs dir ≠ none ∧ ∃ k ≠ kind, dir = dirName id k := by
  constructor
  · rintro ⟨hdir, k, q, hchosen, hother⟩
    obtain ⟨rfl, -⟩ := hchosen.unique h
    exact ⟨hdir, hother⟩
  · rintro ⟨hdir, hother⟩
    exact ⟨hdir, kind, p, h, hother⟩

/-- What is found among the sorted candidates is what is chosen. -/
theorem chosen_of_firstReadable {v : DirView} {l : List (DirKind × String)}
    (hcand : Candidates id v l) (hsorted : l.Pairwise fun a b => a.1.rank ≤ b.1.rank) {index : Nat}
    {r : Option (EndpointPersist × Nat)} (h : FirstReadable id v l index r) (p : EndpointPersist) :
    r.map Prod.fst = some p ↔ ∃ k, Chosen id v k p := by
  match r, h with
  | none, hall =>
    refine iff_of_false nofun ?_
    rintro ⟨k, hk⟩
    have hmem : (k, dirName id k) ∈ l :=
      (hcand.mem _ _).mpr ⟨readable_ne_none (by rw [hk.readable]; nofun), rfl⟩
    have hnone := hall _ hmem
    rw [hk.readable] at hnone
    cases hnone
  | some (q, n), ⟨l₁, c, l₂, hl, _, hread, hbefore⟩ =>
    subst hl
    obtain ⟨kind, q', hchosen⟩ := Present.chosen ⟨c.1, by rw [hread]; nofun⟩
    obtain ⟨-, rfl⟩ := eq_chosen_of_sorted hchosen hcand hsorted hread hbefore
    constructor
    · intro hq
      obtain rfl : q = p := Option.some.inj hq
      exact ⟨kind, hchosen⟩
    · rintro ⟨k, hk⟩
      obtain ⟨-, rfl⟩ := hk.unique hchosen
      rfl

/-- The candidates but one, by their names. -/
theorem mem_map_eraseIdx {v : DirView} {l₁ l₂ : List (DirKind × String)} {c : DirKind × String}
    (hcand : Candidates id v (l₁ ++ c :: l₂)) {dir : String} :
    dir ∈ ((l₁ ++ c :: l₂).eraseIdx l₁.length).map Prod.snd ↔
      ∃ k ≠ c.1, v k ≠ none ∧ dir = dirName id k := by
  have herase : (l₁ ++ c :: l₂).eraseIdx l₁.length = l₁ ++ l₂ := by
    rw [List.eraseIdx_append_of_length_le (le_refl _), Nat.sub_self]
    rfl
  have hperm : (l₁ ++ c :: l₂).Perm (c :: (l₁ ++ l₂)) := List.perm_middle
  have hnodup := List.nodup_cons.mp (hperm.nodup_iff.mp hcand.nodup)
  have hname : c.2 = dirName id c.1 :=
    ((hcand.mem c.1 c.2).mp (hperm.mem_iff.mpr List.mem_cons_self)).2
  rw [herase, List.mem_map]
  constructor
  · rintro ⟨⟨k, name⟩, hmem, rfl⟩
    obtain ⟨hk, rfl⟩ := (hcand.mem k name).mp (hperm.mem_iff.mpr (List.mem_cons_of_mem _ hmem))
    refine ⟨k, ?_, hk, rfl⟩
    rintro rfl
    exact hnodup.1 (by rwa [show (c.1, dirName id c.1) = c from Prod.ext rfl hname.symm] at hmem)
  · rintro ⟨k, hne, hk, rfl⟩
    refine ⟨(k, dirName id k), ?_, rfl⟩
    refine (List.mem_cons.mp (hperm.mem_iff.mp ((hcand.mem k _).mpr ⟨hk, rfl⟩))).resolve_left ?_
    rintro rfl
    exact hne rfl

/-- **Restoring one endpoint.** It is restored from the chosen directory, if there is one, and
    then the other directories are removed. -/
theorem restoreDir_cleans {l : List (DirKind × String)} (hl : Candidates id (view id fs) l)
    (w : List (String × IoResult Unit)) :
    (restoreDir id l).Guards notedSem (fun _ _ _ => True)
      (fun r t => (∀ p, r = some p ↔ ∃ k, Chosen id (view id fs) k p) ∧
        ∃ calls, t.2 = w ++ calls ∧ Cleaned (SupersededOf id fs) fs t.1 calls) (fs, w) := by
  have hcand := hl.perm (perm_sortDirs l)
  have hsorted := pairwise_sortDirs l
  unfold restoreDir
  generalize sortDirs l = l' at hcand hsorted ⊢
  have hnames : ∀ c ∈ l', c.2 = dirName id c.1 := fun c hc => ((hcand.mem c.1 c.2).mp hc).2
  refine Prog.guards_bind ((chooseDir_reads readsFiles_notedSem hnames 0 (fs, w)).mono
    (fun _ _ _ _ => trivial) fun _ _ h => h) ?_
  rintro r _ ⟨rfl, hfirst⟩
  have hchosen := chosen_of_firstReadable hcand hsorted hfirst
  match r, hfirst with
  | none, _ =>
    refine ⟨hchosen, [], (List.append_nil w).symm, .nil fs ?_⟩
    rintro dir ⟨-, k, p, hk, -⟩
    exact nomatch (hchosen p).mpr ⟨k, hk⟩
  | some (q, n), ⟨l₁, c, l₂, hl', hn, hread, hbefore⟩ =>
    subst hl'
    rw [Nat.zero_add] at hn
    subst hn
    obtain ⟨kind, hkind⟩ := (hchosen q).mp rfl
    obtain ⟨hc, -⟩ := eq_chosen_of_sorted hkind hcand hsorted hread hbefore
    refine Prog.guards_bind (removeSuperseded_cleans _ fs w) ?_
    rintro _ t ⟨calls, ht, hcleaned⟩
    refine ⟨hchosen, calls, ht, hcleaned.congr fun dir => ?_⟩
    rw [mem_map_eraseIdx hcand, supersededOf_iff hkind, hc]
    constructor
    · rintro ⟨k, hne, hk, rfl⟩
      exact ⟨hk, k, hne, rfl⟩
    · rintro ⟨hk, k, hne, rfl⟩
      exact ⟨k, hne, hk, rfl⟩

/-! ### All endpoints -/

/-- Cleaning one endpoint leaves the directories of the others. -/
theorem Cleaned.view_of_ne {i : EndpointId} (h : Cleaned (SupersededOf id fs) fs fs' calls)
    (hi : i ≠ id) : view i fs' = view i fs := by
  funext k
  refine h.untouched _ ?_
  rintro ⟨-, -, -, -, k', -, heq⟩
  exact hi (dirName_inj heq).1

theorem supersededOf_congr {i : EndpointId} (h : view i fs' = view i fs) {dir : String} :
    SupersededOf i fs' dir ↔ SupersededOf i fs dir := by
  have hdir : ∀ k, fs' (dirName i k) = fs (dirName i k) := congrFun h
  unfold SupersededOf
  rw [h]
  constructor
  · rintro ⟨hne, k, p, hchosen, k', hk', rfl⟩
    exact ⟨by rwa [hdir] at hne, k, p, hchosen, k', hk', rfl⟩
  · rintro ⟨hne, k, p, hchosen, k', hk', rfl⟩
    exact ⟨by rwa [← hdir] at hne, k, p, hchosen, k', hk', rfl⟩

/-- What the loop leaves of the endpoints `ids` it went through, from the map `m` and the
    disk `fs`. -/
structure Swept (ids : List EndpointId) (fs : Fs) (w : List (String × IoResult Unit))
    (m m' : KeyMap EndpointId EndpointPersist) (t : Fs × List (String × IoResult Unit)) :
    Prop where
  entries : ∀ i ∈ ids, ∀ p, m' i = some p ↔ ∃ k, Chosen i (view i fs) k p
  others : ∀ i ∉ ids, m' i = m i
  cleaned : ∃ calls, t.2 = w ++ calls ∧
    Cleaned (fun dir => ∃ i ∈ ids, SupersededOf i fs dir) fs t.1 calls

/-- **Step.** The loop restores each endpoint it comes to from the disk as it was at the
    start, as no other endpoint's turn touches its directories. -/
theorem restoreDirs_cleans {dirs : List (EndpointId × List (DirKind × String))}
    (hnodup : (dirs.map (·.1)).Nodup) (hcand : ∀ d ∈ dirs, Candidates d.1 (view d.1 fs) d.2)
    {m : KeyMap EndpointId EndpointPersist} (hm : ∀ i ∈ dirs.map (·.1), m i = none)
    (w : List (String × IoResult Unit)) :
    (restoreDirs m dirs).Guards notedSem (fun _ _ _ => True)
      (Swept (dirs.map (·.1)) fs w m) (fs, w) := by
  induction dirs generalizing m fs w with
  | nil =>
    refine ⟨(fun _ h => nomatch h), fun _ _ => rfl, [], (List.append_nil w).symm, .nil fs ?_⟩
    rintro dir ⟨i, hi, -⟩
    cases hi
  | cons d dirs ih =>
    obtain ⟨id, l⟩ := d
    obtain ⟨hid, hnodup⟩ := List.nodup_cons.mp hnodup
    refine Prog.guards_bind (restoreDir_cleans (hcand _ List.mem_cons_self) w) ?_
    rintro r ⟨t, w'⟩ ⟨hr, calls, rfl, hcleaned⟩
    have hview : ∀ i ∈ dirs.map (·.1), view i t = view i fs := by
      intro i hi
      refine hcleaned.view_of_ne ?_
      rintro rfl
      exact hid hi
    have hcand' : ∀ d ∈ dirs, Candidates d.1 (view d.1 t) d.2 := by
      intro d hd
      rw [hview d.1 (List.mem_map_of_mem hd)]
      exact hcand d (List.mem_cons_of_mem _ hd)
    have hm' : ∀ i ∈ dirs.map (·.1), m i = none := fun i hi => hm i (List.mem_cons_of_mem _ hi)
    -- Whether the endpoint was restored or not, the rest of the loop takes over its entry.
    have hrest : ∀ m₁ : KeyMap EndpointId EndpointPersist,
        (∀ p, m₁ id = some p ↔ r = some p) → (∀ i ≠ id, m₁ i = m i) →
        (restoreDirs m₁ dirs).Guards notedSem (fun _ _ _ => True)
          (Swept (((id, l) :: dirs).map (·.1)) fs w m) (t, w ++ calls) := by
      intro m₁ hm₁ hother
      have hnone : ∀ i ∈ dirs.map (·.1), m₁ i = none := by
        intro i hi
        rw [hother i (fun heq => hid (heq ▸ hi)), hm' i hi]
      refine Prog.Guards.imp ?_ (ih hnodup hcand' hnone (w ++ calls))
      rintro m₂ u ⟨hentries, hkept, calls', hu, hcleaned'⟩
      refine ⟨?_, ?_, calls ++ calls', ?_, ?_⟩
      · intro i hi p
        rcases List.mem_cons.mp hi with rfl | hi
        · rw [hkept _ hid, hm₁, hr]
        · rw [hentries i hi, hview i hi]
      · intro i hi
        obtain ⟨hne, hi⟩ := not_or.mp fun h => hi (List.mem_cons.mpr h)
        rw [hkept i hi, hother i hne]
      · rw [hu, List.append_assoc]
      · refine (hcleaned.trans hcleaned').congr fun dir => ?_
        rw [List.map_cons]
        simp only [List.mem_cons, exists_eq_or_imp]
        refine or_congr_right ?_
        exact exists_congr fun i => and_congr_right fun hi => supersededOf_congr (hview i hi)
    cases r with
    | none =>
      refine hrest m (fun p => ?_) fun _ _ => rfl
      rw [hm id List.mem_cons_self]
    | some q =>
      refine hrest (m.insert id q) (fun p => ?_) fun i hi => KeyMap.insert_of_ne m q hi
      rw [KeyMap.insert_self]

/-- A directory that `read_endpoints` removes: one of an endpoint that it restores from another
    directory. -/
def Superseded (fs : Fs) (dir : String) : Prop :=
  ∃ i, EndpointId.Allocatable i ∧ SupersededOf i fs dir

/-- What `read_endpoints` is for: `m` has every endpoint that can be read, from the directory
    that is preferred, and the directories that this supersedes were removed. -/
structure Restores (fs fs' : Fs) (m : KeyMap EndpointId EndpointPersist)
    (calls : List (String × IoResult Unit)) : Prop where
  entries : ∀ i p, m i = some p ↔ EndpointId.Allocatable i ∧ ∃ k, Chosen i (view i fs) k p
  cleaned : Cleaned (Superseded fs) fs fs' calls

theorem readEndpoints_cleans (fs : Fs) :
    readEndpoints.run.Guards notedSem (fun _ _ _ => True)
      (fun r t => ∃ m, r = .ok m ∧ Restores fs t.1 m t.2) (fs, []) := by
  refine ⟨trivial, fun b t ht => ?_⟩
  obtain ⟨t, w⟩ := t
  obtain ⟨⟨⟨entries, rfl, hnodup, hnames⟩, hfs⟩, hw⟩ := ht
  obtain rfl : t = fs := hfs
  obtain rfl : w = [] := hw
  generalize hlisted : listedDirs entries = names at hnodup hnames
  show Prog.Guards _ _ _
    (FsM.result (restoreDirs .empty (groupDirs (listedDirs entries)))).run (t, [])
  rw [hlisted]
  refine Prog.guards_bind (restoreDirs_cleans (nodup_groupDirs names)
    (fun d hd => candidates_of_mem_groupDirs hnodup hnames hd) (fun _ _ => rfl) []) ?_
  rintro m u ⟨hentries, hothers, calls, hu, hcleaned⟩
  -- The ids that are grouped are the allocatable ones with a directory.
  have halloc : ∀ i ∈ (groupDirs names).map (·.1), EndpointId.Allocatable i := by
    intro i hi
    obtain ⟨d, hd, rfl⟩ := List.mem_map.mp hi
    exact allocatable_groupDirs names d hd
  have hgrouped : ∀ i k p, EndpointId.Allocatable i → Chosen i (view i t) k p →
      i ∈ (groupDirs names).map (·.1) := fun i k p hi hk =>
    mem_groupDirs hi ((hnames _).mpr (readable_ne_none (by rw [hk.readable]; nofun)))
  refine ⟨m, rfl, fun i p => ?_, ?_⟩
  · by_cases hi : i ∈ (groupDirs names).map (·.1)
    · rw [hentries i hi, and_iff_right (halloc i hi)]
    · rw [hothers i hi]
      refine iff_of_false nofun ?_
      rintro ⟨hid, k, hk⟩
      exact hi (hgrouped i k p hid hk)
  · rw [hu]
    refine hcleaned.congr fun dir => ?_
    constructor
    · rintro ⟨i, hi, hsup⟩
      exact ⟨i, halloc i hi, hsup⟩
    · rintro ⟨i, hid, hne, k, p, hk, hother⟩
      exact ⟨i, hgrouped i k p hid hk, hne, k, p, hk, hother⟩

/-! ### The next restore -/

/-- Cleaning what is superseded does not change what is preferred. -/
theorem Cleaned.chosen_iff (h : Cleaned (Superseded fs) fs fs' calls) {i : EndpointId}
    {p : EndpointPersist} :
    (∃ k, Chosen i (view i fs') k p) ↔ ∃ k, Chosen i (view i fs) k p := by
  have hleft : ∀ k q, readable i (view i fs') k = some q → readable i (view i fs) k = some q :=
    fun k q hq => (h.left (dirName i k)).content hq
  have hkeep : ∀ k q, Chosen i (view i fs) k q → Chosen i (view i fs') k q := by
    intro k q hk
    constructor
    · have hsame : view i fs' k = view i fs k := by
        refine h.untouched _ ?_
        rintro ⟨j, -, -, k', q', hk', k'', hne, heq⟩
        obtain ⟨rfl, rfl⟩ := dirName_inj heq
        exact hne (hk.unique hk').1
      rw [readable, hsame]
      exact hk.readable
    · intro j hj
      cases hread : readable i (view i fs') j with
      | none => rfl
      | some q' =>
        have hbefore := hleft j q' hread
        rw [hk.first j hj] at hbefore
        cases hbefore
  constructor
  · rintro ⟨k, hk⟩
    have hsome : readable i (view i fs) k ≠ none := by
      rw [hleft k p hk.readable]
      exact Option.some_ne_none p
    obtain ⟨k', q, hchosen⟩ := Present.chosen ⟨k, hsome⟩
    obtain ⟨-, rfl⟩ := (hkeep k' q hchosen).unique hk
    exact ⟨k', hchosen⟩
  · rintro ⟨k, hk⟩
    exact ⟨k, hkeep k p hk⟩

/-- **Selecting and cleaning.** Whatever directories there are and whatever
    becomes of the removals: it lists every endpoint that can be read, from the directory that
    is preferred, and removes the other directories of these endpoints; where nothing can be
    read and where a name is not one of a state directory, nothing is touched; and a second
    restore lists the same. -/
theorem readEndpoints_selects {tr : List (Answered WorkerOp)}
    {r : Res (KeyMap EndpointId EndpointPersist)}
    (h : Exec cleaningSem readEndpoints.run fs tr (.pure r) fs') :
    ∃ m, r = .ok m ∧ Restores fs fs' m (removals tr) ∧
      (∀ i, (∀ k, readable i (view i fs) k = none) → view i fs' = view i fs) ∧
      (∀ name, parseDirName name = none → fs' name = fs name) ∧
      ∀ tr' r' fs'', Exec cleaningSem readEndpoints.run fs' tr' (.pure r') fs'' → r' = .ok m := by
  have hrestores : ∀ {fs fs' tr r}, Exec cleaningSem readEndpoints.run fs tr (.pure r) fs' →
      ∃ m, r = .ok m ∧ Restores fs fs' m (removals tr) := by
    intro fs fs' tr r h
    have hend := (readEndpoints_cleans fs).exec (h.observed [])
    rw [foldl_noteRemoval, List.nil_append] at hend
    exact hend
  obtain ⟨m, rfl, hm⟩ := hrestores h
  refine ⟨m, rfl, hm, fun i hnone => ?_, fun name hname => ?_, fun tr' r' fs'' h' => ?_⟩
  · funext k
    refine hm.cleaned.untouched _ ?_
    rintro ⟨j, -, -, k', p, hk, k'', -, heq⟩
    obtain ⟨rfl, -⟩ := dirName_inj heq
    have hread := hk.readable
    rw [hnone k'] at hread
    cases hread
  · refine hm.cleaned.untouched _ ?_
    rintro ⟨i, hi, -, -, -, -, k, -, rfl⟩
    rw [parseDirName_eq_some.mpr ⟨hi, rfl⟩] at hname
    cases hname
  · obtain ⟨m', rfl, hm'⟩ := hrestores h'
    congr 1
    funext i
    ext p
    rw [hm'.entries, hm.entries, hm.cleaned.chosen_iff]

end

end Sarena
