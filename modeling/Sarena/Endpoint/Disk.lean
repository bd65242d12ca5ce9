import Sarena.Endpoint.Regenerate

namespace Sarena

open Lib

/-!
# Endpoint — the state directories on disk

The meaning of the file-system calls on a disk whose calls are atomic, durable and succeed
whenever they can: a call fails only because something does not exist, or because a rename
would replace a directory that is not empty.

* `Fs`, `diskSem` — the directories with their files, and what each call does to them;
  `faultySem` — the same where any call may fail;
* `view` — the four directories of one endpoint; what is proved about an endpoint depends
  on its view only;
* `readable`, `Chosen` — what `read_endpoints` can read from a view, and what it prefers;
* `Fs.Listed`, `diskSem_total` — on a disk of finitely many directories every call has an
  answer.
-/

/-- A state directory: its files. -/
abbrev StateDir := KeyMap String FileContents

/-- The directories under the state directory. -/
abbrev Fs := KeyMap String StateDir

/-- An error that says that something does not exist. -/
def NotFound {α : Type} (r : IoResult α) : Prop := ∃ e : IoError, r = .error e ∧ e.kind = .notFound

/-- What a call answers and does on a disk where it succeeds whenever it can.  What is listed
    beside the directories is left open; the loader answers anything. -/
def diskSem : Sem WorkerOp Fs
  | _, .removeDirAll dir, fs, r, fs' =>
      (fs dir = none ∧ NotFound r ∧ fs' = fs) ∨ (fs dir ≠ none ∧ r = .ok () ∧ fs' = fs.remove dir)
  | _, .createDirAll dir, fs, r, fs' => r = .ok () ∧ fs' = fs.insert dir ((fs dir).getD .empty)
  | _, .setPermissions dir _, fs, r, fs' =>
      ((fs dir = none ∧ NotFound r) ∨ (fs dir ≠ none ∧ r = .ok ())) ∧ fs' = fs
  | _, .renameDir source target, fs, r, fs' =>
      (fs source = none ∧ NotFound r ∧ fs' = fs) ∨
      ∃ d, fs source = some d ∧
        ((∃ d', fs target = some d' ∧ d' ≠ .empty ∧
            (∃ e : IoError, r = .error e ∧ e.kind = .other) ∧ fs' = fs) ∨
          ((∀ d', fs target = some d' → d' = .empty) ∧ r = .ok () ∧
            fs' = (fs.remove source).insert target d))
  | _, .createFile dir file, fs, r, fs' =>
      (fs dir = none ∧ NotFound r ∧ fs' = fs) ∨
      ∃ d, fs dir = some d ∧ r = .ok () ∧ fs' = fs.insert dir (d.insert file .other)
  | _, .writeFile dir file persist, fs, r, fs' =>
      r = .ok () ∧ ((fs dir = none ∧ fs' = fs) ∨
        ∃ d, fs dir = some d ∧ fs' = fs.insert dir (d.insert file (.json persist)))
  | _, .syncFile _ _, fs, r, fs' => r = .ok () ∧ fs' = fs
  | _, .renameFile dir source target, fs, r, fs' =>
      ((∀ d, fs dir = some d → d source = none) ∧ NotFound r ∧ fs' = fs) ∨
      ∃ d c, fs dir = some d ∧ d source = some c ∧ r = .ok () ∧
        fs' = fs.insert dir ((d.remove source).insert target c)
  | _, .syncDir dir, fs, r, fs' =>
      ((fs dir = none ∧ NotFound r) ∨ (fs dir ≠ none ∧ r = .ok ())) ∧ fs' = fs
  | _, .readDir, fs, r, fs' =>
      (∃ entries, r = .ok entries ∧ (listedDirs entries).Nodup ∧
        ∀ n, n ∈ listedDirs entries ↔ fs n ≠ none) ∧ fs' = fs
  | _, .readFile dir file, fs, r, fs' =>
      (((∀ d, fs dir = some d → d file = none) ∧ NotFound r) ∨
        ∃ d c, fs dir = some d ∧ d file = some c ∧ r = .ok c) ∧ fs' = fs
  | _, .addLoaderEndpoint _, fs, _, fs' => fs' = fs
  | _, .publish _, fs, _, fs' => fs' = fs

/-- An answer that says that its call failed.  Publishing does not fail. -/
def WorkerOp.Fails : ∀ β : Type, WorkerOp β → β → Prop
  | _, .removeDirAll _, r => ∃ e, r = .error e
  | _, .createDirAll _, r => ∃ e, r = .error e
  | _, .setPermissions _ _, r => ∃ e, r = .error e
  | _, .renameDir _ _, r => ∃ e, r = .error e
  | _, .createFile _ _, r => ∃ e, r = .error e
  | _, .writeFile _ _ _, r => ∃ e, r = .error e
  | _, .syncFile _ _, r => ∃ e, r = .error e
  | _, .renameFile _ _ _, r => ∃ e, r = .error e
  | _, .syncDir _, r => ∃ e, r = .error e
  | _, .readDir, r => ∃ e, r = .error e
  | _, .readFile _ _, r => ∃ e, r = .error e
  | _, .addLoaderEndpoint _, r => ∃ e, r = .error e
  | _, .publish _, _ => False

/-- A disk on which any call may also fail, and then changes nothing. -/
def faultySem : Sem WorkerOp Fs := fun β op fs b fs' =>
  diskSem β op fs b fs' ∨ (WorkerOp.Fails β op b ∧ fs' = fs)

/-! ### One endpoint's directories -/

/-- The four directories of an endpoint. -/
abbrev DirView := DirKind → Option StateDir

/-- The directories of `id`. -/
def view (id : EndpointId) (fs : Fs) : DirView := fun kind => fs (dirName id kind)

/-- The endpoint that `read_endpoint_dir` reads from a directory. -/
def content (id : EndpointId) (d : StateDir) : Option EndpointPersist :=
  match d epConfigName with
  | some (.json persist) => if persist.id = id then some persist else none
  | _ => none

/-- The endpoint that can be read from the directory of a kind. -/
def readable (id : EndpointId) (v : DirView) (kind : DirKind) : Option EndpointPersist :=
  (v kind).bind (content id)

/-- `read_endpoints` restores `p` from the directory of this kind: it is the first that can
    be read. -/
structure Chosen (id : EndpointId) (v : DirView) (kind : DirKind) (p : EndpointPersist) :
    Prop where
  readable : readable id v kind = some p
  first : ∀ k, k.rank < kind.rank → Sarena.readable id v k = none

section

variable {id : EndpointId} {fs fs' : Fs}

theorem view_remove (id : EndpointId) (fs : Fs) (kind : DirKind) :
    view id (fs.remove (dirName id kind)) = Function.update (view id fs) kind none := by
  funext k
  rw [view, KeyMap.remove_apply, Function.update_apply]
  by_cases h : k = kind
  · simp [h]
  · simp [h, view]

theorem view_insert (id : EndpointId) (fs : Fs) (kind : DirKind) (d : StateDir) :
    view id (fs.insert (dirName id kind) d) = Function.update (view id fs) kind (some d) := by
  funext k
  rw [view, KeyMap.insert_apply, Function.update_apply]
  by_cases h : k = kind
  · simp [h]
  · simp [h, view]

/-- Another endpoint's directories are not in the view. -/
theorem view_remove_of_ne {id i : EndpointId} (h : i ≠ id) (fs : Fs) (kind : DirKind) :
    view id (fs.remove (dirName i kind)) = view id fs := by
  funext k
  rw [view, KeyMap.remove_apply, if_neg, view]
  intro heq
  exact h (dirName_inj heq).1.symm

theorem view_insert_of_ne {id i : EndpointId} (h : i ≠ id) (fs : Fs) (kind : DirKind)
    (d : StateDir) : view id (fs.insert (dirName i kind) d) = view id fs := by
  funext k
  rw [view, KeyMap.insert_apply, if_neg, view]
  intro heq
  exact h (dirName_inj heq).1.symm

theorem content_eq_some {d : StateDir} {p : EndpointPersist} :
    content id d = some p ↔ d epConfigName = some (.json p) ∧ p.id = id := by
  unfold content
  split
  next persist hfile =>
    rw [hfile, Option.ite_none_right_eq_some, Option.some.injEq, Option.some.injEq,
      FileContents.json.injEq]
    constructor
    · rintro ⟨hid, rfl⟩
      exact ⟨rfl, hid⟩
    · rintro ⟨rfl, hid⟩
      exact ⟨hid, rfl⟩
  next hfile => exact iff_of_false nofun fun h => hfile p h.1

theorem content_id {d : StateDir} {p : EndpointPersist} (h : content id d = some p) :
    p.id = id :=
  (content_eq_some.mp h).2

/-- Other files do not change what is read from a directory. -/
theorem content_insert_of_ne (id : EndpointId) (d : StateDir) {file : String}
    (hfile : file ≠ epConfigName) (c : FileContents) :
    content id (d.insert file c) = content id d := by
  rw [content, KeyMap.insert_of_ne _ _ hfile.symm, content]

theorem readable_id {v : DirView} {kind : DirKind} {p : EndpointPersist}
    (h : readable id v kind = some p) : p.id = id := by
  obtain ⟨d, -, hd⟩ := Option.bind_eq_some_iff.mp h
  exact content_id hd

theorem readable_update (v : DirView) (kind k : DirKind) (d : Option StateDir) :
    readable id (Function.update v kind d) k =
      if k = kind then d.bind (content id) else readable id v k := by
  rw [readable, Function.update_apply]
  split <;> rfl

theorem readable_ne_none {v : DirView} {kind : DirKind} (h : readable id v kind ≠ none) :
    v kind ≠ none := by
  intro hnone
  rw [readable, hnone] at h
  exact h rfl

/-- What can be read comes no earlier than the chosen directory. -/
theorem Chosen.rank_le {v : DirView} {kind k : DirKind} {p : EndpointPersist}
    (h : Chosen id v kind p) (hk : Sarena.readable id v k ≠ none) : kind.rank ≤ k.rank := by
  by_contra hlt
  exact hk (h.first k (not_le.mp hlt))

/-- Taking away a directory other than the chosen one does not change the choice. -/
theorem Chosen.update_none {v : DirView} {kind k : DirKind} {p : EndpointPersist}
    (h : Chosen id v kind p) (hne : k ≠ kind) : Chosen id (Function.update v k none) kind p where
  readable := by
    rw [readable_update, if_neg hne.symm]
    exact h.readable
  first j hj := by
    rw [readable_update]
    split
    · rfl
    · exact h.first j hj

/-- Some directory of the endpoint can be read. -/
def Present (id : EndpointId) (v : DirView) : Prop := ∃ k, readable id v k ≠ none

theorem Present.chosen {v : DirView} (h : Present id v) : ∃ k q, Chosen id v k q := by
  obtain ⟨k, hk⟩ := h
  -- The first readable directory, by strong induction on the preference.
  induction hr : k.rank using Nat.strong_induction_on generalizing k with
  | _ n ih =>
    by_cases hfirst : ∀ j : DirKind, j.rank < k.rank → readable id v j = none
    · obtain ⟨q, hq⟩ := Option.ne_none_iff_exists'.mp hk
      exact ⟨k, q, hq, hfirst⟩
    · push Not at hfirst
      obtain ⟨j, hj, hne⟩ := hfirst
      exact ih j.rank (hr ▸ hj) j hne rfl

/-! ### What the calls do to a view -/

variable {kind : DirKind}

/-- After `remove_dir_if_exists` the directory is gone, and there was no error. -/
theorem disk_removeDirAll {r : IoResult Unit}
    (h : diskSem _ (.removeDirAll (dirName id kind)) fs r fs') :
    ignoreNotFound r = .ok () ∧ view id fs' = Function.update (view id fs) kind none := by
  obtain ⟨hnone, ⟨e, rfl, he⟩, rfl⟩ | ⟨-, rfl, rfl⟩ := h
  · refine ⟨if_pos he, ?_⟩
    rw [show (none : Option StateDir) = view id fs' kind from hnone.symm, Function.update_eq_self]
  · exact ⟨rfl, view_remove id fs kind⟩

theorem disk_createDirAll {r : IoResult Unit}
    (h : diskSem _ (.createDirAll (dirName id kind)) fs r fs') (hv : view id fs kind = none) :
    r = .ok () ∧ view id fs' = Function.update (view id fs) kind (some .empty) := by
  obtain ⟨rfl, rfl⟩ := h
  rw [view_insert]
  rw [view] at hv
  exact ⟨rfl, by rw [hv]; rfl⟩

theorem disk_setPermissions {r : IoResult Unit} {mode : Nat}
    (h : diskSem _ (.setPermissions (dirName id kind) mode) fs r fs')
    (hv : view id fs kind ≠ none) : r = .ok () ∧ fs' = fs := by
  obtain ⟨⟨hnone, -⟩ | ⟨-, rfl⟩, rfl⟩ := h
  · exact absurd hnone hv
  · exact ⟨rfl, rfl⟩

theorem disk_syncDir {r : IoResult Unit} (h : diskSem _ (.syncDir (dirName id kind)) fs r fs')
    (hv : view id fs kind ≠ none) : r = .ok () ∧ fs' = fs := by
  obtain ⟨⟨hnone, -⟩ | ⟨-, rfl⟩, rfl⟩ := h
  · exact absurd hnone hv
  · exact ⟨rfl, rfl⟩

theorem disk_createFile {r : IoResult Unit} {file : String} {d : StateDir}
    (h : diskSem _ (.createFile (dirName id kind) file) fs r fs') (hv : view id fs kind = some d) :
    r = .ok () ∧ view id fs' = Function.update (view id fs) kind (some (d.insert file .other)) := by
  rw [view] at hv
  obtain ⟨hnone, -, -⟩ | ⟨d', hd', rfl, rfl⟩ := h
  · rw [hv] at hnone
    cases hnone
  · obtain rfl := Option.some.inj (hv.symm.trans hd')
    exact ⟨rfl, view_insert id fs kind _⟩

theorem disk_writeFile {r : Res Unit} {file : String} {p : EndpointPersist} {d : StateDir}
    (h : diskSem _ (.writeFile (dirName id kind) file p) fs r fs')
    (hv : view id fs kind = some d) : r = .ok () ∧
      view id fs' = Function.update (view id fs) kind (some (d.insert file (.json p))) := by
  rw [view] at hv
  obtain ⟨rfl, ⟨hnone, -⟩ | ⟨d', hd', rfl⟩⟩ := h
  · rw [hv] at hnone
    cases hnone
  · obtain rfl := Option.some.inj (hv.symm.trans hd')
    exact ⟨rfl, view_insert id fs kind _⟩

theorem disk_renameFile {r : IoResult Unit} {source target : String} {d : StateDir}
    {c : FileContents} (h : diskSem _ (.renameFile (dirName id kind) source target) fs r fs')
    (hv : view id fs kind = some d) (hc : d source = some c) : r = .ok () ∧
      view id fs' =
        Function.update (view id fs) kind (some ((d.remove source).insert target c)) := by
  rw [view] at hv
  obtain ⟨hnone, -, -⟩ | ⟨d', c', hd', hc', rfl, rfl⟩ := h
  · rw [hnone d hv] at hc
    cases hc
  · obtain rfl := Option.some.inj (hv.symm.trans hd')
    obtain rfl := Option.some.inj (hc.symm.trans hc')
    exact ⟨rfl, view_insert id fs kind _⟩

/-- Renaming a directory to a free name. -/
theorem disk_renameDir {r : IoResult Unit} {kind' : DirKind} {d : StateDir}
    (h : diskSem _ (.renameDir (dirName id kind) (dirName id kind')) fs r fs')
    (hv : view id fs kind = some d) (hfree : view id fs kind' = none) : r = .ok () ∧
      view id fs' = Function.update (Function.update (view id fs) kind none) kind' (some d) := by
  rw [view] at hv hfree
  obtain ⟨hnone, -, -⟩ | ⟨d', hd', ⟨x, hx, -, -, -⟩ | ⟨-, rfl, rfl⟩⟩ := h
  · rw [hv] at hnone
    cases hnone
  · rw [hfree] at hx
    cases hx
  · obtain rfl := Option.some.inj (hv.symm.trans hd')
    exact ⟨rfl, by rw [view_insert, view_remove]⟩

theorem disk_renameDir_none {r : IoResult Unit} {kind' : DirKind}
    (h : diskSem _ (.renameDir (dirName id kind) (dirName id kind')) fs r fs')
    (hv : view id fs kind = none) : NotFound r ∧ fs' = fs := by
  rw [view] at hv
  obtain ⟨-, hr, rfl⟩ | ⟨d, hd, -⟩ := h
  · exact ⟨hr, rfl⟩
  · rw [hv] at hd
    cases hd

end

/-! ### Finitely many directories -/

/-- Finitely many directories exist. -/
def Fs.Listed (fs : Fs) : Prop := ∃ names : List String, ∀ n, fs n ≠ none → n ∈ names

namespace Fs

variable {fs fs' : Fs}

theorem listed_empty : Fs.Listed .empty := ⟨[], fun _ h => absurd rfl h⟩

theorem Listed.insert (h : fs.Listed) (dir : String) (d : StateDir) :
    Fs.Listed (KeyMap.insert fs dir d) := by
  obtain ⟨names, hnames⟩ := h
  refine ⟨dir :: names, fun n hn => ?_⟩
  rw [KeyMap.insert_apply] at hn
  by_cases hdir : n = dir
  · rw [hdir]
    exact List.mem_cons_self
  · rw [if_neg hdir] at hn
    exact List.mem_cons_of_mem _ (hnames n hn)

theorem Listed.remove (h : fs.Listed) (dir : String) : Fs.Listed (KeyMap.remove fs dir) := by
  obtain ⟨names, hnames⟩ := h
  refine ⟨names, fun n hn => hnames n ?_⟩
  rw [KeyMap.remove_apply] at hn
  split at hn
  · exact absurd rfl hn
  · exact hn

/-- The names of the directories, each once. -/
theorem Listed.names (h : fs.Listed) :
    ∃ names : List String, names.Nodup ∧ ∀ n, n ∈ names ↔ fs n ≠ none := by
  obtain ⟨names, hnames⟩ := h
  refine ⟨names.dedup.filter fun n => (fs n).isSome, (List.nodup_dedup _).filter _, fun n => ?_⟩
  rw [List.mem_filter, List.mem_dedup, Option.isSome_iff_ne_none]
  exact ⟨fun hn => hn.2, fun hn => ⟨hnames n hn, hn⟩⟩

/-- No call makes infinitely many directories. -/
theorem Listed.step {β : Type} {op : WorkerOp β} {b : β} (h : fs.Listed)
    (hop : diskSem β op fs b fs') : fs'.Listed := by
  cases op with
  | removeDirAll dir =>
    obtain ⟨-, -, rfl⟩ | ⟨-, -, rfl⟩ := hop
    · exact h
    · exact h.remove dir
  | createDirAll dir =>
    rw [hop.2]
    exact h.insert dir _
  | renameDir source target =>
    obtain ⟨-, -, rfl⟩ | ⟨d, -, ⟨d', -, -, -, rfl⟩ | ⟨-, -, rfl⟩⟩ := hop
    · exact h
    · exact h
    · exact (h.remove source).insert target d
  | createFile dir file =>
    obtain ⟨-, -, rfl⟩ | ⟨d, -, -, rfl⟩ := hop
    · exact h
    · exact h.insert dir _
  | writeFile dir file persist =>
    obtain ⟨-, ⟨-, rfl⟩ | ⟨d, -, rfl⟩⟩ := hop
    · exact h
    · exact h.insert dir _
  | renameFile dir source target =>
    obtain ⟨-, -, rfl⟩ | ⟨d, c, -, -, -, rfl⟩ := hop
    · exact h
    · exact h.insert dir _
  | setPermissions dir mode => exact hop.2 ▸ h
  | syncFile dir file => exact hop.2 ▸ h
  | syncDir dir => exact hop.2 ▸ h
  | readDir => exact hop.2 ▸ h
  | readFile dir file => exact hop.2 ▸ h
  | addLoaderEndpoint persist => exact (show fs' = fs from hop) ▸ h
  | publish state => exact (show fs' = fs from hop) ▸ h

end Fs

/-- The entry of a directory. -/
def dirEntry (name : String) : IoResult DirEntry := .ok ⟨some name, .ok .dir⟩

/-- Listing nothing but directories. -/
theorem listedDirs_dirEntry (names : List String) : listedDirs (names.map dirEntry) = names := by
  rw [listedDirs, List.filterMap_map]
  exact List.filterMap_some

theorem notFound_error {α : Type} (message : String) :
    NotFound (.error ⟨.notFound, message⟩ : IoResult α) :=
  ⟨_, rfl, rfl⟩

/-- Every call has an answer. -/
theorem diskSem_total {fs : Fs} (h : fs.Listed) {β : Type} (op : WorkerOp β) :
    ∃ b fs', diskSem β op fs b fs' := by
  classical
  cases op with
  | removeDirAll dir =>
    by_cases hdir : fs dir = none
    · exact ⟨_, _, .inl ⟨hdir, notFound_error "no such entry", rfl⟩⟩
    · exact ⟨_, _, .inr ⟨hdir, rfl, rfl⟩⟩
  | createDirAll dir => exact ⟨_, _, rfl, rfl⟩
  | setPermissions dir mode =>
    by_cases hdir : fs dir = none
    · exact ⟨_, _, .inl ⟨hdir, notFound_error "no such entry"⟩, rfl⟩
    · exact ⟨_, _, .inr ⟨hdir, rfl⟩, rfl⟩
  | renameDir source target =>
    cases hsource : fs source with
    -- A rename needs its source; over a directory with files it fails and moves nothing.
    | none => exact ⟨_, _, .inl ⟨hsource, notFound_error "no such entry", rfl⟩⟩
    | some d =>
      by_cases hfree : ∀ d', fs target = some d' → d' = .empty
      · exact ⟨_, _, .inr ⟨d, hsource, .inr ⟨hfree, rfl, rfl⟩⟩⟩
      · push Not at hfree
        obtain ⟨d', hd', hne⟩ := hfree
        exact ⟨_, _, .inr ⟨d, hsource,
          .inl ⟨d', hd', hne, ⟨⟨.other, "directory not empty"⟩, rfl, rfl⟩, rfl⟩⟩⟩
  | createFile dir file =>
    cases hdir : fs dir with
    | none => exact ⟨_, _, .inl ⟨hdir, notFound_error "no such entry", rfl⟩⟩
    | some d => exact ⟨_, _, .inr ⟨d, hdir, rfl, rfl⟩⟩
  | writeFile dir file persist =>
    cases hdir : fs dir with
    | none => exact ⟨_, _, rfl, .inl ⟨hdir, rfl⟩⟩
    | some d => exact ⟨_, _, rfl, .inr ⟨d, hdir, rfl⟩⟩
  | syncFile dir file => exact ⟨_, _, rfl, rfl⟩
  | renameFile dir source target =>
    by_cases hfile : ∃ d c, fs dir = some d ∧ d source = some c
    · obtain ⟨d, c, hd, hc⟩ := hfile
      exact ⟨_, _, .inr ⟨d, c, hd, hc, rfl, rfl⟩⟩
    · push Not at hfile
      refine ⟨_, _, .inl ⟨fun d hd => ?_, notFound_error "no such entry", rfl⟩⟩
      exact Option.eq_none_iff_forall_ne_some.mpr fun c => hfile d c hd
  | syncDir dir =>
    by_cases hdir : fs dir = none
    · exact ⟨_, _, .inl ⟨hdir, notFound_error "no such entry"⟩, rfl⟩
    · exact ⟨_, _, .inr ⟨hdir, rfl⟩, rfl⟩
  | readDir =>
    -- The only call whose answer has to be found: a listing exists as the disk is finite.
    obtain ⟨names, hnodup, hnames⟩ := h.names
    refine ⟨_, _, ⟨names.map dirEntry, rfl, ?_⟩, rfl⟩
    rw [listedDirs_dirEntry]
    exact ⟨hnodup, hnames⟩
  | readFile dir file =>
    by_cases hfile : ∃ d c, fs dir = some d ∧ d file = some c
    · obtain ⟨d, c, hd, hc⟩ := hfile
      exact ⟨_, _, .inr ⟨d, c, hd, hc, rfl⟩, rfl⟩
    · push Not at hfile
      refine ⟨_, _, .inl ⟨fun d hd => ?_, notFound_error "no such entry"⟩, rfl⟩
      exact Option.eq_none_iff_forall_ne_some.mpr fun c => hfile d c hd
  | addLoaderEndpoint persist => exact ⟨.ok (), _, rfl⟩
  | publish state => exact ⟨(), _, rfl⟩

end Sarena
