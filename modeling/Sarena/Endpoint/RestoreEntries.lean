import Sarena.Endpoint.RestoreExact

namespace Sarena

open Lib

/-!
# Endpoint — what a restore leaves alone

The state directory may hold more than state directories: files, links, and entries that
`read_dir` does not yield or whose type cannot be told.  `read_endpoints` does not touch them,
and selects and cleans among the directories it is shown.

* `EntryDisk`, `entrySem` — a state directory with entries of every type;
* `Lists` — what `read_dir` yields of it; `EntryDisk.shown` — the directories it shows;
* `entrySem_shown` — a call on a directory that is shown is one on a disk of directories;
* `readEndpoints_restores` — what `read_endpoints` selects and cleans.
-/

/-- An entry of the state directory. -/
inductive Entry
  | dir (d : StateDir)
  | file
  | symlink
  | other

namespace Entry

/-- The type that `file_type()` tells. -/
def fileType : Entry → FileType
  | dir _ => .dir
  | file => .file
  | symlink => .symlink
  | other => .other

/-- The directory, when it is one. -/
def asDir : Entry → Option StateDir
  | dir d => some d
  | _ => none

theorem asDir_eq_some {e : Entry} {d : StateDir} : e.asDir = some d ↔ e = .dir d := by
  cases e <;> simp [asDir]

theorem fileType_eq_dir {e : Entry} : e.fileType = .dir ↔ ∃ d, e = .dir d := by
  cases e <;> simp [fileType]

end Entry

/-- The entries of the state directory. -/
abbrev EntryDisk := KeyMap String Entry

/-- The directories that are shown: `read_dir` yields the entry, and its type can be told. -/
def EntryDisk.shown (seen : String → Bool) (s : EntryDisk) : Fs := fun name =>
  if seen name then (s name).bind Entry.asDir else none

/-- The names that entries come with. -/
def entryNames (entries : List (IoResult DirEntry)) : List String :=
  entries.filterMap fun entry => entry.toOption.bind DirEntry.fileName

/-- What `read_dir` may yield: every entry that can be seen, once and with its type.  There may
    be entries that fail, entries whose type cannot be told, and names that are not UTF-8. -/
structure Lists (seen : String → Bool) (s : EntryDisk) (entries : List (IoResult DirEntry)) :
    Prop where
  once : (entryNames entries).Nodup
  typed : ∀ name type, .ok ⟨some name, .ok type⟩ ∈ entries ↔
    seen name ∧ (s name).map Entry.fileType = some type

/-- What `remove_dir_all` answers and leaves: a directory may stay with some of its files, a
    link is removed itself, and nothing else is a directory. -/
def RemovesEntry (before : Option Entry) (r : IoResult Unit) (after : Option Entry) : Prop :=
  match before with
  | none => (∃ e, r = .error e) ∧ after = none
  | some (.dir d) => (r = .ok () ∧ after = none) ∨
      ((∃ e, r = .error e) ∧ ∃ left, LeftOf left (some d) ∧ after = left.map .dir)
  | some .symlink => (r = .ok () ∧ after = none) ∨ ((∃ e, r = .error e) ∧ after = before)
  | some _ => (∃ e, r = .error e) ∧ after = before

/-- What reading a file of a directory answers: one that holds no endpoint may also fail to be
    read. -/
def ReadsContents : Option FileContents → IoResult FileContents → Prop
  | some (.json p), r => r = .ok (.json p)
  | some .other, r => r = .ok .other ∨ ∃ e, r = .error e
  | none, r => ∃ e, r = .error e

/-- What reading a file under an entry answers.  A link may lead to any file. -/
def ReadsEntry (entry : Option Entry) (file : String) (r : IoResult FileContents) : Prop :=
  match entry with
  | some (.dir d) => ReadsContents (d file) r
  | some .symlink => True
  | _ => ∃ e, r = .error e

/-- The calls of `read_endpoints` on such a state directory; any others may do anything. -/
def entrySem (seen : String → Bool) : Sem WorkerOp EntryDisk
  | _, .removeDirAll dir, s, r, s' =>
    ∃ after, RemovesEntry (s dir) r after ∧ s' = Function.update s dir after
  | _, .readFile dir file, s, r, s' => ReadsEntry (s dir) file r ∧ s' = s
  | _, .readDir, s, r, s' => (∃ entries, r = .ok entries ∧ Lists seen s entries) ∧ s' = s
  | _, _, _, _, _ => True

section

variable {seen : String → Bool} {s s' : EntryDisk} {names : List String}

/-! ### What is listed -/

theorem shown_eq_some {name : String} {d : StateDir} :
    s.shown seen name = some d ↔ seen name ∧ s name = some (.dir d) := by
  rw [EntryDisk.shown, Option.ite_none_right_eq_some, Option.bind_eq_some_iff]
  simp only [Entry.asDir_eq_some, exists_eq_right]

theorem mem_listedDirs {entries : List (IoResult DirEntry)} {name : String} :
    name ∈ listedDirs entries ↔ .ok ⟨some name, .ok .dir⟩ ∈ entries := by
  rw [listedDirs, List.mem_filterMap]
  constructor
  · rintro ⟨entry, hmem, hname⟩
    obtain e | ⟨fileName, fileType⟩ := entry
    · cases hname
    · -- Only a directory gives its name.
      simp only [Option.ite_none_right_eq_some] at hname
      obtain ⟨hdir, rfl⟩ := hname
      unfold DirEntry.isDir at hdir
      split at hdir
      next htype => exact htype ▸ hmem
      next => cases hdir
  · intro hmem
    exact ⟨_, hmem, rfl⟩

/-- The directories are listed among the names. -/
theorem listedDirs_sublist (entries : List (IoResult DirEntry)) :
    (listedDirs entries).Sublist (entryNames entries) := by
  induction entries with
  | nil => exact .slnil
  | cons entry entries ih =>
    unfold listedDirs entryNames at ih ⊢
    obtain e | entry := entry
    · exact ih
    · cases hname : entry.fileName with
      | none => simpa [List.filterMap_cons, Except.toOption, hname] using ih
      | some name =>
        by_cases hdir : entry.isDir
        · simpa [List.filterMap_cons, Except.toOption, hname, hdir] using ih.cons_cons name
        · simpa [List.filterMap_cons, Except.toOption, hname, hdir] using ih.cons name

/-- A listing names the directories that are shown. -/
theorem Lists.mem_listedDirs {entries : List (IoResult DirEntry)} (h : Lists seen s entries)
    (name : String) : name ∈ listedDirs entries ↔ s.shown seen name ≠ none := by
  rw [Sarena.mem_listedDirs, h.typed, Option.ne_none_iff_exists']
  simp only [shown_eq_some, Option.map_eq_some_iff, Entry.fileType_eq_dir]
  constructor
  · rintro ⟨hseen, e, he, d, rfl⟩
    exact ⟨d, hseen, he⟩
  · rintro ⟨d, hseen, hd⟩
    exact ⟨hseen, _, hd, d, rfl⟩

theorem Lists.nodup_listedDirs {entries : List (IoResult DirEntry)} (h : Lists seen s entries) :
    (listedDirs entries).Nodup :=
  h.once.sublist (listedDirs_sublist entries)

/-! ### Calls on the directories that are shown -/

/-- The calls that read and remove only what is under `names`. -/
def OnNames (names : List String) : ∀ β : Type, WorkerOp β → Prop
  | _, .removeDirAll dir => dir ∈ names
  | _, .readFile dir _ => dir ∈ names
  | _, _ => False

/-- The loop reads and removes only what was listed. -/
theorem restoreDirs_onNames (m : KeyMap EndpointId EndpointPersist)
    {dirs : List (EndpointId × List (DirKind × String))}
    (hdirs : ∀ d ∈ dirs, ∀ c ∈ d.2, c.2 ∈ names) : (restoreDirs m dirs).Uses (OnNames names) := by
  induction dirs generalizing m with
  | nil => trivial
  | cons d dirs ih =>
    have hcand := hdirs d List.mem_cons_self
    refine Prog.uses_bind (restoreDir_uses d.1 hcand hcand) fun r => ?_
    cases r with
    | none => exact ih m fun d hd => hdirs d (List.mem_cons_of_mem _ hd)
    | some p => exact ih _ fun d hd => hdirs d (List.mem_cons_of_mem _ hd)

theorem groupDirs_names (names : List String) : ∀ d ∈ groupDirs names, ∀ c ∈ d.2, c.2 ∈ names := by
  rintro d hd c hc
  obtain ⟨i, -, rfl⟩ := List.mem_map.mp hd
  obtain ⟨⟨j, k, name⟩, hx, rfl⟩ := List.mem_map.mp hc
  exact (mem_parsedDirs.mp (List.mem_filter.mp hx).1).1

/-- What is under `names` are directories that are shown, as far as it is still there. -/
def DirsAt (seen : String → Bool) (names : List String) (s : EntryDisk) : Prop :=
  ∀ name ∈ names, seen name ∧ ∀ e, s name = some e → ∃ d, e = .dir d

theorem shown_update {name : String} (hseen : seen name) (s : EntryDisk) (left : Option StateDir) :
    EntryDisk.shown seen (Function.update s name (left.map .dir))
      = Function.update (s.shown seen) name left := by
  funext n
  by_cases hn : n = name
  · subst hn
    rw [EntryDisk.shown, Function.update_self, Function.update_self, if_pos hseen]
    cases left <;> rfl
  · rw [EntryDisk.shown, Function.update_of_ne hn, Function.update_of_ne hn, EntryDisk.shown]

/-- **Step.** A call on directories that are shown is one on a disk of directories, and leaves
    everything else as it is. -/
theorem entrySem_shown {β : Type} {op : WorkerOp β} {b : β} (hop : OnNames names β op)
    (hs : DirsAt seen names s) (h : entrySem seen β op s b s') :
    cleaningSem β op (s.shown seen) b (s'.shown seen) ∧ DirsAt seen names s' ∧
      ∀ name ∉ names, s' name = s name := by
  cases op <;> simp only [OnNames] at hop
  case removeDirAll dir =>
    obtain ⟨after, hremove, rfl⟩ := h
    obtain ⟨hseen, hdir⟩ := hs dir hop
    -- Nothing or a directory is under the name, and so it is afterwards.
    obtain ⟨left, rfl, hclean⟩ : ∃ left : Option StateDir, after = left.map .dir ∧
        cleaningSem _ (.removeDirAll dir) (s.shown seen) b
          (Function.update (s.shown seen) dir left) := by
      cases hentry : s dir with
      | none =>
        rw [hentry] at hremove
        obtain ⟨herror, rfl⟩ := hremove
        exact ⟨none, rfl, .inr ⟨herror, none, leftOf_none _, rfl⟩⟩
      | some e =>
        obtain ⟨d, rfl⟩ := hdir e hentry
        have hshown : s.shown seen dir = some d := shown_eq_some.mpr ⟨hseen, hentry⟩
        rw [hentry] at hremove
        obtain ⟨rfl, rfl⟩ | ⟨herror, left, hleft, rfl⟩ := hremove
        · exact ⟨none, rfl, .inl (.inr ⟨by rw [hshown]; exact Option.some_ne_none d, rfl, rfl⟩)⟩
        · exact ⟨left, rfl, .inr ⟨herror, left, by rwa [hshown], rfl⟩⟩
    refine ⟨by rwa [shown_update hseen], fun name hname => ⟨(hs name hname).1, fun e he => ?_⟩,
      fun name hname => Function.update_of_ne (ne_of_mem_of_not_mem hop hname).symm _ _⟩
    by_cases hn : name = dir
    · subst hn
      rw [Function.update_self] at he
      obtain ⟨d, -, rfl⟩ := Option.map_eq_some_iff.mp he
      exact ⟨d, rfl⟩
    · rw [Function.update_of_ne hn] at he
      exact (hs name hname).2 e he
  case readFile dir file =>
    obtain ⟨hread, rfl⟩ := h
    refine ⟨?_, hs, fun _ _ => rfl⟩
    obtain ⟨hseen, hdir⟩ := hs dir hop
    cases hentry : s' dir with
    | none =>
      rw [hentry] at hread
      refine .inr ⟨hread, rfl, fun d p hd => ?_⟩
      rw [shown_eq_some, hentry] at hd
      cases hd.2
    | some e =>
      obtain ⟨d, rfl⟩ := hdir e hentry
      have hshown : s'.shown seen dir = some d := shown_eq_some.mpr ⟨hseen, hentry⟩
      -- A read that fails is one of a file that holds no endpoint.
      have hother : (∀ p, d file ≠ some (.json p)) → (∃ e, b = .error e) →
          cleaningSem _ (.readFile dir file) (s'.shown seen) b (s'.shown seen) := by
        rintro hne herror
        refine .inr ⟨herror, rfl, fun d' p hd' => ?_⟩
        obtain rfl := Option.some.inj (hshown.symm.trans hd')
        exact hne p
      rw [hentry] at hread
      replace hread : ReadsContents (d file) b := hread
      cases hfile : d file with
      | none =>
        rw [hfile] at hread
        exact hother (fun p hp => nomatch hfile.symm.trans hp) hread
      | some c =>
        rw [hfile] at hread
        cases c with
        | json p => exact .inl ⟨.inr ⟨d, _, hshown, hfile, hread⟩, rfl⟩
        | other =>
          obtain hread | herror := hread
          · exact .inl ⟨.inr ⟨d, _, hshown, hfile, hread⟩, rfl⟩
          · exact hother (fun p hp => nomatch hfile.symm.trans hp) herror

/-- **Simulation.** `read_endpoints` does what it would do if there was nothing but the
    directories that are shown, and leaves the other entries as they are. -/
theorem readEndpoints_shown {tr : List (Answered WorkerOp)}
    {r : Res (KeyMap EndpointId EndpointPersist)}
    (h : Exec (entrySem seen) readEndpoints.run s tr (.pure r) s') :
    Exec cleaningSem readEndpoints.run (s.shown seen) tr (.pure r) (s'.shown seen) ∧
      ∀ name, s.shown seen name = none → s' name = s name := by
  obtain ⟨b, t, rest, rfl, ⟨⟨entries, rfl, hlists⟩, rfl⟩, hrest⟩ := Exec.op_pure_iff.mp h
  let names := listedDirs entries
  have huses : (FsM.result (restoreDirs .empty (groupDirs names))).run.Uses (OnNames names) :=
    Prog.uses_bind (restoreDirs_onNames .empty (groupDirs_names names)) fun _ => trivial
  have hdirs : DirsAt seen names t := by
    intro name hname
    obtain ⟨d, hd⟩ := Option.ne_none_iff_exists'.mp ((hlists.mem_listedDirs name).mp hname)
    obtain ⟨hseen, hentry⟩ := shown_eq_some.mp hd
    refine ⟨hseen, fun e he => ⟨d, ?_⟩⟩
    exact Option.some.inj (he.symm.trans hentry)
  obtain ⟨hexec, -, hframe⟩ := huses.map
    (fun u => DirsAt seen names u ∧ ∀ name ∉ names, u name = t name) (·.shown seen)
    (fun β op u b v hop hu hsem => by
      obtain ⟨hclean, hdirs', hsame⟩ := entrySem_shown hop hu.1 hsem
      exact ⟨hclean, hdirs', fun name hname => (hsame name hname).trans (hu.2 name hname)⟩)
    hrest ⟨hdirs, fun _ _ => rfl⟩
  refine ⟨.step _ _ _ (Except.ok entries) _ _ _ _ ?_ hexec, fun name hname => hframe name ?_⟩
  · exact ⟨⟨entries, rfl, hlists.nodup_listedDirs, hlists.mem_listedDirs⟩, rfl⟩
  · exact fun hmem => (hlists.mem_listedDirs name).mp hmem hname

/-- **`read_endpoints` selects and cleans.** Whatever entries the state directory has, whatever
    of them is shown and whatever becomes of the removals: it lists every endpoint that can be
    read, from the directory that is preferred, and removes the other directories of these
    endpoints; where nothing can be read, where a name is not one of a state directory and where
    no directory is shown, nothing is touched; and a second restore lists the same. -/
theorem readEndpoints_restores {tr : List (Answered WorkerOp)}
    {r : Res (KeyMap EndpointId EndpointPersist)}
    (h : Exec (entrySem seen) readEndpoints.run s tr (.pure r) s') :
    ∃ m, r = .ok m ∧ Restores (s.shown seen) (s'.shown seen) m (removals tr) ∧
      (∀ i, (∀ k, readable i (view i (s.shown seen)) k = none) →
        ∀ k, s' (dirName i k) = s (dirName i k)) ∧
      (∀ name, parseDirName name = none → s' name = s name) ∧
      (∀ name, s.shown seen name = none → s' name = s name) ∧
      ∀ tr' r' s'', Exec (entrySem seen) readEndpoints.run s' tr' (.pure r') s'' → r' = .ok m := by
  obtain ⟨hexec, hframe⟩ := readEndpoints_shown h
  obtain ⟨m, hr, hrestores, hkept, hunparsed, hagain⟩ := readEndpoints_selects hexec
  -- A directory that is shown before and after is the same entry.
  have hsame : ∀ name, s'.shown seen name = s.shown seen name → s' name = s name := by
    intro name heq
    cases hshown : s.shown seen name with
    | none => exact hframe name hshown
    | some d =>
      rw [(shown_eq_some.mp hshown).2, (shown_eq_some.mp (heq.trans hshown)).2]
  refine ⟨m, hr, hrestores, fun i hnone k => hsame _ (congrFun (hkept i hnone) k),
    fun name hname => hsame name (hunparsed name hname), hframe, fun tr' r' s'' h' => ?_⟩
  exact hagain tr' r' _ (readEndpoints_shown h').1

end

/-! ### A state directory with a file and a link -/

/-- Finitely many entries exist. -/
def EntryDisk.Listed (s : EntryDisk) : Prop := ∃ names : List String, ∀ n, s n ≠ none → n ∈ names

theorem EntryDisk.Listed.update {s : EntryDisk} (h : s.Listed) (name : String) (e : Option Entry) :
    EntryDisk.Listed (Function.update s name e) := by
  obtain ⟨names, hnames⟩ := h
  refine ⟨name :: names, fun n hn => ?_⟩
  by_cases hname : n = name
  · exact hname ▸ List.mem_cons_self
  · rw [Function.update_of_ne hname] at hn
    exact List.mem_cons_of_mem _ (hnames n hn)

/-- Where there are finitely many entries, they can be listed. -/
theorem EntryDisk.Listed.lists {s : EntryDisk} (h : s.Listed) (seen : String → Bool) :
    ∃ entries, Lists seen s entries := by
  obtain ⟨names, hnames⟩ := h
  let present := names.dedup.filter fun n => seen n && (s n).isSome
  let entry (n : String) : IoResult DirEntry :=
    .ok ⟨some n, ((s n).map fun e => Except.ok e.fileType).getD (.error ⟨.other, "no type"⟩)⟩
  refine ⟨present.map entry, ?_, fun name type => ?_⟩
  · have hsame : entryNames (present.map entry) = present := by
      rw [entryNames, List.filterMap_map]
      exact List.filterMap_some
    rw [hsame]
    exact (List.nodup_dedup names).filter _
  · rw [List.mem_map]
    constructor
    · rintro ⟨n, hn, heq⟩
      simp only [entry, Except.ok.injEq, DirEntry.mk.injEq, Option.some.injEq] at heq
      obtain ⟨rfl, htype⟩ := heq
      obtain ⟨hseen, hsome⟩ := Bool.and_eq_true_iff.mp (List.mem_filter.mp hn).2
      obtain ⟨e, he⟩ := Option.isSome_iff_exists.mp hsome
      rw [he] at htype ⊢
      exact ⟨hseen, congrArg some (Except.ok.inj htype)⟩
    · rintro ⟨hseen, htype⟩
      obtain ⟨e, he, rfl⟩ := Option.map_eq_some_iff.mp htype
      have hne : s name ≠ none := by
        rw [he]
        exact Option.some_ne_none e
      refine ⟨name, List.mem_filter.mpr ⟨List.mem_dedup.mpr (hnames name hne), ?_⟩, ?_⟩
      · rw [hseen, he]
        rfl
      · simp only [entry, he]
        rfl

/-- Every call has an answer. -/
theorem entrySem_total (seen : String → Bool) {s : EntryDisk} (h : s.Listed) {β : Type}
    (op : WorkerOp β) : ∃ b s', entrySem seen β op s b s' ∧ s'.Listed := by
  cases op with
  | removeDirAll dir =>
    have hremove : ∃ r after, RemovesEntry (s dir) r after := by
      cases s dir with
      | none => exact ⟨.error ⟨.notFound, "no such entry"⟩, none, ⟨_, rfl⟩, rfl⟩
      | some e =>
        cases e with
        | dir d => exact ⟨.ok (), none, .inl ⟨rfl, rfl⟩⟩
        | symlink => exact ⟨.ok (), none, .inl ⟨rfl, rfl⟩⟩
        | file => exact ⟨.error ⟨.other, "not a directory"⟩, some .file, ⟨_, rfl⟩, rfl⟩
        | other => exact ⟨.error ⟨.other, "not a directory"⟩, some .other, ⟨_, rfl⟩, rfl⟩
    obtain ⟨r, after, hremove⟩ := hremove
    exact ⟨r, _, ⟨after, hremove, rfl⟩, h.update dir after⟩
  | readFile dir file =>
    have hread : ∃ r, ReadsEntry (s dir) file r := by
      cases s dir with
      | none => exact ⟨.error ⟨.notFound, "no such entry"⟩, _, rfl⟩
      | some e =>
        cases e with
        | symlink => exact ⟨.ok .other, trivial⟩
        | file => exact ⟨.error ⟨.other, "not a directory"⟩, _, rfl⟩
        | other => exact ⟨.error ⟨.other, "not a directory"⟩, _, rfl⟩
        | dir d =>
          show ∃ r, ReadsContents (d file) r
          cases d file with
          | none => exact ⟨.error ⟨.notFound, "no such entry"⟩, _, rfl⟩
          | some c =>
            cases c with
            | json p => exact ⟨.ok (.json p), rfl⟩
            | other => exact ⟨.ok .other, .inl rfl⟩
    obtain ⟨r, hread⟩ := hread
    exact ⟨r, s, ⟨hread, rfl⟩, h⟩
  | readDir =>
    obtain ⟨entries, hlists⟩ := h.lists seen
    exact ⟨_, s, ⟨⟨entries, rfl, hlists⟩, rfl⟩, h⟩
  | createDirAll dir => exact ⟨.ok (), s, trivial, h⟩
  | setPermissions dir mode => exact ⟨.ok (), s, trivial, h⟩
  | renameDir source target => exact ⟨.ok (), s, trivial, h⟩
  | createFile dir file => exact ⟨.ok (), s, trivial, h⟩
  | writeFile dir file persist => exact ⟨.ok (), s, trivial, h⟩
  | syncFile dir file => exact ⟨.ok (), s, trivial, h⟩
  | renameFile dir source target => exact ⟨.ok (), s, trivial, h⟩
  | syncDir dir => exact ⟨.ok (), s, trivial, h⟩
  | addLoaderEndpoint persist => exact ⟨.ok (), s, trivial, h⟩
  | publish state => exact ⟨(), s, trivial, h⟩

/-- A torn current state of endpoint 1 and a next state that can be read, beside a file and a
    link under the names of its other directories. -/
def tornDirs : EntryDisk :=
  KeyMap.insert (KeyMap.insert (KeyMap.insert (KeyMap.insert .empty
    (dirName 1 .current) (.dir (KeyMap.insert .empty epConfigName .other)))
    (dirName 1 .next) (.dir (KeyMap.insert .empty epConfigName (.json { id := 1 }))))
    (dirName 1 .backup) .file)
    (dirName 1 .nextFailed) .symlink

theorem listed_tornDirs : EntryDisk.Listed tornDirs := by
  have hempty : EntryDisk.Listed .empty := ⟨[], fun _ h => absurd rfl h⟩
  exact (((hempty.update _ _).update _ _).update _ _).update _ _

theorem chosen_tornDirs :
    Chosen 1 (view 1 (tornDirs.shown fun _ => true)) .next { id := 1 } := by
  constructor
  · simp [readable, view, EntryDisk.shown, tornDirs, KeyMap.insert_apply, Entry.asDir,
      content_eq_some]
  · intro k hk
    cases k with
    | current =>
      rw [Option.eq_none_iff_forall_ne_some]
      intro p hp
      simp [readable, view, EntryDisk.shown, tornDirs, KeyMap.insert_apply, Entry.asDir,
        content_eq_some] at hp
    | next => exact absurd hk (by decide)
    | backup => exact absurd hk (by decide)
    | nextFailed => exact absurd hk (by decide)

/-- The endpoint is restored from its next state; this stays, and so do the file and the link. -/
theorem readEndpoints_restores_torn : ∃ tr m s',
    Exec (entrySem fun _ => true) readEndpoints.run tornDirs tr (.pure (.ok m)) s' ∧
      m 1 = some { id := 1 } ∧ s' (dirName 1 .next) = tornDirs (dirName 1 .next) ∧
      s' (dirName 1 .backup) = some .file ∧ s' (dirName 1 .nextFailed) = some .symlink := by
  obtain ⟨tr, r, s', hx, -⟩ := Exec.exists_pure EntryDisk.Listed
    (fun β op s hs => entrySem_total (fun _ => true) hs op) readEndpoints.run listed_tornDirs
  obtain ⟨m, rfl, hm, -, -, hframe, -⟩ := readEndpoints_restores hx
  have hkept : s'.shown (fun _ => true) (dirName 1 .next)
      = some (KeyMap.insert .empty epConfigName (.json { id := 1 })) := by
    rw [hm.cleaned.untouched]
    · simp [shown_eq_some, tornDirs, KeyMap.insert_apply]
    · rintro ⟨i, -, -, k, p, hk, k', hne, heq⟩
      obtain ⟨rfl, rfl⟩ := dirName_inj heq
      exact hne (chosen_tornDirs.unique hk).1
  refine ⟨tr, m, s', hx, (hm.entries 1 _).mpr ⟨by decide, _, chosen_tornDirs⟩, ?_, ?_, ?_⟩
  · rw [(shown_eq_some.mp hkept).2]
    simp [tornDirs, KeyMap.insert_apply]
  · rw [hframe] <;> simp [EntryDisk.shown, tornDirs, KeyMap.insert_apply, Entry.asDir]
  · rw [hframe] <;> simp [EntryDisk.shown, tornDirs, Entry.asDir]

end Sarena
