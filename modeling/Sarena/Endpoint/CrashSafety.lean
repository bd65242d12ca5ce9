import Sarena.Endpoint.Regenerate
import Sarena.Endpoint.Restore
import Sarena.Lib.Run

namespace Sarena

open Lib

/-!
# Endpoint — crash safety of the state directories

An endpoint is regenerated, the daemon crashes between any two file-system calls and is
started again, any number of times.  Once a regeneration has committed, `read_endpoints`
should restore what it committed, or what the loader attached later.  It does not after a
crash at one place: `regenerate` removes `_next` before it writes it, also when `_next` is
all that `read_endpoints` left behind.

* `Store` — the disk and the entries that may be restored;
* `regenerate_guarded` — between any two calls of a regeneration an acceptable entry would
  be restored, except where `Rewriting` says so;
* `CrashSystem` — one endpoint over the lives of the daemon;
* `restore_safe_of_crashes` — every completed restore is acceptable when no crash comes at
  this place; `entry_lost` — a run that loses the endpoint there.
-/

/-! ### What can be restored -/

section

variable {id : EndpointId} {v : DirView} {a : List EndpointPersist}

/-- The current directory holds an entry of `a`, or no directory holds another entry. -/
def Accepts (id : EndpointId) (v : DirView) (a : List EndpointPersist) : Prop :=
  (∃ q ∈ a, readable id v .current = some q) ∨ ∀ k q, readable id v k = some q → q ∈ a

/-- `read_endpoints` would restore an entry of `a`. -/
def Good (id : EndpointId) (v : DirView) (a : List EndpointPersist) : Prop :=
  ∃ k, ∃ q ∈ a, Chosen id v k q

/-- Only `_next` can be read. -/
def OnlyNext (id : EndpointId) (v : DirView) : Prop :=
  readable id v .next ≠ none ∧ ∀ k, k ≠ .next → readable id v k = none

theorem chosen_current {q : EndpointPersist} (h : readable id v .current = some q) :
    Chosen id v .current q :=
  ⟨h, fun _ hk => absurd hk (Nat.not_lt_zero _)⟩

theorem Accepts.good (h : Accepts id v a) (hp : Present id v) : Good id v a := by
  obtain ⟨q, hq, hcur⟩ | hall := h
  · exact ⟨_, q, hq, chosen_current hcur⟩
  · obtain ⟨k, q, hc⟩ := hp.chosen
    exact ⟨k, q, hall k q hc.readable, hc⟩

theorem Good.present (h : Good id v a) : Present id v := by
  obtain ⟨k, q, -, hc⟩ := h
  exact ⟨k, by rw [hc.readable]; nofun⟩

/-- Accepting more entries. -/
theorem Accepts.cons (h : Accepts id v a) (p : EndpointPersist) : Accepts id v (p :: a) := by
  obtain ⟨q, hq, hcur⟩ | hall := h
  · exact .inl ⟨q, List.mem_cons_of_mem _ hq, hcur⟩
  · exact .inr fun k q hk => List.mem_cons_of_mem _ (hall k q hk)

/-- Changing a directory other than the current one to something acceptable. -/
theorem Accepts.update (h : Accepts id v a) {k : DirKind} (hk : k ≠ .current)
    {d : Option StateDir} (hd : ∀ q, d.bind (content id) = some q → q ∈ a) :
    Accepts id (Function.update v k d) a := by
  obtain ⟨q, hq, hcur⟩ | hall := h
  · refine .inl ⟨q, hq, ?_⟩
    rw [readable_update, if_neg hk.symm]
    exact hcur
  · refine .inr fun j q hj => ?_
    rw [readable_update] at hj
    by_cases hjk : j = k
    · rw [if_pos hjk] at hj
      exact hd q hj
    · rw [if_neg hjk] at hj
      exact hall j q hj

theorem Accepts.update_none (h : Accepts id v a) {k : DirKind} (hk : k ≠ .current) :
    Accepts id (Function.update v k none) a :=
  h.update hk fun _ hq => by cases hq

end

/-! ### The store -/

/-- The disk, and the entries that a restore may return once a regeneration has committed:
    the one committed last, and those whose programs the loader attached since. -/
structure Store where
  fs : Fs
  accepted : Option (List EndpointPersist)

/-- What a call of a regeneration of `persist` does to the accepted entries.  The rename of
    `_next` to the current directory commits: after it, `synchronize_directories` only
    returns `Ok`. -/
def accept (persist : EndpointPersist) (accepted : Option (List EndpointPersist)) :
    Answered WorkerOp → Option (List EndpointPersist)
  | ⟨.addLoaderEndpoint attached, .ok ()⟩ => accepted.map (attached :: ·)
  | ⟨.renameDir source target, .ok ()⟩ =>
    if source = dirName persist.id .next ∧ target = dirName persist.id .current then
      some [persist]
    else accepted
  | _ => accepted

/-- The calls of a regeneration of `persist` on the store. -/
def storeSem (persist : EndpointPersist) : Sem WorkerOp Store
  | _, op, s, b, t =>
    diskSem _ op s.fs b t.fs ∧ t.accepted = accept persist s.accepted ⟨op, b⟩

/-- The calls of a regeneration between the removal of `_next` and the rename that puts the
    new state file in place. -/
def WorkerOp.Rewriting : ∀ β : Type, WorkerOp β → Prop
  | _, .createDirAll _ => True
  | _, .setPermissions _ _ => True
  | _, .createFile _ _ => True
  | _, .writeFile _ _ _ => True
  | _, .syncFile _ _ => True
  | _, .renameFile _ _ _ => True
  | _, _ => False

/-- Before a call of a regeneration that started from the directories `start`, a restore
    would be acceptable, or `_next` is being rewritten and was all there was at the start. -/
def Covered (start : DirView) (persist : EndpointPersist) :
    ∀ β : Type, WorkerOp β → Store → Prop :=
  fun _ op s => ∀ a, s.accepted = some a →
    Good persist.id (view persist.id s.fs) a ∨
      (OnlyNext persist.id start ∧ WorkerOp.Rewriting _ op)

/-! ### One regeneration -/

section

variable {start : DirView} {p : EndpointPersist} {s t : Store}

/-- The part `q` of a regeneration of `p` makes its calls where they are covered, succeeds
    and ends with `R`. -/
def Stage {α : Type} (start : DirView) (p : EndpointPersist) (q : FsM α) (R : α → Store → Prop)
    (s : Store) : Prop :=
  q.run.Guards (storeSem p) (Covered start p) (Prog.orError R fun _ _ => False) s

theorem Stage.bind {α β : Type} {q : FsM α} {f : α → FsM β} {Q : β → Store → Prop}
    (R : α → Store → Prop) (hq : Stage start p q R s)
    (hf : ∀ a t, R a t → Stage start p (f a) Q t) : Stage start p (q >>= f) Q s :=
  Prog.guards_try _ hq hf

theorem stage_io {op : WorkerOp (IoResult Unit)} {R : Unit → Store → Prop}
    (hcov : Covered start p _ op s)
    (h : ∀ b t, storeSem p _ op s b t → b = .ok () ∧ R () t) :
    Stage start p (FsM.io (perform op)) R s := by
  refine ⟨hcov, fun b t ht => ?_⟩
  obtain ⟨rfl, hR⟩ := h b t ht
  exact hR

theorem stage_remove {kind : DirKind} {R : Unit → Store → Prop}
    (hcov : Covered start p _ (.removeDirAll (dirName p.id kind)) s)
    (h : ∀ t : Store, t.accepted = s.accepted →
      view p.id t.fs = Function.update (view p.id s.fs) kind none → R () t) :
    Stage start p (FsM.io (removeDirIfExists (dirName p.id kind))) R s := by
  refine ⟨hcov, fun b t ht => ?_⟩
  obtain ⟨hok, hview⟩ := disk_removeDirAll ht.1
  show Prog.orError _ _ ((ignoreNotFound b).mapError DataPlaneError.fileError) t
  rw [hok]
  exact h t ht.2 hview

/-- What a regeneration of `p` finds and leaves: `p` is acceptable, and so is what would be
    restored. -/
structure Ready (p : EndpointPersist) (s : Store) : Prop where
  mem : ∀ a, s.accepted = some a → p ∈ a
  accepts : ∀ a, s.accepted = some a → Accepts p.id (view p.id s.fs) a
  present : s.accepted ≠ none → Present p.id (view p.id s.fs)

theorem Ready.covered (h : Ready p s) {β : Type} (op : WorkerOp β) : Covered start p β op s :=
  fun a ha => .inl ((h.accepts a ha).good (h.present (by rw [ha]; nofun)))

/-- `_next` is being rewritten: it is absent or holds `d`, which cannot be read. -/
structure Rewritten (start : DirView) (p : EndpointPersist) (d : Option StateDir) (s : Store) :
    Prop where
  next : view p.id s.fs .next = d
  unreadable : d.bind (content p.id) = none
  mem : ∀ a, s.accepted = some a → p ∈ a
  accepts : ∀ a, s.accepted = some a → Accepts p.id (view p.id s.fs) a
  backed : s.accepted ≠ none → OnlyNext p.id start ∨ Present p.id (view p.id s.fs)

theorem Rewritten.covered {d : Option StateDir} (h : Rewritten start p d s) {β : Type}
    {op : WorkerOp β} (hop : WorkerOp.Rewriting β op) : Covered start p β op s := by
  intro a ha
  obtain honly | hpresent := h.backed (by rw [ha]; nofun)
  · exact .inr ⟨honly, hop⟩
  · exact .inl ((h.accepts a ha).good hpresent)

/-- The removal of `_next` takes away what was there when nothing else can be read. -/
theorem Ready.remove_next (h : Ready p s) (hacc : t.accepted = s.accepted)
    (hview : view p.id t.fs = Function.update (view p.id s.fs) .next none) :
    Rewritten (view p.id s.fs) p none t where
  next := by rw [hview, Function.update_self]
  unreadable := rfl
  mem := hacc ▸ h.mem
  accepts a ha := by
    rw [hview]
    exact (h.accepts a (hacc ▸ ha)).update_none (by decide)
  backed hne := by
    by_cases honly : ∀ k, k ≠ .next → readable p.id (view p.id s.fs) k = none
    · refine .inl ⟨?_, honly⟩
      obtain ⟨k, hk⟩ := h.present (hacc ▸ hne)
      by_cases hkn : k = .next
      · exact hkn ▸ hk
      · exact absurd (honly k hkn) hk
    · push Not at honly
      obtain ⟨k, hkn, hk⟩ := honly
      refine .inr ⟨k, ?_⟩
      rw [hview, readable_update, if_neg hkn]
      exact hk

/-- A change of `_next` that leaves it unreadable. -/
theorem Rewritten.update {d d' : Option StateDir} (h : Rewritten start p d s)
    (hacc : t.accepted = s.accepted)
    (hview : view p.id t.fs = Function.update (view p.id s.fs) .next d')
    (hd' : d'.bind (content p.id) = none) : Rewritten start p d' t where
  next := by rw [hview, Function.update_self]
  unreadable := hd'
  mem := hacc ▸ h.mem
  accepts a ha := by
    rw [hview]
    refine (h.accepts a (hacc ▸ ha)).update (by decide) fun q hq => ?_
    rw [hd'] at hq
    cases hq
  backed hne := by
    obtain honly | ⟨k, hk⟩ := h.backed (hacc ▸ hne)
    · exact .inl honly
    · refine .inr ⟨k, ?_⟩
      rw [hview, readable_update]
      by_cases hkn : k = .next
      · rw [hkn, readable, h.next, h.unreadable] at hk
        exact absurd rfl hk
      · rw [if_neg hkn]
        exact hk

/-- `_next` holds the state of `p`. -/
structure Written (p : EndpointPersist) (s : Store) : Prop extends Ready p s where
  next : readable p.id (view p.id s.fs) .next = some p

/-- The state file is in place. -/
theorem Rewritten.written {d d' : StateDir} (h : Rewritten start p (some d) s)
    (hacc : t.accepted = s.accepted)
    (hview : view p.id t.fs = Function.update (view p.id s.fs) .next (some d'))
    (hd' : content p.id d' = some p) : Written p t where
  next := by
    rw [hview, readable_update, if_pos rfl]
    exact hd'
  mem := hacc ▸ h.mem
  accepts a ha := by
    rw [hview]
    refine (h.accepts a (hacc ▸ ha)).update (by decide) fun q hq => ?_
    rw [Option.bind_some, hd', Option.some.injEq] at hq
    exact hq ▸ h.mem a (hacc ▸ ha)
  present _ := by
    refine ⟨.next, ?_⟩
    rw [hview, readable_update, if_pos rfl, Option.bind_some, hd']
    nofun

/-- The first steps of a regeneration leave an empty `_next`. -/
theorem prepareNext_stage (h : Ready p s) :
    Stage (view p.id s.fs) p (prepareNext p.id)
      (fun _ t => Rewritten (view p.id s.fs) p (some .empty) t) s := by
  refine Stage.bind (fun _ t => Rewritten (view p.id s.fs) p none t)
    (stage_remove (h.covered _) fun t => h.remove_next) fun _ t ht => ?_
  refine Stage.bind (fun _ t => Rewritten (view p.id s.fs) p (some .empty) t)
    (stage_io (ht.covered trivial) fun b u hu => ?_) fun _ t ht => ?_
  · obtain ⟨hb, hview⟩ := disk_createDirAll hu.1 ht.next
    exact ⟨hb, ht.update hu.2 hview rfl⟩
  refine stage_io (ht.covered trivial) fun b u hu => ?_
  obtain ⟨hb, hfs⟩ := disk_setPermissions hu.1 (by rw [ht.next]; nofun)
  have hview : view p.id u.fs = Function.update (view p.id t.fs) .next (some .empty) := by
    rw [hfs, ← ht.next, Function.update_eq_self]
  exact ⟨hb, ht.update hu.2 hview rfl⟩

/-- Writing the state file into an empty `_next`. -/
theorem writeState_stage (h : Rewritten start p (some .empty) s) :
    Stage start p (writeState p (dirName p.id .next)) (fun _ t => Written p t) s := by
  -- Until the last rename the directory holds only the temporary file.
  refine Stage.bind (fun _ t => ∃ d : StateDir, content p.id d = none ∧
    Rewritten start p (some d) t) (stage_io (h.covered trivial) fun b t ht => ?_) ?_
  · obtain ⟨hb, hview⟩ := disk_createFile ht.1 h.next
    have hd := content_insert_of_ne p.id .empty epConfigTmpName_ne .other
    exact ⟨hb, _, hd, h.update ht.2 hview hd⟩
  rintro _ t ⟨d, hd, ht⟩
  refine Stage.bind (fun _ t => ∃ d : StateDir, d epConfigTmpName = some (.json p) ∧
    Rewritten start p (some d) t) ⟨ht.covered trivial, fun b u hu => ?_⟩ ?_
  · obtain ⟨rfl, hview⟩ := disk_writeFile hu.1 ht.next
    have hd' := (content_insert_of_ne p.id d epConfigTmpName_ne (.json p)).trans hd
    exact ⟨_, KeyMap.insert_self _ _ _, ht.update hu.2 hview hd'⟩
  rintro _ t ⟨d, hd, ht⟩
  refine Stage.bind (fun _ t => Rewritten start p (some d) t)
    (stage_io (ht.covered trivial) fun b u hu => ?_) fun _ t ht => ?_
  · obtain ⟨hb, hfs⟩ := hu.1
    exact ⟨hb, { ht with
      next := hfs ▸ ht.next
      mem := hu.2 ▸ ht.mem
      accepts := hfs ▸ hu.2 ▸ ht.accepts
      backed := hfs ▸ hu.2 ▸ ht.backed }⟩
  refine Stage.bind (fun _ t => Written p t) (stage_io (ht.covered trivial) fun b u hu => ?_)
    fun _ t ht => ?_
  · obtain ⟨hb, hview⟩ := disk_renameFile hu.1 ht.next hd
    refine ⟨hb, ht.written hu.2 hview ?_⟩
    rw [content, KeyMap.insert_self]
    exact if_pos rfl
  refine stage_io (ht.covered _) fun b u hu => ?_
  have hread : readable p.id (view p.id t.fs) .next ≠ none := by
    rw [ht.next]
    exact Option.some_ne_none _
  obtain ⟨hb, hfs⟩ := disk_syncDir hu.1 (readable_ne_none hread)
  exact ⟨hb, { mem := hu.2 ▸ ht.mem
               accepts := hfs ▸ hu.2 ▸ ht.accepts
               present := hfs ▸ hu.2 ▸ ht.present
               next := hfs ▸ ht.next }⟩

/-- The state file is written, whatever the loader answers. -/
theorem regenerateBpf_stage (h : Rewritten start p (some .empty) s) :
    (regenerateBpf p).run.Guards (storeSem p) (Covered start p) (fun _ t => Written p t) s := by
  unfold regenerateBpf
  rw [ExceptT.run_bind]
  refine Prog.guards_bind (writeState_stage h) fun r t ht => ?_
  cases r with
  -- `writeState_stage` rules a failed write out.
  | error e => exact ht.elim
  | ok _ =>
    have ht : Written p t := ht
    refine ⟨ht.covered _, fun b u hu => ?_⟩
    have hfs : u.fs = t.fs := hu.1
    cases b with
    | error e =>
      -- A refusal leaves both the disk and what the loader has accepted.
      have hacc : u.accepted = t.accepted := hu.2
      exact { mem := hacc ▸ ht.mem
              accepts := hfs ▸ hacc ▸ ht.accepts
              present := hfs ▸ hacc ▸ ht.present
              next := hfs ▸ ht.next }
    | ok _ =>
      have hacc : u.accepted = t.accepted.map (p :: ·) := hu.2
      -- The loader's list grows by `p`: every directory that was accepted stays so.
      refine { mem := ?_, accepts := ?_, present := ?_, next := hfs ▸ ht.next }
      · intro a ha
        obtain ⟨a', -, rfl⟩ := Option.map_eq_some_iff.mp (hacc ▸ ha)
        exact List.mem_cons_self
      · intro a ha
        obtain ⟨a', ha', rfl⟩ := Option.map_eq_some_iff.mp (hacc ▸ ha)
        exact hfs ▸ (ht.accepts a' ha').cons p
      · intro hne
        exact hfs ▸ ht.present fun hnone => hne (by rw [hacc, hnone]; rfl)

/-- Removing a directory other than the current one and `_next`. -/
theorem Written.remove (h : Written p s) {kind : DirKind} (hcur : kind ≠ .current)
    (hnext : kind ≠ .next) (hacc : t.accepted = s.accepted)
    (hview : view p.id t.fs = Function.update (view p.id s.fs) kind none) : Written p t := by
  have hread : readable p.id (view p.id t.fs) .next = some p := by
    rw [hview, readable_update, if_neg hnext.symm]
    exact h.next
  exact { mem := hacc ▸ h.mem
          accepts := fun a ha => hview ▸ (h.accepts a (hacc ▸ ha)).update_none hcur
          present := fun _ => ⟨.next, by rw [hread]; nofun⟩
          next := hread }

/-- A regeneration is over: `_next` is gone. -/
structure Settled (p : EndpointPersist) (s : Store) : Prop extends Ready p s where
  next : view p.id s.fs .next = none

/-- Removing a directory other than the current one, when that holds `p`. -/
theorem Settled.remove_backup (h : Settled p s)
    (hcur : readable p.id (view p.id s.fs) .current = some p) (hacc : t.accepted = s.accepted)
    (hview : view p.id t.fs = Function.update (view p.id s.fs) .backup none) : Settled p t where
  mem := hacc ▸ h.mem
  accepts a ha := hview ▸ (h.accepts a (hacc ▸ ha)).update_none (by decide)
  present _ := by
    refine ⟨.current, ?_⟩
    rw [hview, readable_update, if_neg (by decide), hcur]
    nofun
  next := by
    rw [hview, Function.update_of_ne (by decide)]
    exact h.next

/-- Removing `_next` when it is gone. -/
theorem Settled.remove_next (h : Settled p s) (hacc : t.accepted = s.accepted)
    (hview : view p.id t.fs = Function.update (view p.id s.fs) .next none) : Settled p t := by
  have hsame : view p.id t.fs = view p.id s.fs := by
    rw [hview, ← h.next, Function.update_eq_self]
  exact { mem := hacc ▸ h.mem
          accepts := hsame ▸ hacc ▸ h.accepts
          present := hsame ▸ hacc ▸ h.present
          next := hsame ▸ h.next }

/-- Between the two renames of a synchronization: the state of `p` is in `_next` only, and
    there is no current directory that would be preferred. -/
structure BetweenRenames (p : EndpointPersist) (s : Store) : Prop where
  mem : ∀ a, s.accepted = some a → p ∈ a
  next : readable p.id (view p.id s.fs) .next = some p
  current : view p.id s.fs .current = none

theorem BetweenRenames.covered (h : BetweenRenames p s) {β : Type} (op : WorkerOp β) :
    Covered start p β op s := by
  refine fun a ha => .inl ⟨.next, p, h.mem a ha, h.next, fun k hk => ?_⟩
  obtain rfl : k = .current := DirKind.rank_inj (Nat.lt_one_iff.mp hk)
  rw [readable, h.current]
  rfl

/-- The first rename: there is no backup directory in its way. -/
theorem backUpCurrent_stage (h : Written p s) (hbackup : view p.id s.fs .backup = none) :
    Stage start p (backUpCurrent p.id) (fun _ t => BetweenRenames p t) s := by
  refine ⟨h.covered _, fun b t ht => ?_⟩
  cases hcur : view p.id s.fs .current with
  | none =>
    obtain ⟨⟨e, rfl, he⟩, hfs⟩ := disk_renameDir_none ht.1 hcur
    have hbetween : BetweenRenames p t :=
      { mem := ht.2 ▸ h.mem, next := hfs ▸ h.next, current := hfs ▸ hcur }
    show Prog.Guards _ _ _ (if e.kind = .notFound then pure false
      else throw (.fileError e) : FsM Bool).run t
    rw [if_pos he]
    exact hbetween
  | some d =>
    obtain ⟨rfl, hview⟩ := disk_renameDir ht.1 hcur hbackup
    have hacc : t.accepted = s.accepted := by
      rw [ht.2]
      exact if_neg fun hand => absurd (dirName_inj hand.1).2 (by decide)
    exact {
      mem := hacc ▸ h.mem
      next := by
        rw [hview, readable_update, if_neg (by decide), readable_update, if_neg (by decide)]
        exact h.next
      current := by rw [hview, Function.update_of_ne (by decide), Function.update_self] }

/-- The second rename commits. -/
theorem commitNext_stage (h : BetweenRenames p s) (hadCurrent : Bool) :
    Stage start p (commitNext p.id hadCurrent) (fun _ t => Settled p t) s := by
  obtain ⟨d, hd, hcontent⟩ := Option.bind_eq_some_iff.mp h.next
  refine ⟨h.covered _, fun b t ht => ?_⟩
  obtain ⟨rfl, hview⟩ := disk_renameDir ht.1 hd h.current
  have hacc : t.accepted = some [p] := by
    rw [ht.2]
    exact if_pos ⟨rfl, rfl⟩
  have hcur : readable p.id (view p.id t.fs) .current = some p := by
    rw [hview, readable_update, if_pos rfl]
    exact hcontent
  have hsettled : Settled p t := by
    refine { mem := ?_, accepts := ?_, present := ?_, next := ?_ }
    · intro a ha
      obtain rfl := Option.some.inj (hacc.symm.trans ha)
      exact List.mem_singleton_self p
    · intro a ha
      obtain rfl := Option.some.inj (hacc.symm.trans ha)
      exact .inl ⟨p, List.mem_singleton_self p, hcur⟩
    · exact fun _ => ⟨.current, by rw [hcur]; nofun⟩
    · rw [hview, Function.update_of_ne (by decide), Function.update_self]
  refine ⟨hsettled.covered _, fun b u hu => ?_⟩
  exact hsettled.remove_backup hcur hu.2 (disk_removeDirAll hu.1).2

theorem synchronizeDirectories_stage (h : Written p s) :
    Stage start p (synchronizeDirectories p.id) (fun _ t => Settled p t) s := by
  refine Stage.bind (fun _ t => Written p t ∧ view p.id t.fs .backup = none)
    (stage_remove (h.covered _) fun t hacc hview => ?_) ?_
  · refine ⟨h.remove (by decide) (by decide) hacc hview, ?_⟩
    rw [hview, Function.update_self]
  rintro _ t ⟨ht, hbackup⟩
  refine Stage.bind (fun _ t => BetweenRenames p t) (backUpCurrent_stage ht hbackup) ?_
  exact fun hadCurrent t ht => commitNext_stage ht hadCurrent

theorem keepFailed_stage (h : Written p s) :
    Stage start p (keepFailed p.id) (fun _ t => Settled p t) s := by
  refine Stage.bind (fun _ t => Written p t ∧ view p.id t.fs .nextFailed = none)
    (stage_remove (h.covered _) fun t hacc hview => ?_) ?_
  · refine ⟨h.remove (by decide) (by decide) hacc hview, ?_⟩
    rw [hview, Function.update_self]
  rintro _ t ⟨ht, hfree⟩
  obtain ⟨d, hd, hcontent⟩ := Option.bind_eq_some_iff.mp ht.next
  refine stage_io (ht.covered _) fun b u hu => ?_
  obtain ⟨rfl, hview⟩ := disk_renameDir hu.1 hd hfree
  have hacc : u.accepted = t.accepted := by
    rw [hu.2]
    exact if_neg fun hand => absurd (dirName_inj hand.2).2 (by decide)
  have hfailed : readable p.id (view p.id u.fs) .nextFailed = some p := by
    rw [hview, readable_update, if_pos rfl]
    exact hcontent
  refine ⟨rfl, ?_⟩
  refine { mem := hacc ▸ ht.mem, accepts := ?_, present := ?_, next := ?_ }
  · intro a ha
    rw [hview]
    refine ((ht.accepts a (hacc ▸ ha)).update_none (by decide)).update (by decide) fun q hq => ?_
    rw [Option.bind_some, hcontent, Option.some.injEq] at hq
    exact hq ▸ ht.mem a (hacc ▸ ha)
  · exact fun _ => ⟨.nextFailed, by rw [hfailed]; nofun⟩
  · rw [hview, Function.update_of_ne (by decide), Function.update_self]

/-- What a regeneration of `p` that returned has left. -/
def Regenerated (p : EndpointPersist) : Res Unit × EndpointState → Store → Prop :=
  Prog.orErrorAt (fun _ after t => after.persist = p ∧ Ready p t) fun _ _ _ => False

theorem ready_of_regenerated {r : Res Unit × EndpointState} (h : Regenerated p r s) :
    r.2.persist = p ∧ Ready p s := by
  obtain ⟨result, after⟩ := r
  cases result with
  | ok a => exact h
  | error e => exact h.elim

theorem settle_stage {state : EndpointState} (result : Res Nat) (h : Written state.persist s) :
    ((settle state.id result).runFrom state).Guards (storeSem state.persist)
      (Covered start state.persist)
      (Prog.orErrorAt (fun _ after t => after.persist = state.persist ∧ Settled state.persist t)
        fun _ _ _ => False) s := by
  cases result with
  | ok revision =>
    refine Prog.guards_tryAt (fun _ w t => state = w ∧ Settled state.persist t)
      (Prog.guards_liftAt (Prog.Guards.imp_try (fun _ _ ht => ⟨rfl, ht⟩) (fun _ _ ht => ht)
        (synchronizeDirectories_stage h))) ?_
    rintro _ _ t ⟨rfl, ht⟩
    exact ⟨rfl, ht⟩
  | error e =>
    refine Prog.guards_tryAt (fun _ w t => w.persist = state.persist ∧ Written state.persist t)
      ⟨rfl, h⟩ ?_
    rintro _ w t ⟨hw, ht⟩
    exact Prog.guards_liftAt (Prog.Guards.imp_try (fun _ _ ht => ⟨hw, ht⟩) (fun _ _ ht => ht)
      (keepFailed_stage ht))

/-- **One regeneration.** Started where an acceptable entry would be restored, it leaves
    such a state, and every call it makes on the way is covered. -/
theorem regenerate_guarded {state : EndpointState} (h : Ready state.persist s) :
    (regenerate.runFrom state).Guards (storeSem state.persist)
      (Covered (view state.id s.fs) state.persist) (Regenerated state.persist) s := by
  refine Prog.guards_tryAt (fun a w t => state = a ∧ state = w ∧ s = t) ⟨rfl, rfl, rfl⟩ ?_
  rintro _ _ _ ⟨rfl, rfl, rfl⟩
  refine Prog.guards_tryAt (fun _ w t => state = w ∧
    Rewritten (view state.id s.fs) state.persist (some .empty) t) ?_ ?_
  · exact Prog.guards_liftAt (Prog.Guards.imp_try (fun _ _ ht => ⟨rfl, ht⟩) (fun _ _ ht => ht)
      (prepareNext_stage h))
  rintro _ _ t ⟨rfl, ht⟩
  refine Prog.guards_tryAt (fun _ w t => state = w ∧ Written state.persist t) ?_ ?_
  · exact Prog.guards_liftAt (Prog.guards_bind (regenerateBpf_stage ht)
      fun r u hu => ⟨rfl, hu⟩)
  rintro result _ t ⟨rfl, ht⟩
  refine Prog.guards_tryAt _ (settle_stage result ht) ?_
  rintro _ after t ⟨hafter, ht⟩
  have hremove : Stage (view state.id s.fs) state.persist
      (FsM.io (removeDirIfExists (dirName state.id .next)))
      (fun _ t => Settled state.persist t) t :=
    stage_remove (ht.covered _) fun u hacc hview => ht.remove_next hacc hview
  refine Prog.guards_tryAt (fun _ w t => w.persist = state.persist ∧ Settled state.persist t)
    (Prog.guards_liftAt (Prog.Guards.imp_try (fun _ _ hu => ⟨hafter, hu⟩) (fun _ _ hu => hu)
      hremove)) ?_
  rintro _ after t ⟨hafter, ht⟩
  refine Prog.guards_tryAt (fun a w t => w.persist = state.persist ∧ Settled state.persist t)
    ⟨hafter, ht⟩ ?_
  rintro a after t ⟨hafter, ht⟩
  refine ⟨ht.covered _, fun b u hu => ⟨hafter, ?_⟩⟩
  obtain ⟨hfs, hacc⟩ := hu
  exact { mem := hacc ▸ ht.mem
          accepts := hfs ▸ hacc ▸ ht.accepts
          present := hfs ▸ hacc ▸ ht.present }

end

/-- On a disk where no call fails a regeneration can run to its end, and answers `Ok`. -/
theorem regenerate_ok {fs : Fs} (h : fs.Listed) (worker : EndpointState) :
    ∃ tr after fs', Exec diskSem (regenerate.runFrom worker) fs tr (.pure (.ok (), after)) fs' := by
  let start : Store := ⟨fs, none⟩
  have htotal : ∀ (β : Type) (op : WorkerOp β) (s : Store), s.fs.Listed →
      ∃ b t, storeSem worker.persist β op s b t ∧ t.fs.Listed := by
    intro β op s hs
    obtain ⟨b, fs', hop⟩ := diskSem_total hs op
    exact ⟨b, ⟨fs', accept worker.persist s.accepted ⟨op, b⟩⟩, ⟨hop, rfl⟩, hs.step hop⟩
  obtain ⟨tr, r, t, hx, -⟩ := Exec.exists_pure (·.fs.Listed) htotal (regenerate.runFrom worker)
    (s := start) h
  -- Nothing is accepted at the start, so nothing is asked of the directories.
  have hready : Ready worker.persist start := ⟨nofun, nofun, fun h => absurd rfl h⟩
  have hend := (regenerate_guarded hready).exec hx
  obtain ⟨result, after⟩ := r
  cases result with
  | ok _ => exact ⟨tr, after, t.fs, hx.map Store.fs fun β op s b t h => h.1⟩
  | error e => exact hend.elim

/-! ### One endpoint over the lives of the daemon -/

/-- Where the daemon stands with the endpoint. -/
inductive DaemonPhase
  /-- The endpoint's worker waits for a command. -/
  | idle (worker : EndpointState)
  /-- The worker regenerates; `start` is what the directories were at the beginning. -/
  | regenerating (start : DirView) (worker : EndpointState)
      (rest : Prog WorkerOp (Res Unit × EndpointState))
  | down
  | restoring (rest : Prog WorkerOp (Res (KeyMap EndpointId EndpointPersist)))
  | restored (result : Res (KeyMap EndpointId EndpointPersist))

/-- The store and the daemon. -/
structure CrashSystem where
  store : Store
  phase : DaemonPhase

/-- The events of a run. -/
inductive CrashEvent
  | regenerate
  | call
  | finish
  | crash
  | restart
  | read
  | restored
  | spawn
  deriving DecidableEq, Repr

namespace CrashSystem

/-- Before the first start: any disk, and nothing committed. -/
def init (fs : Fs) : CrashSystem := ⟨⟨fs, none⟩, .down⟩

/-- The steps for the endpoint `id`. -/
inductive Step (id : EndpointId) : CrashSystem → CrashEvent → CrashSystem → Prop
  /-- The worker takes a command and starts a regeneration. -/
  | regenerate (store : Store) (worker : EndpointState) :
      Step id ⟨store, .idle worker⟩ .regenerate
        ⟨store, .regenerating (view id store.fs) worker (Sarena.regenerate.runFrom worker)⟩
  /-- One call of the regeneration. -/
  | call (store store' : Store) (start : DirView) (worker : EndpointState) {β : Type}
      (op : WorkerOp β) (k : β → Prog WorkerOp (Res Unit × EndpointState)) (b : β)
      (h : storeSem worker.persist β op store b store') :
      Step id ⟨store, .regenerating start worker (.op op k)⟩ .call
        ⟨store', .regenerating start worker (k b)⟩
  /-- The regeneration returns, and the worker waits again. -/
  | finish (store : Store) (start : DirView) (worker : EndpointState) (result : Res Unit)
      (after : EndpointState) :
      Step id ⟨store, .regenerating start worker (.pure (result, after))⟩ .finish
        ⟨store, .idle after⟩
  /-- The daemon crashes, whatever it is doing. -/
  | crash (store : Store) (phase : DaemonPhase) : Step id ⟨store, phase⟩ .crash ⟨store, .down⟩
  /-- The daemon is started and reads the state directories. -/
  | restart (store : Store) :
      Step id ⟨store, .down⟩ .restart ⟨store, .restoring readEndpoints.run⟩
  /-- One call of `read_endpoints`. -/
  | read (store : Store) (fs : Fs) {β : Type} (op : WorkerOp β)
      (k : β → Prog WorkerOp (Res (KeyMap EndpointId EndpointPersist))) (b : β)
      (h : diskSem β op store.fs b fs) :
      Step id ⟨store, .restoring (.op op k)⟩ .read ⟨{ store with fs := fs }, .restoring (k b)⟩
  /-- `read_endpoints` returns. -/
  | restored (store : Store) (result : Res (KeyMap EndpointId EndpointPersist)) :
      Step id ⟨store, .restoring (.pure result)⟩ .restored ⟨store, .restored result⟩
  /-- The endpoint gets its worker: a restored one from its entry, otherwise a new one. -/
  | spawn (store : Store) (m : KeyMap EndpointId EndpointPersist) (persist : EndpointPersist)
      (h : m id = some persist ∨ (m id = none ∧ persist.id = id)) :
      Step id ⟨store, .restored (.ok m)⟩ .spawn ⟨store, .idle { persist := persist }⟩

/-- After a completed restore the endpoint has an entry that was accepted, if one was
    committed. -/
def Safe (id : EndpointId) (s : CrashSystem) : Prop :=
  match s.phase with
  | .restored result => ∀ a, s.store.accepted = some a →
      ∃ m p, result = .ok m ∧ m id = some p ∧ p ∈ a
  | _ => True

/-- The endpoint was committed, and `_next`, the only directory that a restore left of it,
    is being rewritten. -/
def Exposed (id : EndpointId) (s : CrashSystem) : Prop :=
  s.store.accepted ≠ none ∧
    match s.phase with
    | .regenerating start _ (.op op _) => OnlyNext id start ∧ WorkerOp.Rewriting _ op
    | _ => False

/-- The daemon does not crash while the endpoint is exposed. -/
def CrashCovered (id : EndpointId) (s : CrashSystem) (e : CrashEvent) (_ : CrashSystem) : Prop :=
  e = .crash → ¬ s.Exposed id

/-! ### The invariant -/

/-- A completed restore: an accepted entry, from the only directory that is left. -/
def RestoredFrom (id : EndpointId) (a : List EndpointPersist)
    (r : Res (KeyMap EndpointId EndpointPersist)) (fs : Fs) : Prop :=
  ∃ m kind p, r = .ok m ∧ m id = some p ∧ p ∈ a ∧ Chosen id (view id fs) kind p ∧
    ∀ k ≠ kind, view id fs k = none

/-- What holds between any two events. -/
def Invariant (id : EndpointId) (s : CrashSystem) : Prop :=
  match s.phase with
  | .idle worker => worker.id = id ∧ Ready worker.persist s.store
  | .regenerating start worker rest => worker.id = id ∧
      rest.Guards (storeSem worker.persist) (Covered start worker.persist)
        (Regenerated worker.persist) s.store
  | .down => ∀ a, s.store.accepted = some a → Good id (view id s.store.fs) a
  | .restoring rest =>
      (∀ a, s.store.accepted = some a → ∃ kind, ∃ p ∈ a,
        rest.Keeps diskSem (fun fs => Chosen id (view id fs) kind p)
          (fun r fs => ∃ m, r = .ok m ∧ m id = some p ∧ ∀ k ≠ kind, view id fs k = none)
          s.store.fs) ∧
      rest.Guards diskSem (fun _ _ _ => True) (fun r _ => ∀ m, r = .ok m → EntriesOwn m)
        s.store.fs
  | .restored result =>
      (∀ a, s.store.accepted = some a → RestoredFrom id a result s.store.fs) ∧
      ∀ m, result = .ok m → EntriesOwn m

variable {id : EndpointId}

theorem safe_of_invariant {s : CrashSystem} (h : s.Invariant id) : s.Safe id := by
  obtain ⟨store, phase⟩ := s
  cases phase with
  | restored result =>
    intro a ha
    obtain ⟨m, -, p, hr, hm, hp, -, -⟩ := h.1 a ha
    exact ⟨m, p, hr, hm, hp⟩
  | _ => trivial

/-- When only one directory is left and it holds `p`, then `p` may be regenerated. -/
theorem ready_of_restored {store : Store} {p : EndpointPersist} {a : List EndpointPersist}
    {kind : DirKind} (ha : store.accepted = some a) (hp : p ∈ a)
    (hchosen : Chosen p.id (view p.id store.fs) kind p)
    (hgone : ∀ k ≠ kind, view p.id store.fs k = none) : Ready p store where
  mem a' ha' := Option.some.inj (ha.symm.trans ha') ▸ hp
  accepts a' ha' := by
    obtain rfl := Option.some.inj (ha.symm.trans ha')
    refine .inr fun k q hk => ?_
    by_cases hkind : k = kind
    · rw [hkind, hchosen.readable] at hk
      exact Option.some.inj hk ▸ hp
    · rw [readable, hgone k hkind] at hk
      cases hk
  present _ := by
    refine ⟨kind, ?_⟩
    rw [hchosen.readable]
    exact Option.some_ne_none p

/-- A crash outside the window leaves an acceptable entry on disk. -/
theorem good_of_crash {s : CrashSystem} (h : s.Invariant id) (hexp : ¬ s.Exposed id) :
    ∀ a, s.store.accepted = some a → Good id (view id s.store.fs) a := by
  intro a ha
  obtain ⟨store, phase⟩ := s
  have hne : store.accepted ≠ none := by rw [show store.accepted = some a from ha]; nofun
  cases phase with
  | idle worker =>
    obtain ⟨rfl, hready⟩ := h
    exact (hready.accepts a ha).good (hready.present hne)
  | regenerating start worker rest =>
    obtain ⟨rfl, hrest⟩ := h
    cases rest with
    | pure r =>
      have hready := (ready_of_regenerated hrest).2
      exact (hready.accepts a ha).good (hready.present hne)
    | op op k =>
      exact (hrest.1 a ha).resolve_right fun hwindow => hexp ⟨hne, hwindow⟩
  | down => exact h a ha
  | restoring rest =>
    obtain ⟨kind, p, hp, hkeeps⟩ := h.1 a ha
    exact ⟨kind, p, hp, hkeeps.inv⟩
  | restored result =>
    obtain ⟨m, kind, p, -, -, hp, hchosen, -⟩ := h.1 a ha
    exact ⟨kind, p, hp, hchosen⟩

/-- **Step.** Every event keeps the invariant, unless it is a crash of an exposed endpoint. -/
theorem invariant_step (hid : EndpointId.Allocatable id) {s t : CrashSystem} {e : CrashEvent}
    (h : Step id s e t) (hcrash : s.CrashCovered id e t) (hs : s.Invariant id) :
    t.Invariant id := by
  cases h with
  | regenerate store worker =>
    obtain ⟨rfl, hready⟩ := hs
    exact ⟨rfl, regenerate_guarded hready⟩
  | call store store' start worker op k b h => exact ⟨hs.1, hs.2.2 b store' h⟩
  | finish store start worker result after =>
    obtain ⟨rfl, hrest⟩ := hs
    obtain ⟨hafter, hready⟩ := ready_of_regenerated hrest
    refine ⟨congrArg EndpointPersist.id hafter, ?_⟩
    rw [show after.persist = worker.persist from hafter]
    exact hready
  | crash store phase =>
    have hgood := good_of_crash hs (hcrash rfl)
    exact hgood
  | restart store =>
    refine ⟨fun a ha => ?_, readEndpoints_own store.fs⟩
    obtain ⟨kind, p, hp, hchosen⟩ := hs a ha
    exact ⟨kind, p, hp, readEndpoints_keeps hid hchosen⟩
  | read store fs op k b h =>
    refine ⟨fun a ha => ?_, hs.2.2 b fs h⟩
    obtain ⟨kind, p, hp, hkeeps⟩ := hs.1 a ha
    exact ⟨kind, p, hp, hkeeps.2 b fs h⟩
  | restored store result =>
    refine ⟨fun a ha => ?_, hs.2⟩
    obtain ⟨kind, p, hp, hchosen, m, hr, hm, hgone⟩ := hs.1 a ha
    exact ⟨m, kind, p, hr, hm, hp, hchosen, hgone⟩
  | spawn store m persist h =>
    have hpersist : persist.id = id := by
      obtain h | ⟨-, h⟩ := h
      · exact hs.2 m rfl id persist h
      · exact h
    refine ⟨hpersist, ?_⟩
    cases hacc : store.accepted with
    | none =>
      have hnone : ∀ {a}, ¬ store.accepted = some a := by rw [hacc]; nofun
      exact ⟨fun a ha => (hnone ha).elim, fun a ha => (hnone ha).elim, fun hne => (hne hacc).elim⟩
    | some a =>
      obtain ⟨m', kind, p, hr, hm, hp, hchosen, hgone⟩ := hs.1 a hacc
      obtain rfl := Except.ok.inj hr
      -- The worker is built from the entry that was restored.
      obtain rfl : persist = p := by
        obtain h | ⟨h, -⟩ := h
        · exact Option.some.inj (h.symm.trans hm)
        · rw [hm] at h
          cases h
      subst hpersist
      exact ready_of_restored hacc hp hchosen hgone

/-! ### Executions and runs -/

/-- `ENOENT`. -/
def noEntry : IoError := ⟨.notFound, "No such file or directory (os error 2)"⟩

/-- One call of a regeneration, with its answer and the store it leaves. -/
theorem exec_call {α β : Type} {p : EndpointPersist} {op : WorkerOp β}
    {k : β → Prog WorkerOp α} {s : Store} (b : β) (s' : Store) {tr : List (Answered WorkerOp)}
    {q : Prog WorkerOp α} {t : Store} (h : storeSem p β op s b s')
    (rest : Exec (storeSem p) (k b) s' tr q t) :
    Exec (storeSem p) (.op op k) s (⟨op, b⟩ :: tr) q t :=
  .step op k s b s' tr q t h rest

/-- A directory with the state of `p`. -/
def stateDir (p : EndpointPersist) : StateDir := KeyMap.insert .empty epConfigName (.json p)

theorem content_stateDir (p : EndpointPersist) : content p.id (stateDir p) = some p := by
  rw [content, stateDir, KeyMap.insert_self]
  exact if_pos rfl

section

variable {p : EndpointPersist} {fs : Fs} {acc : Option (List EndpointPersist)}

theorem prepareNext_exec (hnext : fs (dirName p.id .next) = none) :
    ∃ tr, Exec (storeSem p) (prepareNext p.id).run ⟨fs, acc⟩ tr (.pure (.ok ()))
      ⟨fs.insert (dirName p.id .next) .empty, acc⟩ := by
  have hdir : (fs (dirName p.id .next)).getD .empty = .empty := by rw [hnext]; rfl
  let made : Store := ⟨fs.insert (dirName p.id .next) .empty, acc⟩
  exact ⟨_,
    exec_call (.error noEntry) ⟨fs, acc⟩ (by exact ⟨.inl ⟨hnext, ⟨_, rfl, rfl⟩, rfl⟩, rfl⟩) <|
    exec_call (Except.ok ()) made (by exact ⟨⟨rfl, by rw [hdir]⟩, rfl⟩) <|
    exec_call (Except.ok ()) made (by exact ⟨⟨.inr ⟨by simp [made], rfl⟩, rfl⟩, rfl⟩) <|
    .refl _ _⟩

/-- Writing the state file and attaching the endpoint. -/
theorem regenerateBpf_exec :
    ∃ tr, Exec (storeSem p) (regenerateBpf p).run ⟨fs.insert (dirName p.id .next) .empty, acc⟩ tr
      (.pure (.ok 0)) ⟨fs.insert (dirName p.id .next) (stateDir p), acc.map (p :: ·)⟩ := by
  let tmp : FileContents → Store := fun c =>
    ⟨fs.insert (dirName p.id .next) (KeyMap.insert .empty epConfigTmpName c), acc⟩
  let done : Store := ⟨fs.insert (dirName p.id .next) (stateDir p), acc⟩
  have hfiles : ((KeyMap.insert .empty epConfigTmpName (.json p) : StateDir).remove
      epConfigTmpName).insert epConfigName (.json p) = stateDir p := by
    rw [KeyMap.remove_insert, KeyMap.remove_eq_self rfl, stateDir]
  exact ⟨_,
    exec_call (Except.ok ()) (tmp .other)
      (by exact ⟨.inr ⟨_, KeyMap.insert_self _ _ _, rfl, by simp [tmp]⟩, rfl⟩) <|
    exec_call (Except.ok ()) (tmp (.json p))
      (by exact ⟨⟨rfl, .inr ⟨_, KeyMap.insert_self _ _ _, by simp [tmp]⟩⟩, rfl⟩) <|
    exec_call (Except.ok ()) (tmp (.json p)) (by exact ⟨⟨rfl, rfl⟩, rfl⟩) <|
    exec_call (Except.ok ()) done (by exact ⟨.inr ⟨_, _, KeyMap.insert_self _ _ _,
      KeyMap.insert_self _ _ _, rfl, by rw [hfiles, KeyMap.insert_insert]⟩, rfl⟩) <|
    exec_call (Except.ok ()) done (by exact ⟨⟨.inr ⟨by simp [done], rfl⟩, rfl⟩, rfl⟩) <|
    exec_call (Except.ok ()) ⟨done.fs, acc.map (p :: ·)⟩ (by exact ⟨rfl, rfl⟩) <|
    .refl _ _⟩

/-- The rest of a regeneration whose endpoint is attached. -/
def afterAttach (id : EndpointId) : WorkerM Unit := do
  settle id (.ok 0)
  WorkerM.fs (FsM.io (removeDirIfExists (dirName id .next)))
  let state ← get
  WorkerM.fs (FsM.result (perform (.publish state)))

/-- A part of a regeneration that succeeds, before the rest. -/
theorem exec_fs {α β : Type} {part : FsM α} (f : α → WorkerM β) {worker : EndpointState}
    {s t u : Store} {tr tr' : List (Answered WorkerOp)} {a : α}
    {q : Prog WorkerOp (Res β × EndpointState)}
    (h : Exec (storeSem p) part.run s tr (.pure (.ok a)) t)
    (rest : Exec (storeSem p) ((f a).runFrom worker) t tr' q u) :
    ∃ tr'', Exec (storeSem p) ((WorkerM.fs part >>= f).runFrom worker) s tr'' q u := by
  have hpart : Exec (storeSem p) ((WorkerM.fs part).runFrom worker) s (tr ++ [])
      (.pure (.ok a, worker)) t := Exec.bind h (.refl _ _)
  refine ⟨(tr ++ []) ++ tr', ?_⟩
  unfold WorkerM.runFrom
  rw [ExceptT.run_bind, StateT.run_bind]
  exact Exec.bind hpart rest

/-- A regeneration whose endpoint is attached, up to there. -/
theorem regenerate_exec {worker : EndpointState} (hnext : fs (dirName worker.id .next) = none)
    {tr : List (Answered WorkerOp)} {q : Prog WorkerOp (Res Unit × EndpointState)} {t : Store}
    (rest : Exec (storeSem worker.persist) ((afterAttach worker.id).runFrom worker)
      ⟨fs.insert (dirName worker.id .next) (stateDir worker.persist),
        acc.map (worker.persist :: ·)⟩ tr q t) :
    ∃ tr', Exec (storeSem worker.persist) (regenerate.runFrom worker) ⟨fs, acc⟩ tr' q t := by
  obtain ⟨tr₁, h₁⟩ := prepareNext_exec hnext
  obtain ⟨tr₂, h₂⟩ := regenerateBpf_exec
  have hbpf : Exec (storeSem worker.persist)
      (FsM.result (regenerateBpf worker.persist).run).run _ (tr₂ ++ []) (.pure (.ok (.ok 0))) _ :=
    Exec.bind h₂ (.refl _ _)
  obtain ⟨tr₃, h₃⟩ := exec_fs (fun result => do
    settle worker.id result
    WorkerM.fs (FsM.io (removeDirIfExists (dirName worker.id .next)))
    let state ← get
    WorkerM.fs (FsM.result (perform (.publish state)))) hbpf rest
  exact exec_fs _ h₁ h₃

/-- The disk with one directory of `p`. -/
def oneDir (p : EndpointPersist) (kind : DirKind) : Fs :=
  KeyMap.insert .empty (dirName p.id kind) (stateDir p)

theorem oneDir_of_ne (p : EndpointPersist) {kind k : DirKind} (hk : k ≠ kind) :
    oneDir p kind (dirName p.id k) = none := by
  rw [oneDir, KeyMap.insert_of_ne _ _ fun heq => hk (dirName_inj heq).2]
  rfl

/-- Renaming the only directory. -/
theorem rename_oneDir (p : EndpointPersist) (kind kind' : DirKind) :
    ((oneDir p kind).remove (dirName p.id kind)).insert (dirName p.id kind') (stateDir p) =
      oneDir p kind' := by
  rw [oneDir, KeyMap.remove_insert, KeyMap.remove_eq_self rfl, oneDir]

/-- A regeneration on an empty disk that commits. -/
theorem commit_exec (worker : EndpointState) :
    ∃ tr after, after.persist = worker.persist ∧
      Exec (storeSem worker.persist) (regenerate.runFrom worker) ⟨.empty, acc⟩ tr
        (.pure (.ok (), after)) ⟨oneDir worker.persist .current, some [worker.persist]⟩ := by
  let p := worker.persist
  let before : Store := ⟨oneDir p .next, acc.map (p :: ·)⟩
  let committed : Store := ⟨oneDir p .current, some [p]⟩
  have absent : ∀ {kind k : DirKind}, k ≠ kind → oneDir p kind (dirName p.id k) = none :=
    oneDir_of_ne p
  -- Only `_next` is there, so both moves to a backup find nothing and the third rename is the
  -- commit: from then on the loader's list is `[p]`.
  have hrest : ∃ tr after, after.persist = p ∧
      Exec (storeSem p) ((afterAttach p.id).runFrom worker) before tr
        (.pure (.ok (), after)) committed :=
    ⟨_, { worker with phase := .ready, generation := worker.generation + 1 }, rfl,
      exec_call (.error noEntry) before
        (by exact ⟨.inl ⟨absent (by decide), ⟨_, rfl, rfl⟩, rfl⟩, rfl⟩) <|
      exec_call (.error noEntry) before
        (by exact ⟨.inl ⟨absent (by decide), ⟨_, rfl, rfl⟩, rfl⟩, rfl⟩) <|
      exec_call (Except.ok ()) committed (by exact ⟨.inr ⟨_, KeyMap.insert_self _ _ _, .inr
        ⟨fun d hd => absurd ((absent (by decide)).symm.trans hd) nofun, rfl,
          (rename_oneDir p _ _).symm⟩⟩, (if_pos ⟨rfl, rfl⟩).symm⟩) <|
      exec_call (.error noEntry) committed
        (by exact ⟨.inl ⟨absent (by decide), ⟨_, rfl, rfl⟩, rfl⟩, rfl⟩) <|
      exec_call (.error noEntry) committed
        (by exact ⟨.inl ⟨absent (by decide), ⟨_, rfl, rfl⟩, rfl⟩, rfl⟩) <|
      exec_call () committed (by exact ⟨rfl, rfl⟩) <| .refl _ _⟩
  obtain ⟨tr, after, hafter, h⟩ := hrest
  obtain ⟨tr', h'⟩ := regenerate_exec rfl h
  exact ⟨tr', after, hafter, h'⟩

/-- The same regeneration, as far as the disk sees it. -/
theorem first_regenerate_exec (worker : EndpointState) :
    ∃ tr after, after.persist = worker.persist ∧
      Exec diskSem (regenerate.runFrom worker) .empty tr (.pure (.ok (), after))
        (oneDir worker.persist .current) := by
  let s : Store := ⟨.empty, none⟩
  obtain ⟨tr, after, hafter, h⟩ : ∃ tr after, after.persist = worker.persist ∧
      Exec (storeSem worker.persist) (regenerate.runFrom worker) s tr (.pure (.ok (), after))
        ⟨oneDir worker.persist .current, some [worker.persist]⟩ := commit_exec worker
  exact ⟨tr, after, hafter, h.map Store.fs fun β op s b t hop => hop.1⟩

/-- A regeneration that is cut between the two renames of its synchronization. -/
theorem cut_exec (worker : EndpointState) :
    ∃ tr q, Exec (storeSem worker.persist) (regenerate.runFrom worker)
      ⟨oneDir worker.persist .current, acc⟩ tr q
      ⟨(oneDir worker.persist .backup).insert (dirName worker.id .next) (stateDir worker.persist),
        acc.map (worker.persist :: ·)⟩ := by
  let p := worker.persist
  let before : Store :=
    ⟨(oneDir p .current).insert (dirName p.id .next) (stateDir p), acc.map (p :: ·)⟩
  let cut : Store :=
    ⟨(oneDir p .backup).insert (dirName p.id .next) (stateDir p), acc.map (p :: ·)⟩
  have hbackup : before.fs (dirName p.id .backup) = none := by
    simp [before, KeyMap.insert_apply, oneDir_of_ne]
  -- The first rename moves the current directory to the backup; the run is cut before the second
  -- one puts `_next` in its place.
  have hrename : cut.fs = (before.fs.remove (dirName p.id .current)).insert
      (dirName p.id .backup) (stateDir p) := by
    funext name
    simp only [before, cut, oneDir, KeyMap.insert_apply, KeyMap.remove_apply, KeyMap.empty_apply]
    by_cases hcur : name = dirName p.id .current
    · simp [hcur]
    · by_cases hnext : name = dirName p.id .next
      · simp [hnext]
      · simp [hcur, hnext]
  have hrest : ∃ tr q, Exec (storeSem p) ((afterAttach p.id).runFrom worker) before tr q cut :=
    ⟨_, _,
      exec_call (.error noEntry) before
        (by exact ⟨.inl ⟨hbackup, ⟨_, rfl, rfl⟩, rfl⟩, rfl⟩) <|
      exec_call (Except.ok ()) cut (by exact ⟨.inr ⟨stateDir p, by
        simp [before, KeyMap.insert_apply, oneDir], .inr
          ⟨fun d hd => absurd (hbackup.symm.trans hd) (Option.some_ne_none d).symm, rfl, hrename⟩⟩,
        (if_neg fun hand => absurd (dirName_inj hand.1).2 (by decide)).symm⟩) <|
      .refl _ _⟩
  obtain ⟨tr, q, h⟩ := hrest
  obtain ⟨tr', h'⟩ := regenerate_exec (oneDir_of_ne p (by decide)) h
  exact ⟨tr', q, h'⟩

/-- A regeneration that is cut after its first call, with all there is in `_next`. -/
theorem rewrite_exec (worker : EndpointState) :
    ∃ tr q, Exec (storeSem worker.persist) (regenerate.runFrom worker)
      ⟨oneDir worker.persist .next, acc⟩ tr q ⟨.empty, acc⟩ := by
  have hremove : (oneDir worker.persist .next).remove (dirName worker.id .next) = .empty := by
    rw [oneDir, EndpointState.id, KeyMap.remove_insert, KeyMap.remove_eq_self rfl]
  refine ⟨_, _, exec_call (Except.ok ()) ⟨.empty, acc⟩ (by
    exact ⟨.inr ⟨by simp [oneDir, EndpointState.id], rfl, hremove.symm⟩, rfl⟩) (.refl _ _)⟩

theorem readEndpoints_exec {fs' : Fs} {names : List String} (hnodup : names.Nodup)
    (hnames : ∀ n, n ∈ names ↔ fs n ≠ none) {m : KeyMap EndpointId EndpointPersist}
    {tr : List (Answered WorkerOp)}
    (h : Exec diskSem (restoreDirs .empty (groupDirs names)) fs tr (.pure m) fs') :
    ∃ tr', Exec diskSem readEndpoints.run fs tr' (.pure (.ok m)) fs' := by
  have hlisted := listedDirs_dirEntry names
  have hcollect : Exec diskSem collectEndpointDirs.run fs
      [⟨.readDir, Except.ok (names.map dirEntry)⟩] (.pure (.ok (groupDirs names))) fs := by
    refine .step _ _ _ (Except.ok (names.map dirEntry)) fs _ _ _
      (by exact ⟨⟨_, rfl, by rwa [hlisted], by rwa [hlisted]⟩, rfl⟩) ?_
    show Exec diskSem (Prog.pure (Except.ok (groupDirs (listedDirs (names.map dirEntry))))) fs []
      _ fs
    rw [hlisted]
    exact .refl _ _
  unfold readEndpoints
  rw [ExceptT.run_bind]
  exact ⟨_, Exec.bind hcollect (Exec.bind h (.refl _ _))⟩

/-- Restoring from `_next` and a backup directory keeps `_next` only. -/
theorem restore_exec (hid : EndpointId.Allocatable p.id) :
    ∃ tr, Exec diskSem readEndpoints.run
      ((oneDir p .backup).insert (dirName p.id .next) (stateDir p)) tr
      (.pure (.ok (KeyMap.insert .empty p.id p))) (oneDir p .next) := by
  let fs : Fs := (oneDir p .backup).insert (dirName p.id .next) (stateDir p)
  have hgroup : groupDirs [dirName p.id .next, dirName p.id .backup] =
      [(p.id, [(.next, dirName p.id .next), (.backup, dirName p.id .backup)])] := by
    have hparse : ∀ kind, parseDirName (dirName p.id kind) = some (p.id, kind) :=
      fun kind => parseDirName_eq_some.mpr ⟨hid, rfl⟩
    simp [groupDirs, parsedDirs, hparse]
  -- `_next` comes first among the candidates and is readable, so the backup is not looked at and
  -- goes with the superseded ones.
  have hread : Exec diskSem (readEndpointDir p.id (dirName p.id .next)).run fs
      [⟨.readFile (dirName p.id .next) epConfigName, .ok (.json p)⟩] (.pure (.ok p)) fs := by
    refine .step _ _ _ (Except.ok (FileContents.json p)) fs _ _ _
      (by exact ⟨.inr ⟨_, _, KeyMap.insert_self _ _ _, KeyMap.insert_self _ _ _, rfl⟩, rfl⟩) ?_
    show Exec _ (if p.id ≠ p.id then throw (.generalError _) else pure p : FsM _).run _ _ _ _
    rw [if_neg (not_not.mpr rfl)]
    exact .refl _ _
  have hremove : fs.remove (dirName p.id .backup) = oneDir p .next := by
    funext name
    simp only [fs, oneDir, KeyMap.insert_apply, KeyMap.remove_apply, KeyMap.empty_apply]
    by_cases hbackup : name = dirName p.id .backup
    · simp [hbackup]
    · simp [hbackup]
  have hchoose : Exec diskSem (chooseDir p.id 0
      [(.next, dirName p.id .next), (.backup, dirName p.id .backup)]) fs _
      (.pure (some (p, 0))) fs :=
    Exec.bind hread (.refl _ _)
  have hremoveAll : Exec diskSem (removeSuperseded [(.backup, dirName p.id .backup)]) fs _
      (.pure ()) (oneDir p .next) :=
    .step _ _ _ (Except.ok ()) _ _ _ _ (by exact .inr ⟨by simp [fs, oneDir, KeyMap.insert_apply],
      rfl, hremove.symm⟩) (.refl _ _)
  have hdirs : ∃ tr, Exec diskSem (restoreDirs .empty (groupDirs [dirName p.id .next,
      dirName p.id .backup])) fs tr (.pure (KeyMap.insert .empty p.id p)) (oneDir p .next) := by
    rw [hgroup]
    exact ⟨_, Exec.bind (Exec.bind hchoose (Exec.bind hremoveAll (.refl _ _))) (.refl _ _)⟩
  obtain ⟨tr, hdirs⟩ := hdirs
  have hnames : ∀ n, n ∈ [dirName p.id .next, dirName p.id .backup] ↔ fs n ≠ none := by
    intro n
    simp only [fs, oneDir, KeyMap.insert_apply, KeyMap.empty_apply, List.mem_cons,
      List.not_mem_nil, or_false]
    by_cases hnext : n = dirName p.id .next
    · simp [hnext]
    · by_cases hbackup : n = dirName p.id .backup
      · simp [hbackup]
      · simp [hnext, hbackup]
  exact readEndpoints_exec (by simp) hnames hdirs

/-- Without any directory nothing is restored. -/
theorem restore_exec_empty :
    ∃ tr, Exec diskSem readEndpoints.run .empty tr (.pure (.ok .empty)) .empty :=
  readEndpoints_exec List.nodup_nil (by simp) (.refl _ _)

end

/-- A run goes on along the calls of a regeneration. -/
theorem run_calls {init : CrashSystem} {start : DirView} {worker : EndpointState}
    {s t : Store} {q q' : Prog WorkerOp (Res Unit × EndpointState)} {tr : List (Answered WorkerOp)}
    (h : Exec (storeSem worker.persist) q s tr q' t)
    (run : Run (Step id) init ⟨s, .regenerating start worker q⟩) :
    ∃ run' : Run (Step id) init ⟨t, .regenerating start worker q'⟩,
      run.EachStep (CrashCovered id) → run'.EachStep (CrashCovered id) := by
  induction h with
  | refl => exact ⟨run, fun h => h⟩
  | step op k s b u tr q t hop _ ih =>
    obtain ⟨run', h'⟩ := ih (run.snoc _ .call _ (.call _ _ _ _ _ _ b hop))
    exact ⟨run', fun h => h' ⟨h, nofun⟩⟩

/-- A run goes on along the calls of a restore. -/
theorem run_reads {init : CrashSystem} {acc : Option (List EndpointPersist)} {fs fs' : Fs}
    {q q' : Prog WorkerOp (Res (KeyMap EndpointId EndpointPersist))}
    {tr : List (Answered WorkerOp)} (h : Exec diskSem q fs tr q' fs')
    (run : Run (Step id) init ⟨⟨fs, acc⟩, .restoring q⟩) :
    ∃ run' : Run (Step id) init ⟨⟨fs', acc⟩, .restoring q'⟩,
      run.EachStep (CrashCovered id) → run'.EachStep (CrashCovered id) := by
  induction h with
  | refl => exact ⟨run, fun h => h⟩
  | step op k s b u tr q t hop _ ih =>
    obtain ⟨run', h'⟩ := ih (run.snoc _ .read _ (.read _ _ _ _ b hop))
    exact ⟨run', fun h => h' ⟨h, nofun⟩⟩

/-- A first start on an empty disk, and a regeneration that commits. -/
theorem committed_run (p : EndpointPersist) :
    ∃ worker : EndpointState, worker.persist = p ∧
      ∃ run : Run (Step p.id) (init .empty) ⟨⟨oneDir p .current, some [p]⟩, .idle worker⟩,
        run.EachStep (CrashCovered p.id) := by
  obtain ⟨r₁, h₁⟩ : ∃ run : Run (Step p.id) (init .empty)
      ⟨⟨.empty, none⟩, .restoring readEndpoints.run⟩, run.EachStep (CrashCovered p.id) :=
    ⟨(Run.nil).snoc _ .restart _ (.restart _), by exact ⟨trivial, nofun⟩⟩
  obtain ⟨_, hempty⟩ := restore_exec_empty
  obtain ⟨r₂, h₂⟩ := run_reads hempty r₁
  obtain ⟨r₃, h₃⟩ : ∃ run : Run (Step p.id) (init .empty)
      ⟨⟨.empty, none⟩, .regenerating (view p.id .empty) { persist := p }
        (regenerate.runFrom { persist := p })⟩, run.EachStep (CrashCovered p.id) :=
    ⟨((r₂.snoc _ .restored _ (.restored _ _)).snoc _ .spawn _ (.spawn _ _ p (.inr ⟨rfl, rfl⟩))).snoc
      _ .regenerate _ (.regenerate _ _), by exact ⟨⟨⟨h₂ h₁, nofun⟩, nofun⟩, nofun⟩⟩
  obtain ⟨_, after, hafter, hcommit⟩ := commit_exec { persist := p }
  obtain ⟨r₄, h₄⟩ := run_calls hcommit r₃
  exact ⟨after, hafter, r₄.snoc _ .finish _ (.finish _ _ _ _ _), by exact ⟨h₄ h₃, by rintro ⟨⟩⟩⟩

/-- A run that commits, crashes between the two renames of the next regeneration and
    restores the endpoint from `_next`. -/
theorem recovered_run (p : EndpointPersist) (hid : EndpointId.Allocatable p.id) :
    ∃ run : Run (Step p.id) (init .empty)
      ⟨⟨oneDir p .next, some [p, p]⟩, .restored (.ok (KeyMap.insert .empty p.id p))⟩,
      run.EachStep (CrashCovered p.id) := by
  obtain ⟨worker, rfl, r₁, h₁⟩ := committed_run p
  obtain ⟨_, q, hcut⟩ := cut_exec worker
  obtain ⟨r₂, h₂⟩ := run_calls hcut (r₁.snoc _ .regenerate _ (.regenerate _ _))
  -- The regeneration that is cut started from a current directory, so the crash is covered.
  have hcovered : ∀ store, ¬ Exposed worker.id
      ⟨store, .regenerating (view worker.id (oneDir worker.persist .current)) worker q⟩ := by
    rintro store ⟨-, hexp⟩
    cases q with
    | pure r => exact hexp
    | op op k =>
      refine hexp.1.1 ?_
      rw [readable, view, EndpointState.id, oneDir_of_ne _ (by decide)]
      rfl
  obtain ⟨r₃, h₃⟩ : ∃ run : Run (Step worker.persist.id) (init .empty)
      ⟨⟨(oneDir worker.persist .backup).insert (dirName worker.id .next)
        (stateDir worker.persist), some [worker.persist, worker.persist]⟩,
        .restoring readEndpoints.run⟩, run.EachStep (CrashCovered worker.persist.id) :=
    ⟨(r₂.snoc _ .crash _ (.crash _ _)).snoc _ .restart _ (.restart _),
      by exact ⟨⟨h₂ ⟨h₁, by rintro ⟨⟩⟩, fun _ => hcovered _⟩, by rintro ⟨⟩⟩⟩
  obtain ⟨_, hrestore⟩ := restore_exec hid
  obtain ⟨r₄, h₄⟩ := run_reads hrestore r₃
  exact ⟨r₄.snoc _ .restored _ (.restored _ _), by exact ⟨h₄ h₃, by rintro ⟨⟩⟩⟩

/-! ### Crash safety -/

/-- **Crash safety.** Over every run of regenerations, crashes and restarts of an allocatable
    endpoint, in which the daemon does not crash while the endpoint is exposed: once a
    regeneration has committed, every completed restore returns an accepted entry. -/
theorem restore_safe_of_crashes (hid : EndpointId.Allocatable id) {fs : Fs} {s : CrashSystem}
    (run : Run (Step id) (init fs) s) (h : run.EachStep (CrashCovered id)) :
    run.Always (Safe id) := by
  have hinit : (init fs).Invariant id := by
    intro a ha
    cases ha
  exact (Run.always_of_eachStep hinit (fun s e t => invariant_step hid) run h).mono
    fun s hs => safe_of_invariant hs

/-- The endpoint is restored from `_next` after a crash between the two renames. -/
theorem recovered_run_safe :
    ∃ s, ∃ run : Run (Step 1) (init .empty) s, s.store.accepted ≠ none ∧
      (∃ r, s.phase = .restored r) ∧ run.Always (Safe 1) := by
  obtain ⟨run, h⟩ := recovered_run { id := 1 } (by decide)
  exact ⟨_, run, nofun, ⟨_, rfl⟩, restore_safe_of_crashes (by decide) run h⟩

/-- **A committed endpoint is lost.** After a restore from `_next`, the next regeneration
    removes `_next`; the daemon crashes, and nothing is restored. -/
theorem entry_lost : ¬ ∀ (fs : Fs) (s : CrashSystem) (run : Run (Step 1) (init fs) s),
    run.Always (Safe 1) := by
  intro hall
  obtain ⟨r₁, -⟩ := recovered_run { id := 1 } (by decide)
  let worker : EndpointState := { persist := { id := 1 } }
  obtain ⟨_, q, hrewrite⟩ := rewrite_exec worker
  obtain ⟨r₂, -⟩ := run_calls hrewrite ((r₁.snoc _ .spawn _
    (.spawn _ _ worker.persist (.inl rfl))).snoc _ .regenerate _ (.regenerate _ _))
  obtain ⟨_, hempty⟩ := restore_exec_empty
  obtain ⟨r₃, -⟩ := run_reads hempty ((r₂.snoc _ .crash _ (.crash _ _)).snoc _ .restart _
    (.restart _))
  obtain ⟨m, p, hm, hp, -⟩ :=
    (hall .empty _ (r₃.snoc _ .restored _ (.restored _ _))).last _ rfl
  obtain rfl := Except.ok.inj hm
  cases hp

end CrashSystem

end Sarena
