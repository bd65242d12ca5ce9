import Sarena.Endpoint.CrashSafety
import Sarena.Endpoint.RestoreOld
import Mathlib.Data.Set.Insert

namespace Sarena

open Lib

/-!
# Endpoint — deletions and restarts

`delete_endpoint` takes an endpoint out of the manager and waits for its worker, which still
runs the regenerations in its queue; but nothing calls `remove_directories`: the state
directories of a deleted endpoint stay on the disk, and the next life of the daemon restores
it.  This file finds out exactly when that happens.

* `DeletionSystem`, `DeletionSystem.Step` — callers, workers and deletions in any order, one
  call or critical section at a time, and restarts; file-system calls may fail, and the daemon
  may be stopped at any moment;
* `DeletionSystem.Durable` — a restart would report no deleted endpoint;
* `DeletionSystem.NothingLeft` — the condition on the state before a step: where a deletion
  answers `Ok`, no state directory of the endpoint can be read, and no worker that a deletion
  has left behind writes one after that;
* `durable_always_iff` — the runs in which deletions are durable are exactly those whose steps
  all meet the condition.
-/

/-- A state directory before the daemon is first started. -/
structure Disk where
  fs : Fs
  listed : fs.Listed

/-- The task of a worker. -/
structure WorkerTask where
  state : EndpointState
  /-- What is left of the regeneration at hand. -/
  work : Option (Prog WorkerOp (Res Unit × EndpointState)) := none
  /-- The call of `delete_endpoint` that has taken the endpoint out of the manager. -/
  takenBy : Option Nat := none
  /-- A deletion of the id has answered `Ok` since then. -/
  gone : Bool := false

/-- A call of `delete_endpoint`: the id, and what is left of the call. -/
structure DeleteCall where
  id : EndpointId
  rest : Prog ManagerOp (Res Unit)

/-- The disk, the daemon while it runs, and the endpoints deleted so far: those whose
    `delete_endpoint` answered `Ok`, until the state of a new endpoint with the id is written. -/
structure DeletionSystem where
  fs : Fs
  manager : Option EndpointManager
  workers : List WorkerTask
  calls : List DeleteCall
  deleted : Set EndpointId

/-- What happens to the daemon.  Workers and deletions are named by their place in the lists. -/
inductive DeletionEvent
  | create (persist : EndpointPersist)
  /-- A worker takes a regeneration out of its queue. -/
  | regenerate (i : Nat)
  /-- The next call of the regeneration, with its answer. -/
  | call (i : Nat) (a : Answered WorkerOp)
  /-- The regeneration returns. -/
  | finish (i : Nat)
  /-- The task ends: drained, aborted, or unwound. -/
  | exit (i : Nat)
  | delete (id : EndpointId) (timeout : Option Nat)
  /-- The next critical section of a deletion, and what the deletion answers after it. -/
  | deleteStep (j : Nat) (answer : Option (Res Unit))
  | stop
  | restart

/-- The call puts a state file in its place from which the endpoint would be restored. -/
def Installs (fs : Fs) (id : EndpointId) : Answered WorkerOp → Prop
  | ⟨.renameFile dir source target, .ok ()⟩ => dir = dirName id .next ∧ target = epConfigName ∧
      EndpointId.Allocatable id ∧
      ∃ d p, fs dir = some d ∧ d source = some (.json p) ∧ p.id = id
  | _ => False

namespace DeletionSystem

/-- The daemon before its first start. -/
def init (disk : Disk) : DeletionSystem := ⟨disk.fs, none, [], [], ∅⟩

/-- The worker of an endpoint that was added. -/
def spawned : Res Endpoint → List WorkerTask
  | .ok ep => [{ state := ep.status }]
  | .error _ => []

/-- The manager shows what a worker published, while it has the worker's endpoint. -/
def published (m : EndpointManager) (w : WorkerTask) : Res Unit × EndpointState → EndpointManager
  | (.ok (), state) =>
    if w.takenBy = none then m.publish w.state.id state.phase state.generation else m
  | (.error _, _) => m

/-- The workers after a section of call `j`: the first one takes an endpoint. -/
def takes (j : Nat) (workers : List WorkerTask) : ∀ β : Type, ManagerOp β → List WorkerTask
  | _, .takeEndpoint id => workers.map fun w =>
      if w.state.id = id ∧ w.takenBy = none then { w with takenBy := some j } else w
  | _, _ => workers

/-- A wait answers `Ok` when the worker of the endpoint that the call took has ended. -/
def Awaited (j : Nat) (workers : List WorkerTask) : Answered ManagerOp → Prop
  | ⟨.waitForShutdown _ _, .ok ()⟩ => ∀ w ∈ workers, w.takenBy ≠ some j
  | _ => True

/-- What a call answers when nothing is left of it. -/
def returned : Prog ManagerOp (Res Unit) → Option (Res Unit)
  | .pure result => some result
  | .op _ _ => none

/-- The workers after a deletion of the id has answered. -/
def leaves (id : EndpointId) (workers : List WorkerTask) : Option (Res Unit) → List WorkerTask
  | some (.ok ()) => workers.map fun w =>
      if w.state.id = id ∧ w.takenBy ≠ none then { w with gone := true } else w
  | _ => workers

/-- The deleted endpoints after a deletion of the id has answered. -/
def deletes (id : EndpointId) (deleted : Set EndpointId) : Option (Res Unit) → Set EndpointId
  | some (.ok ()) => insert id deleted
  | _ => deleted

/-- The steps of the system.  A restart may be cut by a crash, or fail, and then no daemon
    runs. -/
def Step (s : DeletionSystem) : DeletionEvent → DeletionSystem → Prop
  | .create persist, t => ∃ m m', s.manager = some m ∧ m.AllocateNewId (.ok persist.id) m' ∧
      t = { s with
        manager := some (m'.addEndpoint persist).2
        workers := s.workers ++ spawned (m'.addEndpoint persist).1 }
  | .regenerate i, t => ∃ w, s.workers[i]? = some w ∧ w.work = none ∧
      t = { s with
        workers := s.workers.set i { w with work := some (regenerate.runFrom w.state) } }
  | .call i a, t => ∃ w k fs, s.workers[i]? = some w ∧ w.work = some (.op a.op k) ∧
      faultySem a.β a.op s.fs a.answer fs ∧
      t = { s with
        fs := fs
        workers := s.workers.set i { w with work := some (k a.answer) }
        deleted := {id ∈ s.deleted | id = w.state.id → w.gone = true ∨ ¬ Installs s.fs id a} }
  | .finish i, t => ∃ w r, s.workers[i]? = some w ∧ w.work = some (.pure r) ∧
      t = { s with
        manager := s.manager.map (published · w r)
        workers := s.workers.set i { w with state := r.2, work := none } }
  | .exit i, t => t = { s with workers := s.workers.eraseIdx i }
  | .delete id timeout, t => s.manager ≠ none ∧
      t = { s with calls := s.calls ++ [⟨id, deleteEndpoint id timeout⟩] }
  | .deleteStep j answer, t => ∃ (c : DeleteCall) (β : Type) (op : ManagerOp β)
      (k : β → Prog ManagerOp (Res Unit)) (b : β) (m m' : EndpointManager),
      s.calls[j]? = some c ∧ c.rest = .op op k ∧ s.manager = some m ∧
      EndpointManager.sem β op m b m' ∧ Awaited j s.workers ⟨op, b⟩ ∧ answer = returned (k b) ∧
      t = { s with
        manager := some m'
        workers := leaves c.id (takes j s.workers β op) answer
        calls := s.calls.set j { c with rest := k b }
        deleted := deletes c.id s.deleted answer }
  | .stop, t => t = { s with manager := none, workers := [], calls := [] }
  | .restart, t => s.manager = none ∧ ∃ tr q fs m',
      Exec (restoreSem faultySem) restoreOldEndpoints.run (s.fs, .new) tr q (fs, m') ∧
      t = ⟨fs, match q with
        | .pure (.ok _) => some m'
        | _ => none, [], [], s.deleted⟩

/-- Whatever a restart from here reports as restored, no deleted endpoint is among it. -/
def Durable (s : DeletionSystem) : Prop :=
  ∀ tr restored toClean t, Exec (restoreSem faultySem) restoreOldEndpoints.run (s.fs, .new) tr
    (.pure (.ok (restored, toClean))) t → ∀ p ∈ restored, p.id ∉ s.deleted

/-- The condition on the state before a step: when a deletion answers `Ok`, after its worker
    has drained its queue, none of the state directories of the endpoint can be read; and a
    worker whose endpoint is gone does not put its state file in place. -/
def NothingLeft (s : DeletionSystem) : DeletionEvent → Prop
  | .deleteStep j (some (.ok ())) => ∀ c, s.calls[j]? = some c → ∀ p, ¬ OnDisk s.fs c.id p
  | .call i a => ∀ w, s.workers[i]? = some w → w.gone = true → w.state.id ∈ s.deleted →
      ¬ Installs s.fs w.state.id a
  | _ => True

/-! ### What is restored -/

/-- A restart reports exactly what is on the disk, as far as ids go. -/
theorem durable_iff {s : DeletionSystem} (hlisted : s.fs.Listed) :
    s.Durable ↔ ∀ i ∈ s.deleted, ∀ p, ¬ OnDisk s.fs i p := by
  constructor
  · rintro hdurable i hi p ⟨halloc, k, hk⟩
    -- Some directory is preferred; a restart without failures reports its endpoint.
    obtain ⟨kind, q, hchosen⟩ := Present.chosen ⟨k, by rw [hk]; nofun⟩
    obtain ⟨tr, r, t, hx⟩ := restoreOldEndpoints_exec hlisted .new
    have hfree : ∀ j, EndpointId.Allocatable j → j ∈ EndpointManager.new.idAllocator.ids :=
      fun j hj => Finset.mem_Icc.mpr hj
    have hid : q.id = i := readable_id hchosen.readable
    subst hid
    have hmem := ((restored_iff_chosen s.fs hfree).exec hx q).mpr ⟨halloc, kind, hchosen⟩
    refine hdurable tr r.1 r.2 t (hx.map id fun β op s b t h => ?_) q hmem hi
    cases op with
    | inl op => exact ⟨.inl h.1, h.2⟩
    | inr op => cases op <;> exact h
  · intro hnone tr restored toClean t hx p hp hdel
    exact hnone _ hdel p (((restored_readable s.fs .new).exec hx).2 p hp)

/-! ### What a regeneration does to the disk -/

/-- The calls that a regeneration of `id` makes. -/
def OwnCall (id : EndpointId) : ∀ β : Type, WorkerOp β → Prop
  | _, .removeDirAll dir => ∃ k, dir = dirName id k
  | _, .createDirAll dir => ∃ k, dir = dirName id k
  | _, .renameDir source target => (∃ k, source = dirName id k) ∧ ∃ k, target = dirName id k
  | _, .createFile dir file => (∃ k, dir = dirName id k) ∧ file = epConfigTmpName
  | _, .writeFile dir file _ => (∃ k, dir = dirName id k) ∧ file = epConfigTmpName
  | _, .renameFile dir _ target => dir = dirName id .next ∧ target = epConfigName
  | _, _ => True

/-- What was not on the disk is not there afterwards either. -/
def NoNewState (id : EndpointId) (fs fs' : Fs) : Prop :=
  (∀ p, ¬ OnDisk fs id p) → ∀ p, ¬ OnDisk fs' id p

theorem NoNewState.of_readable {id : EndpointId} {fs fs' : Fs}
    (h : ∀ k p, readable id (view id fs') k = some p → ∃ k', readable id (view id fs) k' = some p) :
    NoNewState id fs fs' := by
  rintro hnone p ⟨halloc, k, hk⟩
  exact hnone p ⟨halloc, h k p hk⟩

/-- Directories whose contents were there before. -/
theorem NoNewState.update {id : EndpointId} {fs fs' : Fs} {kind : DirKind} {d : Option StateDir}
    (hview : view id fs' = Function.update (view id fs) kind d)
    (hd : ∀ p, d.bind (content id) = some p → ∃ k, readable id (view id fs) k = some p) :
    NoNewState id fs fs' := by
  refine .of_readable fun k p hk => ?_
  rw [hview, readable_update] at hk
  split at hk
  · exact hd p hk
  · exact ⟨k, hk⟩

/-- A file other than the state file in one of the directories. -/
theorem NoNewState.insertFile {id : EndpointId} {fs : Fs} {kind : DirKind} {d : StateDir}
    (hd : fs (dirName id kind) = some d) (c : FileContents) :
    NoNewState id fs (fs.insert (dirName id kind) (d.insert epConfigTmpName c)) := by
  refine .update (view_insert id fs kind _) fun p hp => ⟨kind, ?_⟩
  rw [Option.bind_some, content_insert_of_ne id d epConfigTmpName_ne] at hp
  rw [readable, view, hd, Option.bind_some, hp]

/-- A state file that can be read is that of the endpoint. -/
theorem json_of_content {id : EndpointId} {d : StateDir} {c : FileContents} {p : EndpointPersist}
    (h : (some (d.insert epConfigName c)).bind (content id) = some p) :
    ∃ p, c = .json p ∧ p.id = id := by
  rw [Option.bind_some, content, KeyMap.insert_self] at h
  cases c with
  | json p =>
    dsimp only at h
    split_ifs at h with hid
    exact ⟨p, rfl, hid⟩
  | other => cases h

/-- **Step.** A call of a regeneration leaves the directories of the other endpoints alone, and
    brings no new state of its own except where it puts the state file in its place. -/
theorem ownCall_step {id : EndpointId} {β : Type} {op : WorkerOp β} {fs fs' : Fs} {b : β}
    (hop : OwnCall id β op) (h : faultySem β op fs b fs') :
    (∀ i, i ≠ id → view i fs' = view i fs) ∧
      (Installs fs id ⟨op, b⟩ ∨ NoNewState id fs fs') := by
  obtain h | ⟨-, rfl⟩ := h
  swap
  · -- A call that fails on its own leaves the disk as it was.
    exact ⟨fun _ _ => rfl, .inr fun hnone => hnone⟩
  cases op with
  | removeDirAll dir =>
    obtain ⟨k, rfl⟩ := hop
    obtain ⟨-, -, rfl⟩ | ⟨-, -, rfl⟩ := h
    · exact ⟨fun _ _ => rfl, .inr fun hnone => hnone⟩
    · refine ⟨fun i hi => view_remove_of_ne hi.symm fs k, .inr ?_⟩
      exact .update (view_remove id fs k) fun _ hp => nomatch hp
  | createDirAll dir =>
    obtain ⟨k, rfl⟩ := hop
    rw [h.2]
    refine ⟨fun i hi => view_insert_of_ne hi.symm fs k _, .inr ?_⟩
    refine .update (view_insert id fs k _) fun p hp => ⟨k, ?_⟩
    rw [readable, view]
    cases hd : fs (dirName id k) with
    | none =>
      rw [hd] at hp
      cases hp
    | some d =>
      rw [hd] at hp
      exact hp
  | renameDir source target =>
    obtain ⟨⟨k, rfl⟩, k', rfl⟩ := hop
    obtain ⟨-, -, rfl⟩ | ⟨d, hd, ⟨d', -, -, -, rfl⟩ | ⟨-, -, rfl⟩⟩ := h
    · exact ⟨fun _ _ => rfl, .inr fun hnone => hnone⟩
    · exact ⟨fun _ _ => rfl, .inr fun hnone => hnone⟩
    · refine ⟨fun i hi => ?_, .inr (.of_readable fun j p hj => ?_)⟩
      · rw [view_insert_of_ne hi.symm, view_remove_of_ne hi.symm]
      · -- What can be read at the target could be read at the source.
        rw [view_insert, view_remove, readable_update, readable_update] at hj
        by_cases hjk' : j = k'
        · rw [if_pos hjk', Option.bind_some] at hj
          exact ⟨k, by rw [readable, view, hd, Option.bind_some, hj]⟩
        · rw [if_neg hjk'] at hj
          by_cases hjk : j = k
          · rw [if_pos hjk] at hj
            cases hj
          · rw [if_neg hjk] at hj
            exact ⟨j, hj⟩
  | createFile dir file =>
    obtain ⟨⟨k, rfl⟩, rfl⟩ := hop
    obtain ⟨-, -, rfl⟩ | ⟨d, hd, -, rfl⟩ := h
    · exact ⟨fun _ _ => rfl, .inr fun hnone => hnone⟩
    · exact ⟨fun i hi => view_insert_of_ne hi.symm fs k _, .inr (.insertFile hd .other)⟩
  | writeFile dir file persist =>
    obtain ⟨⟨k, rfl⟩, rfl⟩ := hop
    obtain ⟨-, ⟨-, rfl⟩ | ⟨d, hd, rfl⟩⟩ := h
    · exact ⟨fun _ _ => rfl, .inr fun hnone => hnone⟩
    · exact ⟨fun i hi => view_insert_of_ne hi.symm fs k _, .inr (.insertFile hd _)⟩
  | renameFile dir source target =>
    obtain ⟨rfl, rfl⟩ := hop
    obtain ⟨-, -, rfl⟩ | ⟨d, c, hd, hc, rfl, rfl⟩ := h
    · exact ⟨fun _ _ => rfl, .inr fun hnone => hnone⟩
    · -- The one call that can bring new state: the file that is renamed holds the endpoint.
      refine ⟨fun i hi => view_insert_of_ne hi.symm fs .next _, ?_⟩
      by_cases halloc : EndpointId.Allocatable id
      · by_cases hjson : ∃ p, c = .json p ∧ p.id = id
        · obtain ⟨p, rfl, hp⟩ := hjson
          exact .inl ⟨rfl, rfl, halloc, d, p, hd, hc, hp⟩
        · refine .inr (.update (view_insert id fs .next _) fun p hp => absurd ?_ hjson)
          exact json_of_content hp
      · exact .inr fun _ p hp => halloc hp.1
  | setPermissions dir mode => exact h.2 ▸ ⟨fun _ _ => rfl, .inr fun hnone => hnone⟩
  | syncFile dir file => exact h.2 ▸ ⟨fun _ _ => rfl, .inr fun hnone => hnone⟩
  | syncDir dir => exact h.2 ▸ ⟨fun _ _ => rfl, .inr fun hnone => hnone⟩
  | readDir => exact h.2 ▸ ⟨fun _ _ => rfl, .inr fun hnone => hnone⟩
  | readFile dir file => exact h.2 ▸ ⟨fun _ _ => rfl, .inr fun hnone => hnone⟩
  | addLoaderEndpoint persist =>
    exact (show fs' = fs from h) ▸ ⟨fun _ _ => rfl, .inr fun hnone => hnone⟩
  | publish state => exact (show fs' = fs from h) ▸ ⟨fun _ _ => rfl, .inr fun hnone => hnone⟩

/-- After it was installed, the state is on the disk. -/
theorem Installs.onDisk {id : EndpointId} {a : Answered WorkerOp} {fs fs' : Fs}
    (h : Installs fs id a) (hstep : faultySem a.β a.op fs a.answer fs') :
    ∃ p, OnDisk fs' id p := by
  obtain ⟨op, b⟩ := a
  cases op with
  | renameFile dir source target =>
    cases b with
    | error e => exact h.elim
    | ok u =>
      obtain ⟨rfl, rfl, halloc, d, p, hd, hp, hid⟩ := h
      obtain (⟨-, ⟨_, he, -⟩, -⟩ | ⟨d', c, hd', hc, -, rfl⟩) | ⟨⟨_, he⟩, -⟩ := hstep
      · cases he
      · cases hd.symm.trans hd'
        cases hp.symm.trans hc
        refine ⟨p, halloc, .next, ?_⟩
        rw [readable, view_insert, Function.update_self, Option.bind_some, content,
          KeyMap.insert_self]
        exact if_pos hid
      · cases he
  | _ => exact h.elim

section

variable (id : EndpointId)

private theorem io_ownCalls {op : WorkerOp (IoResult Unit)} (hop : OwnCall id _ op) :
    (FsM.io (perform op)).run.Uses (OwnCall id) :=
  ⟨hop, fun _ => trivial⟩

private theorem remove_ownCalls (kind : DirKind) :
    (FsM.io (removeDirIfExists (dirName id kind))).run.Uses (OwnCall id) :=
  ⟨⟨kind, rfl⟩, fun _ => trivial⟩

theorem prepareNext_ownCalls : (prepareNext id).run.Uses (OwnCall id) := by
  refine Prog.uses_try (remove_ownCalls id .next) fun _ => ?_
  exact Prog.uses_try (io_ownCalls id ⟨.next, rfl⟩) fun _ => io_ownCalls id trivial

theorem synchronizeDirectories_ownCalls : (synchronizeDirectories id).run.Uses (OwnCall id) := by
  refine Prog.uses_try (remove_ownCalls id .backup) fun _ => ?_
  refine Prog.uses_try ⟨⟨⟨.current, rfl⟩, .backup, rfl⟩, fun b => ?_⟩ fun hadCurrent => ?_
  · cases b with
    | ok _ => trivial
    | error e =>
      show (if e.kind = .notFound then pure false else throw (.fileError e) :
        FsM Bool).run.Uses _
      split <;> trivial
  refine ⟨⟨⟨.next, rfl⟩, .current, rfl⟩, fun b => ?_⟩
  cases b with
  | ok _ => exact ⟨⟨.backup, rfl⟩, fun _ => trivial⟩
  | error e =>
    cases hadCurrent with
    | true => exact ⟨⟨⟨.backup, rfl⟩, .current, rfl⟩, fun _ => trivial⟩
    | false => trivial

theorem keepFailed_ownCalls : (keepFailed id).run.Uses (OwnCall id) :=
  Prog.uses_try (remove_ownCalls id .nextFailed) fun _ =>
    io_ownCalls id ⟨⟨.next, rfl⟩, .nextFailed, rfl⟩

theorem regenerateBpf_ownCalls (persist : EndpointPersist) :
    (regenerateBpf persist).run.Uses (OwnCall persist.id) := by
  have hwrite : (writeState persist (dirName persist.id .next)).run.Uses (OwnCall persist.id) := by
    refine Prog.uses_try (io_ownCalls _ ⟨⟨.next, rfl⟩, rfl⟩) fun _ => ?_
    refine Prog.uses_try ⟨⟨⟨.next, rfl⟩, rfl⟩, fun _ => trivial⟩ fun _ => ?_
    refine Prog.uses_try (io_ownCalls _ trivial) fun _ => ?_
    exact Prog.uses_try (io_ownCalls _ ⟨rfl, rfl⟩) fun _ => io_ownCalls _ trivial
  refine Prog.uses_try hwrite fun _ => ?_
  exact Prog.uses_try ⟨trivial, fun _ => trivial⟩ fun _ => trivial

theorem settle_ownCalls (result : Res Nat) (worker : EndpointState) :
    ((settle id result).runFrom worker).Uses (OwnCall id) := by
  cases result with
  | ok revision =>
    exact Prog.uses_tryAt (Prog.uses_liftAt (synchronizeDirectories_ownCalls id))
      fun _ _ => trivial
  | error e =>
    exact Prog.uses_tryAt trivial fun _ _ => Prog.uses_liftAt (keepFailed_ownCalls id)

end

/-- A regeneration only makes such calls. -/
theorem regenerate_ownCalls (worker : EndpointState) :
    (regenerate.runFrom worker).Uses (OwnCall worker.id) := by
  show ((do
    WorkerM.fs (prepareNext worker.id)
    let result ← WorkerM.fs (FsM.result (regenerateBpf worker.persist).run)
    settle worker.id result
    WorkerM.fs (FsM.io (removeDirIfExists (dirName worker.id .next)))
    let state ← get
    WorkerM.fs (FsM.result (perform (.publish state))) : WorkerM Unit).runFrom worker).Uses _
  refine Prog.uses_tryAt (Prog.uses_liftAt (prepareNext_ownCalls _)) fun _ w => ?_
  refine Prog.uses_tryAt (Prog.uses_liftAt
    (Prog.uses_bind (regenerateBpf_ownCalls worker.persist) fun _ => trivial)) fun result w => ?_
  refine Prog.uses_tryAt (settle_ownCalls worker.id result w) fun _ w => ?_
  refine Prog.uses_tryAt (Prog.uses_liftAt (remove_ownCalls _ _)) fun _ w => ?_
  exact Prog.uses_tryAt trivial fun _ _ => ⟨trivial, fun _ => trivial⟩

/-! ### What every step keeps -/

/-- A call on a disk leaves finitely many directories. -/
theorem listed_faulty {β : Type} {op : WorkerOp β} {fs fs' : Fs} {b : β} (hfs : fs.Listed)
    (h : faultySem β op fs b fs') : fs'.Listed := by
  obtain h | ⟨-, rfl⟩ := h
  · exact hfs.step h
  · exact hfs

variable {s t : DeletionSystem}

/-- The disk has finitely many directories, and what is left of a regeneration is one of the
    worker's endpoint. -/
structure Inv (s : DeletionSystem) : Prop where
  listed : s.fs.Listed
  own : ∀ w ∈ s.workers, ∀ p, w.work = some p → p.Uses (OwnCall w.state.id)

theorem inv_init (disk : Disk) : Inv (init disk) where
  listed := disk.listed
  own _ h := nomatch h

/-- One worker goes on. -/
theorem own_set {workers : List WorkerTask} {i : Nat} {w : WorkerTask}
    (h : ∀ w ∈ workers, ∀ p, w.work = some p → p.Uses (OwnCall w.state.id))
    (hw : ∀ p, w.work = some p → p.Uses (OwnCall w.state.id)) :
    ∀ w' ∈ workers.set i w, ∀ p, w'.work = some p → p.Uses (OwnCall w'.state.id) := by
  intro w' hmem
  rcases List.mem_or_eq_of_mem_set hmem with hmem | rfl
  · exact h w' hmem
  · exact hw

/-- The flags of the workers are set, and nothing else of them changes. -/
theorem own_map {workers : List WorkerTask} {f : WorkerTask → WorkerTask}
    (h : ∀ w ∈ workers, ∀ p, w.work = some p → p.Uses (OwnCall w.state.id))
    (hf : ∀ w, (f w).work = w.work ∧ (f w).state = w.state) :
    ∀ w ∈ workers.map f, ∀ p, w.work = some p → p.Uses (OwnCall w.state.id) := by
  intro w' hmem
  obtain ⟨w, hw, rfl⟩ := List.mem_map.mp hmem
  rw [(hf w).1, (hf w).2]
  exact h w hw

/-- **Step.** -/
theorem Inv.step {e : DeletionEvent} (h : Step s e t) (hs : Inv s) : Inv t := by
  cases e with
  | create persist =>
    obtain ⟨m, m', -, -, rfl⟩ := h
    refine ⟨hs.listed, fun w hw => ?_⟩
    rcases List.mem_append.mp hw with hw | hw
    · exact hs.own w hw
    · intro p hp
      cases hadd : (m'.addEndpoint persist).1 with
      | ok ep =>
        rw [hadd] at hw
        obtain rfl := List.mem_singleton.mp hw
        cases hp
      | error e =>
        rw [hadd] at hw
        cases hw
  | regenerate i =>
    obtain ⟨w, -, -, rfl⟩ := h
    refine ⟨hs.listed, own_set hs.own ?_⟩
    rintro _ ⟨⟩
    exact regenerate_ownCalls w.state
  | call i a =>
    obtain ⟨w, k, fs, hw, hwork, hstep, rfl⟩ := h
    refine ⟨listed_faulty hs.listed hstep, own_set hs.own ?_⟩
    rintro _ ⟨⟩
    exact (hs.own w (List.mem_of_getElem? hw) _ hwork).2 a.answer
  | finish i =>
    obtain ⟨w, r, -, -, rfl⟩ := h
    refine ⟨hs.listed, own_set hs.own ?_⟩
    rintro _ ⟨⟩
  | exit i =>
    rw [show t = _ from h]
    exact ⟨hs.listed, fun w hw => hs.own w (List.mem_of_mem_eraseIdx hw)⟩
  | delete id timeout => exact (show t = _ from h.2) ▸ ⟨hs.listed, hs.own⟩
  | deleteStep j answer =>
    obtain ⟨c, β, op, k, b, m, m', -, -, -, -, -, -, rfl⟩ := h
    -- A section only sets flags of workers, before the answer and after it.
    have htakes : ∀ w ∈ takes j s.workers β op, ∀ p, w.work = some p →
        p.Uses (OwnCall w.state.id) := by
      cases op with
      | takeEndpoint id =>
        refine own_map hs.own fun w => ?_
        split_ifs
        · exact ⟨rfl, rfl⟩
        · exact ⟨rfl, rfl⟩
      | _ => exact hs.own
    refine ⟨hs.listed, ?_⟩
    show ∀ w ∈ leaves c.id (takes j s.workers β op) answer, ∀ p, w.work = some p →
      p.Uses (OwnCall w.state.id)
    unfold leaves
    split
    · refine own_map htakes fun w => ?_
      split_ifs
      · exact ⟨rfl, rfl⟩
      · exact ⟨rfl, rfl⟩
    · exact htakes
  | stop =>
    rw [show t = _ from h]
    exact ⟨hs.listed, fun _ hw => nomatch hw⟩
  | restart =>
    obtain ⟨-, tr, q, fs, m', hx, rfl⟩ := h
    have hdisk := fun β op fs b fs' (h : faultySem β op fs b fs') (hfs : fs.Listed) =>
      listed_faulty hfs h
    exact ⟨hx.invariant (·.1.Listed) (fun _ _ _ _ _ hop => listed_restoreSem hdisk hop) hs.listed,
      fun _ hw => nomatch hw⟩

/-- Whatever of a restart is carried out, it brings no endpoint onto the disk. -/
theorem restart_onDisk {fs fs' : Fs} {m m' : EndpointManager} {tr : List (Answered RestoreOp)}
    {q : Prog RestoreOp (Res (List EndpointPersist × List EndpointPersist))}
    (h : Exec (restoreSem faultySem) restoreOldEndpoints.run (fs, m) tr q (fs', m'))
    {i : EndpointId}
    {p : EndpointPersist} (hp : OnDisk fs' i p) : OnDisk fs i p := by
  have hwithin : fs'.Within fs := by
    have hrest := (restored_readable fs m).exec h
    cases q with
    | op op k => exact hrest.1
    | pure r =>
      cases r with
      | ok r => exact hrest.1
      | error e => exact hrest
  obtain ⟨halloc, k, hk⟩ := hp
  refine ⟨halloc, k, ?_⟩
  obtain ⟨d, hd, hcontent⟩ := Option.bind_eq_some_iff.mp hk
  rw [readable, view, hwithin _ d hd, Option.bind_some, hcontent]

/-- A call of a worker leaves nothing of the deleted endpoints on the disk, unless the endpoint
    is gone and its state file is put in place. -/
theorem call_iff {w : WorkerTask} {a : Answered WorkerOp} {fs : Fs}
    (hown : OwnCall w.state.id a.β a.op) (h : faultySem a.β a.op s.fs a.answer fs)
    (hnone : ∀ i ∈ s.deleted, ∀ p, ¬ OnDisk s.fs i p) :
    (∀ i ∈ s.deleted, (i = w.state.id → w.gone = true ∨ ¬ Installs s.fs i a) →
        ∀ p, ¬ OnDisk fs i p) ↔
      (w.gone = true → w.state.id ∈ s.deleted → ¬ Installs s.fs w.state.id a) := by
  obtain ⟨hother, hstep⟩ := ownCall_step hown h
  constructor
  · intro hall hgone hdeleted hinstalls
    obtain ⟨p, hp⟩ := Installs.onDisk hinstalls h
    exact hall _ hdeleted (fun _ => .inl hgone) p hp
  · intro hkeeps i hi hcount p hp
    -- Only the directories of the worker's own endpoint are touched.
    by_cases hid : i = w.state.id
    · subst hid
      have hnot : ¬ Installs s.fs w.state.id a := by
        rcases hcount rfl with hgone | hnot
        · exact hkeeps hgone hi
        · exact hnot
      rcases hstep with hinstalls | hnew
      · exact hnot hinstalls
      · exact hnew (hnone _ hi) p hp
    · rw [OnDisk, hother i hid] at hp
      exact hnone i hi p hp

/-- **Step.** A step keeps deletions durable exactly when it meets the condition. -/
theorem step_iff {e : DeletionEvent} (h : Step s e t) (hinv : Inv s) (hs : s.Durable) :
    t.Durable ↔ s.NothingLeft e := by
  have hnone := (durable_iff hinv.listed).mp hs
  rw [durable_iff (hinv.step h).listed]
  cases e with
  | create persist =>
    obtain ⟨m, m', -, -, rfl⟩ := h
    exact iff_of_true hnone trivial
  | regenerate i =>
    obtain ⟨w, -, -, rfl⟩ := h
    exact iff_of_true hnone trivial
  | call i a =>
    obtain ⟨w, k, fs, hw, hwork, hstep, rfl⟩ := h
    have hown := (hinv.own w (List.mem_of_getElem? hw) _ hwork).1
    constructor
    · intro hall w' hw'
      obtain rfl := Option.some.inj (hw.symm.trans hw')
      exact (call_iff hown hstep hnone).mp fun i hi hcount => hall i ⟨hi, hcount⟩
    · rintro hkeeps i ⟨hi, hcount⟩
      exact (call_iff hown hstep hnone).mpr (hkeeps w hw) i hi hcount
  | finish i =>
    obtain ⟨w, r, -, -, rfl⟩ := h
    exact iff_of_true hnone trivial
  | exit i =>
    rw [show t = _ from h]
    exact iff_of_true hnone trivial
  | delete id timeout =>
    rw [show t = _ from h.2]
    exact iff_of_true hnone trivial
  | deleteStep j answer =>
    -- A deletion that answers `Ok` promises the id to be gone; one that fails promises nothing.
    obtain ⟨c, β, op, k, b, m, m', hc, -, -, -, -, -, rfl⟩ := h
    match answer with
    | some (.ok ()) =>
      constructor
      · intro hall c' hc'
        obtain rfl := Option.some.inj (hc.symm.trans hc')
        exact hall c.id (Set.mem_insert c.id _)
      · intro hleft i hi
        rcases Set.mem_insert_iff.mp hi with rfl | hi
        · exact hleft c hc
        · exact hnone i hi
    | some (.error e) => exact iff_of_true hnone trivial
    | none => exact iff_of_true hnone trivial
  | stop =>
    rw [show t = _ from h]
    exact iff_of_true hnone trivial
  | restart =>
    -- A restart only removes directories, so what cannot be read before it cannot after it.
    obtain ⟨-, tr, q, fs, m', hx, rfl⟩ := h
    exact iff_of_true (fun i hi p hp => hnone i hi p (restart_onDisk hx hp)) trivial

/-- **Durable deletions.** Over every run of creates, regenerations, deletions and restarts,
    on any disk: deletions are durable throughout exactly when no deletion that answers `Ok`
    leaves a state directory of its endpoint behind that can be read, and no worker left
    behind by one writes another. -/
theorem durable_always_iff (disk : Disk) {s : DeletionSystem} (run : Run Step (init disk) s) :
    run.Always Durable ↔ run.EachStep fun s e _ => s.NothingLeft e := by
  refine Run.always_iff_eachStep (J := Inv) ?_ (inv_init disk)
    (fun s e t h _ hs _ => hs.step h) (fun s e t h hd hs => step_iff h hs hd) run
  rw [durable_iff disk.listed]
  exact fun i hi => absurd hi (Set.notMem_empty i)

/-- A first start on an empty disk. -/
theorem start_exec : ∃ tr, Exec (restoreSem faultySem) restoreOldEndpoints.run (.empty, .new) tr
    (.pure (.ok ([], []))) (.empty, .new) :=
  ⟨_, .step _ _ _ (Except.ok []) (.empty, .new) _ _ _
      (by exact ⟨.inl ⟨⟨[], rfl, List.nodup_nil, by simp [listedDirs]⟩, rfl⟩, rfl⟩) <|
    .step _ _ _ [] (.empty, .new) _ _ _ (by exact ⟨⟨List.nodup_nil, by simp⟩, rfl⟩) <| .refl _ _⟩

variable {start : DeletionSystem} {fs : Fs} {manager : Option EndpointManager}
  {w : WorkerTask} {deleted : Set EndpointId}

/-- The only worker makes the calls of a regeneration. -/
theorem calls_run {p q : Prog WorkerOp (Res Unit × EndpointState)} {fs' : Fs}
    {tr : List (Answered WorkerOp)} (hx : Exec faultySem p fs tr q fs')
    (run : Run Step start ⟨fs, manager, [{ w with work := some p }], [], deleted⟩) :
    ∃ deleted', Nonempty
      (Run Step start ⟨fs', manager, [{ w with work := some q }], [], deleted'⟩) := by
  induction hx generalizing deleted with
  | refl => exact ⟨deleted, ⟨run⟩⟩
  | step op k fs b fs₁ tr q fs' hstep _ ih =>
    exact ih (run.snoc _ (.call 0 ⟨op, b⟩) _ (by exact ⟨_, k, fs₁, rfl, rfl, hstep, rfl⟩))

/-- What is left of a deletion of an endpoint after it has taken it. -/
theorem deletion_taken (id : EndpointId) {ep : Endpoint} (timeout : Option Nat)
    (hhost : ep.isHost = false) :
    (shutdownEndpoint ep timeout >>= fun result =>
      (perform (.releaseId id) : Prog ManagerOp (Res Unit)) >>= fun _ => pure result) =
      .op (.shutdown ep) fun _ => .op (.waitForShutdown ep timeout) fun drained =>
        .op (.removeLoaderEndpoint ep.status.persist) fun removed =>
          .op (.releaseId id) fun _ => .pure (drained *> removed) := by
  rw [shutdownEndpoint, hhost]
  rfl

/-- A deletion of the only endpoint: its worker has nothing in its queue and ends, and the
    loader answers `Ok`. -/
theorem delete_run {m : EndpointManager} {ep : Endpoint}
    (hep : m.inner.endpoints w.state.id = some ep) (hhost : ep.isHost = false)
    (run : Run Step start ⟨fs, some m, [w], [], deleted⟩) :
    ∃ m' calls, Nonempty
      (Run Step start ⟨fs, some m', [], calls, insert w.state.id deleted⟩) := by
  let id := w.state.id
  let m₁ := (m.takeEndpoint id).2
  have hrest := deletion_taken id none hhost
  have called := run.snoc _ (.delete id none) _ (by exact ⟨Option.some_ne_none m, rfl⟩)
  have htaken : none = returned (shutdownEndpoint ep none >>= fun result =>
      (perform (.releaseId id) : Prog ManagerOp (Res Unit)) >>= fun _ => pure result) := by
    rw [hrest]
    rfl
  have taken := called.snoc _ (.deleteStep 0 none) _
    (by exact ⟨_, _, .takeEndpoint id, _, some ep, m, m₁, rfl, rfl, rfl, ⟨hep.symm, rfl⟩, trivial,
      htaken, rfl⟩)
  have stopped := taken.snoc _ (.deleteStep 0 none) _
    (by exact ⟨_, _, _, _, (), m₁, m₁, rfl, hrest, rfl, rfl, trivial, rfl, rfl⟩)
  have drained := (stopped.snoc _ (.exit 0) _ rfl).snoc _ (.deleteStep 0 none) _
    (by exact ⟨_, _, _, _, Except.ok (), m₁, m₁, rfl, rfl, rfl, rfl,
      fun _ h => absurd h List.not_mem_nil, rfl, rfl⟩)
  have removed := drained.snoc _ (.deleteStep 0 none) _
    (by exact ⟨_, _, _, _, Except.ok (), m₁, m₁, rfl, rfl, rfl, rfl, trivial, rfl, rfl⟩)
  have answered := removed.snoc _ (.deleteStep 0 (some (.ok ()))) _
    (by exact ⟨_, _, _, _, (m₁.releaseId id).1, m₁, (m₁.releaseId id).2, rfl, rfl, rfl,
      ⟨rfl, rfl⟩, trivial, rfl, rfl⟩)
  exact ⟨_, _, ⟨answered⟩⟩

/-- **A deleted endpoint comes back.** An endpoint is created, regenerated and deleted, every
    call succeeds, and a restart would restore it. -/
theorem deleted_comes_back : ¬ ∀ (s : DeletionSystem)
    (run : Run Step (init ⟨.empty, Fs.listed_empty⟩) s), run.Always Durable := by
  intro hall
  let p : EndpointPersist := { id := 1 }
  let worker : EndpointState := { persist := p }
  let m : EndpointManager := ⟨.new, ⟨IdAllocator.new.ids.erase 1, ∅⟩⟩
  let m₁ : EndpointManager := (m.addEndpoint p).2
  obtain ⟨_, hstart⟩ := start_exec
  obtain ⟨tr, after, hafter, hcommit⟩ := CrashSystem.first_regenerate_exec worker
  have hwork : Exec faultySem (regenerate.runFrom worker) .empty tr (.pure (.ok (), after))
      (CrashSystem.oneDir p .current) := hcommit.map id fun β op s b t h => .inl h
  have run : Run Step (init ⟨.empty, Fs.listed_empty⟩)
      ⟨.empty, some m₁, [{ state := worker, work := some (regenerate.runFrom worker) }], [], ∅⟩ :=
    ((Run.nil.snoc _ .restart ⟨.empty, some .new, [], [], ∅⟩
      (by exact ⟨rfl, _, _, _, _, hstart, rfl⟩)).snoc
      _ (.create p) ⟨.empty, some m₁, [{ state := worker }], [], ∅⟩
      (by exact ⟨.new, m, rfl, ⟨_, ⟨by decide, rfl⟩, rfl⟩, rfl⟩)).snoc
      _ (.regenerate 0) _ (by exact ⟨_, rfl, rfl, rfl⟩)
  obtain ⟨deleted, ⟨run⟩⟩ := calls_run (w := { state := worker }) hwork run
  have run := run.snoc _ (.finish 0) _ (by exact ⟨_, _, rfl, rfl, rfl⟩)
  have hid : after.id = 1 := congrArg EndpointPersist.id hafter
  have hep : (m₁.publish 1 after.phase after.generation).inner.endpoints after.id =
      some ⟨1, false, ⟨p, after.phase, after.generation⟩⟩ := by
    rw [hid]
    rfl
  obtain ⟨m₂, calls, ⟨run⟩⟩ := delete_run hep rfl run
  have hdeleted : (1 : EndpointId) ∈ insert after.id deleted := hid ▸ Set.mem_insert _ _
  have hlisted : Fs.Listed (CrashSystem.oneDir p .current) := Fs.listed_empty.insert _ _
  have hnone := (durable_iff hlisted).mp (hall _ run).last
  have hread : readable p.id (view p.id (CrashSystem.oneDir p .current)) .current = some p := by
    rw [readable, view, CrashSystem.oneDir, KeyMap.insert_self]
    exact CrashSystem.content_stateDir p
  exact hnone 1 hdeleted p ⟨by decide, .current, hread⟩

end DeletionSystem

end Sarena
