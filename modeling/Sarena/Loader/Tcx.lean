import Sarena.Lib.KeyMap
import Sarena.Lib.Prog
import Sarena.Lib.Run
import Sarena.Loader.Pin

namespace Sarena.Loader

open Lib

/-!
# Loader — attaching programs by pinned links

A program is attached to a device by a link object of the kernel, which lives as long as a file
descriptor or a pin refers to it.  The pins are the only record of what is attached.

* `TcxKernel` — links, pins, file descriptors and devices;
* `TcxOp.sem` — the system calls, each of which may fail, with devices coming and going;
* `upsertTcx`, `detachTcxProgram` — the operations;
* `TcxKernel.Tidy` — what is attached is pinned, under the program's name;
* `TcxKernel.Same` — the pin at a path, with its link, is what it was;
* `TcxKernel.devices_spec` — what devices that come and go leave alone.
-/

/-! ### The kernel -/

/-- A loaded `SchedClassifier`, with the name the kernel knows it by (`[unknown]` where that is no
    text). -/
structure SchedClassifier where
  id : Nat
  name : String
  deriving DecidableEq, Repr

/-- A link object.  It outlives its device, and is defunct then. -/
structure TcxLink where
  prog : SchedClassifier
  hook : Hook
  device : Nat
  deriving DecidableEq, Repr

/-- The kernel, as one process sees it. -/
structure TcxKernel where
  links : KeyMap Nat TcxLink
  pins : HashMap Path Nat
  /-- The links the process holds file descriptors of. -/
  fds : List Nat
  /-- The devices by their names, as interface indices. -/
  devices : KeyMap String Nat
  /-- The next numbers of links and of devices. -/
  nextLink : Nat
  nextDevice : Nat

namespace TcxKernel

/-- Nothing is attached, and there is no device. -/
def empty : TcxKernel := ⟨.empty, ∅, [], .empty, 0, 0⟩

/-- A file descriptor or a pin refers to the link. -/
def live (k : TcxKernel) (id : Nat) : Bool :=
  k.fds.contains id || k.pins.entries.any fun pin => pin.2 == id

/-- Links without a reference are released, and so detached. -/
def collect (k : TcxKernel) : TcxKernel := { k with links := k.links.retain fun id _ => k.live id }

/-- A file descriptor is closed. -/
def close (k : TcxKernel) (id : Nat) : TcxKernel := { k with fds := k.fds.erase id }.collect

/-- Pins are removed. -/
def unpin (k : TcxKernel) (paths : List Path) : TcxKernel :=
  { k with pins := paths.foldl (fun pins path => pins.erase path) k.pins }.collect

/-- The process ends. -/
def crash (k : TcxKernel) : TcxKernel := { k with fds := [] }.collect

/-- A device of this index is there. -/
def Registered (k : TcxKernel) (device : Nat) : Prop := ∃ ifname, k.devices ifname = some device

/-- A device is unregistered; its links stay. -/
def unregister (k : TcxKernel) (ifname : String) : TcxKernel :=
  { k with devices := k.devices.remove ifname }

/-- A device is registered, with a new index. -/
def register (k : TcxKernel) (ifname : String) : TcxKernel :=
  { k with devices := k.devices.insert ifname k.nextDevice, nextDevice := k.nextDevice + 1 }

/-- The program of a link is replaced. -/
def update (k : TcxKernel) (id : Nat) (l : TcxLink) (prog : SchedClassifier) : TcxKernel :=
  { k with links := k.links.insert id { l with prog := prog } }

/-- A program is attached to a device, by a link that only a file descriptor refers to. -/
def attach (k : TcxKernel) (device : Nat) (hook : Hook) (prog : SchedClassifier) : TcxKernel :=
  { k with
    links := k.links.insert k.nextLink ⟨prog, hook, device⟩
    fds := k.nextLink :: k.fds
    nextLink := k.nextLink + 1 }

end TcxKernel

/-- Devices come and go. -/
inductive DeviceEvent : TcxKernel → TcxKernel → Prop
  | unregister (k : TcxKernel) (ifname : String) : DeviceEvent k (k.unregister ifname)
  | register (k : TcxKernel) (ifname : String) (hfree : k.devices ifname = none) :
      DeviceEvent k (k.register ifname)

/-! ### The operations -/

/-- What a system call fails with, as far as `tcx.rs` looks at it. -/
inductive Errno
  | noEnt
  | noLink
  | other (message : String)
  deriving DecidableEq, Repr

/-- The `InfraError`s of `tcx.rs`. -/
inductive TcxError
  | notExist (path : Path)
  | noLink (path : Path)
  | tcxRequiresLocalLink (ifname netns : String)
  | other (message : String)
  deriving DecidableEq, Repr

/-- The system calls, and the calls of `aya` that may fail. -/
inductive TcxOp : Type → Type
  /-- `SchedClassifier::info`.  Where it fails, `unwrap` ends the program here. -/
  | progInfo (prog : SchedClassifier) : TcxOp Unit
  /-- `PinnedLink::from_pin`. -/
  | fromPin (path : Path) : TcxOp (Except Errno Nat)
  /-- `FdLink::info`. -/
  | info (id : Nat) : TcxOp (Except Errno Unit)
  /-- `SchedClassifierLink::try_from`. -/
  | tryInto (id : Nat) : TcxOp (Except Errno Unit)
  /-- `SchedClassifier::attach_to_link`. -/
  | attachToLink (id : Nat) (prog : SchedClassifier) : TcxOp (Except Errno Unit)
  /-- A link is dropped. -/
  | close (id : Nat) : TcxOp Unit
  | removeFile (path : Path) : TcxOp (Except Errno Unit)
  | createDirAll (dir : Path) : TcxOp (Except Errno Unit)
  /-- `SchedClassifier::attach_with_options`. -/
  | attachWithOptions (ifname : String) (hook : Hook) (prog : SchedClassifier) :
      TcxOp (Except Errno Nat)
  /-- `FdLink::pin`. -/
  | pin (id : Nat) (path : Path) : TcxOp (Except Errno Unit)
  /-- `std::fs::remove_dir_all`. -/
  | removeDirAll (dir : Path) : TcxOp (Except Errno Unit)

/-- A system call in itself. -/
def TcxOp.call : Sem TcxOp TcxKernel
  | _, .progInfo _, k, (), k' => k' = k
  | _, .fromPin path, k, .ok id, k' =>
    k.pins.lookup path = some id ∧ k' = { k with fds := id :: k.fds }
  | _, .fromPin path, k, .error .noEnt, k' => k.pins.lookup path = none ∧ k' = k
  | _, .fromPin _, k, .error _, k' => k' = k
  | _, .info _, k, _, k' => k' = k
  | _, .tryInto _, k, _, k' => k' = k
  | _, .attachToLink id prog, k, .ok (), k' =>
    ∃ l, k.links id = some l ∧ k.Registered l.device ∧ k' = k.update id l prog
  | _, .attachToLink id _, k, .error .noLink, k' =>
    (∃ l, k.links id = some l ∧ ¬ k.Registered l.device) ∧ k' = k
  | _, .attachToLink _ _, k, .error _, k' => k' = k
  | _, .close id, k, (), k' => k' = k.close id
  | _, .removeFile path, k, .ok (), k' => k' = k.unpin [path]
  | _, .removeFile _, k, .error _, k' => k' = k
  | _, .createDirAll _, k, _, k' => k' = k
  | _, .attachWithOptions ifname hook prog, k, .ok id, k' =>
    ∃ device, k.devices ifname = some device ∧ id = k.nextLink ∧ k' = k.attach device hook prog
  | _, .attachWithOptions _ _ _, k, .error _, k' => k' = k
  | _, .pin id path, k, .ok (), k' =>
    k.pins.lookup path = none ∧ k' = { k with pins := k.pins.insert path id }
  | _, .pin _ _, k, .error _, k' => k' = k
  | _, .removeDirAll dir, k, .ok (), k' =>
    ∃ paths, (∀ path, path ∈ paths ↔ dir <+: path ∧ k.pins.lookup path ≠ none) ∧ k' = k.unpin paths
  | _, .removeDirAll dir, k, .error .noEnt, k' =>
    (∀ path, dir <+: path → k.pins.lookup path = none) ∧ k' = k
  | _, .removeDirAll dir, k, .error _, k' =>
    -- Some of the files may be removed already.
    ∃ paths, (∀ path ∈ paths, dir <+: path) ∧ k' = k.unpin paths

/-- A system call, before which devices may come and go. -/
def TcxOp.sem : Sem TcxOp TcxKernel := fun β op k b k' =>
  ∃ m, Relation.ReflTransGen DeviceEvent k m ∧ TcxOp.call β op m b k'

/-- An operation of `tcx.rs`. -/
abbrev TcxM (α : Type) := ExceptT TcxError (Prog TcxOp) α

/-- The conversion of errors that nobody looks at. -/
def Errno.toInfra : Errno → TcxError
  | .noEnt => .other "No such file or directory (os error 2)"
  | .noLink => .other "Link has been severed (os error 67)"
  | .other message => .other message

/-- A call whose error is returned (`?`). -/
def tcxCall {α : Type} (op : TcxOp (Except Errno α)) (convert : Errno → TcxError) : TcxM α :=
  ExceptT.mk (do
    match ← perform op with
    | .ok a => return .ok a
    | .error e => return .error (convert e))

/-- A call whose error is returned (`?`), where the link is dropped. -/
def tcxCallHolding (id : Nat) (op : TcxOp (Except Errno Unit)) (convert : Errno → TcxError) :
    TcxM Unit :=
  ExceptT.mk (do
    match ← perform op with
    | .ok () => return .ok ()
    | .error e =>
      perform (.close id)
      return .error (convert e))

/-- `update_link`. -/
def updateLink (pinPath : Path) (prog : SchedClassifier) : TcxM Nat := do
  let id ← tcxCall (.fromPin pinPath) fun e =>
    if e = .noEnt then .notExist pinPath else e.toInfra
  tcxCallHolding id (.info id) Errno.toInfra
  tcxCallHolding id (.tryInto id) Errno.toInfra
  tcxCallHolding id (.attachToLink id prog) fun e =>
    if e = .noLink then .noLink pinPath else e.toInfra
  -- The link is taken back from the program and dropped.
  ExceptT.lift (perform (.close id))
  return id

/-- `update_tcx`. -/
def updateTcx (prog : SchedClassifier) (bpffsDir : Path) : TcxM Nat :=
  let pinPath := bpffsDir.join prog.name
  tryCatch (updateLink pinPath prog) fun e =>
    match e with
    | .noLink _ => do
      tcxCall (.removeFile pinPath) Errno.toInfra
      throw (.notExist pinPath)
    | e => throw e

/-- `attach_tcx`. -/
def attachTcx (ifname : String) (prog : SchedClassifier) (bpffsDir : Path) (hook : Hook) :
    TcxM Nat := do
  tcxCall (.createDirAll bpffsDir) Errno.toInfra
  let id ← tcxCall (.attachWithOptions ifname hook prog) Errno.toInfra
  tcxCallHolding id (.info id) Errno.toInfra
  tcxCallHolding id (.pin id (bpffsDir.join prog.name)) Errno.toInfra
  ExceptT.lift (perform (.close id))
  return id

/-- `upsert_tcx`: the kernel's number of the link. -/
def upsertTcx (ifname : String) (prog : SchedClassifier) (bpffsDir : Path) (hook : Hook) :
    TcxM Nat := do
  ExceptT.lift (perform (.progInfo prog))
  tryCatch (updateTcx prog bpffsDir) fun e =>
    match e with
    | .notExist _ => attachTcx ifname prog bpffsDir hook
    | e => throw e

/-- `upsert_tcx_program` of a link, which may be in another network namespace. -/
def upsertTcxProgram (ifname : String) (netns : Option String) (prog : SchedClassifier)
    (bpffsDir : Path) (hook : Hook) : TcxM Nat :=
  match netns with
  | some netns => throw (.tcxRequiresLocalLink ifname netns)
  | none => upsertTcx ifname prog bpffsDir hook

/-- `detach_tcx_program`, with `unpin_link`. -/
def detachTcxProgram (bpffsDir : Path) (progName : String) : TcxM Unit := do
  let pinPath := bpffsDir.join progName
  let id ← tryCatch (tcxCall (.fromPin pinPath) Errno.toInfra) fun e => do
    -- Whether the file could be removed is not looked at.
    let _ ← ExceptT.lift (perform (.removeFile pinPath))
    throw e
  tcxCallHolding id (.removeFile pinPath) Errno.toInfra
  ExceptT.lift (perform (.close id))

/-- `AyaBackend::remove_pin_dir`. -/
def removePinDir (dir : Path) : TcxM Unit :=
  ExceptT.mk (do
    match ← perform (.removeDirAll dir) with
    | .ok () => return .ok ()
    | .error .noEnt => return .ok ()
    | .error e => return .error e.toInfra)

/-! ### What is kept -/

namespace TcxKernel

/-- What holds of the references to links. -/
structure Wf (k : TcxKernel) : Prop where
  held : ∀ id ∈ k.fds, k.links id ≠ none
  /-- A pin bears the name of the program that its link runs. -/
  pinned : ∀ path id, k.pins.lookup path = some id →
    ∃ (l : TcxLink) (dir : Path), k.links id = some l ∧ path = dir.join l.prog.name
  once : ∀ path path' id, k.pins.lookup path = some id → k.pins.lookup path' = some id →
    path = path'
  nextLink : ∀ id, k.links id ≠ none → id < k.nextLink
  nextDevice : ∀ ifname device, k.devices ifname = some device → device < k.nextDevice
  linkDevice : ∀ id l, k.links id = some l → l.device < k.nextDevice

/-- There are no links without a reference. -/
structure Valid (k : TcxKernel) : Prop extends k.Wf where
  live : ∀ id, k.links id ≠ none → k.live id = true

/-- The process holds nothing, so that all links are pinned. -/
structure Tidy (k : TcxKernel) : Prop extends k.Valid where
  fds : k.fds = []

variable {k k' : TcxKernel} {path : Path} {id : Nat}

theorem live_iff : k.live id = true ↔ id ∈ k.fds ∨ ∃ path, k.pins.lookup path = some id := by
  rw [live, Bool.or_eq_true, List.contains_iff_mem, List.any_eq_true]
  refine or_congr_right ⟨?_, ?_⟩
  · rintro ⟨pin, hpin, hid⟩
    obtain rfl := beq_iff_eq.mp hid
    exact ⟨pin.1, AList.mem_lookup_iff.mpr hpin⟩
  · rintro ⟨path, hpath⟩
    exact ⟨⟨path, id⟩, AList.mem_lookup_iff.mp hpath, beq_iff_eq.mpr rfl⟩

/-- Every attached program is pinned, once, under its own name. -/
def Pinned (k : TcxKernel) : Prop :=
  ∀ id l, k.links id = some l → ∃ dir : Path, k.pins.lookup (dir.join l.prog.name) = some id ∧
    ∀ path, k.pins.lookup path = some id → path = dir.join l.prog.name

theorem Tidy.exists_pin (h : k.Tidy) (hid : k.links id ≠ none) :
    ∃ path, k.pins.lookup path = some id := by
  rcases live_iff.mp (h.live id hid) with hfds | hpin
  · rw [h.fds] at hfds
    cases hfds
  · exact hpin

theorem Tidy.pinned_once (h : k.Tidy) : k.Pinned := by
  intro id l hl
  obtain ⟨path, hpath⟩ := h.exists_pin (Option.ne_none_iff_exists'.mpr ⟨l, hl⟩)
  obtain ⟨l', dir, hl', rfl⟩ := h.pinned path id hpath
  obtain rfl := Option.some.inj (hl.symm.trans hl')
  exact ⟨dir, hpath, fun path' hpath' => h.once path' _ id hpath' hpath⟩

theorem collect_links_of_live (hlive : k.live id = true) : k.collect.links id = k.links id := by
  show (k.links id).filter _ = _
  cases k.links id with
  | none => rfl
  | some l => rw [Option.filter_some, if_pos hlive]

theorem collect_links_eq_some {l : TcxLink} (h : k.collect.links id = some l) :
    k.links id = some l ∧ k.live id = true := by
  change k.links.retain (fun id _ => k.live id) id = some l at h
  exact KeyMap.retain_eq_some.mp h

theorem Wf.collect (h : k.Wf) : k.collect.Valid where
  held id hid := by
    have hlive : k.live id = true := live_iff.mpr (.inl hid)
    rw [collect_links_of_live hlive]
    exact h.held id hid
  pinned path id hpath := by
    have hlive : k.live id = true := live_iff.mpr (.inr ⟨path, hpath⟩)
    rw [collect_links_of_live hlive]
    exact h.pinned path id hpath
  once := h.once
  nextLink id hid := by
    obtain ⟨l, hl⟩ := Option.ne_none_iff_exists'.mp hid
    exact h.nextLink id (Option.ne_none_iff_exists'.mpr ⟨l, (collect_links_eq_some hl).1⟩)
  nextDevice := h.nextDevice
  linkDevice id l hl := h.linkDevice id l (collect_links_eq_some hl).1
  live id hid := by
    obtain ⟨l, hl⟩ := Option.ne_none_iff_exists'.mp hid
    exact (collect_links_eq_some hl).2

/-- References may go. -/
theorem Wf.sub (h : k.Wf) (fds : List Nat) (pins : HashMap Path Nat) (hfds : fds ⊆ k.fds)
    (hpins : ∀ path id, pins.lookup path = some id → k.pins.lookup path = some id) :
    ({ k with fds := fds, pins := pins } : TcxKernel).Wf where
  held id hid := h.held id (hfds hid)
  pinned path id hpath := h.pinned path id (hpins path id hpath)
  once path path' id hpath hpath' :=
    h.once path path' id (hpins path id hpath) (hpins path' id hpath')
  nextLink := h.nextLink
  nextDevice := h.nextDevice
  linkDevice := h.linkDevice

theorem Wf.close (h : k.Wf) (id : Nat) : (k.close id).Valid :=
  (h.sub _ k.pins List.erase_subset fun _ _ hpath => hpath).collect

theorem Wf.crash (h : k.Wf) : k.crash.Tidy where
  toValid := (h.sub _ k.pins (List.nil_subset _) fun _ _ hpath => hpath).collect
  fds := rfl

theorem Wf.unpin (h : k.Wf) (paths : List Path) : (k.unpin paths).Valid := by
  refine (h.sub k.fds _ (List.Subset.refl _) fun path id hpath => ?_).collect
  rw [HashMap.lookup_foldl_erase] at hpath
  split at hpath
  · cases hpath
  · exact hpath

theorem Valid.fromPin (h : k.Valid) (hpath : k.pins.lookup path = some id) :
    ({ k with fds := id :: k.fds } : TcxKernel).Valid where
  held id' hid := by
    rcases List.mem_cons.mp hid with rfl | hid
    · obtain ⟨l, -, hl, -⟩ := h.pinned path id' hpath
      exact Option.ne_none_iff_exists'.mpr ⟨l, hl⟩
    · exact h.held id' hid
  pinned := h.pinned
  once := h.once
  nextLink := h.nextLink
  nextDevice := h.nextDevice
  linkDevice := h.linkDevice
  live id' hid := live_iff.mpr ((live_iff.mp (h.live id' hid)).imp_left (List.mem_cons_of_mem id))

/-- The program of a pinned link is replaced by one of the same name. -/
theorem Valid.update (h : k.Valid) {l : TcxLink} {prog : SchedClassifier} {dir : Path}
    (hl : k.links id = some l) (hpath : k.pins.lookup (dir.join prog.name) = some id) :
    (k.update id l prog).Valid where
  held id' hid := by
    show k.links.insert id _ id' ≠ none
    rw [KeyMap.insert_apply]
    split
    · exact Option.some_ne_none _
    · exact h.held id' hid
  pinned path id' hpath' := by
    show ∃ (l' : TcxLink) (dir : Path), k.links.insert id _ id' = some l' ∧ _
    rw [KeyMap.insert_apply]
    split
    · next hid =>
      subst hid
      exact ⟨_, dir, rfl, h.once path _ id' hpath' hpath⟩
    · exact h.pinned path id' hpath'
  once := h.once
  nextLink id' hid := by
    by_cases heq : id' = id
    · subst heq
      exact h.nextLink id' (Option.ne_none_iff_exists'.mpr ⟨l, hl⟩)
    · refine h.nextLink id' fun hnone => hid ?_
      show k.links.insert id _ id' = none
      rw [KeyMap.insert_of_ne _ _ heq, hnone]
  nextDevice := h.nextDevice
  linkDevice id' l' hl' := by
    change k.links.insert id _ id' = some l' at hl'
    rw [KeyMap.insert_apply] at hl'
    split at hl'
    · cases hl'
      exact h.linkDevice id l hl
    · exact h.linkDevice id' l' hl'
  live id' hid := by
    refine h.live id' fun hnone => hid ?_
    show k.links.insert id _ id' = none
    have heq : id' ≠ id := fun heq => by cases (heq ▸ hnone).symm.trans hl
    rw [KeyMap.insert_of_ne _ _ heq, hnone]

theorem Valid.attach (h : k.Valid) {ifname : String} {device : Nat}
    (hdevice : k.devices ifname = some device) (hook : Hook) (prog : SchedClassifier) :
    (k.attach device hook prog).Valid where
  held id hid := by
    show k.links.insert k.nextLink _ id ≠ none
    rw [KeyMap.insert_apply]
    split
    · exact Option.some_ne_none _
    · next hid' => exact h.held id ((List.mem_cons.mp hid).resolve_left hid')
  pinned path id hpath := by
    obtain ⟨l, dir, hl, hdir⟩ := h.pinned path id hpath
    have hid : id ≠ k.nextLink := fun hid => Nat.lt_irrefl _
      (hid ▸ h.nextLink id (Option.ne_none_iff_exists'.mpr ⟨l, hl⟩))
    exact ⟨l, dir, (KeyMap.insert_of_ne _ _ hid).trans hl, hdir⟩
  once := h.once
  nextLink id hid := by
    by_cases heq : id = k.nextLink
    · exact heq ▸ Nat.lt_succ_self _
    · refine Nat.lt_succ_of_lt (h.nextLink id fun hnone => hid ?_)
      exact (KeyMap.insert_of_ne _ _ heq).trans hnone
  nextDevice := h.nextDevice
  linkDevice id l hl := by
    change k.links.insert k.nextLink _ id = some l at hl
    rw [KeyMap.insert_apply] at hl
    split at hl
    · cases hl
      exact h.nextDevice ifname device hdevice
    · exact h.linkDevice id l hl
  live id hid := by
    refine live_iff.mpr ?_
    by_cases heq : id = k.nextLink
    · exact .inl (heq ▸ List.mem_cons_self)
    · have hid' : k.links id ≠ none := fun hnone =>
        hid ((KeyMap.insert_of_ne _ _ heq).trans hnone)
      exact (live_iff.mp (h.live id hid')).imp_left (List.mem_cons_of_mem _)

/-- A link without a pin is pinned under the name of its program. -/
theorem Valid.pin (h : k.Valid) {l : TcxLink} {dir : Path} (hl : k.links id = some l)
    (hunpinned : ∀ path, k.pins.lookup path ≠ some id)
    (hfree : k.pins.lookup (dir.join l.prog.name) = none) :
    ({ k with pins := k.pins.insert (dir.join l.prog.name) id } : TcxKernel).Valid where
  held := h.held
  pinned path id' hpath := by
    rw [HashMap.lookup_insert_apply] at hpath
    split at hpath
    · next hdir =>
      cases hpath
      exact ⟨l, dir, hl, hdir⟩
    · exact h.pinned path id' hpath
  once path path' id' hpath hpath' := by
    rw [HashMap.lookup_insert_apply] at hpath hpath'
    split at hpath
    · next hdir =>
      split at hpath'
      · next hdir' => exact hdir.trans hdir'.symm
      · cases hpath
        exact absurd hpath' (hunpinned path')
    · split at hpath'
      · cases hpath'
        exact absurd hpath (hunpinned path)
      · exact h.once path path' id' hpath hpath'
  nextLink := h.nextLink
  nextDevice := h.nextDevice
  linkDevice := h.linkDevice
  live id' hid := by
    refine live_iff.mpr ((live_iff.mp (h.live id' hid)).imp_right ?_)
    rintro ⟨path, hpath⟩
    have hdir : path ≠ dir.join l.prog.name := fun hdir => by cases (hdir ▸ hpath).symm.trans hfree
    exact ⟨path, (AList.lookup_insert_ne hdir).trans hpath⟩

/-- Indices of devices and links are not used again. -/
structure Later (s k : TcxKernel) : Prop where
  nextLink : s.nextLink ≤ k.nextLink
  nextDevice : s.nextDevice ≤ k.nextDevice
  gone : ∀ device, device < s.nextDevice → k.Registered device → s.Registered device

theorem Later.refl (k : TcxKernel) : Later k k := ⟨le_rfl, le_rfl, fun _ _ h => h⟩

theorem Later.trans {s m k : TcxKernel} (h : Later s m) (h' : Later m k) : Later s k where
  nextLink := h.nextLink.trans h'.nextLink
  nextDevice := h.nextDevice.trans h'.nextDevice
  gone device hlt hk :=
    h.gone device hlt (h'.gone device (Nat.lt_of_lt_of_le hlt h.nextDevice) hk)

/-- What devices do leaves links and pins as they are. -/
structure SameLinks (s k : TcxKernel) : Prop where
  links : k.links = s.links
  pins : k.pins = s.pins
  fds : k.fds = s.fds
  nextLink : k.nextLink = s.nextLink

theorem devices_spec {s k : TcxKernel} (h : Relation.ReflTransGen DeviceEvent s k) :
    SameLinks s k ∧ Later s k ∧ (s.Wf → k.Wf) := by
  induction h with
  | refl => exact ⟨⟨rfl, rfl, rfl, rfl⟩, .refl s, id⟩
  | tail _ hevent ih =>
    obtain ⟨hsame, hlater, hwf⟩ := ih
    cases hevent with
    | unregister ifname =>
      refine ⟨⟨hsame.links, hsame.pins, hsame.fds, hsame.nextLink⟩, hlater.trans
        ⟨le_rfl, le_rfl, ?_⟩, fun hs => ⟨(hwf hs).held, (hwf hs).pinned, (hwf hs).once,
          (hwf hs).nextLink, ?_, (hwf hs).linkDevice⟩⟩
      · rintro device - ⟨name, hname⟩
        by_cases hremoved : name = ifname
        · subst hremoved
          cases (KeyMap.remove_self _ _).symm.trans hname
        · exact ⟨name, (KeyMap.remove_of_ne _ hremoved).symm.trans hname⟩
      · intro name device hname
        by_cases hremoved : name = ifname
        · subst hremoved
          cases (KeyMap.remove_self _ _).symm.trans hname
        · exact (hwf hs).nextDevice name device ((KeyMap.remove_of_ne _ hremoved).symm.trans hname)
    | register ifname hfree =>
      refine ⟨⟨hsame.links, hsame.pins, hsame.fds, hsame.nextLink⟩, hlater.trans
        ⟨le_rfl, Nat.le_succ _, ?_⟩, fun hs => ⟨(hwf hs).held, (hwf hs).pinned, (hwf hs).once,
          (hwf hs).nextLink, ?_, fun id l hl => Nat.lt_succ_of_lt ((hwf hs).linkDevice id l hl)⟩⟩
      · rintro device hlt ⟨name, hname⟩
        refine ⟨name, ?_⟩
        change KeyMap.insert _ _ _ name = some device at hname
        rw [KeyMap.insert_apply] at hname
        split at hname
        · exact absurd hlt (Nat.not_lt_of_le (Option.some.inj hname).le)
        · exact hname
      · intro name device hname
        change KeyMap.insert _ _ _ name = some device at hname
        rw [KeyMap.insert_apply] at hname
        split at hname
        · exact Nat.lt_succ_of_le (Option.some.inj hname).ge
        · exact Nat.lt_succ_of_lt ((hwf hs).nextDevice name device hname)

/-- The pin at a path, and its link, are what they were. -/
structure Same (path : Path) (s k : TcxKernel) : Prop where
  pin : k.pins.lookup path = s.pins.lookup path
  link : ∀ id, s.pins.lookup path = some id → k.links id = s.links id

theorem Same.refl (path : Path) (k : TcxKernel) : Same path k k := ⟨rfl, fun _ _ => rfl⟩

theorem Same.trans {path : Path} {s m k : TcxKernel} (h : Same path s m) (h' : Same path m k) :
    Same path s k where
  pin := h'.pin.trans h.pin
  link id hid := (h'.link id (h.pin.trans hid)).trans (h.link id hid)

theorem SameLinks.same {s k : TcxKernel} (h : SameLinks s k) (path : Path) : Same path s k :=
  ⟨by rw [h.pins], fun id _ => by rw [h.links]⟩

/-- References that go leave the other pins alone. -/
theorem same_collect {s : TcxKernel} {fds : List Nat} {pins : HashMap Path Nat} {path : Path}
    (hpin : pins.lookup path = s.pins.lookup path) :
    Same path s ({ s with fds := fds, pins := pins } : TcxKernel).collect where
  pin := hpin
  link id hid := by
    have hlive : ({ s with fds := fds, pins := pins } : TcxKernel).live id = true :=
      live_iff.mpr (.inr ⟨path, hpin.trans hid⟩)
    exact collect_links_of_live hlive

theorem same_close (path : Path) (s : TcxKernel) (id : Nat) : Same path s (s.close id) :=
  same_collect rfl

theorem same_crash (path : Path) (s : TcxKernel) : Same path s s.crash :=
  same_collect rfl

theorem same_unpin {paths : List Path} {path : Path} (h : path ∉ paths) (s : TcxKernel) :
    Same path s (s.unpin paths) :=
  same_collect ((HashMap.lookup_foldl_erase _ _ _).trans (if_neg h))

end TcxKernel

end Sarena.Loader
