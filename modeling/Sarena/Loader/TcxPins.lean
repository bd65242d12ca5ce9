import Sarena.Loader.Tcx

namespace Sarena.Loader

open Lib

/-!
# Loader — what the pinned links do

Every operation on pinned links, run with system calls that fail in any way while devices come
and go, and cut off at any point.

* `TcxKernel.Progress` — what has become of a pin while a program is attached there;
* `TcxKernel.upsertTcxProgram_guards`, `detachTcxProgram_guards` — the operations;
* `TcxRequest`, `TcxStep` — runs of them;
* `tcx_pins` — what is attached is what is pinned, and no attached program is lost;
* `upsert_heals` — where nothing fails, an upsert leaves a program attached.
-/

namespace TcxKernel

/-! ### Attaching at a path -/

/-- The link that was pinned at the path is without a device. -/
def Defunct (path : Path) (s k : TcxKernel) : Prop :=
  ∀ id l, s.pins.lookup path = some id → s.links id = some l → ¬ k.Registered l.device

/-- All but the pin at a path is as it was, and the kernel is in order. -/
structure Frame (path : Path) (s k : TcxKernel) : Prop where
  valid : k.Valid
  later : Later s k
  others : ∀ path', path' ≠ path → Same path' s k

/-- What has become of the pin at a path where a program is being attached. -/
inductive Progress (path : Path) (prog : SchedClassifier) (hook : Hook) (s k : TcxKernel) : Prop
  | same (h : Same path s k)
  | updated (id : Nat) (l : TcxLink) (hpin : s.pins.lookup path = some id)
      (hlink : s.links id = some l) (hpin' : k.pins.lookup path = some id)
      (hlink' : k.links id = some { l with prog := prog })
  | removed (hdefunct : Defunct path s k) (hpin : k.pins.lookup path = none)
  | attached (hdefunct : Defunct path s k) (id device : Nat) (hid : s.nextLink ≤ id)
      (hpin : k.pins.lookup path = some id) (hlink : k.links id = some ⟨prog, hook, device⟩)

variable {k k' s m : TcxKernel} {path : Path} {id : Nat} {prog : SchedClassifier} {hook : Hook}
  {ifname : String}

theorem Tidy.frame (h : k.Tidy) (path : Path) : Frame path k k :=
  ⟨h.toValid, .refl k, fun path' _ => .refl path' k⟩

/-- A step after which all pins are as before. -/
theorem Frame.keep (h : Frame path s k) (hvalid : k'.Valid) (hlater : Later k k')
    (hsame : ∀ path, Same path k k') : Frame path s k' :=
  ⟨hvalid, h.later.trans hlater, fun path' hpath => (h.others path' hpath).trans (hsame path')⟩

theorem Defunct.keep (hs : s.Wf) (h : Defunct path s k) (hk : Later s k) (hlater : Later k k') :
    Defunct path s k' :=
  fun id l hpin hlink hregistered => h id l hpin hlink (hlater.gone l.device
    (Nat.lt_of_lt_of_le (hs.linkDevice id l hlink) hk.nextDevice) hregistered)

theorem Progress.keep (hs : s.Wf) (h : Progress path prog hook s k) (hk : Later s k)
    (hlater : Later k k') (hsame : Same path k k') : Progress path prog hook s k' := by
  cases h with
  | same h => exact .same (h.trans hsame)
  | updated id l hpin hlink hpin' hlink' =>
    exact .updated id l hpin hlink (hsame.pin.trans hpin') ((hsame.link id hpin').trans hlink')
  | removed hdefunct hpin => exact .removed (hdefunct.keep hs hk hlater) (hsame.pin.trans hpin)
  | attached hdefunct id device hid hpin hlink =>
    exact .attached (hdefunct.keep hs hk hlater) id device hid (hsame.pin.trans hpin)
      ((hsame.link id hpin).trans hlink)

theorem Frame.devices (h : Frame path s k) (hdevices : Relation.ReflTransGen DeviceEvent k m) :
    Frame path s m ∧ Later k m ∧ (∀ path, Same path k m) ∧ m.fds = k.fds ∧ m.links = k.links := by
  obtain ⟨hlinks, hlater, hwf⟩ := devices_spec hdevices
  refine ⟨h.keep ⟨hwf h.valid.toWf, fun id hid => ?_⟩ hlater hlinks.same, hlater, hlinks.same,
    hlinks.fds, hlinks.links⟩
  rw [hlinks.links] at hid
  rw [live_iff, hlinks.fds, hlinks.pins]
  exact live_iff.mp (h.valid.live id hid)

theorem empty_tidy : empty.Tidy := by
  refine ⟨⟨⟨fun _ h => ?_, fun _ _ h => ?_, fun _ _ _ h => ?_, fun _ h => absurd rfl h,
    fun _ _ h => ?_, fun _ _ h => ?_⟩, fun _ h => absurd rfl h⟩, rfl⟩
  · cases h
  · cases h
  · cases h
  · cases h
  · cases h

theorem Tidy.device (hs : s.Tidy) (h : DeviceEvent s k) : k.Tidy := by
  obtain ⟨hframe, -, -, hfds, -⟩ := (hs.frame []).devices (.single h)
  exact ⟨hframe.valid, hfds.trans hs.fds⟩

theorem Frame.close (h : Frame path s k) (id : Nat) : Frame path s (k.close id) :=
  h.keep (h.valid.toWf.close id) ⟨le_rfl, le_rfl, fun _ _ h => h⟩ fun path => same_close path k id

/-! ### The calls -/

section

variable {α : Type} {ok : ∀ β : Type, TcxOp β → TcxKernel → Prop} {X : TcxError → TcxKernel → Prop}
  {convert : Errno → TcxError}

theorem tcxCall_rule {sem : Sem TcxOp TcxKernel} {op : TcxOp (Except Errno α)}
    {R : α → TcxKernel → Prop} (hok : ok _ op k)
    (h : ∀ r k', sem _ op k r k' → Prog.orError R (fun e => X (convert e)) r k') :
    (tcxCall op convert).run.Guards sem ok (Prog.orError R X) k := by
  refine ⟨hok, fun r k' hsem => ?_⟩
  have hpost := h r k' hsem
  cases r with
  | ok a => exact hpost
  | error e => exact hpost

theorem tcxCallHolding_rule {sem : Sem TcxOp TcxKernel} {op : TcxOp (Except Errno Unit)}
    {R : Unit → TcxKernel → Prop} (hok : ok _ op k)
    (h : ∀ r k', sem _ op k r k' → Prog.orError R (fun e k' => ok _ (.close id) k' ∧
      ∀ r k'', sem _ (.close id) k' r k'' → X (convert e) k'') r k') :
    (tcxCallHolding id op convert).run.Guards sem ok (Prog.orError R X) k := by
  refine ⟨hok, fun r k' hsem => ?_⟩
  have hpost := h r k' hsem
  cases r with
  | ok a => exact hpost
  | error e => exact hpost

/-- The rule of `match` on an error. -/
theorem tryCatch_rule {sem : Sem TcxOp TcxKernel} {R : α → TcxKernel → Prop}
    {Y : TcxError → TcxKernel → Prop} {p : TcxM α} {handler : TcxError → TcxM α}
    (hp : p.run.Guards sem ok (Prog.orError R Y) k)
    (hhandler : ∀ e k, Y e k → (handler e).run.Guards sem ok (Prog.orError R X) k) :
    (tryCatch p handler).run.Guards sem ok (Prog.orError R X) k := by
  refine Prog.guards_bind hp fun r k' hr => ?_
  cases r with
  | ok a => exact hr
  | error e => exact hhandler e k' hr

theorem tcxCall_guards {op : TcxOp (Except Errno α)} {R : α → TcxKernel → Prop}
    (hok : ok _ op k)
    (h : ∀ m r k', Relation.ReflTransGen DeviceEvent k m → TcxOp.call _ op m r k' →
      Prog.orError R (fun e => X (convert e)) r k') :
    (tcxCall op convert).run.Guards TcxOp.sem ok (Prog.orError R X) k := by
  refine tcxCall_rule hok fun r k' hsem => ?_
  obtain ⟨m, hdevices, hcall⟩ := hsem
  exact h m r k' hdevices hcall

theorem tcxCallHolding_guards {op : TcxOp (Except Errno Unit)} {R : Unit → TcxKernel → Prop}
    (hok : ok _ op k)
    (h : ∀ m r k', Relation.ReflTransGen DeviceEvent k m → TcxOp.call _ op m r k' →
      Prog.orError R (fun e k' => ok _ (.close id) k' ∧
        ∀ m', Relation.ReflTransGen DeviceEvent k' m' → X (convert e) (m'.close id)) r k') :
    (tcxCallHolding id op convert).run.Guards TcxOp.sem ok (Prog.orError R X) k := by
  refine tcxCallHolding_rule hok fun r k' hsem => ?_
  obtain ⟨m, hdevices, hcall⟩ := hsem
  have hpost := h m r k' hdevices hcall
  cases r with
  | ok a => exact hpost
  | error e =>
    refine ⟨hpost.1, fun _ k'' hclose => ?_⟩
    obtain ⟨m', hdevices', hclosed⟩ := hclose
    obtain rfl : k'' = m'.close id := hclosed
    exact hpost.2 m' hdevices'

theorem close_guards {R : Unit → TcxKernel → Prop} (hok : ok _ (.close id) k)
    (h : ∀ m, Relation.ReflTransGen DeviceEvent k m → R () (m.close id)) :
    (ExceptT.lift (perform (.close id)) : TcxM Unit).run.Guards TcxOp.sem ok
      (Prog.orError R X) k := by
  refine Prog.guards_lift ⟨hok, fun _ k' hsem => ?_⟩
  obtain ⟨m, hdevices, hclosed⟩ := hsem
  obtain rfl : k' = m.close id := hclosed
  exact h m hdevices

end

/-! ### Updating a link -/

/-- Nothing has happened yet. -/
structure Before (path : Path) (fds : List Nat) (s k : TcxKernel) : Prop where
  frame : Frame path s k
  same : Same path s k
  fds : k.fds = fds

theorem Before.devices {fds : List Nat} (h : Before path fds s k)
    (hdevices : Relation.ReflTransGen DeviceEvent k m) : Before path fds s m := by
  obtain ⟨hframe, -, hsame, hfds, -⟩ := h.frame.devices hdevices
  exact ⟨hframe, h.same.trans (hsame path), hfds.trans h.fds⟩

theorem Before.close (h : Before path [id] s k) : Before path [] s (k.close id) := by
  refine ⟨h.frame.close id, h.same.trans (same_close path k id), ?_⟩
  show k.fds.erase id = []
  rw [h.fds, List.erase_cons_head]

theorem Before.fromPin (h : Before path [] s k) (hpin : k.pins.lookup path = some id) :
    Before path [id] s { k with fds := id :: k.fds } where
  frame := h.frame.keep (h.frame.valid.fromPin hpin) ⟨le_rfl, le_rfl, fun _ _ h => h⟩
    fun _ => ⟨rfl, fun _ _ => rfl⟩
  same := ⟨h.same.pin, h.same.link⟩
  fds := congrArg (id :: ·) h.fds

/-- The link at the path runs the program. -/
def Updated (path : Path) (prog : SchedClassifier) (s : TcxKernel) (id : Nat) (k : TcxKernel) :
    Prop :=
  ∃ l, s.pins.lookup path = some id ∧ s.links id = some l ∧ k.pins.lookup path = some id ∧
    k.links id = some { l with prog := prog }

theorem update_frame {dir : Path} {fds : List Nat}
    (h : Before (dir.join prog.name) fds s k) {l : TcxLink} (hlink : k.links id = some l)
    (hpin : k.pins.lookup (dir.join prog.name) = some id) :
    Frame (dir.join prog.name) s (k.update id l prog) ∧
      Updated (dir.join prog.name) prog s id (k.update id l prog) := by
  have hpin' := h.same.pin.symm.trans hpin
  refine ⟨⟨h.frame.valid.update hlink hpin, h.frame.later.trans ⟨le_rfl, le_rfl, fun _ _ h => h⟩,
    fun path hpath => (h.frame.others path hpath).trans ⟨rfl, fun id' hid => ?_⟩⟩,
    l, hpin', (h.same.link id hpin').symm.trans hlink, hpin, KeyMap.insert_self _ _ _⟩
  exact KeyMap.insert_of_ne _ _ fun heq => hpath (h.frame.valid.once path _ id (heq ▸ hid) hpin)

/-- Why `update_link` failed. -/
def Because (path : Path) (s k : TcxKernel) : TcxError → Prop
  | .notExist _ => k.pins.lookup path = none
  | .noLink _ => Defunct path s k
  | _ => True

/-- Between two calls the kernel is in order. -/
abbrev Attaching (path : Path) (prog : SchedClassifier) (hook : Hook) (s : TcxKernel) :
    ∀ β : Type, TcxOp β → TcxKernel → Prop :=
  fun _ _ k => Frame path s k ∧ Progress path prog hook s k

theorem because_toInfra (path : Path) (s k : TcxKernel) (e : Errno) :
    Because path s k e.toInfra := by
  cases e with
  | noEnt => trivial
  | noLink => trivial
  | other message => trivial

theorem Updated.keep (h : Updated path prog s id k) (hsame : Same path k k') :
    Updated path prog s id k' := by
  obtain ⟨l, hpin, hlink, hpin', hlink'⟩ := h
  exact ⟨l, hpin, hlink, hsame.pin.trans hpin', (hsame.link id hpin').trans hlink'⟩

theorem Updated.progress (h : Updated path prog s id k) : Progress path prog hook s k := by
  obtain ⟨l, hpin, hlink, hpin', hlink'⟩ := h
  exact .updated id l hpin hlink hpin' hlink'

/-- A call that does nothing, while the link at the path is held. -/
theorem holding_guards (h : Before path [id] s k) {op : TcxOp (Except Errno Unit)}
    (hop : ∀ m r k', TcxOp.call _ op m r k' → k' = m) :
    (tcxCallHolding id op Errno.toInfra).run.Guards TcxOp.sem (Attaching path prog hook s)
      (Prog.orError (fun _ => Before path [id] s)
        fun e t => Before path [] s t ∧ Because path s t e) k := by
  refine tcxCallHolding_guards ⟨h.frame, .same h.same⟩ fun m r k' hdevices hcall => ?_
  obtain rfl := hop m r k' hcall
  have hbefore := h.devices hdevices
  cases r with
  | ok _ => exact hbefore
  | error e =>
    exact ⟨⟨hbefore.frame, .same hbefore.same⟩, fun m' hdevices' =>
      ⟨(hbefore.devices hdevices').close, because_toInfra path s _ e⟩⟩

theorem updateLink_guards {dir : Path} (h : Before (dir.join prog.name) [] s k) :
    (updateLink (dir.join prog.name) prog).run.Guards TcxOp.sem
      (Attaching (dir.join prog.name) prog hook s)
      (Prog.orError
        (fun id t => Frame (dir.join prog.name) s t ∧ t.fds = [] ∧
          Updated (dir.join prog.name) prog s id t)
        fun e t => Before (dir.join prog.name) [] s t ∧ Because (dir.join prog.name) s t e) k := by
  refine Prog.guards_try (fun id t => Before (dir.join prog.name) [id] s t ∧
    s.pins.lookup (dir.join prog.name) = some id) ?_ fun id k₁ h₁ => ?_
  · refine tcxCall_guards ⟨h.frame, .same h.same⟩ fun m r k' hdevices hcall => ?_
    have hbefore := h.devices hdevices
    cases r with
    | ok id =>
      obtain ⟨hpin, rfl⟩ := hcall
      exact ⟨hbefore.fromPin hpin, hbefore.same.pin.symm.trans hpin⟩
    | error e =>
      cases e with
      | noEnt =>
        obtain ⟨hpin, rfl⟩ := hcall
        exact ⟨hbefore, hpin⟩
      | noLink =>
        obtain rfl := hcall
        exact ⟨hbefore, trivial⟩
      | other message =>
        obtain rfl := hcall
        exact ⟨hbefore, trivial⟩
  obtain ⟨h₁, hpin⟩ := h₁
  refine Prog.guards_try _ (holding_guards h₁ fun _ _ _ h => h) fun _ k₂ h₂ => ?_
  refine Prog.guards_try _ (holding_guards h₂ fun _ _ _ h => h) fun _ k₃ h₃ => ?_
  refine Prog.guards_try (fun _ t => Frame (dir.join prog.name) s t ∧ t.fds = [id] ∧
    Updated (dir.join prog.name) prog s id t) ?_ fun _ k₄ h₄ => ?_
  · refine tcxCallHolding_guards ⟨h₃.frame, .same h₃.same⟩ fun m r k' hdevices hcall => ?_
    have hbefore := h₃.devices hdevices
    cases r with
    | ok _ =>
      obtain ⟨l, hlink, -, rfl⟩ := hcall
      obtain ⟨hframe, hupdated⟩ := update_frame hbefore hlink (hbefore.same.pin.trans hpin)
      exact ⟨hframe, hbefore.fds, hupdated⟩
    | error e =>
      have hsame : k' = m := by
        cases e with
        | noEnt => exact hcall
        | noLink => exact hcall.2
        | other message => exact hcall
      subst hsame
      refine ⟨⟨hbefore.frame, .same hbefore.same⟩, fun m' hdevices' => ?_⟩
      have hbefore' := hbefore.devices hdevices'
      refine ⟨hbefore'.close, ?_⟩
      cases e with
      | noEnt => trivial
      | noLink =>
        obtain ⟨⟨l, hlink, hgone⟩, -⟩ := hcall
        obtain ⟨-, hlater, -⟩ := hbefore.frame.devices hdevices'
        intro id' l' hpin' hlink' hregistered
        obtain rfl := Option.some.inj (hpin.symm.trans hpin')
        obtain rfl := Option.some.inj
          (hlink.symm.trans ((hbefore.same.link id hpin).trans hlink'))
        exact hgone (hlater.gone l.device (hbefore.frame.valid.linkDevice id l hlink) hregistered)
      | other message => trivial
  · obtain ⟨hframe, hfds, hupdated⟩ := h₄
    refine Prog.guards_try _ (close_guards (R := fun _ t => Frame (dir.join prog.name) s t ∧
      t.fds = [] ∧ Updated (dir.join prog.name) prog s id t) ⟨hframe, hupdated.progress⟩
      fun m hdevices => ?_) fun _ k₅ h₅ => h₅
    obtain ⟨hframe', -, hsame, hfds', -⟩ := hframe.devices hdevices
    refine ⟨hframe'.close id, ?_, hupdated.keep ((hsame _).trans (same_close _ m id))⟩
    show m.fds.erase id = []
    rw [hfds', hfds, List.erase_cons_head]

/-! ### Attaching anew -/

/-- Nothing is pinned at the path, or nothing any more. -/
structure Vacant (path : Path) (fds : List Nat) (s k : TcxKernel) : Prop where
  frame : Frame path s k
  defunct : Defunct path s k
  pin : k.pins.lookup path = none
  fds : k.fds = fds

theorem Vacant.devices (hs : s.Wf) {fds : List Nat} (h : Vacant path fds s k)
    (hdevices : Relation.ReflTransGen DeviceEvent k m) : Vacant path fds s m := by
  obtain ⟨hframe, hlater, hsame, hfds, -⟩ := h.frame.devices hdevices
  exact ⟨hframe, h.defunct.keep hs h.frame.later hlater, (hsame path).pin.trans h.pin,
    hfds.trans h.fds⟩

theorem Vacant.progress {fds : List Nat} (h : Vacant path fds s k) :
    Progress path prog hook s k := .removed h.defunct h.pin

theorem Vacant.close (h : Vacant path [id] s k) : Vacant path [] s (k.close id) := by
  refine ⟨h.frame.close id, h.defunct, h.pin, ?_⟩
  show k.fds.erase id = []
  rw [h.fds, List.erase_cons_head]

theorem Vacant.attach (h : Vacant path [] s k) {device : Nat}
    (hdevice : k.devices ifname = some device) (hook : Hook) (prog : SchedClassifier) :
    Vacant path [k.nextLink] s (k.attach device hook prog) := by
  have hnew : ∀ id, k.links id ≠ none → id ≠ k.nextLink :=
    fun id hid heq => Nat.lt_irrefl _ (heq ▸ h.frame.valid.nextLink id hid)
  refine ⟨⟨h.frame.valid.attach hdevice hook prog,
    h.frame.later.trans ⟨Nat.le_succ _, le_rfl, fun _ _ h => h⟩,
    fun path' hpath => (h.frame.others path' hpath).trans ⟨rfl, fun id hid => ?_⟩⟩,
    h.defunct, h.pin, congrArg (k.nextLink :: ·) h.fds⟩
  obtain ⟨l, -, hl, -⟩ := h.frame.valid.pinned path' id hid
  exact KeyMap.insert_of_ne _ _ (hnew id (Option.ne_none_iff_exists'.mpr ⟨l, hl⟩))

/-- The program was attached anew, and pinned. -/
def Attached (path : Path) (prog : SchedClassifier) (hook : Hook) (s : TcxKernel) (id : Nat)
    (k : TcxKernel) : Prop :=
  Defunct path s k ∧ s.nextLink ≤ id ∧ k.pins.lookup path = some id ∧
    ∃ device, k.links id = some ⟨prog, hook, device⟩

/-- A link that only a file descriptor refers to. -/
structure Unpinned (path : Path) (prog : SchedClassifier) (hook : Hook) (id : Nat)
    (s k : TcxKernel) : Prop where
  vacant : Vacant path [id] s k
  new : s.nextLink ≤ id
  link : ∃ device, k.links id = some ⟨prog, hook, device⟩
  unpinned : ∀ path, k.pins.lookup path ≠ some id

theorem Unpinned.devices (hs : s.Wf) (h : Unpinned path prog hook id s k)
    (hdevices : Relation.ReflTransGen DeviceEvent k m) : Unpinned path prog hook id s m := by
  obtain ⟨-, -, hsame, -, hlinks⟩ := h.vacant.frame.devices hdevices
  refine ⟨h.vacant.devices hs hdevices, h.new, by rw [hlinks]; exact h.link, fun path' => ?_⟩
  rw [(hsame path').pin]
  exact h.unpinned path'

theorem Vacant.unpinned (h : Vacant path [] s k) {device : Nat}
    (hdevice : k.devices ifname = some device) (hook : Hook) (prog : SchedClassifier) :
    Unpinned path prog hook k.nextLink s (k.attach device hook prog) where
  vacant := h.attach hdevice hook prog
  new := h.frame.later.nextLink
  link := ⟨device, KeyMap.insert_self _ _ _⟩
  unpinned path' hpin := by
    obtain ⟨l, -, hl, -⟩ := h.frame.valid.pinned path' k.nextLink hpin
    exact Nat.lt_irrefl _ (h.frame.valid.nextLink k.nextLink
      (Option.ne_none_iff_exists'.mpr ⟨l, hl⟩))

theorem Unpinned.pin {dir : Path} (h : Unpinned (dir.join prog.name) prog hook id s k) :
    Frame (dir.join prog.name) s { k with pins := k.pins.insert (dir.join prog.name) id } ∧
      Attached (dir.join prog.name) prog hook s id
        { k with pins := k.pins.insert (dir.join prog.name) id } := by
  obtain ⟨device, hlink⟩ := h.link
  have hvalid := h.vacant.frame.valid.pin hlink h.unpinned h.vacant.pin
  refine ⟨⟨hvalid, h.vacant.frame.later.trans ⟨le_rfl, le_rfl, fun _ _ h => h⟩,
    fun path' hpath => (h.vacant.frame.others path' hpath).trans
      ⟨AList.lookup_insert_ne hpath, fun _ _ => rfl⟩⟩,
    h.vacant.defunct, h.new, AList.lookup_insert _, device, hlink⟩

theorem Attached.keep (hs : s.Wf) (h : Attached path prog hook s id k) (hk : Later s k)
    (hlater : Later k k') (hsame : Same path k k') : Attached path prog hook s id k' := by
  obtain ⟨hdefunct, hid, hpin, device, hlink⟩ := h
  exact ⟨hdefunct.keep hs hk hlater, hid, hsame.pin.trans hpin, device,
    (hsame.link id hpin).trans hlink⟩

theorem Attached.progress (h : Attached path prog hook s id k) : Progress path prog hook s k := by
  obtain ⟨hdefunct, hid, hpin, device, hlink⟩ := h
  exact .attached hdefunct id device hid hpin hlink

theorem attachTcx_guards (hs : s.Wf) {dir : Path} (h : Vacant (dir.join prog.name) [] s k) :
    (attachTcx ifname prog dir hook).run.Guards TcxOp.sem
      (Attaching (dir.join prog.name) prog hook s)
      (Prog.orError
        (fun id t => Frame (dir.join prog.name) s t ∧ t.fds = [] ∧
          Attached (dir.join prog.name) prog hook s id t)
        fun _ t => Vacant (dir.join prog.name) [] s t) k := by
  refine Prog.guards_try (fun _ t => Vacant (dir.join prog.name) [] s t) ?_ fun _ k₁ h₁ => ?_
  · refine tcxCall_guards ⟨h.frame, h.progress⟩ fun m r k' hdevices hcall => ?_
    obtain rfl : k' = m := hcall
    cases r with
    | ok _ => exact h.devices hs hdevices
    | error e => exact h.devices hs hdevices
  refine Prog.guards_try (Unpinned (dir.join prog.name) prog hook · s) ?_ fun id k₂ h₂ => ?_
  · refine tcxCall_guards ⟨h₁.frame, h₁.progress⟩ fun m r k' hdevices hcall => ?_
    have hvacant := h₁.devices hs hdevices
    cases r with
    | ok id =>
      obtain ⟨device, hdevice, rfl, rfl⟩ := hcall
      exact hvacant.unpinned hdevice hook prog
    | error e =>
      obtain rfl : k' = m := hcall
      exact hvacant
  refine Prog.guards_try (fun _ => Unpinned (dir.join prog.name) prog hook id s) ?_
    fun _ k₃ h₃ => ?_
  · refine tcxCallHolding_guards ⟨h₂.vacant.frame, h₂.vacant.progress⟩
      fun m r k' hdevices hcall => ?_
    obtain rfl : k' = m := hcall
    have hunpinned := h₂.devices hs hdevices
    cases r with
    | ok _ => exact hunpinned
    | error e =>
      exact ⟨⟨hunpinned.vacant.frame, hunpinned.vacant.progress⟩, fun m' hdevices' =>
        (hunpinned.vacant.devices hs hdevices').close⟩
  refine Prog.guards_try (fun _ t => Frame (dir.join prog.name) s t ∧ t.fds = [id] ∧
    Attached (dir.join prog.name) prog hook s id t) ?_ fun _ k₄ h₄ => ?_
  · refine tcxCallHolding_guards ⟨h₃.vacant.frame, h₃.vacant.progress⟩
      fun m r k' hdevices hcall => ?_
    have hunpinned := h₃.devices hs hdevices
    cases r with
    | ok _ =>
      obtain ⟨-, rfl⟩ := hcall
      obtain ⟨hframe, hattached⟩ := hunpinned.pin
      exact ⟨hframe, hunpinned.vacant.fds, hattached⟩
    | error e =>
      obtain rfl : k' = m := hcall
      exact ⟨⟨hunpinned.vacant.frame, hunpinned.vacant.progress⟩, fun m' hdevices' =>
        (hunpinned.vacant.devices hs hdevices').close⟩
  · obtain ⟨hframe, hfds, hattached⟩ := h₄
    refine Prog.guards_try _ (close_guards (R := fun _ t => Frame (dir.join prog.name) s t ∧
      t.fds = [] ∧ Attached (dir.join prog.name) prog hook s id t)
      ⟨hframe, hattached.progress⟩ fun m hdevices => ?_) fun _ k₅ h₅ => h₅
    obtain ⟨hframe', hlater, hsame, hfds', -⟩ := hframe.devices hdevices
    refine ⟨hframe'.close id, ?_, hattached.keep hs hframe.later
      (hlater.trans ⟨le_rfl, le_rfl, fun _ _ h => h⟩) ((hsame _).trans (same_close _ m id))⟩
    show m.fds.erase id = []
    rw [hfds', hfds, List.erase_cons_head]

/-! ### The operations in full -/

theorem Before.vacant (h : Before path [] s k) (hpin : k.pins.lookup path = none) :
    Vacant path [] s k := by
  refine ⟨h.frame, fun id l hid => ?_, hpin, h.fds⟩
  cases (h.same.pin.trans hid).symm.trans hpin

theorem Before.unpin (hs : s.Wf) (h : Before path [] s k) (hdefunct : Defunct path s k) :
    Vacant path [] s (k.unpin [path]) := by
  have hlater : Later k (k.unpin [path]) := ⟨le_rfl, le_rfl, fun _ _ h => h⟩
  refine ⟨⟨h.frame.valid.toWf.unpin [path], h.frame.later.trans hlater, fun path' hpath =>
    (h.frame.others path' hpath).trans (same_unpin (fun hmem => hpath ?_) k)⟩,
    hdefunct.keep hs h.frame.later hlater, ?_, h.fds⟩
  · exact List.mem_singleton.mp hmem
  · exact (HashMap.lookup_foldl_erase [path] k.pins path).trans
      (if_pos (List.mem_singleton_self path))

theorem updateTcx_guards (hs : s.Wf) {dir : Path} (h : Before (dir.join prog.name) [] s k) :
    (updateTcx prog dir).run.Guards TcxOp.sem (Attaching (dir.join prog.name) prog hook s)
      (Prog.orError
        (fun id t => Frame (dir.join prog.name) s t ∧ t.fds = [] ∧
          Updated (dir.join prog.name) prog s id t)
        fun e t => (∃ path, e = .notExist path) ∧ Vacant (dir.join prog.name) [] s t ∨
          (∀ path, e ≠ .notExist path) ∧ Before (dir.join prog.name) [] s t) k := by
  refine tryCatch_rule (updateLink_guards h) fun e k₁ h₁ => ?_
  obtain ⟨hbefore, hbecause⟩ := h₁
  cases e with
  | notExist path => exact .inl ⟨⟨path, rfl⟩, hbefore.vacant hbecause⟩
  | noLink path =>
    refine Prog.guards_try (fun _ t => Vacant (dir.join prog.name) [] s t) ?_
      fun _ k₂ h₂ => .inl ⟨⟨_, rfl⟩, h₂⟩
    refine tcxCall_guards ⟨hbefore.frame, .same hbefore.same⟩ fun m r k' hdevices hcall => ?_
    have hbefore' := hbefore.devices hdevices
    obtain ⟨-, hlater, -⟩ := hbefore.frame.devices hdevices
    cases r with
    | ok _ =>
      obtain rfl : k' = m.unpin [dir.join prog.name] := hcall
      exact hbefore'.unpin hs (Defunct.keep hs hbecause hbefore.frame.later hlater)
    | error e =>
      obtain rfl : k' = m := hcall
      refine .inr ⟨fun path => ?_, hbefore'⟩
      cases e with
      | noEnt => exact fun h => by cases h
      | noLink => exact fun h => by cases h
      | other message => exact fun h => by cases h
  | tcxRequiresLocalLink ifname netns => exact .inr ⟨fun path h => (by cases h), hbefore⟩
  | other message => exact .inr ⟨fun path h => (by cases h), hbefore⟩

theorem upsertTcx_guards (hs : s.Wf) {dir : Path} (h : Before (dir.join prog.name) [] s k) :
    (upsertTcx ifname prog dir hook).run.Guards TcxOp.sem
      (Attaching (dir.join prog.name) prog hook s)
      (Prog.orError
        (fun id t => Frame (dir.join prog.name) s t ∧ t.fds = [] ∧
          (Updated (dir.join prog.name) prog s id t ∨
            Attached (dir.join prog.name) prog hook s id t))
        fun _ t => Before (dir.join prog.name) [] s t ∨ Vacant (dir.join prog.name) [] s t) k := by
  refine Prog.guards_try (fun _ t => Before (dir.join prog.name) [] s t)
    (Prog.guards_lift ⟨⟨h.frame, .same h.same⟩, fun _ k' hsem => ?_⟩) fun _ k' h' => ?_
  · obtain ⟨m, hdevices, rfl⟩ := hsem
    exact h.devices hdevices
  refine tryCatch_rule ((updateTcx_guards hs h').imp_try (fun id t ht =>
    ⟨ht.1, ht.2.1, .inl ht.2.2⟩) fun e t ht => ht) fun e k₁ h₁ => ?_
  rcases h₁ with ⟨⟨path, rfl⟩, hvacant⟩ | ⟨hother, hbefore⟩
  · exact (attachTcx_guards hs hvacant).imp_try (fun id t ht => ⟨ht.1, ht.2.1, .inr ht.2.2⟩)
      fun _ _ ht => .inr ht
  · cases e with
    | notExist path => exact absurd rfl (hother path)
    | noLink path => exact .inl hbefore
    | tcxRequiresLocalLink ifname netns => exact .inl hbefore
    | other message => exact .inl hbefore

theorem upsertTcxProgram_guards (hs : s.Tidy) {netns : Option String} {dir : Path} :
    (upsertTcxProgram ifname netns prog dir hook).run.Guards TcxOp.sem
      (Attaching (dir.join prog.name) prog hook s)
      (Prog.orError
        (fun id t => Frame (dir.join prog.name) s t ∧ t.fds = [] ∧ netns = none ∧
          (Updated (dir.join prog.name) prog s id t ∨
            Attached (dir.join prog.name) prog hook s id t))
        fun _ t => Before (dir.join prog.name) [] s t ∨ Vacant (dir.join prog.name) [] s t) s := by
  have hbefore : Before (dir.join prog.name) [] s s := ⟨hs.frame _, .refl _ s, hs.fds⟩
  cases netns with
  | some netns => exact .inl hbefore
  | none =>
    exact (upsertTcx_guards hs.toWf hbefore).imp_try (fun id t ht => ⟨ht.1, ht.2.1, rfl, ht.2.2⟩)
      fun _ _ ht => ht

/-- Between two calls of a detachment, the other pins are as they were. -/
abbrev Detaching (path : Path) (s : TcxKernel) : ∀ β : Type, TcxOp β → TcxKernel → Prop :=
  fun _ _ k => Frame path s k ∧ (Same path s k ∨ k.pins.lookup path = none)

theorem Frame.unpin (h : Frame path s k) :
    Frame path s (k.unpin [path]) ∧ (k.unpin [path]).pins.lookup path = none := by
  refine ⟨⟨h.valid.toWf.unpin [path], h.later.trans ⟨le_rfl, le_rfl, fun _ _ h => h⟩,
    fun path' hpath => (h.others path' hpath).trans (same_unpin (fun hmem => hpath ?_) k)⟩,
    (HashMap.lookup_foldl_erase [path] k.pins path).trans (if_pos (List.mem_singleton_self path))⟩
  exact List.mem_singleton.mp hmem

theorem detachTcxProgram_guards (hs : s.Tidy) (dir : Path) (progName : String) :
    (detachTcxProgram dir progName).run.Guards TcxOp.sem (Detaching (dir.join progName) s)
      (Prog.orError
        (fun _ t => Frame (dir.join progName) s t ∧ t.fds = [] ∧
          t.pins.lookup (dir.join progName) = none)
        fun _ t => Frame (dir.join progName) s t ∧ t.fds = [] ∧
          (Same (dir.join progName) s t ∨ t.pins.lookup (dir.join progName) = none)) s := by
  have hbefore : Before (dir.join progName) [] s s := ⟨hs.frame _, .refl _ s, hs.fds⟩
  refine Prog.guards_try (fun id t => Before (dir.join progName) [id] s t) ?_ fun id k₁ h₁ => ?_
  · refine tryCatch_rule (Y := fun _ t => Before (dir.join progName) [] s t)
      (tcxCall_guards ⟨hbefore.frame, .inl hbefore.same⟩ fun m r k' hdevices hcall => ?_)
      fun e k₂ h₂ => ?_
    · have hm := hbefore.devices hdevices
      cases r with
      | ok id =>
        obtain ⟨hpin, rfl⟩ := hcall
        exact hm.fromPin hpin
      | error e =>
        cases e with
        | noEnt => exact hcall.2 ▸ hm
        | noLink => exact hcall ▸ hm
        | other message => exact hcall ▸ hm
    · refine Prog.guards_try (fun _ t => Frame (dir.join progName) s t ∧ t.fds = [] ∧
        (Same (dir.join progName) s t ∨ t.pins.lookup (dir.join progName) = none))
        (Prog.guards_lift ⟨⟨h₂.frame, .inl h₂.same⟩, fun r k' hsem => ?_⟩) fun _ _ h => h
      obtain ⟨m, hdevices, hcall⟩ := hsem
      have hm := h₂.devices hdevices
      cases r with
      | ok _ =>
        obtain rfl : k' = m.unpin [dir.join progName] := hcall
        exact ⟨hm.frame.unpin.1, hm.fds, .inr hm.frame.unpin.2⟩
      | error e =>
        obtain rfl : k' = m := hcall
        exact ⟨hm.frame, hm.fds, .inl hm.same⟩
  refine Prog.guards_try (fun _ t => Frame (dir.join progName) s t ∧ t.fds = [id] ∧
    t.pins.lookup (dir.join progName) = none) ?_ fun _ k₃ h₃ => ?_
  · refine tcxCallHolding_guards ⟨h₁.frame, .inl h₁.same⟩ fun m r k' hdevices hcall => ?_
    have hm := h₁.devices hdevices
    cases r with
    | ok _ =>
      obtain rfl : k' = m.unpin [dir.join progName] := hcall
      exact ⟨hm.frame.unpin.1, hm.fds, hm.frame.unpin.2⟩
    | error e =>
      obtain rfl : k' = m := hcall
      refine ⟨⟨hm.frame, .inl hm.same⟩, fun m' hdevices' => ?_⟩
      have hclosed := (hm.devices hdevices').close
      exact ⟨hclosed.frame, hclosed.fds, .inl hclosed.same⟩
  · obtain ⟨hframe, hfds, hpin⟩ := h₃
    refine close_guards ⟨hframe, .inr hpin⟩ fun m hdevices => ?_
    obtain ⟨hframe', -, hsame, hfds', -⟩ := hframe.devices hdevices
    refine ⟨hframe'.close id, ?_, (hsame _).pin.trans hpin⟩
    show m.fds.erase id = []
    rw [hfds', hfds, List.erase_cons_head]

theorem removePinDir_guards (hs : s.Tidy) (dir : Path) :
    (removePinDir dir).run.Guards TcxOp.sem (fun _ _ k => k = s)
      (fun r t => t.Tidy ∧ Later s t ∧ (∀ path, ¬ dir <+: path → Same path s t) ∧
        (r = .ok () → ∀ path, dir <+: path → t.pins.lookup path = none)) s := by
  refine ⟨rfl, fun r k' hsem => ?_⟩
  obtain ⟨m, hdevices, hcall⟩ := hsem
  have hm : Before [] [] s m := Before.devices ⟨hs.frame _, .refl _ s, hs.fds⟩ hdevices
  obtain ⟨hlinks, hlater, -⟩ := devices_spec hdevices
  have hremoved : ∀ paths, (∀ path ∈ paths, dir <+: path) → (m.unpin paths).Tidy ∧
      Later s (m.unpin paths) ∧ ∀ path, ¬ dir <+: path → Same path s (m.unpin paths) :=
    fun paths hpaths => ⟨⟨hm.frame.valid.toWf.unpin paths, hm.fds⟩,
      hlater.trans ⟨le_rfl, le_rfl, fun _ _ h => h⟩, fun path hpath =>
        (hlinks.same path).trans (same_unpin (fun hmem => hpath (hpaths path hmem)) m)⟩
  cases r with
  | ok _ =>
    obtain ⟨paths, hpaths, rfl⟩ := hcall
    obtain ⟨htidy, hlater', hsame⟩ := hremoved paths fun path hpath => ((hpaths path).mp hpath).1
    refine ⟨htidy, hlater', hsame, fun _ path hpath => ?_⟩
    refine (HashMap.lookup_foldl_erase paths m.pins path).trans ?_
    split
    · rfl
    · next hmem => exact not_not.mp fun hpin => hmem ((hpaths path).mpr ⟨hpath, hpin⟩)
  | error e =>
    cases e with
    | noEnt =>
      obtain ⟨hnone, rfl⟩ := hcall
      exact ⟨⟨hm.frame.valid, hm.fds⟩, hlater, fun path _ => hlinks.same path, fun _ => hnone⟩
    | noLink =>
      obtain ⟨paths, hpaths, rfl⟩ := hcall
      obtain ⟨htidy, hlater', hsame⟩ := hremoved paths hpaths
      exact ⟨htidy, hlater', hsame, fun h => by cases h⟩
    | other message =>
      obtain ⟨paths, hpaths, rfl⟩ := hcall
      obtain ⟨htidy, hlater', hsame⟩ := hremoved paths hpaths
      exact ⟨htidy, hlater', hsame, fun h => by cases h⟩

end TcxKernel

/-! ### Runs -/

/-- The operations on pinned links. -/
inductive TcxRequest
  | upsert (ifname : String) (netns : Option String) (prog : SchedClassifier) (bpffsDir : Path)
      (hook : Hook)
  | detach (bpffsDir : Path) (progName : String)
  | removePinDir (dir : Path)

/-- An operation is called; an upsert answers the number of the link. -/
def TcxRequest.run : TcxRequest → TcxM (Option Nat)
  | .upsert ifname netns prog bpffsDir hook => do
    let id ← upsertTcxProgram ifname netns prog bpffsDir hook
    return some id
  | .detach bpffsDir progName => do
    detachTcxProgram bpffsDir progName
    return none
  | .removePinDir dir => do
    Loader.removePinDir dir
    return none

/-- What happens: an operation is done or cut off, or a device comes or goes. -/
inductive TcxEvent
  | done (request : TcxRequest) (result : Except TcxError (Option Nat))
  | crashed (request : TcxRequest)
  | device

/-- One operation after the other, with crashes and devices in between. -/
inductive TcxStep : TcxKernel → TcxEvent → TcxKernel → Prop
  | done (request : TcxRequest) (s t : TcxKernel) (tr : List (Answered TcxOp))
      (result : Except TcxError (Option Nat))
      (h : Exec TcxOp.sem request.run.run s tr (.pure result) t) :
      TcxStep s (.done request result) t
  /-- The process ends on the way, or the thread unwinds where `unwrap` fails. -/
  | crashed (request : TcxRequest) (s t : TcxKernel) (tr : List (Answered TcxOp))
      (rest : Prog TcxOp (Except TcxError (Option Nat)))
      (h : Exec TcxOp.sem request.run.run s tr rest t) : TcxStep s (.crashed request) t.crash
  | device (s t : TcxKernel) (h : DeviceEvent s t) : TcxStep s .device t

namespace TcxKernel

/-- The pins an operation may touch. -/
def touched : TcxRequest → Path → Prop
  | .upsert _ _ prog bpffsDir _, path => path = bpffsDir.join prog.name
  | .detach bpffsDir progName, path => path = bpffsDir.join progName
  | .removePinDir dir, path => dir <+: path

/-- What an operation does to the pins it may touch, when it is done. -/
def Done (s t : TcxKernel) : TcxRequest → Except TcxError (Option Nat) → Prop
  | .upsert _ netns prog bpffsDir hook, .ok id => ∃ n, id = some n ∧ netns = none ∧
    (Updated (bpffsDir.join prog.name) prog s n t ∨
      Attached (bpffsDir.join prog.name) prog hook s n t)
  | .upsert _ _ prog bpffsDir _, .error _ => Same (bpffsDir.join prog.name) s t ∨
    Defunct (bpffsDir.join prog.name) s t ∧ t.pins.lookup (bpffsDir.join prog.name) = none
  | .detach bpffsDir progName, .ok _ => t.pins.lookup (bpffsDir.join progName) = none
  | .detach bpffsDir progName, .error _ => Same (bpffsDir.join progName) s t ∨
    t.pins.lookup (bpffsDir.join progName) = none
  | .removePinDir dir, .ok _ => ∀ path, dir <+: path → t.pins.lookup path = none
  | .removePinDir _, .error _ => True

/-- What an operation may have done to the pins it may touch, when it is cut off. -/
def CutOff (s t : TcxKernel) : TcxRequest → Prop
  | .upsert _ _ prog bpffsDir hook => Progress (bpffsDir.join prog.name) prog hook s t
  | .detach bpffsDir progName => Same (bpffsDir.join progName) s t ∨
    t.pins.lookup (bpffsDir.join progName) = none
  | .removePinDir _ => True

/-- What is promised of every step. -/
def Promised (s : TcxKernel) : TcxEvent → TcxKernel → Prop
  | .done request result, t =>
    (∀ path, ¬ touched request path → Same path s t) ∧ Done s t request result
  | .crashed request, t => (∀ path, ¬ touched request path → Same path s t) ∧ CutOff s t request
  | .device, t => ∀ path, Same path s t

/-- What is promised when an operation is done or cut off. -/
theorem request_guards (hs : s.Tidy) (request : TcxRequest) :
    request.run.run.Guards TcxOp.sem
      (fun _ _ k => k.Wf ∧ Later s k ∧ (∀ path, ¬ touched request path → Same path s k) ∧
        CutOff s k request)
      (fun result t => t.Tidy ∧ Later s t ∧ (∀ path, ¬ touched request path → Same path s t) ∧
        CutOff s t request ∧ Done s t request result) s := by
  cases request with
  | upsert ifname netns prog dir hook =>
    have hrun : (TcxRequest.upsert ifname netns prog dir hook).run.run.Guards TcxOp.sem
        (Attaching (dir.join prog.name) prog hook s)
        (Prog.orError
          (fun id t => ∃ n, id = some n ∧ Frame (dir.join prog.name) s t ∧ t.fds = [] ∧
            netns = none ∧ (Updated (dir.join prog.name) prog s n t ∨
              Attached (dir.join prog.name) prog hook s n t))
          fun _ t => Before (dir.join prog.name) [] s t ∨ Vacant (dir.join prog.name) [] s t) s :=
      Prog.guards_try _ (upsertTcxProgram_guards hs) fun id t ht => ⟨id, rfl, ht⟩
    refine hrun.mono
      (fun _ _ k hk => ⟨hk.1.valid.toWf, hk.1.later, hk.1.others, hk.2⟩) fun r t ht => ?_
    cases r with
    | ok id =>
      obtain ⟨n, rfl, hframe, hfds, hnetns, hdone⟩ := ht
      exact ⟨⟨hframe.valid, hfds⟩, hframe.later, hframe.others,
        hdone.elim Updated.progress Attached.progress, n, rfl, hnetns, hdone⟩
    | error e =>
      rcases ht with hbefore | hvacant
      · exact ⟨⟨hbefore.frame.valid, hbefore.fds⟩, hbefore.frame.later, hbefore.frame.others,
          .same hbefore.same, .inl hbefore.same⟩
      · exact ⟨⟨hvacant.frame.valid, hvacant.fds⟩, hvacant.frame.later, hvacant.frame.others,
          hvacant.progress, .inr ⟨hvacant.defunct, hvacant.pin⟩⟩
  | detach dir progName =>
    have hrun : (TcxRequest.detach dir progName).run.run.Guards TcxOp.sem
        (Detaching (dir.join progName) s)
        (Prog.orError
          (fun _ t => Frame (dir.join progName) s t ∧ t.fds = [] ∧
            t.pins.lookup (dir.join progName) = none)
          fun _ t => Frame (dir.join progName) s t ∧ t.fds = [] ∧
            (Same (dir.join progName) s t ∨ t.pins.lookup (dir.join progName) = none)) s :=
      Prog.guards_try _ (detachTcxProgram_guards hs dir progName) fun _ _ ht => ht
    refine hrun.mono
      (fun _ _ k hk => ⟨hk.1.valid.toWf, hk.1.later, hk.1.others, hk.2⟩) fun r t ht => ?_
    cases r with
    | ok _ =>
      obtain ⟨hframe, hfds, hpin⟩ := ht
      exact ⟨⟨hframe.valid, hfds⟩, hframe.later, hframe.others, .inr hpin, hpin⟩
    | error e =>
      obtain ⟨hframe, hfds, hdone⟩ := ht
      exact ⟨⟨hframe.valid, hfds⟩, hframe.later, hframe.others, hdone, hdone⟩
  | removePinDir dir =>
    show ((Loader.removePinDir dir >>= fun _ => pure none : TcxM (Option Nat)).run).Guards _ _ _ s
    rw [ExceptT.run_bind]
    refine Prog.guards_bind ((removePinDir_guards hs dir).mono (fun _ _ k hk => ?_)
      fun r t ht => ht) fun r t ht => ?_
    · subst hk
      exact ⟨hs.toWf, .refl k, fun path _ => .refl path k, trivial⟩
    obtain ⟨htidy, hlater, hothers, hdone⟩ := ht
    cases r with
    | ok _ => exact ⟨htidy, hlater, hothers, trivial, hdone rfl⟩
    | error e => exact ⟨htidy, hlater, hothers, trivial, trivial⟩

/-- Closing the process' file descriptors leaves the pins as they are. -/
theorem CutOff.crash {request : TcxRequest} (hs : s.Wf) (hk : Later s k)
    (h : CutOff s k request) : CutOff s k.crash request := by
  have hlater : Later k k.crash := ⟨le_rfl, le_rfl, fun _ _ h => h⟩
  cases request with
  | upsert ifname netns prog dir hook =>
    exact Progress.keep hs h hk hlater (same_crash _ k)
  | detach dir progName =>
    exact h.imp (fun h => h.trans (same_crash _ k)) fun h => h
  | removePinDir dir => trivial

end TcxKernel

/-- **Pins.**  In every run of the operations, whatever calls fail, wherever the process ends and
    whatever devices come and go, all that is attached is pinned, once and under its program's
    name.  An operation touches only its own pins.  An upsert that succeeds leaves its program
    running there, in the link that was pinned or, where that was defunct, in a new one; neither
    failing nor being cut off does it take away a link whose device is there.  A detachment lets
    its pin go, or leaves it as it was. -/
theorem tcx_pins {s : TcxKernel} (run : Run TcxStep .empty s) :
    run.Always (fun k => k.Tidy ∧ k.Pinned) ∧ run.EachStep TcxKernel.Promised := by
  have hstep : ∀ s e t, TcxStep s e t → s.Tidy → t.Tidy ∧ TcxKernel.Promised s e t := by
    intro s e t h hs
    cases h with
    | done request _ _ tr result h =>
      obtain ⟨htidy, -, hothers, -, hdone⟩ := (TcxKernel.request_guards hs request).exec h
      exact ⟨htidy, hothers, hdone⟩
    | crashed request _ t tr rest h =>
      have hguards := (TcxKernel.request_guards hs request).exec h
      have hcrash : t.Wf ∧ TcxKernel.Later s t ∧
          (∀ path, ¬ TcxKernel.touched request path → TcxKernel.Same path s t) ∧
            TcxKernel.CutOff s t request := by
        cases rest with
        | pure r => exact ⟨hguards.1.toWf, hguards.2.1, hguards.2.2.1, hguards.2.2.2.1⟩
        | op e k => exact hguards.1
      obtain ⟨hwf, hlater, hothers, hcut⟩ := hcrash
      exact ⟨hwf.crash, fun path hpath => (hothers path hpath).trans (TcxKernel.same_crash path t),
        hcut.crash hs.toWf hlater⟩
    | device _ _ h =>
      obtain ⟨hlinks, -, -⟩ := TcxKernel.devices_spec (.single h)
      exact ⟨hs.device h, hlinks.same⟩
  have htidy := run.always_of_invariant TcxKernel.empty_tidy fun s e t h hs => (hstep s e t h hs).1
  exact ⟨htidy.mono fun k hk => ⟨hk, hk.pinned_once⟩,
    run.eachStep_of_invariant TcxKernel.empty_tidy (fun s e t h hs => (hstep s e t h hs).1)
      fun s e t h hs => (hstep s e t h hs).2⟩

/-! ### Attaching in the end -/

/-- The system call fails only for a cause. -/
def Caused : ∀ {β : Type}, TcxOp β → β → Prop
  | _, .progInfo _, _ => True
  | _, .fromPin _, .error e => e = .noEnt
  | _, .fromPin _, .ok _ => True
  | _, .attachToLink _ _, .error e => e = .noLink
  | _, .attachToLink _ _, .ok _ => True
  | _, .info _, r => r = .ok ()
  | _, .tryInto _, r => r = .ok ()
  | _, .close _, _ => True
  | _, .removeFile _, r => r = .ok ()
  | _, .createDirAll _, r => r = .ok ()
  | _, .attachWithOptions _ _ _, r => ∃ id, r = .ok id
  | _, .pin _ _, r => r = .ok ()
  | _, .removeDirAll _, _ => True

/-- System calls that fail only for a cause, while no device comes or goes. -/
def TcxOp.calm : Sem TcxOp TcxKernel := fun β op k b k' => TcxOp.call β op k b k' ∧ Caused op b

namespace TcxKernel

variable {k s : TcxKernel} {path : Path} {id : Nat} {prog : SchedClassifier} {hook : Hook}
  {ifname : String}

/-- A call that succeeds and does nothing. -/
theorem holding_calm {op : TcxOp (Except Errno Unit)} {X : TcxError → TcxKernel → Prop}
    (hop : ∀ r k', TcxOp.calm _ op k r k' → r = .ok () ∧ k' = k) :
    (tcxCallHolding id op Errno.toInfra).run.Guards TcxOp.calm (fun _ _ _ => True)
      (Prog.orError (fun _ t => t = k) X) k := by
  refine tcxCallHolding_rule trivial fun r k' hsem => ?_
  obtain ⟨rfl, rfl⟩ := hop r k' hsem
  exact rfl

/-- What an attachment leaves, when nothing fails. -/
structure Runs (path : Path) (prog : SchedClassifier) (hook : Hook) (device : Nat) (id : Nat)
    (k : TcxKernel) : Prop where
  pin : k.pins.lookup path = some id
  link : k.links id = some ⟨prog, hook, device⟩
  registered : k.Registered device

theorem Runs.close {device : Nat} (h : Runs path prog hook device id k) (id' : Nat) :
    Runs path prog hook device id (k.close id') where
  pin := h.pin
  link := ((same_close path k id').link id h.pin).trans h.link
  registered := h.registered

theorem attachTcx_calm {dir : Path} {device : Nat}
    (hpin : k.pins.lookup (dir.join prog.name) = none) (hdevice : k.devices ifname = some device) :
    (attachTcx ifname prog dir hook).run.Guards TcxOp.calm (fun _ _ _ => True)
      (Prog.orError (Runs (dir.join prog.name) prog hook device) fun _ _ => False) k := by
  refine Prog.guards_try (fun _ t => t = k) (tcxCall_rule trivial fun r k' hsem => ?_)
    fun _ k₁ hk₁ => ?_
  · obtain ⟨hcall, rfl⟩ := hsem
    exact hcall
  subst hk₁
  refine Prog.guards_try (fun id t => id = k₁.nextLink ∧ t = k₁.attach device hook prog)
    (tcxCall_rule trivial fun r k' hsem => ?_) fun id k₂ hk₂ => ?_
  · obtain ⟨hcall, id, rfl⟩ := hsem
    obtain ⟨device', hdevice', rfl, rfl⟩ := hcall
    obtain rfl := Option.some.inj (hdevice.symm.trans hdevice')
    exact ⟨rfl, rfl⟩
  obtain ⟨rfl, rfl⟩ := hk₂
  refine Prog.guards_try (fun _ t => t = k₁.attach device hook prog)
    (holding_calm fun r k' hsem => ⟨hsem.2, hsem.1⟩) fun _ k₃ hk₃ => ?_
  subst hk₃
  refine Prog.guards_try (fun _ => Runs (dir.join prog.name) prog hook device k₁.nextLink)
    (tcxCallHolding_rule trivial fun r k' hsem => ?_) fun _ k₄ hk₄ => ?_
  · obtain ⟨hcall, rfl⟩ := hsem
    obtain ⟨-, rfl⟩ := hcall
    exact ⟨AList.lookup_insert _, KeyMap.insert_self _ _ _, ifname, hdevice⟩
  · refine Prog.guards_try (fun _ => Runs (dir.join prog.name) prog hook device k₁.nextLink)
      (Prog.guards_lift ⟨trivial, fun _ k' hsem => ?_⟩) fun _ k₅ hk₅ => hk₅
    obtain rfl : k' = k₄.close k₁.nextLink := hsem.1
    exact hk₄.close _

/-- What an update leaves, when nothing fails: of the link at the path, or of the path. -/
def Renewed (path : Path) (prog : SchedClassifier) (s : TcxKernel) (id : Nat) (t : TcxKernel) :
    Prop :=
  ∃ l, s.pins.lookup path = some id ∧ s.links id = some l ∧ t.pins.lookup path = some id ∧
    t.links id = some { l with prog := prog } ∧ t.Registered l.device

/-- Why `update_link` fails, when nothing fails without a cause. -/
def Cause (path : Path) (s t : TcxKernel) : TcxError → Prop
  | .notExist _ => s.pins.lookup path = none ∧ t.pins.lookup path = none
  | .noLink _ => ∃ id l, s.pins.lookup path = some id ∧ s.links id = some l ∧
    ¬ s.Registered l.device
  | _ => False

theorem updateLink_calm (hs : s.Wf) :
    (updateLink path prog).run.Guards TcxOp.calm (fun _ _ _ => True)
      (Prog.orError (Renewed path prog s)
        fun e t => t.devices = s.devices ∧ Cause path s t e) s := by
  refine Prog.guards_try (fun id t => s.pins.lookup path = some id ∧
    t = { s with fds := id :: s.fds }) (tcxCall_rule trivial fun r k' hsem => ?_) fun id k₁ h₁ => ?_
  · obtain ⟨hcall, hcause⟩ := hsem
    cases r with
    | ok id => exact hcall
    | error e =>
      obtain rfl : e = .noEnt := hcause
      obtain ⟨hpin, rfl⟩ := hcall
      exact ⟨rfl, hpin, hpin⟩
  obtain ⟨hpin, rfl⟩ := h₁
  obtain ⟨l, -, hlink, -⟩ := hs.pinned path id hpin
  refine Prog.guards_try (fun _ t => t = { s with fds := id :: s.fds }) ?_ fun _ k₂ h₂ => ?_
  · exact holding_calm fun r k' hsem => ⟨hsem.2, hsem.1⟩
  subst h₂
  refine Prog.guards_try (fun _ t => t = { s with fds := id :: s.fds }) ?_ fun _ k₃ h₃ => ?_
  · exact holding_calm fun r k' hsem => ⟨hsem.2, hsem.1⟩
  subst h₃
  refine Prog.guards_try (fun _ => Renewed path prog s id)
    (tcxCallHolding_rule trivial fun r k' hsem => ?_) fun _ k₄ h₄ => ?_
  · obtain ⟨hcall, hcause⟩ := hsem
    cases r with
    | ok _ =>
      obtain ⟨l', hlink', hregistered, rfl⟩ := hcall
      obtain rfl := Option.some.inj (hlink.symm.trans hlink')
      exact ⟨l, hpin, hlink, hpin, KeyMap.insert_self _ _ _, hregistered⟩
    | error e =>
      obtain rfl : e = .noLink := hcause
      obtain ⟨⟨l', hlink', hgone⟩, rfl⟩ := hcall
      obtain rfl := Option.some.inj (hlink.symm.trans hlink')
      refine ⟨trivial, fun _ k'' hclose => ?_⟩
      obtain rfl : k'' = TcxKernel.close _ id := hclose.1
      exact ⟨rfl, id, l, hpin, hlink, hgone⟩
  · refine Prog.guards_try (fun _ => Renewed path prog s id)
      (Prog.guards_lift ⟨trivial, fun _ k' hsem => ?_⟩) fun _ k₅ h₅ => h₅
    obtain rfl : k' = k₄.close id := hsem.1
    obtain ⟨l, hpin, hlink, hpin', hlink', hregistered⟩ := h₄
    exact ⟨l, hpin, hlink, hpin', ((same_close path k₄ id).link id hpin').trans hlink',
      hregistered⟩

theorem upsertTcx_calm (hs : s.Wf) {dir : Path} {device : Nat}
    (hdevice : s.devices ifname = some device) :
    (upsertTcx ifname prog dir hook).run.Guards TcxOp.calm (fun _ _ _ => True)
      (Prog.orError (fun id t => Renewed (dir.join prog.name) prog s id t ∨
        Runs (dir.join prog.name) prog hook device id t ∧ Defunct (dir.join prog.name) s s)
        fun _ _ => False) s := by
  have hattach : ∀ k : TcxKernel, k.pins.lookup (dir.join prog.name) = none →
      k.devices = s.devices → Defunct (dir.join prog.name) s s →
      (attachTcx ifname prog dir hook).run.Guards TcxOp.calm (fun _ _ _ => True)
        (Prog.orError (fun id t => Renewed (dir.join prog.name) prog s id t ∨
          Runs (dir.join prog.name) prog hook device id t ∧ Defunct (dir.join prog.name) s s)
          fun _ _ => False) k := by
    intro k hpin hdevices hdefunct
    refine (attachTcx_calm hpin ?_).imp_try (fun id t ht => .inr ⟨ht, hdefunct⟩) fun _ _ h => h
    rw [hdevices, hdevice]
  refine Prog.guards_try (fun _ t => t = s) (Prog.guards_lift ⟨trivial, fun _ k' hsem => hsem.1⟩)
    fun _ k hk => ?_
  rw [hk]
  refine tryCatch_rule (Y := fun e k => (∃ path, e = .notExist path) ∧
    k.pins.lookup (dir.join prog.name) = none ∧ k.devices = s.devices ∧
      Defunct (dir.join prog.name) s s) ?_ fun e k h => ?_
  · refine tryCatch_rule ((updateLink_calm hs).imp_try (fun id t ht => .inl ht) fun _ _ h => h)
      fun e k h => ?_
    obtain ⟨hdevices, hcause⟩ := h
    cases e with
    | notExist path =>
      refine ⟨⟨path, rfl⟩, hcause.2, hdevices, fun id l hpin => ?_⟩
      cases hcause.1.symm.trans hpin
    | noLink path =>
      obtain ⟨id, l, hpin, hlink, hgone⟩ := hcause
      refine Prog.guards_try (fun _ t => t = k.unpin [dir.join prog.name])
        (tcxCall_rule trivial fun r k' hsem => ?_) fun _ k' h' => ?_
      · obtain ⟨hcall, rfl⟩ := hsem
        exact hcall
      · subst h'
        refine ⟨⟨_, rfl⟩, (HashMap.lookup_foldl_erase _ _ _).trans
          (if_pos (List.mem_singleton_self _)), hdevices, fun id' l' hpin' hlink' => ?_⟩
        obtain rfl := Option.some.inj (hpin.symm.trans hpin')
        obtain rfl := Option.some.inj (hlink.symm.trans hlink')
        exact hgone
    | tcxRequiresLocalLink ifname netns => exact hcause.elim
    | other message => exact hcause.elim
  · obtain ⟨⟨path, rfl⟩, hpin, hdevices, hdefunct⟩ := h
    exact hattach k hpin hdevices hdefunct

end TcxKernel

/-- **Healing.**  When system calls fail only for a cause, an upsert on a device that is there
    succeeds, and leaves its program running at its pin on a device that is there: in the link
    that was pinned, or, where nothing was pinned or that link's device was gone, in a new one on
    the given device. -/
theorem upsert_heals {s t : TcxKernel} (hs : s.Tidy) {ifname : String} {prog : SchedClassifier}
    {dir : Path} {hook : Hook} {device : Nat} (hdevice : s.devices ifname = some device)
    {tr : List (Answered TcxOp)} {r : Except TcxError Nat}
    (h : Exec TcxOp.calm (upsertTcxProgram ifname none prog dir hook).run s tr (.pure r) t) :
    ∃ id l, r = .ok id ∧ t.pins.lookup (dir.join prog.name) = some id ∧ t.links id = some l ∧
      l.prog = prog ∧ t.Registered l.device ∧
      ((∃ l₀, s.pins.lookup (dir.join prog.name) = some id ∧ s.links id = some l₀ ∧
          l = { l₀ with prog := prog }) ∨
        l = ⟨prog, hook, device⟩ ∧ ∀ id₀ l₀, s.pins.lookup (dir.join prog.name) = some id₀ →
          s.links id₀ = some l₀ → ¬ s.Registered l₀.device) := by
  change Exec TcxOp.calm (upsertTcx ifname prog dir hook).run s tr (.pure r) t at h
  have hguards := (TcxKernel.upsertTcx_calm hs.toWf hdevice).exec h
  cases r with
  | error e => exact hguards.elim
  | ok id =>
    rcases hguards with ⟨l, hpin, hlink, hpin', hlink', hregistered⟩ | ⟨hruns, hdefunct⟩
    · exact ⟨id, _, rfl, hpin', hlink', rfl, hregistered, .inl ⟨l, hpin, hlink, rfl⟩⟩
    · exact ⟨id, _, rfl, hruns.pin, hruns.link, rfl, hruns.registered, .inr ⟨rfl, hdefunct⟩⟩

theorem upsert_heals_first : ∃ (t : TcxKernel) (id : Nat) (l : TcxLink),
    t.pins.lookup ["sys", "from_container"] = some id ∧ t.links id = some l ∧
      l.prog = ⟨7, "from_container"⟩ ∧ t.Registered l.device := by
  have hs := TcxKernel.empty_tidy.device (.register .empty "lxc1" rfl)
  have hrun : Exec TcxOp.calm
      (upsertTcxProgram "lxc1" none ⟨7, "from_container"⟩ ["sys"] .tcxIngress).run
      (TcxKernel.empty.register "lxc1") _ (.pure (.ok 0)) _ :=
    .step _ _ _ () _ _ _ _ (by exact ⟨rfl, trivial⟩) <|
    .step _ _ _ (Except.error .noEnt) _ _ _ _ (by exact ⟨⟨rfl, rfl⟩, rfl⟩) <|
    .step _ _ _ (Except.ok ()) _ _ _ _ (by exact ⟨rfl, rfl⟩) <|
    .step _ _ _ (Except.ok 0) _ _ _ _ (by exact ⟨⟨0, rfl, rfl, rfl⟩, 0, rfl⟩) <|
    .step _ _ _ (Except.ok ()) _ _ _ _ (by exact ⟨rfl, rfl⟩) <|
    .step _ _ _ (Except.ok ()) _ _ _ _ (by exact ⟨⟨rfl, rfl⟩, rfl⟩) <|
    .step _ _ _ () _ _ _ _ (by exact ⟨rfl, trivial⟩) <|
    .refl _ _
  obtain ⟨id, l, -, hpin, hlink, hprog, hregistered, -⟩ := upsert_heals hs rfl hrun
  exact ⟨_, id, l, hpin, hlink, hprog, hregistered⟩

end Sarena.Loader
