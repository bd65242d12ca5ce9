import Mathlib.Data.Prod.Lex
import Mathlib.Data.String.Basic
import Sarena.Controller.Status

namespace Sarena.Controllers

open Lib

/-!
# Controllers — the registry

Managers enter their controllers into a registry, which several of them may share.  It refers
to the status cells weakly, and no lock covers both an entry of a manager and the registry.

* `Managers` — managers, status cells and registries;
* `RegistryStep` — the calls of all managers, from lock to lock, with the runners in between;
* `Places` — where the id of a controller is, from `update` to the end of `stop_entry`;
* `Place.Follows`, `RegistryStep.places` — how a step moves an id;
* `RegistryStep.onward` — what every step leaves alone.
-/

variable {Job : Type}

/-! ### The state -/

/-- A `StatusCell` with the strong references to it: one of the manager's side, in an entry or
    in a call, and one of the runner. -/
structure StatusCell where
  status : ControllerStatus
  entry : Bool
  runner : Bool

/-- `Weak::upgrade` succeeds. -/
def StatusCell.strong (c : StatusCell) : Bool := c.entry || c.runner

/-- How far an `update` of a new name has come, with the entries locked. -/
inductive Stage
  | reserved
  | registered
  | spawned
  deriving DecidableEq, Repr

/-- An `update` of a new name. -/
structure Adding where
  name : String
  id : Nat
  stage : Stage

/-- A manager and its calls in progress. -/
structure Owner where
  registry : Nat
  maxInterval : Option Duration
  entries : HashMap String Nat := ∅
  adding : Option Adding := none
  /-- The entries that `stop_entry` is called with, or `drop` goes through. -/
  stopping : List Nat := []
  dropped : Bool := false

/-- The entries can be locked, but for `statuses`. -/
def Owner.free (o : Owner) : Bool := o.adding.isNone && !o.dropped

/-- Whose `statuses` is called. -/
inductive Reader
  | registry (r : Nat)
  | manager (m : Nat)
  deriving DecidableEq, Repr

/-- A call of `statuses`, with the registry or the entries locked: the cells it has still to look
    at, and what it has read. -/
structure Reading where
  todo : List Nat
  seen : List ControllerStatus

/-- The managers of a process.  A status cell is known by the id of its controller. -/
structure Managers where
  /-- How often `NEXT_ID` was incremented, and one. -/
  nextId : Nat
  managers : KeyMap Nat Owner
  cells : KeyMap Nat StatusCell
  /-- The ids in each registry. -/
  registries : Nat → List Nat
  readings : Reader → Option Reading

namespace Managers

def new : Managers := ⟨1, .empty, .empty, fun _ => [], fun _ => none⟩

/-- `NEXT_ID`, which wraps around. -/
def newId (s : Managers) : Nat := s.nextId % 2 ^ 64

/-- The entries of a manager can be locked. -/
def Free (s : Managers) (m : Nat) (o : Owner) : Prop :=
  o.free = true ∧ s.readings (.manager m) = none

def setOwner (s : Managers) (m : Nat) (o : Owner) : Managers :=
  { s with managers := s.managers.insert m o }

def setCell (s : Managers) (id : Nat) (c : StatusCell) : Managers :=
  { s with cells := s.cells.insert id c }

def setRegistry (s : Managers) (r : Nat) (ids : List Nat) : Managers :=
  { s with registries := Function.update s.registries r ids }

def setReading (s : Managers) (q : Reader) (reading : Option Reading) : Managers :=
  { s with readings := Function.update s.readings q reading }

/-- There is a strong reference to the cell. -/
def strong (s : Managers) (id : Nat) : Bool := (s.cells id).any StatusCell.strong

/-- `StatusCell::snapshot`. -/
def snapshot (s : Managers) (id : Nat) : Option ControllerStatus := (s.cells id).map (·.status)

/-- `Weak::upgrade`, and then a snapshot. -/
def upgrade (s : Managers) (id : Nat) : Option ControllerStatus :=
  if s.strong id then s.snapshot id else none

end Managers

/-- `Manager::normalize`. -/
def Owner.normalize (o : Owner) (spec : Spec Job) : Spec Job :=
  (Manager.new o.maxInterval).normalize spec

namespace ControllerStatus

/-- What `Registry::statuses` sorts by. -/
def key (status : ControllerStatus) : String ×ₗ Nat := toLex (status.name, status.id)

/-- The sorted statuses of a registry. -/
def sortByKey (l : List ControllerStatus) : List ControllerStatus :=
  l.mergeSort fun a b => decide (a.key ≤ b.key)

/-- The sorted statuses of a manager. -/
def sortByName (l : List ControllerStatus) : List ControllerStatus :=
  l.mergeSort fun a b => decide (a.name ≤ b.name)

end ControllerStatus

/-- What `statuses` makes of what it has read. -/
def Reader.sort : Reader → List ControllerStatus → List ControllerStatus
  | .registry _ => ControllerStatus.sortByKey
  | .manager _ => ControllerStatus.sortByName

/-- A list that is sorted by a key, which no two of its elements share. -/
theorem mergeSort_spec {α κ : Type} [LinearOrder κ] (key : α → κ) {l : List α}
    (hkey : l.Pairwise fun a b => key a ≠ key b) :
    (l.mergeSort fun a b => decide (key a ≤ key b)).Pairwise fun a b => key a < key b := by
  have hsorted : (l.mergeSort fun a b => decide (key a ≤ key b)).Pairwise
      fun a b => decide (key a ≤ key b) = true := List.pairwise_mergeSort
    (fun a b c hab hbc => decide_eq_true
      ((of_decide_eq_true hab).trans (of_decide_eq_true hbc)))
    (fun a b => by
      rw [Bool.or_eq_true, decide_eq_true_eq, decide_eq_true_eq]
      exact le_total _ _) l
  have hne := (List.mergeSort_perm l fun a b => decide (key a ≤ key b)).pairwise_iff
    (fun h => Ne.symm h) |>.mpr hkey
  exact hsorted.imp₂ (fun a b hle hlt => lt_of_le_of_ne (of_decide_eq_true hle) hlt) hne

/-! ### The steps -/

/-- A call between two locks, or a runner. -/
inductive RegistryEvent (Job : Type)
  /-- `ManagerBuilder::build`. -/
  | build (m r : Nat) (maxInterval : Option Duration)
  /-- `update` of a known name. -/
  | send (m : Nat) (name : String) (spec : Spec Job)
  /-- `update` of a new name: the id and the cell. -/
  | reserve (m : Nat) (name : String) (spec : Spec Job)
  /-- `Registry::insert`. -/
  | register (m : Nat)
  /-- `tokio::spawn`. -/
  | spawn (m : Nat)
  /-- `tokio::spawn` panics, as it does without a runtime. -/
  | spawnPanics (m : Nat)
  /-- The new entry. -/
  | enter (m : Nat)
  /-- `remove`, up to `stop_entry`. -/
  | remove (m : Nat) (name : String)
  /-- `remove_all`, up to `stop_entry`. -/
  | removeAll (m : Nat)
  /-- The manager is dropped. -/
  | drop (m : Nat)
  /-- `Registry::remove`, in `stop_entry` or `drop`. -/
  | unregister (m id : Nat)
  /-- The runner records a run or the failure of the stop hook. -/
  | record (id : Nat)
  /-- The runner's task ends. -/
  | ended (id : Nat)
  /-- `statuses` locks the registry or the entries. -/
  | lock (q : Reader)
  /-- `statuses` takes the next snapshot. -/
  | read (q : Reader)
  /-- `statuses` returns. -/
  | statuses (q : Reader) (answer : List ControllerStatus)

/-- What the runner may write to a cell. -/
def Recorded (debug : Duration → String) (status status' : ControllerStatus) : Prop :=
  (∃ result duration now, status.recordRun result duration now = .ok status') ∨
    ∃ e now, status.recordStopError debug e now = .ok status'

/-- The steps of callers and runners.  The order in which a map is gone through is any. -/
def RegistryStep (debug : Duration → String) (s : Managers) : RegistryEvent Job → Managers → Prop
  | .build m r maxInterval, t =>
    s.managers m = none ∧ t = s.setOwner m { registry := r, maxInterval := maxInterval }
  | .send m name spec, t => ∃ o id c, s.managers m = some o ∧ s.Free m o ∧
    o.entries.lookup name = some id ∧ s.cells id = some c ∧
    t = s.setCell id { c with status := c.status.configure (o.normalize spec) }
  | .reserve m name spec, t => ∃ o, s.managers m = some o ∧ s.Free m o ∧
    o.entries.lookup name = none ∧
    t = { (s.setOwner m { o with adding := some ⟨name, s.newId, .reserved⟩ }).setCell s.newId
      ⟨.new name s.newId (o.normalize spec), true, false⟩ with nextId := s.nextId + 1 }
  | .register m, t => ∃ o name id, s.managers m = some o ∧
    o.adding = some ⟨name, id, .reserved⟩ ∧ s.readings (.registry o.registry) = none ∧
    t = (s.setOwner m { o with adding := some ⟨name, id, .registered⟩ }).setRegistry o.registry
      ((s.registries o.registry).insert id)
  | .spawn m, t => ∃ o name id c, s.managers m = some o ∧
    o.adding = some ⟨name, id, .registered⟩ ∧ s.cells id = some c ∧
    t = (s.setOwner m { o with adding := some ⟨name, id, .spawned⟩ }).setCell id
      { c with runner := true }
  | .spawnPanics m, t => ∃ o name id c, s.managers m = some o ∧
    o.adding = some ⟨name, id, .registered⟩ ∧ s.cells id = some c ∧
    -- The cell is dropped with the runner, the weak reference stays.
    t = (s.setOwner m { o with adding := none }).setCell id
      { c with entry := false, runner := false }
  | .enter m, t => ∃ o name id, s.managers m = some o ∧ o.adding = some ⟨name, id, .spawned⟩ ∧
    t = s.setOwner m { o with entries := o.entries.insert name id, adding := none }
  | .remove m name, t => ∃ o id, s.managers m = some o ∧ s.Free m o ∧
    o.entries.lookup name = some id ∧
    t = s.setOwner m { o with entries := o.entries.erase name, stopping := id :: o.stopping }
  | .removeAll m, t => ∃ o, s.managers m = some o ∧ s.Free m o ∧
    t = s.setOwner m { o with
      entries := ∅, stopping := o.entries.values ++ o.stopping }
  | .drop m, t => ∃ o, s.managers m = some o ∧ s.Free m o ∧ o.stopping = [] ∧
    t = s.setOwner m { o with
      entries := ∅, stopping := o.entries.values, dropped := true }
  | .unregister m id, t => ∃ o c, s.managers m = some o ∧ id ∈ o.stopping ∧ s.cells id = some c ∧
    s.readings (.registry o.registry) = none ∧
    t = ((s.setOwner m { o with stopping := o.stopping.erase id }).setCell id
      { c with entry := false }).setRegistry o.registry ((s.registries o.registry).erase id)
  | .record id, t => ∃ c status, s.cells id = some c ∧ c.runner = true ∧
    Recorded debug c.status status ∧ t = s.setCell id { c with status := status }
  | .ended id, t => ∃ c, s.cells id = some c ∧ c.runner = true ∧
    t = s.setCell id { c with runner := false }
  | .lock (.registry r), t => ∃ ids : List Nat, s.readings (.registry r) = none ∧
    ids.Perm ((s.registries r).filter s.strong) ∧
    t = (s.setRegistry r ((s.registries r).filter s.strong)).setReading (.registry r)
      (some ⟨ids, []⟩)
  | .lock (.manager m), t => ∃ (o : Owner) (ids : List Nat), s.managers m = some o ∧ s.Free m o ∧
    ids.Perm o.entries.values ∧ t = s.setReading (.manager m) (some ⟨ids, []⟩)
  | .read q, t => ∃ id rest seen, s.readings q = some ⟨id :: rest, seen⟩ ∧
    t = s.setReading q (some ⟨rest, seen ++ (s.upgrade id).toList⟩)
  | .statuses q answer, t => ∃ seen, s.readings q = some ⟨[], seen⟩ ∧ answer = q.sort seen ∧
    t = s.setReading q none

/-! ### Where an id is -/

/-- Where the id of a controller is. -/
inductive Place
  | reserved (m : Nat) (name : String)
  | registered (m : Nat) (name : String)
  | entry (m : Nat) (name : String)
  | stopping (m : Nat)
  deriving DecidableEq, Repr

namespace Place

/-- The manager of a place. -/
def manager : Place → Nat
  | .reserved m _ => m
  | .registered m _ => m
  | .entry m _ => m
  | .stopping m => m

/-- The name at a place. -/
def name : Place → Option String
  | .reserved _ name => some name
  | .registered _ name => some name
  | .entry _ name => some name
  | .stopping _ => none

/-- The id is in the registry. -/
def listed : Place → Bool
  | .reserved _ _ => false
  | _ => true

end Place

/-- The place of an id that is being added. -/
def Stage.place (m : Nat) (name : String) : Stage → Place
  | .reserved => .reserved m name
  | _ => .registered m name

/-- The place of an id after the entries of a manager are taken. -/
def Place.take (m : Nat) : Place → Place
  | .entry m' name => if m' = m then .stopping m else .entry m' name
  | p => p

/-- The entries of the manager are taken. -/
def RegistryEvent.Removes (m : Nat) : RegistryEvent Job → Prop
  | .remove m' _ => m' = m
  | .removeAll m' => m' = m
  | .drop m' => m' = m
  | _ => False

/-- How a step moves an id. -/
inductive Place.Follows (e : RegistryEvent Job) (id : Nat) : Option Place → Option Place → Prop
  | stay (p : Option Place) : Follows e id p p
  | reserved (m : Nat) (name : String) (spec : Spec Job) (he : e = .reserve m name spec) :
      Follows e id none (some (.reserved m name))
  | registered (m : Nat) (name : String) (he : e = .register m) :
      Follows e id (some (.reserved m name)) (some (.registered m name))
  | panicked (m : Nat) (name : String) (he : e = .spawnPanics m) :
      Follows e id (some (.registered m name)) none
  | entered (m : Nat) (name : String) (he : e = .enter m) :
      Follows e id (some (.registered m name)) (some (.entry m name))
  | removed (m : Nat) (name : String) (he : e.Removes m) :
      Follows e id (some (.entry m name)) (some (.stopping m))
  | unregistered (m : Nat) (he : e = .unregister m id) : Follows e id (some (.stopping m)) none

/-- What is at a place after the entries of a manager are taken, by what was there. -/
theorem Place.take_eq_iff (m : Nat) (p q : Place) : q.take m = p ↔
    q = p ∧ (∀ name, q ≠ .entry m name) ∨ p = .stopping m ∧ ∃ name, q = .entry m name := by
  cases q with
  | entry m' name =>
    show (if m' = m then Place.stopping m else .entry m' name) = p ↔ _
    by_cases hm : m' = m
    · subst hm
      rw [if_pos rfl]
      refine ⟨fun hp => .inr ⟨hp.symm, name, rfl⟩, fun hp => ?_⟩
      rcases hp with ⟨-, hp⟩ | ⟨hp, -⟩
      · exact absurd rfl (hp name)
      · exact hp.symm
    · rw [if_neg hm]
      refine ⟨fun hp => .inl ⟨hp, fun name' hname => hm (Place.entry.inj hname).1⟩, fun hp => ?_⟩
      rcases hp with ⟨hp, -⟩ | ⟨-, name', hname⟩
      · exact hp
      · exact absurd (Place.entry.inj hname).1 hm
  | reserved m' name => simp [take]
  | registered m' name => simp [take]
  | stopping m' => simp [take]

/-- The id is at the place of this manager. -/
def Owner.Holds (o : Owner) : Place → Nat → Prop
  | .reserved _ name, id => o.adding = some ⟨name, id, .reserved⟩
  | .registered _ name, id =>
    o.adding = some ⟨name, id, .registered⟩ ∨ o.adding = some ⟨name, id, .spawned⟩
  | .entry _ name, id => o.entries.lookup name = some id
  | .stopping _, id => id ∈ o.stopping

/-- An entry is stopped once, and a name that is added has none. -/
structure Owner.Orderly (o : Owner) : Prop where
  stopping : o.stopping.Nodup
  vacant : ∀ a, o.adding = some a → o.entries.lookup a.name = none

namespace Managers

/-- The id is at the place. -/
def Holds (s : Managers) (p : Place) (id : Nat) : Prop :=
  ∃ o, s.managers p.manager = some o ∧ o.Holds p id

/-- The manager enters its controllers into this registry. -/
def Uses (s : Managers) (m r : Nat) : Prop := ∃ o, s.managers m = some o ∧ o.registry = r

/-- Every id is at one place at most, the cell of an id at a place is there, and what a registry
    refers to strongly are the ids at the places of its managers. -/
structure Places (s : Managers) (place : KeyMap Nat Place) : Prop where
  holds : ∀ p id, s.Holds p id ↔ place id = some p
  orderly : ∀ m o, s.managers m = some o → o.Orderly
  fresh : ∀ id, s.nextId ≤ id → s.cells id = none
  cell : ∀ id, place id ≠ none → s.cells id ≠ none
  entry : ∀ id c, s.cells id = some c → (c.entry = true ↔ place id ≠ none)
  id : ∀ id c, s.cells id = some c → c.status.id = id
  name : ∀ id p c name, place id = some p → p.name = some name → s.cells id = some c →
    c.status.name = name
  nodup : ∀ r, (s.registries r).Nodup
  known : ∀ r id, id ∈ s.registries r → s.cells id ≠ none
  listed : ∀ r id, id ∈ s.registries r ∧ s.strong id = true ↔
    ∃ p, place id = some p ∧ p.listed = true ∧ s.Uses p.manager r

/-- An id is where it was, or at another place of the manager. -/
def Moved (m : Nat) (place place' : KeyMap Nat Place) (id : Nat) : Prop :=
  place' id = place id ∨ ∃ p p', place id = some p ∧ place' id = some p' ∧ p.manager = m ∧
    p'.manager = m ∧ p'.listed = p.listed ∧ ∀ name, p'.name = some name → p.name = some name

variable {s : Managers} {place place' : KeyMap Nat Place} {m id : Nat} {o o' : Owner}
  {c c' : StatusCell}

theorem Moved.ne_none_iff (h : Moved m place place' id) : place' id ≠ none ↔ place id ≠ none := by
  rcases h with h | ⟨p, p', hp, hp', -⟩
  · rw [h]
  · rw [hp, hp']
    exact ⟨fun _ => Option.some_ne_none _, fun _ => Option.some_ne_none _⟩

theorem Moved.eq_some_iff (h : Moved m place place' id) {p : Place} (hp : p.manager ≠ m) :
    place' id = some p ↔ place id = some p := by
  rcases h with h | ⟨q, q', hq, hq', hm, hm', -⟩
  · rw [h]
  · rw [hq, hq']
    refine ⟨fun hqp => absurd ?_ hp, fun hqp => absurd ?_ hp⟩
    · rw [← Option.some.inj hqp, hm']
    · rw [← Option.some.inj hqp, hm]

theorem places_new : Places new .empty where
  holds p id := by
    constructor
    · rintro ⟨o, ho, -⟩
      cases ho
    · intro h
      cases h
  orderly m o ho := by cases ho
  fresh id _ := rfl
  cell id h := absurd rfl h
  entry id c hc := by cases hc
  id id c hc := by cases hc
  name id p c name hp := by cases hp
  nodup r := List.nodup_nil
  known r id h := by cases h
  listed r id := by
    constructor
    · rintro ⟨h, -⟩
      cases h
    · rintro ⟨p, hp, -⟩
      cases hp

theorem setOwner_managers (o : Owner) (m' : Nat) :
    (s.setOwner m o).managers m' = if m' = m then some o else s.managers m' :=
  KeyMap.insert_apply _ _ _ _

theorem setCell_cells (c : StatusCell) (i : Nat) :
    (s.setCell id c).cells i = if i = id then some c else s.cells i :=
  KeyMap.insert_apply _ _ _ _

theorem setOwner_holds (o' : Owner) (p : Place) (id : Nat) :
    (s.setOwner m o').Holds p id ↔ if p.manager = m then o'.Holds p id else s.Holds p id := by
  unfold Holds
  rw [setOwner_managers]
  split
  · exact ⟨fun ⟨_, ho, h⟩ => Option.some.inj ho ▸ h, fun h => ⟨o', rfl, h⟩⟩
  · exact Iff.rfl

theorem setOwner_uses (ho : s.managers m = some o) (hregistry : o'.registry = o.registry)
    {m' r : Nat} : (s.setOwner m o').Uses m' r ↔ s.Uses m' r := by
  unfold Uses
  rw [setOwner_managers]
  split
  · next hm =>
    rw [hm, ho]
    constructor
    · rintro ⟨o₁, ho₁, rfl⟩
      exact ⟨o, rfl, Option.some.inj ho₁ ▸ hregistry.symm⟩
    · rintro ⟨o₁, ho₁, rfl⟩
      exact ⟨o', rfl, Option.some.inj ho₁ ▸ hregistry⟩
  · exact Iff.rfl

theorem strong_of_entry (hc : s.cells id = some c) (hentry : c.entry = true) :
    s.strong id = true := by
  rw [strong, hc]
  show (c.entry || c.runner) = true
  rw [hentry, Bool.true_or]

theorem strong_setCell (c : StatusCell) (i : Nat) :
    (s.setCell id c).strong i = if i = id then c.strong else s.strong i := by
  unfold strong
  rw [setCell_cells]
  split
  · rfl
  · rfl

namespace Places

variable (h : s.Places place)

include h

theorem strong {p : Place} (hp : place id = some p) : s.strong id = true := by
  have hplace : place id ≠ none := Option.ne_none_iff_exists'.mpr ⟨p, hp⟩
  obtain ⟨c, hc⟩ := Option.ne_none_iff_exists'.mp (h.cell id hplace)
  exact strong_of_entry hc ((h.entry id c hc).mpr hplace)

/-- A change of one cell that keeps what the manager's side has of it. -/
theorem setCell (hc : s.cells id = some c) (hentry : c'.entry = c.entry)
    (hid : c'.status.id = c.status.id) (hname : c'.status.name = c.status.name)
    (hstrong : c'.strong = true → c.strong = true) : (s.setCell id c').Places place where
  holds := h.holds
  orderly := h.orderly
  fresh i hi := by
    have hne : i ≠ id := fun hi' => by cases hc.symm.trans (hi' ▸ h.fresh i hi)
    exact (KeyMap.insert_of_ne _ _ hne).trans (h.fresh i hi)
  cell i hi := by
    rw [setCell_cells]
    split
    · exact Option.some_ne_none _
    · exact h.cell i hi
  entry i d hd := by
    rw [setCell_cells] at hd
    split at hd
    · next hi =>
      obtain rfl := Option.some.inj hd
      rw [hentry, hi]
      exact h.entry id c hc
    · exact h.entry i d hd
  id i d hd := by
    rw [setCell_cells] at hd
    split at hd
    · next hi =>
      obtain rfl := Option.some.inj hd
      rw [hid, hi]
      exact h.id id c hc
    · exact h.id i d hd
  name i p d name hp hpname hd := by
    rw [setCell_cells] at hd
    split at hd
    · next hi =>
      obtain rfl := Option.some.inj hd
      rw [hname]
      exact h.name id p c name (hi ▸ hp) hpname hc
    · exact h.name i p d name hp hpname hd
  nodup := h.nodup
  known r i hi := by
    rw [setCell_cells]
    split
    · exact Option.some_ne_none _
    · exact h.known r i hi
  listed r i := by
    refine Iff.trans (and_congr_right fun hi => ?_) (h.listed r i)
    rw [strong_setCell]
    split
    · next hid' =>
      subst hid'
      have hs : s.strong i = c.strong := by
        unfold Managers.strong
        rw [hc]
        rfl
      rw [hs]
      refine ⟨hstrong, fun hcs => ?_⟩
      -- What a registry refers to strongly is at a place, and so the manager's side has it.
      obtain ⟨p, hp, -⟩ := (h.listed r i).mp ⟨hi, hs.trans hcs⟩
      have hent := (h.entry i c hc).mpr (Option.ne_none_iff_exists'.mpr ⟨p, hp⟩)
      show (c'.entry || c'.runner) = true
      rw [hentry, hent, Bool.true_or]
    · exact Iff.rfl

theorem setOwner_orderly (horderly : o'.Orderly) (m' : Nat) (o₁ : Owner)
    (ho₁ : (s.setOwner m o').managers m' = some o₁) : o₁.Orderly := by
  rw [setOwner_managers] at ho₁
  split at ho₁
  · obtain rfl := Option.some.inj ho₁
    exact horderly
  · exact h.orderly m' o₁ ho₁

/-- What is at the places of the other managers stays there. -/
theorem holds_setOwner (hmoved : ∀ i, Moved m place place' i)
    (hhere : ∀ p i, p.manager = m → (o'.Holds p i ↔ place' i = some p)) (p : Place) (i : Nat) :
    (s.setOwner m o').Holds p i ↔ place' i = some p := by
  rw [setOwner_holds]
  split
  · next hp => exact hhere p i hp
  · next hp => exact (h.holds p i).trans ((hmoved i).eq_some_iff hp).symm

/-- Ids of one manager are moved. -/
theorem relabel (ho : s.managers m = some o) (horderly : o'.Orderly)
    (hregistry : o'.registry = o.registry)
    (hhere : ∀ p i, p.manager = m → (o'.Holds p i ↔ place' i = some p))
    (hmoved : ∀ i, Moved m place place' i) : (s.setOwner m o').Places place' where
  holds := h.holds_setOwner hmoved hhere
  orderly := h.setOwner_orderly horderly
  fresh := h.fresh
  cell i hi := h.cell i ((hmoved i).ne_none_iff.mp hi)
  entry i d hd := (h.entry i d hd).trans (hmoved i).ne_none_iff.symm
  id := h.id
  name i p d name hp hname hd := by
    rcases hmoved i with heq | ⟨q, q', hq, hq', -, -, -, hqname⟩
    · exact h.name i p d name (heq ▸ hp) hname hd
    · obtain rfl := Option.some.inj (hq'.symm.trans hp)
      exact h.name i q d name hq (hqname name hname) hd
  nodup := h.nodup
  known := h.known
  listed r i := by
    refine (h.listed r i).trans ⟨?_, ?_⟩
    · rintro ⟨p, hp, hlisted, huses⟩
      rcases hmoved i with heq | ⟨q, q', hq, hq', hm, hm', hlisted', -⟩
      · exact ⟨p, heq.trans hp, hlisted, (setOwner_uses ho hregistry).mpr huses⟩
      · obtain rfl := Option.some.inj (hq.symm.trans hp)
        exact ⟨q', hq', hlisted'.trans hlisted,
          (setOwner_uses ho hregistry).mpr (hm'.trans hm.symm ▸ huses)⟩
    · rintro ⟨p, hp, hlisted, huses⟩
      rw [setOwner_uses ho hregistry] at huses
      rcases hmoved i with heq | ⟨q, q', hq, hq', hm, hm', hlisted', -⟩
      · exact ⟨p, heq.symm.trans hp, hlisted, huses⟩
      · obtain rfl := Option.some.inj (hq'.symm.trans hp)
        exact ⟨q, hq, hlisted'.symm.trans hlisted, hm.trans hm'.symm ▸ huses⟩

/-- The manager's side gives up an id. -/
theorem leave (ho : s.managers m = some o) {p₀ : Place} (hp₀ : place id = some p₀)
    (hm : p₀.manager = m) (horderly : o'.Orderly) (hregistry : o'.registry = o.registry)
    (hc : s.cells id = some c) (hentry : c'.entry = false) (hstatus : c'.status = c.status)
    (hhere : ∀ p i, p.manager = m → (o'.Holds p i ↔ place.remove id i = some p))
    {registries : Nat → List Nat} (hnodup : ∀ r, (registries r).Nodup)
    (hsame : ∀ r i, i ≠ id → (i ∈ registries r ↔ i ∈ s.registries r))
    (hgone : ∀ r, id ∈ registries r → c'.strong = false) :
    ({ (s.setOwner m o').setCell id c' with registries := registries } : Managers).Places
      (place.remove id) where
  holds p i := by
    refine (setOwner_holds (s := s) o' p i).trans ?_
    split
    · next hp => exact hhere p i hp
    · next hp =>
      rw [h.holds p i, KeyMap.remove_apply]
      split
      · next hi =>
        rw [hi, hp₀]
        refine ⟨fun heq => absurd ?_ hp, fun heq => by cases heq⟩
        rw [← Option.some.inj heq, hm]
      · exact Iff.rfl
  orderly := h.setOwner_orderly horderly
  fresh i hi := by
    have hne : i ≠ id := fun hi' => by cases hc.symm.trans (hi' ▸ h.fresh i hi)
    exact (KeyMap.insert_of_ne _ _ hne).trans (h.fresh i hi)
  cell i hi := by
    have hne : i ≠ id := fun hi' => hi (hi' ▸ KeyMap.remove_self place id)
    rw [KeyMap.remove_of_ne _ hne] at hi
    show s.cells.insert id c' i ≠ none
    rw [KeyMap.insert_of_ne _ _ hne]
    exact h.cell i hi
  entry i d hd := by
    change s.cells.insert id c' i = some d at hd
    rw [KeyMap.insert_apply] at hd
    split at hd
    · next hi =>
      obtain rfl := Option.some.inj hd
      rw [hentry, hi, KeyMap.remove_self]
      exact ⟨fun hfalse => (by cases hfalse), fun hnone => absurd rfl hnone⟩
    · next hi =>
      rw [KeyMap.remove_of_ne _ hi]
      exact h.entry i d hd
  id i d hd := by
    change s.cells.insert id c' i = some d at hd
    rw [KeyMap.insert_apply] at hd
    split at hd
    · next hi =>
      obtain rfl := Option.some.inj hd
      rw [hstatus, hi]
      exact h.id id c hc
    · exact h.id i d hd
  name i p d name hp hpname hd := by
    have hne : i ≠ id := by
      rintro rfl
      cases (KeyMap.remove_self place i).symm.trans hp
    rw [KeyMap.remove_of_ne _ hne] at hp
    exact h.name i p d name hp hpname ((KeyMap.insert_of_ne _ _ hne).symm.trans hd)
  nodup := hnodup
  known r i hi := by
    show s.cells.insert id c' i ≠ none
    rw [KeyMap.insert_apply]
    split
    · exact Option.some_ne_none _
    · next hne => exact h.known r i ((hsame r i hne).mp hi)
  listed r i := by
    have hstrong : ∀ i, i ≠ id → (i ∈ registries r ∧
        ({ (s.setOwner m o').setCell id c' with registries := registries } : Managers).strong i =
          true ↔ i ∈ s.registries r ∧ s.strong i = true) := by
      intro i hi
      refine and_congr (hsame r i hi) ?_
      rw [show ({ (s.setOwner m o').setCell id c' with registries := registries } :
        Managers).strong i = _ from strong_setCell (s := s.setOwner m o') c' i, if_neg hi]
      exact Iff.rfl
    by_cases hi : i = id
    · subst hi
      rw [KeyMap.remove_self]
      refine ⟨fun ⟨hmem, hs⟩ => ?_, fun ⟨p, hp, _⟩ => (by cases hp)⟩
      rw [show ({ (s.setOwner m o').setCell i c' with registries := registries } :
        Managers).strong i = _ from strong_setCell (s := s.setOwner m o') c' i, if_pos rfl,
        hgone r hmem] at hs
      cases hs
    · rw [hstrong i hi, h.listed r i, KeyMap.remove_of_ne _ hi]
      refine exists_congr fun p => and_congr_right fun _ => and_congr_right fun _ => ?_
      exact (setOwner_uses ho hregistry).symm

/-- A new id, which no registry has yet. -/
theorem reserve (ho : s.managers m = some o) {name : String} (horderly : o'.Orderly)
    (hregistry : o'.registry = o.registry)
    (hentry : c.entry = true) (hid : c.status.id = s.nextId) (hname : c.status.name = name)
    (hhere : ∀ p i, p.manager = m →
      (o'.Holds p i ↔ place.insert s.nextId (.reserved m name) i = some p)) :
    ({ (s.setOwner m o').setCell s.nextId c with nextId := s.nextId + 1 } : Managers).Places
      (place.insert s.nextId (.reserved m name)) := by
  have hcell : s.cells s.nextId = none := h.fresh _ le_rfl
  have hplace : place s.nextId = none := by
    by_contra hplace
    exact h.cell _ hplace hcell
  refine ⟨fun p i => ?_, h.setOwner_orderly horderly, fun i hi => ?_,
    fun i hi => ?_, fun i d hd => ?_, fun i d hd => ?_, fun i p d name' hp hpname hd => ?_,
    h.nodup, fun r i hi => ?_, fun r i => ?_⟩
  · refine (setOwner_holds (s := s) o' p i).trans ?_
    split
    · next hp => exact hhere p i hp
    · next hp =>
      rw [h.holds p i, KeyMap.insert_apply]
      split
      · next hi =>
        rw [hi, hplace]
        refine ⟨fun heq => (by cases heq), fun heq => absurd ?_ hp⟩
        rw [← Option.some.inj heq]
        rfl
      · exact Iff.rfl
  · have hlt : s.nextId < i := hi
    exact (KeyMap.insert_of_ne _ _ hlt.ne').trans (h.fresh i hlt.le)
  · show s.cells.insert s.nextId c i ≠ none
    rw [KeyMap.insert_apply]
    split
    · exact Option.some_ne_none _
    · next hne =>
      rw [KeyMap.insert_of_ne _ _ hne] at hi
      exact h.cell i hi
  · change s.cells.insert s.nextId c i = some d at hd
    rw [KeyMap.insert_apply] at hd ⊢
    split at hd
    · next hi =>
      obtain rfl := Option.some.inj hd
      rw [if_pos hi, hentry]
      exact ⟨fun _ => Option.some_ne_none _, fun _ => rfl⟩
    · next hi =>
      rw [if_neg hi]
      exact h.entry i d hd
  · change s.cells.insert s.nextId c i = some d at hd
    rw [KeyMap.insert_apply] at hd
    split at hd
    · next hi =>
      obtain rfl := Option.some.inj hd
      rw [hid, hi]
    · exact h.id i d hd
  · change s.cells.insert s.nextId c i = some d at hd
    rw [KeyMap.insert_apply] at hd hp
    split at hd
    · next hi =>
      obtain rfl := Option.some.inj hd
      rw [if_pos hi] at hp
      obtain rfl := Option.some.inj hp
      exact hname.trans (Option.some.inj hpname)
    · next hi =>
      rw [if_neg hi] at hp
      exact h.name i p d name' hp hpname hd
  · show s.cells.insert s.nextId c i ≠ none
    rw [KeyMap.insert_apply]
    split
    · exact Option.some_ne_none _
    · exact h.known r i hi
  · have hstrong : ((s.setOwner m o').setCell s.nextId c).strong i =
        if i = s.nextId then c.strong else (s.setOwner m o').strong i := strong_setCell c i
    by_cases hi : i = s.nextId
    · subst hi
      rw [KeyMap.insert_self]
      refine ⟨fun hmem => absurd hcell (h.known r _ hmem.1), fun ⟨p, hp, hlisted, _⟩ => ?_⟩
      rw [← Option.some.inj hp] at hlisted
      cases hlisted
    · rw [KeyMap.insert_of_ne _ _ hi]
      rw [if_neg hi] at hstrong
      refine Iff.trans (and_congr_right fun _ => ?_) ((h.listed r i).trans ?_)
      · exact Bool.coe_iff_coe.mpr hstrong
      · exact exists_congr fun p => and_congr_right fun _ => and_congr_right fun _ =>
          (setOwner_uses ho hregistry).symm

/-- A reserved id is entered into the registry. -/
theorem register (ho : s.managers m = some o) {name : String}
    (hp₀ : place id = some (.reserved m name)) (horderly : o'.Orderly)
    (hregistry : o'.registry = o.registry)
    (hhere : ∀ p i, p.manager = m →
      (o'.Holds p i ↔ place.insert id (.registered m name) i = some p)) :
    ((s.setOwner m o').setRegistry o.registry ((s.registries o.registry).insert id)).Places
      (place.insert id (.registered m name)) := by
  have hne : ∀ i, place.insert id (.registered m name) i ≠ none ↔ place i ≠ none := by
    intro i
    rw [KeyMap.insert_apply]
    split
    · next hi =>
      rw [hi, hp₀]
      exact ⟨fun _ => Option.some_ne_none _, fun _ => Option.some_ne_none _⟩
    · exact Iff.rfl
  have hmem : ∀ r i, i ∈ (s.setRegistry o.registry
      ((s.registries o.registry).insert id)).registries r ↔
        i ∈ s.registries r ∨ i = id ∧ r = o.registry := by
    intro r i
    show i ∈ Function.update s.registries o.registry _ r ↔ _
    rw [Function.update_apply]
    split
    · next hr => rw [List.mem_insert_iff, hr, or_comm, and_iff_left rfl]
    · next hr => exact ⟨.inl, fun hi => hi.resolve_right fun hi => hr hi.2⟩
  refine ⟨fun p i => ?_, h.setOwner_orderly horderly, h.fresh,
    fun i hi => h.cell i ((hne i).mp hi), fun i d hd => (h.entry i d hd).trans (hne i).symm, h.id,
    fun i p d name' hp hpname hd => ?_, fun r => ?_, fun r i hi => ?_, fun r i => ?_⟩
  · refine (setOwner_holds (s := s) o' p i).trans ?_
    split
    · next hp => exact hhere p i hp
    · next hp =>
      rw [h.holds p i, KeyMap.insert_apply]
      split
      · next hi =>
        rw [hi, hp₀]
        refine ⟨fun heq => absurd ?_ hp, fun heq => absurd ?_ hp⟩
        · rw [← Option.some.inj heq]
          rfl
        · rw [← Option.some.inj heq]
          rfl
      · exact Iff.rfl
  · rw [KeyMap.insert_apply] at hp
    split at hp
    · next hi =>
      obtain rfl := Option.some.inj hp
      exact h.name i (.reserved m name) d name' (hi ▸ hp₀) hpname hd
    · exact h.name i p d name' hp hpname hd
  · show (Function.update s.registries o.registry _ r).Nodup
    rw [Function.update_apply]
    split
    · exact (h.nodup o.registry).insert
    · exact h.nodup r
  · rcases (hmem r i).mp hi with hi | ⟨rfl, -⟩
    · exact h.known r i hi
    · exact h.cell i (Option.ne_none_iff_exists'.mpr ⟨_, hp₀⟩)
  · refine (and_congr_left fun _ => hmem r i).trans ?_
    by_cases hi : i = id
    · subst hi
      have hstrong := h.strong hp₀
      have hnot : ¬ i ∈ s.registries r := by
        intro hi
        obtain ⟨p, hp, hlisted, -⟩ := (h.listed r i).mp ⟨hi, hstrong⟩
        rw [← Option.some.inj (hp₀.symm.trans hp)] at hlisted
        cases hlisted
      rw [KeyMap.insert_self]
      constructor
      · rintro ⟨hr, -⟩
        refine ⟨_, rfl, rfl, (setOwner_uses ho hregistry).mpr ⟨o, ho, ?_⟩⟩
        exact (hr.resolve_left hnot).2.symm
      · rintro ⟨p, hp, -, huses⟩
        obtain rfl := Option.some.inj hp
        obtain ⟨o₁, ho₁, rfl⟩ := (setOwner_uses ho hregistry).mp huses
        obtain rfl := Option.some.inj (ho.symm.trans ho₁)
        exact ⟨.inr ⟨rfl, rfl⟩, hstrong⟩
    · rw [KeyMap.insert_of_ne _ _ hi]
      refine Iff.trans (and_congr_left fun _ => ?_) ((h.listed r i).trans ?_)
      · exact ⟨fun hr => hr.resolve_right fun hr => hi hr.1, .inl⟩
      · exact exists_congr fun p => and_congr_right fun _ => and_congr_right fun _ =>
          (setOwner_uses ho hregistry).symm

/-- A registry forgets what it refers to no longer. -/
theorem prune (r : Nat) : (s.setRegistry r ((s.registries r).filter s.strong)).Places place := by
  have hmem : ∀ r' i, i ∈ (s.setRegistry r ((s.registries r).filter s.strong)).registries r' →
      i ∈ s.registries r' := by
    intro r' i hi
    change i ∈ Function.update s.registries r _ r' at hi
    rw [Function.update_apply] at hi
    split at hi
    · next hr => exact hr ▸ (List.mem_filter.mp hi).1
    · exact hi
  refine ⟨h.holds, h.orderly, h.fresh, h.cell, h.entry, h.id, h.name, fun r' => ?_,
    fun r' i hi => h.known r' i (hmem r' i hi), fun r' i => Iff.trans ?_ (h.listed r' i)⟩
  · show (Function.update s.registries r _ r').Nodup
    rw [Function.update_apply]
    split
    · exact (h.nodup r).filter _
    · exact h.nodup r'
  · refine ⟨fun hi => ⟨hmem r' i hi.1, hi.2⟩, fun hi => ⟨?_, hi.2⟩⟩
    show i ∈ Function.update s.registries r _ r'
    rw [Function.update_apply]
    split
    · next hr => exact List.mem_filter.mpr ⟨hr ▸ hi.1, hi.2⟩
    · exact hi.1

theorem setReading (q : Reader) (reading : Option Reading) :
    (s.setReading q reading).Places place :=
  ⟨h.holds, h.orderly, h.fresh, h.cell, h.entry, h.id, h.name, h.nodup, h.known, h.listed⟩

theorem here (ho : s.managers m = some o) (p : Place) (i : Nat) (hp : p.manager = m) :
    o.Holds p i ↔ place i = some p := by
  rw [← h.holds p i]
  unfold Holds
  rw [hp, ho]
  exact ⟨fun hi => ⟨o, rfl, hi⟩, fun ⟨o₁, ho₁, hi⟩ => Option.some.inj ho₁ ▸ hi⟩

end Places

/-! ### What a manager does -/

section

variable {name : String} {stage : Stage}
  (hhere : ∀ p i, p.manager = m → (o.Holds p i ↔ place i = some p))

include hhere

theorem holds_adding (hadding : ∀ a, o.adding = some a → a.name = name ∧ a.id = id)
    (hid : ∀ p, place id = some p → p = .reserved m name ∨ p = .registered m name) (stage : Stage)
    (p : Place) (i : Nat) (hp : p.manager = m) :
    ({ o with adding := some ⟨name, id, stage⟩ } : Owner).Holds p i ↔
      place.insert id (stage.place m name) i = some p := by
  have hold := hhere p i hp
  rw [KeyMap.insert_apply]
  cases p with
  | reserved m' name' =>
    simp only [Owner.Holds] at hold ⊢
    cases stage <;> grind [Stage.place, Place.manager]
  | registered m' name' =>
    simp only [Owner.Holds] at hold ⊢
    cases stage <;> grind [Stage.place, Place.manager]
  | entry m' name' =>
    simp only [Owner.Holds] at hold ⊢
    cases stage <;> grind [Stage.place, Place.manager]
  | stopping m' =>
    simp only [Owner.Holds] at hold ⊢
    cases stage <;> grind [Stage.place, Place.manager]

theorem holds_added (hadding : o.adding = some ⟨name, id, stage⟩) (p : Place) (i : Nat)
    (hp : p.manager = m) :
    ({ o with adding := none } : Owner).Holds p i ↔ place.remove id i = some p := by
  have hold := hhere p i hp
  have hid := hhere (stage.place m name) id (by cases stage <;> rfl)
  rw [KeyMap.remove_apply]
  cases p with
  | reserved m' name' =>
    simp only [Owner.Holds] at hold ⊢
    grind [Place.manager]
  | registered m' name' =>
    simp only [Owner.Holds] at hold ⊢
    grind [Place.manager]
  | entry m' name' =>
    simp only [Owner.Holds] at hold ⊢
    cases stage <;> grind [Stage.place, Owner.Holds, Place.manager]
  | stopping m' =>
    simp only [Owner.Holds] at hold ⊢
    cases stage <;> grind [Stage.place, Owner.Holds, Place.manager]

theorem holds_enter (hadding : o.adding = some ⟨name, id, stage⟩)
    (hvacant : o.entries.lookup name = none) (p : Place) (i : Nat) (hp : p.manager = m) :
    ({ o with entries := o.entries.insert name id, adding := none } : Owner).Holds p i ↔
      place.insert id (.entry m name) i = some p := by
  have hold := hhere p i hp
  have hid := hhere (stage.place m name) id (by cases stage <;> rfl)
  rw [KeyMap.insert_apply]
  cases p with
  | reserved m' name' =>
    simp only [Owner.Holds] at hold ⊢
    grind [Place.manager]
  | registered m' name' =>
    simp only [Owner.Holds] at hold ⊢
    grind [Place.manager]
  | entry m' name' =>
    simp only [Owner.Holds, HashMap.lookup_insert_apply] at hold ⊢
    cases stage <;> grind [Stage.place, Owner.Holds, Place.manager]
  | stopping m' =>
    simp only [Owner.Holds] at hold ⊢
    cases stage <;> grind [Stage.place, Owner.Holds, Place.manager]

theorem holds_remove (hname : o.entries.lookup name = some id) (p : Place) (i : Nat)
    (hp : p.manager = m) :
    ({ o with entries := o.entries.erase name, stopping := id :: o.stopping } : Owner).Holds p i ↔
      place.insert id (.stopping m) i = some p := by
  have hold := hhere p i hp
  have hid := hhere (.entry m name) id rfl
  rw [KeyMap.insert_apply]
  cases p with
  | reserved m' name' =>
    simp only [Owner.Holds] at hold ⊢
    grind [Owner.Holds, Place.manager]
  | registered m' name' =>
    simp only [Owner.Holds] at hold ⊢
    grind [Owner.Holds, Place.manager]
  | entry m' name' =>
    simp only [Owner.Holds, HashMap.lookup_erase_apply] at hold ⊢
    grind [Owner.Holds, Place.manager]
  | stopping m' =>
    simp only [Owner.Holds, List.mem_cons] at hold ⊢
    grind [Owner.Holds, Place.manager]

theorem holds_take {o' : Owner} (hentries : o'.entries = ∅) (hadding : o'.adding = o.adding)
    (hstopping : ∀ i, i ∈ o'.stopping ↔ i ∈ o.stopping ∨ ∃ name, o.entries.lookup name = some i)
    (p : Place) (i : Nat) (hp : p.manager = m) :
    o'.Holds p i ↔ (place i).map (Place.take m) = some p := by
  have hold := hhere p i hp
  have hentry := fun name => hhere (.entry m name) i rfl
  rw [Option.map_eq_some_iff]
  simp only [Place.take_eq_iff]
  cases p with
  | reserved m' name' =>
    simp only [Owner.Holds] at hold ⊢
    rw [hadding, hold]
    grind [Place.manager]
  | registered m' name' =>
    simp only [Owner.Holds] at hold ⊢
    rw [hadding, hold]
    grind [Place.manager]
  | entry m' name' =>
    simp only [Owner.Holds] at hold ⊢
    rw [hentries, AList.lookup_empty]
    grind [Place.manager]
  | stopping m' =>
    simp only [Owner.Holds] at hold hentry ⊢
    rw [hstopping, hold]
    grind [Place.manager]

theorem holds_unregister (hid : id ∈ o.stopping) (hnodup : o.stopping.Nodup) (p : Place) (i : Nat)
    (hp : p.manager = m) :
    ({ o with stopping := o.stopping.erase id } : Owner).Holds p i ↔
      place.remove id i = some p := by
  have hold := hhere p i hp
  have hstopping := hhere (.stopping m) id rfl
  rw [KeyMap.remove_apply]
  cases p with
  | reserved m' name' =>
    simp only [Owner.Holds] at hold ⊢
    grind [Owner.Holds, Place.manager]
  | registered m' name' =>
    simp only [Owner.Holds] at hold ⊢
    grind [Owner.Holds, Place.manager]
  | entry m' name' =>
    simp only [Owner.Holds] at hold ⊢
    grind [Owner.Holds, Place.manager]
  | stopping m' =>
    simp only [Owner.Holds, hnodup.mem_erase_iff] at hold ⊢
    grind [Owner.Holds, Place.manager]

end

theorem moved_insert {p q : Place} (hp : place id = some p) (hm : p.manager = m)
    (hm' : q.manager = m) (hlisted : q.listed = p.listed)
    (hname : ∀ name, q.name = some name → p.name = some name) (i : Nat) :
    Moved m place (place.insert id q) i := by
  unfold Moved
  rw [KeyMap.insert_apply]
  split
  · next hi => exact .inr ⟨p, q, hi ▸ hp, rfl, hm, hm', hlisted, hname⟩
  · exact .inl rfl

theorem follows_insert {e : RegistryEvent Job} {q : Place}
    (h : Place.Follows e id (place id) (some q)) (i : Nat) :
    Place.Follows e i (place i) (place.insert id q i) := by
  rw [KeyMap.insert_apply]
  split
  · next hi => exact hi ▸ h
  · exact .stay _

theorem follows_remove {e : RegistryEvent Job} (h : Place.Follows e id (place id) none) (i : Nat) :
    Place.Follows e i (place i) (place.remove id i) := by
  rw [KeyMap.remove_apply]
  split
  · next hi => exact hi ▸ h
  · exact .stay _

theorem follows_take {e : RegistryEvent Job} (he : e.Removes m) (i : Nat) :
    Place.Follows e i (place i) ((place i).map (Place.take m)) := by
  cases hp : place i with
  | none => exact .stay none
  | some p =>
    rcases (Place.take_eq_iff m _ p).mp rfl with ⟨heq, -⟩ | ⟨htake, name, rfl⟩
    · rw [Option.map_some, ← heq]
      exact .stay _
    · rw [Option.map_some, htake]
      exact .removed m name he

theorem moved_take (m i : Nat) : Moved m place (fun i => (place i).map (Place.take m)) i := by
  show (place i).map (Place.take m) = place i ∨ _
  cases hp : place i with
  | none => exact .inl rfl
  | some p =>
    rcases (Place.take_eq_iff m _ p).mp rfl with ⟨heq, -⟩ | ⟨htake, name, rfl⟩
    · exact .inl (congrArg some heq.symm)
    · refine .inr ⟨.entry m name, .stopping m, rfl, ?_, rfl, rfl, rfl, fun name' h => by cases h⟩
      show (place i).map (Place.take m) = _
      rw [hp]
      exact congrArg some htake

/-- Every id is at one place at most, and the registries agree with the places. -/
def Indexed (s : Managers) : Prop := ∃ place, s.Places place

theorem Owner.free_iff : o.free = true ↔ o.adding = none ∧ o.dropped = false := by
  rw [Owner.free, Bool.and_eq_true, Option.isNone_iff_eq_none, Bool.not_eq_true']

theorem Places.build (h : s.Places place) (hm : s.managers m = none) (r : Nat)
    (maxInterval : Option Duration) :
    (s.setOwner m { registry := r, maxInterval := maxInterval }).Places place := by
  have hne : ∀ i p, place i = some p → p.manager ≠ m := by
    rintro i p hp rfl
    obtain ⟨o, ho, -⟩ := (h.holds p i).mpr hp
    cases hm.symm.trans ho
  have horderly : ({ registry := r, maxInterval := maxInterval } : Owner).Orderly :=
    ⟨List.nodup_nil, fun a ha => by cases ha⟩
  refine ⟨fun p i => ?_, h.setOwner_orderly horderly, h.fresh, h.cell, h.entry, h.id, h.name,
    h.nodup, h.known, fun r' i => (h.listed r' i).trans (exists_congr fun p =>
      and_congr_right fun hp => and_congr_right fun _ => ?_)⟩
  · rw [setOwner_holds]
    split
    · next hp =>
      refine ⟨fun hholds => ?_, fun hi => absurd hp (hne i p hi)⟩
      cases p with
      | reserved m' name => cases hholds
      | registered m' name =>
        rcases hholds with hholds | hholds
        · cases hholds
        · cases hholds
      | entry m' name => cases hholds
      | stopping m' => cases hholds
    · exact h.holds p i
  · unfold Uses
    rw [setOwner_managers, if_neg (hne i p hp)]

/-- The entries of a manager are taken. -/
theorem Places.take (h : s.Places place) (ho : s.managers m = some o)
    (hregistry : o'.registry = o.registry) (hadding : o.adding = none) (hadding' : o'.adding = none)
    (hentries : o'.entries = ∅) (hstopping : o'.stopping = o.entries.values ++ o.stopping) :
    (s.setOwner m o').Places fun i => (place i).map (Place.take m) := by
  have hhere := h.here ho
  refine h.relabel ho ⟨?_, fun a ha => ?_⟩ hregistry
    (holds_take hhere hentries (hadding'.trans hadding.symm) fun i => ?_) (moved_take m)
  · rw [hstopping]
    refine List.Nodup.append (HashMap.nodup_values _ fun name name' i hname hname' => ?_)
      (h.orderly m o ho).stopping fun i hi hi' => ?_
    · have hplace := (hhere (.entry m name) i rfl).mp hname
      cases hplace.symm.trans ((hhere (.entry m name') i rfl).mp hname')
      rfl
    · obtain ⟨name, hname⟩ := (HashMap.mem_values _ i).mp hi
      have hplace := (hhere (.entry m name) i rfl).mp hname
      cases hplace.symm.trans ((hhere (.stopping m) i rfl).mp hi')
  · cases hadding'.symm.trans ha
  · rw [hstopping, List.mem_append, HashMap.mem_values, or_comm]

end Managers

open Managers

variable {debug : Duration → String} {s t : Managers} {e : RegistryEvent Job}

/-- What a computation that returns goes on with. -/
theorem of_bind {α β : Type} {x : Checked α} {f : α → Checked β} {b : β}
    (h : x >>= f = .ok b) : ∃ a, f a = .ok b := by
  cases x with
  | error p => cases h
  | ok a => exact ⟨a, h⟩

/-- The runner does not change whose status it is. -/
theorem ControllerStatus.recorded_spec {status status' : ControllerStatus}
    (h : Recorded debug status status') : status'.id = status.id ∧ status'.name = status.name := by
  rcases h with ⟨result, duration, now, h⟩ | ⟨e, now, h⟩
  · cases result with
    | ok flow =>
      obtain ⟨_, h⟩ := of_bind h
      obtain rfl := Except.ok.inj h
      exact ⟨rfl, rfl⟩
    | error e =>
      obtain ⟨_, h⟩ := of_bind h
      obtain ⟨_, h⟩ := of_bind h
      obtain rfl := Except.ok.inj h
      exact ⟨rfl, rfl⟩
  · obtain ⟨_, h⟩ := of_bind h
    obtain rfl := Except.ok.inj h
    exact ⟨rfl, rfl⟩

/-- **Steps.**  Every id stays at its place or goes on to the next one. -/
theorem RegistryStep.places {place : KeyMap Nat Place} (h : RegistryStep debug s e t)
    (hplace : s.Places place) (hspawns : t.nextId ≤ 2 ^ 64) :
    ∃ place', t.Places place' ∧ ∀ id, Place.Follows e id (place id) (place' id) := by
  cases e with
  | build m r maxInterval =>
    obtain ⟨hm, rfl⟩ := h
    exact ⟨place, hplace.build hm r maxInterval, fun _ => .stay _⟩
  | send m name spec =>
    obtain ⟨o, id, c, ho, hfree, hname, hc, rfl⟩ := h
    exact ⟨place, hplace.setCell hc rfl rfl rfl fun h => h, fun _ => .stay _⟩
  | reserve m name spec =>
    obtain ⟨o, ho, hfree, hname, rfl⟩ := h
    -- The id has not been given before.
    have hnew : s.newId = s.nextId := Nat.mod_eq_of_lt hspawns
    rw [hnew]
    have hadding := (Owner.free_iff.mp hfree.1).1
    have hvacant : place s.nextId = none := by
      by_contra hsome
      exact hplace.cell _ hsome (hplace.fresh _ le_rfl)
    refine ⟨_, hplace.reserve ho ⟨(hplace.orderly m o ho).stopping, fun a ha => ?_⟩ rfl rfl rfl rfl
      (holds_adding (hplace.here ho) (fun a ha => ?_) (fun p hp => ?_) .reserved),
      follows_insert (hvacant ▸ .reserved m name spec rfl)⟩
    · obtain rfl := Option.some.inj ha
      exact hname
    · cases hadding.symm.trans ha
    · cases hvacant.symm.trans hp
  | register m =>
    obtain ⟨o, name, id, ho, hadding, -, rfl⟩ := h
    have hid := (hplace.here ho (.reserved m name) id rfl).mp hadding
    refine ⟨_, hplace.register ho hid ⟨(hplace.orderly m o ho).stopping, fun a ha => ?_⟩ rfl
      (holds_adding (hplace.here ho) (fun a ha => ?_) (fun p hp => ?_) .registered),
      follows_insert (hid ▸ .registered m name rfl)⟩
    · obtain rfl := Option.some.inj ha
      exact (hplace.orderly m o ho).vacant ⟨name, id, .reserved⟩ hadding
    · obtain rfl := Option.some.inj (hadding.symm.trans ha)
      exact ⟨rfl, rfl⟩
    · exact .inl (Option.some.inj (hid.symm.trans hp)).symm
  | spawn m =>
    obtain ⟨o, name, id, c, ho, hadding, hc, rfl⟩ := h
    have hid := (hplace.here ho (.registered m name) id rfl).mp (.inl hadding)
    have hname : ∀ a, o.adding = some a → a.name = name ∧ a.id = id := by
      intro a ha
      obtain rfl := Option.some.inj (hadding.symm.trans ha)
      exact ⟨rfl, rfl⟩
    have hholds := holds_adding (hplace.here ho) hname
      (fun p hp => .inr (Option.some.inj (hid.symm.trans hp)).symm) .spawned
    have horderly : ({ o with adding := some ⟨name, id, .spawned⟩ } : Owner).Orderly := by
      refine ⟨(hplace.orderly m o ho).stopping, fun a ha => ?_⟩
      obtain rfl := Option.some.inj ha
      exact (hplace.orderly m o ho).vacant ⟨name, id, .registered⟩ hadding
    have hplace' := hplace.relabel ho horderly rfl hholds
      (moved_insert hid rfl rfl rfl fun _ h => h)
    have hcell : ({ c with runner := true } : StatusCell).entry = c.entry := rfl
    refine ⟨_, hplace'.setCell hc hcell rfl rfl fun _ => ?_, follows_insert (hid ▸ .stay _)⟩
    -- The entry that is being added is a reference to the cell.
    have hentry := (hplace.entry id c hc).mpr (Option.ne_none_iff_exists'.mpr ⟨_, hid⟩)
    show (c.entry || c.runner) = true
    rw [hentry, Bool.true_or]
  | spawnPanics m =>
    obtain ⟨o, name, id, c, ho, hadding, hc, rfl⟩ := h
    have hid := (hplace.here ho (.registered m name) id rfl).mp (.inl hadding)
    have horderly : ({ o with adding := none } : Owner).Orderly :=
      ⟨(hplace.orderly m o ho).stopping, fun a ha => by cases ha⟩
    have hcell : ({ c with entry := false, runner := false } : StatusCell).entry = false := rfl
    exact ⟨_, hplace.leave ho hid rfl horderly rfl hc hcell rfl
      (holds_added (hplace.here ho) hadding) hplace.nodup (fun _ _ _ => Iff.rfl) fun _ _ => rfl,
      follows_remove (hid ▸ .panicked m name rfl)⟩
  | enter m =>
    obtain ⟨o, name, id, ho, hadding, rfl⟩ := h
    have hid := (hplace.here ho (.registered m name) id rfl).mp (.inr hadding)
    have hvacant := (hplace.orderly m o ho).vacant _ hadding
    refine ⟨_, hplace.relabel ho ⟨(hplace.orderly m o ho).stopping, fun a ha => ?_⟩ rfl
      (holds_enter (hplace.here ho) hadding hvacant)
      (moved_insert hid rfl rfl rfl fun _ h => h), follows_insert (hid ▸ .entered m name rfl)⟩
    cases ha
  | remove m name =>
    obtain ⟨o, id, ho, hfree, hname, rfl⟩ := h
    have hadding := (Owner.free_iff.mp hfree.1).1
    have hid := (hplace.here ho (.entry m name) id rfl).mp hname
    refine ⟨_, hplace.relabel ho ⟨?_, fun a ha => ?_⟩ rfl (holds_remove (hplace.here ho) hname)
      (moved_insert hid rfl rfl rfl fun _ h => by cases h),
      follows_insert (hid ▸ .removed m name rfl)⟩
    · refine List.nodup_cons.mpr ⟨fun hstopping => ?_, (hplace.orderly m o ho).stopping⟩
      cases hid.symm.trans ((hplace.here ho (.stopping m) id rfl).mp hstopping)
    · cases hadding.symm.trans ha
  | removeAll m =>
    obtain ⟨o, ho, hfree, rfl⟩ := h
    have hadding := (Owner.free_iff.mp hfree.1).1
    exact ⟨_, hplace.take ho rfl hadding hadding rfl rfl, follows_take rfl⟩
  | drop m =>
    obtain ⟨o, ho, hfree, hstopping, rfl⟩ := h
    have hadding := (Owner.free_iff.mp hfree.1).1
    exact ⟨_, hplace.take ho rfl hadding hadding rfl (by rw [hstopping, List.append_nil]),
      follows_take rfl⟩
  | unregister m id =>
    obtain ⟨o, c, ho, hid, hc, -, rfl⟩ := h
    have hp := (hplace.here ho (.stopping m) id rfl).mp hid
    have hnodup := (hplace.orderly m o ho).stopping
    have horderly : ({ o with stopping := o.stopping.erase id } : Owner).Orderly :=
      ⟨hnodup.erase id, (hplace.orderly m o ho).vacant⟩
    have hcell : ({ c with entry := false } : StatusCell).entry = false := rfl
    refine ⟨_, hplace.leave ho hp rfl horderly rfl hc hcell rfl
      (holds_unregister (hplace.here ho) hid hnodup) (fun r => ?_) (fun r i hi => ?_)
      (fun r hr => ?_), follows_remove (hp ▸ .unregistered m rfl)⟩
    · rw [Function.update_apply]
      split
      · exact (hplace.nodup o.registry).erase id
      · exact hplace.nodup r
    · rw [Function.update_apply]
      split
      · next hr => rw [hr, List.mem_erase_of_ne hi]
      · exact Iff.rfl
    · rw [Function.update_apply] at hr
      split at hr
      · exact absurd hr (hplace.nodup o.registry).not_mem_erase
      · next hne =>
        -- A strong reference from another registry would make that the manager's.
        obtain ⟨p, hp', -, o₁, ho₁, hr₁⟩ := (hplace.listed r id).mp ⟨hr, hplace.strong hp⟩
        obtain rfl := Option.some.inj (hp.symm.trans hp')
        obtain rfl := Option.some.inj (ho.symm.trans ho₁)
        exact absurd hr₁.symm hne
  | record id =>
    obtain ⟨c, status, hc, hrunner, hrecorded, rfl⟩ := h
    obtain ⟨hid, hname⟩ := ControllerStatus.recorded_spec hrecorded
    exact ⟨place, hplace.setCell hc rfl hid hname fun h => h, fun _ => .stay _⟩
  | ended id =>
    obtain ⟨c, hc, hrunner, rfl⟩ := h
    refine ⟨place, hplace.setCell hc rfl rfl rfl fun _ => ?_, fun _ => .stay _⟩
    show (c.entry || c.runner) = true
    rw [hrunner, Bool.or_true]
  | lock q =>
    cases q with
    | registry r =>
      obtain ⟨ids, -, -, rfl⟩ := h
      exact ⟨place, (hplace.prune r).setReading _ _, fun _ => .stay _⟩
    | manager m =>
      obtain ⟨o, ids, -, -, -, rfl⟩ := h
      exact ⟨place, hplace.setReading _ _, fun _ => .stay _⟩
  | read q =>
    obtain ⟨id, rest, seen, -, rfl⟩ := h
    exact ⟨place, hplace.setReading _ _, fun _ => .stay _⟩
  | statuses q answer =>
    obtain ⟨seen, -, -, rfl⟩ := h
    exact ⟨place, hplace.setReading _ _, fun _ => .stay _⟩

/-- The call or the step of `statuses` that an event is. -/
def RegistryEvent.Reads (q : Reader) : RegistryEvent Job → Prop
  | .lock q' => q' = q
  | .read q' => q' = q
  | .statuses q' _ => q' = q
  | _ => False

theorem Managers.setReading_readings (q q' : Reader) (reading : Option Reading) :
    (s.setReading q reading).readings q' = if q' = q then reading else s.readings q' :=
  Function.update_apply _ _ _ _

/-- What every step leaves alone: managers keep their registry, and only `statuses` reads. -/
structure Managers.Onward (s t : Managers) (e : RegistryEvent Job) : Prop where
  nextId : s.nextId ≤ t.nextId
  uses : ∀ m r, s.Uses m r → t.Uses m r
  readings : ∀ q, e.Reads q ∨ t.readings q = s.readings q

theorem Managers.onward_setReading {q : Reader} (he : e.Reads q) (reading : Option Reading) :
    s.Onward (s.setReading q reading) e := by
  refine ⟨le_rfl, fun _ _ h => h, fun q' => ?_⟩
  rw [setReading_readings]
  split
  · next hq => exact .inl (hq ▸ he)
  · exact .inr rfl

theorem RegistryStep.onward (h : RegistryStep debug s e t) : s.Onward t e := by
  -- A step that changes a manager leaves its registry.
  have hset : ∀ {m o} (o' : Owner), s.managers m = some o → o'.registry = o.registry →
      ∀ m' r, s.Uses m' r → (s.setOwner m o').Uses m' r :=
    fun o' ho hregistry m' r => (setOwner_uses ho hregistry).mpr
  cases e with
  | build m r maxInterval =>
    obtain ⟨hm, rfl⟩ := h
    refine ⟨le_rfl, fun m' r' ⟨o, ho, hr⟩ => ⟨o, ?_, hr⟩, fun _ => .inr rfl⟩
    rw [setOwner_managers]
    split
    · next hm' => cases (hm' ▸ hm).symm.trans ho
    · exact ho
  | send m name spec =>
    obtain ⟨o, id, c, -, -, -, -, rfl⟩ := h
    exact ⟨le_rfl, fun _ _ h => h, fun _ => .inr rfl⟩
  | reserve m name spec =>
    obtain ⟨o, ho, -, -, rfl⟩ := h
    exact ⟨Nat.le_succ _, hset _ ho rfl, fun _ => .inr rfl⟩
  | register m =>
    obtain ⟨o, name, id, ho, -, -, rfl⟩ := h
    exact ⟨le_rfl, hset _ ho rfl, fun _ => .inr rfl⟩
  | spawn m =>
    obtain ⟨o, name, id, c, ho, -, -, rfl⟩ := h
    exact ⟨le_rfl, hset _ ho rfl, fun _ => .inr rfl⟩
  | spawnPanics m =>
    obtain ⟨o, name, id, c, ho, -, -, rfl⟩ := h
    exact ⟨le_rfl, hset _ ho rfl, fun _ => .inr rfl⟩
  | enter m =>
    obtain ⟨o, name, id, ho, -, rfl⟩ := h
    exact ⟨le_rfl, hset _ ho rfl, fun _ => .inr rfl⟩
  | remove m name =>
    obtain ⟨o, id, ho, -, -, rfl⟩ := h
    exact ⟨le_rfl, hset _ ho rfl, fun _ => .inr rfl⟩
  | removeAll m =>
    obtain ⟨o, ho, -, rfl⟩ := h
    exact ⟨le_rfl, hset _ ho rfl, fun _ => .inr rfl⟩
  | drop m =>
    obtain ⟨o, ho, -, -, rfl⟩ := h
    exact ⟨le_rfl, hset _ ho rfl, fun _ => .inr rfl⟩
  | unregister m id =>
    obtain ⟨o, c, ho, -, -, -, rfl⟩ := h
    exact ⟨le_rfl, hset _ ho rfl, fun _ => .inr rfl⟩
  | record id =>
    obtain ⟨c, status, -, -, -, rfl⟩ := h
    exact ⟨le_rfl, fun _ _ h => h, fun _ => .inr rfl⟩
  | ended id =>
    obtain ⟨c, -, -, rfl⟩ := h
    exact ⟨le_rfl, fun _ _ h => h, fun _ => .inr rfl⟩
  | lock q =>
    cases q with
    | registry r =>
      obtain ⟨ids, -, -, rfl⟩ := h
      have honward : (s.setRegistry r ((s.registries r).filter s.strong)).Onward _
          (.lock (.registry r) : RegistryEvent Job) :=
        onward_setReading (by exact rfl) (some ⟨ids, []⟩)
      exact ⟨honward.nextId, honward.uses, honward.readings⟩
    | manager m =>
      obtain ⟨o, ids, -, -, -, rfl⟩ := h
      exact onward_setReading (by exact rfl) _
  | read q =>
    obtain ⟨id, rest, seen, -, rfl⟩ := h
    exact onward_setReading (by exact rfl) _
  | statuses q answer =>
    obtain ⟨seen, -, -, rfl⟩ := h
    exact onward_setReading (by exact rfl) _

/-- The entries of a manager are locked while they are taken. -/
theorem RegistryStep.free_of_removes {m : Nat} (h : RegistryStep debug s e t) (he : e.Removes m) :
    s.readings (.manager m) = none := by
  cases e with
  | remove m' name =>
    obtain rfl : m' = m := he
    obtain ⟨o, id, -, hfree, -⟩ := h
    exact hfree.2
  | removeAll m' =>
    obtain rfl : m' = m := he
    obtain ⟨o, -, hfree, -⟩ := h
    exact hfree.2
  | drop m' =>
    obtain rfl : m' = m := he
    obtain ⟨o, -, hfree, -⟩ := h
    exact hfree.2
  | _ => exact he.elim

end Sarena.Controllers
