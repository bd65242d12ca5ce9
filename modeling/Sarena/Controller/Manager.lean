import Mathlib.Tactic.SplitIfs
import Sarena.Controller.Runner
import Sarena.Lib.KeyMap
import Sarena.Lib.Run

namespace Sarena.Controllers

open Lib

/-!
# Controllers — the manager

`Manager` maps names to the controllers it has spawned.  An update of a known name is sent
to that controller, an update of a new name spawns one.  Removing an entry cancels its
token and drops its sender; the task goes on by itself.

* `Manager.update`, `remove`, `removeAll` — the operations;
* `Step` — callers and the tasks of the controllers, in any order;
* `Step.change` — what a step can have done to a controller;
* `Manager.Entered` — every name has a running controller of its own.
-/

variable {Job : Type}

/-- The manager and the tasks it has spawned. -/
structure Manager (Job : Type) where
  maxInterval : Option Duration
  /-- The entry of a name, as the number of its controller. -/
  entries : KeyMap String Nat
  controllers : KeyMap Nat (Controller Job)
  nextId : Nat

namespace Manager

/-- `ManagerBuilder::build`. -/
def new (maxInterval : Option Duration) : Manager Job where
  maxInterval := maxInterval
  entries := KeyMap.empty
  controllers := KeyMap.empty
  nextId := 1

/-- `Manager::normalize`: a zero interval is none, and `max_interval` is the cap. -/
def normalize (m : Manager Job) (spec : Spec Job) : Spec Job :=
  let interval := spec.interval.filter fun d => d ≠ Duration.zero
  match interval, m.maxInterval with
  | some interval, some max =>
    { spec with interval := some (if max.nanos < interval.nanos then max else interval) }
  | _, _ => { spec with interval := interval }

/-- A change of one controller. -/
def modify (m : Manager Job) (id : Nat) (f : Controller Job → Controller Job) : Manager Job :=
  { m with controllers := fun i => if i = id then (m.controllers i).map f else m.controllers i }

/-- A new controller is spawned and entered under the name. -/
def spawn (m : Manager Job) (name : String) (spec : Spec Job) : Manager Job :=
  { m with
    entries := m.entries.insert name m.nextId
    controllers := m.controllers.insert m.nextId { value := spec }
    nextId := m.nextId + 1 }

/-- `Manager::update`. -/
def update (m : Manager Job) (name : String) (spec : Spec Job) : Manager Job :=
  match m.entries name with
  | some id => m.modify id (·.send (m.normalize spec))
  | none => m.spawn name (m.normalize spec)

/-- The name is no longer an entry. -/
def dropEntry (m : Manager Job) (name : String) : Manager Job :=
  { m with entries := m.entries.remove name }

/-- `Manager::remove`. -/
def remove (m : Manager Job) (name : String) : Manager Job :=
  match m.entries name with
  | some id => (m.modify id Controller.stop).dropEntry name
  | none => m

/-- `Manager::remove_all`, and what dropping the manager does.  A controller without an entry
    has been stopped before. -/
def removeAll (m : Manager Job) : Manager Job :=
  { m with
    entries := KeyMap.empty
    controllers := fun id => (m.controllers id).map Controller.stop }

end Manager

/-- Who takes a step. -/
inductive ManagerEvent (Job : Type)
  | update (name : String) (spec : Spec Job)
  | remove (name : String)
  | removeAll
  | runner (id : Nat) (e : RunnerEvent)

variable (mulF64 : Duration → Float → Checked Duration)

/-- Callers and runners, in any order. -/
def Step (m : Manager Job) : ManagerEvent Job → Manager Job → Prop
  | .update name spec, t => t = m.update name spec
  | .remove name, t => t = m.remove name
  | .removeAll, t => t = m.removeAll
  | .runner id e, t => ∃ c d, m.controllers id = some c ∧ c.RunnerStep mulF64 e d ∧
      t = m.modify id fun _ => d

/-! ### What a step does to a controller -/

variable {mulF64} {m t : Manager Job} {a : ManagerEvent Job} {id i : Nat} {d : Controller Job}
  {name : String}

theorem controllers_modify (f : Controller Job → Controller Job) :
    (m.modify id f).controllers i = if i = id then (m.controllers i).map f else m.controllers i :=
  rfl

theorem controllers_spawn (spec : Spec Job) :
    (m.spawn name spec).controllers i =
      if i = m.nextId then some { value := spec } else m.controllers i :=
  KeyMap.insert_apply _ _ _ _

theorem entries_spawn (spec : Spec Job) (name' : String) :
    (m.spawn name spec).entries name' =
      if name' = name then some m.nextId else m.entries name' :=
  KeyMap.insert_apply _ _ _ _

theorem entries_dropEntry (name' : String) :
    (m.dropEntry name).entries name' = if name' = name then none else m.entries name' :=
  KeyMap.remove_apply _ _ _

/-- What a step can have done to a controller. -/
inductive Change (mulF64 : Duration → Float → Checked Duration) (m : Manager Job)
    (a : ManagerEvent Job) (id : Nat) : Controller Job → Prop
  | spawned (spec : Spec Job) : Change mulF64 m a id { value := spec }
  | same (c : Controller Job) (h : m.controllers id = some c) : Change mulF64 m a id c
  | sent (c : Controller Job) (h : m.controllers id = some c) (name : String) (spec : Spec Job)
      (ha : a = .update name spec) (hentry : m.entries name = some id) :
      Change mulF64 m a id (c.send (m.normalize spec))
  | stopped (c : Controller Job) (h : m.controllers id = some c) : Change mulF64 m a id c.stop
  | moved (c d : Controller Job) (h : m.controllers id = some c) (e : RunnerEvent)
      (ha : a = .runner id e) (hmove : Controller.Move mulF64 c e d) : Change mulF64 m a id d

/-- **Frame.** A step spawns a controller, sends to one, stops some, or moves one. -/
theorem Step.change (h : Step mulF64 m a t) (hd : t.controllers id = some d) :
    Change mulF64 m a id d := by
  cases a with
  | update name spec =>
    obtain rfl : t = m.update name spec := h
    unfold Manager.update at hd
    -- An update of a known name goes to its controller; a new name gets a controller of its own.
    split at hd
    next id' hentry =>
      rw [controllers_modify] at hd
      split_ifs at hd with hid
      · subst hid
        obtain ⟨c, hc, rfl⟩ := Option.map_eq_some_iff.mp hd
        exact .sent c hc name spec rfl hentry
      · exact .same d hd
    next =>
      rw [controllers_spawn] at hd
      split_ifs at hd with hid
      · obtain rfl := Option.some.inj hd
        exact .spawned _
      · exact .same d hd
  | remove name =>
    obtain rfl : t = m.remove name := h
    unfold Manager.remove at hd
    split at hd
    next id' hentry =>
      rw [Manager.dropEntry, controllers_modify] at hd
      split_ifs at hd with hid
      · obtain ⟨c, hc, rfl⟩ := Option.map_eq_some_iff.mp hd
        exact .stopped c hc
      · exact .same d hd
    next => exact .same d hd
  | removeAll =>
    -- Every controller is stopped, whether it still has an entry or not.
    obtain rfl : t = m.removeAll := h
    obtain ⟨c, hc, rfl⟩ := Option.map_eq_some_iff.mp hd
    exact .stopped c hc
  | runner id' e =>
    obtain ⟨c, c', hc, hstep, rfl⟩ := h
    rw [controllers_modify] at hd
    split_ifs at hd with hid
    · subst hid
      obtain ⟨c₀, -, rfl⟩ := Option.map_eq_some_iff.mp hd
      exact .moved c c' hc e rfl hstep.move
    · exact .same d hd

/-! ### Entries -/

/-- Every name has a controller of its own, which has not been stopped. -/
structure Manager.Entered (m : Manager Job) : Prop where
  live : ∀ name id, m.entries name = some id → ∃ c, m.controllers id = some c ∧ ¬ c.Stopped
  injective : ∀ name name' id, m.entries name = some id → m.entries name' = some id → name = name'
  fresh : ∀ id, m.nextId ≤ id → m.controllers id = none

theorem entered_new (maxInterval : Option Duration) :
    (Manager.new maxInterval : Manager Job).Entered := by
  refine ⟨fun name id h => ?_, fun name name' id h => ?_, fun id _ => rfl⟩
  · cases h
  · cases h

/-- A change that stops no controller. -/
theorem Manager.Entered.modify (h : m.Entered) {f : Controller Job → Controller Job}
    (hf : ∀ c, m.controllers id = some c → ¬ c.Stopped → ¬ (f c).Stopped) :
    (m.modify id f).Entered := by
  refine ⟨fun name i hname => ?_, h.injective, fun i hi => ?_⟩
  · obtain ⟨c, hc, hopen⟩ := h.live name i hname
    rw [controllers_modify, hc]
    split_ifs with hid
    · exact ⟨f c, rfl, hf c (hid ▸ hc) hopen⟩
    · exact ⟨c, rfl, hopen⟩
  · rw [controllers_modify, h.fresh i hi, Option.map_none, ite_self]

theorem Manager.Entered.spawn (h : m.Entered) (name : String) (spec : Spec Job) :
    (m.spawn name spec).Entered := by
  have hold : ∀ name' i, m.entries name' = some i → i ≠ m.nextId := by
    rintro name' _ hname rfl
    obtain ⟨c, hc, -⟩ := h.live name' _ hname
    rw [h.fresh _ (Nat.le_refl _)] at hc
    cases hc
  refine ⟨fun name' i hname => ?_, fun name₁ name₂ i h₁ h₂ => ?_, fun i hi => ?_⟩
  · rw [entries_spawn] at hname
    rw [controllers_spawn]
    split_ifs at hname with hsame
    · rw [if_pos (Option.some.inj hname).symm]
      refine ⟨_, rfl, ?_⟩
      rintro (hstop | hstop) <;> cases hstop
    · rw [if_neg (hold name' i hname)]
      exact h.live name' i hname
  · rw [entries_spawn] at h₁ h₂
    split_ifs at h₁ h₂ with hn₁ hn₂ hn₂
    · rw [hn₁, hn₂]
    · exact absurd (Option.some.inj h₁).symm (hold _ _ h₂)
    · exact absurd (Option.some.inj h₂).symm (hold _ _ h₁)
    · exact h.injective name₁ name₂ i h₁ h₂
  · have hlt : m.nextId + 1 ≤ i := hi
    rw [controllers_spawn, if_neg (by omega)]
    exact h.fresh i (by omega)

theorem Manager.Entered.remove (h : m.Entered) (name : String) : (m.remove name).Entered := by
  unfold Manager.remove
  split
  next id' hentry =>
    refine ⟨fun name' i hname => ?_, fun name₁ name₂ i h₁ h₂ => ?_, fun i hi => ?_⟩
    · rw [entries_dropEntry] at hname
      split_ifs at hname with hsame
      obtain ⟨c, hc, hopen⟩ := h.live name' i hname
      have hid : i ≠ id' := by
        rintro rfl
        exact hsame (h.injective name' name i hname hentry)
      refine ⟨c, ?_, hopen⟩
      rw [dropEntry, controllers_modify, if_neg hid, hc]
    · rw [entries_dropEntry] at h₁ h₂
      split_ifs at h₁ h₂
      exact h.injective name₁ name₂ i h₁ h₂
    · rw [dropEntry, controllers_modify, h.fresh i hi, Option.map_none, ite_self]
  next => exact h

/-- **Step.** -/
theorem Manager.Entered.step (hm : m.Entered) (h : Step mulF64 m a t) : t.Entered := by
  cases a with
  | update name spec =>
    obtain rfl : t = m.update name spec := h
    unfold Manager.update
    split
    · exact hm.modify fun c _ hopen => hopen
    · exact hm.spawn name _
  | remove name =>
    obtain rfl : t = m.remove name := h
    exact hm.remove name
  | removeAll =>
    obtain rfl : t = m.removeAll := h
    refine ⟨fun name i hname => ?_, fun name _ i hname => ?_, fun i hi => ?_⟩
    · cases hname
    · cases hname
    · exact congrArg (Option.map Controller.stop) (hm.fresh i hi)
  | runner id' e =>
    obtain ⟨c, d, hc, hstep, rfl⟩ := h
    refine hm.modify fun c₀ hc₀ hopen => ?_
    obtain rfl := Option.some.inj (hc₀.symm.trans hc)
    exact fun hstop => hopen (hstep.move.stopped_iff.mp hstop)

/-! ### Controllers that were there before -/

theorem controllers_modify_of_some {c : Controller Job} (f : Controller Job → Controller Job)
    (hc : m.controllers i = some c) :
    (m.modify id f).controllers i = some (if i = id then f c else c) := by
  rw [controllers_modify, hc]
  split_ifs
  · rfl
  · rfl

/-- A change of one controller, by what it makes of it. -/
theorem modify_of_some {c : Controller Job} (f : Controller Job → Controller Job)
    (hc : m.controllers id = some c) : m.modify id f = m.modify id fun _ => f c := by
  unfold Manager.modify
  congr 1
  funext i
  by_cases hi : i = id
  · rw [if_pos hi, if_pos hi, hi, hc]
    rfl
  · rw [if_neg hi, if_neg hi]

theorem modify_self {c : Controller Job} (hc : m.controllers id = some c) :
    m.modify id (fun _ => c) = m := by
  unfold Manager.modify
  congr 1
  funext i
  by_cases hi : i = id
  · rw [if_pos hi, hi, hc]
    rfl
  · rw [if_neg hi]

/-- What a step can have done to a controller that was there before. -/
inductive Continued (mulF64 : Duration → Float → Checked Duration) (a : ManagerEvent Job)
    (id : Nat) (c : Controller Job) : Controller Job → Prop
  | same : Continued mulF64 a id c c
  | sent (spec : Spec Job) : Continued mulF64 a id c (c.send spec)
  | stopped : Continued mulF64 a id c c.stop
  | moved (d : Controller Job) (e : RunnerEvent) (ha : a = .runner id e)
      (hmove : Controller.Move mulF64 c e d) : Continued mulF64 a id c d

/-- **Frame.** A step keeps every controller, and spawns none in the place of another. -/
theorem Step.continued {c : Controller Job} (h : Step mulF64 m a t) (hm : m.Entered)
    (hc : m.controllers id = some c) :
    ∃ d, t.controllers id = some d ∧ Continued mulF64 a id c d := by
  cases a with
  | update name spec =>
    obtain rfl : t = m.update name spec := h
    unfold Manager.update
    split
    next id' _ =>
      refine ⟨_, controllers_modify_of_some _ hc, ?_⟩
      split_ifs
      · exact .sent _
      · exact .same
    next =>
      -- The number of the new controller is one that no controller has.
      have hne : id ≠ m.nextId := by
        rintro rfl
        rw [hm.fresh _ (Nat.le_refl _)] at hc
        cases hc
      rw [controllers_spawn, if_neg hne]
      exact ⟨c, hc, .same⟩
  | remove name =>
    obtain rfl : t = m.remove name := h
    unfold Manager.remove
    split
    next id' _ =>
      refine ⟨_, controllers_modify_of_some _ hc, ?_⟩
      split_ifs
      · exact .stopped
      · exact .same
    next => exact ⟨c, hc, .same⟩
  | removeAll =>
    obtain rfl : t = m.removeAll := h
    exact ⟨c.stop, congrArg (Option.map Controller.stop) hc, .stopped⟩
  | runner id' e =>
    obtain ⟨c', d', hc', hstep, rfl⟩ := h
    refine ⟨_, controllers_modify_of_some _ hc, ?_⟩
    split_ifs with hid
    · subst hid
      obtain rfl := Option.some.inj (hc.symm.trans hc')
      exact .moved _ e rfl hstep.move
    · exact .same

/-- A controller that was not there before has just been spawned. -/
theorem Step.spawned (h : Step mulF64 m a t) (hc : m.controllers id = none)
    (hd : t.controllers id = some d) : ∃ spec, d = { value := spec } := by
  cases h.change hd with
  | spawned spec => exact ⟨spec, rfl⟩
  | same _ hc' | sent _ hc' | stopped _ hc' | moved _ _ hc' =>
    rw [hc] at hc'
    cases hc'

end Sarena.Controllers
