import Sarena.Controller.Registry

namespace Sarena.Controllers

open Lib Managers

/-!
# Controllers — the statuses

`Registry::statuses` and `Manager::statuses` lock a map and then one cell after the other, while
runners and other calls go on.

* `Managers.Listed` — the controllers that a registry or a manager has;
* `Managers.Calling` — what holds in the course of a call;
* `registry_exact` — what a registry shows is what its managers have.
-/

variable {Job : Type} {debug : Duration → String} {s t : Managers} {e : RegistryEvent Job}

/-! ### A call of `statuses` -/

/-- An id at this place stays in the registry while that is locked. -/
def Place.settled : Place → Bool
  | .entry _ _ | .stopping _ => true
  | _ => false

namespace Managers

/-- The reader has the controller of this id: a registry, what its managers have entered and not
    yet removed; a manager, its entries. -/
def Listed (s : Managers) : Reader → Nat → Prop
  | .registry r, id => ∃ p, p.listed = true ∧ s.Uses p.manager r ∧ s.Holds p id
  | .manager m, id => ∃ name, s.Holds (.entry m name) id

/-- No call of a manager of this registry is on its way. -/
def Quiet (s : Managers) : Reader → Prop
  | .registry r => ∀ m o, s.managers m = some o → o.registry = r → o.adding = none ∧ o.stopping = []
  | .manager _ => True

/-- The entries of the managers of a registry, or of a manager. -/
def Entries (s : Managers) : Reader → Nat → Prop
  | .registry r, id => ∃ m name, s.Uses m r ∧ s.Holds (.entry m name) id
  | .manager m, id => ∃ name, s.Holds (.entry m name) id

/-- The ids that a call of `statuses` has read or will look at. -/
def ids (rd : Reading) : List Nat := rd.seen.map ControllerStatus.id ++ rd.todo

theorem Uses.unique {m r r' : Nat} (h : s.Uses m r) (h' : s.Uses m r') : r = r' := by
  obtain ⟨o, ho, rfl⟩ := h
  obtain ⟨o', ho', rfl⟩ := h'
  obtain rfl := Option.some.inj (ho.symm.trans ho')
  rfl

/-- Between the calls of its managers, a registry has their entries. -/
theorem Quiet.listed_iff {q : Reader} (hquiet : s.Quiet q) (id : Nat) :
    s.Listed q id ↔ s.Entries q id := by
  cases q with
  | manager m => exact Iff.rfl
  | registry r =>
    refine ⟨?_, fun ⟨m, name, huses, hid⟩ => ⟨.entry m name, rfl, huses, hid⟩⟩
    rintro ⟨p, hlisted, ⟨o, ho, hr⟩, o', ho', hid⟩
    obtain rfl := Option.some.inj (ho.symm.trans ho')
    obtain ⟨hadding, hstopping⟩ := hquiet _ o ho hr
    cases p with
    | reserved m name => cases hlisted
    | registered m name =>
      rcases hid with hid | hid
      · cases hadding.symm.trans hid
      · cases hadding.symm.trans hid
    | entry m name => exact ⟨m, name, ⟨o, ho, hr⟩, o, ho, hid⟩
    | stopping m =>
      change id ∈ o.stopping at hid
      rw [hstopping] at hid
      cases hid

/-- While a manager's entries are read, nothing is added to them. -/
def Steady (s : Managers) : Reader → Prop
  | .registry _ => True
  | .manager m => ∀ name id, ¬ s.Holds (.reserved m name) id ∧ ¬ s.Holds (.registered m name) id

end Managers

/-- What is listed during a call was listed before. -/
theorem RegistryStep.listed_back {place place' : KeyMap Nat Place} {q : Reader} {id : Nat}
    (h : RegistryStep debug s e t) (hs : s.Places place) (ht : t.Places place')
    (hfollows : Place.Follows e id (place id) (place' id)) (hheld : s.readings q ≠ none)
    (hsteady : s.Steady q) (hlisted : t.Listed q id) : s.Listed q id := by
  have huses := h.onward.uses
  cases q with
  | registry r =>
    obtain ⟨p', hp', huses', hid'⟩ := hlisted
    -- The id was listed at a place of the same manager.
    have hback : ∃ p, p.listed = true ∧ p.manager = p'.manager ∧ place id = some p := by
      have hplace' := (ht.holds p' id).mp hid'
      generalize hbefore : place id = before at hfollows
      generalize place' id = after at hfollows hplace'
      cases hfollows with
      | stay =>
        subst hplace'
        exact ⟨p', hp', rfl, rfl⟩
      | reserved m name =>
        cases hplace'
        cases hp'
      | registered m name he =>
        subst he
        cases hplace'
        obtain ⟨o, name', id', ho, -, hnone, -⟩ := h
        have hregistry := (huses m o.registry ⟨o, ho, rfl⟩).unique huses'
        exact absurd (hregistry ▸ hnone) hheld
      | panicked => cases hplace'
      | entered m name =>
        cases hplace'
        exact ⟨.registered m name, rfl, rfl, rfl⟩
      | removed m name =>
        cases hplace'
        exact ⟨.entry m name, rfl, rfl, rfl⟩
      | unregistered => cases hplace'
    obtain ⟨p, hp, hmanager, hplace⟩ := hback
    have hid := (hs.holds p id).mpr hplace
    have ⟨o, ho, _⟩ := hid
    have hregistry := (huses p.manager o.registry ⟨o, ho, rfl⟩).unique (hmanager ▸ huses')
    exact ⟨p, hp, ⟨o, ho, hregistry⟩, hid⟩
  | manager m =>
    obtain ⟨name, hid'⟩ := hlisted
    have hplace' := (ht.holds _ id).mp hid'
    generalize hbefore : place id = before at hfollows
    generalize place' id = after at hfollows hplace'
    cases hfollows with
    | stay =>
      subst hplace'
      exact ⟨name, (hs.holds _ id).mpr hbefore⟩
    | entered m' name' =>
      cases hplace'
      exact absurd ((hs.holds _ id).mpr hbefore) (hsteady name id).2
    | reserved => cases hplace'
    | registered => cases hplace'
    | panicked => cases hplace'
    | removed => cases hplace'
    | unregistered => cases hplace'

/-- What has been entered when a registry is locked stays there. -/
theorem RegistryStep.settled {place place' : KeyMap Nat Place} {r id : Nat} {p : Place}
    (h : RegistryStep debug s e t) (hs : s.Places place) (ht : t.Places place')
    (hfollows : Place.Follows e id (place id) (place' id))
    (hheld : s.readings (.registry r) ≠ none) (hp : p.settled = true)
    (huses : s.Uses p.manager r) (hid : s.Holds p id) :
    ∃ p', p'.settled = true ∧ t.Uses p'.manager r ∧ t.Holds p' id := by
  have huses' := h.onward.uses p.manager r huses
  have hplace := (hs.holds p id).mp hid
  generalize place id = before at hfollows hplace
  generalize hafter : place' id = after at hfollows
  cases hfollows with
  | stay =>
    subst hplace
    exact ⟨p, hp, huses', (ht.holds p id).mpr hafter⟩
  | reserved => cases hplace
  | registered =>
    cases hplace
    cases hp
  | panicked =>
    cases hplace
    cases hp
  | entered =>
    cases hplace
    cases hp
  | removed m name =>
    cases hplace
    exact ⟨.stopping m, rfl, huses', (ht.holds _ id).mpr hafter⟩
  | unregistered m he =>
    subst he
    -- The registry is locked, and nothing is taken out of it.
    cases hplace
    obtain ⟨o, c, ho, -, -, hnone, -⟩ := h
    have hregistry := Uses.unique ⟨o, ho, rfl⟩ huses
    exact absurd (hregistry ▸ hnone) hheld

/-- While a manager's entries are read, they stay, and nothing is added. -/
theorem RegistryStep.steady {place place' : KeyMap Nat Place} {m : Nat}
    (h : RegistryStep debug s e t) (hs : s.Places place) (ht : t.Places place')
    (hfollows : ∀ id, Place.Follows e id (place id) (place' id))
    (hheld : s.readings (.manager m) ≠ none) (hsteady : s.Steady (.manager m)) :
    t.Steady (.manager m) ∧ ∀ name id, s.Holds (.entry m name) id → t.Holds (.entry m name) id := by
  have hnothing : ∀ name id, place id ≠ some (.reserved m name) ∧
      place id ≠ some (.registered m name) := fun name id =>
    ⟨fun hp => (hsteady name id).1 ((hs.holds _ id).mpr hp),
      fun hp => (hsteady name id).2 ((hs.holds _ id).mpr hp)⟩
  refine ⟨fun name id => ⟨fun hid => ?_, fun hid => ?_⟩, fun name id hid => ?_⟩
  · have hplace' := (ht.holds _ id).mp hid
    have hid' := hfollows id
    rw [hplace'] at hid'
    generalize hbefore : place id = before at hid'
    cases hid' with
    | stay => exact (hnothing name id).1 hbefore
    | reserved _ _ spec he =>
      -- `update` would have to lock the entries, which are locked while they are read.
      subst he
      obtain ⟨o, -, hfree, -⟩ := h
      exact hheld hfree.2
  · have hplace' := (ht.holds _ id).mp hid
    have hid' := hfollows id
    rw [hplace'] at hid'
    generalize hbefore : place id = before at hid'
    cases hid' with
    | stay => exact (hnothing name id).2 hbefore
    | registered => exact (hnothing name id).1 hbefore
  · have hid' := hfollows id
    rw [(hs.holds _ id).mp hid] at hid'
    refine (ht.holds _ id).mpr ?_
    generalize place' id = after at hid'
    cases hid' with
    | stay => rfl
    | removed _ _ he => exact absurd (h.free_of_removes he) hheld

namespace Managers

/-- The state of a call of `statuses` that was made in the state `s₀`. -/
structure Calling (s : Managers) (q : Reader) (s₀ : Managers) : Prop where
  indexed : s.Indexed
  steady : s.Steady q
  settled : ∀ r p id, q = .registry r → p.settled = true → s₀.Uses p.manager r →
    s₀.Holds p id → ∃ p', p'.settled = true ∧ s.Uses p'.manager r ∧ s.Holds p' id
  entries : ∀ m name id, q = .manager m → s₀.Holds (.entry m name) id → s.Holds (.entry m name) id
  within : ∀ rd, s.readings q = some rd → (ids rd).Nodup ∧ ∀ id ∈ ids rd, s₀.Listed q id
  complete : ∀ rd, s.readings q = some rd → ∀ id, s.Listed q id → id ∈ ids rd
  named : ∀ rd m, s.readings q = some rd → q = .manager m → ∀ status ∈ rd.seen,
    s₀.Holds (.entry m status.name) status.id

namespace Places

variable {place : KeyMap Nat Place} (h : s.Places place)

include h

theorem snapshot_id {id : Nat} {status : ControllerStatus} (hs : s.snapshot id = some status) :
    status.id = id := by
  obtain ⟨c, hc, rfl⟩ := Option.map_eq_some_iff.mp hs
  exact h.id id c hc

theorem mem_iff {r id : Nat} :
    id ∈ (s.registries r).filter s.strong ↔ s.Listed (.registry r) id := by
  rw [List.mem_filter, h.listed r id]
  constructor
  · rintro ⟨p, hp, hlisted, huses⟩
    exact ⟨p, hlisted, huses, (h.holds p id).mpr hp⟩
  · rintro ⟨p, hlisted, huses, hid⟩
    exact ⟨p, (h.holds p id).mp hid, hlisted, huses⟩

/-- The cell of an id that is listed can be read. -/
theorem exists_upgrade {q : Reader} {id : Nat} (hlisted : s.Listed q id) :
    ∃ status, s.upgrade id = some status := by
  have hplace : ∃ p, place id = some p := by
    cases q with
    | registry r =>
      obtain ⟨p, -, -, hid⟩ := hlisted
      exact ⟨p, (h.holds p id).mp hid⟩
    | manager m =>
      obtain ⟨name, hid⟩ := hlisted
      exact ⟨_, (h.holds _ id).mp hid⟩
  obtain ⟨p, hp⟩ := hplace
  obtain ⟨c, hc⟩ := Option.ne_none_iff_exists'.mp
    (h.cell id (Option.ne_none_iff_exists'.mpr ⟨p, hp⟩))
  rw [upgrade, if_pos (h.strong hp)]
  exact ⟨c.status, Option.map_eq_some_iff.mpr ⟨c, hc, rfl⟩⟩

end Places

theorem snapshot_of_upgrade {id : Nat} {status : ControllerStatus}
    (h : s.upgrade id = some status) : s.snapshot id = some status := by
  unfold upgrade at h
  split at h
  · exact h
  · cases h

/-- What is read next stands where its id stood, or is left out. -/
theorem Calling.read {q : Reader} {s₀ : Managers} (h : s.Calling q s₀) {id : Nat}
    {rest : List Nat} {seen : List ControllerStatus}
    (hrd : s.readings q = some ⟨id :: rest, seen⟩) :
    (s.setReading q (some ⟨rest, seen ++ (s.upgrade id).toList⟩)).Calling q s₀ := by
  obtain ⟨place, hplace⟩ := h.indexed
  obtain ⟨hnodup, hwithin⟩ := h.within _ hrd
  have hcomplete := h.complete _ hrd
  have hself : (s.setReading q (some ⟨rest, seen ++ (s.upgrade id).toList⟩)).readings q =
      some ⟨rest, seen ++ (s.upgrade id).toList⟩ :=
    (setReading_readings q q _).trans (if_pos rfl)
  -- The id moves from those to look at to those seen, or is dropped with its cell.
  have hids : (ids ⟨rest, seen ++ (s.upgrade id).toList⟩).Sublist (ids ⟨id :: rest, seen⟩) := by
    show ((seen ++ (s.upgrade id).toList).map ControllerStatus.id ++ rest).Sublist
      (seen.map ControllerStatus.id ++ id :: rest)
    rw [List.map_append, List.append_assoc]
    refine (List.Sublist.refl _).append ?_
    cases hstatus : s.upgrade id with
    | none => exact List.sublist_cons_self id rest
    | some status =>
      obtain rfl := hplace.snapshot_id (snapshot_of_upgrade hstatus)
      exact List.Sublist.refl _
  refine ⟨⟨place, hplace.setReading _ _⟩, ?_, h.settled, h.entries, fun rd hrd' => ?_,
    fun rd hrd' id' hlisted => ?_, fun rd m hrd' hq status hstatus => ?_⟩
  · cases q with
    | registry => trivial
    | manager m => exact h.steady
  · obtain rfl := Option.some.inj (hself.symm.trans hrd')
    exact ⟨hnodup.sublist hids, fun id' hid' => hwithin id' (hids.subset hid')⟩
  · obtain rfl := Option.some.inj (hself.symm.trans hrd')
    have hlisted' : s.Listed q id' := by
      cases q with
      | registry => exact hlisted
      | manager => exact hlisted
    rcases List.mem_append.mp (hcomplete id' hlisted') with hmem | hmem
    · obtain ⟨status, hstatus, rfl⟩ := List.mem_map.mp hmem
      exact List.mem_append_left _ (List.mem_map_of_mem (List.mem_append_left _ hstatus))
    · rcases List.mem_cons.mp hmem with rfl | hmem
      · -- One that is still listed has its cell, so it is not left out.
        obtain ⟨status, hstatus⟩ := hplace.exists_upgrade hlisted'
        obtain rfl := hplace.snapshot_id (snapshot_of_upgrade hstatus)
        refine List.mem_append_left _ (List.mem_map_of_mem (List.mem_append_right _ ?_))
        rw [hstatus]
        exact List.mem_singleton_self status
      · exact List.mem_append_right _ hmem
  · obtain rfl := Option.some.inj (hself.symm.trans hrd')
    rcases List.mem_append.mp hstatus with hstatus | hstatus
    · exact h.named _ m hrd hq status hstatus
    · have hsnapshot := snapshot_of_upgrade (Option.mem_toList.mp hstatus)
      obtain rfl := hplace.snapshot_id hsnapshot
      have hmem : status.id ∈ ids ⟨status.id :: rest, seen⟩ :=
        List.mem_append_right _ List.mem_cons_self
      -- The status bears the name of the entry.
      have hlisted := hwithin _ hmem
      rw [hq] at hlisted
      obtain ⟨name, hid⟩ := hlisted
      obtain ⟨c, hc, hstatus'⟩ := Option.map_eq_some_iff.mp hsnapshot
      have hentry := (hplace.holds _ _).mp (h.entries m name _ hq hid)
      have hname := hplace.name _ _ c name hentry rfl hc
      rw [hstatus'] at hname
      exact hname ▸ hid

end Managers

theorem RegistryStep.calling {q : Reader} (h : @RegistryStep Job debug s (.lock q) t)
    {place : KeyMap Nat Place} (hplace : s.Places place) : t.Calling q s := by
  cases q with
  | registry r =>
    obtain ⟨ids, -, hids, rfl⟩ := h
    have hself : ((s.setRegistry r ((s.registries r).filter s.strong)).setReading (.registry r)
        (some ⟨ids, []⟩)).readings (.registry r) = some ⟨ids, []⟩ :=
      (setReading_readings _ _ _).trans (if_pos rfl)
    refine ⟨⟨place, (hplace.prune r).setReading _ _⟩, trivial,
      fun r' p id hr hp huses hid => ⟨p, hp, huses, hid⟩, fun m name id hq => (by cases hq),
      fun rd hrd => ?_, fun rd hrd id hlisted => ?_, fun rd m _ hq => by cases hq⟩
    · obtain rfl := Option.some.inj (hself.symm.trans hrd)
      exact ⟨hids.nodup_iff.mpr ((hplace.nodup r).filter _),
        fun id hid => hplace.mem_iff.mp (hids.mem_iff.mp hid)⟩
    · obtain rfl := Option.some.inj (hself.symm.trans hrd)
      exact hids.mem_iff.mpr (hplace.mem_iff.mpr hlisted)
  | manager m =>
    obtain ⟨o, ids, ho, hfree, hids, rfl⟩ := h
    have hadding := (Owner.free_iff.mp hfree.1).1
    have hself : (s.setReading (.manager m) (some ⟨ids, []⟩)).readings (.manager m) =
        some ⟨ids, []⟩ := (setReading_readings _ _ _).trans (if_pos rfl)
    have hhere := hplace.here ho
    have hmem : ∀ id, id ∈ ids ↔ s.Listed (.manager m) id := by
      intro id
      rw [hids.mem_iff, HashMap.mem_values]
      exact exists_congr fun name => (hhere (.entry m name) id rfl).trans (hplace.holds _ id).symm
    -- No id has two names in the map, so that the values are distinct.
    have hvalues : o.entries.values.Nodup :=
      HashMap.nodup_values _ fun name name' id hname hname' => by
        have hentry := (hhere (.entry m name) id rfl).mp hname
        cases hentry.symm.trans ((hhere (.entry m name') id rfl).mp hname')
        rfl
    refine ⟨⟨place, hplace.setReading _ _⟩, fun name id => ⟨fun hid => ?_, fun hid => ?_⟩,
      fun r p id hq => (by cases hq), fun m' name id _ hid => hid, fun rd hrd => ?_,
      fun rd hrd id hlisted => ?_, fun rd m' hrd _ status hstatus => ?_⟩
    · have hadding' := (hhere (.reserved m name) id rfl).mpr ((hplace.holds _ id).mp hid)
      cases hadding.symm.trans hadding'
    · rcases (hhere (.registered m name) id rfl).mpr ((hplace.holds _ id).mp hid) with h | h
      · cases hadding.symm.trans h
      · cases hadding.symm.trans h
    · obtain rfl := Option.some.inj (hself.symm.trans hrd)
      exact ⟨hids.nodup_iff.mpr hvalues, fun id hid => (hmem id).mp hid⟩
    · obtain rfl := Option.some.inj (hself.symm.trans hrd)
      exact (hmem id).mpr hlisted
    · obtain rfl := Option.some.inj (hself.symm.trans hrd)
      cases hstatus

/-- **Calls.**  A call of `statuses` goes on as it began, while others take their steps. -/
theorem Managers.Calling.step {q : Reader} {s₀ : Managers} (h : s.Calling q s₀)
    (hstep : RegistryStep debug s e t) (hspawns : t.nextId ≤ 2 ^ 64)
    (hheld : s.readings q ≠ none) (hheld' : t.readings q ≠ none) : t.Calling q s₀ := by
  obtain ⟨place, hplace⟩ := h.indexed
  obtain ⟨place', hplace', hfollows⟩ := hstep.places hplace hspawns
  rcases hstep.onward.readings q with hreads | hsame
  · cases e with
    | lock q' =>
      obtain rfl : q' = q := hreads
      cases q' with
      | registry r =>
        obtain ⟨ids, hnone, -⟩ := hstep
        exact absurd hnone hheld
      | manager m =>
        obtain ⟨o, ids, -, hfree, -⟩ := hstep
        exact absurd hfree.2 hheld
    | read q' =>
      obtain rfl : q' = q := hreads
      obtain ⟨id, rest, seen, hrd, rfl⟩ := hstep
      exact h.read hrd
    | statuses q' answer =>
      obtain rfl : q' = q := hreads
      obtain ⟨seen, -, -, rfl⟩ := hstep
      exact absurd ((setReading_readings q' q' none).trans (if_pos rfl)) hheld'
    | _ => exact hreads.elim
  · refine ⟨⟨place', hplace'⟩, ?_, fun r p id hq hp huses hid => ?_, fun m name id hq hid => ?_,
      fun rd hrd => h.within rd (hsame ▸ hrd), fun rd hrd id hlisted => ?_,
      fun rd m hrd => h.named rd m (hsame ▸ hrd)⟩
    · cases q with
      | registry r => trivial
      | manager m => exact (hstep.steady hplace hplace' hfollows hheld h.steady).1
    · obtain ⟨p', hp', huses', hid'⟩ := h.settled r p id hq hp huses hid
      exact hstep.settled hplace hplace' (hfollows id) (hq ▸ hheld) hp' huses' hid'
    · subst hq
      exact (hstep.steady hplace hplace' hfollows hheld h.steady).2 name id
        (h.entries m name id rfl hid)
    · exact h.complete rd (hsame ▸ hrd) id
        (hstep.listed_back hplace hplace' (hfollows id) hheld h.steady hlisted)

/-! ### The answers -/

/-- The order of an answer, in which no two statuses are level. -/
def Reader.Sorted : Reader → List ControllerStatus → Prop
  | .registry _, l => l.Pairwise fun a b => a.key < b.key
  | .manager _, l => l.Pairwise fun a b => a.name < b.name

theorem Reader.mem_sort (q : Reader) (l : List ControllerStatus) (status : ControllerStatus) :
    status ∈ q.sort l ↔ status ∈ l := by
  cases q with
  | registry r => exact List.mem_mergeSort
  | manager m => exact List.mem_mergeSort

namespace Managers.Calling

variable {q : Reader} {s₀ : Managers} (h : s.Calling q s₀)

include h

theorem sorted {rd : Reading} (hrd : s.readings q = some rd) (h₀ : s₀.Indexed) :
    q.Sorted (q.sort rd.seen) := by
  have hids : rd.seen.Pairwise fun a b => a.id ≠ b.id :=
    List.pairwise_map.mp (h.within rd hrd).1.of_append_left
  cases q with
  | registry r =>
    refine mergeSort_spec ControllerStatus.key (hids.imp fun hne hkey => hne ?_)
    exact congrArg (fun k => (ofLex k).2) hkey
  | manager m =>
    obtain ⟨place, hplace⟩ := h₀
    refine mergeSort_spec ControllerStatus.name (hids.imp_of_mem fun ha hb hne hname => hne ?_)
    -- Two entries of one name are one.
    obtain ⟨o, ho, hid⟩ := h.named rd m hrd rfl _ ha
    obtain ⟨o', ho', hid'⟩ := h.named rd m hrd rfl _ hb
    obtain rfl := Option.some.inj (ho.symm.trans ho')
    exact Option.some.inj (hid.symm.trans (hname ▸ hid'))

/-- What was listed at the call is listed at the return, or was being added. -/
theorem listed {id : Nat} (hlisted : s₀.Listed q id) :
    s.Listed q id ∨ ∃ m name, s₀.Holds (.registered m name) id := by
  cases q with
  | registry r =>
    obtain ⟨p, hp, huses, hid⟩ := hlisted
    have hsettled : p.settled = true → s.Listed (.registry r) id := by
      intro hsettled
      obtain ⟨p', hp', huses', hid'⟩ := h.settled r p id rfl hsettled huses hid
      refine ⟨p', ?_, huses', hid'⟩
      cases p' with
      | entry m name => rfl
      | stopping m => rfl
      | _ => cases hp'
    cases p with
    | reserved m name => cases hp
    | registered m name => exact .inr ⟨m, name, hid⟩
    | entry m name => exact .inl (hsettled rfl)
    | stopping m => exact .inl (hsettled rfl)
  | manager m =>
    obtain ⟨name, hid⟩ := hlisted
    exact .inl ⟨name, h.entries m name id rfl hid⟩

/-- What was entered when nothing was on its way is listed at the return. -/
theorem listed_of_entries {id : Nat} (hid : s₀.Entries q id) : s.Listed q id := by
  cases q with
  | registry r =>
    obtain ⟨m, name, huses, hid⟩ := hid
    obtain ⟨p', hp', huses', hid'⟩ := h.settled r (.entry m name) id rfl rfl huses hid
    refine ⟨p', ?_, huses', hid'⟩
    cases p' with
    | entry m name => rfl
    | stopping m => rfl
    | _ => cases hp'
  | manager m =>
    obtain ⟨name, hid⟩ := hid
    exact ⟨name, h.entries m name id rfl hid⟩

end Managers.Calling

theorem nextId_le_of_run {s₀ : Managers} (run : Run (@RegistryStep Job debug) s₀ s) :
    run.Always fun u => u.nextId ≤ s.nextId := by
  induction run with
  | nil => exact le_rfl
  | snoc s run e t h ih => exact ⟨ih.mono fun _ hu => hu.trans h.onward.nextId, le_rfl⟩

theorem indexed_of_run (run : Run (@RegistryStep Job debug) .new s) (hspawns : s.nextId ≤ 2 ^ 64) :
    run.Always Managers.Indexed := by
  refine run.always_of_always (H := fun u => u.nextId ≤ 2 ^ 64) ⟨_, places_new⟩
    (fun u e v hstep _ hv hu => ?_) ((nextId_le_of_run run).mono fun _ hu => hu.trans hspawns)
  obtain ⟨place, hplace⟩ := hu
  obtain ⟨place', hplace', -⟩ := hstep.places hplace hv
  exact ⟨place', hplace'⟩

/-- What a call has read, the cell was at some moment of it. -/
theorem sometime_of_seen {q : Reader} {s₀ s₁ : Managers} {ids : List Nat}
    (hstart : s₁.readings q = some ⟨ids, []⟩) (during : Run (@RegistryStep Job debug) s₁ s)
    (hheld : during.Always fun u => u.readings q ≠ none)
    (hcalling : during.Always fun u => u.Calling q s₀) {rd : Reading}
    (hrd : s.readings q = some rd) {status : ControllerStatus} (hstatus : status ∈ rd.seen) :
    during.Sometime fun u => u.snapshot status.id = some status := by
  induction during generalizing rd with
  | nil =>
    cases hstart.symm.trans hrd
    cases hstatus
  | snoc s run e t h ih =>
    have hlive := hheld.1.last
    have hlive' := hheld.2
    rcases h.onward.readings q with hreads | hsame
    · cases e with
      | lock q' =>
        obtain rfl : q' = q := hreads
        cases q' with
        | registry r =>
          obtain ⟨ids', hnone, -⟩ := h
          exact absurd hnone hlive
        | manager m =>
          obtain ⟨o, ids', -, hfree, -⟩ := h
          exact absurd hfree.2 hlive
      | read q' =>
        obtain rfl : q' = q := hreads
        obtain ⟨id, rest, seen, hbefore, rfl⟩ := h
        have hafter := (setReading_readings q' q' (some ⟨rest, seen ++ (s.upgrade id).toList⟩)
          (s := s)).trans (if_pos rfl)
        obtain rfl := Option.some.inj (hafter.symm.trans hrd)
        rcases List.mem_append.mp hstatus with hstatus | hstatus
        · exact .inl (ih hheld.1 hcalling.1 hbefore hstatus)
        · -- It was read in the last state but one.
          have hsnapshot := snapshot_of_upgrade (Option.mem_toList.mp hstatus)
          obtain ⟨place, hplace⟩ := hcalling.1.last.indexed
          obtain rfl := hplace.snapshot_id hsnapshot
          exact .inl (run.sometime_of_last hsnapshot)
      | statuses q' answer =>
        obtain rfl : q' = q := hreads
        obtain ⟨seen, -, -, rfl⟩ := h
        exact absurd ((setReading_readings q' q' none).trans (if_pos rfl)) hlive'
      | _ => exact hreads.elim
    · exact .inl (ih hheld.1 hcalling.1 (hsame.symm.trans hrd) hstatus)

theorem exists_start {q : Reader} (h : @RegistryStep Job debug s (.lock q) t) :
    ∃ ids, t.readings q = some ⟨ids, []⟩ := by
  cases q with
  | registry r =>
    obtain ⟨ids, -, -, rfl⟩ := h
    exact ⟨ids, (setReading_readings _ _ _).trans (if_pos rfl)⟩
  | manager m =>
    obtain ⟨o, ids, -, -, -, rfl⟩ := h
    exact ⟨ids, (setReading_readings _ _ _).trans (if_pos rfl)⟩

/-- **Registry.**  However the calls on managers that share registries interleave with each other
    and with the runners, whatever panics and whenever a manager is dropped, no id is at two
    places while fewer than `2 ^ 64` controllers were spawned.  A call of `statuses` goes through
    the cells while others take their steps, and answers in order, each controller once, with a
    status that it had during the call: of no controller that was not there at the call, and of
    all that are there at the return, where those missing were being added at the call.  When no
    other call was on its way, these are the entries; and a manager answers each under its name. -/
theorem registry_exact {s₀ s₁ s₂ s₃ : Managers} {q : Reader} {answer : List ControllerStatus}
    (before : Run (@RegistryStep Job debug) .new s₀)
    (hlock : @RegistryStep Job debug s₀ (.lock q) s₁)
    (during : Run (@RegistryStep Job debug) s₁ s₂)
    (hheld : during.Always fun s => s.readings q ≠ none)
    (hdone : @RegistryStep Job debug s₂ (.statuses q answer) s₃)
    (hspawns : s₂.nextId ≤ 2 ^ 64) :
    before.Always Managers.Indexed ∧ during.Always Managers.Indexed ∧ q.Sorted answer ∧
      (∀ status ∈ answer, s₀.Listed q status.id ∧
        during.Sometime fun s => s.snapshot status.id = some status) ∧
      (∀ id, s₂.Listed q id → ∃ status ∈ answer, status.id = id) ∧
      (∀ id, s₀.Listed q id → s₂.Listed q id ∨ ∃ m name, s₀.Holds (.registered m name) id) ∧
      (s₀.Quiet q → ∀ id, (∃ status ∈ answer, status.id = id) ↔ s₀.Entries q id) ∧
      ∀ m, q = .manager m → ∀ status ∈ answer, s₀.Holds (.entry m status.name) status.id := by
  have hspawns' := (nextId_le_of_run during).mono fun _ hu => hu.trans hspawns
  have hspawned : s₀.nextId ≤ 2 ^ 64 :=
    hlock.onward.nextId.trans ((nextId_le_of_run during).first.trans hspawns)
  have hindexed := indexed_of_run before hspawned
  obtain ⟨place, hplace⟩ := hindexed.last
  have hcalling : during.Always fun s => s.Calling q s₀ :=
    during.always_of_always (H := fun s => s.readings q ≠ none ∧ s.nextId ≤ 2 ^ 64)
      (J := fun s => s.Calling q s₀) (hlock.calling hplace)
      (fun u e v hstep hu hv h => h.step hstep hv.2 hu.1 hv.1) (hheld.and hspawns')
  obtain ⟨ids, hstart⟩ := exists_start hlock
  obtain ⟨seen, hrd, rfl, -⟩ := hdone
  have hlast := hcalling.last
  have hmem : ∀ id, (∃ status ∈ q.sort seen, status.id = id) ↔
      id ∈ Managers.ids ⟨[], seen⟩ := by
    intro id
    rw [Managers.ids, List.append_nil, List.mem_map]
    exact exists_congr fun status => and_congr_left fun _ => q.mem_sort seen status
  have hback : ∀ id, id ∈ Managers.ids ⟨[], seen⟩ → s₀.Listed q id :=
    (hlast.within _ hrd).2
  refine ⟨hindexed, hcalling.mono fun _ h => h.indexed, hlast.sorted hrd ⟨place, hplace⟩,
    fun status hstatus => ⟨?_, ?_⟩, fun id hid => (hmem id).mpr (hlast.complete _ hrd id hid),
    fun id hid => hlast.listed hid, fun hquiet id => ?_, fun m hq status hstatus => ?_⟩
  · exact hback _ ((hmem status.id).mp ⟨status, hstatus, rfl⟩)
  · exact sometime_of_seen hstart during hheld hcalling hrd ((q.mem_sort seen status).mp hstatus)
  · rw [hmem id, ← hquiet.listed_iff id]
    refine ⟨hback id, fun hid => hlast.complete _ hrd id ?_⟩
    exact hlast.listed_of_entries ((hquiet.listed_iff id).mp hid)
  · exact hlast.named _ m hrd hq status ((q.mem_sort seen status).mp hstatus)

/-- A controller is entered, and its runner records a run while the registry is read. -/
theorem registry_exact_one : ∃ (s : Managers) (status : ControllerStatus),
    s.Entries (.registry 0) 1 ∧ status.id = 1 ∧ status.successCount = 1 ∧
      (Reader.registry 0).Sorted [status] ∧
      ∀ id, s.Entries (.registry 0) id → ∃ status' ∈ [status], status'.id = id := by
  let spec : Spec Unit := { job := (), backoff := .none }
  let o : Owner := { registry := 0, maxInterval := none }
  let c : StatusCell := ⟨.new "gc" 1 spec, true, false⟩
  let status : ControllerStatus :=
    { c.status with lastDuration := some .zero, successCount := 1, lastSuccess := some 9 }
  let s₁ := Managers.new.setOwner 0 o
  let s₂ : Managers :=
    { (s₁.setOwner 0 { o with adding := some ⟨"gc", 1, .reserved⟩ }).setCell 1 c with nextId := 2 }
  let s₃ := (s₂.setOwner 0 { o with adding := some ⟨"gc", 1, .registered⟩ }).setRegistry 0 [1]
  let s₄ := (s₃.setOwner 0 { o with adding := some ⟨"gc", 1, .spawned⟩ }).setCell 1
    { c with runner := true }
  let s₅ := s₄.setOwner 0 { o with entries := (∅ : HashMap String Nat).insert "gc" 1 }
  let s₆ := (s₅.setRegistry 0 [1]).setReading (.registry 0) (some ⟨[1], []⟩)
  let s₇ := s₆.setCell 1 ⟨status, true, true⟩
  let s₈ := s₇.setReading (.registry 0) (some ⟨[], [status]⟩)
  have before : Run (@RegistryStep Unit fun _ => "") .new s₅ :=
    .snoc s₄ (.snoc s₃ (.snoc s₂ (.snoc s₁ (.snoc .new .nil
      (.build 0 0 none) s₁ ⟨rfl, rfl⟩)
      (.reserve 0 "gc" spec) s₂ ⟨o, rfl, ⟨rfl, rfl⟩, rfl, rfl⟩)
      (.register 0) s₃ ⟨_, "gc", 1, rfl, rfl, rfl, rfl⟩)
      (.spawn 0) s₄ ⟨_, "gc", 1, c, rfl, rfl, rfl, rfl⟩)
      (.enter 0) s₅ ⟨_, "gc", 1, rfl, rfl, rfl⟩
  have hlock : @RegistryStep Unit (fun _ => "") s₅ (.lock (.registry 0)) s₆ :=
    ⟨[1], rfl, .refl _, rfl⟩
  have hrecord : @RegistryStep Unit (fun _ => "") s₆ (.record 1) s₇ :=
    ⟨_, status, rfl, rfl, .inl ⟨.ok .continue, .zero, 9, rfl⟩, rfl⟩
  have hread : @RegistryStep Unit (fun _ => "") s₇ (.read (.registry 0)) s₈ :=
    ⟨1, [], [], rfl, rfl⟩
  let during : Run (@RegistryStep Unit fun _ => "") s₆ s₈ :=
    .snoc s₇ (.snoc s₆ .nil _ s₇ hrecord) _ s₈ hread
  have hdone : @RegistryStep Unit (fun _ => "") s₈ (.statuses (.registry 0) [status])
      (s₈.setReading (.registry 0) none) :=
    ⟨[status], rfl, (List.mergeSort_singleton status).symm, rfl⟩
  have hheld : during.Always fun s => s.readings (.registry 0) ≠ none := by
    refine ⟨⟨?_, ?_⟩, ?_⟩
    · exact Option.some_ne_none _
    · exact Option.some_ne_none _
    · exact Option.some_ne_none _
  have hspawns : s₈.nextId ≤ 2 ^ 64 := by
    show 2 ≤ 2 ^ 64
    decide
  have hquiet : s₅.Quiet (.registry 0) := by
    intro m o' ho' _
    have hnone : m ≠ 0 → s₅.managers m = none := by
      intro hm
      simp only [s₅, s₄, s₃, s₂, s₁, setOwner, setCell, setRegistry, new,
        KeyMap.insert_of_ne _ _ hm]
      rfl
    by_cases hm : m = 0
    · subst hm
      obtain rfl := Option.some.inj ho'
      exact ⟨rfl, rfl⟩
    · cases (hnone hm).symm.trans ho'
  obtain ⟨-, -, hsorted, -, -, -, hentries, -⟩ :=
    registry_exact before hlock during hheld hdone hspawns
  exact ⟨s₅, status, ⟨0, "gc", ⟨_, rfl, rfl⟩, _, rfl, rfl⟩, rfl, rfl, hsorted,
    fun id hid => (hentries hquiet id).mpr hid⟩

end Sarena.Controllers
