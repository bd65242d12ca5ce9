import Mathlib.Data.List.AList
import Mathlib.Logic.Function.Basic

namespace Sarena.Lib

/-!
# Library — maps

A hash map that is only looked up and updated, never listed, is the partial function it
denotes.  The operations are those of `HashMap`; each has the one lookup lemma that
later proofs rewrite with.  A hash map that is listed as well is an `AList`.
-/

variable {K V : Type*}

/-- A map from `K` to `V`. -/
abbrev KeyMap (K V : Type*) := K → Option V

namespace KeyMap

/-- `HashMap::new`. -/
def empty : KeyMap K V := fun _ => none

/-- `HashMap::retain`: keeps the entries that satisfy `keep`. -/
def retain (m : KeyMap K V) (keep : K → V → Bool) : KeyMap K V :=
  fun k => (m k).filter (keep k)

section

variable [DecidableEq K]

/-- `HashMap::insert`: the old value of the key, if any, is replaced. -/
def insert (m : KeyMap K V) (k : K) (v : V) : KeyMap K V := Function.update m k (some v)

/-- `HashMap::remove`. -/
def remove (m : KeyMap K V) (k : K) : KeyMap K V := Function.update m k none

/-- `if let Some(key) = key { map.insert(key, v) }`. -/
def insertIfSome (m : KeyMap K V) (k : Option K) (v : V) : KeyMap K V :=
  match k with
  | some k => m.insert k v
  | none => m

theorem insert_apply (m : KeyMap K V) (k : K) (v : V) (j : K) :
    m.insert k v j = if j = k then some v else m j := by
  rw [insert, Function.update_apply]

@[simp] theorem insert_self (m : KeyMap K V) (k : K) (v : V) : m.insert k v k = some v := by
  rw [insert_apply, if_pos rfl]

theorem insert_of_ne (m : KeyMap K V) (v : V) {j k : K} (h : j ≠ k) : m.insert k v j = m j := by
  rw [insert_apply, if_neg h]

@[simp] theorem insert_insert (m : KeyMap K V) (k : K) (v w : V) :
    (m.insert k v).insert k w = m.insert k w :=
  Function.update_idem _ _ _

@[simp] theorem remove_insert (m : KeyMap K V) (k : K) (v : V) :
    (m.insert k v).remove k = m.remove k :=
  Function.update_idem _ _ _

theorem remove_apply (m : KeyMap K V) (k j : K) :
    m.remove k j = if j = k then none else m j := by
  rw [remove, Function.update_apply]

@[simp] theorem remove_self (m : KeyMap K V) (k : K) : m.remove k k = none := by
  rw [remove_apply, if_pos rfl]

theorem remove_of_ne (m : KeyMap K V) {j k : K} (h : j ≠ k) : m.remove k j = m j := by
  rw [remove_apply, if_neg h]

/-- Removing a key that is not there. -/
theorem remove_eq_self {m : KeyMap K V} {k : K} (h : m k = none) : m.remove k = m := by
  rw [remove, ← h, Function.update_eq_self]

/-- An insertion and a removal cancel out when the key removed was not there, and the key
    inserted is removed again or had its value already. -/
theorem remove_insert_eq_iff (m : KeyMap K V) (k j : K) (v : V) :
    (m.insert k v).remove j = m ↔ m j = none ∧ (k = j ∨ m k = some v) := by
  constructor
  · intro h
    have hj := congrFun h j
    rw [remove_self] at hj
    refine ⟨hj.symm, ?_⟩
    by_cases hkj : k = j
    · exact .inl hkj
    · have hk := congrFun h k
      rw [remove_of_ne _ hkj, insert_self] at hk
      exact .inr hk.symm
  · rintro ⟨hj, rfl | hk⟩
    · rw [remove_insert, remove_eq_self hj]
    · have hsame : m.insert k v = m := by
        rw [insert, ← hk, Function.update_eq_self]
      rw [hsame, remove_eq_self hj]

theorem insertIfSome_apply (m : KeyMap K V) (k : Option K) (v : V) (j : K) :
    m.insertIfSome k v j = if k = some j then some v else m j := by
  cases k with
  | none => rfl
  | some k =>
    rw [insertIfSome, insert_apply]
    simp only [Option.some.injEq, eq_comm]

/-- Insertions of entries that a map agrees with. -/
theorem foldl_insert_of_agree {m : KeyMap K V} {entries : List (K × V)}
    (h : ∀ e ∈ entries, m e.1 = some e.2) (start : KeyMap K V) (k : K) :
    entries.foldl (fun m e => m.insert e.1 e.2) start k =
      if k ∈ entries.map Prod.fst then m k else start k := by
  induction entries generalizing start with
  | nil => rfl
  | cons e rest ih =>
    rw [List.foldl_cons, ih fun e' he' => h e' (List.mem_cons_of_mem e he'), List.map_cons]
    by_cases hrest : k ∈ rest.map Prod.fst
    · rw [if_pos hrest, if_pos (List.mem_cons_of_mem _ hrest)]
    · rw [if_neg hrest, insert_apply]
      by_cases hk : k = e.1
      · subst hk
        rw [if_pos rfl, if_pos List.mem_cons_self, h e List.mem_cons_self]
      · rw [if_neg hk, if_neg fun hmem => (List.mem_cons.mp hmem).elim hk hrest]

/-- The entries of a map, inserted in any order. -/
theorem foldl_insert_eq {m : KeyMap K V} {entries : List (K × V)}
    (h : ∀ k v, (k, v) ∈ entries ↔ m k = some v) :
    entries.foldl (fun m e => m.insert e.1 e.2) empty = m := by
  funext k
  rw [foldl_insert_of_agree fun e he => (h e.1 e.2).mp he]
  by_cases hk : k ∈ entries.map Prod.fst
  · rw [if_pos hk]
  · rw [if_neg hk]
    cases hm : m k with
    | none => rfl
    | some v => exact absurd (List.mem_map_of_mem ((h k v).mpr hm)) hk

end

@[simp] theorem empty_apply (k : K) : (empty : KeyMap K V) k = none := rfl

theorem retain_eq_some {m : KeyMap K V} {keep : K → V → Bool} {k : K} {v : V} :
    m.retain keep k = some v ↔ m k = some v ∧ keep k v = true := by
  rw [retain, Option.filter_eq_some_iff]

end KeyMap

/-! ### Maps that are listed -/

/-- A hash map that is gone through as well, in the order of its entries. -/
abbrev HashMap (K V : Type*) := AList fun _ : K => V

namespace HashMap

variable [DecidableEq K]

theorem lookup_insert_apply (m : HashMap K V) (k : K) (v : V) (j : K) :
    (m.insert k v).lookup j = if j = k then some v else m.lookup j := by
  by_cases h : j = k
  · rw [h, AList.lookup_insert, if_pos rfl]
  · rw [AList.lookup_insert_ne h, if_neg h]

theorem lookup_erase_apply (m : HashMap K V) (k : K) (j : K) :
    (m.erase k).lookup j = if j = k then none else m.lookup j := by
  split
  · next hjk => rw [hjk, AList.lookup_erase]
  · next hjk => exact AList.lookup_erase_ne hjk

/-- A loop that removes keys. -/
theorem lookup_foldl_erase (l : List K) (m : HashMap K V) (k : K) :
    (l.foldl (fun m j => m.erase j) m).lookup k = if k ∈ l then none else m.lookup k := by
  induction l generalizing m with
  | nil => rfl
  | cons j rest ih =>
    rw [List.foldl_cons, ih]
    by_cases hrest : k ∈ rest
    · rw [if_pos hrest, if_pos (List.mem_cons_of_mem j hrest)]
    · rw [if_neg hrest]
      rw [lookup_erase_apply]
      by_cases hj : k = j
      · rw [if_pos hj, if_pos (hj ▸ List.mem_cons_self)]
      · rw [if_neg hj, if_neg fun hk => (List.mem_cons.mp hk).elim hj hrest]

/-- `HashMap::values`. -/
def values (m : HashMap K V) : List V := m.entries.map (·.2)

theorem mem_values (m : HashMap K V) (v : V) : v ∈ m.values ↔ ∃ k, m.lookup k = some v := by
  rw [values, List.mem_map]
  constructor
  · rintro ⟨e, he, rfl⟩
    exact ⟨e.1, AList.mem_lookup_iff.mpr he⟩
  · rintro ⟨k, hk⟩
    exact ⟨⟨k, v⟩, AList.mem_lookup_iff.mp hk, rfl⟩

/-- The values are different where no value has two keys. -/
theorem nodup_values (m : HashMap K V)
    (h : ∀ k k' v, m.lookup k = some v → m.lookup k' = some v → k = k') : m.values.Nodup := by
  refine List.Nodup.map_on ?_ m.nodupKeys.nodup
  rintro ⟨k, v⟩ hk ⟨k', v'⟩ hk' rfl
  obtain rfl := h k k' v (AList.mem_lookup_iff.mpr hk) (AList.mem_lookup_iff.mpr hk')
  rfl

/-- A loop that inserts, for every item, the value of the item's key. -/
theorem lookup_foldl_insert {ι : Type*} (key : ι → K) (value : K → V) (l : List ι)
    (m : HashMap K V) (k : K) :
    (l.foldl (fun m i => m.insert (key i) (value (key i))) m).lookup k =
      if k ∈ l.map key then some (value k) else m.lookup k := by
  induction l generalizing m with
  | nil => rfl
  | cons i rest ih =>
    rw [List.foldl_cons, ih, List.map_cons]
    by_cases hrest : k ∈ rest.map key
    · rw [if_pos hrest, if_pos (List.mem_cons_of_mem _ hrest)]
    · rw [if_neg hrest]
      by_cases hk : k = key i
      · rw [hk, AList.lookup_insert, if_pos List.mem_cons_self]
      · rw [AList.lookup_insert_ne hk, if_neg]
        simp only [List.mem_cons, hk, hrest, or_self, not_false_eq_true]

end HashMap

end Sarena.Lib
