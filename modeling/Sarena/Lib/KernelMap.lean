import Sarena.Lib.KeyMap
import Sarena.Lib.Prog

namespace Sarena.Lib

/-!
# Library — a map behind system calls

A hash map of the kernel is used from outside through calls that may fail.  The program that
uses it often keys it by a fixed-size encoding of its own keys.

* `MapOp`, `MapOp.sem` — the calls, and what they may answer and do;
* `Encoded enc m`, `view enc m` — every key of the map is an encoding, and the map seen through
  the encoding: the operations on the one are those on the other.
-/

/-- `MapError`: whether the key was not found, and the text it displays. -/
structure MapError where
  keyNotFound : Bool
  message : String
  deriving DecidableEq, Repr

/-- The calls on a hash map. -/
inductive MapOp (K V : Type) : Type → Type
  | insert (key : K) (value : V) : MapOp K V (Except MapError Unit)
  | remove (key : K) : MapOp K V (Except MapError Unit)
  | get (key : K) : MapOp K V (Except MapError V)
  | iter : MapOp K V (List (Except MapError (K × V)))

section

variable {K V : Type} [DecidableEq K]

/-- What a call may answer and leave behind: a call that fails changes nothing, a key that is
    not found is not there, and a listing without an error lists everything. -/
def MapOp.sem : Sem (MapOp K V) (KeyMap K V)
  | _, .insert key value, s, .ok (), t => t = s.insert key value
  | _, .insert _ _, s, .error _, t => t = s
  | _, .remove key, s, .ok (), t => t = s.remove key
  | _, .remove key, s, .error e, t => t = s ∧ (e.keyNotFound = true → s key = none)
  | _, .get key, s, .ok value, t => t = s ∧ s key = some value
  | _, .get key, s, .error e, t => t = s ∧ (e.keyNotFound = true → s key = none)
  | _, .iter, s, items, t => t = s ∧ (∀ key value, .ok (key, value) ∈ items → s key = some value) ∧
    ((∀ e, .error e ∉ items) → ∀ key value, s key = some value → .ok (key, value) ∈ items)

end

/-! ### Encoded keys -/

variable {A K V : Type*} {enc : A → K} {m : KeyMap K V}

/-- Every key of the map is an encoding. -/
def Encoded (enc : A → K) (m : KeyMap K V) : Prop := ∀ key, m key ≠ none → ∃ a, enc a = key

/-- The map seen through the encoding. -/
def view (enc : A → K) (m : KeyMap K V) : KeyMap A V := fun a => m (enc a)

theorem encoded_empty : Encoded enc (KeyMap.empty : KeyMap K V) := fun _ h => absurd rfl h

variable [DecidableEq K]

theorem Encoded.insert (h : Encoded enc m) (a : A) (v : V) : Encoded enc (m.insert (enc a) v) := by
  intro key hkey
  rw [KeyMap.insert_apply] at hkey
  by_cases heq : key = enc a
  · exact ⟨a, heq.symm⟩
  · rw [if_neg heq] at hkey
    exact h key hkey

theorem Encoded.remove (h : Encoded enc m) (key : K) : Encoded enc (m.remove key) := by
  intro j hj
  rw [KeyMap.remove_apply] at hj
  by_cases heq : j = key
  · rw [if_pos heq] at hj
    exact absurd rfl hj
  · rw [if_neg heq] at hj
    exact h j hj

variable [DecidableEq A]

theorem view_insert (henc : Function.Injective enc) (a : A) (v : V) :
    view enc (m.insert (enc a) v) = (view enc m).insert a v := by
  funext j
  rw [view, KeyMap.insert_apply, KeyMap.insert_apply]
  simp only [henc.eq_iff]
  rfl

theorem view_remove (henc : Function.Injective enc) (a : A) :
    view enc (m.remove (enc a)) = (view enc m).remove a := by
  funext j
  rw [view, KeyMap.remove_apply, KeyMap.remove_apply]
  simp only [henc.eq_iff]
  rfl

/-- Insertions one after the other, seen through the encoding. -/
theorem view_foldl_insert (henc : Function.Injective enc) (keys : List A) (v : V) :
    view enc (keys.foldl (fun m a => m.insert (enc a) v) m) =
      keys.foldl (fun m a => m.insert a v) (view enc m) := by
  induction keys generalizing m with
  | nil => rfl
  | cons a rest ih => rw [List.foldl_cons, List.foldl_cons, ih, view_insert henc]

/-- Removals one after the other, seen through the encoding. -/
theorem view_foldl_remove (henc : Function.Injective enc) (keys : List A) :
    view enc (keys.foldl (fun m a => m.remove (enc a)) m) =
      keys.foldl (fun m a => m.remove a) (view enc m) := by
  induction keys generalizing m with
  | nil => rfl
  | cons a rest ih => rw [List.foldl_cons, List.foldl_cons, ih, view_remove henc]

end Sarena.Lib
