import Mathlib.Algebra.Order.Ring.Nat
import Mathlib.Data.Nat.Count

namespace Sarena.Lib

/-!
# Library — shares of a weighted list

The weights of a list, laid end to end, cut the numbers below their sum into one interval for
each position: its share.  A walk down the list with a number, less each weight that it
passes, ends at the position whose share holds the number.

* `Share ws i t` — the number `t` lies in the share of position `i`;
* `existsUnique_share` — every number below the sum lies in exactly one share;
* `count_share` — a share holds as many numbers as its weight;
* `weightedPick` — the walk; `weightedPick_of_share` — where it ends;
* `count_weightedPick` — for how many numbers it ends at a value.
-/

/-- The number lies in the share of the position: the weights before the position come to at
    most the number, and with its own weight to more. -/
def Share (ws : List Nat) (i t : Nat) : Prop := (ws.take i).sum ≤ t ∧ t < (ws.take (i + 1)).sum

instance (ws : List Nat) (i t : Nat) : Decidable (Share ws i t) :=
  inferInstanceAs (Decidable (_ ∧ _))

variable {ws : List Nat} {w i t : Nat}

theorem not_share_nil : ¬ Share [] i t := by
  rw [Share, List.take_nil, List.take_nil]
  exact fun h => Nat.not_lt_zero t h.2

theorem share_zero : Share (w :: ws) 0 t ↔ t < w := by
  rw [Share, List.take_zero, List.take_succ_cons, List.take_zero, List.sum_cons, List.sum_nil]
  exact and_iff_right (Nat.zero_le t)

theorem share_succ : Share (w :: ws) (i + 1) t ↔ w ≤ t ∧ Share ws i (t - w) := by
  rw [Share, Share, List.take_succ_cons, List.take_succ_cons, List.sum_cons, List.sum_cons]
  omega

theorem Share.lt_length (h : Share ws i t) : i < ws.length := by
  induction ws generalizing i t with
  | nil => exact absurd h not_share_nil
  | cons w ws ih =>
    cases i with
    | zero => exact Nat.zero_lt_succ _
    | succ i => exact Nat.succ_lt_succ (ih (share_succ.mp h).2)

/-- **The shares cover the numbers below the sum**, and no two of them meet. -/
theorem existsUnique_share (h : t < ws.sum) : ∃! i, Share ws i t := by
  induction ws generalizing t with
  | nil => exact absurd h (Nat.not_lt_zero t)
  | cons w ws ih =>
    by_cases hlt : t < w
    · refine ⟨0, share_zero.mpr hlt, fun i hi => ?_⟩
      cases i with
      | zero => rfl
      | succ i => exact absurd (share_succ.mp hi).1 (Nat.not_le.mpr hlt)
    · have hle : w ≤ t := Nat.not_lt.mp hlt
      rw [List.sum_cons] at h
      obtain ⟨i, hi, hunique⟩ := ih (show t - w < ws.sum by omega)
      refine ⟨i + 1, share_succ.mpr ⟨hle, hi⟩, fun j hj => ?_⟩
      cases j with
      | zero => exact absurd (share_zero.mp hj) hlt
      | succ j => rw [hunique j (share_succ.mp hj).2]

/-- **A share holds as many numbers as its weight.** -/
theorem count_share (hi : i < ws.length) : Nat.count (Share ws i) ws.sum = ws[i] := by
  induction ws generalizing i with
  | nil => exact absurd hi (Nat.not_lt_zero i)
  | cons w ws ih =>
    rw [List.sum_cons, Nat.count_add]
    cases i with
    | zero =>
      have hown : Nat.count (Share (w :: ws) 0) w = w :=
        Nat.count_iff_forall.mpr fun t ht => share_zero.mpr ht
      have hrest : Nat.count (fun k => Share (w :: ws) 0 (w + k)) ws.sum = 0 :=
        Nat.count_iff_forall_not.mpr fun t _ ht =>
          Nat.not_lt.mpr (Nat.le_add_right w t) (share_zero.mp ht)
      rw [hown, hrest]
      rfl
    | succ i =>
      have hbefore : Nat.count (Share (w :: ws) (i + 1)) w = 0 :=
        Nat.count_iff_forall_not.mpr fun t ht h => Nat.not_le.mpr ht (share_succ.mp h).1
      have hshift : ∀ k, Share (w :: ws) (i + 1) (w + k) ↔ Share ws i k := by
        intro k
        rw [share_succ, Nat.add_sub_cancel_left]
        exact and_iff_right (Nat.le_add_right w k)
      simp only [hbefore, hshift, Nat.zero_add]
      exact ih (Nat.lt_of_succ_lt_succ hi)

/-! ### The walk -/

section

variable {α : Type} {weight : α → Nat}

/-- The walk down a list with a number, less each weight that it passes. -/
def weightedPick (weight : α → Nat) (t : Nat) : List α → Option α
  | [] => none
  | a :: rest => if t < weight a then some a else weightedPick weight (t - weight a) rest

/-- **The walk** ends at the position whose share holds the number. -/
theorem weightedPick_of_share {l : List α} (h : Share (l.map weight) i t) :
    weightedPick weight t l = l[i]? := by
  induction l generalizing i t with
  | nil => exact absurd h not_share_nil
  | cons a rest ih =>
    rw [List.map_cons] at h
    rw [weightedPick]
    cases i with
    | zero => rw [if_pos (share_zero.mp h), List.getElem?_cons_zero]
    | succ i =>
      obtain ⟨hle, hrest⟩ := share_succ.mp h
      rw [if_neg (Nat.not_lt.mpr hle), ih hrest, List.getElem?_cons_succ]

/-- For how many numbers the walk ends at a value: the weight of the value for each time that
    it is listed. -/
theorem count_weightedPick [DecidableEq α] (weight : α → Nat) (l : List α) (a : α) :
    Nat.count (fun t => weightedPick weight t l = some a) (l.map weight).sum =
      l.count a * weight a := by
  induction l with
  | nil => rw [List.count_nil, Nat.zero_mul, List.map_nil, List.sum_nil, Nat.count_zero]
  | cons b rest ih =>
    have hhead : ∀ t < weight b, weightedPick weight t (b :: rest) = some b := by
      intro t ht
      rw [weightedPick, if_pos ht]
    have htail : ∀ t, weightedPick weight (weight b + t) (b :: rest) =
        weightedPick weight t rest := by
      intro t
      rw [weightedPick, if_neg (Nat.not_lt.mpr (Nat.le_add_right _ t)), Nat.add_sub_cancel_left]
    rw [List.map_cons, List.sum_cons, Nat.count_add]
    simp only [htail, ih]
    by_cases hba : b = a
    · have hall : Nat.count (fun t => weightedPick weight t (b :: rest) = some a) (weight b) =
          weight b :=
        Nat.count_iff_forall.mpr fun t ht => (hhead t ht).trans (congrArg some hba)
      rw [hall, hba, List.count_cons_self, Nat.succ_mul, Nat.add_comm]
    · have hnone : Nat.count (fun t => weightedPick weight t (b :: rest) = some a) (weight b) = 0 :=
        Nat.count_iff_forall_not.mpr fun t ht h =>
          hba (Option.some.inj ((hhead t ht).symm.trans h))
      rw [hnone, List.count_cons_of_ne hba, Nat.zero_add]

end

end Sarena.Lib
