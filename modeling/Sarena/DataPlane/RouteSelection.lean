import Sarena.DataPlane.FramePanic
import Sarena.Lib.Shares

namespace Sarena.Soft

open Lib

/-!
# Soft data plane — the choice of a route in its group

`select_route` reduces the hash of a flow modulo the sum of the group's weights and walks
down the group, less each weight that it passes.  A weight of zero counts as one, in the sum
and in the walk.

* `RouteShare` — the residues between the prefix sums before and after a route;
* `pickRoute_eq` — the walk never goes below zero;
* `selectRoute_exact` — a residue yields the route whose share it lies in, so that a route is
  chosen for as many residues as its weight.
-/

variable {routes : List Route} {target i : Nat}

deriving instance DecidableEq for Route

/-- The residue lies between the sum of the weights before the route and the sum that its own
    weight is added to. -/
def RouteShare (routes : List Route) (i target : Nat) : Prop :=
  totalWeight (routes.take i) ≤ target ∧ target < totalWeight (routes.take (i + 1))

instance (routes : List Route) (i target : Nat) : Decidable (RouteShare routes i target) :=
  inferInstanceAs (Decidable (_ ∧ _))

theorem routeShare_iff :
    RouteShare routes i target ↔ Share (routes.map (·.effectiveWeight)) i target := by
  rw [Share, ← List.map_take, ← List.map_take]
  rfl

/-- **The walk** is the one of the library: what it subtracts, it has compared. -/
theorem pickRoute_eq (routes : List Route) (target : Nat) :
    pickRoute target routes = .ok (weightedPick (·.effectiveWeight) target routes) := by
  induction routes generalizing target with
  | nil => rfl
  | cons r rest ih =>
    rw [pickRoute, weightedPick]
    by_cases hlt : target < r.effectiveWeight
    · rw [if_pos hlt, if_pos hlt]
      rfl
    · rw [if_neg hlt, if_neg hlt, Checked.sub_ok (Nat.not_lt.mp hlt)]
      exact ih _

theorem existsUnique_routeShare (h : target < totalWeight routes) :
    ∃! i, RouteShare routes i target := by
  simp only [routeShare_iff]
  exact existsUnique_share h

/-- The residue picks the route whose share it lies in. -/
theorem pickRoute_of_share (h : RouteShare routes i target) :
    ∃ hi : i < routes.length, pickRoute target routes = .ok (some routes[i]) := by
  have hshare := routeShare_iff.mp h
  have hi : i < routes.length := by
    have hlt := hshare.lt_length
    rwa [List.length_map] at hlt
  refine ⟨hi, ?_⟩
  rw [pickRoute_eq, weightedPick_of_share hshare, List.getElem?_eq_getElem hi]

/-- Each route has as many residues as its weight, a weight of zero counted as one. -/
theorem count_routeShare (hi : i < routes.length) :
    Nat.count (RouteShare routes i) (totalWeight routes) = routes[i].effectiveWeight := by
  have hlen : i < (routes.map (·.effectiveWeight)).length := by rwa [List.length_map]
  have hcount := count_share hlen
  rw [List.getElem_map] at hcount
  rw [← hcount]
  exact Nat.le_antisymm (Nat.count_mono_left fun _ _ => routeShare_iff.mp)
    (Nat.count_mono_left fun _ _ => routeShare_iff.mpr)

/-- For how many residues a route is picked, which may be listed more than once. -/
theorem count_pickRoute (routes : List Route) (r : Route) :
    Nat.count (fun target => pickRoute target routes = .ok (some r)) (totalWeight routes) =
      routes.count r * r.effectiveWeight := by
  simp only [pickRoute_eq, Except.ok.injEq]
  exact count_weightedPick _ routes r

/-- A group whose weights can be summed is walked down with the residue of the hash, and the
    walk ends at one of its routes. -/
theorem selectRoute_eq (hlight : totalWeight routes < 2 ^ 32) (hash : FlowTuple → BitVec 64)
    (flow : FlowTuple) : selectRoute hash routes flow =
      pickRoute ((hash flow).toNat % totalWeight routes) routes := by
  cases routes with
  | nil => rfl
  | cons r rest =>
    have hpos : 0 < totalWeight (r :: rest) := by
      have hr := effectiveWeight_pos r
      have hcons : totalWeight (r :: rest) = r.effectiveWeight + totalWeight rest := rfl
      omega
    have hsum := exactly_sumWeights (r :: rest) 0 (Nat.two_pow_pos 32)
    rw [Nat.zero_add] at hsum
    obtain ⟨_, hsum, rfl⟩ := hsum.returns hlight
    have hrem : Checked.rem (hash flow).toNat (totalWeight (r :: rest)) =
        .ok ((hash flow).toNat % totalWeight (r :: rest)) := if_pos (Nat.ne_of_gt hpos)
    have hlt : (hash flow).toNat % totalWeight (r :: rest) < totalWeight (r :: rest) :=
      Nat.mod_lt _ hpos
    obtain ⟨i, hshare, -⟩ := existsUnique_routeShare hlt
    obtain ⟨hi, hpick⟩ := pickRoute_of_share hshare
    have hne : ¬ (r :: rest).isEmpty = true := Bool.false_ne_true
    rw [selectRoute, if_neg hne, hsum]
    show (Checked.rem _ _ >>= _) = _
    rw [hrem]
    show (pickRoute _ _ >>= _) = _
    rw [hpick]
    rfl

/-- **The weighted choice is exact.** Every residue below the sum of the weights lies in the
    share of one route, and the walk returns this route, without an underflow and without
    falling through.  So a route has as many residues as its weight, a weight of zero counted
    as one, and a route that is listed more than once has as many for each time.  The choice
    for a flow is the walk with the residue of its hash. -/
theorem selectRoute_exact (routes : List Route) (hlight : totalWeight routes < 2 ^ 32) :
    (∀ target < totalWeight routes, ∃! i, RouteShare routes i target) ∧
    (∀ i target, RouteShare routes i target →
      ∃ hi : i < routes.length, pickRoute target routes = .ok (some routes[i])) ∧
    (∀ i (hi : i < routes.length),
      Nat.count (RouteShare routes i) (totalWeight routes) = routes[i].effectiveWeight) ∧
    (∀ r, Nat.count (fun target => pickRoute target routes = .ok (some r)) (totalWeight routes) =
      routes.count r * r.effectiveWeight) ∧
    ∀ hash flow, selectRoute hash routes flow =
      pickRoute ((hash flow).toNat % totalWeight routes) routes := by
  refine ⟨fun target htarget => existsUnique_routeShare htarget,
    fun i target h => pickRoute_of_share h, fun i hi => count_routeShare hi,
    count_pickRoute routes, selectRoute_eq hlight⟩

/-- Two routes of weights 0 and 2: three residues. -/
def unevenRoutes : List Route :=
  [⟨.v4 0x0a000000 8, .local 1, 0⟩, ⟨.v4 0x0a000000 8, .remote 2, 2⟩]

theorem selectRoute_exact_unevenRoutes :
    (∃! i, RouteShare unevenRoutes i 1) ∧
      ∀ hash flow, selectRoute hash unevenRoutes flow =
        pickRoute ((hash flow).toNat % totalWeight unevenRoutes) unevenRoutes := by
  have h := selectRoute_exact unevenRoutes (by decide)
  exact ⟨h.1 1 (by decide), h.2.2.2.2⟩

end Sarena.Soft
