import Mathlib.Data.List.Induction
import Sarena.DataPlane.RouteTable

namespace Sarena.Soft

open Lib

/-!
# Soft data plane — looking up a route

`lookup_route` goes through the groups in the order of the hash map, which is unspecified, and
keeps the first group of the longest prefix.  `IpNet` keeps the host bits of an address, so
`10.0.0.1/24` and `10.0.0.2/24` are two destinations with one network, and two groups.

* `Longest` — a group of the longest prefix that contains an address;
* `bestGroup_cases`, `bestGroup_head` — the loop finds such a group, and whichever is first;
* `LongestMatch` — the lookup finds a route of the longest prefix, in any order of iteration;
* `Unambiguous`, `LightGroups` — the groups of the longest prefix are one group, and its
  weights can be summed;
* `lookupRoute_longest_iff` — in every run, this is exactly when the lookup is one;
  `spelledTwice_ambiguous` — a table of two routes for which it is not.
-/

variable {hash : FlowTuple → BitVec 64} {localNode : NodeId} {s t : State} {e : SoftEvent}
  {routes routes' : List (IpNet × List Route)} {d d' : IpNet} {group group' : List Route}
  {dst : IpAddr} {flow : FlowTuple}

/-! ### The best group -/

/-- A group of the longest prefix that contains the address. -/
structure Longest (routes : List (IpNet × List Route)) (dst : IpAddr) (d : IpNet)
    (group : List Route) : Prop where
  mem : (d, group) ∈ routes
  contains : d.contains dst = true
  longest : ∀ d' group', (d', group') ∈ routes → d'.contains dst = true →
    d'.prefixLen ≤ d.prefixLen

theorem Longest.perm (h : Longest routes dst d group) (hperm : routes'.Perm routes) :
    Longest routes' dst d group :=
  ⟨hperm.mem_iff.mpr h.mem, h.contains, fun d' group' hmem =>
    h.longest d' group' (hperm.mem_iff.mp hmem)⟩

/-- A round of the loop of `lookup_route`. -/
def better (dst : IpAddr) (best : Option (Nat × List Route)) (p : IpNet × List Route) :
    Option (Nat × List Route) :=
  if p.1.contains dst && best.all (fun b => Decidable.decide (b.1 < p.1.prefixLen)) then
    some (p.1.prefixLen, p.2)
  else best

theorem bestGroup_eq (routes : List (IpNet × List Route)) (dst : IpAddr) :
    bestGroup routes dst = routes.foldl (better dst) none := rfl

/-- A round keeps the best group, which is then as long as the group at hand if that one
    contains the address, or takes the group at hand, which is then longer. -/
theorem better_cases (dst : IpAddr) (best : Option (Nat × List Route)) (p : IpNet × List Route) :
    (better dst best p = best ∧
        (p.1.contains dst = true → ∃ b, best = some b ∧ p.1.prefixLen ≤ b.1)) ∨
      (better dst best p = some (p.1.prefixLen, p.2) ∧ p.1.contains dst = true ∧
        ∀ b, best = some b → b.1 < p.1.prefixLen) := by
  unfold better
  split
  next h =>
    rw [Bool.and_eq_true] at h
    refine .inr ⟨rfl, h.1, ?_⟩
    rintro b rfl
    simpa using h.2
  next h =>
    refine .inl ⟨rfl, fun hcontains => ?_⟩
    rw [hcontains, Bool.true_and] at h
    cases best with
    | none => exact absurd rfl h
    | some b =>
      rw [Option.all_some, decide_eq_true_iff] at h
      exact ⟨b, rfl, Nat.not_lt.mp h⟩

/-- What the loop finds is a group that contains the address. -/
theorem mem_of_bestGroup {b : Nat × List Route} (h : bestGroup routes dst = some b) :
    ∃ d, (d, b.2) ∈ routes ∧ d.contains dst = true ∧ b.1 = d.prefixLen := by
  induction routes using List.reverseRecOn with
  | nil => cases h
  | append_singleton routes p ih =>
    rw [bestGroup_eq, List.foldl_append, ← bestGroup_eq, List.foldl_cons, List.foldl_nil] at h
    obtain ⟨hkeep, -⟩ | ⟨htake, hcontains, -⟩ := better_cases dst (bestGroup routes dst) p
    · rw [hkeep] at h
      obtain ⟨d, hmem, hd⟩ := ih h
      exact ⟨d, List.mem_append_left _ hmem, hd⟩
    · rw [htake] at h
      obtain rfl := Option.some.inj h
      exact ⟨p.1, List.mem_append_right _ (List.mem_singleton_self _), hcontains, rfl⟩

/-- No group that contains the address is longer than what the loop finds. -/
theorem le_bestGroup (hmem : (d, group) ∈ routes) (hcontains : d.contains dst = true) :
    ∃ b, bestGroup routes dst = some b ∧ d.prefixLen ≤ b.1 := by
  induction routes using List.reverseRecOn with
  | nil => cases hmem
  | append_singleton routes p ih =>
    rw [bestGroup_eq, List.foldl_append, ← bestGroup_eq, List.foldl_cons, List.foldl_nil]
    obtain ⟨hkeep, hold⟩ | ⟨htake, -, hlonger⟩ := better_cases dst (bestGroup routes dst) p
    · rw [hkeep]
      rcases List.mem_append.mp hmem with hmem | hmem
      · exact ih hmem
      · obtain rfl := List.mem_singleton.mp hmem
        exact hold hcontains
    · rw [htake]
      refine ⟨_, rfl, ?_⟩
      rcases List.mem_append.mp hmem with hmem | hmem
      · obtain ⟨b, hb, hle⟩ := ih hmem
        exact Nat.le_trans hle (Nat.le_of_lt (hlonger b hb))
      · obtain rfl := List.mem_singleton.mp hmem
        exact Nat.le_refl _

/-- **The loop** finds a group of the longest prefix, or no prefix contains the address. -/
theorem bestGroup_cases (routes : List (IpNet × List Route)) (dst : IpAddr) :
    (bestGroup routes dst = none ∧ ∀ d group, (d, group) ∈ routes → d.contains dst = false) ∨
      ∃ d group, bestGroup routes dst = some (d.prefixLen, group) ∧
        Longest routes dst d group := by
  cases hbest : bestGroup routes dst with
  | none =>
    refine .inl ⟨rfl, fun d group hmem => ?_⟩
    rw [← Bool.not_eq_true]
    intro hcontains
    obtain ⟨b, hb, -⟩ := le_bestGroup hmem hcontains
    cases hbest.symm.trans hb
  | some b =>
    obtain ⟨d, hmem, hcontains, hlen⟩ := mem_of_bestGroup hbest
    refine .inr ⟨d, b.2, by rw [← hlen], ⟨hmem, hcontains, fun d' group' hmem' hcontains' => ?_⟩⟩
    obtain ⟨b', hb', hle⟩ := le_bestGroup hmem' hcontains'
    obtain rfl := Option.some.inj (hbest.symm.trans hb')
    rwa [← hlen]

/-- A best group that no group replaces is the result. -/
theorem foldl_better {best : Option (Nat × List Route)}
    (h : ∀ p ∈ routes, better dst best p = best) : routes.foldl (better dst) best = best := by
  induction routes with
  | nil => rfl
  | cons p rest ih =>
    rw [List.foldl_cons, h p List.mem_cons_self]
    exact ih fun q hq => h q (List.mem_cons_of_mem p hq)

/-- A group of the longest prefix is found when it comes first. -/
theorem bestGroup_head (h : Longest ((d, group) :: routes) dst d group) :
    bestGroup ((d, group) :: routes) dst = some (d.prefixLen, group) := by
  have hstart : better dst none (d, group) = some (d.prefixLen, group) := by
    rw [better, if_pos]
    exact h.contains.symm ▸ rfl
  have hkeep : ∀ p ∈ routes, better dst (some (d.prefixLen, group)) p =
      some (d.prefixLen, group) := by
    intro p hp
    obtain ⟨hkeep, -⟩ | ⟨-, hcontains, hlonger⟩ :=
      better_cases dst (some (d.prefixLen, group)) p
    · exact hkeep
    · have hle := h.longest p.1 p.2 (List.mem_cons_of_mem _ hp) hcontains
      exact absurd (hlonger _ rfl) (Nat.not_lt.mpr hle)
  rw [bestGroup_eq, List.foldl_cons, hstart]
  exact foldl_better hkeep

/-- Every group of the longest prefix is found in some order. -/
theorem exists_perm_bestGroup (h : Longest routes dst d group) :
    ∃ routes', routes'.Perm routes ∧ bestGroup routes' dst = some (d.prefixLen, group) := by
  obtain ⟨front, back, rfl⟩ := List.append_of_mem h.mem
  have hperm : ((d, group) :: (front ++ back)).Perm (front ++ (d, group) :: back) :=
    List.perm_middle.symm
  exact ⟨_, hperm, bestGroup_head (h.perm hperm)⟩

/-! ### The route of a group -/

theorem mem_of_pickRoute {rs : List Route} {target : Nat} {r : Route}
    (h : pickRoute target rs = .ok (some r)) : r ∈ rs := by
  induction rs generalizing target with
  | nil => cases h
  | cons r' rest ih =>
    rw [pickRoute] at h
    split at h
    next =>
      cases h
      exact List.mem_cons_self
    next =>
      cases hsub : Checked.sub target r'.effectiveWeight with
      | error p =>
        rw [hsub] at h
        cases h
      | ok target' =>
        rw [hsub] at h
        exact List.mem_cons_of_mem _ (ih h)

/-- **The choice.** A group whose weights can be summed yields one of its routes. -/
theorem selectRoute_mem {rs : List Route} (hne : rs ≠ []) (hlight : totalWeight rs < 2 ^ 32)
    (hash : FlowTuple → BitVec 64) (flow : FlowTuple) :
    ∃ r ∈ rs, selectRoute hash rs flow = .ok (some r) := by
  have hsum := (exactly_sumWeights rs 0 (Nat.two_pow_pos 32)).returns (by omega)
  obtain ⟨_, hsum, rfl⟩ := hsum
  have hpos : 0 + totalWeight rs ≠ 0 := by
    obtain ⟨r, rest, rfl⟩ := List.exists_cons_of_ne_nil hne
    have hr := effectiveWeight_pos r
    have hcons : totalWeight (r :: rest) = r.effectiveWeight + totalWeight rest := rfl
    omega
  obtain ⟨target, hrem, -⟩ := (Checked.exactly_rem (hash flow).toNat _).returns hpos
  obtain ⟨picked, hpick, -⟩ := (exactly_pickRoute rs target).returns trivial
  have hselect : selectRoute hash rs flow = .ok (picked.or rs.getLast?) := by
    rw [selectRoute, if_neg (by simpa using hne), hsum]
    show (Checked.rem _ _ >>= _) = _
    rw [hrem]
    show (pickRoute target rs >>= _) = _
    rw [hpick]
    rfl
  cases picked with
  | some r => exact ⟨r, mem_of_pickRoute hpick, hselect⟩
  | none =>
    rw [hselect, List.getLast?_eq_some_getLast hne]
    exact ⟨_, List.getLast_mem hne, rfl⟩

/-! ### The lookup -/

/-- The lookup finds a route of the longest prefix that contains the address, nothing when no
    prefix does, and the same in every order of iteration. -/
structure LongestMatch (hash : FlowTuple → BitVec 64) (routes : List (IpNet × List Route))
    (dst : IpAddr) (flow : FlowTuple) : Prop where
  found : (∃ d group, (d, group) ∈ routes ∧ d.contains dst = true) →
    ∃ r d group, lookupRoute hash routes dst flow = .ok (some r) ∧
      Longest routes dst d group ∧ r ∈ group
  notFound : (∀ d group, (d, group) ∈ routes → d.contains dst = false) →
    lookupRoute hash routes dst flow = .ok none
  order : ∀ routes', routes'.Perm routes →
    lookupRoute hash routes' dst flow = lookupRoute hash routes dst flow

/-- The longest prefix that contains the address is one destination. -/
def Unambiguous (routes : List (IpNet × List Route)) (dst : IpAddr) : Prop :=
  ∀ d group d' group', Longest routes dst d group → Longest routes dst d' group' → d = d'

/-- The weights of the routes of the longest prefix can be summed. -/
def LightGroups (routes : List (IpNet × List Route)) (dst : IpAddr) : Prop :=
  ∀ d group, Longest routes dst d group → totalWeight group < 2 ^ 32

theorem lookupRoute_of_none (h : bestGroup routes dst = none) :
    lookupRoute hash routes dst flow = .ok none := by
  rw [lookupRoute, h]
  rfl

theorem lookupRoute_of_some {len : Nat} (h : bestGroup routes dst = some (len, group)) :
    lookupRoute hash routes dst flow = selectRoute hash group flow := by
  rw [lookupRoute, h]

/-- **Enough.** One destination of the longest prefix, whose weights can be summed. -/
theorem longestMatch_of_unambiguous (hs : TableSound routes) (hunique : Unambiguous routes dst)
    (hlight : LightGroups routes dst) : LongestMatch hash routes dst flow := by
  obtain ⟨hbest, hnone⟩ | ⟨d, group, hbest, hlongest⟩ := bestGroup_cases routes dst
  · refine ⟨?_, fun _ => lookupRoute_of_none hbest, fun routes' hperm => ?_⟩
    · rintro ⟨d, group, hmem, hcontains⟩
      rw [hnone d group hmem] at hcontains
      cases hcontains
    · rw [lookupRoute_of_none hbest]
      obtain ⟨hbest', -⟩ | ⟨d, group, -, hlongest⟩ := bestGroup_cases routes' dst
      · exact lookupRoute_of_none hbest'
      · have hcontains := hlongest.contains
        rw [hnone d group (hperm.mem_iff.mp hlongest.mem)] at hcontains
        cases hcontains
  · refine ⟨fun _ => ?_, fun hnone => ?_, fun routes' hperm => ?_⟩
    · obtain ⟨r, hr, hselect⟩ := selectRoute_mem (hs.nonempty d group hlongest.mem)
        (hlight d group hlongest) hash flow
      exact ⟨r, d, group, (lookupRoute_of_some hbest).trans hselect, hlongest, hr⟩
    · have hcontains := hlongest.contains
      rw [hnone d group hlongest.mem] at hcontains
      cases hcontains
    · obtain ⟨-, hnone⟩ | ⟨d', group', hbest', hlongest'⟩ := bestGroup_cases routes' dst
      · have hcontains := hlongest.contains
        rw [hnone d group (hperm.mem_iff.mpr hlongest.mem)] at hcontains
        cases hcontains
      · -- The group found in the other order is the same, as there is only one.
        have hold := hlongest'.perm hperm.symm
        obtain rfl := hunique d' group' d group hold hlongest
        obtain rfl := hs.group_unique hold.mem hlongest.mem
        rw [lookupRoute_of_some hbest, lookupRoute_of_some hbest']

/-- In some order the lookup is the choice from a given group of the longest prefix. -/
theorem LongestMatch.select (h : LongestMatch hash routes dst flow)
    (hlongest : Longest routes dst d group) :
    lookupRoute hash routes dst flow = selectRoute hash group flow := by
  obtain ⟨routes', hperm, hbest⟩ := exists_perm_bestGroup hlongest
  rw [← h.order routes' hperm, lookupRoute_of_some hbest]

/-- **Needed.** Two groups yield routes of two destinations. -/
theorem LongestMatch.iff_unambiguous (hs : TableSound routes) :
    LongestMatch hash routes dst flow ↔ Unambiguous routes dst ∧ LightGroups routes dst := by
  constructor
  · intro h
    have hreturns : ∀ d group, Longest routes dst d group →
        ∃ r, selectRoute hash group flow = .ok (some r) := by
      intro d group hlongest
      obtain ⟨r, -, -, hfound, -⟩ := h.found ⟨d, group, hlongest.mem, hlongest.contains⟩
      exact ⟨r, (h.select hlongest).symm.trans hfound⟩
    have hlight : LightGroups routes dst := by
      intro d group hlongest
      obtain ⟨r, hselect⟩ := hreturns d group hlongest
      exact (exactly_selectRoute group flow).cond _ hselect
    refine ⟨fun d group d' group' hlongest hlongest' => ?_, hlight⟩
    obtain ⟨r, hr, hselect⟩ := selectRoute_mem (hs.nonempty d group hlongest.mem)
      (hlight d group hlongest) hash flow
    obtain ⟨r', hr', hselect'⟩ := selectRoute_mem (hs.nonempty d' group' hlongest'.mem)
      (hlight d' group' hlongest') hash flow
    have hsame : selectRoute hash group flow = selectRoute hash group' flow :=
      (h.select hlongest).symm.trans (h.select hlongest')
    rw [hselect, hselect', Except.ok.injEq, Option.some.injEq] at hsame
    subst hsame
    rw [← hs.under d group r hlongest.mem hr, hs.under d' group' r hlongest'.mem hr']
  · rintro ⟨hunique, hlight⟩
    exact longestMatch_of_unambiguous hs hunique hlight

/-! ### Networks -/

/-- The two destinations are one network: they differ in their host bits at most. -/
def SameNetwork (d d' : IpNet) : Prop := d.network = d'.network ∧ d.prefixLen = d'.prefixLen

/-- The network of a block is that of every address in it. -/
theorem networkNat_of_contains (h : d.contains dst = true) :
    d.networkNat = dst.toU128 / 2 ^ d.hostBits * 2 ^ d.hostBits := by
  have hrange : d.networkNat ≤ dst.toU128 ∧ dst.toU128 ≤ d.broadcastNat := by
    unfold IpNet.contains at h
    split at h
    next => exact of_decide_eq_true h
    next => exact of_decide_eq_true h
    next => cases h
  have hpos : 0 < 2 ^ d.hostBits := Nat.two_pow_pos _
  have hnet : d.networkNat = d.addr.toU128 / 2 ^ d.hostBits * 2 ^ d.hostBits := by
    have hdiv := Nat.div_add_mod' d.addr.toU128 (2 ^ d.hostBits)
    rw [IpNet.networkNat]
    omega
  have hlast : d.broadcastNat = d.networkNat + (2 ^ d.hostBits - 1) := rfl
  have hquot : dst.toU128 / 2 ^ d.hostBits = d.addr.toU128 / 2 ^ d.hostBits := by
    refine Nat.div_eq_of_lt_le ?_ ?_
    · omega
    · rw [Nat.succ_mul]
      omega
  rw [hquot, hnet]

theorem sameNetwork_of_contains (h : d.contains dst = true) (h' : d'.contains dst = true)
    (hlen : d.prefixLen = d'.prefixLen) : SameNetwork d d' := by
  refine ⟨?_, hlen⟩
  have hnet := networkNat_of_contains h
  have hnet' := networkNat_of_contains h'
  cases dst with
  | v4 ip =>
    cases d with
    | v6 => cases h
    | v4 a len =>
      cases d' with
      | v6 => cases h'
      | v4 a' len' =>
        have hbits : (IpNet.v4 a len).hostBits = (IpNet.v4 a' len').hostBits :=
          congrArg (32 - ·) hlen
        show IpAddr.v4 (BitVec.ofNat 32 _) = IpAddr.v4 (BitVec.ofNat 32 _)
        rw [hnet, hnet', hbits]
  | v6 ip =>
    cases d with
    | v4 => cases h
    | v6 a len =>
      cases d' with
      | v4 => cases h'
      | v6 a' len' =>
        have hbits : (IpNet.v6 a len).hostBits = (IpNet.v6 a' len').hostBits :=
          congrArg (128 - ·) hlen
        show IpAddr.v6 (BitVec.ofNat 128 _) = IpAddr.v6 (BitVec.ofNat 128 _)
        rw [hnet, hnet', hbits]

/-! ### Runs -/

/-- Every network is stored under one destination, and every group can be chosen from. -/
structure Clean (routes : List (IpNet × List Route)) : Prop where
  once : ∀ d group d' group', (d, group) ∈ routes → (d', group') ∈ routes →
    SameNetwork d d' → d = d'
  light : ∀ d group, (d, group) ∈ routes → totalWeight group < 2 ^ 32

/-- A route that is added has the destination that its network is stored under, if it is
    stored, and its group can be chosen from with the route in it. -/
def CleanAdd (s : State) : SoftEvent → State → Prop
  | .addRoute route, _ =>
    (∀ d group, (d, group) ∈ s.routes → SameNetwork d route.destination →
      d = route.destination) ∧
    totalWeight (upsertRoute route (groupOf s.routes route.destination)) < 2 ^ 32
  | _, _ => True

theorem clean_nil : Clean [] where
  once _ _ _ _ hmem := absurd hmem List.not_mem_nil
  light _ _ hmem := absurd hmem List.not_mem_nil

theorem totalWeight_filter_le (p : Route → Bool) (rs : List Route) :
    totalWeight (rs.filter p) ≤ totalWeight rs := by
  induction rs with
  | nil => exact Nat.le_refl _
  | cons r rest ih =>
    have hcons : ∀ rs, totalWeight (r :: rs) = r.effectiveWeight + totalWeight rs := fun _ => rfl
    rw [List.filter_cons]
    split
    next =>
      rw [hcons, hcons]
      omega
    next =>
      rw [hcons]
      omega

/-- **Step.** -/
theorem Clean.step (h : Clean s.routes) (hstep : Step hash localNode s e t)
    (hadd : CleanAdd s e t) : Clean t.routes := by
  obtain ⟨routes, hperm, rfl⟩ := hstep
  suffices hnew : Clean (apply hash localNode s e).routes from
    ⟨fun d group d' group' hmem hmem' => hnew.once d group d' group' (hperm.mem_iff.mp hmem)
      (hperm.mem_iff.mp hmem'), fun d group hmem => hnew.light d group (hperm.mem_iff.mp hmem)⟩
  cases e with
  | addRoute route =>
    obtain ⟨honce, hlight⟩ := hadd
    refine ⟨fun d group d' group' hmem hmem' hsame => ?_, fun d group hmem => ?_⟩
    · rcases mem_addRoute.mp hmem with ⟨-, hold⟩ | hnew
      · rcases mem_addRoute.mp hmem' with ⟨-, hold'⟩ | hnew'
        · exact h.once d group d' group' hold hold' hsame
        · obtain ⟨rfl, -⟩ := Prod.mk.inj hnew'
          exact honce d group hold hsame
      · obtain ⟨rfl, -⟩ := Prod.mk.inj hnew
        rcases mem_addRoute.mp hmem' with ⟨-, hold'⟩ | hnew'
        · exact (honce d' group' hold' ⟨hsame.1.symm, hsame.2.symm⟩).symm
        · exact (congrArg Prod.fst hnew').symm
    · rcases mem_addRoute.mp hmem with ⟨-, hold⟩ | hnew
      · exact h.light d group hold
      · obtain ⟨rfl, rfl⟩ := Prod.mk.inj hnew
        exact hlight
  | removeRoute net nextHop =>
    -- A group that is left was there before, with these routes and maybe more.
    have hold : ∀ d group, (d, group) ∈ (removeRoute s net nextHop).routes →
        ∃ old, (d, old) ∈ s.routes ∧ totalWeight group ≤ totalWeight old := by
      intro d group hmem
      rcases mem_removeRoute.mp hmem with ⟨-, hold⟩ | ⟨rfl, -, old, hold, rfl⟩
      · exact ⟨group, hold, Nat.le_refl _⟩
      · exact ⟨old, hold, totalWeight_filter_le _ _⟩
    refine ⟨fun d group d' group' hmem hmem' hsame => ?_, fun d group hmem => ?_⟩
    · obtain ⟨old, hmem, -⟩ := hold d group hmem
      obtain ⟨old', hmem', -⟩ := hold d' group' hmem'
      exact h.once d old d' old' hmem hmem' hsame
    · obtain ⟨old, hmem, hle⟩ := hold d group hmem
      exact Nat.lt_of_le_of_lt hle (h.light d old hmem)
  | _ =>
    rw [apply_routes (fun _ h => by cases h) (fun _ _ h => by cases h)]
    exact h

/-- In a clean table, every lookup is one of the longest prefix. -/
theorem Clean.longestMatch (h : Clean routes) (hs : TableSound routes) :
    LongestMatch hash routes dst flow := by
  refine longestMatch_of_unambiguous hs (fun d group d' group' hlongest hlongest' => ?_)
    fun d group hlongest => h.light d group hlongest.mem
  have hlen : d.prefixLen = d'.prefixLen := Nat.le_antisymm
    (hlongest'.longest d group hlongest.mem hlongest.contains)
    (hlongest.longest d' group' hlongest'.mem hlongest'.contains)
  exact h.once d group d' group' hlongest.mem hlongest'.mem
    (sameNetwork_of_contains hlongest.contains hlongest'.contains hlen)

/-- **Looking up a route.** In every run, and for every address and flow: the lookup is one of
    the longest prefix, in any order of iteration, exactly when the destinations of the longest
    prefix that contains the address are one, and the weights of its routes can be summed.
    When every route is added under the destination that its network is stored under, and makes
    no group too heavy, it is so for every address and flow. -/
theorem lookupRoute_longest_iff (run : Run (Step hash localNode) State.default s) :
    (∀ dst flow, LongestMatch hash s.routes dst flow ↔
      Unambiguous s.routes dst ∧ LightGroups s.routes dst) ∧
    (run.EachStep CleanAdd → ∀ dst flow, LongestMatch hash s.routes dst flow) := by
  have hsound : TableSound s.routes := run.invariant (J := fun s => TableSound s.routes)
    tableSound_nil fun _ _ _ hstep hs => hs.step hstep
  refine ⟨fun dst flow => LongestMatch.iff_unambiguous hsound, fun hclean dst flow => ?_⟩
  have hinv := run.always_of_eachStep (J := fun s => Clean s.routes) clean_nil
    (fun _ _ _ hstep hadd hs => hs.step hstep hadd) hclean
  exact hinv.last.longestMatch hsound

/-! ### Two spellings of one network -/

/-- A route to 10.0.0.1/24 on one interface, then one to 10.0.0.2/24 on another. -/
def spelledOne : Route := ⟨.v4 0x0A000001 24, .local 1, 1⟩

def spelledTwo : Route := ⟨.v4 0x0A000002 24, .local 2, 1⟩

def spelledTwice : State := addRoute (addRoute State.default spelledOne) spelledTwo

/-- The table is reached by two calls, and which route an address of the network takes
    depends on the order of iteration. -/
theorem spelledTwice_ambiguous :
    Nonempty (Run (Step (fun _ => 0) 0) State.default spelledTwice) ∧
      ∃ dst flow, ¬ LongestMatch (fun _ => 0) spelledTwice.routes dst flow := by
  refine ⟨⟨.snoc _ (.snoc _ .nil (.addRoute spelledOne) _ (step_apply _ _ _ _))
    (.addRoute spelledTwo) _ (step_apply _ _ _ _)⟩, .v4 0x0A000005,
    ⟨.v4 0x0A000009, 1000, .v4 0x0A000005, 80, .tcp⟩, fun h => ?_⟩
  have horder := h.order [(spelledTwo.destination, [spelledTwo]),
    (spelledOne.destination, [spelledOne])] (.swap _ _ _)
  have hone : lookupRoute (fun _ => 0) spelledTwice.routes (.v4 0x0A000005)
      ⟨.v4 0x0A000009, 1000, .v4 0x0A000005, 80, .tcp⟩ = .ok (some spelledOne) := rfl
  have htwo : lookupRoute (fun _ => 0) [(spelledTwo.destination, [spelledTwo]),
      (spelledOne.destination, [spelledOne])] (.v4 0x0A000005)
      ⟨.v4 0x0A000009, 1000, .v4 0x0A000005, 80, .tcp⟩ = .ok (some spelledTwo) := rfl
  rw [hone, htwo, Except.ok.injEq, Option.some.injEq] at horder
  exact absurd (congrArg Route.nextHop horder) (by decide)

end Sarena.Soft
