import Sarena.DataPlane.Conntrack
import Sarena.DataPlane.Rewrite

namespace Sarena.Soft

open Lib

/-!
# Soft data plane — which frames panic

A frame is any list of bytes, the tables are any tables.  Parsing never panics, so what is
left is rewriting, where a truncated TCP or UDP segment has no room for its ports or its
checksum, and the sum of the route weights, which is a `u32`.

* `LightRoute`, `exactly_forward` — forwarding panics only on a route group whose weights
  overflow;
* `Fits`, `decide_completes_iff` — the exact condition for a frame to be processed;
* `truncated_request_panics` — a request of 40 bytes that panics.
-/

variable {hash : FlowTuple → BitVec 64} {localNode : NodeId} {s : State} {frame : Frame}

/-! ### Forwarding -/

/-- The sum of the weights of a group, without a bound. -/
def totalWeight (routes : List Route) : Nat := (routes.map (·.effectiveWeight)).sum

theorem exactly_sumWeights (routes : List Route) (sum : Nat) (h : sum < 2 ^ 32) :
    Checked.Exactly (sumWeights sum routes) (sum + totalWeight routes < 2 ^ 32)
      (· = sum + totalWeight routes) := by
  induction routes generalizing sum with
  | nil => exact (Checked.exactly_pure sum).mono (iff_of_true trivial h) fun _ h => h
  | cons r rest ih =>
    have hcons : totalWeight (r :: rest) = r.effectiveWeight + totalWeight rest := rfl
    rw [hcons, ← Nat.add_assoc, sumWeights]
    have hcond : sum + r.effectiveWeight < 2 ^ 32 ∧
        sum + r.effectiveWeight + totalWeight rest < 2 ^ 32 ↔
          sum + r.effectiveWeight + totalWeight rest < 2 ^ 32 := by omega
    refine Checked.Exactly.mono ?_ hcond fun _ h => h
    apply (Checked.exactly_addU32 _ _).bind
    rintro hsum _ rfl
    exact ih _ hsum

theorem effectiveWeight_pos (r : Route) : 0 < r.effectiveWeight :=
  Nat.lt_of_lt_of_le Nat.one_pos (Nat.le_max_right _ _)

/-- The target never goes below zero. -/
theorem exactly_pickRoute (routes : List Route) (target : Nat) :
    Checked.Exactly (pickRoute target routes) True fun _ => True := by
  induction routes generalizing target with
  | nil => exact (Checked.exactly_pure _).mono Iff.rfl fun _ _ => trivial
  | cons r rest ih =>
    rw [pickRoute]
    split_ifs with hlt
    · exact (Checked.exactly_pure _).mono Iff.rfl fun _ _ => trivial
    · have hle : r.effectiveWeight ≤ target := Nat.not_lt.mp hlt
      have hsub : Checked.Exactly (Checked.sub target r.effectiveWeight) True fun _ => True :=
        (Checked.exactly_sub _ _).mono (iff_of_true hle trivial) fun _ _ => trivial
      apply hsub.bind_of_true
      intro target' _
      exact ih target'

theorem exactly_selectRoute (routes : List Route) (flow : FlowTuple) :
    Checked.Exactly (selectRoute hash routes flow) (totalWeight routes < 2 ^ 32)
      fun _ => True := by
  rw [selectRoute]
  cases routes with
  | nil =>
    have hzero : totalWeight [] < 2 ^ 32 := Nat.two_pow_pos 32
    exact (Checked.exactly_pure _).mono (iff_of_true trivial hzero) fun _ _ => trivial
  | cons r rest =>
    rw [if_neg nofun]
    have hsum := exactly_sumWeights (r :: rest) 0 (Nat.two_pow_pos 32)
    rw [Nat.zero_add] at hsum
    apply hsum.bind_true
    rintro - _ rfl
    have hpos : totalWeight (r :: rest) ≠ 0 := by
      have := effectiveWeight_pos r
      have hcons : totalWeight (r :: rest) = r.effectiveWeight + totalWeight rest := rfl
      omega
    have hrem : Checked.Exactly (Checked.rem (hash flow).toNat (totalWeight (r :: rest))) True
        fun _ => True :=
      (Checked.exactly_rem _ _).mono (iff_of_true hpos trivial) fun _ _ => trivial
    apply hrem.bind_of_true
    intro target _
    apply (exactly_pickRoute _ target).bind_of_true
    intro picked _
    exact (Checked.exactly_pure _).mono Iff.rfl fun _ _ => trivial

/-- The group of routes that a destination selects has a sum of weights in range. -/
def LightRoute (s : State) (dst : Ipv4Addr) : Prop :=
  ∀ len group, bestGroup s.routes (.v4 dst) = some (len, group) → totalWeight group < 2 ^ 32

theorem exactly_lookupRoute (dst : Ipv4Addr) (flow : FlowTuple) :
    Checked.Exactly (lookupRoute hash s.routes (.v4 dst) flow) (LightRoute s dst)
      fun _ => True := by
  rw [lookupRoute]
  cases hbest : bestGroup s.routes (.v4 dst) with
  | none =>
    refine (Checked.exactly_pure _).mono (iff_of_true trivial fun _ _ h => ?_) fun _ _ => trivial
    cases hbest.symm.trans h
  | some best =>
    obtain ⟨len, group⟩ := best
    refine (exactly_selectRoute group flow).mono ⟨fun hlight _ _ h => ?_, fun h => h _ _ hbest⟩
      fun _ h => h
    cases hbest.symm.trans h
    exact hlight

/-- The frame that a decision sends on. -/
def Decision.frame? : Decision → Option Frame
  | .deliver _ frame => some frame
  | .encapsulate _ _ frame => some frame
  | .drop => none

/-- **Forwarding** panics exactly when the route group of the destination is too heavy, and
    changes nothing but the destination MAC of a frame that it sends on. -/
theorem exactly_forward (hash : FlowTuple → BitVec 64) (localNode : NodeId) (s : State)
    (frame : Frame) :
    Checked.Exactly (forward hash localNode s frame)
      (IsIpv4 frame → LightRoute s (addrAt frame 30))
      fun d => ∀ out ∈ d.frame?, AgreesOutside 0 6 frame out := by
  have hdrop : Checked.Exactly (pure Decision.drop) True
      fun d => ∀ out ∈ d.frame?, AgreesOutside 0 6 frame out := by
    refine (Checked.exactly_pure _).mono Iff.rfl ?_
    rintro _ rfl out ⟨⟩
  have hsame : ∀ d : Decision, d.frame? = some frame → Checked.Exactly (pure d) True
      fun d => ∀ out ∈ d.frame?, AgreesOutside 0 6 frame out := by
    refine fun d hd => (Checked.exactly_pure _).mono Iff.rfl ?_
    rintro _ rfl out hout
    obtain rfl : frame = out := Option.some.inj (hd.symm.trans hout)
    exact .refl _ _ _
  rw [forward, parseIpv4_eq]
  by_cases hip : IsIpv4 frame
  · rw [if_pos hip]
    refine Checked.Exactly.mono ?_ (imp_iff_right hip).symm fun _ h => h
    show Checked.Exactly (flowOf frame (ipv4Of frame) _ >>= _) _ _
    rw [flowOf_eq]
    show Checked.Exactly (lookupRoute hash s.routes (.v4 (addrAt frame 30)) _ >>= _) _ _
    apply (exactly_lookupRoute _ _).bind_true
    rintro - route? -
    cases route? with
    | none => exact hdrop
    | some route =>
      dsimp only
      cases route.nextHop with
      | «local» ifaceId =>
        dsimp only
        cases (s.interfaces ifaceId).bind (·.mac) with
        | none => exact hsame _ rfl
        | some mac =>
          have hlen : 6 ≤ frame.length := by
            have := hip.1
            omega
          have hmac : 0 + (mac.octets.toList.map (·.toBitVec)).length = 6 := by simp
          have hcopy := (Bytes.exactly_copyFromSlice frame _ 0 6 hmac).mono
            (iff_of_true hlen trivial) fun _ h => h
          apply hcopy.bind_of_true
          rintro out rfl
          refine (Checked.exactly_pure _).mono Iff.rfl ?_
          rintro _ rfl out ⟨⟩
          exact .patch (by omega) le_rfl (le_of_eq hmac)
      | remote nodeId =>
        dsimp only
        cases s.tunnels (localNode, nodeId) with
        | none => exact hdrop
        | some tunnel => exact hsame _ rfl
      | gateway _ => exact hdrop
      | blackhole => exact hdrop
  · rw [if_neg hip]
    exact hdrop.mono (iff_of_true trivial fun h => absurd h hip) fun _ h => h

/-! ### Processing a frame -/

/-- The frame is long enough for the translation that the tables give it: a reply for the
    frontend of its flow, a request for the backend of its service.  And the route group
    that the frame selects as it goes out is not too heavy. -/
structure Fits (hash : FlowTuple → BitVec 64) (now : Nat) (s : State) (frame : Frame) : Prop where
  source : ∀ wire original entry frontend, wireOf frame = some wire →
    s.conntrackReplyIndex wire = some original → s.conntrack.lookup original = some entry →
    entry.original.dst = .v4 frontend →
    L4Fits frame (ihlOf frame) (some entry.original.dstPort) none
  destination : ∀ wire address port, dnatOf hash s frame = some (wire, address, port) →
    L4Fits frame (ihlOf frame) none (some port)
  route : ∀ wire out, wireOf frame = some wire →
    rewritten frame (ihlOf frame) (translate hash now s wire).1 = .ok (some out) →
    IsIpv4 out → LightRoute s (addrAt out 30)

/-- Whether a translation fits a frame. -/
def RewriteFits (frame : Frame) : Translation → Prop
  | .keep => True
  | .source _ port => L4Fits frame (ihlOf frame) (some port) none
  | .destination _ port => L4Fits frame (ihlOf frame) none (some port)
  | .drop => True

theorem exactly_rewritten (hip : IsIpv4 frame) (translation : Translation) :
    Checked.Exactly (rewritten frame (ihlOf frame) translation) (RewriteFits frame translation)
      fun _ => True := by
  have hzero : ihlOf frame = 0 ∨ 4 ≤ ihlOf frame := by
    rw [ihlOf]
    omega
  have hmap : ∀ a b c d, Checked.Exactly
      (some <$> rewriteIpv4 frame (ihlOf frame) a b c d) (L4Fits frame (ihlOf frame) c d)
      fun _ => True := by
    intro a b c d
    have hrewrite := exactly_rewriteIpv4 a b c d hip.1 hip.2.2.2 (ihlOf_le frame) hzero
    rw [map_eq_pure_bind]
    apply hrewrite.bind_true
    intro _ _ _
    exact (Checked.exactly_pure _).mono Iff.rfl fun _ _ => trivial
  cases translation with
  | keep => exact (Checked.exactly_pure _).mono Iff.rfl fun _ _ => trivial
  | source address port => exact hmap _ _ _ _
  | destination address port => exact hmap _ _ _ _
  | drop => exact (Checked.exactly_pure _).mono Iff.rfl fun _ _ => trivial

/-- What the tables' translation needs of a frame. -/
theorem rewriteFits_translate_iff {now : Nat} {wire : FlowTuple}
    (hwire : wireOf frame = some wire) :
    RewriteFits frame (translate hash now s wire).1 ↔
      (∀ original entry frontend, s.conntrackReplyIndex wire = some original →
        s.conntrack.lookup original = some entry → entry.original.dst = .v4 frontend →
        L4Fits frame (ihlOf frame) (some entry.original.dstPort) none) ∧
      ∀ address port, dnatOf hash s frame = some (wire, address, port) →
        L4Fits frame (ihlOf frame) none (some port) := by
  cases hindex : s.conntrackReplyIndex wire with
  | some original =>
    have hdnat : ∀ address port, dnatOf hash s frame ≠ some (wire, address, port) := by
      intro address port h
      have hnone := (dnatOf_eq_some.mp h).2.1
      rw [hindex] at hnone
      cases hnone
    cases hentry : s.conntrack.lookup original with
    | none =>
      rw [translate_of_dangling hindex hentry]
      refine iff_of_true trivial ⟨?_, fun _ _ h => absurd h (hdnat _ _)⟩
      rintro _ entry _ ⟨⟩ h
      cases hentry.symm.trans h
    | some entry =>
      rw [translate_of_reply hindex hentry]
      cases hdst : entry.original.dst with
      | v4 frontend =>
        constructor
        · refine fun h => ⟨?_, fun _ _ h => absurd h (hdnat _ _)⟩
          rintro _ entry' _ ⟨⟩ h' -
          cases hentry.symm.trans h'
          exact h
        · intro h
          exact h.1 original entry frontend rfl hentry hdst
      | v6 _ =>
        refine iff_of_true trivial ⟨?_, fun _ _ h => absurd h (hdnat _ _)⟩
        rintro _ entry' _ ⟨⟩ h' hdst'
        cases hentry.symm.trans h'
        cases hdst.symm.trans hdst'
  | none =>
    refine Iff.trans ?_ (and_iff_right fun _ _ _ h => nomatch h).symm
    cases htarget : targetOf hash s wire with
    | some target =>
      obtain ⟨address, port⟩ := target
      rw [translate_of_target hindex htarget]
      constructor
      · intro h address' port' hdnat
        cases htarget.symm.trans (dnatOf_eq_some.mp hdnat).2.2
        exact h
      · intro h
        exact h address port (dnatOf_eq_some.mpr ⟨hwire, hindex, htarget⟩)
    | none =>
      refine iff_of_true ?_ fun address port hdnat => ?_
      · rcases (translate_of_no_target now hindex htarget).2 with h | h
        · rw [h]
          trivial
        · rw [h]
          trivial
      · cases htarget.symm.trans (dnatOf_eq_some.mp hdnat).2.2

/-- Translating a frame leaves the routes alone. -/
theorem translate_routes {now : Nat} {wire : FlowTuple} :
    (translate hash now s wire).2.routes = s.routes := by
  cases hindex : s.conntrackReplyIndex wire with
  | some original =>
    cases hentry : s.conntrack.lookup original with
    | none => rw [translate_of_dangling hindex hentry]
    | some entry =>
      rw [translate_of_reply hindex hentry]
      rfl
  | none =>
    cases htarget : targetOf hash s wire with
    | some target =>
      rw [translate_of_target hindex htarget]
      rfl
    | none => rw [(translate_of_no_target _ hindex htarget).1]

/-- Rewriting a frame and forwarding what comes out. -/
theorem exactly_process (hash : FlowTuple → BitVec 64) (localNode : NodeId)
    (hip : IsIpv4 frame) (translation : Translation) (s : State) :
    Checked.Exactly (do
      let frame? ← rewritten frame (ihlOf frame) translation
      match frame? with
      | none => return Decision.drop
      | some frame => forward hash localNode s frame)
      (RewriteFits frame translation ∧
        ∀ out, rewritten frame (ihlOf frame) translation = .ok (some out) → IsIpv4 out →
          LightRoute s (addrAt out 30))
      fun _ => True := by
  apply (exactly_rewritten hip translation).result.bind
  intro _ frame? hresult
  cases frame? with
  | none =>
    refine (Checked.exactly_pure Decision.drop).mono (iff_of_true trivial ?_) fun _ _ => trivial
    intro out hout
    cases hresult.symm.trans hout
  | some out =>
    refine (exactly_forward hash localNode s out).mono ⟨fun h out' hout => ?_, fun h => ?_⟩
      fun _ _ => trivial
    · cases hresult.symm.trans hout
      exact h
    · exact h out hresult

theorem exactly_decide (hash : FlowTuple → BitVec 64) (localNode : NodeId) (now : Nat)
    (s : State) (frame : Frame) :
    Checked.Exactly (decide hash localNode now s frame).1 (Fits hash now s frame)
      fun _ => True := by
  rw [decide, parseWire_eq]
  cases hwire : wireOf frame with
  | none =>
    refine (Checked.exactly_pure Decision.drop).mono (iff_of_true trivial ⟨?_, ?_, ?_⟩)
      fun _ _ => trivial
    · intro wire _ _ _ h
      cases hwire.symm.trans h
    · intro wire _ _ h
      cases hwire.symm.trans (dnatOf_eq_some.mp h).1
    · intro wire _ h
      cases hwire.symm.trans h
  | some wire =>
    have hip : IsIpv4 frame := (wireOf_eq_some.mp hwire).1
    have hprocess := exactly_process hash localNode hip
      (translate hash now s wire).1 (translate hash now s wire).2
    refine hprocess.mono ?_ fun _ h => h
    rw [rewriteFits_translate_iff hwire]
    simp only [LightRoute, translate_routes]
    constructor
    · rintro ⟨⟨hsource, hdestination⟩, hroute⟩
      refine ⟨?_, ?_, ?_⟩
      · intro wire' original entry frontend h
        cases hwire.symm.trans h
        exact hsource original entry frontend
      · intro wire' address port h
        cases hwire.symm.trans (dnatOf_eq_some.mp h).1
        exact hdestination address port h
      · intro wire' out h
        cases hwire.symm.trans h
        exact hroute out
    · intro hfits
      exact ⟨⟨fun o e f => hfits.source wire o e f hwire, fun a p => hfits.destination wire a p⟩,
        fun out => hfits.route wire out hwire⟩

/-- **Panics.** Whatever the bytes of a frame and whatever the tables, the frame is
    processed without a panic exactly when it fits. -/
theorem decide_completes_iff (hash : FlowTuple → BitVec 64) (localNode : NodeId) (now : Nat)
    (s : State) (frame : Frame) :
    (∃ decision, (decide hash localNode now s frame).1 = .ok decision) ↔
      Fits hash now s frame :=
  (exactly_decide hash localNode now s frame).ok_iff

/-- A request cut off after its ports, with an IP length to match. -/
def truncatedRequest : Frame := ((webRequest 100).patch 16 [0, 24]).take 38

/-- The request has no room for the TCP checksum that translating it writes. -/
theorem truncated_request_panics : ¬ ∃ (hash : FlowTuple → BitVec 64) (localNode : NodeId),
    ∀ (s : State) (_ : Run (Step hash localNode) State.default s) (now : Nat) (frame : Frame),
      ∃ decision, (decide hash localNode now s frame).1 = .ok decision := by
  rintro ⟨hash, localNode, hall⟩
  have run : Run (Step hash localNode) State.default oneService :=
    Run.nil.snoc _ _ _ (step_apply hash localNode State.default
      (.addService (webService 100 [webBackend 2])))
  have hwire : wireOf truncatedRequest = some (webFlow 100) := by decide
  have hdnat : dnatOf hash oneService truncatedRequest = some (webFlow 100, hostAddr 2, 8080) :=
    dnatOf_of_single hwire rfl rfl rfl rfl
  obtain ⟨decision, hdecision⟩ := hall oneService run 0 truncatedRequest
  have hfits := (exactly_decide hash localNode 0 oneService truncatedRequest).cond _ hdecision
  have hroom := (hfits.destination _ _ _ hdnat (by decide)).2.2 (by decide) (by decide)
  exact absurd (hroom.1 (by decide)) (by decide)

end Sarena.Soft
