import Sarena.DataPlane.Conntrack
import Sarena.DataPlane.Rewrite

namespace Sarena.Soft

open Lib

/-!
# Soft data plane — replies to translated flows

A flow that is translated to a backend is answered from the backend's address; its client
must see the answer come from the frontend it called.

* `reply_rewritten` — what the frame of a reply becomes: its source is the frontend of the
  flow that the reply index leads to;
* `Called`, `Symmetric` — the flows whose latest frame was translated, and that their
  replies come from their own frontends;
* `symmetric_always_iff` — a run keeps this exactly when no flow is translated to the reply
  tuple of another such flow.
-/

variable {hash : FlowTuple → BitVec 64} {localNode : NodeId} {e : SoftEvent}

/-- A frame with the 5-tuple `r`: its IPv4 header has 20 bytes or more, it has its ports,
    and there is room for its checksum. -/
structure CompleteFrame (r : FlowTuple) (frame : Frame) : Prop where
  wire : wireOf frame = some r
  header : 20 ≤ ihlOf frame
  ports : HasPorts frame r.protocol
  room : ∀ port, L4Fits frame (ihlOf frame) (some port) none

/-- A reply frame leaves with the frontend of its flow as its source. -/
theorem reply_rewritten (hash : FlowTuple → BitVec 64) {s : State} (now : Nat)
    {o r : FlowTuple} {entry : ConntrackEntry} {frame : Frame} (hframe : CompleteFrame r frame)
    (hindex : s.conntrackReplyIndex r = some o)
    (hentry : s.conntrack.lookup o = some entry) (horiginal : entry.original = o)
    (ho : IsFlow o) :
    ∃ out, rewritten frame (ihlOf frame) (translate hash now s r).1 = .ok (some out) ∧
      wireOf out = some { r with
        src := o.dst
        srcPort := if r.protocol = .tcp ∨ r.protocol = .udp then o.dstPort else 0 } := by
  obtain ⟨frontend, hdst⟩ := ho.dst
  have hip : IsIpv4 frame := by
    by_contra h
    have hwire := hframe.wire
    rw [wireOf, if_neg h] at hwire
    cases hwire
  have hrewrite := exactly_rewriteIpv4 (some frontend) none (some o.dstPort) none hip.1 hip.2.2.2
    (ihlOf_le frame) (.inr (by have := hframe.header; omega))
  obtain ⟨out, hout, hpost⟩ := hrewrite.returns (hframe.room o.dstPort)
  refine ⟨out, ?_, ?_⟩
  · rw [translate_of_reply hindex hentry, horiginal, hdst]
    show some <$> rewriteIpv4 frame (ihlOf frame) (some frontend) none (some o.dstPort) none = _
    rw [hout]
    rfl
  · rw [wireOf_rewritten hframe.wire hframe.ports (hpost hframe.header), hdst]

/-- The tables, with the reply tuple of every flow whose latest frame was translated and
    whose entry has not been flushed since. -/
structure Called where
  tables : State
  latest : KeyMap FlowTuple FlowTuple

namespace Called

variable {s t : Called}

def start : Called := ⟨State.default, KeyMap.empty⟩

/-- The flows that count as translated after a step.  A frame of a flow that takes the
    forward path settles whether the flow counts; a flow without an entry does not. -/
def latestAfter (hash : FlowTuple → BitVec 64) (s : Called) (e : SoftEvent) (tables : State) :
    KeyMap FlowTuple FlowTuple := fun o =>
  if (tables.conntrack.lookup o).isNone then none
  else
    match e with
    | .frame _ frame =>
      if wireOf frame = some o ∧ s.tables.conntrackReplyIndex o = none then
        (targetOf hash s.tables o).map fun (address, port) => o.reply address port
      else s.latest o
    | _ => s.latest o

/-- A step of the tables, with the translated flows it leaves. -/
def Step (hash : FlowTuple → BitVec 64) (localNode : NodeId) (s : Called) (e : SoftEvent)
    (t : Called) : Prop :=
  Soft.Step hash localNode s.tables e t.tables ∧ t.latest = s.latestAfter hash e t.tables

/-- **NAT reply symmetry.** A complete frame with the reply tuple of a translated flow goes
    out with the frontend of that flow as its source, and with its destination unchanged. -/
def Symmetric (hash : FlowTuple → BitVec 64) (s : Called) : Prop :=
  ∀ o r, s.latest o = some r → ∀ now frame, CompleteFrame r frame →
    ∃ out, rewritten frame (ihlOf frame) (translate hash now s.tables r).1 = .ok (some out) ∧
      wireOf out = some { r with src := o.dst, srcPort := o.dstPort }

/-- The tuples that a frame can carry among the reply tuples of flows: only those of TCP and
    UDP have a port. -/
def OnWire (r : FlowTuple) : Prop := r.protocol = .tcp ∨ r.protocol = .udp ∨ r.srcPort = 0

/-- A translated frame does not get the reply tuple of another translated flow. -/
def OwnReply (hash : FlowTuple → BitVec 64) (s : Called) (e : SoftEvent) : Prop :=
  ∀ now frame wire address port, e = .frame now frame →
    dnatOf hash s.tables frame = some (wire, address, port) → OnWire (wire.reply address port) →
    ∀ o, s.latest o = some (wire.reply address port) → o = wire

/-- What every step keeps. -/
structure Inv (s : Called) : Prop where
  keyed : Keyed s.tables
  reply : ∀ o entry, s.tables.conntrack.lookup o = some entry →
    IsFlow o ∧ ∃ address port, entry.reply = o.reply address port
  latest : ∀ o r, s.latest o = some r →
    ∃ entry, s.tables.conntrack.lookup o = some entry ∧ entry.reply = r

/-- The reply index leads from the reply tuple of every translated flow to that flow. -/
def Indexed (s : Called) : Prop :=
  ∀ o r, s.latest o = some r → OnWire r → s.tables.conntrackReplyIndex r = some o

theorem inv_start : Inv start where
  keyed := keyed_default
  reply _ _ h := nomatch h
  latest _ _ h := nomatch h

/-- What a flow that counts as translated after a step has done. -/
theorem Step.latest (h : Step hash localNode s e t) {o r : FlowTuple} (hr : t.latest o = some r) :
    (∃ entry, t.tables.conntrack.lookup o = some entry) ∧
      ((∃ now frame address port, e = .frame now frame ∧
          dnatOf hash s.tables frame = some (o, address, port) ∧ r = o.reply address port) ∨
        s.latest o = some r ∧ ∀ now frame address port, e = .frame now frame →
          dnatOf hash s.tables frame ≠ some (o, address, port)) := by
  rw [h.2] at hr
  unfold latestAfter at hr
  cases hentry : t.tables.conntrack.lookup o with
  | none =>
    rw [hentry, if_pos Option.isNone_none] at hr
    cases hr
  | some entry =>
    rw [hentry, if_neg nofun] at hr
    refine ⟨⟨entry, rfl⟩, ?_⟩
    cases e with
    | frame now frame =>
      dsimp only at hr
      split_ifs at hr with hwire
      · obtain ⟨⟨address, port⟩, htarget, rfl⟩ := Option.map_eq_some_iff.mp hr
        exact .inl ⟨now, frame, address, port, rfl,
          dnatOf_eq_some.mpr ⟨hwire.1, hwire.2, htarget⟩, rfl⟩
      · refine .inr ⟨hr, ?_⟩
        rintro _ _ _ _ ⟨⟩ hdnat
        have hdnat := dnatOf_eq_some.mp hdnat
        exact hwire ⟨hdnat.1, hdnat.2.1⟩
    | _ => exact .inr ⟨hr, nofun⟩

/-- A frame settles only the flow it belongs to. -/
theorem latestAfter_frame {now : Nat} {frame : Frame} {tables : State} {o : FlowTuple}
    (hentry : (tables.conntrack.lookup o).isNone = false) :
    s.latestAfter hash (.frame now frame) tables o =
      if wireOf frame = some o ∧ s.tables.conntrackReplyIndex o = none then
        (targetOf hash s.tables o).map fun (address, port) => o.reply address port
      else s.latest o := by
  unfold latestAfter
  rw [hentry, if_neg Bool.false_ne_true]

/-- The flow of a reply tuple has the tuple's destination as its client. -/
theorem eq_of_reply {o q : FlowTuple} {a b : Ipv4Addr} {p p' : Port}
    (h : o.reply a p = q.reply b p') :
    o.src = q.src ∧ o.srcPort = q.srcPort ∧ o.protocol = q.protocol := by
  have hprotocol := congrArg FlowTuple.protocol h
  exact ⟨congrArg FlowTuple.dst h, congrArg FlowTuple.dstPort h, hprotocol⟩

theorem Inv.step (h : Step hash localNode s e t) (hs : Inv s) : Inv t where
  keyed := hs.keyed.step h.1
  reply o entry hentry := by
    rcases h.1.tables.entry hs.keyed hentry with
      ⟨old, hold, hreply, -⟩ | ⟨now, frame, address, port, rfl, hdnat, -, hreply⟩
    · rw [← hreply]
      exact hs.reply o old hold
    · exact ⟨isFlow_of_wireOf (dnatOf_eq_some.mp hdnat).1, address, port, hreply⟩
  latest o r hr := by
    obtain ⟨⟨entry, hentry⟩, hcases⟩ := h.latest hr
    refine ⟨entry, hentry, ?_⟩
    rcases hcases with ⟨now, frame, address, port, rfl, hdnat, rfl⟩ | ⟨hlatest, hnot⟩
    · rw [(h.1.tables.of_dnat hdnat).1, AList.lookup_insert] at hentry
      cases hentry
      rfl
    · obtain ⟨old, hold, rfl⟩ := hs.latest o r hlatest
      rcases h.1.tables.entry hs.keyed hentry with
        ⟨old', hold', hreply, -⟩ | ⟨now, frame, address, port, he, hdnat, -⟩
      · cases hold.symm.trans hold'
        exact hreply.symm
      · exact absurd hdnat (hnot now frame address port he)

/-- **Step.** The index keeps leading to the translated flows while none of them loses its
    reply tuple to another. -/
theorem Indexed.step (h : Step hash localNode s e t) (hs : Inv s) (hindexed : Indexed s)
    (hown : OwnReply hash s e) : Indexed t := by
  intro o r hr hwire
  obtain ⟨⟨entry, hentry⟩, hcases⟩ := h.latest hr
  rcases hcases with ⟨now, frame, address, port, rfl, hdnat, rfl⟩ | ⟨hlatest, hnot⟩
  · rw [(h.1.tables.of_dnat hdnat).2, KeyMap.insert_self]
  have hold := hindexed o r hlatest hwire
  cases h.1.tables with
  | dnat hdnat _ hindex =>
    rw [hindex, KeyMap.insert_of_ne _ _ ?_, hold]
    rintro rfl
    obtain rfl := hown _ _ _ _ _ rfl hdnat hwire o hlatest
    exact hnot _ _ _ _ rfl hdnat
  | reply _ _ _ _ _ hindex => rw [hindex, hold]
  | flush hconntrack hindex =>
    rw [hindex, flushConntrack_index hs.keyed]
    refine ⟨hold, fun q entry' hentry' hflush hreply => ?_⟩
    -- Entries with one reply tuple have one client, so a flush removes all of them.
    rw [hconntrack, flushConntrack_conntrack hs.keyed] at hentry
    obtain ⟨old, hold', rfl⟩ := hs.latest o r hlatest
    cases hold'.symm.trans hentry.1
    obtain ⟨-, a, p, hqreply⟩ := hs.reply q entry' hentry'
    obtain ⟨-, b, p', horeply⟩ := hs.reply o entry hentry.1
    have hclient := (eq_of_reply (hqreply.symm.trans (hreply.trans horeply))).1
    obtain ⟨ep, hep, hstale⟩ := hflush
    refine hentry.2 ⟨ep, hep, ?_⟩
    rw [stale, hs.keyed q entry' hentry', hclient, hreply] at hstale
    rw [stale, hs.keyed o entry hentry.1]
    exact hstale
  | other _ _ _ hindex => rw [hindex, hold]

/-- Replies to translated flows that the index leads back to are symmetric. -/
theorem symmetric_of_indexed (hs : Inv s) (hindexed : Indexed s) : Symmetric hash s := by
  intro o r hr now frame hframe
  obtain ⟨entry, hentry, rfl⟩ := hs.latest o r hr
  obtain ⟨ho, address, port, hreply⟩ := hs.reply o entry hentry
  have hports := (isFlow_of_wireOf hframe.wire).ports
  have hwire : OnWire entry.reply := by
    by_cases h : entry.reply.protocol = .tcp ∨ entry.reply.protocol = .udp
    · exact h.imp_right .inl
    · exact .inr (.inr (hports h).1)
  obtain ⟨out, hout, hsource⟩ := reply_rewritten hash now hframe
    (hindexed o _ hr hwire) hentry (hs.keyed o entry hentry) ho
  refine ⟨out, hout, hsource.trans ?_⟩
  split_ifs with hproto
  · rfl
  · -- Without ports the flow has port zero, and so has the answer.
    rw [hreply] at hproto
    rw [(ho.ports hproto).2]

/-- A reply frame of every flow. -/
theorem exists_completeFrame {o : FlowTuple} (ho : IsFlow o) (address : Ipv4Addr) (port : Port)
    (hwire : OnWire (o.reply address port)) :
    ∃ frame, CompleteFrame (o.reply address port) frame := by
  obtain ⟨client, hsrc⟩ := ho.src
  obtain ⟨byte, hbyte⟩ := ho.protocol
  refine ⟨plainFrame byte address port client o.srcPort, ?_, ?_, ?_, ?_⟩
  · rw [wireOf_plainFrame hbyte, FlowTuple.reply, hsrc]
    by_cases hproto : o.protocol = .tcp ∨ o.protocol = .udp
    · rw [if_pos hproto, if_pos hproto]
    · have hzero : port = 0 := (or_assoc.mpr hwire).resolve_left hproto
      rw [if_neg hproto, if_neg hproto, hzero, (ho.ports hproto).1]
  · rw [ihlOf_plainFrame]
  · intro _
    rw [ihlOf_plainFrame, length_plainFrame]
    omega
  · intro _ _
    rw [ihlOf_plainFrame, length_plainFrame]
    exact ⟨fun _ => by omega, nofun, fun _ _ => ⟨fun _ => by omega, fun _ => by omega⟩⟩

/-- A translated flow that takes the reply tuple of another translated flow makes the
    replies to that flow come from its own frontend. -/
theorem ownReply_of_symmetric (h : Step hash localNode s e t) (hs : Inv s)
    (ht : Symmetric hash t) : OwnReply hash s e := by
  rintro now frame wire address port rfl hdnat hwire o hr
  by_contra hne
  obtain ⟨entry, hentry, hreply⟩ := hs.latest o _ hr
  obtain ⟨ho, a, p, horeply⟩ := hs.reply o entry hentry
  obtain ⟨hconntrack, hindex⟩ := h.1.tables.of_dnat hdnat
  have hflow := isFlow_of_wireOf (dnatOf_eq_some.mp hdnat).1
  have hlatest : t.latest o = some (wire.reply address port) := by
    have hentry' : t.tables.conntrack.lookup o = some entry := by
      rw [hconntrack, AList.lookup_insert_ne hne, hentry]
    rw [h.2, latestAfter_frame (by rw [hentry']; rfl)]
    refine (if_neg fun hforward => hne ?_).trans hr
    exact Option.some.inj (hforward.1.symm.trans (dnatOf_eq_some.mp hdnat).1)
  obtain ⟨answer, hanswer⟩ := exists_completeFrame hflow address port hwire
  obtain ⟨new, hnew, horiginal⟩ :
      ∃ new, t.tables.conntrack.lookup wire = some new ∧ new.original = wire := by
    rw [hconntrack]
    exact ⟨_, AList.lookup_insert _, rfl⟩
  have hleads : t.tables.conntrackReplyIndex (wire.reply address port) = some wire := by
    rw [hindex, KeyMap.insert_self]
  -- The answer is rewritten for the flow that took the tuple, not for the one that had it.
  obtain ⟨out, hout, hsource⟩ := reply_rewritten _ _ hanswer hleads hnew horiginal hflow
  obtain ⟨out', hout', hsource'⟩ := ht o _ hlatest 0 answer hanswer
  cases hout.symm.trans hout'
  have hsame := Option.some.inj (hsource'.symm.trans hsource)
  have hdst : o.dst = wire.dst := congrArg FlowTuple.src hsame
  have hport := congrArg FlowTuple.srcPort hsame
  obtain ⟨hsrc, hsrcPort, hprotocol⟩ := eq_of_reply (horeply.symm.trans hreply)
  apply hne
  refine FlowTuple.ext hsrc hsrcPort hdst ?_ hprotocol
  by_cases hproto : wire.protocol = .tcp ∨ wire.protocol = .udp
  · exact hport.trans (if_pos hproto)
  · rw [(hflow.ports hproto).2]
    rw [← hprotocol] at hproto
    exact (ho.ports hproto).2

/-- **NAT reply symmetry.** In a run from the empty tables the replies to every translated
    flow come from its own frontend exactly when no translated frame gets the reply tuple of
    another translated flow. -/
theorem symmetric_always_iff (run : Run (Step hash localNode) start s) :
    run.Always (Symmetric hash) ↔ run.EachStep fun s e _ => OwnReply hash s e := by
  have hstart : Inv start ∧ Indexed start := ⟨inv_start, fun _ _ h => nomatch h⟩
  have hkeep : ∀ s e t, Step hash localNode s e t → Inv s ∧ Indexed s → OwnReply hash s e →
      Inv t ∧ Indexed t := fun s e t h hs hown => ⟨hs.1.step h, hs.2.step h hs.1 hown⟩
  have hexact : ∀ s e t, Step hash localNode s e t → Symmetric hash s → Inv s ∧ Indexed s →
      (Symmetric hash t ↔ OwnReply hash s e) := by
    intro s e t h _ hs
    constructor
    · exact ownReply_of_symmetric h hs.1
    · intro hown
      obtain ⟨hinv, hindexed⟩ := hkeep s e t h hs hown
      exact symmetric_of_indexed hinv hindexed
  refine run.always_iff_eachStep (symmetric_of_indexed hstart.1 hstart.2) hstart ?_ hexact
  intro s e t h _ hs ht
  exact hkeep s e t h hs (ownReply_of_symmetric h hs.1 ht)

/-- Two services share a backend, and one client calls both from one port: the answer to the
    first call leaves with the frontend of the second. -/
theorem shared_backend_asymmetric : ¬ ∃ (hash : FlowTuple → BitVec 64) (localNode : NodeId),
    ∀ (s : Called) (run : Run (Step hash localNode) start s), run.Always (Symmetric hash) := by
  rintro ⟨hash, localNode, hall⟩
  have step : ∀ (s : Called) (e : SoftEvent) (t : State), Soft.Step hash localNode s.tables e t →
      Step hash localNode s e ⟨t, s.latestAfter hash e t⟩ := fun _ _ _ h => ⟨h, rfl⟩
  have hservices := step_apply hash localNode
    (apply hash localNode State.default (.addService (webService 100 [webBackend 2])))
    (.addService (webService 101 [webBackend 2]))
  have hfirst : dnatOf hash sharedBackend (webRequest 100) = some (webFlow 100, hostAddr 2, 8080) :=
    dnatOf_of_single (wireOf_webRequest 100) rfl rfl rfl rfl
  have run := Run.nil.snoc start _ _ (step _ _ _ (step_apply hash localNode State.default
    (.addService (webService 100 [webBackend 2]))))
  have run := run.snoc _ _ _ (step _ _ _ hservices)
  have run := run.snoc _ _ _ (step _ _ _ (step_of_dnat localNode 0 hfirst))
  -- After the first call its flow counts as translated.
  obtain ⟨called, ⟨run⟩, htables, hlatest⟩ : ∃ called : Called,
      Nonempty (Run (Step hash localNode) start called) ∧
      called.tables = record sharedBackend 0 (webFlow 100) ((webFlow 100).reply (hostAddr 2) 8080) ∧
      called.latest (webFlow 100) = some ((webFlow 100).reply (hostAddr 2) 8080) := by
    refine ⟨_, ⟨run⟩, rfl, ?_⟩
    have htarget : targetOf hash sharedBackend (webFlow 100) = some (hostAddr 2, 8080) :=
      (dnatOf_eq_some.mp hfirst).2.2
    dsimp only
    rw [latestAfter_frame (by rfl), if_pos ⟨wireOf_webRequest 100, by rfl⟩]
    exact congrArg (Option.map _) htarget
  have hsecond : dnatOf hash called.tables (webRequest 101) =
      some (webFlow 101, hostAddr 2, 8080) := by
    rw [htables]
    exact dnatOf_of_single (wireOf_webRequest 101) rfl rfl rfl rfl
  have hlast := step called _ _ (step_of_dnat localNode 0 hsecond)
  have hinv := run.invariant inv_start fun _ _ _ h hs => hs.step h
  have hown := ownReply_of_symmetric hlast hinv (hall _ (run.snoc _ _ _ hlast)).last
  have hsame := hown 0 _ _ _ _ rfl hsecond (.inl rfl) (webFlow 100) hlatest
  exact absurd hsame (by decide)

end Called

end Sarena.Soft
