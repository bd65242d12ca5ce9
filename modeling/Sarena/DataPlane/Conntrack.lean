import Mathlib.Data.Set.Defs
import Sarena.DataPlane.Soft

namespace Sarena.Soft

open Lib

/-!
# Soft data plane — the conntrack table over whole runs

Three properties of the conntrack table in every run of frames and table updates, each
with the exact condition under which the run keeps it.

* `Coherent` — the reply index maps a tuple to a flow exactly when the flow's entry has
  that reply tuple: kept as long as no flow is translated anew with another reply tuple,
  nor two flows with the same one (`coherent_always_iff`);
* `Tracked`, `Monotone` — an established entry does not become new: kept as long as no
  frame of an established flow is translated (`monotone_always_iff`);
* `Pinned`, `Affine` — the frames of a flow keep their backend: kept as long as every list of
  backends put in place of another has that backend where the flow's hash points, and no frame
  takes the flow's tuple as its reply tuple (`affine_always_iff`).
-/

variable {hash : FlowTuple → BitVec 64} {localNode : NodeId} {s t : State} {e : SoftEvent}

/-! ### The conntrack table and its reply index -/

/-- The reply index and the conntrack table are inverse to each other. -/
def Coherent (s : State) : Prop :=
  ∀ r o, s.conntrackReplyIndex r = some o ↔
    ∃ entry, s.conntrack.lookup o = some entry ∧ entry.reply = r

/-- A frame that is translated keeps the reply tuple of its flow, and does not take the
    reply tuple of another. -/
def KeepsReply (hash : FlowTuple → BitVec 64) (s : State) (e : SoftEvent) : Prop :=
  ∀ now frame wire address port, e = .frame now frame →
    dnatOf hash s frame = some (wire, address, port) →
    (∀ entry, s.conntrack.lookup wire = some entry → entry.reply = wire.reply address port) ∧
      ∀ o, s.conntrackReplyIndex (wire.reply address port) = some o → o = wire

/-- After a flush no entry of the index leads to an entry that the flush removed. -/
def FlushClean (s : State) (e : SoftEvent) (t : State) : Prop :=
  ∀ endpoint, e = .flushConntrack endpoint → ∀ r o, t.conntrackReplyIndex r = some o →
    ¬ ∃ entry, s.conntrack.lookup o = some entry ∧ t.conntrack.lookup o = none

theorem coherent_default : Coherent State.default :=
  fun _ _ => iff_of_false nofun fun ⟨_, h, _⟩ => nomatch h

/-- Translating a flow keeps the tables coherent exactly when its reply tuple is its own. -/
theorem coherent_dnat_iff {now : Nat} {wire reply : FlowTuple} (hs : Coherent s)
    (hconntrack : t.conntrack = s.conntrack.insert wire
      { original := wire, reply, state := .new, lastSeen := now })
    (hindex : t.conntrackReplyIndex = s.conntrackReplyIndex.insert reply wire) :
    Coherent t ↔
      (∀ entry, s.conntrack.lookup wire = some entry → entry.reply = reply) ∧
        ∀ o, s.conntrackReplyIndex reply = some o → o = wire := by
  constructor
  · intro ht
    refine ⟨fun entry hentry => ?_, fun o ho => ?_⟩
    · -- The index still leads from the old reply tuple to the flow.
      by_contra hne
      have hold : t.conntrackReplyIndex entry.reply = some wire := by
        rw [hindex, KeyMap.insert_of_ne _ _ hne]
        exact (hs _ _).mpr ⟨entry, hentry, rfl⟩
      obtain ⟨entry', hentry', hreply⟩ := (ht _ _).mp hold
      rw [hconntrack, AList.lookup_insert] at hentry'
      cases hentry'
      exact hne hreply.symm
    · -- The other flow still has an entry with this reply tuple.
      by_contra hne
      obtain ⟨entry, hentry, hreply⟩ := (hs _ _).mp ho
      have hnew : t.conntrackReplyIndex reply = some o := by
        refine (ht _ _).mpr ⟨entry, ?_, hreply⟩
        rw [hconntrack, AList.lookup_insert_ne hne, hentry]
      rw [hindex, KeyMap.insert_self] at hnew
      exact hne (Option.some.inj hnew).symm
  · -- Only the keys `reply` of the index and `wire` of the table changed.
    rintro ⟨hown, hfree⟩ r o
    rw [hindex, hconntrack, KeyMap.insert_apply]
    simp only [lookup_insert_eq_some]
    by_cases hr : r = reply
    · rw [if_pos hr]
      constructor
      · rintro ⟨⟩
        exact ⟨_, .inl ⟨rfl, rfl⟩, hr.symm⟩
      · rintro ⟨entry, ⟨rfl, rfl⟩ | ⟨hne, hentry⟩, hreply⟩
        · rfl
        · exact absurd (hfree o ((hs _ _).mpr ⟨entry, hentry, hreply.trans hr⟩)) hne
    · rw [if_neg hr, hs]
      constructor
      · rintro ⟨entry, hentry, hreply⟩
        have hne : o ≠ wire := by
          rintro rfl
          exact hr (hreply.symm.trans (hown entry hentry))
        exact ⟨entry, .inr ⟨hne, hentry⟩, hreply⟩
      · rintro ⟨entry, ⟨rfl, rfl⟩ | ⟨-, hentry⟩, hreply⟩
        · exact absurd hreply.symm hr
        · exact ⟨entry, hentry, hreply⟩

/-- Flushing keeps the tables coherent. -/
theorem Coherent.flush {endpoint : EndpointId} (hs : Coherent s) (hkeyed : Keyed s)
    (hconntrack : t.conntrack = (flushConntrack s endpoint).conntrack)
    (hindex : t.conntrackReplyIndex = (flushConntrack s endpoint).conntrackReplyIndex) :
    Coherent t := by
  intro r o
  rw [hindex, hconntrack, flushConntrack_index hkeyed]
  simp only [flushConntrack_conntrack hkeyed]
  constructor
  · rintro ⟨ho, hkept⟩
    obtain ⟨entry, hentry, hreply⟩ := (hs r o).mp ho
    exact ⟨entry, ⟨hentry, fun hflush => hkept o entry hentry hflush hreply⟩, hreply⟩
  · rintro ⟨entry, ⟨hentry, hkept⟩, rfl⟩
    have ho := (hs _ _).mpr ⟨entry, hentry, rfl⟩
    refine ⟨ho, fun q entry' hentry' hflush hreply => ?_⟩
    have hq := (hs _ _).mpr ⟨entry', hentry', hreply⟩
    obtain rfl : q = o := Option.some.inj (hq.symm.trans ho)
    obtain rfl : entry' = entry := Option.some.inj (hentry'.symm.trans hentry)
    exact hkept hflush

/-- **Step.** Out of coherent tables, a step leads to coherent tables exactly when a
    translated frame keeps its flow's reply tuple. -/
theorem coherent_step_iff (h : Step hash localNode s e t) (hs : Coherent s) (hkeyed : Keyed s) :
    Coherent t ↔ KeepsReply hash s e := by
  cases h.tables with
  | dnat hdnat hconntrack hindex =>
    rw [coherent_dnat_iff hs hconntrack hindex]
    constructor
    · rintro hkeep _ _ _ _ _ ⟨⟩ hdnat'
      cases hdnat.symm.trans hdnat'
      exact hkeep
    · intro hkeep
      exact hkeep _ _ _ _ _ rfl hdnat
  | reply hnone hwire horiginal hentry hconntrack hindex =>
    refine iff_of_true (fun r o => ?_) ?_
    · rw [hindex, hconntrack, hs, ← Option.map_eq_some_iff, ← Option.map_eq_some_iff,
        lookup_touch_reply hentry]
    · rintro _ _ _ _ _ ⟨⟩ hdnat'
      cases hnone.symm.trans hdnat'
  | flush hconntrack hindex =>
    exact iff_of_true (hs.flush hkeyed hconntrack hindex) nofun
  | other hnone _ hconntrack hindex =>
    refine iff_of_true (fun r o => ?_) ?_
    · rw [hindex, hconntrack]
      exact hs r o
    · rintro now frame _ _ _ hframe hdnat'
      cases (hnone now frame hframe).symm.trans hdnat'

/-- **Coherence of conntrack and reply index.** In a run from the empty tables the two are
    inverse throughout, and no flush leaves an index entry to a flushed flow, exactly when
    every translated frame keeps its flow's reply tuple and takes no other flow's. -/
theorem coherent_always_iff (run : Run (Step hash localNode) State.default s) :
    (run.Always Coherent ∧ run.EachStep FlushClean) ↔
      run.EachStep fun s e _ => KeepsReply hash s e := by
  have hexact : ∀ s e t, Step hash localNode s e t → Coherent s → Keyed s →
      (Coherent t ↔ KeepsReply hash s e) := fun _ _ _ h hs hk => coherent_step_iff h hs hk
  have hiff := run.always_iff_eachStep coherent_default keyed_default
    (fun _ _ _ h _ hk _ => hk.step h) hexact
  have hclean : run.EachStep (fun s e _ => KeepsReply hash s e) → run.EachStep FlushClean := by
    have hstep : ∀ s e t, Step hash localNode s e t → KeepsReply hash s e →
        Coherent s ∧ Keyed s → Coherent t ∧ Keyed t := fun s e t h hkeep hs =>
      ⟨(hexact s e t h hs.1 hs.2).mpr hkeep, hs.2.step h⟩
    refine run.eachStep_of_eachStep ⟨coherent_default, keyed_default⟩ hstep ?_
    rintro s e t h hkeep hs endpoint - r o hindex ⟨_, _, hgone⟩
    obtain ⟨entry, hentry, -⟩ := ((hstep s e t h hkeep hs).1 r o).mp hindex
    rw [hgone] at hentry
    cases hentry
  constructor
  · rintro ⟨hall, -⟩
    exact hiff.mp hall
  · intro hkeep
    exact ⟨hiff.mpr hkeep, hclean hkeep⟩

/-! ### A service with one backend -/

theorem selectBackend_singleton (backend : ServiceBackend) (flow : FlowTuple) :
    selectBackend hash [backend] flow = some backend := by
  rw [selectBackend, if_neg nofun, List.length_singleton, Nat.mod_one]
  rfl

/-- A service with one backend translates every frame for it to that backend. -/
theorem dnatOf_of_single {frame : Frame} {wire : FlowTuple} {service : Service}
    {backend : ServiceBackend} {address : Ipv4Addr} {port : Port}
    (hwire : wireOf frame = some wire) (hindex : s.conntrackReplyIndex wire = none)
    (hservice : s.services wire.frontend = some service) (hbackends : service.backends = [backend])
    (htarget : backend.target = some (address, port)) :
    dnatOf hash s frame = some (wire, address, port) := by
  refine dnatOf_eq_some.mpr ⟨hwire, hindex, ?_⟩
  rw [targetOf, chosen, hservice, Option.bind_some, hbackends, selectBackend_singleton]
  exact htarget

/-- A client, a service port, and a backend, as in a cluster of one node. -/
def hostAddr (last : Byte) : Ipv4Addr := ipv4OfOctets 10 0 0 last

def webFrontend (last : Byte) : ServiceFrontend := ⟨.v4 (hostAddr last), 80, .tcp⟩

def webBackend (last : Byte) : ServiceBackend :=
  ⟨1, 8080, .destination (.v4 (hostAddr last)) (some 8080)⟩

def webFlow (last : Byte) : FlowTuple := ⟨.v4 (hostAddr 1), 40000, .v4 (hostAddr last), 80, .tcp⟩

def webRequest (last : Byte) : Frame := plainFrame 6 (hostAddr 1) 40000 (hostAddr last) 80

def webReply (backend : Byte) : Frame := plainFrame 6 (hostAddr backend) 8080 (hostAddr 1) 40000

theorem wireOf_webReply (backend last : Byte) :
    wireOf (webReply backend) = some ((webFlow last).reply (hostAddr backend) 8080) := by
  have htcp : ipProtoFromByte 6 = some .tcp := by decide
  exact wireOf_plainFrame htcp _ _ _ _

theorem wireOf_webRequest (last : Byte) : wireOf (webRequest last) = some (webFlow last) := by
  have htcp : ipProtoFromByte 6 = some .tcp := by decide
  exact wireOf_plainFrame htcp _ _ _ _

def webService (last : Byte) (backends : List ServiceBackend) : Service :=
  ⟨webFrontend last, backends⟩

/-- The tables with one service, before and after a call. -/
def oneService : State :=
  { State.default with
    services := KeyMap.empty.insert (webFrontend 100) (webService 100 [webBackend 2]) }

def calledService : State :=
  record oneService 0 (webFlow 100) ((webFlow 100).reply (hostAddr 2) 8080)

/-- The tables with two services on one backend. -/
def sharedBackend : State :=
  { State.default with
    services := (KeyMap.empty.insert (webFrontend 100) (webService 100 [webBackend 2])).insert
      (webFrontend 101) (webService 101 [webBackend 2]) }

/-- Two services share a backend, and one client calls both from one port: the second call
    takes over the reply tuple of the first. -/
theorem shared_backend_incoherent : ¬ ∃ (hash : FlowTuple → BitVec 64) (localNode : NodeId),
    ∀ (s : State) (run : Run (Step hash localNode) State.default s), run.Always Coherent := by
  rintro ⟨hash, localNode, hall⟩
  have run : Run (Step hash localNode) State.default sharedBackend :=
    (Run.nil.snoc _ _ _ (step_apply hash localNode State.default
      (.addService (webService 100 [webBackend 2])))).snoc _ _ _ (step_apply hash localNode _
      (.addService (webService 101 [webBackend 2])))
  have hfirst : dnatOf hash sharedBackend (webRequest 100) = some (webFlow 100, hostAddr 2, 8080) :=
    dnatOf_of_single (wireOf_webRequest 100) rfl rfl rfl rfl
  have hsecond : dnatOf hash
      (record sharedBackend 0 (webFlow 100) ((webFlow 100).reply (hostAddr 2) 8080))
      (webRequest 101) = some (webFlow 101, hostAddr 2, 8080) :=
    dnatOf_of_single (wireOf_webRequest 101) rfl rfl rfl rfl
  have run := (run.snoc _ _ _ (step_of_dnat localNode 0 hfirst)).snoc _ _ _
    (step_of_dnat localNode 0 hsecond)
  -- The entry of the first flow is still there, but the index leads to the second.
  have hindex := ((hall _ run).last ((webFlow 100).reply (hostAddr 2) 8080) (webFlow 100)).mpr
    ⟨_, rfl, rfl⟩
  exact absurd hindex (by decide)

/-! ### Connection states -/

/-- The tables, with the flows whose entry has been established since it was last absent. -/
structure Tracked where
  tables : State
  established : Set FlowTuple

namespace Tracked

variable {s t : Tracked}

def start : Tracked := ⟨State.default, ∅⟩

/-- The flows that count as established after a step: those whose entry is, and those that
    counted as established and still have an entry. -/
def establishedAfter (s : Tracked) (tables : State) : Set FlowTuple :=
  { o | ∃ entry, tables.conntrack.lookup o = some entry ∧
    (entry.state = .established ∨ o ∈ s.established) }

/-- A step of the tables.  A flow counts as established from the step that establishes its
    entry to the one that flushes it. -/
def Step (hash : FlowTuple → BitVec 64) (localNode : NodeId) (s : Tracked) (e : SoftEvent)
    (t : Tracked) : Prop :=
  Soft.Step hash localNode s.tables e t.tables ∧ t.established = s.establishedAfter t.tables

/-- No entry that has been established is new. -/
def Monotone (s : Tracked) : Prop :=
  ∀ o ∈ s.established, ∀ entry, s.tables.conntrack.lookup o = some entry → entry.state ≠ .new

/-- No frame of a flow whose entry is established is translated to a backend. -/
def KeepsEstablished (hash : FlowTuple → BitVec 64) (s : Tracked) (e : SoftEvent) : Prop :=
  ∀ now frame wire address port, e = .frame now frame →
    dnatOf hash s.tables frame = some (wire, address, port) →
    ∀ entry, s.tables.conntrack.lookup wire = some entry → entry.state ≠ .established

/-- The established flows are those with an established entry. -/
structure Inv (s : Tracked) : Prop where
  keyed : Keyed s.tables
  established : ∀ o, o ∈ s.established ↔
    ∃ entry, s.tables.conntrack.lookup o = some entry ∧ entry.state = .established

theorem inv_start : Inv start where
  keyed := keyed_default
  established _ := iff_of_false (fun h => h) fun ⟨_, h, _⟩ => nomatch h

theorem monotone_start : Monotone start := fun _ h => nomatch h

/-- **Step.** Monotone states stay so exactly when no established flow is translated. -/
theorem monotone_step_iff (h : Step hash localNode s e t) (hs : Inv s) :
    Monotone t ↔ KeepsEstablished hash s e := by
  obtain ⟨hstep, hestablished⟩ := h
  constructor
  · rintro ht now frame wire address port rfl hdnat old hold hstate
    -- The frame replaces the established entry by a new one.
    obtain ⟨new, hnew, hstate'⟩ :
        ∃ new, t.tables.conntrack.lookup wire = some new ∧ new.state = .new := by
      rw [(hstep.tables.of_dnat hdnat).1]
      exact ⟨_, AList.lookup_insert _, rfl⟩
    have ho : wire ∈ t.established := by
      rw [hestablished]
      exact ⟨_, hnew, .inr ((hs.established wire).mpr ⟨old, hold, hstate⟩)⟩
    exact ht wire ho new hnew hstate'
  · intro hkeep o ho entry hentry
    rw [hestablished] at ho
    obtain ⟨entry', hentry', hstate | ho⟩ := ho
    · cases hentry.symm.trans hentry'
      rw [hstate]
      nofun
    · obtain ⟨old, hold, hstate⟩ := (hs.established o).mp ho
      rcases hstep.tables.entry hs.keyed hentry with
        ⟨old', hold', -, hkept⟩ | ⟨now, frame, address, port, he, hdnat, -⟩
      · cases hold.symm.trans hold'
        rw [hkept hstate]
        nofun
      · exact absurd hstate (hkeep now frame o address port he hdnat old hold)

theorem Inv.step (h : Step hash localNode s e t) (hs : Inv s) (ht : Monotone t) : Inv t where
  keyed := hs.keyed.step h.1
  established o := by
    rw [h.2]
    constructor
    · rintro ⟨entry, hentry, hstate | ho⟩
      · exact ⟨entry, hentry, hstate⟩
      · refine ⟨entry, hentry, ?_⟩
        obtain ⟨old, hold, hstate⟩ := (hs.established o).mp ho
        rcases h.1.tables.entry hs.keyed hentry with
          ⟨old', hold', -, hkept⟩ | ⟨_, _, _, _, _, _, hnew, _⟩
        · cases hold.symm.trans hold'
          exact hkept hstate
        · have ho : o ∈ t.established := by
            rw [h.2]
            exact ⟨entry, hentry, .inr ho⟩
          exact absurd hnew (ht o ho entry hentry)
    · rintro ⟨entry, hentry, hstate⟩
      exact ⟨entry, hentry, .inl hstate⟩

/-- **Connection states.** In a run from the empty tables no established entry becomes new
    without a flush exactly when no frame of an established flow is translated. -/
theorem monotone_always_iff (run : Run (Step hash localNode) start s) :
    run.Always Monotone ↔ run.EachStep fun s e _ => KeepsEstablished hash s e :=
  run.always_iff_eachStep monotone_start inv_start (fun _ _ _ h _ hs ht => hs.step h ht)
    fun _ _ _ h _ hs => monotone_step_iff h hs

/-- A second request of a connection whose backend has answered makes its entry new. -/
theorem second_request_reopens : ¬ ∃ (hash : FlowTuple → BitVec 64) (localNode : NodeId),
    ∀ (s : Tracked) (run : Run (Step hash localNode) start s), run.Always Monotone := by
  rintro ⟨hash, localNode, hall⟩
  have step : ∀ (s : Tracked) (e : SoftEvent) (t : State), Soft.Step hash localNode s.tables e t →
      Step hash localNode s e ⟨t, s.establishedAfter t⟩ := fun _ _ _ h => ⟨h, rfl⟩
  have hservice : Soft.Step hash localNode State.default _ oneService :=
    step_apply hash localNode State.default (.addService (webService 100 [webBackend 2]))
  have hfirst : dnatOf hash oneService (webRequest 100) = some (webFlow 100, hostAddr 2, 8080) :=
    dnatOf_of_single (wireOf_webRequest 100) rfl rfl rfl rfl
  have hsecond : dnatOf hash
      (touched calledService 0 (webFlow 100)
        ⟨webFlow 100, (webFlow 100).reply (hostAddr 2) 8080, .new, 0⟩) (webRequest 100) =
      some (webFlow 100, hostAddr 2, 8080) :=
    dnatOf_of_single (wireOf_webRequest 100) rfl rfl rfl rfl
  have run := Run.nil.snoc start _ _ (step _ _ _ hservice)
  have run := run.snoc _ _ _ (step _ _ _ (step_of_dnat localNode 0 hfirst))
  have run := run.snoc _ _ _ (step _ _ _
    (step_of_reply hash localNode 0 (wireOf_webReply 2 100) rfl rfl))
  have run := run.snoc _ _ _ (step _ _ _ (step_of_dnat localNode 0 hsecond))
  exact (hall _ run).last (webFlow 100) ⟨_, rfl, .inr ⟨_, rfl, .inl rfl⟩⟩ _ rfl rfl

end Tracked

/-! ### Flow affinity -/

/-- The tables, with the backend that each flow was first translated to. -/
structure Pinned where
  tables : State
  pins : KeyMap FlowTuple ServiceBackend

/-- The flow that an event translates. -/
def dnatFlow (hash : FlowTuple → BitVec 64) (s : State) : SoftEvent → Option FlowTuple
  | .frame _ frame => (dnatOf hash s frame).map (·.1)
  | _ => none

/-- The frontend of a flow is configured with a backend. -/
def offered (s : State) (o : FlowTuple) (backend : ServiceBackend) : Bool :=
  (s.services o.frontend).any fun service => service.backends.contains backend

theorem offered_of_chosen {o : FlowTuple} {backend : ServiceBackend}
    (h : chosen hash s o = some backend) : offered s o backend = true := by
  obtain ⟨service, hservice, hselect⟩ := Option.bind_eq_some_iff.mp h
  rw [selectBackend] at hselect
  split_ifs at hselect
  rw [offered, hservice]
  exact List.elem_eq_true_of_mem (List.mem_of_getElem? hselect)

/-- The services that an event leaves. -/
def servicesAfter (services : KeyMap ServiceFrontend Service) :
    SoftEvent → KeyMap ServiceFrontend Service
  | .addService service => services.insert service.frontend service
  | .removeService frontend => services.remove frontend
  | _ => services

theorem removeFlow_services (key : FlowTuple) : (removeFlow s key).services = s.services := by
  rw [removeFlow]
  cases s.conntrack.lookup key with
  | none => rfl
  | some _ => rfl

theorem foldl_removeFlow_services (keys : List FlowTuple) :
    (keys.foldl removeFlow s).services = s.services := by
  induction keys generalizing s with
  | nil => rfl
  | cons key keys ih => rw [List.foldl_cons, ih, removeFlow_services]

/-- Frames and flushes leave the services alone. -/
theorem Step.services (h : Step hash localNode s e t) :
    t.services = servicesAfter s.services e := by
  obtain ⟨routes, -, rfl⟩ := h
  cases e with
  | frame now frame =>
    show (decide hash localNode now s frame).2.services = s.services
    cases hdnat : dnatOf hash s frame with
    | some found => rw [decide_of_dnat hdnat, record]
    | none =>
      rcases decide_of_not_dnat hdnat with hd | ⟨_, _, _, -, -, -, hd⟩
      · rw [hd]
      · rw [hd, touched]
  | flushConntrack endpoint =>
    show (flushConntrack s endpoint).services = s.services
    rw [flushConntrack]
    cases s.endpoints endpoint with
    | none => rfl
    | some ep => exact foldl_removeFlow_services _
  | _ => rfl

/-- A frame that is not translated leaves the reply index alone. -/
theorem TableStep.index_of_not_dnat {now : Nat} {frame : Frame}
    (h : TableStep hash s (.frame now frame) t) (hdnat : dnatOf hash s frame = none) :
    t.conntrackReplyIndex = s.conntrackReplyIndex := by
  cases h with
  | dnat h => cases hdnat.symm.trans h
  | reply _ _ _ _ _ hindex => exact hindex
  | other _ _ _ hindex => exact hindex

/-- The services choose by the service at the frame's frontend alone. -/
theorem targetOf_congr {wire : FlowTuple}
    (h : t.services wire.frontend = s.services wire.frontend) :
    targetOf hash t wire = targetOf hash s wire := by
  rw [targetOf, chosen, h]
  rfl

namespace Pinned

variable {s t : Pinned}

def start : Pinned := ⟨State.default, KeyMap.empty⟩

/-- The pins after a step.  A flow is pinned when it is translated, and stays pinned while
    it has an entry and its frontend offers its backend. -/
def pinsAfter (hash : FlowTuple → BitVec 64) (s : Pinned) (e : SoftEvent) (tables : State) :
    KeyMap FlowTuple ServiceBackend := fun o =>
  ((s.pins o).or
    (if dnatFlow hash s.tables e = some o then chosen hash s.tables o else none)).filter
    fun backend => (tables.conntrack.lookup o).isSome && offered tables o backend

/-- A step of the tables, with the pins it leaves. -/
def Step (hash : FlowTuple → BitVec 64) (localNode : NodeId) (s : Pinned) (e : SoftEvent)
    (t : Pinned) : Prop :=
  Soft.Step hash localNode s.tables e t.tables ∧ t.pins = s.pinsAfter hash e t.tables

/-- Whatever frame of a pinned flow comes next, it is translated to the address and port of
    the flow's backend. -/
def Affine (hash : FlowTuple → BitVec 64) (s : Pinned) : Prop :=
  ∀ now frame wire backend, wireOf frame = some wire → s.pins wire = some backend →
    ∃ address port, backend.target = some (address, port) ∧
      (translate hash now s.tables wire).1 = .destination address port

/-- A list of backends that `add_service` puts in place and that still has the backend of a
    pinned flow has the address and port of that backend where the flow's hash points, and no
    frame is translated with a reply tuple that is the tuple of a pinned flow, or its own. -/
def Steady (hash : FlowTuple → BitVec 64) (s : Pinned) : SoftEvent → Prop
  | .addService service => ∀ wire backend, s.pins wire = some backend →
      wire.frontend = service.frontend → backend ∈ service.backends →
      ∃ found, service.backends[(hash wire).toNat % service.backends.length]? = some found ∧
        found.target = backend.target
  | .frame _ frame => ∀ wire address port, dnatOf hash s.tables frame = some (wire, address, port) →
      wire.reply address port ≠ wire ∧ s.pins (wire.reply address port) = none
  | _ => True

/-- What holds of every pin: its backend is one that frames are translated to and that the
    flow's frontend offers, the flow has an entry, and there are frames of it. -/
structure Inv (s : Pinned) : Prop where
  keyed : Keyed s.tables
  target : ∀ o backend, s.pins o = some backend →
    ∃ address port, backend.target = some (address, port)
  kept : ∀ o backend, s.pins o = some backend →
    (s.tables.conntrack.lookup o).isSome = true ∧ offered s.tables o backend = true
  frame : ∀ o backend, s.pins o = some backend → ∃ frame, wireOf frame = some o

theorem inv_start : Inv start where
  keyed := keyed_default
  target _ _ h := nomatch h
  kept _ _ h := nomatch h
  frame _ _ h := nomatch h

theorem affine_start : Affine hash start := fun _ _ _ _ _ h => nomatch h

theorem selectBackend_eq_some {backends : List ServiceBackend} {flow : FlowTuple}
    {backend : ServiceBackend} :
    selectBackend hash backends flow = some backend ↔
      backends[(hash flow).toNat % backends.length]? = some backend := by
  rw [selectBackend]
  cases backends with
  | nil => exact Iff.rfl
  | cons _ _ => rw [if_neg nofun]

theorem pinsAfter_eq_some {tables : State} {o : FlowTuple} {backend : ServiceBackend} :
    s.pinsAfter hash e tables o = some backend ↔
      (s.pins o = some backend ∨
        s.pins o = none ∧ dnatFlow hash s.tables e = some o ∧
          chosen hash s.tables o = some backend) ∧
      (tables.conntrack.lookup o).isSome = true ∧ offered tables o backend = true := by
  rw [pinsAfter, Option.filter_eq_some_iff, Option.or_eq_some_iff, Bool.and_eq_true]
  refine and_congr_left fun _ => or_congr_right (and_congr_right fun _ => ?_)
  split_ifs with hdnat
  · exact (and_iff_right hdnat).symm
  · exact iff_of_false nofun fun h => hdnat h.1

/-- A flow that a frame pins is translated to its backend. -/
theorem dnat_of_pin {o : FlowTuple} {backend : ServiceBackend}
    (hdnat : dnatFlow hash s.tables e = some o) (hchosen : chosen hash s.tables o = some backend) :
    ∃ now frame address port, e = .frame now frame ∧
      dnatOf hash s.tables frame = some (o, address, port) ∧
      backend.target = some (address, port) := by
  cases e with
  | frame now frame =>
    obtain ⟨⟨wire, address, port⟩, hfound, rfl⟩ := Option.map_eq_some_iff.mp hdnat
    have htarget := (dnatOf_eq_some.mp hfound).2.2
    rw [targetOf, hchosen] at htarget
    exact ⟨now, frame, address, port, rfl, hfound, htarget⟩
  | _ => cases hdnat

theorem Inv.step (h : Step hash localNode s e t) (hs : Inv s) : Inv t where
  keyed := hs.keyed.step h.1
  target o backend hpin := by
    rw [h.2, pinsAfter_eq_some] at hpin
    obtain ⟨hpin | ⟨-, hdnat, hchosen⟩, -⟩ := hpin
    · exact hs.target o backend hpin
    · obtain ⟨_, _, address, port, -, -, htarget⟩ := dnat_of_pin hdnat hchosen
      exact ⟨address, port, htarget⟩
  kept o backend hpin := by
    rw [h.2, pinsAfter_eq_some] at hpin
    exact hpin.2
  frame o backend hpin := by
    rw [h.2, pinsAfter_eq_some] at hpin
    obtain ⟨hpin | ⟨-, hdnat, hchosen⟩, -⟩ := hpin
    · exact hs.frame o backend hpin
    · obtain ⟨_, frame, _, _, -, hfound, -⟩ := dnat_of_pin hdnat hchosen
      exact ⟨frame, (dnatOf_eq_some.mp hfound).1⟩

/-- A frame is translated to a backend exactly when it is nobody's reply and the services
    choose that backend for it. -/
theorem translate_destination_iff {now : Nat} {s : State} {wire : FlowTuple} {address : Ipv4Addr}
    {port : Port} :
    (translate hash now s wire).1 = .destination address port ↔
      s.conntrackReplyIndex wire = none ∧ targetOf hash s wire = some (address, port) := by
  cases hindex : s.conntrackReplyIndex wire with
  | some original =>
    refine iff_of_false ?_ nofun
    cases hentry : s.conntrack.lookup original with
    | none =>
      rw [translate_of_dangling hindex hentry]
      nofun
    | some entry =>
      rw [translate_of_reply hindex hentry]
      cases entry.original.dst with
      | v4 _ => nofun
      | v6 _ => nofun
  | none =>
    rw [and_iff_right rfl]
    cases htarget : targetOf hash s wire with
    | none =>
      refine iff_of_false ?_ nofun
      rcases (translate_of_no_target now hindex htarget).2 with h | h
      · rw [h]
        nofun
      · rw [h]
        nofun
    | some target =>
      obtain ⟨address', port'⟩ := target
      rw [translate_of_target hindex htarget]
      simp only [Translation.destination.injEq, Option.some.injEq, Prod.mk.injEq]

/-- The backend that the services choose is the one where the flow's hash points. -/
theorem targetOf_eq_some {s : State} {wire : FlowTuple} {target : Ipv4Addr × Port} :
    targetOf hash s wire = some target ↔
      ∃ service found, s.services wire.frontend = some service ∧
        service.backends[(hash wire).toNat % service.backends.length]? = some found ∧
        found.target = some target := by
  rw [targetOf, chosen, Option.bind_eq_some_iff]
  constructor
  · rintro ⟨found, hchosen, htarget⟩
    obtain ⟨service, hservice, hselect⟩ := Option.bind_eq_some_iff.mp hchosen
    exact ⟨service, found, hservice, selectBackend_eq_some.mp hselect, htarget⟩
  · rintro ⟨service, found, hservice, hfound, htarget⟩
    refine ⟨found, Option.bind_eq_some_iff.mpr ⟨service, hservice, ?_⟩, htarget⟩
    exact selectBackend_eq_some.mpr hfound

/-- Every pinned flow's tuple is nobody's reply tuple, and the services choose the address and
    port of its backend for it. -/
def InPlace (hash : FlowTuple → BitVec 64) (s : Pinned) : Prop :=
  ∀ o backend, s.pins o = some backend →
    s.tables.conntrackReplyIndex o = none ∧ targetOf hash s.tables o = backend.target

theorem affine_iff_inPlace (hs : Inv s) : Affine hash s ↔ InPlace hash s := by
  constructor
  · intro haffine o backend hpin
    obtain ⟨frame, hwire⟩ := hs.frame o backend hpin
    obtain ⟨address, port, htarget, htranslate⟩ := haffine 0 frame o backend hwire hpin
    rw [htarget]
    exact translate_destination_iff.mp htranslate
  · intro hplace now frame o backend _ hpin
    obtain ⟨address, port, htarget⟩ := hs.target o backend hpin
    refine ⟨address, port, htarget, translate_destination_iff.mpr ?_⟩
    rw [← htarget]
    exact hplace o backend hpin

/-- A step that pins no flow, gives no pinned flow's tuple to the reply index and leaves the
    service of every flow that stays pinned keeps the pins in place. -/
theorem InPlace.keep (h : Step hash localNode s e t) (hs : InPlace hash s)
    (hdnat : dnatFlow hash s.tables e = none)
    (hindex : ∀ o, s.tables.conntrackReplyIndex o = none → t.tables.conntrackReplyIndex o = none)
    (hservice : ∀ o backend, s.pins o = some backend → offered t.tables o backend = true →
      targetOf hash t.tables o = targetOf hash s.tables o) : InPlace hash t := by
  intro o backend hpin
  rw [h.2, pinsAfter_eq_some] at hpin
  obtain ⟨hpin | ⟨-, hflow, -⟩, -, hoffered⟩ := hpin
  · obtain ⟨hnone, htarget⟩ := hs o backend hpin
    exact ⟨hindex o hnone, (hservice o backend hpin hoffered).trans htarget⟩
  · cases hdnat.symm.trans hflow

/-- A frame that is translated keeps the pins in place exactly when it puts no pinned flow's
    tuple into the reply index. -/
theorem inPlace_dnat_iff {now : Nat} {frame : Frame} {wire : FlowTuple} {address : Ipv4Addr}
    {port : Port} (h : Step hash localNode s (.frame now frame) t) (hs : Inv s)
    (hplace : InPlace hash s) (hdnat : dnatOf hash s.tables frame = some (wire, address, port)) :
    InPlace hash t ↔
      wire.reply address port ≠ wire ∧ s.pins (wire.reply address port) = none := by
  obtain ⟨hstep, hpins⟩ := h
  obtain ⟨-, hnone, htarget⟩ := dnatOf_eq_some.mp hdnat
  obtain ⟨hconntrack, hindex⟩ := hstep.tables.of_dnat hdnat
  have hservices : t.tables.services = s.tables.services := hstep.services
  have hflow : dnatFlow hash s.tables (.frame now frame) = some wire :=
    congrArg (Option.map Prod.fst) hdnat
  have hentry : ∀ o, (s.tables.conntrack.lookup o).isSome = true →
      (t.tables.conntrack.lookup o).isSome = true := by
    intro o ho
    rw [hconntrack]
    by_cases heq : o = wire
    · rw [heq, AList.lookup_insert]
      rfl
    · rwa [AList.lookup_insert_ne heq]
  -- A frame flushes no entry and leaves the services, so no flow loses its pin.
  have hstays : ∀ o backend, s.pins o = some backend → t.pins o = some backend := by
    intro o backend hpin
    obtain ⟨ho, hoffered⟩ := hs.kept o backend hpin
    rw [hpins, pinsAfter_eq_some]
    refine ⟨.inl hpin, hentry o ho, ?_⟩
    rwa [offered, hservices]
  constructor
  · intro ht
    refine ⟨fun hself => ?_, Option.eq_none_iff_forall_ne_some.mpr fun backend hpin => ?_⟩
    · -- The flow itself is pinned after the frame.
      obtain ⟨backend, hpin⟩ : ∃ backend, t.pins wire = some backend := by
        cases hold : s.pins wire with
        | some backend => exact ⟨backend, hstays wire backend hold⟩
        | none =>
          obtain ⟨backend, hchosen, -⟩ := Option.bind_eq_some_iff.mp htarget
          refine ⟨backend, ?_⟩
          rw [hpins, pinsAfter_eq_some]
          refine ⟨.inr ⟨hold, hflow, hchosen⟩, ?_, ?_⟩
          · rw [hconntrack, AList.lookup_insert]
            rfl
          · rw [offered, hservices]
            exact offered_of_chosen hchosen
      have hgone := (ht wire backend hpin).1
      rw [hindex, hself, KeyMap.insert_self] at hgone
      cases hgone
    · -- The reply tuple of this frame is the tuple of an older flow.
      have hgone := (ht _ backend (hstays _ backend hpin)).1
      rw [hindex, KeyMap.insert_self] at hgone
      cases hgone
  · rintro ⟨hself, hfree⟩ o backend hpin
    rw [hpins, pinsAfter_eq_some] at hpin
    rw [targetOf_congr (congrFun hservices o.frontend)]
    obtain ⟨hpin | ⟨-, ho, hchosen⟩, -⟩ := hpin
    · obtain ⟨hnone', htarget'⟩ := hplace o backend hpin
      have hne : o ≠ wire.reply address port := by
        rintro rfl
        cases hfree.symm.trans hpin
      refine ⟨?_, htarget'⟩
      rw [hindex, KeyMap.insert_of_ne _ _ hne]
      exact hnone'
    · -- The flow that this frame pins.
      obtain rfl : wire = o := Option.some.inj (hflow.symm.trans ho)
      refine ⟨?_, ?_⟩
      · rw [hindex, KeyMap.insert_of_ne _ _ hself.symm]
        exact hnone
      · rw [targetOf, hchosen]
        rfl

/-- A list of backends that is put in place keeps the pins in place exactly when it has the
    backends of the flows that stay pinned where their hashes point. -/
theorem inPlace_addService_iff {service : Service}
    (h : Step hash localNode s (.addService service) t) (hs : Inv s) (hplace : InPlace hash s) :
    InPlace hash t ↔ Steady hash s (.addService service) := by
  have hservices : t.tables.services = s.tables.services.insert service.frontend service :=
    h.1.services
  have hindex : t.tables.conntrackReplyIndex = s.tables.conntrackReplyIndex := by
    cases h.1.tables with
    | other _ _ _ hindex => exact hindex
  constructor
  · -- A pin whose backend the new list has is a pin after the step.
    intro ht o backend hpin hfrontend hbackend
    have hservice : t.tables.services o.frontend = some service := by
      rw [hservices, hfrontend]
      exact KeyMap.insert_self _ _ _
    have hpin' : t.pins o = some backend := by
      rw [h.2, pinsAfter_eq_some]
      refine ⟨.inl hpin, ?_, ?_⟩
      · cases h.1.tables with
        | other _ _ hconntrack _ =>
          rw [hconntrack]
          exact (hs.kept o backend hpin).1
      · rw [offered, hservice]
        exact List.elem_eq_true_of_mem hbackend
    obtain ⟨address, port, htarget⟩ := hs.target o backend hpin
    have hplaced := (ht o backend hpin').2
    rw [htarget, targetOf_eq_some] at hplaced
    obtain ⟨service', found, hservice', hfound, hfound'⟩ := hplaced
    cases hservice.symm.trans hservice'
    exact ⟨found, hfound, hfound'.trans htarget.symm⟩
  · -- Only the flows of this frontend look at the new list.
    intro hsteady o backend hpin
    rw [h.2, pinsAfter_eq_some] at hpin
    obtain ⟨hpin | ⟨-, hflow, -⟩, -, hoffered⟩ := hpin
    · obtain ⟨hnone, htarget⟩ := hplace o backend hpin
      rw [hindex]
      refine ⟨hnone, ?_⟩
      by_cases hfrontend : o.frontend = service.frontend
      · have hservice : t.tables.services o.frontend = some service := by
          rw [hservices, hfrontend]
          exact KeyMap.insert_self _ _ _
        rw [offered, hservice] at hoffered
        obtain ⟨found, hfound, hsame⟩ :=
          hsteady o backend hpin hfrontend (List.mem_of_elem_eq_true hoffered)
        obtain ⟨address, port, hbackend⟩ := hs.target o backend hpin
        rw [hbackend, targetOf_eq_some]
        exact ⟨service, found, hservice, hfound, hsame.trans hbackend⟩
      · rw [← htarget]
        refine targetOf_congr ?_
        rw [hservices]
        exact KeyMap.insert_of_ne _ _ hfrontend
    · cases hflow

/-- **Step.** Out of pins in place, a step leads to pins in place exactly when it is steady. -/
theorem inPlace_step_iff (h : Step hash localNode s e t) (hs : Inv s) (hplace : InPlace hash s) :
    InPlace hash t ↔ Steady hash s e := by
  have hservices := h.1.services
  cases e with
  | frame now frame =>
    cases hdnat : dnatOf hash s.tables frame with
    | some found =>
      obtain ⟨wire, address, port⟩ := found
      rw [inPlace_dnat_iff h hs hplace hdnat]
      constructor
      · rintro hkeep _ _ _ hdnat'
        cases hdnat.symm.trans hdnat'
        exact hkeep
      · intro hkeep
        exact hkeep _ _ _ hdnat
    | none =>
      refine iff_of_true (hplace.keep h (congrArg (Option.map Prod.fst) hdnat) ?_ ?_) ?_
      · intro o hnone
        rwa [h.1.tables.index_of_not_dnat hdnat]
      · exact fun o _ _ _ => targetOf_congr (congrFun hservices o.frontend)
      · rintro _ _ _ hdnat'
        cases hdnat.symm.trans hdnat'
  | addService service => exact inPlace_addService_iff h hs hplace
  | removeService frontend =>
    refine iff_of_true (hplace.keep h rfl ?_ fun o backend _ hoffered => targetOf_congr ?_) trivial
    · cases h.1.tables with
      | other _ _ _ hindex =>
        intro o hnone
        rwa [hindex]
    · -- The frontend of a flow that stays pinned is not the one that is removed.
      rw [hservices]
      refine KeyMap.remove_of_ne _ fun hfrontend => ?_
      rw [offered, hservices, hfrontend] at hoffered
      simp [servicesAfter] at hoffered
  | flushConntrack endpoint =>
    refine iff_of_true (hplace.keep h rfl ?_ fun o _ _ _ => ?_) trivial
    · cases h.1.tables with
      | flush _ hindex =>
        intro o hnone
        rw [hindex, Option.eq_none_iff_forall_ne_some]
        intro original horiginal
        cases hnone.symm.trans ((flushConntrack_index hs.keyed).mp horiginal).1
      | other _ hflush => exact absurd rfl (hflush endpoint)
    · exact targetOf_congr (congrFun hservices o.frontend)
  | _ =>
    refine iff_of_true (hplace.keep h rfl ?_ fun o _ _ _ => ?_) trivial
    · cases h.1.tables with
      | other _ _ _ hindex =>
        intro o hnone
        rwa [hindex]
    · exact targetOf_congr (congrFun hservices o.frontend)

/-- **Flow affinity.** In a run from the empty tables, whatever frame of a pinned flow comes
    next goes to the flow's backend, in every state, exactly when every `add_service` that
    keeps the backend of a pinned flow has it where the flow's hash points, and no frame is
    translated with the tuple of a pinned flow as its reply tuple. -/
theorem affine_always_iff (run : Run (Step hash localNode) start s) :
    run.Always (Affine hash) ↔ run.EachStep fun s e _ => Steady hash s e := by
  refine run.always_iff_eachStep affine_start inv_start (fun _ _ _ h _ hs _ => hs.step h) ?_
  intro s e t h haffine hs
  rw [affine_iff_inPlace (hs.step h)]
  exact inPlace_step_iff h hs ((affine_iff_inPlace hs).mp haffine)

/-- A backend is added to a service, on the side that moves the flow's hash off its backend;
    the flow's next frame goes to the new one. -/
theorem added_backend_moves_flow : ¬ ∃ (hash : FlowTuple → BitVec 64) (localNode : NodeId),
    ∀ (s : Pinned) (run : Run (Step hash localNode) start s), run.Always (Affine hash) := by
  rintro ⟨hash, localNode, hall⟩
  have step : ∀ (s : Pinned) (e : SoftEvent) (t : State), Soft.Step hash localNode s.tables e t →
      Step hash localNode s e ⟨t, s.pinsAfter hash e t⟩ := fun _ _ _ h => ⟨h, rfl⟩
  obtain ⟨backends, hkept, hmoved⟩ : ∃ backends : List ServiceBackend,
      webBackend 2 ∈ backends ∧
        backends[(hash (webFlow 100)).toNat % backends.length]? = some (webBackend 3) := by
    rcases Nat.mod_two_eq_zero_or_one (hash (webFlow 100)).toNat with h | h
    · refine ⟨[webBackend 3, webBackend 2], by simp, ?_⟩
      rw [List.length_cons, List.length_singleton, h]
      rfl
    · refine ⟨[webBackend 2, webBackend 3], by simp, ?_⟩
      rw [List.length_cons, List.length_singleton, h]
      rfl
  have hservice : Soft.Step hash localNode State.default _ oneService :=
    step_apply hash localNode State.default (.addService (webService 100 [webBackend 2]))
  have hfirst : dnatOf hash oneService (webRequest 100) = some (webFlow 100, hostAddr 2, 8080) :=
    dnatOf_of_single (wireOf_webRequest 100) rfl rfl rfl rfl
  have run := Run.nil.snoc start _ _ (step _ _ _ hservice)
  have run := run.snoc _ _ _ (step _ _ _ (step_of_dnat localNode 0 hfirst))
  have run := run.snoc _ _ _ (step _ _ _
    (step_apply hash localNode calledService (.addService (webService 100 backends))))
  have haffine := (hall _ run).last
  -- The flow is pinned by its first frame, and stays pinned over the change of the service.
  have hpinned : pinsAfter hash
      ⟨oneService, pinsAfter hash start (.addService (webService 100 [webBackend 2])) oneService⟩
      (.frame 0 (webRequest 100)) calledService (webFlow 100) = some (webBackend 2) :=
    pinsAfter_eq_some.mpr ⟨.inr ⟨rfl, congrArg (Option.map Prod.fst) hfirst,
      selectBackend_singleton _ _⟩, rfl, rfl⟩
  obtain ⟨address, port, ⟨⟩, htranslate⟩ := haffine 0 (webRequest 100) (webFlow 100)
    (webBackend 2) (wireOf_webRequest 100)
    (pinsAfter_eq_some.mpr ⟨.inl hpinned, rfl, List.elem_eq_true_of_mem hkept⟩)
  rw [translate_destination_iff, targetOf_eq_some] at htranslate
  obtain ⟨-, service, found, hservice, hfound, htarget⟩ := htranslate
  cases hservice
  cases (hfound.symm.trans hmoved)
  cases htarget

end Pinned

end Sarena.Soft
