import Sarena.Ebpf.Arp

namespace Sarena.Ebpf.Programs

open Lib

/-!
# eBPF programs — what becomes of a packet

A packet for an endpoint of the node is delivered, whichever of the two programs sees it; any
other packet keeps its bytes, except for the ARP requests that are answered.

* `Deliverable` — the packets that are delivered, and the endpoint they are for;
* `run_processIpv4` — the cases of the code, one lemma for each;
* `classifier_fate` — what any of the programs does to any packet;
* `hops_bounded` — a packet that goes from hop to hop is used up.
-/

variable {k : Kernel} {maps : Maps} {ctx : Ctx} {w : Work} {packet : Bytes} {ep : EndpointInfo}

/-! ### IPv4 packets -/

/-- The packet that local delivery hands on. -/
def delivered (ep : EndpointInfo) (packet : Bytes) : Bytes :=
  addressed (decremented packet) ep.hostMac ep.containerMac

theorem run_localDelivery {k : Helpers} (hk : IncrementalUpdate k) (hlen : 34 ≤ packet.length)
    (httl : 2 ≤ (packet.byteAt 22).toNat) : (localDelivery k ep).run.run packet =
      (.ok (.redirect (BitVec.ofInt 32 (k.redirect ep.ifIndex 0))), delivered ep packet) := by
  have hdec := length_decremented hlen
  rw [localDelivery, Ebpf.run_bind_ok (run_ipv4DecTtl hk hlen httl),
    Ebpf.run_bind_ok (run_rewriteEth _ _ (by omega))]
  rfl

theorem run_localDelivery_exceeded {k : Helpers} (hlen : 34 ≤ packet.length)
    (httl : (packet.byteAt 22).toNat ≤ 1) :
    (localDelivery k ep).run.run packet = (.error .ttlExceeded, packet) :=
  Ebpf.run_bind_error (run_ipv4DecTtl_exceeded hlen httl)

/-- Code of local delivery leaves the metrics alone. -/
theorem run_liftDelivery (updates : List (BitVec 64 × Byte)) {m : Ebpf.Res Verdict}
    {result : Except EbpfError Verdict} {packet' : Bytes}
    (h : m.run.run packet = (result, packet')) :
    (liftDelivery m).run.run ⟨packet, updates⟩ = (result, ⟨packet', updates⟩) := by
  have hpacket : (m.run.run packet).2 = packet' := by rw [h]
  have hresult : (m.run.run packet).1 = result := by rw [h]
  rw [← hpacket, ← hresult]
  rfl

/-- The Ethernet header that a container's program looks at once more is there. -/
theorem run_processIpv4Container : (processIpv4Container k maps ctx).run.run w =
    (processIpv4 k maps ctx OBS_POINT_CONTAINER_FORWARD).run.run w := by
  rcases Nat.lt_or_ge w.packet.length 34 with hshort | hlen
  · rw [processIpv4Container, processIpv4, run_of_error (run_refAt_short hshort),
      run_of_error (run_refAt_short hshort)]
  have hethernet : ETH_HDR_LEN ≤ w.packet.length := Nat.le_trans (by decide) hlen
  rw [processIpv4Container, processIpv4, run_of_ok (run_refAt hlen), run_of_ok (run_refAt hlen),
    run_of_ok run_get, run_of_ok run_get]
  by_cases hfragmented : isFragmented w.packet = true
  · rw [if_pos hfragmented, if_pos hfragmented]
  · rw [if_neg hfragmented, if_neg hfragmented]
    exact run_of_ok (run_refAt ((Nat.zero_add _).trans_le hethernet))

/-- The update of the metrics that is made for a packet. -/
def update (ctx : Ctx) (obsPoint : Byte) : BitVec 64 × Byte := (ctx.len.setWidth 64, obsPoint)

/-- The endpoint that a packet is for, in the `lxc_map`. -/
def endpointOf (maps : Maps) (packet : Bytes) : Option EndpointInfo :=
  lookupEndpoint maps (.fromIpv4Octets (dstAddr packet))

section

variable (k maps ctx) (obsPoint : Byte)

theorem run_processIpv4_short (hlen : w.packet.length < 34) :
    (processIpv4 k maps ctx obsPoint).run.run w = (.error (.common .packetSizeError), w) :=
  run_of_error (run_refAt_short hlen)

theorem run_processIpv4_fragment (hlen : 34 ≤ w.packet.length)
    (hfragmented : isFragmented w.packet = true) :
    (processIpv4 k maps ctx obsPoint).run.run w = (.ok .drop, w) := by
  rw [processIpv4, run_of_ok (run_refAt hlen), run_of_ok run_get, if_pos hfragmented]
  rfl

theorem run_processIpv4_none (hlen : 34 ≤ w.packet.length)
    (hfragmented : isFragmented w.packet = false) (hnone : endpointOf maps w.packet = none) :
    (processIpv4 k maps ctx obsPoint).run.run w = (.ok .pass, w) := by
  rw [processIpv4, run_of_ok (run_refAt hlen), run_of_ok run_get,
    if_neg (ne_true_of_eq_false hfragmented),
    show lookupEndpoint maps (.fromIpv4Octets (dstAddr w.packet)) = none from hnone]
  rfl

variable {maps}

theorem run_processIpv4_some (hlen : 34 ≤ w.packet.length)
    (hfragmented : isFragmented w.packet = false) (hsome : endpointOf maps w.packet = some ep) :
    (processIpv4 k maps ctx obsPoint).run.run w =
      (liftDelivery (localDelivery k.toHelpers ep)).run.run
        ⟨w.packet, w.updates ++ [update ctx obsPoint]⟩ := by
  rw [processIpv4, run_of_ok (run_refAt hlen), run_of_ok run_get,
    if_neg (ne_true_of_eq_false hfragmented),
    show lookupEndpoint maps (.fromIpv4Octets (dstAddr w.packet)) = some ep from hsome]
  rfl

end

/-- The endpoint is counted for, but a packet that is used up is not delivered. -/
theorem run_processIpv4_exceeded (obsPoint : Byte) (hlen : 34 ≤ w.packet.length)
    (hfragmented : isFragmented w.packet = false) (hsome : endpointOf maps w.packet = some ep)
    (httl : (w.packet.byteAt 22).toNat ≤ 1) :
    (processIpv4 k maps ctx obsPoint).run.run w =
      (.error .ttlExceeded, ⟨w.packet, w.updates ++ [update ctx obsPoint]⟩) := by
  rw [run_processIpv4_some k ctx obsPoint hlen hfragmented hsome]
  exact run_liftDelivery _ (run_localDelivery_exceeded hlen httl)

/-- An endpoint's packet is delivered. -/
theorem run_processIpv4_delivers (hk : IncrementalUpdate k.toHelpers) (obsPoint : Byte)
    (hlen : 34 ≤ w.packet.length) (hfragmented : isFragmented w.packet = false)
    (hsome : endpointOf maps w.packet = some ep) (httl : 2 ≤ (w.packet.byteAt 22).toNat) :
    (processIpv4 k maps ctx obsPoint).run.run w =
      (.ok (.redirect (BitVec.ofInt 32 (k.redirect ep.ifIndex 0))),
        ⟨delivered ep w.packet, w.updates ++ [update ctx obsPoint]⟩) := by
  rw [run_processIpv4_some k ctx obsPoint hlen hfragmented hsome]
  exact run_liftDelivery _ (run_localDelivery hk hlen httl)

/-! ### Any program and any packet -/

/-- The packets that are delivered: whole IPv4 packets for an endpoint, not used up. -/
structure Deliverable (maps : Maps) (packet : Bytes) (ep : EndpointInfo) : Prop where
  length : 34 ≤ packet.length
  ipv4 : be16 packet 12 = 0x0800
  whole : isFragmented packet = false
  endpoint : endpointOf maps packet = some ep
  ttl : 2 ≤ (packet.byteAt 22).toNat

/-- The programs that deliver, with the points at which they count.  That of a container needs
    its configuration. -/
def Classifier.obsPoint (maps : Maps) : Classifier → Option Byte
  | .fromContainer =>
    if maps.endpointConfig.isSome then some OBS_POINT_CONTAINER_FORWARD else none
  | .fromHost => some OBS_POINT_HOST_FORWARD
  | _ => none

/-- `dispatch` drops the packet, and raises one counter of the CPU by one. -/
def Dropped (r : Except EbpfError Verdict) : Prop :=
  ∀ (n : Nat) (cpu : Fin n) (errors : Errors n), ∃ slot : Fin 16, dispatch cpu errors r =
    (TCX_DROP, Function.update errors slot
      (Function.update (errors slot) cpu (errors slot cpu + 1)))

/-- The packet keeps its bytes and is not redirected; on an error it is dropped and counted. -/
structure Untouched (packet : Bytes) (r : Except EbpfError Verdict × Work) : Prop where
  packet : r.2.packet = packet
  result : ∀ code, r.1 ≠ .ok (.redirect code)
  error : ∀ e, r.1 = .error e → Dropped r.1

/-- The error has a counter, and drops the packet. -/
theorem dropped_error {e : EbpfError} (hdrop : e.verdict = .drop) (hcode : e.code < 16) :
    Dropped (.error e) := by
  intro n cpu errors
  refine ⟨⟨e.code, hcode⟩, ?_⟩
  rw [dispatch, hdrop]
  refine Prod.ext rfl (funext fun slot => funext fun cpu' => ?_)
  show (if slot.val = e.code ∧ cpu' = cpu then errors slot cpu' + 1 else errors slot cpu') =
    Function.update errors ⟨e.code, hcode⟩ _ slot cpu'
  rw [Function.update_apply]
  by_cases hslot : slot = ⟨e.code, hcode⟩
  · subst hslot
    rw [if_pos rfl, Function.update_apply]
    by_cases hcpu : cpu' = cpu
    · rw [if_pos ⟨rfl, hcpu⟩, if_pos hcpu, hcpu]
    · rw [if_neg fun h => hcpu h.2, if_neg hcpu]
  · rw [if_neg fun h => hslot (Fin.ext h.1), if_neg hslot]

theorem untouched_pass (w : Work) : Untouched w.packet (.ok .pass, w) :=
  ⟨rfl, (fun _ h => by cases h), (fun _ h => by cases h)⟩

theorem untouched_drop (w : Work) : Untouched w.packet (.ok .drop, w) :=
  ⟨rfl, (fun _ h => by cases h), (fun _ h => by cases h)⟩

theorem untouched_error (w : Work) {e : EbpfError} (hdrop : e.verdict = .drop)
    (hcode : e.code < 16) : Untouched w.packet (.error e, w) :=
  ⟨rfl, (fun _ h => by cases h), fun _ _ => dropped_error hdrop hcode⟩

theorem untouched_short (w : Work) :
    Untouched w.packet (.error (.common .packetSizeError), w) :=
  untouched_error w rfl (by decide)

/-- A packet that is not deliverable passes through `process_ipv4` untouched. -/
theorem untouched_processIpv4 (obsPoint : Byte)
    (h : ∀ ep, 34 ≤ w.packet.length → isFragmented w.packet = false →
      endpointOf maps w.packet = some ep → ¬ 2 ≤ (w.packet.byteAt 22).toNat) :
    Untouched w.packet ((processIpv4 k maps ctx obsPoint).run.run w) := by
  rcases Nat.lt_or_ge w.packet.length 34 with hshort | hlen
  · rw [run_processIpv4_short k maps ctx obsPoint hshort]
    exact untouched_short w
  cases hfragmented : isFragmented w.packet with
  | true =>
    rw [run_processIpv4_fragment k maps ctx obsPoint hlen hfragmented]
    exact untouched_drop w
  | false =>
    cases hep : endpointOf maps w.packet with
    | none =>
      rw [run_processIpv4_none k maps ctx obsPoint hlen hfragmented hep]
      exact untouched_pass w
    | some ep =>
      have httl := h ep hlen hfragmented hep
      rw [run_processIpv4_exceeded obsPoint hlen hfragmented hep (by omega)]
      exact untouched_error (e := .ttlExceeded) ⟨w.packet, w.updates ++ _⟩ rfl (by decide)

/-- What is not delivered is left alone, except for ARP at a container. -/
theorem untouched_run (hk : k.Lawful) (c : Classifier) (packet : Bytes)
    (h : ∀ ep obs, c.obsPoint maps = some obs → ¬ Deliverable maps packet ep)
    (harp : c = .fromContainer → be16 packet 12 ≠ 0x0806) :
    Untouched packet (c.run k maps ctx packet) := by
  have hipv4 : ∀ obs, c.obsPoint maps = some obs → be16 packet 12 = 0x0800 →
      Untouched packet ((processIpv4 k maps ctx obs).run.run ⟨packet, []⟩) :=
    fun obs hobs hether => untouched_processIpv4 (w := ⟨packet, []⟩) obs
      fun ep hlen hwhole hep httl => h ep obs hobs ⟨hlen, hether, hwhole, hep, httl⟩
  cases c with
  | fromContainer =>
    show Untouched packet ((tryFromContainer k maps ctx).run.run ⟨packet, []⟩)
    rcases Nat.lt_or_ge packet.length 14 with hshort | hlen
    · rw [run_tryFromContainer_short hshort]
      exact untouched_short ⟨packet, []⟩
    cases hconfig : maps.endpointConfig with
    | none =>
      rw [run_tryFromContainer_config hlen hconfig]
      split_ifs
      · exact untouched_pass ⟨packet, []⟩
      · exact untouched_error ⟨packet, []⟩ rfl (by decide)
    | some config =>
      rw [run_tryFromContainer hlen hconfig]
      cases hether : k.etherType (be16 packet 12) with
      | none => exact untouched_pass ⟨packet, []⟩
      | some etherType =>
        cases etherType with
        | ipv4 =>
          show Untouched packet ((processIpv4Container k maps ctx).run.run ⟨packet, []⟩)
          rw [run_processIpv4Container]
          refine hipv4 _ ?_ ((hk.ipv4 _).mp hether)
          rw [Classifier.obsPoint, hconfig]
          rfl
        | arp => exact absurd ((hk.arp _).mp hether) (harp rfl)
        | other => exact untouched_drop ⟨packet, []⟩
  | fromHost =>
    show Untouched packet ((tryFromHost k maps ctx).run.run ⟨packet, []⟩)
    rcases Nat.lt_or_ge packet.length 14 with hshort | hlen
    · rw [run_tryFromHost_short hshort]
      exact untouched_short ⟨packet, []⟩
    rw [run_tryFromHost hlen]
    split_ifs with hether
    · exact hipv4 _ rfl ((hk.ipv4 _).mp hether)
    · exact untouched_pass ⟨packet, []⟩
  | toContainer => exact untouched_pass ⟨packet, []⟩
  | toHost => exact untouched_pass ⟨packet, []⟩
  | fromNetdev => exact untouched_pass ⟨packet, []⟩
  | toNetdev => exact untouched_pass ⟨packet, []⟩
  | fromOverlay => exact untouched_pass ⟨packet, []⟩
  | toOverlay => exact untouched_pass ⟨packet, []⟩
  | fromWireguard => exact untouched_pass ⟨packet, []⟩
  | toWireguard => exact untouched_pass ⟨packet, []⟩

/-- A deliverable packet is delivered by either program. -/
theorem run_deliverable (hk : k.Lawful) {c : Classifier} {obs : Byte}
    (hobs : c.obsPoint maps = some obs) (h : Deliverable maps packet ep) :
    c.run k maps ctx packet = (.ok (.redirect (BitVec.ofInt 32 (k.redirect ep.ifIndex 0))),
      ⟨delivered ep packet, [update ctx obs]⟩) := by
  have hlen : 14 ≤ packet.length := Nat.le_trans (by decide) h.length
  have hether := (hk.ipv4 _).mpr h.ipv4
  have hdelivers : ∀ obs, (processIpv4 k maps ctx obs).run.run ⟨packet, []⟩ = _ := fun obs =>
    run_processIpv4_delivers hk.update obs h.length h.whole h.endpoint h.ttl
  cases c with
  | fromContainer =>
    cases hconfig : maps.endpointConfig with
    | none =>
      rw [Classifier.obsPoint, hconfig] at hobs
      cases hobs
    | some config =>
      rw [Classifier.obsPoint, hconfig] at hobs
      obtain rfl : OBS_POINT_CONTAINER_FORWARD = obs := Option.some.inj hobs
      show (tryFromContainer k maps ctx).run.run ⟨packet, []⟩ = _
      rw [run_tryFromContainer hlen hconfig, hether]
      exact run_processIpv4Container.trans (hdelivers _)
  | fromHost =>
    obtain rfl : OBS_POINT_HOST_FORWARD = obs := Option.some.inj hobs
    show (tryFromHost k maps ctx).run.run ⟨packet, []⟩ = _
    rw [run_tryFromHost hlen, if_pos hether]
    exact hdelivers _
  | _ => cases hobs

/-- An ARP packet at a container that the program fails on. -/
theorem untouched_arp_error (hk : k.Lawful) (harp : be16 packet 12 = 0x0806) {e : EbpfError}
    (he : (Classifier.fromContainer.run k maps ctx packet).1 = .error e) :
    Untouched packet (Classifier.fromContainer.run k maps ctx packet) := by
  have hrun : Classifier.fromContainer.run k maps ctx packet =
    (tryFromContainer k maps ctx).run.run ⟨packet, []⟩ := rfl
  rw [hrun] at he ⊢
  rcases Nat.lt_or_ge packet.length 14 with hshort | hlen
  · rw [run_tryFromContainer_short hshort]
    exact untouched_short ⟨packet, []⟩
  cases hconfig : maps.endpointConfig with
  | none =>
    rw [run_tryFromContainer_config hlen hconfig]
    split_ifs
    · exact untouched_pass ⟨packet, []⟩
    · exact untouched_error ⟨packet, []⟩ rfl (by decide)
  | some config =>
    rw [run_tryFromContainer hlen hconfig, (hk.arp _).mpr harp] at he ⊢
    have hunfold : ((processArp k ctx config).run.run ⟨packet, []⟩).1 = .error e := he
    show Untouched packet ((processArp k ctx config).run.run ⟨packet, []⟩)
    rcases Nat.lt_or_ge packet.length 42 with hshort | hlen42
    · rw [run_processArp_short hshort]
      exact untouched_short ⟨packet, []⟩
    · -- A whole ARP packet is passed on or answered.
      by_cases hask : Asked config packet
      · by_cases hown : AsksOwn config packet
        · rw [run_processArp_own hlen42 hask hown] at hunfold
          cases hunfold
        · rw [run_processArp_reply hlen42 hask hown] at hunfold
          cases hunfold
      · rw [run_processArp_pass hlen42 hask] at hunfold
        cases hunfold

/-- **What becomes of a packet.**  A deliverable packet is redirected to its endpoint with the
    addresses of the endpoint, its TTL counted down and its checksum valid as before.  Any other
    packet keeps its bytes and is not redirected, except for ARP packets at a container; and a
    packet that a program fails on keeps its bytes, is dropped and is counted. -/
theorem classifier_fate (hk : k.Lawful) (maps : Maps) (ctx : Ctx) (c : Classifier)
    (packet : Bytes) :
    (∀ ep obs, c.obsPoint maps = some obs → Deliverable maps packet ep →
      c.run k maps ctx packet = (.ok (.redirect (BitVec.ofInt 32 (k.redirect ep.ifIndex 0))),
        ⟨delivered ep packet, [update ctx obs]⟩) ∧
      ∀ ihl, 20 ≤ ihl → 14 + ihl ≤ packet.length → Verifies (ipv4Header packet ihl) →
        Delivered ep packet ihl (delivered ep packet)) ∧
    ((∀ ep obs, c.obsPoint maps = some obs → ¬ Deliverable maps packet ep) →
      (c = .fromContainer → be16 packet 12 ≠ 0x0806) →
      Untouched packet (c.run k maps ctx packet)) ∧
    (∀ e, (c.run k maps ctx packet).1 = .error e → Untouched packet (c.run k maps ctx packet)) := by
  refine ⟨fun ep obs hobs h => ⟨run_deliverable hk hobs h, fun ihl hihl hlen hsum =>
    delivered_addressed ep hihl hlen hsum h.ttl⟩, untouched_run hk c packet, fun e he => ?_⟩
  by_cases hdeliverable : ∃ ep obs, c.obsPoint maps = some obs ∧ Deliverable maps packet ep
  · obtain ⟨ep, obs, hobs, h⟩ := hdeliverable
    rw [run_deliverable hk hobs h] at he
    cases he
  · by_cases harp : c = .fromContainer ∧ be16 packet 12 = 0x0806
    · obtain ⟨rfl, hether⟩ := harp
      exact untouched_arp_error hk hether he
    · exact untouched_run hk c packet (fun ep obs hobs h => hdeliverable ⟨ep, obs, hobs, h⟩)
        fun hc hether => harp ⟨hc, hether⟩

/-- An endpoint with the address 10.0.0.2. -/
def webInfo : EndpointInfo := ⟨3, .replicate 6 0x0A, .replicate 6 0x0B⟩

def webMaps : Maps where
  lxcMap := KeyMap.empty.insert (.fromIpv4Octets #v[10, 0, 0, 2]) webInfo
  endpointConfig := none

/-- A packet for it, with options in its header. -/
theorem deliverable_optionsPacket : Deliverable webMaps optionsPacket webInfo :=
  ⟨by decide, by decide, by decide, by decide, by decide⟩

theorem classifier_fate_optionsPacket :
    Classifier.fromHost.run littleEndianKernel webMaps ⟨38, 2⟩ optionsPacket =
      (.ok (.redirect 7), ⟨delivered webInfo optionsPacket, [(38, 1)]⟩) :=
  ((classifier_fate lawful_littleEndianKernel webMaps ⟨38, 2⟩ .fromHost optionsPacket).1 webInfo _
    rfl deliverable_optionsPacket).1

/-! ### From hop to hop -/

/-- A program on some node, with the node's kernel, maps and context. -/
structure Hop where
  kernel : { k : Kernel // k.Lawful }
  maps : Maps
  ctx : Ctx
  classifier : Classifier

/-- A program hands the packet on. -/
def HopStep (p : Bytes) (hop : Hop) (q : Bytes) : Prop :=
  ∃ code updates, hop.classifier.run hop.kernel.val hop.maps hop.ctx p =
    (.ok (.redirect code), ⟨q, updates⟩)

theorem length_delivered (hlen : 34 ≤ packet.length) :
    (delivered ep packet).length = packet.length := by
  have hdec := length_decremented hlen
  exact (length_addressed _ _ (by omega)).trans hdec

/-- The bytes of a packet that was delivered, outside the addresses and the checksum. -/
theorem byteAt_delivered (hlen : 34 ≤ packet.length) {i : Nat} (hi : 12 ≤ i)
    (hcheck : ¬ (24 ≤ i ∧ i < 26)) : (delivered ep packet).byteAt i =
      if i = 22 then packet.byteAt 22 - 1 else packet.byteAt i := by
  rw [delivered, byteAt_addressed _ _ hi, byteAt_decremented hlen hcheck]

/-- Delivery counts the TTL down. -/
theorem ttl_delivered (h : Deliverable maps packet ep) :
    ((delivered ep packet).byteAt 22).toNat + 1 = (packet.byteAt 22).toNat := by
  have httl := h.ttl
  have hone : (1 : Byte) ≤ packet.byteAt 22 := by
    rw [BitVec.le_def]
    exact Nat.le_of_succ_le httl
  have hunit : (1 : Byte).toNat = 1 := rfl
  rw [byteAt_delivered h.length (by decide) (by decide), if_pos rfl, BitVec.toNat_sub_of_le hone]
  omega

/-- The number at an offset that is not written. -/
theorem be16_congr {p q : Bytes} {off : Nat}
    (h : ∀ i, off ≤ i → i < off + 2 → q.byteAt i = p.byteAt i) : be16 q off = be16 p off := by
  rw [be16, be16, Bytes.field_congr h]

/-- An ARP packet that is handed on is the reply to a request. -/
theorem replied_of_run (hk : k.Lawful) (harp : be16 packet 12 = 0x0806) {code : BitVec 32}
    {q : Bytes} {updates : List (BitVec 64 × Byte)}
    (h : Classifier.fromContainer.run k maps ctx packet = (.ok (.redirect code), ⟨q, updates⟩)) :
    ∃ config, Asked config packet ∧ ArpReplied config packet q := by
  have hrun : (tryFromContainer k maps ctx).run.run ⟨packet, []⟩ =
    (.ok (.redirect code), ⟨q, updates⟩) := h
  have herror : ∀ e, (Classifier.fromContainer.run k maps ctx packet).1 ≠ .error e := by
    intro e he
    rw [h] at he
    cases he
  rcases Nat.lt_or_ge packet.length 14 with hshort | hlen
  · exact absurd (congrArg Prod.fst (run_tryFromContainer_short hshort)) (herror _)
  cases hconfig : maps.endpointConfig with
  | none =>
    rw [run_tryFromContainer_config hlen hconfig, (hk.arp _).mpr harp] at hrun
    cases congrArg Prod.fst hrun
  | some config =>
    rw [run_tryFromContainer hlen hconfig, (hk.arp _).mpr harp] at hrun
    have hunfold : (processArp k ctx config).run.run ⟨packet, []⟩ =
      (.ok (.redirect code), ⟨q, updates⟩) := hrun
    rcases Nat.lt_or_ge packet.length 42 with hshort | hlen42
    · rw [run_processArp_short hshort] at hunfold
      cases congrArg Prod.fst hunfold
    by_cases hask : Asked config packet
    · by_cases hown : AsksOwn config packet
      · rw [run_processArp_own hlen42 hask hown] at hunfold
        cases congrArg Prod.fst hunfold
      · rw [run_processArp_reply hlen42 hask hown] at hunfold
        obtain rfl : arpReply config packet = q :=
          congrArg (fun r : Except EbpfError Verdict × Work => r.2.packet) hunfold
        exact ⟨config, hask, arpReplied_arpReply hlen42⟩
    · rw [run_processArp_pass hlen42 hask] at hunfold
      cases congrArg Prod.fst hunfold

/-- **A hop**: a delivery, or the reply to an ARP request. -/
theorem HopStep.cases {p q : Bytes} {hop : Hop} (h : HopStep p hop q) :
    (∃ ep, Deliverable hop.maps p ep ∧ q = delivered ep p) ∨
      (be16 p 12 = 0x0806 ∧ ∃ config, Asked config p ∧ ArpReplied config p q) := by
  obtain ⟨code, updates, hrun⟩ := h
  have hk := hop.kernel.property
  by_cases hdeliverable :
      ∃ ep obs, hop.classifier.obsPoint hop.maps = some obs ∧ Deliverable hop.maps p ep
  · obtain ⟨ep, obs, hobs, hd⟩ := hdeliverable
    rw [run_deliverable hk hobs hd] at hrun
    have hq : delivered ep p = q :=
      congrArg (fun r : Except EbpfError Verdict × Work => r.2.packet) hrun
    exact .inl ⟨ep, hd, hq.symm⟩
  by_cases harp : hop.classifier = .fromContainer ∧ be16 p 12 = 0x0806
  · rw [harp.1] at hrun
    exact .inr ⟨harp.2, replied_of_run hk harp.2 hrun⟩
  · have huntouched : Untouched p (hop.classifier.run hop.kernel hop.maps hop.ctx p) :=
      untouched_run hk hop.classifier p (fun ep obs hobs hd => hdeliverable ⟨ep, obs, hobs, hd⟩)
        fun hc hether => harp ⟨hc, hether⟩
    exact absurd (congrArg Prod.fst hrun) (huntouched.result code)

/-- An ARP packet is handed on once, as a reply. -/
theorem arp_hops {p q : Bytes} (run : Run HopStep p q) (harp : be16 p 12 = 0x0806) :
    (run.length = 0 ∧ q = p) ∨
      (run.length = 1 ∧ be16 q 12 = 0x0806 ∧ be16 q 20 = ARPOP_REPLY) := by
  induction run with
  | nil => exact .inl ⟨rfl, rfl⟩
  | snoc q run hop r h ih =>
    have hq : be16 q 12 = 0x0806 := by
      rcases ih with ⟨-, rfl⟩ | ⟨-, hq, -⟩
      · exact harp
      · exact hq
    rcases h.cases with ⟨ep, hd, -⟩ | ⟨-, config, hask, hreplied⟩
    · exact absurd (hd.ipv4.symm.trans hq) (by decide)
    · rcases ih with ⟨hzero, -⟩ | ⟨-, -, hreply⟩
      · refine .inr ⟨congrArg (· + 1) hzero, ?_, hreplied.oper⟩
        rw [be16, Bytes.field_prefix hreplied.types (by decide)]
        exact hq
      · exact absurd (hask.oper.symm.trans hreply) (by decide)

/-- **Hops.**  However a packet goes from node to node, an ARP packet is handed on at most once;
    and every hop of any other packet takes one from its TTL, which stays above zero, and keeps
    everything else but the addresses of the link and the checksum, which stays valid. -/
theorem hops_bounded {p q : Bytes} (run : Run HopStep p q) :
    (be16 p 12 = 0x0806 → run.length ≤ 1) ∧
    (be16 p 12 ≠ 0x0806 →
      run.length + (q.byteAt 22).toNat = (p.byteAt 22).toNat ∧
      (0 < run.length → 0 < (q.byteAt 22).toNat) ∧ q.length = p.length ∧
      (∀ i, 12 ≤ i → i ≠ 22 → i ≠ 24 → i ≠ 25 → q.byteAt i = p.byteAt i) ∧
      ∀ ihl, 20 ≤ ihl → 14 + ihl ≤ p.length → Verifies (ipv4Header p ihl) →
        Verifies (ipv4Header q ihl)) := by
  refine ⟨fun harp => ?_, fun harp => ?_⟩
  · rcases arp_hops run harp with ⟨h, -⟩ | ⟨h, -⟩ <;> omega
  induction run with
  | nil => exact ⟨Nat.zero_add _, fun h => absurd h (Nat.lt_irrefl 0), rfl, fun _ _ _ _ _ => rfl,
      fun _ _ _ h => h⟩
  | snoc q run hop r h ih =>
    obtain ⟨httl, -, hlen, hkept, hsum⟩ := ih
    have hether : be16 q 12 = be16 p 12 :=
      be16_congr fun i hlo hhi => hkept i hlo (by omega) (by omega) (by omega)
    rcases h.cases with ⟨ep, hd, rfl⟩ | ⟨hq, -⟩
    · have hstep := ttl_delivered hd
      have htwo := hd.ttl
      have hlong := hd.length
      refine ⟨?_, fun _ => by omega, (length_delivered hlong).trans hlen, ?_, ?_⟩
      · rw [Run.length]
        omega
      · intro i hi h22 h24 h25
        rw [byteAt_delivered hlong hi (by omega), if_neg h22]
        exact hkept i hi h22 h24 h25
      · intro ihl hihl hfits hp
        exact (delivered_addressed ep hihl (by omega) (hsum ihl hihl hfits hp) htwo).checksum
    · exact absurd (hether.symm.trans hq) harp

end Sarena.Ebpf.Programs
