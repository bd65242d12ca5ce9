import Sarena.Ebpf.Programs

namespace Sarena.Ebpf.Programs

open Lib

/-!
# eBPF programs — ARP

The program of a container answers for every address but the container's own: the request
becomes the reply in its place.

* `Asked` — the requests that are looked into;
* `arpReply`, `ArpReplied` — the reply, and its fields;
* `arp_exchange` — what becomes of any ARP packet, and of the reply to it.
-/

variable {k : Kernel} {maps : Maps} {ctx : Ctx} {config : EndpointConfig} {w : Work}
  {packet : Bytes}

/-- Two arrays compare as equal when they are. -/
theorem bpfMemcmp_eq_zero {a b : Bytes} (h : a.length = b.length) :
    bpfMemcmp a b = 0 ↔ a = b := by
  induction a generalizing b with
  | nil =>
    obtain rfl : b = [] := List.length_eq_zero_iff.mp h.symm
    exact iff_of_true rfl rfl
  | cons x rest ih =>
    cases b with
    | nil => cases h
    | cons y rest' =>
      rw [bpfMemcmp]
      by_cases hne : x = y
      · subst hne
        rw [if_neg (not_not_intro rfl), ih (Nat.succ.inj h), List.cons.injEq]
        exact (and_iff_right rfl).symm
      · have hdiff : (x.toNat : Int) - y.toNat ≠ 0 := fun hzero =>
          hne (BitVec.eq_of_toNat_eq (by omega))
        rw [if_pos hne]
        exact iff_of_false hdiff fun heq => hne (List.cons.inj heq).1

theorem bpfMemcmp_toList {n : Nat} (a b : Vector Byte n) :
    (bpfMemcmp a.toList b.toList == 0) = decide (a = b) := by
  have hlen : a.toList.length = b.toList.length := by
    rw [Vector.length_toList, Vector.length_toList]
  have hiff := (bpfMemcmp_eq_zero hlen).trans Vector.toList_inj
  rw [Bool.eq_iff_iff, beq_iff_eq, hiff, decide_eq_true_iff]

/-- A request to the broadcast address or to the container's peer. -/
structure Asked (config : EndpointConfig) (packet : Bytes) : Prop where
  oper : be16 packet 20 = ARPOP_REQUEST
  htype : be16 packet 14 = ARPHRD_ETHER
  dst : packet.field 0 6 = ETH_BROADCAST ∨ packet.field 0 6 = config.hostMac

/-- The request is for the container's own address. -/
def AsksOwn (config : EndpointConfig) (packet : Bytes) : Prop :=
  config.ipv4.map (beBytes 4) = some (packet.field 38 4)

instance (config : EndpointConfig) (packet : Bytes) : Decidable (AsksOwn config packet) :=
  inferInstanceAs (Decidable (_ = _))

/-- The request, turned into the reply. -/
def arpReply (config : EndpointConfig) (packet : Bytes) : Bytes :=
  let packet1 := (packet.patch 6 config.hostMac.toList).patch 0 (packet.field 6 6).toList
  let packet2 := (packet1.patch 20 (beBytes 2 ARPOP_REPLY).toList).patch 22 config.hostMac.toList
  let packet3 := packet2.patch 28 (packet.field 38 4).toList
  (packet3.patch 32 (packet.field 6 6).toList).patch 38 (packet.field 28 4).toList

/-- What the reply to a request is. -/
structure ArpReplied (config : EndpointConfig) (packet r : Bytes) : Prop where
  length : r.length = packet.length
  dstMac : r.field 0 6 = packet.field 6 6
  srcMac : r.field 6 6 = config.hostMac
  /-- The EtherType, the types and the sizes of the addresses. -/
  types : r.field 12 8 = packet.field 12 8
  oper : be16 r 20 = ARPOP_REPLY
  sha : r.field 22 6 = config.hostMac
  spa : r.field 28 4 = packet.field 38 4
  tha : r.field 32 6 = packet.field 6 6
  tpa : r.field 38 4 = packet.field 28 4
  rest : r.drop 42 = packet.drop 42

/-! ### The cases of the code -/

theorem run_processArp_short (hlen : w.packet.length < 42) :
    (processArp k ctx config).run.run w = (.error (.common .packetSizeError), w) := by
  rcases Nat.lt_or_ge w.packet.length 14 with hshort | hethernet
  · exact run_of_error (run_refAt_short (by rw [ETH_HDR_LEN]; omega))
  · rw [processArp, run_of_ok (run_refAt (by rw [ETH_HDR_LEN]; omega))]
    exact run_of_error (run_refAt_short (by rw [ETH_HDR_LEN, ARP_HDR_LEN]; omega))

/-- The Ethernet addresses are written first, so the packet keeps its length in between. -/
theorem length_patch_macs (hlen : 42 ≤ packet.length) (a b : Vector Byte 6) :
    ((packet.patch 6 a.toList).patch 0 b.toList).length = packet.length := by
  have ha : 6 + a.toList.length ≤ packet.length := by
    rw [Vector.length_toList]
    omega
  have hb : 0 + b.toList.length ≤ (packet.patch 6 a.toList).length := by
    rw [Bytes.length_patch ha, Vector.length_toList]
    omega
  rw [Bytes.length_patch hb, Bytes.length_patch ha]

/-- The reply is written whole. -/
theorem run_writeArpReply (hlen : 42 ≤ w.packet.length) :
    (writeArpReply config.hostMac (w.packet.field 6 6) (w.packet.field 38 4)
      (w.packet.field 28 4)).run.run w =
      (.ok (), { w with packet := arpReply config w.packet }) := by
  have hmacs := length_patch_macs hlen config.hostMac (w.packet.field 6 6)
  rw [writeArpReply, run_of_ok (run_refAt (by rw [ETH_HDR_LEN]; omega)), run_of_ok (run_write _ _),
    run_of_ok (run_write _ _),
    run_of_ok (run_refAt (by rw [hmacs, ETH_HDR_LEN, ARP_HDR_LEN]; omega))]
  rfl

/-- What the code asks of a request. -/
theorem asked_iff : Asked config packet ↔
    (be16 packet 20 = ARPOP_REQUEST ∧ be16 packet 14 = ARPHRD_ETHER) ∧
      (ethIsBcast (packet.field 0 6) ||
        bpfMemcmp (packet.field 0 6).toList config.hostMac.toList == 0) = true := by
  rw [ethIsBcast, bpfMemcmp_toList, bpfMemcmp_toList, Bool.or_eq_true, decide_eq_true_iff,
    decide_eq_true_iff]
  exact ⟨fun h => ⟨⟨h.oper, h.htype⟩, h.dst⟩, fun h => ⟨h.1.1, h.1.2, h.2⟩⟩

/-- What is not asked of the program goes to the stack. -/
theorem run_processArp_pass (hlen : 42 ≤ w.packet.length) (hask : ¬ Asked config w.packet) :
    (processArp k ctx config).run.run w = (.ok .pass, w) := by
  rw [processArp, run_of_ok (run_refAt (by rw [ETH_HDR_LEN]; omega)),
    run_of_ok (run_refAt (by rw [ETH_HDR_LEN, ARP_HDR_LEN]; omega)), run_of_ok run_get]
  rw [asked_iff, not_and_or, Bool.not_eq_true] at hask
  exact congrArg (fun m : Res Verdict => m.run.run w) (if_pos hask)

/-- The rest of `process_arp`, for a request. -/
theorem run_processArp_asked (hlen : 42 ≤ w.packet.length) (hask : Asked config w.packet) :
    (processArp k ctx config).run.run w =
      (if AsksOwn config w.packet then pure .next
      else do
        writeArpReply config.hostMac (w.packet.field 6 6) (w.packet.field 38 4)
          (w.packet.field 28 4)
        return .redirect (BitVec.ofInt 32 (k.redirectPeer ctx.ifindex 0)) :
          Res Verdict).run.run w := by
  rw [processArp, run_of_ok (run_refAt (by rw [ETH_HDR_LEN]; omega)),
    run_of_ok (run_refAt (by rw [ETH_HDR_LEN, ARP_HDR_LEN]; omega)), run_of_ok run_get]
  have hnot := not_not_intro (asked_iff.mp hask)
  rw [not_and_or, Bool.not_eq_true] at hnot
  exact congrArg (fun m : Res Verdict => m.run.run w) (if_neg hnot)

/-- The container's own address is answered by the stack. -/
theorem run_processArp_own (hlen : 42 ≤ w.packet.length) (hask : Asked config w.packet)
    (hown : AsksOwn config w.packet) :
    (processArp k ctx config).run.run w = (.ok .next, w) := by
  rw [run_processArp_asked hlen hask, if_pos hown]
  rfl

/-- Every other address is answered here. -/
theorem run_processArp_reply (hlen : 42 ≤ w.packet.length) (hask : Asked config w.packet)
    (hown : ¬ AsksOwn config w.packet) : (processArp k ctx config).run.run w =
      (.ok (.redirect (BitVec.ofInt 32 (k.redirectPeer ctx.ifindex 0))),
        { w with packet := arpReply config w.packet }) := by
  rw [run_processArp_asked hlen hask, if_neg hown, run_of_ok (run_writeArpReply hlen)]
  rfl

/-! ### The reply -/

/-- The writes of the reply, one after the other. -/
theorem arpReplied_arpReply (hlen : 42 ≤ packet.length) :
    ArpReplied config packet (arpReply config packet) := by
  rw [arpReply]
  obtain ⟨l1, s1, d1⟩ := Bytes.field_write (b := packet) config.hostMac (show 6 + 6 ≤ _ by omega)
  generalize packet.patch 6 config.hostMac.toList = p1 at l1 s1 d1 ⊢
  obtain ⟨l2, s2, d2⟩ := Bytes.field_write (b := p1) (packet.field 6 6) (show 0 + 6 ≤ _ by omega)
  generalize p1.patch 0 (packet.field 6 6).toList = p2 at l2 s2 d2 ⊢
  obtain ⟨l3, s3, d3⟩ :=
    Bytes.field_write (b := p2) (beBytes 2 ARPOP_REPLY) (show 20 + 2 ≤ _ by omega)
  generalize p2.patch 20 (beBytes 2 ARPOP_REPLY).toList = p3 at l3 s3 d3 ⊢
  obtain ⟨l4, s4, d4⟩ := Bytes.field_write (b := p3) config.hostMac (show 22 + 6 ≤ _ by omega)
  generalize p3.patch 22 config.hostMac.toList = p4 at l4 s4 d4 ⊢
  obtain ⟨l5, s5, d5⟩ := Bytes.field_write (b := p4) (packet.field 38 4) (show 28 + 4 ≤ _ by omega)
  generalize p4.patch 28 (packet.field 38 4).toList = p5 at l5 s5 d5 ⊢
  obtain ⟨l6, s6, d6⟩ := Bytes.field_write (b := p5) (packet.field 6 6) (show 32 + 6 ≤ _ by omega)
  generalize p5.patch 32 (packet.field 6 6).toList = p6 at l6 s6 d6 ⊢
  obtain ⟨l7, s7, d7⟩ := Bytes.field_write (b := p6) (packet.field 28 4) (show 38 + 4 ≤ _ by omega)
  generalize p6.patch 38 (packet.field 28 4).toList = p7 at l7 s7 d7 ⊢
  -- Each field is followed back to the write that made it.
  refine ⟨by omega, ?_, ?_, ?_, ?_, ?_, ?_, ?_, s7, ?_⟩
  · rw [d7 0 6 (by decide), d6 0 6 (by decide), d5 0 6 (by decide), d4 0 6 (by decide),
      d3 0 6 (by decide), s2]
  · rw [d7 6 6 (by decide), d6 6 6 (by decide), d5 6 6 (by decide), d4 6 6 (by decide),
      d3 6 6 (by decide), d2 6 6 (by decide), s1]
  · rw [d7 12 8 (by decide), d6 12 8 (by decide), d5 12 8 (by decide), d4 12 8 (by decide),
      d3 12 8 (by decide), d2 12 8 (by decide), d1 12 8 (by decide)]
  · rw [be16, d7 20 2 (by decide), d6 20 2 (by decide), d5 20 2 (by decide), d4 20 2 (by decide),
      s3, ofBeBytes_beBytes]
  · rw [d7 22 6 (by decide), d6 22 6 (by decide), d5 22 6 (by decide), s4]
  · rw [d7 28 4 (by decide), d6 28 4 (by decide), s5]
  · rw [d7 32 6 (by decide), s6]
  · refine Bytes.drop_eq_of_field (by omega) ?_
    rw [d7 42 _ (.inr (by decide)), d6 42 _ (.inr (by decide)), d5 42 _ (.inr (by decide)),
      d4 42 _ (.inr (by decide)), d3 42 _ (.inr (by decide)), d2 42 _ (.inr (by decide)),
      d1 42 _ (.inr (by decide))]

/-- An ARP packet that is no request is left alone by every program. -/
theorem run_reply (hk : k.Lawful) (c : Classifier) (harp : be16 packet 12 = 0x0806)
    (hoper : be16 packet 20 = ARPOP_REPLY) : (c.run k maps ctx packet).2 = ⟨packet, []⟩ ∧
      ∀ code, (c.run k maps ctx packet).1 ≠ .ok (.redirect code) := by
  have hether := (hk.arp _).mpr harp
  have hpass : ∀ r : Except EbpfError Verdict × Work, r = (.ok .pass, ⟨packet, []⟩) →
      r.2 = ⟨packet, []⟩ ∧ ∀ code, r.1 ≠ .ok (.redirect code) := by
    rintro _ rfl
    exact ⟨rfl, fun _ h => by cases h⟩
  have hfail : ∀ (e : EbpfError) (r : Except EbpfError Verdict × Work),
      r = (.error e, ⟨packet, []⟩) →
      r.2 = ⟨packet, []⟩ ∧ ∀ code, r.1 ≠ .ok (.redirect code) := by
    rintro e _ rfl
    exact ⟨rfl, fun _ h => by cases h⟩
  cases c with
  | fromContainer =>
    rcases Nat.lt_or_ge packet.length 14 with hshort | hlen
    · exact hfail _ _ (run_tryFromContainer_short hshort)
    cases hconfig : maps.endpointConfig with
    | none =>
      refine hfail .internalError _ ((run_tryFromContainer_config hlen hconfig).trans ?_)
      rw [hether]
      rfl
    | some config =>
      have hrun : Classifier.run k maps ctx .fromContainer packet = _ :=
        run_tryFromContainer hlen hconfig
      rw [hether] at hrun
      rcases Nat.lt_or_ge packet.length 42 with hshort | hlen42
      · exact hfail _ _ (hrun.trans (run_processArp_short hshort))
      · refine hpass _ (hrun.trans (run_processArp_pass hlen42 fun hask => ?_))
        have hrequest := hask.oper
        rw [show be16 packet 20 = ARPOP_REPLY from hoper] at hrequest
        exact absurd hrequest (by decide)
  | fromHost =>
    rcases Nat.lt_or_ge packet.length 14 with hshort | hlen
    · exact hfail _ _ (run_tryFromHost_short hshort)
    · refine hpass _ ((run_tryFromHost hlen).trans ?_)
      rw [hether, if_neg (by decide)]
  | toContainer => exact hpass _ rfl
  | toHost => exact hpass _ rfl
  | fromNetdev => exact hpass _ rfl
  | toNetdev => exact hpass _ rfl
  | fromOverlay => exact hpass _ rfl
  | toOverlay => exact hpass _ rfl
  | fromWireguard => exact hpass _ rfl
  | toWireguard => exact hpass _ rfl

/-- **ARP.**  The program of a container answers a request in its place, unless it is for the
    container's own address; the reply says that the address asked for has the MAC address of
    the host's side.  No program answers, delivers or changes the reply. -/
theorem arp_exchange (hk : k.Lawful) (hconfig : maps.endpointConfig = some config)
    (hlen : 42 ≤ packet.length) (harp : be16 packet 12 = 0x0806) :
    (¬ Asked config packet →
      Classifier.fromContainer.run k maps ctx packet = (.ok .pass, ⟨packet, []⟩)) ∧
    (Asked config packet → AsksOwn config packet →
      Classifier.fromContainer.run k maps ctx packet = (.ok .next, ⟨packet, []⟩)) ∧
    (Asked config packet → ¬ AsksOwn config packet → ∃ r,
      Classifier.fromContainer.run k maps ctx packet =
        (.ok (.redirect (BitVec.ofInt 32 (k.redirectPeer ctx.ifindex 0))), ⟨r, []⟩) ∧
      ArpReplied config packet r ∧
      ∀ (k' : Kernel) (maps' : Maps) (ctx' : Ctx) (c : Classifier), k'.Lawful →
        (c.run k' maps' ctx' r).2 = ⟨r, []⟩ ∧
          ∀ code, (c.run k' maps' ctx' r).1 ≠ .ok (.redirect code)) := by
  have hrun : Classifier.run k maps ctx .fromContainer packet = _ :=
    run_tryFromContainer (show 14 ≤ packet.length by omega) hconfig
  rw [(hk.arp _).mpr harp] at hrun
  refine ⟨fun hask => hrun.trans (run_processArp_pass hlen hask),
    fun hask hown => hrun.trans (run_processArp_own hlen hask hown), fun hask hown => ?_⟩
  have hreplied : ArpReplied config packet (arpReply config packet) := arpReplied_arpReply hlen
  refine ⟨_, hrun.trans (run_processArp_reply hlen hask hown), hreplied, ?_⟩
  intro k' maps' ctx' c hk'
  refine run_reply hk' c ?_ hreplied.oper
  rw [be16, Bytes.field_prefix hreplied.types (by decide)]
  exact harp

/-- A request for 10.0.0.9, from 10.0.0.5. -/
def whoHas : Bytes :=
  List.replicate 6 0xff ++ List.replicate 6 0x0C ++ [0x08, 0x06, 0, 1, 8, 0, 6, 4, 0, 1] ++
    List.replicate 6 0x0C ++ [10, 0, 0, 5] ++ List.replicate 6 0 ++ [10, 0, 0, 9]

/-- The container with the address 10.0.0.5. -/
def containerMaps : Maps where
  lxcMap := .empty
  endpointConfig := some { hostMac := .replicate 6 0x0B, ipv4 := some 0x0A000005 }

theorem arp_exchange_whoHas : ∃ r,
    Classifier.fromContainer.run littleEndianKernel containerMaps ⟨42, 3⟩ whoHas =
      (.ok (.redirect 7), ⟨r, []⟩) ∧
    ArpReplied { hostMac := .replicate 6 0x0B, ipv4 := some 0x0A000005 } whoHas r := by
  have hasked : Asked { hostMac := .replicate 6 0x0B, ipv4 := some 0x0A000005 } whoHas :=
    ⟨by decide, by decide, .inl (by decide)⟩
  have hother : ¬ AsksOwn { hostMac := .replicate 6 0x0B, ipv4 := some 0x0A000005 } whoHas := by
    decide
  have hconfig : containerMaps.endpointConfig =
      some { hostMac := .replicate 6 0x0B, ipv4 := some 0x0A000005 } := rfl
  obtain ⟨r, hrun, hreplied, -⟩ :=
    (arp_exchange lawful_littleEndianKernel hconfig (by decide) (by decide)).2.2 hasked hother
  exact ⟨r, hrun, hreplied⟩

end Sarena.Ebpf.Programs
