import Sarena.Ebpf.Delivery
import Sarena.Loader.LxcEntries
import Sarena.Loader.LxcMap

namespace Sarena.Ebpf.Programs

open Lib Loader

/-!
# eBPF programs — traffic after a reconcile

The daemon writes the `lxc_map` that the programs read.  After a reconcile without an error, an
IPv4 packet goes where the desired endpoints say.

* `programInfo`, `mapsOver` — the entries as the programs read them;
* `endpointOf_mapsOver` — what a program looks up for a packet is the entry of its address;
* `reconciled_traffic` — a packet reaches the last desired container that owns its address.
-/

/-- An entry as the programs read it. -/
def programInfo (info : Loader.EndpointInfo) : Ebpf.EndpointInfo where
  ifIndex := info.ifIndex.toBitVec
  containerMac := info.containerMac.octets.map UInt8.toBitVec
  hostMac := info.hostMac.octets.map UInt8.toBitVec

/-- The maps of a program, over the `lxc_map` of the daemon. -/
def mapsOver (m : KeyMap EndpointKey Loader.EndpointInfo) (config : Option EndpointConfig) :
    Maps where
  lxcMap key := (m key).map programInfo
  endpointConfig := config

/-- The destination address of a packet. -/
def dstIp (packet : Bytes) : IpAddr := .v4 (ofBeBytes (dstAddr packet))

variable {k : Kernel} {m : KeyMap EndpointKey Loader.EndpointInfo}
  {config : Option EndpointConfig} {ctx : Ctx} {packet : Bytes}

/-- What a program looks up for a packet is the entry of its address. -/
theorem endpointOf_mapsOver :
    endpointOf (mapsOver m config) packet = (byAddress m (dstIp packet)).map programInfo := by
  rw [endpointOf, EndpointKey.fromIpv4Octets_eq]
  rfl

/-- Lists that two functions make equal, entry by entry. -/
theorem eq_of_mem_zip {α β γ : Type*} {f : α → γ} {g : β → γ} {as : List α} {bs : List β} {a : α}
    {b : β} (h : as.map f = bs.map g) (hmem : (a, b) ∈ as.zip bs) : f a = g b := by
  induction as generalizing bs with
  | nil => cases hmem
  | cons x rest ih =>
    cases bs with
    | nil => cases hmem
    | cons y rest' =>
      rw [List.map_cons, List.map_cons, List.cons.injEq] at h
      rcases List.mem_cons.mp hmem with heq | hrest
      · obtain ⟨rfl, rfl⟩ := Prod.mk.inj heq
        exact h.1
      · exact ih h.2 hrest

/-- The last entry of an address is that of a container that owns it, on the container's link. -/
theorem owner_of_lastInfo {desired : List LoaderEndpoint} {links : List Link} {ip : IpAddr}
    {info : Loader.EndpointInfo} (hnames : links.map Link.ifname = desired.map LoaderEndpoint.link)
    (h : lastInfo (desired.zip links) ip = some info) :
    ∃ persist link, .container persist ∈ desired ∧ link ∈ links ∧ ip ∈ persist.ips ∧
      link.ifname = persist.hostIfaceName ∧ info = LoaderEndpoint.info persist link := by
  have hmem := List.mem_of_getLast? h
  obtain ⟨⟨endpoint, link⟩, hpair, howned⟩ := List.mem_filterMap.mp hmem
  cases endpoint with
  | container persist =>
    rw [ownedInfo] at howned
    split_ifs at howned with hip
    refine ⟨persist, link, (List.of_mem_zip hpair).1, (List.of_mem_zip hpair).2, hip, ?_,
      (Option.some.inj howned).symm⟩
    exact (eq_of_mem_zip hnames.symm hpair).symm
  -- The other endpoints own no address.
  | host _ => cases howned
  | netDev _ => cases howned
  | overlay _ => cases howned
  | wireguard _ => cases howned

/-- What a program that delivers does to a whole IPv4 packet, by the entry of its address. -/
theorem run_byAddress (hk : k.Lawful) {c : Classifier} {obs : Byte}
    (hobs : c.obsPoint (mapsOver m config) = some obs) (hlen : 34 ≤ packet.length)
    (hipv4 : be16 packet 12 = 0x0800) (hwhole : isFragmented packet = false)
    (httl : 2 ≤ (packet.byteAt 22).toNat) : c.run k (mapsOver m config) ctx packet =
      match byAddress m (dstIp packet) with
      | some info => (.ok (.redirect (BitVec.ofInt 32 (k.redirect (programInfo info).ifIndex 0))),
        ⟨delivered (programInfo info) packet, [update ctx obs]⟩)
      | none => (.ok .pass, ⟨packet, []⟩) := by
  have hep : endpointOf (mapsOver m config) packet =
      (byAddress m (dstIp packet)).map programInfo := endpointOf_mapsOver
  cases hinfo : byAddress m (dstIp packet) with
  | some info =>
    rw [hinfo] at hep
    exact run_deliverable hk hobs ⟨hlen, hipv4, hwhole, hep, httl⟩
  | none =>
    -- Without an entry the packet passes, behind either program's own checks.
    rw [hinfo] at hep
    have hnone := fun obs => run_processIpv4_none (w := ⟨packet, []⟩) k (mapsOver m config) ctx obs
      hlen hwhole hep
    have hether := (hk.ipv4 _).mpr hipv4
    cases c with
    | fromContainer =>
      cases config with
      | none => cases hobs
      | some config =>
        refine (run_tryFromContainer (show 14 ≤ packet.length by omega) rfl).trans ?_
        rw [hether]
        exact run_processIpv4Container.trans (hnone _)
    | fromHost =>
      refine (run_tryFromHost (show 14 ≤ packet.length by omega)).trans ?_
      rw [if_pos hether]
      exact hnone _
    | _ => cases hobs

/-- **Traffic.**  After a reconcile without an error, both programs that deliver hand a whole
    IPv4 packet to the link of the last desired container that owns its address, with the
    container's addresses; a packet for an address that no desired container owns passes as it
    is. -/
theorem reconciled_traffic {root : PinRoot} {s t : Backend} {desired : List LoaderEndpoint}
    {tr : List (Answered BackendOp)}
    (hreconcile : Exec Backend.sem (reconcile root desired).run s tr (.pure (.ok [])) t)
    (hm : ∀ ip info, byAddress m ip = some info ↔ (ip, info) ∈ t.endpointInfos) (hk : k.Lawful)
    {c : Classifier} {obs : Byte} (hobs : c.obsPoint (mapsOver m config) = some obs)
    (hlen : 34 ≤ packet.length) (hipv4 : be16 packet 12 = 0x0800)
    (hwhole : isFragmented packet = false) (httl : 2 ≤ (packet.byteAt 22).toNat) :
    ((∀ endpoint ∈ desired, dstIp packet ∉ endpoint.ips) →
      c.run k (mapsOver m config) ctx packet = (.ok .pass, ⟨packet, []⟩)) ∧
    ((∃ endpoint ∈ desired, dstIp packet ∈ endpoint.ips) → ∃ persist link,
      .container persist ∈ desired ∧ link ∈ resolvedLinks tr ∧ dstIp packet ∈ persist.ips ∧
      link.ifname = persist.hostIfaceName ∧
      lastInfo (desired.zip (resolvedLinks tr)) (dstIp packet) =
        some (LoaderEndpoint.info persist link) ∧
      c.run k (mapsOver m config) ctx packet =
        (.ok (.redirect (BitVec.ofInt 32 (k.redirect link.ifindex.toBitVec 0))),
          ⟨delivered (programInfo (LoaderEndpoint.info persist link)) packet,
            [update ctx obs]⟩)) := by
  have hexact : LxcExact desired (resolvedLinks tr) t.endpointInfos :=
    ((reconcile_infos desired (s, KeyMap.empty)).exec ((hreconcile.observed _).observed [])).2 rfl
  have hentry : byAddress m (dstIp packet) =
      lastInfo (desired.zip (resolvedLinks tr)) (dstIp packet) := by
    apply Option.ext
    intro info
    rw [hm, hexact.entries]
  have hrun : c.run k (mapsOver m config) ctx packet = _ :=
    run_byAddress hk hobs hlen hipv4 hwhole httl
  rw [hentry] at hrun
  have howned : (∃ endpoint ∈ desired, dstIp packet ∈ endpoint.ips) ↔
      lastInfo (desired.zip (resolvedLinks tr)) (dstIp packet) ≠ none := by
    rw [← hexact.keys, List.mem_map, Option.ne_none_iff_exists']
    constructor
    · rintro ⟨⟨ip, info⟩, hmem, rfl⟩
      exact ⟨info, (hexact.entries _ _).mp hmem⟩
    · rintro ⟨info, hlast⟩
      exact ⟨(dstIp packet, info), (hexact.entries _ _).mpr hlast, rfl⟩
  constructor
  · intro hnobody
    cases hlast : lastInfo (desired.zip (resolvedLinks tr)) (dstIp packet) with
    | none =>
      rw [hlast] at hrun
      exact hrun
    | some info =>
      obtain ⟨endpoint, hmem, hip⟩ := howned.mpr (by rw [hlast]; exact Option.some_ne_none info)
      exact absurd hip (hnobody endpoint hmem)
  · intro hsomebody
    obtain ⟨info, hlast⟩ := Option.ne_none_iff_exists'.mp (howned.mp hsomebody)
    obtain ⟨persist, link, hmem, hlink, hip, hname, rfl⟩ := owner_of_lastInfo hexact.names hlast
    rw [hlast] at hrun
    exact ⟨persist, link, hmem, hlink, hip, hname, hlast, hrun⟩

/-- A container with the address 10.0.0.2. -/
def webContainer : LoaderEndpoint :=
  .container { id := 1, hostIfaceName := "lxc1", ipv4 := some 0x0A000002 }

/-- The `lxc_map` after a reconcile, by the entries it should have. -/
def entriesOf (resolved : List (LoaderEndpoint × Link)) : KeyMap EndpointKey Loader.EndpointInfo :=
  fun key =>
    match key.toIpAddr with
    | .ok ip => lastInfo resolved ip
    | .error _ => none

theorem byAddress_entriesOf (resolved : List (LoaderEndpoint × Link)) (ip : IpAddr) :
    byAddress (entriesOf resolved) ip = lastInfo resolved ip := by
  rw [byAddress, view, entriesOf, EndpointKey.toIpAddr_ofIpAddr]

/-- A packet for the container is redirected to the container's link. -/
theorem reconciled_traffic_optionsPacket : ∃ tr t persist link,
    Exec Backend.sem (reconcile bpfRoot [webContainer]).run Backend.empty tr (.pure (.ok [])) t ∧
    .container persist ∈ [webContainer] ∧ link.ifname = persist.hostIfaceName ∧
    Classifier.fromHost.run littleEndianKernel
        (mapsOver (entriesOf ([webContainer].zip (resolvedLinks tr))) none) ⟨38, 2⟩ optionsPacket =
      (.ok (.redirect 7),
        ⟨delivered (programInfo (LoaderEndpoint.info persist link)) optionsPacket, [(38, 1)]⟩) := by
  obtain ⟨tr, t, hexec⟩ := exists_reconcile bpfRoot [webContainer] Backend.empty
  have hexact : LxcExact [webContainer] (resolvedLinks tr) t.endpointInfos :=
    ((reconcile_infos [webContainer] (Backend.empty, KeyMap.empty)).exec
      ((hexec.observed _).observed [])).2 rfl
  have hdeliverable := deliverable_optionsPacket
  have hobs : Classifier.fromHost.obsPoint
      (mapsOver (entriesOf ([webContainer].zip (resolvedLinks tr))) none) =
        some OBS_POINT_HOST_FORWARD := rfl
  obtain ⟨persist, link, hmem, -, -, hname, -, hrun⟩ :=
    (reconciled_traffic hexec (fun ip info => by rw [byAddress_entriesOf, hexact.entries])
      lawful_littleEndianKernel hobs hdeliverable.length hdeliverable.ipv4 hdeliverable.whole
      hdeliverable.ttl).2 ⟨webContainer, List.mem_singleton_self _, by decide⟩
  exact ⟨tr, t, persist, link, hexec, hmem, hname, hrun⟩

end Sarena.Ebpf.Programs
