import Sarena.Cni.Ownership

namespace Sarena

open Lib

/-!
# CNI — how a container is wired

The commands for one container on the network of the host, beside commands for others, with
operations that fail in any way.

* `Pod` — a container as the runtime names it, with a namespace of its own;
* `Pod.Clean`, `Pod.Stuck`, `Pod.Idle` — the network between two commands: there is nothing of
  the container's but its device, or else a pair that was not brought to its end;
* `Pod.Plugged` — a pair, and the links that the command has of it;
* `Pod.Wired` — the network that a result of ADD describes;
* `CniPlugin.setupVeth_obeys`, `configureIface_obeys` — the two halves of the set-up;
* `CniPlugin.add_obeys`, `CniPlugin.del_obeys` — the commands.
-/

/-- A container, and the namespace that its path is resolved to. -/
structure Pod where
  ns : Nat
  own : ns ≠ 0
  containerId : String
  netns : String
  ifname : String

namespace Pod

/-- The name of the host's device. -/
def hostIfname (plugin : CniPlugin) (pod : Pod) : String :=
  endpointToIfname plugin.sha256 s!"{pod.containerId}:{pod.ifname}"

/-- Besides the container's device, its namespace has only a loopback device. -/
def Clean (pod : Pod) (s : OwnedNet) : Prop :=
  ∀ id d, s.net.devices id = some d → d.netns = pod.ns → d.name ≠ pod.ifname → d.index = 1

/-- The host's end of a pair whose other end is not the container's device. -/
def Stuck (plugin : CniPlugin) (pod : Pod) (s : OwnedNet) : Prop :=
  ∃ id d, s.net.devices id = some d ∧ s.owner id = some pod.ns ∧ d.netns = 0 ∧
    d.name = pod.hostIfname plugin ∧ ∀ id' d', d.peer = some id' → s.net.devices id' = some d' →
      d'.netns = pod.ns → d'.name ≠ pod.ifname

/-- The network between two commands for the container, and whenever one of them is cut off. -/
structure Idle (plugin : CniPlugin) (pod : Pod) (s : OwnedNet) : Prop where
  order : s.Order
  path : s.net.paths pod.netns = some pod.ns
  left : pod.Clean s ∨ pod.Stuck plugin s

/-- A pair of the container, one end of it with the host, and the links that the command has.
    Nothing else in the container's namespace has its name or its index. -/
structure Plugged (plugin : CniPlugin) (pod : Pod) (host peer : NetlinkLink) (hid cid : Nat)
    (h c : NetDevice) (s : OwnedNet) : Prop where
  order : s.Order
  path : s.net.paths pod.netns = some pod.ns
  apart : hid ≠ cid
  hostDevice : s.net.devices hid = some h
  peerDevice : s.net.devices cid = some c
  hostOwner : s.owner hid = some pod.ns
  peerOwner : s.owner cid = some pod.ns
  host : host = ⟨h.name, h.index, h.mac, none⟩
  hostName : h.name = pod.hostIfname plugin
  peerName : peer.name = c.name
  peerIndex : peer.index = c.index
  peerMac : peer.mac = c.mac
  resolve : s.net.resolve peer.netns = some c.netns
  hostNetns : h.netns = 0
  peerNetns : c.netns = 0 ∨ c.netns = pod.ns
  hostPeer : h.peer = some cid
  peerPeer : c.peer = some hid
  index : c.index ≠ 1
  others : ∀ id d, s.net.devices id = some d → d.netns = pod.ns → id ≠ cid →
    d.index = 1 ∧ d.name ≠ pod.ifname

/-- The network is as the result says: a pair that is up on both ends, the container's end in
    its namespace, with the addresses, besides the kernel's own, and the routes. -/
def Wired (pod : Pod) (result : CniResult) (k : NetKernel) : Prop :=
  ∃ hid cid h c, k.devices hid = some h ∧ k.devices cid = some c ∧ h.netns = 0 ∧
    c.netns = pod.ns ∧ c.name = pod.ifname ∧ h.peer = some cid ∧ c.peer = some hid ∧
    h.up = true ∧ c.up = true ∧ h.rpFilter = 0 ∧ h.mtu = c.mtu ∧
    result.interfaces =
      [⟨h.name, h.mac.text, none⟩, ⟨pod.ifname, c.mac.text, some pod.netns⟩] ∧
    k.Carries cid c (result.ips.map (·.address)) ∧ (∀ ip ∈ result.ips, ip.interface = some 1) ∧
    ∀ r ∈ result.routes, k.routes (pod.ns, r.dst) = some (cid, ⟨r.dst, r.gw, r.mtu⟩)

/-- What the daemon is told of an endpoint is what the network has. -/
def Registered (text : IpText) (pod : Pod) (ep : EndpointCreateRequest) (k : NetKernel) : Prop :=
  ∃ hid cid h c addrs, k.devices hid = some h ∧ k.devices cid = some c ∧ h.netns = 0 ∧
    c.netns = pod.ns ∧ c.name = pod.ifname ∧ h.peer = some cid ∧ c.peer = some hid ∧
    ep.containerId = pod.containerId ∧ ep.containerIfaceName = c.name ∧
    ep.containerMac = c.mac.text ∧ ep.hostMac = h.mac.text ∧ ep.hostIfaceName = h.name ∧
    ep.hostIfaceIndex = h.index ∧ k.Carries cid c addrs ∧
    (ep.ipv4.toList ++ ep.ipv6.toList).map (·.ip) = addrs.map (InterfaceAddress.text text)

/-- A request to create an endpoint is the container's, and tells what the network has. -/
def Tells (plugin : CniPlugin) (pod : Pod) (s : OwnedNet) : ApiRequest → Prop
  | .createEndpoint attachment ep =>
    attachment = attachmentId pod.containerId pod.ifname ∧
      pod.Registered plugin.text ep s.net
  | _ => True

variable {plugin : CniPlugin} {pod : Pod} {s t : OwnedNet} {host peer : NetlinkLink}
  {hid cid id : Nat} {h c d : NetDevice}

/-! ### What the others leave alone -/

theorem carries_of_order {addrs : List InterfaceAddress} (hs : s.Order) (hd : d.addrs = addrs) :
    s.net.Carries id d addrs :=
  ⟨congrArg (s.net.linkLocal id ++ ·) hd, hs.wf.linkLocal id⟩

/-- The kernel may give a device addresses of its own at any time. -/
theorem carries_rely {addrs : List InterfaceAddress} (hR : OwnedNet.Rely pod.ns s t)
    (hs : s.Order) (hc : s.net.Carries id d addrs) : t.net.Carries id d addrs :=
  carries_of_order (hR.order hs) (List.append_cancel_left hc.1)

theorem Stuck.rely (hR : OwnedNet.Rely pod.ns s t) (ht : t.Order) (hs : pod.Stuck plugin s) :
    pod.Stuck plugin t := by
  obtain ⟨id, d, hd, hown, hns, hname, hother⟩ := hs
  refine ⟨id, d, hR.device hd hown, (hR.owner id).mpr hown, hns, hname, ?_⟩
  exact fun id' d' hpeer hd' hns' => hother id' d' hpeer (hR.of_netns ht pod.own hd' hns') hns'

theorem Stuck.of_rely (hR : OwnedNet.Rely pod.ns s t) (hs : s.Order) (ht : pod.Stuck plugin t) :
    pod.Stuck plugin s := by
  obtain ⟨id, d, hd, hown, hns, hname, hother⟩ := ht
  have hown := (hR.owner id).mp hown
  have hd := (hR.devices id hown).symm.trans hd
  refine ⟨id, d, hd, hown, hns, hname, fun id' d' hpeer hd' hns' => ?_⟩
  have hown' := (hs.peer id d id' hd hpeer).trans hown
  exact hother id' d' hpeer (hR.device hd' hown') hns'

theorem idle_lasting : Lasting (OwnedNet.Rely pod.ns) (pod.Idle plugin) := by
  intro s t hR hs
  have ht := hR.order hs.order
  refine ⟨ht, hR.paths ▸ hs.path, hs.left.imp (fun hclean => ?_) (Stuck.rely hR ht)⟩
  exact fun id d hd hns => hclean id d (hR.of_netns ht pod.own hd hns) hns

theorem free_lasting : Lasting (OwnedNet.Rely pod.ns)
    fun s => pod.Idle plugin s ∧ s.net.FreeName pod.ns pod.ifname := by
  intro s t hR ⟨hs, hfree⟩
  have ht := idle_lasting s t hR hs
  exact ⟨ht, fun id d hd hns => hfree id d (hR.of_netns ht.order pod.own hd hns) hns⟩

theorem plugged_lasting : Lasting (OwnedNet.Rely pod.ns)
    (pod.Plugged plugin host peer hid cid h c) := by
  intro s t hR p
  have ht := hR.order p.order
  have hresolve : t.net.resolve peer.netns = s.net.resolve peer.netns := by
    unfold NetKernel.resolve
    rw [hR.paths]
  exact { p with
    order := ht
    path := hR.paths ▸ p.path
    hostDevice := hR.device p.hostDevice p.hostOwner
    peerDevice := hR.device p.peerDevice p.peerOwner
    hostOwner := (hR.owner hid).mpr p.hostOwner
    peerOwner := (hR.owner cid).mpr p.peerOwner
    resolve := hresolve.trans p.resolve
    others := fun id d hd hns => p.others id d (hR.of_netns ht pod.own hd hns) hns }

theorem wired_lasting {result : CniResult} : Lasting (OwnedNet.Rely pod.ns)
    fun s => pod.Idle plugin s ∧ ¬ pod.Stuck plugin s ∧ pod.Wired result s.net := by
  rintro s t hR ⟨hs, hfree, hid, cid, h, c, hh, hc, hns, cns, hname, hpeer, cpeer, hup, cup, hrp,
    hmtu, hinterfaces, haddrs, hips, hroutes⟩
  have cown : s.owner cid = some pod.ns := cns ▸ hs.order.netns cid c hc (cns.symm ▸ pod.own)
  have hown : s.owner hid = some pod.ns := (hs.order.peer cid c hid hc cpeer).trans cown
  exact ⟨idle_lasting s t hR hs, fun hstuck => hfree (hstuck.of_rely hR hs.order), hid, cid, h, c,
    hR.device hh hown, hR.device hc cown, hns, cns, hname, hpeer, cpeer, hup, cup, hrp, hmtu,
    hinterfaces, carries_rely hR hs.order haddrs, hips,
    fun r hr => (hR.routes r.dst).trans (hroutes r hr)⟩

/-! ### The pair -/

/-- A pair on its way is left behind as one that stands in the way, unless it is complete. -/
theorem Plugged.idle (p : pod.Plugged plugin host peer hid cid h c s) : pod.Idle plugin s := by
  refine ⟨p.order, p.path, ?_⟩
  by_cases hdone : c.netns = pod.ns ∧ c.name = pod.ifname
  · refine .inl fun id d hd hns hname => (p.others id d hd hns ?_).1
    rintro rfl
    exact hname (Option.some.inj (p.peerDevice.symm.trans hd) ▸ hdone.2)
  · refine .inr ⟨hid, h, p.hostDevice, p.hostOwner, p.hostNetns, p.hostName, ?_⟩
    intro id' d' hpeer hd' hns' hname'
    obtain rfl := Option.some.inj (p.hostPeer.symm.trans hpeer)
    obtain rfl := Option.some.inj (p.peerDevice.symm.trans hd')
    exact hdone ⟨hns', hname'⟩

/-- A complete pair is not in the way of anything. -/
theorem Plugged.not_stuck (p : pod.Plugged plugin host peer hid cid h c s) (hns : c.netns = pod.ns)
    (hname : c.name = pod.ifname) : ¬ pod.Stuck plugin s := by
  rintro ⟨id, d, hd, -, hzero, hdname, hother⟩
  obtain rfl := p.order.wf.names id d hid h hd p.hostDevice (hzero.trans p.hostNetns.symm)
    (hdname.trans p.hostName.symm)
  obtain rfl := Option.some.inj (p.hostDevice.symm.trans hd)
  exact hother cid c p.hostPeer p.peerDevice hns hname

/-- The host's link stands for the host's end. -/
theorem Plugged.ofLink_host (p : pod.Plugged plugin host peer hid cid h c s)
    (hd : s.net.OfLink host id d) : id = hid ∧ h = d := by
  obtain ⟨hd, hns, hindex⟩ := hd
  rw [p.host] at hns hindex
  have hdns : d.netns = 0 := (Option.some.inj hns).symm
  obtain rfl := p.order.wf.indices id d hid h hd p.hostDevice (hdns.trans p.hostNetns.symm) hindex
  exact ⟨rfl, Option.some.inj (p.hostDevice.symm.trans hd)⟩

theorem Plugged.named_host (p : pod.Plugged plugin host peer hid cid h c s)
    (hd : s.net.Named 0 host.name id d) : id = hid ∧ h = d := by
  obtain ⟨hd, hdns, hname⟩ := hd
  rw [p.host] at hname
  obtain rfl := p.order.wf.names id d hid h hd p.hostDevice (hdns.trans p.hostNetns.symm) hname
  exact ⟨rfl, Option.some.inj (p.hostDevice.symm.trans hd)⟩

/-- The container's link stands for the container's end. -/
theorem Plugged.ofLink_peer (p : pod.Plugged plugin host peer hid cid h c s)
    (hd : s.net.OfLink peer id d) : id = cid ∧ c = d := by
  obtain ⟨hd, hns, hindex⟩ := hd
  have hdns : d.netns = c.netns := Option.some.inj (hns.symm.trans p.resolve)
  obtain rfl := p.order.wf.indices id d cid c hd p.peerDevice hdns (hindex.trans p.peerIndex)
  exact ⟨rfl, Option.some.inj (p.peerDevice.symm.trans hd)⟩

/-- What an operation does that creates no device. -/
theorem eq_of_net {k : NetKernel} (hnet : t.net = k) (hnext : k.next = s.net.next)
    (howner : OwnedNet.Labels pod.ns s t) : t = ⟨k, s.owner⟩ := by
  have hsame : t.owner = s.owner := by
    rw [howner, hnet, hnext]
    funext id
    exact if_neg fun hlt => absurd hlt.2 (Nat.not_lt.mpr hlt.1)
  rw [← hnet, ← hsame]

/-- The container's end is changed, with the link that the command has of it. -/
theorem Plugged.set_peer (p : pod.Plugged plugin host peer hid cid h c s) {c' : NetDevice}
    {peer' : NetlinkLink} {own : Nat → List InterfaceAddress}
    {routes : KeyMap (Nat × IpNet) (Nat × Route)} (hwf : t.net.Wf)
    (hnet : t.net = { s.net.setDevice cid c' with linkLocal := own, routes := routes })
    (howner : OwnedNet.Labels pod.ns s t)
    (hroutes : ∀ key, key.1 ≠ pod.ns → key.1 ≠ 0 → routes key = s.net.routes key)
    (hpeer : c'.peer = c.peer) (hindex : c'.index = c.index)
    (hnetns : c'.netns = 0 ∨ c'.netns = pod.ns)
    (hlink : peer'.name = c'.name ∧ peer'.index = c'.index ∧ peer'.mac = c'.mac)
    (hresolve : s.net.resolve peer'.netns = some c'.netns) :
    pod.Plugged plugin host peer' hid cid h c' t ∧ OwnedNet.Guarantee pod.ns s t := by
  obtain rfl := eq_of_net hnet rfl howner
  have hg := OwnedNet.guarantee_set p.peerDevice p.peerOwner hpeer hnetns hroutes fun _ => hwf
  refine ⟨{ p with
    order := hg.order p.order
    hostDevice := ?_
    peerDevice := (NetKernel.setDevice_devices _ _).trans (if_pos rfl)
    peerName := hlink.1
    peerIndex := hlink.2.1
    peerMac := hlink.2.2
    resolve := hresolve
    peerNetns := hnetns
    peerPeer := hpeer.trans p.peerPeer
    index := hindex ▸ p.index
    others := fun id d hd hns hid => ?_ }, hg⟩
  · exact (NetKernel.setDevice_devices _ _).trans ((if_neg p.apart).trans p.hostDevice)
  · exact p.others id d (((NetKernel.setDevice_devices _ _).trans (if_neg hid)).symm.trans hd) hns
      hid

/-- An operation on the container's end that leaves it where it is. -/
theorem Plugged.update_peer (p : pod.Plugged plugin host peer hid cid h c s) {c' : NetDevice}
    {own : Nat → List InterfaceAddress} (hwf : t.net.Wf)
    (hnet : t.net = { s.net.setDevice cid c' with linkLocal := own })
    (howner : OwnedNet.Labels pod.ns s t)
    (hc : c.Stays c') :
    pod.Plugged plugin host peer hid cid h c' t ∧ OwnedNet.Guarantee pod.ns s t := by
  refine p.set_peer hwf hnet howner (fun _ _ _ => rfl) hc.peer hc.index ?_ ⟨?_, ?_, ?_⟩ ?_
  · rw [hc.netns]
    exact p.peerNetns
  · exact p.peerName.trans hc.name.symm
  · exact p.peerIndex.trans hc.index.symm
  · exact p.peerMac.trans hc.mac.symm
  · rw [hc.netns]
    exact p.resolve

/-- An operation on the host's end, which leaves it where it is. -/
theorem Plugged.update_host (p : pod.Plugged plugin host peer hid cid h c s) {h' : NetDevice}
    {own : Nat → List InterfaceAddress} (hwf : t.net.Wf)
    (hnet : t.net = { s.net.setDevice hid h' with linkLocal := own })
    (howner : OwnedNet.Labels pod.ns s t)
    (hh : h.Stays h') :
    pod.Plugged plugin host peer hid cid h' c t ∧ OwnedNet.Guarantee pod.ns s t := by
  obtain rfl := eq_of_net hnet rfl howner
  have hzero : h'.netns = 0 := hh.netns.trans p.hostNetns
  have hg := OwnedNet.guarantee_set p.hostDevice p.hostOwner hh.peer (.inl hzero)
    (fun _ _ _ => rfl) fun _ => hwf
  refine ⟨{ p with
    order := hg.order p.order
    hostDevice := (NetKernel.setDevice_devices _ _).trans (if_pos rfl)
    peerDevice := (NetKernel.setDevice_devices _ _).trans
      ((if_neg p.apart.symm).trans p.peerDevice)
    host := ?_
    hostName := hh.name.trans p.hostName
    hostNetns := hzero
    hostPeer := hh.peer.trans p.hostPeer
    others := fun id d hd hns hid => ?_ }, hg⟩
  · rw [hh.name, hh.index, hh.mac]
    exact p.host
  · have hd : (s.net.setDevice _ h').devices id = some d := hd
    rw [NetKernel.setDevice_devices] at hd
    split at hd
    · obtain rfl := Option.some.inj hd
      exact absurd (hns.symm.trans hzero) pod.own
    · exact p.others id d hd hns hid

theorem Plugged.changes_host (p : pod.Plugged plugin host peer hid cid h c s)
    {f : NetDevice → NetDevice} (hf : h.Stays (f h)) (hwf : t.net.Wf)
    (hcall : s.net.Changes host f t.net) (howner : OwnedNet.Labels pod.ns s t) :
    pod.Plugged plugin host peer hid cid (f h) c t ∧ OwnedNet.Guarantee pod.ns s t := by
  obtain ⟨id, d, hof, hnet⟩ := hcall
  obtain ⟨rfl, rfl⟩ := p.ofLink_host hof
  exact p.update_host hwf hnet howner hf

theorem Plugged.changes_peer (p : pod.Plugged plugin host peer hid cid h c s)
    {f : NetDevice → NetDevice} (hf : c.Stays (f c)) (hwf : t.net.Wf)
    (hcall : s.net.Changes peer f t.net) (howner : OwnedNet.Labels pod.ns s t) :
    pod.Plugged plugin host peer hid cid h (f c) t ∧ OwnedNet.Guarantee pod.ns s t := by
  obtain ⟨id, d, hof, hnet⟩ := hcall
  obtain ⟨rfl, rfl⟩ := p.ofLink_peer hof
  exact p.update_peer hwf hnet howner hf

theorem Plugged.sets_up_host (p : pod.Plugged plugin host peer hid cid h c s) (hwf : t.net.Wf)
    (hcall : s.net.SetsUp host t.net) (howner : OwnedNet.Labels pod.ns s t) :
    pod.Plugged plugin host peer hid cid { h with up := true } c t ∧
      OwnedNet.Guarantee pod.ns s t := by
  obtain ⟨id, d, hof, own, -, -, hnet⟩ := hcall
  obtain ⟨rfl, rfl⟩ := p.ofLink_host hof
  exact p.update_host hwf hnet howner ⟨rfl, rfl, rfl, rfl, rfl⟩

theorem Plugged.sets_up_peer (p : pod.Plugged plugin host peer hid cid h c s) (hwf : t.net.Wf)
    (hcall : s.net.SetsUp peer t.net) (howner : OwnedNet.Labels pod.ns s t) :
    pod.Plugged plugin host peer hid cid h { c with up := true } t ∧
      OwnedNet.Guarantee pod.ns s t := by
  obtain ⟨id, d, hof, own, -, -, hnet⟩ := hcall
  obtain ⟨rfl, rfl⟩ := p.ofLink_peer hof
  exact p.update_peer hwf hnet howner ⟨rfl, rfl, rfl, rfl, rfl⟩

/-- A route of the container's device is added. -/
theorem Plugged.add_route (p : pod.Plugged plugin host peer hid cid h c s) (hns : c.netns = pod.ns)
    {route : Route} (hwf : t.net.Wf) (hcall : s.net.AddsRoute peer route t.net)
    (howner : OwnedNet.Labels pod.ns s t) :
    t.net.routes = s.net.routes.insert (pod.ns, route.target) (cid, route) ∧
      pod.Plugged plugin host peer hid cid h c t ∧ OwnedNet.Guarantee pod.ns s t := by
  obtain ⟨id, d, hof, hnet⟩ := hcall
  obtain ⟨rfl, rfl⟩ := p.ofLink_peer hof
  rw [hns] at hnet
  have hset : t.net = { s.net.setDevice id c with
      routes := s.net.routes.insert (pod.ns, route.target) (id, route) } := by
    rw [NetKernel.setDevice_self p.peerDevice]
    exact hnet
  refine ⟨congrArg NetKernel.routes hnet, p.set_peer hwf hset howner (fun key hkey _ => ?_) rfl rfl
    p.peerNetns ⟨p.peerName, p.peerIndex, p.peerMac⟩ p.resolve⟩
  exact KeyMap.insert_of_ne _ _ fun h => hkey (congrArg Prod.fst h)

/-- A pair as it is created, while nothing of an earlier one is left. -/
theorem plugged_of_creates (hs : pod.Idle plugin s) (hfree : s.net.FreeName pod.ns pod.ifname)
    {spec : VethSpec} (hspec : spec.hostIfname = pod.hostIfname plugin)
    (hcreates : s.net.CreatesVeth spec host peer t.net)
    (howner : OwnedNet.Labels pod.ns s t)
    (hg : OwnedNet.Guarantee pod.ns s t) :
    ∃ h c, pod.Plugged plugin host peer s.net.next (s.net.next + 1) h c t ∧ c.netns = 0 := by
  have ht := hg.order hs.order
  obtain ⟨lo, l, hl, hlns, hlindex, -⟩ := hs.order.loopback
  obtain ⟨h, c, hname, -, hne, -, hh, hc, rfl, rfl, hnet⟩ := hcreates
  have hclean : pod.Clean s := by
    refine hs.left.resolve_right ?_
    rintro ⟨id, d, hd, -, hns, hdname, -⟩
    exact hname id d hd hns (hdname.trans hspec.symm)
  have hnew : ∀ i, s.net.next ≤ i → i < s.net.next + 2 → t.owner i = some pod.ns := by
    intro i hi hlt
    rw [howner, hnet]
    exact if_pos ⟨hi, hlt⟩
  have hold : ∀ {id d}, t.net.devices id = some d → d.netns = pod.ns →
      s.net.devices id = some d := by
    intro id d hd hns
    rw [hnet, NetKernel.withPair_devices] at hd
    split at hd
    · obtain rfl := Option.some.inj hd
      exact absurd (hns.symm.trans hc.netns) pod.own
    split at hd
    · obtain rfl := Option.some.inj hd
      exact absurd (hns.symm.trans hh.netns) pod.own
    · exact hd
  refine ⟨h, c, ⟨ht, ?_, Nat.ne_of_lt (Nat.lt_succ_self _), ?_, ?_, hnew _ (by omega) (by omega),
    hnew _ (by omega) (by omega), rfl, hh.name.trans hspec, rfl, rfl, rfl, ?_, hh.netns,
    .inl hc.netns, hh.peer, hc.peer, ?_, fun id d hd hns _ => ?_⟩, hc.netns⟩
  · rw [hnet]
    exact hs.path
  · rw [hnet, NetKernel.withPair_devices, if_neg (by omega), if_pos rfl]
  · rw [hnet, NetKernel.withPair_devices, if_pos rfl]
  · rw [hc.netns]
    rfl
  · -- The loopback device of the host has that index.
    exact fun hindex => hc.index lo l hl hlns (hlindex.trans hindex.symm)
  · have hname := hfree id d (hold hd hns) hns
    exact ⟨hclean id d (hold hd hns) hns hname, hname⟩

/-- The container's end is moved, and keeps its index. -/
theorem Plugged.moves (p : pod.Plugged plugin host peer hid cid h c s) (hzero : c.netns = 0)
    (hwf : t.net.Wf) (hcall : s.net.MovesLink peer pod.netns t.net)
    (howner : OwnedNet.Labels pod.ns s t) :
    pod.Plugged plugin host { peer with netns := some pod.netns } hid cid h
      { c with netns := pod.ns, up := false, addrs := [] } t ∧ OwnedNet.Guarantee pod.ns s t := by
  obtain ⟨id, d, ns, hof, hpath, hmoved⟩ := hcall
  obtain ⟨rfl, rfl⟩ := p.ofLink_peer hof
  obtain rfl : pod.ns = ns := Option.some.inj (p.path.symm.trans hpath)
  rcases hmoved with ⟨hsame, -⟩ | ⟨-, -, index, ⟨-, hkeep⟩, hnet⟩
  · exact absurd (hsame.trans hzero) pod.own
  have hindex : index = c.index := by
    refine hkeep fun i d hd hdns => ?_
    have hi : i ≠ id := by
      rintro rfl
      obtain rfl := Option.some.inj (p.peerDevice.symm.trans hd)
      exact pod.own (hdns.symm.trans hzero)
    rw [(p.others i d hd hdns hi).1]
    exact p.index.symm
  rw [hindex] at hnet
  refine p.set_peer hwf hnet howner (fun key hkey hkey₀ => ?_) rfl rfl (.inr rfl)
    ⟨p.peerName, p.peerIndex, p.peerMac⟩ p.path
  -- No route of another container goes through the device.
  cases hr : s.net.routes key with
  | none => exact congrArg (Option.filter _) hr
  | some r =>
    refine KeyMap.retain_eq_some.mpr ⟨hr, decide_eq_true ?_⟩
    rintro rfl
    obtain ⟨d, hd, hns⟩ := p.order.wf.routes key r.1 r.2 hr
    obtain rfl := Option.some.inj (p.peerDevice.symm.trans hd)
    exact hkey₀ (hns.symm.trans hzero)

theorem Plugged.renames (p : pod.Plugged plugin host peer hid cid h c s) {name : String}
    (hwf : t.net.Wf) (hcall : s.net.RenamesLink peer name t.net)
    (howner : OwnedNet.Labels pod.ns s t) :
    pod.Plugged plugin host { peer with name := name } hid cid h { c with name := name } t ∧
      OwnedNet.Guarantee pod.ns s t := by
  obtain ⟨id, d, hof, -, hnet⟩ := hcall
  obtain ⟨rfl, rfl⟩ := p.ofLink_peer hof
  exact p.set_peer hwf hnet howner (fun _ _ _ => rfl) rfl rfl p.peerNetns
    ⟨rfl, p.peerIndex, p.peerMac⟩ p.resolve

/-- The link that is deleted is no end of the pair that stands in the way. -/
theorem Stuck.unlink (hs : s.Order) (hstuck : pod.Stuck plugin s)
    (hd : s.net.Named pod.ns pod.ifname id d) :
    pod.Stuck plugin ⟨s.net.unlink (id :: d.peer.toList), s.owner⟩ := by
  obtain ⟨hd, hdns, hdname⟩ := hd
  obtain ⟨i, d₁, h₁, hown, hzero, hname, hother⟩ := hstuck
  refine ⟨i, d₁, NetKernel.unlink_devices.mpr ⟨h₁, fun hmem => ?_⟩, hown, hzero, hname,
    fun i' d' hpeer hd' => hother i' d' hpeer (NetKernel.unlink_devices.mp hd').1⟩
  rcases List.mem_cons.mp hmem with rfl | hmem
  · obtain rfl := Option.some.inj (hd.symm.trans h₁)
    exact pod.own (hdns.symm.trans hzero)
  · obtain ⟨d₂, h₂, hpeer⟩ := hs.wf.peer id d i hd (Option.mem_toList.mp hmem)
    obtain rfl := Option.some.inj (h₁.symm.trans h₂)
    exact hother id d hpeer hd hdns hdname

/-- What the deletion of the container's link does. -/
theorem Idle.unlinks (hs : pod.Idle plugin s)
    (hcall : s.net.DeletesLink pod.netns pod.ifname t.net) (howner : OwnedNet.Labels pod.ns s t) :
    ∃ id d, s.net.Named pod.ns pod.ifname id d ∧
      t = ⟨s.net.unlink (id :: d.peer.toList), s.owner⟩ := by
  obtain ⟨ns, id, d, hns, hd, hnet⟩ := hcall
  obtain rfl : pod.ns = ns := Option.some.inj (hs.path.symm.trans hns)
  have hnext : (s.net.unlink (id :: d.peer.toList)).next = s.net.next := rfl
  exact ⟨id, d, hd, eq_of_net hnet hnext howner⟩

theorem Stuck.deletes (hstuck : pod.Stuck plugin s) (hs : pod.Idle plugin s)
    (hcall : s.net.DeletesLink pod.netns pod.ifname t.net) (howner : OwnedNet.Labels pod.ns s t) :
    pod.Stuck plugin t := by
  obtain ⟨id, d, hd, rfl⟩ := hs.unlinks hcall howner
  exact hstuck.unlink hs.order hd

theorem Idle.deletes (hs : pod.Idle plugin s)
    (hcall : s.net.DeletesLink pod.netns pod.ifname t.net) (howner : OwnedNet.Labels pod.ns s t) :
    pod.Idle plugin t ∧ t.net.FreeName pod.ns pod.ifname ∧ OwnedNet.Guarantee pod.ns s t := by
  obtain ⟨id, d, hnamed, rfl⟩ := hs.unlinks hcall howner
  obtain ⟨hd, hdns, hdname⟩ := hnamed
  have hg := OwnedNet.guarantee_unlink hs.order hd hdns pod.own
  refine ⟨⟨hg.order hs.order, hs.path, hs.left.imp (fun hclean => ?_) fun hstuck => ?_⟩,
    fun i d' hd' hns' hname' => ?_, hg⟩
  · exact fun i d' hd' => hclean i d' (NetKernel.unlink_devices.mp hd').1
  · exact hstuck.unlink hs.order ⟨hd, hdns, hdname⟩
  · obtain ⟨hd', hmem⟩ := NetKernel.unlink_devices.mp hd'
    exact hmem (hs.order.wf.names id d i d' hd hd' (hdns.trans hns'.symm)
      (hdname.trans hname'.symm) ▸ List.mem_cons_self)

end Pod

/-! ### The calls -/

namespace CniPlugin

open CniCall OwnedNet

/-- The operation is performed where `I` holds, and tells the daemon what is so. -/
def Allowed (plugin : CniPlugin) (pod : Pod) (I : OwnedNet → Prop) :
    ∀ β : Type, CniOp β → OwnedNet → Prop
  | _, .inl (.send request), s => I s ∧ pod.Tells plugin s request
  | _, .inr _, s => I s

/-- Whatever the operations answer, and whatever the commands for other containers do between
    them. -/
abbrev Obeys (plugin : CniPlugin) (pod : Pod) (I : OwnedNet → Prop) {α : Type}
    (Q : α → OwnedNet → Prop) (p : Prog CniOp α) (s : OwnedNet) : Prop :=
  p.Beside (Rely pod.ns) (Guarantee pod.ns) (CniOp.wiresFor pod.ns) (Allowed plugin pod I) Q s

/-- What is left of a command. -/
abbrev Running (plugin : CniPlugin) (pod : Pod) (I : OwnedNet → Prop) {α : Type}
    (Q : α → OwnedNet → Prop) (p : Prog CniOp α) (s : OwnedNet) : Prop :=
  p.Runs (Rely pod.ns) (Guarantee pod.ns) (CniOp.wiresFor pod.ns) (Allowed plugin pod I) Q s

theorem Allowed.inv {plugin : CniPlugin} {pod : Pod} {I : OwnedNet → Prop} (β : Type) (e : CniOp β)
    (s : OwnedNet) (h : Allowed plugin pod I β e s) : I s := by
  cases e with
  | inl e =>
    cases e with
    | send request => exact h.1
  | inr e => exact h

section

variable {plugin : CniPlugin} {pod : Pod} {α β : Type} {s : OwnedNet} {I A B : OwnedNet → Prop}
  {err : InfraError → CniError}

theorem op_rule {e : InfraOp α} {k : α → Prog CniOp β} {Q : β → OwnedNet → Prop}
    (hA : Lasting (Rely pod.ns) A) (hs : A s) (hI : ∀ u, A u → I u)
    (h : ∀ u r t, A u → InfraOp.call _ e u.net r t.net → Labels pod.ns u t →
      Guarantee pod.ns u t ∧ Obeys plugin pod I Q (k r) t) :
    Obeys plugin pod I Q (.op (.inr e) k) s :=
  Prog.beside_op hA hs hI fun u r t hu hsem => h u r t hu hsem.1 hsem.2

theorem infra_rule {e : InfraOp (Except InfraError α)} {R : α → OwnedNet → Prop}
    (hA : Lasting (Rely pod.ns) A) (hs : A s) (hI : ∀ u, A u → I u)
    (h : ∀ u r t, A u → InfraOp.call _ e u.net r t.net → Labels pod.ns u t →
      Guarantee pod.ns u t ∧ Prog.orError R (fun _ t => I t) r t) :
    Obeys plugin pod I (Prog.orError R fun _ t => I t) (infra e err).run s := by
  refine op_rule hA hs hI fun u r t hu hcall howner => ?_
  obtain ⟨hg, hpost⟩ := h u r t hu hcall howner
  refine ⟨hg, ?_⟩
  cases r with
  | ok a => exact hpost
  | error e => exact hpost

/-- An operation that has been done when it succeeds, and may have been when it fails. -/
theorem effect_rule {e : InfraOp (Except InfraError Unit)} (hA : Lasting (Rely pod.ns) A)
    (hs : A s) (hI : ∀ u, A u → I u) (hB : ∀ u, B u → I u) (hO : ∀ u, I u → u.Order)
    (herror : ∀ x k k', InfraOp.call _ e k (.error x) k' →
      k' = k ∨ InfraOp.call _ e k (.ok ()) k')
    (h : ∀ u t, A u → t.net.Wf → InfraOp.call _ e u.net (.ok ()) t.net → Labels pod.ns u t →
      B t ∧ Guarantee pod.ns u t) :
    Obeys plugin pod I (Prog.orError (fun _ => B) fun _ t => I t) (infra e err).run s := by
  refine infra_rule hA hs hI fun u r t hu hcall howner => ?_
  have hwf := (hO u (hI u hu)).wf.call hcall
  cases r with
  | ok _ =>
    obtain ⟨hB, hg⟩ := h u t hu hwf hcall howner
    exact ⟨hg, hB⟩
  | error x =>
    rcases herror x u.net t.net hcall with hsame | hcall
    · obtain rfl := Pod.eq_of_net hsame rfl howner
      exact ⟨guarantee_refl _ _, hI u hu⟩
    · obtain ⟨hBt, hg⟩ := h u t hu hwf hcall howner
      exact ⟨hg, hB t hBt⟩

/-- An operation that changes nothing. -/
theorem reading_rule {e : InfraOp (Except InfraError Unit)} (hA : Lasting (Rely pod.ns) A)
    (hs : A s) (hI : ∀ u, A u → I u) (hsame : ∀ r k k', InfraOp.call _ e k r k' → k' = k) :
    Obeys plugin pod I (Prog.orError (fun _ => A) fun _ t => I t) (infra e err).run s := by
  refine infra_rule hA hs hI fun u r t hu hcall howner => ?_
  obtain rfl := Pod.eq_of_net (hsame r u.net t.net hcall) rfl howner
  refine ⟨guarantee_refl _ _, ?_⟩
  cases r with
  | ok _ => exact hu
  | error _ => exact hI u hu

theorem generateRand_rule (hA : Lasting (Rely pod.ns) A) (hs : A s) (hI : ∀ u, A u → I u) :
    Obeys plugin pod I (Prog.orError (fun _ => A) fun _ t => I t)
      (op .generateRand : CniCall MacAddress).run s := by
  refine op_rule hA hs hI fun u r t hu hcall howner => ?_
  obtain rfl := Pod.eq_of_net hcall rfl howner
  exact ⟨guarantee_refl _ _, hu⟩

theorem openPath_same {path : String} (r : Except InfraError Unit) (k k' : NetKernel)
    (hcall : InfraOp.call _ (.openPath path) k r k') : k' = k := by
  cases r with
  | ok _ => exact hcall.2
  | error _ => exact hcall

/-- Requests that `P` allows, which the network has no part in. -/
def Remote (P : ApiRequest → Prop) : ∀ β : Type, CniOp β → Prop
  | _, .inl (.send request) => P request
  | _, .inr _ => False

theorem remote_prog {P : ApiRequest → Prop} {p : Prog CniOp α} (hp : p.Uses (Remote P))
    (hP : ∀ u request, A u → P request → pod.Tells plugin u request)
    (hA : Lasting (Rely pod.ns) A) (hs : A s) (hI : ∀ u, A u → I u) :
    Obeys plugin pod I (fun _ => A) p s := by
  induction p generalizing s with
  | pure a => exact hs
  | op e k ih =>
    cases e with
    | inl e =>
      cases e with
      | send request =>
        refine Prog.beside_op hA hs (fun u hu => ⟨hI u hu, hP u request hu hp.1⟩)
          fun u b t hu hsem => ?_
        obtain rfl := Pod.eq_of_net hsem.1 rfl hsem.2
        exact ⟨guarantee_refl _ _, ih b (hp.2 b) hu⟩
    | inr e => exact hp.1.elim

theorem remote_call {P : ApiRequest → Prop} {call : ClientCall α}
    (hcall : call.run.Uses (TransportOp.Sends P)) :
    (call.run.mapOps fun _ => Sum.inl : Prog CniOp _).Uses (Remote P) := by
  refine Prog.uses_mapOps (f := fun _ => Sum.inl) (fun β op hop => ?_) hcall
  cases op with
  | send request => exact hop

theorem remote_rule {P : ApiRequest → Prop} {call : ClientCall α} {message : String}
    (hcall : call.run.Uses (TransportOp.Sends P))
    (hP : ∀ u request, A u → P request → pod.Tells plugin u request)
    (hA : Lasting (Rely pod.ns) A) (hs : A s) (hI : ∀ u, A u → I u) :
    Obeys plugin pod I (Prog.orError (fun _ => A) fun _ t => I t) (api call message).run s := by
  have hp : (api call message).run.Uses (Remote P) := by
    show Prog.Uses _ (_ <$> _)
    rw [map_eq_pure_bind]
    exact Prog.uses_bind (remote_call hcall) fun _ => trivial
  refine (remote_prog hp hP hA hs hI).imp fun r t h => ?_
  cases r with
  | ok a => exact h
  | error e => exact hI t h

/-- The request tells nothing of an endpoint. -/
def Silent (plugin : CniPlugin) (pod : Pod) (request : ApiRequest) : Prop :=
  ∀ s, pod.Tells plugin s request

theorem require_obeys {a : Option α} {e : CniError} (hs : A s)
    (hI : ∀ u, A u → I u) :
    Obeys plugin pod I (Prog.orError (fun _ => A) fun _ t => I t)
      (require a e).run s := by
  cases a with
  | some a => exact hs
  | none => exact hI s hs

theorem ensure_obeys {cond : Bool} {e : CniError} (hs : A s)
    (hI : ∀ u, A u → I u) :
    Obeys plugin pod I (Prog.orError (fun _ => A) fun _ t => I t)
      (ensure cond e).run s := by
  cases cond with
  | true => exact hs
  | false => exact hI s hs

end

/-! ### The set-up -/

section

variable {plugin : CniPlugin} {pod : Pod} {s : OwnedNet} {host peer : NetlinkLink}
  {hid cid : Nat} {h c : NetDevice} {err : InfraError → CniError}

open Pod

/-- An operation on an end of the pair. -/
theorem plugged_rule {e : InfraOp (Except InfraError Unit)} {peer' : NetlinkLink}
    {h' c' : NetDevice} (p : pod.Plugged plugin host peer hid cid h c s)
    (herror : ∀ x k k', InfraOp.call _ e k (.error x) k' →
      k' = k ∨ InfraOp.call _ e k (.ok ()) k')
    (heffect : ∀ u t, pod.Plugged plugin host peer hid cid h c u → t.net.Wf →
      InfraOp.call _ e u.net (.ok ()) t.net → Labels pod.ns u t →
      pod.Plugged plugin host peer' hid cid h' c' t ∧ Guarantee pod.ns u t) :
    Obeys plugin pod (pod.Idle plugin)
      (Prog.orError (fun _ => pod.Plugged plugin host peer' hid cid h' c') fun _ t =>
        pod.Idle plugin t) (infra e err).run s :=
  effect_rule plugged_lasting p (fun _ p => p.idle) (fun _ p => p.idle) (fun _ h => h.order)
    herror heffect

theorem setNs_obeys (p : pod.Plugged plugin host peer hid cid h c s) (hzero : c.netns = 0) :
    Obeys plugin pod (pod.Idle plugin) (Prog.orError
      (fun _ => pod.Plugged plugin host { peer with netns := some pod.netns } hid cid h
        { c with netns := pod.ns, up := false, addrs := [] })
      fun _ t => pod.Idle plugin t) (infra (.setNs peer pod.netns) err).run s :=
  plugged_rule p (fun _ _ _ h => h) fun _ _ p hwf hcall howner => p.moves hzero hwf hcall howner

theorem rename_obeys (p : pod.Plugged plugin host peer hid cid h c s) (name : String) :
    Obeys plugin pod (pod.Idle plugin) (Prog.orError
      (fun _ => pod.Plugged plugin host { peer with name := name } hid cid h
        { c with name := name })
      fun _ t => pod.Idle plugin t) (infra (.rename peer name) err).run s :=
  plugged_rule p (fun _ _ _ h => h) fun _ _ p hwf hcall howner => p.renames hwf hcall howner

theorem setRpFilter_obeys (p : pod.Plugged plugin host peer hid cid h c s) (value : UInt8) :
    Obeys plugin pod (pod.Idle plugin) (Prog.orError
      (fun _ => pod.Plugged plugin host peer hid cid { h with rpFilter := value } c)
      fun _ t => pod.Idle plugin t) (infra (.setRpFilter host value) err).run s := by
  refine plugged_rule p (fun _ _ _ h => h) fun u t p hwf hcall howner => ?_
  obtain ⟨ns, id, d, hns, hnamed, hnet⟩ := hcall
  -- `/proc/sys` is reached by name, so the name has to be the pair's in the host's namespace.
  have hzero : u.net.resolve host.netns = some 0 := by
    rw [p.host]
    rfl
  obtain rfl := Option.some.inj (hzero.symm.trans hns)
  obtain ⟨rfl, rfl⟩ := p.named_host hnamed
  exact p.update_host hwf hnet howner ⟨rfl, rfl, rfl, rfl, rfl⟩

theorem setMtu_host_obeys (p : pod.Plugged plugin host peer hid cid h c s) (mtu : UInt32) :
    Obeys plugin pod (pod.Idle plugin) (Prog.orError
      (fun _ => pod.Plugged plugin host peer hid cid { h with mtu := mtu } c)
      fun _ t => pod.Idle plugin t) (infra (.setMtu host mtu) err).run s :=
  plugged_rule p (fun _ _ _ h => h) fun _ _ p hwf hcall howner =>
    p.changes_host (f := ({ · with mtu := mtu })) ⟨rfl, rfl, rfl, rfl, rfl⟩ hwf hcall howner

theorem setMtu_peer_obeys (p : pod.Plugged plugin host peer hid cid h c s) (mtu : UInt32) :
    Obeys plugin pod (pod.Idle plugin) (Prog.orError
      (fun _ => pod.Plugged plugin host peer hid cid h { c with mtu := mtu })
      fun _ t => pod.Idle plugin t) (infra (.setMtu peer mtu) err).run s :=
  plugged_rule p (fun _ _ _ h => h) fun _ _ p hwf hcall howner =>
    p.changes_peer (f := ({ · with mtu := mtu })) ⟨rfl, rfl, rfl, rfl, rfl⟩ hwf hcall howner

theorem setUp_host_obeys (p : pod.Plugged plugin host peer hid cid h c s) :
    Obeys plugin pod (pod.Idle plugin) (Prog.orError
      (fun _ => pod.Plugged plugin host peer hid cid { h with up := true } c)
      fun _ t => pod.Idle plugin t) (infra (.setUp host) err).run s :=
  plugged_rule p (fun _ _ _ h => h) fun _ _ p hwf hcall howner =>
    p.sets_up_host hwf hcall howner

theorem setUp_peer_obeys (p : pod.Plugged plugin host peer hid cid h c s) :
    Obeys plugin pod (pod.Idle plugin) (Prog.orError
      (fun _ => pod.Plugged plugin host peer hid cid h { c with up := true })
      fun _ t => pod.Idle plugin t) (infra (.setUp peer) err).run s :=
  plugged_rule p (fun _ _ _ h => h) fun _ _ p hwf hcall howner =>
    p.sets_up_peer hwf hcall howner

theorem addAddr_obeys (p : pod.Plugged plugin host peer hid cid h c s) (addr : InterfaceAddress) :
    Obeys plugin pod (pod.Idle plugin) (Prog.orError
      (fun _ => pod.Plugged plugin host peer hid cid h { c with addrs := c.addrs ++ [addr] })
      fun _ t => pod.Idle plugin t) (infra (.addAddr peer addr) err).run s := by
  refine plugged_rule p (fun _ _ _ h => h) fun u t p hwf hcall howner => ?_
  obtain ⟨id, d, hof, -, hnet⟩ := hcall
  obtain ⟨rfl, rfl⟩ := p.ofLink_peer hof
  exact p.update_peer hwf hnet howner ⟨rfl, rfl, rfl, rfl, rfl⟩

theorem createVeth_obeys (hs : pod.Idle plugin s ∧ s.net.FreeName pod.ns pod.ifname)
    {spec : VethSpec} (hspec : spec.hostIfname = pod.hostIfname plugin) :
    Obeys plugin pod (pod.Idle plugin) (Prog.orError
      (fun pair t => ∃ hid cid h c, pod.Plugged plugin pair.1 pair.2 hid cid h c t ∧ c.netns = 0)
      fun _ t => pod.Idle plugin t) (infra (.createVeth spec) err).run s := by
  refine infra_rule free_lasting hs (fun _ h => h.1) fun u r t hu hcall howner => ?_
  cases r with
  | ok pair =>
    have hg := guarantee_pair hcall howner hu.1.order
    obtain ⟨h, c, p, hzero⟩ := plugged_of_creates hu.1 hu.2 hspec hcall howner hg
    exact ⟨hg, _, _, h, c, p, hzero⟩
  | error e =>
    rcases hcall with hsame | ⟨host, peer, hcall⟩
    · obtain rfl := Pod.eq_of_net hsame rfl howner
      exact ⟨guarantee_refl _ _, hu.1⟩
    · have hg := guarantee_pair hcall howner hu.1.order
      obtain ⟨h, c, p, -⟩ := plugged_of_creates hu.1 hu.2 hspec hcall howner hg
      exact ⟨hg, p.idle⟩

theorem setupVeth_obeys (hs : pod.Idle plugin s ∧ s.net.FreeName pod.ns pod.ifname)
    (mtu : UInt32) :
    Obeys plugin pod (pod.Idle plugin)
      (Prog.orError
        (fun pair t => ∃ hid cid h c, pod.Plugged plugin pair.1 pair.2 hid cid h c t ∧
          c.netns = pod.ns ∧ c.name = pod.ifname ∧ c.addrs = [] ∧ h.up = true ∧
          h.rpFilter = 0 ∧ h.mtu = c.mtu)
        fun _ t => pod.Idle plugin t)
      (plugin.setupVeth pod.containerId pod.ifname pod.netns mtu).run s := by
  have hI : ∀ u : OwnedNet, pod.Idle plugin u ∧ u.net.FreeName pod.ns pod.ifname →
      pod.Idle plugin u := fun _ h => h.1
  unfold setupVeth
  refine Prog.guards_try _ (generateRand_rule free_lasting hs hI) fun hostMac s₁ hs => ?_
  refine Prog.guards_try _ (generateRand_rule free_lasting hs hI) fun lxcMac s₂ hs => ?_
  refine Prog.guards_try _ (createVeth_obeys hs rfl) fun pair s₃ hs₃ => ?_
  obtain ⟨hid, cid, h, c, p, hzero⟩ := hs₃
  refine Prog.guards_try _ (reading_rule plugged_lasting p (fun _ p => p.idle) openPath_same)
    fun _ s₄ p => ?_
  refine Prog.guards_try _ (setNs_obeys p hzero) fun _ s₅ p => ?_
  refine Prog.guards_try _ (rename_obeys p pod.ifname) fun _ s₆ p => ?_
  refine Prog.guards_try _ (setRpFilter_obeys p 0) fun _ s₇ p => ?_
  refine Prog.guards_try _ (setMtu_host_obeys p mtu) fun _ s₈ p => ?_
  refine Prog.guards_try _ (setMtu_peer_obeys p mtu) fun _ s₉ p => ?_
  refine Prog.guards_try _ (setUp_host_obeys p) fun _ s₁₀ p => ?_
  exact ⟨_, _, _, _, p, rfl, rfl, rfl, rfl, rfl, rfl⟩

theorem addAddrs_obeys (p : pod.Plugged plugin host peer hid cid h c s)
    (addrs : List InterfaceAddress) :
    Obeys plugin pod (pod.Idle plugin) (Prog.orError
      (fun _ => pod.Plugged plugin host peer hid cid h { c with addrs := c.addrs ++ addrs })
      fun _ t => pod.Idle plugin t) (addrs.forM fun addr => infra (.addAddr peer addr) err).run
      s := by
  induction addrs generalizing c s with
  | nil =>
    show pod.Plugged plugin host peer hid cid h { c with addrs := c.addrs ++ [] } s
    rw [List.append_nil]
    exact p
  | cons addr rest ih =>
    rw [List.forM_eq_forM, List.forM_cons]
    refine Prog.guards_try _ (addAddr_obeys p addr) fun _ t p => ?_
    refine (ih p).imp_try (fun _ t p => ?_) fun _ _ h => h
    have hsame : c.addrs ++ (addr :: rest) = c.addrs ++ [addr] ++ rest := by
      rw [List.append_assoc]
      rfl
    rw [hsame]
    exact p

/-- The pair, with routes of the container's device. -/
def Routed (plugin : CniPlugin) (pod : Pod) (host peer : NetlinkLink) (hid cid : Nat)
    (h c : NetDevice) (rs : List Route) (s : OwnedNet) : Prop :=
  pod.Plugged plugin host peer hid cid h c s ∧
    ∀ r ∈ rs, s.net.routes (pod.ns, r.target) = some (cid, r)

theorem routed_lasting {rs : List Route} :
    Lasting (Rely pod.ns) (Routed plugin pod host peer hid cid h c rs) := by
  intro s t hR ⟨p, hroutes⟩
  exact ⟨plugged_lasting s t hR p, fun r hr => (hR.routes r.target).trans (hroutes r hr)⟩

theorem addRoute_obeys {rs : List Route} (hs : Routed plugin pod host peer hid cid h c rs s)
    (hns : c.netns = pod.ns) {r : Route} (hr : r.target ∉ rs.map (·.target)) :
    Obeys plugin pod (pod.Idle plugin) (Prog.orError
      (fun _ => Routed plugin pod host peer hid cid h c (rs ++ [r]))
      fun _ t => pod.Idle plugin t) (infra (.addRoute peer r) err).run s := by
  refine effect_rule routed_lasting hs (fun _ h => h.1.idle) (fun _ h => h.1.idle)
    (fun _ h => h.order) (fun _ _ _ h => h) fun u t hu hwf hcall howner => ?_
  obtain ⟨p, hroutes⟩ := hu
  obtain ⟨hnew, p, hg⟩ := p.add_route hns hwf hcall howner
  refine ⟨⟨p, fun r' hr' => ?_⟩, hg⟩
  rw [hnew]
  rcases List.mem_append.mp hr' with hr' | hr'
  · refine (KeyMap.insert_of_ne _ _ fun hkey => hr ?_).trans (hroutes r' hr')
    exact List.mem_map.mpr ⟨r', hr', congrArg Prod.snd hkey⟩
  · obtain rfl := List.mem_singleton.mp hr'
    exact KeyMap.insert_self _ _ _

theorem addRoutes_obeys {done rs : List Route}
    (hs : Routed plugin pod host peer hid cid h c done s) (hns : c.netns = pod.ns)
    (hrs : ((done ++ rs).map (·.target)).Nodup) :
    Obeys plugin pod (pod.Idle plugin) (Prog.orError
      (fun _ => Routed plugin pod host peer hid cid h c (done ++ rs))
      fun _ t => pod.Idle plugin t) (rs.forM fun r => infra (.addRoute peer r) err).run s := by
  induction rs generalizing done s with
  | nil =>
    show Routed plugin pod host peer hid cid h c (done ++ []) s
    rw [List.append_nil]
    exact hs
  | cons r rest ih =>
    have hr : r.target ∉ done.map (·.target) := by
      rw [List.map_append] at hrs
      exact fun hmem => (List.nodup_append.mp hrs).2.2 _ hmem _ List.mem_cons_self rfl
    rw [List.forM_eq_forM, List.forM_cons]
    rw [List.append_cons] at hrs ⊢
    refine Prog.guards_try _ (addRoute_obeys hs hns hr) fun _ t ht => ih ht ?_
    exact hrs

theorem configureIface_obeys (p : pod.Plugged plugin host peer hid cid h c s)
    (hns : c.netns = pod.ns) (addrs : List InterfaceAddress) {rs : List Route}
    (hrs : (rs.map (·.target)).Nodup) :
    Obeys plugin pod (pod.Idle plugin) (Prog.orError
      (fun _ => Routed plugin pod host peer hid cid h
        { c with up := true, addrs := c.addrs ++ addrs } (sortByMaskNarrowestFirst rs))
      fun _ t => pod.Idle plugin t) (plugin.configureIface peer addrs rs).run s := by
  unfold configureIface
  refine Prog.guards_try _ (setUp_peer_obeys p) fun _ s₁ p => ?_
  refine Prog.guards_try _ (addAddrs_obeys p addrs) fun _ s₂ p => ?_
  have hperm := List.mergeSort_perm rs fun a b => decide (b.target.prefixLen ≤ a.target.prefixLen)
  have hnone : Routed plugin pod host peer hid cid h _ [] _ :=
    ⟨p, fun r hr => absurd hr List.not_mem_nil⟩
  exact addRoutes_obeys hnone hns ((hperm.map _).nodup_iff.mpr hrs)

end

/-! ### The commands -/

section

variable {plugin : CniPlugin} {pod : Pod} {s : OwnedNet}

open Pod

theorem familyConfig_obeys {α : Type} {A : OwnedNet → Prop} (hs : A s)
    (hI : ∀ u, A u → pod.Idle plugin u) (parse : String → Except String α) (family : String)
    (gatewayIp : α → IpAddr) (routes : α → UInt32 → List Route) (routeMtu : UInt32)
    (host : Option String) (container : Option ContainerAddressing) :
    Obeys plugin pod (pod.Idle plugin) (Prog.orError
      (fun config t => A t ∧ ∀ f, config = some f → ∃ a, f.routes = routes a routeMtu)
      fun _ t => pod.Idle plugin t)
      (plugin.familyConfig parse family gatewayIp routes routeMtu host container).run s := by
  have hnone : ∀ f : FamilyConfig, none = some f → ∃ a, f.routes = routes a routeMtu :=
    fun f hf => by cases hf
  unfold familyConfig
  split
  · next host container =>
    refine Prog.guards_try (fun _ => A) ?_ fun gateway t ht => ?_
    · cases parse host with
      | ok a => exact hs
      | error e => exact hI s hs
    refine Prog.guards_try (fun _ => A) ?_ fun endpointIp t ht => ?_
    · cases InterfaceAddress.parse plugin.text container.ip with
      | ok a => exact ht
      | error e => exact hI t ht
    refine ⟨ht, fun f hf => ⟨gateway, ?_⟩⟩
    rw [← Option.some.inj hf]
  · exact ⟨hs, hnone⟩

/-- The destinations of the routes are different. -/
theorem families_targets {ipv4 ipv6 : Option FamilyConfig} {mtu : UInt32}
    (h4 : ∀ f, ipv4 = some f → ∃ a, f.routes = ipv4Routes a mtu)
    (h6 : ∀ f, ipv6 = some f → ∃ a, f.routes = ipv6Routes a mtu) :
    (((ipv4.toList ++ ipv6.toList).flatMap (·.routes)).map (·.target)).Nodup := by
  cases ipv4 with
  | none =>
    cases ipv6 with
    | none => exact List.nodup_nil
    | some f6 =>
      obtain ⟨a6, h6⟩ := h6 f6 rfl
      simp [h6, ipv6Routes, gatewayRoutes, defaultRoute, IpNet.ofAddr]
  | some f4 =>
    obtain ⟨a4, h4⟩ := h4 f4 rfl
    cases ipv6 with
    | none => simp [h4, ipv4Routes, gatewayRoutes, defaultRoute, IpNet.ofAddr]
    | some f6 =>
      obtain ⟨a6, h6⟩ := h6 f6 rfl
      simp [h4, h6, ipv4Routes, ipv6Routes, gatewayRoutes, defaultRoute, IpNet.ofAddr]

theorem attach_obeys (hs : pod.Idle plugin s ∧ s.net.FreeName pod.ns pod.ifname)
    (client : ApiClient) (spec : ArgsSpec) (config : DaemonConfigurationResponse)
    (response : IpamAllocateResponse) :
    Obeys plugin pod (pod.Idle plugin) (Prog.orError
      (fun result t => pod.Idle plugin t ∧ ¬ pod.Stuck plugin t ∧ pod.Wired result t.net)
      fun _ t => pod.Idle plugin t)
      (plugin.attach client pod.containerId pod.ifname pod.netns spec config response).run s := by
  have hI : ∀ u : OwnedNet, pod.Idle plugin u ∧ u.net.FreeName pod.ns pod.ifname →
      pod.Idle plugin u := fun _ h => h.1
  unfold attach
  refine Prog.guards_try _ (ensure_obeys hs hI) fun _ s₁ hs => ?_
  refine Prog.guards_try _ (setupVeth_obeys hs config.deviceMtu) fun pair s₂ hs₂ => ?_
  obtain ⟨hid, cid, h, c, p, hns, hname, haddrs, hup, hrp, hmtu⟩ := hs₂
  refine Prog.guards_try _ (familyConfig_obeys p (fun _ p => p.idle) _ _ _ _ _ _ _)
    fun ipv4 s₃ h4 => ?_
  obtain ⟨p, h4⟩ := h4
  refine Prog.guards_try _ (familyConfig_obeys p (fun _ p => p.idle) _ _ _ _ _ _ _)
    fun ipv6 s₄ h6 => ?_
  obtain ⟨p, h6⟩ := h6
  have hgiven : c.addrs ++ (ipv4.toList ++ ipv6.toList).map (·.endpointIp) =
      (ipv4.toList ++ ipv6.toList).map (·.endpointIp) := by
    rw [haddrs, List.nil_append]
  refine Prog.guards_try _ (configureIface_obeys p hns _ (families_targets h4 h6))
    fun _ s₅ hs₅ => ?_
  refine Prog.guards_try _ (remote_rule (P := (· = .createEndpoint _ _))
    (client.apiData_sends rfl) (fun u request hu hrequest => ?_) routed_lasting hs₅
    fun _ h => h.1.idle) fun _ s₆ hs₆ => ?_
  · obtain ⟨p, -⟩ := hu
    subst hrequest
    refine ⟨rfl, hid, cid, _, _, _, p.hostDevice, p.peerDevice, p.hostNetns, hns, hname,
      p.hostPeer, p.peerPeer, rfl, hname.symm, congrArg MacAddress.text p.peerMac, ?_, ?_, ?_,
      carries_of_order p.order hgiven, ?_⟩
    · rw [p.host]
    · rw [p.host]
    · rw [p.host]
    · cases ipv4 with
      | none =>
        cases ipv6 with
        | none => rfl
        | some f6 => rfl
      | some f4 =>
        cases ipv6 with
        | none => rfl
        | some f6 => rfl
  obtain ⟨p, hroutes⟩ := hs₆
  refine ⟨p.idle, p.not_stuck hns hname, hid, cid, _, _, p.hostDevice, p.peerDevice, p.hostNetns,
    hns, hname, p.hostPeer, p.peerPeer, hup, rfl, hrp, hmtu, ?_, ?_, ?_, ?_⟩
  · rw [p.host, p.peerMac]
  · refine carries_of_order p.order (hgiven.trans ?_)
    rw [List.map_map]
    rfl
  · intro ip hip
    obtain ⟨f, -, rfl⟩ := List.mem_map.mp hip
    rfl
  · intro r hr
    obtain ⟨f, hf, hr⟩ := List.mem_flatMap.mp hr
    obtain ⟨route, hroute, rfl⟩ := List.mem_map.mp hr
    -- The routes were set in the order of their masks; none is left out.
    have hperm := List.mergeSort_perm ((ipv4.toList ++ ipv6.toList).flatMap (·.routes))
      fun a b => decide (b.target.prefixLen ≤ a.target.prefixLen)
    exact hroutes route (hperm.mem_iff.mpr (List.mem_flatMap.mpr ⟨f, hf, hroute⟩))

/-- The deletion of the link, from a state that it keeps. -/
theorem deleteLinkInNs_obeys {I A : OwnedNet → Prop} (hA : Lasting (Rely pod.ns) A) (hs : A s)
    (hI : ∀ u, A u → I u) (hidle : ∀ u, A u → pod.Idle plugin u)
    (hdeletes : ∀ u t, A u → u.net.DeletesLink pod.netns pod.ifname t.net → Labels pod.ns u t →
      A t ∧ t.net.FreeName pod.ns pod.ifname ∧ Guarantee pod.ns u t) :
    Obeys plugin pod I (Prog.orError
      (fun r t => A t ∧ (r = .ok () ∨ (∃ name, r = .error (.linkNotFound name)) →
        t.net.FreeName pod.ns pod.ifname))
      fun _ t => I t)
      (op (.deleteLinkInNs pod.netns pod.ifname) : CniCall (Except InfraError Unit)).run s := by
  refine op_rule hA hs hI fun u r t hu hcall howner => ?_
  cases r with
  | ok _ =>
    obtain ⟨ht, hfree, hg⟩ := hdeletes u t hu hcall howner
    exact ⟨hg, ht, fun _ => hfree⟩
  | error e =>
    cases e with
    | linkNotFound name =>
      obtain ⟨⟨ns, hns, hfree⟩, hsame⟩ := hcall
      obtain rfl := Option.some.inj ((hidle u hu).path.symm.trans hns)
      obtain rfl := eq_of_net hsame rfl howner
      exact ⟨guarantee_refl _ _, hu, fun _ => hfree⟩
    | other text =>
      -- The link may be gone or not; the command does not learn which.
      have hnot : ¬ ((.error (.other text) : Except InfraError Unit) = .ok () ∨
          ∃ name, (.error (.other text) : Except InfraError Unit) =
            .error (.linkNotFound name)) := by
        rintro (h | ⟨name, h⟩)
        · cases h
        · cases h
      rcases hcall with hsame | hcall
      · obtain rfl := eq_of_net hsame rfl howner
        exact ⟨guarantee_refl _ _, hu, fun h => absurd h hnot⟩
      · obtain ⟨ht, -, hg⟩ := hdeletes u t hu hcall howner
        exact ⟨hg, ht, fun h => absurd h hnot⟩

theorem deleteStaleLink_obeys {I A : OwnedNet → Prop} (hA : Lasting (Rely pod.ns) A) (hs : A s)
    (hI : ∀ u, A u → I u) (hidle : ∀ u, A u → pod.Idle plugin u)
    (hdeletes : ∀ u t, A u → u.net.DeletesLink pod.netns pod.ifname t.net → Labels pod.ns u t →
      A t ∧ t.net.FreeName pod.ns pod.ifname ∧ Guarantee pod.ns u t) :
    Obeys plugin pod I (Prog.orError (fun _ t => A t ∧ t.net.FreeName pod.ns pod.ifname)
      fun _ t => I t) (plugin.deleteStaleLink pod.netns pod.ifname).run s := by
  unfold deleteStaleLink
  refine Prog.guards_try _ (deleteLinkInNs_obeys hA hs hI hidle hdeletes) fun r t ht => ?_
  obtain ⟨ht, hfree⟩ := ht
  cases r with
  | ok _ => exact ⟨ht, hfree (.inl rfl)⟩
  | error e =>
    cases e with
    | linkNotFound name => exact ⟨ht, hfree (.inr ⟨name, rfl⟩)⟩
    | other text => exact hI t ht

theorem guarded_obeys {α : Type} {I : OwnedNet → Prop} (hI : Lasting (Rely pod.ns) I)
    (client : ApiClient) (lease : IpamLease) {body : CniCall α} {R : α → OwnedNet → Prop}
    (hbody : Obeys plugin pod I (Prog.orError R fun _ t => I t) body.run s) :
    Obeys plugin pod I (Prog.orError R fun _ t => I t) (lease.guarded client body).run s := by
  have hrelease : ∀ leased, (releaseLeased client leased).Uses (Remote (Silent plugin pod)) := by
    intro leased
    cases leased with
    | none => trivial
    | some addressing =>
      exact Prog.uses_bind (remote_call (client.noBody_sends fun _ => trivial)) fun _ => trivial
  refine Prog.guards_bind hbody fun r t hr => ?_
  cases r with
  | ok a => exact hr
  | error e =>
    -- The lease of either family is given back, which does not touch the network.
    have ht : I t := hr
    refine Prog.guards_bind (remote_prog (hrelease _) (fun u _ _ h => h u) hI ht fun _ h => h)
      fun _ t₁ ht₁ => ?_
    exact Prog.guards_bind (remote_prog (hrelease _) (fun u _ _ h => h u) hI ht₁
      fun _ h => h)
      fun _ t₂ ht₂ => ht₂

/-- What the runtime passes to a command for the container. -/
structure Passed (pod : Pod) (args : CniArgs) : Prop where
  containerId : args.containerId = some pod.containerId
  netns : args.netns = some pod.netns
  ifname : args.ifname = some pod.ifname

/-- ADD, but for the part that holds the lease. -/
theorem add_rule {I A : OwnedNet → Prop} {R : CniResult → OwnedNet → Prop}
    (hlasting : Lasting (Rely pod.ns) I) (hA : Lasting (Rely pod.ns) A)
    (hF : Lasting (Rely pod.ns) fun t => A t ∧ t.net.FreeName pod.ns pod.ifname) (hs : A s)
    (hI : ∀ u, A u → I u) (hidle : ∀ u, A u → pod.Idle plugin u)
    (hdeletes : ∀ u t, A u → u.net.DeletesLink pod.netns pod.ifname t.net → Labels pod.ns u t →
      A t ∧ t.net.FreeName pod.ns pod.ifname ∧ Guarantee pod.ns u t)
    {args : CniArgs} (hargs : Passed pod args) {spec : ArgsSpec}
    (hattach : ∀ client config response t, A t ∧ t.net.FreeName pod.ns pod.ifname →
      Obeys plugin pod I (Prog.orError R fun _ t => I t)
        (plugin.attach client pod.containerId pod.ifname pod.netns spec config response).run t) :
    Obeys plugin pod I (Prog.orError R fun _ t => I t) (plugin.add args spec).run s := by
  have hIF : ∀ u : OwnedNet, A u ∧ u.net.FreeName pod.ns pod.ifname → I u := fun u h => hI u h.1
  unfold add
  rw [hargs.containerId, hargs.netns, hargs.ifname]
  refine Prog.guards_try (fun netns t => netns = pod.netns ∧ A t) ⟨rfl, hs⟩ fun _ s₁ hs₁ => ?_
  obtain ⟨rfl, hs₁⟩ := hs₁
  refine Prog.guards_try (fun ifname t => ifname = pod.ifname ∧ A t) ⟨rfl, hs₁⟩
    fun _ s₂ hs₂ => ?_
  obtain ⟨rfl, hs₂⟩ := hs₂
  refine Prog.guards_try (fun cid t => cid = pod.containerId ∧ A t) ⟨rfl, hs₂⟩
    fun _ s₃ hs₃ => ?_
  obtain ⟨rfl, hs₃⟩ := hs₃
  refine Prog.guards_try _ (ensure_obeys hs₃ hI) fun _ s₄ hs₄ => ?_
  refine Prog.guards_try _ (reading_rule hA hs₄ hI openPath_same) fun _ s₅ hs₅ => ?_
  refine Prog.guards_try _ (deleteStaleLink_obeys hA hs₅ hI hidle hdeletes) fun _ s₆ hs₆ => ?_
  refine Prog.guards_try _ (require_obeys hs₆ hIF) fun client s₇ hs₇ => ?_
  refine Prog.guards_try _ (remote_rule (P := Silent plugin pod)
    (client.apiData_sends fun _ => trivial) (fun u _ _ h => h u) hF hs₇ hIF) fun config s₈ hs₈ => ?_
  refine Prog.guards_try _ (remote_rule (P := Silent plugin pod)
    (client.apiData_sends fun _ => trivial) (fun u _ _ h => h u) hF hs₈ hIF)
    fun response s₉ hs₉ => ?_
  refine Prog.guards_try _ (ensure_obeys hs₉ hIF) fun _ s₁₀ hs₁₀ => ?_
  exact guarded_obeys hlasting _ _ (hattach client config response s₁₀ hs₁₀)

/-- **ADD**, beside commands for other containers. -/
theorem add_obeys (hs : pod.Idle plugin s) {args : CniArgs} (hargs : Passed pod args)
    (spec : ArgsSpec) :
    Obeys plugin pod (pod.Idle plugin) (Prog.orError
      (fun result t => pod.Idle plugin t ∧ ¬ pod.Stuck plugin t ∧ pod.Wired result t.net)
      fun _ t => pod.Idle plugin t) (plugin.add args spec).run s :=
  add_rule idle_lasting idle_lasting free_lasting hs (fun _ h => h) (fun _ h => h)
    (fun _ _ hu hcall howner => hu.deletes hcall howner) hargs
    fun client config response _ ht => attach_obeys ht client spec config response

theorem stuck_lasting : Lasting (Rely pod.ns)
    fun s => pod.Idle plugin s ∧ pod.Stuck plugin s := by
  intro s t hR ⟨hs, hstuck⟩
  have ht := idle_lasting s t hR hs
  exact ⟨ht, hstuck.rely hR ht.order⟩

/-- A pair that was not brought to its end stands in the way of another. -/
theorem attach_stuck (hs : pod.Idle plugin s ∧ pod.Stuck plugin s) (client : ApiClient)
    (spec : ArgsSpec) (config : DaemonConfigurationResponse) (response : IpamAllocateResponse) :
    Obeys plugin pod (fun t => pod.Idle plugin t ∧ pod.Stuck plugin t)
      (Prog.orError (fun _ _ => False) fun _ t => pod.Idle plugin t ∧ pod.Stuck plugin t)
      (plugin.attach client pod.containerId pod.ifname pod.netns spec config response).run s := by
  have hI : ∀ u : OwnedNet, pod.Idle plugin u ∧ pod.Stuck plugin u →
      pod.Idle plugin u ∧ pod.Stuck plugin u := fun _ h => h
  unfold attach
  refine Prog.guards_try _ (ensure_obeys hs hI) fun _ s₁ hs₁ => ?_
  refine Prog.guards_try (fun _ _ => False) ?_ fun _ _ h => h.elim
  unfold setupVeth
  refine Prog.guards_try _ (generateRand_rule stuck_lasting hs₁ hI) fun hostMac s₂ hs₂ => ?_
  refine Prog.guards_try _ (generateRand_rule stuck_lasting hs₂ hI) fun lxcMac s₃ hs₃ => ?_
  refine Prog.guards_try (fun _ _ => False)
    (infra_rule stuck_lasting hs₃ hI fun u r t hu hcall howner => ?_) fun _ _ h => h.elim
  have hno : ∀ host peer, ¬ u.net.CreatesVeth ⟨pod.hostIfname plugin, some hostMac,
      endpointToTempIfname s!"{pod.containerId}:{pod.ifname}", some lxcMac⟩ host peer t.net := by
    -- The name of the host's end is that of the one left behind.
    rintro host peer ⟨-, -, hname, -⟩
    obtain ⟨id, d, hd, -, hns, hdname, -⟩ := hu.2
    exact hname id d hd hns hdname
  cases r with
  | ok pair => exact absurd hcall (hno pair.1 pair.2)
  | error e =>
    rcases hcall with hsame | ⟨host, peer, hcall⟩
    · obtain rfl := eq_of_net hsame rfl howner
      exact ⟨guarantee_refl _ _, hu⟩
    · exact absurd hcall (hno host peer)

theorem add_stuck (hs : pod.Idle plugin s ∧ pod.Stuck plugin s) {args : CniArgs}
    (hargs : Passed pod args) (spec : ArgsSpec) :
    Obeys plugin pod (fun t => pod.Idle plugin t ∧ pod.Stuck plugin t)
      (Prog.orError (fun _ _ => False) fun _ t => pod.Idle plugin t ∧ pod.Stuck plugin t)
      (plugin.add args spec).run s := by
  have hF : Lasting (Rely pod.ns) fun t => (pod.Idle plugin t ∧ pod.Stuck plugin t) ∧
      t.net.FreeName pod.ns pod.ifname := by
    intro u t hR ⟨hu, hfree⟩
    exact ⟨stuck_lasting u t hR hu, (free_lasting u t hR ⟨hu.1, hfree⟩).2⟩
  refine add_rule stuck_lasting stuck_lasting hF hs (fun _ h => h) (fun _ h => h.1)
    (fun u t hu hcall howner => ?_) hargs
    fun client config response _ ht => attach_stuck ht.1 client spec config response
  obtain ⟨ht, hfree, hg⟩ := hu.1.deletes hcall howner
  exact ⟨⟨ht, hu.2.deletes hu.1 hcall howner⟩, hfree, hg⟩

/-- DEL, from a state that it keeps. -/
theorem del_rule {A : OwnedNet → Prop} (hA : Lasting (Rely pod.ns) A) (hs : A s)
    (hidle : ∀ u, A u → pod.Idle plugin u)
    (hdeletes : ∀ u t, A u → u.net.DeletesLink pod.netns pod.ifname t.net → Labels pod.ns u t →
      A t ∧ t.net.FreeName pod.ns pod.ifname ∧ Guarantee pod.ns u t)
    {args : CniArgs} (hargs : Passed pod args) :
    Obeys plugin pod A (Prog.orError (fun _ t => A t) fun _ t => A t) (plugin.del args).run s := by
  have hI : ∀ u, A u → A u := fun _ h => h
  unfold del
  rw [hargs.netns, hargs.ifname]
  refine Prog.guards_try (fun netns t => netns = pod.netns ∧ A t) ⟨rfl, hs⟩ fun _ s₁ hs₁ => ?_
  obtain ⟨rfl, hs₁⟩ := hs₁
  refine Prog.guards_try (fun ifname t => ifname = pod.ifname ∧ A t) ⟨rfl, hs₁⟩
    fun _ s₂ hs₂ => ?_
  obtain ⟨rfl, hs₂⟩ := hs₂
  refine Prog.guards_try _ (require_obeys hs₂ hI) fun containerId s₃ hs₃ => ?_
  refine Prog.guards_try _ (require_obeys hs₃ hI) fun client s₄ hs₄ => ?_
  refine Prog.guards_try _ (remote_rule (P := Silent plugin pod)
    (client.noBody_sends fun _ => trivial) (fun u _ _ h => h u) hA hs₄ hI) fun _ s₅ hs₅ => ?_
  refine Prog.guards_try _ (reading_rule hA hs₅ hI openPath_same) fun _ s₆ hs₆ => ?_
  refine Prog.guards_try _ (deleteLinkInNs_obeys hA hs₆ hI hidle hdeletes) fun _ s₇ hs₇ => ?_
  exact hs₇.1

end

end CniPlugin

end Sarena
