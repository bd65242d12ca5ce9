import Sarena.Cni.Plugin
import Sarena.Lib.KeyMap

namespace Sarena

open Lib

/-!
# CNI — the network of the host

The namespaces and devices that the plugin's operations are about, as the kernel has them.  A
device is found by its namespace and its index, or by its namespace and its name.

* `NetKernel`, `NetDevice` — namespaces, devices and routes;
* `NetKernel.Carries` — the addresses that a device was given, beside the kernel's own;
* `NetKernel.createsVeth`, `movesLink`, … — what an operation does when it succeeds;
* `InfraOp.call` — the operations, which may fail before or after they are done;
* `NetKernel.Wf` — names and indices are unique in a namespace, and ends of a pair belong
  together;
* `NetKernel.withPair` — a new pair beside the devices that were there before.
-/

/-- A device.  Its ends are moved, renamed and configured one by one. -/
structure NetDevice where
  name : String
  netns : Nat
  index : UInt32
  mac : MacAddress
  /-- The other end of a pair. -/
  peer : Option Nat
  up : Bool
  mtu : UInt32
  rpFilter : UInt8
  /-- The addresses that it was given. -/
  addrs : List InterfaceAddress
  deriving DecidableEq, Repr

/-- The device keeps its place, its name and its other end. -/
structure NetDevice.Stays (d d' : NetDevice) : Prop where
  name : d'.name = d.name
  netns : d'.netns = d.netns
  index : d'.index = d.index
  mac : d'.mac = d.mac
  peer : d'.peer = d.peer

/-- The block `fe80::/64`. -/
def linkLocalBlock : IpNet := .v6 (0xfe80 <<< 112) 64

/-- An address of the kind that the kernel gives to an interface by itself. -/
def InterfaceAddress.LinkLocal (addr : InterfaceAddress) : Prop :=
  linkLocalBlock.contains addr.addr = true

/-- The kernel's network; the namespace of the host is number 0. -/
structure NetKernel where
  /-- The namespaces by the paths of their files. -/
  paths : KeyMap String Nat
  devices : KeyMap Nat NetDevice
  /-- The addresses that the kernel itself has given to devices. -/
  linkLocal : Nat → List InterfaceAddress
  /-- The routes that were added, by their namespaces and destinations, with their devices. -/
  routes : KeyMap (Nat × IpNet) (Nat × Route)
  /-- The next number of a device. -/
  next : Nat

namespace NetKernel

/-- The namespace of a link. -/
def resolve (k : NetKernel) (netns : Option String) : Option Nat :=
  match netns with
  | some path => k.paths path
  | none => some 0

def setDevice (k : NetKernel) (id : Nat) (d : NetDevice) : NetKernel :=
  { k with devices := k.devices.insert id d }

/-- Devices are deleted, and their routes with them. -/
def unlink (k : NetKernel) (ids : List Nat) : NetKernel :=
  { k with
    devices := k.devices.retain fun id _ => !ids.contains id
    routes := k.routes.retain fun _ r => !ids.contains r.1 }

/-- No device of the namespace has the name. -/
def FreeName (k : NetKernel) (ns : Nat) (name : String) : Prop :=
  ∀ id d, k.devices id = some d → d.netns = ns → d.name ≠ name

/-- No device of the namespace has the index. -/
def FreeIndex (k : NetKernel) (ns : Nat) (index : UInt32) : Prop :=
  ∀ id d, k.devices id = some d → d.netns = ns → d.index ≠ index

/-- The device that a link stands for. -/
def OfLink (k : NetKernel) (link : NetlinkLink) (id : Nat) (d : NetDevice) : Prop :=
  k.devices id = some d ∧ k.resolve link.netns = some d.netns ∧ d.index = link.index

/-- The device of a name. -/
def Named (k : NetKernel) (ns : Nat) (name : String) (id : Nat) (d : NetDevice) : Prop :=
  k.devices id = some d ∧ d.netns = ns ∧ d.name = name

/-- All addresses of a device. -/
def addresses (k : NetKernel) (id : Nat) (d : NetDevice) : List InterfaceAddress :=
  k.linkLocal id ++ d.addrs

/-- The device has these addresses, and no others but link-local ones of the kernel's own. -/
def Carries (k : NetKernel) (id : Nat) (d : NetDevice) (addrs : List InterfaceAddress) : Prop :=
  k.addresses id d = k.linkLocal id ++ addrs ∧ ∀ a ∈ k.linkLocal id, a.LinkLocal

/-- The kernel gives link-local addresses to some devices. -/
def GivesLinkLocal (k : NetKernel) (ids : List Nat) (k' : NetKernel) : Prop :=
  ∃ own : Nat → List InterfaceAddress,
    (∀ id, ∀ a ∈ own id, a ∈ k.linkLocal id ∨ a.LinkLocal) ∧
    (∀ id, id ∉ ids → own id = k.linkLocal id) ∧ k' = { k with linkLocal := own }

/-! ### What the operations do -/

/-- `delete_link_in_ns`, with the other end of a pair. -/
def DeletesLink (k : NetKernel) (path name : String) (k' : NetKernel) : Prop :=
  ∃ ns id d, k.paths path = some ns ∧ k.Named ns name id d ∧ k' = k.unlink (id :: d.peer.toList)

/-- A new pair. -/
def withPair (k : NetKernel) (h c : NetDevice) : NetKernel :=
  { k with
    devices := (k.devices.insert k.next h).insert (k.next + 1) c
    next := k.next + 2 }

/-- A device as it is created, in the namespace of the host. -/
structure Created (k : NetKernel) (name : String) (mac : Option MacAddress) (peer : Nat)
    (d : NetDevice) : Prop where
  name : d.name = name
  netns : d.netns = 0
  index : k.FreeIndex 0 d.index
  mac : ∀ m, mac = some m → d.mac = m
  peer : d.peer = some peer
  down : d.up = false
  addrs : d.addrs = []

/-- `create_veth`. -/
def CreatesVeth (k : NetKernel) (spec : VethSpec) (host peer : NetlinkLink) (k' : NetKernel) :
    Prop :=
  ∃ h c, k.FreeName 0 spec.hostIfname ∧ k.FreeName 0 spec.peerIfname ∧
    spec.hostIfname ≠ spec.peerIfname ∧ h.index ≠ c.index ∧
    k.Created spec.hostIfname spec.hostMac (k.next + 1) h ∧
    k.Created spec.peerIfname spec.peerMac k.next c ∧
    host = ⟨h.name, h.index, h.mac, none⟩ ∧ peer = ⟨c.name, c.index, c.mac, none⟩ ∧
    k' = k.withPair h c

/-- The index that a device has in another namespace: its own, unless that is taken there. -/
def MovedIndex (k : NetKernel) (ns : Nat) (old new : UInt32) : Prop :=
  k.FreeIndex ns new ∧ (k.FreeIndex ns old → new = old)

/-- `set_ns`.  A device that is moved goes down and loses its addresses and routes. -/
def MovesLink (k : NetKernel) (link : NetlinkLink) (target : String) (k' : NetKernel) : Prop :=
  ∃ id d ns, k.OfLink link id d ∧ k.paths target = some ns ∧
    (ns = d.netns ∧ k' = k ∨ ns ≠ d.netns ∧ k.FreeName ns d.name ∧ ∃ index,
      k.MovedIndex ns d.index index ∧
      k' = { k.setDevice id { d with netns := ns, index := index, up := false, addrs := [] } with
        linkLocal := Function.update k.linkLocal id []
        routes := k.routes.retain fun _ r => r.1 ≠ id })

/-- `rename`. -/
def RenamesLink (k : NetKernel) (link : NetlinkLink) (name : String) (k' : NetKernel) : Prop :=
  ∃ id d, k.OfLink link id d ∧ (d.name = name ∨ k.FreeName d.netns name) ∧
    k' = k.setDevice id { d with name := name }

/-- `set_rp_filter`, which finds the device by its name. -/
def SetsRpFilter (k : NetKernel) (link : NetlinkLink) (value : UInt8) (k' : NetKernel) : Prop :=
  ∃ ns id d, k.resolve link.netns = some ns ∧ k.Named ns link.name id d ∧
    k' = k.setDevice id { d with rpFilter := value }

/-- A change of the device that a link stands for. -/
def Changes (k : NetKernel) (link : NetlinkLink) (f : NetDevice → NetDevice) (k' : NetKernel) :
    Prop :=
  ∃ id d, k.OfLink link id d ∧ k' = k.setDevice id (f d)

/-- `set_up`.  The kernel gives link-local addresses to both ends of a pair that is up. -/
def SetsUp (k : NetKernel) (link : NetlinkLink) (k' : NetKernel) : Prop :=
  ∃ id d, k.OfLink link id d ∧
    (k.setDevice id { d with up := true }).GivesLinkLocal (id :: d.peer.toList) k'

/-- `add_addr`, of an address that the device does not have. -/
def AddsAddr (k : NetKernel) (link : NetlinkLink) (addr : InterfaceAddress) (k' : NetKernel) :
    Prop :=
  ∃ id d, k.OfLink link id d ∧ addr ∉ k.addresses id d ∧
    k' = k.setDevice id { d with addrs := d.addrs ++ [addr] }

/-- `add_route`, in the place of a route to the same destination. -/
def AddsRoute (k : NetKernel) (link : NetlinkLink) (route : Route) (k' : NetKernel) : Prop :=
  ∃ id d, k.OfLink link id d ∧
    k' = { k with routes := k.routes.insert (d.netns, route.target) (id, route) }

end NetKernel

/-- The operations.  An error says that the operation may not have been done; the thread that
    does it in another namespace may fail after it. -/
def InfraOp.call : Sem InfraOp NetKernel
  | _, .openPath path, k, .ok (), k' => k.paths path ≠ none ∧ k' = k
  | _, .openPath _, k, .error _, k' => k' = k
  | _, .deleteLinkInNs path name, k, .ok (), k' => k.DeletesLink path name k'
  | _, .deleteLinkInNs path name, k, .error (.linkNotFound _), k' =>
    (∃ ns, k.paths path = some ns ∧ k.FreeName ns name) ∧ k' = k
  | _, .deleteLinkInNs path name, k, .error (.other _), k' => k' = k ∨ k.DeletesLink path name k'
  | _, .generateRand, k, _, k' => k' = k
  | _, .createVeth spec, k, .ok pair, k' => k.CreatesVeth spec pair.1 pair.2 k'
  | _, .createVeth spec, k, .error _, k' => k' = k ∨ ∃ host peer, k.CreatesVeth spec host peer k'
  | _, .setNs link target, k, .ok (), k' => k.MovesLink link target k'
  | _, .setNs link target, k, .error _, k' => k' = k ∨ k.MovesLink link target k'
  | _, .rename link name, k, .ok (), k' => k.RenamesLink link name k'
  | _, .rename link name, k, .error _, k' => k' = k ∨ k.RenamesLink link name k'
  | _, .setRpFilter link value, k, .ok (), k' => k.SetsRpFilter link value k'
  | _, .setRpFilter link value, k, .error _, k' => k' = k ∨ k.SetsRpFilter link value k'
  | _, .setMtu link mtu, k, .ok (), k' => k.Changes link ({ · with mtu := mtu }) k'
  | _, .setMtu link mtu, k, .error _, k' => k' = k ∨ k.Changes link ({ · with mtu := mtu }) k'
  | _, .setUp link, k, .ok (), k' => k.SetsUp link k'
  | _, .setUp link, k, .error _, k' => k' = k ∨ k.SetsUp link k'
  | _, .addAddr link addr, k, .ok (), k' => k.AddsAddr link addr k'
  | _, .addAddr link addr, k, .error _, k' => k' = k ∨ k.AddsAddr link addr k'
  | _, .addRoute link route, k, .ok (), k' => k.AddsRoute link route k'
  | _, .addRoute link route, k, .error _, k' => k' = k ∨ k.AddsRoute link route k'

/-- The operations of a command, as far as the network goes: the daemon answers anything. -/
def CniOp.wires : Sem CniOp NetKernel
  | _, .inl _, k, _, k' => k' = k
  | _, .inr op, k, b, k' => InfraOp.call _ op k b k'

/-! ### Networks in order -/

namespace NetKernel

/-- No two devices of a namespace have the same `f`. -/
def Distinct {β : Type} (f : NetDevice → β) (k : NetKernel) : Prop :=
  ∀ id d id' d', k.devices id = some d → k.devices id' = some d' → d.netns = d'.netns →
    f d = f d' → id = id'

/-- Devices have numbers that were given out, a name or an index stands for one device of a
    namespace, the ends of a pair belong together, routes lead to devices of their namespaces,
    and the kernel's own addresses are link-local. -/
structure Wf (k : NetKernel) : Prop where
  fresh : ∀ id, k.next ≤ id → k.devices id = none
  names : k.Distinct (·.name)
  indices : k.Distinct (·.index)
  peer : ∀ id d id', k.devices id = some d → d.peer = some id' → ∃ d', k.devices id' = some d' ∧
    d'.peer = some id
  routes : ∀ key dev r, k.routes key = some (dev, r) → ∃ d, k.devices dev = some d ∧
    d.netns = key.1
  linkLocal : ∀ id, ∀ a ∈ k.linkLocal id, a.LinkLocal

variable {k k' : NetKernel} {id : Nat} {d d' h c : NetDevice} {β : Type} {f : NetDevice → β}

theorem unlink_devices {ids : List Nat} :
    (k.unlink ids).devices id = some d ↔ k.devices id = some d ∧ id ∉ ids := by
  show k.devices.retain (fun id _ => !ids.contains id) id = some d ↔ _
  rw [KeyMap.retain_eq_some, Bool.not_eq_true', ← Bool.not_eq_true, List.contains_iff_mem]

theorem unlink_routes {ids : List Nat} {key : Nat × IpNet} {r : Nat × Route} :
    (k.unlink ids).routes key = some r ↔ k.routes key = some r ∧ r.1 ∉ ids := by
  show k.routes.retain (fun _ r => !ids.contains r.1) key = some r ↔ _
  rw [KeyMap.retain_eq_some, Bool.not_eq_true', ← Bool.not_eq_true, List.contains_iff_mem]

theorem withPair_devices (i : Nat) :
    (k.withPair h c).devices i =
      if i = k.next + 1 then some c else if i = k.next then some h else k.devices i := by
  show (k.devices.insert k.next h).insert (k.next + 1) c i = _
  rw [KeyMap.insert_apply, KeyMap.insert_apply]

theorem setDevice_devices (d : NetDevice) (i : Nat) :
    (k.setDevice id d).devices i = if i = id then some d else k.devices i :=
  KeyMap.insert_apply _ _ _ _

theorem setDevice_self (hd : k.devices id = some d) : k.setDevice id d = k := by
  have hdevices : k.devices.insert id d = k.devices := by
    rw [KeyMap.insert, ← hd, Function.update_eq_self]
  exact congrArg (fun devices => ({ k with devices := devices } : NetKernel)) hdevices

theorem Distinct.setDevice (hk : k.Distinct f)
    (hnew : ∀ i d, i ≠ id → k.devices i = some d → d.netns = d'.netns → f d ≠ f d') :
    (k.setDevice id d').Distinct f := by
  intro i d₁ i' d₂ h₁ h₂ hns hf
  rw [setDevice_devices] at h₁ h₂
  split at h₁
  · next hi =>
    obtain rfl := Option.some.inj h₁
    split at h₂
    · next hi' => exact hi.trans hi'.symm
    · next hi' => exact absurd hf.symm (hnew i' d₂ hi' h₂ hns.symm)
  · next hi =>
    split at h₂
    · obtain rfl := Option.some.inj h₂
      exact absurd hf (hnew i d₁ hi h₁ hns)
    · exact hk i d₁ i' d₂ h₁ h₂ hns hf

theorem Distinct.withPair (hk : k.Distinct f)
    (hh : ∀ i d, k.devices i = some d → d.netns = h.netns → f d ≠ f h)
    (hc : ∀ i d, k.devices i = some d → d.netns = c.netns → f d ≠ f c) (hne : f h ≠ f c) :
    (k.withPair h c).Distinct f := by
  intro i d₁ i' d₂ h₁ h₂ hns hf
  rw [withPair_devices] at h₁ h₂
  split at h₁
  · next hi =>
    obtain rfl := Option.some.inj h₁
    split at h₂
    · next hi' => exact hi.trans hi'.symm
    split at h₂
    · obtain rfl := Option.some.inj h₂
      exact absurd hf.symm hne
    · exact absurd hf.symm (hc i' d₂ h₂ hns.symm)
  split at h₁
  · next hi =>
    obtain rfl := Option.some.inj h₁
    split at h₂
    · obtain rfl := Option.some.inj h₂
      exact absurd hf hne
    split at h₂
    · next hi' => exact hi.trans hi'.symm
    · exact absurd hf.symm (hh i' d₂ h₂ hns.symm)
  split at h₂
  · obtain rfl := Option.some.inj h₂
    exact absurd hf (hc i d₁ h₁ hns)
  split at h₂
  · obtain rfl := Option.some.inj h₂
    exact absurd hf (hh i d₁ h₁ hns)
  exact hk i d₁ i' d₂ h₁ h₂ hns hf

theorem Wf.lt_next (hk : k.Wf) (hd : k.devices id = some d) : id < k.next := by
  by_contra hlt
  cases (hk.fresh id (Nat.not_lt.mp hlt)).symm.trans hd

/-- Both ends of a pair are deleted. -/
theorem Wf.unlink (hk : k.Wf) (hd : k.devices id = some d) :
    (k.unlink (id :: d.peer.toList)).Wf where
  fresh i hi := by
    rw [Option.eq_none_iff_forall_ne_some]
    intro d' hd'
    cases (hk.fresh i hi).symm.trans (unlink_devices.mp hd').1
  names i d₁ i' d₂ h₁ h₂ := hk.names i d₁ i' d₂ (unlink_devices.mp h₁).1 (unlink_devices.mp h₂).1
  indices i d₁ i' d₂ h₁ h₂ :=
    hk.indices i d₁ i' d₂ (unlink_devices.mp h₁).1 (unlink_devices.mp h₂).1
  peer i d₁ i' h₁ hpeer := by
    obtain ⟨h₁, hmem⟩ := unlink_devices.mp h₁
    obtain ⟨d₂, h₂, hpeer'⟩ := hk.peer i d₁ i' h₁ hpeer
    refine ⟨d₂, unlink_devices.mpr ⟨h₂, fun hmem' => hmem ?_⟩, hpeer'⟩
    rcases List.mem_cons.mp hmem' with rfl | hmem'
    · obtain rfl := Option.some.inj (hd.symm.trans h₂)
      exact List.mem_cons_of_mem _ (Option.mem_toList.mpr hpeer')
    · obtain ⟨d₃, h₃, hpeer₃⟩ := hk.peer id d i' hd (Option.mem_toList.mp hmem')
      obtain rfl := Option.some.inj (h₂.symm.trans h₃)
      obtain rfl := Option.some.inj (hpeer'.symm.trans hpeer₃)
      exact List.mem_cons_self
  routes key dev r hr := by
    obtain ⟨hr, hmem⟩ := unlink_routes.mp hr
    obtain ⟨d', hd', hns⟩ := hk.routes key dev r hr
    exact ⟨d', unlink_devices.mpr ⟨hd', hmem⟩, hns⟩
  linkLocal := hk.linkLocal

/-- The kernel's own addresses have no part in the order of the rest. -/
theorem Wf.withLinkLocal (hk : k.Wf) {own : Nat → List InterfaceAddress}
    (hown : ∀ id, ∀ a ∈ own id, a.LinkLocal) : ({ k with linkLocal := own } : NetKernel).Wf :=
  ⟨hk.fresh, hk.names, hk.indices, hk.peer, hk.routes, hown⟩

theorem Wf.linkLocal_update (hk : k.Wf) {i : Nat} {a : InterfaceAddress}
    (ha : a ∈ Function.update k.linkLocal id [] i) : a.LinkLocal := by
  rw [Function.update_apply] at ha
  split at ha
  · cases ha
  · exact hk.linkLocal i a ha

/-- One device is changed, and keeps its other end. -/
theorem Wf.setDevice (hk : k.Wf) (hd : k.devices id = some d) (hpeer : d'.peer = d.peer)
    (hname : ∀ i d₁, i ≠ id → k.devices i = some d₁ → d₁.netns = d'.netns → d₁.name ≠ d'.name)
    (hindex : ∀ i d₁, i ≠ id → k.devices i = some d₁ → d₁.netns = d'.netns →
      d₁.index ≠ d'.index)
    {routes : KeyMap (Nat × IpNet) (Nat × Route)}
    (hroutes : ∀ key dev r, routes key = some (dev, r) →
      ∃ d, (k.setDevice id d').devices dev = some d ∧ d.netns = key.1) :
    ({ k.setDevice id d' with routes := routes } : NetKernel).Wf where
  fresh i hi := by
    have hne : i ≠ id := (Nat.lt_of_lt_of_le (hk.lt_next hd) hi).ne'
    exact (KeyMap.insert_of_ne _ _ hne).trans (hk.fresh i hi)
  names := Distinct.setDevice hk.names hname
  indices := Distinct.setDevice hk.indices hindex
  peer i d₁ i' h₁ hpeer₁ := by
    have hold : ∃ d₀, k.devices i = some d₀ ∧ d₀.peer = some i' := by
      change (k.setDevice id d').devices i = some d₁ at h₁
      rw [setDevice_devices] at h₁
      split at h₁
      · next hi =>
        obtain rfl := Option.some.inj h₁
        exact ⟨d, hi ▸ hd, hpeer.symm.trans hpeer₁⟩
      · exact ⟨d₁, h₁, hpeer₁⟩
    obtain ⟨d₀, h₀, hpeer₀⟩ := hold
    obtain ⟨d₂, h₂, hpeer₂⟩ := hk.peer i d₀ i' h₀ hpeer₀
    show ∃ d₂, (k.setDevice id d').devices i' = some d₂ ∧ _
    rw [setDevice_devices]
    split
    · next hi' =>
      rw [hi', hd] at h₂
      obtain rfl := Option.some.inj h₂
      exact ⟨d', rfl, hpeer.trans hpeer₂⟩
    · exact ⟨d₂, h₂, hpeer₂⟩
  routes := hroutes
  linkLocal := hk.linkLocal

/-- One device is changed, and stays in its namespace. -/
theorem Wf.setDevice_stays (hk : k.Wf) (hd : k.devices id = some d) (hpeer : d'.peer = d.peer)
    (hnetns : d'.netns = d.netns) (hindex : d'.index = d.index)
    (hname : ∀ i d₁, i ≠ id → k.devices i = some d₁ → d₁.netns = d.netns → d₁.name ≠ d'.name) :
    (k.setDevice id d').Wf := by
  refine hk.setDevice hd hpeer (fun i d₁ hi h₁ hns => hname i d₁ hi h₁ (hns.trans hnetns))
    (fun i d₁ hi h₁ hns hn => hi ?_) fun key dev r hr => ?_
  · exact hk.indices i d₁ id d h₁ hd (hns.trans hnetns) (hn.trans hindex)
  · obtain ⟨d₁, h₁, hns⟩ := hk.routes key dev r hr
    rw [setDevice_devices]
    split
    · next hdev =>
      rw [hdev, hd] at h₁
      obtain rfl := Option.some.inj h₁
      exact ⟨d', rfl, hnetns.trans hns⟩
    · exact ⟨d₁, h₁, hns⟩

/-- One device is changed, and keeps its place and its name. -/
theorem Wf.update (hk : k.Wf) (hd : k.devices id = some d) (h : d.Stays d') :
    (k.setDevice id d').Wf := by
  refine hk.setDevice_stays hd h.peer h.netns h.index fun i d₁ hi h₁ hns hn => hi ?_
  exact hk.names i d₁ id d h₁ hd hns (hn.trans h.name)

theorem CreatesVeth.wf {spec : VethSpec} {host peer : NetlinkLink} (hk : k.Wf)
    (hcall : k.CreatesVeth spec host peer k') : k'.Wf := by
  obtain ⟨h, c, hname, hname', hne, hindex, hh, hc, -, -, rfl⟩ := hcall
  have hold : ∀ {i d}, k.devices i = some d → (k.withPair h c).devices i = some d := by
    intro i d hd
    have hlt := hk.lt_next hd
    rw [withPair_devices, if_neg (by omega), if_neg (by omega)]
    exact hd
  refine ⟨fun i hi => ?_, Distinct.withPair hk.names ?_ ?_ ?_, Distinct.withPair hk.indices ?_ ?_
    hindex, fun i d₁ i' h₁ hpeer => ?_, fun key dev r hr => ?_, hk.linkLocal⟩
  · have hi' : k.next + 2 ≤ i := hi
    rw [withPair_devices, if_neg (by omega), if_neg (by omega)]
    exact hk.fresh i (by omega)
  · rw [hh.name, hh.netns]
    exact hname
  · rw [hc.name, hc.netns]
    exact hname'
  · rw [hh.name, hc.name]
    exact hne
  · rw [hh.netns]
    exact hh.index
  · rw [hc.netns]
    exact hc.index
  · rw [withPair_devices] at h₁
    split at h₁
    · next hi =>
      obtain rfl := Option.some.inj h₁
      obtain rfl : k.next = i' := Option.some.inj (hc.peer.symm.trans hpeer)
      refine ⟨h, ?_, hi ▸ hh.peer⟩
      rw [withPair_devices, if_neg (by omega), if_pos rfl]
    split at h₁
    · next hi =>
      obtain rfl := Option.some.inj h₁
      obtain rfl : k.next + 1 = i' := Option.some.inj (hh.peer.symm.trans hpeer)
      refine ⟨c, ?_, hi ▸ hc.peer⟩
      rw [withPair_devices, if_pos rfl]
    obtain ⟨d₂, h₂, hpeer₂⟩ := hk.peer i d₁ i' h₁ hpeer
    exact ⟨d₂, hold h₂, hpeer₂⟩
  · obtain ⟨d, hd, hns⟩ := hk.routes key dev r hr
    exact ⟨d, hold hd, hns⟩

theorem DeletesLink.wf {path name : String} (hk : k.Wf) (hcall : k.DeletesLink path name k') :
    k'.Wf := by
  obtain ⟨ns, id, d, -, ⟨hd, -, -⟩, rfl⟩ := hcall
  exact hk.unlink hd

theorem MovesLink.wf {link : NetlinkLink} {path : String} (hk : k.Wf)
    (hcall : k.MovesLink link path k') : k'.Wf := by
  obtain ⟨id, d, ns, ⟨hd, -, -⟩, -, ⟨-, rfl⟩ | ⟨-, hfree, index, ⟨hindex, -⟩, rfl⟩⟩ :=
    hcall
  · exact hk
  · have hpeer : NetDevice.peer { d with netns := ns, index := index, up := false, addrs := [] } =
        d.peer := rfl
    have hroutes : ∀ key dev r, (k.routes.retain fun _ r => r.1 ≠ id) key = some (dev, r) →
        ∃ d₁, (k.setDevice id
          { d with netns := ns, index := index, up := false, addrs := [] }).devices dev =
            some d₁ ∧ d₁.netns = key.1 := by
      intro key dev r hr
      obtain ⟨hr, hdev⟩ := KeyMap.retain_eq_some.mp hr
      rw [setDevice_devices, if_neg (of_decide_eq_true hdev)]
      exact hk.routes key dev r hr
    have hmoved := hk.setDevice hd hpeer (fun i d₁ _ h₁ hns => hfree i d₁ h₁ hns)
      (fun i d₁ _ h₁ hns => hindex i d₁ h₁ hns) hroutes
    exact hmoved.withLinkLocal fun i a ha => hk.linkLocal_update ha

theorem RenamesLink.wf {link : NetlinkLink} {name : String} (hk : k.Wf)
    (hcall : k.RenamesLink link name k') : k'.Wf := by
  obtain ⟨id, d, ⟨hd, -, -⟩, hfree, rfl⟩ := hcall
  rcases hfree with hsame | hfree
  · exact hk.update hd ⟨hsame.symm, rfl, rfl, rfl, rfl⟩
  · have hpeer : NetDevice.peer { d with name := name } = d.peer := rfl
    exact hk.setDevice_stays hd hpeer rfl rfl fun i d₁ _ h₁ hns => hfree i d₁ h₁ hns

theorem Changes.wf {link : NetlinkLink} {f : NetDevice → NetDevice} (hk : k.Wf)
    (hf : ∀ d : NetDevice, d.Stays (f d)) (hcall : k.Changes link f k') : k'.Wf := by
  obtain ⟨id, d, ⟨hd, -, -⟩, rfl⟩ := hcall
  exact hk.update hd (hf d)

theorem GivesLinkLocal.wf {ids : List Nat} (hk : k.Wf) (hcall : k.GivesLinkLocal ids k') :
    k'.Wf := by
  obtain ⟨own, hown, -, rfl⟩ := hcall
  exact hk.withLinkLocal fun i a ha => (hown i a ha).elim (hk.linkLocal i a) fun h => h

theorem SetsUp.wf {link : NetlinkLink} (hk : k.Wf) (hcall : k.SetsUp link k') : k'.Wf := by
  obtain ⟨id, d, ⟨hd, -, -⟩, hgives⟩ := hcall
  have hstays : d.Stays { d with up := true } := ⟨rfl, rfl, rfl, rfl, rfl⟩
  exact GivesLinkLocal.wf (hk.update hd hstays) hgives

theorem SetsRpFilter.wf {link : NetlinkLink} {value : UInt8} (hk : k.Wf)
    (hcall : k.SetsRpFilter link value k') : k'.Wf := by
  obtain ⟨ns, id, d, -, ⟨hd, -, -⟩, rfl⟩ := hcall
  exact hk.update hd ⟨rfl, rfl, rfl, rfl, rfl⟩

theorem AddsAddr.wf {link : NetlinkLink} {addr : InterfaceAddress} (hk : k.Wf)
    (hcall : k.AddsAddr link addr k') : k'.Wf := by
  obtain ⟨id, d, ⟨hd, -, -⟩, -, rfl⟩ := hcall
  exact hk.update hd ⟨rfl, rfl, rfl, rfl, rfl⟩

theorem AddsRoute.wf {link : NetlinkLink} {route : Route} (hk : k.Wf)
    (hcall : k.AddsRoute link route k') : k'.Wf := by
  obtain ⟨id, d, ⟨hd, -, -⟩, rfl⟩ := hcall
  refine ⟨hk.fresh, hk.names, hk.indices, hk.peer, fun key dev r hr => ?_, hk.linkLocal⟩
  change k.routes.insert (d.netns, route.target) (id, route) key = _ at hr
  rw [KeyMap.insert_apply] at hr
  split at hr
  · next hkey =>
    obtain ⟨rfl, -⟩ := Prod.mk.inj (Option.some.inj hr)
    exact ⟨d, hd, (congrArg Prod.fst hkey).symm⟩
  · exact hk.routes key dev r hr

/-- Every operation leaves a network in order. -/
theorem Wf.call {β : Type} {op : InfraOp β} {r : β} (hk : k.Wf) (hcall : InfraOp.call _ op k r k') :
    k'.Wf := by
  have failed : ∀ {p : Prop}, k' = k ∨ p → (p → k'.Wf) → k'.Wf := fun h hp =>
    h.elim (fun hsame => hsame ▸ hk) hp
  cases op with
  | openPath path =>
    cases r with
    | ok _ =>
      obtain rfl : k' = k := hcall.2
      exact hk
    | error e =>
      obtain rfl : k' = k := hcall
      exact hk
  | deleteLinkInNs path name =>
    cases r with
    | ok _ => exact DeletesLink.wf hk hcall
    | error e =>
      cases e with
      | linkNotFound name =>
        obtain rfl : k' = k := hcall.2
        exact hk
      | other text => exact failed hcall (DeletesLink.wf hk)
  | generateRand =>
    obtain rfl : k' = k := hcall
    exact hk
  | createVeth spec =>
    cases r with
    | ok pair => exact CreatesVeth.wf hk hcall
    | error e => exact failed hcall fun ⟨host, peer, hcreates⟩ => CreatesVeth.wf hk hcreates
  | setNs link target =>
    cases r with
    | ok _ => exact MovesLink.wf hk hcall
    | error e => exact failed hcall (MovesLink.wf hk)
  | rename link name =>
    cases r with
    | ok _ => exact RenamesLink.wf hk hcall
    | error e => exact failed hcall (RenamesLink.wf hk)
  | setRpFilter link value =>
    cases r with
    | ok _ => exact SetsRpFilter.wf hk hcall
    | error e => exact failed hcall (SetsRpFilter.wf hk)
  | setMtu link mtu =>
    have hchange : k.Changes link ({ · with mtu := mtu }) k' → k'.Wf :=
      Changes.wf hk fun _ => ⟨rfl, rfl, rfl, rfl, rfl⟩
    cases r with
    | ok _ => exact hchange hcall
    | error e => exact failed hcall hchange
  | setUp link =>
    cases r with
    | ok _ => exact SetsUp.wf hk hcall
    | error e => exact failed hcall (SetsUp.wf hk)
  | addAddr link addr =>
    cases r with
    | ok _ => exact AddsAddr.wf hk hcall
    | error e => exact failed hcall (AddsAddr.wf hk)
  | addRoute link route =>
    cases r with
    | ok _ => exact AddsRoute.wf hk hcall
    | error e => exact failed hcall (AddsRoute.wf hk)

end NetKernel

end Sarena
