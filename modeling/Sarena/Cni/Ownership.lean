import Sarena.Cni.Kernel
import Sarena.Lib.Rely

namespace Sarena

open Lib

/-!
# CNI — whose devices are whose

Commands for different containers run at the same time, on one network.  Every device was made
for one of the containers, or belongs to the host.

* `OwnedNet`, `CniOp.wiresFor` — the network, with the containers that its devices are for;
* `OwnedNet.Order` — devices are in the namespaces of their containers, or in that of the host;
* `OwnedNet.Rely`, `OwnedNet.Guarantee` — what a command counts on, and what it leaves alone;
* `Guarantee.rely` — what one container's commands guarantee is what another's rely on;
* `guarantee_set`, `guarantee_unlink`, `guarantee_pair` — the effects of the operations.
-/

/-- The network, and the namespaces of the containers that devices were made for. -/
structure OwnedNet where
  net : NetKernel
  owner : Nat → Option Nat

/-- New devices are for the container, and the others are for whom they were. -/
abbrev OwnedNet.Labels (ns : Nat) (s t : OwnedNet) : Prop :=
  t.owner = fun id => if s.net.next ≤ id ∧ id < t.net.next then some ns else s.owner id

/-- The operations of a command for the container of a namespace. -/
def CniOp.wiresFor (ns : Nat) : Sem CniOp OwnedNet := fun β op s b t =>
  CniOp.wires β op s.net b t.net ∧ OwnedNet.Labels ns s t

namespace OwnedNet

/-- A network in order whose devices are where they belong.  The host has a loopback device. -/
structure Order (s : OwnedNet) : Prop where
  wf : s.net.Wf
  fresh : ∀ id, s.net.next ≤ id → s.owner id = none
  netns : ∀ id d, s.net.devices id = some d → d.netns ≠ 0 → s.owner id = some d.netns
  peer : ∀ id d id', s.net.devices id = some d → d.peer = some id' → s.owner id' = s.owner id
  loopback : ∃ id d, s.net.devices id = some d ∧ d.netns = 0 ∧ d.index = 1 ∧ s.owner id = none

/-- The others leave a container's devices and routes alone.  The kernel may give its devices
    link-local addresses. -/
structure Rely (ns : Nat) (s t : OwnedNet) : Prop where
  order : s.Order → t.Order
  paths : t.net.paths = s.net.paths
  devices : ∀ id, s.owner id = some ns → t.net.devices id = s.net.devices id
  owner : ∀ id, t.owner id = some ns ↔ s.owner id = some ns
  routes : ∀ dst, t.net.routes (ns, dst) = s.net.routes (ns, dst)

/-- The commands for a container change its devices and routes only, and the routes of the
    host. -/
structure Guarantee (ns : Nat) (s t : OwnedNet) : Prop where
  order : s.Order → t.Order
  paths : t.net.paths = s.net.paths
  devices : ∀ id, t.owner id ≠ some ns → t.net.devices id = s.net.devices id
  owner : ∀ id other, other ≠ ns → (t.owner id = some other ↔ s.owner id = some other)
  routes : ∀ key, key.1 ≠ ns → key.1 ≠ 0 → t.net.routes key = s.net.routes key

variable {s t u : OwnedNet} {ns : Nat}

theorem rely_refl (ns : Nat) (s : OwnedNet) : Rely ns s s where
  order h := h
  paths := rfl
  devices _ _ := rfl
  owner _ := Iff.rfl
  routes _ := rfl

theorem Rely.trans (h : Rely ns s t) (h' : Rely ns t u) : Rely ns s u where
  order hs := h'.order (h.order hs)
  paths := h'.paths.trans h.paths
  devices id hid := (h'.devices id ((h.owner id).mpr hid)).trans (h.devices id hid)
  owner id := (h'.owner id).trans (h.owner id)
  routes dst := (h'.routes dst).trans (h.routes dst)

theorem guarantee_refl (ns : Nat) (s : OwnedNet) : Guarantee ns s s where
  order h := h
  paths := rfl
  devices _ _ := rfl
  owner _ _ _ := Iff.rfl
  routes _ _ _ := rfl

/-- **Another container's commands** can rely on it. -/
theorem Guarantee.rely (h : Guarantee ns s t) {other : Nat} (hne : other ≠ ns) (hzero : other ≠ 0) :
    Rely other s t where
  order := h.order
  paths := h.paths
  devices id hid := h.devices id fun hown =>
    hne (Option.some.inj (((h.owner id other hne).mpr hid).symm.trans hown))
  owner id := h.owner id other hne
  routes dst := h.routes (other, dst) hne hzero

/-- What a container's devices are, the others leave. -/
theorem Rely.device (h : Rely ns s t) {id : Nat} {d : NetDevice} (hd : s.net.devices id = some d)
    (hown : s.owner id = some ns) : t.net.devices id = some d :=
  (h.devices id hown).trans hd

/-- No device comes into a container's namespace from the others. -/
theorem Rely.of_netns (h : Rely ns s t) (ht : t.Order) (hzero : ns ≠ 0) {id : Nat} {d : NetDevice}
    (hd : t.net.devices id = some d) (hns : d.netns = ns) : s.net.devices id = some d := by
  have hown : t.owner id = some ns := hns ▸ ht.netns id d hd (hns.symm ▸ hzero)
  exact (h.devices id ((h.owner id).mp hown)).symm.trans hd

/-! ### The effects of the operations -/

variable {id : Nat} {d d' : NetDevice}

/-- A device of the container is in its namespace, or in that of the host. -/
theorem Order.netns_cases (hs : s.Order) (hd : s.net.devices id = some d)
    (hown : s.owner id = some ns) : d.netns = 0 ∨ d.netns = ns := by
  by_cases hzero : d.netns = 0
  · exact .inl hzero
  · exact .inr (Option.some.inj ((hs.netns id d hd hzero).symm.trans hown))

/-- One of the container's devices is changed, and the kernel may give it addresses. -/
theorem guarantee_set (hd : s.net.devices id = some d) (hown : s.owner id = some ns)
    (hpeer : d'.peer = d.peer) (hns : d'.netns = 0 ∨ d'.netns = ns)
    {own : Nat → List InterfaceAddress} {routes : KeyMap (Nat × IpNet) (Nat × Route)}
    (hroutes : ∀ key, key.1 ≠ ns → key.1 ≠ 0 → routes key = s.net.routes key)
    (hwf : s.net.Wf →
      ({ s.net.setDevice id d' with linkLocal := own, routes := routes } : NetKernel).Wf) :
    Guarantee ns s ⟨{ s.net.setDevice id d' with linkLocal := own, routes := routes }, s.owner⟩
    where
  order hs := by
    refine ⟨hwf hs.wf, hs.fresh, fun i d₁ h₁ hzero => ?_, fun i d₁ i' h₁ hpeer₁ => ?_, ?_⟩
    · change (s.net.setDevice id d').devices i = some d₁ at h₁
      rw [NetKernel.setDevice_devices] at h₁
      split at h₁
      · next hi =>
        obtain rfl := Option.some.inj h₁
        have hsame : s.owner i = some ns := hi ▸ hown
        exact hsame.trans (congrArg some (hns.resolve_left hzero).symm)
      · exact hs.netns i d₁ h₁ hzero
    · change (s.net.setDevice id d').devices i = some d₁ at h₁
      rw [NetKernel.setDevice_devices] at h₁
      split at h₁
      · next hi =>
        obtain rfl := Option.some.inj h₁
        exact hs.peer i d i' (hi ▸ hd) (hpeer.symm.trans hpeer₁)
      · exact hs.peer i d₁ i' h₁ hpeer₁
    · obtain ⟨lo, l, hl, hlns, hlindex, hlown⟩ := hs.loopback
      refine ⟨lo, l, ?_, hlns, hlindex, hlown⟩
      show (s.net.setDevice id d').devices lo = some l
      rw [NetKernel.setDevice_devices, if_neg]
      · exact hl
      · rintro rfl
        cases hlown.symm.trans hown
  paths := rfl
  devices i hi := by
    show (s.net.setDevice id d').devices i = _
    rw [NetKernel.setDevice_devices, if_neg]
    rintro rfl
    exact hi hown
  owner _ _ _ := Iff.rfl
  routes := hroutes

/-- A device in the container's namespace is deleted, with its other end. -/
theorem guarantee_unlink (hs : s.Order) (hd : s.net.devices id = some d) (hdns : d.netns = ns)
    (hzero : ns ≠ 0) : Guarantee ns s ⟨s.net.unlink (id :: d.peer.toList), s.owner⟩ := by
  have hown : ∀ i, i ∈ id :: d.peer.toList → s.owner i = some ns := by
    intro i hi
    have hid : s.owner id = some ns := hdns ▸ hs.netns id d hd (hdns.symm ▸ hzero)
    rcases List.mem_cons.mp hi with rfl | hi
    · exact hid
    · exact (hs.peer id d i hd (Option.mem_toList.mp hi)).trans hid
  refine ⟨fun _ => ⟨hs.wf.unlink hd, hs.fresh, fun i d₁ h₁ => ?_, fun i d₁ i' h₁ => ?_, ?_⟩, rfl,
    fun i hi => ?_, fun _ _ _ => Iff.rfl, fun key hkey hkey₀ => ?_⟩
  · exact hs.netns i d₁ (NetKernel.unlink_devices.mp h₁).1
  · exact hs.peer i d₁ i' (NetKernel.unlink_devices.mp h₁).1
  · obtain ⟨lo, l, hl, hlns, hlindex, hlown⟩ := hs.loopback
    refine ⟨lo, l, NetKernel.unlink_devices.mpr ⟨hl, fun hmem => ?_⟩, hlns, hlindex, hlown⟩
    cases hlown.symm.trans (hown lo hmem)
  · refine Option.ext fun d₁ => ?_
    exact NetKernel.unlink_devices.trans (and_iff_left fun hmem => hi (hown i hmem))
  · refine Option.ext fun r => ?_
    refine NetKernel.unlink_routes.trans (and_iff_left_of_imp fun hr hmem => ?_)
    -- A route of another namespace leads to a device there.
    obtain ⟨d₁, h₁, hns⟩ := hs.wf.routes key r.1 r.2 hr
    rcases hs.netns_cases h₁ (hown r.1 hmem) with hzero | hsame
    · exact hkey₀ (hns.symm.trans hzero)
    · exact hkey (hns.symm.trans hsame)

/-- A pair is created for the container. -/
theorem guarantee_pair {spec : VethSpec} {host peer : NetlinkLink}
    (hcreates : s.net.CreatesVeth spec host peer t.net) (howner : Labels ns s t) (hs : s.Order) :
    Guarantee ns s t := by
  have hwf := NetKernel.CreatesVeth.wf hs.wf hcreates
  obtain ⟨h, c, -, -, -, -, hh, hc, -, -, hnet⟩ := hcreates
  rw [hnet] at hwf
  have hnew : ∀ i, s.net.next ≤ i → i < s.net.next + 2 → t.owner i = some ns := by
    intro i hi hlt
    rw [howner, hnet]
    exact if_pos ⟨hi, hlt⟩
  have hold : ∀ i, i < s.net.next → t.owner i = s.owner i := by
    intro i hi
    rw [howner]
    exact if_neg fun hlt => absurd hlt.1 (by omega)
  have hdevices : ∀ i d, t.net.devices i = some d →
      d = c ∧ i = s.net.next + 1 ∨ d = h ∧ i = s.net.next ∨ s.net.devices i = some d := by
    intro i d hd
    rw [hnet, NetKernel.withPair_devices] at hd
    split at hd
    · next hi => exact .inl ⟨(Option.some.inj hd).symm, hi⟩
    split at hd
    · next hi => exact .inr (.inl ⟨(Option.some.inj hd).symm, hi⟩)
    · exact .inr (.inr hd)
  have hkept : ∀ i d, s.net.devices i = some d → t.net.devices i = some d := by
    intro i d hd
    have hlt := hs.wf.lt_next hd
    rw [hnet, NetKernel.withPair_devices, if_neg (by omega), if_neg (by omega)]
    exact hd
  refine ⟨fun _ => ⟨hnet ▸ hwf, fun i hi => ?_, fun i d hd hzero => ?_, fun i d i' hd hpeer => ?_,
    ?_⟩, ?_, fun i hi => ?_, fun i other hne => ?_, fun key _ _ => ?_⟩
  · rw [hnet] at hi
    have hi : s.net.next + 2 ≤ i := hi
    rw [howner, hnet]
    refine (if_neg fun hlt => absurd hlt.2 (Nat.not_lt.mpr hi)).trans (hs.fresh i (by omega))
  · rcases hdevices i d hd with ⟨rfl, -⟩ | ⟨rfl, -⟩ | hd
    · exact absurd hc.netns hzero
    · exact absurd hh.netns hzero
    · rw [hold i (hs.wf.lt_next hd)]
      exact hs.netns i d hd hzero
  · rcases hdevices i d hd with ⟨rfl, rfl⟩ | ⟨rfl, rfl⟩ | hd
    -- Either end of the new pair is for the container, and so is its peer.
    · obtain rfl := Option.some.inj (hc.peer.symm.trans hpeer)
      rw [hnew _ (by omega) (by omega), hnew _ (by omega) (by omega)]
    · obtain rfl := Option.some.inj (hh.peer.symm.trans hpeer)
      rw [hnew _ (by omega) (by omega), hnew _ (by omega) (by omega)]
    · obtain ⟨d₂, h₂, -⟩ := hs.wf.peer i d i' hd hpeer
      rw [hold i (hs.wf.lt_next hd), hold i' (hs.wf.lt_next h₂)]
      exact hs.peer i d i' hd hpeer
  · obtain ⟨lo, l, hl, hlns, hlindex, hlown⟩ := hs.loopback
    exact ⟨lo, l, hkept lo l hl, hlns, hlindex, (hold lo (hs.wf.lt_next hl)).trans hlown⟩
  · rw [hnet]
    rfl
  · have hi' : ¬ (s.net.next ≤ i ∧ i < s.net.next + 2) := fun hlt => hi (hnew i hlt.1 hlt.2)
    rw [hnet, NetKernel.withPair_devices, if_neg (by omega), if_neg (by omega)]
  · rw [howner, hnet]
    show (if s.net.next ≤ i ∧ i < s.net.next + 2 then some ns else s.owner i) = some other ↔ _
    split
    · next hlt =>
      -- No device has been made under the new numbers, so none was another container's.
      rw [hs.fresh i hlt.1]
      exact ⟨fun h => absurd (Option.some.inj h).symm hne, fun h => by cases h⟩
    · exact Iff.rfl
  · rw [hnet]
    rfl

end OwnedNet

end Sarena
