import Sarena.Cni.Conservation
import Sarena.Cni.Wiring
import Sarena.Lib.Run

namespace Sarena

open Lib

/-!
# CNI — many containers on one host

The runtime starts commands for its containers, for each of them one at a time.  All commands
work on one network, operation by operation and in any order; they fail anywhere, or are cut off.

* `CniHost`, `CniHost.Step` — the network, the commands on their way and the results of ADD;
* `CniHost.InPlace` — what holds of a container in every state of a run;
* `exists_run_of_exec` — what a command can do alone it can do in a run;
* `pods_stay_wired` — a container that was added stays wired as its result says until its next
  command, and no step of another container's command changes what is its own;
* `endpoints_told_as_wired` — the daemon is told of endpoints as the network has them;
* `stuck_pods_stay_out` — a pair that was left on its way stays, and no ADD succeeds beside it.
-/

/-- A command of the runtime. -/
inductive CniCommand
  | add (args : CniArgs) (spec : ArgsSpec)
  | del (args : CniArgs)

/-- A command on its way; ADD ends with a result. -/
abbrev CniJob := Prog CniOp (Except CniError (Option CniResult))

namespace CniCommand

def args : CniCommand → CniArgs
  | .add args _ => args
  | .del args => args

def job (plugin : CniPlugin) : CniCommand → CniJob
  | .add args spec => ExceptT.run do return some (← plugin.add args spec)
  | .del args => ExceptT.run do
    plugin.del args
    return none

end CniCommand

/-- The network, the commands that are on their way, and the results of ADD since which there
    was no command. -/
structure CniHost (ι : Type) where
  net : OwnedNet
  jobs : KeyMap ι CniJob
  added : KeyMap ι CniResult

namespace CniHost

variable {ι : Type}

/-- No command has been started. -/
def start (net : OwnedNet) : CniHost ι := ⟨net, .empty, .empty⟩

section

variable [DecidableEq ι]

/-- A step, with the container whose command it is of.  Besides the commands there is the rest
    of the host, the kernel with its own addresses included, which leaves the containers alone. -/
inductive Step (plugin : CniPlugin) (pods : ι → Pod) : CniHost ι → Option ι → CniHost ι → Prop
  | start (s : CniHost ι) (i : ι) (command : CniCommand) (hjob : s.jobs i = none)
      (hargs : CniPlugin.Passed (pods i) command.args) :
      Step plugin pods s (some i) { s with
        jobs := s.jobs.insert i (command.job plugin)
        added := s.added.remove i }
  | op (s : CniHost ι) (i : ι) (β : Type) (e : CniOp β) (k : β → CniJob) (b : β) (net : OwnedNet)
      (hjob : s.jobs i = some (.op e k)) (hop : CniOp.wiresFor (pods i).ns β e s.net b net) :
      Step plugin pods s (some i) { s with net := net, jobs := s.jobs.insert i (k b) }
  | added (s : CniHost ι) (i : ι) (result : CniResult)
      (hjob : s.jobs i = some (.pure (.ok (some result)))) :
      Step plugin pods s (some i) { s with
        jobs := s.jobs.remove i
        added := s.added.insert i result }
  | done (s : CniHost ι) (i : ι) (r : Except CniError (Option CniResult))
      (hjob : s.jobs i = some (.pure r)) (hr : ∀ result, r ≠ .ok (some result)) :
      Step plugin pods s (some i) { s with jobs := s.jobs.remove i }
  | cut (s : CniHost ι) (i : ι) : Step plugin pods s (some i) { s with jobs := s.jobs.remove i }
  | host (s : CniHost ι) (net : OwnedNet)
      (hnet : ∀ i, OwnedNet.Rely (pods i).ns s.net net) :
      Step plugin pods s none { s with net := net }

end

/-! ### One container -/

/-- What a command leaves behind when it ends. -/
def Ended (plugin : CniPlugin) (pod : Pod) (r : Except CniError (Option CniResult))
    (s : OwnedNet) : Prop :=
  pod.Idle plugin s ∧
    ∀ result, r = .ok (some result) → ¬ pod.Stuck plugin s ∧ pod.Wired result s.net

/-- What holds of a container, its command and its result. -/
structure InPlace (plugin : CniPlugin) (pod : Pod) (job : Option CniJob) (added : Option CniResult)
    (s : OwnedNet) : Prop where
  idle : job = none → pod.Idle plugin s
  wired : ∀ result, added = some result →
    job = none ∧ ¬ pod.Stuck plugin s ∧ pod.Wired result s.net
  runs : ∀ p, job = some p →
    CniPlugin.Running plugin pod (pod.Idle plugin) (Ended plugin pod) p s

/-- It holds of all containers. -/
def AllInPlace (plugin : CniPlugin) (pods : ι → Pod) (h : CniHost ι) : Prop :=
  ∀ i, InPlace plugin (pods i) (h.jobs i) (h.added i) h.net

variable {plugin : CniPlugin} {pod : Pod} {s t : OwnedNet}

theorem allInPlace_start {pods : ι → Pod} {net : OwnedNet} (hnet : ∀ i, (pods i).Idle plugin net) :
    AllInPlace plugin pods (start net) := fun i =>
  ⟨fun _ => hnet i, fun _ h => (by cases h), fun _ h => (by cases h)⟩

theorem ended_lasting (r : Except CniError (Option CniResult)) :
    Lasting (OwnedNet.Rely pod.ns) (Ended plugin pod r) := by
  intro s t hR ⟨hs, hresult⟩
  refine ⟨Pod.idle_lasting s t hR hs, fun result hr => ?_⟩
  exact (Pod.wired_lasting s t hR ⟨hs, hresult result hr⟩).2

theorem InPlace.rely {job : Option CniJob} {added : Option CniResult}
    (h : InPlace plugin pod job added s) (hR : OwnedNet.Rely pod.ns s t) :
    InPlace plugin pod job added t where
  idle hjob := Pod.idle_lasting s t hR (h.idle hjob)
  wired result hadded := by
    obtain ⟨hjob, hwired⟩ := h.wired result hadded
    exact ⟨hjob, (Pod.wired_lasting s t hR ⟨h.idle hjob, hwired⟩).2⟩
  runs p hjob := (h.runs p hjob).rely (fun _ _ _ h h' => h.trans h') hR

theorem InPlace.now {job : Option CniJob} {added : Option CniResult}
    (h : InPlace plugin pod job added s) : pod.Idle plugin s := by
  cases job with
  | none => exact h.idle rfl
  | some p => exact (h.runs p rfl).inv CniPlugin.Allowed.inv ended_lasting fun _ _ h => h.1

/-- A command of either kind. -/
theorem job_obeys (hs : pod.Idle plugin s) {command : CniCommand}
    (hargs : CniPlugin.Passed pod command.args) :
    CniPlugin.Obeys plugin pod (pod.Idle plugin) (Ended plugin pod) (command.job plugin) s := by
  cases command with
  | add args spec =>
    have hadd : CniPlugin.Obeys plugin pod (pod.Idle plugin)
        (Prog.orError (fun r t => Ended plugin pod (.ok r) t) fun _ t => pod.Idle plugin t)
        (CniCommand.job plugin (.add args spec)) s := by
      refine Prog.guards_try _ (CniPlugin.add_obeys hs hargs spec) fun result t ht => ?_
      refine ⟨ht.1, fun result' hr => ?_⟩
      obtain rfl : result = result' := Option.some.inj (Except.ok.inj hr)
      exact ht.2
    refine hadd.imp fun r t ht => ?_
    cases r with
    | ok _ => exact ht
    | error e => exact ⟨ht, fun result hr => by cases hr⟩
  | del args =>
    have hdel : CniPlugin.Obeys plugin pod (pod.Idle plugin)
        (Prog.orError (fun r t => r = none ∧ pod.Idle plugin t) fun _ t => pod.Idle plugin t)
        (CniCommand.job plugin (.del args)) s := by
      refine Prog.guards_try _ (CniPlugin.del_rule Pod.idle_lasting hs (fun _ h => h)
        (fun _ _ hu hcall howner => hu.deletes hcall howner) hargs) fun _ t ht => ⟨rfl, ht⟩
    refine hdel.imp fun r t ht => ?_
    cases r with
    | ok r =>
      obtain ⟨rfl, ht⟩ := ht
      exact ⟨ht, fun result hr => by cases hr⟩
    | error e => exact ⟨ht, fun result hr => by cases hr⟩

/-! ### Runs -/

section

variable [DecidableEq ι] {pods : ι → Pod} {h h' : CniHost ι}

/-- **Step.** What is another container's stays as it is. -/
theorem Step.isolated (hpods : Function.Injective fun i => (pods i).ns)
    (hkept : AllInPlace plugin pods h) {label : Option ι}
    (hstep : Step plugin pods h label h') {i : ι} (hi : label ≠ some i) :
    OwnedNet.Rely (pods i).ns h.net h'.net ∧ h'.jobs i = h.jobs i ∧ h'.added i = h.added i := by
  cases hstep with
  | start j command hjob hargs =>
    have hij : i ≠ j := fun h => hi (congrArg some h.symm)
    exact ⟨OwnedNet.rely_refl _ _, KeyMap.insert_of_ne _ _ hij, KeyMap.remove_of_ne _ hij⟩
  | op j β e k b net hjob hop =>
    have hij : i ≠ j := fun h => hi (congrArg some h.symm)
    have hg := (((hkept j).runs _ hjob).step (OwnedNet.rely_refl _) hop).1
    exact ⟨hg.rely (fun hns => hij (hpods hns)) (pods i).own, KeyMap.insert_of_ne _ _ hij, rfl⟩
  | added j result hjob =>
    have hij : i ≠ j := fun h => hi (congrArg some h.symm)
    exact ⟨OwnedNet.rely_refl _ _, KeyMap.remove_of_ne _ hij, KeyMap.insert_of_ne _ _ hij⟩
  | done j r hjob hr =>
    have hij : i ≠ j := fun h => hi (congrArg some h.symm)
    exact ⟨OwnedNet.rely_refl _ _, KeyMap.remove_of_ne _ hij, rfl⟩
  | cut j =>
    have hij : i ≠ j := fun h => hi (congrArg some h.symm)
    exact ⟨OwnedNet.rely_refl _ _, KeyMap.remove_of_ne _ hij, rfl⟩
  | host net hnet => exact ⟨hnet i, rfl, rfl⟩

/-- **Step** of a container's own command. -/
theorem Step.own {i : ι} (hkept : InPlace plugin (pods i) (h.jobs i) (h.added i) h.net)
    (hstep : Step plugin pods h (some i) h') :
    InPlace plugin (pods i) (h'.jobs i) (h'.added i) h'.net := by
  cases hstep with
  | start _ command hjob hargs =>
    have hruns := (job_obeys (hkept.idle hjob) hargs).runs (OwnedNet.rely_refl _)
    refine ⟨fun hnone => ?_, fun result hadded => ?_, fun p hp => ?_⟩
    · cases (KeyMap.insert_self h.jobs i _).symm.trans hnone
    · cases (KeyMap.remove_self h.added i).symm.trans hadded
    · obtain rfl := Option.some.inj ((KeyMap.insert_self h.jobs i _).symm.trans hp)
      exact hruns
  | op _ β e k b net hjob hop =>
    have hruns := ((hkept.runs _ hjob).step (OwnedNet.rely_refl _) hop).2
    refine ⟨fun hnone => ?_, fun result hadded => ?_, fun p hp => ?_⟩
    · cases (KeyMap.insert_self h.jobs i _).symm.trans hnone
    · cases hjob.symm.trans (hkept.wired result hadded).1
    · obtain rfl := Option.some.inj ((KeyMap.insert_self h.jobs i _).symm.trans hp)
      exact hruns
  | added _ result hjob =>
    obtain ⟨hidle, hwired⟩ := (hkept.runs _ hjob).done ended_lasting
    refine ⟨fun _ => hidle, fun result' hadded => ⟨KeyMap.remove_self _ _, ?_⟩, fun p hp => ?_⟩
    · obtain rfl := Option.some.inj ((KeyMap.insert_self h.added i _).symm.trans hadded)
      exact hwired result rfl
    · cases (KeyMap.remove_self h.jobs i).symm.trans hp
  | done _ r hjob hr =>
    obtain ⟨hidle, -⟩ := (hkept.runs _ hjob).done ended_lasting
    refine ⟨fun _ => hidle, fun result hadded => ?_, fun p hp => ?_⟩
    · cases hjob.symm.trans (hkept.wired result hadded).1
    · cases (KeyMap.remove_self h.jobs i).symm.trans hp
  | cut _ =>
    refine ⟨fun _ => hkept.now, fun result hadded => ⟨KeyMap.remove_self _ _, ?_⟩, fun p hp => ?_⟩
    · exact (hkept.wired result hadded).2
    · cases (KeyMap.remove_self h.jobs i).symm.trans hp

theorem allInPlace_step (hpods : Function.Injective fun i => (pods i).ns) (h : CniHost ι)
    (label : Option ι) (h' : CniHost ι) (hstep : Step plugin pods h label h')
    (hkept : AllInPlace plugin pods h) : AllInPlace plugin pods h' := by
  intro i
  by_cases hi : label = some i
  · subst hi
    exact hstep.own (hkept i)
  · obtain ⟨hR, hjob, hadded⟩ := hstep.isolated hpods hkept hi
    rw [hjob, hadded]
    exact (hkept i).rely hR

end

/-! ### A pair that was left on its way -/

/-- The container's pair stands in the way. -/
def Blocked (plugin : CniPlugin) (pod : Pod) (s : OwnedNet) : Prop :=
  pod.Idle plugin s ∧ pod.Stuck plugin s

/-- No command ends with a result. -/
def EndedBlocked (plugin : CniPlugin) (pod : Pod) (r : Except CniError (Option CniResult))
    (s : OwnedNet) : Prop :=
  Blocked plugin pod s ∧ ∀ result, r ≠ .ok (some result)

/-- What holds of a container once its pair stands in the way. -/
structure BlockedInPlace (plugin : CniPlugin) (pod : Pod) (job : Option CniJob)
    (added : Option CniResult) (s : OwnedNet) : Prop where
  blocked : Blocked plugin pod s
  added : added = none
  runs : ∀ p, job = some p →
    CniPlugin.Running plugin pod (Blocked plugin pod) (EndedBlocked plugin pod) p s

theorem endedBlocked_lasting (r : Except CniError (Option CniResult)) :
    Lasting (OwnedNet.Rely pod.ns) (EndedBlocked plugin pod r) := by
  intro s t hR ⟨hs, hr⟩
  exact ⟨CniPlugin.stuck_lasting s t hR hs, hr⟩

theorem job_obeys_blocked (hs : Blocked plugin pod s) {command : CniCommand}
    (hargs : CniPlugin.Passed pod command.args) :
    CniPlugin.Obeys plugin pod (Blocked plugin pod) (EndedBlocked plugin pod)
      (command.job plugin) s := by
  cases command with
  | add args spec =>
    have hadd : CniPlugin.Obeys plugin pod (Blocked plugin pod)
        (Prog.orError (fun _ _ => False) fun _ t => Blocked plugin pod t)
        (CniCommand.job plugin (.add args spec)) s :=
      Prog.guards_try _ (CniPlugin.add_stuck hs hargs spec) fun _ _ h => h.elim
    refine hadd.imp fun r t ht => ?_
    cases r with
    | ok _ => exact ht.elim
    | error e => exact ⟨ht, fun result hr => by cases hr⟩
  | del args =>
    have hdel : CniPlugin.Obeys plugin pod (Blocked plugin pod)
        (Prog.orError (fun r t => r = none ∧ Blocked plugin pod t) fun _ t => Blocked plugin pod t)
        (CniCommand.job plugin (.del args)) s := by
      refine Prog.guards_try _ (CniPlugin.del_rule CniPlugin.stuck_lasting hs (fun _ h => h.1)
        (fun u t hu hcall howner => ?_) hargs) fun _ t ht => ⟨rfl, ht⟩
      obtain ⟨ht, hfree, hg⟩ := hu.1.deletes hcall howner
      exact ⟨⟨ht, hu.2.deletes hu.1 hcall howner⟩, hfree, hg⟩
    refine hdel.imp fun r t ht => ?_
    cases r with
    | ok r =>
      obtain ⟨rfl, ht⟩ := ht
      exact ⟨ht, fun result hr => by cases hr⟩
    | error e => exact ⟨ht, fun result hr => by cases hr⟩

section

variable [DecidableEq ι] {pods : ι → Pod} {h h' : CniHost ι}

/-- **Step** of the container's own command. -/
theorem Step.own_blocked {i : ι}
    (hkept : BlockedInPlace plugin (pods i) (h.jobs i) (h.added i) h.net)
    (hstep : Step plugin pods h (some i) h') :
    BlockedInPlace plugin (pods i) (h'.jobs i) (h'.added i) h'.net := by
  cases hstep with
  | start _ command hjob hargs =>
    have hruns := (job_obeys_blocked hkept.blocked hargs).runs (OwnedNet.rely_refl _)
    refine ⟨hkept.blocked, KeyMap.remove_self _ _, fun p hp => ?_⟩
    obtain rfl := Option.some.inj ((KeyMap.insert_self h.jobs i _).symm.trans hp)
    exact hruns
  | op _ β e k b net hjob hop =>
    have hruns := ((hkept.runs _ hjob).step (OwnedNet.rely_refl _) hop).2
    have hblocked := hruns.inv CniPlugin.Allowed.inv endedBlocked_lasting fun _ _ h => h.1
    refine ⟨hblocked, hkept.added, fun p hp => ?_⟩
    obtain rfl := Option.some.inj ((KeyMap.insert_self h.jobs i _).symm.trans hp)
    exact hruns
  | added _ result hjob =>
    exact absurd rfl (((hkept.runs _ hjob).done endedBlocked_lasting).2 result)
  | done _ r hjob hr =>
    refine ⟨hkept.blocked, hkept.added, fun p hp => ?_⟩
    cases (KeyMap.remove_self h.jobs i).symm.trans hp
  | cut _ =>
    refine ⟨hkept.blocked, hkept.added, fun p hp => ?_⟩
    cases (KeyMap.remove_self h.jobs i).symm.trans hp

theorem blocked_step (hpods : Function.Injective fun i => (pods i).ns) {label : Option ι}
    (hstep : Step plugin pods h label h')
    (hall : AllInPlace plugin pods h) {i : ι}
    (hkept : BlockedInPlace plugin (pods i) (h.jobs i) (h.added i) h.net) :
    BlockedInPlace plugin (pods i) (h'.jobs i) (h'.added i) h'.net := by
  by_cases hi : label = some i
  · subst hi
    exact hstep.own_blocked hkept
  · obtain ⟨hR, hjob, hadded⟩ := hstep.isolated hpods hall hi
    rw [hjob, hadded]
    exact ⟨CniPlugin.stuck_lasting _ _ hR hkept.blocked, hkept.added,
      fun p hp => (hkept.runs p hp).rely (fun _ _ _ h h' => h.trans h') hR⟩

end

/-! ### The host -/

section

variable [DecidableEq ι]

/-- A command can be executed while the others wait. -/
theorem exists_run_of_exec (plugin : CniPlugin) (pods : ι → Pod) (i : ι) {p q : CniJob}
    {k k' : NetKernel} {tr : List (Answered CniOp)} (hx : Exec CniOp.wires p k tr q k') :
    ∀ s : CniHost ι, s.net.net = k → s.jobs i = some p →
      ∃ t, Nonempty (Run (Step plugin pods) s t) ∧ t.net.net = k' ∧ t.jobs i = some q ∧
        ∀ j, j ≠ i → t.jobs j = s.jobs j := by
  induction hx with
  | refl p k => exact fun s hk hp => ⟨s, ⟨.nil⟩, hk, hp, fun _ _ => rfl⟩
  | step e rest k b k' tr q u hcall _ ih =>
    intro s hk hp
    -- The devices that the operation makes are for the container.
    let net : OwnedNet :=
      ⟨k', fun id => if s.net.net.next ≤ id ∧ id < k'.next then some (pods i).ns
        else s.net.owner id⟩
    have hop : CniOp.wiresFor (pods i).ns _ e s.net b net := ⟨hk ▸ hcall, rfl⟩
    let next : CniHost ι := { s with net := net, jobs := s.jobs.insert i (rest b) }
    obtain ⟨t, ⟨run⟩, hnet, hjob, hothers⟩ := ih next rfl (KeyMap.insert_self _ _ _)
    refine ⟨t, ⟨(Run.nil.snoc _ _ _ (.op s i _ e rest b net hp hop)).append run⟩, hnet, hjob, ?_⟩
    exact fun j hj => (hothers j hj).trans (KeyMap.insert_of_ne _ _ hj)

/-- **Isolation.** Whatever commands run, beside each other and with any failures, a container
    that was added is wired as its result says until its next command starts, and no step but
    those of its own commands changes its devices, their addresses or its routes. -/
theorem pods_stay_wired (plugin : CniPlugin) (pods : ι → Pod)
    (hpods : Function.Injective fun i => (pods i).ns) (net : OwnedNet)
    (hnet : ∀ i, (pods i).Idle plugin net) (h : CniHost ι)
    (run : Run (Step plugin pods) (start net) h) :
    run.Always (fun s => ∀ i result, s.added i = some result →
      (pods i).Wired result s.net.net) ∧
    run.EachStep fun s label t => ∀ i, label ≠ some i → OwnedNet.Rely (pods i).ns s.net t.net := by
  constructor
  · refine (run.always_of_invariant (allInPlace_start hnet) (allInPlace_step hpods)).mono
      fun s hkept i result hadded => ?_
    exact ((hkept i).wired result hadded).2.2
  · refine run.eachStep_of_invariant (allInPlace_start hnet) (allInPlace_step hpods)
      fun s label t hstep hkept i hi => ?_
    exact (hstep.isolated hpods hkept hi).1

end

section

variable [DecidableEq ι]

/-- **What the daemon is told.** Whatever commands run beside each other, an endpoint that a
    command is about to register is its own container's, and is as the network has it then: the
    pair, the names, the MAC addresses and the addresses. -/
theorem endpoints_told_as_wired (plugin : CniPlugin) (pods : ι → Pod)
    (hpods : Function.Injective fun i => (pods i).ns) (net : OwnedNet)
    (hnet : ∀ i, (pods i).Idle plugin net) (h : CniHost ι)
    (run : Run (Step plugin pods) (start net) h) :
    run.Always fun s => ∀ i attachment ep k,
      s.jobs i = some (.op (.inl (.send (.createEndpoint attachment ep))) k) →
      attachment = attachmentId (pods i).containerId (pods i).ifname ∧
        (pods i).Registered plugin.text ep s.net.net := by
  refine (run.always_of_invariant (allInPlace_start hnet) (allInPlace_step hpods)).mono
    fun s hkept i attachment ep k hjob => ?_
  have hallowed : CniPlugin.Allowed plugin (pods i) ((pods i).Idle plugin) _
      (.inl (.send (.createEndpoint attachment ep))) s.net := ((hkept i).runs _ hjob).allowed
  exact hallowed.2

end

/-! ### Two containers -/

/-- The loopback device. -/
def loopback : NetDevice := ⟨"lo", 0, 1, .ofBytes 0 0 0 0 0 0, none, true, 65536, 0, []⟩

/-- A host with two containers, and nothing but its loopback device. -/
def bootNet : OwnedNet where
  net := {
    paths := fun path =>
      if path = "/run/netns/pod" then some 1 else if path = "/run/netns/db" then some 2 else none
    devices := KeyMap.empty.insert 0 loopback
    linkLocal := fun _ => []
    routes := .empty
    next := 1 }
  owner _ := none

/-- The containers of the host. -/
def bootPods : Bool → Pod
  | true => ⟨1, by decide, "container", "/run/netns/pod", "eth0"⟩
  | false => ⟨2, by decide, "database", "/run/netns/db", "eth0"⟩

theorem bootNet_devices {id : Nat} {d : NetDevice} (hd : bootNet.net.devices id = some d) :
    id = 0 ∧ d = loopback := by
  change KeyMap.empty.insert 0 _ id = some d at hd
  rw [KeyMap.insert_apply] at hd
  split at hd
  · next hid => exact ⟨hid, (Option.some.inj hd).symm⟩
  · cases hd

theorem bootNet_order : bootNet.Order where
  wf := {
    fresh := fun id hid => by
      rw [Option.eq_none_iff_forall_ne_some]
      intro d hd
      obtain ⟨rfl, -⟩ := bootNet_devices hd
      cases hid
    names := fun id d id' d' hd hd' _ _ => (bootNet_devices hd).1.trans (bootNet_devices hd').1.symm
    indices := fun id d id' d' hd hd' _ _ =>
      (bootNet_devices hd).1.trans (bootNet_devices hd').1.symm
    peer := fun id d id' hd hpeer => by
      obtain ⟨-, rfl⟩ := bootNet_devices hd
      cases hpeer
    routes := fun _ _ _ h => by cases h
    linkLocal := fun _ _ h => by cases h }
  fresh _ _ := rfl
  netns id d hd hns := by
    obtain ⟨-, rfl⟩ := bootNet_devices hd
    exact absurd rfl hns
  peer id d id' hd hpeer := by
    obtain ⟨-, rfl⟩ := bootNet_devices hd
    cases hpeer
  loopback := ⟨0, CniHost.loopback, rfl, rfl, rfl, rfl⟩

theorem bootNet_idle (i : Bool) : (bootPods i).Idle CniSystem.cniPlugin bootNet where
  order := bootNet_order
  path := by
    cases i with
    | true => rfl
    | false => rfl
  left := .inl fun id d hd hns _ => by
    obtain ⟨-, rfl⟩ := bootNet_devices hd
    rfl

theorem bootPods_injective : Function.Injective fun i => (bootPods i).ns := by
  intro i j hij
  cases i with
  | true =>
    cases j with
    | true => rfl
    | false => cases hij
  | false =>
    cases j with
    | true => cases hij
    | false => rfl

section

open CniSystem CniCall CniPlugin ApiClient

theorem bootNet_freeName {name : String} (hname : name ≠ "lo") : bootNet.net.FreeName 0 name := by
  intro id d hd _ hdname
  obtain ⟨-, rfl⟩ := bootNet_devices hd
  exact hname hdname.symm

theorem bootNet_freeIndex {index : UInt32} (hindex : index ≠ 1) :
    bootNet.net.FreeIndex 0 index := by
  intro id d hd _ hdindex
  obtain ⟨-, rfl⟩ := bootNet_devices hd
  exact hindex hdindex.symm

/-- The first container's pair beside the loopback device. -/
def withDevices (h c : NetDevice) (own : Nat → List InterfaceAddress)
    (routes : KeyMap (Nat × IpNet) (Nat × Route)) : NetKernel :=
  { bootNet.net.withPair h c with linkLocal := own, routes := routes }

/-- Devices that the kernel has given no addresses. -/
def noneOwn : Nat → List InterfaceAddress := fun _ => []

/-- The container's end with an address of the kernel's. -/
def podOwn : Nat → List InterfaceAddress :=
  Function.update noneOwn 2 [.v6 (0xfe80 <<< 112 ||| 1) 64]

variable {h c : NetDevice} {own : Nat → List InterfaceAddress}
  {routes : KeyMap (Nat × IpNet) (Nat × Route)}

theorem setDevice_host (h' : NetDevice) :
    (withDevices h c own routes).setDevice 1 h' = withDevices h' c own routes := by
  have hdevices : (withDevices h c own routes).devices.insert 1 h' =
      (withDevices h' c own routes).devices := by
    change ((bootNet.net.devices.insert 1 h).insert 2 c).insert 1 h' =
      (bootNet.net.devices.insert 1 h').insert 2 c
    funext id
    rw [KeyMap.insert_apply, KeyMap.insert_apply, KeyMap.insert_apply, KeyMap.insert_apply,
      KeyMap.insert_apply]
    split
    · next hid => rw [hid, if_neg (by decide)]
    · rfl
  exact congrArg (fun devices => { withDevices h c own routes with devices := devices }) hdevices

theorem setDevice_pod (c' : NetDevice) :
    (withDevices h c own routes).setDevice 2 c' = withDevices h c' own routes :=
  congrArg (fun devices => { withDevices h c own routes with devices := devices })
    (KeyMap.insert_insert _ _ _ _)

/-- The links that ADD has of the pair. -/
def hostLink : NetlinkLink := ⟨(bootPods true).hostIfname cniPlugin, 2, .ofBytes 2 0 0 0 0 1, none⟩
def podLink : NetlinkLink := ⟨"eth0", 3, .ofBytes 2 0 0 0 0 2, some "/run/netns/pod"⟩

theorem changes_host {f : NetDevice → NetDevice} (hns : h.netns = 0) (hindex : h.index = 2) :
    (withDevices h c own routes).Changes hostLink f (withDevices (f h) c own routes) :=
  ⟨1, h, ⟨rfl, congrArg some hns.symm, hindex⟩, (setDevice_host (f h)).symm⟩

theorem changes_pod {f : NetDevice → NetDevice} {link : NetlinkLink}
    (hlink : (bootNet.net.resolve link.netns) = some c.netns) (hindex : c.index = link.index) :
    (withDevices h c own routes).Changes link f (withDevices h (f c) own routes) :=
  ⟨2, c, ⟨rfl, hlink, hindex⟩, (setDevice_pod (f c)).symm⟩

/-- The other end is down, so the kernel gives no address yet. -/
theorem sets_up_host (hns : h.netns = 0) (hindex : h.index = 2) :
    (withDevices h c own routes).SetsUp hostLink
      (withDevices { h with up := true } c own routes) := by
  refine ⟨1, h, ⟨rfl, congrArg some hns.symm, hindex⟩, own, fun _ _ ha => .inl ha,
    fun _ _ => rfl, ?_⟩
  rw [setDevice_host]
  rfl

theorem sets_up_pod (hns : c.netns = 1) (hindex : c.index = 3) :
    (withDevices h c noneOwn routes).SetsUp podLink
      (withDevices h { c with up := true } podOwn routes) := by
  refine ⟨2, c, ⟨rfl, congrArg some hns.symm, hindex⟩, podOwn, fun id a ha => .inr ?_,
    fun id hid => ?_, ?_⟩
  · unfold podOwn at ha
    rw [Function.update_apply] at ha
    split at ha
    · obtain rfl := List.mem_singleton.mp ha
      exact (by decide : linkLocalBlock.contains (.v6 (0xfe80 <<< 112 ||| 1)) = true)
    · cases ha
  · refine Function.update_of_ne ?_ _ _
    rintro rfl
    exact hid List.mem_cons_self
  · rw [setDevice_pod]
    rfl

theorem infra_wires {α : Type} {e : InfraOp (Except InfraError α)} {a : α} {k k' : NetKernel}
    (err : InfraError → CniError) (hcall : InfraOp.call _ e k (.ok a) k') :
    Exec CniOp.wires (infra e err).run k [⟨Sum.inr e, Except.ok a⟩] (.pure (.ok a)) k' :=
  .step _ _ _ (Except.ok a) k' [] _ _ hcall (.refl _ _)

/-- The name that the container's end is created with. -/
def tempName : String :=
  endpointToTempIfname s!"{(bootPods true).containerId}:{(bootPods true).ifname}"

/-- The link of the container's end as it is created. -/
def newLink : NetlinkLink := ⟨tempName, 3, podLink.mac, none⟩

/-- The ends as they are created. -/
def hostEnd : NetDevice := ⟨hostLink.name, 0, 2, hostLink.mac, some 2, false, 1500, 0, []⟩
def podEnd : NetDevice := ⟨tempName, 0, 3, podLink.mac, some 1, false, 1500, 0, []⟩

/-- The pair that ADD creates. -/
def podSpec : VethSpec := ⟨hostLink.name, some hostLink.mac, tempName, some podLink.mac⟩

theorem bootNet_creates : bootNet.net.CreatesVeth podSpec hostLink newLink
    (withDevices hostEnd podEnd noneOwn .empty) := by
  have hne : hostEnd.index ≠ podEnd.index := by decide
  exact ⟨hostEnd, podEnd, bootNet_freeName (by decide +kernel),
    bootNet_freeName (by decide +kernel), by decide +kernel, hne,
    ⟨rfl, rfl, bootNet_freeIndex (by decide), fun _ h => Option.some.inj h, rfl, rfl, rfl⟩,
    ⟨rfl, rfl, bootNet_freeIndex (by decide), fun _ h => Option.some.inj h, rfl, rfl, rfl⟩,
    rfl, rfl, rfl⟩

theorem withDevices_cases {id : Nat} {d : NetDevice}
    (hd : (withDevices h c own routes).devices id = some d) : d = c ∨ d = h ∨ d = loopback := by
  change ((bootNet.net.devices.insert 1 h).insert 2 c) id = some d at hd
  rw [KeyMap.insert_apply, KeyMap.insert_apply] at hd
  split at hd
  · exact .inl (Option.some.inj hd).symm
  split at hd
  · exact .inr (.inl (Option.some.inj hd).symm)
  · exact .inr (.inr (bootNet_devices hd).2)

theorem bootNet_moves :
    (withDevices hostEnd podEnd noneOwn .empty).MovesLink newLink "/run/netns/pod"
    (withDevices hostEnd { podEnd with netns := 1 } noneOwn .empty) := by
  have hns : ∀ id d, (withDevices hostEnd podEnd noneOwn .empty).devices id = some d →
      d.netns ≠ 1 := by
    intro id d hd
    -- Nothing is in the container's namespace yet, so any index is free there.
    obtain rfl | rfl | rfl := withDevices_cases hd
    · decide
    · decide
    · decide
  have hnet : withDevices hostEnd { podEnd with netns := 1 } noneOwn .empty =
      (withDevices hostEnd podEnd noneOwn .empty).setDevice 2 { podEnd with netns := 1 } :=
    (setDevice_pod _).symm
  have hown : noneOwn = Function.update noneOwn 2 [] := (Function.update_eq_self 2 noneOwn).symm
  refine ⟨2, podEnd, 1, ⟨rfl, rfl, rfl⟩, rfl, .inr ⟨by decide,
    fun id d hd hdns => absurd hdns (hns id d hd), 3,
    ⟨fun id d hd hdns => absurd hdns (hns id d hd), fun _ => rfl⟩, ?_⟩⟩
  rw [hnet]
  exact congrArg (fun own => { (withDevices hostEnd podEnd noneOwn .empty).setDevice 2
    { podEnd with netns := 1 } with linkLocal := own }) hown

theorem bootNet_renames :
    (withDevices hostEnd { podEnd with netns := 1 } noneOwn .empty).RenamesLink
    ⟨tempName, 3, podLink.mac, some "/run/netns/pod"⟩ "eth0"
    (withDevices hostEnd { podEnd with name := "eth0", netns := 1 } noneOwn .empty) := by
  refine ⟨2, { podEnd with netns := 1 }, ⟨rfl, rfl, rfl⟩, .inr fun id d hd hdns => ?_,
    (setDevice_pod _).symm⟩
  obtain rfl | rfl | rfl := withDevices_cases hd
  · decide +kernel
  · cases hdns
  · cases hdns

theorem setupVeth_wires : ∃ tr, Exec CniOp.wires
    (cniPlugin.setupVeth "container" "eth0" "/run/netns/pod" 1500).run bootNet.net tr
    (.pure (.ok (hostLink, podLink))) (withDevices { hostEnd with up := true }
      { podEnd with name := "eth0", netns := 1 } noneOwn .empty) := by
  let c : NetDevice := { podEnd with name := "eth0", netns := 1 }
  have hfiltered : (withDevices hostEnd c noneOwn .empty).SetsRpFilter hostLink 0
      (withDevices hostEnd c noneOwn .empty) :=
    ⟨0, 1, hostEnd, rfl, ⟨rfl, rfl, rfl⟩, (setDevice_host _).symm⟩
  unfold setupVeth
  exact ⟨_, .step _ _ _ hostLink.mac _ _ _ _ rfl <| .step _ _ _ podLink.mac _ _ _ _ rfl <|
    Exec.bind_ok (infra_wires (a := (hostLink, newLink)) _ bootNet_creates) <|
    Exec.bind_ok (infra_wires (a := ()) _ ⟨Option.some_ne_none 1, rfl⟩) <|
    Exec.bind_ok (infra_wires (a := ()) _ bootNet_moves) <|
    Exec.bind_ok (infra_wires (a := ()) _ bootNet_renames) <|
    Exec.bind_ok (infra_wires (a := ()) _ hfiltered) <|
    Exec.bind_ok (infra_wires (a := ()) _ (changes_host rfl rfl)) <|
    Exec.bind_ok (infra_wires (a := ()) _ (changes_pod rfl rfl)) <|
    Exec.bind_ok (infra_wires (a := ()) _ (sets_up_host rfl rfl)) (.refl _ _)⟩

theorem podFamily_wires (k : NetKernel) : Exec CniOp.wires (cniPlugin.familyConfig
    cniPlugin.parseIpv4 "ipv4" .v4 ipv4Routes 1500 podResponse.hostAddressing.ipv4
    podResponse.ipv4).run k [] (.pure (.ok (some podFamily))) k := by
  have hrun : (cniPlugin.familyConfig cniPlugin.parseIpv4 "ipv4" .v4 ipv4Routes 1500
      podResponse.hostAddressing.ipv4 podResponse.ipv4).run = .pure (.ok (some podFamily)) := by
    rfl
  rw [hrun]
  exact .refl _ _

theorem configureIface_wires : ∃ tr k, Exec CniOp.wires
    (cniPlugin.configureIface podLink [podFamily.endpointIp] podFamily.routes).run
    (withDevices { hostEnd with up := true } { podEnd with name := "eth0", netns := 1 } noneOwn
      .empty) tr (.pure (.ok ())) k := by
  have hsorted : sortByMaskNarrowestFirst podFamily.routes = podFamily.routes :=
    List.mergeSort_of_pairwise (by decide)
  let c : NetDevice := { podEnd with name := "eth0", netns := 1, up := true }
  let c' : NetDevice := { c with addrs := [podFamily.endpointIp] }
  let h : NetDevice := { hostEnd with up := true }
  have hnew : podFamily.endpointIp ∉ (withDevices h c podOwn .empty).addresses 2 c := by decide
  have haddr : (withDevices h c podOwn .empty).AddsAddr podLink podFamily.endpointIp
      (withDevices h c' podOwn .empty) :=
    ⟨2, c, ⟨rfl, rfl, rfl⟩, hnew, (setDevice_pod _).symm⟩
  have hroute : ∀ routes route, (withDevices h c' podOwn routes).AddsRoute podLink route
      (withDevices h c' podOwn (routes.insert (1, route.target) (2, route))) :=
    fun routes route => ⟨2, c', ⟨rfl, rfl, rfl⟩, rfl⟩
  unfold configureIface
  rw [hsorted]
  exact ⟨_, _, Exec.bind_ok (infra_wires (a := ()) _ (sets_up_pod rfl rfl)) <|
    Exec.bind_ok (p := List.forM _ _) (a := ())
      (Exec.bind_ok (infra_wires (a := ()) _ haddr) (.refl _ _)) <|
    Exec.bind_ok (infra_wires (a := ()) _ (hroute _ _)) <|
    Exec.bind_ok (infra_wires (a := ()) _ (hroute _ _)) (.refl _ _)⟩

/-- ADD up to where it tells the daemon of the endpoint, and its end when the daemon agrees. -/
theorem attach_tells : ∃ tr k attachment ep rest result, Exec CniOp.wires
    (cniPlugin.attach podClient "container" "eth0" "/run/netns/pod" cniSpec ⟨1500, 1500⟩
      podResponse).run bootNet.net tr (.op (.inl (.send (.createEndpoint attachment ep))) rest) k ∧
    rest (.ok ⟨200, .json "{}" EndpointCreateResponse.mk⟩) = .pure (.ok result) := by
  obtain ⟨_, hlinks⟩ := setupVeth_wires
  obtain ⟨_, k, hconfigure⟩ := configureIface_wires
  unfold attach
  exact ⟨_, k, _, _, _, _, Exec.bind_ok (a := ()) (.refl _ _) <| Exec.bind_ok hlinks <|
    Exec.bind_ok (podFamily_wires _) <| Exec.bind_ok (a := none) (.refl _ _) <|
    Exec.bind_ok hconfigure <| .refl _ _, rfl⟩

theorem setupVeth_creates : ∃ tr rest, Exec CniOp.wires
    (cniPlugin.setupVeth "container" "eth0" "/run/netns/pod" 1500).run bootNet.net tr
    (.op (.inr (.createVeth podSpec)) rest) bootNet.net := by
  unfold setupVeth
  exact ⟨_, _, .step _ _ _ hostLink.mac _ _ _ _ rfl <| .step _ _ _ podLink.mac _ _ _ _ rfl <|
    .refl _ _⟩

/-- ADD up to where it creates the pair. -/
theorem attach_creates : ∃ tr rest, Exec CniOp.wires
    (cniPlugin.attach podClient "container" "eth0" "/run/netns/pod" cniSpec ⟨1500, 1500⟩
      podResponse).run bootNet.net tr (.op (.inr (.createVeth podSpec)) rest) bootNet.net := by
  obtain ⟨_, _, hcreates⟩ := setupVeth_creates
  unfold attach
  exact ⟨_, _, Exec.bind_ok (a := ()) (.refl _ _) (Exec.bind_left hcreates)⟩

/-- ADD as a whole: it gets to the part that holds the lease, and succeeds when that does. -/
theorem add_attaches {tr : List (Answered CniOp)} {k : NetKernel}
    {p : Prog CniOp (Except CniError CniResult)} (hattach : Exec CniOp.wires
      (cniPlugin.attach podClient "container" "eth0" "/run/netns/pod" cniSpec ⟨1500, 1500⟩
        podResponse).run bootNet.net tr p k) :
    ∃ (tr : List (Answered CniOp)) (f : Except CniError CniResult → CniJob),
      Exec CniOp.wires ((CniCommand.add cniArgs cniSpec).job cniPlugin) bootNet.net tr (p >>= f) k ∧
      ∀ result, f (.ok result) = .pure (.ok (some result)) := by
  -- No earlier ADD has left a link in the container.
  have hfree : bootNet.net.FreeName 1 "eth0" := by
    intro id d hd hdns
    obtain ⟨-, rfl⟩ := bootNet_devices hd
    cases hdns
  have hstale : CniOp.wires _ (.inr (.deleteLinkInNs "/run/netns/pod" "eth0")) bootNet.net
      (.error (.linkNotFound "eth0")) bootNet.net := ⟨⟨1, rfl, hfree⟩, rfl⟩
  have hconfig : Exec CniOp.wires (api podClient.getConfig "could not read config").run bootNet.net
      _ (.pure (.ok (DaemonConfigurationResponse.mk 1500 1500))) bootNet.net :=
    .step _ _ _ (Except.ok ⟨200, .json "{}" (DaemonConfigurationResponse.mk 1500 1500)⟩) _ [] _ _
      rfl (.refl _ _)
  have hallocate : Exec CniOp.wires
      (api (podClient.allocate none (some "default/pod") none true) "could not allocate ip").run
      bootNet.net _ (.pure (.ok podResponse)) bootNet.net :=
    .step _ _ _ (Except.ok ⟨200, .json "{}" podResponse⟩) _ [] _ _ rfl (.refl _ _)
  have hadd : ∃ (tr : List (Answered CniOp))
      (f : Except CniError CniResult → Prog CniOp (Except CniError CniResult)),
      Exec CniOp.wires (cniPlugin.add cniArgs cniSpec).run bootNet.net tr (p >>= f) k ∧
      ∀ result, f (.ok result) = .pure (.ok result) := by
    unfold add
    exact ⟨_, _, Exec.bind_ok (a := "/run/netns/pod") (.refl _ _) <|
      Exec.bind_ok (a := "eth0") (.refl _ _) <| Exec.bind_ok (a := "container") (.refl _ _) <|
      Exec.bind_ok (a := ()) (.refl _ _) <|
      Exec.bind_ok (infra_wires (a := ()) _ ⟨Option.some_ne_none 1, rfl⟩) <|
      Exec.bind_ok (a := ()) (.step _ _ _ _ _ [] _ _ hstale (.refl _ _)) <|
      Exec.bind_ok (a := podClient) (.refl _ _) <| Exec.bind_ok hconfig <|
      Exec.bind_ok hallocate <| Exec.bind_ok (a := ()) (.refl _ _) <| Exec.bind_left hattach,
      fun _ => rfl⟩
  obtain ⟨tr, f, hadd, hf⟩ := hadd
  refine ⟨tr, fun r => f r >>= ExceptT.bindCont fun result => pure (some result), ?_,
    fun result => ?_⟩
  · rw [← bind_assoc]
    exact Exec.bind_left hadd
  · show (f (.ok result) >>= _) = _
    rw [hf]
    rfl

/-- The other container's arguments. -/
def databaseArgs : CniArgs where
  containerId := some "database"
  netns := some "/run/netns/db"
  ifname := some "eth0"

/-- The first container is about to be registered, and ADD then succeeds. -/
theorem exists_run_told : ∃ (h : CniHost Bool) (attachment : String) (ep : EndpointCreateRequest)
    (rest : _ → CniJob) (result : CniResult),
    Nonempty (Run (Step cniPlugin bootPods) (start bootNet) h) ∧
    h.jobs true = some (.op (.inl (.send (.createEndpoint attachment ep))) rest) ∧
    h.jobs false = none ∧
    rest (.ok ⟨200, .json "{}" EndpointCreateResponse.mk⟩) = .pure (.ok (some result)) := by
  obtain ⟨_, k, attachment, ep, rest, result, hattach, hrest⟩ := attach_tells
  obtain ⟨_, f, hadd, hf⟩ := add_attaches hattach
  let s : CniHost Bool := start bootNet
  let job := (CniCommand.add cniArgs cniSpec).job cniPlugin
  let started : CniHost Bool := ⟨bootNet, s.jobs.insert true job, s.added.remove true⟩
  have hstart : Step cniPlugin bootPods s (some true) started :=
    .start s true (.add cniArgs cniSpec) rfl ⟨rfl, rfl, rfl⟩
  have hjob : started.jobs true = some job := KeyMap.insert_self s.jobs true job
  obtain ⟨h, ⟨run⟩, -, hjob, hothers⟩ :=
    exists_run_of_exec cniPlugin bootPods true hadd started rfl hjob
  refine ⟨h, attachment, ep, fun b => rest b >>= f, result,
    ⟨(Run.nil.snoc _ _ _ hstart).append run⟩, hjob, hothers false (by decide), ?_⟩
  exact (congrArg (· >>= f) hrest).trans (hf result)

/-- One container is added, and ADD is started for the other. -/
theorem pods_stay_wired_two : ∃ (h : CniHost Bool)
    (run : Run (Step cniPlugin bootPods) (start bootNet) h) (result : CniResult),
    h.added true = some result ∧
    h.jobs false = some ((CniCommand.add databaseArgs cniSpec).job cniPlugin) ∧
    run.Always (fun s => ∀ i result, s.added i = some result →
      (bootPods i).Wired result s.net.net) ∧
    run.EachStep fun s label t =>
      ∀ i, label ≠ some i → OwnedNet.Rely (bootPods i).ns s.net t.net := by
  obtain ⟨s, attachment, ep, rest, result, ⟨run⟩, hjob, hfree, hrest⟩ := exists_run_told
  -- The daemon creates the endpoint, and the command ends.
  have hcreated : ∃ tr, Exec CniOp.wires
      (.op (.inl (.send (.createEndpoint attachment ep))) rest) s.net.net tr
      (.pure (.ok (some result))) s.net.net := by
    refine ⟨_, .step _ _ _ (.ok ⟨200, .json "{}" EndpointCreateResponse.mk⟩) _ [] _ _ rfl ?_⟩
    rw [hrest]
    exact .refl _ _
  obtain ⟨_, hcreated⟩ := hcreated
  obtain ⟨t, ⟨rest⟩, -, hdone, hothers⟩ :=
    exists_run_of_exec cniPlugin bootPods true hcreated s rfl hjob
  let added : CniHost Bool := ⟨t.net, t.jobs.remove true, t.added.insert true result⟩
  have hadded : Step cniPlugin bootPods t (some true) added := .added t true result hdone
  have hfree : added.jobs false = none :=
    (KeyMap.remove_of_ne _ Bool.false_ne_true).trans
      ((hothers false Bool.false_ne_true).trans hfree)
  let job := (CniCommand.add databaseArgs cniSpec).job cniPlugin
  let started : CniHost Bool := ⟨t.net, added.jobs.insert false job, added.added.remove false⟩
  have hstart : Step cniPlugin bootPods added (some false) started :=
    .start added false (.add databaseArgs cniSpec) hfree ⟨rfl, rfl, rfl⟩
  have hkept : started.added true = some result :=
    (KeyMap.remove_of_ne _ Bool.false_ne_true.symm).trans
      (KeyMap.insert_self t.added true result)
  have hjob : started.jobs false = some job := KeyMap.insert_self added.jobs false job
  exact ⟨started, ((run.append rest).snoc _ _ _ hadded).snoc _ _ _ hstart, result, hkept, hjob,
    pods_stay_wired cniPlugin bootPods bootPods_injective bootNet bootNet_idle _ _⟩

/-- An endpoint is about to be registered. -/
theorem endpoints_told_as_wired_one : ∃ (h : CniHost Bool)
    (run : Run (Step cniPlugin bootPods) (start bootNet) h) (attachment : String)
    (ep : EndpointCreateRequest) (k : _ → CniJob),
    h.jobs true = some (.op (.inl (.send (.createEndpoint attachment ep))) k) ∧
    run.Always fun s => ∀ i attachment ep k,
      s.jobs i = some (.op (.inl (.send (.createEndpoint attachment ep))) k) →
      attachment = attachmentId (bootPods i).containerId (bootPods i).ifname ∧
        (bootPods i).Registered cniPlugin.text ep s.net.net := by
  obtain ⟨h, attachment, ep, rest, -, ⟨run⟩, hjob, -⟩ := exists_run_told
  exact ⟨h, run, attachment, ep, rest, hjob,
    endpoints_told_as_wired cniPlugin bootPods bootPods_injective bootNet bootNet_idle h run⟩

end

section

variable [DecidableEq ι]

/-- **A pair that was left on its way.** Between its commands a container has a namespace with
    nothing but its device, or the host's end of a pair stands in the way.  Then this end stays,
    whatever commands follow, and no ADD of the container succeeds any more. -/
theorem stuck_pods_stay_out (plugin : CniPlugin) (pods : ι → Pod)
    (hpods : Function.Injective fun i => (pods i).ns) (net : OwnedNet)
    (hnet : ∀ i, (pods i).Idle plugin net) (h : CniHost ι)
    (run : Run (Step plugin pods) (start net) h) (i : ι) (hjob : h.jobs i = none) :
    ((pods i).Clean h.net ∧ ¬ (pods i).Stuck plugin h.net) ∨
      ((pods i).Stuck plugin h.net ∧ ∀ t, ∀ later : Run (Step plugin pods) h t,
        later.Always fun s => (pods i).Stuck plugin s.net ∧ s.added i = none) := by
  have hall := run.invariant (allInPlace_start hnet) (allInPlace_step hpods)
  have hidle := (hall i).idle hjob
  by_cases hstuck : (pods i).Stuck plugin h.net
  · refine .inr ⟨hstuck, fun t later => ?_⟩
    -- A container that was added has no such end, so it cannot have been.
    have hadded : h.added i = none := by
      rw [Option.eq_none_iff_forall_ne_some]
      exact fun result hr => ((hall i).wired result hr).2.1 hstuck
    have hstart : BlockedInPlace plugin (pods i) (h.jobs i) (h.added i) h.net :=
      ⟨⟨hidle, hstuck⟩, hadded, fun p hp => by cases hjob.symm.trans hp⟩
    refine (later.always_of_invariant (J := fun s => AllInPlace plugin pods s ∧
      BlockedInPlace plugin (pods i) (s.jobs i) (s.added i) s.net) ⟨hall, hstart⟩
      fun s label t hstep hs => ?_).mono fun s hs => ⟨hs.2.blocked.2, hs.2.added⟩
    exact ⟨allInPlace_step hpods s label t hstep hs.1, blocked_step hpods hstep hs.1 hs.2⟩
  · exact .inl ⟨hidle.left.resolve_right hstuck, hstuck⟩

end

section

open CniSystem CniPlugin

/-- ADD for the first container is cut off when it has created the pair, and none succeeds
    after it. -/
theorem stuck_pods_stay_out_left : ∃ (h : CniHost Bool)
    (_ : Run (Step cniPlugin bootPods) (start bootNet) h),
    (bootPods true).Stuck cniPlugin h.net ∧
      ∀ t, ∀ later : Run (Step cniPlugin bootPods) h t,
        later.Always fun s => (bootPods true).Stuck cniPlugin s.net ∧ s.added true = none := by
  obtain ⟨_, rest, hattach⟩ := attach_creates
  obtain ⟨_, f, hadd, -⟩ := add_attaches hattach
  let s : CniHost Bool := start bootNet
  let job := (CniCommand.add cniArgs cniSpec).job cniPlugin
  let started : CniHost Bool := ⟨bootNet, s.jobs.insert true job, s.added.remove true⟩
  have hstart : Step cniPlugin bootPods s (some true) started :=
    .start s true (.add cniArgs cniSpec) rfl ⟨rfl, rfl, rfl⟩
  have hjob : started.jobs true = some job := KeyMap.insert_self s.jobs true job
  obtain ⟨h, ⟨run⟩, hnet, hjob, -⟩ :=
    exists_run_of_exec cniPlugin bootPods true hadd started rfl hjob
  let net : OwnedNet :=
    ⟨withDevices hostEnd podEnd noneOwn .empty,
      fun id => if h.net.net.next ≤ id ∧ id < 3 then some 1 else h.net.owner id⟩
  have hop : CniOp.wiresFor 1 _ (.inr (.createVeth podSpec)) h.net (.ok (hostLink, newLink))
      net := ⟨hnet ▸ bootNet_creates, rfl⟩
  let created : CniHost Bool :=
    { h with net := net, jobs := h.jobs.insert true (rest (.ok (hostLink, newLink)) >>= f) }
  have hcreated : Step cniPlugin bootPods h (some true) created :=
    .op h true _ _ (fun b => rest b >>= f) _ net hjob hop
  let cut : CniHost Bool := { created with jobs := created.jobs.remove true }
  let run : Run (Step cniPlugin bootPods) (start bootNet) cut :=
    (((Run.nil.snoc _ _ _ hstart).append run).snoc _ _ _ hcreated).snoc _ _ _ (.cut created true)
  have howner : net.owner 1 = some 1 := by
    have hnext : h.net.net.next = 1 := congrArg NetKernel.next hnet
    exact if_pos ⟨hnext.le, by decide⟩
  have hended : cut.jobs true = none := KeyMap.remove_self created.jobs true
  have hstuck : (bootPods true).Stuck cniPlugin cut.net := by
    refine ⟨1, hostEnd, rfl, howner, rfl, rfl, fun id' d' hpeer hd' hns => ?_⟩
    obtain rfl : 2 = id' := Option.some.inj hpeer
    obtain rfl := Option.some.inj hd'
    cases hns
  exact ⟨cut, run, (stuck_pods_stay_out cniPlugin bootPods bootPods_injective bootNet bootNet_idle
    cut run true hended).resolve_left fun hclean => hclean.2 hstuck⟩

end

end CniHost

end Sarena
