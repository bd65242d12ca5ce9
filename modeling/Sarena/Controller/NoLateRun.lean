import Mathlib.Logic.Relation
import Sarena.Controller.NoLostUpdate

namespace Sarena.Controllers

open Lib

/-!
# Controllers — no run begins after removal

Between two await points a task is not interrupted: one poll of it takes it from one of them
to the next.  When the job returns, the same poll goes through `record`, `next_wait` and the
`select!`, where a stop is looked at before a change and a timer, and on into the next run.

* `Controller.poll` — one poll of the task, put together from the steps of the runner;
* `AtomicStep` — callers and whole polls, in any order;
* `NoLateRun` — a step begins no run of a controller that was cancelled before it;
* `no_late_run_iff` — the runs without a late run are exactly those in which no task is
  polled for the first time after its controller was cancelled.
-/

variable {Job : Type}

/-! ### One poll -/

/-- What a task is polled for. -/
inductive PollEvent
  /-- The first poll. -/
  | start
  /-- The job has returned; `ready` tells whether the timer has run out already. -/
  | jobEnds (result : Except RunError Flow) (r : Float) (ready : Bool)
  /-- Something in the `select!` has woken the task. -/
  | wake (ready : Bool)
  /-- The stop hook has returned or timed out. -/
  | hookEnds

namespace Controller

variable (mulF64 : Duration → Float → Checked Duration)

/-- The `select!` of `Runner::wait`, polled once, and what the loop does with its result. -/
def select (c : Controller Job) (ready : Bool) : Option (Controller Job) := do
  let c ← c.advance mulF64 .pollCancelled
  match c.pc with
  | .polledCancel _ _ =>
    let c ← c.advance mulF64 .pollChanged
    match c.pc with
    | .woken _ => c.advance mulF64 .borrowAndUpdate
    | .polledChanged _ _ => c.advance mulF64 (.pollTimer ready)
    | _ => some c
  | _ => some c

/-- One poll of the task: the steps of the runner up to its next await point. -/
def poll (c : Controller Job) : PollEvent → Option (Controller Job)
  | .start => c.advance mulF64 .start
  | .jobEnds result r ready => do
    let c ← c.advance mulF64 (.finish result r)
    match c.pc with
    | .waiting _ _ => c.select mulF64 ready
    | _ => some c
  | .wake ready => c.select mulF64 ready
  | .hookEnds => c.advance mulF64 .runStopHook

end Controller

/-- Who takes a step, where a task is polled as a whole. -/
inductive AtomicEvent (Job : Type)
  | update (name : String) (spec : Spec Job)
  | remove (name : String)
  | removeAll
  | poll (id : Nat) (e : PollEvent)

/-- Callers and polls, in any order. -/
def AtomicStep (mulF64 : Duration → Float → Checked Duration) (m : Manager Job) :
    AtomicEvent Job → Manager Job → Prop
  | .update name spec, t => t = m.update name spec
  | .remove name, t => t = m.remove name
  | .removeAll, t => t = m.removeAll
  | .poll id e, t => ∃ c d, m.controllers id = some c ∧ c.poll mulF64 e = some d ∧
      t = m.modify id fun _ => d

/-- The step begins no run of a controller that was cancelled before it. -/
def NoLateRun (m : Manager Job) (_ : AtomicEvent Job) (t : Manager Job) : Prop :=
  ∀ id c d, m.controllers id = some c → t.controllers id = some d → c.cancelled = true →
    d.log.length = c.log.length

/-- The step is not the first poll of a task whose controller was cancelled before it. -/
def PolledInTime (m : Manager Job) : AtomicEvent Job → Manager Job → Prop
  | .poll id .start, _ => ∀ c, m.controllers id = some c → c.cancelled = false
  | _, _ => True

/-! ### What a poll can begin -/

variable {mulF64 : Duration → Float → Checked Duration} {c d : Controller Job} {m t : Manager Job}

/-- A stop wins: the `select!` of a cancelled controller leaves the loop. -/
theorem select_cancelled {ready : Bool} (h : c.select mulF64 ready = some d)
    (hcancelled : c.cancelled = true) : d.log = c.log := by
  unfold Controller.select Controller.advance at h
  cases hpc : c.pc with
  | waiting spec wait =>
    simp only [hpc, hcancelled, if_true] at h
    obtain rfl := Option.some.inj h
    rfl
  | _ => simp [hpc] at h

/-- Recording the end of a run begins none. -/
theorem length_logEnd (c : Controller Job) (ended : Ended) :
    (c.logEnd ended).length = c.log.length := by
  unfold Controller.logEnd
  cases c.log <;> rfl

theorem poll_start (h : c.poll mulF64 .start = some d) : d.log.length = c.log.length + 1 := by
  unfold Controller.poll Controller.advance at h
  cases hpc : c.pc with
  | spawned =>
    simp only [hpc] at h
    obtain rfl := Option.some.inj h
    rfl
  | _ => simp [hpc] at h

/-- After its first poll a cancelled controller begins no run. -/
theorem poll_cancelled {e : PollEvent} (h : c.poll mulF64 e = some d) (he : e ≠ .start)
    (hcancelled : c.cancelled = true) : d.log.length = c.log.length := by
  cases e with
  | start => exact absurd rfl he
  | jobEnds result r ready =>
    unfold Controller.poll Controller.advance at h
    cases hpc : c.pc with
    | job spec =>
      -- The record that is completed was begun before; the poll of the wait sees the token.
      have hlen := length_logEnd c
        ⟨result, recordedErrors c.consecutiveErrors result, r, c.version⟩
      simp only [hpc, Option.bind_eq_bind, Option.bind_some] at h
      split at h
      · rw [select_cancelled h hcancelled]
        exact hlen
      · obtain rfl := Option.some.inj h
        exact hlen
    | _ => simp [hpc] at h
  | wake ready => rw [select_cancelled h hcancelled]
  | hookEnds =>
    unfold Controller.poll Controller.advance at h
    cases hpc : c.pc with
    | stopping spec =>
      simp only [hpc] at h
      obtain rfl := Option.some.inj h
      rfl
    | _ => simp [hpc] at h

/-! ### Polls as steps of the runner -/

/-- Steps of the runner in a row. -/
def Controller.Steps (mulF64 : Duration → Float → Checked Duration) :
    Controller Job → Controller Job → Prop :=
  Relation.ReflTransGen fun c d => ∃ e, c.RunnerStep mulF64 e d

theorem steps_of_advance (e : RunnerEvent) (h : c.advance mulF64 e = some d) :
    c.Steps mulF64 d := .single ⟨e, h⟩

theorem select_steps {ready : Bool} (h : c.select mulF64 ready = some d) : c.Steps mulF64 d := by
  unfold Controller.select at h
  obtain ⟨c₁, h₁, h⟩ := Option.bind_eq_some_iff.mp h
  apply (steps_of_advance _ h₁).trans
  split at h
  · obtain ⟨c₂, h₂, h⟩ := Option.bind_eq_some_iff.mp h
    apply (steps_of_advance _ h₂).trans
    split at h
    · exact steps_of_advance _ h
    · exact steps_of_advance _ h
    · obtain rfl := Option.some.inj h
      exact .refl
  · obtain rfl := Option.some.inj h
    exact .refl

/-- A poll is made of steps of the runner. -/
theorem poll_steps {e : PollEvent} (h : c.poll mulF64 e = some d) : c.Steps mulF64 d := by
  cases e with
  | start => exact steps_of_advance .start h
  | jobEnds result r ready =>
    obtain ⟨c₁, h₁, h⟩ := Option.bind_eq_some_iff.mp h
    apply (steps_of_advance _ h₁).trans
    split at h
    · exact select_steps h
    · obtain rfl := Option.some.inj h
      exact .refl
  | wake ready => exact select_steps h
  | hookEnds => exact steps_of_advance .runStopHook h

theorem modify_modify (id : Nat) :
    (m.modify id fun _ => c).modify id (fun _ => d) = m.modify id fun _ => d := by
  unfold Manager.modify
  congr 1
  funext i
  by_cases hi : i = id
  · simp only [hi, if_true, Option.map_map]
    rfl
  · simp only [hi, if_false]

/-- Steps of one runner, as a run of the manager. -/
theorem run_of_steps {id : Nat} (hc : m.controllers id = some c) (h : c.Steps mulF64 d) :
    Nonempty (Run (Step mulF64) m (m.modify id fun _ => d)) := by
  induction h with
  | refl =>
    rw [modify_self hc]
    exact ⟨.nil⟩
  | tail _ hlast ih =>
    obtain ⟨run⟩ := ih
    obtain ⟨e, hstep⟩ := hlast
    refine ⟨run.snoc _ (.runner id e) _ ⟨_, _, ?_, hstep, (modify_modify id).symm⟩⟩
    rw [controllers_modify, if_pos rfl, hc]
    rfl

/-- **Refinement.** A step with whole polls is a run of the manager and its runners. -/
theorem AtomicStep.run {e : AtomicEvent Job} (h : AtomicStep mulF64 m e t) :
    Nonempty (Run (Step mulF64) m t) := by
  cases e with
  | update name spec =>
    have hstep : Step mulF64 m (.update name spec) t := h
    exact ⟨Run.nil.snoc _ _ _ hstep⟩
  | remove name =>
    have hstep : Step mulF64 m (.remove name) t := h
    exact ⟨Run.nil.snoc _ _ _ hstep⟩
  | removeAll =>
    have hstep : Step mulF64 m .removeAll t := h
    exact ⟨Run.nil.snoc _ _ _ hstep⟩
  | poll id e =>
    obtain ⟨c, d, hc, hpoll, rfl⟩ := h
    exact run_of_steps hc (poll_steps hpoll)

/-- Every name keeps a running controller of its own. -/
theorem AtomicStep.entered {e : AtomicEvent Job} (h : AtomicStep mulF64 m e t) (hm : m.Entered) :
    t.Entered := by
  obtain ⟨run⟩ := h.run
  exact run.invariant hm fun _ _ _ hstep hs => hs.step hstep

/-! ### Late runs -/

/-- Callers begin no runs. -/
theorem log_eq_of_caller {a : ManagerEvent Job} {id : Nat} (h : Step mulF64 m a t)
    (ha : ∀ id e, a ≠ .runner id e) (hm : m.Entered) (hc : m.controllers id = some c)
    (hd : t.controllers id = some d) : d.log = c.log := by
  obtain ⟨d', hd', hcontinued⟩ := h.continued hm hc
  obtain rfl := Option.some.inj (hd.symm.trans hd')
  cases hcontinued with
  | moved _ e hrunner _ => exact absurd hrunner (ha id e)
  | _ => rfl

/-- **Step.** A step begins no late run exactly when it is not a late first poll. -/
theorem noLateRun_step_iff {e : AtomicEvent Job} (h : AtomicStep mulF64 m e t) (hm : m.Entered) :
    NoLateRun m e t ↔ PolledInTime m e t := by
  have hcaller : ∀ a : ManagerEvent Job, Step mulF64 m a t → (∀ id e, a ≠ .runner id e) →
      NoLateRun m e t := by
    intro a hstep ha id c d hc hd _
    rw [log_eq_of_caller hstep ha hm hc hd]
  cases e with
  | update name spec =>
    exact iff_of_true (hcaller (.update name spec) h fun _ _ hrunner => by cases hrunner) trivial
  | remove name =>
    exact iff_of_true (hcaller (.remove name) h fun _ _ hrunner => by cases hrunner) trivial
  | removeAll =>
    exact iff_of_true (hcaller .removeAll h fun _ _ hrunner => by cases hrunner) trivial
  | poll id e =>
    obtain ⟨c, d, hc, hpoll, rfl⟩ := h
    -- Only the polled task changes.
    have hother : ∀ i c' d', m.controllers i = some c' →
        (m.modify id fun _ => d).controllers i = some d' → i = id ∧ c' = c ∧ d' = d ∨ d' = c' := by
      intro i c' d' hc' hd'
      rw [controllers_modify, hc'] at hd'
      by_cases hi : i = id
      · rw [if_pos hi] at hd'
        rw [hi] at hc'
        exact .inl ⟨hi, Option.some.inj (hc'.symm.trans hc), (Option.some.inj hd').symm⟩
      · rw [if_neg hi] at hd'
        exact .inr (Option.some.inj hd').symm
    have hself : (m.modify id fun _ => d).controllers id = some d := by
      rw [controllers_modify, if_pos rfl, hc]
      rfl
    by_cases he : e = .start
    · -- The first poll begins a run in any case.
      subst he
      have hlen := poll_start hpoll
      constructor
      · intro hno c' hc'
        obtain rfl := Option.some.inj (hc.symm.trans hc')
        rw [← Bool.not_eq_true]
        intro hcancelled
        have := hno id c d hc hself hcancelled
        omega
      · intro hin i c' d' hc' hd' hcancelled
        obtain ⟨rfl, rfl, rfl⟩ | rfl := hother i c' d' hc' hd'
        · rw [hin _ hc] at hcancelled
          cases hcancelled
        · rfl
    · refine iff_of_true (fun i c' d' hc' hd' hcancelled => ?_) ?_
      · obtain ⟨rfl, rfl, rfl⟩ | rfl := hother i c' d' hc' hd'
        · exact poll_cancelled hpoll he hcancelled
        · rfl
      · cases e with
        | start => exact absurd rfl he
        | _ => trivial

/-- **Exact condition.** In a run of the manager and its tasks no job run of a controller
    begins after the controller was cancelled, exactly when no task is polled for the first
    time after that. -/
theorem no_late_run_iff (mulF64 : Duration → Float → Checked Duration)
    (maxInterval : Option Duration) {m : Manager Job}
    (run : Run (AtomicStep mulF64) (Manager.new maxInterval) m) :
    run.EachStep NoLateRun ↔ run.EachStep PolledInTime := by
  refine Run.eachStep_iff_of_invariant (J := Manager.Entered) (entered_new maxInterval) ?_ ?_ run
  · exact fun m e t h hm => h.entered hm
  · exact fun m e t h hm => noLateRun_step_iff h hm

/-- A job that is run once more only when its spec changes. -/
def once : Spec Unit := { job := (), backoff := .none }

/-- **Removed before the first poll.** The controller is removed right after it was spawned;
    the first poll of its task runs the job all the same. -/
theorem removed_before_first_poll_runs : ∃ (m : Manager Unit)
    (run : Run (AtomicStep mulOne) (Manager.new none) m), ¬ run.EachStep NoLateRun := by
  let removed : Controller Unit := { value := once, closed := true, cancelled := true }
  let m₁ := (Manager.new none : Manager Unit).update "a" once
  let m₂ := m₁.remove "a"
  let m₃ := m₂.modify 1 fun _ => removed.runLatest .first
  have hremoved : m₂.controllers 1 = some removed := rfl
  have hpoll : AtomicStep mulOne m₂ (.poll 1 .start) m₃ := ⟨removed, _, hremoved, rfl, rfl⟩
  refine ⟨m₃, .snoc _ (.snoc _ (.snoc _ .nil (.update "a" once) m₁ rfl)
    (.remove "a") m₂ rfl) (.poll 1 .start) m₃ hpoll, fun hall => ?_⟩
  have hlog : (removed.runLatest .first).log.length = removed.log.length :=
    hall.2 1 removed _ hremoved rfl rfl
  -- The log was empty before the first poll.
  have hone : (1 : Nat) = 0 := hlog
  omega

end Sarena.Controllers
