import Mathlib.Tactic.ByContra
import Sarena.Controller.Manager

namespace Sarena.Controllers

open Lib

/-!
# Controllers — no update is lost

Updates may arrive at any moment: before the first run, during a run, between two polls of
the wait, or as the timer fires.  The runner reads the channel at its own pace.

* `Faithful` — what is promised of a controller in every state: while it waits, its spec is
  the latest or a change is pending; the updates of one run lead to one rerun with the last
  of them; a pending change leads to a run; every run after the first has its cause;
* `Inv` — the invariant behind it, with the history of the runs as a chain (`History`);
* `Controller.Unwinds`, `SystemStep` — the task of a controller may also be unwound by code
  that is not the runner's;
* `Heeded`, `SystemHeeded` — no update is pending when a task is unwound, and none is sent to
  it after that;
* `faithful_always_iff` — the runs in which every controller is faithful throughout are those
  whose steps are all heeded; `overflow_loses_update` — one that is not.
-/

variable {Job : Type} {mulF64 : Duration → Float → Checked Duration} {c d : Controller Job}
  {e : RunnerEvent} {spec : Spec Job} {wait : Wait}

/-! ### What is promised -/

/-- The runner is in `wait` with this spec. -/
def Controller.WaitsWith (c : Controller Job) (spec : Spec Job) : Prop :=
  ∃ wait, c.pc = .waiting spec wait ∨ c.pc = .polledCancel spec wait ∨
    c.pc = .polledChanged spec wait

/-- The runner is in a run of the job. -/
def Controller.Running (c : Controller Job) : Prop := ∃ spec, c.pc = .job spec

/-- The first run was started, and no run is going on. -/
def Controller.BetweenRuns (c : Controller Job) : Prop := c.pc ≠ .spawned ∧ ¬ c.Running

/-- No run has been started for the latest change of the channel. -/
def Controller.Pending (c : Controller Job) : Prop :=
  ∀ run rest, c.log = run :: rest → run.seen ≠ c.version

/-- After such a result only a change starts the next run. -/
def Parks (spec : Spec Job) (result : Except RunError Flow) : Prop :=
  result = .ok .done ∨ ((∃ error, result = .error error) ∧ spec.backoff = .none ∧
    spec.interval = none)

/-- What is promised of a controller in every state it gets to. -/
structure Faithful (mulF64 : Duration → Float → Checked Duration) (c : Controller Job) :
    Prop where
  /-- While the runner waits, it uses the spec last sent, or a change is pending. -/
  waiting : ∀ spec, c.WaitsWith spec → spec = c.value ∨ c.seen ≠ c.version
  /-- When updates arrived during a run, and none after it, there is one rerun for a change,
      it is the next run, and it uses the last of them. -/
  folds : ∀ later run earlier ended, c.log = later ++ run :: earlier → run.ended = some ended →
    run.version < ended.version → ended.version = c.version → later = [] ∨
      ∃ timers rerun, later = timers ++ [rerun] ∧ rerun.cause = .specChanged ∧
        rerun.spec = c.value ∧ ∀ run ∈ timers, ∃ d, run.cause = .timer d
  /-- Until the controller is stopped, a pending change leads to a run. -/
  answered : ¬ c.Stopped → c.BetweenRuns → c.Pending →
    Inevitable (Controller.RunnerStep mulF64) Controller.Running c
  /-- A run after the first was started by a change, or by a timer of the wait computed from
      the result of the run before. -/
  caused : ∀ later run before earlier, c.log = later ++ run :: before :: earlier →
    ∃ ended, before.ended = some ended ∧
      (run.cause = .specChanged ∨ ∃ d, run.cause = .timer d ∧
        nextWait mulF64 before.spec ended.result ended.errors ended.sample = .ok (.for d)) ∧
      (Parks before.spec ended.result → run.cause = .specChanged)

/-! ### The history of the runs -/

/-- How a run follows the one before it. -/
structure Follows (mulF64 : Duration → Float → Checked Duration) (newer older : RunRecord Job)
    (ended : Ended) : Prop where
  before : older.ended = some ended
  cause : (∃ d, newer.cause = .timer d ∧ newer.seen = older.seen ∧ ended.version = older.seen ∧
      nextWait mulF64 older.spec ended.result ended.errors ended.sample = .ok (.for d)) ∨
    (newer.cause = .specChanged ∧ older.seen < newer.seen ∧ ended.version ≤ newer.seen)

/-- The runs of a controller, the newest first. -/
inductive History (mulF64 : Duration → Float → Checked Duration) : List (RunRecord Job) → Prop
  | nil : History mulF64 []
  | first (run : RunRecord Job) : History mulF64 [run]
  | next (newer older : RunRecord Job) (rest : List (RunRecord Job)) (ended : Ended)
      (h : Follows mulF64 newer older ended) (hrest : History mulF64 (older :: rest)) :
      History mulF64 (newer :: older :: rest)

theorem History.drop (later : List (RunRecord Job)) {rest : List (RunRecord Job)}
    (h : History mulF64 (later ++ rest)) : History mulF64 rest := by
  induction later with
  | nil => exact h
  | cons run later ih =>
    apply ih
    rw [List.cons_append] at h
    generalize later ++ rest = runs at h
    cases h with
    | first => exact .nil
    | next _ _ _ _ _ hrest => exact hrest

/-- That a run has ended changes nothing in what came before it. -/
theorem History.setHead {run run' : RunRecord Job} {rest : List (RunRecord Job)}
    (h : History mulF64 (run :: rest)) (hcause : run'.cause = run.cause)
    (hseen : run'.seen = run.seen) : History mulF64 (run' :: rest) := by
  cases h with
  | first => exact .first run'
  | next _ older rest ended hfollows hrest =>
    refine .next run' older rest ended ⟨hfollows.before, ?_⟩ hrest
    rw [hcause, hseen]
    exact hfollows.cause

/-- The versions the runs were read at only grow. -/
theorem History.seen_le {run : RunRecord Job} {rest : List (RunRecord Job)}
    (h : History mulF64 (run :: rest)) : ∀ older ∈ rest, older.seen ≤ run.seen := by
  generalize hruns : run :: rest = runs at h
  induction h generalizing run rest with
  | nil => cases hruns
  | first =>
    obtain ⟨rfl, rfl⟩ := List.cons.inj hruns
    intro older hmem
    cases hmem
  | next newer prev rest' ended hfollows hrest ih =>
    obtain ⟨rfl, rfl⟩ := List.cons.inj hruns
    have hprev : prev.seen ≤ run.seen := by
      rcases hfollows.cause with ⟨_, _, hseen, _⟩ | ⟨_, hlt, _⟩ <;> omega
    intro older hmem
    rcases List.mem_cons.mp hmem with rfl | hmem
    · exact hprev
    · exact Nat.le_trans (ih rfl older hmem) hprev

/-- Behind a run that has seen the latest version only timers start runs. -/
theorem History.timers {later rest : List (RunRecord Job)} {run : RunRecord Job} {version : Nat}
    (h : History mulF64 (later ++ run :: rest)) (hseen : run.seen = version)
    (hlater : ∀ newer ∈ later, newer.seen ≤ version) :
    ∀ newer ∈ later, ∃ d, newer.cause = .timer d := by
  induction later with
  | nil =>
    intro newer hmem
    cases hmem
  | cons newest later ih =>
    have htail : History mulF64 (later ++ run :: rest) := h.drop [newest]
    have hrest := ih htail fun newer hmem => hlater newer (List.mem_cons_of_mem _ hmem)
    intro newer hmem
    rcases List.mem_cons.mp hmem with rfl | hmem
    · -- The run before it has seen the latest version already.
      rw [List.cons_append] at h
      generalize hruns : later ++ run :: rest = runs at h htail
      cases h with
      | first => simp at hruns
      | next _ older rest' ended hfollows hrest' =>
        rcases hfollows.cause with ⟨d, hcause, _⟩ | ⟨_, hlt, _⟩
        · exact ⟨d, hcause⟩
        · exfalso
          -- A change of the spec would have been read by a run with a newer version than the
          -- latest.
          have hle : version ≤ older.seen := by
            cases later with
            | nil =>
              obtain ⟨rfl, -⟩ := List.cons.inj hruns
              exact Nat.le_of_eq hseen.symm
            | cons first later =>
              obtain ⟨rfl, htl⟩ := List.cons.inj hruns
              have := htail.seen_le run (by rw [← htl]; simp)
              omega
          have hnewest := hlater newer List.mem_cons_self
          omega
    · exact hrest newer hmem

/-! ### The invariant of one controller -/

/-- After a run, at a poll of the wait computed from its result.  With `checked`, no change
    was there at the last poll of the channel. -/
def AfterRun (mulF64 : Duration → Float → Checked Duration) (c : Controller Job)
    (spec : Spec Job) (wait : Wait) (checked : Prop) : Prop :=
  ∃ run rest ended, c.log = run :: rest ∧ run.ended = some ended ∧ run.spec = spec ∧
    run.seen = c.seen ∧ run.version ≤ ended.version ∧ ended.version ≤ c.version ∧
    nextWait mulF64 spec ended.result ended.errors ended.sample = .ok wait ∧
    (checked → ended.version = c.seen)

/-- What is known at each place of the task. -/
def AtPc (mulF64 : Duration → Float → Checked Duration) (c : Controller Job) :
    RunnerPc Job → Prop
  | .spawned => c.log = []
  | .job spec => ∃ run rest, c.log = run :: rest ∧ run.spec = spec ∧ run.seen = c.seen
  | .waiting spec wait => AfterRun mulF64 c spec wait False
  | .polledCancel spec wait => AfterRun mulF64 c spec wait False
  | .polledChanged spec wait => AfterRun mulF64 c spec wait True
  | .woken _ => ∃ run rest ended, c.log = run :: rest ∧ run.ended = some ended ∧
      run.seen < c.seen ∧ ended.version ≤ c.seen
  | .stopping _ => c.Stopped
  | .terminated => c.Stopped
  | .panicked => True

/-- The invariant of a controller. -/
structure Inv (mulF64 : Duration → Float → Checked Duration) (c : Controller Job) : Prop where
  seen : c.seen ≤ c.version
  history : History mulF64 c.log
  /-- A run was read at a version that was there when it started. -/
  reads : ∀ run ∈ c.log, run.seen ≤ run.version ∧ run.version ≤ c.version
  /-- A run read at the latest version has the latest spec. -/
  latest : ∀ run ∈ c.log, run.seen = c.version → run.spec = c.value
  pc : AtPc mulF64 c c.pc

theorem AfterRun.mono {checked checked' : Prop} (h : AfterRun mulF64 c spec wait checked)
    (hc : checked' → checked) : AfterRun mulF64 c spec wait checked' := by
  obtain ⟨run, rest, ended, hlog, hended, hspec, hseen, hstart, hversion, hwait, hchecked⟩ := h
  exact ⟨run, rest, ended, hlog, hended, hspec, hseen, hstart, hversion, hwait, hchecked ∘ hc⟩

theorem inv_spawned (spec : Spec Job) : Inv mulF64 { value := spec : Controller Job } := by
  refine ⟨Nat.le_refl 0, .nil, fun run hmem => ?_, fun run hmem => ?_, rfl⟩
  · cases hmem
  · cases hmem

/-- What is known of the newest run depends on the version and the tokens only so far. -/
theorem AtPc.later {pc : RunnerPc Job} (h : AtPc mulF64 c pc) (hlog : d.log = c.log)
    (hseen : d.seen = c.seen) (hversion : c.version ≤ d.version)
    (hstopped : c.Stopped → d.Stopped) :
    AtPc mulF64 d pc := by
  have hafter : ∀ {spec wait} {checked : Prop}, AfterRun mulF64 c spec wait checked →
      AfterRun mulF64 d spec wait checked := by
    rintro spec wait checked ⟨run, rest, ended, hruns, hended, hspec, hread, hstart, hend, h⟩
    rw [AfterRun, hlog, hseen]
    exact ⟨run, rest, ended, hruns, hended, hspec, hread, hstart, Nat.le_trans hend hversion, h⟩
  cases pc with
  | spawned => exact hlog.trans h
  | job spec =>
    rw [AtPc, hlog, hseen]
    exact h
  | waiting spec wait => exact hafter h
  | polledCancel spec wait => exact hafter h
  | polledChanged spec wait => exact hafter h
  | woken spec =>
    rw [AtPc, hlog, hseen]
    exact h
  | stopping spec => exact hstopped h
  | terminated => exact hstopped h
  | panicked => trivial

/-- **Step.** An update keeps the invariant. -/
theorem Inv.send (h : Inv mulF64 c) (new : Spec Job) : Inv mulF64 (c.send new) := by
  refine ⟨Nat.le_succ_of_le h.seen, h.history, fun run hmem => ?_, fun run hmem hseen => ?_, ?_⟩
  · exact ⟨(h.reads run hmem).1, Nat.le_succ_of_le (h.reads run hmem).2⟩
  · have hreads := h.reads run hmem
    have hlt : run.seen = c.version + 1 := hseen
    omega
  · exact h.pc.later rfl rfl (Nat.le_succ _) fun hstopped => hstopped

/-- **Step.** A stop keeps the invariant. -/
theorem Inv.stop (h : Inv mulF64 c) : Inv mulF64 c.stop :=
  ⟨h.seen, h.history, h.reads, h.latest, h.pc.later rfl rfl (Nat.le_refl _) fun _ => .inl rfl⟩

/-- Nothing but the place of the task changes. -/
theorem Inv.setPc (h : Inv mulF64 c) (pc : RunnerPc Job) (hpc : AtPc mulF64 c pc) :
    Inv mulF64 { c with pc := pc } :=
  ⟨h.seen, h.history, h.reads, h.latest, hpc.later rfl rfl (Nat.le_refl _) fun h => h⟩

/-- A run that reads the channel has the latest spec. -/
theorem Inv.runLatest (h : Inv mulF64 c) (cause : Cause)
    (hhistory : History mulF64 (c.runLatest cause).log) : Inv mulF64 (c.runLatest cause) := by
  refine ⟨Nat.le_refl _, hhistory, fun run hmem => ?_, fun run hmem hseen => ?_, ?_⟩
  · rcases List.mem_cons.mp hmem with rfl | hmem
    · exact ⟨Nat.le_refl _, Nat.le_refl _⟩
    · exact h.reads run hmem
  · rcases List.mem_cons.mp hmem with rfl | hmem
    · rfl
    · exact h.latest run hmem hseen
  · exact ⟨_, _, rfl, rfl, rfl⟩

/-- A run ends: the record of the newest run is completed, and the runner waits. -/
theorem Inv.afterRun (h : Inv mulF64 c) {spec : Spec Job} (hat : c.pc = .job spec)
    (result : Except RunError Flow) (r : Float) : Inv mulF64 (c.afterRun mulF64 spec result r) := by
  have hpc := h.pc
  rw [hat] at hpc
  obtain ⟨run, rest, hlog, hspec, hseen⟩ := hpc
  have hreads := h.reads run (by rw [hlog]; exact List.mem_cons_self)
  have hhistory := h.history
  rw [hlog] at hhistory
  have hend : ∀ ended : Ended, c.logEnd ended = { run with ended := some ended } :: rest := by
    intro ended
    rw [Controller.logEnd, hlog]
  have hmem : ∀ run' ∈ rest, run' ∈ c.log := fun run' hmem =>
    hlog ▸ List.mem_cons_of_mem _ hmem
  refine ⟨h.seen, ?_, fun run' hrun => ?_, fun run' hrun hlatest => ?_, ?_⟩
  · rw [Controller.afterRun, hend]
    exact hhistory.setHead rfl rfl
  · rw [Controller.afterRun, hend] at hrun
    rcases List.mem_cons.mp hrun with rfl | hrun
    · exact hreads
    · exact h.reads run' (hmem run' hrun)
  · rw [Controller.afterRun, hend] at hrun
    rcases List.mem_cons.mp hrun with rfl | hrun
    · exact h.latest run (hlog ▸ List.mem_cons_self) hlatest
    · exact h.latest run' (hmem run' hrun) hlatest
  · -- The wait is the one computed from the result, unless computing it panics.
    rw [Controller.afterRun, hend]
    dsimp only
    cases hwait : nextWait mulF64 spec result (recordedErrors c.consecutiveErrors result) r with
    | error p => trivial
    | ok wait =>
      exact ⟨_, rest, _, rfl, rfl, hspec, hseen, hreads.2, Nat.le_refl _, hwait, False.elim⟩

/-- The wait is over: the spec of the newest run is used again, and is still the latest. -/
theorem Inv.runAgain (h : Inv mulF64 c) {spec : Spec Job} {wait : Duration}
    (hat : c.pc = .polledChanged spec (.for wait)) : Inv mulF64 (c.runAgain spec wait) := by
  have hpc := h.pc
  rw [hat] at hpc
  obtain ⟨run, rest, ended, hlog, hended, hspec, hseen, hstart, hle, hwait, hchecked⟩ := hpc
  refine ⟨h.seen, ?_, fun run' hrun => ?_, fun run' hrun hlatest => ?_, ?_⟩
  · have hhistory := h.history
    rw [hlog] at hhistory
    rw [Controller.runAgain, hlog]
    refine .next _ run rest ended ⟨hended, .inl ⟨wait, rfl, hseen.symm, ?_, ?_⟩⟩ hhistory
    · exact (hchecked trivial).trans hseen.symm
    · exact hspec ▸ hwait
  · rcases List.mem_cons.mp hrun with rfl | hrun
    · exact ⟨h.seen, Nat.le_refl _⟩
    · exact h.reads run' hrun
  · rcases List.mem_cons.mp hrun with rfl | hrun
    · have hmem : run ∈ c.log := hlog ▸ List.mem_cons_self
      exact hspec.symm.trans (h.latest run hmem (hseen.trans hlatest))
    · exact h.latest run' hrun hlatest
  · exact ⟨_, _, rfl, rfl, rfl⟩

/-- **Step.** A step of the runner keeps the invariant. -/
theorem Inv.move (h : Inv mulF64 c) (hmove : Controller.Move mulF64 c e d) : Inv mulF64 d := by
  have hpc := h.pc
  cases hmove with
  | start hat =>
    rw [hat] at hpc
    refine h.runLatest .first ?_
    rw [Controller.runLatest, show c.log = [] from hpc]
    exact .first _
  | finish spec result r hat => exact h.afterRun hat result r
  | cancelled spec wait hat hcancelled => exact h.setPc (.stopping spec) (.inl hcancelled)
  | notCancelled spec wait hat =>
    rw [hat] at hpc
    exact h.setPc (.polledCancel spec wait) hpc
  | changed spec wait hat hversion =>
    rw [hat] at hpc
    -- The runner marks the version as seen; the run that reads its spec follows at once.
    obtain ⟨run, rest, ended, hlog, hended, -, hseen, -, hle, -⟩ := hpc
    have hlt : c.seen < c.version := Nat.lt_of_le_of_ne h.seen hversion
    refine ⟨Nat.le_refl _, h.history, h.reads, h.latest, run, rest, ended, hlog, hended, ?_, hle⟩
    exact hseen ▸ hlt
  | senderGone spec wait hat hclosed => exact h.setPc (.stopping spec) (.inr hclosed)
  | unchanged spec wait hat hversion =>
    rw [hat] at hpc
    refine h.setPc (.polledChanged spec wait) ?_
    obtain ⟨run, rest, ended, hlog, hended, hspec, hseen, hstart, hle, hwait, -⟩ := hpc
    have hreads := h.reads run (by rw [hlog]; exact List.mem_cons_self)
    exact ⟨run, rest, ended, hlog, hended, hspec, hseen, hstart, hle, hwait, fun _ => by omega⟩
  | timer spec wait hat => exact h.runAgain hat
  | notReady spec wait hat =>
    rw [hat] at hpc
    exact h.setPc (.waiting spec wait) (hpc.mono False.elim)
  | read spec hat =>
    rw [hat] at hpc
    obtain ⟨run, rest, ended, hlog, hended, hlt, hle⟩ := hpc
    refine h.runLatest .specChanged ?_
    have hhistory := h.history
    rw [hlog] at hhistory
    rw [Controller.runLatest, hlog]
    refine .next _ run rest ended ⟨hended, .inr ⟨rfl, ?_, ?_⟩⟩ hhistory
    · exact Nat.lt_of_lt_of_le hlt h.seen
    · exact Nat.le_trans hle h.seen
  | stopHook spec hat =>
    rw [hat] at hpc
    exact h.setPc .terminated hpc

/-! ### What the invariant promises -/

/-- While the runner waits, its spec is the latest, or a change is pending. -/
theorem Inv.waiting (h : Inv mulF64 c) (hwaits : c.WaitsWith spec) :
    spec = c.value ∨ c.seen ≠ c.version := by
  have hafter : ∃ wait checked, AfterRun mulF64 c spec wait checked := by
    have hpc := h.pc
    obtain ⟨wait, hat | hat | hat⟩ := hwaits
    · rw [hat] at hpc
      exact ⟨wait, _, hpc⟩
    · rw [hat] at hpc
      exact ⟨wait, _, hpc⟩
    · rw [hat] at hpc
      exact ⟨wait, _, hpc⟩
  obtain ⟨wait, checked, run, rest, ended, hlog, -, hspec, hseen, -⟩ := hafter
  by_cases hversion : c.seen = c.version
  · left
    rw [← hspec]
    exact h.latest run (hlog ▸ List.mem_cons_self) (hseen.trans hversion)
  · exact .inr hversion

/-- The updates that arrive during a run lead to one rerun, with the last of them. -/
theorem Inv.folds (h : Inv mulF64 c) {later earlier : List (RunRecord Job)} {run : RunRecord Job}
    {ended : Ended} (hlog : c.log = later ++ run :: earlier) (hended : run.ended = some ended)
    (hupdates : run.version < ended.version) (hlast : ended.version = c.version) :
    later = [] ∨ ∃ timers rerun, later = timers ++ [rerun] ∧ rerun.cause = .specChanged ∧
      rerun.spec = c.value ∧ ∀ run ∈ timers, ∃ d, run.cause = .timer d := by
  have hmem : ∀ run' ∈ later, run' ∈ c.log := by
    intro run' hrun
    rw [hlog]
    exact List.mem_append_left _ hrun
  have hhistory := h.history
  rcases List.eq_nil_or_concat later with hnil | ⟨timers, rerun, rfl⟩
  · exact .inl hnil
  right
  rw [hlog, List.concat_eq_append, List.append_assoc, List.singleton_append] at hhistory
  have hrun := h.reads run (by rw [hlog]; exact List.mem_append_right _ List.mem_cons_self)
  have hrerun := h.reads rerun (hmem rerun (by simp))
  -- The next run cannot be the timer's: the runner polls the channel first.
  have hfollows : rerun.cause = .specChanged ∧ ended.version ≤ rerun.seen := by
    have htail := hhistory.drop timers
    cases htail with
    | next _ _ _ ended' hfollows _ =>
      obtain rfl : ended' = ended := Option.some.inj (hfollows.before.symm.trans hended)
      rcases hfollows.cause with ⟨_, _, _, hversion, _⟩ | ⟨hcause, _, hle⟩
      · omega
      · exact ⟨hcause, hle⟩
  have hseen : rerun.seen = c.version := by omega
  refine ⟨timers, rerun, List.concat_eq_append, hfollows.1, ?_, ?_⟩
  · exact h.latest rerun (hmem rerun (by simp)) hseen
  · refine hhistory.timers hseen fun newer hnewer => ?_
    have hreads := h.reads newer (hmem newer (by simp [hnewer]))
    omega

theorem nextWait_parks {result : Except RunError Flow} {errors : Nat} {r : Float}
    (h : Parks spec result) : nextWait mulF64 spec result errors r = .ok .untilUpdate := by
  rcases h with rfl | ⟨⟨error, rfl⟩, hbackoff, hinterval⟩
  · rfl
  · rw [nextWait, hbackoff, hinterval]
    rfl

/-- Every run after the first has its cause. -/
theorem Inv.caused (h : Inv mulF64 c) {later earlier : List (RunRecord Job)}
    {run before : RunRecord Job} (hlog : c.log = later ++ run :: before :: earlier) :
    ∃ ended, before.ended = some ended ∧
      (run.cause = .specChanged ∨ ∃ d, run.cause = .timer d ∧
        nextWait mulF64 before.spec ended.result ended.errors ended.sample = .ok (.for d)) ∧
      (Parks before.spec ended.result → run.cause = .specChanged) := by
  have hhistory := h.history
  rw [hlog] at hhistory
  cases hhistory.drop later with
  | next _ _ _ ended hfollows _ =>
    refine ⟨ended, hfollows.before, ?_, fun hparks => ?_⟩
    · rcases hfollows.cause with ⟨d, hcause, _, _, hwait⟩ | ⟨hcause, _⟩
      · exact .inr ⟨d, hcause, hwait⟩
      · exact .inl hcause
    · rcases hfollows.cause with ⟨d, _, _, _, hwait⟩ | ⟨hcause, _⟩
      · rw [nextWait_parks hparks] at hwait
        cases hwait
      · exact hcause

/-- The runner is gone, and the latest change of a controller that was not stopped has had no
    run. -/
def Controller.Deaf (c : Controller Job) : Prop :=
  c.pc = .panicked ∧ c.Pending ∧ ¬ c.Stopped

/-- A change that was reported is read, and the job is run. -/
theorem inevitable_of_woken (hat : c.pc = .woken spec) :
    Inevitable (Controller.RunnerStep mulF64) Controller.Running c := by
  refine .next c ⟨.borrowAndUpdate, _, by rw [Controller.RunnerStep, Controller.advance, hat]⟩ ?_
  intro e d hstep
  cases hstep.move with
  | read => exact .now _ ⟨_, rfl⟩
  | _ => simp_all

/-- A poll of the channel reports the change. -/
theorem inevitable_of_polledCancel (hat : c.pc = .polledCancel spec wait) (hopen : ¬ c.Stopped)
    (hpending : c.seen ≠ c.version) :
    Inevitable (Controller.RunnerStep mulF64) Controller.Running c := by
  refine .next c ⟨.pollChanged, _, by
    rw [Controller.RunnerStep, Controller.advance, hat]
    exact if_pos hpending⟩ ?_
  intro e d hstep
  cases hstep.move with
  | changed spec => exact inevitable_of_woken rfl
  | senderGone _ _ _ hclosed => exact absurd (.inr hclosed) hopen
  | unchanged _ _ _ hversion => exact absurd hversion hpending
  | _ => simp_all

/-- The wait starts with a look for a stop, and then for a change. -/
theorem inevitable_of_waiting (hat : c.pc = .waiting spec wait) (hopen : ¬ c.Stopped)
    (hpending : c.seen ≠ c.version) :
    Inevitable (Controller.RunnerStep mulF64) Controller.Running c := by
  refine .next c ⟨.pollCancelled, _, by rw [Controller.RunnerStep, Controller.advance, hat]⟩ ?_
  intro e d hstep
  cases hstep.move with
  | cancelled _ _ _ hcancelled => exact absurd (.inl hcancelled) hopen
  | notCancelled spec wait => exact inevitable_of_polledCancel rfl hopen hpending
  | _ => simp_all

/-- A change that comes after the poll of the channel is seen by the next one, unless the
    timer starts a run before. -/
theorem inevitable_of_polledChanged (hat : c.pc = .polledChanged spec wait) (hopen : ¬ c.Stopped)
    (hpending : c.seen ≠ c.version) :
    Inevitable (Controller.RunnerStep mulF64) Controller.Running c := by
  refine .next c ⟨.pollTimer false, { c with pc := .waiting spec wait }, ?_⟩ ?_
  · rw [Controller.RunnerStep, Controller.advance, hat]
    cases wait <;> rfl
  intro e d hstep
  cases hstep.move with
  | timer => exact .now _ ⟨_, rfl⟩
  | notReady spec wait => exact inevitable_of_waiting rfl hopen hpending
  | _ => simp_all

/-- A runner that is gone takes no step. -/
theorem panicked_stuck (hat : c.pc = .panicked) (e : RunnerEvent) (d : Controller Job) :
    ¬ c.RunnerStep mulF64 e d := by
  intro hstep
  cases hstep.move <;> simp_all

/-- Of a runner that is gone, no change is answered. -/
theorem Faithful.not_deaf (h : Faithful mulF64 c) : ¬ c.Deaf := by
  rintro ⟨hat, hpending, hopen⟩
  have hbetween : c.BetweenRuns := by
    rw [Controller.BetweenRuns, Controller.Running, hat]
    refine ⟨?_, ?_⟩
    · intro h
      cases h
    · rintro ⟨_, h⟩
      cases h
  obtain ⟨spec, hjob⟩ :=
    (h.answered hopen hbetween hpending).of_stuck (panicked_stuck hat)
  rw [hat] at hjob
  cases hjob

/-- **One controller** is faithful if and only if it is not deaf. -/
theorem Inv.faithful_iff (h : Inv mulF64 c) : Faithful mulF64 c ↔ ¬ c.Deaf := by
  constructor
  · exact fun hfaithful => hfaithful.not_deaf
  · intro hdeaf
    refine ⟨fun spec => h.waiting, fun later run earlier ended => h.folds, ?_,
      fun later run before earlier => h.caused⟩
    rintro hopen ⟨hspawned, hjob⟩ hpending
    -- While the runner waits, the newest run was read at the version it has seen.
    have hversion : ∀ {spec wait} {checked : Prop}, AfterRun mulF64 c spec wait checked →
        c.seen ≠ c.version := by
      rintro spec wait checked ⟨run, rest, _, hlog, -, -, hseen, -⟩
      exact hseen ▸ hpending run rest hlog
    have hpc := h.pc
    cases hat : c.pc with
    | spawned => exact absurd hat hspawned
    | job spec => exact absurd ⟨spec, hat⟩ hjob
    | waiting spec wait =>
      rw [hat] at hpc
      exact inevitable_of_waiting hat hopen (hversion hpc)
    | polledCancel spec wait =>
      rw [hat] at hpc
      exact inevitable_of_polledCancel hat hopen (hversion hpc)
    | polledChanged spec wait =>
      rw [hat] at hpc
      exact inevitable_of_polledChanged hat hopen (hversion hpc)
    | woken spec => exact inevitable_of_woken hat
    | stopping spec =>
      rw [hat] at hpc
      exact absurd hpc hopen
    | terminated =>
      rw [hat] at hpc
      exact absurd hpc hopen
    | panicked =>
      -- Nobody is left to react: this is the deaf controller.
      exact absurd ⟨hat, hpending, hopen⟩ hdeaf

/-! ### Runs of the manager -/

/-- The retry delay of the run overflows: computing it panics. -/
def Controller.Overflows (mulF64 : Duration → Float → Checked Duration) (c : Controller Job)
    (spec : Spec Job) (result : Except RunError Flow) (r : Float) : Prop :=
  (∃ error, result = .error error) ∧ ∃ panic, spec.backoff.jittered mulF64
    (recordedErrors c.consecutiveErrors result) r = .error panic

/-- No update is pending at the end of a run whose retry delay overflows, and none is sent
    to the controller after it. -/
def Heeded (mulF64 : Duration → Float → Checked Duration) (m : Manager Job) :
    ManagerEvent Job → Manager Job → Prop
  | .update name _, _ => ∀ id c, m.entries name = some id → m.controllers id = some c →
      ¬ c.pc = .panicked
  | .runner id (.finish result r), _ => ∀ c spec, m.controllers id = some c →
      c.pc = .job spec → c.Overflows mulF64 spec result r → c.Stopped ∨ c.seen = c.version
  | _, _ => True

theorem nextWait_error_iff {c : Controller Job} {result : Except RunError Flow} {r : Float} :
    (∃ panic, nextWait mulF64 spec result (recordedErrors c.consecutiveErrors result) r =
      .error panic) ↔ c.Overflows mulF64 spec result r := by
  cases result with
  | ok flow =>
    constructor
    · rintro ⟨panic, h⟩
      cases flow <;> cases h
    · rintro ⟨⟨error, h⟩, -⟩
      cases h
  | error error =>
    rw [nextWait, Controller.Overflows]
    cases hjitter : spec.backoff.jittered mulF64
        (recordedErrors c.consecutiveErrors (.error error)) r with
    | ok delay =>
      constructor
      · rintro ⟨panic, h⟩
        cases h
      · rintro ⟨-, panic, h⟩
        cases h
    | error panic => exact ⟨fun _ => ⟨⟨error, rfl⟩, panic, rfl⟩, fun _ => ⟨panic, rfl⟩⟩

variable {m t : Manager Job} {a : ManagerEvent Job}

/-- Every controller of the manager is faithful. -/
def Manager.AllFaithful (mulF64 : Duration → Float → Checked Duration) (m : Manager Job) : Prop :=
  ∀ id c, m.controllers id = some c → Faithful mulF64 c

/-- The invariant of the manager. -/
def Manager.AllInv (mulF64 : Duration → Float → Checked Duration) (m : Manager Job) : Prop :=
  m.Entered ∧ ∀ id c, m.controllers id = some c → Inv mulF64 c

/-- **Step.** -/
theorem Manager.AllInv.step (hm : m.AllInv mulF64) (h : Step mulF64 m a t) : t.AllInv mulF64 := by
  refine ⟨hm.1.step h, fun id d hd => ?_⟩
  cases h.change hd with
  | spawned spec => exact inv_spawned spec
  | same _ hc => exact hm.2 id d hc
  | sent c hc name spec => exact (hm.2 id c hc).send _
  | stopped c hc => exact (hm.2 id c hc).stop
  | moved c _ hc e _ hmove => exact (hm.2 id c hc).move hmove

/-- With the invariant, what can go wrong is that a controller is deaf. -/
theorem Manager.AllInv.allFaithful_iff (hm : m.AllInv mulF64) :
    m.AllFaithful mulF64 ↔ ∀ id c, m.controllers id = some c → ¬ c.Deaf :=
  forall_congr' fun id => forall_congr' fun c => imp_congr_right fun hc =>
    (hm.2 id c hc).faithful_iff

/-- The task of a run whose retry delay overflows is gone after it. -/
theorem afterRun_pc_panicked_iff {result : Except RunError Flow} {r : Float} :
    (c.afterRun mulF64 spec result r).pc = .panicked ↔ c.Overflows mulF64 spec result r := by
  rw [← nextWait_error_iff, Controller.afterRun]
  dsimp only
  cases nextWait mulF64 spec result (recordedErrors c.consecutiveErrors result) r with
  | ok wait =>
    constructor
    · intro h
      cases h
    · rintro ⟨panic, h⟩
      cases h
  | error panic => exact ⟨fun _ => ⟨panic, rfl⟩, fun _ => rfl⟩

theorem Controller.pending_iff {run : RunRecord Job} {rest : List (RunRecord Job)}
    (hlog : c.log = run :: rest) : c.Pending ↔ run.seen ≠ c.version := by
  rw [Controller.Pending, hlog]
  constructor
  · intro hpending
    exact hpending run rest rfl
  · rintro hversion _ _ ⟨⟩
    exact hversion

/-- In a run and after it, a change is pending when the version that the runner has seen is
    old. -/
theorem Inv.pending_job (h : Inv mulF64 c) (hat : c.pc = .job spec) :
    c.Pending ↔ c.seen ≠ c.version := by
  have hpc := h.pc
  rw [hat] at hpc
  obtain ⟨run, rest, hlog, -, hseen⟩ := hpc
  rw [Controller.pending_iff hlog, hseen]

theorem Inv.pending_afterRun (h : Inv mulF64 c) {result : Except RunError Flow} {r : Float}
    (hat : c.pc = .job spec) : (c.afterRun mulF64 spec result r).Pending ↔ c.Pending := by
  have hpc := h.pc
  rw [hat] at hpc
  obtain ⟨run, rest, hlog, -⟩ := hpc
  -- The newest run gets its end, and keeps the version it was read at.
  obtain ⟨ended, hended⟩ : ∃ ended, (c.afterRun mulF64 spec result r).log =
      { run with ended := some ended } :: rest := by
    rw [Controller.afterRun, Controller.logEnd, hlog]
    exact ⟨_, rfl⟩
  rw [Controller.pending_iff hlog, Controller.pending_iff hended]
  exact Iff.rfl

/-- **Step.** From a manager whose controllers are faithful, a step leads to such a manager
    if and only if it is heeded. -/
theorem allFaithful_step_iff (h : Step mulF64 m a t) (hfaithful : m.AllFaithful mulF64)
    (hm : m.AllInv mulF64) : t.AllFaithful mulF64 ↔ Heeded mulF64 m a t := by
  rw [(hm.step h).allFaithful_iff]
  rw [hm.allFaithful_iff] at hfaithful
  constructor
  · intro hgood
    cases a with
    | update name spec =>
      -- An update of a panicked controller makes it deaf, as its entry is still open.
      intro id c hentry hc hgone
      obtain rfl : t = m.update name spec := h
      obtain ⟨c', hc', hopen⟩ := hm.1.live name id hentry
      obtain rfl := Option.some.inj (hc'.symm.trans hc)
      have hsent : (m.update name spec).controllers id = some (c'.send (m.normalize spec)) := by
        unfold Manager.update
        split
        next id' hentry' =>
          obtain rfl := Option.some.inj (hentry.symm.trans hentry')
          rw [controllers_modify, if_pos rfl, hc]
          rfl
        next hnone =>
          rw [hentry] at hnone
          cases hnone
      refine hgood id _ hsent ⟨hgone, fun run rest hlog => ?_, hopen⟩
      have hlog' : c'.log = run :: rest := hlog
      have hreads := (hm.2 id c' hc).reads run (by rw [hlog']; exact List.mem_cons_self)
      show run.seen ≠ c'.version + 1
      omega
    | runner id e =>
      cases e with
      | finish result r =>
        -- The step panics, so the controller must be stopped or have seen everything.
        intro c spec hc hat hoverflows
        obtain ⟨c₀, d, hc₀, hstep, rfl⟩ := h
        obtain rfl := Option.some.inj (hc₀.symm.trans hc)
        cases hstep.move with
        | finish spec' _ _ hat' =>
          obtain rfl : spec = spec' := by
            rw [hat] at hat'
            exact RunnerPc.job.inj hat'
          have hafter : (m.modify id fun _ => c₀.afterRun mulF64 spec result r).controllers id =
              some (c₀.afterRun mulF64 spec result r) := by
            rw [controllers_modify, if_pos rfl, hc]
            rfl
          by_contra hcontra
          obtain ⟨hopen, hversion⟩ := not_or.mp hcontra
          refine hgood id _ hafter ⟨afterRun_pc_panicked_iff.mpr hoverflows, ?_, hopen⟩
          rwa [(hm.2 id c₀ hc).pending_afterRun hat, (hm.2 id c₀ hc).pending_job hat]
      | _ => trivial
    | _ => trivial
  · rintro hheeded id d hd ⟨hgone, hpending, hopen⟩
    cases h.change hd with
    | spawned spec => cases hgone
    | same _ hc => exact hfaithful id d hc ⟨hgone, hpending, hopen⟩
    | sent c hc name spec ha hentry =>
      subst ha
      exact hheeded id c hentry hc hgone
    | stopped c hc => exact hopen (.inl rfl)
    | moved c _ hc e ha hmove =>
      subst ha
      cases hmove with
      | finish spec result r hat =>
        rcases hheeded c spec hc hat (afterRun_pc_panicked_iff.mp hgone) with hstop | hsame
        · exact hopen hstop
        · rw [(hm.2 id c hc).pending_afterRun hat, (hm.2 id c hc).pending_job hat] at hpending
          exact hpending hsame
      | _ => cases hgone

/-! ### Tasks that are unwound -/

/-- What a panic outside `catch_panic` leaves of a controller, but for the one of `jittered`. -/
inductive Controller.Unwinds (mulF64 : Duration → Float → Checked Duration) (c : Controller Job) :
    Controller Job → Prop
  /-- `record` or the log line after it: the observer panics, or the display of the error. -/
  | record (spec : Spec Job) (result : Except RunError Flow) (r : Float) (h : c.pc = .job spec) :
      Unwinds mulF64 c { c.afterRun mulF64 spec result r with pc := .panicked }
  /-- A value that is dropped between two runs panics: the result, or the old spec. -/
  | drop (h : c.BetweenRuns) : Unwinds mulF64 c { c with pc := .panicked }

/-- A step of the manager or of a runner, or the task of a controller is unwound. -/
inductive SystemEvent (Job : Type)
  | step (a : ManagerEvent Job)
  | unwind (id : Nat)

def SystemStep (mulF64 : Duration → Float → Checked Duration) (m : Manager Job) :
    SystemEvent Job → Manager Job → Prop
  | .step a, t => Step mulF64 m a t
  | .unwind id, t => ∃ c d, m.controllers id = some c ∧ c.Unwinds mulF64 d ∧
      t = m.modify id fun _ => d

/-- A step is heeded, and a task is unwound when no change is pending. -/
def SystemHeeded (mulF64 : Duration → Float → Checked Duration) (m : Manager Job) :
    SystemEvent Job → Manager Job → Prop
  | .step a, t => Heeded mulF64 m a t
  | .unwind id, _ => ∀ c, m.controllers id = some c → c.Stopped ∨ ¬ c.Pending

theorem Inv.unwinds (h : Inv mulF64 c) (hunwinds : c.Unwinds mulF64 d) : Inv mulF64 d := by
  cases hunwinds with
  | record spec result r hat => exact (h.afterRun hat result r).setPc .panicked trivial
  | drop => exact h.setPc .panicked trivial

theorem Controller.Unwinds.stopped_iff (h : c.Unwinds mulF64 d) : d.Stopped ↔ c.Stopped := by
  cases h with
  | record => exact Iff.rfl
  | drop => exact Iff.rfl

/-- A controller whose task is unwound is deaf when a change is pending. -/
theorem Inv.unwinds_deaf_iff (h : Inv mulF64 c) (hunwinds : c.Unwinds mulF64 d) :
    d.Deaf ↔ c.Pending ∧ ¬ c.Stopped := by
  rw [Controller.Deaf, hunwinds.stopped_iff]
  cases hunwinds with
  | record spec result r hat =>
    rw [and_iff_right rfl]
    exact and_congr_left fun _ => h.pending_afterRun hat
  | drop => exact and_iff_right rfl

theorem Manager.AllInv.unwind {id : Nat} (hm : m.AllInv mulF64)
    (hc : m.controllers id = some c) (h : c.Unwinds mulF64 d) :
    (m.modify id fun _ => d).AllInv mulF64 := by
  refine ⟨hm.1.modify fun c' hc' hopen => ?_, fun i d' hd' => ?_⟩
  · obtain rfl := Option.some.inj (hc'.symm.trans hc)
    exact fun hstop => hopen (h.stopped_iff.mp hstop)
  · rw [controllers_modify] at hd'
    split_ifs at hd' with hi
    · obtain ⟨_, -, rfl⟩ := Option.map_eq_some_iff.mp hd'
      exact (hm.2 id c hc).unwinds h
    · exact hm.2 i d' hd'

theorem Manager.AllInv.systemStep {a : SystemEvent Job} (hm : m.AllInv mulF64)
    (h : SystemStep mulF64 m a t) : t.AllInv mulF64 := by
  cases a with
  | step a => exact hm.step h
  | unwind id =>
    obtain ⟨c, d, hc, hunwinds, rfl⟩ := h
    exact hm.unwind hc hunwinds

/-- **Step.** -/
theorem allFaithful_systemStep_iff {a : SystemEvent Job} (h : SystemStep mulF64 m a t)
    (hfaithful : m.AllFaithful mulF64) (hm : m.AllInv mulF64) :
    t.AllFaithful mulF64 ↔ SystemHeeded mulF64 m a t := by
  cases a with
  | step a => exact allFaithful_step_iff h hfaithful hm
  | unwind id =>
    obtain ⟨c, d, hc, hunwinds, rfl⟩ := h
    have hd : (m.modify id fun _ => d).controllers id = some d := by
      rw [controllers_modify, if_pos rfl, hc]
      rfl
    rw [(hm.unwind hc hunwinds).allFaithful_iff]
    rw [hm.allFaithful_iff] at hfaithful
    constructor
    · intro hgood c' hc'
      obtain rfl := Option.some.inj (hc.symm.trans hc')
      have hdeaf := hgood id d hd
      rw [(hm.2 id c hc).unwinds_deaf_iff hunwinds] at hdeaf
      by_cases hstopped : c.Stopped
      · exact .inl hstopped
      · exact .inr fun hpending => hdeaf ⟨hpending, hstopped⟩
    · intro hheeded i d' hd'
      rw [controllers_modify] at hd'
      split_ifs at hd' with hi
      · obtain ⟨_, -, rfl⟩ := Option.map_eq_some_iff.mp hd'
        rw [(hm.2 id c hc).unwinds_deaf_iff hunwinds]
        rintro ⟨hpending, hopen⟩
        rcases hheeded c hc with hstopped | hseen
        · exact hopen hstopped
        · exact hseen hpending
      · exact hfaithful i d' hd'

/-- **No update is lost** in those runs in which no update is pending when a task is unwound,
    by a retry delay that overflows or by any other panic, and none is sent to it after that;
    and in no other. -/
theorem faithful_always_iff (mulF64 : Duration → Float → Checked Duration)
    (maxInterval : Option Duration) {m : Manager Job}
    (run : Run (SystemStep mulF64) (Manager.new maxInterval) m) :
    run.Always (Manager.AllFaithful mulF64) ↔ run.EachStep (SystemHeeded mulF64) := by
  refine Run.always_iff_eachStep (J := Manager.AllInv mulF64) ?_ ⟨entered_new _, ?_⟩ ?_ ?_ run
  · intro id c hc
    cases hc
  · intro id c hc
    cases hc
  · exact fun m a t h _ hm _ => hm.systemStep h
  · exact fun m a t h hfaithful hm => allFaithful_systemStep_iff h hfaithful hm

/-! ### An update that is lost -/

/-- The scaling of a duration by one, as it is in floating point: it overflows where the
    seconds round up to `2 ^ 64`. -/
def mulOne (d : Duration) (_ : Float) : Checked Duration :=
  if 2 ^ 64 - 1024 ≤ d.secs then .error .arithmeticOverflow else .ok d

/-- A spec whose retries wait for as long as a duration can be. -/
def longest : Spec Unit := { job := (), backoff := .linear Duration.max Duration.max }

/-- The job is updated while it runs and then fails: its retry delay cannot be scaled by one,
    so the task is unwound, and the update is not followed by a run. -/
theorem overflow_loses_update : ∃ (m : Manager Unit)
    (run : Run (SystemStep mulOne) (Manager.new none) m),
    ¬ run.Always (Manager.AllFaithful mulOne) := by
  let spawned : Controller Unit := { value := longest }
  let running := spawned.runLatest .first
  let updated := running.send longest
  let failed : Except RunError Flow := .error (.failed "no route")
  let m₁ := (Manager.new none : Manager Unit).update "a" longest
  let m₂ := m₁.modify 1 fun _ => running
  let m₃ := m₂.update "a" longest
  let m₄ := m₃.modify 1 fun _ => updated.afterRun mulOne longest failed 0.0
  have hstart : SystemStep mulOne m₁ (.step (.runner 1 .start)) m₂ :=
    ⟨spawned, running, rfl, rfl, rfl⟩
  have hfinish : SystemStep mulOne m₃ (.step (.runner 1 (.finish failed 0.0))) m₄ :=
    ⟨updated, _, rfl, rfl, rfl⟩
  have hdelay : longest.backoff.delay 1 = some Duration.max := by decide +kernel
  have hoverflows : updated.Overflows mulOne longest failed 0.0 := by
    refine ⟨⟨_, rfl⟩, .arithmeticOverflow, ?_⟩
    show longest.backoff.jittered mulOne 1 0.0 = _
    unfold Backoff.jittered
    rw [hdelay]
    rfl
  -- Spawned, started, updated during the run, and unwound after it.
  refine ⟨m₄, .snoc _ (.snoc _ (.snoc _ (.snoc _ .nil (.step (.update "a" longest)) m₁ rfl)
    (.step (.runner 1 .start)) m₂ hstart) (.step (.update "a" longest)) m₃ rfl)
    (.step (.runner 1 (.finish failed 0.0))) m₄ hfinish, fun hall => ?_⟩
  have hfaithful := hall.last 1 (updated.afterRun mulOne longest failed 0.0) rfl
  refine hfaithful.not_deaf ⟨afterRun_pc_panicked_iff.mpr hoverflows, ?_, ?_⟩
  · rintro _ _ ⟨⟩
    show (0 : Nat) ≠ 1
    decide
  · rintro (hstop | hstop) <;> cases hstop

end Sarena.Controllers
