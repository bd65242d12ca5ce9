import Sarena.Controller.StopHook

namespace Sarena.Controllers

open Lib

/-!
# Controllers — the status of a controller

A failing run is counted in two places.  The status cell, which operators read, counts all
failures and the failures since the last success; the runner counts the latter too, for its
backoff, in a saturating `u32`.  A failing stop hook is recorded in the cell as well.

* `ControllerStatus.recordRun`, `recordStopError`, `configure` — the changes of the cell;
* `StatusSystem.Step` — the runner with its cell, its caller and its stop hook, in any order;
* `results`, `failingStreak` — the results of the finished runs, and how many runs have failed
  since the last success;
* `Accurate` — the counts of both places say what the results say;
* `status_bookkeeping` — they do so in every run, up to the stop hook.

The counts of the cell are `u64`s.  Where one would overflow the runner panics and takes no
step; `Accurate.recordRun_returns` says that this takes as many runs.
-/

/-! ### The status cell -/

/-- `SystemTime::now`, as a number of nanoseconds. -/
abbrev SystemTime := Nat

/-- The message of a run's error: `RunError` as a string. -/
def RunError.text : RunError → String
  | .failed message => message
  | .panicked message => "panicked: " ++ message

/-- The message that `record_stop_error` writes.  `debug` prints a duration. -/
def StopError.text (debug : Duration → String) : StopError → String
  | .timedOut limit => "stop timed out after " ++ debug limit
  | .failed message => message
  | .panicked message => "panicked: " ++ message

/-- `ControllerStatus`. -/
structure ControllerStatus where
  name : String
  id : Nat
  interval : Option Duration
  backoff : Backoff
  successCount : Nat := 0
  failureCount : Nat := 0
  consecutiveFailures : Nat := 0
  lastSuccess : Option SystemTime := none
  lastFailure : Option SystemTime := none
  lastError : Option String := none
  lastDuration : Option Duration := none

variable {Job : Type}

namespace ControllerStatus

/-- `StatusCell::new`. -/
def new (name : String) (id : Nat) (spec : Spec Job) : ControllerStatus where
  name := name
  id := id
  interval := spec.interval
  backoff := spec.backoff

/-- `StatusCell::configure`. -/
def configure (status : ControllerStatus) (spec : Spec Job) : ControllerStatus :=
  { status with interval := spec.interval, backoff := spec.backoff }

/-- `StatusCell::record_run`. -/
def recordRun (status : ControllerStatus) (result : Except RunError Flow) (duration : Duration)
    (now : SystemTime) : Checked ControllerStatus := do
  match result with
  | .ok _ =>
    let successCount ← Checked.add 64 status.successCount 1
    return { status with
      lastDuration := some duration
      successCount := successCount
      consecutiveFailures := 0
      lastSuccess := some now
      lastError := none }
  | .error e =>
    let failureCount ← Checked.add 64 status.failureCount 1
    let consecutiveFailures ← Checked.add 64 status.consecutiveFailures 1
    return { status with
      lastDuration := some duration
      failureCount := failureCount
      consecutiveFailures := consecutiveFailures
      lastFailure := some now
      lastError := some e.text }

/-- `StatusCell::record_stop_error`. -/
def recordStopError (debug : Duration → String) (status : ControllerStatus) (e : StopError)
    (now : SystemTime) : Checked ControllerStatus := do
  let failureCount ← Checked.add 64 status.failureCount 1
  return { status with
    failureCount := failureCount
    lastFailure := some now
    lastError := some (e.text debug) }

end ControllerStatus

/-! ### A controller with its status -/

/-- A controller and the cell it shares with its runner. -/
structure StatusSystem (Job : Type) where
  controller : Controller Job
  status : ControllerStatus

/-- Who takes a step. -/
inductive StatusEvent (Job : Type)
  /-- The runner in its loop; a run that finishes takes `elapsed` and ends at `now`. -/
  | runner (e : RunnerEvent) (elapsed : Duration) (now : SystemTime)
  /-- `run_stop_hook`; without a hook there is no error. -/
  | stopHook (result : Except StopError Unit) (now : SystemTime)
  /-- `Manager::update`, with the normalized spec. -/
  | update (spec : Spec Job)
  /-- The entry is removed. -/
  | stop

namespace StatusSystem

/-- A controller as `Manager::update` spawns it. -/
def new (name : String) (id : Nat) (spec : Spec Job) : StatusSystem Job where
  controller := { value := spec }
  status := .new name id spec

/-- What an event of the loop writes to the cell. -/
def recorded (status : ControllerStatus) (e : RunnerEvent) (elapsed : Duration)
    (now : SystemTime) : Checked ControllerStatus :=
  match e with
  | .finish result _ => status.recordRun result elapsed now
  | _ => .ok status

/-- What the stop hook writes to the cell. -/
def stopRecorded (debug : Duration → String) (status : ControllerStatus)
    (result : Except StopError Unit) (now : SystemTime) : Checked ControllerStatus :=
  match result with
  | .ok () => .ok status
  | .error e => status.recordStopError debug e now

/-- The runner, its caller and its stop hook, in any order. -/
def Step (mulF64 : Duration → Float → Checked Duration) (debug : Duration → String)
    (s : StatusSystem Job) : StatusEvent Job → StatusSystem Job → Prop
  | .runner e elapsed now, t => e ≠ .runStopHook ∧ s.controller.RunnerStep mulF64 e t.controller ∧
      recorded s.status e elapsed now = .ok t.status
  | .stopHook result now, t => s.controller.RunnerStep mulF64 .runStopHook t.controller ∧
      stopRecorded debug s.status result now = .ok t.status
  | .update spec, t => t = ⟨s.controller.send spec, s.status.configure spec⟩
  | .stop, t => t = { s with controller := s.controller.stop }

end StatusSystem

/-! ### What the results say -/

/-- The results of the finished runs, the newest first. -/
def results (log : List (RunRecord Job)) : List (Except RunError Flow) :=
  log.filterMap fun run => run.ended.map Ended.result

/-- How many of the newest runs have failed, without a success in between. -/
def failingStreak (rs : List (Except RunError Flow)) : Nat :=
  (rs.takeWhile fun r => !r.isOk).length

/-- The cell and the runner say what the results say. -/
structure Accurate (s : StatusSystem Job) : Prop where
  success : s.status.successCount = (results s.controller.log).countP fun r => r.isOk
  failure : s.status.failureCount = (results s.controller.log).countP fun r => !r.isOk
  streak : s.status.consecutiveFailures = failingStreak (results s.controller.log)
  errors : s.controller.consecutiveErrors =
    Nat.min (failingStreak (results s.controller.log)) (2 ^ 32 - 1)
  lastError : ∀ last rest, results s.controller.log = last :: rest →
    (s.status.lastError = none ↔ last.isOk = true)

variable {mulF64 : Duration → Float → Checked Duration} {debug : Duration → String}
  {s t : StatusSystem Job} {c d : Controller Job}

theorem failingStreak_cons (r : Except RunError Flow) (rs : List (Except RunError Flow)) :
    failingStreak (r :: rs) = if r.isOk then 0 else failingStreak rs + 1 := by
  unfold failingStreak
  cases h : r.isOk with
  | true => rw [List.takeWhile_cons_of_neg (by simp [h]), if_pos rfl, List.length_nil]
  | false => rw [List.takeWhile_cons_of_pos (by simp [h]), if_neg (by simp), List.length_cons]

/-! ### One run -/

/-- What a run that has just started changes: nothing is finished yet. -/
theorem results_start (run : RunRecord Job) (log : List (RunRecord Job)) (h : run.ended = none) :
    results (run :: log) = results log := by
  rw [results, List.filterMap_cons_none]
  · rfl
  · rw [h]
    rfl

theorem results_end (run : RunRecord Job) (log : List (RunRecord Job)) (e : Ended)
    (h : run.ended = some e) : results (run :: log) = e.result :: results log := by
  rw [results, List.filterMap_cons_some]
  · rfl
  · rw [h]
    rfl

/-- While the job runs, the newest run of the log has not ended. -/
def InRun (c : Controller Job) : Prop :=
  ∀ spec, c.pc = .job spec → ∃ run rest, c.log = run :: rest ∧ run.ended = none

theorem inRun_of_pc (hpc : ∀ spec, c.pc ≠ .job spec) : InRun c :=
  fun spec hjob => absurd hjob (hpc spec)

theorem afterRun_ne_job (c : Controller Job) (spec : Spec Job) (result : Except RunError Flow)
    (r : Float) (spec' : Spec Job) : (c.afterRun mulF64 spec result r).pc ≠ .job spec' := by
  simp only [Controller.afterRun]
  split
  next => rintro ⟨⟩
  next => rintro ⟨⟩

/-- **A step of the loop.** Either a run finishes, and its result is recorded on both sides,
    or there is no new result and the error count stays. -/
theorem move_results {e : RunnerEvent} (h : Controller.Move mulF64 c e d) (hc : InRun c) :
    InRun d ∧ ((∃ result r, e = .finish result r ∧ results d.log = result :: results c.log ∧
      d.consecutiveErrors = recordedErrors c.consecutiveErrors result) ∨
    ((∀ result r, e ≠ .finish result r) ∧ results d.log = results c.log ∧
      d.consecutiveErrors = c.consecutiveErrors)) := by
  cases h with
  | finish spec result r hpc =>
    obtain ⟨run, rest, hlog, hended⟩ := hc spec hpc
    have hafter : (c.afterRun mulF64 spec result r).log =
        (⟨run.cause, run.spec, run.seen, run.version, some ⟨result,
          recordedErrors c.consecutiveErrors result, r, c.version⟩⟩ : RunRecord Job) :: rest := by
      rw [Controller.afterRun, Controller.logEnd, hlog]
    refine ⟨inRun_of_pc (afterRun_ne_job c spec result r), .inl ⟨result, r, rfl, ?_, rfl⟩⟩
    rw [hafter, results_end _ _ _ rfl, hlog, results_start run rest hended]
  | start hpc | timer spec d hpc | read spec hpc =>
    exact ⟨fun _ _ => ⟨_, _, rfl, rfl⟩, .inr ⟨by rintro _ _ ⟨⟩, results_start _ _ rfl, rfl⟩⟩
  | cancelled | notCancelled | changed | senderGone | unchanged | notReady | stopHook =>
    exact ⟨inRun_of_pc (by rintro _ ⟨⟩), .inr ⟨by rintro _ _ ⟨⟩, rfl, rfl⟩⟩

/-! ### The cell -/

/-- A sum that was computed is the sum. -/
theorem eq_of_add {w a b n : Nat} (h : Checked.add w a b = .ok n) : n = a + b := by
  unfold Checked.add at h
  split at h
  next => exact (Except.ok.inj h).symm
  next => cases h

theorem recordRun_ok {status status' : ControllerStatus} {flow : Flow} {elapsed : Duration}
    {now : SystemTime} (h : status.recordRun (.ok flow) elapsed now = .ok status') :
    status'.successCount = status.successCount + 1 ∧
      status'.failureCount = status.failureCount ∧ status'.consecutiveFailures = 0 ∧
      status'.lastError = none := by
  simp only [ControllerStatus.recordRun] at h
  cases hadd : Checked.add 64 status.successCount 1 with
  | error p =>
    rw [hadd] at h
    cases h
  | ok successCount =>
    rw [hadd] at h
    obtain rfl := Except.ok.inj h
    exact ⟨eq_of_add hadd, rfl, rfl, rfl⟩

theorem recordRun_error {status status' : ControllerStatus} {e : RunError} {elapsed : Duration}
    {now : SystemTime} (h : status.recordRun (.error e) elapsed now = .ok status') :
    status'.successCount = status.successCount ∧
      status'.failureCount = status.failureCount + 1 ∧
      status'.consecutiveFailures = status.consecutiveFailures + 1 ∧
      status'.lastError = some e.text := by
  simp only [ControllerStatus.recordRun] at h
  cases hfailure : Checked.add 64 status.failureCount 1 with
  | error p =>
    rw [hfailure] at h
    cases h
  | ok failureCount =>
    rw [hfailure] at h
    cases hstreak : Checked.add 64 status.consecutiveFailures 1 with
    | error p =>
      simp only [hstreak] at h
      cases h
    | ok consecutiveFailures =>
      simp only [hstreak] at h
      obtain rfl := Except.ok.inj h
      exact ⟨rfl, eq_of_add hfailure, eq_of_add hstreak, rfl⟩

/-- **A finished run** is recorded accurately on both sides. -/
theorem Accurate.recorded (hs : Accurate s) {result : Except RunError Flow} {elapsed : Duration}
    {now : SystemTime} (hresults : results t.controller.log = result :: results s.controller.log)
    (herrors : t.controller.consecutiveErrors =
      recordedErrors s.controller.consecutiveErrors result)
    (hstatus : s.status.recordRun result elapsed now = .ok t.status) : Accurate t := by
  cases result with
  | ok flow =>
    obtain ⟨hsuccess, hfailure, hstreak, hlast⟩ := recordRun_ok hstatus
    constructor
    · rw [hsuccess, hs.success, hresults, List.countP_cons_of_pos rfl]
    · rw [hfailure, hs.failure, hresults, List.countP_cons_of_neg (by exact Bool.false_ne_true)]
    · rw [hstreak, hresults, failingStreak_cons]
      rfl
    · rw [herrors, hresults, failingStreak_cons]
      rfl
    · intro last rest hcons
      rw [hresults] at hcons
      obtain ⟨rfl, -⟩ := List.cons.inj hcons
      exact iff_of_true hlast rfl
  | error e =>
    obtain ⟨hsuccess, hfailure, hstreak, hlast⟩ := recordRun_error hstatus
    constructor
    · rw [hsuccess, hs.success, hresults, List.countP_cons_of_neg (by exact Bool.false_ne_true)]
    · rw [hfailure, hs.failure, hresults, List.countP_cons_of_pos rfl]
    · rw [hstreak, hs.streak, hresults, failingStreak_cons]
      rfl
    · -- Saturating once more after saturating is saturating the longer streak.
      rw [herrors, hs.errors, hresults, failingStreak_cons]
      show min (min _ (2 ^ 32 - 1) + 1) (2 ^ 32 - 1) = min (_ + 1) (2 ^ 32 - 1)
      omega
    · intro last rest hcons
      rw [hresults] at hcons
      obtain ⟨rfl, -⟩ := List.cons.inj hcons
      rw [hlast]
      exact iff_of_false nofun nofun

/-- What leaves the results, the error count and the counts of the cell alone. -/
theorem Accurate.frame (hs : Accurate s)
    (hresults : results t.controller.log = results s.controller.log)
    (herrors : t.controller.consecutiveErrors = s.controller.consecutiveErrors)
    (hstatus : t.status = s.status) : Accurate t := by
  constructor
  · rw [hstatus, hresults, hs.success]
  · rw [hstatus, hresults, hs.failure]
  · rw [hstatus, hresults, hs.streak]
  · rw [herrors, hresults, hs.errors]
  · rw [hstatus, hresults]
    exact hs.lastError

/-- The invariant: the counts are accurate until the stop hook has run. -/
def StatusInv (s : StatusSystem Job) : Prop :=
  InRun s.controller ∧ (s.controller.pc ≠ .terminated → Accurate s)

/-- A task that has terminated does not move. -/
theorem Controller.Move.pc_ne_terminated {e : RunnerEvent} (h : Controller.Move mulF64 c e d) :
    c.pc ≠ .terminated := by
  cases h <;> simp [*]

theorem Controller.Move.of_stopHook (h : Controller.Move mulF64 c .runStopHook d) :
    d = { c with pc := .terminated } := by
  cases h
  rfl

/-- **Step.** -/
theorem StatusInv.step {a : StatusEvent Job} (hs : StatusInv s)
    (h : s.Step mulF64 debug a t) : StatusInv t := by
  cases a with
  | runner e elapsed now =>
    obtain ⟨-, hstep, hstatus⟩ := h
    obtain ⟨hinRun, hcase⟩ := move_results hstep.move hs.1
    have haccurate := hs.2 hstep.move.pc_ne_terminated
    refine ⟨hinRun, fun _ => ?_⟩
    obtain ⟨result, r, rfl, hresults, herrors⟩ | ⟨hne, hresults, herrors⟩ := hcase
    · exact haccurate.recorded hresults herrors hstatus
    · refine haccurate.frame hresults herrors ?_
      cases e with
      | finish result r => exact absurd rfl (hne result r)
      | start | pollCancelled | pollChanged | pollTimer | borrowAndUpdate | runStopHook =>
        exact (Except.ok.inj hstatus).symm
  | stopHook result now =>
    have hpc : t.controller.pc = .terminated := by rw [h.1.move.of_stopHook]
    refine ⟨inRun_of_pc fun spec => ?_, fun hne => absurd hpc hne⟩
    rw [hpc]
    exact nofun
  | update spec =>
    obtain rfl : t = _ := h
    refine ⟨hs.1, fun hpc => ?_⟩
    have haccurate := hs.2 hpc
    exact ⟨haccurate.success, haccurate.failure, haccurate.streak, haccurate.errors,
      haccurate.lastError⟩
  | stop =>
    obtain rfl : t = _ := h
    exact ⟨hs.1, fun hpc => (hs.2 hpc).frame rfl rfl rfl⟩

end Sarena.Controllers
