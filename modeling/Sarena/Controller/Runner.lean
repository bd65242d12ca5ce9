import Mathlib.Tactic.SplitIfs
import Sarena.Lib.Bytes

namespace Sarena.Controllers

open Lib

/-!
# Controllers — the runner and its watch channel

A controller is a task that runs a job over and over.  Its spec comes through a watch
channel, which keeps the latest value and a version; the runner remembers the version it
has seen.  Between two runs it waits for a stop, for a change or for a timer, which it
polls in that order.

* `Backoff.jittered`, `nextWait` — how long the runner waits after a run;
* `Controller` — one controller: its channel, its runner, and the runs so far;
* `Controller.advance` — the steps of the runner, an event for each thing it may see.

The scaling of a duration by a float is a parameter, `mulF64`; it panics when the result
overflows.
-/

/-! ### Durations and backoff -/

/-- `std::time::Duration`, in nanoseconds. -/
structure Duration where
  nanos : Nat
  lt : nanos < 2 ^ 64 * 10 ^ 9
  deriving DecidableEq, Repr

namespace Duration

/-- `Duration::MAX`. -/
def max : Duration := ⟨2 ^ 64 * 10 ^ 9 - 1, by omega⟩

/-- `Duration::ZERO`. -/
def zero : Duration := ⟨0, by omega⟩

/-- `Duration::as_secs`. -/
def secs (d : Duration) : Nat := d.nanos / 10 ^ 9

/-- `Duration::saturating_mul`. -/
def saturatingMul (d : Duration) (n : Nat) : Duration :=
  if h : d.nanos * n < 2 ^ 64 * 10 ^ 9 then ⟨d.nanos * n, h⟩ else max

/-- `Ord::min` of durations. -/
def min (d e : Duration) : Duration := if d.nanos ≤ e.nanos then d else e

end Duration

/-- `Backoff`. -/
inductive Backoff
  | none
  | linear (base max : Duration)
  | exponential (base max : Duration) (jitter : Float)

/-- `unit`: clamps to the unit interval, NaN to zero. -/
def unit (x : Float) : Float :=
  if x.isNaN then 0.0 else if x < 0.0 then 0.0 else if x > 1.0 then 1.0 else x

namespace Backoff

/-- The loop of `delay`: the delay is doubled until it reaches `max`. -/
def doubled (max : Duration) : Nat → Duration → Duration
  | 0, delay => delay
  | n + 1, delay =>
    if max.nanos ≤ delay.nanos then delay else doubled max n ((delay.saturatingMul 2).min max)

/-- `Backoff::delay`. -/
def delay (backoff : Backoff) (consecutiveErrors : Nat) : Option Duration :=
  let n := Nat.max consecutiveErrors 1
  match backoff with
  | none => Option.none
  | linear base max => some ((base.saturatingMul n).min max)
  | exponential base max _ =>
    let delay := base.min max
    if delay.nanos = 0 then some delay else some (doubled max (n - 1) delay)

/-- `Backoff::jittered`. -/
def jittered (mulF64 : Duration → Float → Checked Duration) (backoff : Backoff)
    (consecutiveErrors : Nat) (r : Float) : Checked (Option Duration) :=
  match backoff.delay consecutiveErrors with
  | Option.none => pure Option.none
  | some delay => do
    let jitter := match backoff with
      | exponential _ _ jitter => unit jitter
      | _ => 0.0
    let wait ← mulF64 delay (1.0 - jitter * unit r)
    return some wait

end Backoff

/-! ### Specs and waits -/

/-- `Flow`. -/
inductive Flow
  | continue
  | done
  deriving DecidableEq, Repr

/-- `RunError`, for the errors a job run ends with. -/
inductive RunError
  | failed (message : String)
  | panicked (message : String)
  deriving DecidableEq, Repr

/-- `Spec`, as far as it decides when the job runs. -/
structure Spec (Job : Type) where
  job : Job
  interval : Option Duration := none
  backoff : Backoff

/-- `Wait`. -/
inductive Wait
  | for (d : Duration)
  | untilUpdate
  deriving DecidableEq, Repr

/-- `Wait::from_delay`. -/
def Wait.fromDelay : Option Duration → Wait
  | some d => .for d
  | none => .untilUpdate

variable {Job : Type} (mulF64 : Duration → Float → Checked Duration)

/-- `Runner::next_wait`; `r` is the random sample. -/
def nextWait (spec : Spec Job) (result : Except RunError Flow) (consecutiveErrors : Nat)
    (r : Float) : Checked Wait :=
  match result with
  | .ok .continue => pure (.fromDelay spec.interval)
  | .ok .done => pure .untilUpdate
  | .error _ => do
    let retryIn ← spec.backoff.jittered mulF64 consecutiveErrors r
    return .fromDelay (retryIn.or spec.interval)

/-- The error count that `Runner::record` leaves: a `u32`, saturating. -/
def recordedErrors (consecutiveErrors : Nat) : Except RunError Flow → Nat
  | .ok _ => 0
  | .error _ => Nat.min (consecutiveErrors + 1) (2 ^ 32 - 1)

/-! ### One controller -/

/-- Why a run was started. -/
inductive Cause
  /-- The first run of the task. -/
  | first
  /-- `Wake::Timer`, after a wait for this long. -/
  | timer (d : Duration)
  /-- `Wake::SpecChanged`. -/
  | specChanged

/-- How a run ended, and the version of the channel at that moment. -/
structure Ended where
  result : Except RunError Flow
  /-- The error count after the run. -/
  errors : Nat
  /-- The random sample for the jitter. -/
  sample : Float
  version : Nat

/-- A run of the job, for the history of the controller. -/
structure RunRecord (Job : Type) where
  cause : Cause
  spec : Spec Job
  /-- The version the spec was read at. -/
  seen : Nat
  /-- The version of the channel when the run started. -/
  version : Nat
  ended : Option Ended

/-- Where the task stands. -/
inductive RunnerPc (Job : Type)
  /-- Spawned, not yet polled. -/
  | spawned
  /-- In `run_job`. -/
  | job (spec : Spec Job)
  /-- At the `select!` of `wait`: `cancelled` is polled next. -/
  | waiting (spec : Spec Job) (wait : Wait)
  /-- At the `select!`: `changed` is polled next. -/
  | polledCancel (spec : Spec Job) (wait : Wait)
  /-- At the `select!`: the timer is polled next. -/
  | polledChanged (spec : Spec Job) (wait : Wait)
  /-- `changed` returned `Ok`; the value is read next. -/
  | woken (spec : Spec Job)
  /-- Out of the loop, at the stop hook. -/
  | stopping (spec : Spec Job)
  | terminated
  /-- The task was unwound by a panic. -/
  | panicked

/-- A controller: the two ends of its watch channel, its tokens and its task. -/
structure Controller (Job : Type) where
  /-- The value in the channel. -/
  value : Spec Job
  /-- How often the channel was written to. -/
  version : Nat := 0
  /-- The sender was dropped. -/
  closed : Bool := false
  /-- The token was cancelled. -/
  cancelled : Bool := false
  /-- The version the receiver has seen. -/
  seen : Nat := 0
  consecutiveErrors : Nat := 0
  pc : RunnerPc Job := .spawned
  /-- The runs so far, the newest first; no step reads them. -/
  log : List (RunRecord Job) := []

/-- What a step of the runner sees. -/
inductive RunnerEvent
  | start
  | finish (result : Except RunError Flow) (r : Float)
  | pollCancelled
  | pollChanged
  | pollTimer (ready : Bool)
  | borrowAndUpdate
  | runStopHook

namespace Controller

/-- The controller was removed, or its manager dropped. -/
def Stopped (c : Controller Job) : Prop := c.cancelled = true ∨ c.closed = true

/-- `watch::Sender::send_replace`. -/
def send (c : Controller Job) (spec : Spec Job) : Controller Job :=
  { c with value := spec, version := c.version + 1 }

/-- The token is cancelled and the sender is dropped. -/
def stop (c : Controller Job) : Controller Job := { c with cancelled := true, closed := true }

/-- The job is run with the value that `borrow_and_update` reads. -/
def runLatest (c : Controller Job) (cause : Cause) : Controller Job :=
  { c with
    seen := c.version
    pc := .job c.value
    log := ⟨cause, c.value, c.version, c.version, none⟩ :: c.log }

/-- The job is run again with the spec at hand. -/
def runAgain (c : Controller Job) (spec : Spec Job) (d : Duration) : Controller Job :=
  { c with
    pc := .job spec
    log := ⟨.timer d, spec, c.seen, c.version, none⟩ :: c.log }

/-- The newest run has ended. -/
def logEnd (c : Controller Job) (ended : Ended) : List (RunRecord Job) :=
  match c.log with
  | run :: rest => { run with ended := some ended } :: rest
  | [] => []

/-- What follows `run_job`: `record` and `next_wait`. -/
def afterRun (c : Controller Job) (spec : Spec Job) (result : Except RunError Flow) (r : Float) :
    Controller Job :=
  let errors := recordedErrors c.consecutiveErrors result
  { c with
    consecutiveErrors := errors
    pc := match nextWait mulF64 spec result errors r with
      | .ok wait => .waiting spec wait
      | .error _ => .panicked
    log := c.logEnd ⟨result, errors, r, c.version⟩ }

/-- The step of the runner at an event, where it can take place. -/
def advance (c : Controller Job) : RunnerEvent → Option (Controller Job)
  | .start =>
    match c.pc with
    | .spawned => some (c.runLatest .first)
    | _ => none
  | .finish result r =>
    match c.pc with
    | .job spec => some (c.afterRun mulF64 spec result r)
    | _ => none
  | .pollCancelled =>
    match c.pc with
    | .waiting spec wait =>
      some { c with pc := if c.cancelled then .stopping spec else .polledCancel spec wait }
    | _ => none
  | .pollChanged =>
    match c.pc with
    | .polledCancel spec wait =>
      -- A new version is reported before a dropped sender.
      if c.seen ≠ c.version then some { c with seen := c.version, pc := .woken spec }
      else some { c with pc := if c.closed then .stopping spec else .polledChanged spec wait }
    | _ => none
  | .pollTimer ready =>
    match c.pc with
    | .polledChanged spec (.for d) =>
      if ready then some (c.runAgain spec d) else some { c with pc := .waiting spec (.for d) }
    | .polledChanged spec .untilUpdate =>
      if ready then none else some { c with pc := .waiting spec .untilUpdate }
    | _ => none
  | .borrowAndUpdate =>
    match c.pc with
    | .woken _ => some (c.runLatest .specChanged)
    | _ => none
  | .runStopHook =>
    match c.pc with
    | .stopping _ => some { c with pc := .terminated }
    | _ => none

/-- A step of the runner. -/
def RunnerStep (c : Controller Job) (e : RunnerEvent) (d : Controller Job) : Prop :=
  c.advance mulF64 e = some d

variable {mulF64}

/-- What a step of the runner can be, with the guards of each case. -/
inductive Move (mulF64 : Duration → Float → Checked Duration) (c : Controller Job) :
    RunnerEvent → Controller Job → Prop
  | start (h : c.pc = .spawned) : Move mulF64 c .start (c.runLatest .first)
  | finish (spec : Spec Job) (result : Except RunError Flow) (r : Float) (h : c.pc = .job spec) :
      Move mulF64 c (.finish result r) (c.afterRun mulF64 spec result r)
  | cancelled (spec : Spec Job) (wait : Wait) (h : c.pc = .waiting spec wait)
      (hcancelled : c.cancelled = true) :
      Move mulF64 c .pollCancelled { c with pc := .stopping spec }
  | notCancelled (spec : Spec Job) (wait : Wait) (h : c.pc = .waiting spec wait) :
      Move mulF64 c .pollCancelled { c with pc := .polledCancel spec wait }
  | changed (spec : Spec Job) (wait : Wait) (h : c.pc = .polledCancel spec wait)
      (hversion : c.seen ≠ c.version) :
      Move mulF64 c .pollChanged { c with seen := c.version, pc := .woken spec }
  | senderGone (spec : Spec Job) (wait : Wait) (h : c.pc = .polledCancel spec wait)
      (hclosed : c.closed = true) :
      Move mulF64 c .pollChanged { c with pc := .stopping spec }
  | unchanged (spec : Spec Job) (wait : Wait) (h : c.pc = .polledCancel spec wait)
      (hversion : c.seen = c.version) :
      Move mulF64 c .pollChanged { c with pc := .polledChanged spec wait }
  | timer (spec : Spec Job) (d : Duration) (h : c.pc = .polledChanged spec (.for d)) :
      Move mulF64 c (.pollTimer true) (c.runAgain spec d)
  | notReady (spec : Spec Job) (wait : Wait) (h : c.pc = .polledChanged spec wait) :
      Move mulF64 c (.pollTimer false) { c with pc := .waiting spec wait }
  | read (spec : Spec Job) (h : c.pc = .woken spec) :
      Move mulF64 c .borrowAndUpdate (c.runLatest .specChanged)
  | stopHook (spec : Spec Job) (h : c.pc = .stopping spec) :
      Move mulF64 c .runStopHook { c with pc := .terminated }

/-- **Inversion.** -/
theorem RunnerStep.move {c d : Controller Job} {e : RunnerEvent} (h : c.RunnerStep mulF64 e d) :
    Move mulF64 c e d := by
  rw [RunnerStep] at h
  cases e with
  | start =>
    rw [advance] at h
    split at h
    next hpc =>
      obtain rfl := Option.some.inj h
      exact .start hpc
    next => cases h
  | finish result r =>
    rw [advance] at h
    split at h
    next spec hpc =>
      obtain rfl := Option.some.inj h
      exact .finish spec result r hpc
    next => cases h
  | pollCancelled =>
    rw [advance] at h
    split at h
    next spec wait hpc =>
      obtain rfl := Option.some.inj h
      split_ifs with hcancelled
      · exact .cancelled spec wait hpc hcancelled
      · exact .notCancelled spec wait hpc
    next => cases h
  | pollChanged =>
    rw [advance] at h
    split at h
    next spec wait hpc =>
      split_ifs at h with hversion hclosed
      · obtain rfl := Option.some.inj h
        exact .changed spec wait hpc hversion
      · obtain rfl := Option.some.inj h
        exact .senderGone spec wait hpc hclosed
      · obtain rfl := Option.some.inj h
        exact .unchanged spec wait hpc (not_not.mp hversion)
    next => cases h
  | pollTimer ready =>
    rw [advance] at h
    split at h
    next spec d hpc =>
      split_ifs at h with hready
      · obtain rfl := Option.some.inj h
        rw [hready]
        exact .timer spec d hpc
      · obtain rfl := Option.some.inj h
        rw [Bool.eq_false_iff.mpr hready]
        exact .notReady spec _ hpc
    next spec hpc =>
      split_ifs at h with hready
      obtain rfl := Option.some.inj h
      rw [Bool.eq_false_iff.mpr hready]
      exact .notReady spec _ hpc
    next => cases h
  | borrowAndUpdate =>
    rw [advance] at h
    split at h
    next spec hpc =>
      obtain rfl := Option.some.inj h
      exact .read spec hpc
    next => cases h
  | runStopHook =>
    rw [advance] at h
    split at h
    next spec hpc =>
      obtain rfl := Option.some.inj h
      exact .stopHook spec hpc
    next => cases h

/-- A step of the runner neither stops the controller nor undoes a stop. -/
theorem Move.stopped_iff {c d : Controller Job} {e : RunnerEvent} (h : Move mulF64 c e d) :
    d.Stopped ↔ c.Stopped := by
  cases h <;> exact Iff.rfl

end Controller

end Sarena.Controllers
