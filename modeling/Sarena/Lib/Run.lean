import Mathlib.Tactic.TypeStar

namespace Sarena.Lib

/-!
# Library — runs of a labelled transition relation

A transition relation `step : σ → α → σ → Prop` says which states a step labelled
`a` may lead to.  A `Run` is a finite sequence of such steps from a start state; the
step relation is checked by the constructors, so an invalid run cannot be built.

* `Run.Always P` — `P` holds in every state of the run, the first and the last included;
* `Run.Sometime P` — `P` holds in some state of the run;
* `Run.EachStep C` — every step of the run meets `C`, read in the state before the
  step, its label and the state after it;
* `Run.invariant` — what every step preserves holds at the end of every run;
* `Run.always_iff_eachStep` — when, between good states, a step keeps `P` exactly
  when it meets `C`, a run is good throughout exactly when each of its steps meets `C`;
* `Inevitable goal s` — whatever steps are taken from `s`, they lead to `goal`.
-/

variable {σ α : Type*}

/-- A finite run of `step` from `init`, indexed by the state it ends in. -/
inductive Run (step : σ → α → σ → Prop) (init : σ) : σ → Type _
  | nil : Run step init init
  | snoc (s : σ) (run : Run step init s) (a : α) (t : σ) (h : step s a t) : Run step init t

namespace Run

variable {step : σ → α → σ → Prop} {init : σ}

/-- `P` holds in every state of the run. -/
def Always (P : σ → Prop) : {s : σ} → Run step init s → Prop
  | _, .nil => P init
  | t, .snoc _ run _ _ _ => run.Always P ∧ P t

/-- `P` holds in some state of the run. -/
def Sometime (P : σ → Prop) : {s : σ} → Run step init s → Prop
  | _, .nil => P init
  | t, .snoc _ run _ _ _ => run.Sometime P ∨ P t

/-- Every step of the run meets `C`. -/
def EachStep (C : σ → α → σ → Prop) : {s : σ} → Run step init s → Prop
  | _, .nil => True
  | t, .snoc s run a _ _ => run.EachStep C ∧ C s a t

/-- The number of steps. -/
def length : {s : σ} → Run step init s → Nat
  | _, .nil => 0
  | _, .snoc _ run _ _ _ => run.length + 1

/-- A run that is good throughout is good at its end. -/
theorem Always.last {P : σ → Prop} {s : σ} {run : Run step init s} (h : run.Always P) : P s := by
  cases run with
  | nil => exact h
  | snoc _ _ _ _ _ => exact h.2

/-- A run that is good throughout is good at its start. -/
theorem Always.first {P : σ → Prop} {s : σ} {run : Run step init s} (h : run.Always P) :
    P init := by
  induction run with
  | nil => exact h
  | snoc _ _ _ _ _ ih => exact ih h.1

/-- What holds at the end of a run holds in some state of it. -/
theorem sometime_of_last {P : σ → Prop} {s : σ} (run : Run step init s) (h : P s) :
    run.Sometime P := by
  cases run with
  | nil => exact h
  | snoc _ _ _ _ _ => exact .inr h

/-- Weakening the state predicate of a run. -/
theorem Always.mono {P Q : σ → Prop} (hPQ : ∀ s, P s → Q s) {s : σ} {run : Run step init s}
    (h : run.Always P) : run.Always Q := by
  induction run with
  | nil => exact hPQ _ h
  | snoc _ _ _ _ _ ih => exact ⟨ih h.1, hPQ _ h.2⟩

theorem Always.and {P Q : σ → Prop} {s : σ} {run : Run step init s} (hP : run.Always P)
    (hQ : run.Always Q) : run.Always fun s => P s ∧ Q s := by
  induction run with
  | nil => exact ⟨hP, hQ⟩
  | snoc _ _ _ _ _ ih => exact ⟨ih hP.1 hQ.1, hP.2, hQ.2⟩

/-- Two runs in a row. -/
def append {s t : σ} (run : Run step init s) : Run step s t → Run step init t
  | .nil => run
  | .snoc u rest a _ h => (run.append rest).snoc u a _ h

theorem eachStep_append {C : σ → α → σ → Prop} {s t : σ} (run : Run step init s)
    (rest : Run step s t) : (run.append rest).EachStep C ↔ run.EachStep C ∧ rest.EachStep C := by
  induction rest with
  | nil => exact ⟨fun h => ⟨h, trivial⟩, fun h => h.1⟩
  | snoc u rest a t h ih => exact (and_congr_left fun _ => ih).trans and_assoc

/-- **Invariant rule.** What holds at the start and is kept by every step holds in
    every state of every run. -/
theorem always_of_invariant {J : σ → Prop} (hinit : J init)
    (hstep : ∀ s a t, step s a t → J s → J t) {s : σ} (run : Run step init s) :
    run.Always J := by
  induction run with
  | nil => exact hinit
  | snoc s run a t h ih => exact ⟨ih, hstep s a t h ih.last⟩

/-- The invariant rule, read at the end of the run. -/
theorem invariant {J : σ → Prop} (hinit : J init)
    (hstep : ∀ s a t, step s a t → J s → J t) {s : σ} (run : Run step init s) : J s :=
  (always_of_invariant hinit hstep run).last

/-- The invariant rule, in runs in which a condition holds throughout. -/
theorem always_of_always {H J : σ → Prop} (hinit : J init)
    (hstep : ∀ s a t, step s a t → H s → H t → J s → J t) {s : σ} (run : Run step init s)
    (hH : run.Always H) : run.Always J := by
  induction run with
  | nil => exact hinit
  | snoc s run a t h ih => exact ⟨ih hH.1, hstep s a t h hH.1.last hH.2 (ih hH.1).last⟩

/-- What every step out of a good state meets, every step of every run meets. -/
theorem eachStep_of_invariant {J : σ → Prop} {C : σ → α → σ → Prop} (hinit : J init)
    (hstep : ∀ s a t, step s a t → J s → J t) (hC : ∀ s a t, step s a t → J s → C s a t)
    {s : σ} (run : Run step init s) : run.EachStep C := by
  induction run with
  | nil => trivial
  | snoc s run a t h ih => exact ⟨ih, hC s a t h (run.invariant hinit hstep)⟩

/-- **Conditional invariant rule.** When the steps that meet `C` keep `J`, a run whose
    steps all meet `C` keeps `J` throughout. -/
theorem always_of_eachStep {J : σ → Prop} {C : σ → α → σ → Prop} (hinit : J init)
    (hstep : ∀ s a t, step s a t → C s a t → J s → J t) {s : σ} (run : Run step init s)
    (hC : run.EachStep C) : run.Always J := by
  induction run with
  | nil => exact hinit
  | snoc s run a t h ih => exact ⟨ih hC.1, hstep s a t h hC.2 (ih hC.1).last⟩

/-- When the steps that meet `C` keep `J`, and out of states that meet `J` they meet `D`
    too, a run whose steps all meet `C` has only steps that meet `D`. -/
theorem eachStep_of_eachStep {J : σ → Prop} {C D : σ → α → σ → Prop} (hinit : J init)
    (hstep : ∀ s a t, step s a t → C s a t → J s → J t)
    (hD : ∀ s a t, step s a t → C s a t → J s → D s a t) {s : σ} (run : Run step init s)
    (hC : run.EachStep C) : run.EachStep D := by
  induction run with
  | nil => trivial
  | snoc s run a t h ih =>
    exact ⟨ih hC.1, hD s a t h hC.2 (run.always_of_eachStep hinit hstep hC.1).last⟩

/-- Two conditions that agree on the steps out of states that meet an invariant. -/
theorem eachStep_iff_of_invariant {J : σ → Prop} {C D : σ → α → σ → Prop} (hinit : J init)
    (hstep : ∀ s a t, step s a t → J s → J t)
    (hiff : ∀ s a t, step s a t → J s → (C s a t ↔ D s a t)) {s : σ} (run : Run step init s) :
    run.EachStep C ↔ run.EachStep D := by
  induction run with
  | nil => exact Iff.rfl
  | snoc s run a t h ih => exact and_congr ih (hiff s a t h (run.invariant hinit hstep))

/-- **Exact condition rule.** Let `J` be kept by every step out of a good state.  When
    in good states that meet `J` a step leads to a good state exactly when it meets `C`,
    the runs that are good throughout are exactly those whose steps all meet `C`. -/
theorem always_iff_eachStep {P J : σ → Prop} {C : σ → α → σ → Prop} (hP : P init) (hJ : J init)
    (hkeep : ∀ s a t, step s a t → P s → J s → P t → J t)
    (hexact : ∀ s a t, step s a t → P s → J s → (P t ↔ C s a t)) {s : σ}
    (run : Run step init s) : run.Always P ↔ run.EachStep C := by
  -- `J` travels along with goodness, so both are carried through one induction.
  suffices h : (run.Always P ↔ run.EachStep C) ∧ (run.Always P → J s) from h.1
  induction run with
  | nil => exact ⟨⟨fun _ => trivial, fun _ => hP⟩, fun _ => hJ⟩
  | snoc s run a t h ih =>
    obtain ⟨ihiff, ihJ⟩ := ih
    refine ⟨⟨?_, ?_⟩, ?_⟩
    · rintro ⟨hall, hPt⟩
      exact ⟨ihiff.mp hall, (hexact s a t h hall.last (ihJ hall)).mp hPt⟩
    · rintro ⟨hsteps, hC⟩
      have hall := ihiff.mpr hsteps
      exact ⟨hall, (hexact s a t h hall.last (ihJ hall)).mpr hC⟩
    · rintro ⟨hall, hPt⟩
      exact hkeep s a t h hall.last (ihJ hall) hPt

end Run

/-! ### Progress -/

/-- Whatever steps are taken from the state, `goal` is reached, and until then there is
    always a step to take. -/
inductive Inevitable (step : σ → α → σ → Prop) (goal : σ → Prop) : σ → Prop
  | now (s : σ) (h : goal s) : Inevitable step goal s
  | next (s : σ) (hsome : ∃ a t, step s a t)
      (hall : ∀ a t, step s a t → Inevitable step goal t) : Inevitable step goal s

/-- From a state without a step, only what holds already is inevitable. -/
theorem Inevitable.of_stuck {step : σ → α → σ → Prop} {goal : σ → Prop} {s : σ}
    (h : Inevitable step goal s) (hstuck : ∀ a t, ¬ step s a t) : goal s := by
  cases h with
  | now _ h => exact h
  | next _ hsome _ =>
    obtain ⟨a, t, ht⟩ := hsome
    exact absurd ht (hstuck a t)

end Sarena.Lib
