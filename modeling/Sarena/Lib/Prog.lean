import Mathlib.Tactic.TypeStar

namespace Sarena.Lib

/-!
# Library — programs over atomic operations

A `Prog E α` is a finite tree of atomic operations `e : E β`, each followed by a
continuation that reads its answer.  The same program can be run to its end, cut at
any operation (a crash), or interleaved with others, so one translation of a function
serves the sequential, the crash and the concurrent readings of it.

* `Prog` is a monad; `perform e` is the program that does one operation.
* `Sem E σ` gives every operation its possible answers and effects on a state `σ`.
* `Exec sem p s tr q t` — from state `s`, performing the operations of the trace `tr`
  leads `p` to the remaining program `q` in state `t` (`q = .pure a` when it returned).
* `Prog.Guards sem ok Q p s` — run from `s`, `p` performs an operation only where `ok`
  allows it and establishes `Q` when it returns.
* `Prog.Keeps sem I Q p s` — the special case in which `I` holds between any two
  operations: the rules `keeps_bind` and `Keeps.exec` are a small crash logic.
* `Prog.Uses allowed p` — every operation `p` can reach is allowed; `Prog.UsesUntil` — those
  before the first one of another kind.
* `noting`, `observed` — the answers of a trace, noted beside the state or instead of one;
  `answering` — only some of the answers.
* `Exec.map`, `Prog.mapOps` — executions under another meaning, programs inside larger ones.
-/

/-- A program over the atomic operations `E` that returns an `α`. -/
inductive Prog (E : Type → Type) (α : Type) : Type 1
  | pure (a : α) : Prog E α
  | op {β : Type} (e : E β) (k : β → Prog E α) : Prog E α

variable {E : Type → Type} {σ : Type*} {α β γ : Type}

/-- The program that performs one operation and returns its answer. -/
def perform (e : E β) : Prog E β := .op e .pure

namespace Prog

/-- Sequencing: the operations of `p`, then those of `f` at its result. -/
protected def bind (p : Prog E α) (f : α → Prog E β) : Prog E β :=
  match p with
  | .pure a => f a
  | .op e k => .op e (fun b => (k b).bind f)

instance : Monad (Prog E) where
  pure := .pure
  bind := Prog.bind

@[simp] theorem pure_def (a : α) : (pure a : Prog E α) = .pure a := rfl

@[simp] theorem pure_bind' (a : α) (f : α → Prog E β) : (Prog.pure a >>= f) = f a := rfl

@[simp] theorem op_bind (e : E γ) (k : γ → Prog E α) (f : α → Prog E β) :
    (Prog.op e k >>= f) = .op e (fun b => k b >>= f) := rfl

@[simp] theorem perform_bind (e : E α) (f : α → Prog E β) :
    (perform e >>= f) = .op e f := rfl

private theorem map_id (p : Prog E α) : id <$> p = p := by
  induction p with
  | pure a => rfl
  | op e k ih => exact congrArg (Prog.op e) (funext ih)

private theorem bind_assoc (p : Prog E α) (f : α → Prog E β) (g : β → Prog E γ) :
    p >>= f >>= g = p >>= fun a => f a >>= g := by
  induction p with
  | pure a => rfl
  | op e k ih => exact congrArg (Prog.op e) (funext ih)

instance : LawfulMonad (Prog E) :=
  LawfulMonad.mk' _ map_id (fun _ _ => rfl) bind_assoc

end Prog

/-! ### Semantics and traces -/

/-- The meaning of the operations on a state `σ`: `sem β e s b t` says that in state `s`
    the operation `e` may answer `b` and leave the state `t`. -/
abbrev Sem (E : Type → Type) (σ : Type*) := ∀ β : Type, E β → σ → β → σ → Prop

/-- An operation together with the answer it got. -/
structure Answered (E : Type → Type) where
  {β : Type}
  op : E β
  answer : β

/-- Steps of a program: performing the operations of the trace takes the program and
    the state to the remaining program and the final state. -/
inductive Exec (sem : Sem E σ) : Prog E α → σ → List (Answered E) → Prog E α → σ → Prop
  | refl (p : Prog E α) (s : σ) : Exec sem p s [] p s
  | step {β : Type} (e : E β) (k : β → Prog E α) (s : σ) (b : β) (t : σ)
      (tr : List (Answered E)) (q : Prog E α) (u : σ) (h : sem β e s b t)
      (rest : Exec sem (k b) t tr q u) : Exec sem (.op e k) s (⟨e, b⟩ :: tr) q u

namespace Exec

variable {sem : Sem E σ}

/-- A returned program takes no step. -/
theorem pure_iff {a : α} {s t : σ} {tr : List (Answered E)} {q : Prog E α} :
    Exec sem (.pure a) s tr q t ↔ tr = [] ∧ q = .pure a ∧ t = s := by
  constructor
  · intro h
    cases h with
    | refl => exact ⟨rfl, rfl, rfl⟩
  · rintro ⟨rfl, rfl, rfl⟩
    exact .refl _ _

/-- Running an operation to a returned program takes its first step. -/
theorem op_pure_iff {e : E β} {k : β → Prog E α} {s u : σ} {tr : List (Answered E)} {a : α} :
    Exec sem (.op e k) s tr (.pure a) u ↔
      ∃ b t tr', tr = ⟨e, b⟩ :: tr' ∧ sem β e s b t ∧ Exec sem (k b) t tr' (.pure a) u := by
  constructor
  · intro h
    cases h with
    | step _ _ _ b t tr' _ _ h rest => exact ⟨b, t, tr', rfl, h, rest⟩
  · rintro ⟨b, t, tr', rfl, h, rest⟩
    exact .step e k s b t tr' _ u h rest

/-- Two executions in a row. -/
theorem trans {p q r : Prog E α} {s t u : σ} {tr tr' : List (Answered E)}
    (h : Exec sem p s tr q t) (h' : Exec sem q t tr' r u) : Exec sem p s (tr ++ tr') r u := by
  induction h with
  | refl => exact h'
  | step e k s b t tr q u hs _ ih => exact .step e k s b t _ r _ hs (ih h')

/-- A program that has returned inside a sequence runs the rest of the sequence. -/
theorem bind {p : Prog E α} {f : α → Prog E β} {s t u : σ} {tr tr' : List (Answered E)} {a : α}
    {q : Prog E β} (h : Exec sem p s tr (.pure a) t) (h' : Exec sem (f a) t tr' q u) :
    Exec sem (p >>= f) s (tr ++ tr') q u := by
  generalize hr : Prog.pure a = r at h
  induction h with
  | refl => subst hr; exact h'
  | step e k s b t tr q u hs _ ih => exact .step e _ s b t _ _ _ hs (ih h' hr)

/-- What a program does as the first part of a sequence. -/
theorem bind_left {p q : Prog E α} {f : α → Prog E β} {s t : σ} {tr : List (Answered E)}
    (h : Exec sem p s tr q t) : Exec sem (p >>= f) s tr (q >>= f) t := by
  induction h with
  | refl p s => exact .refl _ _
  | step e k s b t tr q u hs _ ih => exact .step e _ s b t tr _ u hs ih

/-- **Sequencing.** A sequence returns when its first part returns and the rest, run
    from there, returns. -/
theorem bind_pure_iff {p : Prog E α} {f : α → Prog E β} {s u : σ} {tr : List (Answered E)}
    {b : β} : Exec sem (p >>= f) s tr (.pure b) u ↔
      ∃ tr₁ tr₂ a t, tr = tr₁ ++ tr₂ ∧ Exec sem p s tr₁ (.pure a) t ∧
        Exec sem (f a) t tr₂ (.pure b) u := by
  constructor
  · intro h
    induction p generalizing s tr with
    | pure a => exact ⟨[], tr, a, s, rfl, .refl _ _, h⟩
    | op e k ih =>
      obtain ⟨c, t, tr', rfl, hs, rest⟩ := op_pure_iff.mp h
      obtain ⟨tr₁, tr₂, a, t', rfl, h₁, h₂⟩ := ih c rest
      exact ⟨_ :: tr₁, tr₂, a, t', rfl, .step e k s c t tr₁ _ t' hs h₁, h₂⟩
  · rintro ⟨tr₁, tr₂, a, t, rfl, h₁, h₂⟩
    exact bind h₁ h₂

/-- A fallible program that has succeeded inside a sequence runs the rest of the sequence. -/
theorem bind_ok {ε : Type} {p : ExceptT ε (Prog E) α} {f : α → ExceptT ε (Prog E) β} {s t u : σ}
    {tr tr' : List (Answered E)} {a : α} {q : Prog E (Except ε β)}
    (h : Exec sem p.run s tr (.pure (.ok a)) t) (h' : Exec sem (f a).run t tr' q u) :
    Exec sem (p >>= f).run s (tr ++ tr') q u := by
  rw [ExceptT.run_bind]
  exact bind h h'

/-- A fallible program that has failed inside a sequence ends the sequence. -/
theorem bind_error {ε : Type} {p : ExceptT ε (Prog E) α} {f : α → ExceptT ε (Prog E) β} {s t : σ}
    {tr : List (Answered E)} {e : ε} (h : Exec sem p.run s tr (.pure (.error e)) t) :
    Exec sem (p >>= f).run s tr (.pure (.error e)) t := by
  rw [ExceptT.run_bind, ← List.append_nil tr]
  exact bind h (.refl _ _)

/-- A program that cannot fail, among those that can. -/
theorem lift {ε : Type} {p : Prog E α} {s t : σ} {tr : List (Answered E)} {a : α}
    (h : Exec sem p s tr (.pure a) t) :
    Exec sem (ExceptT.lift p : ExceptT ε (Prog E) α).run s tr (.pure (.ok a)) t := by
  have hrun : (ExceptT.lift p : ExceptT ε (Prog E) α).run = p >>= fun a => .pure (.ok a) :=
    map_eq_pure_bind _ p
  rw [hrun, ← List.append_nil tr]
  exact bind h (.refl _ _)

/-- One operation. -/
theorem perform {e : E β} {s t : σ} {b : β} (h : sem β e s b t) :
    Exec sem (perform e) s [⟨e, b⟩] (.pure b) t :=
  .step e _ s b t [] _ t h (.refl _ t)

/-- **Simulation.** An execution goes through under another meaning of the operations, on
    the states that `π` makes of its own. -/
theorem map {τ : Type*} {sem' : Sem E τ} (π : σ → τ)
    (h : ∀ (β : Type) (e : E β) s b t, sem β e s b t → sem' β e (π s) b (π t)) {p q : Prog E α}
    {s t : σ} {tr : List (Answered E)} (hx : Exec sem p s tr q t) :
    Exec sem' p (π s) tr q (π t) := by
  induction hx with
  | refl p s => exact .refl p (π s)
  | step e k s b t tr q u hs _ ih => exact .step e k (π s) b (π t) tr q (π u) (h _ e s b t hs) ih

/-- What every operation keeps, every execution keeps. -/
theorem invariant (J : σ → Prop)
    (hkeep : ∀ (β : Type) (e : E β) s b t, sem β e s b t → J s → J t) {p q : Prog E α} {s t : σ}
    {tr : List (Answered E)} (hx : Exec sem p s tr q t) (hs : J s) : J t := by
  induction hx with
  | refl => exact hs
  | step e k s b t tr q u h _ ih => exact ih (hkeep _ e s b t h hs)

/-- Where every operation has an answer, every program can be run to its end. -/
theorem exists_pure (J : σ → Prop)
    (htotal : ∀ (β : Type) (e : E β) s, J s → ∃ b t, sem β e s b t ∧ J t) (p : Prog E α) {s : σ}
    (hs : J s) : ∃ tr a t, Exec sem p s tr (.pure a) t ∧ J t := by
  induction p generalizing s with
  | pure a => exact ⟨[], a, s, .refl _ _, hs⟩
  | op e k ih =>
    obtain ⟨b, t, hsem, ht⟩ := htotal _ e s hs
    obtain ⟨tr, a, u, hx, hu⟩ := ih b ht
    exact ⟨_, a, u, .step e k s b t tr _ u hsem hx, hu⟩

end Exec

/-! ### Programs inside larger ones -/

namespace Prog

variable {F : Type → Type}

/-- The program over the operations that `f` makes of its own. -/
def mapOps (f : ∀ β : Type, E β → F β) : Prog E α → Prog F α
  | .pure a => .pure a
  | .op e k => .op (f _ e) fun b => (k b).mapOps f

end Prog

/-- An execution goes through inside a larger program, on the states that `π` makes of its
    own. -/
theorem Exec.mapOps {F : Type → Type} {τ : Type*} {sem : Sem E σ} {sem' : Sem F τ}
    {f : ∀ β : Type, E β → F β} (π : σ → τ)
    (h : ∀ (β : Type) (e : E β) s b t, sem β e s b t → sem' β (f β e) (π s) b (π t))
    {p q : Prog E α} {s t : σ} {tr : List (Answered E)} (hx : Exec sem p s tr q t) :
    ∃ tr', Exec sem' (p.mapOps f) (π s) tr' (q.mapOps f) (π t) := by
  induction hx with
  | refl p s => exact ⟨[], .refl _ _⟩
  | step e k s b t tr q u hs _ ih =>
    obtain ⟨tr', hrest⟩ := ih
    exact ⟨_, .step _ _ (π s) b (π t) tr' _ (π u) (h _ e s b t hs) hrest⟩

/-! ### Observing a trace -/

/-- Any answer to any operation. -/
def anyAnswer : Sem E Unit := fun _ _ _ _ _ => True

/-- Any answer to any operation; the state notes each of them with `note`. -/
def noting (note : σ → Answered E → σ) : Sem E σ := fun _ e s b t => t = note s ⟨e, b⟩

/-- One more answer in front. -/
theorem Exec.answer {e : E β} {k : β → Prog E α} {tr : List (Answered E)} {q : Prog E α}
    (b : β) (rest : Exec anyAnswer (k b) () tr q ()) :
    Exec anyAnswer (.op e k) () (⟨e, b⟩ :: tr) q () :=
  .step e k () b () tr q () trivial rest

/-- The answers determine what a program returns. -/
theorem Exec.answer_unique {p : Prog E α} {tr : List (Answered E)} {a b : α}
    (h : Exec anyAnswer p () tr (.pure a) ()) (h' : Exec anyAnswer p () tr (.pure b) ()) :
    a = b := by
  induction p generalizing tr with
  | pure c =>
    obtain ⟨-, ha, -⟩ := Exec.pure_iff.mp h
    obtain ⟨-, hb, -⟩ := Exec.pure_iff.mp h'
    exact Prog.pure.inj (ha.trans hb.symm)
  | op e k ih =>
    obtain ⟨c, _, rest, rfl, -, hrest⟩ := Exec.op_pure_iff.mp h
    obtain ⟨d, _, rest', heq, -, hrest'⟩ := Exec.op_pure_iff.mp h'
    cases heq
    exact ih c hrest hrest'

/-- Running with any answers and noting them afterwards, or on the way, is the same. -/
theorem Exec.noting {note : σ → Answered E → σ} {p q : Prog E α} {u v : Unit}
    {tr : List (Answered E)} (h : Exec anyAnswer p u tr q v) (s : σ) :
    Exec (noting note) p s tr q (tr.foldl note s) := by
  induction h generalizing s with
  | refl p u => exact .refl p s
  | step e k u b v tr q w _ _ ih => exact .step e k s b _ tr q _ rfl (ih _)

/-- What has been noted at the end of an execution is what its trace says. -/
theorem Exec.eq_foldl {note : σ → Answered E → σ} {p q : Prog E α} {s t : σ}
    {tr : List (Answered E)} (h : Exec (Lib.noting note) p s tr q t) : t = tr.foldl note s := by
  induction h with
  | refl p s => rfl
  | step e k s b t tr q u hs _ ih =>
    subst hs
    exact ih

/-- Every execution gives its calls some answers. -/
theorem Exec.any {sem : Sem E σ} {p q : Prog E α} {s t : σ} {tr : List (Answered E)}
    (h : Exec sem p s tr q t) : Exec anyAnswer p () tr q () :=
  h.map (fun _ => ()) fun _ _ _ _ _ _ => trivial

/-- The operations as `sem` has them, each noted with its answer beside the state. -/
def observed {τ : Type*} (sem : Sem E σ) (note : τ → Answered E → τ) : Sem E (σ × τ) :=
  fun β e s b t => sem β e s.1 b t.1 ∧ t.2 = note s.2 ⟨e, b⟩

/-- Noting the answers on the way changes nothing about an execution. -/
theorem Exec.observed {τ : Type*} {sem : Sem E σ} {note : τ → Answered E → τ} {p q : Prog E α}
    {s t : σ} {tr : List (Answered E)} (h : Exec sem p s tr q t) (w : τ) :
    Exec (observed sem note) p (s, w) tr q (t, tr.foldl note w) := by
  induction h generalizing w with
  | refl p s => exact .refl p (s, w)
  | step e k s b t tr q u hs _ ih => exact .step e k (s, w) b (t, _) tr q _ ⟨hs, rfl⟩ (ih _)

/-- Where every operation has an outcome beside the state too, whatever is there before, every
    execution has one. -/
theorem Exec.beside {τ : Type*} {sem : Sem E σ} {sem' : Sem E (σ × τ)}
    (h : ∀ (β : Type) (e : E β) s b t w, sem β e s b t → ∃ w', sem' β e (s, w) b (t, w'))
    {p q : Prog E α} {s t : σ} {tr : List (Answered E)} (hx : Exec sem p s tr q t) (w : τ) :
    ∃ w', Exec sem' p (s, w) tr q (t, w') := by
  induction hx generalizing w with
  | refl p s => exact ⟨w, .refl p (s, w)⟩
  | step e k s b t tr q u hs _ ih =>
    obtain ⟨w', hw'⟩ := h _ e s b t w hs
    obtain ⟨w'', hrest⟩ := ih w'
    exact ⟨w'', .step e k (s, w) b (t, w') tr q (u, w'') hw' hrest⟩

/-- The operations as `sem` has them, with no answers but those that `P` allows. -/
def answering (P : Answered E → Prop) (sem : Sem E σ) : Sem E σ :=
  fun β e s b t => P ⟨e, b⟩ ∧ sem β e s b t

/-- An execution that got only allowed answers. -/
theorem Exec.answering {P : Answered E → Prop} {sem : Sem E σ} {p q : Prog E α} {s t : σ}
    {tr : List (Answered E)} (h : Exec sem p s tr q t) (hall : ∀ a ∈ tr, P a) :
    Exec (answering P sem) p s tr q t := by
  induction h with
  | refl p s => exact .refl p s
  | step e k s b t tr q u hs _ ih =>
    obtain ⟨hfirst, hrest⟩ := List.forall_mem_cons.mp hall
    exact .step e k s b t tr q u ⟨hfirst, hs⟩ (ih hrest)

theorem Exec.of_answering {P : Answered E → Prop} {sem : Sem E σ} {p q : Prog E α} {s t : σ}
    {tr : List (Answered E)} (h : Exec (Lib.answering P sem) p s tr q t) :
    Exec sem p s tr q t ∧ ∀ a ∈ tr, P a := by
  induction h with
  | refl p s => exact ⟨.refl p s, fun _ ha => absurd ha List.not_mem_nil⟩
  | step e k s b t tr q u hs _ ih =>
    exact ⟨.step e k s b t tr q u hs.2 ih.1, List.forall_mem_cons.mpr ⟨hs.1, ih.2⟩⟩

/-! ### Guarded programs and the crash logic -/

namespace Prog

/-- Run from `s`, the program performs every operation in a state where `ok` allows it,
    and ends with `Q`. -/
def Guards (sem : Sem E σ) (ok : ∀ β : Type, E β → σ → Prop) (Q : α → σ → Prop) :
    Prog E α → σ → Prop
  | .pure a, s => Q a s
  | .op e k, s => ok _ e s ∧ ∀ b t, sem _ e s b t → (k b).Guards sem ok Q t

variable {sem : Sem E σ} {ok : ∀ β : Type, E β → σ → Prop}

/-- **Sequencing rule.** -/
theorem guards_bind {R : α → σ → Prop} {Q : β → σ → Prop} {p : Prog E α} {f : α → Prog E β}
    {s : σ} (hp : p.Guards sem ok R s) (hf : ∀ a t, R a t → (f a).Guards sem ok Q t) :
    (p >>= f).Guards sem ok Q s := by
  induction p generalizing s with
  | pure a => exact hf a s hp
  | op e k ih => exact ⟨hp.1, fun b t hs => ih b (hp.2 b t hs)⟩

/-- A function of the result. -/
theorem guards_map {Q : β → σ → Prop} {p : Prog E α} {f : α → β} {s : σ}
    (h : p.Guards sem ok (fun a => Q (f a)) s) : (f <$> p).Guards sem ok Q s := by
  rw [map_eq_pure_bind]
  exact guards_bind h fun _ _ hQ => hQ

/-- **Consequence rule.** -/
theorem Guards.mono {ok' : ∀ β : Type, E β → σ → Prop} {Q R : α → σ → Prop}
    (hok : ∀ (β : Type) (e : E β) s, ok β e s → ok' β e s) (hQ : ∀ a s, Q a s → R a s)
    {p : Prog E α} {s : σ} (h : p.Guards sem ok Q s) : p.Guards sem ok' R s := by
  induction p generalizing s with
  | pure a => exact hQ a s h
  | op e k ih => exact ⟨hok _ e s h.1, fun b t hs => ih b (h.2 b t hs)⟩

/-- **Consequence rule** for the postcondition alone. -/
theorem Guards.imp {Q R : α → σ → Prop} (hQ : ∀ a s, Q a s → R a s) {p : Prog E α} {s : σ}
    (h : p.Guards sem ok Q s) : p.Guards sem ok R s :=
  h.mono (fun _ _ _ hok => hok) hQ

/-- **Soundness.** However far the program has run, what remains of it is still guarded. -/
theorem Guards.exec {Q : α → σ → Prop} {p q : Prog E α} {s t : σ} {tr : List (Answered E)}
    (h : p.Guards sem ok Q s) (hx : Exec sem p s tr q t) : q.Guards sem ok Q t := by
  induction hx with
  | refl => exact h
  | step e k s b t tr q u hs _ ih => exact ih (h.2 b t hs)

/-- **Simulation.** What is guarded under one meaning of the operations is guarded under
    another whose steps `π` makes into steps of the first. -/
theorem Guards.comap {τ : Type*} {sem' : Sem E τ} (π : τ → σ)
    (h : ∀ (β : Type) (e : E β) s b t, sem' β e s b t → sem β e (π s) b (π t)) {Q : α → σ → Prop}
    {p : Prog E α} {s : τ} (hp : p.Guards sem ok Q (π s)) :
    p.Guards sem' (fun β e t => ok β e (π t)) (fun a t => Q a (π t)) s := by
  induction p generalizing s with
  | pure a => exact hp
  | op e k ih => exact ⟨hp.1, fun b t hs => ih b (hp.2 b (π t) (h _ e s b t hs))⟩

/-- **Conjunction rule.** -/
theorem Guards.and {ok' : ∀ β : Type, E β → σ → Prop} {Q R : α → σ → Prop} {p : Prog E α} {s : σ}
    (h : p.Guards sem ok Q s) (h' : p.Guards sem ok' R s) :
    p.Guards sem (fun β e t => ok β e t ∧ ok' β e t) (fun a t => Q a t ∧ R a t) s := by
  induction p generalizing s with
  | pure a => exact ⟨h, h'⟩
  | op e k ih => exact ⟨⟨h.1, h'.1⟩, fun b t hs => ih b (h.2 b t hs) (h'.2 b t hs)⟩

/-- Nothing is asked of the program. -/
theorem guards_true (p : Prog E α) (s : σ) :
    p.Guards sem (fun _ _ _ => True) (fun _ _ => True) s := by
  induction p generalizing s with
  | pure a => trivial
  | op e k ih => exact ⟨trivial, fun b t _ => ih b t⟩

/-- A program that may perform anything is guarded when all its complete executions end well. -/
theorem guards_iff_exec {Q : α → σ → Prop} {p : Prog E α} {s : σ} :
    p.Guards sem (fun _ _ _ => True) Q s ↔ ∀ tr a t, Exec sem p s tr (.pure a) t → Q a t := by
  constructor
  · intro h tr a t hx
    exact h.exec hx
  · intro h
    induction p generalizing s with
    | pure a => exact h [] a s (.refl _ _)
    | op e k ih =>
      refine ⟨trivial, fun b t hsem => ih b fun tr a u hx => ?_⟩
      exact h _ a u (.step e k s b t tr _ u hsem hx)

/-- A postcondition of a fallible program: `R` on success, `X` on failure. -/
def orError {ε : Type} (R : α → σ → Prop) (X : ε → σ → Prop) : Except ε α → σ → Prop
  | .ok a, s => R a s
  | .error e, s => X e s

/-- **Consequence rule** of fallible programs. -/
theorem Guards.imp_try {ε : Type} {R R' : α → σ → Prop} {X X' : ε → σ → Prop}
    (hR : ∀ a t, R a t → R' a t) (hX : ∀ e t, X e t → X' e t) {p : ExceptT ε (Prog E) α} {s : σ}
    (h : p.run.Guards sem ok (orError R X) s) : p.run.Guards sem ok (orError R' X') s := by
  refine Guards.imp (fun r t ht => ?_) h
  cases r with
  | ok a => exact hR a t ht
  | error e => exact hX e t ht

/-- **Sequencing rule** of fallible programs: the second one runs only after success. -/
theorem guards_try {ε : Type} (R : α → σ → Prop) {Q : β → σ → Prop} {X : ε → σ → Prop}
    {p : ExceptT ε (Prog E) α} {f : α → ExceptT ε (Prog E) β} {s : σ}
    (hp : p.run.Guards sem ok (orError R X) s)
    (hf : ∀ a t, R a t → (f a).run.Guards sem ok (orError Q X) t) :
    (p >>= f).run.Guards sem ok (orError Q X) s := by
  rw [ExceptT.run_bind]
  refine guards_bind hp fun r t hr => ?_
  cases r with
  | ok a => exact hf a t hr
  | error e => exact hr

/-- A program that does not fail, inside a fallible one. -/
theorem guards_lift {ε : Type} {Q : α → σ → Prop} {X : ε → σ → Prop} {p : Prog E α} {s : σ}
    (h : p.Guards sem ok Q s) :
    (ExceptT.lift p : ExceptT ε (Prog E) α).run.Guards sem ok (orError Q X) s :=
  guards_bind h fun _ _ hQ => hQ

/-- **Loop rule** of fallible programs.  A round relates the states around it by `H`, and
    `R` follows the rounds of a loop that does not fail. -/
theorem guards_forM {ε : Type} {f : α → ExceptT ε (Prog E) PUnit} {H : α → σ → σ → Prop}
    {R : List α → σ → σ → Prop} {X : ε → σ → Prop}
    (hf : ∀ a s, (f a).run.Guards sem ok (orError (fun _ => H a s) X) s)
    (hnil : ∀ s, R [] s s)
    (hcons : ∀ a rest s t u, H a s t → R rest t u → R (a :: rest) s u) (xs : List α) (s : σ) :
    (xs.forM f).run.Guards sem ok (orError (fun _ => R xs s) X) s := by
  induction xs generalizing s with
  | nil => exact hnil s
  | cons a rest ih =>
    rw [List.forM_eq_forM, List.forM_cons]
    refine guards_try (fun _ => H a s) (hf a s) fun _ t ht => ?_
    refine (ih t).mono (fun _ _ _ h => h) fun r u hr => ?_
    cases r with
    | ok _ => exact hcons a rest s t u ht hr
    | error _ => exact hr

/-- **Interrupted loop.**  When a round that fails changes nothing, a loop has done the rounds
    of a prefix, and all of them unless it fails. -/
theorem guards_forM_prefix {ε : Type} {f : α → ExceptT ε (Prog E) PUnit} {g : σ → α → σ}
    (hf : ∀ a s, (f a).run.Guards sem (fun _ _ _ => True)
      (orError (fun _ t => t = g s a) fun _ t => t = s) s)
    (xs : List α) (s : σ) :
    (xs.forM f).run.Guards sem (fun _ _ _ => True)
      (fun r t => ∃ done, done <+: xs ∧ (r = .ok ⟨⟩ → done = xs) ∧ t = done.foldl g s) s := by
  induction xs generalizing s with
  | nil => exact ⟨[], List.prefix_refl _, fun _ => rfl, rfl⟩
  | cons a rest ih =>
    rw [List.forM_eq_forM, List.forM_cons, ExceptT.run_bind]
    refine guards_bind (hf a s) fun r t ht => ?_
    cases r with
    | error e =>
      refine ⟨[], List.nil_prefix, ?_, ht⟩
      intro h
      cases h
    | ok _ =>
      obtain rfl : t = g s a := ht
      refine (ih (g s a)).imp fun r u hu => ?_
      obtain ⟨done, hprefix, hok, rfl⟩ := hu
      exact ⟨a :: done, List.cons_prefix_cons.mpr ⟨rfl, hprefix⟩,
        fun h => congrArg (a :: ·) (hok h), rfl⟩

/-- A postcondition of a fallible method on a state `τ` of its own. -/
def orErrorAt {ε τ : Type} (R : α → τ → σ → Prop) (X : ε → τ → σ → Prop) :
    Except ε α × τ → σ → Prop
  | (.ok a, w), s => R a w s
  | (.error e, w), s => X e w s

/-- **Sequencing rule** of fallible methods. -/
theorem guards_tryAt {ε τ : Type} (R : α → τ → σ → Prop) {Q : β → τ → σ → Prop}
    {X : ε → τ → σ → Prop} {p : ExceptT ε (StateT τ (Prog E)) α}
    {f : α → ExceptT ε (StateT τ (Prog E)) β} {w : τ} {s : σ}
    (hp : (p.run.run w).Guards sem ok (orErrorAt R X) s)
    (hf : ∀ a w t, R a w t → ((f a).run.run w).Guards sem ok (orErrorAt Q X) t) :
    ((p >>= f).run.run w).Guards sem ok (orErrorAt Q X) s := by
  rw [ExceptT.run_bind, StateT.run_bind]
  refine guards_bind hp fun r t hr => ?_
  obtain ⟨r, w'⟩ := r
  cases r with
  | ok a => exact hf a w' t hr
  | error e => exact hr

/-- A fallible program that does not touch the method's state. -/
theorem guards_liftAt {ε τ : Type} {R : α → τ → σ → Prop} {X : ε → τ → σ → Prop}
    {p : ExceptT ε (Prog E) α} {w : τ} {s : σ}
    (hp : p.run.Guards sem ok (orError (R · w) (X · w)) s) :
    ((ExceptT.mk (StateT.lift p.run) : ExceptT ε (StateT τ (Prog E)) α).run.run w).Guards sem ok
      (orErrorAt R X) s := by
  refine guards_bind hp fun r t hr => ?_
  cases r with
  | ok a => exact hr
  | error e => exact hr

/-- Run from `s`, the program keeps `I` between any two of its operations, before the
    first and after the last, and ends with `Q`. -/
def Keeps (sem : Sem E σ) (I : σ → Prop) (Q : α → σ → Prop) : Prog E α → σ → Prop :=
  Guards sem (fun _ _ s => I s) (fun a s => I s ∧ Q a s)

variable {I : σ → Prop}

/-- What is kept holds already before the first operation. -/
theorem Keeps.inv {Q : α → σ → Prop} {p : Prog E α} {s : σ} (h : p.Keeps sem I Q s) : I s := by
  cases p with
  | pure a => exact h.1
  | op e k => exact h.1

/-- **Sequencing rule** of the crash logic. -/
theorem keeps_bind {R : α → σ → Prop} {Q : β → σ → Prop} {p : Prog E α} {f : α → Prog E β}
    {s : σ} (hp : p.Keeps sem I R s) (hf : ∀ a t, I t → R a t → (f a).Keeps sem I Q t) :
    (p >>= f).Keeps sem I Q s :=
  guards_bind hp fun a t h => hf a t h.1 h.2

/-- **Soundness of the crash logic.** However far the program has run, what remains of
    it still keeps `I` and ends with `Q`. -/
theorem Keeps.exec {Q : α → σ → Prop} {p q : Prog E α} {s t : σ} {tr : List (Answered E)}
    (h : p.Keeps sem I Q s) (hx : Exec sem p s tr q t) : q.Keeps sem I Q t :=
  Guards.exec h hx

/-- **Embedding rule.** What a program does to its own part `π` of a larger state, and what
    its operations keep of the rest. -/
theorem guards_mapOps {F : Type → Type} {τ : Type*} {sem' : Sem F τ} {f : ∀ β : Type, E β → F β}
    {ok' : ∀ β : Type, F β → τ → Prop} (π : τ → σ) (K : τ → Prop)
    (h : ∀ (β : Type) (e : E β) s b t, sem' β (f β e) s b t → sem β e (π s) b (π t) ∧ (K s → K t))
    (hok : ∀ (β : Type) (e : E β) s, ok β e (π s) → ok' β (f β e) s) {Q : α → σ → Prop}
    {p : Prog E α} {s : τ} (hp : p.Guards sem ok Q (π s)) (hs : K s) :
    (p.mapOps f).Guards sem' ok' (fun a t => Q a (π t) ∧ K t) s := by
  induction p generalizing s with
  | pure a => exact ⟨hp, hs⟩
  | op e k ih =>
    refine ⟨hok _ e s hp.1, fun b t hsem => ?_⟩
    obtain ⟨hown, hK⟩ := h _ e s b t hsem
    exact ih b (hp.2 b _ hown) (hK hs)

/-! ### Footprints -/

/-- Every operation the program can reach is allowed. -/
def Uses (allowed : ∀ β : Type, E β → Prop) : Prog E α → Prop
  | .pure _ => True
  | .op e k => allowed _ e ∧ ∀ b, (k b).Uses allowed

variable {allowed : ∀ β : Type, E β → Prop}

theorem uses_bind {p : Prog E α} {f : α → Prog E β} (hp : p.Uses allowed)
    (hf : ∀ a, (f a).Uses allowed) : (p >>= f).Uses allowed := by
  induction p with
  | pure a => exact hf a
  | op e k ih => exact ⟨hp.1, fun b => ih b (hp.2 b)⟩

/-- The same for fallible programs. -/
theorem uses_try {ε : Type} {p : ExceptT ε (Prog E) α} {f : α → ExceptT ε (Prog E) β}
    (hp : p.run.Uses allowed) (hf : ∀ a, (f a).run.Uses allowed) :
    (p >>= f).run.Uses allowed := by
  rw [ExceptT.run_bind]
  refine uses_bind hp fun r => ?_
  cases r with
  | ok a => exact hf a
  | error e => trivial

/-- A loop uses what its rounds use. -/
theorem uses_forM {ε : Type} {f : α → ExceptT ε (Prog E) PUnit} {xs : List α}
    (hf : ∀ a ∈ xs, (f a).run.Uses allowed) : (xs.forM f).run.Uses allowed := by
  induction xs with
  | nil => trivial
  | cons a rest ih =>
    rw [List.forM_eq_forM, List.forM_cons]
    exact uses_try (hf a List.mem_cons_self)
      fun _ => ih fun b hb => hf b (List.mem_cons_of_mem _ hb)

/-- The same for fallible methods on a state `τ` of their own. -/
theorem uses_tryAt {ε τ : Type} {p : ExceptT ε (StateT τ (Prog E)) α}
    {f : α → ExceptT ε (StateT τ (Prog E)) β} {w : τ} (hp : (p.run.run w).Uses allowed)
    (hf : ∀ a w, ((f a).run.run w).Uses allowed) : ((p >>= f).run.run w).Uses allowed := by
  rw [ExceptT.run_bind, StateT.run_bind]
  refine uses_bind hp fun r => ?_
  obtain ⟨r, w'⟩ := r
  cases r with
  | ok a => exact hf a w'
  | error e => trivial

theorem uses_liftAt {ε τ : Type} {p : ExceptT ε (Prog E) α} {w : τ} (hp : p.run.Uses allowed) :
    ((ExceptT.mk (StateT.lift p.run) : ExceptT ε (StateT τ (Prog E)) α).run.run w).Uses allowed :=
  uses_bind hp fun _ => trivial

/-- Nothing is asked of the operations. -/
theorem uses_any (p : Prog E α) : p.Uses fun _ _ => True := by
  induction p with
  | pure a => trivial
  | op e k ih => exact ⟨trivial, ih⟩

/-- Inside a larger program. -/
theorem uses_mapOps {F : Type → Type} {allowed' : ∀ β : Type, F β → Prop}
    {f : ∀ β : Type, E β → F β} (h : ∀ (β : Type) (e : E β), allowed β e → allowed' β (f β e))
    {p : Prog E α} (hp : p.Uses allowed) : (p.mapOps f).Uses allowed' := by
  induction p with
  | pure a => trivial
  | op e k ih => exact ⟨h _ e hp.1, fun b => ih b (hp.2 b)⟩

/-- Allowing more operations. -/
theorem Uses.mono {allowed' : ∀ β : Type, E β → Prop}
    (h : ∀ (β : Type) (e : E β), allowed β e → allowed' β e) {p : Prog E α}
    (hp : p.Uses allowed) : p.Uses allowed' := by
  induction p with
  | pure a => trivial
  | op e k ih => exact ⟨h _ e hp.1, fun b => ih b (hp.2 b)⟩

/-- **Footprint rule.** A property that every allowed operation keeps is kept by every
    program that uses only those, wherever it is cut. -/
theorem Uses.exec (J : σ → Prop) {p q : Prog E α} {s t : σ} {tr : List (Answered E)}
    (hp : p.Uses allowed)
    (hkeep : ∀ (β : Type) (e : E β) (s : σ) (b : β) (t : σ), allowed β e → sem β e s b t →
      J s → J t)
    (hx : Exec sem p s tr q t) (hs : J s) : J t := by
  induction hx with
  | refl => exact hs
  | step e k s b t tr q u h _ ih => exact ih (hp.2 b) (hkeep _ e s b t hp.1 h hs)

/-- **Simulation rule.** Where the allowed operations keep `J` and go through under another
    meaning, an execution of a program that uses only those does so too. -/
theorem Uses.map {τ : Type*} {sem' : Sem E τ} (J : σ → Prop) (π : σ → τ) {p q : Prog E α} {s t : σ}
    {tr : List (Answered E)} (hp : p.Uses allowed)
    (h : ∀ (β : Type) (e : E β) (s : σ) (b : β) (t : σ), allowed β e → J s → sem β e s b t →
      sem' β e (π s) b (π t) ∧ J t)
    (hx : Exec sem p s tr q t) (hs : J s) : Exec sem' p (π s) tr q (π t) ∧ J t := by
  induction hx with
  | refl p s => exact ⟨.refl p (π s), hs⟩
  | step e k s b t tr q u hsem _ ih =>
    obtain ⟨hsem', ht⟩ := h _ e s b t hp.1 hs hsem
    obtain ⟨hrest, hu⟩ := ih (hp.2 b) ht
    exact ⟨.step e k (π s) b (π t) tr q (π u) hsem' hrest, hu⟩

/-- A property that every allowed operation keeps holds between any two operations of a
    program that uses only those. -/
theorem Uses.keeps (J : σ → Prop) {p : Prog E α} {s : σ} (hp : p.Uses allowed)
    (hkeep : ∀ (β : Type) (e : E β) (s : σ) (b : β) (t : σ), allowed β e → sem β e s b t →
      J s → J t) (hs : J s) : p.Keeps sem J (fun _ _ => True) s := by
  induction p generalizing s with
  | pure a => exact ⟨hs, trivial⟩
  | op e k ih => exact ⟨hs, fun b t h => ih b (hp.2 b) (hkeep _ e s b t hp.1 h hs)⟩

/-- The same, at the end of the program. -/
theorem Uses.guards (J : σ → Prop) {p : Prog E α} {s : σ} (hp : p.Uses allowed)
    (hkeep : ∀ (β : Type) (e : E β) (s : σ) (b : β) (t : σ), allowed β e → sem β e s b t →
      J s → J t) (hs : J s) : p.Guards sem (fun _ _ _ => True) (fun _ t => J t) s :=
  (hp.keeps J hkeep hs).mono (fun _ _ _ _ => trivial) fun _ _ h => h.1

/-- Every operation the program can reach before its first `stop` operation is allowed. -/
def UsesUntil (stop allowed : ∀ β : Type, E β → Prop) : Prog E α → Prop
  | .pure _ => True
  | .op e k => stop _ e ∨ (allowed _ e ∧ ∀ b, (k b).UsesUntil stop allowed)

end Prog

end Sarena.Lib
