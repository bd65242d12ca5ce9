import Sarena.Lib.Prog

namespace Sarena.Lib

/-!
# Library — programs beside others

A program on a state that others change between its operations.  It relies on a relation that
the steps of the others are in, and guarantees one for its own steps.

* `beside R sem` — the operations, each after steps of the others;
* `Prog.Beside R G sem ok Q p s` — from `s` on and beside others, `p` performs an operation only
  where `ok` allows it and as a step of `G`, and `Q` holds at the end;
* `Prog.beside_op` — the rule of one operation; those of sequences are the rules of `Guards`;
* `Prog.Runs` — what is left of a program, in the middle of a run beside others: it is kept by
  the steps of the program (`Runs.step`) and of the others (`Runs.rely`).
-/

variable {E : Type → Type} {σ : Type*} {α β : Type}

/-- The operations, each after steps of others that are in `R`. -/
def beside (R : σ → σ → Prop) (sem : Sem E σ) : Sem E σ :=
  fun β e s b t => ∃ u, R s u ∧ sem β e u b t

/-- The others leave `P` as it is. -/
def Lasting (R : σ → σ → Prop) (P : σ → Prop) : Prop := ∀ s t, R s t → P s → P t

namespace Prog

variable {R G : σ → σ → Prop} {sem : Sem E σ} {ok : ∀ β : Type, E β → σ → Prop}
  {Q : α → σ → Prop}

/-- Whatever the others do before the operation, `ok` allows it and it is a step of `G`. -/
def Promised (R G : σ → σ → Prop) (sem : Sem E σ) (ok : ∀ β : Type, E β → σ → Prop) (β : Type)
    (e : E β) (s : σ) : Prop :=
  ∀ u, R s u → ok β e u ∧ ∀ b t, sem β e u b t → G u t

/-- The program keeps its promises beside others, and ends with `Q`. -/
abbrev Beside (R G : σ → σ → Prop) (sem : Sem E σ) (ok : ∀ β : Type, E β → σ → Prop)
    (Q : α → σ → Prop) (p : Prog E α) (s : σ) : Prop :=
  p.Guards (beside R sem) (Promised R G sem ok) Q s

/-- **Operation.** What holds before the operation lasts until it is done. -/
theorem beside_op {A : σ → Prop} {e : E β} {k : β → Prog E α} {s : σ} (hA : Lasting R A)
    (hs : A s) (hok : ∀ u, A u → ok β e u)
    (h : ∀ u b t, A u → sem β e u b t → G u t ∧ (k b).Beside R G sem ok Q t) :
    (Prog.op e k).Beside R G sem ok Q s := by
  refine ⟨fun u hu => ⟨hok u (hA s u hu hs), fun b t hsem => (h u b t (hA s u hu hs) hsem).1⟩, ?_⟩
  rintro b t ⟨u, hu, hsem⟩
  exact (h u b t (hA s u hu hs) hsem).2

/-- What is left of the program, after steps of others. -/
def Runs (R G : σ → σ → Prop) (sem : Sem E σ) (ok : ∀ β : Type, E β → σ → Prop)
    (Q : α → σ → Prop) (p : Prog E α) (s : σ) : Prop :=
  ∃ s₀, p.Beside R G sem ok Q s₀ ∧ R s₀ s

theorem Beside.runs (hrefl : ∀ s, R s s) {p : Prog E α} {s : σ} (h : p.Beside R G sem ok Q s) :
    p.Runs R G sem ok Q s :=
  ⟨s, h, hrefl s⟩

/-- A step of the others. -/
theorem Runs.rely (htrans : ∀ s t u, R s t → R t u → R s u) {p : Prog E α} {s t : σ}
    (h : p.Runs R G sem ok Q s) (hR : R s t) : p.Runs R G sem ok Q t := by
  obtain ⟨s₀, hp, hs⟩ := h
  exact ⟨s₀, hp, htrans s₀ s t hs hR⟩

/-- A step of the program. -/
theorem Runs.step (hrefl : ∀ s, R s s) {e : E β} {k : β → Prog E α} {s t : σ} {b : β}
    (h : (Prog.op e k).Runs R G sem ok Q s) (hsem : sem β e s b t) :
    G s t ∧ (k b).Runs R G sem ok Q t := by
  obtain ⟨s₀, ⟨hok, hk⟩, hs⟩ := h
  exact ⟨(hok s hs).2 b t hsem, t, hk b t ⟨s, hs, hsem⟩, hrefl t⟩

/-- The next operation. -/
theorem Runs.allowed {e : E β} {k : β → Prog E α} {s : σ}
    (h : (Prog.op e k).Runs R G sem ok Q s) : ok β e s := by
  obtain ⟨s₀, ⟨hok, -⟩, hs⟩ := h
  exact (hok s hs).1

/-- The end of the program. -/
theorem Runs.done (hQ : ∀ a, Lasting R (Q a)) {a : α} {s : σ}
    (h : (Prog.pure a : Prog E α).Runs R G sem ok Q s) : Q a s := by
  obtain ⟨s₀, hp, hs⟩ := h
  exact hQ a s₀ s hs hp

/-- What holds before every operation and at the end holds between them, too. -/
theorem Runs.inv {I : σ → Prop} (hok : ∀ (β : Type) (e : E β) s, ok β e s → I s)
    (hQ : ∀ a, Lasting R (Q a)) (hQI : ∀ a s, Q a s → I s) {p : Prog E α} {s : σ}
    (h : p.Runs R G sem ok Q s) : I s := by
  cases p with
  | pure a => exact hQI a s (h.done hQ)
  | op e k => exact hok _ e s h.allowed

end Prog

end Sarena.Lib
