import Mathlib.Data.Nat.Log
import Sarena.Controller.Runner

namespace Sarena.Controllers

open Lib

/-!
# Controllers — the delay of a backoff

The linear delay is one multiplication.  The exponential delay is a loop, which doubles and
stops early.  Both saturate at the longest duration before they are capped.

* `Duration.capped` — a number of nanoseconds, capped at a duration;
* `Backoff.doubledCounted`, `delayCounted` — the loop and the delay with the number of rounds
  that the loop begins; `delayCounted_fst` — counting changes nothing;
* `doubledCounted_fst`, `doubledCounted_snd_le` — what the loop computes and how long it takes;
* `delay_closed_form` — the delays in closed form, for every number of errors.
-/

namespace Duration

/-- `k` nanoseconds, or `max` if that is less. -/
def capped (k : Nat) (max : Duration) : Duration :=
  ⟨Min.min k max.nanos, Nat.lt_of_le_of_lt (Nat.min_le_right k max.nanos) max.lt⟩

theorem nanos_capped (k : Nat) (max : Duration) : (capped k max).nanos = Min.min k max.nanos := rfl

theorem eq_of_nanos {d e : Duration} (h : d.nanos = e.nanos) : d = e := by
  cases d
  cases e
  cases h
  rfl

theorem nanos_min (d e : Duration) : (d.min e).nanos = Min.min d.nanos e.nanos := by
  unfold Duration.min
  by_cases h : d.nanos ≤ e.nanos
  · rw [if_pos h, Nat.min_eq_left h]
  · rw [if_neg h, Nat.min_eq_right (by omega)]

/-- What saturates is above every cap. -/
theorem min_saturatingMul (d max : Duration) (k : Nat) :
    (d.saturatingMul k).min max = capped (d.nanos * k) max := by
  apply eq_of_nanos
  rw [nanos_min, nanos_capped, saturatingMul]
  split
  next => rfl
  next h =>
    have hlt := max.lt
    have hmax : Duration.max.nanos = 2 ^ 64 * 10 ^ 9 - 1 := rfl
    rw [hmax]
    omega

theorem capped_mono {k k' : Nat} (h : k ≤ k') (max : Duration) :
    (capped k max).nanos ≤ (capped k' max).nanos := by
  rw [nanos_capped, nanos_capped]
  omega

end Duration

namespace Backoff

/-! ### The loop -/

/-- The loop of `delay`, with the number of rounds it begins. -/
def doubledCounted (max : Duration) : Nat → Duration → Duration × Nat
  | 0, delay => (delay, 0)
  | n + 1, delay =>
    if max.nanos ≤ delay.nanos then (delay, 1)
    else
      let (delay, rounds) := doubledCounted max n ((delay.saturatingMul 2).min max)
      (delay, rounds + 1)

/-- `Backoff::delay`, with the number of rounds of its loop. -/
def delayCounted (backoff : Backoff) (consecutiveErrors : Nat) : Option Duration × Nat :=
  let n := Nat.max consecutiveErrors 1
  match backoff with
  | none => (Option.none, 0)
  | linear base max => (some ((base.saturatingMul n).min max), 0)
  | exponential base max _ =>
    let delay := base.min max
    if delay.nanos = 0 then (some delay, 0)
    else
      let (delay, rounds) := doubledCounted max (n - 1) delay
      (some delay, rounds)

theorem doubledCounted_fst (max : Duration) (n : Nat) (delay : Duration) :
    (doubledCounted max n delay).1 = doubled max n delay := by
  induction n generalizing delay with
  | zero => rfl
  | succ n ih =>
    rw [doubledCounted, doubled]
    split
    next => rfl
    next => exact ih _

/-- The rounds are counted beside the delay. -/
theorem delayCounted_fst (backoff : Backoff) (n : Nat) :
    (backoff.delayCounted n).1 = backoff.delay n := by
  cases backoff with
  | none => rw [delayCounted, delay]
  | linear base max => rw [delayCounted, delay]
  | exponential base max jitter =>
    rw [delayCounted, delay]
    dsimp only
    split
    next => rfl
    next => rw [doubledCounted_fst]

variable {base max delay : Duration}

/-- **The loop.** It ends with the delay doubled in each round, capped: once the cap is
    reached, the rounds that are left out would change nothing. -/
theorem doubled_eq (n : Nat) (hle : delay.nanos ≤ max.nanos) :
    doubled max n delay = .capped (delay.nanos * 2 ^ n) max := by
  induction n generalizing delay with
  | zero =>
    apply Duration.eq_of_nanos
    rw [doubled, Duration.nanos_capped]
    omega
  | succ n ih =>
    have hpow := Nat.two_pow_pos n
    rw [doubled]
    split
    next hge =>
      apply Duration.eq_of_nanos
      have hgrow : delay.nanos ≤ delay.nanos * 2 ^ (n + 1) :=
        Nat.le_mul_of_pos_right _ (Nat.two_pow_pos _)
      rw [Duration.nanos_capped]
      omega
    next hlt =>
      rw [Duration.min_saturatingMul, ih (Nat.min_le_right _ _)]
      apply Duration.eq_of_nanos
      rw [Duration.nanos_capped, Duration.nanos_capped, Duration.nanos_capped, Nat.pow_succ',
        ← Nat.mul_assoc]
      rcases Nat.le_total (delay.nanos * 2) max.nanos with h | h
      · rw [Nat.min_eq_left h]
      · -- Both sides are above the cap.
        have hmax : max.nanos ≤ max.nanos * 2 ^ n := Nat.le_mul_of_pos_right _ hpow
        have hdouble : max.nanos * 2 ^ n ≤ delay.nanos * 2 * 2 ^ n := Nat.mul_le_mul_right _ h
        rw [Nat.min_eq_right h, Nat.min_eq_right hmax, Nat.min_eq_right (hmax.trans hdouble)]

/-- The loop is over one round after as many doublings as reach the cap. -/
theorem doubledCounted_snd_le (n : Nat) {k : Nat} (h : max.nanos ≤ delay.nanos * 2 ^ k) :
    (doubledCounted max n delay).2 ≤ k + 1 := by
  induction n generalizing delay k with
  | zero => exact Nat.zero_le _
  | succ n ih =>
    rw [doubledCounted]
    split
    next => exact Nat.le_add_left 1 k
    next hlt =>
      cases k with
      | zero =>
        rw [Nat.pow_zero, Nat.mul_one] at h
        exact absurd h hlt
      | succ k =>
        refine Nat.add_le_add_right (ih (k := k) ?_) 1
        rw [Duration.min_saturatingMul, Duration.nanos_capped]
        rw [Nat.pow_succ', ← Nat.mul_assoc] at h
        rcases Nat.le_total (delay.nanos * 2) max.nanos with hle | hle
        · rw [Nat.min_eq_left hle]
          exact h
        · rw [Nat.min_eq_right hle]
          exact Nat.le_mul_of_pos_right _ (Nat.two_pow_pos k)

/-! ### Closed forms -/

theorem delay_linear (base max : Duration) (n : Nat) :
    (linear base max).delay n = some (.capped (base.nanos * Nat.max n 1) max) :=
  congrArg some (Duration.min_saturatingMul base max (Nat.max n 1))

theorem delay_exponential (base max : Duration) (jitter : Float) (n : Nat) :
    (exponential base max jitter).delay n =
      some (.capped (base.nanos * 2 ^ (Nat.max n 1 - 1)) max) := by
  have hgrow : base.nanos ≤ base.nanos * 2 ^ (Nat.max n 1 - 1) :=
    Nat.le_mul_of_pos_right _ (Nat.two_pow_pos _)
  have hstart := Duration.nanos_min base max
  rw [delay]
  split
  next hzero =>
    -- A zero base or a zero cap.
    apply congrArg some
    apply Duration.eq_of_nanos
    rw [hzero, Duration.nanos_capped]
    rw [hstart] at hzero
    rcases Nat.le_total base.nanos max.nanos with h | h
    · rw [show base.nanos = 0 by omega, Nat.zero_mul, Nat.zero_min]
    · omega
  next =>
    apply congrArg some
    rw [doubled_eq _ (by omega)]
    apply Duration.eq_of_nanos
    rw [Duration.nanos_capped, Duration.nanos_capped, hstart]
    rcases Nat.le_total base.nanos max.nanos with h | h
    · rw [Nat.min_eq_left h]
    · have hmax : max.nanos ≤ max.nanos * 2 ^ (Nat.max n 1 - 1) :=
        Nat.le_mul_of_pos_right _ (Nat.two_pow_pos _)
      rw [Nat.min_eq_right h]
      omega

/-- The doublings from a positive base to the cap, in terms of the logarithm. -/
theorem delayCounted_snd_le (base max : Duration) (jitter : Float) (n : Nat) :
    ((exponential base max jitter).delayCounted n).2 ≤
      Nat.log 2 (max.nanos / base.nanos) + 2 := by
  rw [delayCounted]
  dsimp only
  split
  next => exact Nat.zero_le _
  next hpos =>
    refine doubledCounted_snd_le _ ?_
    rw [Duration.nanos_min] at hpos ⊢
    have hlt : max.nanos / base.nanos < 2 ^ (Nat.log 2 (max.nanos / base.nanos) + 1) :=
      Nat.lt_pow_succ_log_self (by decide) _
    rcases Nat.le_total base.nanos max.nanos with h | h
    · rw [Nat.div_lt_iff_lt_mul (by omega), Nat.mul_comm] at hlt
      rw [Nat.min_eq_left h]
      exact hlt.le
    · rw [Nat.min_eq_right h]
      exact Nat.le_mul_of_pos_right _ (Nat.two_pow_pos _)

/-- **The delay.** For every number of errors the linear and the exponential delay are what
    the closed forms say, in exact nanoseconds.  They grow with the number of errors and never
    exceed the cap, and the loop begins no more rounds than the logarithm of `max / base`
    and two, and none for a zero base. -/
theorem delay_closed_form (base max : Duration) (jitter : Float) :
    (∀ n, (linear base max).delay n = some (.capped (base.nanos * Nat.max n 1) max)) ∧
    (∀ n, (exponential base max jitter).delay n =
      some (.capped (base.nanos * 2 ^ (Nat.max n 1 - 1)) max)) ∧
    (∀ backoff, backoff = linear base max ∨ backoff = exponential base max jitter →
      ∀ m n d e, m ≤ n → backoff.delay m = some d → backoff.delay n = some e →
        d.nanos ≤ e.nanos ∧ e.nanos ≤ max.nanos) ∧
    (∀ n, ((exponential base max jitter).delayCounted n).1 =
      (exponential base max jitter).delay n) ∧
    (∀ n, ((exponential base max jitter).delayCounted n).2 ≤
      Nat.log 2 (max.nanos / base.nanos) + 2) ∧
    (base.nanos = 0 → ∀ n, ((exponential base max jitter).delayCounted n).2 = 0) := by
  refine ⟨delay_linear base max, delay_exponential base max jitter, ?_,
    delayCounted_fst _, delayCounted_snd_le base max jitter, ?_⟩
  · intro backoff hbackoff m n d e hmn hd he
    have herrors : Nat.max m 1 ≤ Nat.max n 1 := by
      show Max.max m 1 ≤ Max.max n 1
      omega
    rcases hbackoff with rfl | rfl
    · rw [delay_linear, Option.some.injEq] at hd he
      obtain ⟨rfl, rfl⟩ := And.intro hd he
      exact ⟨Duration.capped_mono (Nat.mul_le_mul_left _ herrors) max, Nat.min_le_right _ _⟩
    · rw [delay_exponential, Option.some.injEq] at hd he
      obtain ⟨rfl, rfl⟩ := And.intro hd he
      have hpow : 2 ^ (Nat.max m 1 - 1) ≤ 2 ^ (Nat.max n 1 - 1) :=
        Nat.pow_le_pow_right (by decide) (Nat.sub_le_sub_right herrors 1)
      exact ⟨Duration.capped_mono (Nat.mul_le_mul_left _ hpow) max, Nat.min_le_right _ _⟩
  · intro hzero n
    rw [delayCounted]
    dsimp only
    rw [if_pos]
    rw [Duration.nanos_min]
    omega

end Backoff

end Sarena.Controllers
