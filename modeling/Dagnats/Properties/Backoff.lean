import Dagnats.Engine.Scenario

/-!
# The delay before a retry

A fixed or linear delay is the initial delay, times the attempt, capped by the policy
and by the bounds of the engine. The product is a 64-bit number of nanoseconds and is
formed before any cap; validation bounds only the number of attempts.
-/

namespace Dagnats

variable {p : RetryPolicy} {k : ℕ}

/-- The delay in milliseconds, within the cap of a policy and the bounds of the engine. -/
def cappedMs (maxDelay d : ℤ) : ℤ :=
  max 1 (min 3600000 ((if 0 < maxDelay then min d maxDelay else d) / 1000000))

section

variable (p : RetryPolicy)

/-- The delay in nanoseconds, as a number without bounds. -/
def RetryPolicy.product (k : ℕ) : ℤ :=
  if p.strategy = .linear then p.initialDelay * k else p.initialDelay

/-- The product fits in 64 bits, or what they keep of it is still the largest delay. -/
def RetryPolicy.Fits (k : ℕ) : Prop :=
  p.product k < 2 ^ 63 ∨
    cappedMs p.maxDelay (2 ^ 63) ≤ cappedMs p.maxDelay ((p.product k).bmod (2 ^ 64))

/-- Every delay of the policy is the exact one, and none is shorter than an earlier one. -/
def BacksOff : Prop :=
  ∀ k : ℕ, 1 ≤ k → k ≤ retryAttemptCountMax → retryBackoffDelayMs p k = cappedMs p.maxDelay
    (p.product k) ∧ ∀ j, 1 ≤ j → j ≤ k → retryBackoffDelayMs p j ≤ retryBackoffDelayMs p k

/-- A fixed or linear policy of 64-bit numbers, with a delay that is not negative. -/
structure Ranged : Prop where
  strategy : p.strategy = .fixed ∨ p.strategy = .linear
  nonneg : 0 ≤ p.initialDelay
  initialDelay : p.initialDelay < 2 ^ 63
  maxDelay : p.maxDelay < 2 ^ 63

end

section

variable {m d : ℤ}

lemma cappedMs_mono {d' : ℤ} (h : d ≤ d') : cappedMs m d ≤ cappedMs m d' := by
  unfold cappedMs
  split <;> omega

lemma cappedMs_large (hm : m < 2 ^ 63) (hd : 2 ^ 63 ≤ d) : cappedMs m d = cappedMs m (2 ^ 63) := by
  unfold cappedMs
  split <;> omega

/-- The order in which the engine cuts a delay does not matter. -/
lemma cappedMs_eq : min (max ((if 0 < m ∧ m < d then m else d).tdiv millisecond) 1) 3600000 =
    cappedMs m d := by
  unfold cappedMs millisecond
  rw [Int.tdiv_eq_ediv, show Int.sign 1000000 = 1 from rfl]
  split_ifs <;> omega

lemma bmod_of_fits (hnonneg : 0 ≤ d) (h : d < 2 ^ 63) : d.bmod (2 ^ 64) = d := by
  apply Int.bmod_eq_of_le
  · exact Int.le_trans (by decide) hnonneg
  · exact Int.lt_of_lt_of_le h (by decide)

end

section

variable (h : Ranged p)
include h

lemma product_mono {j : ℕ} (hjk : j ≤ k) : 0 ≤ p.product j ∧ p.product j ≤ p.product k := by
  unfold RetryPolicy.product
  split
  · exact ⟨Int.mul_nonneg h.nonneg (Int.natCast_nonneg j),
      Int.mul_le_mul_of_nonneg_left (Int.ofNat_le.mpr hjk) h.nonneg⟩
  · exact ⟨h.nonneg, Int.le_refl _⟩

lemma retryBackoffDelayMs_eq :
    retryBackoffDelayMs p k = cappedMs p.maxDelay ((p.product k).bmod (2 ^ 64)) := by
  unfold RetryPolicy.product
  rw [← cappedMs_eq, retryBackoffDelayMs, milliseconds, calculateDelay]
  rcases h.strategy with hs | hs
  · simp only [hs, reduceCtorEq, if_false, bmod_of_fits h.nonneg h.initialDelay]
  · simp only [hs, if_true]

lemma delay_exact_iff : retryBackoffDelayMs p k = cappedMs p.maxDelay (p.product k) ↔ p.Fits k := by
  rw [retryBackoffDelayMs_eq h]
  by_cases hfits : p.product k < 2 ^ 63
  · rw [bmod_of_fits (product_mono h (Nat.le_refl k)).1 hfits]
    exact ⟨fun _ => .inl hfits, fun _ => rfl⟩
  · have hkept : (p.product k).bmod (2 ^ 64) ≤ 2 ^ 63 :=
      Int.le_trans (Int.bmod_le (by decide)) (by decide)
    rw [cappedMs_large h.maxDelay (Int.not_lt.mp hfits), RetryPolicy.Fits, or_iff_right hfits]
    exact ⟨fun heq => Int.le_of_eq heq.symm, fun hle => Int.le_antisymm (cappedMs_mono hkept) hle⟩

/-- The delays are exact and never decrease if and only if no product that matters wraps. -/
theorem backsOff_iff : BacksOff p ↔ ∀ k : ℕ, 1 ≤ k → k ≤ retryAttemptCountMax → p.Fits k := by
  constructor
  · intro hall k hk hmax
    exact (delay_exact_iff h).mp (hall k hk hmax).1
  · intro hall k hk hmax
    have hexact : ∀ j : ℕ, 1 ≤ j → j ≤ k →
        retryBackoffDelayMs p j = cappedMs p.maxDelay (p.product j) :=
      fun j hj hjk => (delay_exact_iff h).mpr (hall j hj (by omega))
    refine ⟨hexact k hk (Nat.le_refl k), fun j hj hjk => ?_⟩
    rw [hexact j hj hjk, hexact k hk (Nat.le_refl k)]
    exact cappedMs_mono (product_mono h hjk).2

end

namespace Wrapped

def policy (delay : Duration) : RetryPolicy where
  maxAttempts := 3
  strategy := .linear
  initialDelay := delay

def workflow : WorkflowDef where
  name := "w"
  steps := [{ id := "a", task := "work", retry := some (policy (2 ^ 62)) }]

theorem second_backsOff : BacksOff (policy second) := by
  refine (backsOff_iff ⟨.inr rfl, by decide, by decide, by decide⟩).mpr fun k _ hk => .inl ?_
  have hproduct : (policy second).product k = 1000000000 * k := rfl
  unfold retryAttemptCountMax at hk
  omega

/-- Twice 2^62 nanoseconds, 292 years, is a negative number: the second retry waits a
millisecond instead of the hour of the first. -/
theorem second_retry_at_once : Valid Orchestrator.plain workflow ∧
    resolveRetryPolicy workflow workflow.steps[0] = some (policy (2 ^ 62)) ∧
    retryBackoffDelayMs (policy (2 ^ 62)) 1 = 3600000 ∧ retryBackoffDelayMs (policy (2 ^ 62)) 2 =
    1 ∧ cappedMs 0 ((policy (2 ^ 62)).product 2) = 3600000 := by
  decide +kernel

end Wrapped

end Dagnats
