import Mathlib.Algebra.Order.Field.Basic
import Mathlib.Tactic.Linarith
import Mathlib.Tactic.Ring

/-!
# Token buckets

A bucket of tokens that is refilled at a constant rate up to its capacity when it
is read, and gives one token at a time. Over any interval of time it gives at most
its capacity and what the rate adds in the interval (`Window`).
-/

variable {K : Type*} [Field K] [LinearOrder K]

/-- A bucket with the tokens of its last reading. -/
structure TokenBucket (K : Type*) where
  rate : K
  capacity : K
  tokens : K
  updatedAt : K

namespace TokenBucket

/-- The tokens at a time after the last reading. -/
def level (b : TokenBucket K) (now : K) : K :=
  min b.capacity (b.tokens + (now - b.updatedAt) * b.rate)

/-- Read the bucket and take a token if there is one. -/
def take (b : TokenBucket K) (now : K) : Bool × TokenBucket K :=
  if b.level now < 1 then (false, { b with tokens := b.level now, updatedAt := now })
  else (true, { b with tokens := b.level now - 1, updatedAt := now })

variable {b : TokenBucket K} {now s t : K} {n : ℕ}

@[simp] theorem rate_take (b : TokenBucket K) (now : K) : (b.take now).2.rate = b.rate := by
  unfold take
  split <;> rfl

@[simp] theorem capacity_take (b : TokenBucket K) (now : K) :
    (b.take now).2.capacity = b.capacity := by
  unfold take
  split <;> rfl

@[simp] theorem updatedAt_take (b : TokenBucket K) (now : K) : (b.take now).2.updatedAt = now := by
  unfold take
  split <;> rfl

/-- The tokens left are those at the time without the one taken. -/
theorem tokens_take (b : TokenBucket K) (now : K) :
    (b.take now).2.tokens + (if (b.take now).1 then 1 else 0) = b.level now := by
  unfold take
  split <;> simp

variable [IsStrictOrderedRing K]

/-- The bounds of the tokens. -/
structure Filled (b : TokenBucket K) : Prop where
  rate_nonneg : 0 ≤ b.rate
  tokens_nonneg : 0 ≤ b.tokens
  tokens_le : b.tokens ≤ b.capacity

theorem Filled.level_nonneg (h : b.Filled) (hnow : b.updatedAt ≤ now) : 0 ≤ b.level now := by
  have hrefill := mul_nonneg (sub_nonneg.mpr hnow) h.rate_nonneg
  exact le_min (h.tokens_nonneg.trans h.tokens_le) (add_nonneg h.tokens_nonneg hrefill)

theorem Filled.take (h : b.Filled) (hnow : b.updatedAt ≤ now) : (b.take now).2.Filled where
  rate_nonneg := by
    rw [rate_take]
    exact h.rate_nonneg
  tokens_nonneg := by
    unfold TokenBucket.take
    split
    · exact h.level_nonneg hnow
    · next hlevel => exact sub_nonneg.mpr (not_lt.mp hlevel)
  tokens_le := by
    rw [capacity_take]
    have htokens := tokens_take b now
    have hlevel : b.level now ≤ b.capacity := min_le_left _ _
    have htaken : (0 : K) ≤ if (b.take now).1 then 1 else 0 := by split <;> simp
    linarith

/-- What a bucket has given in an interval that it is still read in, or is past:
the tokens given and left are those of the capacity and of the refills since the
start of the interval. -/
structure Window (b : TokenBucket K) (s t : K) (n : ℕ) : Prop where
  le : (n : K) ≤ b.capacity + b.rate * (t - s)
  before : b.updatedAt < s → n = 0
  within : b.updatedAt ≤ t → n + b.tokens ≤ b.capacity + b.rate * (max s b.updatedAt - s)

/-- A window of a bucket that has given nothing. -/
theorem Filled.window (h : b.Filled) (hst : s ≤ t) : b.Window s t 0 where
  le := by
    have hrefill := mul_nonneg h.rate_nonneg (sub_nonneg.mpr hst)
    have hcapacity := h.tokens_nonneg.trans h.tokens_le
    push_cast
    linarith
  before _ := rfl
  within _ := by
    have hrefill := mul_nonneg h.rate_nonneg (sub_nonneg.mpr (le_max_left s b.updatedAt))
    have hle := h.tokens_le
    push_cast
    linarith

/-- A reading adds its token to the windows it is in. -/
theorem Window.take (h : b.Window s t n) (hfilled : b.Filled) (hnow : b.updatedAt ≤ now) :
    (b.take now).2.Window s t
      (n + if (b.take now).1 = true ∧ s ≤ now ∧ now ≤ t then 1 else 0) := by
  have htokens := tokens_take b now
  have hnext := (hfilled.take hnow).tokens_nonneg
  have hlevel : b.level now ≤ b.tokens + (now - b.updatedAt) * b.rate := min_le_right _ _
  have hcapacity : b.level now ≤ b.capacity := min_le_left _ _
  have hwithin : now ≤ t → (n + if (b.take now).1 = true ∧ s ≤ now ∧ now ≤ t then 1 else 0 : ℕ) +
      (b.take now).2.tokens ≤ b.capacity + b.rate * (max s now - s) := by
    intro ht
    by_cases hs : s ≤ now
    · have hcount : ((n + if (b.take now).1 = true ∧ s ≤ now ∧ now ≤ t then 1 else 0 : ℕ) : K) +
          (b.take now).2.tokens = n + b.level now := by
        rw [← htokens]
        by_cases htaken : (b.take now).1 = true
        · simp only [htaken, hs, ht, and_self, if_true]
          push_cast
          ring
        · simp [htaken]
      rw [hcount, max_eq_right hs]
      by_cases hstart : b.updatedAt < s
      · have hrefill := mul_nonneg hfilled.rate_nonneg (sub_nonneg.mpr hs)
        rw [h.before hstart]
        push_cast
        linarith
      · have hsum := h.within (hnow.trans ht)
        rw [max_eq_right (not_lt.mp hstart)] at hsum
        nlinarith
    · have hbefore : b.updatedAt < s := hnow.trans_lt (not_le.mp hs)
      have htaken : (0 : K) ≤ if (b.take now).1 then 1 else 0 := by split <;> simp
      rw [if_neg (by simp [hs]), h.before hbefore, max_eq_left (not_le.mp hs).le]
      push_cast
      linarith
  refine ⟨?_, fun hbefore => ?_, fun ht => ?_⟩
  · rw [capacity_take, rate_take]
    by_cases ht : now ≤ t
    · by_cases hs : s ≤ now
      · have hsum := hwithin ht
        have hrate := mul_le_mul_of_nonneg_left (sub_le_sub_right ht s) hfilled.rate_nonneg
        rw [max_eq_right hs] at hsum
        linarith
      · rw [if_neg (by simp [hs]), add_zero]
        exact h.le
    · rw [if_neg (by simp [ht]), add_zero]
      exact h.le
  · rw [updatedAt_take] at hbefore
    rw [if_neg (by simp [hbefore]), add_zero]
    exact h.before (hnow.trans_lt hbefore)
  · rw [updatedAt_take] at ht ⊢
    rw [capacity_take, rate_take]
    exact hwithin ht

end TokenBucket
