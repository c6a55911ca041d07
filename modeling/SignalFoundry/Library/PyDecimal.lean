import Mathlib.Data.Int.Log
import Mathlib.Data.Rat.Floor

/-!
# Decimal arithmetic

An operation of `decimal` computes the exact result of its operands and rounds
it to a context, which may signal instead. A finite decimal is taken by its
value: decimals that differ only in trailing zeros compare equal and have equal
results. Comparisons are exact and use no context.

`DecimalContext` is the rounding of exact results, `DecimalContext.standard` the
context a thread starts with, and `DecimalContext.exact` arithmetic that is not
rounded at all.
-/

/-- The signals that are raised as exceptions. -/
inductive DecimalSignal where
  | overflow
  | divisionByZero
  | invalidOperation
  deriving DecidableEq, Repr

/-- The rounding of exact results, which never makes a result negative. -/
structure DecimalContext where
  round : ℚ → Except DecimalSignal ℚ
  round_nonneg : ∀ {x y : ℚ}, 0 ≤ x → round x = .ok y → 0 ≤ y

namespace DecimalContext

/-- Arithmetic without rounding. -/
def exact : DecimalContext where
  round := .ok
  round_nonneg hx h := by
    cases h
    exact hx

@[simp] theorem exact_round (x : ℚ) : exact.round x = .ok x := rfl

/-! ## Rounding to a number of digits -/

/-- The nearest integer; a tie goes to the even one. -/
def roundHalfEven (x : ℚ) : ℤ :=
  if Int.fract x < 1 / 2 then ⌊x⌋
  else if 1 / 2 < Int.fract x then ⌊x⌋ + 1
  else if ⌊x⌋ % 2 = 0 then ⌊x⌋ else ⌊x⌋ + 1

theorem roundHalfEven_mem (x : ℚ) :
    roundHalfEven x = ⌊x⌋ ∨ roundHalfEven x = ⌊x⌋ + 1 ∧ Int.fract x ≠ 0 := by
  unfold roundHalfEven
  split_ifs with hbelow habove heven
  · exact .inl rfl
  · exact .inr ⟨rfl, (lt_trans (by norm_num) habove).ne'⟩
  · exact .inl rfl
  · refine .inr ⟨rfl, fun hzero => hbelow ?_⟩
    rw [hzero]
    norm_num

theorem le_roundHalfEven {n : ℤ} {x : ℚ} (h : (n : ℚ) ≤ x) : n ≤ roundHalfEven x := by
  have hfloor : n ≤ ⌊x⌋ := Int.le_floor.mpr h
  rcases roundHalfEven_mem x with hround | ⟨hround, -⟩ <;> omega

theorem roundHalfEven_le {n : ℤ} {x : ℚ} (h : x ≤ n) : roundHalfEven x ≤ n := by
  have hfloor : ⌊x⌋ ≤ n := Int.floor_le_iff.mpr (h.trans_lt (lt_add_one _))
  rcases roundHalfEven_mem x with hround | ⟨hround, hfract⟩
  · omega
  · have hne : ⌊x⌋ ≠ n := by
      rintro rfl
      exact hfract (Int.fract_eq_zero_iff.mpr ⟨⌊x⌋, le_antisymm (Int.floor_le x) h⟩)
    omega

/-- The exponent of the last digit that is kept of a value. -/
def lastExponent (precision : ℕ) (emin : ℤ) (x : ℚ) : ℤ :=
  max (Int.log 10 |x|) emin - precision + 1

/-- A result rounded half to even to a number of digits. A result whose leading
digit is beyond the largest exponent overflows; one whose leading digit is
before the smallest loses digits. -/
def roundTo (precision : ℕ) (emin emax : ℤ) (x : ℚ) : Except DecimalSignal ℚ :=
  let unit : ℚ := 10 ^ lastExponent precision emin x
  let rounded := roundHalfEven (x / unit) * unit
  if 10 ^ (emax + 1) ≤ |rounded| then .error .overflow else .ok rounded

theorem roundTo_nonneg {precision : ℕ} {emin emax : ℤ} {x y : ℚ} (hx : 0 ≤ x)
    (h : roundTo precision emin emax x = .ok y) : 0 ≤ y := by
  have hunit : (0 : ℚ) < 10 ^ lastExponent precision emin x := zpow_pos (by norm_num) _
  have hrounded : 0 ≤ roundHalfEven (x / 10 ^ lastExponent precision emin x) :=
    le_roundHalfEven (by simpa using div_nonneg hx hunit.le)
  unfold roundTo at h
  dsimp only at h
  split at h
  · cases h
  · cases h
    exact mul_nonneg (by exact_mod_cast hrounded) hunit.le

/-- The standard context: 28 digits and exponents of six digits. -/
def standard : DecimalContext where
  round := roundTo 28 (-999999) 999999
  round_nonneg := roundTo_nonneg

/-- A negative result at or beyond the range of a context overflows. -/
theorem roundTo_overflow_of_le_neg {precision : ℕ} {emin emax : ℤ} {x : ℚ}
    (hprecision : 0 < precision) (hemin : emin ≤ emax) (h : x ≤ -10 ^ (emax + 1)) :
    roundTo precision emin emax x = .error .overflow := by
  have hpow : (0 : ℚ) < 10 ^ (emax + 1) := zpow_pos (by norm_num) _
  have habs : |x| = -x := abs_of_neg (by linarith)
  have hlarge : (10 : ℚ) ^ (emax + 1) ≤ |x| := by linarith
  have hlog : emax + 1 ≤ Int.log 10 |x| :=
    (Int.zpow_le_iff_le_log (by norm_num) (hpow.trans_le hlarge)).mp (by exact_mod_cast hlarge)
  obtain ⟨e, he⟩ : ∃ e, e = lastExponent precision emin x := ⟨_, rfl⟩
  have hexponent : e = Int.log 10 |x| - precision + 1 := by
    rw [he, lastExponent, max_eq_left (by omega)]
  have hunit : (0 : ℚ) < 10 ^ e := zpow_pos (by norm_num) _
  -- the value is at least its leading digit's power of ten, which is a whole number of units
  have hdigits : (10 : ℚ) ^ (precision - 1) * 10 ^ e ≤ |x| := by
    have hsplit : (10 : ℚ) ^ (precision - 1) * 10 ^ e = 10 ^ Int.log 10 |x| := by
      rw [← zpow_natCast, ← zpow_add₀ (by norm_num)]
      congr 1
      omega
    rw [hsplit]
    exact_mod_cast Int.zpow_log_le_self (by norm_num) (hpow.trans_le hlarge)
  have hround : roundHalfEven (x / 10 ^ e) ≤ -(10 ^ (precision - 1) : ℤ) := by
    apply roundHalfEven_le
    rw [div_le_iff₀ hunit]
    push_cast
    linarith
  have hrounded : (10 : ℚ) ^ (emax + 1) ≤ |(roundHalfEven (x / 10 ^ e) : ℚ) * 10 ^ e| := by
    have hround' : (roundHalfEven (x / 10 ^ e) : ℚ) ≤ -10 ^ (precision - 1) := by
      exact_mod_cast hround
    have hscaled : (10 : ℚ) ^ (emax + 1) ≤ 10 ^ (precision - 1) * 10 ^ e := by
      rw [← zpow_natCast, ← zpow_add₀ (by norm_num)]
      exact zpow_le_zpow_right₀ (by norm_num) (by omega)
    refine hscaled.trans ((?_ : _ ≤ -((roundHalfEven (x / 10 ^ e) : ℚ) * 10 ^ e)).trans
      (neg_le_abs _))
    nlinarith
  unfold roundTo
  dsimp only
  rw [← he, if_pos hrounded]

/-! ## Operations -/

variable (context : DecimalContext)

def add (a b : ℚ) : Except DecimalSignal ℚ := context.round (a + b)

def sub (a b : ℚ) : Except DecimalSignal ℚ := context.round (a - b)

def mul (a b : ℚ) : Except DecimalSignal ℚ := context.round (a * b)

def div (a b : ℚ) : Except DecimalSignal ℚ :=
  if b = 0 then if a = 0 then .error .invalidOperation else .error .divisionByZero
  else context.round (a / b)

def neg (a : ℚ) : Except DecimalSignal ℚ := context.round (-a)

def abs (a : ℚ) : Except DecimalSignal ℚ := context.round |a|

end DecimalContext
