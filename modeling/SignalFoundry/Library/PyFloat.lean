import Mathlib.Algebra.Order.AbsoluteValue.Basic
import Mathlib.Algebra.Order.Field.Rat
import Mathlib.Algebra.Order.Group.Unbundled.Abs
import Mathlib.Data.Rat.Cast.Defs
import Mathlib.Tactic.Linarith
import Mathlib.Tactic.Positivity

/-!
# Floating-point operations, with an exact reading

A program over floats is written once over `PyFloat F`, the operations it uses
with no law tying them to real arithmetic, so that what is proved about it over
every `F` holds of IEEE doubles whatever the rounding. The only laws in the
class are the facts about zero that clamping and sign checks rely on, which hold
of signed zeros as well.

The exact reading of such a program is its instance at `ℚ`: sums and products
are those of the field, every value is finite and the unit in the last place is
zero, so every tolerance scaled by an ulp vanishes.
-/

/-- The float operations of the language. Comparisons are Boolean because they
are not an order on `F`: a NaN compares false and the two zeros compare equal. -/
class PyFloat (F : Type*) where
  /-- A float literal with an integer value. -/
  ofNat : ℕ → F
  /-- `float(n)` of an integer; `none` is `OverflowError`. -/
  ofInt : ℤ → Option F
  neg : F → F
  abs : F → F
  add : F → F → F
  sub : F → F → F
  mul : F → F → F
  div : F → F → F
  lt : F → F → Bool
  le : F → F → Bool
  eq : F → F → Bool
  isFinite : F → Bool
  /-- Whether `math.copysign(1.0, x)` is negative. -/
  signBit : F → Bool
  ulp : F → F
  /-- `math.fsum`; `none` is `OverflowError`. -/
  fsum : List F → Option F
  isFinite_zero : isFinite (ofNat 0) = true
  not_ofNat_lt_abs_zero : ∀ n, lt (ofNat n) (abs (ofNat 0)) = false
  le_zero_of_eq_zero : ∀ x, eq x (ofNat 0) = true → le x (ofNat 0) = true
  not_lt_zero : lt (ofNat 0) (ofNat 0) = false

namespace PyFloat

variable {F : Type*} [PyFloat F]

/-- The literal `0.0`. -/
def zero : F := ofNat 0

/-- `max(a, b)`: the first argument unless the second is greater. -/
def max (a b : F) : F := if lt a b then b else a

/-- `min(a, b)`: the first argument unless the second is smaller. -/
def min (a b : F) : F := if lt b a then b else a

/-- `max(values, default=default)`. -/
def maxOf (default : F) : List F → F
  | [] => default
  | x :: xs => xs.foldl max x

/-- Whether two floats carry opposite signs, as `math.copysign` reads them. -/
def signsDiffer (a b : F) : Bool := signBit a != signBit b

end PyFloat

/-! ## The exact reading -/

namespace PyFloat

instance rat : PyFloat ℚ where
  ofNat n := n
  ofInt n := some n
  neg x := -x
  abs x := |x|
  add x y := x + y
  sub x y := x - y
  mul x y := x * y
  div x y := x / y
  lt x y := decide (x < y)
  le x y := decide (x ≤ y)
  eq x y := decide (x = y)
  isFinite _ := true
  signBit x := decide (x < 0)
  ulp _ := 0
  fsum values := some values.sum
  isFinite_zero := rfl
  not_ofNat_lt_abs_zero n := by simp
  le_zero_of_eq_zero x h := by simp_all
  not_lt_zero := by simp

variable (x y : ℚ)

@[simp] theorem rat_ofNat (n : ℕ) : (ofNat n : ℚ) = n := rfl

@[simp] theorem rat_zero : (zero : ℚ) = 0 := by simp [zero]

@[simp] theorem rat_neg : neg x = -x := rfl

@[simp] theorem rat_abs : abs x = |x| := rfl

@[simp] theorem rat_add : add x y = x + y := rfl

@[simp] theorem rat_sub : sub x y = x - y := rfl

@[simp] theorem rat_mul : mul x y = x * y := rfl

@[simp] theorem rat_div : div x y = x / y := rfl

@[simp] theorem rat_lt : lt x y = true ↔ x < y := by simp [lt]

@[simp] theorem rat_le : le x y = true ↔ x ≤ y := by simp [le]

@[simp] theorem rat_eq : eq x y = true ↔ x = y := by simp [eq]

@[simp] theorem rat_isFinite : isFinite x = true := rfl

@[simp] theorem rat_signBit : signBit x = true ↔ x < 0 := by simp [signBit]

@[simp] theorem rat_ulp : ulp x = 0 := rfl

@[simp] theorem rat_fsum (values : List ℚ) : fsum values = some values.sum := rfl

@[simp] theorem rat_min : min x y = Min.min x y := by
  unfold min
  by_cases h : y < x
  · rw [if_pos (by simpa using h), min_eq_right h.le]
  · rw [if_neg (by simpa using h), min_eq_left (not_lt.mp h)]

@[simp] theorem rat_max : max x y = Max.max x y := by
  unfold max
  by_cases h : x < y
  · rw [if_pos (by simpa using h), max_eq_right h.le]
  · rw [if_neg (by simpa using h), max_eq_left (not_lt.mp h)]

/-- Two nonzero rationals carry opposite signs exactly when their product is
negative. -/
theorem rat_signsDiffer {x y : ℚ} (hx : x ≠ 0) (hy : y ≠ 0) :
    signsDiffer x y = true ↔ x * y < 0 := by
  have hsign : signsDiffer x y = (decide (x < 0) != decide (y < 0)) := rfl
  rw [hsign, mul_neg_iff]
  rcases lt_or_gt_of_ne hx with hx' | hx' <;> rcases lt_or_gt_of_ne hy with hy' | hy' <;>
    simp [hx', hy', hx'.not_gt, hy'.not_gt]

end PyFloat

/-! ## Numbers with infinities and NaN

A float whose finite values are read as rationals. No comparison with NaN holds. -/

inductive PyNumber where
  | finite (value : ℚ)
  | posInf
  | negInf
  | nan
  deriving DecidableEq, Repr

namespace PyNumber

/-- The value of a finite number. -/
def finite? : PyNumber → Option ℚ
  | finite value => some value
  | _ => none

/-- `math.isfinite`. -/
def isFinite (x : PyNumber) : Bool := x.finite?.isSome

/-- `abs`. -/
def abs : PyNumber → PyNumber
  | finite value => finite |value|
  | posInf => posInf
  | negInf => posInf
  | nan => nan

/-- `x <= y`. -/
def le : PyNumber → PyNumber → Bool
  | nan, _ => false
  | _, nan => false
  | negInf, _ => true
  | _, posInf => true
  | finite x, finite y => x ≤ y
  | _, _ => false

@[simp] theorem finite?_eq_some_iff {x : PyNumber} {value : ℚ} :
    x.finite? = some value ↔ x = finite value := by
  cases x with
  | finite other => simp [finite?]
  | posInf => simp [finite?]
  | negInf => simp [finite?]
  | nan => simp [finite?]

theorem isFinite_eq_true_iff {x : PyNumber} : x.isFinite = true ↔ ∃ value, x = finite value := by
  rw [isFinite, Option.isSome_iff_exists]
  exact exists_congr fun _ => finite?_eq_some_iff

@[simp] theorem le_finite_finite {x y : ℚ} : le (finite x) (finite y) = true ↔ x ≤ y :=
  decide_eq_true_iff

/-- A number between two finite numbers is finite. -/
theorem exists_finite_of_le {x y : ℚ} {z : PyNumber} (hlower : le (finite x) z = true)
    (hupper : le z (finite y) = true) : ∃ value, z = finite value ∧ x ≤ value ∧ value ≤ y := by
  cases z with
  | finite value => exact ⟨value, rfl, le_finite_finite.mp hlower, le_finite_finite.mp hupper⟩
  | posInf => cases hupper
  | negInf => cases hlower
  | nan => cases hlower

end PyNumber
