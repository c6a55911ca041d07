import SignalFoundry.Library.Platform
import SignalFoundry.Library.PyDate
import SignalFoundry.Library.PyDecimal
import SignalFoundry.Library.PyFloat

/-!
# Exact readings of floats

Rationals with the operations of a float, none of which rounds, of which an integer from a
limit on cannot be converted: `float` raises `OverflowError` for it. What a program over
floats does is then its exact reading, with the one failure that a finite range adds.
-/

/-- Rationals as floats; `float(n)` fails for integers of magnitude at least `limit`. -/
def ExactFloat (_limit : ℕ) : Type := ℚ

namespace ExactFloat

variable {limit : ℕ}

instance : Field (ExactFloat limit) := inferInstanceAs (Field ℚ)

instance : LinearOrder (ExactFloat limit) := inferInstanceAs (LinearOrder ℚ)

instance : IsStrictOrderedRing (ExactFloat limit) := inferInstanceAs (IsStrictOrderedRing ℚ)

instance : PyFloat (ExactFloat limit) where
  ofNat n := n
  ofInt n := if n.natAbs < limit then some n else none
  neg x := -x
  abs x := |x|
  add x y := x + y
  sub x y := x - y
  mul x y := x * y
  div x y := x / y
  lt x y := decide (x < y)
  le x y := decide (x ≤ y)
  eq x y := decide (x = y)
  isFinite _ := true
  signBit x := decide (x < 0)
  ulp _ := 0
  fsum values := some values.sum
  isFinite_zero := rfl
  not_ofNat_lt_abs_zero n := by simp
  le_zero_of_eq_zero x h := by simp_all
  not_lt_zero := by simp

open Platform in
scoped instance floatText : FloatText (ExactFloat limit) := inferInstanceAs (FloatText ℚ)

variable (x y : ExactFloat limit)

@[simp] theorem ofNat_eq (n : ℕ) : (PyFloat.ofNat n : ExactFloat limit) = n := rfl

@[simp] theorem zero_eq : (PyFloat.zero : ExactFloat limit) = 0 := by simp [PyFloat.zero]

@[simp] theorem mul_eq : PyFloat.mul x y = x * y := rfl

@[simp] theorem div_eq : PyFloat.div x y = x / y := rfl

@[simp] theorem lt_iff : PyFloat.lt x y = true ↔ x < y := by simp [PyFloat.lt]

@[simp] theorem le_iff : PyFloat.le x y = true ↔ x ≤ y := by simp [PyFloat.le]

@[simp] theorem isFinite_eq : PyFloat.isFinite x = true := rfl

@[simp] theorem min_eq : PyFloat.min x y = min x y := by
  unfold PyFloat.min
  by_cases h : y < x
  · rw [if_pos ((lt_iff y x).mpr h), min_eq_right h.le]
  · rw [if_neg (mt (lt_iff y x).mp h), min_eq_left (not_lt.mp h)]

@[simp] theorem max_eq : PyFloat.max x y = max x y := by
  unfold PyFloat.max
  by_cases h : x < y
  · rw [if_pos ((lt_iff x y).mpr h), max_eq_right h.le]
  · rw [if_neg (mt (lt_iff x y).mp h), max_eq_left (not_lt.mp h)]

end ExactFloat

/-! ## Functions of floats

Squares, logarithms and the fixed-point format, with no law: what is proved over
every `FloatMath F` does not depend on how they round. In the exact reading a
square is exact and a format rounds half to even; a logarithm is not rational and
is read by its Padé approximant at one. -/

class FloatMath (F : Type*) where
  /-- `x ** 2`. -/
  square : F → F
  /-- `math.log(x)`. -/
  log : F → F
  /-- `format(x, f".{digits}f")`. -/
  formatFixed : ℕ → F → String

namespace FloatMath

/-- A rational with a fixed number of digits after the point. -/
def fixedText (digits : ℕ) (x : ℚ) : String :=
  let units := (DecimalContext.roundHalfEven (|x| * 10 ^ digits)).toNat
  String.ofList ((if x < 0 then ['-'] else []) ++ Nat.toDigits 10 (units / 10 ^ digits) ++
    if digits = 0 then [] else '.' :: PyDate.padded digits (units % 10 ^ digits))

instance rat : FloatMath ℚ where
  square x := x * x
  log x := 2 * (x - 1) / (x + 1)
  formatFixed := fixedText

end FloatMath
