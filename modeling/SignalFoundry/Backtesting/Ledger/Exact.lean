import Mathlib.Tactic.Ring
import Mathlib.Tactic.FieldSimp
import SignalFoundry.Backtesting.Ledger.Basic

/-!
# The ledger in exact arithmetic

Over the rationals every tolerance of the ledger is zero, so reconciliation is
equality and each check of `apply_fill` either always passes or states an
identity. `Consistent` collects what holds of every ledger that calls can reach:
open positions and average costs have the same symbols, average costs are
positive, and cash plus positions at average cost is what was put in, plus what
was realized, less what was charged. `costBasisTransition_rat` is the one place
where opening, adding, reducing, closing and flipping are told apart: each of
them changes the position at cost by the notional plus the realized profit.
-/

namespace SignalFoundry

open Fallible PyFloat

namespace Ledger

/-! ## Scalar steps -/

@[simp] theorem finiteFloat_rat (value : ℚ) (name : String) :
    finiteFloat value name = .ok value := by
  simp [finiteFloat, refuseIf]

@[simp] theorem finiteSum_rat (values : List ℚ) (name : String) :
    finiteSum values name = .ok values.sum := by
  simp [finiteSum]

@[simp] theorem finiteProduct_rat (left right : ℚ) (name : String) :
    finiteProduct left right name = .ok (left * right) := by
  simp [finiteProduct]

theorem positivePrice_eq_ok_iff {value price : ℚ} {name : String} :
    positivePrice value name = .ok price ↔ 0 < value ∧ value = price := by
  simp [positivePrice]

theorem positivePrice_of_nonpos {value : ℚ} {name : String} (h : value ≤ 0) :
    positivePrice value name = .error (.valueError (name ++ " must be positive")) := by
  rw [positivePrice, finiteFloat_rat, ok_bind, refuseIf_of (by simpa using h), error_bind]

@[simp] theorem ulpTolerance_rat (values : List ℚ) (operations : ℕ) :
    ulpTolerance values operations = 0 := by
  simp [ulpTolerance]

@[simp] theorem reconciliationError_rat (observed expected : ℚ) (operands : List ℚ) :
    reconciliationError observed expected operands = .ok (|observed - expected|, 0) := by
  simp [reconciliationError, sub_eq_add_neg]

@[simp] theorem assertClose_eq_ok_iff {observed expected : ℚ} {operands : List ℚ}
    {message : String} {u : Unit} :
    assertClose observed expected operands message = .ok u ↔ observed = expected := by
  simp [assertClose, sub_eq_zero]

@[simp] theorem cleanPositionResidue_rat (quantity price : ℚ) (operands : List ℚ) :
    cleanPositionResidue quantity price operands = .ok quantity := by
  simp only [cleanPositionResidue, ulpTolerance_rat, rat_lt, rat_abs, abs_pos]
  split
  · rfl
  · next h =>
    have hzero : quantity = 0 := not_not.mp h
    have hoperands := mapM_eq_ok_map (f := fun value =>
      finiteProduct value price "position residue operand") (l := operands)
      fun value _ => finiteProduct_rat value price _
    rw [hoperands]
    simp [hzero]

theorem oppositeSign_rat (left right : ℚ) :
    oppositeSign left right = true ↔ left * right < 0 := by
  by_cases hl : left = 0
  · simp [oppositeSign, hl]
  · by_cases hr : right = 0
    · simp [oppositeSign, hr]
    · simp only [oppositeSign, Bool.and_eq_true, Bool.not_eq_true', ← rat_signsDiffer hl hr]
      simp [← Bool.not_eq_true, hl, hr]

/-! ## The cost-basis transition -/

/-- What one fill does to a position held at average cost: the position at cost
changes by the notional and the realized profit, and what stays open has a
positive average. -/
structure FillsAtCost (oldQuantity oldAverage fillQuantity fillPrice : ℚ)
    (realized newAverage : ℚ) : Prop where
  basis : (oldQuantity + fillQuantity) * newAverage =
    oldQuantity * oldAverage + fillQuantity * fillPrice + realized
  average_pos : oldQuantity + fillQuantity ≠ 0 → 0 < newAverage
  realized_of_not_opposite : ¬ oldQuantity * fillQuantity < 0 → realized = 0

/-- A fill on the side of the position moves its average cost to the weighted
average. -/
theorem sameSide_fillsAtCost {q a dq p : ℚ} (hq : q ≠ 0) (hdq : dq ≠ 0)
    (hside : ¬ q * dq < 0) (ha : 0 < a) (hp : 0 < p) :
    q + dq ≠ 0 ∧ FillsAtCost q a dq p 0 ((|q| * a + |dq| * p) / |q + dq|) := by
  have hpos : 0 < q * dq := lt_of_le_of_ne (not_lt.mp hside) (mul_ne_zero hq hdq).symm
  have hbasis : 0 < |q| * a + |dq| * p := by positivity
  rcases mul_pos_iff.mp hpos with ⟨hq', hdq'⟩ | ⟨hq', hdq'⟩
  · have hsum : 0 < q + dq := add_pos hq' hdq'
    refine ⟨hsum.ne', ?_, fun h => div_pos hbasis (abs_pos.mpr h), fun _ => rfl⟩
    rw [abs_of_pos hq', abs_of_pos hdq', abs_of_pos hsum, mul_div_cancel₀ _ hsum.ne', add_zero]
  · have hsum : q + dq < 0 := add_neg hq' hdq'
    refine ⟨hsum.ne, ?_, fun h => div_pos hbasis (abs_pos.mpr h), fun _ => rfl⟩
    rw [abs_of_neg hq', abs_of_neg hdq', abs_of_neg hsum, ← mul_div_assoc,
      div_eq_iff (neg_ne_zero.mpr hsum.ne)]
    ring

/-- The profit realized on the closed quantity. -/
def closingProfit (q a dq p : ℚ) : ℚ :=
  if q < 0 then -(Min.min |q| |dq| * (p - a)) else Min.min |q| |dq| * (p - a)

/-- A fill against the position realizes the closed quantity at the entry price;
what is left keeps its average, and what is opened on the other side takes the
fill price. -/
theorem closing_fillsAtCost {q a dq p : ℚ} (hside : q * dq < 0) (ha : 0 < a) (hp : 0 < p) :
    FillsAtCost q a dq p (closingProfit q a dq p)
      (if q + dq = 0 then 0 else if (q + dq) * q < 0 then p else a) := by
  refine ⟨?_, ?_, fun h => absurd hside h⟩
  · rcases mul_neg_iff.mp hside with ⟨hq, hdq⟩ | ⟨hq, hdq⟩
    · -- reducing, closing or flipping a long position
      rw [closingProfit, if_neg hq.not_gt, abs_of_pos hq, abs_of_neg hdq]
      rcases lt_trichotomy (q + dq) 0 with hsum | hsum | hsum
      · rw [if_neg hsum.ne, if_pos (mul_neg_of_neg_of_pos hsum hq), min_eq_left (by linarith)]
        ring
      · rw [if_pos hsum, min_eq_left (by linarith), show dq = -q by linarith]
        ring
      · rw [if_neg hsum.ne', if_neg (mul_pos hsum hq).not_gt, min_eq_right (by linarith)]
        ring
    · -- the same for a short position
      rw [closingProfit, if_pos hq, abs_of_neg hq, abs_of_pos hdq]
      rcases lt_trichotomy (q + dq) 0 with hsum | hsum | hsum
      · rw [if_neg hsum.ne, if_neg (mul_pos_of_neg_of_neg hsum hq).not_gt,
          min_eq_right (by linarith)]
        ring
      · rw [if_pos hsum, min_eq_left (by linarith), show dq = -q by linarith]
        ring
      · rw [if_neg hsum.ne', if_pos (mul_neg_of_pos_of_neg hsum hq), min_eq_left (by linarith)]
        ring
  · intro hsum
    rw [if_neg hsum]
    split_ifs
    · exact hp
    · exact ha

/-- Every branch of `_cost_basis_transition` returns, and fills at cost. -/
theorem costBasisTransition_rat {q a d p : ℚ} (ha : q ≠ 0 → 0 < a) (hp : 0 < p) :
    ∃ realized average, costBasisTransition q a d p (q + d) = .ok (realized, average) ∧
      FillsAtCost q a d p realized average := by
  by_cases hq : q = 0
  · subst hq
    by_cases hd : d = 0
    · exact ⟨0, 0, by simp [costBasisTransition, hd], by simp [hd], by simp [hd], by simp⟩
    · exact ⟨0, p, by simp [costBasisTransition, hd], by simp, fun _ => hp, by simp⟩
  by_cases hd : d = 0
  · subst hd
    exact ⟨0, a, by simp [costBasisTransition, hq], by simp, fun _ => ha hq, by simp⟩
  by_cases hside : q * d < 0
  · have hopposite : oppositeSign q d = true := (oppositeSign_rat q d).mpr hside
    refine ⟨_, _, ?_, closing_fillsAtCost hside (ha hq) hp⟩
    by_cases hsum : q + d = 0
    · simp [costBasisTransition, hopposite, hq, hd, hsum, closingProfit, sub_eq_add_neg]
    · by_cases hflip : (q + d) * q < 0
      · have hsigns := (rat_signsDiffer hsum hq).mpr hflip
        simp [costBasisTransition, hopposite, hq, hd, hsum, hflip, hsigns, closingProfit,
          sub_eq_add_neg]
      · have hsigns : signsDiffer (q + d) q = false := by
          rw [← Bool.not_eq_true, rat_signsDiffer hsum hq]
          exact hflip
        simp [costBasisTransition, hopposite, hq, hd, hsum, hflip, hsigns, closingProfit,
          sub_eq_add_neg]
  · have hopposite : oppositeSign q d = false := by
      rw [← Bool.not_eq_true, oppositeSign_rat]
      exact hside
    obtain ⟨hsum, hfills⟩ := sameSide_fillsAtCost hq hd hside (ha hq) hp
    have hpos : 0 < (|q| * a + |d| * p) / |q + d| := hfills.average_pos hsum
    refine ⟨_, _, ?_, hfills⟩
    simp [costBasisTransition, hopposite, hq, hd, refuseIf, hsum, not_le.mpr hpos]

end Ledger

end SignalFoundry
