import Mathlib.Tactic.FieldSimp
import SignalFoundry.AlphaForge.Portfolio.Selection

/-!
# When the projection converges

A trade that is shrunk to its turnover limit ends between the previous book and one
that obeys the exposure limits, so the first pass is the last unless the previous book
is outside the exposure limits. From there the passes can approach the limits without
reaching them: the second weight of `stuck` is 9 / (190 k) after `k` passes.
-/

namespace SignalFoundry.Portfolio

open Fallible

variable {n : ℕ}

section Limits

variable [WeightText] {c : PortfolioConstraints} {previous liquidityCaps : Option (Weights n)}

/-- The limits of constraints that pass the checks. -/
theorem projectionLimits_eq_ok {caps : Weights n} {turnover : Option (ℚ × Weights n)}
    (hfeasible : c.checkFeasible n (asArray liquidityCaps) = .ok ())
    (hcaps : positionCaps c (asArray liquidityCaps) = .ok caps)
    (hturnover : turnoverLimit c (asArray previous) = .ok turnover) :
    projectionLimits c (asArray previous) (asArray liquidityCaps) =
      .ok ⟨fun i => if c.longOnly then 0 else -caps i, caps, c.maxNet, c.grossTarget, turnover⟩ := by
  rw [projectionLimits, hfeasible, ok_bind, hcaps, ok_bind, hturnover, ok_bind]
  rfl

theorem turnoverLimit_of_le {budget : ℚ} {start : Weights n} (hbudget : c.maxTurnover = some budget)
    (hle : max (|net start| - c.maxNet) (gross start - c.grossTarget) ≤
      budget + constraintTolerance) :
    turnoverLimit c (asArray (some start)) = .ok (some (budget, start)) := by
  simp only [turnoverLimit, hbudget, asArray, Option.map_some, alignTo_self,
    refuseIf_of_not (not_lt.mpr hle), ok_bind]
  rfl

end Limits

/-- The first pass shrinks its trade towards a previous book outside the exposure limits. -/
def ShrinksOutside (limits : Limits n) (target : Weights n) : Prop :=
  ∃ cap start, limits.turnover = some (cap, start) ∧ ¬ WithinExposure limits start ∧
    cap + constraintTolerance <
      gross fun i => exposurePass limits (activeNames target) target i - start i

/-- Between a book within the exposure limits and the first pass, the limits hold. -/
theorem withinExposure_limitTurnover {limits : Limits n} {weights start : Weights n}
    (hweights : WithinExposure limits weights) (hstart : WithinExposure limits start) {cap : ℚ}
    (hcap : 0 ≤ cap) : WithinExposure limits (limitTurnover weights start cap) := by
  have htolerance := constraintTolerance_pos
  rw [limitTurnover]
  split
  · exact hweights
  · next h =>
      obtain ⟨hover, hpos⟩ := not_or.mp h
      have hover := not_le.mp hover
      have hpos := not_le.mp hpos
      refine hstart.between hweights ⟨div_nonneg hcap hpos.le, ?_⟩
      rw [div_le_iff₀ hpos, one_mul]
      linarith

/-- The first pass obeys every limit, unless it shrinks its trade towards a book outside. -/
theorem satisfied_projectionPass {limits : Limits n} (hvalid : limits.Valid)
    (hcap : ∀ limit ∈ limits.turnover, 0 ≤ limit.1) {target : Weights n}
    (h : ¬ ShrinksOutside limits target) :
    satisfied limits (projectionPass limits (activeNames target) target) = true := by
  have hexposure := withinExposure_exposurePass hvalid (activeNames target) target
  rw [satisfied_iff]
  cases hturnover : limits.turnover with
  | none =>
      rw [projectionPass, hturnover]
      exact ⟨hexposure, fun _ heq => by cases heq⟩
  | some limit =>
      obtain ⟨cap, start⟩ := limit
      have hnonneg := hcap (cap, start) hturnover
      simp only [projectionPass, hturnover]
      refine ⟨?_, withinTurnover_limitTurnover hnonneg _ _⟩
      by_cases hstart : WithinExposure limits start
      · exact withinExposure_limitTurnover hexposure hstart hnonneg
      · have hfits : (gross fun i => exposurePass limits (activeNames target) target i - start i) ≤
            cap + constraintTolerance :=
          not_lt.mp fun hover => h ⟨cap, start, hturnover, hstart, hover⟩
        have hsame : limitTurnover (exposurePass limits (activeNames target) target) start cap =
            exposurePass limits (activeNames target) target := by
          unfold limitTurnover
          exact if_pos (.inl hfits)
        rw [hsame]
        exact hexposure

/-- A projection whose first pass does not shrink its trade towards a book outside the
exposure limits returns. -/
theorem projection_returns [WeightText] {target : Weights n} {c : PortfolioConstraints}
    {previous liquidityCaps : Option (Weights n)} {limits : Limits n}
    (hlimits : projectionLimits c (asArray previous) (asArray liquidityCaps) = .ok limits)
    (h : ¬ ShrinksOutside limits target) :
    ∃ weights, projectToFeasible target c (asArray previous) (asArray liquidityCaps) =
      .ok weights := by
  have hof := limitsOf_projectionLimits hlimits
  refine ⟨_, projectToFeasible_eq_ok_iff.mpr ⟨limits, hlimits, iterate_of_satisfied
    (satisfied_projectionPass hof.valid (fun limit hlimit => ?_) h)⟩⟩
  exact c.maxTurnover_nonneg _ ((hof.turnover_eq_some limit.1 limit.2).mp hlimit).1

/-- A small trade from a book within the exposure limits. -/
def smallBudget : PortfolioConstraints :=
  { twoNames false with maxTurnover := some (1 / 10), maxTurnover_nonneg := by decide +kernel }

theorem smallBudget_returns : ∃ weights : Weights 2,
    @projectToFeasible 2 plainText ![-1 / 2, 1 / 2] smallBudget
      (asArray (some ![1 / 2, -1 / 2])) (asArray (none : Option (Weights 2))) = .ok weights := by
  refine @projection_returns 2 plainText ![-1 / 2, 1 / 2] smallBudget (some ![1 / 2, -1 / 2]) none
    _ (@projectionLimits_eq_ok 2 plainText _ _ none _ _ (by decide +kernel) rfl
      (@turnoverLimit_of_le 2 plainText _ _ _ rfl (by decide +kernel))) ?_
  rintro ⟨cap, start, hturnover, houtside, -⟩
  cases hturnover
  exact houtside (by decide +kernel)

/-! ## A book that is approached -/

/-- A budget of a tenth from a book that is a tenth over its limits. -/
def stuck : PortfolioConstraints where
  maxPosition := 9 / 10
  maxGross := 9 / 10
  maxNet := 9 / 10
  maxTurnover := some (1 / 10)
  positive := by norm_num
  maxNet_nonneg := by norm_num
  maxTurnover_nonneg := by norm_num
  cashBuffer_mem := no_buffer_mem
  maxNet_le := by norm_num
  maxGross_le := by norm_num
  maxPosition_le := by decide +kernel

def stuckLimits : Limits 2 where
  lower := fun _ => -(9 / 10)
  caps := fun _ => 9 / 10
  maxNet := 9 / 10
  grossTarget := 9 / 10
  turnover := some (1 / 10, ![1, 0])

theorem stuckLimits_eq : @projectionLimits 2 plainText stuck (asArray (some ![1, 0]))
    (asArray (none : Option (Weights 2))) = .ok stuckLimits := by
  have hgross : stuck.grossTarget = 9 / 10 := by decide +kernel
  rw [@projectionLimits_eq_ok 2 plainText _ (some ![1, 0]) none _ _ (by decide +kernel) rfl
    (@turnoverLimit_of_le 2 plainText _ _ _ rfl (by decide +kernel)), hgross]
  rfl

/-- The book after `k` passes. -/
def stuckBook (k : ℕ) : Weights 2 := ![9 / 10 + 9 / (190 * k), 9 / (190 * k)]

theorem stuckBook_bounds {k : ℕ} (hk : 0 < k) (hle : k ≤ 500) :
    1 / 20000 ≤ (9 / (190 * k) : ℚ) ∧ (9 / (190 * k) : ℚ) ≤ 1 / 10 := by
  have hpos : (0 : ℚ) < 190 * k := by positivity
  have hone : (1 : ℚ) ≤ k := by exact_mod_cast hk
  have hmany : (k : ℚ) ≤ 500 := by exact_mod_cast hle
  constructor
  · rw [le_div_iff₀ hpos]
    linarith
  · rw [div_le_iff₀ hpos]
    linarith

/-- The exposure steps scale the clipped book to its gross target. -/
theorem stuck_exposurePass (active : Fin 2 → Bool) {b : ℚ} (hb : 1 / 20000 ≤ b ∧ b ≤ 1 / 10) :
    exposurePass stuckLimits active ![9 / 10 + b, b] =
      ![81 / 100 / (9 / 10 + b), 9 / 10 * b / (9 / 10 + b)] := by
  obtain ⟨hlow, hhigh⟩ := hb
  have hclip : clip ![9 / 10 + b, b] stuckLimits.lower stuckLimits.caps = ![9 / 10, b] := by
    refine funext (Fin.forall_fin_two.mpr ⟨?_, ?_⟩)
    · change min (max (9 / 10 + b) (-(9 / 10))) (9 / 10) = 9 / 10
      rw [max_eq_left (by linarith), min_eq_right (by linarith)]
    · change min (max b (-(9 / 10))) (9 / 10) = b
      rw [max_eq_left (by linarith), min_eq_left (by linarith)]
  have hgross : gross ![9 / 10, b] = 9 / 10 + b := by
    rw [gross, Fin.sum_univ_two]
    change |(9 / 10 : ℚ)| + |b| = 9 / 10 + b
    rw [abs_of_nonneg (by norm_num), abs_of_nonneg (by linarith)]
  have hpos : 9 / 10 + b ≠ 0 := by linarith
  have hscaled : (fun i => ![9 / 10, b] i * (stuckLimits.grossTarget / (9 / 10 + b))) =
      ![81 / 100 / (9 / 10 + b), 9 / 10 * b / (9 / 10 + b)] := by
    refine funext (Fin.forall_fin_two.mpr ⟨?_, ?_⟩)
    · change 9 / 10 * (9 / 10 / (9 / 10 + b)) = 81 / 100 / (9 / 10 + b)
      ring
    · change b * (9 / 10 / (9 / 10 + b)) = 9 / 10 * b / (9 / 10 + b)
      ring
  have hnet : net ![81 / 100 / (9 / 10 + b), 9 / 10 * b / (9 / 10 + b)] = 9 / 10 := by
    rw [net, Fin.sum_univ_two]
    change 81 / 100 / (9 / 10 + b) + 9 / 10 * b / (9 / 10 + b) = 9 / 10
    field_simp
    ring
  have hover : stuckLimits.grossTarget + constraintTolerance < 9 / 10 + b ∧ 0 < 9 / 10 + b := by
    constructor
    · change (9 / 10 : ℚ) + 1 / 1000000000 < 9 / 10 + b
      linarith
    · linarith
  have hwithin : ¬ stuckLimits.maxNet + constraintTolerance < |(9 / 10 : ℚ)| := by
    change ¬ (9 / 10 : ℚ) + 1 / 1000000000 < |(9 / 10 : ℚ)|
    norm_num
  simp only [exposurePass, hclip, hgross, if_pos hover, hscaled, hnet, if_neg hwithin]

/-- A pass shrinks the trade to the budget, and the second weight with it. -/
theorem stuck_pass {active : Fin 2 → Bool} {b : ℚ} (hb : 1 / 20000 ≤ b ∧ b ≤ 1 / 10) :
    projectionPass stuckLimits active ![9 / 10 + b, b] =
      ![9 / 10 + 9 * b / (9 + 190 * b), 9 * b / (9 + 190 * b)] := by
  have hpass := stuck_exposurePass active hb
  obtain ⟨hlow, hhigh⟩ := hb
  have hpos : 0 < 9 / 10 + b := by linarith
  have hturnover : (gross fun i => ![81 / 100 / (9 / 10 + b), 9 / 10 * b / (9 / 10 + b)] i -
      ![1, 0] i) = (9 / 100 + 19 / 10 * b) / (9 / 10 + b) := by
    rw [gross, Fin.sum_univ_two]
    change |81 / 100 / (9 / 10 + b) - 1| + |9 / 10 * b / (9 / 10 + b) - 0| = _
    have hfirst : 81 / 100 / (9 / 10 + b) ≤ 1 := by
      rw [div_le_iff₀ hpos]
      linarith
    rw [abs_of_nonpos (by linarith), sub_zero, abs_of_nonneg (div_nonneg (by linarith) hpos.le)]
    field_simp
    ring
  have hover : ¬ ((9 / 100 + 19 / 10 * b) / (9 / 10 + b) ≤ 1 / 10 + constraintTolerance ∨
      (9 / 100 + 19 / 10 * b) / (9 / 10 + b) ≤ 0) := by
    rw [not_or, not_le, not_le]
    constructor
    · change (1 / 10 : ℚ) + 1 / 1000000000 < _
      rw [lt_div_iff₀ hpos]
      linarith
    · exact div_pos (by linarith) hpos
  rw [projectionPass]
  simp only [stuckLimits] at hpass ⊢
  rw [hpass, limitTurnover]
  simp only [hturnover]
  rw [if_neg hover]
  have hnine : 9 + 190 * b ≠ 0 := by linarith
  have htrade : 9 / 100 + 19 / 10 * b ≠ 0 := by linarith
  refine funext (Fin.forall_fin_two.mpr ⟨?_, ?_⟩)
  · change 1 + (81 / 100 / (9 / 10 + b) - 1) * (1 / 10 / ((9 / 100 + 19 / 10 * b) / (9 / 10 + b))) =
      9 / 10 + 9 * b / (9 + 190 * b)
    field_simp
    ring
  · change 0 + (9 / 10 * b / (9 / 10 + b) - 0) *
      (1 / 10 / ((9 / 100 + 19 / 10 * b) / (9 / 10 + b))) = 9 * b / (9 + 190 * b)
    field_simp
    ring

theorem stuckBook_pass {active : Fin 2 → Bool} {k : ℕ} (hk : 0 < k) (hle : k ≤ 500) :
    projectionPass stuckLimits active (stuckBook k) = stuckBook (k + 1) := by
  have hpos : (0 : ℚ) < k := by exact_mod_cast hk
  have hsecond : 9 * (9 / (190 * k)) / (9 + 190 * (9 / (190 * k))) =
      (9 / (190 * ((k + 1 : ℕ) : ℚ)) : ℚ) := by
    push_cast
    field_simp
  rw [stuckBook, stuck_pass (stuckBook_bounds hk hle), hsecond, stuckBook]

theorem not_satisfied_stuckBook {k : ℕ} (hk : 0 < k) (hle : k ≤ 500) :
    satisfied stuckLimits (stuckBook k) ≠ true := by
  intro h
  have hcaps := (satisfied_iff.mp h).1.le_caps 0
  have hlow := (stuckBook_bounds hk hle).1
  change 9 / 10 + 9 / (190 * (k : ℚ)) ≤ 9 / 10 + 1 / 1000000000 at hcaps
  linarith

/-- The passes never reach the limits. -/
theorem iterate_stuckBook {active : Fin 2 → Bool} (passes : ℕ) {k : ℕ} (hk : 0 < k)
    (hle : k + passes ≤ 500) : iterate stuckLimits active passes (stuckBook k) = none := by
  induction passes generalizing k with
  | zero => rfl
  | succ passes ih =>
      rw [iterate, stuckBook_pass hk (by omega)]
      rw [if_neg (not_satisfied_stuckBook k.succ_pos (by omega))]
      exact ih k.succ_pos (by omega)

/-- The limits have a book, which the projection does not reach. -/
theorem stuck_not_returned :
    @projectionLimits 2 plainText stuck (asArray (some ![1, 0])) (asArray (none : Option (Weights 2))) =
        .ok stuckLimits ∧
      satisfied stuckLimits ![9 / 10, 0] = true ∧
      ¬ ∃ weights : Weights 2, @projectToFeasible 2 plainText ![0, 9 / 10] stuck
        (asArray (some ![1, 0])) (asArray (none : Option (Weights 2))) = .ok weights := by
  refine ⟨stuckLimits_eq, by decide +kernel, fun ⟨weights, h⟩ => ?_⟩
  obtain ⟨limits, hlimits, hiterate⟩ := (@projectToFeasible_eq_ok_iff 2 _ _ _ _ plainText _).mp h
  rw [stuckLimits_eq] at hlimits
  cases hlimits
  have hfirst : projectionPass stuckLimits (activeNames ![0, 9 / 10]) ![0, 9 / 10] =
      stuckBook 1 := by
    decide +kernel
  rw [maxProjectionIterations, iterate, hfirst] at hiterate
  rw [if_neg (not_satisfied_stuckBook one_pos (by norm_num)),
    iterate_stuckBook 499 one_pos (by norm_num)] at hiterate
  cases hiterate

end SignalFoundry.Portfolio
