import Mathlib.Algebra.BigOperators.Fin
import Mathlib.Algebra.Order.BigOperators.Group.Finset
import Mathlib.Algebra.Order.Field.Rat
import SignalFoundry.Library.Fallible

/-!
# Feasible projection

`project_to_feasible` clips a target book to its position caps, scales or fills it to
its gross target, trims its net exposure and shrinks the trade to a turnover limit,
pass by pass until every limit holds.
-/

namespace SignalFoundry.Portfolio

open Fallible

/-- The errors of portfolio construction; `infeasible` is `InfeasibleConstraintsError`. -/
inductive PortfolioError where
  | portfolio (message : String)
  | infeasible (message : String)
  deriving DecidableEq, Repr

/-- How the messages write a weight: `str(x)` and `f"{x:.4f}"`. -/
class WeightText where
  str : ℚ → String
  fixed4 : ℚ → String

def maxUniverse : ℕ := 5000

def maxProjectionIterations : ℕ := 500

def constraintTolerance : ℚ := 1 / 1000000000

/-- A one-dimensional array of finite numbers. -/
abbrev Weights (n : ℕ) := Fin n → ℚ

/-- `np.sum(np.abs(weights))`. -/
def gross {n : ℕ} (weights : Weights n) : ℚ := ∑ i, |weights i|

/-- `np.sum(weights)`. -/
def net {n : ℕ} (weights : Weights n) : ℚ := ∑ i, weights i

/-- An array with the shape of another one. -/
def alignTo (n : ℕ) (array : Σ m, Weights m) : Option (Weights n) :=
  if h : array.1 = n then some fun i => array.2 (i.cast h.symm) else none

/-- `PortfolioConstraints`; the fields after `longOnly` are what `__post_init__` checks. -/
structure PortfolioConstraints where
  maxPosition : ℚ := 1 / 10
  maxGross : ℚ := 1
  maxNet : ℚ := 1
  maxTurnover : Option ℚ := none
  maxLeverage : ℚ := 1
  cashBuffer : ℚ := 0
  longOnly : Bool := false
  positive : 0 < maxPosition ∧ 0 < maxGross ∧ 0 < maxLeverage
  maxNet_nonneg : 0 ≤ maxNet
  maxTurnover_nonneg : ∀ cap ∈ maxTurnover, 0 ≤ cap
  cashBuffer_mem : 0 ≤ cashBuffer ∧ cashBuffer < 1
  maxNet_le : maxNet ≤ maxGross
  maxGross_le : maxGross ≤ maxLeverage
  maxPosition_le : maxPosition ≤ maxGross

namespace PortfolioConstraints

variable [WeightText] (c : PortfolioConstraints)

def deployable : ℚ := 1 - c.cashBuffer

/-- The part of `check_feasible` that is about liquidity caps. -/
def checkLiquidity (target : ℚ) (liquidityCaps : Option (Σ m, Weights m)) :
    Except PortfolioError Unit :=
  match liquidityCaps with
  | none => .ok ()
  | some caps =>
      let available := gross caps.2
      refuseIf (available < target - constraintTolerance)
        (.infeasible ("liquidity caps permit gross " ++ WeightText.fixed4 available ++
          ", below the required " ++ WeightText.fixed4 target ++
          "; reduce capital or the gross target"))

/-- `check_feasible`. -/
def checkFeasible (nAssets : ℕ) (liquidityCaps : Option (Σ m, Weights m)) :
    Except PortfolioError Unit := do
  refuseIf (nAssets < 1) (.infeasible "cannot allocate over an empty universe")
  refuseIf (maxUniverse < nAssets)
    (.infeasible ("universe exceeds the " ++ toString maxUniverse ++ "-name ceiling"))
  let target := min c.maxGross c.deployable
  let reachable := c.maxPosition * nAssets
  refuseIf (reachable < target - constraintTolerance) (.infeasible ("max_position " ++
    WeightText.str c.maxPosition ++ " across " ++ toString nAssets ++ " names reaches gross " ++
    WeightText.fixed4 reachable ++ ", below the required " ++ WeightText.fixed4 target ++
    "; relax the position cap or widen the universe"))
  checkLiquidity target liquidityCaps
  refuseIf (c.longOnly = true ∧ c.maxNet + constraintTolerance < target)
    (.infeasible ("a long-only book has net equal to gross, so max_net below the gross " ++
      "target is unsatisfiable"))

/-- `gross_target`. -/
def grossTarget : ℚ := min (min c.maxGross c.deployable) c.maxLeverage

end PortfolioConstraints

/-! ## One pass -/

/-- The limits of a projection; `turnover` is a limit and the previous book. -/
structure Limits (n : ℕ) where
  lower : Weights n
  caps : Weights n
  maxNet : ℚ
  grossTarget : ℚ
  turnover : Option (ℚ × Weights n)

section Pass

variable {n : ℕ}

/-- `np.clip`. -/
def clip (weights lower caps : Weights n) : Weights n :=
  fun i => min (max (weights i) (lower i)) (caps i)

/-- The room of the active names under their caps. -/
def headroom (active : Fin n → Bool) (caps filled : Weights n) : Weights n :=
  fun i => if active i then caps i - |filled i| else 0

/-- One round of `_fill_to_target`; `none` is its break. -/
def fillRound (grossTarget : ℚ) (active : Fin n → Bool) (lower caps filled : Weights n) :
    Option (Weights n) :=
  let shortfall := grossTarget - gross filled
  if shortfall ≤ constraintTolerance then none
  else
    let room := headroom active caps filled
    let available := net room
    if available ≤ constraintTolerance then none
    else
      let share := fun i => room i / available * min shortfall available
      let sign := fun i => if filled i < 0 then (-1 : ℚ) else 1
      some (clip (fun i => filled i + sign i * share i) lower caps)

/-- The loop of `_fill_to_target`. -/
def fillRounds (grossTarget : ℚ) (active : Fin n → Bool) (lower caps : Weights n) :
    ℕ → Weights n → Weights n
  | 0, filled => filled
  | rounds + 1, filled =>
      match fillRound grossTarget active lower caps filled with
      | none => filled
      | some next => fillRounds grossTarget active lower caps rounds next

/-- `_fill_to_target`. -/
def fillToTarget (weights : Weights n) (grossTarget : ℚ) (active : Fin n → Bool)
    (lower caps : Weights n) : Weights n :=
  fillRounds grossTarget active lower caps 64 weights

/-- `weights > 0.0 if net > 0.0 else weights < 0.0`. -/
def onSide (netOf : ℚ) (weights : Weights n) (i : Fin n) : Bool :=
  if 0 < netOf then 0 < weights i else weights i < 0

/-- `_shift_net`. -/
def shiftNet (weights : Weights n) (netOf : ℚ) (maxNet : ℚ) (lower caps : Weights n) :
    Weights n :=
  let excess := |netOf| - maxNet
  let magnitude := ∑ i, if onSide netOf weights i then |weights i| else 0
  if magnitude ≤ 0 then weights
  else
    let scale := max (1 - excess / magnitude) 0
    clip (fun i => if onSide netOf weights i then weights i * scale else weights i) lower caps

/-- `_limit_turnover`. -/
def limitTurnover (weights previous : Weights n) (cap : ℚ) : Weights n :=
  let turnover := gross fun i => weights i - previous i
  if turnover ≤ cap + constraintTolerance ∨ turnover ≤ 0 then weights
  else fun i => previous i + (weights i - previous i) * (cap / turnover)

/-- The exposure limits that `_satisfied` tests. -/
structure WithinExposure (limits : Limits n) (weights : Weights n) : Prop where
  lower_le : ∀ i, limits.lower i - constraintTolerance ≤ weights i
  le_caps : ∀ i, weights i ≤ limits.caps i + constraintTolerance
  gross_le : gross weights ≤ limits.grossTarget + constraintTolerance
  net_le : |net weights| ≤ limits.maxNet + constraintTolerance

instance (limits : Limits n) (weights : Weights n) : Decidable (WithinExposure limits weights) :=
  decidable_of_iff ((∀ i, limits.lower i - constraintTolerance ≤ weights i) ∧
    (∀ i, weights i ≤ limits.caps i + constraintTolerance) ∧
    gross weights ≤ limits.grossTarget + constraintTolerance ∧
    |net weights| ≤ limits.maxNet + constraintTolerance)
    ⟨fun ⟨h, h', h'', h'''⟩ => ⟨h, h', h'', h'''⟩,
      fun h => ⟨h.lower_le, h.le_caps, h.gross_le, h.net_le⟩⟩

def WithinTurnover (turnover : Option (ℚ × Weights n)) (weights : Weights n) : Prop :=
  ∀ limit ∈ turnover, (gross fun i => weights i - limit.2 i) ≤ limit.1 + constraintTolerance

instance (turnover : Option (ℚ × Weights n)) (weights : Weights n) :
    Decidable (WithinTurnover turnover weights) :=
  match turnover with
  | none => .isTrue nofun
  | some limit => decidable_of_iff
      ((gross fun i => weights i - limit.2 i) ≤ limit.1 + constraintTolerance) (by
        simp [WithinTurnover])

/-- `_satisfied`. -/
def satisfied (limits : Limits n) (weights : Weights n) : Bool :=
  WithinExposure limits weights ∧ WithinTurnover limits.turnover weights

/-- The steps of a pass before the turnover limit. -/
def exposurePass (limits : Limits n) (active : Fin n → Bool) (weights : Weights n) : Weights n :=
  let clipped := clip weights limits.lower limits.caps
  let grossOf := gross clipped
  let sized :=
    if limits.grossTarget + constraintTolerance < grossOf ∧ 0 < grossOf then
      fun i => clipped i * (limits.grossTarget / grossOf)
    else if grossOf < limits.grossTarget - constraintTolerance ∧ 0 < grossOf then
      fillToTarget clipped limits.grossTarget active limits.lower limits.caps
    else clipped
  if limits.maxNet + constraintTolerance < |net sized| then
    shiftNet sized (net sized) limits.maxNet limits.lower limits.caps
  else sized

/-- One turn of the loop of `project_to_feasible`. -/
def projectionPass (limits : Limits n) (active : Fin n → Bool) (weights : Weights n) : Weights n :=
  match limits.turnover with
  | none => exposurePass limits active weights
  | some (cap, previous) => limitTurnover (exposurePass limits active weights) previous cap

/-- The loop of `project_to_feasible`. -/
def iterate (limits : Limits n) (active : Fin n → Bool) : ℕ → Weights n → Option (Weights n)
  | 0, _ => none
  | passes + 1, weights =>
      let next := projectionPass limits active weights
      if satisfied limits next then some next else iterate limits active passes next

end Pass

/-! ## The projection -/

section Projection

variable {n : ℕ} [WeightText] (target : Weights n) (c : PortfolioConstraints)
  (previous liquidityCaps : Option (Σ m, Weights m))

/-- The position caps. -/
def positionCaps : Except PortfolioError (Weights n) :=
  match liquidityCaps with
  | none => .ok fun _ => c.maxPosition
  | some array =>
      match alignTo n array with
      | none => .error (.portfolio "liquidity caps must align with the target weights")
      | some liquidity => do
          refuseIf (∃ i, liquidity i < 0)
            (.portfolio "liquidity caps must be finite and non-negative")
          return fun i => min c.maxPosition (liquidity i)

/-- The turnover limit, when there is a book that it applies to. -/
def turnoverLimit : Except PortfolioError (Option (ℚ × Weights n)) :=
  match c.maxTurnover, previous with
  | some budget, some array =>
      match alignTo n array with
      | none => .error (.portfolio "previous weights must align with the target weights")
      | some start => do
          let worst := max (|net start| - c.maxNet) (gross start - c.grossTarget)
          refuseIf (budget + constraintTolerance < worst) (.infeasible ("a turnover budget of " ++
            WeightText.str budget ++ " cannot correct the previous book: it is " ++
            WeightText.fixed4 worst ++ " outside the gross/net limits; raise max_turnover or " ++
            "relax the exposure limits"))
          return some (budget, start)
  | _, _ => .ok none

/-- What `project_to_feasible` does before its loop. -/
def projectionLimits : Except PortfolioError (Limits n) := do
  c.checkFeasible n liquidityCaps
  let caps ← positionCaps c liquidityCaps
  let turnover ← turnoverLimit c previous
  let lower := fun i => if c.longOnly then 0 else -caps i
  return ⟨lower, caps, c.maxNet, c.grossTarget, turnover⟩

/-- The names that the target holds. -/
def activeNames : Fin n → Bool := fun i => 0 < |target i|

/-- `project_to_feasible`. -/
def projectToFeasible : Except PortfolioError (Weights n) := do
  let limits ← projectionLimits c previous liquidityCaps
  match iterate limits (activeNames target) maxProjectionIterations target with
  | some weights => return weights
  | none => .error (.portfolio ("constraint projection did not converge; the limit set is " ++
      "likely degenerate even though it passed the feasibility check"))

end Projection

end SignalFoundry.Portfolio
