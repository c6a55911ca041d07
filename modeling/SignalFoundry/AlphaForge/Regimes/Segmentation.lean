import Mathlib.Algebra.BigOperators.Group.Finset.Basic
import Mathlib.Algebra.Order.Monoid.WithTop
import Mathlib.Analysis.SpecialFunctions.Log.Basic
import Mathlib.Analysis.SpecialFunctions.Trigonometric.Basic
import Mathlib.Data.List.MinMax
import Mathlib.Data.List.ReduceOption
import Mathlib.Data.List.Sort
import Mathlib.Tactic.Abel
import SignalFoundry.Library.ArrayStatistics
import SignalFoundry.Library.Fallible

/-!
# Retrospective segmentation

The dynamic program that both segmenters run over their segment costs: `best k t` is
the least cost of the first `t` observations with `k` change points, `previous` the
last of them, and the change points are read back from `previous`.
-/

namespace SignalFoundry.Regimes

open Fallible

/-- `RegimeError`. -/
structure RegimeError where
  message : String
  deriving DecidableEq, Repr

section Program

variable {K : Type} [AddCommMonoid K] [LinearOrder K]
  (cost : ℕ → ℕ → WithTop K) (penalty : K)

/-- `candidates`, for the start of the last segment. -/
def candidate (row : ℕ → WithTop K) (stop start : ℕ) : WithTop K :=
  row start + cost start stop + penalty

/-- `position + 1`: the first start with the least candidate. -/
def argminStart (row : ℕ → WithTop K) (stop : ℕ) : ℕ :=
  ((List.range' 1 (stop - 1)).argmin (candidate cost penalty row stop)).getD 0

/-- The table `best`. -/
def best : ℕ → ℕ → WithTop K
  | 0, stop => if stop = 0 then ⊤ else cost 0 stop
  | cuts + 1, stop =>
      if stop < 2 then ⊤
      else candidate cost penalty (best cuts) stop (argminStart cost penalty (best cuts) stop)

/-- The table `previous`. -/
def previous : ℕ → ℕ → ℕ
  | 0, _ => 0
  | cuts + 1, stop => if stop < 2 then 0 else argminStart cost penalty (best cost penalty cuts) stop

/-- The loop that collects `points`. -/
def backtrack : ℕ → ℕ → List ℕ
  | 0, _ => []
  | cuts + 1, stop =>
      let start := previous cost penalty (cuts + 1) stop
      start :: backtrack cuts start

/-- `chosen`. -/
def chosenCuts (maxChangePoints length : ℕ) : ℕ :=
  ((List.range (maxChangePoints + 1)).argmin fun cuts => best cost penalty cuts length).getD 0

end Program

/-- `Segmentation`; its constructor checks that the change points ascend. -/
structure Segmentation (K : Type) where
  changePoints : List ℕ
  method : String
  cost : WithTop K
  penalty : K
  causal : Bool := false
  ascending : changePoints.Pairwise (· < ·)

section Segmenter

variable {K : Type} [AddCommMonoid K] [LinearOrder K]

/-- What both segmenters do with their costs. -/
def segmentWith (cost : ℕ → ℕ → WithTop K) (penalty : K) (maxChangePoints length : ℕ)
    (method : String) : Except RegimeError (Segmentation K) := do
  let chosen := chosenCuts cost penalty maxChangePoints length
  let points := (backtrack cost penalty chosen length).insertionSort (· ≤ ·)
  let ⟨hascending⟩ ← require (points.Pairwise (· < ·)) ⟨"change points must be strictly ascending"⟩
  return ⟨points, method, best cost penalty chosen length, penalty, false, hascending⟩

end Segmenter

/-! ## Segmentations of a series -/

section Segmentations

variable {K : Type} [AddCommMonoid K] {cost : ℕ → ℕ → WithTop K} {penalty : K}

/-- Change points ascend and lie inside the series. -/
structure IsSegmentation (length : ℕ) (points : List ℕ) : Prop where
  ascending : points.Pairwise (· < ·)
  inside : ∀ point ∈ points, 1 ≤ point ∧ point < length

/-- The sum of the segment costs, and the penalty for every change point. -/
def segmentationCost (cost : ℕ → ℕ → WithTop K) (penalty : K) (length : ℕ) (points : List ℕ) :
    WithTop K :=
  (List.zipWith cost (0 :: points) (points ++ [length])).sum + points.length • (penalty : WithTop K)

@[simp] theorem segmentationCost_nil (length : ℕ) :
    segmentationCost cost penalty length [] = cost 0 length := by
  simp [segmentationCost]

/-- A last change point adds its segment and its penalty. -/
theorem segmentationCost_concat (length : ℕ) (points : List ℕ) (point : ℕ) :
    segmentationCost cost penalty length (points ++ [point]) =
      segmentationCost cost penalty point points + cost point length + penalty := by
  have hzip : List.zipWith cost (0 :: (points ++ [point])) (points ++ [point] ++ [length]) =
      List.zipWith cost (0 :: points) (points ++ [point]) ++ [cost point length] := by
    rw [← List.cons_append, List.zipWith_append (by simp)]
    rfl
  rw [segmentationCost, hzip, List.sum_append, List.sum_singleton, List.length_append,
    List.length_singleton, succ_nsmul, segmentationCost]
  abel

theorem IsSegmentation.concat {length : ℕ} {points : List ℕ} {point : ℕ}
    (h : IsSegmentation point points) (hpos : 1 ≤ point) (hlt : point < length) :
    IsSegmentation length (points ++ [point]) := by
  refine ⟨List.pairwise_append.mpr ⟨h.ascending, List.pairwise_singleton _ _, ?_⟩, ?_⟩
  · intro a ha b hb
    rw [List.mem_singleton.mp hb]
    exact (h.inside a ha).2
  · intro p hp
    rcases List.mem_append.mp hp with hp | hp
    · exact ⟨(h.inside p hp).1, (h.inside p hp).2.trans hlt⟩
    · rw [List.mem_singleton.mp hp]
      exact ⟨hpos, hlt⟩

theorem IsSegmentation.of_concat {length : ℕ} {points : List ℕ} {point : ℕ}
    (h : IsSegmentation length (points ++ [point])) :
    IsSegmentation point points ∧ 1 ≤ point ∧ point < length := by
  have hpoint := h.inside point (by simp)
  obtain ⟨hascending, -, hbefore⟩ := List.pairwise_append.mp h.ascending
  exact ⟨⟨hascending, fun p hp => ⟨(h.inside p (List.mem_append_left _ hp)).1,
    hbefore p hp point (List.mem_singleton_self _)⟩⟩, hpoint⟩

end Segmentations

/-! ## The tables -/

section Optimal

variable {K : Type} [AddCommMonoid K] [LinearOrder K] {cost : ℕ → ℕ → WithTop K} {penalty : K}

/-- A segmentation of least cost among those with at most `maxChangePoints` change points. -/
structure GloballyOptimal (cost : ℕ → ℕ → WithTop K) (penalty : K) (maxChangePoints length : ℕ)
    (s : Segmentation K) : Prop where
  isSegmentation : IsSegmentation length s.changePoints
  count_le : s.changePoints.length ≤ maxChangePoints
  cost_ne_top : s.cost ≠ ⊤
  cost_eq : s.cost = segmentationCost cost penalty length s.changePoints
  minimal : ∀ points, IsSegmentation length points → points.length ≤ maxChangePoints →
    s.cost ≤ segmentationCost cost penalty length points

theorem argminStart_spec (cost : ℕ → ℕ → WithTop K) (penalty : K) (row : ℕ → WithTop K) {stop : ℕ}
    (hstop : 2 ≤ stop) :
    (1 ≤ argminStart cost penalty row stop ∧ argminStart cost penalty row stop < stop) ∧
      ∀ start, 1 ≤ start → start < stop →
        candidate cost penalty row stop (argminStart cost penalty row stop) ≤
          candidate cost penalty row stop start := by
  have hmem : ∀ start, start ∈ List.range' 1 (stop - 1) ↔ 1 ≤ start ∧ start < stop := fun start => by
    rw [List.mem_range'_1]
    omega
  cases hargmin : (List.range' 1 (stop - 1)).argmin (candidate cost penalty row stop) with
  | none =>
      have hempty := List.argmin_eq_none.mp hargmin
      have hone := (hmem 1).mpr ⟨le_rfl, hstop⟩
      rw [hempty] at hone
      cases hone
  | some start =>
      rw [argminStart, hargmin, Option.getD_some]
      exact ⟨(hmem start).mp (List.argmin_mem hargmin), fun other hpos hlt =>
        List.le_of_mem_argmin ((hmem other).mpr ⟨hpos, hlt⟩) hargmin⟩

/-- No segmentation with as many change points costs less than the table says. -/
theorem best_le [IsOrderedAddMonoid K] (cuts : ℕ) {stop : ℕ} {points : List ℕ} (hstop : 1 ≤ stop)
    (h : IsSegmentation stop points) (hlength : points.length = cuts) :
    best cost penalty cuts stop ≤ segmentationCost cost penalty stop points := by
  induction cuts generalizing stop points with
  | zero =>
      rw [List.length_eq_zero_iff.mp hlength, segmentationCost_nil, best, if_neg (by omega)]
  | succ cuts ih =>
      obtain ⟨rest, point, rfl⟩ := (List.eq_nil_or_concat points).resolve_left fun hnil => by
        rw [hnil] at hlength
        cases hlength
      rw [List.concat_eq_append] at h hlength ⊢
      obtain ⟨hrest, hpos, hlt⟩ := h.of_concat
      rw [List.length_append, List.length_singleton, Nat.add_right_cancel_iff] at hlength
      rw [segmentationCost_concat, best, if_neg (by omega)]
      refine ((argminStart_spec cost penalty (best cost penalty cuts) (by omega)).2 point hpos hlt).trans ?_
      exact add_le_add_left (add_le_add_left (ih hpos hrest hlength) _) _

/-- A finite entry of the table is the cost of the change points that are read back. -/
theorem backtrack_spec (cuts : ℕ) {stop : ℕ} (hbest : best cost penalty cuts stop ≠ ⊤) :
    IsSegmentation stop (backtrack cost penalty cuts stop).reverse ∧
      (backtrack cost penalty cuts stop).length = cuts ∧
      segmentationCost cost penalty stop (backtrack cost penalty cuts stop).reverse =
        best cost penalty cuts stop := by
  induction cuts generalizing stop with
  | zero =>
      refine ⟨⟨List.Pairwise.nil, nofun⟩, rfl, ?_⟩
      have hstop : stop ≠ 0 := fun hzero => hbest (by rw [best, if_pos hzero])
      rw [backtrack, List.reverse_nil, segmentationCost_nil, best, if_neg hstop]
  | succ cuts ih =>
      have hstop : ¬ stop < 2 := fun hlt => hbest (by rw [best, if_pos hlt])
      rw [best, if_neg hstop, candidate] at hbest
      obtain ⟨⟨hpos, hlt⟩, -⟩ :=
        argminStart_spec cost penalty (best cost penalty cuts) (not_lt.mp hstop)
      have hrest := (WithTop.add_ne_top.mp (WithTop.add_ne_top.mp hbest).1).1
      obtain ⟨hsegmentation, hcount, hcost⟩ := ih hrest
      rw [backtrack, previous, if_neg hstop, List.reverse_cons]
      refine ⟨hsegmentation.concat hpos hlt, by rw [List.length_cons, hcount], ?_⟩
      rw [segmentationCost_concat, hcost, best, if_neg hstop, candidate]

theorem chosenCuts_spec (cost : ℕ → ℕ → WithTop K) (penalty : K) (maxChangePoints length : ℕ) :
    chosenCuts cost penalty maxChangePoints length ≤ maxChangePoints ∧
      ∀ cuts ≤ maxChangePoints,
        best cost penalty (chosenCuts cost penalty maxChangePoints length) length ≤
          best cost penalty cuts length := by
  cases hargmin : (List.range (maxChangePoints + 1)).argmin
      fun cuts => best cost penalty cuts length with
  | none =>
      have hempty := List.argmin_eq_none.mp hargmin
      rw [List.range_succ] at hempty
      exact absurd hempty (List.append_ne_nil_of_right_ne_nil _ (List.cons_ne_nil _ _))
  | some chosen =>
      rw [chosenCuts, hargmin, Option.getD_some]
      exact ⟨Nat.lt_succ_iff.mp (List.mem_range.mp (List.argmin_mem hargmin)), fun cuts hcuts =>
        List.le_of_mem_argmin (f := fun cuts => best cost penalty cuts length)
          (List.mem_range.mpr (Nat.lt_succ_of_le hcuts)) hargmin⟩

/-- The dynamic program returns a segmentation of least cost. -/
theorem exists_globallyOptimal [IsOrderedAddMonoid K] {maxChangePoints length : ℕ} (hlength : 1 ≤ length)
    (hcost : cost 0 length ≠ ⊤) (method : String) :
    ∃ s, segmentWith cost penalty maxChangePoints length method = .ok s ∧ s.penalty = penalty ∧
      GloballyOptimal cost penalty maxChangePoints length s := by
  obtain ⟨hchosen, hleast⟩ :=
    chosenCuts_spec cost penalty maxChangePoints length
  generalize hcuts : chosenCuts cost penalty maxChangePoints length = chosen at hchosen hleast
  have hfinite : best cost penalty chosen length ≠ ⊤ := by
    have hle := hleast 0 (Nat.zero_le _)
    rw [best, if_neg (by omega)] at hle
    exact ne_top_of_le_ne_top hcost hle
  obtain ⟨hsegmentation, hcount, hcostEq⟩ := backtrack_spec chosen hfinite
  have hsorted : (backtrack cost penalty chosen length).insertionSort (· ≤ ·) =
      (backtrack cost penalty chosen length).reverse :=
    List.Perm.eq_of_pairwise' (List.pairwise_insertionSort _ _)
      (hsegmentation.ascending.imp fun h => h.le)
      ((List.perm_insertionSort _ _).trans (List.reverse_perm _).symm)
  have hascending : ((backtrack cost penalty chosen length).insertionSort (· ≤ ·)).Pairwise
      (· < ·) := hsorted ▸ hsegmentation.ascending
  refine ⟨⟨_, method, _, penalty, false, hascending⟩, ?_, rfl, ?_, ?_, hfinite, ?_,
    fun points hpoints hlen => ?_⟩
  · rw [segmentWith, hcuts]
    show (require _ _ >>= _) = _
    rw [require_of hascending, ok_bind]
    rfl
  · dsimp only
    rw [hsorted]
    exact hsegmentation
  · dsimp only
    rw [hsorted, List.length_reverse, hcount]
    exact hchosen
  · dsimp only
    rw [hsorted, hcostEq]
  · exact (hleast _ hlen).trans (best_le _ hlength hpoints rfl)

end Optimal

end SignalFoundry.Regimes

/-! ## The retrospective segmenters

`segment_bayesian` and `segment_kernel` run one dynamic program over their own segment
costs. Both return a segmentation of least cost, and the kernel costs, which are read
off prefix sums of the Gram matrix, are the scatters of the segments. -/

namespace SignalFoundry.Regimes

open Fallible ArrayStatistics

noncomputable section

def maxSegmentSeries : ℕ := 5000

def maxChangePoints : ℕ := 50

/-- `_validate_segment_input`; `none` is a value that is not finite. -/
def validateSegmentInput (values : List (Option ℝ)) (changePoints : ℤ) (penalty : ℝ) :
    Except RegimeError (List ℝ) := do
  refuseIf (values.any Option.isNone = true)
    ⟨"segmentation requires a finite series; it fails closed on gaps"⟩
  refuseIf (values.length < 4) ⟨"segmentation needs at least four observations"⟩
  refuseIf (maxSegmentSeries < values.length) ⟨"series of " ++ toString values.length ++
    " exceeds the " ++ toString maxSegmentSeries ++ " segmentation ceiling; retrospective " ++
    "segmentation is quadratic in length"⟩
  refuseIf (¬ (1 ≤ changePoints ∧ changePoints ≤ maxChangePoints))
    ⟨"max_change_points must be in [1, " ++ toString maxChangePoints ++ "]"⟩
  refuseIf (penalty < 0) ⟨"penalty must be finite and non-negative"⟩
  return values.reduceOption

/-! ## Segment costs -/

/-- The observation at a position. -/
def observation (values : List ℝ) (i : ℕ) : ℝ := values.getD i 0

/-- `_gaussian_segment_costs`. -/
def gaussianSegmentCosts (values : List ℝ) (start stop : ℕ) : WithTop ℝ :=
  if start < stop ∧ stop ≤ values.length then
    let sums := prefixSums (observation values)
    let squares := prefixSums fun i => observation values i ^ 2
    let count : ℝ := (stop - start : ℕ)
    let total := sums stop - sums start
    let totalSquare := squares stop - squares start
    let variance := max (totalSquare / count - (total / count) ^ 2) (1 / 10 ^ 12)
    ((1 / 2 * count * (Real.log (2 * Real.pi * variance) + 1) : ℝ) : WithTop ℝ)
  else ⊤

/-- The pairwise distances above the diagonal. -/
def upperDistances (values : List ℝ) : List ℝ :=
  (List.range values.length).flatMap fun i =>
    (List.range' (i + 1) (values.length - (i + 1))).map fun j => |observation values i - observation values j|

/-- The bandwidth of `_rbf_gram`. -/
def bandwidthOf (values : List ℝ) (bandwidth : Option ℝ) : ℝ :=
  match bandwidth with
  | some width => width
  | none =>
      let upper := upperDistances values
      let middle := if upper = [] then 1 else median upper
      if 0 < middle then middle else 1

/-- `_rbf_gram`. -/
def rbfGram (values : List ℝ) (bandwidth : Option ℝ) : Except RegimeError (ℕ → ℕ → ℝ) := do
  let width := bandwidthOf values bandwidth
  refuseIf (width ≤ 0) ⟨"bandwidth must be finite and positive"⟩
  return fun i j => Real.exp (-(|observation values i - observation values j| ^ 2) / (2 * width ^ 2))

/-- `_kernel_segment_costs`. -/
def kernelSegmentCosts (gram : ℕ → ℕ → ℝ) (length start stop : ℕ) : WithTop ℝ :=
  if start < stop ∧ stop ≤ length then
    let block := blockSums gram
    let diagonal := prefixSums fun i => gram i i
    let count : ℝ := (stop - start : ℕ)
    let total := block stop stop - block start stop - block stop start + block start start
    (((diagonal stop - diagonal start) - total / count : ℝ) : WithTop ℝ)
  else ⊤

/-! ## The segmenters -/

/-- `segment_bayesian`. -/
def segmentBayesian (values : List (Option ℝ)) (changePoints : ℤ) (penalty : ℝ) :
    Except RegimeError (Segmentation ℝ) := do
  let array ← validateSegmentInput values changePoints penalty
  segmentWith (gaussianSegmentCosts array) penalty changePoints.toNat array.length "bayesian_dp"

/-- `segment_kernel`. -/
def segmentKernel (values : List (Option ℝ)) (changePoints : ℤ) (penalty : ℝ)
    (bandwidth : Option ℝ) : Except RegimeError (Segmentation ℝ) := do
  let array ← validateSegmentInput values changePoints penalty
  let gram ← rbfGram array bandwidth
  segmentWith (kernelSegmentCosts gram array.length) penalty changePoints.toNat array.length
    "kernel_rbf"

/-- A series that is accepted has four observations. -/
theorem four_le_of_validateSegmentInput {values : List (Option ℝ)} {changePoints : ℤ} {penalty : ℝ}
    {array : List ℝ} (h : validateSegmentInput values changePoints penalty = .ok array) :
    4 ≤ array.length := by
  obtain ⟨_, hfinite, h⟩ := bind_eq_ok_iff.mp h
  obtain ⟨_, hfour, h⟩ := bind_eq_ok_iff.mp h
  obtain ⟨_, -, h⟩ := bind_eq_ok_iff.mp h
  obtain ⟨_, -, h⟩ := bind_eq_ok_iff.mp h
  obtain ⟨_, -, h⟩ := bind_eq_ok_iff.mp h
  cases h
  have hsome : ∀ value ∈ values, value.isSome = true := fun value hvalue => by
    cases value with
    | none => exact absurd (List.any_eq_true.mpr ⟨none, hvalue, rfl⟩) (refuseIf_eq_ok_iff.mp hfinite)
    | some x => rfl
  rw [List.reduceOption_length_eq_iff.mpr hsome]
  exact not_lt.mp (refuseIf_eq_ok_iff.mp hfour)

/-- A kernel segment cost is the scatter of its segment. -/
theorem kernelSegmentCosts_eq_scatter (gram : ℕ → ℕ → ℝ) {length start stop : ℕ}
    (hlt : start < stop) (hle : stop ≤ length) :
    kernelSegmentCosts gram length start stop =
      ((∑ i ∈ Finset.Ico start stop, gram i i - 1 / ((stop - start : ℕ) : ℝ) *
        ∑ i ∈ Finset.Ico start stop, ∑ j ∈ Finset.Ico start stop, gram i j : ℝ) : WithTop ℝ) := by
  rw [kernelSegmentCosts, if_pos ⟨hlt, hle⟩]
  dsimp only
  rw [prefixSums_sub _ hlt.le, blockSums_square gram hlt.le, div_eq_inv_mul, one_div]

/-- Both segmenters return a segmentation of least cost, for their own segment costs. -/
theorem segmentation_optimal {values : List (Option ℝ)} {changePoints : ℤ} {penalty : ℝ}
    {array : List ℝ} (hvalid : validateSegmentInput values changePoints penalty = .ok array) :
    (∃ s, segmentBayesian values changePoints penalty = .ok s ∧ s.penalty = penalty ∧
      GloballyOptimal (gaussianSegmentCosts array) penalty changePoints.toNat array.length s) ∧
    ∀ bandwidth gram, rbfGram array bandwidth = .ok gram →
      (∃ s, segmentKernel values changePoints penalty bandwidth = .ok s ∧ s.penalty = penalty ∧
        GloballyOptimal (kernelSegmentCosts gram array.length) penalty changePoints.toNat
          array.length s) ∧
      ∀ start stop, start < stop → stop ≤ array.length →
        kernelSegmentCosts gram array.length start stop =
          ((∑ i ∈ Finset.Ico start stop, gram i i - 1 / ((stop - start : ℕ) : ℝ) *
            ∑ i ∈ Finset.Ico start stop, ∑ j ∈ Finset.Ico start stop, gram i j : ℝ) :
              WithTop ℝ) := by
  have hlength := four_le_of_validateSegmentInput hvalid
  have hwhole : 0 < array.length ∧ array.length ≤ array.length := ⟨by omega, le_rfl⟩
  refine ⟨?_, fun bandwidth gram hgram => ⟨?_, fun start stop hlt hle =>
    kernelSegmentCosts_eq_scatter gram hlt hle⟩⟩
  · rw [segmentBayesian, hvalid, ok_bind]
    refine exists_globallyOptimal hwhole.1 ?_ _
    rw [gaussianSegmentCosts, if_pos hwhole]
    exact WithTop.coe_ne_top
  · rw [segmentKernel, hvalid, ok_bind, hgram, ok_bind]
    refine exists_globallyOptimal hwhole.1 ?_ _
    rw [kernelSegmentCosts, if_pos hwhole]
    exact WithTop.coe_ne_top

theorem short_series_optimal : ∃ s, segmentBayesian [some 0, some 0, some 1, some 1] 1 1 = .ok s ∧
    s.penalty = 1 ∧ GloballyOptimal (gaussianSegmentCosts [0, 0, 1, 1]) 1 1 4 s := by
  have hvalid : validateSegmentInput [some 0, some 0, some 1, some 1] 1 1 = .ok [0, 0, 1, 1] := by
    rw [validateSegmentInput, refuseIf_of_not (by simp), ok_bind, refuseIf_of_not (by simp), ok_bind,
      refuseIf_of_not (by simp [maxSegmentSeries]), ok_bind,
      refuseIf_of_not (by simp [maxChangePoints]), ok_bind, refuseIf_of_not (by norm_num), ok_bind]
    rfl
  exact (segmentation_optimal hvalid).1

end

end SignalFoundry.Regimes
