import Mathlib.Analysis.SpecialFunctions.Pow.Real
import Mathlib.Data.List.Sort
import Mathlib.Data.List.ReduceOption
import Mathlib.Data.Sign.Basic
import SignalFoundry.AlphaForge.Portfolio.Projection
import SignalFoundry.Library.ArrayStatistics
import SignalFoundry.Library.OrderedDict

/-!
# Uncertainty sizing

`apply_uncertainty_sizing` multiplies every weight by a clipped ratio of
uncertainties and then rescales the book to its gross exposure. The signs and the
gross exposure survive. The clip and the names without a usable uncertainty survive
the rescaling only when the weighted mean of the ratios is large enough, and one.
-/

namespace SignalFoundry.Portfolio

open Fallible ArrayStatistics

noncomputable section

/-- The sum of the absolute weights. -/
def grossOf {n : ℕ} (weights : Fin n → ℝ) : ℝ := ∑ i, |weights i|

section Sizing

variable {L : Type} [DecidableEq L] {n : ℕ} (index : Fin n → L) (weights : Fin n → ℝ)
  (uncertainty : OrderedDict L (Option ℝ)) (strength maxMultiple : ℝ)

/-- The aligned uncertainties that are `usable`. -/
def usable (i : Fin n) : Option ℝ :=
  ((uncertainty.get? (index i)).join).filter (0 < ·)

/-- The median of the usable uncertainties. -/
def reference : ℝ := median (List.ofFn (usable index uncertainty)).reduceOption

def tilt (i : Fin n) : ℝ :=
  match usable index uncertainty i with
  | none => 1
  | some value => min (max ((reference index uncertainty / value) ^ strength)
      (1 / maxMultiple)) maxMultiple

/-- `apply_uncertainty_sizing` of a series with an index and weights; the index is kept. -/
def applyUncertaintySizing : Except PortfolioError (Fin n → ℝ) := do
  refuseIf (¬ (0 ≤ strength ∧ strength ≤ 1)) (.portfolio "strength must lie in [0, 1]")
  refuseIf (maxMultiple < 1) (.portfolio "max_multiple must be at least 1.0")
  if ∀ i, usable index uncertainty i = none then return weights
  else
    let tilted := fun i => weights i * tilt index uncertainty strength maxMultiple i
    let grossBefore := grossOf weights
    let grossAfter := grossOf tilted
    return if 0 < grossAfter ∧ 0 < grossBefore then
      fun i => tilted i * (grossBefore / grossAfter) else tilted

end Sizing

/-! ## What the sizing promises -/

/-- The signs and the gross exposure are kept, no position grows by more than the multiple,
and a position without a usable uncertainty is kept. -/
structure BoundedSizing {n : ℕ} (before after : Fin n → ℝ) (usable : Fin n → Option ℝ)
    (maxMultiple : ℝ) : Prop where
  signs : ∀ i, SignType.sign (after i) = SignType.sign (before i)
  gross_eq : grossOf after = grossOf before
  capped : ∀ i, |after i| ≤ maxMultiple * |before i|
  kept : ∀ i, usable i = none → after i = before i

/-- The ratios, weighted by the book, are on average at least the largest ratio over the
multiple, and one when some held name has no usable uncertainty. -/
structure BalancedRatios {n : ℕ} (weights ratio : Fin n → ℝ) (usable : Fin n → Option ℝ)
    (maxMultiple : ℝ) : Prop where
  capped : ∀ i, weights i ≠ 0 →
    ratio i * ∑ j, |weights j| ≤ maxMultiple * ∑ j, |weights j| * ratio j
  kept : (∃ i, weights i ≠ 0 ∧ usable i = none) →
    ∑ j, |weights j| * ratio j = ∑ j, |weights j|

/-! ## Rescaling -/

section Rescaling

variable {n : ℕ} {weights ratio : Fin n → ℝ}

theorem grossOf_nonneg : 0 ≤ grossOf weights := Finset.sum_nonneg fun _ _ => abs_nonneg _

theorem grossOf_eq_zero_iff : grossOf weights = 0 ↔ ∀ i, weights i = 0 := by
  rw [grossOf, Finset.sum_eq_zero_iff_of_nonneg fun i _ => abs_nonneg _]
  simp

theorem grossOf_mul (weights : Fin n → ℝ) (hratio : ∀ i, 0 < ratio i) :
    grossOf (fun i => weights i * ratio i) = ∑ i, |weights i| * ratio i :=
  Finset.sum_congr rfl fun i _ => by rw [abs_mul, abs_of_pos (hratio i)]

theorem grossOf_mul_pos_iff (hratio : ∀ i, 0 < ratio i) :
    0 < grossOf (fun i => weights i * ratio i) ↔ 0 < grossOf weights := by
  have hzero : grossOf (fun i => weights i * ratio i) = 0 ↔ grossOf weights = 0 := by
    rw [grossOf_eq_zero_iff, grossOf_eq_zero_iff]
    exact forall_congr' fun i => by simp [(hratio i).ne']
  rw [lt_iff_le_and_ne, lt_iff_le_and_ne, ne_comm, ne_comm (a := 0), ne_eq, ne_eq, hzero]
  simp [grossOf_nonneg]

/-- The rescaled book promises what the ratios of the unscaled one allow. -/
theorem boundedSizing_rescaled_iff (hratio : ∀ i, 0 < ratio i) {maxMultiple : ℝ}
    {usable : Fin n → Option ℝ} (hunusable : ∀ i, usable i = none → ratio i = 1)
    (hgross : 0 < grossOf weights) :
    BoundedSizing weights (fun i => weights i * ratio i *
        (grossOf weights / grossOf fun i => weights i * ratio i)) usable maxMultiple ↔
      BalancedRatios weights ratio usable maxMultiple := by
  have hafter : 0 < grossOf fun i => weights i * ratio i := (grossOf_mul_pos_iff hratio).mpr hgross
  have hsum := grossOf_mul weights hratio
  have hscale : 0 < grossOf weights / grossOf fun i => weights i * ratio i :=
    div_pos hgross hafter
  have hpos : ∀ i, 0 < ratio i * (grossOf weights / grossOf fun i => weights i * ratio i) :=
    fun i => mul_pos (hratio i) hscale
  constructor
  · intro h
    refine ⟨fun i hi => ?_, fun ⟨i, hi, hnone⟩ => ?_⟩
    · have hcapped := h.capped i
      rw [mul_assoc, abs_mul, abs_of_pos (hpos i), mul_comm maxMultiple,
        mul_le_mul_iff_right₀ (abs_pos.mpr hi), ← mul_div_assoc, div_le_iff₀ hafter, hsum]
        at hcapped
      exact hcapped
    · have hkept := h.kept i hnone
      rw [hunusable i hnone, mul_one, mul_eq_left₀ hi, div_eq_one_iff_eq hafter.ne'] at hkept
      rw [← hsum]
      exact hkept.symm
  · intro h
    refine ⟨fun i => ?_, ?_, fun i => ?_, fun i hnone => ?_⟩
    · rw [mul_assoc, sign_mul, sign_pos (hpos i), mul_one]
    · have hmul : ∀ i, |weights i * ratio i *
          (grossOf weights / grossOf fun i => weights i * ratio i)| =
            |weights i * ratio i| * (grossOf weights / grossOf fun i => weights i * ratio i) :=
        fun i => by rw [abs_mul, abs_of_pos hscale]
      rw [grossOf, Finset.sum_congr rfl fun i _ => hmul i, ← Finset.sum_mul]
      exact mul_div_cancel₀ _ hafter.ne'
    · rcases eq_or_ne (weights i) 0 with hi | hi
      · simp [hi]
      · rw [mul_assoc, abs_mul, abs_of_pos (hpos i), mul_comm maxMultiple,
          mul_le_mul_iff_right₀ (abs_pos.mpr hi), ← mul_div_assoc, div_le_iff₀ hafter, hsum]
        exact h.capped i hi
    · rcases eq_or_ne (weights i) 0 with hi | hi
      · simp [hi]
      · have hmean := h.kept ⟨i, hi, hnone⟩
        rw [← hsum] at hmean
        rw [hunusable i hnone, mul_one, hmean]
        exact (mul_eq_left₀ hi).mpr (div_self hgross.ne')

end Rescaling

/-! ## The sizing -/

section Sizing

variable {L : Type} [DecidableEq L] {n : ℕ} {index : Fin n → L} {uncertainty : OrderedDict L (Option ℝ)}
  {strength maxMultiple : ℝ}

theorem tilt_of_none {i : Fin n} (h : usable index uncertainty i = none) :
    tilt index uncertainty strength maxMultiple i = 1 := by
  rw [tilt, h]

/-- The clip keeps every ratio positive. -/
theorem tilt_pos (hmultiple : 1 ≤ maxMultiple) (i : Fin n) :
    0 < tilt index uncertainty strength maxMultiple i := by
  have hpos : 0 < maxMultiple := one_pos.trans_le hmultiple
  rw [tilt]
  split
  · exact one_pos
  · exact lt_min (lt_max_of_lt_right (one_div_pos.mpr hpos)) hpos

/-- Without a usable uncertainty the book is balanced and kept. -/
theorem boundedSizing_self {before : Fin n → ℝ} {usable : Fin n → Option ℝ}
    (hmultiple : 1 ≤ maxMultiple) : BoundedSizing before before usable maxMultiple :=
  ⟨fun _ => rfl, rfl, fun _ => le_mul_of_one_le_left (abs_nonneg _) hmultiple, fun _ _ => rfl⟩

theorem balancedRatios_of_one {before ratio : Fin n → ℝ} {usable : Fin n → Option ℝ}
    (hmultiple : 1 ≤ maxMultiple) (hone : ∀ i, ratio i = 1) :
    BalancedRatios before ratio usable maxMultiple := by
  obtain rfl : ratio = fun _ => 1 := funext hone
  refine ⟨fun i _ => ?_, fun _ => by simp⟩
  simp only [one_mul, mul_one]
  exact le_mul_of_one_le_left (Finset.sum_nonneg fun _ _ => abs_nonneg _) hmultiple

/-- An empty book is balanced. -/
theorem balancedRatios_of_zero {before ratio : Fin n → ℝ} {usable : Fin n → Option ℝ}
    (hzero : ∀ i, before i = 0) : BalancedRatios before ratio usable maxMultiple :=
  ⟨fun i hi => absurd (hzero i) hi, fun ⟨i, hi, _⟩ => absurd (hzero i) hi⟩

/-- The sizing keeps its promises exactly on the books whose ratios are balanced. -/
theorem sizing_bounded_iff (index : Fin n → L) (weights : Fin n → ℝ)
    (uncertainty : OrderedDict L (Option ℝ)) {strength maxMultiple : ℝ}
    (hstrength : 0 ≤ strength ∧ strength ≤ 1) (hmultiple : 1 ≤ maxMultiple) :
    (∃ sized, applyUncertaintySizing index weights uncertainty strength maxMultiple = .ok sized ∧
      BoundedSizing weights sized (usable index uncertainty) maxMultiple) ↔
      BalancedRatios weights (tilt index uncertainty strength maxMultiple)
        (usable index uncertainty) maxMultiple := by
  have hratio : ∀ i, 0 < tilt index uncertainty strength maxMultiple i := tilt_pos hmultiple
  rw [applyUncertaintySizing, refuseIf_of_not (not_not.mpr hstrength), ok_bind,
    refuseIf_of_not (not_lt.mpr hmultiple), ok_bind]
  by_cases hnone : ∀ i, usable index uncertainty i = none
  · rw [if_pos hnone]
    exact iff_of_true ⟨weights, rfl, boundedSizing_self hmultiple⟩
      (balancedRatios_of_one hmultiple fun i => tilt_of_none (hnone i))
  · simp only [if_neg hnone, pure_eq_ok, Except.ok.injEq, exists_eq_left',
      grossOf_mul_pos_iff hratio, and_self]
    by_cases hgross : 0 < grossOf weights
    · rw [if_pos hgross]
      exact boundedSizing_rescaled_iff hratio (fun i => tilt_of_none) hgross
    · have hzero : ∀ i, weights i = 0 :=
        grossOf_eq_zero_iff.mp (le_antisymm (not_lt.mp hgross) grossOf_nonneg)
      rw [if_neg hgross]
      refine iff_of_true ?_ (balancedRatios_of_zero hzero)
      have hsame : (fun i => weights i * tilt index uncertainty strength maxMultiple i) = weights :=
        funext fun i => by rw [hzero i, zero_mul]
      rw [hsame]
      exact boundedSizing_self hmultiple

/-! ## Fixed books -/

/-- One name, which is its own reference. -/
def singleUncertainty : OrderedDict (Fin 1) (Option ℝ) := ⟨[(0, some 1)], by decide⟩

theorem tilt_single (i : Fin 1) : tilt id singleUncertainty 1 2 i = 1 := by
  have husable : usable id singleUncertainty = fun _ => some 1 := by
    refine funext (Fin.forall_fin_one.mpr ?_)
    change Option.filter (0 < ·) (some (1 : ℝ)) = some 1
    simp
  have hreference : reference id singleUncertainty = 1 := by
    rw [reference, husable]
    have hlist : (List.ofFn fun _ : Fin 1 => some (1 : ℝ)).reduceOption = [1] := rfl
    rw [hlist]
    norm_num [median]
  rw [tilt, husable, hreference]
  norm_num

theorem single_bounded : ∃ sized, applyUncertaintySizing id ![1] singleUncertainty 1 2 =
    .ok sized ∧ BoundedSizing ![1] sized (usable id singleUncertainty) 2 :=
  (sizing_bounded_iff id ![1] singleUncertainty (by norm_num) (by norm_num)).mpr
    (balancedRatios_of_one (by norm_num) tilt_single)

/-- Two names, whose uncertainties are 1 and 3. -/
def lopsidedUncertainty : OrderedDict (Fin 2) (Option ℝ) :=
  ⟨[(0, some 1), (1, some 3)], by decide⟩

theorem usable_lopsided : usable id lopsidedUncertainty = ![some 1, some 3] := by
  refine funext (Fin.forall_fin_two.mpr ⟨?_, ?_⟩)
  · change Option.filter (0 < ·) (some (1 : ℝ)) = some 1
    simp
  · change Option.filter (0 < ·) (some (3 : ℝ)) = some 3
    simp

theorem tilt_lopsided : tilt id lopsidedUncertainty 1 2 = ![2, 2 / 3] := by
  have hreference : reference id lopsidedUncertainty = 2 := by
    have hlist : (List.ofFn (usable id lopsidedUncertainty)).reduceOption = [1, 3] := by
      rw [usable_lopsided]
      rfl
    rw [reference, hlist]
    norm_num [median, List.insertionSort, List.orderedInsert]
  refine funext (Fin.forall_fin_two.mpr ⟨?_, ?_⟩)
  · unfold tilt
    rw [usable_lopsided, hreference]
    norm_num
  · unfold tilt
    rw [usable_lopsided, hreference]
    norm_num

/-- The smaller position is multiplied by 5/2, beyond the multiple of 2. -/
theorem lopsided_not_bounded :
    applyUncertaintySizing id ![1 / 10, 9 / 10] lopsidedUncertainty 1 2 =
        .ok ![1 / 4, 3 / 4] ∧
      ¬ BoundedSizing ![1 / 10, 9 / 10] ![1 / 4, 3 / 4] (usable id lopsidedUncertainty) 2 := by
  have hbefore : grossOf ![1 / 10, 9 / 10] = 1 := by
    norm_num [grossOf, Fin.sum_univ_two]
  have htilted : (fun i => ![1 / 10, 9 / 10] i * tilt id lopsidedUncertainty 1 2 i) =
      ![1 / 5, 3 / 5] := by
    rw [tilt_lopsided]
    refine funext (Fin.forall_fin_two.mpr ⟨?_, ?_⟩)
    · norm_num
    · norm_num
  have hafter : grossOf ![1 / 5, 3 / 5] = 4 / 5 := by
    norm_num [grossOf, Fin.sum_univ_two]
  have hsome : ¬ ∀ i, usable id lopsidedUncertainty i = none := fun h => by
    have hfirst := h 0
    rw [usable_lopsided] at hfirst
    cases hfirst
  constructor
  · rw [applyUncertaintySizing, refuseIf_of_not (by norm_num), ok_bind,
      refuseIf_of_not (by norm_num), ok_bind, if_neg hsome]
    simp only [htilted, hbefore, hafter]
    rw [if_pos (by norm_num), pure_eq_ok]
    refine congrArg Except.ok (funext fun i => ?_)
    rw [congrFun htilted i]
    revert i
    refine Fin.forall_fin_two.mpr ⟨?_, ?_⟩
    · norm_num
    · norm_num
  · intro h
    have hcapped : |(1 / 4 : ℝ)| ≤ 2 * |1 / 10| := h.capped 0
    norm_num [abs_of_pos] at hcapped

end Sizing

end

end SignalFoundry.Portfolio
