import Mathlib.Algebra.BigOperators.Field
import Mathlib.Algebra.Order.BigOperators.Ring.Finset
import Mathlib.Tactic.Linarith
import Mathlib.Tactic.NormNum
import Mathlib.Tactic.Ring
import SignalFoundry.AlphaForge.Portfolio.Projection

/-!
# One pass obeys the exposure limits

After one pass every weight is in its box, the gross exposure at most its target and the
net exposure at most its limit. Only the turnover limit can take a book out again.
-/

namespace SignalFoundry.Portfolio

open Fallible

variable {n : ℕ}

theorem constraintTolerance_pos : 0 < constraintTolerance := by
  norm_num [constraintTolerance]

/-- What the checks of a projection leave of its limits. -/
structure Limits.Valid (limits : Limits n) : Prop where
  caps_nonneg : ∀ i, 0 ≤ limits.caps i
  lower_eq : (∀ i, limits.lower i = 0) ∨ ∀ i, limits.lower i = -limits.caps i
  maxNet_nonneg : 0 ≤ limits.maxNet
  grossTarget_pos : 0 < limits.grossTarget

namespace Limits.Valid

variable {limits : Limits n} (hvalid : limits.Valid)

include hvalid

theorem lower_nonpos (i : Fin n) : limits.lower i ≤ 0 := by
  rcases hvalid.lower_eq with h | h
  · exact (h i).le
  · rw [h i]
    exact neg_nonpos.mpr (hvalid.caps_nonneg i)

theorem neg_caps_le (i : Fin n) : -limits.caps i ≤ limits.lower i := by
  rcases hvalid.lower_eq with h | h
  · rw [h i]
    exact neg_nonpos.mpr (hvalid.caps_nonneg i)
  · exact (h i).ge

end Limits.Valid

/-! ## The box -/

/-- Every weight is between its bounds. -/
def InBox (limits : Limits n) (weights : Weights n) : Prop :=
  ∀ i, limits.lower i ≤ weights i ∧ weights i ≤ limits.caps i

section Box

variable {limits : Limits n} (hvalid : limits.Valid) {weights : Weights n}

include hvalid

theorem clip_inBox (weights : Weights n) :
    InBox limits (clip weights limits.lower limits.caps) := fun i =>
  ⟨le_min (le_max_right _ _) ((hvalid.lower_nonpos i).trans (hvalid.caps_nonneg i)),
    min_le_right _ _⟩

theorem abs_clip_le (weights : Weights n) (i : Fin n) :
    |clip weights limits.lower limits.caps i| ≤ |weights i| := by
  have hlower := hvalid.lower_nonpos i
  have hcaps := hvalid.caps_nonneg i
  rw [clip, abs_le]
  constructor
  · exact le_min ((neg_abs_le _).trans (le_max_left _ _))
      ((neg_nonpos.mpr (abs_nonneg _)).trans hcaps)
  · exact (min_le_left _ _).trans (max_le (le_abs_self _) (hlower.trans (abs_nonneg _)))

theorem InBox.abs_le_caps (h : InBox limits weights) (i : Fin n) : |weights i| ≤ limits.caps i :=
  abs_le.mpr ⟨(hvalid.neg_caps_le i).trans (h i).1, (h i).2⟩

/-- Shrinking a weight keeps it in its box. -/
theorem InBox.shrink (h : InBox limits weights) {scale : Fin n → ℚ}
    (hscale : ∀ i, 0 ≤ scale i ∧ scale i ≤ 1) : InBox limits fun i => weights i * scale i := by
  intro i
  obtain ⟨hzero, hone⟩ := hscale i
  have hlower := hvalid.lower_nonpos i
  have hcaps := hvalid.caps_nonneg i
  obtain ⟨hl, hc⟩ := h i
  constructor
  · exact (le_mul_of_le_one_right hlower hone).trans (mul_le_mul_of_nonneg_right hl hzero)
  · exact (mul_le_mul_of_nonneg_right hc hzero).trans (mul_le_of_le_one_right hcaps hone)

end Box

theorem clip_of_inBox {limits : Limits n} {weights : Weights n} (h : InBox limits weights) :
    clip weights limits.lower limits.caps = weights :=
  funext fun i => by rw [clip, max_eq_left (h i).1, min_eq_left (h i).2]

theorem gross_nonneg (weights : Weights n) : 0 ≤ gross weights :=
  Finset.sum_nonneg fun _ _ => abs_nonneg _

theorem abs_net_le_gross (weights : Weights n) : |net weights| ≤ gross weights :=
  Finset.abs_sum_le_sum_abs _ _

/-! ## Filling to the gross target -/

/-- What one round of filling does: the shares go to the names with room, and are not more
than what is short. -/
theorem fillRound_eq_some_iff {limits : Limits n} {active : Fin n → Bool}
    {weights next : Weights n} :
    fillRound limits.grossTarget active limits.lower limits.caps weights = some next ↔
      constraintTolerance < limits.grossTarget - gross weights ∧
      constraintTolerance < net (headroom active limits.caps weights) ∧
      next = clip (fun i => weights i + (if weights i < 0 then (-1 : ℚ) else 1) *
        (headroom active limits.caps weights i / net (headroom active limits.caps weights) *
          min (limits.grossTarget - gross weights) (net (headroom active limits.caps weights))))
        limits.lower limits.caps := by
  rw [fillRound]
  dsimp only
  split
  · next h => simp [h.not_gt]
  · next h =>
      split
      · next h' => simp [h'.not_gt]
      · next h' => simp [not_le.mp h, not_le.mp h', eq_comm]

section Fill

variable {limits : Limits n} (hvalid : limits.Valid) {active : Fin n → Bool} {weights : Weights n}

include hvalid

theorem headroom_nonneg (active : Fin n → Bool) (h : InBox limits weights) (i : Fin n) :
    0 ≤ headroom active limits.caps weights i := by
  rw [headroom]
  split
  · exact sub_nonneg.mpr (h.abs_le_caps hvalid i)
  · exact le_rfl

theorem fillRound_spec (h : InBox limits weights) {next : Weights n}
    (hnext : fillRound limits.grossTarget active limits.lower limits.caps weights = some next) :
    InBox limits next ∧ gross next ≤ limits.grossTarget := by
  obtain ⟨hshort, havailable, rfl⟩ := fillRound_eq_some_iff.mp hnext
  have htolerance := constraintTolerance_pos
  have hroom := headroom_nonneg hvalid active h
  refine ⟨clip_inBox hvalid _, ?_⟩
  generalize hroomEq : headroom active limits.caps weights = room at *
  have hmin : 0 ≤ min (limits.grossTarget - gross weights) (net room) :=
    le_min (by linarith) (by linarith)
  have hshare : ∀ i, 0 ≤ room i / net room * min (limits.grossTarget - gross weights) (net room) :=
    fun i => mul_nonneg (div_nonneg (hroom i) (by linarith)) hmin
  have hterm : ∀ i, |clip (fun i => weights i + (if weights i < 0 then (-1 : ℚ) else 1) *
      (room i / net room * min (limits.grossTarget - gross weights) (net room)))
        limits.lower limits.caps i| ≤
      |weights i| + room i / net room * min (limits.grossTarget - gross weights) (net room) := by
    intro i
    refine (abs_clip_le hvalid _ i).trans ((abs_add_le _ _).trans (add_le_add_right ?_ _))
    rw [abs_mul, abs_of_nonneg (hshare i)]
    split <;> simp
  have hshares : ∑ i, room i / net room *
      min (limits.grossTarget - gross weights) (net room) =
        min (limits.grossTarget - gross weights) (net room) := by
    rw [← Finset.sum_mul, ← Finset.sum_div]
    exact mul_eq_right₀ (by have := lt_min hshort havailable; linarith) |>.mpr
      (div_self (by change net room ≠ 0; linarith))
  calc gross _ ≤ ∑ i, (|weights i| +
        room i / net room * min (limits.grossTarget - gross weights) (net room)) :=
          Finset.sum_le_sum fun i _ => hterm i
    _ = gross weights + min (limits.grossTarget - gross weights) (net room) := by
        rw [Finset.sum_add_distrib, hshares]
        rfl
    _ ≤ limits.grossTarget := by
        have := min_le_left (limits.grossTarget - gross weights) (net room)
        linarith

theorem fillRounds_spec (active : Fin n → Bool) (rounds : ℕ) (h : InBox limits weights)
    (hgross : gross weights ≤ limits.grossTarget) :
    InBox limits (fillRounds limits.grossTarget active limits.lower limits.caps rounds weights) ∧
      gross (fillRounds limits.grossTarget active limits.lower limits.caps rounds weights) ≤
        limits.grossTarget := by
  induction rounds generalizing weights with
  | zero => exact ⟨h, hgross⟩
  | succ rounds ih =>
      rw [fillRounds]
      cases hnext : fillRound limits.grossTarget active limits.lower limits.caps weights with
      | none => exact ⟨h, hgross⟩
      | some next =>
          obtain ⟨hbox, hle⟩ := fillRound_spec hvalid h hnext
          exact ih hbox hle

end Fill

/-! ## Trimming the net exposure -/

section Shift

variable {limits : Limits n} (hvalid : limits.Valid) {weights : Weights n}

include hvalid

omit hvalid in
/-- Trimming the weights of one sign by what the net exposure is over its limit. -/
theorem net_trim {sign maxNet : ℚ} (hsign : |sign| = 1) (hmaxNet : 0 ≤ maxNet)
    (hnet : maxNet < sign * net weights) {side : Fin n → Bool}
    (hside : ∀ i, side i = true ↔ 0 < sign * weights i) {magnitude : ℚ}
    (hmagnitude : magnitude = ∑ i, if side i then |weights i| else 0) :
    0 < magnitude ∧ 0 ≤ 1 - (sign * net weights - maxNet) / magnitude ∧
      sign * net (fun i => if side i then
        weights i * (1 - (sign * net weights - maxNet) / magnitude) else weights i) = maxNet := by
  have habs : ∀ i, side i = true → |weights i| = sign * weights i := fun i hi => by
    rw [← abs_of_pos ((hside i).mp hi), abs_mul, hsign, one_mul]
  have hrest : ∑ i, (if side i then 0 else sign * weights i) ≤ 0 :=
    Finset.sum_nonpos fun i _ => by
      split
      · exact le_rfl
      · next hi => exact not_lt.mp ((hside i).not.mp hi)
  have htotal : sign * net weights =
      magnitude + ∑ i, (if side i then 0 else sign * weights i) := by
    rw [hmagnitude, ← Finset.sum_add_distrib, net, Finset.mul_sum]
    refine Finset.sum_congr rfl fun i _ => ?_
    split
    · next hi => rw [habs i hi, add_zero]
    · rw [zero_add]
  have hpos : 0 < magnitude := by linarith
  have hscale : (sign * net weights - maxNet) / magnitude ≤ 1 := by
    rw [div_le_iff₀ hpos, one_mul]
    linarith
  refine ⟨hpos, by linarith, ?_⟩
  generalize hfraction : (sign * net weights - maxNet) / magnitude = fraction at *
  have htrimmed : sign * net (fun i => if side i then weights i * (1 - fraction) else weights i) =
      magnitude * (1 - fraction) + ∑ i, (if side i then 0 else sign * weights i) := by
    rw [hmagnitude, Finset.sum_mul, ← Finset.sum_add_distrib, net, Finset.mul_sum]
    refine Finset.sum_congr rfl fun i _ => ?_
    split
    · next hi => rw [habs i hi, add_zero, mul_assoc]
    · rw [zero_mul, zero_add]
  have hproduct : magnitude * fraction = sign * net weights - maxNet := by
    rw [← hfraction]
    exact mul_div_cancel₀ _ hpos.ne'
  rw [htrimmed, mul_sub, mul_one, hproduct, htotal]
  ring

/-- Trimming the side of a net exposure over its limit brings it to its limit, by a factor
between zero and one on that side. -/
theorem shiftNet_spec (h : InBox limits weights) (hnet : limits.maxNet < |net weights|) :
    ∃ scale : Fin n → ℚ, (∀ i, 0 ≤ scale i ∧ scale i ≤ 1) ∧
      shiftNet weights (net weights) limits.maxNet limits.lower limits.caps =
        (fun i => weights i * scale i) ∧
      |net fun i => weights i * scale i| = limits.maxNet := by
  have hmaxNet := hvalid.maxNet_nonneg
  have hne : net weights ≠ 0 := fun hzero => by
    rw [hzero, abs_zero] at hnet
    linarith
  obtain ⟨sign, hsign, hsignNet⟩ : ∃ sign : ℚ, |sign| = 1 ∧ sign * net weights = |net weights| := by
    rcases lt_or_gt_of_ne hne with hlt | hgt
    · exact ⟨-1, by norm_num, by rw [abs_of_neg hlt, neg_one_mul]⟩
    · exact ⟨1, by norm_num, by rw [abs_of_pos hgt, one_mul]⟩
  have hside : ∀ i, onSide (net weights) weights i = true ↔ 0 < sign * weights i := by
    intro i
    rw [onSide]
    rcases lt_or_gt_of_ne hne with hlt | hgt
    · have hneg : sign = -1 := by
        rw [abs_of_neg hlt] at hsignNet
        exact mul_right_cancel₀ hne (hsignNet.trans (neg_one_mul _).symm)
      rw [if_neg hlt.not_gt, hneg, neg_one_mul, neg_pos, decide_eq_true_eq]
    · have hone : sign = 1 := by
        rw [abs_of_pos hgt] at hsignNet
        exact mul_right_cancel₀ hne (hsignNet.trans (one_mul _).symm)
      rw [if_pos hgt, hone, one_mul, decide_eq_true_eq]
  obtain ⟨hpos, hscale, hresult⟩ := net_trim hsign hmaxNet (hnet.trans_eq hsignNet.symm) hside rfl
  rw [hsignNet] at hscale hresult
  generalize hmagnitude : (∑ i, if onSide (net weights) weights i then |weights i| else 0) =
    magnitude at hpos hscale hresult
  have hone : 1 - (|net weights| - limits.maxNet) / magnitude ≤ 1 :=
    sub_le_self _ (div_nonneg (by linarith) hpos.le)
  have hfactor : (fun i => if onSide (net weights) weights i then
      weights i * (1 - (|net weights| - limits.maxNet) / magnitude) else weights i) =
        fun i => weights i * if onSide (net weights) weights i then
          1 - (|net weights| - limits.maxNet) / magnitude else 1 := by
    funext i
    split
    · rfl
    · rw [mul_one]
  have hunit : ∀ i, 0 ≤ (if onSide (net weights) weights i then
      1 - (|net weights| - limits.maxNet) / magnitude else 1) ∧
        (if onSide (net weights) weights i then
          1 - (|net weights| - limits.maxNet) / magnitude else 1) ≤ 1 := by
    intro i
    split
    · exact ⟨hscale, hone⟩
    · exact ⟨zero_le_one, le_rfl⟩
  refine ⟨_, hunit, ?_, ?_⟩
  · simp only [shiftNet, hmagnitude, if_neg (not_le.mpr hpos), max_eq_left hscale]
    rw [hfactor, clip_of_inBox (h.shrink hvalid hunit)]
  · have habs := congrArg abs hresult
    rw [abs_mul, hsign, one_mul, abs_of_nonneg hmaxNet] at habs
    rw [← hfactor]
    exact habs

end Shift

/-! ## One pass -/

section Pass

variable {limits : Limits n} (hvalid : limits.Valid) {active : Fin n → Bool}

include hvalid

/-- The book of a pass after the gross step. -/
theorem sized_spec (active : Fin n → Bool) (weights : Weights n) :
    ∃ sized, InBox limits sized ∧ gross sized ≤ limits.grossTarget + constraintTolerance ∧
      exposurePass limits active weights =
        (if limits.maxNet + constraintTolerance < |net sized| then
          shiftNet sized (net sized) limits.maxNet limits.lower limits.caps else sized) ∧
      sized = (if limits.grossTarget + constraintTolerance <
            gross (clip weights limits.lower limits.caps) ∧
          0 < gross (clip weights limits.lower limits.caps) then
        fun i => clip weights limits.lower limits.caps i *
          (limits.grossTarget / gross (clip weights limits.lower limits.caps))
      else if gross (clip weights limits.lower limits.caps) <
            limits.grossTarget - constraintTolerance ∧
          0 < gross (clip weights limits.lower limits.caps) then
        fillToTarget (clip weights limits.lower limits.caps) limits.grossTarget active
          limits.lower limits.caps
      else clip weights limits.lower limits.caps) := by
  have htolerance := constraintTolerance_pos
  have hgrossTarget := hvalid.grossTarget_pos
  have hbox := clip_inBox hvalid weights
  refine ⟨_, ?_, ?_, rfl, rfl⟩
  · split
    · next h =>
        obtain ⟨hover, hpos⟩ := h
        refine hbox.shrink hvalid fun _ => ⟨div_nonneg hgrossTarget.le hpos.le, ?_⟩
        rw [div_le_iff₀ hpos, one_mul]
        linarith
    · split
      · next h => exact (fillRounds_spec hvalid active 64 hbox (by linarith [h.1])).1
      · exact hbox
  · split
    · next h =>
        have hscaled : (gross fun i => clip weights limits.lower limits.caps i *
            (limits.grossTarget / gross (clip weights limits.lower limits.caps))) =
              limits.grossTarget := by
          have hscale : 0 ≤ limits.grossTarget / gross (clip weights limits.lower limits.caps) :=
            div_nonneg hgrossTarget.le h.2.le
          rw [gross, Finset.sum_congr rfl fun i _ => by rw [abs_mul, abs_of_nonneg hscale],
            ← Finset.sum_mul]
          exact mul_div_cancel₀ _ h.2.ne'
        rw [hscaled]
        linarith
    · next hunder =>
        split
        · next h =>
            have hle := (fillRounds_spec hvalid active 64 hbox (by linarith [h.1])).2
            rw [fillToTarget]
            linarith
        · by_contra hover
          exact hunder ⟨not_le.mp hover, by linarith [not_le.mp hover]⟩

/-- One pass obeys the exposure limits. -/
theorem withinExposure_exposurePass (active : Fin n → Bool) (weights : Weights n) :
    WithinExposure limits (exposurePass limits active weights) := by
  have htolerance := constraintTolerance_pos
  obtain ⟨sized, hbox, hgross, hpass, -⟩ := sized_spec hvalid active weights
  rw [hpass]
  split
  · next hnet =>
      obtain ⟨scale, hscale, hshift, hnetEq⟩ := shiftNet_spec hvalid hbox (by linarith)
      have hshrunk := hbox.shrink hvalid hscale
      rw [hshift]
      refine ⟨fun i => by linarith [(hshrunk i).1], fun i => by linarith [(hshrunk i).2],
        le_trans (Finset.sum_le_sum fun i _ => ?_) hgross, by rw [hnetEq]; linarith⟩
      rw [abs_mul, abs_of_nonneg (hscale i).1]
      exact mul_le_of_le_one_right (abs_nonneg _) (hscale i).2
  · next hnet =>
      exact ⟨fun i => by linarith [(hbox i).1], fun i => by linarith [(hbox i).2], hgross,
        not_lt.mp hnet⟩

end Pass

/-! ## The turnover limit -/

/-- Shrinking a trade to the turnover limit keeps it within the limit. -/
theorem withinTurnover_limitTurnover {cap : ℚ} (hcap : 0 ≤ cap) (weights previous : Weights n) :
    WithinTurnover (some (cap, previous)) (limitTurnover weights previous cap) := by
  have htolerance := constraintTolerance_pos
  intro limit hlimit
  cases Option.mem_some_iff.mp hlimit
  rw [limitTurnover]
  dsimp only
  split
  · next h =>
      rcases h with h | h
      · exact h
      · linarith
  · next h =>
      have hpos : 0 < gross fun i => weights i - previous i := by
        by_contra hle
        exact h (.inr (not_lt.mp hle))
      have hshrunk : (gross fun i => previous i + (weights i - previous i) *
          (cap / gross fun i => weights i - previous i) - previous i) = cap := by
        rw [gross, Finset.sum_congr rfl fun i _ => by
          rw [add_sub_cancel_left, abs_mul, abs_of_nonneg (div_nonneg hcap hpos.le)],
          ← Finset.sum_mul]
        exact mul_div_cancel₀ _ hpos.ne'
      rw [hshrunk]
      linarith

/-- Between two books within the exposure limits, every book is. -/
theorem WithinExposure.between {limits : Limits n} {start stop : Weights n}
    (hstart : WithinExposure limits start) (hstop : WithinExposure limits stop) {t : ℚ}
    (ht : 0 ≤ t ∧ t ≤ 1) :
    WithinExposure limits fun i => start i + (stop i - start i) * t := by
  obtain ⟨hzero, hone⟩ := ht
  have hblend : ∀ i, start i + (stop i - start i) * t = start i * (1 - t) + stop i * t :=
    fun i => by ring
  have hconvex : ∀ {a b bound : ℚ}, a ≤ bound → b ≤ bound → a * (1 - t) + b * t ≤ bound := by
    intro a b bound ha hb
    nlinarith
  refine ⟨fun i => ?_, fun i => ?_, ?_, ?_⟩
  · have hneg := hconvex (neg_le_neg (hstart.lower_le i)) (neg_le_neg (hstop.lower_le i))
    rw [hblend]
    linarith
  · rw [hblend]
    exact hconvex (hstart.le_caps i) (hstop.le_caps i)
  · have hsum : (gross fun i => start i + (stop i - start i) * t) ≤
        gross start * (1 - t) + gross stop * t := by
      rw [gross, gross, gross, Finset.sum_mul, Finset.sum_mul, ← Finset.sum_add_distrib]
      refine Finset.sum_le_sum fun i _ => ?_
      rw [hblend]
      refine (abs_add_le _ _).trans_eq ?_
      rw [abs_mul, abs_mul, abs_of_nonneg hzero, abs_of_nonneg (sub_nonneg.mpr hone)]
    exact hsum.trans (hconvex hstart.gross_le hstop.gross_le)
  · have hsum : (net fun i => start i + (stop i - start i) * t) =
        net start * (1 - t) + net stop * t := by
      rw [net, net, net, Finset.sum_mul, Finset.sum_mul, ← Finset.sum_add_distrib]
      exact Finset.sum_congr rfl fun i _ => hblend i
    rw [hsum]
    refine (abs_add_le _ _).trans ?_
    rw [abs_mul, abs_mul, abs_of_nonneg hzero, abs_of_nonneg (sub_nonneg.mpr hone)]
    exact hconvex hstart.net_le hstop.net_le

/-! ## The loop -/

theorem satisfied_iff {limits : Limits n} {weights : Weights n} :
    satisfied limits weights = true ↔
      WithinExposure limits weights ∧ WithinTurnover limits.turnover weights := by
  rw [satisfied, decide_eq_true_eq]

theorem satisfied_of_iterate {limits : Limits n} {active : Fin n → Bool} {passes : ℕ}
    {weights result : Weights n} (h : iterate limits active passes weights = some result) :
    satisfied limits result = true := by
  induction passes generalizing weights with
  | zero => cases h
  | succ passes ih =>
      rw [iterate] at h
      split at h
      · next hsatisfied =>
          cases h
          exact hsatisfied
      · exact ih h

/-- A loop whose first pass obeys every limit returns that pass. -/
theorem iterate_of_satisfied {limits : Limits n} {active : Fin n → Bool} {weights : Weights n}
    (h : satisfied limits (projectionPass limits active weights) = true) :
    iterate limits active maxProjectionIterations weights =
      some (projectionPass limits active weights) := by
  rw [maxProjectionIterations, iterate]
  exact if_pos h

/-- Without a turnover limit, the first pass is the result. -/
theorem iterate_of_no_turnover {limits : Limits n} (hvalid : limits.Valid)
    (hnone : limits.turnover = none) (active : Fin n → Bool) (weights : Weights n) :
    iterate limits active maxProjectionIterations weights =
      some (exposurePass limits active weights) := by
  have hpass : projectionPass limits active weights = exposurePass limits active weights := by
    rw [projectionPass, hnone]
  rw [iterate_of_satisfied, hpass]
  rw [hpass, satisfied_iff, hnone]
  exact ⟨withinExposure_exposurePass hvalid active weights, fun _ heq => by cases heq⟩

end SignalFoundry.Portfolio
