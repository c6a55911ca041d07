import Mathlib.Tactic.Linarith
import SignalFoundry.AlphaForge.Decision.Policy

/-!
# Decisions are monotone and fail closed

A signal has no finding exactly when its numbers are finite, in their ranges and
within every threshold. These conditions are monotone in each number, so a signal that
is at least as good as a trade is a trade.
-/

namespace SignalFoundry.DecisionPolicy

/-! ## Signals without a finding -/

section Tradeable

variable {t : DecisionThresholds} {signal : DecisionSignal}

/-- What the gates leave of a signal with these values and this age of its data. -/
structure Tradeable (t : DecisionThresholds) (signal : DecisionSignal) (dataAgeSeconds : ℚ)
    (value : NumericField → ℚ) : Prop where
  numeric_eq : ∀ field, signal.numeric field = .finite (value field)
  return_le : |value .expectedReturn| ≤ t.maximumAbsoluteExpectedReturn
  unit_mem : ∀ field, field ≠ .expectedReturn → 0 ≤ value field ∧ value field ≤ 1
  age_nonneg : 0 ≤ dataAgeSeconds
  age_le : dataAgeSeconds ≤ t.maximumDataAgeSeconds
  cost_le : t.costMultiplier *
    (value .expectedCost + t.costUncertaintyMultiplier * value .costUncertainty) ≤
      t.maximumTotalCost
  disagreement_le : value .modelDisagreement ≤ t.maximumModelDisagreement
  supported : signal.regime = .supported
  regimeUncertainty_le : value .regimeUncertainty ≤ t.maximumRegimeUncertainty
  drift_le : value .driftScore ≤ t.maximumDriftScore
  uncertainty_le : value .predictionUncertainty ≤ t.maximumPredictionUncertainty
  margin_lt : t.requiredMargin < |value .expectedReturn| - t.costMultiplier *
    (value .expectedCost + t.costUncertaintyMultiplier * value .costUncertainty) -
      t.uncertaintyPenalty * value .predictionUncertainty

theorem gate_eq_nil_iff {fires : Bool} {reason : DecisionReason} {fields : List String} :
    gate fires reason fields = [] ↔ fires = false := by
  cases fires with
  | false => simp [gate]
  | true => simp [gate]

theorem nonFinite_eq_nil_iff :
    nonFinite signal = [] ↔ ∀ field, (signal.numeric field).isFinite = true := by
  rw [nonFinite, List.filter_eq_nil_iff]
  exact ⟨fun h field => by simpa using h field field.mem_all, fun h field _ => by simp [h field]⟩

/-- The bounds of a signal whose numbers are finite. -/
theorem outOfBounds_eq_nil_iff {value : NumericField → ℚ}
    (hvalue : ∀ field, signal.numeric field = .finite (value field)) :
    outOfBounds t signal = [] ↔ |value .expectedReturn| ≤ t.maximumAbsoluteExpectedReturn ∧
      ∀ field, field ≠ .expectedReturn → 0 ≤ value field ∧ value field ≤ 1 := by
  have hfinite : ∀ field, (signal.numeric field).isFinite = true := fun field =>
    PyNumber.isFinite_eq_true_iff.mpr ⟨_, hvalue field⟩
  rw [outOfBounds, List.append_eq_nil_iff, List.filter_eq_nil_iff]
  refine and_congr ?_ ?_
  · rw [hfinite, hvalue]
    simp [PyNumber.abs, PyNumber.le]
  · refine forall_congr' fun field => ?_
    rw [NumericField.mem_unitFields_iff, hfinite, hvalue]
    simp [PyNumber.le]

theorem validValue_of_valid {value : NumericField → ℚ}
    (hvalue : ∀ field, signal.numeric field = .finite (value field))
    (hfinite : nonFinite signal = []) (hbounds : outOfBounds t signal = []) (field : NumericField) :
    validValue t signal field = some (value field) := by
  rw [validValue, hfinite, hbounds, if_neg (by simp), hvalue]
  rfl

/-- A signal has no finding exactly when it passes every gate. -/
theorem findings_eq_nil_iff {dataAgeSeconds : ℚ} :
    findings t signal dataAgeSeconds = [] ↔ ∃ value, Tradeable t signal dataAgeSeconds value := by
  simp only [findings, List.append_eq_nil_iff, gate_eq_nil_iff, decide_eq_false_iff_not, not_not,
    not_and, not_lt]
  constructor
  · rintro ⟨⟨⟨⟨⟨⟨⟨⟨⟨⟨hfinite, hbounds⟩, hfuture⟩, hstale⟩, hcost⟩, hdisagreement⟩, hregime⟩,
      hregimeUncertainty⟩, hdrift⟩, huncertainty⟩, hmargin⟩
    choose value hvalue using fun field =>
      PyNumber.isFinite_eq_true_iff.mp (nonFinite_eq_nil_iff.mp hfinite field)
    obtain ⟨hreturn, hunit⟩ := (outOfBounds_eq_nil_iff hvalue).mp hbounds
    have hvalid := validValue_of_valid hvalue hfinite hbounds
    simp only [conservativeCost, uncertaintyCharge, penalizedValue, hvalid, Option.map_some,
      Option.bind_eq_bind, Option.bind_some, Option.pure_def, Option.any_some,
      decide_eq_false_iff_not, not_lt, not_le]
      at hcost hdisagreement hregimeUncertainty hdrift huncertainty hmargin
    exact ⟨value, hvalue, hreturn, hunit, hfuture, hstale hfuture, hcost, hdisagreement, hregime,
      hregimeUncertainty, hdrift, huncertainty, hmargin⟩
  · rintro ⟨value, h⟩
    have hfinite : nonFinite signal = [] := nonFinite_eq_nil_iff.mpr fun field =>
      PyNumber.isFinite_eq_true_iff.mpr ⟨_, h.numeric_eq field⟩
    have hbounds := (outOfBounds_eq_nil_iff h.numeric_eq).mpr ⟨h.return_le, h.unit_mem⟩
    have hvalid := validValue_of_valid h.numeric_eq hfinite hbounds
    simp only [conservativeCost, uncertaintyCharge, penalizedValue, hvalid, Option.map_some,
      Option.bind_eq_bind, Option.bind_some, Option.pure_def, Option.any_some,
      decide_eq_false_iff_not, not_lt, not_le]
    exact ⟨⟨⟨⟨⟨⟨⟨⟨⟨⟨hfinite, hbounds⟩, h.age_nonneg⟩, fun _ => h.age_le⟩, h.cost_le⟩,
      h.disagreement_le⟩, h.supported⟩, h.regimeUncertainty_le⟩, h.drift_le⟩, h.uncertainty_le⟩,
      h.margin_lt⟩

/-- Every finding fails a field. -/
theorem fields_ne_nil_of_mem_findings {dataAgeSeconds : ℚ} {found : DecisionReason × List String}
    (h : found ∈ findings t signal dataAgeSeconds) : found.2 ≠ [] := by
  have hgate : ∀ {fires : Bool} {reason : DecisionReason} {fields : List String},
      (fires = true → fields ≠ []) → found ∈ gate fires reason fields → found.2 ≠ [] := by
    intro fires reason fields hfields hmem
    cases fires with
    | false => cases hmem
    | true => exact List.mem_singleton.mp hmem ▸ hfields rfl
  have hnamed : ∀ fields : List NumericField, decide (fields ≠ []) = true →
      fields.map NumericField.name ≠ [] := fun fields hne => by simpa using hne
  simp only [findings, List.mem_append] at h
  rcases h with (((((((((h | h) | h) | h) | h) | h) | h) | h) | h) | h) | h
  · exact hgate (hnamed _) h
  · exact hgate (hnamed _) h
  all_goals exact hgate (fun _ => List.cons_ne_nil _ _) h

/-- The penalized value of a tradeable signal. -/
theorem Tradeable.penalizedValue_eq {dataAgeSeconds : ℚ} {value : NumericField → ℚ}
    (h : Tradeable t signal dataAgeSeconds value) : ∃ penalized,
      penalizedValue t signal = some penalized ∧ t.requiredMargin < penalized := by
  have hfinite : nonFinite signal = [] := nonFinite_eq_nil_iff.mpr fun field =>
    PyNumber.isFinite_eq_true_iff.mpr ⟨_, h.numeric_eq field⟩
  have hbounds := (outOfBounds_eq_nil_iff h.numeric_eq).mpr ⟨h.return_le, h.unit_mem⟩
  have hvalid := validValue_of_valid h.numeric_eq hfinite hbounds
  refine ⟨_, ?_, h.margin_lt⟩
  simp only [penalizedValue, conservativeCost, uncertaintyCharge, hvalid, Option.map_some,
    Option.bind_eq_bind, Option.bind_some, Option.pure_def]

/-- A tradeable signal forecasts a direction. -/
theorem Tradeable.directionOf_ne {dataAgeSeconds : ℚ} {value : NumericField → ℚ}
    (h : Tradeable t signal dataAgeSeconds value) :
    directionOf (signal.numeric .expectedReturn) ≠ .flat := by
  have hcost : 0 ≤ t.costMultiplier *
      (value .expectedCost + t.costUncertaintyMultiplier * value .costUncertainty) :=
    mul_nonneg (zero_le_one.trans t.costMultiplier_mem.1)
      (add_nonneg (h.unit_mem .expectedCost nofun).1
        (mul_nonneg t.costUncertaintyMultiplier_mem.1 (h.unit_mem .costUncertainty nofun).1))
  have hcharge : 0 ≤ t.uncertaintyPenalty * value .predictionUncertainty :=
    mul_nonneg t.uncertaintyPenalty_mem.1 (h.unit_mem .predictionUncertainty nofun).1
  have hreturn : value .expectedReturn ≠ 0 := by
    have hmargin := h.margin_lt
    have hrequired := t.requiredMargin_mem.1
    intro hzero
    rw [hzero, abs_zero] at hmargin
    linarith
  rw [h.numeric_eq, directionOf, if_neg hreturn]
  split <;> nofun

/-- The second signal promises at least the return of the first, within the bound, and is at
most as costly, uncertain, drifted and old, in a supported regime. -/
structure AtLeastAsGood (t : DecisionThresholds) (first second : DecisionSignal) : Prop where
  return_le : (first.numeric .expectedReturn).abs.le (second.numeric .expectedReturn).abs = true
  return_bound : (second.numeric .expectedReturn).abs.le
    (.finite t.maximumAbsoluteExpectedReturn) = true
  nonneg : ∀ field, field ≠ .expectedReturn → (PyNumber.finite 0).le (second.numeric field) = true
  le : ∀ field, field ≠ .expectedReturn → (second.numeric field).le (first.numeric field) = true
  regime : second.regime = .supported
  age : ∃ firstAge secondAge, first.dataAgeSeconds = some firstAge ∧
    second.dataAgeSeconds = some secondAge ∧ 0 ≤ secondAge ∧ secondAge ≤ firstAge

/-- A signal that is at least as good passes every gate too. -/
theorem Tradeable.mono {first second : DecisionSignal} {firstAge secondAge : ℚ}
    {value : NumericField → ℚ} (h : Tradeable t first firstAge value)
    (hgood : AtLeastAsGood t first second) (hage : 0 ≤ secondAge ∧ secondAge ≤ firstAge) :
    ∃ value', Tradeable t second secondAge value' := by
  have hreturn : ∃ y, second.numeric .expectedReturn = .finite y ∧
      |value .expectedReturn| ≤ |y| ∧ |y| ≤ t.maximumAbsoluteExpectedReturn := by
    have hlower := hgood.return_le
    have hupper := hgood.return_bound
    rw [h.numeric_eq] at hlower
    cases hsecond : second.numeric .expectedReturn with
    | finite y =>
        rw [hsecond] at hlower hupper
        exact ⟨y, rfl, PyNumber.le_finite_finite.mp hlower, PyNumber.le_finite_finite.mp hupper⟩
    | posInf =>
        rw [hsecond] at hupper
        cases hupper
    | negInf =>
        rw [hsecond] at hupper
        cases hupper
    | nan =>
        rw [hsecond] at hupper
        cases hupper
  have hcosts : ∀ field, field ≠ .expectedReturn →
      ∃ y, second.numeric field = .finite y ∧ 0 ≤ y ∧ y ≤ value field := fun field hfield => by
    have hupper := hgood.le field hfield
    rw [h.numeric_eq] at hupper
    exact PyNumber.exists_finite_of_le (hgood.nonneg field hfield) hupper
  have hvalues : ∀ field, ∃ y, second.numeric field = .finite y := fun field => by
    by_cases hfield : field = .expectedReturn
    · subst hfield
      exact hreturn.imp fun _ hy => hy.1
    · exact (hcosts field hfield).imp fun _ hy => hy.1
  choose value' hvalue' using hvalues
  obtain ⟨y, hy, hreturnLe, hbound⟩ := hreturn
  obtain rfl : value' .expectedReturn = y := by
    rw [hvalue'] at hy
    exact PyNumber.finite.inj hy
  have hle : ∀ field, field ≠ .expectedReturn → 0 ≤ value' field ∧ value' field ≤ value field := by
    intro field hfield
    obtain ⟨y, hy, hbounds⟩ := hcosts field hfield
    rw [hvalue'] at hy
    exact PyNumber.finite.inj hy ▸ hbounds
  have hcost := hle .expectedCost nofun
  have hcostUncertainty := hle .costUncertainty nofun
  have huncertainty := hle .predictionUncertainty nofun
  have hconservative : t.costMultiplier *
      (value' .expectedCost + t.costUncertaintyMultiplier * value' .costUncertainty) ≤
        t.costMultiplier *
          (value .expectedCost + t.costUncertaintyMultiplier * value .costUncertainty) :=
    mul_le_mul_of_nonneg_left (add_le_add hcost.2
      (mul_le_mul_of_nonneg_left hcostUncertainty.2 t.costUncertaintyMultiplier_mem.1))
        (zero_le_one.trans t.costMultiplier_mem.1)
  have hcharge : t.uncertaintyPenalty * value' .predictionUncertainty ≤
      t.uncertaintyPenalty * value .predictionUncertainty :=
    mul_le_mul_of_nonneg_left huncertainty.2 t.uncertaintyPenalty_mem.1
  have hmargin := h.margin_lt
  exact ⟨value', hvalue', hbound,
    fun field hfield => ⟨(hle field hfield).1, (hle field hfield).2.trans (h.unit_mem field hfield).2⟩,
    hage.1, hage.2.trans h.age_le, hconservative.trans h.cost_le,
    (hle .modelDisagreement nofun).2.trans h.disagreement_le, hgood.regime,
    (hle .regimeUncertainty nofun).2.trans h.regimeUncertainty_le,
    (hle .driftScore nofun).2.trans h.drift_le, huncertainty.2.trans h.uncertainty_le,
    by linarith⟩

end Tradeable

/-! ## Decisions -/

section Decisions

variable [PyRuntime] [IdentityText] {t : DecisionThresholds} {signal : DecisionSignal}

/-- The decision of a signal whose times convert. -/
theorem evaluate_eq_some {decision : Decision} (h : evaluate t signal = some decision) :
    ∃ dataAgeSeconds, signal.dataAgeSeconds = some dataAgeSeconds ∧
      decision.dataAgeSeconds = dataAgeSeconds ∧
      decision.reasons = (findings t signal dataAgeSeconds).map Prod.fst ∧
      decision.failedFields = ((findings t signal dataAgeSeconds).flatMap Prod.snd).eraseDups ∧
      (decision.action = .trade ↔ findings t signal dataAgeSeconds = []) ∧
      decision.direction = directionOf (signal.numeric .expectedReturn) ∧
      decision.penalizedExpectedValue = penalizedValue t signal := by
  simp only [evaluate, Option.bind_eq_bind, Option.bind_eq_some_iff, Option.pure_def,
    Option.some.injEq] at h
  obtain ⟨decisionTime, -, availableAt, -, dataAgeSeconds, hage, rfl⟩ := h
  refine ⟨dataAgeSeconds, hage, rfl, rfl, rfl, ?_, rfl, rfl⟩
  dsimp only
  split
  · next hfound => simpa using hfound
  · next hfound => simpa using hfound

/-- A signal whose times convert has a decision. -/
theorem exists_evaluate (t : DecisionThresholds) {dataAgeSeconds : ℚ}
    (h : signal.dataAgeSeconds = some dataAgeSeconds) :
    ∃ decision, evaluate t signal = some decision := by
  have hutc := h
  simp only [DecisionSignal.dataAgeSeconds, Option.bind_eq_bind, Option.bind_eq_some_iff] at hutc
  obtain ⟨decisionTime, hdecision, availableAt, havailable, -⟩ := hutc
  simp only [evaluate, hdecision, havailable, h, Option.bind_eq_bind, Option.bind_some,
    Option.pure_def]
  exact ⟨_, rfl⟩

/-- A better signal is still a trade, a trade has valid inputs and a value above the margin,
and an abstention says why. -/
theorem evaluate_monotone_fail_closed (t : DecisionThresholds) :
    (∀ first second decision, evaluate t first = some decision → decision.action = .trade →
      AtLeastAsGood t first second →
        ∃ decision', evaluate t second = some decision' ∧ decision'.action = .trade) ∧
    (∀ signal decision, evaluate t signal = some decision → decision.action = .trade →
      (∃ value, Tradeable t signal decision.dataAgeSeconds value) ∧
        decision.direction ≠ .flat ∧ 0 ≤ decision.dataAgeSeconds ∧
        ∃ penalized, decision.penalizedExpectedValue = some penalized ∧
          t.requiredMargin < penalized) ∧
    ∀ signal decision, evaluate t signal = some decision → decision.action = .abstain →
      decision.reasons ≠ [] ∧ decision.failedFields ≠ [] := by
  refine ⟨fun first second decision hfirst htrade hgood => ?_,
    fun signal decision hdecision htrade => ?_, fun signal decision hdecision habstain => ?_⟩
  · obtain ⟨age, hage, -, -, -, haction, -, -⟩ := evaluate_eq_some hfirst
    obtain ⟨value, hvalue⟩ := findings_eq_nil_iff.mp (haction.mp htrade)
    obtain ⟨firstAge, secondAge, hfirstAge, hsecondAge, hbounds⟩ := hgood.age
    obtain rfl : age = firstAge := Option.some.inj (hage.symm.trans hfirstAge)
    obtain ⟨decision', hsecond⟩ := exists_evaluate t hsecondAge
    obtain ⟨age', hage', -, -, -, haction', -, -⟩ := evaluate_eq_some hsecond
    obtain rfl : age' = secondAge := Option.some.inj (hage'.symm.trans hsecondAge)
    exact ⟨decision', hsecond,
      haction'.mpr (findings_eq_nil_iff.mpr (hvalue.mono hgood hbounds))⟩
  · obtain ⟨age, -, hageEq, -, -, haction, hdirection, hpenalized⟩ := evaluate_eq_some hdecision
    obtain ⟨value, hvalue⟩ := findings_eq_nil_iff.mp (haction.mp htrade)
    rw [hageEq, hdirection, hpenalized]
    exact ⟨⟨value, hvalue⟩, hvalue.directionOf_ne, hvalue.age_nonneg, hvalue.penalizedValue_eq⟩
  · obtain ⟨age, -, -, hreasons, hfields, haction, -, -⟩ := evaluate_eq_some hdecision
    have hfound : findings t signal age ≠ [] := fun h => by
      have htrade := haction.mpr h
      rw [habstain] at htrade
      cases htrade
    rw [hreasons, hfields]
    refine ⟨by simpa using hfound, ?_⟩
    obtain ⟨found, rest, hcons⟩ := List.exists_cons_of_ne_nil hfound
    have hmem := fields_ne_nil_of_mem_findings (hcons ▸ List.mem_cons_self : found ∈ _)
    obtain ⟨field, others, hfield⟩ := List.exists_cons_of_ne_nil hmem
    rw [hcons, List.flatMap_cons, hfield, List.cons_append, List.eraseDups_cons]
    exact List.cons_ne_nil _ _

/-! ## A fixed policy -/

def cautious : DecisionThresholds where
  requiredMargin := 1 / 100
  costMultiplier := 1
  costUncertaintyMultiplier := 1
  uncertaintyPenalty := 1
  maximumTotalCost := 1 / 10
  maximumPredictionUncertainty := 1 / 10
  maximumModelDisagreement := 1 / 10
  maximumRegimeUncertainty := 1 / 10
  maximumDriftScore := 1 / 10
  maximumDataAgeSeconds := 60
  maximumAbsoluteExpectedReturn := 1 / 2
  maximumBatchSize := 1
  requiredMargin_mem := by decide +kernel
  costMultiplier_mem := by decide +kernel
  costUncertaintyMultiplier_mem := by decide +kernel
  uncertaintyPenalty_mem := by decide +kernel
  maximumTotalCost_mem := by decide +kernel
  maximumPredictionUncertainty_mem := by decide +kernel
  maximumModelDisagreement_mem := by decide +kernel
  maximumRegimeUncertainty_mem := by decide +kernel
  maximumDriftScore_mem := by decide +kernel
  maximumDataAgeSeconds_mem := by decide
  maximumAbsoluteExpectedReturn_mem := by decide +kernel
  maximumBatchSize_mem := by decide
  requiredMargin_lt := by decide +kernel

/-- The first representable time, in UTC. -/
def firstTime : AwareDatetime := ⟨0, 0, by decide, by decide⟩

/-- A signal with one cost, the same for all its estimates. -/
def signalOf (expectedReturn cost : ℚ) : DecisionSignal where
  signalId := "signal"
  modelId := "model"
  decisionTime := firstTime
  dataAvailableAt := firstTime
  numeric field := .finite (if field = .expectedReturn then expectedReturn else cost)
  regime := .supported

theorem cautious_trades : ∃ decision, evaluate cautious (signalOf (-2 / 5) (1 / 100)) =
    some decision ∧ decision.action = .trade := by
  have hage : (signalOf (2 / 5) (1 / 50)).dataAgeSeconds = some 0 := by decide +kernel
  obtain ⟨decision, hdecision⟩ := exists_evaluate cautious hage
  obtain ⟨age, hageEq, -, -, -, haction, -, -⟩ := evaluate_eq_some hdecision
  obtain rfl : 0 = age := Option.some.inj (hage.symm.trans hageEq)
  have hcosts : ∀ field ∈ NumericField.unitFields,
      (PyNumber.finite 0).le ((signalOf (-2 / 5) (1 / 100)).numeric field) = true ∧
        ((signalOf (-2 / 5) (1 / 100)).numeric field).le
          ((signalOf (2 / 5) (1 / 50)).numeric field) = true := by
    decide +kernel
  exact (evaluate_monotone_fail_closed cautious).1 (signalOf (2 / 5) (1 / 50)) _ decision hdecision
    (haction.mpr (by decide +kernel))
    ⟨by decide +kernel, by decide +kernel,
      fun field hfield => (hcosts field (NumericField.mem_unitFields_iff.mpr hfield)).1,
      fun field hfield => (hcosts field (NumericField.mem_unitFields_iff.mpr hfield)).2, rfl,
      0, 0, hage, by decide +kernel, le_rfl, le_rfl⟩

end Decisions

end SignalFoundry.DecisionPolicy
