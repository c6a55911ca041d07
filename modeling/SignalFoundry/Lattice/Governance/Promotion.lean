import SignalFoundry.Lattice.Governance.Gates
import SignalFoundry.Library.Platform

/-!
# Promotion after correction

Holm's correction is computed exactly: a hypothesis is rejected when the step-down
procedure rejects it. The family that is corrected is a dictionary, so of the tests
that share a name only the last one is counted, and a test without a `p`-value is
not counted at all.
-/

namespace Governance

open Fallible Shadow

/-! ## The correction -/

section Holm

variable (pValues : OrderedDict String ℚ)

theorem itemLt_iff {item other : String × ℚ} :
    itemLt item other = true ↔ toLex (item.2, item.1) < toLex (other.2, other.1) := by
  rw [itemLt, Prod.Lex.toLex_lt_toLex]
  by_cases h : item.2 = other.2
  · simp [h]
  · simp [h]

theorem orderedItems_eq :
    orderedItems pValues = sortedBy (fun item => toLex (item.2, item.1)) pValues.items := by
  have hrel : (fun item other : String × ℚ => itemLt other item = false) =
      fun item other => toLex (item.2, item.1) ≤ toLex (other.2, other.1) := by
    funext item other
    rw [← Bool.not_eq_true, itemLt_iff, not_lt]
  unfold orderedItems sortedBy
  congr!

theorem perm_orderedItems : (orderedItems pValues).Perm pValues.items := by
  rw [orderedItems_eq]
  exact perm_sortedBy _ _

theorem pairwise_orderedItems :
    ((orderedItems pValues).map Prod.snd).Pairwise (· ≤ ·) := by
  rw [orderedItems_eq, List.pairwise_map]
  refine (pairwise_sortedBy (fun item : String × ℚ => toLex (item.2, item.1)) _).imp ?_
  intro item other hle
  rcases Prod.Lex.toLex_le_toLex.mp hle with hlt | ⟨heq, -⟩
  · exact hlt.le
  · exact heq.le

theorem map_snd_orderedItems :
    (orderedItems pValues).map Prod.snd = pValues.values.insertionSort (· ≤ ·) := by
  have hperm : ((orderedItems pValues).map Prod.snd).Perm
      (pValues.values.insertionSort (· ≤ ·)) :=
    ((perm_orderedItems pValues).map _).trans (List.perm_insertionSort _ _).symm
  exact hperm.eq_of_pairwise (fun _ _ _ _ => le_antisymm) (pairwise_orderedItems pValues)
    (List.pairwise_insertionSort _ _)

theorem adjustItems_eq (running : ℚ) (items : List (String × ℚ)) :
    adjustItems running items =
      (items.map Prod.fst).zip (Holm.adjustFrom running (items.map Prod.snd)) := by
  induction items generalizing running with
  | nil => rfl
  | cons item items ih =>
      have hmax : PyFloat.max running
          (PyFloat.min (PyFloat.ofNat 1) (PyFloat.mul (PyFloat.ofNat (items.length + 1)) item.2)) =
          max running (min 1 ((items.length + 1) * item.2)) := by
        simp
      simp only [adjustItems, hmax, List.map_cons, Holm.adjustFrom, List.length_map,
        List.zip_cons_cons, ih]

variable [PyRuntime] {alpha : ℚ} {correction : Correction ℚ}

/-- A family is corrected when it is not empty and its values are probabilities. -/
theorem holmAdjust_eq_ok_iff :
    holmAdjust pValues alpha = .ok correction ↔
      pValues.items ≠ [] ∧ (∀ value ∈ pValues.values, 0 ≤ value ∧ value ≤ 1) ∧
      correction = {
        alpha := alpha
        familySize := pValues.items.length
        adjusted := sortedBy Prod.fst (adjustItems 0 (orderedItems pValues))
        rejected := (sortedBy Prod.fst (adjustItems 0 (orderedItems pValues))).map
          fun item => (item.1, decide (item.2 ≤ alpha)) } := by
  unfold holmAdjust
  simp only [bind_eq_ok_iff, refuseIf_eq_ok_iff, forM_eq_ok_iff, Except.ok.injEq]
  have hrange : (∀ value ∈ pValues.values, 0 ≤ value ∧ value ≤ 1) ↔
      ∀ item ∈ pValues.items, ¬ (PyFloat.isFinite item.2 && PyFloat.le PyFloat.zero item.2 &&
        PyFloat.le item.2 (PyFloat.ofNat 1)) = false := by
    rw [OrderedDict.values, List.forall_mem_map]
    simp [PyFloat.le]
  rw [hrange]
  constructor
  · rintro ⟨-, hitems, -, hvalues, rfl⟩
    exact ⟨hitems, hvalues, by simp [PyFloat.le]⟩
  · rintro ⟨hitems, hvalues, rfl⟩
    exact ⟨(), hitems, (), hvalues, by simp [PyFloat.le]⟩

theorem exists_holmAdjust (alpha : ℚ) (hitems : pValues.items ≠ [])
    (hvalues : ∀ value ∈ pValues.values, 0 ≤ value ∧ value ≤ 1) :
    ∃ correction, holmAdjust pValues alpha = .ok correction :=
  ⟨_, (holmAdjust_eq_ok_iff pValues).mpr ⟨hitems, hvalues, rfl⟩⟩

/-- The rejected hypotheses are those of the step-down procedure. -/
theorem rejected_perm (hlevel : 0 ≤ alpha) (hlt : alpha < 1)
    (h : holmAdjust pValues alpha = .ok correction) :
    correction.rejected.Perm (((orderedItems pValues).map Prod.fst).zip
      (Holm.stepDown alpha ((orderedItems pValues).map Prod.snd))) := by
  obtain ⟨-, -, rfl⟩ := (holmAdjust_eq_ok_iff pValues).mp h
  have hmap : (adjustItems 0 (orderedItems pValues)).map
      (fun item => (item.1, decide (item.2 ≤ alpha))) =
      ((orderedItems pValues).map Prod.fst).zip
        (Holm.stepDown alpha ((orderedItems pValues).map Prod.snd)) := by
    rw [adjustItems_eq, ← Holm.map_adjustFrom hlt hlevel, List.zip_map_right]
    rfl
  rw [← hmap]
  exact (perm_sortedBy _ _).map _

/-- Adjusted values are monotone in the values. -/
theorem adjusted_mono (h : holmAdjust pValues alpha = .ok correction)
    {name name' : String} {value value' adjusted adjusted' : ℚ}
    (hvalue : pValues.get? name = some value) (hvalue' : pValues.get? name' = some value')
    (hadjusted : (name, adjusted) ∈ correction.adjusted)
    (hadjusted' : (name', adjusted') ∈ correction.adjusted) (hle : value ≤ value') :
    adjusted ≤ adjusted' := by
  obtain ⟨-, hrange, rfl⟩ := (holmAdjust_eq_ok_iff pValues).mp h
  have hnonneg : ∀ p ∈ (orderedItems pValues).map Prod.snd, 0 ≤ p := fun p hp =>
    (hrange p (((perm_orderedItems pValues).map _).mem_iff.mp hp)).1
  -- an adjusted value stands beside the value of its name
  have hzip : ∀ {name : String} {value a : ℚ}, pValues.get? name = some value →
      (name, a) ∈ sortedBy Prod.fst (adjustItems 0 (orderedItems pValues)) →
      (value, a) ∈ ((orderedItems pValues).map Prod.snd).zip
        (Holm.adjustFrom 0 ((orderedItems pValues).map Prod.snd)) := by
    intro name value a hget ha
    rw [mem_sortedBy, adjustItems_eq, List.zip_map_left, List.mem_map] at ha
    obtain ⟨⟨item, a⟩, hmem, heq⟩ := ha
    obtain ⟨rfl, rfl⟩ := Prod.mk.inj heq
    have hitem := (perm_orderedItems pValues).mem_iff.mp (List.of_mem_zip hmem).1
    have hvalue : item.2 = value :=
      Option.some.inj ((OrderedDict.get?_eq_some_iff.mpr hitem).symm.trans hget)
    rw [List.zip_map_left, List.mem_map]
    exact ⟨_, hmem, by rw [← hvalue]; rfl⟩
  exact Holm.adjustFrom_mono (pairwise_orderedItems pValues) hnonneg (hzip hvalue hadjusted)
    (hzip hvalue' hadjusted') hle

/-- A whole family is rejected when the procedure rejects all its values. -/
theorem all_rejected_iff (hlevel : 0 ≤ alpha) (hlt : alpha < 1)
    (h : holmAdjust pValues alpha = .ok correction) :
    correction.rejected.all Prod.snd = true ↔ Holm.RejectsAll alpha pValues.values := by
  have hperm := rejected_perm pValues hlevel hlt h
  have hlength : ((orderedItems pValues).map Prod.fst).length =
      (Holm.stepDown alpha ((orderedItems pValues).map Prod.snd)).length := by
    rw [Holm.length_stepDown, List.length_map, List.length_map]
  have hsnd : (((orderedItems pValues).map Prod.fst).zip
      (Holm.stepDown alpha ((orderedItems pValues).map Prod.snd))).map Prod.snd =
        Holm.stepDown alpha ((orderedItems pValues).map Prod.snd) :=
    List.map_snd_zip hlength.ge
  rw [Holm.RejectsAll, ← map_snd_orderedItems, ← hsnd, List.all_eq_true]
  simp only [List.mem_map, forall_exists_index, and_imp, forall_apply_eq_imp_iff₂]
  exact forall_congr' fun item => by rw [hperm.mem_iff]

end Holm

/-! ## Recommendations -/

section Recommendations

variable [PyRuntime] [FloatText ℚ] {cohort : PairedCohort ℚ} {policy : FrozenPolicy ℚ}
  {tests : List (TestResult ℚ)} {now : Instant} {expected : Option String}
  {classCounts : Option (OrderedDict String ℤ)} {power : Option ℚ} {decision : Decision ℚ}

omit [PyRuntime] [FloatText ℚ] in
theorem FrozenPolicy.alpha_mem (policy : FrozenPolicy ℚ) : 0 < policy.alpha ∧ policy.alpha < 1 / 2 := by
  simpa using policy.level

/-- What a recommendation to promote rests on. -/
structure Promotes (cohort : PairedCohort ℚ) (policy : FrozenPolicy ℚ)
    (tests : List (TestResult ℚ)) (classCounts : Option (OrderedDict String ℤ))
    (power : Option ℚ) : Prop where
  gates : ∀ gate ∈ evaluateGates cohort policy classCounts power, gate.satisfied = true
  favours : ∀ item ∈ tests, item.verdict = .favoursChallenger
  items : (family tests).items ≠ []
  values : ∀ value ∈ (family tests).values, 0 ≤ value ∧ value ≤ 1
  rejected : Holm.RejectsAll policy.alpha (family tests).values

omit [PyRuntime] [FloatText ℚ] in
theorem failing_eq_nil_iff {gates : List GateResult} :
    failing gates = [] ↔ ∀ gate ∈ gates, gate.satisfied = true := by
  simp [failing]

theorem of_conclude_eq_ok {gates : List GateResult} {recommendation : Recommendation}
    {correction : Option (Correction ℚ)}
    (h : conclude cohort policy tests now gates recommendation correction = .ok decision) :
    decision.recommendation = recommendation ∧ decision.gates = gates := by
  simp only [conclude, bind_eq_ok_iff, Except.ok.injEq] at h
  obtain ⟨-, -, rfl⟩ := h
  exact ⟨rfl, rfl⟩

theorem exists_conclude_eq_ok {gates : List GateResult}
    (h : ∀ gate ∈ gates, gate.satisfied = true) (recommendation : Recommendation)
    (correction : Option (Correction ℚ)) :
    ∃ decision, conclude cohort policy tests now gates recommendation correction = .ok decision ∧
      decision.recommendation = recommendation := by
  rw [conclude, require_of fun _ => h]
  exact ⟨_, rfl, rfl⟩

theorem Promotes.of_eq_ok
    (h : recommend cohort policy tests now expected classCounts power = .ok decision)
    (hpromote : decision.recommendation = .promote) :
    Promotes cohort policy tests classCounts power ∧
      decision.gates = evaluateGates cohort policy classCounts power := by
  have hlevel := policy.alpha_mem
  simp only [recommend, bind_eq_ok_iff, refuseIf_eq_ok_iff] at h
  obtain ⟨-, -, -, htests, h⟩ := h
  split_ifs at h with hfailing hcomparable hunderpowered
  · exact absurd ((of_conclude_eq_ok h).1.symm.trans hpromote) (by decide)
  · exact absurd ((of_conclude_eq_ok h).1.symm.trans hpromote) (by decide)
  · exact absurd ((of_conclude_eq_ok h).1.symm.trans hpromote) (by decide)
  · simp only [bind_eq_ok_iff, refuseIf_eq_ok_iff] at h
    obtain ⟨-, hitems, correction, hcorrection, h⟩ := h
    obtain ⟨hrecommendation, hgates⟩ := of_conclude_eq_ok h
    rw [hpromote] at hrecommendation
    have hpromoted : isPromoted correction tests = true := by
      by_contra hnot
      rw [if_neg hnot] at hrecommendation
      cases hrecommendation
    rw [isPromoted, Bool.and_eq_true,
      all_rejected_iff (family tests) hlevel.1.le (by linarith [hlevel.2]) hcorrection] at hpromoted
    obtain ⟨hrejected, hfavours⟩ := hpromoted
    obtain ⟨-, hvalues, -⟩ := (holmAdjust_eq_ok_iff _).mp hcorrection
    exact ⟨⟨failing_eq_nil_iff.mp (not_not.mp hfailing), by simpa using hfavours, hitems, hvalues,
      hrejected⟩, hgates⟩

theorem Promotes.exists_decision (h : Promotes cohort policy tests classCounts power)
    (now : Instant) :
    ∃ decision, recommend cohort policy tests now none classCounts power = .ok decision ∧
      decision.recommendation = .promote := by
  have hlevel := policy.alpha_mem
  have htests : tests ≠ [] := by
    rintro rfl
    exact h.items rfl
  have hfailing := failing_eq_nil_iff.mpr h.gates
  have hunderpowered : ¬ (tests.any fun item => item.verdict = .underpowered) = true := by
    rw [List.any_eq_true]
    rintro ⟨item, hitem, hverdict⟩
    rw [h.favours item hitem] at hverdict
    cases hverdict
  obtain ⟨correction, hcorrection⟩ := exists_holmAdjust (family tests) policy.alpha h.items h.values
  have hpromoted : isPromoted correction tests = true := by
    rw [isPromoted, Bool.and_eq_true,
      all_rejected_iff (family tests) hlevel.1.le (by linarith [hlevel.2]) hcorrection]
    exact ⟨h.rejected, by simpa using h.favours⟩
  obtain ⟨decision, hdecision, hrecommendation⟩ :
      ∃ decision, conclude cohort policy tests now (evaluateGates cohort policy classCounts power)
        .promote (some correction) = .ok decision ∧ decision.recommendation = .promote :=
    exists_conclude_eq_ok h.gates .promote (some correction)
  refine ⟨decision, ?_, hrecommendation⟩
  simp only [recommend, Option.not_mem_none, false_and, exists_false, not_false_eq_true,
    refuseIf_of_not, htests, ok_bind, hfailing, ne_eq, not_true_eq_false, if_false, hunderpowered,
    h.items, hcorrection, hpromoted, if_true]
  exact hdecision

/-! ## What a promotion survives -/

/-- The values of a family, in increasing order. -/
def ascending (values : List ℚ) : List ℚ := values.insertionSort (· ≤ ·)

/-- A correction that rejects what the step-down procedure rejects, with monotone
adjusted values. -/
structure Exact (pValues : OrderedDict String ℚ) (alpha : ℚ) (correction : Correction ℚ) :
    Prop where
  rejected : correction.rejected.Perm (((orderedItems pValues).map Prod.fst).zip
    (Holm.stepDown alpha ((orderedItems pValues).map Prod.snd)))
  monotone : ∀ name name' value value' adjusted adjusted',
    pValues.get? name = some value → pValues.get? name' = some value' →
    (name, adjusted) ∈ correction.adjusted → (name', adjusted') ∈ correction.adjusted →
    value ≤ value' → adjusted ≤ adjusted'

/-- A promotion past every gate, on tests that all favour the challenger and whose
`p`-values are all rejected together. -/
structure Survives (policy : FrozenPolicy ℚ) (tests : List (TestResult ℚ))
    (decision : Decision ℚ) : Prop where
  gates : ∀ gate ∈ decision.gates, gate.satisfied = true
  favours : ∀ item ∈ tests, item.verdict = .favoursChallenger
  complete : ∀ item ∈ tests, item.pValue.isSome = true
  rejected : Holm.RejectsAll policy.alpha (tests.filterMap TestResult.pValue)

/-- Every promotion on a list of tests survives the correction of the whole list. -/
def PromotionSurvives (tests : List (TestResult ℚ)) : Prop :=
  ∀ cohort policy now expected classCounts power decision,
    recommend cohort policy tests now expected classCounts power = .ok decision →
    decision.recommendation = .promote → Survives policy tests decision

/-- The lists on which some policy promotes. -/
structure Promotable (tests : List (TestResult ℚ)) : Prop where
  favours : ∀ item ∈ tests, item.verdict = .favoursChallenger
  items : (family tests).items ≠ []
  values : ∀ value ∈ (family tests).values, 0 ≤ value ∧ value ≤ 1
  bound : Holm.bound (ascending (family tests).values) < 1 / 2

/-- The family stands for the whole list: no test lacks a `p`-value, and the values
that another test of the same name has replaced do not raise the bound. -/
structure Representative (tests : List (TestResult ℚ)) : Prop where
  complete : ∀ item ∈ tests, item.pValue.isSome = true
  bound : Holm.bound (ascending (tests.filterMap TestResult.pValue)) ≤
    Holm.bound (ascending (family tests).values)

/-! ## A policy without a floor -/

def onePair : PairedCohort ℚ where
  pairs := [{
    key := ⟨"AAPL", ⟨.date 2026 1 5, 21, 0, 0, 0⟩, 1⟩
    asOfDate := .date 2026 1 5
    championBrier := 1 / 2
    challengerBrier := 1 / 8
    championLog := 0
    challengerLog := 0 }]
  championTotal := 1
  challengerTotal := 1
  championOnly := 0
  challengerOnly := 0
  championUnscored := 0
  challengerUnscored := 0
  comparable := true
  incomparableReason := none
  sized := by decide
  explained := by decide

/-- The least floor a policy can have, at a level. -/
def leastFloor (alpha : ℚ) (h : 0 < alpha ∧ alpha < 1 / 2) : FrozenPolicy ℚ where
  version := "least"
  alpha := alpha
  margin := ⟨"brier", 1 / 100, by decide, by simp [PyFloat.le]⟩
  minimumDays := 1
  minimumTargetDates := 1
  minimumPairs := 1
  minimumPerClass := 1
  minimumCoverage := 1
  minimumPower := 1
  named := by decide
  level := by simpa using h
  positive := by decide
  fractions := by simp [PyFloat.lt, PyFloat.le]

def oneRise : OrderedDict String ℤ := ⟨[("up", 1)], by decide⟩

omit [FloatText ℚ] in
theorem leastFloor_gates (alpha : ℚ) (h : 0 < alpha ∧ alpha < 1 / 2) :
    ∀ gate ∈ evaluateGates onePair (leastFloor alpha h) (some oneRise) (some 1),
      gate.satisfied = true := by
  have hcomparable : onePair.comparable = true := rfl
  have hspan : calendarSpan onePair = 1 := by decide
  have hdates : (onePair.pairs.map PairedScore.asOfDate).dedup.length = 1 := by decide
  have hmatched : onePair.matched = 1 := rfl
  have hcoverage : onePair.coverage = 1 := by
    simp [PairedCohort.coverage, onePair, PairedCohort.matched]
  have hsmallest : smallestClass oneRise = some ("up", 1) := by decide
  simp [evaluateGates, leastFloor, hcomparable, hspan, hdates, hmatched, hcoverage, hsmallest,
    PyFloat.le]

omit [PyRuntime] [FloatText ℚ] in
theorem rejectsAll_of_bound_le {alpha : ℚ}
    (hbound : Holm.bound (ascending (family tests).values) ≤ alpha) :
    Holm.RejectsAll alpha (family tests).values :=
  (Holm.rejectsAll_iff ((Holm.bound_nonneg _).trans hbound) _).mpr hbound

/-- A list that some policy promotes is promoted at every level of its family. -/
theorem Promotable.survives (h : Promotable tests) (hsurvives : PromotionSurvives tests)
    {alpha : ℚ} (halpha : 0 < alpha ∧ alpha < 1 / 2)
    (hbound : Holm.bound (ascending (family tests).values) ≤ alpha) :
    (∀ item ∈ tests, item.pValue.isSome = true) ∧
      Holm.bound (ascending (tests.filterMap TestResult.pValue)) ≤ alpha := by
  have hpromotes : Promotes onePair (leastFloor alpha halpha) tests (some oneRise) (some 1) :=
    ⟨leastFloor_gates alpha halpha, h.favours, h.items, h.values, rejectsAll_of_bound_le hbound⟩
  obtain ⟨decision, hdecision, hpromote⟩ :=
    hpromotes.exists_decision ⟨⟨2026, 1, 6, by decide, by decide, by decide⟩, 0, 0, 0, 0⟩
  have hresult := hsurvives _ _ _ _ _ _ _ hdecision hpromote
  exact ⟨hresult.complete, (Holm.rejectsAll_iff halpha.1.le _).mp hresult.rejected⟩

theorem representative_of_survives (hsurvives : PromotionSurvives tests)
    (h : Promotable tests) : Representative tests := by
  have hfamily := Holm.bound_nonneg (ascending (family tests).values)
  have hlevel := h.bound
  have halpha : 0 < (Holm.bound (ascending (family tests).values) + 1 / 2) / 2 ∧
      (Holm.bound (ascending (family tests).values) + 1 / 2) / 2 < 1 / 2 :=
    ⟨by linarith, by linarith⟩
  constructor
  · exact (h.survives hsurvives halpha (by linarith)).1
  · by_contra hlt
    rw [not_le] at hlt
    -- a level between the two bounds is one at which the family alone is rejected
    obtain ⟨alpha, hbelow, habove⟩ := exists_between (lt_min hlt hlevel)
    obtain ⟨hall, hhalf⟩ := lt_min_iff.mp habove
    have hbound := (h.survives hsurvives ⟨by linarith, hhalf⟩ hbelow.le).2
    linarith

theorem survives_of_representative (h : Promotable tests → Representative tests) :
    PromotionSurvives tests := by
  intro cohort policy now expected classCounts power decision hdecision hpromote
  obtain ⟨hpromotes, hgates⟩ := Promotes.of_eq_ok hdecision hpromote
  obtain ⟨hpositive, hhalf⟩ := policy.alpha_mem
  have hbound := (Holm.rejectsAll_iff hpositive.le _).mp hpromotes.rejected
  have hrepresentative := h ⟨hpromotes.favours, hpromotes.items, hpromotes.values,
    hbound.trans_lt hhalf⟩
  exact ⟨hgates ▸ hpromotes.gates, hpromotes.favours, hrepresentative.complete,
    (Holm.rejectsAll_iff hpositive.le _).mpr (hrepresentative.bound.trans hbound)⟩

/-- The correction of a family is exact, and the promotions on a list of tests
survive the correction of the whole list exactly when its family, if it can be
promoted at all, stands for the whole list. -/
theorem promotion_survives_iff (tests : List (TestResult ℚ)) :
    (∀ (policy : FrozenPolicy ℚ) (pValues : OrderedDict String ℚ), pValues.items ≠ [] →
      (∀ value ∈ pValues.values, 0 ≤ value ∧ value ≤ 1) →
      ∃ correction, holmAdjust pValues policy.alpha = .ok correction ∧
        Exact pValues policy.alpha correction) ∧
    (PromotionSurvives tests ↔ (Promotable tests → Representative tests)) := by
  refine ⟨fun policy pValues hitems hvalues => ?_, representative_of_survives,
    survives_of_representative⟩
  obtain ⟨hpositive, hhalf⟩ := policy.alpha_mem
  obtain ⟨correction, hcorrection⟩ := exists_holmAdjust pValues policy.alpha hitems hvalues
  exact ⟨correction, hcorrection,
    rejected_perm pValues hpositive.le (by linarith) hcorrection,
    fun _ _ _ _ _ _ => adjusted_mono pValues hcorrection⟩

end Recommendations

/-! ## Two tests of one name -/

section Counterexample

open Platform

/-- A test that favours the challenger, 200 of 10,000 replicates against it. -/
def favourable (name metric : String) : TestResult ℚ where
  name := name
  metric := metric
  verdict := .favoursChallenger
  pointEstimate := some (-1 / 100)
  interval := some (none, some (-1 / 1000))
  pValue := some (201 / 10001)
  blocks := 30
  observations := 300
  margin := some (1 / 100)

/-- Non-inferiority on two metrics, and superiority. -/
def repeatedName : List (TestResult ℚ) :=
  [favourable "non_inferiority" "brier", favourable "non_inferiority" "log_loss",
    favourable "superiority" "brier"]

def fivePercent : FrozenPolicy ℚ := leastFloor (1 / 20) (by norm_num)

theorem family_repeatedName :
    (family repeatedName).values = List.replicate 2 (201 / 10001) := rfl

theorem ascending_replicate (n : ℕ) (value : ℚ) :
    ascending (List.replicate n value) = List.replicate n value :=
  List.Pairwise.insertionSort_eq (List.pairwise_replicate.mpr (.inr le_rfl))

/-- The family of two is rejected at five percent, the three tests are not. -/
theorem promoted_on_repeated_name :
    (∃ decision, recommend onePair fivePercent repeatedName
      ⟨⟨2026, 1, 6, by decide, by decide, by decide⟩, 0, 0, 0, 0⟩ none (some oneRise) (some 1) =
        .ok decision ∧ decision.recommendation = .promote) ∧
      ¬ Holm.RejectsAll fivePercent.alpha (repeatedName.filterMap TestResult.pValue) := by
  have hlevel : fivePercent.alpha = 1 / 20 := rfl
  constructor
  · apply Promotes.exists_decision
    refine ⟨leastFloor_gates _ _, by decide, by decide, ?_, ?_⟩
    · rw [family_repeatedName]
      norm_num [List.replicate]
    · apply rejectsAll_of_bound_le
      rw [family_repeatedName, hlevel, ascending_replicate]
      norm_num [Holm.bound, List.replicate]
  · rw [hlevel, Holm.rejectsAll_iff (by norm_num)]
    have hall : repeatedName.filterMap TestResult.pValue = List.replicate 3 (201 / 10001) := rfl
    have hsorted := ascending_replicate 3 (201 / 10001)
    rw [ascending] at hsorted
    rw [hall, hsorted]
    norm_num [Holm.bound, List.replicate]

end Counterexample

end Governance
