import SignalFoundry.Lattice.Governance.Pairing
import SignalFoundry.Lattice.Shadow.FirstEligible

/-!
# What a cohort depends on

The order of the inputs is lost when the forecasts are indexed and the newest
revision is selected. The order in which sets are iterated is lost in the sort,
except between questions that agree on the instant and the symbol: their horizons
are part of the key of a question and not of the key of the sort.
-/

namespace Governance

open Fallible Shadow

section Content

variable {F : Type} [PyFloat F]

/-- Arms that differ in the order of their lists. -/
structure SameContent (arm arm' : Arm F) : Prop where
  forecasts : arm.forecasts.Perm arm'.forecasts
  outcomes : ∀ forecastId, (arm.history forecastId).Perm (arm'.history forecastId)

theorem Arm.nodup_revisions (arm : Arm F) (forecastId : String) :
    ((arm.history forecastId).map ShadowOutcome.revision).Nodup := by
  rw [Arm.history, OrderedDict.getD]
  cases hget : arm.outcomes.get? forecastId with
  | none => exact List.nodup_nil
  | some history =>
      exact arm.distinct history
        (List.mem_map_of_mem (OrderedDict.get?_eq_some_iff.mp hget))

theorem argmax_eq_some_iff_of_nodup {α : Type} [DecidableEq α] {f : α → ℕ} {l : List α} {m : α}
    (hnodup : (l.map f).Nodup) :
    l.argmax f = some m ↔ m ∈ l ∧ ∀ a ∈ l, f a ≤ f m := by
  rw [← Option.mem_def, List.mem_argmax_iff]
  constructor
  · exact fun h => ⟨h.1, h.2.1⟩
  · intro h
    refine ⟨h.1, h.2, fun a ha hle => ?_⟩
    rw [List.inj_on_of_nodup_map hnodup ha h.1 (le_antisymm (h.2 a ha) hle)]

theorem latestObserved_perm {history history' : List ShadowOutcome} (h : history.Perm history')
    (hnodup : (history.map ShadowOutcome.revision).Nodup) :
    latestObserved history = latestObserved history' := by
  have hfilter := h.filter fun item => decide (item.status = .observed)
  have hdistinct : ((history.filter fun item => decide (item.status = .observed)).map
      ShadowOutcome.revision).Nodup :=
    hnodup.sublist (List.filter_sublist.map _)
  ext outcome
  rw [latestObserved, latestObserved, argmax_eq_some_iff_of_nodup hdistinct,
    argmax_eq_some_iff_of_nodup ((hfilter.map _).nodup_iff.mp hdistinct)]
  simp only [hfilter.mem_iff]

namespace SameContent

variable {arm arm' champion champion' challenger challenger' : Arm F}

theorem refl (arm : Arm F) : SameContent arm arm := ⟨.refl _, fun _ => .refl _⟩

theorem symm (h : SameContent arm arm') : SameContent arm' arm :=
  ⟨h.forecasts.symm, fun forecastId => (h.outcomes forecastId).symm⟩

theorem keys (h : SameContent arm arm') : arm.keys.Perm arm'.keys := h.forecasts.map _

theorem forecast? (h : SameContent arm arm') (hnodup : arm.keys.Nodup) (key : PairKey) :
    arm.forecast? key = arm'.forecast? key := by
  ext forecast
  rw [Arm.forecast?, Arm.forecast?, Table.find_eq_some_iff hnodup,
    Table.find_eq_some_iff (h.keys.nodup_iff.mp hnodup), h.forecasts.mem_iff]

theorem latestObserved (h : SameContent arm arm') (forecastId : String) :
    latestObserved (arm.history forecastId) = latestObserved (arm'.history forecastId) :=
  latestObserved_perm (h.outcomes forecastId) (arm.nodup_revisions forecastId)

theorem filter_keys (h : SameContent champion champion') (h' : SameContent challenger challenger')
    (p : Bool → Bool) :
    (champion.keys.filter fun key => p (decide (key ∈ challenger.keys))).Perm
      (champion'.keys.filter fun key => p (decide (key ∈ challenger'.keys))) := by
  have hmem : ∀ key, decide (key ∈ challenger.keys) = decide (key ∈ challenger'.keys) :=
    fun key => decide_eq_decide.mpr h'.keys.mem_iff
  simp only [hmem]
  exact h.keys.filter _

variable [PyRuntime] [FloatText F]

theorem observed (h : SameContent arm arm') (hnodup : arm.keys.Nodup) (key : PairKey) :
    arm.observed key = arm'.observed key := by
  simp only [Arm.observed, h.forecast? hnodup key, h.latestObserved]

theorem scored (h : SameContent champion champion') (h' : SameContent challenger challenger')
    (hnodup : champion.keys.Nodup) (hnodup' : challenger.keys.Nodup) :
    scored champion challenger = scored champion' challenger' := by
  funext key
  rw [Governance.scored, Governance.scored, h.observed hnodup, h'.observed hnodup']

/-- What the pairing refuses does not depend on the order of its inputs. -/
theorem accepted (h : SameContent champion champion') (h' : SameContent challenger challenger')
    (haccepted : Accepted champion challenger) : Accepted champion' challenger' where
  championKeys := h.keys.nodup_iff.mp haccepted.championKeys
  challengerKeys := h'.keys.nodup_iff.mp haccepted.challengerKeys
  answerable key c d a b hc hd ha hb := by
    rw [← h.forecast? haccepted.championKeys] at hc
    rw [← h'.forecast? haccepted.challengerKeys] at hd
    rw [← h.latestObserved] at ha
    rw [← h'.latestObserved] at hb
    exact haccepted.answerable key c d a b hc hd ha hb
  sized := by
    have hlength := ((h.filter_keys h' id).filter (Governance.scored champion challenger)).length_eq
    rw [← h.scored h' haccepted.championKeys haccepted.challengerKeys]
    exact hlength.ge.trans haccepted.sized

variable [FloatMath F]

theorem pairAt (h : SameContent champion champion') (h' : SameContent challenger challenger')
    (hnodup : champion.keys.Nodup) (hnodup' : challenger.keys.Nodup) (key : PairKey) :
    pairAt champion challenger key = pairAt champion' challenger' key := by
  simp only [Governance.pairAt, verdict, h.forecast? hnodup key, h'.forecast? hnodup' key,
    h.latestObserved, h'.latestObserved]

end SameContent

/-! ## Two runs -/

variable [PyRuntime] [FloatText F]

/-- Both runs raise, or both return the same pairs in the same order and the same
identity. -/
def SamePairing : Except ComparisonError (PairedCohort F) →
    Except ComparisonError (PairedCohort F) → Prop
  | .ok cohort, .ok cohort' =>
      cohort.pairs = cohort'.pairs ∧ cohort.identity = cohort'.identity
  | .error _, .error _ => True
  | _, _ => False

theorem Accepted.nodup_sharedKeys {champion challenger : Arm F}
    (h : Accepted champion challenger) : (sharedKeys champion challenger).Nodup :=
  h.championKeys.filter _

/-- The totals of a cohort account for every key. -/
structure Counted (champion challenger : Arm F) (cohort : PairedCohort F) : Prop where
  champion_keys : cohort.championTotal =
    cohort.championOnly + (sharedKeys champion challenger).length
  challenger_keys : cohort.challengerTotal =
    cohort.challengerOnly + (sharedKeys champion challenger).length
  matched : cohort.matched =
    ((sharedKeys champion challenger).filter (scored champion challenger)).length

variable [FloatMath F]

/-- The pairing of two arms depends on their content alone. -/
def ContentOnly (champion challenger : Arm F) : Prop :=
  ∀ champion' challenger', SameContent champion champion' → SameContent challenger challenger' →
    ∀ order order', SamePairing (buildPairedCohort order champion challenger)
      (buildPairedCohort order' champion' challenger')

variable {champion champion' challenger challenger' : Arm F} {order order' : SetOrder PairKey}
  {cohort cohort' : PairedCohort F}

theorem Accepted.visited_verdict (h : Accepted champion challenger) (order : SetOrder PairKey) :
    ∀ key ∈ visited order champion challenger,
      ∃ pair, verdict champion challenger key = .ok pair :=
  fun key _ => h.exists_verdict key

theorem Paired.counted (haccepted : Accepted champion challenger)
    (h : Paired order champion challenger cohort) : Counted champion challenger cohort where
  champion_keys := by
    rw [h.championTotal, h.championOnly, sharedKeys, Nat.add_comm]
    simpa using List.length_eq_length_filter_add (l := champion.keys)
      fun key => decide (key ∈ challenger.keys)
  challenger_keys := by
    have hshared : (sharedKeys champion challenger).length =
        (challenger.keys.filter (· ∈ champion.keys)).length := by
      refine List.Perm.length_eq ((List.perm_ext_iff_of_nodup haccepted.nodup_sharedKeys
        (haccepted.challengerKeys.filter _)).mpr fun key => ?_)
      simp [mem_sharedKeys, and_comm]
    rw [h.challengerTotal, h.challengerOnly, hshared, Nat.add_comm]
    simpa using List.length_eq_length_filter_add (l := challenger.keys)
      fun key => decide (key ∈ champion.keys)
  matched := by
    rw [PairedCohort.matched, h.pairs,
      length_filterMap_pairAt (haccepted.visited_verdict order)]

/-- The cohorts of two runs on the same content have the same identity once they
have the same pairs. -/
theorem Paired.identity_eq (hchampion : SameContent champion champion')
    (hchallenger : SameContent challenger challenger') (haccepted : Accepted champion challenger)
    (h : Paired order champion challenger cohort)
    (h' : Paired order' champion' challenger' cohort') (hpairs : cohort.pairs = cohort'.pairs) :
    cohort.identity = cohort'.identity := by
  have hshared : (sharedKeys champion challenger).Perm (sharedKeys champion' challenger') :=
    hchampion.filter_keys hchallenger id
  have honly := hchampion.filter_keys hchallenger not
  have honly' := hchallenger.filter_keys hchampion not
  simp only [PairedCohort.identity, hpairs, h.championTotal, h'.championTotal, h.challengerTotal,
    h'.challengerTotal, h.championOnly, h'.championOnly, h.challengerOnly, h'.challengerOnly,
    h.championUnscored, h'.championUnscored, h.challengerUnscored, h'.challengerUnscored,
    hchampion.keys.length_eq, hchallenger.keys.length_eq, decide_not, honly.length_eq,
    honly'.length_eq, hchampion.observed haccepted.championKeys,
    hchallenger.observed haccepted.challengerKeys, hshared.countP_eq]

theorem samePairing_of_unambiguous (hchampion : SameContent champion champion')
    (hchallenger : SameContent challenger challenger') (haccepted : Accepted champion challenger)
    (hunambiguous : Unambiguous champion challenger)
    (h : Paired order champion challenger cohort)
    (h' : Paired order' champion' challenger' cohort') : cohort.pairs = cohort'.pairs := by
  have haccepted' := hchampion.accepted hchallenger haccepted
  have hpairAt := hchampion.pairAt hchallenger haccepted.championKeys haccepted.challengerKeys
  have hscored := hchampion.scored hchallenger haccepted.championKeys haccepted.challengerKeys
  have hperm : (order.arrange (sharedKeys champion challenger)).Perm
      (order'.arrange (sharedKeys champion' challenger')) :=
    ((order.perm _).trans (hchampion.filter_keys hchallenger id)).trans (order'.perm _).symm
  have hfilter : (visited order champion challenger).filter (scored champion challenger) =
      (visited order' champion' challenger').filter (scored champion challenger) :=
    filter_sortedBy_eq_of_perm hperm fun key hkey key' hkey' =>
      hunambiguous key ((order.perm _).mem_iff.mp hkey) key' ((order.perm _).mem_iff.mp hkey')
  rw [h.pairs, h'.pairs, (filterMap_pairAt (haccepted.visited_verdict order)).1,
    (filterMap_pairAt (haccepted'.visited_verdict order')).1, ← hscored, hfilter]
  exact List.filterMap_congr fun key _ => hpairAt key

theorem contentOnly_of_unambiguous
    (h : Accepted champion challenger → Unambiguous champion challenger) :
    ContentOnly champion challenger := by
  intro champion' challenger' hchampion hchallenger order order'
  by_cases haccepted : Accepted champion challenger
  · obtain ⟨cohort, hcohort⟩ := haccepted.exists_cohort order
    obtain ⟨cohort', hcohort'⟩ := (hchampion.accepted hchallenger haccepted).exists_cohort order'
    obtain ⟨-, hpaired⟩ := Paired.of_eq_ok hcohort
    obtain ⟨-, hpaired'⟩ := Paired.of_eq_ok hcohort'
    have hpairs := samePairing_of_unambiguous hchampion hchallenger haccepted (h haccepted)
      hpaired hpaired'
    rw [hcohort, hcohort']
    exact ⟨hpairs, Paired.identity_eq hchampion hchallenger haccepted hpaired hpaired' hpairs⟩
  · cases hcohort : buildPairedCohort order champion challenger with
    | ok cohort => exact absurd (Paired.of_eq_ok hcohort).1 haccepted
    | error e =>
        cases hcohort' : buildPairedCohort order' champion' challenger' with
        | ok cohort' =>
            exact absurd (hchampion.symm.accepted hchallenger.symm (Paired.of_eq_ok hcohort').1)
              haccepted
        | error e' => trivial

/-- Two orders of the sets tell ambiguous questions apart. -/
theorem unambiguous_of_contentOnly (haccepted : Accepted champion challenger)
    (h : ContentOnly champion challenger) : Unambiguous champion challenger := by
  apply (forall_filter_sortedBy_eq_iff haccepted.nodup_sharedKeys).mp
  intro order order'
  obtain ⟨cohort, hcohort⟩ := haccepted.exists_cohort order
  obtain ⟨cohort', hcohort'⟩ := haccepted.exists_cohort order'
  have hsame := h champion challenger (.refl _) (.refl _) order order'
  rw [hcohort, hcohort'] at hsame
  have hkeys := congrArg (List.map PairedScore.key) hsame.1
  rwa [(Paired.of_eq_ok hcohort).2.pairs, (Paired.of_eq_ok hcohort').2.pairs,
    (filterMap_pairAt (haccepted.visited_verdict order)).2,
    (filterMap_pairAt (haccepted.visited_verdict order')).2] at hkeys

/-- Every returned cohort accounts for the keys of both arms, and the pairing
depends on content alone exactly when it is refused or no two questions scored in
both arms have the same instant and symbol. -/
theorem pairing_depends_on_content_iff (champion challenger : Arm F) :
    (∀ order cohort, buildPairedCohort order champion challenger = .ok cohort →
      Counted champion challenger cohort) ∧
    (ContentOnly champion challenger ↔
      (Accepted champion challenger → Unambiguous champion challenger)) := by
  refine ⟨fun order cohort h => ?_, fun h haccepted => unambiguous_of_contentOnly haccepted h,
    contentOnly_of_unambiguous⟩
  obtain ⟨haccepted, hpaired⟩ := Paired.of_eq_ok h
  exact hpaired.counted haccepted

end Content

/-! ## One instant, two horizons -/

section Counterexample

open Platform

def rise : ShadowOutcome where
  forecastId := String.ofList (List.replicate 64 'c')
  realizedLabel := "up"
  observedAt := closeOfDay 12
  recordedAt := closeOfDay 13
  revision := 0
  status := .observed
  identity := by decide
  named := isBlank_up
  chronology := by decide

def weekly : ShadowForecast ℚ := question 5 (by decide)

/-- An arm that asks the question for two horizons. -/
def twoHorizons : Arm ℚ where
  forecasts := [daily, weekly]
  outcomes := (OrderedDict.empty.set daily.forecastId [rise]).set weekly.forecastId [rise]
  distinct := by
    intro history hhistory
    obtain ⟨item, hitem, rfl⟩ := List.mem_map.mp hhistory
    rw [OrderedDict.mem_items_set, OrderedDict.mem_items_set] at hitem
    rcases hitem with rfl | ⟨rfl | ⟨hempty, -⟩, -⟩
    · exact List.nodup_singleton _
    · exact List.nodup_singleton _
    · cases hempty

theorem twoHorizons_history {forecast : ShadowForecast ℚ}
    (h : forecast ∈ twoHorizons.forecasts) :
    twoHorizons.history forecast.forecastId = [rise] := by
  have hmem : forecast = daily ∨ forecast = weekly := by simpa [twoHorizons] using h
  simp only [Arm.history, OrderedDict.getD, twoHorizons, OrderedDict.get?_set]
  rcases hmem with rfl | rfl
  · rw [if_pos (rfl : daily.forecastId = daily.forecastId), ite_self]
    rfl
  · rw [if_pos rfl]
    rfl

theorem twoHorizons_distribution {forecast : ShadowForecast ℚ}
    (h : forecast ∈ twoHorizons.forecasts) :
    forecast.asOf = closeOfDay 5 ∧ forecast.distribution = evenOdds := by
  have hmem : forecast = daily ∨ forecast = weekly := by simpa [twoHorizons] using h
  rcases hmem with rfl | rfl <;> exact ⟨rfl, rfl⟩

theorem twoHorizons_keys : twoHorizons.keys = [keyOf daily, keyOf weekly] := rfl

theorem latestObserved_rise : latestObserved [rise] = some rise := by decide

theorem twoHorizons_accepted : Accepted twoHorizons twoHorizons where
  championKeys := by
    rw [twoHorizons_keys]
    decide
  challengerKeys := by
    rw [twoHorizons_keys]
    decide
  answerable key c d a b hc hd ha hb := by
    have hc := Table.mem_of_find hc
    have hd := Table.mem_of_find hd
    rw [twoHorizons_history hc, latestObserved_rise] at ha
    rw [twoHorizons_history hd, latestObserved_rise] at hb
    cases ha
    cases hb
    obtain ⟨hcAt, hcClasses⟩ := twoHorizons_distribution hc
    obtain ⟨hdAt, hdClasses⟩ := twoHorizons_distribution hd
    refine ⟨rfl, ?_, ?_, ?_, ?_⟩
    · rw [hcAt]
      decide
    · rw [hdAt]
      decide
    · rw [hcClasses]
      decide
    · rw [hdClasses]
      decide
  sized := by
    have hlength : (sharedKeys twoHorizons twoHorizons).length ≤ twoHorizons.keys.length :=
      List.length_filter_le _ _
    rw [twoHorizons_keys] at hlength
    exact (List.length_filter_le _ _).trans (hlength.trans (by decide))

/-- The order of a set decides which of two horizons comes first. -/
theorem two_horizons_depend_on_set_order : ¬ ContentOnly twoHorizons twoHorizons := by
  intro hcontent
  have hunambiguous := unambiguous_of_contentOnly twoHorizons_accepted hcontent
  have hdaily : keyOf daily ∈ twoHorizons.keys := by simp [twoHorizons_keys]
  have hweekly : keyOf weekly ∈ twoHorizons.keys := by simp [twoHorizons_keys]
  have hscored : ∀ forecast ∈ twoHorizons.forecasts,
      twoHorizons.forecast? (keyOf forecast) = some forecast →
        scored twoHorizons twoHorizons (keyOf forecast) = true := by
    intro forecast hmem hfind
    simp [scored, observed_of_forecast hfind, twoHorizons_history hmem, latestObserved_rise]
  have hsame := hunambiguous (keyOf daily) (mem_sharedKeys.mpr ⟨hdaily, hdaily⟩)
    (keyOf weekly) (mem_sharedKeys.mpr ⟨hweekly, hweekly⟩)
    (hscored daily (by simp [twoHorizons]) rfl) (hscored weekly (by simp [twoHorizons]) rfl) rfl
  exact absurd hsame (by decide)

end Counterexample

end Governance
