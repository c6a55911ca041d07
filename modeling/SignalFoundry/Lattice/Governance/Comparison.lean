import Mathlib.Data.List.MinMax
import SignalFoundry.Lattice.Shadow.Contracts
import SignalFoundry.Library.OrderedDict
import SignalFoundry.Library.StableSort

/-!
# Paired cohorts

Two arms are compared on the questions that both were asked. The shared keys are
an intersection of sets, so their order comes from the order in which sets are
iterated and from the sort by instant and symbol.
-/

namespace Governance

open Fallible Shadow

/-- `MAX_PAIRS`. -/
def maxPairs : ℕ := 500000

inductive ComparisonError where
  | comparison (message : String)
  | leakage (message : String)
  /-- A `ShadowValidationError` of a score. -/
  | shadow (error : ShadowError)
  deriving DecidableEq

structure PairKey where
  campaignSymbol : String
  asOf : Instant
  horizonDays : ℕ
  deriving DecidableEq

/-- The key of the sort, `(key.as_of, key.campaign_symbol)`. -/
def PairKey.sortKey (key : PairKey) : (PyDate ×ₗ ℕ) ×ₗ String :=
  toLex (toLex (key.asOf.date, key.asOf.time), key.campaignSymbol)

structure PairedScore (F : Type) where
  key : PairKey
  asOfDate : PyDate
  championBrier : F
  challengerBrier : F
  championLog : F
  challengerLog : F

/-- A matched sample with its exclusions. -/
structure PairedCohort (F : Type) where
  pairs : List (PairedScore F)
  championTotal : ℕ
  challengerTotal : ℕ
  championOnly : ℕ
  challengerOnly : ℕ
  championUnscored : ℕ
  challengerUnscored : ℕ
  comparable : Bool
  incomparableReason : Option String
  sized : pairs.length ≤ maxPairs
  explained : comparable = incomparableReason.isNone ∧ incomparableReason ≠ some ""

/-- The forecasts of an arm and the outcomes of each of them, whose revisions are
distinct. -/
structure Arm (F : Type) [PyFloat F] where
  forecasts : List (ShadowForecast F)
  outcomes : OrderedDict String (List ShadowOutcome)
  distinct : ∀ history ∈ outcomes.values, (history.map ShadowOutcome.revision).Nodup

section Cohorts

variable {F : Type} [PyFloat F]

/-- `brier_difference`. -/
def PairedScore.brierDifference (score : PairedScore F) : F :=
  PyFloat.sub score.challengerBrier score.championBrier

/-- `log_difference`. -/
def PairedScore.logDifference (score : PairedScore F) : F :=
  PyFloat.sub score.challengerLog score.championLog

def PairKey.toDict (key : PairKey) : Json F :=
  .obj [("symbol", .str key.campaignSymbol), ("as_of", .str key.asOf.isoformat),
    ("horizon_days", .int key.horizonDays)]

def PairedScore.toDict (score : PairedScore F) : Json F :=
  .obj [("key", score.key.toDict), ("as_of_date", .str score.asOfDate.isoformat),
    ("champion_brier", .float score.championBrier),
    ("challenger_brier", .float score.challengerBrier),
    ("brier_difference", .float score.brierDifference),
    ("log_difference", .float score.logDifference)]

namespace PairedCohort

def matched (cohort : PairedCohort F) : ℕ := cohort.pairs.length

def coverage (cohort : PairedCohort F) : F :=
  let union := cohort.championTotal + cohort.challengerOnly
  if union = 0 then PyFloat.zero
  else PyFloat.div (PyFloat.ofNat cohort.matched) (PyFloat.ofNat union)

/-- `identity()`. -/
def identity [PyRuntime] [FloatText F] (cohort : PairedCohort F) : String :=
  Shadow.canonicalDigest (.obj [
    ("pairs", .arr (cohort.pairs.map PairedScore.toDict)),
    ("champion_total", .int cohort.championTotal),
    ("challenger_total", .int cohort.challengerTotal),
    ("champion_only", .int cohort.championOnly),
    ("challenger_only", .int cohort.challengerOnly),
    ("champion_unscored", .int cohort.championUnscored),
    ("challenger_unscored", .int cohort.challengerUnscored)])

end PairedCohort

/-! ## Pairing -/

/-- `MAX_MISSINGNESS_ASYMMETRY`. -/
def maxMissingnessAsymmetry : F := PyFloat.div (PyFloat.ofNat 5) (PyFloat.ofNat 100)

/-- The key under which a forecast is indexed. -/
def keyOf (forecast : ShadowForecast F) : PairKey :=
  ⟨forecast.symbol, forecast.asOf, forecast.horizonDays⟩

/-- `_index`. -/
def index (forecasts : List (ShadowForecast F)) :
    Except ComparisonError (OrderedDict PairKey (ShadowForecast F)) :=
  forecasts.foldlM
    (fun indexed item => do
      refuseIf (keyOf item ∈ indexed.keys) (ComparisonError.comparison ("duplicate forecast for " ++
        item.symbol ++ " at " ++ item.asOf.isoformat ++ "; the pairing would be ambiguous"))
      .ok (indexed.set (keyOf item) item))
    OrderedDict.empty

/-- `_latest_observed`. -/
def latestObserved (history : List ShadowOutcome) : Option ShadowOutcome :=
  (history.filter fun item => item.status = .observed).argmax ShadowOutcome.revision

/-- `outcomes.get(forecast_id, ())`. -/
def Arm.history (arm : Arm F) (forecastId : String) : List ShadowOutcome :=
  arm.outcomes.getD forecastId []

/-- The message of an error. -/
def message : ShadowError → String
  | .validation message => message
  | .sealedCampaign message => message
  | .conflict message => message
  | .notFound message => message
  | .database => ""

/-- The state of the loop over the shared keys. -/
structure Pairing (F : Type) where
  pairs : List (PairedScore F) := []
  championUnscored : ℕ := 0
  challengerUnscored : ℕ := 0

variable [FloatMath F]

/-- The reason of a cohort that is not comparable. -/
def asymmetryReason (asymmetry championMissingRate challengerMissingRate : F) : String :=
  "missingness differs by " ++ FloatMath.formatFixed 3 asymmetry ++ " between arms (champion " ++
    FloatMath.formatFixed 3 championMissingRate ++ ", challenger " ++
    FloatMath.formatFixed 3 challengerMissingRate ++ "), above the " ++
    FloatMath.formatFixed 3 (maxMissingnessAsymmetry : F) ++ " bound. A model absent on the days " ++
    "it would have scored badly produces a biased paired sample even when every " ++
    "retained pair is individually valid."

theorem asymmetryReason_ne_empty (asymmetry championMissingRate challengerMissingRate : F) :
    asymmetryReason asymmetry championMissingRate challengerMissingRate ≠ "" := by
  unfold asymmetryReason
  intro hempty
  have hlast := (String.append_eq_empty_iff.mp hempty).2
  simp at hlast

variable [PyRuntime] [FloatText F]

/-- Score a key that is observed in both arms. -/
def comparePair (key : PairKey) (champion challenger : ShadowForecast F)
    (championOutcome challengerOutcome : ShadowOutcome) :
    Except ComparisonError (PairedScore F) := do
  refuseIf (championOutcome.realizedLabel ≠ challengerOutcome.realizedLabel)
    (.comparison ("arms disagree about the realised outcome for " ++ key.campaignSymbol ++ " at " ++
      key.asOf.isoformat ++ ": " ++ PyRuntime.strRepr championOutcome.realizedLabel ++ " versus " ++
      PyRuntime.strRepr challengerOutcome.realizedLabel ++ ". One question has one answer; " ++
      "this is a reconciliation fault, not a scoring difference."))
  let leaked (error : ShadowError) := ComparisonError.leakage ("paired forecast for " ++
    key.campaignSymbol ++ " at " ++ key.asOf.isoformat ++ " could have consumed its outcome: " ++
      message error)
  (champion.assertPrecedes championOutcome.observedAt).mapError leaked
  (challenger.assertPrecedes challengerOutcome.observedAt).mapError leaked
  let label := championOutcome.realizedLabel
  let championBrier ← (brierScore champion.distribution label).mapError .shadow
  let challengerBrier ← (brierScore challenger.distribution label).mapError .shadow
  let championLog ← (logScore champion.distribution label).mapError .shadow
  let challengerLog ← (logScore challenger.distribution label).mapError .shadow
  .ok {
    key := key
    asOfDate := key.asOf.date
    championBrier := championBrier
    challengerBrier := challengerBrier
    championLog := championLog
    challengerLog := challengerLog }

/-- The body of the loop, on a key with its forecasts in the two arms. -/
def pairForecasts (champion challenger : Arm F) (state : Pairing F) (key : PairKey)
    (championForecast challengerForecast : ShadowForecast F) :
    Except ComparisonError (Pairing F) :=
  let championOutcome := latestObserved (champion.history championForecast.forecastId)
  let challengerOutcome := latestObserved (challenger.history challengerForecast.forecastId)
  let state := { state with
    championUnscored := state.championUnscored + if championOutcome = none then 1 else 0
    challengerUnscored := state.challengerUnscored + if challengerOutcome = none then 1 else 0 }
  match championOutcome, challengerOutcome with
  | some championOutcome, some challengerOutcome => do
      let pair ← comparePair key championForecast challengerForecast championOutcome
        challengerOutcome
      .ok { state with pairs := state.pairs ++ [pair] }
  | _, _ => .ok state

/-- The body of the loop; a shared key is in both indexes. -/
def pairStep (champion challenger : Arm F)
    (championIndex challengerIndex : OrderedDict PairKey (ShadowForecast F)) (state : Pairing F)
    (key : PairKey) : Except ComparisonError (Pairing F) :=
  match championIndex.get? key, challengerIndex.get? key with
  | some championForecast, some challengerForecast =>
      pairForecasts champion challenger state key championForecast challengerForecast
  | _, _ => .ok state

/-- `build_paired_cohort`, with sets iterated in an order. -/
def buildPairedCohort (order : SetOrder PairKey) (champion challenger : Arm F) :
    Except ComparisonError (PairedCohort F) := do
  let championIndex ← index champion.forecasts
  let challengerIndex ← index challenger.forecasts
  let shared := sortedBy PairKey.sortKey
    (order.arrange (championIndex.keys.filter (· ∈ challengerIndex.keys)))
  let state ← shared.foldlM (pairStep champion challenger championIndex challengerIndex) {}
  let rate (unscored : ℕ) : F :=
    if shared = [] then PyFloat.zero
    else PyFloat.div (PyFloat.ofNat unscored) (PyFloat.ofNat shared.length)
  let championMissingRate := rate state.championUnscored
  let challengerMissingRate := rate state.challengerUnscored
  let asymmetry := PyFloat.abs (PyFloat.sub championMissingRate challengerMissingRate)
  let ⟨sized⟩ ← require (state.pairs.length ≤ maxPairs)
    (ComparisonError.comparison "cohort exceeds the 500000-pair ceiling")
  .ok {
    pairs := state.pairs
    championTotal := championIndex.size
    challengerTotal := challengerIndex.size
    championOnly := (championIndex.keys.filter (· ∉ challengerIndex.keys)).length
    challengerOnly := (challengerIndex.keys.filter (· ∉ championIndex.keys)).length
    championUnscored := state.championUnscored
    challengerUnscored := state.challengerUnscored
    comparable := PyFloat.le asymmetry maxMissingnessAsymmetry
    incomparableReason := if PyFloat.le asymmetry maxMissingnessAsymmetry then none
      else some (asymmetryReason asymmetry championMissingRate challengerMissingRate)
    sized := sized
    explained := by
      have hreason := asymmetryReason_ne_empty asymmetry championMissingRate challengerMissingRate
      split <;> simp_all }

end Cohorts

end Governance
