import SignalFoundry.Library.Fallible
import SignalFoundry.Library.Json.Basic
import SignalFoundry.Library.PyFloat

/-!
# Trade decisions

`DecisionPolicy.evaluate` passes one signal through eleven gates. A gate that fires
adds its reason and the fields that it failed; a signal without a reason is eligible
for a trade.
-/

namespace SignalFoundry.DecisionPolicy

open Fallible

inductive DecisionAction where
  | trade
  | abstain
  deriving DecidableEq, Repr

inductive SignalDirection where
  | long
  | short
  | flat
  deriving DecidableEq, Repr

inductive RegimeSupport where
  | supported
  | unsupported
  | unknown
  deriving DecidableEq, Repr

/-- The value of the enumeration. -/
def RegimeSupport.value : RegimeSupport → String
  | supported => "supported"
  | unsupported => "unsupported"
  | unknown => "unknown"

inductive DecisionReason where
  | nonFiniteInput
  | outOfBoundsInput
  | futureData
  | staleData
  | excessCost
  | highDisagreement
  | unsupportedRegime
  | uncertainRegime
  | driftDetected
  | excessUncertainty
  | insufficientMargin
  deriving DecidableEq, Repr

/-! ## Times -/

/-- The microseconds from the first to the last representable time. -/
def maxMicroseconds : ℤ := 3652059 * 86400 * 1000000

/-- An aware datetime: its local time in microseconds since the first representable one, and
its offset from UTC. -/
structure AwareDatetime where
  wall : ℤ
  offset : ℤ
  wall_mem : 0 ≤ wall ∧ wall < maxMicroseconds
  offset_lt : |offset| < 86400 * 1000000
  deriving DecidableEq, Repr

/-- `t.astimezone(UTC)`, in microseconds; `none` is `OverflowError`. -/
def AwareDatetime.utc (t : AwareDatetime) : Option ℤ :=
  let instant := t.wall - t.offset
  if 0 ≤ instant ∧ instant < maxMicroseconds then some instant else none

/-- How an identity writes a finite number and a time in UTC. Nothing is assumed of it. -/
class IdentityText where
  number : ℚ → Json Unit
  instant : ℤ → String

/-! ## Thresholds and signals -/

def policySchemaVersion : String := "1.0.0"

/-- `DecisionThresholds`; the last fields are what `__post_init__` checks. -/
structure DecisionThresholds where
  requiredMargin : ℚ
  costMultiplier : ℚ
  costUncertaintyMultiplier : ℚ
  uncertaintyPenalty : ℚ
  maximumTotalCost : ℚ
  maximumPredictionUncertainty : ℚ
  maximumModelDisagreement : ℚ
  maximumRegimeUncertainty : ℚ
  maximumDriftScore : ℚ
  maximumDataAgeSeconds : ℤ
  maximumAbsoluteExpectedReturn : ℚ
  maximumBatchSize : ℤ
  requiredMargin_mem : 0 ≤ requiredMargin ∧ requiredMargin ≤ 1
  costMultiplier_mem : 1 ≤ costMultiplier ∧ costMultiplier ≤ 100
  costUncertaintyMultiplier_mem : 0 ≤ costUncertaintyMultiplier ∧ costUncertaintyMultiplier ≤ 100
  uncertaintyPenalty_mem : 0 ≤ uncertaintyPenalty ∧ uncertaintyPenalty ≤ 100
  maximumTotalCost_mem : 0 ≤ maximumTotalCost ∧ maximumTotalCost ≤ 1
  maximumPredictionUncertainty_mem :
    0 ≤ maximumPredictionUncertainty ∧ maximumPredictionUncertainty ≤ 1
  maximumModelDisagreement_mem : 0 ≤ maximumModelDisagreement ∧ maximumModelDisagreement ≤ 1
  maximumRegimeUncertainty_mem : 0 ≤ maximumRegimeUncertainty ∧ maximumRegimeUncertainty ≤ 1
  maximumDriftScore_mem : 0 ≤ maximumDriftScore ∧ maximumDriftScore ≤ 1
  maximumDataAgeSeconds_mem : 1 ≤ maximumDataAgeSeconds ∧ maximumDataAgeSeconds ≤ 31536000
  maximumAbsoluteExpectedReturn_mem :
    0 < maximumAbsoluteExpectedReturn ∧ maximumAbsoluteExpectedReturn ≤ 1
  maximumBatchSize_mem : 1 ≤ maximumBatchSize ∧ maximumBatchSize ≤ 100000
  requiredMargin_lt : requiredMargin < maximumAbsoluteExpectedReturn

/-- The numeric fields of a signal, in the order of their checks. -/
inductive NumericField where
  | expectedReturn
  | expectedCost
  | costUncertainty
  | predictionUncertainty
  | modelDisagreement
  | regimeUncertainty
  | driftScore
  deriving DecidableEq, Repr

namespace NumericField

def name : NumericField → String
  | expectedReturn => "expected_return"
  | expectedCost => "expected_cost"
  | costUncertainty => "cost_uncertainty"
  | predictionUncertainty => "prediction_uncertainty"
  | modelDisagreement => "model_disagreement"
  | regimeUncertainty => "regime_uncertainty"
  | driftScore => "drift_score"

/-- The fields that must lie in the unit interval. -/
def unitFields : List NumericField :=
  [expectedCost, costUncertainty, predictionUncertainty, modelDisagreement, regimeUncertainty,
    driftScore]

def all : List NumericField := expectedReturn :: unitFields

theorem mem_all (field : NumericField) : field ∈ all := by
  cases field <;> decide

theorem mem_unitFields_iff {field : NumericField} :
    field ∈ unitFields ↔ field ≠ expectedReturn := by
  cases field <;> decide

end NumericField

/-- `DecisionSignal`. -/
structure DecisionSignal where
  signalId : String
  modelId : String
  decisionTime : AwareDatetime
  dataAvailableAt : AwareDatetime
  numeric : NumericField → PyNumber
  regime : RegimeSupport

/-- `Decision`. -/
structure Decision where
  decisionId : String
  policyId : String
  signalId : String
  action : DecisionAction
  direction : SignalDirection
  reasons : List DecisionReason
  failedFields : List String
  conservativeCost : Option ℚ
  uncertaintyCharge : Option ℚ
  penalizedExpectedValue : Option ℚ
  requiredMargin : ℚ
  dataAgeSeconds : ℚ

/-! ## Identities -/

section Identity

variable [PyRuntime] [IdentityText]

/-- `_sha256`. -/
def sha256 (payload : Json Unit) : String :=
  PyText.hexText (PyRuntime.sha256 (PyText.encodeUtf8 payload.dumps))

/-- `_canonical_value` of a number. -/
def canonicalNumber : PyNumber → Json Unit
  | .nan => .str "float:nan"
  | .posInf => .str "float:+inf"
  | .negInf => .str "float:-inf"
  | .finite value => IdentityText.number value

/-- `policy_id`. -/
def DecisionThresholds.policyId (t : DecisionThresholds) : String :=
  "policy-" ++ sha256 (.obj [("schema_version", .str policySchemaVersion),
    ("required_margin", canonicalNumber (.finite t.requiredMargin)),
    ("cost_multiplier", canonicalNumber (.finite t.costMultiplier)),
    ("cost_uncertainty_multiplier", canonicalNumber (.finite t.costUncertaintyMultiplier)),
    ("uncertainty_penalty", canonicalNumber (.finite t.uncertaintyPenalty)),
    ("maximum_total_cost", canonicalNumber (.finite t.maximumTotalCost)),
    ("maximum_prediction_uncertainty", canonicalNumber (.finite t.maximumPredictionUncertainty)),
    ("maximum_model_disagreement", canonicalNumber (.finite t.maximumModelDisagreement)),
    ("maximum_regime_uncertainty", canonicalNumber (.finite t.maximumRegimeUncertainty)),
    ("maximum_drift_score", canonicalNumber (.finite t.maximumDriftScore)),
    ("maximum_data_age_seconds", .int t.maximumDataAgeSeconds),
    ("maximum_absolute_expected_return",
      canonicalNumber (.finite t.maximumAbsoluteExpectedReturn)),
    ("maximum_batch_size", .int t.maximumBatchSize)])

/-- The payload of `decision_id`, with the times in UTC. -/
def decisionPayload (signal : DecisionSignal) (decisionTime availableAt : ℤ) (policyId : String) :
    Json Unit :=
  .obj (NumericField.all.map (fun field => (field.name, canonicalNumber (signal.numeric field))) ++
    [("data_available_at", .str (IdentityText.instant availableAt)),
      ("decision_time", .str (IdentityText.instant decisionTime)),
      ("model_id", .str signal.modelId), ("regime", .str signal.regime.value),
      ("signal_id", .str signal.signalId), ("policy_id", .str policyId)])

end Identity

/-! ## The gates -/

section Gates

variable (t : DecisionThresholds) (signal : DecisionSignal)

/-- `non_finite`. -/
def nonFinite : List NumericField :=
  NumericField.all.filter fun field => !(signal.numeric field).isFinite

/-- `out_of_bounds`. -/
def outOfBounds : List NumericField :=
  (if (signal.numeric .expectedReturn).isFinite &&
      !((signal.numeric .expectedReturn).abs.le (.finite t.maximumAbsoluteExpectedReturn))
    then [.expectedReturn] else []) ++
  NumericField.unitFields.filter fun field => (signal.numeric field).isFinite &&
    !((PyNumber.finite 0).le (signal.numeric field) && (signal.numeric field).le (.finite 1))

/-- The value of a field that is not in `invalid_fields`. -/
def validValue (field : NumericField) : Option ℚ :=
  if field ∈ nonFinite signal ∨ field ∈ outOfBounds t signal then none
  else (signal.numeric field).finite?

/-- `conservative_cost`. -/
def conservativeCost : Option ℚ := do
  let cost ← validValue t signal .expectedCost
  let uncertainty ← validValue t signal .costUncertainty
  return t.costMultiplier * (cost + t.costUncertaintyMultiplier * uncertainty)

/-- `uncertainty_charge`. -/
def uncertaintyCharge : Option ℚ :=
  (validValue t signal .predictionUncertainty).map (t.uncertaintyPenalty * ·)

/-- `penalized_value`. -/
def penalizedValue : Option ℚ := do
  let expectedReturn ← validValue t signal .expectedReturn
  let cost ← conservativeCost t signal
  let charge ← uncertaintyCharge t signal
  return |expectedReturn| - cost - charge

/-- A gate: its reason and the fields that it fails, when it fires. -/
def gate (fires : Bool) (reason : DecisionReason) (fields : List String) :
    List (DecisionReason × List String) :=
  if fires then [(reason, fields)] else []

/-- The findings of all gates, in their order. -/
def findings (dataAgeSeconds : ℚ) : List (DecisionReason × List String) :=
  gate (nonFinite signal ≠ []) .nonFiniteInput ((nonFinite signal).map NumericField.name) ++
  gate (outOfBounds t signal ≠ []) .outOfBoundsInput
    ((outOfBounds t signal).map NumericField.name) ++
  gate (dataAgeSeconds < 0) .futureData ["data_available_at"] ++
  gate (¬ dataAgeSeconds < 0 ∧ t.maximumDataAgeSeconds < dataAgeSeconds) .staleData
    ["data_available_at"] ++
  gate ((conservativeCost t signal).any (t.maximumTotalCost < ·)) .excessCost
    ["conservative_cost"] ++
  gate ((validValue t signal .modelDisagreement).any (t.maximumModelDisagreement < ·))
    .highDisagreement ["model_disagreement"] ++
  gate (signal.regime ≠ .supported) .unsupportedRegime ["regime"] ++
  gate ((validValue t signal .regimeUncertainty).any (t.maximumRegimeUncertainty < ·))
    .uncertainRegime ["regime_uncertainty"] ++
  gate ((validValue t signal .driftScore).any (t.maximumDriftScore < ·)) .driftDetected
    ["drift_score"] ++
  gate ((validValue t signal .predictionUncertainty).any (t.maximumPredictionUncertainty < ·))
    .excessUncertainty ["prediction_uncertainty"] ++
  gate ((penalizedValue t signal).any (· ≤ t.requiredMargin)) .insufficientMargin
    ["penalized_expected_value"]

/-- `_direction`. -/
def directionOf : PyNumber → SignalDirection
  | .finite value => if value = 0 then .flat else if 0 < value then .long else .short
  | _ => .flat

/-- `data_age_seconds`; `none` is the `OverflowError` of a conversion to UTC. -/
def DecisionSignal.dataAgeSeconds (signal : DecisionSignal) : Option ℚ := do
  let decisionTime ← signal.decisionTime.utc
  let availableAt ← signal.dataAvailableAt.utc
  return ((decisionTime - availableAt : ℤ) : ℚ) / 1000000

variable [PyRuntime] [IdentityText]

/-- `DecisionPolicy.evaluate`; `none` is the `OverflowError` of a conversion to UTC. -/
def evaluate : Option Decision := do
  let decisionTime ← signal.decisionTime.utc
  let availableAt ← signal.dataAvailableAt.utc
  let dataAgeSeconds ← signal.dataAgeSeconds
  let found := findings t signal dataAgeSeconds
  return {
    decisionId := "decision-" ++ sha256 (decisionPayload signal decisionTime availableAt t.policyId)
    policyId := t.policyId
    signalId := signal.signalId
    action := if found.map Prod.fst ≠ [] then .abstain else .trade
    direction := directionOf (signal.numeric .expectedReturn)
    reasons := found.map Prod.fst
    failedFields := (found.flatMap Prod.snd).eraseDups
    conservativeCost := conservativeCost t signal
    uncertaintyCharge := uncertaintyCharge t signal
    penalizedExpectedValue := penalizedValue t signal
    requiredMargin := t.requiredMargin
    dataAgeSeconds := dataAgeSeconds }

end Gates

end SignalFoundry.DecisionPolicy
