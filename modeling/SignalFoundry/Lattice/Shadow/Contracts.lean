import SignalFoundry.Library.ExactFloat
import SignalFoundry.Library.Fallible
import SignalFoundry.Library.Json.RoundTrip
import SignalFoundry.Library.PyDate
import SignalFoundry.Library.PyFloat

/-!
# Shadow campaigns

The states of a shadow campaign and the forecasts that are sealed in it. A
forecast and a batch are validated when they are made; their identities are
digests of their content.
-/

namespace Shadow

/-! ## Instants -/

/-- An aware `datetime` in UTC. -/
structure Instant where
  date : PyDate
  hour : ℕ
  minute : ℕ
  second : ℕ
  microsecond : ℕ
  deriving DecidableEq

namespace Instant

/-- The microseconds since midnight. -/
def time (t : Instant) : ℕ :=
  ((t.hour * 60 + t.minute) * 60 + t.second) * 1000000 + t.microsecond

/-- `a < b` of instants. -/
def before (a b : Instant) : Bool := a.date < b.date || (a.date = b.date && a.time < b.time)

def clock (t : Instant) : List Char :=
  PyDate.padded 2 t.hour ++ ':' :: PyDate.padded 2 t.minute ++ ':' :: PyDate.padded 2 t.second

/-- `value.isoformat()`. -/
def isoformat (t : Instant) : String :=
  String.ofList (t.date.isoformat.toList ++ 'T' :: t.clock ++
    (if t.microsecond = 0 then [] else '.' :: PyDate.padded 6 t.microsecond) ++
      ['+', '0', '0', ':', '0', '0'])

/-- `_encode_instant`: `%Y` does not pad the year. -/
def encoded (t : Instant) : String :=
  String.ofList (Nat.toDigits 10 t.date.year ++ '-' :: PyDate.padded 2 t.date.month ++
    '-' :: PyDate.padded 2 t.date.day ++ 'T' :: t.clock ++ '.' :: PyDate.padded 6 t.microsecond ++
      ['Z'])

end Instant

/-! ## Campaigns -/

inductive CampaignState where
  | draft
  | active
  | sealed
  | reconciling
  | closed
  | abandoned
  deriving DecidableEq, Repr

namespace CampaignState

def value : CampaignState → String
  | draft => "draft"
  | active => "active"
  | sealed => "sealed"
  | reconciling => "reconciling"
  | closed => "closed"
  | abandoned => "abandoned"

/-- `ALLOWED_CAMPAIGN_TRANSITIONS`. -/
def permitted : CampaignState → List CampaignState
  | draft => [active, abandoned]
  | active => [sealed, abandoned]
  | sealed => [reconciling, abandoned]
  | reconciling => [closed, abandoned]
  | closed => []
  | abandoned => []

end CampaignState

inductive ShadowError where
  | validation (message : String)
  | sealedCampaign (message : String)
  | conflict (message : String)
  | notFound (message : String)
  /-- `sqlite3.IntegrityError`. -/
  | database
  deriving DecidableEq, Repr

/-- Whether a text matches a pattern whose `$` also matches before a final
newline. -/
def matchesLine (test : String → Bool) (text : String) : Bool :=
  test text || (text.toList.getLast? = some '\n' && test (String.ofList text.toList.dropLast))

/-- `^[a-z][a-z0-9_\-]{0,63}$`. -/
def isCampaignName (name : String) : Bool :=
  matchesLine (PyText.isToken PyText.isLowerAscii
    (fun c => PyText.isLowerAscii c || PyText.isDigitAscii c || c == '_' || c == '-') 63) name

/-- `^[A-Z][A-Z0-9.\-]{0,23}$`. -/
def isSymbol (symbol : String) : Bool :=
  matchesLine (PyText.isToken PyText.isUpperAscii
    (fun c => PyText.isUpperAscii c || PyText.isDigitAscii c || c == '.' || c == '-') 23) symbol

/-- A full SHA-256 digest in lowercase hexadecimal. -/
def isDigest (text : String) : Bool := PyText.isRun PyText.isHexDigit 64 text

/-! ## Forecasts -/

section Forecasts

variable [PyRuntime] {F : Type} [PyFloat F] [FloatText F]

def canonicalDigest (payload : Json F) : String :=
  PyText.hexText (PyRuntime.sha256 (PyText.encodeUtf8 payload.dumps))

def probabilitySumTolerance : F := PyFloat.div (PyFloat.ofNat 1) (PyFloat.ofNat 1000000000)

structure ProbabilityVector (F : Type) [PyFloat F] where
  labels : List String
  probabilities : List F
  classes : 2 ≤ labels.length ∧ labels.length ≤ 16
  named : ∀ label ∈ labels, PyText.isBlank label = false
  unique : labels.Nodup
  paired : probabilities.length = labels.length
  bounded : ∀ p ∈ probabilities, PyFloat.isFinite p = true ∧
    PyFloat.lt p PyFloat.zero = false ∧ PyFloat.lt (PyFloat.ofNat 1) p = false
  summed : ∀ total, PyFloat.fsum probabilities = some total →
    PyFloat.lt probabilitySumTolerance (PyFloat.abs (PyFloat.sub total (PyFloat.ofNat 1))) = false

def ProbabilityVector.toDict (v : ProbabilityVector F) : Json F :=
  .obj [("labels", .arr (v.labels.map .str)), ("probabilities", .arr (v.probabilities.map .float))]

structure ShadowForecast (F : Type) [PyFloat F] where
  campaign : String
  symbol : String
  asOf : Instant
  targetInstant : Instant
  horizonDays : ℕ
  distribution : ProbabilityVector F
  featurePrefixDigest : String
  modelIdentity : String
  campaign_name : isCampaignName campaign = true
  symbol_name : isSymbol symbol = true
  chronology : asOf.before targetInstant = true
  horizon : 1 ≤ horizonDays ∧ horizonDays ≤ 365
  digests : isDigest featurePrefixDigest = true ∧ isDigest modelIdentity = true

/-- `forecast_id`. -/
def ShadowForecast.forecastId (forecast : ShadowForecast F) : String :=
  canonicalDigest (.obj [
    ("campaign", .str forecast.campaign),
    ("symbol", .str forecast.symbol),
    ("as_of", .str forecast.asOf.isoformat),
    ("target_instant", .str forecast.targetInstant.isoformat),
    ("horizon_days", .int forecast.horizonDays),
    ("distribution", forecast.distribution.toDict),
    ("feature_prefix_digest", .str forecast.featurePrefixDigest),
    ("model_identity", .str forecast.modelIdentity)])

/-- A complete batch: its forecasts are those of the expected universe, both in
the order of the symbols. -/
structure SealedBatch (F : Type) [PyFloat F] where
  campaign : String
  asOf : Instant
  expectedUniverse : List String
  forecasts : List (ShadowForecast F)
  sealedAt : Instant
  sized : expectedUniverse ≠ [] ∧ expectedUniverse.length ≤ 5000
  ordered : expectedUniverse.Pairwise (· < ·)
  covered : forecasts.map (·.symbol) = expectedUniverse
  together : ∀ forecast ∈ forecasts, forecast.campaign = campaign ∧ forecast.asOf = asOf
  chronology : sealedAt.before asOf = false

/-- `batch_id`. -/
def SealedBatch.batchId (batch : SealedBatch F) : String :=
  canonicalDigest (F := F) (.obj [
    ("campaign", .str batch.campaign),
    ("as_of", .str batch.asOf.isoformat),
    ("expected_universe", .arr (batch.expectedUniverse.map .str)),
    ("forecast_ids", .arr (batch.forecasts.map fun forecast => .str forecast.forecastId))])

end Forecasts

end Shadow

/-! ## Outcomes and scores

An outcome is appended to a forecast in numbered revisions. A forecast is scored
against the realised label of one of them. -/

namespace Shadow

open Fallible

inductive OutcomeStatus where
  | observed
  | pending
  | missing
  | late
  | wrongHorizon
  deriving DecidableEq, Repr

def OutcomeStatus.value : OutcomeStatus → String
  | observed => "observed"
  | pending => "pending"
  | missing => "missing"
  | late => "late"
  | wrongHorizon => "wrong_horizon"

/-- An outcome of one forecast, validated when it is made. -/
@[ext] structure ShadowOutcome where
  forecastId : String
  realizedLabel : String
  observedAt : Instant
  recordedAt : Instant
  revision : ℕ
  status : OutcomeStatus
  identity : forecastId.toList.length = 64
  named : PyText.isBlank realizedLabel = false
  chronology : recordedAt.before observedAt = false

instance : DecidableEq ShadowOutcome := fun _ _ => decidable_of_iff _ ShadowOutcome.ext_iff.symm

/-- `str` of a list of strings. -/
def listText [PyRuntime] (items : List String) : String :=
  "[" ++ String.intercalate ", " (items.map PyRuntime.strRepr) ++ "]"

section Scores

variable {F : Type} [PyFloat F]

/-- `assert_precedes`. -/
def ShadowForecast.assertPrecedes (forecast : ShadowForecast F) (observedAt : Instant) :
    Except ShadowError Unit :=
  refuseIf (forecast.asOf.before observedAt = false) (.validation ("outcome observed at " ++
    observedAt.isoformat ++ " is not after as_of " ++ forecast.asOf.isoformat ++
      "; the forecast could have consumed it"))

theorem assertPrecedes_eq_ok_iff {forecast : ShadowForecast F} {observedAt : Instant} {u : Unit} :
    forecast.assertPrecedes observedAt = .ok u ↔ forecast.asOf.before observedAt = true := by
  simp [ShadowForecast.assertPrecedes]

variable [PyRuntime] [FloatMath F]

/-- `probability_of`. -/
def ProbabilityVector.probabilityOf (v : ProbabilityVector F) (label : String) :
    Except ShadowError F :=
  match (v.labels.zip v.probabilities).lookup label with
  | some probability => .ok probability
  | none => .error (.validation ("label " ++ PyRuntime.strRepr label ++
      " is not in this distribution: " ++ listText v.labels))

/-- `brier_score`. -/
def brierScore (distribution : ProbabilityVector F) (realizedLabel : String) :
    Except ShadowError F := do
  refuseIf (realizedLabel ∉ distribution.labels) (.validation ("realised label " ++
    PyRuntime.strRepr realizedLabel ++ " is not among the forecast classes " ++
      listText distribution.labels ++ "; the outcome source and the campaign disagree " ++
        "about the label space"))
  .ok ((distribution.labels.zip distribution.probabilities).foldl
    (fun total (label, probability) =>
      let indicator := if label = realizedLabel then PyFloat.ofNat 1 else PyFloat.zero
      PyFloat.add total (FloatMath.square (PyFloat.sub probability indicator)))
    PyFloat.zero)

/-- `LOG_SCORE_EPSILON`. -/
def logScoreEpsilon : F := PyFloat.div (PyFloat.ofNat 1) (PyFloat.ofNat 1000000000000000)

/-- `log_score`. -/
def logScore (distribution : ProbabilityVector F) (realizedLabel : String) :
    Except ShadowError F := do
  let probability ← distribution.probabilityOf realizedLabel
  .ok (PyFloat.neg (FloatMath.log (PyFloat.max probability logScoreEpsilon)))

theorem exists_brierScore_eq_ok_iff {distribution : ProbabilityVector F} {label : String} :
    (∃ score, brierScore distribution label = .ok score) ↔ label ∈ distribution.labels := by
  simp [brierScore]

omit [FloatMath F] in
theorem exists_probabilityOf_eq_ok {distribution : ProbabilityVector F} {label : String}
    (h : label ∈ distribution.labels) :
    ∃ probability, distribution.probabilityOf label = .ok probability := by
  have hkeys : (distribution.labels.zip distribution.probabilities).map Prod.fst =
      distribution.labels := List.map_fst_zip distribution.paired.ge
  rw [ProbabilityVector.probabilityOf]
  cases hlookup : (distribution.labels.zip distribution.probabilities).lookup label with
  | some probability => exact ⟨probability, rfl⟩
  | none =>
      rw [← hkeys, List.mem_map] at h
      obtain ⟨item, hitem, rfl⟩ := h
      rw [List.lookup_eq_none_iff] at hlookup
      exact absurd (hlookup item hitem) (by simp)

theorem exists_logScore_eq_ok {distribution : ProbabilityVector F} {label : String}
    (h : label ∈ distribution.labels) : ∃ score, logScore distribution label = .ok score := by
  obtain ⟨probability, hprobability⟩ := exists_probabilityOf_eq_ok h
  exact ⟨_, by rw [logScore, hprobability, ok_bind]⟩

end Scores

end Shadow
