import SignalFoundry.Lattice.Shadow.Contracts
import SignalFoundry.Lattice.Shadow.Store
import SignalFoundry.Library.OrderedDict
import SignalFoundry.Library.PyDate
import SignalFoundry.Library.StableSort

/-!
# Outcome revisions and reports

The table of outcomes, to which revisions are appended, and the report of a
campaign on one of the two bases. A report is the list of its scores; the means,
the interval and the baseline that are computed from the scores are left out.
-/

namespace Shadow

open Fallible

structure OutcomeRow where
  forecastId : String
  revision : ℕ
  realizedLabel : String
  status : OutcomeStatus
  observedAt : String
  recordedAt : String
  deriving DecidableEq

/-- The unique key of an outcome. -/
def OutcomeRow.key (row : OutcomeRow) : String × ℕ := (row.forecastId, row.revision)

/-- The tables of the store with `sl_shadow_outcomes`. -/
structure OutcomeStore (F : Type) [PyFloat F] extends Store F where
  outcomes : List OutcomeRow := []

inductive OutcomeError where
  | shadow (error : ShadowError)
  /-- `OverflowError`: an integer beyond the columns of the database. -/
  | overflow
  deriving DecidableEq, Repr

/-- `length(text)`, which stops at a NUL character. -/
def sqlLength (text : String) : ℕ := (text.toList.takeWhile (· ≠ '\x00')).length

/-- `MAX_QUERY_ROWS`. -/
def maxQueryRows : ℕ := 100000

/-- Texts of instants that are not in the canonical form: what `strptime` reads, or
the message of its `ValueError`. -/
class InstantForms where
  read : String → Except String Instant

/-- A text of the form `YYYY-MM-DDTHH:MM:SS.ffffffZ`. -/
def ofCanonical? (text : String) : Option Instant :=
  match text.toList with
  | y₁ :: y₂ :: y₃ :: y₄ :: '-' :: m₁ :: m₂ :: '-' :: d₁ :: d₂ :: 'T' :: rest => do
      let date ← PyDate.ofDigits? [y₁, y₂, y₃, y₄] [m₁, m₂] [d₁, d₂]
      let (hour, minute, second) ← PyDatetime.clock? (rest.take 8)
      let fraction := rest.drop 8
      let microsecond ← PyDatetime.fraction? (fraction.take 7)
      if fraction.drop 7 = ['Z'] then
        let instant ← PyDatetime.ofFields date hour minute second microsecond
        some ⟨instant.date, instant.hour, instant.minute, instant.second, instant.microsecond⟩
      else none
  | _ => none

section Reports

variable {F : Type} [PyFloat F]

namespace OutcomeStore

/-- The store before any outcome. -/
def opened (s : Store F) : OutcomeStore F := { s with outcomes := [] }

/-- `INSERT INTO sl_shadow_outcomes`. -/
def insertOutcome (s : OutcomeStore F) (row : OutcomeRow) :
    Except OutcomeError (OutcomeStore F) := do
  refuseIf (row.forecastId ∉ s.forecasts.map ForecastRow.forecastId) (.shadow .database)
  refuseIf (row.key ∈ s.outcomes.map OutcomeRow.key) (OutcomeError.shadow .database)
  refuseIf (¬ (1 ≤ sqlLength row.realizedLabel ∧ sqlLength row.realizedLabel ≤ 64))
    (OutcomeError.shadow .database)
  refuseIf (isInstantText row.observedAt = false ∨ isInstantText row.recordedAt = false)
    (OutcomeError.shadow .database)
  refuseIf (row.recordedAt < row.observedAt) (OutcomeError.shadow .database)
  .ok { s with outcomes := s.outcomes ++ [row] }

/-- The campaign a stored outcome belongs to, by the forecast it joins. -/
def campaignOf (s : OutcomeStore F) (row : OutcomeRow) : Option String :=
  (Table.find ForecastRow.forecastId row.forecastId s.forecasts).map ForecastRow.campaign

end OutcomeStore

/-- The row of an outcome. -/
def outcomeRow (outcome : ShadowOutcome) : OutcomeRow where
  forecastId := outcome.forecastId
  revision := outcome.revision
  realizedLabel := outcome.realizedLabel
  status := outcome.status
  observedAt := outcome.observedAt.encoded
  recordedAt := outcome.recordedAt.encoded

def digestPrefix (text : String) : String := String.ofList (text.toList.take 12)

/-- `append_outcome`. -/
def OutcomeStore.appendOutcome (s : OutcomeStore F) (outcome : ShadowOutcome) :
    Except OutcomeError (OutcomeStore F) := do
  refuseIf (outcome.forecastId ∉ s.forecasts.map ForecastRow.forecastId)
    (OutcomeError.shadow (.notFound ("forecast " ++ digestPrefix outcome.forecastId ++
      " is unknown; an outcome cannot precede the forecast it scores")))
  refuseIf (2 ^ 63 ≤ outcome.revision) OutcomeError.overflow
  match Table.find OutcomeRow.key (outcome.forecastId, outcome.revision) s.outcomes with
  | some existing =>
      refuseIf (¬ (existing.realizedLabel = outcome.realizedLabel ∧
          existing.status = outcome.status ∧
          existing.observedAt = outcome.observedAt.encoded))
        (.shadow (.conflict ("revision " ++ toString outcome.revision ++ " already exists for " ++
          digestPrefix outcome.forecastId ++ " with different content; a correction " ++
          "appends a new revision rather than replacing one")))
      .ok s
  | none => s.insertOutcome (outcomeRow outcome)

/-- A sequence of calls that are all accepted. -/
def OutcomeStore.appendAll (s : OutcomeStore F) (outcomes : List ShadowOutcome) :
    Except OutcomeError (OutcomeStore F) :=
  outcomes.foldlM OutcomeStore.appendOutcome s

/-! ## Reading -/

variable [PyRuntime] [InstantForms]

/-- `_decode_instant`. -/
def decodeInstant (text : String) : Except ShadowError Instant :=
  match ofCanonical? text with
  | some instant => .ok instant
  | none => (InstantForms.read text).mapError fun error =>
      .validation ("stored timestamp " ++ PyRuntime.strRepr text ++ " is not canonical: " ++ error)

/-- `validate_campaign_name`. -/
def validateCampaignName (name : String) : Except ShadowError (PLift (isCampaignName name = true)) :=
  require (isCampaignName name = true) (ShadowError.validation ("campaign name " ++
    PyRuntime.strRepr name ++ " is malformed; expected lowercase alphanumeric with _ or -, " ++
      "at most 64 characters"))

omit [PyRuntime] [InstantForms] in
def digestError (fieldName value : String) : ShadowError :=
  .validation (fieldName ++ if value.toList.length ≠ 64 then " must be a full SHA-256 digest"
    else " must be lowercase hexadecimal")

/-- A forecast made of a stored row. -/
def decodeForecast (row : ForecastRow F) : Except ShadowError (ShadowForecast F) := do
  let asOf ← decodeInstant row.asOf
  let targetInstant ← decodeInstant row.targetInstant
  let ⟨campaign_name⟩ ← validateCampaignName row.campaign
  let ⟨symbol_name⟩ ← require (isSymbol row.symbol = true) (ShadowError.validation ("symbol " ++
    PyRuntime.strRepr row.symbol ++ " is malformed; expected uppercase alphanumeric with . or -, " ++
      "at most 24 characters"))
  let ⟨chronology⟩ ← require (asOf.before targetInstant = true) (ShadowError.validation (
    "target_instant " ++ targetInstant.isoformat ++ " does not follow as_of " ++ asOf.isoformat ++
      "; a forecast whose target is not strictly later is a retrospective statement, " ++
        "not a prediction"))
  let ⟨horizon⟩ ← require (1 ≤ row.horizonDays ∧ row.horizonDays ≤ 365)
    (ShadowError.validation "horizon_days must lie in [1, 365]")
  let ⟨features⟩ ← require (isDigest row.featurePrefixDigest = true)
    (digestError "feature_prefix_digest" row.featurePrefixDigest)
  let ⟨model⟩ ← require (isDigest row.modelIdentity = true)
    (digestError "model_identity" row.modelIdentity)
  .ok {
    campaign := row.campaign
    symbol := row.symbol
    asOf := asOf
    targetInstant := targetInstant
    horizonDays := row.horizonDays
    distribution := row.distribution
    featurePrefixDigest := row.featurePrefixDigest
    modelIdentity := row.modelIdentity
    campaign_name := campaign_name
    symbol_name := symbol_name
    chronology := chronology
    horizon := horizon
    digests := ⟨features, model⟩ }

/-- An outcome made of a stored row. -/
def decodeOutcome (row : OutcomeRow) : Except ShadowError ShadowOutcome := do
  let observedAt ← decodeInstant row.observedAt
  let recordedAt ← decodeInstant row.recordedAt
  let ⟨identity⟩ ← require (row.forecastId.toList.length = 64)
    (ShadowError.validation "forecast_id must be a full SHA-256 digest")
  let ⟨named⟩ ← require (PyText.isBlank row.realizedLabel = false)
    (ShadowError.validation "realized_label must be a non-empty string")
  let ⟨chronology⟩ ← require (recordedAt.before observedAt = false) (ShadowError.validation (
    "recorded_at " ++ recordedAt.isoformat ++ " precedes observed_at " ++ observedAt.isoformat ++
      "; a clock reversal makes the publication lag meaningless"))
  .ok ⟨row.forecastId, row.realizedLabel, observedAt, recordedAt, row.revision, row.status,
    identity, named, chronology⟩

namespace OutcomeStore

/-- `load_forecasts`. -/
def loadForecasts (s : OutcomeStore F) (campaign : String) :
    Except ShadowError (List (ShadowForecast F)) := do
  let _ ← validateCampaignName campaign
  let rows := sortedBy (fun row : ForecastRow F => toLex (row.asOf, row.symbol))
    (s.forecasts.filter fun row => row.campaign = campaign)
  (rows.take maxQueryRows).mapM decodeForecast

omit [PyRuntime] [InstantForms] in
/-- The rows `load_outcomes` selects. -/
def selected (s : OutcomeStore F) (campaign : String) : List OutcomeRow :=
  (sortedBy (fun row : OutcomeRow => toLex row.key)
    (s.outcomes.filter fun row => s.campaignOf row = some campaign)).take maxQueryRows

/-- `load_outcomes`. -/
def loadOutcomes (s : OutcomeStore F) (campaign : String) :
    Except ShadowError (OrderedDict String (List ShadowOutcome)) := do
  let _ ← validateCampaignName campaign
  (s.selected campaign).foldlM
    (fun grouped row => do
      let outcome ← decodeOutcome row
      .ok (grouped.set row.forecastId (grouped.getD row.forecastId [] ++ [outcome])))
    OrderedDict.empty

end OutcomeStore

/-! ## Reports -/

inductive ReportBasis where
  | firstEligible
  | latestKnown
  deriving DecidableEq, Repr

inductive ReportVerdict where
  | reported
  | insufficientEvidence
  deriving DecidableEq, Repr

/-- `MIN_SCORED_FORECASTS`. -/
def minScoredForecasts : ℕ := 30

structure ScoredForecast (F : Type) where
  forecastId : String
  symbol : String
  asOfDate : PyDate
  revision : ℕ
  brier : F
  logLoss : F

/-- `_select_revision`. -/
def selectRevision (outcomes : List ShadowOutcome) (basis : ReportBasis) : Option ShadowOutcome :=
  let ordered := sortedBy ShadowOutcome.revision
    (outcomes.filter fun item => item.status = .observed)
  match basis with
  | .firstEligible => ordered.head?
  | .latestKnown => ordered.getLast?

/-- The state of the loop over the forecasts. -/
structure Scoring (F : Type) where
  scored : List (ScoredForecast F) := []
  realised : OrderedDict String String := OrderedDict.empty
  pending : ℕ := 0
  missing : ℕ := 0
  revisions : ℕ := 0

/-- The report of a campaign, by its scores. -/
structure CampaignReport (F : Type) extends Scoring F where
  campaign : String
  basis : ReportBasis
  verdict : ReportVerdict
  forecastCount : ℕ
  distinctDays : ℕ

variable [FloatText F] [FloatMath F]

/-- The body of the loop. -/
def scoreForecast (outcomes : OrderedDict String (List ShadowOutcome)) (basis : ReportBasis)
    (state : Scoring F) (item : String × ShadowForecast F) : Except ShadowError (Scoring F) :=
  let history := outcomes.getD item.1 []
  let state := { state with revisions := state.revisions + history.length }
  match selectRevision history basis with
  | none =>
      if history.any fun outcome => outcome.status = .pending then
        .ok { state with pending := state.pending + 1 }
      else .ok { state with missing := state.missing + 1 }
  | some chosen => do
      item.2.assertPrecedes chosen.observedAt
      let brier ← brierScore item.2.distribution chosen.realizedLabel
      let logLoss ← logScore item.2.distribution chosen.realizedLabel
      .ok { state with
        realised := state.realised.set item.1 chosen.realizedLabel
        scored := state.scored ++ [{
          forecastId := item.1
          symbol := item.2.symbol
          asOfDate := item.2.asOf.date
          revision := chosen.revision
          brier := brier
          logLoss := logLoss }] }

/-- The forecasts of a campaign by their identities. -/
def knownForecasts (forecasts : List (ShadowForecast F)) : OrderedDict String (ShadowForecast F) :=
  forecasts.foldl (fun known item => known.set item.forecastId item) OrderedDict.empty

/-- `build_report`. -/
def buildReport (campaign : String) (forecasts : List (ShadowForecast F))
    (outcomes : OrderedDict String (List ShadowOutcome)) (basis : ReportBasis) :
    Except ShadowError (CampaignReport F) := do
  let known := knownForecasts forecasts
  let unknown := (outcomes.keys.filter (· ∉ known.keys)).insertionSort (· ≤ ·)
  refuseIf (unknown ≠ []) (.validation (toString unknown.length ++
    " outcome(s) reference forecasts absent from this campaign, e.g. " ++ listText (unknown.take 3)))
  let state ← known.items.foldlM (scoreForecast outcomes basis) {}
  .ok { state with
    campaign := campaign
    basis := basis
    verdict :=
      if state.scored.length < minScoredForecasts then .insufficientEvidence else .reported
    forecastCount := known.size
    distinctDays := (state.scored.map ScoredForecast.asOfDate).dedup.length }

/-- The report of a stored campaign. -/
def OutcomeStore.report (s : OutcomeStore F) (campaign : String) (basis : ReportBasis) :
    Except ShadowError (CampaignReport F) := do
  let forecasts ← s.loadForecasts campaign
  let outcomes ← s.loadOutcomes campaign
  buildReport campaign forecasts outcomes basis

end Reports

end Shadow
