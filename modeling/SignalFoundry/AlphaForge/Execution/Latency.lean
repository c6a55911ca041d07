import SignalFoundry.Library.Fallible
import SignalFoundry.Library.Json.Basic
import SignalFoundry.Library.OrderedDict
import SignalFoundry.Library.PyDate

/-!
# Logical latency

Delays counted in sessions of a frozen calendar. `LatencyModel.schedule` resolves
the stages of one origin, `run_backtest` resolves them again for every target that
it emits, and `LatencySchedule.from_config` checks a serialized schedule against
its calendar with index rules of its own.
-/

namespace SignalFoundry.Latency

open Fallible

structure FrictionContractError where
  message : String
  deriving DecidableEq, Repr

def maxMetadataText : ℕ := 512

def maxCalendarSessions : ℕ := 1000000

def maxStageDelaySessions : ℕ := 2520

def maxTotalDelaySessions : ℕ := 5040

/-! ## Values -/

/-- A value of a configuration; `other` is a value that is none of the types that
a schedule is made of, such as a float, a Boolean or a time. -/
inductive ConfigValue where
  | session (date : PyDate)
  | text (text : String)
  | integer (n : ℤ)
  | other
  deriving DecidableEq, Repr

/-- `_integer`. -/
def integer (name : String) (minimum maximum : ℕ) (n : ℤ) : Except FrictionContractError ℕ := do
  refuseIf (¬ ((minimum : ℤ) ≤ n ∧ n ≤ maximum)) ⟨name ++ " must be an integer in [" ++
    toString minimum ++ ", " ++ toString maximum ++ "]"⟩
  return n.toNat

def integerOf (name : String) (minimum maximum : ℕ) : ConfigValue → Except FrictionContractError ℕ
  | .integer n => integer name minimum maximum n
  | _ => .error ⟨name ++ " must be an integer in [" ++ toString minimum ++ ", " ++
      toString maximum ++ "]"⟩

/-- The regular expression `[0-9a-f]{64}\Z`. -/
def isSha256 (text : String) : Bool := PyText.isRun PyText.isHexDigit 64 text

/-- `_digest`. -/
def digestOf (name : String) : ConfigValue → Except FrictionContractError String
  | .text text => do
      refuseIf (¬ isSha256 text = true) ⟨name ++ " must be a lowercase SHA-256 digest"⟩
      return text
  | _ => .error ⟨name ++ " must be a lowercase SHA-256 digest"⟩

section Sessions

variable [PyRuntime]

/-- `_session`. -/
def sessionOf (name : String) : ConfigValue → Except FrictionContractError PyDate
  | .session date => .ok date
  | .text text =>
      match PyDate.fromIsoformat text with
      | none => .error ⟨name ++ " must be an ISO-8601 date"⟩
      | some parsed => do
          refuseIf (parsed.isoformat ≠ text) ⟨name ++ " must use canonical YYYY-MM-DD form"⟩
          return parsed
  | _ => .error ⟨name ++ " must be a date or canonical YYYY-MM-DD string"⟩

/-- `_text`. -/
def isText (value : String) : Bool :=
  value ≠ "" && PyText.isStripped value && value.toList.length ≤ maxMetadataText &&
    value.toList.all PyRuntime.isPrintable

end Sessions

/-- `_frozen_calendar`, of dates. -/
def frozenCalendar (calendar : List PyDate) : Except FrictionContractError (List PyDate) := do
  refuseIf (maxCalendarSessions < calendar.length) ⟨"calendar exceeds the " ++
    toString maxCalendarSessions ++ "-session resource ceiling"⟩
  refuseIf (calendar = []) ⟨"calendar must contain at least one session"⟩
  refuseIf ((calendar.zip calendar.tail).any (fun p => p.2 ≤ p.1) = true)
    ⟨"calendar sessions must be unique and strictly increasing"⟩
  return calendar

/-! ## Digests -/

/-- `_canonical_digest`. -/
def canonicalDigest [PyRuntime] (payload : Json Unit) (domain : String) : String :=
  PyText.hexText (PyRuntime.sha256 (PyText.encodeUtf8 domain ++ 0 ::
    PyText.encodeUtf8 payload.dumps))

theorem isSha256_canonicalDigest [PyRuntime] (payload : Json Unit) (domain : String) :
    isSha256 (canonicalDigest payload domain) = true := by
  have hrun := PyText.isRun_hexText (PyRuntime.sha256 (PyText.encodeUtf8 domain ++ 0 ::
    PyText.encodeUtf8 payload.dumps))
  rwa [PyRuntime.sha256_length] at hrun

/-! ## The model -/

/-- The stages after the origin, in their order. -/
@[ext] structure Stages (α : Type) where
  data : α
  feature : α
  signal : α
  submission : α
  fill : α
  deriving DecidableEq, Repr

namespace Stages

variable {α β : Type}

def toList (stages : Stages α) : List α :=
  [stages.data, stages.feature, stages.signal, stages.submission, stages.fill]

/-- Every stage by a partial function. -/
def traverse (f : α → Option β) (stages : Stages α) : Option (Stages β) := do
  return ⟨← f stages.data, ← f stages.feature, ← f stages.signal, ← f stages.submission,
    ← f stages.fill⟩

/-- A relation holds stage by stage. -/
structure Forall₂ (R : α → β → Prop) (a : Stages α) (b : Stages β) : Prop where
  data : R a.data b.data
  feature : R a.feature b.feature
  signal : R a.signal b.signal
  submission : R a.submission b.submission
  fill : R a.fill b.fill

theorem traverse_eq_some_iff {f : α → Option β} {a : Stages α} {b : Stages β} :
    a.traverse f = some b ↔ Forall₂ (fun x y => f x = some y) a b := by
  simp only [traverse, Option.bind_eq_bind, Option.bind_eq_some_iff, Option.pure_def,
    Option.some.injEq]
  constructor
  · rintro ⟨data, hdata, feature, hfeature, signal, hsignal, submission, hsubmission, fill, hfill,
      rfl⟩
    exact ⟨hdata, hfeature, hsignal, hsubmission, hfill⟩
  · rintro ⟨hdata, hfeature, hsignal, hsubmission, hfill⟩
    exact ⟨_, hdata, _, hfeature, _, hsignal, _, hsubmission, _, hfill, rfl⟩

end Stages

/-- `LatencyModel`. -/
structure LatencyModel [PyRuntime] where
  dataDelaySessions : ℕ
  featureDelaySessions : ℕ
  inferenceDelaySessions : ℕ
  submissionDelaySessions : ℕ
  fillDelaySessions : ℕ
  calibrationProvenance : String
  stages_le : dataDelaySessions ≤ maxStageDelaySessions ∧
    featureDelaySessions ≤ maxStageDelaySessions ∧
    inferenceDelaySessions ≤ maxStageDelaySessions ∧
    submissionDelaySessions ≤ maxStageDelaySessions ∧ fillDelaySessions ≤ maxStageDelaySessions
  total_lt : dataDelaySessions + featureDelaySessions + inferenceDelaySessions +
    submissionDelaySessions + fillDelaySessions < maxTotalDelaySessions
  provenance_valid : isText calibrationProvenance = true

/-- `LatencySchedule`. -/
structure LatencySchedule where
  originSession : PyDate
  stages : Stages PyDate
  executionLagSessions : ℕ
  modelDigest : String
  monotone : (originSession :: stages.toList).Pairwise (· ≤ ·)
  submission_lt_fill : stages.submission < stages.fill
  lag_mem : 1 ≤ executionLagSessions ∧ executionLagSessions ≤ maxStageDelaySessions
  digest_valid : isSha256 modelDigest = true

namespace LatencySchedule

/-- `stage_sessions`. -/
def stageSessions (s : LatencySchedule) : List PyDate := s.originSession :: s.stages.toList

/-- `__post_init__`. -/
def make (originSession : PyDate) (stages : Stages PyDate) (executionLagSessions : ℤ)
    (modelDigest : String) : Except FrictionContractError LatencySchedule := do
  let ⟨hmonotone⟩ ← require ((originSession :: stages.toList).Pairwise (· ≤ ·))
    ⟨"latency stages must be monotonic: origin <= data <= feature <= signal <= submission < fill"⟩
  let ⟨hfill⟩ ← require (stages.submission < stages.fill)
    ⟨"fill_session must be strictly after submission_session"⟩
  let ⟨hlag⟩ ← require (((1 : ℕ) : ℤ) ≤ executionLagSessions ∧
      executionLagSessions ≤ maxStageDelaySessions)
    ⟨"execution_lag_sessions must be an integer in [1, " ++ toString maxStageDelaySessions ++ "]"⟩
  let ⟨hdigest⟩ ← require (isSha256 modelDigest = true)
    ⟨"model_digest must be a lowercase SHA-256 digest"⟩
  return ⟨originSession, stages, executionLagSessions.toNat, modelDigest, hmonotone, hfill,
    by omega, hdigest⟩

def toDict (s : LatencySchedule) : List (String × ConfigValue) :=
  [("origin_session", .text s.originSession.isoformat),
    ("data_available_session", .text s.stages.data.isoformat),
    ("feature_available_session", .text s.stages.feature.isoformat),
    ("signal_available_session", .text s.stages.signal.isoformat),
    ("submission_session", .text s.stages.submission.isoformat),
    ("fill_session", .text s.stages.fill.isoformat),
    ("execution_lag_sessions", .integer s.executionLagSessions),
    ("model_digest", .text s.modelDigest)]

/-- `_CONFIG_KEYS`. -/
def configKeys : List String :=
  ["origin_session", "data_available_session", "feature_available_session",
    "signal_available_session", "submission_session", "fill_session", "execution_lag_sessions",
    "model_digest"]

variable [PyRuntime]

/-- `repr` of a list of texts. -/
def reprTexts (texts : List String) : String :=
  "[" ++ ", ".intercalate (texts.map PyRuntime.strRepr) ++ "]"

/-- `from_config`, of a mapping with text keys. -/
def fromConfig (config : List (String × ConfigValue)) (calendar : List PyDate) :
    Except FrictionContractError LatencySchedule := do
  let unknown := (config.map Prod.fst).filter (· ∉ configKeys)
  refuseIf (unknown ≠ []) ⟨"unknown latency schedule settings: " ++
    reprTexts (unknown.dedup.insertionSort (· ≤ ·))⟩
  let missing := configKeys.filter (· ∉ config.map Prod.fst)
  refuseIf (missing ≠ []) ⟨"latency schedule missing settings: " ++
    reprTexts (missing.insertionSort (· ≤ ·))⟩
  let item := fun key => (config.lookup key).getD .other
  let origin ← sessionOf "origin_session" (item "origin_session")
  let data ← sessionOf "data_available_session" (item "data_available_session")
  let feature ← sessionOf "feature_available_session" (item "feature_available_session")
  let signal ← sessionOf "signal_available_session" (item "signal_available_session")
  let submission ← sessionOf "submission_session" (item "submission_session")
  let fill ← sessionOf "fill_session" (item "fill_session")
  let lag ← integerOf "execution_lag_sessions" 1 maxStageDelaySessions
    (item "execution_lag_sessions")
  let digest ← digestOf "model_digest" (item "model_digest")
  let schedule ← make origin ⟨data, feature, signal, submission, fill⟩ lag digest
  let frozen ← frozenCalendar calendar
  let outside := schedule.stageSessions.filter (· ∉ frozen)
  refuseIf (outside ≠ []) ⟨"latency schedule contains sessions outside the frozen calendar: " ++
    reprTexts (outside.map PyDate.isoformat)⟩
  let indices := schedule.stageSessions.map frozen.idxOf
  refuseIf ((indices.zip indices.tail).any (fun p => p.2 < p.1) = true)
    ⟨"latency schedule is not monotonic on the frozen calendar"⟩
  refuseIf ((frozen.idxOf schedule.stages.fill : ℤ) - frozen.idxOf schedule.stages.submission <
      schedule.executionLagSessions)
    ⟨"fill stage must preserve the declared execution lag on the frozen calendar"⟩
  return schedule

end LatencySchedule

namespace LatencyModel

variable [PyRuntime] (model : LatencyModel)

/-- The stage offsets with a lag. -/
def offsets (lag : ℕ) : Stages ℕ where
  data := model.dataDelaySessions
  feature := model.dataDelaySessions + model.featureDelaySessions
  signal := model.dataDelaySessions + model.featureDelaySessions + model.inferenceDelaySessions
  submission := model.dataDelaySessions + model.featureDelaySessions +
    model.inferenceDelaySessions + model.submissionDelaySessions
  fill := model.dataDelaySessions + model.featureDelaySessions + model.inferenceDelaySessions +
    model.submissionDelaySessions + lag + model.fillDelaySessions

/-- `cumulative_offsets`. -/
def cumulativeOffsets (executionLag : ℤ) : Except FrictionContractError (Stages ℕ) := do
  let lag ← integer "execution_lag" 1 maxStageDelaySessions executionLag
  refuseIf (maxTotalDelaySessions < (model.offsets lag).fill) ⟨"resolved logical latency exceeds " ++
    toString maxTotalDelaySessions ++ " sessions"⟩
  return model.offsets lag

/-- `declaration.to_dict()`; the constants pass the checks of `ModelDeclaration`. -/
def declarationDict : Json Unit :=
  let upTo := fun (low high : ℕ) => "integer in [" ++ toString low ++ ", " ++ toString high ++ "]"
  let sessions : Json Unit := .str "logical trading sessions"
  .obj [("model_id", .str "logical-session-latency"), ("version", .str "1.0.0"),
    ("units", .obj [("data_delay_sessions", sessions), ("feature_delay_sessions", sessions),
      ("fill_delay_sessions", sessions), ("inference_delay_sessions", sessions),
      ("submission_delay_sessions", sessions)]),
    ("calibration_provenance", .str model.calibrationProvenance),
    ("domain", .str "daily-bar simulation over a caller-supplied frozen trading calendar"),
    ("parameter_bounds", .obj [
      ("execution_lag", .str ("caller-supplied " ++ upTo 1 maxStageDelaySessions)),
      ("fill_delay_sessions", .str (upTo 0 maxStageDelaySessions)),
      ("non_fill_stage_delays", .str (upTo 0 maxStageDelaySessions ++ " per stage")),
      ("resolved_delay_sessions", .str (upTo 1 maxTotalDelaySessions))]),
    ("execution_timestamp",
      .str "fill_session on the frozen logical calendar; no wall-clock timestamp is inferred"),
    ("failure_behavior", .str ("reject malformed stages, invalid calendars, missing origins, " ++
      "and schedules beyond the frozen calendar; never clamp or move a stage earlier")),
    ("limitations", .arr [
      .str ("Does not model exchange, network, broker, auction, queue, or wall-clock " ++
        "latency."),
      .str "A daily bar cannot establish an intraday fill timestamp."])]

/-- `configuration_digest`. -/
def configurationDigest : String :=
  canonicalDigest (.obj [
    ("declaration_digest",
      .str (canonicalDigest model.declarationDict "alphaforge.model-declaration.v1")),
    ("data_delay_sessions", .int model.dataDelaySessions),
    ("feature_delay_sessions", .int model.featureDelaySessions),
    ("inference_delay_sessions", .int model.inferenceDelaySessions),
    ("submission_delay_sessions", .int model.submissionDelaySessions),
    ("fill_delay_sessions", .int model.fillDelaySessions)]) "alphaforge.latency-model.v1"

/-- The sessions at some offsets from a position. -/
def sessionsAt (frozen : List PyDate) (index : ℕ) (offsets : Stages ℕ) : Option (Stages PyDate) :=
  offsets.traverse fun offset => frozen[index + offset]?

/-- `schedule`. -/
def schedule (originSession : PyDate) (calendar : List PyDate) (executionLag : ℤ) :
    Except FrictionContractError LatencySchedule := do
  let frozen ← frozenCalendar calendar
  match frozen.idxOf? originSession with
  | none => .error ⟨"origin_session is outside the frozen calendar"⟩
  | some originIndex => do
      let lag ← integer "execution_lag" 1 maxStageDelaySessions executionLag
      let offsets ← model.cumulativeOffsets lag
      refuseIf (frozen.length ≤ originIndex + offsets.fill)
        ⟨"latency schedule exceeds the frozen calendar"⟩
      match sessionsAt frozen originIndex offsets with
      | none => .error ⟨"tuple index out of range"⟩
      | some stages => LatencySchedule.make originSession stages lag model.configurationDigest

end LatencyModel

/-! ## The backtest -/

/-- What `run_backtest` raises while it resolves its targets. -/
inductive BacktestError where
  | value (message : String)
  | runtime (message : String)
  | key
  | index
  | friction (error : FrictionContractError)

section Backtest

variable [PyRuntime]

/-- The schedule that `run_backtest` builds for one target. -/
def inlineSchedule (model : LatencyModel) (calendar : List PyDate) (executionLag : ℕ)
    (offsets : Stages ℕ) (origin : PyDate) (originIndex : ℕ) :
    Except BacktestError LatencySchedule := do
  refuseIf (calendar.length ≤ originIndex + offsets.fill)
    (.value "latency schedule exceeds the frozen calendar")
  match LatencyModel.sessionsAt calendar originIndex offsets with
  | none => .error .index
  | some stages =>
      (LatencySchedule.make origin stages executionLag model.configurationDigest).mapError .friction

/-- The loop of `run_backtest` over the dates of its targets: the schedules that it builds,
and how it ends. `taken` are the signal sessions that are pending. -/
def resolveTargets (model : LatencyModel) (calendar : List PyDate) (executionLag : ℕ)
    (offsets : Stages ℕ) (liquidation : Option PyDate) :
    List PyDate → List PyDate → List LatencySchedule × Except BacktestError Unit
  | _, [] => ([], .ok ())
  | taken, origin :: rest =>
      match calendar.idxOf? origin with
      | none => ([], .error .key)
      | some originIndex =>
          if calendar.length ≤ originIndex + executionLag then
            if liquidation = some origin then
              ([], .error (.value ("panel needs enough sessions after the final target to " ++
                "execute terminal liquidation")))
            else resolveTargets model calendar executionLag offsets liquidation taken rest
          else
            match inlineSchedule model calendar executionLag offsets origin originIndex with
            | .error error => ([], .error error)
            | .ok schedule =>
                if schedule.stages.signal ∈ taken then
                  ([schedule],
                    .error (.runtime "two target origins resolved to the same signal session"))
                else
                  let later := resolveTargets model calendar executionLag offsets liquidation
                    (schedule.stages.signal :: taken) rest
                  (schedule :: later.1, later.2)

/-- The schedules of a backtest, for the dates of its targets. -/
def backtestSchedules (model : LatencyModel) (calendar : List PyDate) (executionLag : ℤ)
    (liquidation : Option PyDate) (origins : List PyDate) :
    List LatencySchedule × Except BacktestError Unit :=
  match model.cumulativeOffsets executionLag with
  | .error error => ([], .error (.friction error))
  | .ok offsets => resolveTargets model calendar executionLag.toNat offsets liquidation []
      (origins.insertionSort (· ≤ ·))

end Backtest

end SignalFoundry.Latency
