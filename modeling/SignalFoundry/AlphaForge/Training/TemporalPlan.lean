import SignalFoundry.AlphaForge.Training.PurgedCv
import SignalFoundry.Library.StableSort

/-!
# Temporal validation plans

Rolling or expanding folds of market sessions: a training block, a purge gap, a
validation block, an embargo gap and a test block, with a final holdout that no fold
uses. Dates whose label interval reaches the next protected boundary are moved to an
overlap role.
-/

namespace TemporalPlan

open Fallible PurgedCv

inductive TemporalScheme where
  | expanding
  | rolling
  deriving DecidableEq, Repr

/-- `TemporalValidationConfig`. -/
structure TemporalValidationConfig where
  scheme : TemporalScheme := .expanding
  minTrainSessions : ℕ := 756
  validationSessions : ℕ := 126
  testSessions : ℕ := 126
  stepSessions : ℕ := 126
  purgeSessions : ℕ := 20
  embargoSessions : ℕ := 5
  finalHoldoutSessions : ℕ := 252
  maxFolds : Option ℕ := none
  train_pos : 0 < minTrainSessions := by decide
  validation_pos : 0 < validationSessions := by decide
  test_pos : 0 < testSessions := by decide
  step_pos : 0 < stepSessions := by decide
  holdout_pos : 0 < finalHoldoutSessions := by decide
  folds_mem : ∀ limit ∈ maxFolds, 0 < limit ∧ limit ≤ maxTemporalFolds := by decide

/-- `TemporalFold`. -/
structure TemporalFold where
  foldId : ℕ
  scheme : TemporalScheme
  trainDates : List Timestamp
  purgeDates : List Timestamp
  validationDates : List Timestamp
  embargoDates : List Timestamp
  testDates : List Timestamp
  overlapDates : List Timestamp
  finalHoldoutDates : List Timestamp
  deriving DecidableEq

/-- `TemporalValidationError`. -/
inductive TemporalError where
  | message (text : String)
  | insufficient (minimum received : ℕ)
  | notOrdered (role : String)
  | overlap (date : Timestamp)
  | emptyFold (foldId : ℕ)
  | crosses (role : String)
  deriving DecidableEq, Repr

def maxTemporalSessions : ℕ := 5000000

/-- The equality by which a missing timestamp is looked for. -/
local instance lawfulBEq_timestamps : LawfulBEq (Option Timestamp) := inferInstance

/-- `_normalize_dates`. -/
def normalizeDates (dates : List (Option Timestamp)) : Except TemporalError (List Timestamp) := do
  refuseIf (dates = []) (TemporalError.message "dates must contain at least one session")
  refuseIf (none ∈ dates) (TemporalError.message "dates must not contain missing timestamps")
  let unique := sortedBy id ((dates.filterMap id).map PurgedCv.normalize).dedup
  refuseIf (maxTemporalSessions < unique.length)
    (TemporalError.message "temporal plan exceeds the 5,000,000-session limit")
  return unique

/-! ## Interval purging -/

/-- Whether the label interval of a date reaches a boundary. -/
def crosses (eventEnds : EventEnds) (boundary date : Timestamp) : Bool :=
  (eventEnds.lookup date).any (boundary ≤ ·)

/-- `_contained_dates`. -/
def containedDates (candidates : List Timestamp) (boundary : Timestamp) (eventEnds : EventEnds) :
    List Timestamp × List Timestamp :=
  if candidates = [] ∨ eventEnds = [] then (candidates, [])
  else (candidates.filter fun date => !crosses eventEnds boundary date,
    candidates.filter (crosses eventEnds boundary))

/-! ## Integrity -/

namespace TemporalFold

/-- `role_dates`. -/
def roleDates (fold : TemporalFold) : List (String × List Timestamp) :=
  [("train", fold.trainDates), ("purge", fold.purgeDates), ("validation", fold.validationDates),
    ("embargo", fold.embargoDates), ("test", fold.testDates), ("overlap", fold.overlapDates),
    ("final_holdout", fold.finalHoldoutDates)]

end TemporalFold

/-- The loop of `assert_temporal_integrity` over the roles. -/
def checkRoles (seen : List Timestamp) :
    List (String × List Timestamp) → Except TemporalError Unit
  | [] => .ok ()
  | (role, values) :: roles => do
      refuseIf (sortedBy id values.dedup ≠ values) (TemporalError.notOrdered role)
      match (seen.filter (· ∈ values)).min? with
      | some date => .error (.overlap date)
      | none => checkRoles (seen ++ values) roles

def first (dates : List Timestamp) : Timestamp := dates.min?.getD 0

def last (dates : List Timestamp) : Timestamp := dates.max?.getD 0

/-- `assert_temporal_integrity`. -/
def assertTemporalIntegrity (fold : TemporalFold) (eventEnds : Option EventEnds) :
    Except TemporalError Unit := do
  checkRoles [] fold.roleDates
  refuseIf (fold.trainDates = [] ∨ fold.validationDates = [] ∨ fold.testDates = [])
    (TemporalError.message "train, validation, and test roles must be non-empty")
  refuseIf (¬ (last fold.trainDates < first fold.validationDates ∧
      first fold.validationDates ≤ last fold.validationDates ∧
      last fold.validationDates < first fold.testDates ∧
      first fold.testDates ≤ last fold.testDates ∧
      last fold.testDates < first fold.finalHoldoutDates))
    (TemporalError.message "temporal roles are not strictly ordered")
  match eventEnds with
  | none | some [] => return
  | some ends =>
      [(fold.trainDates, first fold.validationDates, "train"),
        (fold.validationDates, first fold.testDates, "validation"),
        (fold.testDates, first fold.finalHoldoutDates, "test")].forM
        fun (dates, boundary, role) => refuseIf (dates.any (crosses ends boundary) = true)
          (TemporalError.crosses role)

/-! ## Plans -/

/-- `dates[start:stop]`. -/
def slice (dates : List Timestamp) (start stop : ℕ) : List Timestamp :=
  (dates.take stop).drop start

namespace TemporalValidationConfig

variable (cfg : TemporalValidationConfig)

def minimum : ℕ :=
  cfg.minTrainSessions + cfg.purgeSessions + cfg.validationSessions + cfg.embargoSessions +
    cfg.testSessions + cfg.finalHoldoutSessions

def validationStart (cursor : ℕ) : ℕ := cursor + cfg.purgeSessions

def validationEnd (cursor : ℕ) : ℕ := cfg.validationStart cursor + cfg.validationSessions

def testStart (cursor : ℕ) : ℕ := cfg.validationEnd cursor + cfg.embargoSessions

def testEnd (cursor : ℕ) : ℕ := cfg.testStart cursor + cfg.testSessions

/-- `sessions[:-final_holdout_sessions]`. -/
def development (sessions : List Timestamp) : List Timestamp :=
  sessions.take (sessions.length - cfg.finalHoldoutSessions)

/-- `sessions[-final_holdout_sessions:]`. -/
def holdout (sessions : List Timestamp) : List Timestamp :=
  sessions.drop (sessions.length - cfg.finalHoldoutSessions)

/-- The training block before a cursor. -/
def rawTrain (sessions : List Timestamp) (cursor : ℕ) : List Timestamp :=
  match cfg.scheme with
  | .expanding => (cfg.development sessions).take cursor
  | .rolling => ((cfg.development sessions).take cursor).drop
      (((cfg.development sessions).take cursor).length - cfg.minTrainSessions)

def testBoundary (sessions : List Timestamp) (cursor : ℕ) : Timestamp :=
  if cfg.testEnd cursor = (cfg.development sessions).length then (cfg.holdout sessions).headD 0
  else (cfg.development sessions).getD (cfg.testEnd cursor) 0

def rawValidation (sessions : List Timestamp) (cursor : ℕ) : List Timestamp :=
  slice (cfg.development sessions) (cfg.validationStart cursor) (cfg.validationEnd cursor)

def rawTest (sessions : List Timestamp) (cursor : ℕ) : List Timestamp :=
  slice (cfg.development sessions) (cfg.testStart cursor) (cfg.testEnd cursor)

/-- The roles of the fold at a cursor. -/
def allocate (sessions : List Timestamp) (eventEnds : EventEnds) (foldId cursor : ℕ) :
    TemporalFold :=
  let train := containedDates (cfg.rawTrain sessions cursor)
    ((cfg.rawValidation sessions cursor).headD 0) eventEnds
  let validation := containedDates (cfg.rawValidation sessions cursor)
    ((cfg.rawTest sessions cursor).headD 0) eventEnds
  let test := containedDates (cfg.rawTest sessions cursor) (cfg.testBoundary sessions cursor)
    eventEnds
  { foldId
    scheme := cfg.scheme
    trainDates := train.1
    purgeDates := slice (cfg.development sessions) cursor (cfg.validationStart cursor)
    validationDates := validation.1
    embargoDates := slice (cfg.development sessions) (cfg.validationEnd cursor)
      (cfg.testStart cursor)
    testDates := test.1
    overlapDates := sortedBy id (train.2 ++ validation.2 ++ test.2).dedup
    finalHoldoutDates := cfg.holdout sessions }

/-- The body of the loop of `make_temporal_validation_plan`. -/
def makeFold (sessions : List Timestamp) (eventEnds : EventEnds) (foldId cursor : ℕ) :
    Except TemporalError TemporalFold := do
  let fold := cfg.allocate sessions eventEnds foldId cursor
  refuseIf (fold.trainDates = [] ∨ fold.validationDates = [] ∨ fold.testDates = [])
    (TemporalError.emptyFold foldId)
  assertTemporalIntegrity fold (some eventEnds)
  return fold

/-- Whether `max_folds` ends the loop after a number of folds. -/
def full (count : ℕ) : Bool := cfg.maxFolds.any (· ≤ count)

/-- The loop of `make_temporal_validation_plan`. The cursor advances by at least one, so
that as many rounds as there are development sessions are enough. -/
def planLoop (sessions : List Timestamp) (eventEnds : EventEnds) :
    ℕ → ℕ → List TemporalFold → Except TemporalError (List TemporalFold)
  | 0, _, folds => .ok folds
  | fuel + 1, cursor, folds =>
      if (cfg.development sessions).length ≤ cursor then .ok folds
      else if (cfg.development sessions).length < cfg.testEnd cursor then .ok folds
      else do
        let fold ← cfg.makeFold sessions eventEnds folds.length cursor
        if cfg.full (folds.length + 1) then return folds ++ [fold]
        else planLoop sessions eventEnds fuel (cursor + cfg.stepSessions) (folds ++ [fold])

end TemporalValidationConfig

/-- `make_temporal_validation_plan`. -/
def makeTemporalValidationPlan (dates : List (Option Timestamp)) (cfg : TemporalValidationConfig)
    (labelEvents : Option (List LabelEvent)) : Except TemporalError (List TemporalFold) := do
  let sessions ← normalizeDates dates
  refuseIf (sessions.length < cfg.minimum)
    (TemporalError.insufficient cfg.minimum sessions.length)
  let eventEnds ← (eventEndByDate labelEvents).mapError .message
  refuseIf (∃ event ∈ eventEnds, event.1 ∉ sessions)
    (TemporalError.message "label events contain dates outside the supplied calendar")
  let folds ← cfg.planLoop sessions eventEnds (cfg.development sessions).length
    cfg.minTrainSessions []
  refuseIf (folds = [])
    (TemporalError.message "configuration produced no complete temporal folds")
  return folds

end TemporalPlan
