import SignalFoundry.Lattice.Governance.Comparison
import SignalFoundry.Library.Holm

/-!
# Tests and their correction

The two tests of a cohort and the correction of a family of them. The bootstrap
replicates are drawn by a numerical library; the verdict and the `p`-value are
read off them.
-/

namespace Governance

open Fallible

inductive DecisionError where
  /-- `GovernanceError` of the gates. -/
  | governance (message : String)
  /-- `InferenceError`. -/
  | inference (message : String)
  deriving DecidableEq

inductive TestVerdict where
  | favoursChallenger
  | favoursChampion
  | inconclusive
  | underpowered
  deriving DecidableEq, Repr

def TestVerdict.value : TestVerdict → String
  | favoursChallenger => "favours_challenger"
  | favoursChampion => "favours_champion"
  | inconclusive => "inconclusive"
  | underpowered => "underpowered"

/-- `MIN_BLOCKS`. -/
def minBlocks : ℕ := 10

/-- `MIN_EFFECTIVE_OBSERVATIONS`. -/
def minEffectiveObservations : ℕ := 50

/-- `BOOTSTRAP_REPLICATES`. -/
def bootstrapReplicates : ℕ := 10000

/-- The numerical library: the replicate means of the date blocks, and their
statistics. -/
class Bootstrap (F : Type) where
  replicates : List (PyDate × List F) → ℤ → ℕ → List F
  mean : List F → F
  percentile : List F → F → F
  length_replicates : ∀ blocks seed horizonDays,
    (replicates blocks seed horizonDays).length = bootstrapReplicates

structure Margin (F : Type) [PyFloat F] where
  metric : String
  value : F
  named : PyText.isBlank metric = false
  positive : PyFloat.isFinite value = true ∧ PyFloat.le value PyFloat.zero = false

structure TestResult (F : Type) where
  name : String
  metric : String
  verdict : TestVerdict
  pointEstimate : Option F
  interval : Option (Option F × Option F)
  pValue : Option F
  blocks : ℕ
  observations : ℕ
  margin : Option F

section Tests

variable {F : Type} [PyFloat F]

/-- `_blocks_from`. -/
def blocksFrom (cohort : PairedCohort F) : OrderedDict PyDate (List F) :=
  cohort.pairs.foldl
    (fun grouped item =>
      grouped.set item.asOfDate (grouped.getD item.asOfDate [] ++ [item.brierDifference]))
    OrderedDict.empty

/-- `_cohort_horizon`. -/
def cohortHorizon (cohort : PairedCohort F) : Except DecisionError ℕ :=
  match (cohort.pairs.map fun item => item.key.horizonDays).dedup with
  | [horizonDays] => .ok horizonDays
  | horizons => .error (.inference ("cohort mixes forecast horizons [" ++
      String.intercalate ", " ((horizons.insertionSort (· ≤ ·)).map toString) ++
        "]; the block length is derived from the horizon and cannot describe several at once"))

/-- The checks both tests start with. -/
def checkTest (cohort : PairedCohort F) (alpha : F) : Except DecisionError Unit := do
  refuseIf ((PyFloat.lt PyFloat.zero alpha &&
      PyFloat.lt alpha (PyFloat.div (PyFloat.ofNat 1) (PyFloat.ofNat 2))) = false)
    (DecisionError.inference "alpha must lie in (0, 0.5)")
  refuseIf (cohort.comparable = false)
    (.inference ("cohort is not comparable: " ++ cohort.incomparableReason.getD "None"))

/-- Whether a cohort is too small for a test. -/
def isUnderpowered (cohort : PairedCohort F) : Prop :=
  (blocksFrom cohort).size < minBlocks ∨ cohort.pairs.length < minEffectiveObservations

instance (cohort : PairedCohort F) : Decidable (isUnderpowered cohort) :=
  inferInstanceAs (Decidable (_ ∨ _))

/-- A test without a result. -/
def underpoweredResult (cohort : PairedCohort F) (name metric : String) (margin : Option F) :
    TestResult F where
  name := name
  metric := metric
  verdict := .underpowered
  pointEstimate := none
  interval := none
  pValue := none
  blocks := (blocksFrom cohort).size
  observations := cohort.pairs.length
  margin := margin

/-- `(exceedances + 1) / (BOOTSTRAP_REPLICATES + 1)`, for the replicates that reach
a bound. -/
def exceedanceRate (replicates : List F) (bound : F) : F :=
  PyFloat.div (PyFloat.ofNat (replicates.countP (PyFloat.le bound ·) + 1))
    (PyFloat.ofNat (bootstrapReplicates + 1))

variable [Bootstrap F]

/-- A percentile given by a fraction: `100 * fraction`. -/
def percentileOf (replicates : List F) (fraction : F) : F :=
  Bootstrap.percentile replicates (PyFloat.mul (PyFloat.ofNat 100) fraction)

/-- `superiority_test`. -/
def superiorityTest (cohort : PairedCohort F) (alpha : F) (seed : ℤ) :
    Except DecisionError (TestResult F) := do
  checkTest cohort alpha
  if isUnderpowered cohort then
    .ok (underpoweredResult cohort "superiority" "brier" none)
  else
    let horizonDays ← cohortHorizon cohort
    let replicates := Bootstrap.replicates (blocksFrom cohort).items seed horizonDays
    let half := PyFloat.div alpha (PyFloat.ofNat 2)
    let low := Bootstrap.percentile replicates
      (PyFloat.div (PyFloat.mul (PyFloat.ofNat 100) alpha) (PyFloat.ofNat 2))
    let high := percentileOf replicates (PyFloat.sub (PyFloat.ofNat 1) half)
    .ok {
      name := "superiority"
      metric := "brier"
      verdict :=
        if PyFloat.lt high PyFloat.zero then .favoursChallenger
        else if PyFloat.lt PyFloat.zero low then .favoursChampion
        else .inconclusive
      pointEstimate := some (Bootstrap.mean replicates)
      interval := some (some low, some high)
      pValue := some (exceedanceRate replicates PyFloat.zero)
      blocks := (blocksFrom cohort).size
      observations := cohort.pairs.length
      margin := none }

/-- `non_inferiority_test`. -/
def nonInferiorityTest (cohort : PairedCohort F) (margin : Margin F) (alpha : F) (seed : ℤ) :
    Except DecisionError (TestResult F) := do
  checkTest cohort alpha
  if isUnderpowered cohort then
    .ok (underpoweredResult cohort "non_inferiority" margin.metric (some margin.value))
  else
    let horizonDays ← cohortHorizon cohort
    let replicates := Bootstrap.replicates (blocksFrom cohort).items seed horizonDays
    let high := percentileOf replicates (PyFloat.sub (PyFloat.ofNat 1) alpha)
    .ok {
      name := "non_inferiority"
      metric := margin.metric
      verdict := if PyFloat.lt high margin.value then .favoursChallenger else .inconclusive
      pointEstimate := some (Bootstrap.mean replicates)
      interval := some (none, some high)
      pValue := some (exceedanceRate replicates margin.value)
      blocks := (blocksFrom cohort).size
      observations := cohort.pairs.length
      margin := some margin.value }

end Tests

/-! ## Holm's correction -/

/-- The record of a correction. -/
structure Correction (F : Type) where
  alpha : F
  familySize : ℕ
  adjusted : List (String × F)
  rejected : List (String × Bool)

section Correction

variable {F : Type} [PyFloat F]

/-- `(item[1], item[0]) < (other[1], other[0])`. -/
def itemLt (item other : String × F) : Bool :=
  if PyFloat.eq item.2 other.2 then decide (item.1 < other.1) else PyFloat.lt item.2 other.2

/-- The items of a family by value, then by name. -/
def orderedItems (pValues : OrderedDict String F) : List (String × F) :=
  pValues.items.insertionSort fun item other => itemLt other item = false

/-- The loop over the ordered items, with the running maximum. -/
def adjustItems (running : F) : List (String × F) → List (String × F)
  | [] => []
  | (name, value) :: items =>
      let running := PyFloat.max running
        (PyFloat.min (PyFloat.ofNat 1) (PyFloat.mul (PyFloat.ofNat (items.length + 1)) value))
      (name, running) :: adjustItems running items

/-- `holm_adjust`. -/
def holmAdjust [PyRuntime] (pValues : OrderedDict String F) (alpha : F) :
    Except DecisionError (Correction F) := do
  refuseIf (pValues.items = []) (.inference ("the family must be complete and non-empty; " ++
    "correcting a subset chosen after seeing results is not a correction"))
  pValues.items.forM fun (name, value) =>
    refuseIf ((PyFloat.isFinite value && PyFloat.le PyFloat.zero value &&
        PyFloat.le value (PyFloat.ofNat 1)) = false)
      (DecisionError.inference ("p-value for " ++ PyRuntime.strRepr name ++
        " must be finite in [0, 1]"))
  let adjusted := sortedBy Prod.fst (adjustItems PyFloat.zero (orderedItems pValues))
  .ok {
    alpha := alpha
    familySize := pValues.items.length
    adjusted := adjusted
    rejected := adjusted.map fun (name, value) => (name, PyFloat.le value alpha) }

end Correction

end Governance
