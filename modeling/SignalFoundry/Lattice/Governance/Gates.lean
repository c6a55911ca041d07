import SignalFoundry.Lattice.Governance.Inference
import SignalFoundry.Lattice.Governance.Store

/-!
# Promotion gates

A recommendation is made from absolute gates, the verdicts of the tests and
Holm's correction of their `p`-values. It is evidence, not an authorization.
-/

namespace Governance

open Fallible Shadow

structure GateResult where
  name : String
  satisfied : Bool
  detail : String
  deriving DecidableEq

/-- The preregistered decision rules. -/
structure FrozenPolicy (F : Type) [PyFloat F] where
  version : String
  alpha : F
  margin : Margin F
  minimumDays : ℤ := 28
  minimumTargetDates : ℤ := 20
  minimumPairs : ℤ := 200
  minimumPerClass : ℤ := 50
  minimumCoverage : F := PyFloat.div (PyFloat.ofNat 99) (PyFloat.ofNat 100)
  minimumPower : F := PyFloat.div (PyFloat.ofNat 8) (PyFloat.ofNat 10)
  named : PyText.isBlank version = false
  level : PyFloat.lt PyFloat.zero alpha = true ∧
    PyFloat.lt alpha (PyFloat.div (PyFloat.ofNat 1) (PyFloat.ofNat 2)) = true
  positive : 1 ≤ minimumDays ∧ 1 ≤ minimumTargetDates ∧ 1 ≤ minimumPairs ∧ 1 ≤ minimumPerClass
  fractions : ∀ x ∈ [minimumCoverage, minimumPower],
    PyFloat.lt PyFloat.zero x = true ∧ PyFloat.le x (PyFloat.ofNat 1) = true

inductive Recommendation where
  | promote
  | retainChampion
  | insufficientEvidence
  | invalid
  deriving DecidableEq, Repr

/-- A recommendation with the gates and tests that produced it; it does not
promote past a gate. -/
structure Decision (F : Type) where
  recommendation : Recommendation
  policyIdentity : String
  cohortIdentity : String
  gates : List GateResult
  tests : List (TestResult F)
  correction : Option (Correction F)
  decidedAt : String
  absolute : recommendation = .promote → ∀ gate ∈ gates, gate.satisfied = true

section Gates

variable [PyRuntime] {F : Type} [PyFloat F] [FloatText F]

/-- `policy.identity`. -/
def FrozenPolicy.identity (policy : FrozenPolicy F) : String :=
  Shadow.canonicalDigest (.obj [
    ("version", .str policy.version),
    ("alpha", .float policy.alpha),
    ("margin", .obj [("metric", .str policy.margin.metric), ("value", .float policy.margin.value)]),
    ("minimum_days", .int policy.minimumDays),
    ("minimum_target_dates", .int policy.minimumTargetDates),
    ("minimum_pairs", .int policy.minimumPairs),
    ("minimum_per_class", .int policy.minimumPerClass),
    ("minimum_coverage", .float policy.minimumCoverage),
    ("minimum_power", .float policy.minimumPower)])

omit [PyRuntime] [FloatText F] [PyFloat F] in
/-- `_calendar_span`. -/
def calendarSpan (cohort : PairedCohort F) : ℤ :=
  match cohort.pairs.map PairedScore.asOfDate with
  | [] => 0
  | date :: dates => (dates.foldl max date).toordinal - (dates.foldl min date).toordinal + 1

/-- Counts in order, and then the names of their classes. -/
@[reducible] def classOrder : LinearOrder (ℤ ×ₗ String) :=
  @Prod.Lex.instLinearOrder ℤ String Int.instLinearOrder inferInstance

/-- `_smallest_class`. -/
def smallestClass (classCounts : OrderedDict String ℤ) : Option (String × ℤ) :=
  @List.argmin _ _ classOrder.toPreorder classOrder.toDecidableLT
    (fun item => toLex (item.2, item.1)) classCounts.items

variable [FloatMath F]

/-- `evaluate_gates`. -/
def evaluateGates (cohort : PairedCohort F) (policy : FrozenPolicy F)
    (classCounts : Option (OrderedDict String ℤ)) (achievedPower : Option F) : List GateResult :=
  let distinctDays : ℤ := (cohort.pairs.map PairedScore.asOfDate).dedup.length
  let spanDays := calendarSpan cohort
  let smallest := classCounts.bind smallestClass
  let smallestCount := (smallest.map Prod.snd).getD 0
  [{ name := "cohort_comparable"
     satisfied := cohort.comparable
     detail := cohort.incomparableReason.getD "arms have symmetric missingness" },
   { name := "minimum_duration"
     satisfied := policy.minimumDays ≤ spanDays
     detail := toString spanDays ++ " consecutive calendar days spanned against a minimum of " ++
       toString policy.minimumDays },
   { name := "minimum_target_dates"
     satisfied := policy.minimumTargetDates ≤ distinctDays
     detail := toString distinctDays ++ " resolved target dates against a minimum of " ++
       toString policy.minimumTargetDates },
   { name := "minimum_pairs"
     satisfied := policy.minimumPairs ≤ cohort.matched
     detail := toString cohort.matched ++ " matched pairs against a minimum of " ++
       toString policy.minimumPairs },
   { name := "minimum_per_class"
     satisfied := classCounts.isSome && decide (policy.minimumPerClass ≤ smallestCount)
     detail :=
       if classCounts.isNone then
         "class counts were not supplied, so the gate cannot be evaluated and is not satisfied"
       else "smallest class " ++ (smallest.map fun item => PyRuntime.strRepr item.1).getD "None" ++
         " has " ++ toString smallestCount ++ " observations against a minimum of " ++
           toString policy.minimumPerClass },
   { name := "minimum_coverage"
     satisfied := PyFloat.le policy.minimumCoverage cohort.coverage
     detail := "coverage " ++ FloatMath.formatFixed 4 cohort.coverage ++
       " against a minimum of " ++ FloatMath.formatFixed 4 policy.minimumCoverage },
   { name := "minimum_power"
     satisfied := achievedPower.any fun power => PyFloat.le policy.minimumPower power
     detail := match achievedPower with
       | none => "power was not supplied, so the gate cannot be evaluated and is not satisfied"
       | some power => "preregistered power " ++ FloatMath.formatFixed 3 power ++
           " against a minimum of " ++ FloatMath.formatFixed 3 policy.minimumPower }]

def addToFamily (family : OrderedDict String F) (item : TestResult F) : OrderedDict String F :=
  match item.pValue with
  | some value => family.set item.name value
  | none => family

/-- The family of a list of tests: the last `p`-value of each name. -/
def family (tests : List (TestResult F)) : OrderedDict String F :=
  tests.foldl addToFamily OrderedDict.empty

/-- The names of the gates that fail. -/
def failing (gates : List GateResult) : List String :=
  (gates.filter fun gate => !gate.satisfied).map GateResult.name

/-- Whether a family is rejected and every test favours the challenger. -/
def isPromoted (correction : Correction F) (tests : List (TestResult F)) : Bool :=
  correction.rejected.all Prod.snd && tests.all fun item => item.verdict = .favoursChallenger

/-- The decision on a recommendation. -/
def conclude (cohort : PairedCohort F) (policy : FrozenPolicy F) (tests : List (TestResult F))
    (now : Instant) (gates : List GateResult) (recommendation : Recommendation)
    (correction : Option (Correction F)) : Except DecisionError (Decision F) := do
  let ⟨absolute⟩ ← require (recommendation = .promote → ∀ gate ∈ gates, gate.satisfied = true)
    (DecisionError.governance ("cannot recommend promotion while a gate is unsatisfied; " ++
      "gates are absolute and there is no override"))
  .ok {
    recommendation := recommendation
    policyIdentity := policy.identity
    cohortIdentity := cohort.identity
    gates := gates
    tests := tests
    correction := correction
    decidedAt := now.isoformat
    absolute := absolute }

/-- `recommend`. -/
def recommend (cohort : PairedCohort F) (policy : FrozenPolicy F) (tests : List (TestResult F))
    (now : Instant) (expectedPolicyIdentity : Option String)
    (classCounts : Option (OrderedDict String ℤ)) (achievedPower : Option F) :
    Except DecisionError (Decision F) := do
  refuseIf (∃ expected ∈ expectedPolicyIdentity, policy.identity ≠ expected)
    (.governance ("policy " ++ PyRuntime.strRepr policy.version ++
      " does not match the preregistered identity: running " ++ short policy.identity ++
      ", expected " ++ short (expectedPolicyIdentity.getD "") ++
      ". Changing thresholds after seeing results is what the identity detects."))
  refuseIf (tests = []) (.governance "the test family must be non-empty")
  let gates := evaluateGates cohort policy classCounts achievedPower
  let conclude := conclude cohort policy tests now gates
  if failing gates ≠ [] then
    conclude (if "cohort_comparable" ∈ failing gates then .invalid else .insufficientEvidence) none
  else if tests.any fun item => item.verdict = .underpowered then
    conclude .insufficientEvidence none
  else do
    refuseIf ((family tests).items = [])
      (DecisionError.governance "no test produced a p-value to correct")
    let correction ← holmAdjust (family tests) policy.alpha
    conclude (if isPromoted correction tests then .promote else .retainChampion) (some correction)

end Gates

end Governance
