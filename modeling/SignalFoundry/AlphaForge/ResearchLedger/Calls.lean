import Mathlib.Data.List.Sort
import SignalFoundry.AlphaForge.ResearchLedger.Ledger

/-!
# The calls of the research ledger

`register_trial`, `transition` and `evaluate_family` as programs: each reads the
ledger one or more times through `verify`, decides from what it has read, and
appends one event or raises. A `verify` and an `_append` that raise end the call
with their exception.
-/

namespace SignalFoundry.ResearchLedger

open Fallible

variable {F : Type} [PyFloat F] [FloatText F] [PyRuntime] [DatetimeForms]

/-- How a call ends once its append has returned. -/
inductive Outcome where
  | returned
  | raised (error : GovernanceError)

/-- What is left of a call. -/
inductive Program (F : Type) [PyFloat F] [FloatText F] [PyRuntime] [DatetimeForms] where
  | verify (next : List (Record F) → Program F)
  | append (event : Event F) (outcome : Outcome)
  | ended (outcome : Outcome)

/-! ## The correction of p-values -/

/-- The adjusted values of p-values in increasing order. -/
def adjustedOrdered (method : CorrectionMethod) (ordered : List (String × F)) :
    List (String × F) :=
  match method with
  | .holmBonferroni => holm PyFloat.zero ordered
  | .benjaminiHochberg => (stepUp ordered.length (PyFloat.ofNat 1) ordered.reverse).reverse
where
  /-- The running maximum from the smallest p-value on. -/
  holm (running : F) : List (String × F) → List (String × F)
    | [] => []
    | (trialId, value) :: rest =>
        let running := PyFloat.max running (PyFloat.min (PyFloat.ofNat 1)
          (PyFloat.mul (PyFloat.ofNat (rest.length + 1)) value))
        (trialId, running) :: holm running rest
  /-- The running minimum from the largest p-value down. -/
  stepUp (count : ℕ) (running : F) : List (String × F) → List (String × F)
    | [] => []
    | (trialId, value) :: rest =>
        let running := PyFloat.min running (PyFloat.min (PyFloat.ofNat 1)
          (PyFloat.div (PyFloat.mul (PyFloat.ofNat count) value) (PyFloat.ofNat (rest.length + 1))))
        (trialId, running) :: stepUp count running rest

/-- The p-values in increasing order, equal ones by trial. -/
def orderedPValues (values : List (String × F)) : List (String × F) :=
  values.insertionSort fun a b =>
    PyFloat.lt a.2 b.2 = true ∨ (PyFloat.lt b.2 a.2 = false ∧ a.1 ≤ b.1)

/-- `adjust_p_values`, of the p-values in the order of the eligible trials. -/
def adjustPValues (policy : MultipleTestingPolicy F) (values : List (String × F)) :
    Except GovernanceError (OrderedDict String F × OrderedDict String Bool) := do
  refuseIf (values.length ≠ policy.familySize ∨ ¬ (values.map Prod.fst).Nodup)
    (.incompleteFamily "eligible family count does not match frozen policy")
  refuseIf (¬ values.all (fun p => PyFloat.isFinite p.2 && PyFloat.le PyFloat.zero p.2 &&
      PyFloat.le p.2 (PyFloat.ofNat 1)) = true)
    (.incompleteFamily "p-values must be finite in [0, 1]")
  let byTrial := OrderedDict.ofItems (adjustedOrdered policy.method (orderedPValues values))
  return (byTrial, .ofItems (values.map fun p =>
    (p.1, PyFloat.le (byTrial.getD p.1 PyFloat.zero) policy.alpha)))

/-! ## The evaluation of a complete family -/

/-- `float(n)` of an integer. -/
def floatOf (n : ℤ) : Except GovernanceError F :=
  match PyFloat.ofInt n with
  | some x => .ok x
  | none => .error (.overflow "int too large to convert to float")

/-- A number, as `float` converts it; a `bool` is not one. -/
def number? : Json F → Option (Except GovernanceError F)
  | .int n => some (floatOf n)
  | .float x => some (.ok x)
  | _ => none

def member? (name : String) : Json F → Option (Json F)
  | .obj members => members.lookup name
  | _ => none

/-- The p-value and the metrics of a trial that has ended. -/
def trialEvidence (policy : MultipleTestingPolicy F) (records : List (Record F))
    (states : OrderedDict String TrialStatus) (trialId : String) :
    Except GovernanceError (F × Json F) :=
  if states.get? trialId = some .failed then .ok (policy.failedTrialPValue, .obj [])
  else
    match (terminalRecord? records trialId).bind fun record =>
        (member? "p_value" record.payload.toJson).bind number? with
    | none => .error (.incompleteFamily ("p-value for " ++ trialId ++ " is not numeric"))
    | some value => do
        return (← value, ((terminalRecord? records trialId).bind fun record =>
          member? "metrics" record.payload.toJson).getD (.obj []))

/-- Whether a criterion triggers on the metrics of a trial. -/
def criterionTriggers (criterion : KillCriterion F) (metrics : Json F) :
    Except GovernanceError Bool :=
  match (member? criterion.metric metrics).bind number? with
  | none => .ok true
  | some value => do return criterion.triggered (← value)

/-- The names of the criteria that trigger, in their order. -/
def triggeredNames (metrics : Json F) : List (KillCriterion F) → Except GovernanceError (List String)
  | [] => .ok []
  | criterion :: rest => do
      let triggers ← criterionTriggers criterion metrics
      let names ← triggeredNames metrics rest
      return if triggers then criterion.name :: names else names

/-- The reasons for which a trial is killed. -/
def killedReasons (plan : FrozenResearchPlan F) (failed rejected : Bool) (metrics : Json F) :
    Except GovernanceError (List String) := do
  let triggered ← triggeredNames metrics plan.killCriteria
  return (if failed then ["trial_failed"] else []) ++ triggered ++
    (if rejected then [] else ["multiplicity_adjusted_evidence"])

/-- `FamilyEvaluation`. -/
structure FamilyEvaluation (F : Type) where
  method : CorrectionMethod
  alpha : F
  rawPValues : List (String × F)
  adjustedPValues : List (String × F)
  rejected : List (String × Bool)
  killed : List (String × List String)

namespace FamilyEvaluation

variable (evaluation : FamilyEvaluation F)

def rawJson : Json F := .obj (evaluation.rawPValues.map fun p => (p.1, .float p.2))

def adjustedJson : Json F := .obj (evaluation.adjustedPValues.map fun p => (p.1, .float p.2))

def rejectedJson : Json F := .obj (evaluation.rejected.map fun p => (p.1, .bool p.2))

def killedJson : Json F := .obj (evaluation.killed.map fun p => (p.1, .arr (p.2.map .str)))

/-- `__post_init__`. -/
def postInit : Except GovernanceError Unit := do
  freezeJson "raw_p_values" evaluation.rawJson
  freezeJson "adjusted_p_values" evaluation.adjustedJson
  freezeJson "rejected" evaluation.rejectedJson
  freezeJson "killed" evaluation.killedJson

def toDict : Json F :=
  .obj [("method", .str evaluation.method.name), ("alpha", .float evaluation.alpha),
    ("raw_p_values", evaluation.rawJson), ("adjusted_p_values", evaluation.adjustedJson),
    ("rejected", evaluation.rejectedJson), ("killed", evaluation.killedJson)]

end FamilyEvaluation

/-- The evaluation of a complete family. -/
def familyEvaluation (plan : FrozenResearchPlan F) (records : List (Record F)) :
    Except GovernanceError (FamilyEvaluation F) := do
  let states := statesOf records
  let evidence ← plan.trialIds.mapM fun trialId => do
    return (trialId, ← trialEvidence plan.correction records states trialId)
  let rawPValues := evidence.map fun p => (p.1, p.2.1)
  let (adjusted, rejected) ← adjustPValues plan.correction rawPValues
  let killed ← evidence.mapM fun p => do
    return (p.1, ← killedReasons plan (states.get? p.1 = some .failed) (rejected.getD p.1 false)
      p.2.2)
  let evaluation : FamilyEvaluation F :=
    { method := plan.correction.method
      alpha := plan.correction.alpha
      rawPValues := rawPValues
      adjustedPValues := adjusted.items
      rejected := rejected.items
      killed := killed }
  evaluation.postInit
  return evaluation

/-! ## The calls -/

def raise (error : GovernanceError) : Program F := .ended (.raised error)

/-- `register_trial`. -/
def registerTrial (trialId occurredAt : String) : Program F :=
  match requireIdentifier trialId "trial_id" with
  | .error error => raise error
  | .ok () =>
    .verify fun first =>
      match planOf? first with
      | none => raise (.integrity "ledger must begin with exactly one frozen plan")
      | some (plan, _) =>
          match plan.trials.find? fun spec => spec.trialId == trialId with
          | none => raise (.governance "trial is not part of the frozen eligible family")
          | some spec =>
              .verify fun records =>
                match (statesOf records).get? trialId with
                | some status =>
                    .append
                      { eventType := .duplicateRejected, trialId := some trialId
                        occurredAt := occurredAt
                        payload := .details (.obj [("existing_status", .str status.name),
                          ("reason", .str "duplicate_registration")]) }
                      (.raised (.duplicateTrial ("trial " ++ trialId ++ " is already registered")))
                | none =>
                    .verify fun last =>
                      match planOf? last with
                      | none => raise (.integrity "ledger must begin with exactly one frozen plan")
                      | some (_, planHash) =>
                          .append
                            { eventType := .trial .registered, trialId := some trialId
                              occurredAt := occurredAt
                              payload := .details (.obj [("plan_hash", .str planHash),
                                ("spec", spec.toDict)]) }
                            .returned

/-- The check of `transition` on the p-value of a success. -/
def checkPValue (details : List (String × Json F)) : Except GovernanceError Unit :=
  match (details.lookup "p_value").bind number? with
  | none => .error (.governance "successful trial p_value must be finite in [0, 1]")
  | some value => do
      let pValue ← value
      refuseIf (¬ (PyFloat.isFinite pValue && PyFloat.le PyFloat.zero pValue &&
          PyFloat.le pValue (PyFloat.ofNat 1)) = true)
        (.governance "successful trial p_value must be finite in [0, 1]")

/-- The checks of `transition` on the details of a success. -/
def checkSucceeded (details : List (String × Json F)) : Except GovernanceError Unit := do
  refuseIf (¬ (details.length = 2 ∧ "metrics" ∈ details.map Prod.fst ∧
      "p_value" ∈ details.map Prod.fst))
    (.governance "successful trial details require exactly metrics and p_value")
  checkPValue details
  match details.lookup "metrics" with
  | some (.obj (_ :: _)) => .ok ()
  | _ => .error (.governance "successful trial metrics must be non-empty")

/-- The checks of `transition` on the details of a failure. -/
def checkFailed (details : List (String × Json F)) : Except GovernanceError Unit :=
  match details.lookup "reason" with
  | none => .error (.governance "failed trial requires a non-empty reason")
  | some (.str reason) => refuseIf (PyText.isBlank reason = true)
      (.governance "failed trial requires a non-empty reason")
  | some _ => .ok ()

/-- The checks of `transition` on the details of a status. -/
def checkDetails (status : TrialStatus) (details : List (String × Json F)) :
    Except GovernanceError Unit := do
  freezeJson "details" (.obj details)
  match status with
  | .succeeded => checkSucceeded details
  | .failed => checkFailed details
  | _ =>
      refuseIf (details.length = 0)
        (.governance (status.name ++ " transition requires audit details"))

/-- `transition`. -/
def transition (trialId : String) (status : TrialStatus) (occurredAt : String)
    (details : List (String × Json F)) : Program F :=
  match requireIdentifier trialId "trial_id" with
  | .error error => raise error
  | .ok () =>
    if status = .registered then raise (.governance "transition status is invalid")
    else
      .verify fun records =>
        let previous := (statesOf records).get? trialId
        if status ∈ allowedTransitions previous then
          match checkDetails status details with
          | .error error => raise error
          | .ok () =>
              .append
                { eventType := .trial status, trialId := some trialId, occurredAt := occurredAt
                  payload := .details (.obj details) }
                .returned
        else raise (.governance ("invalid trial transition for " ++ trialId ++ ": " ++
          previous.elim "None" TrialStatus.name ++ " -> " ++ status.name))

/-- `evaluate_family`. -/
def evaluateFamily (occurredAt : String) : Program F :=
  .verify fun first =>
    if first.any fun record => record.eventType = .familyEvaluated then
      .append
        { eventType := .familyEvaluationRejected, trialId := none, occurredAt := occurredAt
          payload := .details (.obj [("reason", .str "family_already_evaluated")]) }
        (.raised (.governance "frozen trial family has already been evaluated"))
    else
      .verify fun second =>
        match planOf? second with
        | none => raise (.integrity "ledger must begin with exactly one frozen plan")
        | some (plan, _) =>
            .verify fun records =>
              let missing := plan.trialIds.filter fun trialId =>
                ¬ ((statesOf records).get? trialId).any TrialStatus.Terminal
              if missing ≠ [] then
                .append
                  { eventType := .familyEvaluationRejected, trialId := none
                    occurredAt := occurredAt
                    payload := .details (.obj [("reason", .str "incomplete_eligible_family"),
                      ("missing_or_nonterminal", .arr (missing.map .str)),
                      ("eligible_count", .int plan.trialIds.length)]) }
                  (.raised (.incompleteFamily "complete eligible family required"))
              else
                match familyEvaluation plan records with
                | .error error => raise error
                | .ok evaluation =>
                    .append
                      { eventType := .familyEvaluated, trialId := none, occurredAt := occurredAt
                        payload := .details evaluation.toDict }
                      .returned

/-! ## Steps -/

/-- One step of a call through an object with its own limits. -/
def Program.step (limits : Limits) (files : Files F) : Program F → Program F × Files F
  | .verify next =>
      match files.verify limits with
      | .ok records => (next records, files)
      | .error error => (raise error, files)
  | .append event outcome =>
      match files.append limits event with
      | .ok appended => (.ended outcome, appended)
      | .error error => (raise error, files)
  | .ended outcome => (.ended outcome, files)

/-- A call, with its arguments. -/
inductive Call (F : Type) where
  | registerTrial (trialId occurredAt : String)
  | transition (trialId : String) (status : TrialStatus) (occurredAt : String)
      (details : List (String × Json F))
  | evaluateFamily (occurredAt : String)

def Call.program : Call F → Program F
  | .registerTrial trialId occurredAt => ResearchLedger.registerTrial trialId occurredAt
  | .transition trialId status occurredAt details =>
      ResearchLedger.transition trialId status occurredAt details
  | .evaluateFamily occurredAt => ResearchLedger.evaluateFamily occurredAt

/-- A call that has been made through some object. -/
structure Pending (F : Type) [PyFloat F] [FloatText F] [PyRuntime] [DatetimeForms] where
  limits : Limits
  program : Program F

/-- A directory and the calls that are under way. -/
structure System (F : Type) [PyFloat F] [FloatText F] [PyRuntime] [DatetimeForms] where
  files : Files F
  calls : List (Pending F) := []

/-- A call is made, or the call that the step names takes its next step. -/
inductive System.Step (s : System F) : Option (Pending F) → System F → Prop
  | call (limits : Limits) (call : Call F) :
      Step s none { s with calls := s.calls ++ [⟨limits, call.program⟩] }
  | step (before after : List (Pending F)) (pending : Pending F)
      (hcalls : s.calls = before ++ pending :: after) :
      Step s (some pending)
        { files := (pending.program.step pending.limits s.files).2
          calls := before ++
            ⟨pending.limits, (pending.program.step pending.limits s.files).1⟩ :: after }

end SignalFoundry.ResearchLedger
