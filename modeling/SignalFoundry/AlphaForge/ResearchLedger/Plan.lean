import SignalFoundry.Library.Json.Basic
import SignalFoundry.Library.OrderedDict
import SignalFoundry.Library.PyDate
import SignalFoundry.Library.PyFloat

/-!
# Frozen research plans

What the research ledger records: JSON values that are bounded and finite, and
the plan that is frozen before the first trial. A plan is a value whose checks
have passed; the declarations that the ledger only hashes (hypothesis, dataset,
validation and so on) are kept as the members of its document.
-/

namespace SignalFoundry.ResearchLedger

open Fallible

/-- `ResearchGovernanceError` and its subclasses, and the `OverflowError` of `float`. -/
inductive GovernanceError where
  | governance (message : String)
  | integrity (message : String)
  | duplicateTrial (message : String)
  | incompleteFamily (message : String)
  | overflow (message : String)
  deriving DecidableEq, Repr

/-! ## Scalars -/

/-- `_require_identifier`. -/
def isIdentifier (value : String) : Bool :=
  value ≠ "" && value.toList.length ≤ 128 &&
    value.toList.all fun c => PyText.isAlnumAscii c || c == '.' || c == '_' || c == '-'

def rootTrialId : String := "ROOT"

def requireIdentifier (value field : String) : Except GovernanceError Unit :=
  refuseIf (¬ isIdentifier value = true) (.governance (field ++
    " must be a non-empty ASCII identifier using letters, numbers, '.', '_', or '-'"))

/-- The microseconds of a time. -/
def instant (t : PyDatetime) : ℕ :=
  (((t.date.toordinal * 24 + t.hour) * 60 + t.minute) * 60 + t.second) * 1000000 + t.microsecond

/-- `_parse_utc`. -/
def parseUtc [PyRuntime] [DatetimeForms] (value field : String) : Except GovernanceError ℕ :=
  if value.toList.getLast? = some 'Z' then
    match PyDatetime.fromIsoformat (String.ofList (value.toList.flatMap fun c =>
        if c = 'Z' then PyDatetime.offsetText else [c])) with
    | some t => .ok (instant t)
    | none => .error (.governance (field ++ " must be an ISO-8601 UTC timestamp"))
  else .error (.governance (field ++ " must be an ISO-8601 UTC timestamp ending in Z"))

/-! ## Bounded JSON -/

section Json

variable {F : Type} [PyFloat F]

mutual

/-- `_freeze_json`: the value, if it is bounded and finite. -/
def freezeJson (field : String) : Json F → Except GovernanceError Unit
  | .float x => refuseIf (¬ PyFloat.isFinite x = true)
      (.governance (field ++ " contains a non-finite number"))
  | .obj members => do
      refuseIf (members.length > 10000) (.governance (field ++ " mapping is too large"))
      freezeMembers field [] members
  | .arr items => do
      refuseIf (items.length > 100000) (.governance (field ++ " sequence is too large"))
      freezeItems field 0 items
  | _ => .ok ()

def freezeItems (field : String) (index : ℕ) : List (Json F) → Except GovernanceError Unit
  | [] => .ok ()
  | item :: rest => do
      freezeJson (field ++ "[" ++ toString index ++ "]") item
      freezeItems field (index + 1) rest

def freezeMembers (field : String) (frozen : List String) :
    List (String × Json F) → Except GovernanceError Unit
  | [] => .ok ()
  | (key, item) :: rest => do
      refuseIf (key = "" ∨ key ∈ frozen)
        (.governance (field ++ " keys must be unique non-empty strings"))
      freezeJson (field ++ "." ++ key) item
      freezeMembers field (key :: frozen) rest

end

mutual

/-- Whether a value is bounded and finite does not depend on the field it is checked for. -/
theorem freezeJson_field {field : String} (field' : String) : ∀ {value : Json F},
    freezeJson field value = .ok () → freezeJson field' value = .ok ()
  | .float x, h => by
      rw [freezeJson, refuseIf_eq_ok_iff] at h ⊢
      exact h
  | .obj members, h => by
      rw [freezeJson, bind_eq_ok_iff] at h ⊢
      obtain ⟨_, hsize, hmembers⟩ := h
      rw [refuseIf_eq_ok_iff] at hsize
      exact ⟨(), refuseIf_of_not hsize, freezeMembers_field field' hmembers⟩
  | .arr items, h => by
      rw [freezeJson, bind_eq_ok_iff] at h ⊢
      obtain ⟨_, hsize, hitems⟩ := h
      rw [refuseIf_eq_ok_iff] at hsize
      exact ⟨(), refuseIf_of_not hsize, freezeItems_field field' hitems⟩
  | .null, _ | .bool _, _ | .int _, _ | .str _, _ => by simp [freezeJson]

theorem freezeItems_field {field : String} (field' : String) : ∀ {items : List (Json F)}
    {index : ℕ}, freezeItems field index items = .ok () → freezeItems field' index items = .ok ()
  | [], _, _ => by rw [freezeItems]
  | item :: rest, index, h => by
      rw [freezeItems, bind_eq_ok_iff] at h ⊢
      obtain ⟨_, hitem, hrest⟩ := h
      exact ⟨(), freezeJson_field _ hitem, freezeItems_field field' hrest⟩

theorem freezeMembers_field {field : String} (field' : String) :
    ∀ {members : List (String × Json F)} {frozen : List String},
      freezeMembers field frozen members = .ok () → freezeMembers field' frozen members = .ok ()
  | [], _, _ => by rw [freezeMembers]
  | (key, item) :: rest, frozen, h => by
      rw [freezeMembers, bind_eq_ok_iff] at h ⊢
      obtain ⟨_, hkey, h⟩ := h
      obtain ⟨_, hitem, hrest⟩ := bind_eq_ok_iff.mp h
      rw [refuseIf_eq_ok_iff] at hkey
      exact ⟨(), refuseIf_of_not hkey, bind_eq_ok_iff.mpr
        ⟨(), freezeJson_field _ hitem, freezeMembers_field field' hrest⟩⟩

end

theorem freezeJson_str (field text : String) : freezeJson field (.str text : Json F) = .ok () := by
  simp [freezeJson]

theorem freezeJson_obj {field : String} {members : List (String × Json F)}
    (hsize : members.length ≤ 10000) (hmembers : freezeMembers field [] members = .ok ()) :
    freezeJson field (.obj members) = .ok () := by
  rw [freezeJson, refuseIf_of_not (not_lt.mpr hsize), ok_bind, hmembers]

theorem freezeMembers_cons {field key : String} {frozen : List String} {item : Json F}
    {rest : List (String × Json F)} (hkey : key ≠ "" ∧ key ∉ frozen)
    (hitem : freezeJson (field ++ "." ++ key) item = .ok ())
    (hrest : freezeMembers field (key :: frozen) rest = .ok ()) :
    freezeMembers field frozen ((key, item) :: rest) = .ok () := by
  rw [freezeMembers, refuseIf_of_not (not_or.mpr hkey), ok_bind, hitem, ok_bind, hrest]

mutual

/-- What `json.dumps(..., allow_nan=False)` writes. -/
def isCanonical : Json F → Bool
  | .int n => (Nat.toDigits 10 n.natAbs).length ≤ Json.maxIntegerDigits
  | .float x => PyFloat.isFinite x
  | .arr items => canonicalItems items
  | .obj members => canonicalMembers members
  | _ => true

def canonicalItems : List (Json F) → Bool
  | [] => true
  | item :: rest => isCanonical item && canonicalItems rest

def canonicalMembers : List (String × Json F) → Bool
  | [] => true
  | (_, item) :: rest => isCanonical item && canonicalMembers rest

end

theorem canonicalItems_iff {items : List (Json F)} :
    canonicalItems items = true ↔ ∀ item ∈ items, isCanonical item = true := by
  induction items with
  | nil => simp [canonicalItems]
  | cons item rest ih => simp [canonicalItems, ih]

theorem canonicalMembers_iff {members : List (String × Json F)} :
    canonicalMembers members = true ↔ ∀ m ∈ members, isCanonical m.2 = true := by
  induction members with
  | nil => simp [canonicalMembers]
  | cons m rest ih => simp [canonicalMembers, ih]

/-- `_canonical_bytes`. -/
def canonicalBytes [FloatText F] (value : Json F) : Except GovernanceError (List UInt8) := do
  refuseIf (¬ isCanonical value = true) (.governance "value is not canonical JSON")
  return PyText.encodeUtf8 value.dumps

end Json

/-- `_sha256`. -/
def sha256 [PyRuntime] (bytes : List UInt8) : String := PyText.hexText (PyRuntime.sha256 bytes)

/-! ## Plans -/

/-- `TrialSpec`: one eligible candidate and its parent. -/
structure TrialSpec (F : Type) [PyFloat F] where
  trialId : String
  parentTrialId : String
  candidate : String
  configuration : List (String × Json F)
  trialId_valid : isIdentifier trialId = true
  parentTrialId_valid : parentTrialId = rootTrialId ∨ isIdentifier parentTrialId = true
  candidate_valid : isIdentifier candidate = true
  parent_ne : trialId ≠ parentTrialId
  configuration_valid :
    freezeJson ("trial[" ++ trialId ++ "].configuration") (.obj configuration) = .ok ()

def TrialSpec.toDict {F : Type} [PyFloat F] (trial : TrialSpec F) : Json F :=
  .obj [("trial_id", .str trial.trialId), ("parent_trial_id", .str trial.parentTrialId),
    ("candidate", .str trial.candidate), ("configuration", .obj trial.configuration)]

inductive CorrectionMethod where
  | holmBonferroni
  | benjaminiHochberg
  deriving DecidableEq, Repr

def CorrectionMethod.name : CorrectionMethod → String
  | .holmBonferroni => "holm_bonferroni"
  | .benjaminiHochberg => "benjamini_hochberg"

/-- `MultipleTestingPolicy`; a failed trial receives the p-value one. -/
structure MultipleTestingPolicy (F : Type) [PyFloat F] where
  method : CorrectionMethod
  alpha : F
  familySize : ℕ
  assumptions : List String
  alpha_mem : PyFloat.isFinite alpha = true ∧ PyFloat.lt PyFloat.zero alpha = true ∧
    PyFloat.lt alpha (PyFloat.ofNat 1) = true
  assumptions_valid : assumptions ≠ [] ∧ assumptions.Nodup ∧
    ∀ item ∈ assumptions, item ≠ "" ∧ PyText.isStripped item = true

def MultipleTestingPolicy.failedTrialPValue {F : Type} [PyFloat F]
    (_ : MultipleTestingPolicy F) : F :=
  PyFloat.ofNat 1

def MultipleTestingPolicy.toDict {F : Type} [PyFloat F] (policy : MultipleTestingPolicy F) :
    Json F :=
  .obj [("method", .str policy.method.name), ("alpha", .float policy.alpha),
    ("family_size", .int policy.familySize),
    ("assumptions", .arr (policy.assumptions.map .str)),
    ("failed_trial_p_value", .float policy.failedTrialPValue)]

inductive KillOperator where
  | lt
  | le
  | gt
  | ge
  deriving DecidableEq, Repr

def KillOperator.name : KillOperator → String
  | .lt => "lt"
  | .le => "le"
  | .gt => "gt"
  | .ge => "ge"

/-- `KillCriterion`. -/
structure KillCriterion (F : Type) [PyFloat F] where
  name : String
  metric : String
  operator : KillOperator
  threshold : F
  name_valid : isIdentifier name = true
  metric_valid : isIdentifier metric = true
  threshold_finite : PyFloat.isFinite threshold = true

def KillCriterion.toDict {F : Type} [PyFloat F] (criterion : KillCriterion F) : Json F :=
  .obj [("name", .str criterion.name), ("metric", .str criterion.metric),
    ("operator", .str criterion.operator.name), ("threshold", .float criterion.threshold)]

/-- `KillCriterion.triggered`. -/
def KillCriterion.triggered {F : Type} [PyFloat F] (criterion : KillCriterion F) (value : F) :
    Bool :=
  if PyFloat.isFinite value then
    match criterion.operator with
    | .lt => PyFloat.lt value criterion.threshold
    | .le => PyFloat.le value criterion.threshold
    | .gt => PyFloat.lt criterion.threshold value
    | .ge => PyFloat.le criterion.threshold value
  else true

/-! ## Lineage -/

/-- What `_validate_lineage` raises: its refusals, and the `KeyError` of its dictionary. -/
inductive LineageError where
  | governance (message : String)
  | lookup (key : String)
  deriving DecidableEq, Repr

/-- The walk of `_validate_lineage` towards the root. -/
def walkToRoot (parents : OrderedDict String String) (visited : Finset String)
    (cursor : String) : Except LineageError Unit :=
  if cursor = rootTrialId then .ok ()
  else if _hvisited : cursor ∈ visited then
    .error (.governance "trial parent lineage contains a cycle")
  else
    match _hparent : parents.get? cursor with
    | none => .error (.lookup cursor)
    | some parent => walkToRoot parents (insert cursor visited) parent
termination_by (parents.keys.toFinset \ visited).card
decreasing_by
  have hkey : cursor ∈ parents.keys.toFinset := by
    rw [List.mem_toFinset, OrderedDict.mem_keys_iff]
    exact ⟨parent, _hparent⟩
  rw [Finset.sdiff_insert]
  exact Finset.card_erase_lt_of_mem (Finset.mem_sdiff.mpr ⟨hkey, _hvisited⟩)

/-- A turn of the loop of `_validate_lineage`. -/
def checkParent (parents : OrderedDict String String) (trialId parent : String) :
    Except LineageError Unit := do
  refuseIf (parent ≠ rootTrialId ∧ parent ∉ parents.keys)
    (LineageError.governance s!"trial '{trialId}' has unknown parent '{parent}'")
  walkToRoot parents ∅ trialId

/-- `_validate_lineage`. -/
def validateLineage {F : Type} [PyFloat F] (trials : List (TrialSpec F)) :
    Except LineageError Unit :=
  let parents : OrderedDict String String :=
    .ofItems (trials.map fun trial => (trial.trialId, trial.parentTrialId))
  parents.items.forM fun (trialId, parent) => checkParent parents trialId parent

/-! ## Frozen plans -/

/-- `FrozenResearchPlan`. -/
structure FrozenResearchPlan (F : Type) [PyFloat F] [PyRuntime] [DatetimeForms] where
  /-- The members of the document that the ledger does not read. -/
  declarations : List (String × Json F)
  trials : List (TrialSpec F)
  correction : MultipleTestingPolicy F
  killCriteria : List (KillCriterion F)
  frozenAt : String
  trials_nonempty : trials ≠ []
  trials_nodup : (trials.map TrialSpec.trialId).Nodup
  familySize_eq : correction.familySize = trials.length
  killCriteria_valid : killCriteria ≠ [] ∧ (killCriteria.map KillCriterion.name).Nodup
  lineage : validateLineage trials = .ok ()
  frozenAt_valid : ∃ t, parseUtc frozenAt "frozen_at" = .ok t

namespace FrozenResearchPlan

variable {F : Type} [PyFloat F] [PyRuntime] [DatetimeForms] (plan : FrozenResearchPlan F)

def trialIds : List String := plan.trials.map TrialSpec.trialId

def toDict : Json F :=
  .obj (plan.declarations ++
    [("trials", .arr (plan.trials.map TrialSpec.toDict)),
      ("correction", plan.correction.toDict),
      ("kill_criteria", .arr (plan.killCriteria.map KillCriterion.toDict)),
      ("frozen_at", .str plan.frozenAt)])

/-- `plan_hash`. -/
def planHash [FloatText F] : Except GovernanceError String := do
  return sha256 (← canonicalBytes plan.toDict)

end FrozenResearchPlan

end SignalFoundry.ResearchLedger
