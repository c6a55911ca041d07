import SignalFoundry.AlphaForge.ResearchLedger.Corrections
import SignalFoundry.AlphaForge.ResearchLedger.Evidence
import SignalFoundry.AlphaForge.ResearchLedger.Registrations

/-!
# The evaluation of a finished family

A family all of whose trials have ended is evaluated exactly when the evaluation can take
in what the ledger has accepted: the integers among the metrics of the kill criteria are
in the range of a float, and the family and the reasons of each trial fit the bounds on a
JSON value. What it then records is complete and correct.
-/

namespace SignalFoundry.ResearchLedger

open Fallible

/-! ## Kill criteria -/

section Criteria

variable {F : Type} [PyFloat F]

/-- Whether a criterion kills a trial with some metrics: unless its metric is a number
that does not trigger it. -/
def KillCriterion.Kills (criterion : KillCriterion F) (metrics : List (String × Json F)) : Bool :=
  match (metrics.lookup criterion.metric).bind number? with
  | some (.ok value) => criterion.triggered value
  | _ => true

/-- Whether the metric of a criterion can be converted, if it is a number. -/
def KillCriterion.Readable (criterion : KillCriterion F) (metrics : List (String × Json F)) :
    Prop :=
  ∀ n, metrics.lookup criterion.metric = some (.int n) → PyFloat.ofInt (F := F) n ≠ none

theorem KillCriterion.kills_eq_false_iff {criterion : KillCriterion F}
    {metrics : List (String × Json F)} : criterion.Kills metrics = false ↔
      ∃ value : F, (metrics.lookup criterion.metric).bind number? = some (.ok value) ∧
        criterion.triggered value = false := by
  unfold KillCriterion.Kills
  split
  · next value hvalue => simp [hvalue]
  · next hnot => simpa using fun value hvalue => (hnot value hvalue).elim

theorem criterionTriggers_eq_ok_iff {criterion : KillCriterion F}
    {metrics : List (String × Json F)} {triggers : Bool} :
    criterionTriggers criterion (.obj metrics) = .ok triggers ↔
      criterion.Readable metrics ∧ triggers = criterion.Kills metrics := by
  unfold criterionTriggers KillCriterion.Kills KillCriterion.Readable member?
  dsimp only
  cases metrics.lookup criterion.metric with
  | none => simp [eq_comm]
  | some value =>
      cases value with
      | int n =>
          simp only [Option.bind_some, number?, floatOf]
          cases hfloat : PyFloat.ofInt (F := F) n with
          | none => simp [hfloat]
          | some x => simp [hfloat, eq_comm]
      | float x => simp [number?, eq_comm]
      | null | bool _ | str _ | arr _ | obj _ => simp [number?, eq_comm]

theorem triggeredNames_eq_ok_iff {metrics : List (String × Json F)}
    {criteria : List (KillCriterion F)} {names : List String} :
    triggeredNames (.obj metrics) criteria = .ok names ↔
      (∀ criterion ∈ criteria, criterion.Readable metrics) ∧
        names = (criteria.filter (·.Kills metrics)).map KillCriterion.name := by
  induction criteria generalizing names with
  | nil => simp [triggeredNames, eq_comm]
  | cons criterion rest ih =>
      simp only [triggeredNames, bind_eq_ok_iff, criterionTriggers_eq_ok_iff, pure_eq_ok,
        Except.ok.injEq, ih, List.forall_mem_cons]
      constructor
      · rintro ⟨_, ⟨hreadable, rfl⟩, _, ⟨hrest, rfl⟩, rfl⟩
        refine ⟨⟨hreadable, hrest⟩, ?_⟩
        cases hkills : criterion.Kills metrics <;> simp [hkills]
      · rintro ⟨⟨hreadable, hrest⟩, rfl⟩
        refine ⟨_, ⟨hreadable, rfl⟩, _, ⟨hrest, rfl⟩, ?_⟩
        cases hkills : criterion.Kills metrics <;> simp [hkills]

end Criteria

/-! ## Freezing an evaluation -/

section Freezing

variable {F : Type} [PyFloat F]

theorem freezeMembers_eq_ok_iff {field : String} {frozen : List String}
    {members : List (String × Json F)} : freezeMembers field frozen members = .ok () ↔
      (∀ key ∈ members.map Prod.fst, key ≠ "" ∧ key ∉ frozen) ∧ (members.map Prod.fst).Nodup ∧
        ∀ m ∈ members, freezeJson field m.2 = .ok () := by
  induction members generalizing frozen with
  | nil => simp [freezeMembers]
  | cons m rest ih =>
      obtain ⟨key, item⟩ := m
      rw [freezeMembers]
      simp only [bind_eq_ok_iff, refuseIf_eq_ok_iff, ih, not_or]
      rw [List.map_cons, List.forall_mem_cons, List.forall_mem_cons, List.nodup_cons]
      constructor
      · rintro ⟨-, hkey, _, hitem, hkeys, hnodup, hrest⟩
        refine ⟨⟨hkey, fun other hother => ⟨(hkeys other hother).1, fun hmem => ?_⟩⟩,
          ⟨fun hmem => ?_, hnodup⟩, freezeJson_field _ hitem, hrest⟩
        · exact (hkeys other hother).2 (List.mem_cons_of_mem key hmem)
        · exact (hkeys key hmem).2 List.mem_cons_self
      · rintro ⟨⟨hkey, hkeys⟩, ⟨hnew, hnodup⟩, hitem, hrest⟩
        refine ⟨(), hkey, (), freezeJson_field _ hitem, fun other hother =>
          ⟨(hkeys other hother).1, fun hmem => ?_⟩, hnodup, hrest⟩
        rcases List.mem_cons.mp hmem with rfl | hmem
        · exact hnew hother
        · exact (hkeys other hother).2 hmem

/-- A mapping of named values is frozen when it is not too large and every value can be. -/
theorem freezeJson_named_iff {α : Type} {field : String} {l : List (String × α)}
    (f : α → Json F) (hnodup : (l.map Prod.fst).Nodup) (hne : "" ∉ l.map Prod.fst) :
    freezeJson field (.obj (l.map fun p => (p.1, f p.2))) = .ok () ↔
      l.length ≤ 10000 ∧ ∀ p ∈ l, freezeJson field (f p.2) = .ok () := by
  have hkeys : (l.map fun p => (p.1, f p.2)).map Prod.fst = l.map Prod.fst := by
    rw [List.map_map]
    rfl
  rw [freezeJson, bind_eq_ok_iff]
  simp only [refuseIf_eq_ok_iff, freezeMembers_eq_ok_iff, hkeys, List.length_map, not_lt,
    List.forall_mem_map]
  constructor
  · rintro ⟨-, hsize, -, -, hitems⟩
    exact ⟨hsize, hitems⟩
  · rintro ⟨hsize, hitems⟩
    refine ⟨(), hsize, fun p hp => ⟨fun hempty => hne ?_, by simp⟩, hnodup, hitems⟩
    exact hempty ▸ List.mem_map_of_mem hp

theorem freezeItems_str (field : String) (index : ℕ) (texts : List String) :
    freezeItems field index (texts.map .str : List (Json F)) = .ok () := by
  induction texts generalizing index with
  | nil => simp [freezeItems]
  | cons text rest ih =>
      rw [List.map_cons, freezeItems, freezeJson_str, ok_bind, ih]

theorem freezeJson_texts_iff {field : String} {texts : List String} :
    freezeJson field (.arr (texts.map .str) : Json F) = .ok () ↔ texts.length ≤ 100000 := by
  rw [freezeJson, bind_eq_ok_iff]
  simp [freezeItems_str]

end Freezing

/-! ## The evaluation of the evidence -/

section Evidence

variable {F : Type} [PyFloat F]

/-- The reasons for which a trial is killed, given whether its hypothesis is rejected. -/
def Evidence.reasons (e : Evidence F) (criteria : List (KillCriterion F)) (rejected : Bool) :
    List String :=
  (if e.succeeded then [] else ["trial_failed"]) ++
    (criteria.filter (·.Kills e.metrics)).map KillCriterion.name ++
      (if rejected then [] else ["multiplicity_adjusted_evidence"])

theorem Evidence.reasons_eq_nil_iff {e : Evidence F} {criteria : List (KillCriterion F)}
    {rejected : Bool} : e.reasons criteria rejected = [] ↔ e.succeeded = true ∧ rejected = true ∧
      ∀ criterion ∈ criteria, ∃ value : F,
        (e.metrics.lookup criterion.metric).bind number? = some (.ok value) ∧
          criterion.triggered value = false := by
  unfold Evidence.reasons
  cases e.succeeded <;> cases rejected <;> simp [KillCriterion.kills_eq_false_iff]

theorem killedReasons_eq_ok_iff [PyRuntime] [DatetimeForms] {plan : FrozenResearchPlan F}
    {e : Evidence F} {rejected : Bool} {reasons : List String} :
    killedReasons plan (!e.succeeded) rejected (.obj e.metrics) = .ok reasons ↔
      (∀ criterion ∈ plan.killCriteria, criterion.Readable e.metrics) ∧
        reasons = e.reasons plan.killCriteria rejected := by
  simp only [killedReasons, bind_eq_ok_iff, triggeredNames_eq_ok_iff, pure_eq_ok,
    Except.ok.injEq]
  constructor
  · rintro ⟨_, ⟨hreadable, rfl⟩, rfl⟩
    refine ⟨hreadable, ?_⟩
    unfold Evidence.reasons
    cases e.succeeded <;> simp
  · rintro ⟨hreadable, rfl⟩
    refine ⟨_, ⟨hreadable, rfl⟩, ?_⟩
    unfold Evidence.reasons
    cases e.succeeded <;> simp

end Evidence

section Exact

variable {limit : ℕ} [PyRuntime] [DatetimeForms]
  {plan : FrozenResearchPlan (ExactFloat limit)} {evidence : List (Evidence (ExactFloat limit))}

/-- The p-values of a family, by trial. -/
def pValuesOf (evidence : List (Evidence (ExactFloat limit))) :
    List (String × ExactFloat limit) :=
  evidence.map fun e => (e.trialId, e.pValue)

/-- What the procedure of the plan decides on the hypothesis of a trial, among the p-values
of all of them. -/
def Decides (plan : FrozenResearchPlan (ExactFloat limit))
    (evidence : List (Evidence (ExactFloat limit))) (e : Evidence (ExactFloat limit))
    (rejected : Bool) : Prop :=
  ∃ ordered : List (String × ExactFloat limit), ordered.Perm (pValuesOf evidence) ∧
    ordered.Pairwise (fun a b => a.2 ≤ b.2) ∧
      ((e.trialId, e.pValue), rejected) ∈ ordered.zip
        (plan.correction.method.rejections plan.correction.alpha (ordered.map Prod.snd))

/-- What the evaluation has to take in. -/
structure Digestible (plan : FrozenResearchPlan (ExactFloat limit))
    (evidence : List (Evidence (ExactFloat limit)))
    (records : List (Record (ExactFloat limit))) : Prop where
  family : plan.trials.length ≤ 10000
  readable : ∀ e ∈ evidence, ∀ criterion ∈ plan.killCriteria, criterion.Readable e.metrics
  reasons : ∀ e ∈ evidence, ∀ rejected, Decides plan evidence e rejected →
    (e.reasons plan.killCriteria rejected).length ≤ 100000
  /-- The number of the next record can be written. -/
  numbered : (Nat.toDigits 10 (records.length + 1)).length ≤ Json.maxIntegerDigits

/-- A complete and correct evaluation of the evidence on a family. -/
structure FamilyEvaluation.Correct (evaluation : FamilyEvaluation (ExactFloat limit))
    (plan : FrozenResearchPlan (ExactFloat limit))
    (evidence : List (Evidence (ExactFloat limit))) : Prop where
  method_eq : evaluation.method = plan.correction.method
  alpha_eq : evaluation.alpha = plan.correction.alpha
  raw_eq : evaluation.rawPValues = pValuesOf evidence
  adjusted : (evaluation.adjustedPValues.map Prod.fst).Perm plan.trialIds
  rejected : evaluation.rejected.map Prod.fst = plan.trialIds
  /-- The rejected trials, in any order of nondecreasing p-values. -/
  rejections : ∀ ordered : List (String × ExactFloat limit), ordered.Perm (pValuesOf evidence) →
    ordered.Pairwise (fun a b => a.2 ≤ b.2) →
      ordered.map (fun p => (evaluation.rejected.lookup p.1).getD false) =
        plan.correction.method.rejections plan.correction.alpha (ordered.map Prod.snd)
  killed : evaluation.killed.map Prod.fst = plan.trialIds
  /-- A trial survives when it succeeded, is rejected, and has a number that does not
  trigger it for every kill criterion. -/
  survives : ∀ e ∈ evidence, ∃ reasons, (e.trialId, reasons) ∈ evaluation.killed ∧
    (reasons = [] ↔ e.succeeded = true ∧ evaluation.rejected.lookup e.trialId = some true ∧
      ∀ criterion ∈ plan.killCriteria, ∃ value,
        (e.metrics.lookup criterion.metric).bind number? = some (.ok value) ∧
          criterion.triggered value = false)

/-- The evaluation of the evidence, given the corrections. -/
def evaluationOf (plan : FrozenResearchPlan (ExactFloat limit))
    (evidence : List (Evidence (ExactFloat limit)))
    (adjusted : OrderedDict String (ExactFloat limit)) (rejected : OrderedDict String Bool) :
    FamilyEvaluation (ExactFloat limit) where
  method := plan.correction.method
  alpha := plan.correction.alpha
  rawPValues := pValuesOf evidence
  adjustedPValues := adjusted.items
  rejected := rejected.items
  killed := evidence.map fun e => (e.trialId, e.reasons plan.killCriteria
    (rejected.getD e.trialId false))

variable {records : List (Record (ExactFloat limit))}

omit [PyRuntime] [DatetimeForms] in
theorem map_fst_pValuesOf : (pValuesOf evidence).map Prod.fst = evidence.map Evidence.trialId := by
  rw [pValuesOf, List.map_map]
  rfl

theorem familyEvaluation_eq_ok_iff [FloatText (ExactFloat limit)]
    (hledger : LedgerOf plan records) (hevidence : FamilyEvidence plan records evidence)
    {adjusted : OrderedDict String (ExactFloat limit)} {rejected : OrderedDict String Bool}
    (hadjust : adjustPValues plan.correction (pValuesOf evidence) = .ok (adjusted, rejected))
    {evaluation : FamilyEvaluation (ExactFloat limit)} :
    familyEvaluation plan records = .ok evaluation ↔
      (∀ e ∈ evidence, ∀ criterion ∈ plan.killCriteria, criterion.Readable e.metrics) ∧
        evaluation = evaluationOf plan evidence adjusted rejected ∧
          evaluation.postInit = .ok () := by
  have hread : ∀ e ∈ evidence, trialEvidence plan.correction records (statesOf records) e.trialId =
      .ok (e.pValue, .obj e.metrics) := fun e he =>
    (trialEvidence_eq hledger (hevidence.recorded e he) plan.correction).1
  have hfailed : ∀ e ∈ evidence, decide ((statesOf records).get? e.trialId = some .failed) =
      !e.succeeded := fun e he =>
    (trialEvidence_eq hledger (hevidence.recorded e he) plan.correction).2
  have hmap : (plan.trialIds.mapM fun trialId => do
      return (trialId, ← trialEvidence plan.correction records (statesOf records) trialId)) =
        .ok (evidence.map fun e => (e.trialId, e.pValue, Json.obj e.metrics)) := by
    rw [← hevidence.complete, List.mapM_map]
    refine mapM_eq_ok_map fun e he => ?_
    rw [Function.comp_apply, hread e he]
    rfl
  have hvalues : ((evidence.map fun e => (e.trialId, e.pValue, Json.obj e.metrics)).map
      fun p => (p.1, p.2.1)) = pValuesOf evidence := by
    rw [List.map_map]
    rfl
  have hkilled : ∀ killed, ((evidence.map fun e => (e.trialId, e.pValue, Json.obj e.metrics)).mapM
      fun p => do
        return (p.1, ← killedReasons plan ((statesOf records).get? p.1 = some TrialStatus.failed)
          (rejected.getD p.1 false) p.2.2)) = .ok killed ↔
        (∀ e ∈ evidence, ∀ criterion ∈ plan.killCriteria, criterion.Readable e.metrics) ∧
          killed = evidence.map fun e => (e.trialId, e.reasons plan.killCriteria
            (rejected.getD e.trialId false)) := by
    intro killed
    rw [List.mapM_map]
    refine mapM_eq_ok_iff fun e he y => ?_
    simp only [Function.comp_apply, hfailed e he, bind_eq_ok_iff, killedReasons_eq_ok_iff,
      pure_eq_ok, Except.ok.injEq]
    constructor
    · rintro ⟨_, ⟨hreadable, rfl⟩, rfl⟩
      exact ⟨hreadable, rfl⟩
    · rintro ⟨hreadable, rfl⟩
      exact ⟨_, ⟨hreadable, rfl⟩, rfl⟩
  unfold familyEvaluation
  dsimp only
  rw [hmap, ok_bind, hvalues, hadjust, ok_bind]
  dsimp only
  rw [bind_eq_ok_iff]
  simp only [hkilled]
  simp only [bind_eq_ok_iff, pure_eq_ok, Except.ok.injEq]
  constructor
  · rintro ⟨_, ⟨hreadable, rfl⟩, _, hfrozen, rfl⟩
    exact ⟨hreadable, rfl, hfrozen⟩
  · rintro ⟨hreadable, rfl, hfrozen⟩
    exact ⟨_, ⟨hreadable, rfl⟩, (), hfrozen, rfl⟩

omit [PyRuntime] [DatetimeForms] in
theorem freezeJson_float (field : String) (x : ExactFloat limit) :
    freezeJson field (.float x) = .ok () := by
  rw [freezeJson, refuseIf_of_not (by simp)]

theorem postInit_evaluationOf_iff {adjusted : OrderedDict String (ExactFloat limit)}
    {rejected : OrderedDict String Bool} (hcomplete : evidence.map Evidence.trialId = plan.trialIds)
    (hadjusted : adjusted.keys.Perm plan.trialIds) (hrejected : rejected.keys = plan.trialIds) :
    (evaluationOf plan evidence adjusted rejected).postInit = .ok () ↔
      plan.trials.length ≤ 10000 ∧ ∀ e ∈ evidence,
        (e.reasons plan.killCriteria (rejected.getD e.trialId false)).length ≤ 100000 := by
  have hnodup : plan.trialIds.Nodup := plan.trials_nodup
  have hne : "" ∉ plan.trialIds := by
    intro hmem
    obtain ⟨spec, -, hid⟩ := List.mem_map.mp hmem
    have hvalid := spec.trialId_valid
    rw [hid] at hvalid
    simp [isIdentifier] at hvalid
  have hlength : evidence.length = plan.trials.length := by
    have hmap : (evidence.map Evidence.trialId).length = evidence.length := List.length_map _
    rw [← hmap, hcomplete, FrozenResearchPlan.trialIds, List.length_map]
  have hkilled : (evaluationOf plan evidence adjusted rejected).killed.map Prod.fst =
      plan.trialIds := by
    rw [← hcomplete, evaluationOf, List.map_map]
    rfl
  have hraw : (evaluationOf plan evidence adjusted rejected).rawPValues.map Prod.fst =
      plan.trialIds := map_fst_pValuesOf.trans hcomplete
  have hkilledIff : freezeJson "killed" (evaluationOf plan evidence adjusted rejected).killedJson =
      .ok () ↔ _ := freezeJson_named_iff (F := ExactFloat limit)
    (fun reasons => .arr (reasons.map .str)) (hkilled ▸ hnodup) (hkilled ▸ hne)
  simp only [freezeJson_texts_iff] at hkilledIff
  simp only [FamilyEvaluation.postInit, bind_eq_ok_iff]
  constructor
  · rintro ⟨_, hrawFrozen, _, -, _, -, hkilledFrozen⟩
    have hsize := ((freezeJson_named_iff Json.float (hraw ▸ hnodup) (hraw ▸ hne)).mp hrawFrozen).1
    refine ⟨?_, fun e he => ?_⟩
    · rw [← hlength]
      simpa [evaluationOf, pValuesOf] using hsize
    · exact (hkilledIff.mp hkilledFrozen).2 (e.trialId, _) (List.mem_map.mpr ⟨e, he, rfl⟩)
  · rintro ⟨hsize, hreasons⟩
    have hadjustedSize : adjusted.items.length ≤ 10000 := by
      have hkeys := hadjusted.length_eq
      rw [OrderedDict.keys, List.length_map] at hkeys
      exact (hkeys.trans (List.length_map _)).trans_le hsize
    have hrejectedSize : rejected.items.length ≤ 10000 := by
      have hkeys := congrArg List.length hrejected
      rw [OrderedDict.keys, List.length_map] at hkeys
      exact (hkeys.trans (List.length_map _)).trans_le hsize
    have hrejectedNe : "" ∉ rejected.keys := hrejected ▸ hne
    refine ⟨(), (freezeJson_named_iff Json.float (hraw ▸ hnodup) (hraw ▸ hne)).mpr
      ⟨?_, fun p _ => freezeJson_float _ _⟩, (), (freezeJson_named_iff Json.float
        (hadjusted.nodup_iff.mpr hnodup) (fun hmem => hne (hadjusted.mem_iff.mp hmem))).mpr
          ⟨hadjustedSize, fun p _ => freezeJson_float _ _⟩, (), (freezeJson_named_iff Json.bool
            (hrejected ▸ hnodup : rejected.keys.Nodup) hrejectedNe).mpr
              ⟨hrejectedSize, fun p _ => by simp [freezeJson]⟩, hkilledIff.mpr ⟨?_, ?_⟩⟩
    · simpa [evaluationOf, pValuesOf, hlength] using hsize
    · simpa [evaluationOf, hlength] using hsize
    · intro p hp
      obtain ⟨e, he, rfl⟩ := List.mem_map.mp hp
      exact hreasons e he

/-- The procedure decides on a trial what the code finds. -/
theorem decides_iff {rejected : OrderedDict String Bool}
    (hcorrected : Corrected plan.correction (pValuesOf evidence) rejected)
    {e : Evidence (ExactFloat limit)} (he : e ∈ evidence) {decision : Bool} :
    Decides plan evidence e decision ↔ decision = rejected.getD e.trialId false := by
  constructor
  · rintro ⟨ordered, hperm, hsorted, hmem⟩
    rw [← hcorrected.rejections ordered hperm hsorted] at hmem
    obtain ⟨i, hi, hget⟩ := List.mem_iff_getElem.mp hmem
    rw [List.getElem_zip, List.getElem_map, Prod.mk.injEq] at hget
    rw [← hget.2, hget.1]
  · rintro rfl
    have hperm := perm_orderedPValues (pValuesOf evidence)
    have hsorted := pairwise_orderedPValues (pValuesOf evidence)
    refine ⟨_, hperm, hsorted, ?_⟩
    rw [← hcorrected.rejections _ hperm hsorted]
    have hmem : (e.trialId, e.pValue) ∈ orderedPValues (pValuesOf evidence) :=
      hperm.mem_iff.mpr (List.mem_map.mpr ⟨e, he, rfl⟩)
    obtain ⟨i, hi, hget⟩ := List.mem_iff_getElem.mp hmem
    refine List.mem_iff_getElem.mpr ⟨i, by simpa using hi, ?_⟩
    rw [List.getElem_zip, List.getElem_map, hget]

theorem correct_evaluationOf {adjusted : OrderedDict String (ExactFloat limit)}
    {rejected : OrderedDict String Bool} (hcomplete : evidence.map Evidence.trialId = plan.trialIds)
    (hadjusted : adjusted.keys.Perm plan.trialIds)
    (hcorrected : Corrected plan.correction (pValuesOf evidence) rejected) :
    (evaluationOf plan evidence adjusted rejected).Correct plan evidence where
  method_eq := rfl
  alpha_eq := rfl
  raw_eq := rfl
  adjusted := hadjusted
  rejected := (hcorrected.keys.trans map_fst_pValuesOf).trans hcomplete
  rejections := hcorrected.rejections
  killed := by
    rw [← hcomplete, evaluationOf, List.map_map]
    rfl
  survives e he := by
    refine ⟨_, List.mem_map.mpr ⟨e, he, rfl⟩, ?_⟩
    rw [Evidence.reasons_eq_nil_iff]
    refine and_congr_right fun _ => and_congr_left fun _ => ?_
    show rejected.getD e.trialId false = true ↔ rejected.get? e.trialId = some true
    unfold OrderedDict.getD
    cases rejected.get? e.trialId <;> simp

/-! ## The call -/

variable [FloatText (ExactFloat limit)] {files start : Files (ExactFloat limit)} {limits : Limits}
  {occurredAt : String}

/-- The event of an evaluation. -/
def evaluated (occurredAt : String) (evaluation : FamilyEvaluation (ExactFloat limit)) :
    Event (ExactFloat limit) where
  eventType := .familyEvaluated
  trialId := none
  occurredAt := occurredAt
  payload := .details evaluation.toDict

/-- `evaluate_family` returns, under all limits that admit its record, and has recorded a
complete and correct evaluation. -/
def Evaluates (plan : FrozenResearchPlan (ExactFloat limit))
    (evidence : List (Evidence (ExactFloat limit))) (files : Files (ExactFloat limit))
    (occurredAt : String) : Prop :=
  ∃ (evaluation : FamilyEvaluation (ExactFloat limit)) (appended : Files (ExactFloat limit))
    (record : Record (ExactFloat limit)),
    evaluation.Correct plan evidence ∧ record.toEvent = evaluated occurredAt evaluation ∧
      appended.records = files.records ++ [record] ∧ ∀ limits, appended.Within limits →
        (evaluateFamily occurredAt).run limits files = (appended, .returned)

theorem run_evaluateFamily (hopen : files.Open plan)
    (hended : ∀ trialId ∈ plan.trialIds, ∃ status,
      (statesOf files.records).get? trialId = some status ∧ status.Terminal = true)
    (hwithin : files.Within limits) :
    (evaluateFamily occurredAt).run limits files =
      match familyEvaluation plan files.records with
      | .error error => (files, .raised error)
      | .ok evaluation => (Program.append (evaluated occurredAt evaluation) .returned).run limits
          files := by
  obtain ⟨w, hvalid⟩ := hopen.sound.valid
  have hverify := hvalid.verify hwithin
  obtain ⟨planHash, hplan⟩ := hopen.sound.ledgerOf.planOf?
  have hnone : (files.records.any fun record => record.eventType = .familyEvaluated) = false :=
    List.any_eq_false.mpr fun record hrecord => by simpa using hopen.unevaluated record hrecord
  have hmissing : (plan.trialIds.filter fun trialId =>
      ¬ ((statesOf files.records).get? trialId).any TrialStatus.Terminal) = [] := by
    refine List.filter_eq_nil_iff.mpr fun trialId hknown => ?_
    obtain ⟨status, hstatus, hterminal⟩ := hended trialId hknown
    simp [hstatus, hterminal]
  simp only [evaluateFamily, Program.run, hverify, hnone, hplan, hmissing, ne_eq,
    not_true_eq_false, if_false, Bool.false_eq_true]
  cases familyEvaluation plan files.records with
  | error error => rfl
  | ok evaluation => rfl

omit [PyRuntime] [DatetimeForms] [FloatText (ExactFloat limit)] in
theorem isCanonical_named {α : Type} {l : List (String × α)} {f : α → Json (ExactFloat limit)}
    (h : ∀ a, isCanonical (f a) = true) :
    isCanonical (.obj (l.map fun p => (p.1, f p.2))) = true := by
  rw [isCanonical, canonicalMembers_iff]
  intro m hm
  obtain ⟨p, -, rfl⟩ := List.mem_map.mp hm
  exact h p.2

omit [PyRuntime] [DatetimeForms] [FloatText (ExactFloat limit)] in
theorem isCanonical_toDict (evaluation : FamilyEvaluation (ExactFloat limit)) :
    isCanonical evaluation.toDict = true := by
  have hfloat : ∀ x : ExactFloat limit, isCanonical (Json.float x) = true := fun x => by
    simp [isCanonical]
  have htexts : ∀ reasons : List String,
      isCanonical (Json.arr (reasons.map .str) : Json (ExactFloat limit)) = true := by
    intro reasons
    rw [isCanonical, canonicalItems_iff]
    intro item hitem
    obtain ⟨text, -, rfl⟩ := List.mem_map.mp hitem
    simp [isCanonical]
  have hraw := isCanonical_named (l := evaluation.rawPValues) hfloat
  have hadjusted := isCanonical_named (l := evaluation.adjustedPValues) hfloat
  have hrejected := isCanonical_named (l := evaluation.rejected)
    (f := (Json.bool : Bool → Json (ExactFloat limit))) fun b => by simp [isCanonical]
  have hkilled := isCanonical_named (l := evaluation.killed) htexts
  simp [FamilyEvaluation.toDict, isCanonical, canonicalMembers, FamilyEvaluation.rawJson,
    FamilyEvaluation.adjustedJson, FamilyEvaluation.rejectedJson, FamilyEvaluation.killedJson] at *
  exact ⟨hraw, hadjusted, hrejected, hkilled⟩

omit [PyRuntime] [DatetimeForms] [FloatText (ExactFloat limit)] in
theorem freezeJson_toDict {evaluation : FamilyEvaluation (ExactFloat limit)}
    (h : evaluation.postInit = .ok ()) : freezeJson "payload" evaluation.toDict = .ok () := by
  simp only [FamilyEvaluation.postInit, bind_eq_ok_iff] at h
  obtain ⟨_, hraw, _, hadjusted, _, hrejected, hkilled⟩ := h
  exact freezeJson_obj (by simp)
    (freezeMembers_cons (by simp) (freezeJson_str _ _)
      (freezeMembers_cons (by simp) (freezeJson_float _ _)
        (freezeMembers_cons (by simp) (freezeJson_field _ hraw)
          (freezeMembers_cons (by simp) (freezeJson_field _ hadjusted)
            (freezeMembers_cons (by simp) (freezeJson_field _ hrejected)
              (freezeMembers_cons (by simp) (freezeJson_field _ hkilled)
                (by rw [freezeMembers])))))))

/-- The p-values of a family are in the unit interval. -/
theorem Files.Open.pValue_mem (hopen : files.Open plan) {e : Evidence (ExactFloat limit)}
    (he : e.Recorded files.records) : 0 ≤ e.pValue ∧ e.pValue ≤ 1 := by
  cases he with
  | failed => simp
  | succeeded hmem htype htrial hpayload hvalue hmetrics =>
      obtain ⟨details, hdetails, hchecked⟩ := hopen.checked _ hmem htype
      rw [hpayload] at hdetails
      cases hdetails
      obtain ⟨pValue, -, hread, -, -, hnonneg, hle⟩ := exists_of_checkDetails hchecked
      rw [hvalue] at hread
      cases hread
      exact ⟨by simpa using hnonneg, by simpa using hle⟩

/-- The record of an evaluation carries a number that can be written. -/
theorem numbered_of_append {event : Event (ExactFloat limit)} {appended : Files (ExactFloat limit)}
    (h : files.append limits event = .ok appended) :
    (Nat.toDigits 10 (files.records.length + 1)).length ≤ Json.maxIntegerDigits := by
  obtain ⟨w, record, time, hvalid, happended⟩ := append_eq_ok h
  obtain ⟨body, hbody, -⟩ := happended.chained.recordHash
  obtain ⟨hcanonical, -⟩ := canonicalBytes_eq_ok_iff.mp hbody
  rw [isCanonical, canonicalMembers_iff] at hcanonical
  have hsequence := hcanonical ("sequence", .int record.sequence) (by simp [Event.body])
  rw [happended.chained.sequence, (walk_reads hvalid.walk_eq).index] at hsequence
  rw [isCanonical, Int.natAbs_natCast] at hsequence
  exact of_decide_eq_true hsequence

/-- The corrections of the evidence on a family. -/
theorem FamilyEvidence.corrected (hopen : files.Open plan)
    (hevidence : FamilyEvidence plan files.records evidence) :
    ∃ adjusted rejected,
      adjustPValues plan.correction (pValuesOf evidence) = .ok (adjusted, rejected) ∧
        adjusted.keys.Perm plan.trialIds ∧ rejected.keys = plan.trialIds ∧
          Corrected plan.correction (pValuesOf evidence) rejected := by
  have hkeys := map_fst_pValuesOf.trans hevidence.complete
  have hlength : (pValuesOf evidence).length = plan.correction.familySize := by
    have hlength := congrArg List.length hkeys
    rw [List.length_map, FrozenResearchPlan.trialIds, List.length_map] at hlength
    exact hlength.trans plan.familySize_eq.symm
  have hrange : ∀ p ∈ pValuesOf evidence, 0 ≤ p.2 ∧ p.2 ≤ 1 := by
    intro p hp
    obtain ⟨e, he, rfl⟩ := List.mem_map.mp hp
    exact hopen.pValue_mem (hevidence.recorded e he)
  obtain ⟨adjusted, rejected, hadjust, hadjusted, hcorrected⟩ :=
    adjustPValues_corrected hlength (hkeys.symm ▸ plan.trials_nodup) hrange
  exact ⟨adjusted, rejected, hadjust, hkeys ▸ hadjusted, hcorrected.keys.trans hkeys, hcorrected⟩

/-- A family that is evaluated was digestible. -/
theorem FamilyEvidence.digestible (hopen : files.Open plan)
    (hevidence : FamilyEvidence plan files.records evidence)
    (hended : ∀ trialId ∈ plan.trialIds, ∃ status,
      (statesOf files.records).get? trialId = some status ∧ status.Terminal = true)
    (hevaluates : Evaluates plan evidence files occurredAt) :
    Digestible plan evidence files.records := by
  obtain ⟨adjusted, rejected, hadjust, hadjusted, hrejected, hcorrected⟩ :=
    hevidence.corrected hopen
  obtain ⟨evaluation, appended, record, -, -, hrecords, hreturns⟩ := hevaluates
  obtain ⟨enough, hwithin⟩ := exists_within appended
  have hreturned := hreturns enough hwithin
  rw [run_evaluateFamily hopen hended (hwithin.of_prefix ⟨[record], hrecords.symm⟩)] at hreturned
  cases hfamily : familyEvaluation plan files.records with
  | error error =>
      rw [hfamily] at hreturned
      cases (Prod.mk.inj hreturned).2
  | ok found =>
      obtain ⟨hreadable, rfl, hfrozen⟩ :=
        (familyEvaluation_eq_ok_iff hopen.sound.ledgerOf hevidence hadjust).mp hfamily
      obtain ⟨hsize, hreasons⟩ :=
        (postInit_evaluationOf_iff hevidence.complete hadjusted hrejected).mp hfrozen
      rw [hfamily] at hreturned
      simp only [Program.run] at hreturned
      cases happend : files.append enough
          (evaluated occurredAt (evaluationOf plan evidence adjusted rejected)) with
      | error error =>
          rw [happend] at hreturned
          cases (Prod.mk.inj hreturned).2
      | ok after =>
          refine ⟨hsize, hreadable, fun e he decision hdecides => ?_, numbered_of_append happend⟩
          rw [(decides_iff hcorrected he).mp hdecides]
          exact hreasons e he

/-- In every run of registrations and transitions after which each trial of the plan has
ended, an evaluation not before the last event returns, complete and correct, exactly when
it can take in what the ledger has accepted. -/
theorem evaluates_iff_digestible (hcreate : create limits plan = .ok start)
    (hrun : Sequential start files) (hended : ∀ trialId ∈ plan.trialIds, ∃ status,
      (statesOf files.records).get? trialId = some status ∧ status.Terminal = true)
    {last : Record (ExactFloat limit)} (hlast : files.records.getLast? = some last)
    {field : String} {time previous : ℕ} (htime : parseUtc occurredAt field = .ok time)
    (hprevious : parseUtc last.occurredAt field = .ok previous) (hordered : previous ≤ time) :
    ∃ evidence, FamilyEvidence plan files.records evidence ∧
      (Evaluates plan evidence files occurredAt ↔ Digestible plan evidence files.records) := by
  have hopen := hrun.open (create_open hcreate)
  obtain ⟨w, hvalid⟩ := hopen.sound.valid
  obtain ⟨evidence, hevidence⟩ := hopen.exists_familyEvidence hended
  refine ⟨evidence, hevidence, hevidence.digestible hopen hended, fun hdigestible => ?_⟩
  obtain ⟨adjusted, rejected, hadjust, hadjusted, hrejected, hcorrected⟩ :=
    hevidence.corrected hopen
  have hfrozen := (postInit_evaluationOf_iff hevidence.complete hadjusted hrejected).mpr
    ⟨hdigestible.family, fun e he =>
      hdigestible.reasons e he _ ((decides_iff hcorrected he).mpr rfl)⟩
  have hfamily := (familyEvaluation_eq_ok_iff hopen.sound.ledgerOf hevidence hadjust).mpr
    ⟨hdigestible.readable, rfl, hfrozen⟩
  obtain ⟨appended, record, hevent, hrecords, happend⟩ := exists_appended
    (evaluated occurredAt (evaluationOf plan evidence adjusted rejected)) hvalid hlast htime
      hprevious hordered (freezeJson_toDict hfrozen) (isCanonical_toDict _) hdigestible.numbered
  refine ⟨_, appended, record, correct_evaluationOf hevidence.complete hadjusted hcorrected,
    hevent, hrecords, fun enough hwithin => ?_⟩
  rw [run_evaluateFamily hopen hended (hwithin.of_prefix ⟨[record], hrecords.symm⟩), hfamily]
  simp only [Program.run, happend enough hwithin]

end Exact

end SignalFoundry.ResearchLedger
