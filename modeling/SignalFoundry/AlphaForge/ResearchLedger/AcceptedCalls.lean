import SignalFoundry.AlphaForge.ResearchLedger.Evaluations

/-!
# Calls that are accepted

A registration of a trial without a status and a transition that the table allows are
accepted under large enough limits. So a ledger can accept a success whose metrics the
evaluation of the family cannot convert, after which the family is never evaluated.
-/

namespace SignalFoundry.ResearchLedger

open Fallible

section Accepted

variable {F : Type} [PyFloat F] [FloatText F] [PyRuntime] [DatetimeForms]
  {plan : FrozenResearchPlan F} {start files : Files F} {trialId occurredAt : String}
  {count : ℕ} {status : Option TrialStatus}

/-- A ledger that a run has left, all of whose events have one time, and the status of a
trial in it. -/
structure Standing (start files : Files F) (trialId occurredAt : String) (count : ℕ)
    (status : Option TrialStatus) : Prop where
  sequential : Sequential start files
  count_eq : files.records.length = count
  last : ∃ last, files.records.getLast? = some last ∧ last.occurredAt = occurredAt
  status_eq : (statesOf files.records).get? trialId = status

theorem create_standing {limits : Limits} (h : create limits plan = .ok start) (trialId : String) :
    Standing start start trialId plan.frozenAt 1 none := by
  unfold create at h
  obtain ⟨planHash, -, h⟩ := bind_eq_ok_iff.mp h
  obtain ⟨time, -, h⟩ := bind_eq_ok_iff.mp h
  obtain ⟨_, -, h⟩ := bind_eq_ok_iff.mp h
  obtain ⟨record, hevent, -, -, -, hrecords, -, -⟩ := write_eq_ok h
  refine ⟨.start, by rw [hrecords]; rfl, ⟨record, by rw [hrecords]; rfl, by rw [hevent]⟩, ?_⟩
  rw [hrecords]
  rfl

/-- An event of a trial that can be written is appended under some limits. -/
theorem Standing.exists_appended (h : Standing start files trialId occurredAt count status)
    (hstart : start.Open plan) {time : ℕ} (htime : parseUtc occurredAt "occurred_at" = .ok time)
    (hdigits : (Nat.toDigits 10 (count + 1)).length ≤ Json.maxIntegerDigits)
    (event : Event F) (hoccurred : event.occurredAt = occurredAt)
    (hfreeze : freezeJson "payload" event.payload.toJson = .ok ())
    (hcanonical : isCanonical event.payload.toJson = true) :
    ∃ limits appended, files.verify limits = .ok files.records ∧
      files.append limits event = .ok appended ∧
        ∃ record : Record F, record.toEvent = event ∧
          appended.records = files.records ++ [record] := by
  obtain ⟨w, hvalid⟩ := (h.sequential.open hstart).sound.valid
  obtain ⟨last, hlast, hlastTime⟩ := h.last
  obtain ⟨appended, record, hevent, hrecords, happend⟩ :=
    ResearchLedger.exists_appended event hvalid hlast (hoccurred ▸ htime) (hlastTime ▸ htime) le_rfl
      hfreeze hcanonical (h.count_eq ▸ hdigits)
  obtain ⟨limits, hwithin⟩ := exists_within appended
  exact ⟨limits, appended, hvalid.verify (hwithin.of_prefix ⟨[record], hrecords.symm⟩),
    happend limits hwithin, record, hevent, hrecords⟩

theorem Standing.append (h : Standing start files trialId occurredAt count status)
    {appended : Files F} (hsequential : Sequential start appended) {record : Record F}
    (hrecords : appended.records = files.records ++ [record]) {next : TrialStatus}
    (htype : record.eventType = .trial next) (htrial : record.trialId = some trialId)
    (htime : record.occurredAt = occurredAt) :
    Standing start appended trialId occurredAt (count + 1) (some next) := by
  have hne : files.records ≠ [] := by
    obtain ⟨last, hlast, -⟩ := h.last
    rintro hnil
    rw [hnil] at hlast
    cases hlast
  refine ⟨hsequential, ?_, ⟨record, by rw [hrecords, List.getLast?_concat], htime⟩, ?_⟩
  · rw [hrecords, List.length_append, h.count_eq, List.length_singleton]
  · rw [hrecords, statesOf_concat hne, htype, htrial]
    exact OrderedDict.get?_set_self _ _ _

/-- The registration of a trial of the plan is accepted. -/
theorem Standing.registers (spec : TrialSpec F)
    (h : Standing start files spec.trialId occurredAt count none) (hstart : start.Open plan)
    {time : ℕ} (htime : parseUtc occurredAt "occurred_at" = .ok time)
    (hdigits : (Nat.toDigits 10 (count + 1)).length ≤ Json.maxIntegerDigits)
    (hmem : spec ∈ plan.trials) :
    ∃ appended : Files F, Standing start appended spec.trialId occurredAt (count + 1)
      (some .registered) := by
  have hledger := (h.sequential.open hstart).sound.ledgerOf
  obtain ⟨planHash, hplan⟩ := hledger.planOf?
  have hhash : plan.planHash = .ok planHash := by
    obtain ⟨-, first, hfirst, -, -, planHash', hpayload, hhash⟩ := hledger
    rw [planOf?, Option.mem_def.mp hfirst] at hplan
    simp only [hpayload, Option.some.injEq, Prod.mk.injEq, true_and] at hplan
    exact hplan ▸ hhash
  obtain ⟨limits, appended, hverify, happend, record, hevent, hrecords⟩ :=
    h.exists_appended hstart htime hdigits (registration spec occurredAt planHash) rfl
      (freeze_registration spec occurredAt planHash)
      (isCanonical_registration hmem hhash occurredAt)
  have hrun : ((registerTrial spec.trialId occurredAt).run limits files).1 = appended := by
    have hid : requireIdentifier spec.trialId "trial_id" = .ok () :=
      refuseIf_of_not (not_not.mpr spec.trialId_valid)
    rw [registration] at happend
    simp only [registerTrial, hid, Program.run, hverify, hplan, find?_of_mem hmem, h.status_eq,
      happend]
  refine ⟨appended, h.append (hrun ▸ h.sequential.register limits spec.trialId occurredAt) hrecords
    ?_ ?_ ?_⟩ <;> rw [hevent] <;> rfl

/-- A transition that the table allows is accepted with details that can be written. -/
theorem Standing.transitions (h : Standing start files trialId occurredAt count status)
    (hstart : start.Open plan) {time : ℕ} (htime : parseUtc occurredAt "occurred_at" = .ok time)
    (hdigits : (Nat.toDigits 10 (count + 1)).length ≤ Json.maxIntegerDigits)
    (hid : isIdentifier trialId = true) (next : TrialStatus) (hne : next ≠ .registered)
    (hallowed : next ∈ allowedTransitions status) (details : List (String × Json F))
    (hdetails : checkDetails next details = .ok ())
    (hcanonical : isCanonical (.obj details) = true) :
    ∃ appended : Files F, Standing start appended trialId occurredAt (count + 1) (some next) ∧
      ∃ record ∈ appended.records, record.eventType = .trial next ∧
        record.trialId = some trialId ∧ record.payload = .details (.obj details) := by
  have hfreeze : freezeJson "payload" (.obj details) = .ok () := by
    obtain ⟨_, hfrozen, -⟩ := bind_eq_ok_iff.mp hdetails
    exact freezeJson_field _ hfrozen
  obtain ⟨limits, appended, hverify, happend, record, hevent, hrecords⟩ :=
    h.exists_appended hstart htime hdigits
      { eventType := .trial next, trialId := some trialId, occurredAt := occurredAt
        payload := .details (.obj details) } rfl hfreeze hcanonical
  have hrun : ((transition trialId next occurredAt details).run limits files).1 = appended := by
    have hidentifier : requireIdentifier trialId "trial_id" = .ok () :=
      refuseIf_of_not (not_not.mpr hid)
    simp only [transition, hidentifier, hne, if_false, Program.run, hverify, h.status_eq,
      hallowed, if_true, hdetails, happend]
  refine ⟨appended, h.append (hrun ▸ h.sequential.transition limits trialId next occurredAt details)
    hrecords ?_ ?_ ?_, record, ?_, ?_, ?_, ?_⟩
  · rw [hevent]
  · rw [hevent]
  · rw [hevent]
  · rw [hrecords]
    exact List.mem_append_right _ (List.mem_singleton_self record)
  · rw [hevent]
  · rw [hevent]
  · rw [hevent]

end Accepted

/-! ## A family of one trial -/

namespace FamilySample

open Platform ExactFloat Sample

/-- The least integer that no double is near enough to. -/
def doubleLimit : ℕ := 2 ^ 1024 - 2 ^ 970

abbrev Double : Type := ExactFloat doubleLimit

def trial : TrialSpec Double where
  trialId := "trial-1"
  parentTrialId := rootTrialId
  candidate := "momentum"
  configuration := [("lookback", .int 20)]
  trialId_valid := trialId_valid
  parentTrialId_valid := root_valid
  candidate_valid := candidate_valid
  parent_ne := trial_ne_root
  configuration_valid := by simp [freezeJson, freezeMembers, refuseIf]

def criterion : KillCriterion Double where
  name := "drawdown"
  metric := "max_drawdown"
  operator := .gt
  threshold := 1 / 4
  name_valid := name_valid
  metric_valid := metric_valid
  threshold_finite := rfl

def policy : MultipleTestingPolicy Double where
  method := .holmBonferroni
  alpha := 1 / 20
  familySize := 1
  assumptions := ["independent folds"]
  alpha_mem := by decide +kernel
  assumptions_valid := assumptions_valid

def frozenAt : String := "2026-01-02T03:04:05Z"

def plan : FrozenResearchPlan Double where
  declarations := [("hypothesis", .str "trend persists"), ("test_plan", .obj [("folds", .int 5)])]
  trials := [trial]
  correction := policy
  killCriteria := [criterion]
  frozenAt := frozenAt
  trials_nonempty := nofun
  trials_nodup := List.nodup_singleton _
  familySize_eq := rfl
  killCriteria_valid := by decide +kernel
  lineage := validateLineage_of_parents (List.nodup_singleton _)
    (List.forall_mem_singleton.mpr rfl)
  frozenAt_valid := frozenAt_valid

/-- The details of a success with one metric. -/
def successWith (metric : ℤ) : List (String × Json Double) :=
  [("metrics", .obj [("max_drawdown", .int metric)]), ("p_value", .int 0)]

/-- A run that ends the trial with a success. -/
theorem exists_succeeded (metric : ℤ)
    (hcanonical : isCanonical (.obj (successWith metric)) = true)
    (hdetails : checkDetails .succeeded (successWith metric) = .ok ()) :
    ∃ (limits : Limits) (start files : Files Double), create limits plan = .ok start ∧
      Standing start files "trial-1" frozenAt 4 (some .succeeded) ∧
        ∃ record ∈ files.records, record.eventType = .trial .succeeded ∧
          record.trialId = some "trial-1" ∧
            record.payload = .details (.obj (successWith metric)) := by
  obtain ⟨limits, start, hcreate⟩ := exists_created plan (by decide) (by decide)
  have hstart := create_open hcreate
  obtain ⟨time, htime⟩ := frozenAt_valid
  have htime := parseUtc_field "occurred_at" htime
  have hcreated := create_standing hcreate "trial-1"
  obtain ⟨registered, hregistered⟩ := hcreated.registers trial hstart htime (by decide)
    (List.mem_singleton_self trial)
  obtain ⟨started, hstarted, -⟩ := hregistered.transitions hstart htime (by decide)
    trial.trialId_valid .started nofun (by decide) [("worker", .str "w-1")] (by decide)
    (by decide)
  obtain ⟨succeeded, hsucceeded, hrecord⟩ := hstarted.transitions hstart htime (by decide)
    trial.trialId_valid .succeeded nofun (by decide) _ hdetails hcanonical
  exact ⟨limits, start, succeeded, hcreate, hsucceeded, hrecord⟩

theorem ended_of_standing {start files : Files Double} {count : ℕ}
    (h : Standing start files "trial-1" frozenAt count (some .succeeded)) :
    ∀ trialId ∈ plan.trialIds, ∃ status,
      (statesOf files.records).get? trialId = some status ∧ status.Terminal = true := by
  intro trialId hknown
  obtain rfl := List.mem_singleton.mp hknown
  exact ⟨.succeeded, h.status_eq, rfl⟩

end FamilySample

open Platform ExactFloat FamilySample in
open scoped Sample in
/-- The family of one trial that succeeded without a drawdown. -/
theorem succeeded_family_evaluates_iff :
    ∃ (start files : Files Double) (evidence : List (Evidence Double)),
      Sequential start files ∧ FamilyEvidence plan files.records evidence ∧
        (Evaluates plan evidence files frozenAt ↔ Digestible plan evidence files.records) := by
  obtain ⟨limits, start, files, hcreate, hstanding, -⟩ :=
    exists_succeeded 0 (by decide +kernel) (by decide +kernel)
  obtain ⟨time, htime⟩ := Sample.frozenAt_valid
  obtain ⟨last, hlast, hlastTime⟩ := hstanding.last
  obtain ⟨evidence, hevidence, hiff⟩ := evaluates_iff_digestible hcreate hstanding.sequential
    (ended_of_standing hstanding) hlast htime (hlastTime ▸ htime) le_rfl
  exact ⟨start, files, evidence, hstanding.sequential, hevidence, hiff⟩

open Platform ExactFloat FamilySample in
open scoped Sample in
/-- A success whose drawdown is an integer beyond the range of a float is accepted, and
then the family is never evaluated. -/
theorem accepted_metric_blocks_evaluation :
    ∃ (limits : Limits) (start files : Files Double) (evidence : List (Evidence Double)),
      create limits plan = .ok start ∧ Sequential start files ∧
        (statesOf files.records).get? "trial-1" = some .succeeded ∧
          FamilyEvidence plan files.records evidence ∧
            ∀ occurredAt, ¬ Evaluates plan evidence files occurredAt := by
  obtain ⟨limits, start, files, hcreate, hstanding, record, hmem, htype, htrial, hpayload⟩ :=
    exists_succeeded (10 ^ 400) (by decide +kernel) (by decide +kernel)
  have hopen := hstanding.sequential.open (create_open hcreate)
  let e : Evidence Double := ⟨"trial-1", true, 0, [("max_drawdown", .int (10 ^ 400))]⟩
  have hrecorded : e.Recorded files.records :=
    .succeeded hmem htype htrial hpayload (by decide +kernel) rfl
  have hevidence : FamilyEvidence plan files.records [e] :=
    ⟨rfl, fun other hother => List.mem_singleton.mp hother ▸ hrecorded⟩
  refine ⟨limits, start, files, [e], hcreate, hstanding.sequential, hstanding.status_eq, hevidence,
    fun occurredAt hevaluates => ?_⟩
  have hdigestible := hevidence.digestible hopen (ended_of_standing hstanding) hevaluates
  exact hdigestible.readable e (List.mem_singleton_self e) criterion (List.mem_singleton_self _)
    (10 ^ 400) rfl (by decide +kernel)

end SignalFoundry.ResearchLedger
