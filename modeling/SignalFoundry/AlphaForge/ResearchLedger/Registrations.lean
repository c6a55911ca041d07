import SignalFoundry.AlphaForge.ResearchLedger.Lineage
import SignalFoundry.AlphaForge.ResearchLedger.Schedules
import SignalFoundry.Library.Platform

/-!
# Two registrations of one trial

Whatever the plan, two calls of `register_trial` for one of its trials, both of
which read the ledger before either appends, both return, and the ledger never
verifies again: the second registration passes every check that `_append` makes.
-/

namespace SignalFoundry.ResearchLedger

open Fallible

section Schedules

variable {F : Type} [PyFloat F] [FloatText F] [PyRuntime] [DatetimeForms]

/-! ## An append that returns -/

omit [PyRuntime] [DatetimeForms] in
theorem canonicalBytes_of {value : Json F} (h : isCanonical value = true) :
    canonicalBytes value = .ok (PyText.encodeUtf8 value.dumps) :=
  canonicalBytes_eq_ok_iff.mpr ⟨h, rfl⟩

omit [FloatText F] in
theorem isCanonical_body {event : Event F} {sequence : ℕ}
    (hpayload : isCanonical event.payload.toJson = true)
    (hdigits : (Nat.toDigits 10 sequence).length ≤ Json.maxIntegerDigits) (previousHash : String) :
    canonicalMembers (event.body sequence previousHash) = true := by
  unfold Event.body
  cases event.trialId <;> simp [canonicalMembers, isCanonical, hpayload, hdigits]

theorem ledgerBytes_length_le {records later : List (Record F)}
    (h : records <+: later) : (ledgerBytes records).length ≤ (ledgerBytes later).length := by
  obtain ⟨rest, rfl⟩ := h
  rw [ledgerBytes, ledgerBytes, List.flatMap_append, List.length_append]
  exact Nat.le_add_right _ _

theorem Files.Within.of_prefix {files later : Files F} {limits : Limits} (h : later.Within limits)
    (hbegins : files.records <+: later.records) : files.Within limits :=
  ⟨(ledgerBytes_length_le hbegins).trans h.1, hbegins.length_le.trans h.2⟩

/-- A record whose payload can be written is written under all limits that admit it. -/
theorem exists_written (event : Event F) (records : List (Record F)) (previousHash : String)
    (hpayload : isCanonical event.payload.toJson = true)
    (hdigits : (Nat.toDigits 10 (records.length + 1)).length ≤ Json.maxIntegerDigits) :
    ∃ (written : Files F) (record : Record F), record.toEvent = event ∧
      written.records = records ++ [record] ∧
        ∀ limits, written.Within limits →
          write limits records previousHash event = .ok written := by
  have hmembers := isCanonical_body hpayload hdigits previousHash
  have hbody : isCanonical (.obj (event.body (records.length + 1) previousHash)) = true := by
    rw [isCanonical]
    exact hmembers
  let record : Record F :=
    { event with
      sequence := records.length + 1
      previousHash := previousHash
      recordHash := sha256 (PyText.encodeUtf8
        (Json.obj (event.body (records.length + 1) previousHash)).dumps) }
  have hrecord : isCanonical record.toDict = true := by
    rw [Record.toDict, isCanonical, canonicalMembers_iff]
    intro m hm
    rcases List.mem_append.mp hm with hm | hm
    · exact canonicalMembers_iff.mp hmembers m hm
    · obtain rfl := List.mem_singleton.mp hm
      simp [isCanonical]
  refine ⟨⟨records ++ [record], receipt (records ++ [record]) record.recordHash⟩, record, rfl, rfl,
    fun limits hwithin => ?_⟩
  have hbytes : ¬ limits.maxBytes < (ledgerBytes records).length +
      (PyText.encodeUtf8 record.toDict.dumps ++ [10]).length := by
    have hsize := hwithin.1
    rw [ledgerBytes, List.flatMap_append, List.length_append, List.flatMap_singleton] at hsize
    exact not_lt.mpr hsize
  have hcount : ¬ limits.maxRecords < records.length + 1 := by
    have hsize := hwithin.2
    rw [List.length_append, List.length_singleton] at hsize
    exact not_lt.mpr hsize
  rw [write, refuseIf_of_not hcount, ok_bind, canonicalBytes_of hbody, ok_bind]
  exact bind_eq_ok_iff.mpr ⟨_, canonicalBytes_of hrecord,
    bind_eq_ok_iff.mpr ⟨(), refuseIf_of_not hbytes, rfl⟩⟩

/-- An event that is not earlier than the last one, and can be written, is
appended through every object whose limits admit the result. -/
theorem exists_appended {files : Files F} {w : Walk} {last : Record F} (event : Event F)
    (hvalid : files.Valid w) (hlast : files.records.getLast? = some last) {field : String}
    {time previous : ℕ} (htime : parseUtc event.occurredAt field = .ok time)
    (hprevious : parseUtc last.occurredAt field = .ok previous) (hordered : previous ≤ time)
    (hfreeze : freezeJson "payload" event.payload.toJson = .ok ())
    (hpayload : isCanonical event.payload.toJson = true)
    (hdigits : (Nat.toDigits 10 (files.records.length + 1)).length ≤ Json.maxIntegerDigits) :
    ∃ (appended : Files F) (record : Record F), record.toEvent = event ∧
      appended.records = files.records ++ [record] ∧
        ∀ limits, appended.Within limits → files.append limits event = .ok appended := by
  obtain ⟨appended, record, hevent, hrecords, hwrite⟩ :=
    exists_written event files.records last.recordHash hpayload hdigits
  refine ⟨appended, record, hevent, hrecords, fun limits hwithin => ?_⟩
  have hverify := hvalid.verify (hwithin.of_prefix ⟨[record], hrecords.symm⟩)
  rw [Files.append, parseUtc_field _ htime, ok_bind, hfreeze, ok_bind, hverify, ok_bind, hlast]
  dsimp only
  rw [parseUtc_field _ hprevious, ok_bind, refuseIf_of_not (not_lt.mpr hordered), ok_bind]
  exact hwrite limits hwithin

/-! ## The schedule -/

/-- The event that `register_trial` appends for a trial without a status. -/
def registration (spec : TrialSpec F) (occurredAt planHash : String) : Event F where
  eventType := .trial .registered
  trialId := some spec.trialId
  occurredAt := occurredAt
  payload := .details (.obj [("plan_hash", .str planHash), ("spec", spec.toDict)])

/-- Any step at any time. -/
def Anytime (_ : List (Record F)) (_ : Program F) : Prop := True

variable {plan : FrozenResearchPlan F} {files start appended : Files F} {limits : Limits}
  {before after : List (Pending F)} {spec : TrialSpec F} {occurredAt planHash : String}

theorem Reachable.called (h : Reachable Anytime start ⟨files, before⟩) (limits : Limits)
    (call : Call F) : Reachable Anytime start ⟨files, before ++ [⟨limits, call.program⟩]⟩ :=
  h.step (.call limits call) nofun

theorem Reachable.stepped {program : Program F}
    (h : Reachable Anytime start ⟨files, before ++ ⟨limits, program⟩ :: after⟩) :
    Reachable Anytime start ⟨(program.step limits files).2,
      before ++ ⟨limits, (program.step limits files).1⟩ :: after⟩ :=
  h.step (.step before after ⟨limits, program⟩ rfl) fun _ _ => trivial

theorem Reachable.reads {next : List (Record F) → Program F}
    (h : Reachable Anytime start ⟨files, before ++ ⟨limits, .verify next⟩ :: after⟩)
    (hverify : files.verify limits = .ok files.records) :
    Reachable Anytime start ⟨files, before ++ ⟨limits, next files.records⟩ :: after⟩ := by
  have hstepped := h.stepped
  simp only [Program.step, hverify] at hstepped
  exact hstepped

theorem Reachable.appends {event : Event F} {outcome : Outcome}
    (h : Reachable Anytime start ⟨files, before ++ ⟨limits, .append event outcome⟩ :: after⟩)
    (happend : files.append limits event = .ok appended) :
    Reachable Anytime start ⟨appended, before ++ ⟨limits, .ended outcome⟩ :: after⟩ := by
  have hstepped := h.stepped
  simp only [Program.step, happend] at hstepped
  exact hstepped

/-- A registration that reads a ledger in which its trial has no status is about
to register it. -/
theorem Reachable.registers
    (h : Reachable Anytime start
      ⟨files, before ++ ⟨limits, registerTrial spec.trialId occurredAt⟩ :: after⟩)
    (hverify : files.verify limits = .ok files.records)
    (hplan : planOf? files.records = some (plan, planHash))
    (hspec : plan.trials.find? (fun other => other.trialId == spec.trialId) = some spec)
    (hnone : (statesOf files.records).get? spec.trialId = none) :
    Reachable Anytime start
      ⟨files, before ++ ⟨limits, .append (registration spec occurredAt planHash) .returned⟩ ::
        after⟩ := by
  have hid : requireIdentifier spec.trialId "trial_id" = .ok () :=
    refuseIf_of_not (not_not.mpr spec.trialId_valid)
  rw [registerTrial, hid] at h
  have hfirst := h.reads hverify
  simp only [hplan, hspec] at hfirst
  have hsecond := hfirst.reads hverify
  simp only [hnone] at hsecond
  have hthird := hsecond.reads hverify
  simp only [hplan] at hthird
  exact hthird

/-! ## The ledger that never verifies again -/

omit [FloatText F] in
theorem find?_of_mem (hmem : spec ∈ plan.trials) :
    plan.trials.find? (fun other => other.trialId == spec.trialId) = some spec := by
  have hnodup := plan.trials_nodup
  generalize plan.trials = trials at hmem hnodup
  induction trials with
  | nil => cases hmem
  | cons first rest ih =>
      rw [List.map_cons, List.nodup_cons] at hnodup
      rcases List.mem_cons.mp hmem with rfl | hrest
      · exact List.find?_cons_of_pos (beq_self_eq_true _)
      · have hne : ¬ (first.trialId == spec.trialId) = true := by
          rw [beq_iff_eq]
          intro hsame
          exact hnodup.1 (hsame ▸ List.mem_map_of_mem hrest)
        rw [List.find?_cons, Bool.eq_false_iff.mpr hne]
        exact ih hrest hnodup.2

omit [FloatText F] in
theorem freeze_registration (spec : TrialSpec F) (occurredAt planHash : String) :
    freezeJson "payload" (registration spec occurredAt planHash).payload.toJson = .ok () := by
  have hspec : freezeJson ("payload" ++ "." ++ "spec") spec.toDict = .ok () :=
    freezeJson_obj (by simp)
      (freezeMembers_cons (by simp) (freezeJson_str _ _)
        (freezeMembers_cons (by simp) (freezeJson_str _ _)
          (freezeMembers_cons (by simp) (freezeJson_str _ _)
            (freezeMembers_cons (by simp) (freezeJson_field _ spec.configuration_valid)
              (by rw [freezeMembers])))))
  exact freezeJson_obj (by simp)
    (freezeMembers_cons (by simp) (freezeJson_str _ _)
      (freezeMembers_cons (by simp) hspec (by rw [freezeMembers])))

theorem isCanonical_registration (hmem : spec ∈ plan.trials) (hplan : plan.planHash = .ok planHash)
    (occurredAt : String) :
    isCanonical (registration spec occurredAt planHash).payload.toJson = true := by
  obtain ⟨bytes, hbytes, -⟩ := bind_eq_ok_iff.mp hplan
  obtain ⟨hdict, -⟩ := canonicalBytes_eq_ok_iff.mp hbytes
  rw [FrozenResearchPlan.toDict, isCanonical, canonicalMembers_iff] at hdict
  have htrials := hdict ("trials", .arr (plan.trials.map TrialSpec.toDict)) (by simp)
  rw [isCanonical, canonicalItems_iff] at htrials
  have hspec := htrials spec.toDict (List.mem_map_of_mem hmem)
  simp [registration, Payload.toJson, isCanonical, canonicalMembers, hspec]

theorem exists_within (files : Files F) : ∃ limits, files.Within limits :=
  ⟨⟨(ledgerBytes files.records).length + 1, files.records.length + 1, Nat.succ_pos _,
    Nat.succ_pos _⟩, Nat.le_succ _, Nat.le_succ _⟩

/-- A registration is not accepted while its trial has a status. -/
theorem spoiled_of_registered (h : files.Sound plan) (hmem : spec ∈ plan.trials)
    {status : TrialStatus} (hstatus : (statesOf files.records).get? spec.trialId = some status)
    (happend : files.append limits (registration spec occurredAt planHash) = .ok appended)
    (limits' : Limits) (records : List (Record F)) : appended.verify limits' ≠ .ok records := by
  intro hverify
  obtain ⟨-, -, hlater⟩ := verify_eq_ok_iff.mp hverify
  obtain ⟨w, record, time, hvalid, happended⟩ := append_eq_ok happend
  have hdecided : Decided plan files.records (registration spec occurredAt planHash).eventType
      (registration spec occurredAt planHash).trialId :=
    .registered (List.mem_map_of_mem hmem)
  have hallowed := (h.accepted_iff hvalid hdecided).mp ((happended.valid_iff hvalid).mp hlater)
    .registered spec.trialId rfl rfl
  rw [hstatus] at hallowed
  cases registered_mem_allowedTransitions hallowed

/-- From any plan, two registrations of one trial that both read before either
appends both return and leave a ledger that verifies through no object. -/
theorem exists_spoiled (hcreate : create limits plan = .ok files) (hmem : spec ∈ plan.trials) :
    ∃ (larger : Limits) (s : System F), Reachable Anytime files s ∧
      s.calls = [⟨larger, .ended .returned⟩, ⟨larger, .ended .returned⟩] ∧
        ∀ limits records, s.files.verify limits ≠ .ok records := by
  have hsound := create_sound hcreate
  obtain ⟨-, ⟨w, hvalid⟩, first, hrecords, -, -, planHash, hpayload, hhash⟩ := create_eq_ok hcreate
  have hlast : files.records.getLast? = some first := by
    rw [hrecords]
    rfl
  have hfreeze := freeze_registration spec first.occurredAt planHash
  have hcanonical := isCanonical_registration hmem hhash first.occurredAt
  generalize hregister : registration spec first.occurredAt planHash = event at hfreeze hcanonical
  have hdecided : Decided plan files.records event.eventType event.trialId := by
    rw [← hregister]
    exact .registered (List.mem_map_of_mem hmem)
  have hnone : (statesOf files.records).get? spec.trialId = none := by
    rw [hrecords]
    rfl
  obtain ⟨field, time, hfirstTime, -⟩ := (walk_reads hvalid.walk_eq).previousTime first hlast
  have htime : parseUtc event.occurredAt field = .ok time := by
    rw [← hregister]
    exact hfirstTime
  -- The first registration is accepted and gives the trial its status.
  have hdigits : (Nat.toDigits 10 (files.records.length + 1)).length ≤ Json.maxIntegerDigits := by
    rw [hrecords]
    show (Nat.toDigits 10 2).length ≤ Json.maxIntegerDigits
    decide
  obtain ⟨once, record, hevent, honce, happendOnce⟩ :=
    exists_appended event hvalid hlast htime hfirstTime le_rfl hfreeze hcanonical hdigits
  obtain ⟨enough, henough⟩ := exists_within once
  have hcurrent : (Program.append event .returned).Current files.records := by
    rw [← hregister]
    show TrialStatus.registered ∈ allowedTransitions ((statesOf files.records).get? spec.trialId)
    rw [hnone]
    exact List.mem_singleton_self _
  have hsoundOnce :=
    (hsound.append hdecided (happendOnce enough henough) .returned).2.2.1 hcurrent
  have hstatus : (statesOf once.records).get? spec.trialId = some .registered := by
    rw [honce, statesOf_concat hvalid.nonempty, hevent, ← hregister]
    exact OrderedDict.get?_set_self _ _ _
  -- The second one passes the checks of its append all the same.
  obtain ⟨w', hvalidOnce⟩ := hsoundOnce.valid
  have hlastOnce : once.records.getLast? = some record := by
    rw [honce, List.getLast?_concat]
  have hrecordTime : parseUtc record.occurredAt field = .ok time := by
    rw [hevent]
    exact htime
  have hdigitsOnce : (Nat.toDigits 10 (once.records.length + 1)).length ≤
      Json.maxIntegerDigits := by
    rw [honce, hrecords]
    show (Nat.toDigits 10 3).length ≤ Json.maxIntegerDigits
    decide
  obtain ⟨twice, again, -, htwice, happendTwice⟩ :=
    exists_appended event hvalidOnce hlastOnce htime hrecordTime le_rfl hfreeze hcanonical
      hdigitsOnce
  obtain ⟨larger, hlarger⟩ := exists_within twice
  have hlargerOnce : once.Within larger := hlarger.of_prefix ⟨[again], htwice.symm⟩
  have hspoils := happendTwice larger hlarger
  -- Both calls read the ledger of the plan before either appends.
  have hverify := hvalid.verify (hlargerOnce.of_prefix ⟨[record], honce.symm⟩)
  have hplan : planOf? files.records = some (plan, planHash) := by
    rw [hrecords]
    simp [planOf?, hpayload]
  have hspec := find?_of_mem hmem
  have hcalled : Reachable Anytime files
      ⟨files, [] ++ ⟨larger, registerTrial spec.trialId first.occurredAt⟩ ::
        [⟨larger, registerTrial spec.trialId first.occurredAt⟩]⟩ :=
    (Reachable.start.called larger (.registerTrial spec.trialId first.occurredAt)).called larger
      (.registerTrial spec.trialId first.occurredAt)
  have hfirst := hcalled.registers hverify hplan hspec hnone
  rw [hregister] at hfirst
  have hsecond : Reachable Anytime files
      ⟨files, [⟨larger, .append event .returned⟩] ++
        ⟨larger, .append (registration spec first.occurredAt planHash) .returned⟩ :: []⟩ :=
    Reachable.registers hfirst hverify hplan hspec hnone
  rw [hregister] at hsecond
  have honceReached : Reachable Anytime files
      ⟨once, [] ++ ⟨larger, .ended .returned⟩ :: [⟨larger, .append event .returned⟩]⟩ :=
    Reachable.appends hsecond (happendOnce larger hlargerOnce)
  have htwiceReached : Reachable Anytime files
      ⟨twice, [⟨larger, .ended .returned⟩] ++ ⟨larger, .ended .returned⟩ :: []⟩ :=
    Reachable.appends honceReached hspoils
  rw [← hregister] at hspoils
  exact ⟨larger, _, htwiceReached, rfl, spoiled_of_registered hsoundOnce hmem hstatus hspoils⟩

/-- A plan whose document can be written has a ledger. -/
theorem exists_created (plan : FrozenResearchPlan F) (hcanonical : isCanonical plan.toDict = true)
    (hfreeze : freezeJson "plan" plan.toDict = .ok ()) :
    ∃ limits files, create limits plan = .ok files := by
  obtain ⟨time, htime⟩ := plan.frozenAt_valid
  have hhash : plan.planHash = .ok (sha256 (PyText.encodeUtf8 plan.toDict.dumps)) := by
    rw [FrozenResearchPlan.planHash, canonicalBytes_of hcanonical]
    rfl
  generalize sha256 (PyText.encodeUtf8 plan.toDict.dumps) = planHash at hhash
  let event : Event F :=
    { eventType := .planFrozen, trialId := none, occurredAt := plan.frozenAt
      payload := .plan plan planHash }
  have hpayload : isCanonical event.payload.toJson = true := by
    simp [event, Payload.toJson, isCanonical, canonicalMembers, hcanonical]
  have hfrozen : freezeJson "payload" event.payload.toJson = .ok () :=
    freezeJson_obj (by simp) (freezeMembers_cons (by simp) (freezeJson_field _ hfreeze)
      (freezeMembers_cons (by simp) (freezeJson_str _ _) (by rw [freezeMembers])))
  obtain ⟨files, -, -, -, hwrite⟩ := exists_written event [] genesisHash hpayload
    (show (Nat.toDigits 10 1).length ≤ Json.maxIntegerDigits by decide)
  obtain ⟨limits, hwithin⟩ := exists_within files
  refine ⟨limits, files, ?_⟩
  rw [create, hhash, ok_bind]
  exact bind_eq_ok_iff.mpr ⟨time, parseUtc_field _ htime,
    bind_eq_ok_iff.mpr ⟨(), hfrozen, hwrite limits hwithin⟩⟩

end Schedules

/-! ## A plan of one trial -/

namespace Sample

open Platform

scoped instance datetimeForms : DatetimeForms := ⟨fun _ => none⟩

theorem candidate_valid : isIdentifier "momentum" = true := by decide

theorem root_valid : rootTrialId = rootTrialId ∨ isIdentifier rootTrialId = true := .inl rfl

theorem trialId_valid : isIdentifier "trial-1" = true := by decide

theorem trial_ne_root : "trial-1" ≠ rootTrialId := by decide

theorem name_valid : isIdentifier "drawdown" = true := by decide

theorem metric_valid : isIdentifier "max_drawdown" = true := by decide

def trial : TrialSpec ℚ where
  trialId := "trial-1"
  parentTrialId := rootTrialId
  candidate := "momentum"
  configuration := [("lookback", .int 20)]
  trialId_valid := trialId_valid
  parentTrialId_valid := root_valid
  candidate_valid := candidate_valid
  parent_ne := trial_ne_root
  configuration_valid := by simp [freezeJson, freezeMembers, refuseIf]

def criterion : KillCriterion ℚ where
  name := "drawdown"
  metric := "max_drawdown"
  operator := .gt
  threshold := 1 / 4
  name_valid := name_valid
  metric_valid := metric_valid
  threshold_finite := by decide +kernel

theorem assumptions_valid : ["independent folds"] ≠ [] ∧ ["independent folds"].Nodup ∧
    ∀ item ∈ ["independent folds"], item ≠ "" ∧ PyText.isStripped item = true := by
  decide

def policy : MultipleTestingPolicy ℚ where
  method := .holmBonferroni
  alpha := 1 / 20
  familySize := 1
  assumptions := ["independent folds"]
  alpha_mem := by decide +kernel
  assumptions_valid := assumptions_valid

theorem frozenAt_valid : ∃ t, parseUtc "2026-01-02T03:04:05Z" "frozen_at" = .ok t := by
  have hread : (parseUtc "2026-01-02T03:04:05Z" "frozen_at").isOk = true := by decide
  cases htime : parseUtc "2026-01-02T03:04:05Z" "frozen_at" with
  | error error =>
      rw [htime] at hread
      cases hread
  | ok t => exact ⟨t, rfl⟩

def plan : FrozenResearchPlan ℚ where
  declarations := [("schema_version", .str "1.0.0"), ("hypothesis", .str "trend persists"),
    ("mechanism", .str "slow diffusion"), ("dataset_id", .str genesisHash),
    ("features", .arr [.str "close"]), ("label", .str "forward_return"),
    ("test_plan", .obj [("folds", .int 5)]), ("validation", .obj [("embargo", .int 2)]),
    ("costs", .obj [("bps", .int 10)]), ("uncertainty", .obj [("bootstrap", .int 200)]),
    ("rejection_thresholds", .obj [("sharpe", .int 1)])]
  trials := [trial]
  correction := policy
  killCriteria := [criterion]
  frozenAt := "2026-01-02T03:04:05Z"
  trials_nonempty := nofun
  trials_nodup := List.nodup_singleton _
  familySize_eq := rfl
  killCriteria_valid := by decide +kernel
  lineage := validateLineage_of_parents (List.nodup_singleton _)
    (List.forall_mem_singleton.mpr rfl)
  frozenAt_valid := frozenAt_valid

theorem exists_created_plan : ∃ limits files, create limits plan = .ok files :=
  exists_created plan (by decide) (by decide)

end Sample

open Platform Sample in
/-- The ledger of a plan, after a call has been made. -/
theorem kept_of_current_called :
    ∃ (limits : Limits) (files : Files ℚ), create limits plan = .ok files ∧ files.Kept plan := by
  obtain ⟨limits, files, hcreate⟩ := exists_created_plan
  exact ⟨limits, files, hcreate, (kept_of_current hcreate
    (Reachable.start.step (.call limits (.registerTrial "trial-1" "2026-01-02T03:04:05Z"))
      nofun)).1⟩

open Platform Sample in
/-- Two registrations of the one trial of a plan that read before either appends
both return, after which the ledger verifies through no object. -/
theorem registerTrial_spoils :
    ∃ (limits larger : Limits) (files : Files ℚ) (s : System ℚ),
      create limits plan = .ok files ∧ Reachable Anytime files s ∧
        s.calls = [⟨larger, .ended .returned⟩, ⟨larger, .ended .returned⟩] ∧
          (∀ limits records, s.files.verify limits ≠ .ok records) ∧ ¬ s.files.Kept plan := by
  obtain ⟨limits, files, hcreate⟩ := exists_created_plan
  obtain ⟨larger, s, hreachable, hcalls, hspoiled⟩ :=
    exists_spoiled hcreate (show trial ∈ plan.trials from List.mem_singleton_self _)
  refine ⟨limits, larger, files, s, hcreate, hreachable, hcalls, hspoiled, fun hkept => ?_⟩
  obtain ⟨admitting, hwithin⟩ := exists_within s.files
  exact hspoiled admitting _ (hkept.verifies admitting hwithin)

end SignalFoundry.ResearchLedger
