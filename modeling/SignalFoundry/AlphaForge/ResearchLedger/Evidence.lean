import SignalFoundry.AlphaForge.ResearchLedger.Schedules

/-!
# The evidence on a trial that has ended

A trial of a sound ledger ends at most once, so that the record which `_state` finds for
it is the one that ended it: a failure counts with the p-value one and without metrics, a
success with what its details say.
-/

/-! ## Calls one after another

A call that runs alone decides and appends on the same records, so that the check it made
still passes at its append. In every run of registrations and transitions, each alone, the
ledger stays sound, no family is evaluated, and the details of every success passed the
checks of `transition`. -/

namespace SignalFoundry.ResearchLedger

open Fallible

variable {F : Type} [PyFloat F] [FloatText F] [PyRuntime] [DatetimeForms]

/-! ## Runs -/

/-- A call that runs alone: what it leaves, and how it ends. -/
def Program.run (limits : Limits) (files : Files F) : Program F → Files F × Outcome
  | .verify next =>
      match files.verify limits with
      | .ok records => (next records).run limits files
      | .error error => (files, .raised error)
  | .append event outcome =>
      match files.append limits event with
      | .ok appended => (appended, outcome)
      | .error error => (files, .raised error)
  | .ended outcome => (files, outcome)

/-- What registrations and transitions leave, one after another, through objects with any
limits. -/
inductive Sequential (start : Files F) : Files F → Prop
  | start : Sequential start start
  | register {files : Files F} (before : Sequential start files) (limits : Limits)
      (trialId occurredAt : String) :
      Sequential start ((registerTrial trialId occurredAt).run limits files).1
  | transition {files : Files F} (before : Sequential start files) (limits : Limits)
      (trialId : String) (status : TrialStatus) (occurredAt : String)
      (details : List (String × Json F)) :
      Sequential start ((ResearchLedger.transition trialId status occurredAt details).run limits
        files).1

/-! ## What they keep -/

/-- The details of a success passed the checks of `transition`. -/
def Event.Checked (event : Event F) : Prop :=
  event.eventType = .trial .succeeded → ∃ details, event.payload = .details (.obj details) ∧
    checkDetails .succeeded details = .ok ()

/-- A call that reads some records and then appends to them: its check passes, and it does
not evaluate the family. -/
def Program.Steady (records : List (Record F)) : Program F → Prop
  | .verify next => (next records).Steady records
  | .append event outcome => (Program.append event outcome).Current records ∧
      event.eventType ≠ .familyEvaluated ∧ event.Checked
  | .ended _ => True

/-- A sound ledger of a family that has not been evaluated. -/
structure Files.Open (files : Files F) (plan : FrozenResearchPlan F) : Prop where
  sound : files.Sound plan
  unevaluated : ∀ record ∈ files.records, record.eventType ≠ .familyEvaluated
  checked : ∀ record ∈ files.records, record.toEvent.Checked

variable {plan : FrozenResearchPlan F} {records : List (Record F)} {files start : Files F}
  {limits : Limits}

theorem steady_registerTrial (hledger : LedgerOf plan records) (trialId occurredAt : String) :
    (registerTrial trialId occurredAt : Program F).Steady records := by
  obtain ⟨planHash, hplan⟩ := hledger.planOf?
  unfold registerTrial
  split
  · trivial
  simp only [Program.Steady, hplan]
  split
  · trivial
  · simp only [Program.Steady]
    split
    · exact ⟨trivial, fun heq => (by cases heq), fun heq => by cases heq⟩
    · next hnone =>
        simp only [Program.Steady, hplan]
        refine ⟨?_, fun heq => (by cases heq), fun heq => by cases heq⟩
        show TrialStatus.registered ∈ allowedTransitions ((statesOf records).get? trialId)
        rw [hnone]
        exact List.mem_singleton_self _

theorem steady_transition (trialId : String) (status : TrialStatus) (occurredAt : String)
    (details : List (String × Json F)) :
    (transition trialId status occurredAt details).Steady records := by
  unfold transition
  split
  · trivial
  split
  · trivial
  · simp only [Program.Steady]
    split
    · next hallowed =>
        split
        · trivial
        · next hdetails =>
            refine ⟨hallowed, fun heq => (by cases heq), fun hsucceeded => ⟨details, rfl, ?_⟩⟩
            cases hsucceeded
            exact hdetails
    · trivial

theorem Files.Open.run (h : files.Open plan) {program : Program F}
    (hprogram : program.Sound plan files.records) (hsteady : program.Steady files.records) :
    (program.run limits files).1.Open plan := by
  induction program with
  | verify next ih =>
      rw [Program.run]
      cases hverify : files.verify limits with
      | error error => exact h
      | ok records =>
          obtain ⟨rfl, -, -⟩ := verify_eq_ok_iff.mp hverify
          exact ih _ (hprogram _ List.prefix_rfl h.sound.ledgerOf) hsteady
  | append event outcome =>
      rw [Program.run]
      cases happend : files.append limits event with
      | error error => exact h
      | ok appended =>
          obtain ⟨hcurrent, hevent, hchecked⟩ := hsteady
          obtain ⟨-, -, hsound, -⟩ := h.sound.append hprogram happend outcome
          obtain ⟨w, record, time, -, happended⟩ := append_eq_ok happend
          have hrecord := happended.event_eq
          have hmem : ∀ other ∈ appended.records, other ∈ files.records ∨ other = record := by
            intro other hother
            rw [happended.records_eq, List.mem_append, List.mem_singleton] at hother
            exact hother
          refine ⟨hsound hcurrent, fun other hother => ?_, fun other hother => ?_⟩
          · rcases hmem other hother with hold | rfl
            · exact h.unevaluated other hold
            · rw [hrecord]
              exact hevent
          · rcases hmem other hother with hold | rfl
            · exact h.checked other hold
            · rw [hrecord]
              exact hchecked
  | ended outcome => exact h

theorem create_open (h : create limits plan = .ok files) : files.Open plan := by
  obtain ⟨-, -, first, hrecords, hfreezes⟩ := create_eq_ok h
  refine ⟨create_sound h, fun record hrecord => ?_, fun record hrecord => ?_⟩
  · obtain rfl := List.mem_singleton.mp (hrecords ▸ hrecord)
    rw [hfreezes.1]
    nofun
  · obtain rfl := List.mem_singleton.mp (hrecords ▸ hrecord)
    intro htype
    rw [hfreezes.1] at htype
    cases htype

/-- Every run of registrations and transitions leaves an open ledger. -/
theorem Sequential.open (h : Sequential start files) (hstart : start.Open plan) :
    files.Open plan := by
  induction h with
  | start => exact hstart
  | register _ limits trialId occurredAt ih =>
      exact ih.run (sound_registerTrial trialId occurredAt)
        (steady_registerTrial ih.sound.ledgerOf trialId occurredAt)
  | transition _ limits trialId status occurredAt details ih =>
      exact ih.run (sound_transition trialId status occurredAt details)
        (steady_transition trialId status occurredAt details)

end SignalFoundry.ResearchLedger

namespace SignalFoundry.ResearchLedger

open Fallible

variable {F : Type} [PyFloat F] [FloatText F] [PyRuntime] [DatetimeForms]

/-- What the evaluation of a family reads of a trial. -/
structure Evidence (F : Type) where
  trialId : String
  succeeded : Bool
  pValue : F
  metrics : List (String × Json F)

/-- The evidence in the record that ended a trial. -/
inductive Evidence.Recorded (records : List (Record F)) : Evidence F → Prop
  | failed {record : Record F} (hmem : record ∈ records)
      (htype : record.eventType = .trial .failed) {trialId : String}
      (htrial : record.trialId = some trialId) :
      Recorded records ⟨trialId, false, PyFloat.ofNat 1, []⟩
  | succeeded {record : Record F} (hmem : record ∈ records)
      (htype : record.eventType = .trial .succeeded) {trialId : String}
      (htrial : record.trialId = some trialId) {details metrics : List (String × Json F)}
      {pValue : F} (hpayload : record.payload = .details (.obj details))
      (hvalue : (details.lookup "p_value").bind number? = some (.ok pValue))
      (hmetrics : details.lookup "metrics" = some (.obj metrics)) :
      Recorded records ⟨trialId, true, pValue, metrics⟩

/-- The evidence on the trials of a plan, in their order. -/
structure FamilyEvidence (plan : FrozenResearchPlan F) (records : List (Record F))
    (evidence : List (Evidence F)) : Prop where
  complete : evidence.map Evidence.trialId = plan.trialIds
  recorded : ∀ e ∈ evidence, e.Recorded records

variable {plan : FrozenResearchPlan F} {records : List (Record F)} {files : Files F}

omit [FloatText F] in
theorem statusesOf_split (before after : List (Record F)) (record : Record F) (trialId : String) :
    statusesOf (before ++ record :: after) trialId =
      statusesOf before trialId ++ ((record.status? trialId).toList ++ statusesOf after trialId) := by
  cases h : record.status? trialId <;> simp [statusesOf, h]

/-- The record that ends a trial is the one that `_state` finds. -/
theorem terminalRecord?_eq (hledger : LedgerOf plan records) {record : Record F}
    (hmem : record ∈ records) {status : TrialStatus} (hterminal : status.Terminal = true)
    (htype : record.eventType = .trial status) {trialId : String}
    (htrial : record.trialId = some trialId) :
    (statesOf records).get? trialId = some status ∧
      terminalRecord? records trialId = some record := by
  obtain ⟨⟨w, hwalk⟩, first, hfirst, hfreezes⟩ := hledger
  have hreads := walk_reads hwalk
  have hstatus : record.status? trialId = some status :=
    Event.status?_eq_some_iff.mpr ⟨htype, htrial⟩
  obtain ⟨before, after, rfl⟩ := List.append_of_mem hmem
  have hsplit := statusesOf_split before after record trialId
  rw [hstatus, Option.toList_some, List.singleton_append] at hsplit
  have hafter : statusesOf after trialId = [] := (hreads.follows trialId).terminal_last hsplit hterminal
  constructor
  · rw [← hreads.states, hreads.status, hsplit, hafter, List.getLast?_concat]
  · have hbefore : before ≠ [] := by
      rintro rfl
      cases hfirst
      rw [hfreezes.1] at htype
      cases htype
    have hnone : ∀ other ∈ after, other.status? trialId = none :=
      List.filterMap_eq_nil_iff.mp hafter
    rw [terminalRecord?, List.tail_append_of_ne_nil hbefore, List.reverse_append,
      List.reverse_cons, List.append_assoc, List.find?_append, List.find?_eq_none.mpr,
      Option.none_or, List.singleton_append, List.find?_cons_of_pos (by
        simp [htype, hterminal, htrial])]
    intro other hother
    have hother := hnone other (List.mem_reverse.mp hother)
    cases hevent : other.eventType with
    | trial later =>
        have hne : other.trialId ≠ some trialId := fun hsame => by
          rw [Event.status?_eq_some_iff.mpr ⟨hevent, hsame⟩] at hother
          cases hother
        simp [hne]
    | planFrozen | duplicateRejected | familyEvaluationRejected | familyEvaluated => simp

/-- What the code reads of a trial is the evidence recorded on it. -/
theorem trialEvidence_eq (hledger : LedgerOf plan records) {e : Evidence F}
    (he : e.Recorded records) (policy : MultipleTestingPolicy F) :
    trialEvidence policy records (statesOf records) e.trialId = .ok (e.pValue, .obj e.metrics) ∧
      decide ((statesOf records).get? e.trialId = some .failed) = !e.succeeded := by
  cases he with
  | failed hmem htype htrial =>
      obtain ⟨hstatus, -⟩ := terminalRecord?_eq hledger hmem rfl htype htrial
      exact ⟨if_pos hstatus, by simp [hstatus]⟩
  | succeeded hmem htype htrial hpayload hvalue hmetrics =>
      obtain ⟨hstatus, hrecord⟩ := terminalRecord?_eq hledger hmem rfl htype htrial
      refine ⟨?_, by simp [hstatus]⟩
      rw [trialEvidence, if_neg (by simp [hstatus])]
      simp only [hrecord, Option.bind_some, hpayload, Payload.toJson, member?, hvalue, hmetrics,
        ok_bind, Option.getD_some]
      rfl

omit [FloatText F] [PyRuntime] [DatetimeForms] in
/-- The details of a success have a p-value in the unit interval and metrics. -/
theorem exists_of_checkDetails {details : List (String × Json F)}
    (h : checkDetails .succeeded details = .ok ()) :
    ∃ pValue metrics, (details.lookup "p_value").bind number? = some (.ok pValue) ∧
      details.lookup "metrics" = some (.obj metrics) ∧ PyFloat.isFinite pValue = true ∧
        PyFloat.le PyFloat.zero pValue = true ∧ PyFloat.le pValue (PyFloat.ofNat 1) = true := by
  obtain ⟨_, -, h⟩ := bind_eq_ok_iff.mp h
  obtain ⟨_, -, h⟩ := bind_eq_ok_iff.mp h
  obtain ⟨_, hvalue, hmetrics⟩ := bind_eq_ok_iff.mp h
  unfold checkPValue at hvalue
  split at hvalue
  · cases hvalue
  · next value hnumber =>
      obtain ⟨pValue, rfl, hrange⟩ := bind_eq_ok_iff.mp hvalue
      rw [refuseIf_eq_ok_iff, not_not, Bool.and_eq_true, Bool.and_eq_true] at hrange
      split at hmetrics
      · next first rest hlookup =>
          exact ⟨pValue, first :: rest, hnumber, hlookup, hrange.1.1, hrange.1.2, hrange.2⟩
      · cases hmetrics

/-- Every trial that has ended has evidence. -/
theorem Files.Open.exists_recorded (h : files.Open plan) {trialId : String} {status : TrialStatus}
    (hstatus : (statesOf files.records).get? trialId = some status)
    (hterminal : status.Terminal = true) :
    ∃ e : Evidence F, e.trialId = trialId ∧ e.Recorded files.records := by
  obtain ⟨-, hmem⟩ := h.sound.ledgerOf.known hstatus
  obtain ⟨record, hrecord, hevent⟩ := List.mem_filterMap.mp hmem
  obtain ⟨htype, htrial⟩ := Event.status?_eq_some_iff.mp hevent
  cases status with
  | failed => exact ⟨_, rfl, .failed hrecord htype htrial⟩
  | succeeded =>
      obtain ⟨details, hpayload, hdetails⟩ := h.checked record hrecord htype
      obtain ⟨pValue, metrics, hvalue, hmetrics, -⟩ := exists_of_checkDetails hdetails
      exact ⟨_, rfl, .succeeded hrecord htype htrial hpayload hvalue hmetrics⟩
  | registered | started | interrupted | resumed => cases hterminal

theorem Files.Open.exists_familyEvidence (h : files.Open plan)
    (hended : ∀ trialId ∈ plan.trialIds, ∃ status,
      (statesOf files.records).get? trialId = some status ∧ status.Terminal = true) :
    ∃ evidence, FamilyEvidence plan files.records evidence := by
  have hall : ∀ trialIds : List String, (∀ trialId ∈ trialIds, ∃ e : Evidence F,
      e.trialId = trialId ∧ e.Recorded files.records) → ∃ evidence : List (Evidence F),
        evidence.map Evidence.trialId = trialIds ∧ ∀ e ∈ evidence, e.Recorded files.records := by
    intro trialIds hevery
    induction trialIds with
    | nil => exact ⟨[], rfl, nofun⟩
    | cons trialId rest ih =>
        obtain ⟨hfirst, hrest⟩ := List.forall_mem_cons.mp hevery
        obtain ⟨e, rfl, he⟩ := hfirst
        obtain ⟨evidence, rfl, hevidence⟩ := ih hrest
        exact ⟨e :: evidence, rfl, List.forall_mem_cons.mpr ⟨he, hevidence⟩⟩
  obtain ⟨evidence, hcomplete, hrecorded⟩ := hall plan.trialIds fun trialId hknown => by
    obtain ⟨status, hstatus, hterminal⟩ := hended trialId hknown
    exact h.exists_recorded hstatus hterminal
  exact ⟨evidence, hcomplete, hrecorded⟩

end SignalFoundry.ResearchLedger
