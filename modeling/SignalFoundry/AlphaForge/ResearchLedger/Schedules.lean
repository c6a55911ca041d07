import SignalFoundry.AlphaForge.ResearchLedger.Verification

/-!
# Schedules of the research ledger

The calls of several objects on one directory, in any interleaving. What a call
has read is a prefix of what is there when it appends, so what it knows about the
plan and about trials that have ended stays true; that the event is still allowed
does not. While the check that a call made still passes at its append, the ledger
verifies after every append and its trials follow the table; two registrations of
one trial that both read before either appends leave a ledger that never verifies
again.
-/

namespace SignalFoundry.ResearchLedger

open Fallible

variable {F : Type} [PyFloat F] [FloatText F] [PyRuntime] [DatetimeForms]

/-! ## What a ledger keeps -/

def IsEvaluation (record : Record F) : Bool := record.eventType = .familyEvaluated

/-- Every trial of the plan has a terminal event. -/
def AllEnded (plan : FrozenResearchPlan F) (records : List (Record F)) : Prop :=
  ∀ trialId ∈ plan.trialIds, ∃ status ∈ statusesOf records trialId, status.Terminal = true

/-- A ledger that verifies, whose trials follow the table, and whose family is
evaluated at most once, after all its trials. -/
structure Files.Kept (files : Files F) (plan : FrozenResearchPlan F) : Prop where
  verifies : ∀ limits, files.Within limits → files.verify limits = .ok files.records
  follows : ∀ trialId, Follows (statusesOf files.records trialId)
  registered : ∀ trialId, (statusesOf files.records trialId).count .registered ≤ 1
  ended : ∀ trialId, (statusesOf files.records trialId).countP TrialStatus.Terminal ≤ 1
  evaluated : files.records.countP IsEvaluation ≤ 1
  complete : ∀ before record after, files.records = before ++ record :: after →
    IsEvaluation record = true → AllEnded plan before

/-- The check that a call made before its append passes on the records that are
there: the table allows the status, or no evaluation is recorded. -/
def Program.Current (records : List (Record F)) : Program F → Prop
  | .append event _ =>
      match event.eventType, event.trialId with
      | .trial status, some trialId =>
          status ∈ allowedTransitions ((statesOf records).get? trialId)
      | .familyEvaluated, _ => records.any IsEvaluation = false
      | _, _ => True
  | _ => True

/-- The systems that steps meeting a condition reach from a directory without calls. -/
inductive Reachable (condition : List (Record F) → Program F → Prop) (files : Files F) :
    System F → Prop
  | start : Reachable condition files { files := files }
  | step {s s' : System F} {taken : Option (Pending F)} (before : Reachable condition files s)
      (hstep : s.Step taken s')
      (hmet : ∀ pending ∈ taken, condition s.files.records pending.program) :
      Reachable condition files s'

/-! ## What a call knows -/

/-- The records of a ledger of the plan that verifies. -/
def LedgerOf (plan : FrozenResearchPlan F) (records : List (Record F)) : Prop :=
  (∃ w, walk records = .ok w) ∧ ∃ first ∈ records.head?, first.toEvent.Freezes plan

/-- What a call that has read some records knows about the event it appends. -/
inductive Decided (plan : FrozenResearchPlan F) (records : List (Record F)) :
    EventType → Option String → Prop
  | registered {trialId : String} (hknown : trialId ∈ plan.trialIds) :
      Decided plan records (.trial .registered) (some trialId)
  | moved {status : TrialStatus} {trialId : String} (hne : status ≠ .registered) :
      Decided plan records (.trial status) (some trialId)
  | duplicateRejected {trialId : String} (hknown : trialId ∈ plan.trialIds) :
      Decided plan records .duplicateRejected (some trialId)
  | familyEvaluationRejected : Decided plan records .familyEvaluationRejected none
  | familyEvaluated (hended : AllEnded plan records) :
      Decided plan records .familyEvaluated none

/-- What is left of a call decides on what it reads, whatever that will be. -/
def Program.Sound (plan : FrozenResearchPlan F) : List (Record F) → Program F → Prop
  | known, .verify next =>
      ∀ later, known <+: later → LedgerOf plan later → (next later).Sound plan later
  | known, .append event _ => Decided plan known event.eventType event.trialId
  | _, .ended _ => True

variable {plan : FrozenResearchPlan F} {records later : List (Record F)} {w : Walk}

omit [FloatText F] in
theorem AllEnded.mono (h : AllEnded plan records) (hbegins : records <+: later) :
    AllEnded plan later := by
  intro trialId hknown
  obtain ⟨status, hstatus, hterminal⟩ := h trialId hknown
  exact ⟨status, (hbegins.filterMap _).mem hstatus, hterminal⟩

omit [FloatText F] in
theorem Decided.mono {eventType : EventType} {trialId : Option String}
    (h : Decided plan records eventType trialId) (hbegins : records <+: later) :
    Decided plan later eventType trialId := by
  cases h with
  | registered hknown => exact .registered hknown
  | moved hne => exact .moved hne
  | duplicateRejected hknown => exact .duplicateRejected hknown
  | familyEvaluationRejected => exact .familyEvaluationRejected
  | familyEvaluated hended => exact .familyEvaluated (hended.mono hbegins)

theorem Program.Sound.mono {program : Program F} (h : program.Sound plan records)
    (hbegins : records <+: later) : program.Sound plan later := by
  cases program with
  | verify next => exact fun last hlast hledger => h last (hbegins.trans hlast) hledger
  | append event outcome => exact Decided.mono h hbegins
  | ended outcome => trivial

theorem Event.Freezes.unique {event : Event F} {plan' : FrozenResearchPlan F}
    (h : event.Freezes plan) (h' : event.Freezes plan') : plan = plan' := by
  obtain ⟨-, -, planHash, hpayload, -⟩ := h
  obtain ⟨-, -, planHash', hpayload', -⟩ := h'
  rw [hpayload] at hpayload'
  cases hpayload'
  rfl

theorem LedgerOf.planTrialIds (h : LedgerOf plan records) (hwalk : walk records = .ok w) :
    w.planTrialIds = plan.trialIds := by
  obtain ⟨-, first, hfirst, hfreezes⟩ := h
  obtain ⟨plan', hfreezes', hids⟩ := (walk_reads hwalk).frozen first hfirst
  rw [hids, hfreezes.unique hfreezes']

theorem LedgerOf.planOf? (h : LedgerOf plan records) :
    ∃ planHash, planOf? records = some (plan, planHash) := by
  obtain ⟨-, first, hfirst, -, -, planHash, hpayload, -⟩ := h
  refine ⟨planHash, ?_⟩
  rw [ResearchLedger.planOf?, Option.mem_def.mp hfirst]
  simp only [hpayload]

/-- A trial that has a status is one of the plan. -/
theorem LedgerOf.known (h : LedgerOf plan records) {trialId : String} {status : TrialStatus}
    (hstatus : (statesOf records).get? trialId = some status) :
    trialId ∈ plan.trialIds ∧ status ∈ statusesOf records trialId := by
  obtain ⟨w, hwalk⟩ := h.1
  have hreads := walk_reads hwalk
  rw [← hreads.states, hreads.status] at hstatus
  have hmem := List.mem_of_getLast? hstatus
  exact ⟨h.planTrialIds hwalk ▸ hreads.known trialId (List.ne_nil_of_mem hmem), hmem⟩

/-! ## The calls -/

theorem sound_raise (error : GovernanceError) : (raise error : Program F).Sound plan records :=
  trivial

theorem sound_registerTrial (trialId occurredAt : String) :
    (registerTrial trialId occurredAt : Program F).Sound plan records := by
  unfold registerTrial
  split
  · exact sound_raise _
  intro first _ hfirst
  obtain ⟨planHash, hplan⟩ := hfirst.planOf?
  dsimp only
  rw [hplan]
  dsimp only
  split
  · exact sound_raise _
  · next spec hspec =>
      have hknown : trialId ∈ plan.trialIds := by
        have hid := List.find?_some hspec
        rw [beq_iff_eq] at hid
        exact hid ▸ List.mem_map_of_mem (List.mem_of_find?_eq_some hspec)
      intro second _ hsecond
      dsimp only
      split
      · exact .duplicateRejected hknown
      · intro last _ hlast
        obtain ⟨planHash', hplan'⟩ := hlast.planOf?
        dsimp only
        rw [hplan']
        exact .registered hknown

theorem sound_transition (trialId : String) (status : TrialStatus) (occurredAt : String)
    (details : List (String × Json F)) :
    (transition trialId status occurredAt details).Sound plan records := by
  unfold transition
  split
  · exact sound_raise _
  split
  · exact sound_raise _
  · next hne =>
      intro last _ _
      dsimp only
      split
      · split
        · exact sound_raise _
        · exact .moved hne
      · exact sound_raise _

theorem sound_evaluateFamily (occurredAt : String) :
    (evaluateFamily occurredAt : Program F).Sound plan records := by
  intro first _ _
  dsimp only
  split
  · exact .familyEvaluationRejected
  intro second _ hsecond
  obtain ⟨planHash, hplan⟩ := hsecond.planOf?
  dsimp only
  rw [hplan]
  intro last _ hlast
  dsimp only
  split
  · exact .familyEvaluationRejected
  · next hmissing =>
      have hended : AllEnded plan last := by
        intro trialId hknown
        have hterminal := List.filter_eq_nil_iff.mp (not_not.mp hmissing) trialId hknown
        cases hstatus : (statesOf last).get? trialId with
        | none => simp [hstatus] at hterminal
        | some status =>
            refine ⟨status, (hlast.known hstatus).2, ?_⟩
            simpa [hstatus] using hterminal
      split
      · exact sound_raise _
      · exact .familyEvaluated hended

theorem Call.sound (call : Call F) : call.program.Sound plan records := by
  cases call with
  | registerTrial trialId occurredAt => exact sound_registerTrial trialId occurredAt
  | transition trialId status occurredAt details =>
      exact sound_transition trialId status occurredAt details
  | evaluateFamily occurredAt => exact sound_evaluateFamily occurredAt

/-! ## Systems -/

/-- What the records of the ledger say about its evaluations. -/
structure Closed (plan : FrozenResearchPlan F) (records : List (Record F)) : Prop where
  evaluated : records.countP IsEvaluation ≤ 1
  complete : ∀ before record after, records = before ++ record :: after →
    IsEvaluation record = true → AllEnded plan before

structure Files.Sound (files : Files F) (plan : FrozenResearchPlan F) : Prop where
  valid : ∃ w, files.Valid w
  frozen : ∃ first ∈ files.records.head?, first.toEvent.Freezes plan
  closed : Closed plan files.records

variable {files appended : Files F} {limits : Limits} {event : Event F} {record : Record F}

theorem Files.Sound.ledgerOf (h : files.Sound plan) : LedgerOf plan files.records := by
  obtain ⟨w, hvalid⟩ := h.valid
  exact ⟨⟨w, hvalid.walk_eq⟩, h.frozen⟩

theorem Files.Sound.kept (h : files.Sound plan) : files.Kept plan := by
  obtain ⟨w, hvalid⟩ := h.valid
  have hfollows := (walk_reads hvalid.walk_eq).follows
  exact ⟨fun limits hwithin => hvalid.verify hwithin, hfollows,
    fun trialId => (hfollows trialId).count_registered,
    fun trialId => (hfollows trialId).countP_terminal, h.closed.evaluated, h.closed.complete⟩

/-- The loop accepts an event that was decided on earlier records of the ledger
exactly when the table still allows it. -/
theorem Files.Sound.accepted_iff (h : files.Sound plan) (hvalid : files.Valid w)
    (hdecided : Decided plan files.records event.eventType event.trialId) :
    Accepted w.states w.planTrialIds event.eventType event.trialId ↔
      ∀ status trialId, event.eventType = .trial status → event.trialId = some trialId →
        status ∈ allowedTransitions ((statesOf files.records).get? trialId) := by
  have hids := h.ledgerOf.planTrialIds hvalid.walk_eq
  have hstates := (walk_reads hvalid.walk_eq).states
  rw [hids, hstates]
  constructor
  · intro haccepted status trialId htype htrial
    rw [htype, htrial] at haccepted
    cases haccepted with
    | trial _ hallowed => exact hallowed
  · intro hallowed
    generalize event.eventType = eventType at hdecided hallowed ⊢
    generalize event.trialId = named at hdecided hallowed ⊢
    cases hdecided with
    | registered hknown => exact .trial hknown (hallowed _ _ rfl rfl)
    | moved hne =>
        next status trialId =>
        have hstatus := hallowed status trialId rfl rfl
        cases hprevious : (statesOf files.records).get? trialId with
        | none =>
            rw [hprevious] at hstatus
            exact absurd (List.mem_singleton.mp hstatus) hne
        | some previous => exact .trial (h.ledgerOf.known hprevious).1 (hprevious ▸ hstatus)
    | duplicateRejected hknown => exact .duplicateRejected hknown
    | familyEvaluationRejected => exact .familyEvaluationRejected
    | familyEvaluated _ => exact .familyEvaluated

omit [FloatText F] in
theorem closed_concat_iff (h : Closed plan records) (record : Record F)
    (hended : IsEvaluation record = true → AllEnded plan records) :
    Closed plan (records ++ [record]) ↔
      (IsEvaluation record = true → records.any IsEvaluation = false) := by
  constructor
  · intro hclosed hevaluation
    have hcount := hclosed.evaluated
    rw [List.countP_append, List.countP_singleton, if_pos hevaluation] at hcount
    have hnone := List.countP_eq_zero.mp (Nat.le_zero.mp (Nat.le_of_add_le_add_right hcount))
    exact List.any_eq_false.mpr hnone
  · intro hfirst
    refine ⟨?_, fun before found after hsplit hevaluation => ?_⟩
    · rw [List.countP_append, List.countP_singleton]
      by_cases hevaluation : IsEvaluation record = true
      · rw [if_pos hevaluation, List.countP_eq_zero.mpr (List.any_eq_false.mp (hfirst hevaluation))]
      · rw [if_neg hevaluation]
        exact h.evaluated
    · rcases List.eq_nil_or_concat after with rfl | ⟨init, last, rfl⟩
      · obtain ⟨rfl, hsingle⟩ := List.append_inj' hsplit rfl
        cases hsingle
        exact hended hevaluation
      · have hparts : records ++ [record] = (before ++ found :: init) ++ [last] := by
          rw [hsplit]
          simp
        exact h.complete before found init (List.append_inj' hparts rfl).1 hevaluation

theorem current_append_iff {outcome : Outcome} :
    (Program.append event outcome).Current records ↔
      (∀ status trialId, event.eventType = .trial status → event.trialId = some trialId →
        status ∈ allowedTransitions ((statesOf records).get? trialId)) ∧
      (event.eventType = .familyEvaluated → records.any IsEvaluation = false) := by
  unfold Program.Current
  dsimp only
  split
  · next htype htrial => simp [htype, htrial]
  · next htype => simp [htype]
  · next hfamily hnot =>
      exact iff_of_true trivial ⟨fun status trialId htype htrial =>
        (hnot status trialId htype htrial).elim, fun htype => (hfamily htype).elim⟩

/-- An append keeps the ledger exactly when the check that the call made still passes. -/
theorem Files.Sound.append (h : files.Sound plan)
    (hdecided : Decided plan files.records event.eventType event.trialId)
    (happend : files.append limits event = .ok appended) (outcome : Outcome) :
    files.records <+: appended.records ∧ appended.Within limits ∧
      ((Program.append event outcome).Current files.records → appended.Sound plan) ∧
      (appended.Kept plan → (Program.append event outcome).Current files.records) := by
  obtain ⟨w, record, time, hvalid, happended⟩ := append_eq_ok happend
  have hrecords := happended.records_eq
  have hbegins : files.records <+: appended.records := ⟨[record], hrecords.symm⟩
  have hvalid_iff := (happended.valid_iff hvalid).trans (h.accepted_iff hvalid hdecided)
  have hevaluation : IsEvaluation record = true ↔ event.eventType = .familyEvaluated := by
    rw [IsEvaluation, happended.event_eq, decide_eq_true_iff]
  have hclosed_iff := closed_concat_iff h.closed record fun hrecord => by
    rw [hevaluation.mp hrecord] at hdecided
    generalize event.trialId = named at hdecided
    cases hdecided with
    | familyEvaluated hended => exact hended
  rw [← hrecords, hevaluation] at hclosed_iff
  refine ⟨hbegins, happended.within, fun hcurrent => ?_, fun hkept => ?_⟩
  · obtain ⟨htrial, hfamily⟩ := current_append_iff.mp hcurrent
    obtain ⟨first, hfirst, hfreezes⟩ := h.frozen
    refine ⟨hvalid_iff.mpr htrial, ⟨first, ?_, hfreezes⟩, hclosed_iff.mpr hfamily⟩
    rw [hrecords, List.head?_append_of_ne_nil _ hvalid.nonempty]
    exact hfirst
  · obtain ⟨-, -, hlater⟩ := verify_eq_ok_iff.mp (hkept.verifies limits happended.within)
    exact current_append_iff.mpr ⟨hvalid_iff.mp hlater,
      hclosed_iff.mp ⟨hkept.evaluated, hkept.complete⟩⟩

/-- One step of a call whose check still passes keeps the ledger and what the call knows. -/
theorem Files.Sound.step (h : files.Sound plan) (limits : Limits) {program : Program F}
    (hprogram : program.Sound plan files.records) (hcurrent : program.Current files.records) :
    files.records <+: (program.step limits files).2.records ∧
      (program.step limits files).2.Sound plan ∧
      (program.step limits files).1.Sound plan (program.step limits files).2.records := by
  cases program with
  | verify next =>
      unfold Program.step
      dsimp only
      cases hverify : files.verify limits with
      | error error => exact ⟨List.prefix_rfl, h, trivial⟩
      | ok records =>
          obtain ⟨rfl, -, -⟩ := verify_eq_ok_iff.mp hverify
          exact ⟨List.prefix_rfl, h, hprogram _ List.prefix_rfl h.ledgerOf⟩
  | append event outcome =>
      unfold Program.step
      dsimp only
      cases happend : files.append limits event with
      | error error => exact ⟨List.prefix_rfl, h, trivial⟩
      | ok appended =>
          obtain ⟨hbegins, -, hsound, -⟩ := h.append hprogram happend outcome
          exact ⟨hbegins, hsound hcurrent, trivial⟩
  | ended outcome => exact ⟨List.prefix_rfl, h, trivial⟩

structure System.Sound (s : System F) (plan : FrozenResearchPlan F) : Prop where
  files : s.files.Sound plan
  calls : ∀ pending ∈ s.calls, pending.program.Sound plan s.files.records

variable {s s' : System F}

theorem System.Sound.step (h : s.Sound plan) {taken : Option (Pending F)}
    (hstep : s.Step taken s')
    (hmet : ∀ pending ∈ taken, pending.program.Current s.files.records) : s'.Sound plan := by
  cases hstep with
  | call limits call =>
      refine ⟨h.files, fun pending hpending => ?_⟩
      rcases List.mem_append.mp hpending with hbefore | hnew
      · exact h.calls pending hbefore
      · rw [List.mem_singleton.mp hnew]
        exact call.sound
  | step before after pending hcalls =>
      have hprogram := h.calls pending (by rw [hcalls]; simp)
      obtain ⟨hbegins, hfiles, hnext⟩ := h.files.step pending.limits hprogram (hmet pending rfl)
      refine ⟨hfiles, fun other hother => ?_⟩
      rcases List.mem_append.mp hother with hbefore | hafter
      · exact (h.calls other (by rw [hcalls]; simp [hbefore])).mono hbegins
      · rcases List.mem_cons.mp hafter with rfl | hafter
        · exact hnext
        · exact (h.calls other (by rw [hcalls]; simp [hafter])).mono hbegins

theorem create_sound (h : create limits plan = .ok files) : files.Sound plan := by
  obtain ⟨-, hvalid, first, hrecords, hfreezes⟩ := create_eq_ok h
  have hfirst : IsEvaluation first = false := by
    simp [IsEvaluation, hfreezes.1]
  refine ⟨hvalid, ⟨first, by rw [hrecords]; rfl, hfreezes⟩, ?_, ?_⟩
  · rw [hrecords]
    exact List.countP_le_length
  · intro before record after hsplit hevaluation
    rw [hrecords] at hsplit
    obtain ⟨rfl, hcons⟩ | ⟨_, rfl, hnil⟩ := List.append_eq_cons_iff.mp hsplit.symm
    · cases hcons
      rw [hfirst] at hevaluation
      cases hevaluation
    · cases List.append_eq_nil_iff.mp hnil.symm |>.2

theorem Reachable.sound (h : Reachable Program.Current files s) (hfiles : files.Sound plan) :
    s.Sound plan := by
  induction h with
  | start => exact ⟨hfiles, nofun⟩
  | step _ hstep hmet ih => exact ih.step hstep hmet

/-- From any plan, in every run whose appends find the check of their call still
passing, the ledger keeps everything in every state; and an append from such a
state keeps it exactly when the check passes, in which case the ledger verifies
through the object that has appended. -/
theorem kept_of_current (hcreate : create limits plan = .ok files)
    (hreachable : Reachable Program.Current files s) :
    s.files.Kept plan ∧
      ∀ (pending : Pending F) (event : Event F) (outcome : Outcome) (appended : Files F),
        pending ∈ s.calls → pending.program = .append event outcome →
          s.files.append pending.limits event = .ok appended →
            (appended.Kept plan ↔ pending.program.Current s.files.records) ∧
              (appended.Kept plan →
                appended.verify pending.limits = .ok appended.records) := by
  have hsound := hreachable.sound (create_sound hcreate)
  refine ⟨hsound.files.kept, fun pending event outcome appended hpending hprogram happend => ?_⟩
  have hdecided := hsound.calls pending hpending
  rw [hprogram] at hdecided ⊢
  obtain ⟨-, hwithin, hkeeps, hneeds⟩ := hsound.files.append hdecided happend outcome
  exact ⟨⟨hneeds, fun hcurrent => (hkeeps hcurrent).kept⟩, fun hkept =>
    hkept.verifies pending.limits hwithin⟩

end SignalFoundry.ResearchLedger
