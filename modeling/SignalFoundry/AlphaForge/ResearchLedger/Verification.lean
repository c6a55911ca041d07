import SignalFoundry.AlphaForge.ResearchLedger.Calls

/-!
# What the verification of a ledger accepts

The variables of the loop of `verify` are functions of the records it has been
through. A ledger that verifies within some limits is one whose records the loop
accepts and whose receipt is the one that `_write_head` writes for them, and an
append to it verifies again exactly when the loop accepts the new event.
-/

namespace SignalFoundry.ResearchLedger

open Fallible

theorem parseUtc_field [PyRuntime] [DatetimeForms] {value field : String} (field' : String) {t : ℕ}
    (h : parseUtc value field = .ok t) : parseUtc value field' = .ok t := by
  unfold parseUtc at h ⊢
  split at h
  · next hzulu =>
      rw [if_pos hzulu]
      split at h
      · exact h
      · cases h
  · cases h

/-! ## The statuses of a trial -/

/-- Every status is one that the table allows after the one before it. -/
def Follows (statuses : List TrialStatus) : Prop :=
  ∀ before status after, statuses = before ++ status :: after →
    status ∈ allowedTransitions before.getLast?

theorem follows_nil : Follows [] := by
  intro before status after h
  simp at h

theorem follows_concat_iff {statuses : List TrialStatus} {status : TrialStatus} :
    Follows (statuses ++ [status]) ↔
      Follows statuses ∧ status ∈ allowedTransitions statuses.getLast? := by
  constructor
  · intro h
    refine ⟨fun before earlier after hsplit => ?_, h statuses status [] rfl⟩
    exact h before earlier (after ++ [status]) (by rw [hsplit]; simp)
  · rintro ⟨hfollows, hlast⟩ before later after hsplit
    rcases List.eq_nil_or_concat after with rfl | ⟨init, last, rfl⟩
    · obtain ⟨rfl, hsingle⟩ := List.append_inj' hsplit rfl
      cases hsingle
      exact hlast
    · have hparts : statuses ++ [status] = (before ++ later :: init) ++ [last] := by
        rw [hsplit]
        simp
      exact hfollows before later init (List.append_inj' hparts rfl).1

theorem registered_mem_allowedTransitions {previous : Option TrialStatus}
    (h : TrialStatus.registered ∈ allowedTransitions previous) : previous = none := by
  rcases previous with - | (_ | _ | _ | _ | _ | _) <;> simp [allowedTransitions] at h ⊢

theorem allowedTransitions_terminal {status : TrialStatus} (h : status.Terminal = true) :
    allowedTransitions (some status) = [] := by
  cases status <;> simp [TrialStatus.Terminal] at h ⊢ <;> rfl

/-- A trial is registered at most once. -/
theorem Follows.count_registered {statuses : List TrialStatus} (h : Follows statuses) :
    statuses.count .registered ≤ 1 := by
  induction statuses using List.reverseRecOn with
  | nil => simp
  | append_singleton statuses status ih =>
      obtain ⟨hfollows, hlast⟩ := follows_concat_iff.mp h
      rw [List.count_append]
      by_cases hregistered : status = .registered
      · subst hregistered
        have hnil := List.getLast?_eq_none_iff.mp (registered_mem_allowedTransitions hlast)
        simp [hnil]
      · have hzero : [status].count .registered = 0 := by simp [hregistered]
        rw [hzero, Nat.add_zero]
        exact ih hfollows

/-- Nothing follows a terminal status. -/
theorem Follows.terminal_last {statuses : List TrialStatus} (h : Follows statuses)
    {before after : List TrialStatus} {status : TrialStatus}
    (hsplit : statuses = before ++ status :: after) (hterminal : status.Terminal = true) :
    after = [] := by
  cases after with
  | nil => rfl
  | cons next rest =>
      have hallowed := h (before ++ [status]) next rest (by rw [hsplit]; simp)
      rw [List.getLast?_concat, allowedTransitions_terminal hterminal] at hallowed
      cases hallowed

/-- A trial ends at most once. -/
theorem Follows.countP_terminal {statuses : List TrialStatus} (h : Follows statuses) :
    statuses.countP TrialStatus.Terminal ≤ 1 := by
  induction statuses using List.reverseRecOn with
  | nil => simp
  | append_singleton statuses status ih =>
      have hnone : ∀ earlier ∈ statuses, ¬ earlier.Terminal = true := by
        intro earlier hearlier hterminal
        obtain ⟨before, after, rfl⟩ := List.append_of_mem hearlier
        have hsplit : (before ++ earlier :: after) ++ [status] =
            before ++ earlier :: (after ++ [status]) := by simp
        have hlast := h.terminal_last hsplit hterminal
        simp at hlast
      rw [List.countP_append, List.countP_eq_zero.mpr hnone, Nat.zero_add]
      exact List.countP_le_length

variable {F : Type} [PyFloat F] [FloatText F] [PyRuntime] [DatetimeForms]

/-- The status that an event gives a trial. -/
def Event.status? (event : Event F) (trialId : String) : Option TrialStatus :=
  match event.eventType with
  | .trial status => if event.trialId = some trialId then some status else none
  | _ => none

/-- The statuses that the records give a trial, in their order. -/
def statusesOf (records : List (Record F)) (trialId : String) : List TrialStatus :=
  records.filterMap fun record => record.status? trialId

omit [FloatText F] in
@[simp] theorem statusesOf_concat (records : List (Record F)) (record : Record F)
    (trialId : String) :
    statusesOf (records ++ [record]) trialId =
      statusesOf records trialId ++ (record.status? trialId).toList := by
  cases h : record.status? trialId <;> simp [statusesOf, h]

omit [FloatText F] in
theorem Event.status?_eq_some_iff {event : Event F} {trialId : String} {status : TrialStatus} :
    event.status? trialId = some status ↔
      event.eventType = .trial status ∧ event.trialId = some trialId := by
  unfold Event.status?
  split
  · next h => simp [h, and_comm]
  · next hnot => exact iff_of_false nofun fun h => hnot status h.1

/-! ## One turn of the loop -/

/-- The events that `_verify_event` accepts. -/
inductive Accepted (states : OrderedDict String TrialStatus) (planTrialIds : List String) :
    EventType → Option String → Prop
  | trial {status : TrialStatus} {trialId : String} (hknown : trialId ∈ planTrialIds)
      (hallowed : status ∈ allowedTransitions (states.get? trialId)) :
      Accepted states planTrialIds (.trial status) (some trialId)
  | duplicateRejected {trialId : String} (hknown : trialId ∈ planTrialIds) :
      Accepted states planTrialIds .duplicateRejected (some trialId)
  | familyEvaluationRejected : Accepted states planTrialIds .familyEvaluationRejected none
  | familyEvaluated : Accepted states planTrialIds .familyEvaluated none

/-- What an event makes of the states of the trials. -/
def nextStates (states : OrderedDict String TrialStatus) (eventType : EventType)
    (trialId : Option String) : OrderedDict String TrialStatus :=
  match eventType, trialId with
  | .trial status, some trialId => states.set trialId status
  | _, _ => states

omit [PyRuntime] [DatetimeForms] in
theorem verifyEvent_eq_ok_iff {states states' : OrderedDict String TrialStatus}
    {planTrialIds : List String} {eventType : EventType} {trialId : Option String} :
    verifyEvent states planTrialIds eventType trialId = .ok states' ↔
      Accepted states planTrialIds eventType trialId ∧
        states' = nextStates states eventType trialId := by
  constructor
  · intro h
    unfold verifyEvent at h
    split at h
    · split at h
      · next hknown => cases h; exact ⟨.duplicateRejected hknown, rfl⟩
      · cases h
    · cases h
    · cases h; exact ⟨.familyEvaluationRejected, rfl⟩
    · cases h; exact ⟨.familyEvaluated, rfl⟩
    · cases h
    · cases h
    · split at h
      · next hknown =>
          split at h
          · next hallowed => cases h; exact ⟨.trial hknown hallowed, rfl⟩
          · cases h
      · cases h
    · cases h
    · cases h
  · rintro ⟨haccepted, rfl⟩
    cases haccepted with
    | trial hknown hallowed => exact (if_pos hknown).trans (if_pos hallowed)
    | duplicateRejected hknown => exact if_pos hknown
    | familyEvaluationRejected => rfl
    | familyEvaluated => rfl

/-- The first record freezes a plan. -/
def Event.Freezes (event : Event F) (plan : FrozenResearchPlan F) : Prop :=
  event.eventType = .planFrozen ∧ event.trialId = none ∧
    ∃ planHash, event.payload = .plan plan planHash ∧ plan.planHash = .ok planHash

theorem Walk.event_first {w : Walk} (hindex : w.index = 0) {event : Event F}
    {result : OrderedDict String TrialStatus × List String} :
    w.event event = .ok result ↔
      ∃ plan, event.Freezes plan ∧ result = (w.states, plan.trialIds) := by
  unfold Walk.event
  rw [if_pos hindex]
  constructor
  · intro h
    split at h
    · next htype htrial hpayload =>
        simp only [bind_eq_ok_iff, refuseIf_eq_ok_iff, ne_eq, not_not, pure_eq_ok,
          Except.ok.injEq] at h
        obtain ⟨actual, hactual, _, rfl, rfl⟩ := h
        exact ⟨_, ⟨htype, htrial, _, hpayload, hactual⟩, rfl⟩
    · cases h
    · cases h
  · rintro ⟨plan, ⟨htype, htrial, planHash, hpayload, hhash⟩, rfl⟩
    simp only [htype, htrial, hpayload, hhash, ok_bind, ne_eq, not_true_eq_false,
      refuseIf_of_not not_false]
    rfl

theorem Walk.event_later {w : Walk} (hindex : w.index ≠ 0) {event : Event F}
    {result : OrderedDict String TrialStatus × List String} :
    w.event event = .ok result ↔
      Accepted w.states w.planTrialIds event.eventType event.trialId ∧
        result = (nextStates w.states event.eventType event.trialId, w.planTrialIds) := by
  unfold Walk.event
  rw [if_neg hindex, bind_eq_ok_iff]
  constructor
  · rintro ⟨states, hstates, h⟩
    cases h
    obtain ⟨haccepted, rfl⟩ := verifyEvent_eq_ok_iff.mp hstates
    exact ⟨haccepted, rfl⟩
  · rintro ⟨haccepted, rfl⟩
    exact ⟨_, verifyEvent_eq_ok_iff.mpr ⟨haccepted, rfl⟩, rfl⟩

/-- The checks of one turn that do not look at the event. -/
structure Record.Chained (record : Record F) (w : Walk) (time : ℕ) : Prop where
  sequence : record.sequence = w.index + 1
  previousHash : record.previousHash = w.previousHash
  recordHash : ∃ body,
    canonicalBytes (.obj (record.body record.sequence record.previousHash)) = .ok body ∧
      record.recordHash = sha256 body
  occurredAt : parseUtc record.occurredAt
    ("record[" ++ toString (w.index + 1) ++ "].occurred_at") = .ok time
  ordered : ∀ previous ∈ w.previousTime, previous ≤ time

theorem Walk.verifyRecord_eq_ok_iff {w w' : Walk} {record : Record F} :
    w.verifyRecord record = .ok w' ↔
      ∃ time, record.Chained w time ∧
        ∃ result, w.event record.toEvent = .ok result ∧
          w' = ⟨w.index + 1, record.recordHash, some time, result.1, result.2⟩ := by
  simp only [Walk.verifyRecord, bind_eq_ok_iff, refuseIf_eq_ok_iff, pure_eq_ok, Except.ok.injEq,
    not_or, not_not, ne_eq, not_exists, not_and, not_lt, exists_const]
  constructor
  · rintro ⟨⟨hsequence, hprevious⟩, body, hbody, hhash, time, htime, hordered, result,
      hevent, rfl⟩
    exact ⟨time, ⟨hsequence, hprevious, ⟨body, hbody, hhash⟩, htime, hordered⟩, result,
      hevent, rfl⟩
  · rintro ⟨time, ⟨hsequence, hprevious, ⟨body, hbody, hhash⟩, htime, hordered⟩, result,
      hevent, rfl⟩
    exact ⟨⟨hsequence, hprevious⟩, body, hbody, hhash, time, htime, hordered, result,
      hevent, rfl⟩

/-! ## The loop -/

theorem walk_concat (records : List (Record F)) (record : Record F) :
    walk (records ++ [record]) = walk records >>= fun w => w.verifyRecord record := by
  unfold walk
  rw [List.foldlM_append]
  congr 1
  funext w
  rw [List.foldlM_cons]
  cases w.verifyRecord record <;> rfl

omit [FloatText F] in
theorem statesOf_concat {records : List (Record F)} (hne : records ≠ []) (record : Record F) :
    statesOf (records ++ [record]) =
      nextStates (statesOf records) record.eventType record.trialId := by
  unfold statesOf
  rw [List.tail_append_of_ne_nil hne, List.foldl_append]
  rfl

/-- What the variables of the loop are after the records it has accepted. -/
structure Walk.Reads (w : Walk) (records : List (Record F)) : Prop where
  index : w.index = records.length
  previousHash : w.previousHash = records.getLast?.elim genesisHash Record.recordHash
  previousTime : ∀ last ∈ records.getLast?,
    ∃ field t, parseUtc last.occurredAt field = .ok t ∧ w.previousTime = some t
  states : w.states = statesOf records
  frozen : ∀ first ∈ records.head?,
    ∃ plan, first.toEvent.Freezes plan ∧ w.planTrialIds = plan.trialIds
  status : ∀ trialId, w.states.get? trialId = (statusesOf records trialId).getLast?
  known : ∀ trialId, statusesOf records trialId ≠ [] → trialId ∈ w.planTrialIds
  follows : ∀ trialId, Follows (statusesOf records trialId)

theorem Walk.reads_start : ({} : Walk).Reads ([] : List (Record F)) where
  index := rfl
  previousHash := rfl
  previousTime := nofun
  states := rfl
  frozen := nofun
  status _ := rfl
  known _ h := absurd rfl h
  follows _ := follows_nil

variable {w w' : Walk} {records : List (Record F)} {record : Record F}

theorem Event.Freezes.status? {event : Event F} {plan : FrozenResearchPlan F}
    (h : event.Freezes plan) (trialId : String) : event.status? trialId = none := by
  simp [Event.status?, h.1]

omit [FloatText F] in
theorem get?_nextStates {states : OrderedDict String TrialStatus} (event : Event F)
    (trialId : String) :
    (nextStates states event.eventType event.trialId).get? trialId =
      (event.status? trialId).or (states.get? trialId) := by
  unfold nextStates Event.status?
  cases event.eventType with
  | trial status =>
      cases event.trialId with
      | none => simp
      | some named =>
          rw [OrderedDict.get?_set]
          by_cases hsame : trialId = named
          · simp [hsame]
          · simp [hsame, Ne.symm hsame]
  | _ => simp

theorem Walk.Reads.step (h : w.Reads records) (hstep : w.verifyRecord record = .ok w') :
    w'.Reads (records ++ [record]) := by
  obtain ⟨time, hchained, result, hevent, rfl⟩ := Walk.verifyRecord_eq_ok_iff.mp hstep
  have htime : ∀ last ∈ (records ++ [record]).getLast?, ∃ field t,
      parseUtc last.occurredAt field = .ok t ∧ some time = some t := by
    intro last hlast
    rw [List.getLast?_concat] at hlast
    cases hlast
    exact ⟨_, time, hchained.occurredAt, rfl⟩
  have hlast : record.recordHash =
      (records ++ [record]).getLast?.elim genesisHash Record.recordHash := by
    rw [List.getLast?_concat]
    rfl
  by_cases hindex : w.index = 0
  · obtain ⟨plan, hfreezes, rfl⟩ := (Walk.event_first hindex).mp hevent
    obtain rfl : records = [] := List.eq_nil_of_length_eq_zero (h.index ▸ hindex)
    have hnone : ∀ trialId, statusesOf ([] ++ [record]) trialId = [] := fun trialId => by
      simp [statusesOf, hfreezes.status? trialId]
    refine ⟨by simp [hindex], hlast, htime, h.states, ?_, fun trialId => ?_, ?_, ?_⟩
    · intro first hfirst
      cases hfirst
      exact ⟨plan, hfreezes, rfl⟩
    · rw [hnone]
      exact h.status trialId
    · intro trialId hne
      exact absurd (hnone trialId) hne
    · intro trialId
      rw [hnone]
      exact follows_nil
  · obtain ⟨haccepted, rfl⟩ := (Walk.event_later hindex).mp hevent
    have hne : records ≠ [] := by
      rintro rfl
      exact hindex h.index
    refine ⟨by simp [h.index], hlast, htime, ?_, ?_, fun trialId => ?_, fun trialId => ?_,
      fun trialId => ?_⟩
    · rw [statesOf_concat hne, h.states]
    · intro first hfirst
      rw [List.head?_append_of_ne_nil _ hne] at hfirst
      exact h.frozen first hfirst
    · rw [get?_nextStates record.toEvent, statusesOf_concat, h.status]
      cases record.status? trialId <;> simp
    · rw [statusesOf_concat]
      intro hsome
      cases hstatus : record.status? trialId with
      | none => exact h.known trialId (by simpa [hstatus] using hsome)
      | some status =>
          obtain ⟨htype, htrial⟩ := Event.status?_eq_some_iff.mp hstatus
          rw [htype, htrial] at haccepted
          cases haccepted with
          | trial hknown _ => exact hknown
    · rw [statusesOf_concat]
      cases hstatus : record.status? trialId with
      | none => simpa using h.follows trialId
      | some status =>
          obtain ⟨htype, htrial⟩ := Event.status?_eq_some_iff.mp hstatus
          rw [htype, htrial] at haccepted
          cases haccepted with
          | trial _ hallowed =>
              exact follows_concat_iff.mpr ⟨h.follows trialId, h.status trialId ▸ hallowed⟩

theorem walk_reads (h : walk records = .ok w) : w.Reads records := by
  induction records using List.reverseRecOn generalizing w with
  | nil =>
      cases h
      exact Walk.reads_start
  | append_singleton records record ih =>
      rw [walk_concat] at h
      obtain ⟨before, hbefore, hstep⟩ := bind_eq_ok_iff.mp h
      exact (ih hbefore).step hstep

/-! ## A ledger that verifies -/

/-- The limits of an object admit a ledger. -/
def Files.Within (files : Files F) (limits : Limits) : Prop :=
  (ledgerBytes files.records).length ≤ limits.maxBytes ∧ files.records.length ≤ limits.maxRecords

/-- The loop accepts the records, and the receipt is theirs. -/
structure Files.Valid (files : Files F) (w : Walk) : Prop where
  walk_eq : walk files.records = .ok w
  nonempty : files.records ≠ []
  head_eq : files.head = receipt files.records w.previousHash

variable {files appended : Files F} {limits : Limits} {event : Event F}

theorem verify_eq_ok_iff :
    files.verify limits = .ok records ↔
      records = files.records ∧ files.Within limits ∧ ∃ w, files.Valid w := by
  simp only [Files.verify, bind_eq_ok_iff, refuseIf_eq_ok_iff, pure_eq_ok, Except.ok.injEq,
    not_or, not_not, not_lt, ne_eq, exists_const]
  constructor
  · rintro ⟨hbytes, hrecords, hcount, hdigest, w, hwalk, ⟨hne, hhead⟩, rfl⟩
    refine ⟨rfl, ⟨hbytes, hrecords⟩, w, hwalk, hne, ?_⟩
    rw [receipt, ← hcount, ← hdigest, ← hhead]
  · rintro ⟨rfl, ⟨hbytes, hrecords⟩, w, hwalk, hne, hhead⟩
    refine ⟨hbytes, hrecords, ?_, ?_, w, hwalk, ⟨hne, ?_⟩, rfl⟩
    · rw [hhead, receipt]
    · rw [hhead, receipt]
    · rw [hhead, receipt]

theorem Files.Valid.verify (h : files.Valid w) (hwithin : files.Within limits) :
    files.verify limits = .ok files.records :=
  verify_eq_ok_iff.mpr ⟨rfl, hwithin, w, h⟩

/-! ## Appending -/

/-- What `_append` leaves when it returns. -/
structure Files.Appended (files : Files F) (limits : Limits) (event : Event F)
    (appended : Files F) (w : Walk) (record : Record F) (time : ℕ) : Prop where
  event_eq : record.toEvent = event
  chained : record.Chained w time
  records_eq : appended.records = files.records ++ [record]
  head_eq : appended.head = receipt appended.records record.recordHash
  within : appended.Within limits

omit [PyRuntime] [DatetimeForms] in
theorem canonicalBytes_eq_ok_iff {value : Json F} {bytes : List UInt8} :
    canonicalBytes value = .ok bytes ↔
      isCanonical value = true ∧ PyText.encodeUtf8 value.dumps = bytes := by
  simp only [canonicalBytes, bind_eq_ok_iff, refuseIf_eq_ok_iff, not_not, pure_eq_ok,
    Except.ok.injEq, exists_const]

theorem write_eq_ok {previousHash : String}
    (h : write limits records previousHash event = .ok appended) :
    ∃ record : Record F, record.toEvent = event ∧
      record.sequence = records.length + 1 ∧ record.previousHash = previousHash ∧
      (∃ body, canonicalBytes (.obj (record.body record.sequence record.previousHash)) =
        .ok body ∧ record.recordHash = sha256 body) ∧
      appended.records = records ++ [record] ∧
      appended.head = receipt appended.records record.recordHash ∧ appended.Within limits := by
  simp only [write, bind_eq_ok_iff, refuseIf_eq_ok_iff, pure_eq_ok, Except.ok.injEq, not_lt,
    exists_const] at h
  obtain ⟨hrecords, body, hbody, encoded, hencoded, hbytes, rfl⟩ := h
  refine ⟨_, rfl, rfl, rfl, ⟨body, hbody, rfl⟩, rfl, rfl, ?_, ?_⟩
  · obtain ⟨-, rfl⟩ := canonicalBytes_eq_ok_iff.mp hencoded
    rw [ledgerBytes, List.flatMap_append, List.length_append, List.flatMap_singleton]
    exact hbytes
  · simpa using hrecords

theorem append_eq_ok (h : files.append limits event = .ok appended) :
    ∃ w record time, files.Valid w ∧ files.Appended limits event appended w record time := by
  unfold Files.append at h
  obtain ⟨time, htime, h⟩ := bind_eq_ok_iff.mp h
  obtain ⟨_, -, h⟩ := bind_eq_ok_iff.mp h
  obtain ⟨records, hverify, h⟩ := bind_eq_ok_iff.mp h
  obtain ⟨rfl, -, w, hvalid⟩ := verify_eq_ok_iff.mp hverify
  have hreads := walk_reads hvalid.walk_eq
  cases hlast : files.records.getLast? with
  | none => exact absurd (List.getLast?_eq_none_iff.mp hlast) hvalid.nonempty
  | some last =>
      rw [hlast] at h
      obtain ⟨previous, hprevious, h⟩ := bind_eq_ok_iff.mp h
      obtain ⟨_, hordered, h⟩ := bind_eq_ok_iff.mp h
      obtain ⟨record, rfl, hsequence, hhash, hbody, hrecords, hhead, hwithin⟩ := write_eq_ok h
      obtain ⟨field, t, ht, hwtime⟩ := hreads.previousTime last hlast
      refine ⟨w, record, time, hvalid, rfl, ⟨?_, ?_, hbody, parseUtc_field _ htime, ?_⟩, hrecords,
        hhead, hwithin⟩
      · rw [hsequence, hreads.index]
      · rw [hhash, hreads.previousHash, hlast]
        rfl
      · rw [hwtime]
        rintro _ ⟨⟩
        have hsame : previous = t := by
          have hread := parseUtc_field field hprevious
          rw [ht] at hread
          cases hread
          rfl
        subst hsame
        exact not_lt.mp (refuseIf_eq_ok_iff.mp hordered)

theorem Files.Valid.index_ne (h : files.Valid w) : w.index ≠ 0 := by
  rw [(walk_reads h.walk_eq).index]
  exact fun hzero => h.nonempty (List.eq_nil_of_length_eq_zero hzero)

/-- An append that has returned verifies again exactly when `_verify_event` accepts
its event in the states of the trials before it. -/
theorem Files.Appended.valid_iff {time : ℕ} (happended : files.Appended limits event appended w
    record time) (hvalid : files.Valid w) :
    (∃ w', appended.Valid w') ↔ Accepted w.states w.planTrialIds event.eventType event.trialId := by
  obtain ⟨rfl, hchained, hrecords, hhead, -⟩ := happended
  have hwalk : walk appended.records = w.verifyRecord record := by
    rw [hrecords, walk_concat, hvalid.walk_eq]
    rfl
  constructor
  · rintro ⟨w', hw'⟩
    obtain ⟨_, -, _, hevent, -⟩ := Walk.verifyRecord_eq_ok_iff.mp (hwalk ▸ hw'.walk_eq)
    exact ((Walk.event_later hvalid.index_ne).mp hevent).1
  · intro haccepted
    refine ⟨_, hwalk.trans (Walk.verifyRecord_eq_ok_iff.mpr ⟨time, hchained, _,
      (Walk.event_later hvalid.index_ne).mpr ⟨haccepted, rfl⟩, rfl⟩), ?_, hhead⟩
    rw [hrecords]
    exact List.append_ne_nil_of_right_ne_nil _ (List.cons_ne_nil _ _)

/-! ## The first record -/

theorem create_eq_ok {plan : FrozenResearchPlan F} (h : create limits plan = .ok files) :
    files.Within limits ∧ (∃ w, files.Valid w) ∧
      ∃ first, files.records = [first] ∧ first.toEvent.Freezes plan := by
  unfold create at h
  obtain ⟨planHash, hplan, h⟩ := bind_eq_ok_iff.mp h
  obtain ⟨time, htime, h⟩ := bind_eq_ok_iff.mp h
  obtain ⟨_, -, h⟩ := bind_eq_ok_iff.mp h
  obtain ⟨record, hevent, hsequence, hhash, hbody, hrecords, hhead, hwithin⟩ := write_eq_ok h
  have hfreezes : record.toEvent.Freezes plan := by
    rw [hevent]
    exact ⟨rfl, rfl, planHash, rfl, hplan⟩
  have hchained : record.Chained {} time :=
    ⟨hsequence, hhash, hbody, by rw [hevent]; exact parseUtc_field _ htime, nofun⟩
  have hwalk : walk files.records = Walk.verifyRecord {} record := by
    rw [hrecords, walk_concat]
    rfl
  refine ⟨hwithin, ⟨_, hwalk.trans (Walk.verifyRecord_eq_ok_iff.mpr ⟨time, hchained, _,
    (Walk.event_first rfl).mpr ⟨plan, hfreezes, rfl⟩, rfl⟩), ?_, hhead⟩, record, hrecords,
    hfreezes⟩
  rw [hrecords]
  exact List.cons_ne_nil _ _

end SignalFoundry.ResearchLedger
