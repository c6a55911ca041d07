import SignalFoundry.Backtesting.Journal.Agreement

/-!
# The events that a journal holds

The events of a valid journal are what its payloads decode to; reading them back
gives the events that were appended. An append to either journal leaves these
events or extends them by its own event, whatever it returns: the SQLite journal
can extend them and raise, when a check after `COMMIT` fails.
-/

namespace SignalFoundry

open Fallible

variable [PyRuntime] {F : Type} [PyFloat F] [FloatText F]

/-- What an append did to the events of a journal. -/
inductive AppendEffect (before : List (ExecutionEvent F)) (event : ExecutionEvent F)
    (result : Except JournalError Bool) : List (ExecutionEvent F) → Prop
  | kept (hnew : result ≠ .ok true) (hknown : result = .ok false → event ∈ before) :
      AppendEffect before event result before
  | extended (hfresh : event ∉ before) (hnew : result ≠ .ok false) :
      AppendEffect before event result (before ++ [event])

theorem AppendEffect.mem {before after : List (ExecutionEvent F)} {event : ExecutionEvent F}
    {result : Except JournalError Bool} (h : AppendEffect before event result after)
    (hok : result.isOk = true) : event ∈ after := by
  cases h with
  | extended _ _ => exact List.mem_append_right _ (List.mem_singleton_self event)
  | kept hnew hknown =>
      cases result with
      | error e => nomatch hok
      | ok stored =>
          cases stored with
          | false => exact hknown rfl
          | true => exact (hnew rfl).elim

/-- The event of a payload, when there is one. -/
def eventOfPayload (F : Type) [PyFloat F] [FloatText F] (payload : List UInt8) :
    Option (ExecutionEvent F) :=
  (decodeEvent F payload).toOption

namespace InMemoryJournal

variable {journal : InMemoryJournal}

variable (F) in
/-- The events that a journal holds. -/
def storedEvents (journal : InMemoryJournal) : List (ExecutionEvent F) :=
  (journal.records.map JournalRecord.payload).filterMap (eventOfPayload F)

/-- Every record of a verified list is that of the event it decodes to. -/
theorem decodes_of_foldlM {limits : JournalLimits} {records : List JournalRecord}
    {state state' : VerifyState}
    (h : records.foldlM (verifyRecord F limits) state = .ok state') :
    ∀ record ∈ records, ∃ decoded : ExecutionEvent F,
      decodeEvent F record.payload = .ok decoded ∧
        record.content = (decoded.eventId, decoded.canonicalBytes) := by
  induction records generalizing state with
  | nil => simp
  | cons first rest ih =>
      rw [List.foldlM_cons, bind_eq_ok_iff] at h
      obtain ⟨next, hfirst, hrest⟩ := h
      obtain ⟨decoded, hverified, -⟩ := verifyRecord_eq_ok_iff.mp hfirst
      intro record hrecord
      rcases List.mem_cons.mp hrecord with rfl | hrecord
      · obtain ⟨-, -, hid⟩ := checkedEventId_eq_ok_iff.mp hverified.eventId
        exact ⟨decoded, hverified.decodes, Prod.ext hid.symm hverified.canonical.symm⟩
      · exact ih hrest record hrecord

theorem Valid.decodes (h : journal.Valid F) : ∀ record ∈ journal.records,
    ∃ decoded : ExecutionEvent F, decodeEvent F record.payload = .ok decoded ∧
      record.content = (decoded.eventId, decoded.canonicalBytes) := by
  obtain ⟨state, hrun, -⟩ := h.verifies
  exact decodes_of_foldlM hrun

/-- Payloads that all decode are read one by one. -/
theorem mapM_decodeEvent {payloads : List (List UInt8)}
    (h : ∀ payload ∈ payloads, ∃ decoded : ExecutionEvent F,
      decodeEvent F payload = .ok decoded) :
    payloads.mapM (decodeEvent F) = .ok (payloads.filterMap (eventOfPayload F)) := by
  induction payloads with
  | nil => rfl
  | cons payload payloads ih =>
      obtain ⟨decoded, hdecoded⟩ := h payload List.mem_cons_self
      have hsome : eventOfPayload F payload = some decoded := by
        rw [eventOfPayload, hdecoded]
        rfl
      rw [List.mapM_cons, hdecoded, ok_bind, ih fun p hp => h p (List.mem_cons_of_mem _ hp),
        ok_bind, List.filterMap_cons_some hsome, pure_eq_ok]

theorem Valid.payloads_decode (h : journal.Valid F) :
    ∀ payload ∈ journal.records.map JournalRecord.payload, ∃ decoded : ExecutionEvent F,
      decodeEvent F payload = .ok decoded := by
  intro payload hpayload
  obtain ⟨record, hrecord, rfl⟩ := List.mem_map.mp hpayload
  obtain ⟨decoded, hdecoded, -⟩ := h.decodes record hrecord
  exact ⟨decoded, hdecoded⟩

/-- An open valid journal gives its events back. -/
theorem Valid.events (h : journal.Valid F) (hopen : journal.closed = false) :
    journal.events F = .ok (journal.storedEvents F) := by
  rw [InMemoryJournal.events, h.exportCanonical hopen, ok_bind, mapM_decodeEvent h.payloads_decode]
  rfl

/-- The contents of the records are those of the stored events. -/
theorem Valid.map_content (h : journal.Valid F) :
    (journal.storedEvents F).map (fun event => (event.eventId, event.canonicalBytes)) =
      journal.records.map JournalRecord.content := by
  have hdecodes := h.decodes
  rw [storedEvents]
  generalize journal.records = records at hdecodes
  induction records with
  | nil => rfl
  | cons record records ih =>
      obtain ⟨decoded, hdecoded, hcontent⟩ := hdecodes record List.mem_cons_self
      have hsome : eventOfPayload F record.payload = some decoded := by
        rw [eventOfPayload, hdecoded]
        rfl
      rw [List.map_cons, List.filterMap_cons_some hsome, List.map_cons, List.map_cons, hcontent,
        ih fun r hr => hdecodes r (List.mem_cons_of_mem _ hr)]

theorem Valid.length_storedEvents (h : journal.Valid F) :
    (journal.storedEvents F).length = journal.records.length := by
  have hlength := congrArg List.length h.map_content
  rwa [List.length_map, List.length_map] at hlength

/-- No identifier is stored twice. -/
theorem Valid.nodup_eventIds (h : journal.Valid F) :
    ((journal.storedEvents F).map fun event => event.eventId).Nodup := by
  have hids : (journal.storedEvents F).map (fun event => event.eventId) =
      journal.records.map JournalRecord.eventId := by
    have hcontent := congrArg (List.map Prod.fst) h.map_content
    rw [List.map_map, List.map_map] at hcontent
    exact hcontent
  rw [hids, List.nodup_iff_injective_getElem]
  rintro ⟨i, hi⟩ ⟨j, hj⟩ hsame
  simp only [List.length_map] at hi hj
  simp only [List.getElem_map] at hsame
  have hfirst := (h.indexed _ _).mpr ⟨_, List.getElem?_eq_getElem hi, rfl⟩
  have hsecond := (h.indexed _ _).mpr ⟨_, List.getElem?_eq_getElem hj, hsame.symm⟩
  rw [hfirst, Option.some.injEq] at hsecond
  exact Fin.ext hsecond

variable [Json.LawfulFloatText F]

theorem eventOfPayload_canonicalBytes (event : ExecutionEvent F) :
    eventOfPayload F event.canonicalBytes = some event := by
  rw [eventOfPayload, decodeEvent_canonicalBytes]
  rfl

theorem storedEvents_push (journal : InMemoryJournal) (event : ExecutionEvent F) :
    (journal.push (event.eventId, event.canonicalBytes)).storedEvents F =
      journal.storedEvents F ++ [event] := by
  rw [storedEvents, push, List.map_append, List.filterMap_append, List.map_singleton]
  have hsome : eventOfPayload F (nextRecord journal.records.length (headHashOf journal.records)
      (event.eventId, event.canonicalBytes)).payload = some event :=
    eventOfPayload_canonicalBytes event
  rw [List.filterMap_cons_some hsome]
  rfl

theorem Valid.mem_storedEvents_iff (h : journal.Valid F) {event : ExecutionEvent F} :
    event ∈ journal.storedEvents F ↔
      ∃ record ∈ journal.records, record.content = (event.eventId, event.canonicalBytes) := by
  rw [← List.mem_map (f := JournalRecord.content), ← h.map_content, List.mem_map]
  constructor
  · intro hmem
    exact ⟨event, hmem, rfl⟩
  · rintro ⟨other, hmem, hsame⟩
    have hbytes : other.canonicalBytes = event.canonicalBytes := (Prod.mk.inj hsame).2
    rwa [← ExecutionEvent.canonicalBytes_injective hbytes]

/-- An append to a valid journal. -/
theorem Valid.appendEffect (h : journal.Valid F) (event : ExecutionEvent F) :
    AppendEffect (journal.storedEvents F) event (journal.appendStep event).1
      ((journal.appendStep event).2.storedEvents F) := by
  rw [InMemoryJournal.appendStep]
  rcases h.append_cases event with ⟨e, he⟩ | ⟨hstored, hknown⟩ | ⟨hnew, decoded, hextends⟩
  · rw [he]
    exact .kept (by simp) (by simp)
  · rw [hstored]
    exact .kept (by simp) fun _ => h.mem_storedEvents_iff.mpr hknown
  · rw [hnew]
    simp only [storedEvents_push]
    refine .extended ?_ (by simp)
    rw [h.mem_storedEvents_iff]
    rintro ⟨record, hrecord, hcontent⟩
    exact h.existing?_eq_none_iff.mp hextends.fresh record hrecord (congrArg Prod.fst hcontent)

end InMemoryJournal

/-! ## The SQLite journal -/

namespace SQLiteJournal

/-- A database that holds what some valid in-memory journal holds. -/
structure Holds (F : Type) [PyFloat F] [FloatText F] (sql : SQLiteJournal)
    (journal : InMemoryJournal) : Prop where
  valid : journal.Valid F
  journal_open : journal.closed = false
  database : sql.database = databaseOf journal
  limits : sql.limits = journal.limits

/-- The invariant of a SQLite journal. -/
def Sound (F : Type) [PyFloat F] [FloatText F] (sql : SQLiteJournal) : Prop :=
  ∃ journal, sql.Holds F journal

variable (F) in
/-- The events in the rows of the table. -/
def storedEvents (sql : SQLiteJournal) : List (ExecutionEvent F) :=
  (sql.database.events.map EventRow.payload).filterMap (eventOfPayload F)

variable {sql : SQLiteJournal} {journal : InMemoryJournal}

theorem Holds.storedEvents (h : sql.Holds F journal) :
    sql.storedEvents F = journal.storedEvents F := by
  rw [SQLiteJournal.storedEvents, h.database, databaseOf, List.map_map]
  rfl

theorem Holds.agrees (h : sql.Holds F journal) (hopen : sql.closed = false) :
    Agrees F sql.maxDatabaseBytes.1 sql.pageSize journal sql :=
  ⟨h.valid, h.database, h.limits, h.journal_open, hopen, rfl, rfl⟩

theorem Holds.events (h : sql.Holds F journal) (hopen : sql.closed = false) :
    sql.events F = .ok (sql.storedEvents F) := by
  rw [SQLiteJournal.events, ← (h.agrees hopen).sameReads.exportCanonical,
    h.valid.exportCanonical h.journal_open, ok_bind,
    InMemoryJournal.mapM_decodeEvent h.valid.payloads_decode, h.storedEvents]
  rfl

theorem Holds.count (h : sql.Holds F journal) (hopen : sql.closed = false) :
    sql.count = .ok (sql.storedEvents F).length := by
  rw [← (h.agrees hopen).sameReads.count, InMemoryJournal.count, InMemoryJournal.checkOpen,
    refuseIf_of_not (by simp [h.journal_open]), ok_bind, h.storedEvents,
    h.valid.length_storedEvents, pure_eq_ok]

/-- A written row is the next row, with the metadata that goes with it. -/
theorem writeEvent_eq_ok {database written : JournalDatabase} {head : JournalHead}
    {nextTotal : ℕ} {content : String × List UInt8}
    (h : writeEvent database head nextTotal content = .ok written) :
    written = { metadata := nextMetadata head nextTotal content
                events := database.events ++ [nextRow head content] } := by
  simp only [writeEvent, bind_eq_ok_iff, during, mapError_eq_ok_iff, JournalDatabase.insertEvent,
    refuseIf_eq_ok_iff, exists_const, pure_eq_ok, Except.ok.injEq, ne_eq, not_not] at h
  obtain ⟨inserted, ⟨-, -, -, rfl⟩, ⟨rowcount, updated⟩, hupdate, hrow, rfl⟩ := h
  unfold JournalDatabase.updateMetadata at hupdate
  split at hupdate
  · simp only [bind_eq_ok_iff, refuseIf_eq_ok_iff, exists_const, pure_eq_ok, Except.ok.injEq,
      Prod.mk.injEq] at hupdate
    exact hupdate.2.2.symm
  · cases hupdate
    cases hrow

/-- A transaction that commits has found the event, or stores it as the other
journal would. -/
theorem Holds.transaction_cases (h : sql.Holds F journal) {conditions : AppendConditions}
    {content : String × List UInt8} {decoded : ExecutionEvent F} {stored : Bool}
    {database : JournalDatabase} (hresult :
      sql.transaction conditions content decoded = .ok (stored, database)) :
    (stored = false ∧ ∃ record ∈ journal.records, record.content = content) ∨
      (stored = true ∧ database = databaseOf (journal.push content) ∧
        journal.existing? content.1 = none ∧
        journal.records.length < journal.limits.maxEvents.1 ∧
        journal.totalPayloadBytes + content.2.length ≤ journal.limits.maxTotalPayloadBytes.1 ∧
        journal.checkLast decoded = .ok ()) := by
  have hhead : (databaseOf journal).readMetadata = .ok (journal.head, journal.totalPayloadBytes) :=
    readMetadata_databaseOf journal
  simp only [transaction, bind_eq_ok_iff, h.database, h.valid.find?_eventId] at hresult
  obtain ⟨-, -, hresult⟩ := hresult
  cases hexisting : journal.existing? content.1 with
  | some existing =>
      obtain ⟨hmem, hid⟩ := h.valid.existing?_eq_some_iff.mp hexisting
      rw [hexisting] at hresult
      simp only [Option.map_some, bind_eq_ok_iff] at hresult
      obtain ⟨_, -, hresult⟩ := hresult
      split at hresult
      · next hpayload =>
        simp only [pure_eq_ok, Except.ok.injEq, Prod.mk.injEq] at hresult
        exact .inl ⟨hresult.1.symm, existing, hmem, Prod.ext hid hpayload⟩
      · cases hresult
  | none =>
      rw [hexisting] at hresult
      simp only [Option.map_none, bind_eq_ok_iff, hhead, Except.ok.injEq, refuseIf_eq_ok_iff,
        exists_const, h.limits, Prod.exists, Prod.mk.injEq, pure_eq_ok] at hresult
      obtain ⟨head, total, ⟨rfl, rfl⟩, hcount, htotal, u, hlast, _, -, written, hwritten, _, -,
        rfl, rfl⟩ := hresult
      rw [h.valid.checkTail] at hlast
      refine .inr ⟨rfl, ?_, rfl, not_le.mp hcount, ?_, hlast⟩
      · rw [writeEvent_eq_ok hwritten]
        simp only [databaseOf, InMemoryJournal.push, nextMetadata, nextRow, InMemoryJournal.head,
          rowOf, nextRecord, headHashOf_append_singleton, List.map_append, List.map_singleton,
          List.length_append, List.length_singleton, Nat.cast_add, Nat.cast_one]
      · rw [← h.limits]
        exact not_lt.mp htotal

variable [Json.LawfulFloatText F]

/-- An append to a sound database, under any conditions. -/
theorem Sound.append (h : sql.Sound F) (event : ExecutionEvent F) (conditions : AppendConditions) :
    (sql.append event conditions).2.Sound F ∧
      (sql.append event conditions).2.closed = sql.closed ∧
      AppendEffect (sql.storedEvents F) event (sql.append event conditions).1
        ((sql.append event conditions).2.storedEvents F) := by
  obtain ⟨journal, hholds⟩ := h
  have hsound : sql.Sound F := ⟨journal, hholds⟩
  unfold SQLiteJournal.append
  cases hprepare : sql.prepare event with
  | error e => exact ⟨hsound, rfl, .kept (by simp) (by simp)⟩
  | ok prepared =>
      obtain ⟨content, decoded⟩ := prepared
      simp only [prepare, bind_eq_ok_iff, pure_eq_ok, Except.ok.injEq, Prod.mk.injEq] at hprepare
      obtain ⟨_, -, checked, hcontent, canonicalEvent, hdecoded, hsame, hsame'⟩ := hprepare
      subst hsame hsame'
      obtain ⟨rfl, hlength, other, hother, hid, hcanonical⟩ :=
        InMemoryJournal.canonicalEvent_eq_ok_iff.mp hcontent
      rw [hdecoded, Except.ok.injEq] at hother
      subst hother
      dsimp only
      cases htransaction : sql.transaction conditions (event.eventId, event.canonicalBytes)
          canonicalEvent with
      | error e => exact ⟨hsound, rfl, .kept (by simp) (by simp)⟩
      | ok result =>
          obtain ⟨stored, database⟩ := result
          rcases hholds.transaction_cases htransaction with ⟨rfl, hknown⟩ |
            ⟨rfl, rfl, hfresh, hcount, htotal, hlast⟩
          · refine ⟨hsound, rfl, .kept (by simp) fun _ => ?_⟩
            rw [hholds.storedEvents]
            exact hholds.valid.mem_storedEvents_iff.mpr hknown
          · rw [hholds.limits] at hlength hid
            have hnext : SQLiteJournal.Holds F { sql with
                database := databaseOf (journal.push (event.eventId, event.canonicalBytes)) }
                (journal.push (event.eventId, event.canonicalBytes)) :=
              ⟨hholds.valid.push ⟨hlength, hdecoded, hid, hcanonical, hfresh, hcount, htotal,
                InMemoryJournal.checkLast_eq_ok_iff.mp hlast⟩, hholds.journal_open, rfl,
                hholds.limits⟩
            refine ⟨⟨_, hnext⟩, rfl, ?_⟩
            rw [hnext.storedEvents, hholds.storedEvents, InMemoryJournal.storedEvents_push]
            refine .extended ?_ ?_
            · rw [hholds.valid.mem_storedEvents_iff]
              rintro ⟨record, hrecord, hcontent⟩
              exact hholds.valid.existing?_eq_none_iff.mp hfresh record hrecord
                (congrArg Prod.fst hcontent)
            · simp only [checkCommitted, bind_eq_ok_iff, pure_eq_ok, Except.ok.injEq, ne_eq,
                not_exists, not_and, reduceCtorEq, not_false_eq_true, implies_true]

/-- Appends one after the other, each with what happens around it. -/
def appendAll (sql : SQLiteJournal) (calls : List (ExecutionEvent F × AppendConditions)) :
    List (Except JournalError Bool) × SQLiteJournal :=
  Machine.run (fun sql call => sql.append call.1 call.2) sql calls

theorem sound_appendAll (h : sql.Sound F) (calls : List (ExecutionEvent F × AppendConditions)) :
    (sql.appendAll calls).2.Sound F ∧ (sql.appendAll calls).2.closed = sql.closed := by
  induction calls generalizing sql with
  | nil => exact ⟨h, rfl⟩
  | cons call calls ih =>
      obtain ⟨hnext, hclosed, -⟩ := h.append call.1 call.2
      exact ⟨(ih hnext).1, (ih hnext).2.trans hclosed⟩

/-- A run adds some of its events, in their order. -/
theorem storedEvents_appendAll (h : sql.Sound F)
    (calls : List (ExecutionEvent F × AppendConditions)) :
    ∃ new, (sql.appendAll calls).2.storedEvents F = sql.storedEvents F ++ new ∧
      new.Sublist (calls.map Prod.fst) := by
  induction calls generalizing sql with
  | nil => exact ⟨[], (List.append_nil _).symm, .slnil⟩
  | cons call calls ih =>
      obtain ⟨hnext, -, heffect⟩ := h.append call.1 call.2
      obtain ⟨new, hnew, hsublist⟩ := ih hnext
      replace hnew : (sql.appendAll (call :: calls)).2.storedEvents F = _ := hnew
      rw [hnew]
      generalize (sql.append call.1 call.2).2.storedEvents F = after at heffect
      cases heffect with
      | kept _ _ => exact ⟨new, rfl, hsublist.cons _⟩
      | extended _ _ =>
          exact ⟨call.1 :: new, (List.append_cons _ _ _).symm, hsublist.cons_cons _⟩

/-- What an append has returned for stays stored. -/
theorem mem_storedEvents_appendAll (h : sql.Sound F)
    (calls : List (ExecutionEvent F × AppendConditions)) :
    ∀ answered ∈ (calls.map Prod.fst).zip (sql.appendAll calls).1, answered.2.isOk = true →
      answered.1 ∈ (sql.appendAll calls).2.storedEvents F := by
  induction calls generalizing sql with
  | nil => exact fun _ hanswered => (List.not_mem_nil hanswered).elim
  | cons call calls ih =>
      obtain ⟨hnext, -, heffect⟩ := h.append call.1 call.2
      intro answered hanswered hok
      rcases List.mem_cons.mp hanswered with rfl | hlater
      · obtain ⟨new, hnew, -⟩ := storedEvents_appendAll hnext calls
        exact hnew ▸ List.mem_append_left new (AppendEffect.mem heffect hok)
      · exact ih hnext answered hlater hok

/-- Whatever fails around the appends to a new journal, it holds events that were appended,
in their order and each under an identifier of its own, and among them every event whose
append has returned. -/
theorem appends_are_durable {maxEvents maxEventBytes maxTotalPayloadBytes maxEventIdBytes
    maxDatabaseBytes busyTimeoutMs : ℤ} {pageSize : ℕ}
    (hsql : SQLiteJournal.create maxEvents maxEventBytes maxTotalPayloadBytes maxEventIdBytes
      maxDatabaseBytes busyTimeoutMs pageSize = .ok sql)
    (calls : List (ExecutionEvent F × AppendConditions)) :
    ∃ events : List (ExecutionEvent F), (sql.appendAll calls).2.events F = .ok events ∧
      (events.map fun event => event.eventId).Nodup ∧ events.Sublist (calls.map Prod.fst) ∧
      ∀ answered ∈ (calls.map Prod.fst).zip (sql.appendAll calls).1,
        answered.2.isOk = true → answered.1 ∈ events := by
  have hcreated := hsql
  simp only [create, bind_eq_ok_iff] at hcreated
  obtain ⟨limits, hlimits, -⟩ := hcreated
  have hjournal : ∃ journal, InMemoryJournal.create maxEvents maxEventBytes maxTotalPayloadBytes
      maxEventIdBytes = .ok journal := by
    rw [InMemoryJournal.create, hlimits]
    exact ⟨_, rfl⟩
  obtain ⟨journal, hjournal⟩ := hjournal
  have hagrees := agrees_of_create (F := F) hjournal hsql
  have hholds : sql.Holds F journal :=
    ⟨hagrees.valid, hagrees.journal_open, hagrees.database, hagrees.limits⟩
  have hnone : sql.storedEvents F = [] := by
    rw [hholds.storedEvents, InMemoryJournal.storedEvents,
      (InMemoryJournal.valid_of_create (F := F) hjournal).2.1]
    rfl
  obtain ⟨⟨last, hlast⟩, hclosed⟩ := sound_appendAll ⟨journal, hholds⟩ calls
  obtain ⟨new, hnew, hsublist⟩ := storedEvents_appendAll ⟨journal, hholds⟩ calls
  refine ⟨_, hlast.events (hclosed.trans hagrees.sql_open), ?_, ?_,
    mem_storedEvents_appendAll ⟨journal, hholds⟩ calls⟩
  · rw [hlast.storedEvents]
    exact hlast.valid.nodup_eventIds
  · rw [hnew, hnone]
    exact hsublist

end SQLiteJournal

end SignalFoundry

namespace SignalFoundry

open Platform in
/-- The stop of a run is stored, and appended again after a failure it stays. -/
theorem appends_are_durable_operatorHalt : ∃ events : List (ExecutionEvent ℚ),
    (twoEventDatabase.appendAll [(operatorHalt, calm)]).2.events ℚ = .ok events ∧
      events.Sublist [operatorHalt] := by
  have hsql : SQLiteJournal.create 2 131072 262144 64 1048576 5000 4096 =
      .ok twoEventDatabase := rfl
  obtain ⟨events, hevents, -, hsublist, -⟩ := SQLiteJournal.appends_are_durable (F := ℚ) hsql
    [(operatorHalt, calm)]
  exact ⟨events, hevents, hsublist⟩

end SignalFoundry
