import SignalFoundry.Backtesting.Journal.Valid
import SignalFoundry.Execution.Events.RoundTrip

/-!
# Reachable journals

A journal that was created within some limits stays valid under every call, so
its own head passes verification. By the uniqueness of verified records no other
list of records passes verification against that head.
-/

namespace SignalFoundry

open Fallible

section Runs

variable [PyRuntime] {F : Type} [PyFloat F] [FloatText F]

/-- A call that may change a journal. -/
inductive JournalCall (F : Type) [PyRuntime] [PyFloat F] [FloatText F] where
  | append (event : ExecutionEvent F)
  | close

/-- The journal after a call. A call that raises leaves it as it was. -/
def JournalCall.after (journal : InMemoryJournal) : JournalCall F → InMemoryJournal
  | append event =>
      match journal.append event with
      | .ok (_, next) => next
      | .error _ => journal
  | close => journal.close

theorem JournalCall.foldl_append {journal next : InMemoryJournal} {event : ExecutionEvent F}
    {stored : Bool} (h : journal.append event = .ok (stored, next)) :
    [JournalCall.append event].foldl JournalCall.after journal = next := by
  simp only [List.foldl_cons, List.foldl_nil, JournalCall.after, h]

namespace InMemoryJournal

variable {journal : InMemoryJournal}

theorem Valid.close (h : journal.Valid F) : journal.close.Valid F :=
  ⟨h.verifies, h.count_le, h.indexed⟩

theorem Valid.after (h : journal.Valid F) (call : JournalCall F) : (call.after journal).Valid F := by
  cases call with
  | close => exact h.close
  | append event =>
      rcases h.append_cases event with ⟨e, he⟩ | ⟨hstored, -⟩ | ⟨hnew, decoded, hextends⟩
      · simp only [JournalCall.after, he]
        exact h
      · simp only [JournalCall.after, hstored]
        exact h
      · simp only [JournalCall.after, hnew]
        exact h.push hextends

theorem Valid.foldl_after (h : journal.Valid F) (calls : List (JournalCall F)) :
    (calls.foldl JournalCall.after journal).Valid F := by
  induction calls generalizing journal with
  | nil => exact h
  | cons call calls ih => exact ih (h.after call)

/-- A valid journal passes verification against its own head. -/
theorem Valid.verifiedRecords (h : journal.Valid F) :
    SignalFoundry.verifiedRecords F journal.records journal.head journal.totalPayloadBytes
      journal.limits = .ok (journal.records.map JournalRecord.payload) := by
  obtain ⟨state, hrun, htotal⟩ := h.verifies
  have htracks := tracks_of_foldlM hrun
  refine verifiedRecords_eq_ok_iff.mpr ⟨rfl, h.count_le, state, hrun, htotal,
    htracks.previousHash, ?_, htracks.payloads⟩
  intro hcount
  show headHashOf journal.records = genesisHash
  rw [List.length_eq_zero_iff.mp hcount]
  rfl

theorem Valid.exportCanonical (h : journal.Valid F) (hopen : journal.closed = false) :
    journal.exportCanonical F = .ok (journal.records.map JournalRecord.payload) := by
  rw [InMemoryJournal.exportCanonical, checkOpen, refuseIf_of_not (by simp [hopen]), ok_bind,
    h.verifiedRecords]

theorem Valid.verify (h : journal.Valid F) (hopen : journal.closed = false) :
    journal.verify F = .ok journal.head := by
  rw [InMemoryJournal.verify, h.exportCanonical hopen, ok_bind, pure_eq_ok]

/-- Tamper evidence. Two lists of records that are accepted under one head have
the same contents, and no list but its own records is accepted under the head of
a journal that was reached by any calls. -/
theorem tamper_evident {maxEvents maxEventBytes maxTotalPayloadBytes maxEventIdBytes : ℤ}
    {journal₀ : InMemoryJournal}
    (hcreate : create maxEvents maxEventBytes maxTotalPayloadBytes maxEventIdBytes = .ok journal₀)
    (calls : List (JournalCall F)) :
    (∀ (records records' : List JournalRecord) (head : JournalHead) (total total' : ℕ)
        (limits limits' : JournalLimits) (payloads payloads' : List (List UInt8)),
      SignalFoundry.verifiedRecords F records head total limits = .ok payloads →
      SignalFoundry.verifiedRecords F records' head total' limits' = .ok payloads' →
      ChainCollisionFree (records.map JournalRecord.content)
        (records'.map JournalRecord.content) →
      records.map JournalRecord.content = records'.map JournalRecord.content) ∧
    (∀ (records : List JournalRecord) (total : ℕ) (limits : JournalLimits),
      records ≠ (calls.foldl JournalCall.after journal₀).records →
      ChainCollisionFree (records.map JournalRecord.content)
        ((calls.foldl JournalCall.after journal₀).records.map JournalRecord.content) →
      ∃ e, SignalFoundry.verifiedRecords F records (calls.foldl JournalCall.after journal₀).head
        total limits = .error e) := by
  refine ⟨?_, ?_⟩
  · intro records records' head total total' limits limits' payloads payloads' h h' hfree
    exact contents_eq_of_verifiedRecords h h' hfree
  · intro records total limits hne hfree
    have hvalid : (calls.foldl JournalCall.after journal₀).Valid F :=
      (valid_of_create hcreate).1.foldl_after calls
    cases hverified : SignalFoundry.verifiedRecords F records
        (calls.foldl JournalCall.after journal₀).head total limits with
    | error e => exact ⟨e, rfl⟩
    | ok payloads =>
        exact absurd (records_eq_of_verifiedRecords hverified hvalid.verifiedRecords hfree) hne

/-! ## Events that are stored -/

/-- The identifier of an event is a digest, which has no control character. -/
theorem checkedEventId_eventId (event : ExecutionEvent F) {maximumBytes : ℕ}
    (h : 64 ≤ maximumBytes) : checkedEventId event.eventId maximumBytes = .ok event.eventId := by
  have hlength : (PyText.encodeUtf8 event.eventId).length = 64 := by
    rw [EventFields.eventId, PyText.length_encodeUtf8_hexText, PyRuntime.sha256_length]
  have hhex : ∀ c, PyText.isHexDigit c = true → (c < ' ' || c == '\x7F') = false := by
    intro c hc
    simp only [PyText.isHexDigit, PyText.isDigitAscii, Bool.or_eq_true, Bool.and_eq_true,
      decide_eq_true_eq] at hc
    rw [Bool.or_eq_false_iff, decide_eq_false_iff_not, beq_eq_false_iff_ne]
    rcases hc with ⟨hlow, hhigh⟩ | ⟨hlow, hhigh⟩
    · exact ⟨not_lt.mpr (le_trans (by decide) hlow), (lt_of_le_of_lt hhigh (by decide)).ne⟩
    · exact ⟨not_lt.mpr (le_trans (by decide) hlow), (lt_of_le_of_lt hhigh (by decide)).ne⟩
  have hrun := event.isDigest_eventId
  simp only [EventText.isDigest, PyText.isRun, Bool.and_eq_true, List.all_eq_true] at hrun
  refine checkedEventId_eq_ok_iff.mpr ⟨⟨?_, hlength.trans_le h⟩, ?_, rfl⟩
  · intro hnil
    simp [hnil] at hlength
  · rw [List.any_eq_false]
    intro c hc
    rw [hhex c (hrun.1 c hc)]
    exact Bool.false_ne_true

theorem decodeEvent_canonicalBytes [Json.LawfulFloatText F] (event : ExecutionEvent F) :
    decodeEvent F event.canonicalBytes = .ok event := by
  rw [decodeEvent, ExecutionEvent.fromCanonicalBytes_canonicalBytes]

/-- An event within the limits passes the checks of the event alone. -/
theorem canonicalEvent_of_le [Json.LawfulFloatText F] {limits : JournalLimits}
    {event : ExecutionEvent F} (hid : 64 ≤ limits.maxEventIdBytes.1)
    (hsize : event.canonicalBytes.length ≤ limits.maxEventBytes.1) :
    canonicalEvent limits event = .ok (event.eventId, event.canonicalBytes) := by
  have hdecode := decodeEvent_canonicalBytes event
  have hcheck := checkedEventId_eventId event hid
  rw [canonicalEvent_eq_ok_iff]
  dsimp only
  exact ⟨rfl, hsize, event, hdecode, hcheck, rfl⟩

/-- An event within the limits is stored in an empty journal. -/
theorem Valid.append_empty [Json.LawfulFloatText F] (h : journal.Valid F)
    (hopen : journal.closed = false) (hempty : journal.records = [])
    (hid : 64 ≤ journal.limits.maxEventIdBytes.1) {event : ExecutionEvent F}
    (hsize : event.canonicalBytes.length ≤ journal.limits.maxEventBytes.1) :
    journal.append event = .ok (true, journal.push (event.eventId, event.canonicalBytes)) := by
  obtain ⟨state, hrun, htotal⟩ := h.verifies
  rw [hempty, List.foldlM_nil, pure_eq_ok, Except.ok.injEq] at hrun
  have hzero : journal.totalPayloadBytes = 0 := by
    rw [← htotal, ← hrun]
    rfl
  have hfits : ¬ (0 + event.canonicalBytes.length > journal.limits.maxTotalPayloadBytes.1) := by
    rw [Nat.zero_add]
    exact not_lt.mpr (hsize.trans journal.limits.maxTotalPayloadBytes.2.1)
  have hfresh : journal.existing? event.eventId = none :=
    h.existing?_eq_none_iff.mpr (by simp [hempty])
  have hcount : ¬ (journal.records.length ≥ journal.limits.maxEvents.1) := by
    rw [hempty]
    exact not_le.mpr journal.limits.maxEvents.2.1
  have hlast : journal.checkLast event = .ok () := by
    rw [checkLast, hempty, List.getLast?_nil]
  rw [append, canonicalEvent_of_le hid hsize, ok_bind, decodeEvent_canonicalBytes, ok_bind, store,
    checkOpen, refuseIf_of_not (by simp [hopen]), ok_bind]
  simp only [hfresh, hzero]
  rw [refuseIf_of_not hcount, ok_bind, refuseIf_of_not hfits, ok_bind, hlast, ok_bind, pure_eq_ok]

end InMemoryJournal

end Runs

/-- A journal for two events of any size. -/
def twoEventJournal : InMemoryJournal where
  limits := {
    maxEvents := ⟨2, by decide⟩
    maxEventBytes := ⟨maxCanonicalBytes, by decide⟩
    maxTotalPayloadBytes := ⟨2 * maxCanonicalBytes, by decide⟩
    maxEventIdBytes := ⟨64, by decide⟩ }
  records := []
  indices := .empty
  totalPayloadBytes := 0
  closed := false
  eventHash_length := InMemoryJournal.eventHash_length_nil

theorem create_twoEventJournal :
    InMemoryJournal.create 2 131072 262144 64 = .ok twoEventJournal := rfl

open Platform in
theorem append_operatorHalt :
    twoEventJournal.append operatorHalt =
      .ok (true, twoEventJournal.push (operatorHalt.eventId, operatorHalt.canonicalBytes)) := by
  obtain ⟨hvalid, hempty, hopen⟩ :=
    InMemoryJournal.valid_of_create (F := ℚ) create_twoEventJournal
  exact hvalid.append_empty hopen hempty le_rfl operatorHalt.size_le

open Platform in
/-- A journal of one event: its records without that event are refused, and
accepted records have the event as their content. -/
theorem InMemoryJournal.tamper_evident_operatorHalt :
    (∃ e, verifiedRecords ℚ [] ([.append operatorHalt].foldl JournalCall.after
      twoEventJournal).head 0 twoEventJournal.limits = .error e) ∧
    ∀ (records : List JournalRecord) (payloads : List (List UInt8)),
      verifiedRecords ℚ records ([.append operatorHalt].foldl JournalCall.after
        twoEventJournal).head operatorHalt.canonicalBytes.length twoEventJournal.limits =
          .ok payloads →
      ChainCollisionFree (records.map JournalRecord.content)
        [(operatorHalt.eventId, operatorHalt.canonicalBytes)] →
      records.map JournalRecord.content =
        [(operatorHalt.eventId, operatorHalt.canonicalBytes)] := by
  have hrecords : ([JournalCall.append operatorHalt].foldl JournalCall.after
      twoEventJournal).records = [nextRecord 0 genesisHash
        (operatorHalt.eventId, operatorHalt.canonicalBytes)] := by
    rw [JournalCall.foldl_append append_operatorHalt]
    -- The content is a variable, so that nothing computes its digest.
    generalize (operatorHalt.eventId, operatorHalt.canonicalBytes) = content
    rfl
  have hvalid := (InMemoryJournal.valid_of_create (F := ℚ) create_twoEventJournal).1.foldl_after
    [.append operatorHalt]
  obtain ⟨hsame, hrefused⟩ :=
    InMemoryJournal.tamper_evident create_twoEventJournal [.append operatorHalt]
  refine ⟨hrefused [] 0 _ (by rw [hrecords]; simp) (fun l hl => nomatch hl), ?_⟩
  intro records payloads hrun hfree
  have hcontents := hsame _ _ _ _ _ _ _ _ _ hrun hvalid.verifiedRecords
  rw [hrecords] at hcontents
  exact hcontents hfree

end SignalFoundry
