import SignalFoundry.Backtesting.Journal.TamperEvidence

/-!
# Valid journals

`Valid` is the invariant of an in-memory journal: its records pass the
verification loop, its totals are those of the loop, and its index finds every
record. An append that is not refused extends a valid journal by the record of
its event; whatever it does, the journal verifies afterwards.
-/

namespace SignalFoundry

open Fallible

variable [PyRuntime] {F : Type} [PyFloat F] [FloatText F]

/-- What the verification loop has accumulated over a list of records. -/
structure Tracks (F : Type) [PyFloat F] [FloatText F] (records : List JournalRecord)
    (state : VerifyState) : Prop where
  ordinal : state.ordinal = records.length + 1
  seenIds : ∀ id, id ∈ state.seenIds ↔ ∃ record ∈ records, record.eventId = id
  previousHash : state.previousHash = headHashOf records
  previousOrderKey : ∀ record ∈ records.getLast?, ∃ decoded : ExecutionEvent F,
    decodeEvent F record.payload = .ok decoded ∧
      state.previousOrderKey = some decoded.orderKey
  noOrderKey : records = [] → state.previousOrderKey = none
  payloads : state.payloads = records.map JournalRecord.payload

theorem tracks_nil : Tracks F [] VerifyState.initial where
  ordinal := rfl
  seenIds := by simp [VerifyState.initial]
  previousHash := rfl
  previousOrderKey := by simp
  noOrderKey _ := rfl
  payloads := rfl

theorem Tracks.next {records : List JournalRecord} {state : VerifyState}
    {record : JournalRecord} {decoded : ExecutionEvent F} {limits : JournalLimits}
    (h : Tracks F records state) (hrecord : RecordVerified limits state record decoded) :
    Tracks F (records ++ [record]) (state.next record decoded) where
  ordinal := by simp [VerifyState.next, h.ordinal]
  seenIds := by
    intro id
    simp only [VerifyState.next, List.mem_cons, h.seenIds, List.mem_append]
    constructor
    · rintro (rfl | ⟨r, hr, rfl⟩)
      · exact ⟨record, .inr (.inl rfl), rfl⟩
      · exact ⟨r, .inl hr, rfl⟩
    · rintro ⟨r, hr | (rfl | hr), rfl⟩
      · exact .inr ⟨r, hr, rfl⟩
      · exact .inl rfl
      · cases hr
  previousHash := by
    rw [headHashOf_append_singleton, hrecord.eventHash]
    rfl
  previousOrderKey := by
    intro last hlast
    rw [List.getLast?_append, List.getLast?_singleton, Option.some_or, Option.mem_some_iff] at hlast
    subst hlast
    exact ⟨decoded, hrecord.decodes, rfl⟩
  noOrderKey hnil := by simp at hnil
  payloads := by simp [VerifyState.next, h.payloads]

/-- The loop over a list that passes it. -/
theorem tracks_of_foldlM {limits : JournalLimits} {records : List JournalRecord}
    {state : VerifyState}
    (h : records.foldlM (verifyRecord F limits) VerifyState.initial = .ok state) :
    Tracks F records state := by
  induction records using List.reverseRecOn generalizing state with
  | nil =>
      cases h
      exact tracks_nil
  | append_singleton records record ih =>
      rw [List.foldlM_append, bind_eq_ok_iff] at h
      obtain ⟨previous, hprevious, hlast⟩ := h
      simp only [List.foldlM_cons, List.foldlM_nil, bind_eq_ok_iff, pure_eq_ok, Except.ok.injEq,
        exists_eq_right] at hlast
      obtain ⟨decoded, hverified, rfl⟩ := verifyRecord_eq_ok_iff.mp hlast
      exact (ih hprevious).next hverified

namespace InMemoryJournal

/-- The invariant of an in-memory journal. -/
structure Valid (F : Type) [PyFloat F] [FloatText F] (journal : InMemoryJournal) : Prop where
  verifies : ∃ state, journal.records.foldlM (verifyRecord F journal.limits) VerifyState.initial =
    .ok state ∧ state.totalPayloadBytes = journal.totalPayloadBytes
  count_le : journal.records.length ≤ journal.limits.maxEvents.1
  indexed : ∀ id index, journal.indices.get? id = some index ↔
    ∃ record, journal.records[index]? = some record ∧ record.eventId = id

theorem valid_of_create {maxEvents maxEventBytes maxTotalPayloadBytes maxEventIdBytes : ℤ}
    {journal : InMemoryJournal}
    (h : create maxEvents maxEventBytes maxTotalPayloadBytes maxEventIdBytes = .ok journal) :
    journal.Valid F ∧ journal.records = [] ∧ journal.closed = false := by
  simp only [create, bind_eq_ok_iff, pure_eq_ok, Except.ok.injEq] at h
  obtain ⟨limits, -, rfl⟩ := h
  exact ⟨⟨⟨VerifyState.initial, rfl, rfl⟩, Nat.zero_le _, by simp⟩, rfl, rfl⟩

variable {journal : InMemoryJournal}

/-- A record that the index finds, and that no other record has its identifier. -/
theorem Valid.existing?_eq_some_iff (h : journal.Valid F) {id : String} {record : JournalRecord} :
    journal.existing? id = some record ↔ record ∈ journal.records ∧ record.eventId = id := by
  simp only [existing?, Option.bind_eq_bind, Option.bind_eq_some_iff, h.indexed]
  constructor
  · rintro ⟨index, ⟨found, hfound, hid⟩, hrecord⟩
    rw [hfound] at hrecord
    cases hrecord
    exact ⟨List.mem_of_getElem? hfound, hid⟩
  · rintro ⟨hmem, hid⟩
    obtain ⟨index, hindex⟩ := List.getElem?_of_mem hmem
    exact ⟨index, ⟨record, hindex, hid⟩, hindex⟩

theorem Valid.existing?_eq_none_iff (h : journal.Valid F) {id : String} :
    journal.existing? id = none ↔ ∀ record ∈ journal.records, record.eventId ≠ id := by
  rw [Option.eq_none_iff_forall_ne_some]
  constructor
  · intro hnone record hmem hid
    exact hnone record (h.existing?_eq_some_iff.mpr ⟨hmem, hid⟩)
  · intro hnone record hsome
    obtain ⟨hmem, hid⟩ := h.existing?_eq_some_iff.mp hsome
    exact hnone record hmem hid

theorem canonicalEvent_eq_ok_iff {limits : JournalLimits} {event : ExecutionEvent F}
    {content : String × List UInt8} :
    canonicalEvent limits event = .ok content ↔
      content = (event.eventId, event.canonicalBytes) ∧
        content.2.length ≤ limits.maxEventBytes.1 ∧
        ∃ decoded : ExecutionEvent F, decodeEvent F content.2 = .ok decoded ∧
          checkedEventId decoded.eventId limits.maxEventIdBytes.1 = .ok content.1 ∧
          decoded.canonicalBytes = content.2 := by
  simp only [canonicalEvent, bind_eq_ok_iff, refuseIf_eq_ok_iff, exists_const, pure_eq_ok,
    Except.ok.injEq, not_not, gt_iff_lt, not_lt, ne_eq]
  -- The bytes are a variable, so that no step evaluates their length.
  generalize event.canonicalBytes = bytes
  constructor
  · rintro ⟨eventId, heventId, hlength, decoded, hdecoded, decodedId, hdecodedId, rfl, hcanonical,
      rfl⟩
    obtain ⟨-, -, rfl⟩ := checkedEventId_eq_ok_iff.mp heventId
    exact ⟨rfl, hlength, decoded, hdecoded, hdecodedId, hcanonical⟩
  · obtain ⟨eventId, payload⟩ := content
    rintro ⟨hsame, hlength, decoded, hdecoded, hdecodedId, hcanonical⟩
    obtain ⟨rfl, hpayload⟩ := Prod.mk.inj hsame
    rw [← hpayload]
    refine ⟨event.eventId, ?_, hlength, decoded, hdecoded, event.eventId, hdecodedId, rfl,
      hcanonical, rfl⟩
    obtain ⟨hsize, hcontrol, hid⟩ := checkedEventId_eq_ok_iff.mp hdecodedId
    rw [hid] at hsize hcontrol
    exact checkedEventId_eq_ok_iff.mpr ⟨hsize, hcontrol, rfl⟩

theorem checkOrder_eq_ok_iff {event : ExecutionEvent F} {lastPayload : List UInt8} {u : Unit} :
    checkOrder event lastPayload = .ok u ↔ ∃ previous : ExecutionEvent F,
      decodeEvent F lastPayload = .ok previous ∧ previous.orderKey < event.orderKey := by
  simp [checkOrder]

theorem checkLast_eq_ok_iff {event : ExecutionEvent F} {u : Unit} :
    journal.checkLast event = .ok u ↔ ∀ last ∈ journal.records.getLast?,
      ∃ previous : ExecutionEvent F,
        decodeEvent F last.payload = .ok previous ∧ previous.orderKey < event.orderKey := by
  unfold checkLast
  cases journal.records.getLast? with
  | none => simp
  | some last => simp [checkOrder_eq_ok_iff]

/-- The checks that `append` makes before it stores a content. -/
structure Extends (journal : InMemoryJournal) (content : String × List UInt8)
    (decoded : ExecutionEvent F) : Prop where
  payload_length : content.2.length ≤ journal.limits.maxEventBytes.1
  decodes : decodeEvent F content.2 = .ok decoded
  eventId : checkedEventId decoded.eventId journal.limits.maxEventIdBytes.1 = .ok content.1
  canonical : decoded.canonicalBytes = content.2
  fresh : journal.existing? content.1 = none
  count_lt : journal.records.length < journal.limits.maxEvents.1
  total_le : journal.totalPayloadBytes + content.2.length ≤ journal.limits.maxTotalPayloadBytes.1
  ordered : ∀ last ∈ journal.records.getLast?, ∃ previous : ExecutionEvent F,
    decodeEvent F last.payload = .ok previous ∧ previous.orderKey < decoded.orderKey

variable {content : String × List UInt8} {decoded : ExecutionEvent F}

/-- A checked content makes a record that the verification loop accepts. -/
theorem Extends.recordVerified (h : journal.Extends content decoded) {state : VerifyState}
    (htracks : Tracks F journal.records state)
    (htotal : state.totalPayloadBytes = journal.totalPayloadBytes) (hvalid : journal.Valid F) :
    RecordVerified journal.limits state
      (nextRecord journal.records.length (headHashOf journal.records) content) decoded := by
  have hfresh : content.1 ∉ state.seenIds := by
    rw [htracks.seenIds]
    rintro ⟨record, hrecord, hsame⟩
    exact hvalid.existing?_eq_none_iff.mp h.fresh record hrecord hsame
  have hordered : ∀ key ∈ state.previousOrderKey, key < decoded.orderKey := by
    intro key hkey
    cases hlast : journal.records.getLast? with
    | none =>
        rw [htracks.noOrderKey (List.getLast?_eq_none_iff.mp hlast)] at hkey
        cases hkey
    | some last =>
        obtain ⟨previous, hprevious, hlt⟩ := h.ordered last hlast
        obtain ⟨previous', hprevious', hkey'⟩ := htracks.previousOrderKey last hlast
        rw [hprevious, Except.ok.injEq] at hprevious'
        rw [hkey', Option.mem_some_iff, ← hprevious'] at hkey
        exact hkey ▸ hlt
  have htotalLe : state.totalPayloadBytes + content.2.length ≤
      journal.limits.maxTotalPayloadBytes.1 := by
    rw [htotal]
    exact h.total_le
  have hhash : chainHash (headHashOf journal.records) content =
      chainHash state.previousHash content := by
    rw [htracks.previousHash]
  exact ⟨htracks.ordinal.symm, hfresh, htracks.previousHash.symm, h.payload_length, hhash,
    h.decodes, h.eventId, h.canonical, hordered, htotalLe⟩

/-- The index after a push finds the new record under its identifier. -/
theorem Valid.indexed_push (hvalid : journal.Valid F)
    (hfresh : journal.existing? content.1 = none) (id : String) (index : ℕ) :
    (journal.push content).indices.get? id = some index ↔
      ∃ record, (journal.push content).records[index]? = some record ∧ record.eventId = id := by
  have hnew := hvalid.existing?_eq_none_iff.mp hfresh
  simp only [InMemoryJournal.push, OrderedDict.get?_set]
  rcases eq_or_ne id content.1 with rfl | hid
  · rw [if_pos rfl, Option.some.injEq]
    constructor
    · rintro rfl
      exact ⟨_, List.getElem?_concat_length, rfl⟩
    · rintro ⟨record, hrecord, hsame⟩
      rcases List.mem_append.mp (List.mem_of_getElem? hrecord) with hold | hlast
      · exact absurd hsame (hnew record hold)
      · by_contra hne
        rw [List.getElem?_append] at hrecord
        split at hrecord
        · exact hnew record (List.mem_of_getElem? hrecord) hsame
        · have hbound := (List.getElem?_eq_some_iff.mp hrecord).1
          simp only [List.length_singleton] at hbound
          omega
  · rw [if_neg hid, hvalid.indexed]
    constructor
    · rintro ⟨record, hrecord, hsame⟩
      have hbound := (List.getElem?_eq_some_iff.mp hrecord).1
      exact ⟨record, by rw [List.getElem?_append_left hbound, hrecord], hsame⟩
    · rintro ⟨record, hrecord, hsame⟩
      rw [List.getElem?_append] at hrecord
      split at hrecord
      · exact ⟨record, hrecord, hsame⟩
      · have hlast := List.mem_of_getElem? hrecord
        rw [List.mem_singleton.mp hlast] at hsame
        exact absurd hsame.symm hid

/-- The journal with the record of a checked content is valid. -/
theorem Valid.push (hvalid : journal.Valid F) (h : journal.Extends content decoded) :
    (journal.push content).Valid F := by
  obtain ⟨state, hrun, htotal⟩ := hvalid.verifies
  have hrecord := h.recordVerified (tracks_of_foldlM hrun) htotal hvalid
  have hstep := verifyRecord_eq_ok_iff.mpr ⟨decoded, hrecord, rfl⟩
  have hpush : (journal.records ++ [nextRecord journal.records.length
      (headHashOf journal.records) content]).foldlM (verifyRecord F journal.limits)
        VerifyState.initial = .ok (state.next (nextRecord journal.records.length
          (headHashOf journal.records) content) decoded) := by
    rw [List.foldlM_append, hrun, ok_bind, List.foldlM_cons, hstep, ok_bind, List.foldlM_nil,
      pure_eq_ok]
  refine ⟨⟨_, hpush, ?_⟩, ?_, hvalid.indexed_push h.fresh⟩
  · rw [VerifyState.next, htotal]
    rfl
  · rw [InMemoryJournal.push, List.length_append]
    exact h.count_lt

/-- What storing a content in an open valid journal does. -/
theorem Valid.store_cases (hvalid : journal.Valid F) :
    (∃ e, journal.store content decoded = .error e) ∨
      (journal.store content decoded = .ok (false, journal) ∧
        ∃ record ∈ journal.records, record.content = content) ∨
      (journal.store content decoded = .ok (true, journal.push content) ∧
        journal.existing? content.1 = none ∧
        journal.records.length < journal.limits.maxEvents.1 ∧
        journal.totalPayloadBytes + content.2.length ≤ journal.limits.maxTotalPayloadBytes.1 ∧
        ∀ last ∈ journal.records.getLast?, ∃ previous : ExecutionEvent F,
          decodeEvent F last.payload = .ok previous ∧ previous.orderKey < decoded.orderKey) := by
  cases hresult : journal.store content decoded with
  | error e => exact .inl ⟨e, rfl⟩
  | ok result =>
      right
      simp only [store, bind_eq_ok_iff] at hresult
      obtain ⟨-, -, hresult⟩ := hresult
      cases hexisting : journal.existing? content.1 with
      | some existing =>
          obtain ⟨hmem, hid⟩ := hvalid.existing?_eq_some_iff.mp hexisting
          rw [hexisting] at hresult
          simp only [pure_eq_ok] at hresult
          split at hresult
          · next hpayload =>
              cases hresult
              exact .inl ⟨rfl, existing, hmem, Prod.ext hid hpayload⟩
          · cases hresult
      | none =>
          right
          rw [hexisting] at hresult
          simp only [bind_eq_ok_iff, refuseIf_eq_ok_iff, exists_const, not_le, gt_iff_lt, not_lt,
            ge_iff_le] at hresult
          obtain ⟨hcount, htotal, u, hlast, hresult⟩ := hresult
          cases hresult
          exact ⟨rfl, rfl, hcount, htotal, checkLast_eq_ok_iff.mp hlast⟩

/-- What an append to a valid journal does. -/
theorem Valid.append_cases (hvalid : journal.Valid F) (event : ExecutionEvent F) :
    (∃ e, journal.append event = .error e) ∨
      (journal.append event = .ok (false, journal) ∧
        ∃ record ∈ journal.records, record.content = (event.eventId, event.canonicalBytes)) ∨
      (journal.append event =
          .ok (true, journal.push (event.eventId, event.canonicalBytes)) ∧
        ∃ decoded : ExecutionEvent F,
          journal.Extends (event.eventId, event.canonicalBytes) decoded) := by
  cases hcontent : canonicalEvent journal.limits event with
  | error e => exact .inl ⟨e, by rw [append, hcontent, error_bind]⟩
  | ok content =>
      obtain ⟨hsame, hlength, decoded, hdecoded, hid, hcanonical⟩ :=
        canonicalEvent_eq_ok_iff.mp hcontent
      have happend : journal.append event = journal.store content decoded := by
        rw [append, hcontent, ok_bind, hdecoded, ok_bind]
      rw [happend, ← hsame]
      rcases hvalid.store_cases with herror | hstored | ⟨hok, hfresh, hcount, htotal, hordered⟩
      · exact .inl herror
      · exact .inr (.inl hstored)
      · exact .inr (.inr ⟨hok, decoded, hlength, hdecoded, hid, hcanonical, hfresh, hcount, htotal,
          hordered⟩)

end InMemoryJournal

end SignalFoundry
