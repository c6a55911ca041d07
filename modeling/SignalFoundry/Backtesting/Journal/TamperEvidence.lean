import SignalFoundry.Backtesting.Journal.InMemory
import SignalFoundry.Library.HashChain

/-!
# Tamper evidence

The bytes that are hashed for a record are uniquely decodable: a fixed domain,
the previous digest of fixed size, and two fields that carry their lengths. The
records of a verified list form a hash chain of their contents and are otherwise
determined by them, so an expected head admits one list only.
-/

namespace SignalFoundry

open Fallible

/-! ## The chain input is uniquely decodable -/

theorem length_lengthBytes (n : ℕ) : (lengthBytes n).length = 8 := by
  simp [lengthBytes]

theorem lengthBytes_injective {n m : ℕ} (hn : n < 2 ^ 64) (hm : m < 2 ^ 64)
    (h : lengthBytes n = lengthBytes m) : n = m := by
  have hrange : List.range 8 = [0, 1, 2, 3, 4, 5, 6, 7] := by decide
  have hbyte : ∀ a b : ℕ, UInt8.ofNat a = UInt8.ofNat b → a % 256 = b % 256 := fun a b hab => by
    simpa using congrArg UInt8.toNat hab
  simp only [lengthBytes, hrange, List.map_cons, List.map_nil, List.cons.injEq, and_true] at h
  obtain ⟨h₀, h₁, h₂, h₃, h₄, h₅, h₆, h₇⟩ := h
  have := hbyte _ _ h₀
  have := hbyte _ _ h₁
  have := hbyte _ _ h₂
  have := hbyte _ _ h₃
  have := hbyte _ _ h₄
  have := hbyte _ _ h₅
  have := hbyte _ _ h₆
  have := hbyte _ _ h₇
  simp only [Nat.reducePow, Nat.reduceSub] at *
  omega

/-- A content whose lengths fit in eight bytes. -/
def Encodable (content : String × List UInt8) : Prop :=
  (PyText.encodeUtf8 content.1).length < 2 ^ 64 ∧ content.2.length < 2 ^ 64

theorem chainInput_injective {previous previous' : List UInt8}
    {content content' : String × List UInt8} (hsize : previous.length = previous'.length)
    (hcontent : Encodable content) (hcontent' : Encodable content')
    (h : chainInput previous content = chainInput previous' content') :
    previous = previous' ∧ content = content' := by
  simp only [chainInput] at h
  obtain ⟨-, h⟩ := List.append_inj h rfl
  obtain ⟨hprevious, h⟩ := List.append_inj h hsize
  obtain ⟨hidentifier, h⟩ := List.append_inj h (by simp [length_lengthBytes])
  have hidLength := lengthBytes_injective hcontent.1 hcontent'.1 hidentifier
  obtain ⟨hid, h⟩ := List.append_inj h hidLength
  obtain ⟨-, hpayload⟩ := List.append_inj h (by simp [length_lengthBytes])
  exact ⟨hprevious, Prod.ext (PyText.encodeUtf8_injective hid) hpayload⟩

/-! ## Verified records form a chain -/

theorem checkedEventId_eq_ok_iff {eventId checked : String} {maximumBytes : ℕ} :
    checkedEventId eventId maximumBytes = .ok checked ↔
      (PyText.encodeUtf8 eventId ≠ [] ∧ (PyText.encodeUtf8 eventId).length ≤ maximumBytes) ∧
        (eventId.toList.any fun c => c < ' ' || c == '\x7F') = false ∧ eventId = checked := by
  simp only [checkedEventId, bind_eq_ok_iff, refuseIf_eq_ok_iff, exists_const, pure_eq_ok,
    Except.ok.injEq, not_or, not_lt, Bool.not_eq_true, gt_iff_lt, ne_eq]

variable [PyRuntime]

/-- The records that a list of contents makes from a position on. -/
def chainRecords (count : ℕ) (hash : List UInt8) :
    List (String × List UInt8) → List JournalRecord
  | [] => []
  | content :: rest =>
      nextRecord count hash content :: chainRecords (count + 1) (chainHash hash content) rest

variable {F : Type} [PyFloat F] [FloatText F]

/-- What one turn of the verification loop has checked. -/
structure RecordVerified (limits : JournalLimits) (state : VerifyState) (record : JournalRecord)
    (decoded : ExecutionEvent F) : Prop where
  ordinal : record.ordinal = state.ordinal
  fresh : record.eventId ∉ state.seenIds
  previousHash : record.previousHash = state.previousHash
  payload_length : record.payload.length ≤ limits.maxEventBytes.1
  eventHash : record.eventHash = chainHash state.previousHash record.content
  decodes : decodeEvent F record.payload = .ok decoded
  eventId : checkedEventId decoded.eventId limits.maxEventIdBytes.1 = .ok record.eventId
  canonical : decoded.canonicalBytes = record.payload
  ordered : ∀ key ∈ state.previousOrderKey, key < decoded.orderKey
  total : state.totalPayloadBytes + record.payload.length ≤ limits.maxTotalPayloadBytes.1

/-- The state after a record. -/
def VerifyState.next (state : VerifyState) (record : JournalRecord)
    (decoded : ExecutionEvent F) : VerifyState where
  ordinal := state.ordinal + 1
  seenIds := record.eventId :: state.seenIds
  previousHash := chainHash state.previousHash record.content
  previousOrderKey := some decoded.orderKey
  totalPayloadBytes := state.totalPayloadBytes + record.payload.length
  payloads := state.payloads ++ [record.payload]

theorem verifyRecord_eq_ok_iff {limits : JournalLimits} {state state' : VerifyState}
    {record : JournalRecord} :
    verifyRecord F limits state record = .ok state' ↔
      ∃ decoded : ExecutionEvent F, RecordVerified limits state record decoded ∧
        state' = state.next record decoded := by
  simp only [verifyRecord, bind_eq_ok_iff, refuseIf_eq_ok_iff, exists_const, pure_eq_ok,
    Except.ok.injEq, not_not, gt_iff_lt, not_lt, not_exists, not_and, not_le, ne_eq]
  constructor
  · rintro ⟨hordinal, hfresh, hprevious, hpayload, hid, hhash, decoded, hdecoded, eventId, heventId,
      rfl, hcanonical, hordered, htotal, rfl⟩
    exact ⟨decoded, ⟨hordinal, hfresh, hprevious, hpayload, hhash, hdecoded, heventId, hcanonical,
      hordered, htotal⟩, rfl⟩
  · rintro ⟨decoded, h, rfl⟩
    obtain ⟨⟨-, hlength⟩, -, hid⟩ := checkedEventId_eq_ok_iff.mp h.eventId
    rw [hid] at hlength
    exact ⟨h.ordinal, h.fresh, h.previousHash, h.payload_length, hlength, h.eventHash, decoded,
      h.decodes, record.eventId, h.eventId, rfl, h.canonical, h.ordered, h.total, rfl⟩

/-- A verified record is the next record of its content. -/
theorem RecordVerified.eq_nextRecord {limits : JournalLimits} {state : VerifyState}
    {record : JournalRecord} {decoded : ExecutionEvent F} {count : ℕ}
    (h : RecordVerified limits state record decoded) (hcount : state.ordinal = count + 1) :
    record = nextRecord count state.previousHash record.content := by
  obtain ⟨ordinal, eventId, payload, previousHash, eventHash⟩ := record
  have hordinal : ordinal = state.ordinal := h.ordinal
  have hprevious : previousHash = state.previousHash := h.previousHash
  have hhash : eventHash = chainHash state.previousHash (eventId, payload) := h.eventHash
  simp only [nextRecord, JournalRecord.content, hordinal, hprevious, hhash, hcount]

/-- Limits within the ceilings keep the contents of records encodable. -/
theorem RecordVerified.encodable {limits : JournalLimits} {state : VerifyState}
    {record : JournalRecord} {decoded : ExecutionEvent F}
    (h : RecordVerified limits state record decoded) : Encodable record.content := by
  obtain ⟨⟨-, hlength⟩, -, hid⟩ := checkedEventId_eq_ok_iff.mp h.eventId
  rw [hid] at hlength
  have hidMax := limits.maxEventIdBytes.2.2
  have hpayloadMax := limits.maxEventBytes.2.2
  have hpayload := h.payload_length
  simp only [hardMaxEventIdBytes, hardMaxEventBytes] at hidMax hpayloadMax
  refine ⟨?_, ?_⟩
  · exact lt_of_le_of_lt (hlength.trans hidMax) (by decide)
  · exact lt_of_le_of_lt (hpayload.trans hpayloadMax) (by decide)

/-- What a verified run of records says from some state on. -/
structure RunVerified (count : ℕ) (state state' : VerifyState) (records : List JournalRecord) :
    Prop where
  eq_chainRecords : records = chainRecords count state.previousHash (records.map JournalRecord.content)
  encodable : ∀ record ∈ records, Encodable record.content
  head : state'.previousHash =
    HashChain.head chainHash state.previousHash (records.map JournalRecord.content)

theorem runVerified_of_foldlM {limits : JournalLimits} {records : List JournalRecord} {count : ℕ}
    {state state' : VerifyState} (hcount : state.ordinal = count + 1)
    (h : records.foldlM (verifyRecord F limits) state = .ok state') :
    RunVerified count state state' records := by
  induction records generalizing count state with
  | nil =>
      cases h
      exact ⟨rfl, by simp, rfl⟩
  | cons record records ih =>
      rw [List.foldlM_cons, bind_eq_ok_iff] at h
      obtain ⟨next, hrecord, hrest⟩ := h
      obtain ⟨decoded, hverified, rfl⟩ := verifyRecord_eq_ok_iff.mp hrecord
      have hnext : (state.next record decoded).ordinal = (count + 1 : ℕ) + 1 := by
        simp [VerifyState.next, hcount]
      obtain ⟨hrecords, hencodable, hhead⟩ := ih hnext hrest
      have hlink : (state.next record decoded).previousHash =
          chainHash state.previousHash record.content := rfl
      refine ⟨?_, ?_, ?_⟩
      · rw [List.map_cons, chainRecords, ← hverified.eq_nextRecord hcount, ← hlink, ← hrecords]
      · intro r hr
        rcases List.mem_cons.mp hr with rfl | hr
        · exact hverified.encodable
        · exact hencodable r hr
      · rw [hhead, hlink, List.map_cons]
        rfl

theorem verifiedRecords_eq_ok_iff {records : List JournalRecord} {head : JournalHead} {total : ℕ}
    {limits : JournalLimits} {payloads : List (List UInt8)} :
    verifiedRecords F records head total limits = .ok payloads ↔
      records.length = head.count ∧ records.length ≤ limits.maxEvents.1 ∧
        ∃ state, records.foldlM (verifyRecord F limits) VerifyState.initial = .ok state ∧
          state.totalPayloadBytes = total ∧ state.previousHash = head.eventHash ∧
          (head.count = 0 → head.eventHash = genesisHash) ∧ state.payloads = payloads := by
  simp only [verifiedRecords, bind_eq_ok_iff, refuseIf_eq_ok_iff, exists_const, pure_eq_ok,
    Except.ok.injEq, ne_eq, not_not, gt_iff_lt, not_lt, not_and]

/-- A list of records that passes verification against a head. -/
theorem runVerified_of_verifiedRecords {records : List JournalRecord} {head : JournalHead}
    {total : ℕ} {limits : JournalLimits} {payloads : List (List UInt8)}
    (h : verifiedRecords F records head total limits = .ok payloads) :
    ∃ state, RunVerified 0 VerifyState.initial state records ∧
      records.length = head.count ∧ state.previousHash = head.eventHash := by
  obtain ⟨hcount, -, state, hrun, -, hhash, -, -⟩ := verifiedRecords_eq_ok_iff.mp h
  exact ⟨state, runVerified_of_foldlM rfl hrun, hcount, hhash⟩

/-! ## Collisions -/

/-- SHA-256 does not collide on the bytes hashed for two lists of contents. -/
def ChainCollisionFree (contents contents' : List (String × List UInt8)) : Prop :=
  ∀ l ∈ HashChain.links chainHash genesisHash contents,
    ∀ m ∈ HashChain.links chainHash genesisHash contents',
      PyRuntime.sha256 (chainInput l.1 l.2) = PyRuntime.sha256 (chainInput m.1 m.2) →
        chainInput l.1 l.2 = chainInput m.1 m.2

theorem length_of_mem_links {hash : List UInt8} (hhash : hash.length = hashSize)
    {contents : List (String × List UInt8)} {l : List UInt8 × (String × List UInt8)}
    (h : l ∈ HashChain.links chainHash hash contents) :
    l.1.length = hashSize ∧ l.2 ∈ contents := by
  induction contents generalizing hash with
  | nil => cases h
  | cons content contents ih =>
      rcases List.mem_cons.mp h with rfl | h
      · exact ⟨hhash, List.mem_cons_self⟩
      · obtain ⟨hlength, hmem⟩ := ih (PyRuntime.sha256_length _) h
        exact ⟨hlength, List.mem_cons_of_mem content hmem⟩

theorem ChainCollisionFree.links {contents contents' : List (String × List UInt8)}
    (hfree : ChainCollisionFree contents contents') (h : ∀ c ∈ contents, Encodable c)
    (h' : ∀ c ∈ contents', Encodable c) :
    HashChain.CollisionFree chainHash (HashChain.links chainHash genesisHash contents)
      (HashChain.links chainHash genesisHash contents') := by
  intro l hl m hm hcollide
  have hgenesis : genesisHash.length = hashSize := by decide
  obtain ⟨hlLength, hlMem⟩ := length_of_mem_links hgenesis hl
  obtain ⟨hmLength, hmMem⟩ := length_of_mem_links hgenesis hm
  obtain ⟨hprevious, hcontent⟩ := chainInput_injective (hlLength.trans hmLength.symm)
    (h l.2 hlMem) (h' m.2 hmMem) (hfree l hl m hm hcollide)
  exact Prod.ext hprevious hcontent

/-- Two record lists that are accepted under one head have the same contents. -/
theorem contents_eq_of_verifiedRecords {records records' : List JournalRecord}
    {head : JournalHead} {total total' : ℕ} {limits limits' : JournalLimits}
    {payloads payloads' : List (List UInt8)}
    (h : verifiedRecords F records head total limits = .ok payloads)
    (h' : verifiedRecords F records' head total' limits' = .ok payloads')
    (hfree : ChainCollisionFree (records.map JournalRecord.content)
      (records'.map JournalRecord.content)) :
    records.map JournalRecord.content = records'.map JournalRecord.content := by
  obtain ⟨state, hrun, hcount, hhash⟩ := runVerified_of_verifiedRecords h
  obtain ⟨state', hrun', hcount', hhash'⟩ := runVerified_of_verifiedRecords h'
  have hencodable : ∀ c ∈ records.map JournalRecord.content, Encodable c := by
    simpa using hrun.encodable
  have hencodable' : ∀ c ∈ records'.map JournalRecord.content, Encodable c := by
    simpa using hrun'.encodable
  refine HashChain.eq_of_head_eq chainHash ?_ (hfree.links hencodable hencodable') ?_
  · simp [hcount, hcount']
  · have hheads : state.previousHash = state'.previousHash := hhash.trans hhash'.symm
    rw [hrun.head, hrun'.head] at hheads
    exact hheads

/-- Records that are accepted under one head are the same records. -/
theorem records_eq_of_verifiedRecords {records records' : List JournalRecord}
    {head : JournalHead} {total total' : ℕ} {limits limits' : JournalLimits}
    {payloads payloads' : List (List UInt8)}
    (h : verifiedRecords F records head total limits = .ok payloads)
    (h' : verifiedRecords F records' head total' limits' = .ok payloads')
    (hfree : ChainCollisionFree (records.map JournalRecord.content)
      (records'.map JournalRecord.content)) : records = records' := by
  obtain ⟨_, hrun, -, -⟩ := runVerified_of_verifiedRecords h
  obtain ⟨_, hrun', -, -⟩ := runVerified_of_verifiedRecords h'
  rw [hrun.eq_chainRecords, hrun'.eq_chainRecords, contents_eq_of_verifiedRecords h h' hfree]

end SignalFoundry
