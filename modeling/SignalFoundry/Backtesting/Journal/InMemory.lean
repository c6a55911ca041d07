import SignalFoundry.Backtesting.Journal.Records
import SignalFoundry.Library.OrderedDict

/-!
# The in-memory journal

A bounded list of records with an index of identifiers. A call that raises
leaves the journal as it was, so `append` returns the new journal only when it
returns at all.
-/

namespace SignalFoundry

open Fallible

/-- The digest at the end of a list of records. -/
def headHashOf (records : List JournalRecord) : List UInt8 :=
  match records.getLast? with
  | none => genesisHash
  | some record => record.eventHash

@[simp] theorem headHashOf_append_singleton (records : List JournalRecord)
    (record : JournalRecord) : headHashOf (records ++ [record]) = record.eventHash := by
  simp [headHashOf]

/-- `InMemoryJournal`. Its records have digests of the right size. -/
structure InMemoryJournal where
  limits : JournalLimits
  records : List JournalRecord
  indices : OrderedDict String ℕ
  totalPayloadBytes : ℕ
  closed : Bool
  eventHash_length : ∀ record ∈ records, record.eventHash.length = hashSize

/-- The defaults of `InMemoryJournal`. -/
def defaultMaxEvents : ℤ := 1000000
def defaultMaxEventBytes : ℤ := 4 * 1024 * 1024
def defaultMaxTotalPayloadBytes : ℤ := 512 * 1024 * 1024
def defaultMaxEventIdBytes : ℤ := 512

theorem length_headHashOf {records : List JournalRecord}
    (h : ∀ record ∈ records, record.eventHash.length = hashSize) :
    (headHashOf records).length = hashSize := by
  unfold headHashOf
  split
  · decide
  · next record hlast => exact h record (List.mem_of_getLast? hlast)

namespace InMemoryJournal

theorem eventHash_length_nil :
    ∀ record ∈ ([] : List JournalRecord), record.eventHash.length = hashSize := by
  simp

/-- `InMemoryJournal(...)`. -/
def create (maxEvents maxEventBytes maxTotalPayloadBytes maxEventIdBytes : ℤ) :
    Except PyError InMemoryJournal := do
  let limits ← JournalLimits.create maxEvents maxEventBytes maxTotalPayloadBytes maxEventIdBytes
  return { limits, records := [], indices := .empty, totalPayloadBytes := 0, closed := false,
           eventHash_length := eventHash_length_nil }

def checkOpen (journal : InMemoryJournal) : Except JournalError Unit :=
  refuseIf (journal.closed = true) ⟨.closed, "journal is closed"⟩

def count (journal : InMemoryJournal) : Except JournalError ℕ := do
  journal.checkOpen
  return journal.records.length

def headHash (journal : InMemoryJournal) : Except JournalError (List UInt8) := do
  journal.checkOpen
  return headHashOf journal.records

/-- The head of the journal as its own records give it. -/
def head (journal : InMemoryJournal) : JournalHead where
  count := journal.records.length
  eventHash := headHashOf journal.records
  eventHash_length := length_headHashOf journal.eventHash_length

/-- The record that the index has for an identifier. -/
def existing? (journal : InMemoryJournal) (eventId : String) : Option JournalRecord := do
  let index ← journal.indices.get? eventId
  journal.records[index]?

def close (journal : InMemoryJournal) : InMemoryJournal := { journal with closed := true }

end InMemoryJournal

variable [PyRuntime] {F : Type} [PyFloat F] [FloatText F]

/-- `_canonical_event`: the identifier and the canonical bytes of an event that
passes through its own encoding. -/
def canonicalEvent (limits : JournalLimits) (event : ExecutionEvent F) :
    Except JournalError (String × List UInt8) := do
  let eventId ← checkedEventId event.eventId limits.maxEventIdBytes.1
  let payload := event.canonicalBytes
  refuseIf (payload.length > limits.maxEventBytes.1)
    (.resourceLimit ("canonical event exceeds the " ++ toString limits.maxEventBytes.1 ++
      "-byte event limit"))
  let decoded ← decodeEvent F payload
  let decodedId ← checkedEventId decoded.eventId limits.maxEventIdBytes.1
  refuseIf (decodedId ≠ eventId)
    (.integrity "canonical payload event_id does not match the event")
  refuseIf (decoded.canonicalBytes ≠ payload)
    (.integrity "event payload is not in canonical form")
  return (eventId, payload)

/-- The error for an identifier that is reused with other bytes. -/
def collisionError (eventId : String) : JournalError :=
  ⟨.collision, "event_id " ++ PyRuntime.strRepr eventId ++
    " already identifies different canonical bytes"⟩

/-- The check that an event follows the last stored one. -/
def checkOrder (event : ExecutionEvent F) (lastPayload : List UInt8) :
    Except JournalError Unit := do
  let previousEvent ← decodeEvent F lastPayload
  refuseIf (event.orderKey ≤ previousEvent.orderKey)
    ⟨.ordering, "event does not follow the committed logical coordinate"⟩

/-- The record that extends a chain. -/
def nextRecord (count : ℕ) (previousHash : List UInt8) (content : String × List UInt8) :
    JournalRecord where
  ordinal := count + 1
  eventId := content.1
  payload := content.2
  previousHash := previousHash
  eventHash := chainHash previousHash content

namespace InMemoryJournal

/-- The journal with one more record. -/
def push (journal : InMemoryJournal) (content : String × List UInt8) : InMemoryJournal :=
  { journal with
    records := journal.records ++
      [nextRecord journal.records.length (headHashOf journal.records) content]
    indices := journal.indices.set content.1 journal.records.length
    totalPayloadBytes := journal.totalPayloadBytes + content.2.length
    eventHash_length := by
      intro record hrecord
      rcases List.mem_append.mp hrecord with hold | hnew
      · exact journal.eventHash_length record hold
      · rw [List.mem_singleton.mp hnew]
        exact PyRuntime.sha256_length _ }

/-- The check that an event follows the last record. -/
def checkLast (journal : InMemoryJournal) (canonicalEvent : ExecutionEvent F) :
    Except JournalError Unit :=
  match journal.records.getLast? with
  | some last => checkOrder canonicalEvent last.payload
  | none => .ok ()

/-- The part of `append` that follows the checks of the event alone. -/
def store (journal : InMemoryJournal) (content : String × List UInt8)
    (canonicalEvent : ExecutionEvent F) : Except JournalError (Bool × InMemoryJournal) := do
  journal.checkOpen
  match journal.existing? content.1 with
  | some existing =>
      if existing.payload = content.2 then return (false, journal)
      else .error (collisionError content.1)
  | none => do
      refuseIf (journal.records.length ≥ journal.limits.maxEvents.1)
        (.resourceLimit "journal event-count limit would be exceeded")
      refuseIf (journal.totalPayloadBytes + content.2.length >
          journal.limits.maxTotalPayloadBytes.1)
        (.resourceLimit "journal payload-size limit would be exceeded")
      journal.checkLast canonicalEvent
      return (true, journal.push content)

/-- `append`. -/
def append (journal : InMemoryJournal) (event : ExecutionEvent F) :
    Except JournalError (Bool × InMemoryJournal) := do
  let content ← canonicalEvent journal.limits event
  let canonicalEvent ← decodeEvent F content.2
  journal.store content canonicalEvent

/-- An append, as a step of a machine. -/
def appendStep (journal : InMemoryJournal) (event : ExecutionEvent F) :
    Except JournalError Bool × InMemoryJournal :=
  match journal.append event with
  | .ok (stored, next) => (.ok stored, next)
  | .error e => (.error e, journal)

variable (F) in
/-- `export_canonical`. -/
def exportCanonical (journal : InMemoryJournal) : Except JournalError (List (List UInt8)) := do
  journal.checkOpen
  verifiedRecords F journal.records journal.head journal.totalPayloadBytes journal.limits

variable (F) in
/-- `verify`. -/
def verify (journal : InMemoryJournal) : Except JournalError JournalHead := do
  let _ ← journal.exportCanonical F
  return journal.head

variable (F) in
/-- `events`. -/
def events (journal : InMemoryJournal) : Except JournalError (List (ExecutionEvent F)) := do
  (← journal.exportCanonical F).mapM (decodeEvent F)

end InMemoryJournal

end SignalFoundry
