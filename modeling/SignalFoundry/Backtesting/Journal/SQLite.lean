import SignalFoundry.Backtesting.Journal.InMemory

/-!
# The SQLite journal

Two tables with their constraints and triggers, and the calls of the journal on
them. SQLite gives a transaction as a whole or not at all: the statements of a
transaction compute the next contents of the database, which are its contents
only if the transaction commits. No statement of the journal changes the schema,
so the checks of the schema pass after it was created and are left out. What
SQLite and the file system do during an append is a parameter of that append.
-/

namespace SignalFoundry

open Fallible

/-! ## Errors and tables -/

/-- The classes of `sqlite3.Error` that the journal tells apart. -/
inductive SqliteError where
  | busy
  | database
  | other
  deriving DecidableEq, Repr

/-- `_mapped_sqlite_error`. -/
def mappedSqliteError (operation : String) : SqliteError → JournalError
  | .busy => ⟨.busy, "SQLite journal is busy during " ++ operation⟩
  | .database => .integrity ("SQLite journal failed integrity during " ++ operation)
  | .other => ⟨.error, "SQLite journal failed during " ++ operation⟩

/-- A statement of an operation. -/
def during {α : Type} (operation : String) (statement : Except SqliteError α) :
    Except JournalError α :=
  statement.mapError (mappedSqliteError operation)

/-- The row of `journal_metadata`. Its key and its delete trigger keep it the only
one. -/
structure MetadataRow where
  eventCount : ℤ
  totalPayloadBytes : ℤ
  headHash : List UInt8
  deriving DecidableEq, Repr

/-- A row of `journal_events`. -/
structure EventRow where
  ordinal : ℤ
  eventId : String
  payload : List UInt8
  payloadSize : ℤ
  previousHash : List UInt8
  eventHash : List UInt8
  deriving DecidableEq, Repr

/-- The `CHECK` constraints of `journal_metadata`. -/
structure MetadataRow.Checked (row : MetadataRow) : Prop where
  eventCount_nonneg : row.eventCount ≥ 0
  totalPayloadBytes_nonneg : row.totalPayloadBytes ≥ 0
  length_headHash : row.headHash.length = hashSize

/-- `length` of a text value: its characters before the first NUL. -/
def sqlLength (text : String) : ℕ := (text.toList.takeWhile fun c => c != '\x00').length

/-- The `CHECK` constraints of `journal_events`. -/
structure EventRow.Checked (row : EventRow) : Prop where
  ordinal_pos : row.ordinal ≥ 1
  eventId_nonempty : sqlLength row.eventId ≥ 1
  eventId_length : (PyText.encodeUtf8 row.eventId).length ≤ hardMaxEventIdBytes
  payload_length : row.payload.length ≤ hardMaxEventBytes
  payloadSize_eq : row.payloadSize = row.payload.length
  length_previousHash : row.previousHash.length = hashSize
  length_eventHash : row.eventHash.length = hashSize

instance (row : MetadataRow) : Decidable row.Checked :=
  decidable_of_iff (row.eventCount ≥ 0 ∧ row.totalPayloadBytes ≥ 0 ∧
    row.headHash.length = hashSize) ⟨fun ⟨a, b, c⟩ => ⟨a, b, c⟩, fun ⟨a, b, c⟩ => ⟨a, b, c⟩⟩

instance (row : EventRow) : Decidable row.Checked :=
  decidable_of_iff (row.ordinal ≥ 1 ∧ sqlLength row.eventId ≥ 1 ∧
      (PyText.encodeUtf8 row.eventId).length ≤ hardMaxEventIdBytes ∧
      row.payload.length ≤ hardMaxEventBytes ∧ row.payloadSize = row.payload.length ∧
      row.previousHash.length = hashSize ∧ row.eventHash.length = hashSize)
    ⟨fun ⟨a, b, c, d, e, f, g⟩ => ⟨a, b, c, d, e, f, g⟩,
      fun ⟨a, b, c, d, e, f, g⟩ => ⟨a, b, c, d, e, f, g⟩⟩

/-- Two rows that a key of `journal_events` keeps apart. -/
def EventRow.Conflicts (row other : EventRow) : Prop :=
  row.ordinal = other.ordinal ∨ row.eventId = other.eventId ∨ row.eventHash = other.eventHash

instance (row other : EventRow) : Decidable (row.Conflicts other) :=
  inferInstanceAs (Decidable (_ ∨ _ ∨ _))

/-- The rows of the database, the events in their order of insertion. -/
structure JournalDatabase where
  metadata : MetadataRow
  events : List EventRow

namespace JournalDatabase

/-- The tables after `_initialize_schema`. -/
def initial : JournalDatabase where
  metadata := { eventCount := 0, totalPayloadBytes := 0, headHash := genesisHash }
  events := []

/-- `INSERT INTO journal_events`, after `journal_events_ordered_insert`. -/
def insertEvent (database : JournalDatabase) (row : EventRow) :
    Except SqliteError JournalDatabase := do
  refuseIf (row.ordinal ≠ database.metadata.eventCount + 1 ∨
    row.previousHash ≠ database.metadata.headHash) .database
  refuseIf (¬ row.Checked) .database
  refuseIf (∃ other ∈ database.events, other.Conflicts row) .database
  return { database with events := database.events ++ [row] }

/-- `UPDATE journal_metadata ... WHERE event_count = ? AND head_hash = ?`, with
the number of rows that it changes. -/
def updateMetadata (database : JournalDatabase) (row : MetadataRow) (eventCount : ℤ)
    (headHash : List UInt8) : Except SqliteError (ℕ × JournalDatabase) := do
  if database.metadata.eventCount = eventCount ∧ database.metadata.headHash = headHash then do
    refuseIf (¬ row.Checked) .database
    return (1, { database with metadata := row })
  else return (0, database)

/-- `_metadata`: the head and the total of the payload bytes. -/
def readMetadata (database : JournalDatabase) : Except JournalError (JournalHead × ℕ) := do
  let row := database.metadata
  refuseIf (row.eventCount < 0) (.integrity "journal metadata count is invalid")
  refuseIf (row.totalPayloadBytes < 0) (.integrity "journal payload-byte metadata is invalid")
  let ⟨length_headHash⟩ ← require (row.headHash.length = hashSize)
    (.integrity "journal metadata head hash is invalid")
  return ({ count := row.eventCount.toNat, eventHash := row.headHash,
            eventHash_length := length_headHash }, row.totalPayloadBytes.toNat)

/-- The checks of one row in `_records_from_database`. -/
def recordOfRow (row : EventRow) : Except JournalError JournalRecord := do
  refuseIf (row.payloadSize ≠ row.payload.length) (.integrity "journal row payload size is invalid")
  refuseIf (row.previousHash.length ≠ hashSize ∨ row.eventHash.length ≠ hashSize)
    (.integrity "journal row hash has an invalid length")
  return { ordinal := row.ordinal, eventId := row.eventId, payload := row.payload,
           previousHash := row.previousHash, eventHash := row.eventHash }

/-- `_records_from_database`. -/
def recordsFromDatabase (database : JournalDatabase) : Except JournalError (List JournalRecord) :=
  (database.events.mergeSort fun a b => a.ordinal ≤ b.ordinal).mapM recordOfRow

end JournalDatabase

/-! ## The journal -/

def maxBusyTimeoutMs : ℕ := 60000

/-- `SQLiteJournal`, between two calls. -/
structure SQLiteJournal where
  limits : JournalLimits
  maxDatabaseBytes : { n : ℕ // minDatabaseBytes ≤ n ∧ n ≤ hardMaxDatabaseBytes }
  pageSize : ℕ
  database : JournalDatabase
  closed : Bool

/-- What SQLite and the file system do during an append: failures of the
statements up to `COMMIT` and of the checks of the files after it, and the
sizes that the two checks of the database size find. -/
structure AppendConditions where
  statements : Except SqliteError Unit
  sizeBefore : ℕ
  commit : Except SqliteError Unit
  sidecars : Except JournalError Unit
  sizeAfter : ℕ

namespace SQLiteJournal

/-- `SQLiteJournal(...)` on a new database. -/
def create (maxEvents maxEventBytes maxTotalPayloadBytes maxEventIdBytes maxDatabaseBytes
    busyTimeoutMs : ℤ) (pageSize : ℕ) : Except PyError SQLiteJournal := do
  let limits ← JournalLimits.create maxEvents maxEventBytes maxTotalPayloadBytes maxEventIdBytes
  let maxDatabaseBytes ← boundedLimit "max_database_bytes" maxDatabaseBytes minDatabaseBytes
    hardMaxDatabaseBytes
  refuseIf (limits.maxTotalPayloadBytes.1 > maxDatabaseBytes.1)
    (.valueError "max_total_payload_bytes cannot exceed max_database_bytes")
  let _ ← boundedLimit "busy_timeout_ms" busyTimeoutMs 0 maxBusyTimeoutMs
  return { limits, maxDatabaseBytes, pageSize, database := .initial, closed := false }

/-- `_check_open`, on the thread that created the journal. -/
def checkOpen (journal : SQLiteJournal) : Except JournalError Unit :=
  refuseIf (journal.closed = true) ⟨.closed, "journal is closed"⟩

def count (journal : SQLiteJournal) : Except JournalError ℕ := do
  journal.checkOpen
  return (← journal.database.readMetadata).1.count

def headHash (journal : SQLiteJournal) : Except JournalError (List UInt8) := do
  journal.checkOpen
  return (← journal.database.readMetadata).1.eventHash

/-- `_check_database_growth`. -/
def checkDatabaseGrowth (journal : SQLiteJournal) (conditions : AppendConditions)
    (payloadBytes : ℕ) : Except JournalError Unit :=
  refuseIf (conditions.sizeBefore + (payloadBytes + 16 * journal.pageSize) >
      journal.maxDatabaseBytes.1)
    (.resourceLimit "append could exceed the SQLite database-size limit")

/-- `_check_database_size`. -/
def checkDatabaseSize (journal : SQLiteJournal) (conditions : AppendConditions) :
    Except JournalError Unit :=
  refuseIf (conditions.sizeAfter > journal.maxDatabaseBytes.1)
    (.resourceLimit "SQLite journal exceeds the database-size limit")

variable [PyRuntime] {F : Type} [PyFloat F] [FloatText F]

/-- The check that an event follows the one at the tail of the table. -/
def checkTail (database : JournalDatabase) (count : ℕ) (canonicalEvent : ExecutionEvent F) :
    Except JournalError Unit :=
  if count = 0 then .ok ()
  else
    match database.events.find? fun row => row.ordinal = (count : ℤ) with
    | none => .error (.integrity "committed journal tail is missing or malformed")
    | some row => checkOrder canonicalEvent row.payload

/-- The row that extends a head by a content. -/
def nextRow (head : JournalHead) (content : String × List UInt8) : EventRow where
  ordinal := head.count + 1
  eventId := content.1
  payload := content.2
  payloadSize := content.2.length
  previousHash := head.eventHash
  eventHash := chainHash head.eventHash content

/-- The metadata after that row. -/
def nextMetadata (head : JournalHead) (nextTotal : ℕ) (content : String × List UInt8) :
    MetadataRow where
  eventCount := head.count + 1
  totalPayloadBytes := nextTotal
  headHash := chainHash head.eventHash content

/-- The statements that store a content. -/
def writeEvent (database : JournalDatabase) (head : JournalHead) (nextTotal : ℕ)
    (content : String × List UInt8) : Except JournalError JournalDatabase := do
  let inserted ← during "append" (database.insertEvent (nextRow head content))
  let (rowcount, updated) ← during "append"
    (inserted.updateMetadata (nextMetadata head nextTotal content) head.count head.eventHash)
  refuseIf (rowcount ≠ 1) (.integrity "journal head changed during append")
  return updated

/-- The transaction of `append`: its result, and the database that it commits. -/
def transaction (journal : SQLiteJournal) (conditions : AppendConditions)
    (content : String × List UInt8) (canonicalEvent : ExecutionEvent F) :
    Except JournalError (Bool × JournalDatabase) := do
  let database := journal.database
  during "append" conditions.statements
  match database.events.find? fun row => row.eventId = content.1 with
  | some existing => do
      refuseIf (existing.eventHash ≠
          chainHash existing.previousHash (content.1, existing.payload))
        (.integrity "existing journal event hash is invalid")
      if existing.payload = content.2 then return (false, database)
      else .error (collisionError content.1)
  | none => do
      let (head, total) ← database.readMetadata
      refuseIf (head.count ≥ journal.limits.maxEvents.1)
        (.resourceLimit "journal event-count limit would be exceeded")
      refuseIf (total + content.2.length > journal.limits.maxTotalPayloadBytes.1)
        (.resourceLimit "journal payload-size limit would be exceeded")
      checkTail database head.count canonicalEvent
      journal.checkDatabaseGrowth conditions content.2.length
      let written ← writeEvent database head (total + content.2.length) content
      during "append" conditions.commit
      return (true, written)

/-- The checks before the transaction of `append`. -/
def prepare (journal : SQLiteJournal) (event : ExecutionEvent F) :
    Except JournalError ((String × List UInt8) × ExecutionEvent F) := do
  journal.checkOpen
  let content ← canonicalEvent journal.limits event
  let canonicalEvent ← decodeEvent F content.2
  return (content, canonicalEvent)

/-- The checks after `COMMIT`, which can raise although the event is stored. -/
def checkCommitted (journal : SQLiteJournal) (conditions : AppendConditions) :
    Except JournalError Bool := do
  conditions.sidecars
  journal.checkDatabaseSize conditions
  return true

/-- `append`. A transaction that raises is rolled back. -/
def append (journal : SQLiteJournal) (event : ExecutionEvent F) (conditions : AppendConditions) :
    Except JournalError Bool × SQLiteJournal :=
  match journal.prepare event with
  | .error e => (.error e, journal)
  | .ok (content, canonicalEvent) =>
      match journal.transaction conditions content canonicalEvent with
      | .error e => (.error e, journal)
      | .ok (false, _) => (.ok false, journal)
      | .ok (true, database) => (journal.checkCommitted conditions, { journal with database })

variable (F) in
/-- `_verified_snapshot`. -/
def verifiedSnapshot (journal : SQLiteJournal) :
    Except JournalError (List (List UInt8) × JournalHead) := do
  let (head, total) ← journal.database.readMetadata
  let records ← journal.database.recordsFromDatabase
  let payloads ← verifiedRecords F records head total journal.limits
  return (payloads, head)

variable (F) in
/-- `export_canonical`. -/
def exportCanonical (journal : SQLiteJournal) : Except JournalError (List (List UInt8)) := do
  journal.checkOpen
  return (← journal.verifiedSnapshot F).1

variable (F) in
/-- `verify`. -/
def verify (journal : SQLiteJournal) : Except JournalError JournalHead := do
  journal.checkOpen
  return (← journal.verifiedSnapshot F).2

variable (F) in
/-- `events`. -/
def events (journal : SQLiteJournal) : Except JournalError (List (ExecutionEvent F)) := do
  (← journal.exportCanonical F).mapM (decodeEvent F)

end SQLiteJournal

end SignalFoundry
